import Mathlib.Data.List.Forall2
import Postal.Text

/-!
# ASCII case

Two texts agree in upper case exactly if they are the same up to the case of
their ASCII letters. No other character has a case here.
-/

set_option autoImplicit false

namespace Postal.Text

def CasesOfLetter (upper lower : Char) : Prop :=
  'A'.toNat ≤ upper.toNat ∧ upper.toNat ≤ 'Z'.toNat ∧ lower.toNat = upper.toNat + 32

def SameLetter (c d : Char) : Prop := c = d ∨ CasesOfLetter c d ∨ CasesOfLetter d c

/-- The same text, up to the case of ASCII letters. -/
def SameUpToCase (s t : Text) : Prop := List.Forall₂ SameLetter s t

theorem toNat_toUpper (c : Char) :
    c.toUpper.toNat = if 97 ≤ c.toNat ∧ c.toNat ≤ 122 then c.toNat - 32 else c.toNat := by
  unfold Char.toUpper
  split
  · rename_i h
    have hlow : 97 ≤ c.toNat := h.1
    have hhigh : c.toNat ≤ 122 := h.2
    rw [if_pos ⟨hlow, hhigh⟩]
    have hshift : ('A'.val - 'a'.val).toNat = 2 ^ 32 - 32 := rfl
    change (c.val + ('A'.val - 'a'.val)).toNat = c.toNat - 32
    rw [UInt32.toNat_add, hshift]
    change (c.toNat + (2 ^ 32 - 32)) % 2 ^ 32 = c.toNat - 32
    omega
  · rename_i h
    rw [if_neg]
    exact h

theorem toUpper_eq_iff (c d : Char) : c.toUpper = d.toUpper ↔ SameLetter c d := by
  rw [← Char.toNat_inj, toNat_toUpper, toNat_toUpper, SameLetter, ← Char.toNat_inj,
    CasesOfLetter, CasesOfLetter]
  have hA : 'A'.toNat = 65 := rfl
  have hZ : 'Z'.toNat = 90 := rfl
  rw [hA, hZ]
  split_ifs <;> omega

theorem upperCase_eq_iff (s t : Text) : s.upperCase = t.upperCase ↔ SameUpToCase s t := by
  rw [upperCase, upperCase, ← List.forall₂_eq_eq_eq, List.forall₂_map_left_iff,
    List.forall₂_map_right_iff, SameUpToCase]
  simp only [toUpper_eq_iff]

end Postal.Text
