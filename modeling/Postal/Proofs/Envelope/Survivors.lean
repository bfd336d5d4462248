import Postal.Envelope
import Postal.Proofs.Template.Tokens

/-!
# Surviving places

Which tokens of a template should be printed for an address, told by the line
on which they stand. A literal stays if what follows it stays or the line ends,
and if it opens its line or some field before it on the line has a value.
-/

set_option autoImplicit false

namespace Postal.Envelope

section
variable (a : Address) (template : Template)

def Populated (code : Char) : Prop := ∃ f, Field.ofCode code = .ok f ∧ (a.value f).isSome

def PopulatedAt (i : ℕ) : Prop := ∃ code, template[i]? = some (.field code) ∧ Populated a code

def LineEndAt (i : ℕ) : Prop := template[i]? = none ∨ template[i]? = some .newline

def FirstOnLine (i : ℕ) : Prop := i = 0 ∨ template[i - 1]? = some .newline

def OnLine (i : ℕ) : Prop :=
  ∃ j < i, PopulatedAt a template j ∧ ∀ m, j < m → m < i → template[m]? ≠ some .newline

/-- The rule of pruning, by the place in the template. -/
def Survives (i : ℕ) : Prop :=
  template[i]? = some .newline ∨ PopulatedAt a template i ∨
    (∃ text, template[i]? = some (.literal text)) ∧
      (LineEndAt template (i + 1) ∨ PopulatedAt a template (i + 1)) ∧
      (FirstOnLine template i ∨ OnLine a template i)

end

theorem onLine_succ (a : Address) (template : Template) (n : ℕ) :
    OnLine a template (n + 1) ↔ template[n]? ≠ some .newline ∧
      (PopulatedAt a template n ∨ OnLine a template n) := by
  constructor
  · rintro ⟨j, hj, hp, hl⟩
    by_cases he : j = n
    · subst he
      obtain ⟨code, hc, -⟩ := id hp
      exact ⟨by simp [hc], .inl hp⟩
    · exact ⟨hl n (by omega) (by omega), .inr ⟨j, by omega, hp, fun m h1 h2 => hl m h1 (by omega)⟩⟩
  · rintro ⟨hn, hp | ⟨j, hj, hp, hl⟩⟩
    · exact ⟨n, by omega, hp, fun m h1 h2 => absurd h1 (by omega)⟩
    · refine ⟨j, by omega, hp, fun m h1 h2 => ?_⟩
      by_cases he : m = n
      · rwa [he]
      · exact hl m h1 (by omega)

theorem populatedAt_field (a : Address) (template : Template) (n : ℕ) (code : Char)
    (h : template[n]? = some (.field code)) : PopulatedAt a template n ↔ Populated a code := by
  constructor
  · rintro ⟨other, ho, hp⟩
    rw [h] at ho
    cases ho
    exact hp
  · exact fun hp => ⟨code, h, hp⟩

theorem not_populatedAt (a : Address) (template : Template) (n : ℕ)
    (h : ∀ code, template[n]? ≠ some (.field code)) : ¬PopulatedAt a template n :=
  fun ⟨code, hc, _⟩ => h code hc

theorem survives_field (a : Address) (template : Template) (n : ℕ) (code : Char)
    (h : template[n]? = some (.field code)) : Survives a template n ↔ Populated a code := by
  simp [Survives, populatedAt_field a template n code h, h]

theorem survives_literal (a : Address) (template : Template) (n : ℕ) (text : Text)
    (h : template[n]? = some (.literal text)) : Survives a template n ↔
      (LineEndAt template (n + 1) ∨ PopulatedAt a template (n + 1)) ∧
        (FirstOnLine template n ∨ OnLine a template n) := by
  have hp := not_populatedAt a template n (by simp [h])
  simp [Survives, hp, h]

theorem not_lineEndAt (template : Template) (n : ℕ) (t : Token) (h : template[n]? = some t)
    (ht : t ≠ .newline) : ¬LineEndAt template n := by
  rintro (hl | hl)
  · simp [h] at hl
  · exact ht (by simpa [h] using hl)

section
variable {a : Address} {template : Template}

theorem survives_behind_literal (i : ℕ) (text : Text) (hl : template[i]? = some (.literal text))
    (hs : Survives a template i) (hi : i + 1 < template.length) :
    Survives a template (i + 1) ∧ ∀ more, template[i + 1]? ≠ some (.literal more) := by
  rcases ((survives_literal a template i text hl).mp hs).1 with (hend | hend) | hp
  · have := List.getElem?_eq_none_iff.mp hend
    omega
  · exact ⟨.inl hend, by simp [hend]⟩
  · obtain ⟨code, hc, -⟩ := id hp
    exact ⟨.inr (.inl hp), by simp [hc]⟩

theorem exists_last_populated (i : ℕ) (h : OnLine a template i) :
    ∃ j < i, PopulatedAt a template j ∧
      ∀ m, j < m → m < i → template[m]? ≠ some .newline ∧ ¬PopulatedAt a template m := by
  induction i with
  | zero =>
    obtain ⟨j, hj, -⟩ := h
    exact absurd hj (Nat.not_lt_zero j)
  | succ n ih =>
    obtain ⟨hn, ho⟩ := (onLine_succ a template n).mp h
    by_cases hp : PopulatedAt a template n
    · exact ⟨n, by omega, hp, fun m h1 h2 => absurd h1 (by omega)⟩
    · obtain ⟨j, hj, hpj, hl⟩ := ih (ho.resolve_left hp)
      refine ⟨j, by omega, hpj, fun m h1 h2 => ?_⟩
      by_cases he : m = n
      · subst he
        exact ⟨hn, hp⟩
      · exact hl m h1 (by omega)

/-- Before a literal nothing stays on a stretch of the line that holds no populated field. -/
theorem not_survives_of_stretch (hp : template.Parted) (j i : ℕ) (text : Text)
    (hl : template[i]? = some (.literal text))
    (h : ∀ m, j < m → m < i → template[m]? ≠ some .newline ∧ ¬PopulatedAt a template m)
    (m : ℕ) (h1 : j < m) (h2 : m < i) : ¬Survives a template m := by
  have hlen := (List.getElem?_eq_some_iff.mp hl).1
  rintro (hs | hs | ⟨⟨more, hm⟩, hnext, -⟩)
  · exact (h m h1 h2).1 hs
  · exact (h m h1 h2).2 hs
  · by_cases he : m + 1 = i
    · subst he
      exact template.parted_getElem? hp m _ _ hm hl ⟨rfl, rfl⟩
    · have hstep := h (m + 1) (by omega) (by omega)
      rcases hnext with (hend | hend) | hpop
      · have := List.getElem?_eq_none_iff.mp hend
        omega
      · exact hstep.1 hend
      · exact hstep.2 hpop

end

end Postal.Envelope
