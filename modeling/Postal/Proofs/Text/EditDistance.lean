import Mathlib.Order.Bounds.Basic
import Mathlib.Tactic.SplitIfs
import Postal.Text.EditDistance

/-!
# The least number of edits

A row of the table holds the distances to the suffixes of a text, so a row for a shorter text is
the rest of the row for a longer one, and the table is a recursion on the first characters of both
texts. As many single edits as the distance lead from one text to the other. One edit changes the
distance to any third text by one at most, so fewer edits never do.
-/

set_option autoImplicit false

namespace Postal.Text

/-! ## The table as a recursion -/

theorem distanceRow_cons (c : Char) (s t : Text) :
    distanceRow (c :: s) t = nextRow c t (distanceRow s t) := rfl

theorem distanceRow_tail (s : Text) (d : Char) (t : Text) :
    (distanceRow s (d :: t)).tail = distanceRow s t := by
  induction s with
  | nil => rfl
  | cons c s ih =>
    rw [distanceRow_cons, distanceRow_cons, ← ih]
    rfl

@[simp] theorem editDistance_cons_nil (c : Char) (s : Text) :
    editDistance (c :: s) [] = editDistance s [] + 1 := rfl

/-- The first characters are matched, or that of the first text is deleted, or that of the second
is inserted. -/
theorem editDistance_cons_cons (c : Char) (s : Text) (d : Char) (t : Text) :
    editDistance (c :: s) (d :: t) =
      min (editDistance s t + if c = d then 0 else 1)
        (min (editDistance s (d :: t) + 1) (editDistance (c :: s) t + 1)) := by
  have hrow : distanceRow (c :: s) (d :: t) = nextRow c (d :: t) (distanceRow s (d :: t)) := rfl
  rw [editDistance, hrow, nextRow, distanceRow_tail]
  rfl

/-! ## Edits -/

inductive Edit : Text → Text → Prop where
  | insert (s : Text) (c : Char) (t : Text) : Edit (s ++ t) (s ++ c :: t)
  | delete (s : Text) (c : Char) (t : Text) : Edit (s ++ c :: t) (s ++ t)
  | substitute (s : Text) (c d : Char) (t : Text) : Edit (s ++ c :: t) (s ++ d :: t)

/-- So many edits in turn lead from one text to the other. -/
inductive EditedIn : ℕ → Text → Text → Prop where
  | nil (s : Text) : EditedIn 0 s s
  | cons (n : ℕ) (s t u : Text) (first : Edit s t) (rest : EditedIn n t u) :
      EditedIn (n + 1) s u

theorem Edit.behind {s t : Text} (h : Edit s t) (c : Char) : Edit (c :: s) (c :: t) := by
  cases h with
  | insert s d t => exact .insert (c :: s) d t
  | delete s d t => exact .delete (c :: s) d t
  | substitute s d e t => exact .substitute (c :: s) d e t

theorem EditedIn.behind {n : ℕ} {s t : Text} (h : EditedIn n s t) (c : Char) :
    EditedIn n (c :: s) (c :: t) := by
  induction h with
  | nil s => exact .nil (c :: s)
  | cons n s t u first rest ih => exact .cons n _ _ _ (first.behind c) ih

theorem editedIn_of_nil (t : Text) : EditedIn t.length [] t := by
  induction t with
  | nil => exact .nil []
  | cons d t ih => exact .cons _ _ [d] _ (.insert [] d []) (ih.behind d)

theorem editedIn_editDistance (s t : Text) : EditedIn (editDistance s t) s t := by
  induction s generalizing t with
  | nil =>
    rw [editDistance_nil]
    exact editedIn_of_nil t
  | cons c s ih =>
    induction t with
    | nil =>
      rw [editDistance_cons_nil]
      exact .cons _ _ s _ (.delete [] c s) (ih [])
    | cons d t iht =>
      rw [editDistance_cons_cons]
      have hmatch : EditedIn (editDistance s t + if c = d then 0 else 1) (c :: s) (d :: t) := by
        split_ifs with h
        · subst h
          exact (ih t).behind c
        · exact .cons _ _ (d :: s) _ (.substitute [] c d s) ((ih t).behind d)
      have hdelete : EditedIn (editDistance s (d :: t) + 1) (c :: s) (d :: t) :=
        .cons _ _ s _ (.delete [] c s) (ih (d :: t))
      have hinsert : EditedIn (editDistance (c :: s) t + 1) (c :: s) (d :: t) :=
        .cons _ _ (d :: c :: s) _ (.insert [] d (c :: s)) (iht.behind d)
      have hother := min_rec' (EditedIn · (c :: s) (d :: t)) hdelete hinsert
      exact min_rec' (EditedIn · (c :: s) (d :: t)) hmatch hother

/-! ## No fewer edits -/

@[simp] theorem editDistance_self (s : Text) : editDistance s s = 0 := by
  induction s with
  | nil => rfl
  | cons c s ih => simp [editDistance_cons_cons, ih]

theorem editDistance_le_insert (s : Text) (d : Char) (t : Text) :
    editDistance s (d :: t) ≤ editDistance s t + 1 := by
  cases s with
  | nil => simp
  | cons c s =>
    rw [editDistance_cons_cons]
    omega

theorem editDistance_cons_le (c : Char) (s u : Text) :
    editDistance (c :: s) u ≤ editDistance s u + 1 := by
  cases u with
  | nil => exact Nat.le_refl _
  | cons e u =>
    rw [editDistance_cons_cons]
    omega

theorem editDistance_le_cons (c : Char) (s u : Text) :
    editDistance s u ≤ editDistance (c :: s) u + 1 := by
  induction u with
  | nil =>
    rw [editDistance_cons_nil]
    omega
  | cons e u ih =>
    have hinsert := editDistance_le_insert s e u
    rw [editDistance_cons_cons]
    omega

theorem editDistance_cons_le_cons (c d : Char) (s u : Text) :
    editDistance (c :: s) u ≤ editDistance (d :: s) u + 1 := by
  induction u with
  | nil => simp [editDistance_cons_nil]
  | cons e u ih =>
    rw [editDistance_cons_cons, editDistance_cons_cons]
    split_ifs <;> omega

theorem editDistance_behind (c : Char) (s t : Text)
    (h : ∀ u, editDistance s u ≤ editDistance t u + 1) (u : Text) :
    editDistance (c :: s) u ≤ editDistance (c :: t) u + 1 := by
  induction u with
  | nil =>
    have hnil := h []
    rw [editDistance_cons_nil, editDistance_cons_nil]
    omega
  | cons e u ih =>
    have hrest := h u
    have hall := h (e :: u)
    rw [editDistance_cons_cons, editDistance_cons_cons]
    omega

theorem editDistance_append (r s t : Text)
    (h : ∀ u, editDistance s u ≤ editDistance t u + 1) (u : Text) :
    editDistance (r ++ s) u ≤ editDistance (r ++ t) u + 1 := by
  induction r generalizing u with
  | nil => exact h u
  | cons c r ih => exact editDistance_behind c (r ++ s) (r ++ t) ih u

/-- One edit changes the distance to any text by one at most. -/
theorem Edit.editDistance_le {s t : Text} (h : Edit s t) (u : Text) :
    editDistance s u ≤ editDistance t u + 1 := by
  cases h with
  | insert r c t => exact editDistance_append r t (c :: t) (editDistance_le_cons c t) u
  | delete r c t => exact editDistance_append r (c :: t) t (editDistance_cons_le c t) u
  | substitute r c d t => exact editDistance_append r _ _ (editDistance_cons_le_cons c d t) u

theorem EditedIn.editDistance_le {n : ℕ} {s t : Text} (h : EditedIn n s t) :
    editDistance s t ≤ n := by
  induction h with
  | nil s => rw [editDistance_self]
  | cons n s t u first rest ih => exact (first.editDistance_le u).trans (Nat.succ_le_succ ih)

theorem editDistance_isLeast (s t : Text) : IsLeast {n | EditedIn n s t} (editDistance s t) :=
  ⟨editedIn_editDistance s t, fun _ h => h.editDistance_le⟩

end Postal.Text
