import Mathlib.Init
import Postal.Text

/-!
# Outcomes of steps

A sequence of fallible steps yields a result only if every step does. In a run
of steps that each write a value or leave it alone, the last one written counts.
-/

set_option autoImplicit false

namespace Postal

variable {ε δ γ α β : Type}

@[simp] theorem ok_bind (a : α) (f : α → Except ε β) : (Except.ok a >>= f) = f a := rfl

@[simp] theorem error_bind (e : ε) (f : α → Except ε β) : (Except.error e >>= f) = .error e := rfl

@[simp] theorem pure_eq_ok (a : α) : (pure a : Except ε α) = .ok a := rfl

theorem bind_eq_ok (x : Except ε α) (f : α → Except ε β) (b : β) :
    x >>= f = .ok b ↔ ∃ a, x = .ok a ∧ f a = .ok b := by
  constructor
  · intro h
    cases x with
    | error e => cases h
    | ok a => exact ⟨a, rfl, h⟩
  · rintro ⟨a, rfl, h⟩
    exact h

theorem bind_eq_error (x : Except ε α) (f : α → Except ε β) (e : ε) :
    x >>= f = .error e ↔ x = .error e ∨ ∃ a, x = .ok a ∧ f a = .error e := by
  cases x with
  | error d =>
    constructor
    · intro h
      cases h
      exact .inl rfl
    · rintro (h | ⟨a, h, -⟩)
      · cases h
        rfl
      · cases h
  | ok a =>
    constructor
    · intro h
      exact .inr ⟨a, rfl, h⟩
    · rintro (h | ⟨b, h, hb⟩)
      · cases h
      · cases h
        exact hb

theorem mapError_eq_ok (x : Except ε α) (f : ε → δ) (a : α) : x.mapError f = .ok a ↔ x = .ok a := by
  cases x with
  | error e => constructor <;> intro h <;> cases h
  | ok b =>
    constructor <;> intro h <;> injection h with h <;> rw [h]
    rfl

theorem mapError_mapError (x : Except ε α) (f : ε → δ) (g : δ → γ) :
    (x.mapError f).mapError g = x.mapError fun e => g (f e) := by
  cases x <;> rfl

/-- What is last written in a run remains, or what there was before if no step writes. -/
theorem getD_foldl_of_step {σ ι : Type} (step : σ → ι → σ) (get : σ → α) (write? : ι → Option α)
    (items : List ι) (h : ∀ s, ∀ i ∈ items, get (step s i) = (write? i).getD (get s)) (s : σ) :
    get (items.foldl step s) = (items.filterMap write?).getLast?.getD (get s) := by
  induction items generalizing s with
  | nil => rfl
  | cons i items ih =>
    rw [List.foldl_cons, ih fun s j hj => h s j (List.mem_cons_of_mem i hj),
      h s i List.mem_cons_self]
    cases hw : write? i with
    | none => rw [List.filterMap_cons_none hw, Option.getD_none]
    | some a =>
      rw [List.filterMap_cons_some hw, List.getLast?_cons, Option.getD_some, Option.getD_some]

end Postal
