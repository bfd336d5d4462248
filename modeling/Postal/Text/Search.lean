import Postal.Text

/-!
# Binary search

Finds the value of a text in an array sorted by code points. The range still
searched is cut in half at every step.
-/

set_option autoImplicit false

namespace Postal.Text

def searchBetween {α : Type} (entries : Array (Text × α)) (key : Text) :
    Nat → Nat → Nat → Option α
  | 0, _, _ => none
  | steps + 1, low, high =>
    if low < high then
      let middle := (low + high) / 2
      match entries[middle]? with
      | none => none
      | some (found, value) =>
        match key.order found with
        | .eq => some value
        | .lt => searchBetween entries key steps low middle
        | .gt => searchBetween entries key steps (middle + 1) high
    else none

/-- Every halving shortens the range, so as many steps as entries are enough. -/
def search {α : Type} (entries : Array (Text × α)) (key : Text) : Option α :=
  searchBetween entries key (entries.size + 1) 0 entries.size

theorem searchBetween_of_le {α : Type} (entries : Array (Text × α)) (key : Text)
    (steps low high : Nat) (h : high ≤ low) : searchBetween entries key steps low high = none := by
  cases steps with
  | zero => rfl
  | succ steps => simp [searchBetween, Nat.not_lt.mpr h]

end Postal.Text
