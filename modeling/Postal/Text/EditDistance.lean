import Postal.Text

/-!
# Edit distance

The least number of insertions, deletions and substitutions between two
texts. The table is built a row at a time from the right: the row of `s`
holds the distances from `s` to every suffix of `t`, longest first.
-/

set_option autoImplicit false

namespace Postal.Text

def emptyRow : Text → List Nat
  | [] => [0]
  | _ :: t => (t.length + 1) :: emptyRow t

/-- The row of `c :: s` from the row of `s`. -/
def nextRow (c : Char) : Text → List Nat → List Nat
  | [], row => [row.headD 0 + 1]
  | d :: t, row =>
    let shorter := nextRow c t row.tail
    let substituted := row.tail.headD 0 + if c = d then 0 else 1
    min substituted (min (row.headD 0 + 1) (shorter.headD 0 + 1)) :: shorter

def distanceRow (s t : Text) : List Nat :=
  s.foldr (fun c row => nextRow c t row) (emptyRow t)

def editDistance (s t : Text) : Nat := (distanceRow s t).headD 0

@[simp] theorem editDistance_nil (t : Text) : editDistance [] t = t.length := by
  cases t <;> rfl

end Postal.Text
