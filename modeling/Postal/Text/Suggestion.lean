import Postal.Text.EditDistance

/-!
# Suggestions

Candidates near a misspelt key. A key of at most three characters allows one
edit, a longer one two. The nearest candidates come first, ties stand in code
point order, and three are shown at most.
-/

set_option autoImplicit false

namespace Postal.Text

def suggestionLimit (key : Text) : Nat := if key.length ≤ 3 then 1 else 2

def ranksBefore (a b : Nat × Text) : Bool :=
  a.1 < b.1 || (a.1 == b.1 && order a.2 b.2 != .gt)

def scored (key : Text) (available : List Text) : List (Nat × Text) :=
  (available.map fun candidate => (editDistance key candidate, candidate)).filter
    fun entry => entry.1 ≤ suggestionLimit key

def suggestions (key : Text) (available : List Text) : List Text :=
  (((scored key available).mergeSort ranksBefore).take 3).map Prod.snd

end Postal.Text
