/-!
# Code ranges

A set of characters, given as closed ranges of code points.
-/

set_option autoImplicit false

namespace Postal.Text

abbrev CodeRanges := List (Nat × Nat)

namespace CodeRanges

def has (ranges : CodeRanges) (c : Char) : Bool :=
  ranges.any fun (first, last) => first ≤ c.toNat && c.toNat ≤ last

end CodeRanges
end Postal.Text
