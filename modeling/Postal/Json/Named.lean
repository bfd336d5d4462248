import Postal.Json.Limits

/-!
# Named values

A value of an enumeration is written by its name: as a string, or as an
object whose only member has that name and is null.
-/

set_option autoImplicit false

namespace Postal.Json

def nameOf? : Written → Option Text
  | .string s => text? s
  | .object [(key, .null)] => text? key
  | _ => none

def readNamed? {α : Type} (ofName? : Text → Option α) (t : Text) : Option α := do
  ofName? (← nameOf? (← Grammar.read? t))

end Postal.Json
