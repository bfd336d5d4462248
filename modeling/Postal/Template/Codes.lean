import Postal.Template

/-!
# Encoded field lists

Two small encodings of region metadata. A requirement is a list of field
codes, to which the country is always added. Width overrides are segments
`%` code `:` width, and one malformed segment invalidates them all.
-/

set_option autoImplicit false

namespace Postal

def decodeFields : Text → Except FieldError (List Field)
  | [] => .ok []
  | c :: rest => do
    let f ← Field.ofCode c
    return f :: (← decodeFields rest)

def requiredFields (require : Text) : Except FieldError (List Field) := do
  return Field.inOrder (.country :: (← decodeFields require))

def widthSegments? : Template → Option (List (Char × Width))
  | [] => some []
  | .field code :: .literal [':', width] :: rest => do
    let w ← Width.ofCode? width
    return (code, w) :: (← widthSegments? rest)
  | _ => none

/-- The overrides in the order written; codes that name no field stay in. -/
def widthOverrides? (overrides : Text) : Option (List (Char × Width)) :=
  Template.tokens? overrides >>= widthSegments?

end Postal
