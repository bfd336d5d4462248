import Postal.Address
import Postal.Template

/-!
# Envelopes

Printing an address goes in two steps. Pruning drops the fields that have no
value and the literals that would dangle beside them. Rendering writes the
rest out as lines, of which the empty ones are dropped. The country is never
printed.
-/

set_option autoImplicit false

namespace Postal.Envelope

def hasValue (a : Address) : Token → Except FieldError Bool
  | .field code => do return a.hasValue (← Field.ofCode code)
  | _ => .ok true

/-- A literal needs a kept token, or none, behind it. -/
def isFollowed (a : Address) : Template → Except FieldError Bool
  | [] => .ok true
  | token :: _ => hasValue a token

/-- Prunes the tokens behind `previous`, `kept` being the last token kept so
far. A literal behind a field needs that the last token kept is a field. -/
def pruneBehind (a : Address) (previous kept : Option Token) :
    Template → Except FieldError Template
  | [] => .ok []
  | .newline :: rest => do
    return .newline :: (← pruneBehind a (some .newline) (some .newline) rest)
  | .field code :: rest => do
    let token := Token.field code
    if ← hasValue a token then
      return token :: (← pruneBehind a (some token) (some token) rest)
    else pruneBehind a (some token) kept rest
  | .literal text :: rest => do
    let token := Token.literal text
    let followed ← isFollowed a rest
    let preceded := !previous.any Token.isField || kept.any Token.isField
    if followed && preceded then
      return token :: (← pruneBehind a (some token) (some token) rest)
    else pruneBehind a (some token) kept rest

def prune (a : Address) (template : Template) : Except FieldError Template :=
  pruneBehind a none none template

def stays (a : Address) (previous kept : Option Token) (rest : Template) :
    Token → Except FieldError Bool
  | .newline => .ok true
  | .field code => hasValue a (.field code)
  | .literal _ => do
    let followed ← isFollowed a rest
    return followed && (!previous.any Token.isField || kept.any Token.isField)

def keptFrom (a : Address) (previous kept : Option Token) (n : Nat) :
    Template → Except FieldError (List (Token × Nat))
  | [] => .ok []
  | t :: rest => do
    if ← stays a previous kept rest t then
      return (t, n) :: (← keptFrom a (some t) (some t) (n + 1) rest)
    else keptFrom a (some t) kept (n + 1) rest

def keptAt (a : Address) (template : Template) : Except FieldError (List (Token × Nat)) :=
  keptFrom a none none 0 template

def finish : Text → List Text
  | [] => []
  | line => [line]

@[simp] theorem finish_flatten (line : Text) : (finish line).flatten = line := by
  cases line <;> simp [finish]

/-- The lines of the tokens, of which the first begins with `line`. -/
def renderFrom (a : Address) (line : Text) : Template → Except FieldError (List Text)
  | [] => .ok (finish line)
  | .newline :: rest => do return finish line ++ (← renderFrom a [] rest)
  | .literal text :: rest => renderFrom a (line ++ text) rest
  | .field code :: rest => do
    match ← Field.ofCode code with
    | .country => renderFrom a line rest
    | .streetAddress =>
      match a.lines with
      | [] => renderFrom a line rest
      | [street] => renderFrom a (line ++ street) rest
      | street :: more => return finish (line ++ street) ++ more ++ (← renderFrom a [] rest)
    | field => renderFrom a (line ++ (a.value field).getD []) rest

def render (a : Address) (template : Template) : Except FieldError (List Text) :=
  renderFrom a [] template

def lines (a : Address) (template : Template) : Except FieldError (List Text) := do
  render a (← prune a template)

end Postal.Envelope
