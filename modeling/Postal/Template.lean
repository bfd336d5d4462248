import Postal.Field

/-!
# Format templates

In a template `%n` ends the line, `%` before any other character refers to
the field with that code, and the rest is literal text. Tokens keep field
codes unresolved, so that a template with unknown codes can still be read;
reading it strictly resolves every code. Printing the tokens gives the
template back.
-/

set_option autoImplicit false

namespace Postal

inductive Token where
  | newline
  | field (code : Char)
  | literal (text : Text)
  deriving DecidableEq, Repr

abbrev Template := List Token

inductive TemplateError where
  | danglingEscape (column : Nat)
  | invalidField (column : Nat) (cause : FieldError)
  deriving DecidableEq, Repr

namespace TemplateError

def column : TemplateError → Nat
  | danglingEscape column => column
  | invalidField column _ => column

def message : TemplateError → Text
  | danglingEscape column =>
    "dangling '%' at column ".toList ++ Nat.toDigits 10 column ++ ": escape has no code".toList
  | invalidField column cause =>
    "invalid escape at column ".toList ++ Nat.toDigits 10 column ++ ": ".toList ++ cause.message

end TemplateError

namespace Token

def text : Token → Text
  | newline => ['%', 'n']
  | field code => ['%', code]
  | literal text => text

def isField : Token → Bool
  | field _ => true
  | _ => false

def ofEscape (code : Char) : Token := if code = 'n' then newline else field code

end Token

namespace Template

def text (template : Template) : Text := template.flatMap Token.text

@[simp] theorem text_cons (t : Token) (template : Template) :
    text (t :: template) = t.text ++ text template := rfl

@[simp] theorem text_append (s t : Template) : text (s ++ t) = text s ++ text t := by
  simp [text]

def escape? : Text → Option (Token × Text)
  | '%' :: code :: rest => some (.ofEscape code, rest)
  | _ => none

def literal? (t : Text) : Option (Token × Text) :=
  match t.takeWhile (· != '%') with
  | [] => none
  | c :: plain => some (.literal (c :: plain), t.dropWhile (· != '%'))

def token? (t : Text) : Option (Token × Text) := escape? t <|> literal? t

/-- Reads tokens until none can be read, with what is then left unread. -/
def scanFor : Nat → Text → Template × Text
  | 0, t => ([], t)
  | steps + 1, t =>
    match token? t with
    | none => ([], t)
    | some (token, rest) =>
      let (template, left) := scanFor steps rest
      (token :: template, left)

/-- Every token takes a character, so as many steps as characters are enough. -/
def scan (t : Text) : Template × Text := scanFor t.length t

def tokens? (t : Text) : Option Template :=
  if (scan t).2 = [] then some (scan t).1 else none

/-- The escape without a code stands right behind what was consumed. -/
def dangling (t left : Text) : TemplateError :=
  .danglingEscape ((t.take (t.length - left.length)).length + 1)

def parse (t : Text) : Except TemplateError Template :=
  if (scan t).2 = [] then .ok (scan t).1 else .error (dangling t (scan t).2)

def checkCodes (column : Nat) : Template → Except TemplateError Unit
  | [] => .ok ()
  | .field code :: rest =>
    match Field.ofCode code with
    | .ok _ => checkCodes (column + 2) rest
    | .error cause => .error (.invalidField column cause)
  | token :: rest => checkCodes (column + token.text.length) rest

def parseStrict (t : Text) : Except TemplateError Template := do
  let template ← parse t
  checkCodes 1 template
  return template

def fields : Template → Except FieldError (List Field)
  | [] => .ok []
  | .field code :: rest => do
    let f ← Field.ofCode code
    return f :: (← fields rest)
  | _ :: rest => fields rest

end Template
end Postal
