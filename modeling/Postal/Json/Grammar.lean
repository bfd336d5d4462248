import Postal.Json

/-!
# The grammar of JSON

Reads a text by the grammar alone. Strings keep their `\u` escapes as 16-bit
units, numbers keep their digits, and nothing bounds the nesting; whether a
unit is a character, a number has a value and a nesting is too deep is
settled in `Postal.Json.Limits`.
-/

set_option autoImplicit false

namespace Postal

inductive Json.Piece where
  | char (c : Char)
  | unit (value : Nat)
  deriving DecidableEq, Repr

abbrev Json.Written := Json (List Json.Piece)

namespace Json.Grammar

def isSpace (c : Char) : Bool := c = ' ' || c = '\n' || c = '\r' || c = '\t'

def skipSpace (t : Text) : Text := t.dropWhile isSpace

def digitValue (c : Char) : Nat := c.toNat - '0'.toNat

def hexDigit? (c : Char) : Option Nat :=
  if c.isDigit then some (digitValue c)
  else if 'a' ≤ c ∧ c ≤ 'f' then some (c.toNat - 'a'.toNat + 10)
  else if 'A' ≤ c ∧ c ≤ 'F' then some (c.toNat - 'A'.toNat + 10)
  else none

def escaped? : Char → Option Char
  | '"' => some '"'
  | '\\' => some '\\'
  | '/' => some '/'
  | 'b' => some '\x08'
  | 'f' => some '\x0c'
  | 'n' => some '\n'
  | 'r' => some '\r'
  | 't' => some '\t'
  | _ => none

def string? : Text → Option (List Piece × Text)
  | [] => none
  | '"' :: rest => some ([], rest)
  | '\\' :: 'u' :: h3 :: h2 :: h1 :: h0 :: rest => do
    let unit := (((← hexDigit? h3) * 16 + (← hexDigit? h2)) * 16 + (← hexDigit? h1)) * 16 +
      (← hexDigit? h0)
    let (pieces, after) ← string? rest
    return (.unit unit :: pieces, after)
  | '\\' :: e :: rest => do
    let c ← escaped? e
    let (pieces, after) ← string? rest
    return (.char c :: pieces, after)
  | c :: rest =>
    if c.val < 0x20 ∨ c = '\\' then none
    else do
      let (pieces, after) ← string? rest
      return (.char c :: pieces, after)

def digits (t : Text) : Text × Text := t.span Char.isDigit

def natOfDigits (t : Text) : Nat := t.foldl (fun n d => 10 * n + digitValue d) 0

def whole? (t : Text) : Option (Text × Text) :=
  match t with
  | '0' :: rest => some (['0'], rest)
  | _ =>
    match digits t with
    | ([], _) => none
    | found => some found

def fraction? : Text → Option (Text × Text)
  | '.' :: rest =>
    match digits rest with
    | ([], _) => none
    | found => some found
  | t => some ([], t)

def exponentSign : Text → Int × Text
  | '-' :: rest => (-1, rest)
  | '+' :: rest => (1, rest)
  | t => (1, t)

def exponent? : Text → Option (Int × Text)
  | c :: rest =>
    if c = 'e' ∨ c = 'E' then
      let (sign, unsigned) := exponentSign rest
      match digits unsigned with
      | ([], _) => none
      | (found, after) => some (sign * natOfDigits found, after)
    else some (0, c :: rest)
  | [] => some (0, [])

def numeral? (t : Text) : Option (Numeral × Text) := do
  let (negative, unsigned) := match t with
    | '-' :: rest => (true, rest)
    | _ => (false, t)
  let (whole, t) ← whole? unsigned
  let (fraction, t) ← fraction? t
  let (exponent, t) ← exponent? t
  return (⟨negative, whole, fraction, exponent⟩, t)

def word? (word t : Text) : Option Text :=
  if t.startsWith word then some (t.drop word.length) else none

def scalar? (t : Text) : Option (Written × Text) :=
  ((word? "null".toList t).map fun rest => (.null, rest)) <|>
  ((word? "true".toList t).map fun rest => (.bool true, rest)) <|>
  ((word? "false".toList t).map fun rest => (.bool false, rest)) <|>
  ((numeral? t).map fun (n, rest) => (.number n, rest))

mutual

def value? : Nat → Text → Option (Written × Text)
  | 0, _ => none
  | fuel + 1, t =>
    match skipSpace t with
    | '"' :: rest => (string? rest).map fun (s, rest) => (.string s, rest)
    | '[' :: rest =>
      match skipSpace rest with
      | ']' :: rest => some (.array [], rest)
      | rest => (items? fuel rest).map fun (items, rest) => (.array items, rest)
    | '{' :: rest =>
      match skipSpace rest with
      | '}' :: rest => some (.object [], rest)
      | rest => (members? fuel rest).map fun (members, rest) => (.object members, rest)
    | t => scalar? t

def items? : Nat → Text → Option (List Written × Text)
  | 0, _ => none
  | fuel + 1, t => do
    let (item, rest) ← value? fuel t
    match skipSpace rest with
    | ']' :: rest => return ([item], rest)
    | ',' :: rest => do
      let (items, rest) ← items? fuel rest
      return (item :: items, rest)
    | _ => none

def members? : Nat → Text → Option (List (List Piece × Written) × Text)
  | 0, _ => none
  | fuel + 1, t => do
    match skipSpace t with
    | '"' :: rest => do
      let (key, rest) ← string? rest
      match skipSpace rest with
      | ':' :: rest => do
        let (value, rest) ← value? fuel rest
        match skipSpace rest with
        | '}' :: rest => return ([(key, value)], rest)
        | ',' :: rest => do
          let (members, rest) ← members? fuel rest
          return ((key, value) :: members, rest)
        | _ => none
      | _ => none
    | _ => none

end

/-- Reads a whole text as one value. A character is behind at most two steps
of nesting, which bounds the depth of the reading. -/
def read? (t : Text) : Option Written := do
  let (value, rest) ← value? (2 * t.length + 2) t
  if skipSpace rest = [] then return value else none

end Json.Grammar
end Postal
