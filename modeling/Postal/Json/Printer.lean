import Postal.Json

/-!
# Printed JSON

The compact form has no blanks. The indented form puts every item and member
on a line of its own, two spaces deeper than its container; an empty container
stays closed up. Only the quote, the backslash and the controls below U+0020
are escaped.
-/

set_option autoImplicit false

namespace Postal.Json

def hexDigit (n : Nat) : Char :=
  if n < 10 then Char.ofNat ('0'.toNat + n) else Char.ofNat ('a'.toNat + (n - 10))

def escapeChar : Char → Text
  | '"' => ['\\', '"']
  | '\\' => ['\\', '\\']
  | '\x08' => ['\\', 'b']
  | '\x0c' => ['\\', 'f']
  | '\n' => ['\\', 'n']
  | '\r' => ['\\', 'r']
  | '\t' => ['\\', 't']
  | c =>
    if c.val < 0x20 then
      ['\\', 'u', '0', '0', hexDigit (c.toNat / 16), hexDigit (c.toNat % 16)]
    else [c]

def quoted (t : Text) : Text := '"' :: t.flatMap escapeChar ++ ['"']

def decimal (n : Nat) : Text := Nat.toDigits 10 n

def numeralText (n : Numeral) : Text :=
  (if n.negative then ['-'] else []) ++ n.whole ++
    (if n.fraction = [] then [] else '.' :: n.fraction) ++
    (if n.exponent = 0 then []
      else if n.exponent < 0 then 'e' :: '-' :: decimal n.exponent.natAbs
      else 'e' :: decimal n.exponent.natAbs)

mutual

def compact : Json Text → Text
  | .null => "null".toList
  | .bool true => "true".toList
  | .bool false => "false".toList
  | .number n => numeralText n
  | .string s => quoted s
  | .array items => '[' :: Text.join [','] (compactItems items) ++ [']']
  | .object members => '{' :: Text.join [','] (compactMembers members) ++ ['}']
termination_by structural value => value

def compactItems : List (Json Text) → List Text
  | [] => []
  | item :: items => compact item :: compactItems items
termination_by structural items => items

def compactMembers : List (Text × Json Text) → List Text
  | [] => []
  | m :: members => compactMember m :: compactMembers members
termination_by structural members => members

def compactMember : Text × Json Text → Text
  | (key, value) => quoted key ++ ':' :: compact value
termination_by structural m => m

end

def lineBreak (indent : Nat) : Text := '\n' :: List.replicate (2 * indent) ' '

def bracketed (opening closing : Char) (indent : Nat) : List Text → Text
  | [] => [opening, closing]
  | lines =>
    opening :: lineBreak (indent + 1) ++ Text.join (',' :: lineBreak (indent + 1)) lines ++
      lineBreak indent ++ [closing]

mutual

def indented : Nat → Json Text → Text
  | _, .null => "null".toList
  | _, .bool true => "true".toList
  | _, .bool false => "false".toList
  | _, .number n => numeralText n
  | _, .string s => quoted s
  | indent, .array items => bracketed '[' ']' indent (indentedItems (indent + 1) items)
  | indent, .object members => bracketed '{' '}' indent (indentedMembers (indent + 1) members)
termination_by structural _ value => value

def indentedItems : Nat → List (Json Text) → List Text
  | _, [] => []
  | indent, item :: items => indented indent item :: indentedItems indent items
termination_by structural _ items => items

def indentedMembers : Nat → List (Text × Json Text) → List Text
  | _, [] => []
  | indent, m :: members => indentedMember indent m :: indentedMembers indent members
termination_by structural _ members => members

def indentedMember : Nat → Text × Json Text → Text
  | indent, (key, value) => quoted key ++ ':' :: ' ' :: indented indent value
termination_by structural _ m => m

end

def pretty (value : Json Text) : Text := indented 0 value

end Postal.Json
