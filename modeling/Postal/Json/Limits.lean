import Postal.Json.Grammar

/-!
# Limits on JSON values

A value read by the grammar is accepted if every escape stands for a
character, every number has a finite value in double precision, and no
container stands inside more than 126 others.
-/

set_option autoImplicit false

namespace Postal.Json

def isHighUnit (u : Nat) : Bool := 0xD800 ≤ u && u < 0xDC00

def isLowUnit (u : Nat) : Bool := 0xDC00 ≤ u && u < 0xE000

def text? : List Piece → Option Text
  | [] => some []
  | .char c :: rest => (text? rest).map (c :: ·)
  | .unit u :: rest =>
    if isLowUnit u then none
    else if isHighUnit u then
      match rest with
      | .unit v :: rest =>
        if isLowUnit v then
          (text? rest).map (Char.ofNat (0x10000 + (u - 0xD800) * 0x400 + (v - 0xDC00)) :: ·)
        else none
      | _ => none
    else (text? rest).map (Char.ofNat u :: ·)

/-- The nearest number of 53 significant bits, a tie going to the even one. -/
def roundToDouble (n : Nat) : Nat :=
  let unit := Nat.pow 2 (n.log2 - 52)
  let below := n / unit
  let rest := n % unit
  if unit < 2 * rest ∨ (unit = 2 * rest ∧ below % 2 = 1) then (below + 1) * unit
  else below * unit

/-- Takes in digits as long as the value fits 64 bits, and gives the digits left. -/
def takeDigits : Nat → Text → Nat × Text
  | n, [] => (n, [])
  | n, d :: rest =>
    let next := 10 * n + Grammar.digitValue d
    if next < Nat.pow 2 64 then takeDigits next rest else (n, d :: rest)

def scaled (n : Numeral) : Nat × Int :=
  let (whole, wholeLeft) := takeDigits 0 n.whole
  let (value, fractionLeft) := takeDigits whole n.fraction
  (value, wholeLeft.length + fractionLeft.length - n.fraction.length + n.exponent)

def doubleOverflow : Nat := Nat.pow 2 1024 - Nat.pow 2 970

/-- The integer and the power of ten are rounded before they are multiplied. -/
def isFinite (n : Numeral) : Bool :=
  let (value, exponent) := scaled n
  value = 0 || exponent ≤ 0 ||
    (exponent ≤ 308 &&
      roundToDouble value * roundToDouble (Nat.pow 10 exponent.toNat) < doubleOverflow)

mutual

def within? : Nat → Written → Option (Json Text)
  | _, .null => some .null
  | _, .bool b => some (.bool b)
  | _, .number n => if isFinite n then some (.number n) else none
  | _, .string s => (text? s).map .string
  | 0, .array _ => none
  | room + 1, .array items => (itemsWithin? room items).map .array
  | 0, .object _ => none
  | room + 1, .object members => (membersWithin? room members).map .object
termination_by structural _ value => value

def itemsWithin? : Nat → List Written → Option (List (Json Text))
  | _, [] => some []
  | room, item :: items => do return (← within? room item) :: (← itemsWithin? room items)
termination_by structural _ items => items

def membersWithin? : Nat → List (List Piece × Written) → Option (List (Text × Json Text))
  | _, [] => some []
  | room, m :: members => do return (← memberWithin? room m) :: (← membersWithin? room members)
termination_by structural _ members => members

def memberWithin? : Nat → List Piece × Written → Option (Text × Json Text)
  | room, (key, value) => do return (← text? key, ← within? room value)
termination_by structural _ m => m

end

def depthLimit : Nat := 127

def read? (t : Text) : Option (Json Text) := Grammar.read? t >>= within? depthLimit

end Postal.Json
