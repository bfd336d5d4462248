import Postal.Text

/-!
# JSON values

A value over its strings: a value as written has strings with escapes still
in them, a value as read has texts. Members stay in the order in which they
stand, repeated names included; to look one up is to take the last.
-/

set_option autoImplicit false

namespace Postal

structure Numeral where
  negative : Bool
  whole : Text
  fraction : Text
  exponent : Int
  deriving DecidableEq, Repr

inductive Json (σ : Type) where
  | null
  | bool (value : Bool)
  | number (numeral : Numeral)
  | string (text : σ)
  | array (items : List (Json σ))
  | object (members : List (σ × Json σ))
  deriving Repr

namespace Json

def lookup? (name : Text) : List (Text × Json Text) → Option (Json Text)
  | [] => none
  | (key, value) :: rest =>
    match lookup? name rest with
    | some later => some later
    | none => if key = name then some value else none

def string? {σ : Type} : Json σ → Option σ
  | .string text => some text
  | _ => none

end Json
end Postal
