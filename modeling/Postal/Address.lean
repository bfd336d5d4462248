import Postal.Field

/-!
# Addresses

An address holds eleven single values, street lines and a language tag. The
three street fields are views of the lines: the first line, the other lines
joined by commas, and all of them joined by line breaks.
-/

set_option autoImplicit false

namespace Postal

/-- One value for each field that is not a view of the street lines. -/
structure SingleValues where
  country : Option Text := none
  adminArea : Option Text := none
  locality : Option Text := none
  dependentLocality : Option Text := none
  postalCode : Option Text := none
  sortingCode : Option Text := none
  recipient : Option Text := none
  organization : Option Text := none
  landmarkAddressDescriptor : Option Text := none
  landmarkAffix : Option Text := none
  landmarkName : Option Text := none
  deriving DecidableEq, Repr

namespace SingleValues

def get (values : SingleValues) : Field → Option Text
  | .country => values.country
  | .adminArea => values.adminArea
  | .locality => values.locality
  | .dependentLocality => values.dependentLocality
  | .postalCode => values.postalCode
  | .sortingCode => values.sortingCode
  | .recipient => values.recipient
  | .organization => values.organization
  | .landmarkAddressDescriptor => values.landmarkAddressDescriptor
  | .landmarkAffix => values.landmarkAffix
  | .landmarkName => values.landmarkName
  | .addressLine1 => none
  | .addressLine2 => none
  | .streetAddress => none

def set (values : SingleValues) (field : Field) (value : Option Text) : SingleValues :=
  match field with
  | .country => { values with country := value }
  | .adminArea => { values with adminArea := value }
  | .locality => { values with locality := value }
  | .dependentLocality => { values with dependentLocality := value }
  | .postalCode => { values with postalCode := value }
  | .sortingCode => { values with sortingCode := value }
  | .recipient => { values with recipient := value }
  | .organization => { values with organization := value }
  | .landmarkAddressDescriptor => { values with landmarkAddressDescriptor := value }
  | .landmarkAffix => { values with landmarkAffix := value }
  | .landmarkName => { values with landmarkName := value }
  | .addressLine1 => values
  | .addressLine2 => values
  | .streetAddress => values

@[simp] theorem get_set_self (values : SingleValues) (f : Field) (v : Option Text)
    (h : f.isSingle = true) : (values.set f v).get f = v := by
  cases f <;> first | rfl | cases h

@[simp] theorem set_get_self (values : SingleValues) (f : Field) :
    values.set f (values.get f) = values := by
  cases f <;> rfl

@[simp] theorem get_set_of_ne (values : SingleValues) (f g : Field) (v : Option Text) (h : f ≠ g) :
    (values.set f v).get g = values.get g := by
  cases f <;> cases g <;> first | rfl | exact absurd rfl h

theorem get_of_not_single (values : SingleValues) (f : Field) (h : f.isSingle = false) :
    values.get f = none := by
  cases f <;> first | rfl | cases h

@[simp] theorem get_empty (f : Field) : ({} : SingleValues).get f = none := by
  cases f <;> rfl

theorem ext_get (v w : SingleValues) (h : ∀ f, v.get f = w.get f) : v = w := by
  cases v
  cases w
  simp only [SingleValues.mk.injEq]
  exact ⟨h .country, h .adminArea, h .locality, h .dependentLocality, h .postalCode,
    h .sortingCode, h .recipient, h .organization, h .landmarkAddressDescriptor,
    h .landmarkAffix, h .landmarkName⟩

end SingleValues

structure Address where
  values : SingleValues := {}
  lines : List Text := []
  language : Option Text := none
  deriving DecidableEq, Repr

namespace Address

def line1 (a : Address) : Option Text := a.lines.head?

def line2 (a : Address) : Option Text :=
  match a.lines with
  | _ :: next :: rest => some (Text.join ", ".toList (next :: rest))
  | _ => none

def street (a : Address) : Option Text :=
  match a.lines with
  | [] => none
  | lines => some (Text.join ['\n'] lines)

def value (a : Address) (field : Field) : Option Text :=
  match field with
  | .addressLine1 => a.line1
  | .addressLine2 => a.line2
  | .streetAddress => a.street
  | field => a.values.get field

def hasValue (a : Address) (field : Field) : Bool :=
  match field with
  | .streetAddress => !a.lines.isEmpty
  | .addressLine1 => !a.lines.isEmpty
  | .addressLine2 => 1 < a.lines.length
  | field => (a.values.get field).isSome

theorem hasValue_eq_isSome (a : Address) (f : Field) : a.hasValue f = (a.value f).isSome := by
  rcases a with ⟨values, lines, language⟩
  match lines with
  | [] => cases f <;> rfl
  | [_] => cases f <;> rfl
  | _ :: _ :: _ => cases f <;> simp [hasValue, value, line1, line2, street]

theorem value_of_single (a : Address) (f : Field) (h : f.isSingle = true) :
    a.value f = a.values.get f := by
  cases f <;> first | rfl | cases h

def onOneLine (t : Text) : Text := Text.join " | ".toList (Text.splitOn '\n' t)

def describeField (a : Address) (field : Field) : Text :=
  match a.value field with
  | some value => ' ' :: field.name ++ '=' :: onOneLine value ++ [';']
  | none => []

def description (a : Address) : Text :=
  "(AddressData:".toList ++
    (match a.language with
      | some language => " language=".toList ++ language ++ [';']
      | none => []) ++
    (Field.all.filter fun f => f != .addressLine1 && f != .addressLine2).flatMap a.describeField ++
    [')']

end Address
end Postal
