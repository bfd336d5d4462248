import Postal.Text.Suggestion

/-!
# Address fields

The fourteen input slots of an address form. A field has a one-character code
used in region metadata and a name used in records and on the command line.
`streetAddress` covers every street line, and the two line fields are its
first line and the rest.
-/

set_option autoImplicit false

namespace Postal

inductive Field where
  | country
  | addressLine1
  | addressLine2
  | streetAddress
  | adminArea
  | locality
  | dependentLocality
  | postalCode
  | sortingCode
  | recipient
  | organization
  | landmarkAddressDescriptor
  | landmarkAffix
  | landmarkName
  deriving DecidableEq, Repr

inductive Width where
  | long
  | short
  deriving DecidableEq, Repr

inductive FieldError where
  | unknownCode (code : Char)
  | unknownWidth (code : Char)
  | repeatedInOrder (region : Text) (field : Field)
  | unknownName (name : Text) (suggestions : List Text)
  deriving DecidableEq, Repr

namespace Field

def all : List Field :=
  [country, addressLine1, addressLine2, streetAddress, adminArea, locality, dependentLocality,
    postalCode, sortingCode, recipient, organization, landmarkAddressDescriptor, landmarkAffix,
    landmarkName]

@[simp] theorem mem_all (f : Field) : f ∈ all := by
  cases f <;> decide

/-- The levels of a lookup key, shallowest first. -/
def hierarchy : List Field := [country, adminArea, locality, dependentLocality]

def hierarchyLevel? (f : Field) : Option Nat := hierarchy.idxOf? f

def inOrder (fields : List Field) : List Field := all.filter fields.contains

theorem mem_inOrder (f : Field) (fields : List Field) : f ∈ inOrder fields ↔ f ∈ fields := by
  simp [inOrder]

def code : Field → Char
  | country => 'R'
  | addressLine1 => '1'
  | addressLine2 => '2'
  | streetAddress => 'A'
  | adminArea => 'S'
  | locality => 'C'
  | dependentLocality => 'D'
  | postalCode => 'Z'
  | sortingCode => 'X'
  | recipient => 'N'
  | organization => 'O'
  | landmarkAddressDescriptor => 'T'
  | landmarkAffix => 'F'
  | landmarkName => 'L'

def ofCode? (c : Char) : Option Field := all.find? fun f => f.code == c

def ofCode (c : Char) : Except FieldError Field :=
  match ofCode? c with
  | some f => .ok f
  | none => .error (.unknownCode c)

@[simp] theorem ofCode_code (f : Field) : ofCode f.code = .ok f := by
  cases f <;> rfl

theorem code_of_ofCode (c : Char) (f : Field) (h : ofCode c = .ok f) : f.code = c := by
  unfold ofCode at h
  split at h
  · rename_i g hg
    cases h
    simpa using List.find?_some hg
  · cases h

def name : Field → Text
  | country => "country".toList
  | addressLine1 => "address_line1".toList
  | addressLine2 => "address_line2".toList
  | streetAddress => "street_address".toList
  | adminArea => "admin_area".toList
  | locality => "locality".toList
  | dependentLocality => "dependent_locality".toList
  | postalCode => "postal_code".toList
  | sortingCode => "sorting_code".toList
  | recipient => "recipient".toList
  | organization => "organization".toList
  | landmarkAddressDescriptor => "landmark_address_descriptor".toList
  | landmarkAffix => "landmark_affix".toList
  | landmarkName => "landmark_name".toList

def ofName? (name : Text) : Option Field := all.find? fun f => f.name == name

/-- Reads a field name, or else a single code. -/
def read (text : Text) : Except FieldError Field :=
  let code? := match text with
    | [c] => ofCode? c
    | _ => none
  match ofName? text <|> code? with
  | some f => .ok f
  | none => .error (.unknownName text (text.suggestions (all.map name)))

def defaultWidth : Field → Width
  | postalCode => .short
  | sortingCode => .short
  | _ => .long

def isSingle : Field → Bool
  | addressLine1 => false
  | addressLine2 => false
  | streetAddress => false
  | _ => true

end Field

namespace Width

def name : Width → Text
  | long => "long".toList
  | short => "short".toList

def all : List Width := [long, short]

def ofName? (name : Text) : Option Width := all.find? fun w => w.name == name

def ofCode? : Char → Option Width
  | 'N' => some .short
  | 'S' => some .short
  | 'L' => some .long
  | _ => none

def ofCode (c : Char) : Except FieldError Width :=
  match ofCode? c with
  | some w => .ok w
  | none => .error (.unknownWidth c)

end Width

def FieldError.message : FieldError → Text
  | .unknownCode code => "invalid field character: '".toList ++ [code] ++ "'".toList
  | .unknownWidth code => "invalid width character: '".toList ++ [code] ++ "'".toList
  | .repeatedInOrder region field =>
    "duplicate address field '".toList ++ field.name ++
      "' in custom order for region '".toList ++ region ++ "'".toList
  | .unknownName name suggestions =>
    "unknown address field '".toList ++ name ++ "'".toList ++
      if suggestions = [] then []
      else ", did you mean: ".toList ++ Text.join ", ".toList suggestions ++ "?".toList

end Postal
