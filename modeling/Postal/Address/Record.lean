import Postal.Address.Draft
import Postal.Json.Limits

/-!
# Address records

The serialized form of an address: thirteen members, each of which may be
left out. A record holds what was written, and turning it into an address
trims it as any draft is trimmed. A record is written as an object, and read
from an object or from an array of its values in order.
-/

set_option autoImplicit false

namespace Postal

structure AddressRecord where
  values : SingleValues := {}
  lines : List Text := []
  language : Option Text := none
  deriving DecidableEq, Repr

namespace AddressRecord

inductive Member where
  | single (field : Field)
  | lines
  | language
  deriving DecidableEq, Repr

def members : List Member :=
  [.single .country, .lines, .single .adminArea, .single .locality, .single .dependentLocality,
    .single .postalCode, .single .sortingCode, .single .organization, .single .recipient,
    .language, .single .landmarkAddressDescriptor, .single .landmarkAffix, .single .landmarkName]

def Member.name : Member → Text
  | single .country => "region_code".toList
  | single field => field.name
  | lines => "address_lines".toList
  | language => "language_code".toList

def memberOfName? (name : Text) : Option Member := members.find? fun m => m.name == name

def singles : List Field :=
  members.filterMap fun m => match m with
    | .single field => some field
    | _ => none

def draft (r : AddressRecord) : Draft :=
  let filled := singles.foldl (fun (d : Draft) f => d.set f (r.values.get f)) ({} : Draft)
  let tagged := match r.language with
    | some tag => filled.setLanguage tag
    | none => filled
  tagged.setLines r.lines

def address (r : AddressRecord) : Address := r.draft.build

def ofAddress (a : Address) : AddressRecord := ⟨a.values, a.lines, a.language⟩

def memberValue? (r : AddressRecord) : Member → Option (Json Text)
  | .single field => (r.values.get field).map .string
  | .lines => if r.lines = [] then none else some (.array (r.lines.map .string))
  | .language => r.language.map .string

def toJson (r : AddressRecord) : Json Text :=
  .object (members.filterMap fun m => (r.memberValue? m).map fun value => (m.name, value))

def optionalText? : Json.Written → Option (Option Text)
  | .null => some none
  | .string s => (Json.text? s).map some
  | _ => none

def requiredText? : Json.Written → Option Text
  | .string s => Json.text? s
  | _ => none

def texts? : List Json.Written → Option (List Text)
  | [] => some []
  | item :: items => do return (← requiredText? item) :: (← texts? items)

def put? (r : AddressRecord) (m : Member) (value : Json.Written) : Option AddressRecord :=
  match m with
  | .single field => (optionalText? value).map fun v => { r with values := r.values.set field v }
  | .language => (optionalText? value).map fun v => { r with language := v }
  | .lines =>
    match value with
    | .array items => (texts? items).map fun lines => { r with lines := lines }
    | _ => none

/-- Members of other names are passed over whatever they hold; a member of the
record may stand once. -/
def ofMembers? (seen : List Member) (r : AddressRecord) :
    List (List Json.Piece × Json.Written) → Option AddressRecord
  | [] => some r
  | (key, value) :: rest => do
    let name ← Json.text? key
    match memberOfName? name with
    | none => ofMembers? seen r rest
    | some m => if m ∈ seen then none else ofMembers? (m :: seen) (← r.put? m value) rest

def ofItems? (r : AddressRecord) : List Member → List Json.Written → Option AddressRecord
  | _, [] => some r
  | [], _ :: _ => none
  | m :: ms, item :: items => do ofItems? (← r.put? m item) ms items

def ofJson? : Json.Written → Option AddressRecord
  | .object members => ofMembers? [] {} members
  | .array items => ofItems? {} members items
  | _ => none

def read? (t : Text) : Option AddressRecord := Json.Grammar.read? t >>= ofJson?

end AddressRecord

def Address.toJson (a : Address) : Json Text := (AddressRecord.ofAddress a).toJson

def Address.read? (t : Text) : Option Address := (AddressRecord.read? t).map AddressRecord.address

end Postal
