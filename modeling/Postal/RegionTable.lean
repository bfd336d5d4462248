import Postal.Json.Limits
import Postal.RegionTable.Key
import Postal.Text.Map

/-!
# Region tables

A table holds a record for each of its region codes. A record is a JSON
object of which only the members that are strings are read. The region `CQ`
reads the record of `GG` unless it has one of its own.
-/

set_option autoImplicit false

namespace Postal

abbrev RegionRecord := List (Text × Json Text)

structure RegionTable where
  records : TextMap RegionRecord := {}

inductive MetadataError where
  /-- The region is empty where the whole document is at fault. -/
  | invalidJson (region : Text)
  | notAnObject (region : Text)
  deriving DecidableEq, Repr

def MetadataError.message : MetadataError → Text
  | .invalidJson region => "invalid json for region code '".toList ++ region ++ "'".toList
  | .notAnObject region =>
    "metadata for region code '".toList ++ region ++ "' is not a JSON object".toList

namespace RegionTable

def defaultRegion : Text := "ZZ".toList

def aliases : List (Text × Text) := [("CQ".toList, "GG".toList)]

def recordOf (region : Text) (value : Json Text) : Except MetadataError RegionRecord :=
  match value with
  | .object members => .ok members
  | _ => .error (.notAnObject region)

def readValue (region text : Text) : Except MetadataError (Json Text) :=
  match Json.read? text with
  | some value => .ok value
  | none => .error (.invalidJson region)

def readEntry (region text : Text) : Except MetadataError RegionRecord := do
  recordOf region (← readValue region text)

def readEntries : List (Text × Text) → Except MetadataError (List (Text × RegionRecord))
  | [] => .ok []
  | (region, text) :: rest => do
    let record ← readEntry region text
    return (region, record) :: (← readEntries rest)

def ofRecords (records : List (Text × RegionRecord)) : RegionTable := ⟨.ofList records⟩

def ofEntries (entries : List (Text × Text)) : Except MetadataError RegionTable := do
  return ofRecords (← readEntries entries)

/-- A record in a document is an object, or a string that holds one. -/
def readMember (region : Text) (value : Json Text) : Except MetadataError RegionRecord :=
  match value with
  | .string text => readEntry region text
  | value => recordOf region value

def readMembers : List (Text × Json Text) → Except MetadataError (List (Text × RegionRecord))
  | [] => .ok []
  | (region, value) :: rest => do
    let record ← readMember region value
    return (region, record) :: (← readMembers rest)

/-- The table of the members of a document, examined in the order of their codes. -/
def ofDocument (members : List (Text × Json Text)) : Except MetadataError RegionTable := do
  return ofRecords (← readMembers (TextMap.ofList members).entries)

def ofJsonText (text : Text) : Except MetadataError RegionTable :=
  match Json.read? text with
  | some (.object members) => ofDocument members
  | _ => .error (.invalidJson [])

def aliased? (table : RegionTable) (region : Text) : Option RegionRecord :=
  aliases.lookup region >>= table.records.get?

def record? (table : RegionTable) (region : Text) : Option RegionRecord :=
  table.records.get? region <|> table.aliased? region

def get? (table : RegionTable) (region : Text) (k : RegionKey) : Option Text := do
  (← Json.lookup? k.name (← table.record? region)).string?

def contains (table : RegionTable) (region : Text) : Bool := (table.record? region).isSome

def codes (table : RegionTable) : List Text := table.records.keys

def size (table : RegionTable) : Nat := table.records.size

def texts (table : RegionTable) (region : Text) : List (RegionKey × Text) :=
  RegionKey.all.filterMap fun k => (table.get? region k).map fun text => (k, text)

end RegionTable
end Postal
