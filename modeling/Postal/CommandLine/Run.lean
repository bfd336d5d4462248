import Postal.Address.Record
import Postal.CommandLine.BorderedTable
import Postal.CommandLine.Invocation
import Postal.Diagnostic
import Postal.Interpreter
import Postal.Json.Printer
import Postal.LookupKey.Decoding
import Postal.RegionTable.Bundled

/-!
# Running an invocation

What the program prints and how it exits, as a function of its arguments,
the environment and the files it may read. Bad data exits with 65, a fault of
the program with 70, a usage error with 2. Faults of files and templates are
reports, which the outermost layer lays out, and so is the help on a command.
-/

set_option autoImplicit false

namespace Postal

inductive Report where
  | help (command : List Text)
  | unreadableData (path : Text)
  | invalidData (path : Text) (cause : MetadataError)
  | unreadableAddress (path : Text)
  | invalidAddress (path : Text)
  | template (diagnostic : Diagnostic)
  deriving DecidableEq, Repr

inductive Outcome where
  | usageError
  | finished (status : Nat) (output errors : Text)
  | reported (report : Report)
  deriving DecidableEq, Repr

abbrev Files := Text → Option Text

namespace Run

def badData : Nat := 65

def softwareFault : Nat := 70

def line (t : Text) : Text := t ++ ['\n']

def printed (t : Text) : Outcome := .finished 0 (line t) []

def failed (status : Nat) (t : Text) : Outcome := .finished status [] (line t)

def errorJson (message : Text) : Text :=
  Json.compact (.object [("error".toList, .string message)])

/-! ## Colours -/

def escaped (on off : Text) (colour : Colour) (t : Text) : Text :=
  match colour with
  | .always => '\x1b' :: '[' :: on ++ 'm' :: t ++ '\x1b' :: '[' :: off ++ ['m']
  | _ => t

def bold : Colour → Text → Text := escaped ['1'] ['0']

def dimmed : Colour → Text → Text := escaped ['2'] ['0']

def red : Colour → Text → Text := escaped ['3', '1'] ['3', '9']

/-! ## Reading files -/

def readTable (files : Files) (data : Option Text) : Except Report RegionTable :=
  match data with
  | none => .ok .bundled
  | some path =>
    match files path with
    | none => .error (.unreadableData path)
    | some content => (RegionTable.ofJsonText content).mapError (.invalidData path)

def readAddress (files : Files) (input : Option Text) : Except Report Address :=
  match input with
  | none => .ok {}
  | some path =>
    match files path with
    | none => .error (.unreadableAddress path)
    | some content =>
      match Address.read? content with
      | some a => .ok a
      | none => .error (.invalidAddress path)

/-! ## Formatting addresses -/

/-- The address of the input with the values of the arguments over it. -/
def overriding (a : Address) (arguments : FormatArguments) : Address :=
  let draft := arguments.values.foldl (fun (d : Draft) entry => d.set entry.1 (some entry.2))
    (Draft.copyOf a)
  let lined := if arguments.lines = [] then draft else draft.setLines arguments.lines
  let tagged := match arguments.language with
    | some tag => lined.setLanguage tag
    | none => lined
  tagged.build

def templateLines (template : Text) (a : Address) : Except Report (List Text) := do
  let parsed ← (Template.parseStrict template).mapError fun e =>
    .template (.ofTemplateError template e)
  (Envelope.lines a parsed).mapError fun e => .template (.ofFieldError template e)

def showLines (json : Bool) (a : Address) (lines : List Text) : Outcome :=
  if json then
    printed (Json.pretty (.object [
      ("address".toList, a.toJson),
      ("lines".toList, .array (lines.map .string))]))
  else .finished 0 (lines.flatMap line) []

def statusOf : FormatError → Nat
  | .metadata _ => softwareFault
  | .missingDefaultFormat => softwareFault
  | _ => badData

def formatFailed (json : Bool) (e : FormatError) : Outcome :=
  failed (statusOf e)
    (if json then errorJson e.message else "Format error: ".toList ++ e.message)

def unusableTable (e : FormatError) : Outcome :=
  failed badData ("Invalid region data: ".toList ++ e.message)

def format (table : RegionTable) (files : Files) (arguments : FormatArguments) : Outcome :=
  match readAddress files arguments.input with
  | .error report => .reported report
  | .ok base =>
    let a := overriding base arguments
    match arguments.template with
    | some template =>
      match templateLines template a with
      | .error report => .reported report
      | .ok lines => showLines arguments.json a lines
    | none =>
      match Interpreter.build table {} with
      | .error e => unusableTable e
      | .ok interpreter =>
        match interpreter.envelope a with
        | .error e => formatFailed arguments.json e
        | .ok lines => showLines arguments.json a lines

/-! ## Listing fields -/

structure FormField where
  field : Field
  required : Bool
  width : Width
  deriving DecidableEq, Repr

/-- The first line is required where the street address is. -/
def isRequired (required : List Field) (f : Field) : Bool :=
  required.contains f || (f == .addressLine1 && required.contains .streetAddress)

def formFields (i : Interpreter) (region : Text) (order required : List Field) : List FormField :=
  (order.filter fun f => !i.options.isHidden f).map fun f =>
    ⟨f, isRequired required f, i.width f region⟩

def FormField.toJson (f : FormField) : Json Text :=
  .object [
    ("field".toList, .string f.field.name),
    ("code".toList, .string [f.field.code]),
    ("required".toList, .bool f.required),
    ("width".toList, .string f.width.name)]

def FormField.row (f : FormField) : BorderedTable.Row :=
  [f.field.name, [f.field.code], if f.required then "yes".toList else [], f.width.name]

def fieldsJson (i : Interpreter) (script : Script) (region : Text) (fields : List FormField) :
    Json Text :=
  .object [
    ("region".toList, .string region),
    ("script".toList, .string script.name),
    ("languages".toList, .array ((i.languages region).map .string)),
    ("fields".toList, .array (fields.map FormField.toJson))]

def fieldsTable (fields : List FormField) : Text :=
  BorderedTable.render ["Field".toList, "Code".toList, "Required".toList, "Width".toList]
    (fields.map FormField.row)

def unknownRegionNote (table : RegionTable) (region : Text) : Text :=
  if table.contains region then []
  else '\n' :: line ("Unknown region ".toList ++ region ++ ", showing the default layout".toList)

def formOptions (region : Text) (arguments : FieldsArguments) : Except FieldError FormOptions :=
  (arguments.hidden.foldl FormOptions.hide {}).setOrder region arguments.order

def scriptOf (latin : Bool) : Script := if latin then .latin else .native

def layout (i : Interpreter) (script : Script) (region : Text) :
    Except FormatError (List Field × List Field) := do
  let order ← i.fieldOrder script region
  return (order, ← i.required region)

def fields (table : RegionTable) (arguments : FieldsArguments) : Outcome :=
  let region := arguments.region.upperCase
  let script := scriptOf arguments.latin
  match formOptions region arguments with
  | .error e => failed badData ("Invalid field order: ".toList ++ e.message)
  | .ok options =>
    match Interpreter.build table options with
    | .error e => unusableTable e
    | .ok i =>
      match layout i script region with
      | .error e =>
        failed badData ("Invalid metadata for region ".toList ++ region ++ ": ".toList ++ e.message)
      | .ok (order, required) =>
        let shown := formFields i region order required
        if arguments.json then printed (Json.pretty (fieldsJson i script region shown))
        else .finished 0 (line (fieldsTable shown) ++ unknownRegionNote table region) []

/-! ## Lookup keys -/

def keyJson (key : LookupKey) : Json Text :=
  .object [
    ("key".toList, .string key.text),
    ("key_type".toList, .string key.kind.name),
    ("script".toList, .string key.script.name),
    ("language".toList, (key.language.map Json.string).getD .null),
    ("levels".toList, .array (key.levels.map fun (field, value) =>
      .object [("field".toList, .string field.name), ("value".toList, .string value)]))]

def keyTable (key : LookupKey) : Text :=
  BorderedTable.render ["Part".toList, "Value".toList] (
    [["type".toList, key.kind.name], ["script".toList, key.script.name],
      ["language".toList, key.language.getD ['-']]] ++
      key.levels.map fun (field, value) => [field.name, value])

def keyFailed (colour : Colour) (json : Bool) (e : KeyError) : Outcome :=
  failed badData
    (if json then errorJson e.message
      else red colour "Key error:".toList ++ ' ' :: e.message)

def showDecoded (colour : Colour) (json : Bool) (key : LookupKey) : Outcome :=
  if json then printed (Json.pretty (keyJson key))
  else .finished 0 (line (bold colour key.text) ++ line (keyTable key)) []

def showDerived (colour : Colour) (json : Bool) : Option LookupKey → Outcome
  | some key => printed (if json then Json.compact (.string key.text) else key.text)
  | none =>
    if json then .finished badData (line "null".toList) []
    else failed badData (dimmed colour "no such key".toList)

def keyOutcome (colour : Colour) (json : Bool) : KeyAction → Except KeyError Outcome
  | .decode key => do return showDecoded colour json (← LookupKey.decode key)
  | .parent key => do return showDerived colour json (← (← LookupKey.decode key).parent)
  | .upper key field => do return showDerived colour json (← (← LookupKey.decode key).upper field)

def key (colour : Colour) (json : Bool) (action : KeyAction) : Outcome :=
  match keyOutcome colour json action with
  | .ok outcome => outcome
  | .error e => keyFailed colour json e

end Run

def Invocation.run (invocation : Invocation) (files : Files) : Outcome :=
  match Run.readTable files invocation.data with
  | .error report => .reported report
  | .ok table =>
    match invocation.command with
    | .format arguments => Run.format table files arguments
    | .fields arguments => Run.fields table arguments
    | .key action json => Run.key invocation.colour json action

def Stop.outcome : Stop → Outcome
  | .usage => .usageError
  | .help command => .reported (.help command)
  | .version => Run.printed "addrfmt 0.1.0".toList

def outcome (environment : Option Text) (arguments : List Text) (files : Files) : Outcome :=
  match Invocation.read environment arguments with
  | .ok invocation => invocation.run files
  | .error stop => stop.outcome

def Report.status : Report → Nat
  | .help _ => 0
  | _ => Run.badData

namespace Outcome

def status : Outcome → Nat
  | usageError => 2
  | finished status _ _ => status
  | reported report => report.status

end Outcome

def Report.message : Report → Text
  | .help command => "usage: ".toList ++ Text.join [' '] ("addrfmt".toList :: command) ++
      " [OPTIONS] ...".toList
  | .unreadableData path => "Failed to load region data: failed to read '".toList ++ path ++
      "'".toList
  | .invalidData _ cause => "Failed to load region data: ".toList ++ cause.message
  | .unreadableAddress path => "Failed to read address file ".toList ++ path
  | .invalidAddress path => "Invalid address file ".toList ++ path
  | .template diagnostic => diagnostic.message

end Postal
