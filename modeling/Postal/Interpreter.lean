import Postal.Envelope
import Postal.FormOptions
import Postal.RegionTable
import Postal.Script
import Postal.Template.Codes

/-!
# The interpreter of region metadata

An interpreter reads a region table under some form options. It is built only
over a table with a default format, so a layout is found for every region:
the region's own format, in Latin script the Latin one if there is one, and
else the default format.
-/

set_option autoImplicit false

namespace Postal

inductive FormatError where
  | invalidTemplate (region : Text) (cause : TemplateError)
  | invalidRequired (region : Text) (cause : FieldError)
  | field (cause : FieldError)
  | metadata (cause : MetadataError)
  | missingDefaultFormat
  deriving DecidableEq, Repr

def FormatError.message : FormatError → Text
  | .invalidTemplate region cause =>
    "invalid format template for region '".toList ++ region ++ "': ".toList ++ cause.message
  | .invalidRequired region cause =>
    "invalid required fields for region '".toList ++ region ++ "': ".toList ++ cause.message
  | .field cause => cause.message
  | .metadata cause => cause.message
  | .missingDefaultFormat =>
    "region data has no default format for '".toList ++ RegionTable.defaultRegion ++ "'".toList

structure Interpreter where
  table : RegionTable
  options : FormOptions

namespace Interpreter

open RegionTable (defaultRegion)

def build (table : RegionTable) (options : FormOptions) : Except FormatError Interpreter :=
  match table.get? defaultRegion .fmt with
  | some _ => .ok ⟨table, options⟩
  | none => .error .missingDefaultFormat

theorem build_eq_ok (table : RegionTable) (options : FormOptions) (i : Interpreter)
    (h : build table options = .ok i) :
    i = ⟨table, options⟩ ∧ (table.get? defaultRegion .fmt).isSome = true := by
  unfold build at h
  split at h
  · rename_i hf
    cases h
    exact ⟨rfl, by rw [hf]; rfl⟩
  · cases h

def latinFormat? (i : Interpreter) (script : Script) (region : Text) : Option Text :=
  match script with
  | .latin => i.table.get? region .lfmt
  | .native => none

def format (i : Interpreter) (script : Script) (region : Text) : Except FormatError Text :=
  match i.latinFormat? script region <|> i.table.get? region .fmt <|>
      i.table.get? defaultRegion .fmt with
  | some format => .ok format
  | none => .error .missingDefaultFormat

def parseFor (region template : Text) : Except FormatError Template :=
  (Template.parseStrict template).mapError (.invalidTemplate region)

def fieldOrderOf (i : Interpreter) (template region : Text) : Except FormatError (List Field) := do
  let order ← (FieldOrder.ofTemplate (← parseFor region template)).mapError .field
  match i.options.order region with
  | [] => return FieldOrder.expandStreet order
  | custom =>
    return FieldOrder.expandStreet
      (← (FieldOrder.applyCustom region order custom).mapError .field)

def fieldOrder (i : Interpreter) (script : Script) (region : Text) :
    Except FormatError (List Field) := do
  i.fieldOrderOf (← i.format script region) region

def regionOf (a : Address) : Text := (a.value .country).getD defaultRegion

def envelope (i : Interpreter) (a : Address) : Except FormatError (List Text) := do
  let region := regionOf a
  let template ← parseFor region (← i.format (Script.ofLanguage a.language) region)
  (Envelope.lines a template).mapError .field

def required (i : Interpreter) (region : Text) : Except FormatError (List Field) :=
  let require := i.table.get? region .require <|> i.table.get? defaultRegion .require
  (requiredFields (require.getD [])).mapError (.invalidRequired region)

def widthOverride? (i : Interpreter) (field : Field) (region : Text) : Option Width := do
  let overrides ← widthOverrides? (← i.table.get? region .widthOverrides)
  overrides.lookup field.code

def width (i : Interpreter) (field : Field) (region : Text) : Width :=
  (i.widthOverride? field region).getD field.defaultWidth

def languages (i : Interpreter) (region : Text) : List Text :=
  match i.table.get? region .languages with
  | some languages => (Text.splitOn '~' languages).filter (!·.isEmpty)
  | none => []

def defaultLanguage? (i : Interpreter) (region : Text) : Option Text :=
  i.table.get? region .lang

end Interpreter
end Postal
