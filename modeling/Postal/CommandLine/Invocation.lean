import Postal.CommandLine.Arguments
import Postal.Field

/-!
# Invocations

The commands of the program and their options. The options for colour, data
and verbosity may stand at every level of commands, the innermost counting;
a data file named by an option counts before one named by the environment.
An invocation that does not fit is a usage error. Help may be asked for at
every level, by an option or by the word `help` before the words of a command,
and the version at the outermost.
-/

set_option autoImplicit false

namespace Postal

inductive Colour where
  | auto
  | always
  | never
  deriving DecidableEq, Repr

structure FormatArguments where
  input : Option Text := none
  values : List (Field × Text) := []
  lines : List Text := []
  language : Option Text := none
  template : Option Text := none
  json : Bool := false
  deriving DecidableEq, Repr

structure FieldsArguments where
  region : Text
  latin : Bool := false
  order : List Field := []
  hidden : List Field := []
  json : Bool := false
  deriving DecidableEq, Repr

inductive KeyAction where
  | decode (key : Text)
  | parent (key : Text)
  | upper (key : Text) (field : Field)
  deriving DecidableEq, Repr

inductive Command where
  | format (arguments : FormatArguments)
  | fields (arguments : FieldsArguments)
  | key (action : KeyAction) (json : Bool)
  deriving DecidableEq, Repr

structure Invocation where
  colour : Colour := .auto
  data : Option Text := none
  command : Command
  deriving DecidableEq, Repr

def Colour.ofName? (name : Text) : Option Colour :=
  if name = "auto".toList then some .auto
  else if name = "always".toList then some .always
  else if name = "never".toList then some .never
  else none

namespace Invocation

def path? : Option Text → Option (Option Text)
  | none => some none
  | some [] => none
  | some path => some (some path)

def withShared (form : CommandForm) : CommandForm :=
  { form with
    flags := "verbose".toList :: form.flags
    requests := ("help".toList, .help form.words) :: form.requests
    single := "color".toList :: "data".toList :: form.single
    accepts := fun name value =>
      if name = "color".toList then (Colour.ofName? value).isSome
      else if name = "data".toList then (path? (some value)).isSome
      else form.accepts name value
    shorts := ('v', "verbose".toList) :: ('h', "help".toList) :: form.shorts }

def rootForm : CommandForm :=
  withShared {
    requests := [("version".toList, .version)]
    shorts := [('V', "version".toList)]
    subcommands := ["format".toList, "fields".toList, "key".toList, "help".toList] }

def field? (text : Text) : Option Field := (Field.read text).toOption

def fieldLists? (values : List Text) : Option (List Field) :=
  (values.flatMap (Text.splitOn ',')).mapM field?

def fieldOptions : List (Text × Field) :=
  [("region".toList, .country), ("recipient".toList, .recipient),
    ("organization".toList, .organization), ("admin-area".toList, .adminArea),
    ("locality".toList, .locality), ("dependent-locality".toList, .dependentLocality),
    ("postal-code".toList, .postalCode), ("sorting-code".toList, .sortingCode)]

def formatForm : CommandForm :=
  withShared {
    words := ["format".toList]
    flags := ["json".toList]
    single := ["input".toList, "language".toList, "template".toList] ++ fieldOptions.map Prod.fst
    multiple := ["address".toList]
    accepts := fun name value => name != "input".toList || (path? (some value)).isSome
    shorts := [('a', "address".toList)] }

def fieldsForm : CommandForm :=
  withShared {
    words := ["fields".toList]
    flags := ["latin".toList, "json".toList]
    multiple := ["order".toList, "hide".toList]
    accepts := fun _ value => (fieldLists? [value]).isSome
    positionals := 1 }

def keyForm : CommandForm :=
  withShared {
    words := ["key".toList]
    flags := ["json".toList]
    subcommands := ["decode".toList, "parent".toList, "upper".toList, "help".toList] }

def actionForm (name : Text) : CommandForm :=
  withShared {
    words := ["key".toList, name]
    flags := ["json".toList]
    single := if name = "upper".toList then ["field".toList] else []
    accepts := fun _ value => (field? value).isSome
    positionals := 1 }

def formatArguments? (found : Arguments) : Option FormatArguments := do
  let input ← path? (found.value? "input".toList)
  return {
    input := input
    values := fieldOptions.filterMap fun (name, field) =>
      (found.value? name).map fun value => (field, value)
    lines := found.values "address".toList
    language := found.value? "language".toList
    template := found.value? "template".toList
    json := found.has "json".toList }

def fieldsArguments? (found : Arguments) : Option FieldsArguments := do
  let region ← found.positionals.head?
  let order ← fieldLists? (found.values "order".toList)
  let hidden ← fieldLists? (found.values "hide".toList)
  return {
    region := region
    latin := found.has "latin".toList
    order := order
    hidden := hidden
    json := found.has "json".toList }

def levelColour? (found : Arguments) : Option (Option Colour) :=
  match found.value? "color".toList with
  | none => some none
  | some name => (Colour.ofName? name).map some

/-- The data file of a level: its own, or that of the environment. -/
def levelData? (environment : Option Text) (found : Arguments) : Option (Option Text) :=
  path? (found.value? "data".toList <|> environment)

def innermost {α : Type} (values : List (Option α)) : Option α := values.reverse.findSome? id

def ofLevels? (environment : Option Text) (levels : List Arguments) (command : Command) :
    Option Invocation := do
  let colours ← levels.mapM levelColour?
  let _ ← levels.mapM (levelData? environment)
  let named := levels.map fun found => found.value? "data".toList
  return {
    colour := (innermost colours).getD .auto
    data := innermost named <|> environment
    command := command }

def expected {α : Type} : Option α → Except Stop α
  | some value => .ok value
  | none => .error .usage

def helpOn (words : List Text) (commands : List (List Text)) (rest : List Text) : Stop :=
  if commands.contains rest then .help (words ++ rest) else .usage

def keyCommands : List (List Text) := [] :: keyForm.subcommands.map fun name => [name]

def commands : List (List Text) :=
  [[], ["format".toList], ["fields".toList], ["help".toList]] ++ keyCommands.map ("key".toList :: ·)

def action? (name : Text) (found : Arguments) : Option KeyAction := do
  let key ← found.positionals.head?
  if name = "upper".toList then return .upper key (← found.value? "field".toList >>= field?)
  else if name = "parent".toList then return .parent key
  else return .decode key

/-- Reads the arguments of the program; `environment` names the data file that
is used where no option names one. What is pending at a level is looked at when
the levels within have been read. -/
def read (environment : Option Text) (arguments : List Text) : Except Stop Invocation := do
  let root ← rootForm.read arguments
  let (name, rest) ← expected root.subcommand
  if name = "help".toList then .error (helpOn [] commands rest)
  else if name = "format".toList then
    let found ← formatForm.read rest
    let root ← rootForm.settle root
    let command := (formatArguments? found).map .format
    expected (command >>= ofLevels? environment [root, found])
  else if name = "fields".toList then
    let found ← fieldsForm.read rest
    let root ← rootForm.settle root
    let command := (fieldsArguments? found).map .fields
    expected (command >>= ofLevels? environment [root, found])
  else
    let found ← keyForm.read rest
    let (name, rest) ← expected found.subcommand
    if name = "help".toList then .error (helpOn keyForm.words keyCommands rest)
    else
      let inner ← (actionForm name).read rest
      let found ← keyForm.settle found
      let root ← rootForm.settle root
      let json := found.has "json".toList || inner.has "json".toList
      let command := (action? name inner).map fun action => .key action json
      expected (command >>= ofLevels? environment [root, found, inner])

def paths (invocation : Invocation) : List Text :=
  let input := match invocation.command with
    | .format arguments => arguments.input
    | _ => none
  [invocation.data, input].filterMap id

end Invocation
end Postal
