import Postal.Text

/-!
# Arguments of a command

How the arguments of one command are told apart, from left to right. A long
option is `--name`, with its value behind `=` or in the next argument; short
options stand behind one dash, several together, and the last may hold its
value. A value in an argument of its own does not begin with a dash, unless it
is a lone dash. Behind `--` every argument is a positional one. The word of a
subcommand ends the arguments of the command.

The first argument that does not fit, or that asks for help or for the version,
ends the reading, whatever stands behind it.
-/

set_option autoImplicit false

namespace Postal

inductive Stop where
  | usage
  | help (command : List Text)
  | version
  deriving DecidableEq, Repr

/-- What a command accepts. Options of `single` may stand once, those of `multiple` many times. -/
structure CommandForm where
  words : List Text := []
  flags : List Text := []
  /-- Options without a value that end the reading. -/
  requests : List (Text × Stop) := []
  single : List Text := []
  multiple : List Text := []
  accepts : Text → Text → Bool := fun _ _ => true
  shorts : List (Char × Text) := []
  subcommands : List Text := []
  positionals : Nat := 0

structure Arguments where
  /-- Options by long name; a flag has the empty value. -/
  options : List (Text × Text) := []
  /-- An option whose value stood last, in an argument of its own. It is looked at together
  with what follows. -/
  pending : Option (Text × Text) := none
  positionals : List Text := []
  subcommand : Option (Text × List Text) := none
  deriving DecidableEq, Repr

namespace Arguments

def has (arguments : Arguments) (name : Text) : Bool :=
  arguments.options.any fun option => option.1 == name

def value? (arguments : Arguments) (name : Text) : Option Text := arguments.options.lookup name

def values (arguments : Arguments) (name : Text) : List Text :=
  arguments.options.filterMap fun option => if option.1 == name then some option.2 else none

end Arguments

namespace CommandForm

def isFlag (form : CommandForm) (name : Text) : Bool :=
  form.flags.contains name || (form.requests.lookup name).isSome

def isValued (form : CommandForm) (name : Text) : Bool :=
  form.single.contains name || form.multiple.contains name

def looksLikeOption : Text → Bool
  | '-' :: _ :: _ => true
  | _ => false

/-- Takes in an option. A request ends the reading, and so do an option that stands too often
and a value that the option does not take. -/
def take (form : CommandForm) (found : Arguments) (name value : Text) : Except Stop Arguments :=
  match form.requests.lookup name with
  | some stop => .error stop
  | none =>
    if found.has name && !form.multiple.contains name then .error .usage
    else if form.isValued name && !form.accepts name value then .error .usage
    else .ok { found with options := found.options ++ [(name, value)] }

def settle (form : CommandForm) (found : Arguments) : Except Stop Arguments :=
  match found.pending with
  | none => .ok found
  | some (name, value) => form.take { found with pending := none } name value

def position (form : CommandForm) (found : Arguments) (argument : Text) :
    Except Stop Arguments :=
  if found.positionals.length < form.positionals then
    .ok { found with positionals := found.positionals ++ [argument] }
  else .error .usage

def long (form : CommandForm) (found : Arguments) (argument : Text) :
    Except Stop (Arguments × Option Text) :=
  let name := argument.takeWhile (· != '=')
  match argument.dropWhile (· != '=') with
  | [] =>
    if form.isFlag name then do return (← form.take found name [], none)
    else if form.isValued name then .ok (found, some name)
    else .error .usage
  | _ :: value =>
    if form.isValued name then do return (← form.take found name value, none)
    else .error .usage

def attached : Text → Text
  | '=' :: value => value
  | value => value

def short (form : CommandForm) (found : Arguments) :
    Text → Except Stop (Arguments × Option Text)
  | [] => .ok (found, none)
  | c :: rest =>
    match form.shorts.lookup c with
    | none => .error .usage
    | some name =>
      if form.isFlag name then do short form (← form.take found name []) rest
      else if rest = [] then .ok (found, some name)
      else do return (← form.take found name (attached rest), none)

def option (form : CommandForm) (found : Arguments) :
    Text → Except Stop (Arguments × Option Text)
  | '-' :: '-' :: name => form.long found name
  | '-' :: names => form.short found names
  | _ => .error .usage

def scan (form : CommandForm) (found : Arguments) : List Text → Except Stop Arguments
  | [] => form.settle found
  | argument :: rest =>
    -- An option that is pending waits until the subcommand has been read.
    if form.subcommands.contains argument then
      .ok { found with subcommand := some (argument, rest) }
    else do
      let settled ← form.settle found
      if argument = ['-', '-'] then rest.foldlM form.position settled
      else if looksLikeOption argument then
        match ← form.option settled argument, rest with
        | (next, none), rest => scan form next rest
        | (next, some name), value :: rest =>
          if looksLikeOption value then .error .usage
          else scan form { next with pending := some (name, value) } rest
        | (_, some _), [] => .error .usage
      else scan form (← form.position settled argument) rest

def read (form : CommandForm) (arguments : List Text) : Except Stop Arguments := do
  let found ← form.scan {} arguments
  if found.positionals.length ≠ form.positionals then .error .usage
  else if found.subcommand.isNone && !form.subcommands.isEmpty then .error .usage
  else return found

end CommandForm
end Postal
