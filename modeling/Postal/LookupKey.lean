import Postal.Address
import Postal.Script

/-!
# Lookup keys

A key names a record of region metadata, or the example addresses of a
region. A data key holds values for the leading levels of the hierarchy
country, administrative area, locality, dependent locality; its canonical
text is `data/US/CA--en`. A key of examples is written with its script, as
in `examples/TW/local/_default`. Keys are the same if their canonical texts
are, so the script of a data key does not count.
-/

set_option autoImplicit false

namespace Postal

inductive KeyKind where
  | data
  | examples
  deriving DecidableEq, Repr

namespace KeyKind

def name : KeyKind → Text
  | data => "data".toList
  | examples => "examples".toList

def all : List KeyKind := [data, examples]

def ofName? (name : Text) : Option KeyKind := all.find? fun k => k.name == name

@[simp] theorem ofName?_name (k : KeyKind) : ofName? k.name = some k := by
  cases k <;> decide

end KeyKind

inductive KeyError where
  | wrongKind (head : Text)
  | invalidScript (value : Text)
  | malformedLanguage (segment : Text)
  | misplacedLanguage (segment : Text)
  | notDataKey (key : Text)
  | notInHierarchy (field : Field)
  | hierarchyGap (field : Field)
  deriving DecidableEq, Repr

def KeyError.message : KeyError → Text
  | .wrongKind head => "wrong key type: '".toList ++ head ++ "'".toList
  | .invalidScript value =>
    "script type has to be either latin or local, got '".toList ++ value ++ "'".toList
  | .malformedLanguage segment =>
    "wrong format: '".toList ++ segment ++
      "' should be <last node value>--<language code>".toList
  | .misplacedLanguage segment =>
    "language code must follow the last node, found it before '".toList ++ segment ++ "'".toList
  | .notDataKey key => "only data keys have a parent hierarchy, got '".toList ++ key ++ "'".toList
  | .notInHierarchy field =>
    "field '".toList ++ field.name ++ "' is not part of the lookup key hierarchy".toList
  | .hierarchyGap field =>
    "cannot set '".toList ++ field.name ++ "' before the levels above it".toList

structure LookupKey where
  kind : KeyKind
  script : Script := .native
  nodes : List Text := []
  language : Option Text := none
  deriving DecidableEq, Repr

namespace LookupKey

def defaultLanguage : Text := "_default".toList

def segments (parts : List Text) : Text := parts.flatMap ('/' :: ·)

@[simp] theorem segments_nil : segments [] = [] := rfl

@[simp] theorem segments_cons (part : Text) (parts : List Text) :
    segments (part :: parts) = '/' :: part ++ segments parts := rfl

@[simp] theorem segments_append (parts more : List Text) :
    segments (parts ++ more) = segments parts ++ segments more := by
  simp [segments]

def languageSuffix (key : LookupKey) : Text :=
  match key.nodes, key.language with
  | _ :: _, some language => '-' :: '-' :: language
  | _, _ => []

def text (key : LookupKey) : Text :=
  match key.kind with
  | .data => key.kind.name ++ segments key.nodes ++ key.languageSuffix
  | .examples =>
    match key.nodes with
    | [] => key.kind.name
    | country :: _ =>
      key.kind.name ++ segments [country, key.script.name, key.language.getD defaultLanguage]

def same (a b : LookupKey) : Bool := a.text == b.text

def depth (key : LookupKey) : Nat := key.nodes.length

def value? (key : LookupKey) (field : Field) : Option Text := do
  let level ← field.hierarchyLevel?
  key.nodes[level]?

def levels (key : LookupKey) : List (Field × Text) := Field.hierarchy.zip key.nodes

def requireData (key : LookupKey) : Except KeyError Unit :=
  match key.kind with
  | .data => .ok ()
  | .examples => .error (.notDataKey key.text)

def parent (key : LookupKey) : Except KeyError (Option LookupKey) := do
  key.requireData
  match key.nodes with
  | [] => return none
  | nodes => return some { key with nodes := nodes.dropLast }

def upper (key : LookupKey) (field : Field) : Except KeyError (Option LookupKey) := do
  key.requireData
  match field.hierarchyLevel? with
  | none => return none
  | some level =>
    if level < key.depth then return some { key with nodes := key.nodes.take (level + 1) }
    else return none

def ancestorsWithin : Nat → LookupKey → Except KeyError (List LookupKey)
  | 0, _ => .ok []
  | steps + 1, key => do
    match ← key.parent with
    | none => return []
    | some up => return up :: (← ancestorsWithin steps up)

/-- The parent, its parent and so on; there are as many as the key has levels. -/
def ancestors (key : LookupKey) : Except KeyError (List LookupKey) :=
  ancestorsWithin (key.depth + 1) key

def setNode (key : LookupKey) (field : Field) (value : Text) : Except KeyError LookupKey :=
  match field.hierarchyLevel? with
  | none => .error (.notInHierarchy field)
  | some level =>
    if level < key.depth then .ok { key with nodes := key.nodes.set level value }
    else if level = key.depth then .ok { key with nodes := key.nodes ++ [value] }
    else .error (.hierarchyGap field)

def storeNode (field : Field) (value : Text) : ExceptT KeyError (StateM LookupKey) Unit := do
  match field.hierarchyLevel? with
  | none => throw (.notInHierarchy field)
  | some level =>
    let depth := (← get).depth
    if level < depth then modify fun key => { key with nodes := key.nodes.set level value }
    else if level = depth then modify fun key => { key with nodes := key.nodes ++ [value] }
    else throw (.hierarchyGap field)

/-- A level that cannot be set leaves the key as it was. -/
theorem storeNode_run (key : LookupKey) (field : Field) (value : Text) :
    (storeNode field value).run.run key =
      match key.setNode field value with
      | .ok next => (.ok (), next)
      | .error e => (.error e, key) := by
  unfold storeNode setNode
  cases field.hierarchyLevel? with
  | none => rfl
  | some level =>
    -- The state that is read is the key itself.
    change StateT.run (ExceptT.run
      (if level < key.depth then _ else if level = key.depth then _ else _)) key = _
    by_cases hlt : level < key.depth
    · simp only [if_pos hlt]
      rfl
    · by_cases heq : level = key.depth
      · simp only [if_neg hlt, if_pos heq]
        rfl
      · simp only [if_neg hlt, if_neg heq]
        rfl

def leadingValues (a : Address) : List Field → List Text
  | [] => []
  | f :: rest =>
    match a.value f with
    | some value => value :: leadingValues a rest
    | none => []

theorem leadingValues_length (a : Address) (fields : List Field) :
    (leadingValues a fields).length ≤ fields.length := by
  induction fields with
  | nil => exact Nat.le_refl 0
  | cons f rest ih =>
    unfold leadingValues
    split
    · exact Nat.succ_le_succ ih
    · exact Nat.zero_le _

theorem leadingValues_eq_nil_iff (a : Address) :
    leadingValues a Field.hierarchy = [] ↔ a.value .country = none := by
  rw [Field.hierarchy, leadingValues]
  cases a.value .country <;> simp

theorem leadingValues_ne_nil (a : Address) (h : (a.value .country).isSome) :
    leadingValues a Field.hierarchy ≠ [] :=
  mt (leadingValues_eq_nil_iff a).mp (Option.isSome_iff_ne_none.mp h)

/-- Takes nodes and language from an address. An explicitly Latin tag selects
Latin script; any other leaves the script as it was. -/
def setAddress (key : LookupKey) (a : Address) : LookupKey :=
  { key with
    script := if a.language.any Language.isLatin then .latin else key.script
    nodes := leadingValues a Field.hierarchy
    language := a.language }

end LookupKey
end Postal
