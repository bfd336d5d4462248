import Postal.Address

/-!
# Drafts of addresses

A draft collects the values of an address. Single values are trimmed when
they are written, and a blank one clears its field. Street lines are kept raw
in slots, a slot being empty where a line was cleared; only building cuts
them at line breaks, trims them and drops the blank ones.
-/

set_option autoImplicit false

namespace Postal

structure Draft where
  values : SingleValues := {}
  slots : List (Option Text) := []
  language : Option Text := none
  deriving DecidableEq, Repr

def slotLines (raw : Text) : List Text := (Text.splitOn '\n' raw).filterMap Text.trimmed?

def dropEmptySlots : List (Option Text) → List (Option Text)
  | [] => []
  | slot :: slots =>
    match dropEmptySlots slots with
    | [] => if slot.isSome then [slot] else []
    | next :: kept => slot :: next :: kept

/-- Writes slot `index`, with empty slots before it where there is none yet. -/
def fillSlot (index : Nat) (text : Text) (slots : List (Option Text)) : List (Option Text) :=
  match index, slots with
  | 0, [] => [some text]
  | 0, _ :: rest => some text :: rest
  | index + 1, [] => none :: fillSlot index text []
  | index + 1, slot :: rest => slot :: fillSlot index text rest

/-- Clears slot `index`; clearing the last one removes it and the empty slots
before it. -/
def clearSlot (index : Nat) (slots : List (Option Text)) : List (Option Text) :=
  if index + 1 < slots.length then slots.set index none
  else if index + 1 = slots.length then dropEmptySlots slots.dropLast
  else slots

namespace Draft

def setSingle (d : Draft) (field : Field) (value : Option Text) : Draft :=
  { d with values := d.values.set field (value >>= Text.trimmed?) }

def setRegionCode (d : Draft) (value : Text) : Draft := d.setSingle .country (some value)

def setAdminArea (d : Draft) (value : Text) : Draft := d.setSingle .adminArea (some value)

def setLocality (d : Draft) (value : Text) : Draft := d.setSingle .locality (some value)

def setDependentLocality (d : Draft) (value : Text) : Draft :=
  d.setSingle .dependentLocality (some value)

def setPostalCode (d : Draft) (value : Text) : Draft := d.setSingle .postalCode (some value)

def setSortingCode (d : Draft) (value : Text) : Draft := d.setSingle .sortingCode (some value)

def setOrganization (d : Draft) (value : Text) : Draft := d.setSingle .organization (some value)

def setRecipient (d : Draft) (value : Text) : Draft := d.setSingle .recipient (some value)

def setLandmarkAddressDescriptor (d : Draft) (value : Text) : Draft :=
  d.setSingle .landmarkAddressDescriptor (some value)

def setLandmarkAffix (d : Draft) (value : Text) : Draft := d.setSingle .landmarkAffix (some value)

def setLandmarkName (d : Draft) (value : Text) : Draft := d.setSingle .landmarkName (some value)

def setNamed (d : Draft) (field : Field) (value : Text) : Draft :=
  match field with
  | .country => d.setRegionCode value
  | .adminArea => d.setAdminArea value
  | .locality => d.setLocality value
  | .dependentLocality => d.setDependentLocality value
  | .postalCode => d.setPostalCode value
  | .sortingCode => d.setSortingCode value
  | .organization => d.setOrganization value
  | .recipient => d.setRecipient value
  | .landmarkAddressDescriptor => d.setLandmarkAddressDescriptor value
  | .landmarkAffix => d.setLandmarkAffix value
  | .landmarkName => d.setLandmarkName value
  | .addressLine1 => d
  | .addressLine2 => d
  | .streetAddress => d

@[simp] theorem setNamed_eq (d : Draft) (f : Field) (value : Text) :
    d.setNamed f value = d.setSingle f (some value) := by
  cases f <;> rfl

def setLanguage (d : Draft) (tag : Text) : Draft := { d with language := Text.trimmed? tag }

def clearLanguage (d : Draft) : Draft := { d with language := none }

def setLines (d : Draft) (lines : List Text) : Draft := { d with slots := lines.map some }

def addLine (d : Draft) (line : Text) : Draft := { d with slots := d.slots ++ [some line] }

def setStreet (d : Draft) (value : Text) : Draft := { d with slots := [some value] }

/-- Writes the slot at `index`; a blank value clears it. -/
def setSlot (d : Draft) (index : Nat) (value : Option Text) : Draft :=
  match value with
  | none => { d with slots := clearSlot index d.slots }
  | some raw =>
    if (Text.trimmed? raw).isSome then { d with slots := fillSlot index raw d.slots }
    else { d with slots := clearSlot index d.slots }

def set (d : Draft) (field : Field) (value : Option Text) : Draft :=
  match field with
  | .streetAddress =>
    match value with
    | some value => d.setStreet value
    | none => { d with slots := [] }
  | .addressLine1 => d.setSlot 0 value
  | .addressLine2 => d.setSlot 1 value
  | field => d.setSingle field value

theorem set_of_single (d : Draft) (f : Field) (v : Option Text) (h : f.isSingle = true) :
    d.set f v = d.setSingle f v := by
  cases f <;> first | rfl | cases h

def copyValue (a : Address) (values : SingleValues) (field : Field) : SingleValues :=
  if field.isSingle then
    match a.value field with
    | some value => values.set field (some value)
    | none => values
  else values

/-- Takes over every value of an address, in place of what the draft held. -/
def copyOf (a : Address) : Draft where
  values := Field.all.foldl (copyValue a) {}
  slots := a.lines.map some
  language := a.language

def build (d : Draft) : Address where
  values :=
    { country := d.values.get .country
      adminArea := d.values.get .adminArea
      locality := d.values.get .locality
      dependentLocality := d.values.get .dependentLocality
      postalCode := d.values.get .postalCode
      sortingCode := d.values.get .sortingCode
      recipient := d.values.get .recipient
      organization := d.values.get .organization
      landmarkAddressDescriptor := d.values.get .landmarkAddressDescriptor
      landmarkAffix := d.values.get .landmarkAffix
      landmarkName := d.values.get .landmarkName }
  lines := (d.slots.filterMap id).flatMap slotLines
  language := d.language

theorem build_eq (d : Draft) :
    d.build = ⟨d.values, (d.slots.filterMap id).flatMap slotLines, d.language⟩ := rfl

theorem get_copyValue (a : Address) (values : SingleValues) (field f : Field)
    (hf : f.isSingle = true) : (copyValue a values field).get f =
      if f = field then (a.value f).or (values.get f) else values.get f := by
  by_cases hfield : f = field
  · subst hfield
    rw [if_pos rfl, copyValue, if_pos hf]
    cases a.value f with
    | none => rfl
    | some value => exact values.get_set_self f (some value) hf
  · rw [if_neg hfield, copyValue]
    split
    · cases a.value field with
      | none => rfl
      | some value => exact values.get_set_of_ne field f (some value) (Ne.symm hfield)
    · rfl

theorem get_foldl_copyValue (a : Address) (fields : List Field) (values : SingleValues)
    (f : Field) (hf : f.isSingle = true) : (fields.foldl (copyValue a) values).get f =
      if f ∈ fields then (a.value f).or (values.get f) else values.get f := by
  induction fields generalizing values with
  | nil => rfl
  | cons field fields ih =>
    rw [List.foldl_cons, ih, get_copyValue a values field f hf]
    by_cases hfield : f = field <;> by_cases hmem : f ∈ fields <;>
      cases a.value f <;> simp [hfield, hmem]

@[simp] theorem values_copyOf (a : Address) : (copyOf a).values = a.values := by
  refine SingleValues.ext_get _ _ fun f => ?_
  cases hf : f.isSingle with
  | false => rw [SingleValues.get_of_not_single _ f hf, SingleValues.get_of_not_single _ f hf]
  | true =>
    rw [copyOf, get_foldl_copyValue a Field.all {} f hf, if_pos (Field.mem_all f),
      a.value_of_single f hf, SingleValues.get_empty, Option.or_none]

theorem copyOf_eq (a : Address) : copyOf a = ⟨a.values, a.lines.map some, a.language⟩ := by
  rw [← values_copyOf]
  rfl

inductive Edit where
  | single (field : Field) (value : Text)
  | set (field : Field) (value : Option Text)
  | language (tag : Text)
  | clearLanguage
  | lines (lines : List Text)
  | addLine (line : Text)
  | street (value : Text)
  | line1 (value : Option Text)
  | line2 (value : Option Text)
  | copy (a : Address)
  | rebuild
  deriving DecidableEq, Repr

def apply (d : Draft) : Edit → Draft
  | .single field value => d.setNamed field value
  | .set field value => d.set field value
  | .language tag => d.setLanguage tag
  | .clearLanguage => d.clearLanguage
  | .lines lines => d.setLines lines
  | .addLine line => d.addLine line
  | .street value => d.setStreet value
  | .line1 value => d.setSlot 0 value
  | .line2 value => d.setSlot 1 value
  | .copy a => copyOf a
  | .rebuild => copyOf d.build

@[simp] theorem apply_single (d : Draft) (f : Field) (value : Text) :
    d.apply (.single f value) = d.setSingle f (some value) := d.setNamed_eq f value

def run (edits : List Edit) (d : Draft) : Draft := edits.foldl apply d

@[simp] theorem run_append (edits more : List Edit) (d : Draft) :
    run (edits ++ more) d = run more (run edits d) := by
  simp [run]

def states (d : Draft) : List Edit → List Draft
  | [] => []
  | edit :: edits => d.apply edit :: states (d.apply edit) edits

end Draft
end Postal
