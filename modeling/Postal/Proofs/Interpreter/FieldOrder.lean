import Postal.Interpreter
import Postal.Proofs.FormOptions.Orders
import Postal.Proofs.Template.Tokens

/-!
# Resolved field orders

Every template that can be read has a field order under every interpreter,
whatever orders its options hold. The order names a field twice exactly if the
template refers to the street address and to one of the line fields beside it.
-/

set_option autoImplicit false

namespace Postal

/-- The template refers to the street address and to a line field beside it. -/
def Template.NamesLinesTwice (template : Template) : Prop :=
  .field Field.streetAddress.code ∈ template ∧
    (.field Field.addressLine1.code ∈ template ∨ .field Field.addressLine2.code ∈ template)

namespace Interpreter

theorem parseFor_eq_ok (region s : Text) (template : Template) :
    parseFor region s = .ok template ↔ Template.parseStrict s = .ok template :=
  mapError_eq_ok _ _ _

theorem parseFor_error (region s : Text) (cause : TemplateError)
    (h : Template.parseStrict s = .error cause) :
    parseFor region s = .error (.invalidTemplate region cause) := by
  rw [parseFor, h]
  rfl

theorem ofTemplate_known (template : Template) (h : template.Known) :
    ∃ order, FieldOrder.ofTemplate template = .ok order ∧ order.Nodup ∧
      ∀ f : Field, f ∈ order ↔ .field f.code ∈ template := by
  obtain ⟨fs, hfs, hmem⟩ := template.fields_of_known h
  refine ⟨FieldOrder.firstSeen fs, ?_, FieldOrder.firstSeen_nodup fs, ?_⟩
  · rw [FieldOrder.ofTemplate, hfs]
    rfl
  · intro f
    rw [FieldOrder.mem_firstSeen, hmem]

theorem fieldOrderOf_perm (i : Interpreter) (ho : i.options.Distinct) (s region : Text)
    (template : Template) (h : Template.parseStrict s = .ok template) :
    ∃ fields order, FieldOrder.ofTemplate template = .ok fields ∧ order.Perm fields ∧
      i.fieldOrderOf s region = .ok (FieldOrder.expandStreet order) := by
  have hk := ((Template.parseStrict_eq_ok s template).mp h).2
  obtain ⟨fields, hf, hn, -⟩ := ofTemplate_known template hk
  have hp : parseFor region s = .ok template := (parseFor_eq_ok region s template).mpr h
  have hl : (FieldOrder.ofTemplate template).mapError FormatError.field = .ok fields :=
    (mapError_eq_ok _ _ _).mpr hf
  have hc := i.options.order_nodup region ho
  cases hcustom : i.options.order region with
  | nil =>
    refine ⟨fields, fields, hf, List.Perm.refl _, ?_⟩
    refine (bind_eq_ok _ _ _).mpr ⟨template, hp, (bind_eq_ok _ _ _).mpr ⟨fields, hl, ?_⟩⟩
    rw [hcustom]
    rfl
  | cons first rest =>
    rw [hcustom] at hc
    obtain ⟨order, ha, hperm⟩ := FieldOrder.applyCustom_perm region fields (first :: rest) hn hc
    refine ⟨fields, order, hf, hperm, ?_⟩
    refine (bind_eq_ok _ _ _).mpr ⟨template, hp, (bind_eq_ok _ _ _).mpr ⟨fields, hl, ?_⟩⟩
    rw [hcustom]
    exact (bind_eq_ok _ _ _).mpr ⟨order, (mapError_eq_ok _ _ _).mpr ha, rfl⟩

theorem fieldOrderOf_nodup (i : Interpreter) (ho : i.options.Distinct) (s region : Text)
    (template : Template) (h : Template.parseStrict s = .ok template) :
    ∃ order, i.fieldOrderOf s region = .ok order ∧
      (order.Nodup ↔ ¬template.NamesLinesTwice) := by
  have hk := ((Template.parseStrict_eq_ok s template).mp h).2
  obtain ⟨fields, order, hf, hperm, hi⟩ := fieldOrderOf_perm i ho s region template h
  obtain ⟨known, hf', hn, hmem⟩ := ofTemplate_known template hk
  rw [hf] at hf'
  cases hf'
  refine ⟨_, hi, ?_⟩
  rw [FieldOrder.expandStreet_nodup order (hperm.nodup_iff.mpr hn), Template.NamesLinesTwice]
  simp only [hperm.mem_iff, hmem]

theorem format_isOk (i : Interpreter)
    (h : (i.table.get? RegionTable.defaultRegion .fmt).isSome = true) (script : Script)
    (region : Text) : ∃ s, i.format script region = .ok s := by
  obtain ⟨d, hd⟩ := Option.isSome_iff_exists.mp h
  unfold format
  cases hl : i.latinFormat? script region with
  | some s => exact ⟨s, rfl⟩
  | none =>
    cases hr : i.table.get? region .fmt with
    | some s => exact ⟨s, rfl⟩
    | none => exact ⟨d, by simp [hd]⟩

theorem format_native (i : Interpreter) (region default : Text)
    (hd : i.table.get? RegionTable.defaultRegion .fmt = some default) :
    i.format .native region = .ok ((i.table.get? region .fmt).getD default) := by
  rw [format, latinFormat?, hd]
  cases i.table.get? region .fmt <;> rfl

/-- Over every table and under all options that can be put together, a template that can be read
has an order, and a region's order is that of its format. The fields are distinct exactly if the
template does not name the lines twice. -/
theorem fieldOrder_nodup_iff (table : RegionTable) (edits : List FormOptions.Edit)
    (i : Interpreter) (h : build table (FormOptions.run edits {}) = .ok i) :
    (∀ s region template, Template.parseStrict s = .ok template →
      ∃ order, i.fieldOrderOf s region = .ok order ∧
        (order.Nodup ↔ ¬template.NamesLinesTwice)) ∧
    ∀ script region, ∃ s, i.format script region = .ok s ∧
      ((∃ template order, Template.parseStrict s = .ok template ∧
          i.fieldOrder script region = .ok order ∧
          (order.Nodup ↔ ¬template.NamesLinesTwice)) ∨
        ∃ cause, Template.parseStrict s = .error cause ∧
          i.fieldOrder script region = .error (.invalidTemplate region cause)) := by
  obtain ⟨hi, hd⟩ := build_eq_ok table _ i h
  have ho : i.options.Distinct := by
    rw [hi]
    exact FormOptions.distinct_run edits {} fun entry hm => absurd hm List.not_mem_nil
  have ht : i.table = table := by rw [hi]
  constructor
  · intro s region template hp
    exact i.fieldOrderOf_nodup ho s region template hp
  · intro script region
    obtain ⟨s, hs⟩ := i.format_isOk (by rw [ht]; exact hd) script region
    have hf : i.fieldOrder script region = i.fieldOrderOf s region := by
      rw [fieldOrder, hs]
      rfl
    refine ⟨s, hs, ?_⟩
    rw [hf]
    cases hp : Template.parseStrict s with
    | ok template =>
      left
      obtain ⟨order, horder, hiff⟩ := i.fieldOrderOf_nodup ho s region template hp
      exact ⟨template, order, rfl, horder, hiff⟩
    | error cause =>
      right
      use cause, rfl
      rw [fieldOrderOf, parseFor_error region s cause hp]
      rfl

def onlyFormat (format : Text) : RegionTable :=
  RegionTable.ofRecords [(RegionTable.defaultRegion, [(RegionKey.fmt.name, .string format)])]

theorem fieldOrder_nodup_iff_swapped :
    ∃ i order, build (onlyFormat "%A%n%C %Z".toList)
        (FormOptions.run [.order "US".toList [.postalCode, .locality]] {}) = .ok i ∧
      Template.parseStrict "%A%n%C %Z".toList =
        .ok [.field 'A', .newline, .field 'C', .literal [' '], .field 'Z'] ∧
      i.fieldOrderOf "%A%n%C %Z".toList "US".toList = .ok order ∧
      (order.Nodup ↔ ¬Template.NamesLinesTwice
        [.field 'A', .newline, .field 'C', .literal [' '], .field 'Z']) ∧
      order = [.addressLine1, .addressLine2, .postalCode, .locality] := by
  obtain ⟨order, ho, hn⟩ := (fieldOrder_nodup_iff (onlyFormat "%A%n%C %Z".toList)
    [.order "US".toList [.postalCode, .locality]] _ rfl).1 "%A%n%C %Z".toList "US".toList _ rfl
  refine ⟨_, order, rfl, rfl, ho, hn, ?_⟩
  injection ho with ho
  exact ho.symm

/-- A format that names the first line beside the street address shows that line twice. -/
theorem exists_fieldOrder_repeats :
    ∃ i, build (onlyFormat "%A%1".toList) (FormOptions.run [] {}) = .ok i ∧
      i.fieldOrderOf "%A%1".toList "US".toList =
        .ok [.addressLine1, .addressLine2, .addressLine1] ∧
      i.fieldOrder .native "US".toList = .ok [.addressLine1, .addressLine2, .addressLine1] ∧
      ¬[Field.addressLine1, .addressLine2, .addressLine1].Nodup :=
  ⟨_, rfl, rfl, rfl, by decide⟩

end Interpreter
end Postal
