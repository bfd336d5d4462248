import Postal.Proofs.Interpreter.CustomOrder
import Postal.Proofs.Interpreter.Faults
import Postal.Proofs.RegionTable.Records
import Postal.RegionTable.Bundled

/-!
# Forms that can be completed

A form asks for the required fields, so each of them has to be shown. The fields shown come from
the layout of a region and the required ones from its requirement, and either may be that of the
default region. Where every layout names the codes of the requirement that goes with it, all
requests succeed: an order only permutes what the layout names, and the street address comes
back as the two line fields. The bundled records are checked one by one for the layouts that
they give or leave to the default.
-/

set_option autoImplicit false

namespace Postal

open RegionTable (defaultRegion)

/-- The field stands in the order, the street address by its line fields. -/
def FieldOrder.Shows (order : List Field) (f : Field) : Prop :=
  f ∈ order ∨ f = .streetAddress ∧ .addressLine1 ∈ order ∧ .addressLine2 ∈ order

theorem FieldOrder.shows_expandStreet (order : List Field) (f : Field) (h : f ∈ order) :
    Shows (expandStreet order) f := by
  by_cases hs : .streetAddress ∈ order
  · obtain ⟨before, after, ho, he⟩ := expandStreet_split order hs
    rw [ho, List.mem_append, List.mem_cons] at h
    rw [he]
    rcases h with h | rfl | h
    · exact .inl (List.mem_append_left _ h)
    · exact .inr ⟨rfl, by simp, by simp⟩
    · exact .inl (by simp [h])
  · rw [expandStreet_of_notMem order hs]
    exact .inl h

instance (template : Template) : Decidable template.NamesLinesTwice :=
  inferInstanceAs (Decidable (_ ∧ (_ ∨ _)))

/-- The layout can be read, shows no line twice and names every code that is required. -/
def Completable (require layout : Text) : Prop :=
  ∃ template, Template.parseStrict layout = .ok template ∧ ¬template.NamesLinesTwice ∧
    ∀ c ∈ require, .field c ∈ template

theorem completable_iff (require layout : Text) (template : Template)
    (h : Template.parseStrict layout = .ok template) : Completable require layout ↔
      ¬template.NamesLinesTwice ∧ ∀ c ∈ require, .field c ∈ template := by
  constructor
  · rintro ⟨found, hf, hc⟩
    cases h.symm.trans hf
    exact hc
  · exact fun hc => ⟨template, h, hc⟩

/-- Only the codes of the requirement are looked at, not every character there is. -/
instance (require : Text) (template : Template) :
    Decidable (∀ c ∈ require, Token.field c ∈ template) :=
  List.decidableBAll _ require

instance (require layout : Text) : Decidable (Completable require layout) :=
  match h : Template.parseStrict layout with
  | .ok template => decidable_of_iff' _ (completable_iff require layout template h)
  | .error _ => isFalse fun ⟨_, ht, _⟩ => nomatch h.symm.trans ht

theorem decodeFields_known (codes : Text) (h : ∀ c ∈ codes, ∃ f, Field.ofCode c = .ok f) :
    ∃ fields, decodeFields codes = .ok fields ∧ ∀ f ∈ fields, f.code ∈ codes := by
  induction codes with
  | nil => exact ⟨[], rfl, fun f hf => absurd hf List.not_mem_nil⟩
  | cons c rest ih =>
    obtain ⟨f, hf⟩ := h c List.mem_cons_self
    obtain ⟨fields, hfields, hm⟩ := ih fun d hd => h d (List.mem_cons_of_mem c hd)
    refine ⟨f :: fields, by rw [decodeFields, hf, hfields]; rfl, fun g hg => ?_⟩
    rcases List.mem_cons.mp hg with rfl | hg
    · rw [Field.code_of_ofCode c g hf]
      exact List.mem_cons_self
    · exact List.mem_cons_of_mem c (hm g hg)

theorem requiredFields_known (require : Text)
    (h : ∀ c ∈ require, ∃ f, Field.ofCode c = .ok f) :
    ∃ fields, requiredFields require = .ok fields ∧
      ∀ f ∈ fields, f ≠ .country → f.code ∈ require := by
  obtain ⟨fields, hfields, hm⟩ := decodeFields_known require h
  refine ⟨_, by rw [requiredFields, hfields]; rfl, fun f hf hne => ?_⟩
  rw [Field.mem_inOrder, List.mem_cons] at hf
  exact hm f (hf.resolve_left hne)

namespace Interpreter

def requirement (i : Interpreter) (region : Text) : Text :=
  (i.table.get? region .require <|> i.table.get? defaultRegion .require).getD []

/-- No request fails, and a form shows every field that it requires. -/
structure Serves (i : Interpreter) : Prop where
  envelope : ∀ a, ∃ lines, i.envelope a = .ok lines
  form : ∀ script region, ∃ order required, i.fieldOrder script region = .ok order ∧
    order.Nodup ∧ i.required region = .ok required ∧
    ∀ f ∈ required, f ≠ .country → FieldOrder.Shows order f

theorem envelope_of_completable (i : Interpreter) (a : Address) (require s : Text)
    (hs : i.format (Script.ofLanguage a.language) (regionOf a) = .ok s)
    (hc : Completable require s) : ∃ lines, i.envelope a = .ok lines := by
  obtain ⟨template, ht, -⟩ := hc
  have h := i.envelope_failsAs a s hs
  rw [ht] at h
  exact h

theorem form_of_completable (i : Interpreter) (ho : i.options.Distinct) (script : Script)
    (region s : Text) (hs : i.format script region = .ok s)
    (hc : Completable (i.requirement region) s) :
    ∃ order required, i.fieldOrder script region = .ok order ∧ order.Nodup ∧
      i.required region = .ok required ∧
      ∀ f ∈ required, f ≠ .country → FieldOrder.Shows order f := by
  obtain ⟨template, ht, hlines, hcodes⟩ := hc
  have hk := ((Template.parseStrict_eq_ok s template).mp ht).2
  obtain ⟨fields, placed, hf, hperm, horder⟩ := i.fieldOrderOf_perm ho s region template ht
  obtain ⟨named, hnamed, hn, hmem⟩ := ofTemplate_known template hk
  cases hf.symm.trans hnamed
  obtain ⟨required, hrequired, hr⟩ :=
    requiredFields_known (i.requirement region) fun c hm => hk c (hcodes c hm)
  refine ⟨_, required, (i.fieldOrder_eq_ok script region _).mpr ⟨s, hs, horder⟩, ?_, ?_, ?_⟩
  · rw [FieldOrder.expandStreet_nodup placed (hperm.nodup_iff.mpr hn)]
    simp only [hperm.mem_iff, hmem]
    exact hlines
  · exact (mapError_eq_ok _ _ _).mpr hrequired
  · intro f hm hne
    apply FieldOrder.shows_expandStreet
    rw [hperm.mem_iff, hmem]
    exact hcodes _ (hr f hm hne)

theorem serves_of_completable (i : Interpreter) (ho : i.options.Distinct)
    (h : ∀ script region, ∃ s, i.format script region = .ok s ∧
      Completable (i.requirement region) s) : i.Serves where
  envelope a := by
    obtain ⟨s, hs, hc⟩ := h (Script.ofLanguage a.language) (regionOf a)
    exact i.envelope_of_completable a _ s hs hc
  form script region := by
    obtain ⟨s, hs, hc⟩ := h script region
    exact i.form_of_completable ho script region s hs hc

end Interpreter

/-! ## The bundled records -/

def RegionRecord.layouts (record : RegionRecord) (default : Text) : List Text :=
  (record.text? .fmt).getD default :: (record.text? .lfmt).toList

def RegionRecord.requirement (record : RegionRecord) (default : Text) : Text :=
  (record.text? .require).getD default

namespace Bundled

def defaultLayout : Text := "%N%n%O%n%A%n%C".toList

def defaultRequirement : Text := "AC".toList

theorem get?_defaultRegion : RegionTable.bundled.get? defaultRegion .fmt = some defaultLayout ∧
    RegionTable.bundled.get? defaultRegion .require = some defaultRequirement := by
  simp only [RegionTable.bundled, RegionTable.get?, RegionTable.record?_ofRecords]
  decide +kernel

theorem get?_unitedStates :
    RegionTable.bundled.get? "US".toList .fmt = some "%N%n%O%n%A%n%C, %S %Z".toList ∧
      RegionTable.bundled.get? "US".toList .require = some "ACSZ".toList := by
  simp only [RegionTable.bundled, RegionTable.get?, RegionTable.record?_ofRecords]
  decide +kernel

theorem completable_of_mem : ∀ entry ∈ records, ∀ s ∈ entry.2.layouts defaultLayout,
    Completable (entry.2.requirement defaultRequirement) s := by
  decide +kernel

theorem completable_of_record (record : RegionRecord)
    (h : record = [] ∨ ∃ code, (code, record) ∈ records) (s : Text)
    (hs : s ∈ record.layouts defaultLayout) :
    Completable (record.requirement defaultRequirement) s := by
  rcases h with rfl | ⟨code, hm⟩
  · obtain rfl := List.mem_singleton.mp hs
    change Completable defaultRequirement defaultLayout
    decide +kernel
  · exact completable_of_mem (code, record) hm s hs

end Bundled

namespace Interpreter

theorem format_mem_layouts (i : Interpreter) (script : Script) (region default : Text)
    (record : RegionRecord) (h : ∀ k, i.table.get? region k = record.text? k)
    (hd : i.table.get? defaultRegion .fmt = some default) :
    ∃ s ∈ record.layouts default, i.format script region = .ok s := by
  have hnative : (i.table.get? region .fmt <|> i.table.get? defaultRegion .fmt) =
      some ((record.text? .fmt).getD default) := by
    rw [h, hd]
    cases record.text? .fmt <;> rfl
  have hlatin : i.latinFormat? script region = none ∨
      i.latinFormat? script region = record.text? .lfmt := by
    cases script with
    | latin => exact .inr (h .lfmt)
    | native => exact .inl rfl
  rw [format, hnative]
  cases hl : i.latinFormat? script region with
  | none => exact ⟨_, List.mem_cons_self, rfl⟩
  | some s =>
    rw [hl] at hlatin
    refine ⟨s, List.mem_cons_of_mem _ ?_, rfl⟩
    rw [← hlatin.resolve_left (by simp)]
    exact List.mem_singleton_self s

theorem format_unitedStates (options : FormOptions) :
    format ⟨.bundled, options⟩ .native "US".toList = .ok "%N%n%O%n%A%n%C, %S %Z".toList := by
  rw [format_native ⟨.bundled, options⟩ _ _ Bundled.get?_defaultRegion.1,
    Bundled.get?_unitedStates.1, Option.getD_some]

theorem requirement_eq (i : Interpreter) (region default : Text) (record : RegionRecord)
    (h : ∀ k, i.table.get? region k = record.text? k)
    (hd : i.table.get? defaultRegion .require = some default) :
    i.requirement region = record.requirement default := by
  rw [requirement, RegionRecord.requirement, h, hd]
  cases record.text? .require <;> rfl

theorem completable_of_bundled (i : Interpreter) (ht : i.table = .bundled) (script : Script)
    (region : Text) :
    ∃ s, i.format script region = .ok s ∧ Completable (i.requirement region) s := by
  obtain ⟨hfmt, hrequire⟩ := Bundled.get?_defaultRegion
  obtain ⟨record, hrecord, hget⟩ := RegionTable.get?_ofRecords Bundled.records region
  change ∀ k, RegionTable.bundled.get? region k = record.text? k at hget
  rw [← ht] at hfmt hrequire hget
  obtain ⟨s, hm, hs⟩ := i.format_mem_layouts script region _ record hget hfmt
  refine ⟨s, hs, ?_⟩
  rw [i.requirement_eq region _ record hget hrequire]
  exact Bundled.completable_of_record record hrecord s hm

/-- Over the bundled table and under all options that can be put together, no request fails, and
each form shows what it requires. -/
theorem bundled_serves (edits : List FormOptions.Edit) :
    ∃ i, build .bundled (FormOptions.run edits {}) = .ok i ∧ i.Serves := by
  refine ⟨⟨.bundled, FormOptions.run edits {}⟩, ?_, ?_⟩
  · rw [build, Bundled.get?_defaultRegion.1]
  · apply serves_of_completable
    · exact FormOptions.distinct_run edits {} fun entry hm => absurd hm List.not_mem_nil
    · exact completable_of_bundled _ rfl

end Interpreter
end Postal
