import Postal.Proofs.Interpreter.FieldOrder
import Postal.Proofs.RegionTable.Records
import Postal.Proofs.Text.Splitting

/-!
# Regions without a record

A region that the table does not know is laid out in the default format and has
the default requirements. Its other lookups give nothing, and in Latin script
too it takes the native default format. So it answers as the default region
does unless the default record declares more than a format and requirements.
-/

set_option autoImplicit false

namespace Postal

open RegionTable (defaultRegion)

def FormatError.inRegion (region : Text) : FormatError → FormatError
  | .invalidTemplate _ cause => .invalidTemplate region cause
  | .invalidRequired _ cause => .invalidRequired region cause
  | e => e

/-- The default record declares no Latin format but its format, no width of any field
and no language. -/
structure RegionTable.PlainDefault (table : RegionTable) : Prop where
  latin : ∀ s, table.get? defaultRegion .lfmt = some s → table.get? defaultRegion .fmt = some s
  widths : ∀ s overrides, table.get? defaultRegion .widthOverrides = some s →
    widthOverrides? s = some overrides → ∀ f : Field, overrides.lookup f.code = none
  languages : ∀ s, table.get? defaultRegion .languages = some s → ∀ c ∈ s, c = '~'
  language : table.get? defaultRegion .lang = none

namespace Interpreter

/-- All lookups answer alike, the region that a fault names apart. -/
structure AnswersAs (i : Interpreter) (region other : Text) : Prop where
  format : ∀ script, i.format script region = i.format script other
  fieldOrder : ∀ script,
    i.fieldOrder script region = (i.fieldOrder script other).mapError (.inRegion region)
  required : i.required region = (i.required other).mapError (.inRegion region)
  widthOverride : ∀ f, i.widthOverride? f region = i.widthOverride? f other
  width : ∀ f, i.width f region = i.width f other
  languages : i.languages region = i.languages other
  defaultLanguage : i.defaultLanguage? region = i.defaultLanguage? other

structure AnswersPlainly (i : Interpreter) (region : Text) : Prop where
  format : ∀ script, i.format script region = i.format .native defaultRegion
  fieldOrder : ∀ script, i.fieldOrder script region =
    (i.fieldOrder .native defaultRegion).mapError (.inRegion region)
  required : i.required region = (i.required defaultRegion).mapError (.inRegion region)
  widthOverride : ∀ f, i.widthOverride? f region = none
  width : ∀ f, i.width f region = f.defaultWidth
  languages : i.languages region = []
  defaultLanguage : i.defaultLanguage? region = none

variable (i : Interpreter) (region : Text)

theorem fieldOrderOf_inRegion (s other : Text) (h : i.options.order region = [])
    (ho : i.options.order other = []) :
    i.fieldOrderOf s region = (i.fieldOrderOf s other).mapError (.inRegion region) := by
  rw [fieldOrderOf, fieldOrderOf, h, ho, parseFor, parseFor]
  cases Template.parseStrict s with
  | error cause => rfl
  | ok template =>
    cases ht : FieldOrder.ofTemplate template with
    | error cause => simp only [Except.mapError, ok_bind, error_bind, ht]; rfl
    | ok order => simp only [Except.mapError, ok_bind, ht]; rfl

theorem format_of_unknown (h : ∀ k, i.table.get? region k = none) (script : Script) :
    i.format script region = i.format .native defaultRegion := by
  have hlatin : i.latinFormat? script region = none := by
    cases script <;> first | rfl | exact h .lfmt
  rw [format, format, hlatin, h .fmt, latinFormat?]
  cases i.table.get? defaultRegion .fmt <;> rfl

theorem required_inRegion_of_unknown (h : ∀ k, i.table.get? region k = none) :
    i.required region = (i.required defaultRegion).mapError (.inRegion region) := by
  rw [required, required, h .require, mapError_mapError]
  cases i.table.get? defaultRegion .require <;> rfl

theorem answersPlainly_of_unknown (hf : (i.table.get? defaultRegion .fmt).isSome = true)
    (hr : i.table.record? region = none) (ho : i.options.order region = [])
    (hd : i.options.order defaultRegion = []) : i.AnswersPlainly region := by
  have h := i.table.get?_of_record?_eq_none region hr
  have hwidth : ∀ f, i.widthOverride? f region = none := fun f => by
    rw [widthOverride?, h .widthOverrides]
    rfl
  refine ⟨i.format_of_unknown region h, fun script => ?_, i.required_inRegion_of_unknown region h,
    hwidth, fun f => ?_, ?_, h .lang⟩
  · rw [fieldOrder, i.format_of_unknown region h script, fieldOrder]
    obtain ⟨s, hs⟩ := i.format_isOk hf .native defaultRegion
    rw [hs]
    exact i.fieldOrderOf_inRegion region s defaultRegion ho hd
  · rw [width, hwidth f]
    rfl
  · rw [languages, h .languages]

theorem format_latin_eq_native_iff (hf : (i.table.get? region .fmt).isSome = true) :
    i.format .latin region = i.format .native region ↔
      ∀ s, i.table.get? region .lfmt = some s → i.table.get? region .fmt = some s := by
  obtain ⟨native, hn⟩ := Option.isSome_iff_exists.mp hf
  rw [format, format, latinFormat?, latinFormat?, hn]
  cases i.table.get? region .lfmt with
  | none => simp
  | some latin =>
    constructor
    · intro h s hs
      obtain rfl : latin = native := Except.ok.inj h
      exact hs
    · intro h
      obtain rfl : native = latin := Option.some.inj (h latin rfl)
      rfl

theorem widthOverride?_eq_none_iff (f : Field) : i.widthOverride? f region = none ↔
    ∀ s overrides, i.table.get? region .widthOverrides = some s →
      widthOverrides? s = some overrides → overrides.lookup f.code = none := by
  rw [widthOverride?]
  cases i.table.get? region .widthOverrides with
  | none => simp
  | some s =>
    constructor
    · rintro h s overrides ⟨⟩ hw
      have hlookup : (widthOverrides? s >>= fun found => found.lookup f.code) = none := h
      rwa [hw] at hlookup
    · intro h
      change (widthOverrides? s >>= fun found => found.lookup f.code) = none
      cases hw : widthOverrides? s with
      | none => rfl
      | some overrides => exact h s overrides rfl hw

theorem languages_eq_nil_iff : i.languages region = [] ↔
    ∀ s, i.table.get? region .languages = some s → ∀ c ∈ s, c = '~' := by
  rw [languages]
  cases i.table.get? region .languages with
  | none => simp
  | some s => simp [← Text.filter_splitOn_eq_nil]

theorem answersAs_iff_of_answersPlainly (hf : (i.table.get? defaultRegion .fmt).isSome = true)
    (h : i.AnswersPlainly region) : i.AnswersAs region defaultRegion ↔ i.table.PlainDefault := by
  have hlatin := i.format_latin_eq_native_iff defaultRegion hf
  have hlanguages := i.languages_eq_nil_iff defaultRegion
  constructor
  · intro ha
    constructor
    · exact hlatin.mp ((ha.format .latin).symm.trans (h.format .latin))
    · intro s overrides hs hw f
      have hnone := (ha.widthOverride f).symm.trans (h.widthOverride f)
      exact (i.widthOverride?_eq_none_iff defaultRegion f).mp hnone s overrides hs hw
    · exact hlanguages.mp (ha.languages.symm.trans h.languages)
    · exact ha.defaultLanguage.symm.trans h.defaultLanguage
  · intro hp
    have hformat : ∀ script, i.format script defaultRegion = i.format .native defaultRegion := by
      intro script
      cases script with
      | latin => exact hlatin.mpr hp.latin
      | native => rfl
    have hwidth : ∀ f, i.widthOverride? f defaultRegion = none := fun f =>
      (i.widthOverride?_eq_none_iff defaultRegion f).mpr fun s overrides hs hw =>
        hp.widths s overrides hs hw f
    constructor
    · exact fun script => (h.format script).trans (hformat script).symm
    · intro script
      rw [h.fieldOrder script, fieldOrder, fieldOrder, hformat script]
    · exact h.required
    · exact fun f => (h.widthOverride f).trans (hwidth f).symm
    · intro f
      rw [h.width f, width, hwidth f]
      rfl
    · exact h.languages.trans (hlanguages.mpr hp.languages).symm
    · exact h.defaultLanguage.trans hp.language.symm

/-- Under options without custom orders for either, a region without a record is laid out in the
native default format, has the default requirements, and is given nothing else. It answers as the
default region in every lookup exactly if the default record is plain. -/
theorem unknown_answersAs_default_iff (table : RegionTable) (options : FormOptions)
    (i : Interpreter) (h : build table options = .ok i) (region : Text)
    (hr : table.record? region = none) (ho : options.order region = [])
    (hd : options.order defaultRegion = []) :
    i.AnswersPlainly region ∧ (i.AnswersAs region defaultRegion ↔ table.PlainDefault) := by
  obtain ⟨rfl, hf⟩ := build_eq_ok table options i h
  have hp := answersPlainly_of_unknown ⟨table, options⟩ region hf hr ho hd
  exact ⟨hp, answersAs_iff_of_answersPlainly ⟨table, options⟩ region hf hp⟩

def onlyDefault (texts : List (RegionKey × Text)) : RegionTable :=
  RegionTable.ofRecords [(defaultRegion, texts.map fun text => (text.1.name, .string text.2))]

/-- A Latin format that is the format, a width of no field, no language between separators, and
requirements that cannot be read: the fault names the region asked for. -/
theorem unknown_answersAs_default :
    ∃ i, build (onlyDefault [(.fmt, "%A%n%C".toList), (.lfmt, "%A%n%C".toList),
        (.widthOverrides, "%q:S".toList), (.languages, "~".toList), (.require, "A?".toList)])
        {} = .ok i ∧
      i.AnswersAs "XX".toList defaultRegion ∧
      i.required "XX".toList = .error (.invalidRequired "XX".toList (.unknownCode '?')) ∧
      i.required defaultRegion =
        .error (.invalidRequired defaultRegion (.unknownCode '?')) := by
  obtain ⟨-, h⟩ := unknown_answersAs_default_iff (onlyDefault [(.fmt, "%A%n%C".toList),
    (.lfmt, "%A%n%C".toList), (.widthOverrides, "%q:S".toList), (.languages, "~".toList),
    (.require, "A?".toList)]) {} _ rfl "XX".toList rfl rfl rfl
  refine ⟨_, rfl, h.mpr ⟨?_, ?_, ?_, rfl⟩, rfl, rfl⟩
  · intro s hs
    obtain rfl : "%A%n%C".toList = s := Option.some.inj hs
    rfl
  · intro s overrides hs hw f
    obtain rfl : "%q:S".toList = s := Option.some.inj hs
    obtain rfl : [('q', Width.short)] = overrides := Option.some.inj hw
    cases f <;> rfl
  · intro s hs c hc
    obtain rfl : "~".toList = s := Option.some.inj hs
    exact List.mem_singleton.mp hc

/-- A default record that declares more shares none of it with a region without a record. -/
theorem exists_unknown_not_answersAs_default :
    ∃ i, build (onlyDefault [(.fmt, "%N%n%A".toList), (.lfmt, "%A%n%C".toList),
        (.widthOverrides, "%C:S".toList), (.languages, "en~fr".toList), (.lang, "en".toList)])
        {} = .ok i ∧
      i.table.record? "XX".toList = none ∧
      (i.format .latin "XX".toList = .ok "%N%n%A".toList ∧
        i.format .latin defaultRegion = .ok "%A%n%C".toList) ∧
      (i.fieldOrder .latin "XX".toList = .ok [.recipient, .addressLine1, .addressLine2] ∧
        i.fieldOrder .latin defaultRegion = .ok [.addressLine1, .addressLine2, .locality]) ∧
      (i.widthOverride? .locality "XX".toList = none ∧
        i.widthOverride? .locality defaultRegion = some .short) ∧
      (i.width .locality "XX".toList = .long ∧ i.width .locality defaultRegion = .short) ∧
      (i.languages "XX".toList = [] ∧
        i.languages defaultRegion = ["en".toList, "fr".toList]) ∧
      i.defaultLanguage? "XX".toList = none ∧
      i.defaultLanguage? defaultRegion = some "en".toList ∧
      ¬i.AnswersAs "XX".toList defaultRegion := by
  refine ⟨_, rfl, rfl, ⟨rfl, rfl⟩, ⟨rfl, rfl⟩, ⟨rfl, rfl⟩, ⟨rfl, rfl⟩, ⟨rfl, rfl⟩, rfl, rfl, ?_⟩
  intro h
  cases h.defaultLanguage

end Interpreter
end Postal
