import Postal.Proofs.Address.LastWrites
import Postal.Proofs.CommandLine.HiddenFields
import Postal.Proofs.Interpreter.CustomOrder
import Postal.Proofs.RegionTable.Bundled

/-!
# Templates of the commands

An address is laid out with the template of the region that its draft keeps, which is the text of
the option in the spelling given. A form has the template of the upper-cased text. A table whose
codes are in upper case has no record for another spelling, so the address falls back to the
default format where the form does not.
-/

set_option autoImplicit false

namespace Postal

namespace Text

/-- Neither end is blank, if there is one. -/
def Unpadded (t : Text) : Prop := t.head?.all (!isBlank ·) ∧ t.getLast?.all (!isBlank ·)

instance (t : Text) : Decidable (Unpadded t) := inferInstanceAs (Decidable (_ ∧ _))

theorem Unpadded.tidy {t : Text} (h : t.Unpadded) (hne : t ≠ []) : Tidy t := by
  rw [Unpadded, List.head?_eq_some_head hne, List.getLast?_eq_some_getLast hne] at h
  rw [Tidy, List.head?_eq_some_head hne, List.getLast?_eq_some_getLast hne]
  exact h

end Text

namespace RegionTable

def UpperCased (table : RegionTable) : Prop := ∀ code ∈ table.codes, code.upperCase = code

theorem mem_codes_of_get? (table : RegionTable) (region : Text) (record : RegionRecord)
    (h : table.records.get? region = some record) : region ∈ table.codes := by
  obtain ⟨before, after, he, -⟩ := List.lookup_eq_some_iff.mp h
  rw [codes, TextMap.keys, he]
  simp

theorem UpperCased.upperCase_of_record? {table : RegionTable} (h : table.UpperCased)
    (region : Text) (record : RegionRecord) (hr : table.record? region = some record) :
    region.upperCase = region := by
  rw [record?, Option.orElse_eq_some] at hr
  rcases hr with hown | ⟨-, halias⟩
  · exact h region (table.mem_codes_of_get? region record hown)
  · obtain ⟨code, hc, -⟩ := Option.bind_eq_some_iff.mp halias
    rw [((lookup_aliases region code).mp hc).1]
    decide

theorem UpperCased.get?_eq_none {table : RegionTable} (h : table.UpperCased) (region : Text)
    (hne : region.upperCase ≠ region) (k : RegionKey) : table.get? region k = none := by
  refine table.get?_of_record?_eq_none region ?_ k
  rw [Option.eq_none_iff_forall_ne_some]
  exact fun record hr => hne (h.upperCase_of_record? region record hr)

theorem upperCased_bundled : bundled.UpperCased := by
  rw [UpperCased, Bundled.codes_bundled, Bundled.codes_eq]
  decide +kernel

end RegionTable

open RegionTable (defaultRegion)

namespace Interpreter

/-- The template of a region in a table, which needs a default format. -/
def templateFor (table : RegionTable) (script : Script) (region : Text) :
    Except FormatError Text := do
  (← build table {}).format script region

theorem build_templateFor (table : RegionTable) (options : FormOptions) (script : Script)
    (region : Text) :
    (∃ e, build table options = .error e ∧ templateFor table script region = .error e) ∨
    ∃ template, build table options = .ok ⟨table, options⟩ ∧
      format ⟨table, options⟩ script region = .ok template ∧
      templateFor table script region = .ok template := by
  unfold templateFor build
  cases hd : table.get? defaultRegion .fmt with
  | none => exact .inl ⟨_, rfl, rfl⟩
  | some default =>
    have hsome : (table.get? defaultRegion .fmt).isSome = true := by rw [hd, Option.isSome_some]
    obtain ⟨template, ht⟩ := format_isOk ⟨table, {}⟩ hsome script region
    exact .inr ⟨template, rfl, (format_congr ⟨table, options⟩ ⟨table, {}⟩ _ _ rfl).trans ht, ht⟩

theorem templateFor_native (table : RegionTable) (region default : Text)
    (hd : table.get? defaultRegion .fmt = some default) :
    templateFor table .native region = .ok ((table.get? region .fmt).getD default) := by
  have hbuild : build table {} = .ok ⟨table, {}⟩ := by rw [build, hd]
  rw [templateFor, hbuild]
  exact format_native ⟨table, {}⟩ region default hd

theorem templateFor_of_get?_eq_none (table : RegionTable) (script : Script) (region : Text)
    (hd : table.get? defaultRegion .fmt = none) :
    templateFor table script region = .error .missingDefaultFormat := by
  rw [templateFor, build, hd]
  rfl

/-- Upper case changes the template unless the region is in upper case already or its format is
the default one. -/
theorem templateFor_upperCase_iff (table : RegionTable) (h : table.UpperCased) (region : Text) :
    templateFor table .native (if region = [] then defaultRegion else region) =
        templateFor table .native region.upperCase ↔
      table.get? defaultRegion .fmt = none ∨ (region ≠ [] ∧ region.upperCase = region) ∨
        table.get? region.upperCase .fmt = none ∨
        table.get? region.upperCase .fmt = table.get? defaultRegion .fmt := by
  cases hd : table.get? defaultRegion .fmt with
  | none =>
    rw [templateFor_of_get?_eq_none table _ _ hd, templateFor_of_get?_eq_none table _ _ hd]
    exact iff_of_true rfl (.inl rfl)
  | some default =>
    rw [templateFor_native table _ default hd, templateFor_native table _ default hd]
    by_cases hup : region ≠ [] ∧ region.upperCase = region
    · rw [if_neg hup.1, hup.2]
      exact iff_of_true rfl (.inr (.inl ⟨hup.1, rfl⟩))
    · have hfallback :
          (table.get? (if region = [] then defaultRegion else region) .fmt).getD default =
            default := by
        split_ifs with hne
        · rw [hd, Option.getD_some]
        · rw [h.get?_eq_none region fun hu => hup ⟨hne, hu⟩, Option.getD_none]
      rw [hfallback, or_iff_right (Option.some_ne_none default), or_iff_right hup]
      cases table.get? region.upperCase .fmt <;> simp [eq_comm]

end Interpreter

namespace Run

open Interpreter (templateFor regionOf)

/-! ## The address of the arguments -/

def edits (arguments : FormatArguments) : List Draft.Edit :=
  arguments.values.map (fun entry => .set entry.1 (some entry.2)) ++
    (if arguments.lines = [] then [] else [.lines arguments.lines]) ++
    (arguments.language.map .language).toList

theorem overriding_eq_run (a : Address) (arguments : FormatArguments) :
    overriding a arguments = (Draft.run (edits arguments) (Draft.copyOf a)).build := by
  rw [overriding, edits, Draft.run, List.foldl_append, List.foldl_append, List.foldl_map]
  cases arguments.language <;> by_cases hl : arguments.lines = [] <;> simp [hl, Draft.apply]

theorem copy_notMem_edits (arguments : FormatArguments) (a : Address) :
    .copy a ∉ edits arguments := by
  simp only [edits, List.mem_append, List.mem_map, not_or]
  refine ⟨⟨?_, ?_⟩, ?_⟩
  · rintro ⟨entry, -, h⟩
    cases h
  · split <;> simp
  · cases arguments.language <;> simp

theorem written_edits (arguments : FormatArguments) (f : Field) :
    (edits arguments).filterMap (Draft.Edit.written? f) =
      arguments.values.filterMap fun entry =>
        if entry.1 = f then some (some entry.2) else none := by
  have hlines : (if arguments.lines = [] then [] else
      [Draft.Edit.lines arguments.lines]).filterMap (Draft.Edit.written? f) = [] := by
    split <;> rfl
  have htag : (arguments.language.map Draft.Edit.language).toList.filterMap
      (Draft.Edit.written? f) = [] := by
    cases arguments.language <;> rfl
  rw [edits, List.filterMap_append, List.filterMap_append, hlines, htag, List.append_nil,
    List.append_nil, List.filterMap_map]
  rfl

theorem country_values (found : Arguments) (arguments : FormatArguments)
    (h : Invocation.formatArguments? found = some arguments) :
    (arguments.values.filterMap fun entry =>
        if entry.1 = .country then some (some entry.2) else none) =
      ((found.value? "region".toList).map some).toList := by
  obtain ⟨input, -, h⟩ := Option.bind_eq_some_iff.mp h
  cases h
  have hsplit : Invocation.fieldOptions =
      ("region".toList, .country) :: Invocation.fieldOptions.tail := rfl
  have hother : ∀ option ∈ Invocation.fieldOptions.tail, option.2 ≠ .country := by decide
  rw [List.filterMap_filterMap, hsplit, List.filterMap_cons, List.filterMap_eq_nil_iff.mpr]
  · dsimp only
    cases found.value? "region".toList <;> rfl
  · rintro ⟨name, field⟩ hm
    dsimp only
    cases found.value? name with
    | none => rfl
    | some value => exact if_neg (hother (name, field) hm)

theorem country_overriding (found : Arguments) (arguments : FormatArguments)
    (h : Invocation.formatArguments? found = some arguments) :
    (overriding {} arguments).value .country =
      found.value? "region".toList >>= Text.trimmed? := by
  have hcopy : ∀ a, .copy a ∈ edits arguments → a.Trimmed := fun a ha =>
    absurd ha (copy_notMem_edits arguments a)
  rw [overriding_eq_run, Draft.value_run _ .country rfl (edits arguments) hcopy,
    written_edits, country_values found arguments h]
  cases found.value? "region".toList <;> rfl

theorem regionOf_overriding (found : Arguments) (arguments : FormatArguments)
    (h : Invocation.formatArguments? found = some arguments) (region : Text)
    (hr : found.value? "region".toList = some region) (hu : region.Unpadded) :
    regionOf (overriding {} arguments) = if region = [] then defaultRegion else region := by
  rw [regionOf, country_overriding found arguments h, hr]
  change (Text.trimmed? region).getD defaultRegion = _
  by_cases hne : region = []
  · rw [if_pos hne, hne]
    rfl
  · rw [if_neg hne, Text.trimmed?_of_tidy region (hu.tidy hne)]
    rfl

/-! ## Outcomes by template -/

def withTemplate (chosen : Except FormatError Text) (use : Text → Outcome) : Outcome :=
  match chosen with
  | .error e => unusableTable e
  | .ok template => use template

def printedUnder (json : Bool) (a : Address) (template : Text) : Outcome :=
  match Interpreter.parseFor (regionOf a) template >>= fun parsed =>
      (Envelope.lines a parsed).mapError FormatError.field with
  | .error e => formatFailed json e
  | .ok lines => showLines json a lines

def layoutUnder (i : Interpreter) (region template : Text) :
    Except FormatError (List Field × List Field) := do
  let order ← i.fieldOrderOf template region
  return (order, ← i.required region)

def listedUnder (i : Interpreter) (arguments : FieldsArguments) (template : Text) : Outcome :=
  let region := arguments.region.upperCase
  match layoutUnder i region template with
  | .error e =>
    failed badData ("Invalid metadata for region ".toList ++ region ++ ": ".toList ++ e.message)
  | .ok (order, required) =>
    .finished 0 (listing i arguments (formFields i region order required)) []

theorem format_eq_withTemplate (table : RegionTable) (files : Files) (arguments : FormatArguments)
    (hi : arguments.input = none) (ht : arguments.template = none) :
    format table files arguments =
      withTemplate (templateFor table (Script.ofLanguage (overriding {} arguments).language)
        (regionOf (overriding {} arguments)))
        (printedUnder arguments.json (overriding {} arguments)) := by
  unfold format
  simp only [readAddress, hi, ht]
  generalize overriding {} arguments = a
  rcases Interpreter.build_templateFor table {} (Script.ofLanguage a.language) (regionOf a) with
    ⟨e, hb, he⟩ | ⟨template, hb, hf, he⟩
  · rw [hb, he]
    rfl
  · rw [hb, he]
    dsimp only
    rw [Interpreter.envelope, hf]
    rfl

theorem fields_eq_withTemplate (table : RegionTable) (arguments : FieldsArguments)
    (options : FormOptions)
    (ho : formOptions arguments.region.upperCase arguments = .ok options) :
    fields table arguments =
      withTemplate (templateFor table (scriptOf arguments.latin) arguments.region.upperCase)
        (listedUnder ⟨table, options⟩ arguments) := by
  unfold fields
  simp only [ho]
  rcases Interpreter.build_templateFor table options (scriptOf arguments.latin)
    arguments.region.upperCase with ⟨e, hb, he⟩ | ⟨template, hb, hf, he⟩
  · rw [hb, he]
    rfl
  · rw [hb, he]
    have hlayout : layout ⟨table, options⟩ (scriptOf arguments.latin)
        arguments.region.upperCase =
          layoutUnder ⟨table, options⟩ arguments.region.upperCase template := by
      rw [layout, Interpreter.fieldOrder, hf]
      rfl
    dsimp only [withTemplate, listedUnder, listing]
    rw [hlayout]
    cases layoutUnder ⟨table, options⟩ arguments.region.upperCase template with
    | error e => rfl
    | ok found =>
      dsimp only
      split <;> rfl

/-- Over a table in upper case, an address given by options without an explicitly Latin language
is laid out with the template of the region as given, and a form has that of the upper-cased
region. The two are the same exactly if the region is in upper case and not empty, or upper-cased
it has no format other than the default one, or if there is no default format and both commands
refuse the table. -/
theorem templates_agree_iff (table : RegionTable) (hcodes : table.UpperCased) (files : Files)
    (found : Arguments) (arguments : FormatArguments)
    (hfound : Invocation.formatArguments? found = some arguments)
    (hinput : arguments.input = none) (htemplate : arguments.template = none) (region : Text)
    (hregion : found.value? "region".toList = some region) (hends : region.Unpadded)
    (hlanguage : Script.ofLanguage (overriding {} arguments).language = .native)
    (form : FieldsArguments) (hform : form.region = region) (hlatin : form.latin = false) :
    let a := overriding {} arguments
    let printing := templateFor table .native (regionOf a)
    let listing := templateFor table .native region.upperCase
    format table files arguments = withTemplate printing (printedUnder arguments.json a) ∧
    (∀ options, formOptions region.upperCase form = .ok options →
      fields table form = withTemplate listing (listedUnder ⟨table, options⟩ form)) ∧
    (printing = listing ↔
      table.get? defaultRegion .fmt = none ∨ (region ≠ [] ∧ region.upperCase = region) ∨
        table.get? region.upperCase .fmt = none ∨
        table.get? region.upperCase .fmt = table.get? defaultRegion .fmt) := by
  subst hform
  intro a printing listing
  refine ⟨?_, fun options ho => ?_, ?_⟩
  · have hformat := format_eq_withTemplate table files arguments hinput htemplate
    rwa [hlanguage] at hformat
  · have hfields := fields_eq_withTemplate table form options ho
    rwa [hlatin] at hfields
  · have hkept := regionOf_overriding found arguments hfound form.region hregion hends
    dsimp only [printing, listing, a]
    rw [hkept]
    exact Interpreter.templateFor_upperCase_iff table hcodes form.region

def townOptions (region : Text) : Arguments where
  options := [("region".toList, region), ("locality".toList, "Town".toList),
    ("admin-area".toList, "CA".toList), ("postal-code".toList, "94043".toList)]

def townArguments (region : Text) : FormatArguments where
  values := [(.country, region), (.adminArea, "CA".toList), (.locality, "Town".toList),
    (.postalCode, "94043".toList)]

theorem templates_agree_iff_upperCase :
    let a := overriding {} (townArguments "US".toList)
    format .bundled (fun _ => none) (townArguments "US".toList) =
        withTemplate (templateFor .bundled .native (regionOf a)) (printedUnder false a) ∧
      templateFor .bundled .native (regionOf a) = templateFor .bundled .native "US".toList := by
  obtain ⟨hformat, -, hiff⟩ := templates_agree_iff .bundled RegionTable.upperCased_bundled
    (fun _ => none) (townOptions "US".toList) (townArguments "US".toList) (by decide) rfl rfl
    "US".toList rfl (by decide) rfl (withHidden "US".toList []) rfl rfl
  exact ⟨hformat, hiff.mpr (.inr (.inl (by decide)))⟩

/-- In lower case the address takes the default template and loses its state and postal code,
and the form still has the template of the United States. -/
theorem exists_templates_ne :
    let arguments := townArguments "us".toList
    let a := overriding {} arguments
    let form := withHidden "us".toList []
    let own := "%N%n%O%n%A%n%C, %S %Z".toList
    RegionTable.bundled.UpperCased ∧
      Invocation.formatArguments? (townOptions "us".toList) = some arguments ∧
      Text.Unpadded "us".toList ∧ Script.ofLanguage a.language = .native ∧
      templateFor .bundled .native (regionOf a) = .ok Bundled.defaultLayout ∧
      format .bundled (fun _ => none) arguments = printedUnder false a Bundled.defaultLayout ∧
      printedUnder false a Bundled.defaultLayout = .finished 0 "Town\n".toList [] ∧
      templateFor .bundled .native form.region.upperCase = .ok own ∧
      (∃ options, formOptions form.region.upperCase form = .ok options ∧
        fields .bundled form = listedUnder ⟨.bundled, options⟩ form own) ∧
      printedUnder false a own = .finished 0 "Town, CA 94043\n".toList [] := by
  intro arguments a form own
  have hdefault := Bundled.get?_defaultRegion.1
  have hprinting : templateFor .bundled .native (regionOf a) = .ok Bundled.defaultLayout := by
    change templateFor .bundled .native "us".toList = _
    rw [Interpreter.templateFor_native .bundled _ _ hdefault,
      RegionTable.upperCased_bundled.get?_eq_none "us".toList (by decide), Option.getD_none]
  have hlisting : templateFor .bundled .native form.region.upperCase = .ok own := by
    change templateFor .bundled .native "US".toList = _
    rw [Interpreter.templateFor_native .bundled _ _ hdefault, Bundled.get?_unitedStates.1,
      Option.getD_some]
  have hoptions : ∃ options, formOptions form.region.upperCase form = .ok options := ⟨_, rfl⟩
  obtain ⟨options, ho⟩ := hoptions
  have hlanguage : Script.ofLanguage a.language = .native := rfl
  have hformat : format .bundled (fun _ => none) arguments =
      withTemplate (templateFor .bundled (Script.ofLanguage a.language) (regionOf a))
        (printedUnder false a) := format_eq_withTemplate .bundled _ arguments rfl rfl
  have hfields : fields .bundled form =
      withTemplate (templateFor .bundled .native form.region.upperCase)
        (listedUnder ⟨.bundled, options⟩ form) := fields_eq_withTemplate .bundled form options ho
  rw [hlanguage, hprinting] at hformat
  rw [hlisting] at hfields
  exact ⟨RegionTable.upperCased_bundled, by decide, by decide, hlanguage, hprinting, hformat,
    by decide +kernel, hlisting, ⟨options, ho, hfields⟩, by decide +kernel⟩

end Run
end Postal
