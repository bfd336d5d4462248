import Postal.CommandLine.Run
import Postal.Proofs.Interpreter.Completable

/-!
# Hidden fields of a form

In a form the two line fields stand for the street address, so a form without the street address
should show neither. The rows are chosen from the finished order, in which the lines have already
taken the place of the street address, and a row is left out only where its very field is hidden.
So the rows are those of the order without what is hidden and what stands for it, exactly unless
the street address is hidden and a line that the order shows is not.
-/

set_option autoImplicit false

namespace Postal

/-- A form shows the first field where it shows the second: as itself or as a line of it. -/
def Field.StandsFor (f g : Field) : Prop :=
  f = g ∨ (f = .addressLine1 ∨ f = .addressLine2) ∧ g = .streetAddress

instance (f g : Field) : Decidable (f.StandsFor g) := inferInstanceAs (Decidable (_ ∨ _))

def Field.CoveredBy (f : Field) (fields : List Field) : Prop := ∃ g ∈ fields, f.StandsFor g

instance (f : Field) (fields : List Field) : Decidable (f.CoveredBy fields) :=
  inferInstanceAs (Decidable (∃ g ∈ fields, _))

theorem Field.coveredBy_iff (f : Field) (fields : List Field) : f.CoveredBy fields ↔
    f ∈ fields ∨ (f = .addressLine1 ∨ f = .addressLine2) ∧ .streetAddress ∈ fields := by
  constructor
  · rintro ⟨g, hg, rfl | ⟨hf, rfl⟩⟩
    · exact .inl hg
    · exact .inr ⟨hf, hg⟩
  · rintro (hf | ⟨hf, hs⟩)
    · exact ⟨f, hf, .inl rfl⟩
    · exact ⟨.streetAddress, hs, .inr ⟨hf, rfl⟩⟩

namespace FormOptions

theorem isHidden_foldl_hide (fields : List Field) (o : FormOptions) (f : Field) :
    (fields.foldl hide o).isHidden f = true ↔ f ∈ fields ∨ o.isHidden f = true := by
  induction fields generalizing o with
  | nil => simp
  | cons g fields ih =>
    rw [List.foldl_cons, ih, List.mem_cons]
    simp [isHidden, hide, or_assoc, or_left_comm]

theorem hidden_setOrder (o next : FormOptions) (region : Text) (fields : List Field)
    (h : o.setOrder region fields = .ok next) : next.hidden = o.hidden := by
  unfold setOrder at h
  split at h
  · cases h
  · cases h
    rfl

end FormOptions

namespace Run

theorem isHidden_formOptions (region : Text) (arguments : FieldsArguments) (options : FormOptions)
    (h : formOptions region arguments = .ok options) (f : Field) :
    options.isHidden f = true ↔ f ∈ arguments.hidden := by
  have hhidden := FormOptions.hidden_setOrder _ options region arguments.order h
  have hf := FormOptions.isHidden_foldl_hide arguments.hidden {} f
  rw [FormOptions.isHidden, hhidden]
  exact hf.trans (or_iff_left (by simp [FormOptions.isHidden]))

theorem distinct_formOptions (region : Text) (arguments : FieldsArguments)
    (options : FormOptions) (h : formOptions region arguments = .ok options) :
    options.Distinct := by
  have hbase : arguments.hidden.foldl FormOptions.hide {} =
      FormOptions.run (arguments.hidden.map .hide) {} := by
    rw [FormOptions.run, List.foldl_map]
    rfl
  refine FormOptions.distinct_setOrder _ options region arguments.order ?_ h
  rw [hbase]
  exact FormOptions.distinct_run _ {} fun entry hm => absurd hm List.not_mem_nil

theorem formFields_fields (i : Interpreter) (region : Text) (order required : List Field) :
    (formFields i region order required).map FormField.field =
      order.filter fun f => !i.options.isHidden f := by
  rw [formFields, List.map_map]
  exact List.map_id _

def listing (i : Interpreter) (arguments : FieldsArguments) (rows : List FormField) : Text :=
  let region := arguments.region.upperCase
  if arguments.json then
    line (Json.pretty (fieldsJson i (scriptOf arguments.latin) region rows))
  else line (fieldsTable rows) ++ unknownRegionNote i.table region

/-- The command found the order and the requirements of the region under its options. -/
structure LaysOut (table : RegionTable) (arguments : FieldsArguments) (i : Interpreter)
    (order required : List Field) : Prop where
  options : formOptions arguments.region.upperCase arguments = .ok i.options
  build : Interpreter.build table i.options = .ok i
  order : i.fieldOrder (scriptOf arguments.latin) arguments.region.upperCase = .ok order
  required : i.required arguments.region.upperCase = .ok required

theorem layout_eq_ok (i : Interpreter) (script : Script) (region : Text)
    (order required : List Field) : layout i script region = .ok (order, required) ↔
      i.fieldOrder script region = .ok order ∧ i.required region = .ok required := by
  constructor
  · intro h
    obtain ⟨found, hfound, h⟩ := (bind_eq_ok _ _ _).mp h
    obtain ⟨needed, hneeded, h⟩ := (bind_eq_ok _ _ _).mp h
    cases h
    exact ⟨hfound, hneeded⟩
  · rintro ⟨ho, hr⟩
    exact (bind_eq_ok _ _ _).mpr ⟨order, ho, (bind_eq_ok _ _ _).mpr ⟨required, hr, rfl⟩⟩

theorem fields_eq_finished (table : RegionTable) (arguments : FieldsArguments)
    (output errors : Text) : fields table arguments = .finished 0 output errors ↔
      ∃ i order required, LaysOut table arguments i order required ∧ errors = [] ∧
        output = listing i arguments
          (formFields i arguments.region.upperCase order required) := by
  constructor
  · intro h
    unfold fields at h
    dsimp only at h
    split at h
    · cases h
    · rename_i options ho
      split at h
      · cases h
      · rename_i i hi
        obtain ⟨rfl, -⟩ := Interpreter.build_eq_ok table options i hi
        split at h
        · cases h
        · rename_i order required hl
          obtain ⟨horder, hrequired⟩ := (layout_eq_ok _ _ _ order required).mp hl
          refine ⟨_, order, required, ⟨ho, hi, horder, hrequired⟩, ?_⟩
          unfold listing
          dsimp only
          split at h
          · rename_i hj
            cases h
            rw [if_pos hj]
            exact ⟨rfl, rfl⟩
          · rename_i hj
            cases h
            rw [if_neg hj]
            exact ⟨rfl, rfl⟩
  · rintro ⟨i, order, required, hl, rfl, rfl⟩
    have hlayout := (layout_eq_ok i (scriptOf arguments.latin) arguments.region.upperCase order
      required).mpr ⟨hl.order, hl.required⟩
    have htable : i.table = table := by rw [(Interpreter.build_eq_ok table _ i hl.build).1]
    simp only [fields, hl.options, hl.build, hlayout, listing, htable]
    split <;> rfl

theorem LaysOut.fields_shown {table : RegionTable} {arguments : FieldsArguments}
    {i : Interpreter} {order required : List Field} (h : LaysOut table arguments i order required) :
    (formFields i arguments.region.upperCase order required).map FormField.field =
      order.filter fun f => f ∉ arguments.hidden := by
  rw [formFields_fields]
  refine List.filter_congr fun f _ => ?_
  have hf := isHidden_formOptions _ arguments i.options h.options f
  simp [← hf]

theorem LaysOut.streetAddress_notMem {table : RegionTable} {arguments : FieldsArguments}
    {i : Interpreter} {order required : List Field} (h : LaysOut table arguments i order required) :
    .streetAddress ∉ order := by
  obtain ⟨s, -, ho⟩ := (bind_eq_ok _ _ _).mp h.order
  obtain ⟨template, hp, -⟩ := (bind_eq_ok _ _ _).mp ho
  have ht := (Interpreter.parseFor_eq_ok _ s template).mp hp
  have hd := distinct_formOptions _ arguments i.options h.options
  obtain ⟨fields, rearranged, hf, hperm, hi⟩ :=
    i.fieldOrderOf_perm hd s arguments.region.upperCase template ht
  obtain ⟨known, hk, hn, -⟩ :=
    Interpreter.ofTemplate_known template ((Template.parseStrict_eq_ok s template).mp ht).2
  cases hf.symm.trans hk
  cases ho.symm.trans hi
  exact FieldOrder.streetAddress_notMem_expandStreet rearranged (hperm.nodup_iff.mpr hn)

/-- If the street address is hidden, so are the lines that the order shows. -/
def HidesLines (hidden order : List Field) : Prop :=
  .streetAddress ∈ hidden →
    ∀ f ∈ order, f = .addressLine1 ∨ f = .addressLine2 → f ∈ hidden

theorem hidesLines_iff (hidden order : List Field) : HidesLines hidden order ↔
    ∀ f ∈ order.filter fun f => f ∉ hidden, ¬f.CoveredBy hidden := by
  constructor
  · intro h f hf
    obtain ⟨ho, hh⟩ := List.mem_filter.mp hf
    have hhidden : f ∉ hidden := by simpa using hh
    rw [Field.coveredBy_iff]
    rintro (hm | ⟨hline, hs⟩)
    · exact hhidden hm
    · exact hhidden (h hs f ho hline)
  · intro h hs f hf hline
    by_contra hn
    exact h f (List.mem_filter.mpr ⟨hf, by simpa using hn⟩)
      ((f.coveredBy_iff hidden).mpr (.inr ⟨hline, hs⟩))

/-- Leaving out the hidden fields leaves out what stands for them exactly if the lines go with
the street address. -/
theorem filter_coveredBy_iff (hidden order : List Field) :
    order.filter (fun f => f ∉ hidden) = order.filter (fun f => ¬f.CoveredBy hidden) ↔
      HidesLines hidden order := by
  rw [hidesLines_iff]
  constructor
  · intro h f hf
    rw [h] at hf
    simpa using (List.mem_filter.mp hf).2
  · intro h
    refine List.filter_congr fun f hf => ?_
    by_cases hm : f ∈ hidden
    · have hcovered : f.CoveredBy hidden := (f.coveredBy_iff hidden).mpr (.inl hm)
      simp [hm, hcovered]
    · have huncovered := h f (List.mem_filter.mpr ⟨hf, by simpa using hm⟩)
      simp [hm, huncovered]

/-- Whenever the command succeeds, its rows are the fields of the order without the hidden ones,
and the order has the lines in place of the street address. So the rows leave out exactly what is
hidden and what stands for it if and only if no line is left where the street address is hidden. -/
theorem rows_cover_hidden_iff (table : RegionTable) (arguments : FieldsArguments)
    (output errors : Text) (h : fields table arguments = .finished 0 output errors) :
    ∃ i order required, LaysOut table arguments i order required ∧ errors = [] ∧
      output = listing i arguments
        (formFields i arguments.region.upperCase order required) ∧
      let shown := (formFields i arguments.region.upperCase order required).map FormField.field
      (∀ f ∈ shown, f ∉ arguments.hidden) ∧ .streetAddress ∉ order ∧
      shown = order.filter (fun f => f ∉ arguments.hidden) ∧
      ((∀ f ∈ shown, ¬f.CoveredBy arguments.hidden) ↔ HidesLines arguments.hidden order) ∧
      (shown = order.filter (fun f => ¬f.CoveredBy arguments.hidden) ↔
        HidesLines arguments.hidden order) := by
  obtain ⟨i, order, required, hl, herrors, houtput⟩ :=
    (fields_eq_finished table arguments output errors).mp h
  refine ⟨i, order, required, hl, herrors, houtput, ?_⟩
  dsimp only
  rw [hl.fields_shown]
  refine ⟨?_, hl.streetAddress_notMem, rfl, (hidesLines_iff _ order).symm,
    filter_coveredBy_iff _ order⟩
  intro f hf
  simpa using (List.mem_filter.mp hf).2

def withHidden (region : Text) (hidden : List Field) : FieldsArguments := { region, hidden }

theorem rows_cover_hidden_iff_lines :
    let table := Interpreter.onlyFormat "%N%n%A%n%C".toList
    let hidden := [.addressLine2, .streetAddress, .addressLine1]
    ∃ output i order required,
      fields table (withHidden "ZZ".toList hidden) = .finished 0 output [] ∧
      LaysOut table (withHidden "ZZ".toList hidden) i order required ∧ HidesLines hidden order ∧
      (formFields i "ZZ".toList order required).map FormField.field = [.recipient, .locality] := by
  intro table hidden
  obtain ⟨i, order, required, hl, -, -, -, -, -, -, hiff⟩ :=
    rows_cover_hidden_iff table (withHidden "ZZ".toList hidden) _ [] rfl
  obtain ⟨found, options⟩ := i
  cases hl.options
  cases hl.build
  cases hl.order
  exact ⟨_, _, _, required, rfl, hl, hiff.mp rfl, rfl⟩

/-- Hiding the street address leaves both lines in the form. -/
theorem exists_hidden_street_shown :
    ∃ output i order required,
      fields .bundled (withHidden "US".toList [.streetAddress]) = .finished 0 output [] ∧
      LaysOut .bundled (withHidden "US".toList [.streetAddress]) i order required ∧
      (formFields i "US".toList order required).map FormField.field =
        [.recipient, .organization, .addressLine1, .addressLine2, .locality, .adminArea,
          .postalCode] ∧
      Field.addressLine1.CoveredBy [.streetAddress] ∧
      Field.addressLine2.CoveredBy [.streetAddress] := by
  have hl : LaysOut .bundled (withHidden "US".toList [.streetAddress])
      ⟨.bundled, { hidden := [.streetAddress] }⟩
      [.recipient, .organization, .addressLine1, .addressLine2, .locality, .adminArea, .postalCode]
      [.country, .streetAddress, .adminArea, .locality, .postalCode] := by
    refine ⟨rfl, ?_, ?_, ?_⟩
    · rw [Interpreter.build, Bundled.get?_defaultRegion.1]
    · exact (bind_eq_ok _ _ _).mpr ⟨_, Interpreter.format_unitedStates _, rfl⟩
    · change Interpreter.required _ "US".toList = _
      simp only [Interpreter.required, Bundled.get?_unitedStates.2]
      rfl
  have hfinished := (fields_eq_finished _ _ _ []).mpr ⟨_, _, _, hl, rfl, rfl⟩
  exact ⟨_, _, _, _, hfinished, hl, rfl, by decide, by decide⟩

end Run
end Postal
