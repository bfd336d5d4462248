import Postal.CommandLine.Run
import Postal.Proofs.Envelope.Composition
import Postal.Proofs.Interpreter.FieldOrder

/-!
# Faults of an interpreter

An interpreter is built over a default format and under options whose custom
orders are distinct. Reading a template strictly resolves every code that field
orders, pruning and rendering resolve again. So a request fails only where the
metadata of its region cannot be read, and then with the fault of that reading.
No other fault comes out, and the program never ends as if it were at fault.
-/

set_option autoImplicit false

namespace Postal

/-- There is a result where `reading` has one, and else the fault made of its cause. -/
def FailsAs {α β γ : Type} (fault : β → FormatError) (reading : Except β γ)
    (x : Except FormatError α) : Prop :=
  match reading with
  | .ok _ => ∃ a, x = .ok a
  | .error cause => x = .error (fault cause)

/-- What follows a reading must not fail on anything that was read. -/
theorem failsAs_bind {α β γ : Type} (fault : β → FormatError) (reading : Except β γ)
    (f : γ → Except FormatError α) (h : ∀ c, reading = .ok c → ∃ a, f c = .ok a) :
    FailsAs fault reading (reading.mapError fault >>= f) := by
  cases reading with
  | ok c => exact h c rfl
  | error cause => rfl

theorem exists_error_of_failsAs {α β γ : Type} (fault : β → FormatError)
    (reading : Except β γ) (x : Except FormatError α) (e : FormatError)
    (h : FailsAs fault reading x) (he : x = .error e) : ∃ cause, e = fault cause := by
  cases reading with
  | ok c =>
    obtain ⟨a, ha⟩ := h
    rw [he] at ha
    cases ha
  | error cause =>
    have hx : x = .error (fault cause) := h
    rw [he] at hx
    exact ⟨cause, Except.error.inj hx⟩

namespace Interpreter

theorem fieldOrderOf_failsAs (i : Interpreter) (ho : i.options.Distinct) (s region : Text) :
    FailsAs (.invalidTemplate region) (Template.parseStrict s) (i.fieldOrderOf s region) := by
  cases hp : Template.parseStrict s with
  | ok template =>
    obtain ⟨order, horder, -⟩ := i.fieldOrderOf_nodup ho s region template hp
    exact ⟨order, horder⟩
  | error cause =>
    have hregion := parseFor_error region s cause hp
    rw [FailsAs, fieldOrderOf, hregion]
    rfl

theorem envelope_failsAs (i : Interpreter) (a : Address) (s : Text)
    (hs : i.format (Script.ofLanguage a.language) (regionOf a) = .ok s) :
    FailsAs (.invalidTemplate (regionOf a)) (Template.parseStrict s) (i.envelope a) := by
  have henvelope : i.envelope a = parseFor (regionOf a) s >>=
      fun template => (Envelope.lines a template).mapError .field := by
    rw [envelope, hs]
    rfl
  rw [henvelope]
  apply failsAs_bind
  intro template ht
  obtain ⟨out, hout⟩ := Envelope.exists_lines a s template ht
  exact ⟨out, (mapError_eq_ok _ _ _).mpr hout⟩

theorem required_failsAs (i : Interpreter) (region : Text) :
    FailsAs (.invalidRequired region) (requiredFields ((i.table.get? region .require <|>
      i.table.get? RegionTable.defaultRegion .require).getD [])) (i.required region) := by
  rw [required]
  cases requiredFields ((i.table.get? region .require <|>
      i.table.get? RegionTable.defaultRegion .require).getD []) with
  | ok fields => exact ⟨fields, rfl⟩
  | error cause => rfl

end Interpreter

namespace Run

theorem badData_ne_softwareFault : badData ≠ softwareFault := by decide

theorem status_finished (output errors : Text) :
    (Outcome.finished 0 output errors).status ≠ softwareFault := by
  change 0 ≠ 70
  decide

theorem status_reported (report : Report) :
    (Outcome.reported report).status ≠ softwareFault := by
  cases report with
  | help command =>
    change 0 ≠ 70
    decide
  | _ => exact badData_ne_softwareFault

theorem status_stop (stop : Stop) : stop.outcome.status ≠ softwareFault := by
  cases stop with
  | usage => decide
  | help command => exact status_reported (.help command)
  | version => decide

theorem status_showLines (json : Bool) (a : Address) (lines : List Text) :
    (showLines json a lines).status ≠ softwareFault := by
  cases json <;> exact status_finished _ _

theorem statusOf_envelope (table : RegionTable) (i : Interpreter)
    (h : Interpreter.build table {} = .ok i) (a : Address) (e : FormatError)
    (he : i.envelope a = .error e) : statusOf e = badData := by
  obtain ⟨rfl, hd⟩ := Interpreter.build_eq_ok table {} i h
  obtain ⟨s, hs⟩ := Interpreter.format_isOk ⟨table, {}⟩ hd (Script.ofLanguage a.language)
    (Interpreter.regionOf a)
  obtain ⟨cause, rfl⟩ := exists_error_of_failsAs _ _ _ e
    (Interpreter.envelope_failsAs ⟨table, {}⟩ a s hs) he
  rfl

theorem status_format (table : RegionTable) (files : Files) (arguments : FormatArguments) :
    (format table files arguments).status ≠ softwareFault := by
  unfold format
  cases readAddress files arguments.input with
  | error report => exact status_reported report
  | ok base =>
    dsimp only
    generalize overriding base arguments = a
    cases arguments.template with
    | some template =>
      cases htemplate : templateLines template a with
      | error report =>
        simp only [htemplate]
        exact status_reported report
      | ok lines =>
        simp only [htemplate]
        exact status_showLines arguments.json a lines
    | none =>
      cases hi : Interpreter.build table {} with
      | error e => exact badData_ne_softwareFault
      | ok i =>
        cases he : i.envelope a with
        | error e =>
          have hstatus : statusOf e = badData := statusOf_envelope table i hi a e he
          simp only [he]
          change statusOf e ≠ softwareFault
          rw [hstatus]
          exact badData_ne_softwareFault
        | ok lines =>
          simp only [he]
          exact status_showLines arguments.json a lines

theorem status_fields (table : RegionTable) (arguments : FieldsArguments) :
    (fields table arguments).status ≠ softwareFault := by
  unfold fields
  dsimp only
  cases formOptions arguments.region.upperCase arguments with
  | error e => exact badData_ne_softwareFault
  | ok options =>
    dsimp only
    cases Interpreter.build table options with
    | error e => exact badData_ne_softwareFault
    | ok i =>
      dsimp only
      cases layout i (scriptOf arguments.latin) arguments.region.upperCase with
      | error e => exact badData_ne_softwareFault
      | ok shown => cases arguments.json <;> exact status_finished _ _

theorem status_showDerived (colour : Colour) (json : Bool) (key : Option LookupKey) :
    (showDerived colour json key).status ≠ softwareFault := by
  cases key with
  | some key => exact status_finished _ _
  | none => cases json <;> exact badData_ne_softwareFault

theorem status_showDecoded (colour : Colour) (json : Bool) (key : LookupKey) :
    (showDecoded colour json key).status ≠ softwareFault := by
  cases json <;> exact status_finished _ _

theorem status_key (colour : Colour) (json : Bool) (action : KeyAction) :
    (key colour json action).status ≠ softwareFault := by
  unfold key
  cases ho : keyOutcome colour json action with
  | error e => exact badData_ne_softwareFault
  | ok outcome =>
    cases action with
    | decode text =>
      obtain ⟨found, -, h⟩ := (bind_eq_ok _ _ _).mp ho
      cases h
      exact status_showDecoded colour json found
    | parent text =>
      obtain ⟨found, -, h⟩ := (bind_eq_ok _ _ _).mp ho
      obtain ⟨up, -, h⟩ := (bind_eq_ok _ _ _).mp h
      cases h
      exact status_showDerived colour json up
    | upper text field =>
      obtain ⟨found, -, h⟩ := (bind_eq_ok _ _ _).mp ho
      obtain ⟨up, -, h⟩ := (bind_eq_ok _ _ _).mp h
      cases h
      exact status_showDerived colour json up

/-- No run of the program ends as a fault of the program. -/
theorem status_outcome (environment : Option Text) (arguments : List Text) (files : Files) :
    (outcome environment arguments files).status ≠ softwareFault := by
  unfold outcome
  cases Invocation.read environment arguments with
  | error stop => exact status_stop stop
  | ok invocation =>
    dsimp only
    unfold Invocation.run
    cases readTable files invocation.data with
    | error report => exact status_reported report
    | ok table =>
      cases invocation.command with
      | format arguments => exact status_format table files arguments
      | fields arguments => exact status_fields table arguments
      | key action json => exact status_key invocation.colour json action

end Run

namespace Interpreter

/-- A built interpreter finds a layout for every region, and all else it is asked for fails only
as the reading of that layout or of the required fields does. The program passes no other fault
on: it never ends as if it were at fault itself. -/
theorem failsAs_of_build (table : RegionTable) (edits : List FormOptions.Edit) (i : Interpreter)
    (h : build table (FormOptions.run edits {}) = .ok i) :
    (∀ script region, ∃ s, i.format script region = .ok s ∧
      FailsAs (.invalidTemplate region) (Template.parseStrict s) (i.fieldOrder script region)) ∧
    (∀ s region,
      FailsAs (.invalidTemplate region) (Template.parseStrict s) (i.fieldOrderOf s region)) ∧
    (∀ a region, (a.value .country).getD "ZZ".toList = region →
      ∃ s, i.format (Script.ofLanguage a.language) region = .ok s ∧
        FailsAs (.invalidTemplate region) (Template.parseStrict s) (i.envelope a)) ∧
    (∀ region, FailsAs (.invalidRequired region) (requiredFields
      ((table.get? region .require <|> table.get? "ZZ".toList .require).getD []))
      (i.required region)) ∧
    ∀ environment arguments files,
      (outcome environment arguments files).status ≠ Run.softwareFault := by
  obtain ⟨hi, hd⟩ := build_eq_ok table _ i h
  have ho : i.options.Distinct := by
    rw [hi]
    exact FormOptions.distinct_run edits {} fun entry hm => absurd hm List.not_mem_nil
  have ht : i.table = table := by rw [hi]
  have hformat := i.format_isOk (by rw [ht]; exact hd)
  have hrequired : ∀ region, FailsAs (.invalidRequired region) (requiredFields
      ((table.get? region .require <|> table.get? "ZZ".toList .require).getD []))
      (i.required region) := by
    intro region
    rw [← ht]
    exact i.required_failsAs region
  refine ⟨?_, i.fieldOrderOf_failsAs ho, ?_, hrequired, Run.status_outcome⟩
  · intro script region
    obtain ⟨s, hs⟩ := hformat script region
    have hf : i.fieldOrder script region = i.fieldOrderOf s region := by
      rw [fieldOrder, hs]
      rfl
    refine ⟨s, hs, ?_⟩
    rw [hf]
    exact i.fieldOrderOf_failsAs ho s region
  · rintro a region rfl
    obtain ⟨s, hs⟩ := hformat (Script.ofLanguage a.language) (regionOf a)
    exact ⟨s, hs, i.envelope_failsAs a s hs⟩

theorem failsAs_of_build_unknown :
    ∃ i, build (RegionTable.ofRecords [
          ("ZZ".toList, [(RegionKey.fmt.name, .string "%N%n%A".toList)]),
          ("XC".toList, [(RegionKey.fmt.name, .string "%A%Q".toList),
            (RegionKey.require.name, .string "AQ".toList)])])
        (FormOptions.run [.order "XC".toList [.locality, .recipient]] {}) = .ok i ∧
      i.format .latin "XC".toList = .ok "%A%Q".toList ∧
      i.fieldOrder .latin "XC".toList =
        .error (.invalidTemplate "XC".toList (.invalidField 3 (.unknownCode 'Q'))) ∧
      i.envelope { values := { country := some "XC".toList } } =
        .error (.invalidTemplate "XC".toList (.invalidField 3 (.unknownCode 'Q'))) ∧
      i.required "XC".toList = .error (.invalidRequired "XC".toList (.unknownCode 'Q')) ∧
      ∃ lines, i.envelope { lines := [['x']] } = .ok lines := by
  refine ⟨_, rfl, rfl, ?_⟩
  obtain ⟨horder, -, henvelope, hrequired, -⟩ := failsAs_of_build _
    [.order "XC".toList [.locality, .recipient]] _ (rfl : build (RegionTable.ofRecords [
          ("ZZ".toList, [(RegionKey.fmt.name, .string "%N%n%A".toList)]),
          ("XC".toList, [(RegionKey.fmt.name, .string "%A%Q".toList),
            (RegionKey.require.name, .string "AQ".toList)])]) _ = .ok _)
  obtain ⟨s, hs, hxc⟩ := horder .latin "XC".toList
  obtain rfl : "%A%Q".toList = s := Except.ok.inj hs
  obtain ⟨t, ht, hlines⟩ := henvelope { values := { country := some "XC".toList } } _ rfl
  obtain rfl : "%A%Q".toList = t := Except.ok.inj ht
  obtain ⟨u, hu, hshown⟩ := henvelope { lines := [['x']] } _ rfl
  obtain rfl : "%N%n%A".toList = u := Except.ok.inj hu
  exact ⟨hxc, hlines, hrequired "XC".toList, hshown⟩

end Interpreter
end Postal
