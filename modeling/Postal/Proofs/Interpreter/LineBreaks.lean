import Postal.Proofs.Interpreter.Completable

/-!
# Line breaks in printed lines

A street is cut at its line breaks when the address is built, and the lines of it stay whole
when they are printed. Every other value is written as it stands, so a break inside of it ends up
inside of a line. Pruning keeps each field that has a value. So under a layout without breaks of
its own, as those of the bundled table are, the lines are whole exactly where no such value that
the layout names holds a break.
-/

set_option autoImplicit false

namespace Postal

theorem Template.notMem_literal (c : Char) (s : Text) (template : Template)
    (h : tokens? s = some template) (hc : c ∉ s) (text : Text) (hm : .literal text ∈ template) :
    c ∉ text := by
  intro hin
  rw [← text_of_tokens? s template h] at hc
  exact hc (List.mem_flatMap.mpr ⟨_, hm, hin⟩)

namespace Envelope

/-- The template names a field whose value is printed as it stands and holds a line break. -/
def Breaks (a : Address) (template : Template) : Prop :=
  ∃ f t, .field f.code ∈ template ∧ f.isSingle = true ∧ f ≠ .country ∧ a.value f = some t ∧
    '\n' ∈ t

theorem Selects.mem_of_populated {a : Address} {template out : Template} {places : List ℕ}
    (h : Selects a template 0 out places) (code : Char) (hm : .field code ∈ template)
    (hp : Populated a code) : .field code ∈ out := by
  obtain ⟨i, hi⟩ := List.mem_iff_getElem?.mp hm
  have hplace : i ∈ places := (h.mem_iff i).mpr ⟨Nat.zero_le i, .inr (.inl ⟨code, hi, hp⟩)⟩
  have hsome : some (.field code) ∈ out.map some := by
    rw [h.tokens, ← hi]
    exact List.mem_map_of_mem hplace
  simpa using hsome

/-- Of all fields only those that are no street lines and not the country print breaks. -/
theorem break_mem_fieldPieces (a : Address) (ha : a.Trimmed) (f : Field) :
    '\n' ∈ (fieldPieces a f).flatMap Piece.content ↔
      f.isSingle = true ∧ f ≠ .country ∧ ∃ t, a.value f = some t ∧ '\n' ∈ t := by
  have hline : ∀ line ∈ a.lines, '\n' ∉ line := fun line hl => (ha.line line hl).2
  have hvalue : ∀ v : Option Text, '\n' ∈ (v.toList.map Piece.text).flatMap Piece.content ↔
      ∃ t, v = some t ∧ '\n' ∈ t := by
    intro v
    cases v <;> simp
  cases f with
  | country => simp [fieldPieces]
  | streetAddress =>
    rw [fieldPieces, streetPieces_content]
    simpa [Field.isSingle] using hline
  | addressLine1 =>
    refine (hvalue _).trans (iff_of_false ?_ (by simp [Field.isSingle]))
    rintro ⟨t, ht, hn⟩
    exact hline t (List.mem_of_head? ht) hn
  | addressLine2 =>
    refine (hvalue _).trans (iff_of_false ?_ (by simp [Field.isSingle]))
    rintro ⟨t, ht, hn⟩
    simp only [Address.value, Address.line2] at ht
    split at ht
    · rename_i first next rest hl
      cases ht
      rcases Text.mem_join '\n' _ _ hn with hn | ⟨line, hm, hn⟩
      · exact absurd hn (by decide)
      · exact hline line (hl ▸ List.mem_cons_of_mem first hm) hn
    · cases ht
  | _ => exact (hvalue _).trans (by simp [Field.isSingle])

theorem break_mem_printed (a : Address) (ha : a.Trimmed) (t : Token)
    (hl : ∀ text, t = .literal text → '\n' ∉ text) : '\n' ∈ printed a t ↔
      ∃ f, t = .field f.code ∧ f.isSingle = true ∧ f ≠ .country ∧
        ∃ v, a.value f = some v ∧ '\n' ∈ v := by
  cases t with
  | newline => simp [printed, pieces]
  | literal text => simpa [printed, pieces] using hl text rfl
  | field code =>
    rw [printed, pieces]
    cases hf : Field.ofCode code with
    | error e =>
      refine iff_of_false List.not_mem_nil ?_
      rintro ⟨f, hc, -⟩
      cases hc
      rw [Field.ofCode_code] at hf
      cases hf
    | ok f =>
      obtain rfl := Field.code_of_ofCode code f hf
      simp only [Token.field.injEq, Field.code_injective.eq_iff, exists_eq_left']
      exact break_mem_fieldPieces a ha f

theorem mem_printedLines (a : Address) (kept : Template) (c : Char) :
    (∃ line ∈ printedLines (kept.flatMap (pieces a)), c ∈ line) ↔ ∃ t ∈ kept, c ∈ printed a t := by
  rw [← List.mem_flatten, printedLines_flatten, List.flatMap_assoc, List.mem_flatMap]
  rfl

/-- Under a template whose text holds no line break every address is printed, no line is empty,
and the lines are whole unless the template names a broken value. -/
theorem lines_whole_iff (a : Address) (ha : a.Built) (s : Text) (template : Template)
    (h : Template.parseStrict s = .ok template) (hs : '\n' ∉ s) :
    ∃ out, lines a template = .ok out ∧ (∀ line ∈ out, line ≠ []) ∧
      ((∀ line ∈ out, '\n' ∉ line) ↔ ¬Breaks a template) := by
  obtain ⟨ht, hk⟩ := (Template.parseStrict_eq_ok s template).mp h
  have hp := Template.parted_of_tokens? s template ht
  obtain ⟨kept, places, hkept, hsel⟩ :=
    pruneBehind_selects a template hk hp 0 none template rfl (tracks_zero a template)
  have hsub := pruneBehind_sublist a _ none template kept hkept
  have hliteral : ∀ t ∈ kept, ∀ text, t = .literal text → '\n' ∉ text := by
    rintro _ hm text rfl
    exact Template.notMem_literal '\n' s template ht hs text (hsub.subset hm)
  have hlines : ∀ street ∈ a.lines, street ≠ [] := fun street hm =>
    Text.tidy_ne_nil street (ha.trimmed.line street hm).1
  have hrender := renderFrom_eq_printedLines a hlines [] kept (template.known_sublist kept hsub hk)
  rw [printedLines_text_nil] at hrender
  refine ⟨_, (lines_eq_ok a template _).mpr ⟨kept, hkept, hrender⟩, printedLines_ne_nil _, ?_⟩
  rw [← not_iff_not, not_not]
  push Not
  rw [mem_printedLines]
  constructor
  · rintro ⟨t, hm, hn⟩
    obtain ⟨f, rfl, hsingle, hne, v, hv, hin⟩ :=
      (break_mem_printed a ha.trimmed t (hliteral t hm)).mp hn
    exact ⟨f, v, hsub.subset hm, hsingle, hne, hv, hin⟩
  · rintro ⟨f, v, hm, hsingle, hne, hv, hin⟩
    have hpopulated : Populated a f.code := ⟨f, Field.ofCode_code f, by rw [hv]; rfl⟩
    have hmem := hsel.mem_of_populated f.code hm hpopulated
    exact ⟨_, hmem, (break_mem_printed a ha.trimmed _ (hliteral _ hmem)).mpr
      ⟨f, rfl, hsingle, hne, v, hv, hin⟩⟩

end Envelope

theorem Bundled.break_notMem_layouts (record : RegionRecord)
    (h : record = [] ∨ ∃ code, (code, record) ∈ records) (s : Text)
    (hs : s ∈ record.layouts defaultLayout) : '\n' ∉ s := by
  have hrecords : ∀ entry ∈ records, ∀ s ∈ entry.2.layouts defaultLayout,
      s.all (· ≠ '\n') = true := by
    decide +kernel
  rcases h with rfl | ⟨code, hm⟩
  · obtain rfl := List.mem_singleton.mp hs
    decide
  · intro hn
    have hall := List.all_eq_true.mp (hrecords (code, record) hm s hs) '\n' hn
    exact absurd hall (by decide)

namespace Interpreter

theorem break_notMem_format (i : Interpreter) (ht : i.table = .bundled) (script : Script)
    (region s : Text) (hs : i.format script region = .ok s) : '\n' ∉ s := by
  obtain ⟨record, hrecord, hget⟩ := RegionTable.get?_ofRecords Bundled.records region
  change ∀ k, RegionTable.bundled.get? region k = record.text? k at hget
  have hdefault := Bundled.get?_defaultRegion.1
  rw [← ht] at hget hdefault
  obtain ⟨found, hm, hfound⟩ := i.format_mem_layouts script region _ record hget hdefault
  cases hs.symm.trans hfound
  exact Bundled.break_notMem_layouts record hrecord s hm

theorem envelope_eq_ok (i : Interpreter) (a : Address) (s : Text) (template : Template)
    (out : List Text) (hs : i.format (Script.ofLanguage a.language) (regionOf a) = .ok s)
    (ht : Template.parseStrict s = .ok template) (h : Envelope.lines a template = .ok out) :
    i.envelope a = .ok out := by
  have hp : parseFor (regionOf a) s = .ok template := (parseFor_eq_ok _ s template).mpr ht
  refine (bind_eq_ok _ _ _).mpr ⟨s, hs, (bind_eq_ok _ _ _).mpr ⟨template, hp, ?_⟩⟩
  exact (mapError_eq_ok _ _ _).mpr h

/-- Over the bundled table every address is printed, and no line is empty. The lines are whole
exactly unless a value that the layout of the address names holds a line break, the street and
the country apart. -/
theorem bundled_lines_whole_iff (edits : List FormOptions.Edit) (a : Address) (ha : a.Built) :
    ∃ i s template out, build .bundled (FormOptions.run edits {}) = .ok i ∧
      i.format (Script.ofLanguage a.language) (regionOf a) = .ok s ∧
      Template.parseStrict s = .ok template ∧ i.envelope a = .ok out ∧
      (∀ line ∈ out, line ≠ []) ∧
      ((∀ line ∈ out, '\n' ∉ line) ↔ ¬Envelope.Breaks a template) := by
  refine ⟨⟨.bundled, FormOptions.run edits {}⟩, ?_⟩
  generalize hi : (⟨.bundled, FormOptions.run edits {}⟩ : Interpreter) = i
  have htable : i.table = .bundled := by rw [← hi]
  obtain ⟨s, hs, template, ht, -⟩ :=
    completable_of_bundled i htable (Script.ofLanguage a.language) (regionOf a)
  obtain ⟨out, hout, hne, hiff⟩ := Envelope.lines_whole_iff a ha s template ht
    (i.break_notMem_format htable _ _ s hs)
  refine ⟨s, template, out, ?_, hs, ht, i.envelope_eq_ok a s template out hs ht hout, hne, hiff⟩
  rw [build, Bundled.get?_defaultRegion.1, ← hi]

theorem bundled_lines_whole_iff_street :
    ∃ a : Address, a.Built ∧ a.value .country = some "US".toList ∧
      a.value .streetAddress = some "1098 Alta Ave\nApt 2".toList ∧
      ∃ i out, build .bundled {} = .ok i ∧ i.envelope a = .ok out ∧
        out = ["1098 Alta Ave".toList, "Apt 2".toList, "Mountain View".toList] ∧
        (∀ line ∈ out, line ≠ []) ∧ ∀ line ∈ out, '\n' ∉ line := by
  have ha := Address.Built.drafted [.single .country "US".toList,
    .street "1098 Alta Ave\nApt 2".toList, .single .locality "Mountain View".toList] (by simp)
  obtain ⟨i, s, template, out, hi, hs, ht, hout, hne, hiff⟩ := bundled_lines_whole_iff [] _ ha
  obtain ⟨rfl, -⟩ := build_eq_ok _ _ i hi
  cases hs.symm.trans (format_unitedStates _)
  cases ht
  cases hout.symm.trans (envelope_eq_ok _ _ _ _ _ hs rfl rfl)
  refine ⟨_, ha, rfl, rfl, _, _, hi, hout, rfl, hne, hiff.mpr ?_⟩
  rintro ⟨f, t, -, hsingle, -, hv, hn⟩
  cases f <;> cases hsingle <;> cases hv <;> exact absurd hn (by decide)

/-- A locality of two parts makes one line that holds a break. -/
theorem exists_line_broken :
    ∃ a : Address, a.Built ∧ a.value .locality = some "Mountain\nView".toList ∧
      ∃ i, build .bundled {} = .ok i ∧
        i.envelope a = .ok ["1098 Alta Ave".toList, "Mountain\nView, CA".toList] ∧
        '\n' ∈ "Mountain\nView, CA".toList := by
  have ha := Address.Built.drafted [.single .country "US".toList, .street "1098 Alta Ave".toList,
    .single .locality "Mountain\nView".toList, .single .adminArea "CA".toList] (by simp)
  refine ⟨_, ha, rfl, ⟨.bundled, {}⟩, by rw [build, Bundled.get?_defaultRegion.1], ?_, by decide⟩
  exact envelope_eq_ok _ _ _ _ _ (format_unitedStates _) rfl rfl

end Interpreter
end Postal
