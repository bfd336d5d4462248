import Postal.Proofs.Address.Copies

/-!
# Writing a value back

A field of an address is read and the value written into a draft of the same
address. Reading the second line folds all further lines into it, but writing
it sets that line alone. So writing back changes nothing, except that the second
line of three or more then holds the further lines twice.
-/

set_option autoImplicit false

namespace Postal

open Text (Tidy)

/-- The fields that show the same part of an address. The street lines have three. -/
def Field.Aliases (f g : Field) : Prop := f = g ∨ f.isSingle = false ∧ g.isSingle = false

instance (f g : Field) : Decidable (f.Aliases g) := inferInstanceAs (Decidable (_ ∨ _))

/-- The address built after a field's own value was written to it. -/
def Address.writeBack (a : Address) (f : Field) : Address :=
  ((Draft.copyOf a).set f (a.value f)).build

theorem Text.tidy_join (sep piece : Text) (pieces : List Text)
    (h : ∀ t ∈ piece :: pieces, Tidy t) : Tidy (Text.join sep (piece :: pieces)) := by
  obtain ⟨last, hm, before, hl⟩ := exists_suffix_join sep piece pieces
  have hpiece := h piece List.mem_cons_self
  have hlast := h last hm
  constructor
  · obtain ⟨c, more, rfl⟩ := List.exists_cons_of_ne_nil (tidy_ne_nil piece hpiece)
    rw [join_cons]
    exact hpiece.1
  · rw [← hl, List.getLast?_append_of_ne_nil before (tidy_ne_nil last hlast)]
    exact hlast.2

theorem Text.finished_join (sep piece : Text) (pieces : List Text) (hsep : '\n' ∉ sep)
    (h : ∀ t ∈ piece :: pieces, Tidy t ∧ '\n' ∉ t) :
    Tidy (Text.join sep (piece :: pieces)) ∧ '\n' ∉ Text.join sep (piece :: pieces) := by
  constructor
  · exact tidy_join sep piece pieces fun t ht => (h t ht).1
  · intro hn
    rcases mem_join '\n' sep _ hn with hn | ⟨t, ht, hn⟩
    · exact hsep hn
    · exact (h t ht).2 hn

namespace Draft

variable {a : Address}

theorem set_single_value (h : a.Trimmed) (f : Field) (hf : f.isSingle = true) :
    (copyOf a).set f (a.value f) = copyOf a := by
  rw [a.value_of_single f hf, set_of_single _ f _ hf, setSingle, bind_trimmed? _ (h.value f)]
  simp only [copyOf_eq, SingleValues.set_get_self]

theorem setSlot_tidy (d : Draft) (index : ℕ) (t : Text) (h : Tidy t) :
    d.setSlot index (some t) = { d with slots := fillSlot index t d.slots } := by
  rw [setSlot, Text.trimmed?_of_tidy t h]
  rfl

theorem fillSlot_self (index : ℕ) (t : Text) (slots : List (Option Text))
    (h : slots[index]? = some (some t)) : fillSlot index t slots = slots := by
  induction slots generalizing index with
  | nil => cases h
  | cons slot slots ih =>
    cases index with
    | zero =>
      have hslot : slot = some t := by simpa using h
      rw [fillSlot, hslot]
    | succ index => rw [fillSlot, ih index (by simpa using h)]

theorem clearSlot_of_length_le (index : ℕ) (slots : List (Option Text))
    (h : slots.length ≤ index) : clearSlot index slots = slots := by
  rw [clearSlot, if_neg (by omega), if_neg (by omega)]

theorem setSlot_line (h : a.Trimmed) (index : ℕ) :
    (copyOf a).setSlot index a.lines[index]? = copyOf a := by
  cases hline : a.lines[index]? with
  | none =>
    have hlength : (copyOf a).slots.length ≤ index := by
      simpa [copyOf_eq] using List.getElem?_eq_none_iff.mp hline
    rw [setSlot, clearSlot_of_length_le index _ hlength]
  | some line =>
    have htidy : Tidy line := (h.line line (List.mem_of_getElem? hline)).1
    have hslot : (copyOf a).slots[index]? = some (some line) := by
      rw [copyOf_eq, List.getElem?_map, hline]
      rfl
    rw [setSlot_tidy _ index line htidy, fillSlot_self index line _ hslot]

theorem set_line1_value (h : a.Trimmed) :
    (copyOf a).set .addressLine1 (a.value .addressLine1) = copyOf a := by
  have hvalue : a.value .addressLine1 = a.lines[0]? := List.head?_eq_getElem?
  rw [hvalue]
  exact setSlot_line h 0

theorem set_line2_value (h : a.Trimmed) (hl : a.lines.length ≤ 2) :
    (copyOf a).set .addressLine2 (a.value .addressLine2) = copyOf a := by
  have hvalue : a.value .addressLine2 = a.lines[1]? := by
    rw [Address.value, Address.line2]
    rcases hlines : a.lines with _ | ⟨first, _ | ⟨second, _ | ⟨third, rest⟩⟩⟩
    · rfl
    · rfl
    · rfl
    · simp [hlines] at hl
  rw [hvalue]
  exact setSlot_line h 1

end Draft

namespace Address

theorem writeBack_eq_self (a : Address) (h : a.Trimmed) (f : Field)
    (hf : f = .addressLine2 → a.lines.length ≤ 2) : a.writeBack f = a := by
  have hcopy := Draft.build_copyOf a h
  rw [writeBack]
  by_cases hs : f.isSingle = true
  · rw [Draft.set_single_value h f hs, hcopy]
  · cases f with
    | streetAddress => rw [Draft.build_set_street _ a h, hcopy]
    | addressLine1 => rw [Draft.set_line1_value h, hcopy]
    | addressLine2 => rw [Draft.set_line2_value h (hf rfl), hcopy]
    | _ => exact absurd rfl hs

theorem writeBack_line2 (a : Address) (h : a.Trimmed) (first second third : Text)
    (rest : List Text) (hl : a.lines = first :: second :: third :: rest) :
    a.writeBack .addressLine2 =
      { a with lines := first :: Text.join ", ".toList (second :: third :: rest) ::
        third :: rest } := by
  have hline : ∀ line ∈ first :: second :: third :: rest, Tidy line ∧ '\n' ∉ line := hl ▸ h.line
  obtain ⟨hfirst, hfolded⟩ := List.forall_mem_cons.mp hline
  obtain ⟨-, hfurther⟩ := List.forall_mem_cons.mp hfolded
  have hvalue : a.value .addressLine2 =
      some (Text.join ", ".toList (second :: third :: rest)) := by
    rw [value, line2, hl]
  obtain ⟨htidy, hbreak⟩ :=
    Text.finished_join ", ".toList second (third :: rest) (by decide) hfolded
  rw [writeBack, hvalue]
  generalize Text.join ", ".toList (second :: third :: rest) = joined at htidy hbreak
  have hset : (Draft.copyOf a).set .addressLine2 (some joined) =
      Draft.copyOf { a with lines := first :: joined :: third :: rest } := by
    rw [Draft.set, Draft.setSlot_tidy _ 1 joined htidy, Draft.copyOf_eq, Draft.copyOf_eq, hl]
    rfl
  rw [hset]
  apply Draft.build_copyOf
  refine ⟨h.value, h.language, fun line hm => ?_⟩
  rcases List.mem_cons.mp hm with rfl | hm
  · exact hfirst
  · rcases List.mem_cons.mp hm with rfl | hm
    · exact ⟨htidy, hbreak⟩
    · exact hfurther line hm

theorem exists_three_lines (lines : List Text) (h : ¬lines.length ≤ 2) :
    ∃ first second third rest, lines = first :: second :: third :: rest := by
  rcases lines with _ | ⟨first, _ | ⟨second, _ | ⟨third, rest⟩⟩⟩
  · simp at h
  · simp at h
  · simp at h
  · exact ⟨first, second, third, rest, rfl⟩

theorem value_writeBack_line2_ne (a : Address) (h : a.Trimmed) (hl : ¬a.lines.length ≤ 2) :
    (a.writeBack .addressLine2).value .addressLine2 ≠ a.value .addressLine2 := by
  obtain ⟨first, second, third, rest, hlines⟩ := exists_three_lines a.lines hl
  have hread : a.value .addressLine2 =
      some (Text.join ", ".toList (second :: third :: rest)) := by
    rw [value, line2, hlines]
  rw [writeBack_line2 a h first second third rest hlines, hread]
  intro he
  have hlength := congrArg List.length (Option.some.inj he)
  simp [Text.join] at hlength

theorem exists_writeBack_eq (a : Address) (h : a.Trimmed) (f : Field) :
    a.writeBack f = a ∨ f = .addressLine2 ∧ ∃ lines, a.writeBack f = { a with lines := lines } := by
  by_cases hf : f = .addressLine2 → a.lines.length ≤ 2
  · exact .inl (writeBack_eq_self a h f hf)
  · obtain ⟨rfl, hl⟩ := Classical.not_imp.mp hf
    obtain ⟨first, second, third, rest, hlines⟩ := exists_three_lines a.lines hl
    exact .inr ⟨rfl, _, writeBack_line2 a h first second third rest hlines⟩

theorem value_writeBack_of_not_aliases (a : Address) (h : a.Trimmed) (f g : Field)
    (hg : ¬f.Aliases g) : (a.writeBack f).value g = a.value g := by
  rcases exists_writeBack_eq a h f with hw | ⟨rfl, lines, hw⟩
  · rw [hw]
  · rw [hw]
    cases g <;> first | rfl | exact absurd (by decide) hg

theorem language_writeBack (a : Address) (h : a.Trimmed) (f : Field) :
    (a.writeBack f).language = a.language := by
  rcases exists_writeBack_eq a h f with hw | ⟨-, lines, hw⟩ <;> rw [hw]

/-- Writing back the value of a field leaves every field that is no alias of it and the language
as they are. The field itself keeps its value, and then so does everything else, unless it is
the second line of three or more: this then holds the further lines, which stay behind it. -/
theorem value_writeBack (a : Address) (h : a.Built) (f : Field) :
    (∀ g, ¬f.Aliases g → (a.writeBack f).value g = a.value g) ∧
      (a.writeBack f).language = a.language ∧
      ((a.writeBack f).value f = a.value f ↔ (f = .addressLine2 → a.lines.length ≤ 2)) ∧
      ((f = .addressLine2 → a.lines.length ≤ 2) → a.writeBack f = a) ∧
      ∀ first second third rest, f = .addressLine2 →
        a.lines = first :: second :: third :: rest →
        a.writeBack f =
          { a with lines := first :: Text.join ", ".toList (second :: third :: rest) ::
            third :: rest } := by
  have ht := h.trimmed
  refine ⟨fun g => value_writeBack_of_not_aliases a ht f g, language_writeBack a ht f,
    ⟨fun hv hf => ?_, fun hf => ?_⟩, writeBack_eq_self a ht f, ?_⟩
  · subst hf
    by_contra hl
    exact value_writeBack_line2_ne a ht hl hv
  · rw [writeBack_eq_self a ht f hf]
  · rintro first second third rest rfl hl
    exact writeBack_line2 a ht first second third rest hl

theorem value_writeBack_three_lines :
    ∃ a b : Address, a.Built ∧ a.lines = [['1'], ['2']] ∧ a.writeBack .addressLine2 = a ∧
      b.Built ∧ b.lines = [['1'], ['2'], ['3']] ∧ b.writeBack .streetAddress = b ∧
      (b.writeBack .addressLine2).lines = [['1'], "2, 3".toList, ['3']] ∧
      (b.writeBack .addressLine2).value .addressLine2 ≠ b.value .addressLine2 ∧
      (b.writeBack .addressLine2).value .recipient = b.value .recipient := by
  have ha := Built.drafted [.street "1\n 2".toList] (by simp)
  have hb := Built.drafted [.single .recipient " R".toList, .street "1\n 2".toList,
    .addLine "\n3".toList] (by simp)
  obtain ⟨-, -, -, hsame, -⟩ := value_writeBack _ ha .addressLine2
  obtain ⟨-, -, -, hstreet, -⟩ := value_writeBack _ hb .streetAddress
  obtain ⟨hothers, -, hvalue, -, hlines⟩ := value_writeBack _ hb .addressLine2
  refine ⟨_, _, ha, rfl, hsame fun _ => by decide, hb, rfl, hstreet (by simp), ?_, ?_,
    hothers .recipient (by decide)⟩
  · rw [hlines ['1'] ['2'] ['3'] [] rfl rfl]
    rfl
  · exact fun he => absurd (hvalue.mp he rfl) (by decide)

/-- A form that loads three lines and saves them unchanged writes the third one twice. -/
theorem exists_writeBack_ne :
    ∃ a : Address, a.Built ∧
      a.lines = ["1 Main St".toList, "Apt 2".toList, "Floor 3".toList] ∧
      a.value .addressLine2 = some "Apt 2, Floor 3".toList ∧
      (a.writeBack .addressLine2).value .addressLine2 =
        some "Apt 2, Floor 3, Floor 3".toList ∧
      (a.writeBack .addressLine2).value .addressLine2 ≠ a.value .addressLine2 := by
  have ha := Built.drafted [.lines ["1 Main St".toList, "Apt 2".toList, "Floor 3".toList]]
    (by simp)
  exact ⟨_, ha, rfl, rfl, by decide, by decide⟩

end Address
end Postal
