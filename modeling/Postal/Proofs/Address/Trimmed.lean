import Postal.Address.Record
import Postal.Proofs.Text.Splitting
import Postal.Proofs.Text.Trimming

/-!
# Addresses hold trimmed texts

However an address is put together, none of its texts is empty or has a blank
at an end, and no street line holds a line break. Single values and the
language owe this to the edits of a draft: each trims what it writes or takes
it over from a finished address. Street lines stay raw in a draft and owe it
to building alone.
-/

set_option autoImplicit false

namespace Postal

open Text (Tidy)

structure Address.Trimmed (a : Address) : Prop where
  value : ∀ f t, a.values.get f = some t → Tidy t
  language : ∀ tag, a.language = some tag → Tidy tag
  line : ∀ line ∈ a.lines, Tidy line ∧ '\n' ∉ line

namespace Draft

/-- Nothing is said about the slots, which hold what was written. -/
structure Trimmed (d : Draft) : Prop where
  value : ∀ f t, d.values.get f = some t → Tidy t
  language : ∀ tag, d.language = some tag → Tidy tag

theorem trimmed_empty : Trimmed {} where
  value f t h := by cases f <;> cases h
  language tag h := by cases h

theorem trimmed_build (d : Draft) (h : d.Trimmed) : d.build.Trimmed where
  value := h.value
  language := h.language
  line line hl := by
    obtain ⟨raw, -, hl⟩ := List.mem_flatMap.mp hl
    obtain ⟨piece, hp, ht⟩ := List.mem_filterMap.mp hl
    constructor
    · exact Text.tidy_of_trimmed? piece line ht
    · intro hn
      have hpiece : '\n' ∈ piece := (Text.trimmed?_infix piece line ht).subset hn
      exact Text.notMem_of_mem_splitOn '\n' raw piece hp hpiece

theorem trimmed_copyOf (a : Address) (h : a.Trimmed) : (copyOf a).Trimmed := by
  rw [copyOf_eq]
  exact ⟨h.value, h.language⟩

theorem trimmed_setSingle (d : Draft) (f : Field) (v : Option Text) (h : d.Trimmed) :
    (d.setSingle f v).Trimmed where
  language := h.language
  value g t hg := by
    by_cases he : f = g
    · subst he
      by_cases hs : f.isSingle = true
      · rw [setSingle, SingleValues.get_set_self _ f _ hs] at hg
        obtain ⟨raw, -, ht⟩ := Option.bind_eq_some_iff.mp hg
        exact Text.tidy_of_trimmed? raw t ht
      · rw [SingleValues.get_of_not_single _ f (by simpa using hs)] at hg
        cases hg
    · rw [setSingle, SingleValues.get_set_of_ne _ f g _ he] at hg
      exact h.value g t hg

theorem trimmed_setLanguage (d : Draft) (tag : Text) (h : d.Trimmed) :
    (d.setLanguage tag).Trimmed where
  value := h.value
  language kept hk := Text.tidy_of_trimmed? tag kept hk

theorem exists_setSlot_eq (d : Draft) (index : ℕ) (v : Option Text) :
    ∃ slots, d.setSlot index v = { d with slots := slots } := by
  cases v with
  | none => exact ⟨_, rfl⟩
  | some raw =>
    rw [setSlot]
    split <;> exact ⟨_, rfl⟩

theorem trimmed_setSlot (d : Draft) (index : ℕ) (v : Option Text) (h : d.Trimmed) :
    (d.setSlot index v).Trimmed := by
  obtain ⟨slots, hs⟩ := exists_setSlot_eq d index v
  rw [hs]
  exact ⟨h.value, h.language⟩

theorem trimmed_set (d : Draft) (f : Field) (v : Option Text) (h : d.Trimmed) :
    (d.set f v).Trimmed := by
  cases f with
  | streetAddress => cases v <;> exact ⟨h.value, h.language⟩
  | addressLine1 => exact trimmed_setSlot d 0 v h
  | addressLine2 => exact trimmed_setSlot d 1 v h
  | _ => exact trimmed_setSingle d _ v h

theorem trimmed_apply (d : Draft) (edit : Edit) (h : d.Trimmed)
    (hc : ∀ a, edit = .copy a → a.Trimmed) : (d.apply edit).Trimmed := by
  cases edit with
  | single f v =>
    rw [apply_single]
    exact trimmed_setSingle d f (some v) h
  | set f v => exact trimmed_set d f v h
  | language tag => exact trimmed_setLanguage d tag h
  | clearLanguage => exact ⟨h.value, fun tag ht => by cases ht⟩
  | lines lines => exact ⟨h.value, h.language⟩
  | addLine line => exact ⟨h.value, h.language⟩
  | street v => exact ⟨h.value, h.language⟩
  | line1 v => exact trimmed_setSlot d 0 v h
  | line2 v => exact trimmed_setSlot d 1 v h
  | copy a => exact trimmed_copyOf a (hc a rfl)
  | rebuild => exact trimmed_copyOf d.build (trimmed_build d h)

theorem trimmed_run (edits : List Edit) (d : Draft) (h : d.Trimmed)
    (hc : ∀ a, .copy a ∈ edits → a.Trimmed) : (run edits d).Trimmed := by
  induction edits generalizing d with
  | nil => exact h
  | cons edit edits ih =>
    apply ih (d.apply edit)
    · exact trimmed_apply d edit h fun a he => hc a (he ▸ List.mem_cons_self)
    · exact fun a ha => hc a (List.mem_cons_of_mem edit ha)

end Draft

namespace AddressRecord

def edits (r : AddressRecord) : List Draft.Edit :=
  singles.map (fun f => .set f (r.values.get f)) ++ r.language.toList.map .language ++
    [.lines r.lines]

theorem draft_eq_run (r : AddressRecord) : r.draft = Draft.run r.edits {} := by
  have hs : Draft.run (singles.map fun f => .set f (r.values.get f)) {} =
      singles.foldl (fun d f => d.set f (r.values.get f)) {} := List.foldl_map
  rw [edits, Draft.run_append, Draft.run_append, hs, draft]
  cases r.language <;> rfl

theorem copy_notMem_edits (r : AddressRecord) (a : Address) : .copy a ∉ r.edits := by
  simp [edits]

theorem trimmed_address (r : AddressRecord) : r.address.Trimmed := by
  apply Draft.trimmed_build
  rw [draft_eq_run]
  apply Draft.trimmed_run _ _ Draft.trimmed_empty
  exact fun a ha => absurd ha (copy_notMem_edits r a)

end AddressRecord

/-- The addresses there are: those built after a run of edits, which may copy only
such addresses, and those made from records. -/
inductive Address.Built : Address → Prop
  | drafted (edits : List Draft.Edit) (copies : ∀ a, .copy a ∈ edits → Built a) :
      Built (Draft.run edits {}).build
  | recorded (r : AddressRecord) : Built r.address

namespace Address

theorem Built.trimmed {a : Address} (h : a.Built) : a.Trimmed := by
  induction h with
  | drafted edits _ ih =>
    exact Draft.trimmed_build _ (Draft.trimmed_run edits {} Draft.trimmed_empty ih)
  | recorded r => exact r.trimmed_address

/-- No text of an address is empty or begins or ends with a blank, and no street line
holds a line break. -/
theorem texts_of_built (a : Address) (h : a.Built) :
    (∀ f t, f.isSingle = true → a.value f = some t → t ≠ [] ∧ Tidy t) ∧
      (∀ tag, a.language = some tag → tag ≠ [] ∧ Tidy tag) ∧
      ∀ line ∈ a.lines, line ≠ [] ∧ Tidy line ∧ '\n' ∉ line := by
  have ht := h.trimmed
  refine ⟨fun f t hs hv => ?_, fun tag hl => ?_, fun line hl => ?_⟩
  · have hget : a.values.get f = some t := by
      cases f <;> first | exact hv | cases hs
    have hf := ht.value f t hget
    exact ⟨Text.tidy_ne_nil t hf, hf⟩
  · have hf := ht.language tag hl
    exact ⟨Text.tidy_ne_nil tag hf, hf⟩
  · obtain ⟨hf, hn⟩ := ht.line line hl
    exact ⟨Text.tidy_ne_nil line hf, hf, hn⟩

theorem texts_of_built_copy :
    ∃ a b : Address, a.Built ∧ a.lines = ["Via A".toList, "3".toList] ∧ b.Built ∧
      b.value .locality = some "Rome".toList ∧
      b.lines = ["3".toList, "Flat".toList, "B c".toList] ∧
      (∀ t, b.value .locality = some t → t ≠ [] ∧ Tidy t) ∧
      ∀ line ∈ b.lines, line ≠ [] ∧ Tidy line ∧ '\n' ∉ line := by
  have ha := Built.drafted [.single .locality " Rome\t".toList,
    .street " Via A \n \n3".toList] (by simp)
  have hb := Built.drafted [.language "it".toList, .copy _, .line1 none,
    .addLine "\tFlat\nB c\n ".toList, .rebuild] (by simpa using ha)
  obtain ⟨hv, -, hl⟩ := texts_of_built _ hb
  exact ⟨_, _, ha, rfl, hb, rfl, rfl, fun t => hv .locality t rfl, hl⟩

end Address
end Postal
