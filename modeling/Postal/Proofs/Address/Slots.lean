import Mathlib.Data.List.Basic
import Mathlib.Data.List.Range
import Postal.Address.Draft
import Postal.Proofs.Text.Trimming

/-!
# Slots of a draft

The street lines of a draft are a function from slot numbers to texts that is
empty from some number on, kept as a list that ends in a filled slot. Each
edit changes the function at the slots it names and restores the form of the
list, so equal functions are equal lists, and the next line goes behind the
last one that is filled.
-/

set_option autoImplicit false

namespace Postal

abbrev Slots := ℕ → Option Text

namespace Slots

def empty : Slots := fun _ => none

def ofTexts (texts : List Text) : Slots := fun n => texts[n]?

def write (f : Slots) (index : ℕ) (text : Option Text) : Slots :=
  fun n => if n = index then text else f n

structure EndsAt (f : Slots) (size : ℕ) : Prop where
  beyond : ∀ n, size ≤ n → f n = none
  last : ∀ n, n + 1 = size → f n ≠ none

theorem EndsAt.unique {f : Slots} {m n : ℕ} (hm : f.EndsAt m) (hn : f.EndsAt n) : m = n := by
  rcases Nat.lt_trichotomy m n with h | h | h
  · obtain ⟨k, rfl⟩ := Nat.exists_eq_add_of_lt h
    exact absurd (hm.beyond (m + k) (by omega)) (hn.last _ rfl)
  · exact h
  · obtain ⟨k, rfl⟩ := Nat.exists_eq_add_of_lt h
    exact absurd (hn.beyond (n + k) (by omega)) (hm.last _ rfl)

/-- The filled slots below `size` in order, cut at line breaks, trimmed, without the blank
pieces. -/
def lines (f : Slots) (size : ℕ) : List Text :=
  ((List.range size).filterMap f).flatMap fun raw =>
    (Text.splitOn '\n' raw).filterMap Text.trimmed?

def filling (value : Option Text) : Option Text :=
  value.filter fun raw => raw.any fun c => !Text.isBlank c

def Step : Draft.Edit → Slots → Slots → Prop
  | .lines texts, _, g => g = ofTexts texts
  | .addLine line, f, g => ∃ size, f.EndsAt size ∧ g = f.write size (some line)
  | .street text, _, g => g = ofTexts [text]
  | .set .streetAddress value, _, g => g = ofTexts value.toList
  | .line1 value, f, g => g = f.write 0 (filling value)
  | .set .addressLine1 value, f, g => g = f.write 0 (filling value)
  | .line2 value, f, g => g = f.write 1 (filling value)
  | .set .addressLine2 value, f, g => g = f.write 1 (filling value)
  | .copy a, _, g => g = ofTexts a.lines
  | .rebuild, f, g => ∃ size, f.EndsAt size ∧ g = ofTexts (f.lines size)
  | .set _ _, f, g => g = f
  | .single _ _, f, g => g = f
  | .language _, f, g => g = f
  | .clearLanguage, f, g => g = f

theorem Step.unique {edit : Draft.Edit} {f g h : Slots} (hg : Step edit f g)
    (hh : Step edit f h) : g = h := by
  cases edit with
  | addLine line =>
    obtain ⟨m, hm, rfl⟩ := hg
    obtain ⟨n, hn, rfl⟩ := hh
    rw [hm.unique hn]
  | rebuild =>
    obtain ⟨m, hm, rfl⟩ := hg
    obtain ⟨n, hn, rfl⟩ := hh
    rw [hm.unique hn]
  | set f v => cases f <;> exact hg.trans hh.symm
  | _ => exact hg.trans hh.symm

inductive Run : List Draft.Edit → Slots → Slots → Prop where
  | nil (f : Slots) : Run [] f f
  | cons (edit : Draft.Edit) (edits : List Draft.Edit) (f g h : Slots) (first : Step edit f g)
    (rest : Run edits g h) : Run (edit :: edits) f h

theorem Run.unique {edits : List Draft.Edit} {f g h : Slots} (hg : Run edits f g)
    (hh : Run edits f h) : g = h := by
  induction hg with
  | nil f => cases hh; rfl
  | cons edit edits f next g first rest ih =>
    cases hh with
    | cons _ _ _ other _ first' rest' =>
      obtain rfl := first.unique first'
      exact ih rest'

end Slots

def slotsOf (slots : List (Option Text)) : Slots := fun n => slots[n]?.join

/-- The list does not end in an empty slot. -/
def Closed (slots : List (Option Text)) : Prop := slots.getLast? ≠ some none

theorem slotsOf_of_length_le (slots : List (Option Text)) (n : ℕ) (h : slots.length ≤ n) :
    slotsOf slots n = none := by
  rw [slotsOf, List.getElem?_eq_none h]
  rfl

theorem slotsOf_getElem (slots : List (Option Text)) (n : ℕ) (h : n < slots.length) :
    slotsOf slots n = slots[n] := by
  rw [slotsOf, List.getElem?_eq_getElem h]
  rfl

theorem slotsOf_map_some (texts : List Text) : slotsOf (texts.map some) = Slots.ofTexts texts := by
  funext n
  rw [slotsOf, List.getElem?_map, Slots.ofTexts]
  cases texts[n]? <;> rfl

theorem closed_iff_endsAt (slots : List (Option Text)) :
    Closed slots ↔ (slotsOf slots).EndsAt slots.length := by
  constructor
  · intro h
    refine ⟨slotsOf_of_length_le slots, ?_⟩
    intro n hn he
    apply h
    rw [slotsOf_getElem slots n (by omega)] at he
    rw [List.getLast?_eq_getElem?, ← hn, Nat.add_sub_cancel, List.getElem?_eq_getElem (by omega),
      he]
  · intro h hlast
    rw [List.getLast?_eq_getElem?] at hlast
    obtain ⟨hlt, he⟩ := List.getElem?_eq_some_iff.mp hlast
    refine h.last (slots.length - 1) (by omega) ?_
    rw [slotsOf_getElem slots _ hlt, he]

theorem eq_of_slotsOf_eq (slots others : List (Option Text)) (h : Closed slots)
    (ho : Closed others) (he : slotsOf slots = slotsOf others) : slots = others := by
  have hends := (closed_iff_endsAt slots).mp h
  rw [he] at hends
  have hlength := hends.unique ((closed_iff_endsAt others).mp ho)
  refine List.ext_getElem hlength fun n hn hm => ?_
  rw [← slotsOf_getElem slots n hn, ← slotsOf_getElem others n hm, he]

/-! ## Writing and clearing -/

theorem slotsOf_cons_succ (slot : Option Text) (slots : List (Option Text)) (n : ℕ) :
    slotsOf (slot :: slots) (n + 1) = slotsOf slots n := rfl

theorem slotsOf_fillSlot (index : ℕ) (text : Text) (slots : List (Option Text)) :
    slotsOf (fillSlot index text slots) = (slotsOf slots).write index (some text) := by
  funext n
  rw [Slots.write]
  fun_induction fillSlot index text slots generalizing n with
  | case1 => cases n <;> rfl
  | case2 slot rest => cases n <;> rfl
  | case3 index ih =>
    cases n with
    | zero => rfl
    | succ n =>
      rw [slotsOf_cons_succ, ih]
      simp [slotsOf]
  | case4 index slot rest ih =>
    cases n with
    | zero => rfl
    | succ n =>
      rw [slotsOf_cons_succ, ih, slotsOf_cons_succ]
      simp

theorem fillSlot_ne_nil (index : ℕ) (text : Text) (slots : List (Option Text)) :
    fillSlot index text slots ≠ [] := by
  cases index <;> cases slots <;> exact List.cons_ne_nil _ _

theorem closed_nil : Closed [] := by
  simp [Closed]

theorem closed_cons (slot : Option Text) (slots : List (Option Text)) :
    Closed (slot :: slots) ↔ Closed slots ∧ (slots = [] → slot ≠ none) := by
  cases slots with
  | nil => simp [Closed]
  | cons next slots => simp [Closed, List.getLast?_cons_cons]

theorem closed_fillSlot (index : ℕ) (text : Text) (slots : List (Option Text))
    (h : Closed slots) : Closed (fillSlot index text slots) := by
  fun_induction fillSlot index text slots with
  | case1 => simp [Closed]
  | case2 slot rest =>
    exact (closed_cons _ rest).mpr ⟨((closed_cons slot rest).mp h).1, fun _ => by simp⟩
  | case3 index ih =>
    exact (closed_cons _ _).mpr ⟨ih closed_nil, fun he => absurd he (fillSlot_ne_nil _ _ _)⟩
  | case4 index slot rest ih =>
    have hrest := ih ((closed_cons slot rest).mp h).1
    exact (closed_cons _ _).mpr ⟨hrest, fun he => absurd he (fillSlot_ne_nil _ _ _)⟩

theorem slotsOf_dropEmptySlots (slots : List (Option Text)) :
    slotsOf (dropEmptySlots slots) = slotsOf slots := by
  funext n
  fun_induction dropEmptySlots slots generalizing n with
  | case1 => rfl
  | case2 slot slots hkept hs ih =>
    rw [hkept] at ih
    cases n with
    | zero => rfl
    | succ n => exact ih n
  | case3 slot slots hkept hs ih =>
    rw [hkept] at ih
    cases n with
    | zero => exact (Option.not_isSome_iff_eq_none.mp hs).symm
    | succ n => exact ih n
  | case4 slot slots next kept hkept ih =>
    rw [hkept] at ih
    cases n with
    | zero => rfl
    | succ n => exact ih n

theorem closed_dropEmptySlots (slots : List (Option Text)) : Closed (dropEmptySlots slots) := by
  fun_induction dropEmptySlots slots with
  | case1 => exact closed_nil
  | case2 slot slots hkept hs ih =>
    exact (closed_cons slot []).mpr ⟨closed_nil, fun _ => Option.isSome_iff_ne_none.mp hs⟩
  | case3 slot slots hkept hs ih => exact closed_nil
  | case4 slot slots next kept hkept ih =>
    rw [hkept] at ih
    exact (closed_cons slot _).mpr ⟨ih, fun he => absurd he (List.cons_ne_nil _ _)⟩

theorem slotsOf_set (slots : List (Option Text)) (index : ℕ) (h : index < slots.length) :
    slotsOf (slots.set index none) = (slotsOf slots).write index none := by
  funext n
  rw [slotsOf, List.getElem?_set, Slots.write]
  by_cases hn : n = index
  · simp [hn, h]
  · rw [if_neg (Ne.symm hn), if_neg hn, slotsOf]

theorem slotsOf_dropLast (slots : List (Option Text)) (index : ℕ) (h : index + 1 = slots.length) :
    slotsOf slots.dropLast = (slotsOf slots).write index none := by
  funext n
  rw [slotsOf, List.getElem?_dropLast, Slots.write]
  by_cases hn : n = index
  · rw [if_neg (by omega), if_pos hn]
    rfl
  · rw [if_neg hn]
    by_cases hlt : n < index
    · rw [if_pos (by omega), slotsOf]
    · rw [if_neg (by omega), slotsOf_of_length_le slots n (by omega)]
      rfl

theorem slotsOf_clearSlot (index : ℕ) (slots : List (Option Text)) :
    slotsOf (clearSlot index slots) = (slotsOf slots).write index none := by
  unfold clearSlot
  split
  · rename_i h
    exact slotsOf_set slots index (by omega)
  · split
    · rename_i h
      rw [slotsOf_dropEmptySlots, slotsOf_dropLast slots index h]
    · funext n
      rw [Slots.write]
      split
      · rename_i hn
        exact slotsOf_of_length_le slots n (by omega)
      · rfl

theorem closed_clearSlot (index : ℕ) (slots : List (Option Text)) (h : Closed slots) :
    Closed (clearSlot index slots) := by
  unfold clearSlot
  split
  · -- The slot is not the last, which stays as it is.
    rename_i hlt
    have hends := (closed_iff_endsAt slots).mp h
    rw [closed_iff_endsAt, List.length_set, slotsOf_set slots index (by omega)]
    constructor
    · intro n hn
      rw [Slots.write, if_neg (by omega), hends.beyond n hn]
    · intro n hn
      rw [Slots.write, if_neg (by omega)]
      exact hends.last n hn
  · split
    · exact closed_dropEmptySlots _
    · exact h

theorem slotsOf_append (slots : List (Option Text)) (text : Text) :
    slotsOf (slots ++ [some text]) = (slotsOf slots).write slots.length (some text) := by
  funext n
  rw [Slots.write]
  rcases Nat.lt_trichotomy n slots.length with h | h | h
  · rw [if_neg (by omega), slotsOf, List.getElem?_append_left h, slotsOf]
  · rw [if_pos h, slotsOf, h, List.getElem?_concat_length]
    rfl
  · rw [if_neg (by omega), slotsOf_of_length_le slots n (by omega)]
    exact slotsOf_of_length_le _ n (by simpa [Nat.succ_le_iff] using h)

theorem closed_append (slots : List (Option Text)) (text : Text) :
    Closed (slots ++ [some text]) := by
  simp [Closed]

theorem closed_map_some (texts : List Text) : Closed (texts.map some) := by
  simp [Closed]

theorem filterMap_slotsOf (slots : List (Option Text)) :
    (List.range slots.length).filterMap (slotsOf slots) = slots.filterMap id := by
  induction slots with
  | nil => rfl
  | cons slot slots ih =>
    rw [List.length_cons, List.range_succ_eq_map, List.filterMap_cons, List.filterMap_map,
      List.filterMap_cons, ← ih]
    rfl

namespace Draft

theorem lines_build (d : Draft) :
    d.build.lines = (slotsOf d.slots).lines d.slots.length := by
  rw [Slots.lines, filterMap_slotsOf]
  rfl

theorem slots_setSlot (d : Draft) (index : ℕ) (value : Option Text) :
    (d.setSlot index value).slots = match Slots.filling value with
      | some text => fillSlot index text d.slots
      | none => clearSlot index d.slots := by
  cases value with
  | none => rfl
  | some raw =>
    rw [setSlot]
    by_cases h : (Text.trimmed? raw).isSome
    · have hfilling : Slots.filling (some raw) = some raw := by
        simpa [Slots.filling] using (Text.isSome_trimmed?_iff raw).mp h
      rw [if_pos h, hfilling]
    · have hfilling : Slots.filling (some raw) = none := by
        simpa [Slots.filling] using (Text.isSome_trimmed?_iff raw).not.mp h
      rw [if_neg h, hfilling]

theorem slotsOf_setSlot (d : Draft) (index : ℕ) (value : Option Text) :
    slotsOf (d.setSlot index value).slots =
      (slotsOf d.slots).write index (Slots.filling value) := by
  rw [slots_setSlot]
  cases Slots.filling value with
  | none => exact slotsOf_clearSlot index d.slots
  | some text => exact slotsOf_fillSlot index text d.slots

theorem closed_setSlot (d : Draft) (index : ℕ) (value : Option Text) (h : Closed d.slots) :
    Closed (d.setSlot index value).slots := by
  rw [slots_setSlot]
  cases Slots.filling value with
  | none => exact closed_clearSlot index d.slots h
  | some text => exact closed_fillSlot index text d.slots h

/-! ## Steps and runs -/

theorem closed_apply (d : Draft) (edit : Edit) (h : Closed d.slots) :
    Closed (d.apply edit).slots := by
  cases edit with
  | set field value =>
    cases field with
    | streetAddress => cases value <;> simp [apply, set, setStreet, Closed]
    | addressLine1 => exact closed_setSlot d 0 value h
    | addressLine2 => exact closed_setSlot d 1 value h
    | _ => exact h
  | lines texts => exact closed_map_some texts
  | addLine line => exact closed_append d.slots line
  | street text => exact closed_map_some [text]
  | line1 value => exact closed_setSlot d 0 value h
  | line2 value => exact closed_setSlot d 1 value h
  | copy a => exact closed_map_some a.lines
  | rebuild => exact closed_map_some d.build.lines
  | single field value => rwa [apply_single]
  | language tag => exact h
  | clearLanguage => exact h

theorem step_apply (d : Draft) (edit : Edit) (h : Closed d.slots) :
    Slots.Step edit (slotsOf d.slots) (slotsOf (d.apply edit).slots) := by
  have hends := (closed_iff_endsAt d.slots).mp h
  cases edit with
  | set field value =>
    cases field with
    | streetAddress =>
      cases value with
      | none => exact slotsOf_map_some []
      | some text => exact slotsOf_map_some [text]
    | addressLine1 => exact slotsOf_setSlot d 0 value
    | addressLine2 => exact slotsOf_setSlot d 1 value
    | _ => rfl
  | lines texts => exact slotsOf_map_some texts
  | addLine line => exact ⟨d.slots.length, hends, slotsOf_append d.slots line⟩
  | street text => exact slotsOf_map_some [text]
  | line1 value => exact slotsOf_setSlot d 0 value
  | line2 value => exact slotsOf_setSlot d 1 value
  | copy a => exact slotsOf_map_some a.lines
  | rebuild =>
    refine ⟨d.slots.length, hends, ?_⟩
    rw [← lines_build]
    exact slotsOf_map_some d.build.lines
  | single field value =>
    rw [apply_single]
    rfl
  | language tag => rfl
  | clearLanguage => rfl

theorem closed_run (edits : List Edit) (d : Draft) (h : Closed d.slots) :
    Closed (run edits d).slots := by
  induction edits generalizing d with
  | nil => exact h
  | cons edit edits ih => exact ih (d.apply edit) (closed_apply d edit h)

theorem run_slots (edits : List Edit) (d : Draft) (h : Closed d.slots) :
    Slots.Run edits (slotsOf d.slots) (slotsOf (run edits d).slots) := by
  induction edits generalizing d with
  | nil => exact .nil _
  | cons edit edits ih =>
    exact .cons edit edits _ _ _ (step_apply d edit h) (ih _ (closed_apply d edit h))

/-- After every run the list of a draft is the one that stands for its slots and does not end in
an empty one, and these are the only slots that the edits in turn can make of none. Each further
edit changes them as it should, and the built lines are theirs. -/
theorem run_refines_slots (edits : List Edit) :
    let d := run edits {}
    Closed d.slots ∧ (slotsOf d.slots).EndsAt d.slots.length ∧
    (∀ slots, Closed slots → slotsOf slots = slotsOf d.slots → slots = d.slots) ∧
    (∀ f, Slots.Run edits .empty f ↔ f = slotsOf d.slots) ∧
    (∀ edit, Slots.Step edit (slotsOf d.slots) (slotsOf (d.apply edit).slots)) ∧
    d.build.lines = (slotsOf d.slots).lines d.slots.length := by
  intro d
  have hclosed : Closed d.slots := closed_run edits {} closed_nil
  have hrun : Slots.Run edits .empty (slotsOf d.slots) := run_slots edits {} closed_nil
  refine ⟨hclosed, (closed_iff_endsAt d.slots).mp hclosed, ?_, ?_, ?_, d.lines_build⟩
  · exact fun slots h he => eq_of_slotsOf_eq slots d.slots h hclosed he
  · intro f
    constructor
    · exact fun h => h.unique hrun
    · rintro rfl
      exact hrun
  · exact fun edit => step_apply d edit hclosed

/-- Clearing the last line takes the gap before it along, so the next line comes first. -/
example : (run [.line2 (some ['b']), .line2 none, .addLine ['c']] {}).slots = [some ['c']] := by
  decide

end Draft
end Postal
