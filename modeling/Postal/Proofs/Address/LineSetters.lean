import Postal.Proofs.Address.Copies

/-!
# Setting one line of several

A line setter writes a slot, and what a slot holds is cut into lines only when the address is
built. As long as no line was set by itself every slot holds a street text as it was given, and the
line that is set takes the place of all the lines of its slot. So it replaces the line of its own
number exactly if the texts up to that slot make one line each. A text of several lines loses them
all to the setter, and one that makes none shifts the setter off its line.
-/

set_option autoImplicit false

namespace Postal.Draft

open Text (Blank)

/-- The slot that a line setter writes and the value it is given. -/
def Edit.line? : Edit → Option (ℕ × Option Text)
  | .line1 value => some (0, value)
  | .line2 value => some (1, value)
  | .set .addressLine1 value => some (0, value)
  | .set .addressLine2 value => some (1, value)
  | _ => none

theorem apply_line (d : Draft) (edit : Edit) (index : ℕ) (value : Option Text)
    (h : edit.line? = some (index, value)) : d.apply edit = d.setSlot index value := by
  cases edit with
  | line1 v => cases h; rfl
  | line2 v => cases h; rfl
  | set f v => cases f <;> cases h <;> rfl
  | _ => cases h

/-! ## Texts as they were given -/

/-- The street texts that are left after an edit, unless it sets a line by itself. -/
def textsAfter (texts : List Text) : Edit → List Text
  | .lines lines => lines
  | .addLine line => texts ++ [line]
  | .street value => [value]
  | .set .streetAddress value => value.toList
  | .copy a => a.lines
  | .rebuild => texts.flatMap slotLines
  | _ => texts

def streetTexts (edits : List Edit) : List Text := edits.foldl textsAfter []

theorem build_lines (d : Draft) (texts : List Text) (h : d.slots = texts.map some) :
    d.build.lines = texts.flatMap slotLines := by
  rw [build, h, List.filterMap_map]
  simp

theorem slots_apply (d : Draft) (edit : Edit) (texts : List Text) (hd : d.slots = texts.map some)
    (h : edit.line? = none) : (d.apply edit).slots = (textsAfter texts edit).map some := by
  cases edit with
  | single f value => rwa [apply_single]
  | lines lines => rfl
  | addLine line => simp [apply, addLine, textsAfter, hd]
  | street v => rfl
  | set f v =>
    cases f with
    | streetAddress => cases v <;> rfl
    | addressLine1 => cases h
    | addressLine2 => cases h
    | _ => exact hd
  | line1 v => cases h
  | line2 v => cases h
  | copy a => rfl
  | rebuild => exact congrArg _ (build_lines d texts hd)
  | _ => exact hd

/-- Unless lines were set by themselves, no slot is empty. -/
theorem slots_run (edits : List Edit) (h : ∀ e ∈ edits, e.line? = none) :
    (run edits {}).slots = (streetTexts edits).map some := by
  have hfold : ∀ (d : Draft) (texts : List Text), d.slots = texts.map some →
      (run edits d).slots = (edits.foldl textsAfter texts).map some := by
    induction edits with
    | nil => exact fun d texts hd => hd
    | cons e edits ih =>
      obtain ⟨he, hedits⟩ := List.forall_mem_cons.mp h
      exact fun d texts hd => ih hedits _ _ (slots_apply d e texts hd he)
  exact hfold {} [] rfl

/-! ## Lines around the slot -/

theorem filterMap_fillSlot (index : ℕ) (v : Text) (texts : List Text) :
    (fillSlot index v (texts.map some)).filterMap id =
      texts.take index ++ v :: texts.drop (index + 1) := by
  induction index generalizing texts with
  | zero => cases texts <;> simp [fillSlot]
  | succ index ih =>
    cases texts with
    | nil => simpa [fillSlot] using ih []
    | cons t texts => simpa [fillSlot] using ih texts

theorem slotLines_whole (v : Text) (hb : ¬Blank v) (hn : '\n' ∉ v) :
    slotLines v = [Text.trim v] := by
  cases ht : Text.trimmed? v with
  | none => exact absurd ((Text.trimmed?_eq_none_iff v).mp ht) hb
  | some line =>
    rw [slotLines, Text.splitOn_of_notMem '\n' v hn, List.filterMap_cons_some ht,
      ((Text.trimmed?_eq_some v line).mp ht).1]
    rfl

/-- What is set comes behind the lines of the slots before its own and takes the place of all
lines of its own slot. -/
theorem lines_setSlot (d : Draft) (texts : List Text) (hd : d.slots = texts.map some) (index : ℕ)
    (v : Text) (hb : ¬Blank v) (hn : '\n' ∉ v) :
    (d.setSlot index (some v)).build.lines = (texts.take index).flatMap slotLines ++
      Text.trim v :: (texts.drop (index + 1)).flatMap slotLines := by
  have hsome : (Text.trimmed? v).isSome :=
    Option.isSome_iff_ne_none.mpr fun ht => hb ((Text.trimmed?_eq_none_iff v).mp ht)
  rw [setSlot, if_pos hsome, build, hd, filterMap_fillSlot, List.flatMap_append, List.flatMap_cons,
    slotLines_whole v hb hn]
  rfl

/-- Putting either of two values in place of a stretch is the same as writing it over the entry
at `index` only if that entry is the stretch. -/
theorem eq_singleton_of_set {α : Type} (before part after : List α) (index : ℕ) (x y : α)
    (hne : x ≠ y) (hx : before ++ x :: after = (before ++ (part ++ after)).set index x)
    (hy : before ++ y :: after = (before ++ (part ++ after)).set index y) :
    before.length = index ∧ ∃ p, part = [p] := by
  have hlength := congrArg List.length hx
  simp only [List.length_append, List.length_cons, List.length_set] at hlength
  obtain ⟨p, rfl⟩ := List.length_eq_one_iff.mp (show part.length = 1 by omega)
  refine ⟨?_, p, rfl⟩
  by_contra hindex
  have hentry : ∀ z, before ++ z :: after = (before ++ ([p] ++ after)).set index z → z = p := by
    intro z hz
    have hget := congrArg (·[before.length]?) hz
    simpa [List.getElem?_set, Ne.symm hindex] using hget
  exact hne ((hentry x hx).trans (hentry y hy).symm)

/-- The first `count` texts are there and make one line each. -/
def OneLineEach (count : ℕ) (texts : List Text) : Prop :=
  count ≤ texts.length ∧ ∀ t ∈ texts.take count, (slotLines t).length = 1

instance (count : ℕ) (texts : List Text) : Decidable (OneLineEach count texts) :=
  inferInstanceAs (Decidable (_ ∧ _))

theorem flatMap_around (texts : List Text) (index : ℕ) :
    texts.flatMap slotLines = (texts.take index).flatMap slotLines ++
      (((texts.drop index).take 1).flatMap slotLines ++
        (texts.drop (index + 1)).flatMap slotLines) := by
  calc texts.flatMap slotLines
      = (texts.take index ++ texts.drop index).flatMap slotLines := by rw [List.take_append_drop]
    _ = (texts.take index ++ ((texts.drop index).take 1 ++ (texts.drop index).drop 1)).flatMap
          slotLines := by rw [List.take_append_drop 1 (texts.drop index)]
    _ = _ := by rw [List.flatMap_append, List.flatMap_append, List.drop_drop]

theorem oneLineEach_iff (texts : List Text) (index : ℕ) (hi : index < 2) :
    OneLineEach (index + 1) texts ↔ ((texts.take index).flatMap slotLines).length = index ∧
      ∃ p, ((texts.drop index).take 1).flatMap slotLines = [p] := by
  match index, hi with
  | 0, _ => cases texts <;> simp [OneLineEach, List.length_eq_one_iff]
  | 1, _ =>
    rcases texts with _ | ⟨t, _ | ⟨u, rest⟩⟩
    · simp [OneLineEach]
    · simp [OneLineEach]
    · simp [OneLineEach, List.length_eq_one_iff]

/-- Where no line was set by itself before, the built lines are those of the street texts in turn.
The first or second line is then set in place of all lines that the first or second text makes,
behind those of the texts before it. For every value this changes the line of that number and no
other exactly if the texts up to that one make one line each. -/
theorem lines_apply_line_iff (edits : List Edit) (h : ∀ e ∈ edits, e.line? = none) (index : ℕ)
    (hi : index < 2) :
    let d := run edits {}
    let texts := streetTexts edits
    d.build.lines = texts.flatMap slotLines ∧
    (∀ edit v, edit.line? = some (index, some v) → ¬Blank v → '\n' ∉ v →
      (d.apply edit).build.lines = (texts.take index).flatMap slotLines ++
        Text.trim v :: (texts.drop (index + 1)).flatMap slotLines) ∧
    ((∀ edit v, edit.line? = some (index, some v) → ¬Blank v → '\n' ∉ v →
      (d.apply edit).build.lines = d.build.lines.set index (Text.trim v)) ↔
        OneLineEach (index + 1) texts) := by
  intro d texts
  have hslots : d.slots = texts.map some := slots_run edits h
  have hlines : d.build.lines = texts.flatMap slotLines := build_lines d texts hslots
  have hset : ∀ edit v, edit.line? = some (index, some v) → ¬Blank v → '\n' ∉ v →
      (d.apply edit).build.lines = (texts.take index).flatMap slotLines ++
        Text.trim v :: (texts.drop (index + 1)).flatMap slotLines := by
    intro edit v he hb hn
    rw [apply_line d edit index (some v) he]
    exact lines_setSlot d texts hslots index v hb hn
  refine ⟨hlines, hset, ?_⟩
  rw [oneLineEach_iff texts index hi, hlines, flatMap_around texts index]
  constructor
  · intro hall
    -- Two values are tried, since one alone may happen to be the line that is there already.
    have hedit : ∃ edit : Text → Edit, ∀ v, (edit v).line? = some (index, some v) := by
      match index, hi with
      | 0, _ => exact ⟨fun v => .line1 (some v), fun v => rfl⟩
      | 1, _ => exact ⟨fun v => .line2 (some v), fun v => rfl⟩
    obtain ⟨edit, hedit⟩ := hedit
    have hx := (hset (edit ['x']) ['x'] (hedit _) (by decide) (by decide)).symm.trans
      (hall (edit ['x']) ['x'] (hedit _) (by decide) (by decide))
    have hy := (hset (edit ['y']) ['y'] (hedit _) (by decide) (by decide)).symm.trans
      (hall (edit ['y']) ['y'] (hedit _) (by decide) (by decide))
    exact eq_singleton_of_set _ _ _ index ['x'] ['y'] (by decide) hx hy
  · rintro ⟨hbefore, p, hpart⟩ edit v he hb hn
    rw [hset edit v he hb hn, hpart, List.set_append_right _ _ hbefore.le, hbefore, Nat.sub_self]
    rfl

theorem lines_apply_line_iff_second :
    (∀ e ∈ [Edit.lines ["1 Main St".toList, " Apt 2 ".toList], .addLine "Floor 3\nRoom 4".toList],
      e.line? = none) ∧
    ¬Blank " Apt 9".toList ∧ '\n' ∉ " Apt 9".toList ∧
    (run [.lines ["1 Main St".toList, " Apt 2 ".toList], .addLine "Floor 3\nRoom 4".toList,
      .line2 (some " Apt 9".toList)] {}).build.lines =
        ["1 Main St".toList, "Apt 9".toList, "Floor 3".toList, "Room 4".toList] := by
  have h : ∀ e ∈ [Edit.lines ["1 Main St".toList, " Apt 2 ".toList],
      .addLine "Floor 3\nRoom 4".toList], e.line? = none := by decide
  have hb : ¬Blank " Apt 9".toList := by decide
  have hn : '\n' ∉ " Apt 9".toList := by decide
  obtain ⟨-, -, hiff⟩ := lines_apply_line_iff _ h 1 (by decide)
  have heach : OneLineEach 2 (streetTexts [Edit.lines ["1 Main St".toList, " Apt 2 ".toList],
      .addLine "Floor 3\nRoom 4".toList]) := by decide
  exact ⟨h, hb, hn, hiff.mpr heach (.line2 (some " Apt 9".toList)) _ rfl hb hn⟩

/-- The first line of a street written as one text takes the second with it, and the first line
behind a blank one is not set but gets another in front of it. -/
theorem exists_line_lost :
    (∀ e ∈ [Edit.street "1 Main St\nApt 2".toList], e.line? = none) ∧
      (run [.street "1 Main St\nApt 2".toList] {}).build.lines =
        ["1 Main St".toList, "Apt 2".toList] ∧
      ¬Blank "2 Oak Ave".toList ∧ '\n' ∉ "2 Oak Ave".toList ∧
      (run [.street "1 Main St\nApt 2".toList, .line1 (some "2 Oak Ave".toList)] {}).build.lines ≠
        ["1 Main St".toList, "Apt 2".toList].set 0 (Text.trim "2 Oak Ave".toList) ∧
      (run [.lines [[], "Apt 2".toList]] {}).build.lines = ["Apt 2".toList] ∧
      (run [.lines [[], "Apt 2".toList], .line1 (some "2 Oak Ave".toList)] {}).build.lines ≠
        ["Apt 2".toList].set 0 (Text.trim "2 Oak Ave".toList) := by
  decide

end Postal.Draft
