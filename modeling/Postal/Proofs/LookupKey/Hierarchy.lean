import Mathlib.Data.List.Nodup
import Postal.LookupKey.Edit
import Postal.Proofs.LookupKey.Canonical

/-!
# The levels of a key

The nodes of a key have no names. They are read as values of the leading levels of the hierarchy,
so there must never be more nodes than levels. Every step that puts a key together sees to that:
decoding folds what is too deep, setting a level overwrites it or adds the next one, and the steps
towards the root only drop nodes. Setting a level is refused exactly where a value would be read
under another level than its own.
-/

set_option autoImplicit false

namespace Postal

theorem Field.hierarchy_nodup : hierarchy.Nodup := by decide

theorem Field.hierarchyLevel?_eq_some (f : Field) (level : ℕ) :
    f.hierarchyLevel? = some level ↔ hierarchy[level]? = some f := by
  rw [hierarchyLevel?, List.idxOf?_eq_some_iff, List.getElem?_eq_some_iff]
  constructor
  · rintro ⟨hl, hf, -⟩
    exact ⟨hl, hf⟩
  · rintro ⟨hl, hf⟩
    refine ⟨hl, hf, fun upper hu he => ?_⟩
    have heq := hierarchy_nodup.getElem_inj_iff.mp (he.trans hf.symm)
    omega

theorem Field.eq_of_hierarchyLevel? (f g : Field) (level : ℕ) (hf : f.hierarchyLevel? = some level)
    (hg : g.hierarchyLevel? = some level) : f = g := by
  rw [hierarchyLevel?_eq_some] at hf hg
  exact Option.some.inj (hf.symm.trans hg)

theorem Field.mem_hierarchy_of_level (f : Field) (level : ℕ) (h : f.hierarchyLevel? = some level) :
    f ∈ hierarchy :=
  List.mem_of_getElem? ((f.hierarchyLevel?_eq_some level).mp h)

theorem Field.hierarchyLevel?_lt (f : Field) (level : ℕ) (h : f.hierarchyLevel? = some level) :
    level < hierarchy.length :=
  (List.getElem?_eq_some_iff.mp ((f.hierarchyLevel?_eq_some level).mp h)).1

theorem Field.hierarchyLevel?_eq_none (f : Field) : f.hierarchyLevel? = none ↔ f ∉ hierarchy :=
  List.idxOf?_eq_none_iff

namespace LookupKey

/-! ## No more nodes than levels -/

theorem depth_of_decode (t : Text) (key : LookupKey) (h : decode t = .ok key) : key.depth ≤ 4 := by
  obtain ⟨kind, segs, n, hs, -, -, hr⟩ := exists_segments_of_decode t key h
  cases kind with
  | data =>
    obtain ⟨nodes, language, rfl, hreads⟩ := readData_reads segs key hr
    exact (sound_of_reads segs nodes language hs hreads).depth
  | examples =>
    rcases readExamples_eq_ok segs key hs hr with rfl | ⟨script, country, language, rfl, -⟩
    · exact Nat.zero_le 4
    · exact Nat.le_of_ble_eq_true rfl

theorem depth_setNode (key next : LookupKey) (f : Field) (v : Text) (hd : key.depth ≤ 4)
    (h : key.setNode f v = .ok next) : next.depth ≤ 4 := by
  unfold setNode at h
  split at h
  · cases h
  · rename_i level hl
    split at h
    · cases h
      change (key.nodes.set level v).length ≤ 4
      rwa [List.length_set]
    · split at h
      · rename_i heq
        cases h
        have hlevel := f.hierarchyLevel?_lt level hl
        rw [heq] at hlevel
        change (key.nodes ++ [v]).length ≤ 4
        rw [List.length_append, List.length_singleton]
        exact hlevel
      · cases h

theorem depth_parent (key next : LookupKey) (hd : key.depth ≤ 4)
    (h : key.parent = .ok (some next)) : next.depth ≤ 4 := by
  obtain ⟨-, -, h⟩ := (bind_eq_ok _ _ _).mp h
  split at h
  · cases h
  · cases h
    change key.nodes.dropLast.length ≤ 4
    rw [List.length_dropLast]
    exact (Nat.sub_le _ 1).trans hd

theorem depth_upper (key next : LookupKey) (f : Field) (hd : key.depth ≤ 4)
    (h : key.upper f = .ok (some next)) : next.depth ≤ 4 := by
  obtain ⟨-, -, h⟩ := (bind_eq_ok _ _ _).mp h
  split at h
  · cases h
  · split at h
    · cases h
      exact (List.length_take_le' _ _).trans hd
    · cases h

theorem depth_edited (key next : LookupKey) (edit : Edit) (hd : key.depth ≤ 4)
    (h : key.edited edit = .ok (some next)) : next.depth ≤ 4 := by
  cases edit with
  | fresh kind =>
    cases h
    exact Nat.zero_le 4
  | decoded t =>
    obtain ⟨_, hf, h⟩ := (bind_eq_ok _ _ _).mp h
    cases h
    exact depth_of_decode t next hf
  | script script =>
    cases h
    exact hd
  | language tag =>
    cases h
    exact hd
  | clearLanguage =>
    cases h
    exact hd
  | node f v =>
    obtain ⟨_, hf, h⟩ := (bind_eq_ok _ _ _).mp h
    cases h
    exact depth_setNode key next f v hd hf
  | address a =>
    cases h
    exact leadingValues_length a Field.hierarchy
  | parent => exact depth_parent key next hd h
  | upper f => exact depth_upper key next f hd h

theorem depth_apply (key : LookupKey) (edit : Edit) (hd : key.depth ≤ 4) :
    (key.apply edit).depth ≤ 4 := by
  rw [apply_eq]
  unfold after
  split
  · rename_i next h
    exact depth_edited key next edit hd h
  · exact hd

/-- What can be done to a key that is put together: a step, or to take over all that another key
holds. -/
inductive Operation where
  | edit (edit : Edit)
  | copy (key : LookupKey)

def perform (held : LookupKey) : Operation → LookupKey
  | .edit edit => held.apply edit
  | .copy key => key

/-- The keys there are: those held after a run of operations, which may copy only such keys. -/
inductive Held : LookupKey → Prop
  | ran (kind : KeyKind) (operations : List Operation)
      (copies : ∀ key, .copy key ∈ operations → Held key) :
      Held (operations.foldl perform { kind := kind })

theorem depth_foldl_perform (operations : List Operation) (held : LookupKey) (hd : held.depth ≤ 4)
    (hc : ∀ key, .copy key ∈ operations → key.depth ≤ 4) :
    (operations.foldl perform held).depth ≤ 4 := by
  induction operations generalizing held with
  | nil => exact hd
  | cons operation operations ih =>
    apply ih (held.perform operation)
    · cases operation with
      | edit edit => exact depth_apply held edit hd
      | copy key => exact hc key List.mem_cons_self
    · exact fun key hm => hc key (List.mem_cons_of_mem operation hm)

theorem Held.depth_le {key : LookupKey} (h : Held key) : key.depth ≤ 4 := by
  induction h with
  | ran kind operations _ ih => exact depth_foldl_perform operations _ (Nat.zero_le 4) ih

/-! ## Values by level -/

/-- A key has values for the leading levels of the hierarchy, and its nodes are these values. -/
structure Prefixed (key : LookupKey) : Prop where
  depth_le : key.depth ≤ 4
  value_iff : ∀ f, (key.value? f).isSome ↔
    ∃ level, f.hierarchyLevel? = some level ∧ level < key.depth
  nodes_eq : Field.hierarchy.filterMap key.value? = key.nodes

theorem value?_of_level (key : LookupKey) (f : Field) (level : ℕ)
    (hl : f.hierarchyLevel? = some level) : key.value? f = key.nodes[level]? := by
  rw [value?, hl]
  rfl

theorem isSome_value?_iff (key : LookupKey) (f : Field) : (key.value? f).isSome ↔
    ∃ level, f.hierarchyLevel? = some level ∧ level < key.depth := by
  cases hl : f.hierarchyLevel? with
  | none => simp [value?, hl]
  | some level =>
    rw [key.value?_of_level f level hl, isSome_getElem?]
    simp [depth]

theorem prefixed_of_depth_le (key : LookupKey) (hd : key.depth ≤ 4) : key.Prefixed where
  depth_le := hd
  value_iff := key.isSome_value?_iff
  nodes_eq := by
    obtain ⟨kind, script, nodes, language⟩ := key
    match nodes, hd with
    | [], _ => rfl
    | [a], _ => rfl
    | [a, b], _ => rfl
    | [a, b, c], _ => rfl
    | [a, b, c, d], _ => rfl

/-! ## Setting a level -/

/-- A level above that of the field has no value. -/
def GapAbove (key : LookupKey) (f : Field) : Prop :=
  ∃ level upper g, f.hierarchyLevel? = some level ∧ g.hierarchyLevel? = some upper ∧
    upper < level ∧ key.value? g = none

/-- Setting a level is refused for a field without level and below a gap, and changes nothing
then. Else it changes the value of that field alone. -/
structure SetsLevel (key : LookupKey) (f : Field) (v : Text) : Prop where
  foreign : key.setNode f v = .error (.notInHierarchy f) ↔ f ∉ Field.hierarchy
  gap : key.setNode f v = .error (.hierarchyGap f) ↔ key.GapAbove f
  failing : ∀ e, key.setNode f v = .error e →
    (e = .notInHierarchy f ∨ e = .hierarchyGap f) ∧ key.apply (.node f v) = key
  setting : f ∈ Field.hierarchy → ¬key.GapAbove f → ∃ next, key.setNode f v = .ok next ∧
    key.apply (.node f v) = next ∧ next.kind = key.kind ∧ next.script = key.script ∧
    next.language = key.language ∧ ∀ g, next.value? g = if g = f then some v else key.value? g

theorem gapAbove_iff (key : LookupKey) (f : Field) (level : ℕ)
    (hl : f.hierarchyLevel? = some level) : key.GapAbove f ↔ key.depth < level := by
  constructor
  · rintro ⟨found, upper, g, hf, hg, hu, hv⟩
    obtain rfl : level = found := Option.some.inj (hl.symm.trans hf)
    rw [key.value?_of_level g upper hg, List.getElem?_eq_none_iff] at hv
    exact hv.trans_lt hu
  · intro hd
    have hlevel := f.hierarchyLevel?_lt level hl
    have hg := (Field.hierarchyLevel?_eq_some Field.hierarchy[key.depth] key.depth).mpr
      (List.getElem?_eq_getElem (hd.trans hlevel))
    refine ⟨level, key.depth, _, hl, hg, hd, ?_⟩
    rw [key.value?_of_level _ _ hg, List.getElem?_eq_none_iff]
    exact Nat.le_refl _

/-- At a level that is there or comes next, the node of that level is replaced or added. -/
theorem setNode_of_level (key : LookupKey) (f : Field) (v : Text) (level : ℕ)
    (hl : f.hierarchyLevel? = some level) (hd : level ≤ key.depth) :
    ∃ nodes, key.setNode f v = .ok { key with nodes := nodes } ∧
      ∀ i : ℕ, nodes[i]? = if i = level then some v else key.nodes[i]? := by
  obtain hlt | rfl := hd.lt_or_eq
  · refine ⟨key.nodes.set level v, by simp only [setNode, hl, if_pos hlt], fun i => ?_⟩
    by_cases hi : i = level
    · rw [if_pos hi, hi]
      exact List.getElem?_set_self hlt
    · rw [if_neg hi]
      exact List.getElem?_set_ne (Ne.symm hi)
  · refine ⟨key.nodes ++ [v], by simp [setNode, hl], fun i => ?_⟩
    obtain hi | rfl | hi := Nat.lt_trichotomy i key.depth
    · rw [List.getElem?_append_left hi, if_neg hi.ne]
    · rw [if_pos rfl]
      exact List.getElem?_concat_length
    · rw [if_neg hi.ne', List.getElem?_eq_none hi.le, List.getElem?_eq_none]
      rw [List.length_append, List.length_singleton]
      exact hi

theorem setsLevel_of_foreign (key : LookupKey) (f : Field) (v : Text)
    (hl : f.hierarchyLevel? = none) : key.SetsLevel f v := by
  have hf := f.hierarchyLevel?_eq_none.mp hl
  have heq : key.setNode f v = .error (.notInHierarchy f) := by rw [setNode, hl]
  refine ⟨iff_of_true heq hf, ?_, ?_, fun hm => absurd hm hf⟩
  · refine iff_of_false (by rw [heq]; simp) ?_
    rintro ⟨level, -, -, hsome, -⟩
    cases hl.symm.trans hsome
  · intro e he
    cases heq.symm.trans he
    exact ⟨.inl rfl, by rw [apply_eq, edited, heq]; rfl⟩

theorem setsLevel_of_gap (key : LookupKey) (f : Field) (v : Text) (level : ℕ)
    (hl : f.hierarchyLevel? = some level) (hd : key.depth < level) : key.SetsLevel f v := by
  have hf := f.mem_hierarchy_of_level level hl
  have hgap := (key.gapAbove_iff f level hl).mpr hd
  have heq : key.setNode f v = .error (.hierarchyGap f) := by
    simp only [setNode, hl, if_neg hd.not_gt, if_neg hd.ne']
  refine ⟨iff_of_false (by rw [heq]; simp) (not_not_intro hf), iff_of_true heq hgap, ?_,
    fun _ hno => absurd hgap hno⟩
  intro e he
  cases heq.symm.trans he
  exact ⟨.inr rfl, by rw [apply_eq, edited, heq]; rfl⟩

theorem setsLevel_of_level (key : LookupKey) (f : Field) (v : Text) (level : ℕ)
    (hl : f.hierarchyLevel? = some level) (hd : level ≤ key.depth) : key.SetsLevel f v := by
  have hf := f.mem_hierarchy_of_level level hl
  have hno : ¬key.GapAbove f := fun hgap => hd.not_gt ((key.gapAbove_iff f level hl).mp hgap)
  obtain ⟨nodes, heq, hnodes⟩ := key.setNode_of_level f v level hl hd
  refine ⟨iff_of_false (by rw [heq]; simp) (not_not_intro hf),
    iff_of_false (by rw [heq]; simp) hno, fun e he => ?_, fun _ _ => ?_⟩
  · cases heq.symm.trans he
  · refine ⟨_, heq, by rw [apply_eq, edited, heq]; rfl, rfl, rfl, rfl, fun g => ?_⟩
    cases hg : g.hierarchyLevel? with
    | none =>
      have hne : g ≠ f := fun h => by
        rw [h, hl] at hg
        cases hg
      rw [if_neg hne, value?, value?, hg]
      rfl
    | some other =>
      rw [value?_of_level _ g other hg, value?_of_level _ g other hg, hnodes]
      by_cases h : other = level
      · rw [if_pos h, if_pos (Field.eq_of_hierarchyLevel? g f level (h ▸ hg) hl)]
      · have hne : g ≠ f := fun hgf => h (Option.some.inj (hg.symm.trans (hgf ▸ hl)))
        rw [if_neg h, if_neg hne]

theorem setsLevel (key : LookupKey) (f : Field) (v : Text) : key.SetsLevel f v := by
  cases hl : f.hierarchyLevel? with
  | none => exact key.setsLevel_of_foreign f v hl
  | some level =>
    obtain hd | hd := le_or_gt level key.depth
    · exact key.setsLevel_of_level f v level hl hd
    · exact key.setsLevel_of_gap f v level hl hd

/-- However a key came about, its nodes are the values of the leading levels, and setting a level
keeps to the levels that are there. -/
theorem prefixed_of_held (key : LookupKey) (h : Held key) :
    key.Prefixed ∧ ∀ f v, key.SetsLevel f v :=
  ⟨key.prefixed_of_depth_le h.depth_le, key.setsLevel⟩

theorem prefixed_of_held_copied :
    let folded := [.edit (.decoded "data/A/B/C/D/E".toList), .edit .parent].foldl perform
      { kind := .data }
    let key := [.copy folded, .edit (.node .dependentLocality "X".toList)].foldl perform
      { kind := .examples }
    Held key ∧ key.text = "data/A/B/C/X".toList ∧ key.Prefixed ∧ ∀ f v, key.SetsLevel f v := by
  intro folded key
  have hfolded : Held folded := .ran .data _ (by simp)
  have hkey : Held key := .ran .examples _ (by simp [hfolded])
  exact ⟨hkey, by decide +kernel, prefixed_of_held key hkey⟩

end LookupKey
end Postal
