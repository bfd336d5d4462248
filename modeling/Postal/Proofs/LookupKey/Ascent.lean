import Postal.Proofs.LookupKey.Hierarchy

/-!
# The way to the root

A data key is brought nearer to the root in two ways: step by step, by leaving out its last node,
or at once, by cutting the nodes behind a level. Both keep so many of the first nodes and all else
of the key (`cut`), so a key that they reach is told by the number of its nodes, and one way gives
what the other gives wherever the numbers are the same. A key of examples has no such way.
-/

set_option autoImplicit false

namespace Postal.LookupKey

def cut (key : LookupKey) (n : ℕ) : LookupKey := { key with nodes := key.nodes.take n }

theorem depth_cut (key : LookupKey) (n : ℕ) : (key.cut n).depth = min n key.depth :=
  List.length_take

theorem cut_cut (key : LookupKey) (m n : ℕ) : (key.cut m).cut n = key.cut (min n m) := by
  simp only [cut, List.take_take]

theorem cut_depth (key : LookupKey) : key.cut key.depth = key := by
  simp only [cut, depth, List.take_length]

def ancestor : LookupKey → ℕ → Except KeyError (Option LookupKey)
  | key, 0 => .ok (some key)
  | key, steps + 1 => do
    match ← key.parent with
    | none => return none
    | some up => up.ancestor steps

section
variable (key : LookupKey)

theorem requireData_examples (h : key.kind = .examples) :
    key.requireData = .error (.notDataKey key.text) := by
  rw [requireData, h]

variable (h : key.kind = .data)
include h

theorem requireData_data : key.requireData = .ok () := by
  rw [requireData, h]

theorem parent_root (hd : key.depth = 0) : key.parent = .ok none := by
  rw [parent, key.requireData_data h, List.eq_nil_of_length_eq_zero hd]
  rfl

theorem parent_eq_cut (n : ℕ) (hd : key.depth = n + 1) : key.parent = .ok (some (key.cut n)) := by
  have hcut : key.nodes.dropLast = key.nodes.take n := by
    rw [List.dropLast_eq_take, show key.nodes.length = n + 1 from hd, Nat.add_sub_cancel]
  rw [parent, key.requireData_data h, cut, ← hcut]
  cases hn : key.nodes with
  | nil =>
    rw [depth, hn] at hd
    cases hd
  | cons node rest => rfl

theorem ancestor_eq_cut (steps n : ℕ) (hd : key.depth = n + steps) :
    key.ancestor steps = .ok (some (key.cut n)) := by
  induction steps generalizing key with
  | zero =>
    rw [← show key.depth = n from hd, cut_depth]
    rfl
  | succ steps ih =>
    have hup : (key.cut (n + steps)).depth = n + steps := by
      rw [depth_cut, hd]
      omega
    rw [ancestor, key.parent_eq_cut h (n + steps) hd]
    change (key.cut (n + steps)).ancestor steps = _
    rw [ih (key.cut (n + steps)) h hup, cut_cut, Nat.min_eq_left (Nat.le_add_right n steps)]

theorem upper_eq_cut (f : Field) (level : ℕ) (hl : f.hierarchyLevel? = some level)
    (hd : level < key.depth) : key.upper f = .ok (some (key.cut (level + 1))) := by
  rw [upper, key.requireData_data h, hl]
  simp only [if_pos hd]
  rfl

theorem upper_eq_none (f : Field)
    (hf : ∀ level, f.hierarchyLevel? = some level → key.depth ≤ level) :
    key.upper f = .ok none := by
  rw [upper, key.requireData_data h]
  cases hl : f.hierarchyLevel? with
  | none => rfl
  | some level =>
    simp only [if_neg (hf level hl).not_gt]
    rfl

end

/-- The steps of a data key towards the root, and how cutting it at a level fits in with them. -/
structure Ascends (key : LookupKey) : Prop where
  root : ∃ top, key.ancestor key.depth = .ok (some top) ∧ top.depth = 0 ∧
    top.text = "data".toList ∧ top.parent = .ok none
  step : ∀ n < key.depth, ∃ here next, key.ancestor n = .ok (some here) ∧
    here.parent = .ok (some next) ∧ key.ancestor (n + 1) = .ok (some next) ∧
    next.depth + 1 = here.depth
  /-- A level that is there is where some number of steps leads. -/
  present : ∀ f level, f.hierarchyLevel? = some level → level < key.depth →
    key.upper f = key.ancestor (key.depth - 1 - level) ∧
      key.upper f = .ok (some { key with nodes := key.nodes.take (level + 1) })
  absent : ∀ f, (∀ level, f.hierarchyLevel? = some level → key.depth ≤ level) →
    key.upper f = .ok none
  /-- Cutting once more, at a level no deeper, undoes the first cut. -/
  nested : ∀ f g deep shallow, f.hierarchyLevel? = some deep → g.hierarchyLevel? = some shallow →
    shallow ≤ deep → ∀ up, key.upper f = .ok (some up) → up.upper g = key.upper g

theorem ascends_of_data (key : LookupKey) (h : key.kind = .data) : key.Ascends where
  root := by
    refine ⟨key.cut 0, key.ancestor_eq_cut h key.depth 0 (Nat.zero_add _).symm, ?_, ?_, ?_⟩
    · rw [depth_cut, Nat.zero_min]
    · rw [text, show (key.cut 0).kind = .data from h]
      rfl
    · exact (key.cut 0).parent_root h (by rw [depth_cut, Nat.zero_min])
  step n hn := by
    obtain ⟨m, hm⟩ := Nat.exists_eq_add_of_lt hn
    have hhere : (key.cut (m + 1)).depth = m + 1 := by
      rw [depth_cut]
      omega
    refine ⟨key.cut (m + 1), key.cut m, key.ancestor_eq_cut h n (m + 1) (by omega), ?_,
      key.ancestor_eq_cut h (n + 1) m (by omega), ?_⟩
    · rw [(key.cut (m + 1)).parent_eq_cut h m hhere, cut_cut, Nat.min_eq_left (Nat.le_succ m)]
    · rw [hhere, depth_cut]
      omega
  present f level hl hd := by
    have hcut := key.upper_eq_cut h f level hl hd
    refine ⟨?_, hcut⟩
    rw [hcut, key.ancestor_eq_cut h (key.depth - 1 - level) (level + 1) (by omega)]
  absent := key.upper_eq_none h
  nested f g deep shallow hf hg hle up hup := by
    by_cases hd : deep < key.depth
    · rw [key.upper_eq_cut h f deep hf hd] at hup
      obtain rfl : key.cut (deep + 1) = up := Option.some.inj (Except.ok.inj hup)
      have hshallow : shallow < (key.cut (deep + 1)).depth := by
        rw [depth_cut]
        omega
      rw [(key.cut (deep + 1)).upper_eq_cut h g shallow hg hshallow,
        key.upper_eq_cut h g shallow hg (by omega), cut_cut, Nat.min_eq_left (by omega)]
    · have hnone := key.upper_eq_none h f fun level hl =>
        Option.some.inj (hf.symm.trans hl) ▸ Nat.not_lt.mp hd
      rw [hnone] at hup
      cases hup

/-- A data key can be taken to the root step by step or level by level, and both ways agree. A key
of examples refuses either. -/
theorem ascends_or_refuses (key : LookupKey) :
    (key.kind = .data → key.Ascends) ∧
      (key.kind = .examples → key.parent = .error (.notDataKey key.text) ∧
        ∀ f, key.upper f = .error (.notDataKey key.text)) := by
  refine ⟨key.ascends_of_data, fun h => ⟨?_, fun f => ?_⟩⟩
  · rw [parent, key.requireData_examples h]
    rfl
  · rw [upper, key.requireData_examples h]
    rfl

theorem ascends_or_refuses_folded :
    let key : LookupKey :=
      ⟨.data, .latin, ["A".toList, "B".toList, "C".toList, "D/E".toList], some "en".toList⟩
    let examples : LookupKey := ⟨.examples, .native, ["TW".toList], none⟩
    key.kind = .data ∧ Field.adminArea.hierarchyLevel? = some 1 ∧ 1 < key.depth ∧
      key.upper .adminArea = key.ancestor 2 ∧
      key.ancestor 2 = .ok (some ⟨.data, .latin, ["A".toList, "B".toList], some "en".toList⟩) ∧
      examples.kind = .examples ∧
      examples.parent = .error (.notDataKey "examples/TW/local/_default".toList) := by
  intro key examples
  have hways := (ascends_or_refuses key).1 rfl
  obtain ⟨hsteps, hcut⟩ := hways.present .adminArea 1 rfl (by decide)
  have hrefused := ((ascends_or_refuses examples).2 rfl).1
  exact ⟨rfl, rfl, by decide, hsteps, hsteps.symm.trans hcut, rfl, hrefused⟩

end Postal.LookupKey
