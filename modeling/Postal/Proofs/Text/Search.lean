import Postal.Proofs.Text.Map
import Postal.Text.Search

/-!
# Searching sorted entries

What a halving leaves out lies on the wrong side of the key: the entries in front of the range
stand before it and those from its end on stand behind it. The range ends up empty, and then no
entry has the key. An entry that has it is the only one, since the keys rise strictly.
-/

set_option autoImplicit false

namespace Postal.Text

variable {α : Type}

/-- Only within the range may an entry have the key. -/
structure Brackets (entries : Array (Text × α)) (key : Text) (low high : ℕ) : Prop where
  below : ∀ i entry, entries[i]? = some entry → i < low → entry.1 < key
  above : ∀ i entry, entries[i]? = some entry → high ≤ i → key < entry.1

section
variable {entries : Array (Text × α)} {key : Text} {low high : ℕ}

theorem lt_of_sorted (h : TextMap.Sorted entries.toList) (i j : ℕ) (a b : Text × α)
    (hi : entries[i]? = some a) (hj : entries[j]? = some b) (hij : i < j) : a.1 < b.1 := by
  rw [← Array.getElem?_toList] at hi hj
  obtain ⟨_, rfl⟩ := List.getElem?_eq_some_iff.mp hi
  obtain ⟨_, rfl⟩ := List.getElem?_eq_some_iff.mp hj
  exact List.pairwise_iff_getElem.mp h i j _ _ hij

theorem eq_of_sorted (h : TextMap.Sorted entries.toList) (i j : ℕ) (a b : Text × α)
    (hi : entries[i]? = some a) (hj : entries[j]? = some b) (hkey : a.1 = b.1) : a = b := by
  rcases Nat.lt_trichotomy i j with hij | rfl | hij
  · exact absurd hkey (lt_of_sorted h i j a b hi hj hij).ne
  · exact Option.some.inj (hi.symm.trans hj)
  · exact absurd hkey (lt_of_sorted h j i b a hj hi hij).ne'

theorem brackets_all (entries : Array (Text × α)) (key : Text) :
    Brackets entries key 0 entries.size where
  below i entry _ hi := absurd hi (Nat.not_lt_zero i)
  above i entry he hi := by
    rw [Array.getElem?_eq_none hi] at he
    cases he

theorem Brackets.lower (hb : Brackets entries key low high)
    (h : TextMap.Sorted entries.toList) (middle : ℕ) (entry : Text × α)
    (hm : entries[middle]? = some entry) (hlt : key < entry.1) :
    Brackets entries key low middle where
  below := hb.below
  above i other hi hle := by
    rcases Nat.lt_or_eq_of_le hle with hmi | rfl
    · exact hlt.trans (lt_of_sorted h middle i entry other hm hi hmi)
    · obtain rfl := Option.some.inj (hm.symm.trans hi)
      exact hlt

theorem Brackets.raise (hb : Brackets entries key low high)
    (h : TextMap.Sorted entries.toList) (middle : ℕ) (entry : Text × α)
    (hm : entries[middle]? = some entry) (hgt : entry.1 < key) :
    Brackets entries key (middle + 1) high where
  below i other hi hlt := by
    rcases Nat.lt_or_eq_of_le (Nat.le_of_lt_succ hlt) with him | rfl
    · exact (lt_of_sorted h i middle other entry hi hm him).trans hgt
    · obtain rfl := Option.some.inj (hm.symm.trans hi)
      exact hgt
  above := hb.above

theorem Brackets.notMem (hb : Brackets entries key low high) (hle : high ≤ low) (value : α) :
    (key, value) ∉ entries := by
  intro hm
  obtain ⟨i, hi⟩ := Array.getElem?_of_mem hm
  rcases Nat.lt_or_ge i low with hlow | hlow
  · exact lt_irrefl key (hb.below i _ hi hlow)
  · exact lt_irrefl key (hb.above i _ hi (hle.trans hlow))

/-- Every step halves the range between the brackets, so it finds the entry or the range ends up
empty. -/
theorem searchBetween_eq_some_iff (h : TextMap.Sorted entries.toList) (steps : ℕ)
    (hb : Brackets entries key low high) (hsize : high ≤ entries.size) (hs : high - low < steps)
    (value : α) :
    searchBetween entries key steps low high = some value ↔ (key, value) ∈ entries := by
  induction steps generalizing low high with
  | zero => exact absurd hs (Nat.not_lt_zero _)
  | succ steps ih =>
    by_cases hlt : low < high
    · obtain ⟨entry, hm⟩ : ∃ entry, entries[(low + high) / 2]? = some entry :=
        ⟨_, Array.getElem?_eq_getElem (by omega)⟩
      simp only [searchBetween, if_pos hlt, hm]
      cases ho : key.order entry.1 with
      | eq =>
        obtain rfl := (order_eq_iff key entry.1).mp ho
        constructor
        · intro hv
          obtain rfl := Option.some.inj hv
          exact Array.mem_of_getElem? hm
        · intro hv
          obtain ⟨i, hi⟩ := Array.getElem?_of_mem hv
          rw [eq_of_sorted h _ i entry _ hm hi rfl]
      | lt =>
        have hkey := (order_eq_lt key entry.1).mp ho
        exact ih (hb.lower h _ entry hm hkey) (by omega) (by omega)
      | gt =>
        have hkey := (order_eq_gt key entry.1).mp ho
        exact ih (hb.raise h _ entry hm hkey) hsize (by omega)
    · have hle : high ≤ low := Nat.le_of_not_lt hlt
      rw [searchBetween_of_le entries key _ low high hle]
      exact iff_of_false (by simp) (hb.notMem hle value)

end

theorem search_eq_some_iff (entries : Array (Text × α)) (h : TextMap.Sorted entries.toList)
    (key : Text) (value : α) : search entries key = some value ↔ (key, value) ∈ entries :=
  searchBetween_eq_some_iff h _ (brackets_all entries key) le_rfl (by omega) value

theorem search_eq_none_iff (entries : Array (Text × α)) (h : TextMap.Sorted entries.toList)
    (key : Text) : search entries key = none ↔ key ∉ entries.toList.map Prod.fst := by
  simp [Option.eq_none_iff_forall_ne_some, search_eq_some_iff entries h]

end Postal.Text
