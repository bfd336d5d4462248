import Mathlib.Data.Char
import Mathlib.Data.List.Lex
import Mathlib.Order.Basic
import Postal.Text.Map

/-!
# Looking up the entries of a map

The order of texts is the lexicographic one, and inserting keeps the entries of a map sorted by
it. So a key that stands before the first entry is not there, which lets an insertion stop early,
and a map made of a list of pairs finds for every key the last value of the list. Pairs with
distinct keys are all kept, and in whatever order they come they make the same map.
-/

set_option autoImplicit false

namespace Postal

theorem Text.order_eq_lt (s t : Text) : order s t = .lt ↔ s < t := by
  fun_induction order s t with
  | case1 => simp
  | case2 => simp
  | case3 => simp
  | case4 c s d t h => exact iff_of_true rfl (List.cons_lt_cons_iff.mpr (.inl h))
  | case5 c s d t h h' =>
    refine iff_of_false (by simp) fun hlt => ?_
    rcases List.cons_lt_cons_iff.mp hlt with hcd | ⟨hcd, -⟩
    · exact h hcd
    · exact (Char.ne_of_lt h') hcd.symm
  | case6 c s d t h h' ih =>
    have hcd : c = d := le_antisymm (not_lt.mp h') (not_lt.mp h)
    rw [ih, List.cons_lt_cons_iff]
    simp [hcd]

theorem Text.order_eq_gt (s t : Text) : order s t = .gt ↔ t < s := by
  rcases lt_trichotomy s t with h | h | h
  · rw [(order_eq_lt s t).mpr h]
    exact iff_of_false (by simp) h.asymm
  · rw [(order_eq_iff s t).mpr h, h]
    exact iff_of_false (by simp) (lt_irrefl t)
  · refine iff_of_true ?_ h
    cases ho : order s t with
    | lt => exact absurd ((order_eq_lt s t).mp ho) h.asymm
    | eq => exact absurd ((order_eq_iff s t).mp ho) h.ne'
    | gt => rfl

namespace TextMap

variable {α : Type}

def Sorted (entries : List (Text × α)) : Prop := entries.Pairwise fun a b => a.1 < b.1

theorem sorted_insertNew (key : Text) (value : α) (entries : List (Text × α))
    (h : Sorted entries) : Sorted (insertNew key value entries) := by
  induction entries with
  | nil => exact List.pairwise_singleton _ _
  | cons entry rest ih =>
    obtain ⟨hfirst, hrest⟩ := List.pairwise_cons.mp h
    unfold insertNew
    split
    · rename_i ho
      have hlt := (Text.order_eq_lt key entry.1).mp ho
      refine List.pairwise_cons.mpr ⟨fun other hm => ?_, h⟩
      rcases List.mem_cons.mp hm with rfl | hm
      · exact hlt
      · exact hlt.trans (hfirst other hm)
    · exact h
    · rename_i ho
      refine List.pairwise_cons.mpr ⟨fun other hm => ?_, ih hrest⟩
      rcases (mem_keys_insertNew key other.1 value rest).mp (List.mem_map_of_mem hm) with hk | hk
      · rw [hk]
        exact (Text.order_eq_gt key entry.1).mp ho
      · obtain ⟨found, hfound, he⟩ := List.mem_map.mp hk
        rw [← he]
        exact hfirst found hfound

theorem sorted_sortedEntries (pairs : List (Text × α)) : Sorted (sortedEntries pairs) := by
  induction pairs with
  | nil => exact List.Pairwise.nil
  | cons pair rest ih => exact sorted_insertNew pair.1 pair.2 _ ih

theorem lookup_eq_none_of_lt (key : Text) (entries : List (Text × α))
    (h : ∀ entry ∈ entries, key < entry.1) : entries.lookup key = none := by
  rw [List.lookup_eq_none_iff]
  intro entry hm
  simpa using (h entry hm).ne

theorem lookup_cons_of_ne (k key : Text) (value : α) (entries : List (Text × α)) (h : k ≠ key) :
    ((key, value) :: entries).lookup k = entries.lookup k := by
  rw [List.lookup_cons, beq_eq_false_iff_ne.mpr h]

theorem lookup_map {β : Type} (f : α → β) (entries : List (Text × α)) (k : Text) :
    (entries.map fun e => (e.1, f e.2)).lookup k = (entries.lookup k).map f := by
  induction entries with
  | nil => rfl
  | cons entry rest ih =>
    rw [List.map_cons, List.lookup_cons, List.lookup_cons, ih]
    split <;> rfl

theorem lookup_insertNew (key : Text) (value : α) (entries : List (Text × α))
    (h : Sorted entries) (k : Text) : (insertNew key value entries).lookup k =
      (entries.lookup k).or ([(key, value)].lookup k) := by
  induction entries with
  | nil => rfl
  | cons entry rest ih =>
    obtain ⟨first, old⟩ := entry
    obtain ⟨hfirst, hrest⟩ := List.pairwise_cons.mp h
    unfold insertNew
    split
    · rename_i ho
      have hlt := (Text.order_eq_lt key first).mp ho
      by_cases hk : k = key
      · have hnone : ((first, old) :: rest).lookup key = none :=
          lookup_eq_none_of_lt key _ fun other hm =>
            (List.mem_cons.mp hm).elim (fun he => he ▸ hlt) fun hm => hlt.trans (hfirst other hm)
        rw [hk, hnone, List.lookup_cons_self, List.lookup_cons_self, Option.none_or]
      · rw [lookup_cons_of_ne k key value _ hk, lookup_cons_of_ne k key value [] hk,
          List.lookup_nil, Option.or_none]
    · rename_i ho
      obtain rfl := (Text.order_eq_iff key first).mp ho
      by_cases hk : k = key
      · rw [hk, List.lookup_cons_self, Option.some_or]
      · rw [lookup_cons_of_ne k key value [] hk, List.lookup_nil, Option.or_none]
    · by_cases hk : k = first
      · rw [hk, List.lookup_cons_self, List.lookup_cons_self, Option.some_or]
      · rw [lookup_cons_of_ne k first old _ hk, lookup_cons_of_ne k first old rest hk, ih hrest]

theorem get?_ofList (pairs : List (Text × α)) (key : Text) :
    (ofList pairs).get? key = pairs.reverse.lookup key := by
  change (sortedEntries pairs).lookup key = _
  induction pairs with
  | nil => rfl
  | cons pair rest ih =>
    rw [sortedEntries, lookup_insertNew _ _ _ (sorted_sortedEntries rest), ih, List.reverse_cons,
      List.lookup_append]

theorem mem_of_get?_ofList (pairs : List (Text × α)) (key : Text) (value : α)
    (h : (ofList pairs).get? key = some value) : (key, value) ∈ pairs := by
  rw [get?_ofList, List.lookup_eq_some_iff] at h
  obtain ⟨later, earlier, hp, -⟩ := h
  rw [← List.mem_reverse, hp]
  exact List.mem_append_right _ List.mem_cons_self

def LastGiven (pairs : List (Text × α)) (key : Text) (value : α) : Prop :=
  ∃ before after, pairs = before ++ (key, value) :: after ∧ ∀ entry ∈ after, entry.1 ≠ key

theorem lookup_reverse_eq_some (pairs : List (Text × α)) (key : Text) (value : α) :
    pairs.reverse.lookup key = some value ↔ LastGiven pairs key value := by
  rw [List.lookup_eq_some_iff]
  constructor
  · rintro ⟨after, before, hp, hafter⟩
    refine ⟨before.reverse, after.reverse, ?_, fun entry he => ?_⟩
    · rw [← List.reverse_reverse pairs, hp]
      simp
    · exact Ne.symm (bne_iff_ne.mp (hafter entry (List.mem_reverse.mp he)))
  · rintro ⟨before, after, rfl, hafter⟩
    refine ⟨after.reverse, before.reverse, by simp, fun entry he => ?_⟩
    exact bne_iff_ne.mpr (hafter entry (List.mem_reverse.mp he)).symm

theorem lookup_reverse_eq_none (pairs : List (Text × α)) (key : Text) :
    pairs.reverse.lookup key = none ↔ ∀ entry ∈ pairs, entry.1 ≠ key := by
  rw [List.lookup_eq_none_iff]
  simp only [List.mem_reverse, bne_iff_ne, ne_comm (a := key)]

theorem mem_keys_ofList (pairs : List (Text × α)) (key : Text) :
    key ∈ (ofList pairs).keys ↔ ∃ entry ∈ pairs, entry.1 = key := by
  rw [← List.mem_map]
  change key ∈ (sortedEntries pairs).map Prod.fst ↔ _
  induction pairs with
  | nil => rfl
  | cons pair rest ih => rw [sortedEntries, mem_keys_insertNew, ih, List.map_cons, List.mem_cons]

/-! ## Lists with distinct keys -/

theorem insertNew_map {β : Type} (f : α → β) (key : Text) (value : α)
    (entries : List (Text × α)) :
    insertNew key (f value) (entries.map fun e => (e.1, f e.2)) =
      (insertNew key value entries).map fun e => (e.1, f e.2) := by
  induction entries with
  | nil => rfl
  | cons entry rest ih =>
    rw [List.map_cons, insertNew, insertNew]
    cases key.order entry.1 with
    | lt => rfl
    | eq => rfl
    | gt => exact congrArg _ ih

theorem sortedEntries_map {β : Type} (f : α → β) (pairs : List (Text × α)) :
    sortedEntries (pairs.map fun e => (e.1, f e.2)) =
      (sortedEntries pairs).map fun e => (e.1, f e.2) := by
  induction pairs with
  | nil => rfl
  | cons pair rest ih => rw [List.map_cons, sortedEntries, ih, insertNew_map, ← sortedEntries]

theorem insertNew_perm (key : Text) (value : α) (entries : List (Text × α))
    (h : key ∉ entries.map Prod.fst) :
    (insertNew key value entries).Perm ((key, value) :: entries) := by
  induction entries with
  | nil => exact List.Perm.refl _
  | cons entry rest ih =>
    rw [List.map_cons, List.mem_cons, not_or] at h
    unfold insertNew
    split
    · exact List.Perm.refl _
    · rename_i ho
      exact absurd ((Text.order_eq_iff key entry.1).mp ho) h.1
    · exact ((ih h.2).cons entry).trans (List.Perm.swap _ _ _)

theorem sortedEntries_perm (pairs : List (Text × α)) (h : (pairs.map Prod.fst).Nodup) :
    (sortedEntries pairs).Perm pairs := by
  induction pairs with
  | nil => exact List.Perm.refl _
  | cons pair rest ih =>
    obtain ⟨hfirst, hrest⟩ := List.nodup_cons.mp h
    have hperm := ih hrest
    refine (insertNew_perm pair.1 pair.2 _ ?_).trans (hperm.cons pair)
    rwa [(hperm.map Prod.fst).mem_iff]

theorem Sorted.nodup {entries : List (Text × α)} (h : Sorted entries) :
    (entries.map Prod.fst).Nodup :=
  List.pairwise_map.mpr (h.imp fun hlt => hlt.ne)

theorem Sorted.eq_of_perm {entries others : List (Text × α)} (h : Sorted entries)
    (ho : Sorted others) (hp : entries.Perm others) : entries = others :=
  hp.eq_of_pairwise (fun _ _ _ _ hlt hgt => absurd hgt hlt.asymm) h ho

theorem sortedEntries_of_sorted (entries : List (Text × α)) (h : Sorted entries) :
    sortedEntries entries = entries :=
  (sorted_sortedEntries entries).eq_of_perm h (sortedEntries_perm entries h.nodup)

theorem sortedEntries_eq_of_perm (pairs others : List (Text × α))
    (h : (pairs.map Prod.fst).Nodup) (hp : pairs.Perm others) :
    sortedEntries pairs = sortedEntries others := by
  have ho : (others.map Prod.fst).Nodup := (hp.map Prod.fst).nodup_iff.mp h
  refine (sorted_sortedEntries pairs).eq_of_perm (sorted_sortedEntries others) ?_
  exact (sortedEntries_perm pairs h).trans (hp.trans (sortedEntries_perm others ho).symm)

end TextMap
end Postal
