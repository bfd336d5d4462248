import Mathlib.Data.List.Pairwise
import Mathlib.Data.Prod.Lex
import Postal.Proofs.Text.EditDistance
import Postal.Proofs.Text.Map
import Postal.Text.Suggestion

/-!
# The best suggestions

Distance and code points together are a linear order, so the near candidates can be sorted in one
way only, whatever order they came in. The suggestions are the first three of them. A list is the
best there is exactly if it is this one: put in front of the near candidates it leaves out, it is
sorted, and so it is a beginning of the sorted list.
-/

set_option autoImplicit false

namespace Postal.Text

/-- By the distance from the key, and by code points where that is the same. -/
def Precedes (key s t : Text) : Prop :=
  editDistance key s < editDistance key t ∨ editDistance key s = editDistance key t ∧ s ≤ t

/-- At most one edit from a key of up to three characters, or two from a longer one. -/
def Near (key candidate : Text) : Prop :=
  editDistance key candidate ≤ if key.length ≤ 3 then 1 else 2

/-- Up to three near candidates in order, with others left out. One that is near is left out only
for three that precede it. -/
structure Best (key : Text) (available found : List Text) : Prop where
  few : found.length ≤ 3
  near : ∀ s ∈ found, Near key s
  sorted : found.Pairwise (Precedes key)
  others : ∃ others, available.Perm (found ++ others) ∧ ∀ s ∈ others, Near key s →
    found.length = 3 ∧ ∀ last, found.getLast? = some last → Precedes key last s

section
variable (key : Text)

instance (s t : Text) : Decidable (Precedes key s t) := inferInstanceAs (Decidable (_ ∨ _))

instance (candidate : Text) : Decidable (Near key candidate) :=
  inferInstanceAs (Decidable (_ ≤ _))

/-! ## The order -/

theorem precedes_iff (s t : Text) :
    Precedes key s t ↔ toLex (editDistance key s, s) ≤ toLex (editDistance key t, t) := by
  rw [Prod.Lex.toLex_le_toLex]
  rfl

instance : Std.Refl (Precedes key) where
  refl s := (precedes_iff key s s).mpr le_rfl

theorem precedes_antisymm (s t : Text) (h : Precedes key s t) (h' : Precedes key t s) :
    s = t := by
  rw [precedes_iff] at h h'
  exact (Prod.mk.inj (toLex.injective (le_antisymm h h'))).2

theorem order_ne_gt (s t : Text) : order s t ≠ .gt ↔ s ≤ t := by
  rw [Ne, order_eq_gt, not_lt]

theorem ranksBefore_iff (a b : ℕ × Text) : ranksBefore a b = true ↔ toLex a ≤ toLex b := by
  rw [Prod.Lex.toLex_le_toLex, ← order_ne_gt]
  simp [ranksBefore]

/-! ## The near candidates in order -/

def ranked (available : List Text) : List Text :=
  ((scored key available).mergeSort ranksBefore).map Prod.snd

theorem suggestions_eq_take (available : List Text) :
    suggestions key available = (ranked key available).take 3 :=
  List.map_take

theorem mem_scored (available : List Text) (entry : ℕ × Text) (h : entry ∈ scored key available) :
    entry.1 = editDistance key entry.2 := by
  obtain ⟨candidate, -, rfl⟩ := List.mem_map.mp (List.mem_filter.mp h).1
  rfl

theorem map_scored (available : List Text) :
    (scored key available).map Prod.snd = available.filter (Near key ·) := by
  rw [scored, List.filter_map, List.map_map]
  exact List.map_id _

theorem ranked_perm (available : List Text) :
    (ranked key available).Perm (available.filter (Near key ·)) := by
  rw [← map_scored]
  exact (List.mergeSort_perm _ _).map Prod.snd

theorem ranked_sorted (available : List Text) :
    (ranked key available).Pairwise (Precedes key) := by
  have htrans : ∀ a b c : ℕ × Text, ranksBefore a b → ranksBefore b c → ranksBefore a c := by
    intro a b c hab hbc
    rw [ranksBefore_iff] at hab hbc ⊢
    exact hab.trans hbc
  have htotal : ∀ a b : ℕ × Text, (ranksBefore a b || ranksBefore b a) := by
    intro a b
    rw [Bool.or_eq_true, ranksBefore_iff, ranksBefore_iff]
    exact le_total _ _
  have hsorted := List.pairwise_mergeSort htrans htotal (scored key available)
  refine List.pairwise_map.mpr (hsorted.imp_of_mem fun {a b} ha hb hab => ?_)
  rw [precedes_iff, ← mem_scored key available a ((List.mergeSort_perm _ _).mem_iff.mp ha),
    ← mem_scored key available b ((List.mergeSort_perm _ _).mem_iff.mp hb)]
  exact (ranksBefore_iff a b).mp hab

theorem eq_ranked (available found : List Text) (hs : found.Pairwise (Precedes key))
    (hp : found.Perm (available.filter (Near key ·))) : found = ranked key available :=
  (hp.trans (ranked_perm key available).symm).eq_of_pairwise
    (fun s t _ _ => precedes_antisymm key s t) hs (ranked_sorted key available)

/-! ## The first three -/

theorem best_suggestions (available : List Text) :
    Best key available (suggestions key available) := by
  have hsplit := List.take_append_drop 3 (ranked key available)
  have hsorted := ranked_sorted key available
  have hnear : ∀ s ∈ ranked key available, Near key s := fun s hs => by
    simpa using (List.mem_filter.mp ((ranked_perm key available).mem_iff.mp hs)).2
  rw [← hsplit] at hsorted hnear
  obtain ⟨hfirst, -, hcross⟩ := List.pairwise_append.mp hsorted
  rw [suggestions_eq_take]
  refine ⟨List.length_take_le _ _, fun s hs => hnear s (List.mem_append_left _ hs), hfirst, ?_⟩
  refine ⟨(ranked key available).drop 3 ++ available.filter fun s => !decide (Near key s), ?_, ?_⟩
  · rw [← List.append_assoc, hsplit]
    exact (List.filter_append_perm _ _).symm.trans
      ((ranked_perm key available).symm.append_right _)
  · intro s hs hn
    rcases List.mem_append.mp hs with hs | hs
    · -- Something is left behind the first three, so there are three.
      have hlength : 3 < (ranked key available).length := by
        by_contra hle
        rw [List.drop_eq_nil_of_le (not_lt.mp hle)] at hs
        cases hs
      refine ⟨by rw [List.length_take]; omega, fun last hl => ?_⟩
      exact hcross last (List.mem_of_getLast? hl) s hs
    · simp [hn] at hs

/-- A best list is a beginning of the near candidates in order. -/
theorem Best.eq_suggestions {key : Text} {available found : List Text}
    (h : Best key available found) : found = suggestions key available := by
  obtain ⟨others, hperm, hothers⟩ := h.others
  have hcross : ∀ s ∈ found, ∀ t ∈ ranked key others, Precedes key s t := by
    intro s hs t ht
    obtain ⟨ht, hn⟩ := List.mem_filter.mp ((ranked_perm key others).mem_iff.mp ht)
    have hlast := (hothers t ht (by simpa using hn)).2 _
      (List.getLast?_eq_some_getLast (List.ne_nil_of_mem hs))
    have hle := h.sorted.rel_getLast hs
    rw [precedes_iff] at hle hlast ⊢
    exact hle.trans hlast
  have hsorted : (found ++ ranked key others).Pairwise (Precedes key) :=
    List.pairwise_append.mpr ⟨h.sorted, ranked_sorted key others, hcross⟩
  have hnear : (found ++ ranked key others).Perm (available.filter (Near key ·)) := by
    have hall : found.filter (Near key ·) = found :=
      List.filter_eq_self.mpr fun s hs => by simpa using h.near s hs
    have hfilter := hperm.filter (Near key ·)
    rw [List.filter_append, hall] at hfilter
    exact ((ranked_perm key others).append_left found).trans hfilter.symm
  rw [suggestions_eq_take, ← eq_ranked key available _ hsorted hnear]
  cases hr : ranked key others with
  | nil => rw [List.append_nil, List.take_of_length_le h.few]
  | cons t rest =>
    -- A near candidate is left out, so there are three.
    have ht : t ∈ others.filter (Near key ·) :=
      (ranked_perm key others).mem_iff.mp (hr ▸ List.mem_cons_self)
    obtain ⟨ht, hn⟩ := List.mem_filter.mp ht
    rw [List.take_left' (hothers t ht (by simpa using hn)).1]

theorem Best.of_perm {key : Text} {available found more : List Text}
    (h : Best key available found) (hp : available.Perm more) : Best key more found := by
  obtain ⟨others, hperm, hothers⟩ := h.others
  exact ⟨h.few, h.near, h.sorted, others, hp.symm.trans hperm, hothers⟩

/-- The distance is the least number of edits. By it the suggestions are the best candidates, and
the only list that is, so they are the same for the candidates in any order. -/
theorem suggestions_best (available : List Text) :
    (∀ candidate, IsLeast {n | EditedIn n key candidate} (editDistance key candidate)) ∧
    (∀ found, Best key available found ↔ found = suggestions key available) ∧
    ∀ others, available.Perm others → suggestions key others = suggestions key available := by
  refine ⟨editDistance_isLeast key, fun found => ⟨Best.eq_suggestions, ?_⟩, fun others hp => ?_⟩
  · rintro rfl
    exact best_suggestions key available
  · exact ((best_suggestions key available).of_perm hp).eq_suggestions.symm

end

/-- Ties stand in code point order, a candidate that is listed twice counts twice, and a near one
is left out for three that are nearer. -/
theorem suggestions_best_ties :
    let available :=
      ["sizes".toList, "site".toList, "seize".toList, "sit".toList, "price".toList, "site".toList]
    available.Perm available.reverse ∧
      suggestions "size".toList available = ["seize".toList, "site".toList, "site".toList] ∧
      suggestions "size".toList available.reverse =
        ["seize".toList, "site".toList, "site".toList] ∧
      IsLeast {n | EditedIn n "size".toList "sit".toList} 2 := by
  intro available
  obtain ⟨hleast, hbest, hperm⟩ := suggestions_best "size".toList available
  have hrest : available.Perm (["seize".toList, "site".toList, "site".toList] ++
      ["sizes".toList, "sit".toList, "price".toList]) := by decide
  have hreverse : available.Perm available.reverse := by decide
  have hfound := (hbest ["seize".toList, "site".toList, "site".toList]).mp
    ⟨by decide, by decide, by decide, _, hrest, by decide⟩
  exact ⟨hreverse, hfound.symm, (hperm _ hreverse).trans hfound.symm, hleast "sit".toList⟩

end Postal.Text
