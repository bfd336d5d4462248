import Mathlib.Data.List.Perm.Basic
import Postal.FieldOrder

/-!
# Distinct fields

Keeping the first references leaves every field once. A custom order
permutes what it is applied to, so it keeps that. Expanding the street address
does not always: where a line field stands beside the street address, it
comes up twice.
-/

set_option autoImplicit false

namespace Postal.FieldOrder

theorem mem_firstSeenBeside (seen fields : List Field) (f : Field) :
    f ∈ firstSeenBeside seen fields ↔ f ∈ fields ∧ f ∉ seen := by
  induction fields generalizing seen with
  | nil => simp [firstSeenBeside]
  | cons g rest ih =>
    unfold firstSeenBeside
    by_cases hg : g ∈ seen
    · rw [if_pos hg, ih, List.mem_cons]
      constructor
      · exact fun h => ⟨.inr h.1, h.2⟩
      · rintro ⟨rfl | h, hs⟩
        · exact absurd hg hs
        · exact ⟨h, hs⟩
    · rw [if_neg hg, List.mem_cons, ih, List.mem_cons, List.mem_cons]
      by_cases he : f = g
      · subst he
        simp [hg]
      · simp [he]

theorem mem_firstSeen (fields : List Field) (f : Field) : f ∈ firstSeen fields ↔ f ∈ fields := by
  simp [firstSeen, mem_firstSeenBeside]

theorem repeatBeside?_eq_none (seen fields : List Field) :
    repeatBeside? seen fields = none ↔ fields.Nodup ∧ ∀ f ∈ fields, f ∉ seen := by
  induction fields generalizing seen with
  | nil => simp [repeatBeside?]
  | cons g rest ih =>
    unfold repeatBeside?
    by_cases hg : g ∈ seen
    · rw [if_pos hg]
      constructor
      · exact fun h => absurd h (by simp)
      · exact fun h => absurd hg (h.2 g List.mem_cons_self)
    · rw [if_neg hg, ih, List.nodup_cons, List.forall_mem_cons]
      constructor
      · rintro ⟨hn, ho⟩
        exact ⟨⟨fun hm => ho g hm List.mem_cons_self, hn⟩, hg,
          fun f hf hs => ho f hf (List.mem_cons_of_mem g hs)⟩
      · rintro ⟨⟨hm, hn⟩, -, ho⟩
        constructor
        · exact hn
        · intro f hf hs
          rcases List.mem_cons.mp hs with rfl | hs
          · exact hm hf
          · exact ho f hf hs

theorem repeat?_eq_none (fields : List Field) : repeat? fields = none ↔ fields.Nodup := by
  simp [repeat?, repeatBeside?_eq_none]

/-- With a queue as long as the number of places held by `members`, the queue
replaces the fields in these places. -/
theorem refill_perm_append (members order queue : List Field)
    (h : queue.length = (order.filter (· ∈ members)).length) :
    (refill members order queue).Perm (queue ++ order.filter (· ∉ members)) := by
  induction order generalizing queue with
  | nil =>
    rw [List.filter_nil, List.length_nil, List.length_eq_zero_iff] at h
    subst h
    exact List.Perm.refl _
  | cons f order ih =>
    cases queue with
    | nil =>
      have hnone : ∀ g ∈ f :: order, g ∉ members := by
        simpa using List.length_eq_zero_iff.mp h.symm
      rw [refill, List.nil_append, List.filter_eq_self.mpr (by simpa using hnone)]
    | cons next queue =>
      unfold refill
      by_cases hf : f ∈ members
      · rw [if_pos hf, List.filter_cons_of_neg (by simp [hf]), List.cons_append]
        exact (ih queue (by simpa [hf] using h)).cons next
      · rw [if_neg hf, List.filter_cons_of_pos (by simp [hf])]
        have hperm := ih (next :: queue) (by simpa [hf] using h)
        exact (hperm.cons f).trans List.perm_middle.symm

theorem queue_perm (order custom : List Field) (ho : order.Nodup) (hc : custom.Nodup) :
    (custom.filter order.contains).Perm (order.filter (· ∈ custom)) := by
  rw [List.perm_ext_iff_of_nodup (hc.filter _) (ho.filter _)]
  intro f
  simp [and_comm]

theorem refill_perm (order custom : List Field) (ho : order.Nodup) (hc : custom.Nodup) :
    (refill custom order (custom.filter order.contains)).Perm order := by
  have hq := queue_perm order custom ho hc
  calc (refill custom order (custom.filter order.contains)).Perm
        (custom.filter order.contains ++ order.filter (· ∉ custom)) :=
      refill_perm_append custom order _ hq.length_eq
    List.Perm _ (order.filter (· ∈ custom) ++ order.filter (· ∉ custom)) := hq.append_right _
    List.Perm _ order := by simpa using List.filter_append_perm (· ∈ custom) order

theorem applyCustom_perm (region : Text) (order custom : List Field) (ho : order.Nodup)
    (hc : custom.Nodup) :
    ∃ next, applyCustom region order custom = .ok next ∧ next.Perm order := by
  refine ⟨_, ?_, refill_perm order custom ho hc⟩
  rw [applyCustom, (repeat?_eq_none custom).mpr hc]

theorem expandStreet_of_notMem (order : List Field) (h : .streetAddress ∉ order) :
    expandStreet order = order := by
  fun_induction expandStreet order with
  | case1 => rfl
  | case2 rest => exact absurd List.mem_cons_self h
  | case3 f rest _ ih => rw [ih fun hm => h (List.mem_cons_of_mem f hm)]

theorem expandStreet_perm (order : List Field) (h : .streetAddress ∈ order) :
    (expandStreet order).Perm
      (.addressLine1 :: .addressLine2 :: order.erase .streetAddress) := by
  fun_induction expandStreet order with
  | case1 => cases h
  | case2 rest => rw [List.erase_cons_head]
  | case3 f rest hf ih =>
    have hne : f ≠ .streetAddress := fun he => hf he
    have hm : Field.streetAddress ∈ rest := (List.mem_cons.mp h).resolve_left hne.symm
    rw [List.erase_cons_tail (by simpa using hne)]
    apply ((ih hm).cons f).trans
    exact (List.Perm.swap _ _ _).trans ((List.Perm.swap _ _ _).cons _)

theorem expandStreet_split (order : List Field) (h : .streetAddress ∈ order) :
    ∃ before after, order = before ++ .streetAddress :: after ∧
      expandStreet order = before ++ .addressLine1 :: .addressLine2 :: after := by
  fun_induction expandStreet order with
  | case1 => cases h
  | case2 rest => exact ⟨[], rest, rfl, rfl⟩
  | case3 f rest hf ih =>
    have hm : Field.streetAddress ∈ rest := (List.mem_cons.mp h).resolve_left fun he => hf he.symm
    obtain ⟨before, after, ho, he⟩ := ih hm
    refine ⟨f :: before, after, ?_, ?_⟩
    · rw [List.cons_append, ← ho]
    · rw [List.cons_append, ← he]

theorem expandStreet_perm_of_perm (order other : List Field) (h : order.Perm other) :
    (expandStreet order).Perm (expandStreet other) := by
  by_cases hs : .streetAddress ∈ order
  · have herase := h.erase Field.streetAddress
    calc (expandStreet order).Perm
          (.addressLine1 :: .addressLine2 :: order.erase .streetAddress) :=
        expandStreet_perm order hs
      List.Perm _ (.addressLine1 :: .addressLine2 :: other.erase .streetAddress) :=
        (herase.cons _).cons _
      List.Perm _ (expandStreet other) := (expandStreet_perm other (h.mem_iff.mp hs)).symm
  · rw [expandStreet_of_notMem order hs,
      expandStreet_of_notMem other fun ho => hs (h.mem_iff.mpr ho)]
    exact h

theorem streetAddress_notMem_expandStreet (order : List Field) (h : order.Nodup) :
    .streetAddress ∉ expandStreet order := by
  by_cases hs : .streetAddress ∈ order
  · rw [(expandStreet_perm order hs).mem_iff]
    simp [h.mem_erase_iff]
  · rwa [expandStreet_of_notMem order hs]

/-- Expansion keeps the fields distinct unless a line field stands beside the
street address. -/
theorem expandStreet_nodup (order : List Field) (h : order.Nodup) :
    (expandStreet order).Nodup ↔
      ¬(.streetAddress ∈ order ∧ (.addressLine1 ∈ order ∨ .addressLine2 ∈ order)) := by
  by_cases hs : .streetAddress ∈ order
  · have hmem : ∀ f : Field, f ≠ .streetAddress → (f ∈ order.erase .streetAddress ↔ f ∈ order) :=
      fun f hf => List.mem_erase_of_ne hf
    rw [(expandStreet_perm order hs).nodup_iff, List.nodup_cons, List.nodup_cons, List.mem_cons,
      hmem _ (by decide), hmem _ (by decide)]
    have hn : (order.erase .streetAddress).Nodup := h.erase _
    simp [hs, hn, not_or]
  · rw [expandStreet_of_notMem order hs]
    simp [hs, h]

end Postal.FieldOrder
