import Postal.Proofs.FieldOrder.Distinct

/-!
# Custom orders

A custom order moves the fields that it names among the places they hold, and
no other field. The fields found at these places are then the custom order
without those that are absent, so applying it once more changes nothing. The
places are written only after the whole custom order has been read, so one that
is rejected has no effect on an order held in memory either.
-/

set_option autoImplicit false

namespace Postal.FieldOrder

/-! ## Rejection -/

/-- The field stands at a place where it repeats an earlier one, and no place before does so. -/
def FirstRepeat (fields : List Field) (f : Field) : Prop :=
  ∃ before after, fields = before ++ f :: after ∧ before.Nodup ∧ f ∈ before

/-- Behind fields already `seen`, these too can be repeated. -/
theorem firstRepeat_of_repeatBeside? (seen fields : List Field) (f : Field)
    (h : repeatBeside? seen fields = some f) :
    ∃ before after, fields = before ++ f :: after ∧ before.Nodup ∧ (∀ g ∈ before, g ∉ seen) ∧
      (f ∈ before ∨ f ∈ seen) := by
  induction fields generalizing seen with
  | nil => cases h
  | cons g rest ih =>
    unfold repeatBeside? at h
    by_cases hg : g ∈ seen
    · rw [if_pos hg] at h
      cases h
      exact ⟨[], rest, rfl, List.nodup_nil, by simp, .inr hg⟩
    · rw [if_neg hg] at h
      obtain ⟨before, after, rfl, hn, hb, hf⟩ := ih (g :: seen) h
      have hgb : g ∉ before := fun hm => hb g hm List.mem_cons_self
      refine ⟨g :: before, after, rfl, List.nodup_cons.mpr ⟨hgb, hn⟩, ?_, ?_⟩
      · intro k hk
        rcases List.mem_cons.mp hk with rfl | hk
        · exact hg
        · exact fun hs => hb k hk (List.mem_cons_of_mem g hs)
      · rcases hf with hf | hf
        · exact .inl (List.mem_cons_of_mem g hf)
        · rcases List.mem_cons.mp hf with rfl | hf
          · exact .inl List.mem_cons_self
          · exact .inr hf

theorem firstRepeat_of_repeat? (fields : List Field) (f : Field) (h : repeat? fields = some f) :
    FirstRepeat fields f := by
  obtain ⟨before, after, he, hn, -, hf⟩ := firstRepeat_of_repeatBeside? [] fields f h
  exact ⟨before, after, he, hn, hf.resolve_right List.not_mem_nil⟩

theorem applyCustom_eq_error (region : Text) (order custom : List Field) (e : FieldError) :
    applyCustom region order custom = .error e ↔
      ∃ f, repeat? custom = some f ∧ e = .repeatedInOrder region f := by
  unfold applyCustom
  split
  · rename_i f hf
    rw [hf]
    constructor
    · intro h
      injection h with h
      exact ⟨f, rfl, h.symm⟩
    · rintro ⟨g, hg, rfl⟩
      cases hg
      rfl
  · rename_i hn
    simp [hn]

theorem applyCustom_eq_ok (region : Text) (order custom next : List Field) :
    applyCustom region order custom = .ok next ↔
      custom.Nodup ∧ next = refill custom order (custom.filter order.contains) := by
  rw [← repeat?_eq_none]
  unfold applyCustom
  split
  · rename_i f hf
    simp [hf]
  · rename_i hn
    simp [hn, eq_comm]

/-! ## Places and the queue -/

theorem refill_congr (members others order queue : List Field)
    (h : ∀ f, f ∈ members ↔ f ∈ others) :
    refill members order queue = refill others order queue := by
  induction order generalizing queue with
  | nil => rfl
  | cons f order ih =>
    cases queue with
    | nil => rfl
    | cons next queue => simp only [refill, h f, ih]

theorem refill_getElem? (members order queue : List Field) (i : ℕ) (f : Field)
    (h : order[i]? = some f) (hf : f ∉ members) : (refill members order queue)[i]? = some f := by
  induction order generalizing i queue with
  | nil => cases h
  | cons g order ih =>
    cases queue with
    | nil => exact h
    | cons next queue =>
      unfold refill
      cases i with
      | zero =>
        cases h
        rw [if_neg hf]
        rfl
      | succ i =>
        split
        · exact ih queue i h
        · exact ih (next :: queue) i h

/-- With as many queued fields as places held by members, these places hold the queue. -/
theorem filter_refill (members order queue : List Field)
    (hl : queue.length = (order.filter (· ∈ members)).length) (hq : ∀ f ∈ queue, f ∈ members) :
    (refill members order queue).filter (· ∈ members) = queue := by
  induction order generalizing queue with
  | nil => exact (List.length_eq_zero_iff.mp hl).symm
  | cons f order ih =>
    cases queue with
    | nil => exact List.length_eq_zero_iff.mp hl.symm
    | cons next queue =>
      obtain ⟨hnext, hqueue⟩ := List.forall_mem_cons.mp hq
      unfold refill
      by_cases hf : f ∈ members
      · rw [if_pos hf, List.filter_cons_of_pos (by simpa using hnext)]
        rw [ih queue (by simpa [hf] using hl) hqueue]
      · rw [if_neg hf, List.filter_cons_of_neg (by simpa using hf)]
        exact ih (next :: queue) (by simpa [hf] using hl) hq

theorem refill_self (members order : List Field) :
    refill members order (order.filter (· ∈ members)) = order := by
  induction order with
  | nil => rfl
  | cons f order ih =>
    by_cases hf : f ∈ members
    · rw [List.filter_cons_of_pos (by simpa using hf), refill, if_pos hf, ih]
    · rw [List.filter_cons_of_neg (by simpa using hf)]
      cases hq : order.filter (· ∈ members) with
      | nil => rfl
      | cons next queue => rw [refill, if_neg hf, ← hq, ih]

structure Rearranges (order custom next : List Field) : Prop where
  length : next.length = order.length
  perm : next.Perm order
  fixed : ∀ (i : ℕ) (f : Field), order[i]? = some f → f ∉ custom → next[i]? = some f
  moved : next.filter (· ∈ custom) = custom.filter (· ∈ order)

theorem filter_contains (order custom : List Field) :
    custom.filter order.contains = custom.filter (· ∈ order) :=
  List.filter_congr fun f _ => List.contains_eq_mem f order

theorem rearranges_refill (order custom : List Field) (ho : order.Nodup) (hc : custom.Nodup) :
    Rearranges order custom (refill custom order (custom.filter order.contains)) where
  length := refill_length custom order _
  perm := refill_perm order custom ho hc
  fixed i f hi hf := refill_getElem? custom order _ i f hi hf
  moved := by
    have hlength := (queue_perm order custom ho hc).length_eq
    have hqueue := fun f (hf : f ∈ custom.filter order.contains) => (List.mem_filter.mp hf).1
    rw [filter_refill custom order _ hlength hqueue, filter_contains]

theorem Rearranges.applyCustom_eq {order custom next : List Field}
    (h : Rearranges order custom next) (region : Text) (hc : custom.Nodup) :
    applyCustom region next custom = .ok next := by
  apply (applyCustom_eq_ok region next custom next).mpr
  refine ⟨hc, ?_⟩
  have hqueue : custom.filter next.contains = next.filter (· ∈ custom) := by
    rw [filter_contains, h.moved]
    simp only [h.perm.mem_iff]
  rw [hqueue, refill_self]

/-! ## Orders held in memory -/

theorem collect_eq (region : Text) (present members queue custom : List Field) :
    collect region present members queue custom =
      match repeatBeside? members custom with
      | some f => .error (.repeatedInOrder region f)
      | none => .ok (custom.reverse ++ members, queue ++ custom.filter present.contains) := by
  induction custom generalizing members queue with
  | nil => simp [collect, repeatBeside?]
  | cons f rest ih =>
    unfold collect repeatBeside?
    by_cases hf : f ∈ members
    · rw [if_pos hf, if_pos hf]
    · rw [if_neg hf, if_neg hf, ih]
      cases repeatBeside? (f :: members) rest with
      | some g => rfl
      | none => by_cases hp : f ∈ present <;> simp [hp]

/-- In place the outcome is that of `applyCustom`, and a rejected custom order leaves the
order as it was. -/
theorem rearrange_run (region : Text) (order custom : List Field) :
    (rearrange region custom).run.run order =
      match applyCustom region order custom with
      | .ok next => (.ok (), next)
      | .error e => (.error e, order) := by
  rw [rearrange_run_collect, collect_eq, applyCustom, repeat?]
  cases repeatBeside? [] custom with
  | some f => rfl
  | none =>
    have hmembers : ∀ f, f ∈ custom.reverse ++ [] ↔ f ∈ custom := by simp
    exact congrArg _ (refill_congr _ _ order _ hmembers)

/-- A custom order is rejected exactly if it repeats a field, of which it names the first that
does, and then has no effect. Otherwise it rearranges its fields among their places, and doing
so again changes nothing. -/
theorem applyCustom_rearranges (region : Text) (order custom : List Field) (h : order.Nodup) :
    ((∃ e, applyCustom region order custom = .error e) ↔ ¬custom.Nodup) ∧
      (∀ e, applyCustom region order custom = .error e →
        (∃ f, FirstRepeat custom f ∧ e = .repeatedInOrder region f) ∧
          (rearrange region custom).run.run order = (.error e, order)) ∧
      ∀ next, applyCustom region order custom = .ok next →
        Rearranges order custom next ∧ applyCustom region next custom = .ok next ∧
          (rearrange region custom).run.run order = (.ok (), next) := by
  refine ⟨?_, ?_, ?_⟩
  · rw [← repeat?_eq_none, ← ne_eq, Option.ne_none_iff_exists']
    constructor
    · rintro ⟨e, he⟩
      obtain ⟨f, hf, -⟩ := (applyCustom_eq_error region order custom e).mp he
      exact ⟨f, hf⟩
    · rintro ⟨f, hf⟩
      exact ⟨_, (applyCustom_eq_error region order custom _).mpr ⟨f, hf, rfl⟩⟩
  · intro e he
    obtain ⟨f, hf, hef⟩ := (applyCustom_eq_error region order custom e).mp he
    refine ⟨⟨f, firstRepeat_of_repeat? custom f hf, hef⟩, ?_⟩
    rw [rearrange_run, he]
  · intro next hnext
    obtain ⟨hc, he⟩ := (applyCustom_eq_ok region order custom next).mp hnext
    have hr : Rearranges order custom next := he ▸ rearranges_refill order custom h hc
    refine ⟨hr, hr.applyCustom_eq region hc, ?_⟩
    rw [rearrange_run, hnext]

theorem applyCustom_rearranges_swapped :
    [Field.recipient, .streetAddress, .locality, .postalCode].Nodup ∧
      Rearranges [.recipient, .streetAddress, .locality, .postalCode]
        [.postalCode, .organization, .recipient]
        [.postalCode, .streetAddress, .locality, .recipient] ∧
      ∃ f, FirstRepeat [.locality, .recipient, .recipient, .locality] f ∧ f = .recipient ∧
        (rearrange "US".toList [.locality, .recipient, .recipient, .locality]).run.run
            [.recipient, .streetAddress, .locality, .postalCode] =
          (.error (.repeatedInOrder "US".toList f),
            [.recipient, .streetAddress, .locality, .postalCode]) := by
  have hn : [Field.recipient, .streetAddress, .locality, .postalCode].Nodup := by decide
  obtain ⟨-, -, hok⟩ := applyCustom_rearranges "US".toList _
    [.postalCode, .organization, .recipient] hn
  obtain ⟨-, herror, -⟩ := applyCustom_rearranges "US".toList _
    [.locality, .recipient, .recipient, .locality] hn
  obtain ⟨⟨f, hf, he⟩, hrun⟩ := herror _ rfl
  refine ⟨hn, (hok _ rfl).1, f, hf, ?_, he ▸ hrun⟩
  injection he with _ hfield
  exact hfield.symm

end Postal.FieldOrder
