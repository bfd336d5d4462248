import Postal.Proofs.FieldOrder.Custom
import Postal.Proofs.FormOptions.Orders
import Postal.Proofs.Outcome
import Postal.Proofs.Text.Case
import Postal.Proofs.Text.Map

/-!
# Runs of form options

However options are put together, the order of a region is the list that was last accepted for
exactly this region, whatever was set, replaced, removed or rejected for it before and for other
regions in between. A list is rejected for what stands in it alone, and before anything is
written. Regions are blacklisted for good, and up to the case of their letters.
-/

set_option autoImplicit false

namespace Postal.FormOptions

/-! ## Setting an order -/

/-- In place the outcome is that of `setOrder`, and a rejected list leaves all options as they
were. -/
theorem storeOrder_run (o : FormOptions) (region : Text) (fields : List Field) :
    (storeOrder region fields).run.run o =
      match o.setOrder region fields with
      | .ok next => (.ok (), next)
      | .error e => (.error e, o) := by
  unfold storeOrder setOrder
  by_cases hf : fields = []
  · subst hf
    rfl
  · rw [if_neg hf]
    cases FieldOrder.repeat? fields with
    | some f => rfl
    | none =>
      simp only [if_neg hf]
      rfl

def withOrder (o : FormOptions) (region : Text) (fields : List Field) : FormOptions :=
  let others := o.orders.filter fun entry => entry.1 != region
  { o with orders := if fields = [] then others else (region, fields) :: others }

theorem setOrder_eq_ok (o next : FormOptions) (region : Text) (fields : List Field) :
    o.setOrder region fields = .ok next ↔ fields.Nodup ∧ next = o.withOrder region fields := by
  rw [← FieldOrder.repeat?_eq_none]
  unfold setOrder withOrder
  split
  · rename_i f hf
    simp [hf]
  · rename_i hn
    simp [hn, eq_comm]

theorem setOrder_eq_error (o : FormOptions) (region : Text) (fields : List Field)
    (e : FieldError) :
    o.setOrder region fields = .error e ↔
      ∃ f, FieldOrder.repeat? fields = some f ∧ e = .repeatedInOrder region f := by
  unfold setOrder
  split
  · rename_i f hf
    simp [hf, eq_comm]
  · rename_i hn
    simp [hn]

theorem exists_setOrder_error (o : FormOptions) (region : Text) (fields : List Field) :
    (∃ e, o.setOrder region fields = .error e) ↔ ¬fields.Nodup := by
  cases hs : o.setOrder region fields with
  | ok next => simp [((setOrder_eq_ok o next region fields).mp hs).1]
  | error e =>
    have hn : ¬fields.Nodup := by
      intro hn
      rw [(setOrder_eq_ok o _ region fields).mpr ⟨hn, rfl⟩] at hs
      cases hs
    simp [hn]

theorem lookup_filter_ne (orders : List (Text × List Field)) (region other : Text) :
    (orders.filter fun entry => entry.1 != other).lookup region =
      if region = other then none else orders.lookup region := by
  induction orders with
  | nil => split_ifs <;> rfl
  | cons entry orders ih =>
    obtain ⟨key, fields⟩ := entry
    by_cases hkey : key = other
    · subst hkey
      rw [List.filter_cons_of_neg (by simp), ih]
      split_ifs with hregion
      · rfl
      · rw [TextMap.lookup_cons_of_ne region key fields orders hregion]
    · rw [List.filter_cons_of_pos (by simp [hkey])]
      by_cases hregion : region = key
      · subst hregion
        rw [List.lookup_cons_self, List.lookup_cons_self, if_neg hkey]
      · rw [TextMap.lookup_cons_of_ne region key fields _ hregion, ih,
          TextMap.lookup_cons_of_ne region key fields _ hregion]

theorem order_withOrder (o : FormOptions) (region other : Text) (fields : List Field) :
    (o.withOrder other fields).order region =
      if region = other then fields else o.order region := by
  unfold withOrder order
  by_cases hf : fields = []
  · simp only [if_pos hf, lookup_filter_ne]
    split_ifs
    · exact hf.symm
    · rfl
  · simp only [if_neg hf]
    by_cases hregion : region = other
    · subst hregion
      rw [List.lookup_cons_self, if_pos rfl]
      rfl
    · rw [TextMap.lookup_cons_of_ne region other fields _ hregion, lookup_filter_ne,
        if_neg hregion, if_neg hregion]

/-! ## Runs -/

/-- The list that an edit sets for a region, unless the list is rejected. -/
def Edit.accepted? (region : Text) : Edit → Option (List Field)
  | .order other fields => if region = other ∧ fields.Nodup then some fields else none
  | _ => none

theorem apply_order (o : FormOptions) (region : Text) (fields : List Field) :
    o.apply (.order region fields) = if fields.Nodup then o.withOrder region fields else o := by
  rw [apply, edited]
  split_ifs with hn
  · rw [(setOrder_eq_ok o _ region fields).mpr ⟨hn, rfl⟩]
  · obtain ⟨e, he⟩ := (exists_setOrder_error o region fields).mpr hn
    rw [he]

theorem order_apply (o : FormOptions) (edit : Edit) (region : Text) :
    (o.apply edit).order region = (edit.accepted? region).getD (o.order region) := by
  cases edit with
  | hide field => rfl
  | readOnly field => rfl
  | blacklist other => rfl
  | order other fields =>
    rw [apply_order, Edit.accepted?]
    by_cases hn : fields.Nodup
    · rw [if_pos hn, order_withOrder]
      by_cases hregion : region = other <;> simp [hregion, hn]
    · rw [if_neg hn, if_neg fun h => hn h.2]
      rfl

theorem order_run (edits : List Edit) (o : FormOptions) (region : Text) :
    (run edits o).order region =
      (edits.filterMap (Edit.accepted? region)).getLast?.getD (o.order region) :=
  getD_foldl_of_step apply (fun o => o.order region) _ edits
    (fun o edit _ => order_apply o edit region) o

theorem isBlacklisted_apply (o : FormOptions) (edit : Edit) (region : Text) :
    (o.apply edit).isBlacklisted region = true ↔
      (∃ other, edit = .blacklist other ∧ Text.SameUpToCase other region) ∨
        o.isBlacklisted region = true := by
  have hother : ∀ next : FormOptions, next.blacklist = o.blacklist →
      (∀ other, edit ≠ .blacklist other) → (next.isBlacklisted region = true ↔
        (∃ other, edit = .blacklist other ∧ Text.SameUpToCase other region) ∨
          o.isBlacklisted region = true) := by
    intro next hn he
    simp [isBlacklisted, hn, he]
  cases edit with
  | hide field => exact hother (o.hide field) rfl fun other => Edit.noConfusion
  | readOnly field => exact hother (o.setReadOnly field) rfl fun other => Edit.noConfusion
  | blacklist other =>
    have hset : (o.apply (.blacklist other)).isBlacklisted region =
        (other.upperCase :: o.blacklist).contains region.upperCase := rfl
    rw [hset, List.contains_cons, Bool.or_eq_true, beq_iff_eq, eq_comm, Text.upperCase_eq_iff]
    simp only [Edit.blacklist.injEq, exists_eq_left', isBlacklisted]
  | order other fields =>
    apply hother _ _ fun other => Edit.noConfusion
    rw [apply_order]
    split_ifs <;> rfl

theorem isBlacklisted_run (edits : List Edit) (o : FormOptions) (region : Text) :
    (run edits o).isBlacklisted region = true ↔
      (∃ other, .blacklist other ∈ edits ∧ Text.SameUpToCase other region) ∨
        o.isBlacklisted region = true := by
  induction edits generalizing o with
  | nil => simp [run]
  | cons edit edits ih =>
    have hrun : run (edit :: edits) o = run edits (o.apply edit) := rfl
    rw [hrun, ih, isBlacklisted_apply, ← or_assoc]
    apply or_congr_left
    simp only [List.mem_cons, or_and_right, exists_or, eq_comm (a := edit)]
    exact or_comm

/-- After any run the order of a region is the list that was last accepted for it, or empty if
there was none, and repeats no field. A further list is rejected exactly if it repeats a field. The
fault names the field whose repeat comes first, and all options stay as they are, as if the list
had never been tried. A region is blacklisted exactly if one was that is the same up to case. -/
theorem run_observed (edits : List Edit) :
    let o := run edits {}
    (∀ region, o.order region = (edits.filterMap (Edit.accepted? region)).getLast?.getD [] ∧
      (o.order region).Nodup) ∧
    (∀ region fields,
      ((∃ e, o.setOrder region fields = .error e) ↔ ¬fields.Nodup) ∧
      (∀ e, o.setOrder region fields = .error e →
        (∃ f, FieldOrder.FirstRepeat fields f ∧ e = .repeatedInOrder region f) ∧
        (storeOrder region fields).run.run o = (.error e, o) ∧
        ∀ more, run (edits ++ .order region fields :: more) {} = run (edits ++ more) {}) ∧
      ∀ next, o.setOrder region fields = .ok next →
        (storeOrder region fields).run.run o = (.ok (), next) ∧
        run (edits ++ [.order region fields]) {} = next) ∧
    ∀ region, o.isBlacklisted region = true ↔
      ∃ other, .blacklist other ∈ edits ∧ Text.SameUpToCase other region := by
  intro o
  have hd : o.Distinct := distinct_run edits {} fun entry hm => absurd hm List.not_mem_nil
  refine ⟨fun region => ⟨order_run edits {} region, order_nodup o region hd⟩, ?_, ?_⟩
  · intro region fields
    refine ⟨exists_setOrder_error o region fields, ?_, ?_⟩
    · intro e he
      have hn := (exists_setOrder_error o region fields).mp ⟨e, he⟩
      obtain ⟨f, hf, hef⟩ := (setOrder_eq_error o region fields e).mp he
      refine ⟨⟨f, FieldOrder.firstRepeat_of_repeat? fields f hf, hef⟩, ?_, ?_⟩
      · rw [storeOrder_run, he]
      · intro more
        have hcons : run (.order region fields :: more) o =
            run more (o.apply (.order region fields)) := rfl
        rw [run_append, run_append]
        exact hcons.trans (by rw [apply_order, if_neg hn])
    · intro next hnext
      constructor
      · rw [storeOrder_run, hnext]
      · rw [run_append]
        change o.apply (.order region fields) = next
        rw [apply, edited, hnext]
  · intro region
    rw [isBlacklisted_run edits {} region]
    exact or_iff_left Bool.false_ne_true

theorem run_observed_replaced :
    let edits : List Edit := [.order "US".toList [.locality], .order "us".toList [.recipient],
      .order "US".toList [.postalCode, .locality], .order "us".toList [], .blacklist "kp".toList]
    (run edits {}).order "US".toList = [.postalCode, .locality] ∧
      (run edits {}).order "us".toList = [] ∧
      (run edits {}).isBlacklisted "Kp".toList = true ∧
      (storeOrder "US".toList [.locality, .recipient, .recipient, .locality]).run.run
          (run edits {}) =
        (.error (.repeatedInOrder "US".toList .recipient), run edits {}) := by
  intro edits
  obtain ⟨horder, hset, hblacklisted⟩ := run_observed edits
  obtain ⟨-, herror, -⟩ := hset "US".toList [.locality, .recipient, .recipient, .locality]
  have hsame : Text.SameUpToCase "kp".toList "Kp".toList :=
    .cons (.inr (.inr ⟨by decide, by decide, rfl⟩)) (.cons (.inl rfl) .nil)
  exact ⟨(horder "US".toList).1, (horder "us".toList).1,
    (hblacklisted "Kp".toList).mpr ⟨"kp".toList, by decide, hsame⟩, (herror _ rfl).2.1⟩

end Postal.FormOptions
