import Postal.FormOptions
import Postal.Proofs.FieldOrder.Distinct

/-!
# Orders held by form options

An order that names a field twice is rejected, so however options are put
together none of their orders does.
-/

set_option autoImplicit false

namespace Postal.FormOptions

def Distinct (o : FormOptions) : Prop := ∀ entry ∈ o.orders, entry.2.Nodup

theorem distinct_setOrder (o next : FormOptions) (region : Text) (fields : List Field)
    (h : o.Distinct) (hs : o.setOrder region fields = .ok next) : next.Distinct := by
  unfold setOrder at hs
  split at hs
  · cases hs
  · rename_i hr
    have hn : fields.Nodup := (FieldOrder.repeat?_eq_none fields).mp hr
    cases hs
    intro entry hm
    by_cases hf : fields = []
    · rw [if_pos hf] at hm
      exact h entry (List.mem_filter.mp hm).1
    · rw [if_neg hf] at hm
      rcases List.mem_cons.mp hm with rfl | hm
      · exact hn
      · exact h entry (List.mem_filter.mp hm).1

theorem distinct_apply (o : FormOptions) (edit : Edit) (h : o.Distinct) :
    (o.apply edit).Distinct := by
  cases edit with
  | hide field => exact h
  | readOnly field => exact h
  | blacklist region => exact h
  | order region fields =>
    unfold apply
    split
    · rename_i next hs
      exact distinct_setOrder o next region fields h hs
    · exact h

theorem distinct_run (edits : List Edit) (o : FormOptions) (h : o.Distinct) :
    (run edits o).Distinct := by
  induction edits generalizing o with
  | nil => exact h
  | cons edit edits ih => exact ih (o.apply edit) (distinct_apply o edit h)

theorem order_nodup (o : FormOptions) (region : Text) (h : o.Distinct) :
    (o.order region).Nodup := by
  unfold order
  cases hl : o.orders.lookup region with
  | none => exact List.nodup_nil
  | some fields =>
    obtain ⟨before, after, he, -⟩ := List.lookup_eq_some_iff.mp hl
    exact h (region, fields) (by simp [he])

end Postal.FormOptions
