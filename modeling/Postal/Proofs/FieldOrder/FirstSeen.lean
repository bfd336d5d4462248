import Postal.Proofs.FieldOrder.Distinct
import Postal.Proofs.Template.Tokens

/-!
# The order of first references

The fields of a template stand in the order in which they are first referred to. A reference to a
field that was seen before adds nothing, so a field keeps its place against every other whatever
is repeated between them. The tokens that are no references have no part in it, nor has a further
reference to a field that is there. A loop that notes what it has seen beside the order it builds
holds the same fields in both after every token.
-/

set_option autoImplicit false

namespace Postal

theorem idxOf_cons_lt_iff {α : Type} [DecidableEq α] (x f g : α) (l : List α) :
    (x :: l).idxOf f < (x :: l).idxOf g ↔ x ≠ g ∧ (x = f ∨ l.idxOf f < l.idxOf g) := by
  by_cases hg : x = g
  · subst hg
    simp
  · by_cases hf : x = f
    · subst hf
      simp [List.idxOf_cons_ne l hg, hg]
    · simp [List.idxOf_cons_ne l hg, List.idxOf_cons_ne l hf, hg, hf]

/-! ## References of a template -/

namespace Template

theorem fields_field (code : Char) (rest : Template) (fs : List Field)
    (h : fields (.field code :: rest) = .ok fs) :
    ∃ f more, f.code = code ∧ fields rest = .ok more ∧ fs = f :: more := by
  obtain ⟨f, hf, h⟩ := (bind_eq_ok _ _ _).mp h
  obtain ⟨more, hmore, h⟩ := (bind_eq_ok _ _ _).mp h
  cases h
  exact ⟨f, more, Field.code_of_ofCode code f hf, hmore, rfl⟩

theorem fields_append (s t : Template) (fs gs : List Field) (hs : fields s = .ok fs)
    (ht : fields t = .ok gs) : fields (s ++ t) = .ok (fs ++ gs) := by
  induction s generalizing fs with
  | nil =>
    cases hs
    exact ht
  | cons token rest ih =>
    cases token with
    | newline => exact ih fs hs
    | literal text => exact ih fs hs
    | field code =>
      obtain ⟨f, more, rfl, hmore, rfl⟩ := fields_field code rest fs hs
      rw [List.cons_append, fields, Field.ofCode_code, ih more hmore]
      rfl

theorem fields_filter_isField (template : Template) :
    fields (template.filter Token.isField) = fields template := by
  induction template with
  | nil => rfl
  | cons token rest ih =>
    cases token with
    | newline => exact ih
    | literal text => exact ih
    | field code =>
      rw [List.filter_cons_of_pos rfl, fields, ih]
      rfl

theorem idxOf_fields_lt_iff (template : Template) (fs : List Field)
    (h : fields template = .ok fs) (f g : Field) :
    fs.idxOf f < fs.idxOf g ↔ template.idxOf (.field f.code) < template.idxOf (.field g.code) := by
  induction template generalizing fs with
  | nil =>
    cases h
    simp
  | cons token rest ih =>
    rw [idxOf_cons_lt_iff token]
    cases token with
    | newline => simpa using ih fs h
    | literal text => simpa using ih fs h
    | field code =>
      obtain ⟨x, more, rfl, hmore, rfl⟩ := fields_field code rest fs h
      rw [idxOf_cons_lt_iff, ih more hmore]
      simp only [ne_eq, Token.field.injEq, Field.code_injective.eq_iff]

end Template

/-! ## First references -/

namespace FieldOrder

theorem idxOf_firstSeenBeside_lt_iff (seen fields : List Field) (f g : Field) (hf : f ∉ seen)
    (hg : g ∉ seen) :
    (firstSeenBeside seen fields).idxOf f < (firstSeenBeside seen fields).idxOf g ↔
      fields.idxOf f < fields.idxOf g := by
  induction fields generalizing seen with
  | nil => rfl
  | cons x rest ih =>
    rw [firstSeenBeside, idxOf_cons_lt_iff x f g rest]
    by_cases hx : x ∈ seen
    · have hxf : x ≠ f := fun he => hf (he ▸ hx)
      have hxg : x ≠ g := fun he => hg (he ▸ hx)
      rw [if_pos hx, ih seen hf hg]
      simp [hxf, hxg]
    · rw [if_neg hx, idxOf_cons_lt_iff]
      by_cases hxg : x = g
      · simp [hxg]
      · by_cases hxf : x = f
        · simp [hxf]
        · rw [ih (x :: seen) (by simp [Ne.symm hxf, hf]) (by simp [Ne.symm hxg, hg])]

theorem idxOf_firstSeen_lt_iff (fields : List Field) (f g : Field) :
    (firstSeen fields).idxOf f < (firstSeen fields).idxOf g ↔ fields.idxOf f < fields.idxOf g :=
  idxOf_firstSeenBeside_lt_iff [] fields f g List.not_mem_nil List.not_mem_nil

theorem firstSeenBeside_of_subset (seen fields : List Field) (h : ∀ f ∈ fields, f ∈ seen) :
    firstSeenBeside seen fields = [] := by
  refine List.eq_nil_iff_forall_not_mem.mpr fun f hf => ?_
  obtain ⟨hm, hn⟩ := (mem_firstSeenBeside seen fields f).mp hf
  exact hn (h f hm)

theorem firstSeenBeside_append (seen fields more : List Field)
    (h : ∀ f ∈ more, f ∈ fields ∨ f ∈ seen) :
    firstSeenBeside seen (fields ++ more) = firstSeenBeside seen fields := by
  induction fields generalizing seen with
  | nil => exact firstSeenBeside_of_subset seen more fun f hf => (h f hf).resolve_left (by simp)
  | cons x rest ih =>
    rw [List.cons_append, firstSeenBeside, firstSeenBeside]
    by_cases hx : x ∈ seen
    · rw [if_pos hx, if_pos hx]
      refine ih seen fun f hf => ?_
      rcases h f hf with hm | hs
      · exact (List.mem_cons.mp hm).symm.imp_right fun he : f = x => he ▸ hx
      · exact .inr hs
    · rw [if_neg hx, if_neg hx]
      refine congrArg _ (ih (x :: seen) fun f hf => ?_)
      rcases h f hf with hm | hs
      · exact (List.mem_cons.mp hm).symm.imp_right fun he : f = x => he ▸ List.mem_cons_self
      · exact .inr (List.mem_cons_of_mem x hs)

/-! ## A loop over the tokens -/

def Noted.InStep (noted : Noted) : Prop :=
  noted.order.Nodup ∧ ∀ f, f ∈ noted.seen ↔ f ∈ noted.order

theorem Noted.inStep_note (noted : Noted) (f : Field) (h : noted.InStep) :
    (noted.note f).InStep := by
  obtain ⟨hn, hm⟩ := h
  unfold note
  split
  · exact ⟨hn, hm⟩
  · rename_i hf
    rw [hm] at hf
    constructor
    · simpa [List.nodup_append] using ⟨hn, fun g hg he => hf (he ▸ hg)⟩
    · intro g
      simp [hm, or_comm]

theorem Noted.inStep_foldl (noted : Noted) (fields : List Field) (h : noted.InStep) :
    (fields.foldl note noted).InStep := by
  induction fields generalizing noted with
  | nil => exact h
  | cons f rest ih => exact ih _ (noted.inStep_note f h)

theorem Noted.order_foldl (noted : Noted) (fields : List Field) :
    (fields.foldl note noted).order = noted.order ++ firstSeenBeside noted.seen fields := by
  induction fields generalizing noted with
  | nil => simp [firstSeenBeside]
  | cons f rest ih =>
    rw [List.foldl_cons, ih, firstSeenBeside, note]
    split
    · rfl
    · rw [List.append_assoc]
      rfl

/-- The loop notes the references as they come and fails at the first code that is unknown. -/
theorem foldlM_noteToken (noted : Noted) (template : Template) :
    template.foldlM noteToken noted =
      (template.fields).map fun fields => fields.foldl Noted.note noted := by
  induction template generalizing noted with
  | nil => rfl
  | cons token rest ih =>
    cases token with
    | newline => exact ih noted
    | literal text => exact ih noted
    | field code =>
      rw [List.foldlM_cons, Template.fields, noteToken]
      cases Field.ofCode code with
      | error e => rfl
      | ok f =>
        refine (ih (noted.note f)).trans ?_
        simp only [ok_bind]
        cases Template.fields rest <;> rfl

/-- Every template with known codes has an order of its fields, each once, and they stand in it as
the first references to them stand in the template, a field that is missing counting as the last.
Templates with the same references have the same order, and references to fields that are there
may follow without any change. The loop that builds it ends with just these fields seen. -/
theorem ofTemplate_firstReferences (template : Template) (hk : template.Known) :
    ∃ order, ofTemplate template = .ok order ∧ order.Nodup ∧
      (∀ f : Field, f ∈ order ↔ .field f.code ∈ template) ∧
      (∀ f g : Field, order.idxOf f < order.idxOf g ↔
        template.idxOf (.field f.code) < template.idxOf (.field g.code)) ∧
      (∀ other : Template, other.filter Token.isField = template.filter Token.isField →
        ofTemplate other = .ok order) ∧
      (∀ more : Template, (∀ code, .field code ∈ more → .field code ∈ template) →
        ofTemplate (template ++ more) = .ok order) ∧
      ∃ noted : Noted, template.foldlM noteToken {} = .ok noted ∧ noted.order = order ∧
        ∀ f, f ∈ noted.seen ↔ f ∈ order := by
  obtain ⟨fs, hfs, hmem⟩ := template.fields_of_known hk
  have hof : ∀ other : Template, ∀ gs, other.fields = .ok gs →
      ofTemplate other = .ok (firstSeen gs) := by
    intro other gs hgs
    rw [ofTemplate, hgs]
    rfl
  refine ⟨firstSeen fs, hof template fs hfs, firstSeen_nodup fs, ?_, ?_, ?_, ?_, ?_⟩
  · intro f
    rw [mem_firstSeen, hmem]
  · intro f g
    rw [idxOf_firstSeen_lt_iff, template.idxOf_fields_lt_iff fs hfs]
  · intro other hother
    apply hof
    rw [← other.fields_filter_isField, hother, template.fields_filter_isField, hfs]
  · intro more hmore
    obtain ⟨gs, hgs, hgmem⟩ := more.fields_of_known fun code hm => hk code (hmore code hm)
    rw [hof _ _ (Template.fields_append template more fs gs hfs hgs)]
    refine congrArg Except.ok (firstSeenBeside_append [] fs gs fun f hf => .inl ?_)
    exact (hmem f).mpr (hmore _ ((hgmem f).mp hf))
  · have horder : (fs.foldl Noted.note {}).order = firstSeen fs := Noted.order_foldl {} fs
    have hstep : (fs.foldl Noted.note {}).InStep :=
      Noted.inStep_foldl {} fs ⟨List.nodup_nil, fun f => Iff.rfl⟩
    refine ⟨fs.foldl Noted.note {}, ?_, horder, ?_⟩
    · rw [foldlM_noteToken, hfs]
      rfl
    · rw [← horder]
      exact hstep.2

theorem ofTemplate_firstReferences_repeated :
    let template : Template := [.field 'C', .literal ", ".toList, .field 'S', .newline,
      .field 'C', .field 'A']
    template.Known ∧ ∃ order, ofTemplate template = .ok order ∧
      order = [.locality, .adminArea, .streetAddress] ∧
      order.idxOf .locality < order.idxOf .adminArea ∧
      ofTemplate [.field 'C', .field 'S', .literal [], .field 'C', .field 'A'] = .ok order ∧
      ofTemplate (template ++ [.field 'S', .newline, .field 'C']) = .ok order := by
  intro template
  have hk : template.Known := (Template.checkCodes_eq_ok 1 template).mp rfl
  obtain ⟨order, horder, -, -, hplaces, hother, hmore, -⟩ := ofTemplate_firstReferences template hk
  refine ⟨hk, order, horder, (Except.ok.inj horder).symm, ?_, hother _ rfl, hmore _ ?_⟩
  · exact (hplaces .locality .adminArea).mpr (by decide)
  · intro code hm
    simp only [List.mem_cons, Token.field.injEq, List.not_mem_nil] at hm
    rcases hm with rfl | hm | rfl | hm
    · decide
    · cases hm
    · decide
    · cases hm

end FieldOrder
end Postal
