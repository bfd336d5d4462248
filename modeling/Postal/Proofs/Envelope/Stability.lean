import Postal.Proofs.Envelope.Edges
import Postal.Proofs.Envelope.Filling

/-!
# Pruning what is pruned

Where every field has a value, the field before a literal was kept, so the last token kept is a
field wherever the token before is one, and all the tokens stay. What pruning keeps are such
tokens, so pruning it once more changes nothing. The fields that are dropped have no value and
would have written nothing. Both hold for any tokens with known codes, whether or not a template
can be read as them: literals may be empty and stand side by side.
-/

set_option autoImplicit false

namespace Postal.Envelope

def AllPopulated (a : Address) (template : Template) : Prop :=
  ∀ code, .field code ∈ template → Populated a code

def unlettered (template : Template) : Template := template.filter fun t => !t.isLiteral

section
variable {a : Address}

theorem allPopulated_tail (t : Token) (rest : Template) (h : AllPopulated a (t :: rest)) :
    AllPopulated a rest :=
  fun code hm => h code (List.mem_cons_of_mem t hm)

/-! ## Nothing to drop -/

theorem hasValue_of_populated (code : Char) (h : Populated a code) :
    hasValue a (.field code) = .ok true := by
  obtain ⟨f, hf, -⟩ := id h
  obtain ⟨s, hs, hiff⟩ := hasValue_field a code ⟨f, hf⟩
  rw [hs, hiff.mpr h]

theorem isFollowed_of_allPopulated (rest : Template) (h : AllPopulated a rest) :
    isFollowed a rest = .ok true := by
  cases rest with
  | nil => rfl
  | cons next rest =>
    cases next with
    | newline => rfl
    | literal text => rfl
    | field code => exact hasValue_of_populated code (h code List.mem_cons_self)

theorem stays_of_allPopulated (previous kept : Option Token) (t : Token) (rest : Template)
    (hs : previous.any Token.isField = true → kept.any Token.isField = true)
    (h : AllPopulated a (t :: rest)) : stays a previous kept rest t = .ok true := by
  cases t with
  | newline => rfl
  | field code => exact hasValue_of_populated code (h code List.mem_cons_self)
  | literal text =>
    have hpreceded : (!previous.any Token.isField || kept.any Token.isField) = true := by
      cases hp : previous.any Token.isField with
      | false => rfl
      | true => exact hs hp
    rw [stays, isFollowed_of_allPopulated rest (allPopulated_tail _ rest h), hpreceded]
    rfl

theorem pruneBehind_of_allPopulated (previous kept : Option Token) (template : Template)
    (hs : previous.any Token.isField = true → kept.any Token.isField = true)
    (h : AllPopulated a template) : pruneBehind a previous kept template = .ok template := by
  induction template generalizing previous kept with
  | nil => rfl
  | cons t rest ih =>
    rw [pruneBehind_stays a previous kept t rest (stays_of_allPopulated previous kept t rest hs h)]
    rw [ih (some t) (some t) id (allPopulated_tail t rest h)]
    rfl

theorem prune_eq_self_iff (template : Template) :
    prune a template = .ok template ↔ AllPopulated a template :=
  ⟨populated_of_pruneBehind a none none template template,
    pruneBehind_of_allPopulated none none template id⟩

/-! ## Nothing to print -/

/-- The test for presence that pruning makes agrees with what rendering finds to write. -/
theorem writeField_of_absent (line : Text) (f : Field) (h : a.hasValue f = false) :
    writeField a line f = ([], line) := by
  rw [a.hasValue_eq_isSome, Option.isSome_eq_false_iff, Option.isNone_iff_eq_none] at h
  cases f with
  | country => rfl
  | streetAddress =>
    have hl : a.lines = [] := by
      cases hlines : a.lines with
      | nil => rfl
      | cons street more => simp [Address.value, Address.street, hlines] at h
    simp only [writeField, hl]
  | _ => simp only [writeField, h, Option.getD_none, List.append_nil]

theorem writeToken_of_dropped (line : Text) (code : Char)
    (h : hasValue a (.field code) = .ok false) :
    writeToken a line (.field code) = .ok ([], line) := by
  obtain ⟨f, hf, hv⟩ := (bind_eq_ok _ _ _).mp h
  rw [writeToken, hf]
  exact congrArg Except.ok (writeField_of_absent line f (Except.ok.inj hv))

theorem renderFrom_of_dropped (line : Text) (code : Char) (rest : Template)
    (h : hasValue a (.field code) = .ok false) :
    renderFrom a line (.field code :: rest) = renderFrom a line rest := by
  rw [renderFrom_cons, writeToken_of_dropped line code h]
  simp only [ok_bind]
  cases renderFrom a line rest <;> rfl

theorem unlettered_cons (t : Token) (rest : Template) :
    unlettered (t :: rest) = if t.isLiteral then unlettered rest else t :: unlettered rest := by
  cases t <;> rfl

/-- Without literals the kept tokens are rendered as all the tokens are. -/
theorem renderFrom_unlettered (line : Text) (previous kept : Option Token)
    (template out : Template) (h : pruneBehind a previous kept template = .ok out) :
    renderFrom a line (unlettered out) = renderFrom a line (unlettered template) := by
  induction template generalizing line previous kept out with
  | nil =>
    cases h
    rfl
  | cons t rest ih =>
    rw [pruneBehind_cons] at h
    obtain ⟨b, hb, h⟩ := (bind_eq_ok _ _ _).mp h
    cases b with
    | true =>
      obtain ⟨more, hmore, h⟩ := (bind_eq_ok _ _ _).mp h
      cases h
      rw [unlettered_cons, unlettered_cons]
      split
      · exact ih line _ _ more hmore
      · rw [renderFrom_cons, renderFrom_cons]
        simp only [fun next => ih next _ _ more hmore]
    | false =>
      have hrest : renderFrom a line (unlettered out) = renderFrom a line (unlettered rest) :=
        ih line _ _ out h
      cases t with
      | newline => cases hb
      | literal text => exact hrest
      | field code => exact hrest.trans (renderFrom_of_dropped line code _ hb).symm

end

/-- Pruning any tokens with known codes succeeds, and pruning the result keeps all of it. Nothing
is dropped exactly if every field has a value, and with the literals left out of both the kept
tokens print the same lines as the tokens that were there. -/
theorem prune_stable (a : Address) (template : Template) (hk : template.Known) :
    ∃ kept, prune a template = .ok kept ∧ prune a kept = .ok kept ∧
      (kept = template ↔ AllPopulated a template) ∧
      ∃ out, render a (unlettered kept) = .ok out ∧ render a (unlettered template) = .ok out := by
  obtain ⟨placed, -, hprune, -⟩ := keptFrom_spec a none none 0 template hk
  generalize placed.map Prod.fst = kept at hprune
  have hpopulated : AllPopulated a kept := populated_of_pruneBehind a none none template kept hprune
  have hplain : (unlettered template).Known :=
    Template.known_sublist template _ List.filter_sublist hk
  obtain ⟨out, hout⟩ := renderFrom_known a [] (unlettered template) hplain
  refine ⟨kept, hprune, (prune_eq_self_iff kept).mpr hpopulated, ?_, out, ?_, hout⟩
  · constructor
    · rintro rfl
      exact hpopulated
    · intro h
      exact Except.ok.inj (hprune.symm.trans ((prune_eq_self_iff template).mpr h))
  · exact (renderFrom_unlettered [] none none template kept hprune).trans hout

theorem prune_stable_missing :
    let a : Address :=
      { values := { country := some ['x'], locality := some ['c'], postalCode := some ['1'] }
        lines := [['s'], ['t']] }
    let template : Template := [.literal [], .field 'R', .field 'A', .literal [','], .field 'C',
      .literal [], .field 'S', .literal ['-'], .literal ['+'], .field 'Z']
    let kept : Template := [.literal [], .field 'R', .field 'A', .literal [','], .field 'C',
      .literal ['-'], .literal ['+'], .field 'Z']
    template.Known ∧ prune a template = .ok kept ∧ prune a kept = .ok kept ∧
      ¬AllPopulated a template ∧
      ∃ out, render a (unlettered kept) = .ok out ∧ render a (unlettered template) = .ok out ∧
        out = [['s'], ['t'], ['c', '1']] := by
  intro a template kept
  have hk : template.Known := (Template.checkCodes_eq_ok 1 template).mp rfl
  obtain ⟨found, hfound, hagain, hiff, out, hkept, hout⟩ := prune_stable a template hk
  obtain rfl : kept = found := Except.ok.inj hfound
  refine ⟨hk, rfl, hagain, fun h => ?_, out, hkept, hout, ?_⟩
  · exact absurd (hiff.mpr h) (by decide)
  · exact (Except.ok.inj hout).symm

end Postal.Envelope
