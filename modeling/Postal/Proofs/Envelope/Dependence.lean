import Postal.Proofs.Envelope.Pruning
import Postal.Proofs.Envelope.Rendering

/-!
# What the lines depend on

Pruning looks at an address only to ask which fields have a value, and
rendering only to write them. Under a given template two addresses that hold
the same for the fields it names are printed alike, whatever else they hold.
-/

set_option autoImplicit false

namespace Postal.Envelope

theorem pruneBehind_sublist (a : Address) (previous kept : Option Token) (template out : Template)
    (h : pruneBehind a previous kept template = .ok out) : out.Sublist template := by
  induction template generalizing previous kept out with
  | nil =>
    cases h
    exact List.Sublist.slnil
  | cons t rest ih =>
    rw [pruneBehind_cons] at h
    obtain ⟨b, -, h⟩ := (bind_eq_ok _ _ _).mp h
    cases b with
    | false => exact (ih _ _ _ h).cons t
    | true =>
      obtain ⟨more, hmore, h⟩ := (bind_eq_ok _ _ _).mp h
      cases h
      exact (ih _ _ _ hmore).cons_cons t

theorem lines_eq_ok (a : Address) (template : Template) (out : List Text) :
    lines a template = .ok out ↔ ∃ kept, prune a template = .ok kept ∧ render a kept = .ok out :=
  bind_eq_ok _ _ _

/-- What an address holds for a field, line by line. -/
def held (a : Address) (field : Field) : List Text :=
  match field with
  | .streetAddress => a.lines
  | field => (a.value field).toList

def Alike (a b : Address) (template : Template) : Prop :=
  ∀ code f, .field code ∈ template → Field.ofCode code = .ok f → held a f = held b f

section
variable {a b : Address}

theorem value_congr (f : Field) (h : held a f = held b f) : a.value f = b.value f := by
  cases f with
  | streetAddress =>
    have hl : a.lines = b.lines := h
    simp only [Address.value, Address.street, hl]
  | _ => simpa [held] using congrArg List.head? h

theorem writeField_congr (line : Text) (f : Field) (h : held a f = held b f) :
    writeField a line f = writeField b line f := by
  have hv := value_congr f h
  cases f with
  | country => rfl
  | streetAddress =>
    have hl : a.lines = b.lines := h
    simp only [writeField, hl]
  | _ => simp only [writeField, hv]

theorem writeToken_congr (line : Text) (template : Template) (t : Token) (ht : t ∈ template)
    (h : Alike a b template) : writeToken a line t = writeToken b line t := by
  cases t with
  | newline => rfl
  | literal text => rfl
  | field code =>
    rw [writeToken, writeToken]
    cases hf : Field.ofCode code with
    | error e => rfl
    | ok f => exact congrArg Except.ok (writeField_congr line f (h code f ht hf))

theorem hasValue_congr (template : Template) (t : Token) (ht : t ∈ template)
    (h : Alike a b template) : hasValue a t = hasValue b t := by
  cases t with
  | newline => rfl
  | literal text => rfl
  | field code =>
    rw [hasValue, hasValue]
    cases hf : Field.ofCode code with
    | error e => rfl
    | ok f =>
      have hv : a.hasValue f = b.hasValue f := by
        rw [a.hasValue_eq_isSome, b.hasValue_eq_isSome, value_congr f (h code f ht hf)]
      exact congrArg Except.ok hv

theorem alike_sublist (template kept : Template) (hs : kept.Sublist template)
    (h : Alike a b template) : Alike a b kept :=
  fun code f hm => h code f (hs.subset hm)

theorem pruneBehind_congr_hasValue (previous kept : Option Token) (template : Template)
    (h : ∀ t ∈ template, hasValue a t = hasValue b t) :
    pruneBehind a previous kept template = pruneBehind b previous kept template := by
  induction template generalizing previous kept with
  | nil => rfl
  | cons t rest ih =>
    obtain ⟨ht, hrest⟩ := List.forall_mem_cons.mp h
    have hf : isFollowed a rest = isFollowed b rest := by
      cases rest with
      | nil => rfl
      | cons next rest => exact hrest next List.mem_cons_self
    have hs : stays a previous kept rest t = stays b previous kept rest t := by
      cases t with
      | newline => rfl
      | field code => exact ht
      | literal text => rw [stays, stays, hf]
    rw [pruneBehind_cons, pruneBehind_cons, hs, ih _ _ hrest, ih _ _ hrest]

theorem pruneBehind_congr (previous kept : Option Token) (template : Template)
    (h : Alike a b template) :
    pruneBehind a previous kept template = pruneBehind b previous kept template :=
  pruneBehind_congr_hasValue previous kept template fun t ht => hasValue_congr template t ht h

theorem renderFrom_congr_writeToken (line : Text) (template : Template)
    (h : ∀ t ∈ template, ∀ line, writeToken a line t = writeToken b line t) :
    renderFrom a line template = renderFrom b line template := by
  induction template generalizing line with
  | nil => rfl
  | cons t rest ih =>
    obtain ⟨ht, hrest⟩ := List.forall_mem_cons.mp h
    rw [renderFrom_cons, renderFrom_cons, ht line]
    simp only [fun next => ih next hrest]

theorem renderFrom_congr (line : Text) (template : Template) (h : Alike a b template) :
    renderFrom a line template = renderFrom b line template :=
  renderFrom_congr_writeToken line template fun t ht line => writeToken_congr line template t ht h

/-- The lines depend on nothing but what is held for the fields of the template. -/
theorem lines_congr (template : Template) (h : Alike a b template) :
    lines a template = lines b template := by
  have hprune : prune a template = prune b template := pruneBehind_congr none none template h
  rw [lines, lines, ← hprune]
  cases hk : prune a template with
  | error e => rfl
  | ok kept =>
    have hsub := pruneBehind_sublist a none none template kept hk
    exact renderFrom_congr [] kept (alike_sublist template kept hsub h)

end

end Postal.Envelope
