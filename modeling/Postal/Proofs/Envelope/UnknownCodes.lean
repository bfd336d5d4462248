import Mathlib.Tactic.TFAE
import Postal.FieldOrder
import Postal.Proofs.Envelope.Dependence
import Postal.Proofs.Template.Faults

/-!
# Unknown codes

Strict reading, field orders, pruning and rendering each resolve the codes of a template anew, on
their own way through its tokens. Pruning even asks for the token behind a literal before its turn
comes. Each step of theirs fails only for a code that is the first unknown one of the tokens left,
and is passed only at a token that resolves. So they all stop at the first unknown code of the
template, and if there is none then none of them fails.
-/

set_option autoImplicit false

namespace Postal

def Token.unknown? : Token → Option Char
  | .field code => if (Field.ofCode? code).isNone then some code else none
  | _ => none

theorem Token.unknown?_of_error (code : Char) (e : FieldError) (h : Field.ofCode code = .error e) :
    (field code).unknown? = some code ∧ e = .unknownCode code := by
  unfold Field.ofCode at h
  split at h
  · cases h
  · rename_i hn
    cases h
    exact ⟨by rw [unknown?, hn]; rfl, rfl⟩

theorem Token.unknown?_of_ok (code : Char) (f : Field) (h : Field.ofCode code = .ok f) :
    (field code).unknown? = none := by
  unfold Field.ofCode at h
  split at h
  · rename_i g hg
    rw [unknown?, hg]
    rfl
  · cases h

namespace Template

def firstUnknown? (template : Template) : Option Char := template.findSome? Token.unknown?

theorem firstUnknown?_unknown (t : Token) (rest : Template) (code : Char)
    (h : t.unknown? = some code) : firstUnknown? (t :: rest) = some code := by
  rw [firstUnknown?, List.findSome?_cons, h]

theorem firstUnknown?_resolved (t : Token) (rest : Template) (h : t.unknown? = none) :
    firstUnknown? (t :: rest) = firstUnknown? rest := by
  rw [firstUnknown?, List.findSome?_cons, h]
  rfl

theorem firstUnknown?_eq_none (template : Template) :
    template.firstUnknown? = none ↔ template.Known := by
  rw [firstUnknown?, List.findSome?_eq_none_iff]
  constructor
  · intro h code hm
    cases hc : Field.ofCode code with
    | ok f => exact ⟨f, rfl⟩
    | error e =>
      have hn := h _ hm
      rw [(Token.unknown?_of_error code e hc).1] at hn
      cases hn
  · intro h t hm
    cases t with
    | newline => rfl
    | literal text => rfl
    | field code =>
      obtain ⟨f, hf⟩ := h code hm
      exact Token.unknown?_of_ok code f hf

theorem firstUnknown?_append (before rest : Template) (h : before.Known) :
    firstUnknown? (before ++ rest) = firstUnknown? rest := by
  have hnone : before.findSome? Token.unknown? = none := (firstUnknown?_eq_none before).mpr h
  rw [firstUnknown?, List.findSome?_append, hnone]
  rfl

theorem firstUnknown?_of_firstFault (s : Text) (template : Template) (column : ℕ) (code : Char)
    (h : FirstFault s template column code) : template.firstUnknown? = some code := by
  obtain ⟨before, after, rfl, hk, -⟩ := h.leftmost
  have hc : Field.ofCode code = .error (.unknownCode code) :=
    (Field.ofCode_eq_error code _).mpr ⟨rfl, h.unknown.2⟩
  rw [firstUnknown?_append before _ hk]
  exact firstUnknown?_unknown _ after code (Token.unknown?_of_error code _ hc).1

theorem parseStrict_ok_iff (s : Text) (template : Template) (h : parse s = .ok template) :
    parseStrict s = .ok template ↔ template.firstUnknown? = none := by
  rw [parseStrict_eq_ok, firstUnknown?_eq_none]
  exact and_iff_right ((parse_eq_ok s template).mp h)

theorem parseStrict_unknown_iff (s : Text) (template : Template) (h : parse s = .ok template)
    (code : Char) :
    (∃ column, parseStrict s = .error (.invalidField column (.unknownCode code))) ↔
      template.firstUnknown? = some code := by
  cases hs : parseStrict s with
  | ok tokens =>
    obtain ⟨ht, hk⟩ := (parseStrict_eq_ok s tokens).mp hs
    rw [(parse_eq_ok s template).mp h] at ht
    cases ht
    rw [(firstUnknown?_eq_none template).mpr hk]
    simp
  | error e =>
    obtain ⟨column, first, rfl, hf⟩ := parseStrict_eq_error s template e h hs
    rw [firstUnknown?_of_firstFault s template column first hf]
    simp

end Template

/-- The outcome is the fault of the code, or a result where there is no code. -/
def Reports {α : Type} (code? : Option Char) (x : Except FieldError α) : Prop :=
  match code? with
  | some code => x = .error (.unknownCode code)
  | none => ∃ a, x = .ok a

section
variable {α β : Type} {code? : Option Char} {x : Except FieldError α}

theorem Reports.error_iff (h : Reports code? x) (code : Char) :
    x = .error (.unknownCode code) ↔ code? = some code := by
  cases code? with
  | none =>
    obtain ⟨a, rfl⟩ := h
    simp
  | some first =>
    obtain rfl : x = .error (.unknownCode first) := h
    simp

theorem Reports.ok_iff (h : Reports code? x) : (∃ a, x = .ok a) ↔ code? = none := by
  cases code? with
  | none => exact ⟨fun _ => rfl, fun _ => h⟩
  | some first =>
    obtain rfl : x = .error (.unknownCode first) := h
    simp

theorem reports_bind (f : α → Except FieldError β)
    (hx : ∀ e, x = .error e → ∃ code, code? = some code ∧ e = .unknownCode code)
    (hf : ∀ a, x = .ok a → Reports code? (f a)) : Reports code? (x >>= f) := by
  cases x with
  | ok a => exact hf a rfl
  | error e =>
    obtain ⟨code, rfl, rfl⟩ := hx e rfl
    exact rfl

theorem Reports.map (h : Reports code? x) (g : α → β) :
    Reports code? (x >>= fun a => .ok (g a)) := by
  cases code? with
  | none =>
    obtain ⟨a, rfl⟩ := h
    exact ⟨g a, rfl⟩
  | some code =>
    obtain rfl : x = .error (.unknownCode code) := h
    exact rfl

end

theorem fields_reports (template : Template) : Reports template.firstUnknown? template.fields := by
  induction template with
  | nil => exact ⟨[], rfl⟩
  | cons t rest ih =>
    cases t with
    | newline => exact ih
    | literal text => exact ih
    | field code =>
      apply reports_bind
      · intro e he
        obtain ⟨hu, rfl⟩ := Token.unknown?_of_error code e he
        exact ⟨code, Template.firstUnknown?_unknown _ rest code hu, rfl⟩
      · intro f hf
        rw [Template.firstUnknown?_resolved _ rest (Token.unknown?_of_ok code f hf)]
        exact ih.map (f :: ·)

theorem ofTemplate_reports (template : Template) :
    Reports template.firstUnknown? (FieldOrder.ofTemplate template) :=
  (fields_reports template).map FieldOrder.firstSeen

namespace Envelope

theorem hasValue_eq_error (a : Address) (t : Token) (rest : Template) (e : FieldError)
    (h : hasValue a t = .error e) :
    ∃ code, Template.firstUnknown? (t :: rest) = some code ∧ e = .unknownCode code := by
  cases t with
  | newline => cases h
  | literal text => cases h
  | field code =>
    cases hc : Field.ofCode code with
    | ok f =>
      rw [hasValue, hc] at h
      cases h
    | error cause =>
      rw [hasValue, hc] at h
      cases h
      obtain ⟨hu, rfl⟩ := Token.unknown?_of_error code _ hc
      exact ⟨code, Template.firstUnknown?_unknown _ rest code hu, rfl⟩

theorem unknown?_of_hasValue (a : Address) (t : Token) (b : Bool) (h : hasValue a t = .ok b) :
    t.unknown? = none := by
  cases t with
  | newline => rfl
  | literal text => rfl
  | field code =>
    obtain ⟨f, hf, -⟩ := (bind_eq_ok _ _ _).mp h
    exact Token.unknown?_of_ok code f hf

/-- A literal may fail for the token behind it, whose code is then the first unknown one left. -/
theorem stays_eq_error (a : Address) (previous kept : Option Token) (t : Token) (rest : Template)
    (e : FieldError) (h : stays a previous kept rest t = .error e) :
    ∃ code, Template.firstUnknown? (t :: rest) = some code ∧ e = .unknownCode code := by
  cases t with
  | newline => cases h
  | field code => exact hasValue_eq_error a (.field code) rest e h
  | literal text =>
    cases rest with
    | nil => cases h
    | cons next rest =>
      cases hn : hasValue a next with
      | ok b =>
        rw [stays, isFollowed, hn] at h
        cases h
      | error cause =>
        rw [stays, isFollowed, hn] at h
        cases h
        rw [Template.firstUnknown?_resolved (.literal text) _ rfl]
        exact hasValue_eq_error a next rest _ hn

theorem unknown?_of_stays (a : Address) (previous kept : Option Token) (t : Token)
    (rest : Template) (b : Bool) (h : stays a previous kept rest t = .ok b) :
    t.unknown? = none := by
  cases t with
  | newline => rfl
  | literal text => rfl
  | field code => exact unknown?_of_hasValue a (.field code) b h

theorem pruneBehind_reports (a : Address) (previous kept : Option Token) (template : Template) :
    Reports template.firstUnknown? (pruneBehind a previous kept template) := by
  induction template generalizing previous kept with
  | nil => exact ⟨[], rfl⟩
  | cons t rest ih =>
    rw [pruneBehind_cons]
    apply reports_bind
    · exact stays_eq_error a previous kept t rest
    · intro b hb
      rw [Template.firstUnknown?_resolved t rest (unknown?_of_stays a previous kept t rest b hb)]
      cases b with
      | true => exact (ih (some t) (some t)).map (t :: ·)
      | false => exact ih (some t) kept

theorem renderFrom_reports (a : Address) (line : Text) (template : Template) :
    Reports template.firstUnknown? (renderFrom a line template) := by
  induction template generalizing line with
  | nil => exact ⟨finish line, rfl⟩
  | cons t rest ih =>
    rw [renderFrom_cons]
    cases t with
    | newline => exact (ih []).map (finish line ++ ·)
    | literal text => exact (ih (line ++ text)).map ([] ++ ·)
    | field code =>
      cases hc : Field.ofCode code with
      | error e =>
        obtain ⟨hu, rfl⟩ := Token.unknown?_of_error code e hc
        rw [Template.firstUnknown?_unknown _ rest code hu, writeToken, hc]
        exact rfl
      | ok f =>
        rw [Template.firstUnknown?_resolved _ rest (Token.unknown?_of_ok code f hc), writeToken, hc]
        exact (ih (writeField a line f).2).map ((writeField a line f).1 ++ ·)

theorem firstUnknown?_of_prune (a : Address) (template kept : Template)
    (h : prune a template = .ok kept) : kept.firstUnknown? = none := by
  have hnone : template.firstUnknown? = none :=
    (pruneBehind_reports a none none template).ok_iff.mp ⟨kept, h⟩
  have hk := (Template.firstUnknown?_eq_none template).mp hnone
  have hsub := pruneBehind_sublist a none none template kept h
  exact (Template.firstUnknown?_eq_none kept).mpr (template.known_sublist kept hsub hk)

/-- Of a template that can be read, strict reading, the field order, the fields, pruning and
rendering fail for the same code, whatever the address: the first one that names no field. If
there is none then none of them fails, nor does rendering what pruning keeps. -/
theorem unknown_tfae (s : Text) (template : Template) (h : Template.parse s = .ok template)
    (a : Address) :
    (∀ code, List.TFAE [
      ∃ column, Template.parseStrict s = .error (.invalidField column (.unknownCode code)),
      FieldOrder.ofTemplate template = .error (.unknownCode code),
      template.fields = .error (.unknownCode code),
      prune a template = .error (.unknownCode code),
      render a template = .error (.unknownCode code),
      template.firstUnknown? = some code]) ∧
    List.TFAE [
      Template.parseStrict s = .ok template,
      ∃ order, FieldOrder.ofTemplate template = .ok order,
      ∃ fields, template.fields = .ok fields,
      ∃ kept, prune a template = .ok kept,
      ∃ lines, render a template = .ok lines,
      template.firstUnknown? = none] ∧
    ∀ kept, prune a template = .ok kept → ∃ lines, render a kept = .ok lines := by
  have horder := ofTemplate_reports template
  have hfields := fields_reports template
  have hprune : Reports template.firstUnknown? (prune a template) :=
    pruneBehind_reports a none none template
  have hrender : ∀ tokens, Reports (Template.firstUnknown? tokens) (render a tokens) :=
    renderFrom_reports a []
  refine ⟨fun code => ?_, ?_, ?_⟩
  · tfae_have 1 ↔ 6 := Template.parseStrict_unknown_iff s template h code
    tfae_have 2 ↔ 6 := horder.error_iff code
    tfae_have 3 ↔ 6 := hfields.error_iff code
    tfae_have 4 ↔ 6 := hprune.error_iff code
    tfae_have 5 ↔ 6 := (hrender template).error_iff code
    tfae_finish
  · tfae_have 1 ↔ 6 := Template.parseStrict_ok_iff s template h
    tfae_have 2 ↔ 6 := horder.ok_iff
    tfae_have 3 ↔ 6 := hfields.ok_iff
    tfae_have 4 ↔ 6 := hprune.ok_iff
    tfae_have 5 ↔ 6 := (hrender template).ok_iff
    tfae_finish
  · intro kept hkept
    exact (hrender kept).ok_iff.mpr (firstUnknown?_of_prune a template kept hkept)

theorem unknown_tfae_behind_literal :
    Template.parse "%C, %Q%?".toList =
        .ok [.field 'C', .literal ", ".toList, .field 'Q', .field '?'] ∧
      prune {} [.field 'C', .literal ", ".toList, .field 'Q', .field '?'] =
        .error (.unknownCode 'Q') ∧
      render {} [.field 'C', .literal ", ".toList, .field 'Q', .field '?'] =
        .error (.unknownCode 'Q') ∧
      ∃ column, Template.parseStrict "%C, %Q%?".toList =
        .error (.invalidField column (.unknownCode 'Q')) := by
  have hread : Template.parse "%C, %Q%?".toList =
    .ok [.field 'C', .literal ", ".toList, .field 'Q', .field '?'] := rfl
  obtain ⟨hunknown, -, -⟩ := unknown_tfae "%C, %Q%?".toList _ hread {}
  have hfirst : Template.firstUnknown? [.field 'C', .literal ", ".toList, .field 'Q', .field '?'] =
    some 'Q' := rfl
  exact ⟨hread, ((hunknown 'Q').out 3 5).mpr hfirst, ((hunknown 'Q').out 4 5).mpr hfirst,
    ((hunknown 'Q').out 0 5).mpr hfirst⟩

end Envelope
end Postal
