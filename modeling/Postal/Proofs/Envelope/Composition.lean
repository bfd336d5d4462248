import Postal.Proofs.Envelope.Dependence
import Postal.Proofs.Template.Canonical

/-!
# Lines of joined templates

Pruning remembers the last token kept across a line break, but it only asks
whether that token is a field, and a line break is none: the state is the one
pruning starts with. Rendering opens a new line there. So two templates with
a line break between them print the lines of the one and then those of the
other, and what an address holds for the fields of the one has no bearing on
the lines of the other.
-/

set_option autoImplicit false

namespace Postal.Envelope

theorem stays_congr_state (a : Address) (previous next kept last : Option Token) (rest : Template)
    (t : Token) (hp : previous.any Token.isField = next.any Token.isField)
    (hk : kept.any Token.isField = last.any Token.isField) :
    stays a previous kept rest t = stays a next last rest t := by
  cases t with
  | newline => rfl
  | field code => rfl
  | literal text => rw [stays, stays, hp, hk]

/-- Of its state pruning only uses whether the tokens are fields. -/
theorem pruneBehind_congr_state (a : Address) (previous next kept last : Option Token)
    (template : Template) (hp : previous.any Token.isField = next.any Token.isField)
    (hk : kept.any Token.isField = last.any Token.isField) :
    pruneBehind a previous kept template = pruneBehind a next last template := by
  induction template generalizing previous next kept last with
  | nil => rfl
  | cons t rest ih =>
    rw [pruneBehind_cons, pruneBehind_cons, stays_congr_state a previous next kept last rest t hp hk,
      ih (some t) (some t) kept last rfl hk]

theorem stays_append_newline (a : Address) (previous kept : Option Token) (rest more : Template)
    (t : Token) : stays a previous kept (rest ++ .newline :: more) t = stays a previous kept rest t := by
  have hf : isFollowed a (rest ++ .newline :: more) = isFollowed a rest := by
    cases rest <;> rfl
  cases t with
  | newline => rfl
  | field code => rfl
  | literal text => rw [stays, stays, hf]

theorem pruneBehind_append_newline (a : Address) (previous kept : Option Token)
    (first second : Template) :
    pruneBehind a previous kept (first ++ .newline :: second) = do
      return (← pruneBehind a previous kept first) ++ .newline :: (← prune a second) := by
  induction first generalizing previous kept with
  | nil =>
    have hstart : pruneBehind a (some .newline) (some .newline) second = prune a second :=
      pruneBehind_congr_state a _ _ _ _ second rfl rfl
    rw [List.nil_append, pruneBehind_stays a previous kept .newline second rfl, hstart]
    rfl
  | cons t rest ih =>
    rw [List.cons_append, pruneBehind_cons, pruneBehind_cons, stays_append_newline, ih, ih]
    cases stays a previous kept rest t with
    | error e => rfl
    | ok b =>
      cases b with
      | false => rfl
      | true =>
        cases pruneBehind a (some t) (some t) rest with
        | error e => rfl
        | ok out => cases prune a second <;> rfl

theorem renderFrom_append_newline (a : Address) (line : Text) (first second : Template) :
    renderFrom a line (first ++ .newline :: second) = do
      return (← renderFrom a line first) ++ (← render a second) := by
  induction first generalizing line with
  | nil => rfl
  | cons t rest ih =>
    rw [List.cons_append, renderFrom_cons, renderFrom_cons]
    cases writeToken a line t with
    | error e => rfl
    | ok written =>
      simp only [ok_bind, ih]
      cases renderFrom a written.2 rest with
      | error e => rfl
      | ok lines =>
        cases render a second with
        | error e => rfl
        | ok more => exact congrArg Except.ok (List.append_assoc written.1 lines more).symm

theorem renderFrom_known (a : Address) (line : Text) (template : Template)
    (hk : template.Known) : ∃ lines, renderFrom a line template = .ok lines := by
  induction template generalizing line with
  | nil => exact ⟨_, rfl⟩
  | cons t rest ih =>
    obtain ⟨written, hw⟩ := writeToken_known a line t rest hk
    obtain ⟨lines, hl⟩ := ih written.2 (Template.known_tail t rest hk)
    refine ⟨written.1 ++ lines, ?_⟩
    rw [renderFrom_cons, hw]
    simp only [ok_bind, hl]
    rfl

theorem exists_lines (a : Address) (s : Text) (template : Template)
    (h : Template.parseStrict s = .ok template) : ∃ out, lines a template = .ok out := by
  obtain ⟨hs, hk⟩ := (Template.parseStrict_eq_ok s template).mp h
  have hp := Template.parted_of_tokens? s template hs
  obtain ⟨kept, -, hkept, -⟩ :=
    pruneBehind_selects a template hk hp 0 none template rfl (tracks_zero a template)
  have hsub := pruneBehind_sublist a _ none template kept hkept
  obtain ⟨out, hout⟩ := renderFrom_known a [] kept (template.known_sublist kept hsub hk)
  exact ⟨out, (lines_eq_ok a template out).mpr ⟨kept, hkept, hout⟩⟩

theorem lines_append (a : Address) (first second : Template) (ls ms : List Text)
    (hfirst : lines a first = .ok ls) (hsecond : lines a second = .ok ms) :
    lines a (first ++ .newline :: second) = .ok (ls ++ ms) := by
  obtain ⟨keptFirst, hpf, hrf⟩ := (lines_eq_ok a first ls).mp hfirst
  obtain ⟨keptSecond, hps, hrs⟩ := (lines_eq_ok a second ms).mp hsecond
  have hf : pruneBehind a none none first = .ok keptFirst := hpf
  have hr : renderFrom a [] keptFirst = .ok ls := hrf
  apply (lines_eq_ok a _ _).mpr
  refine ⟨keptFirst ++ .newline :: keptSecond, ?_, ?_⟩
  · rw [prune, pruneBehind_append_newline, hf, hps]
    rfl
  · rw [render, renderFrom_append_newline, hr, hrs]
    rfl

/-- Templates joined by a line break print the lines of the one and then those of the other.
The lines of either stay as they are when the address changes in fields of the other alone. -/
theorem lines_append_newline (a : Address) (s t : Text) (first second : Template)
    (hs : Template.parseStrict s = .ok first) (ht : Template.parseStrict t = .ok second) :
    ∃ whole ls ms, Template.parseStrict (s ++ "%n".toList ++ t) = .ok whole ∧
      lines a first = .ok ls ∧ lines a second = .ok ms ∧ lines a whole = .ok (ls ++ ms) ∧
      (∀ b, Alike a b first → ∃ more, lines b whole = .ok (ls ++ more)) ∧
      (∀ b, Alike a b second → ∃ more, lines b whole = .ok (more ++ ms)) := by
  obtain ⟨ls, hls⟩ := exists_lines a s first hs
  obtain ⟨ms, hms⟩ := exists_lines a t second ht
  refine ⟨first ++ .newline :: second, ls, ms, ?_, hls, hms,
    lines_append a first second ls ms hls hms, ?_, ?_⟩
  · rw [List.append_assoc]
    exact Template.parseStrict_append_newline s t first second hs ht
  · intro b hb
    obtain ⟨more, hmore⟩ := exists_lines b t second ht
    exact ⟨more, lines_append b first second ls more (lines_congr first hb ▸ hls) hmore⟩
  · intro b hb
    obtain ⟨more, hmore⟩ := exists_lines b s first hs
    exact ⟨more, lines_append b first second more ms hmore (lines_congr second hb ▸ hms)⟩

theorem lines_append_newline_letter :
    Template.parseStrict "%C, %S".toList = .ok [.field 'C', .literal ", ".toList, .field 'S'] ∧
      Template.parseStrict "n%Z".toList = .ok [.literal ['n'], .field 'Z'] ∧
      ∃ whole ls ms, Template.parseStrict "%C, %S%nn%Z".toList = .ok whole ∧
        lines { values := { locality := some ['x'], postalCode := some ['1'] } } whole =
          .ok (ls ++ ms) ∧
        ls = [['x']] ∧ ms = [['n', '1']] := by
  obtain ⟨whole, ls, ms, hwhole, hls, hms, hlines, -⟩ := lines_append_newline
    { values := { locality := some ['x'], postalCode := some ['1'] } } "%C, %S".toList
    "n%Z".toList _ _ rfl rfl
  injection hls with hls
  injection hms with hms
  exact ⟨rfl, rfl, whole, ls, ms, hwhole, hlines, hls.symm, hms.symm⟩

end Postal.Envelope
