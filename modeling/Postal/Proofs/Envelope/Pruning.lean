import Postal.Proofs.Envelope.Selection

/-!
# What pruning keeps

Pruning decides about a literal from the token before it and the last token
it kept, and not from the line. The invariant `Tracks` carries this local state
over to the rule of the line. It holds except right behind a kept literal,
where the next token is known to stay.
-/

set_option autoImplicit false

namespace Postal.Envelope

theorem hasValue_field (a : Address) (code : Char) (h : ∃ f, Field.ofCode code = .ok f) :
    ∃ b, hasValue a (.field code) = .ok b ∧ (b = true ↔ Populated a code) := by
  obtain ⟨f, hf⟩ := h
  refine ⟨a.hasValue f, ?_, ?_⟩
  · rw [hasValue, hf]
    rfl
  · rw [a.hasValue_eq_isSome]
    constructor
    · exact fun h => ⟨f, hf, h⟩
    · rintro ⟨g, hg, h⟩
      rw [hf] at hg
      cases hg
      exact h

/-- The last token kept is a field exactly if some field of the line so far is
populated, or else the next token stays or ends the line. -/
def Tracks (a : Address) (template : Template) (n : ℕ) (kept : Option Token) : Prop :=
  (kept.any Token.isField = true ↔ OnLine a template n) ∨
    LineEndAt template n ∨ PopulatedAt a template n

def before? (template : Template) (n : ℕ) : Option Token :=
  if n = 0 then none else template[n - 1]?

theorem before?_succ (template : Template) (n : ℕ) : before? template (n + 1) = template[n]? := by
  simp [before?]

theorem pruneBehind_cons (a : Address) (previous kept : Option Token) (t : Token)
    (rest : Template) :
    pruneBehind a previous kept (t :: rest) = (do
      if ← stays a previous kept rest t then
        return t :: (← pruneBehind a (some t) (some t) rest)
      else pruneBehind a (some t) kept rest) := by
  cases t with
  | newline => rfl
  | field code => rfl
  | literal text =>
    rw [pruneBehind, stays]
    cases isFollowed a rest <;> rfl

theorem pruneBehind_stays (a : Address) (previous kept : Option Token) (t : Token)
    (rest : Template) (h : stays a previous kept rest t = .ok true) :
    pruneBehind a previous kept (t :: rest) = do
      return t :: (← pruneBehind a (some t) (some t) rest) := by
  rw [pruneBehind_cons, h]
  rfl

theorem pruneBehind_drops (a : Address) (previous kept : Option Token) (t : Token)
    (rest : Template) (h : stays a previous kept rest t = .ok false) :
    pruneBehind a previous kept (t :: rest) = pruneBehind a (some t) kept rest := by
  rw [pruneBehind_cons, h]
  rfl

theorem isFollowed_spec (a : Address) (template : Template) (n : ℕ) (text : Text)
    (hk : template.Known) (hp : template.Parted) (h : template[n]? = some (.literal text)) :
    ∃ b, isFollowed a (template.drop (n + 1)) = .ok b ∧
      (b = true ↔ LineEndAt template (n + 1) ∨ PopulatedAt a template (n + 1)) := by
  cases hn : template[n + 1]? with
  | none =>
    have hd : template.drop (n + 1) = [] := List.drop_eq_nil_of_le (List.getElem?_eq_none_iff.mp hn)
    rw [hd]
    exact ⟨true, rfl, by simp [LineEndAt, hn]⟩
  | some t =>
    have hd : template.drop (n + 1) = t :: template.drop (n + 2) := by
      obtain ⟨hlt, he⟩ := List.getElem?_eq_some_iff.mp hn
      rw [List.drop_eq_getElem_cons hlt, he]
    rw [hd]
    cases t with
    | newline => exact ⟨true, rfl, by simp [LineEndAt, hn]⟩
    | field code =>
      obtain ⟨b, hb, hiff⟩ := hasValue_field a code (hk code (List.mem_of_getElem? hn))
      refine ⟨b, hb, hiff.trans ?_⟩
      rw [← populatedAt_field a template (n + 1) code hn]
      exact (or_iff_right (not_lineEndAt template (n + 1) _ hn (by simp))).symm
    | literal more => exact absurd ⟨rfl, rfl⟩ (template.parted_getElem? hp n _ _ h hn)

/-- A token stays exactly if it survives by the rule of the line. -/
theorem stays_spec (a : Address) (template : Template) (n : ℕ) (kept : Option Token) (t : Token)
    (hk : template.Known) (hp : template.Parted) (hi : Tracks a template n kept)
    (h : template[n]? = some t) :
    ∃ b, stays a (before? template n) kept (template.drop (n + 1)) t = .ok b ∧
      (b = true ↔ Survives a template n) := by
  cases t with
  | newline => exact ⟨true, rfl, by simp [Survives, h]⟩
  | field code =>
    obtain ⟨b, hb, hiff⟩ := hasValue_field a code (hk code (List.mem_of_getElem? h))
    exact ⟨b, hb, hiff.trans (survives_field a template n code h).symm⟩
  | literal text =>
    obtain ⟨followed, hf, hfiff⟩ := isFollowed_spec a template n text hk hp h
    have htrack : kept.any Token.isField = true ↔ OnLine a template n := by
      rcases hi with hi | hi | hi
      · exact hi
      · exact absurd hi (not_lineEndAt template n _ h (by simp))
      · exact absurd hi (not_populatedAt a template n (by simp [h]))
    refine ⟨_, (bind_eq_ok _ _ _).mpr ⟨followed, hf, rfl⟩, ?_⟩
    rw [survives_literal a template n text h, Bool.and_eq_true, hfiff, Bool.or_eq_true, htrack]
    apply and_congr_right'
    -- Behind a newline, or with nothing before it, the literal opens its line.
    cases n with
    | zero => simp [before?, FirstOnLine]
    | succ m =>
      rw [before?_succ]
      cases hm : template[m]? with
      | none =>
        have hle := List.getElem?_eq_none_iff.mp hm
        rw [List.getElem?_eq_none (by omega)] at h
        cases h
      | some s =>
        cases s with
        | newline => simp [FirstOnLine, hm, Token.isField]
        | field code => simp [FirstOnLine, hm, Token.isField]
        | literal more => exact absurd ⟨rfl, rfl⟩ (template.parted_getElem? hp m _ _ hm h)

theorem tracks_zero (a : Address) (template : Template) : Tracks a template 0 none := by
  left
  constructor
  · intro h
    cases h
  · rintro ⟨j, hj, -⟩
    exact absurd hj (Nat.not_lt_zero j)

theorem tracks_of_survives (a : Address) (template : Template) (n : ℕ) (t : Token)
    (h : template[n]? = some t) (hs : Survives a template n) :
    Tracks a template (n + 1) (some t) := by
  cases t with
  | newline =>
    left
    simp [onLine_succ, h, Token.isField]
  | field code =>
    left
    have hp := (populatedAt_field a template n code h).mpr
      ((survives_field a template n code h).mp hs)
    simp [onLine_succ, h, hp, Token.isField]
  | literal text => exact .inr ((survives_literal a template n text h).mp hs).1

theorem tracks_of_not_survives (a : Address) (template : Template) (n : ℕ) (kept : Option Token)
    (t : Token) (h : template[n]? = some t) (hs : ¬Survives a template n)
    (hi : Tracks a template n kept) : Tracks a template (n + 1) kept := by
  have hn : template[n]? ≠ some .newline := fun hn => hs (.inl hn)
  have hp : ¬PopulatedAt a template n := fun hp => hs (.inr (.inl hp))
  left
  rw [onLine_succ]
  rcases hi with hi | hi | hi
  · rw [hi]
    exact ⟨fun ho => ⟨hn, .inr ho⟩, fun ho => ho.2.resolve_left hp⟩
  · exact absurd hi (not_lineEndAt template n t h fun ht => hn (ht ▸ h))
  · exact absurd hi hp

theorem pruneBehind_selects (a : Address) (template : Template) (hk : template.Known)
    (hp : template.Parted) (n : ℕ) (kept : Option Token) (rest : Template)
    (hrest : template.drop n = rest) (hi : Tracks a template n kept) :
    ∃ out places, pruneBehind a (before? template n) kept rest = .ok out ∧
      Selects a template n out places := by
  induction rest generalizing n kept with
  | nil => exact ⟨[], [], rfl, selects_nil a template n (by simpa using hrest)⟩
  | cons t rest ih =>
    obtain ⟨ht, hdrop⟩ := template.getElem?_of_drop n t rest hrest
    obtain ⟨b, hb, hiff⟩ := stays_spec a template n kept t hk hp hi ht
    rw [hdrop] at hb
    by_cases hs : Survives a template n
    · obtain ⟨out, places, ho, hsel⟩ :=
        ih (n + 1) (some t) hdrop (tracks_of_survives a template n t ht hs)
      rw [hiff.mpr hs] at hb
      rw [before?_succ, ht] at ho
      refine ⟨t :: out, n :: places, ?_, selects_cons a template n t out places ht hs hsel⟩
      rw [pruneBehind_stays a _ kept t rest hb, ho]
      rfl
    · obtain ⟨out, places, ho, hsel⟩ :=
        ih (n + 1) kept hdrop (tracks_of_not_survives a template n kept t ht hs hi)
      rw [Bool.eq_false_iff.mpr fun hbt => hs (hiff.mp hbt)] at hb
      rw [before?_succ, ht] at ho
      refine ⟨out, places, ?_, selects_skip a template n out places hs hsel⟩
      rw [pruneBehind_drops a _ kept t rest hb, ho]

/-- Pruning the tokens of a template read strictly keeps the surviving places. No two literals
come together, and a literal that stood behind a field comes right after a field of its line. -/
theorem prune_of_parseStrict (a : Address) (s : Text) (template : Template)
    (h : Template.parseStrict s = .ok template) :
    ∃ kept places, prune a template = .ok kept ∧ Selects a template 0 kept places ∧
      Template.Parted kept ∧
      ∀ k i text code, places[k]? = some i → template[i]? = some (.literal text) →
        template[i - 1]? = some (.field code) →
        ∃ r j, k = r + 1 ∧ places[r]? = some j ∧ PopulatedAt a template j ∧
          ∀ m, j < m → m < i → template[m]? ≠ some .newline := by
  obtain ⟨ht, hk⟩ := (Template.parseStrict_eq_ok s template).mp h
  have hp := Template.parted_of_tokens? s template ht
  obtain ⟨kept, places, hkept, hsel⟩ :=
    pruneBehind_selects a template hk hp 0 none template rfl (tracks_zero a template)
  exact ⟨kept, places, hkept, hsel, hsel.parted,
    fun k i text code => hsel.behind_field hp k i text code⟩

theorem prune_of_parseStrict_gap :
    Template.parseStrict "%C, %S %Z".toList =
        .ok [.field 'C', .literal ", ".toList, .field 'S', .literal [' '], .field 'Z'] ∧
      ∃ kept places,
        prune { values := { locality := some ['x'], postalCode := some ['1'] } }
          [.field 'C', .literal ", ".toList, .field 'S', .literal [' '], .field 'Z'] = .ok kept ∧
        Selects { values := { locality := some ['x'], postalCode := some ['1'] } }
          [.field 'C', .literal ", ".toList, .field 'S', .literal [' '], .field 'Z'] 0 kept places ∧
        kept = [.field 'C', .literal [' '], .field 'Z'] := by
  obtain ⟨kept, places, hkept, hsel, -⟩ := prune_of_parseStrict
    { values := { locality := some ['x'], postalCode := some ['1'] } } "%C, %S %Z".toList _ rfl
  refine ⟨rfl, kept, places, hkept, hsel, ?_⟩
  injection hkept with hkept
  exact hkept.symm

end Postal.Envelope
