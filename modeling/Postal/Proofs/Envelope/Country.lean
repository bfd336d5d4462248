import Postal.Proofs.Envelope.Composition

/-!
# The country and the lines

The country is never printed, but pruning asks for it as for any other field.
So a literal may owe its place to the country alone: it stands before the code
of the country, or the country is all that its line has before it. With a
country such a literal is printed, without one it is not. All else is printed
alike.
-/

set_option autoImplicit false

namespace Postal

def Address.withoutCountry (a : Address) : Address :=
  { a with values := a.values.set .country none }

namespace Address

theorem value_withoutCountry (a : Address) (f : Field) (h : f ≠ .country) :
    a.withoutCountry.value f = a.value f := by
  cases f <;> first | rfl | exact absurd rfl h

theorem withoutCountry_of_none (a : Address) (h : a.value .country = none) :
    a.withoutCountry = a := by
  have hv : a.values.set .country none = a.values := by
    have hget : a.values.get .country = none := h
    rw [← hget, SingleValues.set_get_self]
  rw [withoutCountry, hv]

end Address

namespace Envelope

section
variable (a : Address) (template : Template)

def CountryAt (i : ℕ) : Prop := template[i]? = some (.field Field.country.code)

def CountryOnLine (i : ℕ) : Prop :=
  ∃ j < i, CountryAt template j ∧ ∀ m, j < m → m < i → template[m]? ≠ some .newline

/-- A literal that stays beside a country and goes without one. -/
def HangsOnCountry (i : ℕ) : Prop :=
  (∃ text, template[i]? = some (.literal text)) ∧
    (LineEndAt template (i + 1) ∨ PopulatedAt a.withoutCountry template (i + 1) ∨
      CountryAt template (i + 1)) ∧
    (FirstOnLine template i ∨ OnLine a.withoutCountry template i ∨ CountryOnLine template i) ∧
    (CountryAt template (i + 1) ∨
      ¬FirstOnLine template i ∧ ¬OnLine a.withoutCountry template i)

end

theorem populated_of_withoutCountry (a : Address) (code : Char)
    (h : Populated a.withoutCountry code) : Populated a code := by
  obtain ⟨f, hf, hv⟩ := h
  by_cases hc : f = .country
  · subst hc
    cases hv
  · rw [a.value_withoutCountry f hc] at hv
    exact ⟨f, hf, hv⟩

theorem not_populated_withoutCountry (a : Address) :
    ¬Populated a.withoutCountry Field.country.code := by
  rintro ⟨f, hf, hv⟩
  rw [Field.ofCode_code] at hf
  cases hf
  cases hv

theorem populated_iff (a : Address) (h : (a.value .country).isSome = true) (code : Char) :
    Populated a code ↔ Populated a.withoutCountry code ∨ code = Field.country.code := by
  constructor
  · rintro ⟨f, hf, hv⟩
    by_cases hc : f = .country
    · subst hc
      exact .inr (Field.code_of_ofCode code _ hf).symm
    · rw [← a.value_withoutCountry f hc] at hv
      exact .inl ⟨f, hf, hv⟩
  · rintro (hp | rfl)
    · exact populated_of_withoutCountry a code hp
    · exact ⟨.country, Field.ofCode_code .country, h⟩

section
variable {a : Address} {template : Template}

theorem populatedAt_iff (h : (a.value .country).isSome = true) (i : ℕ) :
    PopulatedAt a template i ↔
      PopulatedAt a.withoutCountry template i ∨ CountryAt template i := by
  constructor
  · rintro ⟨code, hc, hp⟩
    rcases (populated_iff a h code).mp hp with hp | rfl
    · exact .inl ⟨code, hc, hp⟩
    · exact .inr hc
  · rintro (⟨code, hc, hp⟩ | hc)
    · exact ⟨code, hc, (populated_iff a h code).mpr (.inl hp)⟩
    · exact ⟨_, hc, (populated_iff a h _).mpr (.inr rfl)⟩

theorem onLine_iff (h : (a.value .country).isSome = true) (i : ℕ) :
    OnLine a template i ↔ OnLine a.withoutCountry template i ∨ CountryOnLine template i := by
  constructor
  · rintro ⟨j, hj, hp, hl⟩
    rcases (populatedAt_iff h j).mp hp with hp | hc
    · exact .inl ⟨j, hj, hp, hl⟩
    · exact .inr ⟨j, hj, hc, hl⟩
  · rintro (⟨j, hj, hp, hl⟩ | ⟨j, hj, hc, hl⟩)
    · exact ⟨j, hj, (populatedAt_iff h j).mpr (.inl hp), hl⟩
    · exact ⟨j, hj, (populatedAt_iff h j).mpr (.inr hc), hl⟩

theorem hangsOnCountry_iff (h : (a.value .country).isSome = true) (i : ℕ) (text : Text)
    (hl : template[i]? = some (.literal text)) : HangsOnCountry a template i ↔
      Survives a template i ∧ ¬Survives a.withoutCountry template i := by
  rw [survives_literal a template i text hl, survives_literal _ template i text hl,
    populatedAt_iff h, onLine_iff h, HangsOnCountry]
  have hcountry : CountryAt template (i + 1) →
      ¬(LineEndAt template (i + 1) ∨ PopulatedAt a.withoutCountry template (i + 1)) := by
    intro hc
    apply not_or.mpr
    constructor
    · exact not_lineEndAt template (i + 1) _ hc (by simp)
    · rw [populatedAt_field _ template (i + 1) _ hc]
      exact not_populated_withoutCountry a
  constructor
  · rintro ⟨-, hnext, hbefore, hown⟩
    refine ⟨⟨hnext, hbefore⟩, fun ⟨hother, hearlier⟩ => ?_⟩
    rcases hown with hc | hnone
    · exact hcountry hc hother
    · exact not_or.mpr hnone hearlier
  · rintro ⟨⟨hnext, hbefore⟩, hgoes⟩
    refine ⟨⟨text, hl⟩, hnext, hbefore, ?_⟩
    by_cases hc : CountryAt template (i + 1)
    · exact .inl hc
    · have hother := hnext.imp_right fun hp => hp.resolve_right hc
      exact .inr (not_or.mp fun hearlier => hgoes ⟨hother, hearlier⟩)

theorem not_hangsOnCountry (h : (a.value .country).isSome = true) (i : ℕ)
    (hs : Survives a template i → Survives a.withoutCountry template i) :
    ¬HangsOnCountry a template i := by
  intro hhangs
  obtain ⟨text, hl⟩ := hhangs.1
  obtain ⟨hstays, hgoes⟩ := (hangsOnCountry_iff h i text hl).mp hhangs
  exact hgoes (hs hstays)

theorem survives_of_withoutCountry (h : (a.value .country).isSome = true) (i : ℕ)
    (hs : Survives a.withoutCountry template i) : Survives a template i := by
  rcases hs with hs | hs | ⟨hl, hnext, hbefore⟩
  · exact .inl hs
  · exact .inr (.inl ((populatedAt_iff h i).mpr (.inl hs)))
  · refine .inr (.inr ⟨hl, ?_, ?_⟩)
    · rw [populatedAt_iff h]
      exact hnext.imp_right .inl
    · rw [onLine_iff h]
      exact hbefore.imp_right .inl

end

/-- Lists of tokens of which the first has `hanging` literals that the second lacks, and codes of
the country that the second may lack. -/
inductive Exceeds : ℕ → Template → Template → Prop where
  | nil : Exceeds 0 [] []
  | shared (t : Token) (hanging : ℕ) (more less : Template) (h : Exceeds hanging more less) :
      Exceeds hanging (t :: more) (t :: less)
  | country (hanging : ℕ) (more less : Template) (h : Exceeds hanging more less) :
      Exceeds hanging (.field Field.country.code :: more) less
  | literal (text : Text) (hne : text ≠ []) (hanging : ℕ) (more less : Template)
      (h : Exceeds hanging more less) : Exceeds (hanging + 1) (.literal text :: more) less

theorem writeToken_withoutCountry (a : Address) (line : Text) (t : Token) :
    writeToken a line t = writeToken a.withoutCountry line t := by
  cases t with
  | newline => rfl
  | literal text => rfl
  | field code =>
    rw [writeToken, writeToken]
    cases Field.ofCode code with
    | error e => rfl
    | ok f => cases f <;> rfl

theorem renderFrom_withoutCountry (a : Address) (line : Text) (kept : Template) :
    renderFrom a line kept = renderFrom a.withoutCountry line kept :=
  renderFrom_congr_writeToken line kept fun t _ line => writeToken_withoutCountry a line t

theorem renderFrom_of_exceeds (a : Address) (line : Text) (hanging : ℕ) (more less : Template)
    (h : Exceeds hanging more less) (hz : hanging = 0) :
    renderFrom a line more = renderFrom a line less := by
  induction h generalizing line with
  | nil => rfl
  | shared t hanging more less h ih =>
    rw [renderFrom_cons, renderFrom_cons]
    simp only [fun next => ih next hz]
  | country hanging more less h ih => exact ih line hz
  | literal text hne hanging more less h ih => cases hz

theorem length_of_exceeds (a : Address) (hanging : ℕ) (more less : Template)
    (h : Exceeds hanging more less) :
    (less.flatMap (printed a)).length + hanging ≤ (more.flatMap (printed a)).length := by
  induction h with
  | nil => simp
  | shared t hanging more less h ih =>
    simp only [List.flatMap_cons, List.length_append]
    omega
  | country hanging more less h ih =>
    simp only [List.flatMap_cons, List.length_append]
    omega
  | literal text hne hanging more less h ih =>
    have hpos := List.length_pos_iff.mpr hne
    have hprinted : printed a (.literal text) = text := by simp [printed, pieces]
    simp only [List.flatMap_cons, List.length_append, hprinted]
    omega

/-- Where a country is kept besides, the lines change exactly if a literal is. -/
theorem lines_eq_iff_of_exceeds (a : Address) (hanging : ℕ) (more less : Template)
    (h : Exceeds hanging more less) (outMore outLess : List Text)
    (hmore : renderFrom a [] more = .ok outMore) (hless : renderFrom a [] less = .ok outLess) :
    outMore = outLess ↔ hanging = 0 := by
  constructor
  · intro he
    have hlength := length_of_exceeds a hanging more less h
    have htext := congrArg (fun out => out.flatten.length) he
    simp only [renderFrom_flatten a [] _ _ hmore, renderFrom_flatten a [] _ _ hless,
      List.nil_append] at htext
    omega
  · intro hz
    rw [renderFrom_of_exceeds a [] hanging more less h hz, hless] at hmore
    exact (Except.ok.inj hmore).symm

theorem forall_from_iff (P : ℕ → Prop) (n : ℕ) :
    (∀ i, n ≤ i → P i) ↔ P n ∧ ∀ i, n + 1 ≤ i → P i := by
  constructor
  · exact fun h => ⟨h n (Nat.le_refl n), fun i hi => h i (by omega)⟩
  · rintro ⟨hn, hlater⟩ i hi
    by_cases he : i = n
    · rwa [he]
    · exact hlater i (by omega)

theorem Selects.exceeds (a : Address) (h : (a.value .country).isSome = true) (template : Template)
    (hne : ∀ text, .literal text ∈ template → text ≠ []) (n : ℕ) (rest : Template)
    (hrest : template.drop n = rest) (more less : Template) (places others : List ℕ)
    (hmore : Selects a template n more places)
    (hless : Selects a.withoutCountry template n less others) :
    ∃ hanging, Exceeds hanging more less ∧
      (hanging = 0 ↔ ∀ i, n ≤ i → ¬HangsOnCountry a template i) := by
  induction rest generalizing n more less places others with
  | nil =>
    have hn : template.length ≤ n := List.drop_eq_nil_iff.mp hrest
    refine ⟨0, ?_, iff_of_true rfl fun i hi hhangs => ?_⟩
    · rw [hmore.eq_nil hn, hless.eq_nil hn]
      exact .nil
    · obtain ⟨text, hl⟩ := hhangs.1
      rw [List.getElem?_eq_none (by omega)] at hl
      cases hl
  | cons t rest ih =>
    obtain ⟨ht, hdrop⟩ := template.getElem?_of_drop n t rest hrest
    rw [forall_from_iff]
    rcases hmore.head t ht with ⟨hs, moreRest, later, rfl, hm⟩ | ⟨hs, hm⟩
    · rcases hless.head t ht with ⟨hw, lessRest, fewer, rfl, hl⟩ | ⟨hw, hl⟩
      · -- The token stays either way.
        obtain ⟨hanging, hx, hiff⟩ := ih (n + 1) hdrop moreRest lessRest later fewer hm hl
        have hhere : ¬HangsOnCountry a template n := not_hangsOnCountry h n fun _ => hw
        exact ⟨hanging, .shared t hanging _ _ hx, hiff.trans (and_iff_right hhere).symm⟩
      · obtain ⟨hanging, hx, hiff⟩ := ih (n + 1) hdrop moreRest less later others hm hl
        cases t with
        | newline => exact absurd (.inl ht) hw
        | field code =>
          rw [survives_field _ template n code ht] at hs hw
          obtain rfl : code = Field.country.code :=
            ((populated_iff a h code).mp hs).resolve_left hw
          have hhere : ¬HangsOnCountry a template n := by
            rintro ⟨⟨text, htext⟩, -⟩
            rw [ht] at htext
            cases htext
          exact ⟨hanging, .country hanging _ _ hx, hiff.trans (and_iff_right hhere).symm⟩
        | literal text =>
          have hhere : HangsOnCountry a template n := (hangsOnCountry_iff h n text ht).mpr ⟨hs, hw⟩
          have hneText : text ≠ [] := hne text (List.mem_of_getElem? ht)
          refine ⟨hanging + 1, .literal text hneText hanging _ _ hx, ?_⟩
          exact iff_of_false (Nat.succ_ne_zero hanging) fun hall => hall.1 hhere
    · rcases hless.head t ht with ⟨hw, -⟩ | ⟨hw, hl⟩
      · exact absurd (survives_of_withoutCountry h n hw) hs
      · obtain ⟨hanging, hx, hiff⟩ := ih (n + 1) hdrop more less places others hm hl
        have hhere : ¬HangsOnCountry a template n := not_hangsOnCountry h n fun hsn => absurd hsn hs
        exact ⟨hanging, hx, hiff.trans (and_iff_right hhere).symm⟩

theorem exists_selects (a : Address) (s : Text) (template : Template) (out : List Text)
    (hs : Template.parseStrict s = .ok template) (hout : lines a template = .ok out) :
    ∃ kept places, Selects a template 0 kept places ∧ renderFrom a [] kept = .ok out := by
  obtain ⟨ht, hk⟩ := (Template.parseStrict_eq_ok s template).mp hs
  obtain ⟨kept, places, hkept, hselects⟩ := pruneBehind_selects a template hk
    (Template.parted_of_tokens? s template ht) 0 none template rfl (tracks_zero a template)
  obtain ⟨other, hother, hrender⟩ := (lines_eq_ok a template out).mp hout
  obtain rfl : kept = other := Except.ok.inj (hkept.symm.trans hother)
  exact ⟨kept, places, hselects, hrender⟩

theorem lines_withoutCountry_iff (a : Address) (h : (a.value .country).isSome = true) (s : Text)
    (template : Template) (hs : Template.parseStrict s = .ok template) (out less : List Text)
    (hout : lines a template = .ok out) (hless : lines a.withoutCountry template = .ok less) :
    out = less ↔ ∀ i, ¬HangsOnCountry a template i := by
  obtain ⟨kept, places, hselects, hrender⟩ := exists_selects a s template out hs hout
  obtain ⟨fewer, others, hfewer, hrenderFewer⟩ := exists_selects _ s template less hs hless
  have hcanonical := Template.canonical_of_tokens? s template
    ((Template.parseStrict_eq_ok s template).mp hs).1
  obtain ⟨hanging, hx, hiff⟩ := hselects.exceeds a h template
    (fun text hm => (hcanonical.literal text hm).1) 0 template rfl kept fewer places others hfewer
  rw [← renderFrom_withoutCountry] at hrenderFewer
  rw [lines_eq_iff_of_exceeds a hanging kept fewer hx out less hrender hrenderFewer, hiff]
  simp

section
variable {a b : Address}

theorem hangsOnCountry_congr (h : a.withoutCountry = b.withoutCountry) (template : Template)
    (i : ℕ) : HangsOnCountry a template i ↔ HangsOnCountry b template i := by
  rw [HangsOnCountry, HangsOnCountry, h]

theorem hasValue_of_presence (h : a.withoutCountry = b.withoutCountry)
    (hp : (a.value .country).isSome = (b.value .country).isSome) (t : Token) :
    hasValue a t = hasValue b t := by
  cases t with
  | newline => rfl
  | literal text => rfl
  | field code =>
    rw [hasValue, hasValue]
    cases Field.ofCode code with
    | error e => rfl
    | ok f =>
      have hv : a.hasValue f = b.hasValue f := by
        rw [a.hasValue_eq_isSome, b.hasValue_eq_isSome]
        by_cases hf : f = .country
        · rw [hf, hp]
        · rw [← a.value_withoutCountry f hf, h, b.value_withoutCountry f hf]
      exact congrArg Except.ok hv

theorem lines_of_presence (h : a.withoutCountry = b.withoutCountry)
    (hp : (a.value .country).isSome = (b.value .country).isSome) (template : Template) :
    lines a template = lines b template := by
  have hprune : prune a template = prune b template :=
    pruneBehind_congr_hasValue none none template fun t _ => hasValue_of_presence h hp t
  have hrender : ∀ kept, render a kept = render b kept := fun kept => by
    rw [render, render, renderFrom_withoutCountry, h, ← renderFrom_withoutCountry]
  rw [lines, lines, hprune]
  simp only [hrender]

theorem lines_eq_iff_of_absent (h : a.withoutCountry = b.withoutCountry)
    (ha : (a.value .country).isSome = true) (hb : (b.value .country).isSome = false) (s : Text)
    (template : Template) (hs : Template.parseStrict s = .ok template) (la lb : List Text)
    (hla : lines a template = .ok la) (hlb : lines b template = .ok lb) :
    la = lb ↔ ∀ i, ¬HangsOnCountry a template i := by
  have hnone : b.value .country = none := by simpa using hb
  rw [← b.withoutCountry_of_none hnone, ← h] at hlb
  exact lines_withoutCountry_iff a ha s template hs la lb hla hlb

end

/-- Two addresses that differ at most in their country have the same lines exactly if both or
neither have one, or if the template, with the other fields they hold, leaves no literal whose
place depends on it. -/
theorem lines_eq_iff_of_countries (a b : Address) (h : a.withoutCountry = b.withoutCountry)
    (s : Text) (template : Template) (hs : Template.parseStrict s = .ok template) :
    ∃ la lb, lines a template = .ok la ∧ lines b template = .ok lb ∧
      (la = lb ↔ (a.value .country).isSome = (b.value .country).isSome ∨
        ∀ i, ¬HangsOnCountry a template i) := by
  obtain ⟨la, hla⟩ := exists_lines a s template hs
  obtain ⟨lb, hlb⟩ := exists_lines b s template hs
  refine ⟨la, lb, hla, hlb, ?_⟩
  by_cases hp : (a.value .country).isSome = (b.value .country).isSome
  · have hsame := lines_of_presence h hp template
    rw [hla, hlb] at hsame
    exact iff_of_true (Except.ok.inj hsame) (.inl hp)
  · rw [or_iff_right hp]
    cases ha : (a.value .country).isSome with
    | true =>
      have hb : (b.value .country).isSome = false := by simpa [ha] using hp
      exact lines_eq_iff_of_absent h ha hb s template hs la lb hla hlb
    | false =>
      have hb : (b.value .country).isSome = true := by
        rw [ha] at hp
        exact Bool.eq_true_of_not_eq_false fun hb => hp hb.symm
      simp only [hangsOnCountry_congr h]
      rw [eq_comm]
      exact lines_eq_iff_of_absent h.symm hb ha s template hs lb la hlb hla

theorem lines_eq_iff_of_countries_space :
    Template.parseStrict "%S%R %Z%n%C, %R".toList = .ok [.field 'S', .field 'R', .literal [' '],
        .field 'Z', .newline, .field 'C', .literal ", ".toList, .field 'R'] ∧
      (∀ i, ¬HangsOnCountry
        { values := { country := some ['U'], adminArea := some ['M'], postalCode := some ['1'] } }
        [.field 'S', .field 'R', .literal [' '], .field 'Z', .newline, .field 'C',
          .literal ", ".toList, .field 'R'] i) ∧
      ∃ i, HangsOnCountry { values := { country := some ['U'], postalCode := some ['1'] } }
        [.field 'S', .field 'R', .literal [' '], .field 'Z', .newline, .field 'C',
          .literal ", ".toList, .field 'R'] i := by
  refine ⟨rfl, ?_, ?_⟩
  · obtain ⟨la, lb, hla, hlb, hiff⟩ := lines_eq_iff_of_countries
      { values := { country := some ['U'], adminArea := some ['M'], postalCode := some ['1'] } }
      { values := { adminArea := some ['M'], postalCode := some ['1'] } }
      rfl "%S%R %Z%n%C, %R".toList _ rfl
    obtain rfl : ["M 1".toList] = la := Except.ok.inj hla
    obtain rfl : ["M 1".toList] = lb := Except.ok.inj hlb
    exact (hiff.mp rfl).resolve_left (by decide)
  · obtain ⟨la, lb, hla, hlb, hiff⟩ := lines_eq_iff_of_countries
      { values := { country := some ['U'], postalCode := some ['1'] } }
      { values := { postalCode := some ['1'] } } rfl "%S%R %Z%n%C, %R".toList _ rfl
    obtain rfl : [" 1".toList] = la := Except.ok.inj hla
    obtain rfl : ["1".toList] = lb := Except.ok.inj hlb
    by_contra hnone
    exact absurd (hiff.mpr (.inr (not_exists.mp hnone))) (by decide)

/-- The comma before the country is printed with one and not without. -/
theorem exists_lines_ne_of_countries :
    ∃ template, Template.parseStrict "%C, %R".toList = .ok template ∧
      ∃ a b : Address, a.Built ∧ b.Built ∧ a.withoutCountry = b.withoutCountry ∧
        lines a template = .ok ["Town, ".toList] ∧ lines b template = .ok ["Town".toList] := by
  have ha := Address.Built.drafted [.single .country "US".toList,
    .single .locality "Town".toList] (by simp)
  have hb := Address.Built.drafted [.single .locality "Town".toList] (by simp)
  exact ⟨_, rfl, _, _, ha, hb, rfl, rfl, rfl⟩

end Envelope
end Postal
