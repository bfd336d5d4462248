import Postal.Proofs.Envelope.Pruning

/-!
# Filling in fields

A literal is kept or dropped by the last token kept before it, and where more is kept that token
can be another one. So the prunings of the same tokens for an address and for a fuller one are
followed in step. Where the last token kept for the first is a field, it is one for the fuller
address too (`Leads`), but for one place: right behind a literal that only the fuller address
keeps. It keeps this literal for the field that comes next, and no literal is decided about before
that field is kept. Nothing here asks for lines or for literals that stand apart.
-/

set_option autoImplicit false

namespace Postal.Envelope

def FilledIn (a b : Address) : Prop := ∀ f, (a.value f).isSome → (b.value f).isSome

/-! ## Kept tokens and their places -/

theorem keptFrom_cons (a : Address) (previous kept : Option Token) (n : ℕ) (t : Token)
    (rest : Template) (s : Bool) (placed : List (Token × ℕ))
    (hs : stays a previous kept rest t = .ok s)
    (h : keptFrom a (some t) (if s then some t else kept) (n + 1) rest = .ok placed) :
    keptFrom a previous kept n (t :: rest) = .ok (if s then (t, n) :: placed else placed) := by
  rw [keptFrom, hs]
  cases s with
  | true =>
    apply (bind_eq_ok (keptFrom a (some t) (some t) (n + 1) rest) _ _).mpr
    exact ⟨placed, h, rfl⟩
  | false => exact h

theorem exists_hasValue (a : Address) (t : Token) (rest : Template)
    (hk : Template.Known (t :: rest)) : ∃ s, hasValue a t = .ok s := by
  cases t with
  | newline => exact ⟨true, rfl⟩
  | literal text => exact ⟨true, rfl⟩
  | field code =>
    obtain ⟨s, hs, -⟩ := hasValue_field a code (hk code List.mem_cons_self)
    exact ⟨s, hs⟩

theorem exists_stays (a : Address) (previous kept : Option Token) (t : Token) (rest : Template)
    (hk : Template.Known (t :: rest)) : ∃ s, stays a previous kept rest t = .ok s := by
  cases t with
  | newline => exact ⟨true, rfl⟩
  | field code => exact exists_hasValue a (.field code) rest hk
  | literal text =>
    cases rest with
    | nil => exact ⟨_, rfl⟩
    | cons next rest =>
      obtain ⟨s, hs⟩ := exists_hasValue a next rest (Template.known_tail _ _ hk)
      exact ⟨_, (bind_eq_ok _ _ _).mpr ⟨s, hs, rfl⟩⟩

/-- What pruning gives is the tokens kept, and each of them is the token at its place. -/
theorem keptFrom_spec (a : Address) (previous kept : Option Token) (n : ℕ) (template : Template)
    (hk : template.Known) :
    ∃ placed, keptFrom a previous kept n template = .ok placed ∧
      pruneBehind a previous kept template = .ok (placed.map Prod.fst) ∧
      placed.Sublist (template.zipIdx n) := by
  induction template generalizing previous kept n with
  | nil => exact ⟨[], rfl, rfl, List.Sublist.slnil⟩
  | cons t rest ih =>
    obtain ⟨s, hs⟩ := exists_stays a previous kept t rest hk
    obtain ⟨placed, hplaced, hpruned, hsub⟩ :=
      ih (some t) (if s then some t else kept) (n + 1) (Template.known_tail t rest hk)
    refine ⟨_, keptFrom_cons a previous kept n t rest s placed hs hplaced, ?_⟩
    cases s with
    | true =>
      refine ⟨?_, hsub.cons_cons (t, n)⟩
      rw [pruneBehind_stays a previous kept t rest hs]
      exact (bind_eq_ok _ _ _).mpr ⟨_, hpruned, rfl⟩
    | false =>
      refine ⟨?_, hsub.cons (t, n)⟩
      rwa [pruneBehind_drops a previous kept t rest hs]

/-! ## Two prunings in step -/

/-- If the last token kept for the first address is a field, so is the last one kept for the
fuller address, or else the next token is a field that the fuller address keeps. -/
def Leads (b : Address) (keptA keptB : Option Token) (rest : Template) : Prop :=
  keptA.any Token.isField = true → keptB.any Token.isField = true ∨
    ∃ code, rest.head? = some (.field code) ∧ Populated b code

theorem populated_iff_of_hasValue (a : Address) (code : Char) (s : Bool)
    (h : hasValue a (.field code) = .ok s) : Populated a code ↔ s = true := by
  obtain ⟨f, hf, -⟩ := (bind_eq_ok _ _ _).mp h
  obtain ⟨_, hs, hiff⟩ := hasValue_field a code ⟨f, hf⟩
  obtain rfl := Except.ok.inj (h.symm.trans hs)
  exact hiff.symm

section
variable {a b : Address}

theorem populated_of_filledIn (hf : FilledIn a b) (code : Char) (h : Populated a code) :
    Populated b code := by
  obtain ⟨f, hcode, hvalue⟩ := h
  exact ⟨f, hcode, hf f hvalue⟩

theorem hasValue_filledIn (hf : FilledIn a b) (t : Token) (sa sb : Bool)
    (ha : hasValue a t = .ok sa) (hb : hasValue b t = .ok sb) :
    (sa = true → sb = true) ∧
      (sa = false → sb = true → ∃ code, t = .field code ∧ Populated b code) := by
  by_cases he : sa = sb
  · rw [he]
    exact ⟨id, fun hs hs' => absurd (hs.symm.trans hs') Bool.false_ne_true⟩
  · cases t with
    | newline => exact absurd (Except.ok.inj (ha.symm.trans hb)) he
    | literal text => exact absurd (Except.ok.inj (ha.symm.trans hb)) he
    | field code =>
      rw [← populated_iff_of_hasValue a code sa ha, ← populated_iff_of_hasValue b code sb hb]
      exact ⟨populated_of_filledIn hf code, fun _ hp => ⟨code, rfl, hp⟩⟩

theorem isFollowed_filledIn (hf : FilledIn a b) (rest : Template) (sa sb : Bool)
    (ha : isFollowed a rest = .ok sa) (hb : isFollowed b rest = .ok sb) :
    (sa = true → sb = true) ∧
      (sa = false → sb = true → ∃ code, rest.head? = some (.field code) ∧ Populated b code) := by
  cases rest with
  | nil =>
    obtain rfl : sa = sb := Except.ok.inj (ha.symm.trans hb)
    exact ⟨id, fun hs hs' => absurd (hs.symm.trans hs') Bool.false_ne_true⟩
  | cons t rest =>
    obtain ⟨hle, hnew⟩ := hasValue_filledIn hf t sa sb ha hb
    refine ⟨hle, fun hs hs' => ?_⟩
    obtain ⟨code, rfl, hp⟩ := hnew hs hs'
    exact ⟨code, rfl, hp⟩

theorem leads_field (hf : FilledIn a b) (keptA keptB : Option Token) (code : Char)
    (rest : Template) (sa sb : Bool) (hl : Leads b keptA keptB (.field code :: rest))
    (ha : hasValue a (.field code) = .ok sa) (hb : hasValue b (.field code) = .ok sb) :
    (sa = true → sb = true) ∧ Leads b (if sa then some (.field code) else keptA)
      (if sb then some (.field code) else keptB) rest := by
  obtain ⟨hle, -⟩ := hasValue_filledIn hf (.field code) sa sb ha hb
  refine ⟨hle, fun hlast => .inl ?_⟩
  cases sb with
  | true => rfl
  | false =>
    have hsa : sa = false := Bool.eq_false_iff.mpr fun h => Bool.noConfusion (hle h)
    rw [hsa] at hlast
    -- The fuller address drops this field, so it was not waiting for it.
    rcases hl hlast with hlast | ⟨_, ⟨⟩, hp⟩
    · exact hlast
    · exact absurd ((populated_iff_of_hasValue b code false hb).mp hp) Bool.false_ne_true

theorem leads_literal (hf : FilledIn a b) (previous keptA keptB : Option Token) (text : Text)
    (rest : Template) (sa sb : Bool) (hl : Leads b keptA keptB (.literal text :: rest))
    (ha : stays a previous keptA rest (.literal text) = .ok sa)
    (hb : stays b previous keptB rest (.literal text) = .ok sb) :
    (sa = true → sb = true) ∧ Leads b (if sa then some (.literal text) else keptA)
      (if sb then some (.literal text) else keptB) rest := by
  obtain ⟨fa, hfa, ha⟩ := (bind_eq_ok _ _ _).mp ha
  obtain ⟨fb, hfb, hb⟩ := (bind_eq_ok _ _ _).mp hb
  obtain ⟨hle, hnew⟩ := isFollowed_filledIn hf rest fa fb hfa hfb
  have hlead : keptA.any Token.isField = true → keptB.any Token.isField = true := by
    intro hlast
    rcases hl hlast with hlast | ⟨_, ⟨⟩, -⟩
    exact hlast
  have hsa := Except.ok.inj ha
  have hsb := Except.ok.inj hb
  constructor
  · intro hs
    rw [← hsa, Bool.and_eq_true, Bool.or_eq_true] at hs
    rw [← hsb, Bool.and_eq_true, Bool.or_eq_true]
    exact ⟨hle hs.1, hs.2.imp_right hlead⟩
  · intro hlast
    cases sa with
    | true => exact Bool.noConfusion hlast
    | false =>
      have hfieldA : keptA.any Token.isField = true := hlast
      have hfieldB := hlead hfieldA
      cases sb with
      | false => exact .inl hfieldB
      | true =>
        -- A field is the last token kept for both, so what follows tells them apart.
        rw [hfieldA, Bool.or_true, Bool.and_true] at hsa
        rw [hfieldB, Bool.or_true, Bool.and_true] at hsb
        exact .inr (hnew hsa hsb)

/-- One token: it stays for the fuller address if it does for the other, and the lead is kept. -/
theorem leads_step (hf : FilledIn a b) (previous keptA keptB : Option Token) (t : Token)
    (rest : Template) (sa sb : Bool) (hl : Leads b keptA keptB (t :: rest))
    (ha : stays a previous keptA rest t = .ok sa) (hb : stays b previous keptB rest t = .ok sb) :
    (sa = true → sb = true) ∧
      Leads b (if sa then some t else keptA) (if sb then some t else keptB) rest := by
  cases t with
  | newline =>
    obtain rfl : true = sa := Except.ok.inj ha
    obtain rfl : true = sb := Except.ok.inj hb
    exact ⟨id, fun h => Bool.noConfusion h⟩
  | field code => exact leads_field hf keptA keptB code rest sa sb hl ha hb
  | literal text => exact leads_literal hf previous keptA keptB text rest sa sb hl ha hb

theorem keptFrom_filledIn (hf : FilledIn a b) (previous keptA keptB : Option Token) (n : ℕ)
    (template : Template) (hk : template.Known) (hl : Leads b keptA keptB template) :
    ∃ fewer more, keptFrom a previous keptA n template = .ok fewer ∧
      keptFrom b previous keptB n template = .ok more ∧ fewer.Sublist more := by
  induction template generalizing previous keptA keptB n with
  | nil => exact ⟨[], [], rfl, rfl, List.Sublist.slnil⟩
  | cons t rest ih =>
    obtain ⟨sa, ha⟩ := exists_stays a previous keptA t rest hk
    obtain ⟨sb, hb⟩ := exists_stays b previous keptB t rest hk
    obtain ⟨hle, hnext⟩ := leads_step hf previous keptA keptB t rest sa sb hl ha hb
    obtain ⟨fewer, more, hfewer, hmore, hsub⟩ :=
      ih (some t) _ _ (n + 1) (Template.known_tail t rest hk) hnext
    refine ⟨_, _, keptFrom_cons a previous keptA n t rest sa fewer ha hfewer,
      keptFrom_cons b previous keptB n t rest sb more hb hmore, ?_⟩
    cases sa with
    | true =>
      rw [hle rfl]
      exact hsub.cons_cons (t, n)
    | false =>
      cases sb with
      | true => exact hsub.cons (t, n)
      | false => exact hsub

end

/-- When fields of an address are filled in, every place that pruning kept is kept again. -/
theorem keptAt_sublist (s : Text) (template : Template) (a b : Address)
    (hs : Template.parseStrict s = .ok template) (hf : FilledIn a b) :
    ∃ fewer more, keptAt a template = .ok fewer ∧ prune a template = .ok (fewer.map Prod.fst) ∧
      keptAt b template = .ok more ∧ prune b template = .ok (more.map Prod.fst) ∧
      fewer.Sublist more ∧ more.Sublist template.zipIdx := by
  have hk := ((Template.parseStrict_eq_ok s template).mp hs).2
  obtain ⟨fewer, more, hfewer, hmore, hsub⟩ :=
    keptFrom_filledIn hf none none none 0 template hk fun h => Bool.noConfusion h
  obtain ⟨_, h, hpruneA, -⟩ := keptFrom_spec a none none 0 template hk
  obtain rfl := Except.ok.inj (hfewer.symm.trans h)
  obtain ⟨_, h, hpruneB, hplaces⟩ := keptFrom_spec b none none 0 template hk
  obtain rfl := Except.ok.inj (hmore.symm.trans h)
  exact ⟨fewer, more, hfewer, hpruneA, hmore, hpruneB, hsub, hplaces⟩

theorem keptAt_sublist_gap :
    let a : Address := { values := { locality := some ['x'], postalCode := some ['1'] } }
    let b : Address := { a with values := { a.values with adminArea := some ['y'] } }
    let template : Template :=
      [.field 'C', .literal ", ".toList, .field 'S', .literal [' '], .field 'Z']
    let fewer := [(Token.field 'C', 0), (.literal [' '], 3), (.field 'Z', 4)]
    Template.parseStrict "%C, %S %Z".toList = .ok template ∧ FilledIn a b ∧
      keptAt a template = .ok fewer ∧ keptAt b template = .ok template.zipIdx ∧
      fewer.Sublist template.zipIdx := by
  intro a b template fewer
  have hf : FilledIn a b := by
    intro f
    cases f <;> decide
  obtain ⟨_, _, hfewer, -, hmore, -, hsub, -⟩ :=
    keptAt_sublist "%C, %S %Z".toList template a b rfl hf
  obtain rfl : fewer = _ := Except.ok.inj hfewer
  obtain rfl : template.zipIdx = _ := Except.ok.inj hmore
  exact ⟨rfl, hf, rfl, rfl, hsub⟩

end Postal.Envelope
