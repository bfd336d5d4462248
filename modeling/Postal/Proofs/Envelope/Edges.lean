import Postal.Proofs.Envelope.Composition

/-!
# Edges of printed lines

Where every literal parts two fields, pruning keeps it that way, so whatever
is kept begins and ends with a field on each line of the template. A street of
several lines breaks that line in its middle. What comes behind it opens a line
of its own, and if that is a literal, the printed line begins with it. In all
other cases every printed line begins and ends with text of the address.
-/

set_option autoImplicit false

namespace Postal

/-- Beside a literal stands a field. -/
def Token.Adjoins (s t : Token) : Prop :=
  (s.isLiteral = true → t.isField = true) ∧ (t.isLiteral = true → s.isField = true)

instance (s t : Token) : Decidable (s.Adjoins t) := inferInstanceAs (Decidable (_ ∧ _))

/-- Every literal stands directly between two fields. The line breaks put at the
ends are no fields. -/
def Template.Separating (template : Template) : Prop :=
  (.newline :: (template ++ [.newline])).IsChain Token.Adjoins

instance (template : Template) : Decidable template.Separating :=
  inferInstanceAs (Decidable (List.IsChain _ _))

namespace Envelope

/-- The texts of an address: its single values and its street lines. -/
def Holds (a : Address) (t : Text) : Prop := (∃ f, a.values.get f = some t) ∨ t ∈ a.lines

def Begins (a : Address) (line : Text) : Prop := ∃ t, Holds a t ∧ t <+: line

def Ends (a : Address) (line : Text) : Prop := ∃ t, Holds a t ∧ t <:+ line

theorem holds_ne_nil (a : Address) (ha : a.Built) (t : Text) (h : Holds a t) : t ≠ [] := by
  rcases h with ⟨f, hf⟩ | hl
  · exact Text.tidy_ne_nil t (ha.trimmed.value f t hf)
  · exact Text.tidy_ne_nil t (ha.trimmed.line t hl).1

theorem begins_append (a : Address) (s t : Text) (h : Begins a s) : Begins a (s ++ t) := by
  obtain ⟨held, hh, hp⟩ := h
  exact ⟨held, hh, hp.trans (List.prefix_append s t)⟩

theorem ends_append (a : Address) (s t : Text) (h : Ends a t) : Ends a (s ++ t) := by
  obtain ⟨held, hh, hs⟩ := h
  exact ⟨held, hh, hs.trans (List.suffix_append s t)⟩

theorem edges_of_holds (a : Address) (t : Text) (h : Holds a t) : Begins a t ∧ Ends a t :=
  ⟨⟨t, h, List.prefix_refl t⟩, ⟨t, h, List.suffix_refl t⟩⟩

theorem holds_of_value (a : Address) (f : Field) (t : Text) (hs : f.isSingle = true)
    (h : a.value f = some t) : Holds a t := by
  refine .inl ⟨f, ?_⟩
  cases f <;> first | exact h | cases hs

theorem value_edges (a : Address) (f : Field) (t : Text) (hf : f ≠ .streetAddress)
    (h : a.value f = some t) : Begins a t ∧ Ends a t := by
  cases f with
  | streetAddress => exact absurd rfl hf
  | addressLine1 => exact edges_of_holds a t (.inr (List.mem_of_head? h))
  | addressLine2 =>
    have h2 : a.line2 = some t := h
    unfold Address.line2 at h2
    split at h2
    · rename_i first next rest hl
      injection h2 with ht
      have hmem : ∀ line ∈ next :: rest, Holds a line := fun line hm =>
        .inr (hl ▸ List.mem_cons_of_mem first hm)
      obtain ⟨last, hlast, hs⟩ := Text.exists_suffix_join ", ".toList next rest
      rw [ht] at hs
      rw [Text.join_cons] at ht
      exact ⟨⟨next, hmem next List.mem_cons_self, ht ▸ List.prefix_append _ _⟩,
        ⟨last, hmem last hlast, hs⟩⟩
    · cases h2
  | _ => exact edges_of_holds a t (holds_of_value a _ t rfl h)

/-! ## Pruning keeps literals between fields -/

theorem populated_of_hasValue (a : Address) (code : Char)
    (h : hasValue a (.field code) = .ok true) : Populated a code := by
  obtain ⟨f, hf, hv⟩ := (bind_eq_ok _ _ _).mp h
  refine ⟨f, hf, ?_⟩
  rw [← a.hasValue_eq_isSome]
  exact Except.ok.inj hv

theorem populated_of_pruneBehind (a : Address) (previous kept : Option Token)
    (template out : Template) (h : pruneBehind a previous kept template = .ok out) :
    ∀ code, .field code ∈ out → Populated a code := by
  induction template generalizing previous kept out with
  | nil =>
    cases h
    exact fun code hm => absurd hm List.not_mem_nil
  | cons t rest ih =>
    rw [pruneBehind_cons] at h
    obtain ⟨b, hb, h⟩ := (bind_eq_ok _ _ _).mp h
    cases b with
    | false => exact ih _ _ _ h
    | true =>
      obtain ⟨more, hmore, h⟩ := (bind_eq_ok _ _ _).mp h
      cases h
      intro code hm
      rcases List.mem_cons.mp hm with rfl | hm
      · exact populated_of_hasValue a code hb
      · exact ih _ _ _ hmore code hm

theorem adjoins_field (t : Token) (code : Char) : t.Adjoins (.field code) :=
  ⟨fun _ => rfl, fun h => Bool.noConfusion h⟩

theorem adjoins_newline (t : Token) (h : t.isLiteral = false) : t.Adjoins .newline :=
  ⟨fun ht => absurd ht (by simp [h]), fun h => Bool.noConfusion h⟩

theorem not_literal_of_adjoins_newline (t : Token) (h : t.Adjoins .newline) :
    t.isLiteral = false := by
  by_contra hl
  exact Bool.noConfusion (h.1 (by simpa using hl))

theorem exists_field_of_adjoins (text : Text) (rest : Template)
    (h : (.literal text :: (rest ++ [.newline])).IsChain Token.Adjoins) :
    ∃ code more, rest = .field code :: more := by
  cases rest with
  | nil => exact absurd ((List.isChain_cons_cons.mp h).1.1 rfl) (by decide)
  | cons t more =>
    have ht : t.isField = true := (List.isChain_cons_cons.mp h).1.1 rfl
    cases t with
    | newline => cases ht
    | literal => cases ht
    | field code => exact ⟨code, more, rfl⟩

/-- The invariant of the scan: a literal that was kept last has a populated field behind it. -/
def Followed (a : Address) (kept : Token) (template : Template) : Prop :=
  kept.isLiteral = true → ∃ code rest, template = .field code :: rest ∧
    hasValue a (.field code) = .ok true

theorem followed_of_not_literal (a : Address) (kept : Token) (template : Template)
    (h : kept.isLiteral = false) : Followed a kept template :=
  fun hn => absurd hn (by simp [h])

theorem not_literal_of_followed (a : Address) (kept : Token) (template : Template)
    (hk : Followed a kept template) (hn : ∀ t ∈ template.head?, t.isField = false) :
    kept.isLiteral = false := by
  by_contra hl
  obtain ⟨code, rest, rfl, -⟩ := hk (by simpa using hl)
  cases hn _ rfl

theorem followed_of_passed (a : Address) (kept : Token) (code : Char) (rest : Template)
    (hk : Followed a kept (.field code :: rest)) (h : hasValue a (.field code) = .ok false) :
    Followed a kept rest := by
  intro hl
  obtain ⟨_, _, he, hv⟩ := hk hl
  cases he
  cases h.symm.trans hv

theorem followed_of_literal (a : Address) (previous kept : Token) (text : Text) (rest : Template)
    (b : Bool) (hc : (previous :: .literal text :: (rest ++ [.newline])).IsChain Token.Adjoins)
    (hk : kept.isLiteral = false)
    (hb : stays a (some previous) (some kept) rest (.literal text) = .ok b) :
    if b then kept.Adjoins (.literal text) ∧ Followed a (.literal text) rest
    else Followed a kept rest := by
  obtain ⟨hadjoins, hrest⟩ := List.isChain_cons_cons.mp hc
  obtain ⟨code, after, rfl⟩ := exists_field_of_adjoins text rest hrest
  obtain ⟨followed, hf, hb⟩ := (bind_eq_ok _ _ _).mp hb
  have hprevious : previous.isField = true := hadjoins.2 rfl
  have hstays : b = (followed && kept.isField) := by
    simpa [hprevious] using (Except.ok.inj hb).symm
  cases b with
  | false => exact followed_of_not_literal a kept _ hk
  | true =>
    obtain ⟨rfl, hkept⟩ : followed = true ∧ kept.isField = true := by simpa using hstays.symm
    exact ⟨⟨fun hn => absurd hn (by simp [hk]), fun _ => hkept⟩, fun _ => ⟨code, after, rfl, hf⟩⟩

/-- A token that stays adjoins the one kept last and has what it needs behind it; one that is
passed over takes nothing from the one kept last. -/
theorem followed_step (a : Address) (previous kept t : Token) (rest : Template) (b : Bool)
    (hc : (previous :: t :: (rest ++ [.newline])).IsChain Token.Adjoins)
    (hk : Followed a kept (t :: rest))
    (hb : stays a (some previous) (some kept) rest t = .ok b) :
    if b then kept.Adjoins t ∧ Followed a t rest else Followed a kept rest := by
  cases t with
  | newline =>
    cases hb
    have hl := not_literal_of_followed a kept _ hk (by simp [Token.isField])
    exact ⟨adjoins_newline kept hl, followed_of_not_literal a .newline rest rfl⟩
  | field code =>
    cases b with
    | true => exact ⟨adjoins_field kept code, followed_of_not_literal a (.field code) rest rfl⟩
    | false => exact followed_of_passed a kept code rest hk hb
  | literal text =>
    have hl := not_literal_of_followed a kept _ hk (by simp [Token.isField])
    exact followed_of_literal a previous kept text rest b hc hl hb

theorem pruneBehind_separating (a : Address) (previous kept : Token) (template out : Template)
    (hc : (previous :: (template ++ [.newline])).IsChain Token.Adjoins)
    (hk : Followed a kept template)
    (h : pruneBehind a (some previous) (some kept) template = .ok out) :
    (kept :: (out ++ [.newline])).IsChain Token.Adjoins := by
  induction template generalizing previous kept out with
  | nil =>
    cases h
    have hl := not_literal_of_followed a kept [] hk (by simp)
    exact List.isChain_cons_cons.mpr ⟨adjoins_newline kept hl, List.isChain_singleton _⟩
  | cons t rest ih =>
    rw [pruneBehind_cons] at h
    obtain ⟨b, hb, h⟩ := (bind_eq_ok _ _ _).mp h
    have hrest := (List.isChain_cons_cons.mp hc).2
    have hstep := followed_step a previous kept t rest b hc hk hb
    cases b with
    | false => exact ih t kept out hrest hstep h
    | true =>
      obtain ⟨more, hmore, h⟩ := (bind_eq_ok _ _ _).mp h
      cases h
      exact List.isChain_cons_cons.mpr ⟨hstep.1, ih t t more hrest hstep.2 hmore⟩

theorem prune_separating (a : Address) (template kept : Template) (hs : template.Separating)
    (h : prune a template = .ok kept) : kept.Separating := by
  have hstart : pruneBehind a (some .newline) (some .newline) template = .ok kept := by
    rw [← h]
    exact pruneBehind_congr_state a _ _ _ _ template rfl rfl
  exact pruneBehind_separating a .newline .newline template kept hs
    (followed_of_not_literal a .newline template rfl) hstart

/-! ## Rendering -/

theorem mem_finish (line l : Text) (h : l ∈ finish line) : l = line := by
  cases line with
  | nil => cases h
  | cons c rest => exact List.mem_singleton.mp h

theorem mem_finish_self (line : Text) (h : line ≠ []) : line ∈ finish line := by
  rw [finish_of_ne_nil line h]
  exact List.mem_singleton_self line

theorem writeField_value (a : Address) (line : Text) (f : Field) (hf : f ≠ .streetAddress)
    (hc : f ≠ .country) (t : Text) (h : a.value f = some t) :
    writeField a line f = ([], line ++ t) := by
  cases f <;> first | exact absurd rfl hf | exact absurd rfl hc | simp only [writeField, h]; rfl

/-- A field with a value either goes on with the line or, being a street of several lines, ends
it and leaves none open. -/
theorem writeField_cases (a : Address) (line : Text) (f : Field) (hc : f ≠ .country)
    (h : (a.value f).isSome) :
    (∃ t, writeField a line f = ([], line ++ t) ∧ Begins a t ∧ Ends a t) ∨
      f = .streetAddress ∧ 1 < a.lines.length ∧ ∃ street more,
        writeField a line f = (finish (line ++ street) ++ more, []) ∧
        ∀ t ∈ street :: more, Holds a t := by
  by_cases hf : f = .streetAddress
  · subst hf
    rw [writeField]
    cases hl : a.lines with
    | nil =>
      have hnone : a.value .streetAddress = none := by simp [Address.value, Address.street, hl]
      rw [hnone] at h
      cases h
    | cons street more =>
      have hmem : ∀ t ∈ street :: more, Holds a t := fun t ht => .inr (hl ▸ ht)
      cases more with
      | nil =>
        have hstreet := edges_of_holds a street (hmem street List.mem_cons_self)
        exact .inl ⟨street, rfl, hstreet⟩
      | cons next more => exact .inr ⟨rfl, by simp, street, next :: more, rfl, hmem⟩
  · obtain ⟨t, ht⟩ := Option.isSome_iff_exists.mp h
    exact .inl ⟨t, writeField_value a line f hf hc t ht, value_edges a f t hf ht⟩

def Printable (a : Address) (template : Template) : Prop :=
  ∀ code, .field code ∈ template →
    ∃ f, Field.ofCode code = .ok f ∧ f ≠ .country ∧ (a.value f).isSome

theorem printable_tail (a : Address) (t : Token) (rest : Template)
    (h : Printable a (t :: rest)) : Printable a rest :=
  fun code hm => h code (List.mem_cons_of_mem t hm)

theorem renderFrom_field (a : Address) (line : Text) (code : Char) (f : Field) (rest : Template)
    (out : List Text) (hf : Field.ofCode code = .ok f)
    (h : renderFrom a line (.field code :: rest) = .ok out) :
    ∃ more, renderFrom a (writeField a line f).2 rest = .ok more ∧
      out = (writeField a line f).1 ++ more := by
  rw [renderFrom_cons, writeToken, hf] at h
  obtain ⟨written, hw, h⟩ := (bind_eq_ok _ _ _).mp h
  cases hw
  obtain ⟨more, hmore, h⟩ := (bind_eq_ok _ _ _).mp h
  cases h
  exact ⟨more, hmore, rfl⟩

theorem renderFrom_newline (a : Address) (line : Text) (rest : Template) (out : List Text)
    (h : renderFrom a line (.newline :: rest) = .ok out) :
    ∃ more, renderFrom a [] rest = .ok more ∧ out = finish line ++ more := by
  rw [renderFrom] at h
  obtain ⟨more, hmore, h⟩ := (bind_eq_ok _ _ _).mp h
  cases h
  exact ⟨more, hmore, rfl⟩

theorem forall_mem_finish (P : Text → Prop) (line : Text) (h : line = [] ∨ P line) :
    ∀ l ∈ finish line, P l := by
  intro l hm
  rcases h with rfl | hline
  · cases hm
  · rwa [mem_finish line l hm]

theorem writeField_ends (a : Address) (line : Text) (f : Field) (hc : f ≠ .country)
    (h : (a.value f).isSome) :
    (∀ l ∈ (writeField a line f).1, Ends a l) ∧
      ((writeField a line f).2 = [] ∨ Ends a (writeField a line f).2) := by
  rcases writeField_cases a line f hc h with
    ⟨t, hw, -, he⟩ | ⟨-, -, street, streets, hw, hheld⟩
  · rw [hw]
    exact ⟨fun l hm => absurd hm List.not_mem_nil, .inr (ends_append a line t he)⟩
  · obtain ⟨hstreet, hstreets⟩ := List.forall_mem_cons.mp hheld
    rw [hw, List.forall_mem_append]
    refine ⟨⟨forall_mem_finish (Ends a) (line ++ street) (.inr ?_), fun l hm => ?_⟩, .inl rfl⟩
    · exact ends_append a line street (edges_of_holds a street hstreet).2
    · exact (edges_of_holds a l (hstreets l hm)).2

/-- Only behind a literal may a line be open that does not end with text of the address. -/
theorem renderFrom_ends (a : Address) (previous : Token) (line : Text) (kept : Template)
    (out : List Text) (hc : (previous :: (kept ++ [.newline])).IsChain Token.Adjoins)
    (hp : Printable a kept) (hl : previous.isLiteral = false → line = [] ∨ Ends a line)
    (h : renderFrom a line kept = .ok out) : ∀ l ∈ out, Ends a l := by
  induction kept generalizing previous line out with
  | nil =>
    cases h
    have hprevious := not_literal_of_adjoins_newline previous (List.isChain_cons_cons.mp hc).1
    exact forall_mem_finish (Ends a) line (hl hprevious)
  | cons t rest ih =>
    obtain ⟨hadjoins, hrest⟩ := List.isChain_cons_cons.mp hc
    have hprest := printable_tail a t rest hp
    cases t with
    | newline =>
      obtain ⟨more, hmore, rfl⟩ := renderFrom_newline a line rest out h
      have hprevious := not_literal_of_adjoins_newline previous hadjoins
      rw [List.forall_mem_append]
      constructor
      · exact forall_mem_finish (Ends a) line (hl hprevious)
      · exact ih .newline [] more hrest hprest (fun _ => .inl rfl) hmore
    | literal text =>
      exact ih (.literal text) (line ++ text) out hrest hprest (fun hn => Bool.noConfusion hn) h
    | field code =>
      obtain ⟨f, hf, hcountry, hv⟩ := hp code List.mem_cons_self
      obtain ⟨more, hmore, rfl⟩ := renderFrom_field a line code f rest out hf h
      obtain ⟨hended, hopen⟩ := writeField_ends a line f hcountry hv
      rw [List.forall_mem_append]
      exact ⟨hended, ih (.field code) _ more hrest hprest (fun _ => hopen) hmore⟩

/-- A literal was kept right behind the street address, which has several lines. -/
def Strands (a : Address) (kept : Template) : Prop :=
  1 < a.lines.length ∧
    ∃ text, [.field Field.streetAddress.code, .literal text] <:+: kept

theorem strands_tail (a : Address) (t : Token) (rest : Template) (h : Strands a rest) :
    Strands a (t :: rest) := by
  obtain ⟨hl, text, hin⟩ := h
  exact ⟨hl, text, hin.trans (List.suffix_cons t rest).isInfix⟩

theorem head?_of_adjoins (t : Token) (rest : Template) (ht : t.isField = false)
    (h : (t :: (rest ++ [.newline])).IsChain Token.Adjoins) :
    ∀ next ∈ rest.head?, next.isLiteral = false := by
  intro next hn
  obtain ⟨more, rfl⟩ := List.head?_eq_some_iff.mp hn
  have hadjoins : t.Adjoins next := (List.isChain_cons_cons.mp h).1
  by_contra hl
  exact absurd (hadjoins.2 (by simpa using hl)) (by simp [ht])

theorem head?_of_not_strands (a : Address) (code : Char) (rest : Template)
    (hf : Field.ofCode code = .ok .streetAddress) (hlines : 1 < a.lines.length)
    (hs : ¬Strands a (.field code :: rest)) : ∀ t ∈ rest.head?, t.isLiteral = false := by
  intro t ht
  obtain ⟨after, rfl⟩ := List.head?_eq_some_iff.mp ht
  by_contra hliteral
  obtain ⟨text, rfl⟩ := (Token.isLiteral_iff t).mp (by simpa using hliteral)
  apply hs
  refine ⟨hlines, text, ?_⟩
  rw [Field.code_of_ofCode code _ hf]
  exact ⟨[], after, rfl⟩

/-- The open line begins with text of the address, or is empty with no literal to come. -/
def Opens (a : Address) (line : Text) (kept : Template) : Prop :=
  Begins a line ∨ line = [] ∧ ∀ t ∈ kept.head?, t.isLiteral = false

section
variable {a : Address} {line : Text} {kept : Template} (h : Opens a line kept)
include h

theorem Opens.finish : ∀ l ∈ finish line, Begins a l :=
  forall_mem_finish (Begins a) line (h.symm.imp_left And.left)

theorem Opens.append (t : Text) (ht : Begins a t) : Begins a (line ++ t) := by
  rcases h with hline | ⟨rfl, -⟩
  · exact begins_append a line t hline
  · exact ht

end

theorem writeField_begins (a : Address) (line : Text) (code : Char) (f : Field) (rest : Template)
    (hl : Opens a line (.field code :: rest)) (hf : Field.ofCode code = .ok f)
    (hc : f ≠ .country) (hv : (a.value f).isSome) (hs : ¬Strands a (.field code :: rest)) :
    (∀ l ∈ (writeField a line f).1, Begins a l) ∧ Opens a (writeField a line f).2 rest := by
  rcases writeField_cases a line f hc hv with
    ⟨t, hw, hb, -⟩ | ⟨rfl, hlines, street, streets, hw, hheld⟩
  · rw [hw]
    exact ⟨fun l hm => absurd hm List.not_mem_nil, .inl (hl.append t hb)⟩
  · obtain ⟨hstreet, hstreets⟩ := List.forall_mem_cons.mp hheld
    rw [hw, List.forall_mem_append]
    refine ⟨⟨forall_mem_finish (Begins a) (line ++ street) (.inr ?_), fun l hm => ?_⟩,
      .inr ⟨rfl, head?_of_not_strands a code rest hf hlines hs⟩⟩
    · exact hl.append street (edges_of_holds a street hstreet).1
    · exact (edges_of_holds a l (hstreets l hm)).1

theorem renderFrom_begins (a : Address) (previous : Token) (line : Text) (kept : Template)
    (out : List Text) (hc : (previous :: (kept ++ [.newline])).IsChain Token.Adjoins)
    (hp : Printable a kept) (hs : ¬Strands a kept) (hl : Opens a line kept)
    (h : renderFrom a line kept = .ok out) : ∀ l ∈ out, Begins a l := by
  induction kept generalizing previous line out with
  | nil =>
    cases h
    exact hl.finish
  | cons t rest ih =>
    obtain ⟨-, hrest⟩ := List.isChain_cons_cons.mp hc
    have hprest := printable_tail a t rest hp
    have hsrest : ¬Strands a rest := fun hn => hs (strands_tail a t rest hn)
    cases t with
    | newline =>
      obtain ⟨more, hmore, rfl⟩ := renderFrom_newline a line rest out h
      have hnext := head?_of_adjoins .newline rest rfl hrest
      rw [List.forall_mem_append]
      exact ⟨hl.finish, ih .newline [] more hrest hprest hsrest (.inr ⟨rfl, hnext⟩) hmore⟩
    | literal text =>
      rcases hl with hline | ⟨-, hnext⟩
      · have hopen := begins_append a line text hline
        exact ih (.literal text) (line ++ text) out hrest hprest hsrest (.inl hopen) h
      · exact Bool.noConfusion (hnext _ rfl)
    | field code =>
      obtain ⟨f, hf, hcountry, hv⟩ := hp code List.mem_cons_self
      obtain ⟨more, hmore, rfl⟩ := renderFrom_field a line code f rest out hf h
      obtain ⟨hended, hopen⟩ := writeField_begins a line code f rest hl hf hcountry hv hs
      rw [List.forall_mem_append]
      exact ⟨hended, ih (.field code) _ more hrest hprest hsrest hopen hmore⟩

theorem renderFrom_extends (a : Address) (line : Text) (kept : Template) (out : List Text)
    (hp : Printable a kept) (hne : line ≠ []) (h : renderFrom a line kept = .ok out) :
    ∃ l ∈ out, line <+: l := by
  induction kept generalizing line out with
  | nil =>
    cases h
    exact ⟨line, mem_finish_self line hne, List.prefix_refl line⟩
  | cons t rest ih =>
    have hprest := printable_tail a t rest hp
    have hopen : ∀ s out, renderFrom a (line ++ s) rest = .ok out → ∃ l ∈ out, line <+: l := by
      intro s out hs
      obtain ⟨l, hl, hpre⟩ := ih (line ++ s) out hprest (by simp [hne]) hs
      exact ⟨l, hl, (List.prefix_append line s).trans hpre⟩
    cases t with
    | newline =>
      obtain ⟨more, -, rfl⟩ := renderFrom_newline a line rest out h
      exact ⟨line, List.mem_append_left _ (mem_finish_self line hne), List.prefix_refl line⟩
    | literal text => exact hopen text out h
    | field code =>
      obtain ⟨f, hf, hcountry, hv⟩ := hp code List.mem_cons_self
      obtain ⟨more, hmore, rfl⟩ := renderFrom_field a line code f rest out hf h
      rcases writeField_cases a line f hcountry hv with
        ⟨t, hw, -, -⟩ | ⟨-, -, street, streets, hw, -⟩
      · rw [hw] at hmore ⊢
        exact hopen t more hmore
      · rw [hw]
        have hm : line ++ street ∈ finish (line ++ street) := mem_finish_self _ (by simp [hne])
        exact ⟨line ++ street, by simp [hm], List.prefix_append line street⟩

theorem writeField_street (a : Address) (line : Text) (h : 1 < a.lines.length) :
    (writeField a line .streetAddress).2 = [] := by
  rw [writeField]
  cases hl : a.lines with
  | nil => simp [hl] at h
  | cons street more =>
    cases more with
    | nil => simp [hl] at h
    | cons next more => rfl

theorem renderFrom_stranded (a : Address) (line text : Text) (kept : Template) (out : List Text)
    (hp : Printable a kept) (hlines : 1 < a.lines.length) (ht : text ≠ [])
    (hin : [.field Field.streetAddress.code, .literal text] <:+: kept)
    (h : renderFrom a line kept = .ok out) : ∃ l ∈ out, text <+: l := by
  induction kept generalizing line out with
  | nil => exact absurd (List.infix_nil.mp hin) (by simp)
  | cons t rest ih =>
    have hprest := printable_tail a t rest hp
    rcases List.infix_cons_iff.mp hin with hhere | hlater
    · obtain ⟨rfl, hrest⟩ := List.cons_prefix_cons.mp hhere
      obtain ⟨after, rfl⟩ := hrest
      obtain ⟨more, hmore, rfl⟩ := renderFrom_field a line _ .streetAddress _ out
        (Field.ofCode_code .streetAddress) h
      rw [writeField_street a line hlines] at hmore
      have hafter : renderFrom a text after = .ok more := hmore
      have hpafter := printable_tail a _ after hprest
      obtain ⟨l, hl, hpre⟩ := renderFrom_extends a text after more hpafter ht hafter
      exact ⟨l, List.mem_append_right _ hl, hpre⟩
    · rw [renderFrom_cons] at h
      obtain ⟨written, -, h⟩ := (bind_eq_ok _ _ _).mp h
      obtain ⟨more, hmore, h⟩ := (bind_eq_ok _ _ _).mp h
      cases h
      obtain ⟨l, hl, hpre⟩ := ih written.2 more hprest hlater hmore
      exact ⟨l, List.mem_append_right _ hl, hpre⟩

/-- The line begins and ends with text of the address, and with no character of a literal. -/
structure Framed (a : Address) (template : Template) (line : Text) : Prop where
  begins : Begins a line
  ends : Ends a line
  head : ∀ c ∈ line.head?, ∀ text, .literal text ∈ template → c ∉ text
  last : ∀ c ∈ line.getLast?, ∀ text, .literal text ∈ template → c ∉ text

def Avoids (a : Address) (template : Template) : Prop :=
  ∀ t, Holds a t → ∀ c ∈ t, ∀ text, .literal text ∈ template → c ∉ text

theorem avoids_of_lists (a : Address) (template : Template) (texts separators : List Text)
    (hv : ∀ f, ∀ t ∈ a.values.get f, t ∈ texts) (hl : ∀ t ∈ a.lines, t ∈ texts)
    (hs : ∀ text, .literal text ∈ template → text ∈ separators)
    (h : ∀ t ∈ texts, ∀ c ∈ t, ∀ text ∈ separators, c ∉ text) : Avoids a template := by
  intro t ht c hc text hm
  have htext : t ∈ texts := by
    rcases ht with ⟨f, hf⟩ | hline
    · exact hv f t hf
    · exact hl t hline
  exact h t htext c hc text (hs text hm)

section
variable {a : Address} {template : Template} {line : Text}

theorem head_of_begins (ha : a.Built) (hf : Avoids a template) (h : Begins a line) :
    ∀ c ∈ line.head?, ∀ text, .literal text ∈ template → c ∉ text := by
  intro c hc
  obtain ⟨t, ht, after, rfl⟩ := h
  rw [List.head?_append_of_ne_nil t (holds_ne_nil a ha t ht)] at hc
  exact hf t ht c (List.mem_of_head? hc)

theorem last_of_ends (ha : a.Built) (hf : Avoids a template) (h : Ends a line) :
    ∀ c ∈ line.getLast?, ∀ text, .literal text ∈ template → c ∉ text := by
  intro c hc
  obtain ⟨t, ht, before, rfl⟩ := h
  rw [List.getLast?_append_of_ne_nil before (holds_ne_nil a ha t ht)] at hc
  exact hf t ht c (List.mem_of_getLast? hc)

end

theorem printable_of_prune (a : Address) (template kept : Template)
    (hc : .field Field.country.code ∉ template) (h : prune a template = .ok kept) :
    Printable a kept := by
  intro code hm
  obtain ⟨f, hf, hv⟩ := populated_of_pruneBehind a none none template kept h code hm
  refine ⟨f, hf, ?_, hv⟩
  rintro rfl
  apply hc
  rw [Field.code_of_ofCode code _ hf]
  exact (pruneBehind_sublist a none none template kept h).subset hm

/-- Under a template without the country whose literals part fields, every printed line of an
address without their characters ends with text of the address. Every line begins with it too,
exactly unless a literal was kept right behind a street address of several lines. -/
theorem lines_framed_iff (a : Address) (ha : a.Built) (s : Text) (template : Template)
    (h : Template.parseStrict s = .ok template) (hc : .field Field.country.code ∉ template)
    (hs : template.Separating) (hf : Avoids a template) :
    ∃ kept out, prune a template = .ok kept ∧ render a kept = .ok out ∧
      (∀ line ∈ out, Ends a line ∧
        ∀ c ∈ line.getLast?, ∀ text, .literal text ∈ template → c ∉ text) ∧
      ((∀ line ∈ out, Framed a template line) ↔ ¬Strands a kept) := by
  obtain ⟨out, hlines⟩ := exists_lines a s template h
  obtain ⟨kept, hkept, hout⟩ := (lines_eq_ok a template out).mp hlines
  have hrender : renderFrom a [] kept = .ok out := hout
  have hp := printable_of_prune a template kept hc hkept
  have hchain : (.newline :: (kept ++ [.newline])).IsChain Token.Adjoins :=
    prune_separating a template kept hs hkept
  have hends := renderFrom_ends a .newline [] kept out hchain hp (fun _ => .inl rfl) hrender
  have hlast : ∀ line ∈ out, ∀ c ∈ line.getLast?, ∀ text, .literal text ∈ template → c ∉ text :=
    fun line hl => last_of_ends ha hf (hends line hl)
  refine ⟨kept, out, hkept, hout, fun line hl => ⟨hends line hl, hlast line hl⟩, ?_, ?_⟩
  · rintro hframed ⟨hl, text, hin⟩
    have hmem : .literal text ∈ template := by
      apply (pruneBehind_sublist a none none template kept hkept).subset
      exact hin.subset (by simp)
    have hcanonical := Template.canonical_of_tokens? s template
      ((Template.parseStrict_eq_ok s template).mp h).1
    have hne := (hcanonical.literal text hmem).1
    obtain ⟨line, hline, after, rfl⟩ := renderFrom_stranded a [] text kept out hp hl hne hin hrender
    obtain ⟨c, rest, rfl⟩ := List.exists_cons_of_ne_nil hne
    exact (hframed _ hline).head c rfl _ hmem List.mem_cons_self
  · intro hstrands line hl
    have hnext := head?_of_adjoins .newline kept rfl hchain
    have hbegins := renderFrom_begins a .newline [] kept out hchain hp hstrands
      (.inr ⟨rfl, hnext⟩) hrender line hl
    exact ⟨hbegins, hends line hl, head_of_begins ha hf hbegins, hlast line hl⟩

theorem lines_framed_iff_missing :
    Template.parseStrict "%A%n%C, %S %Z".toList = .ok [.field 'A', .newline, .field 'C',
        .literal ", ".toList, .field 'S', .literal [' '], .field 'Z'] ∧
      ∃ a : Address, a.Built ∧ a.lines = ["1-A".toList, "Flat".toList] ∧
        ∃ kept out, prune a [.field 'A', .newline, .field 'C', .literal ", ".toList, .field 'S',
            .literal [' '], .field 'Z'] = .ok kept ∧ render a kept = .ok out ∧
          out = ["1-A".toList, "Flat".toList, "Rome 00100".toList] ∧
          ∀ line ∈ out, Framed a [.field 'A', .newline, .field 'C', .literal ", ".toList,
            .field 'S', .literal [' '], .field 'Z'] line := by
  have ha := Address.Built.drafted [.street "1-A\nFlat".toList, .single .locality "Rome".toList,
    .single .postalCode "00100".toList] (by simp)
  have hf : Avoids (Draft.run [.street "1-A\nFlat".toList, .single .locality "Rome".toList,
      .single .postalCode "00100".toList] {}).build [.field 'A', .newline, .field 'C',
        .literal ", ".toList, .field 'S', .literal [' '], .field 'Z'] := by
    apply avoids_of_lists _ _ ["1-A".toList, "Flat".toList, "Rome".toList, "00100".toList]
      [", ".toList, [' ']]
    · intro f
      cases f <;> decide
    · decide
    · simp
    · simp
  obtain ⟨kept, out, hk, ho, -, hiff⟩ := lines_framed_iff _ ha "%A%n%C, %S %Z".toList _ rfl
    (by decide) (by decide) hf
  obtain rfl : [.field 'A', .newline, .field 'C', .literal [' '], .field 'Z'] = kept :=
    Except.ok.inj hk
  refine ⟨rfl, _, ha, rfl, _, out, hk, ho, (Except.ok.inj ho).symm, hiff.mpr ?_⟩
  rintro ⟨-, text, hin⟩
  have hm : text = [' '] := by simpa using hin.subset (List.mem_cons_of_mem _ List.mem_cons_self)
  subst hm
  exact absurd hin (by decide)

/-- A format in use puts the state behind the street: with two street lines the comma between
them opens a line. -/
theorem exists_line_not_framed :
    ∃ template, Template.parseStrict "%N%n%O%n%A, %S%n%Z".toList = .ok template ∧
      .field Field.country.code ∉ template ∧ template.Separating ∧
      ∃ a : Address, a.Built ∧ a.lines = ["1-A".toList, "Flat".toList] ∧ Avoids a template ∧
        ∃ kept, prune a template = .ok kept ∧
          render a kept = .ok ["1-A".toList, "Flat".toList, ", Tokyo".toList] ∧
          ¬Framed a template ", Tokyo".toList := by
  have ha := Address.Built.drafted [.street "1-A\nFlat".toList,
    .single .adminArea "Tokyo".toList] (by simp)
  refine ⟨[.field 'N', .newline, .field 'O', .newline, .field 'A', .literal ", ".toList,
    .field 'S', .newline, .field 'Z'], rfl, by decide, by decide, _, ha, rfl, ?_, _, rfl, rfl, ?_⟩
  · apply avoids_of_lists _ _ ["1-A".toList, "Flat".toList, "Tokyo".toList] [", ".toList]
    · intro f
      cases f <;> decide
    · decide
    · simp
    · simp
  · exact fun h => h.head ',' rfl ", ".toList (by decide) (by decide)

end Envelope
end Postal
