import Postal.Proofs.Template.Tokens

/-!
# Canonical templates

Every text that can be read has one list of tokens, and the lists that come
from texts are those in which each literal is a maximal run of plain
characters and no code stands for the line break. On these lists printing
and reading undo each other, and reading never gives back any other list.
-/

set_option autoImplicit false

namespace Postal.Template

structure Canonical (template : Template) : Prop where
  literal : ∀ text, .literal text ∈ template → text ≠ [] ∧ '%' ∉ text
  parted : Parted template
  code : .field 'n' ∉ template

theorem canonical_nil : Canonical [] where
  literal _ h := absurd h List.not_mem_nil
  parted := List.isChain_nil
  code := List.not_mem_nil

theorem canonical_tail (t : Token) (rest : Template) (h : Canonical (t :: rest)) :
    Canonical rest where
  literal text hm := h.literal text (List.mem_cons_of_mem t hm)
  parted := List.IsChain.tail h.parted
  code hm := h.code (List.mem_cons_of_mem t hm)

theorem canonical_escape (t : Token) (rest : Template) (ht : t.isLiteral = false)
    (hn : t ≠ .field 'n') (h : Canonical rest) : Canonical (t :: rest) where
  literal text hm := by
    rcases List.mem_cons.mp hm with rfl | hm
    · cases ht
    · exact h.literal text hm
  parted := parted_cons t rest ht h.parted
  code hm := by
    rcases List.mem_cons.mp hm with he | hm
    · exact hn he.symm
    · exact h.code hm

theorem onLiteral_eq (c : Char) (template : Template) :
    ∃ more rest, onLiteral c template = .literal (c :: more) :: rest ∧
      (template = .literal more :: rest ∨ more = [] ∧ template = rest) := by
  unfold onLiteral
  split
  · rename_i more rest
    exact ⟨more, rest, rfl, .inl rfl⟩
  · exact ⟨[], template, rfl, .inr ⟨rfl, rfl⟩⟩

theorem canonical_onLiteral (c : Char) (template : Template) (hc : c ≠ '%')
    (h : Canonical template) : Canonical (onLiteral c template) := by
  have hparted := parted_onLiteral c template h.parted
  obtain ⟨more, rest, he, hfrom⟩ := onLiteral_eq c template
  rw [he] at hparted ⊢
  have hrest : ∀ t ∈ rest, t ∈ template := by
    intro t ht
    rcases hfrom with rfl | ⟨-, rfl⟩
    · exact List.mem_cons_of_mem _ ht
    · exact ht
  have hmore : '%' ∉ more := by
    rcases hfrom with rfl | ⟨rfl, -⟩
    · exact (h.literal more List.mem_cons_self).2
    · exact List.not_mem_nil
  constructor
  · intro text hm
    rcases List.mem_cons.mp hm with ht | hm
    · cases ht
      constructor
      · exact List.cons_ne_nil c more
      · exact List.not_mem_cons_of_ne_of_not_mem hc.symm hmore
    · exact h.literal text (hrest _ hm)
  · exact hparted
  · intro hm
    rcases List.mem_cons.mp hm with ht | hm
    · cases ht
    · exact h.code (hrest _ hm)

theorem canonical_of_tokens? (s : Text) (template : Template) (h : tokens? s = some template) :
    Canonical template := by
  induction s using textInduction generalizing template with
  | nil =>
    cases h
    exact canonical_nil
  | mark => cases h
  | escape code rest ih =>
    rw [tokens?_escape] at h
    obtain ⟨ts, hts, rfl⟩ := Option.map_eq_some_iff.mp h
    refine canonical_escape _ ts (Token.isLiteral_ofEscape code) ?_ (ih ts hts)
    unfold Token.ofEscape
    split <;> simp_all
  | plain c rest hc ih =>
    rw [tokens?_plain c rest hc] at h
    obtain ⟨ts, hts, rfl⟩ := Option.map_eq_some_iff.mp h
    exact canonical_onLiteral c ts hc (ih ts hts)

theorem tokens?_code (code : Char) (rest : Text) (template : Template) (hc : code ≠ 'n')
    (h : tokens? rest = some template) :
    tokens? ('%' :: code :: rest) = some (.field code :: template) := by
  rw [tokens?_escape, h, Option.map_some, Token.ofEscape, if_neg hc]

theorem onLiteral_opens (c : Char) (template : Template)
    (h : ∀ t ∈ template.head?, t.isLiteral = false) :
    onLiteral c template = .literal [c] :: template := by
  unfold onLiteral
  split
  · exact absurd (h _ rfl) (by simp [Token.isLiteral])
  · rfl

/-- A run of plain characters is read as one literal if no literal follows it. -/
theorem tokens?_run (text rest : Text) (template : Template) (hne : text ≠ []) (he : '%' ∉ text)
    (ht : ∀ t ∈ template.head?, t.isLiteral = false) (h : tokens? rest = some template) :
    tokens? (text ++ rest) = some (.literal text :: template) := by
  induction text with
  | nil => exact absurd rfl hne
  | cons c more ih =>
    obtain ⟨hc, hmore⟩ := List.ne_and_not_mem_of_not_mem_cons he
    rw [List.cons_append, tokens?_plain c _ hc.symm]
    by_cases hm : more = []
    · rw [hm, List.nil_append, h, Option.map_some, onLiteral_opens c template ht]
    · rw [ih hm hmore]
      rfl

theorem tokens?_text_of_canonical (template : Template) (h : Canonical template) :
    tokens? template.text = some template := by
  induction template with
  | nil => rfl
  | cons t rest ih =>
    have hrest := ih (canonical_tail t rest h)
    rw [text_cons]
    cases t with
    | newline => exact (tokens?_escape 'n' _).trans (congrArg _ hrest)
    | field code =>
      have hc : code ≠ 'n' := by
        rintro rfl
        exact h.code List.mem_cons_self
      exact tokens?_code code _ rest hc hrest
    | literal text =>
      obtain ⟨hne, he⟩ := h.literal text List.mem_cons_self
      apply tokens?_run text _ rest hne he _ hrest
      intro t ht
      obtain ⟨after, rfl⟩ := List.head?_eq_some_iff.mp ht
      have hp := (List.isChain_cons_cons.mp h.parted).1
      simpa [Token.isLiteral] using hp

theorem mem_append_newline (token : Token) (s t : Template) (hn : token ≠ .newline) :
    token ∈ s ++ .newline :: t ↔ token ∈ s ∨ token ∈ t := by
  simp [hn]

theorem canonical_append_newline (s t : Template) (hs : Canonical s) (ht : Canonical t) :
    Canonical (s ++ .newline :: t) where
  literal text hm := by
    rcases (mem_append_newline _ s t Token.noConfusion).mp hm with hm | hm
    · exact hs.literal text hm
    · exact ht.literal text hm
  parted := by
    apply List.isChain_append.mpr
    refine ⟨hs.parted, parted_cons .newline t rfl ht.parted, ?_⟩
    intro last _ next hn
    cases hn
    exact fun hl => Bool.noConfusion hl.2
  code hm := by
    rcases (mem_append_newline _ s t Token.noConfusion).mp hm with hm | hm
    · exact hs.code hm
    · exact ht.code hm

theorem known_append_newline (s t : Template) (hs : Known s) (ht : Known t) :
    Known (s ++ .newline :: t) := by
  intro code hm
  rcases (mem_append_newline _ s t Token.noConfusion).mp hm with hm | hm
  · exact hs code hm
  · exact ht code hm

theorem tokens?_append_newline (s t : Text) (first second : Template)
    (hs : tokens? s = some first) (ht : tokens? t = some second) :
    tokens? (s ++ '%' :: 'n' :: t) = some (first ++ .newline :: second) := by
  have htext : (first ++ .newline :: second).text = s ++ '%' :: 'n' :: t := by
    rw [text_append, text_cons, text_of_tokens? s first hs, text_of_tokens? t second ht]
    rfl
  rw [← htext]
  apply tokens?_text_of_canonical
  exact canonical_append_newline first second (canonical_of_tokens? s first hs)
    (canonical_of_tokens? t second ht)

theorem parseStrict_append_newline (s t : Text) (first second : Template)
    (hs : parseStrict s = .ok first) (ht : parseStrict t = .ok second) :
    parseStrict (s ++ '%' :: 'n' :: t) = .ok (first ++ .newline :: second) := by
  obtain ⟨hs, hfirst⟩ := (parseStrict_eq_ok s first).mp hs
  obtain ⟨ht, hsecond⟩ := (parseStrict_eq_ok t second).mp ht
  apply (parseStrict_eq_ok _ _).mpr
  constructor
  · exact tokens?_append_newline s t first second hs ht
  · exact known_append_newline first second hfirst hsecond

/-- What a text reads as is the one canonical template that prints as that text. -/
theorem parse_eq_ok_iff_canonical (s : Text) (template : Template) :
    parse s = .ok template ↔ Canonical template ∧ template.text = s := by
  rw [parse_eq_ok]
  constructor
  · intro h
    exact ⟨canonical_of_tokens? s template h, text_of_tokens? s template h⟩
  · rintro ⟨h, rfl⟩
    exact tokens?_text_of_canonical template h

end Postal.Template
