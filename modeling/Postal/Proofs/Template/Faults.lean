import Mathlib.Algebra.Ring.Parity
import Mathlib.Data.List.DropRight
import Postal.Proofs.Template.Canonical

/-!
# Faults of templates

Whether a `%` opens an escape or closes one depends on all text before it. Yet
whether a text can be read at all depends on its end alone: a run of marks
begins with one that opens an escape, whatever stands before the run, so only
an odd run leaves the last mark without its code. A text that can be read is
refused by strict reading for the first escape that names no field, and the
column counts the characters of the tokens before it, which print as the text.
-/

set_option autoImplicit false

namespace Postal

theorem Field.ofCode_eq_error (c : Char) (e : FieldError) :
    ofCode c = .error e ↔ e = .unknownCode c ∧ ∀ f : Field, f.code ≠ c := by
  constructor
  · intro h
    have hnone : ∀ f : Field, f.code ≠ c := by
      rintro f rfl
      rw [ofCode_code] at h
      cases h
    unfold ofCode at h
    split at h
    · cases h
    · injection h with h
      exact ⟨h.symm, hnone⟩
  · rintro ⟨rfl, hnone⟩
    cases hc : ofCode c with
    | ok f => exact absurd (code_of_ofCode c f hc) (hnone f)
    | error e =>
      unfold ofCode at hc
      split at hc
      · cases hc
      · exact hc.symm

namespace Template

def marksAtEnd (s : Text) : ℕ := (s.rtakeWhile (· = '%')).length

theorem marksAtEnd_le (s : Text) : marksAtEnd s ≤ s.length :=
  (List.rtakeWhile_suffix _ s).length_le

theorem marksAtEnd_cons (c : Char) (rest : Text) :
    marksAtEnd (c :: rest) =
      if marksAtEnd rest = rest.length ∧ c = '%' then rest.length + 1 else marksAtEnd rest := by
  simp only [marksAtEnd, List.rtakeWhile, List.length_reverse, List.reverse_cons,
    List.takeWhile_append]
  by_cases hrest : (rest.reverse.takeWhile (· = '%')).length = rest.length
  · by_cases hc : c = '%' <;> simp [hrest, hc]
  · simp [hrest]

theorem marksAtEnd_plain (c : Char) (rest : Text) (hc : c ≠ '%') :
    marksAtEnd (c :: rest) = marksAtEnd rest := by
  rw [marksAtEnd_cons, if_neg fun h => hc h.2]

theorem odd_marksAtEnd_escape (code : Char) (rest : Text) :
    Odd (marksAtEnd ('%' :: code :: rest)) ↔ Odd (marksAtEnd rest) := by
  have hle := marksAtEnd_le rest
  rw [marksAtEnd_cons, marksAtEnd_cons, Nat.odd_iff, Nat.odd_iff]
  by_cases hrest : marksAtEnd rest = rest.length
  · by_cases hcode : code = '%'
    · simp only [hrest, hcode, and_self, if_true, List.length_cons]
      omega
    · simp [hrest, hcode]
  · have hne : marksAtEnd rest ≠ rest.length + 1 := by omega
    simp [hrest, hne]

theorem tokens?_eq_none_iff_odd (s : Text) : tokens? s = none ↔ Odd (marksAtEnd s) := by
  induction s using textInduction with
  | nil => simp [marksAtEnd]
  | mark => simp [marksAtEnd, List.rtakeWhile]
  | escape code rest ih =>
    rw [tokens?_escape, Option.map_eq_none_iff, ih, odd_marksAtEnd_escape]
  | plain c rest hc ih =>
    rw [tokens?_plain c rest hc, Option.map_eq_none_iff, ih, marksAtEnd_plain c rest hc]

theorem parse_eq_error (s : Text) (e : TemplateError) :
    parse s = .error e ↔ Odd (marksAtEnd s) ∧ e = .danglingEscape s.length := by
  rw [parse_eq_dangling, tokens?_eq_none_iff_odd]

/-- The code neither names a field nor ends the line. -/
def Unknown (code : Char) : Prop := code ≠ 'n' ∧ ∀ f : Field, f.code ≠ code

theorem checkCodes_eq_error (column : ℕ) (template : Template) (e : TemplateError)
    (h : checkCodes column template = .error e) :
    ∃ before code after, template = before ++ .field code :: after ∧ Known before ∧
      (∀ f : Field, f.code ≠ code) ∧
      e = .invalidField (column + before.text.length) (.unknownCode code) := by
  induction template generalizing column with
  | nil => cases h
  | cons t rest ih =>
    -- A token that raises no error stands before the fault, and its text counts.
    have hskip : checkCodes (column + t.text.length) rest = .error e →
        (∀ code, t = .field code → ∃ f, Field.ofCode code = .ok f) →
        ∃ before code after, t :: rest = before ++ .field code :: after ∧ Known before ∧
          (∀ f : Field, f.code ≠ code) ∧
          e = .invalidField (column + before.text.length) (.unknownCode code) := by
      intro hrest ht
      obtain ⟨before, code, after, rfl, hk, hnone, he⟩ := ih _ hrest
      refine ⟨t :: before, code, after, rfl, ?_, hnone, ?_⟩
      · intro other hm
        rcases List.mem_cons.mp hm with he | hm
        · exact ht other he.symm
        · exact hk other hm
      · rw [he, text_cons, List.length_append, Nat.add_assoc]
    cases t with
    | newline => exact hskip h fun code hc => Token.noConfusion hc
    | literal text => exact hskip h fun code hc => Token.noConfusion hc
    | field code =>
      rw [checkCodes] at h
      cases hc : Field.ofCode code with
      | ok f =>
        rw [hc] at h
        exact hskip h fun other ho => ⟨f, by cases ho; exact hc⟩
      | error cause =>
        rw [hc] at h
        cases h
        obtain ⟨rfl, hnone⟩ := (Field.ofCode_eq_error code cause).mp hc
        exact ⟨[], code, rest, rfl, fun other hm => absurd hm List.not_mem_nil, hnone, rfl⟩

theorem canonical_of_append (s t : Template) (h : Canonical (s ++ t)) : Canonical s where
  literal text hm := h.literal text (List.mem_append_left t hm)
  parted := (List.isChain_append.mp h.parted).1
  code hm := h.code (List.mem_append_left t hm)

/-- The leftmost escape of a template that names no field, by its column in the text. -/
structure FirstFault (s : Text) (template : Template) (column : ℕ) (code : Char) : Prop where
  unknown : Unknown code
  mark : 1 ≤ column ∧ s[column - 1]? = some '%'
  named : s[column]? = some code
  leftmost : ∃ before after, template = before ++ .field code :: after ∧ Known before ∧
    parseStrict (s.take (column - 1)) = .ok before

theorem FirstFault.mem {s : Text} {template : Template} {column : ℕ} {code : Char}
    (h : FirstFault s template column code) : .field code ∈ template := by
  obtain ⟨before, after, rfl, -⟩ := h.leftmost
  exact List.mem_append_right before List.mem_cons_self

theorem firstFault_of_split (s : Text) (before after : Template) (code : Char)
    (h : tokens? s = some (before ++ .field code :: after)) (hk : Known before)
    (hnone : ∀ f : Field, f.code ≠ code) :
    FirstFault s (before ++ .field code :: after) (1 + before.text.length) code := by
  have hcanonical := canonical_of_tokens? s _ h
  have hs : s = before.text ++ '%' :: code :: after.text := by
    rw [← text_of_tokens? s _ h, text_append, text_cons]
    rfl
  have hn : code ≠ 'n' := by
    rintro rfl
    exact hcanonical.code (List.mem_append_right before List.mem_cons_self)
  have hcolumn : 1 + before.text.length - 1 = before.text.length := by omega
  refine ⟨⟨hn, hnone⟩, ⟨by omega, ?_⟩, ?_, before, after, rfl, hk, ?_⟩
  · rw [hcolumn, hs, List.getElem?_append_right (Nat.le_refl _), Nat.sub_self]
    rfl
  · rw [hs, List.getElem?_append_right (by omega), Nat.add_sub_cancel_right]
    rfl
  · rw [hcolumn, hs, List.take_left]
    apply (parseStrict_eq_ok _ _).mpr
    exact ⟨tokens?_text_of_canonical before (canonical_of_append before _ hcanonical), hk⟩

theorem parseStrict_eq_error (s : Text) (template : Template) (e : TemplateError)
    (ht : parse s = .ok template) (h : parseStrict s = .error e) :
    ∃ column code, e = .invalidField column (.unknownCode code) ∧
      FirstFault s template column code := by
  have hcheck : checkCodes 1 template = .error e := by
    rw [parseStrict, ht] at h
    cases hc : checkCodes 1 template with
    | ok u =>
      simp only [ok_bind, hc] at h
      cases h
    | error cause =>
      simp only [ok_bind, error_bind, hc] at h
      injection h with h
      rw [h]
  obtain ⟨before, code, after, rfl, hk, hnone, he⟩ := checkCodes_eq_error 1 template e hcheck
  exact ⟨_, code, he, firstFault_of_split s before after code ((parse_eq_ok s _).mp ht) hk hnone⟩

theorem parseStrict_of_parse_error (s : Text) (e : TemplateError) (h : parse s = .error e) :
    parseStrict s = .error e := by
  rw [parseStrict, h]
  rfl

theorem exists_parseStrict_error (s : Text) (template : Template) (ht : parse s = .ok template) :
    (∃ e, parseStrict s = .error e) ↔ ∃ code, .field code ∈ template ∧ Unknown code := by
  constructor
  · rintro ⟨e, he⟩
    obtain ⟨column, code, -, hf⟩ := parseStrict_eq_error s template e ht he
    exact ⟨code, hf.mem, hf.unknown⟩
  · rintro ⟨code, hm, -, hnone⟩
    cases hs : parseStrict s with
    | error e => exact ⟨e, rfl⟩
    | ok tokens =>
      obtain ⟨hts, hk⟩ := (parseStrict_eq_ok s tokens).mp hs
      rw [(parse_eq_ok s template).mp ht] at hts
      cases hts
      obtain ⟨f, hf⟩ := hk code hm
      exact absurd (Field.code_of_ofCode code f hf) (hnone f)

/-- A text can be read unless it ends with an odd run of marks, of which the last is then at
fault, under strict reading too. Otherwise strict reading fails exactly if an escape names
neither a field nor the line break, and reports the leftmost of these at the column of its mark. -/
theorem parse_faults (s : Text) :
    ((∃ e, parse s = .error e) ↔ Odd (marksAtEnd s)) ∧
      (∀ e, parse s = .error e → e = .danglingEscape s.length ∧ parseStrict s = .error e) ∧
      ∀ template, parse s = .ok template →
        ((∃ e, parseStrict s = .error e) ↔ ∃ code, .field code ∈ template ∧ Unknown code) ∧
        ∀ e, parseStrict s = .error e → ∃ column code,
          e = .invalidField column (.unknownCode code) ∧ FirstFault s template column code := by
  refine ⟨?_, ?_, ?_⟩
  · constructor
    · rintro ⟨e, he⟩
      exact ((parse_eq_error s e).mp he).1
    · exact fun hodd => ⟨_, (parse_eq_error s _).mpr ⟨hodd, rfl⟩⟩
  · intro e he
    exact ⟨((parse_eq_error s e).mp he).2, parseStrict_of_parse_error s e he⟩
  · intro template ht
    refine ⟨exists_parseStrict_error s template ht, ?_⟩
    exact fun e he => parseStrict_eq_error s template e ht he

theorem parse_faults_columns :
    parse "〒%C%%%".toList = .error (.danglingEscape 6) ∧
      parseStrict "〒%C%%%".toList = .error (.danglingEscape 6) ∧
      parse "〒%C%Q%?".toList = .ok [.literal ['〒'], .field 'C', .field 'Q', .field '?'] ∧
      parseStrict "〒%C%Q%?".toList = .error (.invalidField 4 (.unknownCode 'Q')) ∧
      FirstFault "〒%C%Q%?".toList [.literal ['〒'], .field 'C', .field 'Q', .field '?'] 4 'Q' := by
  have hdangling : parse "〒%C%%%".toList = .error (.danglingEscape 6) := rfl
  have hread : parse "〒%C%Q%?".toList =
    .ok [.literal ['〒'], .field 'C', .field 'Q', .field '?'] := rfl
  have hstrict : parseStrict "〒%C%Q%?".toList = .error (.invalidField 4 (.unknownCode 'Q')) := rfl
  obtain ⟨-, hodd, -⟩ := parse_faults "〒%C%%%".toList
  obtain ⟨-, -, hfaults⟩ := parse_faults "〒%C%Q%?".toList
  obtain ⟨column, code, he, hf⟩ := (hfaults _ hread).2 _ hstrict
  cases he
  exact ⟨hdangling, (hodd _ hdangling).2, hread, hstrict, hf⟩

end Template
end Postal
