import Mathlib.Data.List.Chain
import Postal.Proofs.Outcome
import Postal.Proofs.Template.Scanning

/-!
# The tokens of a template

Reading a template puts every run of plain characters into one literal, so no
two literals stand side by side. A template is read strictly exactly if every
code in it names a field.
-/

set_option autoImplicit false

namespace Postal

theorem Field.code_injective : Function.Injective Field.code := by
  intro f g h
  have hg := Field.ofCode_code g
  rw [← h, Field.ofCode_code] at hg
  exact Except.ok.inj hg

def Token.isLiteral : Token → Bool
  | .literal _ => true
  | _ => false

theorem Token.isLiteral_iff (t : Token) : t.isLiteral = true ↔ ∃ text, t = .literal text := by
  cases t <;> simp [Token.isLiteral]

theorem Token.isLiteral_ofEscape (code : Char) : (Token.ofEscape code).isLiteral = false := by
  unfold Token.ofEscape
  split <;> rfl

namespace Template

def Parted (template : Template) : Prop :=
  template.IsChain fun s t => ¬(s.isLiteral ∧ t.isLiteral)

def Known (template : Template) : Prop :=
  ∀ code, .field code ∈ template → ∃ f, Field.ofCode code = .ok f

theorem known_tail (t : Token) (rest : Template) (h : Known (t :: rest)) : Known rest :=
  fun code hm => h code (List.mem_cons_of_mem t hm)

theorem known_sublist (template kept : Template) (hs : kept.Sublist template)
    (h : Known template) : Known kept :=
  fun code hm => h code (hs.subset hm)

theorem getElem?_of_drop (template : Template) (n : ℕ) (t : Token) (rest : Template)
    (h : template.drop n = t :: rest) : template[n]? = some t ∧ template.drop (n + 1) = rest := by
  constructor
  · rw [← Nat.add_zero n, ← List.getElem?_drop, h]
    rfl
  · rw [← List.drop_drop, h]
    rfl

theorem parted_onLiteral (c : Char) (template : Template) (h : Parted template) :
    Parted (onLiteral c template) := by
  unfold onLiteral
  split
  · rename_i text rest
    cases rest with
    | nil => exact List.isChain_singleton _
    | cons t rest =>
      obtain ⟨ht, hrest⟩ := List.isChain_cons_cons.mp h
      exact List.isChain_cons_cons.mpr ⟨ht, hrest⟩
  · rename_i hn
    cases template with
    | nil => exact List.isChain_singleton _
    | cons t rest =>
      apply List.isChain_cons_cons.mpr
      constructor
      · intro hl
        obtain ⟨text, rfl⟩ := (Token.isLiteral_iff t).mp hl.2
        exact hn text rest rfl
      · exact h

theorem parted_cons (t : Token) (template : Template) (ht : t.isLiteral = false)
    (h : Parted template) : Parted (t :: template) := by
  cases template with
  | nil => exact List.isChain_singleton _
  | cons next rest => exact List.isChain_cons_cons.mpr ⟨by simp [ht], h⟩

theorem parted_getElem? (template : Template) (h : Parted template) (i : ℕ) (s t : Token)
    (hs : template[i]? = some s) (ht : template[i + 1]? = some t) :
    ¬(s.isLiteral ∧ t.isLiteral) := by
  obtain ⟨hi, rfl⟩ := List.getElem?_eq_some_iff.mp hs
  obtain ⟨hj, rfl⟩ := List.getElem?_eq_some_iff.mp ht
  exact List.isChain_iff_getElem.mp h i hj

theorem parted_of_tokens? (t : Text) (template : Template) (h : tokens? t = some template) :
    Parted template := by
  induction t using textInduction generalizing template with
  | nil =>
    cases h
    exact List.isChain_nil
  | mark => cases h
  | escape code rest ih =>
    rw [tokens?_escape] at h
    obtain ⟨ts, hts, rfl⟩ := Option.map_eq_some_iff.mp h
    exact parted_cons _ _ (Token.isLiteral_ofEscape code) (ih ts hts)
  | plain c rest hc ih =>
    rw [tokens?_plain c rest hc] at h
    obtain ⟨ts, hts, rfl⟩ := Option.map_eq_some_iff.mp h
    exact parted_onLiteral c ts (ih ts hts)

theorem checkCodes_eq_ok (column : Nat) (template : Template) :
    checkCodes column template = .ok () ↔ Known template := by
  induction template generalizing column with
  | nil => exact ⟨fun _ code hm => absurd hm List.not_mem_nil, fun _ => rfl⟩
  | cons t rest ih =>
    have hskip : ∀ n, (∀ code, t ≠ .field code) →
        (checkCodes n rest = .ok () ↔ Known (t :: rest)) := by
      intro n ht
      rw [ih]
      constructor
      · intro h code hm
        exact h code ((List.mem_cons.mp hm).resolve_left fun he => ht code he.symm)
      · exact fun h code hm => h code (List.mem_cons_of_mem t hm)
    cases t with
    | newline => exact hskip _ fun code => Token.noConfusion
    | literal text => exact hskip _ fun code => Token.noConfusion
    | field code =>
      rw [checkCodes]
      cases hc : Field.ofCode code with
      | error cause =>
        constructor
        · intro h
          cases h
        · intro h
          obtain ⟨f, hf⟩ := h code List.mem_cons_self
          rw [hc] at hf
          cases hf
      | ok f =>
        apply (ih (column + 2)).trans
        constructor
        · intro h other hm
          rcases List.mem_cons.mp hm with he | hm
          · cases he
            exact ⟨f, hc⟩
          · exact h other hm
        · intro h other hm
          exact h other (List.mem_cons_of_mem _ hm)

theorem parseStrict_eq_ok (t : Text) (template : Template) :
    parseStrict t = .ok template ↔ tokens? t = some template ∧ Known template := by
  unfold parseStrict
  rw [bind_eq_ok]
  constructor
  · rintro ⟨ts, hp, h⟩
    obtain ⟨u, hc, h⟩ := (bind_eq_ok _ _ _).mp h
    cases h
    exact ⟨(parse_eq_ok t template).mp hp, (checkCodes_eq_ok 1 template).mp hc⟩
  · rintro ⟨hp, hk⟩
    refine ⟨template, (parse_eq_ok t template).mpr hp, (bind_eq_ok _ _ _).mpr ⟨(), ?_, rfl⟩⟩
    exact (checkCodes_eq_ok 1 template).mpr hk

theorem fields_of_known (template : Template) (h : Known template) :
    ∃ fs, fields template = .ok fs ∧ ∀ f, f ∈ fs ↔ .field f.code ∈ template := by
  induction template with
  | nil => exact ⟨[], rfl, fun f => by simp⟩
  | cons t rest ih =>
    obtain ⟨fs, hfs, hmem⟩ := ih (known_tail t rest h)
    cases t with
    | newline => exact ⟨fs, hfs, fun f => by simp [hmem]⟩
    | literal text => exact ⟨fs, hfs, fun f => by simp [hmem]⟩
    | field code =>
      obtain ⟨g, hg⟩ := h code List.mem_cons_self
      refine ⟨g :: fs, ?_, ?_⟩
      · rw [fields, hg, hfs]
        rfl
      · intro f
        rw [List.mem_cons, List.mem_cons, hmem, Token.field.injEq]
        apply or_congr_left
        constructor
        · rintro rfl
          exact Field.code_of_ofCode code f hg
        · rintro rfl
          rw [Field.ofCode_code] at hg
          injection hg

end Template
end Postal
