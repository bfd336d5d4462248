import Mathlib.Data.Nat.Notation
import Postal.Template

/-!
# Scanning templates

Scanning takes tokens off the front until none can be read. A run of plain characters that starts
with one character more is the same run extended, so a text can be followed character by character
and escape by escape. Reading stops early in front of a mark that ends the text and nowhere else.
-/

set_option autoImplicit false

namespace Postal.Template

theorem token?_escape (code : Char) (rest : Text) :
    token? ('%' :: code :: rest) = some (.ofEscape code, rest) := rfl

theorem token?_plain (c : Char) (rest : Text) (hc : c ≠ '%') :
    token? (c :: rest) =
      some (.literal (c :: rest.takeWhile (· != '%')), rest.dropWhile (· != '%')) := by
  have hescape : escape? (c :: rest) = none := by
    unfold escape?
    split
    · rename_i h
      exact absurd (List.cons.inj h).1 hc
    · rfl
  simp [token?, hescape, literal?, hc]

/-- A text is empty, a lone mark, or begins with an escape or a plain character. -/
@[elab_as_elim]
theorem textInduction {motive : Text → Prop} (nil : motive []) (mark : motive ['%'])
    (escape : ∀ code rest, motive rest → motive ('%' :: code :: rest))
    (plain : ∀ c rest, c ≠ '%' → motive rest → motive (c :: rest)) (t : Text) : motive t := by
  match t with
  | [] => exact nil
  | [c] =>
    by_cases hc : c = '%'
    · exact hc ▸ mark
    · exact plain c [] hc nil
  | c :: code :: rest =>
    by_cases hc : c = '%'
    · exact hc ▸ escape code rest (textInduction nil mark escape plain rest)
    · exact plain c _ hc (textInduction nil mark escape plain (code :: rest))
termination_by t.length

theorem token?_length_lt (t rest : Text) (token : Token) (h : token? t = some (token, rest)) :
    rest.length < t.length := by
  cases t using textInduction with
  | nil => cases h
  | mark => cases h
  | escape code more =>
    cases h
    simp only [List.length_cons]
    omega
  | plain c more hc =>
    rw [token?_plain c more hc] at h
    cases h
    exact Nat.lt_succ_of_le (List.dropWhile_suffix _).length_le

/-! ## Steps -/

theorem scanFor_congr (m n : ℕ) (t : Text) (hm : t.length ≤ m) (hn : t.length ≤ n) :
    scanFor m t = scanFor n t := by
  induction m generalizing n t with
  | zero =>
    obtain rfl := List.length_eq_zero_iff.mp (Nat.le_zero.mp hm)
    cases n <;> rfl
  | succ m ih =>
    cases n with
    | zero =>
      obtain rfl := List.length_eq_zero_iff.mp (Nat.le_zero.mp hn)
      rfl
    | succ n =>
      rw [scanFor, scanFor]
      cases h : token? t with
      | none => rfl
      | some read =>
        obtain ⟨token, rest⟩ := read
        have hrest := token?_length_lt t rest token h
        dsimp only
        rw [ih n rest (by omega) (by omega)]

/-- Scanning takes tokens off as long as one can be read. -/
theorem scan_of_token? (t : Text) : scan t =
    match token? t with
    | none => ([], t)
    | some (token, rest) => (token :: (scan rest).1, (scan rest).2) := by
  cases t with
  | nil => rfl
  | cons c more =>
    rw [scan, List.length_cons, scanFor]
    cases h : token? (c :: more) with
    | none => rfl
    | some read =>
      obtain ⟨token, rest⟩ := read
      have hrest := token?_length_lt _ rest token h
      dsimp only
      rw [scan, scanFor_congr more.length rest.length rest (Nat.le_of_lt_succ hrest)
        (Nat.le_refl _)]

/-! ## Characters and escapes -/

/-- Extends the literal at the front, or starts one. -/
def onLiteral (c : Char) : Template → Template
  | .literal text :: rest => .literal (c :: text) :: rest
  | template => .literal [c] :: template

theorem onLiteral_ofEscape (c code : Char) (template : Template) :
    onLiteral c (.ofEscape code :: template) = .literal [c] :: .ofEscape code :: template := by
  unfold Token.ofEscape
  split <;> rfl

theorem scan_escape (code : Char) (rest : Text) :
    scan ('%' :: code :: rest) = (.ofEscape code :: (scan rest).1, (scan rest).2) := by
  rw [scan_of_token?, token?_escape]

theorem scan_plain (c : Char) (rest : Text) (hc : c ≠ '%') :
    scan (c :: rest) = (onLiteral c (scan rest).1, (scan rest).2) := by
  rw [scan_of_token?, token?_plain c rest hc]
  cases rest using textInduction with
  | nil => rfl
  | mark => rfl
  | escape code more =>
    rw [List.takeWhile_cons_of_neg (by simp), List.dropWhile_cons_of_neg (by simp)]
    simp only [scan_escape, onLiteral_ofEscape]
  | plain d more hd =>
    rw [scan_of_token? (d :: more), token?_plain d more hd, List.takeWhile_cons_of_pos (by simpa),
      List.dropWhile_cons_of_pos (by simpa)]
    rfl

@[simp] theorem text_onLiteral (c : Char) (template : Template) :
    text (onLiteral c template) = c :: text template := by
  unfold onLiteral
  split <;> simp [text, Token.text]

@[simp] theorem text_ofEscape (code : Char) : (Token.ofEscape code).text = ['%', code] := by
  unfold Token.ofEscape
  split
  · rename_i h
    rw [h]
    rfl
  · rfl

theorem text_scan (t : Text) : (scan t).1.text ++ (scan t).2 = t := by
  induction t using textInduction with
  | nil => rfl
  | mark => rfl
  | escape code rest ih =>
    rw [scan_escape, text_cons, text_ofEscape, List.append_assoc, ih]
    rfl
  | plain c rest hc ih => rw [scan_plain c rest hc, text_onLiteral, List.cons_append, ih]

theorem scan_left (t : Text) : (scan t).2 = [] ∨ (scan t).2 = ['%'] := by
  induction t using textInduction with
  | nil => exact .inl rfl
  | mark => exact .inr rfl
  | escape code rest ih => rwa [scan_escape]
  | plain c rest hc ih => rwa [scan_plain c rest hc]

/-! ## Reading -/

theorem tokens?_eq_some (t : Text) (template : Template) :
    tokens? t = some template ↔ scan t = (template, []) := by
  rw [tokens?, Option.ite_none_right_eq_some, Option.some_inj, Prod.ext_iff, and_comm]

theorem tokens?_eq_none (t : Text) : tokens? t = none ↔ (scan t).2 = ['%'] := by
  rw [tokens?, ite_eq_right_iff]
  rcases scan_left t with h | h <;> simp [h]

@[simp] theorem tokens?_nil : tokens? [] = some [] := rfl

@[simp] theorem tokens?_mark : tokens? ['%'] = none := rfl

theorem tokens?_escape (code : Char) (rest : Text) :
    tokens? ('%' :: code :: rest) = (tokens? rest).map (.ofEscape code :: ·) := by
  rw [tokens?, scan_escape, tokens?, apply_ite (Option.map _)]
  rfl

theorem tokens?_plain (c : Char) (rest : Text) (hc : c ≠ '%') :
    tokens? (c :: rest) = (tokens? rest).map (onLiteral c) := by
  rw [tokens?, scan_plain c rest hc, tokens?, apply_ite (Option.map _)]
  rfl

theorem text_of_tokens? (t : Text) (template : Template) (h : tokens? t = some template) :
    template.text = t := by
  have ht := text_scan t
  rwa [(tokens?_eq_some t template).mp h, List.append_nil] at ht

/-- The mark that is left stands behind all other characters. -/
theorem dangling_of_left (t : Text) (h : (scan t).2 = ['%']) :
    dangling t (scan t).2 = .danglingEscape t.length := by
  have ht := congrArg List.length (text_scan t)
  rw [h, List.length_append, List.length_singleton] at ht
  rw [dangling, h, List.length_take, List.length_singleton]
  congr 1
  omega

theorem parse_eq_ok (t : Text) (template : Template) :
    parse t = .ok template ↔ tokens? t = some template := by
  unfold parse tokens?
  split <;> simp

theorem parse_eq_dangling (t : Text) (e : TemplateError) :
    parse t = .error e ↔ tokens? t = none ∧ e = .danglingEscape t.length := by
  rcases scan_left t with h | h
  · simp [parse, tokens?, h]
  · rw [tokens?_eq_none, parse, if_neg (by simp [h]), dangling_of_left t h]
    simp [h, eq_comm]

end Postal.Template
