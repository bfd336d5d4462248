import Mathlib.Data.List.Forall2
import Postal.Json.Limits
import Postal.Json.Printer
import Postal.Proofs.Text.Splitting

/-!
# Reading what was printed

A text quoted as a JSON string is read back piece by piece. A container is read
back if its parts are, whatever blanks stand around them, so the compact form
and the indented one need no separate argument. The depth of the reading is
bounded by the characters left, of which every part takes at least one.
-/

set_option autoImplicit false

namespace Postal.Json.Grammar

/-! ## Strings -/

def isNumbered (c : Char) : Bool := (escapeChar c)[1]? == some 'u'

def spell (c : Char) : Piece := if isNumbered c then .unit c.toNat else .char c

def spelled (t : Text) : List Piece := t.map spell

theorem hexDigit?_hexDigit (n : ℕ) (h : n < 16) : hexDigit? (hexDigit n) = some n := by
  revert n
  decide

theorem string?_escape (e c : Char) (rest : Text) (hu : e ≠ 'u') (h : escaped? e = some c) :
    string? ('\\' :: e :: rest) =
      (string? rest).map fun (pieces, after) => (.char c :: pieces, after) := by
  rw [string?, h]
  · cases string? rest <;> rfl
  · rintro _ _ _ _ _ rfl
    exact absurd rfl hu

theorem string?_unit (n : ℕ) (h : n < 0x20) (rest : Text) :
    string? ('\\' :: 'u' :: '0' :: '0' :: hexDigit (n / 16) :: hexDigit (n % 16) :: rest) =
      (string? rest).map fun (pieces, after) => (.unit n :: pieces, after) := by
  have h0 : hexDigit? '0' = some 0 := rfl
  have h1 := hexDigit?_hexDigit (n / 16) (by omega)
  have h2 := hexDigit?_hexDigit (n % 16) (by omega)
  have hn : ((0 * 16 + 0) * 16 + n / 16) * 16 + n % 16 = n := by omega
  rw [string?, h0, h1, h2]
  simp only [bind, Option.bind, hn]
  cases string? rest <;> rfl

theorem string?_char (c : Char) (rest : Text) (hq : c ≠ '"') (hb : c ≠ '\\')
    (hc : ¬c.val < 0x20) :
    string? (c :: rest) =
      (string? rest).map fun (pieces, after) => (.char c :: pieces, after) := by
  rw [string?, if_neg (by simp [hc, hb])]
  · cases string? rest <;> rfl
  · exact hq
  · exact fun _ _ _ _ _ h => absurd h hb
  · exact fun _ _ h => absurd h hb

theorem escapeChar_cases (c : Char) :
    (∃ e, e ≠ 'u' ∧ escaped? e = some c ∧ escapeChar c = ['\\', e]) ∨
      (c.toNat < 0x20 ∧ escapeChar c =
        ['\\', 'u', '0', '0', hexDigit (c.toNat / 16), hexDigit (c.toNat % 16)]) ∨
      (c ≠ '"' ∧ c ≠ '\\' ∧ ¬c.val < 0x20 ∧ escapeChar c = [c]) := by
  unfold escapeChar
  split
  iterate 7 exact .inl ⟨_, by decide, rfl, rfl⟩
  rename_i hq hb _ _ _ _ _
  by_cases hc : c.val < 0x20
  · exact .inr (.inl ⟨hc, if_pos hc⟩)
  · exact .inr (.inr ⟨hq, hb, hc, if_neg hc⟩)

theorem string?_escapeChar (c : Char) (rest : Text) :
    string? (escapeChar c ++ rest) =
      (string? rest).map fun (pieces, after) => (spell c :: pieces, after) := by
  rcases escapeChar_cases c with ⟨e, hu, he, h⟩ | ⟨hc, h⟩ | ⟨hq, hb, hc, h⟩
  · rw [spell, if_neg (by simp [isNumbered, h, hu]), h]
    exact string?_escape e c rest hu he
  · rw [spell, if_pos (by simp [isNumbered, h]), h]
    exact string?_unit c.toNat hc rest
  · rw [spell, if_neg (by simp [isNumbered, h]), h]
    exact string?_char c rest hq hb hc

theorem string?_quoted (t rest : Text) :
    string? (t.flatMap escapeChar ++ '"' :: rest) = some (spelled t, rest) := by
  induction t with
  | nil => rfl
  | cons c t ih =>
    rw [List.flatMap_cons, List.append_assoc, string?_escapeChar, ih]
    rfl

theorem text?_char (c : Char) (pieces : List Piece) :
    text? (.char c :: pieces) = (text? pieces).map (c :: ·) := rfl

theorem text?_spell (c : Char) (pieces : List Piece) :
    text? (spell c :: pieces) = (text? pieces).map (c :: ·) := by
  rcases escapeChar_cases c with ⟨e, hu, -, h⟩ | ⟨hc, h⟩ | ⟨-, -, -, h⟩
  · rw [spell, if_neg (by simp [isNumbered, h, hu]), text?_char]
  · have hlow : isLowUnit c.toNat = false := by
      simp only [isLowUnit, Bool.and_eq_false_iff, decide_eq_false_iff_not]
      omega
    have hhigh : isHighUnit c.toNat = false := by
      simp only [isHighUnit, Bool.and_eq_false_iff, decide_eq_false_iff_not]
      omega
    rw [spell, if_pos (by simp [isNumbered, h]), text?.eq_def]
    simp [hlow, hhigh]
  · rw [spell, if_neg (by simp [isNumbered, h]), text?_char]

theorem text?_spelled (t : Text) : text? (spelled t) = some t := by
  induction t with
  | nil => rfl
  | cons c t ih =>
    have hs : spelled (c :: t) = spell c :: spelled t := rfl
    rw [hs, text?_spell, ih]
    rfl

/-! ## Values -/

def Blank (t : Text) : Prop := ∀ c ∈ t, isSpace c = true

theorem skipSpace_blank (blank t : Text) (h : Blank blank) :
    skipSpace (blank ++ t) = skipSpace t :=
  List.dropWhile_append_of_pos h

theorem skipSpace_cons (c : Char) (t : Text) (h : isSpace c = false) :
    skipSpace (c :: t) = c :: t :=
  List.dropWhile_cons_of_neg (by simp [h])

/-- The text is read as the value wherever it stands, given steps enough. -/
structure Reads (s : Text) (value : Written) : Prop where
  opens : ∃ c rest, s = c :: rest ∧ isSpace c = false ∧ c ≠ ']'
  value? : ∀ fuel rest, s.length ≤ fuel → value? fuel (s ++ rest) = some (value, rest)

def ReadsMember (s : Text) (member : List Piece × Written) : Prop :=
  ∃ key blank text, s = quoted key ++ ':' :: (blank ++ text) ∧ Blank blank ∧
    spelled key = member.1 ∧ Reads text member.2

theorem value?_blank (fuel : ℕ) (blank t : Text) (h : Blank blank) :
    value? fuel (blank ++ t) = value? fuel t := by
  cases fuel with
  | zero => rfl
  | succ fuel => rw [value?, value?, skipSpace_blank blank t h]

theorem items?_blank (fuel : ℕ) (blank t : Text) (h : Blank blank) :
    items? fuel (blank ++ t) = items? fuel t := by
  cases fuel with
  | zero => rfl
  | succ fuel => rw [items?, items?, value?_blank fuel blank t h]

theorem members?_blank (fuel : ℕ) (blank t : Text) (h : Blank blank) :
    members? fuel (blank ++ t) = members? fuel t := by
  cases fuel with
  | zero => rfl
  | succ fuel => rw [members?, members?, skipSpace_blank blank t h]

theorem reads_quoted (t : Text) : Reads (quoted t) (.string (spelled t)) where
  opens := ⟨'"', _, rfl, rfl, by decide⟩
  value? fuel rest h := by
    cases fuel with
    | zero => cases h
    | succ fuel =>
      have hs : quoted t ++ rest = '"' :: (t.flatMap escapeChar ++ '"' :: rest) := by
        simp [quoted]
      rw [hs, value?, skipSpace_cons '"' _ rfl]
      simp only [string?_quoted]
      rfl

/-! ## Containers -/

/-- The reader reads a part in one step. The closing character behind it ends the list, and
behind a comma the reading goes on. -/
structure ReadsParts {α : Type} (reader : ℕ → Text → Option (List α × Text)) (closing : Char)
    (part : Text → α → Prop) : Prop where
  opens : ∀ s a, part s a → ∃ c more, s = c :: more ∧ isSpace c = false ∧ c ≠ closing
  last : ∀ s a, part s a → ∀ fuel blank rest, s.length ≤ fuel → Blank blank →
    reader (fuel + 1) (s ++ (blank ++ closing :: rest)) = some ([a], rest)
  more : ∀ s a, part s a → ∀ fuel blank t, s.length ≤ fuel → Blank blank →
    reader (fuel + 1) (s ++ ',' :: (blank ++ t)) =
      (reader fuel t).map fun (parts, rest) => (a :: parts, rest)

theorem readsParts_items : ReadsParts items? ']' Reads where
  opens s a h := h.opens
  last s a h fuel blank rest hf hb := by
    have hclose : skipSpace (blank ++ ']' :: rest) = ']' :: rest := by
      rw [skipSpace_blank blank _ hb, skipSpace_cons ']' rest rfl]
    rw [items?, h.value? fuel _ hf]
    simp only [bind, Option.bind, hclose]
    rfl
  more s a h fuel blank t hf hb := by
    rw [items?, h.value? fuel _ hf]
    simp only [bind, Option.bind, skipSpace_cons ',' _ rfl, items?_blank fuel blank t hb]
    cases items? fuel t <;> rfl

theorem readsMember_steps (s t : Text) (a : List Piece × Written) (h : ReadsMember s a) (fuel : ℕ)
    (hf : s.length ≤ fuel) :
    ∃ opened valued, s ++ t = '"' :: opened ∧ string? opened = some (a.1, ':' :: valued) ∧
      value? fuel valued = some (a.2, t) := by
  obtain ⟨key, gap, text, rfl, hgap, hkey, hr⟩ := h
  have hlen : text.length ≤ fuel := by
    simp only [List.length_append, List.length_cons] at hf
    omega
  refine ⟨key.flatMap escapeChar ++ '"' :: ':' :: (gap ++ (text ++ t)), gap ++ (text ++ t),
    by simp [quoted], ?_, ?_⟩
  · rw [string?_quoted, hkey]
  · rw [value?_blank fuel gap _ hgap, hr.value? fuel t hlen]

theorem readsParts_members : ReadsParts members? '}' ReadsMember where
  opens s a h := by
    obtain ⟨key, gap, text, rfl, -⟩ := h
    exact ⟨'"', _, rfl, rfl, by decide⟩
  last s a h fuel blank rest hf hb := by
    obtain ⟨opened, valued, hs, hkey, hvalue⟩ :=
      readsMember_steps s (blank ++ '}' :: rest) a h fuel hf
    have hclose : skipSpace (blank ++ '}' :: rest) = '}' :: rest := by
      rw [skipSpace_blank blank _ hb, skipSpace_cons '}' rest rfl]
    rw [hs, members?, skipSpace_cons '"' _ rfl]
    simp only [bind, Option.bind, hkey, skipSpace_cons ':' _ rfl, hvalue, hclose]
    rfl
  more s a h fuel blank t hf hb := by
    obtain ⟨opened, valued, hs, hkey, hvalue⟩ :=
      readsMember_steps s (',' :: (blank ++ t)) a h fuel hf
    rw [hs, members?, skipSpace_cons '"' _ rfl]
    simp only [bind, Option.bind, hkey, skipSpace_cons ':' _ rfl, hvalue, skipSpace_cons ',' _ rfl,
      members?_blank fuel blank t hb]
    cases members? fuel t <;> rfl

section
variable {α : Type} {reader : ℕ → Text → Option (List α × Text)} {closing : Char}
  {part : Text → α → Prop}

theorem ReadsParts.join (h : ReadsParts reader closing part) (between ending rest : Text)
    (hb : Blank between) (he : Blank ending) (texts : List Text) (parts : List α)
    (hp : List.Forall₂ part texts parts) (hne : texts ≠ []) (fuel : ℕ)
    (hf : (Text.join (',' :: between) texts).length < fuel) :
    reader fuel (Text.join (',' :: between) texts ++ (ending ++ closing :: rest)) =
      some (parts, rest) := by
  induction hp generalizing fuel with
  | nil => exact absurd rfl hne
  | @cons s a texts parts hs htexts ih =>
    obtain ⟨fuel, rfl⟩ := Nat.exists_eq_add_one_of_ne_zero (Nat.ne_zero_of_lt hf)
    cases htexts with
    | nil => exact h.last s a hs fuel ending rest (Nat.le_of_lt_succ hf) he
    | @cons next b more others hnext hmore =>
      have hsplit : Text.join (',' :: between) (s :: next :: more) ++ (ending ++ closing :: rest) =
          s ++ ',' :: (between ++
            (Text.join (',' :: between) (next :: more) ++ (ending ++ closing :: rest))) := by
        simp [Text.join]
      rw [Text.join, List.length_append, List.length_append, List.length_cons] at hf
      rw [hsplit, h.more s a hs fuel between _ (by omega) hb,
        ih (List.cons_ne_nil next more) fuel (by omega)]
      rfl

def inside (start between ending : Text) (texts : List Text) : Text :=
  start ++ Text.join (',' :: between) texts ++ ending

theorem ReadsParts.inside (h : ReadsParts reader closing part) (start between ending rest : Text)
    (hs : Blank start) (hb : Blank between) (he : Blank ending) (texts : List Text)
    (parts : List α) (hp : List.Forall₂ part texts parts) (hne : texts ≠ []) (fuel : ℕ)
    (hf : (inside start between ending texts).length < fuel) :
    ∃ c more, skipSpace (inside start between ending texts ++ closing :: rest) = c :: more ∧
      c ≠ closing ∧ reader fuel (c :: more) = some (parts, rest) := by
  have hlen : (Text.join (',' :: between) texts).length < fuel := by
    simp only [Grammar.inside, List.length_append] at hf
    omega
  have hread := h.join between ending rest hb he texts parts hp hne fuel hlen
  obtain ⟨c, more, hopen, hc, hclose⟩ : ∃ c more,
      Text.join (',' :: between) texts ++ (ending ++ closing :: rest) = c :: more ∧
        isSpace c = false ∧ c ≠ closing := by
    cases hp with
    | nil => exact absurd rfl hne
    | cons hpart _ =>
      obtain ⟨c, more, rfl, hc, hclose⟩ := h.opens _ _ hpart
      rw [Text.join_cons]
      exact ⟨c, _, rfl, hc, hclose⟩
  rw [hopen] at hread
  refine ⟨c, more, ?_, hclose, hread⟩
  rw [Grammar.inside, List.append_assoc, List.append_assoc, skipSpace_blank start _ hs, hopen,
    skipSpace_cons c _ hc]

end

section
variable (start between ending : Text)

theorem reads_array (hs : Blank start) (hb : Blank between) (he : Blank ending)
    (texts : List Text) (items : List Written) (h : List.Forall₂ Reads texts items)
    (hne : texts ≠ []) :
    Reads ('[' :: inside start between ending texts ++ [']']) (.array items) where
  opens := ⟨'[', _, rfl, rfl, by decide⟩
  value? fuel rest hf := by
    cases fuel with
    | zero => cases hf
    | succ fuel =>
      obtain ⟨c, more, hskip, hc, hread⟩ := readsParts_items.inside start between ending rest
        hs hb he texts items h hne fuel (Nat.lt_of_succ_le (by simpa using hf))
      rw [List.append_assoc, List.cons_append, value?, skipSpace_cons '[' _ rfl]
      simp only [List.singleton_append, hskip]
      split
      · rename_i heq
        exact absurd (List.cons.inj heq).1 hc
      · rw [hread]
        rfl

theorem reads_object (hs : Blank start) (hb : Blank between) (he : Blank ending)
    (texts : List Text) (members : List (List Piece × Written))
    (h : List.Forall₂ ReadsMember texts members) (hne : texts ≠ []) :
    Reads ('{' :: inside start between ending texts ++ ['}']) (.object members) where
  opens := ⟨'{', _, rfl, rfl, by decide⟩
  value? fuel rest hf := by
    cases fuel with
    | zero => cases hf
    | succ fuel =>
      obtain ⟨c, more, hskip, hc, hread⟩ := readsParts_members.inside start between ending rest
        hs hb he texts members h hne fuel (Nat.lt_of_succ_le (by simpa using hf))
      rw [List.append_assoc, List.cons_append, value?, skipSpace_cons '{' _ rfl]
      simp only [List.singleton_append, hskip]
      split
      · rename_i heq
        exact absurd (List.cons.inj heq).1 hc
      · rw [hread]
        rfl

end

theorem reads_empty : Reads ['{', '}'] (.object []) where
  opens := ⟨'{', _, rfl, rfl, by decide⟩
  value? fuel rest hf := by
    cases fuel with
    | zero => cases hf
    | succ fuel => rfl

theorem reads_emptyArray : Reads ['[', ']'] (.array []) where
  opens := ⟨'[', _, rfl, rfl, by decide⟩
  value? fuel rest hf := by
    cases fuel with
    | zero => cases hf
    | succ fuel => rfl

/-- A text that is read as a value wherever it stands is read as it when it stands alone. -/
theorem read?_of_reads (s : Text) (value : Written) (h : Reads s value) :
    read? s = some value := by
  have hv := h.value? (2 * s.length + 2) [] (by omega)
  rw [List.append_nil] at hv
  rw [read?, hv]
  rfl

/-! ## Printed values -/

/-- Both printed forms of the value are read as what is written. -/
def Spells (value : Json Text) (written : Written) : Prop :=
  Reads (compact value) written ∧ ∀ indent, Reads (indented indent value) written

def SpellsMember (m : Text × Json Text) (written : List Piece × Written) : Prop :=
  written.1 = spelled m.1 ∧ Spells m.2 written.2

theorem blank_nil : Blank [] := fun _ h => absurd h List.not_mem_nil

theorem blank_lineBreak (indent : ℕ) : Blank (lineBreak indent) := by
  intro c hc
  rcases List.mem_cons.mp hc with rfl | hc
  · rfl
  · rw [List.eq_of_mem_replicate hc]
    rfl

theorem compactItems_eq_map (items : List (Json Text)) :
    compactItems items = items.map compact := by
  induction items with
  | nil => rfl
  | cons item items ih => rw [compactItems, ih, List.map_cons]

theorem compactMembers_eq_map (members : List (Text × Json Text)) :
    compactMembers members = members.map compactMember := by
  induction members with
  | nil => rfl
  | cons m members ih => rw [compactMembers, ih, List.map_cons]

theorem indentedItems_eq_map (indent : ℕ) (items : List (Json Text)) :
    indentedItems indent items = items.map (indented indent) := by
  induction items with
  | nil => rfl
  | cons item items ih => rw [indentedItems, ih, List.map_cons]

theorem indentedMembers_eq_map (indent : ℕ) (members : List (Text × Json Text)) :
    indentedMembers indent members = members.map (indentedMember indent) := by
  induction members with
  | nil => rfl
  | cons m members ih => rw [indentedMembers, ih, List.map_cons]

theorem compact_array (items : List (Json Text)) :
    compact (.array items) = '[' :: Text.join [','] (items.map compact) ++ [']'] := by
  rw [← compactItems_eq_map]
  rfl

theorem compact_object (members : List (Text × Json Text)) :
    compact (.object members) = '{' :: Text.join [','] (members.map compactMember) ++ ['}'] := by
  rw [← compactMembers_eq_map]
  rfl

theorem indented_array (indent : ℕ) (items : List (Json Text)) :
    indented indent (.array items) =
      bracketed '[' ']' indent (items.map (indented (indent + 1))) := by
  rw [← indentedItems_eq_map]
  rfl

theorem indented_object (indent : ℕ) (members : List (Text × Json Text)) :
    indented indent (.object members) =
      bracketed '{' '}' indent (members.map (indentedMember (indent + 1))) := by
  rw [← indentedMembers_eq_map]
  rfl

theorem bracketed_eq_inside (opening closing : Char) (indent : ℕ) (lines : List Text)
    (h : lines ≠ []) : bracketed opening closing indent lines = opening ::
      inside (lineBreak (indent + 1)) (lineBreak (indent + 1)) (lineBreak indent) lines ++
        [closing] := by
  cases lines with
  | nil => exact absurd rfl h
  | cons line lines => simp [bracketed, inside]

theorem spells_string (t : Text) : Spells (.string t) (.string (spelled t)) :=
  ⟨reads_quoted t, fun _ => reads_quoted t⟩

theorem spells_array (items : List (Json Text)) (written : List Written)
    (h : List.Forall₂ Spells items written) : Spells (.array items) (.array written) := by
  by_cases hne : items = []
  · subst hne
    cases h
    exact ⟨reads_emptyArray, fun _ => reads_emptyArray⟩
  constructor
  · have hc : List.Forall₂ Reads (items.map compact) written := by
      rw [List.forall₂_map_left_iff]
      exact h.imp fun _ _ hs => hs.1
    have hr := reads_array [] [] [] blank_nil blank_nil blank_nil _ written hc (by simpa using hne)
    rw [compact_array]
    simpa [inside] using hr
  · intro indent
    have hc : List.Forall₂ Reads (items.map (indented (indent + 1))) written := by
      rw [List.forall₂_map_left_iff]
      exact h.imp fun _ _ hs => hs.2 (indent + 1)
    have hn : items.map (indented (indent + 1)) ≠ [] := by simpa using hne
    rw [indented_array, bracketed_eq_inside _ _ _ _ hn]
    exact reads_array _ _ _ (blank_lineBreak _) (blank_lineBreak _) (blank_lineBreak _) _ written
      hc hn

theorem spells_object (members : List (Text × Json Text)) (written : List (List Piece × Written))
    (h : List.Forall₂ SpellsMember members written) :
    Spells (.object members) (.object written) := by
  by_cases hne : members = []
  · subst hne
    cases h
    exact ⟨reads_empty, fun _ => reads_empty⟩
  constructor
  · have hc : List.Forall₂ ReadsMember (members.map compactMember) written := by
      rw [List.forall₂_map_left_iff]
      exact h.imp fun ⟨key, value⟩ _ hs =>
        ⟨key, [], compact value, rfl, blank_nil, hs.1.symm, hs.2.1⟩
    have hr := reads_object [] [] [] blank_nil blank_nil blank_nil _ written hc (by simpa using hne)
    rw [compact_object]
    simpa [inside] using hr
  · intro indent
    have hc : List.Forall₂ ReadsMember (members.map (indentedMember (indent + 1))) written := by
      rw [List.forall₂_map_left_iff]
      have hgap : Blank [' '] := by simp [Blank, isSpace]
      exact h.imp fun ⟨key, value⟩ _ hs =>
        ⟨key, [' '], indented (indent + 1) value, rfl, hgap, hs.1.symm, hs.2.2 (indent + 1)⟩
    have hn : members.map (indentedMember (indent + 1)) ≠ [] := by simpa using hne
    rw [indented_object, bracketed_eq_inside _ _ _ _ hn]
    exact reads_object _ _ _ (blank_lineBreak _) (blank_lineBreak _) (blank_lineBreak _) _ written
      hc hn

theorem read?_of_spells (value : Json Text) (written : Written) (h : Spells value written) :
    read? (compact value) = some written ∧ read? (pretty value) = some written :=
  ⟨read?_of_reads _ written h.1, read?_of_reads _ written (h.2 0)⟩

end Postal.Json.Grammar
