import Postal.Proofs.Envelope.Edges

/-!
# Rows of fields

A row is a template of single-valued fields with a literal before each but the
first. Pruning a row leaves the row of the fields that have a value, each with
the literal before it, but for the first of them, which loses its own. So the
one line that is printed holds the values with one literal between two of them,
however many fields are missing between them and at either end.
-/

set_option autoImplicit false

namespace Postal

theorem Field.code_ne_newline (f : Field) : f.code ≠ 'n' := by
  cases f <;> decide

namespace Envelope

abbrev Part := Text × Field

def partTokens (parts : List Part) : Template :=
  parts.flatMap fun p => [.literal p.1, .field p.2.code]

def row : List Part → Template
  | [] => []
  | p :: parts => .field p.2.code :: partTokens parts

def rowText (first : Field) (parts : List Part) : Text :=
  '%' :: first.code :: parts.flatMap fun p => p.1 ++ ['%', p.2.code]

def presentParts (a : Address) (parts : List Part) : List Part :=
  parts.filter fun p => a.hasValue p.2

def heldParts (a : Address) (parts : List Part) : List (Text × Text) :=
  parts.filterMap fun p => (a.value p.2).map fun v => (p.1, v)

/-- The values in one line, with the literals between them. -/
def written : List (Text × Text) → Text
  | [] => []
  | p :: rest => p.2 ++ rest.flatMap fun q => q.1 ++ q.2

theorem partTokens_cons (p : Part) (parts : List Part) :
    partTokens (p :: parts) = .literal p.1 :: .field p.2.code :: partTokens parts := rfl

theorem presentParts_cons_present (a : Address) (p : Part) (parts : List Part)
    (h : a.hasValue p.2 = true) : presentParts a (p :: parts) = p :: presentParts a parts :=
  List.filter_cons_of_pos h

theorem presentParts_cons_absent (a : Address) (p : Part) (parts : List Part)
    (h : a.hasValue p.2 = false) : presentParts a (p :: parts) = presentParts a parts :=
  List.filter_cons_of_neg (by simp [h])

/-! ## Reading -/

theorem tokens?_parts (parts : List Part) (h : ∀ p ∈ parts, p.1 ≠ [] ∧ '%' ∉ p.1) :
    Template.tokens? (parts.flatMap fun p => p.1 ++ ['%', p.2.code]) = some (partTokens parts) := by
  induction parts with
  | nil => rfl
  | cons p parts ih =>
    obtain ⟨⟨hne, hmark⟩, hparts⟩ := List.forall_mem_cons.mp h
    rw [List.flatMap_cons, List.append_assoc, partTokens_cons]
    apply Template.tokens?_run p.1 _ _ hne hmark
    · intro t ht
      cases ht
      rfl
    · exact Template.tokens?_code _ _ _ p.2.code_ne_newline (ih hparts)

theorem parse_rowText (first : Field) (parts : List Part)
    (h : ∀ p ∈ parts, p.1 ≠ [] ∧ '%' ∉ p.1) (separator : Text) :
    Template.parse (rowText first parts) = .ok (row ((separator, first) :: parts)) :=
  (Template.parse_eq_ok _ _).mpr
    (Template.tokens?_code _ _ _ first.code_ne_newline (tokens?_parts parts h))

/-! ## Pruning -/

theorem hasValue_code (a : Address) (f : Field) :
    hasValue a (.field f.code) = .ok (a.hasValue f) := by
  rw [hasValue, Field.ofCode_code]
  rfl

theorem stays_part (a : Address) (previous kept : Option Token) (p : Part) (rest : Template)
    (hp : previous.any Token.isField = true) :
    stays a previous kept (.field p.2.code :: rest) (.literal p.1) =
      .ok (a.hasValue p.2 && kept.any Token.isField) := by
  rw [stays, isFollowed, hasValue_code, hp]
  rfl

theorem pruneBehind_present (a : Address) (previous kept : Option Token) (f : Field)
    (rest : Template) (h : a.hasValue f = true) :
    pruneBehind a previous kept (.field f.code :: rest) = do
      return .field f.code ::
        (← pruneBehind a (some (.field f.code)) (some (.field f.code)) rest) :=
  pruneBehind_stays a previous kept _ rest (h ▸ hasValue_code a f)

theorem pruneBehind_absent (a : Address) (previous kept : Option Token) (f : Field)
    (rest : Template) (h : a.hasValue f = false) :
    pruneBehind a previous kept (.field f.code :: rest) =
      pruneBehind a (some (.field f.code)) kept rest :=
  pruneBehind_drops a previous kept _ rest (h ▸ hasValue_code a f)

theorem pruneBehind_parts (a : Address) (previous kept : Option Token) (parts : List Part)
    (hp : previous.any Token.isField = true) (hk : kept.any Token.isField = true) :
    pruneBehind a previous kept (partTokens parts) =
      .ok (partTokens (presentParts a parts)) := by
  induction parts generalizing previous kept with
  | nil => rfl
  | cons p parts ih =>
    have hliteral := stays_part a previous kept p (partTokens parts) hp
    rw [hk, Bool.and_true] at hliteral
    rw [partTokens_cons]
    cases h : a.hasValue p.2 with
    | true =>
      rw [h] at hliteral
      rw [pruneBehind_stays a _ _ _ _ hliteral, pruneBehind_present a _ _ p.2 _ h,
        ih (some (.field p.2.code)) _ rfl rfl, presentParts_cons_present a p parts h]
      rfl
    | false =>
      rw [h] at hliteral
      rw [pruneBehind_drops a _ _ _ _ hliteral, pruneBehind_absent a _ _ p.2 _ h,
        ih (some (.field p.2.code)) kept rfl hk, presentParts_cons_absent a p parts h]

theorem pruneBehind_head (a : Address) (previous kept : Option Token) (p : Part)
    (parts : List Part) (h : a.hasValue p.2 = true) :
    pruneBehind a previous kept (.field p.2.code :: partTokens parts) =
      .ok (row (presentParts a (p :: parts))) := by
  rw [pruneBehind_present a _ _ p.2 _ h, presentParts_cons_present a p parts h,
    pruneBehind_parts a (some (.field p.2.code)) (some (.field p.2.code)) parts rfl rfl]
  rfl

/-- As long as no field is kept literals go, and the first field that stays has lost its own. -/
theorem pruneBehind_parts_row (a : Address) (previous kept : Option Token) (parts : List Part)
    (hp : previous.any Token.isField = true) (hk : kept.any Token.isField = false) :
    pruneBehind a previous kept (partTokens parts) =
      .ok (row (presentParts a parts)) := by
  induction parts generalizing previous with
  | nil => rfl
  | cons p parts ih =>
    have hliteral := stays_part a previous kept p (partTokens parts) hp
    rw [hk, Bool.and_false] at hliteral
    rw [partTokens_cons, pruneBehind_drops a _ _ _ _ hliteral]
    cases h : a.hasValue p.2 with
    | true => exact pruneBehind_head a _ kept p parts h
    | false =>
      rw [pruneBehind_absent a _ _ p.2 _ h, presentParts_cons_absent a p parts h]
      exact ih (some (.field p.2.code)) rfl

theorem prune_row (a : Address) (parts : List Part) :
    prune a (row parts) = .ok (row (presentParts a parts)) := by
  cases parts with
  | nil => rfl
  | cons p parts =>
    rw [prune, row]
    cases h : a.hasValue p.2 with
    | true => exact pruneBehind_head a none none p parts h
    | false =>
      rw [pruneBehind_absent a _ _ p.2 _ h, presentParts_cons_absent a p parts h]
      exact pruneBehind_parts_row a (some (.field p.2.code)) none parts rfl rfl

/-! ## Rendering -/

theorem renderFrom_code (a : Address) (line : Text) (f : Field) (rest : Template)
    (hc : f ≠ .country) (hs : f ≠ .streetAddress) :
    renderFrom a line (.field f.code :: rest) =
      renderFrom a (line ++ (a.value f).getD []) rest := by
  rw [renderFrom, Field.ofCode_code]
  cases f <;> first | exact absurd rfl hc | exact absurd rfl hs | rfl

theorem renderFrom_parts (a : Address) (line : Text) (parts : List Part)
    (h : ∀ p ∈ parts, p.2 ≠ .country ∧ p.2 ≠ .streetAddress) :
    renderFrom a line (partTokens parts) =
      .ok (finish (line ++ parts.flatMap fun p => p.1 ++ (a.value p.2).getD [])) := by
  induction parts generalizing line with
  | nil => rw [List.flatMap_nil, List.append_nil]; rfl
  | cons p parts ih =>
    obtain ⟨⟨hc, hs⟩, hparts⟩ := List.forall_mem_cons.mp h
    rw [partTokens_cons, renderFrom, renderFrom_code a _ p.2 _ hc hs, ih _ hparts,
      List.flatMap_cons, List.append_assoc, List.append_assoc, List.append_assoc]

theorem heldParts_eq (a : Address) (parts : List Part) :
    heldParts a parts =
      (presentParts a parts).map fun p => (p.1, (a.value p.2).getD []) := by
  induction parts with
  | nil => rfl
  | cons p parts ih =>
    have hv := a.hasValue_eq_isSome p.2
    cases hp : a.value p.2 with
    | none =>
      rw [hp] at hv
      rw [heldParts, List.filterMap_cons_none (by rw [hp]; rfl), presentParts_cons_absent a p parts hv]
      exact ih
    | some v =>
      rw [hp] at hv
      rw [heldParts, List.filterMap_cons_some (by rw [hp]; rfl),
        presentParts_cons_present a p parts hv, List.map_cons, hp, ← ih]
      rfl

theorem render_row (a : Address) (parts : List Part)
    (h : ∀ p ∈ parts, p.2 ≠ .country ∧ p.2 ≠ .streetAddress) :
    render a (row parts) =
      .ok (finish (written (parts.map fun p => (p.1, (a.value p.2).getD [])))) := by
  cases parts with
  | nil => rfl
  | cons p parts =>
    obtain ⟨⟨hc, hs⟩, hparts⟩ := List.forall_mem_cons.mp h
    rw [render, row, renderFrom_code a _ p.2 _ hc hs, renderFrom_parts a _ parts hparts,
      List.nil_append, List.map_cons, written, List.flatMap_map]

theorem lines_row (a : Address) (parts : List Part)
    (h : ∀ p ∈ parts, p.2 ≠ .country ∧ p.2 ≠ .streetAddress) :
    lines a (row parts) = .ok (finish (written (heldParts a parts))) := by
  rw [lines, prune_row, heldParts_eq]
  exact render_row a _ fun p hp => h p (List.mem_filter.mp hp).1

theorem value_ne_nil (a : Address) (ha : a.Built) (f : Field) (hs : f ≠ .streetAddress) (v : Text)
    (h : a.value f = some v) : v ≠ [] := by
  obtain ⟨t, ht, hbegins⟩ := (value_edges a f v hs h).1
  rintro rfl
  exact holds_ne_nil a ha t ht (List.prefix_nil.mp hbegins)

theorem written_ne_nil (a : Address) (ha : a.Built) (parts : List Part)
    (h : ∀ p ∈ parts, p.2 ≠ .streetAddress) (hne : heldParts a parts ≠ []) :
    written (heldParts a parts) ≠ [] := by
  obtain ⟨q, rest, hq⟩ := List.exists_cons_of_ne_nil hne
  have hmem : q ∈ heldParts a parts := hq ▸ List.mem_cons_self
  obtain ⟨p, hp, hmap⟩ := List.mem_filterMap.mp hmem
  obtain ⟨v, hv, rfl⟩ := Option.map_eq_some_iff.mp hmap
  rw [hq, written]
  exact List.append_ne_nil_of_left_ne_nil (value_ne_nil a ha p.2 (h p hp) v hv) _

theorem heldParts_eq_nil (a : Address) (parts : List Part) :
    heldParts a parts = [] ↔ (parts.map Prod.snd).any a.hasValue = false := by
  rw [heldParts_eq, List.map_eq_nil_iff, presentParts, List.filter_eq_nil_iff, List.any_map,
    List.any_eq_false]
  rfl

theorem heldParts_values (a : Address) (parts : List Part) :
    (heldParts a parts).map Prod.snd = (parts.map Prod.snd).filterMap a.value := by
  rw [heldParts, List.map_filterMap, List.filterMap_map]
  congr 1
  funext p
  simp

theorem heldParts_cons (a : Address) (p : Part) (parts : List Part) :
    heldParts a (p :: parts) = ((a.value p.2).map fun v => (p.1, v)).toList ++ heldParts a parts := by
  rw [heldParts, List.filterMap_cons]
  cases a.value p.2 <;> rfl

/-- If the same literal stands before every value but the first, it joins the values. -/
theorem written_eq_join (separator : Text) (held : List (Text × Text))
    (h : ∀ q ∈ held.tail, q.1 = separator) :
    written held = Text.join separator (held.map Prod.snd) := by
  cases held with
  | nil => rfl
  | cons p rest =>
    rw [written, List.map_cons, Text.join_cons, List.flatMap_map]
    congr 1
    exact List.flatMap_congr fun q hq => by rw [h q hq]

theorem tail_heldParts (a : Address) (separator : Text) (p : Part) (parts : List Part)
    (h : ∀ q ∈ parts, q.1 = separator) : ∀ q ∈ (heldParts a (p :: parts)).tail, q.1 = separator := by
  have hparts : ∀ q ∈ heldParts a parts, q.1 = separator := by
    intro q hq
    obtain ⟨r, hr, hmap⟩ := List.mem_filterMap.mp hq
    obtain ⟨v, -, rfl⟩ := Option.map_eq_some_iff.mp hmap
    exact h r hr
  rw [heldParts_cons]
  cases a.value p.2 with
  | none => exact fun q hq => hparts q (List.mem_of_mem_tail hq)
  | some v => exact hparts

/-- A row prints the values of its populated fields in one line, with the literal before each
but the first, and no line if there are none. If all literals are the same the line is the values
joined by it. -/
theorem lines_rowText (a : Address) (ha : a.Built) (first : Field) (parts : List Part)
    (hfields : ∀ f ∈ first :: parts.map Prod.snd, f ≠ .country ∧ f ≠ .streetAddress)
    (hliterals : ∀ p ∈ parts, p.1 ≠ [] ∧ '%' ∉ p.1) :
    ∃ template, Template.parse (rowText first parts) = .ok template ∧
      lines a template = .ok
        (if (first :: parts.map Prod.snd).any a.hasValue then
          [written (heldParts a (([], first) :: parts))] else []) ∧
      ∀ separator, (∀ p ∈ parts, p.1 = separator) →
        written (heldParts a (([], first) :: parts)) =
          Text.join separator ((first :: parts.map Prod.snd).filterMap a.value) := by
  have hparts : ∀ p ∈ ([], first) :: parts, p.2 ≠ .country ∧ p.2 ≠ .streetAddress :=
    fun p hp => hfields p.2 (List.mem_map_of_mem (f := Prod.snd) hp)
  refine ⟨_, parse_rowText first parts hliterals [], ?_, ?_⟩
  · rw [lines_row a _ hparts]
    have hnil := heldParts_eq_nil a (([], first) :: parts)
    rw [List.map_cons] at hnil
    cases hany : (first :: parts.map Prod.snd).any a.hasValue with
    | false =>
      rw [hnil.mpr hany]
      rfl
    | true =>
      have hne : heldParts a (([], first) :: parts) ≠ [] := by
        rw [ne_eq, hnil, hany]
        exact Bool.noConfusion
      exact congrArg _ (finish_of_ne_nil _
        (written_ne_nil a ha _ (fun p hp => (hparts p hp).2) hne))
  · intro separator hsame
    rw [written_eq_join separator _ (tail_heldParts a separator _ parts hsame), heldParts_values]
    rfl

theorem lines_rowText_gaps :
    ∃ a : Address, a.Built ∧ ∃ template,
      Template.parse "%N, %C - %S/%1; %C, %X".toList = .ok template ∧
      lines a template = .ok ["Rome/Via A; Rome".toList] := by
  have ha := Address.Built.drafted [.single .locality "Rome".toList, .street "Via A\n3".toList]
    (by simp)
  obtain ⟨template, hread, hlines, -⟩ := lines_rowText _ ha .recipient
    [(", ".toList, .locality), (" - ".toList, .adminArea), (['/'], .addressLine1),
      ("; ".toList, .locality), (", ".toList, .sortingCode)] (by decide) (by decide)
  exact ⟨_, ha, template, hread, hlines⟩

end Envelope
end Postal
