import Postal.Proofs.Address.Trimmed
import Postal.Proofs.LookupKey.Reading

/-!
# Keys that collide

Keys are the same if their canonical texts are, and a text does not mark the separators that a
value holds itself. So a slash or two dashes within a value of one address may be the separator
that another address writes there, and the keys of the two places are the same. There is no
other way: the texts of two keys are compared from the left, and at the first level where the
values differ one of them goes on with a separator of the other key.
-/

set_option autoImplicit false

namespace Postal.LookupKey

open Text (Doubled)

/-- The data key of an address, as a new key takes it over. -/
def ofAddress (a : Address) : LookupKey := setAddress { kind := .data } a

def dashed : Option Text → Text
  | none => []
  | some language => '-' :: '-' :: language

/-- Levels and language as they are written behind the kind. -/
def written (nodes : List Text) (language : Option Text) : Text := segments nodes ++ dashed language

@[simp] theorem written_cons (node : Text) (nodes : List Text) (language : Option Text) :
    written (node :: nodes) language = '/' :: (node ++ written nodes language) := by
  simp [written]

theorem text_ofAddress (a : Address) (h : (a.value .country).isSome) :
    (ofAddress a).text =
      KeyKind.data.name ++ written (leadingValues a Field.hierarchy) a.language := by
  obtain ⟨node, nodes, hn⟩ := List.exists_cons_of_ne_nil (leadingValues_ne_nil a h)
  have ht : (ofAddress a).text =
      KeyKind.data.name ++ segments (ofAddress a).nodes ++ (ofAddress a).languageSuffix := rfl
  have hnodes : (ofAddress a).nodes = node :: nodes := hn
  have hlanguage : (ofAddress a).language = a.language := rfl
  rw [ht, languageSuffix, hnodes, hlanguage, hn, written, List.append_assoc]
  cases a.language <;> rfl

/-- The values agree down to some level. There the second key has as part of its value what the
first writes as a separator, and behind that separator both write the same. -/
inductive Absorbs : List Text → Option Text → List Text → Option Text → Prop
  | slash (value next more : Text) (deeper below : List Text) (language tag : Option Text)
      (h : next ++ written deeper language = more ++ written below tag) :
      Absorbs (value :: next :: deeper) language ((value ++ '/' :: more) :: below) tag
  | dashes (value more : Text) (below : List Text) (tag : Option Text) :
      Absorbs [value] (some (more ++ written below tag))
        ((value ++ '-' :: '-' :: more) :: below) tag
  | dash (value tag : Text) : Absorbs [value] (some ('-' :: tag)) [value ++ ['-']] (some tag)
  | deeper (value : Text) (nodes others : List Text) (language tag : Option Text)
      (h : Absorbs nodes language others tag) :
      Absorbs (value :: nodes) language (value :: others) tag

theorem written_eq_of_absorbs (nodes others : List Text) (language tag : Option Text)
    (h : Absorbs nodes language others tag) : written nodes language = written others tag := by
  induction h with
  | slash value next more deeper below language tag h =>
    rw [written_cons, written_cons, written_cons, h]
    simp
  | dashes value more below tag => simp [written, dashed]
  | dash value tag => simp [written, dashed]
  | deeper value nodes others language tag h ih => rw [written_cons, written_cons, ih]

theorem append_eq_cases (s t s' t' : Text) (h : s ++ t = s' ++ t') :
    (s = s' ∧ t = t') ∨ (∃ rest, rest ≠ [] ∧ s' = s ++ rest ∧ t = rest ++ t') ∨
      ∃ rest, rest ≠ [] ∧ s = s' ++ rest ∧ t' = rest ++ t := by
  rcases List.append_eq_append_iff.mp h with ⟨rest, hs, ht⟩ | ⟨rest, hs, ht⟩
  · by_cases hr : rest = []
    · exact .inl ⟨by simp [hs, hr], by simp [ht, hr]⟩
    · exact .inr (.inl ⟨rest, hr, hs, ht⟩)
  · by_cases hr : rest = []
    · exact .inl ⟨by simp [hs, hr], by simp [ht, hr]⟩
    · exact .inr (.inr ⟨rest, hr, hs, ht⟩)

/-- The longer of two values takes in the separator that the shorter one is followed by. -/
theorem absorbs_of_longer (value rest : Text) (nodes others : List Text)
    (language tag : Option Text) (hr : rest ≠ [])
    (h : written nodes language = rest ++ written others tag) :
    Absorbs (value :: nodes) language ((value ++ rest) :: others) tag := by
  obtain ⟨c, more, rfl⟩ := List.exists_cons_of_ne_nil hr
  cases nodes with
  | cons next deeper =>
    rw [written_cons, List.cons_append] at h
    injection h with hc h
    subst hc
    exact .slash value next more deeper others language tag h
  | nil =>
    cases language with
    | none => cases h
    | some found =>
      have hdash : '-' :: '-' :: found = c :: (more ++ written others tag) := h
      injection hdash with hc hmore
      subst hc
      cases more with
      | cons d more =>
        injection hmore with hd hfound
        subst hd hfound
        exact .dashes value more others tag
      | nil =>
        -- One dash of two: the other is the first of those that the longer value is followed by.
        have hone : '-' :: found = written others tag := hmore
        cases others with
        | cons other others =>
          rw [written_cons] at hone
          cases hone
        | nil =>
          cases tag with
          | none => cases hone
          | some tag =>
            have htwo : '-' :: found = '-' :: '-' :: tag := hone
            injection htwo with _ hfound
            subst hfound
            exact .dash value tag

theorem written_nil_ne_cons (node : Text) (nodes : List Text) (language tag : Option Text) :
    written [] language ≠ written (node :: nodes) tag := by
  intro h
  rw [written_cons] at h
  cases language <;> cases h

theorem dashed_injective : Function.Injective dashed := by
  intro language tag h
  cases language <;> cases tag <;> cases h <;> rfl

theorem absorbs_of_written_eq (nodes others : List Text) (language tag : Option Text)
    (hn : nodes ≠ []) (ho : others ≠ []) (h : written nodes language = written others tag) :
    (nodes = others ∧ language = tag) ∨ Absorbs nodes language others tag ∨
      Absorbs others tag nodes language := by
  induction nodes generalizing others with
  | nil => exact absurd rfl hn
  | cons value nodes ih =>
    obtain ⟨other, others, rfl⟩ := List.exists_cons_of_ne_nil ho
    rw [written_cons, written_cons, List.cons_inj_right] at h
    rcases append_eq_cases _ _ _ _ h with
      ⟨rfl, hb⟩ | ⟨rest, hr, rfl, hb⟩ | ⟨rest, hr, rfl, hb⟩
    · cases nodes with
      | nil =>
        cases others with
        | nil => exact .inl ⟨rfl, dashed_injective hb⟩
        | cons next others => exact absurd hb (written_nil_ne_cons next others language tag)
      | cons next nodes =>
        cases others with
        | nil => exact absurd hb.symm (written_nil_ne_cons next nodes tag language)
        | cons last others =>
          rcases ih (last :: others) (by simp) (by simp) hb with ⟨hnodes, hl⟩ | ha | ha
          · exact .inl ⟨congrArg (value :: ·) hnodes, hl⟩
          · exact .inr (.inl (.deeper value _ _ _ _ ha))
          · exact .inr (.inr (.deeper value _ _ _ _ ha))
    · exact .inr (.inl (absorbs_of_longer value rest nodes others language tag hr hb))
    · exact .inr (.inr (absorbs_of_longer other rest others nodes tag language hr hb))

/-- No value has a separator that another address could write there: none of the first three holds
a slash, none holds two dashes, and the language does not begin with one. -/
structure Separable (a : Address) : Prop where
  slash : ∀ value ∈ (leadingValues a Field.hierarchy).take 3, '/' ∉ value
  dashes : ∀ value ∈ leadingValues a Field.hierarchy, ¬Doubled '-' value
  dash : ∀ tag ∈ a.language, tag.head? ≠ some '-'

/-- With `room` levels below the first, only as many values can be followed by a slash. -/
theorem separator_of_absorbs (nodes others : List Text) (language tag : Option Text)
    (h : Absorbs nodes language others tag) (room : ℕ) (hd : nodes.length ≤ room + 1) :
    (∃ value ∈ others.take room, '/' ∈ value) ∨ (∃ value ∈ others, Doubled '-' value) ∨
      ∃ found ∈ language, found.head? = some '-' := by
  induction h generalizing room with
  | slash value next more deeper below language tag h =>
    left
    obtain ⟨room, rfl⟩ : ∃ r, room = r + 1 := ⟨room - 1, by simp at hd; omega⟩
    exact ⟨value ++ '/' :: more, by simp, by simp⟩
  | dashes value more below tag =>
    right; left
    exact ⟨value ++ '-' :: '-' :: more, by simp, value, more, by simp⟩
  | dash value tag => exact .inr (.inr ⟨'-' :: tag, rfl, rfl⟩)
  | deeper value nodes others language tag h ih =>
    have hpos : nodes ≠ [] := by rintro rfl; cases h
    have hlen := List.length_pos_iff.mpr hpos
    obtain ⟨room, rfl⟩ : ∃ r, room = r + 1 := ⟨room - 1, by simp at hd; omega⟩
    rcases ih room (by simpa using hd) with ⟨found, hm, hc⟩ | ⟨found, hm, hc⟩ | hdash
    · exact .inl ⟨found, by simp [hm], hc⟩
    · exact .inr (.inl ⟨found, by simp [hm], hc⟩)
    · exact .inr (.inr hdash)

theorem not_absorbs_of_separable (a b : Address) (ha : Separable a) (hb : Separable b) :
    ¬Absorbs (leadingValues a Field.hierarchy) a.language
      (leadingValues b Field.hierarchy) b.language := by
  intro h
  rcases separator_of_absorbs _ _ _ _ h 3 (leadingValues_length a Field.hierarchy) with
    ⟨value, hm, hc⟩ | ⟨value, hm, hc⟩ | ⟨tag, hm, hc⟩
  · exact hb.slash value hm hc
  · exact hb.dashes value hm hc
  · exact ha.dash tag hm hc

def SamePlace (a b : Address) : Prop :=
  leadingValues a Field.hierarchy = leadingValues b Field.hierarchy ∧ a.language = b.language

/-- The keys of two addresses with a country are the same exactly if the addresses have the same
leading values and the same language, or one holds as part of a value what the other writes as a
separator. So they tell apart all places whose texts have no separators within them. -/
theorem same_ofAddress_iff (a b : Address) (ha : (a.value .country).isSome)
    (hb : (b.value .country).isSome) :
    ((ofAddress a).same (ofAddress b) ↔ SamePlace a b ∨
      Absorbs (leadingValues a Field.hierarchy) a.language
        (leadingValues b Field.hierarchy) b.language ∨
      Absorbs (leadingValues b Field.hierarchy) b.language
        (leadingValues a Field.hierarchy) a.language) ∧
    (Separable a → Separable b → ((ofAddress a).same (ofAddress b) ↔ SamePlace a b)) := by
  have hiff : (ofAddress a).same (ofAddress b) ↔ SamePlace a b ∨
      Absorbs (leadingValues a Field.hierarchy) a.language
        (leadingValues b Field.hierarchy) b.language ∨
      Absorbs (leadingValues b Field.hierarchy) b.language
        (leadingValues a Field.hierarchy) a.language := by
    rw [same, beq_iff_eq, text_ofAddress a ha, text_ofAddress b hb, List.append_cancel_left_eq]
    constructor
    · exact absorbs_of_written_eq _ _ _ _ (leadingValues_ne_nil a ha) (leadingValues_ne_nil b hb)
    · rintro (⟨hnodes, hl⟩ | h | h)
      · rw [hnodes, hl]
      · exact written_eq_of_absorbs _ _ _ _ h
      · exact (written_eq_of_absorbs _ _ _ _ h).symm
  refine ⟨hiff, fun hsa hsb => ?_⟩
  rw [hiff, or_iff_left]
  rintro (h | h)
  · exact not_absorbs_of_separable a b hsa hsb h
  · exact not_absorbs_of_separable b a hsb hsa h

def located (levels : List Text) (language : Option Text) : Address :=
  (Draft.run ((Field.hierarchy.zip levels).map (fun level => .single level.1 level.2) ++
    language.toList.map .language) {}).build

theorem built_located (levels : List Text) (language : Option Text) :
    (located levels language).Built :=
  .drafted _ (by simp)

theorem same_ofAddress_iff_joined :
    ((located ["CH".toList, "Biel".toList, "Bienne".toList] (some "fr".toList)).value
        .country).isSome ∧
      ((located ["CH".toList, "Biel-Bienne".toList] (some "fr".toList)).value .country).isSome ∧
      Separable (located ["CH".toList, "Biel".toList, "Bienne".toList] (some "fr".toList)) ∧
      Separable (located ["CH".toList, "Biel-Bienne".toList] (some "fr".toList)) ∧
      ¬(ofAddress (located ["CH".toList, "Biel".toList, "Bienne".toList] (some "fr".toList))).same
        (ofAddress (located ["CH".toList, "Biel-Bienne".toList] (some "fr".toList))) := by
  have hsa : Separable (located ["CH".toList, "Biel".toList, "Bienne".toList]
      (some "fr".toList)) := ⟨by decide +kernel, by decide +kernel, by decide +kernel⟩
  have hsb : Separable (located ["CH".toList, "Biel-Bienne".toList] (some "fr".toList)) :=
    ⟨by decide +kernel, by decide +kernel, by decide +kernel⟩
  refine ⟨rfl, rfl, hsa, hsb, fun h => ?_⟩
  obtain ⟨hlevels, -⟩ := ((same_ofAddress_iff _ _ rfl rfl).2 hsa hsb).mp h
  exact absurd hlevels (by decide +kernel)

/-- Places with a slash or two dashes within the locality, and with a dash at its end, each beside
another place of the same key. -/
theorem exists_same_not_samePlace :
    (∃ a b : Address, a.Built ∧ b.Built ∧
      (a.value .country).isSome ∧ (b.value .country).isSome ∧
      a.value .locality = some "Biel/Bienne".toList ∧
      b.value .locality = some "Biel".toList ∧ b.value .dependentLocality = some "Bienne".toList ∧
      (ofAddress a).same (ofAddress b) ∧ ¬SamePlace a b) ∧
    (∃ a b : Address, a.Built ∧ b.Built ∧
      (a.value .country).isSome ∧ (b.value .country).isSome ∧
      a.value .locality = some "Biel--fr".toList ∧ a.language = none ∧
      b.value .locality = some "Biel".toList ∧ b.language = some "fr".toList ∧
      (ofAddress a).same (ofAddress b) ∧ ¬SamePlace a b) ∧
    ∃ a b : Address, a.Built ∧ b.Built ∧
      (a.value .country).isSome ∧ (b.value .country).isSome ∧
      a.value .locality = some "Biel-".toList ∧ a.language = some "fr".toList ∧
      b.value .locality = some "Biel".toList ∧ b.language = some "-fr".toList ∧
      (ofAddress a).same (ofAddress b) ∧ ¬SamePlace a b := by
  refine ⟨⟨located ["CH".toList, "BE".toList, "Biel/Bienne".toList] none,
      located ["CH".toList, "BE".toList, "Biel".toList, "Bienne".toList] none,
      built_located _ _, built_located _ _, rfl, rfl, rfl, rfl, rfl, rfl, ?_⟩,
    ⟨located ["CH".toList, "BE".toList, "Biel--fr".toList] none,
      located ["CH".toList, "BE".toList, "Biel".toList] (some "fr".toList),
      built_located _ _, built_located _ _, rfl, rfl, rfl, rfl, rfl, rfl, rfl, ?_⟩,
    located ["CH".toList, "BE".toList, "Biel-".toList] (some "fr".toList),
    located ["CH".toList, "BE".toList, "Biel".toList] (some "-fr".toList),
    built_located _ _, built_located _ _, rfl, rfl, rfl, rfl, rfl, rfl, rfl, ?_⟩
  · exact fun h => absurd h.1 (by decide +kernel)
  · exact fun h => absurd h.2 (by decide +kernel)
  · exact fun h => absurd h.2 (by decide +kernel)

end Postal.LookupKey
