import Postal.Proofs.LookupKey.Suffix

/-!
# Blank segments

A blank segment ends the levels of a data key, whatever follows it, but decoding looks for one
after the segments from the fourth on are joined. A blank fourth segment with anything behind it
is no segment any more by then: the joined text has a slash in it and so is not blank. It is read
as the fourth level, with that slash in front, or refused for its dashes.
-/

set_option autoImplicit false

namespace Postal.LookupKey

open Text (Blank Doubled)

theorem slash_notMem_of_blank (t : Text) (h : Blank t) : '/' ∉ t :=
  fun hm => absurd (h '/' hm) (by decide)

/-- Segments in front of a blank one that become nodes. -/
def Plain (s : Text) : Prop := '/' ∉ s ∧ ¬Blank s ∧ ¬Doubled '-' s

instance (s : Text) : Decidable (Plain s) := inferInstanceAs (Decidable (_ ∧ _ ∧ _))

theorem Plain.readable {s : Text} (h : Plain s) : (Text.trimmed? s).isSome ∧ ¬Doubled '-' s :=
  ⟨Option.isSome_iff_ne_none.mpr fun hn => h.2.1 ((Text.trimmed?_eq_none_iff s).mp hn), h.2.2⟩

theorem Plain.ne_nil {s : Text} (h : Plain s) : s ≠ [] := by
  rintro rfl
  exact h.2.1 Text.blank_nil

theorem readLevels_blank (segs : List Text) (h : ∀ s ∈ segs.head?, Blank s) :
    readLevels segs = .ok ([], none) := by
  cases segs with
  | nil => rfl
  | cons segment rest =>
    rw [readLevels, (Text.trimmed?_eq_none_iff segment).mpr (h segment rfl)]

def keyOf (front : List Text) : LookupKey := { kind := .data, nodes := front.map Text.trim }

theorem readData_ends (segs front rest : List Text) (hf : ∀ s ∈ front, Plain s)
    (hsegs : fold segs = front ++ rest) (hrest : ∀ s ∈ rest.head?, Blank s) :
    readData segs = .ok (keyOf front) := by
  have hread : readLevels (front ++ rest) = .ok (front.map Text.trim, none) := by
    rw [readLevels_append front rest fun s hs => (hf s hs).readable, readLevels_blank rest hrest]
    simp only [ok_bind, List.append_nil]
    rfl
  rw [readData, hsegs, hread]
  rfl

theorem fold_shallow_blank (front rest : List Text) (blank : Text) (hl : front.length < 3) :
    ∃ more, fold (front ++ blank :: rest) = front ++ blank :: more := by
  by_cases hshort : (front ++ blank :: rest).length ≤ 4
  · exact ⟨rest, fold_of_length_le _ hshort⟩
  · obtain ⟨k, hk⟩ := Nat.exists_eq_add_of_lt hl
    have htake : (front ++ blank :: rest).take 3 = front ++ blank :: rest.take k := by
      rw [List.take_append, List.take_of_length_le hl.le, hk, Nat.add_assoc, Nat.add_sub_cancel_left,
        List.take_succ_cons]
    rw [fold_eq_concat _ (by omega), htake, List.append_assoc, List.cons_append]
    exact ⟨_, rfl⟩

theorem trimmed?_join_blank (blank next : Text) (rest : List Text) (hb : Blank blank) :
    ∃ tail, Text.trimmed? (Text.join ['/'] (blank :: next :: rest)) = some ('/' :: tail) := by
  rw [join_slash_cons, segments_cons, List.cons_append]
  exact Text.trimmed?_append_cons blank '/' _ hb (by decide)

theorem splitLanguage_slash (tail : Text) :
    (∃ node language, splitLanguage ('/' :: tail) = .ok ('/' :: node, language)) ∨
      splitLanguage ('/' :: tail) = .error (.malformedLanguage ('/' :: tail)) := by
  by_cases hd : Doubled '-' ('/' :: tail)
  · rcases splitLanguage_of_doubled _ hd with ⟨node, language, hs⟩ | hs
    · obtain ⟨raw, ⟨pairs, hv, -⟩, ht⟩ := (splitLanguage_eq_suffixed _ node language).mp hs
      cases raw with
      | nil => cases ht
      | cons c raw =>
        obtain rfl : '/' = c := (List.cons.inj hv).1
        obtain ⟨kept, hk⟩ := Text.trimmed?_append_cons [] '/' raw Text.blank_nil (by decide)
        obtain rfl : '/' :: kept = node := Option.some.inj (hk.symm.trans ht)
        exact .inl ⟨kept, some language, hs⟩
    · exact .inr hs
  · exact .inl ⟨tail, none, splitLanguage_plain _ hd⟩

/-- What is read where a blank fourth segment is joined with others. -/
def OpensFourth (front : List Text) (result : Except KeyError LookupKey) : Prop :=
  (∃ node language, result =
    .ok ⟨.data, .native, front.map Text.trim ++ ['/' :: node], language⟩) ∨
  ∃ segment, result = .error (.malformedLanguage segment)

theorem not_opensFourth_keyOf (front : List Text) : ¬OpensFourth front (.ok (keyOf front)) := by
  rintro (⟨node, language, h⟩ | ⟨segment, h⟩)
  · have hn := congrArg (fun r => (r.toOption.map LookupKey.depth).getD 0) h
    simp [keyOf, depth, Except.toOption] at hn
  · cases h

theorem readData_opens (front rest : List Text) (blank next : Text) (hf : ∀ s ∈ front, Plain s)
    (hb : Blank blank) (hl : front.length = 3) :
    OpensFourth front (readData (front ++ blank :: next :: rest)) := by
  obtain ⟨tail, ht⟩ := trimmed?_join_blank blank next rest hb
  have htake : (front ++ blank :: next :: rest).take 3 = front := List.take_left' hl
  have hdrop : (front ++ blank :: next :: rest).drop 3 = blank :: next :: rest :=
    List.drop_left' hl
  have hread := readLevels_fold (front ++ blank :: next :: rest) ('/' :: tail)
    (by rw [List.length_append, hl, List.length_cons]; omega)
    (by rw [htake]; exact fun s hs => (hf s hs).readable) (by rw [hdrop]; exact ht)
  rw [htake] at hread
  rw [readData, hread]
  rcases splitLanguage_slash tail with ⟨node, language, hs⟩ | hs
  · rw [hs]
    exact .inl ⟨node, language, rfl⟩
  · rw [hs]
    exact .inr ⟨_, rfl⟩

/-- The blank segment is still there behind the joining, or was dropped with the end of the text. -/
theorem exists_fold_eq (front after : List Text) (blank : Text) (hb : Blank blank)
    (hl : front.length ≤ 3) (h : front.length < 3 ∨ ∀ s ∈ after, s = []) :
    ∃ rest, fold (front ++ Text.dropEmptyEnd (blank :: after)) = front ++ rest ∧
      ∀ s ∈ rest.head?, Blank s := by
  have hhead : ∀ more : List Text, ∀ s ∈ (blank :: more).head?, Blank s := by
    rintro more s ⟨⟩
    exact hb
  by_cases hkept : blank ≠ [] ∨ Text.dropEmptyEnd after ≠ []
  · rw [Text.dropEmptyEnd_cons_of_ne_nil blank after hkept]
    rcases h with hshallow | hempty
    · obtain ⟨more, hmore⟩ := fold_shallow_blank front (Text.dropEmptyEnd after) blank hshallow
      exact ⟨blank :: more, hmore, hhead more⟩
    · rw [(Text.dropEmptyEnd_eq_nil_iff after).mpr hempty]
      refine ⟨[blank], fold_of_length_le _ ?_, hhead []⟩
      rw [List.length_append, List.length_singleton]
      omega
  · obtain ⟨hblank, hafter⟩ := not_or.mp hkept
    have hdropped : Text.dropEmptyEnd (blank :: after) = [] := by
      apply (Text.dropEmptyEnd_eq_nil_iff _).mpr
      exact List.forall_mem_cons.mpr ⟨not_not.mp hblank,
        (Text.dropEmptyEnd_eq_nil_iff after).mp (not_not.mp hafter)⟩
    rw [hdropped, List.append_nil]
    refine ⟨[], ?_, by simp⟩
    rw [List.append_nil, fold_of_length_le front (by omega)]

/-- A blank segment in one of the first three places ends the levels whatever follows, and one in
the fourth does so as long as nothing but empty segments follow. With anything else behind it the
fourth level begins with a slash, if the key is accepted at all. -/
theorem ends_at_blank_iff (front : List Text) (blank : Text) (after : List Text)
    (hf : ∀ s ∈ front, Plain s) (hb : Blank blank) (ha : ∀ s ∈ after, '/' ∉ s)
    (hl : front.length ≤ 3) :
    (decode (dataText (front ++ blank :: after) none) = .ok (keyOf front) ↔
      front.length < 3 ∨ ∀ s ∈ after, s = []) ∧
    (front.length = 3 → (∃ s ∈ after, s ≠ []) →
      OpensFourth front (decode (dataText (front ++ blank :: after) none))) := by
  have hs : ∀ s ∈ front ++ blank :: after, '/' ∉ s := by
    intro s hm
    rcases List.mem_append.mp hm with hm | hm
    · exact (hf s hm).1
    · rcases List.mem_cons.mp hm with rfl | hm
      · exact slash_notMem_of_blank s hb
      · exact ha s hm
  rw [decode_dataText _ hs, Text.dropEmptyEnd_append front _ fun s hs => (hf s hs).ne_nil]
  have hopens : front.length = 3 → (∃ s ∈ after, s ≠ []) →
      OpensFourth front (readData (front ++ Text.dropEmptyEnd (blank :: after))) := by
    rintro hdeep ⟨s, hm, hne⟩
    have hkept : Text.dropEmptyEnd after ≠ [] :=
      fun hc => hne ((Text.dropEmptyEnd_eq_nil_iff after).mp hc s hm)
    obtain ⟨next, rest, hnext⟩ := List.exists_cons_of_ne_nil hkept
    rw [Text.dropEmptyEnd_cons_of_ne_nil blank after (.inr hkept), hnext]
    exact readData_opens front rest blank next hf hb hdeep
  refine ⟨⟨fun h => ?_, fun h => ?_⟩, hopens⟩
  · by_contra hc
    obtain ⟨hdeep, hafter⟩ := not_or.mp hc
    have hresult := hopens (by omega) (by simpa using hafter)
    rw [h] at hresult
    exact not_opensFourth_keyOf front hresult
  · obtain ⟨rest, hfold, hrest⟩ := exists_fold_eq front after blank hb hl h
    exact readData_ends _ front rest hf hfold hrest

theorem ends_at_blank_iff_second :
    (∀ s ∈ [" US ".toList], Plain s) ∧ Blank " ".toList ∧
      decode "data/ US / /--x/B--en/C/D".toList = .ok ⟨.data, .native, ["US".toList], none⟩ := by
  have hf : ∀ s ∈ [" US ".toList], Plain s := by decide
  have hb : Blank " ".toList := by decide
  have hends := (ends_at_blank_iff [" US ".toList] " ".toList
    ["--x".toList, "B--en".toList, "C".toList, "D".toList] hf hb (by decide) (by decide)).1
  exact ⟨hf, hb, hends.mpr (.inl (by decide))⟩

/-- An empty fourth segment with another behind it becomes a fourth level. -/
theorem exists_opened_fourth :
    (∀ s ∈ ["A".toList, "B".toList, "C".toList], Plain s) ∧ Blank [] ∧ ¬Blank "E".toList ∧
      dataText (["A".toList, "B".toList, "C".toList] ++ [] :: ["E".toList]) none =
        "data/A/B/C//E".toList ∧
      decode "data/A/B/C//E".toList =
        .ok ⟨.data, .native, ["A".toList, "B".toList, "C".toList, "/E".toList], none⟩ ∧
      decode "data/A/B/C//E".toList ≠ .ok (keyOf ["A".toList, "B".toList, "C".toList]) := by
  refine ⟨by decide, by decide, by decide, rfl, rfl, ?_⟩
  decide

end Postal.LookupKey
