import Mathlib.Logic.Relation
import Postal.Proofs.LookupKey.RoundTrip

/-!
# Languages before the last segment

Behind a segment with a language no further node may follow, and decoding
says so, but it looks for the language after the segments from the fourth on
are joined. Within the joined text the slashes behind the dashes belong to the
language. So decoding accepts such a text exactly if the joined part reads as
one node with its language, and a language with a slash comes from nowhere
else. No parent that has a node left can then be written: at its level the same
language is cut at the slash.
-/

set_option autoImplicit false

namespace Postal.LookupKey

open Text (Doubled Parted Tidy)

/-! ## Slashes in a language -/

theorem doubled_trimmed?_iff (segment value : Text) (h : Text.trimmed? segment = some value) :
    Doubled '-' value ↔ Doubled '-' segment :=
  Text.infix_trimmed?_iff _ segment value (by decide) h

/-- A stretch from the dashes to a slash ends in the language, as none lies
before the cut. -/
theorem slash_mem_language_iff (raw language : Text) (pairs : ℕ) (hd : ¬Doubled '-' raw) :
    '/' ∈ language ↔ ∃ between, '-' :: '-' :: between ++ ['/'] <:+:
      raw ++ '-' :: '-' :: language ++ List.replicate (2 * pairs) '-' := by
  constructor
  · intro h
    obtain ⟨between, after, rfl⟩ := List.append_of_mem h
    exact ⟨between, raw, after ++ List.replicate (2 * pairs) '-', by simp⟩
  · rintro ⟨between, before, after, h⟩
    have hs : (before ++ '-' :: '-' :: between) ++ '/' :: after =
        raw ++ ('-' :: '-' :: language ++ List.replicate (2 * pairs) '-') := by
      simpa using h
    rcases List.append_eq_append_iff.mp hs with ⟨rest, hraw, -⟩ | ⟨rest, -, htail⟩
    · exact absurd ⟨before, between ++ rest, by simp [hraw]⟩ hd
    · have hm : '/' ∈ '-' :: '-' :: language ++ List.replicate (2 * pairs) '-' := by
        simp [htail]
      simpa using hm

theorem doubled_before_slash_iff (pieces : List Text) (value : Text) (hne : pieces ≠ [])
    (hs : ∀ s ∈ pieces, '/' ∉ s) (ht : Text.trimmed? (Text.join ['/'] pieces) = some value) :
    (∃ s ∈ pieces.dropLast, Doubled '-' s) ↔
      ∃ between, '-' :: '-' :: between ++ ['/'] <:+: value := by
  have h := Text.doubled_before_iff '-' '/' (Text.join ['/'] pieces) (by decide)
  rw [Text.splitOn_join '/' pieces hne hs] at h
  rw [h]
  apply exists_congr
  intro between
  have htidy : Tidy ('-' :: '-' :: between ++ ['/']) := by
    constructor
    · rfl
    · rw [List.getLast?_concat]
      rfl
  exact (Text.infix_trimmed?_iff _ _ value htidy ht).symm

/-! ## Accepted and refused texts -/

/-- Decoding fails because of the language, whose form or place is wrong. -/
def FailsOnLanguage {α : Type} (result : Except KeyError α) : Prop :=
  ∃ segment, result = .error (.malformedLanguage segment) ∨
    result = .error (.misplacedLanguage segment)

theorem failsOnLanguage_bind {α β : Type} (x : Except KeyError α) (f : α → Except KeyError β)
    (h : FailsOnLanguage x) : FailsOnLanguage (x >>= f) := by
  obtain ⟨segment, rfl | rfl⟩ := h
  · exact ⟨segment, .inl rfl⟩
  · exact ⟨segment, .inr rfl⟩

theorem not_failsOnLanguage_ok {α : Type} (a : α) :
    ¬FailsOnLanguage (.ok a : Except KeyError α) := by
  rintro ⟨segment, h | h⟩ <;> cases h

theorem readLevels_misplaced (segs : List Text) (hn : ∀ s ∈ segs, (Text.trimmed? s).isSome)
    (h : ∃ s ∈ segs.dropLast, Doubled '-' s) : FailsOnLanguage (readLevels segs) := by
  induction segs with
  | nil => simp at h
  | cons segment rest ih =>
    obtain ⟨hsegment, hrest⟩ := List.forall_mem_cons.mp hn
    obtain ⟨value, hv⟩ := Option.isSome_iff_exists.mp hsegment
    cases rest with
    | nil => simp at h
    | cons next more =>
      rw [readLevels, hv]
      simp only
      by_cases hd : Doubled '-' segment
      · rcases splitLanguage_of_doubled value ((doubled_trimmed?_iff segment value hv).mpr hd) with
          ⟨node, language, hs⟩ | hs
        · obtain ⟨found, hf⟩ := Option.isSome_iff_exists.mp (hrest next (by simp))
          refine ⟨found, .inr ?_⟩
          simp [hs, hf]
        · apply failsOnLanguage_bind
          exact ⟨value, .inl hs⟩
      · have hplain := splitLanguage_plain value
          fun hc => hd ((doubled_trimmed?_iff segment value hv).mp hc)
        have hlater : ∃ s ∈ (next :: more).dropLast, Doubled '-' s := by
          obtain ⟨s, hm, hs⟩ := h
          rw [List.dropLast_cons_of_ne_nil (List.cons_ne_nil next more)] at hm
          rcases List.mem_cons.mp hm with rfl | hm
          · exact absurd hs hd
          · exact ⟨s, hm, hs⟩
        rw [hplain]
        exact failsOnLanguage_bind (readLevels (next :: more))
          (fun found => .ok (value :: found.1, found.2)) (ih hrest hlater)

theorem readLevels_append (front rest : List Text)
    (hf : ∀ s ∈ front, (Text.trimmed? s).isSome ∧ ¬Doubled '-' s) :
    readLevels (front ++ rest) = do
      let (nodes, language) ← readLevels rest
      return (front.map Text.trim ++ nodes, language) := by
  induction front with
  | nil =>
    cases hr : readLevels rest <;> simp [hr]
  | cons segment front ih =>
    obtain ⟨⟨hsegment, hd⟩, hfront⟩ := List.forall_mem_cons.mp hf
    obtain ⟨value, hv⟩ := Option.isSome_iff_exists.mp hsegment
    have hplain := splitLanguage_plain value
      fun hc => hd ((doubled_trimmed?_iff segment value hv).mp hc)
    have ht := ((Text.trimmed?_eq_some segment value).mp hv).1
    rw [List.cons_append, readLevels, hv]
    simp only [hplain, ih hfront]
    cases hr : readLevels rest <;> simp [ht]

theorem readLevels_singleton (segment value : Text) (hv : Text.trimmed? segment = some value) :
    readLevels [segment] = do
      let (node, language) ← splitLanguage value
      return ([node], language) := by
  rw [readLevels, hv]
  simp only
  rcases splitLanguage value with e | ⟨node, none | language⟩ <;> rfl

theorem fold_of_length_le (segs : List Text) (h : segs.length ≤ 4) : fold segs = segs := by
  unfold fold
  split
  · simp only [List.length_cons] at h
    omega
  · rfl

theorem fold_eq_concat (segs : List Text) (h : 3 < segs.length) :
    fold segs = segs.take 3 ++ [Text.join ['/'] (segs.drop 3)] := by
  match segs, h with
  | [a, b, c, d], _ => rfl
  | a :: b :: c :: d :: e :: rest, _ => rfl

/-- More than four segments, no dashes in the first three, and the others
joined are one node with its language. -/
def FoldsToSuffix (segs : List Text) : Prop :=
  4 < segs.length ∧ (∀ s ∈ segs.take 3, ¬Doubled '-' s) ∧
    ∃ value raw language, Text.trimmed? (Text.join ['/'] (segs.drop 3)) = some value ∧
      Parted '-' value raw language ∧ (Text.trimmed? raw).isSome

theorem decode_dataText (segs : List Text) (hs : ∀ s ∈ segs, '/' ∉ s) :
    decode (dataText segs none) = readData (Text.dropEmptyEnd segs) := by
  have ht : dataText segs none = KeyKind.data.name ++ segments segs :=
    List.append_nil _
  rw [decode, ht, splitOn_segments _ segs (slash_notMem_name .data) hs,
    Text.dropEmptyEnd_cons_of_ne_nil KeyKind.data.name segs (.inl (by decide))]
  rfl

theorem dropEmptyEnd_of_isSome (segs : List Text) (hs : ∀ s ∈ segs, (Text.trimmed? s).isSome) :
    Text.dropEmptyEnd segs = segs := by
  apply Text.dropEmptyEnd_of_getLast?
  intro h
  have hb := hs [] (List.mem_of_getLast? h)
  simp at hb

theorem isSome_trimmed?_join (pieces : List Text) (hne : pieces ≠ [])
    (h : ∀ s ∈ pieces, (Text.trimmed? s).isSome) :
    (Text.trimmed? (Text.join ['/'] pieces)).isSome := by
  obtain ⟨head, rest, rfl⟩ := List.exists_cons_of_ne_nil hne
  rw [join_slash_cons]
  exact Text.isSome_trimmed?_of_infix head _ (List.prefix_append _ _).isInfix (h head (by simp))

theorem exists_dropLast_drop (segs : List Text) (k : ℕ) (hk : k < segs.length)
    (hf : ∀ s ∈ segs.take k, ¬Doubled '-' s) (h : ∃ s ∈ segs.dropLast, Doubled '-' s) :
    ∃ s ∈ (segs.drop k).dropLast, Doubled '-' s := by
  obtain ⟨s, hm, hs⟩ := h
  rw [← List.take_append_drop k segs, List.dropLast_append_of_ne_nil (by simpa using hk)] at hm
  rcases List.mem_append.mp hm with hm | hm
  · exact absurd hs (hf s hm)
  · exact ⟨s, hm, hs⟩

/-- Behind three segments without dashes the joined part is all there is to read. -/
theorem readLevels_fold (segs : List Text) (value : Text) (hk : 3 < segs.length)
    (hn : ∀ s ∈ segs.take 3, (Text.trimmed? s).isSome ∧ ¬Doubled '-' s)
    (hv : Text.trimmed? (Text.join ['/'] (segs.drop 3)) = some value) :
    readLevels (fold segs) = do
      let (node, language) ← splitLanguage value
      return ((segs.take 3).map Text.trim ++ [node], language) := by
  rw [fold_eq_concat segs hk, readLevels_append _ _ hn, readLevels_singleton _ value hv]
  cases splitLanguage value <;> rfl

theorem foldsToSuffix_iff (segs : List Text) (value : Text) (hlong : 4 < segs.length)
    (hf : ∀ s ∈ segs.take 3, ¬Doubled '-' s)
    (hv : Text.trimmed? (Text.join ['/'] (segs.drop 3)) = some value) :
    FoldsToSuffix segs ↔ ∃ node language, splitLanguage value = .ok (node, some language) := by
  constructor
  · rintro ⟨-, -, value', raw, language, hv', hparted, hraw⟩
    obtain rfl : value = value' := Option.some.inj (hv.symm.trans hv')
    obtain ⟨node, hnode⟩ := Option.isSome_iff_exists.mp hraw
    exact ⟨node, language,
      (splitLanguage_eq_suffixed value node language).mpr ⟨raw, hparted, hnode⟩⟩
  · rintro ⟨node, language, hok⟩
    obtain ⟨raw, hparted, hraw⟩ := (splitLanguage_eq_suffixed value node language).mp hok
    exact ⟨hlong, hf, value, raw, language, hv, hparted, by simp [hraw]⟩

theorem slash_mem_of_splitLanguage (value node language : Text)
    (hok : splitLanguage value = .ok (node, some language))
    (h : ∃ between, '-' :: '-' :: between ++ ['/'] <:+: value) : '/' ∈ language := by
  obtain ⟨raw, ⟨pairs, hvalue, hraw, -⟩, -⟩ :=
    (splitLanguage_eq_suffixed value node language).mp hok
  rwa [slash_mem_language_iff raw language pairs hraw, ← hvalue]

section Dashed

variable {segs : List Text} (hs : ∀ s ∈ segs, '/' ∉ s ∧ (Text.trimmed? s).isSome)

include hs

theorem readData_folded (hlong : 4 < segs.length) (hf : ∀ s ∈ segs.take 3, ¬Doubled '-' s)
    (h : ∃ s ∈ segs.dropLast, Doubled '-' s) :
    (¬FoldsToSuffix segs ∧ FailsOnLanguage (readData segs)) ∨
      (FoldsToSuffix segs ∧ ∃ key l, readData segs = .ok key ∧ key.language = some l ∧ '/' ∈ l) := by
  have hne : segs.drop 3 ≠ [] := by simpa using by omega
  have hp : ∀ s ∈ segs.drop 3, '/' ∉ s ∧ (Text.trimmed? s).isSome :=
    fun s hm => hs s (List.mem_of_mem_drop hm)
  obtain ⟨value, hv⟩ :=
    Option.isSome_iff_exists.mp (isSome_trimmed?_join _ hne fun s hm => (hp s hm).2)
  have hslash := (doubled_before_slash_iff _ value hne (fun s hm => (hp s hm).1) hv).mp
    (exists_dropLast_drop segs 3 (by omega) hf h)
  have hd : Doubled '-' value := by
    obtain ⟨between, hb⟩ := hslash
    exact List.IsInfix.trans ⟨[], between ++ ['/'], rfl⟩ hb
  have hread := readLevels_fold segs value (by omega)
    (fun s hm => ⟨(hs s (List.mem_of_mem_take hm)).2, hf s hm⟩) hv
  rw [foldsToSuffix_iff segs value hlong hf hv, readData, hread]
  rcases splitLanguage_of_doubled value hd with ⟨node, language, hok⟩ | herror
  · right
    refine ⟨⟨node, language, hok⟩, _, language, by rw [hok]; rfl, rfl, ?_⟩
    exact slash_mem_of_splitLanguage value node language hok hslash
  · left
    rw [herror]
    refine ⟨?_, value, .inl rfl⟩
    rintro ⟨node, language, hok⟩
    cases hok

theorem readData_front (hlong : 3 < segs.length) (hf : ∃ s ∈ segs.take 3, Doubled '-' s) :
    FailsOnLanguage (readData segs) := by
  apply failsOnLanguage_bind
  rw [fold_eq_concat segs hlong]
  apply readLevels_misplaced
  · intro s hm
    rcases List.mem_append.mp hm with hm | hm
    · exact (hs s (List.mem_of_mem_take hm)).2
    · rw [List.mem_singleton.mp hm]
      exact isSome_trimmed?_join _ (by simpa using hlong)
        fun s hm => (hs s (List.mem_of_mem_drop hm)).2
  · rwa [List.dropLast_concat]

theorem readData_short (hshort : segs.length ≤ 4) (h : ∃ s ∈ segs.dropLast, Doubled '-' s) :
    FailsOnLanguage (readData segs) := by
  apply failsOnLanguage_bind
  rw [fold_of_length_le segs hshort]
  exact readLevels_misplaced segs (fun s hm => (hs s hm).2) h

/-- Where dashes stand before the last segment, decoding fails, or else the
language takes in the slashes behind them. -/
theorem decode_dashed (h : ∃ s ∈ segs.dropLast, Doubled '-' s) :
    (¬FoldsToSuffix segs ∧ FailsOnLanguage (decode (dataText segs none))) ∨
      (FoldsToSuffix segs ∧ ∃ key l, decode (dataText segs none) = .ok key ∧
        key.language = some l ∧ '/' ∈ l) := by
  rw [decode_dataText segs fun s hm => (hs s hm).1,
    dropEmptyEnd_of_isSome segs fun s hm => (hs s hm).2]
  by_cases hlong : 4 < segs.length
  · by_cases hf : ∀ s ∈ segs.take 3, ¬Doubled '-' s
    · exact readData_folded hs hlong hf h
    · have hfront : ∃ s ∈ segs.take 3, Doubled '-' s := by simpa using hf
      exact .inl ⟨fun hfolds => hf hfolds.2.1, readData_front hs (by omega) hfront⟩
  · exact .inl ⟨fun hfolds => hlong hfolds.1, readData_short hs (by omega) h⟩

end Dashed

/-! ## Languages of decoded keys -/

def segmentsOf (t : Text) : List Text := (Text.dropEmptyEnd (Text.splitOn '/' t)).tail

theorem segmentsOf_segments (kind : KeyKind) (segs : List Text) (n : ℕ)
    (hs : ∀ s ∈ segs, '/' ∉ s) (hl : segs.getLast? ≠ some []) :
    segmentsOf (kind.name ++ segments segs ++ List.replicate n '/') = segs := by
  have hall : ∀ s ∈ segs ++ List.replicate n [], '/' ∉ s := by
    intro s hm
    rcases List.mem_append.mp hm with hm | hm
    · exact hs s hm
    · simp [List.eq_of_mem_replicate hm]
  rw [segmentsOf, ← segments_replicate_nil, List.append_assoc, ← segments_append,
    splitOn_segments _ _ (slash_notMem_name kind) hall, ← List.cons_append,
    Text.dropEmptyEnd_append_replicate,
    Text.dropEmptyEnd_of_getLast? _ (getLast?_name_cons kind segs hl), List.tail_cons]

theorem reads_last (segs nodes : List Text) (language : Text)
    (h : Reads segs nodes (some language)) :
    ∃ front segment rest value node, segs = front ++ segment :: rest ∧
      front.length + 1 = nodes.length ∧ Text.trimmed? segment = some value ∧
      Divides value node (some language) := by
  generalize hl : some language = found at h
  induction h with
  | done => cases hl
  | blank => cases hl
  | node segment node rest nodes _ ht hd hr ih =>
    obtain ⟨front, last, more, value, final, rfl, hlen, hv⟩ := ih hl
    exact ⟨segment :: front, last, more, value, final, rfl, congrArg (· + 1) hlen, hl ▸ hv⟩
  | last segment value node _ rest ht hd =>
    exact ⟨[], segment, rest, value, node, rfl, rfl, ht, hl ▸ hd⟩

theorem slash_mem_iff_of_reads (segs nodes : List Text) (l : Text) (hs : ∀ s ∈ segs, '/' ∉ s)
    (h : Reads (fold segs) nodes (some l)) :
    '/' ∈ l ↔ nodes.length = 4 ∧ ∃ s ∈ (segs.drop 3).dropLast, Doubled '-' s := by
  have hdeep : nodes.length = 4 →
      ('/' ∈ l ↔ ∃ s ∈ (segs.drop 3).dropLast, Doubled '-' s) := by
    intro hdepth
    obtain ⟨front, segment, rest, value, node, hfold, hfront, hv, hdiv⟩ := reads_last _ _ l h
    have hlong : 3 < segs.length := by
      by_contra hshort
      have hlen := congrArg List.length hfold
      rw [fold_of_length_le segs (by omega)] at hlen
      simp at hlen
      omega
    have hrest : rest = [] := by
      have hle := fold_length segs
      rw [hfold, List.length_append, List.length_cons] at hle
      exact List.eq_nil_of_length_eq_zero (by omega)
    rw [hrest, fold_eq_concat segs hlong] at hfold
    obtain rfl : Text.join ['/'] (segs.drop 3) = segment := by
      simpa using (List.append_inj' hfold rfl).2
    rw [doubled_before_slash_iff _ value (by simpa using hlong)
      (fun s hm => hs s (List.mem_of_mem_drop hm)) hv]
    cases hdiv with
    | suffixed raw _ _ pairs hd => exact slash_mem_language_iff raw l pairs hd
  constructor
  · intro hc
    have hdepth := (sound_of_reads segs nodes (some l) hs h).folded l rfl hc
    exact ⟨hdepth, (hdeep hdepth).mp hc⟩
  · rintro ⟨hdepth, hsegs⟩
    exact (hdeep hdepth).mpr hsegs

/-! ## Keys further up -/

/-- The second key is reached from the first by going up, one level or more. -/
def Above (key up : LookupKey) : Prop :=
  Relation.TransGen (fun k q => k.parent = .ok (some q)) key up

theorem parent_eq_some (key up : LookupKey) (h : key.parent = .ok (some up)) :
    key.nodes ≠ [] ∧ up = { key with nodes := key.nodes.dropLast } := by
  obtain ⟨-, -, h⟩ := (bind_eq_ok _ _ _).mp h
  cases hn : key.nodes with
  | nil =>
    rw [hn] at h
    cases h
  | cons node rest =>
    rw [hn] at h
    cases h
    exact ⟨List.cons_ne_nil node rest, rfl⟩

theorem above_take (key up : LookupKey) (h : Above key up) :
    ∃ k < key.depth, up = { key with nodes := key.nodes.take k } := by
  induction h with
  | single hp =>
    obtain ⟨hne, rfl⟩ := parent_eq_some key _ hp
    have hpos := List.length_pos_iff.mpr hne
    exact ⟨key.depth - 1, Nat.sub_lt hpos Nat.one_pos, by rw [List.dropLast_eq_take]; rfl⟩
  | tail _ hp ih =>
    obtain ⟨k, hk, rfl⟩ := ih
    obtain ⟨hne, rfl⟩ := parent_eq_some _ _ hp
    refine ⟨k - 1, by omega, ?_⟩
    simp only [List.dropLast_eq_take, List.take_take, List.length_take]
    congr 2
    change k < key.nodes.length at hk
    omega

/-- Cut at its slashes, the canonical text has the language whole on the last node. -/
def WritesSuffix (key : LookupKey) (language : Text) : Prop :=
  Text.splitOn '/' key.text = key.kind.name :: withSuffix key.nodes (some language)

section Above

variable {nodes : List Text} {language : Text} {k : ℕ} (hs : Sound nodes (some language))
  (hk : k < nodes.length) (hne : nodes.take k ≠ [])

include hs hk

theorem take_shallow : ∀ n ∈ nodes.take k, '/' ∉ n := by
  intro n hm
  have hdepth := hs.depth
  exact hs.shallow n ((List.take_subset_take_left nodes (by omega)) hm)

include hne

theorem slash_mem_withSuffix_iff :
    (∃ p ∈ withSuffix (nodes.take k) (some language), '/' ∈ p) ↔ '/' ∈ language := by
  have hshallow := take_shallow hs hk
  obtain ⟨init, node, hn⟩ := (List.eq_nil_or_concat' (nodes.take k)).resolve_left hne
  rw [hn] at hshallow ⊢
  rw [withSuffix_concat]
  constructor
  · rintro ⟨p, hp, hc⟩
    rcases List.mem_append.mp hp with hp | hp
    · exact absurd hc (hshallow p (by simp [hp]))
    · rw [List.mem_singleton.mp hp] at hc
      simpa [hshallow node (by simp)] using hc
  · intro hc
    exact ⟨node ++ '-' :: '-' :: language, by simp [withSuffix], by simp [hc]⟩

theorem writesSuffix_take_iff (script : Script) :
    WritesSuffix ⟨.data, script, nodes.take k, some language⟩ language ↔ '/' ∉ language := by
  have hiff := slash_mem_withSuffix_iff hs hk hne
  rw [WritesSuffix, text_data]
  constructor
  · intro h hc
    obtain ⟨p, hp, hslash⟩ := hiff.mpr hc
    exact Text.notMem_of_mem_splitOn '/' _ p (h ▸ List.mem_cons_of_mem _ hp) hslash
  · intro hc
    exact splitOn_segments _ _ (slash_notMem_name .data)
      fun p hp hslash => hc (hiff.mp ⟨p, hp, hslash⟩)

theorem sound_take (hc : '/' ∉ language) : Sound (nodes.take k) (some language) where
  depth := (List.length_take_le k nodes).trans (by have := hs.depth; omega)
  node n hn := hs.node n (List.mem_of_mem_take hn)
  shallow n hn := take_shallow hs hk n (List.mem_of_mem_take hn)
  attached l hl := ⟨hne, (hs.attached l hl).2⟩
  folded l hl hslash := absurd (Option.some.inj hl ▸ hslash) hc

theorem decode_text_take_iff :
    decode (text ⟨.data, .native, nodes.take k, some language⟩) =
        .ok ⟨.data, .native, nodes.take k, some language⟩ ↔
      '/' ∉ language ∧ Tight (nodes.take k) (some language) := by
  have hiff := slash_mem_withSuffix_iff hs hk hne
  constructor
  · intro h
    obtain ⟨hsound, hstable⟩ := stable_of_decode_text _ _ h
    refine ⟨fun hc => ?_, ((stable_iff _ _ hsound).mp hstable).1⟩
    -- A key with a slash in its language has all four levels, and one at least is gone.
    have hfull := hsound.folded language rfl hc
    rw [List.length_take] at hfull
    have hdepth := hs.depth
    omega
  · rintro ⟨hc, htight⟩
    have hsound := sound_take hs hk hne hc
    apply decode_text_of_stable .native _ _ hsound
    refine (stable_iff _ _ hsound).mpr ⟨htight, fun p hp hlast => hc (hiff.mp ?_)⟩
    exact ⟨p, List.mem_of_getLast? hp, List.mem_of_getLast? hlast⟩

end Above

/-- Where dashes stand before the last segment of a text, decoding fails over
the language exactly unless the segments fold to a suffix, and in that case it
yields a language with a slash. The language of a decoded data key has a slash
exactly if the key has all four levels and dashes stand before the last of the
segments that make up the fourth; and exactly then no key above can carry it
as its suffix. -/
theorem suffix_on_last_iff (t : Text) :
    (∀ segs, t = dataText segs none → (∀ s ∈ segs, '/' ∉ s ∧ (Text.trimmed? s).isSome) →
      (∃ s ∈ segs.dropLast, Doubled '-' s) →
        (FailsOnLanguage (decode t) ↔ ¬FoldsToSuffix segs) ∧
        (FoldsToSuffix segs → ∃ key l, decode t = .ok key ∧ key.language = some l ∧ '/' ∈ l)) ∧
    ∀ key l, decode t = .ok key → key.kind = .data → key.language = some l →
      ('/' ∈ l ↔ key.depth = 4 ∧ ∃ s ∈ ((segmentsOf t).drop 3).dropLast, Doubled '-' s) ∧
      ∀ up, Above key up → up.nodes ≠ [] → up.language = some l ∧
        (WritesSuffix up l ↔ '/' ∉ l) ∧
        (decode up.text = .ok up ↔ '/' ∉ l ∧ Tight up.nodes up.language) := by
  constructor
  · rintro segs rfl hs h
    rcases decode_dashed hs h with ⟨hfolds, hfails⟩ | ⟨hfolds, key, l, hkey, hrest⟩
    · exact ⟨⟨fun _ => hfolds, fun _ => hfails⟩, fun hc => absurd hc hfolds⟩
    · refine ⟨⟨fun hfails => ?_, fun hc => absurd hfolds hc⟩, fun _ => ⟨key, l, hkey, hrest⟩⟩
      rw [hkey] at hfails
      exact absurd hfails (not_failsOnLanguage_ok key)
  · intro key l hdecode hkind hl
    obtain ⟨kind, segs, n, hs, hlast, rfl, hread⟩ := exists_segments_of_decode t key hdecode
    obtain rfl : kind = .data := (kind_of_readAs kind segs key hread).symm.trans hkind
    obtain ⟨nodes, language, rfl, hreads⟩ := readData_reads segs key hread
    obtain rfl : language = some l := hl
    have hsound := sound_of_reads segs nodes (some l) hs hreads
    rw [segmentsOf_segments .data segs n hs hlast]
    refine ⟨slash_mem_iff_of_reads segs nodes l hs hreads, fun up habove hne => ?_⟩
    obtain ⟨k, hk, rfl⟩ := above_take _ up habove
    exact ⟨rfl, writesSuffix_take_iff hsound hk hne .native, decode_text_take_iff hsound hk hne⟩

theorem suffix_on_last_iff_folded :
    (∃ key l, decode (dataText ["A".toList, "B".toList, "C".toList, "D--en".toList, "E".toList]
        none) = .ok key ∧ key.language = some l ∧ '/' ∈ l) ∧
      decode "data/US/CA--en".toList =
        .ok ⟨.data, .native, ["US".toList, "CA".toList], some "en".toList⟩ ∧
      Above ⟨.data, .native, ["US".toList, "CA".toList], some "en".toList⟩
        ⟨.data, .native, ["US".toList], some "en".toList⟩ ∧
      WritesSuffix ⟨.data, .native, ["US".toList], some "en".toList⟩ "en".toList := by
  have hs : ∀ s ∈ ["A".toList, "B".toList, "C".toList, "D--en".toList, "E".toList],
      '/' ∉ s ∧ (Text.trimmed? s).isSome := by decide
  have hfolds : FoldsToSuffix ["A".toList, "B".toList, "C".toList, "D--en".toList, "E".toList] :=
    ⟨by decide, by decide, "D--en/E".toList, "D".toList, "en/E".toList, rfl,
      ⟨0, rfl, by decide, by decide, by decide, by decide, by decide⟩, rfl⟩
  have hup : Above ⟨.data, .native, ["US".toList, "CA".toList], some "en".toList⟩
      ⟨.data, .native, ["US".toList], some "en".toList⟩ := .single rfl
  refine ⟨((suffix_on_last_iff _).1 _ rfl hs (by decide)).2 hfolds, rfl, hup, ?_⟩
  have hkey := ((suffix_on_last_iff "data/US/CA--en".toList).2 _ "en".toList rfl rfl rfl).2 _ hup
  exact (hkey (by decide)).2.1.mpr (by decide)

/-- A language before the fifth segment is accepted and takes in the slash
behind it. The text of the key above is then refused for the same language. -/
theorem exists_accepted_before_last :
    ∃ key up, (∀ s ∈ ["A".toList, "B".toList, "C".toList, "D--en".toList, "E".toList],
        '/' ∉ s ∧ (Text.trimmed? s).isSome) ∧
      "D--en".toList ∈
        ["A".toList, "B".toList, "C".toList, "D--en".toList, "E".toList].dropLast ∧
      Doubled '-' "D--en".toList ∧
      decode (dataText ["A".toList, "B".toList, "C".toList, "D--en".toList, "E".toList] none) =
        .ok key ∧
      key.language = some "en/E".toList ∧ key.parent = .ok (some up) ∧
      up.text = "data/A/B/C--en/E".toList ∧
      decode up.text = .error (.misplacedLanguage "E".toList) :=
  ⟨_, _, by decide, by decide, by decide, rfl, rfl, rfl, rfl, rfl⟩

end Postal.LookupKey
