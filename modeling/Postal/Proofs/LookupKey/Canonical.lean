import Postal.Proofs.LookupKey.Reading

/-!
# Canonical texts of lookup keys

A text decodes as its kind followed by segments, slashes at the end apart.
For data keys this gives what decoding can yield (`Sound`) and which of those
contents the canonical text gives back (`Stable`). Keys of examples are given
back unless their language is empty.
-/

set_option autoImplicit false

namespace Postal.LookupKey

open Text (Doubled Tidy)

theorem slash_notMem_name (kind : KeyKind) : '/' ∉ kind.name := by
  cases kind <;> decide

theorem name_of_ofName? (name : Text) (kind : KeyKind) (h : KeyKind.ofName? name = some kind) :
    kind.name = name := by
  simpa using List.find?_some h

theorem join_slash_cons (piece : Text) (pieces : List Text) :
    Text.join ['/'] (piece :: pieces) = piece ++ segments pieces :=
  Text.join_cons ['/'] piece pieces

theorem segments_splitOn (t : Text) : segments (Text.splitOn '/' t) = '/' :: t := by
  have hj := Text.join_splitOn '/' t
  cases hp : Text.splitOn '/' t with
  | nil => exact absurd hp (Text.splitOn_ne_nil '/' t)
  | cons piece pieces =>
    rw [hp, join_slash_cons] at hj
    rw [segments_cons, ← hj]
    rfl

theorem segments_flatMap_splitOn (parts : List Text) :
    segments (parts.flatMap (Text.splitOn '/')) = segments parts := by
  induction parts with
  | nil => rfl
  | cons part parts ih =>
    rw [List.flatMap_cons, segments_append, segments_splitOn, ih, segments_cons]

@[simp] theorem segments_replicate_nil (n : ℕ) : segments (List.replicate n []) = List.replicate n '/' := by
  induction n with
  | zero => rfl
  | succ n ih => rw [List.replicate_succ, segments_cons, ih, List.replicate_succ, List.cons_append,
      List.nil_append]

theorem splitOn_segments (head : Text) (segs : List Text) (hh : '/' ∉ head)
    (hs : ∀ s ∈ segs, '/' ∉ s) : Text.splitOn '/' (head ++ segments segs) = head :: segs := by
  rw [← join_slash_cons]
  exact Text.splitOn_join '/' (head :: segs) (by simp) (List.forall_mem_cons.mpr ⟨hh, hs⟩)

def readAs (kind : KeyKind) (segs : List Text) : Except KeyError LookupKey :=
  match kind with
  | .data => readData segs
  | .examples => readExamples segs

theorem getLast?_name_cons (kind : KeyKind) (segs : List Text) (hl : segs.getLast? ≠ some []) :
    (kind.name :: segs).getLast? ≠ some [] := by
  cases segs with
  | nil => cases kind <;> decide
  | cons segment segs => rwa [List.getLast?_cons_cons]

theorem decode_segments (kind : KeyKind) (segs : List Text) (hs : ∀ s ∈ segs, '/' ∉ s)
    (hl : segs.getLast? ≠ some []) : decode (kind.name ++ segments segs) = readAs kind segs := by
  rw [decode, splitOn_segments _ segs (slash_notMem_name kind) hs,
    Text.dropEmptyEnd_of_getLast? _ (getLast?_name_cons kind segs hl)]
  simp only [KeyKind.ofName?_name]
  cases kind <;> rfl

theorem decode_append_slash (t : Text) : decode (t ++ ['/']) = decode t := by
  have hs : Text.splitOn '/' (t ++ ['/']) = Text.splitOn '/' t ++ [[]] :=
    Text.splitOn_append_cons '/' t []
  rw [decode, hs, Text.dropEmptyEnd_concat_nil, decode]

theorem exists_segments_of_decode (t : Text) (key : LookupKey) (h : decode t = .ok key) :
    ∃ kind segs n, (∀ s ∈ segs, '/' ∉ s) ∧ segs.getLast? ≠ some [] ∧
      t = kind.name ++ segments segs ++ List.replicate n '/' ∧ readAs kind segs = .ok key := by
  have hj := Text.join_splitOn '/' t
  have hm := Text.notMem_of_mem_splitOn '/' t
  have hl := Text.getLast?_dropEmptyEnd (Text.splitOn '/' t)
  obtain ⟨n, hn⟩ := Text.exists_dropEmptyEnd_append (Text.splitOn '/' t)
  unfold decode at h
  split at h
  · cases h
  · rename_i head segs hd
    rw [hd] at hn hl
    rw [hn] at hj hm
    have hlast : segs.getLast? ≠ some [] := by
      cases segs with
      | nil => simp
      | cons segment segs => rwa [List.getLast?_cons_cons] at hl
    rw [List.cons_append, join_slash_cons, segments_append, segments_replicate_nil,
      ← List.append_assoc] at hj
    have hs : ∀ s ∈ segs, '/' ∉ s := fun s hs => hm s (by simp [hs])
    split at h
    · rename_i hk
      rw [← name_of_ofName? head _ hk] at hj
      exact ⟨.data, segs, n, hs, hlast, hj.symm, h⟩
    · rename_i hk
      rw [← name_of_ofName? head _ hk] at hj
      exact ⟨.examples, segs, n, hs, hlast, hj.symm, h⟩
    · cases h

theorem segments_fold (segs : List Text) : segments (fold segs) = segments segs := by
  unfold fold
  split
  · rename_i a b c d e rest
    simp only [segments_cons, join_slash_cons]
    simp
  · rfl

theorem fold_shallow (segs : List Text) (hs : ∀ s ∈ segs, '/' ∉ s) :
    ∀ s ∈ (fold segs).take 3, '/' ∉ s := by
  unfold fold
  split
  · rename_i a b c d e rest
    intro s h
    apply hs s
    simp only [List.take_succ_cons, List.take_zero, List.mem_cons, List.not_mem_nil,
      or_false] at h
    rcases h with rfl | rfl | rfl <;> simp
  · exact fun s h => hs s (List.mem_of_mem_take h)

theorem fold_flatMap_splitOn (parts : List Text) (hd : parts.length ≤ 4)
    (hs : ∀ p ∈ parts.take 3, '/' ∉ p) : fold (parts.flatMap (Text.splitOn '/')) = parts := by
  have hcut : ∀ p ∈ parts.take 3, Text.splitOn '/' p = [p] :=
    fun p hp => Text.splitOn_of_notMem '/' p (hs p hp)
  match parts, hd with
  | [], _ => rfl
  | [a], _ => simp [hcut a, fold]
  | [a, b], _ => simp [hcut a, hcut b, fold]
  | [a, b, c], _ => simp [hcut a, hcut b, hcut c, fold]
  | [a, b, c, d], _ =>
    have hj := Text.join_splitOn '/' d
    simp only [List.flatMap_cons, List.flatMap_nil, hcut a (by simp), hcut b (by simp),
      hcut c (by simp), List.append_nil, List.cons_append, List.nil_append]
    match hp : Text.splitOn '/' d with
    | [] => exact absurd hp (Text.splitOn_ne_nil '/' d)
    | [piece] =>
      rw [hp] at hj
      simp [fold, ← hj, Text.join]
    | piece :: next :: pieces =>
      rw [hp] at hj
      simp [fold, hj]
  | _ :: _ :: _ :: _ :: _ :: _, hd =>
    simp only [List.length_cons] at hd
    omega

/-- What the contents of a decoded data key are like. -/
structure Sound (nodes : List Text) (language : Option Text) : Prop where
  depth : nodes.length ≤ 4
  node : ∀ n ∈ nodes, Tidy n ∧ ¬Doubled '-' n
  shallow : ∀ n ∈ nodes.take 3, '/' ∉ n
  attached : ∀ l ∈ language, nodes ≠ [] ∧ l ≠ [] ∧ ¬Doubled '-' l
  folded : ∀ l ∈ language, '/' ∈ l → nodes.length = 4

theorem readData_reads (segs : List Text) (key : LookupKey) (h : readData segs = .ok key) :
    ∃ nodes language, key = ⟨.data, .native, nodes, language⟩ ∧
      Reads (fold segs) nodes language := by
  obtain ⟨⟨nodes, language⟩, hr, h⟩ := (bind_eq_ok _ _ _).mp h
  cases h
  exact ⟨nodes, language, rfl, reads_of_readLevels _ nodes language hr⟩

theorem sound_of_reads (segs nodes : List Text) (language : Option Text)
    (hs : ∀ s ∈ segs, '/' ∉ s) (h : Reads (fold segs) nodes language) : Sound nodes language := by
  have hdepth : nodes.length ≤ 4 := (reads_length _ _ _ h).trans (fold_length segs)
  obtain ⟨hshallow, hslash⟩ := reads_slash _ _ _ h 3 (fold_shallow segs hs)
  exact ⟨hdepth, reads_nodes _ _ _ h, hshallow, reads_language _ _ _ h,
    fun l hl hc => Nat.le_antisymm hdepth (hslash l hl hc)⟩

/-- No slash at the end that decoding would drop, and tight. -/
def Stable (nodes : List Text) : Option Text → Prop
  | none => ∀ n ∈ nodes.getLast?, n.getLast? ≠ some '/'
  | some l => (∀ n ∈ nodes.getLast?, n.getLast? ≠ some '-') ∧
      ∀ c ∈ l.getLast?, Text.isBlank c = false ∧ c ≠ '/'

theorem withSuffix_concat (nodes : List Text) (node : Text) (language : Option Text) :
    withSuffix (nodes ++ [node]) language = nodes ++ withSuffix [node] language := by
  induction nodes with
  | nil => rfl
  | cons first nodes ih =>
    cases nodes with
    | nil => cases language <;> rfl
    | cons next nodes =>
      rw [List.cons_append, List.cons_append, withSuffix, ← List.cons_append, ih]
      rfl

theorem withSuffix_none (nodes : List Text) : withSuffix nodes none = nodes := by
  rcases List.eq_nil_or_concat' nodes with rfl | ⟨init, node, rfl⟩
  · rfl
  · exact withSuffix_concat init node none

@[simp] theorem withSuffix_length (nodes : List Text) (language : Option Text) :
    (withSuffix nodes language).length = nodes.length := by
  rcases List.eq_nil_or_concat' nodes with rfl | ⟨init, node, rfl⟩
  · rfl
  · rw [withSuffix_concat]
    cases language <;> simp [withSuffix]

/-- In place of the last node a part may stand with a slash of its own, below the first `k`. -/
theorem concat_shallow (init : List Text) (node part : Text) (k : ℕ)
    (hn : ∀ n ∈ (init ++ [node]).take k, '/' ∉ n)
    (hp : '/' ∈ part → '/' ∈ node ∨ k ≤ init.length) :
    ∀ p ∈ (init ++ [part]).take k, '/' ∉ p := by
  intro p hm
  by_cases hk : k ≤ init.length
  · rw [List.take_append_of_le_length hk] at hn hm
    exact hn p hm
  · have hle : init.length + 1 ≤ k := by omega
    rw [List.take_of_length_le (by simpa using hle)] at hn hm
    rcases List.mem_append.mp hm with hm | hm
    · exact hn p (by simp [hm])
    · rw [List.mem_singleton.mp hm]
      intro hc
      rcases hp hc with hc | hc
      · exact hn node (by simp) hc
      · exact hk hc

theorem withSuffix_shallow (nodes : List Text) (language : Option Text) (k : ℕ)
    (hn : ∀ n ∈ nodes.take k, '/' ∉ n) (hl : ∀ l ∈ language, '/' ∈ l → k < nodes.length) :
    ∀ p ∈ (withSuffix nodes language).take k, '/' ∉ p := by
  cases language with
  | none => rwa [withSuffix_none]
  | some l =>
    rcases List.eq_nil_or_concat' nodes with rfl | ⟨init, node, rfl⟩
    · simp [withSuffix]
    · rw [withSuffix_concat]
      apply concat_shallow init node _ k hn
      intro hc
      have hc : '/' ∈ node ∨ '/' ∈ l := by simpa using hc
      apply hc.imp_right
      intro hslash
      simpa [Nat.lt_succ_iff] using hl l rfl hslash

theorem stable_iff (nodes : List Text) (language : Option Text) (hs : Sound nodes language) :
    Stable nodes language ↔ Tight nodes language ∧
      ∀ p ∈ (withSuffix nodes language).getLast?, p.getLast? ≠ some '/' := by
  cases language with
  | none =>
    rw [withSuffix_none]
    exact ⟨fun h => ⟨fun l hl => absurd hl (by simp), h⟩, fun h => h.2⟩
  | some l =>
    obtain ⟨hne, hln, -⟩ := hs.attached l rfl
    obtain ⟨init, node, rfl⟩ := (List.eq_nil_or_concat' nodes).resolve_left hne
    obtain ⟨head, c, rfl⟩ := (List.eq_nil_or_concat' l).resolve_left hln
    have hlast : (node ++ '-' :: '-' :: (head ++ [c])).getLast? = some c := by
      rw [← List.cons_append, ← List.cons_append, ← List.append_assoc, List.getLast?_concat]
    rw [withSuffix_concat]
    simpa [Stable, Tight, withSuffix, hlast] using and_assoc.symm

theorem withSuffix_ne_nil (nodes : List Text) (language : Option Text) (hn : ∀ n ∈ nodes, n ≠ []) :
    ∀ p ∈ withSuffix nodes language, p ≠ [] := by
  cases language with
  | none => rwa [withSuffix_none]
  | some l =>
    rcases List.eq_nil_or_concat' nodes with rfl | ⟨init, node, rfl⟩
    · simp [withSuffix]
    · rw [withSuffix_concat]
      intro p hp
      rcases List.mem_append.mp hp with hp | hp
      · exact hn p (List.mem_append_left _ hp)
      · rw [List.mem_singleton.mp hp]
        simp

theorem getLast?_segments_concat (parts : List Text) (part : Text) :
    (segments (parts ++ [part])).getLast? = ('/' :: part).getLast? := by
  rw [segments_append, segments_cons, List.getLast?_append_of_ne_nil _ (by simp)]
  simp

theorem getLast?_segments_ne (segs : List Text) (hs : ∀ s ∈ segs, '/' ∉ s)
    (hl : segs.getLast? ≠ some []) : (segments segs).getLast? ≠ some '/' := by
  rcases List.eq_nil_or_concat' segs with rfl | ⟨init, segment, rfl⟩
  · simp
  · have hne : segment ≠ [] := by simpa using hl
    rw [getLast?_segments_concat, List.getLast?_cons_of_ne_nil hne]
    exact fun h => hs segment (by simp) (List.mem_of_getLast? h)

/-- Cutting at the slashes and folding give up to four parts back, slashes within the fourth
included. -/
theorem decode_parts (parts : List Text) (hd : parts.length ≤ 4)
    (hs : ∀ p ∈ parts.take 3, '/' ∉ p)
    (hl : ∀ p ∈ parts.getLast?, p ≠ [] ∧ p.getLast? ≠ some '/') :
    decode (KeyKind.data.name ++ segments parts) = do
      let (nodes, language) ← readLevels parts
      return ⟨.data, .native, nodes, language⟩ := by
  have hcut : ∀ s ∈ parts.flatMap (Text.splitOn '/'), '/' ∉ s := by
    intro s hm
    obtain ⟨p, -, hp⟩ := List.mem_flatMap.mp hm
    exact Text.notMem_of_mem_splitOn '/' p s hp
  have hlast : (parts.flatMap (Text.splitOn '/')).getLast? ≠ some [] := by
    rcases List.eq_nil_or_concat' parts with rfl | ⟨init, p, rfl⟩
    · simp
    · obtain ⟨hne, hend⟩ := hl p (by simp)
      rw [List.flatMap_append, List.flatMap_singleton,
        List.getLast?_append_of_ne_nil _ (Text.splitOn_ne_nil '/' p)]
      exact Text.getLast?_splitOn_ne_nil '/' p hne hend
  rw [← segments_flatMap_splitOn, decode_segments .data _ hcut hlast, readAs, readData,
    fold_flatMap_splitOn _ hd hs]

theorem decode_text_of_stable (script : Script) (nodes : List Text) (language : Option Text)
    (hs : Sound nodes language) (h : Stable nodes language) :
    decode (text ⟨.data, script, nodes, language⟩) = .ok ⟨.data, .native, nodes, language⟩ := by
  obtain ⟨htight, hend⟩ := (stable_iff nodes language hs).mp h
  have hdepth : (withSuffix nodes language).length ≤ 4 := by
    rw [withSuffix_length]
    exact hs.depth
  have hshallow := withSuffix_shallow nodes language 3 hs.shallow
    (fun l hl hc => by rw [hs.folded l hl hc]; decide)
  have hne := withSuffix_ne_nil nodes language fun n hn => Text.tidy_ne_nil n (hs.node n hn).1
  have hread := readLevels_withSuffix nodes language hs.node hs.attached htight
  rw [text_data, decode_parts _ hdepth hshallow
    fun p hp => ⟨hne p (List.mem_of_getLast? hp), hend p hp⟩, hread]
  rfl

theorem kind_of_readAs (kind : KeyKind) (segs : List Text) (key : LookupKey)
    (h : readAs kind segs = .ok key) : key.kind = kind := by
  cases kind with
  | data =>
    obtain ⟨nodes, language, rfl, -⟩ := readData_reads segs key h
    rfl
  | examples =>
    change readExamples segs = .ok key at h
    unfold readExamples at h
    split at h
    · cases h; rfl
    · cases h; rfl
    · cases h; rfl
    · obtain ⟨script, -, h⟩ := (bind_eq_ok _ _ _).mp h
      cases h
      rfl

theorem stable_of_decode_text (nodes : List Text) (language : Option Text)
    (h : decode (text ⟨.data, .native, nodes, language⟩) = .ok ⟨.data, .native, nodes, language⟩) :
    Sound nodes language ∧ Stable nodes language := by
  obtain ⟨kind, segs, n, hs, hl, ht, hr⟩ := exists_segments_of_decode _ _ h
  obtain rfl : KeyKind.data = kind := kind_of_readAs kind segs _ hr
  obtain ⟨nodes, language, ⟨⟩, hreads⟩ := readData_reads segs _ hr
  have hsound := sound_of_reads segs nodes language hs hreads
  obtain ⟨hle, htight⟩ := reads_tight _ _ _ hreads
  rw [text_data, List.append_assoc] at ht
  have hw := List.append_cancel_left ht
  -- Reading never lengthens the text, so no slash was dropped at its end.
  have hn : n = 0 := by
    rw [hw, segments_fold, List.length_append, List.length_replicate] at hle
    omega
  rw [hn, List.replicate_zero, List.append_nil] at hw
  refine ⟨hsound, (stable_iff nodes language hsound).mpr
    ⟨htight (by rw [hw, segments_fold]), fun p hp hslash => ?_⟩⟩
  obtain ⟨init, hinit⟩ := List.getLast?_eq_some_iff.mp hp
  apply getLast?_segments_ne segs hs hl
  rw [← hw, hinit, getLast?_segments_concat, List.getLast?_cons, hslash]
  rfl

/-! ## Keys of examples -/

theorem readExamples_full (country language : Text) (script : Script) (hc : country ≠ []) :
    readExamples [country, script.name, language] =
      .ok ⟨.examples, script, [country], (some language).filter (· != defaultLanguage)⟩ := by
  cases country with
  | nil => exact absurd rfl hc
  | cons c rest =>
    have hs : readScript script.name = .ok script := by
      rw [readScript, Script.ofName?_name]
    simp only [readExamples, hs]
    rfl

theorem readExamples_eq_ok (segs : List Text) (key : LookupKey) (hs : ∀ s ∈ segs, '/' ∉ s)
    (h : readExamples segs = .ok key) :
    key = ⟨.examples, .native, [], none⟩ ∨ ∃ script country language,
      key = ⟨.examples, script, [country], language⟩ ∧ country ≠ [] ∧ '/' ∉ country ∧
        ∀ l ∈ language, '/' ∉ l ∧ l ≠ defaultLanguage := by
  unfold readExamples at h
  split at h
  · cases h
    exact .inl rfl
  · cases h
    exact .inl rfl
  · rename_i country hne
    cases h
    right
    exact ⟨.native, country, none, rfl, fun hc => hne (hc ▸ rfl), hs country (by simp), by simp⟩
  · rename_i country name rest hne
    obtain ⟨script, -, h⟩ := (bind_eq_ok _ _ _).mp h
    cases h
    refine .inr ⟨script, country, _, rfl, hne, hs country (by simp), ?_⟩
    intro l hl
    obtain ⟨hm, hd⟩ := Option.filter_eq_some_iff.mp hl
    exact ⟨hs l (by simp [List.mem_of_head? hm]), by simpa using hd⟩

theorem text_examples (script : Script) (country : Text) (deeper : List Text)
    (language : Option Text) : text ⟨.examples, script, country :: deeper, language⟩ =
      KeyKind.examples.name ++ segments [country, script.name, language.getD defaultLanguage] := rfl

theorem slash_notMem_scriptName (script : Script) : '/' ∉ script.name := by
  cases script <;> decide

theorem decode_text_examples (script : Script) (country : Text) (deeper : List Text)
    (language : Option Text) (hc : country ≠ []) (hs : '/' ∉ country)
    (hl : ∀ l ∈ language, l ≠ [] ∧ '/' ∉ l ∧ l ≠ defaultLanguage) :
    decode (text ⟨.examples, script, country :: deeper, language⟩) =
      .ok ⟨.examples, script, [country], language⟩ := by
  have hn := slash_notMem_scriptName script
  have hread := readExamples_full country (language.getD defaultLanguage) script hc
  have hd : '/' ∉ defaultLanguage ∧ defaultLanguage ≠ [] := by decide
  rw [text_examples]
  cases language with
  | none =>
    rw [decode_segments .examples _ (by simp [hs, hn, hd.1]) (by simp [hd.2]), readAs, hread]
    rfl
  | some l =>
    obtain ⟨hne, hsl, hdl⟩ := hl l rfl
    rw [decode_segments .examples _ (by simp [hs, hn, hsl]) (by simpa using hne), readAs, hread]
    simp [hdl]

theorem decode_text_emptyLanguage (script : Script) (country : Text) (hc : country ≠ [])
    (hs : '/' ∉ country) : decode (text ⟨.examples, script, [country], some []⟩) =
      .ok ⟨.examples, script, [country], none⟩ := by
  have hn := slash_notMem_scriptName script
  have ht : text ⟨.examples, script, [country], some []⟩ =
      KeyKind.examples.name ++ segments [country, script.name] ++ ['/'] := by
    rw [text_examples, List.append_assoc]
    exact congrArg (_ ++ ·) (segments_append [country, script.name] [[]])
  have hne : script.name ≠ [] := by cases script <;> decide
  rw [ht, decode_append_slash, decode_segments .examples _ (by simp [hs, hn]) (by simpa using hne)]
  cases country with
  | nil => exact absurd rfl hc
  | cons c rest =>
    simp only [readAs, readExamples, readScript, Script.ofName?_name]
    rfl

end Postal.LookupKey
