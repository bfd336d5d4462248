import Postal.Proofs.LookupKey.Suffix

/-!
# What decoded data keys hold

Decoding drops empty segments at the end, joins what lies too deep, trims a segment before and
after it cuts the language off, and stops at a blank one. What is left of a text after all that is
sound, and nothing more can be said of it: every sound content is read from some text. A blank
behind the last node and dashes behind its language keep both from being cut any shorter, and are
gone when the text has been read.
-/

set_option autoImplicit false

namespace Postal.LookupKey

open Text (Doubled Parted Tidy)

/-- The pairs of dashes that a language takes behind it. One that ends in a dash takes none, since
the cut stands at the first two dashes in a row. -/
def pairsBehind (language : Text) : ℕ := if language.getLast? = some '-' then 0 else 1

/-- The last node and its language, with what reading drops behind either of them. -/
def padded (node : Text) : Option Text → Text
  | none => node ++ [' ']
  | some language =>
    node ++ [' '] ++ '-' :: '-' :: language ++ List.replicate (2 * pairsBehind language) '-'

theorem getLast?_padded (node language : Text) :
    (padded node (some language)).getLast? = some '-' := by
  rw [padded, pairsBehind]
  split
  · rename_i hl
    obtain ⟨init, rfl⟩ := List.getLast?_eq_some_iff.mp hl
    rw [Nat.mul_zero, List.replicate_zero, List.append_nil, ← List.cons_append, ← List.cons_append,
      ← List.append_assoc, List.getLast?_concat]
  · rw [List.getLast?_append_of_ne_nil _ (by simp)]
    rfl

theorem tidy_padded (node language : Text) (hn : Tidy node) :
    Tidy (padded node (some language)) := by
  constructor
  · obtain ⟨c, rest, rfl⟩ := List.exists_cons_of_ne_nil (Text.tidy_ne_nil node hn)
    exact hn.1
  · rw [getLast?_padded]
    rfl

theorem parted_padded (node language : Text) (hn : ¬Doubled '-' node) (hne : language ≠ [])
    (hl : ¬Doubled '-' language) :
    Parted '-' (padded node (some language)) (node ++ [' ']) language := by
  refine ⟨pairsBehind language, rfl, ?_, by simp, hl, hne, ?_⟩
  · intro hd
    rcases Text.infix_or_infix_of_notMem ' ' ['-', '-'] node [] (by decide) hd with h | h
    · exact hn h
    · exact Text.not_doubled_nil '-' h
  · intro hpos hlast
    rw [pairsBehind, if_pos hlast] at hpos
    exact absurd hpos (Nat.lt_irrefl 0)

theorem readLevels_padded (node : Text) (language : Option Text) (hn : Tidy node)
    (hd : ¬Doubled '-' node) (hl : ∀ l ∈ language, l ≠ [] ∧ ¬Doubled '-' l) :
    readLevels [padded node language] = .ok ([node], language) := by
  have hnode : Text.trimmed? (node ++ [' ']) = some node :=
    Text.trimmed?_append_blank node [' '] hn (by decide)
  cases language with
  | none =>
    rw [padded, readLevels_singleton _ node hnode, splitLanguage_plain node hd]
    rfl
  | some l =>
    obtain ⟨hne, hld⟩ := hl l rfl
    have hcut : splitLanguage (padded node (some l)) = .ok (node, some l) :=
      (splitLanguage_eq_suffixed _ node l).mpr ⟨_, parted_padded node l hd hne hld, hnode⟩
    rw [readLevels_singleton _ _ (Text.trimmed?_of_tidy _ (tidy_padded node l hn)), hcut]
    rfl

theorem padded_end (node : Text) (language : Option Text) :
    padded node language ≠ [] ∧ (padded node language).getLast? ≠ some '/' := by
  cases language with
  | none => simp [padded]
  | some l =>
    have hlast := getLast?_padded node l
    constructor
    · intro hnil
      rw [hnil] at hlast
      cases hlast
    · rw [hlast]
      decide

theorem slash_mem_padded (node : Text) (language : Option Text)
    (h : '/' ∈ padded node language) : '/' ∈ node ∨ ∃ l ∈ language, '/' ∈ l := by
  cases language with
  | none => simpa [padded] using h
  | some l => simpa [padded] using h

theorem readLevels_concat_padded (init : List Text) (node : Text) (language : Option Text)
    (hn : ∀ n ∈ init ++ [node], Tidy n ∧ ¬Doubled '-' n)
    (hl : ∀ l ∈ language, l ≠ [] ∧ ¬Doubled '-' l) :
    readLevels (init ++ [padded node language]) = .ok (init ++ [node], language) := by
  have hinit : ∀ n ∈ init, Tidy n ∧ ¬Doubled '-' n := fun n hm => hn n (by simp [hm])
  obtain ⟨htidy, hd⟩ := hn node (by simp)
  have htrim : init.map Text.trim = init.map id :=
    List.map_congr_left fun n hm => Text.trim_of_tidy n (hinit n hm).1
  have hfront : ∀ n ∈ init, (Text.trimmed? n).isSome ∧ ¬Doubled '-' n := by
    intro n hm
    rw [Text.trimmed?_of_tidy n (hinit n hm).1]
    exact ⟨rfl, (hinit n hm).2⟩
  rw [readLevels_append init _ hfront, readLevels_padded node language htidy hd hl, htrim,
    List.map_id]
  rfl

theorem exists_decode_of_sound (nodes : List Text) (language : Option Text)
    (hs : Sound nodes language) : ∃ t, decode t = .ok ⟨.data, .native, nodes, language⟩ := by
  rcases List.eq_nil_or_concat' nodes with rfl | ⟨init, node, rfl⟩
  · cases language with
    | none => exact ⟨KeyKind.data.name, rfl⟩
    | some l => exact absurd rfl (hs.attached l rfl).1
  · have hdepth : (init ++ [padded node language]).length ≤ 4 := by simpa using hs.depth
    have hshallow : ∀ p ∈ (init ++ [padded node language]).take 3, '/' ∉ p := by
      apply concat_shallow init node _ 3 hs.shallow
      intro hc
      apply (slash_mem_padded node language hc).imp_right
      rintro ⟨l, hl, hslash⟩
      have hfull : init.length + 1 = 4 := by simpa using hs.folded l hl hslash
      omega
    have hend : ∀ p ∈ (init ++ [padded node language]).getLast?,
        p ≠ [] ∧ p.getLast? ≠ some '/' := by
      rw [List.getLast?_concat]
      rintro p ⟨⟩
      exact padded_end node language
    refine ⟨KeyKind.data.name ++ segments (init ++ [padded node language]), ?_⟩
    rw [decode_parts _ hdepth hshallow hend,
      readLevels_concat_padded init node language hs.node fun l hl => (hs.attached l hl).2]
    rfl

theorem sound_of_decode (t : Text) (script : Script) (nodes : List Text)
    (language : Option Text) (h : decode t = .ok ⟨.data, script, nodes, language⟩) :
    script = .native ∧ Sound nodes language := by
  obtain ⟨kind, segs, n, hs, -, -, hr⟩ := exists_segments_of_decode t _ h
  obtain rfl : KeyKind.data = kind := kind_of_readAs kind segs _ hr
  obtain ⟨_, _, ⟨⟩, hreads⟩ := readData_reads segs _ hr
  exact ⟨rfl, sound_of_reads segs nodes language hs hreads⟩

theorem forall_take_three_iff (nodes : List Text) (hd : nodes.length ≤ 4) (c : Char) :
    (∀ n ∈ nodes.take 3, c ∉ n) ↔ ∀ i n, nodes[i]? = some n → c ∈ n → i = 3 := by
  constructor
  · intro h i n hi hc
    by_contra hne
    obtain ⟨hlt, rfl⟩ := List.getElem?_eq_some_iff.mp hi
    have hshallow : i < 3 := by omega
    exact h _ (List.mem_take_iff_getElem.mpr ⟨i, by omega, rfl⟩) hc
  · intro h n hn hc
    obtain ⟨i, hi, rfl⟩ := List.mem_take_iff_getElem.mp hn
    have hfourth := h i _ (List.getElem?_eq_getElem _) hc
    omega

/-- What a data key that has been read holds: up to four nodes, none of them empty, with a blank
at an end or with two dashes in a row, and a slash in the fourth alone; a language, if any, that is
not empty and has no two dashes in a row, behind one node at least, and behind four if there is a
slash in it; and the native script. There is a text for everything of that kind. -/
theorem exists_decode_iff (script : Script) (nodes : List Text) (language : Option Text) :
    (∃ t, decode t = .ok ⟨.data, script, nodes, language⟩) ↔
      script = .native ∧ nodes.length ≤ 4 ∧
      (∀ n ∈ nodes, n ≠ [] ∧ Tidy n ∧ ¬Doubled '-' n) ∧
      (∀ i n, nodes[i]? = some n → '/' ∈ n → i = 3) ∧
      ∀ l ∈ language, l ≠ [] ∧ ¬Doubled '-' l ∧ nodes ≠ [] ∧ ('/' ∈ l → nodes.length = 4) := by
  constructor
  · rintro ⟨t, h⟩
    obtain ⟨hscript, hs⟩ := sound_of_decode t script nodes language h
    refine ⟨hscript, hs.depth, ?_, (forall_take_three_iff nodes hs.depth '/').mp hs.shallow, ?_⟩
    · intro n hn
      obtain ⟨htidy, hd⟩ := hs.node n hn
      exact ⟨Text.tidy_ne_nil n htidy, htidy, hd⟩
    · intro l hl
      obtain ⟨hne, hln, hd⟩ := hs.attached l hl
      exact ⟨hln, hd, hne, hs.folded l hl⟩
  · rintro ⟨rfl, hdepth, hnode, hslash, hlanguage⟩
    apply exists_decode_of_sound
    constructor
    · exact hdepth
    · exact fun n hn => (hnode n hn).2
    · exact (forall_take_three_iff nodes hdepth '/').mpr hslash
    · intro l hl
      obtain ⟨hln, hd, hne, -⟩ := hlanguage l hl
      exact ⟨hne, hln, hd⟩
    · exact fun l hl => (hlanguage l hl).2.2.2

/-- A dash at the end of a node, and blanks and a slash at the end of a language. -/
example : decode "data/A/B/C/D- --- e /--".toList =
    .ok ⟨.data, .native, ["A".toList, "B".toList, "C".toList, "D-".toList],
      some "- e /".toList⟩ := by decide

end Postal.LookupKey
