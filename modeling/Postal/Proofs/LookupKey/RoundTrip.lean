import Postal.Proofs.LookupKey.Canonical

/-!
# Round trips of lookup keys

Contents that are fit to be written come back from their canonical text. A
decoded key need not be fit to be written: decoding may leave a slash at the
end of a folded node, blanks at the end of a language, a dash at the end of a
trimmed node or an empty language of examples, and each of these reads
differently the second time. No other decoded key does.
-/

set_option autoImplicit false

namespace Postal.LookupKey

open Text (Doubled Tidy)

/-- Nodes and language of a data key that are fit to be written. -/
structure Writable (nodes : List Text) (language : Option Text) : Prop where
  depth : nodes.length ≤ 4
  node : ∀ n ∈ nodes, Tidy n ∧ ¬Doubled '-' n
  shallow : ∀ n ∈ nodes.take 3, '/' ∉ n
  deepest : ∀ n ∈ nodes[3]?, n.getLast? ≠ some '/'
  attached : ∀ l ∈ language, nodes ≠ [] ∧ l ≠ [] ∧ '/' ∉ l ∧ ¬Doubled '-' l ∧
    (∀ c ∈ l.getLast?, Text.isBlank c = false) ∧ ∀ n ∈ nodes.getLast?, n.getLast? ≠ some '-'

/-- Country and language of a key of examples that are fit to be written. -/
def WritableExample (country : Text) (language : Option Text) : Prop :=
  country ≠ [] ∧ '/' ∉ country ∧ ∀ l ∈ language, l ≠ [] ∧ '/' ∉ l ∧ l ≠ "_default".toList

def dataText (nodes : List Text) (language : Option Text) : Text :=
  "data".toList ++ nodes.flatMap ('/' :: ·) ++ (language.map ("--".toList ++ ·)).getD []

def exampleText (script : Script) (country : Text) (language : Option Text) : Text :=
  "examples".toList ++ '/' :: country ++ '/' :: script.name ++
    '/' :: language.getD "_default".toList

theorem sound_of_writable (nodes : List Text) (language : Option Text)
    (h : Writable nodes language) : Sound nodes language where
  depth := h.depth
  node := h.node
  shallow := h.shallow
  attached l hl := by
    obtain ⟨hne, hln, -, hd, -⟩ := h.attached l hl
    exact ⟨hne, hln, hd⟩
  folded l hl hc := absurd hc (h.attached l hl).2.2.1

theorem getLast?_ne_slash (nodes : List Text) (hd : nodes.length ≤ 4)
    (hs : ∀ n ∈ nodes.take 3, '/' ∉ n) (hn : ∀ n ∈ nodes[3]?, n.getLast? ≠ some '/') :
    ∀ n ∈ nodes.getLast?, n.getLast? ≠ some '/' := by
  intro n hlast
  rw [List.getLast?_eq_getElem?] at hlast
  by_cases hfull : nodes.length = 4
  · rw [hfull] at hlast
    exact hn n hlast
  · have hmem : n ∈ nodes.take 3 := by
      rw [List.take_of_length_le (by omega)]
      exact List.mem_of_getElem? hlast
    exact fun hc => hs n hmem (List.mem_of_getLast? hc)

theorem stable_of_writable (nodes : List Text) (language : Option Text)
    (h : Writable nodes language) : Stable nodes language := by
  cases language with
  | none => exact getLast?_ne_slash nodes h.depth h.shallow h.deepest
  | some l =>
    obtain ⟨-, -, hs, -, hb, hd⟩ := h.attached l rfl
    exact ⟨hd, fun c hc => ⟨hb c hc, fun he => hs (he ▸ List.mem_of_getLast? hc)⟩⟩

theorem dataText_eq_text (nodes : List Text) (language : Option Text)
    (h : ∀ l ∈ language, nodes ≠ []) :
    dataText nodes language = text ⟨.data, .native, nodes, language⟩ := by
  cases nodes with
  | nil =>
    cases language with
    | none => rfl
    | some l => exact absurd rfl (h l rfl)
  | cons node rest => cases language <;> rfl

theorem exampleText_eq_text (script : Script) (country : Text) (language : Option Text) :
    exampleText script country language = text ⟨.examples, script, [country], language⟩ := by
  have hs : segments [country, script.name, language.getD defaultLanguage] =
      '/' :: country ++ '/' :: script.name ++ '/' :: language.getD defaultLanguage := by
    simp
  rw [text_examples, hs]
  change KeyKind.examples.name ++ '/' :: country ++ '/' :: script.name ++
    '/' :: language.getD defaultLanguage = _
  simp only [List.append_assoc]

/-- What is fit to be written is read back, from the text of the key and
hence from every text of that shape. -/
theorem decode_written :
    (∀ script nodes language, Writable nodes language →
      decode (text ⟨.data, script, nodes, language⟩) = .ok ⟨.data, .native, nodes, language⟩) ∧
    (∀ script country deeper language, WritableExample country language →
      decode (text ⟨.examples, script, country :: deeper, language⟩) =
        .ok ⟨.examples, script, [country], language⟩) ∧
    ∀ s, (∃ nodes language, Writable nodes language ∧ s = dataText nodes language) ∨
        (∃ script country language, WritableExample country language ∧
          s = exampleText script country language) →
      ∃ key, decode s = .ok key ∧ key.text = s := by
  have hdata : ∀ script nodes language, Writable nodes language →
      decode (text ⟨.data, script, nodes, language⟩) = .ok ⟨.data, .native, nodes, language⟩ :=
    fun script nodes language h => decode_text_of_stable script nodes language
      (sound_of_writable nodes language h) (stable_of_writable nodes language h)
  have hexample : ∀ script country deeper language, WritableExample country language →
      decode (text ⟨.examples, script, country :: deeper, language⟩) =
        .ok ⟨.examples, script, [country], language⟩ :=
    fun script country deeper language h =>
      decode_text_examples script country deeper language h.1 h.2.1 h.2.2
  refine ⟨hdata, hexample, ?_⟩
  rintro s (⟨nodes, language, h, rfl⟩ | ⟨script, country, language, h, rfl⟩)
  · rw [dataText_eq_text nodes language fun l hl => (h.attached l hl).1]
    exact ⟨_, hdata .native nodes language h, rfl⟩
  · rw [exampleText_eq_text]
    exact ⟨_, hexample script country [] language h, rfl⟩

theorem decode_written_dashes :
    Writable ["US-".toList, "-CA".toList, "a b".toList, "D//E".toList] (some "-en-".toList) ∧
      WritableExample " ".toList (some "a--b".toList) ∧
      decode (text ⟨.data, .latin, ["US-".toList, "-CA".toList, "a b".toList, "D//E".toList],
        some "-en-".toList⟩) = .ok ⟨.data, .native,
          ["US-".toList, "-CA".toList, "a b".toList, "D//E".toList], some "-en-".toList⟩ ∧
      decode (text ⟨.examples, .latin, [" ".toList], some "a--b".toList⟩) =
        .ok ⟨.examples, .latin, [" ".toList], some "a--b".toList⟩ := by
  have hw : Writable ["US-".toList, "-CA".toList, "a b".toList, "D//E".toList]
      (some "-en-".toList) := by
    refine ⟨by decide, by decide, by decide, by decide, fun l hl => ?_⟩
    obtain rfl := Option.some.inj hl
    refine ⟨by decide, by decide, by decide, by decide, fun c hc => ?_, fun n hn => ?_⟩
    · obtain rfl : '-' = c := Option.some.inj hc
      rfl
    · obtain rfl : "D//E".toList = n := Option.some.inj hn
      decide
  have he : WritableExample " ".toList (some "a--b".toList) := ⟨by decide, by decide, by decide⟩
  exact ⟨hw, he, decode_written.1 .latin _ _ hw, decode_written.2.1 .latin _ [] _ he⟩

/-- The canonical text decodes again, to a key with the same text and contents. -/
def Fixed (key : LookupKey) : Prop :=
  ∃ again, decode key.text = .ok again ∧ again.text = key.text ∧ again.kind = key.kind ∧
    again.script = key.script ∧ again.nodes = key.nodes ∧ again.language = key.language

theorem fixed_iff (key : LookupKey) : Fixed key ↔ decode key.text = .ok key := by
  constructor
  · rintro ⟨again, h, -, hk, hs, hn, hl⟩
    rw [h]
    rcases again with ⟨_, _, _, _⟩
    rcases key with ⟨_, _, _, _⟩
    simp only at hk hs hn hl
    rw [hk, hs, hn, hl]
  · exact fun h => ⟨key, h, rfl, rfl, rfl, rfl, rfl⟩

/-- Whether the canonical text of a decoded key says all that the key holds. -/
def GivenBack (key : LookupKey) : Prop :=
  match key.kind with
  | .data => Stable key.nodes key.language
  | .examples => key.language ≠ some []

/-- The canonical text of a decoded key is a fixed point exactly if the key is
given back. -/
theorem text_fixed_iff (s : Text) (key : LookupKey) (h : decode s = .ok key) :
    Fixed key ↔ GivenBack key := by
  rw [fixed_iff]
  obtain ⟨kind, segs, n, hs, -, -, hr⟩ := exists_segments_of_decode s key h
  cases kind with
  | data =>
    obtain ⟨nodes, language, rfl, hreads⟩ := readData_reads segs key hr
    exact ⟨fun hd => (stable_of_decode_text nodes language hd).2,
      decode_text_of_stable .native nodes language (sound_of_reads segs nodes language hs hreads)⟩
  | examples =>
    rcases readExamples_eq_ok segs key hs hr with
      rfl | ⟨script, country, language, rfl, hc, hsc, hl⟩
    · exact ⟨fun _ => by simp [GivenBack], fun _ => rfl⟩
    · constructor
      · rintro hd (rfl : language = some [])
        rw [decode_text_emptyLanguage script country hc hsc] at hd
        cases hd
      · intro hne
        apply decode_text_examples script country [] language hc hsc
        exact fun l hm => ⟨fun he => hne (he ▸ hm), hl l hm⟩

theorem text_fixed_iff_blankLanguage :
    decode "data/US-- --".toList = .ok ⟨.data, .native, ["US".toList], some " ".toList⟩ ∧
      (Fixed ⟨.data, .native, ["US".toList], some " ".toList⟩ ↔
        GivenBack ⟨.data, .native, ["US".toList], some " ".toList⟩) :=
  have h : decode "data/US-- --".toList =
      .ok ⟨.data, .native, ["US".toList], some " ".toList⟩ := rfl
  ⟨h, text_fixed_iff _ _ h⟩

/-- Not every decoded key is given back: an empty language of examples reads
as none, a language of blanks does not read at all, a dash at the end of a
trimmed node is cut off, and so is a slash at the end of a folded one. -/
theorem exists_decoded_not_fixed :
    (∃ key, decode "examples/US/local//x".toList = .ok key ∧ ¬Fixed key) ∧
      (∃ key, decode "data/US-- --".toList = .ok key ∧ ¬Fixed key) ∧
      (∃ key, decode "data/US- --en".toList = .ok key ∧ ¬Fixed key) ∧
      ∃ key, decode "data/A/B/C/D/ ".toList = .ok key ∧ ¬Fixed key := by
  simp only [fixed_iff]
  exact ⟨⟨_, rfl, by decide⟩, ⟨_, rfl, by decide⟩, ⟨_, rfl, by decide⟩, ⟨_, rfl, by decide⟩⟩

end Postal.LookupKey
