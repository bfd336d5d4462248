import Postal.LookupKey.Decoding
import Postal.Proofs.Outcome
import Postal.Proofs.Text.Splitting
import Postal.Proofs.Text.Trimming

/-!
# What reading the levels of a data key yields

The relation `Reads` says, segment by segment, how nodes and language come out
of the segments behind the kind. What the nodes may hold, where a slash may
stand, and how much text reading may drop are inductions on that relation and
need not look at the reader again.
-/

set_option autoImplicit false

namespace Postal.LookupKey

open Text (Doubled Parted Tidy)

def withSuffix : List Text → Option Text → List Text
  | [], _ => []
  | [node], some language => [node ++ '-' :: '-' :: language]
  | [node], none => [node]
  | node :: next :: rest, language => node :: withSuffix (next :: rest) language

theorem text_data (script : Script) (nodes : List Text) (language : Option Text) :
    text ⟨.data, script, nodes, language⟩ =
      KeyKind.data.name ++ segments (withSuffix nodes language) := by
  have h : segments nodes ++ languageSuffix ⟨.data, script, nodes, language⟩ =
      segments (withSuffix nodes language) := by
    induction nodes with
    | nil => rfl
    | cons node rest ih =>
      cases rest with
      | nil => cases language <;> simp [withSuffix, languageSuffix]
      | cons next rest =>
        rw [withSuffix, segments_cons node (next :: rest),
          segments_cons node (withSuffix (next :: rest) language), ← ih, List.append_assoc]
        cases language <;> rfl
  rw [← h, ← List.append_assoc]
  rfl

/-- How a trimmed segment divides into the text before its dashes and the
language behind them. Dashes at the end of the segment count for nothing. -/
inductive Divides : Text → Text → Option Text → Prop
  | plain (segment : Text) (hd : ¬Doubled '-' segment) : Divides segment segment none
  | suffixed (raw node language : Text) (pairs : ℕ) (hd : ¬Doubled '-' raw)
      (hl : raw.getLast? ≠ some '-') (ht : Text.trimmed? raw = some node)
      (hld : ¬Doubled '-' language) (hln : language ≠ []) :
      Divides (raw ++ '-' :: '-' :: language ++ List.replicate (2 * pairs) '-') node (some language)

inductive Reads : List Text → List Text → Option Text → Prop
  | done : Reads [] [] none
  | blank (segment : Text) (rest : List Text) (ht : Text.trimmed? segment = none) :
      Reads (segment :: rest) [] none
  | node (segment node : Text) (rest nodes : List Text) (language : Option Text)
      (ht : Text.trimmed? segment = some node) (hd : ¬Doubled '-' node)
      (hr : Reads rest nodes language) : Reads (segment :: rest) (node :: nodes) language
  | last (segment value node language : Text) (rest : List Text)
      (ht : Text.trimmed? segment = some value) (hd : Divides value node (some language)) :
      Reads (segment :: rest) [node] (some language)

theorem splitLanguage_plain (segment : Text) (h : ¬Doubled '-' segment) :
    splitLanguage segment = .ok (segment, none) := by
  rw [splitLanguage, Text.splitOnDouble_of_not_doubled '-' segment h]

theorem splitLanguage_eq_suffixed (segment node language : Text) :
    splitLanguage segment = .ok (node, some language) ↔
      ∃ raw, Parted '-' segment raw language ∧ Text.trimmed? raw = some node := by
  constructor
  · intro h
    unfold splitLanguage at h
    split at h
    · cases h
    · split at h
      · rename_i raw _ hr
        split at h
        · rename_i value ht
          cases h
          exact ⟨raw, (Text.dropEmptyEnd_splitOnDouble '-' segment raw language).mp hr, ht⟩
        · cases h
      · cases h
  · rintro ⟨raw, hp, ht⟩
    have hk := (Text.dropEmptyEnd_splitOnDouble '-' segment raw language).mpr hp
    unfold splitLanguage
    split
    · rename_i piece hs
      rw [hs, Text.dropEmptyEnd] at hk
      by_cases hpiece : piece = [] <;> simp [Text.dropEmptyEnd, hpiece] at hk
    · simp only [hk, ht]

theorem splitLanguage_of_doubled (segment : Text) (h : Doubled '-' segment) :
    (∃ node language, splitLanguage segment = .ok (node, some language)) ∨
      splitLanguage segment = .error (.malformedLanguage segment) := by
  unfold splitLanguage
  split
  · rename_i piece hp
    have hj := Text.join_splitOnDouble '-' segment
    rw [hp] at hj
    obtain rfl : piece = segment := hj
    exact absurd h (Text.not_doubled_of_mem_splitOnDouble '-' piece piece (by simp [hp]))
  · split
    · split
      · exact .inl ⟨_, _, rfl⟩
      · exact .inr rfl
    · exact .inr rfl

theorem divides_of_splitLanguage (segment node : Text) (language : Option Text)
    (h : splitLanguage segment = .ok (node, language)) : Divides segment node language := by
  cases language with
  | none =>
    by_cases hd : Doubled '-' segment
    · rcases splitLanguage_of_doubled segment hd with ⟨_, _, hs⟩ | hs <;> simp [hs] at h
    · rw [splitLanguage_plain segment hd] at h
      cases h
      exact .plain _ hd
  | some tag =>
    obtain ⟨raw, ⟨pairs, rfl, hd, hl, hld, hln, -⟩, ht⟩ :=
      (splitLanguage_eq_suffixed segment node tag).mp h
    exact .suffixed raw node tag pairs hd hl ht hld hln

theorem splitLanguage_suffixed (node language : Text) (hn : Tidy node) (hd : ¬Doubled '-' node)
    (hl : node.getLast? ≠ some '-') (hld : ¬Doubled '-' language) (hln : language ≠ []) :
    splitLanguage (node ++ '-' :: '-' :: language) = .ok (node, some language) := by
  have hp : Text.splitOnDouble '-' (node ++ '-' :: '-' :: language) = [node, language] := by
    rw [Text.splitOnDouble_append '-' node language hd hl,
      Text.splitOnDouble_of_not_doubled '-' language hld]
  have hk : Text.dropEmptyEnd [node, language] = [node, language] :=
    Text.dropEmptyEnd_of_getLast? _ (by simpa using hln)
  simp only [splitLanguage, hp, hk, Text.trimmed?_of_tidy node hn]

theorem reads_of_readLevels (segs nodes : List Text) (language : Option Text)
    (h : readLevels segs = .ok (nodes, language)) : Reads segs nodes language := by
  induction segs generalizing nodes language with
  | nil =>
    cases h
    exact .done
  | cons segment rest ih =>
    rw [readLevels] at h
    split at h
    · rename_i ht
      cases h
      exact .blank segment rest ht
    · rename_i value ht
      obtain ⟨⟨node, found⟩, hs, h⟩ := (bind_eq_ok _ _ _).mp h
      have hd := divides_of_splitLanguage value node found hs
      cases found with
      | none =>
        obtain ⟨⟨more, tag⟩, hr, h⟩ := (bind_eq_ok _ _ _).mp h
        cases h
        cases hd with
        | plain _ hd => exact .node segment value rest more language ht hd (ih more language hr)
      | some tag =>
        simp only at h
        split at h
        · cases h
        · cases h
          exact .last segment value node tag rest ht hd

theorem not_doubled_of_infix (mark : Char) (s t : Text) (hs : s <:+: t) (ht : ¬Doubled mark t) :
    ¬Doubled mark s := fun h => ht (h.trans hs)

theorem reads_length (segs nodes : List Text) (language : Option Text)
    (h : Reads segs nodes language) : nodes.length ≤ segs.length := by
  induction h with
  | done => exact Nat.le_refl 0
  | blank => exact Nat.zero_le _
  | node _ _ _ _ _ _ _ _ ih => exact Nat.succ_le_succ ih
  | last => exact Nat.succ_le_succ (Nat.zero_le _)

theorem reads_nodes (segs nodes : List Text) (language : Option Text)
    (h : Reads segs nodes language) : ∀ n ∈ nodes, Tidy n ∧ ¬Doubled '-' n := by
  induction h with
  | done => simp
  | blank => simp
  | node segment node rest nodes language ht hd hr ih =>
    exact List.forall_mem_cons.mpr ⟨⟨Text.tidy_of_trimmed? segment node ht, hd⟩, ih⟩
  | last segment value node language rest ht hd =>
    cases hd with
    | suffixed raw _ _ pairs hd _ hr _ _ =>
      intro n hn
      rw [List.mem_singleton.mp hn]
      exact ⟨Text.tidy_of_trimmed? raw node hr,
        not_doubled_of_infix '-' node raw (Text.trimmed?_infix raw node hr) hd⟩

theorem reads_language (segs nodes : List Text) (language : Option Text)
    (h : Reads segs nodes language) :
    ∀ l ∈ language, nodes ≠ [] ∧ l ≠ [] ∧ ¬Doubled '-' l := by
  induction h with
  | done => simp
  | blank => simp
  | node segment node rest nodes language ht hd hr ih =>
    intro l hl
    exact ⟨List.cons_ne_nil _ _, (ih l hl).2⟩
  | last segment value node language rest ht hd =>
    cases hd with
    | suffixed raw _ _ pairs _ _ _ hld hln =>
      rintro l ⟨⟩
      exact ⟨List.cons_ne_nil _ _, hln, hld⟩

/-- Where the leading segments are free of slashes, so are the nodes read from
them, and a language with a slash stands behind them. -/
theorem reads_slash (segs nodes : List Text) (language : Option Text)
    (h : Reads segs nodes language) (k : ℕ) (hs : ∀ s ∈ segs.take k, '/' ∉ s) :
    (∀ n ∈ nodes.take k, '/' ∉ n) ∧ ∀ l ∈ language, '/' ∈ l → k < nodes.length := by
  induction h generalizing k with
  | done => simp
  | blank => simp
  | node segment node rest nodes language ht hd hr ih =>
    cases k with
    | zero => exact ⟨by simp, fun l hl hm => Nat.succ_pos _⟩
    | succ k =>
      rw [List.take_succ_cons, List.forall_mem_cons] at hs
      obtain ⟨hn, hl⟩ := ih k hs.2
      constructor
      · rw [List.take_succ_cons, List.forall_mem_cons]
        exact ⟨fun hc => hs.1 ((Text.trimmed?_infix segment node ht).subset hc), hn⟩
      · intro l hm hc
        exact Nat.succ_lt_succ (hl l hm hc)
  | last segment value node language rest ht hd =>
    cases k with
    | zero => exact ⟨by simp, fun l hl hm => Nat.succ_pos _⟩
    | succ k =>
      rw [List.take_succ_cons, List.forall_mem_cons] at hs
      have hv : '/' ∉ value := fun hc => hs.1 ((Text.trimmed?_infix segment value ht).subset hc)
      cases hd with
      | suffixed raw _ _ pairs _ _ hr _ _ =>
        have hn : '/' ∉ node := fun hc =>
          hv (by simp [(Text.trimmed?_infix raw node hr).subset hc])
        constructor
        · simpa using hn
        · rintro l ⟨⟩ hc
          exact absurd (by simp [hc]) hv

/-- The text behind the dashes is not cut further, and the dashes are the first. -/
def Tight (nodes : List Text) (language : Option Text) : Prop :=
  ∀ l ∈ language, (∀ n ∈ nodes.getLast?, n.getLast? ≠ some '-') ∧
    ∀ c ∈ l.getLast?, Text.isBlank c = false

theorem segments_withSuffix_cons (node : Text) (nodes : List Text) (language : Option Text)
    (h : ∀ l ∈ language, nodes ≠ []) :
    segments (withSuffix (node :: nodes) language) =
      '/' :: node ++ segments (withSuffix nodes language) := by
  cases nodes with
  | nil =>
    cases language with
    | none => rfl
    | some l => exact absurd rfl (h l rfl)
  | cons next rest => rfl

/-- Reading never lengthens the text, and where it keeps the length it has
found the dashes and the end of the language as they would be written. -/
theorem reads_tight (segs nodes : List Text) (language : Option Text)
    (h : Reads segs nodes language) :
    (segments (withSuffix nodes language)).length ≤ (segments segs).length ∧
      ((segments segs).length ≤ (segments (withSuffix nodes language)).length →
        Tight nodes language) := by
  induction h with
  | done => exact ⟨Nat.le_refl _, fun _ l hl => absurd hl (by simp)⟩
  | blank segment rest ht => exact ⟨Nat.zero_le _, fun _ l hl => absurd hl (by simp)⟩
  | node segment node rest nodes language ht hd hr ih =>
    have hne := fun l hl => (reads_language rest nodes language hr l hl).1
    have hlen := (Text.trimmed?_infix segment node ht).length_le
    rw [segments_withSuffix_cons node nodes language hne, segments_cons]
    simp only [List.length_append, List.length_cons]
    constructor
    · omega
    · intro hle l hl
      rw [List.getLast?_cons_of_ne_nil (hne l hl)]
      exact ih.2 (by omega) l hl
  | last segment value node language rest ht hd =>
    have hlen := (Text.trimmed?_infix segment value ht).length_le
    have htidy := Text.tidy_of_trimmed? segment value ht
    cases hd with
    | suffixed raw _ _ pairs _ hl hr _ hln =>
      have hraw := (Text.trimmed?_infix raw node hr).length_le
      simp only [withSuffix, segments_cons, List.length_append, List.length_cons,
        List.length_replicate] at hlen ⊢
      have hnil : (segments []).length = 0 := rfl
      constructor
      · omega
      · rintro hle l ⟨⟩
        have hnode : node = raw := (Text.trimmed?_infix raw node hr).eq_of_length (by omega)
        have hpairs : pairs = 0 := by omega
        constructor
        · simpa [hnode] using hl
        · intro c hc
          obtain ⟨init, rfl⟩ := List.getLast?_eq_some_iff.mp hc
          have hv : raw ++ '-' :: '-' :: (init ++ [c]) ++ List.replicate (2 * pairs) '-' =
              raw ++ '-' :: '-' :: init ++ [c] := by simp [hpairs]
          have hlast := htidy.2
          rw [hv, List.getLast?_concat] at hlast
          simpa using hlast

theorem trimmed?_suffixed (node language : Text) (hn : Tidy node) (hne : language ≠ [])
    (hl : ∀ c ∈ language.getLast?, Text.isBlank c = false) :
    Text.trimmed? (node ++ '-' :: '-' :: language) = some (node ++ '-' :: '-' :: language) := by
  apply Text.trimmed?_of_tidy
  constructor
  · cases node with
    | nil => exact absurd rfl (Text.tidy_ne_nil [] hn)
    | cons c rest => exact hn.1
  · obtain ⟨init, c, rfl⟩ := (List.eq_nil_or_concat' language).resolve_left hne
    have hc := hl c (by simp)
    rw [← List.cons_append, ← List.cons_append, ← List.append_assoc, List.getLast?_concat]
    simp [hc]

theorem readLevels_withSuffix (nodes : List Text) (language : Option Text)
    (hn : ∀ n ∈ nodes, Tidy n ∧ ¬Doubled '-' n)
    (hl : ∀ l ∈ language, nodes ≠ [] ∧ l ≠ [] ∧ ¬Doubled '-' l) (ht : Tight nodes language) :
    readLevels (withSuffix nodes language) = .ok (nodes, language) := by
  induction nodes with
  | nil =>
    cases language with
    | none => rfl
    | some l => exact absurd rfl (hl l rfl).1
  | cons node rest ih =>
    obtain ⟨⟨htidy, hdouble⟩, hrest⟩ := List.forall_mem_cons.mp hn
    have hplain := splitLanguage_plain node hdouble
    cases rest with
    | nil =>
      cases language with
      | none =>
        rw [withSuffix, readLevels, Text.trimmed?_of_tidy node htidy]
        simp only [hplain, ok_bind]
        rfl
      | some l =>
        obtain ⟨hdash, hend⟩ := ht l rfl
        obtain ⟨-, hne, hld⟩ := hl l rfl
        have hs := splitLanguage_suffixed node l htidy hdouble (hdash node rfl) hld hne
        rw [withSuffix, readLevels, trimmed?_suffixed node l htidy hne hend]
        simp only [hs, ok_bind]
        rfl
    | cons next rest =>
      have hr := ih hrest (fun l hm => ⟨List.cons_ne_nil _ _, (hl l hm).2⟩) fun l hm => by
        have := ht l hm
        rwa [List.getLast?_cons_cons] at this
      rw [withSuffix, readLevels, Text.trimmed?_of_tidy node htidy]
      simp only [hplain, hr, ok_bind]
      rfl

end Postal.LookupKey
