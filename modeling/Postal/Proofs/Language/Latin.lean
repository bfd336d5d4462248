import Mathlib.Data.List.TakeWhile
import Postal.Language
import Postal.Proofs.Text.Case

/-!
# Explicitly Latin tags

A tag is cut at its separators, and the two subtags that count are the text up to the first
separator and the text between it and the next one. Only letters are accepted in them, and a
letter is one byte long, so the tags that select Latin script are those of one short grammar. It
does not tell the separators apart, nor the cases of a letter, and it ends with the script.
-/

set_option autoImplicit false

namespace Postal.Language

open Text (SameLetter SameUpToCase)

/-! ## The grammar -/

def IsLetter (c : Char) : Prop :=
  'A'.toNat ≤ c.toNat ∧ c.toNat ≤ 'Z'.toNat ∨ 'a'.toNat ≤ c.toNat ∧ c.toNat ≤ 'z'.toNat

instance (c : Char) : Decidable (IsLetter c) := inferInstanceAs (Decidable (_ ∨ _))

def EndsSubtag (t : Text) : Prop := ∀ c ∈ t.head?, c = '-' ∨ c = '_'

/-- Two or three letters, a separator, `Latn` in any case, and then the end or another separator
with anything behind it. -/
def ExplicitlyLatin (tag : Text) : Prop :=
  ∃ (language : Text) (sep : Char) (script rest : Text),
    tag = language ++ sep :: (script ++ rest) ∧
    (language.length = 2 ∨ language.length = 3) ∧ (∀ c ∈ language, IsLetter c) ∧
    (sep = '-' ∨ sep = '_') ∧ SameUpToCase script "Latn".toList ∧ EndsSubtag rest

theorem isAlpha_iff (c : Char) : c.isAlpha = true ↔ IsLetter c := by
  have hupper : c.isUpper = true ↔ 'A'.toNat ≤ c.toNat ∧ c.toNat ≤ 'Z'.toNat :=
    decide_eq_true_iff
  have hlower : c.isLower = true ↔ 'a'.toNat ≤ c.toNat ∧ c.toNat ≤ 'z'.toNat :=
    (Bool.and_eq_true _ _).to_iff.trans (and_congr decide_eq_true_iff decide_eq_true_iff)
  change (c.isUpper || c.isLower) = true ↔ _
  rw [Bool.or_eq_true, hupper, hlower, IsLetter]

theorem isSeparator_iff (c : Char) : isSeparator c = true ↔ c = '-' ∨ c = '_' := by
  simp [isSeparator]

theorem isSeparator_of_letter (c : Char) (h : IsLetter c) : isSeparator c = false := by
  rw [← Bool.not_eq_true, isSeparator_iff]
  rintro (rfl | rfl) <;> revert h <;> decide

theorem isLanguage_iff (t : Text) : isLanguage t = true ↔
    (t.length = 2 ∨ t.length = 3) ∧ ∀ c ∈ t, IsLetter c := by
  simp [isLanguage, isAlpha_iff]

theorem equalIgnoringCase_iff (s t : Text) : s.equalIgnoringCase t = true ↔ SameUpToCase s t := by
  rw [Text.equalIgnoringCase, beq_iff_eq, Text.upperCase_eq_iff]

theorem letters_of_cases (upper lower : Char) (h : Text.CasesOfLetter upper lower) :
    IsLetter upper ∧ IsLetter lower := by
  obtain ⟨hlow, hhigh, hlower⟩ := h
  have hshift : 'a'.toNat = 'A'.toNat + 32 ∧ 'z'.toNat = 'Z'.toNat + 32 := ⟨rfl, rfl⟩
  exact ⟨.inl ⟨hlow, hhigh⟩, .inr ⟨by omega, by omega⟩⟩

theorem isLetter_of_same (c d : Char) (h : SameLetter c d) (hd : IsLetter d) : IsLetter c := by
  rcases h with rfl | h | h
  · exact hd
  · exact (letters_of_cases c d h).1
  · exact (letters_of_cases d c h).2

theorem letters_of_same (s t : Text) (h : SameUpToCase s t) (ht : ∀ c ∈ t, IsLetter c) :
    ∀ c ∈ s, IsLetter c := by
  induction h with
  | nil => exact ht
  | cons hcd _ ih =>
    obtain ⟨hd, ht⟩ := List.forall_mem_cons.mp ht
    exact List.forall_mem_cons.mpr ⟨isLetter_of_same _ _ hcd hd, ih ht⟩

theorem letters_of_sameLatn (t : Text) (h : SameUpToCase t "Latn".toList) :
    ∀ c ∈ t, IsLetter c := by
  refine letters_of_same t _ h fun c hc => (isAlpha_iff c).mp ?_
  have hall : "Latn".toList.all Char.isAlpha = true := by decide
  exact List.all_eq_true.mp hall c hc

/-! ## Subtags -/

theorem firstSubtag_cons (c : Char) (t : Text) :
    firstSubtag (c :: t) = if isSeparator c then [] else c :: firstSubtag t := by
  rw [firstSubtag, List.takeWhile_cons]
  cases isSeparator c <;> rfl

theorem afterFirst?_cons (c : Char) (t : Text) :
    afterFirst? (c :: t) = if isSeparator c then some t else afterFirst? t := by
  rw [afterFirst?, List.dropWhile_cons]
  cases isSeparator c <;> rfl

theorem exists_firstSubtag (t : Text) :
    ∃ rest, t = firstSubtag t ++ rest ∧ EndsSubtag rest ∧ afterFirst? t = rest.tail? := by
  induction t with
  | nil => exact ⟨[], rfl, fun c hc => absurd hc (by simp), rfl⟩
  | cons c t ih =>
    rw [firstSubtag_cons, afterFirst?_cons]
    by_cases hc : isSeparator c = true
    · rw [if_pos hc, if_pos hc]
      refine ⟨c :: t, rfl, ?_, rfl⟩
      rintro d ⟨⟩
      exact (isSeparator_iff c).mp hc
    · rw [if_neg hc, if_neg hc]
      obtain ⟨rest, hrest, hends, hafter⟩ := ih
      exact ⟨rest, congrArg (c :: ·) hrest, hends, hafter⟩

theorem subtags_append (s rest : Text) (hs : ∀ c ∈ s, isSeparator c = false)
    (hr : EndsSubtag rest) : firstSubtag (s ++ rest) = s ∧ afterFirst? (s ++ rest) = rest.tail? := by
  induction s with
  | nil =>
    cases rest with
    | nil => exact ⟨rfl, rfl⟩
    | cons c rest =>
      have hc := (isSeparator_iff c).mpr (hr c rfl)
      rw [List.nil_append, firstSubtag_cons, afterFirst?_cons, if_pos hc, if_pos hc]
      exact ⟨rfl, rfl⟩
  | cons c s ih =>
    obtain ⟨hc, hs⟩ := List.forall_mem_cons.mp hs
    obtain ⟨hfirst, hafter⟩ := ih hs
    rw [List.cons_append, firstSubtag_cons, afterFirst?_cons, hc]
    exact ⟨congrArg (c :: ·) hfirst, hafter⟩

theorem isLatin_append (language script rest : Text) (sep : Char)
    (hl : ∀ c ∈ language, isSeparator c = false) (hsep : sep = '-' ∨ sep = '_')
    (hs : ∀ c ∈ script, isSeparator c = false) (hr : EndsSubtag rest) :
    isLatin (language ++ sep :: (script ++ rest)) =
      (isLanguage language && script.equalIgnoringCase "Latn".toList) := by
  have hends : EndsSubtag (sep :: (script ++ rest)) := by
    rintro c ⟨⟩
    exact hsep
  obtain ⟨hfirst, hafter⟩ := subtags_append language _ hl hends
  rw [isLatin, hfirst, hafter]
  change (isLanguage language && (firstSubtag (script ++ rest)).equalIgnoringCase _) = _
  rw [(subtags_append script rest hs hr).1]

theorem isLatin_iff (tag : Text) : isLatin tag = true ↔ ExplicitlyLatin tag := by
  constructor
  · intro h
    obtain ⟨rest, htag, hends, hafter⟩ := exists_firstSubtag tag
    rw [isLatin, hafter] at h
    cases rest with
    | nil => cases h
    | cons sep rest =>
      obtain ⟨hlanguage, hscript⟩ := Bool.and_eq_true_iff.mp h
      obtain ⟨hlength, hletters⟩ := (isLanguage_iff _).mp hlanguage
      obtain ⟨more, hrest, hmore, -⟩ := exists_firstSubtag rest
      rw [hrest] at htag
      exact ⟨_, sep, _, more, htag, hlength, hletters, hends sep rfl,
        (equalIgnoringCase_iff _ _).mp hscript, hmore⟩
  · rintro ⟨language, sep, script, rest, rfl, hlength, hletters, hsep, hscript, hrest⟩
    have hlatn := letters_of_sameLatn script hscript
    rw [isLatin_append language script rest sep
      (fun c hc => isSeparator_of_letter c (hletters c hc)) hsep
      (fun c hc => isSeparator_of_letter c (hlatn c hc)) hrest, Bool.and_eq_true]
    exact ⟨(isLanguage_iff language).mpr ⟨hlength, hletters⟩, (equalIgnoringCase_iff _ _).mpr hscript⟩

/-! ## Tags that are told apart by nothing that counts -/

def SameCharacter (c d : Char) : Prop :=
  SameLetter c d ∨ (c = '-' ∨ c = '_') ∧ (d = '-' ∨ d = '_')

/-- The same tag up to the choice of separators and the case of letters. -/
def SameTag (s t : Text) : Prop := List.Forall₂ SameCharacter s t

instance (c d : Char) : Decidable (SameCharacter c d) :=
  have : Decidable (SameLetter c d) := decidable_of_iff _ (Text.toUpper_eq_iff c d)
  inferInstanceAs (Decidable (_ ∨ _))

instance (s t : Text) : Decidable (SameTag s t) :=
  inferInstanceAs (Decidable (List.Forall₂ SameCharacter s t))

theorem SameCharacter.symm {c d : Char} (h : SameCharacter c d) : SameCharacter d c := by
  rcases h with (rfl | h | h) | ⟨hc, hd⟩
  · exact .inl (.inl rfl)
  · exact .inl (.inr (.inr h))
  · exact .inl (.inr (.inl h))
  · exact .inr ⟨hd, hc⟩

theorem SameTag.symm {s t : Text} (h : SameTag s t) : SameTag t s :=
  (h.imp fun _ _ hcd => hcd.symm).flip

theorem separator_of_same (c d : Char) (h : SameCharacter c d) (hd : d = '-' ∨ d = '_') :
    c = '-' ∨ c = '_' := by
  have hn : ¬IsLetter d := fun hl => by
    rw [← isSeparator_iff, isSeparator_of_letter d hl] at hd
    cases hd
  rcases h with (rfl | h | h) | ⟨hc, -⟩
  · exact hd
  · exact absurd (letters_of_cases c d h).2 hn
  · exact absurd (letters_of_cases d c h).1 hn
  · exact hc

theorem sameUpToCase_of_sameTag (s t : Text) (h : SameTag s t) (ht : ∀ c ∈ t, IsLetter c) :
    SameUpToCase s t := by
  induction h with
  | nil => exact .nil
  | cons hcd _ ih =>
    obtain ⟨hd, ht⟩ := List.forall_mem_cons.mp ht
    refine .cons (hcd.resolve_right fun hsep => ?_) (ih ht)
    have hno := isSeparator_of_letter _ hd
    rw [(isSeparator_iff _).mpr hsep.2] at hno
    cases hno

theorem explicitlyLatin_of_same (s t : Text) (h : SameTag s t) (ht : ExplicitlyLatin t) :
    ExplicitlyLatin s := by
  obtain ⟨language, sep, script, rest, rfl, hlength, hletters, hsep, hscript, hrest⟩ := ht
  obtain ⟨sep', behind, hsep', hbehind, hs⟩ :=
    List.forall₂_cons_right_iff.mp (List.forall₂_drop_append s language _ h)
  have hlanguage := sameUpToCase_of_sameTag _ language
    (List.forall₂_take_append s language _ h) hletters
  have hlatn := letters_of_sameLatn script hscript
  have hscript' := sameUpToCase_of_sameTag _ script
    (List.forall₂_take_append behind script rest hbehind) hlatn
  have hrest' := List.forall₂_drop_append behind script rest hbehind
  refine ⟨s.take language.length, sep', behind.take script.length, behind.drop script.length,
    ?_, by rwa [hlanguage.length_eq], letters_of_same _ language hlanguage hletters,
    separator_of_same sep' sep hsep' hsep, ?_, ?_⟩
  · rw [List.take_append_drop, ← hs, List.take_append_drop]
  · rw [← Text.upperCase_eq_iff] at hscript hscript' ⊢
    exact hscript'.trans hscript
  · intro c hc
    generalize behind.drop script.length = more at hrest' hc
    cases hrest' with
    | nil => cases hc
    | cons hcd _ =>
      cases hc
      exact separator_of_same c _ hcd (hrest _ rfl)

theorem isLatin_of_same (s t : Text) (h : SameTag s t) : isLatin s = isLatin t := by
  rw [Bool.eq_iff_iff, isLatin_iff, isLatin_iff]
  exact ⟨explicitlyLatin_of_same t s h.symm, explicitlyLatin_of_same s t h⟩

/-! ## Readers of subtags -/

/-- Two or three letters are read as a language and four as a script, in any case. -/
structure SubtagReaders.Lawful {ι σ : Type} (readers : SubtagReaders ι σ) : Prop where
  language : ∀ t, (readers.language? t).isSome ↔
    (t.length = 2 ∨ t.length = 3) ∧ ∀ c ∈ t, IsLetter c
  script : ∀ t, (readers.script? t).isSome ↔ t.length = 4 ∧ ∀ c ∈ t, IsLetter c
  same : ∀ s t, (readers.script? s).isSome → (readers.script? t).isSome →
    (readers.script? s = readers.script? t ↔ SameUpToCase s t)

theorem splitOnP_subtags (t : Text) : t.splitOnP isSeparator =
    firstSubtag t :: ((afterFirst? t).map fun rest => rest.splitOnP isSeparator).getD [] := by
  induction t with
  | nil => rfl
  | cons c t ih =>
    rw [List.splitOnP_cons_eq_if_modifyHead, firstSubtag_cons, afterFirst?_cons]
    by_cases hc : isSeparator c = true
    · rw [if_pos hc, if_pos hc, if_pos hc]
      rfl
    · rw [if_neg hc, if_neg hc, if_neg hc, ih]
      rfl

theorem byteLength_of_letters (t : Text) (h : ∀ c ∈ t, IsLetter c) :
    Text.byteLength t = t.length := by
  induction t with
  | nil => rfl
  | cons c t ih =>
    obtain ⟨hc, ht⟩ := List.forall_mem_cons.mp h
    have hone : c.utf8Size = 1 := by
      have hz : 'z'.toNat = 122 := rfl
      have hZ : 'Z'.toNat = 90 := rfl
      have hle : c.toNat ≤ 127 := by
        rcases hc with hc | hc <;> omega
      exact Char.utf8Size_eq_one_iff.mpr hle
    rw [Text.byteLength, ih ht, hone, List.length_cons, Nat.add_comm]

theorem isLanguage_of_readers {ι σ : Type} (readers : SubtagReaders ι σ) (h : readers.Lawful)
    (t : Text) : ((2 ≤ Text.byteLength t && Text.byteLength t ≤ 3) &&
      (readers.language? t).isSome) = isLanguage t := by
  rw [Bool.eq_iff_iff, Bool.and_eq_true, h.language, isLanguage_iff]
  refine and_iff_right_of_imp fun ⟨hlength, hletters⟩ => ?_
  rw [byteLength_of_letters t hletters]
  rcases hlength with hl | hl <;> rw [hl] <;> decide

theorem equalIgnoringCase_of_readers {ι σ : Type} [DecidableEq σ] (readers : SubtagReaders ι σ)
    (h : readers.Lawful) (t : Text) :
    ((readers.script? t).isSome && readers.script? t = readers.script? "Latn".toList) =
      t.equalIgnoringCase "Latn".toList := by
  have hlatn := letters_of_sameLatn _ ((Text.upperCase_eq_iff "Latn".toList _).mp rfl)
  have hsome : (readers.script? "Latn".toList).isSome := (h.script _).mpr ⟨rfl, hlatn⟩
  rw [Bool.eq_iff_iff, Bool.and_eq_true, decide_eq_true_eq, equalIgnoringCase_iff]
  constructor
  · rintro ⟨ht, he⟩
    exact (h.same t _ ht hsome).mp he
  · intro hs
    have ht : (readers.script? t).isSome :=
      (h.script t).mpr ⟨hs.length_eq, letters_of_sameLatn t hs⟩
    exact ⟨ht, (h.same t _ ht hsome).mpr hs⟩

theorem selectsLatin_eq {ι σ : Type} [DecidableEq σ] (readers : SubtagReaders ι σ)
    (h : readers.Lawful) (tag : Text) : readers.selectsLatin tag = isLatin tag := by
  rw [SubtagReaders.selectsLatin, splitOnP_subtags, isLatin]
  cases afterFirst? tag with
  | none => rfl
  | some rest =>
    rw [Option.map_some, Option.getD_some, splitOnP_subtags]
    change (_ && _) = _
    rw [isLanguage_of_readers readers h, equalIgnoringCase_of_readers readers h]

/-- A tag selects Latin script exactly if it is of the grammar, and so it is found by the subtags
that any library of locales reads. Neither the choice of separators nor the case of letters nor
anything behind the script makes a difference. -/
theorem isLatin_exactly (tag : Text) :
    (isLatin tag = true ↔ ExplicitlyLatin tag) ∧
    (∀ (ι σ : Type) [DecidableEq σ] (readers : SubtagReaders ι σ), readers.Lawful →
      readers.selectsLatin tag = isLatin tag) ∧
    (∀ other, SameTag other tag → isLatin other = isLatin tag) ∧
    ∀ (language : Text) (sep : Char) (script rest : Text),
      (∀ c ∈ language ++ script, ¬(c = '-' ∨ c = '_')) → (sep = '-' ∨ sep = '_') →
      EndsSubtag rest → tag = language ++ sep :: (script ++ rest) →
        isLatin tag = isLatin (language ++ sep :: script) := by
  refine ⟨isLatin_iff tag, fun ι σ _ readers h => selectsLatin_eq readers h tag,
    fun other h => isLatin_of_same other tag h, ?_⟩
  rintro language sep script rest hnone hsep hrest rfl
  have hno : ∀ c ∈ language ++ script, isSeparator c = false := fun c hc => by
    rw [← Bool.not_eq_true, isSeparator_iff]
    exact hnone c hc
  obtain ⟨hl, hs⟩ := List.forall_mem_append.mp hno
  have hend : EndsSubtag [] := fun c hc => absurd hc (by simp)
  have hbare := isLatin_append language script [] sep hl hsep hs hend
  rw [List.append_nil] at hbare
  rw [isLatin_append language script rest sep hl hsep hs hrest, hbare]

def upperCaseReaders : SubtagReaders Text Text where
  language? t := if isLanguage t then some t.upperCase else none
  script? t := if t.length == 4 && t.all Char.isAlpha then some t.upperCase else none

theorem upperCaseReaders_lawful : upperCaseReaders.Lawful where
  language t := by
    rw [← isLanguage_iff]
    by_cases h : isLanguage t = true <;> simp [upperCaseReaders, h]
  script t := by simp [upperCaseReaders, isAlpha_iff]
  same s t hs ht := by
    have hs' := Option.isSome_ite.mp hs
    have ht' := Option.isSome_ite.mp ht
    change (if _ then _ else _) = (if _ then _ else _) ↔ _
    rw [if_pos hs', if_pos ht', Option.some_inj, Text.upperCase_eq_iff]

theorem isLatin_exactly_region :
    let tag := "ja_latn-JP".toList
    upperCaseReaders.Lawful ∧ upperCaseReaders.selectsLatin tag = true ∧
      SameTag "JA-Latn-jp".toList tag ∧ isLatin "JA-Latn-jp".toList = true ∧
      (∀ c ∈ "ja".toList ++ "latn".toList, ¬(c = '-' ∨ c = '_')) ∧ EndsSubtag "-JP".toList ∧
      isLatin "ja_latn".toList = true := by
  intro tag
  obtain ⟨-, hreaders, hsame, hrest⟩ := isLatin_exactly tag
  have hlatin : isLatin tag = true := by decide
  have hother : SameTag "JA-Latn-jp".toList tag := by decide
  have hnone : ∀ c ∈ "ja".toList ++ "latn".toList, ¬(c = '-' ∨ c = '_') := by simp
  have hends : EndsSubtag "-JP".toList := by
    rintro c ⟨⟩
    exact .inl rfl
  exact ⟨upperCaseReaders_lawful, (hreaders Text Text _ upperCaseReaders_lawful).trans hlatin, hother,
    (hsame _ hother).trans hlatin, hnone, hends,
    (hrest "ja".toList '_' "latn".toList "-JP".toList hnone (.inr rfl) hends rfl).symm.trans hlatin⟩

/-- Two bytes are not two letters. -/
example : isLatin "ä-Latn".toList = false := by decide

end Postal.Language
