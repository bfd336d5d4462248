import Mathlib.Data.List.DropRight
import Postal.Text

/-!
# Trimmed texts

Trimming takes blanks from both ends of a text and touches nothing between
them. The texts that come out of it are those with a character above U+0020
at either end, and trimming leaves these as they are.
-/

set_option autoImplicit false

namespace Postal.Text

/-- The text begins and ends with a character that is not blank. -/
def Tidy (t : Text) : Prop := t.head?.any (!isBlank ·) ∧ t.getLast?.any (!isBlank ·)

instance (t : Text) : Decidable (Tidy t) := inferInstanceAs (Decidable (_ ∧ _))

theorem tidy_ne_nil (t : Text) (h : Tidy t) : t ≠ [] := by
  rintro rfl
  exact absurd h.1 (by decide)

theorem trimEnd_eq_rdropWhile (t : Text) : trimEnd t = t.rdropWhile isBlank := by
  induction t with
  | nil => rfl
  | cons c rest ih =>
    rw [trimEnd, ih]
    by_cases hr : rest.rdropWhile isBlank = []
    · have hb : ∀ d ∈ rest, isBlank d = true := List.rdropWhile_eq_nil_iff.mp hr
      rw [hr]
      by_cases hc : isBlank c = true
      · have hn : (c :: rest).rdropWhile isBlank = [] :=
          List.rdropWhile_eq_nil_iff.mpr (List.forall_mem_cons.mpr ⟨hc, hb⟩)
        simp [hc, hn]
      · have hd : (c :: rest).rdropWhile isBlank = [c] := by
          rw [List.rdropWhile, List.reverse_cons, List.dropWhile_append_of_pos (by simpa using hb)]
          simp [hc]
        simp [hc, hd]
    · have hd : (c :: rest).rdropWhile isBlank = c :: rest.rdropWhile isBlank := by
        have hne : rest.reverse.dropWhile isBlank ≠ [] := fun h => hr (by simp [List.rdropWhile, h])
        rw [List.rdropWhile, List.reverse_cons, List.dropWhile_append, if_neg (by simpa using hne)]
        simp [List.rdropWhile]
      rw [hd]
      cases hk : rest.rdropWhile isBlank with
      | nil => exact absurd hk hr
      | cons d kept => rfl

theorem trim_infix (t : Text) : trim t <:+: t := by
  have hp : trim t <+: t.dropWhile isBlank := by
    rw [trim, trimEnd_eq_rdropWhile]
    exact List.rdropWhile_prefix _ _
  exact hp.isInfix.trans (List.dropWhile_suffix _).isInfix

theorem trimmed?_eq_some (t s : Text) : trimmed? t = some s ↔ trim t = s ∧ s ≠ [] := by
  unfold trimmed?
  split
  · rename_i h
    rw [h]
    constructor
    · intro hs
      cases hs
    · rintro ⟨rfl, hs⟩
      exact absurd rfl hs
  · rename_i c rest h
    rw [h]
    constructor
    · intro hs
      cases hs
      exact ⟨rfl, List.cons_ne_nil c rest⟩
    · rintro ⟨rfl, -⟩
      rfl

theorem trimmed?_infix (t s : Text) (h : trimmed? t = some s) : s <:+: t := by
  rw [← ((trimmed?_eq_some t s).mp h).1]
  exact trim_infix t

theorem trim_of_tidy (t : Text) (h : Tidy t) : trim t = t := by
  obtain ⟨hh, hl⟩ := h
  have hd : t.dropWhile isBlank = t := by
    cases t with
    | nil => rfl
    | cons c rest =>
      have hc : isBlank c = false := by simpa using hh
      simp [hc]
  rw [trim, hd, trimEnd_eq_rdropWhile, List.rdropWhile_eq_self_iff]
  intro hne
  have hg := List.getLast?_eq_some_getLast hne
  rw [hg] at hl
  simpa using hl

theorem trimmed?_of_tidy (t : Text) (h : Tidy t) : trimmed? t = some t :=
  (trimmed?_eq_some t t).mpr ⟨trim_of_tidy t h, tidy_ne_nil t h⟩

theorem tidy_of_trimmed? (t s : Text) (h : trimmed? t = some s) : Tidy s := by
  obtain ⟨hs, hne⟩ := (trimmed?_eq_some t s).mp h
  rw [trim, trimEnd_eq_rdropWhile] at hs
  have hp : s <+: t.dropWhile isBlank := hs ▸ List.rdropWhile_prefix _ _
  constructor
  · -- The first character is where the leading blanks ended.
    obtain ⟨c, rest, rfl⟩ := List.exists_cons_of_ne_nil hne
    obtain ⟨more, hm⟩ := hp
    have hc := List.head?_dropWhile_not isBlank t
    rw [← hm] at hc
    simpa using hc
  · have hne' : (t.dropWhile isBlank).rdropWhile isBlank ≠ [] := hs ▸ hne
    have hl := List.rdropWhile_last_not _ _ hne'
    subst hs
    rw [List.getLast?_eq_some_getLast hne']
    simpa using hl

theorem tidy_reverse (t : Text) : Tidy t.reverse ↔ Tidy t := by
  rw [Tidy, List.head?_reverse, List.getLast?_reverse, Tidy]
  exact and_comm

theorem infix_dropWhile (u t : Text) (hu : Tidy u) (h : u <:+: t) :
    u <:+: t.dropWhile isBlank := by
  induction t with
  | nil => exact h
  | cons c rest ih =>
    by_cases hc : isBlank c = true
    · rw [List.dropWhile_cons_of_pos hc]
      rcases List.infix_cons_iff.mp h with hp | hi
      · -- The stretch would begin with the blank.
        obtain ⟨d, tail, rfl⟩ := List.exists_cons_of_ne_nil (tidy_ne_nil u hu)
        obtain rfl := (List.cons_prefix_cons.mp hp).1
        have hd := hu.1
        simp [hc] at hd
      · exact ih hi
    · rwa [List.dropWhile_cons_of_neg hc]

theorem infix_trim (u t : Text) (hu : Tidy u) (h : u <:+: t) : u <:+: trim t := by
  have hd := infix_dropWhile u t hu h
  rw [trim, trimEnd_eq_rdropWhile, List.rdropWhile, ← List.reverse_infix, List.reverse_reverse]
  exact infix_dropWhile _ _ ((tidy_reverse u).mpr hu) (List.reverse_infix.mpr hd)

theorem infix_trimmed?_iff (u t s : Text) (hu : Tidy u) (h : trimmed? t = some s) :
    u <:+: s ↔ u <:+: t := by
  constructor
  · have hi := trimmed?_infix t s h
    exact fun hs => hs.trans hi
  · intro ht
    rw [← ((trimmed?_eq_some t s).mp h).1]
    exact infix_trim u t hu ht

theorem isSome_trimmed?_of_infix (s t : Text) (h : s <:+: t) (hs : (trimmed? s).isSome) :
    (trimmed? t).isSome := by
  obtain ⟨u, hu⟩ := Option.isSome_iff_exists.mp hs
  have htidy := tidy_of_trimmed? s u hu
  have hus := trimmed?_infix s u hu
  have hi := infix_trim u t htidy (hus.trans h)
  have hne : trim t ≠ [] := fun ht => tidy_ne_nil u htidy (List.infix_nil.mp (ht ▸ hi))
  exact Option.isSome_iff_exists.mpr ⟨_, (trimmed?_eq_some t _).mpr ⟨rfl, hne⟩⟩

theorem isSome_trimmed?_iff (t : Text) : (trimmed? t).isSome ↔ ∃ c ∈ t, isBlank c = false := by
  constructor
  · intro h
    obtain ⟨s, hs⟩ := Option.isSome_iff_exists.mp h
    have htidy := tidy_of_trimmed? t s hs
    have hinfix : s <:+: t := trimmed?_infix t s hs
    obtain ⟨c, rest, rfl⟩ := List.exists_cons_of_ne_nil (tidy_ne_nil s htidy)
    refine ⟨c, hinfix.subset List.mem_cons_self, ?_⟩
    simpa using htidy.1
  · rintro ⟨c, hc, hb⟩
    have htidy : Tidy [c] := by simp [Tidy, hb]
    obtain ⟨before, after, rfl⟩ := List.append_of_mem hc
    refine isSome_trimmed?_of_infix [c] _ ⟨before, after, by simp⟩ ?_
    rw [trimmed?_of_tidy [c] htidy]
    rfl

def Blank (t : Text) : Prop := ∀ c ∈ t, isBlank c = true

instance (t : Text) : Decidable (Blank t) := List.decidableBAll _ t

@[simp] theorem blank_nil : Blank [] := fun _ h => absurd h List.not_mem_nil

theorem trimmed?_eq_none_iff (t : Text) : trimmed? t = none ↔ Blank t := by
  rw [← Option.not_isSome_iff_eq_none, isSome_trimmed?_iff]
  simp [Blank]

theorem trimmed?_append_cons (t : Text) (c : Char) (rest : Text) (ht : Blank t)
    (hc : isBlank c = false) : ∃ tail, trimmed? (t ++ c :: rest) = some (c :: tail) := by
  have hd : (t ++ c :: rest).dropWhile isBlank = c :: rest := by
    rw [List.dropWhile_append_of_pos ht, List.dropWhile_cons_of_neg (by simp [hc])]
  rw [trimmed?, trim, hd, trimEnd]
  cases trimEnd rest with
  | nil => exact ⟨[], by simp [hc]⟩
  | cons d kept => exact ⟨d :: kept, rfl⟩

theorem trimmed?_append_blank (t blanks : Text) (ht : Tidy t) (hb : Blank blanks) :
    trimmed? (t ++ blanks) = some t := by
  have htrim : trim (t ++ blanks) = trim t := by
    obtain ⟨c, rest, rfl⟩ := List.exists_cons_of_ne_nil (tidy_ne_nil t ht)
    have hc : ¬isBlank c = true := by simpa using ht.1
    rw [trim, trim, List.cons_append, List.dropWhile_cons_of_neg hc, List.dropWhile_cons_of_neg hc,
      trimEnd_eq_rdropWhile, trimEnd_eq_rdropWhile, ← List.cons_append, List.rdropWhile,
      List.reverse_append, List.dropWhile_append_of_pos fun d hd => hb d (List.mem_reverse.mp hd)]
    rfl
  apply (trimmed?_eq_some _ t).mpr
  exact ⟨htrim.trans (trim_of_tidy t ht), tidy_ne_nil t ht⟩

end Postal.Text
