import Mathlib.Data.List.DropRight
import Postal.Text

/-!
# Pieces of texts

Cutting at a separator, cutting at a doubled mark, and dropping the empty
pieces at the end. Each is described by what its pieces may hold and by the
text that they make up again. The doubled mark is found from the left, so a
piece before a cut never ends in the mark: three marks in a row are cut
behind the second.
-/

set_option autoImplicit false

namespace Postal.Text

theorem onFirst_eq_modifyHead (c : Char) (pieces : List Text) (h : pieces ≠ []) :
    onFirst c pieces = pieces.modifyHead (c :: ·) := by
  cases pieces with
  | nil => exact absurd rfl h
  | cons piece pieces => rfl

theorem splitOn_eq_list_splitOn (sep : Char) (t : Text) : splitOn sep t = List.splitOn sep t := by
  induction t with
  | nil => rfl
  | cons c rest ih =>
    rw [splitOn, List.splitOn_cons_eq_if_modifyHead,
      onFirst_eq_modifyHead c _ (splitOn_ne_nil sep rest), ih]
    by_cases h : c = sep <;> simp [h]

theorem splitOn_of_notMem (sep : Char) (t : Text) (h : sep ∉ t) : splitOn sep t = [t] := by
  rw [splitOn_eq_list_splitOn, List.splitOn_eq_singleton h]

theorem splitOn_append_cons (sep : Char) (s t : Text) :
    splitOn sep (s ++ sep :: t) = splitOn sep s ++ splitOn sep t := by
  simp only [splitOn_eq_list_splitOn, List.splitOn_append_cons_self]

theorem notMem_of_mem_splitOn (sep : Char) (t piece : Text) (h : piece ∈ splitOn sep t) :
    sep ∉ piece := by
  induction t generalizing piece with
  | nil =>
    rw [List.mem_singleton.mp h]
    exact List.not_mem_nil
  | cons c rest ih =>
    rw [splitOn] at h
    split at h
    · rcases List.mem_cons.mp h with rfl | h
      · exact List.not_mem_nil
      · exact ih piece h
    · rename_i hc
      cases hp : splitOn sep rest with
      | nil => exact absurd hp (splitOn_ne_nil sep rest)
      | cons first pieces =>
        rw [hp] at h ih
        rcases List.mem_cons.mp h with rfl | h
        · have hf := ih first List.mem_cons_self
          exact fun hm => (List.mem_cons.mp hm).elim (fun he => hc he.symm) hf
        · exact ih piece (List.mem_cons_of_mem _ h)

theorem filter_splitOn_eq_nil (sep : Char) (t : Text) :
    (splitOn sep t).filter (!·.isEmpty) = [] ↔ ∀ c ∈ t, c = sep := by
  induction t with
  | nil => simp [splitOn]
  | cons c rest ih =>
    rw [splitOn, List.forall_mem_cons]
    by_cases h : c = sep
    · simp [h, ih]
    · cases hp : splitOn sep rest with
      | nil => exact absurd hp (splitOn_ne_nil sep rest)
      | cons piece pieces => simp [h, onFirst]

theorem join_cons (sep piece : Text) (pieces : List Text) :
    join sep (piece :: pieces) = piece ++ pieces.flatMap (sep ++ ·) := by
  induction pieces generalizing piece with
  | nil => simp [join]
  | cons next pieces ih => simp [join, ih]

theorem splitOn_join (sep : Char) (pieces : List Text) (hne : pieces ≠ [])
    (h : ∀ piece ∈ pieces, sep ∉ piece) : splitOn sep (join [sep] pieces) = pieces := by
  induction pieces with
  | nil => exact absurd rfl hne
  | cons piece pieces ih =>
    obtain ⟨hpiece, hpieces⟩ := List.forall_mem_cons.mp h
    cases pieces with
    | nil => exact splitOn_of_notMem sep piece hpiece
    | cons next pieces =>
      rw [join, List.append_assoc, List.singleton_append, splitOn_append_cons,
        splitOn_of_notMem sep piece hpiece, ih (List.cons_ne_nil next pieces) hpieces]
      rfl

theorem join_onFirst (sep : Text) (c : Char) (pieces : List Text) (h : pieces ≠ []) :
    join sep (onFirst c pieces) = c :: join sep pieces := by
  cases pieces with
  | nil => exact absurd rfl h
  | cons piece pieces => simp [onFirst, join_cons]

theorem exists_suffix_join (sep piece : Text) (pieces : List Text) :
    ∃ last ∈ piece :: pieces, last <:+ join sep (piece :: pieces) := by
  induction pieces generalizing piece with
  | nil => exact ⟨piece, List.mem_cons_self, List.suffix_refl piece⟩
  | cons next pieces ih =>
    obtain ⟨last, hm, hs⟩ := ih next
    refine ⟨last, List.mem_cons_of_mem piece hm, ?_⟩
    rw [join]
    exact hs.trans (List.suffix_append _ _)

theorem mem_join (c : Char) (sep : Text) (pieces : List Text) (h : c ∈ join sep pieces) :
    c ∈ sep ∨ ∃ piece ∈ pieces, c ∈ piece := by
  cases pieces with
  | nil => cases h
  | cons first pieces =>
    rw [join_cons, List.mem_append, List.mem_flatMap] at h
    rcases h with h | ⟨piece, hp, h⟩
    · exact .inr ⟨first, List.mem_cons_self, h⟩
    · rcases List.mem_append.mp h with h | h
      · exact .inl h
      · exact .inr ⟨piece, List.mem_cons_of_mem first hp, h⟩

theorem append_sep_infix_join (sep piece : Text) (pieces : List Text)
    (h : piece ∈ pieces.dropLast) : piece ++ sep <:+: join sep pieces := by
  induction pieces with
  | nil => simp at h
  | cons first pieces ih =>
    cases pieces with
    | nil => simp at h
    | cons next pieces =>
      rw [List.dropLast_cons_of_ne_nil (List.cons_ne_nil next pieces)] at h
      rw [join]
      rcases List.mem_cons.mp h with rfl | h
      · exact (List.prefix_append _ _).isInfix
      · exact (ih h).trans (List.suffix_append _ _).isInfix

theorem infix_or_infix_of_notMem (sep : Char) (u s t : Text) (hn : sep ∉ u)
    (h : u <:+: s ++ sep :: t) : u <:+: s ∨ u <:+: t := by
  rcases List.infix_append_iff.mp h with hs | ht | ⟨left, right, rfl, hl, hr⟩
  · exact .inl hs
  · rcases List.infix_cons_iff.mp ht with hp | ht
    · cases u with
      | nil => exact .inl List.nil_infix
      | cons c u => exact absurd (by simp [(List.cons_prefix_cons.mp hp).1]) hn
    · exact .inr ht
  · cases right with
    | nil => exact .inl (by simpa using hl.isInfix)
    | cons c right => exact absurd (by simp [(List.cons_prefix_cons.mp hr).1]) hn

theorem exists_infix_of_infix_join (sep : Char) (u : Text) (pieces : List Text)
    (hp : pieces ≠ []) (hn : sep ∉ u) (h : u <:+: join [sep] pieces) :
    ∃ piece ∈ pieces, u <:+: piece := by
  induction pieces with
  | nil => exact absurd rfl hp
  | cons piece pieces ih =>
    cases pieces with
    | nil => exact ⟨piece, List.mem_singleton_self piece, h⟩
    | cons next pieces =>
      rw [join, List.append_assoc] at h
      rcases infix_or_infix_of_notMem sep u piece _ hn h with h | h
      · exact ⟨piece, List.mem_cons_self, h⟩
      · obtain ⟨found, hm, hf⟩ := ih (List.cons_ne_nil next pieces) h
        exact ⟨found, List.mem_cons_of_mem _ hm, hf⟩

theorem getLast?_splitOn_ne_nil (sep : Char) (t : Text) (hne : t ≠ [])
    (h : t.getLast? ≠ some sep) : (splitOn sep t).getLast? ≠ some [] := by
  intro hl
  obtain ⟨pieces, hp⟩ := List.getLast?_eq_some_iff.mp hl
  have ht := join_splitOn sep t
  rw [hp] at ht
  cases pieces with
  | nil => exact hne ht.symm
  | cons piece pieces =>
    rw [List.cons_append, join_cons, List.flatMap_append] at ht
    apply h
    rw [← ht]
    simp

theorem dropEmptyEnd_of_getLast? (pieces : List Text) (h : pieces.getLast? ≠ some []) :
    dropEmptyEnd pieces = pieces := by
  induction pieces with
  | nil => rfl
  | cons piece pieces ih =>
    cases pieces with
    | nil =>
      have hp : piece ≠ [] := by simpa using h
      simp [dropEmptyEnd, hp]
    | cons next pieces =>
      rw [dropEmptyEnd, ih (by simpa using h)]

@[simp] theorem dropEmptyEnd_concat_nil (pieces : List Text) :
    dropEmptyEnd (pieces ++ [[]]) = dropEmptyEnd pieces := by
  induction pieces with
  | nil => rfl
  | cons piece pieces ih =>
    rw [List.cons_append, dropEmptyEnd, ih, dropEmptyEnd]

theorem dropEmptyEnd_append_replicate (pieces : List Text) (n : ℕ) :
    dropEmptyEnd (pieces ++ List.replicate n []) = dropEmptyEnd pieces := by
  induction n with
  | zero => simp
  | succ n ih => rw [List.replicate_succ', ← List.append_assoc, dropEmptyEnd_concat_nil, ih]

theorem getLast?_dropEmptyEnd (pieces : List Text) : (dropEmptyEnd pieces).getLast? ≠ some [] := by
  induction pieces with
  | nil => simp [dropEmptyEnd]
  | cons piece pieces ih =>
    rw [dropEmptyEnd]
    split
    · by_cases hp : piece = [] <;> simp [hp]
    · rename_i next kept hk
      rw [hk] at ih
      simpa using ih

theorem exists_dropEmptyEnd_append (pieces : List Text) :
    ∃ n, pieces = dropEmptyEnd pieces ++ List.replicate n [] := by
  induction pieces using List.reverseRecOn with
  | nil => exact ⟨0, rfl⟩
  | append_singleton pieces piece ih =>
    by_cases hp : piece = []
    · obtain ⟨n, hn⟩ := ih
      refine ⟨n + 1, ?_⟩
      rw [hp, dropEmptyEnd_concat_nil, List.replicate_succ', ← List.append_assoc, ← hn]
    · refine ⟨0, ?_⟩
      rw [dropEmptyEnd_of_getLast? _ (by simpa using hp)]
      simp

theorem dropEmptyEnd_eq_nil_iff (pieces : List Text) :
    dropEmptyEnd pieces = [] ↔ ∀ p ∈ pieces, p = [] := by
  constructor
  · intro h
    obtain ⟨n, hn⟩ := exists_dropEmptyEnd_append pieces
    rw [h, List.nil_append] at hn
    exact fun p hp => List.eq_of_mem_replicate (hn ▸ hp)
  · intro h
    rw [List.eq_replicate_of_mem h]
    exact dropEmptyEnd_append_replicate [] _

theorem dropEmptyEnd_cons_of_ne_nil (piece : Text) (pieces : List Text)
    (h : piece ≠ [] ∨ dropEmptyEnd pieces ≠ []) :
    dropEmptyEnd (piece :: pieces) = piece :: dropEmptyEnd pieces := by
  rw [dropEmptyEnd]
  cases hk : dropEmptyEnd pieces with
  | nil => simp [h.resolve_right fun hne => hne hk]
  | cons next kept => rfl

theorem dropEmptyEnd_append (front rest : List Text) (h : ∀ p ∈ front, p ≠ []) :
    dropEmptyEnd (front ++ rest) = front ++ dropEmptyEnd rest := by
  induction front with
  | nil => rfl
  | cons piece front ih =>
    obtain ⟨hp, hf⟩ := List.forall_mem_cons.mp h
    rw [List.cons_append, dropEmptyEnd_cons_of_ne_nil piece _ (.inl hp), ih hf, List.cons_append]

def Doubled (mark : Char) (t : Text) : Prop := [mark, mark] <:+: t

instance (mark : Char) (t : Text) : Decidable (Doubled mark t) :=
  inferInstanceAs (Decidable (_ <:+: _))

theorem doubled_cons_cons (mark c d : Char) (t : Text) :
    Doubled mark (c :: d :: t) ↔ (c = mark ∧ d = mark) ∨ Doubled mark (d :: t) := by
  rw [Doubled, List.infix_cons_iff, Doubled]
  simp [List.cons_prefix_cons, eq_comm]

@[simp] theorem not_doubled_nil (mark : Char) : ¬Doubled mark [] := by
  simp [Doubled]

@[simp] theorem not_doubled_singleton (mark c : Char) : ¬Doubled mark [c] := by
  intro h
  have := h.length_le
  simp at this

@[simp] theorem splitOnDouble_ne_nil (mark : Char) (t : Text) : splitOnDouble mark t ≠ [] := by
  fun_induction splitOnDouble mark t with
  | case1 => simp
  | case2 c => simp
  | case3 c d rest h ih => simp
  | case4 c d rest h ih => exact onFirst_ne_nil c _

theorem join_splitOnDouble (mark : Char) (t : Text) :
    join [mark, mark] (splitOnDouble mark t) = t := by
  fun_induction splitOnDouble mark t with
  | case1 => rfl
  | case2 c => rfl
  | case3 c d rest h ih =>
    obtain ⟨rfl, rfl⟩ := h
    cases hp : splitOnDouble d rest with
    | nil => exact absurd hp (splitOnDouble_ne_nil d rest)
    | cons piece pieces =>
      rw [join, ← hp, ih]
      rfl
  | case4 c d rest h ih => rw [join_onFirst _ c _ (splitOnDouble_ne_nil mark (d :: rest)), ih]

theorem splitOnDouble_eq_cons (mark : Char) (t first : Text) (pieces : List Text)
    (h : splitOnDouble mark t = first :: pieces) :
    t = first ++ pieces.flatMap (mark :: mark :: ·) := by
  rw [← join_splitOnDouble mark t, h, join_cons]
  rfl

theorem not_doubled_of_mem_splitOnDouble (mark : Char) (t piece : Text)
    (h : piece ∈ splitOnDouble mark t) : ¬Doubled mark piece := by
  fun_induction splitOnDouble mark t generalizing piece with
  | case1 =>
    rw [List.mem_singleton.mp h]
    exact not_doubled_nil mark
  | case2 c =>
    rw [List.mem_singleton.mp h]
    exact not_doubled_singleton mark c
  | case3 c d rest hm ih =>
    rcases List.mem_cons.mp h with rfl | h
    · exact not_doubled_nil mark
    · exact ih piece h
  | case4 c d rest hm ih =>
    cases hp : splitOnDouble mark (d :: rest) with
    | nil => exact absurd hp (splitOnDouble_ne_nil mark _)
    | cons first pieces =>
      rw [hp] at h ih
      rcases List.mem_cons.mp h with rfl | h
      · cases first with
        | nil => exact not_doubled_singleton mark c
        | cons e first =>
          -- The piece goes on with `d`, so its first two characters are no marks.
          obtain rfl : d = e := (List.cons.inj (splitOnDouble_eq_cons mark _ _ _ hp)).1
          rw [doubled_cons_cons]
          exact not_or.mpr ⟨hm, ih (d :: first) List.mem_cons_self⟩
      · exact ih piece (List.mem_cons_of_mem _ h)

theorem getLast?_of_mem_dropLast_splitOnDouble (mark : Char) (t piece : Text)
    (h : piece ∈ (splitOnDouble mark t).dropLast) : piece.getLast? ≠ some mark := by
  fun_induction splitOnDouble mark t generalizing piece with
  | case1 => simp at h
  | case2 c => simp at h
  | case3 c d rest hm ih =>
    rw [List.dropLast_cons_of_ne_nil (splitOnDouble_ne_nil mark rest)] at h
    rcases List.mem_cons.mp h with rfl | h
    · simp
    · exact ih piece h
  | case4 c d rest hm ih =>
    cases hp : splitOnDouble mark (d :: rest) with
    | nil => exact absurd hp (splitOnDouble_ne_nil mark _)
    | cons first pieces =>
      cases pieces with
      | nil => simp [hp, onFirst] at h
      | cons next pieces =>
        rw [hp] at h ih
        rcases List.mem_cons.mp h with rfl | h
        · cases first with
          | nil =>
            -- An empty piece was cut before a mark, and `c` is not joined to that mark.
            obtain rfl : d = mark := (List.cons.inj (splitOnDouble_eq_cons mark _ _ _ hp)).1
            have hc : c ≠ d := fun hc => hm ⟨hc, rfl⟩
            simpa using hc
          | cons e first =>
            have hf := ih (e :: first) List.mem_cons_self
            rwa [List.getLast?_cons_cons]
        · exact ih piece (List.mem_cons_of_mem _ h)

theorem splitOnDouble_of_not_doubled (mark : Char) (t : Text) (h : ¬Doubled mark t) :
    splitOnDouble mark t = [t] := by
  fun_induction splitOnDouble mark t with
  | case1 => rfl
  | case2 c => rfl
  | case3 c d rest hm ih => exact absurd ((doubled_cons_cons mark c d rest).mpr (.inl hm)) h
  | case4 c d rest hm ih =>
    rw [ih fun hd => h ((doubled_cons_cons mark c d rest).mpr (.inr hd))]
    rfl

theorem splitOnDouble_append (mark : Char) (s t : Text) (hd : ¬Doubled mark s)
    (hl : s.getLast? ≠ some mark) :
    splitOnDouble mark (s ++ mark :: mark :: t) = s :: splitOnDouble mark t := by
  induction s with
  | nil => simp [splitOnDouble]
  | cons c s ih =>
    cases s with
    | nil =>
      have hc : c ≠ mark := by simpa using hl
      simp [splitOnDouble, hc, onFirst]
    | cons d s =>
      rw [doubled_cons_cons, not_or] at hd
      have hs := ih hd.2 (by rwa [List.getLast?_cons_cons] at hl)
      rw [List.cons_append, List.cons_append, splitOnDouble, if_neg hd.1, ← List.cons_append, hs]
      rfl

/-- A piece before the last holds a doubled mark where one stands before a separator. -/
theorem doubled_before_iff (mark sep : Char) (t : Text) (hne : sep ≠ mark) :
    (∃ piece ∈ (splitOn sep t).dropLast, Doubled mark piece) ↔
      ∃ between, mark :: mark :: between ++ [sep] <:+: t := by
  constructor
  · rintro ⟨piece, hm, before, between, rfl⟩
    refine ⟨between, ?_⟩
    have hj := append_sep_infix_join [sep] _ _ hm
    rw [join_splitOn] at hj
    exact (List.suffix_append before _).isInfix.trans (by simpa using hj)
  · rintro ⟨between, before, after, rfl⟩
    have hd : [mark, mark] <:+: join [sep] (splitOn sep (before ++ mark :: mark :: between)) := by
      rw [join_splitOn]
      exact ⟨before, between, by simp⟩
    obtain ⟨piece, hm, hp⟩ := exists_infix_of_infix_join sep _ _ (splitOn_ne_nil sep _)
      (by simp [hne]) hd
    refine ⟨piece, ?_, hp⟩
    have ht : before ++ (mark :: mark :: between ++ [sep]) ++ after =
        (before ++ mark :: mark :: between) ++ sep :: after := by simp
    rw [ht, splitOn_append_cons, List.dropLast_append_of_ne_nil (splitOn_ne_nil sep after)]
    exact List.mem_append_left _ hm

theorem flatMap_replicate_nil (mark : Char) (n : ℕ) :
    (List.replicate n ([] : Text)).flatMap (mark :: mark :: ·) = List.replicate (2 * n) mark := by
  induction n with
  | zero => rfl
  | succ n ih =>
    rw [List.replicate_succ, List.flatMap_cons, ih, show 2 * (n + 1) = 2 * n + 1 + 1 from rfl,
      List.replicate_succ, List.replicate_succ]
    rfl

theorem splitOnDouble_replicate (mark : Char) (n : ℕ) :
    splitOnDouble mark (List.replicate (2 * n) mark) = List.replicate (n + 1) [] := by
  induction n with
  | zero => rfl
  | succ n ih =>
    rw [show 2 * (n + 1) = 2 * n + 1 + 1 from rfl, List.replicate_succ, List.replicate_succ,
      splitOnDouble, if_pos ⟨rfl, rfl⟩, ih, ← List.replicate_succ]

/-- The text is two pieces with two marks between them, and pairs of marks may
follow. The cut stands at the first two marks in a row. -/
def Parted (mark : Char) (t first second : Text) : Prop :=
  ∃ pairs, t = first ++ mark :: mark :: second ++ List.replicate (2 * pairs) mark ∧
    ¬Doubled mark first ∧ first.getLast? ≠ some mark ∧
    ¬Doubled mark second ∧ second ≠ [] ∧ (0 < pairs → second.getLast? ≠ some mark)

theorem dropEmptyEnd_splitOnDouble (mark : Char) (t first second : Text) :
    dropEmptyEnd (splitOnDouble mark t) = [first, second] ↔ Parted mark t first second := by
  constructor
  · intro h
    have hm := not_doubled_of_mem_splitOnDouble mark t
    have hl := getLast?_of_mem_dropLast_splitOnDouble mark t
    have hne := getLast?_dropEmptyEnd (splitOnDouble mark t)
    obtain ⟨n, hn⟩ := exists_dropEmptyEnd_append (splitOnDouble mark t)
    rw [h] at hn hne
    rw [List.cons_append, List.singleton_append] at hn
    have ht := splitOnDouble_eq_cons mark t first _ hn
    rw [hn] at hm hl
    refine ⟨n, ?_, hm first (by simp), hl first (by simp), hm second (by simp),
      by simpa using hne, ?_⟩
    · rw [ht, List.flatMap_cons, flatMap_replicate_nil, List.append_assoc]
    · intro hpos
      obtain ⟨k, rfl⟩ := Nat.exists_eq_succ_of_ne_zero hpos.ne'
      exact hl second (by simp [List.dropLast])
  · rintro ⟨pairs, rfl, hd, hl, hds, hne, hls⟩
    have hs : splitOnDouble mark (second ++ List.replicate (2 * pairs) mark) =
        second :: List.replicate pairs [] := by
      cases pairs with
      | zero => simpa using splitOnDouble_of_not_doubled mark second hds
      | succ n =>
        rw [show 2 * (n + 1) = 2 * n + 1 + 1 from rfl, List.replicate_succ, List.replicate_succ,
          splitOnDouble_append mark second _ hds (hls n.succ_pos), splitOnDouble_replicate]
    rw [List.append_assoc, List.cons_append, List.cons_append,
      splitOnDouble_append mark first _ hd hl, hs]
    have hk := dropEmptyEnd_append_replicate [first, second] pairs
    rw [List.cons_append, List.singleton_append] at hk
    rw [hk, dropEmptyEnd_of_getLast? _ (by simpa using hne)]

end Postal.Text
