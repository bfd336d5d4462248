import Mathlib.Data.List.Sort
import Postal.Proofs.Envelope.Survivors

/-!
# Selections of tokens

The tokens at the surviving places, in order, have no two literals side by
side, and a literal that stood behind a field comes right after the last
populated field before it on its line.
-/

set_option autoImplicit false

namespace Postal.Envelope

/-- The tokens are those at the surviving places from `n` on, in order. -/
structure Selects (a : Address) (template : Template) (n : ℕ) (out : Template)
    (places : List ℕ) : Prop where
  increasing : places.Pairwise (· < ·)
  mem_iff : ∀ i, i ∈ places ↔ n ≤ i ∧ Survives a template i
  tokens : out.map some = places.map (template[·]?)

theorem selects_nil (a : Address) (template : Template) (n : ℕ) (h : template.length ≤ n) :
    Selects a template n [] [] := by
  refine ⟨List.Pairwise.nil, fun i => ?_, rfl⟩
  constructor
  · exact fun hm => absurd hm List.not_mem_nil
  · rintro ⟨hle, hs⟩
    have hnone : template[i]? = none := List.getElem?_eq_none (by omega)
    rcases hs with hs | ⟨code, hs, -⟩ | ⟨⟨text, hs⟩, -⟩ <;> rw [hnone] at hs <;> cases hs

theorem selects_cons (a : Address) (template : Template) (n : ℕ) (t : Token) (out : Template)
    (places : List ℕ) (ht : template[n]? = some t) (hs : Survives a template n)
    (h : Selects a template (n + 1) out places) :
    Selects a template n (t :: out) (n :: places) := by
  refine ⟨List.pairwise_cons.mpr ⟨fun i hi => ?_, h.increasing⟩, fun i => ?_, ?_⟩
  · have := ((h.mem_iff i).mp hi).1
    omega
  · rw [List.mem_cons, h.mem_iff]
    constructor
    · rintro (rfl | ⟨hle, hi⟩)
      · exact ⟨Nat.le_refl i, hs⟩
      · exact ⟨by omega, hi⟩
    · rintro ⟨hle, hi⟩
      by_cases he : i = n
      · exact .inl he
      · exact .inr ⟨by omega, hi⟩
  · rw [List.map_cons, List.map_cons, h.tokens, ht]

theorem selects_skip (a : Address) (template : Template) (n : ℕ) (out : Template)
    (places : List ℕ) (hs : ¬Survives a template n)
    (h : Selects a template (n + 1) out places) : Selects a template n out places := by
  refine ⟨h.increasing, fun i => ?_, h.tokens⟩
  rw [h.mem_iff]
  constructor
  · rintro ⟨hle, hi⟩
    exact ⟨by omega, hi⟩
  · rintro ⟨hle, hi⟩
    by_cases he : i = n
    · exact absurd (he ▸ hi) hs
    · exact ⟨by omega, hi⟩

section
variable {a : Address} {template : Template} {n : ℕ} {out : Template} {places : List ℕ}

theorem Selects.head (h : Selects a template n out places) (t : Token)
    (ht : template[n]? = some t) :
    (Survives a template n ∧ ∃ more later, out = t :: more ∧
        Selects a template (n + 1) more later) ∨
      ¬Survives a template n ∧ Selects a template (n + 1) out places := by
  by_cases hs : Survives a template n
  · left
    have hm : n ∈ places := (h.mem_iff n).mpr ⟨Nat.le_refl n, hs⟩
    cases places with
    | nil => cases hm
    | cons first later =>
      obtain ⟨hlater, hincreasing⟩ := List.pairwise_cons.mp h.increasing
      have hfirst := ((h.mem_iff first).mp List.mem_cons_self).1
      obtain rfl : n = first := by
        rcases List.mem_cons.mp hm with he | hm
        · exact he
        · have := hlater n hm
          omega
      cases out with
      | nil => cases h.tokens
      | cons u more =>
        obtain ⟨hu, htokens⟩ := List.cons.inj h.tokens
        obtain rfl : u = t := Option.some.inj (hu.trans ht)
        refine ⟨hs, more, later, rfl, hincreasing, fun i => ?_, htokens⟩
        constructor
        · intro hi
          have hgt := hlater i hi
          exact ⟨by omega, ((h.mem_iff i).mp (List.mem_cons_of_mem n hi)).2⟩
        · rintro ⟨hle, hi⟩
          have hmem := (h.mem_iff i).mpr ⟨by omega, hi⟩
          exact (List.mem_cons.mp hmem).resolve_left (by omega)
  · right
    refine ⟨hs, h.increasing, fun i => ?_, h.tokens⟩
    rw [h.mem_iff]
    constructor
    · rintro ⟨hle, hi⟩
      have hne : i ≠ n := fun he => hs (he ▸ hi)
      exact ⟨by omega, hi⟩
    · rintro ⟨hle, hi⟩
      exact ⟨by omega, hi⟩

theorem Selects.getElem? (h : Selects a template n out places) (k i : ℕ)
    (hk : places[k]? = some i) : out[k]? = template[i]? ∧ i < template.length := by
  have hmap := congrArg (·[k]?) h.tokens
  simp only [List.getElem?_map, hk, Option.map_some] at hmap
  cases ho : out[k]? with
  | none =>
    rw [ho] at hmap
    cases hmap
  | some t =>
    rw [ho] at hmap
    injection hmap with ht
    exact ⟨ht, (List.getElem?_eq_some_iff.mp ht.symm).1⟩

theorem Selects.eq_nil (h : Selects a template n out places) (hn : template.length ≤ n) :
    out = [] := by
  cases places with
  | nil => simpa using h.tokens
  | cons i later =>
    have hle := ((h.mem_iff i).mp List.mem_cons_self).1
    have hlt := (h.getElem? 0 i rfl).2
    omega

theorem Selects.le_of_lt (h : Selects a template n out places) (k i j m : ℕ)
    (hi : places[k]? = some i) (hj : places[k + 1]? = some j) (hm : m ∈ places) (hmj : m < j) :
    m ≤ i := by
  obtain ⟨hki, rfl⟩ := List.getElem?_eq_some_iff.mp hi
  obtain ⟨hkj, rfl⟩ := List.getElem?_eq_some_iff.mp hj
  obtain ⟨r, hr, rfl⟩ := List.getElem_of_mem hm
  have hrk : r < k + 1 := h.increasing.sortedLT.getElem_lt_getElem_iff.mp hmj
  exact h.increasing.sortedLT.getElem_le_getElem_iff.mpr (by omega)

theorem Selects.parted (h : Selects a template n out places) : Template.Parted out := by
  apply List.isChain_iff_getElem.mpr
  intro k hk
  have hlen : out.length = places.length := by simpa using congrArg List.length h.tokens
  have hi : places[k]? = some places[k] := List.getElem?_eq_getElem (by omega)
  have hj : places[k + 1]? = some places[k + 1] := List.getElem?_eq_getElem (by omega)
  obtain ⟨hti, -⟩ := h.getElem? k _ hi
  obtain ⟨htj, hjlt⟩ := h.getElem? (k + 1) _ hj
  rw [List.getElem?_eq_getElem (by omega)] at hti htj
  rintro ⟨hli, hlj⟩
  obtain ⟨text, hci⟩ := (Token.isLiteral_iff _).mp hli
  obtain ⟨more, hcj⟩ := (Token.isLiteral_iff _).mp hlj
  rw [hci] at hti
  rw [hcj] at htj
  have hlt : places[k] < places[k + 1] :=
    h.increasing.sortedLT.getElem_lt_getElem_iff.mpr (by omega)
  have hmem := (h.mem_iff places[k]).mp (List.getElem_mem _)
  obtain ⟨hs, hn⟩ := survives_behind_literal places[k] text hti.symm hmem.2 (by omega)
  have hnext : places[k] + 1 ∈ places := (h.mem_iff _).mpr ⟨by omega, hs⟩
  have hle := h.le_of_lt k _ _ (places[k] + 1) hi hj hnext
  have he : places[k + 1] = places[k] + 1 := by omega
  rw [← he, ← htj] at hn
  exact hn more rfl

/-- A kept literal that stood behind a field comes right after a kept field of its line. -/
theorem Selects.behind_field (h : Selects a template 0 out places) (hp : template.Parted)
    (k i : ℕ) (text : Text) (code : Char) (hk : places[k]? = some i)
    (hl : template[i]? = some (.literal text)) (hf : template[i - 1]? = some (.field code)) :
    ∃ r j, k = r + 1 ∧ places[r]? = some j ∧ PopulatedAt a template j ∧
      ∀ m, j < m → m < i → template[m]? ≠ some .newline := by
  have hs : Survives a template i := ((h.mem_iff i).mp (List.mem_of_getElem? hk)).2
  have hfirst : ¬FirstOnLine template i := by
    rintro (rfl | hn)
    · simp [hl] at hf
    · simp [hn] at hf
  have hline := ((survives_literal a template i text hl).mp hs).2.resolve_left hfirst
  obtain ⟨j, hj, hpj, hstretch⟩ := exists_last_populated i hline
  obtain ⟨r, hr, rfl⟩ := List.getElem_of_mem ((h.mem_iff j).mpr ⟨Nat.zero_le j, .inr (.inl hpj)⟩)
  obtain ⟨hki, rfl⟩ := List.getElem?_eq_some_iff.mp hk
  have hrk : r < k := h.increasing.sortedLT.getElem_lt_getElem_iff.mp hj
  refine ⟨r, places[r], ?_, List.getElem?_eq_getElem hr, hpj, fun m h1 h2 => (hstretch m h1 h2).1⟩
  -- A place of the list between the two would survive.
  by_contra hne
  have hbetween := (h.mem_iff places[r + 1]).mp (List.getElem_mem (by omega))
  exact not_survives_of_stretch hp _ _ text hl hstretch places[r + 1]
    (h.increasing.sortedLT.getElem_lt_getElem_iff.mpr (by omega))
    (h.increasing.sortedLT.getElem_lt_getElem_iff.mpr (by omega)) hbetween.2

end

end Postal.Envelope
