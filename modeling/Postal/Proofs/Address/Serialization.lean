import Postal.Proofs.Address.Trimmed
import Postal.Proofs.Json.Reading

/-!
# Records read from what they are written as

A record is written without its absent members, and without its lines if there
are none. A member that is left out is read as absent, and each of the others
is put back as it was, so the record that is read is the one that was written.
The invariant of the reading is that the members still to come are absent so far
and all others agree.
-/

set_option autoImplicit false

namespace Postal

open Json (Piece Written)
open Json.Grammar (Spells SpellsMember spelled spells_string spells_array spells_object)

namespace AddressRecord

def writtenValue? (r : AddressRecord) : Member → Option Written
  | .single field => (r.values.get field).map fun t => .string (spelled t)
  | .lines =>
    if r.lines = [] then none else some (.array (r.lines.map fun line => .string (spelled line)))
  | .language => r.language.map fun tag => .string (spelled tag)

def writtenMember? (r : AddressRecord) (m : Member) : Option (List Piece × Written) :=
  (r.writtenValue? m).map fun value => (spelled m.name, value)

theorem spells_memberValue? (r : AddressRecord) (m : Member) :
    Option.Rel Spells (r.memberValue? m) (r.writtenValue? m) := by
  have htext : ∀ v : Option Text, Option.Rel Spells (v.map .string)
      (v.map fun t => .string (spelled t)) := by
    intro v
    cases v with
    | none => exact .none
    | some t => exact .some (spells_string t)
  cases m with
  | single f => exact htext _
  | language => exact htext _
  | lines =>
    unfold memberValue? writtenValue?
    by_cases hl : r.lines = []
    · simp [hl]
    · have hitems : List.Forall₂ Spells (r.lines.map Json.string)
          (r.lines.map fun line => Json.string (spelled line)) := by
        rw [List.forall₂_map_left_iff, List.forall₂_map_right_iff]
        exact List.forall₂_same.mpr fun line _ => spells_string line
      simp only [hl, if_false]
      exact .some (spells_array _ _ hitems)

theorem spells_toJson (r : AddressRecord) :
    Spells r.toJson (.object (members.filterMap r.writtenMember?)) := by
  apply spells_object
  apply List.rel_filterMap (R := Eq) (P := SpellsMember) _ (List.forall₂_refl members)
  rintro m _ rfl
  have hr := spells_memberValue? r m
  beta_reduce
  rw [writtenMember?]
  generalize r.memberValue? m = value, r.writtenValue? m = written at hr ⊢
  cases hr with
  | none => exact .none
  | some h => exact .some ⟨rfl, h⟩

theorem ext_memberValue? (r s : AddressRecord) (h : ∀ m, r.memberValue? m = s.memberValue? m) :
    r = s := by
  have hstring : Function.Injective (Json.string : Text → Json Text) := by
    intro t u ht
    injection ht
  have hvalues : r.values = s.values :=
    SingleValues.ext_get _ _ fun f => Option.map_injective hstring (h (.single f))
  have hlanguage : r.language = s.language := Option.map_injective hstring (h .language)
  have hlines : r.lines = s.lines := by
    have hl := h .lines
    simp only [memberValue?] at hl
    by_cases hr : r.lines = [] <;> by_cases hs : s.lines = []
    · rw [hr, hs]
    · simp [hr, hs] at hl
    · simp [hr, hs] at hl
    · simp only [hr, hs, if_false, Option.some.injEq, Json.array.injEq] at hl
      exact hstring.list_map hl
  cases r
  cases s
  simp_all

theorem texts?_spelled (ts : List Text) :
    texts? (ts.map fun t => .string (spelled t)) = some ts := by
  induction ts with
  | nil => rfl
  | cons t ts ih =>
    have ht : requiredText? (.string (spelled t)) = some t := Json.Grammar.text?_spelled t
    rw [List.map_cons, texts?, ht, ih]
    rfl

theorem memberOfName?_name (m : Member) (h : m ∈ members) : memberOfName? m.name = some m := by
  revert m
  decide

theorem optionalText?_spelled (t : Text) :
    optionalText? (.string (spelled t)) = some (some t) := by
  rw [optionalText?, Json.Grammar.text?_spelled]
  rfl

theorem single_mem_members (f : Field) : .single f ∈ members ↔ f.isSingle = true := by
  cases f <;> decide

theorem put?_written (r base : AddressRecord) (m : Member) (hm : m ∈ members) (value : Written)
    (h : r.writtenValue? m = some value) :
    ∃ next, base.put? m value = some next ∧ next.memberValue? m = r.memberValue? m ∧
      ∀ other, other ≠ m → next.memberValue? other = base.memberValue? other := by
  cases m with
  | single f =>
    obtain ⟨t, ht, rfl⟩ := Option.map_eq_some_iff.mp h
    have hf := (single_mem_members f).mp hm
    refine ⟨{ base with values := base.values.set f (some t) }, ?_, ?_, ?_⟩
    · rw [put?, optionalText?_spelled]
      rfl
    · simp only [memberValue?, SingleValues.get_set_self _ f _ hf, ht]
    · intro other ho
      cases other with
      | single g =>
        have hne : f ≠ g := fun he => ho (by rw [he])
        simp only [memberValue?, SingleValues.get_set_of_ne _ f g _ hne]
      | lines => rfl
      | language => rfl
  | language =>
    obtain ⟨tag, ht, rfl⟩ := Option.map_eq_some_iff.mp h
    refine ⟨{ base with language := some tag }, ?_, ?_, ?_⟩
    · rw [put?, optionalText?_spelled]
      rfl
    · simp only [memberValue?, ht]
    · intro other ho
      cases other with
      | single g => rfl
      | lines => rfl
      | language => exact absurd rfl ho
  | lines =>
    by_cases hl : r.lines = []
    · simp [writtenValue?, hl] at h
    · simp only [writtenValue?, hl, if_false, Option.some.injEq] at h
      subst h
      refine ⟨{ base with lines := r.lines }, ?_, rfl, ?_⟩
      · rw [put?, texts?_spelled]
        rfl
      · intro other ho
        cases other with
        | single g => rfl
        | lines => exact absurd rfl ho
        | language => rfl

theorem ofMembers?_written (r : AddressRecord) (ms : List Member) (hsub : ms ⊆ members)
    (hn : ms.Nodup) (seen : List Member) (hseen : ∀ m ∈ ms, m ∉ seen) (base : AddressRecord)
    (hopen : ∀ m ∈ ms, base.memberValue? m = none)
    (hdone : ∀ m, m ∉ ms → base.memberValue? m = r.memberValue? m) :
    ofMembers? seen base (ms.filterMap r.writtenMember?) = some r := by
  induction ms generalizing seen base with
  | nil =>
    rw [ext_memberValue? base r fun m => hdone m List.not_mem_nil]
    rfl
  | cons m ms ih =>
    obtain ⟨hm, hms⟩ := List.cons_subset.mp hsub
    obtain ⟨hnot, hn⟩ := List.nodup_cons.mp hn
    have hne : ∀ other ∈ ms, other ≠ m := fun other ho he => hnot (he ▸ ho)
    cases hw : r.writtenValue? m with
    | none =>
      have habsent : r.memberValue? m = none := by
        have hr := spells_memberValue? r m
        rw [hw] at hr
        generalize r.memberValue? m = v at hr ⊢
        cases hr
        rfl
      have hwritten : r.writtenMember? m = none := by rw [writtenMember?, hw]; rfl
      rw [List.filterMap_cons_none hwritten]
      apply ih hms hn seen (fun n h => hseen n (List.mem_cons_of_mem m h)) base
        (fun n h => hopen n (List.mem_cons_of_mem m h))
      intro n hnms
      by_cases he : n = m
      · rw [he, hopen m List.mem_cons_self, habsent]
      · exact hdone n (List.not_mem_cons_of_ne_of_not_mem he hnms)
    | some value =>
      obtain ⟨next, hput, hsame, hother⟩ := put?_written r base m hm value hw
      have hwritten : r.writtenMember? m = some (spelled m.name, value) := by
        rw [writtenMember?, hw]
        rfl
      rw [List.filterMap_cons_some hwritten, ofMembers?]
      simp only [bind, Option.bind, Json.Grammar.text?_spelled, memberOfName?_name m hm,
        hseen m List.mem_cons_self, if_false, hput]
      apply ih hms hn (m :: seen)
      · intro n hnms
        have hlater := hseen n (List.mem_cons_of_mem m hnms)
        exact List.not_mem_cons_of_ne_of_not_mem (hne n hnms) hlater
      · intro n hnms
        rw [hother n (hne n hnms), hopen n (List.mem_cons_of_mem m hnms)]
      · intro n hnms
        by_cases he : n = m
        · rw [he, hsame]
        · rw [hother n he, hdone n (List.not_mem_cons_of_ne_of_not_mem he hnms)]

theorem ofJson?_written (r : AddressRecord) :
    ofJson? (.object (members.filterMap r.writtenMember?)) = some r := by
  apply ofMembers?_written r members (List.Subset.refl members) (by decide) [] (by simp) {}
  · intro m hm
    cases m with
    | single f => cases f <;> rfl
    | lines => rfl
    | language => rfl
  · intro m hm
    cases m with
    | single f =>
      have hf : f.isSingle = false := by simpa [single_mem_members] using hm
      simp only [memberValue?, SingleValues.get_of_not_single _ f hf]
    | lines => exact absurd (by decide) hm
    | language => exact absurd (by decide) hm

theorem read?_toJson (r : AddressRecord) :
    read? (Json.compact r.toJson) = some r ∧ read? (Json.pretty r.toJson) = some r := by
  obtain ⟨hc, hp⟩ := Json.Grammar.read?_of_spells _ _ (spells_toJson r)
  constructor
  · rw [read?, hc]
    exact ofJson?_written r
  · rw [read?, hp]
    exact ofJson?_written r

end AddressRecord
end Postal
