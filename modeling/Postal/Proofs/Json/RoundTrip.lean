import Postal.Proofs.Json.Reading

/-!
# Values that are read back

A value without numbers whose containers are not nested too deeply is printed as a text that is
read as this very value, compact or indented. A number is left out since it does not end by
itself: what stands behind it could go on with it.
-/

set_option autoImplicit false

namespace Postal.Json

open Grammar (Reads Spells SpellsMember spelled)

mutual

/-- There is no number, and at most `room` containers stand inside one another. -/
def fits : Nat → Json Text → Bool
  | _, .null => true
  | _, .bool _ => true
  | _, .number _ => false
  | _, .string _ => true
  | 0, .array _ => false
  | room + 1, .array items => itemsFit room items
  | 0, .object _ => false
  | room + 1, .object members => membersFit room members
termination_by structural _ value => value

def itemsFit : Nat → List (Json Text) → Bool
  | _, [] => true
  | room, item :: items => fits room item && itemsFit room items
termination_by structural _ items => items

def membersFit : Nat → List (Text × Json Text) → Bool
  | _, [] => true
  | room, m :: members => memberFits room m && membersFit room members
termination_by structural _ members => members

def memberFits : Nat → Text × Json Text → Bool
  | room, (_, value) => fits room value
termination_by structural _ m => m

end

theorem reads_null : Reads "null".toList .null where
  opens := ⟨'n', _, rfl, rfl, by decide⟩
  value? fuel rest hf := by
    cases fuel with
    | zero => cases hf
    | succ fuel => rfl

theorem reads_bool (b : Bool) : Reads (compact (.bool b)) (.bool b) where
  opens := by cases b <;> exact ⟨_, _, rfl, rfl, by decide⟩
  value? fuel rest hf := by
    cases fuel with
    | zero => cases b <;> cases hf
    | succ fuel => cases b <;> rfl

theorem spells_bool (b : Bool) : Spells (.bool b) (.bool b) := by
  refine ⟨reads_bool b, fun indent => ?_⟩
  have hsame : indented indent (.bool b) = compact (.bool b) := by cases b <;> rfl
  rw [hsame]
  exact reads_bool b

mutual

/-- What a value is written as is within the limits, and stands for the value. -/
theorem exists_spells (room : ℕ) (v : Json Text) (h : fits room v = true) :
    ∃ written, Spells v written ∧ within? room written = some v :=
  match room, v, h with
  | _, .null, _ => ⟨.null, ⟨reads_null, fun _ => reads_null⟩, rfl⟩
  | _, .bool b, _ => ⟨.bool b, spells_bool b, rfl⟩
  | _, .string t, _ => by
    refine ⟨.string (spelled t), Grammar.spells_string t, ?_⟩
    rw [within?, Grammar.text?_spelled]
    rfl
  | room + 1, .array items, h => by
    obtain ⟨written, hs, hw⟩ := exists_spells_items room items h
    refine ⟨.array written, Grammar.spells_array items written hs, ?_⟩
    rw [within?, hw]
    rfl
  | room + 1, .object members, h => by
    obtain ⟨written, hs, hw⟩ := exists_spells_members room members h
    refine ⟨.object written, Grammar.spells_object members written hs, ?_⟩
    rw [within?, hw]
    rfl

theorem exists_spells_items (room : ℕ) (items : List (Json Text))
    (h : itemsFit room items = true) :
    ∃ written, List.Forall₂ Spells items written ∧ itemsWithin? room written = some items :=
  match items, h with
  | [], _ => ⟨[], .nil, rfl⟩
  | item :: items, h => by
    obtain ⟨hitem, hitems⟩ := (Bool.and_eq_true _ _).mp h
    obtain ⟨first, hs, hw⟩ := exists_spells room item hitem
    obtain ⟨rest, hss, hws⟩ := exists_spells_items room items hitems
    refine ⟨first :: rest, .cons hs hss, ?_⟩
    rw [itemsWithin?, hw, hws]
    rfl

theorem exists_spells_members (room : ℕ) (members : List (Text × Json Text))
    (h : membersFit room members = true) :
    ∃ written, List.Forall₂ SpellsMember members written ∧
      membersWithin? room written = some members :=
  match members, h with
  | [], _ => ⟨[], .nil, rfl⟩
  | (name, v) :: members, h => by
    obtain ⟨hv, hmembers⟩ := (Bool.and_eq_true _ _).mp h
    obtain ⟨first, hs, hw⟩ := exists_spells room v hv
    obtain ⟨rest, hss, hws⟩ := exists_spells_members room members hmembers
    refine ⟨(spelled name, first) :: rest, .cons ⟨rfl, hs⟩ hss, ?_⟩
    rw [membersWithin?, memberWithin?, Grammar.text?_spelled, hw, hws]
    rfl

end

theorem read?_of_fits (v : Json Text) (h : fits depthLimit v = true) :
    read? (compact v) = some v ∧ read? (pretty v) = some v := by
  obtain ⟨written, hs, hw⟩ := exists_spells depthLimit v h
  obtain ⟨hc, hp⟩ := Grammar.read?_of_spells v written hs
  constructor
  · rw [read?, hc]
    exact hw
  · rw [read?, hp]
    exact hw

end Postal.Json
