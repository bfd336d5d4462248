import Postal.Proofs.Json.RoundTrip
import Postal.Proofs.Text.Map

/-!
# Values of documents

A document holds a value in which every object is a map sorted by name and every numeral is
the number that it stands for, so the order of members, repeated names and the spelling of
numbers are no part of it. What a numeral stands for is left open. The strings of a value are
those that are written, and looking up a member is looking up its name in the map.
-/

set_option autoImplicit false

namespace Postal.Json

variable (number : Numeral → Numeral)

mutual

/-- The value with its objects as maps and its numerals as `number` reads them. -/
def value : Json Text → Json Text
  | .null => .null
  | .bool b => .bool b
  | .number n => .number (number n)
  | .string s => .string s
  | .array items => .array (itemValues items)
  | .object members => .object (TextMap.ofList (memberValues members)).entries
termination_by structural v => v

def itemValues : List (Json Text) → List (Json Text)
  | [] => []
  | item :: items => value item :: itemValues items
termination_by structural items => items

def memberValues : List (Text × Json Text) → List (Text × Json Text)
  | [] => []
  | m :: members => memberValue m :: memberValues members
termination_by structural members => members

def memberValue : Text × Json Text → Text × Json Text
  | (name, v) => (name, value v)
termination_by structural m => m

end

/-- The text is a document that holds the given value. -/
def Denotes (text : Text) (v : Json Text) : Prop :=
  (read? text).map (value number) = some (value number v)

theorem memberValues_eq_map (members : List (Text × Json Text)) :
    memberValues number members = members.map fun m => (m.1, value number m.2) := by
  induction members with
  | nil => rfl
  | cons m members ih =>
    rw [memberValues, memberValue, ih]
    rfl

theorem value_object (members : List (Text × Json Text)) : value number (.object members) =
    .object ((TextMap.sortedEntries members).map fun m => (m.1, value number m.2)) := by
  rw [value, memberValues_eq_map, TextMap.ofList, TextMap.sortedEntries_map]

theorem string?_value (v : Json Text) : (value number v).string? = v.string? := by
  cases v <;> rfl

theorem value_eq_string (v : Json Text) (t : Text) :
    value number v = .string t ↔ v = .string t := by
  cases v <;> simp [value]

theorem value_eq_object (v : Json Text) (members : List (Text × Json Text))
    (h : value number v = value number (.object members)) :
    ∃ found, v = .object found ∧
      (TextMap.sortedEntries found).map (fun m => (m.1, value number m.2)) =
        (TextMap.sortedEntries members).map fun m => (m.1, value number m.2) := by
  rw [value_object] at h
  cases v with
  | object found =>
    rw [value_object] at h
    injection h with h
    exact ⟨found, rfl, h⟩
  | _ => cases h

theorem Denotes.read?_eq {text : Text} {members : List (Text × Json Text)}
    (h : Denotes number text (.object members)) :
    ∃ found, read? text = some (.object found) ∧
      (TextMap.sortedEntries found).map (fun m => (m.1, value number m.2)) =
        (TextMap.sortedEntries members).map fun m => (m.1, value number m.2) := by
  obtain ⟨v, hv, he⟩ := Option.map_eq_some_iff.mp h
  obtain ⟨found, rfl, hfound⟩ := value_eq_object number v members he
  exact ⟨found, hv, hfound⟩

theorem lookup?_eq_get? (name : Text) (members : List (Text × Json Text)) :
    lookup? name members = (TextMap.ofList members).get? name := by
  rw [TextMap.get?_ofList]
  induction members with
  | nil => rfl
  | cons m members ih =>
    obtain ⟨key, v⟩ := m
    rw [lookup?, ih, List.reverse_cons, List.lookup_append]
    cases members.reverse.lookup name with
    | some later => rfl
    | none =>
      by_cases hk : key = name
      · simp [hk]
      · simp [hk, TextMap.lookup_cons_of_ne name key v [] (Ne.symm hk)]

theorem lookup?_of_value_eq (s t : List (Text × Json Text))
    (h : value number (.object s) = value number (.object t)) (name : Text) :
    lookup? name s >>= string? = lookup? name t >>= string? := by
  have hstring : ∀ members : List (Text × Json Text), lookup? name members >>= string? =
      ((TextMap.sortedEntries members).map fun m => (m.1, value number m.2)).lookup name >>=
        string? := by
    intro members
    rw [lookup?_eq_get?, TextMap.lookup_map]
    change (TextMap.sortedEntries members).lookup name >>= string? = _
    cases (TextMap.sortedEntries members).lookup name with
    | none => rfl
    | some v => exact (string?_value number v).symm
  rw [value_object, value_object] at h
  injection h with h
  rw [hstring, hstring, h]

/-! ## Objects of strings -/

def strings (entries : List (Text × Text)) : List (Text × Json Text) :=
  entries.map fun e => (e.1, .string e.2)

theorem sortedEntries_strings (entries : List (Text × Text)) :
    TextMap.sortedEntries (strings entries) = strings (TextMap.sortedEntries entries) :=
  TextMap.sortedEntries_map _ entries

theorem eq_strings_of_values_eq (members : List (Text × Json Text)) (entries : List (Text × Text))
    (h : members.map (fun m => (m.1, value number m.2)) =
      (strings entries).map fun m => (m.1, value number m.2)) : members = strings entries := by
  induction members generalizing entries with
  | nil =>
    cases entries with
    | nil => rfl
    | cons e entries => cases h
  | cons m members ih =>
    cases entries with
    | nil => cases h
    | cons e entries =>
      obtain ⟨hfirst, hrest⟩ := List.cons_eq_cons.mp h
      obtain ⟨hname, hvalue⟩ := Prod.mk.inj hfirst
      have hm : m = (e.1, .string e.2) := Prod.ext hname ((value_eq_string number m.2 e.2).mp hvalue)
      rw [hm, ih entries hrest]
      rfl

theorem membersFit_strings (room : ℕ) (entries : List (Text × Text)) :
    membersFit room (strings entries) = true := by
  induction entries with
  | nil => rfl
  | cons e entries ih => exact ih

theorem read?_strings (entries : List (Text × Text)) :
    read? (compact (.object (strings entries))) = some (.object (strings entries)) ∧
      read? (pretty (.object (strings entries))) = some (.object (strings entries)) :=
  read?_of_fits (.object (strings entries)) (membersFit_strings 126 entries)

end Postal.Json
