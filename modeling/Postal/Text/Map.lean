import Postal.Text

/-!
# Maps from texts

A map is kept as a list sorted by key, every key once. Made from a list of
pairs, it holds the last value given for each key.
-/

set_option autoImplicit false

namespace Postal

structure TextMap (α : Type) where
  entries : List (Text × α) := []

namespace TextMap

variable {α : Type}

def insertNew (key : Text) (value : α) : List (Text × α) → List (Text × α)
  | [] => [(key, value)]
  | entry :: rest =>
    match key.order entry.1 with
    | .lt => (key, value) :: entry :: rest
    | .eq => entry :: rest
    | .gt => entry :: insertNew key value rest

def sortedEntries : List (Text × α) → List (Text × α)
  | [] => []
  | (key, value) :: rest => insertNew key value (sortedEntries rest)

def ofList (pairs : List (Text × α)) : TextMap α := ⟨sortedEntries pairs⟩

def get? (map : TextMap α) (key : Text) : Option α := map.entries.lookup key

def keys (map : TextMap α) : List Text := map.entries.map Prod.fst

def size (map : TextMap α) : Nat := map.entries.length

theorem size_eq_length_keys (map : TextMap α) : map.size = map.keys.length := by
  simp [size, keys]

theorem mem_keys_insertNew (key k : Text) (value : α) (entries : List (Text × α)) :
    k ∈ (insertNew key value entries).map Prod.fst ↔ k = key ∨ k ∈ entries.map Prod.fst := by
  induction entries with
  | nil => simp [insertNew]
  | cons entry rest ih =>
    unfold insertNew
    split
    · simp
    · rename_i h
      rw [(Text.order_eq_iff key entry.1).mp h]
      simp
    · rw [List.map_cons, List.mem_cons, ih, List.map_cons, List.mem_cons]
      exact or_left_comm

end TextMap
end Postal
