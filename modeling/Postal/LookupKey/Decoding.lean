import Postal.Json.Limits
import Postal.LookupKey

/-!
# Decoding lookup keys

A key is cut at its slashes, and empty segments at the end are dropped. In a
data key the segments from the fourth on make up the dependent locality, a
blank segment ends the hierarchy, and a language may follow the last node
after two dashes. A key of examples gives the country, the script and the
language as they stand.
-/

set_option autoImplicit false

namespace Postal.LookupKey

def splitLanguage (segment : Text) : Except KeyError (Text × Option Text) :=
  match Text.splitOnDouble '-' segment with
  | [_] => .ok (segment, none)
  | pieces =>
    match Text.dropEmptyEnd pieces with
    | [node, language] =>
      match Text.trimmed? node with
      | some node => .ok (node, some language)
      | none => .error (.malformedLanguage segment)
    | _ => .error (.malformedLanguage segment)

/-- Nodes and language of the segments up to the first blank one. -/
def readLevels : List Text → Except KeyError (List Text × Option Text)
  | [] => .ok ([], none)
  | segment :: rest =>
    match Text.trimmed? segment with
    | none => .ok ([], none)
    | some value => do
      match ← splitLanguage value with
      | (node, none) => do
        let (nodes, language) ← readLevels rest
        return (node :: nodes, language)
      | (node, some language) =>
        match rest.head?.bind Text.trimmed? with
        | some next => .error (.misplacedLanguage next)
        | none => return ([node], some language)

def fold (segments : List Text) : List Text :=
  match segments with
  | a :: b :: c :: d :: e :: rest => [a, b, c, Text.join ['/'] (d :: e :: rest)]
  | segments => segments

theorem fold_length (segments : List Text) : (fold segments).length ≤ 4 := by
  unfold fold
  split
  · exact Nat.le_refl 4
  · rename_i h
    match segments with
    | [] => exact Nat.zero_le 4
    | [_] => exact Nat.le_of_ble_eq_true rfl
    | [_, _] => exact Nat.le_of_ble_eq_true rfl
    | [_, _, _] => exact Nat.le_of_ble_eq_true rfl
    | [_, _, _, _] => exact Nat.le_refl 4
    | a :: b :: c :: d :: e :: rest => exact absurd rfl (h a b c d e rest)

def readData (segments : List Text) : Except KeyError LookupKey := do
  let (nodes, language) ← readLevels (fold segments)
  return { kind := .data, nodes := nodes, language := language }

def readScript (name : Text) : Except KeyError Script :=
  match Script.ofName? name with
  | some script => .ok script
  | none => .error (.invalidScript name)

def readExamples (segments : List Text) : Except KeyError LookupKey :=
  match segments with
  | [] => .ok { kind := .examples }
  | [] :: _ => .ok { kind := .examples }
  | [country] => .ok { kind := .examples, nodes := [country] }
  | country :: script :: rest => do
    let script ← readScript script
    let language := rest.head?.filter (· != defaultLanguage)
    return { kind := .examples, script := script, nodes := [country], language := language }

def decode (text : Text) : Except KeyError LookupKey :=
  match Text.dropEmptyEnd (Text.splitOn '/' text) with
  | [] => .error (.wrongKind [])
  | head :: segments =>
    match KeyKind.ofName? head with
    | some .data => readData segments
    | some .examples => readExamples segments
    | none => .error (.wrongKind head)

def read? (json : Text) : Option LookupKey := do
  (decode (← (← Json.read? json).string?)).toOption

def startsLikeKey (text : Text) : Bool := KeyKind.all.any fun kind => text.startsWith kind.name

end Postal.LookupKey
