/-!
# Text

A text is a list of characters, so that every function on it is a recursion
a proof can follow. Blank means a character up to U+0020, that is the ASCII
controls and the space; no other white space of Unicode is trimmed. Case
means ASCII case throughout.
-/

set_option autoImplicit false

namespace Postal

abbrev Text := List Char

namespace Text

def isBlank (c : Char) : Bool := c.val ≤ 0x20

def trimEnd : Text → Text
  | [] => []
  | c :: rest =>
    match trimEnd rest with
    | [] => if isBlank c then [] else [c]
    | d :: kept => c :: d :: kept

def trim (t : Text) : Text := trimEnd (t.dropWhile isBlank)

/-- A text that is blank throughout counts as absent. -/
def trimmed? (t : Text) : Option Text :=
  match trim t with
  | [] => none
  | c :: rest => some (c :: rest)

@[simp] theorem trimmed?_nil : trimmed? [] = none := rfl

def onFirst (c : Char) : List Text → List Text
  | [] => [[c]]
  | piece :: pieces => (c :: piece) :: pieces

@[simp] theorem onFirst_ne_nil (c : Char) (pieces : List Text) : onFirst c pieces ≠ [] := by
  cases pieces <;> simp [onFirst]

def splitOn (sep : Char) : Text → List Text
  | [] => [[]]
  | c :: rest => if c = sep then [] :: splitOn sep rest else onFirst c (splitOn sep rest)

@[simp] theorem splitOn_ne_nil (sep : Char) (t : Text) : splitOn sep t ≠ [] := by
  cases t with
  | nil => simp [splitOn]
  | cons c rest =>
    unfold splitOn
    split
    · simp
    · exact onFirst_ne_nil c _

/-- The pieces between the doubled occurrences of `mark`, found from the left
and without overlap. -/
def splitOnDouble (mark : Char) : Text → List Text
  | [] => [[]]
  | [c] => [[c]]
  | c :: d :: rest =>
    if c = mark ∧ d = mark then [] :: splitOnDouble mark rest
    else onFirst c (splitOnDouble mark (d :: rest))

def dropEmptyEnd : List Text → List Text
  | [] => []
  | piece :: pieces =>
    match dropEmptyEnd pieces with
    | [] => if piece = [] then [] else [piece]
    | next :: kept => piece :: next :: kept

def join (sep : Text) : List Text → Text
  | [] => []
  | [piece] => piece
  | piece :: next :: pieces => piece ++ sep ++ join sep (next :: pieces)

theorem join_splitOn (sep : Char) (t : Text) : join [sep] (splitOn sep t) = t := by
  induction t with
  | nil => rfl
  | cons c rest ih =>
    have hs := splitOn_ne_nil sep rest
    rw [splitOn]
    generalize splitOn sep rest = pieces at hs ih
    cases pieces with
    | nil => exact absurd rfl hs
    | cons piece pieces =>
      by_cases h : c = sep
      · simp [h, join, ih]
      · cases pieces <;> simp_all [onFirst, join]

def startsWith (t head : Text) : Bool := head.isPrefixOf t

def upperCase (t : Text) : Text := t.map Char.toUpper

def equalIgnoringCase (s t : Text) : Bool := upperCase s == upperCase t

def byteLength : Text → Nat
  | [] => 0
  | c :: t => c.utf8Size + byteLength t

@[simp] theorem byteLength_append (s t : Text) :
    byteLength (s ++ t) = byteLength s + byteLength t := by
  induction s with
  | nil => simp [byteLength]
  | cons c s ih => simp [byteLength, ih, Nat.add_assoc]

def order : Text → Text → Ordering
  | [], [] => .eq
  | [], _ :: _ => .lt
  | _ :: _, [] => .gt
  | c :: s, d :: t => if c.val < d.val then .lt else if d.val < c.val then .gt else order s t

@[simp] theorem order_self (t : Text) : order t t = .eq := by
  induction t with
  | nil => rfl
  | cons c t ih => simp [order, ih]

theorem order_eq_iff (s t : Text) : order s t = .eq ↔ s = t := by
  constructor
  · intro h
    induction s generalizing t with
    | nil => cases t <;> simp_all [order]
    | cons c s ih =>
      cases t with
      | nil => simp [order] at h
      | cons d t =>
        simp only [order] at h
        split at h
        · simp at h
        · split at h
          · simp at h
          · rename_i h1 h2
            have hv : c.val = d.val := by
              have := UInt32.not_lt.mp h1
              have := UInt32.not_lt.mp h2
              exact UInt32.le_antisymm ‹_› ‹_›
            rw [ih t h, Char.ext hv]
  · rintro rfl
    exact order_self s

end Text
end Postal
