import Postal.Language

/-!
# Scripts

The script of an address relative to its region: the region's own, or Latin
where the region normally uses another. It depends on the region and not on
the language, so an address in a region of Latin script is native.
-/

set_option autoImplicit false

namespace Postal

inductive Script where
  | latin
  | native
  deriving DecidableEq, Repr

namespace Script

def name : Script → Text
  | latin => "latin".toList
  | native => "local".toList

def all : List Script := [latin, native]

def ofName? (name : Text) : Option Script := all.find? fun s => s.name == name

@[simp] theorem ofName?_name (s : Script) : ofName? s.name = some s := by
  cases s <;> decide

def ofLanguage (language : Option Text) : Script :=
  if language.any Language.isLatin then latin else native

end Script
end Postal
