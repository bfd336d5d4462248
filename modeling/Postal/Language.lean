import Postal.Text

/-!
# Language tags

A tag selects Latin script explicitly if a language of two or three letters
is followed by the script `Latn`, in any case. Subtags are parted by `-` or
`_`, and what follows the script is not looked at. A library of locales that
reads subtags finds the same.
-/

set_option autoImplicit false

namespace Postal.Language

def isSeparator (c : Char) : Bool := c = '-' || c = '_'

def firstSubtag (tag : Text) : Text := tag.takeWhile fun c => !isSeparator c

def afterFirst? (tag : Text) : Option Text :=
  match tag.dropWhile fun c => !isSeparator c with
  | [] => none
  | _ :: rest => some rest

def isLanguage (subtag : Text) : Bool :=
  (subtag.length = 2 || subtag.length = 3) && subtag.all Char.isAlpha

def isLatin (tag : Text) : Bool :=
  match afterFirst? tag with
  | none => false
  | some rest =>
    isLanguage (firstSubtag tag) && Text.equalIgnoringCase (firstSubtag rest) "Latn".toList

/-- A library of locales, as far as it reads subtags. -/
structure SubtagReaders (ι σ : Type) where
  language? : Text → Option ι
  script? : Text → Option σ

/-- The tag is cut at every separator and its first two subtags are read. The first one is at most
three bytes long, and the second is read as `Latn` is. -/
def SubtagReaders.selectsLatin {ι σ : Type} [DecidableEq σ] (readers : SubtagReaders ι σ)
    (tag : Text) : Bool :=
  match tag.splitOnP isSeparator with
  | language :: script :: _ =>
    (2 ≤ Text.byteLength language && Text.byteLength language ≤ 3) &&
      (readers.language? language).isSome &&
      ((readers.script? script).isSome &&
        readers.script? script = readers.script? "Latn".toList)
  | _ => false

end Postal.Language
