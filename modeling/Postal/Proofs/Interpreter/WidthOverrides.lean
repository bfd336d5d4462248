import Postal.Interpreter
import Postal.Proofs.Template.Canonical

/-!
# The grammar of width overrides

Width overrides are read as a template, of which every code must be followed by a literal of a
colon and a width. Read so, the segments may not be told apart as they were written: a literal
takes in all that stands up to the next escape, and a mark may be a code itself. But a colon and a
width hold no mark and the next segment begins with one, so the template has one code and one
literal for each segment, and no other template is accepted.
-/

set_option autoImplicit false

namespace Postal

inductive WidthLetter where
  | narrow
  | short
  | long
  deriving DecidableEq, Repr

namespace WidthLetter

def char : WidthLetter → Char
  | narrow => 'N'
  | short => 'S'
  | long => 'L'

def width : WidthLetter → Width
  | narrow => .short
  | short => .short
  | long => .long

theorem char_ne_mark (letter : WidthLetter) : letter.char ≠ '%' := by
  cases letter <;> decide

end WidthLetter

theorem Width.ofCode?_eq_some_iff (c : Char) (w : Width) :
    ofCode? c = some w ↔ ∃ letter : WidthLetter, letter.char = c ∧ letter.width = w := by
  constructor
  · intro h
    unfold ofCode? at h
    split at h
    · exact ⟨.narrow, rfl, Option.some.inj h⟩
    · exact ⟨.short, rfl, Option.some.inj h⟩
    · exact ⟨.long, rfl, Option.some.inj h⟩
    · cases h
  · rintro ⟨letter, rfl, rfl⟩
    cases letter <;> rfl

/-- A segment of width overrides. Its code may be any character but the one of a line break. -/
structure WidthSegment where
  code : Char
  letter : WidthLetter
  code_ne : code ≠ 'n'

namespace WidthSegment

def text (segment : WidthSegment) : Text := ['%', segment.code, ':', segment.letter.char]

def tokens (segment : WidthSegment) : Template :=
  [.field segment.code, .literal [':', segment.letter.char]]

def entry (segment : WidthSegment) : Char × Width := (segment.code, segment.letter.width)

def written (segments : List WidthSegment) : Text := segments.flatMap text

theorem text_tokens (segments : List WidthSegment) :
    Template.text (segments.flatMap tokens) = written segments := by
  induction segments with
  | nil => rfl
  | cons segment rest ih =>
    rw [List.flatMap_cons, Template.text_append, ih]
    rfl

theorem tokens?_written (segments : List WidthSegment) :
    Template.tokens? (written segments) = some (segments.flatMap tokens) := by
  induction segments with
  | nil => rfl
  | cons segment rest ih =>
    have hmark : '%' ∉ [':', segment.letter.char] := by
      simpa using segment.letter.char_ne_mark.symm
    have hnext : ∀ t ∈ (rest.flatMap tokens).head?, t.isLiteral = false := by
      intro t ht
      cases rest with
      | nil => cases ht
      | cons next rest =>
        cases ht
        rfl
    apply Template.tokens?_code segment.code _ _ segment.code_ne
    exact Template.tokens?_run _ _ _ (List.cons_ne_nil _ _) hmark hnext ih

theorem widthSegments?_tokens (segments : List WidthSegment) :
    widthSegments? (segments.flatMap tokens) = some (segments.map entry) := by
  induction segments with
  | nil => rfl
  | cons segment rest ih =>
    have hletter := (Width.ofCode?_eq_some_iff _ _).mpr ⟨segment.letter, rfl, rfl⟩
    rw [List.flatMap_cons]
    change (do
      let w ← Width.ofCode? segment.letter.char
      return (segment.code, w) :: (← widthSegments? (rest.flatMap tokens))) = _
    rw [hletter, ih]
    rfl

theorem exists_of_widthSegments? (template : Template) (found : List (Char × Width))
    (hn : .field 'n' ∉ template) (h : widthSegments? template = some found) :
    ∃ segments : List WidthSegment,
      template = segments.flatMap tokens ∧ found = segments.map entry := by
  fun_induction widthSegments? template generalizing found with
  | case1 =>
    cases h
    exact ⟨[], rfl, rfl⟩
  | case2 code width rest ih =>
    obtain ⟨w, hw, h⟩ := Option.bind_eq_some_iff.mp h
    obtain ⟨more, hmore, h⟩ := Option.bind_eq_some_iff.mp h
    cases h
    obtain ⟨letter, rfl, rfl⟩ := (Width.ofCode?_eq_some_iff width w).mp hw
    simp only [List.mem_cons, not_or, Token.field.injEq] at hn
    obtain ⟨segments, rfl, rfl⟩ := ih more hn.2.2 hmore
    exact ⟨⟨code, letter, Ne.symm hn.1⟩ :: segments, rfl, rfl⟩
  | case3 => cases h

theorem widthOverrides?_eq_some_iff (s : Text) (found : List (Char × Width)) :
    widthOverrides? s = some found ↔
      ∃ segments : List WidthSegment, s = written segments ∧ found = segments.map entry := by
  constructor
  · intro h
    obtain ⟨template, htemplate, h⟩ := Option.bind_eq_some_iff.mp h
    obtain ⟨segments, rfl, rfl⟩ := exists_of_widthSegments? template found
      (Template.canonical_of_tokens? s template htemplate).code h
    exact ⟨segments, by rw [← text_tokens, Template.text_of_tokens? s _ htemplate], rfl⟩
  · rintro ⟨segments, rfl, rfl⟩
    exact Option.bind_eq_some_iff.mpr
      ⟨_, tokens?_written segments, widthSegments?_tokens segments⟩

def Declares (segments : List WidthSegment) (code : Char) (w : Width) : Prop :=
  ∃ before segment after, segments = before ++ segment :: after ∧
    (∀ other ∈ before, other.code ≠ code) ∧ segment.code = code ∧ segment.letter.width = w

theorem lookup_entry_iff (segments : List WidthSegment) (code : Char) (w : Width) :
    (segments.map entry).lookup code = some w ↔ Declares segments code w := by
  rw [List.lookup_eq_some_iff]
  constructor
  · rintro ⟨before, after, hsplit, hfirst⟩
    obtain ⟨front, rest, rfl, rfl, hrest⟩ := List.map_eq_append_iff.mp hsplit
    obtain ⟨segment, back, rfl, hentry, -⟩ := List.map_eq_cons_iff.mp hrest
    refine ⟨front, segment, back, rfl, fun other hm => ?_, congrArg Prod.fst hentry,
      congrArg Prod.snd hentry⟩
    have hne := hfirst other.entry (List.mem_map_of_mem hm)
    exact Ne.symm (bne_iff_ne.mp hne)
  · rintro ⟨before, segment, after, rfl, hfirst, rfl, rfl⟩
    refine ⟨before.map entry, after.map entry, List.map_append, fun p hp => ?_⟩
    obtain ⟨other, hm, rfl⟩ := List.mem_map.mp hp
    exact bne_iff_ne.mpr (Ne.symm (hfirst other hm))

end WidthSegment

namespace Interpreter

open WidthSegment (Declares entry written)

/-- Width overrides are read exactly if they are segments throughout, one bad segment making them
all unreadable, and what is read is the codes and widths in order. A field has an override exactly
if the region's overrides are readable and have its code, and it is that of the first segment with
the code. -/
theorem widthOverrides_grammar :
    (∀ s found, widthOverrides? s = some found ↔
      ∃ segments, s = written segments ∧ found = segments.map entry) ∧
    ∀ (i : Interpreter) (f : Field) (region : Text) (w : Width),
      i.widthOverride? f region = some w ↔
        ∃ segments, i.table.get? region .widthOverrides = some (written segments) ∧
          Declares segments f.code w := by
  refine ⟨WidthSegment.widthOverrides?_eq_some_iff, fun i f region w => ?_⟩
  constructor
  · intro h
    obtain ⟨s, hs, h⟩ := Option.bind_eq_some_iff.mp h
    obtain ⟨found, hfound, h⟩ := Option.bind_eq_some_iff.mp h
    obtain ⟨segments, rfl, rfl⟩ := (WidthSegment.widthOverrides?_eq_some_iff s found).mp hfound
    exact ⟨segments, hs, (WidthSegment.lookup_entry_iff segments f.code w).mp h⟩
  · rintro ⟨segments, hs, hdeclares⟩
    have hfound := (WidthSegment.widthOverrides?_eq_some_iff _ _).mpr ⟨segments, rfl, rfl⟩
    have hlookup := (WidthSegment.lookup_entry_iff segments f.code w).mpr hdeclares
    exact Option.bind_eq_some_iff.mpr ⟨_, hs, Option.bind_eq_some_iff.mpr ⟨_, hfound, hlookup⟩⟩

/-- The mark and the colon may be codes, and only the width says what a letter means. -/
example : widthOverrides? "%%:S%::L%L:N".toList =
    some [('%', .short), (':', .long), ('L', .short)] := by
  decide

end Interpreter
end Postal
