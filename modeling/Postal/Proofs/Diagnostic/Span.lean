import Postal.Diagnostic
import Postal.Proofs.Template.Faults

/-!
# Spans of diagnostics

Columns of errors count characters and spans of diagnostics count bytes. The
span begins behind the bytes of the characters before the one pointed at and
ends behind its own, so it lies on character boundaries of the UTF-8 form and
cuts out just that character.
-/

set_option autoImplicit false

namespace Postal

namespace Text

theorem byteLength_eq_utf8ByteSize (t : Text) :
    byteLength t = (String.ofList t).utf8ByteSize := by
  induction t with
  | nil => rfl
  | cons c t ih =>
    rw [byteLength, ih, ← List.singleton_append, String.ofList_append, String.utf8ByteSize_append,
      ← String.singleton_eq_ofList, String.utf8ByteSize_singleton]

/-- The bytes from `start` on, as many as `length`, are the UTF-8 form of one character. -/
structure Covers (t : Text) (start length : ℕ) (c : Char) : Prop where
  nonempty : 1 ≤ length
  inside : start + length ≤ (String.ofList t).utf8ByteSize
  starts : String.Pos.Raw.IsValid (String.ofList t) ⟨start⟩
  ends : String.Pos.Raw.IsValid (String.ofList t) ⟨start + length⟩
  bytes : (String.ofList t).toByteArray.extract start (start + length) =
    (String.singleton c).toByteArray

theorem isValid_byteLength_take (t : Text) (n : ℕ) :
    String.Pos.Raw.IsValid (String.ofList t) ⟨byteLength (t.take n)⟩ :=
  String.Pos.Raw.isValid_ofList.mpr ⟨n, byteLength_eq_utf8ByteSize (t.take n)⟩

theorem byteLength_take_add (t : Text) (n : ℕ) :
    byteLength (t.take n) + byteLength ((t.drop n).take 1) = byteLength (t.take (n + 1)) := by
  rw [← byteLength_append, ← List.take_add]

/-- Behind the bytes of what stands before, the next bytes are those of the character. -/
theorem extract_split (before after : Text) (c : Char) :
    (String.ofList (before ++ c :: after)).toByteArray.extract (byteLength before)
      (byteLength before + byteLength [c]) = (String.singleton c).toByteArray := by
  have hsize : ∀ t : Text, byteLength t = t.utf8Encode.size := by
    intro t
    rw [byteLength_eq_utf8ByteSize, ← String.size_toByteArray, String.toByteArray_ofList]
  have hbytes : (String.ofList (before ++ c :: after)).toByteArray =
      before.utf8Encode ++ ([c].utf8Encode ++ after.utf8Encode) := by
    rw [String.toByteArray_ofList, List.utf8Encode_append, ← List.utf8Encode_cons]
  have hstart := ByteArray.extract_append_size_add
    (a := before.utf8Encode) (b := [c].utf8Encode ++ after.utf8Encode) (i := 0)
    (j := [c].utf8Encode.size)
  rw [hbytes, hsize before, hsize [c], String.toByteArray_singleton]
  rw [Nat.add_zero, ByteArray.extract_append_eq_left rfl] at hstart
  exact hstart

theorem covers_of_getElem? (t : Text) (n : ℕ) (c : Char) (h : t[n]? = some c) :
    Covers t (byteLength (t.take n)) (byteLength ((t.drop n).take 1)) c := by
  obtain ⟨hn, rfl⟩ := List.getElem?_eq_some_iff.mp h
  have hdrop := List.drop_eq_getElem_cons hn
  have hone : (t.drop n).take 1 = [t[n]] := by
    rw [hdrop]
    rfl
  have hsplit : t = t.take n ++ t[n] :: t.drop (n + 1) := by
    rw [← hdrop, List.take_append_drop]
  have hends : String.Pos.Raw.IsValid (String.ofList t)
      ⟨byteLength (t.take n) + byteLength ((t.drop n).take 1)⟩ := by
    rw [byteLength_take_add]
    exact isValid_byteLength_take t (n + 1)
  refine ⟨?_, hends.le_utf8ByteSize, isValid_byteLength_take t n, hends, ?_⟩
  · rw [hone]
    exact Char.utf8Size_pos t[n]
  · have hextract := extract_split (t.take n) (t.drop (n + 1)) t[n]
    rw [← hsplit, ← hone] at hextract
    exact hextract

end Text

namespace Template

theorem getLast?_of_odd_marksAtEnd (s : Text) (h : Odd (marksAtEnd s)) :
    s.getLast? = some '%' := by
  have hne : s.rtakeWhile (· = '%') ≠ [] := by
    intro hnil
    rw [marksAtEnd, hnil] at h
    exact absurd h (by simp)
  rw [ne_eq, List.rtakeWhile_eq_nil_iff, not_forall] at hne
  obtain ⟨hs, hlast⟩ := hne
  rw [List.getLast?_eq_some_getLast hs]
  exact congrArg some (by simpa using hlast)

end Template

namespace Diagnostic

/-- The character an error is about, under which a span ends: the unknown code of an escape, or
the mark that ends the text. -/
def Concerns (s : Text) (stop : ℕ) (c : Char) : TemplateError → Prop
  | .danglingEscape _ => c = '%' ∧ stop = (String.ofList s).utf8ByteSize
  | .invalidField _ cause => cause = .unknownCode c

theorem getElem?_position (s : Text) (e : TemplateError) (h : Template.parseStrict s = .error e) :
    ∃ c, s[position e]? = some c ∧ Concerns s (Text.byteLength (s.take (position e + 1))) c e := by
  cases hp : Template.parse s with
  | error cause =>
    rw [Template.parseStrict_of_parse_error s cause hp] at h
    cases h
    obtain ⟨hodd, rfl⟩ := (Template.parse_eq_error s e).mp hp
    have hlast := Template.getLast?_of_odd_marksAtEnd s hodd
    have hpos : 0 < s.length := by
      rw [List.length_pos_iff]
      rintro rfl
      cases hlast
    refine ⟨'%', ?_, rfl, ?_⟩
    · rw [List.getLast?_eq_getElem?] at hlast
      exact hlast
    · rw [position, Nat.sub_add_cancel hpos, List.take_length, Text.byteLength_eq_utf8ByteSize]
  | ok template =>
    obtain ⟨column, code, rfl, hf⟩ := Template.parseStrict_eq_error s template e hp h
    exact ⟨code, hf.named, rfl⟩

/-- The span of a template's error lies in the template on character boundaries and holds just
one character: the unknown code, or the mark with which the template ends. -/
theorem span_ofTemplateError (s : Text) (e : TemplateError)
    (h : Template.parseStrict s = .error e) :
    ∃ c, Text.Covers s (ofTemplateError s e).offset (ofTemplateError s e).length c ∧
      Concerns s ((ofTemplateError s e).offset + (ofTemplateError s e).length) c e := by
  obtain ⟨c, hc, hconcerns⟩ := getElem?_position s e h
  refine ⟨c, Text.covers_of_getElem? s (position e) c hc, ?_⟩
  rw [← Text.byteLength_take_add] at hconcerns
  exact hconcerns

theorem span_ofTemplateError_wide :
    Template.parseStrict "〒%〒".toList = .error (.invalidField 2 (.unknownCode '〒')) ∧
      Text.Covers "〒%〒".toList 4 3 '〒' ∧
      Template.parseStrict "é%%%".toList = .error (.danglingEscape 4) ∧
      Text.Covers "é%%%".toList 4 1 '%' := by
  have hcode : Template.parseStrict "〒%〒".toList =
    .error (.invalidField 2 (.unknownCode '〒')) := rfl
  have hmark : Template.parseStrict "é%%%".toList = .error (.danglingEscape 4) := rfl
  obtain ⟨c, hc, hconcerns⟩ := span_ofTemplateError _ _ hcode
  obtain ⟨d, hd, hlast, -⟩ := span_ofTemplateError _ _ hmark
  cases hconcerns
  cases hlast
  exact ⟨hcode, hc, hmark, hd⟩

end Diagnostic
end Postal
