import Postal.Envelope
import Postal.Proofs.Address.Trimmed
import Postal.Proofs.Template.Tokens

/-!
# Rendering as cutting

Rendering carries an unfinished line from token to token, and a street of
several lines finishes it in the middle of a token. The lines that come out
are those of one stream: the pieces of all tokens, cut at their breaks, with
the empty lines left out. So nothing is lost, added or moved.
-/

set_option autoImplicit false

namespace Postal.Envelope

/-- The lines that a field finishes behind `line`, and the line it leaves open. -/
def writeField (a : Address) (line : Text) (field : Field) : List Text × Text :=
  match field with
  | .country => ([], line)
  | .streetAddress =>
    match a.lines with
    | [] => ([], line)
    | [street] => ([], line ++ street)
    | street :: more => (finish (line ++ street) ++ more, [])
  | field => ([], line ++ (a.value field).getD [])

def writeToken (a : Address) (line : Text) : Token → Except FieldError (List Text × Text)
  | .newline => .ok (finish line, [])
  | .literal text => .ok ([], line ++ text)
  | .field code => (writeField a line) <$> Field.ofCode code

theorem renderFrom_cons (a : Address) (line : Text) (t : Token) (rest : Template) :
    renderFrom a line (t :: rest) = do
      let written ← writeToken a line t
      return written.1 ++ (← renderFrom a written.2 rest) := by
  have hopen : ∀ next, renderFrom a next rest = do return [] ++ (← renderFrom a next rest) := by
    intro next
    cases renderFrom a next rest <;> rfl
  cases t with
  | newline => rfl
  | literal text => exact hopen (line ++ text)
  | field code =>
    rw [renderFrom, writeToken]
    cases Field.ofCode code with
    | error e => rfl
    | ok f =>
      cases f with
      | country => exact hopen line
      | streetAddress =>
        simp only [Functor.map, Except.map, ok_bind, writeField]
        cases a.lines with
        | nil => exact hopen line
        | cons street more =>
          cases more with
          | nil => exact hopen (line ++ street)
          | cons next more => rfl
      | _ => exact hopen _

theorem writeToken_known (a : Address) (line : Text) (t : Token) (rest : Template)
    (hk : Template.Known (t :: rest)) : ∃ written, writeToken a line t = .ok written := by
  cases t with
  | newline => exact ⟨_, rfl⟩
  | literal text => exact ⟨_, rfl⟩
  | field code =>
    obtain ⟨f, hf⟩ := hk code List.mem_cons_self
    exact ⟨writeField a line f, by rw [writeToken, hf]; rfl⟩

inductive Piece where
  | text (t : Text)
  | lineBreak
  deriving DecidableEq, Repr

def Piece.content : Piece → Text
  | text t => t
  | lineBreak => []

@[simp] theorem Piece.content_text (t : Text) : (text t).content = t := rfl

@[simp] theorem Piece.content_lineBreak : lineBreak.content = [] := rfl

/-- A single line runs on with what follows it; of several each ends its line. -/
def streetPieces : List Text → List Piece
  | [] => []
  | [street] => [.text street]
  | streets => streets.flatMap fun street => [.text street, .lineBreak]

def fieldPieces (a : Address) (field : Field) : List Piece :=
  match field with
  | .country => []
  | .streetAddress => streetPieces a.lines
  | field => (a.value field).toList.map .text

def pieces (a : Address) : Token → List Piece
  | .newline => [.lineBreak]
  | .literal text => [.text text]
  | .field code =>
    match Field.ofCode code with
    | .ok field => fieldPieces a field
    | .error _ => []

def printed (a : Address) (t : Token) : Text := (pieces a t).flatMap Piece.content

def cut (stream : List Piece) : List Text :=
  (stream.splitOn .lineBreak).map fun line => line.flatMap Piece.content

def printedLines (stream : List Piece) : List Text := (cut stream).filter (· ≠ [])

theorem cut_text (t : Text) (stream : List Piece) :
    cut (.text t :: stream) = (cut stream).modifyHead (t ++ ·) := by
  have hne : (Piece.text t == .lineBreak) = false := rfl
  rw [cut, cut, List.splitOn_cons_eq_if_modifyHead, hne]
  cases stream.splitOn .lineBreak <;> rfl

theorem cut_break (before after : List Piece) :
    cut (before ++ .lineBreak :: after) = cut before ++ cut after := by
  rw [cut, List.splitOn_append_cons_self, List.map_append]
  rfl

theorem cut_flatten (stream : List Piece) : (cut stream).flatten = stream.flatMap Piece.content := by
  induction stream with
  | nil => rfl
  | cons piece rest ih =>
    cases piece with
    | lineBreak =>
      have hb : cut (.lineBreak :: rest) = [] :: cut rest := cut_break [] rest
      rw [hb, List.flatten_cons, ih]
      rfl
    | text t =>
      have hne : cut rest ≠ [] := by simp [cut, List.splitOn_ne_nil]
      obtain ⟨line, lines, hc⟩ := List.exists_cons_of_ne_nil hne
      rw [hc] at ih
      rw [cut_text, hc, List.flatMap_cons, ← ih]
      simp

theorem printedLines_ne_nil (stream : List Piece) : ∀ line ∈ printedLines stream, line ≠ [] := by
  intro line hl
  simpa using (List.mem_filter.mp hl).2

theorem printedLines_flatten (stream : List Piece) :
    (printedLines stream).flatten = stream.flatMap Piece.content := by
  rw [← cut_flatten, printedLines, List.flatten_filter_ne_nil]

theorem printedLines_text (line : Text) : printedLines [.text line] = finish line := by
  have hc : cut [.text line] = [line] := by
    rw [cut_text]
    exact congrArg (fun l => [l]) (List.append_nil line)
  rw [printedLines, hc]
  cases line <;> rfl

@[simp] theorem printedLines_text_nil (stream : List Piece) :
    printedLines (.text [] :: stream) = printedLines stream := by
  rw [printedLines, cut_text]
  cases h : cut stream <;> simp [printedLines, h]

theorem printedLines_text_text (s t : Text) (stream : List Piece) :
    printedLines (.text s :: .text t :: stream) = printedLines (.text (s ++ t) :: stream) := by
  rw [printedLines, cut_text, cut_text, printedLines, cut_text]
  cases cut stream <;> simp

theorem printedLines_break (before after : List Piece) :
    printedLines (before ++ .lineBreak :: after) = printedLines before ++ printedLines after := by
  rw [printedLines, cut_break, List.filter_append]
  rfl

theorem printedLines_text_break (line : Text) (stream : List Piece) :
    printedLines (.text line :: .lineBreak :: stream) = finish line ++ printedLines stream := by
  rw [← printedLines_text]
  exact printedLines_break [.text line] stream

theorem finish_of_ne_nil (line : Text) (h : line ≠ []) : finish line = [line] := by
  cases line with
  | nil => exact absurd rfl h
  | cons c rest => rfl

theorem printedLines_streets (streets : List Text) (stream : List Piece)
    (h : ∀ street ∈ streets, street ≠ []) :
    printedLines ((streets.flatMap fun street => [.text street, .lineBreak]) ++ stream) =
      streets ++ printedLines stream := by
  induction streets with
  | nil => rfl
  | cons street more ih =>
    have hs := finish_of_ne_nil street (h street List.mem_cons_self)
    have hmore := ih fun s hm => h s (List.mem_cons_of_mem street hm)
    calc printedLines (((street :: more).flatMap fun s => [.text s, .lineBreak]) ++ stream)
        = finish street ++ printedLines ((more.flatMap fun s => [.text s, .lineBreak]) ++ stream) :=
          printedLines_text_break street _
      _ = street :: more ++ printedLines stream := by rw [hs, hmore]; rfl

theorem printedLines_field (a : Address) (ha : ∀ street ∈ a.lines, street ≠ []) (line : Text)
    (f : Field) (stream : List Piece) :
    printedLines (.text line :: (fieldPieces a f ++ stream)) =
      (writeField a line f).1 ++ printedLines (.text (writeField a line f).2 :: stream) := by
  have hvalue : ∀ v : Option Text, printedLines (.text line :: (v.toList.map .text ++ stream)) =
      printedLines (.text (line ++ v.getD []) :: stream) := by
    intro v
    cases v with
    | none => rw [Option.getD_none, List.append_nil]; rfl
    | some t => exact printedLines_text_text line t stream
  cases f with
  | country => rfl
  | streetAddress =>
    simp only [fieldPieces, writeField]
    match a.lines, ha with
    | [], _ => rfl
    | [street], _ => exact hvalue (some street)
    | street :: next :: more, ha =>
      have hmore := fun s hs => ha s (List.mem_cons_of_mem street hs)
      calc printedLines (.text line :: (streetPieces (street :: next :: more) ++ stream))
          = finish (line ++ street) ++ printedLines
              (((next :: more).flatMap fun s => [.text s, .lineBreak]) ++ stream) := by
            rw [← printedLines_text_break, ← printedLines_text_text]; rfl
        _ = finish (line ++ street) ++ next :: more ++ printedLines (.text [] :: stream) := by
            rw [printedLines_streets _ stream hmore, printedLines_text_nil, List.append_assoc]
  | _ => exact hvalue _

theorem printedLines_token (a : Address) (ha : ∀ street ∈ a.lines, street ≠ []) (line : Text)
    (t : Token) (stream : List Piece) (written : List Text × Text)
    (h : writeToken a line t = .ok written) :
    printedLines (.text line :: (pieces a t ++ stream)) =
      written.1 ++ printedLines (.text written.2 :: stream) := by
  cases t with
  | newline =>
    cases h
    rw [printedLines_text_nil]
    exact printedLines_text_break line stream
  | literal text =>
    cases h
    exact printedLines_text_text line text stream
  | field code =>
    rw [writeToken] at h
    cases hf : Field.ofCode code with
    | error e => rw [hf] at h; cases h
    | ok f =>
      have hp : pieces a (.field code) = fieldPieces a f := by rw [pieces, hf]
      rw [hf] at h
      injection h with h
      rw [hp, printedLines_field a ha, h]

theorem renderFrom_eq_printedLines (a : Address) (ha : ∀ street ∈ a.lines, street ≠ [])
    (line : Text) (template : Template) (hk : template.Known) :
    renderFrom a line template =
      .ok (printedLines (.text line :: template.flatMap (pieces a))) := by
  induction template generalizing line with
  | nil => exact congrArg Except.ok (printedLines_text line).symm
  | cons t rest ih =>
    obtain ⟨written, hw⟩ := writeToken_known a line t rest hk
    have hrest := ih written.2 (Template.known_tail t rest hk)
    rw [renderFrom_cons, hw, List.flatMap_cons, printedLines_token a ha line t _ written hw]
    simp only [ok_bind, hrest]
    rfl

theorem streetPieces_content (streets : List Text) :
    (streetPieces streets).flatMap Piece.content = streets.flatten := by
  have hended : (streets.flatMap fun street => [.text street, .lineBreak]).flatMap Piece.content =
      streets.flatten := by
    induction streets with
    | nil => rfl
    | cons street streets ih => simp [ih]
  match streets, hended with
  | [], _ => rfl
  | [street], _ => rfl
  | street :: next :: more, hended => exact hended

theorem writeField_flatten (a : Address) (line : Text) (f : Field) :
    (writeField a line f).1.flatten ++ (writeField a line f).2 =
      line ++ (fieldPieces a f).flatMap Piece.content := by
  have hvalue : ∀ v : Option Text, line ++ v.getD [] =
      line ++ (v.toList.map .text).flatMap Piece.content := by
    intro v
    cases v <;> simp
  cases f with
  | country => simp [writeField, fieldPieces]
  | streetAddress =>
    rw [fieldPieces, streetPieces_content, writeField]
    match a.lines with
    | [] => simp
    | [street] => simp
    | street :: next :: more => simp
  | _ => exact hvalue _

theorem writeToken_flatten (a : Address) (line : Text) (t : Token) (written : List Text × Text)
    (h : writeToken a line t = .ok written) :
    written.1.flatten ++ written.2 = line ++ printed a t := by
  cases t with
  | newline =>
    cases h
    rw [finish_flatten]
    rfl
  | literal text =>
    cases h
    simp [printed, pieces]
  | field code =>
    rw [writeToken] at h
    cases hf : Field.ofCode code with
    | error e => rw [hf] at h; cases h
    | ok f =>
      rw [hf] at h
      cases h
      rw [printed, pieces, hf]
      exact writeField_flatten a line f

theorem renderFrom_flatten (a : Address) (line : Text) (template : Template) (out : List Text)
    (h : renderFrom a line template = .ok out) :
    out.flatten = line ++ template.flatMap (printed a) := by
  induction template generalizing line out with
  | nil =>
    cases h
    rw [finish_flatten, List.flatMap_nil, List.append_nil]
  | cons t rest ih =>
    rw [renderFrom_cons] at h
    obtain ⟨written, hw, h⟩ := (bind_eq_ok _ _ _).mp h
    obtain ⟨more, hmore, h⟩ := (bind_eq_ok _ _ _).mp h
    cases h
    rw [List.flatten_append, ih written.2 more hmore, ← List.append_assoc,
      writeToken_flatten a line t written hw, List.append_assoc, List.flatMap_cons]

/-- The lines of an address are those of the stream of its pieces. None of them is empty,
and together they hold what the tokens print, in order. -/
theorem render_eq_printedLines (a : Address) (template : Template) (ha : a.Built)
    (hk : template.Known) :
    ∃ lines, render a template = .ok lines ∧
      lines = printedLines (template.flatMap (pieces a)) ∧
      (∀ line ∈ lines, line ≠ []) ∧ lines.flatten = template.flatMap (printed a) := by
  have hlines : ∀ street ∈ a.lines, street ≠ [] := fun street hs =>
    Text.tidy_ne_nil street (ha.trimmed.line street hs).1
  refine ⟨_, ?_, rfl, printedLines_ne_nil _, ?_⟩
  · rw [render, renderFrom_eq_printedLines a hlines [] template hk, printedLines_text_nil]
  · rw [printedLines_flatten, List.flatMap_assoc]
    rfl

theorem render_eq_printedLines_street :
    Template.parseStrict "No. %A%R, %C%n%Z".toList = .ok [.literal "No. ".toList, .field 'A',
        .field 'R', .literal ", ".toList, .field 'C', .newline, .field 'Z'] ∧
      ∃ a : Address, a.Built ∧ a.lines = ["1 Main".toList, "Flat 2".toList] ∧
        ∃ lines, render a [.literal "No. ".toList, .field 'A', .field 'R', .literal ", ".toList,
            .field 'C', .newline, .field 'Z'] = .ok lines ∧
          lines = ["No. 1 Main".toList, "Flat 2".toList, ", Rome".toList] ∧
          (∀ line ∈ lines, line ≠ []) ∧ lines.flatten = "No. 1 MainFlat 2, Rome".toList := by
  have hread : Template.parseStrict "No. %A%R, %C%n%Z".toList = .ok [.literal "No. ".toList,
      .field 'A', .field 'R', .literal ", ".toList, .field 'C', .newline, .field 'Z'] := rfl
  have ha := Address.Built.drafted [.street "1 Main\n\n Flat 2".toList,
    .single .country "IT".toList, .single .locality "Rome".toList] (by simp)
  obtain ⟨lines, hr, he, hn, hf⟩ := render_eq_printedLines _ _ ha
    ((Template.parseStrict_eq_ok _ _).mp hread).2
  exact ⟨hread, _, ha, rfl, lines, hr, he, hn, hf⟩

end Postal.Envelope
