import Postal.Text
import Postal.Text.Emoji
import Postal.Text.Ligature

/-!
# Display width

The columns that a text takes in a terminal. Most characters take their own
width wherever they stand. The others depend on what follows: a line break of
two characters, a ligature, an emoji with a skin tone, a character whose style
a variation selector asks for, and emoji tied together by joiners are measured
as one. So a text is measured from its end, and each character is added to
what is known of the text after it.
-/

set_option autoImplicit false

namespace Postal.Text

inductive Style where
  | text
  | emoji
  | fullwidth
  deriving DecidableEq, Repr

namespace Style

def ofSelector? (c : Char) : Option Style :=
  if c = '\ufe0e' then some text
  else if c = '\ufe0f' then some emoji
  else if c = '\ufe01' then some fullwidth
  else none

def width? (style : Style) (c : Char) : Option Nat :=
  match style with
  | text => if hasNarrowStyle c then some 1 else none
  | emoji => if isStyled c then some 2 else none
  | fullwidth =>
    if c = '\u2018' ∨ c = '\u2019' ∨ c = '\u201c' ∨ c = '\u201d' then some 2 else none

end Style

/-- What stands before a joiner and an emoji, as far as it can still become one with it. -/
inductive Tie where
  | direct
  | keycap
  /-- Regional indicators, of which two are a flag. -/
  | indicators (count : Nat)
  /-- The tag letters, and before them the tag digits, that name the region of a flag. -/
  | tags (letters digits : Nat)
  deriving DecidableEq, Repr

/-- The start of the text that follows a character, as far as it bears on its columns. -/
inductive Following where
  | plain
  | lineFeed
  | emoji
  | skinTone
  | indicators (several : Bool)
  | tied (tie : Tie)
  | ligature (part : Ligature) (joined : Bool)
  /-- The Kirat Rai vowels e and ai, which combine with the vowels before them. -/
  | kiratE
  | kiratAi
  deriving DecidableEq, Repr

namespace Following

def ofChar (c : Char) : Following :=
  if isEmoji c then emoji
  else if isSkinTone c then skinTone
  else if isRegionalIndicator c then indicators false
  else if CodeRanges.has [(0x16d67, 0x16d67)] c then kiratE
  else if CodeRanges.has [(0x16d68, 0x16d68)] c then kiratAi
  else (Ligature.endingIn? c).elim plain (ligature · false)

/-- What is left when a selector comes between. Ligatures wait on. -/
def pastSelector : Following → Following
  | ligature part joined => ligature part joined
  | _ => plain

/-- What a selector of `style` stands before. The emoji style also serves a tie. -/
def beforeSelector (style : Style) : Following → Following
  | tied .direct => if style = .emoji then tied .direct else plain
  | tied .keycap => if style = .emoji then tied .keycap else plain
  | next => next.pastSelector

end Following

/-- A text measured: its columns, how it starts, and the style its first character asks for. -/
structure Extent where
  columns : Int
  next : Following
  style : Option Style
  deriving DecidableEq, Repr

namespace Extent

def empty : Extent := ⟨0, .plain, none⟩

def add (c : Char) (columns : Int) : Extent := ⟨columns + charWidth c, .ofChar c, none⟩

def isTagLetter (c : Char) : Bool := CodeRanges.has [(0xe0061, 0xe007a)] c

def isTagDigit (c : Char) : Bool := CodeRanges.has [(0xe0030, 0xe0039)] c

def isTagEnd (c : Char) : Bool := CodeRanges.has [(0xe007f, 0xe007f)] c

def isBlackFlag (c : Char) : Bool := CodeRanges.has [(0x1f3f4, 0x1f3f4)] c

/-- A flag of a region is named by three to six letters, or by three digits after no more than
four letters. -/
def namesRegion (letters digits : Nat) : Bool :=
  digits == 3 || digits == 0 && 3 ≤ letters

def tie? (tie : Tie) (c : Char) (columns : Int) : Option Extent :=
  match tie with
  | .direct =>
    if c = '\u20e3' then some ⟨columns, .tied .keycap, none⟩
    else if isRegionalIndicator c then some ⟨columns + 1, .tied (.indicators 1), none⟩
    else if isSkinTone c then some ⟨columns, .skinTone, none⟩
    else if isTagEnd c then some ⟨columns, .tied (.tags 0 0), none⟩
    else if isEmoji c then some ⟨columns, .emoji, none⟩
    else none
  | .keycap => none
  | .indicators count =>
    if isRegionalIndicator c then
      let gain := if Nat.mod count 2 = 1 then -1 else 3
      some ⟨columns + gain, .tied (.indicators (count + 1)), none⟩
    else if c = joiner && 2 ≤ count then some ⟨columns, .tied .direct, none⟩
    else none
  | .tags letters digits =>
    if isTagLetter c && digits == 0 && letters < 6 then
      some ⟨columns, .tied (.tags (letters + 1) 0), none⟩
    else if isTagDigit c && letters ≤ 4 && digits < 3 then
      some ⟨columns, .tied (.tags letters (digits + 1)), none⟩
    else if isBlackFlag c && namesRegion letters digits then some ⟨columns, .emoji, none⟩
    else none

def ligature? (part : Ligature) (joined : Bool) (c : Char) (columns : Int) : Option Extent :=
  match part.meet? joined c with
  | some meeting =>
    some ⟨columns + meeting.gain, meeting.waiting.elim .plain (.ligature · false), none⟩
  | none =>
    if part.passes c then some ⟨columns, .ligature part (joined || c == joiner), none⟩
    else none

def combine? (next : Following) (c : Char) (columns : Int) : Option Extent :=
  match next with
  | .plain | .lineFeed => none
  | .emoji => if c = joiner then some ⟨columns, .tied .direct, none⟩ else none
  | .skinTone =>
    if takesSkinTone c then some ⟨columns, .emoji, none⟩
    else if c = joiner then some ⟨columns, .tied .direct, none⟩
    else none
  | .indicators several =>
    if isRegionalIndicator c then some ⟨columns + 1, .indicators true, none⟩
    else if several && c == joiner then some ⟨columns, .tied .direct, none⟩
    else none
  | .tied tie => tie? tie c columns
  | .ligature part joined => ligature? part joined c columns
  | .kiratE =>
    if CodeRanges.has [(0x16d63, 0x16d63), (0x16d69, 0x16d69)] c then some ⟨columns, .plain, none⟩
    else if CodeRanges.has [(0x16d67, 0x16d67)] c then some ⟨columns, .kiratAi, none⟩
    else if CodeRanges.has [(0x16d68, 0x16d68)] c then some ⟨columns + 1, .kiratE, none⟩
    else none
  | .kiratAi =>
    if CodeRanges.has [(0x16d63, 0x16d63)] c then some ⟨columns, .plain, none⟩ else none

/-- A character up to U+00A0. A return shares the column of a line feed after it. -/
def addLatin (c : Char) (text : Extent) : Extent :=
  if c = '\r' ∧ text.next = .lineFeed then ⟨text.columns, .plain, none⟩
  else ⟨text.columns + 1, if c = '\n' then .lineFeed else .plain, none⟩

def addWide (c : Char) (columns : Int) (next : Following) : Extent :=
  match Style.ofSelector? c with
  | some style => ⟨columns, next.beforeSelector style, some style⟩
  | none => (combine? next c columns).getD (add c columns)

def addStyled (style : Style) (width : Nat) (text : Extent) : Extent :=
  match style, text.next with
  | .emoji, .tied _ => ⟨text.columns, .emoji, none⟩
  | .emoji, _ => ⟨text.columns + width, .emoji, none⟩
  | _, _ => ⟨text.columns + width, .plain, none⟩

/-- The text that starts with `c` and goes on with a measured one. A style that `c` does not have
is dropped. -/
def extend (c : Char) (text : Extent) : Extent :=
  match text.style.bind fun style => (style.width? c).map (style, ·) with
  | some (style, width) => addStyled style width text
  | none =>
    if c ≤ '\u00a0' then addLatin c text
    else addWide c text.columns (if text.style.isSome then text.next.pastSelector else text.next)

end Extent

def measure (t : Text) : Extent := t.foldr Extent.extend Extent.empty

def displayWidth (t : Text) : Nat := (measure t).columns.toNat

end Postal.Text
