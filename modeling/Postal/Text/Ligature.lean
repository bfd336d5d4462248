import Postal.Text.CharWidth

/-!
# Ligatures

Characters that are drawn as one when they meet. A text is measured from its
end, so a ligature is met at its last part, which waits for the part before
it. Marks that are ignored by default do not come between the parts; in Arabic
no mark does that letters join across.
-/

set_option autoImplicit false

namespace Postal.Text

/-- The last part of a ligature, waiting for the one before it. -/
inductive Ligature where
  /-- Arabic alef, which joins a lam. -/
  | alef
  /-- Hebrew lamed, which joins an alef over a joiner. -/
  | lamed
  /-- Buginese ya, which joins the vowel i over a joiner. -/
  | ya
  /-- Buginese i and ya, which join the letter a. -/
  | vowelYa
  /-- A Tifinagh consonant, which joins another over a joiner. -/
  | tifinagh
  /-- A Tifinagh consonant after the consonant joiner. -/
  | linkedTifinagh
  /-- A Lisu tone letter that combines with one of another kind. -/
  | lisuTone
  /-- Old Turkic i, which joins the letter ec over a joiner. -/
  | orkhonI
  /-- A Khmer letter that a coeng sign puts below the one before. -/
  | coengLetter
  deriving DecidableEq, Repr

def joiner : Char := '\u200d'

def alefRanges : CodeRanges :=
  [(0x622, 0x623), (0x625, 0x625), (0x627, 0x627), (0x671, 0x673), (0x675, 0x675), (0x773, 0x774),
    (0x870, 0x882)]

def lamRanges : CodeRanges :=
  [(0x644, 0x644), (0x6b5, 0x6b8), (0x76a, 0x76a), (0x8a6, 0x8a6), (0x8c7, 0x8c7)]

def tifinaghRanges : CodeRanges := [(0x2d31, 0x2d65), (0x2d6f, 0x2d6f)]

def tifinaghJoiner : Char := '\u2d7f'

def coengLetterRanges : CodeRanges :=
  [(0x1780, 0x1782), (0x1784, 0x1787), (0x1789, 0x178c), (0x178e, 0x1793), (0x1795, 0x1798),
    (0x179b, 0x179d), (0x17a0, 0x17a0), (0x17a2, 0x17a2), (0x17a7, 0x17a7), (0x17ab, 0x17ac),
    (0x17af, 0x17af)]

def coeng : Char := '\u17d2'

def ignoredMarkRanges : CodeRanges :=
  [(0x34f, 0x34f), (0x17b4, 0x17b5), (0x180b, 0x180d), (0x180f, 0x180f), (0xfe00, 0xfe0f),
    (0xe0100, 0xe01ef)]

def severingRanges : CodeRanges :=
  [(0x605, 0x605), (0x890, 0x891), (0x8e2, 0x8e2), (0x9be, 0x9be), (0x9d7, 0x9d7), (0xb3e, 0xb3e),
    (0xb57, 0xb57), (0xbbe, 0xbbe), (0xbd7, 0xbd7), (0xcc0, 0xcc0), (0xcc2, 0xcc2), (0xcc7, 0xcc8),
    (0xcca, 0xccb), (0xcd5, 0xcd6), (0xd3e, 0xd3e), (0xd4e, 0xd4e), (0xd57, 0xd57), (0xdcf, 0xdcf),
    (0xddf, 0xddf), (0x1160, 0x11ff), (0x1715, 0x1715), (0x1734, 0x1734), (0x180e, 0x180e),
    (0x1b35, 0x1b35), (0x1b3b, 0x1b3b), (0x1b3d, 0x1b3d), (0x1b43, 0x1b44), (0x1baa, 0x1baa),
    (0x1bf2, 0x1bf3), (0x200c, 0x200d), (0x2065, 0x2069), (0x302e, 0x302f), (0x3164, 0x3164),
    (0xa8fa, 0xa8fa), (0xa953, 0xa953), (0xa9c0, 0xa9c0), (0xd7b0, 0xd7c6), (0xd7cb, 0xd7fb),
    (0xff9e, 0xffa0), (0xfff0, 0xfff8), (0x111c0, 0x111c0), (0x111c2, 0x111c3), (0x11235, 0x11235),
    (0x1133e, 0x1133e), (0x1134d, 0x1134d), (0x11357, 0x11357), (0x113b8, 0x113b8),
    (0x113c2, 0x113c2), (0x113c5, 0x113c5), (0x113c7, 0x113c9), (0x113cf, 0x113cf),
    (0x113d1, 0x113d1), (0x114b0, 0x114b0), (0x114bd, 0x114bd), (0x115af, 0x115af),
    (0x116b6, 0x116b6), (0x11930, 0x11930), (0x1193d, 0x1193d), (0x1193f, 0x1193f),
    (0x11941, 0x11941), (0x11a84, 0x11a89), (0x11d46, 0x11d46), (0x11f02, 0x11f02),
    (0x11f41, 0x11f41), (0x16ff0, 0x16ff1), (0x1d165, 0x1d166), (0x1d16d, 0x1d172),
    (0xe0000, 0xe0000), (0xe0002, 0xe001f), (0xe0080, 0xe00ff), (0xe01f0, 0xe0fff)]

def isJoinedAcross (c : Char) : Bool := charWidth c == 0 && !severingRanges.has c

namespace Ligature

def endingIn? (c : Char) : Option Ligature :=
  if alefRanges.has c then some alef
  else if c = '\u05dc' then some lamed
  else if c = '\u1a10' then some ya
  else if tifinaghRanges.has c then some tifinagh
  else if CodeRanges.has [(0xa4fc, 0xa4fd)] c then some lisuTone
  else if CodeRanges.has [(0x10c03, 0x10c03)] c then some orkhonI
  else if coengLetterRanges.has c then some coengLetter
  else none

/-- Nothing but a mark that is ignored by default, or a joiner, may stand between the parts. -/
def passes (part : Ligature) (c : Char) : Bool :=
  match part with
  | alef => isJoinedAcross c
  | _ => c == joiner || ignoredMarkRanges.has c

structure Meeting where
  gain : Int
  waiting : Option Ligature
  deriving DecidableEq, Repr

/-- The part that `c` is to a waiting one, `joined` when a joiner stands between the two. -/
def meet? (part : Ligature) (joined : Bool) (c : Char) : Option Meeting :=
  match part with
  | alef => if lamRanges.has c then some ⟨0, none⟩ else none
  | lamed => if joined && c == '\u05d0' then some ⟨0, none⟩ else none
  | ya => if joined && c == '\u1a17' then some ⟨0, some vowelYa⟩ else none
  | vowelYa => if c = '\u1a15' then some ⟨0, none⟩ else none
  | tifinagh =>
    if c = tifinaghJoiner then some ⟨1, some linkedTifinagh⟩
    else if joined && tifinaghRanges.has c then some ⟨0, none⟩
    else none
  | linkedTifinagh => if tifinaghRanges.has c then some ⟨-1, none⟩ else none
  | lisuTone => if CodeRanges.has [(0xa4f8, 0xa4fb)] c then some ⟨0, none⟩ else none
  | orkhonI => if joined && CodeRanges.has [(0x10c32, 0x10c32)] c then some ⟨0, none⟩ else none
  | coengLetter => if c = coeng then some ⟨-1, none⟩ else none

end Ligature
end Postal.Text
