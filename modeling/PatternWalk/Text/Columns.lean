import PatternWalk.Text
import PatternWalk.Text.CombiningMark
import PatternWalk.Text.Wide
/-!
# Columns — how a line of text shows in a terminal

A tab shows as four spaces.  A control character shows as its picture, a character that would turn the direction of
writing as the replacement character, and a joiner not at all.  Characters that are drawn onto a neighbour or not drawn
have no width of their own, wide characters take two columns, one Khmer sign three, all others one.
-/
namespace PatternWalk

namespace Text

/-- Characters that are not drawn, but steer how their neighbours are; the Hangul fillers among them. -/
def undrawnRanges : List (Nat × Nat) :=
  [(0xad, 0xad), (0x61c, 0x61c), (0x180e, 0x180e), (0x200b, 0x200f), (0x2060, 0x206f), (0x3164, 0x3164),
   (0xfeff, 0xfeff), (0xffa0, 0xffa0), (0xfff0, 0xfff8), (0x1bca0, 0x1bca3), (0x1d173, 0x1d17a), (0xe0000, 0xe0fff)]

/-- Vowels and final consonants of Hangul, which are drawn into the syllable they end. -/
def syllableEndRanges : List (Nat × Nat) := [(0x1160, 0x11ff), (0xd7b0, 0xd7c6), (0xd7cb, 0xd7fb)]

/-- Signs that are drawn over or under the characters after them, or into the letter after them. -/
def leadingSignRanges : List (Nat × Nat) :=
  [(0x605, 0x605), (0x70f, 0x70f), (0x890, 0x891), (0x8e2, 0x8e2), (0xd4e, 0xd4e), (0xa8fa, 0xa8fa),
   (0x111c2, 0x111c3), (0x113d1, 0x113d1), (0x1193f, 0x1193f), (0x11941, 0x11941), (0x11a84, 0x11a89),
   (0x11d46, 0x11d46), (0x11f02, 0x11f02)]

def directionRanges : List (Nat × Nat) := [(0x202a, 0x202e), (0x2066, 0x2069)]

def shown (c : Char) : Text :=
  if c = '\t' then [' ', ' ', ' ', ' ']
  else if c.toNat < 0x20 then [Char.ofNat (0x2400 + c.toNat)]
  else if c = '\x7f' then ['\u2421']
  else if c = '\u200d' then []
  else if inRanges directionRanges c then ['\ufffd']
  else [c]

def shownAll (s : Text) : Text := s.flatMap shown

/-- A character without a column of its own.  The joiner of Tifinagh has one: it shows unless a letter follows. -/
def isWidthless (c : Char) : Bool :=
  c != '\u2d7f' &&
    (isCombining c || inRanges undrawnRanges c || inRanges syllableEndRanges c || inRanges leadingSignRanges c)

/-- **The columns a character takes.**  The Khmer sign for "and so on" is drawn as the three signs it abbreviates. -/
def columns (c : Char) : Nat :=
  if c = '\t' then 4
  else if c = '\u17d8' then 3
  else if inRanges directionRanges c then 1
  else if isWidthless c then 0
  else if isWide c then 2
  else 1

def width : List Char → Nat
  | [] => 0
  | c :: s => columns c + width s

end Text

end PatternWalk
