import PatternWalk.Text
/-!
# Line — the line of a text in which an offset lies

A line ends with a line feed, or with a carriage return and a line feed.  What ends a line belongs to it as far as
offsets go, but not to its text.  After the last line feed no further line begins: the end of a text that ends with one
lies in the line before.
-/
namespace PatternWalk

namespace Text

/-- **A line of a text**: its number from one, the offset at which it begins, and its text. -/
structure Line where
  number : Nat
  start : Nat
  text : Text
deriving DecidableEq, Repr

def splitLines : Text → List Text
  | [] => [[]]
  | c :: s =>
    match splitLines s with
    | [] => [[c]]
    | line :: rest => if c = '\n' then [] :: line :: rest else (c :: line) :: rest

def withoutReturn (s : Text) : Text := if s.getLast? = some '\r' then s.dropLast else s

/-- A text cut behind the last whole character that ends within its first `n` bytes. -/
def splitBytes : Text → (n : Nat) → Text × Text
  | [], _ => ([], [])
  | c :: s, n =>
    if c.utf8Size ≤ n then
      let (front, rest) := splitBytes s (n - c.utf8Size)
      (c :: front, rest)
    else ([], c :: s)

namespace Line

def find (offset : Nat) : (number start : Nat) → List Text → Line
  | number, start, [] => ⟨number, start, []⟩
  | number, start, [text] => ⟨number, start, text⟩
  | number, start, text :: next :: rest =>
    if offset ≤ start + text.size ∨ (next = [] ∧ rest = []) then ⟨number, start, withoutReturn text⟩
    else find offset (number + 1) (start + text.size + 1) (next :: rest)

def ofOffset (source : Text) (offset : Nat) : Line := find offset 1 0 source.splitLines

def upTo (line : Line) (offset : Nat) : Text := (line.text.splitBytes (offset - line.start)).1

def after (line : Line) (offset : Nat) : Text := (line.text.splitBytes (offset - line.start)).2

/-- **The characters of a line in front of an offset**, where what ends the line counts as one. -/
def charsUpTo (line : Line) (offset : Nat) : Nat :=
  (line.upTo offset).length + if line.start + line.text.size < offset then 1 else 0

end Line

end Text

end PatternWalk
