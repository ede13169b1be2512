import PatternWalk.Text
/-!
# Row — a line of coloured characters

Each character of a row stands in a cell with a tone.  Cells can be given another tone by their places; neighbours of
one tone are written together, between one code that switches the colour on and one that switches it off.
-/
namespace PatternWalk

namespace Diagnostic

inductive Tone where
  | bare
  | error
  | title
  | help
  | margin
  | added
  | removed
deriving DecidableEq, Repr

def Tone.code? : Tone → Option String
  | bare => none
  | error => some "\x1b[1m\x1b[91m"
  | title => some "\x1b[1m"
  | help => some "\x1b[1m\x1b[96m"
  | margin => some "\x1b[1m\x1b[94m"
  | added => some "\x1b[92m"
  | removed => some "\x1b[91m"

def Tone.off : String := "\x1b[0m"

structure Cell where
  char : Char
  tone : Tone
deriving DecidableEq, Repr

abbrev Row := List Cell

namespace Row

def of (tone : Tone) (s : Text) : Row := s.map fun c => ⟨c, tone⟩

def bare (s : Text) : Row := of .bare s

def repeated (tone : Tone) (n : Nat) (c : Char) : Row := List.replicate n ⟨c, tone⟩

/-- **A row whose cells from `start` up to `stop` have another tone**; places behind its end do not count. -/
def paint (row : Row) (tone : Tone) (start stop : Nat) : Row :=
  row.mapIdx fun i cell => if start ≤ i ∧ i < stop then { cell with tone } else cell

def text (row : Row) : Text := row.map (·.char)

def renderRun (run : Row) : String :=
  let text := String.ofList run.text
  match run.head?.bind (·.tone.code?) with
  | some code => code ++ text ++ Tone.off
  | none => text

def render (row : Row) (color : Bool) : String :=
  if color then String.join ((row.splitBy (·.tone == ·.tone)).map renderRun) else String.ofList row.text

end Row

end Diagnostic

end PatternWalk
