import PatternWalk.Evaluation
import PatternWalk.Pattern.Outline
/-!
# TraceLog — an evaluation as readable lines

Each event gives at most one line, and the level of detail decides which events do.  A line is indented by the depth of
its term, so the log of a group stands inside the log of the term that repeats it.
-/
namespace PatternWalk

structure Palette where
  /-- Offsets and spans. -/
  blue : String
  /-- Matched text and satisfied terms. -/
  green : String
  /-- Failed terms. -/
  red : String
  /-- Repetitions and counts. -/
  dim : String
  /-- Back to the terminal's own colour. -/
  reset : String
deriving DecidableEq, Repr

namespace Palette

def colored : Palette := ⟨"\x1b[34m", "\x1b[32m", "\x1b[31m", "\x1b[2m", "\x1b[0m"⟩

def plain : Palette := ⟨"", "", "", "", ""⟩

def of (color : Bool) : Palette := if color then colored else plain

def isEnabled (c : Palette) : Bool := !c.reset.isEmpty

end Palette

inductive Verbosity where
  /-- How terms ended, and the result. -/
  | brief
  /-- Also where terms begin, and the text they took. -/
  | verbose
  /-- Also every repetition. -/
  | veryVerbose
deriving DecidableEq, Repr, Inhabited

structure TraceStyle where
  source : Text
  verbosity : Verbosity := .brief
  palette : Palette := .plain

namespace TraceStyle

def widest : Nat := 32

def paint (style : TraceStyle) (color part : String) : String := color ++ part ++ style.palette.reset

def mark (style : TraceStyle) (offset : Nat) : String := style.paint style.palette.blue ("@" ++ toString offset)

def stretch (style : TraceStyle) (start stop : Nat) : String :=
  style.paint style.palette.blue (toString start ++ ".." ++ toString stop)

/-- **The quoted text of a stretch**, cut short when it is too long; empty when the stretch is none. -/
def excerpt (style : TraceStyle) (start stop : Nat) : String :=
  let text := (style.source.slice? start stop).getD []
  let shown :=
    if widest < text.length then String.ofList (Text.quote (text.take (widest - 1))) ++ "…"
    else String.ofList text.quote
  style.paint style.palette.green shown

def indented (depth : Nat) (line : String) : String := String.ofList (Text.indent (depth + 1)) ++ line

def outcome (style : TraceStyle) (color word : String) (term : Term) (count : UInt32) : String :=
  style.paint color word ++ " " ++ String.ofList term.print ++ " " ++
    style.paint style.palette.dim ("x" ++ toString count.toNat) ++ " "

/-- **The line of an event**, if the level of detail has one. -/
def line? (style : TraceStyle) : Event → Option String
  | .attempt offset => some ("match " ++ style.mark offset)
  | .enter depth term offset =>
    if style.verbosity = .brief then none
    else some (indented depth ("> " ++ String.ofList term.print ++ " " ++ style.mark offset))
  | .repetition depth _ start stop =>
    if style.verbosity = .veryVerbose then
      some (indented (depth + 1)
        (style.paint style.palette.dim "." ++ " " ++ style.stretch start stop ++ " " ++ style.excerpt start stop))
    else none
  | .satisfied depth term count start stop =>
    let line := style.outcome style.palette.green "ok" term count ++ style.stretch start stop
    some (indented depth (if style.verbosity = .brief then line else line ++ " " ++ style.excerpt start stop))
  | .failed depth term count offset =>
    some (indented depth (style.outcome style.palette.red "fail" term count ++ style.mark offset))
  | .result offset (some stop) =>
    some (style.paint style.palette.green "matched" ++ " " ++ style.stretch offset stop ++ " " ++
      style.excerpt offset stop)
  | .result _ none => some (style.paint style.palette.red "no match")

def collect (style : TraceStyle) : Observer (List String) := fun lines event => lines ++ (style.line? event).toList

end TraceStyle

end PatternWalk
