import PatternWalk.Evaluation
import PatternWalk.Reader
/-!
# Walker — a session that walks through a text

A walker stands at a place of a text.  Each call matches a pattern there and, if it matches, moves past what it
matched; a call that fails leaves the place alone.  The place never moves back.  A delimiter, if the walker has one, is
skipped before each step, as often as it matches some text; but a step that then fails has skipped nothing.
-/
namespace PatternWalk

/-- **What a call may be given**: the text of a pattern, or a pattern. -/
inductive PatternSource where
  | text (text : Text)
  | pattern (pattern : Pattern)

namespace PatternSource

def resolve (limits : Limits) : PatternSource → Except GrammarError Pattern
  | text s => Pattern.read s limits
  | pattern p => .ok p

/-- The patterns that are meant, or the first error in them. -/
def resolveAll (limits : Limits) : List PatternSource → Except GrammarError (List Pattern)
  | [] => .ok []
  | s :: sources =>
    match s.resolve limits with
    | .error e => .error e
    | .ok p => (resolveAll limits sources).map (p :: ·)

end PatternSource

/-- **What a search found**: the text before the anchor, the anchor, and where the anchor starts. -/
structure Sighting where
  skipped : Text
  anchor : Text
  anchorStart : Nat
deriving DecidableEq, Repr

def Sighting.stop (s : Sighting) : Nat := s.anchorStart + s.anchor.size

/-- **How far a list of steps came**: the text of each step that matched, and which step failed, if one did. -/
structure Progress where
  texts : List Text := []
  failedAt? : Option Nat := none
deriving DecidableEq, Repr

namespace Progress

def isComplete (p : Progress) : Bool := p.failedAt?.isNone

def get? (p : Progress) (index : Nat) : Option Text := p.texts[index]?

def complete? (p : Progress) : Option (List Text) := if p.isComplete then some p.texts else none

end Progress

/-! ## Named delimiters -/

namespace Delimiter

def newline : String := "[\r\n]"

def whitespace : String := "[ \t]"

def newlineWhitespace : String := "[ \r\n\t]"

def preset? : String → Option String
  | "newline" => some newline
  | "whitespace" => some whitespace
  | "newline-whitespace" => some newlineWhitespace
  | _ => none

/-- The pattern that a delimiter stands for: that of a preset, or the delimiter itself. -/
def resolve (delimiter : String) : String := (preset? delimiter).getD delimiter

end Delimiter

/-! ## Walkers -/

/-- **A walking session**, watched by an observer. -/
structure Walker (σ : Type) where
  /-- Where the walker stands. -/
  here : Place
  /-- The pattern that is skipped before each step. -/
  delimiter? : Option Pattern := none
  /-- Limits for patterns given as text. -/
  limits : Limits := {}
  /-- Who watches the evaluations. -/
  observe : Observer σ
  /-- What has been seen so far. -/
  seen : σ

namespace Walker

variable {σ : Type}

def cursor (w : Walker σ) : Nat := w.here.offset

def remaining (w : Walker σ) : Text := w.here.rest

def isExhausted (w : Walker σ) : Bool := w.here.rest.isEmpty

/-- **A walker at the start of a text.**  It cannot be had when the delimiter is no pattern. -/
def create (source : Text) (delimiter? : Option Text) (limits : Limits) (observe : Observer σ) (seen : σ) :
    Except GrammarError (Walker σ) :=
  match delimiter? with
  | none => .ok { here := .start source, limits, observe, seen }
  | some text => (Pattern.read text limits).map fun d =>
      { here := .start source, delimiter? := some d, limits, observe, seen }

/-- **Skips a delimiter** as often as it matches some text, from a place on. -/
def skipFrom (observe : Observer σ) (delimiter : Pattern) (here : Place) (seen : σ) : Place × σ :=
  match delimiter.evaluate observe here seen with
  | (some there, seen) =>
    if there.rest.length < here.rest.length then skipFrom observe delimiter there seen else (here, seen)
  | (none, seen) => (here, seen)
termination_by here.rest.length

def skipDelimiters (w : Walker σ) : Place × σ :=
  match w.delimiter? with
  | some delimiter => skipFrom w.observe delimiter w.here w.seen
  | none => (w.here, w.seen)

/-- **One step**: a pattern behind the delimiters ahead.  The walker moves past the match, if there is one. -/
def step (w : Walker σ) (p : Pattern) : Option Match × Walker σ :=
  let (start, seen) := w.skipDelimiters
  match p.evaluate w.observe start seen with
  | (some there, seen) => (some ⟨start.offset, start.textTo there⟩, { w with here := there, seen })
  | (none, seen) => (none, { w with seen })

def steps (w : Walker σ) : List Pattern → (index : Nat) → Progress × Walker σ
  | [], _ => ({}, w)
  | p :: patterns, index =>
    match w.step p with
    | (some m, w) =>
      let (progress, w) := steps w patterns (index + 1)
      ({ progress with texts := m.text :: progress.texts }, w)
    | (none, w) => ({ failedAt? := some index }, w)

/-- **The first place at which a pattern matches**, among those from an offset with some text ahead up to its end;
with the place at the end of the match. -/
def seekFrom (observe : Observer σ) (p : Pattern) : (offset : Nat) → (rest : Text) → σ → Option (Place × Place) × σ
  | offset, [], seen =>
    match p.evaluate observe ⟨offset, []⟩ seen with
    | (some there, seen) => (some (⟨offset, []⟩, there), seen)
    | (none, seen) => (none, seen)
  | offset, c :: rest, seen =>
    match p.evaluate observe ⟨offset, c :: rest⟩ seen with
    | (some there, seen) => (some (⟨offset, c :: rest⟩, there), seen)
    | (none, seen) => seekFrom observe p (offset + c.utf8Size) rest seen

/-- **Searches forward** for an anchor.  The walker moves past it, if it is found; delimiters are not skipped. -/
def seek (w : Walker σ) (anchor : Pattern) : Option Sighting × Walker σ :=
  match seekFrom w.observe anchor w.here.offset w.here.rest w.seen with
  | (some (start, there), seen) =>
    (some ⟨w.here.textTo start, start.textTo there, start.offset⟩, { w with here := there, seen })
  | (none, seen) => (none, { w with seen })

/-! ## Calls -/

def walkMatch (w : Walker σ) (source : PatternSource) : Except GrammarError (Option Match) × Walker σ :=
  match source.resolve w.limits with
  | .error e => (.error e, w)
  | .ok p =>
    let (match?, w) := w.step p
    (.ok match?, w)

def walk (w : Walker σ) (source : PatternSource) : Except GrammarError (Option Text) × Walker σ :=
  let (found, w) := w.walkMatch source
  (found.map (·.map (·.text)), w)

def walkUntil (w : Walker σ) (source : PatternSource) : Except GrammarError (Option Sighting) × Walker σ :=
  match source.resolve w.limits with
  | .error e => (.error e, w)
  | .ok anchor =>
    let (sighting?, w) := w.seek anchor
    (.ok sighting?, w)

/-- Matches patterns one after the other.  All are read before the first step is made. -/
def walkMany (w : Walker σ) (sources : List PatternSource) : Except GrammarError Progress × Walker σ :=
  match PatternSource.resolveAll w.limits sources with
  | .error e => (.error e, w)
  | .ok patterns =>
    let (progress, w) := w.steps patterns 0
    (.ok progress, w)

inductive Call where
  | walk (source : PatternSource)
  | walkMatch (source : PatternSource)
  | walkUntil (source : PatternSource)
  | walkMany (sources : List PatternSource)

inductive Answer where
  | text (text? : Option Text)
  | found (match? : Option Match)
  | sighted (sighting? : Option Sighting)
  | progress (progress : Progress)
  | refused (error : GrammarError)
deriving DecidableEq, Repr

def Answer.of {α : Type} (answer : α → Answer) : Except GrammarError α → Answer
  | .ok a => answer a
  | .error e => .refused e

def perform (w : Walker σ) : Call → Answer × Walker σ
  | .walk source =>
    let (text?, w) := w.walk source
    (.of .text text?, w)
  | .walkMatch source =>
    let (match?, w) := w.walkMatch source
    (.of .found match?, w)
  | .walkUntil source =>
    let (sighting?, w) := w.walkUntil source
    (.of .sighted sighting?, w)
  | .walkMany sources =>
    let (progress, w) := w.walkMany sources
    (.of .progress progress, w)

def performAll (w : Walker σ) : List Call → List (Answer × Walker σ)
  | [] => []
  | call :: calls => w.perform call :: performAll (w.perform call).2 calls

end Walker

end PatternWalk
