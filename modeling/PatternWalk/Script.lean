import PatternWalk.Json
import PatternWalk.Walker
/-!
# Script — a list of steps for a walker, with a record of each
-/
namespace PatternWalk

namespace Script

inductive Kind where
  | walk
  | search
deriving DecidableEq, Repr

structure Step where
  kind : Kind
  pattern : Text
deriving DecidableEq, Repr

/-- **A step as it is written**: a pattern, behind a word that says what to do with it, or to walk past it. -/
def Step.read (word : Text) : Step :=
  match Text.after? "until:".toList word, Text.after? "walk:".toList word with
  | some pattern, _ => ⟨.search, pattern⟩
  | none, some pattern => ⟨.walk, pattern⟩
  | none, none => ⟨.walk, word⟩

inductive Finding where
  | walk (match? : Option Match)
  | search (sighting? : Option Sighting)
deriving DecidableEq, Repr

def Finding.isSome : Finding → Bool
  | walk match? => match?.isSome
  | search sighting? => sighting?.isSome

/-- **The record of a step**: its number and pattern, what it found, and where the walker stands after it. -/
structure Record where
  index : Nat
  pattern : Text
  finding : Finding
  cursor : Nat
deriving DecidableEq, Repr

def Step.run {σ : Type} (step : Step) (p : Pattern) (w : Walker σ) : Finding × Walker σ :=
  match step.kind with
  | .walk =>
    let (match?, w) := w.step p
    (.walk match?, w)
  | .search =>
    let (sighting?, w) := w.seek p
    (.search sighting?, w)

/-- Makes steps in order, up to the first that finds nothing. -/
def runAll {σ : Type} (w : Walker σ) : List (Step × Pattern) → (index : Nat) → List Record
  | [], _ => []
  | (step, p) :: steps, index =>
    let (finding, w) := step.run p w
    ⟨index, step.pattern, finding, w.cursor⟩ ::
      if finding.isSome then runAll w steps (index + 1) else []

def readAll : List Step → Except GrammarError (List (Step × Pattern))
  | [] => .ok []
  | step :: steps =>
    match Pattern.read step.pattern with
    | .error e => .error e
    | .ok p => (readAll steps).map ((step, p) :: ·)

/-- **Runs a script over a source.**  The delimiter and every pattern are read before the first step is made. -/
def run (source : Text) (steps : List Step) (delimiter? : Option Text) : Except GrammarError (List Record) :=
  match Walker.create source delimiter? {} Observer.idle () with
  | .error e => .error e
  | .ok w => (readAll steps).map fun steps => runAll w steps 0

def matchToJson : Option Match → Json
  | none => .null
  | some m => .object [("start", .number m.start), ("text", .text m.text)]

def sightingToJson : Option Sighting → Json
  | none => .null
  | some s =>
    .object [("skipped", .text s.skipped), ("anchor", .text s.anchor), ("anchor_start", .number s.anchorStart)]

def Record.toJson (r : Record) : Json :=
  let (op, result) :=
    match r.finding with
    | .walk match? => ("walk", matchToJson match?)
    | .search sighting? => ("until", sightingToJson sighting?)
  .object [("op", .text op.toList), ("step", .number r.index), ("pattern", .text r.pattern), ("result", result),
    ("cursor", .number r.cursor)]

end Script

end PatternWalk
