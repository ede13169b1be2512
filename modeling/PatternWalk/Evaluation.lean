import PatternWalk.Event
/-!
# Evaluation — greedy matching that never gives back

Terms are matched from left to right.  Each takes as many repetitions as it can get, and what it took is never
reconsidered: when a later term fails, the pattern fails.  A repetition that matches the empty text ends its term, and
counts as if the least number had been reached, since every further one would match the same empty text.

Every step is reported to an observer, whose state runs along and has no say in what happens.
-/
namespace PatternWalk

/-- The next count, staying at the greatest word there is. -/
def Quantifier.countOn (count : UInt32) : UInt32 := if count = 4294967295 then count else count + 1

/-- **Repeats an atom greedily** from a place on which `count` repetitions have been made.  The answer is the count and
the place at the end. -/
def repeatGreedily {σ : Type} (atom : Place → σ → Option Place × σ) (report : Nat → Nat → σ → σ) (q : Quantifier)
    (count : UInt32) (here : Place) (seen : σ) : (UInt32 × Place) × σ :=
  if q.allowsAnother count then
    match atom here seen with
    | (none, seen) => ((count, here), seen)
    | (some there, seen) =>
      let seen := report here.offset there.offset seen
      if there.rest.length < here.rest.length then repeatGreedily atom report q (count + 1) there seen
      else ((max (Quantifier.countOn count) q.least, here), seen)
  else ((count, here), seen)
termination_by here.rest.length

mutual
def Node.run {σ : Type} (observe : Observer σ) : Node → (depth : Nat) → Place → σ → Option Place × σ
  | .literal text, _, here, seen => (here.pastWord? text, seen)
  | .charSet set, _, here, seen => (here.pastChar? set.accepts, seen)
  | .group body, depth, here, seen => Pattern.run observe body (depth + 1) here seen
/-- **A term at a place**: repeats its node greedily, then compares the count with the quantifier. -/
def Term.run {σ : Type} (observe : Observer σ) : Term → (depth : Nat) → Place → σ → Option Place × σ
  | ⟨node, q, span⟩, depth, here, seen =>
    let ((count, there), seen) :=
      repeatGreedily (node.run observe depth)
        (fun start stop seen => observe seen (.repetition depth ⟨node, q, span⟩ start stop)) q 0 here
        (observe seen (.enter depth ⟨node, q, span⟩ here.offset))
    if q.isSatisfiedBy count then
      (some there, observe seen (.satisfied depth ⟨node, q, span⟩ count here.offset there.offset))
    else (none, observe seen (.failed depth ⟨node, q, span⟩ count there.offset))
/-- **The terms of a pattern, one after the other**; the first that fails decides. -/
def Pattern.run {σ : Type} (observe : Observer σ) : Pattern → (depth : Nat) → Place → σ → Option Place × σ
  | [], _, here, seen => (some here, seen)
  | t :: p, depth, here, seen =>
    match t.run observe depth here seen with
    | (some there, seen) => Pattern.run observe p depth there seen
    | (none, seen) => (none, seen)
end

structure Match where
  start : Nat
  text : Text
deriving DecidableEq, Repr

namespace Match

def stop (m : Match) : Nat := m.start + m.text.size

def isEmpty (m : Match) : Bool := m.text.isEmpty

end Match

namespace Pattern

/-- **Evaluates a pattern at a place**: an attempt, the steps of its terms, and the result. -/
def evaluate {σ : Type} (observe : Observer σ) (p : Pattern) (here : Place) (seen : σ) : Option Place × σ :=
  let (there?, seen) := Pattern.run observe p 0 here (observe seen (.attempt here.offset))
  (there?, observe seen (.result here.offset (there?.map (·.offset))))

/-- **Evaluates a pattern at a byte offset of a source**; an offset that is no place never matches. -/
def evaluateAt {σ : Type} (observe : Observer σ) (p : Pattern) (source : Text) (offset : Nat) (seen : σ) :
    Option Match × σ :=
  match source.place? offset with
  | some here =>
    let (there?, seen) := evaluate observe p here seen
    (there?.map fun there => ⟨offset, here.textTo there⟩, seen)
  | none => (none, observe (observe seen (.attempt offset)) (.result offset none))

def matchAt (p : Pattern) (source : Text) (offset : Nat) : Option Match :=
  (evaluateAt Observer.idle p source offset ()).1

end Pattern

end PatternWalk
