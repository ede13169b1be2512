import PatternWalk.Pattern.Basic
/-!
# Event — what an evaluation reports while it runs
-/
namespace PatternWalk

/-- **A step of an evaluation.**  Depths count the groups around a term; positions are byte offsets in the source. -/
inductive Event where
  /-- An evaluation begins. -/
  | attempt (offset : Nat)
  /-- A term begins. -/
  | enter (depth : Nat) (term : Term) (offset : Nat)
  /-- A term matched once more. -/
  | repetition (depth : Nat) (term : Term) (start stop : Nat)
  /-- A term met its quantifier. -/
  | satisfied (depth : Nat) (term : Term) (count : UInt32) (start stop : Nat)
  /-- A term fell short of its quantifier. -/
  | failed (depth : Nat) (term : Term) (count : UInt32) (offset : Nat)
  /-- An evaluation ends, with the end of the match if there is one. -/
  | result (offset : Nat) (stop? : Option Nat)
deriving DecidableEq

/-- **An observer**: what it holds after one more event. -/
abbrev Observer (σ : Type) := σ → Event → σ

def Observer.idle : Observer Unit := fun _ _ => ()

end PatternWalk
