/-!
# Quantifier — how often a term repeats

A count of repetitions is a 32-bit word: bounds written in a pattern must fit one.
-/
namespace PatternWalk

/-- **How often a term repeats.**  A term without a written quantifier repeats `once`. -/
inductive Quantifier where
  | once
  | zeroOrMore
  | zeroOrOne
  | oneOrMore
  | between (low high : UInt32)
deriving DecidableEq, Repr, Inhabited

namespace Quantifier

def least : Quantifier → UInt32
  | once | oneOrMore => 1
  | zeroOrMore | zeroOrOne => 0
  | between low _ => low

def most? : Quantifier → Option UInt32
  | once | zeroOrOne => some 1
  | zeroOrMore | oneOrMore => none
  | between _ high => some high

def acceptsNone (q : Quantifier) : Bool := q.least == 0

def allowsAnother (q : Quantifier) (count : UInt32) : Bool :=
  match q.most? with
  | some high => count < high
  | none => true

def isSatisfiedBy (q : Quantifier) (count : UInt32) : Bool := q.least ≤ count

theorem isSatisfiedBy_iff {q : Quantifier} {count : UInt32} :
    q.isSatisfiedBy count = true ↔ q.least.toNat ≤ count.toNat := by
  rw [isSatisfiedBy, decide_eq_true_iff, UInt32.le_iff_toNat_le]

theorem isSatisfiedBy_max (q : Quantifier) (count : UInt32) : q.isSatisfiedBy (max count q.least) = true := by
  rw [isSatisfiedBy, decide_eq_true_iff]
  change q.least ≤ if _ then q.least else count
  split
  · exact UInt32.le_refl _
  · rename_i hlt
    exact UInt32.le_of_lt (UInt32.not_le.1 hlt)

def isExplicit : Quantifier → Bool
  | once => false
  | _ => true

end Quantifier

end PatternWalk
