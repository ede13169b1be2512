import PatternWalk.CharSet
import PatternWalk.Quantifier
import PatternWalk.Text
/-!
# Pattern — terms matched one after the other

A pattern is its list of terms.  A term is a node, how often it repeats, and where it stands in the text it was read
from.  A group owns the terms of its body, so patterns are finite trees.
-/
namespace PatternWalk

mutual
/-- **What one repetition of a term matches.** -/
inductive Node where
  /-- Exactly this text. -/
  | literal (text : Text)
  /-- One character of the set. -/
  | charSet (set : CharSet)
  /-- The terms of the body, in order, as one unit. -/
  | group (body : List Term)
/-- **A term**: a node, its quantifier, and its span in the pattern text, quantifier included. -/
structure Term where
  node : Node
  quantifier : Quantifier
  span : Span
end

/-- **A pattern**: its terms, matched strictly from left to right. -/
abbrev Pattern := List Term

instance : Inhabited Node := ⟨.literal []⟩
instance : Inhabited Term := ⟨⟨.literal [], .once, ⟨0, 0⟩⟩⟩

/-! ## Equality -/

mutual
def Node.decEq : (a b : Node) → Decidable (a = b)
  | .literal s, .literal t => decidable_of_iff (s = t) (by simp)
  | .charSet s, .charSet t => decidable_of_iff (s = t) (by simp)
  | .group p, .group q =>
    match Pattern.decEq p q with
    | isTrue h => isTrue (by rw [h])
    | isFalse h => isFalse (by simpa using h)
  | .literal _, .charSet _ | .literal _, .group _ | .charSet _, .literal _ | .charSet _, .group _
  | .group _, .literal _ | .group _, .charSet _ => isFalse (by simp)
def Term.decEq : (a b : Term) → Decidable (a = b)
  | ⟨m, p, a⟩, ⟨n, q, b⟩ =>
    match Node.decEq m n with
    | isTrue h => decidable_of_iff (p = q ∧ a = b) (by simp [h])
    | isFalse h => isFalse (by simp [h])
def Pattern.decEq : (p q : Pattern) → Decidable (p = q)
  | [], [] => isTrue rfl
  | [], _ :: _ | _ :: _, [] => isFalse (by simp)
  | a :: p, b :: q =>
    match Term.decEq a b with
    | isTrue h =>
      match Pattern.decEq p q with
      | isTrue hs => isTrue (by rw [h, hs])
      | isFalse hs => isFalse (by simp [hs])
    | isFalse h => isFalse (by simp [h])
end

instance : DecidableEq Node := Node.decEq
instance : DecidableEq Term := Term.decEq

/-! ## Depth -/

mutual
def Node.depth : Node → Nat
  | .literal _ | .charSet _ => 0
  | .group body => Pattern.depth body + 1
def Term.depth : Term → Nat
  | ⟨node, _, _⟩ => node.depth
def Pattern.depth : Pattern → Nat
  | [] => 0
  | t :: p => max t.depth (Pattern.depth p)
end

/-! ## Spans -/

mutual
def Node.shift (n : Nat) : Node → Node
  | .literal text => .literal text
  | .charSet set => .charSet set
  | .group body => .group (Pattern.shift n body)
def Term.shift (n : Nat) : Term → Term
  | ⟨node, q, span⟩ => ⟨node.shift n, q, span.shift n⟩
def Pattern.shift (n : Nat) : Pattern → Pattern
  | [] => []
  | t :: p => t.shift n :: Pattern.shift n p
end

namespace Node

def isLiteral : Node → Bool
  | literal _ => true
  | _ => false

end Node

/-! ## Literal runs -/

/-- **Two neighbours that are both literals without a written quantifier** become one literal over both. -/
def Term.join? : Term → Term → Option Term
  | ⟨.literal s, .once, a⟩, ⟨.literal t, .once, b⟩ => some ⟨.literal (s ++ t), .once, a.cover b⟩
  | _, _ => none

def Pattern.prepend (t : Term) : Pattern → Pattern
  | [] => [t]
  | u :: p =>
    match t.join? u with
    | some joined => joined :: p
    | none => t :: u :: p

/-- **Coalescing**: each run of neighbouring unquantified literals becomes one literal; all else keeps its place. -/
def Pattern.coalesce : Pattern → Pattern
  | [] => []
  | t :: p => Pattern.prepend t (Pattern.coalesce p)

end PatternWalk
