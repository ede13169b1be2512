import PatternWalk.Proofs.Canonical
import PatternWalk.Proofs.Matching
/-!
# CoalescedMatching — which literals are joined makes no difference

Joining neighbouring literals changes how a pattern is put together, and nothing that it matches: not on its outermost
level, and not in the bodies of groups, whichever of them are chosen (`past?_coalesceWithin`).  The reader takes one
character at a time and joins on every level.  So what is read matches as the terms of the single characters do
(`Derivation.past?_pattern`).
-/
namespace PatternWalk

/-! ## Coalescing the bodies of chosen groups -/

mutual
def Node.coalesceWithin (chosen : List Nat → Bool) (place : List Nat) : Node → Node
  | .literal text => .literal text
  | .charSet set => .charSet set
  | .group body =>
    .group (if chosen place then Pattern.coalesce (Pattern.coalesceWithin chosen place 0 body)
      else Pattern.coalesceWithin chosen place 0 body)
def Term.coalesceWithin (chosen : List Nat → Bool) (place : List Nat) : Term → Term
  | ⟨node, q, span⟩ => ⟨node.coalesceWithin chosen place, q, span⟩
/-- **The pattern with the bodies of chosen groups coalesced**, at any depth.  A group is told by its place: the index
of a term on each level from the outermost one down to its own. -/
def Pattern.coalesceWithin (chosen : List Nat → Bool) (place : List Nat) (index : Nat) : Pattern → Pattern
  | [] => []
  | t :: p => t.coalesceWithin chosen (place ++ [index]) :: Pattern.coalesceWithin chosen place (index + 1) p
end

section
variable (chosen : List Nat → Bool)

mutual
theorem Node.past?_coalesceWithin : ∀ (n : Node) (place : List Nat), (n.coalesceWithin chosen place).past? = n.past?
  | .literal _, _ | .charSet _, _ => rfl
  | .group body, place => by
    have hbody := Pattern.past?_coalesceWithin body place 0
    funext here
    rw [Node.coalesceWithin, Node.past?, Node.past?]
    by_cases hchosen : chosen place = true
    · rw [if_pos hchosen, Pattern.past?_coalesce, hbody]
    · rw [if_neg hchosen, hbody]
theorem Term.past?_coalesceWithin : ∀ (t : Term) (place : List Nat), (t.coalesceWithin chosen place).past? = t.past?
  | ⟨n, q, span⟩, place => Term.past?_congr (Node.past?_coalesceWithin n place) q span span
/-- **Coalescing the bodies of some groups changes no match**, however deep they are. -/
theorem Pattern.past?_coalesceWithin : ∀ (p : Pattern) (place : List Nat) (index : Nat),
    Pattern.past? (p.coalesceWithin chosen place index) = p.past?
  | [], _, _ => rfl
  | t :: p, place, index => by
    have ht := Term.past?_coalesceWithin t (place ++ [index])
    have hp := Pattern.past?_coalesceWithin p place (index + 1)
    funext here
    rw [Pattern.coalesceWithin, Pattern.past?, Pattern.past?, ht, hp]
end

end

/-! ## One term for each character -/

def Node.IsSingle : Node → Prop
  | literal text => text.length = 1
  | charSet _ | group _ => True

namespace Grammar

mutual
def Atom.single : Atom → (start : Nat) → Node
  | .letter letter, _ => .literal [letter.char]
  | .set first items, _ => .charSet (Item.charSet (first :: items))
  | .group first body, start =>
    .group (first.single (start + 1) :: Derivation.singles body (start + 1 + first.text.size))
def Phrase.single : Phrase → (start : Nat) → Term
  | ⟨atom, suffix?⟩, start =>
    ⟨atom.single start, Suffix.quantifierOf suffix?, ⟨start, start + (atom.text ++ Suffix.textOf suffix?).size⟩⟩
/-- **The terms of a derivation with nothing joined**, on any level: each character is a literal of its own. -/
def Derivation.singles : Derivation → (start : Nat) → Pattern
  | [], _ => []
  | phrase :: d, start => phrase.single start :: Derivation.singles d (start + phrase.text.size)
end

mutual
theorem Atom.isSingle_single : ∀ (a : Atom) (start : Nat), (a.single start).IsSingle ∧
    (a.single start).Every (·.node.IsSingle)
  | .letter _, _ => ⟨rfl, trivial⟩
  | .set _ _, _ => ⟨trivial, trivial⟩
  | .group first body, start => ⟨trivial, first.every_single (start + 1), Derivation.every_singles body _⟩
theorem Phrase.every_single : ∀ (p : Phrase) (start : Nat), (p.single start).Every (·.node.IsSingle)
  | ⟨a, _⟩, start => Atom.isSingle_single a start
theorem Derivation.every_singles : ∀ (d : Derivation) (start : Nat),
    (Derivation.singles d start).Every (·.node.IsSingle)
  | [], _ => trivial
  | p :: d, start => ⟨p.every_single start, Derivation.every_singles d _⟩
end

mutual
theorem Atom.coalesceWithin_single : ∀ (a : Atom) (start : Nat) (place : List Nat),
    (a.single start).coalesceWithin (fun _ => true) place = a.node start
  | .letter _, _, _ | .set _ _, _, _ => rfl
  | .group first body, start, place => by
    have hfirst := Phrase.coalesceWithin_single first (start + 1) (place ++ [0])
    have hbody := Derivation.coalesceWithin_singles body (start + 1 + first.text.size) place 1
    rw [Atom.single, Node.coalesceWithin, if_pos rfl, Pattern.coalesceWithin, hfirst, hbody, Atom.node,
      Pattern.coalesce_eq_joinRuns]
theorem Phrase.coalesceWithin_single : ∀ (p : Phrase) (start : Nat) (place : List Nat),
    (p.single start).coalesceWithin (fun _ => true) place = p.term start
  | ⟨a, q⟩, start, place => by
    have ha := Atom.coalesceWithin_single a start place
    rw [Phrase.single, Term.coalesceWithin, ha, Phrase.term]
theorem Derivation.coalesceWithin_singles : ∀ (d : Derivation) (start : Nat) (place : List Nat) (index : Nat),
    (Derivation.singles d start).coalesceWithin (fun _ => true) place index = Derivation.terms d start
  | [], _, _, _ => rfl
  | p :: d, start, place, index => by
    have hp := Phrase.coalesceWithin_single p start (place ++ [index])
    have hd := Derivation.coalesceWithin_singles d (start + p.text.size) place (index + 1)
    rw [Derivation.singles, Pattern.coalesceWithin, hp, hd, Derivation.terms]
end

/-- **The pattern of a derivation** is its single characters, coalesced on every level. -/
theorem Derivation.pattern_eq_coalesce (d : Derivation) :
    d.pattern = Pattern.coalesce ((Derivation.singles d 0).coalesceWithin (fun _ => true) [] 0) := by
  rw [Derivation.coalesceWithin_singles, Derivation.pattern, Pattern.coalesce_eq_joinRuns]

theorem Derivation.past?_pattern (d : Derivation) : d.pattern.past? = Pattern.past? (Derivation.singles d 0) := by
  rw [d.pattern_eq_coalesce, Pattern.past?_coalesce, Pattern.past?_coalesceWithin]

end Grammar

open Grammar in
/-- **Coalescing never changes a match.**  A pattern, whether it was read or put together by hand, has at every offset
of every text the match that it has coalesced, and the match that it has with the bodies of any of its groups coalesced,
at any depth.  What is read from a text comes from a pattern with one term for each character, coalesced on every level,
and matches as that one does. -/
theorem Pattern.matchAt_coalesced :
    (∀ (p : Pattern) (source : Text) (offset : Nat), (coalesce p).matchAt source offset = p.matchAt source offset) ∧
    (∀ (p : Pattern) (chosen : List Nat → Bool) (source : Text) (offset : Nat),
      (p.coalesceWithin chosen [] 0).matchAt source offset = p.matchAt source offset) ∧
    ∀ (text : Text) (limits : Limits) (p : Pattern), Pattern.read text limits = .ok p →
      ∃ d : Derivation, Derivation.text d = text ∧ Pattern.Every (·.node.IsSingle) (Derivation.singles d 0) ∧
        p = coalesce ((Derivation.singles d 0).coalesceWithin (fun _ => true) [] 0) ∧
        ∀ source offset, p.matchAt source offset = (Derivation.singles d 0).matchAt source offset := by
  refine ⟨fun p source offset => ?_, fun p chosen source offset => ?_, fun text limits p hread => ?_⟩
  · rw [matchAt_congr p.past?_coalesce]
  · rw [matchAt_congr (p.past?_coalesceWithin chosen [] 0)]
  · obtain ⟨d, htext, -, rfl⟩ := read_eq_ok_iff.1 hread
    refine ⟨d, htext, Derivation.every_singles d 0, d.pattern_eq_coalesce, fun source offset => ?_⟩
    rw [matchAt_congr d.past?_pattern]

open Grammar in
/-- In a group that was put together from an empty literal, `é` and `c`, the three become `éc`, and the group still
takes `écéc` out of `aécéc`.  The same match has `(éc)+`, which is read as two characters. -/
theorem Pattern.matchAt_coalesced_group :
    (∃ p q : Pattern, p = [⟨.group [⟨.literal [], .once, ⟨0, 0⟩⟩, ⟨.literal ['é'], .once, ⟨1, 3⟩⟩,
        ⟨.literal ['c'], .once, ⟨3, 4⟩⟩], .oneOrMore, ⟨0, 6⟩⟩] ∧
      q = [⟨.group [⟨.literal ['é', 'c'], .once, ⟨0, 4⟩⟩], .oneOrMore, ⟨0, 6⟩⟩] ∧
      p.coalesceWithin (· == [0]) [] 0 = q ∧
      p.matchAt ['a', 'é', 'c', 'é', 'c'] 1 = some ⟨1, ['é', 'c', 'é', 'c']⟩ ∧
      q.matchAt ['a', 'é', 'c', 'é', 'c'] 1 = some ⟨1, ['é', 'c', 'é', 'c']⟩) ∧
    ∃ p, Pattern.read "(éc)+".toList ⟨1⟩ = .ok p ∧ ∃ d : Derivation, Derivation.text d = "(éc)+".toList ∧
      Pattern.Every (·.node.IsSingle) (Derivation.singles d 0) ∧
      (Derivation.singles d 0).matchAt ['a', 'é', 'c', 'é', 'c'] 1 = some ⟨1, ['é', 'c', 'é', 'c']⟩ := by
  obtain ⟨-, hwithin, hread⟩ := Pattern.matchAt_coalesced
  constructor
  · obtain ⟨p, hp⟩ : ∃ p : Pattern, p = [⟨.group [⟨.literal [], .once, ⟨0, 0⟩⟩, ⟨.literal ['é'], .once, ⟨1, 3⟩⟩,
      ⟨.literal ['c'], .once, ⟨3, 4⟩⟩], .oneOrMore, ⟨0, 6⟩⟩] := ⟨_, rfl⟩
    have hmatch : p.matchAt ['a', 'é', 'c', 'é', 'c'] 1 = some ⟨1, ['é', 'c', 'é', 'c']⟩ := by
      subst hp
      decide +kernel
    have hq : p.coalesceWithin (· == [0]) [] 0 =
        [⟨.group [⟨.literal ['é', 'c'], .once, ⟨0, 4⟩⟩], .oneOrMore, ⟨0, 6⟩⟩] := by
      subst hp
      decide +kernel
    have hsame := hwithin p (· == [0]) ['a', 'é', 'c', 'é', 'c'] 1
    rw [hmatch, hq] at hsame
    exact ⟨p, _, hp, rfl, hq, hmatch, hsame⟩
  · obtain ⟨p, hp, hmatch⟩ : ∃ p, Pattern.read "(éc)+".toList ⟨1⟩ = .ok p ∧
        p.matchAt ['a', 'é', 'c', 'é', 'c'] 1 = some ⟨1, ['é', 'c', 'é', 'c']⟩ := ⟨_, rfl, by decide +kernel⟩
    obtain ⟨d, htext, hsingle, -, hsame⟩ := hread _ _ p hp
    exact ⟨p, hp, d, htext, hsingle, (hsame _ _).symm.trans hmatch⟩

end PatternWalk
