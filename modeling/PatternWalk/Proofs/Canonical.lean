import PatternWalk.Proofs.Readings
/-!
# Canonical — patterns as the reader builds them

A canonical pattern has nothing empty in it and no bounds out of order, its quantified literals are single characters,
and its unquantified literals are joined as far as they can be.  Every derivation means a canonical pattern
(`canonical_pattern`), whose nesting is that of the derivation; so every pattern that is read is canonical
(`canonical_of_read`).
-/
namespace PatternWalk

/-! ## What holds at every depth -/

mutual
def Node.Every (P : Term → Prop) : Node → Prop
  | .literal _ | .charSet _ => True
  | .group body => Pattern.Every P body
def Term.Every (P : Term → Prop) : Term → Prop
  | ⟨node, q, span⟩ => P ⟨node, q, span⟩ ∧ node.Every P
/-- **`P` holds of the terms of a pattern, at every depth.** -/
def Pattern.Every (P : Term → Prop) : Pattern → Prop
  | [] => True
  | t :: p => t.Every P ∧ Pattern.Every P p
end

def Quantifier.InOrder : Quantifier → Prop
  | between low high => low ≤ high
  | _ => True

def Node.Proper : Node → Prop
  | literal text => text ≠ []
  | charSet set => set.isEmpty = false ∧ ∀ r ∈ set.ranges, r.low ≤ r.high
  | group body => body ≠ []

/-- **A term that can be written**: nothing empty, and no bounds out of order. -/
structure Term.WellFormed (t : Term) : Prop where
  proper : t.node.Proper
  inOrder : t.quantifier.InOrder

/-- No two neighbours are both unquantified literals. -/
def Pattern.Separated (p : Pattern) : Prop := p.IsChain fun t u => t.adjoins u = false

/-- A quantified literal is one character, and the body of a group has no literals to join. -/
def Node.Settled (q : Quantifier) : Node → Prop
  | literal text => q.isExplicit = true → text.length = 1
  | charSet _ => True
  | group body => Pattern.Separated body

structure Term.Canonical (t : Term) : Prop extends t.WellFormed where
  settled : t.node.Settled t.quantifier

/-- **A canonical pattern**: its terms are canonical at every depth, and it has no literals to join. -/
structure Pattern.Canonical (p : Pattern) : Prop where
  separated : Pattern.Separated p
  every : Pattern.Every Term.Canonical p

mutual
theorem Node.Every.imp {P Q : Term → Prop} (h : ∀ t, P t → Q t) : ∀ {n : Node}, n.Every P → n.Every Q
  | .literal _, _ | .charSet _, _ => trivial
  | .group _, hb => Pattern.Every.imp h hb
theorem Term.Every.imp {P Q : Term → Prop} (h : ∀ t, P t → Q t) : ∀ {t : Term}, t.Every P → t.Every Q
  | ⟨_, _, _⟩, ht => ⟨h _ ht.1, Node.Every.imp h ht.2⟩
theorem Pattern.Every.imp {P Q : Term → Prop} (h : ∀ t, P t → Q t) : ∀ {p : Pattern}, p.Every P → p.Every Q
  | [], _ => trivial
  | _ :: _, hp => ⟨Term.Every.imp h hp.1, Pattern.Every.imp h hp.2⟩
end

theorem Term.Every.self {P : Term → Prop} : ∀ {t : Term}, t.Every P → P t
  | ⟨_, _, _⟩, ht => ht.1

/-! ## Canonical patterns are recognised -/

mutual
def Node.decidableEvery {P : Term → Prop} [DecidablePred P] : ∀ n : Node, Decidable (n.Every P)
  | .literal _ | .charSet _ => isTrue trivial
  | .group body => Pattern.decidableEvery body
def Term.decidableEvery {P : Term → Prop} [DecidablePred P] : ∀ t : Term, Decidable (t.Every P)
  | ⟨node, _, _⟩ => @instDecidableAnd _ _ _ (Node.decidableEvery node)
def Pattern.decidableEvery {P : Term → Prop} [DecidablePred P] : ∀ p : Pattern, Decidable (p.Every P)
  | [] => isTrue trivial
  | t :: p => @instDecidableAnd _ _ (Term.decidableEvery t) (Pattern.decidableEvery p)
end

instance {P : Term → Prop} [DecidablePred P] : DecidablePred (Pattern.Every P) := Pattern.decidableEvery

instance : DecidablePred Quantifier.InOrder
  | .between low high => inferInstanceAs (Decidable (low ≤ high))
  | .once | .zeroOrMore | .zeroOrOne | .oneOrMore => isTrue trivial

instance : DecidablePred Node.Proper
  | .literal text => inferInstanceAs (Decidable (text ≠ []))
  | .charSet set => inferInstanceAs (Decidable (set.isEmpty = false ∧ ∀ r ∈ set.ranges, r.low ≤ r.high))
  | .group body => inferInstanceAs (Decidable (body ≠ []))

instance : DecidablePred Pattern.Separated := fun p =>
  inferInstanceAs (Decidable (p.IsChain fun t u => t.adjoins u = false))

instance (q : Quantifier) : DecidablePred (Node.Settled q)
  | .literal text => inferInstanceAs (Decidable (q.isExplicit = true → text.length = 1))
  | .charSet _ => isTrue trivial
  | .group body => inferInstanceAs (Decidable (Pattern.Separated body))

instance : DecidablePred Term.WellFormed := fun t =>
  decidable_of_iff (t.node.Proper ∧ t.quantifier.InOrder) ⟨fun h => ⟨h.1, h.2⟩, fun h => ⟨h.1, h.2⟩⟩

instance : DecidablePred Term.Canonical := fun t =>
  decidable_of_iff (t.WellFormed ∧ t.node.Settled t.quantifier) ⟨fun h => ⟨h.1, h.2⟩, fun h => ⟨h.1, h.2⟩⟩

instance : DecidablePred Pattern.Canonical := fun p =>
  decidable_of_iff (Pattern.Separated p ∧ p.Every Term.Canonical) ⟨fun h => ⟨h.1, h.2⟩, fun h => ⟨h.1, h.2⟩⟩

/-! ## Coalescing keeps patterns canonical -/

namespace Pattern

theorem depth_append : ∀ p q : Pattern, depth (p ++ q) = max (depth p) (depth q)
  | [], q => by simp [depth]
  | t :: p, q => by simp only [List.cons_append, depth, depth_append p q, max_assoc]

theorem prepend_of_not_adjoins {t : Term} {p : Pattern} (h : ∀ u ∈ p.head?, t.adjoins u = false) :
    prepend t p = t :: p := by
  cases p with
  | nil => rfl
  | cons u p => rw [prepend, Term.join?_eq_none (h u rfl)]

theorem depth_prepend (t : Term) (p : Pattern) : depth (prepend t p) = max t.depth (depth p) := by
  cases p with
  | nil => rfl
  | cons u p =>
    rw [prepend]
    split
    · rename_i v hv
      obtain ⟨s, s', a, b, rfl, rfl, rfl⟩ := exists_of_join? hv
      simp [depth, Term.depth, Node.depth]
    · rfl

theorem depth_coalesce : ∀ p : Pattern, depth (coalesce p) = depth p
  | [] => rfl
  | t :: p => by rw [coalesce, depth_prepend, depth_coalesce p, depth]

theorem separated_prepend {t : Term} {p : Pattern} (h : Separated p) : Separated (prepend t p) := by
  cases p with
  | nil => exact List.isChain_singleton _
  | cons u p =>
    rw [prepend]
    split
    · rename_i v hv
      obtain ⟨s, s', a, b, rfl, rfl, rfl⟩ := exists_of_join? hv
      cases p with
      | nil => exact List.isChain_singleton _
      | cons w p =>
        obtain ⟨huw, hp⟩ := List.isChain_cons_cons.1 h
        exact List.isChain_cons_cons.2 ⟨huw, hp⟩
    · rename_i hnone
      refine List.isChain_cons_cons.2 ⟨?_, h⟩
      cases htu : t.adjoins u with
      | false => rfl
      | true =>
        obtain ⟨ht, hu⟩ : t.isPlain = true ∧ u.isPlain = true := by simpa [Term.adjoins] using htu
        obtain ⟨s, a, rfl⟩ := Term.isPlain_iff.1 ht
        obtain ⟨s', b, rfl⟩ := Term.isPlain_iff.1 hu
        cases hnone

theorem separated_coalesce : ∀ p : Pattern, Separated (coalesce p)
  | [] => List.isChain_nil
  | _ :: p => separated_prepend (separated_coalesce p)

theorem canonical_prepend {t : Term} {p : Pattern} (ht : t.Every Term.Canonical) (hp : p.Every Term.Canonical) :
    (prepend t p).Every Term.Canonical := by
  cases p with
  | nil => exact ⟨ht, trivial⟩
  | cons u p =>
    rw [prepend]
    split
    · rename_i v hv
      obtain ⟨s, s', a, b, rfl, rfl, rfl⟩ := exists_of_join? hv
      have hs : s ≠ [] := ht.self.proper
      have hproper : (Node.literal (s ++ s')).Proper := by simp [Node.Proper, hs]
      exact ⟨⟨⟨⟨hproper, trivial⟩, fun hq => by cases hq⟩, trivial⟩, hp.2⟩
    · exact ⟨ht, hp⟩

theorem canonical_coalesce : ∀ {p : Pattern}, p.Every Term.Canonical → (coalesce p).Every Term.Canonical
  | [], _ => trivial
  | _ :: _, hp => canonical_prepend hp.1 (canonical_coalesce hp.2)

theorem coalesce_eq_nil : ∀ {p : Pattern}, coalesce p = [] → p = []
  | [], _ => rfl
  | _ :: p, h => by
    rw [coalesce] at h
    cases hp : coalesce p with
    | nil => simp [hp, prepend] at h
    | cons u q =>
      rw [hp, prepend] at h
      split at h <;> cases h

end Pattern

/-! ## Derivations mean canonical patterns -/

namespace Grammar

theorem Suffix.inOrder : ∀ q : Suffix, q.quantifier.InOrder
  | star | plus | question => trivial
  | braces low high h => by
    rw [quantifier, Quantifier.InOrder, UInt32.le_iff_toNat_le, low.toNat_value, high.toNat_value]
    exact h

theorem Suffix.inOrder_quantifierOf : ∀ q : Option Suffix, (quantifierOf q).InOrder
  | none => trivial
  | some q => q.inOrder

theorem Item.proper_charSet (first : Item) (items : List Item) : (Node.charSet (charSet (first :: items))).Proper := by
  refine ⟨?_, fun r hr => ?_⟩
  · cases first <;> simp [charSet, CharSet.isEmpty, member?, range?, List.eraseDups_cons]
  · obtain ⟨i, -, hi⟩ := List.mem_filterMap.1 hr
    cases i with
    | member l => cases hi
    | range low high h =>
      cases hi
      exact h

mutual
theorem Atom.depth_node : ∀ (a : Atom) (start : Nat), (a.node start).depth = a.depth
  | .letter _, _ | .set _ _, _ => rfl
  | .group first body, start => by
    rw [Atom.node, ← Pattern.coalesce_eq_joinRuns, Node.depth, Pattern.depth_coalesce, Pattern.depth,
      first.depth_term, Derivation.depth_terms body, Atom.depth]
theorem Phrase.depth_term : ∀ (p : Phrase) (start : Nat), (p.term start).depth = p.depth
  | ⟨a, _⟩, start => a.depth_node start
theorem Derivation.depth_terms : ∀ (d : Derivation) (start : Nat), (Derivation.terms d start).depth = d.depth
  | [], _ => rfl
  | p :: d, start => by
    rw [Derivation.terms, Pattern.depth, p.depth_term, Derivation.depth_terms d, Derivation.depth]
end

mutual
theorem Atom.proper_node : ∀ (a : Atom) (start : Nat), (a.node start).Proper
  | .letter l, _ => by simp [Atom.node, Node.Proper]
  | .set first items, _ => Item.proper_charSet first items
  | .group first body, start => by
    rw [Atom.node, ← Pattern.coalesce_eq_joinRuns]
    exact fun h => by cases Pattern.coalesce_eq_nil h
theorem Phrase.canonical_term : ∀ (p : Phrase) (start : Nat), (p.term start).Every Term.Canonical
  | ⟨.letter l, q⟩, start =>
    ⟨⟨⟨Atom.proper_node _ start, Suffix.inOrder_quantifierOf q⟩, fun _ => rfl⟩, trivial⟩
  | ⟨.set first items, q⟩, start =>
    ⟨⟨⟨Atom.proper_node _ start, Suffix.inOrder_quantifierOf q⟩, trivial⟩, trivial⟩
  | ⟨.group first body, q⟩, start => by
    refine ⟨⟨⟨Atom.proper_node _ start, Suffix.inOrder_quantifierOf q⟩, ?_⟩, ?_⟩
    · change Pattern.Separated (Pattern.joinRuns _)
      rw [← Pattern.coalesce_eq_joinRuns]
      exact Pattern.separated_coalesce _
    · change Pattern.Every Term.Canonical (Pattern.joinRuns _)
      rw [← Pattern.coalesce_eq_joinRuns]
      exact Pattern.canonical_coalesce ⟨first.canonical_term _, Derivation.canonical_terms body _⟩
theorem Derivation.canonical_terms : ∀ (d : Derivation) (start : Nat),
    (Derivation.terms d start).Every Term.Canonical
  | [], _ => trivial
  | p :: d, start => ⟨p.canonical_term start, Derivation.canonical_terms d _⟩
end

theorem Derivation.canonical_pattern (d : Derivation) : d.pattern.Canonical := by
  rw [pattern, ← Pattern.coalesce_eq_joinRuns]
  exact ⟨Pattern.separated_coalesce _, Pattern.canonical_coalesce (d.canonical_terms 0)⟩

theorem Derivation.depth_pattern (d : Derivation) : d.pattern.depth = d.depth := by
  rw [pattern, ← Pattern.coalesce_eq_joinRuns, Pattern.depth_coalesce, d.depth_terms]

end Grammar

/-! ## What is read is canonical -/

namespace Term.Canonical

variable {t : Term}

theorem of_literal {text : Text} (h : t.Canonical) (hnode : t.node = .literal text) :
    text ≠ [] ∧ (t.quantifier ≠ .once → text.length = 1) := by
  have hproper := h.proper
  have hsettled := h.settled
  rw [hnode] at hproper hsettled
  refine ⟨hproper, fun hq => hsettled ?_⟩
  cases hquantifier : t.quantifier with
  | once => exact absurd hquantifier hq
  | zeroOrMore | zeroOrOne | oneOrMore | between => rfl

theorem of_charSet {set : CharSet} (h : t.Canonical) (hnode : t.node = .charSet set) :
    (set.members ≠ [] ∨ set.ranges ≠ []) ∧ set.members.Nodup ∧ ∀ r ∈ set.ranges, r.low ≤ r.high := by
  have hproper := h.proper
  rw [hnode] at hproper
  obtain ⟨hne, hranges⟩ := hproper
  refine ⟨?_, set.distinct, hranges⟩
  by_cases hmembers : set.members = []
  · right
    intro hempty
    simp [CharSet.isEmpty, hmembers, hempty] at hne
  · exact .inl hmembers

theorem of_group {body : Pattern} (h : t.Canonical) (hnode : t.node = .group body) :
    body ≠ [] ∧ Pattern.Separated body := by
  have hproper := h.proper
  have hsettled := h.settled
  rw [hnode] at hproper hsettled
  exact ⟨hproper, hsettled⟩

theorem of_between {low high : UInt32} (h : t.Canonical) (hq : t.quantifier = .between low high) : low ≤ high := by
  have hinOrder := h.inOrder
  rwa [hq] at hinOrder

end Term.Canonical

theorem Pattern.canonical_of_read {text : Text} {limits : Limits} {p : Pattern}
    (h : Pattern.read text limits = .ok p) : p.Canonical := by
  obtain ⟨d, -, -, rfl⟩ := Grammar.read_eq_ok_iff.1 h
  exact d.canonical_pattern

/-- **What holds of every pattern that is read**, at every depth.  No two neighbours are both literals without a
quantifier.  No literal is empty, and one with a written quantifier, be it `{1,1}`, is a single character.  No set is
empty, none has a member twice, and its ranges are in order.  No group is empty.  Bounds are in order. -/
theorem Pattern.invariant_of_read {text : Text} {limits : Limits} {p : Pattern}
    (h : Pattern.read text limits = .ok p) :
    Separated p ∧ p.Every fun t =>
      (∀ text, t.node = .literal text → text ≠ [] ∧ (t.quantifier ≠ .once → text.length = 1)) ∧
      (∀ set, t.node = .charSet set →
        (set.members ≠ [] ∨ set.ranges ≠ []) ∧ set.members.Nodup ∧ ∀ r ∈ set.ranges, r.low ≤ r.high) ∧
      (∀ body, t.node = .group body → body ≠ [] ∧ Separated body) ∧
      ∀ low high, t.quantifier = .between low high → low ≤ high := by
  obtain ⟨hseparated, hevery⟩ := canonical_of_read h
  exact ⟨hseparated, hevery.imp fun t ht =>
    ⟨fun _ => ht.of_literal, fun _ => ht.of_charSet, fun _ => ht.of_group, fun _ _ => ht.of_between⟩⟩

/-- In `(xya{1,1}[bab-d])*` the letter under `{1,1}` stands alone, and the set has each of its members once. -/
theorem Pattern.invariant_of_read_group : ∃ p body set,
    Pattern.read "(xya{1,1}[bab-d])*".toList ⟨1⟩ = .ok p ∧ p = [⟨.group body, .zeroOrMore, ⟨0, 18⟩⟩] ∧
    body = [⟨.literal ['x', 'y'], .once, ⟨1, 3⟩⟩, ⟨.literal ['a'], .between 1 1, ⟨3, 9⟩⟩,
      ⟨.charSet set, .once, ⟨9, 16⟩⟩] ∧
    set = .ofLists ['b', 'a'] [⟨'b', 'd'⟩] ∧ Separated body ∧ set.members.Nodup := by
  obtain ⟨p, body, set, hp, hbody, hset, hread⟩ : ∃ p body set, p = [⟨.group body, .zeroOrMore, ⟨0, 18⟩⟩] ∧
      body = [⟨.literal ['x', 'y'], .once, ⟨1, 3⟩⟩, ⟨.literal ['a'], .between 1 1, ⟨3, 9⟩⟩,
        ⟨.charSet set, .once, ⟨9, 16⟩⟩] ∧
      set = .ofLists ['b', 'a'] [⟨'b', 'd'⟩] ∧ Pattern.read "(xya{1,1}[bab-d])*".toList ⟨1⟩ = .ok p :=
    ⟨_, _, _, rfl, rfl, rfl, by decide +kernel⟩
  obtain ⟨-, hevery⟩ := invariant_of_read hread
  subst hp
  -- the group is the only term, and the set is the last one of its body
  obtain ⟨⟨⟨-, -, hgroup, -⟩, hinner⟩, -⟩ := hevery
  have hseparated := (hgroup body rfl).2
  change Pattern.Every _ body at hinner
  subst hbody
  obtain ⟨-, -, ⟨⟨-, hcharSet, -, -⟩, -⟩, -⟩ := hinner
  exact ⟨_, _, set, hread, rfl, rfl, hset, hseparated, (hcharSet set rfl).2.1⟩

end PatternWalk
