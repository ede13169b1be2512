import Mathlib.Computability.Language
import PatternWalk.Proofs.Greedy
import PatternWalk.Proofs.Canonical
import PatternWalk.Proofs.Readings
/-!
# Denotation — the regular language of a pattern

A pattern denotes a language in the usual way, with any number of repetitions its quantifiers allow.  Evaluation commits
itself to one number and may stop early on an empty repetition; still, whatever it matches is a word of the language.
An empty repetition says that the empty word is one of the node's, so the missing repetitions can be made with it.
-/
namespace PatternWalk

def Quantifier.Admits (q : Quantifier) (k : Nat) : Prop := q.least.toNat ≤ k ∧ ∀ most ∈ q.most?, k ≤ most.toNat

mutual
def Node.language : Node → Language Char
  | .literal text => {text}
  | .charSet set => {word | ∃ c, set.accepts c = true ∧ word = [c]}
  | .group body => Pattern.language body
def Term.language : Term → Language Char
  | ⟨node, q, _⟩ => {word | ∃ k, q.Admits k ∧ word ∈ node.language ^ k}
/-- **The words of a pattern**: a word of each term in a row. -/
def Pattern.language : Pattern → Language Char
  | [] => 1
  | t :: p => t.language * Pattern.language p
end

def Within (once : Place → Option Place) (l : Language Char) : Prop :=
  ∀ {here there : Place}, once here = some there → ∃ word ∈ l, here.Passes word there

section
variable {once : Place → Option Place} {l : Language Char} {q : Quantifier} {here there : Place} {stops : List Place}

theorem Chain.exists_mem_pow (hl : Within once l) (h : Chain once here stops there) :
    ∃ word ∈ l ^ stops.length, here.Passes word there := by
  induction h with
  | rest => exact ⟨[], by simp, .refl _⟩
  | step h _ _ ih =>
    obtain ⟨word, hmem, hword⟩ := hl h
    obtain ⟨word', hmem', hword'⟩ := ih
    refine ⟨word ++ word', ?_, hword.trans hword'⟩
    rw [List.length_cons, pow_succ']
    exact Language.append_mem_mul hmem hmem'

theorem mem_pow_of_le {k n : Nat} {word : Text} (hnil : [] ∈ l) (hkn : k ≤ n) (h : word ∈ l ^ k) : word ∈ l ^ n := by
  induction hkn with
  | refl => exact h
  | step _ ih =>
    rw [pow_succ]
    simpa using Language.append_mem_mul ih hnil

theorem Quantifier.InOrder.least_le : ∀ {q : Quantifier}, q.InOrder → ∀ most ∈ q.most?, q.least.toNat ≤ most.toNat
  | .between low high, h, most, hm => by
    cases hm
    exact UInt32.le_iff_toNat_le.1 h
  | .once, _, most, hm | .zeroOrOne, _, most, hm => by
    cases hm
    decide
  | .zeroOrMore, _, _, hm | .oneOrMore, _, _, hm => by cases hm

/-- **What the loop passes over is a word of the term**, if the count it reports is enough. -/
theorem Loops.exists_mem_pow {count : UInt32} (hl : Within once l) (hq : q.InOrder)
    (h : Loops once q 0 here stops (count, there)) (hcount : q.isSatisfiedBy count = true) :
    ∃ k, q.Admits k ∧ ∃ word ∈ l ^ k, here.Passes word there := by
  obtain ⟨word, hmem, hword⟩ := h.chain.exists_mem_pow hl
  have hwithin : ∀ most ∈ q.most?, stops.length ≤ most.toNat := by
    intro most hm
    have hbound : q.most? ≠ none := fun hnone => by cases hnone.symm.trans hm
    exact (h.exhausted (.inl hbound)).le most hm
  -- the reported count may have gone round, and is no more than the number of repetitions then
  have hround : (UInt32.ofNat stops.length).toNat ≤ stops.length := Nat.mod_le _ _
  have hleast : q.isSatisfiedBy (.ofNat stops.length) = true → q.least.toNat ≤ stops.length := by
    intro henough
    exact Nat.le_trans (Quantifier.isSatisfiedBy_iff.1 henough) hround
  have hhalts := h.halts_ofNat
  generalize UInt32.ofNat stops.length = n at hhalts hleast
  cases hhalts with
  | full _ => exact ⟨stops.length, ⟨hleast hcount, hwithin⟩, word, hmem, hword⟩
  | fails _ _ => exact ⟨stops.length, ⟨hleast hcount, hwithin⟩, word, hmem, hword⟩
  | stays _ hstays =>
    obtain ⟨word', hnil, hpass⟩ := hl hstays
    obtain ⟨rfl, -⟩ := hpass.eq_of_not_lt (Nat.lt_irrefl _)
    -- the empty word is one of the node's: it makes up for the repetitions that are missing
    have hmax : word ∈ l ^ max stops.length q.least.toNat := mem_pow_of_le hnil (Nat.le_max_left _ _) hmem
    refine ⟨_, ⟨Nat.le_max_right _ _, fun most hm => ?_⟩, word, hmax, hword⟩
    exact Nat.max_le.2 ⟨hwithin most hm, hq.least_le most hm⟩

end

mutual
theorem Node.within_language : ∀ {n : Node}, n.Every (·.quantifier.InOrder) → Within n.past? n.language
  | .literal text, _, _, _, h => ⟨text, rfl, Place.pastWord?_eq_some_iff.1 h⟩
  | .charSet set, _, _, _, h => by
    obtain ⟨c, hc, hpass⟩ := Place.pastChar?_eq_some_iff.1 h
    exact ⟨[c], ⟨c, hc, rfl⟩, hpass⟩
  | .group _, hbody, _, _, h => Pattern.within_language hbody h
theorem Term.within_language : ∀ {t : Term}, t.Every (·.quantifier.InOrder) → Within t.past? t.language
  | ⟨n, q, _⟩, ht, here, there, h => by
    obtain ⟨stops, hloop⟩ : ∃ stops, Loops n.past? q 0 here stops (repeatQuietly n.past? q 0 here) :=
      exists_loops n.advances 0 here
    unfold Term.past? at h
    split at h
    · rename_i hcount
      cases h
      obtain ⟨k, hk, word, hmem, hword⟩ := hloop.exists_mem_pow (Node.within_language ht.2) ht.1 hcount
      exact ⟨word, ⟨k, hk, hmem⟩, hword⟩
    · cases h
/-- **A pattern matches only words of its language**, when its bounds are in order. -/
theorem Pattern.within_language : ∀ {p : Pattern}, p.Every (·.quantifier.InOrder) →
    Within (Pattern.past? p) (Pattern.language p)
  | [], _, here, _, h => ⟨[], Language.nil_mem_one, Option.some.inj h ▸ .refl here⟩
  | _ :: _, hp, _, _, h => by
    obtain ⟨next, ht, hrest⟩ := Option.bind_eq_some_iff.1 h
    obtain ⟨word, hmem, hword⟩ := Term.within_language hp.1 ht
    obtain ⟨word', hmem', hword'⟩ := Pattern.within_language hp.2 hrest
    exact ⟨word ++ word', Language.append_mem_mul hmem hmem', hword.trans hword'⟩
end

/-- **Evaluation is sound for the language of a pattern**: whatever a pattern with bounds in order matches, at whatever
offset of whatever text, is a word of its language.  Every pattern that is read has its bounds in order. -/
theorem Pattern.text_mem_language :
    (∀ (p : Pattern) (source : Text) (offset : Nat) (m : Match), p.Every (·.quantifier.InOrder) →
      p.matchAt source offset = some m → m.text ∈ p.language) ∧
    ∀ (text : Text) (limits : Limits) (p : Pattern), Pattern.read text limits = .ok p →
      p.Every (·.quantifier.InOrder) := by
  refine ⟨fun p source offset m hp h => ?_, fun text limits p h => ?_⟩
  · rw [matchAt, fst_evaluateAt] at h
    obtain ⟨here, -, hmatch⟩ := Option.bind_eq_some_iff.1 h
    obtain ⟨there, hthere, rfl⟩ := Option.map_eq_some_iff.1 hmatch
    obtain ⟨word, hmem, hword⟩ := within_language hp hthere
    rw [hword.textTo]
    exact hmem
  · obtain ⟨d, -, -, rfl⟩ := Grammar.read_eq_ok_iff.1 h
    exact d.canonical_pattern.every.imp fun _ ht => ht.inOrder

/-- At the start of `ab` the pattern `(a?){2,3}` takes the letter and then nothing, which is enough: the letter is one
of its words. -/
theorem Pattern.text_mem_language_group : ∃ p m, Pattern.read "(a?){2,3}".toList = .ok p ∧
    p.Every (·.quantifier.InOrder) ∧ p.matchAt ['a', 'b'] 0 = some m ∧ m.text = ['a'] ∧ m.text ∈ p.language := by
  obtain ⟨p, hp, hmatch⟩ : ∃ p, Pattern.read "(a?){2,3}".toList = .ok p ∧ p.matchAt ['a', 'b'] 0 = some ⟨0, ['a']⟩ :=
    ⟨[⟨.group [⟨.literal ['a'], .zeroOrOne, ⟨1, 3⟩⟩], .between 2 3, ⟨0, 9⟩⟩], by decide +kernel, by decide +kernel⟩
  have hevery : p.Every (·.quantifier.InOrder) := Pattern.text_mem_language.2 _ _ _ hp
  exact ⟨p, _, hp, hevery, hmatch, rfl, Pattern.text_mem_language.1 _ _ _ _ hevery hmatch⟩

end PatternWalk
