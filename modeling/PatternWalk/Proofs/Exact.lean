import PatternWalk.Proofs.Repeating
/-!
# Exact — where no count is left to choose

Evaluation never gives back, so in general it misses words of the language of a pattern: `a*a` matches nothing.  It
misses none when each quantifier admits one number of repetitions only.  Then every part of the pattern decides its
language: it leads from a place to another exactly when a word of the language lies between them.  As it leads to one
place at most, there is one such word at most (`matchAt_of_exact`).
-/
namespace PatternWalk

/-! ## One number of repetitions -/

namespace Quantifier

/-- **One number of repetitions and no other**: no quantifier is written, or two bounds that are equal. -/
def IsExact : Quantifier → Prop
  | once => True
  | between low high => low = high
  | zeroOrMore | zeroOrOne | oneOrMore => False

instance : DecidablePred IsExact
  | .between low high => inferInstanceAs (Decidable (low = high))
  | .once => isTrue trivial
  | .zeroOrMore | .zeroOrOne | .oneOrMore => isFalse id

variable {q : Quantifier}

theorem IsExact.most?_eq (h : q.IsExact) : q.most? = some q.least := by
  cases q with
  | once => rfl
  | between low high =>
    obtain rfl : low = high := h
    rfl
  | zeroOrMore | zeroOrOne | oneOrMore => cases h

theorem IsExact.greatest_eq (h : q.IsExact) : q.greatest = q.least.toNat := by
  rw [greatest, h.most?_eq]

theorem IsExact.admits_iff (h : q.IsExact) {k : ℕ} : q.Admits k ↔ k = q.least.toNat := by
  rw [Admits, h.most?_eq]
  constructor
  · rintro ⟨hleast, hmost⟩
    exact Nat.le_antisymm (hmost _ rfl) hleast
  · rintro rfl
    refine ⟨Nat.le_refl _, ?_⟩
    intro most hmost
    rw [Option.some.inj hmost]

end Quantifier

theorem Term.language_of_exact {n : Node} {q : Quantifier} (hq : q.IsExact) (span : Span) :
    (⟨n, q, span⟩ : Term).language = n.language ^ q.least.toNat := by
  ext word
  constructor
  · rintro ⟨k, hk, hmem⟩
    rwa [hq.admits_iff.1 hk] at hmem
  · intro hmem
    exact ⟨_, hq.admits_iff.2 rfl, hmem⟩

theorem Term.past?_of_exact (n : Node) {q : Quantifier} (hq : q.IsExact) (span : Span) :
    (⟨n, q, span⟩ : Term).past? = times n.past? q.least.toNat := by
  have horder : q.InOrder := by rw [Quantifier.inOrder_iff, hq.greatest_eq]
  have hbound : q.most? ≠ none := by simp [hq.most?_eq]
  have hrest : upTo n.past? 0 = id := funext (upTo_zero n.past?)
  funext here
  rw [Term.past?_eq_times n horder span (.inl hbound), hq.greatest_eq, tsub_self, hrest, Option.map_id, id]

/-! ## What decides its language -/

/-- **It leads from one place to another** exactly when a word of the language lies between them. -/
def Decides (once : Place → Option Place) (l : Language Char) : Prop :=
  ∀ here there, once here = some there ↔ ∃ word ∈ l, here.Passes word there

section
variable {f g : Place → Option Place} {l m : Language Char}

theorem decides_some : Decides some 1 := by
  intro here there
  constructor
  · intro h
    exact ⟨[], Language.nil_mem_one, Option.some.inj h ▸ .refl here⟩
  · rintro ⟨word, hmem, hword⟩
    obtain rfl := (Language.mem_one word).1 hmem
    rw [(hword.eq_of_not_lt (by simp [hword.length_eq])).2]

theorem Decides.bind (hf : Decides f l) (hg : Decides g m) : Decides (fun here => (f here).bind g) (l * m) := by
  intro here there
  constructor
  · intro h
    obtain ⟨mid, hmid, hthere⟩ := Option.bind_eq_some_iff.1 h
    obtain ⟨word, hmem, hword⟩ := (hf here mid).1 hmid
    obtain ⟨word', hmem', hword'⟩ := (hg mid there).1 hthere
    exact ⟨word ++ word', Language.append_mem_mul hmem hmem', hword.trans hword'⟩
  · rintro ⟨_, hmem, hword⟩
    obtain ⟨first, hfirst, second, hsecond, rfl⟩ := Language.mem_mul.1 hmem
    obtain ⟨mid, hmid, hthere⟩ := hword.exists_between
    have hsome : f here = some mid := (hf here mid).2 ⟨first, hfirst, hmid⟩
    dsimp only
    rw [hsome]
    exact (hg mid there).2 ⟨second, hsecond, hthere⟩

theorem Decides.times (h : Decides f l) (k : ℕ) : Decides (times f k) (l ^ k) := by
  induction k with
  | zero => exact decides_some
  | succ k ih =>
    rw [pow_succ']
    exact h.bind ih

theorem Place.prefix_rest_iff {here : Place} {word : Text} : word <+: here.rest ↔ ∃ there, here.Passes word there := by
  constructor
  · rintro ⟨beyond, hbeyond⟩
    exact ⟨⟨here.offset + word.size, beyond⟩, hbeyond.symm, rfl⟩
  · rintro ⟨there, hpass⟩
    exact ⟨there.rest, hpass.rest_eq.symm⟩

theorem Decides.isSome_iff (h : Decides f l) (here : Place) :
    (f here).isSome ↔ ∃ word ∈ l, word <+: here.rest := by
  rw [Option.isSome_iff_exists]
  constructor
  · rintro ⟨there, hthere⟩
    obtain ⟨word, hmem, hword⟩ := (h here there).1 hthere
    exact ⟨word, hmem, Place.prefix_rest_iff.2 ⟨there, hword⟩⟩
  · rintro ⟨word, hmem, hword⟩
    obtain ⟨there, hthere⟩ := Place.prefix_rest_iff.1 hword
    exact ⟨there, (h here there).2 ⟨word, hmem, hthere⟩⟩

/-- **No two words of the language begin at one place**, since the place they lead to would be two. -/
theorem Decides.mem_iff_of_eq_some (h : Decides f l) {here there : Place} (hthere : f here = some there) (word : Text) :
    word ∈ l ∧ word <+: here.rest ↔ word = here.textTo there := by
  obtain ⟨matched, hmem, hpass⟩ := (h here there).1 hthere
  rw [hpass.textTo]
  constructor
  · rintro ⟨hword, hfirst⟩
    obtain ⟨there', hthere'⟩ := Place.prefix_rest_iff.1 hfirst
    have hsome : f here = some there' := (h here there').2 ⟨word, hword, hthere'⟩
    obtain rfl : there' = there := Option.some.inj (hsome.symm.trans hthere)
    rw [← hthere'.textTo, hpass.textTo]
  · rintro rfl
    exact ⟨hmem, Place.prefix_rest_iff.2 ⟨there, hpass⟩⟩

end

mutual
theorem Node.decides : ∀ {n : Node}, n.Every (·.quantifier.IsExact) → Decides n.past? n.language
  | .literal text, _ => by
    intro here there
    rw [Node.past?, Place.pastWord?_eq_some_iff]
    constructor
    · intro hpass
      exact ⟨text, rfl, hpass⟩
    · rintro ⟨_, rfl, hpass⟩
      exact hpass
  | .charSet set, _ => by
    intro here there
    rw [Node.past?, Place.pastChar?_eq_some_iff]
    constructor
    · rintro ⟨c, hc, hpass⟩
      exact ⟨[c], ⟨c, hc, rfl⟩, hpass⟩
    · rintro ⟨_, ⟨c, hc, rfl⟩, hpass⟩
      exact ⟨c, hc, hpass⟩
  | .group _, hbody => Pattern.decides hbody
theorem Term.decides : ∀ {t : Term}, t.Every (·.quantifier.IsExact) → Decides t.past? t.language
  | ⟨n, q, span⟩, ht => by
    have hq : q.IsExact := ht.1
    rw [Term.past?_of_exact n hq, Term.language_of_exact hq]
    exact (Node.decides ht.2).times _
/-- **A pattern with exact quantifiers decides its language.** -/
theorem Pattern.decides : ∀ {p : Pattern}, p.Every (·.quantifier.IsExact) → Decides p.past? p.language
  | [], _ => decides_some
  | _ :: _, hp => (Term.decides hp.1).bind (Pattern.decides hp.2)
end

/-- **Nothing is lost by not giving back where no count is left to choose.**  A pattern whose quantifiers are exact at
every depth matches at a boundary of a text exactly when what lies ahead begins with a word of its language.  The match
is that word, and there is no other. -/
theorem Pattern.matchAt_of_exact {p : Pattern} (hp : p.Every (·.quantifier.IsExact)) (front rest : Text) :
    ((p.matchAt (front ++ rest) front.size).isSome ↔ ∃ word ∈ p.language, word <+: rest) ∧
    ∀ m, p.matchAt (front ++ rest) front.size = some m →
      m.start = front.size ∧ ∀ word, word ∈ p.language ∧ word <+: rest ↔ word = m.text := by
  have hdecides : Decides p.past? p.language := Pattern.decides hp
  obtain ⟨here, rfl, hoffset, hplace⟩ : ∃ here : Place, here.rest = rest ∧ here.offset = front.size ∧
      (front ++ here.rest).place? here.offset = some here := by
    refine ⟨⟨front.size, rest⟩, rfl, rfl, ?_⟩
    rw [Text.place?, Text.dropBytes?_append]
    rfl
  rw [← hoffset, p.matchAt_of_place? hplace]
  constructor
  · rw [Option.isSome_map]
    exact hdecides.isSome_iff _
  · intro m hm
    obtain ⟨there, hthere, rfl⟩ := Option.map_eq_some_iff.1 hm
    exact ⟨rfl, hdecides.mem_iff_of_eq_some hthere⟩

/-- Behind `x` the pattern `([é-ü]b{0,0}){2,2}a` matches two characters of two bytes each and the `a`, and no other word
of its language stands there; behind `xé` it does not match, as none does. -/
theorem Pattern.matchAt_of_exact_group : ∃ p, Pattern.read "([é-ü]b\x7b0,0\x7d)\x7b2,2\x7da".toList = .ok p ∧
    p.Every (·.quantifier.IsExact) ∧ p.matchAt (['x'] ++ ['é', 'ü', 'a', 'b']) 1 = some ⟨1, ['é', 'ü', 'a']⟩ ∧
    (∀ word, word ∈ p.language ∧ word <+: ['é', 'ü', 'a', 'b'] ↔ word = ['é', 'ü', 'a']) ∧
    ¬∃ word ∈ p.language, word <+: ['ü', 'a', 'b'] := by
  obtain ⟨p, hp, hexact, hmatch, hnone⟩ : ∃ p, Pattern.read "([é-ü]b\x7b0,0\x7d)\x7b2,2\x7da".toList = .ok p ∧
      p.Every (·.quantifier.IsExact) ∧ p.matchAt (['x'] ++ ['é', 'ü', 'a', 'b']) 1 = some ⟨1, ['é', 'ü', 'a']⟩ ∧
      p.matchAt (['x', 'é'] ++ ['ü', 'a', 'b']) 3 = none :=
    ⟨_, rfl, by decide +kernel, by decide +kernel, by decide +kernel⟩
  refine ⟨p, hp, hexact, hmatch, ((matchAt_of_exact hexact ['x'] _).2 _ hmatch).2, ?_⟩
  intro hword
  have hsome : (p.matchAt (['x', 'é'] ++ ['ü', 'a', 'b']) 3).isSome := (matchAt_of_exact hexact ['x', 'é'] _).1.2 hword
  rw [hnone] at hsome
  cases hsome

end PatternWalk
