import PatternWalk.Proofs.Chains
/-!
# Greedy — what a term and a pattern do, said without the loop

A term matches up to the end of a chain that cannot be made longer: the most repetitions are made, or the node does not
match any more, or it matches the empty text.  In the last case the least number does not matter.  There is one such
chain at most, so nothing is left to choose, and a pattern is its terms one after the other.
-/
namespace PatternWalk

def Exhausted (once : Place → Option Place) (q : Quantifier) (k : Nat) (there : Place) : Prop :=
  q.Reached k ∨ q.Below k ∧ (once there = none ∨ once there = some there)

/-- **The chain of a term** from one place to another: it has no more repetitions than are allowed, and ends because
there are as many as are allowed, or because the node does not match, in both cases with the least number made; or
because the node matches the empty text. -/
structure Greedy (once : Place → Option Place) (q : Quantifier) (here : Place) (stops : List Place)
    (there : Place) : Prop where
  chain : Chain once here stops there
  within : ∀ most ∈ q.most?, stops.length ≤ most.toNat
  ends : q.Reached stops.length ∧ q.least.toNat ≤ stops.length ∨
    q.Below stops.length ∧ once there = none ∧ q.least.toNat ≤ stops.length ∨
    q.Below stops.length ∧ once there = some there

variable {once : Place → Option Place} {q : Quantifier} {here there there' : Place} {stops stops' : List Place}

/-! ## There is one chain at most -/

theorem Exhausted.le {k : Nat} (h : Exhausted once q k there) : ∀ most ∈ q.most?, k ≤ most.toNat := by
  intro most hm
  rcases h with ⟨most', hm', rfl⟩ | ⟨hbelow, -⟩
  · obtain rfl : most' = most := Option.mem_unique hm' hm
    exact Nat.le_refl _
  · exact Nat.le_of_lt (hbelow most hm)

theorem Exhausted.not_step {k : Nat} {next : Place} (h : Exhausted once q k here) (hbelow : q.Below k)
    (hstep : once here = some next) : ¬here.offset < next.offset := by
  intro hlt
  rcases h with ⟨most, hm, hk⟩ | ⟨-, hnone | hstay⟩
  · have := hbelow most hm
    omega
  · rw [hstep] at hnone
    cases hnone
  · rw [hstep] at hstay
    cases hstay
    exact Nat.lt_irrefl _ hlt

/-- **Exhausted chains from one place are one chain.**  The induction carries the number `j` of repetitions that were
made before the chains begin. -/
theorem Chain.eq_of_exhausted (h : Chain once here stops there) :
    ∀ {j : Nat} {stops' : List Place}, Chain once here stops' there' → Exhausted once q (j + stops.length) there →
      Exhausted once q (j + stops'.length) there' → stops = stops' ∧ there = there' := by
  induction h with
  | rest =>
    intro j stops' h' hend hend'
    cases h' with
    | rest => exact ⟨rfl, rfl⟩
    | @step _ next _ stops' hstep forward hs =>
      -- the other chain makes a repetition more, so one was still allowed here
      have hbelow : q.Below j := fun most hm => by
        have := hend'.le most hm
        simp at this
        omega
      exact absurd forward (hend.not_step hbelow hstep)
  | @step here next there stops hstep forward hs ih =>
    intro j stops' h' hend hend'
    cases h' with
    | rest =>
      have hbelow : q.Below j := fun most hm => by
        have := hend.le most hm
        simp at this
        omega
      exact absurd forward (hend'.not_step hbelow hstep)
    | @step _ next' _ stops' hstep' _ hs' =>
      have hnext : next = next' := Option.some.inj (hstep.symm.trans hstep')
      subst hnext
      have hj : ∀ l : List Place, j + (next :: l).length = (j + 1) + l.length := fun l => by
        rw [List.length_cons]
        omega
      rw [hj] at hend hend'
      obtain ⟨rfl, rfl⟩ := ih hs' hend hend'
      exact ⟨rfl, rfl⟩

theorem greedy_iff : Greedy once q here stops there ↔
    Chain once here stops there ∧ Exhausted once q stops.length there ∧
      (q.least.toNat ≤ stops.length ∨ q.Below stops.length ∧ once there = some there) := by
  constructor
  · rintro ⟨hchain, -, ⟨hfull, hleast⟩ | ⟨hbelow, hnone, hleast⟩ | ⟨hbelow, hstays⟩⟩
    · exact ⟨hchain, .inl hfull, .inl hleast⟩
    · exact ⟨hchain, .inr ⟨hbelow, .inl hnone⟩, .inl hleast⟩
    · exact ⟨hchain, .inr ⟨hbelow, .inr hstays⟩, .inr ⟨hbelow, hstays⟩⟩
  · rintro ⟨hchain, hend, hleast⟩
    refine ⟨hchain, hend.le, ?_⟩
    rcases hend with hfull | ⟨hbelow, hnone | hstays⟩
    · rcases hleast with hleast | ⟨hbelow, -⟩
      · exact .inl ⟨hfull, hleast⟩
      · obtain ⟨most, hm, hk⟩ := hfull
        exact absurd (hbelow most hm) (by omega)
    · rcases hleast with hleast | ⟨-, hstays⟩
      · exact .inr (.inl ⟨hbelow, hnone, hleast⟩)
      · rw [hnone] at hstays
        cases hstays
    · exact .inr (.inr ⟨hbelow, hstays⟩)

theorem Greedy.unique (h : Greedy once q here stops there) (h' : Greedy once q here stops' there') :
    stops = stops' ∧ there = there' := by
  obtain ⟨hchain, hend, -⟩ := greedy_iff.1 h
  obtain ⟨hchain', hend', -⟩ := greedy_iff.1 h'
  exact hchain.eq_of_exhausted (j := 0) hchain' (by simpa using hend) (by simpa using hend')

/-! ## The loop makes that chain -/

variable {count : UInt32}

theorem Loops.exhausted (h : Loops once q 0 here stops (count, there))
    (hbound : q.most? ≠ none ∨ stops.length < 4294967296) : Exhausted once q stops.length there := by
  have hexact : (UInt32.ofNat stops.length).toNat = stops.length := h.toNat_eq hbound _ (Nat.le_refl _)
  have hhalts := h.halts_ofNat
  generalize UInt32.ofNat stops.length = n at hexact hhalts
  rw [← hexact]
  cases hhalts with
  | full hfull =>
    exact .inl (Quantifier.reached_of_not_allowsAnother hfull fun k hk => h.below hbound (hexact ▸ hk))
  | fails hallowed hnone => exact .inr ⟨Quantifier.below_iff_allowsAnother.2 hallowed, .inl hnone⟩
  | stays hallowed hstays => exact .inr ⟨Quantifier.below_iff_allowsAnother.2 hallowed, .inr hstays⟩

theorem Loops.isSatisfiedBy_iff (h : Loops once q 0 here stops (count, there))
    (hbound : q.most? ≠ none ∨ stops.length < 4294967296) : q.isSatisfiedBy count = true ↔
      q.least.toNat ≤ stops.length ∨ q.Below stops.length ∧ once there = some there := by
  have hexact : (UInt32.ofNat stops.length).toNat = stops.length := h.toNat_eq hbound _ (Nat.le_refl _)
  have hhalts := h.halts_ofNat
  generalize UInt32.ofNat stops.length = n at hexact hhalts
  have hleast : q.isSatisfiedBy n = true ↔ q.least.toNat ≤ stops.length := by
    rw [Quantifier.isSatisfiedBy_iff, hexact]
  cases hhalts with
  | full hfull =>
    have hnot : ¬q.Below stops.length := by
      rw [← hexact, Quantifier.below_iff_allowsAnother, hfull]
      exact Bool.false_ne_true
    rw [hleast]
    exact ⟨.inl, fun hor => hor.elim id fun hand => absurd hand.1 hnot⟩
  | fails _ hnone =>
    have hnot : once there ≠ some there := by
      intro hstays
      cases hnone.symm.trans hstays
    rw [hleast]
    exact ⟨.inl, fun hor => hor.elim id fun hand => absurd hand.2 hnot⟩
  | stays hallowed hstays =>
    have hbelow : q.Below stops.length := hexact ▸ Quantifier.below_iff_allowsAnother.2 hallowed
    have hsat : q.isSatisfiedBy (max (Quantifier.countOn n) q.least) = true := q.isSatisfiedBy_max _
    exact ⟨fun _ => .inr ⟨hbelow, hstays⟩, fun _ => hsat⟩

theorem Term.past?_eq_some_iff {t : Term} (hbound : t.quantifier.most? ≠ none ∨ here.rest.length < 4294967296) :
    t.past? here = some there ↔ ∃ stops, Greedy t.node.past? t.quantifier here stops there := by
  obtain ⟨n, q, span⟩ := t
  obtain ⟨stops, hloop⟩ : ∃ stops, Loops n.past? q 0 here stops (repeatQuietly n.past? q 0 here) :=
    exists_loops n.advances 0 here
  have hlength : stops.length ≤ here.rest.length := hloop.chain.length_le n.advances
  have hcount : q.most? ≠ none ∨ stops.length < 4294967296 := hbound.imp_right (Nat.lt_of_le_of_lt hlength)
  unfold Term.past?
  generalize repeatQuietly n.past? q 0 here = result at hloop ⊢
  obtain ⟨count, stop⟩ := result
  have hend := hloop.exhausted hcount
  have hsat := hloop.isSatisfiedBy_iff hcount
  dsimp only
  constructor
  · intro h
    split at h
    · rename_i henough
      cases h
      exact ⟨stops, greedy_iff.2 ⟨hloop.chain, hend, hsat.1 henough⟩⟩
    · cases h
  · rintro ⟨stops', hgreedy⟩
    obtain ⟨hchain, hend', hleast⟩ := greedy_iff.1 hgreedy
    obtain ⟨rfl, rfl⟩ : stops = stops' ∧ stop = there :=
      hloop.chain.eq_of_exhausted (j := 0) hchain (by simpa using hend) (by simpa using hend')
    rw [if_pos (hsat.2 hleast)]

/-- **What greedy evaluation amounts to** on a text whose bytes a word can count.  A term matches from a place of the
text to another exactly when the chain of the term leads there, and there is no other chain.  A pattern is its terms one
after the other, each from where the one before it ended; so is the body of a group.  What a term took is final. -/
theorem Term.run_iff_greedy {source : Text} (hsize : source.size < 4294967296) {offset : Nat} {here : Place}
    (hhere : source.place? offset = some here) {σ : Type} (observe : Observer σ) (depth : Nat) (seen : σ) :
    (∀ (t : Term) (there : Place), (t.run observe depth here seen).1 = some there ↔
      ∃ stops, Greedy (fun here => (t.node.run observe depth here seen).1) t.quantifier here stops there) ∧
    (∀ (t : Term) (stops stops' : List Place) (there there' : Place),
      Greedy (fun here => (t.node.run observe depth here seen).1) t.quantifier here stops there →
      Greedy (fun here => (t.node.run observe depth here seen).1) t.quantifier here stops' there' →
      stops = stops' ∧ there = there') ∧
    (∀ p : Pattern, (Pattern.run observe p depth here seen).1 =
      p.foldlM (fun here t => (t.run observe depth here seen).1) here) ∧
    ∀ body : Pattern, (Node.run observe (.group body) depth here seen).1 =
      body.foldlM (fun here t => (t.run observe (depth + 1) here seen).1) here := by
  have hlength : here.rest.length < 4294967296 := Nat.lt_of_le_of_lt (Text.length_rest_le hhere) hsize
  refine ⟨fun t there => ?_, fun t stops stops' there there' h h' => h.unique h', fun p => ?_, fun body => ?_⟩
  · have honce : (fun here => (t.node.run observe depth here seen).1) = t.node.past? :=
      funext fun here => t.node.fst_run observe depth here seen
    rw [honce, t.fst_run observe depth here seen]
    exact Term.past?_eq_some_iff (.inr hlength)
  · rw [p.fst_run observe depth here seen, p.past?_eq_foldlM]
    simp only [Term.fst_run]
  · rw [Node.fst_run observe, Node.past?, Pattern.past?_eq_foldlM]
    simp only [Term.fst_run]

/-- At the start of `aab` the term `a{1,2}` ends behind the second letter. -/
theorem Term.run_greedy_letters :
    (Term.run Observer.idle ⟨.literal ['a'], .between 1 2, ⟨0, 6⟩⟩ 0 ⟨0, ['a', 'a', 'b']⟩ ()).1 = some ⟨2, ['b']⟩ := by
  have hhere : Text.place? ['a', 'a', 'b'] 0 = some ⟨0, ['a', 'a', 'b']⟩ := rfl
  refine ((Term.run_iff_greedy (by decide) hhere Observer.idle 0 ()).1 _ _).2 ⟨[⟨1, ['a', 'b']⟩, ⟨2, ['b']⟩], ?_⟩
  refine ⟨.step rfl (by decide) (.step rfl (by decide) .rest), fun most hm => ?_, .inl ⟨⟨2, rfl, rfl⟩, by decide⟩⟩
  cases hm
  decide

end PatternWalk
