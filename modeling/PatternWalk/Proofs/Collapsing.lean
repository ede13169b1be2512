import PatternWalk.Proofs.Repeating
/-!
# Collapsing — a repetition of a repetition

A group that holds one repeated term makes its repetitions in strides.  When a stride fails only where not even one
repetition can be made, strides made as often as they get on make every repetition there is.  So the outer loop adds
nothing: `(X*)*`, `(X+)*`, `(X?)*`, `(X*)+` and `(X?)+` match as `X*`, and so does `(X*){m,n}` when a stride is allowed,
while `(X+)+` matches as `X+` (`matchAt_nested`).
-/
namespace PatternWalk

section
variable {once stride : Place → Option Place} {here there : Place}

/-- **Strides of at least one repetition**, made as often as they get on, make all the repetitions there are. -/
theorem Advances.upTo_top_of_strides (hadv : Advances once) (hstride : Advances stride) {j : ℕ∞} (hj : 1 ≤ j)
    (h : ∀ there : Place, there.rest.length ≤ here.rest.length → further stride there = upTo once j there) :
    upTo stride ⊤ here = upTo once ⊤ here := by
  have hstrides : ∀ i : ℕ, (further stride)^[i] here = upTo once (i * j) here := by
    intro i
    induction i with
    | zero => simp
    | succ i ih =>
      rw [Function.iterate_succ_apply', h _ (hstride.length_iterate_le i here), ih, hadv.upTo_upTo, Nat.cast_succ,
        add_one_mul]
  rw [hstride.upTo_top (Nat.le_refl _), hstrides]
  exact upTo_of_length_le (le_mul_of_one_le_right' hj)

/-- **What leads to a place where it stays** leads there also when it is repeated, if it may be made once. -/
theorem Advances.times_map_upTo_of_settles (hadv : Advances once) (h : once here = some there)
    (hstays : once there = some there) {m : ℕ} {n : ℕ∞} (hn : 1 ≤ n) :
    (times once m here).map (upTo once (n - m)) = some there := by
  have hstuck : ∀ k, upTo once k there = there := upTo_of_stuck (further_of_some hstays)
  cases m with
  | zero =>
    obtain ⟨k, rfl⟩ := exists_add_of_le hn
    simp [times, hadv.upTo_one_add, further_of_some h, hstuck]
  | succ m => simp [times, h, times_of_stays hstays, hstuck]

end

section
variable {q r : Quantifier} {m : ℕ} {n : ℕ∞} {here : Place}

theorem Node.past?_group_singleton (t : Term) : (Node.group [t]).past? = t.past? := Pattern.past?_singleton t

theorem Term.past?_zeroOrMore (X : Node) (a : Span) (hroom : here.rest.length < 4294967296) :
    (⟨X, .zeroOrMore, a⟩ : Term).past? here = some (upTo X.past? ⊤ here) := by
  rw [Term.past?_of_spells X Quantifier.spells_zeroOrMore a hroom]
  rfl

theorem Term.past?_oneOrMore (X : Node) (a : Span) (hroom : here.rest.length < 4294967296) :
    (⟨X, .oneOrMore, a⟩ : Term).past? here = (X.past? here).map (upTo X.past? ⊤) := by
  rw [Term.past?_of_spells X Quantifier.spells_oneOrMore a hroom]
  cases hnode : X.past? here with
  | none => simp [times, hnode]
  | some there => simp [times, hnode]

theorem Term.further_of_spells (X : Node) (hr : r.Spells m n) (hm : m ≤ 1) (hn : 1 ≤ n) (a : Span)
    (hroom : here.rest.length < 4294967296) :
    further (⟨X, r, a⟩ : Term).past? here = upTo X.past? n here := by
  rw [further, Term.past?_of_spells X hr a hroom]
  obtain rfl | rfl : m = 0 ∨ m = 1 := by omega
  · simp [times]
  · obtain ⟨k, rfl⟩ := exists_add_of_le hn
    have hmore : 1 + k - (1 : ℕ) = k := (ENat.addLECancellable_natCast 1).add_tsub_cancel_left
    rw [Advances.upTo_one_add X.advances, hmore]
    cases hnode : X.past? here with
    | none => simp [times, hnode, further_of_none hnode, upTo_of_stuck]
    | some there => simp [times, hnode, further_of_some hnode]

theorem Term.upTo_of_spells (X : Node) (hr : r.Spells m n) (hm : m ≤ 1) (hn : 1 ≤ n) (a : Span)
    (hroom : here.rest.length < 4294967296) : upTo (⟨X, r, a⟩ : Term).past? ⊤ here = upTo X.past? ⊤ here :=
  Advances.upTo_top_of_strides X.advances (⟨X, r, a⟩ : Term).advances hn fun _ hthere =>
    Term.further_of_spells X hr hm hn a (Nat.lt_of_le_of_lt hthere hroom)

namespace Pattern

theorem past?_nested_zeroOrMore (X : Node) (hr : r.Spells m n) (hm : m ≤ 1) (hn : 1 ≤ n) (a b c : Span)
    (hroom : here.rest.length < 4294967296) :
    past? [⟨.group [⟨X, r, a⟩], .zeroOrMore, b⟩] here = past? [⟨X, .zeroOrMore, c⟩] here := by
  rw [past?_singleton, past?_singleton, Term.past?_zeroOrMore _ b hroom, Term.past?_zeroOrMore X c hroom,
    Node.past?_group_singleton, Term.upTo_of_spells X hr hm hn a hroom]

theorem past?_nested_oneOrMore (X : Node) (hr : r.Spells m n) (hm : m ≤ 1) (hn : 1 ≤ n) (a b : Span)
    (hroom : here.rest.length < 4294967296) : past? [⟨.group [⟨X, r, a⟩], .oneOrMore, b⟩] here =
      (times X.past? m here).map (upTo X.past? ⊤) := by
  have hstrides : ∀ there : Place, there.rest.length < 4294967296 →
      some (upTo (⟨X, r, a⟩ : Term).past? ⊤ there) = some (upTo X.past? ⊤ there) := by
    intro there hthere
    rw [Term.upTo_of_spells X hr hm hn a hthere]
  -- the strides behind the first make what it left to be made
  have hmore : ∀ mid, upTo X.past? ⊤ (upTo X.past? (n - m) mid) = upTo X.past? ⊤ mid := by
    intro mid
    rw [Advances.upTo_upTo X.advances, add_top]
  rw [past?_singleton, Term.past?_oneOrMore _ b hroom, Node.past?_group_singleton, Option.map_eq_bind,
    Option.map_eq_bind]
  refine (Term.past?_bind_of_spells X hr a hroom hstrides).trans ?_
  simp only [hmore]
  rfl

theorem past?_nested_within (X : Node) (hq : q.Spells m n) (hn : 1 ≤ n) (a b c : Span)
    (hroom : here.rest.length < 4294967296) :
    past? [⟨.group [⟨X, .zeroOrMore, a⟩], q, b⟩] here = past? [⟨X, .zeroOrMore, c⟩] here := by
  have hstride : (⟨X, .zeroOrMore, a⟩ : Term).past? here = some (upTo X.past? ⊤ here) :=
    Term.past?_zeroOrMore X a hroom
  have hstays : (⟨X, .zeroOrMore, a⟩ : Term).past? (upTo X.past? ⊤ here) = some (upTo X.past? ⊤ here) := by
    have hreaches : here.Reaches (upTo X.past? ⊤ here) := Advances.reaches_upTo X.advances ⊤ here
    obtain ⟨word, hword⟩ := hreaches
    have hlength := hword.length_eq
    rw [Term.past?_zeroOrMore X a (by omega), Advances.upTo_upTo X.advances, add_top]
  rw [past?_singleton, past?_singleton, Term.past?_of_spells _ hq b hroom, Term.past?_zeroOrMore X c hroom,
    Node.past?_group_singleton]
  exact Advances.times_map_upTo_of_settles (Term.advances _) hstride hstays hn

end Pattern

end

/-- **Nested repetition collapses** on a text whose bytes a word can count.  Let `r` say `{m,n}` with `1 ≤ n`.  When
`m ≤ 1` the group `(Xr)*` has the matches of `X*`, and `(Xr)+` has those of `X*` or, with `m = 1`, of `X+`.  And
`(X*)r` has the matches of `X*` whatever `m` is.  All this holds for every node `X`, also for one that matches the empty
text. -/
theorem Pattern.matchAt_nested {source : Text} (hsize : source.size < 4294967296) (X : Node) (offset : Nat)
    (a b c : Span) :
    (∀ (m : ℕ) (n : ℕ∞) (r : Quantifier), r.Spells m n → m ≤ 1 → 1 ≤ n →
      matchAt [⟨.group [⟨X, r, a⟩], .zeroOrMore, b⟩] source offset = matchAt [⟨X, .zeroOrMore, c⟩] source offset) ∧
    (∀ (n : ℕ∞) (r : Quantifier), r.Spells 0 n → 1 ≤ n →
      matchAt [⟨.group [⟨X, r, a⟩], .oneOrMore, b⟩] source offset = matchAt [⟨X, .zeroOrMore, c⟩] source offset) ∧
    (∀ (n : ℕ∞) (r : Quantifier), r.Spells 1 n →
      matchAt [⟨.group [⟨X, r, a⟩], .oneOrMore, b⟩] source offset = matchAt [⟨X, .oneOrMore, c⟩] source offset) ∧
    ∀ (m : ℕ) (n : ℕ∞) (r : Quantifier), r.Spells m n → 1 ≤ n →
      matchAt [⟨.group [⟨X, .zeroOrMore, a⟩], r, b⟩] source offset = matchAt [⟨X, .zeroOrMore, c⟩] source offset := by
  refine ⟨?_, ?_, ?_, ?_⟩
  · intro m n r hr hm hn
    exact matchAt_congr_of_size hsize (fun here hroom => past?_nested_zeroOrMore X hr hm hn a b c hroom) offset
  · intro n r hr hn
    refine matchAt_congr_of_size hsize (fun here hroom => ?_) offset
    rw [past?_nested_oneOrMore X hr (Nat.zero_le 1) hn a b hroom, past?_singleton, Term.past?_zeroOrMore X c hroom]
    rfl
  · intro n r hr
    have hn : 1 ≤ n := by simpa using hr.ordered
    refine matchAt_congr_of_size hsize (fun here hroom => ?_) offset
    rw [past?_nested_oneOrMore X hr (Nat.le_refl 1) hn a b hroom, past?_singleton,
      Term.past?_of_spells X Quantifier.spells_oneOrMore c hroom, ENat.top_sub_natCast]
  · intro m n r hr hn
    exact matchAt_congr_of_size hsize (fun here hroom => past?_nested_within X hr hn a b c hroom) offset

/-- Behind the `x` of `xabbc` the group `(a?b?)` matches `ab` and `b`, and then the empty text. -/
theorem Pattern.matchAt_nested_nullable : ∃ X : Node,
    X = .group [⟨.literal ['a'], .zeroOrOne, ⟨1, 3⟩⟩, ⟨.literal ['b'], .zeroOrOne, ⟨3, 5⟩⟩] ∧
    Text.size ['x', 'a', 'b', 'b', 'c'] < 4294967296 ∧ Quantifier.zeroOrMore.Spells 0 ⊤ ∧
    Quantifier.oneOrMore.Spells 1 ⊤ ∧ Quantifier.zeroOrOne.Spells 0 1 ∧ (Quantifier.between 4 9).Spells 4 9 ∧
    (∀ r ∈ [Quantifier.zeroOrMore, .oneOrMore, .zeroOrOne],
      matchAt [⟨.group [⟨X, r, ⟨1, 8⟩⟩], .zeroOrMore, ⟨0, 10⟩⟩] ['x', 'a', 'b', 'b', 'c'] 1 =
        some ⟨1, ['a', 'b', 'b']⟩) ∧
    (∀ r ∈ [Quantifier.zeroOrMore, .zeroOrOne, .oneOrMore],
      matchAt [⟨.group [⟨X, r, ⟨1, 8⟩⟩], .oneOrMore, ⟨0, 10⟩⟩] ['x', 'a', 'b', 'b', 'c'] 1 =
        some ⟨1, ['a', 'b', 'b']⟩) ∧
    matchAt [⟨.group [⟨X, .zeroOrMore, ⟨1, 8⟩⟩], .between 4 9, ⟨0, 10⟩⟩] ['x', 'a', 'b', 'b', 'c'] 1 =
      some ⟨1, ['a', 'b', 'b']⟩ := by
  have hsize : Text.size ['x', 'a', 'b', 'b', 'c'] < 4294967296 := by decide
  have hbetween : (Quantifier.between 4 9).Spells 4 9 := Quantifier.spells_between (by decide)
  obtain ⟨hmany, hnullable, honce, hwithin⟩ := matchAt_nested hsize
    (.group [⟨.literal ['a'], .zeroOrOne, ⟨1, 3⟩⟩, ⟨.literal ['b'], .zeroOrOne, ⟨3, 5⟩⟩]) 1 ⟨1, 8⟩ ⟨0, 10⟩ ⟨0, 7⟩
  have hstar := hmany 0 ⊤ _ Quantifier.spells_zeroOrMore (by decide) le_top
  have hplus := hmany 1 ⊤ _ Quantifier.spells_oneOrMore (by decide) le_top
  have hoption := hmany 0 1 _ Quantifier.spells_zeroOrOne (by decide) le_rfl
  have hstarPlus := hnullable ⊤ _ Quantifier.spells_zeroOrMore le_top
  have hoptionPlus := hnullable 1 _ Quantifier.spells_zeroOrOne le_rfl
  have hplusPlus := honce ⊤ _ Quantifier.spells_oneOrMore
  refine ⟨_, rfl, hsize, Quantifier.spells_zeroOrMore, Quantifier.spells_oneOrMore, Quantifier.spells_zeroOrOne,
    hbetween, ?_, ?_, ?_⟩
  · simp only [List.forall_mem_cons, hstar, hplus, hoption]
    decide +kernel
  · simp only [List.forall_mem_cons, hstarPlus, hoptionPlus, hplusPlus]
    decide +kernel
  · rw [hwithin 4 9 _ hbetween (by decide)]
    decide +kernel

end PatternWalk
