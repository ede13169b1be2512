import PatternWalk.Proofs.Repeating
import PatternWalk.Proofs.Stepping
/-!
# Splitting — one quantifier as two

The repetitions that must be made come first, and those that may come behind them.  So a term can be cut into two terms
for the same node, either among the repetitions that may be made or among those that must: `X{m,n}X{0,k}` matches as
`X{m,n+k}`, and `X{l,l}X{m,n}` as `X{l+m,l+n}` (`matchAt_split`).
-/
namespace PatternWalk

section
variable {q r s : Quantifier} {l m : ℕ} {n n' k : ℕ∞} {here : Place}

namespace Pattern

theorem past?_pair_of_spells (X : Node) (hq : q.Spells l k) (hr : r.Spells m n) (a b : Span)
    (hroom : here.rest.length < 4294967296) : past? [⟨X, q, a⟩, ⟨X, r, b⟩] here =
      (times X.past? l here).bind fun mid =>
        (times X.past? m (upTo X.past? (k - l) mid)).map (upTo X.past? (n - m)) := by
  have hsecond : ∀ there : Place, there.rest.length < 4294967296 →
      past? [⟨X, r, b⟩] there = (times X.past? m there).map (upTo X.past? (n - m)) := by
    intro there hthere
    rw [past?_singleton, Term.past?_of_spells X hr b hthere]
  exact Term.past?_bind_of_spells X hq a hroom hsecond

/-- **The cut among the repetitions that may be made.** -/
theorem past?_split_optional (X : Node) (hq : q.Spells m n) (hr : r.Spells 0 k) (hs : s.Spells m (n + k))
    (a b c : Span) (hroom : here.rest.length < 4294967296) :
    past? [⟨X, q, a⟩, ⟨X, r, b⟩] here = past? [⟨X, s, c⟩] here := by
  have hsum : n + k - m = n - m + k := ((ENat.addLECancellable_natCast m).tsub_add_eq_add_tsub hq.ordered).symm
  have hmore : ∀ mid, upTo X.past? k (upTo X.past? (n - m) mid) = upTo X.past? (n - m + k) mid :=
    Advances.upTo_upTo X.advances (n - m) k
  rw [past?_pair_of_spells X hq hr a b hroom, past?_singleton, Term.past?_of_spells X hs c hroom, hsum]
  cases times X.past? m here with
  | none => rfl
  | some mid => simp [times, hmore]

/-- **The cut among the repetitions that must be made.** -/
theorem past?_split_required (X : Node) (hq : q.Spells l l) (hr : r.Spells m n) (hs : s.Spells (l + m) (l + n))
    (a b c : Span) (hroom : here.rest.length < 4294967296) :
    past? [⟨X, q, a⟩, ⟨X, r, b⟩] here = past? [⟨X, s, c⟩] here := by
  have hrest : (l : ℕ∞) + n - (l + m : ℕ) = n - m := by
    rw [Nat.cast_add, tsub_add_eq_tsub_tsub, (ENat.addLECancellable_natCast l).add_tsub_cancel_left]
  rw [past?_pair_of_spells X hq hr a b hroom, past?_singleton, Term.past?_of_spells X hs c hroom, times_add, hrest,
    tsub_self]
  cases times X.past? l here with
  | none => rfl
  | some mid => simp

theorem isSome_past?_of_spells (X : Node) (hq : q.Spells m n) (a : Span) (hroom : here.rest.length < 4294967296) :
    ((⟨X, q, a⟩ : Term).past? here).isSome = (times X.past? m here).isSome := by
  rw [Term.past?_of_spells X hq a hroom, Option.isSome_map]

theorem reaches_of_spells (X : Node) (hq : q.Spells m n) (hr : r.Spells m n') (hle : n ≤ n') (a b : Span)
    (hroom : here.rest.length < 4294967296) {there there' : Place} (h : (⟨X, q, a⟩ : Term).past? here = some there)
    (h' : (⟨X, r, b⟩ : Term).past? here = some there') : there.Reaches there' := by
  obtain ⟨k, rfl⟩ := exists_add_of_le hle
  have hsum : n + k - m = n - m + k := ((ENat.addLECancellable_natCast m).tsub_add_eq_add_tsub hq.ordered).symm
  rw [Term.past?_of_spells X hq a hroom] at h
  rw [Term.past?_of_spells X hr b hroom, hsum] at h'
  obtain ⟨mid, hmid, rfl⟩ := Option.map_eq_some_iff.1 h
  rw [hmid, Option.map_some, ← Advances.upTo_upTo X.advances] at h'
  obtain rfl := Option.some.inj h'
  exact Advances.reaches_upTo X.advances k _

end Pattern

end

/-- **Quantifiers split additively** on a text whose bytes a word can count.  Where all of them can be written,
`X{m,n}X{0,k}` has the matches of `X{m,n+k}`, and `X{l,l}X{m,n}` those of `X{l+m,l+n}`, for every node `X` and with
bounds that may be infinite.  So `X+` is `XX*`, and `X{m,n}` is `X{m,m}X{0,n-m}`.  Whether `X{m,n}` matches does not
depend on `n`, and with a greater `n` it ends no earlier. -/
theorem Pattern.matchAt_split {source : Text} (hsize : source.size < 4294967296) (X : Node) (offset : Nat)
    (a b c : Span) :
    (∀ (m : ℕ) (n k : ℕ∞) (q r s : Quantifier), q.Spells m n → r.Spells 0 k → s.Spells m (n + k) →
      matchAt [⟨X, q, a⟩, ⟨X, r, b⟩] source offset = matchAt [⟨X, s, c⟩] source offset) ∧
    (∀ (l m : ℕ) (n : ℕ∞) (q r s : Quantifier), q.Spells l l → r.Spells m n → s.Spells (l + m) (l + n) →
      matchAt [⟨X, q, a⟩, ⟨X, r, b⟩] source offset = matchAt [⟨X, s, c⟩] source offset) ∧
    matchAt [⟨X, .once, a⟩, ⟨X, .zeroOrMore, b⟩] source offset = matchAt [⟨X, .oneOrMore, c⟩] source offset ∧
    (∀ (m : ℕ) (n : ℕ∞) (q r s : Quantifier), q.Spells m m → r.Spells 0 (n - m) → s.Spells m n →
      matchAt [⟨X, q, a⟩, ⟨X, r, b⟩] source offset = matchAt [⟨X, s, c⟩] source offset) ∧
    ∀ (m : ℕ) (n n' : ℕ∞) (q r : Quantifier), q.Spells m n → r.Spells m n' →
      (matchAt [⟨X, q, a⟩] source offset).isSome = (matchAt [⟨X, r, b⟩] source offset).isSome ∧
      (n ≤ n' → ∀ first second, matchAt [⟨X, q, a⟩] source offset = some first →
        matchAt [⟨X, r, b⟩] source offset = some second → first.stop ≤ second.stop) := by
  have hoptional : ∀ (m : ℕ) (n k : ℕ∞) (q r s : Quantifier), q.Spells m n → r.Spells 0 k → s.Spells m (n + k) →
      matchAt [⟨X, q, a⟩, ⟨X, r, b⟩] source offset = matchAt [⟨X, s, c⟩] source offset :=
    fun m n k q r s hq hr hs =>
      matchAt_congr_of_size hsize (fun here hroom => past?_split_optional X hq hr hs a b c hroom) offset
  refine ⟨hoptional, ?_, ?_, ?_, ?_⟩
  · intro l m n q r s hq hr hs
    exact matchAt_congr_of_size hsize (fun here hroom => past?_split_required X hq hr hs a b c hroom) offset
  · exact hoptional 1 1 ⊤ .once .zeroOrMore .oneOrMore ⟨rfl, rfl, le_refl _⟩ Quantifier.spells_zeroOrMore
      Quantifier.spells_oneOrMore
  · intro m n q r s hq hr hs
    have hsum : (m : ℕ∞) + (n - m) = n := add_tsub_cancel_of_le hs.ordered
    exact hoptional m m (n - m) q r s hq hr (hsum.symm ▸ hs)
  · intro m n n' q r hq hr
    rw [matchAt, matchAt, fst_evaluateAt, fst_evaluateAt, past?_singleton, past?_singleton]
    cases hplace : source.place? offset with
    | none => exact ⟨rfl, fun _ _ _ h => by cases h⟩
    | some here =>
      obtain ⟨rfl, -⟩ := Text.place?_eq_some_iff.1 hplace
      have hroom : here.rest.length < 4294967296 := Nat.lt_of_le_of_lt (Text.length_rest_le hplace) hsize
      simp only [Option.bind_some, Option.isSome_map]
      constructor
      · rw [isSome_past?_of_spells X hq a hroom, isSome_past?_of_spells X hr b hroom]
      · intro hle first second hfirst hsecond
        obtain ⟨there, hthere, rfl⟩ := Option.map_eq_some_iff.1 hfirst
        obtain ⟨there', hthere', rfl⟩ := Option.map_eq_some_iff.1 hsecond
        rw [Place.Reaches.stop_textTo (Term.advances _ hthere), Place.Reaches.stop_textTo (Term.advances _ hthere')]
        exact (reaches_of_spells X hq hr hle a b hroom hthere hthere').offset_le

/-- Behind the `x` of `xabaab` the group `(ab?)` matches three times: once or twice and then at most once more, or once
to three times, or once and then as often as it can. -/
theorem Pattern.matchAt_split_group : ∃ X : Node,
    X = .group [⟨.literal ['a'], .once, ⟨1, 2⟩⟩, ⟨.literal ['b'], .zeroOrOne, ⟨2, 4⟩⟩] ∧
    Text.size ['x', 'a', 'b', 'a', 'a', 'b'] < 4294967296 ∧ (Quantifier.between 1 2).Spells 1 2 ∧
    (Quantifier.between 0 1).Spells 0 1 ∧ (Quantifier.between 1 3).Spells 1 (2 + 1) ∧
    matchAt [⟨X, .between 1 2, ⟨0, 10⟩⟩, ⟨X, .between 0 1, ⟨10, 20⟩⟩] ['x', 'a', 'b', 'a', 'a', 'b'] 1 =
      some ⟨1, ['a', 'b', 'a', 'a', 'b']⟩ ∧
    matchAt [⟨X, .once, ⟨0, 10⟩⟩, ⟨X, .zeroOrMore, ⟨10, 20⟩⟩] ['x', 'a', 'b', 'a', 'a', 'b'] 1 =
      some ⟨1, ['a', 'b', 'a', 'a', 'b']⟩ := by
  have hsize : Text.size ['x', 'a', 'b', 'a', 'a', 'b'] < 4294967296 := by decide
  have hfirst : (Quantifier.between 1 2).Spells 1 2 := Quantifier.spells_between (by decide)
  have hsecond : (Quantifier.between 0 1).Spells 0 1 := ⟨rfl, Nat.cast_one, bot_le⟩
  have hboth : (Quantifier.between 1 3).Spells 1 (2 + 1) := ⟨rfl, Nat.cast_add 2 1, le_add_self⟩
  refine ⟨_, rfl, hsize, hfirst, hsecond, hboth, ?_, ?_⟩
  · rw [(matchAt_split hsize _ 1 ⟨0, 10⟩ ⟨10, 20⟩ ⟨0, 10⟩).1 1 2 1 _ _ _ hfirst hsecond hboth]
    decide +kernel
  · rw [(matchAt_split hsize _ 1 ⟨0, 10⟩ ⟨10, 20⟩ ⟨0, 10⟩).2.2.1]
    decide +kernel

end PatternWalk
