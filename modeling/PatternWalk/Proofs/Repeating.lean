import Mathlib.Data.ENat.Lattice
import PatternWalk.Proofs.Careful
import PatternWalk.Proofs.Denotation
import PatternWalk.Proofs.Matching
/-!
# Repeating — repetitions that must be made, and repetitions that may

The greedy loop makes one repetition after the other and counts.  What it amounts to can be said with two functions that
do not count: `times` makes a number of repetitions and fails if one of them does, and `upTo` makes repetitions up to a
number as long as they get on.  A term makes the least number its quantifier asks for, and then as many as it still
allows (`Term.past?_eq_times`).  A repetition that matches the empty text fits in without a case of its own: every
further one can be made, and none of them gets on.
-/
namespace PatternWalk

/-! ## How many repetitions a quantifier allows -/

namespace Quantifier

def greatest (q : Quantifier) : ℕ∞ :=
  match q.most? with
  | some most => (most.toNat : ℕ∞)
  | none => ⊤

theorem allowsAnother_iff {q : Quantifier} {count : UInt32} :
    q.allowsAnother count = true ↔ (count.toNat : ℕ∞) < q.greatest := by
  unfold allowsAnother greatest
  cases q.most? with
  | none => simp
  | some most => simp [UInt32.lt_iff_toNat_lt]

theorem inOrder_iff {q : Quantifier} : q.InOrder ↔ (q.least.toNat : ℕ∞) ≤ q.greatest := by
  cases q <;> simp [InOrder, greatest, most?, least, UInt32.le_iff_toNat_le]

/-- **The quantifier says `{least,greatest}`**, in whatever way it is written. -/
structure Spells (q : Quantifier) (least : ℕ) (greatest : ℕ∞) : Prop where
  least_eq : q.least.toNat = least
  greatest_eq : q.greatest = greatest
  ordered : (least : ℕ∞) ≤ greatest

theorem Spells.inOrder {q : Quantifier} {m : ℕ} {n : ℕ∞} (h : q.Spells m n) : q.InOrder := by
  rw [inOrder_iff, h.least_eq, h.greatest_eq]
  exact h.ordered

theorem spells_between {low high : UInt32} (h : low ≤ high) : (between low high).Spells low.toNat high.toNat :=
  ⟨rfl, rfl, Nat.cast_le.2 (UInt32.le_iff_toNat_le.1 h)⟩

theorem spells_zeroOrMore : zeroOrMore.Spells 0 ⊤ := ⟨rfl, rfl, le_top⟩

theorem spells_oneOrMore : oneOrMore.Spells 1 ⊤ := ⟨rfl, rfl, le_top⟩

theorem spells_zeroOrOne : zeroOrOne.Spells 0 1 := ⟨rfl, Nat.cast_one, bot_le⟩

end Quantifier

/-! ## Repetitions without a count -/

def times (once : Place → Option Place) : ℕ → Place → Option Place
  | 0, here => some here
  | k + 1, here => (once here).bind (times once k)

def further (once : Place → Option Place) (here : Place) : Place := (once here).getD here

/-- **As many repetitions as match, up to `k` of them.**  No more of them get on than there are characters ahead. -/
noncomputable def upTo (once : Place → Option Place) (k : ℕ∞) (here : Place) : Place :=
  (further once)^[(min k here.rest.length).toNat] here

section
variable {once : Place → Option Place} {here there : Place}

theorem times_add (once : Place → Option Place) (j k : ℕ) (here : Place) :
    times once (j + k) here = (times once j here).bind (times once k) := by
  induction j generalizing here with
  | zero => simp [times]
  | succ j ih =>
    rw [Nat.succ_add, times, times]
    cases once here with
    | none => rfl
    | some there => exact ih there

theorem times_of_stays (h : once here = some here) (k : ℕ) : times once k here = some here := by
  induction k with
  | zero => rfl
  | succ k ih => rw [times, h, Option.bind_some, ih]

theorem iterate_of_stuck (h : further once here = here) (k : ℕ) : (further once)^[k] here = here :=
  Function.iterate_fixed h k

theorem Advances.further_eq_or_lt (hadv : Advances once) (here : Place) :
    further once here = here ∨ (further once here).rest.length < here.rest.length := by
  unfold further
  cases honce : once here with
  | none => exact .inl rfl
  | some there =>
    obtain ⟨word, hword⟩ := hadv honce
    by_cases hlt : there.rest.length < here.rest.length
    · exact .inr hlt
    · exact .inl (hword.eq_of_not_lt hlt).2

/-- **After as many repetitions as there are characters ahead** no further one gets on. -/
theorem Advances.iterate_eq_of_length_le (hadv : Advances once) {j k : ℕ} (hj : here.rest.length ≤ j)
    (hk : here.rest.length ≤ k) : (further once)^[j] here = (further once)^[k] here := by
  induction j generalizing here k with
  | zero =>
    rcases hadv.further_eq_or_lt here with hstuck | hlt
    · rw [iterate_of_stuck hstuck, iterate_of_stuck hstuck]
    · omega
  | succ j ih =>
    rcases hadv.further_eq_or_lt here with hstuck | hlt
    · rw [iterate_of_stuck hstuck, iterate_of_stuck hstuck]
    · obtain ⟨k, rfl⟩ : ∃ i, k = i + 1 := ⟨k - 1, by omega⟩
      rw [Function.iterate_succ_apply, Function.iterate_succ_apply]
      exact ih (by omega) (by omega)

theorem Advances.length_iterate_le (hadv : Advances once) (k : ℕ) (here : Place) :
    ((further once)^[k] here).rest.length ≤ here.rest.length := by
  induction k generalizing here with
  | zero => exact Nat.le_refl _
  | succ k ih =>
    rw [Function.iterate_succ_apply]
    refine (ih _).trans ?_
    rcases hadv.further_eq_or_lt here with hstuck | hlt
    · rw [hstuck]
    · exact hlt.le

theorem Advances.upTo_natCast (hadv : Advances once) (k : ℕ) (here : Place) :
    upTo once k here = (further once)^[k] here := by
  unfold upTo
  by_cases hk : k ≤ here.rest.length
  · rw [min_eq_left (Nat.cast_le.2 hk), ENat.toNat_natCast]
  · have hlength : here.rest.length ≤ k := by omega
    rw [min_eq_right (Nat.cast_le.2 hlength), ENat.toNat_natCast]
    exact hadv.iterate_eq_of_length_le (Nat.le_refl _) hlength

theorem Advances.upTo_top (hadv : Advances once) {k : ℕ} (hk : here.rest.length ≤ k) :
    upTo once ⊤ here = (further once)^[k] here := by
  unfold upTo
  rw [min_eq_right le_top, ENat.toNat_natCast]
  exact hadv.iterate_eq_of_length_le (Nat.le_refl _) hk

theorem upTo_of_length_le {k : ℕ∞} (hk : here.rest.length ≤ k) : upTo once k here = upTo once ⊤ here := by
  unfold upTo
  rw [min_eq_right hk, min_eq_right le_top]

@[simp] theorem upTo_zero (once : Place → Option Place) (here : Place) : upTo once 0 here = here := by
  simp [upTo]

theorem upTo_of_stuck (h : further once here = here) (k : ℕ∞) : upTo once k here = here := iterate_of_stuck h _

theorem Advances.upTo_upTo (hadv : Advances once) (j k : ℕ∞) (here : Place) :
    upTo once k (upTo once j here) = upTo once (j + k) here := by
  have hlength : ∀ i : ℕ, ((further once)^[i] here).rest.length ≤ here.rest.length :=
    fun i => hadv.length_iterate_le i here
  have hall : ∀ i : ℕ, upTo once ⊤ ((further once)^[i] here) = upTo once ⊤ here := by
    intro i
    rw [hadv.upTo_top (hlength i), ← Function.iterate_add_apply]
    exact (hadv.upTo_top (Nat.le_add_right _ _)).symm
  -- where one of the two bounds is infinite, the characters ahead bound the repetitions that get on
  induction j using ENat.recTopCoe with
  | top =>
    rw [top_add, hadv.upTo_top (Nat.le_refl _)]
    induction k using ENat.recTopCoe with
    | top =>
      rw [hall]
      exact hadv.upTo_top (Nat.le_refl _)
    | coe k =>
      rw [hadv.upTo_natCast, ← Function.iterate_add_apply]
      exact hadv.iterate_eq_of_length_le (Nat.le_add_left _ _) (Nat.le_refl _)
  | coe j =>
    rw [hadv.upTo_natCast]
    induction k using ENat.recTopCoe with
    | top => rw [add_top, hall]
    | coe k => rw [hadv.upTo_natCast, ← Nat.cast_add, hadv.upTo_natCast, Nat.add_comm, Function.iterate_add_apply]

theorem Advances.upTo_one (hadv : Advances once) (here : Place) : upTo once 1 here = further once here :=
  hadv.upTo_natCast 1 here

theorem Advances.upTo_one_add (hadv : Advances once) (k : ℕ∞) (here : Place) :
    upTo once (1 + k) here = upTo once k (further once here) := by
  rw [← hadv.upTo_upTo, hadv.upTo_one]

theorem Advances.reaches_further (hadv : Advances once) (here : Place) : here.Reaches (further once here) := by
  unfold further
  cases honce : once here with
  | none => exact .refl here
  | some there => exact hadv honce

theorem Advances.reaches_upTo (hadv : Advances once) (k : ℕ∞) (here : Place) : here.Reaches (upTo once k here) := by
  unfold upTo
  generalize (min k here.rest.length).toNat = i
  induction i generalizing here with
  | zero => exact .refl here
  | succ i ih =>
    rw [Function.iterate_succ_apply]
    exact (hadv.reaches_further here).trans (ih _)

theorem further_of_some (h : once here = some there) : further once here = there := by rw [further, h]; rfl

theorem further_of_none (h : once here = none) : further once here = here := by rw [further, h]; rfl

end

/-! ## The loop makes the repetitions it must, and then those it may -/

def repeatWithin (once : Place → Option Place) (q : Quantifier) (count : UInt32) (here : Place) : Option Place :=
  if q.isSatisfiedBy (repeatQuietly once q count here).1 then some (repeatQuietly once q count here).2 else none

theorem Term.past?_eq_repeatWithin (n : Node) (q : Quantifier) (span : Span) :
    (⟨n, q, span⟩ : Term).past? = repeatWithin n.past? q 0 := rfl

section
variable {once : Place → Option Place} {q : Quantifier} {count : UInt32} {here there : Place}

theorem repeatWithin_of_full (h : ¬q.allowsAnother count = true) :
    repeatWithin once q count here = if q.isSatisfiedBy count then some here else none := by
  unfold repeatWithin repeatQuietly
  rw [if_neg h]

theorem repeatWithin_of_none (h : once here = none) :
    repeatWithin once q count here = if q.isSatisfiedBy count then some here else none := by
  unfold repeatWithin repeatQuietly
  rw [h]
  simp

theorem repeatWithin_of_stays (hallowed : q.allowsAnother count = true) (h : once here = some here) :
    repeatWithin once q count here = some here := by
  unfold repeatWithin repeatQuietly
  rw [if_pos hallowed, h]
  simp [Quantifier.isSatisfiedBy_max]

theorem repeatWithin_of_lt (hallowed : q.allowsAnother count = true) (h : once here = some there)
    (hlt : there.rest.length < here.rest.length) :
    repeatWithin once q count here = repeatWithin once q (count + 1) there := by
  have hquiet : repeatQuietly once q count here = repeatQuietly once q (count + 1) there := by
    rw [repeatQuietly, if_pos hallowed, h]
    exact if_pos hlt
  unfold repeatWithin
  rw [hquiet]

/-- **From the least number on** the loop makes the repetitions it may. -/
theorem Advances.repeatWithin_of_least_le (hadv : Advances once) (count : UInt32) (here : Place)
    (hleast : q.least.toNat ≤ count.toNat) (hroom : q.most? ≠ none ∨ count.toNat + here.rest.length < 4294967296) :
    repeatWithin once q count here = some (upTo once (q.greatest - count.toNat) here) := by
  have hsatisfied : q.isSatisfiedBy count = true := Quantifier.isSatisfiedBy_iff.2 hleast
  by_cases hallowed : q.allowsAnother count = true
  · cases honce : once here with
    | none => rw [repeatWithin_of_none honce, if_pos hsatisfied, upTo_of_stuck (further_of_none honce)]
    | some there =>
      obtain ⟨word, hword⟩ := hadv honce
      by_cases hlt : there.rest.length < here.rest.length
      · obtain ⟨-, hcount⟩ := Quantifier.countUp?_eq hallowed (hroom.imp_right fun hroom => by omega)
        have hrest : repeatWithin once q (count + 1) there = _ :=
          hadv.repeatWithin_of_least_le (count + 1) there (by omega) (hroom.imp_right fun hroom => by omega)
        have hmore : q.greatest - count.toNat = 1 + (q.greatest - (count + 1).toNat) := by
          have hle := Order.add_one_le_of_lt (Quantifier.allowsAnother_iff.1 hallowed)
          rw [hcount, Nat.cast_add, Nat.cast_one, add_comm, tsub_add_eq_tsub_tsub, tsub_add_cancel_of_le]
          exact ENat.le_sub_of_add_le_left (ENat.natCast_ne_top _) hle
        rw [repeatWithin_of_lt hallowed honce hlt, hrest, hmore, hadv.upTo_one_add, further_of_some honce]
      · obtain ⟨-, rfl⟩ := hword.eq_of_not_lt hlt
        rw [repeatWithin_of_stays hallowed honce, upTo_of_stuck (further_of_some honce)]
  · have hzero : q.greatest - count.toNat = 0 :=
      tsub_eq_zero_of_le (not_lt.1 fun hlt => hallowed (Quantifier.allowsAnother_iff.2 hlt))
    rw [repeatWithin_of_full hallowed, if_pos hsatisfied, hzero, upTo_zero]
termination_by here.rest.length

/-- **Up to the least number** the loop makes the repetitions it must, `k` of them. -/
theorem Advances.repeatWithin_of_add_eq (hadv : Advances once) (hq : q.InOrder) {k : ℕ}
    (hk : count.toNat + k = q.least.toNat) (hroom : q.most? ≠ none ∨ count.toNat + here.rest.length < 4294967296) :
    repeatWithin once q count here = (times once k here).map (upTo once (q.greatest - q.least.toNat)) := by
  induction k generalizing count here with
  | zero =>
    rw [hadv.repeatWithin_of_least_le count here hk.ge hroom, ← hk]
    rfl
  | succ k ih =>
    have hbelow : ¬q.isSatisfiedBy count = true := by
      rw [Quantifier.isSatisfiedBy_iff]
      omega
    have hallowed : q.allowsAnother count = true := by
      rw [Quantifier.allowsAnother_iff]
      refine lt_of_lt_of_le ?_ (Quantifier.inOrder_iff.1 hq)
      exact Nat.cast_lt.2 (by omega)
    cases honce : once here with
    | none =>
      rw [repeatWithin_of_none honce, if_neg hbelow, times, honce]
      rfl
    | some there =>
      obtain ⟨word, hword⟩ := hadv honce
      by_cases hlt : there.rest.length < here.rest.length
      · obtain ⟨-, hcount⟩ := Quantifier.countUp?_eq hallowed (hroom.imp_right fun hroom => by omega)
        have hrest : repeatWithin once q (count + 1) there =
            (times once k there).map (upTo once (q.greatest - q.least.toNat)) :=
          ih (by omega) (hroom.imp_right fun hroom => by omega)
        rw [repeatWithin_of_lt hallowed honce hlt, hrest, times, honce, Option.bind_some]
      · -- what matches the empty text here can be repeated as often as is asked for
        obtain ⟨-, rfl⟩ := hword.eq_of_not_lt hlt
        rw [repeatWithin_of_stays hallowed honce, times_of_stays honce, Option.map_some,
          upTo_of_stuck (further_of_some honce)]

end

/-- **What a term matches**: the repetitions that its quantifier asks for, all of which must match, and then as many as
it still allows and as get on. -/
theorem Term.past?_eq_times (n : Node) {q : Quantifier} (hq : q.InOrder) (span : Span) {here : Place}
    (hroom : q.most? ≠ none ∨ here.rest.length < 4294967296) : (⟨n, q, span⟩ : Term).past? here =
      (times n.past? q.least.toNat here).map (upTo n.past? (q.greatest - q.least.toNat)) := by
  have hzero : (0 : UInt32).toNat = 0 := rfl
  rw [Term.past?_eq_repeatWithin]
  exact Advances.repeatWithin_of_add_eq n.advances hq (by omega) (hroom.imp_right fun hroom => by omega)

theorem Term.past?_of_spells (n : Node) {q : Quantifier} {least : ℕ} {greatest : ℕ∞} (hq : q.Spells least greatest)
    (span : Span) {here : Place} (hroom : here.rest.length < 4294967296) :
    (⟨n, q, span⟩ : Term).past? here = (times n.past? least here).map (upTo n.past? (greatest - least)) := by
  rw [Term.past?_eq_times n hq.inOrder span (.inr hroom), hq.least_eq, hq.greatest_eq]

theorem Term.past?_bind_of_spells (n : Node) {q : Quantifier} {least : ℕ} {greatest : ℕ∞}
    (hq : q.Spells least greatest) (span : Span) {here : Place} (hroom : here.rest.length < 4294967296)
    {next next' : Place → Option Place}
    (h : ∀ there : Place, there.rest.length < 4294967296 → next there = next' there) :
    ((⟨n, q, span⟩ : Term).past? here).bind next =
      (times n.past? least here).bind fun mid => next' (upTo n.past? (greatest - least) mid) := by
  have hnext : ((⟨n, q, span⟩ : Term).past? here).bind next = ((⟨n, q, span⟩ : Term).past? here).bind next' := by
    -- behind the term there is no more ahead than before it, so a word can count that too
    refine Option.bind_congr fun there hthere => ?_
    obtain ⟨word, hword⟩ := Term.advances _ hthere
    have hlength := hword.length_eq
    exact h there (by omega)
  rw [hnext, Term.past?_of_spells n hq span hroom, Option.bind_map]
  rfl

/-- **Patterns that lead from every place to the same place**, where a word can count what is ahead, have the same
matches in a text whose bytes a word can count. -/
theorem Pattern.matchAt_congr_of_size {p q : Pattern} {source : Text} (hsize : source.size < 4294967296)
    (h : ∀ here : Place, here.rest.length < 4294967296 → p.past? here = q.past? here) (offset : Nat) :
    p.matchAt source offset = q.matchAt source offset := by
  rw [matchAt, matchAt, fst_evaluateAt, fst_evaluateAt]
  cases hplace : source.place? offset with
  | none => rfl
  | some here =>
    have hroom : here.rest.length < 4294967296 := Nat.lt_of_le_of_lt (Text.length_rest_le hplace) hsize
    rw [Option.bind_some, Option.bind_some, h here hroom]

end PatternWalk
