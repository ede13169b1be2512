import PatternWalk.Proofs.Observing
/-!
# Chains — what greedy repetition amounts to

A chain of repetitions is one that the greedy loop makes: every repetition but the last thing tried gets on.  The loop
makes the longest chain that the quantifier allows, and there is only one of them.  So what a term does at a place can
be said without the loop (`run_eq_some_iff_greedy`), as long as the count of repetitions fits a word.
-/
namespace PatternWalk

/-! ## Matching gets on, or stays -/

def Advances (once : Place → Option Place) : Prop :=
  ∀ {here there : Place}, once here = some there → ∃ word, here.Passes word there

/-- **A chain of repetitions**: each starts where the one before it ended, and ends further on.  The list holds the
places where they ended. -/
inductive Chain (once : Place → Option Place) : Place → List Place → Place → Prop
  | rest {here} : Chain once here [] here
  | step {here next there stops} (h : once here = some next) (forward : here.offset < next.offset)
      (hs : Chain once next stops there) : Chain once here (next :: stops) there

variable {once : Place → Option Place} {q : Quantifier} {here there : Place} {stops : List Place}

theorem Chain.passes (hadv : Advances once) (h : Chain once here stops there) : ∃ word, here.Passes word there := by
  induction h with
  | rest => exact ⟨[], .refl _⟩
  | step h _ _ ih =>
    obtain ⟨word, hword⟩ := hadv h
    obtain ⟨word', hword'⟩ := ih
    exact ⟨word ++ word', hword.trans hword'⟩

theorem Chain.length_le (hadv : Advances once) (h : Chain once here stops there) :
    stops.length ≤ here.rest.length := by
  induction h with
  | rest => exact Nat.zero_le _
  | @step here next there stops h forward _ ih =>
    obtain ⟨word, hword⟩ := hadv h
    by_cases hlt : next.rest.length < here.rest.length
    · rw [List.length_cons]
      omega
    · obtain ⟨-, rfl⟩ := hword.eq_of_not_lt hlt
      omega

/-! ## The greedy loop makes a chain -/

/-- **Why the loop ends** on a place with a count, and the count it reports. -/
inductive Halts (once : Place → Option Place) (q : Quantifier) (count : UInt32) (there : Place) : UInt32 → Prop
  | full (h : q.allowsAnother count = false) : Halts once q count there count
  | fails (h : q.allowsAnother count = true) (hnone : once there = none) : Halts once q count there count
  | stays (h : q.allowsAnother count = true) (hsome : once there = some there) :
    Halts once q count there (max (Quantifier.countOn count) q.least)

/-- **What the loop does**: it makes the repetitions of a chain, each of them allowed, and then ends. -/
structure Loops (once : Place → Option Place) (q : Quantifier) (count : UInt32) (here : Place) (stops : List Place)
    (result : UInt32 × Place) : Prop where
  chain : Chain once here stops result.2
  allowed : ∀ k < stops.length, q.allowsAnother (count + UInt32.ofNat k) = true
  halts : Halts once q (count + UInt32.ofNat stops.length) result.2 result.1

/-- From the first repetition on the count is the number of repetitions, as far as a word holds it. -/
theorem Loops.halts_ofNat {count : UInt32} (h : Loops once q 0 here stops (count, there)) :
    Halts once q (UInt32.ofNat stops.length) there count := by
  have hhalts := h.halts
  rwa [UInt32.zero_add] at hhalts

theorem add_ofNat_succ (count : UInt32) (k : Nat) : count + 1 + UInt32.ofNat k = count + UInt32.ofNat (k + 1) := by
  rw [UInt32.ofNat_add, UInt32.add_comm (UInt32.ofNat k), ← UInt32.add_assoc]
  rfl

theorem exists_loops (hadv : Advances once) (count : UInt32) (here : Place) :
    ∃ stops, Loops once q count here stops (repeatQuietly once q count here) := by
  unfold repeatQuietly
  have hzero : count + UInt32.ofNat ([] : List Place).length = count := UInt32.add_zero count
  have hnone : ∀ k < ([] : List Place).length, q.allowsAnother (count + UInt32.ofNat k) = true :=
    fun k hk => absurd hk (Nat.not_lt_zero k)
  by_cases hq : q.allowsAnother count = true
  · rw [if_pos hq]
    cases honce : once here with
    | none => exact ⟨[], .rest, hnone, hzero.symm ▸ .fails hq honce⟩
    | some next =>
      obtain ⟨word, hword⟩ := hadv honce
      dsimp only
      by_cases hlt : next.rest.length < here.rest.length
      · rw [if_pos hlt]
        obtain ⟨stops, hchain, hallowed, hhalts⟩ := exists_loops hadv (count + 1) next
        refine ⟨next :: stops, .step honce (hword.offset_lt hlt) hchain, fun k hk => ?_, ?_⟩
        · cases k with
          | zero => simpa using hq
          | succ k =>
            rw [← add_ofNat_succ]
            exact hallowed k (Nat.lt_of_succ_lt_succ hk)
        · rw [add_ofNat_succ] at hhalts
          exact hhalts
      · rw [if_neg hlt]
        obtain ⟨-, rfl⟩ := hword.eq_of_not_lt hlt
        have hstays := Halts.stays hq honce
        exact ⟨[], .rest, hnone, hzero.symm ▸ hstays⟩
  · rw [if_neg hq]
    exact ⟨[], .rest, hnone, hzero.symm ▸ .full (by simpa using hq)⟩
termination_by here.rest.length

mutual
theorem Node.advances : ∀ n : Node, Advances n.past?
  | .literal text, _, _, h => ⟨text, Place.pastWord?_eq_some_iff.1 h⟩
  | .charSet set, _, _, h => by
    obtain ⟨c, -, hc⟩ := Place.pastChar?_eq_some_iff.1 h
    exact ⟨[c], hc⟩
  | .group body, _, _, h => Pattern.advances body h
theorem Term.advances : ∀ t : Term, Advances t.past?
  | ⟨n, q, _⟩, here, there, h => by
    unfold Term.past? at h
    obtain ⟨stops, hloop⟩ := exists_loops (Node.advances n) 0 here
    split at h
    · cases h
      exact hloop.chain.passes (Node.advances n)
    · cases h
theorem Pattern.advances : ∀ p : Pattern, Advances (Pattern.past? p)
  | [], here, _, h => ⟨[], Option.some.inj h ▸ .refl here⟩
  | t :: p, _, _, h => by
    obtain ⟨next, ht, hp⟩ := Option.bind_eq_some_iff.1 h
    obtain ⟨word, hword⟩ := Term.advances t ht
    obtain ⟨word', hword'⟩ := Pattern.advances p hp
    exact ⟨word ++ word', hword.trans hword'⟩
end

/-! ## The count is exact -/

namespace Quantifier

def Below (q : Quantifier) (k : Nat) : Prop := ∀ most ∈ q.most?, k < most.toNat

def Reached (q : Quantifier) (k : Nat) : Prop := ∃ most ∈ q.most?, k = most.toNat

theorem below_iff_allowsAnother {n : UInt32} : q.Below n.toNat ↔ q.allowsAnother n = true := by
  unfold Below allowsAnother
  cases q.most? with
  | none => simp
  | some most => simp [UInt32.lt_iff_toNat_lt]

theorem reached_of_not_allowsAnother {n : UInt32} (h : q.allowsAnother n = false)
    (hbefore : ∀ k < n.toNat, q.Below k) : q.Reached n.toNat := by
  unfold allowsAnother at h
  split at h
  · rename_i most hm
    have hle : ¬n < most := by simpa using h
    rw [UInt32.lt_iff_toNat_lt] at hle
    refine ⟨most, hm, ?_⟩
    by_cases hzero : n.toNat = 0
    · omega
    · have := hbefore (n.toNat - 1) (by omega) most hm
      omega
  · cases h

end Quantifier

/-- **The count is the number of repetitions**, if that is bounded by the quantifier or fits a word. -/
theorem Loops.toNat_eq {result : UInt32 × Place} (h : Loops once q 0 here stops result)
    (hbound : q.most? ≠ none ∨ stops.length < 4294967296) :
    ∀ k ≤ stops.length, (UInt32.ofNat k).toNat = k
  | 0, _ => rfl
  | k + 1, hk => by
    have hprev : (UInt32.ofNat k).toNat = k := h.toNat_eq hbound k (by omega)
    refine UInt32.toNat_ofNat_of_lt' ?_
    rw [UInt32.size]
    rcases hbound with hq | hlt
    · obtain ⟨most, hm⟩ := Option.ne_none_iff_exists'.1 hq
      have hallowed : q.allowsAnother (.ofNat k) = true := by simpa using h.allowed k hk
      have hbelow : q.Below k := hprev ▸ Quantifier.below_iff_allowsAnother.2 hallowed
      have := hbelow most hm
      have := most.toNat_lt
      omega
    · omega

theorem Loops.below {result : UInt32 × Place} (h : Loops once q 0 here stops result)
    (hbound : q.most? ≠ none ∨ stops.length < 4294967296) {k : Nat} (hk : k < stops.length) : q.Below k := by
  have hallowed : q.allowsAnother (.ofNat k) = true := by simpa using h.allowed k hk
  exact h.toNat_eq hbound k (Nat.le_of_lt hk) ▸ Quantifier.below_iff_allowsAnother.2 hallowed

end PatternWalk
