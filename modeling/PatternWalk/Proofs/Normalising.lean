import Mathlib.Order.Bounds.Basic
import PatternWalk.Proofs.Canonical
/-!
# Normalising — coalescing as a normal form

A run is a stretch of unquantified literals, or any other term alone.  A pattern is cut into its longest runs in one way
only (`longestRuns_iff`), and coalescing is determined by them: each run has one term in its place (`coalesce_eq_iff`).
Nothing is left to join then, so coalescing again, or coalescing parts first, comes to the same.  It can be done in one
pass from the left that looks at no more than the last term put out (`coalesce_eq_foldl`).
-/
namespace PatternWalk

/-! ## Longest runs -/

namespace Term

/-- **A run**: unquantified literals, one at least, or any other term alone. -/
def IsRun (run : List Term) : Prop :=
  (∃ t, run = [t] ∧ t.isPlain = false) ∨ run ≠ [] ∧ ∀ t ∈ run, t.isPlain = true

/-- **The term in the place of a run.**  Unquantified literals become one unquantified literal, which has their texts in
a row, and the span from the least of their starts to the greatest of their ends.  Any other term stays as it is. -/
inductive Replaces : List Term → Term → Prop
  | alone {t} (hother : t.isPlain = false) : Replaces [t] t
  | joined {run span} (hplain : ∀ t ∈ run, t.isPlain = true)
      (hstart : IsLeast {n | ∃ t ∈ run, t.span.start = n} span.start)
      (hstop : IsGreatest {n | ∃ t ∈ run, t.span.stop = n} span.stop) :
    Replaces run ⟨.literal (run.flatMap literalText), .once, span⟩

variable {t : Term} {run next : List Term}

theorem isPlain_of_adjoins : ∀ {t u : Term} {run : List Term}, (t :: u :: run).IsChain (adjoins · ·) →
    ∀ v ∈ t :: u :: run, v.isPlain = true
  | t, u, run, h, v, hv => by
    obtain ⟨htu, hrest⟩ := List.isChain_cons_cons.1 h
    obtain ⟨ht, hu⟩ : t.isPlain = true ∧ u.isPlain = true := by simpa [adjoins] using htu
    cases run with
    | nil =>
      rcases List.mem_pair.1 hv with rfl | rfl
      · exact ht
      · exact hu
    | cons w run =>
      rcases List.mem_cons.1 hv with rfl | hv
      · exact ht
      · exact isPlain_of_adjoins hrest v hv

/-- **In a run each term is joined to the next.** -/
theorem isRun_iff : IsRun run ↔ run ≠ [] ∧ run.IsChain (adjoins · ·) := by
  constructor
  · rintro (⟨t, rfl, -⟩ | ⟨hne, hplain⟩)
    · exact ⟨List.cons_ne_nil t [], List.isChain_singleton t⟩
    · have hall : run.Pairwise (adjoins · ·) := List.pairwise_of_forall_mem_list fun t ht u hu => by
        simp [adjoins, hplain t ht, hplain u hu]
      exact ⟨hne, hall.isChain⟩
  · rintro ⟨hne, hchain⟩
    cases run with
    | nil => exact absurd rfl hne
    | cons t run =>
      cases run with
      | nil =>
        cases ht : t.isPlain with
        | false => exact .inl ⟨t, rfl, ht⟩
        | true => exact .inr ⟨hne, by simpa using ht⟩
      | cons u run => exact .inr ⟨hne, isPlain_of_adjoins hchain⟩

theorem isRun_append_iff (hrun : IsRun run) (hnext : IsRun next) : IsRun (run ++ next) ↔
    (run.getLast (isRun_iff.1 hrun).1).adjoins (next.head (isRun_iff.1 hnext).1) = true := by
  obtain ⟨hne, hchain⟩ := isRun_iff.1 hrun
  obtain ⟨hne', hchain'⟩ := isRun_iff.1 hnext
  rw [isRun_iff, List.isChain_append, List.getLast?_eq_some_getLast hne, List.head?_eq_some_head hne']
  simp [hne, hchain, hchain']

theorem isLeast_iff {f : Term → Nat} {n : Nat} :
    IsLeast {n | ∃ t ∈ run, f t = n} n ↔ (run.map f).min? = some n := by
  rw [List.min?_eq_some_iff]
  simp [IsLeast, lowerBounds]

theorem isGreatest_iff {f : Term → Nat} {n : Nat} :
    IsGreatest {n | ∃ t ∈ run, f t = n} n ↔ (run.map f).max? = some n := by
  rw [List.max?_eq_some_iff]
  simp [IsGreatest, upperBounds]

theorem ofRun_of_isPlain (hne : run ≠ []) (hplain : ∀ t ∈ run, t.isPlain = true) : ofRun run =
    ⟨.literal (run.flatMap literalText), .once,
      ⟨(run.map (·.span.start)).min?.getD 0, (run.map (·.span.stop)).max?.getD 0⟩⟩ := by
  cases run with
  | nil => exact absurd rfl hne
  | cons t run =>
    cases run with
    | nil =>
      obtain ⟨text, span, rfl⟩ := isPlain_iff.1 (hplain t List.mem_cons_self)
      simp [ofRun, literalText]
    | cons u run => rfl

theorem replaces_iff (hrun : IsRun run) : Replaces run t ↔ ofRun run = t := by
  constructor
  · rintro (hother | @⟨run, span, hplain, hstart, hstop⟩)
    · rfl
    · rw [ofRun_of_isPlain (isRun_iff.1 hrun).1 hplain, isLeast_iff.1 hstart, isGreatest_iff.1 hstop]
      rfl
  · rintro rfl
    rcases hrun with ⟨t, rfl, hother⟩ | ⟨hne, hplain⟩
    · exact .alone hother
    · obtain ⟨start, hstart⟩ := Option.ne_none_iff_exists'.1 fun hnone : (run.map (·.span.start)).min? = none =>
        hne (List.map_eq_nil_iff.1 (List.min?_eq_none_iff.1 hnone))
      obtain ⟨stop, hstop⟩ := Option.ne_none_iff_exists'.1 fun hnone : (run.map (·.span.stop)).max? = none =>
        hne (List.map_eq_nil_iff.1 (List.max?_eq_none_iff.1 hnone))
      rw [ofRun_of_isPlain hne hplain, hstart, hstop]
      exact .joined hplain (isLeast_iff.2 hstart) (isGreatest_iff.2 hstop)

end Term

namespace Pattern

/-- **A pattern is cut into its longest runs**: two neighbours of them are no run together. -/
structure LongestRuns (p : Pattern) (runs : List (List Term)) : Prop where
  flatten : runs.flatten = p
  isRun : ∀ run ∈ runs, Term.IsRun run
  longest : runs.IsChain fun run next => ¬Term.IsRun (run ++ next)

/-- **There is one way to cut a pattern into its longest runs.** -/
theorem longestRuns_iff {p : Pattern} {runs : List (List Term)} :
    p.LongestRuns runs ↔ p.splitBy Term.adjoins = runs := by
  rw [List.splitBy_eq_iff]
  constructor
  · rintro ⟨rfl, hrun, hlongest⟩
    refine ⟨rfl, fun hnil => ?_, fun run hmem => (Term.isRun_iff.1 (hrun run hmem)).2, ?_⟩
    · exact (Term.isRun_iff.1 (hrun [] hnil)).1 rfl
    · refine hlongest.imp_of_mem_tail_imp fun run next hmem hmem' hnot => ?_
      have hthis := hrun run hmem
      have hnext := hrun next (List.mem_of_mem_tail hmem')
      exact ⟨_, _, Bool.eq_false_of_not_eq_true fun hjoins => hnot ((Term.isRun_append_iff hthis hnext).2 hjoins)⟩
  · rintro ⟨rfl, hnil, hchain, hends⟩
    have hrun : ∀ run ∈ runs, Term.IsRun run := fun run hmem =>
      Term.isRun_iff.2 ⟨fun he => hnil (he ▸ hmem), hchain run hmem⟩
    refine ⟨rfl, hrun, hends.imp_of_mem_tail_imp fun run next hmem hmem' => ?_⟩
    rintro ⟨hne, hne', hapart⟩ htogether
    have hjoins := (Term.isRun_append_iff (hrun run hmem) (hrun next (List.mem_of_mem_tail hmem'))).1 htogether
    rw [hapart] at hjoins
    cases hjoins

/-- **Coalescing is what the longest runs make it**: one term for each of them, in order. -/
theorem coalesce_eq_iff {p out : Pattern} :
    coalesce p = out ↔ ∃ runs, p.LongestRuns runs ∧ List.Forall₂ Term.Replaces runs out := by
  constructor
  · rintro rfl
    have hruns : p.LongestRuns (p.splitBy Term.adjoins) := longestRuns_iff.2 rfl
    refine ⟨_, hruns, ?_⟩
    rw [coalesce_eq_joinRuns, joinRuns, List.forall₂_map_right_iff, List.forall₂_same]
    exact fun run hmem => (Term.replaces_iff (hruns.isRun run hmem)).2 rfl
  · rintro ⟨runs, hruns, hout⟩
    have hof : List.Forall₂ (fun run t => Term.ofRun run = t) runs out :=
      ((List.forall₂_and_left runs out).2 ⟨hruns.isRun, hout⟩).imp fun _ _ h => (Term.replaces_iff h.1).1 h.2
    rw [coalesce_eq_joinRuns, joinRuns, longestRuns_iff.1 hruns]
    rwa [← List.forall₂_map_left_iff, List.forall₂_eq_eq_eq] at hof

/-! ## From left to right -/

def joinBehind : Pattern → Term → Pattern
  | [], t => [t]
  | [u], t =>
    match u.join? t with
    | some joined => [joined]
    | none => [u, t]
  | u :: v :: p, t => u :: joinBehind (v :: p) t

theorem isPlain_head_joinBehind (u t : Term) (p : Pattern) :
    ∀ v ∈ (joinBehind (u :: p) t).head?, v.isPlain = u.isPlain := by
  intro v hv
  cases p with
  | nil =>
    rw [joinBehind] at hv
    split at hv
    · rename_i joined hjoined
      obtain ⟨s, s', a, b, rfl, rfl, rfl⟩ := exists_of_join? hjoined
      cases hv
      rfl
    · cases hv
      rfl
  | cons w p =>
    cases hv
    rfl

theorem Separated.coalesce_concat : ∀ {p : Pattern}, Separated p → ∀ t : Term, coalesce (p ++ [t]) = joinBehind p t
  | [], _, _ => rfl
  | [u], _, t => rfl
  | u :: v :: p, h, t => by
    obtain ⟨huv, hp⟩ := List.isChain_cons_cons.1 h
    have hapart : ∀ w ∈ (joinBehind (v :: p) t).head?, u.adjoins w = false := fun w hw => by
      rwa [Term.adjoins, isPlain_head_joinBehind v t p w hw, ← Term.adjoins]
    rw [List.cons_append, coalesce, Separated.coalesce_concat hp t, prepend_of_not_adjoins hapart, joinBehind]

theorem coalesce_concat (p : Pattern) (t : Term) : coalesce (p ++ [t]) = joinBehind (coalesce p) t := by
  rw [← coalesce_coalesce_append, (separated_coalesce p).coalesce_concat]

/-- **Coalescing in one pass**: what is put out is coalesced all along, and each term changes only its last term. -/
theorem coalesce_eq_foldl (p : Pattern) : coalesce p = p.foldl joinBehind [] := by
  induction p using List.reverseRecOn with
  | nil => rfl
  | append_singleton p t ih => rw [coalesce_concat, ih, List.foldl_concat]

/-- **Coalescing normalises a pattern.**  It is cut into its longest runs in one way.  Coalesced it is the pattern that
has, in order, one term for each of them: the texts of a run of unquantified literals in a row, from their least start
to their greatest end, or the other term as it was.  That is what one pass from the left puts out.  No two neighbours
are both unquantified literals then.  Coalescing twice is coalescing once, and parts may be coalesced before the
whole. -/
theorem coalesce_normalises (p q : Pattern) :
    (∃! runs, p.LongestRuns runs) ∧
    (∀ out, coalesce p = out ↔ ∃ runs, p.LongestRuns runs ∧ List.Forall₂ Term.Replaces runs out) ∧
    coalesce p = p.foldl joinBehind [] ∧
    Separated (coalesce p) ∧
    coalesce (coalesce p) = coalesce p ∧
    coalesce (p ++ q) = coalesce (coalesce p ++ coalesce q) := by
  refine ⟨?_, fun out => coalesce_eq_iff, coalesce_eq_foldl p, separated_coalesce p, coalesce_coalesce p, ?_⟩
  · exact ⟨_, longestRuns_iff.2 rfl, fun runs hruns => (longestRuns_iff.1 hruns).symm⟩
  · rw [coalesce_append_coalesce, coalesce_coalesce_append]

/-- A quantified literal stays apart, so that its quantifier still applies to it alone. -/
example : coalesce [⟨.literal ['a'], .once, ⟨0, 1⟩⟩, ⟨.literal ['b'], .once, ⟨1, 2⟩⟩,
      ⟨.literal ['c'], .zeroOrMore, ⟨2, 4⟩⟩, ⟨.literal ['d'], .once, ⟨4, 5⟩⟩] =
    [⟨.literal ['a', 'b'], .once, ⟨0, 2⟩⟩, ⟨.literal ['c'], .zeroOrMore, ⟨2, 4⟩⟩,
      ⟨.literal ['d'], .once, ⟨4, 5⟩⟩] := rfl

end Pattern

end PatternWalk
