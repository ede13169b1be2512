import PatternWalk.Evaluation
import PatternWalk.Proofs.Places
/-!
# Observing — who watches an evaluation has no say in it

The same evaluation without an observer is `past?`: the place past a node, a term or a pattern.  Whatever the observer
makes of the events, and whatever it has seen before, the result of a run is that place (`fst_run`).
-/
namespace PatternWalk

def repeatQuietly (once : Place → Option Place) (q : Quantifier) (count : UInt32) (here : Place) : UInt32 × Place :=
  if q.allowsAnother count then
    match once here with
    | none => (count, here)
    | some there =>
      if there.rest.length < here.rest.length then repeatQuietly once q (count + 1) there
      else (max (Quantifier.countOn count) q.least, here)
  else (count, here)
termination_by here.rest.length

mutual
def Node.past? : Node → Place → Option Place
  | .literal text, here => here.pastWord? text
  | .charSet set, here => here.pastChar? set.accepts
  | .group body, here => Pattern.past? body here
def Term.past? : Term → Place → Option Place
  | ⟨node, q, _⟩, here =>
    if q.isSatisfiedBy (repeatQuietly node.past? q 0 here).1 then some (repeatQuietly node.past? q 0 here).2 else none
/-- **The place past a pattern**, each of whose terms starts where the one before it ended. -/
def Pattern.past? : Pattern → Place → Option Place
  | [], here => some here
  | t :: p, here => (t.past? here).bind (Pattern.past? p)
end

/-! ## A run ends where the evaluation without an observer does -/

theorem fst_repeatGreedily {σ : Type} {atom : Place → σ → Option Place × σ} {once : Place → Option Place}
    {report : Nat → Nat → σ → σ} {q : Quantifier} (h : ∀ here seen, (atom here seen).1 = once here) (count : UInt32)
    (here : Place) (seen : σ) : (repeatGreedily atom report q count here seen).1 = repeatQuietly once q count here := by
  unfold repeatGreedily repeatQuietly
  rw [← h here seen]
  by_cases hq : q.allowsAnother count = true
  · rw [if_pos hq, if_pos hq]
    obtain ⟨there?, seen'⟩ := atom here seen
    cases there? with
    | none => rfl
    | some there =>
      by_cases hlt : there.rest.length < here.rest.length
      · simp only [if_pos hlt]
        exact fst_repeatGreedily h (count + 1) there _
      · simp only [if_neg hlt]
  · rw [if_neg hq, if_neg hq]
termination_by here.rest.length

section
variable {σ : Type} (observe : Observer σ)

mutual
theorem Node.fst_run : ∀ (n : Node) (depth : Nat) (here : Place) (seen : σ),
    (n.run observe depth here seen).1 = n.past? here
  | .literal _, _, _, _ | .charSet _, _, _, _ => rfl
  | .group body, depth, here, seen => Pattern.fst_run body (depth + 1) here seen
theorem Term.fst_run : ∀ (t : Term) (depth : Nat) (here : Place) (seen : σ),
    (t.run observe depth here seen).1 = t.past? here
  | ⟨n, q, span⟩, depth, here, seen => by
    have hloop : ∀ (report : Nat → Nat → σ → σ) (seen : σ),
        (repeatGreedily (n.run observe depth) report q 0 here seen).1 = repeatQuietly n.past? q 0 here :=
      fun _ seen => fst_repeatGreedily (Node.fst_run n depth) 0 here seen
    unfold Term.run Term.past?
    simp only [hloop]
    split <;> rfl
/-- **The result of a run is the place past the pattern**, whoever observes it. -/
theorem Pattern.fst_run : ∀ (p : Pattern) (depth : Nat) (here : Place) (seen : σ),
    (Pattern.run observe p depth here seen).1 = Pattern.past? p here
  | [], _, _, _ => rfl
  | t :: p, depth, here, seen => by
    unfold Pattern.run Pattern.past?
    rw [← t.fst_run depth here seen]
    obtain ⟨there?, seen'⟩ := t.run observe depth here seen
    cases there? with
    | none => rfl
    | some there => exact Pattern.fst_run p depth there seen'
end

end

theorem Pattern.fst_evaluateAt {σ : Type} (observe : Observer σ) (p : Pattern) (source : Text) (offset : Nat)
    (seen : σ) : (p.evaluateAt observe source offset seen).1 =
      (source.place? offset).bind fun here => (p.past? here).map fun there => ⟨offset, here.textTo there⟩ := by
  unfold evaluateAt evaluate
  cases source.place? offset with
  | none => rfl
  | some here =>
    dsimp only
    rw [p.fst_run observe]
    rfl

theorem Pattern.evaluateAt_of_place? {σ : Type} (observe : Observer σ) (p : Pattern) {source : Text} {offset : Nat}
    {here : Place} (hhere : source.place? offset = some here) (seen : σ) : p.evaluateAt observe source offset seen =
      ((p.evaluate observe here seen).1.map fun there => ⟨offset, here.textTo there⟩,
        (p.evaluate observe here seen).2) := by
  unfold evaluateAt
  rw [hhere]

theorem Pattern.matchAt_of_place? (p : Pattern) {source : Text} {here : Place}
    (hhere : source.place? here.offset = some here) : p.matchAt source here.offset =
      (p.past? here).map fun there => ⟨here.offset, here.textTo there⟩ := by
  rw [matchAt, fst_evaluateAt, hhere, Option.bind_some]

theorem Pattern.past?_eq_foldlM : ∀ (p : Pattern) (here : Place),
    p.past? here = p.foldlM (fun here t => t.past? here) here
  | [], _ => rfl
  | t :: p, here => by
    rw [Pattern.past?, List.foldlM_cons]
    exact congrArg _ (funext (Pattern.past?_eq_foldlM p))

end PatternWalk
