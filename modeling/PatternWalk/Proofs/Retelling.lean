import PatternWalk.Proofs.Extent
/-!
# Retelling — one observer's memory made from another's

Two observers may watch the same evaluation.  If, event by event, what the second holds can be told from what the first
holds, then it can at the end (`Pattern.evaluateAt_told`): evaluation goes the same way whatever is held.  So a log is
the same behind any lines collected before it, and every observer's memory is told from the recorded events.
-/
namespace PatternWalk

section
variable {σ τ : Type} (tell : σ → τ)

def Told {α : Type} (run : σ → α × σ) (run' : τ → α × τ) : Prop :=
  ∀ seen : σ, run' (tell seen) = ((run seen).1, tell (run seen).2)

/-- **An observer's memory is told from another's**, after each event. -/
def Observer.Told (observe : Observer σ) (observe' : Observer τ) : Prop :=
  ∀ (seen : σ) (event : Event), observe' (tell seen) event = tell (observe seen event)

variable {tell}

theorem repeatGreedily_told {atom : Place → σ → Option Place × σ} {atom' : Place → τ → Option Place × τ}
    {report : Nat → Nat → σ → σ} {report' : Nat → Nat → τ → τ} (hatom : ∀ here, Told tell (atom here) (atom' here))
    (hreport : ∀ start stop seen, report' start stop (tell seen) = tell (report start stop seen)) (q : Quantifier)
    (count : UInt32) (here : Place) :
    Told tell (repeatGreedily atom report q count here) (repeatGreedily atom' report' q count here) := by
  intro seen
  unfold repeatGreedily
  by_cases hallowed : q.allowsAnother count = true
  · rw [if_pos hallowed, if_pos hallowed, hatom here seen]
    generalize atom here seen = result
    obtain ⟨there?, seen'⟩ := result
    cases there? with
    | none => rfl
    | some there =>
      dsimp only
      rw [hreport]
      by_cases hlt : there.rest.length < here.rest.length
      · rw [if_pos hlt, if_pos hlt]
        exact repeatGreedily_told hatom hreport q (count + 1) there _
      · rw [if_neg hlt, if_neg hlt]
  · rw [if_neg hallowed, if_neg hallowed]
termination_by here.rest.length

variable {observe : Observer σ} {observe' : Observer τ}

mutual
theorem Node.run_told (h : Observer.Told tell observe observe') : ∀ (n : Node) (depth : Nat) (here : Place),
    Told tell (n.run observe depth here) (n.run observe' depth here)
  | .literal _, _, _, _ | .charSet _, _, _, _ => rfl
  | .group body, depth, here, seen => Pattern.run_told h body (depth + 1) here seen
theorem Term.run_told (h : Observer.Told tell observe observe') : ∀ (t : Term) (depth : Nat) (here : Place),
    Told tell (t.run observe depth here) (t.run observe' depth here)
  | ⟨n, q, span⟩, depth, here, seen => by
    have hloop : Told tell
        (repeatGreedily (n.run observe depth)
          (fun start stop seen => observe seen (.repetition depth ⟨n, q, span⟩ start stop)) q 0 here)
        (repeatGreedily (n.run observe' depth)
          (fun start stop seen => observe' seen (.repetition depth ⟨n, q, span⟩ start stop)) q 0 here) :=
      repeatGreedily_told (Node.run_told h n depth) (fun _ _ seen => h seen _) q 0 here
    unfold Term.run
    rw [h, hloop]
    generalize repeatGreedily (n.run observe depth) _ q 0 here _ = result
    obtain ⟨⟨count, there⟩, seen'⟩ := result
    by_cases hcount : q.isSatisfiedBy count = true
    · simp only [if_pos hcount, h seen']
    · simp only [if_neg hcount, h seen']
theorem Pattern.run_told (h : Observer.Told tell observe observe') : ∀ (p : Pattern) (depth : Nat) (here : Place),
    Told tell (Pattern.run observe p depth here) (Pattern.run observe' p depth here)
  | [], _, _, _ => rfl
  | t :: p, depth, here, seen => by
    unfold Pattern.run
    rw [Term.run_told h t depth here seen]
    generalize t.run observe depth here seen = result
    obtain ⟨there?, seen'⟩ := result
    cases there? with
    | none => rfl
    | some there => exact Pattern.run_told h p depth there seen'
end

theorem Pattern.evaluate_told (h : Observer.Told tell observe observe') (p : Pattern) (here : Place) :
    Told tell (p.evaluate observe here) (p.evaluate observe' here) := by
  intro seen
  unfold evaluate
  rw [h, Pattern.run_told h p 0 here]
  exact congrArg (Prod.mk _) (h _ _)

/-- **After an evaluation a memory is told from another**, if it is told from it after each event. -/
theorem Pattern.evaluateAt_told (h : Observer.Told tell observe observe') (p : Pattern) (source : Text) (offset : Nat) :
    Told tell (p.evaluateAt observe source offset) (p.evaluateAt observe' source offset) := by
  intro seen
  unfold evaluateAt
  cases source.place? offset with
  | none =>
    dsimp only
    rw [h, h]
  | some here =>
    dsimp only
    rw [Pattern.evaluate_told h p here seen]

end

/-! ## The recorded events -/

def Pattern.events (p : Pattern) (source : Text) (offset : Nat) : List Event :=
  (p.evaluateAt Observer.record source offset []).2

/-- **An observer makes of an evaluation what it makes of its events**, one after the other. -/
theorem Pattern.snd_evaluateAt {σ : Type} (observe : Observer σ) (p : Pattern) (source : Text) (offset : Nat)
    (seen : σ) : (p.evaluateAt observe source offset seen).2 = (p.events source offset).foldl observe seen := by
  have htold : Observer.Told (fun events => events.foldl observe seen) Observer.record observe := by
    intro events event
    change observe (events.foldl observe seen) event = (events ++ [event]).foldl observe seen
    rw [List.foldl_append, List.foldl_cons, List.foldl_nil]
  exact congrArg Prod.snd (p.evaluateAt_told htold source offset [])

end PatternWalk
