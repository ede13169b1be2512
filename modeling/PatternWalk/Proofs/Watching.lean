import PatternWalk.Proofs.Outcomes
import PatternWalk.Proofs.Resuming
/-!
# Watching — who watches has no say in what comes out

An observer is told of every step, and changes nothing.  Evaluations have the same match whoever observes them, and so
do the sessions of walkers that differ only in who watches them: the same answers, errors among them, and the same
cursors.  On the command line, tracing an evaluation comes to the same exit status as matching (`code_plan_trace`).
-/
namespace PatternWalk

namespace Walker

variable {σ τ : Type}

def watchedBy (w : Walker σ) (observe : Observer τ) (seen : τ) : Walker τ :=
  { here := w.here, delimiter? := w.delimiter?, limits := w.limits, observe, seen }

theorem unwatched_watchedBy (w : Walker σ) (observe : Observer τ) (seen : τ) :
    (w.watchedBy observe seen).unwatched = w.unwatched := rfl

theorem transcript_watchedBy (w : Walker σ) (observe : Observer τ) (seen : τ) (calls : List Call) :
    (w.watchedBy observe seen).transcript calls = w.transcript calls := by
  rw [← unwatched_transcript, unwatched_watchedBy, unwatched_transcript]

theorem create_watchedBy (source : Text) (delimiter? : Option Text) (limits : Limits) (observe : Observer σ) (seen : σ)
    (observe' : Observer τ) (seen' : τ) : create source delimiter? limits observe' seen' =
      (create source delimiter? limits observe seen).map fun w => w.watchedBy observe' seen' := by
  unfold create
  cases delimiter? with
  | none => rfl
  | some text =>
    dsimp only
    cases Pattern.read text limits <;> rfl

theorem map_transcript_create (source : Text) (delimiter? : Option Text) (limits : Limits) (observe : Observer σ)
    (seen : σ) (observe' : Observer τ) (seen' : τ) (calls : List Call) :
    (create source delimiter? limits observe' seen').map (·.transcript calls) =
      (create source delimiter? limits observe seen).map (·.transcript calls) := by
  rw [create_watchedBy source delimiter? limits observe seen]
  cases create source delimiter? limits observe seen with
  | error e => rfl
  | ok w => exact congrArg Except.ok (w.transcript_watchedBy observe' seen' calls)

end Walker

namespace Pattern

variable {σ τ : Type}

theorem fst_evaluateAt_congr (observe : Observer σ) (observe' : Observer τ) (p : Pattern) (source : Text)
    (offset : Nat) (seen : σ) (seen' : τ) :
    (p.evaluateAt observe source offset seen).1 = (p.evaluateAt observe' source offset seen').1 := by
  rw [fst_evaluateAt, fst_evaluateAt]

end Pattern

/-! ## The exit status -/

namespace CommandLine

variable {file : String → Except LoadFailure Text} {stdin : Except LoadFailure Text}

theorem code_answerTrace (p : Pattern) (style : TraceStyle) (offset : Nat) :
    (answerTrace p style offset).code = (answerMatch p style.source offset).code := by
  unfold answerTrace answerMatch Pattern.matchAt
  rw [p.fst_evaluateAt_congr Observer.idle style.collect style.source offset () []]
  generalize p.evaluateAt style.collect style.source offset [] = result
  obtain ⟨match?, lines⟩ := result
  cases match? <;> rfl

theorem code_plan_trace (pattern : Text) (source : SourceArgument) (offset : Nat) (verbosity : Verbosity)
    (color color' : Bool) :
    ((Command.trace pattern source offset verbosity color).plan.outcome file stdin).code =
      ((Command.matchOnce pattern source offset color').plan.outcome file stdin).code := by
  simp only [Command.plan, withPattern]
  cases Pattern.read pattern with
  | error e => rfl
  | ok p => exact code_withSource (fun text => code_withOffset (code_answerTrace p _ offset) text offset) source

theorem code_plan_words (words : List String) :
    ((plan ("trace" :: words)).outcome file stdin).code = ((plan ("match" :: words)).outcome file stdin).code := by
  simp only [plan, Command.read, Command.readTrace, Command.readMatch]
  cases Command.readMatching words with
  | none => rfl
  | some read =>
    obtain ⟨pattern, source, offset, arguments, color⟩ := read
    exact code_plan_trace pattern source offset _ color color

end CommandLine

open CommandLine in
/-- **Who observes changes no outcome.**  An evaluation has the same match for any two observers, whatever they have
seen and make of it; it is the match at the offset.  Two sessions that differ only in who watches, from their beginning
or from any point on, have the same answers, errors and cursors at every call.  The commands that match and that trace
exit with the same status, for the same pattern, source and offset. -/
theorem same_outcome_whoever_observes :
    (∀ {σ τ : Type} (observe : Observer σ) (observe' : Observer τ) (p : Pattern) (source : Text) (offset : Nat)
      (seen : σ) (seen' : τ),
      (p.evaluateAt observe source offset seen).1 = (p.evaluateAt observe' source offset seen').1 ∧
      (p.evaluateAt observe source offset seen).1 = p.matchAt source offset) ∧
    (∀ {σ τ : Type} (observe : Observer σ) (observe' : Observer τ) (seen : σ) (seen' : τ) (source : Text)
      (delimiter? : Option Text) (limits : Limits) (calls : List Walker.Call),
      (Walker.create source delimiter? limits observe seen).map (·.transcript calls) =
        (Walker.create source delimiter? limits observe' seen').map (·.transcript calls)) ∧
    (∀ {σ τ : Type} (w : Walker σ) (observe' : Observer τ) (seen' : τ) (calls : List Walker.Call),
      (w.watchedBy observe' seen').transcript calls = w.transcript calls) ∧
    (∀ (file : String → Except LoadFailure Text) (stdin : Except LoadFailure Text) (pattern : Text)
      (source : SourceArgument) (offset : Nat) (verbosity : Verbosity) (color color' : Bool),
      ((Command.matchOnce pattern source offset color).plan.outcome file stdin).code =
        ((Command.trace pattern source offset verbosity color').plan.outcome file stdin).code) := by
  refine ⟨fun observe observe' p source offset seen seen' => ⟨?_, ?_⟩, ?_, ?_, ?_⟩
  · exact p.fst_evaluateAt_congr observe observe' source offset seen seen'
  · exact p.fst_evaluateAt_congr observe Observer.idle source offset seen ()
  · intro σ τ observe observe' seen seen' source delimiter? limits calls
    exact Walker.map_transcript_create source delimiter? limits observe' seen' observe seen calls
  · intro σ τ w observe' seen' calls
    exact w.transcript_watchedBy observe' seen' calls
  · intro file stdin pattern source offset verbosity color color'
    exact (code_plan_trace pattern source offset verbosity color' color).symm

end PatternWalk
