import PatternWalk.CommandLine
/-!
# Outcomes — what a command answers, once its source is loaded

The source comes from the command line, from a file or from the standard input.  However it comes, a command that needs
it answers what it answers for its text, or says why there is none (`outcome_withSource`).
-/
namespace PatternWalk.CommandLine

variable (file : String → Except LoadFailure Text) (stdin : Except LoadFailure Text)

/-- **The text of a source**, given what each file and the standard input hold, or why there is none. -/
def SourceArgument.load : SourceArgument → Except InputError Text
  | .missing => .error .missingSource
  | .inline text => .ok text
  | .path name =>
    if name = "-" then stdin.mapError .unreadableStdin else (file name).mapError (.unreadableFile name)

variable {file stdin}

theorem outcome_withSource (source : SourceArgument) (answer : Text → Outcome) :
    (withSource source answer).outcome file stdin =
      match source.load file stdin with
      | .ok text => answer text
      | .error e => .inputError e := by
  cases source with
  | missing => rfl
  | inline text => rfl
  | path path =>
    by_cases hpath : path = "-"
    · simp only [withSource, SourceArgument.load, if_pos hpath, Plan.outcome]
      cases stdin <;> rfl
    · simp only [withSource, SourceArgument.load, if_neg hpath, Plan.outcome]
      cases file path <;> rfl

theorem code_withSource {answer answer' : Text → Outcome} (h : ∀ text, (answer text).code = (answer' text).code)
    (source : SourceArgument) :
    ((withSource source answer).outcome file stdin).code = ((withSource source answer').outcome file stdin).code := by
  rw [outcome_withSource, outcome_withSource]
  cases source.load file stdin with
  | ok text => exact h text
  | error e => rfl

theorem code_withOffset {answer answer' : Outcome} (h : answer.code = answer'.code) (source : Text) (offset : Nat) :
    (withOffset source offset answer).code = (withOffset source offset answer').code := by
  unfold withOffset
  split
  · exact h
  · rfl

end PatternWalk.CommandLine
