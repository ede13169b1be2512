import PatternWalk.Text
/-!
# GrammarError — a pattern text that is not well-formed

An error is its cause, the span it is shown at and the whole pattern text.  Some causes come with a fix: what to write
in place of the span.
-/
namespace PatternWalk

inductive Cause where
  | unclosedGroup
  | unclosedCharSet
  | unclosedQuantifier
  | unbalancedClose
  | quantifierWithoutTarget
  | stackedQuantifier
  | unescapedSpecial
  | invalidEscape
  | trailingEscape
  | emptyGroup
  | emptyCharSet
  | invalidRange
  | invalidQuantifierBounds
  | quantifierMinExceedsMax
  | recursionLimitExceeded
deriving DecidableEq, Repr, Inhabited

namespace Cause

def message : Cause → String
  | unclosedGroup => "unclosed group: missing `)`"
  | unclosedCharSet => "unclosed character set: missing `]`"
  | unclosedQuantifier => "unclosed quantifier: missing `\x7d`"
  | unbalancedClose => "closing delimiter has no matching opener"
  | quantifierWithoutTarget => "quantifier has nothing to repeat"
  | stackedQuantifier => "quantifier follows another quantifier"
  | unescapedSpecial => "special character must be escaped"
  | invalidEscape => "only special characters and `\\` can be escaped"
  | trailingEscape => "pattern ends inside an escape"
  | emptyGroup => "group is empty"
  | emptyCharSet => "character set is empty"
  | invalidRange => "character range is out of order"
  | invalidQuantifierBounds => "quantifier bounds must be written `\x7bmin,max\x7d`"
  | quantifierMinExceedsMax => "quantifier minimum exceeds its maximum"
  | recursionLimitExceeded => "groups are nested too deeply"

def isUnclosed : Cause → Bool
  | unclosedGroup | unclosedCharSet | unclosedQuantifier => true
  | _ => false

end Cause

structure Fix where
  replacement : Text
  description : String
deriving DecidableEq, Repr

structure GrammarError where
  cause : Cause
  span : Span
  pattern : Text
deriving DecidableEq, Repr

namespace GrammarError

/-- The text of the span; empty when the span does not lie on the characters of the pattern. -/
def fragment (e : GrammarError) : Text := (e.span.textIn? e.pattern).getD []

/-- **A range cut at its dash**, the first one that is not behind a backslash; nothing without such a dash. -/
def splitRange? : (escaped : Bool) → Text → Option (Text × Text)
  | _, [] => none
  | false, '-' :: s => some ([], s)
  | false, '\\' :: s => (splitRange? true s).map fun (low, high) => ('\\' :: low, high)
  | _, c :: s => (splitRange? false s).map fun (low, high) => (c :: low, high)

/-- **The suggested change**, where there is an obvious one: a backslash before an operator, or the bounds of a range
the other way round. -/
def fix? (e : GrammarError) : Option Fix :=
  match e.cause with
  | .unescapedSpecial =>
    some ⟨'\\' :: e.fragment, "escape `" ++ String.ofList e.fragment ++ "` to match it literally"⟩
  | .invalidRange =>
    (splitRange? false e.fragment).map fun (low, high) => ⟨high ++ '-' :: low, "swap the range bounds"⟩
  | _ => none

def message (e : GrammarError) : String :=
  e.cause.message ++ " at " ++ toString e.span.start ++ ".." ++ toString e.span.stop ++ ": `" ++
    String.ofList e.fragment ++ "`"

end GrammarError

end PatternWalk
