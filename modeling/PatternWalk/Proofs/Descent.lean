import PatternWalk.Proofs.Lexing
import PatternWalk.Reader
/-!
# Descent — reading by functions that call one another, and give up rather than go wrong

Reading once more, with a function for each piece of the grammar in place of a stack and a mode.  A function begins at
the current token and leaves behind the tokens of its piece.  It takes for granted what its caller has seen, and looks
at nothing twice, so it could be wrong about the tokens in front of it.

Where it would go wrong, this reader gives up: it has no result when it takes a token where there is none or takes some
other token for the parenthesis behind a group, when a token does not cover one character, when a member of a set is
read at the end of the pattern, when the digits of a bound cannot be cut out of it, and when its loops have not ended
after so many turns.  Otherwise it reads something, or stops with a fault.
-/
namespace PatternWalk

/-- **Where a descent stands**: the tokens ahead, the byte after the last one taken, and how many groups are open. -/
structure Cursor where
  ahead : List Lexeme
  reached : Nat := 0
  depth : Nat := 0

/-- **A part of a descent**: there is no result where it gives up. -/
def Descent (α : Type) : Type := Cursor → Option (Except Fault (α × Cursor))

namespace Descent

variable {α : Type}

protected def bind {β : Type} (m : Descent α) (k : α → Descent β) : Descent β := fun s =>
  match m s with
  | none => none
  | some (.error fault) => some (.error fault)
  | some (.ok (a, s)) => k a s

instance : Monad Descent where
  pure a := fun s => some (.ok (a, s))
  bind := Descent.bind

def giveUp : Descent α := fun _ => none

def refuse (cause : Cause) (span : Span) : Descent α := fun _ => some (.error ⟨cause, span⟩)

def current? : Descent (Option Lexeme) := fun s => some (.ok (s.ahead.head?, s))

def currentKind? : Descent (Option Token.Kind) := fun s => some (.ok (s.ahead.head?.map (·.kind), s))

def reached : Descent Nat := fun s => some (.ok (s.reached, s))

def bump : Descent Lexeme := fun s =>
  match s.ahead with
  | [] => none
  | t :: ahead => some (.ok (t, { s with ahead, reached := t.span.stop }))

def bumpClosing : Descent Unit := do
  let t ← bump
  if t.kind = .parenClose then return () else giveUp

def enter (nesting : Nat) (opened : Span) : Descent Unit := fun s =>
  if nesting ≤ s.depth then some (.error ⟨.recursionLimitExceeded, opened⟩)
  else some (.ok ((), { s with depth := s.depth + 1 }))

def leave : Descent Unit := fun s => some (.ok ((), { s with depth := s.depth - 1 }))

section
variable (source : Text)

/-- The character of a token; gives up unless the token covers exactly one. -/
def charOf (t : Lexeme) : Descent Char :=
  match t.char? source with
  | some c => return c
  | none => giveUp

def isChar (accepts : Char → Bool) (t : Lexeme) : Descent Bool :=
  if t.kind = .char then do
    let c ← charOf source t
    return accepts c
  else return false

/-! ## Sets and escapes -/

def readEscape : Descent Char := do
  let back ← bump
  match ← current? with
  | none => refuse .trailingEscape back.span
  | some t =>
    if t.kind.isEscapable then do
      let _ ← bump
      charOf source t
    else refuse .invalidEscape (back.span.cover t.span)

def readMember : Descent Char := do
  match ← current? with
  | none => giveUp
  | some t =>
    match t.kind with
    | .char => do
      let _ ← bump
      charOf source t
    | .backslash => readEscape source
    | _ => refuse .unescapedSpecial t.span

def readHigh (set : CharSet) (start : Nat) (low : Char) : Descent CharSet := do
  let high ← readMember source
  if high < low then do
    let stop ← reached
    refuse .invalidRange ⟨start, stop⟩
  else return set.insertRange ⟨low, high⟩

def readRange (opened : Span) (set : CharSet) (start : Nat) (low : Char) : Descent CharSet := do
  match ← currentKind? with
  | some .dash => do
    let dash ← bump
    match ← currentKind? with
    | none => refuse .unclosedCharSet opened
    | some .bracketClose => refuse .unescapedSpecial dash.span
    | some _ => readHigh source set start low
  | _ => return set.insert low

def readItems (opened : Span) : (turns : Nat) → CharSet → Descent Node
  | 0, _ => giveUp
  | turns + 1, set => do
    match ← current? with
    | none => refuse .unclosedCharSet opened
    | some t =>
      if t.kind = .bracketClose then do
        let _ ← bump
        if set.isEmpty then do
          let stop ← reached
          refuse .emptyCharSet ⟨opened.start, stop⟩
        else return .charSet set
      else do
        let low ← readMember source
        let set ← readRange source opened set t.span.start low
        readItems opened turns set

def readSet (turns : Nat) : Descent Node := do
  let opening ← bump
  readItems source opening.span turns .empty

/-! ## Quantifiers -/

def readDigits : (turns : Nat) → Descent Nat
  | 0 => giveUp
  | turns + 1 => do
    match ← current? with
    | none => return 0
    | some t =>
      if ← isChar source Char.isDigit t then do
        let _ ← bump
        let count ← readDigits turns
        return count + 1
      else return 0

def refuseBounds (opened : Span) : Descent α := do
  match ← current? with
  | none => refuse .unclosedQuantifier opened
  | some t => refuse .invalidQuantifierBounds (opened.cover t.span)

/-- The number that the digits of a span stand for; gives up when they cannot be cut out of the pattern. -/
def readNumber (opened digits : Span) : Descent UInt32 :=
  match digits.textIn? source with
  | none => giveUp
  | some s =>
    if Reader.greatestBound < Nat.ofDigitChars 10 s 0 then refuse .invalidQuantifierBounds (opened.cover digits)
    else return (Nat.ofDigitChars 10 s 0).toUInt32

def readBound (turns : Nat) (opened : Span) : Descent UInt32 := do
  let first? ← current?
  let count ← readDigits source turns
  match first?.filter fun _ => 0 < count with
  | some first => do
    let stop ← reached
    readNumber source opened ⟨first.span.start, stop⟩
  | none => refuseBounds opened

def readMark (opened : Span) (isMark : Lexeme → Descent Bool) : Descent Unit := do
  match ← current? with
  | none => refuseBounds opened
  | some t =>
    if ← isMark t then do
      let _ ← bump
      return ()
    else refuseBounds opened

def readBounds (turns : Nat) : Descent Quantifier := do
  let opening ← bump
  let low ← readBound source turns opening.span
  readMark opening.span (isChar source (· == ','))
  let high ← readBound source turns opening.span
  readMark opening.span fun t => return t.kind == .braceClose
  if high < low then do
    let stop ← reached
    refuse .quantifierMinExceedsMax ⟨opening.span.start, stop⟩
  else return .between low high

def readQuantifier (turns : Nat) : Descent Quantifier := do
  match ← currentKind? with
  | some .star => do
    let _ ← bump
    return .zeroOrMore
  | some .plus => do
    let _ ← bump
    return .oneOrMore
  | some .question => do
    let _ ← bump
    return .zeroOrOne
  | some .braceOpen => readBounds source turns
  | _ => return .once

/-! ## Terms and groups -/

/-- A group, whose body is read by a function that leaves the closing parenthesis; gives up when it has not. -/
def readGroup (nesting : Nat) (readBody : (opened : Span) → Descent Pattern) : Descent Node := do
  let opening ← bump
  enter nesting opening.span
  let body ← readBody opening.span
  bumpClosing
  leave
  if body.isEmpty then do
    let stop ← reached
    refuse .emptyGroup ⟨opening.span.start, stop⟩
  else return .group body

def readAtom (group : Descent Node) (turns : Nat) (terms : Pattern) (t : Lexeme) : Descent Node :=
  match t.kind with
  | .parenClose | .bracketClose | .braceClose => refuse .unbalancedClose t.span
  | .star | .plus | .question | .braceOpen =>
    if terms.isEmpty then refuse .quantifierWithoutTarget t.span else refuse .stackedQuantifier t.span
  | .dash => refuse .unescapedSpecial t.span
  | .parenOpen => group
  | .bracketOpen => readSet source turns
  | .backslash => do
    let c ← readEscape source
    return .literal [c]
  | .char => do
    let _ ← bump
    let c ← charOf source t
    return .literal [c]

/-- **The terms of a level**, behind those read so far: up to the end of the pattern, or up to the parenthesis that
closes the group opened by the span. -/
def readTerms (nesting : Nat) : (turns : Nat) → (opened? : Option Span) → (terms : Pattern) → Descent Pattern
  | 0, _, _ => giveUp
  | turns + 1, opened?, terms => do
    match ← current?, opened? with
    | none, some opened => refuse .unclosedGroup opened
    | none, none => return Pattern.coalesce terms
    | some t, opened? =>
      if t.kind = .parenClose ∧ opened?.isSome then return Pattern.coalesce terms
      else do
        let group := readGroup nesting fun opened => readTerms nesting turns (some opened) []
        let node ← readAtom source group turns terms t
        let q ← readQuantifier source turns
        let stop ← reached
        readTerms nesting turns opened? (terms ++ [⟨node, q, ⟨t.span.start, stop⟩⟩])

end

end Descent

/-- **Reads a pattern text by descent**: its characters are lexed, and no loop may take more turns than there are
characters, and one. -/
def Pattern.readByDescent (text : Text) (limits : Limits := {}) : Option (Except GrammarError Pattern) := do
  let ahead ← Lexeme.scanFrom? 0 text
  let result ← Descent.readTerms text limits.nesting (text.length + 1) none [] { ahead }
  return (result.map Prod.fst).mapError fun fault => ⟨fault.cause, fault.span, text⟩

end PatternWalk
