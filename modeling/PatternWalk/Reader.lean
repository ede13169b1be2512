import PatternWalk.GrammarError
import PatternWalk.Pattern.Basic
import PatternWalk.Token
/-!
# Reader — from a pattern text to its terms, one token at a time

The reader is a machine that goes through the tokens from left to right.  Its state holds the terms read so far, a
stack with one entry for each group still open, and a mode for the piece that is being read.  It stops at the first
token that cannot stand where it stands.

A pattern is a sequence of terms; a term is an atom and at most one quantifier; an atom is a plain character, an
escaped one, a set in brackets or a group in parentheses; a quantifier is `*`, `+`, `?` or two decimal bounds in
braces.  Each character is read as a term of its own; neighbours without a quantifier are joined when their level ends.
-/
namespace PatternWalk

/-- **What the reader stops with**: a cause and the span to show it at. -/
structure Fault where
  cause : Cause
  span : Span
deriving DecidableEq, Repr

structure Limits where
  /-- How many groups may be nested in one another. -/
  nesting : Nat := 256
deriving DecidableEq, Repr

namespace Reader

/-- A group that is still open: where it starts, and the terms before it on the level it stands on. -/
structure OpenGroup where
  start : Nat
  before : Pattern

/-- **The piece that is being read.**  Positions are byte offsets in the pattern. -/
inductive Mode where
  /-- No atom waits for a quantifier. -/
  | ready
  /-- An atom was read and may take a quantifier. -/
  | atom (node : Node) (start : Nat)
  /-- In the set opened at `opened`, before an item or the closing bracket. -/
  | item (opened : Nat) (set : CharSet)
  /-- In a set, after a character that may begin a range. -/
  | low (opened : Nat) (set : CharSet) (c : Char) (start : Nat)
  /-- In a set, after the dash of a range. -/
  | dash (opened : Nat) (set : CharSet) (c : Char) (start : Nat) (dash : Nat)
  /-- Between the braces opened at `opened`: the first bound once it is read, and the digits of the one being read. -/
  | bound (node : Node) (start : Nat) (opened : Nat) (first? : Option UInt32) (digits? : Option Nat)

end Reader

structure Reader where
  /-- The groups still open, the innermost first. -/
  outer : List Reader.OpenGroup := []
  /-- The terms read on the current level. -/
  terms : Pattern := []
  /-- The piece that is being read. -/
  mode : Reader.Mode := .ready
  /-- Where a backslash stands that waits for its character. -/
  escape? : Option Nat := none
  /-- The byte after the last token. -/
  reached : Nat := 0

namespace Reader

def delimiter (start : Nat) : Span := ⟨start, start + 1⟩

def greatestBound : Nat := 4294967295

def push (r : Reader) (node : Node) (q : Quantifier) (start stop : Nat) : Reader :=
  { r with terms := r.terms ++ [⟨node, q, ⟨start, stop⟩⟩], mode := .ready }

/-- **Ends a piece that the next token does not continue**: an atom without a quantifier, a member without a dash. -/
def settle (r : Reader) : Reader :=
  match r.mode with
  | .atom node start => r.push node .once start r.reached
  | .low opened set c _ => { r with mode := .item opened (set.insert c) }
  | _ => r

/-- **Takes a character that stands for itself**, written from `start` up to `stop`. -/
def letter (r : Reader) (c : Char) (start stop : Nat) : Except Fault Reader :=
  match r.mode with
  | .item opened set => .ok { r with mode := .low opened set c start }
  | .dash opened set low first _ =>
    if low ≤ c then .ok { r with mode := .item opened (set.insertRange ⟨low, c⟩) }
    else .error ⟨.invalidRange, ⟨first, stop⟩⟩
  | _ => .ok { r with mode := .atom (.literal [c]) start }

/-- **Takes a closing parenthesis**: the group it closes becomes an atom of the level outside. -/
def closeGroup (r : Reader) (t : Token) : Except Fault Reader :=
  match r.outer with
  | [] => .error ⟨.unbalancedClose, t.span⟩
  | group :: outer =>
    if r.terms.isEmpty then .error ⟨.emptyGroup, ⟨group.start, t.stop⟩⟩
    else .ok { r with
      outer := outer
      terms := group.before
      mode := .atom (.group (Pattern.coalesce r.terms)) group.start }

def begin (nesting : Nat) (r : Reader) (t : Token) : Except Fault Reader :=
  match t.kind with
  | .char => r.letter t.char t.start t.stop
  | .backslash => .ok { r with escape? := some t.start }
  | .parenOpen =>
    if nesting ≤ r.outer.length then .error ⟨.recursionLimitExceeded, t.span⟩
    else .ok { r with outer := ⟨t.start, r.terms⟩ :: r.outer, terms := [] }
  | .bracketOpen => .ok { r with mode := .item t.start .empty }
  | .parenClose => r.closeGroup t
  | .bracketClose | .braceClose => .error ⟨.unbalancedClose, t.span⟩
  | .dash => .error ⟨.unescapedSpecial, t.span⟩
  | .star | .plus | .question | .braceOpen =>
    if r.terms.isEmpty then .error ⟨.quantifierWithoutTarget, t.span⟩ else .error ⟨.stackedQuantifier, t.span⟩

/-- **Takes a token where an item of a set may begin**, or the set end. -/
def beginItem (r : Reader) (opened : Nat) (set : CharSet) (t : Token) : Except Fault Reader :=
  match t.kind with
  | .char => r.letter t.char t.start t.stop
  | .backslash => .ok { r with escape? := some t.start }
  | .bracketClose =>
    if set.isEmpty then .error ⟨.emptyCharSet, ⟨opened, t.stop⟩⟩ else .ok { r with mode := .atom (.charSet set) opened }
  | _ => .error ⟨.unescapedSpecial, t.span⟩

def endRange (r : Reader) (dash : Nat) (t : Token) : Except Fault Reader :=
  match t.kind with
  | .char => r.letter t.char t.start t.stop
  | .backslash => .ok { r with escape? := some t.start }
  | .bracketClose => .error ⟨.unescapedSpecial, delimiter dash⟩
  | _ => .error ⟨.unescapedSpecial, t.span⟩

/-- **Takes a token between braces**: a digit, the comma, or the closing brace. -/
def takeBound (r : Reader) (node : Node) (start opened : Nat) (first? : Option UInt32) (digits? : Option Nat)
    (t : Token) : Except Fault Reader :=
  if t.char.isDigit then
    .ok { r with mode := .bound node start opened first? (some (digits?.getD 0 * 10 + (t.char.toNat - '0'.toNat))) }
  else
    match digits?, first? with
    | none, _ => .error ⟨.invalidQuantifierBounds, ⟨opened, t.stop⟩⟩
    | some value, first? =>
      if greatestBound < value then .error ⟨.invalidQuantifierBounds, ⟨opened, r.reached⟩⟩
      else
        match first?, t.char with
        | none, ',' => .ok { r with mode := .bound node start opened (some value.toUInt32) none }
        | some low, '}' =>
          if low ≤ value.toUInt32 then .ok (r.push node (.between low value.toUInt32) start t.stop)
          else .error ⟨.quantifierMinExceedsMax, ⟨opened, t.stop⟩⟩
        | _, _ => .error ⟨.invalidQuantifierBounds, ⟨opened, t.stop⟩⟩

/-- **Takes the character behind a backslash** that stands at `back`: only an operator or a backslash may follow. -/
def takeEscaped (r : Reader) (back : Nat) (t : Token) : Except Fault Reader :=
  if t.kind.isEscapable then { r with escape? := none }.letter t.char back t.stop
  else .error ⟨.invalidEscape, ⟨back, t.stop⟩⟩

def take (nesting : Nat) (r : Reader) (t : Token) : Except Fault Reader :=
  match r.escape? with
  | some back => r.takeEscaped back t
  | none =>
    match r.mode with
    | .ready => r.begin nesting t
    | .atom node start =>
      match t.kind with
      | .star => .ok (r.push node .zeroOrMore start t.stop)
      | .plus => .ok (r.push node .oneOrMore start t.stop)
      | .question => .ok (r.push node .zeroOrOne start t.stop)
      | .braceOpen => .ok { r with mode := .bound node start t.start none none }
      | _ => r.settle.begin nesting t
    | .item opened set => r.beginItem opened set t
    | .low opened set c start =>
      match t.kind with
      | .dash => .ok { r with mode := .dash opened set c start t.start }
      | _ => r.settle.beginItem opened (set.insert c) t
    | .dash _ _ _ _ dash => r.endRange dash t
    | .bound node start opened first? digits? => r.takeBound node start opened first? digits? t

def step (nesting : Nat) (r : Reader) (t : Token) : Except Fault Reader :=
  (r.take nesting t).map fun r => { r with reached := t.stop }

/-- **The end of the pattern**: the terms, joined, unless something is still open. -/
def finish (r : Reader) : Except Fault Pattern :=
  match r.escape? with
  | some back => .error ⟨.trailingEscape, delimiter back⟩
  | none =>
    match r.mode with
    | .item opened _ | .low opened _ _ _ | .dash opened _ _ _ _ => .error ⟨.unclosedCharSet, delimiter opened⟩
    | .bound _ _ opened _ digits? =>
      if digits?.any (greatestBound < ·) then .error ⟨.invalidQuantifierBounds, ⟨opened, r.reached⟩⟩
      else .error ⟨.unclosedQuantifier, delimiter opened⟩
    | .ready | .atom _ _ =>
      match r.outer with
      | [] => .ok (Pattern.coalesce r.settle.terms)
      | group :: _ => .error ⟨.unclosedGroup, delimiter group.start⟩

def initial : Reader := {}

/-- **Reads a pattern text** to its end or to its first fault. -/
def run (nesting : Nat) (text : Text) : Except Fault Pattern :=
  ((Token.scan text).foldlM (step nesting) initial).bind finish

end Reader

/-- **The pattern a text stands for**, or the error in it. -/
def Pattern.read (text : Text) (limits : Limits := {}) : Except GrammarError Pattern :=
  (Reader.run limits.nesting text).mapError fun fault => ⟨fault.cause, fault.span, text⟩

end PatternWalk
