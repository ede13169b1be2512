import PatternWalk.CommandLine.Argument
import PatternWalk.TraceLog
/-!
# Command — what a command line asks for
-/
namespace PatternWalk.CommandLine

inductive ColorChoice where
  | auto
  | always
  | never
deriving DecidableEq, Repr

def ColorChoice.isOn : ColorChoice → Bool
  | always => true
  | auto | never => false

inductive SourceArgument where
  | missing
  | inline (text : Text)
  | path (path : String)
deriving DecidableEq, Repr

inductive Form where
  | outline
  | outlineWithSpans
  | json
deriving DecidableEq, Repr

inductive Command where
  | ast (pattern : Text) (form : Form) (color : Bool)
  | check (pattern : Text) (color : Bool)
  | matchOnce (pattern : Text) (source : SourceArgument) (offset : Nat) (color : Bool)
  | trace (pattern : Text) (source : SourceArgument) (offset : Nat) (verbosity : Verbosity) (color : Bool)
  | walk (source : SourceArgument) (steps : List Text) (delimiter? : Option String) (color : Bool)
deriving DecidableEq

namespace Command

open Argument

def readColor (arguments : List Argument) : Option ColorChoice :=
  match valuesOf .color arguments with
  | [] | ["auto"] => some .auto
  | ["always"] => some .always
  | ["never"] => some .never
  | _ => none

def readDigits : (value : Nat) → List Char → Option Nat
  | value, [] => some value
  | value, c :: s => if c.isDigit then readDigits (value * 10 + (c.toNat - '0'.toNat)) s else none

/-- **A number that fits a 64-bit word**, in decimal digits, perhaps behind a plus sign. -/
def readNumber (word : String) : Option Nat :=
  let digits :=
    match word.toList with
    | '+' :: digits => digits
    | digits => digits
  if digits.isEmpty then none
  else (readDigits 0 digits).filter (· < 18446744073709551616)

def readOffset (arguments : List Argument) : Option Nat :=
  match valuesOf .offset arguments with
  | [] => some 0
  | word :: _ => readNumber word

/-- **The source**: a path or a text, not both, and no empty path. -/
def readSource (path? : Option String) (arguments : List Argument) : Option SourceArgument :=
  match path?, valuesOf .source arguments with
  | none, [] => some .missing
  | none, text :: _ => some (.inline text.toList)
  | some path, [] => if path.isEmpty then none else some (.path path)
  | some _, _ :: _ => none

def readVerbosity (arguments : List Argument) : Verbosity :=
  match (valuesOf .verbose arguments).length with
  | 0 => .brief
  | 1 => .verbose
  | _ => .veryVerbose

def arguments? (known : List Switch) (words : List String) : Option (List Argument) :=
  (readAll known words).filter (noneTwice known)

def readAst (words : List String) : Option Command := do
  let arguments ← arguments? [.json, .spans, .color] words
  let color ← readColor arguments
  match positionals arguments, valuesOf .json arguments, valuesOf .spans arguments with
  | [pattern], [], [] => some (.ast pattern.toList .outline color.isOn)
  | [pattern], [], _ => some (.ast pattern.toList .outlineWithSpans color.isOn)
  | [pattern], _, [] => some (.ast pattern.toList .json color.isOn)
  | _, _, _ => none

def readCheck (words : List String) : Option Command := do
  let arguments ← arguments? [.color] words
  let color ← readColor arguments
  match positionals arguments with
  | [pattern] => some (.check pattern.toList color.isOn)
  | _ => none

def readMatching (words : List String) : Option (Text × SourceArgument × Nat × List Argument × Bool) := do
  let arguments ← arguments? [.source, .offset, .compact, .verbose, .color] words
  let color ← readColor arguments
  let offset ← readOffset arguments
  match positionals arguments with
  | [pattern] => return (pattern.toList, ← readSource none arguments, offset, arguments, color.isOn)
  | [pattern, path] => return (pattern.toList, ← readSource (some path) arguments, offset, arguments, color.isOn)
  | _ => none

def readMatch (words : List String) : Option Command :=
  (readMatching words).map fun (pattern, source, offset, _, color) => .matchOnce pattern source offset color

def readTrace (words : List String) : Option Command :=
  (readMatching words).map fun (pattern, source, offset, arguments, color) =>
    .trace pattern source offset (readVerbosity arguments) color

def readWalk (words : List String) : Option Command := do
  let arguments ← arguments? [.source, .step, .delimiter, .color] words
  let color ← readColor arguments
  let steps := valuesOf .step arguments
  let source ← match positionals arguments with
    | [] => readSource none arguments
    | [path] => readSource (some path) arguments
    | _ => none
  if steps.isEmpty then none
  else some (.walk source (steps.map String.toList) (valuesOf .delimiter arguments).head? color.isOn)

/-- **The command that the words ask for**; the first names it.  Nothing when they make no sense. -/
def read : List String → Option Command
  | "ast" :: words => readAst words
  | "check" :: words => readCheck words
  | "match" :: words => readMatch words
  | "trace" :: words => readTrace words
  | "walk" :: words => readWalk words
  | _ => none

end Command

end PatternWalk.CommandLine
