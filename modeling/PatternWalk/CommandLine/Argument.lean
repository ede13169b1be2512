/-!
# Argument — the words of a command line, sorted into options and positionals

A word that begins with a dash, and is not the dash alone, is an option and never a value.  Long options take their
value from the next word or behind an equals sign; short ones also stand together behind one dash, and the last of them
may be followed directly by its value.  Behind the word of two dashes every word is positional.
-/
namespace PatternWalk.CommandLine

inductive Switch where
  | json
  | spans
  | color
  | source
  | offset
  | compact
  | verbose
  | step
  | delimiter
deriving DecidableEq, Repr

namespace Switch

def long? : Switch → Option String
  | json => some "json"
  | spans => some "spans"
  | color => some "color"
  | source => some "source"
  | offset => some "offset"
  | compact => some "compact"
  | verbose => none
  | step => some "step"
  | delimiter => some "delim"

def short? : Switch → Option Char
  | source => some 's'
  | verbose => some 'v'
  | step => some 'e'
  | _ => none

def takesValue : Switch → Bool
  | color | source | offset | step | delimiter => true
  | json | spans | compact | verbose => false

def isRepeatable : Switch → Bool
  | verbose | step => true
  | _ => false

end Switch

/-- **An argument**: a positional word, or an option with its value, empty for one that takes none. -/
inductive Argument where
  | positional (word : String)
  | option (switch : Switch) (value : String)
deriving DecidableEq, Repr

namespace Argument

def looksLikeOption (word : String) : Bool :=
  match word.toList with
  | '-' :: _ :: _ => true
  | _ => false

/-- What a word says: arguments, and perhaps an option at its end that waits for its value in the next word. -/
abbrev Reading := List Argument × Option Switch

def splitValue : List Char → List Char × Option (List Char)
  | [] => ([], none)
  | '=' :: value => ([], some value)
  | c :: s =>
    let (name, value?) := splitValue s
    (c :: name, value?)

def readLong (known : List Switch) (word : List Char) : Option Reading :=
  let (name, value?) := splitValue word
  match known.find? (fun s => s.long? == some (String.ofList name)) with
  | none => none
  | some s =>
    match s.takesValue, value? with
    | true, some value => some ([option s (String.ofList value)], none)
    | true, none => some ([], some s)
    | false, none => some ([option s ""], none)
    | false, some _ => none

def readShort (known : List Switch) : List Char → Option Reading
  | [] => some ([], none)
  | c :: word =>
    match known.find? (fun s => s.short? == some c) with
    | none => none
    | some s =>
      if s.takesValue then
        match word with
        | [] => some ([], some s)
        | '=' :: value => some ([option s (String.ofList value)], none)
        | value => some ([option s (String.ofList value)], none)
      else (readShort known word).map fun (arguments, open?) => (option s "" :: arguments, open?)

def readWord (known : List Switch) (word : String) : Option Reading :=
  match word.toList with
  | '-' :: '-' :: name => readLong known name
  | '-' :: c :: cluster => readShort known (c :: cluster)
  | _ => some ([positional word], none)

/-- **Reads the words of a command line** for the options known; nothing when they make no sense. -/
def readAll (known : List Switch) : List String → Option (List Argument)
  | [] => some []
  | word :: words =>
    if word = "--" then some (words.map positional)
    else
      match readWord known word with
      | none => none
      | some (arguments, none) => (readAll known words).map (arguments ++ ·)
      | some (arguments, some s) =>
        match words with
        | [] => none
        | value :: words =>
          if looksLikeOption value then none
          else (readAll known words).map (arguments ++ option s value :: ·)

def valuesOf (s : Switch) (arguments : List Argument) : List String :=
  arguments.filterMap fun
    | option t value => if s = t then some value else none
    | positional _ => none

def positionals (arguments : List Argument) : List String :=
  arguments.filterMap fun
    | positional word => some word
    | option _ _ => none

def noneTwice (known : List Switch) (arguments : List Argument) : Bool :=
  known.all fun s => s.isRepeatable || (valuesOf s arguments).length ≤ 1

end Argument

end PatternWalk.CommandLine
