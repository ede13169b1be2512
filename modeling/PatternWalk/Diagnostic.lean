import PatternWalk.Diagnostic.Row
import PatternWalk.GrammarError
import PatternWalk.Patch
import PatternWalk.Text.Columns
import PatternWalk.Text.Line
/-!
# Diagnostic — an error shown in the line it stands in

A diagnostic gives the title, the line of the source with its number, and a row of marks under the part in question.
A suggested change follows: one that takes text away is shown as the old line and the new one, any other as the new
line alone, with marks under what is new.
-/
namespace PatternWalk

/-- **A diagnostic**: what is wrong, where, and how to mend it. -/
structure Diagnostic where
  title : String
  source : Text
  range : Span
  /-- What to call the source, if it has a name. -/
  path? : Option String := none
  /-- A change, and what it does. -/
  help? : Option (String × Patch) := none

namespace Diagnostic

def numeral (line : Text.Line) : Text := Nat.toDigits 10 line.number

def emptyMargin (line : Text.Line) : Row :=
  Row.repeated .bare ((numeral line).length + 1) ' ' ++ Row.of .margin ['|']

def numberMargin (line : Text.Line) : Row := Row.of .margin (numeral line) ++ Row.bare [' ']

/-- **The cells that the first `n` characters of a line take**: a tab takes four, and any other character counts for
one, whether it shows or not. -/
def cellsBefore (text : Text) (n : Nat) : Nat := n + 3 * (text.take n).count '\t'

def toned (text : Text) (tone : Tone) (start stop : Nat) : Row :=
  (Row.bare text.shownAll).paint tone (cellsBefore text start) (cellsBefore text stop)

namespace Main

def placeRow (line : Text.Line) (offset : Nat) (path : String) : Row :=
  Row.repeated .bare (numeral line).length ' ' ++ Row.of .margin ['-', '-', '>', ' '] ++
    Row.bare (path ++ ":" ++ toString line.number ++ ":" ++ toString (line.charsUpTo offset + 1)).toList

def textRow (line : Text.Line) : Row :=
  let shown := line.text.shownAll
  numberMargin line ++ Row.of .margin ['|'] ++ if shown.isEmpty then [] else Row.bare (' ' :: shown)

def markRow (line : Text.Line) (range : Span) (label : String) : Row :=
  let column := Text.width (line.upTo range.start)
  emptyMargin line ++ Row.repeated .bare (column + 1) ' ' ++
    Row.repeated .error (max 1 (Text.width (line.upTo range.stop) - column)) '^' ++ Row.bare [' '] ++
      Row.of .error label.toList

end Main

def mainRows (d : Diagnostic) : List Row :=
  let line := Text.Line.ofOffset d.source d.range.start
  [Row.of .error "error".toList ++ Row.of .title (": " ++ d.title).toList] ++
    (d.path?.map (Main.placeRow line d.range.start)).toList ++
      [emptyMargin line, Main.textRow line, Main.markRow line d.range d.title]

structure Change where
  line : Text.Line
  patch : Patch
  changed : Text

def Change.of (source : Text) (patch : Patch) : Change :=
  let line := Text.Line.ofOffset source patch.range.start
  { line, patch, changed := line.upTo patch.range.start ++ patch.replacement ++ line.after patch.range.stop }

namespace Change

def start (change : Change) : Nat := change.line.charsUpTo change.patch.range.start

def shownLength : Text → Nat
  | [] => 0
  | c :: s => (if c = '\t' then 4 else 1) + shownLength s

def newRow (change : Change) : Row :=
  toned change.changed .added change.start (change.start + shownLength change.patch.replacement)

def oldRow (change : Change) (lost : Text) : Row :=
  toned change.line.text .removed change.start (change.start + lost.length)

def replacementRows (change : Change) (lost : Text) : List Row :=
  [ numberMargin change.line ++ Row.of .removed ['-', ' '] ++ change.oldRow lost,
    numberMargin change.line ++ Row.of .added ['+', ' '] ++ change.newRow,
    emptyMargin change.line ]

/-- The marks under what is new, without the white space at its ends unless it is all white space.  White space that
it begins with moves them on by its bytes. -/
def marks (change : Change) (mark : Char) : Row :=
  let new := change.patch.replacement
  let column := Text.width (change.line.upTo change.patch.range.start)
  let (skipped, marked) := if new.trimmed.isEmpty then (0, new) else (new.leadingBlanks.size, new.trimmed)
  if marked.isEmpty then []
  else Row.repeated .bare (column + skipped + 1) ' ' ++ Row.repeated .added (Text.width marked) mark

def insertionRows (change : Change) (mark : Char) : List Row :=
  [ numberMargin change.line ++ Row.of .margin ['|', ' '] ++ change.newRow,
    emptyMargin change.line ++
      if change.patch.replacement.trimmed = change.changed.trimmed then [] else change.marks mark ]

end Change

/-- **The rows that show what a patch does**: those of a replacement if it takes something away, else those of an
insertion, marked by plus signs if it is written over nothing but white space and by tildes if not. -/
def patchRows (source : Text) (patch : Patch) : List Row :=
  let patch := patch.narrow source
  let change := Change.of source patch
  if patch.takesAway source then change.replacementRows (patch.replaced source)
  else change.insertionRows (if patch.isAddition source then '+' else '~')

def helpRows (d : Diagnostic) : List Row :=
  match d.help? with
  | none => []
  | some (description, patch) =>
    let margin := emptyMargin (Text.Line.ofOffset d.source patch.range.start)
    [margin, Row.of .help "help".toList ++ Row.bare (": " ++ description).toList, margin] ++ patchRows d.source patch

/-- **The diagnostic as text**, in colour or plain, without a line break at the end. -/
def render (d : Diagnostic) (color : Bool) : String :=
  "\n".intercalate ((d.mainRows ++ d.helpRows).map (·.render color))

end Diagnostic

namespace GrammarError

/-- **The stretch that is marked**: the span of the error, made one byte wide if it has no width and text follows. -/
def markedRange (e : GrammarError) : Span :=
  if e.span.start = e.span.stop then ⟨e.span.start, min (e.span.start + 1) e.pattern.size⟩ else e.span

/-- **The diagnostic of an error**; its change, if it has one, applies to the marked stretch. -/
def diagnostic (e : GrammarError) (path? : Option String := none) : Diagnostic :=
  { title := e.cause.message
    source := e.pattern
    range := e.markedRange
    path?
    help? := e.fix?.map fun fix => (fix.description, ⟨e.markedRange, fix.replacement⟩) }

end GrammarError

end PatternWalk
