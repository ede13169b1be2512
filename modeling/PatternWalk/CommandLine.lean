import PatternWalk.CommandLine.Command
import PatternWalk.Diagnostic
import PatternWalk.Pattern.Json
import PatternWalk.Script
/-!
# CommandLine — from the words of a command line to what is written, and the exit status

The program is a function: it says which source it needs, and what it answers once it has it.  Reading the source is
left to whoever runs it.
-/
namespace PatternWalk.CommandLine

/-- **What a run leaves**: the exit status and the text on both outputs. -/
structure Outcome where
  code : UInt32
  stdout : String := ""
  stderr : String := ""
deriving DecidableEq, Repr

inductive LoadFailure where
  | missing
  | notText
  | other (reason : String)
deriving DecidableEq, Repr

def LoadFailure.message : LoadFailure → String
  | missing => "No such file or directory (os error 2)"
  | notText => "stream did not contain valid UTF-8"
  | other reason => reason

inductive InputError where
  | missingSource
  | unreadableFile (path : String) (failure : LoadFailure)
  | unreadableStdin (failure : LoadFailure)
  | invalidOffset (offset size : Nat)
deriving DecidableEq, Repr

def InputError.message : InputError → String
  | missingSource => "source is required: use a positional argument or -s/--source"
  | unreadableFile path failure => "failed to read '" ++ path ++ "': " ++ failure.message
  | unreadableStdin failure => "failed to read stdin: " ++ failure.message
  | invalidOffset offset size =>
    "offset " ++ toString offset ++ " is not a character boundary of the source (" ++ toString size ++ " bytes)"

/-- **What is left to do**: nothing, or to answer once a file or the standard input has been read. -/
inductive Plan where
  | done (outcome : Outcome)
  | awaitFile (path : String) (resume : Except LoadFailure Text → Outcome)
  | awaitStdin (resume : Except LoadFailure Text → Outcome)

namespace Outcome

def success (lines : List String) : Outcome := { code := 0, stdout := String.join (lines.map (· ++ "\n")) }

/-- Failure without a message: the lines on the standard output say it. -/
def noMatch (lines : List String) : Outcome := { success lines with code := 1 }

def grammarError (color : Bool) (e : GrammarError) : Outcome :=
  { code := 1, stderr := e.diagnostic.render color ++ "\n" }

def inputError (e : InputError) : Outcome := { code := 1, stderr := "error: " ++ e.message ++ "\n" }

def refusal : Outcome := { code := 2, stderr := "error: invalid arguments\n" }

end Outcome

def withSource (source : SourceArgument) (answer : Text → Outcome) : Plan :=
  match source with
  | .missing => .done (.inputError .missingSource)
  | .inline text => .done (answer text)
  | .path path =>
    if path = "-" then
      .awaitStdin fun
        | .ok text => answer text
        | .error failure => .inputError (.unreadableStdin failure)
    else
      .awaitFile path fun
        | .ok text => answer text
        | .error failure => .inputError (.unreadableFile path failure)

def withOffset (source : Text) (offset : Nat) (answer : Outcome) : Outcome :=
  if (source.place? offset).isSome then answer else .inputError (.invalidOffset offset source.size)

def matchToJson : Option Match → Json
  | none => .null
  | some m => .object [("start", .number m.start), ("end", .number m.stop), ("text", .text m.text)]

def answerMatch (p : Pattern) (source : Text) (offset : Nat) : Outcome :=
  match p.matchAt source offset with
  | some m => .success [(matchToJson (some m)).compact]
  | none => .noMatch [(matchToJson none).compact]

def answerTrace (p : Pattern) (style : TraceStyle) (offset : Nat) : Outcome :=
  match p.evaluateAt style.collect style.source offset [] with
  | (some _, lines) => .success lines
  | (none, lines) => .noMatch lines

/-- The answer to a walk: a line for each step made, and success if each found something. -/
def answerWalk (source : Text) (steps : List Text) (delimiter? : Option String) (color : Bool) : Outcome :=
  match Script.run source (steps.map Script.Step.read) (delimiter?.map fun d => (Delimiter.resolve d).toList) with
  | .error e => .grammarError color e
  | .ok records =>
    let lines := records.map fun r => r.toJson.compact
    if (records.getLast?.map (·.finding.isSome)).getD true then .success lines else .noMatch lines

def answerAst (p : Pattern) : Form → Outcome
  | .outline => { code := 0, stdout := String.ofList (p.outline false) }
  | .outlineWithSpans => { code := 0, stdout := String.ofList (p.outline true) }
  | .json => .success [p.toJson.pretty 0]

def withPattern (text : Text) (color : Bool) (plan : Pattern → Plan) : Plan :=
  match Pattern.read text with
  | .error e => .done (.grammarError color e)
  | .ok p => plan p

/-- **What a command comes to.**  The pattern is read before the source is asked for. -/
def Command.plan : Command → Plan
  | .ast pattern form color => withPattern pattern color fun p => .done (answerAst p form)
  | .check pattern color => withPattern pattern color fun _ => .done (.success [])
  | .matchOnce pattern source offset color =>
    withPattern pattern color fun p =>
      withSource source fun text => withOffset text offset (answerMatch p text offset)
  | .trace pattern source offset verbosity color =>
    withPattern pattern color fun p =>
      withSource source fun text =>
        withOffset text offset (answerTrace p { source := text, verbosity, palette := .of color } offset)
  | .walk source steps delimiter? color => withSource source fun text => answerWalk text steps delimiter? color

def plan (words : List String) : Plan :=
  match Command.read words with
  | some command => command.plan
  | none => .done .refusal

/-- **The outcome of a plan**, given what each file and the standard input hold. -/
def Plan.outcome (file : String → Except LoadFailure Text) (stdin : Except LoadFailure Text) : Plan → Outcome
  | .done outcome => outcome
  | .awaitFile path resume => resume (file path)
  | .awaitStdin resume => resume stdin

def decode (bytes : ByteArray) : Except LoadFailure Text :=
  match String.fromUTF8? bytes with
  | some s => .ok s.toList
  | none => .error .notText

end PatternWalk.CommandLine
