import PatternWalk.CharSet
import PatternWalk.CommandLine
import PatternWalk.CommandLine.Argument
import PatternWalk.CommandLine.Command
import PatternWalk.Diagnostic
import PatternWalk.Diagnostic.Row
import PatternWalk.Evaluation
import PatternWalk.Event
import PatternWalk.GrammarError
import PatternWalk.Json
import PatternWalk.Patch
import PatternWalk.Pattern.Basic
import PatternWalk.Pattern.Json
import PatternWalk.Pattern.Outline
import PatternWalk.Pattern.Printer
import PatternWalk.Quantifier
import PatternWalk.Reader
import PatternWalk.Script
import PatternWalk.Text
import PatternWalk.Text.Columns
import PatternWalk.Text.CombiningMark
import PatternWalk.Text.Line
import PatternWalk.Text.Printable
import PatternWalk.Text.Quoted
import PatternWalk.Text.Wide
import PatternWalk.Token
import PatternWalk.TraceLog
import PatternWalk.Walker
import PatternWalk.Main
import PatternWalk.Proofs.Coalescing
import PatternWalk.Proofs.Grammar
import PatternWalk.Proofs.UniqueReading
import PatternWalk.Proofs.Drafts
import PatternWalk.Proofs.Moves
import PatternWalk.Proofs.ReaderMoves
import PatternWalk.Proofs.Readings
import PatternWalk.Proofs.Canonical
import PatternWalk.Proofs.ErasedSpans
import PatternWalk.Proofs.Spelling
import PatternWalk.Proofs.Observing
import PatternWalk.Proofs.Chains
import PatternWalk.Proofs.Greedy
import PatternWalk.Proofs.Denotation
import PatternWalk.Proofs.Careful
import PatternWalk.Proofs.Extent
import PatternWalk.Proofs.Sessions
import PatternWalk.Proofs.Tiling
import PatternWalk.Proofs.ManySteps
import PatternWalk.Proofs.Failing
import PatternWalk.Proofs.Stepping
import PatternWalk.Proofs.Matching
import PatternWalk.Proofs.PrintedMatching
import PatternWalk.Proofs.Resuming
import PatternWalk.Proofs.ReadingBehind
import PatternWalk.Proofs.Sequencing
import PatternWalk.Proofs.Nesting
import PatternWalk.Proofs.Spans
import PatternWalk.Proofs.Faults
import PatternWalk.Proofs.Continuing
import PatternWalk.Proofs.Limits
import PatternWalk.Proofs.EventLogs
import PatternWalk.Proofs.Reporting
import PatternWalk.Proofs.Outcomes
import PatternWalk.Proofs.Watching
import PatternWalk.Proofs.JsonLines
import PatternWalk.Proofs.Scripts
import PatternWalk.Proofs.Lexing
import PatternWalk.Proofs.Descent
import PatternWalk.Proofs.Descending
import PatternWalk.Proofs.CoalescedMatching
import PatternWalk.Proofs.Delimiting
import PatternWalk.Proofs.Seeking
import PatternWalk.Proofs.Fixing
import PatternWalk.Proofs.Repeating
import PatternWalk.Proofs.Exact
import PatternWalk.Proofs.Splitting
import PatternWalk.Proofs.Collapsing
import PatternWalk.Proofs.Completing
import PatternWalk.Proofs.Retelling
import PatternWalk.Proofs.TraceLines
import PatternWalk.Proofs.SessionLogs
import PatternWalk.Proofs.Digits
import PatternWalk.Proofs.SelfEnding
import PatternWalk.Proofs.Outlines
import PatternWalk.Proofs.Highlighting
import PatternWalk.Proofs.Normalising
import PatternWalk.Proofs.Counting
