import TimedPatterns.Main
import TimedPatterns.Proofs.Template.Monitor
import TimedPatterns.Proofs.Tool.Batch
import TimedPatterns.Proofs.Instrumentation.Monitors
import TimedPatterns.Proofs.Search.Course
import TimedPatterns.Proofs.Search.Found
import TimedPatterns.Proofs.Search.Exclusion
import TimedPatterns.Proofs.Search.Ideal
import TimedPatterns.Proofs.Search.Focused
import TimedPatterns.Proofs.Search.Unfocused
import TimedPatterns.Proofs.Search.Ending
import TimedPatterns.Proofs.Search.Keeping
import TimedPatterns.Proofs.Tool.Pool
import TimedPatterns.Proofs.Markup.Writing
import TimedPatterns.Proofs.Text.Numeral
import TimedPatterns.Proofs.Witness.Chain
import TimedPatterns.Proofs.Witness.Listing
import TimedPatterns.Proofs.Witness.Document
import TimedPatterns.Proofs.Witness.Agreement
import TimedPatterns.Proofs.Template.Guard
import TimedPatterns.Proofs.Template.Timing
import TimedPatterns.Proofs.Template.Observation
import TimedPatterns.Proofs.Template.Observer
import TimedPatterns.Proofs.Instrumentation.Observer
import TimedPatterns.Proofs.Instrumentation.Names
import TimedPatterns.Proofs.Search.Bound
import TimedPatterns.Proofs.Search.Limit
import TimedPatterns.Proofs.Search.Traceless
import TimedPatterns.Proofs.Search.Holding
import TimedPatterns.Proofs.Search.Single
import TimedPatterns.Proofs.Files
import TimedPatterns.Proofs.Verify
import TimedPatterns.Proofs.Instrumentation.Markup
import TimedPatterns.Proofs.Model.Crossing
import TimedPatterns.Proofs.Model.Redeclaration
import TimedPatterns.Proofs.Instrumentation.Input
import TimedPatterns.Proofs.Witness.Interval
import TimedPatterns.Proofs.Witness.Action
import TimedPatterns.Proofs.Witness.Delay
import TimedPatterns.Proofs.Witness.Repetition
import TimedPatterns.Proofs.Witness.Bounds
import TimedPatterns.Proofs.Tool.Line
import TimedPatterns.Proofs.Query.Exclusion
import TimedPatterns.Proofs.Verify.Outcome
import TimedPatterns.Proofs.Trace
import TimedPatterns.Proofs.Verdict
import TimedPatterns.Proofs.CommandLine.Signal
import TimedPatterns.Proofs.Activity.Interleaving
import TimedPatterns.Proofs.Verify.Dialect
import TimedPatterns.Proofs.Witness.Reference
import TimedPatterns.Proofs.TimedWord
