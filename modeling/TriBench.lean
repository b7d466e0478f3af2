import TriBench.Report.Console
import TriBench.Report.Structured
import TriBench.Json.Reader
import TriBench.Text.Quoted
import TriBench.Text.Styled
import TriBench.Text.Utf8
import TriBench.Path.Basic
import TriBench.FileSystem.Operations
import TriBench.Glob
import TriBench.Config.Reader
import TriBench.Discovery
import TriBench.Failure
import TriBench.Tool.Command
import TriBench.Tally
import TriBench.Run
import TriBench.Tool.Rules
import TriBench.Report.File
import TriBench.Arguments
import TriBench.Tool.Invocation
import TriBench.Shell.Script
import TriBench.Shell.Pattern
import TriBench.Shell.Machine
import TriBench.Shell.Expansion
import TriBench.Shell.Printf
import TriBench.Shell.Condition
import TriBench.Shell.Filters
import TriBench.Shell.FileTools
import TriBench.Shell.Builtins
import TriBench.Shell.Evaluation
import TriBench.Shell.Host
import TriBench.CommandLine
import TriBench.Main
import TriBench.Proofs.Results.History
import TriBench.Proofs.Run.Agreement
import TriBench.Proofs.Run.Order
import TriBench.Proofs.Report.Structured
import TriBench.Proofs.Component.Protocol
import TriBench.Proofs.Component.Selection
import TriBench.Proofs.Build.Composite
import TriBench.Proofs.Run.Composite
import TriBench.Proofs.Build.Modules
import TriBench.Proofs.Discovery.Patterns
import TriBench.Proofs.Discovery.Found
import TriBench.Proofs.Build.Confinement
import TriBench.Proofs.Run.Elements
import TriBench.Proofs.Run.Faults
import TriBench.Proofs.Tool.Deadlines
import TriBench.Proofs.CommandLine.Faults
import TriBench.Proofs.Json.Completeness
import TriBench.Proofs.Json.Schema
import TriBench.Proofs.Config.Overrides
import TriBench.Proofs.Run.Errands
import TriBench.Proofs.Run.Variants
import TriBench.Proofs.Path.Absolute
import TriBench.Proofs.Run.Commands
import TriBench.Proofs.CommandLine.Quiet
import TriBench.Proofs.Run.Isolation
import TriBench.Proofs.CommandLine.ExitCode
import TriBench.Proofs.Run.Intake
import TriBench.Proofs.Sample.Wire
import TriBench.Proofs.Results.Streams
import TriBench.Proofs.Results.Batches
import TriBench.Proofs.Report.Console
import TriBench.Proofs.Discovery.Exact
import TriBench.Proofs.Benchmark.Names
import TriBench.Proofs.Build.Layout
import TriBench.Proofs.Component.Clones
import TriBench.Proofs.Run.Failures
import TriBench.Proofs.Report.Ratio
import TriBench.Proofs.Config.Directories
import TriBench.Proofs.Outcome.Output
import TriBench.Proofs.Tally.Colours
import TriBench.Proofs.Tool.Answers
import TriBench.Proofs.Arguments.Spelling
