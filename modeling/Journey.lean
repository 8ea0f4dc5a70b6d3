import Journey.ActionLine
import Journey.Adapter
import Journey.Adapter.Record
import Journey.Arithmetic
import Journey.Bridge
import Journey.Browser
import Journey.Clockwork
import Journey.CommandLine
import Journey.CommandLine.Execution
import Journey.Compile
import Journey.Compile.Error
import Journey.Compile.Step
import Journey.Context
import Journey.Context.Record
import Journey.Decimal.Binary64
import Journey.Decimal.Nearest
import Journey.Decimal.Shortest
import Journey.Dialogue
import Journey.Dict
import Journey.Engine
import Journey.Engine.Run
import Journey.Engine.Step
import Journey.Expansion
import Journey.Lint
import Journey.Lint.Pattern
import Journey.Lint.Record
import Journey.Loader
import Journey.Location
import Journey.Locator
import Journey.Locator.Record
import Journey.Main
import Journey.Node
import Journey.Node.Json
import Journey.Node.Scalar
import Journey.Node.Yaml
import Journey.Node.Yaml.Block
import Journey.Node.Yaml.Cursor
import Journey.Node.Yaml.Flow
import Journey.Node.Yaml.Plain
import Journey.Node.Yaml.Quoted
import Journey.Perform
import Journey.Placeholder
import Journey.Policy
import Journey.Policy.Record
import Journey.Poll
import Journey.Proofs.ActionLine
import Journey.Proofs.Adapter
import Journey.Proofs.Alike
import Journey.Proofs.Backoff
import Journey.Proofs.Clock
import Journey.Proofs.Compile.Acceptance
import Journey.Proofs.Compile.Append
import Journey.Proofs.Compile.Content
import Journey.Proofs.Compile.Declaration
import Journey.Proofs.Compile.Feed
import Journey.Proofs.Compile.Identity
import Journey.Proofs.Compile.Line
import Journey.Proofs.Compile.Outline
import Journey.Proofs.Compile.Ownership
import Journey.Proofs.Compile.Purity
import Journey.Proofs.Compile.Reading
import Journey.Proofs.Compile.Repetition
import Journey.Proofs.Compile.Shift
import Journey.Proofs.Compile.Shown
import Journey.Proofs.Compile.Span
import Journey.Proofs.Compile.Step
import Journey.Proofs.Compile.Word
import Journey.Proofs.Conduct
import Journey.Proofs.Dialogue
import Journey.Proofs.Dict
import Journey.Proofs.Except
import Journey.Proofs.Installation
import Journey.Proofs.Lines
import Journey.Proofs.Loading
import Journey.Proofs.Log
import Journey.Proofs.Pace
import Journey.Proofs.Placeholder
import Journey.Proofs.Poll
import Journey.Proofs.Resolve.Absence
import Journey.Proofs.Resolve.Tiers
import Journey.Proofs.Resolve.Trial
import Journey.Proofs.Rpc.Answer
import Journey.Proofs.Rpc.History
import Journey.Proofs.Run.Action
import Journey.Proofs.Run.Attempt
import Journey.Proofs.Run.Block
import Journey.Proofs.Run.Calm
import Journey.Proofs.Run.Cancellation
import Journey.Proofs.Run.Course
import Journey.Proofs.Run.Entry
import Journey.Proofs.Run.Frame
import Journey.Proofs.Run.Hidden
import Journey.Proofs.Run.Inlining
import Journey.Proofs.Run.Invocation
import Journey.Proofs.Run.Metrics
import Journey.Proofs.Run.Naming
import Journey.Proofs.Run.Outputs
import Journey.Proofs.Run.Phases
import Journey.Proofs.Run.Place
import Journey.Proofs.Run.Policy
import Journey.Proofs.Run.Record
import Journey.Proofs.Run.References
import Journey.Proofs.Run.Residue
import Journey.Proofs.Run.Retry
import Journey.Proofs.Run.RootCause
import Journey.Proofs.Run.Seeding
import Journey.Proofs.Run.Skipping
import Journey.Proofs.Run.Step
import Journey.Proofs.Run.Substitution
import Journey.Proofs.Run.Tally
import Journey.Proofs.Run.Target
import Journey.Proofs.Run.Timing
import Journey.Proofs.Run.Touch
import Journey.Proofs.Run.Trail
import Journey.Proofs.Run.Turn
import Journey.Proofs.Scope
import Journey.Proofs.Spelling
import Journey.Proofs.Substitution
import Journey.Proofs.Text
import Journey.Proofs.Validation
import Journey.Proofs.Verdict
import Journey.Registry
import Journey.Rehearsal
import Journey.Rehearsal.Server
import Journey.Resolve
import Journey.Result
import Journey.Result.Printer
import Journey.Result.Record
import Journey.Rpc
import Journey.Rpc.Link
import Journey.Scope
import Journey.StepError
import Journey.Storage
import Journey.Storage.Disk
import Journey.Text.Blank
import Journey.Text.Digest
import Journey.Text.Word
import Journey.Text.WordTable
import Journey.Validation
import Journey.Value
import Journey.Value.Printer
import Journey.Wait
import Journey.Workflow
import Journey.Workflow.Record
