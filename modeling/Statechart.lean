import Statechart.State
import Statechart.Trigger
import Statechart.History
import Statechart.Text.Timestamp
import Statechart.Text.Shortest
import Statechart.Text.Escape
import Statechart.Json.Cursor
import Statechart.Json.Scalar
import Statechart.Json.Content
import Statechart.Config.Basic
import Statechart.Json.Pretty
import Statechart.Config.Write
import Statechart.Config.Read
import Statechart.Config.Error
import Statechart.Tree.Basic
import Statechart.Tree.Build
import Statechart.Actor.Time
import Statechart.Actor.Address
import Statechart.Actor.Uuid
import Statechart.Actor.Error
import Statechart.Actor.Diagnostic
import Statechart.Actor.Step
import Statechart.Actor.Scope
import Statechart.Machine.Action
import Statechart.Machine.Plan
import Statechart.Machine.Basic
import Statechart.Script.Basic
import Statechart.Script.Action
import Statechart.Actor.MachineActor
import Statechart.Actor.Registry
import Statechart.Actor.Timer
import Statechart.Actor.System
import Statechart.Actor.Interpreter
import Statechart.Script.Echo
import Statechart.Script.World
import Statechart.Demo.Basic
import Statechart.Demo.Toggle
import Statechart.Demo.PingPong
import Statechart.Demo.TicTacToe
import Statechart.Demo.Catalog
import Statechart.Main
import Statechart.Proofs.Actor.Turn
import Statechart.Proofs.Actor.Macrostep
import Statechart.Proofs.Actor.Rollback
import Statechart.Proofs.Tree.WellFormed
import Statechart.Proofs.Tree.Chains
import Statechart.Proofs.Tree.Values
import Statechart.Proofs.Tree.Ancestry
import Statechart.Proofs.Tree.Layout
import Statechart.Proofs.Tree.Shape
import Statechart.Proofs.Tree.Transitions
import Statechart.Proofs.Tree.Check
import Statechart.Proofs.Machine.Built
import Statechart.Proofs.Tree.Plans
import Statechart.Proofs.Machine.Select
import Statechart.Proofs.Actor.Configuration
import Statechart.Proofs.Machine.Transition
import Statechart.Proofs.Json.Reader
import Statechart.Proofs.Json.Quote
import Statechart.Proofs.Json.Values
import Statechart.Proofs.Config.ReadBack
import Statechart.Proofs.Json.Room
import Statechart.Proofs.Config.Nesting
import Statechart.Proofs.Config.Candidates
import Statechart.Proofs.Actor.Spec
import Statechart.Proofs.Actor.Registry
import Statechart.Proofs.Actor.System
import Statechart.Proofs.Actor.Interpreter
import Statechart.Proofs.Actor.Lifecycle
import Statechart.Proofs.Actor.Completion
import Statechart.Proofs.Actor.RegistryTree
import Statechart.Proofs.Actor.ActorTree
import Statechart.Proofs.Actor.ChildNames
import Statechart.Proofs.Actor.Recording
import Statechart.Proofs.Actor.Records
import Statechart.Proofs.Actor.RootSteps
import Statechart.Proofs.Actor.HistoryLog
import Statechart.Proofs.Actor.Eventless
import Statechart.Proofs.Tree.Kept
import Statechart.Proofs.Tree.Problems
import Statechart.Proofs.Machine.Validation
import Statechart.Proofs.Tree.Preorder
import Statechart.Proofs.Machine.Lint
import Statechart.Proofs.Actor.Resting
import Statechart.Proofs.Tree.Complete
import Statechart.Proofs.Actor.TimerOrder
import Statechart.Proofs.Actor.TimerRounds
import Statechart.Proofs.Actor.Timers
import Statechart.Proofs.Actor.ManualClock
import Statechart.Proofs.State.Dotted
import Statechart.Proofs.Tree.Targets
import Statechart.Proofs.Actor.NameOrder
import Statechart.Proofs.Actor.SubtreeRemoval
