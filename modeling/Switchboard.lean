import Switchboard.Bus.Line
import Switchboard.Bus.Plant
import Switchboard.CommandLine.Arguments
import Switchboard.CommandLine.Outcome
import Switchboard.Config.File
import Switchboard.Config.Load
import Switchboard.Config.Service
import Switchboard.Config.Setting
import Switchboard.Config.Variable
import Switchboard.Engine.Compile
import Switchboard.Engine.Input
import Switchboard.Engine.Operation
import Switchboard.Expr.Compile
import Switchboard.Expr.Error
import Switchboard.Expr.Evaluate
import Switchboard.Expr.Operator
import Switchboard.Expr.Remark
import Switchboard.Host.Input
import Switchboard.Host.Service
import Switchboard.Host.Tasks
import Switchboard.Host.Update
import Switchboard.Json.Document
import Switchboard.Json.Fields
import Switchboard.Json.Indented
import Switchboard.Json.Printer
import Switchboard.Json.Token
import Switchboard.Json.Value
import Switchboard.Log.Directive
import Switchboard.Log.Directory
import Switchboard.Log.Filter
import Switchboard.Log.Journal
import Switchboard.Log.Line
import Switchboard.Log.Note
import Switchboard.Main
import Switchboard.Number.Binary64
import Switchboard.Number.Numeral
import Switchboard.Number.Shortest
import Switchboard.Pattern.Basic
import Switchboard.Pattern.Escape
import Switchboard.Pattern.Reader
import Switchboard.Pattern.Set
import Switchboard.Presence
import Switchboard.Proofs.Config.Layers
import Switchboard.Proofs.Config.Spelling
import Switchboard.Proofs.Engine.Books
import Switchboard.Proofs.Engine.Budget
import Switchboard.Proofs.Engine.Cancelling
import Switchboard.Proofs.Engine.Checking
import Switchboard.Proofs.Engine.Circuit
import Switchboard.Proofs.Engine.ClosedLoop
import Switchboard.Proofs.Engine.Comparing
import Switchboard.Proofs.Engine.Convergence
import Switchboard.Proofs.Engine.Deliveries
import Switchboard.Proofs.Engine.Evaluation
import Switchboard.Proofs.Engine.Exchange
import Switchboard.Proofs.Engine.Firing
import Switchboard.Proofs.Engine.Formula
import Switchboard.Proofs.Engine.Gathering
import Switchboard.Proofs.Engine.Guest
import Switchboard.Proofs.Engine.Healing
import Switchboard.Proofs.Engine.Independence
import Switchboard.Proofs.Engine.LastBits
import Switchboard.Proofs.Engine.LastHeard
import Switchboard.Proofs.Engine.Logging
import Switchboard.Proofs.Engine.Loop
import Switchboard.Proofs.Engine.Midway
import Switchboard.Proofs.Engine.Offering
import Switchboard.Proofs.Engine.Reach
import Switchboard.Proofs.Engine.Reception
import Switchboard.Proofs.Engine.Renewal
import Switchboard.Proofs.Engine.Repeats
import Switchboard.Proofs.Engine.Republishing
import Switchboard.Proofs.Engine.Restart
import Switchboard.Proofs.Engine.Roster
import Switchboard.Proofs.Engine.RuleMemory
import Switchboard.Proofs.Engine.Sending
import Switchboard.Proofs.Engine.Session
import Switchboard.Proofs.Engine.Staff
import Switchboard.Proofs.Engine.Starting
import Switchboard.Proofs.Engine.Tallying
import Switchboard.Proofs.Engine.Tracing
import Switchboard.Proofs.Engine.Unreported
import Switchboard.Proofs.Engine.Updates
import Switchboard.Proofs.Engine.Verdict
import Switchboard.Proofs.Engine.View
import Switchboard.Proofs.Engine.Weighing
import Switchboard.Proofs.Engine.Working
import Switchboard.Proofs.Expr.Acceptance
import Switchboard.Proofs.Expr.Balance
import Switchboard.Proofs.Expr.Completeness
import Switchboard.Proofs.Expr.Counting
import Switchboard.Proofs.Expr.Cutting
import Switchboard.Proofs.Expr.Faults
import Switchboard.Proofs.Expr.Grammar
import Switchboard.Proofs.Expr.Infix
import Switchboard.Proofs.Expr.Polish
import Switchboard.Proofs.Expr.Precedence
import Switchboard.Proofs.Expr.Reading
import Switchboard.Proofs.Expr.Shunting
import Switchboard.Proofs.Expr.Skipping
import Switchboard.Proofs.Expr.Tokens
import Switchboard.Proofs.Host.Legible
import Switchboard.Proofs.Host.Queues
import Switchboard.Proofs.Host.Refinement
import Switchboard.Proofs.Host.Schedule
import Switchboard.Proofs.Host.Serving
import Switchboard.Proofs.Json.Members
import Switchboard.Proofs.Json.Plain
import Switchboard.Proofs.Json.Readback
import Switchboard.Proofs.Json.Records
import Switchboard.Proofs.Network.Absence
import Switchboard.Proofs.Network.Account
import Switchboard.Proofs.Network.Accounting
import Switchboard.Proofs.Network.Attending
import Switchboard.Proofs.Network.Audience
import Switchboard.Proofs.Network.Delivery
import Switchboard.Proofs.Network.Event
import Switchboard.Proofs.Network.Foreseen
import Switchboard.Proofs.Network.Journal
import Switchboard.Proofs.Network.Leaving
import Switchboard.Proofs.Network.Newest
import Switchboard.Proofs.Network.Opening
import Switchboard.Proofs.Network.Quiet
import Switchboard.Proofs.Network.Reaching
import Switchboard.Proofs.Network.Recording
import Switchboard.Proofs.Network.Repeats
import Switchboard.Proofs.Network.Rest
import Switchboard.Proofs.Network.Similar
import Switchboard.Proofs.Network.Sound
import Switchboard.Proofs.Network.Tame
import Switchboard.Proofs.Network.Traffic
import Switchboard.Proofs.Network.Transition
import Switchboard.Proofs.Number.Decimal
import Switchboard.Proofs.Number.Rounding
import Switchboard.Proofs.Rule.LogNames
import Switchboard.Proofs.Rule.LogPlaces
import Switchboard.Proofs.Rule.Wire
import Switchboard.Proofs.Signal.Amounts
import Switchboard.Proofs.Stream.Course
import Switchboard.Proofs.Stream.Emission
import Switchboard.Proofs.Stream.Handles
import Switchboard.Proofs.Stream.Joint
import Switchboard.Proofs.Stream.Last
import Switchboard.Proofs.Stream.Push
import Switchboard.Proofs.Stream.Repeats
import Switchboard.Proofs.Stream.Rounds
import Switchboard.Proofs.Term.Bits
import Switchboard.Proofs.Term.Comparison
import Switchboard.Proofs.Term.Fed
import Switchboard.Proofs.Term.Grammar
import Switchboard.Proofs.Term.Latest
import Switchboard.Proofs.Term.Readback
import Switchboard.Proofs.Term.Received
import Switchboard.Proofs.Term.Settable
import Switchboard.Proofs.Text.Cut
import Switchboard.Proofs.Text.Words
import Switchboard.Rule.Action
import Switchboard.Rule.Config
import Switchboard.Rule.Delivery
import Switchboard.Rule.Error
import Switchboard.Rule.Log
import Switchboard.Rule.Switching
import Switchboard.Signal.Coercion
import Switchboard.Stream.Basic
import Switchboard.Stream.Handle
import Switchboard.Stream.Network
import Switchboard.Stream.Script
import Switchboard.Term.Basic
import Switchboard.Term.Comparator
import Switchboard.Term.Stream
import Switchboard.Text.Alphanumeric
import Switchboard.Text.Blank
import Switchboard.Text.Bytes
import Switchboard.Text.Class
import Switchboard.Text.Hidden
import Switchboard.Text.Pieces
import Switchboard.Text.Quoted
import Switchboard.Text.Spelled
import Switchboard.Toml.Document
import Switchboard.Toml.Table
import Switchboard.Toml.Text
import Switchboard.Toml.Value
import Switchboard.Yaml.Block
import Switchboard.Yaml.Cursor
import Switchboard.Yaml.Document
import Switchboard.Yaml.Gap
import Switchboard.Yaml.Node
import Switchboard.Yaml.Plain
import Switchboard.Yaml.Property
import Switchboard.Yaml.Quoted
import Switchboard.Yaml.Token
import Switchboard.Yaml.Value
