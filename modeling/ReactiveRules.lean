import ReactiveRules.Broadcast.Channel
import ReactiveRules.Command
import ReactiveRules.Dispatch.Queue
import ReactiveRules.Dispatch.Station
import ReactiveRules.Engine.Course
import ReactiveRules.Engine.Notice
import ReactiveRules.Engine.Requests
import ReactiveRules.Facts.Memory
import ReactiveRules.Graph.Basic
import ReactiveRules.History
import ReactiveRules.Json.Reader
import ReactiveRules.Proofs.Broadcast.Agreement
import ReactiveRules.Proofs.Broadcast.Audience
import ReactiveRules.Proofs.Dispatch.Waking
import ReactiveRules.Proofs.Dispatch.Window
import ReactiveRules.Proofs.Engine.Archive
import ReactiveRules.Proofs.Engine.Attempts
import ReactiveRules.Proofs.Engine.Delivery
import ReactiveRules.Proofs.Engine.Departure
import ReactiveRules.Proofs.Engine.Enrolment
import ReactiveRules.Proofs.Engine.Housekeeping
import ReactiveRules.Proofs.Engine.InForce
import ReactiveRules.Proofs.Engine.Notifications
import ReactiveRules.Proofs.Engine.Panics
import ReactiveRules.Proofs.Engine.Refusals
import ReactiveRules.Proofs.Engine.Stream
import ReactiveRules.Proofs.Engine.Supersession
import ReactiveRules.Proofs.Engine.Taking
import ReactiveRules.Proofs.Engine.Traffic
import ReactiveRules.Proofs.Facts.Latest
import ReactiveRules.Proofs.Graph.Calls
import ReactiveRules.Proofs.History.Latest
import ReactiveRules.Proofs.Rule.Attachment
import ReactiveRules.Proofs.Rule.Succession
import ReactiveRules.Proofs.Script.Afresh
import ReactiveRules.Proofs.Script.Arguments
import ReactiveRules.Proofs.Script.Cancellation
import ReactiveRules.Proofs.Script.Conversion
import ReactiveRules.Proofs.Script.Failures
import ReactiveRules.Proofs.Script.Sight
import ReactiveRules.Proofs.Settings.Environment
import ReactiveRules.Proofs.Ways.Arrival
import ReactiveRules.Proofs.Wire.Formats
import ReactiveRules.Rule.Basic
import ReactiveRules.Rule.Definition
import ReactiveRules.Rule.Desk
import ReactiveRules.Rule.Error
import ReactiveRules.Rule.Registry
import ReactiveRules.Rule.Slot
import ReactiveRules.Run.Basic
import ReactiveRules.Run.Listener
import ReactiveRules.Run.Outcome
import ReactiveRules.Script.Attend
import ReactiveRules.Script.Context
import ReactiveRules.Script.Error
import ReactiveRules.Script.Eval
import ReactiveRules.Script.Evaluator
import ReactiveRules.Settings.Environment
import ReactiveRules.Settings.Wire
import ReactiveRules.Text.Letter
