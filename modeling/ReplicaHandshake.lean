import ReplicaHandshake.Address.Endpoint
import ReplicaHandshake.Address.IpLiteral
import ReplicaHandshake.Bytes.LittleEndian
import ReplicaHandshake.Connection.Basic
import ReplicaHandshake.Connection.Exchange
import ReplicaHandshake.Connection.Transfer
import ReplicaHandshake.Controller.Basic
import ReplicaHandshake.Controller.Registry
import ReplicaHandshake.Crash
import ReplicaHandshake.Failure
import ReplicaHandshake.Frame.Basic
import ReplicaHandshake.Frame.Codec
import ReplicaHandshake.Frame.Inbound
import ReplicaHandshake.Frame.Outbound
import ReplicaHandshake.Frame.Stream
import ReplicaHandshake.Handler.Basic
import ReplicaHandshake.Handler.Handoff
import ReplicaHandshake.Handler.Rendezvous
import ReplicaHandshake.Identity
import ReplicaHandshake.Instruction
import ReplicaHandshake.Metric.Basic
import ReplicaHandshake.Metric.Report
import ReplicaHandshake.Note
import ReplicaHandshake.Outside.Call
import ReplicaHandshake.Outside.Dialogue
import ReplicaHandshake.Outside.ErrorNumber
import ReplicaHandshake.Outside.StoreError
import ReplicaHandshake.Outside.SystemError
import ReplicaHandshake.Outside.Task
import ReplicaHandshake.Outside.TcpSocket
import ReplicaHandshake.Phase
import ReplicaHandshake.Proofs.Always
import ReplicaHandshake.Proofs.Connection.Answered
import ReplicaHandshake.Proofs.Connection.Bytes
import ReplicaHandshake.Proofs.Connection.Custody
import ReplicaHandshake.Proofs.Connection.Idle
import ReplicaHandshake.Proofs.Connection.Listening
import ReplicaHandshake.Proofs.Connection.Outflow
import ReplicaHandshake.Proofs.Connection.Poll
import ReplicaHandshake.Proofs.Connection.Renaming
import ReplicaHandshake.Proofs.Connection.Retries
import ReplicaHandshake.Proofs.Connection.Room
import ReplicaHandshake.Proofs.Connection.Sound
import ReplicaHandshake.Proofs.Connection.Steps
import ReplicaHandshake.Proofs.Connection.Traffic
import ReplicaHandshake.Proofs.Connection.Transfer
import ReplicaHandshake.Proofs.Controller.Accounts
import ReplicaHandshake.Proofs.Controller.Alone
import ReplicaHandshake.Proofs.Controller.Apart
import ReplicaHandshake.Proofs.Controller.Cleanup
import ReplicaHandshake.Proofs.Controller.Closing
import ReplicaHandshake.Proofs.Controller.Coherence
import ReplicaHandshake.Proofs.Controller.Conduct
import ReplicaHandshake.Proofs.Controller.Deadline
import ReplicaHandshake.Proofs.Controller.Deeds
import ReplicaHandshake.Proofs.Controller.Disconnections
import ReplicaHandshake.Proofs.Controller.Farewells
import ReplicaHandshake.Proofs.Controller.Following
import ReplicaHandshake.Proofs.Controller.Guarantees
import ReplicaHandshake.Proofs.Controller.Holding
import ReplicaHandshake.Proofs.Controller.House
import ReplicaHandshake.Proofs.Controller.Idle
import ReplicaHandshake.Proofs.Controller.Instructed
import ReplicaHandshake.Proofs.Controller.Instructions
import ReplicaHandshake.Proofs.Controller.Intake
import ReplicaHandshake.Proofs.Controller.Isolation
import ReplicaHandshake.Proofs.Controller.Ledger
import ReplicaHandshake.Proofs.Controller.Meeting
import ReplicaHandshake.Proofs.Controller.OpenRun
import ReplicaHandshake.Proofs.Controller.Order
import ReplicaHandshake.Proofs.Controller.Outflow
import ReplicaHandshake.Proofs.Controller.Peers
import ReplicaHandshake.Proofs.Controller.Performed
import ReplicaHandshake.Proofs.Controller.Premature
import ReplicaHandshake.Proofs.Controller.Presence
import ReplicaHandshake.Proofs.Controller.Projection
import ReplicaHandshake.Proofs.Controller.Registry
import ReplicaHandshake.Proofs.Controller.Retries
import ReplicaHandshake.Proofs.Controller.Room
import ReplicaHandshake.Proofs.Controller.Rounds
import ReplicaHandshake.Proofs.Controller.Routine
import ReplicaHandshake.Proofs.Controller.Run
import ReplicaHandshake.Proofs.Controller.Schema
import ReplicaHandshake.Proofs.Controller.Service
import ReplicaHandshake.Proofs.Controller.Stopping
import ReplicaHandshake.Proofs.Controller.StoreCalls
import ReplicaHandshake.Proofs.Controller.Tallies
import ReplicaHandshake.Proofs.Controller.Ticks
import ReplicaHandshake.Proofs.Controller.Verdicts
import ReplicaHandshake.Proofs.Frame.Capacity
import ReplicaHandshake.Proofs.Frame.Flushes
import ReplicaHandshake.Proofs.Frame.Grammar
import ReplicaHandshake.Proofs.Frame.InPlace
import ReplicaHandshake.Proofs.Frame.Pieces
import ReplicaHandshake.Proofs.Handler.Buffers
import ReplicaHandshake.Proofs.Handler.Bytes
import ReplicaHandshake.Proofs.Handler.Cleanup
import ReplicaHandshake.Proofs.Handler.Course
import ReplicaHandshake.Proofs.Handler.Custody
import ReplicaHandshake.Proofs.Handler.Deadline
import ReplicaHandshake.Proofs.Handler.Drained
import ReplicaHandshake.Proofs.Handler.Exchanges
import ReplicaHandshake.Proofs.Handler.Failing
import ReplicaHandshake.Proofs.Handler.Farewells
import ReplicaHandshake.Proofs.Handler.Grounds
import ReplicaHandshake.Proofs.Handler.Handoff
import ReplicaHandshake.Proofs.Handler.Idle
import ReplicaHandshake.Proofs.Handler.Life
import ReplicaHandshake.Proofs.Handler.Losses
import ReplicaHandshake.Proofs.Handler.Meeting
import ReplicaHandshake.Proofs.Handler.Moves
import ReplicaHandshake.Proofs.Handler.Outflow
import ReplicaHandshake.Proofs.Handler.Pace
import ReplicaHandshake.Proofs.Handler.Poll
import ReplicaHandshake.Proofs.Handler.Postings
import ReplicaHandshake.Proofs.Handler.Premature
import ReplicaHandshake.Proofs.Handler.Receipts
import ReplicaHandshake.Proofs.Handler.Renaming
import ReplicaHandshake.Proofs.Handler.Rendezvous
import ReplicaHandshake.Proofs.Handler.Rest
import ReplicaHandshake.Proofs.Handler.Retries
import ReplicaHandshake.Proofs.Handler.Room
import ReplicaHandshake.Proofs.Handler.Schema
import ReplicaHandshake.Proofs.Handler.Setbacks
import ReplicaHandshake.Proofs.Handler.Sound
import ReplicaHandshake.Proofs.Handler.Stages
import ReplicaHandshake.Proofs.Handler.Starts
import ReplicaHandshake.Proofs.Handler.Stop
import ReplicaHandshake.Proofs.Handler.Stopping
import ReplicaHandshake.Proofs.Handler.StoreCalls
import ReplicaHandshake.Proofs.Handler.Uses
import ReplicaHandshake.Proofs.History
import ReplicaHandshake.Proofs.Meeting
import ReplicaHandshake.Proofs.Reading
import ReplicaHandshake.Proofs.Records
import ReplicaHandshake.Proofs.Renaming
import ReplicaHandshake.Proofs.Way
import ReplicaHandshake.Proofs.Writing
import ReplicaHandshake.Rehearsal.Change
import ReplicaHandshake.Rehearsal.ConnectionSteps
import ReplicaHandshake.Rehearsal.Network
import ReplicaHandshake.Rehearsal.Scenario
import ReplicaHandshake.Rehearsal.Script
import ReplicaHandshake.Rehearsal.Store
import ReplicaHandshake.Rehearsal.World
import ReplicaHandshake.Settings.Basic
import ReplicaHandshake.Settings.Text
import ReplicaHandshake.Status
import ReplicaHandshake.Text.Blank
import ReplicaHandshake.Text.Json.Basic
import ReplicaHandshake.Text.Json.Parser
import ReplicaHandshake.Text.Json.Quoted
import ReplicaHandshake.Text.Utf16
import ReplicaHandshake.Time.Duration
import ReplicaHandshake.Time.DurationText
