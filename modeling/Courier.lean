import Courier.Binary64
import Courier.Binary64.Numeral
import Courier.Binary64.Shortest
import Courier.Binary64.Text
import Courier.Bridge
import Courier.Bytes
import Courier.CallId
import Courier.Channel
import Courier.Client.Network
import Courier.Client.Options
import Courier.Client.Strategy
import Courier.Dispatch
import Courier.Exchange
import Courier.Fault
import Courier.Handle
import Courier.Intake
import Courier.Json
import Courier.Log.Console
import Courier.Log.Format
import Courier.Log.Level
import Courier.Message
import Courier.Outcome
import Courier.Pipeline
import Courier.Proofs.Acceptance
import Courier.Proofs.Answering
import Courier.Proofs.Bridge
import Courier.Proofs.Building
import Courier.Proofs.Caller
import Courier.Proofs.Carrying
import Courier.Proofs.Channel
import Courier.Proofs.Closing
import Courier.Proofs.Compaction
import Courier.Proofs.Conduct
import Courier.Proofs.Conservation
import Courier.Proofs.Console
import Courier.Proofs.Containment
import Courier.Proofs.Correlation
import Courier.Proofs.Counters
import Courier.Proofs.Course
import Courier.Proofs.Crossing
import Courier.Proofs.Discretion
import Courier.Proofs.Dispatch
import Courier.Proofs.Eager
import Courier.Proofs.Effects
import Courier.Proofs.Embedded
import Courier.Proofs.Exchange
import Courier.Proofs.Fleet
import Courier.Proofs.Forwarding
import Courier.Proofs.Front
import Courier.Proofs.Hand
import Courier.Proofs.Intake
import Courier.Proofs.Launch
import Courier.Proofs.Ledger
import Courier.Proofs.Lifetime
import Courier.Proofs.Making
import Courier.Proofs.Meeting
import Courier.Proofs.Mirror
import Courier.Proofs.Outcry
import Courier.Proofs.Past
import Courier.Proofs.Pipeline
import Courier.Proofs.Posting
import Courier.Proofs.Queue
import Courier.Proofs.Refinement
import Courier.Proofs.Relay
import Courier.Proofs.Sequence
import Courier.Proofs.Settlement
import Courier.Proofs.Shift
import Courier.Proofs.Slot
import Courier.Proofs.Standalone
import Courier.Proofs.Stranding
import Courier.Proofs.Turns
import Courier.Proofs.Units
import Courier.Proofs.Wire
import Courier.Proofs.Worker
import Courier.Reactor
import Courier.Scenario.Inline
import Courier.Scenario.Lone
import Courier.Scenario.Loopback
import Courier.Scenario.Masking
import Courier.Scenario.Module
import Courier.Scenario.Run
import Courier.Scenario.Script
import Courier.Scenario.Step
import Courier.Scenario.Threads
import Courier.Scenario.World
import Courier.Signals
import Courier.Slot
import Courier.Startup
import Courier.Target
import Courier.Text.Blank
import Courier.Text.Calendar
import Courier.Text.Hex
import Courier.Text.Units
import Courier.Text.Utf8
import Courier.Text.Width
import Courier.Url
import Courier.Url.Data
import Courier.Url.Host
import Courier.Url.Percent
import Courier.Value
import Courier.Value.Build
import Courier.Value.Clone
import Courier.Value.Inspect
import Courier.Value.Joined
import Courier.Value.Json
import Courier.Value.Number
import Courier.Value.Octets
import Courier.Value.Received
import Courier.Value.Text
import Courier.Value.Uncaught
import Courier.Worker
