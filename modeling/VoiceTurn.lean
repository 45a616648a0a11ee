import VoiceTurn.Bus.Listener
import VoiceTurn.Conductor.Host
import VoiceTurn.Main
import VoiceTurn.Settings.Document
import VoiceTurn.Settings.Load
import VoiceTurn.Text.Words
import VoiceTurn.Proofs.Turn.Protocol
import VoiceTurn.Proofs.Turn.Run
import VoiceTurn.Proofs.Turn.Chronicle
import VoiceTurn.Proofs.Turn.Lifecycle
import VoiceTurn.Proofs.Turn.Stages
import VoiceTurn.Proofs.Turn.Redelivery
import VoiceTurn.Proofs.Conductor.Refinement
import VoiceTurn.Proofs.Conductor.Acts
import VoiceTurn.Proofs.Conductor.Announcements
import VoiceTurn.Proofs.Conductor.Counters
import VoiceTurn.Proofs.Line.Codec
import VoiceTurn.Proofs.Line.Framing
import VoiceTurn.Proofs.Line.Transport
import VoiceTurn.Proofs.Topic.Routing
import VoiceTurn.Proofs.Conductor.Timing
import VoiceTurn.Proofs.Line.Progress
import VoiceTurn.Proofs.Conductor.Service
import VoiceTurn.Proofs.Conductor.Host
import VoiceTurn.Proofs.Conductor.Forwarding
import VoiceTurn.Proofs.Bus.Dispatch
import VoiceTurn.Proofs.Bus.Reception
import VoiceTurn.Proofs.Conductor.Incidents
import VoiceTurn.Proofs.Conductor.Operation
import VoiceTurn.Proofs.Conductor.Queueing
import VoiceTurn.Proofs.Conductor.Deadline
import VoiceTurn.Proofs.Conductor.Watchdog
import VoiceTurn.Proofs.Tap.Flow
import VoiceTurn.Proofs.Conductor.Isolation
import VoiceTurn.Proofs.Conductor.Recording
import VoiceTurn.Proofs.Conductor.Startup
import VoiceTurn.Proofs.Topic.Roots
import VoiceTurn.Proofs.Conductor.Routes
import VoiceTurn.Proofs.Line.Retrying
import VoiceTurn.Proofs.Conductor.Shutdown
import VoiceTurn.Proofs.Conductor.EndOfInput
import VoiceTurn.Proofs.Json.Quoting
import VoiceTurn.Proofs.Response.Rendering
import VoiceTurn.Proofs.Conductor.Speech
import VoiceTurn.Proofs.Line.Grammar
import VoiceTurn.Proofs.Line.Segments
import VoiceTurn.Proofs.Line.Fetching
import VoiceTurn.Proofs.Json.Objects
import VoiceTurn.Proofs.Text.ByteOrder
import VoiceTurn.Proofs.Text.Template
import VoiceTurn.Proofs.Response.Composition
import VoiceTurn.Proofs.Response.Slots
import VoiceTurn.Proofs.Topic.Matching
import VoiceTurn.Proofs.Bus.History
import VoiceTurn.Proofs.Bus.Retrying
import VoiceTurn.Proofs.Turn.StallClock
import VoiceTurn.Proofs.Turn.Interruption
import VoiceTurn.Proofs.Settings.Overrides
import VoiceTurn.Proofs.Bus.Sharing
import VoiceTurn.Proofs.Conductor.Subscribing
import VoiceTurn.Proofs.Settings.Validity
import VoiceTurn.Proofs.Bus.Backoff
import VoiceTurn.Proofs.Settings.Blame
import VoiceTurn.Proofs.Settings.Leaves
import VoiceTurn.Proofs.Settings.Merging
import VoiceTurn.Proofs.Settings.Layering
import VoiceTurn.Proofs.Json.Writing
import VoiceTurn.Proofs.Json.Decoding
import VoiceTurn.Proofs.Settings.Documents
import VoiceTurn.Proofs.Settings.Saving
import VoiceTurn.Proofs.Conductor.Limit
