import Daq.Config.File
import Daq.Graph.Replay
import Daq.Session
import Daq.Worker.Schedule
import Daq.Proofs.Hub.Evolution
import Daq.Proofs.Table
import Daq.Proofs.Hub.Producers
import Daq.Proofs.Hub.Pollers
import Daq.Proofs.Reconciler.Entries
import Daq.Proofs.Reconciler.Sound
import Daq.Proofs.Reconciler.Pass
import Daq.Proofs.Reconciler.Course
import Daq.Proofs.Reconciler.Emissions
import Daq.Proofs.Delivery
import Daq.Proofs.Exchange
import Daq.Proofs.Worker.Scene
import Daq.Proofs.Worker.Books
import Daq.Proofs.Worker.Control
import Daq.Proofs.Worker.Lifecycle
import Daq.Proofs.Worker.Deeds
import Daq.Proofs.Worker.Drain
import Daq.Proofs.Worker.Ticks
import Daq.Proofs.Worker.Uninterrupted
import Daq.Proofs.Queue
import Daq.Proofs.Collecting
import Daq.Proofs.Custody
import Daq.Proofs.Config.RoundTrip
import Daq.Proofs.Clientele
import Daq.Proofs.Reconciler.Outcome
import Daq.Proofs.Reconciler.Tenancy
import Daq.Proofs.Reconciler.History
import Daq.Proofs.Topic
import Daq.Proofs.Filter
import Daq.Proofs.Reconciler.Requests
import Daq.Proofs.Scheduler
import Daq.Proofs.Worker.Script
import Daq.Proofs.Worker.Panic
import Daq.Proofs.Worker.Handoff
import Daq.Proofs.Sink.Triggered
import Daq.Proofs.Sink.Multiplexed
import Daq.Proofs.Sink.Snapshots
import Daq.Proofs.Worker.Transience
import Daq.Proofs.Acceptance
import Daq.Proofs.Grammar
import Daq.Proofs.Graph.Generator
import Daq.Proofs.Graph.Replay
import Daq.Proofs.Graph.Waveform
import Daq.Proofs.Sink.Captures
import Daq.Proofs.Reconciler.Refusals
import Daq.Proofs.Batches
import Daq.Proofs.Sink.Grouping
import Daq.Proofs.Worker.Observers
