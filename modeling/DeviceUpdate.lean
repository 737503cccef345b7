import DeviceUpdate.Main
import DeviceUpdate.Simulation.Bench
import DeviceUpdate.Proofs.Threads
import DeviceUpdate.Proofs.Session.System
import DeviceUpdate.Proofs.Session.Control
import DeviceUpdate.Proofs.Session.Discipline
import DeviceUpdate.Proofs.Session.Streams
import DeviceUpdate.Proofs.Session.Evidence
import DeviceUpdate.Proofs.Session.Reboot
import DeviceUpdate.Proofs.Procedure
import DeviceUpdate.Proofs.Procedure.Alone
import DeviceUpdate.Proofs.Partition
import DeviceUpdate.Proofs.Session.Effects
import DeviceUpdate.Proofs.Session.Replay
import DeviceUpdate.Proofs.Session.Cleanup
import DeviceUpdate.Proofs.FileSystem.Content
import DeviceUpdate.Proofs.FileSystem.Removal
import DeviceUpdate.Proofs.Assembly
import DeviceUpdate.Proofs.Assembly.Traces
import DeviceUpdate.Proofs.Assembly.Reads
import DeviceUpdate.Proofs.Assembly.Exact
import DeviceUpdate.Proofs.Assembly.Errors
import DeviceUpdate.Proofs.Assembly.Buffer
import DeviceUpdate.Proofs.Checksum
import DeviceUpdate.Proofs.Assembly.Corruption
import DeviceUpdate.Proofs.Session.Files
import DeviceUpdate.Proofs.Session.Handover
import DeviceUpdate.Proofs.Environment
import DeviceUpdate.Proofs.Session.SingleBoot
import DeviceUpdate.Proofs.Session.Recovery
import DeviceUpdate.Proofs.Session.Pending
import DeviceUpdate.Proofs.Session.Lifecycle
import DeviceUpdate.Proofs.Session.Exclusive
import DeviceUpdate.Proofs.Session.Holding
import DeviceUpdate.Proofs.Session.Engines
import DeviceUpdate.Proofs.Session.Lateness
import DeviceUpdate.Proofs.Session.Grounds
import DeviceUpdate.Proofs.Session.Refusal
import DeviceUpdate.Proofs.Session.Download
import DeviceUpdate.Proofs.Classifier
import DeviceUpdate.Proofs.Classifier.Calls
import DeviceUpdate.Proofs.Classifier.Settled
import DeviceUpdate.Proofs.Install
import DeviceUpdate.Proofs.Install.Dispatch
import DeviceUpdate.Proofs.Session.Questions
import DeviceUpdate.Proofs.Session.Layout
import DeviceUpdate.Proofs.Session.Resets
import DeviceUpdate.Proofs.FileSystem.Presence
import DeviceUpdate.Proofs.FileSystem.Places
import DeviceUpdate.Proofs.Fragment
import DeviceUpdate.Proofs.Fragment.Search
import DeviceUpdate.Proofs.Session.Sole
import DeviceUpdate.Proofs.Session.Ledger
import DeviceUpdate.Proofs.Session.Downloads
import DeviceUpdate.Proofs.Session.Confinement
import DeviceUpdate.Proofs.Session.Leftovers
import DeviceUpdate.Proofs.Session.Withdrawal
import DeviceUpdate.Proofs.Session.Rejection
import DeviceUpdate.Proofs.Stream.Delivery
import DeviceUpdate.Proofs.Stream.Completion
import DeviceUpdate.Proofs.Stream.Verdict
import DeviceUpdate.Proofs.Json.Spelling
import DeviceUpdate.Proofs.Json.Printing
import DeviceUpdate.Proofs.CommandLine.Output
import DeviceUpdate.Proofs.CommandLine.Install
import DeviceUpdate.Proofs.Version
import DeviceUpdate.Proofs.RecoveryRequest
import DeviceUpdate.Proofs.Text.Rows
import DeviceUpdate.Proofs.Text.Fields
import DeviceUpdate.Proofs.Text.Number
import DeviceUpdate.Proofs.Text.Utf8
import DeviceUpdate.Proofs.Manifest.Grammar
import DeviceUpdate.Proofs.Manifest.Writing
import DeviceUpdate.Proofs.Json.Strings
import DeviceUpdate.Proofs.Json.Grammar
import DeviceUpdate.Proofs.Config
