import RelayControl.Api
import RelayControl.Disk.Outcome
import RelayControl.Main
import RelayControl.Registration.Interleaving
import RelayControl.Stats.Interleaving
import RelayControl.Supervisor.Interleaving
import RelayControl.Supervisor.Interplay
import RelayControl.Proofs.Basic
import RelayControl.Proofs.Store.History
import RelayControl.Proofs.Relay.Clients
import RelayControl.Proofs.Relay.Entitlement
import RelayControl.Proofs.Stats.Growth
import RelayControl.Proofs.Stats.Timeline
import RelayControl.Proofs.Stats.Simulation
import RelayControl.Proofs.Stats.Counting
import RelayControl.Proofs.Stats.Accounting
import RelayControl.Proofs.Stats.Realization
import RelayControl.Proofs.Supervisor.Exclusion
import RelayControl.Proofs.Supervisor.Stopping
import RelayControl.Proofs.Supervisor.Interplay.Soundness
import RelayControl.Proofs.Supervisor.Interplay.Coherence
import RelayControl.Proofs.Supervisor.Interplay.Lifecycle
import RelayControl.Proofs.Supervisor.Interplay.Monitoring
import RelayControl.Proofs.Supervisor.Interplay.Recoveries
import RelayControl.Proofs.Supervisor.Interplay.Spawning
import RelayControl.Proofs.Supervisor.Interplay.Responsibility
import RelayControl.Proofs.Supervisor.Interplay.Yielding
import RelayControl.Proofs.Supervisor.Interplay.Alone
import RelayControl.Proofs.Stats.Conservation
import RelayControl.Proofs.Json.Quoting
import RelayControl.Proofs.Json.Reading
import RelayControl.Proofs.Registration.Calls
import RelayControl.Proofs.Registration.Atomicity
import RelayControl.Proofs.Registration.History
import RelayControl.Proofs.Registration.Interleaving
import RelayControl.Proofs.Api.Rejection
import RelayControl.Proofs.Registration.Likeness
import RelayControl.Proofs.Registration.Discretion
import RelayControl.Proofs.Registration.Keys
import RelayControl.Proofs.Api.Discretion
import RelayControl.Proofs.Relay.Dependence
import RelayControl.Proofs.Store.Listing
import RelayControl.Proofs.Relay.Isolation
import RelayControl.Proofs.Text.ByteOrder
import RelayControl.Proofs.Store.Outbounds
import RelayControl.Proofs.Json.Members
import RelayControl.Proofs.Json.Ordered
import RelayControl.Proofs.Json.Slots
import RelayControl.Proofs.Json.Layout
import RelayControl.Proofs.Relay.Config.Layouts
import RelayControl.Proofs.Json.Decoders
import RelayControl.Proofs.Json.Rewrite
import RelayControl.Proofs.Json.Shapes
import RelayControl.Proofs.Relay.Config.Returned
import RelayControl.Proofs.Json.Order
import RelayControl.Proofs.Json.Rereading
import RelayControl.Proofs.Relay.Config.Rereading
import RelayControl.Proofs.Relay.Obstacles
import RelayControl.Proofs.Relay.Outbounds
import RelayControl.Proofs.Relay.Tunnels
import RelayControl.Proofs.Json.Values
import RelayControl.Proofs.Relay.Stream
import RelayControl.Proofs.Relay.Translation
import RelayControl.Proofs.Json.Places
import RelayControl.Proofs.Relay.Tuning
import RelayControl.Proofs.Relay.Selection
import RelayControl.Proofs.Relay.Revocation
import RelayControl.Proofs.Store.Rows
import RelayControl.Store.Transaction
import RelayControl.Proofs.Store.Traffic
import RelayControl.Proofs.Store.Transaction
import RelayControl.Registration.Loop
import RelayControl.Proofs.Registration.Retries
import RelayControl.Proofs.Supervisor.Interplay.Failures
import RelayControl.Proofs.Supervisor.Interplay.Notes
import RelayControl.Proofs.Supervisor.Interplay.Blame
import RelayControl.Proofs.Supervisor.Replacement
import RelayControl.Proofs.Supervisor.Interplay.Solo
import RelayControl.Proofs.Supervisor.Interplay.Launches
import RelayControl.Proofs.Supervisor.Interplay.Unforced
import RelayControl.Proofs.Binary64.Rounding
import RelayControl.Proofs.Store.Overflow
import RelayControl.Proofs.Store.Readings
import RelayControl.Proofs.Registration.Backoff
import RelayControl.Proofs.Registration.KeysInUse
import RelayControl.Proofs.Relay.Upserts
import RelayControl.Proofs.RestartFlag
import RelayControl.Proofs.Process.Capture
import RelayControl.Proofs.PidFile.Naming
