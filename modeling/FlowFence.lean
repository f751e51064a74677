import FlowFence.CounterPoller
import FlowFence.Main
import FlowFence.Program.Json
import FlowFence.Proofs.Network.Mask
import FlowFence.Reconciler.Run
import FlowFence.Telemetry.Http
import FlowFence.Traffic.Verdict
import FlowFence.Proofs.Traffic.Compilation
import FlowFence.Proofs.Text.Numeral
import FlowFence.Proofs.Text.Split
import FlowFence.Proofs.Address.RoundTrip
import FlowFence.Proofs.Ruleset.Lifting
import FlowFence.Proofs.Fingerprint.Digest
import FlowFence.Proofs.Reconciler.Exits
import FlowFence.Reconciler.History
import FlowFence.Proofs.Reconciler.Synchrony
import FlowFence.Proofs.Route.Cuts
import FlowFence.Proofs.ControlSocket.EarlyEnd
import FlowFence.Proofs.Route.Blocks
import FlowFence.Proofs.Route.Truncation
import FlowFence.Proofs.Reconciler.Failures
import FlowFence.Proofs.Reconciler.Convergence
import FlowFence.Proofs.Route.Criteria
import FlowFence.Proofs.Route.MatchGroup
import FlowFence.Proofs.Network.RoundTrip
import FlowFence.Proofs.Route.RoundTrip
import FlowFence.Proofs.Ruleset.Distinctness
import FlowFence.Proofs.Reconciler.Runs
import FlowFence.Proofs.Reconciler.Shutdown
import FlowFence.Proofs.Ruleset.Phrases
import FlowFence.Proofs.Ruleset.Coherence
import FlowFence.Proofs.Reconciler.Spacing
import FlowFence.Proofs.Reconciler.Telemetry
import FlowFence.Proofs.Route.Division
import FlowFence.Proofs.Compilation.Contributions
import FlowFence.Proofs.Compilation.Delivery
import FlowFence.Proofs.Binary32.Value
import FlowFence.Proofs.Route.Community
import FlowFence.Proofs.Route.Rates
import FlowFence.Proofs.Route.Announced
import FlowFence.Proofs.Traffic.Numbers
import FlowFence.Proofs.Ruleset.Families
import FlowFence.Proofs.Network.Canonical
import FlowFence.Proofs.Text.Positional
import FlowFence.Proofs.Binary32.Fields
import FlowFence.Proofs.Route.RateFields
import FlowFence.Proofs.Ruleset.Grammar
import FlowFence.Proofs.Ruleset.Positions
import FlowFence.Proofs.Ruleset.Batches
import FlowFence.Proofs.Ruleset.Documents
import FlowFence.Proofs.Route.Partition
import FlowFence.Proofs.Route.Decorations
import FlowFence.Proofs.Address.Spelling
import FlowFence.Proofs.Address.Shortening
import FlowFence.Proofs.Network.Spelling
import FlowFence.Proofs.Text.Bases
import FlowFence.Proofs.Route.MatchLists
import FlowFence.Proofs.ControlSocket.Framing
import FlowFence.Proofs.Ruleset.Counting
import FlowFence.Proofs.CounterPoller.Gauges
import FlowFence.Proofs.CounterPoller.Schedule
import FlowFence.Proofs.Text.Spellings
import FlowFence.Proofs.Program.Serialization
import FlowFence.Proofs.Json.Tokens
import FlowFence.Proofs.Json.Grammar
import FlowFence.Proofs.Json.Members
import FlowFence.Proofs.Json.Meaning
import FlowFence.Proofs.Listing.Documents
import FlowFence.Proofs.Listing.Rules
import FlowFence.Proofs.Listing.Objects
