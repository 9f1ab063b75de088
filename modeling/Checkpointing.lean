import Checkpointing.CommandLine.Program
import Checkpointing.Main
import Checkpointing.Proofs.Coordinator.Breaches
import Checkpointing.Proofs.Coordinator.Collection
import Checkpointing.Proofs.Coordinator.Disposal
import Checkpointing.Proofs.Coordinator.Interleaving
import Checkpointing.Proofs.Coordinator.Numbering
import Checkpointing.Proofs.Coordinator.Occupancy
import Checkpointing.Proofs.Coordinator.Origin
import Checkpointing.Proofs.Coordinator.RecoveryPoint
import Checkpointing.Proofs.Coordinator.Reports
import Checkpointing.Proofs.Coordinator.Rollback
import Checkpointing.Proofs.Coordinator.Signals
import Checkpointing.Proofs.Coordinator.Subsumption
import Checkpointing.Proofs.Coordinator.Succession
import Checkpointing.Proofs.Coordinator.Unclaimed
import Checkpointing.Proofs.Format.Reading
import Checkpointing.Proofs.Recovery.Budget
import Checkpointing.Proofs.Recovery.Counting
import Checkpointing.Proofs.Recovery.Injection
import Checkpointing.Proofs.RoundHistory
import Checkpointing.Proofs.Service.Timeline
import Checkpointing.Proofs.Settings
import Checkpointing.Proofs.Simulation.Resumption
import Checkpointing.Proofs.Storage.Closing
import Checkpointing.Proofs.Storage.Loading
import Checkpointing.Proofs.Storage.Newest
import Checkpointing.Proofs.Storage.Overwriting
import Checkpointing.Proofs.Storage.Removal
import Checkpointing.Recovery.PlanForm
import Checkpointing.Service.Client
import Checkpointing.Simulation.Relay
