import TieredAdmission.Main
import TieredAdmission.Record.Config
import TieredAdmission.Proofs.Scheduler.Operations
import TieredAdmission.Proofs.Scheduler.Selection
import TieredAdmission.Proofs.Admission.Run
import TieredAdmission.Proofs.Capacity.Level
import TieredAdmission.Proofs.Drain
import TieredAdmission.Proofs.Breaker
import TieredAdmission.Proofs.Admission.Tracking
import TieredAdmission.Proofs.Admission.Frame
import TieredAdmission.Proofs.Admission.Progress
import TieredAdmission.Proofs.Admission.Concurrency
import TieredAdmission.Proofs.Admission.Queueing
import TieredAdmission.Proofs.Admission.Ledger
import TieredAdmission.Proofs.Admission.Linkage
import TieredAdmission.Proofs.Admission.Delivery
import TieredAdmission.Proofs.Admission.Counters
import TieredAdmission.Proofs.Admission.BreakerGate
import TieredAdmission.Proofs.Admission.Lives
import TieredAdmission.Proofs.Scheduler.Fairness
import TieredAdmission.Proofs.Breaker.History
import TieredAdmission.Proofs.Capacity.Windows
import TieredAdmission.Proofs.Capacity.Averages
import TieredAdmission.Proofs.Admission.Draining
import TieredAdmission.Proofs.Drain.Guards
import TieredAdmission.Proofs.Admission.Refusals
import TieredAdmission.Proofs.Scheduler.Interchange
import TieredAdmission.Proofs.Admission.BreakerLog
import TieredAdmission.Proofs.Admission.Readiness
import TieredAdmission.Proofs.Scheduler.Aging
import TieredAdmission.Proofs.Scheduler.Rule
import TieredAdmission.Proofs.Scheduler.ArrivalOrder
import TieredAdmission.Proofs.Scheduler.Filling
import TieredAdmission.Proofs.Scheduler.Trimming
import TieredAdmission.Proofs.Scheduler.Discarded
import TieredAdmission.Proofs.Scheduler.Isolation
import TieredAdmission.Proofs.Capacity.Table
import TieredAdmission.Proofs.Statistics
import TieredAdmission.Proofs.Config.Shares
import TieredAdmission.Proofs.Admission.Telemetry
import TieredAdmission.Proofs.Config.Rate
import TieredAdmission.Proofs.Config.Listing
import TieredAdmission.Proofs.Simulation.Options
import TieredAdmission.Proofs.Capacity.Bounds
import TieredAdmission.Proofs.Scheduler.Representation
import TieredAdmission.Proofs.Scheduler.Records
import TieredAdmission.Proofs.Decimal.Nearest
