import TieredAdmission.Scheduler
import TieredAdmission.Capacity.Config
import TieredAdmission.Breaker
import TieredAdmission.Health

/-!
# Admission configuration

The configurations of the parts that make up a controller.
-/

namespace TieredAdmission

structure AdmissionConfig where
  scheduler : SchedulerConfig := {}
  capacity : CapacityConfig := {}
  breaker : BreakerConfig := {}
  health : HealthConfig := {}
  /-- The capacity of the event bus. -/
  eventBuffer : Nat := 256
  /-- How long completions are kept for reports. -/
  statsRetentionSecs : Nat := 300

/-- How long completions are kept for reports. -/
def AdmissionConfig.statsRetention (c : AdmissionConfig) : Duration :=
  .ofSeconds c.statsRetentionSecs

end TieredAdmission
