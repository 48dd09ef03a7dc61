import Mocop.Lib.Dict
import Mocop.Models

/-!
# `Mocop.Incidents.Types`: the incident vocabulary

A condition is what the policy derives from one sample. An event is a transition of one
condition on one host. An open incident is a condition restored at startup. These records
are shared by the tracker, the persistence and the state store.

`IncidentPolicy` is what the tracker requires of a policy. Its law fields state what every
policy of this program guarantees about the conditions it derives, so the tracker's proofs
can use them for any policy.
-/

set_option autoImplicit false

namespace Mocop

/-- Two identities of conditions, of a host and a key each, are equal when they compare so. -/
theorem lawfulBEq_identity : LawfulBEq (String × String) := inferInstance

/-- The severity of a condition. -/
inductive IncidentSeverity where
  | warning
  | critical
  deriving DecidableEq, Repr

/-- The kind of a transition. -/
inductive IncidentState where
  | opened
  | resolved
  | escalated
  | deescalated
  deriving DecidableEq, Repr

/-- What the policy derives from one sample for one condition key.

`openAfterSeconds` is how long the condition must have been observed before it opens or
changes severity. A numeric condition is derived down to `recoveryMargin` below its
threshold: inside that band `belowThreshold` is set, and the sample keeps an open
condition open but cannot open one. `criticalAt` is the line above which it is critical. -/
structure IncidentCondition where
  key : String
  category : String
  resource : String
  severity : IncidentSeverity
  value : Option ℚ
  threshold : Option ℚ
  observedAt : String
  detail : Option String := none
  openAfterCycles : ℕ := 2
  recoveryCycles : ℕ := 2
  groupKey : Option String := none
  openAfterSeconds : ℚ := 0
  belowThreshold : Bool := false
  criticalAt : Option ℚ := none
  recoveryMargin : ℚ := 0
  deriving DecidableEq

/-- A transition of one condition on one host. -/
structure IncidentEvent where
  eventId : ℕ
  host : String
  condition : IncidentCondition
  state : IncidentState
  observedAt : String
  deriving DecidableEq

/-- A condition that was still active when the previous process stopped. `openedAt` is the
first observation of its generation. -/
structure OpenIncident where
  host : String
  condition : IncidentCondition
  openedAt : String
  deriving DecidableEq

/-- The categories whose conditions always carry a critical line. -/
def numericCategories : List String :=
  ["cpu", "memory", "disk", "gpu_memory", "swap", "pressure", "gpu_temperature"]

/-- A condition as the policies derive it from `result` under `key`: it carries its key and
the time of the sample, its category is the head of its key, and a condition of a numeric
category has a critical line. -/
structure IncidentCondition.DerivedFrom (condition : IncidentCondition)
    (result : ProbeResult) (key : String) : Prop where
  key_eq : condition.key = key
  observedAt_eq : condition.observedAt = result.observedAt
  category_eq : condition.category = partitionHead key
  criticalAt_isSome : condition.category ∈ numericCategories → condition.criticalAt.isSome

/-- Everything the tracker requires of a policy. -/
structure IncidentPolicy where
  conditions : ProbeResult → Dict String IncidentCondition
  observedDomains : ProbeResult → List String
  recoveryCycles : ℕ
  derived : ∀ result key condition, (conditions result).get? key = some condition →
    condition.DerivedFrom result key

end Mocop
