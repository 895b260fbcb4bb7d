import OpsPilot.Persistence.Schema

/-!
# The fences every operation shares

The parts every store operation is built from: the error codes, the database clock of one
operation, the control scope (`lockScope`) and the lease fence (`leaseRevoked`), which is the one
place that decides whether a lease still authorises a write.

A fenced operation reads the row of `fencedRow`: the Run, the incident it belongs to, and the
scope of that incident. `leaseCurrent` is the shared lease check on the whole database.
-/

namespace OpsPilot

/-- The codes of `PersistenceError`. -/
inductive Code
  | unknownIdentity | unknownTarget | invalidInput | identityConflict | inconsistentState
  | controlConflict | controlDenied | illegalTransition | reopenRequired | leaseActive
  | deadlineExceeded | incompatibleState | targetUnchanged | targetMismatch | handoffOnly
  | renewInputStale | finalStepRequired | budgetExhausted | scopeSuspended
  | targetIdentityMissing | healthProfileTargetMismatch | healthProfileRevisionMismatch
  | healthProfileUnreadable | observationAlreadyAuthorized | storageUnavailable | retry
  deriving DecidableEq, Repr

/-- The database clock during one operation: `now` is the reading its checks use, `later` a
reading taken by a later statement. The clock never goes back. -/
structure Clock where
  now : Time
  later : Time
  now_le_later : now ≤ later

/-- The credential of a claimed Run. -/
structure Lease where
  incidentId : UUID
  runId : UUID
  owner : UUID
  epoch : ℕ
  controlGeneration : ℕ
  globalSuspensionGeneration : ℕ := 0
  targetSuspensionGeneration : ℕ := 0
  deriving DecidableEq, Repr

/-- The gates that cover an incident: the global one and its target's. -/
structure Scope where
  global : Gate
  target : Gate
  deriving DecidableEq

namespace Scope

/-- Suspended at either gate. -/
def suspended (scope : Scope) : Bool := scope.global.suspended || scope.target.suspended

end Scope

namespace Store

/-- The scope columns a fenced read joins to an incident; a target without a suspension row
counts as open at generation 0. -/
def scopeOf (s : Store) (incident : IncidentRow) : Scope where
  global := s.scope
  target := (incident.targetId.bind s.targetSuspensions.get).getD {}

/-- The suspension row of a target, which must be there. -/
def requireGate (s : Store) : Option UUID → Except Code Gate
  | some targetId => require (s.targetSuspensions.get targetId) .inconsistentState
  | none => .ok {}

/-- `_lock_scope`: the scope of an incident, or of no incident. Every target read must have its
suspension row. -/
def lockScope (s : Store) (incidentId : Option UUID) (extraTargetIds : List UUID := []) :
    Except Code Scope := do
  let target ← s.requireGate ((incidentId.bind s.incidents.get).bind IncidentRow.targetId)
  refuse (extraTargetIds.any fun t => (s.targetSuspensions.get t).isNone) .inconsistentState
  pure ⟨s.scope, target⟩

/-- A Run with its incident and the scope of the incident. -/
structure FencedRow where
  run : RunRow
  incident : IncidentRow
  scope : Scope

/-- `SELECT … FROM opspilot_runs r JOIN opspilot_incidents i ON i.incident_id=r.incident_id …
WHERE r.run_id=…`. -/
def fencedRow (s : Store) (runId : UUID) : Option FencedRow := do
  let run ← s.runs.get runId
  let incident ← s.incidents.get run.incidentId
  some ⟨run, incident, s.scopeOf incident⟩

end Store

/-- `_lease_revoked`: the one lease fence. The authority is the generation of the incident, not
the copy in the Run; a missing `lease_until` reads as revoked. -/
def leaseRevoked (run : RunRow) (incidentGeneration : ℕ) (scope : Scope) (lease : Lease)
    (now : Time) : Prop :=
  run.owner ≠ some lease.owner ∨ run.epoch ≠ lease.epoch ∨
    incidentGeneration ≠ lease.controlGeneration ∨ leaseLive run.leaseUntil now = false ∨
    run.deadline ≤ now ∨ scope.global.suspended = true ∨ scope.target.suspended = true ∨
    scope.global.generation ≠ lease.globalSuspensionGeneration ∨
    scope.target.generation ≠ lease.targetSuspensionGeneration

instance (run : RunRow) (incidentGeneration : ℕ) (scope : Scope) (lease : Lease) (now : Time) :
    Decidable (leaseRevoked run incidentGeneration scope lease now) :=
  inferInstanceAs (Decidable (_ ∨ _ ∨ _ ∨ _ ∨ _ ∨ _ ∨ _ ∨ _ ∨ _))

namespace Store

/-- `_lease_revoked` on a fenced row. -/
def FencedRow.revoked (row : FencedRow) (lease : Lease) (now : Time) : Prop :=
  leaseRevoked row.run row.incident.controlGeneration row.scope lease now

instance (row : FencedRow) (lease : Lease) (now : Time) : Decidable (row.revoked lease now) :=
  inferInstanceAs (Decidable (leaseRevoked _ _ _ _ _))

/-- `lease_current`: the shared lease check, with the Run and the incident both bound. -/
def leaseCurrent (s : Store) (lease : Lease) (now : Time) : Bool :=
  match s.fencedRow lease.runId with
  | some row => row.run.incidentId = lease.incidentId ∧ ¬ row.revoked lease now
  | none => false

end Store

/-! ## What the fence says -/

theorem not_leaseRevoked {run : RunRow} {incidentGeneration : ℕ} {scope : Scope} {lease : Lease}
    {now : Time} :
    ¬ leaseRevoked run incidentGeneration scope lease now ↔
      run.owner = some lease.owner ∧ run.epoch = lease.epoch ∧
        incidentGeneration = lease.controlGeneration ∧ leaseLive run.leaseUntil now = true ∧
        now < run.deadline ∧ scope.global.suspended = false ∧ scope.target.suspended = false ∧
        scope.global.generation = lease.globalSuspensionGeneration ∧
        scope.target.generation = lease.targetSuspensionGeneration := by
  simp only [leaseRevoked, not_or, not_not, Bool.not_eq_false, Bool.not_eq_true, not_le]

namespace Store

variable {s : Store}

theorem fencedRow_eq_some {runId : UUID} {row : FencedRow} :
    s.fencedRow runId = some row ↔
      s.runs.get runId = some row.run ∧ s.incidents.get row.run.incidentId = some row.incident ∧
        row.scope = s.scopeOf row.incident := by
  obtain ⟨run, incident, scope⟩ := row
  simp only [fencedRow, Option.bind_eq_bind, Option.bind_eq_some_iff, Option.some.injEq,
    FencedRow.mk.injEq]
  constructor
  · rintro ⟨run', hrun, incident', hinc, rfl, rfl, rfl⟩
    exact ⟨hrun, hinc, rfl⟩
  · rintro ⟨hrun, hinc, rfl⟩
    exact ⟨run, hrun, incident, hinc, rfl, rfl, rfl⟩

theorem leaseCurrent_eq_true {lease : Lease} {now : Time} :
    s.leaseCurrent lease now = true ↔
      ∃ row, s.fencedRow lease.runId = some row ∧ row.run.incidentId = lease.incidentId ∧
        ¬ row.revoked lease now := by
  unfold leaseCurrent
  cases s.fencedRow lease.runId with
  | none => simp
  | some row => simp

/-- The scope `lockScope` returns for an incident is the scope the fenced reads join to it. -/
theorem lockScope_eq_ok {incidentId : UUID} {incident : IncidentRow} {extra : List UUID}
    {scope : Scope} (hinc : s.incidents.get incidentId = some incident)
    (h : s.lockScope (some incidentId) extra = .ok scope) : scope = s.scopeOf incident := by
  simp only [lockScope, Option.bind_some, hinc] at h
  obtain ⟨gate, hgate, h⟩ := bind_eq_ok.1 h
  simp only [refuse_bind_eq_ok, pure_eq_ok] at h
  obtain ⟨-, rfl⟩ := h
  cases htarget : incident.targetId with
  | none =>
    rw [htarget, requireGate, Except.ok.injEq] at hgate
    simp [scopeOf, htarget, hgate]
  | some targetId =>
    rw [htarget, requireGate, require_eq_ok] at hgate
    simp [scopeOf, htarget, hgate]

end Store

end OpsPilot
