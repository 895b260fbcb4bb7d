import OpsPilot.Persistence.Steps

/-!
# Budgets

Reservations of request slots and their settlement (`reserveBudget`, `settleBudget`), the charges
of tool dispatches (`chargeTool`) and the usage a new attempt continues from (`runUsage`).
A reservation is counted in one of three columns of its Run, by its state.

* `reserveBudget_ok`, `settleBudget_ok` and `chargeTool_eq_ok` say what each one wrote.
-/

namespace OpsPilot

/-- The settlements of `_SETTLEMENTS`. -/
inductive Settlement
  | spent | unknown
  deriving DecidableEq, Repr

/-- The state a settlement leaves. -/
def Settlement.state : Settlement → ReservationState
  | spent => .spent
  | unknown => .unknown

/-- What `run_usage` returns. -/
structure RunUsage where
  budgetLimit : ℕ
  modelRequestsUsed : ℤ
  modelSecondsUsed : ℚ
  toolOperationsUsed : ℕ
  toolSecondsUsed : ℚ

namespace RunRow

/-- `budget_reserved=budget_reserved+amount`. -/
def reserve (r : RunRow) (amount : ℤ) : RunRow :=
  { r with budgetReserved := r.budgetReserved + amount }

/-- `budget_reserved=budget_reserved-amount, column=column+amount`. -/
def settle (r : RunRow) (outcome : Settlement) (amount : ℤ) : RunRow :=
  match outcome with
  | .spent =>
    { r with budgetReserved := r.budgetReserved - amount, budgetSpent := r.budgetSpent + amount }
  | .unknown =>
    { r with
      budgetReserved := r.budgetReserved - amount, budgetUnknown := r.budgetUnknown + amount }

end RunRow

/-- What a settled tool charge records: the first settlement the actual time, a repeated one
only ever more. -/
def ToolChargeRow.settled (row : ToolChargeRow) (chargeSeconds : ℚ) : ℚ :=
  match row.seconds with
  | none => chargeSeconds
  | some recorded => max recorded chargeSeconds

namespace ToolChargeRow

/-- The time of a dispatch on the account of its Run: what it took, or what it may take. -/
def charged (row : ToolChargeRow) : ℚ := row.seconds.getD row.reserved

/-- The dispatch was opened under this lease, for this operation. -/
def OpenedBy (row : ToolChargeRow) (lease : Lease) (operationId : String) : Prop :=
  row.runId = lease.runId ∧ row.epoch = lease.epoch ∧ row.operationId = operationId

instance (row : ToolChargeRow) (lease : Lease) (operationId : String) :
    Decidable (row.OpenedBy lease operationId) := inferInstanceAs (Decidable (_ ∧ _ ∧ _))

end ToolChargeRow

namespace Store

/-- `reserve_budget`: reserve `amount` request slots, idempotent on the reservation. -/
def reserveBudget (s : Store) (clk : Clock) (lease : Lease) (reservationId : UUID) (amount : ℤ)
    (requestSeconds : ℚ) : Except Code (Unit × Store) := do
  refuse (amount ≤ 0) .invalidInput
  refuse (requestSeconds < 0) .invalidInput
  let _ ← s.lockScope (some lease.incidentId)
  let row ← require (s.heldRow lease clk.now) .controlDenied
  match s.reservations.get reservationId with
  | some existing =>
    refuse (existing.amount ≠ amount ∨ existing.runId ≠ lease.runId) .identityConflict
    pure ((), s)
  | none =>
    refuse (row.run.budgetLimit < row.run.budgetReserved + row.run.budgetSpent +
      row.run.budgetUnknown + amount) .budgetExhausted
    pure ((), { s with
      reservations := s.reservations.insert reservationId
        { runId := lease.runId, amount, reservedSeconds := requestSeconds }
      runs := s.runs.modify lease.runId (·.reserve amount) })

/-- `settle_budget`: settle one reservation. Its fence has no suspension check. -/
def settleBudget (s : Store) (clk : Clock) (lease : Lease) (reservationId : UUID)
    (outcome : Settlement) (requestSeconds : Option ℚ) : Except Code (Unit × Store) := do
  refuse (requestSeconds.any (· < 0)) .invalidInput
  let row ← require (s.fencedRow lease.runId) .controlDenied
  refuse (row.run.owner ≠ some lease.owner ∨ row.run.epoch ≠ lease.epoch ∨
    row.incident.controlGeneration ≠ lease.controlGeneration ∨
    leaseLive row.run.leaseUntil clk.now = false ∨ row.run.deadline ≤ clk.later) .controlDenied
  let reservation ← require ((s.reservations.get reservationId).filter
    (·.runId = lease.runId)) .unknownIdentity
  if reservation.state ≠ .reserved then do
    refuse (reservation.state ≠ outcome.state) .identityConflict
    pure ((), s)
  else pure ((), { s with
    reservations := s.reservations.modify reservationId fun row => { row with
      state := outcome.state
      seconds := some (requestSeconds.getD row.reservedSeconds) }
    runs := s.runs.modify lease.runId (·.settle outcome reservation.amount) })

/-- `charge_tool`: the first charge of a dispatch reserves its time, later ones settle it. Only
the first is fenced. -/
def chargeTool (s : Store) (clk : Clock) (lease : Lease) (operationId : String)
    (chargeSeconds : ℚ) (maxOperations : ℤ) (maxToolSeconds : ℚ) (dispatchId : UUID) :
    Except Code (Unit × Store) := do
  refuse (operationId = "") .invalidInput
  refuse (chargeSeconds < 0) .invalidInput
  refuse (maxOperations ≤ 0) .invalidInput
  refuse (maxToolSeconds ≤ 0) .invalidInput
  let _ ← s.lockScope (some lease.incidentId)
  let row ← require ((s.fencedRow lease.runId).filter
    (·.run.incidentId = lease.incidentId)) .controlDenied
  match (s.toolCharges.get dispatchId).filter fun c => c.runId = lease.runId ∧
      c.epoch = lease.epoch ∧ c.operationId = operationId with
  | none =>
    refuse (row.revoked lease clk.now) .controlDenied
    refuse (s.toolCharges.get dispatchId).isSome .identityConflict
    pure ((), { s with
      toolCharges := s.toolCharges.insert dispatchId
        { runId := lease.runId, epoch := lease.epoch, operationId, reserved := chargeSeconds }
      runs := s.runs.modify lease.runId fun r => { r with
        toolOperationsUsed := r.toolOperationsUsed + 1
        toolSecondsUsed := r.toolSecondsUsed + chargeSeconds } })
  | some existing =>
    let settled := existing.settled chargeSeconds
    let delta := settled - existing.seconds.getD existing.reserved
    pure ((), { s with
      toolCharges := s.toolCharges.modify dispatchId fun c => { c with seconds := some settled }
      runs := s.runs.modify lease.runId fun r => { r with
        toolSecondsUsed := r.toolSecondsUsed + delta } })

/-- `run_usage`: settled requests at their measured time, unsettled ones at their upper bound. -/
def runUsage (s : Store) (runId : UUID) : Option RunUsage :=
  (s.runs.get runId).map fun run => {
    budgetLimit := run.budgetLimit
    modelRequestsUsed := run.budgetReserved + run.budgetSpent + run.budgetUnknown
    modelSecondsUsed := ((s.reservations.select fun _ b => b.runId = runId).map fun e =>
      e.2.seconds.getD e.2.reservedSeconds).sum
    toolOperationsUsed := run.toolOperationsUsed
    toolSecondsUsed := run.toolSecondsUsed }

/-! ## What the operations do -/

variable {s s' : Store} {clk : Clock} {lease : Lease}
variable {reservationId dispatchId : UUID} {amount maxOperations : ℤ} {u : Unit}
  {operationId : String} {chargeSeconds maxToolSeconds : ℚ}

/-- A committed reservation is a replay, or takes its amount from what the limit leaves. -/
theorem reserveBudget_ok {requestSeconds : ℚ}
    (h : s.reserveBudget clk lease reservationId amount requestSeconds = .ok (u, s')) :
    s' = s ∨ ∃ run, s.runs.get lease.runId = some run ∧ 0 < amount ∧
      s.reservations.get reservationId = none ∧
      run.budgetReserved + run.budgetSpent + run.budgetUnknown + amount ≤ run.budgetLimit ∧
      s' = { s with
        reservations := s.reservations.insert reservationId
          { runId := lease.runId, amount, reservedSeconds := requestSeconds }
        runs := s.runs.modify lease.runId (·.reserve amount) } := by
  simp only [reserveBudget, refuse_bind_eq_ok, not_le] at h
  obtain ⟨hamount, -, h⟩ := h
  obtain ⟨-, -, h⟩ := bind_eq_ok.1 h
  simp only [require_bind_eq_ok] at h
  obtain ⟨row, hrow, h⟩ := h
  split at h
  · simp only [refuse_bind_eq_ok, pure_eq_ok, Prod.mk.injEq] at h
    exact .inl h.2.2.symm
  · next hnone =>
    simp only [refuse_bind_eq_ok, pure_eq_ok, Prod.mk.injEq, not_lt] at h
    obtain ⟨hle, -, rfl⟩ := h
    have hrun := (fencedRow_eq_some.1 (heldRow_eq_some.1 hrow).1).1
    exact .inr ⟨row.run, hrun, hamount, hnone, hle, rfl⟩

/-- A committed settlement repeats one that stands, or settles a reserved amount of its Run. -/
theorem settleBudget_ok {outcome : Settlement} {requestSeconds : Option ℚ}
    (h : s.settleBudget clk lease reservationId outcome requestSeconds = .ok (u, s')) :
    ∃ reservation, s.reservations.get reservationId = some reservation ∧
      reservation.runId = lease.runId ∧
      (s' = s ∧ reservation.state = outcome.state ∨
        reservation.state = .reserved ∧ s' = { s with
          reservations := s.reservations.modify reservationId fun row => { row with
            state := outcome.state
            seconds := some (requestSeconds.getD row.reservedSeconds) }
          runs := s.runs.modify lease.runId (·.settle outcome reservation.amount) }) := by
  simp only [settleBudget, refuse_bind_eq_ok, require_bind_eq_ok, Option.filter_eq_some_iff,
    decide_eq_true_eq] at h
  obtain ⟨-, row, -, -, reservation, ⟨hget, hrun⟩, h⟩ := h
  refine ⟨reservation, hget, hrun, ?_⟩
  split at h
  · simp only [refuse_bind_eq_ok, pure_eq_ok, Prod.mk.injEq, ne_eq, not_not] at h
    exact .inl ⟨h.2.2.symm, h.1⟩
  · next hstate =>
    simp only [pure_eq_ok, Prod.mk.injEq] at h
    exact .inr ⟨not_not.1 hstate, h.2.symm⟩

/-- **What a committed charge did.** The first charge of a dispatch is fenced and reserves its
time; a later one settles the dispatch its own lease opened, and is not fenced. -/
theorem chargeTool_eq_ok :
    s.chargeTool clk lease operationId chargeSeconds maxOperations maxToolSeconds dispatchId =
        .ok (u, s') ↔
      (operationId ≠ "" ∧ 0 ≤ chargeSeconds ∧ 0 < maxOperations ∧ 0 < maxToolSeconds) ∧
      (∃ scope, s.lockScope (some lease.incidentId) = .ok scope) ∧
      ∃ row, s.fencedRow lease.runId = some row ∧ row.run.incidentId = lease.incidentId ∧
        (s.toolCharges.get dispatchId = none ∧ ¬ row.revoked lease clk.now ∧ s' = { s with
            toolCharges := s.toolCharges.insert dispatchId
              { runId := lease.runId, epoch := lease.epoch, operationId, reserved := chargeSeconds }
            runs := s.runs.modify lease.runId fun r => { r with
              toolOperationsUsed := r.toolOperationsUsed + 1
              toolSecondsUsed := r.toolSecondsUsed + chargeSeconds } } ∨
          ∃ existing, s.toolCharges.get dispatchId = some existing ∧
            existing.OpenedBy lease operationId ∧ s' = { s with
              toolCharges := s.toolCharges.modify dispatchId fun c =>
                { c with seconds := some (existing.settled chargeSeconds) }
              runs := s.runs.modify lease.runId fun r => { r with
                toolSecondsUsed := r.toolSecondsUsed +
                  (existing.settled chargeSeconds - existing.charged) } }) := by
  simp only [chargeTool, refuse_bind_eq_ok, not_le, not_lt]
  rw [bind_eq_ok]
  simp only [require_bind_eq_ok, Option.filter_eq_some_iff, decide_eq_true_eq]
  constructor
  · rintro ⟨hid, hseconds, hops, hmax, scope, hlock, row, ⟨hrow, hbound⟩, h⟩
    refine ⟨⟨hid, hseconds, hops, hmax⟩, ⟨scope, hlock⟩, row, hrow, hbound, ?_⟩
    split at h
    · simp only [refuse_bind_eq_ok, pure_eq_ok, Prod.mk.injEq, Bool.not_eq_true,
        Option.isSome_eq_false_iff, Option.isNone_iff_eq_none] at h
      exact .inl ⟨h.2.1, h.1, h.2.2.2.symm⟩
    · next existing hexisting =>
      obtain ⟨hget, hopened⟩ := Option.filter_eq_some_iff.1 hexisting
      simp only [pure_eq_ok, Prod.mk.injEq] at h
      exact .inr ⟨existing, hget, of_decide_eq_true hopened, h.2.symm⟩
  · rintro ⟨⟨hid, hseconds, hops, hmax⟩, ⟨scope, hlock⟩, row, hrow, hbound, hcase⟩
    refine ⟨hid, hseconds, hops, hmax, scope, hlock, row, ⟨hrow, hbound⟩, ?_⟩
    rcases hcase with ⟨hnone, hcurrent, rfl⟩ | ⟨existing, hget, hopened, rfl⟩
    · rw [hnone, Option.filter_none]
      simp only [refuse_bind_eq_ok, pure_eq_ok, Option.isSome_none, Bool.false_eq_true,
        not_false_eq_true, and_true, hcurrent]
    · have hexisting : (s.toolCharges.get dispatchId).filter (fun c => c.runId = lease.runId ∧
          c.epoch = lease.epoch ∧ c.operationId = operationId) = some existing :=
        Option.filter_eq_some_iff.2 ⟨hget, decide_eq_true hopened⟩
      rw [hexisting]
      rfl

/-- A committed charge touches the charges and the tool columns of its Run only. -/
theorem chargeTool_ok
    (h : s.chargeTool clk lease operationId chargeSeconds maxOperations maxToolSeconds dispatchId =
      .ok (u, s')) :
    ∃ toolCharges operations total, s' = { s with
      toolCharges
      runs := s.runs.modify lease.runId fun r => { r with
        toolOperationsUsed := r.toolOperationsUsed + operations
        toolSecondsUsed := r.toolSecondsUsed + total } } := by
  obtain ⟨-, -, row, -, -, ⟨-, -, rfl⟩ | ⟨existing, -, -, rfl⟩⟩ := chargeTool_eq_ok.1 h
  · exact ⟨_, 1, _, rfl⟩
  · exact ⟨_, 0, _, rfl⟩

/-! ## The operations on the control machine -/

variable {now : Time}

theorem reserveBudget_step {requestSeconds : ℚ}
    (h : s.reserveBudget clk lease reservationId amount requestSeconds = .ok (u, s')) :
    Control.Step now s.view .machine s'.view := by
  rcases reserveBudget_ok h with rfl | ⟨run, -, -, -, -, rfl⟩
  · exact .idle
  · refine .unseen (Control.State.ext rfl ?_ rfl rfl)
    exact attemptsOf_modify_of_eq fun _ => rfl

theorem settleBudget_step {outcome : Settlement} {requestSeconds : Option ℚ}
    (h : s.settleBudget clk lease reservationId outcome requestSeconds = .ok (u, s')) :
    Control.Step now s.view .machine s'.view := by
  obtain ⟨reservation, -, -, ⟨rfl, -⟩ | ⟨-, rfl⟩⟩ := settleBudget_ok h
  · exact .idle
  · refine .unseen (Control.State.ext rfl ?_ rfl rfl)
    exact attemptsOf_modify_of_eq fun row => by cases outcome <;> rfl

theorem chargeTool_step
    (h : s.chargeTool clk lease operationId chargeSeconds maxOperations maxToolSeconds dispatchId =
      .ok (u, s')) :
    Control.Step now s.view .machine s'.view := by
  obtain ⟨toolCharges, operations, total, rfl⟩ := chargeTool_ok h
  refine .unseen (Control.State.ext rfl ?_ rfl rfl)
  exact attemptsOf_modify_of_eq fun _ => rfl

end Store

end OpsPilot
