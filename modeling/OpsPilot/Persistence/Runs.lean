import OpsPilot.Observation.Revocation
import OpsPilot.Persistence.View

/-!
# Runs

Creation, claim and lease lifecycle of a Run: `newRun`, `claim`, `renewLease`, `block`,
`handOff`, the deadline sweep, backlog parking and `abandon`. Each operation has a specification
lemma that lists the guards a committed call passed and the columns it wrote; the writes
themselves are the small functions `RunRow.release` and `RunRow.granted`.

A claim on other versions blocks the Run, commits, and raises only then, so the result of
`claim` is itself a success or a code.
-/

namespace OpsPilot

namespace RunRow

/-- `SET state=…,owner=NULL,lease_until=NULL`. -/
def release (r : RunRow) (state : RunExecution) : RunRow :=
  { r with state, owner := none, leaseUntil := none }

/-- `SET state=…,owner=NULL,lease_until=NULL,control_generation=…`: the write of a decision. -/
def decided (r : RunRow) (state : RunExecution) (generation : ℕ) : RunRow :=
  { r.release state with controlGeneration := generation }

/-- The write of a claim. -/
def granted (r : RunRow) (owner : UUID) (generation : ℕ) (leaseUntil : Time) : RunRow :=
  { r with
    state := .running
    owner := some owner
    epoch := r.epoch + 1
    controlGeneration := generation
    leaseUntil := some leaseUntil }

end RunRow

namespace Store

/-- The decision's write to the Runs of an incident in the given states. -/
def moveRuns (s : Store) (incidentId : UUID) (source : List RunExecution) (target : RunExecution)
    (generation : ℕ) : Table UUID RunRow :=
  s.runs.update fun _ r =>
    if r.incidentId = incidentId ∧ r.state ∈ source then r.decided target generation else r

/-- The states a cancelling decision closes. -/
def unfinishedStates : List RunExecution := [.queued, .paused, .running, .waitingHuman, .blocked]

/-- What `new_run` is given. -/
structure NewRun where
  incidentId : UUID
  runId : UUID
  expectedGeneration : ℕ
  deadline : Time
  budgetLimit : ℕ
  versions : Json
  actor : String
  input : Option Json
  payload : Option Json

/-- The Run a continuation opens. -/
def NewRun.run (n : NewRun) (suspended : Bool) (generation : ℕ) : RunRow where
  incidentId := n.incidentId
  state := if suspended then .paused else .queued
  controlGeneration := generation
  budgetLimit := n.budgetLimit
  deadline := n.deadline
  versions := n.versions
  input := n.input

/-- The audit row that proves a Run was opened by `new_run` at a generation. -/
def newRunAudit (s : Store) (incidentId : UUID) (generation : ℕ) : Option ControlRow :=
  s.controls.find? fun c =>
    c.incidentId = incidentId ∧ c.action = .newRun ∧ c.resultingGeneration = generation

/-- `new_run`, for a `run_id` that already exists on the incident: the replay of a lost
acknowledgement returns the generation again, anything else is refused. -/
def newRunReplay (s : Store) (n : NewRun) (incident : IncidentRow) (existing : RunRow) :
    Except Code ℕ := do
  let generation := existing.controlGeneration
  match s.newRunAudit n.incidentId generation with
  | some replay =>
    if (incident.state = .queued ∨ incident.state = .paused) ∧
        incident.currentRunId = some n.runId ∧ incident.controlGeneration = generation ∧
        n.expectedGeneration + 1 = generation then
      let requested := n.payload.bind (·.field? "idempotency_key")
      let recorded := replay.payload.bind (·.field? "idempotency_key")
      refuse (requested.isSome ∧ recorded ≠ requested) .controlConflict
      pure generation
    else do
      refuse (incident.currentRunId = some n.runId ∧ incident.state ≠ .cancelled)
        .illegalTransition
      throw .identityConflict
  | none =>
    refuse (incident.currentRunId = some n.runId ∧ incident.state ≠ .cancelled)
      .illegalTransition
    throw .identityConflict

/-- The writes of `new_run`: the Run, the incident pointing at it under the next generation,
the audit row. A new Run never inherits an observation authorization, so the sessions are revoked
under the lifecycle the incident had. -/
def startRun (s : Store) (clk : Clock) (n : NewRun) (incident : IncidentRow)
    (suspended : Bool) : Store :=
  { s.revokeObservation clk n.incidentId incident.lifecycle with
    runs := s.runs.insert n.runId (n.run suspended (incident.controlGeneration + 1))
    incidents := s.incidents.modify n.incidentId fun row =>
      { row with
        state := if suspended then .paused else .queued
        lifecycle := .opened
        controlGeneration := incident.controlGeneration + 1
        currentRunId := some n.runId
        conclusion := none }
    controls :=
      { incidentId := n.incidentId, action := .newRun
        expectedGeneration := incident.controlGeneration
        resultingGeneration := incident.controlGeneration + 1
        actor := n.actor, payload := n.payload } :: s.controls }

/-- `new_run`: continue a cancelled incident with a fresh Run and control generation. -/
def newRun (s : Store) (clk : Clock) (n : NewRun) : Except Code (ℕ × Store) := do
  refuse (n.payload.any fun p => !p.isObject) .invalidInput
  let scope ← s.lockScope (some n.incidentId)
  let incident ← require (s.incidents.get n.incidentId) .unknownIdentity
  refuse (incident.mode = .humanOwned ∧ incident.lifecycle ≠ .closed) .illegalTransition
  match (s.runs.get n.runId).filter (·.incidentId = n.incidentId) with
  | some existing =>
    let generation ← s.newRunReplay n incident existing
    pure (generation, s)
  | none =>
    refuse (incident.lifecycle = .closed ∧ incident.controlGeneration ≠ n.expectedGeneration)
      .controlConflict
    refuse (incident.lifecycle = .closed) .reopenRequired
    refuse (incident.state ≠ .cancelled) .illegalTransition
    refuse (incident.controlGeneration ≠ n.expectedGeneration) .controlConflict
    refuse (s.runs.get n.runId).isSome .identityConflict
    pure (incident.controlGeneration + 1, s.startRun clk n incident scope.suspended)

/-- `claim`: take a queued, or lapsed running, Run for a new execution attempt. -/
def claim (s : Store) (clk : Clock) (incidentId runId owner : UUID) (versions : Json)
    (leaseSeconds : ℤ) : Except Code (Except Code Lease × Store) := do
  let _ ← s.lockScope (some incidentId)
  let incident ← require (s.incidents.get incidentId) .unknownIdentity
  let run ← require ((s.runs.get runId).filter (·.incidentId = incidentId)) .unknownIdentity
  let scope := s.scopeOf incident
  refuse (run.state = .running ∧ leaseLive run.leaseUntil clk.now = true) .leaseActive
  refuse (run.deadline ≤ clk.now) .deadlineExceeded
  -- human control takes precedence over version incompatibility
  refuse (incident.state ∈ [.completed, .cancelled, .paused]) .controlDenied
  refuse (incident.mode = .humanOwned) .controlDenied
  refuse (run.state ∉ [RunExecution.queued, .running, .blocked]) .controlDenied
  refuse (scope.suspended = true) .controlDenied
  if run.versions ≠ versions then
    pure (.error .incompatibleState, { s with
      runs := s.runs.modify runId fun r =>
        if r.state ∈ [.queued, .running] then { r with state := .blocked } else r })
  else do
    -- a blocked Run is not silently resumed by a matching version
    refuse (run.state = .blocked) .controlDenied
    pure (.ok {
      incidentId, runId, owner
      epoch := run.epoch + 1
      controlGeneration := incident.controlGeneration
      globalSuspensionGeneration := scope.global.generation
      targetSuspensionGeneration := scope.target.generation }, { s with
      runs := s.runs.modify runId fun r =>
        r.granted owner incident.controlGeneration
          (min (clk.later + seconds leaseSeconds) r.deadline) })

/-- `renew_lease`: extend a lease that is still held to `now + extend`, never past the deadline
and never to an earlier time. Its fence has no suspension check. -/
def renewLease (s : Store) (clk : Clock) (lease : Lease) (extendSeconds : ℤ) :
    Except Code (Time × Store) := do
  refuse (extendSeconds ≤ 0) .invalidInput
  let row ← require (s.fencedRow lease.runId) .controlDenied
  refuse (row.run.incidentId ≠ lease.incidentId ∨ row.run.state ≠ .running ∨
    row.run.owner ≠ some lease.owner ∨ row.run.epoch ≠ lease.epoch ∨
    row.incident.controlGeneration ≠ lease.controlGeneration ∨
    leaseLive row.run.leaseUntil clk.now = false ∨ row.run.deadline ≤ clk.now) .controlDenied
  let leaseUntil := min (max (row.run.leaseUntil.getD clk.now)
    (clk.now + seconds extendSeconds)) row.run.deadline
  pure (leaseUntil, { s with
    runs := s.runs.modify lease.runId fun r => { r with leaseUntil := some leaseUntil } })

/-- `block`: move this attempt's Run to `blocked`. -/
def block (s : Store) (clk : Clock) (lease : Lease) : Except Code (Unit × Store) := do
  let _ ← s.lockScope (some lease.incidentId)
  let row ← require (s.fencedRow lease.runId) .controlDenied
  refuse (row.revoked lease clk.now) .controlDenied
  pure ((), { s with
    runs := s.runs.modify lease.runId fun r =>
      if r.state = .running then r.release .blocked else r })

/-- `_park`: the one write that moves a Run to `waiting_human`. -/
def park (s : Store) (runId : UUID) (fromStates : List RunExecution) : Store :=
  { s with
    runs := s.runs.modify runId fun r =>
      if r.state ∈ fromStates then r.release .waitingHuman else r }

/-- `hand_off`: park this attempt's Run for a human. -/
def handOff (s : Store) (clk : Clock) (lease : Lease) : Except Code (Unit × Store) := do
  let _ ← s.lockScope (some lease.incidentId)
  let row ← require (s.fencedRow lease.runId) .controlDenied
  refuse (row.run.state ≠ .running ∨ row.revoked lease clk.now) .controlDenied
  pure ((), s.park lease.runId [.running])

/-- One transaction of `sweep_expired_runs`: park a candidate that is overdue under its row
lock; the generation of its incident when it was parked. -/
def sweepExpiredRun (s : Store) (clk : Clock) (incidentId runId : UUID) : Option ℕ × Store :=
  match s.runs.get runId with
  | some run =>
    if run.state ∈ [RunExecution.queued, .running] ∧ run.deadline ≤ clk.now then
      ((s.incidents.get incidentId).map (·.controlGeneration),
        s.park runId [.queued, .running])
    else (none, s)
  | none => (none, s)

/-- `_BACKLOG_FROM`: the open, automatic, unconcluded, unpaused incidents whose current Run is
still queued and not overdue, each with that Run. -/
def backlog (s : Store) (now : Time) : List (UUID × IncidentRow × UUID × RunRow) :=
  s.incidents.rows.filterMap fun e => do
    let runId ← e.2.currentRunId
    let run ← s.runs.get runId
    if e.2.state ∉ [IncidentState.paused, .cancelled, .completed] ∧ e.2.mode = .automatic ∧
        e.2.conclusion = none ∧ run.state = .queued ∧ now < run.deadline then
      some (e.1, e.2, runId, run)
    else none

/-- `ORDER BY priority DESC, deadline DESC, incident_id DESC`: `a` is parked before `b`. -/
def parkedBefore (a b : UUID × IncidentRow × UUID × RunRow) : Bool :=
  b.2.1.priority < a.2.1.priority ∨
    (b.2.1.priority = a.2.1.priority ∧ (b.2.2.2.deadline < a.2.2.2.deadline ∨
      (b.2.2.2.deadline = a.2.2.2.deadline ∧ b.1 < a.1)))

/-- `_BACKLOG_LOWEST`: the next Run to park, among those no human decision has touched. -/
def backlogLowest (s : Store) (now : Time) : Option (UUID × IncidentRow × UUID × RunRow) :=
  ((s.backlog now).filter fun e => e.2.2.2.controlGeneration = 0).foldl
    (fun best e => if best.all (parkedBefore e) then some e else best) none

/-- One transaction of `park_backlog`: park the lowest queued Run while the backlog is above
`maxQueued`; the incident, the Run and the generation when one was parked. -/
def parkBacklog (s : Store) (clk : Clock) (maxQueued : ℕ) :
    Except Code (Option (UUID × UUID × ℕ) × Store) := do
  refuse (maxQueued < 1) .invalidInput
  match s.backlogLowest clk.now with
  | none => pure (none, s)
  | some (incidentId, incident, runId, _) =>
    if (s.backlog clk.now).length ≤ maxQueued then pure (none, s)
    else pure (some (incidentId, runId, incident.controlGeneration), s.park runId [.queued])

/-- `abandon`: release only this exact lease. -/
def abandon (s : Store) (lease : Lease) : Store :=
  { s with
    runs := s.runs.modify lease.runId fun r =>
      if r.owner = some lease.owner ∧ r.epoch = lease.epoch ∧
          r.controlGeneration = lease.controlGeneration then r.release r.state
      else r }

variable {s s' : Store} {clk : Clock}

/-! ## What the operations do -/

variable {incidentId runId owner : UUID} {n : NewRun} {g maxQueued : ℕ}
  {leaseSeconds extendSeconds : ℤ} {u : Unit}

theorem newRunAudit_mem {generation : ℕ} {c : ControlRow}
    (h : s.newRunAudit incidentId generation = some c) :
    c ∈ s.controls ∧ c.incidentId = incidentId ∧ c.action = .newRun ∧
      c.resultingGeneration = generation := by
  have hc := List.find?_some h
  rw [decide_eq_true_eq] at hc
  exact ⟨List.mem_of_find?_eq_some h, hc⟩

/-- A replay returns the generation of a decision on record. -/
theorem newRunReplay_ok {incident : IncidentRow} {existing : RunRow}
    (h : s.newRunReplay n incident existing = .ok g) :
    ∃ c ∈ s.controls, c.incidentId = n.incidentId ∧ c.action = .newRun ∧
      c.resultingGeneration = g := by
  simp only [newRunReplay] at h
  split at h
  · next c hc =>
    split at h
    · simp only [refuse_bind_eq_ok, pure_eq_ok] at h
      obtain ⟨-, rfl⟩ := h
      exact ⟨c, newRunAudit_mem hc⟩
    · simp only [refuse_bind_eq_ok, throw_eq_ok, and_false] at h
  · simp only [refuse_bind_eq_ok, throw_eq_ok, and_false] at h

/-- A committed `new_run` replays a decision on record, or starts a Run on a cancelled,
automatic incident that was not closed. -/
theorem newRun_ok (h : s.newRun clk n = .ok (g, s')) :
    (s' = s ∧ ∃ c ∈ s.controls, c.incidentId = n.incidentId ∧ c.action = .newRun ∧
      c.resultingGeneration = g) ∨ ∃ incident suspended, s.incidents.get n.incidentId = some incident ∧
      incident.mode = .automatic ∧ incident.lifecycle ≠ .closed ∧ incident.state = .cancelled ∧
      incident.controlGeneration = n.expectedGeneration ∧ s.runs.get n.runId = none ∧
      g = incident.controlGeneration + 1 ∧ s' = s.startRun clk n incident suspended := by
  simp only [newRun, refuse_bind_eq_ok] at h
  obtain ⟨-, h⟩ := h
  obtain ⟨scope, -, h⟩ := bind_eq_ok.1 h
  simp only [require_bind_eq_ok, refuse_bind_eq_ok] at h
  obtain ⟨incident, hinc, hmode, h⟩ := h
  split at h
  · obtain ⟨generation, hreplay, h⟩ := bind_eq_ok.1 h
    simp only [pure_eq_ok, Prod.mk.injEq] at h
    obtain ⟨rfl, rfl⟩ := h
    exact .inl ⟨rfl, newRunReplay_ok hreplay⟩
  · simp only [refuse_bind_eq_ok, pure_eq_ok, Prod.mk.injEq, ne_eq, not_not,
      Option.not_isSome_iff_eq_none] at h
    obtain ⟨-, hlife, hstate, hgen, hrun, rfl, rfl⟩ := h
    refine .inr ⟨incident, scope.suspended, hinc, ?_, hlife, hstate, hgen, hrun, rfl, rfl⟩
    cases hm : incident.mode with
    | automatic => rfl
    | humanOwned => exact absurd ⟨hm, hlife⟩ hmode

/-- What a claim found, whichever way it ended. -/
structure Claimable (s : Store) (clk : Clock) (incidentId runId : UUID) (incident : IncidentRow)
    (run : RunRow) : Prop where
  foundIncident : s.incidents.get incidentId = some incident
  foundRun : s.runs.get runId = some run
  bound : run.incidentId = incidentId
  lapsed : run.state = .running → leaseLive run.leaseUntil clk.now = false
  deadline : clk.now < run.deadline
  control : incident.state ∉ [IncidentState.completed, .cancelled, .paused]
  mode : incident.mode = .automatic
  state : run.state ∈ [RunExecution.queued, .running, .blocked]
  isOpen : (s.scopeOf incident).suspended = false

/-- The lease a claim hands out. -/
def claimedLease (s : Store) (incidentId runId owner : UUID) (incident : IncidentRow)
    (run : RunRow) : Lease where
  incidentId := incidentId
  runId := runId
  owner := owner
  epoch := run.epoch + 1
  controlGeneration := incident.controlGeneration
  globalSuspensionGeneration := (s.scopeOf incident).global.generation
  targetSuspensionGeneration := (s.scopeOf incident).target.generation

/-- A committed claim granted the lease, or found other versions and blocked the Run. -/
theorem claim_ok {versions : Json} {result : Except Code Lease}
    (h : s.claim clk incidentId runId owner versions leaseSeconds = .ok (result, s')) :
    ∃ incident run, Claimable s clk incidentId runId incident run ∧
      (result = .error .incompatibleState ∧ s' = { s with
          runs := s.runs.modify runId fun r =>
            if r.state ∈ [.queued, .running] then { r with state := .blocked } else r } ∨
        run.state ≠ .blocked ∧
          result = .ok (s.claimedLease incidentId runId owner incident run) ∧ s' = { s with
            runs := s.runs.modify runId fun r =>
              r.granted owner incident.controlGeneration
                (min (clk.later + seconds leaseSeconds) r.deadline) }) := by
  simp only [claim] at h
  obtain ⟨-, -, h⟩ := bind_eq_ok.1 h
  simp only [require_bind_eq_ok, refuse_bind_eq_ok, Option.filter_eq_some_iff,
    decide_eq_true_eq] at h
  obtain ⟨incident, hinc, run, ⟨hrun, hbound⟩, hlapsed, hdead, hcontrol, hmode, hstate, hopen, h⟩ := h
  refine ⟨incident, run, ⟨hinc, hrun, hbound, ?_, not_le.1 hdead, hcontrol, ?_, ?_, ?_⟩, ?_⟩
  · intro hr
    by_contra hl
    exact hlapsed ⟨hr, by simpa using hl⟩
  · cases hm : incident.mode with
    | automatic => rfl
    | humanOwned => exact absurd hm hmode
  · exact not_not.1 hstate
  · simpa using hopen
  · split at h
    · simp only [pure_eq_ok, Prod.mk.injEq] at h
      exact .inl ⟨h.1.symm, h.2.symm⟩
    · simp only [refuse_bind_eq_ok, pure_eq_ok, Prod.mk.injEq] at h
      obtain ⟨hblocked, rfl, rfl⟩ := h
      exact .inr ⟨hblocked, rfl, rfl⟩

/-- A committed renewal extended the live lease of a running Run. -/
theorem renewLease_ok {lease : Lease} {until' : Time}
    (h : s.renewLease clk lease extendSeconds = .ok (until', s')) :
    ∃ run, s.runs.get lease.runId = some run ∧ run.state = .running ∧
      leaseLive run.leaseUntil clk.now = true ∧ until' ≤ run.deadline ∧ s' = { s with
        runs := s.runs.modify lease.runId fun r => { r with leaseUntil := some until' } } := by
  simp only [renewLease, refuse_bind_eq_ok, require_bind_eq_ok, pure_eq_ok, Prod.mk.injEq,
    not_or, ne_eq, not_not, Bool.not_eq_false] at h
  obtain ⟨-, row, hrow, ⟨-, hrun, -, -, -, hlive, -⟩, rfl, rfl⟩ := h
  obtain ⟨hget, -, -⟩ := fencedRow_eq_some.1 hrow
  exact ⟨row.run, hget, hrun, hlive, min_le_right _ _, rfl⟩

/-- A committed `block` held a valid lease. -/
theorem block_ok {lease : Lease} (h : s.block clk lease = .ok (u, s')) :
    ∃ row, s.fencedRow lease.runId = some row ∧ ¬ row.revoked lease clk.now ∧ s' = { s with
      runs := s.runs.modify lease.runId fun r =>
        if r.state = .running then r.release .blocked else r } := by
  simp only [block] at h
  obtain ⟨-, -, h⟩ := bind_eq_ok.1 h
  simp only [require_bind_eq_ok, refuse_bind_eq_ok, pure_eq_ok, Prod.mk.injEq] at h
  obtain ⟨row, hrow, hfence, -, rfl⟩ := h
  exact ⟨row, hrow, hfence, rfl⟩

/-- A committed `hand_off` held a valid lease on a running Run. -/
theorem handOff_ok {lease : Lease} (h : s.handOff clk lease = .ok (u, s')) :
    ∃ row, s.fencedRow lease.runId = some row ∧ row.run.state = .running ∧
      ¬ row.revoked lease clk.now ∧ s' = s.park lease.runId [.running] := by
  simp only [handOff] at h
  obtain ⟨-, -, h⟩ := bind_eq_ok.1 h
  simp only [require_bind_eq_ok, refuse_bind_eq_ok, pure_eq_ok, Prod.mk.injEq, not_or, ne_eq,
    not_not] at h
  obtain ⟨row, hrow, ⟨hrun, hfence⟩, -, rfl⟩ := h
  exact ⟨row, hrow, hrun, hfence, rfl⟩

/-- A sweep of one candidate parks an overdue queued or running Run, or does nothing. -/
theorem sweepExpiredRun_cases (s : Store) (clk : Clock) (incidentId runId : UUID) :
    (s.sweepExpiredRun clk incidentId runId).2 = s ∨
      ∃ run, s.runs.get runId = some run ∧ run.deadline ≤ clk.now ∧
        run.state ∈ [RunExecution.queued, .running] ∧
        (s.sweepExpiredRun clk incidentId runId).2 = s.park runId [.queued, .running] := by
  unfold sweepExpiredRun
  split
  · next run hrun =>
    split
    · next h => exact .inr ⟨run, hrun, h.2, h.1, rfl⟩
    · exact .inl rfl
  · exact .inl rfl

/-- A member of the backlog is the current, queued Run of its incident. -/
theorem mem_backlog {now : Time} {e : UUID × IncidentRow × UUID × RunRow}
    (h : e ∈ s.backlog now) :
    s.incidents.get e.1 = some e.2.1 ∧ s.runs.get e.2.2.1 = some e.2.2.2 ∧
      e.2.1.currentRunId = some e.2.2.1 ∧ e.2.2.2.state = .queued ∧ e.2.1.mode = .automatic := by
  simp only [backlog, List.mem_filterMap, Option.bind_eq_bind, Option.bind_eq_some_iff] at h
  obtain ⟨⟨i, row⟩, hrow, r, hr, run, hrun, h⟩ := h
  split at h
  · next hc =>
    cases h
    exact ⟨Table.mem_rows_iff.1 hrow, hrun, hr, hc.2.2.2.1, hc.2.1⟩
  · cases h

theorem foldl_best_mem {α : Type*} (better : α → α → Bool) (l : List α) (b : Option α) {x : α}
    (h : l.foldl (fun best e => if best.all (better e) then some e else best) b = some x) :
    b = some x ∨ x ∈ l := by
  induction l generalizing b with
  | nil => exact .inl h
  | cons e l ih =>
    rcases ih _ h with h' | h'
    · dsimp only at h'
      split at h'
      · cases h'
        exact .inr List.mem_cons_self
      · exact .inl h'
    · exact .inr (List.mem_cons_of_mem _ h')

/-- A backlog pass parks a queued Run no human decision has touched, or does nothing. -/
theorem parkBacklog_ok {result : Option (UUID × UUID × ℕ)}
    (h : s.parkBacklog clk maxQueued = .ok (result, s')) :
    s' = s ∨ ∃ runId run, s.runs.get runId = some run ∧ run.state = .queued ∧
      run.controlGeneration = 0 ∧ s' = s.park runId [.queued] := by
  simp only [parkBacklog, refuse_bind_eq_ok] at h
  obtain ⟨-, h⟩ := h
  split at h
  · simp only [pure_eq_ok, Prod.mk.injEq] at h
    exact .inl h.2.symm
  · next incidentId incident runId run hlowest =>
    split at h <;> simp only [pure_eq_ok, Prod.mk.injEq] at h
    · exact .inl h.2.symm
    · rcases foldl_best_mem _ _ _ hlowest with hnone | hmem
      · cases hnone
      · simp only [List.mem_filter, decide_eq_true_eq] at hmem
        obtain ⟨-, hrun, -, hqueued, -⟩ := mem_backlog hmem.1
        exact .inr ⟨runId, run, hrun, hqueued, hmem.2, h.2.symm⟩

/-! ## The operations on the control machine -/

/-- Parking a Run from states a worker or the queue left it in. -/
theorem park_step {now : Time} {run : RunRow} {fromStates : List RunExecution}
    (hrun : s.runs.get runId = some run) (hstates : ∀ e ∈ fromStates, e = .queued ∨ e = .running) :
    Control.Step now s.view .machine (s.park runId fromStates).view := by
  by_cases hstate : run.state ∈ fromStates
  · have hstep : Control.AttemptStep now s.view run.attempt
        (run.attempt.release .waitingHuman) := by
      refine .settle ?_
      rcases hstates _ hstate with h | h
      · exact .inr ⟨h, rfl⟩
      · exact .inl ⟨h, .inl rfl⟩
    refine (Control.Step.attempt (attemptsOf_get hrun) hstep).of_eq ?_
    simp only [view, park, attemptsOf_modify hrun, if_pos hstate]
    rfl
  · refine .unseen ?_
    simp only [view, park]
    rw [attemptsOf_modify_self hrun (by rw [if_neg hstate])]

/-- A decision that moves no Run. -/
theorem moveRuns_nil (s : Store) (incidentId : UUID) (target : RunExecution) (g : ℕ) :
    attemptsOf (s.moveRuns incidentId [] target g) = attemptsOf s.runs :=
  attemptsOf_update_of_eq fun _ row => by simp

/-- The attempts of an incident after a decision's write. -/
theorem attemptsOf_moveRuns (s : Store) (incidentId : UUID) (source : List RunExecution)
    (target : RunExecution) (g : ℕ) :
    attemptsOf (s.moveRuns incidentId source target g) =
      (s.view.rule incidentId source target g).attempts := by
  funext r
  simp only [attemptsOf, moveRuns, Table.get_update, Option.map_map, Control.State.rule,
    Control.State.mapAttempts, view]
  congr 1
  funext run
  by_cases h : run.incidentId = incidentId ∧ run.state ∈ source
  · simp only [Function.comp_apply, if_pos h]
    exact (if_pos h).symm
  · simp only [Function.comp_apply, if_neg h]
    exact (if_neg h).symm

theorem newRun_step (h : s.newRun clk n = .ok (g, s')) :
    s' = s ∨ Control.Step clk.now s.view (.successor n.incidentId) s'.view := by
  rcases newRun_ok h with ⟨rfl, -⟩ |
    ⟨incident, suspended, hinc, hmode, -, hstate, -, hrun, -, rfl⟩
  · exact .inl rfl
  · have hrow : (if suspended then IncidentState.paused else .queued) = .queued ∨
        (if suspended then IncidentState.paused else .queued) = .running ∨
        (if suspended then IncidentState.paused else .queued) = .paused := by
      cases suspended <;> simp
    refine .inr ((Control.Step.succeed (subjectsOf_get hinc) (attemptsOf_none hrun)
      (a := (n.run suspended (incident.controlGeneration + 1)).attempt)
      (.inr ⟨rfl, hstate⟩) hrow rfl rfl rfl ?_ hmode).of_eq ?_)
    · cases suspended
      · exact .inl rfl
      · exact .inr rfl
    · simp only [view, startRun, revokeObservation, withSessionTables, subjectsOf_modify hinc,
        attemptsOf_insert]
      simp only [Control.State.setAttempt, Control.State.setSubject, Control.State.rule,
        Control.State.mapAttempts, List.not_mem_nil, and_false, if_false, Option.map_id_fun', id]
      rfl

theorem claim_step {versions : Json} {result : Except Code Lease}
    (h : s.claim clk incidentId runId owner versions leaseSeconds = .ok (result, s')) :
    Control.Step clk.now s.view .machine s'.view := by
  obtain ⟨incident, run, hc, ⟨-, rfl⟩ | ⟨hblocked, -, rfl⟩⟩ := claim_ok h
  · by_cases hstate : run.state ∈ [RunExecution.queued, .running]
    · refine (Control.Step.attempt (attemptsOf_get hc.foundRun) (.refuse ?_)).of_eq ?_
      · simp only [List.mem_cons, List.not_mem_nil, or_false] at hstate
        exact hstate.imp id fun hr => ⟨hr, hc.lapsed hr⟩
      · simp only [view, attemptsOf_modify hc.foundRun, if_pos hstate]
        rfl
    · refine .unseen ?_
      simp only [view]
      rw [attemptsOf_modify_self hc.foundRun (by rw [if_neg hstate])]
  · have hstate := hc.state
    simp only [List.mem_cons, List.not_mem_nil, or_false] at hstate
    have hinc : s.incidents.get run.incidentId = some incident := by
      rw [hc.bound]
      exact hc.foundIncident
    have hclaimable : run.state = .queued ∨ run.state = .running := by
      rcases hstate with h | h | h
      · exact .inl h
      · exact .inr h
      · exact absurd h hblocked
    have hle : min (clk.later + seconds leaseSeconds) run.deadline ≤ run.attempt.deadline :=
      min_le_right _ _
    refine (Control.Step.attempt (attemptsOf_get hc.foundRun)
      (.grant (w := owner) (subjectsOf_get hinc) hclaimable hc.control hc.mode
        (view_open hc.isOpen) hle)).of_eq ?_
    simp only [view, attemptsOf_modify hc.foundRun]
    rfl

theorem renewLease_step {lease : Lease} {until' : Time}
    (h : s.renewLease clk lease extendSeconds = .ok (until', s')) :
    Control.Step clk.now s.view .machine s'.view := by
  obtain ⟨run, hrun, hstate, hlive, hle, rfl⟩ := renewLease_ok h
  refine (Control.Step.attempt (attemptsOf_get hrun) (.extend hstate hlive hle)).of_eq ?_
  simp only [view, attemptsOf_modify hrun]
  rfl

theorem block_step {lease : Lease} (h : s.block clk lease = .ok (u, s')) :
    Control.Step clk.now s.view .machine s'.view := by
  obtain ⟨row, hrow, -, rfl⟩ := block_ok h
  obtain ⟨hrun, -, -⟩ := fencedRow_eq_some.1 hrow
  by_cases hstate : row.run.state = .running
  · have hstep : Control.AttemptStep clk.now s.view row.run.attempt
        (row.run.attempt.release .blocked) := .settle (.inl ⟨hstate, .inr rfl⟩)
    refine (Control.Step.attempt (attemptsOf_get hrun) hstep).of_eq ?_
    simp only [view, attemptsOf_modify hrun, if_pos hstate]
    rfl
  · refine .unseen ?_
    simp only [view]
    rw [attemptsOf_modify_self hrun (by rw [if_neg hstate])]

theorem handOff_step {lease : Lease} (h : s.handOff clk lease = .ok (u, s')) :
    Control.Step clk.now s.view .machine s'.view := by
  obtain ⟨row, hrow, -, -, rfl⟩ := handOff_ok h
  exact park_step (fencedRow_eq_some.1 hrow).1 (by simp)

theorem sweepExpiredRun_step (s : Store) (clk : Clock) (incidentId runId : UUID) :
    Control.Step clk.now s.view .machine
      (s.sweepExpiredRun clk incidentId runId).2.view := by
  rcases sweepExpiredRun_cases s clk incidentId runId with h | ⟨run, hrun, -, -, h⟩ <;> rw [h]
  · exact .idle
  · exact park_step hrun (by simp)

theorem parkBacklog_step {result : Option (UUID × UUID × ℕ)}
    (h : s.parkBacklog clk maxQueued = .ok (result, s')) :
    Control.Step clk.now s.view .machine s'.view := by
  rcases parkBacklog_ok h with rfl | ⟨runId, run, hrun, -, -, rfl⟩
  · exact .idle
  · exact park_step hrun (by simp)

theorem abandon_step {now : Time} (s : Store) (lease : Lease) :
    Control.Step now s.view .machine (s.abandon lease).view := by
  cases hrun : s.runs.get lease.runId with
  | none =>
    refine .unseen ?_
    simp only [view, abandon, Control.State.mk.injEq, true_and, and_true]
    funext q
    by_cases hq : q = lease.runId
    · subst hq; simp [attemptsOf, hrun]
    · simp [attemptsOf, Table.get_modify_ne _ _ hq]
  | some run =>
    by_cases h : run.owner = some lease.owner ∧ run.epoch = lease.epoch ∧
        run.controlGeneration = lease.controlGeneration
    · refine (Control.Step.attempt (attemptsOf_get hrun) .release).of_eq ?_
      simp only [view, abandon, attemptsOf_modify hrun, if_pos h]
      rfl
    · refine .unseen ?_
      simp only [view, abandon]
      rw [attemptsOf_modify_self hrun (by rw [if_neg h])]

end Store

end OpsPilot
