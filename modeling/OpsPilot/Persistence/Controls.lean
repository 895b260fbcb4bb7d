import OpsPilot.Persistence.Incidents
import OpsPilot.Persistence.Runs

/-!
# Human control

Suspension of the global scope and of a target (`setGlobalSuspension`, `setTargetSuspension`),
the human decisions on one incident (`control`), and the inputs decisions and events append.

`control` checks its request, then branches on the action: `close`, `reopen`, `rebindTarget`,
`mergeInto` and `takeover` have bodies of their own, the other five share `ordinary`. What an
accepted decision wrote is the relation `Decided`, with one constructor for each kind of write:

* `control_ok`: an accepted decision was expected at the incident's generation and is `Decided`;
* `control_move`: it is one decision of the control machine, after the registration of a target
  if the decision needed one.
-/

namespace OpsPilot

/-- `renew_basis`: the Run and the conclusion the caller built the successor's input from. -/
structure RenewBasis where
  runId : Option UUID
  concluded : Bool
  deriving DecidableEq

/-- What `control` is given. `survivorId` is the incident `payload["into_incident_id"]` spells,
`mergeEvent` the content of `_merge_event`, and `inputId` and `targetId` are the identities the
transaction draws for an input and for a target registered with a rebind. -/
structure ControlRequest where
  incidentId : UUID
  expectedGeneration : ℕ
  action : ControlAction
  actor : String
  payload : Option Json := none
  renewRunId : Option UUID := none
  renewDeadline : Option Time := none
  renewInput : Option Json := none
  renewBasis : Option RenewBasis := none
  survivorId : Option UUID := none
  mergeEvent : Json := .obj []
  inputId : UUID := 0
  targetId : UUID := 0

/-- `_CONTROL_OPEN_RUN_STATES`: the Run states a decision other than cancel acts on. -/
def controlOpenRunStates : List RunExecution := [.queued, .running, .paused, .waitingHuman]

/-- The incident has a conclusion, or its control mirror is closed. -/
def IncidentRow.concluded (row : IncidentRow) : Bool :=
  row.state ∈ [IncidentState.cancelled, .completed] ∨ row.conclusion.isSome

/-- The Run is still open, past its deadline. -/
def RunRow.overdue (row : RunRow) (now : Time) : Bool :=
  row.state ∈ controlOpenRunStates ∧ row.deadline ≤ now

namespace ControlRequest

variable (r : ControlRequest) (incident : IncidentRow) (run : RunRow) (suspended : Bool)

/-- A `follow_up` or a `correct`. -/
def note : Bool := r.action ∈ [ControlAction.followUp, .correct]

/-- The generation an accepted decision leaves. -/
def generation : ℕ := r.expectedGeneration + 1

/-- The audit row of the decision. -/
def audit (payload : Option Json) : ControlRow where
  incidentId := r.incidentId
  action := .control r.action
  expectedGeneration := r.expectedGeneration
  resultingGeneration := r.generation
  actor := r.actor
  payload

/-- The note cannot continue the current Run, so it starts a successor. -/
def renews (now : Time) : Bool :=
  r.note ∧ (run.overdue now ∨ incident.concluded) ∧ incident.mode ≠ .humanOwned

/-- The incident stays paused under the decision. -/
def keepsPaused : Bool :=
  r.action ≠ .cancel ∧ (suspended ∨ incident.state = .paused ∧ r.note)

/-- The control mirror the decision leaves. -/
def state : IncidentState :=
  if incident.mode = .humanOwned ∧ r.note then incident.state
  else if r.keepsPaused incident suspended then .paused
  else match r.action with
    | .cancel => .cancelled
    | .pause => .paused
    | _ => .running

/-- The successor Run of a renewal: the budget and versions of the old one, its own deadline
and input. -/
def successor (deadline : Time) : RunRow where
  incidentId := r.incidentId
  state := if r.keepsPaused incident suspended then .paused else .queued
  controlGeneration := r.generation
  budgetLimit := run.budgetLimit
  deadline
  versions := run.versions
  input := r.renewInput

end ControlRequest

/-- The kind of the input a note appends. -/
def ControlAction.inputKind : ControlAction → InputKind
  | .correct => .correct
  | _ => .followUp

/-- How `set_target_suspension` names its target. -/
inductive TargetRef
  | id (targetId : UUID)
  | uid (resourceUid : String)

namespace Store

/-! ## Suspension -/

/-- The incidents a closing gate pauses: covered, unconcluded, with an open current Run. -/
def pausedIncident (s : Store) (covers : IncidentRow → Bool) (row : IncidentRow) : IncidentRow :=
  if covers row ∧ row.conclusion = none ∧ row.state ∉ [IncidentState.completed, .cancelled] ∧
      (row.currentRunId.bind s.runs.get).any fun r =>
        r.state ∈ [RunExecution.queued, .running, .waitingHuman, .paused]
  then { row with state := .paused } else row

/-- The writes of a closing gate. -/
def suspend (s : Store) (covers : IncidentRow → Bool) (reaches : RunRow → Bool) : Store :=
  { s with
    incidents := s.incidents.update fun _ row => s.pausedIncident covers row
    runs := s.runs.update fun _ r =>
      if reaches r ∧ r.state ∈ [RunExecution.queued, .running, .waitingHuman]
      then r.release .paused else r }

/-- The incident is bound to the target. -/
def boundTo (targetId : UUID) (row : IncidentRow) : Bool := row.targetId = some targetId

/-- `incident_id IN (SELECT incident_id FROM opspilot_incidents WHERE target_id=…)`. -/
def runBoundTo (s : Store) (targetId : UUID) (r : RunRow) : Bool :=
  (s.incidents.get r.incidentId).any (boundTo targetId)

/-- `set_global_suspension`. A write of the same value is recorded, but does not move the
generation: it would revoke leases nothing happened to. -/
def setGlobalSuspension (s : Store) (suspended : Bool) (expectedGeneration : ℕ)
    (actor : String) : Except Code (ℕ × Store) := do
  let current := s.scope.generation
  refuse (expectedGeneration ≠ current) .controlConflict
  if suspended = s.scope.suspended then
    pure (current, { s with
      suspensionAudit := ⟨none, suspended, current, actor⟩ :: s.suspensionAudit })
  else
    pure (current + 1,
      { (if suspended then s.suspend (fun _ => true) (fun _ => true) else s) with
        scope := ⟨suspended, current + 1⟩
        suspensionAudit := ⟨none, suspended, current + 1, actor⟩ :: s.suspensionAudit })

/-- The target a suspension names; an unknown uid is registered in the same transaction. -/
def resolveTarget (s : Store) (fresh : UUID) : TargetRef → Except Code (UUID × Store)
  | .uid resourceUid => do
    refuse (resourceUid = "") .invalidInput
    match s.targetByUid resourceUid with
    | some targetId => pure (targetId, s)
    | none => do
      refuse (s.targets.get fresh).isSome .identityConflict
      pure (fresh, { s with targets := s.targets.insert fresh { resourceUid } })
  | .id targetId => do
    refuse (s.targets.get targetId).isNone .unknownTarget
    pure (targetId, s)

/-- `INSERT INTO opspilot_target_suspensions … ON CONFLICT DO NOTHING`. -/
def ensureGate (s : Store) (targetId : UUID) : Store :=
  if (s.targetSuspensions.get targetId).isSome then s
  else { s with targetSuspensions := s.targetSuspensions.insert targetId {} }

/-- The flip of a target's gate, with its audit row. -/
def flipTarget (s : Store) (targetId : UUID) (suspended : Bool) (generation : ℕ)
    (actor : String) : Store :=
  { (if suspended then s.suspend (boundTo targetId) (s.runBoundTo targetId) else s) with
    targetSuspensions := s.targetSuspensions.insert targetId ⟨suspended, generation⟩
    suspensionAudit := ⟨some targetId, suspended, generation, actor⟩ :: s.suspensionAudit }

/-- `set_target_suspension`. -/
def setTargetSuspension (s : Store) (target : TargetRef) (fresh : UUID) (suspended : Bool)
    (expectedGeneration : ℕ) (actor : String) : Except Code (ℕ × Store) := do
  let resolved ← s.resolveTarget fresh target
  let targetId := resolved.1
  let s := resolved.2.ensureGate targetId
  let gate := (s.targetSuspensions.get targetId).getD {}
  refuse (expectedGeneration ≠ gate.generation) .controlConflict
  if suspended = gate.suspended then
    pure (gate.generation, { s with
      suspensionAudit := ⟨some targetId, suspended, gate.generation, actor⟩ :: s.suspensionAudit })
  else
    pure (gate.generation + 1, s.flipTarget targetId suspended (gate.generation + 1) actor)

/-! ## Inputs -/

/-- The inputs of an incident. -/
def inputsOf (s : Store) (incidentId : UUID) : List (UUID × InputRow) :=
  s.inputs.select fun _ row => row.incidentId = incidentId

/-- `SELECT COALESCE(MAX(sequence),0) … WHERE incident_id=…`. -/
def lastSequence (s : Store) (incidentId : UUID) : ℕ :=
  ((s.inputsOf incidentId).map fun e => e.2.sequence).foldr max 0

/-- Append an input under the next sequence of its incident. -/
def addInput (s : Store) (incidentId inputId : UUID) (kind : InputKind) (content : Json)
    (actor : String) (controlGeneration : ℕ) : Store :=
  { s with
    inputs := s.inputs.insert inputId
      { incidentId, sequence := s.lastSequence incidentId + 1, kind, content, actor
        controlGeneration } }

/-- `append_input_in`: receive an event, idempotent on `inputId`. -/
def appendInput (s : Store) (incidentId inputId : UUID) (content : Json) (actor : String) :
    Except Code (ℕ × Store) := do
  refuse (content.isObject = false) .invalidInput
  let incident ← require (s.incidents.get incidentId) .unknownIdentity
  match s.inputs.get inputId with
  | some row =>
    refuse (row.incidentId ≠ incidentId ∨ row.content ≠ content ∨ row.actor ≠ actor)
      .identityConflict
    pure (row.sequence, s)
  | none =>
    pure (s.lastSequence incidentId + 1,
      s.addInput incidentId inputId .event content actor incident.controlGeneration)

/-! ## Decisions -/

/-- The control mirror after the unfinished Runs of an incident were cancelled. -/
def stateAfterCancel (s : Store) (incidentId : UUID) (incident : IncidentRow) : IncidentState :=
  if (incident.currentRunId.bind s.runs.get).any fun r =>
      r.incidentId = incidentId ∧ r.state ∈ unfinishedStates
  then .cancelled else incident.state

/-- The writes close, rebind and merge share: the generation, the observation revoked under the
lifecycle the incident had, every unfinished Run cancelled, the audit row. `f` is the rest of
the write to the incident. -/
def terminate (s : Store) (clk : Clock) (r : ControlRequest) (incident : IncidentRow)
    (payload : Option Json) (f : IncidentRow → IncidentRow) : Store :=
  { s.revokeObservation clk r.incidentId incident.lifecycle with
    runs := s.moveRuns r.incidentId unfinishedStates .cancelled r.generation
    incidents := s.incidents.modify r.incidentId fun row => f { row with
      controlGeneration := r.generation
      state := s.stateAfterCancel r.incidentId incident }
    controls := r.audit payload :: s.controls }

/-- `control`, close. -/
def close (s : Store) (clk : Clock) (r : ControlRequest) (incident : IncidentRow) :
    Except Code Store := do
  refuse (incident.lifecycle = .closed) .illegalTransition
  pure (s.terminate clk r incident r.payload fun row => { row with lifecycle := .closed })

/-- `control`, reopen: only settled incidents, and no work starts. -/
def reopen (s : Store) (r : ControlRequest) (incident : IncidentRow) : Except Code Store := do
  refuse (incident.lifecycle.settled = false) .illegalTransition
  pure { s with
    incidents := s.incidents.modify r.incidentId fun row => { row with
      controlGeneration := r.generation, lifecycle := .opened }
    controls := r.audit r.payload :: s.controls }

/-- The target a rebind moves to, registered now if its uid has no row yet. -/
def rebindTo (s : Store) (fresh : UUID) (toUid : String) (registered : Option UUID) :
    Except Code (UUID × Store) :=
  match registered with
  | some targetId => pure (targetId, s)
  | none => do
    refuse ((s.targets.get fresh).isSome ∨ (s.targetSuspensions.get fresh).isSome)
      .identityConflict
    pure (fresh, s.addTarget fresh toUid)

/-- `control`, rebind. -/
def rebindTarget (s : Store) (clk : Clock) (r : ControlRequest) (incident : IncidentRow)
    (toUid : String) (registered : Option UUID) : Except Code Store := do
  refuse (incident.lifecycle.settled = true) .reopenRequired
  let targetId ← require incident.targetId .illegalTransition
  refuse (registered = some targetId) .targetUnchanged
  let rebound ← s.rebindTo r.targetId toUid registered
  let fromTarget ← require (rebound.2.targets.get targetId) .inconsistentState
  pure (rebound.2.terminate clk r incident
    (r.payload.map (·.setField "from_target" (.str fromTarget.resourceUid)))
    fun row => { row with lifecycle := .opened, targetId := some rebound.1 })

/-- `control`, merge: the incident is decided like a close, its survivor takes one event. -/
def mergeInto (s : Store) (clk : Clock) (r : ControlRequest) (incident : IncidentRow)
    (survivorId : UUID) : Except Code Store := do
  let survivor ← require (s.incidents.get survivorId) .unknownIdentity
  refuse (survivorId = r.incidentId) .illegalTransition
  refuse (incident.currentRunId = none ∨ survivor.currentRunId = none) .handoffOnly
  refuse (survivor.lifecycle = .closed ∨ survivor.mergedIntoIncidentId.isSome) .illegalTransition
  refuse (survivor.targetId ≠ incident.targetId) .targetMismatch
  let merged := s.terminate clk r incident
    (r.payload.map (·.setField "into_incident_id" (.str (toString survivorId))))
    fun row => { row with lifecycle := .closed, mergedIntoIncidentId := some survivorId }
  let appended ← merged.appendInput survivorId r.inputId r.mergeEvent r.actor
  pure appended.2

/-- `control`, takeover. Under human ownership a repeated takeover leaves the Runs alone. -/
def takeover (s : Store) (clk : Clock) (r : ControlRequest) (incident : IncidentRow) : Store :=
  { s.revokeObservation clk r.incidentId incident.lifecycle with
    incidents := s.incidents.modify r.incidentId fun row => { row with
      controlGeneration := r.generation, mode := .humanOwned }
    runs := if incident.mode = .humanOwned then s.runs
      else s.moveRuns r.incidentId [.queued, .running, .paused, .blocked] .waitingHuman
        r.generation
    controls := r.audit r.payload :: s.controls }

/-- The renewal's own checks, and the Run it opens. -/
def renewal (s : Store) (r : ControlRequest) (incident : IncidentRow) (run : RunRow)
    (suspended : Bool) : Except Code (UUID × RunRow) := do
  refuse (r.renewBasis.any fun basis => basis.runId ≠ incident.currentRunId ∨
    basis.concluded ≠ incident.conclusion.isSome) .renewInputStale
  let runId ← require r.renewRunId .illegalTransition
  let deadline ← require r.renewDeadline .illegalTransition
  refuse (s.runs.get runId).isSome .identityConflict
  pure (runId, r.successor incident run suspended deadline)

/-- The writes of a renewing note: as `new_run`, in one generation, with the note's own audit row
and input. -/
def renew (s : Store) (clk : Clock) (r : ControlRequest) (incident : IncidentRow)
    (suspended : Bool) (runId : UUID) (successor : RunRow) : Store :=
  { s.revokeObservation clk r.incidentId incident.lifecycle with
    runs := (s.moveRuns r.incidentId unfinishedStates .cancelled r.generation).insert runId
      successor
    incidents := s.incidents.modify r.incidentId fun row => { row with
      controlGeneration := r.generation
      state := r.state incident suspended
      currentRunId := some runId
      lifecycle := .opened
      conclusion := none }
    controls := r.audit r.payload :: s.controls }

/-- The Runs after a cancel, pause, resume or note that starts no successor. Under human
ownership the Run is the human's, and only a cancel touches it. -/
def directRuns (s : Store) (r : ControlRequest) (incident : IncidentRow) (suspended : Bool) :
    Table UUID RunRow :=
  if r.action = .cancel then s.moveRuns r.incidentId unfinishedStates .cancelled r.generation
  else if incident.mode = .humanOwned then s.runs
  else if r.action = .pause ∨ r.keepsPaused incident suspended then
    s.moveRuns r.incidentId [.running, .waitingHuman] .paused r.generation
  else if r.action = .resume then
    s.moveRuns r.incidentId [.queued, .paused, .running, .waitingHuman] .queued r.generation
  else s.moveRuns r.incidentId [.queued, .running, .waitingHuman] .queued r.generation

/-- The writes of a cancel, pause, resume or note that starts no successor, but for the input. -/
def direct (s : Store) (clk : Clock) (r : ControlRequest) (incident : IncidentRow)
    (suspended : Bool) : Store :=
  { (if r.action ∈ [ControlAction.pause, .cancel]
      then s.revokeObservation clk r.incidentId incident.lifecycle else s) with
    runs := s.directRuns r incident suspended
    incidents := s.incidents.modify r.incidentId fun row => { row with
      controlGeneration := r.generation, state := r.state incident suspended }
    controls := r.audit r.payload :: s.controls }

/-- The input of a note. -/
def addNote (s : Store) (r : ControlRequest) : Store :=
  s.addInput r.incidentId r.inputId r.action.inputKind (r.payload.getD (.obj [])) r.actor
    r.generation

/-- `control`, the decisions that read the current Run: cancel, pause, resume and the notes. -/
def ordinary (s : Store) (clk : Clock) (r : ControlRequest) (incident : IncidentRow)
    (suspended : Bool) : Except Code Store := do
  let run ← require ((incident.currentRunId.bind s.runs.get).filter
    (·.incidentId = r.incidentId)) .inconsistentState
  refuse (r.note ∧ incident.concluded ∧ incident.mode ≠ .humanOwned ∧
    incident.lifecycle.settled) .reopenRequired
  refuse (r.action = .resume ∧ run.overdue clk.now ∧ incident.mode ≠ .humanOwned)
    .illegalTransition
  let exempt := (incident.mode = .humanOwned ∧ r.note) ∨ r.renews incident run clk.now
  refuse (incident.concluded ∧ ¬ exempt) .illegalTransition
  -- a paused incident takes only resume, cancel, and notes with a content
  refuse (incident.state = .paused ∧ (r.action = .pause ∨ r.note ∧ r.payload = none))
    .illegalTransition
  refuse (r.action ≠ .cancel ∧ ¬ exempt ∧ run.state ∉ controlOpenRunStates) .illegalTransition
  -- the primary key of the note's input
  refuse (r.note ∧ (s.inputs.get r.inputId).isSome) .identityConflict
  if r.renews incident run clk.now then do
    let successor ← s.renewal r incident run suspended
    pure ((s.renew clk r incident suspended successor.1 successor.2).addNote r)
  else do
    let decided := s.direct clk r incident suspended
    pure (if r.note then decided.addNote r else decided)

/-- The decision of a request that passed the checks every action shares. -/
def decideOn (s : Store) (clk : Clock) (r : ControlRequest) (incident : IncidentRow)
    (suspended : Bool) (toUid : String) (registered : Option UUID) : Except Code Store :=
  match r.action with
  | .close => s.close clk r incident
  | .reopen => s.reopen r incident
  | .rebindTarget => s.rebindTarget clk r incident toUid registered
  | .mergeInto => do
    let survivorId ← require r.survivorId .invalidInput
    s.mergeInto clk r incident survivorId
  | .takeover => pure (s.takeover clk r incident)
  | .cancel | .pause | .resume | .followUp | .correct => s.ordinary clk r incident suspended

/-- The uid a rebind names in its payload, and nothing for the other actions. -/
def rebindUid (r : ControlRequest) : Except Code String :=
  if r.action = .rebindTarget then do
    let toUid ← require ((r.payload.bind (·.field? "to_target")).bind Json.text?) .invalidInput
    refuse (toUid = "" ∨ (r.payload.bind (·.field? "from_target")).isSome) .invalidInput
    pure toUid
  else pure ""

/-- `control`: apply one human decision under `expectedGeneration`; returns the generation it
leaves. -/
def control (s : Store) (clk : Clock) (r : ControlRequest) : Except Code (ℕ × Store) := do
  refuse (r.payload.any fun p => !p.isObject) .invalidInput
  let toUid ← rebindUid r
  let registered := if r.action = .rebindTarget then s.targetByUid toUid else none
  refuse (r.action = .mergeInto ∧ r.survivorId = none) .invalidInput
  let survivorTarget := if r.action = .mergeInto
    then (r.survivorId.bind s.incidents.get).bind IncidentRow.targetId else none
  let scope ← s.lockScope (some r.incidentId) (registered.toList ++ survivorTarget.toList)
  let incident ← require (s.incidents.get r.incidentId) .unknownIdentity
  refuse (incident.controlGeneration ≠ r.expectedGeneration) .controlConflict
  -- a merged incident is final
  refuse (incident.mergedIntoIncidentId.isSome ∧
    r.action ∈ [ControlAction.reopen, .rebindTarget, .mergeInto]) .illegalTransition
  refuse (incident.mode = .humanOwned ∧ r.note ∧ r.payload = none) .illegalTransition
  let decided ← s.decideOn clk r incident scope.suspended toUid registered
  pure (r.generation, decided)

/-! ## What the operations do -/

variable {s s' : Store} {clk : Clock}
variable {g n : ℕ} {actor : String} {fresh targetId incidentId inputId i : UUID}
  {covers' : Control.Subject UUID UUID Json → Bool}

/-- A gate write records the decision, or flips the gate as well. -/
theorem setGlobalSuspension_ok {suspended : Bool} {expected : ℕ}
    (h : s.setGlobalSuspension suspended expected actor = .ok (g, s')) :
    (g = s.scope.generation ∧ s' = { s with
      suspensionAudit := ⟨none, suspended, g, actor⟩ :: s.suspensionAudit }) ∨
    suspended ≠ s.scope.suspended ∧ g = s.scope.generation + 1 ∧
      s' = { (if suspended then s.suspend (fun _ => true) (fun _ => true) else s) with
        scope := ⟨suspended, g⟩
        suspensionAudit := ⟨none, suspended, g, actor⟩ :: s.suspensionAudit } := by
  simp only [setGlobalSuspension, refuse_bind_eq_ok] at h
  obtain ⟨-, h⟩ := h
  split at h <;> simp only [pure_eq_ok, Prod.mk.injEq] at h
  · obtain ⟨rfl, rfl⟩ := h
    exact .inl ⟨rfl, rfl⟩
  · next hne =>
    obtain ⟨rfl, rfl⟩ := h
    exact .inr ⟨hne, rfl, rfl⟩

theorem resolveTarget_ok {target : TargetRef} {t : Store}
    (h : s.resolveTarget fresh target = .ok (targetId, t)) : Retargeted s t := by
  cases target with
  | uid resourceUid =>
    simp only [resolveTarget, refuse_bind_eq_ok] at h
    obtain ⟨-, h⟩ := h
    split at h
    · simp only [pure_eq_ok, Prod.mk.injEq] at h
      exact h.2 ▸ .refl s
    · simp only [refuse_bind_eq_ok, pure_eq_ok, Prod.mk.injEq] at h
      obtain ⟨-, -, rfl⟩ := h
      refine ⟨rfl, fun id hid => ?_⟩
      dsimp only
      rw [Table.get_insert]
      split
      · rfl
      · exact hid
  | id targetId =>
    simp only [resolveTarget, refuse_bind_eq_ok, pure_eq_ok, Prod.mk.injEq] at h
    exact h.2.2 ▸ .refl s

/-- A target's gate write happens on a store where the target is registered with a gate: it
records the decision, or flips the gate as well. -/
theorem setTargetSuspension_ok {target : TargetRef} {suspended : Bool} {expected : ℕ}
    (h : s.setTargetSuspension target fresh suspended expected actor = .ok (g, s')) :
    ∃ (t : Store) (targetId : UUID) (gate : Gate), Retargeted s t ∧
      (t.ensureGate targetId).targetSuspensions.get targetId = some gate ∧
      (g = gate.generation ∧ s' = { t.ensureGate targetId with
          suspensionAudit := ⟨some targetId, suspended, g, actor⟩ ::
            (t.ensureGate targetId).suspensionAudit } ∨
        suspended ≠ gate.suspended ∧ g = gate.generation + 1 ∧
          s' = (t.ensureGate targetId).flipTarget targetId suspended g actor) := by
  simp only [setTargetSuspension] at h
  obtain ⟨⟨targetId, t⟩, ht, h⟩ := bind_eq_ok.1 h
  simp only [refuse_bind_eq_ok] at h
  obtain ⟨-, h⟩ := h
  obtain ⟨gate, hgate⟩ : ∃ gate, (t.ensureGate targetId).targetSuspensions.get targetId = some gate := by
    unfold ensureGate
    split
    · next hsome => exact Option.isSome_iff_exists.1 hsome
    · exact ⟨{}, by simp⟩
  refine ⟨t, targetId, gate, resolveTarget_ok ht, hgate, ?_⟩
  rw [hgate, Option.getD_some] at h
  split at h <;> simp only [pure_eq_ok, Prod.mk.injEq] at h
  · obtain ⟨rfl, rfl⟩ := h
    exact .inl ⟨rfl, rfl⟩
  · next hne =>
    obtain ⟨rfl, rfl⟩ := h
    exact .inr ⟨hne, rfl, rfl⟩

/-- A committed event is a replay, or a new input of its incident. -/
theorem appendInput_ok {content : Json}
    (h : s.appendInput incidentId inputId content actor = .ok (n, s')) :
    s' = s ∨ ∃ incident, s.incidents.get incidentId = some incident ∧
      s.inputs.get inputId = none ∧
      s' = s.addInput incidentId inputId .event content actor incident.controlGeneration := by
  simp only [appendInput, refuse_bind_eq_ok, require_bind_eq_ok] at h
  obtain ⟨-, incident, hinc, h⟩ := h
  split at h
  · simp only [refuse_bind_eq_ok, pure_eq_ok, Prod.mk.injEq] at h
    exact .inl h.2.2.symm
  · next hnone =>
    simp only [pure_eq_ok, Prod.mk.injEq] at h
    exact .inr ⟨incident, hinc, hnone, h.2.symm⟩

/-- The note of the request would start a successor Run now. -/
def renewsAt (s : Store) (clk : Clock) (r : ControlRequest) : Bool :=
  (s.incidents.get r.incidentId).any fun incident =>
    (incident.currentRunId.bind s.runs.get).any fun run => r.renews incident run clk.now

/-- What kind of decision a request is. -/
def controlEvent (s : Store) (clk : Clock) (r : ControlRequest) : Control.Event UUID :=
  if r.action = .reopen then .reopen r.incidentId
  else if s.renewsAt clk r then .successor r.incidentId
  else .decision r.incidentId

/-- What an accepted decision on an incident wrote. -/
inductive Decided (s : Store) (clk : Clock) (r : ControlRequest) (incident : IncidentRow) :
    Store → Prop
  | close (haction : r.action = .close) (hlife : incident.lifecycle ≠ .closed) :
      Decided s clk r incident
        (s.terminate clk r incident r.payload fun row => { row with lifecycle := .closed })
  | reopen (haction : r.action = .reopen) (hlife : incident.lifecycle.settled = true) :
      Decided s clk r incident { s with
        incidents := s.incidents.modify r.incidentId fun row => { row with
          controlGeneration := r.generation, lifecycle := .opened }
        controls := r.audit r.payload :: s.controls }
  | rebind {t : Store} {targetId : UUID} {payload : Option Json}
      (haction : r.action = .rebindTarget) (hlife : incident.lifecycle.settled = false)
      (hreg : t = s ∨ s.targetSuspensions.get targetId = none ∧
        ∃ toUid, t = s.addTarget targetId toUid)
      (hgate : t.view.HasGate (some targetId)) :
      Decided s clk r incident (t.terminate clk r incident payload
        fun row => { row with lifecycle := .opened, targetId := some targetId })
  | merge {survivorId : UUID} {survivor : IncidentRow} {payload : Option Json} {t t' : Store}
      (haction : r.action = .mergeInto)
      (hsurvivor : s.incidents.get survivorId = some survivor) (hne : survivorId ≠ r.incidentId)
      (ht : t = s.terminate clk r incident payload
        fun row => { row with lifecycle := .closed, mergedIntoIncidentId := some survivorId })
      (hinput : t' = t ∨ t.inputs.get r.inputId = none ∧
        t' = t.addInput survivorId r.inputId .event r.mergeEvent r.actor
          survivor.controlGeneration) :
      Decided s clk r incident t'
  | takeover (haction : r.action = .takeover) :
      Decided s clk r incident (s.takeover clk r incident)
  | renew {suspended : Bool} {run : RunRow} {currentId runId : UUID} {deadline : Time}
      (hcurrent : incident.currentRunId = some currentId)
      (hrun : s.runs.get currentId = some run) (hrenews : r.renews incident run clk.now = true)
      (hsettled : incident.concluded = true → incident.lifecycle.settled = false)
      (hrunId : r.renewRunId = some runId) (hdeadline : r.renewDeadline = some deadline)
      (hfresh : s.runs.get runId = none) (hinput : s.inputs.get r.inputId = none) :
      Decided s clk r incident ((s.renew clk r incident suspended runId
        (r.successor incident run suspended deadline)).addNote r)
  | direct {suspended : Bool} {run : RunRow} {currentId : UUID}
      (haction : r.action ∈ [ControlAction.cancel, .pause, .resume, .followUp, .correct])
      (hcurrent : incident.currentRunId = some currentId)
      (hrun : s.runs.get currentId = some run) (hdirect : r.renews incident run clk.now = false)
      (hinput : r.note = true → s.inputs.get r.inputId = none) :
      Decided s clk r incident (if r.note then (s.direct clk r incident suspended).addNote r
        else s.direct clk r incident suspended)

/-- Every further target a scope was locked for has a gate. -/
theorem lockScope_extra {incidentId : Option UUID} {extra : List UUID} {scope : Scope} {t : UUID}
    (h : s.lockScope incidentId extra = .ok scope) (ht : t ∈ extra) :
    (s.targetSuspensions.get t).isSome = true := by
  simp only [lockScope] at h
  obtain ⟨gate, -, h⟩ := bind_eq_ok.1 h
  obtain ⟨hextra, -⟩ := refuse_bind_eq_ok.1 h
  rw [List.any_eq_true, not_exists] at hextra
  simpa [ht, Option.isSome_iff_ne_none] using hextra t

theorem rebindTarget_ok {r : ControlRequest} {incident : IncidentRow} {toUid : String}
    {registered : Option UUID} (haction : r.action = .rebindTarget)
    (hregistered : s.view.HasGate registered)
    (h : s.rebindTarget clk r incident toUid registered = .ok s') :
    Decided s clk r incident s' := by
  simp only [rebindTarget, refuse_bind_eq_ok, require_bind_eq_ok, Bool.not_eq_true] at h
  obtain ⟨hlife, targetId, -, -, h⟩ := h
  obtain ⟨⟨bound, t⟩, hbound, h⟩ := bind_eq_ok.1 h
  simp only [require_bind_eq_ok, pure_eq_ok] at h
  obtain ⟨fromTarget, -, rfl⟩ := h
  unfold rebindTo at hbound
  split at hbound
  · simp only [pure_eq_ok, Prod.mk.injEq] at hbound
    obtain ⟨rfl, rfl⟩ := hbound
    exact .rebind haction hlife (.inl rfl) hregistered
  · simp only [refuse_bind_eq_ok, pure_eq_ok, Prod.mk.injEq, not_or,
      Option.not_isSome_iff_eq_none] at hbound
    obtain ⟨⟨-, hgate⟩, rfl, rfl⟩ := hbound
    refine .rebind haction hlife (.inr ⟨hgate, toUid, rfl⟩) ?_
    rintro t ⟨⟩
    simp [view, addTarget]

theorem mergeInto_ok {r : ControlRequest} {incident : IncidentRow} {survivorId : UUID}
    (haction : r.action = .mergeInto) (h : s.mergeInto clk r incident survivorId = .ok s') :
    Decided s clk r incident s' := by
  simp only [mergeInto, require_bind_eq_ok, refuse_bind_eq_ok] at h
  obtain ⟨survivor, hsurvivor, hne, -, -, -, h⟩ := h
  obtain ⟨⟨n, t'⟩, happend, h⟩ := bind_eq_ok.1 h
  rw [pure_eq_ok] at h
  subst h
  rcases appendInput_ok happend with rfl | ⟨row, hrow, hnone, rfl⟩
  · exact .merge haction hsurvivor hne rfl (.inl rfl)
  · have hrow' : s.incidents.get survivorId = some row := by
      simpa [terminate, Table.get_modify_ne _ _ hne] using hrow
    rw [hsurvivor, Option.some.injEq] at hrow'
    subst hrow'
    exact .merge haction hsurvivor hne rfl (.inr ⟨hnone, rfl⟩)

theorem ordinary_ok {r : ControlRequest} {incident : IncidentRow} {suspended : Bool}
    (haction : r.action ∈ [ControlAction.cancel, .pause, .resume, .followUp, .correct])
    (h : s.ordinary clk r incident suspended = .ok s') : Decided s clk r incident s' := by
  simp only [ordinary, require_bind_eq_ok, refuse_bind_eq_ok, Option.filter_eq_some_iff,
    Option.bind_eq_some_iff, not_and, Option.not_isSome_iff_eq_none] at h
  obtain ⟨run, ⟨⟨currentId, hcurrent, hrun⟩, -⟩, hreopen, -, -, -, -, hinput, h⟩ := h
  split at h
  · next hrenews =>
    obtain ⟨⟨runId, successor⟩, hrenewal, h⟩ := bind_eq_ok.1 h
    simp only [renewal, refuse_bind_eq_ok, require_bind_eq_ok, pure_eq_ok, Prod.mk.injEq,
      Option.not_isSome_iff_eq_none] at hrenewal
    obtain ⟨-, runId', hrunId, deadline, hdeadline, hfresh, rfl, rfl⟩ := hrenewal
    rw [pure_eq_ok] at h
    subst h
    have hr := hrenews
    simp only [ControlRequest.renews, decide_eq_true_eq] at hr
    refine .renew hcurrent hrun hrenews (fun hc => ?_) hrunId hdeadline hfresh (hinput hr.1)
    simpa using hreopen hr.1 hc hr.2.2
  · next hrenews =>
    rw [pure_eq_ok] at h
    subst h
    exact .direct haction hcurrent hrun (by simpa using hrenews) hinput

/-- An accepted decision passed the checks every action shares. -/
theorem control_checked {r : ControlRequest} (h : s.control clk r = .ok (g, s')) :
    ∃ incident scope toUid registered, s.incidents.get r.incidentId = some incident ∧
      incident.controlGeneration = r.expectedGeneration ∧ g = r.generation ∧
      (incident.mergedIntoIncidentId.isSome →
        r.action ∉ [ControlAction.reopen, .rebindTarget, .mergeInto]) ∧
      (r.action = .rebindTarget → s.view.HasGate registered) ∧
      s.decideOn clk r incident scope toUid registered = .ok s' := by
  simp only [control, refuse_bind_eq_ok] at h
  obtain ⟨-, h⟩ := h
  obtain ⟨toUid, -, h⟩ := bind_eq_ok.1 h
  simp only [refuse_bind_eq_ok] at h
  obtain ⟨-, h⟩ := h
  obtain ⟨scope, hscope, h⟩ := bind_eq_ok.1 h
  simp only [require_bind_eq_ok, refuse_bind_eq_ok, ne_eq, not_not, not_and] at h
  obtain ⟨incident, hinc, hgen, hfinal, -, h⟩ := h
  obtain ⟨decided, hdecide, h⟩ := bind_eq_ok.1 h
  simp only [pure_eq_ok, Prod.mk.injEq] at h
  obtain ⟨rfl, rfl⟩ := h
  refine ⟨incident, _, _, _, hinc, hgen, rfl, hfinal, fun haction t ht => ?_, hdecide⟩
  exact lockScope_extra hscope (List.mem_append_left _ (Option.mem_toList.2 ht))

/-- **An accepted decision** was expected at the generation of its incident, returns the next
one, and wrote what `Decided` says. -/
theorem control_ok {r : ControlRequest} (h : s.control clk r = .ok (g, s')) :
    ∃ incident, s.incidents.get r.incidentId = some incident ∧
      incident.controlGeneration = r.expectedGeneration ∧ g = r.generation ∧
      Decided s clk r incident s' := by
  obtain ⟨incident, scope, toUid, registered, hinc, hgen, hg, -, hregistered, hdecide⟩ :=
    control_checked h
  refine ⟨incident, hinc, hgen, hg, ?_⟩
  unfold decideOn at hdecide
  split at hdecide
  · next haction =>
    simp only [close, refuse_bind_eq_ok, pure_eq_ok] at hdecide
    obtain ⟨hlife, rfl⟩ := hdecide
    exact .close haction hlife
  · next haction =>
    simp only [reopen, refuse_bind_eq_ok, pure_eq_ok, Bool.not_eq_false] at hdecide
    obtain ⟨hlife, rfl⟩ := hdecide
    exact .reopen haction hlife
  · next haction => exact rebindTarget_ok haction (hregistered haction) hdecide
  · next haction =>
    simp only [require_bind_eq_ok] at hdecide
    obtain ⟨survivorId, -, hdecide⟩ := hdecide
    exact mergeInto_ok haction hdecide
  · next haction =>
    rw [pure_eq_ok] at hdecide
    subst hdecide
    exact .takeover haction
  all_goals
    next haction => exact ordinary_ok (by simp [haction]) hdecide

/-- What an accepted merge found, and what it wrote: the incident is decided like a close, the
survivor takes an event. -/
structure Merged (s : Store) (clk : Clock) (r : ControlRequest) (incident survivor : IncidentRow)
    (survivorId : UUID) (s' : Store) : Prop where
  found : s.incidents.get r.incidentId = some incident
  unmerged : incident.mergedIntoIncidentId = none
  named : r.survivorId = some survivorId
  surviving : s.incidents.get survivorId = some survivor
  ne : survivorId ≠ r.incidentId
  opened : survivor.lifecycle ≠ .closed
  root : survivor.mergedIntoIncidentId = none
  target : survivor.targetId = incident.targetId
  written : ∃ payload inputs, s' = { s.terminate clk r incident payload
    fun row => { row with lifecycle := .closed, mergedIntoIncidentId := some survivorId } with
      inputs }

/-- **An accepted merge.** -/
theorem control_merge_ok {r : ControlRequest} (h : s.control clk r = .ok (g, s'))
    (haction : r.action = .mergeInto) :
    ∃ incident survivor survivorId, Merged s clk r incident survivor survivorId s' := by
  obtain ⟨incident, scope, toUid, registered, hinc, -, -, hfinal, -, hdecide⟩ := control_checked h
  have hunmerged : incident.mergedIntoIncidentId = none := by
    cases hm : incident.mergedIntoIncidentId with
    | none => rfl
    | some i => exact absurd (by simp [haction]) (hfinal (by rw [hm]; rfl))
  rw [decideOn, haction] at hdecide
  simp only [require_bind_eq_ok] at hdecide
  obtain ⟨survivorId, hnamed, hdecide⟩ := hdecide
  simp only [mergeInto, require_bind_eq_ok, refuse_bind_eq_ok, not_or, ne_eq, not_not,
    Option.not_isSome_iff_eq_none] at hdecide
  obtain ⟨survivor, hsurvivor, hne, -, ⟨hopen, hroot⟩, htarget, hdecide⟩ := hdecide
  obtain ⟨⟨n, t⟩, happend, hdecide⟩ := bind_eq_ok.1 hdecide
  rw [pure_eq_ok] at hdecide
  subst hdecide
  refine ⟨incident, survivor, survivorId, hinc, hunmerged, hnamed, hsurvivor, hne, hopen, hroot,
    htarget, ?_⟩
  rcases appendInput_ok happend with rfl | ⟨row, -, -, rfl⟩
  · exact ⟨_, _, rfl⟩
  · exact ⟨_, _, rfl⟩

/-! ## The operations on the control machine -/

variable {now : Time}

/-- What a closing gate does to an incident is what it does to its subject. -/
theorem pausedIncident_subject {covers : IncidentRow → Bool}
    (hcovers : ∀ row, covers row = covers' row.subject) (row : IncidentRow) :
    (s.pausedIncident covers row).subject = s.view.pausedSubject covers' row.subject := by
  have hopen : (row.currentRunId.bind s.runs.get).any (fun r =>
      r.state ∈ [RunExecution.queued, .running, .waitingHuman, .paused]) =
      (row.subject.current.bind s.view.attempts).any fun a =>
        a.state ∈ [RunExecution.queued, .running, .waitingHuman, .paused] := by
    simp only [IncidentRow.subject, view]
    cases row.currentRunId with
    | none => rfl
    | some r => simp only [Option.bind_some, attemptsOf, Option.any_map]; rfl
  simp only [pausedIncident, Control.State.pausedSubject, hcovers, hopen, Option.isNone_iff_eq_none]
  split
  · next h => exact (if_pos h).symm
  · next h => exact (if_neg h).symm

theorem suspend_view {covers : IncidentRow → Bool} {reaches : RunRow → Bool}
    {reaches' : Control.Attempt UUID UUID → Bool}
    (hcovers : ∀ row, covers row = covers' row.subject)
    (hreaches : ∀ r, reaches r = reaches' r.attempt) :
    (s.suspend covers reaches).view = s.view.suspend covers' reaches' := by
  refine Control.State.ext ?_ ?_ rfl rfl
  · funext i
    simp only [view, suspend, subjectsOf, Table.get_update, Option.map_map,
      Control.State.suspend, Control.State.mapSubjects, Control.State.mapAttempts]
    congr 1
    funext row
    exact pausedIncident_subject hcovers row
  · funext r
    simp only [view, suspend, attemptsOf, Table.get_update, Option.map_map,
      Control.State.suspend, Control.State.mapSubjects, Control.State.mapAttempts]
    congr 1
    funext row
    simp only [Function.comp_apply, Control.State.pausedAttempt, ← hreaches]
    by_cases h : reaches row = true ∧ row.state ∈ [RunExecution.queued, .running, .waitingHuman]
    · rw [if_pos h]
      exact (if_pos h).symm
    · rw [if_neg h]
      exact (if_neg h).symm

theorem setGlobalSuspension_step {suspended : Bool} {expected : ℕ}
    (h : s.setGlobalSuspension suspended expected actor = .ok (g, s')) :
    Control.Step now s.view .machine s'.view := by
  rcases setGlobalSuspension_ok h with ⟨-, rfl⟩ | ⟨hne, rfl, rfl⟩
  · exact .unseen rfl
  · have hflip : s.view.global.Flips ⟨suspended, s.scope.generation + 1⟩ := ⟨hne, rfl⟩
    refine (Control.Step.globalGate hflip).of_eq ?_
    cases suspended with
    | false => rfl
    | true =>
      have hview : (s.suspend (fun _ => true) (fun _ => true)).view =
          s.view.suspend (fun _ => true) (fun _ => true) :=
        suspend_view (fun _ => rfl) fun _ => rfl
      simp only [if_true]
      rw [← hview]
      rfl

/-- Giving a target its suspension row, if it has none. -/
theorem ensureGate_step (s : Store) (targetId : UUID) :
    Control.Step now s.view .machine (s.ensureGate targetId).view := by
  unfold ensureGate
  split
  · exact .idle
  · next h =>
    rw [Option.not_isSome_iff_eq_none] at h
    refine (Control.Step.addTarget (t := targetId) h).of_eq ?_
    simp only [view, Control.State.mk.injEq, true_and]
    funext t
    simp [Table.get_insert, Function.update_apply]

theorem flipTarget_step {suspended : Bool} {gate : Gate}
    (hgate : s.targetSuspensions.get targetId = some gate) (hne : suspended ≠ gate.suspended) :
    Control.Step now s.view .machine
      (s.flipTarget targetId suspended (gate.generation + 1) actor).view := by
  have hflip : ((s.view.targets targetId).getD {}).Flips ⟨suspended, gate.generation + 1⟩ := by
    simp only [view, hgate, Option.getD_some]
    exact ⟨hne, rfl⟩
  have hreach : ∀ (a : Control.Attempt UUID UUID) (sub : Control.Subject UUID UUID Json),
      s.view.subjects a.subject = some sub →
        ((s.view.subjects a.subject).any (fun sub => sub.target = some targetId) = true ↔
          sub.target = some targetId) := by
    intro a sub hsub
    simp [hsub]
  refine (Control.Step.targetGate hflip hreach).of_eq ?_
  have htargets : (s.targetSuspensions.insert targetId ⟨suspended, gate.generation + 1⟩).get =
      Function.update s.targetSuspensions.get targetId
        (some ⟨suspended, gate.generation + 1⟩) := by
    funext t
    simp [Table.get_insert, Function.update_apply]
  cases suspended with
  | false => exact Control.State.ext rfl rfl rfl htargets
  | true =>
    have hview : (s.suspend (boundTo targetId) (s.runBoundTo targetId)).view =
        s.view.suspend (fun sub => sub.target = some targetId) fun a =>
          (s.view.subjects a.subject).any fun sub => sub.target = some targetId := by
      refine suspend_view (fun _ => rfl) fun r => ?_
      simp only [runBoundTo, view, RunRow.attempt, subjectsOf, Option.any_map]
      rfl
    simp only [if_true]
    rw [← hview]
    exact Control.State.ext rfl rfl rfl htargets

theorem setTargetSuspension_move {target : TargetRef} {suspended : Bool} {expected : ℕ}
    (h : s.setTargetSuspension target fresh suspended expected actor = .ok (g, s')) :
    Control.Move now s.view .machine s'.view := by
  obtain ⟨t, targetId, gate, ht, hgate, ⟨-, rfl⟩ | ⟨hne, rfl, rfl⟩⟩ := setTargetSuspension_ok h
  all_goals
    have hview : t.view = s.view := by rw [ht.eq]; rfl
    rw [← hview]
    refine ⟨(t.ensureGate targetId).view, ensureGate_step t targetId, ?_⟩
  · exact .unseen rfl
  · exact flipTarget_step hgate hne

theorem appendInput_step {content : Json}
    (h : s.appendInput incidentId inputId content actor = .ok (n, s')) :
    Control.Step now s.view .machine s'.view := by
  rcases appendInput_ok h with rfl | ⟨incident, -, -, rfl⟩
  · exact .idle
  · exact .unseen rfl

/-- A decision's write to the Runs and the incident, on the view. -/
theorem ruling_step {incident row : IncidentRow} {source : List RunExecution}
    {target : RunExecution} {f : IncidentRow → IncidentRow}
    (hinc : s.incidents.get incidentId = some incident) (hrow : f incident = row)
    (hruling : Control.Ruling incident.subject source target row.subject)
    (hsubjects : subjectsOf s'.incidents = subjectsOf (s.incidents.modify incidentId f))
    (hattempts : attemptsOf s'.runs =
      attemptsOf (s.moveRuns incidentId source target row.controlGeneration))
    (hscope : s'.scope = s.scope) (htargets : s'.targetSuspensions = s.targetSuspensions)
    (hbound : row.targetId = incident.targetId ∨ s.view.HasGate row.targetId) :
    Control.Step now s.view (.decision incidentId) s'.view := by
  refine (Control.Step.decide (subjectsOf_get hinc) hruling hbound).of_eq ?_
  subst hrow
  refine Control.State.ext ?_ ?_ hscope (congrArg Table.get htargets)
  · exact hsubjects.trans (subjectsOf_modify hinc f)
  · exact hattempts.trans (attemptsOf_moveRuns s incidentId source target _)

theorem terminate_step {r : ControlRequest} {incident : IncidentRow} {payload : Option Json}
    {f : IncidentRow → IncidentRow} (hinc : s.incidents.get r.incidentId = some incident)
    (hruling : ∀ state, state = incident.state ∨ state = .cancelled →
      Control.Ruling incident.subject unfinishedStates .cancelled
        (f { incident with controlGeneration := r.generation, state }).subject)
    (hf : ∀ row, (f row).controlGeneration = row.controlGeneration)
    (hbound : ∀ row, (f row).targetId = row.targetId ∨ s.view.HasGate (f row).targetId) :
    Control.Step now s.view (.decision r.incidentId)
      (s.terminate clk r incident payload f).view := by
  refine ruling_step hinc rfl (hruling (s.stateAfterCancel r.incidentId incident) ?_) rfl ?_ rfl
    rfl (hbound _)
  · unfold stateAfterCancel
    split
    · exact .inr rfl
    · exact .inl rfl
  · rw [hf]
    rfl


theorem takeover_step {r : ControlRequest} {incident : IncidentRow}
    (hinc : s.incidents.get r.incidentId = some incident)
    (hgen : incident.controlGeneration = r.expectedGeneration) :
    Control.Step now s.view (.decision r.incidentId) (s.takeover clk r incident).view := by
  by_cases hmode : incident.mode = .humanOwned
  · have hruling : Control.Ruling incident.subject [] .queued
        { incident with controlGeneration := r.generation, mode := .humanOwned }.subject := by
      rw [ControlRequest.generation, ← hgen, ← hmode]
      exact .record (.inl rfl)
    refine ruling_step hinc rfl hruling rfl ?_ rfl rfl (.inl rfl)
    simp only [takeover, if_pos hmode, moveRuns_nil]
  · have hruling : Control.Ruling incident.subject [.queued, .running, .paused, .blocked]
        .waitingHuman
        { incident with controlGeneration := r.generation, mode := .humanOwned }.subject := by
      rw [ControlRequest.generation, ← hgen]
      exact .takeover
    refine ruling_step hinc rfl hruling rfl ?_ rfl rfl (.inl rfl)
    simp only [takeover, if_neg hmode]

/-- The control mirror of a decision on an automatic incident that is not held paused. -/
theorem state_automatic {r : ControlRequest} {incident : IncidentRow} {suspended : Bool}
    (hmode : incident.mode ≠ .humanOwned) :
    r.state incident suspended = if r.keepsPaused incident suspended then .paused
      else match r.action with
        | .cancel => .cancelled
        | .pause => .paused
        | _ => .running := by
  simp [ControlRequest.state, hmode]

/-- A decision other than cancel keeps the control mirror, or leaves it paused or running. -/
theorem state_cases {r : ControlRequest} (incident : IncidentRow) (suspended : Bool)
    (hcancel : r.action ≠ .cancel) :
    r.state incident suspended = incident.state ∨ r.state incident suspended = .paused ∨
      r.state incident suspended = .running := by
  unfold ControlRequest.state
  split
  · exact .inl rfl
  · split
    · exact .inr (.inl rfl)
    · cases h : r.action <;> simp_all

/-- What a decision that starts no successor rules, by the kind of decision. -/
theorem direct_ruling {r : ControlRequest} {incident : IncidentRow} (suspended : Bool)
    (haction : r.action ∈ [ControlAction.cancel, .pause, .resume, .followUp, .correct])
    (hgen : incident.controlGeneration = r.expectedGeneration) :
    ∃ source target,
      Control.Ruling incident.subject source target
        { incident with
          controlGeneration := r.generation, state := r.state incident suspended }.subject ∧
      attemptsOf (s.directRuns r incident suspended) =
        attemptsOf (s.moveRuns r.incidentId source target r.generation) := by
  rw [ControlRequest.generation, ← hgen]
  simp only [List.mem_cons, List.not_mem_nil, or_false] at haction
  by_cases hcancel : r.action = .cancel
  · have hstate : r.state incident suspended = .cancelled := by
      simp [ControlRequest.state, ControlRequest.keepsPaused, ControlRequest.note, hcancel]
    refine ⟨_, _, ?_, by rw [directRuns, if_pos hcancel, ControlRequest.generation, ← hgen]⟩
    rw [hstate]
    exact .terminate (.inr rfl) (.inl rfl)
  by_cases hmode : incident.mode = .humanOwned
  · refine ⟨[], .queued, .record ?_, by
      rw [directRuns, if_neg hcancel, if_pos hmode, moveRuns_nil]⟩
    rcases state_cases incident suspended hcancel with h | h | h <;> rw [h]
    · exact .inl rfl
    · exact .inr ⟨hmode, by simp⟩
    · exact .inr ⟨hmode, by simp⟩
  simp only [directRuns, if_neg hcancel, if_neg hmode]
  by_cases hpaused : r.action = .pause ∨ r.keepsPaused incident suspended
  · have hstate : r.state incident suspended = .paused := by
      rw [state_automatic hmode]
      rcases hpaused with h | h <;> simp [h]
    rw [if_pos hpaused, hstate]
    exact ⟨_, _, .hold, by rw [ControlRequest.generation, ← hgen]⟩
  · rw [if_neg hpaused]
    rw [not_or, Bool.not_eq_true] at hpaused
    have hstate : r.state incident suspended = .running := by
      rw [state_automatic hmode, hpaused.2, if_neg Bool.false_ne_true]
      rcases haction with h | h | h | h | h <;> simp_all
    rw [hstate]
    by_cases hresume : r.action = .resume
    · rw [if_pos hresume]
      exact ⟨_, _, .resume, by rw [ControlRequest.generation, ← hgen]⟩
    · rw [if_neg hresume]
      exact ⟨_, _, .note, by rw [ControlRequest.generation, ← hgen]⟩

theorem direct_step {r : ControlRequest} {incident : IncidentRow} (suspended : Bool)
    (haction : r.action ∈ [ControlAction.cancel, .pause, .resume, .followUp, .correct])
    (hinc : s.incidents.get r.incidentId = some incident)
    (hgen : incident.controlGeneration = r.expectedGeneration) :
    Control.Step now s.view (.decision r.incidentId) (s.direct clk r incident suspended).view := by
  obtain ⟨source, target, hruling, hruns⟩ := direct_ruling (s := s) suspended haction hgen
  refine ruling_step hinc rfl hruling rfl hruns ?_ ?_ (.inl rfl) <;> simp only [direct] <;> split <;> rfl

/-- A renewing note is the decision that starts a successor. -/
theorem renew_step {r : ControlRequest} {incident : IncidentRow} {run : RunRow} {runId : UUID}
    {deadline : Time} (suspended : Bool) (hinc : s.incidents.get r.incidentId = some incident)
    (hgen : incident.controlGeneration = r.expectedGeneration)
    (hmode : incident.mode ≠ .humanOwned) (hnote : r.note = true)
    (hfresh : s.runs.get runId = none) :
    Control.Step now s.view (.successor r.incidentId)
      (s.renew clk r incident suspended runId
        (r.successor incident run suspended deadline)).view := by
  have hcancel : r.action ≠ .cancel ∧ r.action ≠ .pause := by
    simp only [ControlRequest.note, decide_eq_true_eq, List.mem_cons, List.not_mem_nil,
      or_false] at hnote
    rcases hnote with h | h <;> simp [h]
  have hstate : r.state incident suspended = .queued ∨ r.state incident suspended = .running ∨
      r.state incident suspended = .paused := by
    rw [state_automatic hmode]
    split
    · exact .inr (.inr rfl)
    · cases h : r.action <;> simp_all
  have hautomatic : incident.subject.mode = .automatic := by
    cases h : incident.mode with
    | automatic => exact h
    | humanOwned => exact absurd h hmode
  refine (Control.Step.succeed (a := (r.successor incident run suspended deadline).attempt)
    (subjectsOf_get hinc) (attemptsOf_none hfresh) (.inl rfl) hstate rfl ?_ rfl ?_
    hautomatic).of_eq ?_
  · exact congrArg (· + 1) hgen.symm
  · simp only [ControlRequest.successor, RunRow.attempt]
    split
    · exact .inr rfl
    · exact .inl rfl
  · have hgen' : incident.subject.generation + 1 = r.generation := congrArg (· + 1) hgen
    refine Control.State.ext ?_ ?_ rfl rfl
    · refine (subjectsOf_modify hinc _).trans ?_
      rw [← hgen']
      rfl
    · refine (attemptsOf_insert _ _ _).trans ?_
      rw [attemptsOf_moveRuns, hgen']
      rfl

/-- A decision other than a reopen or a renewing note is a plain decision. -/
theorem controlEvent_decision {r : ControlRequest} (haction : r.action ≠ .reopen)
    (hrenews : s.renewsAt clk r = false) : s.controlEvent clk r = .decision r.incidentId := by
  rw [controlEvent, if_neg haction, hrenews, if_neg Bool.false_ne_true]

theorem renewsAt_eq_false {r : ControlRequest} (hnote : r.note = false) :
    s.renewsAt clk r = false := by
  simp [renewsAt, ControlRequest.renews, hnote]

theorem renewsAt_eq {r : ControlRequest} {incident : IncidentRow} {run : RunRow}
    {currentId : UUID} (hinc : s.incidents.get r.incidentId = some incident)
    (hcurrent : incident.currentRunId = some currentId)
    (hrun : s.runs.get currentId = some run) :
    s.renewsAt clk r = r.renews incident run clk.now := by
  simp [renewsAt, hinc, hcurrent, hrun]

/-- A decision that reopens is a reopening. -/
theorem controlEvent_reopen {r : ControlRequest} (h : s.controlEvent clk r = .reopen i) :
    r.action = .reopen ∧ r.incidentId = i := by
  unfold controlEvent at h
  split at h
  · next haction => exact ⟨haction, Control.Event.reopen.inj h⟩
  · split at h <;> cases h

/-- A decision that starts a successor is a renewing note. -/
theorem controlEvent_successor {r : ControlRequest} (h : s.controlEvent clk r = .successor i) :
    s.renewsAt clk r = true ∧ r.incidentId = i := by
  unfold controlEvent at h
  split at h
  · cases h
  · split at h
    · next hrenews => exact ⟨hrenews, Control.Event.successor.inj h⟩
    · cases h

/-- What an accepted renewing note found: a current Run, overdue unless the incident is concluded,
and then not settled. -/
theorem control_renews_ok {r : ControlRequest} (h : s.control clk r = .ok (g, s'))
    (hrenews : s.renewsAt clk r = true) :
    ∃ incident currentId run, s.incidents.get r.incidentId = some incident ∧
      incident.currentRunId = some currentId ∧ s.runs.get currentId = some run ∧
      (run.overdue clk.now = true ∨ incident.lifecycle.settled = false) := by
  obtain ⟨incident, hinc, -, -, hdecided⟩ := control_ok h
  have hnote : r.note = true := by
    by_contra hnot
    rw [renewsAt_eq_false (Bool.not_eq_true _ ▸ hnot)] at hrenews
    cases hrenews
  cases hdecided with
  | close haction | reopen haction | rebind haction | merge haction | takeover haction =>
    simp [ControlRequest.note, haction] at hnote
  | @renew suspended run currentId runId deadline hcurrent hrun hr hsettled =>
    refine ⟨incident, currentId, run, hinc, hcurrent, hrun, ?_⟩
    simp only [ControlRequest.renews, decide_eq_true_eq] at hr
    exact hr.2.1.imp_right hsettled
  | direct haction hcurrent hrun hdirect =>
    rw [renewsAt_eq hinc hcurrent hrun, hdirect] at hrenews
    cases hrenews

/-- **A decision is a decision of the control machine.** -/
theorem control_move {r : ControlRequest} (h : s.control clk r = .ok (g, s')) :
    Control.Move now s.view (s.controlEvent clk r) s'.view := by
  obtain ⟨incident, hinc, hgen, -, hdecided⟩ := control_ok h
  have hnext : r.generation = incident.controlGeneration + 1 := by rw [hgen]; rfl
  -- the actions without a renewal
  have hplain : r.action ∈ [ControlAction.close, .rebindTarget, .mergeInto, .takeover] →
      s.controlEvent clk r = .decision r.incidentId := by
    intro haction
    simp only [List.mem_cons, List.not_mem_nil, or_false] at haction
    refine controlEvent_decision ?_ (renewsAt_eq_false ?_) <;>
      rcases haction with h | h | h | h <;> simp [ControlRequest.note, h]
  cases hdecided with
  | close haction hlife =>
    rw [hplain (by simp [haction])]
    refine Control.Step.move (terminate_step hinc (fun state hstate => ?_) (fun _ => rfl)
      fun _ => .inl rfl)
    rw [hnext]
    exact .terminate hstate (.inr (.inl rfl))
  | reopen haction hlife =>
    rw [controlEvent, if_pos haction]
    refine ((Control.Step.reopen (subjectsOf_get hinc) hlife).of_eq ?_).move
    refine Control.State.ext ?_ rfl rfl rfl
    rw [hnext]
    exact subjectsOf_modify hinc _
  | @rebind t targetId payload haction hlife hreg hgate =>
    rw [hplain (by simp [haction])]
    have hactive : activeIncidentLifecycle incident.subject.lifecycle = true := by
      simp only [IncidentRow.subject]
      cases hl : incident.lifecycle <;> simp_all [IncidentLifecycle.settled, activeIncidentLifecycle]
    have hincidents : t.incidents.get r.incidentId = some incident := by
      rcases hreg with rfl | ⟨-, toUid, rfl⟩ <;> exact hinc
    refine ⟨t.view, ?_, terminate_step hincidents (fun state hstate => ?_) (fun _ => rfl)
      fun _ => .inr hgate⟩
    · rcases hreg with rfl | ⟨hnone, toUid, rfl⟩
      · exact .idle
      · exact addTarget_step toUid hnone
    · rw [hnext]
      exact .terminate hstate (.inr (.inr ⟨rfl, hactive⟩))
  | @merge survivorId survivor payload t t' haction hsurvivor hne ht hinput =>
    rw [hplain (by simp [haction])]
    have hview : s'.view = t.view := by
      rcases hinput with rfl | ⟨-, rfl⟩ <;> rfl
    rw [hview, ht]
    refine Control.Step.move (terminate_step hinc (fun state hstate => ?_) (fun _ => rfl)
      fun _ => .inl rfl)
    rw [hnext]
    exact .terminate hstate (.inr (.inl rfl))
  | takeover haction =>
    rw [hplain (by simp [haction])]
    exact (takeover_step hinc hgen).move
  | @renew suspended run currentId runId deadline hcurrent hrun hrenews hsettled hrunId hdeadline
      hfresh hinput =>
    have hr := hrenews
    simp only [ControlRequest.renews, decide_eq_true_eq] at hr
    have haction : r.action ≠ .reopen := by
      intro h
      simp [ControlRequest.note, h] at hr
    rw [controlEvent, if_neg haction, renewsAt_eq hinc hcurrent hrun, hrenews, if_pos rfl]
    have hstep : Control.Step now s.view (.successor r.incidentId)
        (s.renew clk r incident suspended runId
          (r.successor incident run suspended deadline)).view :=
      renew_step suspended hinc hgen hr.2.2 hr.1 hfresh
    exact hstep.move
  | @direct suspended run currentId haction hcurrent hrun hdirect hinput =>
    have hreopen : r.action ≠ .reopen := by
      intro h
      simp [h] at haction
    rw [controlEvent_decision hreopen ((renewsAt_eq hinc hcurrent hrun).trans hdirect)]
    have hstep : Control.Step now s.view (.decision r.incidentId)
        (s.direct clk r incident suspended).view := direct_step suspended haction hinc hgen
    split <;> exact hstep.move

end Store

end OpsPilot
