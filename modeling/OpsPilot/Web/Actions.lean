import OpsPilot.Persistence.Controls

/-!
# The actions of the incident page

`Workbench.snapshot` reads an incident for its page (`Store.snapshot`), and `available_actions` says
which controls the page offers (`Snapshot.availableActions`). The page's rule reads the stored state
alone: deadlines and suspensions may change before the decision is made.
-/

namespace OpsPilot

/-- The actions a page can offer, in the order of their names. -/
inductive PageAction
  | cancel | close | correct | followUp | mergeInto | newRun | pause | rebindTarget
  | registerRemediation | reopen | resume | takeover
  deriving DecidableEq, Repr

namespace PageAction

/-- All of them, sorted. -/
def all : List PageAction :=
  [cancel, close, correct, followUp, mergeInto, newRun, pause, rebindTarget, registerRemediation,
    reopen, resume, takeover]

theorem mem_all (action : PageAction) : action ∈ all := by
  cases action <;> decide

end PageAction

/-- The action of a decision. -/
def ControlAction.page : ControlAction → PageAction
  | cancel => .cancel
  | pause => .pause
  | resume => .resume
  | followUp => .followUp
  | correct => .correct
  | takeover => .takeover
  | close => .close
  | reopen => .reopen
  | rebindTarget => .rebindTarget
  | mergeInto => .mergeInto

/-- `IncidentSummary`, as far as the page's rule reads it. -/
structure IncidentSummary where
  state : IncidentState
  lifecycle : IncidentLifecycle
  mode : IncidentMode
  concluded : Bool
  mergedIntoIncidentId : Option UUID

/-- `IncidentSummary.control`: the control mirror, if it is a marker of human control. -/
def IncidentSummary.control (incident : IncidentSummary) : Option IncidentState :=
  if incident.state ∈ [IncidentState.paused, .cancelled] then some incident.state else none

/-- What the page of an incident is drawn from: an incident that was handed to a human at intake
has no Run. -/
inductive Snapshot
  | handoffOnly (incident : IncidentSummary)
  | page (incident : IncidentSummary) (runState : RunExecution) (rebindTargets : List String)
      (healthProfileRevision : Option String)

namespace Snapshot

/-- The incident has a conclusion, or its control mirror is closed. -/
def concluded (incident : IncidentSummary) : Bool :=
  incident.concluded ∨ incident.state ∈ [IncidentState.completed, .cancelled]

/-- `run_state in {"queued", "running", "paused", "waiting_human"}`. -/
def runOpen (runState : RunExecution) : Bool :=
  runState ∈ [RunExecution.queued, .running, .paused, .waitingHuman]

/-- The branch of `available_actions` that adds an action. -/
def offers (incident : IncidentSummary) (runState : RunExecution) (rebindTargets : List String)
    (healthProfileRevision : Option String) : PageAction → Bool
  | .takeover => true
  | .close =>
    incident.lifecycle ∈ [IncidentLifecycle.opened, .observingRecovery, .resolved]
  | .reopen =>
    incident.lifecycle ∈ [IncidentLifecycle.resolved, .closed] ∧
      incident.mergedIntoIncidentId = none
  | .mergeInto => incident.mergedIntoIncidentId = none
  | .rebindTarget =>
    incident.lifecycle ∈ [IncidentLifecycle.opened, .observingRecovery] ∧ rebindTargets ≠ []
  | .registerRemediation =>
    incident.lifecycle ∈ [IncidentLifecycle.opened, .observingRecovery] ∧
      incident.control ≠ some .paused ∧ healthProfileRevision.any (· ≠ "")
  | .newRun =>
    incident.lifecycle ≠ .closed ∧ incident.control = some .cancelled ∧
      incident.mode ≠ .humanOwned
  | .cancel => incident.lifecycle ≠ .closed ∧ concluded incident = false
  | .resume =>
    incident.lifecycle ≠ .closed ∧ concluded incident = false ∧ runOpen runState = true
  | .pause =>
    incident.lifecycle ≠ .closed ∧ concluded incident = false ∧ runOpen runState = true ∧
      incident.control ≠ some .paused
  | .followUp | .correct =>
    incident.mode = .humanOwned ∨ incident.lifecycle ≠ .closed ∧
      ¬ (incident.lifecycle = .resolved ∧ concluded incident = true) ∧
      (concluded incident = true ∨ runOpen runState = true)

/-- `available_actions`. -/
def availableActions : Snapshot → List PageAction
  | handoffOnly _ => []
  | page incident runState rebindTargets healthProfileRevision =>
    PageAction.all.filter (offers incident runState rebindTargets healthProfileRevision)

theorem mem_availableActions {incident : IncidentSummary} {runState : RunExecution}
    {rebindTargets : List String} {healthProfileRevision : Option String} {action : PageAction} :
    action ∈ (page incident runState rebindTargets healthProfileRevision).availableActions ↔
      offers incident runState rebindTargets healthProfileRevision action = true := by
  rw [availableActions, List.mem_filter]
  exact ⟨fun h => h.2, fun h => ⟨action.mem_all, h⟩⟩

end Snapshot

/-- What the page reads besides the store: the keys of the target registry, the revision of the
loaded health profile, and the target the intake of the incident named. -/
structure PageContext where
  registryKeys : List String
  healthProfileRevision : Option String
  intakeTarget : Option String

/-- The row as the page reads it. -/
def IncidentRow.summary (row : IncidentRow) : IncidentSummary where
  state := row.state
  lifecycle := row.lifecycle
  mode := row.mode
  concluded := row.conclusion.isSome
  mergedIntoIncidentId := row.mergedIntoIncidentId

namespace Store

/-- `_target_uid`: the uid the incident is bound to, or else the one its intake named. -/
def targetUid (s : Store) (row : IncidentRow) (intakeTarget : Option String) : Option String :=
  ((row.targetId.bind s.targets.get).map TargetRow.resourceUid).or intakeTarget

/-- `Workbench.snapshot`, on one state of the store. -/
def snapshot (s : Store) (context : PageContext) (incidentId : UUID) : Option Snapshot := do
  let incident ← s.incidents.get incidentId
  match incident.currentRunId with
  | none => some (.handoffOnly incident.summary)
  | some runId =>
    let run ← s.runs.get runId
    some (.page incident.summary run.state
      (context.registryKeys.filter fun uid => some uid ≠ s.targetUid incident context.intakeTarget)
      context.healthProfileRevision)

theorem snapshot_page {s : Store} {incidentId runId : UUID} {incident : IncidentRow} {run : RunRow}
    (hincident : s.incidents.get incidentId = some incident)
    (hcurrent : incident.currentRunId = some runId) (hrun : s.runs.get runId = some run)
    (context : PageContext) : s.snapshot context incidentId =
      some (.page incident.summary run.state
        (context.registryKeys.filter fun uid =>
          some uid ≠ s.targetUid incident context.intakeTarget)
        context.healthProfileRevision) := by
  simp only [snapshot, hincident, hcurrent, hrun, Option.bind_eq_bind, Option.bind_some]

end Store

end OpsPilot
