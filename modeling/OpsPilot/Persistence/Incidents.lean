import OpsPilot.Persistence.View

/-!
# Intake

Incidents are opened by `accept`, with their first Run, or handed to a human without one
(`openHandoff`); targets are registered by `registerTarget`. All of them are idempotent on their
identity: a replay changes nothing, and another identity under the same key is refused.

Each operation has a specification lemma (`accept_ok`, `openHandoff_ok`, `registerTarget_ok`)
which says what a committed call found and what it wrote, and is a step of the control machine
(`accept_step` and so on).
-/

namespace OpsPilot

/-- What `accept` is given. -/
structure Intake where
  incidentId : UUID
  runId : UUID
  intakeKey : String
  deadline : Time
  budgetLimit : ℕ
  versions : Json
  input : Option Json
  targetId : Option UUID
  priority : ℕ
  relatedIncidentId : Option UUID := none

namespace Intake

/-- The incident an intake opens. -/
def incident (i : Intake) (suspended : Bool) : IncidentRow where
  intakeKey := i.intakeKey
  state := if suspended then .paused else .queued
  currentRunId := some i.runId
  targetId := i.targetId
  priority := i.priority
  relatedIncidentId := i.relatedIncidentId

/-- The Run an intake opens. -/
def run (i : Intake) (suspended : Bool) : RunRow where
  incidentId := i.incidentId
  state := if suspended then .paused else .queued
  controlGeneration := 0
  budgetLimit := i.budgetLimit
  deadline := i.deadline
  versions := i.versions
  input := i.input

/-- The incident still is as the intake would have it, as far as `accept` compares. -/
def Matches (i : Intake) (row : IncidentRow) : Prop :=
  row.intakeKey = i.intakeKey ∧ row.currentRunId = some i.runId ∧ row.targetId = i.targetId ∧
    row.relatedIncidentId = i.relatedIncidentId

end Intake

namespace Store

/-- `_accept_in`: create an incident with its first Run; returns whether this call created it. -/
def accept (s : Store) (i : Intake) : Except Code (Bool × Store) := do
  refuse (2 < i.priority) .invalidInput
  refuse (i.targetId.any fun t => (s.targets.get t).isNone) .unknownTarget
  let target ← s.requireGate i.targetId
  match (s.incidents.select fun _ row => row.intakeKey = i.intakeKey).head? with
  | some (incidentId, row) =>
    refuse (incidentId ≠ i.incidentId ∨ row.currentRunId ≠ some i.runId ∨
      row.targetId ≠ i.targetId ∨ row.relatedIncidentId ≠ i.relatedIncidentId)
      .identityConflict
    pure (false, s)
  | none =>
    -- the primary key of either table, then the foreign key of the related incident
    refuse ((s.incidents.get i.incidentId).isSome ∨ (s.runs.get i.runId).isSome)
      .identityConflict
    refuse (i.relatedIncidentId.any fun r => r = i.incidentId ∨ (s.incidents.get r).isNone)
      .storageUnavailable
    let suspended := s.scope.suspended || target.suspended
    pure (true, { s with
      incidents := s.incidents.insert i.incidentId (i.incident suspended)
      runs := s.runs.insert i.runId (i.run suspended) })

/-- The incident handed to a human at intake (E5): no Run, no target, `waiting_human`. An alert
also records the reason with its identity (`alert`). -/
def openHandoff (s : Store) (incidentId : UUID) (intakeKey : String) (priority : ℕ)
    (relatedIncidentId : Option UUID) (alert : Bool) : Except Code (Unit × Store) := do
  refuse (2 < priority) .invalidInput
  refuse ((s.incidents.get incidentId).isSome ∨
    (s.incidents.select fun _ row => row.intakeKey = intakeKey) ≠ []) .identityConflict
  refuse (relatedIncidentId.any fun r => r = incidentId ∨ (s.incidents.get r).isNone)
    .storageUnavailable
  pure ((), { s with
    incidents := s.incidents.insert incidentId
      { intakeKey, state := .waitingHuman, currentRunId := none, targetId := none, priority
        relatedIncidentId }
    handoffs := if alert then incidentId :: s.handoffs else s.handoffs })

/-- `_escalate_priority`: an attached episode only ever raises its incident's claim priority. -/
def escalatePriority (s : Store) (incidentId : UUID) (priority : ℕ) : Except Code (Unit × Store) := do
  refuse (2 < priority) .invalidInput
  pure ((), { s with
    incidents := s.incidents.modify incidentId fun row =>
      if priority < row.priority then { row with priority } else row })

/-- The registered target with a resource uid. -/
def targetByUid (s : Store) (resourceUid : String) : Option UUID :=
  (s.targets.select fun _ row => row.resourceUid = resourceUid).head?.map Prod.fst

/-- Register a target under a new id, with its suspension row. -/
def addTarget (s : Store) (targetId : UUID) (resourceUid : String) : Store :=
  { s with
    targets := s.targets.insert targetId { resourceUid }
    targetSuspensions := s.targetSuspensions.insert targetId {} }

/-- `register_target`: register a target identity before it can be suspended. `targetId` is the
identity asked for, `fresh` the one taken when none is. -/
def registerTarget (s : Store) (resourceUid : String) (targetId : Option UUID) (fresh : UUID) :
    Except Code (UUID × Store) := do
  refuse (resourceUid = "") .invalidInput
  let identity := targetId.getD fresh
  match (s.targets.select fun id row => row.resourceUid = resourceUid ∨ id = identity).head? with
  | some (id, row) =>
    refuse (row.resourceUid ≠ resourceUid ∨ targetId.isSome ∧ id ≠ identity) .identityConflict
    pure (id, s)
  | none =>
    refuse (s.targetSuspensions.get identity).isSome .identityConflict
    pure (identity, s.addTarget identity resourceUid)

/-- Targets were registered or completed, and nothing else. -/
structure Retargeted (s t : Store) : Prop where
  eq : t = { s with targets := t.targets }
  kept : ∀ id, (s.targets.get id).isSome → (t.targets.get id).isSome

theorem Retargeted.refl (s : Store) : Retargeted s s := ⟨rfl, fun _ => id⟩

variable {s s' : Store}
variable {i : Intake} {b alert : Bool} {incidentId id : UUID} {intakeKey resourceUid : String}
  {priority : ℕ} {related targetId : Option UUID} {u : Unit}

/-- **A committed `accept`** replays, on an incident the request matches, or opens a new incident
with a new Run, under a key nobody has. -/
theorem accept_cases (h : s.accept i = .ok (b, s')) :
    (b = false ∧ s' = s ∧ ∃ row, s.incidents.get i.incidentId = some row ∧ i.Matches row) ∨
    b = true ∧ (∀ id row, s.incidents.get id = some row → row.intakeKey ≠ i.intakeKey) ∧
      ∃ suspended, s.incidents.get i.incidentId = none ∧ s.runs.get i.runId = none ∧
      s.view.HasGate i.targetId ∧ s' = { s with
        incidents := s.incidents.insert i.incidentId (i.incident suspended)
        runs := s.runs.insert i.runId (i.run suspended) } := by
  simp only [accept, refuse_bind_eq_ok] at h
  obtain ⟨-, -, h⟩ := h
  obtain ⟨target, hgate, h⟩ := bind_eq_ok.1 h
  split at h
  · next id row hhead =>
    simp only [refuse_bind_eq_ok, pure_eq_ok, Prod.mk.injEq, not_or, not_not, ne_eq] at h
    obtain ⟨⟨rfl, hrun, htarget, hrelated⟩, rfl, rfl⟩ := h
    obtain ⟨hrow, hkey⟩ := Table.mem_select_iff.1 (List.mem_of_mem_head? hhead)
    exact .inl ⟨rfl, rfl, row, hrow, by simpa using hkey, hrun, htarget, hrelated⟩
  · next hhead =>
    simp only [refuse_bind_eq_ok, pure_eq_ok, Prod.mk.injEq, not_or, Option.not_isSome_iff_eq_none]
      at h
    obtain ⟨⟨hinc, hrun⟩, -, rfl, rfl⟩ := h
    refine .inr ⟨rfl, fun id row hrow hkey => ?_, _, hinc, hrun, requireGate_hasGate hgate, rfl⟩
    rw [List.head?_eq_none_iff] at hhead
    have hmem : (id, row) ∈ s.incidents.select fun _ row => row.intakeKey = i.intakeKey :=
      Table.mem_select_iff.2 ⟨hrow, by simpa using hkey⟩
    rw [hhead] at hmem
    cases hmem

/-- A committed `accept` replays, or opens a new incident with a new Run. -/
theorem accept_ok (h : s.accept i = .ok (b, s')) :
    s' = s ∨ ∃ suspended, s.incidents.get i.incidentId = none ∧ s.runs.get i.runId = none ∧
      s.view.HasGate i.targetId ∧ s' = { s with
        incidents := s.incidents.insert i.incidentId (i.incident suspended)
        runs := s.runs.insert i.runId (i.run suspended) } := by
  rcases accept_cases h with ⟨-, rfl, -⟩ | ⟨-, -, hnew⟩
  · exact .inl rfl
  · exact .inr hnew

/-- An `accept` that reports a creation opened a new incident. -/
theorem accept_created (h : s.accept i = .ok (true, s')) :
    ∃ row, s.incidents.get i.incidentId = none ∧
      s'.incidents = s.incidents.insert i.incidentId row := by
  rcases accept_cases h with ⟨hfalse, -⟩ | ⟨-, -, suspended, hinc, -, -, rfl⟩
  · cases hfalse
  · exact ⟨_, hinc, rfl⟩

theorem openHandoff_ok
    (h : s.openHandoff incidentId intakeKey priority related alert = .ok (u, s')) :
    s.incidents.get incidentId = none ∧ s' = { s with
      incidents := s.incidents.insert incidentId
        { intakeKey, state := .waitingHuman, currentRunId := none, targetId := none, priority
          relatedIncidentId := related }
      handoffs := if alert then incidentId :: s.handoffs else s.handoffs } := by
  simp only [openHandoff, refuse_bind_eq_ok, pure_eq_ok, Prod.mk.injEq, not_or,
    Option.not_isSome_iff_eq_none] at h
  obtain ⟨-, ⟨hinc, -⟩, -, -, rfl⟩ := h
  exact ⟨hinc, rfl⟩

/-- A handoff opens an incident under a key nobody has. -/
theorem openHandoff_key
    (h : s.openHandoff incidentId intakeKey priority related alert = .ok (u, s')) :
    ∀ id row, s.incidents.get id = some row → row.intakeKey ≠ intakeKey := by
  simp only [openHandoff, refuse_bind_eq_ok, not_or, not_not, ne_eq] at h
  obtain ⟨-, ⟨-, hkeys⟩, -⟩ := h
  intro id row hrow hkey
  have hmem : (id, row) ∈ s.incidents.select fun _ row => row.intakeKey = intakeKey :=
    Table.mem_select_iff.2 ⟨hrow, by simpa using hkey⟩
  rw [hkeys] at hmem
  cases hmem

theorem escalatePriority_ok (h : s.escalatePriority incidentId priority = .ok (u, s')) :
    s' = { s with
      incidents := s.incidents.modify incidentId fun row =>
        if priority < row.priority then { row with priority } else row } := by
  simp only [escalatePriority, refuse_bind_eq_ok, pure_eq_ok, Prod.mk.injEq] at h
  exact h.2.2.symm

theorem registerTarget_ok {fresh : UUID}
    (h : s.registerTarget resourceUid targetId fresh = .ok (id, s')) :
    s' = s ∨ s.targetSuspensions.get id = none ∧ s' = s.addTarget id resourceUid := by
  simp only [registerTarget, refuse_bind_eq_ok] at h
  obtain ⟨-, h⟩ := h
  split at h
  · simp only [refuse_bind_eq_ok, pure_eq_ok, Prod.mk.injEq] at h
    exact .inl h.2.2.symm
  · simp only [refuse_bind_eq_ok, pure_eq_ok, Prod.mk.injEq, Option.not_isSome_iff_eq_none] at h
    obtain ⟨hnone, rfl, rfl⟩ := h
    exact .inr ⟨hnone, rfl⟩

/-! ## Intake on the control machine -/

variable {now : Time}

theorem accept_step (h : s.accept i = .ok (b, s')) :
    Control.Step now s.view .machine s'.view := by
  rcases accept_ok h with rfl | ⟨suspended, hinc, hrun, hgate, rfl⟩
  · exact .idle
  · have hstep : Control.Step now s.view .machine
        ((s.view.setSubject i.incidentId (i.incident suspended).subject).setAttempt i.runId
          (i.run suspended).attempt) := by
      refine .openSubject (subjectsOf_none hinc) (attemptsOf_none hrun) rfl rfl rfl rfl rfl rfl
        rfl rfl ?_ hgate
      cases suspended
      · exact .inl ⟨rfl, rfl⟩
      · exact .inr ⟨rfl, rfl⟩
    refine hstep.of_eq ?_
    simp only [view, subjectsOf_insert, attemptsOf_insert]
    rfl

theorem openHandoff_step
    (h : s.openHandoff incidentId intakeKey priority related alert = .ok (u, s')) :
    Control.Step now s.view .machine s'.view := by
  obtain ⟨hinc, rfl⟩ := openHandoff_ok h
  let row : IncidentRow :=
    { intakeKey, state := .waitingHuman, currentRunId := none, targetId := none, priority
      relatedIncidentId := related }
  have hstep : Control.Step now s.view .machine (s.view.setSubject incidentId row.subject) :=
    .openHandoff (subjectsOf_none hinc) rfl rfl rfl rfl rfl
  refine hstep.of_eq ?_
  simp only [view, subjectsOf_insert]
  rfl

theorem escalatePriority_step (h : s.escalatePriority incidentId priority = .ok (u, s')) :
    Control.Step now s.view .machine s'.view := by
  obtain rfl := escalatePriority_ok h
  refine .unseen ?_
  simp only [view]
  rw [subjectsOf_modify_of_eq fun row => by split <;> rfl]

/-- Registering a target opens a gate of its own. -/
theorem addTarget_step {targetId : UUID} (resourceUid : String)
    (h : s.targetSuspensions.get targetId = none) :
    Control.Step now s.view .machine (s.addTarget targetId resourceUid).view := by
  refine (Control.Step.addTarget (t := targetId) h).of_eq ?_
  simp only [view, addTarget, Control.State.mk.injEq, true_and]
  funext t
  simp [Table.get_insert, Function.update_apply]

theorem registerTarget_step {fresh : UUID}
    (h : s.registerTarget resourceUid targetId fresh = .ok (id, s')) :
    Control.Step now s.view .machine s'.view := by
  rcases registerTarget_ok h with rfl | ⟨hnone, rfl⟩
  · exact .idle
  · exact addTarget_step resourceUid hnone

end Store

end OpsPilot
