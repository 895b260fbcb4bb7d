import OpsPilot.Persistence.Steps

/-!
# Reading a checkpoint

`rebuild` reads everything a new execution attempt continues from, in one snapshot: the current
Run with its steps, the tool calls that have no result yet, and the inputs no committed round
covers. Corrupt rows are refused.
-/

namespace OpsPilot

/-- A tool call of a committed response that has no result yet. -/
structure PendingTool where
  stepId : UUID
  ordinal : ℕ
  toolCall : Json

/-- What `rebuild` returns. -/
structure Checkpoint where
  incidentId : UUID
  state : IncidentState
  controlGeneration : ℕ
  run : RunRow
  steps : List (UUID × StepRow)
  pendingTools : List PendingTool
  inputs : List InputRow
  inputRounds : List (String × RoundRow)
  pendingInputs : List InputRow
  conclusion : Option Json

/-- `_completed_tool_ordinals`: the ordinals that have a result, `none` when a result is corrupt:
out of the range of the plan, given twice, or not an object. -/
def completedToolOrdinals (callCount : ℕ) : List (ℕ × Json) → Option (List ℕ)
  | [] => some []
  | (ordinal, result) :: rest => do
    let completed ← completedToolOrdinals callCount rest
    if ordinal < callCount ∧ ordinal ∉ completed ∧ result.isObject then
      some (ordinal :: completed) else none

namespace StepRow

/-- The plan and the completed ordinals of a step, `none` when the row is corrupt. -/
def plan (row : StepRow) : Option (List Json × List ℕ) := do
  let calls ← toolPlan row.response
  if calls.all Json.isObject then
    let completed ← completedToolOrdinals calls.length row.toolResults
    some (calls, completed)
  else none

/-- The calls of a step that have no result yet. -/
def pendingTools (row : StepRow) (stepId : UUID) : List PendingTool :=
  match row.plan with
  | some (calls, completed) =>
    (calls.zipIdx.filter fun call => call.2 ∉ completed).map fun call =>
      { stepId, ordinal := call.2, toolCall := call.1 }
  | none => []

/-- The step is live under a generation: its pending calls may still be executed. -/
def live (row : StepRow) (generation : ℕ) : Bool :=
  row.controlGeneration = generation ∧
    row.status ∈ [StepStatus.responseCommitted, .toolResultCommitted]

theorem live_eq_false {row : StepRow} (h : row.status = .lateResult) (g : ℕ) :
    row.live g = false := by
  simp [live, h]

end StepRow

namespace Store

/-- `ORDER BY sequence, step_id`. -/
def orderedSteps (s : Store) (runId : UUID) : List (UUID × StepRow) :=
  (s.stepsOf runId).insertionSort fun a b =>
    a.2.sequence < b.2.sequence ∨ a.2.sequence = b.2.sequence ∧ a.1 ≤ b.1

/-- The inputs of an incident, `ORDER BY sequence`. -/
def readInputs (s : Store) (incidentId : UUID) : List InputRow :=
  ((s.inputsOf incidentId).map Prod.snd).insertionSort fun a b => a.sequence ≤ b.sequence

/-- The rounds of a Run, `ORDER BY logical_key`. -/
def roundsOf (s : Store) (runId : UUID) : List (String × RoundRow) :=
  ((s.inputRounds.select fun key _ => key.1 = runId).map fun e => (e.1.2, e.2)).insertionSort
    fun a b => a.1 ≤ b.1

/-- `rebuild`. A late result is history of any shape and is not checked. -/
def rebuild (s : Store) (incidentId : UUID) : Except Code Checkpoint := do
  let incident ← require (s.incidents.get incidentId) .unknownIdentity
  let runId ← require incident.currentRunId .inconsistentState
  let run ← require ((s.runs.get runId).filter (·.incidentId = incidentId)) .inconsistentState
  let steps := s.orderedSteps runId
  refuse (steps.any fun e => e.2.status ≠ .lateResult ∧ e.2.plan.isNone) .inconsistentState
  let inputs := s.readInputs incidentId
  pure {
    incidentId
    state := incident.state
    controlGeneration := incident.controlGeneration
    run
    steps
    pendingTools := (steps.filter fun e => e.2.live incident.controlGeneration).flatMap fun e =>
      e.2.pendingTools e.1
    inputs
    inputRounds := s.roundsOf runId
    pendingInputs := inputs.filter fun input => run.inputWatermark < input.sequence
    conclusion := incident.conclusion }

end Store

/-- The steps a transcript is rebuilt from: late results are passed over. -/
def committedSteps (steps : List (UUID × StepRow)) : List (UUID × StepRow) :=
  steps.filter fun e => e.2.status ≠ .lateResult

/-- A checkpoint as its reader sees it, without the late results. -/
def Checkpoint.withoutLate (c : Checkpoint) : Checkpoint :=
  { c with steps := committedSteps c.steps }

namespace Store

variable {s : Store} {incidentId runId fresh r : UUID} {checkpoint : Checkpoint}

/-- What a checkpoint says about inputs is read off the current Run of the incident. -/
theorem rebuild_ok (h : s.rebuild incidentId = .ok checkpoint) :
    ∃ incident runId, s.incidents.get incidentId = some incident ∧
      incident.currentRunId = some runId ∧ s.runs.get runId = some checkpoint.run ∧
      checkpoint.run.incidentId = incidentId ∧ checkpoint.inputs = s.readInputs incidentId ∧
      checkpoint.inputRounds = s.roundsOf runId ∧
      checkpoint.pendingInputs =
        checkpoint.inputs.filter fun input => checkpoint.run.inputWatermark < input.sequence := by
  simp only [rebuild, require_bind_eq_ok, refuse_bind_eq_ok, pure_eq_ok,
    Option.filter_eq_some_iff, decide_eq_true_eq] at h
  obtain ⟨incident, hinc, runId, hcurrent, run, ⟨hrun, hbound⟩, -, rfl⟩ := h
  exact ⟨incident, runId, hinc, hcurrent, hrun, hbound, rfl, rfl, rfl⟩

/-- The steps of a checkpoint are rows of the store. -/
theorem steps_of_rebuild (h : s.rebuild incidentId = .ok checkpoint) {e : UUID × StepRow}
    (he : e ∈ checkpoint.steps) :
    s.steps.get e.1 = some e.2 := by
  simp only [rebuild, require_bind_eq_ok, refuse_bind_eq_ok, pure_eq_ok] at h
  obtain ⟨incident, -, runId, -, run, -, -, rfl⟩ := h
  exact (Table.mem_select_iff.1 ((List.perm_insertionSort _ _).mem_iff.1 he)).1

/-- A pending call is one of a live step. -/
theorem pendingTools_live (h : s.rebuild incidentId = .ok checkpoint) {pending : PendingTool}
    (hpending : pending ∈ checkpoint.pendingTools) :
    ∃ row, (pending.stepId, row) ∈ checkpoint.steps ∧
      row.live checkpoint.controlGeneration = true := by
  simp only [rebuild, require_bind_eq_ok, refuse_bind_eq_ok, pure_eq_ok] at h
  obtain ⟨incident, -, runId, -, run, -, -, rfl⟩ := h
  obtain ⟨⟨stepId, row⟩, hstep, hmem⟩ := List.mem_flatMap.1 hpending
  obtain ⟨hordered, hlive⟩ := List.mem_filter.1 hstep
  unfold StepRow.pendingTools at hmem
  split at hmem
  · obtain ⟨call, -, rfl⟩ := List.mem_map.1 hmem
    exact ⟨row, hordered, hlive⟩
  · cases hmem

/-! ## Late results in a checkpoint -/

theorem filter_orderedInsert_of_neg {α : Type*} (r : α → α → Prop) [DecidableRel r]
    {p : α → Bool} {x : α} (hx : p x = false) (l : List α) :
    (l.orderedInsert r x).filter p = l.filter p := by
  induction l with
  | nil => simp [hx]
  | cons y l ih =>
    rw [List.orderedInsert_cons]
    split
    · rw [List.filter_cons_of_neg (by simp [hx])]
    · rw [List.filter_cons, List.filter_cons, ih]

/-- The ordered steps after a late result, for a condition it does not satisfy. -/
theorem filter_orderedSteps_late {key : StepKey} {payload : Json} {g : ℕ}
    {p : UUID × StepRow → Bool} (hfresh : s.steps.get fresh = none)
    (hp : ∀ e : UUID × StepRow, e.2.status = .lateResult → p e = false) :
    ((s.addStep runId fresh key .lateResult payload g).orderedSteps r).filter p =
      (s.orderedSteps r).filter p := by
  unfold orderedSteps stepsOf
  rw [addStep, Table.select_insert _ hfresh]
  split
  · exact filter_orderedInsert_of_neg _ (hp _ rfl) _
  · rfl

/-- A checkpoint, as its reader sees it, from the rows it is read off. -/
theorem rebuild_withoutLate {incident : IncidentRow} {run : RunRow}
    (hinc : s.incidents.get incidentId = some incident) (hcurrent : incident.currentRunId = some r)
    (hrun : (s.runs.get r).filter (·.incidentId = incidentId) = some run) :
    (s.rebuild incidentId).map Checkpoint.withoutLate =
      if (s.orderedSteps r).any fun e => e.2.status ≠ .lateResult ∧ e.2.plan.isNone then
        .error .inconsistentState
      else .ok {
        incidentId, state := incident.state, controlGeneration := incident.controlGeneration, run
        steps := committedSteps (s.orderedSteps r)
        pendingTools := ((s.orderedSteps r).filter fun e =>
          e.2.live incident.controlGeneration).flatMap fun e => e.2.pendingTools e.1
        inputs := s.readInputs incidentId, inputRounds := s.roundsOf r
        pendingInputs := (s.readInputs incidentId).filter fun input =>
          run.inputWatermark < input.sequence
        conclusion := incident.conclusion } := by
  by_cases hcorrupt : ((s.orderedSteps r).any fun e =>
      e.2.status ≠ .lateResult ∧ e.2.plan.isNone) = true
  · simp only [rebuild, hinc, hcurrent, hrun, require, refuse, bind, Except.bind, if_pos hcorrupt]
    rfl
  · simp only [rebuild, hinc, hcurrent, hrun, require, refuse, bind, Except.bind, if_neg hcorrupt]
    rfl

/-- **A late result changes no checkpoint** as its reader sees it. -/
theorem rebuild_late {key : StepKey} {payload : Json} {g : ℕ} (hfresh : s.steps.get fresh = none)
    (incidentId : UUID) :
    ((s.addStep runId fresh key .lateResult payload g).rebuild incidentId).map
      Checkpoint.withoutLate = (s.rebuild incidentId).map Checkpoint.withoutLate := by
  have hfilter : ∀ (r : UUID) {p : UUID × StepRow → Bool},
      (∀ e : UUID × StepRow, e.2.status = .lateResult → p e = false) →
      ((s.addStep runId fresh key .lateResult payload g).orderedSteps r).filter p =
        (s.orderedSteps r).filter p := fun r p hp => filter_orderedSteps_late hfresh hp
  have hany : ∀ (r : UUID) {p : UUID × StepRow → Bool},
      (∀ e : UUID × StepRow, e.2.status = .lateResult → p e = false) →
      ((s.addStep runId fresh key .lateResult payload g).orderedSteps r).any p =
        (s.orderedSteps r).any p := by
    intro r p hp
    have hself : ∀ l : List (UUID × StepRow), (l.filter p).any p = l.any p := by
      intro l
      simp only [List.any_filter, Bool.and_self]
    rw [← hself, hfilter r hp, hself]
  cases hinc : s.incidents.get incidentId with
  | none => simp [rebuild, addStep, hinc, require, bind, Except.bind]
  | some incident =>
    cases hcurrent : incident.currentRunId with
    | none => simp [rebuild, addStep, hinc, hcurrent, require, bind, Except.bind]
    | some r =>
      cases hrun : (s.runs.get r).filter (·.incidentId = incidentId) with
      | none => simp [rebuild, addStep, hinc, hcurrent, hrun, require, bind, Except.bind]
      | some run =>
        rw [rebuild_withoutLate hinc hcurrent hrun,
          rebuild_withoutLate (s := s.addStep ..) hinc hcurrent hrun,
          hany r fun e he => by simp [he], hfilter r fun e he => StepRow.live_eq_false he _,
          committedSteps, hfilter r fun e he => by simp [he]]
        rfl

end Store

end OpsPilot
