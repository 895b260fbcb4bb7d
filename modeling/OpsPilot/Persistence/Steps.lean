import Mathlib.Data.List.Sort
import OpsPilot.Persistence.Controls

/-!
# Steps and publication

What an execution attempt commits: model responses (`commitStep`), tool results (`commitTool`),
the frozen input boundary of a round (`beginRound`) and the conclusion (`publish`). An attempt
that lost its lease commits nothing but a late result under a reserved key (`lateResult`); the
two commits write that row, commit, and raise only then, so their result is itself a success or
a code.

* `commitStep_ok`, `commitTool_ok`, `beginRound_ok` and `publish_ok` say what each one wrote.
* `publish_move`: a publication is the publication of the control machine.
-/

namespace OpsPilot

/-- `_LATE_RESULT_KEY_PREFIX`: no step takes a key under it. -/
def lateResultPrefix : String := "late_result:"

/-- `key.startswith(_LATE_RESULT_KEY_PREFIX)`. -/
def reservedKey (key : String) : Bool := lateResultPrefix.toList.isPrefixOf key.toList

/-- `_tool_calls`: absent or null means no tools, anything else but a list is corrupt. -/
def toolCalls (container : Json) : Option (List Json) :=
  match container.field? "tool_calls" with
  | none | some .null => some []
  | some calls => calls.items?

/-- `_tool_plan`: the tool plan a committed response carries, `none` when it is corrupt. -/
def toolPlan (response : Json) : Option (List Json) :=
  if response.isObject then
    match response.field? "assistant" with
    | some assistant => if assistant.isObject then toolCalls assistant else none
    | none => toolCalls response
  else none

/-- What `begin_round` returns: the frozen boundary and the inputs it covers. -/
structure Round where
  row : RoundRow
  inputs : List InputRow

/-- The tool results of a step with one more, in the order of their ordinals. -/
def StepRow.withResult (row : StepRow) (ordinal : ℕ) (result : Json) : StepRow :=
  { row with
    toolResults := (row.toolResults ++ [(ordinal, result)]).insertionSort fun a b => a.1 ≤ b.1
    status := .toolResultCommitted }

namespace Store

/-- The steps of a Run. -/
def stepsOf (s : Store) (runId : UUID) : List (UUID × StepRow) :=
  s.steps.select fun _ row => row.runId = runId

/-- `SELECT COALESCE(MAX(sequence), -1) + 1 … WHERE run_id=…`. -/
def nextSequence (s : Store) (runId : UUID) : ℕ :=
  ((s.stepsOf runId).map fun e => e.2.sequence + 1).foldr max 0

/-- The step of a Run with a logical key. -/
def stepAt (s : Store) (runId : UUID) (key : StepKey) : Option (UUID × StepRow) :=
  (s.steps.select fun _ row => row.runId = runId ∧ row.logicalKey = key).head?

/-- A step of this Run. -/
def stepOf (s : Store) (runId stepId : UUID) : Option StepRow :=
  (s.steps.get stepId).filter (·.runId = runId)

/-- Insert a step under the next sequence of its Run. -/
def addStep (s : Store) (runId stepId : UUID) (logicalKey : StepKey) (status : StepStatus)
    (response : Json) (controlGeneration : ℕ) : Store :=
  { s with
    steps := s.steps.insert stepId
      { runId, sequence := s.nextSequence runId, logicalKey, status, response
        controlGeneration } }

/-- `_late_result`: record what a fenced-out attempt brought back, once for each identity and
lease epoch. -/
def lateResult (s : Store) (runId : UUID) (key : StepKey) (payload : Json) (generation : ℕ)
    (fresh : UUID) : Except Code Store :=
  if (s.runs.get runId).isNone ∨ (s.stepAt runId key).isSome then pure s
  else do
    refuse (s.steps.get fresh).isSome .identityConflict
    pure (s.addStep runId fresh key .lateResult payload generation)

/-- The fenced row of a lease that still holds. -/
def heldRow (s : Store) (lease : Lease) (now : Time) : Option FencedRow :=
  (s.fencedRow lease.runId).filter fun row => ¬ row.revoked lease now

/-- The writes of a committed response: the step, its round committed, and the boundary of the
round on the Run's watermark. -/
def commitResponse (s : Store) (lease : Lease) (logicalKey : String) (response : Json)
    (stepId : UUID) : Store :=
  let frozen := (s.inputRounds.get (lease.runId, logicalKey)).filter
    (·.controlGeneration = lease.controlGeneration)
  { s.addStep lease.runId stepId (.text logicalKey) .responseCommitted response
      lease.controlGeneration with
    inputRounds := if frozen.isSome
      then s.inputRounds.modify (lease.runId, logicalKey) fun row => { row with committed := true }
      else s.inputRounds
    runs := match frozen with
      | some round => s.runs.modify lease.runId fun r =>
          { r with inputWatermark := max r.inputWatermark round.inputWatermark }
      | none => s.runs }

/-- `commit_step`. -/
def commitStep (s : Store) (clk : Clock) (lease : Lease) (logicalKey : String) (response : Json)
    (fresh : UUID) : Except Code (Except Code UUID × Store) := do
  refuse (reservedKey logicalKey) .invalidInput
  let _ ← s.lockScope (some lease.incidentId)
  match s.heldRow lease clk.now with
  | none =>
    let late ← s.lateResult lease.runId (.lateStep logicalKey lease.epoch) response
      lease.controlGeneration fresh
    pure (.error .controlDenied, late)
  | some _ =>
    match s.stepAt lease.runId (.text logicalKey) with
    | some (stepId, _) => pure (.ok stepId, s)
    | none => do
      refuse (s.steps.get fresh).isSome .identityConflict
      pure (.ok fresh, s.commitResponse lease logicalKey response fresh)

/-- `commit_tool`: commit one tool result, once for each ordinal of the step's plan. -/
def commitTool (s : Store) (clk : Clock) (lease : Lease) (stepId : UUID) (ordinal : ℕ)
    (result : Json) (fresh : UUID) : Except Code (Except Code Unit × Store) := do
  let _ ← s.lockScope (some lease.incidentId)
  let row ← require (s.fencedRow lease.runId) .unknownIdentity
  let step ← require (s.stepOf lease.runId stepId) .unknownIdentity
  let calls ← require (toolPlan step.response) .unknownIdentity
  refuse (calls.length ≤ ordinal) .unknownIdentity
  if step.controlGeneration ≠ lease.controlGeneration ∨ step.status = .lateResult ∨
      row.revoked lease clk.now then do
    let late ← s.lateResult lease.runId (.lateTool stepId ordinal lease.epoch) result
      lease.controlGeneration fresh
    pure (.error .controlDenied, late)
  else if step.toolResults.any (·.1 = ordinal) then pure (.ok (), s)
  else pure (.ok (), { s with
    steps := s.steps.modify stepId (·.withResult ordinal result) })

/-- The inputs up to a boundary, in order. -/
def inputsUpTo (s : Store) (incidentId : UUID) (watermark : ℕ) : List InputRow :=
  (((s.inputsOf incidentId).map Prod.snd).filter (·.sequence ≤ watermark)).insertionSort
    fun a b => a.sequence ≤ b.sequence

/-- The boundary a round has, or takes now: a boundary frozen under this control generation is
read again, one of a superseded generation is frozen anew unless its round committed. -/
def freeze (s : Store) (lease : Lease) (logicalKey : String) : Except Code (RoundRow × Store) :=
  match (s.inputRounds.get (lease.runId, logicalKey)) with
  | some frozen =>
    if frozen.controlGeneration = lease.controlGeneration then pure (frozen, s)
    else do
      refuse (frozen.committed = true) .controlDenied
      pure (fresh, { s with inputRounds := s.inputRounds.insert (lease.runId, logicalKey) fresh })
  | none => pure (fresh, { s with
      inputRounds := s.inputRounds.insert (lease.runId, logicalKey) fresh })
where
  /-- The boundary at the inputs received so far. -/
  fresh : RoundRow :=
    { controlGeneration := lease.controlGeneration
      inputWatermark := s.lastSequence lease.incidentId }

/-- `begin_round`: freeze the input references of a round before dispatch. -/
def beginRound (s : Store) (clk : Clock) (lease : Lease) (logicalKey : String) :
    Except Code (Round × Store) := do
  refuse (logicalKey = "" ∨ reservedKey logicalKey) .invalidInput
  let scope ← s.lockScope (some lease.incidentId)
  let row ← require ((s.fencedRow lease.runId).filter
    (·.run.incidentId = lease.incidentId)) .controlDenied
  refuse (leaseRevoked row.run row.incident.controlGeneration scope lease clk.now) .controlDenied
  let frozen ← s.freeze lease logicalKey
  pure (⟨frozen.1, s.inputsUpTo lease.incidentId frozen.1.inputWatermark⟩, frozen.2)

/-- An incident with its current Run and its scope. -/
def currentRow (s : Store) (incidentId : UUID) : Option FencedRow := do
  let incident ← s.incidents.get incidentId
  let runId ← incident.currentRunId
  let run ← s.runs.get runId
  some ⟨run, incident, s.scopeOf incident⟩

/-- The lease may publish on this row. -/
def FencedRow.publishable (row : FencedRow) (lease : Lease) (now : Time) : Bool :=
  row.incident.currentRunId = some lease.runId ∧ row.run.state = .running ∧
    row.incident.state ∉ [IncidentState.completed, .cancelled, .paused] ∧ ¬ row.revoked lease now

/-- The writes of a publication. -/
def published (s : Store) (lease : Lease) (conclusion : Json) : Store :=
  { s with
    incidents := s.incidents.modify lease.incidentId fun row =>
      { row with conclusion := some conclusion }
    runs := s.runs.modify lease.runId fun r => r.release .completed }

/-- `publish`: write the conclusion of the current Run from its committed final step; `false`
when the attempt was fenced out and only a late result was kept. -/
def publish (s : Store) (clk : Clock) (lease : Lease) (conclusion : Json) (stepId fresh : UUID) :
    Except Code (Bool × Store) := do
  let _ ← s.lockScope (some lease.incidentId)
  let row := s.currentRow lease.incidentId
  if row.any fun row => row.incident.currentRunId = some lease.runId ∧
      row.incident.conclusion = some conclusion then pure (true, s)
  else if row.any (·.publishable lease clk.now) then do
    let step ← require (s.stepOf lease.runId stepId) .finalStepRequired
    refuse (step.controlGeneration ≠ lease.controlGeneration ∨
      step.status ∉ [StepStatus.responseCommitted, .toolResultCommitted] ∨
      step.response ≠ conclusion) .finalStepRequired
    pure (true, s.published lease conclusion)
  else do
    refuse (s.stepOf lease.runId stepId).isNone .unknownIdentity
    let late ← s.lateResult lease.runId (.latePublish stepId lease.epoch) conclusion
      lease.controlGeneration fresh
    pure (false, late)

/-! ## What the operations do -/

variable {s s' : Store} {clk : Clock} {lease : Lease}
variable {runId fresh stepId : UUID} {payload response conclusion : Json} {g ordinal : ℕ}
  {logicalKey : String}

/-- A late result adds one step, or finds it recorded already (or no Run to record it for). -/
theorem lateResult_ok {key : StepKey} (h : s.lateResult runId key payload g fresh = .ok s') :
    s' = s ∧ ((s.runs.get runId).isNone ∨ (s.stepAt runId key).isSome) ∨
      (∃ run, s.runs.get runId = some run) ∧ s.stepAt runId key = none ∧
        s.steps.get fresh = none ∧ s' = s.addStep runId fresh key .lateResult payload g := by
  unfold lateResult at h
  split at h
  · next hc =>
    rw [pure_eq_ok] at h
    exact .inl ⟨h.symm, hc⟩
  · next hc =>
    simp only [refuse_bind_eq_ok, pure_eq_ok, Option.not_isSome_iff_eq_none] at h
    rw [not_or, Option.not_isSome_iff_eq_none, Option.isNone_iff_eq_none] at hc
    exact .inr ⟨Option.ne_none_iff_exists'.1 hc.1, hc.2, h.1, h.2.symm⟩

theorem heldRow_eq_some {now : Time} {row : FencedRow} :
    s.heldRow lease now = some row ↔
      s.fencedRow lease.runId = some row ∧ ¬ row.revoked lease now := by
  simp [heldRow, Option.filter_eq_some_iff]

/-- How `commit_step` ends: a late result, a replay, or a new step of a held lease. -/
inductive StepCommitted (s : Store) (clk : Clock) (lease : Lease) (logicalKey : String)
    (response : Json) (fresh : UUID) : Except Code UUID → Store → Prop
  | late {t : Store} (hfenced : s.heldRow lease clk.now = none)
      (hlate : s.lateResult lease.runId (.lateStep logicalKey lease.epoch) response
        lease.controlGeneration fresh = .ok t) :
      StepCommitted s clk lease logicalKey response fresh (.error .controlDenied) t
  | replay {stepId : UUID} :
      StepCommitted s clk lease logicalKey response fresh (.ok stepId) s
  | committed {row : FencedRow} (hheld : s.heldRow lease clk.now = some row)
      (hnew : s.stepAt lease.runId (.text logicalKey) = none)
      (hfresh : s.steps.get fresh = none) :
      StepCommitted s clk lease logicalKey response fresh (.ok fresh)
        (s.commitResponse lease logicalKey response fresh)

theorem commitStep_ok {result : Except Code UUID}
    (h : s.commitStep clk lease logicalKey response fresh = .ok (result, s')) :
    StepCommitted s clk lease logicalKey response fresh result s' := by
  simp only [commitStep, refuse_bind_eq_ok] at h
  obtain ⟨-, h⟩ := h
  obtain ⟨-, -, h⟩ := bind_eq_ok.1 h
  split at h
  · next hfenced =>
    obtain ⟨t, hlate, h⟩ := bind_eq_ok.1 h
    simp only [pure_eq_ok, Prod.mk.injEq] at h
    obtain ⟨rfl, rfl⟩ := h
    exact .late hfenced hlate
  · next row hheld =>
    split at h
    · simp only [pure_eq_ok, Prod.mk.injEq] at h
      obtain ⟨rfl, rfl⟩ := h
      exact .replay
    · next hnew =>
      simp only [refuse_bind_eq_ok, pure_eq_ok, Prod.mk.injEq,
        Option.not_isSome_iff_eq_none] at h
      obtain ⟨hfresh, rfl, rfl⟩ := h
      exact .committed hheld hnew hfresh

/-- How `commit_tool` ends: a late result, a replay, or one more result on the step. -/
inductive ToolCommitted (s : Store) (lease : Lease) (stepId : UUID) (ordinal : ℕ)
    (result : Json) (fresh : UUID) : Except Code Unit → Store → Prop
  | late {t : Store} (hlate : s.lateResult lease.runId (.lateTool stepId ordinal lease.epoch)
        result lease.controlGeneration fresh = .ok t) :
      ToolCommitted s lease stepId ordinal result fresh (.error .controlDenied) t
  | replay : ToolCommitted s lease stepId ordinal result fresh (.ok ()) s
  | committed {step : StepRow} (hstep : s.steps.get stepId = some step)
      (hlate : step.status ≠ .lateResult) :
      ToolCommitted s lease stepId ordinal result fresh (.ok ()) { s with
        steps := s.steps.modify stepId (·.withResult ordinal result) }

theorem commitTool_ok {result : Except Code Unit}
    (h : s.commitTool clk lease stepId ordinal payload fresh = .ok (result, s')) :
    ToolCommitted s lease stepId ordinal payload fresh result s' := by
  simp only [commitTool] at h
  obtain ⟨-, -, h⟩ := bind_eq_ok.1 h
  simp only [require_bind_eq_ok, refuse_bind_eq_ok] at h
  obtain ⟨row, -, step, hstep, calls, -, -, h⟩ := h
  split at h
  · obtain ⟨t, hlate, h⟩ := bind_eq_ok.1 h
    simp only [pure_eq_ok, Prod.mk.injEq] at h
    obtain ⟨rfl, rfl⟩ := h
    exact .late hlate
  · next hfence =>
    rw [not_or, not_or] at hfence
    split at h <;> simp only [pure_eq_ok, Prod.mk.injEq] at h <;> obtain ⟨rfl, rfl⟩ := h
    · exact .replay
    · exact .committed (Option.filter_eq_some_iff.1 hstep).1 hfence.2.1

/-- A committed `begin_round` held a valid lease, and reads the boundary again or freezes it at
the inputs received so far. -/
theorem beginRound_ok {round : Round} (h : s.beginRound clk lease logicalKey = .ok (round, s')) :
    ∃ row, s.fencedRow lease.runId = some row ∧ row.run.incidentId = lease.incidentId ∧
      ¬ row.revoked lease clk.now ∧
      round.inputs = s.inputsUpTo lease.incidentId round.row.inputWatermark ∧
      (s' = s ∧ s.inputRounds.get (lease.runId, logicalKey) = some round.row ∧
          round.row.controlGeneration = lease.controlGeneration ∨
        round.row = freeze.fresh s lease ∧
          (∀ old, s.inputRounds.get (lease.runId, logicalKey) = some old →
            old.controlGeneration ≠ lease.controlGeneration ∧ old.committed = false) ∧
          s' = { s with
            inputRounds := s.inputRounds.insert (lease.runId, logicalKey) round.row }) := by
  simp only [beginRound, refuse_bind_eq_ok] at h
  obtain ⟨-, h⟩ := h
  obtain ⟨scope, hscope, h⟩ := bind_eq_ok.1 h
  simp only [require_bind_eq_ok, refuse_bind_eq_ok, Option.filter_eq_some_iff,
    decide_eq_true_eq] at h
  obtain ⟨row, ⟨hrow, hbound⟩, hfence, h⟩ := h
  obtain ⟨⟨frozen, t⟩, hfreeze, h⟩ := bind_eq_ok.1 h
  simp only [pure_eq_ok, Prod.mk.injEq] at h
  obtain ⟨rfl, rfl⟩ := h
  obtain ⟨-, hinc, hscopeOf⟩ := fencedRow_eq_some.1 hrow
  rw [lockScope_eq_ok (hbound ▸ hinc) hscope, ← hscopeOf] at hfence
  refine ⟨row, hrow, hbound, hfence, rfl, ?_⟩
  unfold freeze at hfreeze
  split at hfreeze
  · next old hold =>
    split at hfreeze
    · next hgen =>
      simp only [pure_eq_ok, Prod.mk.injEq] at hfreeze
      obtain ⟨rfl, rfl⟩ := hfreeze
      exact .inl ⟨rfl, hold, hgen⟩
    · next hgen =>
      simp only [refuse_bind_eq_ok, pure_eq_ok, Prod.mk.injEq, Bool.not_eq_true] at hfreeze
      obtain ⟨hcommitted, rfl, rfl⟩ := hfreeze
      refine .inr ⟨rfl, fun old' hold' => ?_, rfl⟩
      rw [hold, Option.some.injEq] at hold'
      subst hold'
      exact ⟨hgen, hcommitted⟩
  · next hnone =>
    simp only [pure_eq_ok, Prod.mk.injEq] at hfreeze
    obtain ⟨rfl, rfl⟩ := hfreeze
    refine .inr ⟨rfl, fun old hold => ?_, rfl⟩
    rw [hnone] at hold
    cases hold

theorem currentRow_eq_some {incidentId : UUID} {row : FencedRow} :
    s.currentRow incidentId = some row ↔
      s.incidents.get incidentId = some row.incident ∧
        (∃ runId, row.incident.currentRunId = some runId ∧ s.runs.get runId = some row.run) ∧
        row.scope = s.scopeOf row.incident := by
  obtain ⟨run, incident, scope⟩ := row
  simp only [currentRow, Option.bind_eq_bind, Option.bind_eq_some_iff, Option.some.injEq,
    FencedRow.mk.injEq]
  constructor
  · rintro ⟨incident', hinc, runId, hcur, run', hrun, rfl, rfl, rfl⟩
    exact ⟨hinc, ⟨runId, hcur, hrun⟩, rfl⟩
  · rintro ⟨hinc, ⟨runId, hcur, hrun⟩, rfl⟩
    exact ⟨incident, hinc, runId, hcur, run, hrun, rfl, rfl, rfl⟩

/-- How `publish` ends: the conclusion stands already, the attempt was fenced out, or the
conclusion is written. -/
inductive Published (s : Store) (clk : Clock) (lease : Lease) (conclusion : Json)
    (stepId fresh : UUID) : Bool → Store → Prop
  | replay {row : FencedRow} (hrow : s.currentRow lease.incidentId = some row)
      (hcurrent : row.incident.currentRunId = some lease.runId)
      (hconclusion : row.incident.conclusion = some conclusion) :
      Published s clk lease conclusion stepId fresh true s
  | fenced {step : StepRow} {t : Store}
      (hrow : ∀ row, s.currentRow lease.incidentId = some row →
        row.publishable lease clk.now = false)
      (hstep : s.stepOf lease.runId stepId = some step)
      (hlate : s.lateResult lease.runId (.latePublish stepId lease.epoch) conclusion
        lease.controlGeneration fresh = .ok t) :
      Published s clk lease conclusion stepId fresh false t
  | written {row : FencedRow} {step : StepRow}
      (hrow : s.currentRow lease.incidentId = some row)
      (hpublishable : row.publishable lease clk.now = true)
      (hstep : s.stepOf lease.runId stepId = some step)
      (hgeneration : step.controlGeneration = lease.controlGeneration)
      (hstatus : step.status ∈ [StepStatus.responseCommitted, .toolResultCommitted])
      (hresponse : step.response = conclusion) :
      Published s clk lease conclusion stepId fresh true (s.published lease conclusion)

theorem publish_ok {b : Bool} (h : s.publish clk lease conclusion stepId fresh = .ok (b, s')) :
    Published s clk lease conclusion stepId fresh b s' := by
  simp only [publish] at h
  obtain ⟨-, -, h⟩ := bind_eq_ok.1 h
  split at h
  · next hreplay =>
    simp only [pure_eq_ok, Prod.mk.injEq] at h
    obtain ⟨rfl, rfl⟩ := h
    obtain ⟨row, hrow, hsame⟩ := (Option.any_eq_true _ _).1 hreplay
    simp only [decide_eq_true_eq] at hsame
    exact .replay hrow hsame.1 hsame.2
  · split at h
    · next hpublishable =>
      obtain ⟨row, hrow, hp⟩ := (Option.any_eq_true _ _).1 hpublishable
      simp only [require_bind_eq_ok, refuse_bind_eq_ok, pure_eq_ok, Prod.mk.injEq, not_or, ne_eq,
        not_not] at h
      obtain ⟨step, hstep, ⟨hgen, hstatus, hresponse⟩, rfl, rfl⟩ := h
      exact .written hrow hp hstep hgen hstatus hresponse
    · next hfenced =>
      simp only [refuse_bind_eq_ok, Option.isNone_iff_eq_none] at h
      obtain ⟨hstep, h⟩ := h
      obtain ⟨t, hlate, h⟩ := bind_eq_ok.1 h
      simp only [pure_eq_ok, Prod.mk.injEq] at h
      obtain ⟨rfl, rfl⟩ := h
      obtain ⟨step, hstep⟩ := Option.ne_none_iff_exists'.1 hstep
      refine .fenced (fun row hrow => ?_) hstep hlate
      simpa [hrow] using hfenced

/-! ## The operations on the control machine -/

variable {now : Time}

theorem lateResult_view {key : StepKey} (h : s.lateResult runId key payload g fresh = .ok s') :
    s'.view = s.view := by
  rcases lateResult_ok h with ⟨rfl, -⟩ | ⟨-, -, -, rfl⟩ <;> rfl

theorem commitResponse_view (s : Store) (lease : Lease) (logicalKey : String) (response : Json)
    (stepId : UUID) : (s.commitResponse lease logicalKey response stepId).view = s.view := by
  refine Control.State.ext rfl ?_ rfl rfl
  simp only [view, commitResponse]
  split
  · exact attemptsOf_modify_of_eq fun _ => rfl
  · rfl

theorem commitStep_step {result : Except Code UUID}
    (h : s.commitStep clk lease logicalKey response fresh = .ok (result, s')) :
    Control.Step now s.view .machine s'.view := by
  cases commitStep_ok h with
  | late _ hlate => exact .unseen (lateResult_view hlate)
  | replay => exact .idle
  | committed => exact .unseen (commitResponse_view ..)

theorem commitTool_step {result : Except Code Unit}
    (h : s.commitTool clk lease stepId ordinal payload fresh = .ok (result, s')) :
    Control.Step now s.view .machine s'.view := by
  cases commitTool_ok h with
  | late hlate => exact .unseen (lateResult_view hlate)
  | replay => exact .idle
  | committed => exact .unseen rfl

theorem beginRound_step {round : Round} (h : s.beginRound clk lease logicalKey = .ok (round, s')) :
    Control.Step now s.view .machine s'.view := by
  obtain ⟨-, -, -, -, -, ⟨rfl, -⟩ | ⟨-, -, rfl⟩⟩ := beginRound_ok h
  · exact .idle
  · exact .unseen rfl

/-- **A publication** of the store is one of the control machine; a replay and a fenced-out
attempt are no step of it. -/
theorem publish_step {b : Bool} (h : s.publish clk lease conclusion stepId fresh = .ok (b, s')) :
    Control.Step now s.view .machine s'.view ∨
      Control.Step now s.view (.publication lease.incidentId) s'.view := by
  cases publish_ok h with
  | replay => exact .inl .idle
  | fenced _ _ hlate => exact .inl (.unseen (lateResult_view hlate))
  | @written row step hrow hpublishable hstep hgeneration hstatus hresponse =>
    obtain ⟨hinc, ⟨runId, hcur, hrun⟩, -⟩ := currentRow_eq_some.1 hrow
    simp only [FencedRow.publishable, decide_eq_true_eq] at hpublishable
    obtain ⟨hcurrent, hrunning, -, -⟩ := hpublishable
    obtain rfl : runId = lease.runId := Option.some.inj (hcur.symm.trans hcurrent)
    refine .inr ((Control.Step.publish (c := conclusion) (subjectsOf_get hinc) hcur
      (attemptsOf_get hrun) hrunning).of_eq ?_)
    refine Control.State.ext ?_ ?_ rfl rfl
    · exact subjectsOf_modify hinc _
    · exact attemptsOf_modify hrun _

end Store

end OpsPilot
