import OpsPilot.Persistence.Rebuild
import OpsPilot.System.Publication

/-!
# Late results over whole runs

A worker that lost its lease still brings back what it was sent for. The reply is kept under a
reserved key, one row for each identity and lease epoch, and nothing reads it again.

* `Numbered`: the steps of a Run are numbered from 0 in the order they were written.
* `LateRecorded`: what a late reply leaves; `commitStep_fenced` and `commitTool_fenced` say that
  every late reply leaves it.
* **`late_results`**: late results in every reachable state and along every run.
-/

namespace OpsPilot

namespace Store

variable {s s' : Store} {clk : Clock} {lease : Lease}

/-! ## The numbering of steps -/

/-- The numbers of the steps of a Run, newest first. -/
def stepNumbers (s : Store) (r : UUID) : List ℕ := (s.stepsOf r).map fun e => e.2.sequence

/-- The steps of every Run are numbered from 0 in the order they were written, late results
included. -/
def Numbered (s : Store) : Prop :=
  ∀ r, s.stepNumbers r = (List.range (s.stepsOf r).length).reverse

/-- The next number is how many steps there are. -/
theorem Numbered.nextSequence (h : s.Numbered) (r : UUID) :
    s.nextSequence r = (s.stepsOf r).length := by
  have hnumbers : ((s.stepsOf r).map fun e => e.2.sequence + 1) =
      ((List.range (s.stepsOf r).length).map (· + 1)).reverse := by
    rw [← List.map_reverse, ← h r, stepNumbers, List.map_map]
    rfl
  rw [Store.nextSequence, hnumbers, Table.foldr_max_eq_iff]
  simp only [List.mem_reverse, List.mem_map, List.mem_range]
  constructor
  · rintro x ⟨n, hn, rfl⟩
    exact hn
  · rcases Nat.eq_zero_or_pos (s.stepsOf r).length with hzero | hpos
    · exact .inl hzero
    · exact .inr ⟨(s.stepsOf r).length - 1, by omega, by omega⟩

/-- **A change of the steps keeps the numbering.** -/
theorem Numbered.of_change (h : s.Numbered) (hchange : StepChange s s') : s'.Numbered := by
  intro r'
  cases hchange with
  | none hsteps =>
    rw [stepNumbers, stepsOf, hsteps]
    exact h r'
  | @add r id key status response g hrun hnew hfresh hlate hsteps =>
    rw [stepNumbers, stepsOf, hsteps, addStep, Table.select_insert _ hfresh]
    split
    · next hr =>
      obtain rfl : r = r' := by simpa using hr
      have hold := h r
      rw [stepNumbers, stepsOf] at hold
      rw [List.map_cons, List.length_cons, List.range_succ, List.reverse_append, hold,
        h.nextSequence]
      rfl
    · exact h r'
  | @result id step ordinal result hstep hlate hsteps =>
    have hold := h r'
    rw [stepNumbers, stepsOf] at hold
    have hselect : ∀ k row, s.steps.get k = some row →
        decide ((if k = id then row.withResult ordinal result else row).runId = r') =
          decide (row.runId = r') := by
      intro k row hget
      split <;> rfl
    rw [stepNumbers, stepsOf, hsteps, Table.modify, Table.select_update hselect, List.map_map,
      List.length_map, ← hold]
    refine List.map_congr_left fun e he => ?_
    dsimp only [Function.comp]
    split <;> rfl

/-- A late result is never touched again. -/
theorem StepChange.late_kept (h : StepChange s s') {id : UUID} {row : StepRow}
    (hget : s.steps.get id = some row) (hlate : row.status = .lateResult) :
    s'.steps.get id = some row := by
  cases h with
  | none hsteps => rw [hsteps, hget]
  | @add r fresh key status response g hrun hnew hfresh hkey hsteps =>
    have hne : id ≠ fresh := by
      rintro rfl
      rw [hfresh] at hget
      cases hget
    rw [hsteps, addStep, Table.get_insert_ne _ _ hne, hget]
  | @result id' step ordinal result hstep hnot hsteps =>
    have hne : id ≠ id' := by
      rintro rfl
      obtain rfl := Option.some.inj (hget.symm.trans hstep)
      exact hnot hlate
    rw [hsteps, Table.get_modify_ne _ _ hne, hget]

/-! ## A late reply -/

/-- A late reply is on record once, and everything else is as it was: the other rows, and every
checkpoint as its reader sees it. -/
structure LateRecorded (s s' : Store) (r : UUID) (key : StepKey) : Prop where
  once : ∃ id row, s'.steps.get id = some row ∧ row.runId = r ∧ row.logicalKey = key ∧
    row.status = .lateResult ∧ ∀ id' row', s'.steps.get id' = some row' → row'.runId = r →
      row'.logicalKey = key → id' = id
  rest : s' = { s with steps := s'.steps }
  kept : ∀ id row, s.steps.get id = some row → s'.steps.get id = some row
  added : ∀ id row, s'.steps.get id = some row → s.steps.get id = some row ∨
    row.runId = r ∧ row.logicalKey = key ∧ row.status = .lateResult
  rebuilt : ∀ incidentId, (s'.rebuild incidentId).map Checkpoint.withoutLate =
    (s.rebuild incidentId).map Checkpoint.withoutLate

/-- **A late result is recorded once.** -/
theorem lateResult_recorded (hfiled : Filed s) {r fresh : UUID} (key : StepKey) (payload : Json)
    (g : ℕ) {run : RunRow} (hrun : s.runs.get r = some run) (hkey : key.late = true)
    (hfresh : s.steps.get fresh = none) :
    ∃ s', s.lateResult r key payload g fresh = .ok s' ∧ LateRecorded s s' r key := by
  cases hat : s.stepAt r key with
  | some found =>
    have hok : s.lateResult r key payload g fresh = .ok s := by
      rw [lateResult, if_pos (.inr (by rw [hat]; rfl))]
      rfl
    have hsome : (s.stepAt r key).isSome := by rw [hat]; rfl
    obtain ⟨id, row, hget, hr, hrow⟩ := stepAt_isSome hsome
    refine ⟨s, hok, ⟨id, row, hget, hr, hrow, hfiled.late hget (hrow ▸ hkey), ?_⟩, rfl,
      fun _ _ hold => hold, fun _ _ => .inl, fun _ => rfl⟩
    intro id' row' hget' hr' hrow'
    exact hfiled.unique hget' hget (hr'.trans hr.symm) (hrow'.trans hrow.symm)
  | none =>
    have hok : s.lateResult r key payload g fresh =
        .ok (s.addStep r fresh key .lateResult payload g) := by
      simp [lateResult, hrun, hat, hfresh, refuse, bind, Except.bind, pure, Except.pure]
    have hself : (s.addStep r fresh key .lateResult payload g).steps.get fresh = some
        { runId := r, sequence := s.nextSequence r, logicalKey := key, status := .lateResult
          response := payload, controlGeneration := g } := Table.get_insert_self _ _ _
    rw [stepAt_eq_none] at hat
    refine ⟨_, hok, ⟨fresh, _, hself, rfl, rfl, rfl, fun id' row' hget' hr' hrow' => ?_⟩, rfl,
      fun id row hget => ?_, fun id row hget => ?_, rebuild_late hfresh⟩
    · by_contra hne
      rw [addStep, Table.get_insert_ne _ _ hne] at hget'
      exact hat id' row' hget' hr' hrow'
    · have hne : id ≠ fresh := by
        rintro rfl
        rw [hfresh] at hget
        cases hget
      rw [addStep, Table.get_insert_ne _ _ hne, hget]
    · rw [addStep, Table.get_insert] at hget
      split at hget
      · obtain rfl := Option.some.inj hget
        exact .inr ⟨rfl, rfl, rfl⟩
      · exact .inl hget

/-- The scope of any incident is locked in a store whose incidents have gates. -/
theorem lockScope_of_gated (h : Control.Gated s.view) (incidentId : UUID) :
    ∃ scope, s.lockScope (some incidentId) = .ok scope := by
  cases hinc : s.incidents.get incidentId with
  | none =>
    exact ⟨⟨s.scope, {}⟩, by simp [lockScope, hinc, requireGate, refuse, bind, Except.bind, pure,
      Except.pure]⟩
  | some incident => exact ⟨_, lockScope_isOk hinc (h _ _ (subjectsOf_get hinc))⟩

/-- **A model reply without the lease** is refused, and recorded. -/
theorem commitStep_fenced (hfiled : Filed s) (hgated : Control.Gated s.view) {logicalKey : String}
    {response : Json} {fresh : UUID} {run : RunRow} (hrun : s.runs.get lease.runId = some run)
    (hfenced : s.heldRow lease clk.now = none) (hkey : reservedKey logicalKey = false)
    (hfresh : s.steps.get fresh = none) :
    ∃ s', s.commitStep clk lease logicalKey response fresh = .ok (.error .controlDenied, s') ∧
      LateRecorded s s' lease.runId (.lateStep logicalKey lease.epoch) := by
  obtain ⟨scope, hscope⟩ := lockScope_of_gated hgated lease.incidentId
  obtain ⟨s', hlate, hrecorded⟩ := lateResult_recorded hfiled
    (.lateStep logicalKey lease.epoch) response lease.controlGeneration hrun rfl hfresh
  refine ⟨s', ?_, hrecorded⟩
  simp [commitStep, hkey, hscope, hfenced, hlate, refuse, bind, Except.bind, pure, Except.pure]

/-- **A tool result without the lease**, or for a step of another generation, is refused, and
recorded. -/
theorem commitTool_fenced (hfiled : Filed s) (hgated : Control.Gated s.view) {stepId fresh : UUID}
    {ordinal : ℕ} {result : Json} {row : FencedRow} {step : StepRow} {calls : List Json}
    (hrow : s.fencedRow lease.runId = some row) (hstep : s.stepOf lease.runId stepId = some step)
    (hcalls : toolPlan step.response = some calls) (hordinal : ordinal < calls.length)
    (hfenced : step.controlGeneration ≠ lease.controlGeneration ∨ step.status = .lateResult ∨
      row.revoked lease clk.now) (hfresh : s.steps.get fresh = none) :
    ∃ s', s.commitTool clk lease stepId ordinal result fresh = .ok (.error .controlDenied, s') ∧
      LateRecorded s s' lease.runId (.lateTool stepId ordinal lease.epoch) := by
  obtain ⟨scope, hscope⟩ := lockScope_of_gated hgated lease.incidentId
  obtain ⟨s', hlate, hrecorded⟩ := lateResult_recorded hfiled
    (.lateTool stepId ordinal lease.epoch) result lease.controlGeneration
    (fencedRow_eq_some.1 hrow).1 rfl hfresh
  refine ⟨s', ?_, hrecorded⟩
  simp [commitTool, hscope, hrow, hstep, hcalls, not_le.2 hordinal, if_pos hfenced, hlate, require,
    refuse, bind, Except.bind, pure, Except.pure]

/-- A late result is never published. -/
theorem publish_late {conclusion : Json} {stepId fresh : UUID} {b : Bool} {row : StepRow}
    (h : s.publish clk lease conclusion stepId fresh = .ok (b, s'))
    (hget : s.steps.get stepId = some row) (hlate : row.status = .lateResult) :
    s'.incidents = s.incidents ∧ s'.runs = s.runs := by
  cases publish_ok h with
  | replay => exact ⟨rfl, rfl⟩
  | fenced _ _ hlate' =>
    rcases lateResult_ok hlate' with ⟨rfl, -⟩ | ⟨-, -, -, rfl⟩ <;> exact ⟨rfl, rfl⟩
  | written hrow _ hstep _ hstatus =>
    obtain ⟨hget', -⟩ := Option.filter_eq_some_iff.1 hstep
    obtain rfl := Option.some.inj (hget.symm.trans hget')
    rw [hlate] at hstatus
    simp at hstatus

end Store

open Store

namespace State

variable [Texts] {σ τ : State}

theorem reachable_numbered (h : system.Reachable σ) : σ.store.Numbered := by
  refine store_invariant (P := Store.Numbered) (fun r => rfl)
    (fun op clk s s' issued hnumbered hok => hnumbered.of_change (exec_steps hok)) h

/-- Late results stay as they are along a run. -/
theorem late_of_run {calls : List Call} (hrun : system.Run σ calls τ) {id : UUID} {row : StepRow}
    (hget : σ.store.steps.get id = some row) (hlate : row.status = .lateResult) :
    τ.store.steps.get id = some row :=
  hrun.stable (P := fun σ => σ.store.steps.get id = some row)
    (fun hstep hget => step_store (P := fun s => s.steps.get id = some row) hstep hget
      fun _ _ hok => (exec_steps hok).late_kept hget hlate) hget

end State

namespace Scenario

/-- The worker commits a round and loses its lease after a minute; the worker 4 goes on. -/
def lapseCalls : List Call :=
  claimCalls ++ [(Op.commitStep lease "round-1" answer 8).at (seconds 1),
    (Op.claim 1 2 4 (.obj []) 60).at (seconds 61)]

/-- The first worker answers the next round late, and the second one commits it. -/
def lateCalls : List Call :=
  lapseCalls ++ [(Op.commitStep lease "round-2" answer 9).at (seconds 62),
    (Op.commitStep { lease with owner := 4, epoch := 2 } "round-2" answer 10).at (seconds 63)]

end Scenario

end OpsPilot
