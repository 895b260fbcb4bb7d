import OpsPilot.Control.Outcome
import OpsPilot.System.Frames
import OpsPilot.System.Leases

/-!
# Publication over whole runs

A conclusion is published by a worker that may long have lost its lease, may repeat itself, and
competes with every human decision.

* `exec_steps`: what an operation does to the steps; `Filed`: the steps of a Run have keys of
  their own.
* `publishes_of_written`: only a `publish` under a valid lease writes a conclusion.
* `concluded_later`: a conclusion stands as long as its Run is the current one.
* **`publication`**: publication is fenced and happens once; a repeated publication succeeds and
  changes nothing while its Run is current, and a fenced-out one leaves one late result.
-/

namespace OpsPilot

namespace StepKey

/-- A key under the reserved prefix. -/
def late : StepKey → Bool
  | .text _ => false
  | _ => true

end StepKey

namespace Store

variable {s s' : Store} {clk : Clock} {lease : Lease}

/-! ## The steps of a Run -/

theorem stepAt_eq_none {r : UUID} {key : StepKey} :
    s.stepAt r key = none ↔
      ∀ id row, s.steps.get id = some row → row.runId = r → row.logicalKey ≠ key := by
  simp only [stepAt, List.head?_eq_none_iff, List.eq_nil_iff_forall_not_mem, Table.mem_select_iff,
    Prod.forall, decide_eq_true_eq, not_and]

theorem stepAt_isSome {r : UUID} {key : StepKey} (h : (s.stepAt r key).isSome = true) :
    ∃ id row, s.steps.get id = some row ∧ row.runId = r ∧ row.logicalKey = key := by
  obtain ⟨⟨id, row⟩, hat⟩ := Option.isSome_iff_exists.1 h
  obtain ⟨hget, hp⟩ := Table.mem_select_iff.1 (List.mem_of_mem_head? hat)
  rw [decide_eq_true_eq] at hp
  exact ⟨id, row, hget, hp⟩

/-- What an operation does to the steps. -/
inductive StepChange (s s' : Store) : Prop
  | none (h : s'.steps = s.steps)
  | add {r id : UUID} {key : StepKey} {status : StepStatus} {response : Json} {g : ℕ}
      (hrun : ∃ run, s.runs.get r = some run) (hnew : s.stepAt r key = none)
      (hfresh : s.steps.get id = none) (hlate : key.late = true → status = .lateResult)
      (h : s'.steps = (s.addStep r id key status response g).steps)
  | result {id : UUID} {step : StepRow} {ordinal : ℕ} {result : Json}
      (hstep : s.steps.get id = some step) (hlate : step.status ≠ .lateResult)
      (h : s'.steps = s.steps.modify id (·.withResult ordinal result))

/-- The steps stay as they are, or there is one step more. -/
inductive StepAdded (s s' : Store) : Prop
  | none (h : s'.steps = s.steps)
  | add {r id : UUID} {key : StepKey} {status : StepStatus} {response : Json} {g : ℕ}
      (hrun : ∃ run, s.runs.get r = some run) (hnew : s.stepAt r key = none)
      (hfresh : s.steps.get id = none) (hlate : key.late = true → status = .lateResult)
      (h : s'.steps = (s.addStep r id key status response g).steps)

theorem StepAdded.change (h : StepAdded s s') : StepChange s s' := by
  cases h with
  | none hsteps => exact .none hsteps
  | add hrun hnew hfresh hlate hsteps => exact .add hrun hnew hfresh hlate hsteps

/-- A late result is one step more, if it is not recorded already. -/
theorem StepAdded.of_late {r fresh : UUID} {key : StepKey} {payload : Json} {g : ℕ}
    (h : s.lateResult r key payload g fresh = .ok s') : StepAdded s s' := by
  rcases lateResult_ok h with ⟨rfl, -⟩ | ⟨hrun, hnew, hfresh, rfl⟩
  · exact .none rfl
  · exact .add hrun hnew hfresh (fun _ => rfl) rfl

/-- The steps of a Run have keys of their own, a step belongs to a Run, and what is filed under a
reserved key is a late result. -/
structure Filed (s : Store) : Prop where
  owned : ∀ {id row}, s.steps.get id = some row → ∃ run, s.runs.get row.runId = some run
  unique : ∀ {id id' row row'}, s.steps.get id = some row → s.steps.get id' = some row' →
    row.runId = row'.runId → row.logicalKey = row'.logicalKey → id = id'
  late : ∀ {id row}, s.steps.get id = some row → row.logicalKey.late = true →
    row.status = .lateResult

/-- A change of the steps leaves them filed. -/
theorem Filed.of_change (h : Filed s) (hchange : StepChange s s')
    (hruns : ∀ {r run}, s.runs.get r = some run → ∃ run', s'.runs.get r = some run') :
    Filed s' := by
  have hkept : ∀ {r : UUID}, (∃ run, s.runs.get r = some run) → ∃ run, s'.runs.get r = some run :=
    fun ⟨_, hrun⟩ => hruns hrun
  cases hchange with
  | none hsteps =>
    refine ⟨fun hget => ?_, fun hget hget' => ?_, fun hget => ?_⟩
    · exact hkept (h.owned (hsteps ▸ hget))
    · exact h.unique (hsteps ▸ hget) (hsteps ▸ hget')
    · exact h.late (hsteps ▸ hget)
  | @add r id key status response g hrun hnew hfresh hlate hsteps =>
    rw [stepAt_eq_none] at hnew
    refine ⟨fun {k row} hget => ?_, fun {k k' row row'} hget hget' hr hkey => ?_,
      fun {k row} hget hk => ?_⟩
    all_goals rw [hsteps, addStep, Table.get_insert] at hget
    · split at hget
      · cases hget
        exact hkept hrun
      · exact hkept (h.owned hget)
    · rw [hsteps, addStep, Table.get_insert] at hget'
      split at hget <;> split at hget'
      · next hk hk' => exact hk.trans hk'.symm
      · cases hget
        exact absurd hkey.symm (hnew _ _ hget' hr.symm)
      · cases hget'
        exact absurd hkey (hnew _ _ hget hr)
      · exact h.unique hget hget' hr hkey
    · split at hget
      · cases hget
        exact hlate hk
      · exact h.late hget hk
  | @result id step ordinal result hstep hlate hsteps =>
    have hold : ∀ {k row}, s'.steps.get k = some row → ∃ old, s.steps.get k = some old ∧
        row.runId = old.runId ∧ row.logicalKey = old.logicalKey ∧
          (old.status = .lateResult → row.status = .lateResult) := by
      intro k row hget
      rw [hsteps, Table.get_modify] at hget
      split at hget
      · next hk =>
        rw [hk, hstep] at hget
        cases hget
        exact ⟨step, hk ▸ hstep, rfl, rfl, fun h => absurd h hlate⟩
      · exact ⟨row, hget, rfl, rfl, fun h => h⟩
    refine ⟨fun hget => ?_, fun hget hget' hr hkey => ?_, fun hget hk => ?_⟩
    · obtain ⟨old, hget, hr, -⟩ := hold hget
      exact hr ▸ hkept (h.owned hget)
    · obtain ⟨old, hget, hr₁, hkey₁, -⟩ := hold hget
      obtain ⟨old', hget', hr₂, hkey₂, -⟩ := hold hget'
      exact h.unique hget hget' (by rw [← hr₁, hr, hr₂]) (by rw [← hkey₁, hkey, hkey₂])
    · obtain ⟨old, hget, -, hkey, hstatus⟩ := hold hget
      exact hstatus (h.late hget (hkey ▸ hk))

end Store

open Store

section

variable [Texts] {op : Op} {clk : Clock} {s s' : Store} {issued : Issued}

/-- The operation commits a tool result. -/
def Op.commitsTool : Op → Bool
  | .commitTool .. => true
  | _ => false

/-- An operation that commits no tool result changes no step. -/
theorem exec_added (h : op.exec clk s = .ok (issued, s')) (htool : op.commitsTool = false) :
    StepAdded s s' := by
  by_cases hop : op.records = false
  · exact .none (exec_kept h hop).steps
  cases op with
  | commitStep lease logicalKey response fresh =>
    obtain ⟨-, a, ha⟩ := committed_eq_ok.1 h
    cases commitStep_ok ha with
    | late _ hlate => exact .of_late hlate
    | replay => exact .none rfl
    | @committed row hheld hnew hfresh =>
      obtain ⟨hrun, -, -⟩ := fencedRow_eq_some.1 (heldRow_eq_some.1 hheld).1
      exact .add ⟨_, hrun⟩ hnew hfresh (fun hlate => nomatch hlate) rfl
  | commitTool => cases htool
  | beginRound lease logicalKey =>
    obtain ⟨-, a, ha⟩ := committed_eq_ok.1 h
    obtain ⟨-, -, -, -, -, ⟨rfl, -⟩ | ⟨-, -, rfl⟩⟩ := beginRound_ok ha <;> exact .none rfl
  | publish lease conclusion stepId fresh =>
    obtain ⟨-, a, ha⟩ := committed_eq_ok.1 h
    cases publish_ok ha with
    | fenced _ _ hlate => exact .of_late hlate
    | replay | written => exact .none rfl
  | reserveBudget lease id amount requestSeconds =>
    obtain ⟨-, a, ha⟩ := committed_eq_ok.1 h
    rcases reserveBudget_ok ha with rfl | ⟨-, -, -, -, -, rfl⟩ <;> exact .none rfl
  | settleBudget lease id outcome requestSeconds =>
    obtain ⟨-, a, ha⟩ := committed_eq_ok.1 h
    obtain ⟨-, -, -, ⟨rfl, -⟩ | ⟨-, rfl⟩⟩ := settleBudget_ok ha <;> exact .none rfl
  | appendInput incidentId inputId content actor =>
    obtain ⟨-, a, ha⟩ := committed_eq_ok.1 h
    rcases appendInput_ok ha with rfl | ⟨incident, -, -, rfl⟩ <;> exact .none rfl
  | control r =>
    obtain ⟨-, a, ha⟩ := committed_eq_ok.1 h
    obtain ⟨incident, -, -, -, hdecided⟩ := control_ok ha
    obtain ⟨t, hkept, rfl | ⟨_, _, _, _, _, _, -, rfl⟩⟩ := hdecided.quiet <;>
      exact .none hkept.steps
  | _ => exact absurd rfl hop

/-- **What an operation does to the steps.** -/
theorem exec_steps (h : op.exec clk s = .ok (issued, s')) : StepChange s s' := by
  cases htool : op.commitsTool with
  | false => exact (exec_added h htool).change
  | true =>
    cases op with
    | commitTool lease stepId ordinal result fresh =>
      obtain ⟨-, a, ha⟩ := committed_eq_ok.1 h
      cases commitTool_ok ha with
      | late hlate => exact (StepAdded.of_late hlate).change
      | replay => exact .none rfl
      | committed hstep hlate => exact .result hstep hlate rfl
    | _ => cases htool

/-- No operation removes a Run. -/
theorem exec_runs (h : op.exec clk s = .ok (issued, s')) {r : UUID} {run : RunRow}
    (hrun : s.runs.get r = some run) : ∃ run', s'.runs.get r = some run' := by
  obtain ⟨e, -, F, hprepare, hmove⟩ := exec_move h
  obtain ⟨a, ha, -⟩ := hprepare.advances.attempt r _ (attemptsOf_get hrun)
  obtain ⟨a', ha', -⟩ := hmove.advances.attempt r a ha
  obtain ⟨run', hrun', -⟩ := attemptsOf_eq_some.1 ha'
  exact ⟨run', hrun'⟩

/-- A completed Run stays completed. -/
theorem exec_completed (h : op.exec clk s = .ok (issued, s')) {r : UUID} {run : RunRow}
    (hrun : s.runs.get r = some run) (hcompleted : run.state = .completed) :
    ∃ run', s'.runs.get r = some run' ∧ run'.state = .completed := by
  obtain ⟨e, -, F, hprepare, hmove⟩ := exec_move h
  obtain ⟨a, ha, hstate⟩ := hprepare.completed (attemptsOf_get hrun) hcompleted
  obtain ⟨a', ha', hstate'⟩ := hmove.completed ha hstate
  obtain ⟨run', hrun', rfl⟩ := attemptsOf_eq_some.1 ha'
  exact ⟨run', hrun', hstate'⟩

end

/-! ## Conclusions -/

namespace Store

/-- The conclusion `c` stands on the incident `i`, whose current Run is `r`. -/
def Concluded (s : Store) (i r : UUID) (c : Json) : Prop :=
  ∃ incident, s.incidents.get i = some incident ∧ incident.currentRunId = some r ∧
    incident.conclusion = some c

end Store

namespace State

variable [Texts] {σ σ' τ τ' : State} {call : Call} {i r : UUID} {c : Json}

/-- The call is a publication that the fence admits: its lease is valid, its Run is the current
one of the incident and runs, under the control generation of the incident, and the conclusion is
the response of a committed step of that Run under that generation. -/
def Publishes (σ : State) (call : Call) (i r : UUID) (c : Json) : Prop :=
  ∃ lease stepId fresh incident run step,
    call.op = .publish lease c stepId fresh ∧ lease.incidentId = i ∧ lease.runId = r ∧
      σ.store.leaseCurrent lease call.clock.now = true ∧
      σ.store.incidents.get i = some incident ∧ incident.currentRunId = some r ∧
      incident.controlGeneration = lease.controlGeneration ∧
      σ.store.runs.get r = some run ∧ run.state = .running ∧
      σ.store.stepOf r stepId = some step ∧ step.controlGeneration = lease.controlGeneration ∧
      step.status ∈ [StepStatus.responseCommitted, .toolResultCommitted] ∧ step.response = c

/-- The current Run of an incident is a Run of it, completed once a conclusion stands. -/
theorem current_owned (h : system.Reachable σ) {incident : IncidentRow} {run : RunRow}
    (hinc : σ.store.incidents.get i = some incident) (hcurrent : incident.currentRunId = some r)
    (hrun : σ.store.runs.get r = some run) :
    run.incidentId = i ∧ (incident.conclusion.isSome = true → run.state = .completed) := by
  obtain ⟨a, ha, hbound, hconcluded⟩ :=
    ((reachable_inv h).subject i _ (subjectsOf_get hinc)).owned r hcurrent
  obtain ⟨run', hrun', rfl⟩ := attemptsOf_eq_some.1 ha
  obtain rfl := Option.some.inj (hrun.symm.trans hrun')
  exact ⟨hbound, hconcluded⟩

omit [Texts] in
/-- Only a `publish` is a publication. -/
theorem event_eq_publication {op : Op} {clk : Clock} {s : Store}
    (h : op.event clk s = .publication i) :
    ∃ lease conclusion stepId fresh, op = .publish lease conclusion stepId fresh ∧
      lease.incidentId = i := by
  cases op with
  | publish lease conclusion stepId fresh =>
    exact ⟨lease, conclusion, stepId, fresh, rfl, Control.Event.publication.inj h⟩
  | control r =>
    simp only [Op.event, controlEvent] at h
    split_ifs at h
  | _ => cases h

/-- A committed call leaves a conclusion that stood for the same Run, or publishes it. -/
theorem concluded_before {op : Op} {clk : Clock} {s s' : Store} {issued : Issued}
    (h : op.exec clk s = .ok (issued, s')) (hc : s'.Concluded i r c) :
    s.Concluded i r c ∨ op.event clk s = .publication i := by
  obtain ⟨incident', hinc', hcurrent', hconclusion'⟩ := hc
  obtain ⟨e, he, F, hprepare, hmove⟩ := exec_move h
  rcases hmove.conclusion (subjectsOf_get hinc') hconclusion' with
    ⟨sub, hsub, hconclusion, hcurrent⟩ | hpublish
  · rcases hprepare.conclusion hsub hconclusion with
      ⟨sub₀, hsub₀, hconclusion₀, hcurrent₀⟩ | hpublish
    · obtain ⟨incident, hinc, rfl⟩ := subjectsOf_eq_some.1 hsub₀
      refine .inl ⟨incident, hinc, ?_, hconclusion₀⟩
      exact hcurrent₀.symm.trans (hcurrent.symm.trans hcurrent')
    · cases hpublish
  · rcases he with rfl | rfl
    · cases hpublish
    · exact .inr hpublish

/-- **A conclusion is written by an admitted publication only.** -/
theorem publishes_of_written (h : system.Reachable σ) (hstep : system.Step σ call σ')
    (hafter : σ'.store.Concluded i r c) (hbefore : ¬ σ.store.Concluded i r c) :
    Publishes σ call i r c := by
  rcases step_cases hstep with ⟨issued, s', hok, rfl⟩ | ⟨-, rfl⟩
  · rcases concluded_before hok hafter with hbefore' | hevent
    · exact absurd hbefore' hbefore
    obtain ⟨lease, conclusion, stepId, fresh, hop, rfl⟩ := event_eq_publication hevent
    rw [hop] at hok
    obtain ⟨-, b, hpublish⟩ := committed_eq_ok.1 hok
    cases publish_ok hpublish with
    | replay => exact absurd hafter hbefore
    | fenced _ _ hlate =>
      have hincidents : s'.incidents = σ.store.incidents := by
        rcases lateResult_ok hlate with ⟨rfl, -⟩ | ⟨-, -, -, rfl⟩ <;> rfl
      refine absurd ?_ hbefore
      obtain ⟨incident, hinc, hrest⟩ := hafter
      exact ⟨incident, hincidents ▸ hinc, hrest⟩
    | @written row step hrow hpublishable hstep' hgeneration hstatus hresponse =>
      obtain ⟨hinc, ⟨runId, hcurrent, hrun⟩, hscope⟩ := currentRow_eq_some.1 hrow
      simp only [FencedRow.publishable, decide_eq_true_eq] at hpublishable
      obtain ⟨hown, hrunning, -, hfence⟩ := hpublishable
      obtain rfl : runId = lease.runId := Option.some.inj (hcurrent.symm.trans hown)
      have hbound := (current_owned h hinc hcurrent hrun).1
      obtain ⟨incident', hinc', hcurrent', hconclusion'⟩ := hafter
      simp only [published, Table.get_modify_self, hinc, Option.map_some, Option.some.injEq] at hinc'
      subst hinc'
      obtain rfl : conclusion = c := Option.some.inj hconclusion'
      obtain rfl : lease.runId = r := Option.some.inj (hcurrent.symm.trans hcurrent')
      have hfenced := fencedRow_eq_some.2 ⟨hrun, hbound ▸ hinc, hscope⟩
      refine ⟨lease, stepId, fresh, row.incident, row.run, step, hop, rfl, rfl, ?_, hinc, hcurrent,
        ?_, hrun, hrunning, hstep', hgeneration, hstatus, hresponse⟩
      · exact leaseCurrent_eq_true.2 ⟨row, hfenced, hbound, hfence⟩
      · rw [FencedRow.revoked, not_leaseRevoked] at hfence
        exact hfence.2.2.1
  · exact absurd hafter hbefore

/-- After a conclusion stands, its Run is completed for good. -/
theorem completed_of_run (h : system.Reachable σ) (hc : σ.store.Concluded i r c)
    {calls : List Call} (hrun : system.Run σ calls τ) :
    ∃ run, τ.store.runs.get r = some run ∧ run.state = .completed := by
  obtain ⟨incident, hinc, hcurrent, hconclusion⟩ := hc
  obtain ⟨a, ha, -, hcompleted⟩ :=
    ((reachable_inv h).subject i _ (subjectsOf_get hinc)).owned r hcurrent
  obtain ⟨run, hget, rfl⟩ := attemptsOf_eq_some.1 ha
  refine hrun.stable (P := fun σ => ∃ run, σ.store.runs.get r = some run ∧ run.state = .completed)
    (fun hstep hP => ?_) ⟨run, hget, hcompleted (Option.isSome_iff_exists.2 ⟨c, hconclusion⟩)⟩
  obtain ⟨run, hget, hstate⟩ := hP
  exact step_store (P := fun s => ∃ run, s.runs.get r = some run ∧ run.state = .completed) hstep
    ⟨run, hget, hstate⟩ fun _ _ hok => exec_completed hok hget hstate

/-- A committed call leaves the conclusion of a completed Run alone as long as it is current. -/
theorem exec_concluded {op : Op} {clk : Clock} {s s' : Store} {issued : Issued}
    (h : op.exec clk s = .ok (issued, s')) {run : RunRow} (hrun : s.runs.get r = some run)
    (hcompleted : run.state = .completed) {incident : IncidentRow}
    (hinc : s.incidents.get i = some incident)
    (hc : incident.currentRunId = some r → incident.conclusion = some c) :
    ∃ incident', s'.incidents.get i = some incident' ∧
      (incident'.currentRunId = some r → incident'.conclusion = some c) := by
  obtain ⟨e, -, F, hprepare, hmove⟩ := exec_move h
  obtain ⟨a, ha, hstate⟩ := hprepare.completed (attemptsOf_get hrun) hcompleted
  obtain ⟨sub, hsub, hc₁⟩ :=
    hprepare.concluded (subjectsOf_get hinc) (attemptsOf_get hrun) hcompleted hc
  obtain ⟨sub', hsub', hc₂⟩ := hmove.concluded hsub ha hstate hc₁
  obtain ⟨incident', hinc', rfl⟩ := subjectsOf_eq_some.1 hsub'
  exact ⟨incident', hinc', hc₂⟩

/-- **A conclusion stands** as long as its Run is the current one of the incident. -/
theorem concluded_later (h : system.Reachable σ) (hc : σ.store.Concluded i r c)
    {calls : List Call} (hrun : system.Run σ calls τ) {incident : IncidentRow}
    (hinc : τ.store.incidents.get i = some incident) (hcurrent : incident.currentRunId = some r) :
    incident.conclusion = some c := by
  obtain ⟨run, hget, hcompleted⟩ := completed_of_run h hc (.nil σ)
  obtain ⟨incident₀, hinc₀, -, hconclusion₀⟩ := hc
  let P : Store → Prop := fun s =>
    (∃ run, s.runs.get r = some run ∧ run.state = .completed) ∧
      ∃ incident, s.incidents.get i = some incident ∧
        (incident.currentRunId = some r → incident.conclusion = some c)
  have hkept : P τ.store := by
    refine hrun.stable (P := fun σ => P σ.store) (fun hstep hP => ?_)
      ⟨⟨run, hget, hcompleted⟩, incident₀, hinc₀, fun _ => hconclusion₀⟩
    obtain ⟨⟨run, hget, hstate⟩, incident, hinc, hc⟩ := hP
    exact step_store (P := P) hstep ⟨⟨run, hget, hstate⟩, incident, hinc, hc⟩ fun _ _ hok =>
      ⟨exec_completed hok hget hstate, exec_concluded hok hget hstate hinc hc⟩
  obtain ⟨-, incident', hinc', hc⟩ := hkept
  obtain rfl := Option.some.inj (hinc.symm.trans hinc')
  exact hc hcurrent

theorem reachable_filed (h : system.Reachable σ) : Filed σ.store := by
  refine store_invariant ⟨fun hget => ?_, fun hget => ?_, fun hget => ?_⟩
    (fun op clk s s' issued hfiled hok => hfiled.of_change (exec_steps hok) (exec_runs hok)) h
  all_goals cases hget

/-- A publication that stands is accepted again, by whatever clock, and changes nothing. -/
theorem publish_concluded (h : system.Reachable σ) {lease : Lease}
    (hc : σ.store.Concluded lease.incidentId lease.runId c) (clk : Clock) (stepId fresh : UUID) :
    σ.store.publish clk lease c stepId fresh = .ok (true, σ.store) := by
  obtain ⟨run, hget, -⟩ := completed_of_run h hc (.nil σ)
  obtain ⟨incident, hinc, hcurrent, hconclusion⟩ := hc
  have hlock := lockScope_isOk hinc (reachable_gated h _ _ (subjectsOf_get hinc))
  have hrow : σ.store.currentRow lease.incidentId = some ⟨run, incident, σ.store.scopeOf incident⟩ :=
    currentRow_eq_some.2 ⟨hinc, ⟨_, hcurrent, hget⟩, rfl⟩
  rw [publish, hlock]
  simp [hrow, hcurrent, hconclusion, bind, Except.bind, pure, Except.pure]

omit [Texts] in
/-- An accepted publication leaves its conclusion standing. -/
theorem publish_concludes {s s' : Store} {clk : Clock} {lease : Lease} {stepId fresh : UUID}
    (h : s.publish clk lease c stepId fresh = .ok (true, s')) :
    s'.Concluded lease.incidentId lease.runId c := by
  cases publish_ok h with
  | @replay row hrow hcurrent hconclusion =>
    exact ⟨row.incident, (currentRow_eq_some.1 hrow).1, hcurrent, hconclusion⟩
  | @written row step hrow hpublishable =>
    simp only [FencedRow.publishable, decide_eq_true_eq] at hpublishable
    refine ⟨{ row.incident with conclusion := some c }, ?_, hpublishable.1, rfl⟩
    simp [published, (currentRow_eq_some.1 hrow).1]

/-- The late result of a publication that was fenced out, the only one of its key. -/
def LeftLate (s : Store) (lease : Lease) (stepId : UUID) : Prop :=
  ∃ id row, s.steps.get id = some row ∧ row.runId = lease.runId ∧
    row.logicalKey = .latePublish stepId lease.epoch ∧ row.status = .lateResult ∧
    ∀ id' row', s.steps.get id' = some row' → row'.runId = lease.runId →
      row'.logicalKey = .latePublish stepId lease.epoch → id' = id

omit [Texts] in
/-- A publication that was fenced out leaves the incidents and the Runs as they were, and one late
result. -/
theorem publish_fenced (hfiled : Filed σ.store) {clk : Clock} {lease : Lease}
    {stepId fresh : UUID} {s' : Store}
    (h : σ.store.publish clk lease c stepId fresh = .ok (false, s')) :
    s'.incidents = σ.store.incidents ∧ s'.runs = σ.store.runs ∧ LeftLate s' lease stepId := by
  cases publish_ok h with
  | @fenced step _ hrow hstep hlate =>
    have hframe : s'.incidents = σ.store.incidents ∧ s'.runs = σ.store.runs := by
      rcases lateResult_ok hlate with ⟨rfl, -⟩ | ⟨-, -, -, rfl⟩ <;> exact ⟨rfl, rfl⟩
    have hfiled' : Filed s' :=
      hfiled.of_change (StepAdded.of_late hlate).change fun hrun => ⟨_, hframe.2.symm ▸ hrun⟩
    obtain ⟨id, row, hget, hr, hkey⟩ : ∃ id row, s'.steps.get id = some row ∧
        row.runId = lease.runId ∧ row.logicalKey = .latePublish stepId lease.epoch := by
      rcases lateResult_ok hlate with ⟨rfl, hnone | hat⟩ | ⟨-, -, -, rfl⟩
      · obtain ⟨hget, howner⟩ := Option.filter_eq_some_iff.1 hstep
        obtain ⟨run, hrun⟩ := hfiled.owned hget
        rw [decide_eq_true_eq] at howner
        rw [← howner, hrun] at hnone
        cases hnone
      · exact stepAt_isSome hat
      · exact ⟨fresh, _, Table.get_insert_self .., rfl, rfl⟩
    refine ⟨hframe.1, hframe.2, id, row, hget, hr, hkey, hfiled'.late hget (by rw [hkey]; rfl), ?_⟩
    intro id' row' hget' hr' hkey'
    exact hfiled'.unique hget' hget (hr'.trans hr.symm) (hkey'.trans hkey.symm)

/-- **Publication is fenced, and happens once.** A conclusion is written only by an admitted
publication, and no conclusion is written for its Run again. An accepted publication is accepted
again, and changes nothing, as long as its Run is the current one of the incident. One that is
fenced out changes no incident and no Run, and leaves one late result for the step and the epoch
it names. -/
theorem publication (h : system.Reachable σ) :
    (∀ call σ' i r c, system.Step σ call σ' → σ'.store.Concluded i r c →
      ¬ σ.store.Concluded i r c → Publishes σ call i r c ∧
        ∀ calls τ call' τ' i' c', system.Run σ' calls τ → system.Step τ call' τ' →
          τ'.store.Concluded i' r c' → τ.store.Concluded i' r c') ∧
    (∀ clk lease c stepId fresh s' σ',
      σ.store.publish clk lease c stepId fresh = .ok (true, s') →
      system.Step σ ⟨.publish lease c stepId fresh, clk⟩ σ' →
        ∀ calls τ, system.Run σ' calls τ →
          (τ.store.incidents.get lease.incidentId).bind (·.currentRunId) = some lease.runId →
            ∀ clk' fresh', τ.store.publish clk' lease c stepId fresh' = .ok (true, τ.store)) ∧
    ∀ clk lease c stepId fresh s',
      σ.store.publish clk lease c stepId fresh = .ok (false, s') →
        s'.incidents = σ.store.incidents ∧ s'.runs = σ.store.runs ∧ LeftLate s' lease stepId := by
  refine ⟨fun call σ' i r c hstep hafter hbefore => ?_, ?_, ?_⟩
  · refine ⟨publishes_of_written h hstep hafter hbefore, ?_⟩
    intro calls τ call' τ' i' c' hrun hstep' hafter'
    by_contra hbefore'
    have hreach := h.step hstep
    obtain ⟨run, hget, hcompleted⟩ := completed_of_run hreach hafter hrun
    obtain ⟨_, _, _, _, run', _, -, -, -, -, -, -, -, hget', hrunning, -⟩ :=
      publishes_of_written (hreach.run hrun) hstep' hafter' hbefore'
    obtain rfl := Option.some.inj (hget.symm.trans hget')
    rw [hcompleted] at hrunning
    cases hrunning
  · intro clk lease c stepId fresh s' σ' hok hstep calls τ hrun hcurrent clk' fresh'
    obtain ⟨incident, hinc, hcurrent⟩ := Option.bind_eq_some_iff.1 hcurrent
    have hreach := h.step hstep
    have hstore : σ'.store = s' := by
      rw [hstep.2.2]
      simp only [apply, Op.exec, hok]
      rfl
    have hc := concluded_later hreach (hstore ▸ publish_concludes hok) hrun hinc hcurrent
    exact publish_concluded (hreach.run hrun) ⟨incident, hinc, hcurrent, hc⟩ clk' stepId fresh'
  · intro clk lease c stepId fresh s' hok
    exact publish_fenced (reachable_filed h) hok

end State

namespace Scenario

/-- What the model answered in the first round. -/
def answer : Json := .obj [("summary", .str "disk full")]

/-- The worker commits two rounds. -/
def roundCalls : List Call :=
  claimCalls ++ [(Op.commitStep lease "round-1" answer 8).at (seconds 1),
    (Op.commitStep lease "round-2" (.obj [("summary", .str "unknown")]) 9).at (seconds 2)]

/-- The worker publishes the answer of the first round. -/
def publishFirst : Op := .publish lease answer 8 50

/-- The publication may be repeated as long as the Run 2 is current. -/
theorem publication_repeated :
    system.Reachable (State.reached roundCalls) ∧
      ∀ calls τ,
        system.Run ((State.reached roundCalls).apply (publishFirst.at (seconds 3))) calls τ →
        (τ.store.incidents.get 1).bind (·.currentRunId) = some 2 →
          ∀ clk fresh, τ.store.publish clk lease answer 8 fresh = .ok (true, τ.store) := by
  have hreachable : system.Reachable (State.reached roundCalls) :=
    State.reachable_reached (by decide)
  have hok : ∃ s', (State.reached roundCalls).store.publish ⟨seconds 3, seconds 3, le_rfl⟩ lease
      answer 8 50 = .ok (true, s') := ⟨_, rfl⟩
  obtain ⟨s', hok⟩ := hok
  have hstep : system.Step (State.reached roundCalls) (publishFirst.at (seconds 3))
      ((State.reached roundCalls).apply (publishFirst.at (seconds 3))) :=
    ⟨by decide, trivial, rfl⟩
  exact ⟨hreachable, (State.publication hreachable).2.1 _ _ _ _ _ _ _ hok hstep⟩

/-- A question on the published incident is answered by a new Run. -/
def question : ControlRequest where
  incidentId := 1
  expectedGeneration := 0
  action := .followUp
  actor := "anna"
  payload := some (.obj [])
  renewRunId := some 30
  renewDeadline := some (seconds 7200)
  inputId := 40

/-- The published answer is not the one of the last step, and once the question has started the
new Run the repeated publication is refused and filed as a late result. -/
theorem publication_superseded :
    system.Reachable (State.reached
      (roundCalls ++ [publishFirst.at (seconds 3), (Op.control question).at (seconds 4)])) ∧
    (State.reached (roundCalls ++ [publishFirst.at (seconds 3)])).store.Concluded 1 2 answer ∧
    ((State.reached roundCalls).store.steps.select fun _ _ => true).map (fun e =>
      (e.1, e.2.sequence)) = [(9, 1), (8, 0)] ∧
    ((State.reached (roundCalls ++ [publishFirst.at (seconds 3),
      (Op.control question).at (seconds 4)])).store.publish ⟨seconds 5, seconds 5, le_rfl⟩ lease
        answer 8 51).toOption.map (fun result => (result.1, (result.2.steps.get 51).isSome)) =
      some (false, true) := by
  refine ⟨State.reachable_reached (by decide), ⟨_, rfl, by decide, by decide⟩, by decide,
    by decide⟩

end Scenario

end OpsPilot
