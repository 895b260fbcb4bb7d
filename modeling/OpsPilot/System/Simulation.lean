import OpsPilot.Control.Outcome
import OpsPilot.System.Machine

/-!
# The store is a control machine

* **`exec_move`**: every committed operation of the store is a move of the control machine, of
  the kind `Op.event` says (or of none, when it replays).
* **`reachable_inv`**: every reachable state of the store satisfies the invariant of the machine.
* `reachable_gated`: every incident is bound to a target with a gate, or to none.
* `step_advances`: what a step guarantees about the columns the lease fence reads.
-/

namespace OpsPilot

open Store

variable [Texts]

/-- **Every operation of the store is a move of the control machine.** -/
theorem exec_move {op : Op} {clk : Clock} {s s' : Store} {issued : Issued}
    (h : op.exec clk s = .ok (issued, s')) :
    ∃ e, (e = .machine ∨ e = op.event clk s) ∧ Control.Move clk.now s.view e s'.view := by
  cases op with
  | accept intake =>
    obtain ⟨-, a, ha⟩ := committed_eq_ok.1 h
    exact ⟨.machine, .inl rfl, (accept_step ha).move⟩
  | openHandoff incidentId intakeKey priority related alert =>
    obtain ⟨-, a, ha⟩ := committed_eq_ok.1 h
    exact ⟨.machine, .inl rfl, (openHandoff_step ha).move⟩
  | escalatePriority incidentId priority =>
    obtain ⟨-, a, ha⟩ := committed_eq_ok.1 h
    exact ⟨.machine, .inl rfl, (escalatePriority_step ha).move⟩
  | registerTarget resourceUid targetId fresh =>
    obtain ⟨-, a, ha⟩ := committed_eq_ok.1 h
    exact ⟨.machine, .inl rfl, (registerTarget_step ha).move⟩
  | newRun n =>
    obtain ⟨-, a, ha⟩ := committed_eq_ok.1 h
    rcases newRun_step ha with rfl | hstep
    · exact ⟨.machine, .inl rfl, Control.Step.idle.move⟩
    · exact ⟨_, .inr rfl, hstep.move⟩
  | claim incidentId runId owner versions leaseSeconds =>
    obtain ⟨a, -, ha⟩ := claimed_eq_ok.1 h
    exact ⟨.machine, .inl rfl, (claim_step ha).move⟩
  | renewLease lease extendSeconds =>
    obtain ⟨-, a, ha⟩ := committed_eq_ok.1 h
    exact ⟨.machine, .inl rfl, (renewLease_step ha).move⟩
  | block lease =>
    obtain ⟨-, a, ha⟩ := committed_eq_ok.1 h
    exact ⟨.machine, .inl rfl, (block_step ha).move⟩
  | handOff lease =>
    obtain ⟨-, a, ha⟩ := committed_eq_ok.1 h
    exact ⟨.machine, .inl rfl, (handOff_step ha).move⟩
  | sweepExpiredRun incidentId runId =>
    cases h
    exact ⟨.machine, .inl rfl, (sweepExpiredRun_step s clk incidentId runId).move⟩
  | parkBacklog maxQueued =>
    obtain ⟨-, a, ha⟩ := committed_eq_ok.1 h
    exact ⟨.machine, .inl rfl, (parkBacklog_step ha).move⟩
  | abandon lease =>
    cases h
    exact ⟨.machine, .inl rfl, (abandon_step s lease).move⟩
  | setGlobalSuspension suspended expected actor =>
    obtain ⟨-, a, ha⟩ := committed_eq_ok.1 h
    exact ⟨.machine, .inl rfl, (setGlobalSuspension_step ha).move⟩
  | setTargetSuspension target fresh suspended expected actor =>
    obtain ⟨-, a, ha⟩ := committed_eq_ok.1 h
    exact ⟨.machine, .inl rfl, setTargetSuspension_move ha⟩
  | control r =>
    obtain ⟨-, a, ha⟩ := committed_eq_ok.1 h
    exact ⟨_, .inr rfl, control_move ha⟩
  | appendInput incidentId inputId content actor =>
    obtain ⟨-, a, ha⟩ := committed_eq_ok.1 h
    exact ⟨.machine, .inl rfl, (appendInput_step ha).move⟩
  | commitStep lease logicalKey response fresh =>
    obtain ⟨-, a, ha⟩ := committed_eq_ok.1 h
    exact ⟨.machine, .inl rfl, (commitStep_step ha).move⟩
  | commitTool lease stepId ordinal result fresh =>
    obtain ⟨-, a, ha⟩ := committed_eq_ok.1 h
    exact ⟨.machine, .inl rfl, (commitTool_step ha).move⟩
  | beginRound lease logicalKey =>
    obtain ⟨-, a, ha⟩ := committed_eq_ok.1 h
    exact ⟨.machine, .inl rfl, (beginRound_step ha).move⟩
  | publish lease conclusion stepId fresh =>
    obtain ⟨-, a, ha⟩ := committed_eq_ok.1 h
    rcases publish_step ha with hstep | hstep
    · exact ⟨.machine, .inl rfl, hstep.move⟩
    · exact ⟨_, .inr rfl, hstep.move⟩
  | reserveBudget lease reservationId amount seconds =>
    obtain ⟨-, a, ha⟩ := committed_eq_ok.1 h
    exact ⟨.machine, .inl rfl, (reserveBudget_step ha).move⟩
  | settleBudget lease reservationId outcome seconds =>
    obtain ⟨-, a, ha⟩ := committed_eq_ok.1 h
    exact ⟨.machine, .inl rfl, (settleBudget_step ha).move⟩
  | chargeTool lease operationId seconds maxOperations maxToolSeconds dispatchId =>
    obtain ⟨-, a, ha⟩ := committed_eq_ok.1 h
    exact ⟨.machine, .inl rfl, (chargeTool_step ha).move⟩
  | authorizeSession a =>
    obtain ⟨-, id, ha⟩ := committed_eq_ok.1 h
    exact ⟨.machine, .inl rfl, (authorizeSession_step ha).move⟩
  | registerRemediation r =>
    obtain ⟨-, a, ha⟩ := committed_eq_ok.1 h
    exact ⟨_, .inr rfl, (registerRemediation_step ha).move⟩
  | authorizeAutomaticObservation incidentId controlGeneration grant refusal =>
    obtain ⟨-, a, ha⟩ := committed_eq_ok.1 h
    exact ⟨.machine, .inl rfl, (authorizeAutomaticObservation_step ha).move⟩
  | recordAutoObservationFailure incidentId controlGeneration reason =>
    obtain ⟨-, a, ha⟩ := committed_eq_ok.1 h
    obtain ⟨selfHeal, rfl⟩ := recordAutoObservationFailure_ok ha
    exact ⟨.machine, .inl rfl, Control.Step.idle.move⟩
  | revokeSessions incidentId =>
    obtain ⟨-, a, ha⟩ := committed_eq_ok.1 h
    obtain ⟨incident, -, rfl⟩ := revokeSessions_ok ha
    exact ⟨.machine, .inl rfl, Control.Step.idle.move⟩
  | claimDueSample sessionId owner leaseSeconds =>
    obtain ⟨a, -, ha⟩ := sampleClaimed_eq_ok.1 h
    exact ⟨.machine, .inl rfl, (claimDueSample_step ha).move⟩
  | submitSample lease sample readings sampleId jobId =>
    obtain ⟨-, a, ha⟩ := committed_eq_ok.1 h
    exact ⟨.machine, .inl rfl, (submitSample_step ha).move⟩
  | sweepExpiredSession sessionId =>
    obtain ⟨-, a, ha⟩ := committed_eq_ok.1 h
    exact ⟨.machine, .inl rfl, (sweepExpiredSession_step ha).move⟩

namespace State

variable {σ σ' : State} {call : Call}

/-- A step of the system is a move of the control machine. -/
theorem step_move (h : system.Step σ call σ') :
    ∃ e, (e = .machine ∨ e = call.op.event call.clock σ.store) ∧
      Control.Move call.clock.now σ.store.view e σ'.store.view := by
  rcases step_cases h with ⟨issued, store, hok, rfl⟩ | ⟨-, rfl⟩
  · exact exec_move hok
  · exact ⟨.machine, .inl rfl, Control.Step.idle.move⟩

theorem step_inv (h : system.Step σ call σ') (hinv : Control.Inv σ.now σ.store.view) :
    Control.Inv σ'.now σ'.store.view := by
  obtain ⟨e, -, F, hprepare, hmove⟩ := step_move h
  rw [step_now h]
  exact (hmove.inv (hprepare.inv (hinv.mono h.1))).mono call.clock.now_le_later

/-- **The invariant of the control machine holds in every reachable state.** -/
theorem reachable_inv (h : system.Reachable σ) : Control.Inv σ.now σ.store.view := by
  refine h.invariant (P := fun σ => Control.Inv σ.now σ.store.view) (fun σ hinit => ?_) step_inv
  rw [hinit.1]
  exact ⟨fun r a ha => (nomatch ha), fun i sub hsub => (nomatch hsub)⟩

/-- Every incident is bound to a target with a gate, or to none. -/
theorem reachable_gated (h : system.Reachable σ) : Control.Gated σ.store.view := by
  refine store_invariant (P := fun s => Control.Gated s.view) (fun i sub hsub => ?_)
    (fun op clk s s' issued hgated hok => ?_) h
  · cases hsub
  · obtain ⟨e, -, F, hprepare, hmove⟩ := exec_move hok
    exact hmove.gated (hprepare.gated hgated)

/-- What a step guarantees about the columns the fence reads. -/
theorem step_advances (h : system.Step σ call σ') :
    ∃ F, Control.Advances call.clock.now σ.store.view F ∧
      Control.Advances call.clock.now F σ'.store.view := by
  obtain ⟨e, -, F, hprepare, hmove⟩ := step_move h
  exact ⟨F, hprepare.advances, hmove.advances⟩

end State

end OpsPilot
