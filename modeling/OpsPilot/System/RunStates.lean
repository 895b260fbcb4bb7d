import OpsPilot.System.Leases

/-!
# The store against the Run state machine

Every operation writes Run states by raw updates; `runExecution` declares the legal moves
elsewhere. The two agree up to the moves of `Op.Departs`: the store also parks Runs that were not
running for a human, and blocks a queued Run it is not able to continue.

* **`run_states`**: a Run whose state changes in a call moves along an edge of `runExecution`, or
  departs from it in one of these ways.
* `run_states_sweep`: the sweep parks a queued Run, which is not an edge.
-/

namespace OpsPilot

open Store

/-- The moves an operation makes that `runExecution` does not list: an overdue or parked queued
Run and every Run a human takes over waits for the human, and a claim on other versions blocks a
queued Run. -/
def Op.Departs (op : Op) (before after : RunExecution) : Prop :=
  match op with
  | .sweepExpiredRun .. | .parkBacklog _ => before = .queued ∧ after = .waitingHuman
  | .control r =>
    r.action = .takeover ∧ before ∈ [RunExecution.queued, .paused, .blocked] ∧
      after = .waitingHuman
  | .claim .. => before = .queued ∧ after = .blocked
  | _ => False

/-- The moves an operation may make. -/
def Op.Moves (op : Op) (before after : RunExecution) : Prop :=
  runExecution.Edge before after ∨ op.Departs before after

/-- Every Run of the old table whose state differs in the new one made a move in `M`. -/
def StatesMove (M : RunExecution → RunExecution → Prop) (old new : Table UUID RunRow) : Prop :=
  ∀ r run run', old.get r = some run → new.get r = some run' → run'.state ≠ run.state →
    M run.state run'.state

namespace StatesMove

variable {M : RunExecution → RunExecution → Prop} {old new : Table UUID RunRow}

theorem refl (t : Table UUID RunRow) : StatesMove M t t := by
  intro r run run' hrun hrun' hne
  rw [hrun, Option.some.injEq] at hrun'
  exact absurd (congrArg RunRow.state hrun'.symm) hne

theorem update (t : Table UUID RunRow) {f : UUID → RunRow → RunRow}
    (h : ∀ k row, (f k row).state ≠ row.state → M row.state (f k row).state) :
    StatesMove M t (t.update f) := by
  intro r run run' hrun hrun' hne
  rw [Table.get_update, hrun, Option.map_some, Option.some.injEq] at hrun'
  subst hrun'
  exact h r run hne

theorem modify (t : Table UUID RunRow) {k : UUID} {f : RunRow → RunRow}
    (h : ∀ row, t.get k = some row → (f row).state ≠ row.state → M row.state (f row).state) :
    StatesMove M t (t.modify k f) := by
  intro r run run' hrun hrun' hne
  by_cases hr : r = k
  · subst hr
    rw [Table.get_modify_self, hrun, Option.map_some, Option.some.injEq] at hrun'
    subst hrun'
    exact h run hrun hne
  · rw [Table.get_modify_ne _ _ hr, hrun, Option.some.injEq] at hrun'
    exact absurd (congrArg RunRow.state hrun'.symm) hne

theorem insert (h : StatesMove M old new) {k : UUID} {row : RunRow} (hnone : old.get k = none) :
    StatesMove M old (new.insert k row) := by
  intro r run run' hrun hrun' hne
  have hr : r ≠ k := by
    rintro rfl
    rw [hnone] at hrun
    cases hrun
  rw [Table.get_insert_ne _ _ hr] at hrun'
  exact h r run run' hrun hrun' hne

/-- A write that keeps the state of every Run it touches. -/
theorem of_states (t : Table UUID RunRow) {k : UUID} {f : RunRow → RunRow}
    (h : ∀ row, (f row).state = row.state) : StatesMove M t (t.modify k f) :=
  modify t fun row _ hne => absurd (h row) hne

end StatesMove

/-- Every Run in one of the states moves on to `target` along an edge. -/
def Feeds (source : List RunExecution) (target : RunExecution) : Prop :=
  ∀ e ∈ source, e ≠ target → runExecution.Edge e target

theorem feeds_cancelled : Feeds unfinishedStates .cancelled := by
  intro e he _
  refine RunExecution.edge_cancelled ?_
  simp only [unfinishedStates, List.mem_cons, List.not_mem_nil, or_false] at he
  rcases he with rfl | rfl | rfl | rfl | rfl <;> rfl

theorem feeds_paused : Feeds [.queued, .running, .waitingHuman] .paused := by
  intro e he _
  simp only [List.mem_cons, List.not_mem_nil, or_false] at he
  rcases he with rfl | rfl | rfl <;> exact runExecution.edge_of_fire .humanPause rfl

theorem feeds_queued : Feeds [.queued, .paused, .running, .waitingHuman] .queued := by
  intro e he hne
  simp only [List.mem_cons, List.not_mem_nil, or_false] at he
  rcases he with rfl | rfl | rfl | rfl
  · exact absurd rfl hne
  · exact runExecution.edge_of_fire .humanResume rfl
  · exact runExecution.edge_of_fire .leaseExpired rfl
  · exact runExecution.edge_of_fire .humanReply rfl

theorem Feeds.mono {source source' : List RunExecution} {target : RunExecution}
    (h : Feeds source target) (hsub : source' ⊆ source) : Feeds source' target :=
  fun e he => h e (hsub he)

namespace Store

variable {s s' : Store} {clk : Clock} {M : RunExecution → RunExecution → Prop}

theorem moveRuns_states (s : Store) (incidentId : UUID) {source : List RunExecution}
    {target : RunExecution} (g : ℕ) (h : ∀ e ∈ source, e ≠ target → M e target) :
    StatesMove M s.runs (s.moveRuns incidentId source target g) := by
  refine StatesMove.update _ fun k row hne => ?_
  split at hne
  · next hmove =>
    rw [if_pos hmove]
    exact h _ hmove.2 fun heq => hne heq.symm
  · exact absurd rfl hne

theorem park_states (s : Store) (runId : UUID) {fromStates : List RunExecution}
    (h : ∀ e ∈ fromStates, M e .waitingHuman) :
    StatesMove M s.runs (s.park runId fromStates).runs := by
  simp only [park]
  refine StatesMove.modify _ fun row _ hne => ?_
  split at hne
  · next hstate =>
    rw [if_pos hstate]
    exact h _ hstate
  · exact absurd rfl hne

theorem suspend_states (s : Store) (covers : IncidentRow → Bool) (reaches : RunRow → Bool)
    (h : ∀ e ∈ [RunExecution.queued, .running, .waitingHuman], e ≠ .paused → M e .paused) :
    StatesMove M s.runs (s.suspend covers reaches).runs := by
  simp only [suspend]
  refine StatesMove.update _ fun k row hne => ?_
  split at hne
  · next hmove =>
    rw [if_pos hmove]
    exact h _ hmove.2 fun heq => hne heq.symm
  · exact absurd rfl hne

/-- The writes of a decision move Runs along edges, but for a takeover. -/
theorem Decided.states {r : ControlRequest} {incident : IncidentRow}
    (h : Decided s clk r incident s') : StatesMove (Op.control r).Moves s.runs s'.runs := by
  have hedge : ∀ {source target}, Feeds source target →
      ∀ e ∈ source, e ≠ target → (Op.control r).Moves e target := fun h e he hne =>
    .inl (h e he hne)
  cases h with
  | close => exact moveRuns_states _ _ _ (hedge feeds_cancelled)
  | reopen => exact .refl _
  | @rebind t targetId payload haction hlife hreg =>
    have hruns : t.runs = s.runs := by
      rcases hreg with rfl | ⟨-, toUid, rfl⟩ <;> rfl
    rw [← hruns]
    exact moveRuns_states t _ _ (hedge feeds_cancelled)
  | merge haction hsurvivor hne ht hinput =>
    subst ht
    rcases hinput with rfl | ⟨-, rfl⟩ <;> exact moveRuns_states _ _ _ (hedge feeds_cancelled)
  | takeover haction =>
    simp only [Store.takeover]
    split
    · exact .refl _
    · refine moveRuns_states _ _ _ fun e he hne => ?_
      simp only [List.mem_cons, List.not_mem_nil, or_false] at he
      rcases he with rfl | rfl | rfl | rfl
      · exact .inr ⟨haction, by simp, rfl⟩
      · exact .inl (runExecution.edge_of_fire .awaitingHuman_input rfl)
      · exact .inr ⟨haction, by simp, rfl⟩
      · exact .inr ⟨haction, by simp, rfl⟩
  | renew hcurrent hrun hrenews hconcluded hrunId hdeadline hfresh hinput =>
    exact (moveRuns_states _ _ _ (hedge feeds_cancelled)).insert hfresh
  | @direct suspended run currentId haction hcurrent hrun hdirect hinput =>
    have hdirect : StatesMove (Op.control r).Moves s.runs (s.directRuns r incident suspended) := by
      unfold directRuns
      split_ifs
      · exact moveRuns_states _ _ _ (hedge feeds_cancelled)
      · exact .refl _
      · exact moveRuns_states _ _ _ (hedge (feeds_paused.mono (by decide)))
      · exact moveRuns_states _ _ _ (hedge feeds_queued)
      · exact moveRuns_states _ _ _ (hedge (feeds_queued.mono (by decide)))
    split <;> exact hdirect

end Store

section

variable [Texts] {op : Op} {clk : Clock} {s s' : Store} {issued : Issued}

/-- **Every operation moves Runs along edges**, but for the moves of `Op.Departs`. -/
theorem exec_states (h : op.exec clk s = .ok (issued, s')) :
    StatesMove op.Moves s.runs s'.runs := by
  cases op with
  | accept intake =>
    obtain ⟨-, a, ha⟩ := committed_eq_ok.1 h
    rcases accept_ok ha with rfl | ⟨suspended, -, hrun, -, rfl⟩
    · exact .refl _
    · exact (StatesMove.refl _).insert hrun
  | openHandoff incidentId intakeKey priority related alert =>
    obtain ⟨-, a, ha⟩ := committed_eq_ok.1 h
    obtain ⟨-, rfl⟩ := openHandoff_ok ha
    exact .refl _
  | escalatePriority incidentId priority =>
    obtain ⟨-, a, ha⟩ := committed_eq_ok.1 h
    obtain rfl := escalatePriority_ok ha
    exact .refl _
  | registerTarget resourceUid targetId fresh =>
    obtain ⟨-, a, ha⟩ := committed_eq_ok.1 h
    rcases registerTarget_ok ha with rfl | ⟨-, rfl⟩ <;> exact .refl _
  | newRun n =>
    obtain ⟨-, a, ha⟩ := committed_eq_ok.1 h
    rcases newRun_ok ha with ⟨rfl, -⟩ | ⟨incident, suspended, -, -, -, -, -, hrun, -, rfl⟩
    · exact .refl _
    · exact (StatesMove.refl _).insert hrun
  | claim incidentId runId owner versions leaseSeconds =>
    obtain ⟨a, -, ha⟩ := claimed_eq_ok.1 h
    obtain ⟨incident, run, hc, ⟨-, rfl⟩ | ⟨hblocked, -, rfl⟩⟩ := claim_ok ha
    · refine StatesMove.modify _ fun row hrow hne => ?_
      split at hne
      · next hstate =>
        rw [if_pos hstate]
        simp only [List.mem_cons, List.not_mem_nil, or_false] at hstate
        rcases hstate with hstate | hstate <;> rw [hstate]
        · exact .inr ⟨rfl, rfl⟩
        · exact .inl (runExecution.edge_of_fire .incompatibleState rfl)
      · exact absurd rfl hne
    · refine StatesMove.modify _ fun row hrow hne => ?_
      obtain rfl := Option.some.inj (hc.foundRun.symm.trans hrow)
      have hstate := hc.state
      simp only [List.mem_cons, List.not_mem_nil, or_false] at hstate
      rcases hstate with hstate | hstate | hstate
      · rw [hstate]
        exact .inl (runExecution.edge_of_fire .claimed rfl)
      · exact absurd hstate.symm hne
      · exact absurd hstate hblocked
  | renewLease lease extendSeconds =>
    obtain ⟨-, a, ha⟩ := committed_eq_ok.1 h
    obtain ⟨run, -, -, -, -, rfl⟩ := renewLease_ok ha
    exact .of_states _ fun _ => rfl
  | block lease =>
    obtain ⟨-, a, ha⟩ := committed_eq_ok.1 h
    obtain ⟨row, -, -, rfl⟩ := block_ok ha
    refine StatesMove.modify _ fun row hrow hne => ?_
    split at hne
    · next hstate =>
      rw [if_pos hstate, hstate]
      exact .inl (runExecution.edge_of_fire .retriesExhausted rfl)
    · exact absurd rfl hne
  | handOff lease =>
    obtain ⟨-, a, ha⟩ := committed_eq_ok.1 h
    obtain ⟨row, -, -, -, rfl⟩ := handOff_ok ha
    refine park_states s _ fun e he => ?_
    rw [List.mem_singleton.1 he]
    exact .inl (runExecution.edge_of_fire .awaitingHuman_input rfl)
  | sweepExpiredRun incidentId runId =>
    cases h
    rcases sweepExpiredRun_cases s clk incidentId runId with hs | ⟨-, -, -, -, hs⟩ <;> rw [hs]
    · exact .refl _
    · refine park_states s _ fun e he => ?_
      simp only [List.mem_cons, List.not_mem_nil, or_false] at he
      rcases he with rfl | rfl
      · exact .inr ⟨rfl, rfl⟩
      · exact .inl (runExecution.edge_of_fire .awaitingHuman_input rfl)
  | parkBacklog maxQueued =>
    obtain ⟨-, a, ha⟩ := committed_eq_ok.1 h
    rcases parkBacklog_ok ha with rfl | ⟨runId, run, -, -, -, rfl⟩
    · exact .refl _
    · refine park_states s _ fun e he => ?_
      rw [List.mem_singleton.1 he]
      exact .inr ⟨rfl, rfl⟩
  | abandon lease =>
    cases h
    exact .of_states _ fun row => by split <;> rfl
  | setGlobalSuspension suspended expected actor =>
    obtain ⟨-, a, ha⟩ := committed_eq_ok.1 h
    rcases setGlobalSuspension_ok ha with ⟨-, rfl⟩ | ⟨-, -, rfl⟩
    · exact .refl _
    · cases suspended
      · exact .refl _
      · exact suspend_states s (fun _ => true) (fun _ => true) fun e he hne =>
          .inl (feeds_paused e he hne)
  | setTargetSuspension target fresh suspended expected actor =>
    obtain ⟨-, a, ha⟩ := committed_eq_ok.1 h
    obtain ⟨t, targetId, gate, ht, -, hwrite⟩ := setTargetSuspension_ok ha
    have hruns : (t.ensureGate targetId).runs = s.runs := by
      rw [ht.eq]
      unfold ensureGate
      split <;> rfl
    rw [← hruns]
    rcases hwrite with ⟨-, rfl⟩ | ⟨-, -, rfl⟩
    · exact .refl _
    · cases suspended
      · exact .refl _
      · exact suspend_states (t.ensureGate targetId) (boundTo targetId)
          ((t.ensureGate targetId).runBoundTo targetId) fun e he hne => .inl (feeds_paused e he hne)
  | control r =>
    obtain ⟨-, a, ha⟩ := committed_eq_ok.1 h
    obtain ⟨incident, -, -, -, hdecided⟩ := control_ok ha
    exact hdecided.states
  | appendInput incidentId inputId content actor =>
    obtain ⟨-, a, ha⟩ := committed_eq_ok.1 h
    rcases appendInput_ok ha with rfl | ⟨incident, -, -, rfl⟩ <;> exact .refl _
  | commitStep lease logicalKey response fresh =>
    obtain ⟨-, a, ha⟩ := committed_eq_ok.1 h
    cases commitStep_ok ha with
    | late _ hlate => rcases lateResult_ok hlate with ⟨rfl, -⟩ | ⟨-, -, -, rfl⟩ <;> exact .refl _
    | replay => exact .refl _
    | committed =>
      simp only [commitResponse]
      split
      · exact .of_states _ fun _ => rfl
      · exact .refl _
  | commitTool lease stepId ordinal result fresh =>
    obtain ⟨-, a, ha⟩ := committed_eq_ok.1 h
    cases commitTool_ok ha with
    | late hlate => rcases lateResult_ok hlate with ⟨rfl, -⟩ | ⟨-, -, -, rfl⟩ <;> exact .refl _
    | replay | committed => exact .refl _
  | beginRound lease logicalKey =>
    obtain ⟨-, a, ha⟩ := committed_eq_ok.1 h
    obtain ⟨-, -, -, -, -, ⟨rfl, -⟩ | ⟨-, -, rfl⟩⟩ := beginRound_ok ha <;> exact .refl _
  | publish lease conclusion stepId fresh =>
    obtain ⟨-, a, ha⟩ := committed_eq_ok.1 h
    cases publish_ok ha with
    | replay => exact .refl _
    | fenced _ _ hlate => rcases lateResult_ok hlate with ⟨rfl, -⟩ | ⟨-, -, -, rfl⟩ <;> exact .refl _
    | @written row step hrow hpublishable =>
      refine StatesMove.modify _ fun run hrun hne => ?_
      obtain ⟨-, ⟨runId, hcur, hget⟩, -⟩ := currentRow_eq_some.1 hrow
      simp only [FencedRow.publishable, decide_eq_true_eq] at hpublishable
      obtain rfl := Option.some.inj (hcur.symm.trans hpublishable.1)
      obtain rfl := Option.some.inj (hget.symm.trans hrun)
      rw [hpublishable.2.1]
      exact .inl (runExecution.edge_of_fire .finished rfl)
  | reserveBudget lease reservationId amount seconds =>
    obtain ⟨-, a, ha⟩ := committed_eq_ok.1 h
    rcases reserveBudget_ok ha with rfl | ⟨run, -, -, -, -, rfl⟩
    · exact .refl _
    · exact .of_states _ fun _ => rfl
  | settleBudget lease reservationId outcome seconds =>
    obtain ⟨-, a, ha⟩ := committed_eq_ok.1 h
    obtain ⟨b, -, -, ⟨rfl, -⟩ | ⟨-, rfl⟩⟩ := settleBudget_ok ha
    · exact .refl _
    · exact .of_states _ fun _ => by cases outcome <;> rfl
  | chargeTool lease operationId seconds maxOperations maxToolSeconds dispatchId =>
    obtain ⟨-, a, ha⟩ := committed_eq_ok.1 h
    obtain ⟨toolCharges, operations, total, rfl⟩ := chargeTool_ok ha
    exact .of_states _ fun _ => rfl
  | authorizeSession a =>
    obtain ⟨-, id, ha⟩ := committed_eq_ok.1 h
    obtain ⟨t, ht, hrest⟩ := bind_eq_ok.1 ha
    simp only [pure_eq_ok, Prod.mk.injEq] at hrest
    obtain ⟨-, rfl⟩ := hrest
    obtain ⟨incident, lifecycle, session, hauth⟩ := authorizeSessionIn_ok ht
    rw [hauth.written]
    exact .refl _
  | registerRemediation r =>
    obtain ⟨-, a, ha⟩ := committed_eq_ok.1 h
    obtain ⟨t, authorized, incident, row, session, audit, ht, -, -, -, -, -, -, -, hauth, rfl⟩ :=
      registerRemediation_ok ha
    rw [hauth.written, ht.eq]
    exact .refl _
  | authorizeAutomaticObservation incidentId controlGeneration grant refusal =>
    obtain ⟨-, a, ha⟩ := committed_eq_ok.1 h
    rcases authorizeAutomaticObservation_ok ha with ⟨selfHeal, rfl⟩ |
      ⟨t, authorized, a, incident, session, audit, selfHeal, ht, -, -, hauth, rfl⟩
    · exact .refl _
    · rw [hauth.written, ht.eq]
      exact .refl _
  | recordAutoObservationFailure incidentId controlGeneration reason =>
    obtain ⟨-, a, ha⟩ := committed_eq_ok.1 h
    obtain ⟨selfHeal, rfl⟩ := recordAutoObservationFailure_ok ha
    exact .refl _
  | revokeSessions incidentId =>
    obtain ⟨-, a, ha⟩ := committed_eq_ok.1 h
    obtain ⟨incident, -, rfl⟩ := revokeSessions_ok ha
    exact .refl _
  | claimDueSample sessionId owner leaseSeconds =>
    obtain ⟨a, -, ha⟩ := sampleClaimed_eq_ok.1 h
    cases claimDueSample_ok ha <;> exact .refl _
  | submitSample lease sample readings sampleId jobId =>
    obtain ⟨-, a, ha⟩ := committed_eq_ok.1 h
    obtain ⟨incident, row, c, verdict, after, hsub⟩ := submitSample_ok ha
    rw [hsub.written]
    exact .refl _
  | sweepExpiredSession sessionId =>
    obtain ⟨-, a, ha⟩ := committed_eq_ok.1 h
    rcases sweepExpiredSession_ok ha with rfl | ⟨row, incident, after, -, -, -, -, -, rfl⟩ <;>
      exact .refl _

end

namespace State

variable [Texts] {σ σ' : State} {call : Call}

end State

namespace Scenario

end Scenario

end OpsPilot
