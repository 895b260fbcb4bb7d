import OpsPilot.System.Targets

/-!
# The replay of an intake

An accepted intake leaves its mark on the store for good: the incident with its key, its relation
and its target's registration and gate (`Store.Admitted`). Whether a replay is recognized depends
on two more columns, which later operations write: the current Run and the target the incident is
bound to.

* `exec_targets`: no operation takes a target away.
* `Store.accept_again`: what a replay of an admitted intake answers.
* **`State.intake_replay`**: in every state after an accepted intake, the replay returns the
  incident and changes nothing exactly when the incident is still on its first Run and target.
-/

namespace OpsPilot

namespace Store

variable {s s' : Store} {clk : Clock} {target : UUID}

theorem addTarget_targets {targetId : UUID} {resourceUid : String}
    (htarget : (s.targets.get target).isSome) :
    ((s.addTarget targetId resourceUid).targets.get target).isSome := by
  simp only [addTarget, Table.get_insert]
  split
  · rfl
  · exact htarget

theorem Decided.targets {r : ControlRequest} {incident : IncidentRow}
    (h : Decided s clk r incident s') (htarget : (s.targets.get target).isSome) :
    (s'.targets.get target).isSome := by
  cases h with
  | close | reopen | takeover | renew => exact htarget
  | @rebind t targetId payload haction hlife hreg =>
    have ht : (t.targets.get target).isSome := by
      rcases hreg with rfl | ⟨-, toUid, rfl⟩
      · exact htarget
      · exact addTarget_targets htarget
    exact ht
  | @merge _ _ _ t _ haction hsurvivor hne ht hinput =>
    have ht' : (t.targets.get target).isSome := by
      rw [ht]
      exact htarget
    rcases hinput with rfl | ⟨-, rfl⟩ <;> exact ht'
  | @direct suspended =>
    have hdirect : ((s.direct clk r incident suspended).targets.get target).isSome := by
      dsimp only [Store.direct]
      split <;> exact htarget
    split <;> exact hdirect

end Store

open Store

section

variable [Texts] {op : Op} {clk : Clock} {s s' : Store} {issued : Issued}

/-- **No operation takes a registered target away.** -/
theorem exec_targets (h : op.exec clk s = .ok (issued, s')) {target : UUID}
    (htarget : (s.targets.get target).isSome) : (s'.targets.get target).isSome := by
  by_cases hop : op.registers = true
  · cases op with
    | registerTarget resourceUid targetId fresh =>
      obtain ⟨-, a, ha⟩ := committed_eq_ok.1 h
      rcases registerTarget_ok ha with rfl | ⟨-, rfl⟩
      · exact htarget
      · exact addTarget_targets htarget
    | setTargetSuspension target fresh suspended expected actor =>
      obtain ⟨-, a, ha⟩ := committed_eq_ok.1 h
      obtain ⟨t, targetId, gate, ht, -, hwrite⟩ := setTargetSuspension_ok ha
      have hgate : (t.ensureGate targetId).targets = t.targets := by
        unfold ensureGate
        split <;> rfl
      have hkept := ht.kept _ htarget
      rw [← hgate] at hkept
      rcases hwrite with ⟨-, rfl⟩ | ⟨-, -, rfl⟩
      · exact hkept
      · cases suspended <;> exact hkept
    | control r =>
      obtain ⟨-, a, ha⟩ := committed_eq_ok.1 h
      obtain ⟨incident, -, -, -, hdecided⟩ := control_ok ha
      exact hdecided.targets htarget
    | registerRemediation r =>
      obtain ⟨-, a, ha⟩ := committed_eq_ok.1 h
      obtain ⟨t, authorized, incident, row, session, audit, ht, -, -, -, -, -, -, -, hauth, rfl⟩ :=
        registerRemediation_ok ha
      rw [hauth.written]
      exact ht.kept _ htarget
    | authorizeAutomaticObservation incidentId controlGeneration grant refusal =>
      obtain ⟨-, a, ha⟩ := committed_eq_ok.1 h
      rcases authorizeAutomaticObservation_ok ha with ⟨selfHeal, rfl⟩ |
        ⟨t, authorized, a, incident, session, audit, selfHeal, ht, -, -, hauth, rfl⟩
      · exact htarget
      · rw [hauth.written]
        exact ht.kept _ htarget
    | accept | openHandoff | escalatePriority | newRun | claim | renewLease | block | handOff
    | sweepExpiredRun | parkBacklog | abandon | setGlobalSuspension | appendInput | commitStep
    | commitTool | beginRound | publish | reserveBudget | settleBudget | chargeTool
    | authorizeSession | recordAutoObservationFailure | revokeSessions | claimDueSample
    | submitSample | sweepExpiredSession => cases hop
  · rw [exec_targets_eq h (by simpa using hop)]
    exact htarget

end

namespace Store

/-- What an accepted intake leaves for good. -/
structure Admitted (s : Store) (i : Intake) : Prop where
  priority : i.priority ≤ 2
  target : ∀ t ∈ i.targetId, (s.targets.get t).isSome
  gate : s.view.HasGate i.targetId
  incident : ∃ row, s.incidents.get i.incidentId = some row ∧ row.intakeKey = i.intakeKey ∧
    row.relatedIncidentId = i.relatedIncidentId

/-- The incident is still on the Run and the target it was opened with. -/
def Unmoved (s : Store) (i : Intake) : Prop :=
  ∃ row, s.incidents.get i.incidentId = some row ∧ row.currentRunId = some i.runId ∧
    row.targetId = i.targetId

variable {s s' : Store} {i : Intake}

/-- An accepted intake is admitted. -/
theorem accept_admitted {b : Bool} (h : s.accept i = .ok (b, s')) : s'.Admitted i := by
  have hcases := accept_cases h
  simp only [accept, refuse_bind_eq_ok] at h
  obtain ⟨hpriority, htarget, h⟩ := h
  obtain ⟨target, hgate, -⟩ := bind_eq_ok.1 h
  have htargets : ∀ t ∈ i.targetId, (s.targets.get t).isSome := by
    intro t ht
    rw [Option.mem_def] at ht
    rw [ht, Option.any_some, Option.isNone_iff_eq_none] at htarget
    exact Option.isSome_iff_ne_none.2 htarget
  rcases hcases with ⟨-, rfl, row, hrow, hkey, -, -, hrelated⟩ |
    ⟨-, -, suspended, hinc, hrun, hgates, rfl⟩
  · exact ⟨not_lt.1 hpriority, htargets, requireGate_hasGate hgate, row, hrow, hkey, hrelated⟩
  · exact ⟨not_lt.1 hpriority, htargets, hgates, _, Table.get_insert_self .., rfl, rfl⟩

/-- The incident an intake key finds. -/
theorem Admitted.find (h : s.Admitted i) (hdistinct : KeysDistinct s.incidents) {row : IncidentRow}
    (hrow : s.incidents.get i.incidentId = some row) :
    (s.incidents.select fun _ row => row.intakeKey = i.intakeKey).head? =
      some (i.incidentId, row) := by
  obtain ⟨row', hrow', hkey, -⟩ := h.incident
  obtain rfl := Option.some.inj (hrow.symm.trans hrow')
  have hmem : (i.incidentId, row) ∈ s.incidents.select fun _ row => row.intakeKey = i.intakeKey :=
    Table.mem_select_iff.2 ⟨hrow, by simpa using hkey⟩
  cases hhead : (s.incidents.select fun _ row => row.intakeKey = i.intakeKey).head? with
  | none =>
    rw [List.head?_eq_none_iff] at hhead
    rw [hhead] at hmem
    cases hmem
  | some e =>
    obtain ⟨id, found⟩ := e
    obtain ⟨hfound, hk⟩ := Table.mem_select_iff.1 (List.mem_of_mem_head? hhead)
    have hk' : found.intakeKey = i.intakeKey := by simpa using hk
    obtain rfl := hdistinct hfound hrow (hk'.trans hkey.symm)
    rw [Option.some.inj (hfound.symm.trans hrow)]

theorem requireGate_of_hasGate {target : Option UUID} (h : s.view.HasGate target) :
    ∃ gate, s.requireGate target = .ok gate := by
  cases target with
  | none => exact ⟨_, rfl⟩
  | some t =>
    obtain ⟨gate, hgate⟩ := Option.isSome_iff_exists.1 (h t rfl)
    exact ⟨gate, by rw [requireGate, show s.targetSuspensions.get t = some gate from hgate]; rfl⟩

/-- **What a replay of an admitted intake answers**, whatever deadline, budget, versions and input
it carries now. -/
theorem accept_again (h : s.Admitted i) (hdistinct : KeysDistinct s.incidents) (deadline : Time)
    (budgetLimit : ℕ) (versions : Json) (input : Option Json) :
    (s.Unmoved i → s.accept { i with deadline, budgetLimit, versions, input } = .ok (false, s)) ∧
      (¬ s.Unmoved i →
        s.accept { i with deadline, budgetLimit, versions, input } = .error .identityConflict) := by
  obtain ⟨row, hrow, hkey, hrelated⟩ := h.incident
  obtain ⟨gate, hgate⟩ := requireGate_of_hasGate h.gate
  have hpriority : ¬ 2 < i.priority := not_lt.2 h.priority
  have htarget : ¬ (i.targetId.any fun t => (s.targets.get t).isNone) = true := by
    rw [Option.any_eq_true]
    rintro ⟨t, ht, hnone⟩
    have hsome := h.target t ht
    rw [Option.isNone_iff_eq_none] at hnone
    rw [hnone] at hsome
    cases hsome
  have haccept : s.accept { i with deadline, budgetLimit, versions, input } =
      (do refuse (row.currentRunId ≠ some i.runId ∨ row.targetId ≠ i.targetId) Code.identityConflict
          pure (false, s)) := by
    unfold accept
    rw [refuse_bind_of_not hpriority, refuse_bind_of_not htarget]
    simp only [hgate, ok_bind, h.find hdistinct hrow, hrelated, ne_eq, not_true_eq_false, or_false,
      false_or]
  have hunmoved : s.Unmoved i ↔
      ¬ (row.currentRunId ≠ some i.runId ∨ row.targetId ≠ i.targetId) := by
    simp [Unmoved, hrow]
  rw [haccept, hunmoved]
  constructor
  · intro hno
    rw [refuse, if_neg hno]
    rfl
  · intro hyes
    rw [not_not] at hyes
    rw [refuse, if_pos hyes]
    rfl

end Store

namespace State

variable [Texts] {σ σ' : State} {call : Call} {i : Intake}

/-- No two incidents share an intake key. -/
theorem reachable_keysDistinct (h : system.Reachable σ) : KeysDistinct σ.store.incidents :=
  store_invariant (P := fun s => KeysDistinct s.incidents) (fun _ _ _ _ hi => by cases hi)
    (fun _ _ _ _ _ hdistinct hok => (exec_rewrites hok).distinct hdistinct) h

/-- **An admitted intake stays admitted.** -/
theorem step_admitted (h : system.Step σ call σ') (hadmitted : σ.store.Admitted i) :
    σ'.store.Admitted i := by
  refine step_store (P := fun s => s.Admitted i) h hadmitted fun issued store hok => ?_
  obtain ⟨row, hrow, hkey, hrelated⟩ := hadmitted.incident
  obtain ⟨row', hrow', hrewrites⟩ := (exec_rewrites hok).frame.kept hrow
  obtain ⟨e, -, F, hprepare, hmove⟩ := exec_move hok
  exact ⟨hadmitted.priority, fun t ht => exec_targets hok (hadmitted.target t ht),
    hmove.hasGate (hprepare.hasGate hadmitted.gate), row', hrow',
    hrewrites.intakeKey.trans hkey, hrewrites.related.trans hrelated⟩

/-- **The replay of an intake.** After an accepted intake and whatever calls come then, the request
made again (with any deadline, budget, versions and input) returns the incident and changes nothing
if and only if the incident is still on its first Run and target; else it is refused. -/
theorem intake_replay (hreachable : system.Reachable σ) {clk : Clock} (hclock : σ.now ≤ clk.now)
    {b : Bool} {s' : Store} (haccepted : σ.store.accept i = .ok (b, s')) {calls : List Call}
    {τ : State} (hrun : system.Run (σ.apply ⟨.accept i, clk⟩) calls τ) (deadline : Time)
    (budgetLimit : ℕ) (versions : Json) (input : Option Json) :
    τ.store.accept { i with deadline, budgetLimit, versions, input } = .ok (false, τ.store) ↔
      τ.store.Unmoved i := by
  have hstep : system.Step σ ⟨.accept i, clk⟩ (σ.apply ⟨.accept i, clk⟩) := ⟨hclock, trivial, rfl⟩
  have hexec : (Op.accept i).exec clk σ.store = .ok ({}, s') :=
    committed_eq_ok.2 ⟨rfl, b, haccepted⟩
  have hadmitted : (σ.apply ⟨.accept i, clk⟩).store.Admitted i := by
    simp only [apply, hexec]
    exact accept_admitted haccepted
  have hadmitted' : τ.store.Admitted i :=
    hrun.stable (P := fun σ => σ.store.Admitted i) (fun hstep => step_admitted hstep) hadmitted
  have hdistinct := reachable_keysDistinct ((hreachable.step hstep).run hrun)
  obtain ⟨hsame, hmoved⟩ := accept_again hadmitted' hdistinct deadline budgetLimit versions input
  refine ⟨fun hok => ?_, hsame⟩
  by_contra hnot
  rw [hmoved hnot] at hok
  cases hok

end State

namespace Scenario

/-- The intake of the incident 1. -/
def firstIntake : Intake where
  incidentId := 1
  runId := 2
  intakeKey := "alert-1"
  deadline := seconds 3600
  budgetLimit := 1000
  versions := .obj []
  input := none
  targetId := none
  priority := 1

/-- The incident is opened and paused. -/
def pausedCalls : List Call :=
  [(Op.accept firstIntake).at 0,
    (Op.control {
      incidentId := 1, expectedGeneration := 0, action := .pause, actor := "anna" }).at (seconds 1)]

/-- A pause leaves the Run current, so the intake is recognized. -/
theorem intake_replay_paused :
    (State.reached pausedCalls).store.accept firstIntake =
      .ok (false, (State.reached pausedCalls).store) := by
  have hunmoved : (State.reached pausedCalls).store.Unmoved firstIntake :=
    ⟨_, rfl, rfl, rfl⟩
  have hrun : system.Run (State.apply { now := 0 } ((Op.accept firstIntake).at 0))
      (pausedCalls.drop 1) (State.reached pausedCalls) := State.run_applyAll (by decide)
  have hinit : system.Reachable { now := 0 } := LTS.Reachable.init ⟨rfl, rfl, rfl⟩
  exact (State.intake_replay hinit le_rfl (i := firstIntake) rfl hrun _ _ _ _).2 hunmoved

/-- The incident is cancelled and continued with the Run 3. -/
def continuedCalls : List Call :=
  [(Op.accept firstIntake).at 0,
    (Op.control {
      incidentId := 1, expectedGeneration := 0, action := .cancel, actor := "anna" }).at (seconds 1),
    (Op.newRun {
      incidentId := 1, runId := 3, expectedGeneration := 1, deadline := seconds 3600
      budgetLimit := 1000, versions := .obj [], actor := "anna", input := none
      payload := none }).at (seconds 2)]

/-- The intake of an incident that was continued is refused as another one's. -/
theorem intake_replay_continued :
    State.Feasible { now := 0 } continuedCalls ∧
      (State.reached (continuedCalls.take 1)).store.incidents.get 1 =
        some (firstIntake.incident false) ∧
      (State.reached continuedCalls).store.accept firstIntake = .error .identityConflict := by
  refine ⟨by decide, by decide, ?_⟩
  rfl

end Scenario

end OpsPilot
