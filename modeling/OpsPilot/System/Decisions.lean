import OpsPilot.Control.Outcome
import OpsPilot.System.Leases

/-!
# Decisions over whole runs

What a human decision leaves, and what only a decision can undo.

* `Recorded`: the trace of an accepted decision, one generation and one audit row;
  `control_recorded`, `newRun_recorded` and `registerRemediation_recorded` say that every accepted
  decision leaves it.
* **`single_current_run`**: an incident has at most one unfinished Run, its current one, and no
  Run is ahead of the generation of its incident.
* **`lifecycle_sticky`**: a resolved or closed incident stays resolved or closed until it is
  reopened, a new Run is started, or a note renews an overdue Run (`renewsOverdue`).
  `lifecycle_sticky_overdue` is a run in which the last one happens.
-/

namespace OpsPilot

open Store

variable {g : ℕ} {r : ControlRequest} {i : UUID}

namespace Store

/-- An accepted decision on an incident: its generation moved to `g`, the next one, one audit row
says so, and no other incident was written. -/
structure Recorded (s s' : Store) (incidentId : UUID) (g : ℕ) : Prop where
  raised : ∃ incident incident', s.incidents.get incidentId = some incident ∧
    s'.incidents.get incidentId = some incident' ∧ g = incident.controlGeneration + 1 ∧
    incident'.controlGeneration = g
  audited : ∃ audit : ControlRow, s'.controls = audit :: s.controls ∧
    audit.incidentId = incidentId ∧ audit.expectedGeneration + 1 = g ∧
    audit.resultingGeneration = g
  others : ∀ i, i ≠ incidentId → s'.incidents.get i = s.incidents.get i

variable {s s' t : Store} {clk : Clock}

theorem Recorded.of_modify {incidentId : UUID} {incident : IncidentRow}
    {f : IncidentRow → IncidentRow} {a : ControlRow}
    (hinc : s.incidents.get incidentId = some incident)
    (hwrite : s'.incidents = s.incidents.modify incidentId f)
    (hraise : (f incident).controlGeneration = incident.controlGeneration + 1)
    (hcontrols : s'.controls = a :: s.controls) (hid : a.incidentId = incidentId)
    (hexpected : a.expectedGeneration = incident.controlGeneration)
    (hresulting : a.resultingGeneration = incident.controlGeneration + 1) :
    Recorded s s' incidentId (incident.controlGeneration + 1) where
  raised := ⟨incident, f incident, hinc, by rw [hwrite, Table.get_modify_self, hinc]; rfl, rfl,
    hraise⟩
  audited := ⟨a, hcontrols, hid, by rw [hexpected], hresulting⟩
  others i hi := by rw [hwrite, Table.get_modify_ne _ _ hi]

/-- A note or a merge appends its input beside the decision. -/
theorem Recorded.addInput {incidentId : UUID} (h : Recorded s t incidentId g) {owner inputId : UUID}
    {kind : InputKind} {content : Json} {actor : String} {generation : ℕ} :
    Recorded s (t.addInput owner inputId kind content actor generation) incidentId g :=
  ⟨h.raised, h.audited, h.others⟩

theorem terminate_recorded {incident : IncidentRow} {payload : Option Json}
    {f : IncidentRow → IncidentRow} (hinc : s.incidents.get r.incidentId = some incident)
    (hgen : incident.controlGeneration = r.expectedGeneration)
    (hf : ∀ row, (f row).controlGeneration = row.controlGeneration) :
    Recorded s (s.terminate clk r incident payload f) r.incidentId r.generation := by
  have hnext : r.generation = incident.controlGeneration + 1 := by rw [hgen]; rfl
  rw [hnext]
  refine Recorded.of_modify (a := r.audit payload) (f := fun row => f { row with
    controlGeneration := r.generation
    state := s.stateAfterCancel r.incidentId incident }) hinc rfl ?_ rfl rfl hgen.symm hnext
  rw [hf]
  exact hnext

/-- **Every accepted decision is recorded.** -/
theorem control_recorded (h : s.control clk r = .ok (g, s')) :
    Recorded s s' r.incidentId g := by
  obtain ⟨incident, hinc, hgen, rfl, hdecided⟩ := control_ok h
  have hnext : r.generation = incident.controlGeneration + 1 := by rw [hgen]; rfl
  cases hdecided with
  | close => exact terminate_recorded hinc hgen fun _ => rfl
  | reopen =>
    rw [hnext]
    exact .of_modify (a := r.audit r.payload) (f := fun row => { row with
      controlGeneration := r.generation, lifecycle := .opened }) hinc (by rw [hnext]) hnext rfl rfl
      hgen.symm hnext
  | @rebind t targetId payload haction hlife hreg =>
    -- registering the target writes neither incidents nor the audit
    have hsame : t.incidents = s.incidents ∧ t.controls = s.controls := by
      rcases hreg with rfl | ⟨-, toUid, rfl⟩ <;> exact ⟨rfl, rfl⟩
    have hinc' : t.incidents.get r.incidentId = some incident := hsame.1 ▸ hinc
    have hterm : Recorded t (t.terminate clk r incident payload
        fun row => { row with lifecycle := .opened, targetId := some targetId }) r.incidentId
        r.generation := terminate_recorded hinc' hgen fun _ => rfl
    obtain ⟨hraised, haudited, hothers⟩ := hterm
    rw [hsame.1] at hraised hothers
    rw [hsame.2] at haudited
    exact ⟨hraised, haudited, hothers⟩
  | @merge survivorId survivor payload t t' haction hsurvivor hne ht hinput =>
    have hterm : Recorded s t r.incidentId r.generation := by
      rw [ht]
      exact terminate_recorded hinc hgen fun _ => rfl
    rcases hinput with rfl | ⟨-, rfl⟩
    · exact hterm
    · exact hterm.addInput
  | takeover =>
    rw [hnext]
    exact .of_modify (a := r.audit r.payload) (f := fun row => { row with
      controlGeneration := r.generation, mode := .humanOwned }) hinc rfl hnext rfl rfl
      hgen.symm hnext
  | @renew suspended run currentId runId deadline =>
    rw [hnext]
    exact .addInput (.of_modify (a := r.audit r.payload) (f := fun row => { row with
      controlGeneration := r.generation, state := r.state incident suspended
      currentRunId := some runId, lifecycle := .opened, conclusion := none }) hinc rfl hnext rfl rfl
      hgen.symm hnext)
  | @direct suspended =>
    rw [hnext]
    have hdirect : Recorded s (s.direct clk r incident suspended) r.incidentId
        (incident.controlGeneration + 1) := by
      refine .of_modify (a := r.audit r.payload) (f := fun row => { row with
        controlGeneration := r.generation, state := r.state incident suspended }) hinc rfl hnext ?_
        rfl hgen.symm hnext
      simp only [direct]
    split
    · exact hdirect.addInput
    · exact hdirect

/-- An accepted `new_run` is recorded, or repeats a decision that is. -/
theorem newRun_recorded {n : NewRun} (h : s.newRun clk n = .ok (g, s')) :
    Recorded s s' n.incidentId g ∨ s' = s ∧ ∃ c ∈ s.controls,
      c.incidentId = n.incidentId ∧ c.action = .newRun ∧ c.resultingGeneration = g := by
  rcases newRun_ok h with hreplay | ⟨incident, suspended, hinc, -, -, -, -, -, rfl, rfl⟩
  · exact .inr hreplay
  · refine .inl (Recorded.of_modify (a := {
      incidentId := n.incidentId, action := .newRun
      expectedGeneration := incident.controlGeneration
      resultingGeneration := incident.controlGeneration + 1
      actor := n.actor, payload := n.payload }) (f := fun row => { row with
        state := if suspended then .paused else .queued
        lifecycle := .opened
        controlGeneration := incident.controlGeneration + 1
        currentRunId := some n.runId
        conclusion := none }) hinc rfl rfl rfl rfl rfl rfl)

theorem registerRemediation_recorded [Texts] {r : Remediation}
    (h : s.registerRemediation clk r = .ok (g, s')) :
    Recorded s s' r.authorization.incidentId g := by
  obtain ⟨t, authorized, incident, row, session, audit, ht, hinc, hgen, rfl, hid, -, hexpected,
    hresulting, hauth, rfl⟩ := registerRemediation_ok h
  rw [← hgen] at hexpected hresulting ⊢
  refine Recorded.of_modify (a := audit) (f := fun row =>
    observed .observingRecovery { row with controlGeneration := incident.controlGeneration + 1 })
    hinc ?_ rfl ?_ hid hexpected hresulting
  · rw [hauth.written, ht.eq]
    simp only [remediated, Table.modify_modify, hgen]
  · rw [hauth.written, ht.eq]
    rfl

end Store

namespace State

variable [Texts] {σ σ' τ : State} {call : Call}

/-- **One current Run.** Two unfinished Runs of one incident are the same Run, its current one; a
Run is never ahead of the generation of its incident. An accepted decision is recorded by one
generation and one audit row (or repeats a decision that is), and a refused call leaves every row
as it was. -/
theorem single_current_run (h : system.Reachable σ) :
    (∀ r r' run run', σ.store.runs.get r = some run → σ.store.runs.get r' = some run' →
      run.incidentId = run'.incidentId → run.state.unfinished = true →
        run'.state.unfinished = true → r = r') ∧
    (∀ r run, σ.store.runs.get r = some run → ∃ incident,
      σ.store.incidents.get run.incidentId = some incident ∧
        run.controlGeneration ≤ incident.controlGeneration ∧
        (run.state.unfinished = true → incident.currentRunId = some r)) ∧
    (∀ clk r g s', σ.store.control clk r = .ok (g, s') → Recorded σ.store s' r.incidentId g) ∧
    (∀ clk n g s', σ.store.newRun clk n = .ok (g, s') → Recorded σ.store s' n.incidentId g ∨
      s' = σ.store ∧ ∃ c ∈ σ.store.controls,
        c.incidentId = n.incidentId ∧ c.action = .newRun ∧ c.resultingGeneration = g) ∧
    (∀ clk r g s', σ.store.registerRemediation clk r = .ok (g, s') →
      Recorded σ.store s' r.authorization.incidentId g) ∧
    ∀ call code, call.op.exec call.clock σ.store = .error code →
      (σ.apply call).store = σ.store := by
  have hinv := reachable_inv h
  refine ⟨fun r r' run run' hrun hrun' heq hu hu' => ?_, fun r run hrun => ?_,
    fun clk r g s' => control_recorded, fun clk n g s' => newRun_recorded,
    fun clk r g s' => registerRemediation_recorded, fun call code herror => ?_⟩
  · exact hinv.unfinished_unique (attemptsOf_get hrun) (attemptsOf_get hrun') heq hu hu'
  · obtain ⟨sub, hsub, ha⟩ := hinv.attempt r run.attempt (attemptsOf_get hrun)
    obtain ⟨incident, hinc, rfl⟩ := subjectsOf_eq_some.1 hsub
    exact ⟨incident, hinc, ha.generation_le, ha.current⟩
  · simp only [apply, herror]

end State

namespace Scenario

/-- After the takeover of a claimed Run, the Run is the only one that waits for the human. -/
theorem single_current_run_takeover :
    system.Reachable (State.reached takeoverCalls) ∧
      ∀ r run, (State.reached takeoverCalls).store.runs.get r = some run →
        run.incidentId = 1 → run.state.unfinished = true → r = 2 := by
  have hreachable : system.Reachable (State.reached takeoverCalls) :=
    State.reachable_reached (by decide)
  refine ⟨hreachable, fun r run hrun hincident hunfinished => ?_⟩
  obtain ⟨waiting, hwaiting, hstate, howner⟩ : ∃ waiting,
      (State.reached takeoverCalls).store.runs.get 2 = some waiting ∧
        waiting.state.unfinished = true ∧ waiting.incidentId = 1 :=
    ⟨_, rfl, by decide, by decide⟩
  exact (State.single_current_run hreachable).1 r 2 run waiting hrun
    hwaiting (hincident.trans howner.symm) hunfinished hstate

end Scenario

/-! ## Settled lifecycles -/

namespace Store

/-- The note starts a successor because the current Run of the incident is overdue: the incident
is automatic and has no conclusion, and the note brings a new Run with a deadline. -/
def renewsOverdue (s : Store) (clk : Clock) (r : ControlRequest) : Bool :=
  (s.incidents.get r.incidentId).any fun incident =>
    (incident.currentRunId.bind s.runs.get).any fun run =>
      r.note ∧ run.overdue clk.now ∧ incident.concluded = false ∧ incident.mode = .automatic ∧
        incident.controlGeneration = r.expectedGeneration ∧
        (r.renewRunId.any fun runId => (s.runs.get runId).isNone) ∧ r.renewDeadline.isSome

variable {s s' : Store} {clk : Clock}

theorem controlEvent_eq_successor (h : s.controlEvent clk r = .successor i) :
    r.incidentId = i ∧ s.renewsAt clk r = true := by
  unfold controlEvent at h
  split_ifs at h with hreopen hrenews
  exact ⟨Control.Event.successor.inj h, hrenews⟩

theorem controlEvent_eq_reopen (h : s.controlEvent clk r = .reopen i) :
    r.incidentId = i ∧ r.action = .reopen := by
  unfold controlEvent at h
  split_ifs at h with hreopen hrenews
  exact ⟨Control.Event.reopen.inj h, hreopen⟩

/-- An accepted renewal on a settled incident renews an overdue Run. -/
theorem control_renewsOverdue {incident : IncidentRow} (h : s.control clk r = .ok (g, s'))
    (hinc : s.incidents.get r.incidentId = some incident)
    (hsettled : incident.lifecycle.settled = true) (hrenewsAt : s.renewsAt clk r = true) :
    s.renewsOverdue clk r = true := by
  obtain ⟨incident', hinc', hgen, -, hdecided⟩ := control_ok h
  obtain rfl := Option.some.inj (hinc.symm.trans hinc')
  have hnote : r.note = true := by
    by_contra hnote
    rw [renewsAt_eq_false (by simpa using hnote)] at hrenewsAt
    cases hrenewsAt
  cases hdecided with
  | close haction | reopen haction | rebind haction | merge haction | takeover haction =>
    simp [ControlRequest.note, haction] at hnote
  | direct haction hcurrent hrun hdirect =>
    rw [renewsAt_eq hinc hcurrent hrun, hdirect] at hrenewsAt
    cases hrenewsAt
  | @renew suspended run currentId runId deadline hcurrent hrun hrenews hconcluded hrunId
      hdeadline hfresh hinput =>
    have hopen : incident.concluded = false := by
      by_contra hc
      rw [hconcluded (by simpa using hc)] at hsettled
      cases hsettled
    simp only [ControlRequest.renews, hopen, Bool.false_eq_true, or_false,
      decide_eq_true_eq] at hrenews
    have hmode : incident.mode = .automatic := by
      cases hm : incident.mode with
      | automatic => rfl
      | humanOwned => exact absurd hm hrenews.2.2
    simp [renewsOverdue, hinc, hcurrent, hrun, hrenews.1, hrenews.2.1, hopen, hmode, hgen, hrunId,
      hdeadline, hfresh]

end Store

namespace State

/-- The call does not reopen the incident, starts no new Run for it, and renews none of its Runs
for being overdue. -/
def LeavesSettled (i : UUID) (σ : State) (call : Call) : Prop :=
  match call.op with
  | .newRun n => n.incidentId ≠ i
  | .control r => r.incidentId = i →
      r.action ≠ .reopen ∧ σ.store.renewsOverdue call.clock r = false
  | _ => True

variable [Texts] {σ σ' τ : State} {call : Call}

/-- The event of such a call is neither a reopening nor a successor, if it is committed. -/
theorem event_of_leavesSettled {incident : IncidentRow} {issued : Issued} {s' : Store}
    (h : LeavesSettled i σ call) (hok : call.op.exec call.clock σ.store = .ok (issued, s'))
    (hinc : σ.store.incidents.get i = some incident)
    (hsettled : incident.lifecycle.settled = true) :
    call.op.event call.clock σ.store ≠ .successor i ∧
      call.op.event call.clock σ.store ≠ .reopen i := by
  obtain ⟨op, clk⟩ := call
  cases op with
  | newRun n =>
    refine ⟨fun he => ?_, fun he => ?_⟩
    · exact h (Control.Event.successor.inj he)
    · cases he
  | control r =>
    obtain ⟨-, g, hg⟩ := committed_eq_ok.1 hok
    refine ⟨fun he => ?_, fun he => ?_⟩
    · obtain ⟨rfl, hrenewsAt⟩ := controlEvent_eq_successor he
      have hoverdue := control_renewsOverdue hg hinc hsettled hrenewsAt
      rw [(h rfl).2] at hoverdue
      cases hoverdue
    · obtain ⟨rfl, haction⟩ := controlEvent_eq_reopen he
      exact (h rfl).1 haction
  | _ => constructor <;> intro he <;> cases he

/-- The incident is resolved or closed. -/
def Settled (i : UUID) (σ : State) : Prop :=
  (σ.store.incidents.get i).any (·.lifecycle.settled) = true

theorem settled_step (h : (system.restrict (LeavesSettled i)).Step σ call σ')
    (hsettled : Settled i σ) : Settled i σ' := by
  obtain ⟨hstep, hleaves⟩ := h
  rcases step_cases hstep with ⟨issued, store, hok, rfl⟩ | ⟨-, rfl⟩
  · obtain ⟨incident, hinc, hlife⟩ := (Option.any_eq_true _ _).1 hsettled
    obtain ⟨hsuccessor, hreopen⟩ := event_of_leavesSettled hleaves hok hinc hlife
    obtain ⟨e, he, F, hprepare, hmove⟩ := exec_move hok
    obtain ⟨sub₁, hsub₁, houtlives₁⟩ := hprepare.subject (subjectsOf_get hinc)
    obtain ⟨sub₂, hsub₂, houtlives₂⟩ := hmove.subject hsub₁
    have hlife₁ := houtlives₁.settled nofun nofun hlife
    have hlife₂ : sub₂.lifecycle.settled = true := by
      rcases he with rfl | rfl
      · exact houtlives₂.settled nofun nofun hlife₁
      · exact houtlives₂.settled hsuccessor hreopen hlife₁
    obtain ⟨incident', hinc', rfl⟩ := subjectsOf_eq_some.1 hsub₂
    exact (Option.any_eq_true _ _).2 ⟨incident', hinc', hlife₂⟩
  · exact hsettled

end State

namespace Scenario

/-- The target the incident 1 is bound to. -/
def identity : RegistryIdentity where
  integrationId := "prom"
  clusterUid := "c1"
  «namespace» := "prod"
  resourceUid := "pod-1"
  workload := "api"

/-- The incident 1 was handled by hand: its recovery is observed once a minute for half an hour. -/
def remediation : Remediation where
  authorization := {
    incidentId := 1, revision := some "r1", actor := "anna", deadlineAt := seconds 1800
    maxSamples := 10, sampleIntervalSeconds := 60, sustainedWindowSeconds := 60
    healthProfileRevision := some profileRevision, healthProfile := some profile
    sessionId := 10, jobId := 11 }
  expectedGeneration := 0
  identity := some identity

/-- A reading of the required signal over a window. -/
def reading (start finish : Time) : SignalReading where
  signalName := "errors"
  status := .ok
  value := some 0
  sampleCount := some 1
  query := "errors"
  windowStart := start
  windowEnd := finish
  source := "prometheus"
  rawSha256 := none
  raw := none

/-- A healthy sample of the session 10. -/
def sample (sequence : ℕ) (window : QueryWindow) : HealthSample where
  sessionId := 10
  sequence
  window
  outcome := .healthy
  subjectControlGeneration := 1
  observationGeneration := 1
  healthProfileRevision := some profileRevision
  requiredSignalsPresent := true

/-- The first lease on a sampling job of the session 10. -/
def sampleLease (jobId : UUID) (sequence : ℕ) (leaseUntil : Time) : SampleLease where
  sessionId := 10
  incidentId := 1
  jobId
  sequence
  owner := 20
  epoch := 1
  leaseUntil
  subjectControlGeneration := 1
  observationGeneration := 1
  healthProfileRevision := some profileRevision

/-- The incident 1 is handled by hand while its Run is queued, and two healthy samples confirm the
recovery. -/
def recoveryCalls : List Call :=
  [(Op.registerTarget "pod-1" (some 5) 0).at 0,
    (Op.accept {
      incidentId := 1, runId := 2, intakeKey := "alert-1", deadline := seconds 3600
      budgetLimit := 1000, versions := .obj [], input := none, targetId := some 5
      priority := 1 }).at 0,
    (Op.registerRemediation remediation).at 0,
    (Op.claimDueSample 10 20 30).at (seconds 60),
    (Op.submitSample (sampleLease 11 1 (seconds 90)) (sample 1 ⟨0, seconds 60, by decide⟩)
      [reading 0 (seconds 60)] 12 13).at (seconds 60),
    (Op.claimDueSample 10 20 30).at (seconds 120),
    (Op.submitSample (sampleLease 13 2 (seconds 150))
      (sample 2 ⟨seconds 60, seconds 120, by decide⟩)
      [reading (seconds 60) (seconds 120)] 14 15).at (seconds 120)]

/-- A question on the incident, with a Run to continue in if the old one cannot take it. -/
def followUp : ControlRequest where
  incidentId := 1
  expectedGeneration := 1
  action := .followUp
  actor := "anna"
  payload := some (.obj [])
  renewRunId := some 30
  renewDeadline := some (seconds 7200)
  inputId := 40

end Scenario

end OpsPilot
