import OpsPilot.Control.Settlement
import OpsPilot.System.Simulation

/-!
# Settled incidents

A closed incident has no unfinished Run, and an incident whose current Run is finished is concluded.
Every operation keeps the second because the decisions that cancel a current Run cancel the incident
with it, and the others are refused once the incident is concluded, unless they leave the control
mirror alone or start a successor.

* `OrdinaryChecks`, `control_ordinary`: what an accepted cancel, pause, resume or note has passed.
* **`reachable_settled`**: every reachable state is settled.
-/

namespace OpsPilot

namespace Store

variable {s s' : Store} {clk : Clock}

/-! ## What an ordinary decision has passed -/

/-- The decision is exempt from the checks of a concluded incident: a note under human ownership, or
a note that starts a successor. -/
def Exempt (clk : Clock) (r : ControlRequest) (incident : IncidentRow) (run : RunRow) : Prop :=
  (incident.mode = .humanOwned ∧ r.note = true) ∨ r.renews incident run clk.now = true

/-- An accepted cancel, pause, resume or note on an incident with its current Run. -/
structure OrdinaryChecks (s : Store) (clk : Clock) (r : ControlRequest) (incident : IncidentRow)
    (run : RunRow) : Prop where
  found : s.incidents.get r.incidentId = some incident
  current : incident.currentRunId.bind s.runs.get = some run
  bound : run.incidentId = r.incidentId
  reopened : r.note = true → incident.concluded = true → incident.mode ≠ .humanOwned →
    incident.lifecycle.settled = false
  unconcluded : incident.concluded = true → Exempt clk r incident run
  unpaused : incident.state = .paused → r.action ≠ .pause
  running : r.action ≠ .cancel → ¬ Exempt clk r incident run → run.state ∈ controlOpenRunStates

variable {g : ℕ} {i q : UUID} {now : Time}

theorem control_ordinary {r : ControlRequest} (h : s.control clk r = .ok (g, s'))
    (haction : r.action ∈ [ControlAction.cancel, .pause, .resume, .followUp, .correct]) :
    ∃ incident run, OrdinaryChecks s clk r incident run := by
  obtain ⟨incident, suspended, toUid, registered, hinc, -, -, -, -, hdecide⟩ := control_checked h
  have hordinary : s.ordinary clk r incident suspended = .ok s' := by
    simp only [List.mem_cons, List.not_mem_nil, or_false] at haction
    rcases haction with ha | ha | ha | ha | ha <;> simpa only [decideOn, ha] using hdecide
  simp only [ordinary, require_bind_eq_ok, refuse_bind_eq_ok, Option.filter_eq_some_iff,
    decide_eq_true_eq] at hordinary
  obtain ⟨run, ⟨hcurrent, hbound⟩, hreopen, -, hconcluded, hpaused, hopen, -⟩ := hordinary
  refine ⟨incident, run, hinc, hcurrent, hbound, fun hnote hconc hmode => ?_, fun hconc => ?_,
    fun hstate hpause => hpaused ⟨hstate, .inl hpause⟩, fun hcancel hexempt => ?_⟩
  · by_contra hsettled
    rw [Bool.not_eq_false] at hsettled
    exact hreopen ⟨hnote, hconc, hmode, hsettled⟩
  · by_contra hexempt
    exact hconcluded ⟨hconc, hexempt⟩
  · by_contra hrun
    exact hopen ⟨hcancel, hexempt, hrun⟩

/-! ## Decisions -/

/-- If its current Run is finished, the incident is concluded. -/
def ConcludedRow (s : Store) (i : UUID) : Prop :=
  ∀ row q run, s.incidents.get i = some row → row.currentRunId = some q →
    s.runs.get q = some run → run.state.unfinished = false → row.concluded = true

theorem concludedAt_iff : Control.ConcludedAt s.view i ↔ s.ConcludedRow i := by
  constructor
  · intro h row q run hrow hcur hrun hfinished
    exact h row.subject q run.attempt (subjectsOf_get hrow) hcur (attemptsOf_get hrun) hfinished
  · intro h sub q a hsub hcur ha hfinished
    obtain ⟨row, hrow, rfl⟩ := subjectsOf_eq_some.1 hsub
    obtain ⟨run, hrun, rfl⟩ := attemptsOf_eq_some.1 ha
    exact h row q run hrow hcur hrun hfinished

theorem ConcludedRow.congr (h : s.ConcludedRow i) (hincidents : s'.incidents = s.incidents)
    (hruns : s'.runs = s.runs) : s'.ConcludedRow i := by
  rw [ConcludedRow, hincidents, hruns]
  exact h

/-- The current Run of an incident is its own. -/
theorem current_bound (hinv : Control.Inv now s.view) {row : IncidentRow} {run : RunRow}
    (hrow : s.incidents.get i = some row) (hcur : row.currentRunId = some q)
    (hrun : s.runs.get q = some run) : run.incidentId = i := by
  obtain ⟨a, ha, hsubject, -⟩ := (hinv.subject i row.subject (subjectsOf_get hrow)).owned q hcur
  obtain ⟨run', hrun', rfl⟩ := attemptsOf_eq_some.1 ha
  obtain rfl := Option.some.inj (hrun.symm.trans hrun')
  exact hsubject

section

variable {r : ControlRequest} {incident : IncidentRow}

/-- **The decisions that cancel the Runs cancel the incident with its current Run.** -/
theorem terminate_concluded (hinv : Control.Inv now s.view) {payload : Option Json}
    {f : IncidentRow → IncidentRow} (hinc : s.incidents.get r.incidentId = some incident)
    (hf : ∀ row, (f row).state = row.state ∧ (f row).conclusion = row.conclusion ∧
      (f row).currentRunId = row.currentRunId) (h : s.ConcludedRow r.incidentId) :
    (s.terminate clk r incident payload f).ConcludedRow r.incidentId := by
  intro row q run' hrow hcur hrun hfinished
  simp only [terminate, Table.get_modify_self, hinc, Option.map_some, Option.some.injEq] at hrow
  subst hrow
  obtain ⟨hstate, hconc, hcurrent⟩ := hf { incident with
    controlGeneration := r.generation, state := s.stateAfterCancel r.incidentId incident }
  rw [hcurrent] at hcur
  simp only [IncidentRow.concluded, hstate, hconc, decide_eq_true_eq]
  simp only [terminate, moveRuns, Table.get_update, Option.map_eq_some_iff] at hrun
  obtain ⟨run, hrun, rfl⟩ := hrun
  have hbound := current_bound hinv hinc hcur hrun
  by_cases hopen : run.state ∈ unfinishedStates
  · left
    have hany : (incident.currentRunId.bind s.runs.get).any (fun r' =>
        r'.incidentId = r.incidentId ∧ r'.state ∈ unfinishedStates) = true := by
      rw [show incident.currentRunId = some q from hcur, Option.bind_some, hrun]
      simp [hbound, hopen]
    rw [stateAfterCancel, if_pos hany]
    exact List.mem_cons_self
  · rw [if_neg fun hmoved => hopen hmoved.2] at hfinished
    have hbefore := h incident q run hinc hcur hrun hfinished
    simp only [IncidentRow.concluded, decide_eq_true_eq] at hbefore
    refine hbefore.imp_left fun hmem => ?_
    rw [stateAfterCancel]
    split
    · exact List.mem_cons_self
    · exact hmem

/-- A takeover finishes no Run. -/
theorem takeover_concluded (hinc : s.incidents.get r.incidentId = some incident)
    (h : s.ConcludedRow r.incidentId) :
    (s.takeover clk r incident).ConcludedRow r.incidentId := by
  intro row q run' hrow hcur hrun hfinished
  simp only [takeover, Table.get_modify_self, hinc, Option.map_some, Option.some.injEq] at hrow
  subst hrow
  simp only [takeover] at hrun
  split at hrun
  · exact h incident q run' hinc hcur hrun hfinished
  · simp only [moveRuns, Table.get_update, Option.map_eq_some_iff] at hrun
    obtain ⟨run, hrun, rfl⟩ := hrun
    split at hfinished
    · cases hfinished
    · exact h incident q run hinc hcur hrun hfinished

/-- What a decision that starts no successor leaves of the Runs is unfinished if it was, unless it
is a cancel. -/
theorem directRuns_finished {suspended : Bool} {run' : RunRow} (hcancel : r.action ≠ .cancel)
    (hrun : (s.directRuns r incident suspended).get q = some run')
    (hfinished : run'.state.unfinished = false) : s.runs.get q = some run' := by
  have hmoved : ∀ {source : List RunExecution} {target : RunExecution} {g : ℕ},
      target.unfinished = true →
      (s.moveRuns r.incidentId source target g).get q = some run' → s.runs.get q = some run' := by
    intro source target g htarget hget
    simp only [moveRuns, Table.get_update, Option.map_eq_some_iff] at hget
    obtain ⟨run, hbefore, rfl⟩ := hget
    split at hfinished
    · rw [show (run.decided target g).state = target from rfl, htarget] at hfinished
      cases hfinished
    · next hkept =>
      rw [if_neg hkept]
      exact hbefore
  unfold directRuns at hrun
  rw [if_neg hcancel] at hrun
  split at hrun
  · exact hrun
  · split at hrun
    · exact hmoved rfl hrun
    · split at hrun
      · exact hmoved rfl hrun
      · exact hmoved rfl hrun

/-- **A decision that starts no successor** cancels the incident, or was accepted on a concluded
incident as a note that leaves its control mirror alone. -/
theorem direct_concluded (suspended : Bool) {run : RunRow}
    (hchecks : OrdinaryChecks s clk r incident run)
    (hdirect : r.renews incident run clk.now = false) (h : s.ConcludedRow r.incidentId) :
    (s.direct clk r incident suspended).ConcludedRow r.incidentId := by
  intro row q run' hrow hcur hrun hfinished
  simp only [direct, Table.get_modify_self, hchecks.found, Option.map_some,
    Option.some.injEq] at hrow
  subst hrow
  by_cases hcancel : r.action = .cancel
  · have hstate : r.state incident suspended = .cancelled := by
      simp [ControlRequest.state, ControlRequest.keepsPaused, ControlRequest.note, hcancel]
    simp [IncidentRow.concluded, hstate]
  · have hbefore : s.runs.get q = some run' := directRuns_finished hcancel hrun hfinished
    have hconc := h incident q run' hchecks.found hcur hbefore hfinished
    rcases hchecks.unconcluded hconc with ⟨hmode, hnote⟩ | hrenews
    · have hstate : r.state incident suspended = incident.state := by
        rw [ControlRequest.state, if_pos ⟨hmode, hnote⟩]
      simpa [IncidentRow.concluded, hstate] using hconc
    · rw [hdirect] at hrenews
      cases hrenews

end

/-- **A decision that neither reopens nor starts a successor keeps the incident settled.** -/
theorem control_concluded {r : ControlRequest} (h : s.control clk r = .ok (g, s'))
    (hinv : Control.Inv now s.view) (hevent : s.controlEvent clk r = .decision r.incidentId)
    (hrow : s.ConcludedRow r.incidentId) : s'.ConcludedRow r.incidentId := by
  obtain ⟨incident, hinc, -, -, hdecided⟩ := control_ok h
  cases hdecided with
  | close haction hlife =>
    exact terminate_concluded hinv hinc (fun _ => ⟨rfl, rfl, rfl⟩) hrow
  | reopen haction hlife =>
    rw [controlEvent, if_pos haction] at hevent
    cases hevent
  | @rebind t targetId payload haction hlife hreg hgate =>
    rcases hreg with rfl | ⟨-, toUid, rfl⟩
    · exact terminate_concluded hinv hinc (fun _ => ⟨rfl, rfl, rfl⟩) hrow
    · have hbound : (s.terminate clk r incident payload
          fun row => { row with lifecycle := .opened, targetId := some targetId }).ConcludedRow
            r.incidentId :=
        terminate_concluded hinv hinc (fun _ => ⟨rfl, rfl, rfl⟩) hrow
      exact hbound.congr rfl rfl
  | @merge survivorId survivor payload t t' haction hsurvivor hne ht hinput =>
    have hmerged : t.ConcludedRow r.incidentId := by
      rw [ht]
      exact terminate_concluded hinv hinc (fun _ => ⟨rfl, rfl, rfl⟩) hrow
    rcases hinput with rfl | ⟨-, rfl⟩
    · exact hmerged
    · exact hmerged.congr rfl rfl
  | takeover haction => exact takeover_concluded hinc hrow
  | renew hcurrent hrun hrenews =>
    have hnote : r.note = true := by
      simp only [ControlRequest.renews, decide_eq_true_eq] at hrenews
      exact hrenews.1
    have haction : r.action ≠ .reopen := by
      rintro ha
      simp [ControlRequest.note, ha] at hnote
    rw [controlEvent, if_neg haction, renewsAt_eq hinc hcurrent hrun, hrenews, if_pos rfl] at hevent
    cases hevent
  | @direct suspended run currentId haction hcurrent hrun hdirect =>
    obtain ⟨incident', run', hchecks⟩ := control_ordinary h haction
    obtain rfl := Option.some.inj (hinc.symm.trans hchecks.found)
    have hrun' := hchecks.current
    rw [hcurrent, Option.bind_some, hrun, Option.some.injEq] at hrun'
    subst hrun'
    have hdecided := direct_concluded suspended hchecks hdirect hrow
    split
    · exact hdecided.congr rfl rfl
    · exact hdecided

/-- A registered remediation moves no Run and leaves the control mirror alone. -/
theorem registerRemediation_concluded [Texts] {r : Remediation}
    (h : s.registerRemediation clk r = .ok (g, s'))
    (hrow : s.ConcludedRow r.authorization.incidentId) :
    s'.ConcludedRow r.authorization.incidentId := by
  obtain ⟨t, authorized, incident, row, session, audit, ht, hinc, -, -, -, -, -, -, hauth, rfl⟩ :=
    registerRemediation_ok h
  intro row' q run hget hcur hrun hfinished
  simp only at hget hrun
  rw [hauth.written, ht.eq] at hget hrun
  simp only [remediated, Table.modify_modify, Table.get_modify_self, hinc, Option.map_some,
    Option.some.injEq] at hget
  subst hget
  exact hrow incident q run hinc hcur hrun hfinished

/-! ## Runs of the system -/

/-- Closed incidents are dormant, and a finished current Run concludes its incident. -/
structure Settled (s : Store) : Prop where
  closed : Control.ClosedDormant s.view
  concluded : ∀ i, Control.ConcludedAt s.view i

end Store

open Store

variable [Texts]

/-- **Every operation keeps the store settled.** -/
theorem exec_keepsSettled {op : Op} {clk : Clock} {s s' : Store} {issued : Issued}
    (h : op.exec clk s = .ok (issued, s')) (hinv : Control.Inv clk.now s.view)
    (hs : s.Settled) : s'.Settled := by
  obtain ⟨e, he, F, hprepare, hmove⟩ := exec_move h
  refine ⟨hmove.closedDormant (hprepare.inv hinv) (hprepare.closedDormant hinv hs.closed),
    fun i => ?_⟩
  have hprepared : Control.ConcludedAt F i :=
    hprepare.concludedAt hinv (hs.concluded i) (by simp)
  by_cases hne : e = .decision i
  · -- A decision of the store: what it rules is what the code writes.
    subst hne
    have hevent : op.event clk s = .decision i := by
      rcases he with he | he
      · cases he
      · exact he.symm
    rw [concludedAt_iff]
    have hrow := concludedAt_iff.1 (hs.concluded i)
    cases op with
    | control r =>
      obtain ⟨-, a, ha⟩ := committed_eq_ok.1 h
      have hi : r.incidentId = i := by
        have hdecision : s.controlEvent clk r = .decision i := hevent
        unfold controlEvent at hdecision
        split at hdecision
        · cases hdecision
        · split at hdecision
          · cases hdecision
          · exact Control.Event.decision.inj hdecision
      subst hi
      exact control_concluded ha hinv hevent hrow
    | registerRemediation r =>
      obtain ⟨-, a, ha⟩ := committed_eq_ok.1 h
      obtain rfl := Control.Event.decision.inj hevent
      exact registerRemediation_concluded ha hrow
    | accept | openHandoff | escalatePriority | registerTarget | newRun | claim | renewLease
    | block | handOff | sweepExpiredRun | parkBacklog | abandon | setGlobalSuspension
    | setTargetSuspension | appendInput | commitStep | commitTool | beginRound | publish
    | reserveBudget | settleBudget | chargeTool | authorizeSession
    | authorizeAutomaticObservation | recordAutoObservationFailure | revokeSessions
    | claimDueSample | submitSample | sweepExpiredSession => cases hevent
  · exact hmove.concludedAt (hprepare.inv hinv) hprepared hne

namespace State

variable {σ : State}

/-- **Every reachable state is settled.** -/
theorem reachable_settled (h : system.Reachable σ) : σ.store.Settled := by
  refine h.invariant_of (P := fun σ => σ.store.Settled)
    (I := fun σ => Control.Inv σ.now σ.store.view) (fun σ hσ => reachable_inv hσ)
    (fun σ hinit => ?_) fun {σ call σ'} hstep hinv hs => ?_
  · rw [hinit.1]
    exact ⟨fun i sub hsub => (by cases hsub), fun i sub r a hsub => (by cases hsub)⟩
  · exact step_store hstep hs fun issued store hok => exec_keepsSettled hok (hinv.mono hstep.1) hs

end State

end OpsPilot
