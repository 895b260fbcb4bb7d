import OpsPilot.System.Simulation

/-!
# Leases over whole runs

What the store guarantees about the leases it handed out, whatever calls come in whatever order.

* **`lease_fencing`**: at most one lease of a Run is current, and a lease that was found not to
  be current is never current again.
* **`lease_control`**: who holds a current lease runs, is current, and no human control and no
  suspension stands in the way.
-/

namespace OpsPilot

open Store

namespace State

variable [Texts] {σ σ' τ : State} {call : Call} {L : Lease}

/-- The lease was handed out, and the columns it names have only moved on since. -/
def HandedOut (σ : State) (L : Lease) : Prop :=
  ∃ a sub, Control.Issued σ.store.view L.view a sub

theorem HandedOut.step (h : σ.HandedOut L) (hstep : system.Step σ call σ') : σ'.HandedOut L := by
  obtain ⟨a, sub, hissued⟩ := h
  obtain ⟨F, hprepare, hmove⟩ := step_advances hstep
  obtain ⟨a₁, sub₁, hissued₁, -, -⟩ := hissued.advance hprepare
  obtain ⟨a₂, sub₂, hissued₂, -, -⟩ := hissued₁.advance hmove
  exact ⟨a₂, sub₂, hissued₂⟩

omit [Texts] in
/-- A claim hands out a lease in this sense. -/
theorem issued_of_claim {s s' : Store} {clk : Clock} {incidentId runId owner : UUID}
    {versions : Json} {leaseSeconds : ℤ}
    (h : s.claim clk incidentId runId owner versions leaseSeconds = .ok (.ok L, s')) :
    ∃ a sub, Control.Issued s'.view L.view a sub := by
  obtain ⟨incident, run, hc, ⟨hresult, -⟩ | ⟨-, hresult, rfl⟩⟩ := claim_ok h
  · cases hresult
  · cases hresult
    have hinc : s.view.subjects run.attempt.subject = some incident.subject := by
      refine subjectsOf_get ?_
      rw [← hc.bound] at hc
      exact hc.foundIncident
    have hgrant := Control.issued_of_grant (r := runId) (w := owner) hinc (view_open hc.isOpen)
      (min (clk.later + seconds leaseSeconds) run.deadline)
    have hlease : (s.claimedLease incidentId runId owner incident run).view =
        { subject := run.attempt.subject, attempt := runId, owner, epoch := run.attempt.epoch + 1
          generation := incident.subject.generation
          globalGeneration := s.view.global.generation
          targetGeneration := (s.view.targetGate incident.subject).generation } := by
      simp only [claimedLease, Lease.view, RunRow.attempt, hc.bound]
      rfl
    refine ⟨(run.granted owner incident.controlGeneration
      (min (clk.later + seconds leaseSeconds) run.deadline)).attempt, incident.subject, ?_⟩
    rw [hlease]
    convert hgrant using 1
    · exact Control.State.ext rfl (attemptsOf_modify hc.foundRun _) rfl rfl
    · rfl

/-- Only a claim hands out a lease of a Run. -/
theorem claim_of_exec {op : Op} {clk : Clock} {s s' : Store} {issued : Issued}
    (h : op.exec clk s = .ok (issued, s')) (hL : L ∈ issued.lease) :
    ∃ incidentId runId owner versions leaseSeconds,
      s.claim clk incidentId runId owner versions leaseSeconds = .ok (.ok L, s') := by
  cases op with
  | claim incidentId runId owner versions leaseSeconds =>
    obtain ⟨a, rfl, ha⟩ := claimed_eq_ok.1 h
    cases a with
    | error e => cases hL
    | ok L' =>
      cases hL
      exact ⟨incidentId, runId, owner, versions, leaseSeconds, ha⟩
  | sweepExpiredRun | abandon => cases h; cases hL
  | claimDueSample sessionId owner leaseSeconds =>
    obtain ⟨a, rfl, -⟩ := sampleClaimed_eq_ok.1 h
    cases hL
  | _ =>
    obtain ⟨rfl, -⟩ := committed_eq_ok.1 h
    cases hL

/-- Every lease on record was handed out. -/
theorem reachable_handedOut (h : system.Reachable σ) : ∀ L ∈ σ.leases, σ.HandedOut L := by
  refine h.invariant (P := fun σ => ∀ L ∈ σ.leases, σ.HandedOut L) (fun σ hinit => ?_)
    fun {σ call σ'} hstep hall => ?_
  · rw [hinit.2.1]
    exact fun L hL => nomatch hL
  · intro L hL
    by_cases hold : L ∈ σ.leases
    · exact (hall L hold).step hstep
    · rcases step_cases hstep with ⟨issued, store, hok, rfl⟩ | ⟨-, rfl⟩
      · rcases List.mem_append.1 hL with hnew | hold'
        · obtain ⟨_, _, _, _, _, hclaim⟩ := claim_of_exec hok (Option.mem_toList.1 hnew)
          exact issued_of_claim hclaim
        · exact absurd hold' hold
      · exact absurd hL hold

/-- A lease that is current after a step was current before it, at the clock of the call. -/
theorem leaseCurrent_before (hL : σ.HandedOut L) (hstep : system.Step σ call σ') {t : Time}
    (hle : σ'.now ≤ t) (hcur : σ'.store.leaseCurrent L t = true) :
    σ.store.leaseCurrent L call.clock.now = true := by
  rw [leaseCurrent_iff_exists_valid] at hcur ⊢
  obtain ⟨a, sub, hissued⟩ := hL
  obtain ⟨a', sub', hvalid⟩ := hcur
  obtain ⟨F, hprepare, hmove⟩ := step_advances hstep
  obtain ⟨a₁, sub₁, hissued₁, -, -⟩ := hissued.advance hprepare
  have hnow : call.clock.now ≤ t := by
    rw [step_now hstep] at hle
    exact call.clock.now_le_later.trans hle
  have hmiddle := hissued₁.invalid_forever hmove hnow hvalid
  exact ⟨a, sub, hissued.invalid_forever hprepare le_rfl hmiddle⟩

omit [Texts] in
theorem leaseCurrent_earlier {t t' : Time} (hle : t ≤ t')
    (hcur : σ.store.leaseCurrent L t' = true) : σ.store.leaseCurrent L t = true := by
  rw [leaseCurrent_iff_exists_valid] at hcur ⊢
  obtain ⟨a, sub, hvalid⟩ := hcur
  exact ⟨a, sub, hvalid.earlier hle⟩

/-- A lease that is current after a run was current before it, at any time no call of the run
was before. -/
theorem leaseCurrent_before_run {calls : List Call} (hL : σ.HandedOut L)
    (hrun : system.Run σ calls τ) {t t' : Time} (hcalls : ∀ c ∈ calls, t ≤ c.clock.now)
    (htt : t ≤ t') (hle : τ.now ≤ t') (hcur : τ.store.leaseCurrent L t' = true) :
    σ.store.leaseCurrent L t = true := by
  induction hrun generalizing t t' with
  | nil σ => exact leaseCurrent_earlier htt hcur
  | @cons σ σ₁ τ call calls hstep hrun ih =>
    have hnext : σ₁.now ≤ τ.now := hrun.monotone step_le_now
    have hafter : σ₁.store.leaseCurrent L σ₁.now = true := by
      exact ih (hL.step hstep) (run_le_clock hrun) (hnext.trans hle) hle hcur
    have hbefore := leaseCurrent_before hL hstep le_rfl hafter
    exact leaseCurrent_earlier (hcalls call List.mem_cons_self) hbefore

/-- **Lease fencing.** In every reachable state a Run has at most one current lease; and a lease
that was handed out and is found not to be current, at a time the clock has reached, is not
current after any calls made from then on. -/
theorem lease_fencing (h : system.Reachable σ) :
    (∀ L L' t, L.runId = L'.runId → σ.store.leaseCurrent L t = true →
      σ.store.leaseCurrent L' t = true → L = L') ∧
    ∀ L ∈ σ.leases, ∀ t, σ.now ≤ t → σ.store.leaseCurrent L t = false →
      ∀ calls τ, system.Run σ calls τ → (∀ c ∈ calls, t ≤ c.clock.now) →
        ∀ t', t ≤ t' → τ.now ≤ t' → τ.store.leaseCurrent L t' = false := by
  constructor
  · intro L L' t heq hL hL'
    obtain ⟨a, sub, hvalid⟩ := leaseCurrent_iff_exists_valid.1 hL
    obtain ⟨a', sub', hvalid'⟩ := leaseCurrent_iff_exists_valid.1 hL'
    exact Lease.view_injective (hvalid.unique hvalid' heq)
  · intro L hL t hnow hfail calls τ hrun hcalls t' htt hle
    by_contra hcur
    rw [Bool.not_eq_false] at hcur
    have hbefore := leaseCurrent_before_run (reachable_handedOut h L hL) hrun hcalls htt hle hcur
    rw [hfail] at hbefore
    cases hbefore

end State

namespace Scenario

/-- The lease of the worker 3 on the Run 2 of the incident 1. -/
def lease : Lease := { incidentId := 1, runId := 2, owner := 3, epoch := 1, controlGeneration := 0 }

/-- The incident comes in at time 0 and its Run is claimed at once, for a minute. -/
def claimCalls : List Call :=
  [(Op.accept {
      incidentId := 1, runId := 2, intakeKey := "alert-1", deadline := seconds 3600
      budgetLimit := 1000, versions := .obj [], input := none, targetId := none
      priority := 1 }).at 0,
    (Op.claim 1 2 3 (.obj []) 60).at 0]

/-- After one second a human takes the incident over. -/
def takeoverCalls : List Call :=
  claimCalls ++ [(Op.control {
    incidentId := 1, expectedGeneration := 0, action := .takeover, actor := "anna" }).at (seconds 1)]

/-- The lease of a Run that was taken over never comes back. -/
theorem lease_fencing_takeover :
    (State.reached claimCalls).store.leaseCurrent lease (seconds 1) = true ∧
      ∀ calls τ, system.Run (State.reached takeoverCalls) calls τ →
        (∀ c ∈ calls, seconds 1 ≤ c.clock.now) → ∀ t, seconds 1 ≤ t → τ.now ≤ t →
          τ.store.leaseCurrent lease t = false :=
  ⟨by decide, (State.lease_fencing (State.reachable_reached (by decide))).2 lease (by decide)
    (seconds 1) (by decide) (by decide)⟩

end Scenario

namespace State

variable [Texts] {σ : State} {L : Lease}

/-- **Human control comes first.** The holder of a lease that passes the check has a running Run,
the current one of an automatic incident no decision stopped, under open gates, and its lease
ends by the deadline. -/
theorem lease_control (h : system.Reachable σ) {t : Time} (hle : σ.now ≤ t)
    (hcur : σ.store.leaseCurrent L t = true) :
    ∃ run incident, σ.store.runs.get L.runId = some run ∧
      σ.store.incidents.get run.incidentId = some incident ∧ run.state = .running ∧
      incident.currentRunId = some L.runId ∧ incident.mode = .automatic ∧
      incident.state ∉ [IncidentState.paused, .cancelled, .completed] ∧
      σ.store.scope.suspended = false ∧ (σ.store.scopeOf incident).target.suspended = false ∧
      ∃ u, run.leaseUntil = some u ∧ t < u ∧ u ≤ run.deadline := by
  obtain ⟨run, incident, hrun, hinc, hvalid⟩ := leaseCurrent_iff_valid.1 hcur
  obtain ⟨hstate, hcurrent, hmode, hcontrol, hopen, hbound⟩ :=
    hvalid.control ((reachable_inv h).mono hle)
  obtain ⟨u, hu, hlt⟩ := leaseLive_eq_true.1 hvalid.live
  exact ⟨run, incident, hrun, hinc, hstate, hcurrent, hmode, hcontrol, hopen.1, hopen.2, u, hu,
    hlt, hbound u hu⟩

end State

namespace Scenario

/-- The lease just claimed is current, and its holder is not in anybody's way. -/
theorem lease_control_claimed :
    ∃ run incident, (State.reached claimCalls).store.runs.get 2 = some run ∧
      (State.reached claimCalls).store.incidents.get run.incidentId = some incident ∧
      run.state = .running ∧ incident.currentRunId = some 2 := by
  have hcur : (State.reached claimCalls).store.leaseCurrent lease (seconds 1) = true := by decide
  obtain ⟨run, incident, hrun, hinc, hstate, hcurrent, -⟩ :=
    State.lease_control (State.reachable_reached (by decide)) (by decide) hcur
  exact ⟨run, incident, hrun, hinc, hstate, hcurrent⟩

end Scenario

end OpsPilot
