import OpsPilot.Control.Runs
import OpsPilot.Foundations.Refinement
import OpsPilot.System.Intakes
import OpsPilot.System.Replay

/-!
# What every history keeps

What the store says about its own past, in the runs from any state.

* **`control_refinement`**: a run of the store is a run of the control machine.
* **`decision_ledger`**: the audit holds every decision once, and is only appended to.
* **`records_permanent`**: stored samples and health profiles stay, and so does the ground of every
  session.
* **`incidents_permanent`**: incidents stay, under keys of their own, and get no less urgent.
-/

namespace OpsPilot

open Store

/-! ## The control machine over whole runs -/

section

variable [Texts]

/-- A label of the control machine for a call: its time, and no decision or the one the call is. -/
def Call.Labelled (call : Call) (label : Time × Control.Event UUID) : Prop :=
  label.1 = call.clock.now ∧ (label.2 = .machine ∨ ∃ s, label.2 = call.op.event call.clock s)

theorem system_refines : system.Refines (Control.machine UUID UUID UUID UUID Json)
    (fun σ => (σ.now, σ.store.view)) Call.Labelled where
  init σ hinit := by
    rw [hinit.1]
    rfl
  step {σ call τ} h := by
    obtain ⟨e, he, hmove⟩ := State.step_move h
    refine ⟨(call.clock.now, e), ⟨rfl, he.imp_right fun he => ⟨_, he⟩⟩, h.1, hmove, ?_⟩
    rw [State.step_now h]
    exact call.clock.now_le_later

/-- **The store refines the control machine.** Its reachable states are reachable ones of the
machine, its runs are runs of the machine call by call, and the generation of an incident grows by
one with each decision on it. -/
theorem State.control_refinement {σ : State} (h : system.Reachable σ) :
    (Control.machine UUID UUID UUID UUID Json).Reachable (σ.now, σ.store.view) ∧
      ∀ calls τ, system.Run σ calls τ → ∃ labels, List.Forall₂ Call.Labelled calls labels ∧
        (Control.machine UUID UUID UUID UUID Json).Run (σ.now, σ.store.view) labels
          (τ.now, τ.store.view) ∧
        ∀ i, τ.store.view.generation i = σ.store.view.generation i +
          labels.countP fun label => label.2.subject? = some i := by
  refine ⟨system_refines.reachable h, fun calls τ hrun => ?_⟩
  obtain ⟨labels, hlabels, hmoves⟩ := system_refines.run hrun
  exact ⟨labels, hlabels, hmoves, Control.generation_run hmoves⟩

end

namespace Scenario

/-- The takeover is the one decision on its incident. -/
theorem control_refinement_takeover : ∃ labels : List (Time × Control.Event UUID),
    List.Forall₂ Call.Labelled takeoverCalls labels ∧
      1 = labels.countP fun label => label.2.subject? = some 1 := by
  have hinit : system.Reachable { now := 0 } := .init ⟨rfl, rfl, rfl⟩
  obtain ⟨labels, hlabels, -, hcount⟩ := (State.control_refinement hinit).2 takeoverCalls
    (State.reached takeoverCalls) (State.run_applyAll (by decide))
  exact ⟨labels, hlabels, (hcount 1).trans (Nat.zero_add _)⟩

end Scenario

/-! ## The ledger of decisions -/

/-- The generations the decisions on an incident led to, as audited, the latest first. An automatic
authorization is audited too, but leaves the generation as it is. -/
def Store.decisions (s : Store) (i : UUID) : List ℕ :=
  (s.controls.filter fun c => c.incidentId = i ∧ c.expectedGeneration ≠ c.resultingGeneration).map
    (·.resultingGeneration)

/-- Every generation an incident went through was decided on once, in order. -/
def Store.Ledger (s : Store) : Prop :=
  ∀ i, s.decisions i = (List.range' 1 (s.view.generation i)).reverse

/-- What an operation audits: nothing, an automatic authorization, or a decision. -/
inductive Audits (s s' : Store) : Prop
  | nothing (hcontrols : s'.controls = s.controls)
      (hsame : ∀ i, s'.view.generation i = s.view.generation i)
  | authorization {audit : ControlRow} (hcontrols : s'.controls = audit :: s.controls)
      (hstays : audit.expectedGeneration = audit.resultingGeneration)
      (hsame : ∀ i, s'.view.generation i = s.view.generation i)
  | decision {i : UUID} {g : ℕ} (h : Recorded s s' i g)

namespace Audits

variable {s s' : Store}

theorem suffix (h : Audits s s') : s.controls <:+ s'.controls := by
  cases h with
  | nothing hcontrols => rw [hcontrols]
  | authorization hcontrols => exact hcontrols ▸ List.suffix_cons ..
  | decision h =>
    obtain ⟨audit, hcontrols, -⟩ := h.audited
    exact hcontrols ▸ List.suffix_cons ..

theorem ledger (h : Audits s s') (hs : s.Ledger) : s'.Ledger := by
  intro j
  cases h with
  | nothing hcontrols hsame => rw [hsame, ← hs j, decisions, hcontrols, decisions]
  | authorization hcontrols hstays hsame =>
    rw [hsame, ← hs j, decisions, hcontrols, List.filter_cons_of_neg (by simp [hstays]), decisions]
  | @decision i g h =>
    obtain ⟨audit, hcontrols, hid, hexpected, hresulting⟩ := h.audited
    by_cases hj : j = i
    · obtain ⟨incident, incident', hinc, hinc', hg, hgen⟩ := h.raised
      have hbefore : s.view.generation j = incident.controlGeneration := by
        subst hj
        simp [Control.State.generation, view, subjectsOf, hinc, IncidentRow.subject]
      have hafter : s'.view.generation j = incident.controlGeneration + 1 := by
        subst hj
        simp [Control.State.generation, view, subjectsOf, hinc', IncidentRow.subject, hgen, hg]
      have hold := hs j
      rw [decisions, hbefore] at hold
      rw [decisions, hcontrols, List.filter_cons_of_pos (by simp [hid, hj]; omega),
        List.map_cons, hold, hafter, List.range'_1_concat, List.reverse_append, hresulting, hg]
      simp [Nat.add_comm]
    · have hsame : s'.view.generation j = s.view.generation j := by
        simp [Control.State.generation, view, subjectsOf, h.others j hj]
      rw [hsame, ← hs j, decisions, hcontrols,
        List.filter_cons_of_neg (by simp [hid, Ne.symm hj]), decisions]

end Audits

section

variable [Texts] {op : Op} {clk : Clock} {s s' : Store} {issued : Issued}

/-- A plain operation audits nothing. -/
theorem exec_plain_controls (h : op.exec clk s = .ok (issued, s')) (hop : op.plain = true) :
    s'.controls = s.controls := by
  cases op with
  | accept =>
    obtain ⟨-, a, ha⟩ := committed_eq_ok.1 h
    rcases accept_ok ha with rfl | ⟨suspended, -, -, -, rfl⟩ <;> rfl
  | openHandoff =>
    obtain ⟨-, a, ha⟩ := committed_eq_ok.1 h
    obtain ⟨-, rfl⟩ := openHandoff_ok ha
    rfl
  | escalatePriority =>
    obtain ⟨-, a, ha⟩ := committed_eq_ok.1 h
    obtain rfl := escalatePriority_ok ha
    rfl
  | claim =>
    obtain ⟨a, -, ha⟩ := claimed_eq_ok.1 h
    obtain ⟨incident, run, -, ⟨-, rfl⟩ | ⟨-, -, rfl⟩⟩ := claim_ok ha <;> rfl
  | renewLease =>
    obtain ⟨-, a, ha⟩ := committed_eq_ok.1 h
    obtain ⟨run, -, -, -, -, rfl⟩ := renewLease_ok ha
    rfl
  | block =>
    obtain ⟨-, a, ha⟩ := committed_eq_ok.1 h
    obtain ⟨row, -, -, rfl⟩ := block_ok ha
    rfl
  | handOff =>
    obtain ⟨-, a, ha⟩ := committed_eq_ok.1 h
    obtain ⟨row, -, -, -, rfl⟩ := handOff_ok ha
    rfl
  | sweepExpiredRun incidentId runId =>
    cases h
    rcases sweepExpiredRun_cases s clk incidentId runId with hs | ⟨-, -, -, -, hs⟩
    · rw [hs]
    · rw [hs]
      rfl
  | parkBacklog =>
    obtain ⟨-, a, ha⟩ := committed_eq_ok.1 h
    rcases parkBacklog_ok ha with rfl | ⟨runId, run, -, -, -, rfl⟩ <;> rfl
  | abandon =>
    cases h
    rfl
  | setGlobalSuspension suspended =>
    obtain ⟨-, a, ha⟩ := committed_eq_ok.1 h
    rcases setGlobalSuspension_ok ha with ⟨-, rfl⟩ | ⟨-, -, rfl⟩
    · rfl
    · cases suspended <;> rfl
  | appendInput =>
    obtain ⟨-, a, ha⟩ := committed_eq_ok.1 h
    rcases appendInput_ok ha with rfl | ⟨incident, -, -, rfl⟩ <;> rfl
  | commitStep =>
    obtain ⟨-, a, ha⟩ := committed_eq_ok.1 h
    cases commitStep_ok ha with
    | late _ hlate => rcases lateResult_ok hlate with ⟨rfl, -⟩ | ⟨-, -, -, rfl⟩ <;> rfl
    | replay | committed => rfl
  | commitTool =>
    obtain ⟨-, a, ha⟩ := committed_eq_ok.1 h
    cases commitTool_ok ha with
    | late hlate => rcases lateResult_ok hlate with ⟨rfl, -⟩ | ⟨-, -, -, rfl⟩ <;> rfl
    | replay | committed => rfl
  | beginRound =>
    obtain ⟨-, a, ha⟩ := committed_eq_ok.1 h
    obtain ⟨row, -, -, -, -, ⟨rfl, -⟩ | ⟨-, -, rfl⟩⟩ := beginRound_ok ha <;> rfl
  | publish =>
    obtain ⟨-, a, ha⟩ := committed_eq_ok.1 h
    cases publish_ok ha with
    | fenced _ _ hlate => rcases lateResult_ok hlate with ⟨rfl, -⟩ | ⟨-, -, -, rfl⟩ <;> rfl
    | replay | written => rfl
  | reserveBudget =>
    obtain ⟨-, a, ha⟩ := committed_eq_ok.1 h
    rcases reserveBudget_ok ha with rfl | ⟨-, -, -, -, -, rfl⟩ <;> rfl
  | settleBudget =>
    obtain ⟨-, a, ha⟩ := committed_eq_ok.1 h
    obtain ⟨-, -, -, ⟨rfl, -⟩ | ⟨-, rfl⟩⟩ := settleBudget_ok ha <;> rfl
  | chargeTool =>
    obtain ⟨-, a, ha⟩ := committed_eq_ok.1 h
    obtain ⟨toolCharges, operations, total, rfl⟩ := chargeTool_ok ha
    rfl
  | _ => cases hop

/-- The audit of a committed automatic decision, if it authorized a session. -/
theorem authorizeAutomaticObservation_controls {i : UUID} {generation : ℕ}
    {grant : Option SelfHealGrant} {refusal : Option String} {state : Option SelfHealState}
    (h : s.authorizeAutomaticObservation clk i generation grant refusal = .ok (state, s')) :
    s'.controls = s.controls ∨ ∃ audit, s'.controls = audit :: s.controls ∧
      audit.expectedGeneration = audit.resultingGeneration := by
  simp only [authorizeAutomaticObservation, refuse_bind_eq_ok] at h
  obtain ⟨-, h⟩ := h
  obtain ⟨scope, -, h⟩ := bind_eq_ok.1 h
  split at h
  · simp only [pure_eq_ok, Prod.mk.injEq] at h
    exact .inl (h.2 ▸ rfl)
  · split at h
    · simp only [pure_eq_ok, Prod.mk.injEq] at h
      exact .inl (h.2 ▸ rfl)
    · split at h
      · split at h
        · next authorized hauth =>
          simp only [pure_eq_ok, Prod.mk.injEq] at h
          obtain ⟨-, rfl⟩ := h
          obtain ⟨t, ht, hrest⟩ := bind_eq_ok.1 hauth
          obtain ⟨authorized', hin, hrow⟩ := bind_eq_ok.1 hrest
          rw [pure_eq_ok] at hrow
          subst hrow
          obtain ⟨row, lifecycle, session, hauthorized⟩ := authorizeSessionIn_ok hin
          have hsame : authorized'.controls = s.controls := by
            rw [hauthorized.written, (completeIdentity_ok ht).eq]
          exact .inr ⟨_, congrArg (List.cons _) hsame, rfl⟩
        · simp only [require_bind_eq_ok, pure_eq_ok, Prod.mk.injEq] at h
          obtain ⟨reason, -, -, rfl⟩ := h
          exact .inl rfl
      · simp only [pure_eq_ok, Prod.mk.injEq] at h
        exact .inl (h.2 ▸ rfl)
      · simp only [throw_eq_ok] at h

/-- **What an operation audits.** -/
theorem exec_audits (h : op.exec clk s = .ok (issued, s')) : Audits s s' := by
  have hsame : (∀ clk s, (op.event clk s).subject? = none) →
      ∀ i, s'.view.generation i = s.view.generation i := fun hop i => by
    obtain ⟨e, he, F, hprepare, hmove⟩ := exec_move h
    have hnone : e.subject? = none := by
      rcases he with rfl | rfl
      exacts [rfl, hop clk s]
    rw [hmove.generation i, hprepare.generation i, hnone]
    rfl
  by_cases hplain : op.plain = true
  · refine .nothing (exec_plain_controls h hplain) (hsame fun clk s => ?_)
    cases op <;> first | rfl | cases hplain
  cases op with
  | registerTarget =>
    refine .nothing ?_ (hsame fun _ _ => rfl)
    obtain ⟨-, a, ha⟩ := committed_eq_ok.1 h
    rcases registerTarget_ok ha with rfl | ⟨-, rfl⟩ <;> rfl
  | setTargetSuspension target fresh suspended =>
    refine .nothing ?_ (hsame fun _ _ => rfl)
    obtain ⟨-, a, ha⟩ := committed_eq_ok.1 h
    obtain ⟨t, targetId, gate, ht, -, hwrite⟩ := setTargetSuspension_ok ha
    have hgate : (t.ensureGate targetId).controls = s.controls := by
      rw [ht.eq]
      unfold ensureGate
      split <;> rfl
    rw [← hgate]
    rcases hwrite with ⟨-, rfl⟩ | ⟨-, -, rfl⟩
    · rfl
    · cases suspended <;> rfl
  | newRun =>
    obtain ⟨-, g, ha⟩ := committed_eq_ok.1 h
    rcases newRun_recorded ha with hrecorded | ⟨rfl, -⟩
    · exact .decision hrecorded
    · exact .nothing rfl fun _ => rfl
  | control =>
    obtain ⟨-, g, ha⟩ := committed_eq_ok.1 h
    exact .decision (control_recorded ha)
  | registerRemediation =>
    obtain ⟨-, g, ha⟩ := committed_eq_ok.1 h
    exact .decision (registerRemediation_recorded ha)
  | authorizeSession =>
    refine .nothing ?_ (hsame fun _ _ => rfl)
    obtain ⟨-, id, ha⟩ := committed_eq_ok.1 h
    obtain ⟨t, ht, hrest⟩ := bind_eq_ok.1 ha
    simp only [pure_eq_ok, Prod.mk.injEq] at hrest
    obtain ⟨-, rfl⟩ := hrest
    obtain ⟨incident, lifecycle, session, hauth⟩ := authorizeSessionIn_ok ht
    rw [hauth.written]
  | authorizeAutomaticObservation =>
    obtain ⟨-, a, ha⟩ := committed_eq_ok.1 h
    rcases authorizeAutomaticObservation_controls ha with hcontrols | ⟨audit, hcontrols, hstays⟩
    · exact .nothing hcontrols (hsame fun _ _ => rfl)
    · exact .authorization hcontrols hstays (hsame fun _ _ => rfl)
  | recordAutoObservationFailure =>
    refine .nothing ?_ (hsame fun _ _ => rfl)
    obtain ⟨-, a, ha⟩ := committed_eq_ok.1 h
    obtain ⟨selfHeal, rfl⟩ := recordAutoObservationFailure_ok ha
    rfl
  | revokeSessions =>
    refine .nothing ?_ (hsame fun _ _ => rfl)
    obtain ⟨-, a, ha⟩ := committed_eq_ok.1 h
    obtain ⟨incident, -, rfl⟩ := revokeSessions_ok ha
    rfl
  | claimDueSample =>
    refine .nothing ?_ (hsame fun _ _ => rfl)
    obtain ⟨a, -, ha⟩ := sampleClaimed_eq_ok.1 h
    cases claimDueSample_ok ha <;> rfl
  | submitSample =>
    refine .nothing ?_ (hsame fun _ _ => rfl)
    obtain ⟨-, a, ha⟩ := committed_eq_ok.1 h
    obtain ⟨incident, row, c, verdict, after, hsub⟩ := submitSample_ok ha
    rw [hsub.written]
    rfl
  | sweepExpiredSession =>
    refine .nothing ?_ (hsame fun _ _ => rfl)
    obtain ⟨-, a, ha⟩ := committed_eq_ok.1 h
    rcases sweepExpiredSession_ok ha with rfl | ⟨row, incident, after, -, -, -, -, -, rfl⟩ <;> rfl
  | _ => exact absurd rfl hplain

/-- **No decision is lost or counted twice.** In every reachable state the audited decisions on an
incident are its generations from one on, each once, the latest first; and no run takes anything
out of the audit. -/
theorem State.decision_ledger {σ : State} (h : system.Reachable σ) :
    (∀ i, σ.store.decisions i = (List.range' 1 (σ.store.view.generation i)).reverse) ∧
      ∀ calls τ, system.Run σ calls τ → σ.store.controls <:+ τ.store.controls := by
  refine ⟨?_, fun calls τ hrun => ?_⟩
  · exact State.store_invariant (P := Store.Ledger) (fun _ => rfl)
      (fun op clk s s' issued hs hok => (exec_audits hok).ledger hs) h
  · refine hrun.stable (P := fun τ => σ.store.controls <:+ τ.store.controls)
      (fun {ρ c ρ'} hstep hsuffix => ?_) List.suffix_rfl
    rcases State.step_cases hstep with ⟨issued, store, hok, rfl⟩ | ⟨-, rfl⟩
    · exact hsuffix.trans (exec_audits hok).suffix
    · exact hsuffix

end

namespace Scenario

/-- The incident was cancelled and then continued: two decisions. -/
theorem decision_ledger_continued :
    (State.reached continuedCalls).store.decisions 1 = [2, 1] := by
  have hreachable : system.Reachable (State.reached continuedCalls) :=
    State.reachable_reached (by decide)
  exact (State.decision_ledger hreachable).1 1

end Scenario

/-! ## Observations -/

namespace Records

/-- Sessions keep their ground, and samples and profiles stay as they are. -/
structure Kept (t t' : Records) : Prop where
  sessions : SessionsKept t.sessions t'.sessions
  samples : ∀ id row, t.samples.get id = some row → t'.samples.get id = some row
  profiles : ∀ revision row, t.profiles.get revision = some row →
    t'.profiles.get revision = some row

theorem Kept.refl (t : Records) : t.Kept t := ⟨.refl _, fun _ _ => id, fun _ _ => id⟩

theorem Kept.trans {t t' t'' : Records} (h : t.Kept t') (h' : t'.Kept t'') : t.Kept t'' :=
  ⟨h.sessions.trans h'.sessions, fun id row hrow => h'.samples id row (h.samples id row hrow),
    fun revision row hrow => h'.profiles revision row (h.profiles revision row hrow)⟩

end Records

section

variable [Texts] {op : Op} {clk : Clock} {s : Store}

theorem SessionStep.records_kept {t t' : Records} (h : SessionStep op clk s t t') :
    t.Kept t' := by
  refine ⟨h.kept, ?_, ?_⟩
  · cases h with
    | closed | authorized | leased => exact fun _ _ => id
    | submitted hop hsub =>
      obtain ⟨row', endings, sessions, -, -, -, -, hrecords⟩ := hsub.outcome
      intro id row hrow
      rw [hrecords]
      refine (Table.get_insert_ne _ _ ?_).trans hrow
      rintro rfl
      cases hsub.fresh.symm.trans hrow
  · cases h with
    | closed | leased => exact fun _ _ => id
    | authorized _ _ _ _ _ _ _ _ hprofiles => exact hprofiles.kept
    | submitted hop hsub =>
      obtain ⟨row', endings, sessions, -, -, -, -, hrecords⟩ := hsub.outcome
      rw [hrecords]
      exact fun _ _ => id

theorem SessionSteps.records_kept {t t' : Records} (h : SessionSteps op clk s t t') :
    t.Kept t' := by
  induction h with
  | refl => exact .refl _
  | tail _ hwrite ih => exact ih.trans hwrite.records_kept

/-- **What was observed stays.** In a run no stored sample and no health profile changes or goes,
and every session keeps its incident, its target, its generations and its terms. -/
theorem State.records_permanent {σ τ : State} {calls : List Call} (hrun : system.Run σ calls τ) :
    σ.store.records.Kept τ.store.records := by
  refine hrun.stable (P := fun τ => σ.store.records.Kept τ.store.records)
    (fun {ρ c ρ'} hstep h => ?_) (.refl _)
  rcases State.step_cases hstep with ⟨issued, store, hok, rfl⟩ | ⟨-, rfl⟩
  · exact h.trans (exec_sessions hok).records_kept
  · exact h

end

namespace Scenario

/-- What the first sample of the recovery left is still there after the second. -/
theorem records_permanent_recovery : (State.reached (recoveryCalls.take 5)).store.records.Kept
    (State.reached recoveryCalls).store.records := by
  have hrun : system.Run (State.reached (recoveryCalls.take 5)) (recoveryCalls.drop 5)
      (State.reached recoveryCalls) := State.run_applyAll (by decide +kernel)
  exact State.records_permanent hrun

end Scenario

/-! ## Incidents -/

namespace State

/-- **Incidents stay.** No two incidents have one key. In a run an incident keeps its intake key and
the incident it relates to, and its priority gets no less urgent. -/
theorem incidents_permanent [Texts] {σ : State} (h : system.Reachable σ) :
    KeysDistinct σ.store.incidents ∧ ∀ calls τ, system.Run σ calls τ →
      ∀ i row, σ.store.incidents.get i = some row → ∃ row', τ.store.incidents.get i = some row' ∧
        row'.intakeKey = row.intakeKey ∧ row'.relatedIncidentId = row.relatedIncidentId ∧
        row'.priority ≤ row.priority := by
  refine ⟨reachable_keysDistinct h, fun calls τ hrun i row hrow => ?_⟩
  refine hrun.stable (P := fun τ => ∃ row', τ.store.incidents.get i = some row' ∧
    row'.intakeKey = row.intakeKey ∧ row'.relatedIncidentId = row.relatedIncidentId ∧
    row'.priority ≤ row.priority) (fun {ρ c ρ'} hstep ⟨now, hnow, hkey, hrelated, hle⟩ => ?_)
    ⟨row, hrow, rfl, rfl, le_rfl⟩
  rcases step_cases hstep with ⟨issued, store, hok, rfl⟩ | ⟨-, rfl⟩
  · obtain ⟨next, hnext, hrewrites⟩ := (exec_rewrites hok).frame.kept hnow
    exact ⟨next, hnext, hrewrites.intakeKey.trans hkey, hrewrites.related.trans hrelated,
      hrewrites.urgent.trans hle⟩
  · exact ⟨now, hnow, hkey, hrelated, hle⟩

end State

namespace Scenario

/-- The continued incident is the one with its key. -/
theorem incidents_permanent_continued :
    KeysDistinct (State.reached continuedCalls).store.incidents :=
  (State.incidents_permanent (State.reachable_reached (by decide))).1

end Scenario

end OpsPilot
