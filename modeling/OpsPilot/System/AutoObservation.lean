import OpsPilot.Persistence.Events
import OpsPilot.System.Publication

/-!
# Automatic observation decisions

A pass decides, for an incident and a control generation, whether a recovery observation is
authorized without a human. A decision is open as long as it is not recorded or `retrying`: a
failure of the authorizing transaction is counted in a transaction of its own, and the last one
hands the incident to a human with an event on its timeline. Between the two transactions anything
may happen, so the store runs here beside the event log, with any other events on it.

* `SelfHealStep`: what one operation does to a decision.
* **`auto_observation`**: a settled decision is final, the attempts are bounded, the event is there
  once if the decision was handed off and never otherwise, and a decision of an older generation
  authorizes nothing.
-/

namespace OpsPilot

/-- `AUTO_OBSERVATION_MAX_ATTEMPTS`. -/
def autoObservationMaxAttempts : ℕ := 5

/-- `AUTO_OBSERVATION_HANDED_OFF`. -/
def autoObservationHandedOff : String := "auto_observation_handed_off"

/-- The decision an operation is about. -/
def Op.decision : Op → Option (UUID × ℕ)
  | .authorizeAutomaticObservation incidentId generation _ _ => some (incidentId, generation)
  | .recordAutoObservationFailure incidentId generation _ => some (incidentId, generation)
  | _ => none

/-! ## One operation -/

/-- A decision that may still be made: it is not recorded, or a retry. -/
def Undecided (old : Option SelfHealRow) : Prop := ∀ row ∈ old, row.state = .retrying

/-- What an operation does to a decision: nothing, or it settles an open one, or it counts one more
failure of it. -/
inductive SelfHealStep : Option SelfHealRow → Option SelfHealRow → Prop
  | same (old : Option SelfHealRow) : SelfHealStep old old
  | settled {old : Option SelfHealRow} {row : SelfHealRow} (hopen : Undecided old)
      (hstate : row.state = .authorized ∨ row.state = .skipped)
      (hattempts : row.attempts = old.elim 0 SelfHealRow.attempts) : SelfHealStep old (some row)
  | failed {old : Option SelfHealRow} {row : SelfHealRow} {reason : String} {now : Time}
      (hopen : Undecided old) (hrow : row.state = .retrying)
      (hattempts : row.attempts = old.elim 0 SelfHealRow.attempts) :
      SelfHealStep old (some (Store.SelfHealRow.failed row reason now))

variable {new old : Option SelfHealRow}

/-- A settled decision is final. -/
theorem SelfHealStep.final {old : SelfHealRow} (h : SelfHealStep (some old) new)
    (hold : old.state ≠ .retrying) : new = some old := by
  cases h with
  | same => rfl
  | settled hopen | failed hopen => exact absurd (hopen old rfl) hold

/-- The attempts are bounded, and a decision that may be tried again has some left. -/
def AttemptsBounded (decision : Option SelfHealRow) : Prop :=
  ∀ row ∈ decision, row.attempts ≤ autoObservationMaxAttempts ∧
    (row.state = .retrying → row.attempts < autoObservationMaxAttempts)

theorem AttemptsBounded.undecided (h : AttemptsBounded old) (hopen : Undecided old) :
    old.elim 0 SelfHealRow.attempts < autoObservationMaxAttempts := by
  cases old with
  | none => decide
  | some row => exact (h row rfl).2 (hopen row rfl)

theorem AttemptsBounded.step (h : AttemptsBounded old) (hstep : SelfHealStep old new) :
    AttemptsBounded new := by
  cases hstep with
  | same => exact h
  | settled hopen hstate hattempts =>
    have hlt := h.undecided hopen
    rintro row ⟨⟩
    refine ⟨by omega, fun hretrying => ?_⟩
    rcases hstate with hstate | hstate <;> rw [hstate] at hretrying <;> cases hretrying
  | failed hopen _ hattempts =>
    have hlt := h.undecided hopen
    rintro row ⟨⟩
    simp only [Store.SelfHealRow.failed, autoObservationMaxAttempts] at *
    refine ⟨by omega, fun hretrying => ?_⟩
    by_contra hge
    rw [if_pos (by omega)] at hretrying
    cases hretrying

namespace Store

variable {s s' : Store} {clk : Clock} {incidentId : UUID} {generation : ℕ}

theorem get_recordAutoObservation (s : Store) (key k : UUID × ℕ) (state : SelfHealState)
    (reason : Option String) (sessionId : Option UUID) :
    (s.recordAutoObservation key state reason sessionId).selfHeal.get k =
      if k = key then some { state, reason, sessionId
                             attempts := (s.selfHeal.get key).elim 0 SelfHealRow.attempts }
      else s.selfHeal.get k := by
  simp only [recordAutoObservation]
  cases hget : s.selfHeal.get key with
  | none =>
    dsimp only [Option.elim_none]
    rw [Table.get_insert]
  | some row =>
    dsimp only [Option.elim_some]
    rw [Table.get_modify]
    split
    · next hk => rw [hk, hget, Option.map_some]
    · rfl

/-- An automatic authorization writes no decision. -/
theorem authorizeAutomaticIn_selfHeal [Texts] {targetId : UUID} {grant : SelfHealGrant}
    (h : s.authorizeAutomaticIn clk incidentId targetId generation grant = .ok s') :
    s'.selfHeal = s.selfHeal := by
  obtain ⟨t, ht, hrest⟩ := bind_eq_ok.1 h
  obtain ⟨authorized, hin, hrow⟩ := bind_eq_ok.1 hrest
  rw [pure_eq_ok] at hrow
  subst hrow
  obtain ⟨row, lifecycle, session, hauthorized⟩ := authorizeSessionIn_ok hin
  dsimp only
  rw [hauthorized.written, (completeIdentity_ok ht).eq]

/-- How an automatic decision ends: left to a later pass, skipped, or authorized under the
generation it was started for. -/
theorem authorizeAutomaticObservation_decides [Texts] {grant : Option SelfHealGrant}
    {refusal : Option String} {state : Option SelfHealState}
    (h : s.authorizeAutomaticObservation clk incidentId generation grant refusal =
      .ok (state, s')) :
    s' = s ∨ Undecided (s.selfHeal.get (incidentId, generation)) ∧
      ∃ row, row.attempts = (s.selfHeal.get (incidentId, generation)).elim 0 SelfHealRow.attempts ∧
        (∀ k, s'.selfHeal.get k = if k = (incidentId, generation) then some row
          else s.selfHeal.get k) ∧
        (row.state = .skipped ∧ s'.sessions = s.sessions ∨ row.state = .authorized ∧
          ∃ incident, s.incidents.get incidentId = some incident ∧
            incident.controlGeneration = generation) := by
  simp only [authorizeAutomaticObservation, refuse_bind_eq_ok] at h
  obtain ⟨-, h⟩ := h
  obtain ⟨scope, -, h⟩ := bind_eq_ok.1 h
  split at h
  · simp only [pure_eq_ok, Prod.mk.injEq] at h
    exact .inl h.2.symm
  · next incident hinc =>
    split at h
    · simp only [pure_eq_ok, Prod.mk.injEq] at h
      exact .inl h.2.symm
    · next hdecided =>
      have hopen : Undecided (s.selfHeal.get (incidentId, generation)) := by
        intro row hrow
        rw [Option.mem_def] at hrow
        simp only [autoDecided, hrow, Option.any_some, decide_eq_true_eq, not_or, not_not]
          at hdecided
        exact hdecided.1
      refine .inr ⟨hopen, ?_⟩
      split at h
      · next grant targetId hreason _ _ =>
        split at h
        · next authorized hauth =>
          simp only [pure_eq_ok, Prod.mk.injEq] at h
          obtain ⟨-, rfl⟩ := h
          refine ⟨{ state := .authorized, reason := none, sessionId := some grant.sessionId
                    attempts := (s.selfHeal.get _).elim 0 SelfHealRow.attempts }, rfl,
            fun k => ?_, .inr ⟨rfl, incident, hinc, ?_⟩⟩
          · rw [get_recordAutoObservation, authorizeAutomaticIn_selfHeal hauth]
          · -- the first reason of the refusals did not apply
            by_contra hgen
            simp [autoObservationRefusal, hgen] at hreason
        · simp only [require_bind_eq_ok, pure_eq_ok, Prod.mk.injEq] at h
          obtain ⟨reason, -, -, rfl⟩ := h
          exact ⟨_, rfl, fun k => get_recordAutoObservation .., .inl ⟨rfl, rfl⟩⟩
      · simp only [pure_eq_ok, Prod.mk.injEq] at h
        obtain ⟨-, rfl⟩ := h
        exact ⟨_, rfl, fun k => get_recordAutoObservation .., .inl ⟨rfl, rfl⟩⟩
      · simp only [throw_eq_ok] at h

/-- How a counted failure ends: the decision is settled already, it is settled without counting, or
it has one more attempt. -/
theorem recordAutoObservationFailure_decides {reason : String} {state : SelfHealState}
    (h : s.recordAutoObservationFailure clk incidentId generation reason = .ok (state, s')) :
    (¬ Undecided (s.selfHeal.get (incidentId, generation)) ∧ s' = s) ∨
      ∃ new, SelfHealStep (s.selfHeal.get (incidentId, generation)) (some new) ∧
        new.state ≠ .authorized ∧ Undecided (s.selfHeal.get (incidentId, generation)) ∧
        s'.sessions = s.sessions ∧
        ∀ k, s'.selfHeal.get k = if k = (incidentId, generation) then some new
          else s.selfHeal.get k := by
  simp only [recordAutoObservationFailure, refuse_bind_eq_ok] at h
  obtain ⟨-, h⟩ := h
  obtain ⟨-, -, h⟩ := bind_eq_ok.1 h
  simp only [require_bind_eq_ok] at h
  obtain ⟨incident, -, h⟩ := h
  split at h
  · next hsettled =>
    simp only [pure_eq_ok, Prod.mk.injEq] at h
    refine .inl ⟨fun hopen => hsettled ?_, h.2.symm⟩
    cases hget : s.selfHeal.get (incidentId, generation) with
    | none => rfl
    | some row => exact hopen row hget
  · next hretrying =>
    rw [not_not] at hretrying
    have hopen : Undecided (s.selfHeal.get (incidentId, generation)) := by
      intro row hrow
      rw [Option.mem_def] at hrow
      rwa [hrow] at hretrying
    refine .inr ?_
    split at h
    · simp only [pure_eq_ok, Prod.mk.injEq] at h
      obtain ⟨-, rfl⟩ := h
      exact ⟨_, .settled hopen (.inr rfl) rfl, by simp, hopen, rfl,
        fun k => get_recordAutoObservation ..⟩
    · split at h <;> simp only [pure_eq_ok, Prod.mk.injEq] at h <;> obtain ⟨-, rfl⟩ := h
      · exact ⟨_, .settled hopen (.inr rfl) rfl, by simp, hopen, rfl,
          fun k => get_recordAutoObservation ..⟩
      · refine ⟨_, .failed hopen hretrying ?_, ?_, hopen, rfl, fun k => Table.get_insert ..⟩
        · cases s.selfHeal.get (incidentId, generation) <;> rfl
        · unfold SelfHealRow.failed
          dsimp only
          split <;> simp

end Store

open Store in
/-- **Every other operation leaves the decisions alone.** -/
theorem exec_selfHeal [Texts] {op : Op} {clk : Clock} {s s' : Store} {issued : Issued}
    (h : op.exec clk s = .ok (issued, s')) (hop : op.decision = none) :
    s'.selfHeal = s.selfHeal := by
  by_cases hplain : op.plain = true
  · exact (exec_beside h hplain).selfHeal
  cases op with
  | registerTarget resourceUid targetId fresh =>
    obtain ⟨-, a, ha⟩ := committed_eq_ok.1 h
    rcases registerTarget_ok ha with rfl | ⟨-, rfl⟩ <;> rfl
  | newRun n =>
    obtain ⟨-, a, ha⟩ := committed_eq_ok.1 h
    rcases newRun_ok ha with ⟨rfl, -⟩ | ⟨incident, suspended, -, -, -, -, -, -, -, rfl⟩ <;> rfl
  | setTargetSuspension target fresh suspended expected actor =>
    obtain ⟨-, a, ha⟩ := committed_eq_ok.1 h
    obtain ⟨t, targetId, gate, ht, -, hwrite⟩ := setTargetSuspension_ok ha
    have hgate : (t.ensureGate targetId).selfHeal = s.selfHeal := by
      rw [ht.eq]
      unfold ensureGate
      split <;> rfl
    rw [← hgate]
    rcases hwrite with ⟨-, rfl⟩ | ⟨-, -, rfl⟩
    · rfl
    · cases suspended <;> rfl
  | control r =>
    obtain ⟨-, a, ha⟩ := committed_eq_ok.1 h
    obtain ⟨incident, -, -, -, hdecided⟩ := control_ok ha
    cases hdecided with
    | close | reopen | takeover | renew => rfl
    | rebind _ _ hreg => rcases hreg with rfl | ⟨-, toUid, rfl⟩ <;> rfl
    | merge _ _ _ ht hinput =>
      subst ht
      rcases hinput with rfl | ⟨-, rfl⟩ <;> rfl
    | @direct suspended =>
      have hdirect : (s.direct clk r incident suspended).selfHeal = s.selfHeal := by
        simp only [direct]
        split <;> rfl
      split <;> exact hdirect
  | authorizeSession a =>
    obtain ⟨-, id, ha⟩ := committed_eq_ok.1 h
    obtain ⟨t, ht, hrest⟩ := bind_eq_ok.1 ha
    simp only [pure_eq_ok, Prod.mk.injEq] at hrest
    obtain ⟨-, rfl⟩ := hrest
    obtain ⟨incident, lifecycle, session, hauth⟩ := authorizeSessionIn_ok ht
    rw [hauth.written]
  | registerRemediation r =>
    obtain ⟨-, a, ha⟩ := committed_eq_ok.1 h
    obtain ⟨t, authorized, incident, row, session, audit, ht, -, -, -, -, -, -, -, hauth, rfl⟩ :=
      registerRemediation_ok ha
    dsimp only
    rw [hauth.written, ht.eq]
    rfl
  | revokeSessions incidentId =>
    obtain ⟨-, a, ha⟩ := committed_eq_ok.1 h
    obtain ⟨incident, -, rfl⟩ := revokeSessions_ok ha
    rfl
  | claimDueSample sessionId owner leaseSeconds =>
    obtain ⟨a, -, ha⟩ := sampleClaimed_eq_ok.1 h
    cases claimDueSample_ok ha <;> rfl
  | submitSample lease sample readings sampleId jobId =>
    obtain ⟨-, a, ha⟩ := committed_eq_ok.1 h
    obtain ⟨incident, row, c, verdict, after, hsub⟩ := submitSample_ok ha
    rw [hsub.written]
    rfl
  | sweepExpiredSession sessionId =>
    obtain ⟨-, a, ha⟩ := committed_eq_ok.1 h
    rcases sweepExpiredSession_ok ha with rfl | ⟨row, incident, after, -, -, -, -, -, rfl⟩ <;> rfl
  | authorizeAutomaticObservation | recordAutoObservationFailure => cases hop
  | _ => exact absurd rfl hplain

section

variable [Texts] {op : Op} {clk : Clock} {s s' : Store} {issued : Issued} {key : UUID × ℕ}

/-- An operation takes one step with the decision it is about, and none with the others. -/
theorem exec_decision (h : op.exec clk s = .ok (issued, s')) (key : UUID × ℕ) :
    SelfHealStep (s.selfHeal.get key) (s'.selfHeal.get key) ∧
      (op.decision ≠ some key → s'.selfHeal.get key = s.selfHeal.get key) := by
  cases hop : op.decision with
  | none =>
    rw [exec_selfHeal h hop]
    exact ⟨.same _, fun _ => rfl⟩
  | some about =>
    rw [ne_eq, Option.some.injEq, eq_comm]
    cases op with
    | authorizeAutomaticObservation incidentId generation grant refusal =>
      obtain rfl := Option.some.inj hop
      obtain ⟨-, state, ha⟩ := committed_eq_ok.1 h
      rcases Store.authorizeAutomaticObservation_decides ha with
        rfl | ⟨hopen, row, hattempts, hget, hstate⟩
      · exact ⟨.same _, fun _ => rfl⟩
      · rw [hget]
        refine ⟨?_, fun hk => if_neg hk⟩
        split
        · next hk =>
          subst hk
          refine .settled hopen ?_ hattempts
          exact hstate.symm.imp And.left And.left
        · exact .same _
    | recordAutoObservationFailure incidentId generation reason =>
      obtain rfl := Option.some.inj hop
      obtain ⟨-, state, ha⟩ := committed_eq_ok.1 h
      rcases Store.recordAutoObservationFailure_decides ha with
        ⟨-, rfl⟩ | ⟨new, hstep, -, -, -, hget⟩
      · exact ⟨.same _, fun _ => rfl⟩
      · rw [hget]
        refine ⟨?_, fun hk => if_neg hk⟩
        split
        · next hk =>
          subst hk
          exact hstep
        · exact .same _
    | _ => cases hop

/-- A decision is authorized while the generation it was started for is the incident's. -/
theorem exec_authorized (h : op.exec clk s = .ok (issued, s')) {row : SelfHealRow}
    (hrow : s'.selfHeal.get key = some row) (hstate : row.state = .authorized) :
    s.selfHeal.get key = some row ∨ ∃ incident, s.incidents.get key.1 = some incident ∧
      incident.controlGeneration = key.2 := by
  by_cases hop : op.decision = some key
  · cases op with
    | authorizeAutomaticObservation incidentId generation grant refusal =>
      obtain rfl := Option.some.inj hop
      obtain ⟨-, state, ha⟩ := committed_eq_ok.1 h
      rcases Store.authorizeAutomaticObservation_decides ha with
        rfl | ⟨-, new, -, hget, ⟨hskipped, -⟩ | ⟨-, hcurrent⟩⟩
      · exact .inl hrow
      · rw [hget, if_pos rfl, Option.some.injEq] at hrow
        rw [← hrow, hskipped] at hstate
        cases hstate
      · exact .inr hcurrent
    | recordAutoObservationFailure incidentId generation reason =>
      obtain rfl := Option.some.inj hop
      obtain ⟨-, state, ha⟩ := committed_eq_ok.1 h
      rcases Store.recordAutoObservationFailure_decides ha with
        ⟨-, rfl⟩ | ⟨new, -, hnew, -, -, hget⟩
      · exact .inl hrow
      · rw [hget, if_pos rfl, Option.some.injEq] at hrow
        exact absurd (hrow ▸ hstate) hnew
    | _ => cases hop
  · exact .inl (((exec_decision h key).2 hop).symm.trans hrow)

/-- A decision of a generation that is not the incident's authorizes no session. -/
theorem exec_stale {incidentId : UUID} {generation : ℕ} {grant : Option SelfHealGrant}
    {refusal : Option String}
    (h : (Op.authorizeAutomaticObservation incidentId generation grant refusal).exec clk s =
      .ok (issued, s')) {incident : IncidentRow} (hinc : s.incidents.get incidentId = some incident)
    (hgen : incident.controlGeneration ≠ generation) : s'.sessions = s.sessions := by
  obtain ⟨-, state, ha⟩ := committed_eq_ok.1 h
  rcases Store.authorizeAutomaticObservation_decides ha with
    rfl | ⟨-, new, -, -, ⟨-, hsessions⟩ | ⟨-, incident', hinc', hgen'⟩⟩
  · rfl
  · exact hsessions
  · obtain rfl := Option.some.inj (hinc.symm.trans hinc')
    exact absurd hgen' hgen

/-- A decision is handed off by a counted failure of it, and by nothing else. -/
theorem exec_handedOff (h : op.exec clk s = .ok (issued, s'))
    (hop : ∀ reason, op ≠ .recordAutoObservationFailure key.1 key.2 reason) :
    (s'.selfHeal.get key).any (·.state = .handedOff) =
      (s.selfHeal.get key).any (·.state = .handedOff) := by
  by_cases habout : op.decision = some key
  · cases op with
    | authorizeAutomaticObservation incidentId generation grant refusal =>
      obtain rfl := Option.some.inj habout
      obtain ⟨-, state, ha⟩ := committed_eq_ok.1 h
      rcases Store.authorizeAutomaticObservation_decides ha with
        rfl | ⟨hopen, new, -, hget, hstate⟩
      · rfl
      · rw [hget, if_pos rfl, Option.any_some]
        have hold : (s.selfHeal.get (incidentId, generation)).any (·.state = .handedOff) =
            false := by
          cases hrow : s.selfHeal.get (incidentId, generation) with
          | none => rfl
          | some row => simp [hopen row hrow]
        rw [hold]
        rcases hstate with ⟨hstate, -⟩ | ⟨hstate, -⟩ <;> rw [hstate] <;> rfl
    | recordAutoObservationFailure incidentId generation reason =>
      obtain rfl := Option.some.inj habout
      exact absurd rfl (hop reason)
    | _ => cases habout
  · rw [(exec_decision h key).2 habout]

end

/-! ## The store and the event log -/

/-- The payload of the event that announces a hand-off. -/
def SelfHealRow.handOff (row : SelfHealRow) (generation : ℕ) : List (String × Json) :=
  [("attempts", .num row.attempts), ("control_generation", .num generation),
    ("reason", row.reason.elim .null .str)]

/-- The decision a counted failure exhausted, if it did. -/
def Store.exhausted (s s' : Store) (key : UUID × ℕ) : Option SelfHealRow :=
  (s'.selfHeal.get key).filter fun row =>
    row.state = .handedOff ∧ (s.selfHeal.get key).all (·.state = .retrying)

/-- The event log after the transaction of a call. A hand-off is announced in the transaction that
records it. -/
def Call.events (call : Call) (s s' : Store) (log : EventLog) : Except Code EventLog :=
  match call.op with
  | .recordAutoObservationFailure incidentId generation _ =>
    match s.exhausted s' (incidentId, generation) with
    | some row => (log.appendOnceIn incidentId autoObservationHandedOff (row.handOff generation)
        (some [("control_generation", .num generation)])).map Prod.snd
    | none => .ok log
  | _ => .ok log

/-- The store and the event log. -/
structure Timeline where
  state : State
  log : EventLog := []

/-- What happens to them: an operation of the store, or an event somebody appends. -/
inductive TimelineCall
  | store (call : Call)
  | append (subjectId : UUID) (kind : String) (payload : List (String × Json))
  | appendOnce (subjectId : UUID) (kind : String) (payload : List (String × Json))
      (key : Option (List (String × Json)))

namespace Timeline

/-- The decision recorded for an incident and a control generation. -/
def decision (σ : Timeline) (key : UUID × ℕ) : Option SelfHealRow := σ.state.store.selfHeal.get key

/-- The events that announce the hand-off of a decision. -/
def handOffs (σ : Timeline) (key : UUID × ℕ) : List SubjectEvent :=
  σ.log.retained key.1 autoObservationHandedOff [("control_generation", .num key.2)]

/-- An event that is appended, if it passes the check. -/
def appended (σ : Timeline) (result : Except Code (ℕ × EventLog)) : Timeline :=
  { σ with log := (result.toOption.map Prod.snd).getD σ.log }

/-- An operation of the store with what its transaction appends. -/
def exec [Texts] (σ : Timeline) (call : Call) : Except Code (Issued × Store × EventLog) := do
  let (issued, store) ← call.op.exec call.clock σ.state.store
  let log ← call.events σ.state.store store σ.log
  pure (issued, store, log)

/-- The state after a call. -/
def apply [Texts] (σ : Timeline) : TimelineCall → Timeline
  | .store call =>
    match σ.exec call with
    | .ok (issued, store, log) =>
      { state := {
          store
          now := call.clock.later
          leases := issued.lease.toList ++ σ.state.leases
          sampleLeases := issued.sampleLease.toList ++ σ.state.sampleLeases }
        log }
    | .error _ => { σ with state := { σ.state with now := call.clock.later } }
  | .append subjectId kind payload => σ.appended (σ.log.append subjectId kind payload)
  | .appendOnce subjectId kind payload key =>
    σ.appended (σ.log.appendOnceIn subjectId kind payload key)

/-- The clock does not go back, samples have their leases, and a hand-off is announced by the store
alone. -/
def Admits [Texts] (σ : Timeline) : TimelineCall → Prop
  | .store call => σ.state.now ≤ call.clock.now ∧ σ.state.Admits call.op
  | .append _ kind _ => kind ≠ autoObservationHandedOff
  | .appendOnce _ kind _ _ => kind ≠ autoObservationHandedOff

instance [Texts] (σ : Timeline) : (call : TimelineCall) → Decidable (σ.Admits call)
  | .store call =>
    inferInstanceAs (Decidable (σ.state.now ≤ call.clock.now ∧ σ.state.Admits call.op))
  | .append _ kind _ => inferInstanceAs (Decidable (kind ≠ autoObservationHandedOff))
  | .appendOnce _ kind _ _ => inferInstanceAs (Decidable (kind ≠ autoObservationHandedOff))

end Timeline

/-- The transition system of the store beside the event log. -/
def timelineSystem [Texts] : LTS Timeline TimelineCall where
  Init σ := system.Init σ.state ∧ σ.log = ([] : List SubjectEvent)
  Step σ call τ := σ.Admits call ∧ τ = σ.apply call

section

variable {s s' : Store} {log log' : EventLog} {call : Call} {key : UUID × ℕ}

/-- A transaction appends nothing, or announces the decision it exhausted unless that was
announced. -/
theorem Call.events_ok (h : call.events s s' log = .ok log') :
    (log' = log ∧ ∀ incidentId generation reason,
      call.op = .recordAutoObservationFailure incidentId generation reason →
        s.exhausted s' (incidentId, generation) = none) ∨
    ∃ incidentId generation reason row sequence,
      call.op = .recordAutoObservationFailure incidentId generation reason ∧
      s.exhausted s' (incidentId, generation) = some row ∧
      log.appendOnceIn incidentId autoObservationHandedOff (row.handOff generation)
        (some [("control_generation", .num generation)]) = .ok (sequence, log') := by
  unfold Call.events at h
  split at h
  · next incidentId generation reason hop =>
    cases hexhausted : s.exhausted s' (incidentId, generation) with
    | some row =>
      rw [hexhausted] at h
      dsimp only at h
      cases happend : log.appendOnceIn incidentId autoObservationHandedOff
          (row.handOff generation) (some [("control_generation", .num generation)]) with
      | error code =>
        rw [happend] at h
        cases h
      | ok result =>
        rw [happend] at h
        cases h
        exact .inr ⟨incidentId, generation, reason, row, result.1, hop, hexhausted, happend⟩
    | none =>
      rw [hexhausted] at h
      cases h
      refine .inl ⟨rfl, fun id g r hop' => ?_⟩
      cases hop.symm.trans hop'
      exact hexhausted
  · next hop =>
    cases h
    exact .inl ⟨rfl, fun id g r hop' => (hop id g r hop').elim⟩

/-- What a transaction appends always can be appended. -/
theorem Call.events_total (call : Call) (s s' : Store) (log : EventLog) :
    ∃ log', call.events s s' log = .ok log' := by
  unfold Call.events
  split
  · split
    · next row _ =>
      have hkind : checkEvent autoObservationHandedOff = .ok () := by decide
      obtain ⟨result, hresult⟩ := EventLog.appendOnceIn_total hkind
      rw [hresult]
      exact ⟨_, rfl⟩
    · exact ⟨_, rfl⟩
  · exact ⟨_, rfl⟩

end

namespace Timeline

variable [Texts] {σ τ : Timeline} {call : Call} {key : UUID × ℕ}

/-- The store takes the steps it takes without the log. -/
theorem apply_store_state (σ : Timeline) (call : Call) :
    (σ.apply (.store call)).state = σ.state.apply call := by
  simp only [apply, exec, State.apply]
  cases hexec : call.op.exec call.clock σ.state.store with
  | error code => rfl
  | ok result =>
    obtain ⟨issued, store⟩ := result
    obtain ⟨log, hlog⟩ := call.events_total σ.state.store store σ.log
    simp only [bind, Except.bind, hlog, pure, Except.pure]

variable {label : TimelineCall} {calls : List TimelineCall}

/-- What a step does to the store and to the log. -/
theorem step_cases (h : timelineSystem.Step σ label τ) :
    (∃ call, label = .store call ∧ system.Step σ.state call τ.state ∧
      ((∃ issued store, call.op.exec call.clock σ.state.store = .ok (issued, store) ∧
        τ.state.store = store ∧ call.events σ.state.store store σ.log = .ok τ.log) ∨
      τ.state.store = σ.state.store ∧ τ.log = σ.log)) ∨
    (τ.state = σ.state ∧ ∀ subjectId key, τ.log.retained subjectId autoObservationHandedOff key =
      σ.log.retained subjectId autoObservationHandedOff key) := by
  obtain ⟨hadmits, rfl⟩ := h
  cases label with
  | store call =>
    refine .inl ⟨call, rfl, ⟨hadmits.1, hadmits.2, apply_store_state σ call⟩, ?_⟩
    simp only [apply, exec]
    cases hexec : call.op.exec call.clock σ.state.store with
    | error code => exact .inr ⟨rfl, rfl⟩
    | ok result =>
      obtain ⟨issued, store⟩ := result
      obtain ⟨log, hlog⟩ := call.events_total σ.state.store store σ.log
      simp only [bind, Except.bind, hlog, pure, Except.pure]
      exact .inl ⟨issued, store, rfl, rfl, hlog⟩
  | append subjectId kind payload =>
    refine .inr ⟨rfl, fun other wanted => ?_⟩
    simp only [apply, appended]
    cases happend : σ.log.append subjectId kind payload with
    | error code => rfl
    | ok result =>
      obtain ⟨sequence, log'⟩ := result
      simp only [Except.toOption, Option.map_some, Option.getD_some, EventLog.append_ok happend]
      exact EventLog.retained_written_ne hadmits
  | appendOnce subjectId kind payload key =>
    refine .inr ⟨rfl, fun other wanted => ?_⟩
    simp only [apply, appended]
    cases happend : σ.log.appendOnceIn subjectId kind payload key with
    | error code => rfl
    | ok result =>
      obtain ⟨sequence, log'⟩ := result
      simp only [Except.toOption, Option.map_some, Option.getD_some]
      exact EventLog.retained_appendOnceIn_ne hadmits happend

/-! ### What a run keeps -/

theorem step_decision (h : timelineSystem.Step σ label τ) (key : UUID × ℕ) :
    SelfHealStep (σ.decision key) (τ.decision key) := by
  rcases step_cases h with ⟨call, -, -, ⟨issued, store, hexec, hstore, -⟩ | ⟨hstore, -⟩⟩ |
    ⟨hstate, -⟩
  · simp only [decision, hstore]
    exact (exec_decision hexec key).1
  · simp only [decision, hstore]
    exact .same _
  · simp only [decision, hstate]
    exact .same _

/-- The attempts of every decision are bounded. -/
theorem reachable_attempts (h : timelineSystem.Reachable σ) (key : UUID × ℕ) :
    AttemptsBounded (σ.decision key) := by
  refine h.invariant (P := fun σ => AttemptsBounded (σ.decision key)) (fun σ hinit => ?_)
    fun hstep hbounded => hbounded.step (step_decision hstep key)
  intro row hrow
  rw [decision, hinit.1.1] at hrow
  cases hrow

/-- A settled decision outlives every run. -/
theorem settled_final {row : SelfHealRow} (hrow : σ.decision key = some row)
    (hstate : row.state ≠ .retrying) (hrun : timelineSystem.Run σ calls τ) :
    τ.decision key = some row := by
  refine hrun.stable (P := fun σ => σ.decision key = some row) (fun hstep hfound => ?_) hrow
  have hdecision := step_decision hstep key
  rw [hfound] at hdecision
  exact hdecision.final hstate

omit [Texts] in
/-- The event of another decision is not one of this. -/
theorem retained_handOff_ne {incidentId : UUID} {generation : ℕ} {payload : SelfHealRow}
    {log log' : EventLog} {sequence : ℕ} (hkey : key ≠ (incidentId, generation))
    (h : log.appendOnceIn incidentId autoObservationHandedOff (payload.handOff generation)
      (some [("control_generation", .num generation)]) = .ok (sequence, log')) :
    log'.retained key.1 autoObservationHandedOff [("control_generation", .num key.2)] =
      log.retained key.1 autoObservationHandedOff [("control_generation", .num key.2)] := by
  rcases EventLog.appendOnceIn_ok h with ⟨-, rfl⟩ | ⟨-, rfl⟩
  · rfl
  · have hnone : EventLog.retained [⟨incidentId, log.nextSequence incidentId,
        autoObservationHandedOff, payload.handOff generation⟩] key.1 autoObservationHandedOff
          [("control_generation", .num key.2)] = [] := by
      refine List.filter_eq_nil_iff.2 fun e he => ?_
      rw [List.mem_singleton] at he
      subst he
      intro hfound
      simp [SubjectEvent.answers, SubjectEvent.contains, SelfHealRow.handOff,
        List.lookup_cons] at hfound
      exact hkey (Prod.ext hfound.1.symm hfound.2.symm)
    rw [EventLog.retained_written, hnone, List.append_nil]

omit [Texts] in
/-- The event of a decision is one of it. -/
theorem retained_handOff (log : EventLog) (payload : SelfHealRow) :
    ((log.written key.1 autoObservationHandedOff (payload.handOff key.2)).retained key.1
      autoObservationHandedOff [("control_generation", .num key.2)]).length =
      (log.retained key.1 autoObservationHandedOff [("control_generation", .num key.2)]).length +
        1 := by
  rw [EventLog.retained_written, List.length_append]
  simp [EventLog.retained, SubjectEvent.answers, SubjectEvent.contains, SelfHealRow.handOff,
    List.lookup_cons]

/-- The hand-off of a decision is announced once if it happened, and not otherwise. -/
def Announced (σ : Timeline) (key : UUID × ℕ) : Prop :=
  (σ.handOffs key).length = if (σ.decision key).any (·.state = .handedOff) then 1 else 0

/-- **A step announces the hand-off it makes.** -/
theorem Announced.step (hstep : timelineSystem.Step σ label τ) (h : σ.Announced key) :
    τ.Announced key := by
  unfold Announced handOffs decision at *
  rcases step_cases hstep with
    ⟨call, -, -, ⟨issued, store, hexec, hstore, hlog⟩ | ⟨hstore, hlog⟩⟩ | ⟨hstate, hlog⟩
  · rw [hstore]
    by_cases hop : ∃ reason, call.op = .recordAutoObservationFailure key.1 key.2 reason
    · obtain ⟨reason, hop⟩ := hop
      rw [hop] at hexec
      obtain ⟨-, state, ha⟩ := committed_eq_ok.1 hexec
      rcases Store.recordAutoObservationFailure_decides ha with
        ⟨hsettled, rfl⟩ | ⟨new, -, -, hopen, -, hget⟩
      · -- a settled decision is not exhausted again
        rcases Call.events_ok hlog with ⟨hlog, -⟩ | ⟨id, g, r, row, n, hop', hexhausted, -⟩
        · rw [hlog, h]
        · cases hop.symm.trans hop'
          obtain ⟨hrow, hall⟩ := Option.filter_eq_some_iff.1 hexhausted
          simp only [decide_eq_true_eq, Option.all_eq_true] at hall
          exact absurd hall.2 hsettled
      · have hold : (σ.state.store.selfHeal.get key).any (·.state = .handedOff) = false := by
          cases hrow : σ.state.store.selfHeal.get key with
          | none => rfl
          | some row => simp [hopen row hrow]
        rw [hold] at h
        rw [hget, if_pos rfl, Option.any_some]
        rcases Call.events_ok hlog with ⟨hlog, hnone⟩ |
          ⟨id, g, r, row, n, hop', hexhausted, happend⟩
        · have hnot := hnone _ _ _ hop
          rw [Store.exhausted, hget, if_pos rfl, Option.filter_eq_none_iff] at hnot
          have hnew : new.state ≠ .handedOff := by
            intro hnew
            refine hnot new rfl ?_
            rw [decide_eq_true_eq, Option.all_eq_true]
            exact ⟨hnew, fun row hrow => decide_eq_true (hopen row hrow)⟩
          rw [hlog, h]
          simp [hnew]
        · cases hop.symm.trans hop'
          obtain ⟨hrow, hall⟩ := Option.filter_eq_some_iff.1 hexhausted
          rw [hget, if_pos rfl, Option.some.injEq] at hrow
          subst hrow
          rw [decide_eq_true_eq] at hall
          rcases EventLog.appendOnceIn_ok happend with ⟨hretained, -⟩ | ⟨-, hwritten⟩
          · exact absurd (List.length_eq_zero_iff.1 h) hretained
          · rw [hwritten, retained_handOff, h, hall.1]
            rfl
    · rw [not_exists] at hop
      rw [exec_handedOff hexec hop, ← h]
      rcases Call.events_ok hlog with ⟨hlog, -⟩ | ⟨id, g, r, row, n, hop', -, happend⟩
      · rw [hlog]
      · rw [retained_handOff_ne ?_ happend]
        rintro rfl
        exact hop r hop'
  · rw [hstore, hlog]
    exact h
  · rw [hstate, hlog]
    exact h

theorem reachable_announced (h : timelineSystem.Reachable σ) (key : UUID × ℕ) :
    σ.Announced key := by
  refine h.invariant (P := fun σ => σ.Announced key) (fun σ hinit => ?_) .step
  rw [Announced, handOffs, decision, hinit.1.1, hinit.2]
  rfl

/-- The generation of an incident never goes back. -/
theorem step_generation (h : timelineSystem.Step σ label τ) {incidentId : UUID} {generation : ℕ}
    (hpast : ∃ incident, σ.state.store.incidents.get incidentId = some incident ∧
      generation < incident.controlGeneration) :
    ∃ incident, τ.state.store.incidents.get incidentId = some incident ∧
      generation < incident.controlGeneration := by
  obtain ⟨incident, hinc, hlt⟩ := hpast
  rcases step_cases h with ⟨call, -, hstep, -⟩ | ⟨hstate, -⟩
  · obtain ⟨F, hprepare, hmove⟩ := State.step_advances hstep
    obtain ⟨sub₁, hsub₁, hgen₁, -⟩ := hprepare.subject _ _ (subjectsOf_get hinc)
    obtain ⟨sub₂, hsub₂, hgen₂, -⟩ := hmove.subject _ _ hsub₁
    obtain ⟨incident', hinc', rfl⟩ := subjectsOf_eq_some.1 hsub₂
    exact ⟨incident', hinc', hlt.trans_le (hgen₁.trans hgen₂)⟩
  · exact ⟨incident, hstate ▸ hinc, hlt⟩

/-- Once the generation of an incident has moved past the one a decision was started for, a run
leaves that decision without a new authorization. -/
theorem stale_decision {incidentId : UUID} {generation : ℕ}
    (hpast : ∃ incident, σ.state.store.incidents.get incidentId = some incident ∧
      generation < incident.controlGeneration) (hrun : timelineSystem.Run σ calls τ) :
    (∃ incident, τ.state.store.incidents.get incidentId = some incident ∧
      generation < incident.controlGeneration) ∧
    ∀ row, τ.decision (incidentId, generation) = some row → row.state = .authorized →
      σ.decision (incidentId, generation) = some row := by
  refine hrun.stable (P := fun τ => (∃ incident,
      τ.state.store.incidents.get incidentId = some incident ∧
        generation < incident.controlGeneration) ∧
      ∀ row, τ.decision (incidentId, generation) = some row → row.state = .authorized →
        σ.decision (incidentId, generation) = some row) ?_ ⟨hpast, fun row hrow _ => hrow⟩
  rintro t label t' hstep ⟨⟨incident, hinc, hlt⟩, hkept⟩
  refine ⟨step_generation hstep ⟨incident, hinc, hlt⟩, fun row hrow hstate => ?_⟩
  rcases step_cases hstep with
    ⟨call, -, -, ⟨issued, store, hexec, hstore, -⟩ | ⟨hstore, -⟩⟩ | ⟨hstate', -⟩
  · rw [decision, hstore] at hrow
    rcases exec_authorized hexec hrow hstate with hold | ⟨incident', hinc', hgen⟩
    · exact hkept row hold hstate
    · obtain rfl := Option.some.inj (hinc.symm.trans hinc')
      exact absurd hgen hlt.ne'
  · exact hkept row (by rw [decision, ← hstore]; exact hrow) hstate
  · exact hkept row (by rw [decision, ← hstate']; exact hrow) hstate

/-- **Automatic observation decisions settle once.** In every reachable state of the store and its
event log, for an incident and a generation: a decision that is settled stays as it is in every run
from there, its attempts are bounded, and the log has its hand-off once if it is handed off and not
otherwise. Once the incident's generation has moved past the decision's, no run authorizes the
decision, and no attempt at it writes a session. -/
theorem auto_observation (h : timelineSystem.Reachable σ) (incidentId : UUID) (generation : ℕ) :
    (∀ row, σ.decision (incidentId, generation) = some row → row.state ≠ .retrying →
      ∀ calls τ, timelineSystem.Run σ calls τ → τ.decision (incidentId, generation) = some row) ∧
    (∀ row, σ.decision (incidentId, generation) = some row →
      row.attempts ≤ autoObservationMaxAttempts) ∧
    ((σ.handOffs (incidentId, generation)).length =
      if (σ.decision (incidentId, generation)).any (·.state = .handedOff) then 1 else 0) ∧
    ∀ incident, σ.state.store.incidents.get incidentId = some incident →
      generation < incident.controlGeneration → ∀ calls τ, timelineSystem.Run σ calls τ →
        (∀ row, τ.decision (incidentId, generation) = some row → row.state = .authorized →
          σ.decision (incidentId, generation) = some row) ∧
        ∀ clk grant refusal τ', timelineSystem.Step τ (.store
          ⟨.authorizeAutomaticObservation incidentId generation grant refusal, clk⟩) τ' →
            τ'.state.store.sessions = τ.state.store.sessions := by
  refine ⟨fun row hrow hstate calls τ hrun => settled_final hrow hstate hrun,
    fun row hrow => (reachable_attempts h _ row hrow).1, reachable_announced h _,
    fun incident hinc hlt calls τ hrun => ?_⟩
  obtain ⟨⟨incident', hinc', hlt'⟩, hkept⟩ := stale_decision ⟨incident, hinc, hlt⟩ hrun
  refine ⟨hkept, fun clk grant refusal τ' hstep => ?_⟩
  rcases step_cases hstep with
    ⟨call, hcall, -, ⟨issued, store, hexec, hstore, -⟩ | ⟨hstore, -⟩⟩ | ⟨hstate, -⟩
  · cases hcall
    rw [hstore]
    exact exec_stale hexec hinc' hlt'.ne'
  · rw [hstore]
  · rw [hstate]

/-- The state after a list of calls. -/
def applyAll (σ : Timeline) (calls : List TimelineCall) : Timeline := calls.foldl apply σ

/-- The calls may come in this order. -/
def Feasible : Timeline → List TimelineCall → Prop
  | _, [] => True
  | σ, call :: calls => σ.Admits call ∧ (σ.apply call).Feasible calls

instance : (σ : Timeline) → (calls : List TimelineCall) → Decidable (σ.Feasible calls)
  | _, [] => isTrue trivial
  | σ, call :: calls =>
    have := instDecidableFeasible (σ.apply call) calls
    inferInstanceAs (Decidable (_ ∧ _))

theorem run_applyAll (h : σ.Feasible calls) :
    timelineSystem.Run σ calls (σ.applyAll calls) := by
  induction calls generalizing σ with
  | nil => exact .nil σ
  | cons call calls ih => exact .cons ⟨h.1, rfl⟩ (ih h.2)

end Timeline

namespace Scenario

/-- The worker published, and the transaction that should authorize an observation failed five
times. -/
def failedCalls : List TimelineCall :=
  ((roundCalls ++ [publishFirst.at (seconds 3)]).map .store) ++
    [.append 1 "run_completed" [("run_id", .str "2")]] ++
    ((List.range 5).map fun k =>
      .store ((Op.recordAutoObservationFailure 1 0 "STORAGE_UNAVAILABLE").at (seconds (4 + k))))

/-- The timeline after the failures. -/
def failed : Timeline := Timeline.applyAll { state := { now := 0 } } failedCalls

/-- The fifth failure hands the decision off, with one event. -/
theorem auto_observation_handedOff :
    failed.handOffs (1, 0) = [⟨1, 2, autoObservationHandedOff, [("attempts", .num 5),
      ("control_generation", .num 0), ("reason", .str "STORAGE_UNAVAILABLE")]⟩] ∧
    ∃ row, failed.decision (1, 0) = some row ∧ row.state = .handedOff ∧
      ∀ calls τ, timelineSystem.Run failed calls τ → τ.decision (1, 0) = some row := by
  have hfeasible : Timeline.Feasible { state := { now := 0 } } failedCalls := by decide +kernel
  have hreachable : timelineSystem.Reachable failed :=
    (LTS.Reachable.init (M := timelineSystem) ⟨⟨rfl, rfl, rfl⟩, rfl⟩).run
      (Timeline.run_applyAll hfeasible)
  have hfound : failed.handOffs (1, 0) = [⟨1, 2, autoObservationHandedOff, [("attempts", .num 5),
      ("control_generation", .num 0), ("reason", .str "STORAGE_UNAVAILABLE")]⟩] ∧
      (failed.decision (1, 0)).map (·.state) = some .handedOff := by decide +kernel
  obtain ⟨row, hrow, hstate⟩ := Option.map_eq_some_iff.1 hfound.2
  refine ⟨hfound.1, row, hrow, hstate, ?_⟩
  exact (Timeline.auto_observation hreachable 1 0).1 row hrow (by rw [hstate]; decide)

end Scenario

end OpsPilot
