import OpsPilot.Foundations.Transition
import OpsPilot.Observation.Store

/-!
# The store under its operations

The transition system of the whole store: a `Call` is an operation with the database clock of its
transaction, and every call runs as one atomic step. A refused call changes nothing but the time.
Calls come in any order and from anybody; the clock never goes back, and a sampling job's lease is
one a claim handed out.

Besides the store, a state keeps every lease that was handed out, to speak about them later.
-/

namespace OpsPilot

/-- An operation of the store, with its arguments. -/
inductive Op
  | accept (intake : Intake)
  | openHandoff (incidentId : UUID) (intakeKey : String) (priority : ℕ)
      (relatedIncidentId : Option UUID) (alert : Bool)
  | escalatePriority (incidentId : UUID) (priority : ℕ)
  | registerTarget (resourceUid : String) (targetId : Option UUID) (fresh : UUID)
  | newRun (n : Store.NewRun)
  | claim (incidentId runId owner : UUID) (versions : Json) (leaseSeconds : ℤ)
  | renewLease (lease : Lease) (extendSeconds : ℤ)
  | block (lease : Lease)
  | handOff (lease : Lease)
  | sweepExpiredRun (incidentId runId : UUID)
  | parkBacklog (maxQueued : ℕ)
  | abandon (lease : Lease)
  | setGlobalSuspension (suspended : Bool) (expectedGeneration : ℕ) (actor : String)
  | setTargetSuspension (target : TargetRef) (fresh : UUID) (suspended : Bool)
      (expectedGeneration : ℕ) (actor : String)
  | control (r : ControlRequest)
  | appendInput (incidentId inputId : UUID) (content : Json) (actor : String)
  | commitStep (lease : Lease) (logicalKey : String) (response : Json) (fresh : UUID)
  | commitTool (lease : Lease) (stepId : UUID) (ordinal : ℕ) (result : Json) (fresh : UUID)
  | beginRound (lease : Lease) (logicalKey : String)
  | publish (lease : Lease) (conclusion : Json) (stepId fresh : UUID)
  | reserveBudget (lease : Lease) (reservationId : UUID) (amount : ℤ) (seconds : ℚ)
  | settleBudget (lease : Lease) (reservationId : UUID) (outcome : Settlement)
      (seconds : Option ℚ)
  | chargeTool (lease : Lease) (operationId : String) (seconds : ℚ) (maxOperations : ℤ)
      (maxToolSeconds : ℚ) (dispatchId : UUID)
  | authorizeSession (a : Authorization)
  | registerRemediation (r : Remediation)
  | authorizeAutomaticObservation (incidentId : UUID) (controlGeneration : ℕ)
      (grant : Option SelfHealGrant) (refusal : Option String)
  | recordAutoObservationFailure (incidentId : UUID) (controlGeneration : ℕ) (reason : String)
  | revokeSessions (incidentId : UUID)
  | claimDueSample (sessionId owner : UUID) (leaseSeconds : ℕ)
  | submitSample (lease : SampleLease) (sample : HealthSample) (readings : List SignalReading)
      (sampleId jobId : UUID)
  | sweepExpiredSession (sessionId : UUID)

/-- The leases a committed call handed out. -/
structure Issued where
  lease : Option Lease := none
  sampleLease : Option SampleLease := none

/-- A committed call that handed out no lease. -/
def committed {α : Type} (result : Except Code (α × Store)) : Except Code (Issued × Store) :=
  result.map fun r => ({}, r.2)

/-- What `claim` handed out. -/
def claimed (result : Except Code (Except Code Lease × Store)) : Except Code (Issued × Store) :=
  result.map fun r => ({ lease := r.1.toOption }, r.2)

/-- What a claim of a sampling job handed out. -/
def sampleClaimed (result : Except Code (Option SampleLease × Store)) :
    Except Code (Issued × Store) :=
  result.map fun r => ({ sampleLease := r.1 }, r.2)

open Op in
/-- Run an operation as one transaction. -/
def Op.exec [Texts] (op : Op) (clk : Clock) (s : Store) : Except Code (Issued × Store) :=
  match op with
  | accept intake => committed (s.accept intake)
  | openHandoff incidentId intakeKey priority related alert =>
    committed (s.openHandoff incidentId intakeKey priority related alert)
  | escalatePriority incidentId priority => committed (s.escalatePriority incidentId priority)
  | registerTarget resourceUid targetId fresh =>
    committed (s.registerTarget resourceUid targetId fresh)
  | newRun n => committed (s.newRun clk n)
  | claim incidentId runId owner versions leaseSeconds =>
    claimed (s.claim clk incidentId runId owner versions leaseSeconds)
  | renewLease lease extendSeconds => committed (s.renewLease clk lease extendSeconds)
  | block lease => committed (s.block clk lease)
  | handOff lease => committed (s.handOff clk lease)
  | sweepExpiredRun incidentId runId => .ok ({}, (s.sweepExpiredRun clk incidentId runId).2)
  | parkBacklog maxQueued => committed (s.parkBacklog clk maxQueued)
  | abandon lease => .ok ({}, s.abandon lease)
  | setGlobalSuspension suspended expected actor =>
    committed (s.setGlobalSuspension suspended expected actor)
  | setTargetSuspension target fresh suspended expected actor =>
    committed (s.setTargetSuspension target fresh suspended expected actor)
  | control r => committed (s.control clk r)
  | appendInput incidentId inputId content actor =>
    committed (s.appendInput incidentId inputId content actor)
  | commitStep lease logicalKey response fresh =>
    committed (s.commitStep clk lease logicalKey response fresh)
  | commitTool lease stepId ordinal result fresh =>
    committed (s.commitTool clk lease stepId ordinal result fresh)
  | beginRound lease logicalKey => committed (s.beginRound clk lease logicalKey)
  | publish lease conclusion stepId fresh =>
    committed (s.publish clk lease conclusion stepId fresh)
  | reserveBudget lease reservationId amount seconds =>
    committed (s.reserveBudget clk lease reservationId amount seconds)
  | settleBudget lease reservationId outcome seconds =>
    committed (s.settleBudget clk lease reservationId outcome seconds)
  | chargeTool lease operationId seconds maxOperations maxToolSeconds dispatchId =>
    committed (s.chargeTool clk lease operationId seconds maxOperations maxToolSeconds dispatchId)
  | authorizeSession a => committed (s.authorizeSession clk a)
  | registerRemediation r => committed (s.registerRemediation clk r)
  | authorizeAutomaticObservation incidentId controlGeneration grant refusal =>
    committed (s.authorizeAutomaticObservation clk incidentId controlGeneration grant refusal)
  | recordAutoObservationFailure incidentId controlGeneration reason =>
    committed (s.recordAutoObservationFailure clk incidentId controlGeneration reason)
  | revokeSessions incidentId => committed (s.revokeSessions clk incidentId)
  | claimDueSample sessionId owner leaseSeconds =>
    sampleClaimed (s.claimDueSample clk sessionId owner leaseSeconds)
  | submitSample lease sample readings sampleId jobId =>
    committed (s.submitSample clk lease sample readings sampleId jobId)
  | sweepExpiredSession sessionId => committed (s.sweepExpiredSession clk sessionId)

/-- The kind of decision an operation is, if it is one. -/
def Op.event (op : Op) (clk : Clock) (s : Store) : Control.Event UUID :=
  match op with
  | .newRun n => .successor n.incidentId
  | .control r => s.controlEvent clk r
  | .registerRemediation r => .decision r.authorization.incidentId
  | .publish lease .. => .publication lease.incidentId
  | _ => .machine

/-- A call: an operation, and the database clock of its transaction. -/
structure Call where
  op : Op
  clock : Clock

/-- A call whose transaction takes no time. -/
def Op.at (op : Op) (now : Time) : Call where
  op := op
  clock := ⟨now, now, le_rfl⟩

/-- The store, the time, and every lease handed out so far. -/
structure State where
  store : Store := {}
  now : Time
  leases : List Lease := []
  sampleLeases : List SampleLease := []

namespace State

/-- The state after a call. -/
def apply [Texts] (σ : State) (call : Call) : State :=
  match call.op.exec call.clock σ.store with
  | .ok (issued, store) =>
    { store
      now := call.clock.later
      leases := issued.lease.toList ++ σ.leases
      sampleLeases := issued.sampleLease.toList ++ σ.sampleLeases }
  | .error _ => { σ with now := call.clock.later }

/-- A sample is submitted under a lease that was handed out, with validated readings. -/
def Admits [Texts] (σ : State) : Op → Prop
  | .submitSample lease _ readings .. =>
    lease ∈ σ.sampleLeases ∧ ∀ reading ∈ readings, reading.consistent = true
  | _ => True

instance [Texts] (σ : State) : (op : Op) → Decidable (σ.Admits op)
  | .submitSample lease _ readings .. =>
    inferInstanceAs (Decidable (lease ∈ σ.sampleLeases ∧ ∀ reading ∈ readings, _))
  | .accept .. | .openHandoff .. | .escalatePriority .. | .registerTarget .. | .newRun ..
  | .claim .. | .renewLease .. | .block .. | .handOff .. | .sweepExpiredRun .. | .parkBacklog ..
  | .abandon .. | .setGlobalSuspension .. | .setTargetSuspension .. | .control ..
  | .appendInput .. | .commitStep .. | .commitTool .. | .beginRound .. | .publish .. | .reserveBudget .. | .settleBudget ..
  | .chargeTool .. | .authorizeSession .. | .registerRemediation ..
  | .authorizeAutomaticObservation .. | .recordAutoObservationFailure .. | .revokeSessions ..
  | .claimDueSample .. | .sweepExpiredSession .. => isTrue trivial

end State

/-- The transition system of the store. -/
def system [Texts] : LTS State Call where
  Init σ := σ.store = {} ∧ σ.leases = [] ∧ σ.sampleLeases = []
  Step σ call σ' := σ.now ≤ call.clock.now ∧ σ.Admits call.op ∧ σ' = σ.apply call

namespace State

/-- The state after a list of calls. -/
def applyAll [Texts] (σ : State) (calls : List Call) : State := calls.foldl apply σ

/-- The state a list of calls leads to from the empty store at time 0. -/
def reached [Texts] (calls : List Call) : State := applyAll { now := 0 } calls

/-- The calls may come in this order: no clock goes back, and samples have their leases. -/
def Feasible [Texts] : State → List Call → Prop
  | _, [] => True
  | σ, call :: calls => σ.now ≤ call.clock.now ∧ σ.Admits call.op ∧ (σ.apply call).Feasible calls

instance [Texts] : (σ : State) → (calls : List Call) → Decidable (σ.Feasible calls)
  | _, [] => isTrue trivial
  | σ, call :: calls =>
    have := instDecidableFeasible (σ.apply call) calls
    inferInstanceAs (Decidable (_ ∧ _ ∧ _))

end State

section

variable {α : Type} {s' : Store} {issued : Issued}

theorem committed_eq_ok {result : Except Code (α × Store)} :
    committed result = .ok (issued, s') ↔ issued = {} ∧ ∃ a, result = .ok (a, s') := by
  cases result with
  | error e => simp [committed, Except.map]
  | ok r =>
    obtain ⟨a, t⟩ := r
    simp only [committed, Except.map, Except.ok.injEq, Prod.mk.injEq]
    exact ⟨fun ⟨h, h'⟩ => ⟨h.symm, a, rfl, h'⟩, fun ⟨h, _, _, h'⟩ => ⟨h.symm, h'⟩⟩

theorem claimed_eq_ok {result : Except Code (Except Code Lease × Store)} :
    claimed result = .ok (issued, s') ↔
      ∃ a, issued = { lease := a.toOption } ∧ result = .ok (a, s') := by
  cases result with
  | error e => simp [claimed, Except.map]
  | ok r =>
    obtain ⟨a, t⟩ := r
    simp only [claimed, Except.map, Except.ok.injEq, Prod.mk.injEq]
    refine ⟨fun ⟨h, h'⟩ => ⟨a, h.symm, rfl, h'⟩, ?_⟩
    rintro ⟨b, h, rfl, h'⟩
    exact ⟨h.symm, h'⟩

theorem sampleClaimed_eq_ok {result : Except Code (Option SampleLease × Store)} :
    sampleClaimed result = .ok (issued, s') ↔
      ∃ a, issued = { sampleLease := a } ∧ result = .ok (a, s') := by
  cases result with
  | error e => simp [sampleClaimed, Except.map]
  | ok r =>
    obtain ⟨a, t⟩ := r
    simp only [sampleClaimed, Except.map, Except.ok.injEq, Prod.mk.injEq]
    refine ⟨fun ⟨h, h'⟩ => ⟨a, h.symm, rfl, h'⟩, ?_⟩
    rintro ⟨b, h, rfl, h'⟩
    exact ⟨h.symm, h'⟩

end

namespace State

variable [Texts] {σ σ' : State} {call : Call}

/-- A step commits a transaction, or is refused and leaves everything but the time. -/
theorem step_cases (h : system.Step σ call σ') :
    (∃ issued store, call.op.exec call.clock σ.store = .ok (issued, store) ∧
      σ' = {
        store
        now := call.clock.later
        leases := issued.lease.toList ++ σ.leases
        sampleLeases := issued.sampleLease.toList ++ σ.sampleLeases }) ∨
    (∃ code, call.op.exec call.clock σ.store = .error code) ∧
      σ' = { σ with now := call.clock.later } := by
  obtain ⟨-, -, rfl⟩ := h
  unfold apply
  cases hexec : call.op.exec call.clock σ.store with
  | ok result => exact .inl ⟨result.1, result.2, rfl, rfl⟩
  | error code => exact .inr ⟨⟨code, rfl⟩, rfl⟩

/-- Feasible calls are a run. -/
theorem run_applyAll {calls : List Call} (h : σ.Feasible calls) :
    system.Run σ calls (σ.applyAll calls) := by
  induction calls generalizing σ with
  | nil => exact .nil σ
  | cons call calls ih => exact .cons ⟨h.1, h.2.1, rfl⟩ (ih h.2.2)

/-- The condition holds of every call, in the state it comes in. -/
def Throughout (P : State → Call → Prop) : State → List Call → Prop
  | _, [] => True
  | σ, call :: calls => P σ call ∧ Throughout P (σ.apply call) calls

instance decidableThroughout {P : State → Call → Prop} [∀ σ call, Decidable (P σ call)] :
    (σ : State) → (calls : List Call) → Decidable (Throughout P σ calls)
  | _, [] => isTrue trivial
  | σ, call :: calls =>
    have : Decidable (Throughout P (σ.apply call) calls) := decidableThroughout _ calls
    inferInstanceAs (Decidable (P σ call ∧ Throughout P (σ.apply call) calls))

/-- Feasible calls under a condition are a run under it. -/
theorem run_restrict {P : State → Call → Prop} {calls : List Call} (h : σ.Feasible calls)
    (hP : Throughout P σ calls) : (system.restrict P).Run σ calls (σ.applyAll calls) := by
  induction calls generalizing σ with
  | nil => exact .nil σ
  | cons call calls ih => exact .cons ⟨⟨h.1, h.2.1, rfl⟩, hP.1⟩ (ih h.2.2 hP.2)

/-- Feasible calls on the empty store reach a state. -/
theorem reachable_reached {calls : List Call} (h : Feasible { now := 0 } calls) :
    system.Reachable (reached calls) :=
  (LTS.Reachable.init (M := system) ⟨rfl, rfl, rfl⟩).run (run_applyAll h)

theorem step_now (h : system.Step σ call σ') : σ'.now = call.clock.later := by
  rcases step_cases h with ⟨issued, store, -, rfl⟩ | ⟨-, rfl⟩ <;> rfl

theorem step_le_now (h : system.Step σ call σ') : σ.now ≤ σ'.now := by
  rw [step_now h]
  exact h.1.trans call.clock.now_le_later

/-- No call of a run comes before the time it started. -/
theorem run_le_clock {calls : List Call} (h : system.Run σ calls σ') :
    ∀ c ∈ calls, σ.now ≤ c.clock.now := by
  induction h with
  | nil σ => exact fun c hc => nomatch hc
  | cons hstep hrun ih =>
    rintro c (_ | ⟨_, hc⟩)
    · exact hstep.1
    · exact (step_le_now hstep).trans (ih c hc)

/-- What holds of a store and survives every committed transaction survives every step. -/
theorem step_store {P : Store → Prop} (h : system.Step σ call σ') (hP : P σ.store)
    (hexec : ∀ issued store, call.op.exec call.clock σ.store = .ok (issued, store) → P store) :
    P σ'.store := by
  rcases step_cases h with ⟨issued, store, hok, rfl⟩ | ⟨-, rfl⟩
  · exact hexec issued store hok
  · exact hP

/-- What holds of the empty store and survives every committed transaction holds of every
reachable store. -/
theorem store_invariant {P : Store → Prop} (hempty : P {})
    (hexec : ∀ (op : Op) (clk : Clock) (s s' : Store) (issued : Issued), P s →
      op.exec clk s = .ok (issued, s') → P s') (h : system.Reachable σ) : P σ.store := by
  refine h.invariant (P := fun σ => P σ.store) (fun σ hinit => ?_) fun hstep hP => ?_
  · rw [hinit.1]
    exact hempty
  · exact step_store hstep hP fun issued store hok => hexec _ _ _ _ _ hP hok

end State

end OpsPilot
