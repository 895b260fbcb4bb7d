import OpsPilot.System.Lifecycles
import OpsPilot.System.Simulation

/-!
# The registry of targets

Few operations write the registry: a registration, the suspension of a target that is not registered
yet, a rebind, and an authorization that completes a target's identity. None of them gives a
resource uid to two targets.

* `Op.registers`, `exec_targets_eq`: the other operations leave the registry as it is.
* `UidsDistinct`, **`reachable_uidsDistinct`**: a resource uid names one target.
* `control_rebind`: what an accepted rebind found.
-/

namespace OpsPilot

open Store

/-- The operations that may register a target, or complete one. -/
def Op.registers : Op → Bool
  | .registerTarget .. | .setTargetSuspension .. | .control .. | .registerRemediation ..
  | .authorizeAutomaticObservation .. => true
  | _ => false

section

variable [Texts] {op : Op} {clk : Clock} {s s' : Store} {issued : Issued}

/-- **The other operations write no target.** -/
theorem exec_targets_eq (h : op.exec clk s = .ok (issued, s')) (hop : op.registers = false) :
    s'.targets = s.targets := by
  by_cases hplain : op.plain = true
  · exact (exec_beside h hplain).targets
  cases op with
  | newRun n =>
    obtain ⟨-, a, ha⟩ := committed_eq_ok.1 h
    rcases newRun_ok ha with ⟨rfl, -⟩ | ⟨incident, suspended, -, -, -, -, -, -, -, rfl⟩ <;>
      rfl
  | authorizeSession a =>
    obtain ⟨-, id, ha⟩ := committed_eq_ok.1 h
    obtain ⟨t, ht, hrest⟩ := bind_eq_ok.1 ha
    simp only [pure_eq_ok, Prod.mk.injEq] at hrest
    obtain ⟨-, rfl⟩ := hrest
    obtain ⟨incident, lifecycle, session, hauth⟩ := authorizeSessionIn_ok ht
    rw [hauth.written]
  | recordAutoObservationFailure incidentId controlGeneration reason =>
    obtain ⟨-, a, ha⟩ := committed_eq_ok.1 h
    obtain ⟨selfHeal, rfl⟩ := recordAutoObservationFailure_ok ha
    rfl
  | revokeSessions incidentId =>
    obtain ⟨-, a, ha⟩ := committed_eq_ok.1 h
    obtain ⟨incident, -, rfl⟩ := revokeSessions_ok ha
    rfl
  | claimDueSample sessionId owner leaseSeconds =>
    obtain ⟨a, -, ha⟩ := sampleClaimed_eq_ok.1 h
    cases claimDueSample_ok ha <;> rfl
  | submitSample lease sample readings sampleId jobId =>
    obtain ⟨-, receipt, ha⟩ := committed_eq_ok.1 h
    obtain ⟨incident, row, c, verdict, lifecycle, hsub⟩ := submitSample_ok ha
    rw [hsub.written]
    rfl
  | sweepExpiredSession sessionId =>
    obtain ⟨-, a, ha⟩ := committed_eq_ok.1 h
    rcases sweepExpiredSession_ok ha with rfl | ⟨row, incident, after, -, -, -, -, -, rfl⟩ <;>
      rfl
  | registerTarget | setTargetSuspension | control | registerRemediation
  | authorizeAutomaticObservation => cases hop
  | _ => exact absurd rfl hplain

end

/-! ## Resource uids -/

/-- A resource uid names one target. -/
def UidsDistinct (targets : Table UUID TargetRow) : Prop :=
  ∀ a b row row', targets.get a = some row → targets.get b = some row' →
    row.resourceUid = row'.resourceUid → a = b

/-- No target has the uid. -/
def UidFree (targets : Table UUID TargetRow) (uid : String) : Prop :=
  ∀ a row, targets.get a = some row → row.resourceUid ≠ uid

namespace UidsDistinct

variable {targets : Table UUID TargetRow} {id : UUID} {uid : String}

/-- A new target takes a uid that is free. -/
theorem insert (h : UidsDistinct targets) (hfree : UidFree targets uid) :
    UidsDistinct (targets.insert id { resourceUid := uid }) := by
  intro a b row row' ha hb huid
  rw [Table.get_insert] at ha hb
  split at ha <;> split at hb
  · next haid hbid => rw [haid, hbid]
  · cases ha
    exact absurd huid.symm (hfree b row' hb)
  · cases hb
    exact absurd huid (hfree a row ha)
  · exact h a b row row' ha hb huid

/-- A target is completed under its uid. -/
theorem modify (h : UidsDistinct targets) {f : TargetRow → TargetRow}
    (hf : ∀ row, (f row).resourceUid = row.resourceUid) : UidsDistinct (targets.modify id f) := by
  have hkept : ∀ {k row}, (targets.modify id f).get k = some row →
      ∃ row₀, targets.get k = some row₀ ∧ row₀.resourceUid = row.resourceUid := by
    intro k row hk
    rw [Table.get_modify] at hk
    split at hk
    · next heq =>
      obtain ⟨row₀, hrow₀, rfl⟩ := Option.map_eq_some_iff.1 hk
      exact ⟨row₀, hrow₀, (hf row₀).symm⟩
    · exact ⟨row, hk, rfl⟩
  intro a b row row' ha hb huid
  obtain ⟨row₀, ha, huid₀⟩ := hkept ha
  obtain ⟨row₁, hb, huid₁⟩ := hkept hb
  exact h a b row₀ row₁ ha hb (huid₀.trans (huid.trans huid₁.symm))

end UidsDistinct

namespace Store

variable {s s' : Store} {clk : Clock}

/-- A uid without a target is free. -/
theorem uidFree_of_targetByUid {uid : String} (h : s.targetByUid uid = none) :
    UidFree s.targets uid := by
  intro a row ha huid
  have hmem : (a, row) ∈ s.targets.select fun _ row => row.resourceUid = uid :=
    Table.mem_select_iff.2 ⟨ha, by simpa using huid⟩
  rw [targetByUid, Option.map_eq_none_iff, List.head?_eq_none_iff] at h
  rw [h] at hmem
  cases hmem

/-- The target of a uid is the one registered under it. -/
theorem targetByUid_of_get (h : UidsDistinct s.targets) {id : UUID} {row : TargetRow}
    (hrow : s.targets.get id = some row) : s.targetByUid row.resourceUid = some id := by
  cases hfound : s.targetByUid row.resourceUid with
  | none => exact absurd rfl (uidFree_of_targetByUid hfound id row hrow)
  | some id' =>
    obtain ⟨⟨id₀, row₀⟩, hhead, rfl⟩ := Option.map_eq_some_iff.1 hfound
    obtain ⟨hget, huid⟩ := Table.mem_select_iff.1 (List.mem_of_head? hhead)
    rw [h id₀ id row₀ row hget hrow (by simpa using huid)]

theorem registerTarget_uids {resourceUid : String} {targetId : Option UUID} {fresh id : UUID}
    (h : s.registerTarget resourceUid targetId fresh = .ok (id, s'))
    (huids : UidsDistinct s.targets) : UidsDistinct s'.targets := by
  simp only [registerTarget, refuse_bind_eq_ok] at h
  obtain ⟨-, h⟩ := h
  split at h
  · simp only [refuse_bind_eq_ok, pure_eq_ok, Prod.mk.injEq] at h
    rw [← h.2.2]
    exact huids
  · next hnone =>
    simp only [refuse_bind_eq_ok, pure_eq_ok, Prod.mk.injEq] at h
    obtain ⟨-, -, rfl⟩ := h
    refine huids.insert fun a row ha huid => ?_
    have hmem : (a, row) ∈ s.targets.select fun id row =>
        row.resourceUid = resourceUid ∨ id = targetId.getD fresh :=
      Table.mem_select_iff.2 ⟨ha, by simp [huid]⟩
    rw [List.head?_eq_none_iff] at hnone
    rw [hnone] at hmem
    cases hmem

theorem resolveTarget_uids {target : TargetRef} {fresh targetId : UUID} {t : Store}
    (h : s.resolveTarget fresh target = .ok (targetId, t)) (huids : UidsDistinct s.targets) :
    UidsDistinct t.targets := by
  cases target with
  | uid resourceUid =>
    simp only [resolveTarget, refuse_bind_eq_ok] at h
    obtain ⟨-, h⟩ := h
    split at h
    · simp only [pure_eq_ok, Prod.mk.injEq] at h
      rw [← h.2]
      exact huids
    · next hnone =>
      simp only [refuse_bind_eq_ok, pure_eq_ok, Prod.mk.injEq] at h
      obtain ⟨-, -, rfl⟩ := h
      exact huids.insert (uidFree_of_targetByUid hnone)
  | id targetId =>
    simp only [resolveTarget, refuse_bind_eq_ok, pure_eq_ok, Prod.mk.injEq] at h
    rw [← h.2.2]
    exact huids

theorem setTargetSuspension_uids {target : TargetRef} {fresh : UUID} {suspended : Bool}
    {expected g : ℕ} {actor : String}
    (h : s.setTargetSuspension target fresh suspended expected actor = .ok (g, s'))
    (huids : UidsDistinct s.targets) : UidsDistinct s'.targets := by
  simp only [setTargetSuspension] at h
  obtain ⟨⟨targetId, t⟩, ht, h⟩ := bind_eq_ok.1 h
  simp only [refuse_bind_eq_ok] at h
  obtain ⟨-, h⟩ := h
  have hgate : (t.ensureGate targetId).targets = t.targets := by
    unfold ensureGate
    split <;> rfl
  have hresolved : UidsDistinct (t.ensureGate targetId).targets := by
    rw [hgate]
    exact resolveTarget_uids ht huids
  split at h <;> simp only [pure_eq_ok, Prod.mk.injEq] at h
  · obtain ⟨-, rfl⟩ := h
    exact hresolved
  · obtain ⟨-, rfl⟩ := h
    cases suspended <;> exact hresolved

theorem completeIdentity_uids {targetId : UUID} {identity : Option RegistryIdentity}
    (h : s.completeIdentity targetId identity = .ok s') (huids : UidsDistinct s.targets) :
    UidsDistinct s'.targets := by
  simp only [completeIdentity, refuse_bind_eq_ok, require_bind_eq_ok] at h
  obtain ⟨-, row, -, -, h⟩ := h
  split at h
  · simp only [refuse_bind_eq_ok, pure_eq_ok] at h
    rw [← h.2]
    exact huids
  · simp only [require_bind_eq_ok, pure_eq_ok] at h
    obtain ⟨i, -, rfl⟩ := h
    refine huids.modify fun row => ?_
    split <;> rfl

theorem registerRemediation_uids [Texts] {r : Remediation} {g : ℕ}
    (h : s.registerRemediation clk r = .ok (g, s')) (huids : UidsDistinct s.targets) :
    UidsDistinct s'.targets := by
  simp only [registerRemediation, refuse_bind_eq_ok] at h
  obtain ⟨-, h⟩ := h
  obtain ⟨scope, -, h⟩ := bind_eq_ok.1 h
  simp only [require_bind_eq_ok, refuse_bind_eq_ok] at h
  obtain ⟨incident, -, -, -, -, targetId, -, h⟩ := h
  obtain ⟨t, ht, h⟩ := bind_eq_ok.1 h
  obtain ⟨authorized, hauth, h⟩ := bind_eq_ok.1 h
  simp only [pure_eq_ok, Prod.mk.injEq] at h
  obtain ⟨-, rfl⟩ := h
  obtain ⟨row, lifecycle, session, hauthorized⟩ := authorizeSessionIn_ok hauth
  have htargets : UidsDistinct t.targets := completeIdentity_uids ht huids
  rw [hauthorized.written]
  exact htargets

/-- **What an accepted rebind found**: an incident that is not settled, bound to a target with
another uid than the one named. -/
theorem control_rebind {r : ControlRequest} {g : ℕ} (h : s.control clk r = .ok (g, s'))
    (haction : r.action = .rebindTarget) :
    ∃ incident toUid targetId, rebindUid r = .ok toUid ∧
      s.incidents.get r.incidentId = some incident ∧ incident.lifecycle.settled = false ∧
      incident.targetId = some targetId ∧ s.targetByUid toUid ≠ some targetId ∧
      (s.targets.get targetId).isSome ∧
      (s'.targets = s.targets ∨ s.targetByUid toUid = none ∧
        s'.targets = s.targets.insert r.targetId { resourceUid := toUid }) := by
  simp only [control, refuse_bind_eq_ok] at h
  obtain ⟨-, h⟩ := h
  obtain ⟨toUid, htoUid, h⟩ := bind_eq_ok.1 h
  simp only [refuse_bind_eq_ok] at h
  obtain ⟨-, h⟩ := h
  obtain ⟨scope, hscope, h⟩ := bind_eq_ok.1 h
  simp only [require_bind_eq_ok, refuse_bind_eq_ok] at h
  obtain ⟨incident, hinc, -, -, -, h⟩ := h
  obtain ⟨decided, hdecide, h⟩ := bind_eq_ok.1 h
  simp only [pure_eq_ok, Prod.mk.injEq] at h
  obtain ⟨-, rfl⟩ := h
  rw [if_pos haction, decideOn, haction] at hdecide
  simp only [rebindTarget, refuse_bind_eq_ok, require_bind_eq_ok, Bool.not_eq_true] at hdecide
  obtain ⟨hlife, targetId, htarget, hunchanged, hdecide⟩ := hdecide
  obtain ⟨⟨bound, t⟩, hbound, hdecide⟩ := bind_eq_ok.1 hdecide
  simp only [require_bind_eq_ok, pure_eq_ok] at hdecide
  obtain ⟨fromTarget, hfrom, rfl⟩ := hdecide
  unfold rebindTo at hbound
  split at hbound
  · simp only [pure_eq_ok, Prod.mk.injEq] at hbound
    obtain ⟨rfl, rfl⟩ := hbound
    exact ⟨incident, toUid, targetId, htoUid, hinc, hlife, htarget, hunchanged,
      by rw [hfrom]; rfl, .inl rfl⟩
  · next hnone =>
    simp only [refuse_bind_eq_ok, pure_eq_ok, Prod.mk.injEq, not_or,
      Option.not_isSome_iff_eq_none] at hbound
    obtain ⟨⟨-, hfresh⟩, rfl, rfl⟩ := hbound
    -- The target the incident is bound to has a gate, the new one has none yet.
    have hne : targetId ≠ r.targetId := by
      rintro rfl
      simp only [lockScope, Option.bind_some, hinc, htarget, requireGate, require_bind_eq_ok] at hscope
      obtain ⟨gate, hgate, -⟩ := hscope
      rw [hfresh] at hgate
      cases hgate
    refine ⟨incident, toUid, targetId, htoUid, hinc, hlife, htarget, hunchanged, ?_,
      .inr ⟨hnone, rfl⟩⟩
    simp only [addTarget, Table.get_insert_ne _ _ hne] at hfrom
    rw [hfrom]
    rfl

theorem authorizeAutomaticObservation_uids [Texts] {incidentId : UUID} {controlGeneration : ℕ}
    {grant : Option SelfHealGrant} {refusal : Option String} {state : Option SelfHealState}
    (h : s.authorizeAutomaticObservation clk incidentId controlGeneration grant refusal =
      .ok (state, s')) (huids : UidsDistinct s.targets) : UidsDistinct s'.targets := by
  simp only [authorizeAutomaticObservation, refuse_bind_eq_ok] at h
  obtain ⟨-, h⟩ := h
  obtain ⟨scope, -, h⟩ := bind_eq_ok.1 h
  split at h
  · simp only [pure_eq_ok, Prod.mk.injEq] at h
    rw [← h.2]
    exact huids
  · split at h
    · simp only [pure_eq_ok, Prod.mk.injEq] at h
      rw [← h.2]
      exact huids
    · split at h
      · split at h
        · next authorized hauth =>
          simp only [pure_eq_ok, Prod.mk.injEq] at h
          obtain ⟨-, rfl⟩ := h
          obtain ⟨t, ht, hrest⟩ := bind_eq_ok.1 hauth
          obtain ⟨authorized', hin, hrow⟩ := bind_eq_ok.1 hrest
          rw [pure_eq_ok] at hrow
          subst hrow
          obtain ⟨row, lifecycle, session, hauthorized⟩ := authorizeSessionIn_ok hin
          have htargets : UidsDistinct t.targets := completeIdentity_uids ht huids
          simp only [recordAutoObservation]
          rw [hauthorized.written]
          exact htargets
        · simp only [require_bind_eq_ok, pure_eq_ok, Prod.mk.injEq] at h
          obtain ⟨reason, -, -, rfl⟩ := h
          exact huids
      · simp only [pure_eq_ok, Prod.mk.injEq] at h
        rw [← h.2]
        exact huids
      · simp only [throw_eq_ok] at h

/-- A decision other than a rebind writes no target. -/
theorem Decided.targets_eq {r : ControlRequest} {incident : IncidentRow}
    (h : Decided s clk r incident s') (haction : r.action ≠ .rebindTarget) :
    s'.targets = s.targets := by
  cases h with
  | close | reopen | takeover | renew => rfl
  | rebind hrebind => exact absurd hrebind haction
  | merge _ _ _ ht hinput => rcases hinput with rfl | ⟨-, rfl⟩ <;> rw [ht] <;> rfl
  | @direct suspended =>
    have hdirect : (s.direct clk r incident suspended).targets = s.targets := by
      dsimp only [Store.direct]
      split <;> rfl
    split <;> exact hdirect

theorem control_uids {r : ControlRequest} {g : ℕ} (h : s.control clk r = .ok (g, s'))
    (huids : UidsDistinct s.targets) : UidsDistinct s'.targets := by
  by_cases haction : r.action = .rebindTarget
  · obtain ⟨incident, toUid, targetId, -, -, -, -, -, -, hsame | ⟨hnone, hnew⟩⟩ :=
      control_rebind h haction
    · rw [hsame]
      exact huids
    · rw [hnew]
      exact huids.insert (uidFree_of_targetByUid hnone)
  · obtain ⟨incident, -, -, -, hdecided⟩ := control_ok h
    rw [hdecided.targets_eq haction]
    exact huids

end Store

variable [Texts]

/-- **No operation gives a uid to two targets.** -/
theorem exec_uids {op : Op} {clk : Clock} {s s' : Store} {issued : Issued}
    (h : op.exec clk s = .ok (issued, s')) (huids : UidsDistinct s.targets) :
    UidsDistinct s'.targets := by
  by_cases hop : op.registers = true
  · cases op with
    | registerTarget resourceUid targetId fresh =>
      obtain ⟨-, a, ha⟩ := committed_eq_ok.1 h
      exact registerTarget_uids ha huids
    | setTargetSuspension target fresh suspended expected actor =>
      obtain ⟨-, a, ha⟩ := committed_eq_ok.1 h
      exact setTargetSuspension_uids ha huids
    | control r =>
      obtain ⟨-, a, ha⟩ := committed_eq_ok.1 h
      exact control_uids ha huids
    | registerRemediation r =>
      obtain ⟨-, a, ha⟩ := committed_eq_ok.1 h
      exact registerRemediation_uids ha huids
    | authorizeAutomaticObservation incidentId controlGeneration grant refusal =>
      obtain ⟨-, a, ha⟩ := committed_eq_ok.1 h
      exact authorizeAutomaticObservation_uids ha huids
    | accept | openHandoff | escalatePriority | newRun | claim | renewLease | block | handOff
    | sweepExpiredRun | parkBacklog | abandon | setGlobalSuspension | appendInput | commitStep
    | commitTool | beginRound | publish | reserveBudget | settleBudget | chargeTool
    | authorizeSession | recordAutoObservationFailure | revokeSessions | claimDueSample
    | submitSample | sweepExpiredSession => cases hop
  · rw [exec_targets_eq h (by simpa using hop)]
    exact huids

/-- **A resource uid names one target, in every reachable state.** -/
theorem State.reachable_uidsDistinct {σ : State} (h : system.Reachable σ) :
    UidsDistinct σ.store.targets :=
  store_invariant (P := fun s => UidsDistinct s.targets)
    (fun a b row row' ha => by cases ha) (fun op clk s s' issued huids hok => exec_uids hok huids) h

end OpsPilot
