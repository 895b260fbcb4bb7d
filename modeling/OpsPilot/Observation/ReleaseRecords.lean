import OpsPilot.Observation.Store
import OpsPilot.Observation.Releases

/-!
# Recording a release

A release is recorded once for its source and the source's id. A delivery that is refused for its
content rolls back what it prepared, and a delivery of a recorded release changes no release.

The uniqueness of the source's id decides between concurrent first deliveries, and the reading of
the clock at the `INSERT` decides whether a release is late; both hold at the commit, so a delivery
is one atomic transaction.
-/

namespace OpsPilot

/-- A release delivery, with fresh ids for what it creates. -/
structure ReleaseDelivery where
  event : ReleaseEvent
  target : TargetRef
  identity : Option RegistryIdentity
  healthProfileRevision : String
  healthProfile : Option String
  minTrackingSeconds : ℕ
  observationId : UUID
  freshTarget : UUID

/-- The reasons of a delivery receipt. -/
inductive DeliveryReason
  | releaseTimeInFuture | targetMismatch | targetIdentityMissing | healthProfileUnavailable
  | healthProfileTargetMismatch | invalidReleasePolicy | releaseIdentityConflict | lateDelivery
  deriving DecidableEq, Repr

/-- The outcome of a delivery. -/
inductive DeliveryOutcome
  | created | replayed | rejected
  deriving DecidableEq, Repr

/-- `ReleaseReceipt`. -/
structure ReleaseReceipt where
  outcome : DeliveryOutcome
  observationId : Option UUID
  status : Option ReleaseStatus
  reason : Option DeliveryReason
  deriving DecidableEq

/-- What ends the savepoint of a delivery: a refusal that is answered, or a code that is raised. -/
inductive Refusal
  | business (reason : DeliveryReason)
  | raised (code : Code)

/-- `_BUSINESS_REFUSALS`. -/
def Refusal.ofCode : Code → Refusal
  | .targetMismatch => .business .targetMismatch
  | .targetIdentityMissing => .business .targetIdentityMissing
  | .healthProfileTargetMismatch => .business .healthProfileTargetMismatch
  | code => .raised code

/-- The terms of a delivered release, if the checks of the table hold. -/
def ReleaseDelivery.terms (d : ReleaseDelivery) (targetId : UUID) (snapshot : TargetSnapshot)
    (profile : HealthProfile) (semanticSha256 : String) (receivedAt : Time) :
    Option ReleaseTerms :=
  if h : max d.minTrackingSeconds profile.sustainedWindowSeconds < profile.deadlineSeconds ∧
      d.event.releasedAt ≤ receivedAt then
    some {
      source := d.event.source
      sourceReleaseId := d.event.sourceReleaseId
      targetId
      targetSnapshot := snapshot
      beforeRevision := d.event.before
      afterRevision := d.event.after
      auxiliary := d.event.auxiliary
      semanticSha256
      healthProfileRevision := d.healthProfileRevision
      releasedAt := d.event.releasedAt
      receivedAt
      deadlineSeconds := profile.deadlineSeconds
      minTrackingSeconds := d.minTrackingSeconds
      sampleIntervalSeconds := profile.sampleIntervalSeconds
      sustainedWindowSeconds := profile.sustainedWindowSeconds
      maxSamples := profile.maxSamples
      windows_lt := h.1
      maxSamples_pos := profile.maxSamples_pos
      interval_pos := profile.interval_pos
      released_le := h.2 }
  else none

/-- The row a first delivery inserts: a release whose deadline has passed is unknown. -/
def ReleaseTerms.initial (terms : ReleaseTerms) : ReleaseRow :=
  if terms.deadlineAt ≤ terms.receivedAt then
    { terms, status := .unknown, endedReason := some .lateDelivery, endedAt := some terms.receivedAt }
  else { terms }

namespace ReleaseStore

/-- `_find_in`. -/
def findRelease (s : ReleaseStore) (source sourceReleaseId : String) : Option (UUID × ReleaseRow) :=
  (s.releases.select fun _ row =>
    row.terms.source = source ∧ row.terms.sourceReleaseId = sourceReleaseId).head?

/-- `_register_target_in`: the target of a delivery is registered, if it is not. -/
def registerDelivered (store : Store) (targetId : UUID) (unregistered : Option String) :
    Except Refusal Store :=
  match unregistered with
  | none => pure store
  | some resourceUid => do
    refuse ((store.targets.get targetId).isSome ∨ (store.targetSuspensions.get targetId).isSome)
      (.raised .identityConflict)
    pure (store.addTarget targetId resourceUid)

variable [ReleaseTexts]

/-- The savepoint of a first delivery: target, identity and profile are stored, and the release is
inserted. -/
def createRelease (s : ReleaseStore) (clk : ReleaseClock) (d : ReleaseDelivery) (targetId : UUID)
    (unregistered : Option String) : Except Refusal (ReleaseRow × ReleaseStore) := do
  refuse (clk.now < d.event.releasedAt) (.business .releaseTimeInFuture)
  let store ← registerDelivered s.store targetId unregistered
  let store ← (store.completeIdentity targetId d.identity).mapError Refusal.ofCode
  let row ← require (store.targets.get targetId) (.raised .inconsistentState)
  let target ← require (Store.registeredTarget row) (.business .targetIdentityMissing)
  let text ← require (d.healthProfile.filter (· ≠ "")) (.business .healthProfileUnavailable)
  refuse (d.healthProfileRevision = "") (.business .invalidReleasePolicy)
  let profile ← require (ReleaseTexts.healthProfile text) (.business .invalidReleasePolicy)
  refuse (profile.namespace ≠ target.namespace ∨ row.workload ≠ some profile.service)
    (.business .healthProfileTargetMismatch)
  refuse (d.minTrackingSeconds = 0 ∨ profile.deadlineSeconds ≤
    max d.minTrackingSeconds profile.sustainedWindowSeconds) (.business .invalidReleasePolicy)
  let store ← (store.storeProfile d.healthProfileRevision (some text)).mapError
    fun _ => .business .invalidReleasePolicy
  let snapshot : TargetSnapshot := {
    integrationId := target.integrationId, clusterUid := target.clusterUid
    «namespace» := target.namespace, resourceUid := target.resourceUid
    workload := profile.service }
  let terms ← require
    (d.terms targetId snapshot profile (ReleaseTexts.semanticSha256 d.event targetId (some row))
      clk.recordedAt) (.raised .inconsistentState)
  refuse (s.releases.get d.observationId).isSome (.raised .identityConflict)
  pure (terms.initial,
    { s with store, releases := s.releases.insert d.observationId terms.initial })

/-- The target of a delivery; one named by an unknown uid gets a fresh id, and is to be
registered. -/
def deliveryTarget (s : ReleaseStore) (d : ReleaseDelivery) : UUID × Option String :=
  match d.target with
  | .id targetId => (targetId, none)
  | .uid resourceUid =>
    match s.store.targetByUid resourceUid with
    | some targetId => (targetId, none)
    | none => (d.freshTarget, some resourceUid)

/-- `record_release`. -/
def recordRelease (s : ReleaseStore) (clk : ReleaseClock) (d : ReleaseDelivery) :
    Except ReleaseError (ReleaseReceipt × ReleaseStore) :=
  let (targetId, unregistered) := s.deliveryTarget d
  match s.findRelease d.event.source d.event.sourceReleaseId with
  | none =>
    match s.createRelease clk d targetId unregistered with
    | .ok (row, created) =>
      pure (⟨.created, some d.observationId, some row.status,
        if row.status = .unknown then some .lateDelivery else none⟩, created)
    | .error (.business reason) => pure (⟨.rejected, none, none, some reason⟩, s)
    | .error (.raised code) => throw (.store code)
  | some (observationId, row) =>
    if row.terms.semanticSha256 ≠
        ReleaseTexts.semanticSha256 d.event targetId (s.store.targets.get targetId) then
      pure (⟨.rejected, some observationId, some row.status, some .releaseIdentityConflict⟩, s)
    else
      match s.store.completeIdentity targetId d.identity with
      | .ok store => pure (⟨.replayed, some observationId, some row.status, none⟩, { s with store })
      | .error code =>
        match Refusal.ofCode code with
        | .business reason =>
          pure (⟨.rejected, some observationId, some row.status, some reason⟩, s)
        | .raised code => throw (.store code)

/-! ## What a delivery does -/

/-- The gates of the targets are kept. -/
def KeepsGates (s t : Store) : Prop :=
  ∀ targetId gate, s.targetSuspensions.get targetId = some gate →
    t.targetSuspensions.get targetId = some gate

variable {s t : Store} {targetId : UUID} {unregistered : Option String} {clk : ReleaseClock}
  {d : ReleaseDelivery}

omit [ReleaseTexts] in
theorem completeIdentity_gates {identity : Option RegistryIdentity}
    (h : s.completeIdentity targetId identity = .ok t) :
    t.targetSuspensions = s.targetSuspensions := by
  simp only [Store.completeIdentity, refuse_bind_eq_ok, require_bind_eq_ok] at h
  obtain ⟨-, row, -, -, h⟩ := h
  split at h
  · simp only [refuse_bind_eq_ok, pure_eq_ok] at h
    rw [h.2]
  · simp only [require_bind_eq_ok, pure_eq_ok] at h
    obtain ⟨i, -, rfl⟩ := h
    rfl

theorem storeProfile_gates {revision : String} {content : Option String}
    (h : s.storeProfile revision content = .ok t) :
    t.targetSuspensions = s.targetSuspensions := by
  simp only [Store.storeProfile, require_bind_eq_ok, refuse_bind_eq_ok] at h
  obtain ⟨text, -, -, h⟩ := h
  split at h
  · simp only [refuse_bind_eq_ok, pure_eq_ok] at h
    rw [h.2]
  · rw [pure_eq_ok] at h
    rw [← h]

omit [ReleaseTexts] in
theorem mapError_eq_ok {ε ε' α : Type*} {x : Except ε α} {f : ε → ε'} {a : α} :
    x.mapError f = .ok a ↔ x = .ok a := by
  cases x <;> simp [Except.mapError]

omit [ReleaseTexts] in
theorem registerDelivered_gates (h : registerDelivered s targetId unregistered = .ok t) :
    KeepsGates s t := by
  unfold registerDelivered at h
  split at h
  · rw [pure_eq_ok] at h
    exact h ▸ fun _ _ hgate => hgate
  · simp only [refuse_bind_eq_ok, not_or, Option.not_isSome_iff_eq_none, pure_eq_ok] at h
    obtain ⟨⟨-, hnew⟩, rfl⟩ := h
    exact fun _ _ hgate => Table.get_insert_of_get _ hnew hgate

omit [ReleaseTexts] in
theorem completeIdentity_scope {identity : Option RegistryIdentity}
    (h : s.completeIdentity targetId identity = .ok t) : t.scope = s.scope := by
  simp only [Store.completeIdentity, refuse_bind_eq_ok, require_bind_eq_ok] at h
  obtain ⟨-, row, -, -, h⟩ := h
  split at h
  · simp only [refuse_bind_eq_ok, pure_eq_ok] at h
    rw [h.2]
  · simp only [require_bind_eq_ok, pure_eq_ok] at h
    obtain ⟨i, -, rfl⟩ := h
    rfl

/-- A first delivery leaves the global gate as it is. -/
theorem createRelease_scope {s s' : ReleaseStore} {row : ReleaseRow}
    (h : s.createRelease clk d targetId unregistered = .ok (row, s')) :
    s'.store.scope = s.store.scope := by
  simp only [createRelease, refuse_bind_eq_ok] at h
  obtain ⟨-, h⟩ := h
  obtain ⟨registered, hregistered, h⟩ := bind_eq_ok.1 h
  obtain ⟨completed, hcompleted, h⟩ := bind_eq_ok.1 h
  simp only [require_bind_eq_ok, refuse_bind_eq_ok] at h
  obtain ⟨target, -, identity, -, text, -, -, profile, -, -, -, h⟩ := h
  obtain ⟨stored, hstored, h⟩ := bind_eq_ok.1 h
  simp only [require_bind_eq_ok, refuse_bind_eq_ok, pure_eq_ok, Prod.mk.injEq] at h
  obtain ⟨terms, -, -, -, rfl⟩ := h
  have hprofile : stored.scope = completed.scope := by
    have hstored := mapError_eq_ok.1 hstored
    simp only [Store.storeProfile, require_bind_eq_ok, refuse_bind_eq_ok] at hstored
    obtain ⟨text', -, -, hstored⟩ := hstored
    split at hstored
    · simp only [refuse_bind_eq_ok, pure_eq_ok] at hstored
      rw [hstored.2]
    · rw [pure_eq_ok] at hstored
      rw [← hstored]
  have hregister : registered.scope = s.store.scope := by
    unfold registerDelivered at hregistered
    split at hregistered
    · rw [pure_eq_ok] at hregistered
      rw [hregistered]
    · simp only [refuse_bind_eq_ok, pure_eq_ok] at hregistered
      rw [← hregistered.2]
      rfl
  exact hprofile.trans ((completeIdentity_scope (mapError_eq_ok.1 hcompleted)).trans hregister)

/-- A first delivery inserts one release, live or late. -/
theorem createRelease_ok {s s' : ReleaseStore} {row : ReleaseRow}
    (h : s.createRelease clk d targetId unregistered = .ok (row, s')) :
    ∃ (terms : ReleaseTerms) (store : Store), row = terms.initial ∧
      s.releases.get d.observationId = none ∧ terms.receivedAt = clk.recordedAt ∧
      KeepsGates s.store store ∧
      s' = { s with store, releases := s.releases.insert d.observationId row } := by
  simp only [createRelease, refuse_bind_eq_ok] at h
  obtain ⟨-, h⟩ := h
  obtain ⟨registered, hregistered, h⟩ := bind_eq_ok.1 h
  obtain ⟨completed, hcompleted, h⟩ := bind_eq_ok.1 h
  simp only [require_bind_eq_ok, refuse_bind_eq_ok] at h
  obtain ⟨target, -, identity, -, text, -, -, profile, -, -, -, h⟩ := h
  obtain ⟨stored, hstored, h⟩ := bind_eq_ok.1 h
  simp only [require_bind_eq_ok, refuse_bind_eq_ok, pure_eq_ok, Prod.mk.injEq,
    Option.not_isSome_iff_eq_none] at h
  obtain ⟨terms, hterms, hnew, rfl, rfl⟩ := h
  refine ⟨terms, stored, rfl, hnew, ?_, fun targetId gate hgate => ?_, rfl⟩
  · simp only [ReleaseDelivery.terms] at hterms
    split at hterms
    · rw [← Option.some.inj hterms]
    · cases hterms
  · rw [storeProfile_gates (mapError_eq_ok.1 hstored),
      completeIdentity_gates (mapError_eq_ok.1 hcompleted)]
    exact registerDelivered_gates hregistered _ _ hgate

/-- **What a delivery does**: it inserts one release, or changes no release. -/
theorem recordRelease_cases {s s' : ReleaseStore} {receipt : ReleaseReceipt}
    (h : s.recordRelease clk d = .ok (receipt, s')) :
    ∃ store, KeepsGates s.store store ∧
      (s' = { s with store } ∨
        ∃ terms : ReleaseTerms, s.releases.get d.observationId = none ∧
          terms.receivedAt = clk.recordedAt ∧
          s' = { s with store, releases := s.releases.insert d.observationId terms.initial }) := by
  have hself : KeepsGates s.store s.store := fun _ _ hgate => hgate
  simp only [recordRelease] at h
  split at h
  · split at h
    · next row created hcreate =>
      simp only [pure_eq_ok, Prod.mk.injEq] at h
      obtain ⟨-, rfl⟩ := h
      obtain ⟨terms, store, rfl, hnew, hreceived, hgates, rfl⟩ := createRelease_ok hcreate
      exact ⟨store, hgates, .inr ⟨terms, hnew, hreceived, rfl⟩⟩
    · simp only [pure_eq_ok, Prod.mk.injEq] at h
      exact ⟨s.store, hself, .inl h.2.symm⟩
    · rw [throw_eq_ok] at h
      exact h.elim
  · split at h
    · simp only [pure_eq_ok, Prod.mk.injEq] at h
      exact ⟨s.store, hself, .inl h.2.symm⟩
    · split at h
      · next store hcompleted =>
        simp only [pure_eq_ok, Prod.mk.injEq] at h
        refine ⟨store, fun _ _ hgate => ?_, .inl h.2.symm⟩
        rw [completeIdentity_gates hcompleted]
        exact hgate
      · split at h
        · simp only [pure_eq_ok, Prod.mk.injEq] at h
          exact ⟨s.store, hself, .inl h.2.symm⟩
        · rw [throw_eq_ok] at h
          exact h.elim

/-- A delivery leaves the global gate as it is. -/
theorem recordRelease_scope {s s' : ReleaseStore} {receipt : ReleaseReceipt}
    (h : s.recordRelease clk d = .ok (receipt, s')) :
    s'.store.scope = s.store.scope := by
  simp only [recordRelease] at h
  split at h
  · split at h
    · next row created hcreate =>
      cases h
      exact createRelease_scope hcreate
    · cases h
      rfl
    · cases h
  · split at h
    · cases h
      rfl
    · split at h
      · next store hcompleted =>
        cases h
        exact completeIdentity_scope hcompleted
      · split at h <;> cases h
        rfl

end ReleaseStore

end OpsPilot
