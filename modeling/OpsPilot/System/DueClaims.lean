import OpsPilot.Foundations.Paging
import OpsPilot.System.ReleaseRuns

/-!
# Claiming the due samples

One call of `claim_due_samples` reads the due sessions page by page and claims them one after the
other, every page and every claim a transaction of its own. Before each of them others may run any
operation, and hold the locks of any rows while it runs.

* `DueKept`: the due time of a session, as far as it is not after an instant, stays what it was;
  `exec_dueKept`: every later operation keeps it.
* `claimDueSamples`: the call, as a scan by pages.
* `DueScan`: the invariant of the scan.
* **`due_sample_claiming`**: what it visits and leases.
-/

namespace OpsPilot

namespace ReleaseStore

/-! ## Due times -/

/-- A job of the session that is due by `now` was due at the same time before. -/
def SameDue (now : Time) (old new : ReleaseSessionRow) : Prop :=
  ∀ slot ∈ new.slot, slot.dueAt ≤ now → ∃ slot' ∈ old.slot, slot'.dueAt = slot.dueAt

/-- No session gets another due time by `now`. -/
def DueKept (now : Time) (s t : ReleaseStore) : Prop :=
  Table.Frame (SameDue now) (fun _ => True) s.sessions t.sessions

variable {now : Time} {s t u : ReleaseStore}

theorem SameDue.refl (row : ReleaseSessionRow) : SameDue now row row :=
  fun slot hslot _ => ⟨slot, hslot, rfl⟩

theorem DueKept.refl (s : ReleaseStore) : DueKept now s s := Table.Frame.refl SameDue.refl _

theorem DueKept.of_eq (h : t.sessions = s.sessions) : DueKept now s t := by
  rw [DueKept, h]
  exact Table.Frame.refl SameDue.refl _

theorem DueKept.trans (h : DueKept now s t) (h' : DueKept now t u) : DueKept now s u := by
  refine Table.Frame.trans (fun {a b c} hab hbc slot hslot hdue => ?_) (fun _ _ => trivial) h h'
  obtain ⟨slot', hslot', heq⟩ := hbc slot hslot hdue
  obtain ⟨slot'', hslot'', heq'⟩ := hab slot' hslot' (heq ▸ hdue)
  exact ⟨slot'', hslot'', heq'.trans heq⟩

/-- Rewriting a session keeps the due times, if the one it gets is its own or later than `now`. -/
theorem DueKept.modify {sid : UUID} {f : ReleaseSessionRow → ReleaseSessionRow}
    (ht : t.sessions = s.sessions.modify sid f) (hf : ∀ row, SameDue now row (f row)) :
    DueKept now s t := by
  rw [DueKept, ht]
  exact Table.Frame.of_modify SameDue.refl hf _ _

theorem sameDue_of_none {old new : ReleaseSessionRow} (h : new.slot = none) :
    SameDue now old new := fun slot hslot => by
  rw [h] at hslot
  cases hslot

theorem sameDue_of_lt {old new : ReleaseSessionRow} (h : ∀ slot ∈ new.slot, now < slot.dueAt) :
    SameDue now old new := fun slot hslot hdue => absurd hdue (not_le.2 (h slot hslot))

theorem DueKept.endSession (s : ReleaseStore) (status : ReleaseStatus) (sid : UUID)
    (session : ReleaseSessionRow) (reason : ReleaseEndedReason) (after : ReleaseStatus)
    (sampleId : Option UUID) (recordedAt : Time) :
    DueKept now s (s.endReleaseSession status sid session reason after sampleId recordedAt) := by
  unfold endReleaseSession
  split
  · exact .refl _
  · exact .modify (f := (·.ended reason)) rfl fun row => sameDue_of_none rfl

theorem DueKept.endSessions (s : ReleaseStore) (status : ReleaseStatus)
    (l : List (UUID × ReleaseSessionRow)) (reason : ReleaseEndedReason) (after : ReleaseStatus)
    (recordedAt : Time) :
    DueKept now s (s.endReleaseSessions status l reason after recordedAt) := by
  induction l generalizing s with
  | nil => exact .refl _
  | cons e l ih => exact (DueKept.endSession ..).trans (ih _)

/-! ## Every operation keeps them -/

theorem claimReleaseDue_dueKept {clk : ReleaseClock} {owner sessionId : UUID} {leaseSeconds : ℕ}
    {lease : Option ReleaseSampleLease}
    (h : s.claimReleaseDue clk owner sessionId leaseSeconds = .ok (lease, t)) : DueKept now s t := by
  rcases claimReleaseDue_cases h with ⟨-, rfl⟩ | ⟨session, release, reason, -, hends⟩ |
    ⟨session, release, slot, scope, issued, -, hleases⟩
  · exact .refl _
  · rw [hends.written]
    exact .endSession ..
  · rw [hleases.written]
    refine .modify (f := (·.claimed owner (clk.now + seconds leaseSeconds))) rfl
      fun row slot' hslot' _ => ?_
    obtain ⟨slot, hslot, rfl⟩ := Option.map_eq_some_iff.1 hslot'
    exact ⟨slot, hslot, rfl⟩

/-- The next job of a sample decided from `now` on is due later. -/
theorem Submission.lt_due (d : Submission) (h : now ≤ d.now) : now < d.due := by
  have hpos := d.release.terms.interval_pos
  have hseconds : (0 : ℤ) < seconds d.release.terms.sampleIntervalSeconds := by
    rw [seconds]
    omega
  exact lt_of_le_of_lt h (lt_add_of_pos_right _ hseconds)

theorem Submission.adopt_dueKept (d : Submission) (h : now ≤ d.now) (s : ReleaseStore) (jobId : UUID)
    (endedAt : Time) : DueKept now s (d.adopt s jobId endedAt).2 := by
  unfold Submission.adopt
  cases d.advanced.2 with
  | some decided =>
    have hmarked : DueKept now s { s with
        samples := s.samples.insert d.evidence.sampleId
          (d.sampleRow (Option.map Prod.fst (some decided)) d.adoptedReceipt)
        sessions := s.sessions.modify d.lease.sessionId (·.marked d.marks) } :=
      .modify (f := (·.marked d.marks)) rfl fun row slot hslot _ => ⟨slot, hslot, rfl⟩
    exact hmarked.trans (DueKept.endSession ..)
  | none =>
    refine .modify (f := fun row => (row.marked d.marks).issued jobId d.due) rfl fun row => ?_
    refine sameDue_of_lt fun slot hslot => ?_
    obtain rfl := Option.some.inj hslot
    exact d.lt_due h

theorem Submission.keepHistory_dueKept (d : Submission) (h : now ≤ d.now) (s : ReleaseStore)
    (endedAt : Time) : DueKept now s (d.keepHistory s endedAt).2 := by
  unfold Submission.keepHistory
  split
  · exact .of_eq rfl
  split
  · exact DueKept.trans (DueKept.endSession ..) (.of_eq rfl)
  · split
    · refine .modify (f := (·.postponed d.due)) rfl fun row => sameDue_of_lt fun slot hslot => ?_
      obtain ⟨slot', -, rfl⟩ := Option.map_eq_some_iff.1 hslot
      exact d.lt_due h
    · exact .of_eq rfl

variable [ReleaseTexts]

theorem releaseCommand_dueKept {clk : ReleaseClock} {setting : CommandSetting} {c : ReleaseCommand}
    {receipt : ReleaseCommandReceipt} (hok : s.releaseCommand clk setting c = .ok (receipt, t)) :
    DueKept now s t := by
  obtain ⟨-, row, scope, -, -, hcases⟩ := releaseCommand_cases hok
  rcases hcases with ⟨-, -, -, -, rfl⟩ | ⟨-, ⟨reason, audit, hrejected, -⟩ | ⟨policy, happlied⟩⟩
  · exact .refl _
  · obtain ⟨-, -, -, rfl⟩ := auditRelease_ok hrejected.audit
    exact .of_eq rfl
  · obtain ⟨started, audit, audited, hstarted, haudit, -, rfl⟩ := applyCommand_ok happlied.written
    obtain ⟨-, -, -, rfl⟩ := auditRelease_ok haudit
    have hends : DueKept now s (s.endForCommand clk c row) := by
      unfold endForCommand
      split <;> exact .endSessions ..
    rcases startSession_ok hstarted with ⟨-, rfl⟩ | ⟨p, -, -, hnew, rfl⟩
    · exact hends.trans (.of_eq rfl)
    · exact hends.trans (Table.Frame.of_insert SameDue.refl hnew trivial)

theorem submitReleaseSample_dueKept {clk : ReleaseClock} {lease : ReleaseSampleLease}
    {evidence : ReleaseSampleEvidence} {jobId : UUID} {receipt : ReleaseSampleReceipt}
    (hok : s.submitReleaseSample clk lease evidence jobId = .ok (receipt, t))
    (hclock : now ≤ clk.now) : DueKept now s t := by
  rcases submitReleaseSample_cases hok with ⟨-, -, -, rfl⟩ | ⟨d, hreads, hcases⟩
  · exact .refl _
  have hnow : now ≤ d.now := hreads.now_eq ▸ hclock
  rcases hcases with ⟨-, heq⟩ | ⟨-, heq⟩
  · rw [(Prod.mk.inj heq).2]
    exact d.adopt_dueKept hnow s jobId clk.endedAt
  · rw [(Prod.mk.inj heq).2]
    exact d.keepHistory_dueKept hnow s clk.endedAt

/-- **Every operation from `now` on** leaves the due times by `now` as they are. -/
theorem exec_dueKept {op : ReleaseOp} {clk : ReleaseClock} {answer : ReleaseAnswer}
    (hok : op.exec clk s = .ok (answer, t)) (hclock : now ≤ clk.now) : DueKept now s t := by
  cases op with
  | recordRelease d =>
    obtain ⟨⟨receipt, t⟩, hrun, hok⟩ := bind_eq_ok.1 hok
    cases hok
    obtain ⟨store, -, rfl | ⟨terms, -, -, rfl⟩⟩ := recordRelease_cases hrun
    · exact .of_eq rfl
    · exact .of_eq rfl
  | releaseCommand setting c =>
    obtain ⟨⟨receipt, t⟩, hrun, hok⟩ := bind_eq_ok.1 hok
    cases hok
    exact releaseCommand_dueKept hrun
  | claimReleaseDue owner sessionId leaseSeconds =>
    obtain ⟨⟨lease, t⟩, hrun, hok⟩ := bind_eq_ok.1 hok
    cases hok
    exact claimReleaseDue_dueKept hrun
  | submitReleaseSample lease evidence jobId =>
    obtain ⟨⟨receipt, t⟩, hrun, hok⟩ := bind_eq_ok.1 hok
    cases hok
    exact submitReleaseSample_dueKept hrun hclock
  | sweepExpiredRelease observationId auditId =>
    obtain ⟨t, hrun, hok⟩ := bind_eq_ok.1 hok
    cases hok
    rcases sweepExpiredRelease_cases hrun with rfl | ⟨row, audit, audited, hswept⟩
    · exact .refl _
    · have haudited := (auditRelease_ok hswept.recorded).2.2.2
      rw [hswept.written, haudited]
      exact DueKept.trans (DueKept.endSessions s ..) (.of_eq rfl)
  | base op clk' =>
    obtain ⟨⟨issued, store⟩, hrun, hok⟩ := bind_eq_ok.1 hok
    cases hok
    exact .of_eq rfl

theorem apply_dueKept (s : ReleaseStore) {calls : List ReleaseCall}
    (hclock : ∀ call ∈ calls, now ≤ call.clock.now) : DueKept now s (calls.foldl apply s) := by
  induction calls generalizing s with
  | nil => exact .refl s
  | cons call calls ih =>
    have hstep : DueKept now s (s.apply call) := by
      unfold apply
      split
      · next r hok => exact exec_dueKept hok (hclock call List.mem_cons_self)
      · exact .refl s
    exact hstep.trans (ih _ fun c hc => hclock c (List.mem_cons_of_mem _ hc))

end ReleaseStore

/-! ## The call -/

/-- What a transaction of the call meets: the operations others ran since the one before it, the
clock, and the subjects and sessions whose rows others have locked. -/
structure DueSetting where
  before : List ReleaseCall
  clock : ReleaseClock
  incidentClock : Clock
  lockedSubject : UUID → Bool
  lockedSession : UUID → Bool

/-- The database, what the transaction that runs meets, and how many the call has run. -/
structure DueWorld where
  store : ReleaseStore
  setting : DueSetting
  done : ℕ

/-- `purpose` of a session. -/
inductive SessionPurpose
  | incidentRecovery | releaseObservation
  deriving DecidableEq

/-- A candidate: `session_id`, `purpose` and `claim_order`. -/
structure DueSession where
  purpose : SessionPurpose
  sessionId : UUID
  claimOrder : Time
  deriving DecidableEq

/-- What candidates are ordered by, and what the cursor holds. -/
def DueSession.key (row : DueSession) : Time ×ₗ UUID := toLex (row.claimOrder, row.sessionId)

/-- `SampleLease | ReleaseSampleLease`. -/
inductive IssuedLease
  | incident (lease : SampleLease)
  | release (lease : ReleaseSampleLease)

/-- The session of a lease. -/
def IssuedLease.sessionId : IssuedLease → UUID
  | .incident lease => lease.sessionId
  | .release lease => lease.sessionId

namespace ReleaseStore

variable (s : ReleaseStore)

/-- Neither gate of a target is closed, as the candidates are selected. -/
def gatesOpen (targetId : UUID) : Bool :=
  s.store.scope.suspended = false ∧
    ((s.store.targetSuspensions.get targetId).getD {}).suspended = false

/-- The due sessions of releases. -/
def dueReleases (now : Time) : List DueSession :=
  s.sessions.rows.filterMap fun e =>
    if s.gatesOpen e.2.targetId then
      (e.2.due now).map fun slot => ⟨.releaseObservation, e.1, slot.dueAt⟩
    else none

/-- The due sessions of incidents: they come before the releases by their interval. -/
def dueIncidents (now : Time) : List DueSession :=
  s.store.sessions.rows.filterMap fun e =>
    if s.store.sampleDue e.2 now then
      e.2.activeSampleDueAt.map fun dueAt =>
        ⟨.incidentRecovery, e.1, dueAt - seconds e.2.sampleIntervalSeconds⟩
    else none

/-- A page of candidates. -/
def duePage (now : Time) (cursor : Option (Time ×ₗ UUID)) (pageLimit : ℕ) : List DueSession :=
  (((s.dueReleases now ++ s.dueIncidents now).filter fun row =>
    cursor.all (· < row.key)).mergeSort fun a b => a.key ≤ b.key).take pageLimit

end ReleaseStore

namespace DueWorld

variable (w : DueWorld) (owner : UUID) (leaseSeconds : ℕ)

/-- `_claim_release_due`: nothing, when a row is locked. -/
def claimRelease (sessionId : UUID) : Except ReleaseError (List IssuedLease × DueWorld) :=
  match w.store.sessions.get sessionId with
  | none => pure ([], w)
  | some session =>
    if w.setting.lockedSubject session.observationId ∨ w.setting.lockedSession sessionId then
      pure ([], w)
    else do
      let r ← w.store.claimReleaseDue w.setting.clock owner sessionId leaseSeconds
      pure (r.1.toList.map .release, { w with store := r.2 })

/-- `_claim_incident_due_samples` of one session. -/
def claimIncident (sessionId : UUID) : Except ReleaseError (List IssuedLease × DueWorld) :=
  match w.store.store.sessions.get sessionId with
  | none => pure ([], w)
  | some session =>
    if w.setting.lockedSubject session.incidentId ∨ w.setting.lockedSession sessionId then
      pure ([], w)
    else do
      let r ← (w.store.store.claimDueSample w.setting.incidentClock sessionId owner
        leaseSeconds).mapError ReleaseError.store
      pure (r.1.toList.map .incident, { w with store := { w.store with store := r.2 } })

/-- Try a candidate. -/
def claim (row : DueSession) : Except ReleaseError (List IssuedLease × DueWorld) :=
  match row.purpose with
  | .releaseObservation => w.claimRelease owner leaseSeconds row.sessionId
  | .incidentRecovery => w.claimIncident owner leaseSeconds row.sessionId

end DueWorld

section

variable [ReleaseTexts]

/-- The pages and claims of a call, between the operations of others. -/
def duePaging (others : ℕ → DueSetting) (now : Time) (owner : UUID) (leaseSeconds : ℕ) :
    Paging DueWorld DueSession IssuedLease ReleaseError (Time ×ₗ UUID) where
  arrive w :=
    ⟨(others w.done).before.foldl ReleaseStore.apply w.store, others w.done, w.done + 1⟩
  read w := w.store.duePage now
  probe w := w.claim owner leaseSeconds
  key := DueSession.key

/-- `claim_due_samples`. The first page reads the clock; an error of a claim ends the call. -/
def claimDueSamples (others : ℕ → DueSetting) (owner : UUID) (limit leaseSeconds : ℕ)
    (s : ReleaseStore) :
    Except ReleaseError (Scan DueWorld DueSession IssuedLease ReleaseError) := do
  refuse (limit = 0 ∨ leaseSeconds = 0) (.store .invalidInput)
  pure ((duePaging others (others 0).clock.now owner leaseSeconds).run limit (8 * limit)
    ⟨s, others 0, 0⟩)

end

/-! ## Candidates -/

namespace ReleaseStore

variable {s : ReleaseStore} {now : Time} {cursor : Option (Time ×ₗ UUID)} {n : ℕ} {row : DueSession}

variable (s now cursor n) in
theorem duePage_perm_sublist :
    ∃ l, l.Perm ((s.dueReleases now ++ s.dueIncidents now).filter fun row =>
      cursor.all (· < row.key)) ∧ List.Sublist (s.duePage now cursor n) l :=
  ⟨_, List.mergeSort_perm _ _, List.take_sublist _ _⟩

theorem length_duePage_le : (s.duePage now cursor n).length ≤ n := List.length_take_le _ _

variable (s now cursor n) in
theorem pairwise_duePage : (s.duePage now cursor n).Pairwise fun a b => a.key ≤ b.key := by
  refine List.Pairwise.sublist (List.take_sublist _ _) ?_
  have htrans : ∀ a b c : DueSession, decide (a.key ≤ b.key) = true → decide (b.key ≤ c.key) = true →
      decide (a.key ≤ c.key) = true := by
    intro a b c hab hbc
    rw [decide_eq_true_eq] at hab hbc ⊢
    exact hab.trans hbc
  have htotal : ∀ a b : DueSession, (decide (a.key ≤ b.key) || decide (b.key ≤ a.key)) = true :=
    fun a b => by simpa using le_total a.key b.key
  exact (List.pairwise_mergeSort htrans htotal _).imp fun h => by simpa using h

/-- A candidate is due, and after the cursor. -/
theorem mem_duePage (h : row ∈ s.duePage now cursor n) :
    (row ∈ s.dueReleases now ∨ row ∈ s.dueIncidents now) ∧ ∀ c ∈ cursor, c < row.key := by
  obtain ⟨l, hperm, hsub⟩ := duePage_perm_sublist s now cursor n
  obtain ⟨hmem, hcursor⟩ := List.mem_filter.1 (hperm.mem_iff.1 (hsub.subset h))
  refine ⟨List.mem_append.1 hmem, fun c hc => ?_⟩
  rw [Option.mem_def.1 hc] at hcursor
  exact of_decide_eq_true hcursor

theorem mem_dueReleases (h : row ∈ s.dueReleases now) :
    row.purpose = .releaseObservation ∧ ∃ session slot,
      s.sessions.get row.sessionId = some session ∧ session.due now = some slot ∧
        row.claimOrder = slot.dueAt := by
  obtain ⟨e, he, hrow⟩ := List.mem_filterMap.1 h
  split at hrow
  · obtain ⟨slot, hslot, rfl⟩ := Option.map_eq_some_iff.1 hrow
    exact ⟨rfl, e.2, slot, Table.mem_rows_iff.1 he, hslot, rfl⟩
  · cases hrow

theorem mem_dueIncidents (h : row ∈ s.dueIncidents now) : row.purpose = .incidentRecovery := by
  obtain ⟨e, -, hrow⟩ := List.mem_filterMap.1 h
  split at hrow
  · obtain ⟨slot, -, rfl⟩ := Option.map_eq_some_iff.1 hrow
    rfl
  · cases hrow

/-- The sessions of releases among some candidates. -/
def releaseSessions (rows : List DueSession) : List UUID :=
  (rows.filter (·.purpose = .releaseObservation)).map (·.sessionId)

theorem releaseSessions_append (rows rows' : List DueSession) :
    releaseSessions (rows ++ rows') = releaseSessions rows ++ releaseSessions rows' := by
  rw [releaseSessions, List.filter_append, List.map_append]
  rfl

theorem mem_releaseSessions {rows : List DueSession} {sid : UUID} :
    sid ∈ releaseSessions rows ↔
      ∃ row ∈ rows, row.purpose = .releaseObservation ∧ row.sessionId = sid := by
  simp [releaseSessions, and_assoc]

/-- No session of a release stands twice on a page. -/
theorem nodup_duePage : (releaseSessions (s.duePage now cursor n)).Nodup := by
  obtain ⟨l, hperm, hsub⟩ := duePage_perm_sublist s now cursor n
  have hincidents : releaseSessions (s.dueIncidents now) = [] := by
    rw [releaseSessions, List.map_eq_nil_iff, List.filter_eq_nil_iff]
    intro row hrow
    simp [mem_dueIncidents hrow]
  have hreleases : List.Sublist (releaseSessions (s.dueReleases now))
      (s.sessions.rows.map Prod.fst) := by
    refine (List.filter_sublist.map _).trans ?_
    rw [dueReleases]
    induction s.sessions.rows with
    | nil => exact List.Sublist.slnil
    | cons e l ih =>
      rw [List.map_cons, List.filterMap_cons]
      split
      · exact ih.cons _
      · next row hrow =>
        have hid : row.sessionId = e.1 := by
          split at hrow
          · obtain ⟨slot, -, rfl⟩ := Option.map_eq_some_iff.1 hrow
            rfl
          · cases hrow
        rw [List.map_cons, hid]
        exact ih.cons_cons _
  have hall : (releaseSessions (s.dueReleases now ++ s.dueIncidents now)).Nodup := by
    rw [releaseSessions_append, hincidents, List.append_nil]
    exact hreleases.nodup s.sessions.keys_nodup
  have hl : (releaseSessions l).Nodup := by
    have hfiltered := (hperm.filter (·.purpose = .releaseObservation)).map (·.sessionId)
    refine hfiltered.nodup_iff.2 (List.Nodup.sublist ?_ hall)
    exact ((List.filter_sublist).filter _).map _
  exact hl.sublist ((hsub.filter _).map _)

end ReleaseStore

/-! ## Claims -/

/-- The candidate may be leased: its session is authorized, and its job is due and nobody's. -/
def DueWorld.Leasable (w : DueWorld) (row : DueSession) : Prop :=
  match row.purpose with
  | .releaseObservation => ∃ session slot, w.store.sessions.get row.sessionId = some session ∧
      session.state = .authorized ∧ session.slot = some slot ∧
      slot.dueAt ≤ w.setting.clock.now ∧ (∀ until' ∈ slot.leaseUntil, until' ≤ w.setting.clock.now) ∧
      w.setting.clock.now < session.deadlineAt
  | .incidentRecovery => ∃ session, w.store.store.sessions.get row.sessionId = some session ∧
      session.state = .authorized ∧ session.activeSampleJobId.isSome ∧
      (∃ dueAt ∈ session.activeSampleDueAt, dueAt ≤ w.setting.incidentClock.now) ∧
      (∀ until' ∈ session.activeSampleLeaseUntil, until' ≤ w.setting.incidentClock.now) ∧
      w.setting.incidentClock.now < session.deadlineAt

/-- A lease of an incident's session is issued for a job that is due. -/
theorem Store.claimDueSample_leased {s s' : Store} {clk : Clock} {sessionId owner : UUID}
    {leaseSeconds : ℕ} {lease : SampleLease}
    (h : s.claimDueSample clk sessionId owner leaseSeconds = .ok (some lease, s')) :
    ∃ row, s.sessions.get sessionId = some row ∧ s.sampleDue row clk.now = true ∧
      lease.sessionId = sessionId := by
  simp only [claimDueSample, refuse_bind_eq_ok] at h
  obtain ⟨-, h⟩ := h
  split at h
  · cases h
  · next row hrow =>
    obtain ⟨hrow, hdue⟩ := Option.filter_eq_some_iff.1 hrow
    simp only [require_bind_eq_ok] at h
    obtain ⟨incident, -, h⟩ := h
    obtain ⟨scope, -, h⟩ := bind_eq_ok.1 h
    split at h
    · cases h
    · simp only [require_bind_eq_ok, pure_eq_ok, Prod.mk.injEq] at h
      obtain ⟨jobId, -, sequence, -, hlease, -⟩ := h
      refine ⟨row, hrow, hdue, ?_⟩
      rw [← Option.some.inj hlease]
      rfl

namespace DueWorld

variable {w w' : DueWorld} {owner : UUID} {leaseSeconds : ℕ} {row : DueSession}
  {items : List IssuedLease} {now : Time}

/-- A claim of a release gives one lease at most, of a job that may be leased. -/
theorem claimRelease_cases {sessionId : UUID}
    (h : w.claimRelease owner leaseSeconds sessionId = .ok (items, w')) :
    items = [] ∧ w' = w ∨ ∃ lease store,
      w.store.claimReleaseDue w.setting.clock owner sessionId leaseSeconds = .ok (lease, store) ∧
        items = lease.toList.map .release ∧ w' = { w with store } := by
  unfold claimRelease at h
  split at h
  · simp only [pure_eq_ok, Prod.mk.injEq] at h
    exact .inl ⟨h.1.symm, h.2.symm⟩
  · split at h
    · simp only [pure_eq_ok, Prod.mk.injEq] at h
      exact .inl ⟨h.1.symm, h.2.symm⟩
    · obtain ⟨⟨lease, store⟩, hclaim, h⟩ := bind_eq_ok.1 h
      simp only [pure_eq_ok, Prod.mk.injEq] at h
      exact .inr ⟨lease, store, hclaim, h.1.symm, h.2.symm⟩

theorem claimIncident_cases {sessionId : UUID}
    (h : w.claimIncident owner leaseSeconds sessionId = .ok (items, w')) :
    items = [] ∧ w' = w ∨ ∃ lease store,
      w.store.store.claimDueSample w.setting.incidentClock sessionId owner leaseSeconds =
        .ok (lease, store) ∧
        items = lease.toList.map .incident ∧ w' = { w with store := { w.store with store } } := by
  unfold claimIncident at h
  split at h
  · simp only [pure_eq_ok, Prod.mk.injEq] at h
    exact .inl ⟨h.1.symm, h.2.symm⟩
  · split at h
    · simp only [pure_eq_ok, Prod.mk.injEq] at h
      exact .inl ⟨h.1.symm, h.2.symm⟩
    · obtain ⟨⟨lease, store⟩, hclaim, h⟩ := bind_eq_ok.1 h
      simp only [pure_eq_ok, Prod.mk.injEq] at h
      exact .inr ⟨lease, store, ReleaseStore.mapError_eq_ok.1 hclaim, h.1.symm, h.2.symm⟩

/-- What a claim gives: one lease at most, of the candidate. -/
theorem length_claim_le (h : w.claim owner leaseSeconds row = .ok (items, w')) :
    items.length ≤ 1 := by
  unfold claim at h
  split at h
  · rcases claimRelease_cases h with ⟨rfl, -⟩ | ⟨lease, store, -, rfl, -⟩
    · exact Nat.zero_le 1
    · cases lease <;> simp
  · rcases claimIncident_cases h with ⟨rfl, -⟩ | ⟨lease, store, -, rfl, -⟩
    · exact Nat.zero_le 1
    · cases lease <;> simp

/-- **A lease is issued** for the session that was tried, and only when its job may be leased. -/
theorem leasable_of_claim (h : w.claim owner leaseSeconds row = .ok (items, w'))
    {lease : IssuedLease} (hlease : lease ∈ items) :
    lease.sessionId = row.sessionId ∧ w.Leasable row := by
  obtain ⟨purpose, sessionId, claimOrder⟩ := row
  cases purpose with
  | releaseObservation =>
    rcases claimRelease_cases h with ⟨rfl, -⟩ | ⟨issued, store, hclaim, rfl, -⟩
    · cases hlease
    rcases ReleaseStore.claimReleaseDue_cases hclaim with ⟨rfl, -⟩ | ⟨session, release, reason, rfl, -⟩ |
      ⟨session, release, slot, scope, given, rfl, hleases⟩
    · cases hlease
    · cases hlease
    · simp only [Option.toList_some, List.map_cons, List.map_nil, List.mem_singleton] at hlease
      obtain ⟨hslot, hdue⟩ := Option.filter_eq_some_iff.1 hleases.due
      rw [decide_eq_true_eq] at hdue
      refine ⟨by rw [hlease, IssuedLease.sessionId, hleases.issued]; rfl, session, slot,
        hleases.found, hdue.1, hslot, hdue.2.1, fun until' huntil => ?_, hdue.2.2.2⟩
      have hall := hdue.2.2.1
      rw [Option.mem_def.1 huntil] at hall
      exact of_decide_eq_true hall
  | incidentRecovery =>
    rcases claimIncident_cases h with ⟨rfl, -⟩ | ⟨issued, store, hclaim, rfl, -⟩
    · cases hlease
    cases issued with
    | none => cases hlease
    | some given =>
      obtain ⟨session, hget, hdue, hid⟩ := Store.claimDueSample_leased hclaim
      simp only [Option.toList_some, List.map_cons, List.map_nil, List.mem_singleton] at hlease
      simp only [Store.sampleDue, decide_eq_true_eq] at hdue
      obtain ⟨hstate, hjob, hdueAt, hfree, hdeadline, -, -⟩ := hdue
      refine ⟨by rw [hlease]; exact hid, session, hget, hstate, hjob, ?_, fun until' huntil => ?_,
        hdeadline⟩
      · obtain ⟨dueAt, hmem, hle⟩ := (Option.any_eq_true _ _).1 hdueAt
        exact ⟨dueAt, hmem, of_decide_eq_true hle⟩
      · rw [Option.mem_def.1 huntil] at hfree
        exact of_decide_eq_true hfree

variable (now) in
/-- A claim leaves the due times of releases as they are. -/
theorem claim_dueKept (h : w.claim owner leaseSeconds row = .ok (items, w')) :
    ReleaseStore.DueKept now w.store w'.store ∧ w'.done = w.done := by
  unfold claim at h
  split at h
  · rcases claimRelease_cases h with ⟨-, rfl⟩ | ⟨lease, store, hclaim, -, rfl⟩
    · exact ⟨.refl _, rfl⟩
    · exact ⟨ReleaseStore.claimReleaseDue_dueKept hclaim, rfl⟩
  · rcases claimIncident_cases h with ⟨-, rfl⟩ | ⟨lease, store, hclaim, -, rfl⟩
    · exact ⟨.refl _, rfl⟩
    · exact ⟨.of_eq rfl, rfl⟩

end DueWorld

/-! ## The scan -/

/-- The scan of a call. -/
abbrev DueCall := Scan DueWorld DueSession IssuedLease ReleaseError

/-- The candidates visited so far. -/
def DueCall.visited (scan : DueCall) : List DueSession := scan.visits.map Visit.row

/-- What is known of a candidate that is visited or on the page: it is not after the cursor, and its
session is either due as it was read, or not due by `now`. -/
structure DueRead (now : Time) (cursor : Option (Time ×ₗ UUID)) (s : ReleaseStore)
    (row : DueSession) : Prop where
  before : ∃ c ∈ cursor, row.key ≤ c
  kept : row.purpose = .releaseObservation → ∃ session, s.sessions.get row.sessionId = some session ∧
    ∀ slot ∈ session.slot, slot.dueAt ≤ now → slot.dueAt = row.claimOrder

/-- The invariant of the scan: the candidates visited and those left on the page are in the order of
their keys, and no session of a release is among them twice. -/
structure DueScan (now : Time) (cursor : Option (Time ×ₗ UUID)) (rows : List DueSession)
    (scan : DueCall) : Prop where
  sorted : (scan.visited ++ rows).Pairwise fun a b => a.key ≤ b.key
  once : (ReleaseStore.releaseSessions (scan.visited ++ rows)).Nodup
  read : ∀ row ∈ scan.visited ++ rows, DueRead now cursor scan.state.store row
  started : scan.visited ++ rows ≠ [] → 0 < scan.state.done

section

variable {now : Time} {cursor cursor' : Option (Time ×ₗ UUID)} {s t : ReleaseStore}
  {row : DueSession} {rows : List DueSession} {scan : DueCall}

theorem DueRead.move (h : DueRead now cursor s row) (hkept : ReleaseStore.DueKept now s t)
    (hcursor : ∀ c ∈ cursor, ∃ c' ∈ cursor', c ≤ c') : DueRead now cursor' t row where
  before := by
    obtain ⟨c, hc, hle⟩ := h.before
    obtain ⟨c', hc', hle'⟩ := hcursor c hc
    exact ⟨c', hc', hle.trans hle'⟩
  kept hpurpose := by
    obtain ⟨session, hget, hdue⟩ := h.kept hpurpose
    obtain ⟨session', hget', hsame⟩ := hkept.kept hget
    refine ⟨session', hget', fun slot hslot hle => ?_⟩
    obtain ⟨slot', hslot', heq⟩ := hsame slot hslot hle
    exact heq ▸ hdue slot' hslot' (heq ▸ hle)

/-- A candidate of a page, as it was read. -/
theorem DueRead.of_page {n : ℕ} (h : row ∈ s.duePage now cursor n)
    (hlast : ∃ c ∈ cursor', row.key ≤ c) : DueRead now cursor' s row where
  before := hlast
  kept hpurpose := by
    rcases (ReleaseStore.mem_duePage h).1 with hrelease | hincident
    · obtain ⟨-, session, slot, hget, hdue, horder⟩ := ReleaseStore.mem_dueReleases hrelease
      refine ⟨session, hget, fun slot' hslot' _ => ?_⟩
      have hslot := (ReleaseStore.due_authorized hdue).1
      obtain rfl := Option.some.inj (hslot.symm.trans hslot')
      exact horder.symm
    · rw [ReleaseStore.mem_dueIncidents hincident] at hpurpose
      cases hpurpose

/-- A session of a release that was read once is not on a later page. -/
theorem DueRead.not_mem_page {row' : DueSession} {n : ℕ} (h : DueRead now cursor s row)
    (hpurpose : row.purpose = .releaseObservation) (hpurpose' : row'.purpose = .releaseObservation)
    (hpage : row' ∈ s.duePage now cursor n) : row'.sessionId ≠ row.sessionId := by
  intro hid
  obtain ⟨hmem, hafter⟩ := ReleaseStore.mem_duePage hpage
  have hrelease := hmem.resolve_right fun hincident => by
    rw [ReleaseStore.mem_dueIncidents hincident] at hpurpose'
    cases hpurpose'
  obtain ⟨-, session, slot, hget, hdue, horder⟩ := ReleaseStore.mem_dueReleases hrelease
  obtain ⟨session', hget', hkept⟩ := h.kept hpurpose
  rw [← hid, hget] at hget'
  obtain rfl := Option.some.inj hget'
  obtain ⟨hslot, hdueAt⟩ := Option.filter_eq_some_iff.1 hdue
  rw [decide_eq_true_eq] at hdueAt
  -- it is due at the time it was read with, so its key is the one the cursor has passed
  have hkey : row'.key = row.key := by
    rw [DueSession.key, DueSession.key, hid, horder, hkept slot hslot hdueAt.2.1]
  obtain ⟨c, hc, hle⟩ := h.before
  have hlt := hafter c hc
  rw [hkey] at hlt
  exact absurd (hlt.trans_le hle) (lt_irrefl _)

/-- The cursor after a page is not before any of its candidates. -/
theorem le_last_of_mem {l : List DueSession} (hsorted : l.Pairwise fun a b => a.key ≤ b.key)
    (h : row ∈ l) : ∃ last, l.getLast? = some last ∧ row.key ≤ last.key := by
  obtain ⟨init, last, rfl⟩ :=
    (List.eq_nil_or_concat' l).resolve_left (List.ne_nil_of_mem h)
  refine ⟨last, by simp, ?_⟩
  rcases List.mem_append.1 h with h | h
  · exact (List.pairwise_append.1 hsorted).2.2 _ h _ List.mem_cons_self
  · rw [List.mem_singleton.1 h]

variable [ReleaseTexts] {others : ℕ → DueSetting} {owner : UUID} {leaseSeconds : ℕ}

/-- **A page** keeps the invariant. -/
theorem DueScan.page (h : DueScan now cursor [] scan)
    (hkept : scan.visited ≠ [] → ReleaseStore.DueKept now scan.state.store
      ((duePaging others now owner leaseSeconds).arrive scan.state).store) (n : ℕ) :
    let w := (duePaging others now owner leaseSeconds).arrive scan.state
    DueScan now (((w.store.duePage now cursor n).getLast?.map DueSession.key).or cursor)
      (w.store.duePage now cursor n) { scan with state := w } := by
  intro w
  have hsorted := ReleaseStore.pairwise_duePage w.store now cursor n
  have hcursor : ∀ c ∈ cursor, ∃ c' ∈ ((w.store.duePage now cursor n).getLast?.map
      DueSession.key).or cursor, c ≤ c' := by
    intro c hc
    cases hlast : (w.store.duePage now cursor n).getLast? with
    | none => exact ⟨c, hc, le_rfl⟩
    | some last =>
      have hmem := List.mem_of_getLast? hlast
      exact ⟨last.key, rfl, ((ReleaseStore.mem_duePage hmem).2 c hc).le⟩
  have hvisited : ∀ row ∈ scan.visited, DueRead now cursor w.store row := by
    intro row hrow
    exact (h.read row (List.mem_append_left _ hrow)).move (hkept (List.ne_nil_of_mem hrow))
      fun c hc => ⟨c, hc, le_rfl⟩
  constructor
  · refine List.pairwise_append.2 ⟨h.sorted.sublist (List.sublist_append_left _ _), hsorted, ?_⟩
    intro a ha b hb
    obtain ⟨c, hc, hle⟩ := (hvisited a ha).before
    exact hle.trans ((ReleaseStore.mem_duePage hb).2 c hc).le
  · have honce := h.once
    rw [List.append_nil] at honce
    rw [ReleaseStore.releaseSessions_append]
    refine List.nodup_append.2 ⟨honce, ReleaseStore.nodup_duePage, ?_⟩
    intro a ha b hb hab
    obtain ⟨row, hrow, hpurpose, rfl⟩ := ReleaseStore.mem_releaseSessions.1 ha
    obtain ⟨row', hrow', hpurpose', rfl⟩ := ReleaseStore.mem_releaseSessions.1 hb
    exact (hvisited row hrow).not_mem_page hpurpose hpurpose' hrow' hab.symm
  · intro row hrow
    rcases List.mem_append.1 hrow with hrow | hrow
    · exact (hvisited row hrow).move (.refl _) hcursor
    · refine DueRead.of_page hrow ?_
      obtain ⟨last, hlast, hle⟩ := le_last_of_mem hsorted hrow
      exact ⟨last.key, by rw [hlast]; rfl, hle⟩
  · exact fun _ => Nat.succ_pos _

/-- **A try** keeps the invariant. -/
theorem DueScan.tryRow (h : DueScan now cursor (row :: rows) scan)
    (hkept : ReleaseStore.DueKept now scan.state.store
      ((duePaging others now owner leaseSeconds).arrive scan.state).store) :
    DueScan now cursor rows ((duePaging others now owner leaseSeconds).tryRow scan row) := by
  -- the row moves from the page to the visits, and the store keeps the due times
  have hmove : ∀ (next : DueCall), next.visited = scan.visited ++ [row] →
      ReleaseStore.DueKept now scan.state.store next.state.store → 0 < next.state.done →
      DueScan now cursor rows next := by
    intro next hvisited hstore hdone
    have hlist : next.visited ++ rows = scan.visited ++ row :: rows := by
      rw [hvisited, List.append_assoc]
      rfl
    refine ⟨by rw [hlist]; exact h.sorted, by rw [hlist]; exact h.once, fun row' hrow' => ?_,
      fun _ => hdone⟩
    rw [hlist] at hrow'
    exact (h.read row' hrow').move hstore fun c hc => ⟨c, hc, le_rfl⟩
  have hmap : ∀ (w : DueWorld) (items : List IssuedLease),
      (scan.visits ++ [(⟨row, w, items⟩ : Visit DueWorld DueSession IssuedLease)]).map Visit.row =
        scan.visited ++ [row] := fun w items => List.map_append
  unfold Paging.tryRow
  dsimp only
  split
  · next items w hclaim =>
    obtain ⟨hclaimed, hdone⟩ := DueWorld.claim_dueKept now hclaim
    refine hmove _ (hmap _ _) (hkept.trans hclaimed) ?_
    show 0 < w.done
    rw [hdone]
    exact Nat.succ_pos _
  · exact hmove _ (hmap _ _) hkept (Nat.succ_pos _)

/-- The operations of others between the transactions of a call run from its reading on. -/
theorem dueKept_arrive (hclock : ∀ n, ∀ call ∈ (others (n + 1)).before, now ≤ call.clock.now)
    {w : DueWorld} (hdone : 0 < w.done) : ReleaseStore.DueKept now w.store
      ((duePaging others now owner leaseSeconds).arrive w).store := by
  obtain ⟨n, hn⟩ : ∃ n, w.done = n + 1 := ⟨w.done - 1, by omega⟩
  refine ReleaseStore.apply_dueKept w.store fun call hcall => ?_
  rw [hn] at hcall
  exact hclock n call hcall

/-- **One call of `claim_due_samples`**, whatever others run and lock meanwhile. It visits the
candidates in the order of their keys, every session of a release at most once, and issues at most
`limit` leases. It stops by itself, after at most `8 * limit` claims. A lease is for the session that
was visited, which the claim found authorized, due and not leased. -/
theorem due_sample_claiming {limit : ℕ} {s : ReleaseStore} {scan : DueCall}
    (h : claimDueSamples others owner limit leaseSeconds s = .ok scan)
    (hclock : ∀ n, ∀ call ∈ (others (n + 1)).before, (others 0).clock.now ≤ call.clock.now) :
    (scan.visited.Pairwise fun a b => a.key ≤ b.key) ∧
      ((scan.visited.filter (·.purpose = .releaseObservation)).Pairwise fun a b =>
        a.key < b.key ∧ a.sessionId ≠ b.sessionId) ∧
      scan.got.length ≤ limit ∧ scan.visits.length ≤ 8 * limit ∧
      (∀ fuel, (duePaging others (others 0).clock.now owner leaseSeconds).pages limit (8 * limit)
        (8 * limit + fuel) none ⟨⟨s, others 0, 0⟩, [], [], none⟩ = scan) ∧
      scan.got = scan.visits.flatMap Visit.items ∧
      ∀ visit ∈ scan.visits, ∀ lease ∈ visit.items,
        lease.sessionId = visit.row.sessionId ∧ visit.found.Leasable visit.row := by
  simp only [claimDueSamples, refuse_bind_eq_ok, pure_eq_ok] at h
  obtain ⟨-, rfl⟩ := h
  set P := duePaging others (others 0).clock.now owner leaseSeconds with hP
  have htraced : P.Traced (P.run limit (8 * limit) ⟨s, others 0, 0⟩) := Paging.traced_run _
  obtain ⟨cursor, rows, hinv⟩ : ∃ cursor rows, DueScan (others 0).clock.now cursor rows
      (P.run limit (8 * limit) ⟨s, others 0, 0⟩) := by
    refine P.pages_induction _ (fun cursor n scan hscan => hscan.page (fun hne => ?_) n)
      (fun cursor row rows scan hscan => hscan.tryRow ?_) (8 * limit) ⟨.nil, .nil, fun row hrow => (by cases hrow), fun hne => absurd rfl hne⟩
    · exact dueKept_arrive hclock (hscan.started (by simpa using hne))
    · exact dueKept_arrive hclock (hscan.started (by simp))
  have hsorted := hinv.sorted.sublist (List.sublist_append_left _ rows)
  have honce : (ReleaseStore.releaseSessions
      (DueCall.visited (P.run limit (8 * limit) ⟨s, others 0, 0⟩))).Nodup := by
    have hall := hinv.once
    rw [ReleaseStore.releaseSessions_append] at hall
    exact (List.nodup_append.1 hall).1
  refine ⟨hsorted, ?_, Paging.length_got_pages ?_ _ _ (Nat.zero_le _),
    Paging.length_visits_pages ?_ _ _ (Nat.zero_le _), fun fuel => ?_, htraced.got, ?_⟩
  · refine ((hsorted.sublist (List.filter_sublist)).and (List.pairwise_map.1 honce)).imp ?_
    rintro a b ⟨hle, hne⟩
    refine ⟨lt_of_le_of_ne hle fun heq => hne ?_, hne⟩
    exact congrArg (fun key : Time ×ₗ UUID => (ofLex key).2) heq
  · exact fun w row r hok => DueWorld.length_claim_le hok
  · exact fun w cursor n => ReleaseStore.length_duePage_le
  · induction fuel with
    | zero => rfl
    | succ fuel ih =>
      rw [← ih]
      exact Paging.pages_fuel _ (by simp)
  · intro visit hvisit lease hlease
    rcases htraced.items visit hvisit with hnil | ⟨w, hok⟩
    · rw [hnil] at hlease
      cases hlease
    · exact DueWorld.leasable_of_claim hok hlease

end

namespace Scenario

/-- The release 1 is authorized, its job is due, and nobody else is at work. -/
def alone (n : ℕ) : DueSetting where
  before := []
  clock := releaseClock n
  incidentClock := ⟨seconds n, seconds n, le_rfl⟩
  lockedSubject _ := false
  lockedSession _ := false

/-- The job of the session of the release is leased. -/
theorem due_sample_claiming_alone :
    ∃ scan, claimDueSamples (fun _ => alone 90) 9 1 30 (releaseReached 2) = .ok scan ∧
      scan.got.map IssuedLease.sessionId = [101] ∧ scan.visits.length ≤ 8 ∧
      ∀ visit ∈ scan.visits, ∀ lease ∈ visit.items, visit.found.Leasable visit.row := by
  refine ⟨_, rfl, ?_⟩
  have hcall : claimDueSamples (fun _ => alone 90) 9 1 30 (releaseReached 2) = .ok _ := rfl
  obtain ⟨-, -, -, hvisits, -, -, hleases⟩ :=
    due_sample_claiming hcall fun _ call hcall => (by cases hcall)
  exact ⟨by decide +kernel, hvisits, fun visit hvisit lease hlease =>
    (hleases visit hvisit lease hlease).2⟩

end Scenario

end OpsPilot
