import OpsPilot.Observation.ReleaseRecords
import OpsPilot.Observation.ReleaseSamples
import OpsPilot.System.Simulation

/-!
# Releases under every operation

The transition system of the releases: deliveries, commands, claims, samples, sweeps and every
operation of the incident store, in any order and under any clock. Nothing is asked of a lease a
sample comes with. The database may lose any transaction; nothing of it is kept.

* `ReleaseStore.Sound`: the invariant; `exec_sound`: every operation keeps it.
* `ReleaseStore.releaseCommand_repeated`: a command that was answered is answered again, whatever
  happens in between.
-/

namespace OpsPilot

/-- An operation on the releases, or one of the incident store. -/
inductive ReleaseOp
  | recordRelease (d : ReleaseDelivery)
  | releaseCommand (setting : CommandSetting) (c : ReleaseCommand)
  | claimReleaseDue (owner sessionId : UUID) (leaseSeconds : ℕ)
  | submitReleaseSample (lease : ReleaseSampleLease) (evidence : ReleaseSampleEvidence)
      (jobId : UUID)
  | sweepExpiredRelease (observationId auditId : UUID)
  | base (op : Op) (clk : Clock)

/-- What an operation answers. -/
inductive ReleaseAnswer
  | delivery (receipt : ReleaseReceipt)
  | command (receipt : ReleaseCommandReceipt)
  | lease (lease : Option ReleaseSampleLease)
  | sample (receipt : ReleaseSampleReceipt)
  | done

/-- An operation and the clock of its transaction. -/
structure ReleaseCall where
  op : ReleaseOp
  clock : ReleaseClock

/-- Run an operation as one transaction. -/
def ReleaseOp.exec [ReleaseTexts] (op : ReleaseOp) (clk : ReleaseClock) (s : ReleaseStore) :
    Except ReleaseError (ReleaseAnswer × ReleaseStore) :=
  match op with
  | .recordRelease d => do
    let r ← s.recordRelease clk d
    pure (.delivery r.1, r.2)
  | .releaseCommand setting c => do
    let r ← s.releaseCommand clk setting c
    pure (.command r.1, r.2)
  | .claimReleaseDue owner sessionId leaseSeconds => do
    let r ← s.claimReleaseDue clk owner sessionId leaseSeconds
    pure (.lease r.1, r.2)
  | .submitReleaseSample lease evidence jobId => do
    let r ← s.submitReleaseSample clk lease evidence jobId
    pure (.sample r.1, r.2)
  | .sweepExpiredRelease observationId auditId => do
    let t ← s.sweepExpiredRelease clk observationId auditId
    pure (.done, t)
  | .base op clk => do
    let r ← (op.exec clk s.store).mapError ReleaseError.store
    pure (.done, { s with store := r.2 })

/-- The transition system of the releases. -/
def releaseSystem [ReleaseTexts] : LTS ReleaseStore ReleaseCall where
  Init s := s.releases = ∅ ∧ s.sessions = ∅ ∧ s.samples = ∅ ∧ s.endings = ∅ ∧ s.audits = ∅
  Step s call t := t = s ∨ ∃ answer, call.op.exec call.clock s = .ok (answer, t)

namespace ReleaseStore

/-- The number of adopted samples of a release. -/
def adoptedCount (s : ReleaseStore) (oid : UUID) : ℕ :=
  (s.samples.select fun _ sample => sample.observationId = oid ∧ sample.adopted).length

/-- **The invariant of the releases.** -/
structure Sound (s : ReleaseStore) : Prop where
  session : ∀ ⦃sid session⦄, s.sessions.get sid = some session →
    (s.releases.get session.observationId).isSome
  live : ∀ ⦃sid session⦄, s.sessions.get sid = some session → session.state = .authorized →
    ∃ row, s.releases.get session.observationId = some row ∧ row.status = .observing ∧
      row.paused = false
  unique : ∀ ⦃sid sid' a b⦄, s.sessions.get sid = some a → s.sessions.get sid' = some b →
    a.state = .authorized → b.state = .authorized → a.observationId = b.observationId → sid = sid'
  ended : ∀ ⦃sid session⦄, s.sessions.get sid = some session →
    (session.state = .authorized ↔ s.endings.get (session.observationId, sid) = none)
  ending : ∀ ⦃id ending⦄, s.endings.get id = some ending →
    ∃ session, s.sessions.get id.2 = some session ∧ session.observationId = id.1
  sample : ∀ ⦃id sample⦄, s.samples.get id = some sample →
    ∃ session, s.sessions.get sample.sessionId = some session ∧
      session.observationId = sample.observationId
  used : ∀ ⦃oid row⦄, s.releases.get oid = some row → row.usedSampleCount = s.adoptedCount oid
  limit : ∀ ⦃oid row⦄, s.releases.get oid = some row → row.usedSampleCount ≤ row.terms.maxSamples
  budget : ∀ ⦃oid row⦄, s.releases.get oid = some row → row.status.live = true →
    row.usedSampleCount < row.terms.maxSamples

/-- No session of the release is authorized. -/
def Idle (s : ReleaseStore) (oid : UUID) : Prop :=
  ∀ ⦃sid session⦄, s.sessions.get sid = some session → session.observationId = oid →
    session.state ≠ .authorized

namespace Sound

variable {s t : ReleaseStore} {sid oid : UUID} {session : ReleaseSessionRow} {row : ReleaseRow}

/-- The invariant reads four tables. -/
theorem congr (h : Sound s) (hreleases : t.releases = s.releases)
    (hsessions : t.sessions = s.sessions) (hsamples : t.samples = s.samples)
    (hendings : t.endings = s.endings) : Sound t := by
  obtain ⟨store, releases, sessions, samples, endings, audits⟩ := t
  cases hreleases
  cases hsessions
  cases hsamples
  cases hendings
  exact ⟨h.session, h.live, h.unique, h.ended, h.ending, h.sample, h.used, h.limit, h.budget⟩

/-- Rewriting a session keeps the invariant, if the session keeps its release and its state. -/
theorem touch (h : Sound s) (f : ReleaseSessionRow → ReleaseSessionRow)
    (hrelease : ∀ session, (f session).observationId = session.observationId)
    (hstate : ∀ session, (f session).state = session.state) (sid : UUID) :
    Sound { s with sessions := s.sessions.modify sid f } := by
  have hcases : ∀ {sid' a}, (s.sessions.modify sid f).get sid' = some a →
      ∃ b, s.sessions.get sid' = some b ∧ a.observationId = b.observationId ∧
        a.state = b.state := by
    intro sid' a ha
    rw [Table.get_modify] at ha
    split at ha
    · obtain ⟨b, hb, rfl⟩ := Option.map_eq_some_iff.1 ha
      exact ⟨b, hb, hrelease b, hstate b⟩
    · exact ⟨a, ha, rfl, rfl⟩
  have hkept : ∀ {sid' b}, s.sessions.get sid' = some b →
      ∃ a, (s.sessions.modify sid f).get sid' = some a ∧ a.observationId = b.observationId := by
    intro sid' b hb
    rw [Table.get_modify]
    split
    · exact ⟨f b, by rw [hb, Option.map_some], hrelease b⟩
    · exact ⟨b, hb, rfl⟩
  constructor
  · intro sid' a ha
    obtain ⟨b, hb, hoid, -⟩ := hcases ha
    rw [hoid]
    exact h.session hb
  · intro sid' a ha hauth
    obtain ⟨b, hb, hoid, hst⟩ := hcases ha
    rw [hoid]
    exact h.live hb (hst ▸ hauth)
  · intro sid' sid'' a b ha hb hauth hauth' hoid
    obtain ⟨a', ha', hoa, hsa⟩ := hcases ha
    obtain ⟨b', hb', hob, hsb⟩ := hcases hb
    exact h.unique ha' hb' (hsa ▸ hauth) (hsb ▸ hauth') (by rw [← hoa, hoid, hob])
  · intro sid' a ha
    obtain ⟨b, hb, hoid, hst⟩ := hcases ha
    rw [hoid, hst]
    exact h.ended hb
  · intro id ending hend
    obtain ⟨b, hb, hoid⟩ := h.ending hend
    obtain ⟨a, ha, hoa⟩ := hkept hb
    exact ⟨a, ha, hoa.trans hoid⟩
  · intro id sample hsample
    obtain ⟨b, hb, hoid⟩ := h.sample hsample
    obtain ⟨a, ha, hoa⟩ := hkept hb
    exact ⟨a, ha, hoa.trans hoid⟩
  · exact h.used
  · exact h.limit
  · exact h.budget

/-- An authorized session has no ending yet, so ending it writes both rows. `given` is the row of
the session as it was read. -/
theorem endReleaseSession_eq (h : Sound s) (hget : s.sessions.get sid = some session)
    (hauth : session.state = .authorized) {given : ReleaseSessionRow}
    (hgiven : given.observationId = session.observationId) (status : ReleaseStatus)
    (reason : ReleaseEndedReason) (after : ReleaseStatus) (sampleId : Option UUID)
    (recordedAt : Time) :
    s.endReleaseSession status sid given reason after sampleId recordedAt = { s with
      sessions := s.sessions.modify sid (·.ended reason)
      endings := s.endings.insert (session.observationId, sid)
        (given.ending status reason after sampleId recordedAt) } := by
  have hnone : s.endings.get (given.observationId, sid) = none := by
    rw [hgiven]
    exact (h.ended hget).1 hauth
  rw [endReleaseSession_of_none hnone, hgiven]

/-- **Ending a session** keeps the invariant, and leaves the release without a session. -/
theorem endSession (h : Sound s) (hget : s.sessions.get sid = some session)
    (hauth : session.state = .authorized) {given : ReleaseSessionRow}
    (hgiven : given.observationId = session.observationId) (status : ReleaseStatus)
    (reason : ReleaseEndedReason) (after : ReleaseStatus) (sampleId : Option UUID)
    (recordedAt : Time) :
    Sound (s.endReleaseSession status sid given reason after sampleId recordedAt) ∧
      (s.endReleaseSession status sid given reason after sampleId recordedAt).Idle
        session.observationId := by
  rw [h.endReleaseSession_eq hget hauth hgiven]
  -- a session is another one, untouched, or the one that ended
  have hcases : ∀ {sid' a}, (s.sessions.modify sid (·.ended reason)).get sid' = some a →
      sid' = sid ∧ a = session.ended reason ∨ sid' ≠ sid ∧ s.sessions.get sid' = some a :=
    (Table.get_modify_eq_some hget).1
  have hkept : ∀ {sid' b}, s.sessions.get sid' = some b →
      ∃ a, (s.sessions.modify sid (·.ended reason)).get sid' = some a ∧
        a.observationId = b.observationId := by
    intro sid' b hb
    rw [Table.get_modify]
    split
    · exact ⟨b.ended reason, by rw [hb, Option.map_some], rfl⟩
    · exact ⟨b, hb, rfl⟩
  have hstate : (session.ended reason).state ≠ .authorized := reason.sessionState_ne
  refine ⟨?_, fun sid' a ha hoid => ?_⟩
  · constructor
    · intro sid' a ha
      rcases hcases ha with ⟨-, rfl⟩ | ⟨-, ha⟩
      · have hrelease := h.session hget
        exact hrelease
      · exact h.session ha
    · intro sid' a ha hauth'
      rcases hcases ha with ⟨-, rfl⟩ | ⟨-, ha⟩
      · exact absurd hauth' hstate
      · exact h.live ha hauth'
    · intro sid' sid'' a b ha hb ha' hb' hoid
      rcases hcases ha with ⟨-, rfl⟩ | ⟨-, ha⟩
      · exact absurd ha' hstate
      · rcases hcases hb with ⟨-, rfl⟩ | ⟨-, hb⟩
        · exact absurd hb' hstate
        · exact h.unique ha hb ha' hb' hoid
    · intro sid' a ha
      rcases hcases ha with ⟨rfl, rfl⟩ | ⟨hne, ha⟩
      · simp [hstate, show (session.ended reason).observationId = session.observationId from rfl]
      · rw [Table.get_insert_ne _ _ (by simp [hne])]
        exact h.ended ha
    · intro id ending hend
      rw [Table.get_insert] at hend
      split at hend
      · next heq =>
        obtain ⟨a, ha, hoid⟩ := hkept hget
        rw [heq]
        exact ⟨a, ha, hoid⟩
      · obtain ⟨b, hb, hoid⟩ := h.ending hend
        obtain ⟨a, ha, hoa⟩ := hkept hb
        exact ⟨a, ha, hoa.trans hoid⟩
    · intro id sample hsample
      obtain ⟨b, hb, hoid⟩ := h.sample hsample
      obtain ⟨a, ha, hoa⟩ := hkept hb
      exact ⟨a, ha, hoa.trans hoid⟩
    · exact h.used
    · exact h.limit
    · exact h.budget
  · rcases hcases ha with ⟨-, rfl⟩ | ⟨hne, ha⟩
    · exact hstate
    · intro hauth'
      exact hne (h.unique ha hget hauth' hauth hoid)

/-- At most one session of a release is authorized. -/
theorem authorizedSessions_cases (h : Sound s) (oid : UUID) :
    s.authorizedSessions oid = [] ∧ s.Idle oid ∨
      ∃ sid session, s.authorizedSessions oid = [(sid, session)] ∧
        s.sessions.get sid = some session ∧ session.observationId = oid ∧
        session.state = .authorized := by
  have hmem : ∀ e, e ∈ s.authorizedSessions oid ↔ _ := fun e => mem_authorizedSessions
  have hnodup : ((s.authorizedSessions oid).map Prod.fst).Nodup := by
    have hperm := (List.mergeSort_perm (s.sessions.select fun _ session =>
      session.observationId = oid ∧ session.state = .authorized)
        fun a b => decide (a.1 ≤ b.1)).map Prod.fst
    exact hperm.nodup_iff.2 ((List.filter_sublist.map Prod.fst).nodup s.sessions.keys_nodup)
  cases hl : s.authorizedSessions oid with
  | nil =>
    refine .inl ⟨rfl, fun sid session hget hoid hauth => ?_⟩
    have hin := (hmem (sid, session)).2 ⟨hget, hoid, hauth⟩
    rw [hl] at hin
    cases hin
  | cons e rest =>
    obtain ⟨sid, session⟩ := e
    obtain ⟨hget, hoid, hauth⟩ := (hmem (sid, session)).1 (by rw [hl]; exact List.mem_cons_self)
    refine .inr ⟨sid, session, ?_, hget, hoid, hauth⟩
    cases rest with
    | nil => rfl
    | cons e' rest =>
      obtain ⟨sid', session'⟩ := e'
      obtain ⟨hget', hoid', hauth'⟩ := (hmem (sid', session')).1 (by rw [hl]; simp)
      obtain rfl := h.unique hget hget' hauth hauth' (hoid.trans hoid'.symm)
      rw [hl] at hnodup
      simp at hnodup

/-- **Ending the sessions of a release** keeps the invariant, and leaves none. -/
theorem endSessions (h : Sound s) (status : ReleaseStatus) (oid : UUID)
    (reason : ReleaseEndedReason) (after : ReleaseStatus) (recordedAt : Time) :
    Sound (s.endReleaseSessions status (s.authorizedSessions oid) reason after recordedAt) ∧
      (s.endReleaseSessions status (s.authorizedSessions oid) reason after recordedAt).Idle oid := by
  rcases h.authorizedSessions_cases oid with ⟨hl, hidle⟩ | ⟨sid, session, hl, hget, rfl, hauth⟩
  · rw [hl]
    exact ⟨h, hidle⟩
  · rw [hl]
    exact h.endSession hget hauth rfl ..

/-- Rewriting the row of a release keeps the invariant, if the row keeps terms and count, does not
come back to life, and is observing if it has a session. -/
theorem setRow (h : Sound s) (hget : s.releases.get oid = some row) {row' : ReleaseRow}
    (hterms : row'.terms = row.terms) (hused : row'.usedSampleCount = row.usedSampleCount)
    (hlive : row'.status.live = true → row.status.live = true)
    (hidle : s.Idle oid ∨ row'.status = .observing ∧ row'.paused = false) :
    Sound { s with releases := s.releases.modify oid fun _ => row' } := by
  have hcases : ∀ {i r}, (s.releases.modify oid fun _ => row').get i = some r →
      i = oid ∧ r = row' ∨ i ≠ oid ∧ s.releases.get i = some r := (Table.get_modify_eq_some hget).1
  have hself : (s.releases.modify oid fun _ => row').get oid = some row' := by
    rw [Table.get_modify_self, hget, Option.map_some]
  constructor
  · intro sid session hs
    by_cases heq : session.observationId = oid
    · rw [heq, hself, Option.isSome_some]
    · rw [Table.get_modify_ne _ _ heq]
      exact h.session hs
  · intro sid session hs hauth
    by_cases heq : session.observationId = oid
    · rcases hidle with hidle | hobserving
      · exact absurd hauth (hidle hs heq)
      · exact ⟨row', by rw [heq, hself], hobserving⟩
    · rw [Table.get_modify_ne _ _ heq]
      exact h.live hs hauth
  · exact h.unique
  · exact h.ended
  · exact h.ending
  · exact h.sample
  · intro i r hr
    rcases hcases hr with ⟨rfl, rfl⟩ | ⟨-, hr⟩
    · rw [hused]
      exact h.used hget
    · exact h.used hr
  · intro i r hr
    rcases hcases hr with ⟨rfl, rfl⟩ | ⟨-, hr⟩
    · rw [hused, hterms]
      exact h.limit hget
    · exact h.limit hr
  · intro i r hr hl
    rcases hcases hr with ⟨rfl, rfl⟩ | ⟨-, hr⟩
    · rw [hused, hterms]
      exact h.budget hget (hlive hl)
    · exact h.budget hr hl

/-- A new session of an observing release without one keeps the invariant. -/
theorem start (h : Sound s) (hidle : s.Idle session.observationId)
    (hnew : s.sessions.get sid = none)
    (hget : s.releases.get session.observationId = some row) (hstatus : row.status = .observing)
    (hpaused : row.paused = false) (hauth : session.state = .authorized) :
    Sound { s with sessions := s.sessions.insert sid session } := by
  have hcases : ∀ {sid' a}, (s.sessions.insert sid session).get sid' = some a →
      sid' = sid ∧ a = session ∨ s.sessions.get sid' = some a := fun ha =>
    (Table.get_insert_eq_some.1 ha).imp_right And.right
  have hkept : ∀ {sid' b}, s.sessions.get sid' = some b →
      (s.sessions.insert sid session).get sid' = some b := Table.get_insert_of_get _ hnew
  constructor
  · intro sid' a ha
    rcases hcases ha with ⟨-, rfl⟩ | ha
    · exact Option.isSome_iff_exists.2 ⟨row, hget⟩
    · exact h.session ha
  · intro sid' a ha hauth'
    rcases hcases ha with ⟨-, rfl⟩ | ha
    · exact ⟨row, hget, hstatus, hpaused⟩
    · exact h.live ha hauth'
  · intro sid' sid'' a b ha hb ha' hb' hoid
    rcases hcases ha with ⟨rfl, rfl⟩ | hold
    · rcases hcases hb with ⟨rfl, -⟩ | hold
      · rfl
      · exact absurd hb' (hidle hold hoid.symm)
    · rcases hcases hb with ⟨-, rfl⟩ | hold'
      · exact absurd ha' (hidle hold hoid)
      · exact h.unique hold hold' ha' hb' hoid
  · intro sid' a ha
    rcases hcases ha with ⟨rfl, rfl⟩ | ha
    · refine iff_of_true hauth ?_
      cases hend : s.endings.get (a.observationId, sid') with
      | none => rfl
      | some ending =>
        obtain ⟨b, hb, -⟩ := h.ending hend
        rw [hnew] at hb
        cases hb
    · exact h.ended ha
  · intro id ending hend
    obtain ⟨b, hb, hoid⟩ := h.ending hend
    exact ⟨b, hkept hb, hoid⟩
  · intro id sample hsample
    obtain ⟨b, hb, hoid⟩ := h.sample hsample
    exact ⟨b, hkept hb, hoid⟩
  · exact h.used
  · exact h.limit
  · exact h.budget

/-- A sample that is recorded keeps the books of the other releases, and of its own if it is not
adopted. -/
theorem adoptedCount_insert {id : UUID} {sample : ReleaseSampleRow}
    (hnew : s.samples.get id = none) (oid : UUID) :
    ({ s with samples := s.samples.insert id sample } : ReleaseStore).adoptedCount oid =
      if sample.observationId = oid ∧ sample.adopted = true then s.adoptedCount oid + 1
      else s.adoptedCount oid := by
  simp only [adoptedCount, Table.select_insert _ hnew, decide_eq_true_eq]
  split <;> rfl

/-- The samples of the store after one more, each of a session of its release. -/
theorem sample_insert (h : Sound s) {id : UUID} {sample : ReleaseSampleRow}
    (hget : s.sessions.get sample.sessionId = some session)
    (hoid : session.observationId = sample.observationId) ⦃id' : UUID⦄
    ⦃sample' : ReleaseSampleRow⦄ (h' : (s.samples.insert id sample).get id' = some sample') :
    ∃ session, s.sessions.get sample'.sessionId = some session ∧
      session.observationId = sample'.observationId := by
  rcases Table.get_insert_eq_some.1 h' with ⟨-, rfl⟩ | ⟨-, h'⟩
  · exact ⟨session, hget, hoid⟩
  · exact h.sample h'

/-- A sample that is kept as history keeps the invariant. -/
theorem history (h : Sound s) {id : UUID} {sample : ReleaseSampleRow}
    (hnew : s.samples.get id = none) (hget : s.sessions.get sample.sessionId = some session)
    (hoid : session.observationId = sample.observationId) (hnot : sample.adopted = false) :
    Sound { s with samples := s.samples.insert id sample } where
  session := h.session
  live := h.live
  unique := h.unique
  ended := h.ended
  ending := h.ending
  sample := h.sample_insert hget hoid
  used oid row hrow := by
    rw [adoptedCount_insert hnew, if_neg (by simp [hnot])]
    exact h.used hrow
  limit := h.limit
  budget := h.budget

/-- **An adopted sample** keeps the invariant: it counts once, and while the release goes on, part
of the budget is left. -/
theorem adopt (h : Sound s) {id : UUID} {sample : ReleaseSampleRow}
    (hnew : s.samples.get id = none) (hsession : s.sessions.get sample.sessionId = some session)
    (hoid : session.observationId = sample.observationId) (hadopted : sample.adopted = true)
    (hget : s.releases.get sample.observationId = some row) (hlive : row.status.live = true)
    {row' : ReleaseRow} (hterms : row'.terms = row.terms)
    (hused : row'.usedSampleCount = row.usedSampleCount + 1)
    (hbudget : row'.status.live = true → row'.usedSampleCount < row'.terms.maxSamples)
    (hidle : s.Idle sample.observationId ∨ row'.status = .observing ∧ row'.paused = false) :
    Sound { s with
      samples := s.samples.insert id sample
      releases := s.releases.modify sample.observationId fun _ => row' } := by
  have hcases : ∀ {i r}, (s.releases.modify sample.observationId fun _ => row').get i = some r →
      i = sample.observationId ∧ r = row' ∨ i ≠ sample.observationId ∧ s.releases.get i = some r :=
    (Table.get_modify_eq_some hget).1
  have hself : (s.releases.modify sample.observationId fun _ => row').get sample.observationId =
      some row' := by
    rw [Table.get_modify_self, hget, Option.map_some]
  have hlimit : row'.usedSampleCount ≤ row'.terms.maxSamples := by
    have hlt := h.budget hget hlive
    rw [hused, hterms]
    omega
  have hcount : ∀ i, ({ s with samples := s.samples.insert id sample } : ReleaseStore).adoptedCount i =
      if sample.observationId = i ∧ sample.adopted = true then s.adoptedCount i + 1
      else s.adoptedCount i := adoptedCount_insert hnew
  constructor
  · intro sid a ha
    by_cases heq : a.observationId = sample.observationId
    · rw [heq, hself, Option.isSome_some]
    · rw [Table.get_modify_ne _ _ heq]
      exact h.session ha
  · intro sid a ha hauth
    by_cases heq : a.observationId = sample.observationId
    · rcases hidle with hidle | hobserving
      · exact absurd hauth (hidle ha heq)
      · exact ⟨row', by rw [heq, hself], hobserving⟩
    · rw [Table.get_modify_ne _ _ heq]
      exact h.live ha hauth
  · exact h.unique
  · exact h.ended
  · exact h.ending
  · exact h.sample_insert hsession hoid
  · intro i r hr
    have hi := hcount i
    rcases hcases hr with ⟨rfl, rfl⟩ | ⟨hne, hr⟩
    · rw [if_pos ⟨rfl, hadopted⟩] at hi
      exact hused.trans ((congrArg (· + 1) (h.used hget)).trans hi.symm)
    · rw [if_neg fun hand => hne hand.1.symm] at hi
      exact (h.used hr).trans hi.symm
  · intro i r hr
    rcases hcases hr with ⟨-, rfl⟩ | ⟨-, hr⟩
    · exact hlimit
    · exact h.limit hr
  · intro i r hr hl
    rcases hcases hr with ⟨-, rfl⟩ | ⟨-, hr⟩
    · exact hbudget hl
    · exact h.budget hr hl

/-- A recorded release keeps the invariant: nothing of it is there yet. -/
theorem record (h : Sound s) (hnew : s.releases.get oid = none) (hused : row.usedSampleCount = 0) :
    Sound { s with releases := s.releases.insert oid row } := by
  have hcases : ∀ {i r}, (s.releases.insert oid row).get i = some r →
      i = oid ∧ r = row ∨ i ≠ oid ∧ s.releases.get i = some r := Table.get_insert_eq_some.1
  have hzero : s.adoptedCount oid = 0 := by
    rw [adoptedCount, List.length_eq_zero_iff, List.eq_nil_iff_forall_not_mem]
    rintro ⟨id, sample⟩ hmem
    rw [Table.mem_select_iff, decide_eq_true_eq] at hmem
    obtain ⟨session, hsession, hoid⟩ := h.sample hmem.1
    have hrelease := h.session hsession
    rw [hoid, hmem.2.1, hnew] at hrelease
    cases hrelease
  constructor
  · intro sid a ha
    obtain ⟨r, hr⟩ := Option.isSome_iff_exists.1 (h.session ha)
    rw [Table.get_insert_of_get _ hnew hr, Option.isSome_some]
  · intro sid a ha hauth
    obtain ⟨r, hr, hobserving⟩ := h.live ha hauth
    exact ⟨r, Table.get_insert_of_get _ hnew hr, hobserving⟩
  · exact h.unique
  · exact h.ended
  · exact h.ending
  · exact h.sample
  · intro i r hr
    rcases hcases hr with ⟨rfl, rfl⟩ | ⟨-, hr⟩
    · rw [hused]
      exact hzero.symm
    · exact h.used hr
  · intro i r hr
    rcases hcases hr with ⟨-, rfl⟩ | ⟨-, hr⟩
    · omega
    · exact h.limit hr
  · intro i r hr hl
    rcases hcases hr with ⟨-, rfl⟩ | ⟨-, hr⟩
    · rw [hused]
      exact r.terms.maxSamples_pos
    · exact h.budget hr hl

end Sound

/-! ## Every operation keeps the invariant -/

variable [ReleaseTexts] {s s' : ReleaseStore} {clk : ReleaseClock}

omit [ReleaseTexts] in
theorem Sound.endForCommand (h : Sound s) (c : ReleaseCommand) (row : ReleaseRow) :
    Sound (s.endForCommand clk c row) ∧ (s.endForCommand clk c row).Idle c.observationId := by
  unfold ReleaseStore.endForCommand
  split <;> exact h.endSessions ..

/-- A command keeps the invariant. -/
theorem releaseCommand_sound {setting : CommandSetting} {c : ReleaseCommand}
    {receipt : ReleaseCommandReceipt} (h : Sound s)
    (hok : s.releaseCommand clk setting c = .ok (receipt, s')) : Sound s' := by
  obtain ⟨-, row, scope, hrow, -, hcases⟩ := releaseCommand_cases hok
  rcases hcases with ⟨-, -, -, -, rfl⟩ | ⟨-, hcases⟩
  · exact h
  rcases hcases with ⟨reason, audit, hrejected, -⟩ | ⟨policy, happlied⟩
  · obtain ⟨-, -, -, rfl⟩ := auditRelease_ok hrejected.audit
    exact h.congr rfl rfl rfl rfl
  · obtain ⟨-, hlive, hgrants, -⟩ := commandDecision_ok happlied.decision
    obtain ⟨started, audit, audited, hstarted, haudit, -, rfl⟩ := applyCommand_ok happlied.written
    obtain ⟨-, -, -, rfl⟩ := auditRelease_ok haudit
    have hended : Sound (s.endForCommand clk c row) ∧
        (s.endForCommand clk c row).Idle c.observationId := h.endForCommand c row
    obtain ⟨hsound, hidle⟩ := hended
    have honly := s.endForCommand_only clk c row
    generalize s.endForCommand clk c row = ended at hsound hidle honly hstarted
    have hget : ended.releases.get c.observationId = some row := by rw [honly.releases, hrow]
    generalize hafter : row.decided c.action policy (s.lastEnding clk c.observationId).2 = after
      at hstarted
    have hset : Sound { ended with
        releases := ended.releases.modify c.observationId fun _ => after } := by
      refine hsound.setRow hget ?_ ?_ (fun _ => hlive) (.inl hidle) <;> rw [← hafter] <;> rfl
    rcases startSession_ok hstarted with ⟨rfl, rfl⟩ | ⟨p, rfl, -, hnew, rfl⟩
    · exact hset.congr rfl rfl rfl rfl
    · have hobserving : after.status = .observing ∧ after.paused = false := by
        have hgrants := hgrants.1 rfl
        rw [← hafter]
        cases haction : c.action with
        | authorize => exact ⟨by simp [ReleaseRow.decided, ReleaseControl.decided], by
            simp [ReleaseRow.decided, ReleaseControl.decided]⟩
        | resume => exact ⟨by simp [ReleaseRow.decided, ReleaseControl.decided], by
            simp [ReleaseRow.decided, ReleaseControl.decided]⟩
        | pause => simp [haction, ReleaseAction.grants] at hgrants
        | cancel => simp [haction, ReleaseAction.grants] at hgrants
      have hself : (ended.releases.modify c.observationId fun _ => after).get c.observationId =
          some after := by
        rw [Table.get_modify_self, hget, Option.map_some]
      have hstart : Sound { ended with
          sessions := ended.sessions.insert setting.sessionId
            (after.session p c scope setting.jobId clk.authorizedAt)
          releases := ended.releases.modify c.observationId fun _ => after } :=
        hset.start hidle hnew hself hobserving.1 hobserving.2 rfl
      exact hstart.congr rfl rfl rfl rfl

/-- A sweep keeps the invariant. -/
theorem sweepExpiredRelease_sound {observationId auditId : UUID} (h : Sound s)
    (hok : s.sweepExpiredRelease clk observationId auditId = .ok s') : Sound s' := by
  rcases sweepExpiredRelease_cases hok with rfl | ⟨row, audit, audited, hswept⟩
  · exact h
  obtain ⟨hget, hlive, -, haudit, rfl⟩ := hswept
  obtain ⟨-, -, -, rfl⟩ := auditRelease_ok haudit
  obtain ⟨hsound, hidle⟩ := h.endSessions row.status observationId .deadlineExpired .unknown
    clk.endedAt
  have honly := s.endReleaseSessions_only row.status (s.authorizedSessions observationId)
    .deadlineExpired .unknown clk.endedAt
  rw [← honly.releases] at hget
  generalize s.endReleaseSessions row.status (s.authorizedSessions observationId) .deadlineExpired
    .unknown clk.endedAt = ended at hsound hidle hget
  have hset : Sound { ended with
      releases := ended.releases.modify observationId fun _ =>
        row.expire (s.lastEnding clk observationId).2 } :=
    hsound.setRow hget rfl rfl (fun _ => hlive) (.inl hidle)
  exact hset.congr rfl rfl rfl rfl

omit [ReleaseTexts] in
/-- A claim keeps the invariant. -/
theorem claimReleaseDue_sound {owner sessionId : UUID} {leaseSeconds : ℕ}
    {lease : Option ReleaseSampleLease} (h : Sound s)
    (hok : s.claimReleaseDue clk owner sessionId leaseSeconds = .ok (lease, s')) : Sound s' := by
  rcases claimReleaseDue_cases hok with ⟨-, rfl⟩ | ⟨session, release, reason, -, hends⟩ |
    ⟨session, release, slot, scope, issued, -, hleases⟩
  · exact h
  · rw [hends.written]
    exact (h.endSession hends.found hends.authorized rfl ..).1
  · rw [hleases.written]
    exact h.touch (·.claimed owner _) (fun _ => rfl) (fun _ => rfl) _

section Sample

variable {d : Submission}

omit [ReleaseTexts] in
/-- An adopted sample keeps the invariant. -/
theorem Sound.adoptSample (h : Sound s)
    (hrelease : s.releases.get d.lease.observationId = some d.release)
    (hsession : s.sessions.get d.lease.sessionId = some d.session)
    (hoid : d.session.observationId = d.lease.observationId)
    (hnew : s.samples.get d.evidence.sampleId = none) (hadopted : d.reason = .adopted) {jobId : UUID}
    {endedAt : Time} : Sound (d.adopt s jobId endedAt).2 := by
  obtain ⟨-, -, hstatus, hpaused, -, -, hauth, -⟩ := releaseSampleReason_adopted hadopted
  have hlive : d.release.status.live = true := by rw [hstatus]; rfl
  have hrow : (d.sampleRow (d.advanced.2.map Prod.fst) d.adoptedReceipt).adopted = true :=
    decide_eq_true hadopted
  unfold Submission.adopt
  cases hadvanced : d.advanced.2 with
  | some decided =>
    obtain ⟨status, reason⟩ := decided
    rw [hadvanced] at hrow
    -- the watermarks move, the session ends, and then the sample counts
    let mark := fun row : ReleaseSessionRow => row.marked d.marks
    have hmarked : Sound { s with sessions := s.sessions.modify d.lease.sessionId mark } :=
      h.touch mark (fun _ => rfl) (fun _ => rfl) _
    have hget : (s.sessions.modify d.lease.sessionId mark).get d.lease.sessionId =
        some (mark d.session) := by
      rw [Table.get_modify_self, hsession, Option.map_some]
    have hnone : s.endings.get (d.session.observationId, d.lease.sessionId) = none :=
      (h.ended hsession).1 hauth
    have hgiven : d.session.observationId = (mark d.session).observationId := rfl
    obtain ⟨hended, hidle⟩ := hmarked.endSession hget hauth hgiven d.release.status reason status
      (some d.evidence.sampleId) endedAt
    rw [endReleaseSession_of_none (s := { s with
      sessions := s.sessions.modify d.lease.sessionId mark }) hnone] at hended hidle
    have hlater : ((s.sessions.modify d.lease.sessionId mark).modify d.lease.sessionId
        (·.ended reason)).get d.lease.sessionId = some ((mark d.session).ended reason) := by
      rw [Table.get_modify_self, hget, Option.map_some]
    have hnotlive : (d.decidedRow status reason).status.live = false := by
      rcases advanceReleaseWindow_status hadvanced with heq | heq | heq <;> cases heq <;> rfl
    have hadopt := hended.adopt hnew hlater hoid hrow hrelease hlive
      (show (d.decidedRow status reason).terms = _ from rfl) rfl
      (fun hl => by rw [hnotlive] at hl; cases hl) (.inl (hoid ▸ hidle))
    dsimp only
    rw [endReleaseSession_of_none (s := { s with
      sessions := s.sessions.modify d.lease.sessionId (·.marked d.marks)
      samples := s.samples.insert d.evidence.sampleId
        (d.sampleRow (Option.map Prod.fst (some (status, reason))) d.adoptedReceipt) }) hnone]
    exact hadopt.congr rfl rfl rfl rfl
  | none =>
    rw [hadvanced] at hrow
    let next := fun row : ReleaseSessionRow => (row.marked d.marks).issued jobId d.due
    have hissued : Sound { s with sessions := s.sessions.modify d.lease.sessionId next } :=
      h.touch next (fun _ => rfl) (fun _ => rfl) _
    have hget : (s.sessions.modify d.lease.sessionId next).get d.lease.sessionId =
        some (next d.session) := by
      rw [Table.get_modify_self, hsession, Option.map_some]
    have hbudget : d.countedRow.usedSampleCount < d.countedRow.terms.maxSamples :=
      advanceReleaseWindow_none hadvanced
    have hadopt := hissued.adopt hnew hget hoid hrow hrelease hlive
      (show d.countedRow.terms = _ from rfl) rfl (fun _ => hbudget) (.inr ⟨hstatus, hpaused⟩)
    exact hadopt.congr rfl rfl rfl rfl

omit [ReleaseTexts] in
/-- A sample that is kept as history keeps the invariant. -/
theorem Sound.keepHistory (h : Sound s)
    (hsession : s.sessions.get d.lease.sessionId = some d.session)
    (hoid : d.session.observationId = d.lease.observationId)
    (hnew : s.samples.get d.evidence.sampleId = none) (hnot : d.reason ≠ .adopted)
    {endedAt : Time} : Sound (d.keepHistory s endedAt).2 := by
  have hrow : ∀ receipt, (d.sampleRow none receipt).adopted = false :=
    fun _ => decide_eq_false hnot
  unfold Submission.keepHistory
  split
  · exact h.history hnew hsession hoid (hrow _)
  next hauth =>
  rw [not_not] at hauth
  split
  · next reason _ =>
    obtain ⟨hended, -⟩ := h.endSession hsession hauth rfl d.release.status reason d.release.status
      none endedAt
    have hnone := (h.ended hsession).1 hauth
    dsimp only
    rw [endReleaseSession_of_none hnone] at hended ⊢
    have hget : (s.sessions.modify d.lease.sessionId (·.ended reason)).get d.lease.sessionId =
        some (d.session.ended reason) := by
      rw [Table.get_modify_self, hsession, Option.map_some]
    exact hended.history hnew hget hoid (hrow _)
  · split
    · have htouch : Sound { s with
          sessions := s.sessions.modify d.lease.sessionId (·.postponed d.due) } :=
        h.touch (·.postponed d.due) (fun _ => rfl) (fun _ => rfl) _
      have hget : (s.sessions.modify d.lease.sessionId (·.postponed d.due)).get d.lease.sessionId =
          some (d.session.postponed d.due) := by
        rw [Table.get_modify_self, hsession, Option.map_some]
      exact htouch.history hnew hget hoid (hrow _)
    · exact h.history hnew hsession hoid (hrow _)

end Sample

/-- A sample keeps the invariant, adopted or not. -/
theorem submitReleaseSample_sound {lease : ReleaseSampleLease} {evidence : ReleaseSampleEvidence}
    {jobId : UUID} {receipt : ReleaseSampleReceipt} (h : Sound s)
    (hok : s.submitReleaseSample clk lease evidence jobId = .ok (receipt, s')) : Sound s' := by
  rcases submitReleaseSample_cases hok with ⟨-, -, -, rfl⟩ | ⟨d, hreads, hcases⟩
  · exact h
  obtain ⟨hrelease, hsession, hoid, hnew, -, rfl, rfl, -, -, -⟩ := hreads
  rcases hcases with ⟨hadopted, heq⟩ | ⟨hnot, heq⟩
  · rw [(Prod.mk.inj heq).2]
    exact h.adoptSample hrelease hsession hoid hnew hadopted
  · rw [(Prod.mk.inj heq).2]
    exact h.keepHistory hsession hoid hnew hnot

/-- A delivery keeps the invariant. -/
theorem recordRelease_sound {d : ReleaseDelivery} {receipt : ReleaseReceipt} (h : Sound s)
    (hok : s.recordRelease clk d = .ok (receipt, s')) : Sound s' := by
  obtain ⟨store, -, rfl | ⟨terms, hnew, -, rfl⟩⟩ := recordRelease_cases hok
  · exact h.congr rfl rfl rfl rfl
  · have hused : terms.initial.usedSampleCount = 0 := by
      unfold ReleaseTerms.initial
      split <;> rfl
    exact (h.record hnew hused).congr rfl rfl rfl rfl

/-- **Every operation keeps the invariant.** -/
theorem exec_sound {op : ReleaseOp} {answer : ReleaseAnswer} (h : Sound s)
    (hok : op.exec clk s = .ok (answer, s')) : Sound s' := by
  cases op with
  | recordRelease d =>
    obtain ⟨⟨receipt, t⟩, hrun, hok⟩ := bind_eq_ok.1 hok
    cases hok
    exact recordRelease_sound h hrun
  | releaseCommand setting c =>
    obtain ⟨⟨receipt, t⟩, hrun, hok⟩ := bind_eq_ok.1 hok
    cases hok
    exact releaseCommand_sound h hrun
  | claimReleaseDue owner sessionId leaseSeconds =>
    obtain ⟨⟨lease, t⟩, hrun, hok⟩ := bind_eq_ok.1 hok
    cases hok
    exact claimReleaseDue_sound h hrun
  | submitReleaseSample lease evidence jobId =>
    obtain ⟨⟨receipt, t⟩, hrun, hok⟩ := bind_eq_ok.1 hok
    cases hok
    exact submitReleaseSample_sound h hrun
  | sweepExpiredRelease observationId auditId =>
    obtain ⟨t, hrun, hok⟩ := bind_eq_ok.1 hok
    cases hok
    exact sweepExpiredRelease_sound h hrun
  | base op clk' =>
    obtain ⟨⟨issued, store⟩, -, hok⟩ := bind_eq_ok.1 hok
    cases hok
    exact h.congr rfl rfl rfl rfl

/-- The invariant holds in every reachable state. -/
theorem reachable_sound (h : releaseSystem.Reachable s) : Sound s := by
  refine h.invariant ?_ ?_
  · rintro s ⟨hreleases, hsessions, hsamples, hendings, -⟩
    have hempty : Sound ({} : ReleaseStore) := by
      constructor
      case unique =>
        intro _ _ _ _ hget
        cases hget
      all_goals
        intro _ _ hget
        cases hget
    exact hempty.congr hreleases hsessions hsamples hendings
  · rintro s call t (rfl | ⟨answer, hok⟩) hs
    · exact hs
    · exact exec_sound hs hok

end ReleaseStore

end OpsPilot
