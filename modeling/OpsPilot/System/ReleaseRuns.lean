import OpsPilot.System.Releases

/-!
# The safety of release subjects along a run

What one operation may do to the rows, the audit and the gates that later commands depend on
(`ReleaseStore.Advances`), and what holds of a release in every run from there.

* `exec_advances`: every operation advances the store.
* `releaseCommand_audited`: a command that is answered writes one audit row.
* `releaseCommand_repeated`: and is answered again from it, whatever happens in between.
* `submitReleaseSample_marks`: a sample that is not adopted moves no watermark.
* **`release_safety`**: all of this, in every reachable state.
-/

namespace OpsPilot

namespace ReleaseStore

/-- At most one audit row is written, under a new id and a new key of its release. -/
def AuditGrows (s t : ReleaseStore) : Prop :=
  t.audits = s.audits ∨
    ∃ id audit, s.audits.get id = none ∧
      s.auditWith audit.result.observationId audit.idempotencyKey = none ∧
      t.audits = s.audits.insert id audit

/-- What an operation does to the store: a release keeps its terms and its incident, and its row once
it is over; a new one has no incident; at most one audit row is written; a gate stays. -/
structure Advances (s t : ReleaseStore) : Prop where
  row : ∀ ⦃oid row⦄, s.releases.get oid = some row →
    ∃ row', t.releases.get oid = some row' ∧ row'.terms = row.terms ∧
      row'.incidentId = row.incidentId ∧ (row.status.live = false → row' = row)
  new : ∀ ⦃oid row⦄, t.releases.get oid = some row →
    row.incidentId = none ∨ (s.releases.get oid).isSome = true
  audit : AuditGrows s t
  gate : ∀ ⦃targetId⦄, (s.store.targetSuspensions.get targetId).isSome = true →
    (t.store.targetSuspensions.get targetId).isSome = true

/-- No two audit rows of a release share a key. -/
def AuditKeysDistinct (s : ReleaseStore) : Prop :=
  ∀ ⦃id id' a b⦄, s.audits.get id = some a → s.audits.get id' = some b →
    a.result.observationId = b.result.observationId → a.idempotencyKey = b.idempotencyKey → id = id'

variable {auditId jobId : UUID} {lease : ReleaseSampleLease}

section Advances

variable {s t : ReleaseStore} {oid : UUID} {row row' : ReleaseRow}

/-- The audit row of a release under a key is found, if there is one. -/
theorem auditWith_isSome {id : UUID} {audit : ReleaseAuditRow} (h : s.audits.get id = some audit) :
    (s.auditWith audit.result.observationId audit.idempotencyKey).isSome = true := by
  rw [auditWith, Option.isSome_map, List.find?_isSome]
  refine ⟨(id, audit), ?_, by simp⟩
  rw [auditsOf, Table.mem_select_iff, decide_eq_true_eq]
  exact ⟨h, rfl⟩

theorem auditWith_congr (h : t.audits = s.audits) (key : String) :
    t.auditWith oid key = s.auditWith oid key := by
  rw [auditWith, auditsOf, h]
  rfl

theorem AuditGrows.of_eq {u : ReleaseStore} (h : AuditGrows u t) (haudits : u.audits = s.audits) :
    AuditGrows s t := by
  rcases h with h | ⟨id, audit, hid, hkey, h⟩
  · exact .inl (h.trans haudits)
  · rw [auditWith_congr haudits] at hkey
    rw [haudits] at hid h
    exact .inr ⟨id, audit, hid, hkey, h⟩

theorem auditRelease_grows {audit written : ReleaseAuditRow}
    (h : s.auditRelease auditId audit = .ok (written, t)) : AuditGrows s t := by
  obtain ⟨hid, hkey, ⟨sequence, rfl⟩, rfl⟩ := auditRelease_ok h
  refine .inr ⟨auditId, { audit with result := { audit.result with auditId, sequence } }, hid, ?_,
    rfl⟩
  exact hkey

namespace Advances

/-- The rows and the gates stay as they are. -/
theorem of_same (hreleases : t.releases = s.releases) (haudits : t.audits = s.audits)
    (hstore : t.store = s.store) : Advances s t where
  row _ row hrow := ⟨row, by rw [hreleases, hrow], rfl, rfl, fun _ => rfl⟩
  new _ row hrow := by
    rw [hreleases] at hrow
    rw [hrow]
    exact .inr rfl
  audit := .inl haudits
  gate _ hgate := by rw [hstore]; exact hgate

/-- The row of a live release changes. -/
theorem of_setRow (hget : s.releases.get oid = some row) (hlive : row.status.live = true)
    (hterms : row'.terms = row.terms) (hincident : row'.incidentId = row.incidentId)
    (hreleases : t.releases = s.releases.modify oid fun _ => row')
    (haudits : AuditGrows s t)
    (hstore : t.store = s.store) : Advances s t where
  row i found hfound := by
    rw [hreleases]
    by_cases hi : i = oid
    · subst hi
      obtain rfl := Option.some.inj (hget.symm.trans hfound)
      refine ⟨row', by rw [Table.get_modify_self, hget, Option.map_some], hterms, hincident,
        fun hover => ?_⟩
      rw [hlive] at hover
      cases hover
    · exact ⟨found, by rw [Table.get_modify_ne _ _ hi, hfound], rfl, rfl, fun _ => rfl⟩
  new i found hfound := by
    rw [hreleases] at hfound
    by_cases hi : i = oid
    · rw [hi, hget]
      exact .inr rfl
    · rw [Table.get_modify_ne _ _ hi] at hfound
      rw [hfound]
      exact .inr rfl
  audit := haudits
  gate _ hgate := by rw [hstore]; exact hgate

/-- An answer on record stays the one on record. -/
theorem auditWith (h : Advances s t) {key : String} {old : ReleaseAuditRow}
    (hold : s.auditWith oid key = some old) : t.auditWith oid key = some old := by
  rcases h.audit with haudits | ⟨id, audit, hid, hnew, haudits⟩
  · rw [auditWith_congr haudits, hold]
  · have hne : audit.result.observationId = oid → audit.idempotencyKey ≠ key := by
      rintro rfl rfl
      rw [hold] at hnew
      cases hnew
    rw [ReleaseStore.auditWith, auditsOf, haudits, Table.select_insert _ hid]
    simp only [decide_eq_true_eq]
    split
    · next hoid =>
      rw [List.find?_cons_of_neg (by simpa using hne hoid)]
      exact hold
    · exact hold

/-- The keys stay distinct. -/
theorem distinct (h : Advances s t) (hs : AuditKeysDistinct s) : AuditKeysDistinct t := by
  intro id id' a b ha hb hoid hkey
  rcases h.audit with haudits | ⟨new, audit, hid, hnew, haudits⟩
  · rw [haudits] at ha hb
    exact hs ha hb hoid hkey
  · have hfresh : ∀ i c, s.audits.get i = some c →
        c.result.observationId = audit.result.observationId →
        c.idempotencyKey ≠ audit.idempotencyKey := by
      intro i c hc hoid' hkey'
      have hsome := auditWith_isSome hc
      rw [hoid', hkey', hnew] at hsome
      cases hsome
    rw [haudits] at ha hb
    rcases Table.get_insert_eq_some.1 ha with ⟨rfl, rfl⟩ | ⟨-, hold⟩
    · rcases Table.get_insert_eq_some.1 hb with ⟨rfl, -⟩ | ⟨-, hold'⟩
      · rfl
      · exact absurd hkey.symm (hfresh _ _ hold' hoid.symm)
    · rcases Table.get_insert_eq_some.1 hb with ⟨-, rfl⟩ | ⟨-, hold'⟩
      · exact absurd hkey (hfresh _ _ hold hoid)
      · exact hs hold hold' hoid hkey

end Advances

end Advances

/-! ## Every operation advances the store -/

variable [ReleaseTexts] {s s' t : ReleaseStore} {clk : ReleaseClock}

theorem recordRelease_advances {d : ReleaseDelivery} {receipt : ReleaseReceipt}
    (hok : s.recordRelease clk d = .ok (receipt, s')) : Advances s s' := by
  obtain ⟨store, hgates, hcases⟩ := recordRelease_cases hok
  have hgate : ∀ ⦃targetId⦄, (s.store.targetSuspensions.get targetId).isSome = true →
      (store.targetSuspensions.get targetId).isSome = true := by
    intro targetId hsome
    obtain ⟨gate, hgate⟩ := Option.isSome_iff_exists.1 hsome
    rw [hgates _ _ hgate, Option.isSome_some]
  rcases hcases with rfl | ⟨terms, hnew, -, rfl⟩
  · exact ⟨fun _ row hrow => ⟨row, hrow, rfl, rfl, fun _ => rfl⟩,
      fun _ _ hrow => .inr (Option.isSome_of_eq_some hrow), .inl rfl, hgate⟩
  · refine ⟨fun _ row hrow => ?_, fun _ row hrow => ?_, .inl rfl, hgate⟩
    · exact ⟨row, Table.get_insert_of_get _ hnew hrow, rfl, rfl, fun _ => rfl⟩
    · rcases Table.get_insert_eq_some.1 hrow with ⟨rfl, rfl⟩ | ⟨-, hrow⟩
      · refine .inl ?_
        unfold ReleaseTerms.initial
        split <;> rfl
      · exact .inr (Option.isSome_of_eq_some hrow)

theorem releaseCommand_advances {setting : CommandSetting} {c : ReleaseCommand}
    {receipt : ReleaseCommandReceipt} (hok : s.releaseCommand clk setting c = .ok (receipt, s')) :
    Advances s s' := by
  obtain ⟨-, row, scope, hrow, -, hcases⟩ := releaseCommand_cases hok
  rcases hcases with ⟨-, -, -, -, rfl⟩ | ⟨-, ⟨reason, audit, hrejected, -⟩ | ⟨policy, happlied⟩⟩
  · exact .of_same rfl rfl rfl
  · have hgrows := auditRelease_grows hrejected.audit
    obtain ⟨-, -, -, rfl⟩ := auditRelease_ok hrejected.audit
    exact ⟨fun _ row hrow => ⟨row, hrow, rfl, rfl, fun _ => rfl⟩,
      fun _ _ hrow => .inr (Option.isSome_of_eq_some hrow), hgrows, fun _ hgate => hgate⟩
  · obtain ⟨-, hlive, -, -⟩ := commandDecision_ok happlied.decision
    obtain ⟨started, audit, audited, hstarted, haudit, -, rfl⟩ := applyCommand_ok happlied.written
    have hgrows := auditRelease_grows haudit
    obtain ⟨-, -, -, rfl⟩ := auditRelease_ok haudit
    have honly := s.endForCommand_only clk c row
    have hstart : started.releases = s.releases ∧ started.audits = s.audits ∧
        started.store = s.store := by
      rcases startSession_ok hstarted with ⟨-, rfl⟩ | ⟨p, -, -, -, rfl⟩
      · exact ⟨honly.releases, honly.audits, honly.store⟩
      · exact ⟨honly.releases, honly.audits, honly.store⟩
    obtain ⟨hreleases, haudits, hstore⟩ := hstart
    have hrows := congrArg (Table.modify · c.observationId fun _ =>
      row.decided c.action policy (s.lastEnding clk c.observationId).2) hreleases
    have hterms : (row.decided c.action policy (s.lastEnding clk c.observationId).2).terms =
        row.terms := rfl
    exact .of_setRow hrow hlive hterms rfl hrows (hgrows.of_eq haudits) hstore

omit [ReleaseTexts] in
theorem claimReleaseDue_advances {owner sessionId : UUID} {leaseSeconds : ℕ}
    {lease : Option ReleaseSampleLease}
    (hok : s.claimReleaseDue clk owner sessionId leaseSeconds = .ok (lease, s')) :
    Advances s s' := by
  rcases claimReleaseDue_cases hok with ⟨-, rfl⟩ | ⟨session, release, reason, -, hends⟩ |
    ⟨session, release, slot, scope, issued, -, hleases⟩
  · exact .of_same rfl rfl rfl
  · have honly := s.endReleaseSession_only release.status sessionId session reason release.status
      none clk.endedAt
    rw [hends.written]
    exact .of_same honly.releases honly.audits honly.store
  · rw [hleases.written]
    exact .of_same rfl rfl rfl

omit [ReleaseTexts] in
/-- An adopted sample changes the row of its release only, which is live. -/
theorem Submission.adopt_advances {d : Submission} {endedAt : Time}
    (hrelease : s.releases.get d.lease.observationId = some d.release)
    (hadopted : d.reason = .adopted) : Advances s (d.adopt s jobId endedAt).2 := by
  obtain ⟨-, -, hstatus, -⟩ := releaseSampleReason_adopted hadopted
  have hlive : d.release.status.live = true := by rw [hstatus]; rfl
  unfold Submission.adopt
  cases d.advanced.2 with
  | some decided =>
    have honly := endReleaseSession_only { s with
      samples := s.samples.insert d.evidence.sampleId
        (d.sampleRow (Option.map Prod.fst (some decided)) d.adoptedReceipt)
      sessions := s.sessions.modify d.lease.sessionId (·.marked d.marks) } d.release.status
      d.lease.sessionId d.session decided.2 decided.1 (some d.evidence.sampleId) endedAt
    have hreleases := congrArg (Table.modify · d.lease.observationId fun _ =>
      d.decidedRow decided.1 decided.2) honly.releases
    have hterms : (d.decidedRow decided.1 decided.2).terms = d.release.terms := rfl
    exact .of_setRow hrelease hlive hterms rfl hreleases (.inl honly.audits) honly.store
  | none =>
    have hterms : d.countedRow.terms = d.release.terms := rfl
    exact .of_setRow hrelease hlive hterms rfl rfl (.inl rfl) rfl

omit [ReleaseTexts] in
/-- A sample that is kept as history changes sessions, endings and samples only. -/
theorem Submission.keepHistory_same (d : Submission) (s : ReleaseStore) (endedAt : Time) :
    (d.keepHistory s endedAt).2.releases = s.releases ∧
      (d.keepHistory s endedAt).2.audits = s.audits ∧
      (d.keepHistory s endedAt).2.store = s.store := by
  unfold Submission.keepHistory
  split
  · exact ⟨rfl, rfl, rfl⟩
  split
  · next reason _ =>
    have honly := s.endReleaseSession_only d.release.status d.lease.sessionId d.session reason
      d.release.status none endedAt
    exact ⟨honly.releases, honly.audits, honly.store⟩
  · split <;> exact ⟨rfl, rfl, rfl⟩

theorem submitReleaseSample_advances {evidence : ReleaseSampleEvidence}
    {receipt : ReleaseSampleReceipt}
    (hok : s.submitReleaseSample clk lease evidence jobId = .ok (receipt, s')) :
    Advances s s' := by
  rcases submitReleaseSample_cases hok with ⟨-, -, -, rfl⟩ | ⟨d, hreads, hcases⟩
  · exact .of_same rfl rfl rfl
  obtain ⟨hrelease, -, -, -, -, rfl, -, -, -, -⟩ := hreads
  rcases hcases with ⟨hadopted, heq⟩ | ⟨-, heq⟩
  · rw [(Prod.mk.inj heq).2]
    exact d.adopt_advances hrelease hadopted
  · obtain ⟨hreleases, haudits, hstore⟩ := d.keepHistory_same s clk.endedAt
    rw [(Prod.mk.inj heq).2]
    exact .of_same hreleases haudits hstore

theorem sweepExpiredRelease_advances {observationId : UUID}
    (hok : s.sweepExpiredRelease clk observationId auditId = .ok s') : Advances s s' := by
  rcases sweepExpiredRelease_cases hok with rfl | ⟨row, audit, audited, hswept⟩
  · exact .of_same rfl rfl rfl
  obtain ⟨hget, hlive, -, haudit, rfl⟩ := hswept
  have hgrows := auditRelease_grows haudit
  obtain ⟨-, -, -, rfl⟩ := auditRelease_ok haudit
  have honly := s.endReleaseSessions_only row.status (s.authorizedSessions observationId)
    .deadlineExpired .unknown clk.endedAt
  have hreleases := congrArg (Table.modify · observationId fun _ =>
    row.expire (s.lastEnding clk observationId).2) honly.releases
  have hterms : (row.expire (s.lastEnding clk observationId).2).terms = row.terms := rfl
  exact .of_setRow hget hlive hterms rfl hreleases (hgrows.of_eq honly.audits) honly.store

/-- **Every operation advances the store.** -/
theorem exec_advances {op : ReleaseOp} {answer : ReleaseAnswer}
    (hok : op.exec clk s = .ok (answer, s')) : Advances s s' := by
  cases op with
  | recordRelease d =>
    obtain ⟨⟨receipt, t⟩, hrun, hok⟩ := bind_eq_ok.1 hok
    cases hok
    exact recordRelease_advances hrun
  | releaseCommand setting c =>
    obtain ⟨⟨receipt, t⟩, hrun, hok⟩ := bind_eq_ok.1 hok
    cases hok
    exact releaseCommand_advances hrun
  | claimReleaseDue owner sessionId leaseSeconds =>
    obtain ⟨⟨lease, t⟩, hrun, hok⟩ := bind_eq_ok.1 hok
    cases hok
    exact claimReleaseDue_advances hrun
  | submitReleaseSample lease evidence jobId =>
    obtain ⟨⟨receipt, t⟩, hrun, hok⟩ := bind_eq_ok.1 hok
    cases hok
    exact submitReleaseSample_advances hrun
  | sweepExpiredRelease observationId auditId =>
    obtain ⟨t, hrun, hok⟩ := bind_eq_ok.1 hok
    cases hok
    exact sweepExpiredRelease_advances hrun
  | base op clk' =>
    obtain ⟨⟨issued, store⟩, hrun, hok⟩ := bind_eq_ok.1 hok
    cases hok
    obtain ⟨e, -, F, hprepare, hmove⟩ := exec_move (mapError_eq_ok.1 hrun)
    refine ⟨fun _ row hrow => ⟨row, hrow, rfl, rfl, fun _ => rfl⟩,
      fun _ _ hrow => .inr (Option.isSome_of_eq_some hrow), .inl rfl, fun targetId hgate => ?_⟩
    have hhas : store.view.HasGate (some targetId) :=
      hmove.hasGate (hprepare.hasGate fun t ht => Option.some.inj ht ▸ hgate)
    exact hhas targetId rfl

theorem step_advances {call : ReleaseCall} (h : releaseSystem.Step s call t) : Advances s t := by
  rcases h with rfl | ⟨answer, hok⟩
  · exact .of_same rfl rfl rfl
  · exact exec_advances hok

/-! ## The gates -/

/-- What an operation does to the gates: a generation never goes back, and moves on with the flag. -/
def GatesAdvance (s t : Store) : Prop :=
  Control.GateAdvances s.scope t.scope ∧
    ∀ ⦃targetId gate⦄, s.targetSuspensions.get targetId = some gate →
      ∃ gate', t.targetSuspensions.get targetId = some gate' ∧ Control.GateAdvances gate gate'

omit [ReleaseTexts] in
theorem GatesAdvance.of_kept {s t : Store} (hscope : t.scope = s.scope) (hgates : KeepsGates s t) :
    GatesAdvance s t := by
  refine ⟨by rw [hscope]; exact .rfl, fun targetId gate hgate => ⟨gate, hgates _ _ hgate, .rfl⟩⟩

omit [ReleaseTexts] in
theorem GatesAdvance.of_eq {s t : Store} (h : t = s) : GatesAdvance s t :=
  .of_kept (by rw [h]) fun _ _ hgate => by rw [h]; exact hgate

theorem releaseCommand_store {setting : CommandSetting} {c : ReleaseCommand}
    {receipt : ReleaseCommandReceipt} (hok : s.releaseCommand clk setting c = .ok (receipt, s')) :
    s'.store = s.store := by
  obtain ⟨-, row, scope, hrow, -, hcases⟩ := releaseCommand_cases hok
  rcases hcases with ⟨-, -, -, -, rfl⟩ | ⟨-, ⟨reason, audit, hrejected, -⟩ | ⟨policy, happlied⟩⟩
  · rfl
  · obtain ⟨-, -, -, rfl⟩ := auditRelease_ok hrejected.audit
    rfl
  · obtain ⟨started, audit, audited, hstarted, haudit, -, rfl⟩ := applyCommand_ok happlied.written
    obtain ⟨-, -, -, rfl⟩ := auditRelease_ok haudit
    have honly := s.endForCommand_only clk c row
    rcases startSession_ok hstarted with ⟨-, rfl⟩ | ⟨p, -, -, -, rfl⟩ <;> exact honly.store

theorem submitReleaseSample_store {evidence : ReleaseSampleEvidence}
    {receipt : ReleaseSampleReceipt}
    (hok : s.submitReleaseSample clk lease evidence jobId = .ok (receipt, s')) :
    s'.store = s.store := by
  rcases submitReleaseSample_cases hok with ⟨-, -, -, rfl⟩ | ⟨d, -, ⟨-, heq⟩ | ⟨-, heq⟩⟩
  · rfl
  · rw [(Prod.mk.inj heq).2]
    cases d.advanced.2 with
    | some decided => exact (endReleaseSession_only ..).store
    | none => rfl
  · rw [(Prod.mk.inj heq).2]
    exact (d.keepHistory_same s clk.endedAt).2.2

/-- **No operation takes a gate back.** -/
theorem step_gates {call : ReleaseCall} (h : releaseSystem.Step s call t) :
    GatesAdvance s.store t.store := by
  rcases h with rfl | ⟨answer, hok⟩
  · exact .of_eq rfl
  obtain ⟨op, clk⟩ := call
  cases op with
  | recordRelease d =>
    obtain ⟨⟨receipt, u⟩, hrun, hok⟩ := bind_eq_ok.1 hok
    cases hok
    obtain ⟨store, hgates, hcases⟩ := recordRelease_cases hrun
    have hscope := recordRelease_scope hrun
    rcases hcases with rfl | ⟨terms, -, -, rfl⟩ <;> exact .of_kept hscope hgates
  | releaseCommand setting c =>
    obtain ⟨⟨receipt, u⟩, hrun, hok⟩ := bind_eq_ok.1 hok
    cases hok
    exact .of_eq (releaseCommand_store hrun)
  | claimReleaseDue owner sessionId leaseSeconds =>
    obtain ⟨⟨lease, u⟩, hrun, hok⟩ := bind_eq_ok.1 hok
    cases hok
    rcases claimReleaseDue_cases hrun with ⟨-, rfl⟩ | ⟨session, release, reason, -, hends⟩ |
      ⟨session, release, slot, scope, issued, -, hleases⟩
    · exact .of_eq rfl
    · rw [hends.written]
      exact .of_eq (endReleaseSession_only ..).store
    · rw [hleases.written]
      exact .of_eq rfl
  | submitReleaseSample lease evidence jobId =>
    obtain ⟨⟨receipt, u⟩, hrun, hok⟩ := bind_eq_ok.1 hok
    cases hok
    exact .of_eq (submitReleaseSample_store hrun)
  | sweepExpiredRelease observationId auditId =>
    obtain ⟨u, hrun, hok⟩ := bind_eq_ok.1 hok
    cases hok
    rcases sweepExpiredRelease_cases hrun with rfl | ⟨row, audit, audited, hswept⟩
    · exact .of_eq rfl
    · obtain ⟨-, -, -, haudit, rfl⟩ := hswept
      obtain ⟨-, -, -, rfl⟩ := auditRelease_ok haudit
      exact .of_eq (endReleaseSessions_only ..).store
  | base op clk' =>
    obtain ⟨⟨issued, store⟩, hrun, hok⟩ := bind_eq_ok.1 hok
    cases hok
    obtain ⟨e, -, F, hprepare, hmove⟩ := exec_move (mapError_eq_ok.1 hrun)
    have hfirst : Control.Advances clk'.now s.store.view F := hprepare.advances
    have hsecond := hmove.advances
    refine ⟨hfirst.global.trans hsecond.global, fun targetId gate hgate => ?_⟩
    have hhas : store.view.HasGate (some targetId) :=
      hmove.hasGate (hprepare.hasGate fun t ht => Option.some.inj ht ▸ (by
        change (s.store.targetSuspensions.get targetId).isSome = true
        rw [hgate]
        rfl))
    obtain ⟨gate', hgate'⟩ := Option.isSome_iff_exists.1 (hhas targetId rfl)
    refine ⟨gate', hgate', ?_⟩
    have htarget := (hfirst.target targetId).trans (hsecond.target targetId)
    have hbefore : s.store.view.targets targetId = some gate := hgate
    rw [hbefore, hgate'] at htarget
    exact htarget

/-! ## What stays for the rest of a run -/

variable {calls : List ReleaseCall} {oid : UUID} {row : ReleaseRow}

/-- A release that is over keeps its row. -/
theorem run_over (hrun : releaseSystem.Run s calls t) (hget : s.releases.get oid = some row)
    (hover : row.status.live = false) : t.releases.get oid = some row := by
  refine hrun.stable (P := fun s => s.releases.get oid = some row) (fun hstep h => ?_) hget
  obtain ⟨row', hrow', -, -, hsame⟩ := (step_advances hstep).row h
  rw [hrow', hsame hover]

/-- The keys of the audit rows are distinct in every reachable state. -/
theorem reachable_auditKeysDistinct (h : releaseSystem.Reachable s) : AuditKeysDistinct s := by
  refine h.invariant ?_ fun hstep => (step_advances hstep).distinct
  rintro s ⟨-, -, -, -, haudits⟩ id id' a b ha
  rw [haudits] at ha
  cases ha

/-- The answer to a command is on record: its release has a gate, and an audit row under its key
with its fingerprint and this result. -/
def OnRecord (s : ReleaseStore) (c : ReleaseCommand) (receipt : ReleaseCommandReceipt) : Prop :=
  ∃ row old, s.releases.get c.observationId = some row ∧
    (s.store.targetSuspensions.get row.terms.targetId).isSome = true ∧
    s.auditWith c.observationId c.idempotencyKey = some old ∧
    old.requestSha256 = fingerprintOf c ∧ { old.result with replayed := true } = receipt

theorem run_onRecord {c : ReleaseCommand} {receipt : ReleaseCommandReceipt}
    (hrun : releaseSystem.Run s calls t) (h : s.OnRecord c receipt) : t.OnRecord c receipt := by
  refine hrun.stable (P := fun s => s.OnRecord c receipt) (fun hstep h => ?_) h
  obtain ⟨row, old, hrow, hgate, hold, hanswer⟩ := h
  have hadvances := step_advances hstep
  obtain ⟨row', hrow', hterms, -, -⟩ := hadvances.row hrow
  exact ⟨row', old, hrow', by rw [hterms]; exact hadvances.gate hgate, hadvances.auditWith hold,
    hanswer⟩

/-- An answer on record is given again. -/
theorem OnRecord.repeated {c : ReleaseCommand} {receipt : ReleaseCommandReceipt}
    (h : s.OnRecord c receipt) (hvalid : c.valid = true) (clk : ReleaseClock)
    (setting : CommandSetting) : s.releaseCommand clk setting c = .ok (receipt, s) := by
  obtain ⟨row, old, hrow, hgate, hold, hsha, rfl⟩ := h
  obtain ⟨gate, hgate⟩ := Option.isSome_iff_exists.1 hgate
  have hscope : s.releaseScope row.terms.targetId = .ok ⟨s.store.scope, gate⟩ := by
    rw [releaseScope, hgate]
    rfl
  exact releaseCommand_replay hvalid hrow hscope hold hsha

section Command

variable {setting : CommandSetting} {c : ReleaseCommand} {receipt : ReleaseCommandReceipt}

/-- **The audit of a command.** A command that is answered for the first time, applied or rejected,
writes one audit row, with this answer under its key. -/
theorem releaseCommand_audited (hok : s.releaseCommand clk setting c = .ok (receipt, s')) :
    receipt.replayed = true ∧ s' = s ∨
      receipt.replayed = false ∧ ∃ audit : ReleaseAuditRow, s.audits.get receipt.auditId = none ∧
        s'.audits = s.audits.insert receipt.auditId audit ∧ audit.result = receipt ∧
        audit.result.observationId = c.observationId ∧ audit.idempotencyKey = c.idempotencyKey ∧
        audit.requestSha256 = fingerprintOf c := by
  obtain ⟨-, row, scope, -, -, hcases⟩ := releaseCommand_cases hok
  rcases hcases with ⟨old, -, -, rfl, rfl⟩ | ⟨-, ⟨reason, audit, hrejected, rfl⟩ |
    ⟨policy, happlied⟩⟩
  · exact .inl ⟨rfl, rfl⟩
  · obtain ⟨hid, -, ⟨sequence, rfl⟩, rfl⟩ := auditRelease_ok hrejected.audit
    exact .inr ⟨rfl, _, hid, rfl, rfl, rfl, rfl, rfl⟩
  · obtain ⟨started, audit, audited, hstarted, haudit, rfl, rfl⟩ := applyCommand_ok happlied.written
    obtain ⟨hid, -, ⟨sequence, rfl⟩, rfl⟩ := auditRelease_ok haudit
    have haudits : started.audits = s.audits := by
      have honly := s.endForCommand_only clk c row
      rcases startSession_ok hstarted with ⟨-, rfl⟩ | ⟨p, -, -, -, rfl⟩
      · exact honly.audits
      · exact honly.audits
    rw [haudits] at hid ⊢
    exact .inr ⟨rfl, _, hid, rfl, rfl, rfl, rfl, rfl⟩

/-- A command that was answered is on record. -/
theorem releaseCommand_onRecord (hok : s.releaseCommand clk setting c = .ok (receipt, s')) :
    s'.OnRecord c { receipt with replayed := true } := by
  have hadvances := releaseCommand_advances hok
  obtain ⟨-, row, scope, hrow, hscope, hcases⟩ := releaseCommand_cases hok
  have hgate : (s.store.targetSuspensions.get row.terms.targetId).isSome = true := by
    simp only [releaseScope, require_bind_eq_ok] at hscope
    obtain ⟨gate, hgate, -⟩ := hscope
    rw [hgate, Option.isSome_some]
  obtain ⟨row', hrow', hterms, -, -⟩ := hadvances.row hrow
  have hgate' := hadvances.gate hgate
  rw [← hterms] at hgate'
  rcases hcases with ⟨old, hold, hsha, rfl, rfl⟩ | ⟨-, ⟨reason, audit, hrejected, rfl⟩ |
    ⟨policy, happlied⟩⟩
  · exact ⟨row', old, hrow', hgate', hold, hsha, rfl⟩
  · have hfound := auditRelease_found hrejected.audit
    obtain ⟨-, -, ⟨sequence, rfl⟩, -⟩ := auditRelease_ok hrejected.audit
    exact ⟨row', _, hrow', hgate', hfound, rfl, rfl⟩
  · obtain ⟨started, audit, audited, -, haudit, rfl, rfl⟩ := applyCommand_ok happlied.written
    have hfound := auditRelease_found haudit
    obtain ⟨-, -, ⟨sequence, rfl⟩, -⟩ := auditRelease_ok haudit
    exact ⟨row', _, hrow', hgate', hfound, rfl, rfl⟩

/-- **A command that was answered is answered again**, whatever happens in between, and changes
nothing then. -/
theorem releaseCommand_repeated (hok : s.releaseCommand clk setting c = .ok (receipt, s'))
    (hrun : releaseSystem.Run s' calls t) (clk' : ReleaseClock) (setting' : CommandSetting) :
    t.releaseCommand clk' setting' c = .ok ({ receipt with replayed := true }, t) := by
  have hvalid := (releaseCommand_cases hok).1
  exact (run_onRecord hrun (releaseCommand_onRecord hok)).repeated hvalid clk' setting'

end Command

/-! ## A sample that is not adopted -/

/-- The watermarks of every session are kept. -/
def KeepsMarks (s t : ReleaseStore) : Prop :=
  ∀ ⦃sid session⦄, s.sessions.get sid = some session →
    ∃ session', t.sessions.get sid = some session' ∧ session'.marks = session.marks

omit [ReleaseTexts] in
theorem keepsMarks_of_modify {sid : UUID} {f : ReleaseSessionRow → ReleaseSessionRow}
    (ht : t.sessions = s.sessions.modify sid f)
    (hf : ∀ session, (f session).marks = session.marks) : KeepsMarks s t := by
  intro sid' session hget
  rw [ht]
  by_cases hsid : sid' = sid
  · subst hsid
    exact ⟨f session, by rw [Table.get_modify_self, hget, Option.map_some], hf session⟩
  · exact ⟨session, by rw [Table.get_modify_ne _ _ hsid, hget], rfl⟩

omit [ReleaseTexts] in
theorem keepsMarks_of_eq (ht : t.sessions = s.sessions) : KeepsMarks s t :=
  fun _ session hget => ⟨session, by rw [ht, hget], rfl⟩

omit [ReleaseTexts] in
theorem Submission.keepHistory_marks (d : Submission) (s : ReleaseStore) (endedAt : Time) :
    KeepsMarks s (d.keepHistory s endedAt).2 := by
  unfold Submission.keepHistory
  split
  · exact keepsMarks_of_eq rfl
  split
  · next reason _ =>
    unfold ReleaseStore.endReleaseSession
    split
    · exact keepsMarks_of_eq rfl
    · exact keepsMarks_of_modify (f := (·.ended reason)) rfl fun _ => rfl
  · split
    · exact keepsMarks_of_modify (f := (·.postponed d.due)) rfl fun _ => rfl
    · exact keepsMarks_of_eq rfl

/-- **A late or fenced sample moves no watermark**, and changes no release. -/
theorem submitReleaseSample_marks {evidence : ReleaseSampleEvidence}
    {receipt : ReleaseSampleReceipt}
    (hok : s.submitReleaseSample clk lease evidence jobId = .ok (receipt, s'))
    (hnot : receipt.reason ≠ .adopted) : KeepsMarks s s' ∧ s'.releases = s.releases := by
  rcases submitReleaseSample_cases hok with ⟨-, -, -, rfl⟩ | ⟨d, -, ⟨hadopted, heq⟩ | ⟨-, heq⟩⟩
  · exact ⟨keepsMarks_of_eq rfl, rfl⟩
  · have hreceipt : receipt = d.adoptedReceipt := (Prod.mk.inj heq).1
    rw [hreceipt] at hnot
    exact absurd hadopted hnot
  · rw [(Prod.mk.inj heq).2]
    exact ⟨d.keepHistory_marks s clk.endedAt, (d.keepHistory_same s clk.endedAt).1⟩

/-! ## The safety of release subjects -/

/-- What holds of the releases in one state: a release has at most one authorized session, and none
while it is paused or over; a session that ended has one ending; the samples that count are the
adopted ones, within the limit. -/
structure SubjectsSafe (s : ReleaseStore) : Prop where
  session : ∀ ⦃sid sid' a b⦄, s.sessions.get sid = some a → s.sessions.get sid' = some b →
    a.state = .authorized → b.state = .authorized → a.observationId = b.observationId → sid = sid'
  ending : ∀ ⦃sid session⦄, s.sessions.get sid = some session → session.state ≠ .authorized →
    ∃! id : ReleaseEndingId, id.2 = sid ∧ (s.endings.get id).isSome = true
  used : ∀ ⦃oid row⦄, s.releases.get oid = some row →
    row.usedSampleCount = s.adoptedCount oid ∧ row.usedSampleCount ≤ row.terms.maxSamples
  idle : ∀ ⦃oid row⦄, s.releases.get oid = some row →
    row.paused = true ∨ row.status.live = false → s.Idle oid

omit [ReleaseTexts] in
theorem Sound.subjectsSafe (h : Sound s) : SubjectsSafe s where
  session := h.unique
  ending sid session hget hended := by
    have hsome : (s.endings.get (session.observationId, sid)).isSome = true := by
      rw [Option.isSome_iff_ne_none]
      exact fun hnone => hended ((h.ended hget).2 hnone)
    refine ⟨(session.observationId, sid), ⟨rfl, hsome⟩, ?_⟩
    rintro ⟨oid, sid'⟩ ⟨rfl, hid⟩
    obtain ⟨ending, hending⟩ := Option.isSome_iff_exists.1 hid
    obtain ⟨session', hget', rfl⟩ := h.ending hending
    obtain rfl := Option.some.inj (hget.symm.trans hget')
    rfl
  used _ _ hrow := ⟨h.used hrow, h.limit hrow⟩
  idle oid row hrow hstopped sid session hget hoid hauth := by
    obtain ⟨row', hrow', hstatus, hpaused⟩ := h.live hget hauth
    rw [hoid, hrow] at hrow'
    obtain rfl := Option.some.inj hrow'
    rcases hstopped with hstopped | hstopped
    · rw [hpaused] at hstopped
      cases hstopped
    · rw [hstatus] at hstopped
      cases hstopped

/-- **Release subject safety**, from every reachable state, under every order of deliveries,
commands, claims, samples, sweeps, operations of the incident store and lost transactions. A command
that raises leaves no trace; one that is answered is audited once, and answered again from there. -/
theorem release_safety (h : releaseSystem.Reachable s) :
    s.SubjectsSafe ∧
    (∀ {calls t oid row}, releaseSystem.Run s calls t → s.releases.get oid = some row →
      row.status.live = false →
        ∃ row', t.releases.get oid = some row' ∧ row'.status = row.status) ∧
    (∀ {clk setting c receipt s'}, s.releaseCommand clk setting c = .ok (receipt, s') →
      (receipt.replayed = true ∧ s' = s ∨ receipt.replayed = false ∧
        ∃ audit : ReleaseAuditRow, s.audits.get receipt.auditId = none ∧
          s'.audits = s.audits.insert receipt.auditId audit ∧ audit.result = receipt ∧
          audit.idempotencyKey = c.idempotencyKey) ∧
      ∀ {calls t}, releaseSystem.Run s' calls t →
        (∃! id, ∃ audit, t.audits.get id = some audit ∧
          audit.result.observationId = c.observationId ∧
          audit.idempotencyKey = c.idempotencyKey) ∧
        ∀ clk setting,
          t.releaseCommand clk setting c = .ok ({ receipt with replayed := true }, t)) ∧
    (∀ {clk setting c error t}, s.releaseCommand clk setting c = .error error →
      releaseSystem.Step s ⟨.releaseCommand setting c, clk⟩ t → t = s) ∧
    ∀ {clk lease evidence jobId receipt s'},
      s.submitReleaseSample clk lease evidence jobId = .ok (receipt, s') →
        receipt.reason ≠ .adopted → KeepsMarks s s' := by
  refine ⟨(reachable_sound h).subjectsSafe, fun hrun hget hover =>
    ⟨_, run_over hrun hget hover, rfl⟩, fun {clk setting c receipt s'} hok => ⟨?_, ?_⟩, ?_,
    fun hok hnot => (submitReleaseSample_marks hok hnot).1⟩
  · rcases releaseCommand_audited hok with hreplayed | ⟨hnew, audit, hid, hwritten, hresult, -, hkey, -⟩
    · exact .inl hreplayed
    · exact .inr ⟨hnew, audit, hid, hwritten, hresult, hkey⟩
  · intro calls t hrun
    refine ⟨?_, fun clk' setting' => releaseCommand_repeated hok hrun clk' setting'⟩
    have hstep : releaseSystem.Step s ⟨.releaseCommand setting c, clk⟩ s' := by
      refine .inr ⟨.command receipt, ?_⟩
      rw [ReleaseOp.exec, hok]
      rfl
    have hdistinct := reachable_auditKeysDistinct ((h.step hstep).run hrun)
    obtain ⟨row, old, -, -, hold, -, -⟩ := run_onRecord hrun (releaseCommand_onRecord hok)
    obtain ⟨⟨id, hget⟩, hoid, hkey⟩ := auditWith_some hold
    refine ⟨id, ⟨old, hget, hoid, hkey⟩, ?_⟩
    rintro id' ⟨audit, hget', hoid', hkey'⟩
    exact hdistinct hget' hget (hoid'.trans hoid.symm) (hkey'.trans hkey.symm)
  · rintro clk setting c error t herror (rfl | ⟨answer, hok⟩)
    · rfl
    · rw [ReleaseOp.exec, herror] at hok
      cases hok

/-! ## Runs on fixed calls -/

/-- The store after a call; a call that raises is rolled back. -/
def apply (s : ReleaseStore) (call : ReleaseCall) : ReleaseStore :=
  match call.op.exec call.clock s with
  | .ok r => r.2
  | .error _ => s

theorem run_apply (s : ReleaseStore) (calls : List ReleaseCall) :
    releaseSystem.Run s calls (calls.foldl apply s) := by
  induction calls generalizing s with
  | nil => exact .nil s
  | cons call calls ih =>
    refine .cons ?_ (ih _)
    unfold apply
    cases hexec : call.op.exec call.clock s with
    | ok r => exact .inr ⟨r.1, hexec⟩
    | error _ => exact .inl rfl

end ReleaseStore

/-- The error of a result. -/
def errorOf {ε α : Type*} : Except ε α → Option ε
  | .ok _ => none
  | .error e => some e

theorem errorOf_eq_some {ε α : Type*} {x : Except ε α} {e : ε} :
    errorOf x = some e ↔ x = .error e := by
  cases x <;> simp [errorOf]

namespace Scenario

/-- The texts of a release of the service `api`: every sample is healthy. -/
scoped instance releaseTexts : ReleaseTexts where
  toTexts := texts
  healthProfile text :=
    if text = profile then some {
      revision := profileRevision, «namespace» := "prod", service := "api"
      deadlineSeconds := 600, maxSamples := 3, sampleIntervalSeconds := 60
      sustainedWindowSeconds := 120, definition := .obj []
      maxSamples_pos := by decide, interval_pos := by decide }
    else none
  supportedProfile _ := true
  semanticSha256 event _ _ := event.sourceReleaseId
  commandSha256
    | .authorize, _, _, _ => "authorize"
    | .pause, _, _, _ => "pause"
    | .resume, _, _, _ => "resume"
    | .cancel, _, _, _ => "cancel"
  sampleFingerprint _ _ := "sample"
  evaluateReleaseSample _ _ _ := {
    verdict := .healthy, outcome := .healthy, evidenceSufficient := true, report := .obj [] }
  queryEvidenceConsistent _ _ _ := true

/-- The policy of the service `api`. -/
def releasePolicy : ReleasePolicy where
  revision := "slo@1"
  contentSha256 := "slo"
  content := "slo"
  target := ⟨"k8s", "cluster-1", "prod", "pod-1", "api"⟩
  healthProfileRevision := profileRevision
  healthProfileSha256 := texts.sha256 profile
  minTrackingSeconds := 120

/-- The release 1 of the service `api`. -/
def releaseDelivery : ReleaseDelivery where
  event := {
    source := "argo", sourceReleaseId := "r1", releasedAt := 0
    before := .obj [], after := .obj [], auxiliary := .obj [] }
  target := .uid "pod-1"
  identity := some ⟨"k8s", "cluster-1", "prod", "pod-1", "api"⟩
  healthProfileRevision := profileRevision
  healthProfile := some profile
  minTrackingSeconds := 120
  observationId := 1
  freshTarget := 7

/-- A clock that stands at `n` seconds. -/
def releaseClock (n : ℕ) : ReleaseClock :=
  ⟨seconds n, seconds n, seconds n, seconds n, seconds n⟩

/-- The ids of the command number `n`. -/
def commandSetting (n : ℕ) : CommandSetting :=
  { catalog := some [releasePolicy], sessionId := 100 + n, jobId := 200 + n, auditId := 300 + n }

/-- The authorization of the release 1. -/
def authorizeCommand : ReleaseCommand where
  observationId := 1
  action := .authorize
  actor := "anna"
  expectedControlGeneration := 0
  idempotencyKey := "a"
  calibratedPolicyRevision := some "slo@1"

/-- A pause under the key of the authorization. -/
def pauseCommand : ReleaseCommand where
  observationId := 1
  action := .pause
  actor := "anna"
  expectedControlGeneration := 0
  idempotencyKey := "a"
  calibratedPolicyRevision := none

/-- The release is recorded and authorized. -/
def releaseCalls : List ReleaseCall :=
  [⟨.recordRelease releaseDelivery, releaseClock 10⟩,
    ⟨.releaseCommand (commandSetting 1) authorizeCommand, releaseClock 20⟩]

/-- The store the first `n` calls lead to. -/
def releaseReached (n : ℕ) : ReleaseStore := (releaseCalls.take n).foldl ReleaseStore.apply {}

theorem releaseReached_reachable (n : ℕ) : releaseSystem.Reachable (releaseReached n) :=
  ⟨{}, releaseCalls.take n, ⟨rfl, rfl, rfl, rfl, rfl⟩, ReleaseStore.run_apply _ _⟩

example : ((releaseReached 2).releases.get 1).map (·.status) = some .observing ∧
    ((releaseReached 2).authorizedSessions 1).map Prod.fst = [101] := by
  decide +kernel

/-- The authorization is applied, and answered again whenever it comes again. -/
theorem release_safety_authorized : (releaseReached 2).SubjectsSafe ∧
    ∃ receipt : ReleaseCommandReceipt,
      (releaseReached 1).releaseCommand (releaseClock 20) (commandSetting 1) authorizeCommand =
        .ok (receipt, releaseReached 2) ∧
      ∀ clk setting, (releaseReached 2).releaseCommand clk setting authorizeCommand =
        .ok ({ receipt with replayed := true }, releaseReached 2) := by
  obtain ⟨hsafe, -⟩ := ReleaseStore.release_safety (releaseReached_reachable 2)
  obtain ⟨-, -, hcommand, -⟩ := ReleaseStore.release_safety (releaseReached_reachable 1)
  have hbool : ((releaseReached 1).releaseCommand (releaseClock 20) (commandSetting 1)
      authorizeCommand).toBool = true := by decide +kernel
  have hreached : releaseReached 2 = (releaseReached 1).apply
      ⟨.releaseCommand (commandSetting 1) authorizeCommand, releaseClock 20⟩ := rfl
  cases hok : (releaseReached 1).releaseCommand (releaseClock 20) (commandSetting 1)
      authorizeCommand with
  | error e =>
    rw [hok] at hbool
    cases hbool
  | ok r =>
    obtain ⟨receipt, s'⟩ := r
    have hs' : releaseReached 2 = s' := by
      rw [hreached, ReleaseStore.apply, ReleaseOp.exec, hok]
      rfl
    rw [hs'] at hsafe ⊢
    exact ⟨hsafe, receipt, rfl, ((hcommand hok).2 (.nil _)).2⟩

/-- **A command that is refused writes no audit row**: the key of the pause is the one of the
authorization. -/
theorem release_audit_refused : releaseSystem.Reachable (releaseReached 2) ∧
    pauseCommand.valid = true ∧
    (releaseReached 2).releaseCommand (releaseClock 30) (commandSetting 2) pauseCommand =
      .error .idempotencyConflict ∧
    ∀ t, releaseSystem.Step (releaseReached 2)
        ⟨.releaseCommand (commandSetting 2) pauseCommand, releaseClock 30⟩ t →
      t.audits = (releaseReached 2).audits := by
  have herror : (releaseReached 2).releaseCommand (releaseClock 30) (commandSetting 2)
      pauseCommand = .error .idempotencyConflict := by
    rw [← errorOf_eq_some]
    decide +kernel
  refine ⟨releaseReached_reachable 2, by decide, herror, ?_⟩
  rintro t (rfl | ⟨answer, hok⟩)
  · rfl
  · rw [ReleaseOp.exec, herror] at hok
    cases hok

end Scenario

end OpsPilot
