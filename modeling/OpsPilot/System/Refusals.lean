import OpsPilot.System.Adoptions

/-!
# Refused samples

A sample that is not adopted is filed. It moves no watermark; what else it may do depends on the
reason it was refused for, and on its lease.

* `Store.Refused`: what a refused submission leaves of its session and its incident.
* `Records.Single`: a sampling job has at most one adopted sample.
* **`rejected_samples`**: refused samples in every reachable state, and the adopted ones of a lease.
-/

namespace OpsPilot

open Store

/-- What a refused sample leaves. The watermarks of its session stay, and so does everything else
unless the reason shows that an authorized session is over: then the session ends for that reason,
and a deadline returns its incident from observation. -/
structure Store.Refused (s s' : Store) (lease : SampleLease) (reason : SampleReason)
    (incident : IncidentRow) (row row' : SessionRow) : Prop where
  foundIncident : s.incidents.get lease.incidentId = some incident
  foundSession : s.sessions.get lease.sessionId = some row
  session : s'.sessions.get lease.sessionId = some row'
  others : ∀ i, i ≠ lease.sessionId → s'.sessions.get i = s.sessions.get i
  watermarks : row'.fold = { row.fold with state := row'.state }
  kept : row.state ≠ .authorized ∨ reason.ends = none → row'.state = row.state ∧
    row'.endedReason = row.endedReason ∧ s'.endings = s.endings ∧ s'.incidents = s.incidents
  ended : ∀ e, row.state = .authorized → reason.ends = some e → row' = row.ended e none ∧
    ∃ lifecycle, s'.incidents = s.incidents.modify lease.incidentId
        (fun row => { row with lifecycle }) ∧
      (lifecycle = incident.lifecycle ∨ e = .deadlineExpired ∧
        incident.lifecycle = .observingRecovery ∧ lifecycle = .opened)

section

variable [Texts] {s s' : Store} {clk : Clock} {lease : SampleLease} {sample : HealthSample}
  {readings : List SignalReading} {sampleId jobId : UUID} {incident : IncidentRow}
  {row : SessionRow} {c : Conditions} {verdict : Verdict} {after : IncidentLifecycle}

/-- The incident a submission leaves. -/
theorem Store.Submitted.incidents
    (h : Submitted s clk lease sample readings sampleId jobId incident row c verdict after s') :
    s'.incidents = s.incidents.modify lease.incidentId
      (fun row => { row with lifecycle := after }) := by
  rw [h.written]

theorem Store.Submitted.incidents_kept
    (h : Submitted s clk lease sample readings sampleId jobId incident row c verdict after s')
    (hnone : verdict.endedReason = none) : s'.incidents = s.incidents := by
  have hfired := h.fired
  rw [Verdict.transition, hnone] at hfired
  obtain rfl := Except.ok.inj hfired
  rw [h.incidents]
  refine Table.modify_eq_self fun found hfound => ?_
  obtain rfl := Option.some.inj (h.foundIncident.symm.trans hfound)
  rfl

omit [Texts] in
/-- An ending without a confirmation leaves a lifecycle as it is, or returns it from observation. -/
theorem fireTransition_ends {reason : SampleReason} {e : EndedReason}
    {before after : IncidentLifecycle} (hends : reason.ends = some e)
    (h : fireTransition before e.transition = .ok after) :
    after = before ∨ e = .deadlineExpired ∧ before = .observingRecovery ∧ after = .opened := by
  cases reason <;> cases hends
  case deadlineExpired =>
    obtain rfl := Except.ok.inj h
    cases before <;> decide
  all_goals exact .inl (Except.ok.inj h).symm

/-- **A refused submission moves no watermark.** -/
theorem Store.Submitted.refused
    (h : Submitted s clk lease sample readings sampleId jobId incident row c verdict after s')
    (hrejected : verdict.decision.accepted = false) :
    ∃ row', s.Refused s' lease verdict.decision.reason incident row row' := by
  obtain ⟨row', new, sessions, houtcome, -, hself, hothers, hrecords⟩ := h.outcome
  have hsessions : s'.sessions = sessions := congrArg Records.sessions hrecords
  have hendings : s'.endings = new ++ s.endings := congrArg Records.endings hrecords
  have hverdict := hrejected
  rw [h.judged] at hverdict
  obtain ⟨hends, hfold⟩ := judge_rejected hverdict
  rw [← h.judged] at hends hfold
  refine ⟨row', ?_⟩
  rw [← hsessions] at hself hothers
  cases houtcome with
  | @ended e hended =>
    have hstate : row.fold.state = .authorized := by
      by_contra hnot
      rw [if_neg hnot, hended] at hends
      cases hends
    rw [if_pos hstate, hended] at hends
    have hrow : row.ended e.endedReason (some verdict.watermark) = row.ended e.endedReason none := by
      simp only [SessionRow.ended, SessionRow.fold, Verdict.watermark, hfold, Option.bind_some,
        Option.map_some, Option.getD_some, Option.or_self, Option.map_none, Option.bind_none,
        Option.none_or, Option.getD_none]
    refine ⟨h.foundIncident, h.foundSession, hself, hothers, by rw [hrow]; rfl, ?_, ?_⟩
    · rintro (hnot | hnone)
      · exact absurd hstate hnot
      · rw [hnone] at hends
        cases hends
    · intro e' _ he'
      obtain rfl := Option.some.inj (hends.trans he')
      refine ⟨hrow, after, h.incidents, ?_⟩
      have hfired := h.fired
      rw [Verdict.transition, hended] at hfired
      exact fireTransition_ends he' hfired
  | advanced _ haccepted =>
    rw [hrejected] at haccepted
    cases haccepted
  | postponed hunended | filed hunended =>
    refine ⟨h.foundIncident, h.foundSession, hself, hothers, rfl, fun _ => ⟨rfl, rfl, hendings, ?_⟩,
      fun e hstate he => ?_⟩
    · exact h.incidents_kept hunended
    · rw [hunended] at hends
      have hopen : row.fold.state = .authorized := hstate
      rw [if_pos hopen, he] at hends
      cases hends

/-- Without a valid lease a submission is filed, and nothing else. -/
theorem Store.Submitted.late
    (h : Submitted s clk lease sample readings sampleId jobId incident row c verdict after s')
    (hlate : sampleLeaseValid row lease clk.now = false) :
    verdict.decision.accepted = false ∧ s'.sessions = s.sessions ∧ s'.endings = s.endings ∧
      s'.incidents = s.incidents := by
  have hvalid : c.leaseValid = false := by
    rw [h.conditions]
    exact hlate
  have hverdict := h.judged
  rw [judge_leaseRevoked hvalid] at hverdict
  have hunended : verdict.endedReason = none := by rw [hverdict]
  have hrejected : verdict.decision.accepted = false := by rw [hverdict]; rfl
  have htables : submitSessions s.sessionTables clk lease row c verdict after sampleId jobId =
      s.sessionTables := by
    simp only [submitSessions, hunended, hrejected, hvalid, Bool.false_eq_true, if_false]
  refine ⟨hrejected, ?_, ?_, h.incidents_kept hunended⟩
  · rw [h.written, htables]
    rfl
  · rw [h.written, htables]
    rfl

end

/-! ## One adopted sample for a job -/

/-- A sampling job has at most one adopted sample, and the job at work none. -/
structure SessionRow.Single (row : SessionRow) (samples : List (UUID × SampleRow)) : Prop where
  jobs : (adopted samples).Pairwise fun r r' => r.jobId ≠ r'.jobId
  active : ∀ r ∈ adopted samples, row.activeSampleJobId ≠ some r.jobId

/-- The job identity a submission brings was never used: no sample and no session has it. -/
def Store.FreshJob (s : Store) (jobId : UUID) : Prop :=
  (∀ e ∈ s.samples.rows, e.2.jobId ≠ jobId) ∧
    ∀ e ∈ s.sessions.rows, e.2.activeSampleJobId ≠ some jobId

instance (s : Store) (jobId : UUID) : Decidable (s.FreshJob jobId) :=
  inferInstanceAs (Decidable (_ ∧ _))

namespace State

/-- A submission brings a fresh job identity. -/
def FreshJobs (σ : State) (call : Call) : Prop :=
  match call.op with
  | .submitSample _ _ _ _ jobId => σ.store.FreshJob jobId
  | _ => True

instance (σ : State) (call : Call) : Decidable (σ.FreshJobs call) := by
  unfold FreshJobs
  split <;> infer_instance

end State

section

variable [Texts] {op : Op} {clk : Clock} {s : Store}

/-- A submission with a fresh job identity adopts no second sample of a job. -/
theorem keeps_single (hop : ∀ lease sample readings sampleId jobId,
      op = .submitSample lease sample readings sampleId jobId → s.FreshJob jobId) :
    Records.Keeps (fun _ row samples _ => row.Single samples) op clk s where
  closed h _ := ⟨h.jobs, fun _ _ => nofun⟩
  fresh _ _ _ := ⟨List.Pairwise.nil, fun _ hr => nomatch hr⟩
  leased h _ _ _ _ hjob := ⟨h.jobs, fun r hr => hjob ▸ h.active r hr⟩
  submitted {lease sample readings sampleId jobId incident row c verdict after s' row' new}
      hsubmits hsub h houtcome := by
    obtain ⟨stored, hstored⟩ : ∃ stored, stored =
        sampleRow lease sample readings c (s.scopeOf incident) verdict clk.later := ⟨_, rfl⟩
    have haccepted : stored.accepted = verdict.decision.accepted := by rw [hstored]; rfl
    have hjob : stored.jobId = lease.jobId := by rw [hstored]; rfl
    rw [← hstored]
    have hfresh := hop lease sample readings sampleId jobId hsubmits
    cases hadopted : verdict.decision.accepted with
    | false =>
      have hkept : ∀ job, row'.activeSampleJobId = some job → row.activeSampleJobId = some job := by
        cases houtcome with
        | ended => exact fun _ hjob => nomatch hjob
        | advanced _ haccepted => rw [haccepted] at hadopted; cases hadopted
        | postponed | filed => exact fun _ => id
      have hlist : adopted ((sampleId, stored) :: s.records.samplesOf lease.sessionId) =
          adopted (s.records.samplesOf lease.sessionId) :=
        adopted_cons_rejected (haccepted.trans hadopted)
      refine ⟨hlist ▸ h.jobs, fun r hr hactive => ?_⟩
      rw [hlist] at hr
      exact h.active r hr (hkept _ hactive)
    | true =>
      have hlist : adopted ((sampleId, stored) :: s.records.samplesOf lease.sessionId) =
          stored :: adopted (s.records.samplesOf lease.sessionId) :=
        adopted_cons (haccepted.trans hadopted)
      have hvalid : c.leaseValid = true := by
        rw [hsub.judged] at hadopted
        exact (judge_adopted hadopted).lease
      have hactive : row.activeSampleJobId = some lease.jobId := by
        rw [hsub.conditions] at hvalid
        simp only [submitConditions, sampleLeaseValid, decide_eq_true_eq] at hvalid
        exact hvalid.1
      have hnext : ∀ job, row'.activeSampleJobId = some job → job = jobId := by
        cases houtcome with
        | ended => exact fun _ hjob => nomatch hjob
        | advanced => exact fun _ hjob => (Option.some.inj hjob).symm
        | postponed _ hrejected | filed _ hrejected => rw [hrejected] at hadopted; cases hadopted
      refine ⟨?_, fun r hr hactive' => ?_⟩
      · rw [hlist]
        refine List.pairwise_cons.2 ⟨fun r hr heq => ?_, h.jobs⟩
        refine h.active r hr ?_
        rw [hactive, ← hjob, heq]
      · have hused := hnext r.jobId hactive'
        rw [hlist] at hr
        rcases List.mem_cons.1 hr with rfl | hr
        · refine hfresh.2 _ (Table.mem_rows_iff.2 hsub.foundSession) ?_
          rw [← hused, hjob]
          exact hactive
        · obtain ⟨⟨id, r'⟩, hmem, rfl⟩ := List.mem_map.1 (List.mem_filter.1 hr).1
          have hsample := (Table.mem_select_iff.1 hmem).1
          exact hfresh.1 _ (Table.mem_rows_iff.2 hsample) hused

end

namespace State

variable [Texts] {σ τ : State}

/-- In runs with fresh job identities a job has at most one adopted sample. -/
theorem single_of_fresh (h : (system.restrict FreshJobs).Reachable σ) :
    σ.store.records.Each fun _ row samples _ => row.Single samples := by
  refine h.invariant (P := fun σ => σ.store.records.Each fun _ row samples _ => row.Single samples)
    (fun σ hinit => ?_) fun {σ call σ'} hstep hσ => ?_
  · rw [hinit.1]
    exact .empty
  · rcases step_cases hstep.1 with ⟨issued, store, hok, rfl⟩ | ⟨-, rfl⟩
    · refine hσ.steps (keeps_single fun lease sample readings sampleId jobId hop => ?_)
        (exec_sessions hok)
      have hfresh := hstep.2
      rw [FreshJobs, hop] at hfresh
      exact hfresh
    · exact hσ

/-- **Refused samples.** A submission that is not adopted leaves the watermarks of its session, and
every other session; it ends an authorized session for the reasons that show it is over, and then
only a deadline moves the incident, from observation back to open. Without a valid lease nothing
but the sample is filed. Under one lease at most one sample is adopted, while the identities of
sampling jobs are fresh. -/
theorem rejected_samples (h : (system.restrict FreshJobs).Reachable σ) :
    (∀ clk lease sample readings sampleId jobId receipt s',
      σ.store.submitSample clk lease sample readings sampleId jobId = .ok (receipt, s') →
      receipt.accepted = false →
      ∃ incident row row', σ.store.Refused s' lease receipt.reason incident row row' ∧
        (sampleLeaseValid row lease clk.now = false →
          s'.sessions = σ.store.sessions ∧ s'.endings = σ.store.endings ∧
            s'.incidents = σ.store.incidents)) ∧
    (∀ clk lease sample readings sampleId jobId receipt s' row,
      σ.store.submitSample clk lease sample readings sampleId jobId = .ok (receipt, s') →
      σ.store.sessions.get lease.sessionId = some row →
      sampleLeaseValid row lease clk.now = false → receipt.accepted = false) ∧
    ∀ id id' r r', σ.store.samples.get id = some r → σ.store.samples.get id' = some r' →
      r.sessionId = r'.sessionId → r.jobId = r'.jobId → r.accepted = true → r'.accepted = true →
      id = id' := by
  refine ⟨fun clk lease sample readings sampleId jobId receipt s' hok hrejected => ?_,
    fun clk lease sample readings sampleId jobId receipt s' row hok hrow hlate => ?_,
    fun id id' r r' hr hr' hsession hjob haccepted haccepted' => ?_⟩
  · obtain ⟨incident, row, c, verdict, after, hsub, haccepted, hreason⟩ := submitSample_receipt hok
    rw [hrejected] at haccepted
    obtain ⟨row', hrefused⟩ := hsub.refused haccepted.symm
    rw [← hreason] at hrefused
    exact ⟨incident, row, row', hrefused, fun hlate => (hsub.late hlate).2⟩
  · obtain ⟨incident, row', c, verdict, after, hsub, haccepted, -⟩ := submitSample_receipt hok
    obtain rfl := Option.some.inj (hrow.symm.trans hsub.foundSession)
    rw [haccepted]
    exact (hsub.late hlate).1
  · have heach := single_of_fresh h
    obtain ⟨row, hrow⟩ := Option.isSome_iff_exists.1 (heach.sampled hr)
    have hjobs := (heach.session hrow).jobs
    rw [adopted, List.filter_map, List.pairwise_map] at hjobs
    have hmem : ∀ {k x}, σ.store.samples.get k = some x → x.sessionId = r.sessionId →
        x.accepted = true →
        (k, x) ∈ (σ.store.records.samplesOf r.sessionId).filter ((·.accepted) ∘ Prod.snd) := by
      intro k x hx hid hadopted
      refine List.mem_filter.2 ⟨Table.mem_select_iff.2 ⟨hx, ?_⟩, hadopted⟩
      simpa using hid
    by_contra hne
    have hsymm : Std.Symm fun e e' : UUID × SampleRow => e.2.jobId ≠ e'.2.jobId :=
      ⟨fun _ _ => Ne.symm⟩
    exact hjobs.forall (hmem hr rfl haccepted) (hmem hr' hsession.symm haccepted')
      (fun heq => hne (congrArg Prod.fst heq)) hjob

end State

namespace Scenario

/-- The session of `recoveryCalls` is claimed just before its deadline, and sampled just after. -/
def expiredCalls : List Call :=
  recoveryCalls.take 3 ++ [(Op.claimDueSample 10 20 30).at (seconds 1790)]

/-- The lease of the claim. -/
def expiredLease : SampleLease := sampleLease 11 1 (seconds 1820)

/-- A sample of the minute before the deadline. -/
def expiredSample : HealthSample := sample 1 ⟨seconds 1730, seconds 1790, by decide⟩

/-- The submission at the deadline, under the lease that is still valid. -/
def expiredCall : Call :=
  (Op.submitSample expiredLease expiredSample [reading (seconds 1730) (seconds 1790)] 12 13).at
    (seconds 1800)

/-- The refused sample ends its session, and returns the incident from observation. -/
theorem rejected_samples_expired :
    system.Reachable (State.reached expiredCalls) ∧
      system.Step (State.reached expiredCalls) expiredCall
        ((State.reached expiredCalls).apply expiredCall) ∧
      (((State.reached expiredCalls).apply expiredCall).store.samples.get 12).map (·.accepted) =
        some false ∧
      ((State.reached expiredCalls).store.sessions.get 10).map (·.state) = some .authorized ∧
      (((State.reached expiredCalls).apply expiredCall).store.sessions.get 10).map (·.state) =
        some .expired ∧
      ((State.reached expiredCalls).store.incidents.get 1).map (·.lifecycle) =
        some .observingRecovery ∧
      (((State.reached expiredCalls).apply expiredCall).store.incidents.get 1).map (·.lifecycle) =
        some .opened := by
  refine ⟨State.reachable_reached (by decide +kernel), ⟨by decide +kernel, by decide +kernel, rfl⟩,
    ?_, ?_, ?_, ?_, ?_⟩ <;> decide +kernel

/-- What it leaves of the session is what it may leave. -/
theorem rejected_samples_ended :
    ∃ s' incident row row', (State.reached expiredCalls).store.Refused s' expiredLease
      .deadlineExpired incident row row' := by
  have hreachable : (system.restrict State.FreshJobs).Reachable (State.reached expiredCalls) :=
    ⟨_, _, ⟨rfl, rfl, rfl⟩, State.run_restrict (by decide +kernel) (by decide +kernel)⟩
  cases hok : (State.reached expiredCalls).store.submitSample ⟨seconds 1800, seconds 1800, le_rfl⟩
    expiredLease expiredSample [reading (seconds 1730) (seconds 1790)] 12 13 with
  | error code =>
    have htaken : ((State.reached expiredCalls).store.submitSample
        ⟨seconds 1800, seconds 1800, le_rfl⟩ expiredLease expiredSample
        [reading (seconds 1730) (seconds 1790)] 12 13).toBool = true := by decide +kernel
    rw [hok] at htaken
    cases htaken
  | ok result =>
    obtain ⟨receipt, s'⟩ := result
    have hreceipt : (((State.reached expiredCalls).store.submitSample
        ⟨seconds 1800, seconds 1800, le_rfl⟩ expiredLease expiredSample
        [reading (seconds 1730) (seconds 1790)] 12 13).toOption.map
          fun result => (result.1.accepted, result.1.reason)) =
        some (false, .deadlineExpired) := by decide +kernel
    rw [hok] at hreceipt
    obtain ⟨hrejected, hreason⟩ := Prod.mk.inj (Option.some.inj hreceipt)
    obtain ⟨incident, row, row', hrefused, -⟩ :=
      (State.rejected_samples hreachable).1 _ _ _ _ _ _ _ _ hok hrejected
    exact ⟨s', incident, row, row', hreason ▸ hrefused⟩

end Scenario

end OpsPilot
