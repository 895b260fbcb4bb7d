import OpsPilot.Control.Outcome
import OpsPilot.Observation.Sound
import OpsPilot.System.Decisions
import OpsPilot.System.Sessions

/-!
# Replaying the sessions of a run

A submission is judged by the clock and by what its session stands at; a replay has the stored rows
only.

* `Records.Reproduced`: every session is sound, and every sample and ending belongs to one.
* `Records.Reproduced.step`: every write to the tables of observation keeps it, a submission under a
  condition.
* `Replayable` is that condition on a call, and `clean_of_replayable` what it gives.
* **`observation_replay`**: after every run of such calls a replay reproduces every session.
-/

namespace OpsPilot

open Store

variable {after : IncidentLifecycle} {s s' : Store} {clk : Clock} {readings : List SignalReading}
  {sampleId jobId : UUID}

namespace Records

variable [Texts]

/-- What the samples of a session are replayed against. -/
def basis (t : Records) (id : UUID) (row : SessionRow) : Basis where
  sessionId := id
  terms := row.terms
  required := parseRequired
    (row.healthProfileRevision.bind fun revision => (t.profiles.get revision).map (revision, ·))

/-- Every session is sound, and every sample and ending belongs to one; `now` bounds the times the
samples were submitted at. -/
structure Reproduced (t : Records) (now : Time) : Prop where
  sound : ∀ {id row}, t.sessions.get id = some row →
    Sound (t.basis id row) row (t.samplesOf id) (t.endingsOf id)
  profile : ∀ {id row}, t.sessions.get id = some row → ∀ revision ∈ row.healthProfileRevision,
    (t.profiles.get revision).isSome
  sampled : ∀ {id sample}, t.samples.get id = some sample →
    (t.sessions.get sample.sessionId).isSome ∧ sample.submittedAt ≤ now
  ended : ∀ e ∈ t.endings, (t.sessions.get e.sessionId).isSome

variable {t : Records} {now : Time}

theorem Reproduced.empty (now : Time) : (records {}).Reproduced now where
  sound {id row} hget := by
    rw [records, Table.get_empty] at hget
    cases hget
  profile {id row} hget := by
    rw [records, Table.get_empty] at hget
    cases hget
  sampled {id sample} hget := by
    rw [records, Table.get_empty] at hget
    cases hget
  ended _ he := nomatch he

theorem Reproduced.mono (h : t.Reproduced now) {now' : Time} (hle : now ≤ now') :
    t.Reproduced now' where
  sound := h.sound
  profile := h.profile
  sampled hget := ⟨(h.sampled hget).1, (h.sampled hget).2.trans hle⟩
  ended := h.ended

/-- A write to one session: the others and what belongs to them stay as they are. -/
theorem Reproduced.rewrite (h : t.Reproduced now) {id : UUID} {row row' : SessionRow}
    {sessions : Table UUID SessionRow} {samples : Table UUID SampleRow} {endings : List EndingRow}
    (hrow : t.sessions.get id = some row) (hself : sessions.get id = some row')
    (hothers : ∀ i, i ≠ id → sessions.get i = t.sessions.get i) (hterms : row'.terms = row.terms)
    (hsamples : ∀ i, i ≠ id → (samples.select fun _ row => row.sessionId = i) = t.samplesOf i)
    (hendings : ∀ i, i ≠ id → endings.filter (·.sessionId = i) = t.endingsOf i)
    (hsampled : ∀ {k sample}, samples.get k = some sample →
      t.samples.get k = some sample ∨ sample.sessionId = id ∧ sample.submittedAt ≤ now)
    (hended : ∀ e ∈ endings, e ∈ t.endings ∨ e.sessionId = id)
    (hsound : Sound (t.basis id row) row'
      (samples.select fun _ row => row.sessionId = id) (endings.filter (·.sessionId = id))) :
    Reproduced { t with sessions, samples, endings } now := by
  have hrevision := congrArg Terms.healthProfileRevision hterms
  simp only [SessionRow.terms] at hrevision
  have hfound : ∀ i, (t.sessions.get i).isSome = true → (sessions.get i).isSome = true := by
    intro i hi
    by_cases hid : i = id
    · rw [hid, hself]
      rfl
    · rw [hothers i hid, hi]
  refine ⟨fun {i row₁} hget => ?_, fun {i row₁} hget => ?_, fun {k sample} hget => ?_,
    fun e he => ?_⟩
  · by_cases hi : i = id
    · subst hi
      obtain rfl := Option.some.inj (hself.symm.trans hget)
      have hbasis : basis { t with sessions, samples, endings } i row' = t.basis i row := by
        simp only [basis, hterms, hrevision]
      rw [hbasis]
      exact hsound
    · have hold := h.sound ((hothers i hi).symm.trans hget)
      rw [← hsamples i hi, ← hendings i hi] at hold
      exact hold
  · by_cases hi : i = id
    · subst hi
      obtain rfl := Option.some.inj (hself.symm.trans hget)
      rw [hrevision]
      exact h.profile hrow
    · exact h.profile ((hothers i hi).symm.trans hget)
  · rcases hsampled hget with hold | ⟨hid, hle⟩
    · exact ⟨hfound _ (h.sampled hold).1, (h.sampled hold).2⟩
    · exact ⟨by rw [hid, hself]; rfl, hle⟩
  · rcases hended e he with hold | hid
    · exact hfound _ (h.ended e hold)
    · rw [hid, hself]
      rfl

/-- A session ends without a sample. -/
theorem Reproduced.close (h : t.Reproduced now) {id : UUID} {row : SessionRow}
    {reason : EndedReason} {before : IncidentLifecycle} {recordedAt : Time}
    (hrow : t.sessions.get id = some row) (hstate : row.state = .authorized)
    (hreason : reason ∈ [EndedReason.authorityRevoked, .scopeSuspended, .deadlineExpired])
    (hfired : fireTransition before reason.transition = .ok after)
    (hdeadline : reason = .deadlineExpired → row.deadlineAt ≤ recordedAt) :
    (t.close recordedAt id row.incidentId reason before after).Reproduced now := by
  obtain ⟨e, htables, rfl, rfl, htransition, hsample, rfl, rfl, rfl⟩ := endSession_eq t.tables
    recordedAt id row.incidentId reason reason.transition before after none none
  rw [Records.close, htables]
  have hself : (t.sessions.modify e.sessionId (·.ended e.endedReason none)).get e.sessionId =
      some (row.ended e.endedReason none) := by rw [Table.get_modify_self, hrow]; rfl
  refine h.rewrite hrow hself (fun i hi => Table.get_modify_ne _ _ hi) rfl (fun _ _ => rfl)
    (fun i hi => endingsOf_cons hi) .inl
    (fun e' he' => (List.mem_cons.1 he').symm.imp_right fun he' => by rw [he']) ?_
  simp only [tables, endingsOf_cons_self]
  refine (h.sound hrow).closed hstate hreason ?_ hdeadline
  rw [EndingRow.fits, decide_eq_true_eq]
  refine ⟨?_, EndingRow.moves_of_fired (htransition ▸ hfired), rfl⟩
  rw [EndingRow.fires, htransition]
  simp only [List.mem_cons, List.not_mem_nil, or_false] at hreason
  rcases hreason with hr | hr | hr <;> rw [hr] <;> rfl

/-- A session is authorized. -/
theorem Reproduced.authorize (h : t.Reproduced now) {id : UUID} {session : SessionRow}
    {profiles : Table String ProfileRow} (hfresh : t.sessions.get id = none)
    (hstanding : session.fold = {}) (hunended : session.endedReason = none)
    (hbudget : 0 < session.maxSamples)
    (hprofile : ∀ revision ∈ session.healthProfileRevision, (profiles.get revision).isSome)
    (hprofiles : ProfilesKept t.profiles profiles) :
    Reproduced { t with sessions := t.sessions.insert id session, profiles } now where
  sound {i row} hget := by
    rw [Table.get_insert] at hget
    split at hget
    · next hi =>
      subst hi
      obtain rfl := Option.some.inj hget
      have hsamples : t.samplesOf i = [] := by
        refine List.filter_eq_nil_iff.2 fun e he => ?_
        have hget := (h.sampled (Table.mem_rows_iff.1 he)).1
        simp only [decide_eq_true_eq]
        rintro rfl
        rw [hfresh] at hget
        cases hget
      have hendings : t.endingsOf i = [] := by
        refine List.filter_eq_nil_iff.2 fun e he => ?_
        have hget := h.ended e he
        simp only [decide_eq_true_eq]
        rintro rfl
        rw [hfresh] at hget
        cases hget
      have hsound : Sound (basis { t with sessions := t.sessions.insert i session, profiles } i
          session) session [] [] := Sound.fresh rfl hbudget hstanding hunended
      rw [← hsamples, ← hendings] at hsound
      exact hsound
    · have hold := h.sound hget
      have hbasis : basis { t with sessions := t.sessions.insert id session, profiles } i row =
          t.basis i row := by
        simp only [basis]
        cases hrevision : row.healthProfileRevision with
        | none => rfl
        | some revision =>
          obtain ⟨profile, hprofile⟩ :=
            Option.isSome_iff_exists.1 (h.profile hget revision hrevision)
          simp only [Option.bind_some, hprofile, hprofiles.kept _ _ hprofile]
      rw [hbasis]
      exact hold
  profile {i row} hget revision hrevision := by
    rw [Table.get_insert] at hget
    split at hget
    · obtain rfl := Option.some.inj hget
      exact hprofile revision hrevision
    · obtain ⟨profile, hprofile⟩ := Option.isSome_iff_exists.1 (h.profile hget revision hrevision)
      rw [hprofiles.kept _ _ hprofile]
      rfl
  sampled {k sample} hget := by
    rw [Table.get_insert]
    obtain ⟨hsession, hle⟩ := h.sampled hget
    refine ⟨?_, hle⟩
    split
    · rfl
    · exact hsession
  ended e he := by
    rw [Table.get_insert]
    split
    · rfl
    · exact h.ended e he

/-- A sample is submitted that a replay reproduces. -/
theorem Reproduced.submit {lease : SampleLease} {sample : HealthSample} {incident : IncidentRow}
    {row : SessionRow} {c : Conditions} {verdict : Verdict} (h : s.records.Reproduced clk.later)
    (hsub : Submitted s clk lease sample readings sampleId jobId incident row c verdict after s')
    {stored : SampleRow} (hstored : stored =
      sampleRow lease sample readings c (s.scopeOf incident) verdict clk.later)
    (hclean : stored.Clean (s.records.basis lease.sessionId row))
    (hlast : c.leaseValid = true → ∀ e ∈ s.records.samplesOf lease.sessionId,
      e.2.leaseValid = true → SubmittedBefore e (sampleId, stored)) :
    s'.records.Reproduced clk.later := by
  have hsound := h.sound hsub.foundSession
  have hsession : stored.sessionId = lease.sessionId := by rw [hstored]; rfl
  have hsubmitted : stored.submittedAt = clk.later := by rw [hstored]; rfl
  have hvalid : stored.leaseValid = c.leaseValid := by rw [hstored]; rfl
  have hdecision : stored.stored = verdict.replayed := by rw [hstored]; rfl
  have hsamples : ∀ i, ((s.samples.insert sampleId stored).select fun _ row => row.sessionId = i) =
      if i = lease.sessionId then (sampleId, stored) :: s.records.samplesOf i
      else s.records.samplesOf i := by
    intro i
    rw [Table.select_insert _ hsub.fresh, hsession]
    by_cases hi : i = lease.sessionId
    · rw [if_pos hi, if_pos (by simp [hi])]
      rfl
    · rw [if_neg hi, if_neg (by simpa using Ne.symm hi)]
      rfl
  have hsampled : ∀ {k x}, (s.samples.insert sampleId stored).get k = some x →
      s.samples.get k = some x ∨ x.sessionId = lease.sessionId ∧ x.submittedAt ≤ clk.later := by
    intro k x hget
    rw [Table.get_insert] at hget
    split at hget
    · obtain rfl := Option.some.inj hget
      exact .inr ⟨hsession, hsubmitted.le⟩
    · exact .inl hget
  have hv : (s.records.basis lease.sessionId row).verdict row.fold stored stored.storedOutcome =
      verdict := by
    rw [verdict_sampleRow hstored hsub.session hclean ?_, hsub.judged]
    · rfl
    · rw [hsub.conditions, hstored]
      exact decide_eq_true_eq
  have hrecords : s'.records = { s.records with
      sessions := (submitSessions s.sessionTables clk lease row c verdict after sampleId jobId).sessions
      samples := s.samples.insert sampleId stored
      endings := (submitSessions s.sessionTables clk lease row c verdict after sampleId
        jobId).endings } := by
    rw [hsub.written, hstored]
    rfl
  rw [hrecords]
  cases hlease : c.leaseValid with
  | false =>
    have hlate : stored.Late (s.records.basis lease.sessionId row) := by
      refine ⟨hvalid.trans hlease, hclean, ?_⟩
      rw [hdecision, hsub.judged, judge_leaseRevoked hlease]
      rfl
    have htables : submitSessions s.sessionTables clk lease row c verdict after sampleId jobId =
        s.sessionTables := by
      simp [submitSessions, hsub.judged, judge_leaseRevoked hlease, hlease, historyOnly]
    rw [htables]
    refine h.rewrite hsub.foundSession hsub.foundSession (fun _ _ => rfl) rfl
      (fun i hi => by rw [hsamples, if_neg hi]) (fun _ _ => rfl) hsampled (fun _ => .inl) ?_
    rw [hsamples, if_pos rfl]
    exact hsound.filed hlate
  | true =>
    have hstate : row.state = .authorized := by
      rcases hsound.current with ⟨hs, -⟩ | ⟨e, -, hc⟩
      · exact hs.state
      · rw [hsub.conditions] at hlease
        simp [submitConditions, sampleLeaseValid, hc.owner] at hlease
    have hlast := hlast hlease
    have hvalid := hvalid.trans hlease
    -- one row is rewritten, and the sample is the newest one of its session
    have hwrite : ∀ (f : SessionRow → SessionRow) {endings : List EndingRow},
        (f row).terms = row.terms →
        (∀ i, i ≠ lease.sessionId → endings.filter (·.sessionId = i) = s.records.endingsOf i) →
        (∀ e ∈ endings, e ∈ s.endings ∨ e.sessionId = lease.sessionId) →
        Sound (s.records.basis lease.sessionId row) (f row)
          ((sampleId, stored) :: s.records.samplesOf lease.sessionId)
          (endings.filter (·.sessionId = lease.sessionId)) →
        Reproduced { s.records with
          sessions := s.sessions.modify lease.sessionId f
          samples := s.samples.insert sampleId stored, endings } clk.later := by
      intro f endings hterms hendings hended hsound
      refine h.rewrite hsub.foundSession ?_ (fun i hi => Table.get_modify_ne _ _ hi) hterms
        (fun i hi => by rw [hsamples, if_neg hi]) hendings hsampled hended ?_
      · rw [Table.get_modify_self, hsub.foundSession]
        rfl
      · rw [hsamples, if_pos rfl]
        exact hsound
    cases hend : verdict.endedReason with
    | some reason =>
      obtain ⟨watermark, hwatermark⟩ : ∃ w : Watermark, ⟨verdict.fold.adoptedSequence,
          verdict.fold.adoptedWindowEnd, verdict.fold.adoptedCount, verdict.fold.healthySince⟩ =
          w := ⟨_, rfl⟩
      obtain ⟨e, htables, hid, rfl, htransition, hsample, hbefore, rfl, -⟩ :=
        endSession_eq s.sessionTables clk.later lease.sessionId lease.incidentId reason
          verdict.transition c.subjectState after
          (if verdict.decision.accepted then some sampleId else none) (some watermark)
      have hwritten : submitSessions s.sessionTables clk lease row c verdict e.lifecycleAfter
          sampleId jobId = ⟨s.sessions.modify lease.sessionId
            (·.ended e.endedReason (some watermark)), e :: s.endings⟩ := by
        simp only [submitSessions, hend, hwatermark]
        exact htables
      rw [hwritten]
      refine hwrite (·.ended e.endedReason (some watermark)) rfl
        (fun i hi => endingsOf_cons (hid ▸ hi))
        (fun e' he' => (List.mem_cons.1 he').symm.imp_right fun he' => by rw [he', hid]) ?_
      rw [← hid] at hsound hv hclean ⊢
      rw [endingsOf_cons_self]
      have hbefore' : e.lifecycleBefore = stored.subjectLifecycle := by rw [hbefore, hstored]; rfl
      have hfired : fireTransition e.lifecycleBefore e.transition = .ok e.lifecycleAfter := by
        rw [hbefore, htransition, hsub.conditions]
        exact hsub.fired
      exact hsound.judgedLast hstate hvalid hclean hv hdecision (hid ▸ hlast) hend htransition
        hsample hbefore' hfired _
    | none =>
      have hopen : verdict.fold.state = row.state ∧
          (verdict.decision.accepted = false → verdict.fold = row.fold) := by
        rw [hsub.judged] at hend ⊢
        exact judge_open hend
      cases haccepted : verdict.decision.accepted with
      | true =>
        have hwritten : submitSessions s.sessionTables clk lease row c verdict after sampleId jobId =
            { s.sessionTables with
              sessions := s.sessions.modify lease.sessionId (SessionRow.advanced · verdict.fold
                (clk.now + seconds row.sampleIntervalSeconds) jobId) } := by
          simp only [submitSessions, hend, haccepted, if_true]
          rfl
        rw [hwritten]
        refine hwrite (SessionRow.advanced · verdict.fold
          (clk.now + seconds row.sampleIntervalSeconds) jobId) rfl (fun _ _ => rfl) (fun _ => .inl) ?_
        refine hsound.judged hstate hvalid hclean hv hdecision hlast hend rfl ?_ rfl
        rw [SessionRow.fold, SessionRow.advanced, ← hopen.1]
      | false =>
        have hwritten : submitSessions s.sessionTables clk lease row c verdict after sampleId jobId =
            { s.sessionTables with
              sessions := s.sessions.modify lease.sessionId (SessionRow.postponed ·
                (clk.now + seconds row.sampleIntervalSeconds)) } := by
          simp only [submitSessions, hend, haccepted, hlease, if_true, Bool.false_eq_true, if_false]
          rfl
        rw [hwritten]
        refine hwrite (SessionRow.postponed · (clk.now + seconds row.sampleIntervalSeconds)) rfl
          (fun _ _ => rfl) (fun _ => .inl) ?_
        exact hsound.judged hstate hvalid hclean hv hdecision hlast hend rfl
          (hopen.2 haccepted).symm rfl

/-- **A write to the tables of observation keeps the sessions sound**, a submission if its row is
clean and comes last. -/
theorem Reproduced.step {op : Op} {t' : Records} (h : t.Reproduced clk.later)
    (hstep : SessionStep op clk s t t')
    (hsubmit : ∀ {lease sample readings sampleId jobId incident row c verdict after s'},
      op = .submitSample lease sample readings sampleId jobId →
      Submitted s clk lease sample readings sampleId jobId incident row c verdict after s' →
      ∃ stored, stored = sampleRow lease sample readings c (s.scopeOf incident) verdict clk.later ∧
        stored.Clean (s.records.basis lease.sessionId row) ∧
        (c.leaseValid = true → ∀ e ∈ s.records.samplesOf lease.sessionId,
          e.2.leaseValid = true → SubmittedBefore e (sampleId, stored))) :
    t'.Reproduced clk.later := by
  cases hstep with
  | closed hrow hstate hreason hfired hdeadline =>
    exact h.close hrow hstate hreason hfired hdeadline
  | authorized _ hfresh halone hstanding hunended howner hbudget hprofile hprofiles =>
    exact h.authorize hfresh hstanding hunended hbudget hprofile hprofiles
  | @leased id owner leaseSeconds row hop hrow hstate =>
    refine h.rewrite hrow (by rw [Table.get_modify_self, hrow]; rfl)
      (fun i hi => Table.get_modify_ne _ _ hi) ?_ (fun _ _ => rfl) (fun _ _ => rfl) .inl
      (fun _ => .inl) ((h.sound hrow).rewrite hstate ?_ ?_ ?_) <;> rfl
  | submitted hop hsub =>
    obtain ⟨stored, hstored, hclean, hlast⟩ := hsubmit hop hsub
    exact h.submit hsub hstored hclean hlast

end Records

/-- The submission stays clear of what a replay decides otherwise: a window that ends at or after
the deadline, submitted before it; readings that do not support a sample refused for its lease or
its stamps; and a submission at the very time of an earlier one that sorts after it. -/
def Store.Reproducible [Texts] (s : Store) (clk : Clock) (lease : SampleLease)
    (sample : HealthSample) (readings : List SignalReading) (sampleId : UUID) (row : SessionRow) :
    Prop :=
  ¬ (clk.now < row.deadlineAt ∧ row.deadlineAt ≤ sample.window.end) ∧
  (sampleLeaseValid row lease clk.now = false ∨
    sampleStampsMatch row lease sample clk.now = false →
      s.sampleMismatches row sample readings = []) ∧
  (sampleLeaseValid row lease clk.now = true → ∀ e ∈ s.samplesOf lease.sessionId,
    e.2.leaseValid = true → e.2.submittedAt = clk.later → e.1 ≤ sampleId)

instance [Texts] (s : Store) (clk : Clock) (lease : SampleLease) (sample : HealthSample)
    (readings : List SignalReading) (sampleId : UUID) (row : SessionRow) :
    Decidable (s.Reproducible clk lease sample readings sampleId row) := by
  unfold Store.Reproducible
  infer_instance

namespace State

variable [Texts] {σ σ' τ : State} {call : Call}

/-- Every sample the call submits is reproducible. -/
def Replayable (σ : State) (call : Call) : Prop :=
  match call.op with
  | .submitSample lease sample readings sampleId _ =>
    ∀ row ∈ σ.store.sessions.get lease.sessionId,
      σ.store.Reproducible call.clock lease sample readings sampleId row
  | _ => True

instance (σ : State) (call : Call) : Decidable (σ.Replayable call) := by
  obtain ⟨op, clk⟩ := call
  cases op <;> unfold Replayable <;> infer_instance

theorem reachable_alternating (h : system.Reachable σ) : Control.Alternating σ.store.view := by
  refine store_invariant (P := fun s => Control.Alternating s.view) ⟨rfl, fun t g hg => ?_⟩
    (fun op clk s s' issued ha hok => ?_) h
  · cases hg
  · obtain ⟨e, -, F, hprepare, hmove⟩ := exec_move hok
    exact hmove.alternating (hprepare.alternating ha)

omit [Texts] in
/-- A scope is suspended exactly if one of its generations is odd. -/
theorem suspended_scopeOf (h : Control.Alternating s.view) (incident : IncidentRow) :
    (s.scopeOf incident).suspended = false ↔
      (s.scopeOf incident).global.generation % 2 = 0 ∧
        (s.scopeOf incident).target.generation % 2 = 0 := by
  have htarget : (s.scopeOf incident).target.Alternates := by
    cases hbound : incident.targetId with
    | none =>
      simp only [Store.scopeOf, hbound]
      rfl
    | some t =>
      simp only [Store.scopeOf, hbound, Option.bind_some]
      exact h.target t
  have hglobal : (s.scopeOf incident).global.Alternates := h.global
  unfold Gate.Alternates at hglobal htarget
  rw [Scope.suspended, hglobal, htarget]
  simp only [Bool.or_eq_false_iff, decide_eq_false_iff_not]
  omega

/-- Every sampling lease on record is one of a session authorized under open gates. -/
def SampleLeasesOpen (σ : State) : Prop :=
  ∀ lease ∈ σ.sampleLeases, ∃ row, σ.store.sessions.get lease.sessionId = some row ∧
    row.authorizedGlobalGeneration % 2 = 0 ∧ row.authorizedTargetGeneration % 2 = 0

/-- Only a claim hands out a lease on a sampling job. -/
theorem claim_of_sampleLease {op : Op} {issued : Issued} {lease : SampleLease}
    (h : op.exec clk s = .ok (issued, s')) (hlease : lease ∈ issued.sampleLease) :
    ∃ sessionId owner leaseSeconds,
      SampleClaimed s clk sessionId owner leaseSeconds (some lease) s' := by
  cases op with
  | claimDueSample sessionId owner leaseSeconds =>
    obtain ⟨a, rfl, ha⟩ := sampleClaimed_eq_ok.1 h
    rw [Option.mem_def] at hlease
    exact ⟨sessionId, owner, leaseSeconds, hlease ▸ claimDueSample_ok ha⟩
  | sweepExpiredRun | abandon => cases h; cases hlease
  | claim =>
    obtain ⟨a, rfl, -⟩ := claimed_eq_ok.1 h
    cases hlease
  | _ =>
    obtain ⟨rfl, -⟩ := committed_eq_ok.1 h
    cases hlease

theorem reachable_sampleLeasesOpen (h : system.Reachable σ) : σ.SampleLeasesOpen := by
  refine h.invariant_of (P := SampleLeasesOpen) (fun _ => reachable_alternating)
    (fun σ hinit lease hlease => ?_) fun {σ call σ'} hstep halternating hopen lease hlease => ?_
  · rw [hinit.2.2] at hlease
    cases hlease
  rcases step_cases hstep with ⟨issued, store, hok, rfl⟩ | ⟨-, rfl⟩
  · have hfound : ∃ row, σ.store.sessions.get lease.sessionId = some row ∧
        row.authorizedGlobalGeneration % 2 = 0 ∧ row.authorizedTargetGeneration % 2 = 0 := by
      rcases List.mem_append.1 hlease with hnew | hold
      · obtain ⟨sessionId, owner, leaseSeconds, hclaimed⟩ :=
          claim_of_sampleLease hok (Option.mem_toList.1 hnew)
        cases hclaimed with
        | @leased row incident jobId sequence hrow hstate hinc hscope =>
          simp only [scopeBlocks, ne_eq, decide_eq_false_iff_not, not_or, Bool.not_eq_true,
            not_not] at hscope
          obtain ⟨hopen, hglobal, htarget⟩ := hscope
          refine ⟨row, hrow, ?_⟩
          rw [← hglobal, ← htarget]
          exact (suspended_scopeOf halternating incident).1 hopen
      · exact hopen lease hold
    obtain ⟨row, hrow, hglobal, htarget⟩ := hfound
    obtain ⟨row', hrow', hsame⟩ := (exec_sessions hok).kept.kept hrow
    have hterms := hsame.terms
    simp only [SessionRow.terms, Terms.mk.injEq] at hterms
    exact ⟨row', hrow', by simp [hterms, hglobal], by simp [hterms, htarget]⟩
  · exact hopen lease hlease

/-- A submission under the step condition writes a clean row. -/
theorem clean_of_replayable {lease : SampleLease} {sample : HealthSample} {incident : IncidentRow}
    {row : SessionRow} {c : Conditions} {verdict : Verdict}
    (halternating : Control.Alternating s.view)
    (hopen : row.authorizedGlobalGeneration % 2 = 0 ∧ row.authorizedTargetGeneration % 2 = 0)
    (hreadings : ∀ reading ∈ readings, reading.consistent = true)
    (hsub : Submitted s clk lease sample readings sampleId jobId incident row c verdict after s')
    (h : s.Reproducible clk lease sample readings sampleId row) :
    (sampleRow lease sample readings c (s.scopeOf incident) verdict clk.later).Clean
      (s.records.basis lease.sessionId row) := by
  obtain ⟨hdeadline, hsupported, -⟩ := h
  have hc := hsub.conditions
  refine ⟨?_, ?_, ?_, ?_⟩
  · rw [SampleRow.deadlineMismatch, decide_eq_false_iff_not]
    rintro ⟨hwithin, hend⟩
    refine hdeadline ⟨?_, hend⟩
    simpa [hc, submitConditions, sampleRow] using hwithin
  · -- a suspended scope has moved: its generation is odd, the authorized one is even
    have hblocks : (s.scopeOf incident).suspended = true →
        ((s.scopeOf incident).global.generation, (s.scopeOf incident).target.generation) ≠
          (row.authorizedGlobalGeneration, row.authorizedTargetGeneration) := by
      intro hsuspended heq
      rw [Prod.mk.injEq] at heq
      rw [← heq.1, ← heq.2, ← suspended_scopeOf halternating, hsuspended] at hopen
      cases hopen
    simp only [SampleRow.moved, sampleRow, hc, submitConditions, scopeBlocks,
      Records.basis, SessionRow.terms, decide_eq_decide]
    refine ⟨fun hmoved => ?_, ?_⟩
    · rw [ne_eq, Prod.mk.injEq, not_and_or] at hmoved
      exact .inr hmoved
    · rintro (hsuspended | hmoved)
      · exact hblocks hsuspended
      · rwa [ne_eq, Prod.mk.injEq, not_and_or]
  · rw [SampleRow.rawMismatches, List.map_eq_nil_iff, List.filter_eq_nil_iff]
    intro reading hmem hany
    have hconsistent := hreadings reading hmem
    rw [SignalReading.consistent, decide_eq_true_eq] at hconsistent
    obtain ⟨raw, hraw, hne⟩ := (Option.any_eq_true _ _).1 hany
    have hhash := hconsistent.2.2
    rw [hraw, Option.all_some, decide_eq_true_eq] at hhash
    exact absurd hhash.2 (by simpa using hne)
  · cases hlease : sampleLeaseValid row lease clk.now with
    | false => exact .inl (hsupported (.inl hlease))
    | true =>
      cases hstamps : sampleStampsMatch row lease sample clk.now with
      | false => exact .inl (hsupported (.inr hstamps))
      | true =>
        by_cases hmissing : s.sampleMismatches row sample readings = []
        · exact .inl hmissing
        · refine .inr ?_
          have hdecision : verdict.decision = historyOnly .readingsInconsistent := by
            rw [hsub.judged, judge_decision, sampleDecision, hc]
            simp [submitConditions, hlease, hstamps, hmissing]
          simp only [sampleRow, hdecision, historyOnly]

/-- A sample submitted at or after every earlier one comes last. -/
theorem submittedBefore_of_replayable {lease : SampleLease} {sample : HealthSample}
    {row : SessionRow} {stored : SampleRow} {now : Time} (hle : now ≤ clk.later)
    (hreproduced : s.records.Reproduced now) (hsubmitted : stored.submittedAt = clk.later)
    (h : s.Reproducible clk lease sample readings sampleId row)
    (hlease : sampleLeaseValid row lease clk.now = true) :
    ∀ e ∈ s.records.samplesOf lease.sessionId, e.2.leaseValid = true →
      SubmittedBefore e (sampleId, stored) := by
  intro e he hvalid
  have hpast : e.2.submittedAt ≤ clk.later :=
    (hreproduced.sampled (Table.mem_select_iff.1 he).1).2.trans hle
  rw [SubmittedBefore, submission, submission, Prod.Lex.toLex_le_toLex, hsubmitted]
  refine hpast.lt_or_eq.imp_right fun heq => ⟨heq, ?_⟩
  exact h.2.2 hlease e he hvalid heq

theorem reproduced_step (hreachable : system.Reachable σ)
    (hstep : (system.restrict Replayable).Step σ call σ')
    (h : σ.store.records.Reproduced σ.now) : σ'.store.records.Reproduced σ'.now := by
  obtain ⟨hstep, hreplayable⟩ := hstep
  rw [step_now hstep]
  have hle : σ.now ≤ call.clock.later := hstep.1.trans call.clock.now_le_later
  rcases step_cases hstep with ⟨issued, store, hok, rfl⟩ | ⟨-, rfl⟩
  · refine (exec_sessions hok).head_induction_on
      (motive := fun t _ => t.Reproduced call.clock.later → store.records.Reproduced call.clock.later)
      id (fun hwrite _ ih ht => ih (ht.step hwrite ?_)) (h.mono hle)
    intro lease sample readings sampleId jobId incident row c verdict after s' hop hsub
    refine ⟨_, rfl, ?_, fun hlease => ?_⟩
    all_goals
      have hadmits := hstep.2.1
      unfold Replayable at hreplayable
      rw [hop] at hadmits hreplayable
      have hreproducible := hreplayable row hsub.foundSession
    · obtain ⟨row', hrow', hopen⟩ := reachable_sampleLeasesOpen hreachable lease hadmits.1
      obtain rfl := Option.some.inj (hsub.foundSession.symm.trans hrow')
      exact clean_of_replayable (reachable_alternating hreachable) hopen hadmits.2 hsub
        hreproducible
    · rw [hsub.conditions] at hlease
      exact submittedBefore_of_replayable hle h rfl hreproducible hlease
  · exact h.mono hle

/-- **Replaying a session reproduces it.** After every run whose submissions stay clear of what a
replay decides otherwise, the report on every session is consistent. -/
theorem observation_replay {calls : List Call} (hinit : system.Init σ)
    (hrun : (system.restrict Replayable).Run σ calls τ) {sessionId : UUID} {history : History}
    (hhistory : τ.store.sessionHistory sessionId = .ok history) :
    (foldHistory history).consistent = true := by
  have hreproduced : system.Reachable τ ∧ τ.store.records.Reproduced τ.now := by
    refine hrun.stable (P := fun τ => system.Reachable τ ∧ τ.store.records.Reproduced τ.now)
      (fun hstep h => ⟨h.1.step hstep.1, reproduced_step h.1 hstep h.2⟩) ⟨.init hinit, ?_⟩
    rw [hinit.1]
    exact Records.Reproduced.empty _
  simp only [sessionHistory, require_bind_eq_ok, pure_eq_ok] at hhistory
  obtain ⟨row, hrow, incident, -, hhistory⟩ := hhistory
  have hstored := hreproduced.2.sound hrow
  have hendings : history.endings = τ.store.records.endingsOf sessionId := by
    rw [← hhistory]
    change (τ.store.records.endingsOf sessionId).reverse.insertionSort _ = _
    rcases hstored.current with ⟨-, hnone⟩ | ⟨e, hone, -⟩
    · rw [hnone]
      rfl
    · rw [hone]
      rfl
  have hsound : Sound history.basis history.session (τ.store.samplesOf sessionId)
      history.endings := by
    rw [hendings, ← hhistory]
    exact hstored
  have hkeys : ((τ.store.samplesOf sessionId).map Prod.fst).Nodup :=
    (Table.keys_nodup _).sublist (List.filter_sublist.map Prod.fst)
  exact hsound.consistent hkeys (by rw [← hhistory])

end State

namespace Scenario

/-- The recovery observed in `recoveryCalls` is reproduced. -/
theorem observation_replay_recovery :
    ((State.reached recoveryCalls).store.sessionHistory 10).toOption.map
      (fun history => (foldHistory history).consistent) = some true := by
  have hfeasible : State.Feasible { now := 0 } recoveryCalls := by decide +kernel
  have hreplayable : State.Throughout State.Replayable { now := 0 } recoveryCalls := by
    decide +kernel
  cases hhistory : (State.reached recoveryCalls).store.sessionHistory 10 with
  | error code =>
    have hfound : ((State.reached recoveryCalls).store.sessionHistory 10).toBool = true := by
      decide +kernel
    rw [hhistory] at hfound
    cases hfound
  | ok history =>
    have hconsistent := State.observation_replay ⟨rfl, rfl, rfl⟩
      (State.run_restrict hfeasible hreplayable) hhistory
    simp only [Except.toOption, Option.map_some, hconsistent]

/-- The same recovery, with one sample ten seconds before the deadline whose window ends ten
seconds after it: within the allowed skew. -/
def skewedCalls : List Call :=
  recoveryCalls.take 3 ++
    [(Op.claimDueSample 10 20 30).at (seconds 1790),
      (Op.submitSample (sampleLease 11 1 (seconds 1820))
        (sample 1 ⟨seconds 1750, seconds 1810, by decide⟩)
        [reading (seconds 1750) (seconds 1810)] 12 13).at (seconds 1790)]

/-- The sample is adopted, and the replay decides it was too late. -/
theorem observation_replay_skewed :
    system.Reachable (State.reached skewedCalls) ∧
      ((State.reached skewedCalls).store.samples.get 12).map (·.accepted) = some true ∧
      ((State.reached skewedCalls).store.sessionHistory 10).toOption.map
        (fun history => (foldHistory history).consistent) = some false :=
  ⟨State.reachable_reached (by decide +kernel), by decide +kernel, by decide +kernel⟩

end Scenario

end OpsPilot
