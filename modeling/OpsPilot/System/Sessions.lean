import OpsPilot.Observation.Replay
import OpsPilot.System.Frames
import Mathlib.Logic.Relation

/-!
# Sessions under the operations

An operation may write the tables of observation several times: a registered remediation ends the
sessions of its incident and authorizes another one.

* `SessionStep`: one such write. A session ends without a sample, is authorized, has its job
  leased, or takes a sample.
* **`exec_sessions`**: an operation makes a sequence of them.
-/

namespace OpsPilot

/-- The tables of observation. -/
structure Records where
  sessions : Table UUID SessionRow
  samples : Table UUID SampleRow
  endings : List EndingRow
  profiles : Table String ProfileRow

/-- The tables of observation of a store. -/
def Store.records (s : Store) : Records where
  sessions := s.sessions
  samples := s.samples
  endings := s.endings
  profiles := s.profiles

namespace Records

/-- The session tables. -/
def tables (t : Records) : SessionTables := ⟨t.sessions, t.endings⟩

/-- The session tables replaced. -/
def withTables (t : Records) (tables : SessionTables) : Records :=
  { t with sessions := tables.sessions, endings := tables.endings }

/-- A session ends without a sample. -/
def close (t : Records) (recordedAt : Time) (id incidentId : UUID) (reason : EndedReason)
    (before after : IncidentLifecycle) : Records :=
  t.withTables (endSession t.tables recordedAt id incidentId reason reason.transition before after)

/-- The samples of a session, newest first. -/
def samplesOf (t : Records) (id : UUID) : List (UUID × SampleRow) :=
  t.samples.select fun _ row => row.sessionId = id

/-- The endings of a session, newest first. -/
def endingsOf (t : Records) (id : UUID) : List EndingRow :=
  t.endings.filter (·.sessionId = id)

end Records

open Store

/-- The operations that authorize sessions. -/
def Op.authorizes : Op → Bool
  | .authorizeSession _ | .registerRemediation _ | .authorizeAutomaticObservation .. => true
  | _ => false

/-- One write of an operation to the tables of observation; `s` is the store it runs on. -/
inductive SessionStep [Texts] (op : Op) (clk : Clock) (s : Store) : Records → Records → Prop
  /-- An authorized session ends without a sample. -/
  | closed {t : Records} {id : UUID} {row : SessionRow} {reason : EndedReason}
      {before after : IncidentLifecycle} (hrow : t.sessions.get id = some row)
      (hstate : row.state = .authorized)
      (hreason : reason ∈ [EndedReason.authorityRevoked, .scopeSuspended, .deadlineExpired])
      (hfired : fireTransition before reason.transition = .ok after)
      (hdeadline : reason = .deadlineExpired → row.deadlineAt ≤ clk.later) :
      SessionStep op clk s t (t.close clk.later id row.incidentId reason before after)
  /-- A session is authorized, the only one of its incident. -/
  | authorized {t : Records} {id : UUID} {session : SessionRow}
      {profiles : Table String ProfileRow} (hop : op.authorizes = true)
      (hfresh : t.sessions.get id = none)
      (halone : authorizedSessions t.sessions session.incidentId = [])
      (hstanding : session.fold = {}) (hunended : session.endedReason = none)
      (howner : session.activeSampleOwner = none) (hbudget : 0 < session.maxSamples)
      (hprofile : ∀ revision ∈ session.healthProfileRevision, (profiles.get revision).isSome)
      (hprofiles : ProfilesKept t.profiles profiles) :
      SessionStep op clk s t { t with sessions := t.sessions.insert id session, profiles }
  /-- The sampling job of an authorized session is leased. -/
  | leased {id owner : UUID} {leaseSeconds : ℕ} {row : SessionRow}
      (hop : op = .claimDueSample id owner leaseSeconds) (hrow : s.sessions.get id = some row)
      (hstate : row.state = .authorized) :
      SessionStep op clk s s.records
        { s.records with
          sessions := s.sessions.modify id fun row => { row with
            activeSampleOwner := some owner
            activeSampleEpoch := row.activeSampleEpoch + 1
            activeSampleLeaseUntil := some (clk.now + seconds leaseSeconds) } }
  /-- A sample is submitted. -/
  | submitted {lease : SampleLease} {sample : HealthSample} {readings : List SignalReading}
      {sampleId jobId : UUID} {incident : IncidentRow} {row : SessionRow} {c : Conditions}
      {verdict : Verdict} {after : IncidentLifecycle} {s' : Store}
      (hop : op = .submitSample lease sample readings sampleId jobId)
      (h : Submitted s clk lease sample readings sampleId jobId incident row c verdict after s') :
      SessionStep op clk s s.records s'.records

/-- The session has the ground it was authorized on: its incident and target, the generations it
was authorized at, and its terms. -/
structure SessionRow.SameGround (r r' : SessionRow) : Prop where
  incident : r'.incidentId = r.incidentId
  target : r'.targetId = r.targetId
  control : r'.subjectControlGeneration = r.subjectControlGeneration
  observation : r'.observationGeneration = r.observationGeneration
  terms : r'.terms = r.terms

/-- Every session keeps its ground. -/
def SessionsKept (old new : Table UUID SessionRow) : Prop :=
  Table.Frame SessionRow.SameGround (fun _ => True) old new

namespace SessionsKept

variable {old middle new : Table UUID SessionRow}

theorem sameGround_refl (r : SessionRow) : r.SameGround r := ⟨rfl, rfl, rfl, rfl, rfl⟩

theorem refl (t : Table UUID SessionRow) : SessionsKept t t := Table.Frame.refl sameGround_refl t

theorem trans (h : SessionsKept old middle) (h' : SessionsKept middle new) :
    SessionsKept old new :=
  Table.Frame.trans (fun h h' => ⟨h'.incident.trans h.incident, h'.target.trans h.target,
    h'.control.trans h.control, h'.observation.trans h.observation, h'.terms.trans h.terms⟩)
    (fun _ _ => trivial) h h'

theorem modify {t : Table UUID SessionRow} {id : UUID} {f : SessionRow → SessionRow}
    (h : ∀ r : SessionRow, r.SameGround (f r)) : SessionsKept t (t.modify id f) :=
  Table.Frame.of_modify sameGround_refl h t id

end SessionsKept

theorem Store.submitSessions_kept (tables : SessionTables) (clk : Clock) (lease : SampleLease)
    (row : SessionRow) (c : Conditions) (verdict : Verdict) (after : IncidentLifecycle)
    (sampleId jobId : UUID) :
    SessionsKept tables.sessions
      (submitSessions tables clk lease row c verdict after sampleId jobId).sessions := by
  unfold submitSessions
  dsimp only
  split
  · dsimp only [endSession]
    refine .modify fun r => ?_
    exact ⟨rfl, rfl, rfl, rfl, rfl⟩
  · split_ifs
    · dsimp only
      refine .modify fun r => ?_
      exact ⟨rfl, rfl, rfl, rfl, rfl⟩
    · dsimp only
      refine .modify fun r => ?_
      exact ⟨rfl, rfl, rfl, rfl, rfl⟩
    · exact .refl _

theorem SessionStep.kept [Texts] {op : Op} {clk : Clock} {s : Store} {t t' : Records}
    (h : SessionStep op clk s t t') : SessionsKept t.sessions t'.sessions := by
  cases h with
  | closed | leased =>
    dsimp only [Records.close, Records.withTables, Records.tables, records, endSession]
    refine .modify fun r => ?_
    exact ⟨rfl, rfl, rfl, rfl, rfl⟩
  | authorized _ hfresh =>
    exact Table.Frame.of_insert SessionsKept.sameGround_refl hfresh trivial
  | submitted hop hsub =>
    rw [hsub.written]
    exact submitSessions_kept s.sessionTables ..

/-- The writes of one operation. -/
abbrev SessionSteps [Texts] (op : Op) (clk : Clock) (s : Store) : Records → Records → Prop :=
  Relation.ReflTransGen (SessionStep op clk s)

section

variable {op : Op} {clk : Clock} {s s' t : Store}

theorem mem_authorizedSessions {sessions : Table UUID SessionRow} {incidentId id : UUID} :
    id ∈ authorizedSessions sessions incidentId ↔
      ∃ row, sessions.get id = some row ∧ row.incidentId = incidentId ∧
        row.state = .authorized := by
  simp only [authorizedSessions, List.mem_map, Prod.exists, Table.mem_select_iff,
    decide_eq_true_eq, exists_and_right, exists_eq_right]

theorem authorizedSessions_nodup (sessions : Table UUID SessionRow) (incidentId : UUID) :
    (authorizedSessions sessions incidentId).Nodup :=
  (Table.keys_nodup sessions).sublist (List.filter_sublist.map Prod.fst)

variable [Texts]

/-- Authorized sessions of an incident are ended one after another. -/
theorem SessionSteps.revoke {t : Records} {incidentId : UUID} {lifecycle : IncidentLifecycle}
    {ids : List UUID} (hnodup : ids.Nodup)
    (hids : ∀ id ∈ ids, id ∈ authorizedSessions t.sessions incidentId) :
    SessionSteps op clk s t
      (t.withTables (OpsPilot.revokeSessions t.tables clk.later incidentId lifecycle ids)) := by
  induction ids generalizing t with
  | nil => exact .refl
  | cons id ids ih =>
    rw [List.nodup_cons] at hnodup
    obtain ⟨row, hrow, rfl, hstate⟩ := mem_authorizedSessions.1 (hids id List.mem_cons_self)
    have hfirst : SessionStep op clk s t
        (t.close clk.later id row.incidentId .authorityRevoked lifecycle lifecycle) :=
      .closed hrow hstate (by decide) rfl nofun
    refine (Relation.ReflTransGen.single hfirst).trans ?_
    refine ih hnodup.2 fun id' hid' => ?_
    obtain ⟨row', hrow', hincident, hstate'⟩ :=
      mem_authorizedSessions.1 (hids id' (List.mem_cons_of_mem _ hid'))
    refine mem_authorizedSessions.2 ⟨row', ?_, hincident, hstate'⟩
    have hne : id' ≠ id := by
      rintro rfl
      exact hnodup.1 hid'
    exact (Table.get_modify_ne _ _ hne).trans hrow'

/-- The sessions of an incident are withdrawn in a decision. -/
theorem revokeObservation_sessions (incidentId : UUID) (lifecycle : IncidentLifecycle) :
    SessionSteps op clk s t.records (t.revokeObservation clk incidentId lifecycle).records :=
  SessionSteps.revoke (t := t.records) (authorizedSessions_nodup _ _) fun _ => id

theorem Store.Decided.sessions {r : ControlRequest} {incident : IncidentRow}
    (h : Decided s clk r incident s') : SessionSteps op clk s s.records s'.records := by
  cases h with
  | close | takeover => exact revokeObservation_sessions (t := s) ..
  | reopen => exact .refl
  | @rebind t targetId payload haction hlife hreg =>
    have hsame : s.records = t.records := by
      rcases hreg with rfl | ⟨-, toUid, rfl⟩ <;> rfl
    rw [hsame]
    exact revokeObservation_sessions (t := t) ..
  | merge haction hsurvivor hne ht hinput =>
    subst ht
    rcases hinput with rfl | ⟨-, rfl⟩ <;> exact revokeObservation_sessions (t := s) ..
  | renew => exact revokeObservation_sessions (t := s) ..
  | @direct suspended =>
    have hrecords : (s.direct clk r incident suspended).records =
        (if r.action ∈ [ControlAction.pause, .cancel]
          then s.revokeObservation clk r.incidentId incident.lifecycle else s).records := rfl
    have hdirect : SessionSteps op clk s s.records
        (s.direct clk r incident suspended).records := by
      rw [hrecords]
      split
      · exact revokeObservation_sessions (t := s) ..
      · exact .refl
    split <;> exact hdirect

theorem Store.Authorized.sessions {a : Authorization} {incident : IncidentRow}
    {lifecycle : IncidentLifecycle} {session : SessionRow}
    (h : Authorized t clk a incident lifecycle session s') (hop : op.authorizes = true) :
    SessionStep op clk s t.records s'.records := by
  have hs : s'.records = { t.records with
      sessions := t.sessions.insert a.sessionId session, profiles := s'.profiles } := by
    rw [h.written]
    rfl
  rw [hs]
  exact .authorized hop h.fresh (h.incidentId ▸ h.alone) h.standing h.unended h.owner h.budget
    h.profile h.profiles

/-- Every operation but those on sessions and decisions leaves the tables of observation alone. -/
def Op.observes : Op → Bool
  | .newRun _ | .control _ | .authorizeSession _ | .registerRemediation _
  | .authorizeAutomaticObservation .. | .revokeSessions _ | .claimDueSample ..
  | .submitSample .. | .sweepExpiredSession _ => true
  | _ => false

theorem exec_records {issued : Issued} (h : op.exec clk s = .ok (issued, s'))
    (hop : op.observes = false) : s'.records = s.records := by
  by_cases hplain : op.plain = true
  · obtain ⟨-, -, hsessions, hsamples, hendings, hprofiles, -⟩ := exec_beside h hplain
    rw [records, records, hsessions, hsamples, hendings, hprofiles]
  cases op with
  | registerTarget resourceUid targetId fresh =>
    obtain ⟨-, a, ha⟩ := committed_eq_ok.1 h
    rcases registerTarget_ok ha with rfl | ⟨-, rfl⟩ <;> rfl
  | setTargetSuspension target fresh suspended expected actor =>
    obtain ⟨-, a, ha⟩ := committed_eq_ok.1 h
    obtain ⟨t, targetId, gate, ht, -, hwrite⟩ := setTargetSuspension_ok ha
    have hgate : (t.ensureGate targetId).records = s.records := by
      rw [ht.eq]
      unfold ensureGate
      split <;> rfl
    rw [← hgate]
    rcases hwrite with ⟨-, rfl⟩ | ⟨-, -, rfl⟩
    · rfl
    · cases suspended <;> rfl
  | recordAutoObservationFailure incidentId controlGeneration reason =>
    obtain ⟨-, a, ha⟩ := committed_eq_ok.1 h
    obtain ⟨selfHeal, rfl⟩ := recordAutoObservationFailure_ok ha
    rfl
  | newRun | control | authorizeSession | registerRemediation | authorizeAutomaticObservation
  | revokeSessions | claimDueSample | submitSample | sweepExpiredSession => cases hop
  | _ => exact absurd rfl hplain

/-- A sequence of writes keeps the ground of every session. -/
theorem SessionSteps.kept {t t' : Records} (h : SessionSteps op clk s t t') :
    SessionsKept t.sessions t'.sessions := by
  induction h with
  | refl => exact .refl _
  | tail _ hstep ih => exact ih.trans hstep.kept

/-- **What an operation writes to the tables of observation.** -/
theorem exec_sessions {issued : Issued} (h : op.exec clk s = .ok (issued, s')) :
    SessionSteps op clk s s.records s'.records := by
  by_cases hop : op.observes = false
  · rw [exec_records h hop]
  cases op with
  | newRun n =>
    obtain ⟨-, a, ha⟩ := committed_eq_ok.1 h
    rcases newRun_ok ha with ⟨rfl, -⟩ | ⟨incident, suspended, -, -, -, -, -, -, -, rfl⟩
    · exact .refl
    · exact revokeObservation_sessions (t := s) ..
  | control r =>
    obtain ⟨-, a, ha⟩ := committed_eq_ok.1 h
    obtain ⟨incident, -, -, -, hdecided⟩ := control_ok ha
    exact hdecided.sessions
  | authorizeSession a =>
    obtain ⟨-, id, ha⟩ := committed_eq_ok.1 h
    obtain ⟨t, ht, hrest⟩ := bind_eq_ok.1 ha
    simp only [pure_eq_ok, Prod.mk.injEq] at hrest
    obtain ⟨-, rfl⟩ := hrest
    obtain ⟨incident, lifecycle, session, hauth⟩ := authorizeSessionIn_ok ht
    exact .single (hauth.sessions rfl)
  | registerRemediation r =>
    obtain ⟨-, a, ha⟩ := committed_eq_ok.1 h
    obtain ⟨t, authorized, incident, row, session, audit, ht, -, -, -, -, -, -, -, hauth, rfl⟩ :=
      registerRemediation_ok ha
    have hrevoked : SessionSteps (.registerRemediation r) clk s s.records
        (t.remediated clk r.authorization.incidentId incident a).records := by
      rw [ht.eq]
      exact revokeObservation_sessions (t := s) ..
    exact hrevoked.tail (hauth.sessions rfl)
  | authorizeAutomaticObservation incidentId controlGeneration grant refusal =>
    obtain ⟨-, a, ha⟩ := committed_eq_ok.1 h
    rcases authorizeAutomaticObservation_ok ha with ⟨selfHeal, rfl⟩ |
      ⟨t, authorized, a, incident, session, audit, selfHeal, ht, -, -, hauth, rfl⟩
    · exact .refl
    · have hsame : s.records = t.records := by
        rw [ht.eq]
        rfl
      rw [hsame]
      exact .single (hauth.sessions rfl)
  | revokeSessions incidentId =>
    obtain ⟨-, a, ha⟩ := committed_eq_ok.1 h
    obtain ⟨incident, -, rfl⟩ := revokeSessions_ok ha
    exact revokeObservation_sessions (t := s) ..
  | claimDueSample sessionId owner leaseSeconds =>
    obtain ⟨a, -, ha⟩ := sampleClaimed_eq_ok.1 h
    cases claimDueSample_ok ha with
    | nothing => exact .refl
    | @ended row incident hrow hstate hinc =>
      exact .single (.closed (t := s.records) hrow hstate (by decide) rfl nofun)
    | @leased row incident jobId sequence hrow hstate hinc hscope =>
      exact .single (.leased rfl hrow hstate)
  | submitSample lease sample readings sampleId jobId =>
    obtain ⟨-, a, ha⟩ := committed_eq_ok.1 h
    obtain ⟨incident, row, c, verdict, after, hsub⟩ := submitSample_ok ha
    exact .single (.submitted rfl hsub)
  | sweepExpiredSession sessionId =>
    obtain ⟨-, a, ha⟩ := committed_eq_ok.1 h
    rcases sweepExpiredSession_ok ha with
      rfl | ⟨row, incident, after, hrow, hstate, hdue, -, hafter, rfl⟩
    · exact .refl
    · exact .single (.closed (t := s.records) hrow hstate (by decide) hafter
        fun _ => hdue.trans clk.now_le_later)
  | _ => exact absurd rfl hop

end

/-! ## A condition on every session -/

namespace Records

/-- An ending of one session is none of another. -/
theorem endingsOf_cons {e : EndingRow} {endings : List EndingRow} {i : UUID}
    (hi : i ≠ e.sessionId) :
    (e :: endings).filter (·.sessionId = i) = endings.filter (·.sessionId = i) := by
  rw [List.filter_cons_of_neg (by simpa using hi.symm)]

theorem endingsOf_cons_self {e : EndingRow} {endings : List EndingRow} :
    (e :: endings).filter (·.sessionId = e.sessionId) =
      e :: endings.filter (·.sessionId = e.sessionId) := by
  rw [List.filter_cons_of_pos (by simp)]

/-- Every session satisfies a condition with its samples and endings, and every sample and ending
belongs to a session. -/
structure Each (P : UUID → SessionRow → List (UUID × SampleRow) → List EndingRow → Prop)
    (t : Records) : Prop where
  session : ∀ {id row}, t.sessions.get id = some row → P id row (t.samplesOf id) (t.endingsOf id)
  sampled : ∀ {id sample}, t.samples.get id = some sample →
    (t.sessions.get sample.sessionId).isSome
  ended : ∀ e ∈ t.endings, (t.sessions.get e.sessionId).isSome

variable {P : UUID → SessionRow → List (UUID × SampleRow) → List EndingRow → Prop} {t : Records}

theorem Each.empty : (records {}).Each P where
  session {id row} hget := by
    rw [records, Table.get_empty] at hget
    cases hget
  sampled {id sample} hget := by
    rw [records, Table.get_empty] at hget
    cases hget
  ended _ he := nomatch he

/-- A write to one session: the others and what belongs to them stay as they are. -/
theorem Each.rewrite (h : t.Each P) {id : UUID} {row row' : SessionRow}
    {sessions : Table UUID SessionRow} {samples : Table UUID SampleRow} {endings : List EndingRow}
    (hrow : t.sessions.get id = some row) (hself : sessions.get id = some row')
    (hothers : ∀ i, i ≠ id → sessions.get i = t.sessions.get i)
    (hsamples : ∀ i, i ≠ id → (samples.select fun _ row => row.sessionId = i) = t.samplesOf i)
    (hendings : ∀ i, i ≠ id → endings.filter (·.sessionId = i) = t.endingsOf i)
    (hsampled : ∀ {k sample}, samples.get k = some sample →
      t.samples.get k = some sample ∨ sample.sessionId = id)
    (hended : ∀ e ∈ endings, e ∈ t.endings ∨ e.sessionId = id)
    (hP : P id row' (samples.select fun _ row => row.sessionId = id)
      (endings.filter (·.sessionId = id))) :
    Each P { t with sessions, samples, endings } := by
  have hfound : ∀ i, (t.sessions.get i).isSome = true → (sessions.get i).isSome = true := by
    intro i hi
    by_cases hid : i = id
    · rw [hid, hself]
      rfl
    · rw [hothers i hid, hi]
  refine ⟨fun {i row₁} hget => ?_, fun {k sample} hget => ?_, fun e he => ?_⟩
  · by_cases hi : i = id
    · subst hi
      obtain rfl := Option.some.inj (hself.symm.trans hget)
      exact hP
    · have hold := h.session ((hothers i hi).symm.trans hget)
      rw [← hsamples i hi, ← hendings i hi] at hold
      exact hold
  · rcases hsampled hget with hold | hid
    · exact hfound _ (h.sampled hold)
    · rw [hid, hself]
      rfl
  · rcases hended e he with hold | hid
    · exact hfound _ (h.ended e hold)
    · rw [hid, hself]
      rfl

/-- A session ends without a sample. -/
theorem Each.close (h : t.Each P) {id : UUID} {row : SessionRow} {reason : EndedReason}
    {before after : IncidentLifecycle} {recordedAt : Time} (hrow : t.sessions.get id = some row)
    (hP : ∀ e : EndingRow, e.endedReason = reason →
      P id (row.ended reason none) (t.samplesOf id) (e :: t.endingsOf id)) :
    (t.close recordedAt id row.incidentId reason before after).Each P := by
  obtain ⟨e, htables, rfl, rfl, -⟩ := endSession_eq t.tables recordedAt id row.incidentId reason
    reason.transition before after none none
  rw [Records.close, htables]
  have hself : (t.sessions.modify e.sessionId (·.ended e.endedReason none)).get e.sessionId =
      some (row.ended e.endedReason none) := by rw [Table.get_modify_self, hrow]; rfl
  refine h.rewrite hrow hself (fun i hi => Table.get_modify_ne _ _ hi) (fun _ _ => rfl)
    (fun i hi => endingsOf_cons hi) .inl
    (fun e' he' => (List.mem_cons.1 he').symm.imp_right fun he' => by rw [he']) ?_
  simp only [tables, endingsOf_cons_self]
  exact hP e rfl

/-- A session is authorized: nothing belongs to it yet. -/
theorem Each.authorize (h : t.Each P) {id : UUID} {session : SessionRow}
    {profiles : Table String ProfileRow} (hfresh : t.sessions.get id = none)
    (hP : P id session [] []) :
    Each P { t with sessions := t.sessions.insert id session, profiles } where
  session {i row} hget := by
    rw [Table.get_insert] at hget
    split at hget
    · next hi =>
      subst hi
      obtain rfl := Option.some.inj hget
      have hsamples : t.samplesOf i = [] := by
        refine List.filter_eq_nil_iff.2 fun e he => ?_
        have hsession := h.sampled (Table.mem_rows_iff.1 he)
        simp only [decide_eq_true_eq]
        rintro rfl
        rw [hfresh] at hsession
        cases hsession
      have hendings : t.endingsOf i = [] := by
        refine List.filter_eq_nil_iff.2 fun e he => ?_
        have hsession := h.ended e he
        simp only [decide_eq_true_eq]
        rintro rfl
        rw [hfresh] at hsession
        cases hsession
      rw [← hsamples, ← hendings] at hP
      exact hP
    · exact h.session hget
  sampled {k sample} hget := by
    rw [Table.get_insert]
    split
    · rfl
    · exact h.sampled hget
  ended e he := by
    rw [Table.get_insert]
    split
    · rfl
    · exact h.ended e he

end Records

/-- The watermark a verdict leaves on its session. -/
def Verdict.watermark (v : Verdict) : Watermark where
  adoptedSequence := v.fold.adoptedSequence
  adoptedWindowEnd := v.fold.adoptedWindowEnd
  adoptedCount := v.fold.adoptedCount
  healthySince := v.fold.healthySince

/-- What a submission makes of its session, and the endings it records. -/
inductive Outcome (row : SessionRow) (c : Conditions) (verdict : Verdict) (jobId : UUID) :
    SessionRow → List EndingRow → Prop
  | ended {e : EndingRow} (hended : verdict.endedReason = some e.endedReason) :
      Outcome row c verdict jobId (row.ended e.endedReason (some verdict.watermark)) [e]
  | advanced {dueAt : Time} (hopen : verdict.endedReason = none)
      (haccepted : verdict.decision.accepted = true) :
      Outcome row c verdict jobId (SessionRow.advanced row verdict.fold dueAt jobId) []
  | postponed {dueAt : Time} (hopen : verdict.endedReason = none)
      (hrejected : verdict.decision.accepted = false) (hlease : c.leaseValid = true) :
      Outcome row c verdict jobId (SessionRow.postponed row dueAt) []
  | filed (hopen : verdict.endedReason = none) (hrejected : verdict.decision.accepted = false)
      (hlease : c.leaseValid = false) : Outcome row c verdict jobId row []

section

variable [Texts] {s s' : Store} {clk : Clock} {lease : SampleLease} {sample : HealthSample}
  {readings : List SignalReading} {sampleId jobId : UUID} {incident : IncidentRow}
  {row : SessionRow} {c : Conditions} {verdict : Verdict} {after : IncidentLifecycle}

/-- What a submission writes: the row of its session, and the sample. -/
theorem Store.Submitted.outcome
    (h : Submitted s clk lease sample readings sampleId jobId incident row c verdict after s') :
    ∃ row' endings sessions, Outcome row c verdict jobId row' endings ∧
      (∀ e ∈ endings, e.sessionId = lease.sessionId) ∧
      sessions.get lease.sessionId = some row' ∧
      (∀ i, i ≠ lease.sessionId → sessions.get i = s.sessions.get i) ∧
      s'.records = { s.records with
        sessions
        samples := s.samples.insert sampleId
          (sampleRow lease sample readings c (s.scopeOf incident) verdict clk.later)
        endings := endings ++ s.endings } := by
  suffices hwritten : ∃ row' endings, ∃ f : SessionRow → SessionRow, f row = row' ∧
      Outcome row c verdict jobId row' endings ∧
      (∀ e ∈ endings, e.sessionId = lease.sessionId) ∧
      submitSessions s.sessionTables clk lease row c verdict after sampleId jobId =
        ⟨s.sessions.modify lease.sessionId f, endings ++ s.endings⟩ by
    obtain ⟨row', endings, f, hrow, houtcome, hendings, hwritten⟩ := hwritten
    refine ⟨row', endings, s.sessions.modify lease.sessionId f, houtcome, hendings, ?_,
      fun i hi => Table.get_modify_ne _ _ hi, ?_⟩
    · rw [Table.get_modify_self, h.foundSession, Option.map_some, hrow]
    · rw [h.written, hwritten]
      rfl
  cases hend : verdict.endedReason with
  | some reason =>
    obtain ⟨e, htables, hid, rfl, -⟩ := endSession_eq s.sessionTables clk.later lease.sessionId
      lease.incidentId reason verdict.transition c.subjectState after
      (if verdict.decision.accepted then some sampleId else none)
      (some verdict.watermark)
    refine ⟨_, [e], (·.ended e.endedReason (some verdict.watermark)), rfl, .ended hend,
      fun e' he' => List.mem_singleton.1 he' ▸ hid, ?_⟩
    simp only [submitSessions, hend]
    exact htables
  | none =>
    cases haccepted : verdict.decision.accepted with
    | true =>
      refine ⟨_, [], (SessionRow.advanced · verdict.fold
        (clk.now + seconds row.sampleIntervalSeconds) jobId), rfl, .advanced hend haccepted,
        fun e he => (nomatch he), ?_⟩
      simp only [submitSessions, hend, haccepted, if_true]
      rfl
    | false =>
      cases hlease : c.leaseValid with
      | true =>
        refine ⟨_, [], (SessionRow.postponed ·
          (clk.now + seconds row.sampleIntervalSeconds)), rfl, .postponed hend haccepted hlease,
          fun e he => (nomatch he), ?_⟩
        simp only [submitSessions, hend, haccepted, hlease, if_true, Bool.false_eq_true, if_false]
        rfl
      | false =>
        refine ⟨row, [], id, rfl, .filed hend haccepted hlease, fun e he => (nomatch he), ?_⟩
        have hsame : s.sessions.modify lease.sessionId id = s.sessions :=
          Table.modify_eq_self fun _ _ => rfl
        rw [hsame]
        simp only [submitSessions, hend, haccepted, hlease, Bool.false_eq_true, if_false]
        rfl

end

namespace Records

variable [Texts] {P : UUID → SessionRow → List (UUID × SampleRow) → List EndingRow → Prop}
  {op : Op} {clk : Clock} {s s' : Store} {t t' : Records}

/-- What keeps a condition on every session, with one clause for each kind of write. -/
structure Keeps (P : UUID → SessionRow → List (UUID × SampleRow) → List EndingRow → Prop)
    (op : Op) (clk : Clock) (s : Store) : Prop where
  closed : ∀ {id row samples endings} {e : EndingRow}, P id row samples endings →
    row.state = .authorized → P id (row.ended e.endedReason none) samples (e :: endings)
  fresh : ∀ {id} {session : SessionRow}, session.fold = {} → session.endedReason = none →
    0 < session.maxSamples → P id session [] []
  leased : ∀ {id samples endings} {row row' : SessionRow}, P id row samples endings →
    row.state = .authorized → row'.fold = row.fold → row'.terms = row.terms →
    row'.endedReason = row.endedReason → row'.activeSampleJobId = row.activeSampleJobId →
    P id row' samples endings
  submitted : ∀ {lease sample readings sampleId jobId incident row c verdict after s' row' new},
    op = .submitSample lease sample readings sampleId jobId →
    Submitted s clk lease sample readings sampleId jobId incident row c verdict after s' →
    P lease.sessionId row (s.records.samplesOf lease.sessionId)
      (s.records.endingsOf lease.sessionId) →
    Outcome row c verdict jobId row' new →
    P lease.sessionId row'
      ((sampleId, sampleRow lease sample readings c (s.scopeOf incident) verdict clk.later) ::
        s.records.samplesOf lease.sessionId)
      (new ++ s.records.endingsOf lease.sessionId)

omit [Texts] in
/-- The sampling job of a session is leased. -/
theorem Each.lease (h : s.records.Each P) {id : UUID} {row : SessionRow}
    {f : SessionRow → SessionRow} (hrow : s.sessions.get id = some row)
    (hP : P id (f row) (s.records.samplesOf id) (s.records.endingsOf id)) :
    Each P { s.records with sessions := s.sessions.modify id f } :=
  h.rewrite hrow (by rw [Table.get_modify_self, hrow]; rfl)
    (fun _ hi => Table.get_modify_ne _ _ hi) (fun _ _ => rfl) (fun _ _ => rfl) .inl (fun _ => .inl)
    hP

/-- A sample is submitted for a session. -/
theorem Each.submit (h : s.records.Each P) {lease : SampleLease} {sample : HealthSample}
    {readings : List SignalReading} {sampleId jobId : UUID} {incident : IncidentRow}
    {row : SessionRow} {c : Conditions} {verdict : Verdict} {after : IncidentLifecycle}
    (hsub : Submitted s clk lease sample readings sampleId jobId incident row c verdict after s')
    (hP : ∀ row' new, Outcome row c verdict jobId row' new → P lease.sessionId row'
      ((sampleId, sampleRow lease sample readings c (s.scopeOf incident) verdict clk.later) ::
        s.records.samplesOf lease.sessionId)
      (new ++ s.records.endingsOf lease.sessionId)) : s'.records.Each P := by
  obtain ⟨row', new, sessions, houtcome, hnew, hself, hothers, hrecords⟩ := hsub.outcome
  replace hP := hP row' new houtcome
  obtain ⟨stored, hstored⟩ : ∃ stored, stored =
      sampleRow lease sample readings c (s.scopeOf incident) verdict clk.later := ⟨_, rfl⟩
  have hsession : stored.sessionId = lease.sessionId := by rw [hstored]; rfl
  have hsamples : ∀ i, ((s.samples.insert sampleId stored).select fun _ row => row.sessionId = i) =
      if i = lease.sessionId then (sampleId, stored) :: s.records.samplesOf i
      else s.records.samplesOf i := by
    intro i
    rw [Table.select_insert _ hsub.fresh, hsession]
    by_cases hi : i = lease.sessionId
    · rw [if_pos hi, if_pos (by simp [hi])]
      rfl
    · rw [if_neg hi, if_neg (by simpa using Ne.symm hi)]
      rfl
  have hendings : ∀ i, (new ++ s.endings).filter (·.sessionId = i) =
      if i = lease.sessionId then new ++ s.records.endingsOf i else s.records.endingsOf i := by
    intro i
    rw [List.filter_append]
    by_cases hi : i = lease.sessionId
    · rw [if_pos hi, List.filter_eq_self.2 fun e he => by simp [hnew e he, hi]]
      rfl
    · rw [if_neg hi, List.filter_eq_nil_iff.2 fun e he => by simpa [hnew e he] using Ne.symm hi]
      rfl
  rw [hrecords, ← hstored]
  rw [← hstored] at hP
  refine h.rewrite hsub.foundSession hself hothers (fun i hi => by rw [hsamples, if_neg hi])
    (fun i hi => by rw [hendings, if_neg hi]) (fun {k x} hget => ?_) (fun e he => ?_) ?_
  · rw [Table.get_insert] at hget
    split at hget
    · obtain rfl := Option.some.inj hget
      exact .inr hsession
    · exact .inl hget
  · exact (List.mem_append.1 he).symm.imp_right (hnew e)
  · rw [hsamples, hendings, if_pos rfl, if_pos rfl]
    exact hP

/-- **One write keeps the condition.** -/
theorem Each.step (h : t.Each P) (hkeeps : Keeps P op clk s) (hstep : SessionStep op clk s t t') :
    t'.Each P := by
  cases hstep with
  | closed hrow hstate =>
    refine h.close hrow fun e he => ?_
    rw [← he]
    exact hkeeps.closed (h.session hrow) hstate
  | authorized _ hfresh _ hstanding hunended _ hbudget =>
    exact h.authorize hfresh (hkeeps.fresh hstanding hunended hbudget)
  | leased hop hrow hstate =>
    refine h.lease hrow (hkeeps.leased (h.session hrow) hstate ?_ ?_ ?_ ?_) <;> rfl
  | submitted hop hsub =>
    exact h.submit hsub fun row' new houtcome =>
      hkeeps.submitted hop hsub (h.session hsub.foundSession) houtcome

/-- A sequence of writes keeps the condition. -/
theorem Each.steps (h : t.Each P) (hkeeps : Keeps P op clk s)
    (hsteps : SessionSteps op clk s t t') : t'.Each P := by
  induction hsteps with
  | refl => exact h
  | tail _ hstep ih => exact ih.step hkeeps hstep

end Records

end OpsPilot
