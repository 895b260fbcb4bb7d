import OpsPilot.Observation.Anomalies
import OpsPilot.System.Alerts
import OpsPilot.System.ReleaseRuns

/-!
# Release anomalies under concurrency

Any number of consumers of release anomalies run at the same time, statement by statement, next to
every release operation, every operation of the incident store (merges and closures among them),
the commits of alert intake and the filed comparisons. What protects a consumption are the lock of
its link, the row locks of the incidents it chooses from and the lock of its release.

* `AlertCommit`: what a delivery of an alert may commit, whatever it read
  (`recordAlert_commits`).
* `AnomalyConsumed`: what the commit of a consumption does, said of the database it is made on.
* `AnomalyStore.Linked`: a release has the incident of its link.
* **`AnomalyStore.anomaly_consumption`**: a release anomaly is consumed once.
-/

namespace OpsPilot

open AnomalyStore

/-! ## What alert intake commits -/

/-- The writes of a delivery, whatever it read: the delivery is filed, attached to an incident, or
opens one. -/
inductive AlertCommit [AlertNames] (db : AlertStore) : AlertStore → Prop
  | files (d : Delivery) (outcome : AlertOutcome) (incidentId : Option UUID) (revision : ℕ) :
      AlertCommit db (db.file d outcome incidentId revision)
  | attaches {d o i release revision receipt db'}
      (h : db.attach d o i release revision = .ok (receipt, db')) : AlertCommit db db'
  | opens {d o related revision receipt db'}
      (h : db.openIdentity d o related revision = .ok (receipt, db')) : AlertCommit db db'

section Alert

variable [AlertNames]

/-- Nothing is known of what others do. -/
abbrev Anything : List AlertLock → AlertStore → AlertStore → Prop := fun _ _ _ => True

omit [AlertNames] in
theorem anything_stable : Program.Stable Anything := ⟨fun _ _ => trivial, fun _ _ => trivial⟩

/-- The value of a delivery is one of these writes. -/
def AlertWrites (_ : List AlertLock) (_ : AlertStore)
    (write : AlertStore → Except Code (AlertReceipt × AlertStore)) : Prop :=
  ∀ db receipt db', write db = .ok (receipt, db') → AlertCommit db db'

theorem beginEpisode_commits (d : Delivery) (o : AlertOpening) (revision : ℕ)
    (held : List AlertLock) (s : AlertStore) :
    (beginEpisode d o revision).Sound Anything AlertWrites held s := by
  unfold beginEpisode
  refine .bind anything_stable (.of_forall fun held₁ s₁ correlated => ?_) trivial
  cases correlated.1.attachTo with
  | some i => exact fun t _ db receipt db' hwrite => .attaches hwrite
  | none => exact fun t _ db receipt db' hwrite => .opens hwrite

/-- **Whatever it reads**, a delivery commits one of the writes of `AlertCommit`. -/
theorem recordAlert_commits (d : Delivery) (opening : Option AlertOpening) (s : AlertStore) :
    (recordAlert d opening).Sound Anything AlertWrites [] s := by
  unfold recordAlert
  refine .lift_bind fun _ _ => .acquire_bind fun s₁ _ => .committed_bind fun s₂ _ => ?_
  refine .bind anything_stable (.of_forall fun held₃ s₃ attached => ?_) trivial
  refine .committed_bind fun s₄ _ => ?_
  dsimp only
  split
  · intro t _ db receipt db' hwrite
    obtain ⟨-, rfl⟩ := Prod.mk.inj (Except.ok.inj hwrite)
    exact .files ..
  · intro t _ db receipt db' hwrite
    obtain ⟨-, rfl⟩ := Prod.mk.inj (Except.ok.inj hwrite)
    exact .files ..
  · exact beginEpisode_commits ..
  · intro t _ db receipt db' hwrite
    obtain ⟨-, rfl⟩ := Prod.mk.inj (Except.ok.inj hwrite)
    exact .files ..

end Alert

/-! ## The consumers and everybody else -/

/-- What anybody but a consumer commits. -/
inductive AnomalyCall
  | release (call : ReleaseCall)
  | alert
  | comparison (endingId : ReleaseEndingId)

namespace AnomalyStore

/-- A transaction of anybody else: a release operation or one of the incident store, an alert, or
the one comparison of an ending. -/
inductive Other [ReleaseTexts] [AlertNames] (db : AnomalyStore) : AnomalyCall → AnomalyStore → Prop
  | release {call answer release} (h : call.op.exec call.clock db.release = .ok (answer, release)) :
      Other db (.release call) { db with release }
  | alert {alerts} (h : AlertCommit db.alerts alerts) :
      Other db .alert { db with
        release := { db.release with store := alerts.store }
        identities := alerts.identities, deliveries := alerts.deliveries }
  | comparison {endingId row} (h : db.comparisons.get endingId = none) :
      Other db (.comparison endingId)
        { db with comparisons := db.comparisons.insert endingId row }

/-- What a lock covers: the link of a release, the row of a release, the row of an incident. -/
def Spares : AnomalyLock → AnomalyStore → AnomalyStore → Prop
  | .link oid, db, db' => db'.links.get oid = db.links.get oid
  | .release oid, db, db' => db'.release.releases.get oid = db.release.releases.get oid
  | .alert (.incident i), db, db' => ∀ row, db.release.store.incidents.get i = some row →
      db'.release.store.incidents.get i = some row
  | .alert (.fingerprint _), _, _ => True

/-- What nobody takes back: a link. -/
def Grows (db db' : AnomalyStore) : Prop :=
  ∀ oid link, db.links.get oid = some link → db'.links.get oid = some link

/-- **The invariant of the links**: a link is of its release, and a release has an incident if and
only if it has a link, the incident of the link. -/
structure Linked (db : AnomalyStore) : Prop where
  link : ∀ ⦃oid link⦄, db.links.get oid = some link → link.endingId.1 = oid ∧
    ∃ row, db.release.releases.get oid = some row ∧ row.incidentId = some link.incidentId
  row : ∀ ⦃oid row i⦄, db.release.releases.get oid = some row → row.incidentId = some i →
    ∃ link, db.links.get oid = some link ∧ link.incidentId = i

end AnomalyStore

/-- The consumption of anomalies as a service. -/
def anomalyConsumers [ReleaseTexts] [AnomalyNames] :
    Service AnomalyStore AnomalyLock ReleaseError (Option ReleaseLinkReceipt) ConsumeRequest
      AnomalyCall where
  program := consumeAnomaly
  Init db := db = {}
  Other := AnomalyStore.Other
  Spares := AnomalyStore.Spares

/-! ## The commit of a consumption -/

namespace AnomalyStore

variable {db db' opened : AnomalyStore} {plan : ReleaseConsumption} {spec : ReleaseOpening}

/-- The incident part touches no release, link, ending or comparison, and no row of an incident
that is there; an event touches no incident at all. -/
theorem openAnomaly_ok (h : db.openAnomaly plan spec = .ok opened) :
    opened.links = db.links ∧ opened.release.releases = db.release.releases ∧
      (∀ i row, db.release.store.incidents.get i = some row →
        opened.release.store.incidents.get i = some row) ∧
      (plan.disposition = .attached →
        opened.release.store.incidents = db.release.store.incidents) := by
  unfold openAnomaly at h
  split at h
  · simp only [require_bind_eq_ok] at h
    obtain ⟨inputId, -, content, -, h⟩ := h
    obtain ⟨⟨n, store⟩, happend, h⟩ := bind_eq_ok.1 h
    obtain ⟨hsame, -⟩ := Store.appendInput_incident (ReleaseStore.mapError_eq_ok.1 happend)
    obtain rfl := pure_eq_ok.1 h
    exact ⟨rfl, rfl, fun i row hrow => by rw [hsame]; exact hrow, fun _ => hsame⟩
  · next hdisposition =>
    obtain ⟨⟨u, store⟩, hopen, h⟩ := bind_eq_ok.1 h
    obtain ⟨hnone, rfl⟩ := Store.openHandoff_ok (ReleaseStore.mapError_eq_ok.1 hopen)
    obtain rfl := pure_eq_ok.1 h
    refine ⟨rfl, rfl, fun i row hrow => Table.get_insert_of_get _ hnone hrow, fun hattached => ?_⟩
    rw [hdisposition] at hattached
    cases hattached
  all_goals
    next hdisposition =>
    simp only [require_bind_eq_ok] at h
    obtain ⟨runId, -, run, -, h⟩ := h
    obtain ⟨⟨b, store⟩, haccept, h⟩ := bind_eq_ok.1 h
    have haccept := Store.accept_ok (ReleaseStore.mapError_eq_ok.1 haccept)
    obtain rfl := pure_eq_ok.1 h
    refine ⟨rfl, rfl, fun i row hrow => ?_, fun hattached => ?_⟩
    · rcases haccept with rfl | ⟨suspended, hnone, -, -, rfl⟩
      · exact hrow
      · exact Table.get_insert_of_get _ hnone hrow
    · rw [hdisposition] at hattached
      cases hattached

/-- What a consumption writes. -/
theorem link_ok [AnomalyNames] {comparisonId : Option UUID} {answer : Option ReleaseLinkReceipt}
    (h : db.link plan comparisonId spec = .ok (answer, db')) :
    ∃ opened, db.openAnomaly plan spec = .ok opened ∧
      opened.linkGuard plan.ending.observationId (plan.link comparisonId) = true ∧
      opened.links.get plan.ending.observationId = none ∧
      answer = some ⟨plan.ending.observationId, plan.link comparisonId, false⟩ ∧
      db' = { opened with
        links := opened.links.insert plan.ending.observationId (plan.link comparisonId)
        release := { opened.release with
          releases := opened.release.releases.modify plan.ending.observationId fun release =>
            { release with incidentId := some plan.incidentId } } } := by
  obtain ⟨opened, hopened, h⟩ := bind_eq_ok.1 h
  simp only [refuse_bind_eq_ok, pure_eq_ok, Prod.mk.injEq, Bool.not_eq_false, not_or,
    Option.not_isSome_iff_eq_none] at h
  obtain ⟨hguard, ⟨hnone, -⟩, rfl, rfl⟩ := h
  exact ⟨opened, hopened, hguard, hnone, rfl, rfl⟩

/-- What the guard of the links has checked. -/
theorem linkGuard_ok [AnomalyNames] {oid : UUID} {link : ReleaseLinkRow}
    (h : db.linkGuard oid link = true) :
    ∃ release, db.release.releases.get oid = some release ∧ release.status = .anomalous ∧
      release.incidentId = none ∧ link.endingId.1 = oid ∧
      (∃ ending, db.release.endings.get link.endingId = some ending ∧
        ending.endedReason = .anomalyDetected ∧ ending.anomalyKey = some link.anomalyKey) ∧
      ∃ incident, db.release.store.incidents.get link.incidentId = some incident ∧
        incident.targetId =
          if link.disposition = .handoffCreated then none else some release.terms.targetId := by
  obtain ⟨release, hrelease, h⟩ := (Option.any_eq_true _ _).1 h
  simp only [decide_eq_true_eq] at h
  obtain ⟨hstatus, hincident, hoid, hending, -, htarget⟩ := h
  obtain ⟨ending, hending, hreason⟩ := (Option.any_eq_true _ _).1 hending
  obtain ⟨incident, hget, htarget⟩ := (Option.any_eq_true _ _).1 htarget
  rw [decide_eq_true_eq] at hreason htarget
  exact ⟨release, hrelease, hstatus, hincident, hoid, ⟨ending, hending, hreason⟩, incident, hget,
    htarget.2.1⟩

end AnomalyStore

/-- **What the commit of a consumption does**, said of the database it is made on: it waits, or it
returns the link that is there, or it links a release that is anomalous and has none; and then it
attaches to an incident only if that is open there, not merged, and of the release's target. -/
inductive AnomalyConsumed [AnomalyNames] (request : ConsumeRequest) (held : List AnomalyLock)
    (db : AnomalyStore) : Option ReleaseLinkReceipt → AnomalyStore → Prop
  | waits : AnomalyConsumed request held db none db
  | replays {link} (hlink : db.links.get request.ending.observationId = some link)
      (hending : link.endingId = request.ending.endingId) :
      AnomalyConsumed request held db (some ⟨request.ending.observationId, link, true⟩) db
  | links {plan comparisonId spec answer db'} (hheld : .link request.ending.observationId ∈ held)
      (hlocked : .release request.ending.observationId ∈ held)
      (hplan : plan.ending = request.ending)
      (hattach : plan.disposition = .attached → ∃ row,
        db.release.store.incidents.get plan.incidentId = some row ∧ row.lifecycle ≠ .closed ∧
          row.mergedIntoIncidentId = none)
      (hwrite : db.link plan comparisonId spec = .ok (answer, db')) :
      AnomalyConsumed request held db answer db'

/-- The latest of the candidates that are not closed is one of them. -/
theorem attachTo_open {candidates : List CorrelationCandidate} {incidentId : UUID}
    (h : (chooseCorrelation candidates).attachTo = some incidentId) :
    ∃ row ∈ candidates, row.incidentId = incidentId ∧ row.lifecycle ≠ .closed := by
  unfold chooseCorrelation at h
  split at h
  · cases h
  · obtain ⟨row, hmem, hid⟩ := mem_of_latestCandidate h
    obtain ⟨hmem, hopen⟩ := List.mem_filter.1 hmem
    exact ⟨row, hmem, hid, by simpa using hopen⟩

/-- A plan is for the ending of its request. -/
theorem ReleaseConsumption.plan_ending [AnomalyNames] (request : ConsumeRequest)
    (release : ReleaseRow) (comparison : Option ReleaseComparisonRow) (resolved : Bool)
    (correlation : Correlation) :
    (ReleaseConsumption.plan request release comparison resolved correlation).ending =
      request.ending := by
  unfold ReleaseConsumption.plan
  dsimp only
  split
  · rfl
  · split
    · rfl
    · split <;> rfl

/-- A plan that attaches follows the correlation, and appends one event of the ending. -/
theorem ReleaseConsumption.plan_attached [AnomalyNames] {request : ConsumeRequest}
    {release : ReleaseRow} {comparison : Option ReleaseComparisonRow} {resolved : Bool}
    {correlation : Correlation}
    (h : (ReleaseConsumption.plan request release comparison resolved correlation).disposition =
      .attached) :
    correlation.attachTo =
      some (ReleaseConsumption.plan request release comparison resolved correlation).incidentId ∧
      resolved = true := by
  unfold ReleaseConsumption.plan at h ⊢
  dsimp only at h ⊢
  split at h
  · cases h
  · next hresolved =>
    rw [if_neg hresolved]
    cases hto : correlation.attachTo with
    | some i => exact ⟨rfl, by simpa using hresolved⟩
    | none =>
      rw [hto] at h
      dsimp only at h
      split at h <;> cases h

/-! ## A consumption between its statements -/

section Consume

variable [ReleaseTexts] [AnomalyNames] {request : ConsumeRequest} {held : List AnomalyLock}
  {s t : AnomalyStore}

/-- What a consumption relies on between its statements. -/
abbrev AnomalyRely : List AnomalyLock → AnomalyStore → AnomalyStore → Prop :=
  anomalyConsumers.Rely AnomalyStore.Linked AnomalyStore.Grows

theorem anomalyConsumers_lawful : anomalyConsumers.Lawful AnomalyStore.Grows where
  grows_refl db oid link h := h
  grows_trans hab hbc oid link h := hbc oid link (hab oid link h)
  refl l db := by
    rcases l with oid | oid | f | i
    · rfl
    · rfl
    · trivial
    · exact fun row h => h
  trans {l a b c} hab hbc := by
    rcases l with oid | oid | f | i
    · exact Eq.trans hbc hab
    · exact Eq.trans hbc hab
    · trivial
    · exact fun row h => hbc row (hab row h)

theorem anomalyRely_stable : Program.Stable AnomalyRely := anomalyConsumers_lawful.stable

/-- A locked incident row stays as it is. -/
theorem anomalyRely_row {i : UUID} {row : IncidentRow} (h : AnomalyRely held s t)
    (hi : .alert (.incident i) ∈ held) (hrow : s.release.store.incidents.get i = some row) :
    t.release.store.incidents.get i = some row := by
  have hspares := h.spares _ hi
  exact hspares row hrow

/-- A locked link stays as it is. -/
theorem anomalyRely_link {oid : UUID} (h : AnomalyRely held s t) (hoid : .link oid ∈ held) :
    t.links.get oid = s.links.get oid := by
  have hspares := h.spares _ hoid
  exact hspares

/-- The locked rows of the open-incident rule stay as they are. -/
abbrev RowsRely : List AlertLock → AlertStore → AlertStore → Prop := fun held a b =>
  ∀ i row, .incident i ∈ held → a.store.incidents.get i = some row →
    b.store.incidents.get i = some row

omit [ReleaseTexts] [AnomalyNames] in
theorem rowsRely_stable : Program.Stable RowsRely where
  refl _ _ _ _ _ h := h
  trans hab hbc i row hi h := hbc i row hi (hab i row hi h)

/-- A correlation attaches to a locked incident that is open and not merged. -/
theorem correlateRelease_sound (s : AnomalyStore) (resolved : Bool) (targetId : UUID)
    (held : List AnomalyLock) :
    (correlateRelease resolved targetId).Sound AnomalyRely (fun held t r =>
      ∀ i, r.attachTo = some i → .alert (.incident i) ∈ held ∧
        ∃ row, t.release.store.incidents.get i = some row ∧ row.lifecycle ≠ .closed ∧
          row.mergedIntoIncidentId = none) held s := by
  unfold correlateRelease
  split
  · refine .committed_bind fun s₁ _ => .lift_bind fun _ _ => .committed_bind fun s₂ hs₂ => ?_
    generalize (s₂.release.store.incidents.select fun _ row =>
      decide (row.targetId = some targetId)).map Prod.fst = ids
    have hrows : (lockMergeClosure ids).Sound RowsRely (fun held t locked =>
        ∀ i row, locked i = some row →
          .incident i ∈ held ∧ t.store.incidents.get i = some row) [] s₂.alerts :=
      lockMergeClosure_rows rowsRely_stable (fun hab hi => hab _ _ hi) ids fun i row hi h => h
    have hrely : ∀ inner held a b, (∀ l ∈ inner, AnomalyLock.alert l ∈ held) →
        AnomalyRely held a b → RowsRely inner a.alerts b.alerts := by
      intro inner held a b hinner hab i row hi hrow
      exact anomalyRely_row hab (hinner _ hi) hrow
    have hlock : ((lockMergeClosure ids).zoom AnomalyStore.alerts .alert ReleaseError.store).Sound
        AnomalyRely (fun held t locked => ∃ inner, (∀ l ∈ inner, AnomalyLock.alert l ∈ held) ∧
          ∀ i row, locked i = some row → AlertLock.incident i ∈ inner ∧
            t.alerts.store.incidents.get i = some row) held s₂ :=
      hrows.zoom hrely fun l hl => by cases hl
    refine .bind anomalyRely_stable (hlock.mono ?_) (anomalyConsumers_lawful.rely_refl hs₂.inv _)
    rintro held₃ s₃ locked ⟨inner, hinner, hlocked⟩
    refine .lift_bind fun candidates hcandidates t ht i hi => ?_
    obtain ⟨c, hc, rfl, hopen⟩ := attachTo_open hi
    obtain ⟨candidate, -, row, last, hrow, hfollow, hmerged, hlifecycle⟩ :=
      mem_of_resolveMerged (ReleaseStore.mapError_eq_ok.1 hcandidates) hc
    obtain ⟨hin, hget⟩ := hlocked _ _ (followMerged_ok hfollow hrow).1
    have hheld := hinner _ hin
    exact ⟨hheld, last, anomalyRely_row ht hheld hget, hlifecycle ▸ hopen, hmerged⟩
  · intro t _ i hi
    cases hi

/-- A consumption that goes on commits what it should. -/
theorem beginConsumption_sound (hs : s.Linked) (targetId : UUID)
    (comparison : Option ReleaseComparisonRow) (resolved : Bool)
    (hheld : .link request.ending.observationId ∈ held) :
    (beginConsumption request targetId comparison resolved).Sound AnomalyRely
      (Service.Writes (AnomalyConsumed request)) held s := by
  unfold beginConsumption
  have hcorrelate := (correlateRelease_sound s resolved targetId held).frame
    (F := fun held _ => .link request.ending.observationId ∈ held) (fun h _ => h)
    (fun h => List.mem_append_right _ h) hheld
  refine .bind anomalyRely_stable (hcorrelate.mono ?_) (anomalyConsumers_lawful.rely_refl hs _)
  rintro held₁ s₁ correlation ⟨hattach, hlink⟩
  refine .acquire_bind fun s₂ hs₂ => .lift_bind fun release _ => .lift_bind fun _ _ =>
    .lift_bind fun spec _ t ht answer db' hwrite => ?_
  refine .links (List.mem_append_right _ hlink) (List.mem_append_left _ (List.mem_singleton_self _))
    (ReleaseConsumption.plan_ending ..) (fun hdisposition => ?_) hwrite
  obtain ⟨hto, -⟩ := ReleaseConsumption.plan_attached hdisposition
  obtain ⟨hin, row, hrow, hopen⟩ := hattach _ hto
  exact ⟨row, anomalyRely_row ht (List.mem_append_right _ hin) (anomalyRely_row hs₂ hin hrow), hopen⟩

/-- A consumption that finds no link commits what it should. -/
theorem consumeUnlinked_sound (s : AnomalyStore)
    (hheld : .link request.ending.observationId ∈ held) :
    (consumeUnlinked request).Sound AnomalyRely (Service.Writes (AnomalyConsumed request)) held
      s := by
  unfold consumeUnlinked
  refine .committed_bind fun s₁ _ => .lift_bind fun stored _ => .lift_bind fun _ _ =>
    .committed_bind fun s₂ _ => .lift_bind fun release _ => .lift_bind fun _ _ =>
    .committed_bind fun s₃ hs₃ => ?_
  dsimp only
  split
  · intro t _ answer db' hwrite
    obtain ⟨rfl, rfl⟩ := Prod.mk.inj (Except.ok.inj hwrite)
    exact .waits
  · refine .committed_bind fun s₄ hs₄ => ?_
    exact beginConsumption_sound hs₄.inv _ _ _ hheld

/-- **Whatever happens between its statements**, a consumption commits what it should. -/
theorem consumeAnomaly_sound (request : ConsumeRequest) (s : AnomalyStore) :
    (consumeAnomaly request).Sound AnomalyRely (Service.Writes (AnomalyConsumed request)) [] s := by
  unfold consumeAnomaly
  refine .acquire_bind fun s₁ _ => .committed_bind fun s₂ _ => ?_
  have hheld : AnomalyLock.link request.ending.observationId ∈
      [AnomalyLock.link request.ending.observationId] ++ [] := by simp
  dsimp only
  split
  · next link hlink =>
    refine .lift_bind fun _ hsame t ht answer db' hwrite => ?_
    rw [refuse_eq_ok, not_or, not_not] at hsame
    obtain ⟨rfl, rfl⟩ := Prod.mk.inj (Except.ok.inj hwrite)
    exact .replays ((anomalyRely_link ht hheld).trans hlink) hsame.1
  · exact consumeUnlinked_sound s₂ hheld

end Consume

/-! ## The proof obligations -/

namespace AnomalyStore

variable {db db' : AnomalyStore}

/-- A link that is written keeps the invariant, takes no link back, and leaves every row a transaction
may have locked, but the link and the release themselves. -/
theorem Linked.link_written [AnomalyNames] {plan : ReleaseConsumption} {spec : ReleaseOpening}
    {comparisonId : Option UUID} {answer : Option ReleaseLinkReceipt} (h : db.Linked)
    (hwrite : db.link plan comparisonId spec = .ok (answer, db')) :
    db'.Linked ∧ Grows db db' ∧ ∀ l, l ≠ .link plan.ending.observationId →
      l ≠ .release plan.ending.observationId → Spares l db db' := by
  obtain ⟨opened, hopened, hguard, hnone, -, rfl⟩ := link_ok hwrite
  obtain ⟨hlinks, hreleases, hrows, -⟩ := openAnomaly_ok hopened
  obtain ⟨release, hrelease, -, -, hending, -, -⟩ := linkGuard_ok hguard
  rw [hlinks] at hnone
  have hself : (opened.release.releases.modify plan.ending.observationId fun release =>
      { release with incidentId := some plan.incidentId }).get plan.ending.observationId =
        some { release with incidentId := some plan.incidentId } := by
    rw [Table.get_modify_self, hrelease, Option.map_some]
  refine ⟨⟨fun oid link hlink => ?_, fun oid row i hrow hi => ?_⟩, fun oid link hlink => ?_,
    fun l hl hr => ?_⟩
  · dsimp only at hlink ⊢
    rcases Table.get_insert_eq_some.1 hlink with ⟨rfl, rfl⟩ | ⟨hne, hold⟩
    · exact ⟨hending, _, hself, rfl⟩
    · rw [hlinks] at hold
      obtain ⟨hoid, row, hrow, hincident⟩ := h.link hold
      exact ⟨hoid, row, by rw [Table.get_modify_ne _ _ hne, hreleases, hrow], hincident⟩
  · dsimp only at hrow ⊢
    by_cases hoid : oid = plan.ending.observationId
    · subst hoid
      obtain rfl := Option.some.inj (hself.symm.trans hrow)
      exact ⟨plan.link comparisonId, Table.get_insert_self .., Option.some.inj hi⟩
    · rw [Table.get_modify_ne _ _ hoid, hreleases] at hrow
      obtain ⟨link, hlink, hincident⟩ := h.row hrow hi
      exact ⟨link, by rw [Table.get_insert_ne _ _ hoid, hlinks, hlink], hincident⟩
  · dsimp only
    rw [hlinks]
    exact Table.get_insert_of_get _ hnone hlink
  · rcases l with oid | oid | f | i
    · have hoid : oid ≠ plan.ending.observationId := fun heq => hl (heq ▸ rfl)
      change (opened.links.insert _ _).get oid = db.links.get oid
      rw [Table.get_insert_ne _ _ hoid, hlinks]
    · have hoid : oid ≠ plan.ending.observationId := fun heq => hr (heq ▸ rfl)
      change (opened.release.releases.modify _ _).get oid = db.release.releases.get oid
      rw [Table.get_modify_ne _ _ hoid, hreleases]
    · trivial
    · exact hrows i

/-- Whatever anybody else commits keeps the invariant and the links. -/
theorem Linked.other [ReleaseTexts] [AlertNames] {call : AnomalyCall} (h : db.Linked)
    (hother : Other db call db') : db'.Linked ∧ Grows db db' := by
  cases hother with
  | alert | comparison => exact ⟨⟨h.link, h.row⟩, fun _ _ hlink => hlink⟩
  | @release call answer release hok =>
    have hadvances := ReleaseStore.exec_advances hok
    refine ⟨⟨fun oid link hlink => ?_, fun oid row i hrow hi => ?_⟩, fun _ _ hlink => hlink⟩
    · obtain ⟨hoid, row, hrow, hincident⟩ := h.link hlink
      obtain ⟨row', hrow', -, hkept, -⟩ := hadvances.row hrow
      exact ⟨hoid, row', hrow', hkept.trans hincident⟩
    · rcases hadvances.new hrow with hnone | hold
      · rw [hnone] at hi
        cases hi
      · obtain ⟨old, hold⟩ := Option.isSome_iff_exists.1 hold
        obtain ⟨row', hrow', -, hkept, -⟩ := hadvances.row hold
        obtain rfl := Option.some.inj (hrow'.symm.trans hrow)
        exact h.row hold (hkept.symm.trans hi)

end AnomalyStore

section

variable [ReleaseTexts] [AnomalyNames]

/-- The consumers of anomalies are in order. -/
theorem anomalyConsumers_keeps :
    anomalyConsumers.Keeps AnomalyStore.Linked AnomalyStore.Grows AnomalyConsumed where
  toLawful := anomalyConsumers_lawful
  init db hdb := by
    subst hdb
    constructor
    · intro oid link hlink
      cases hlink
    · intro oid row i hrow
      cases hrow
  sound request s _ := consumeAnomaly_sound request s
  commit {request held s a t} hpost hs := by
    cases hpost with
    | waits | replays =>
      exact ⟨hs, anomalyConsumers_lawful.grows_refl s, fun l _ => anomalyConsumers_lawful.refl l s⟩
    | links hheld hlocked hplan hattach hwrite =>
      obtain ⟨hlinked, hgrows, hspares⟩ := hs.link_written hwrite
      rw [hplan] at hspares
      exact ⟨hlinked, hgrows, fun l hl => hspares l (fun heq => hl (heq ▸ hheld))
        fun heq => hl (heq ▸ hlocked)⟩
  other hother hs := hs.other hother

end

namespace AnomalyStore

variable [ReleaseTexts] [AnomalyNames]

/-- The worlds of the consumers. -/
abbrev AnomalyWorld :=
  World AnomalyStore AnomalyLock ReleaseError (Option ReleaseLinkReceipt) ConsumeRequest

omit [ReleaseTexts] [AnomalyNames] in
/-- At most one link of an ending. -/
theorem Linked.ending_unique {db : AnomalyStore} (h : db.Linked) {oid oid' : UUID}
    {link link' : ReleaseLinkRow} (hlink : db.links.get oid = some link)
    (hlink' : db.links.get oid' = some link') (hending : link.endingId = link'.endingId) :
    oid = oid' := by
  rw [← (h.link hlink).1, ← (h.link hlink').1, hending]

omit [ReleaseTexts] in
/-- A consumption that links a release, in one commit with its incident. -/
theorem link_commits {db db' : AnomalyStore} {plan : ReleaseConsumption} {spec : ReleaseOpening}
    {comparisonId : Option UUID} {answer : Option ReleaseLinkReceipt}
    (hwrite : db.link plan comparisonId spec = .ok (answer, db'))
    (hattach : plan.disposition = .attached → ∃ row,
      db.release.store.incidents.get plan.incidentId = some row ∧ row.lifecycle ≠ .closed ∧
        row.mergedIntoIncidentId = none) :
    ∃ link : ReleaseLinkRow, db.links.get plan.ending.observationId = none ∧
      link.endingId = plan.ending.endingId ∧
      db'.links = db.links.insert plan.ending.observationId link ∧
      answer = some ⟨plan.ending.observationId, link, false⟩ ∧
      ∃ release, db.release.releases.get plan.ending.observationId = some release ∧
        release.incidentId = none ∧
        db'.release.releases.get plan.ending.observationId =
          some { release with incidentId := some link.incidentId } ∧
        (link.disposition = .attached → ∃ row,
          db.release.store.incidents.get link.incidentId = some row ∧ row.lifecycle ≠ .closed ∧
            row.mergedIntoIncidentId = none ∧ row.targetId = some release.terms.targetId) := by
  obtain ⟨opened, hopened, hguard, hnone, rfl, rfl⟩ := link_ok hwrite
  obtain ⟨hlinks, hreleases, -, hsame⟩ := openAnomaly_ok hopened
  obtain ⟨release, hrelease, -, hunlinked, -, -, incident, hincident, htarget⟩ := linkGuard_ok hguard
  rw [hlinks] at hnone
  refine ⟨plan.link comparisonId, hnone, rfl, by rw [hlinks], rfl, release, ?_, hunlinked, ?_,
    fun hdisposition => ?_⟩
  · rw [← hreleases, hrelease]
  · exact (Table.get_modify_self ..).trans (congrArg (Option.map _) hrelease)
  · -- an event changes no incident, so the row of the guard is the one that was locked
    obtain ⟨row, hrow, hopen, hmerged⟩ := hattach hdisposition
    rw [hsame hdisposition] at hincident
    obtain rfl := Option.some.inj (hrow.symm.trans hincident)
    rw [hdisposition, if_neg (by decide)] at htarget
    exact ⟨row, hrow, hopen, hmerged, htarget⟩

/-- What a run keeps: every link. -/
theorem run_links {w w' : AnomalyWorld} {es : List (Happening _ _ _)}
    (hreachable : anomalyConsumers.system.Reachable w) (hrun : anomalyConsumers.system.Run w es w')
    {oid : UUID} {link : ReleaseLinkRow} (hlink : w.db.links.get oid = some link) :
    w'.db.links.get oid = some link := by
  induction hrun with
  | nil w => exact hlink
  | @cons w v u e es hstep hrun ih =>
    refine ih (hreachable.step hstep) ?_
    have hsound := Service.reachable_sound anomalyConsumers_keeps hreachable
    rcases hsound.step_cases anomalyConsumers_keeps hstep with ⟨hsame, -⟩ |
      ⟨i, request, answer, held, -, hpost⟩ | ⟨label, -, hother⟩
    · rw [hsame]
      exact hlink
    · exact (anomalyConsumers_keeps.commit hpost hsound.db).2.1 oid link hlink
    · exact (anomalyConsumers_keeps.other hother hsound.db).2 oid link hlink

/-- **A release anomaly is consumed once**, in every reachable world of consumers, alert intakes,
release operations and operations of the incident store, statement by statement. -/
theorem anomaly_consumption {w : AnomalyWorld}
    (hreachable : anomalyConsumers.system.Reachable w) :
    (∀ {oid oid' link link'}, w.db.links.get oid = some link → w.db.links.get oid' = some link' →
      link.endingId = link'.endingId → oid = oid') ∧
    (∀ {oid row}, w.db.release.releases.get oid = some row →
      row.incidentId = (w.db.links.get oid).map (·.incidentId)) ∧
    (∀ {es w' oid link}, anomalyConsumers.system.Run w es w' → w.db.links.get oid = some link →
      w'.db.links.get oid = some link) ∧
    (∀ {i request answer w'}, anomalyConsumers.system.Step w (.commit i request answer) w' →
      let oid := request.ending.observationId
      w'.db = w.db ∧ (answer = none ∨
        ∃ link, w.db.links.get oid = some link ∧ answer = some ⟨oid, link, true⟩) ∨
      ∃ link, w.db.links.get oid = none ∧ link.endingId = request.ending.endingId ∧
        w'.db.links = w.db.links.insert oid link ∧ answer = some ⟨oid, link, false⟩ ∧
        ∃ release, w.db.release.releases.get oid = some release ∧ release.incidentId = none ∧
          w'.db.release.releases.get oid = some { release with incidentId := some link.incidentId } ∧
          (link.disposition = .attached → ∃ row,
            w.db.release.store.incidents.get link.incidentId = some row ∧
              row.lifecycle ≠ .closed ∧ row.mergedIntoIncidentId = none ∧
              row.targetId = some release.terms.targetId)) ∧
    (∀ {e w'}, anomalyConsumers.system.Step w e w' →
      (∀ i request answer, e ≠ .commit i request answer) → (∀ call, e ≠ .other call) →
        w'.db = w.db) ∧
    ∀ {i request held write error}, w.tasks i = some ⟨request, held, .pure write⟩ →
      write w.db = .error error → ∀ request answer w',
        ¬ anomalyConsumers.system.Step w (.commit i request answer) w' := by
  have hsound := Service.reachable_sound anomalyConsumers_keeps hreachable
  refine ⟨hsound.db.ending_unique, fun {oid row} hrow => ?_, fun hrun => run_links hreachable hrun,
    fun {i request answer w'} hstep => ?_, fun {e w'} hstep hcommit hother => ?_,
    fun {i request held write error} htask herror request' answer w' hstep => ?_⟩
  · cases hlink : w.db.links.get oid with
    | none =>
      cases hincident : row.incidentId with
      | none => rfl
      | some i =>
        obtain ⟨link, hlink', -⟩ := hsound.db.row hrow hincident
        rw [hlink] at hlink'
        cases hlink'
    | some link =>
      obtain ⟨-, row', hrow', hincident⟩ := hsound.db.link hlink
      obtain rfl := Option.some.inj (hrow'.symm.trans hrow)
      exact hincident
  · rcases hsound.step_cases anomalyConsumers_keeps hstep with ⟨-, hnot⟩ |
      ⟨j, request', answer', held, heq, hpost⟩ | ⟨label, heq, -⟩
    · exact absurd rfl (hnot i request answer)
    · cases heq
      generalize w'.db = db' at hpost ⊢
      cases hpost with
      | waits => exact .inl ⟨rfl, .inl rfl⟩
      | replays hlink _ => exact .inl ⟨rfl, .inr ⟨_, hlink, rfl⟩⟩
      | links _ _ hplan hattach hwrite =>
        have hcommits := link_commits hwrite hattach
        rw [hplan] at hcommits
        exact .inr hcommits
    · cases heq
  · rcases hsound.step_cases anomalyConsumers_keeps hstep with ⟨hsame, -⟩ |
      ⟨i, request, answer, held, heq, -⟩ | ⟨label, heq, -⟩
    · exact hsame
    · exact absurd heq (hcommit i request answer)
    · exact absurd heq (hother label)
  · cases hstep with
    | commit htask' hwrite =>
      cases htask.symm.trans htask'
      rw [herror] at hwrite
      cases hwrite

/-! ## A consumption that runs alone -/

/-- What a consumption with nobody else around commits. -/
def consumedAlone (db : AnomalyStore) (request : ConsumeRequest) :
    Option (Option ReleaseLinkReceipt × AnomalyStore) := do
  let write ← ((consumeAnomaly request).alone db).toOption
  (write db).toOption

theorem reachable_consumedAlone {db db' : AnomalyStore} {request : ConsumeRequest}
    {answer : Option ReleaseLinkReceipt} (hreachable : anomalyConsumers.system.Reachable { db })
    (h : consumedAlone db request = some (answer, db')) :
    anomalyConsumers.system.Reachable { db := db' } := by
  simp only [consumedAlone, Option.bind_eq_bind, Option.bind_eq_some_iff, toOption_eq_some] at h
  obtain ⟨write, hwrite, hdb'⟩ := h
  obtain ⟨es, hrun⟩ := Service.run_alone (S := anomalyConsumers) (P := fun _ _ => True)
    (fun _ _ _ _ => trivial) hwrite hdb'
  exact hreachable.run hrun.of_restrict

/-- Release operations one after another, with no consumer on its way. -/
theorem reachable_apply {db : AnomalyStore} (calls : List ReleaseCall)
    (hreachable : anomalyConsumers.system.Reachable { db }) :
    anomalyConsumers.system.Reachable
      { db := { db with release := calls.foldl ReleaseStore.apply db.release } } := by
  induction calls generalizing db with
  | nil => exact hreachable
  | cons call calls ih =>
    have hnext : anomalyConsumers.system.Reachable
        { db := { db with release := db.release.apply call } } := by
      unfold ReleaseStore.apply
      cases hexec : call.op.exec call.clock db.release with
      | error e => exact hreachable
      | ok r =>
        have hother : Other db (.release call) { db with release := r.2 } := .release hexec
        refine hreachable.step (.other hother fun i task htask => ?_)
        cases htask
    exact ih hnext

end AnomalyStore

namespace Scenario.Degraded

/-- The names of the anomaly of the release 1. -/
scoped instance anomalyNames : AnomalyNames where
  toAlertNames := alertNames
  intakeKey key := "intake:release-anomaly:" ++ toString key
  incidentId key := 500 + key
  runId key := 600 + key
  eventId key incidentId := 1000 * incidentId + key
  resultSha256 _ := "result"

/-- The evaluation of every sample: degraded. -/
def degraded : ReleaseEvaluation where
  verdict := .degraded
  outcome := .degraded
  evidenceSufficient := true
  report := .obj []

scoped instance degradedTexts : ReleaseTexts where
  toTexts := texts
  healthProfile := releaseTexts.healthProfile
  supportedProfile := releaseTexts.supportedProfile
  semanticSha256 := releaseTexts.semanticSha256
  commandSha256 := releaseTexts.commandSha256
  sampleFingerprint := releaseTexts.sampleFingerprint
  evaluateReleaseSample _ _ _ := degraded
  queryEvidenceConsistent _ _ _ := true

/-- The lease of the first sample of the release 1. -/
def sampleLease : ReleaseSampleLease where
  sessionId := 101
  observationId := 1
  jobId := 201
  sequence := 1
  owner := 9
  epoch := 1
  leaseUntil := seconds 110
  subjectControlGeneration := 0
  observationGeneration := 1
  healthProfileRevision := profileRevision
  calibratedPolicyRevision := "slo@1"
  deadlineAt := seconds 600
  sampleIntervalSeconds := 60
  adoptedWindowEnd := none
  globalSuspensionGeneration := 0
  targetSuspensionGeneration := 0

/-- The release is recorded and authorized, and its first sample finds it degraded. -/
def degradedCalls : List ReleaseCall :=
  releaseCalls ++
    [⟨.claimReleaseDue 9 101 30, releaseClock 80⟩,
      ⟨.submitReleaseSample sampleLease
        ⟨401, ⟨seconds 30, seconds 90, by decide⟩, [], List.nodup_nil⟩ 202, releaseClock 90⟩]

/-- The anomaly of the release 1, consumed once the wait for its comparison is over. -/
def consumeRequest : ConsumeRequest where
  ending := {
    endingId := (1, 101), sessionId := 101, observationId := 1, sampleId := 401, jobId := 201
    jobSequence := 1, subjectControlGeneration := 0, observationGeneration := 1
    calibratedPolicyRevision := "slo@1", releaseEvidenceSha256 := "sample"
    releaseEvaluation := degraded, anomalyKey := 1, resultSha256 := "result"
    recordedAt := seconds 90 }
  opening _ := .ok {
    run := some {
      deadline := seconds 3600, budgetLimit := 4, versions := .obj [], input := none
      ledger := [] } }
  now := seconds 600
  consumedAt := seconds 600

/-- The release 1 after its anomaly. -/
def anomalous : AnomalyStore := { release := degradedCalls.foldl ReleaseStore.apply {} }

example : ((consumedAlone anomalous consumeRequest).bind Prod.fst).map (·.link.disposition) =
    some .created := by
  decide +kernel

/-- The anomaly is consumed, and its release has the incident it opened. -/
theorem anomaly_consumption_created :
    ∃ w : AnomalyWorld, anomalyConsumers.system.Reachable w ∧
      (∃ link, w.db.links.get 1 = some link ∧ link.incidentId = 501) ∧
      ∀ row, w.db.release.releases.get 1 = some row → row.incidentId = some 501 := by
  have hconsumed : (consumedAlone anomalous consumeRequest).any (fun r =>
      (r.2.links.get 1).any (·.incidentId = 501)) = true := by decide +kernel
  obtain ⟨⟨answer, db⟩, hdb, hlink⟩ := (Option.any_eq_true _ _).1 hconsumed
  obtain ⟨link, hlink, hincident⟩ := (Option.any_eq_true _ _).1 hlink
  rw [decide_eq_true_eq] at hincident
  have hreach : anomalyConsumers.system.Reachable { db } :=
    reachable_consumedAlone (reachable_apply degradedCalls (.init ⟨rfl, fun _ => rfl⟩)) hdb
  refine ⟨{ db }, hreach, ⟨link, hlink, hincident⟩, fun row hrow => ?_⟩
  rw [(anomaly_consumption hreach).2.1 hrow, hlink, Option.map_some, hincident]

end Scenario.Degraded

end OpsPilot
