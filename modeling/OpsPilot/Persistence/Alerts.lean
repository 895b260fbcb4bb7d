import OpsPilot.Foundations.Interleaving
import OpsPilot.Persistence.Controls
import OpsPilot.Persistence.Incidents

/-!
# Alert intake

`record_alert` records one delivery of an alert in one transaction: it is a repeat of an episode
already known, it joins an open incident as an attached episode, or it opens an incident of its
own. Which of these it is, is read statement by statement, under the lock of the fingerprint and
the row locks of the incidents it may join; what it decides is written at the commit.

* `Delivery`, `AlertOpening`: what a delivery carries, and the incident it may open;
* `AlertStore`: the store with the identities, the deliveries and the incidents a release anomaly
  opened;
* `lockMergeClosure`, `resolveMerged`, `chooseCorrelation`, `correlate`: the open-incident rule;
* `recordAlert`: the transaction.
-/

namespace OpsPilot

/-- The identity of an alert episode: the fingerprint with `startsAt` in UTC seconds.
`delivery_key` is the hash of `fingerprint:startsAt`. -/
structure DeliveryKey where
  fingerprint : String
  startsAt : String
  deriving DecidableEq, Repr

/-- `opspilot_alert_deliveries.status`. -/
inductive AlertStatus
  | firing | resolved
  deriving DecidableEq, Repr

/-- The text of a status. -/
def AlertStatus.text : AlertStatus → String
  | firing => "firing"
  | resolved => "resolved"

/-- `OUTCOMES`: the delivery outcomes. -/
inductive AlertOutcome
  | created | replayed | handoffCreated | handoffReplayed | resolvedAttached | resolvedRecorded
  | attached
  deriving DecidableEq, Repr

/-- A delivery, as `record_alert` gets it. -/
structure Delivery where
  key : DeliveryKey
  status : AlertStatus
  actor : String
  annotationsSha256 : String
  deriving DecidableEq

/-- The work of an opening: a first Run on a target, or none and the reason why. -/
inductive AlertWork
  | run (runId : UUID) (resourceUid : String) («namespace» workload : Option String)
      (deadline : Time) (budgetLimit : ℕ) (versions : Json) (input : Option Json)
  | handoff (reason : String)
  deriving DecidableEq

/-- The incident a first firing delivery opens. `freshTarget` is the id its target takes if it is
not registered yet. -/
structure AlertOpening where
  incidentId : UUID
  intakeKey : String
  priority : ℕ := 2
  work : AlertWork
  freshTarget : UUID
  deriving DecidableEq

/-- `opspilot_alert_identities`, keyed by the delivery key; `targetUid` is its `target_id`. -/
structure IdentityRow where
  incidentId : UUID
  runId : Option UUID := none
  targetUid : Option String := none
  «namespace» : Option String := none
  workload : Option String := none
  handoffReason : Option String := none
  deriving DecidableEq

/-- `opspilot_alert_deliveries`. -/
structure DeliveryRow where
  delivery : Delivery
  outcome : AlertOutcome
  incidentId : Option UUID
  annotationRevision : ℕ
  deriving DecidableEq

/-- What `record_alert` returns. -/
structure AlertReceipt where
  outcome : AlertOutcome
  incidentId : Option UUID
  runId : Option UUID
  handoffReason : Option String
  annotationRevision : ℕ
  relatedIncidentId : Option UUID
  deriving DecidableEq

/-- The database alerts are recorded in: the store, the identities, the deliveries, newest first,
and the incidents a release anomaly opened (`opspilot_release_incident_links` with the
disposition `created` or `created_related`). -/
structure AlertStore where
  store : Store := {}
  identities : Table DeliveryKey IdentityRow := ∅
  deliveries : List DeliveryRow := []
  releases : List UUID := []

/-- The locks of a delivery: the advisory lock of its fingerprint, and incident rows. -/
inductive AlertLock
  | fingerprint (fingerprint : String)
  | incident (incidentId : UUID)
  deriving DecidableEq

/-- The functions alerts use that are not part of the program: the text of `delivery_key`, the
`uuid5` of an attached episode, and when an incident was created. -/
class AlertNames where
  keyText : DeliveryKey → String
  attachEvent : DeliveryKey → UUID → UUID
  createdAt : UUID → Time

namespace AlertStore

/-- The deliveries of a key, newest first. -/
def deliveriesOf (db : AlertStore) (key : DeliveryKey) : List DeliveryRow :=
  db.deliveries.filter fun row => row.delivery.key = key

/-- The incident the first `attached` delivery of a key names (C1-A). -/
def attachment (db : AlertStore) (key : DeliveryKey) : Option UUID :=
  ((db.deliveriesOf key).filter (·.outcome = .attached)).getLast?.bind (·.incidentId)

/-- An incident a fingerprint attached to. -/
def Claims (db : AlertStore) (incidentId : UUID) (fingerprint : String) : Prop :=
  ∃ row ∈ db.deliveries, row.outcome = .attached ∧ row.incidentId = some incidentId ∧
    row.delivery.key.fingerprint = fingerprint

instance (db : AlertStore) (incidentId : UUID) (fingerprint : String) :
    Decidable (db.Claims incidentId fingerprint) :=
  inferInstanceAs (Decidable (∃ row ∈ db.deliveries, _))

/-- Some other fingerprint attached to the incident. -/
def claimedByOther (db : AlertStore) (incidentId : UUID) (fingerprint : String) : Bool :=
  db.deliveries.any fun row => row.incidentId = some incidentId ∧ row.outcome = .attached ∧
    row.delivery.key.fingerprint ≠ fingerprint

/-- The candidates of an alert on a target, each with whether a release anomaly opened it: the
incidents bound to the target that the fingerprint opened on it, or that a release opened. -/
def candidates (db : AlertStore) (fingerprint resourceUid : String) (targetId : Option UUID) :
    List (UUID × Bool) :=
  ((db.store.incidents.select fun id row => targetId.isSome ∧ row.targetId = targetId ∧
      (id ∈ db.releases ∨ db.identities.rows.any fun identity =>
        identity.2.incidentId = id ∧ identity.1.fingerprint = fingerprint ∧
          identity.2.targetUid = some resourceUid ∧ identity.2.handoffReason = none))).map
    fun candidate => (candidate.1, decide (candidate.1 ∈ db.releases))

/-- Append the delivery row. -/
def file (db : AlertStore) (d : Delivery) (outcome : AlertOutcome) (incidentId : Option UUID)
    (revision : ℕ) : AlertStore :=
  { db with deliveries := ⟨d, outcome, incidentId, revision⟩ :: db.deliveries }

end AlertStore

/-! ## The open-incident rule -/

/-- `CorrelationCandidate`. -/
structure CorrelationCandidate where
  incidentId : UUID
  lifecycle : IncidentLifecycle
  createdAt : Time
  deriving DecidableEq

/-- `Correlation`: attach to an open incident, or open one related to a closed one. -/
structure Correlation where
  attachTo : Option UUID := none
  relatedTo : Option UUID := none
  deriving DecidableEq

/-- Earlier by `created_at`, ties broken by the id. -/
def CorrelationCandidate.before (row other : CorrelationCandidate) : Bool :=
  row.createdAt < other.createdAt ∨
    row.createdAt = other.createdAt ∧ row.incidentId < other.incidentId

/-- The latest candidate. -/
def latestCandidate (rows : List CorrelationCandidate) : Option UUID :=
  (rows.foldl (fun best row => if best.all (·.before row) then some row else best) none).map
    (·.incidentId)

/-- `choose_correlation`: the latest of the candidates that are not closed, else of the closed. -/
def chooseCorrelation (candidates : List CorrelationCandidate) : Correlation :=
  match candidates.filter (·.lifecycle ≠ .closed) with
  | [] => { relatedTo := latestCandidate candidates }
  | opened => { attachTo := latestCandidate opened }

/-- `MERGE_CHAIN_LIMIT`. -/
def mergeChainLimit : ℕ := 16

/-- The statements of a transaction of alert intake. -/
abbrev AlertProgram (α : Type) := Program AlertStore AlertLock Code α

/-- A transaction of alert intake. -/
abbrev AlertTransaction := AlertProgram (AlertStore → Except Code (AlertReceipt × AlertStore))

open Program (committed acquire lift)

/-- The incidents the merge pointers of `ids` lead to, read without locks. -/
def mergeClosure : ℕ → List UUID → List UUID → AlertProgram (List UUID)
  | 0, ids, _ => pure ids
  | limit + 1, ids, frontier =>
    if frontier = [] then pure ids else do
      let db ← committed
      let pointers := frontier.filterMap fun id =>
        (db.store.incidents.get id).bind (·.mergedIntoIncidentId)
      mergeClosure limit (ids ∪ pointers) (pointers.filter (· ∉ ids))

/-- `lock_merge_closure`: lock the candidates and every incident their merge pointers lead to,
and read the locked rows. -/
def lockMergeClosure (candidateIds : List UUID) : AlertProgram (UUID → Option IncidentRow) := do
  let ids ← mergeClosure mergeChainLimit candidateIds candidateIds
  let db ← acquire (ids.map .incident)
  pure fun id => if id ∈ ids then db.store.incidents.get id else none

/-- Follow the merge pointers of the locked rows. -/
def followMerged (locked : UUID → Option IncidentRow) :
    ℕ → UUID → IncidentRow → Except Code (UUID × IncidentRow)
  | 0, id, current => .ok (id, current)
  | limit + 1, id, current =>
    match current.mergedIntoIncidentId with
    | none => .ok (id, current)
    | some pointer =>
      match locked pointer with
      | none => .error .retry
      | some next => followMerged locked limit pointer next

/-- The end of the merge chain of a candidate, if that is bound to the target. -/
def resolveCandidate [AlertNames] (locked : UUID → Option IncidentRow) (targetId : Option UUID)
    (candidate : UUID) : Except Code (List CorrelationCandidate) :=
  match locked candidate with
  | none => .ok []
  | some row => do
    let last ← followMerged locked mergeChainLimit candidate row
    .ok (if last.2.mergedIntoIncidentId = none ∧ last.2.targetId = targetId
      then [⟨last.1, last.2.lifecycle, AlertNames.createdAt last.1⟩] else [])

/-- `resolve_merged`: each candidate stands for the end of its merge chain, which is there once; a
pointer out of the locked rows is refused. -/
def resolveMerged [AlertNames] (locked : UUID → Option IncidentRow) (targetId : Option UUID) :
    List UUID → Except Code (List CorrelationCandidate)
  | [] => .ok []
  | candidate :: rest => do
    let here ← resolveCandidate locked targetId candidate
    let others ← resolveMerged locked targetId rest
    .ok (here ++ others.filter (· ∉ here))

/-- `_correlate`: the incident a firing alert attaches or relates to, and the unclaimed candidates a
release opened. A handoff is never correlated. -/
def correlate [AlertNames] (d : Delivery) (o : AlertOpening) :
    AlertProgram (Correlation × List UUID) :=
  match o.work with
  | .handoff _ => pure ({}, [])
  | .run _ resourceUid .. => do
    let targetId := (← committed).store.targetByUid resourceUid
    let gates := (← committed).store.targetSuspensions
    lift (refuse (targetId.any fun t => (gates.get t).isNone) .inconsistentState)
    let rows := (← committed).candidates d.key.fingerprint resourceUid targetId
    let locked ← lockMergeClosure (rows.map Prod.fst)
    let db ← committed
    let claimed := fun id : UUID => (id, true) ∈ rows ∧ db.claimedByOther id d.key.fingerprint
    let resolved ← lift (resolveMerged locked targetId ((rows.map Prod.fst).filter (¬ claimed ·)))
    pure (chooseCorrelation resolved, ((rows.filter (·.2)).map Prod.fst).filter (¬ claimed ·))

/-! ## The writes -/

namespace Store

/-- `_alert_target`: the target of a resource uid, registered now if it has no row yet. -/
def alertTarget (s : Store) (resourceUid : String) (fresh : UUID) : Except Code (UUID × Store) :=
  match s.targetByUid resourceUid with
  | some targetId => pure (targetId, s)
  | none => do
    refuse ((s.targets.get fresh).isSome ∨ (s.targetSuspensions.get fresh).isSome)
      .storageUnavailable
    pure (fresh, s.addTarget fresh resourceUid)

/-- Open the incident of an alert, with its first Run or handed to a human. -/
def openAlert (s : Store) (o : AlertOpening) (related : Option UUID) : Except Code Store :=
  match o.work with
  | .run runId resourceUid _ _ deadline budgetLimit versions input => do
    let target ← s.alertTarget resourceUid o.freshTarget
    let accepted ← target.2.accept
      { incidentId := o.incidentId, runId, intakeKey := o.intakeKey, deadline, budgetLimit
        versions, input, targetId := some target.1, priority := o.priority
        relatedIncidentId := related }
    pure accepted.2
  | .handoff _ => do
    let opened ← s.openHandoff o.incidentId o.intakeKey o.priority related true
    pure opened.2

end Store

/-- The identity row of an opening. -/
def AlertOpening.identity (o : AlertOpening) : IdentityRow :=
  match o.work with
  | .run runId resourceUid ns workload .. =>
    { incidentId := o.incidentId, runId := some runId, targetUid := some resourceUid
      «namespace» := ns, workload }
  | .handoff reason => { incidentId := o.incidentId, handoffReason := some reason }

/-- The one event of an attached episode: fields of the identity only, never annotations. -/
def attachedEvent [AlertNames] (d : Delivery) (revision : ℕ) (release : Bool) : Json :=
  let fired := if release then "fired" else "fired again"
  let joined := if release then "this release-anomaly incident" else "this incident"
  .obj [("annotation_revision", .num revision), ("channel", .str "alertmanager"),
    ("delivery_key", .str (AlertNames.keyText d.key)),
    ("fingerprint", .str d.key.fingerprint), ("starts_at", .str d.key.startsAt),
    ("status", .str d.status.text),
    ("text", .str ("Alertmanager alert " ++ d.key.fingerprint ++ " " ++ fired ++
      " with startsAt " ++ d.key.startsAt ++ " (status " ++ d.status.text ++
      ") on this incident's target; attached to " ++ joined ++ " without a new Run."))]

/-- The annotation revision of a delivery, after the last delivery of its key. -/
def annotationRevision (last : Option DeliveryRow) (d : Delivery) : ℕ :=
  match last with
  | none => 1
  | some row =>
    if row.delivery.annotationsSha256 = d.annotationsSha256 then row.annotationRevision
    else row.annotationRevision + 1

namespace AlertStore

/-- A delivery of an episode that has an identity. -/
def fileIdentified (db : AlertStore) (d : Delivery) (identity : IdentityRow) (revision : ℕ) :
    AlertReceipt × AlertStore :=
  let outcome := match d.status with
    | .firing => if identity.runId.isSome then .replayed else .handoffReplayed
    | .resolved => .resolvedAttached
  (⟨outcome, identity.incidentId, identity.runId, identity.handoffReason, revision, none⟩,
    db.file d outcome (some identity.incidentId) revision)

/-- A delivery of an attached episode (R-C3): no event. -/
def fileAttached (db : AlertStore) (d : Delivery) (incidentId : UUID) (revision : ℕ) :
    AlertReceipt × AlertStore :=
  let outcome := match d.status with
    | .firing => .attached
    | .resolved => .resolvedAttached
  (⟨outcome, incidentId, none, none, revision, none⟩,
    db.file d outcome (some incidentId) revision)

/-- A resolved notification nobody knows. -/
def fileResolved (db : AlertStore) (d : Delivery) (revision : ℕ) : AlertReceipt × AlertStore :=
  (⟨.resolvedRecorded, none, none, none, revision, none⟩,
    db.file d .resolvedRecorded none revision)

/-- Attach a new episode to an incident: one event, and the priority raised if it is higher. -/
def attach [AlertNames] (db : AlertStore) (d : Delivery) (o : AlertOpening) (incidentId : UUID)
    (release : Bool) (revision : ℕ) : Except Code (AlertReceipt × AlertStore) := do
  let appended ← db.store.appendInput incidentId (AlertNames.attachEvent d.key incidentId)
    (attachedEvent d revision release) d.actor
  let escalated ← appended.2.escalatePriority incidentId o.priority
  pure (⟨.attached, incidentId, none, none, revision, none⟩,
    { db with store := escalated.2 }.file d .attached (some incidentId) revision)

/-- `_open`: open the incident of a new episode, with its identity. -/
def openIdentity (db : AlertStore) (d : Delivery) (o : AlertOpening) (related : Option UUID)
    (revision : ℕ) : Except Code (AlertReceipt × AlertStore) := do
  let store ← db.store.openAlert o related
  -- the primary key of the identity, and at most one identity of an incident
  refuse ((db.identities.get d.key).isSome ∨
    db.identities.rows.any fun row => row.2.incidentId = o.incidentId) .storageUnavailable
  let outcome := if o.identity.runId.isSome then AlertOutcome.created else .handoffCreated
  pure (⟨outcome, o.incidentId, o.identity.runId, o.identity.handoffReason, revision, related⟩,
    { db with store, identities := db.identities.insert d.key o.identity }.file d outcome
      (some o.incidentId) revision)

end AlertStore

/-- The incident an episode without an identity is attached to. -/
def readAttachment (key : DeliveryKey) (identity : Option IdentityRow) :
    AlertProgram (Option UUID) :=
  if identity.isSome then pure none else do
    let db ← committed
    pure (db.attachment key)

/-- A new episode attaches to an incident, or opens one. -/
def beginEpisode [AlertNames] (d : Delivery) (o : AlertOpening) (revision : ℕ) :
    AlertTransaction := do
  let correlated ← correlate d o
  match correlated.1.attachTo with
  | some incidentId =>
    pure fun db => db.attach d o incidentId (decide (incidentId ∈ correlated.2)) revision
  | none => pure fun db => db.openIdentity d o correlated.1.relatedTo revision

/-- `record_alert`: record one delivery. -/
def recordAlert [AlertNames] (d : Delivery) (opening : Option AlertOpening) :
    AlertTransaction := do
  lift (refuse (d.status = .firing ∧ opening.isNone) .invalidInput)
  let _ ← acquire [.fingerprint d.key.fingerprint]
  let identity := (← committed).identities.get d.key
  let attached ← readAttachment d.key identity
  let last := ((← committed).deliveriesOf d.key).head?
  let revision := annotationRevision last d
  match identity, attached, d.status, opening with
  | some identity, _, _, _ => pure fun db => .ok (db.fileIdentified d identity revision)
  | none, some incidentId, _, _ => pure fun db => .ok (db.fileAttached d incidentId revision)
  | none, none, .firing, some o => beginEpisode d o revision
  | none, none, _, _ => pure fun db => .ok (db.fileResolved d revision)

/-! ## What they do -/

theorem mem_of_latestCandidate {rows : List CorrelationCandidate} {incidentId : UUID}
    (h : latestCandidate rows = some incidentId) : ∃ row ∈ rows, row.incidentId = incidentId := by
  obtain ⟨row, hrow, hid⟩ := Option.map_eq_some_iff.1 h
  rcases Store.foldl_best_mem (fun row best => best.before row) rows none hrow with hnone | hmem
  · cases hnone
  · exact ⟨row, hmem, hid⟩

/-- An anomaly attaches to one of its candidates. -/
theorem mem_of_attachTo {candidates : List CorrelationCandidate} {incidentId : UUID}
    (h : (chooseCorrelation candidates).attachTo = some incidentId) :
    ∃ row ∈ candidates, row.incidentId = incidentId := by
  unfold chooseCorrelation at h
  split at h
  · cases h
  · obtain ⟨row, hmem, hid⟩ := mem_of_latestCandidate h
    exact ⟨row, (List.mem_filter.1 hmem).1, hid⟩

/-- A merge chain ends in a locked row: the candidate's own, or one merged into. -/
theorem followMerged_ok {locked : UUID → Option IncidentRow} {limit : ℕ} {id last : UUID}
    {row end_ : IncidentRow} (h : followMerged locked limit id row = .ok (last, end_))
    (hrow : locked id = some row) :
    locked last = some end_ ∧ (last = id ∨
      ∃ z merged, locked z = some merged ∧ merged.mergedIntoIncidentId = some last) := by
  induction limit generalizing id row with
  | zero =>
    obtain ⟨rfl, rfl⟩ := Prod.mk.inj (Except.ok.inj h)
    exact ⟨hrow, .inl rfl⟩
  | succ limit ih =>
    unfold followMerged at h
    split at h
    · obtain ⟨rfl, rfl⟩ := Prod.mk.inj (Except.ok.inj h)
      exact ⟨hrow, .inl rfl⟩
    · next pointer hpointer =>
      split at h
      · cases h
      · next next hnext =>
        obtain ⟨hend, rfl | hmerged⟩ := ih h hnext
        · exact ⟨hend, .inr ⟨id, row, hrow, hpointer⟩⟩
        · exact ⟨hend, .inr hmerged⟩

/-- What a correlation decides on stands for a candidate. -/
theorem mem_of_resolveMerged [AlertNames] {locked : UUID → Option IncidentRow}
    {targetId : Option UUID} {candidateIds : List UUID} {resolved : List CorrelationCandidate}
    (h : resolveMerged locked targetId candidateIds = .ok resolved) {c : CorrelationCandidate}
    (hc : c ∈ resolved) :
    ∃ candidate ∈ candidateIds, ∃ row end_, locked candidate = some row ∧
      followMerged locked mergeChainLimit candidate row = .ok (c.incidentId, end_) ∧
      end_.mergedIntoIncidentId = none ∧ c.lifecycle = end_.lifecycle := by
  induction candidateIds generalizing resolved with
  | nil =>
    obtain rfl := Except.ok.inj h
    cases hc
  | cons candidate rest ih =>
    unfold resolveMerged at h
    obtain ⟨here, hhere, h⟩ := bind_eq_ok.1 h
    obtain ⟨others, hothers, h⟩ := bind_eq_ok.1 h
    obtain rfl := Except.ok.inj h
    rcases List.mem_append.1 hc with hmem | hmem
    · unfold resolveCandidate at hhere
      split at hhere
      · obtain rfl := Except.ok.inj hhere
        cases hmem
      · next row hrow =>
        obtain ⟨last, hlast, hhere⟩ := bind_eq_ok.1 hhere
        obtain rfl := Except.ok.inj hhere
        split at hmem
        · next hend =>
          obtain rfl := List.mem_singleton.1 hmem
          exact ⟨candidate, List.mem_cons_self, row, last.2, hrow, hlast, hend.1, rfl⟩
        · cases hmem
    · obtain ⟨found, hfound, hrest⟩ := ih hothers (List.mem_of_mem_filter hmem)
      exact ⟨found, List.mem_cons_of_mem _ hfound, hrest⟩

namespace Store

variable {s s' : Store}

theorem alertTarget_incidents {resourceUid : String} {fresh targetId : UUID}
    (h : s.alertTarget resourceUid fresh = .ok (targetId, s')) : s'.incidents = s.incidents := by
  unfold alertTarget at h
  split at h
  · obtain ⟨-, rfl⟩ := Prod.mk.inj (pure_eq_ok.1 h)
    rfl
  · simp only [refuse_bind_eq_ok, pure_eq_ok, Prod.mk.injEq] at h
    obtain ⟨-, -, rfl⟩ := h
    rfl

/-- An opening adds an incident, if it changes any. -/
theorem openAlert_ok {o : AlertOpening} {related : Option UUID}
    (h : s.openAlert o related = .ok s') :
    s'.incidents = s.incidents ∨ ∃ row, s.incidents.get o.incidentId = none ∧
      s'.incidents = s.incidents.insert o.incidentId row := by
  unfold openAlert at h
  split at h
  · obtain ⟨⟨targetId, t⟩, htarget, h⟩ := bind_eq_ok.1 h
    obtain ⟨⟨b, u⟩, haccept, h⟩ := bind_eq_ok.1 h
    obtain rfl := pure_eq_ok.1 h
    have hsame := alertTarget_incidents htarget
    rcases accept_ok haccept with rfl | ⟨suspended, hnone, -, -, hu⟩
    · exact .inl hsame
    · dsimp only at hnone hu
      rw [hsame] at hnone hu
      exact .inr ⟨_, hnone, by rw [hu]⟩
  · obtain ⟨⟨u, t⟩, hopen, h⟩ := bind_eq_ok.1 h
    obtain rfl := pure_eq_ok.1 h
    obtain ⟨hnone, rfl⟩ := openHandoff_ok hopen
    exact .inr ⟨_, hnone, rfl⟩

/-- An event is appended to an incident that is there. -/
theorem appendInput_incident {incidentId inputId : UUID} {content : Json} {actor : String} {n : ℕ}
    (h : s.appendInput incidentId inputId content actor = .ok (n, s')) :
    s'.incidents = s.incidents ∧ ∃ row, s.incidents.get incidentId = some row := by
  have hrows := appendInput_ok h
  simp only [appendInput, refuse_bind_eq_ok, require_bind_eq_ok] at h
  obtain ⟨-, row, hrow, -⟩ := h
  refine ⟨?_, row, hrow⟩
  rcases hrows with rfl | ⟨incident, -, -, rfl⟩ <;> rfl

end Store

namespace AlertStore

variable {db db' : AlertStore} {d : Delivery} {o : AlertOpening} {receipt : AlertReceipt}

/-- An attached episode raises the priority of its incident, and adds one event. -/
theorem attach_ok [AlertNames] {incidentId : UUID} {release : Bool} {revision : ℕ}
    (h : db.attach d o incidentId release revision = .ok (receipt, db')) :
    ∃ store, (∃ row, db.store.incidents.get incidentId = some row) ∧
      store.incidents = (db.store.incidents.modify incidentId fun row =>
        if o.priority < row.priority then { row with priority := o.priority } else row) ∧
      db' = { db with store }.file d .attached (some incidentId) revision := by
  obtain ⟨⟨n, t⟩, happend, h⟩ := bind_eq_ok.1 h
  obtain ⟨⟨u, store⟩, hescalate, h⟩ := bind_eq_ok.1 h
  obtain ⟨-, rfl⟩ := Prod.mk.inj (pure_eq_ok.1 h)
  obtain ⟨hsame, hrow⟩ := Store.appendInput_incident happend
  refine ⟨store, hrow, ?_, rfl⟩
  rw [Store.escalatePriority_ok hescalate]
  dsimp only
  rw [hsame]

/-- A new episode opens an incident under an identity of its own. -/
theorem openIdentity_ok {related : Option UUID} {revision : ℕ}
    (h : db.openIdentity d o related revision = .ok (receipt, db')) :
    ∃ store outcome, db.store.openAlert o related = .ok store ∧ outcome ≠ .attached ∧
      db.identities.get d.key = none ∧
      db' = { db with store, identities := db.identities.insert d.key o.identity }.file d outcome
        (some o.incidentId) revision := by
  obtain ⟨store, hopen, h⟩ := bind_eq_ok.1 h
  simp only [refuse_bind_eq_ok, pure_eq_ok, Prod.mk.injEq, not_or, Option.not_isSome_iff_eq_none]
    at h
  obtain ⟨⟨hnone, -⟩, -, rfl⟩ := h
  refine ⟨store, _, hopen, ?_, hnone, rfl⟩
  split <;> rintro ⟨⟩

end AlertStore

end OpsPilot
