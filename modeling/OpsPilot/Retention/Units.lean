import OpsPilot.Domain.Subjects
import OpsPilot.Foundations.Components
import OpsPilot.Foundations.Interleaving
import OpsPilot.Knowledge.Jobs
import Mathlib.Data.List.Sort

/-!
# Retention of raw payloads

The five tables with a raw payload, what a row of each belongs to, and what keeps an incident. A
pass reads the rows whose payload is still there, the merge groups of the incidents they belong to
and what keeps each incident; it divides the rows that are ready among units, and cleans each unit
in a transaction of its own, which locks the incidents of the unit and reads everything again.

* `RetentionStore`: the tables, and what the passes hold in memory.
* `RetentionStore.blocks`: `_reasons`, one code of one incident.
* `RetentionPlan`, `RetentionPlan.units`: `_scan` and `_units`.
* `scan`, `applyUnit`: the transactions of a pass, statement by statement.
-/

namespace OpsPilot

/-! ## Payloads -/

/-- A payload column with its `payload_state`, as the `CHECK` ties them: the column has a value
exactly when the state is `present`. -/
inductive Payload
  | present (body : String) | absent | cleaned
  deriving DecidableEq, Repr

/-- The tables of `PAYLOADS`. -/
inductive PayloadTable
  | evidence | reading | releaseQuery | comparisonQuery | delivery
  deriving DecidableEq, Repr

/-- The object id of a payload row. -/
inductive PayloadKey
  | evidence (evidenceId : String)
  | reading (sampleId : UUID) (signalName : String)
  | releaseQuery (sampleId : UUID) (queryKey : String)
  | comparisonQuery (comparisonId : UUID) (queryKey : String)
  | delivery (deliveryId : UUID)
  deriving DecidableEq, Repr

/-- The table of a key. -/
def PayloadKey.table : PayloadKey → PayloadTable
  | evidence _ => .evidence
  | reading _ _ => .reading
  | releaseQuery _ _ => .releaseQuery
  | comparisonQuery _ _ => .comparisonQuery
  | delivery _ => .delivery

/-- A row with a payload. `subjectId` is the Run of a piece of evidence, or the incident of a
delivery; `columns` are the other columns. -/
structure PayloadRow where
  payload : Payload
  rawSha256 : Option String := none
  subjectId : Option UUID := none
  columns : List (String × String) := []
  deriving DecidableEq, Repr

/-- `SET raw = NULL, payload_state = 'cleaned'`. -/
def PayloadRow.clean (row : PayloadRow) : PayloadRow := { row with payload := .cleaned }

/-- `payload_state = 'present'`. -/
def PayloadRow.isPresent (row : PayloadRow) : Bool :=
  match row.payload with
  | .present _ => true
  | .absent | .cleaned => false

/-! ## What a row belongs to -/

/-- `opspilot_incidents`, as retention reads it. -/
structure LifecycleRow where
  lifecycle : IncidentLifecycle := .opened
  closedAt : Option Time := none
  mergedIntoIncidentId : Option UUID := none
  deriving DecidableEq, Repr

/-- `opspilot_runs`, as retention reads it. -/
structure OwnedRun where
  incidentId : UUID
  state : RunExecution := .queued
  deriving DecidableEq, Repr

/-- `opspilot_observation_sessions`, as retention reads it: of an incident, or of a release. -/
structure OwnedSession where
  incidentId : Option UUID
  releaseObservationId : Option UUID
  state : ObservationSessionState := .authorized
  deriving DecidableEq, Repr

/-- `opspilot_release_incident_links`, as retention reads it. -/
structure OwningLink where
  incidentId : UUID
  relatedIncidentId : Option UUID := none
  deriving DecidableEq, Repr

/-- The incidents a release observation is linked to. -/
def linked (links : Table UUID OwningLink) (observationId : UUID) : List UUID :=
  match links.get observationId with
  | none => []
  | some link => link.incidentId :: link.relatedIncidentId.toList

/-- `_Row`: a row whose payload is there, with the incidents it belongs to, of which there is one at
least. The first is the smallest. -/
structure PresentRow where
  key : PayloadKey
  rawSha256 : Option String
  first : UUID
  others : List UUID
  deriving DecidableEq, Repr

/-- The incidents of a row. -/
def PresentRow.incidents (row : PresentRow) : List UUID := row.first :: row.others

/-- The row as it is added to a scan: one that belongs to no incident is left out. -/
def PresentRow.of (key : PayloadKey) (rawSha256 : Option String) (owners : List UUID) :
    Option PresentRow :=
  match owners.dedup.insertionSort (· ≤ ·) with
  | [] => none
  | first :: others => some { key, rawSha256, first, others }

/-! ## Plans -/

/-- The `blocked_by` codes of `CODES`. -/
inductive BlockCode
  | notClosed | closedAtMissing | withinRetention | activeRun | activeObservation
  | postmortemGenerationPending | draftUnderReview | activeKnowledge
  deriving DecidableEq, Repr

/-- `CODES`. -/
def BlockCode.all : List BlockCode :=
  [.notClosed, .closedAtMissing, .withinRetention, .activeRun, .activeObservation,
    .postmortemGenerationPending, .draftUnderReview, .activeKnowledge]

/-- `_Plan`, with the days of its pass. -/
structure RetentionPlan where
  days : ℕ
  rows : List PresentRow
  groups : Components UUID
  reasons : UUID → List BlockCode

/-- A merge group, or several joined by the rows that belong to them, with its rows. -/
structure CleaningUnit where
  incidents : List UUID
  rows : List PresentRow

namespace RetentionPlan

variable (plan : RetentionPlan)

/-- `groups[incident]`. -/
def group (incident : UUID) : List UUID := plan.groups.members (plan.groups.find incident)

/-- `cleanable`. -/
def cleanable (incident : UUID) : Bool := ∀ m ∈ plan.group incident, plan.reasons m = []

/-- The rows that may be cleaned, as far as the scan has seen. -/
def ready : List PresentRow := plan.rows.filter fun row => ∀ i ∈ row.incidents, plan.cleanable i

/-- The incidents that a row joins. -/
def joins (row : PresentRow) : List (UUID × UUID) :=
  (plan.group row.first ++ row.others).flatMap fun i =>
    (row.first, i) :: (plan.group i).map fun m => (row.first, m)

/-- The incidents of the rows, joined. -/
def joined (rows : List PresentRow) : Components UUID :=
  Components.empty.unionAll (rows.flatMap plan.joins)

/-- `_units`. -/
def units (rows : List PresentRow) : List CleaningUnit :=
  let sets := plan.joined rows
  ((rows.map fun row => sets.find row.first).dedup.insertionSort (· ≤ ·)).map fun root =>
    { incidents := sets.members root
      rows := rows.filter fun row => sets.find row.first = root }

end RetentionPlan

/-! ## The store -/

/-- The tables that retention reads, with the world of the knowledge operations; and what every pass
has in memory. -/
structure RetentionStore where
  incidents : Table UUID LifecycleRow := ∅
  runs : Table UUID OwnedRun := ∅
  sessions : Table UUID OwnedSession := ∅
  samples : Table UUID UUID := ∅
  comparisons : Table UUID UUID := ∅
  links : Table UUID OwningLink := ∅
  payloads : Table PayloadKey PayloadRow := ∅
  knowledge : Knowledge.World := {}
  passes : Table UUID RetentionPlan := ∅

/-- `ACTIVE_RUN_STATES`. -/
def activeRunStates : List RunExecution := [.queued, .paused, .running, .waitingHuman, .blocked]

namespace RetentionStore

variable (db : RetentionStore)

/-- `clock_timestamp()`. -/
def now : Time := db.knowledge.clock

/-- The session of a sample. -/
def sessionOf (sampleId : UUID) : Option OwnedSession :=
  (db.samples.get sampleId).bind db.sessions.get

/-- The incidents of a row, through links that were read before. -/
def owners (links : Table UUID OwningLink) : PayloadKey → PayloadRow → List UUID
  | .evidence _, row => ((row.subjectId.bind db.runs.get).map OwnedRun.incidentId).toList
  | .reading sampleId _, _ =>
    match db.sessionOf sampleId with
    | none => []
    | some session =>
      match session.incidentId with
      | some incidentId => [incidentId]
      | none => (session.releaseObservationId.map (linked links)).getD []
  | .releaseQuery sampleId _, _ =>
    (((db.sessionOf sampleId).bind OwnedSession.releaseObservationId).map (linked links)).getD []
  | .comparisonQuery comparisonId _, _ =>
    ((db.comparisons.get comparisonId).map (linked links)).getD []
  | .delivery _, row => row.subjectId.toList

/-- One statement of `_present_rows`. -/
def presentRows (links : Table UUID OwningLink) (table : PayloadTable) : List PresentRow :=
  (db.payloads.select fun key row => key.table = table ∧ row.isPresent).filterMap fun e =>
    PresentRow.of e.1 e.2.rawSha256 (db.owners links e.1 e.2)

/-- The rows of `merged_into_incident_id`. -/
def pointers : List (UUID × UUID) :=
  db.incidents.rows.filterMap fun e => e.2.mergedIntoIncidentId.map (e.1, ·)

/-- The components behind `_merge_groups`. -/
def mergeGroups (incidents : List UUID) : Components UUID :=
  (incidents.foldl Components.add Components.empty).unionAll db.pointers

/-- A generation of the incident is pending. -/
def generationPending (incidentId : UUID) : Bool :=
  (db.knowledge.attempts.rows.any fun e =>
      e.2.incidentId = incidentId ∧ e.2.status = .running) ||
    (db.knowledge.store.jobs.get incidentId).any fun job =>
      job.pendingRegenerationVersion.isSome ∨ job.leaseUntil.any (db.now < ·)

/-- The postmortem is of the incident. -/
def postmortemIs (incidentId postmortemId : UUID) : Bool :=
  (db.knowledge.store.postmortems.get postmortemId).any fun head => head.incidentId = incidentId

/-- A version of the incident's postmortem is under review. -/
def draftUnderReview (incidentId : UUID) : Bool :=
  db.knowledge.store.versions.rows.any fun e =>
    e.2.state = .underReview ∧ db.postmortemIs incidentId e.1.1

/-- A revision sourced from the incident's postmortem is active. -/
def activeKnowledge (incidentId : UUID) : Bool :=
  db.knowledge.store.revisions.rows.any fun e =>
    db.knowledge.store.revisionState e.1.1 e.1.2 = some .active ∧
      db.postmortemIs incidentId e.2.sourcePostmortemId

/-- `_reasons`: whether a code keeps an incident. -/
def blocks (days : ℕ) (incidentId : UUID) : BlockCode → Bool
  | .notClosed => (db.incidents.get incidentId).any fun row => row.lifecycle ≠ .closed
  | .closedAtMissing => (db.incidents.get incidentId).any fun row =>
      row.lifecycle = .closed ∧ row.closedAt = none
  | .withinRetention => (db.incidents.get incidentId).any fun row =>
      row.lifecycle = .closed ∧ row.closedAt.any (db.now - seconds (days * 86400) < ·)
  | .activeRun => db.runs.rows.any fun e =>
      e.2.incidentId = incidentId ∧ e.2.state ∈ activeRunStates
  | .activeObservation => db.sessions.rows.any fun e =>
      e.2.incidentId = some incidentId ∧ e.2.state = .authorized
  | .postmortemGenerationPending => db.generationPending incidentId
  | .draftUnderReview => db.draftUnderReview incidentId
  | .activeKnowledge => db.activeKnowledge incidentId

/-- `_clean`, for each of the rows: the guarded update. -/
def clean (keys : List PayloadKey) : RetentionStore :=
  { db with payloads := db.payloads.update fun key row =>
      if key ∈ keys ∧ row.isPresent then row.clean else row }

end RetentionStore

/-! ## A pass -/

/-- What a transaction of a pass locks. -/
inductive RetentionLock
  | incident (incidentId : UUID) | run (runId : UUID) | session (sessionId : UUID)
  deriving DecidableEq

/-- `RETENTION_DAYS_INVALID`, or a request that its pass does not make: a second scan, a unit it
does not have. -/
inductive RetentionError
  | daysInvalid | outOfTurn
  deriving DecidableEq

/-- What a transaction of a pass answers: it has planned, it found its unit changed, or it cleaned
the rows it could. -/
inductive RetentionAnswer
  | planned
  | changedAfterScan
  | cleaned (keys : List PayloadKey)
  deriving DecidableEq

/-- A transaction of a pass: its scan, or one of its units, where the update of some rows may
fail. -/
inductive RetentionRequest
  | scan (pass : UUID) (days : ℕ)
  | unit (pass : UUID) (index : ℕ) (fails : List PayloadKey)

/-- A program of a pass. -/
abbrev RetentionProgram (α : Type) := Program RetentionStore RetentionLock RetentionError α

/-- A transaction of a pass. -/
abbrev RetentionTransaction :=
  RetentionProgram (RetentionStore → Except RetentionError (RetentionAnswer × RetentionStore))

open Program (committed acquire lift)

/-- `MIN_DAYS`. -/
def minDays : ℕ := 30

/-- `_present_rows`, statement by statement. -/
def presentRows : RetentionProgram (List PresentRow) := do
  let links ← committed
  let evidence ← committed
  let readings ← committed
  let releaseQueries ← committed
  let comparisonQueries ← committed
  let deliveries ← committed
  pure (evidence.presentRows links.links .evidence ++
    readings.presentRows links.links .reading ++
    releaseQueries.presentRows links.links .releaseQuery ++
    comparisonQueries.presentRows links.links .comparisonQuery ++
    deliveries.presentRows links.links .delivery)

/-- `_reasons`, statement by statement. -/
def readReasons (days : ℕ) : RetentionProgram (UUID → List BlockCode) := do
  let incidents ← committed
  let runs ← committed
  let sessions ← committed
  let generation ← committed
  let drafts ← committed
  let knowledge ← committed
  pure fun incidentId => BlockCode.all.filter fun code =>
    (match code with
      | .notClosed | .closedAtMissing | .withinRetention => incidents
      | .activeRun => runs
      | .activeObservation => sessions
      | .postmortemGenerationPending => generation
      | .draftUnderReview => drafts
      | .activeKnowledge => knowledge).blocks days incidentId code

/-- `_scan`: the plan of a pass, which it keeps in memory. -/
def scan (pass : UUID) (days : ℕ) : RetentionTransaction := do
  lift (refuse (days < minDays) .daysInvalid)
  let rows ← presentRows
  let groups ← committed
  let reasons ← readReasons days
  let plan : RetentionPlan :=
    { days, rows, reasons
      groups := groups.mergeGroups (rows.flatMap PresentRow.incidents) }
  pure fun db =>
    if (db.passes.get pass).isSome then .error .outOfTurn
    else .ok (.planned, { db with passes := db.passes.insert pass plan })

/-- The rows of incidents, one lock after the other. -/
def lockIncidents : List UUID → RetentionProgram Unit
  | [] => pure ()
  | incidentId :: rest => do
    let _ ← acquire [.incident incidentId]
    lockIncidents rest

/-- `_lock`: the incidents in the order of their ids, then their Runs, then their sessions. -/
def lockUnit (incidents : List UUID) : RetentionProgram Unit := do
  lockIncidents (incidents.insertionSort (· ≤ ·))
  let runs ← committed
  let _ ← acquire ((runs.runs.select fun _ run => run.incidentId ∈ incidents).map (.run ·.1))
  let sessions ← committed
  let _ ← acquire ((sessions.sessions.select fun _ session =>
    ∃ i ∈ incidents, session.incidentId = some i).map (.session ·.1))
  pure ()

/-- `_apply_unit`: lock, read everything again, clean row by row. -/
def applyUnit (pass : UUID) (index : ℕ) (fails : List PayloadKey) : RetentionTransaction := do
  let memory ← committed
  let plan ← lift (require (memory.passes.get pass) .outOfTurn)
  let unit ← lift (require (plan.units plan.ready)[index]? .outOfTurn)
  lockUnit unit.incidents
  let groups ← committed
  let members := (groups.mergeGroups unit.incidents).closure unit.incidents.toFinset
  let reasons ← readReasons plan.days
  if members ≠ unit.incidents.toFinset ∨ ∃ m ∈ members, reasons m ≠ [] then
    pure fun db => .ok (.changedAfterScan, db)
  else
    let keys := (unit.rows.map PresentRow.key).filter (· ∉ fails)
    pure fun db => .ok (.cleaned (keys.filter fun key =>
      (db.payloads.get key).any PayloadRow.isPresent), db.clean keys)

/-- The transactions of passes. -/
def RetentionRequest.program : RetentionRequest → RetentionTransaction
  | scan pass days => OpsPilot.scan pass days
  | unit pass index fails => applyUnit pass index fails

/-! ## What the units are -/

namespace RetentionPlan

variable {plan : RetentionPlan} {rows : List PresentRow} {row : PresentRow} {unit : CleaningUnit}

theorem mem_group {i m : UUID} :
    m ∈ plan.group i ↔ m ∈ plan.groups.keys ∧ plan.groups.find m = plan.groups.find i :=
  plan.groups.mem_members

/-- The incidents of every row have a group. -/
def Grouped (plan : RetentionPlan) (rows : List PresentRow) : Prop :=
  ∀ row ∈ rows, ∀ i ∈ row.incidents, i ∈ plan.groups.keys

theorem mem_units :
    unit ∈ plan.units rows ↔ ∃ root, (∃ row ∈ rows, (plan.joined rows).find row.first = root) ∧
      unit = { incidents := (plan.joined rows).members root
               rows := rows.filter fun row => (plan.joined rows).find row.first = root } := by
  simp only [units, List.mem_map, List.mem_insertionSort, List.mem_dedup, eq_comm]

/-- What a row joins is in one component. -/
theorem find_joined (hrow : row ∈ rows) {i : UUID} (hi : i ∈ plan.group row.first ++ row.others)
    {m : UUID} (hm : m = i ∨ m ∈ plan.group i) :
    m ∈ (plan.joined rows).keys ∧
      (plan.joined rows).find row.first = (plan.joined rows).find m := by
  have hpair : (row.first, m) ∈ rows.flatMap plan.joins := by
    refine List.mem_flatMap.2 ⟨row, hrow, List.mem_flatMap.2 ⟨i, hi, ?_⟩⟩
    rcases hm with rfl | hm
    · exact List.mem_cons_self
    · exact List.mem_cons_of_mem _ (List.mem_map.2 ⟨m, hm, rfl⟩)
  exact ⟨(Components.mem_keys_unionAll _).2 (.inr ⟨_, hpair, .inr rfl⟩),
    Components.find_of_mem _ hpair⟩

/-- **A row's incidents, and the merge groups they are in, belong to its unit.** -/
theorem mem_incidents (hgrouped : plan.Grouped rows) (hunit : unit ∈ plan.units rows)
    (hrow : row ∈ unit.rows) {i m : UUID} (hi : i ∈ row.incidents) (hm : m ∈ plan.group i) :
    m ∈ unit.incidents := by
  obtain ⟨root, -, rfl⟩ := mem_units.1 hunit
  obtain ⟨hrow, hroot⟩ := List.mem_filter.1 hrow
  have hfirst : row.first ∈ plan.group row.first :=
    mem_group.2 ⟨hgrouped row hrow _ List.mem_cons_self, rfl⟩
  have hmem : i ∈ plan.group row.first ++ row.others := by
    rcases List.mem_cons.1 hi with rfl | hi
    · exact List.mem_append_left _ hfirst
    · exact List.mem_append_right _ hi
  obtain ⟨hkey, hfind⟩ := find_joined hrow hmem (.inr hm)
  rw [Components.mem_members]
  exact ⟨hkey, hfind.symm.trans (of_decide_eq_true hroot)⟩

/-- An incident of a row is one of its unit's. -/
theorem owner_mem_incidents (hgrouped : plan.Grouped rows) (hunit : unit ∈ plan.units rows)
    (hrow : row ∈ unit.rows) {i : UUID} (hi : i ∈ row.incidents) : i ∈ unit.incidents := by
  obtain ⟨root, -, rfl⟩ := mem_units.1 hunit
  have hmem := (List.mem_filter.1 hrow).1
  exact mem_incidents hgrouped hunit hrow hi (mem_group.2 ⟨hgrouped row hmem i hi, rfl⟩)

/-- The incidents of a unit all have a group. -/
theorem mem_keys_of_unit (hgrouped : plan.Grouped rows) (hunit : unit ∈ plan.units rows) {m : UUID}
    (hm : m ∈ unit.incidents) : m ∈ plan.groups.keys := by
  obtain ⟨root, -, rfl⟩ := mem_units.1 hunit
  obtain ⟨hkey, -⟩ := Components.mem_members _ |>.1 hm
  rcases (Components.mem_keys_unionAll _).1 hkey with hempty | ⟨pair, hpair, hm⟩
  · exact absurd hempty List.not_mem_nil
  · obtain ⟨row, hrow, hpair⟩ := List.mem_flatMap.1 hpair
    obtain ⟨i, hi, hpair⟩ := List.mem_flatMap.1 hpair
    have hfirst := hgrouped row hrow _ List.mem_cons_self
    have hkey : i ∈ plan.groups.keys := by
      rcases List.mem_append.1 hi with hi | hi
      · exact (mem_group.1 hi).1
      · exact hgrouped row hrow i (List.mem_cons_of_mem _ hi)
    rcases List.mem_cons.1 hpair with rfl | hpair
    · rcases hm with rfl | rfl
      · exact hfirst
      · exact hkey
    · obtain ⟨n, hn, rfl⟩ := List.mem_map.1 hpair
      rcases hm with rfl | rfl
      · exact hfirst
      · exact (mem_group.1 hn).1

/-- The rows of a unit are rows that were planned. -/
theorem mem_rows_of_unit (hunit : unit ∈ plan.units rows) (hrow : row ∈ unit.rows) :
    row ∈ rows := by
  obtain ⟨root, -, rfl⟩ := mem_units.1 hunit
  exact (List.mem_filter.1 hrow).1

/-- **Every row is in exactly one unit.** -/
theorem existsUnique_unit (hrow : row ∈ rows) :
    ∃! index : ℕ, ∃ unit : CleaningUnit,
      (plan.units rows)[index]? = some unit ∧ row ∈ unit.rows := by
  set sets := plan.joined rows with hsets
  set roots := (rows.map fun row => sets.find row.first).dedup.insertionSort (· ≤ ·) with hroots
  have hnodup : roots.Nodup :=
    (List.perm_insertionSort _ _).nodup_iff.2 (List.nodup_dedup _)
  have hmem : sets.find row.first ∈ roots := by
    rw [hroots, List.mem_insertionSort, List.mem_dedup]
    exact List.mem_map_of_mem hrow
  have hget : ∀ (index : ℕ) (unit : CleaningUnit),
      (plan.units rows)[index]? = some unit ∧ row ∈ unit.rows ↔
      roots[index]? = some (sets.find row.first) ∧
        unit =
          { incidents := sets.members (sets.find row.first)
            rows := rows.filter fun other =>
              sets.find other.first = sets.find row.first } := by
    intro index unit
    simp only [units, ← hsets, ← hroots, List.getElem?_map, Option.map_eq_some_iff]
    constructor
    · rintro ⟨⟨root, hroot, rfl⟩, hin⟩
      have heq : sets.find row.first = root := of_decide_eq_true (List.mem_filter.1 hin).2
      exact ⟨heq ▸ hroot, by rw [heq]⟩
    · rintro ⟨hroot, rfl⟩
      exact ⟨⟨_, hroot, rfl⟩, List.mem_filter.2 ⟨hrow, decide_eq_true rfl⟩⟩
  obtain ⟨index, hindex⟩ := List.mem_iff_getElem?.1 hmem
  refine ⟨index, ⟨_, (hget index _).2 ⟨hindex, rfl⟩⟩, ?_⟩
  rintro other ⟨unit, hunit⟩
  obtain ⟨hother, -⟩ := (hget other unit).1 hunit
  obtain ⟨hlt, hindex⟩ := List.getElem?_eq_some_iff.1 hindex
  obtain ⟨hlt', hother⟩ := List.getElem?_eq_some_iff.1 hother
  exact (hnodup.getElem_inj_iff).1 (hother.trans hindex.symm)

end RetentionPlan

end OpsPilot
