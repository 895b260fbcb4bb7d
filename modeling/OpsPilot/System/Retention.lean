import OpsPilot.Retention.Writes

/-!
# Retention under concurrency

Passes of retention run next to everybody else, statement by statement. What protects a cleaning are
the row locks of its unit's incidents, their Runs and their sessions: once they are held, nothing
that the unit has read again can turn against it before the commit.

* `UnitHeld`: the locks of a unit.
* `RetentionStore.Cleanable`, `RetentionStore.Closed`: what a unit has established at its commit.
* **`RetentionStore.retention_cleans`**: only what may be cleaned is cleaned.
-/

namespace OpsPilot

open Program (committed acquire lift)

/-! ## What a unit establishes -/

variable {key : PayloadKey}

namespace RetentionStore

/-- An incident that may be cleaned: it is closed for the days at least, and nothing keeps it. -/
structure Cleanable (db : RetentionStore) (days : ℕ) (incidentId : UUID) : Prop where
  closed : ∃ row closedAt, db.incidents.get incidentId = some row ∧ row.lifecycle = .closed ∧
    row.closedAt = some closedAt ∧ closedAt + seconds (days * 86400) ≤ db.now
  free : ∀ code, db.blocks days incidentId code = false

/-- One incident points at the other. -/
def Points (db : RetentionStore) (source target : UUID) : Prop :=
  ∃ row, db.incidents.get source = some row ∧ row.mergedIntoIncidentId = some target

/-- The incidents are in one merge group: pointers lead from one to the other, either way. -/
def SameGroup (db : RetentionStore) : UUID → UUID → Prop := Relation.EqvGen db.Points

/-- No pointer leads into the incidents, or out of them. -/
def Closed (db : RetentionStore) (incidents : List UUID) : Prop :=
  ∀ {x y}, db.Points x y → (x ∈ incidents ↔ y ∈ incidents)

/-- A row of a scan is of a stored row, and has its incidents. -/
def Planned (db : RetentionStore) (row : PresentRow) : Prop :=
  ∃ stored, db.payloads.get row.key = some stored ∧
    ∀ i, i ∈ db.owners db.links row.key stored ↔ i ∈ row.incidents

variable {db db' : RetentionStore}

/-- Nothing keeps an incident that is there. -/
theorem cleanable_of_free {days : ℕ} {i : UUID} (hknown : db.known i)
    (hfree : ∀ code, db.blocks days i code = false) : db.Cleanable days i := by
  obtain ⟨row, hrow⟩ := known_iff.1 hknown
  have hclosed := hfree .notClosed
  have hmissing := hfree .closedAtMissing
  have hrecent := hfree .withinRetention
  simp only [blocks, hrow, Option.any_some, decide_eq_false_iff_not, not_and, not_not]
    at hclosed hmissing hrecent
  obtain ⟨closedAt, hat⟩ := Option.ne_none_iff_exists'.1 (hmissing hclosed)
  refine ⟨⟨row, closedAt, hrow, hclosed, hat, ?_⟩, hfree⟩
  have hnot := hrecent hclosed
  simp only [hat, Option.any_some, decide_eq_true_eq, not_lt] at hnot
  exact le_sub_iff_add_le.1 hnot

variable {o x y : UUID} {links links' : Table UUID OwningLink} {ids : List UUID}

/-- A merge group stays within the incidents that no pointer leaves. -/
theorem Closed.mem_of_sameGroup {incidents : List UUID} (h : db.Closed incidents) {m : UUID}
    (hgroup : db.SameGroup o m) : o ∈ incidents ↔ m ∈ incidents := by
  induction hgroup with
  | rel x y hpoints => exact h hpoints
  | refl x => exact Iff.rfl
  | symm x y _ ih => exact ih.symm
  | trans x y z _ _ ihxy ihyz => exact ihxy.trans ihyz

/-! ## The rows of a plan -/

/-- The links that were there stay. -/
def LinksKept (links links' : Table UUID OwningLink) : Prop :=
  ∀ {o link}, links.get o = some link → links'.get o = some link

theorem linked_kept (h : LinksKept links links') (hne : linked links o ≠ []) :
    linked links' o = linked links o := by
  unfold linked at hne ⊢
  cases hget : links.get o with
  | none => simp [hget] at hne
  | some link => rw [h hget]

theorem sessionOf_grows (h : db.Grows db') {sampleId : UUID} {session : OwnedSession}
    (hsession : db.sessionOf sampleId = some session) :
    ∃ session', db'.sessionOf sampleId = some session' ∧
      session'.incidentId = session.incidentId ∧
      session'.releaseObservationId = session.releaseObservationId := by
  obtain ⟨s, hs, hget⟩ := Option.bind_eq_some_iff.1 hsession
  obtain ⟨session', hget', hsame⟩ := h.sessions hget
  exact ⟨session', Option.bind_eq_some_iff.2 ⟨s, h.samples hs, hget'⟩, hsame⟩

/-- **The incidents of a row stay its incidents**, once it has some. -/
theorem owners_kept (h : db.Grows db') (hlinks : LinksKept links links') {row row' : PayloadRow}
    (hsubject : row'.subjectId = row.subjectId) (hne : db.owners links key row ≠ []) :
    db'.owners links' key row' = db.owners links key row := by
  cases key with
  | evidence evidenceId =>
    simp only [owners, hsubject] at hne ⊢
    cases hrun : row.subjectId.bind db.runs.get with
    | none => simp [hrun] at hne
    | some run =>
      obtain ⟨r, hr, hget⟩ := Option.bind_eq_some_iff.1 hrun
      obtain ⟨run', hget', hsame⟩ := h.runs hget
      rw [Option.bind_eq_some_iff.2 ⟨r, hr, hget'⟩, Option.map_some, Option.map_some, hsame]
  | reading sampleId signalName =>
    simp only [owners] at hne ⊢
    cases hsession : db.sessionOf sampleId with
    | none => simp [hsession] at hne
    | some session =>
      obtain ⟨session', hsession', hincident, hrelease⟩ := sessionOf_grows h hsession
      simp only [hsession, hsession', hincident, hrelease] at hne ⊢
      cases hi : session.incidentId with
      | some i => rfl
      | none =>
        simp only [hi] at hne ⊢
        cases ho : session.releaseObservationId with
        | none => simp [ho] at hne
        | some o =>
          simp only [ho, Option.map_some, Option.getD_some] at hne ⊢
          exact linked_kept hlinks hne
  | releaseQuery sampleId queryKey =>
    simp only [owners] at hne ⊢
    cases hsession : db.sessionOf sampleId with
    | none => simp [hsession] at hne
    | some session =>
      obtain ⟨session', hsession', -, hrelease⟩ := sessionOf_grows h hsession
      simp only [hsession, hsession', Option.bind_some, hrelease] at hne ⊢
      cases ho : session.releaseObservationId with
      | none => simp [ho] at hne
      | some o =>
        simp only [ho, Option.map_some, Option.getD_some] at hne ⊢
        exact linked_kept hlinks hne
  | comparisonQuery comparisonId queryKey =>
    simp only [owners] at hne ⊢
    cases hc : db.comparisons.get comparisonId with
    | none => simp [hc] at hne
    | some o =>
      simp only [hc, h.comparisons hc, Option.map_some, Option.getD_some] at hne ⊢
      exact linked_kept hlinks hne
  | delivery deliveryId => simp only [owners, hsubject]

theorem PresentRow.of_incidents {hash : Option String} {row : PresentRow}
    (h : PresentRow.of key hash ids = some row) :
    row.key = key ∧ ∀ i, i ∈ ids ↔ i ∈ row.incidents := by
  unfold PresentRow.of at h
  split at h
  · cases h
  · next first others heq =>
    obtain rfl := Option.some.inj h
    refine ⟨rfl, fun i => ?_⟩
    show i ∈ ids ↔ i ∈ first :: others
    rw [← heq, List.mem_insertionSort, List.mem_dedup]

/-- A planned row stays planned. -/
theorem Planned.grows {row : PresentRow} (h : db.Planned row) (hgrows : db.Grows db') :
    db'.Planned row := by
  obtain ⟨stored, hstored, howners⟩ := h
  obtain ⟨stored', hstored', hkept⟩ := hgrows.payloads hstored
  have hne : db.owners db.links row.key stored ≠ [] := by
    intro hnil
    have hmem := (howners row.first).2 List.mem_cons_self
    rw [hnil] at hmem
    cases hmem
  refine ⟨stored', hstored', fun i => ?_⟩
  rw [owners_kept hgrows (fun h => hgrows.links h) hkept.subject hne]
  exact howners i

/-- A statement of the scan reads rows that are there, even with links that were read before. -/
theorem planned_of_mem {table : PayloadTable} {row : PresentRow} (hlinks : LinksKept links db.links)
    (h : row ∈ db.presentRows links table) :
    db.Planned row := by
  obtain ⟨⟨key, stored⟩, hmem, hof⟩ := List.mem_filterMap.1 h
  obtain ⟨hget, -⟩ := Table.mem_select_iff.1 hmem
  obtain ⟨rfl, howners⟩ := PresentRow.of_incidents hof
  refine ⟨stored, hget, fun i => ?_⟩
  have hne : db.owners links row.key stored ≠ [] := by
    intro hnil
    have hfirst := (howners row.first).2 List.mem_cons_self
    dsimp only at hfirst
    rw [hnil] at hfirst
    cases hfirst
  rw [owners_kept (Grows.refl db) hlinks rfl hne]
  exact howners i

theorem mem_linked {i : UUID} (h : i ∈ linked links o) :
    ∃ link, links.get o = some link ∧ i ∈ link.incidents := by
  unfold linked at h
  cases hget : links.get o with
  | none => simp [hget] at h
  | some link => exact ⟨link, rfl, by simpa [hget, OwningLink.incidents] using h⟩

/-- The incidents of a stored row are there. -/
theorem Consistent.owner_known (h : db.Consistent) {row : PayloadRow} {i : UUID}
    (hrow : db.payloads.get key = some row) (hi : i ∈ db.owners db.links key row) :
    db.known i := by
  have hlinked : ∀ {o : Option UUID}, i ∈ (o.map (linked db.links)).getD [] → db.known i := by
    intro o ho
    cases o with
    | none => cases ho
    | some o =>
      obtain ⟨link, hlink, hi⟩ := mem_linked ho
      exact h.links hlink hi
  cases key with
  | evidence evidenceId =>
    simp only [owners, Option.mem_toList, Option.map_eq_some_iff, Option.bind_eq_some_iff] at hi
    obtain ⟨run, ⟨r, -, hrun⟩, rfl⟩ := hi
    exact h.runs hrun
  | reading sampleId signalName =>
    simp only [owners] at hi
    split at hi
    · cases hi
    · next session hsession =>
      split at hi
      · next j hj =>
        obtain rfl := List.mem_singleton.1 hi
        obtain ⟨s, -, hget⟩ := Option.bind_eq_some_iff.1 hsession
        exact h.sessions hget hj
      · exact hlinked hi
  | releaseQuery sampleId queryKey => exact hlinked hi
  | comparisonQuery comparisonId queryKey => exact hlinked hi
  | delivery deliveryId => exact h.deliveries hrow (Option.mem_toList.1 hi)

/-! ## The merge groups -/

theorem mem_pointers : (x, y) ∈ db.pointers ↔ db.Points x y := by
  simp only [pointers, List.mem_filterMap, Option.map_eq_some_iff, Prod.mk.injEq, Prod.exists,
    Table.mem_rows_iff, Points]
  constructor
  · rintro ⟨i, row, hrow, j, htarget, rfl, rfl⟩
    exact ⟨row, hrow, htarget⟩
  · rintro ⟨row, hrow, htarget⟩
    exact ⟨x, row, hrow, y, htarget, rfl, rfl⟩

theorem mem_keys_addAll {s : Components UUID} {i : UUID} :
    i ∈ (ids.foldl Components.add s).keys ↔ i ∈ ids ∨ i ∈ s.keys := by
  induction ids generalizing s with
  | nil => simp
  | cons j rest ih =>
    rw [List.foldl_cons, ih, Components.mem_keys_add, List.mem_cons]
    tauto

/-- The keys of the groups: the incidents that are asked for, and the ends of pointers. -/
theorem mem_keys_mergeGroups {i : UUID} :
    i ∈ (db.mergeGroups ids).keys ↔ i ∈ ids ∨ ∃ x y, db.Points x y ∧ (i = x ∨ i = y) := by
  rw [mergeGroups, Components.mem_keys_unionAll, mem_keys_addAll]
  simp only [Components.empty, List.not_mem_nil, or_false, Prod.exists, mem_pointers]

/-- **The incidents are closed** when their groups have no other member. -/
theorem closed_of_closure (h : (db.mergeGroups ids).closure ids.toFinset = ids.toFinset) :
    db.Closed ids := by
  intro x y hpoints
  have hfind : (db.mergeGroups ids).find x = (db.mergeGroups ids).find y :=
    Components.find_of_mem _ (mem_pointers.2 hpoints)
  have hkeys : x ∈ (db.mergeGroups ids).keys ∧ y ∈ (db.mergeGroups ids).keys :=
    ⟨mem_keys_mergeGroups.2 (.inr ⟨x, y, hpoints, .inl rfl⟩),
      mem_keys_mergeGroups.2 (.inr ⟨x, y, hpoints, .inr rfl⟩)⟩
  have hmem : ∀ {a}, a ∈ ids ↔ a ∈ (db.mergeGroups ids).closure ids.toFinset := by
    intro a
    rw [h, List.mem_toFinset]
  constructor
  · intro hx
    exact hmem.2 (Components.mem_closure _ |>.2 ⟨hkeys.2, x, List.mem_toFinset.2 hx, hfind⟩)
  · intro hy
    exact hmem.2 (Components.mem_closure _ |>.2 ⟨hkeys.1, y, List.mem_toFinset.2 hy, hfind.symm⟩)

theorem Consistent.point_known (h : db.Consistent) (hpoints : db.Points x y) :
    db.known x ∧ db.known y := by
  obtain ⟨row, hrow, htarget⟩ := hpoints
  exact ⟨known_iff.2 ⟨row, hrow⟩, h.merged hrow htarget⟩

end RetentionStore

/-! ## The service -/

/-- The passes of retention, next to the transactions of anybody else. -/
def retentionPasses : Service RetentionStore RetentionLock RetentionError RetentionAnswer
    RetentionRequest (List RetentionWrite) where
  program := RetentionRequest.program
  Init db := db = {}
  Other db writes db' := db.commit writes = some db'
  Spares := RetentionStore.Spares

open RetentionStore

/-- **A transaction that needs no lock that a pass holds** may commit. -/
theorem retentionPasses_other {w : World RetentionStore RetentionLock RetentionError RetentionAnswer
    RetentionRequest} {writes : List RetentionWrite} {db : RetentionStore}
    (h : w.db.commit writes = some db)
    (hfree : ∀ i task, w.tasks i = some task → ∀ l ∈ task.held, l ∉ w.db.locksOfAll writes) :
    retentionPasses.system.Step w (.other writes) { w with db } :=
  .other h fun i task htask l hl => commit_spares h (hfree i task htask l hl)

/-- What a plan says of the database, as long as nothing is taken back. -/
structure RetentionPlan.Sound (plan : RetentionPlan) (db : RetentionStore) : Prop where
  days : minDays ≤ plan.days
  planned : ∀ row ∈ plan.rows, db.Planned row
  grouped : plan.Grouped plan.rows
  known : ∀ i ∈ plan.groups.keys, db.known i

/-- The foreign keys hold, and every plan in memory is sound. -/
structure PlansSound (db : RetentionStore) : Prop where
  consistent : db.Consistent
  plans : ∀ {pass plan}, db.passes.get pass = some plan → plan.Sound db

/-- What the commit of a pass does, said of the database it is made on. -/
inductive RetentionDone (db : RetentionStore) :
    RetentionRequest → RetentionAnswer → RetentionStore → Prop
  | planned {pass days plan} (hnew : db.passes.get pass = none) (hplan : plan.Sound db) :
      RetentionDone db (.scan pass days) .planned { db with passes := db.passes.insert pass plan }
  | changed {pass index fails} : RetentionDone db (.unit pass index fails) .changedAfterScan db
  | cleaned {pass index fails plan unit answer} (hplan : db.passes.get pass = some plan)
      (hunit : (plan.units plan.ready)[index]? = some unit)
      (hcleanable : ∀ i ∈ unit.incidents, db.Cleanable plan.days i)
      (hclosed : db.Closed unit.incidents) :
      RetentionDone db (.unit pass index fails) answer
        (db.clean ((unit.rows.map PresentRow.key).filter (· ∉ fails)))

variable {db db' s t : RetentionStore} {held : List RetentionLock}

theorem RetentionPlan.Sound.grows {plan : RetentionPlan} (h : plan.Sound db)
    (hgrows : db.Grows db') : plan.Sound db' where
  days := h.days
  planned row hrow := (h.planned row hrow).grows hgrows
  grouped := h.grouped
  known i hi := hgrows.known (h.known i hi)

theorem PlansSound.step (h : PlansSound db) (hconsistent : db'.Consistent) (hgrows : db.Grows db')
    (hpasses : ∀ {pass plan}, db'.passes.get pass = some plan →
      db.passes.get pass = some plan ∨ plan.Sound db) : PlansSound db' where
  consistent := hconsistent
  plans hget := (hpasses hget).elim (fun hold => (h.plans hold).grows hgrows)
    fun hnew => hnew.grows hgrows

/-- What a pass relies on between its statements. -/
abbrev RetentionRely : List RetentionLock → RetentionStore → RetentionStore → Prop :=
  retentionPasses.Rely PlansSound RetentionStore.Grows

theorem retentionPasses_lawful : retentionPasses.Lawful RetentionStore.Grows where
  grows_refl := .refl
  grows_trans := .trans
  refl := spares_refl
  trans := spares_trans

theorem retention_stable : Program.Stable RetentionRely := retentionPasses_lawful.stable

/-! ## A unit between its statements -/

/-- **The locks of a unit**: its incidents, their Runs and their sessions. -/
structure UnitHeld (incidents : List UUID) (held : List RetentionLock) (db : RetentionStore) :
    Prop where
  known : ∀ i ∈ incidents, db.known i
  rows : ∀ i ∈ incidents, .incident i ∈ held
  runs : ∀ {r run}, db.runs.get r = some run → run.incidentId ∈ incidents → .run r ∈ held
  sessions : ∀ {s session i}, db.sessions.get s = some session → session.incidentId = some i →
    i ∈ incidents → .session s ∈ held

namespace UnitHeld

variable {incidents : List UUID}

theorem spares (h : UnitHeld incidents held s) (hst : RetentionRely held s t) {i : UUID}
    (hi : i ∈ incidents) : SparesIncident i s t := hst.spares _ (h.rows i hi)

/-- No Run and no session of the incidents is new. -/
theorem rely (h : UnitHeld incidents held s) (hst : RetentionRely held s t) :
    UnitHeld incidents held t where
  known i hi := hst.grows.known (h.known i hi)
  rows := h.rows
  runs hrun hi := by
    obtain ⟨old, hold, hsame⟩ := (h.spares hst hi).runs hrun rfl
    exact h.runs hold (hsame ▸ hi)
  sessions hsession hincident hi := by
    obtain ⟨old, hold, hsame⟩ := (h.spares hst hi).sessions hsession hincident
    exact h.sessions hold hsame hi

/-- The row of a locked incident is as it was. -/
theorem row (h : UnitHeld incidents held s) (hst : RetentionRely held s t) {i : UUID}
    (hi : i ∈ incidents) : t.incidents.get i = s.incidents.get i := by
  obtain ⟨row, hrow⟩ := known_iff.1 (h.known i hi)
  rw [hrow, (h.spares hst hi).row hrow]

/-- A postmortem of the incident. -/
theorem postmortemIs_iff {i id : UUID} :
    db.postmortemIs i id = true ↔ db.knowledge.store.Heads id i := by
  simp [postmortemIs, Knowledge.Store.Heads, Option.any_eq_true]

/-- **What keeps an incident was there before**: behind the locks nothing turns against a
cleaning. -/
theorem blocks_before (h : UnitHeld incidents held s) (hst : RetentionRely held s t) {i : UUID}
    (hi : i ∈ incidents) {days : ℕ} {code : BlockCode} (hblocks : t.blocks days i code = true) :
    s.blocks days i code = true := by
  have hrow := h.row hst hi
  have hspares := h.spares hst hi
  have hnow := hst.grows.now
  cases code with
  | notClosed | closedAtMissing => simpa only [blocks, hrow] using hblocks
  | withinRetention =>
    simp only [blocks, hrow, Option.any_eq_true, decide_eq_true_eq] at hblocks ⊢
    obtain ⟨row, hget, hclosed, closedAt, hat, hlt⟩ := hblocks
    exact ⟨row, hget, hclosed, closedAt, hat, (sub_le_sub_right hnow _).trans_lt hlt⟩
  | activeRun =>
    simp only [blocks, List.any_eq_true, Prod.exists, Table.mem_rows_iff, decide_eq_true_eq]
      at hblocks ⊢
    obtain ⟨r, run, hrun, hincident, hactive⟩ := hblocks
    obtain ⟨old, hold, hsame⟩ := hspares.runs hrun hincident
    have hkept := hst.spares _ (h.runs hold (hsame ▸ hi)) old hold
    obtain rfl := Option.some.inj (hkept.symm.trans hrun)
    exact ⟨r, _, hold, hincident, hactive⟩
  | activeObservation =>
    simp only [blocks, List.any_eq_true, Prod.exists, Table.mem_rows_iff, decide_eq_true_eq]
      at hblocks ⊢
    obtain ⟨id, session, hsession, hincident, hactive⟩ := hblocks
    obtain ⟨old, hold, hsame⟩ := hspares.sessions hsession hincident
    have hkept := hst.spares _ (h.sessions hold hsame hi) old hold
    obtain rfl := Option.some.inj (hkept.symm.trans hsession)
    exact ⟨id, _, hold, hincident, hactive⟩
  | postmortemGenerationPending =>
    simp only [blocks, generationPending, Bool.or_eq_true, List.any_eq_true, Prod.exists,
      Table.mem_rows_iff, Option.any_eq_true, decide_eq_true_eq] at hblocks ⊢
    rcases hblocks with ⟨a, attempt, hattempt, hincident, hrunning⟩ | ⟨job, hjob, hpending | hlease⟩
    · obtain ⟨old, hold, hsame, hwas⟩ := hspares.knowledge.running hattempt hincident hrunning
      exact .inl ⟨a, old, hold, hsame, hwas⟩
    · obtain ⟨old, hold, hwas⟩ := hspares.knowledge.store.pending hjob hpending
      exact .inr ⟨old, hold, .inl hwas⟩
    · obtain ⟨until_, huntil, hlt⟩ := hlease
      obtain ⟨old, hold, hwas⟩ := hspares.knowledge.store.lease hjob huntil
      exact .inr ⟨old, hold, .inr ⟨until_, hwas, hnow.trans_lt hlt⟩⟩
  | draftUnderReview =>
    simp only [blocks, RetentionStore.draftUnderReview, List.any_eq_true, Prod.exists,
      Table.mem_rows_iff, decide_eq_true_eq, postmortemIs_iff] at hblocks ⊢
    obtain ⟨id, n, row, hget, hstate, hheads⟩ := hblocks
    obtain ⟨old, hold, hwas⟩ := hspares.knowledge.store.versions hheads hget hstate
    exact ⟨id, n, old, hold, hwas, hspares.knowledge.store.heads hheads⟩
  | activeKnowledge =>
    simp only [blocks, RetentionStore.activeKnowledge, List.any_eq_true, Prod.exists,
      Table.mem_rows_iff, decide_eq_true_eq, postmortemIs_iff] at hblocks ⊢
    obtain ⟨id, n, row, hget, hactive, hheads⟩ := hblocks
    obtain ⟨hold, hwas⟩ := hspares.knowledge.store.revisions hget hheads hactive
    exact ⟨id, n, row, hold, hwas, hspares.knowledge.store.heads hheads⟩

/-- Nor does a pointer lead into the incidents, or out of them. -/
theorem closed (h : UnitHeld incidents held s) (hst : RetentionRely held s t)
    (hclosed : s.Closed incidents) : t.Closed incidents := by
  intro x y hpoints
  obtain ⟨row, hrow, htarget⟩ := hpoints
  by_cases hy : y ∈ incidents
  · obtain ⟨old, hold, hsame⟩ := (h.spares hst hy).pointers hrow htarget
    exact hclosed ⟨old, hold, hsame⟩
  · by_cases hx : x ∈ incidents
    · rw [h.row hst hx] at hrow
      exact hclosed ⟨row, hrow, htarget⟩
    · exact iff_of_false hx hy

end UnitHeld

/-! ## The programs of a pass -/

section Programs

/-- Every incident is locked, after the others. -/
theorem lockIncidents_sound (ids : List UUID) (held : List RetentionLock) (s : RetentionStore) :
    (lockIncidents ids).Sound RetentionRely (fun held' _ _ => (∀ i ∈ ids, .incident i ∈ held') ∧
      ∀ l ∈ held, l ∈ held') held s := by
  induction ids generalizing held s with
  | nil => exact fun t _ => ⟨fun i hi => (List.not_mem_nil hi).elim, fun l hl => hl⟩
  | cons i rest ih =>
    refine .acquire_bind fun t _ => (ih _ t).mono fun held' u _ hall => ?_
    obtain ⟨hrest, hkept⟩ := hall
    refine ⟨fun j hj => ?_, fun l hl => hkept l (List.mem_append_right _ hl)⟩
    rcases List.mem_cons.1 hj with rfl | hj
    · exact hkept _ (List.mem_append_left _ (List.mem_singleton_self _))
    · exact hrest j hj

/-- A unit has its locks when it has locked. -/
theorem lockUnit_sound {incidents : List UUID} (hknown : ∀ i ∈ incidents, s.known i)
    (hs : RetentionRely held s s) :
    (lockUnit incidents).Sound RetentionRely (fun held t _ => UnitHeld incidents held t)
      held s := by
  have hframe := (lockIncidents_sound (incidents.insertionSort (· ≤ ·)) held s).frame
    (F := fun (_ : List RetentionLock) (t : RetentionStore) => ∀ i ∈ incidents, t.known i)
    (fun hF hab i hi => hab.grows.known (hF i hi)) (fun {locks held a} hF => hF) hknown
  unfold lockUnit
  refine .bind retention_stable (hframe.mono fun held₁ s₁ _ hlocked => ?_) hs
  obtain ⟨⟨hsorted, -⟩, hknown⟩ := hlocked
  have hrows : ∀ i ∈ incidents, .incident i ∈ held₁ := fun i hi =>
    hsorted i ((List.mem_insertionSort _).2 hi)
  refine .committed_bind fun s₂ h₂ => .acquire_bind fun s₃ h₃ => .committed_bind fun s₄ h₄ =>
    .acquire_bind fun s₅ h₅ t ht => ?_
  have hspares : ∀ i ∈ incidents, SparesIncident i s₂ s₄ ∧ SparesIncident i s₄ t := by
    intro i hi
    have hmem : ∀ {locks}, .incident i ∈ locks ++ held₁ := List.mem_append_right _ (hrows i hi)
    refine ⟨spares_trans (h₃.spares _ (hrows i hi)) (h₄.spares _ hmem),
      spares_trans (h₅.spares _ hmem) (ht.spares _ (List.mem_append_right _ hmem))⟩
  refine
    { known := fun i hi => ?_
      rows := fun i hi => List.mem_append_right _ (List.mem_append_right _ (hrows i hi))
      runs := fun {r run} hrun hi => ?_
      sessions := fun {id session i} hsession hincident hi => ?_ }
  · have hgrows := ((h₂.grows.trans h₃.grows).trans h₄.grows).trans (h₅.grows.trans ht.grows)
    exact hgrows.known (hknown i hi)
  · obtain ⟨run₄, hrun₄, hsame₄⟩ := (hspares _ hi).2.runs hrun rfl
    obtain ⟨run₂, hrun₂, hsame₂⟩ := (hspares _ hi).1.runs hrun₄ hsame₄
    refine List.mem_append_right _ (List.mem_append_left _ (List.mem_map.2 ⟨(r, run₂), ?_, rfl⟩))
    exact Table.mem_select_iff.2 ⟨hrun₂, by rw [hsame₂]; exact decide_eq_true hi⟩
  · obtain ⟨session₄, hsession₄, hsame₄⟩ := (hspares i hi).2.sessions hsession hincident
    refine List.mem_append_left _ (List.mem_map.2 ⟨(id, session₄), ?_, rfl⟩)
    exact Table.mem_select_iff.2 ⟨hsession₄, decide_eq_true ⟨i, hi, hsame₄⟩⟩

/-- The reasons that were read are all that there are. -/
theorem readReasons_sound {incidents : List UUID} (days : ℕ) (h : UnitHeld incidents held s) :
    (readReasons days).Sound RetentionRely (fun held t reasons => UnitHeld incidents held t ∧
      ∀ i ∈ incidents, reasons i = [] → ∀ code, t.blocks days i code = false) held s := by
  refine .committed_bind fun s₁ h₁ => .committed_bind fun s₂ h₂ => .committed_bind fun s₃ h₃ =>
    .committed_bind fun s₄ h₄ => .committed_bind fun s₅ h₅ => .committed_bind fun s₆ h₆ t ht => ?_
  have g₁ := h.rely h₁
  have g₂ := g₁.rely h₂
  have g₃ := g₂.rely h₃
  have g₄ := g₃.rely h₄
  have g₅ := g₄.rely h₅
  have g₆ := g₅.rely h₆
  refine ⟨g₆.rely ht, fun i hi hnil code => ?_⟩
  have hread := List.filter_eq_nil_iff.1 hnil code (by cases code <;> decide)
  by_contra hblocks
  have b₆ := g₆.blocks_before ht hi (Bool.not_eq_false _ ▸ hblocks)
  have b₅ := g₅.blocks_before h₆ hi b₆
  have b₄ := g₄.blocks_before h₅ hi b₅
  have b₃ := g₃.blocks_before h₄ hi b₄
  have b₂ := g₂.blocks_before h₃ hi b₃
  have b₁ := g₁.blocks_before h₂ hi b₂
  cases code with
  | notClosed | closedAtMissing | withinRetention => exact hread b₁
  | activeRun => exact hread b₂
  | activeObservation => exact hread b₃
  | postmortemGenerationPending => exact hread b₄
  | draftUnderReview => exact hread b₅
  | activeKnowledge => exact hread b₆

/-- The specification of a commit, by the locks held then. -/
abbrev RetentionPost (request : RetentionRequest) (_ : List RetentionLock) (db : RetentionStore)
    (answer : RetentionAnswer) (db' : RetentionStore) : Prop :=
  RetentionDone db request answer db'

/-- The incidents of a unit are there. -/
theorem RetentionPlan.Sound.unit_known {plan : RetentionPlan} {unit : CleaningUnit} {index : ℕ}
    (h : plan.Sound db) (hunit : (plan.units plan.ready)[index]? = some unit) :
    ∀ i ∈ unit.incidents, db.known i := by
  intro i hi
  have hgrouped : plan.Grouped plan.ready := fun row hrow =>
    h.grouped row (List.mem_filter.1 hrow).1
  exact h.known i (RetentionPlan.mem_keys_of_unit hgrouped (List.mem_of_getElem? hunit) hi)

/-- A unit cleans only under its locks, after it has read everything again. -/
theorem applyUnit_sound (pass : UUID) (index : ℕ) (fails : List PayloadKey) (s : RetentionStore) :
    (applyUnit pass index fails).Sound RetentionRely
      (Service.Writes (RetentionPost (.unit pass index fails))) [] s := by
  unfold applyUnit
  refine .committed_bind fun s₁ h₁ => .lift_bind fun plan hplan => .lift_bind fun unit hunit => ?_
  rw [require_eq_ok] at hplan hunit
  have hknown := (h₁.inv.plans hplan).unit_known hunit
  have hself : RetentionRely [] s₁ s₁ := retentionPasses_lawful.rely_refl h₁.inv []
  have hlocked := (lockUnit_sound hknown hself).frame
    (F := fun (_ : List RetentionLock) (t : RetentionStore) => t.passes.get pass = some plan)
    (fun hF hab => hab.grows.passes hF) (fun {locks held a} hF => hF) hplan
  refine .bind retention_stable (hlocked.mono fun held₂ s₂ _ hheld => ?_) hself
  obtain ⟨hheld, hplan⟩ := hheld
  refine .committed_bind fun s₃ h₃ => ?_
  have hheld₃ := hheld.rely h₃
  have hreasons := (readReasons_sound plan.days hheld₃).frame
    (F := fun (held : List RetentionLock) (t : RetentionStore) =>
      UnitHeld unit.incidents held t ∧ t.passes.get pass = some plan ∧
        (s₃.Closed unit.incidents → t.Closed unit.incidents))
    (fun hF hab => ⟨hF.1.rely hab, hab.grows.passes hF.2.1, fun hclosed =>
      hF.1.closed hab (hF.2.2 hclosed)⟩)
    (fun {locks held a} hF => ⟨⟨hF.1.known, fun i hi => List.mem_append_right _ (hF.1.rows i hi),
      fun hrun hi => List.mem_append_right _ (hF.1.runs hrun hi),
      fun hsession hincident hi =>
        List.mem_append_right _ (hF.1.sessions hsession hincident hi)⟩, hF.2⟩)
    ⟨hheld₃, h₃.grows.passes hplan, fun hclosed => hclosed⟩
  refine .bind retention_stable (hreasons.mono fun held₄ s₄ reasons hread => ?_)
    (retentionPasses_lawful.rely_refl h₃.inv held₂)
  obtain ⟨⟨hheld₄, hfree⟩, -, hplan₄, hclosed⟩ := hread
  split
  · intro t ht answer db' hwrite
    obtain ⟨rfl, rfl⟩ := Prod.mk.inj (Except.ok.inj hwrite)
    exact .changed
  · next hunchanged =>
    intro t ht answer db' hwrite
    obtain ⟨-, rfl⟩ := Prod.mk.inj (Except.ok.inj hwrite)
    rw [not_or, not_not] at hunchanged
    obtain ⟨hsame, hnone⟩ := hunchanged
    have hnil : ∀ i ∈ unit.incidents, reasons i = [] := by
      intro i hi
      by_contra hne
      refine hnone ⟨i, ?_, hne⟩
      rw [hsame]
      exact List.mem_toFinset.2 hi
    refine .cleaned (ht.grows.passes hplan₄) hunit (fun i hi => ?_)
      (hheld₄.closed ht (hclosed (closed_of_closure hsame)))
    refine cleanable_of_free (ht.grows.known (hheld₄.known i hi)) fun code => ?_
    by_contra hblocks
    have hbefore := hheld₄.blocks_before ht hi (Bool.not_eq_false _ ▸ hblocks)
    rw [hfree i hi (hnil i hi) code] at hbefore
    cases hbefore

/-- The rows of a scan are planned. -/
theorem presentRows_sound (s : RetentionStore) :
    presentRows.Sound RetentionRely (fun _ t rows => ∀ row ∈ rows, t.Planned row) [] s := by
  refine .committed_bind fun s₀ h₀ => .committed_bind fun s₁ h₁ => .committed_bind fun s₂ h₂ =>
    .committed_bind fun s₃ h₃ => .committed_bind fun s₄ h₄ => .committed_bind fun s₅ h₅ t ht => ?_
  have g₁ := h₁.grows
  have g₂ := g₁.trans h₂.grows
  have g₃ := g₂.trans h₃.grows
  have g₄ := g₃.trans h₄.grows
  have g₅ := g₄.trans h₅.grows
  have t₅ := ht.grows
  have t₄ := h₅.grows.trans t₅
  have t₃ := h₄.grows.trans t₄
  have t₂ := h₃.grows.trans t₃
  have t₁ := h₂.grows.trans t₂
  intro row hrow
  simp only [List.mem_append] at hrow
  rcases hrow with (((hrow | hrow) | hrow) | hrow) | hrow
  · exact (planned_of_mem (fun h => g₁.links h) hrow).grows t₁
  · exact (planned_of_mem (fun h => g₂.links h) hrow).grows t₂
  · exact (planned_of_mem (fun h => g₃.links h) hrow).grows t₃
  · exact (planned_of_mem (fun h => g₄.links h) hrow).grows t₄
  · exact (planned_of_mem (fun h => g₅.links h) hrow).grows t₅

/-- A scan keeps a sound plan. -/
theorem scan_sound (pass : UUID) (days : ℕ) (hs : PlansSound s) :
    (scan pass days).Sound RetentionRely
      (Service.Writes (RetentionPost (.scan pass days))) [] s := by
  unfold scan
  refine .lift_bind fun u hdays => ?_
  rw [refuse_eq_ok, not_lt] at hdays
  have hself : RetentionRely [] s s := retentionPasses_lawful.rely_refl hs []
  refine .bind retention_stable ((presentRows_sound s).mono fun held₁ s₁ rows hrows => ?_) hself
  refine .committed_bind fun s₂ h₂ => ?_
  have hplanned : ∀ row ∈ rows, s₂.Planned row := fun row hrow => (hrows row hrow).grows h₂.grows
  have hread : (readReasons days).Sound RetentionRely (fun _ _ _ => True) held₁ s₂ :=
    .of_forall fun _ _ _ => trivial
  have hreasons := hread.frame
    (F := fun (_ : List RetentionLock) (t : RetentionStore) => s₂.Grows t)
    (fun hF hab => hF.trans hab.grows) (fun {locks held a} hF => hF) (.refl s₂)
  refine .bind retention_stable (hreasons.mono fun held₃ s₃ reasons hgrows => ?_)
    (retentionPasses_lawful.rely_refl h₂.inv held₁)
  intro t ht answer db' hwrite
  dsimp only at hwrite
  split at hwrite
  · cases hwrite
  · next hnew =>
    obtain ⟨rfl, rfl⟩ := Prod.mk.inj (Except.ok.inj hwrite)
    refine .planned (by simpa using hnew) (.grows (?_ : RetentionPlan.Sound _ s₂)
      (hgrows.2.trans ht.grows))
    refine ⟨hdays, hplanned, fun row hrow i hi => ?_, fun i hi => ?_⟩
    · exact mem_keys_mergeGroups.2 (.inl (List.mem_flatMap.2 ⟨row, hrow, hi⟩))
    · rcases mem_keys_mergeGroups.1 hi with hi | ⟨x, y, hpoints, rfl | rfl⟩
      · obtain ⟨row, hrow, hi⟩ := List.mem_flatMap.1 hi
        obtain ⟨stored, hstored, howners⟩ := hplanned row hrow
        exact h₂.inv.consistent.owner_known hstored ((howners i).2 hi)
      · exact (h₂.inv.consistent.point_known hpoints).1
      · exact (h₂.inv.consistent.point_known hpoints).2

end Programs

/-! ## The proof obligations -/

namespace RetentionStore

/-- A cleaned row keeps what is to be kept. -/
theorem clean_kept (row : PayloadRow) (h : row.isPresent = true) : PayloadKept row row.clean :=
  ⟨rfl, rfl, .inr ⟨h, rfl⟩⟩

theorem clean_grows (keys : List PayloadKey) : db.Grows (db.clean keys) := by
  refine grows_update fun key row => ?_
  split
  · next h => exact clean_kept row h.2
  · exact .refl row

/-- A cleaning keeps the foreign keys. -/
theorem Consistent.clean (h : db.Consistent) (keys : List PayloadKey) :
    (db.clean keys).Consistent := by
  refine { h with deliveries := fun {d row i} hrow hi => ?_ }
  change (db.payloads.update _).get (.delivery d) = some row at hrow
  rw [Table.get_update] at hrow
  obtain ⟨old, hold, rfl⟩ := Option.map_eq_some_iff.1 hrow
  refine h.deliveries hold ?_
  split at hi
  · exact hi
  · exact hi

end RetentionStore

theorem retentionPasses_keeps :
    retentionPasses.Keeps PlansSound RetentionStore.Grows RetentionPost where
  toLawful := retentionPasses_lawful
  init db h := by
    obtain rfl : db = {} := h
    refine ⟨⟨?_, ?_, ?_, ?_, ?_⟩, ?_⟩ <;> intros <;> contradiction
  sound request db h := by
    cases request with
    | scan pass days => exact scan_sound pass days h
    | unit pass index fails => exact applyUnit_sound pass index fails db
  commit {request held db answer db'} hdone h := by
    cases hdone with
    | @planned pass days plan hnew hplan =>
      have hgrows : db.Grows { db with passes := db.passes.insert pass plan } :=
        { Grows.refl db with passes := fun hget => Table.get_insert_of_get _ hnew hget }
      refine ⟨h.step { h.consistent with } hgrows fun hget => ?_, hgrows, fun l _ => ?_⟩
      · obtain ⟨-, rfl⟩ | ⟨-, hold⟩ := Table.get_insert_eq_some.1 hget
        · exact .inr hplan
        · exact .inl hold
      · exact spares_of_same l rfl rfl rfl rfl
    | changed => exact ⟨h, .refl db, fun l _ => spares_refl l db⟩
    | cleaned hplan hunit hcleanable hclosed =>
      exact ⟨h.step (h.consistent.clean _) (clean_grows _) fun hget => .inl hget, clean_grows _,
        fun l _ => spares_of_same l rfl rfl rfl rfl⟩
  other {db writes db'} hother h := by
    obtain ⟨hconsistent, hgrows⟩ := commit_grows hother h.consistent
    refine ⟨h.step hconsistent hgrows fun hget => .inl ?_, hgrows⟩
    exact (commit_payloads hother).1 ▸ hget

/-! ## Only what may be cleaned is cleaned -/

/-- The worlds of the service. -/
abbrev RetentionWorld :=
  World RetentionStore RetentionLock RetentionError RetentionAnswer RetentionRequest

/-- A step of the service. -/
abbrev RetentionEvent := Happening RetentionAnswer RetentionRequest (List RetentionWrite)

namespace RetentionStore

variable {w w' : RetentionWorld} {e : RetentionEvent}

/-- What cleaning does to a row. -/
theorem get_clean {keys : List PayloadKey} {row : PayloadRow} (h : db.payloads.get key = some row) :
    (db.clean keys).payloads.get key =
      some (if key ∈ keys ∧ row.isPresent then row.clean else row) := by
  change (db.payloads.update _).get key = _
  rw [Table.get_update, h, Option.map_some]

/-- **Retention cleans only what may be cleaned.** In every reachable world of any number of passes
and transactions of others,
* every row that a plan finds ready is in exactly one unit of the plan;
* no row goes away, and what it belongs to and its hash stay; its payload stays, or it is cleaned,
  with nothing else of the row changed, by the commit of a unit, and then it belongs to an incident,
  and every incident it belongs to, with every incident of its merge group, is closed for the days
  of the pass at least, with no code that blocks it, in the database of that commit;
* a unit writes nothing, or it cleans those of its rows that are still there and whose update does
  not fail; and then all the merge groups of its incidents lie in it and may be cleaned. -/
theorem retention_cleans (h : retentionPasses.system.Reachable w)
    (hstep : retentionPasses.system.Step w e w') :
    (∀ pass plan, w.db.passes.get pass = some plan → ∀ row ∈ plan.ready,
      ∃! index : ℕ, ∃ unit : CleaningUnit,
        (plan.units plan.ready)[index]? = some unit ∧ row ∈ unit.rows) ∧
    (∀ key row, w.db.payloads.get key = some row → ∃ row', w'.db.payloads.get key = some row' ∧
      row'.subjectId = row.subjectId ∧ row'.rawSha256 = row.rawSha256 ∧
      (row'.payload = row.payload ∨ row' = row.clean ∧ row.isPresent = true ∧
        ∃ i pass index fails answer plan, e = .commit i (.unit pass index fails) answer ∧
          w.db.passes.get pass = some plan ∧ minDays ≤ plan.days ∧
          w.db.owners w.db.links key row ≠ [] ∧
          ∀ o ∈ w.db.owners w.db.links key row, ∀ m, w.db.SameGroup o m →
            w.db.Cleanable plan.days m)) ∧
    ∀ i pass index fails answer, e = .commit i (.unit pass index fails) answer →
      w'.db = w.db ∨ ∃ plan unit, w.db.passes.get pass = some plan ∧
        (plan.units plan.ready)[index]? = some unit ∧
        w'.db = w.db.clean ((unit.rows.map PresentRow.key).filter (· ∉ fails)) ∧
        ∀ o ∈ unit.incidents, ∀ m, w.db.SameGroup o m →
          m ∈ unit.incidents ∧ w.db.Cleanable plan.days m := by
  have hsound := Service.reachable_sound retentionPasses_keeps h
  refine ⟨fun pass plan _ row hrow => RetentionPlan.existsUnique_unit hrow, ?_⟩
  rcases hsound.step_cases retentionPasses_keeps hstep with
    ⟨hsame, hnot⟩ | ⟨i, request, answer, held, rfl, hdone⟩ | ⟨label, rfl, hother⟩
  · refine ⟨fun key row hrow => ⟨row, hsame ▸ hrow, rfl, rfl, .inl rfl⟩, ?_⟩
    exact fun i pass index fails answer heq => absurd heq (hnot _ _ _)
  · have hdb := hsound.db
    generalize w.db = db at *
    generalize w'.db = db' at *
    cases hdone with
    | planned hnew hplan =>
      refine ⟨fun key row hrow => ⟨row, hrow, rfl, rfl, .inl rfl⟩, ?_⟩
      intro j pass index fails answer' heq
      cases heq
    | changed =>
      exact ⟨fun key row hrow => ⟨row, hrow, rfl, rfl, .inl rfl⟩, fun _ _ _ _ _ _ => .inl rfl⟩
    | @cleaned pass index fails plan unit answer hplan hunit hcleanable hclosed =>
      have hplanSound := hdb.plans hplan
      have hgrouped : plan.Grouped plan.ready := fun row hrow =>
        hplanSound.grouped row (List.mem_filter.1 hrow).1
      have hunitMem := List.mem_of_getElem? hunit
      have hgroup : ∀ o ∈ unit.incidents, ∀ m, db.SameGroup o m →
          m ∈ unit.incidents ∧ db.Cleanable plan.days m := by
        intro o ho m hm
        have hmem := (hclosed.mem_of_sameGroup hm).1 ho
        exact ⟨hmem, hcleanable m hmem⟩
      refine ⟨fun key row hrow => ⟨_, get_clean hrow, ?_⟩,
        fun j pass' index' fails' answer' heq => ?_⟩
      · split
        · next hcleaned =>
          refine ⟨rfl, rfl, .inr ⟨rfl, hcleaned.2, i, pass, index, fails, answer, plan, rfl, hplan,
            hplanSound.days, ?_⟩⟩
          obtain ⟨present, hpresent, rfl⟩ := List.mem_map.1 (List.mem_filter.1 hcleaned.1).1
          have hready := RetentionPlan.mem_rows_of_unit hunitMem hpresent
          obtain ⟨stored, hstored, howners⟩ :=
            hplanSound.planned present (List.mem_filter.1 hready).1
          obtain rfl := Option.some.inj (hstored.symm.trans hrow)
          refine ⟨List.ne_nil_of_mem ((howners present.first).2 List.mem_cons_self), ?_⟩
          intro o ho m hm
          have hmem := RetentionPlan.owner_mem_incidents hgrouped hunitMem hpresent
            ((howners o).1 ho)
          exact (hgroup o hmem m hm).2
        · exact ⟨rfl, rfl, .inl rfl⟩
      · cases heq
        exact .inr ⟨plan, unit, hplan, hunit, rfl, hgroup⟩
  · refine ⟨fun key row hrow => ?_, fun i pass index fails answer heq => by cases heq⟩
    obtain ⟨row', hrow', hkept⟩ := (commit_grows hother hsound.db.consistent).2.payloads hrow
    obtain ⟨row'', hrow'', hpayload⟩ := (commit_payloads hother).2 hrow
    obtain rfl := Option.some.inj (hrow'.symm.trans hrow'')
    exact ⟨row', hrow', hkept.subject, hkept.hash, .inl hpayload⟩

end RetentionStore

/-! ## Two passes over one incident -/

namespace Cleaning

/-- What a request answers when it runs alone, and the database it commits. -/
def served (db : RetentionStore) (request : RetentionRequest) :
    Except RetentionError (RetentionAnswer × RetentionStore) := do
  let write ← request.program.alone db
  write db

/-- The database a request commits when it runs alone. -/
def after (db : RetentionStore) (request : RetentionRequest) : RetentionStore :=
  ((served db request).toOption.map Prod.snd).getD db

/-- A world with no transaction on its way. -/
def quiet (db : RetentionStore) : RetentionWorld := { db }

/-- A request that runs alone gets to its commit. -/
theorem commits {request : RetentionRequest} {answer : RetentionAnswer}
    (hreach : retentionPasses.system.Reachable (quiet db))
    (h : (served db request).toOption.map Prod.fst = some answer) :
    ∃ w, w.db = db ∧ retentionPasses.system.Reachable w ∧
      retentionPasses.system.Step w (.commit 0 request answer) (quiet (after db request)) := by
  obtain ⟨⟨answer', db'⟩, hserved, rfl⟩ := Option.map_eq_some_iff.1 h
  have hafter : after db request = db' := by rw [after, hserved, Option.map_some, Option.getD_some]
  replace hserved : served db request = .ok (answer', db') := by
    cases hres : served db request with
    | error e => simp [hres, Except.toOption] at hserved
    | ok done => simpa [hres, Except.toOption] using hserved
  obtain ⟨write, halone, hwrite⟩ := bind_eq_ok.1 hserved
  obtain ⟨es, w, hrun, hstep, hdb⟩ := Service.run_to_commit (S := retentionPasses)
    (P := fun w _ => w.db = db) (fun w e hw _ => hw) halone hwrite
  obtain ⟨s₀, ls, hinit, hrun₀⟩ := hreach
  rw [hafter]
  exact ⟨w, hdb, ⟨s₀, ls ++ es, hinit, hrun₀.append hrun.of_restrict⟩, hstep⟩

/-- The request alone leads to another world with no transaction on its way. -/
theorem reachable_after {request : RetentionRequest} {answer : RetentionAnswer}
    (hreach : retentionPasses.system.Reachable (quiet db))
    (h : (served db request).toOption.map Prod.fst = some answer) :
    retentionPasses.system.Reachable (quiet (after db request)) := by
  obtain ⟨w, -, hw, hstep⟩ := commits hreach h
  exact hw.step hstep

/-- An incident with a completed Run and two pieces of evidence is closed, and a month passes. -/
def writes : List RetentionWrite :=
  [.accept 1, .openRun 2 1, .setRun 2 .completed,
    .payload (.evidence "a") ⟨.present "raw a", some "sha256 a", some 2, []⟩,
    .payload (.evidence "b") ⟨.present "raw b", some "sha256 b", some 2, []⟩,
    .setLifecycle 1 .closed, .knowledge (.tick (31 * 86400 * 1000000))]

/-- The incident is closed. -/
def closed : RetentionStore := (RetentionStore.commit {} writes).getD {}

/-- Two passes have scanned. -/
def scanned : RetentionStore := after (after closed (.scan 1 30)) (.scan 2 30)

/-- The second has cleaned its unit, but the update of the second row has failed. -/
def halfCleaned : RetentionStore := after scanned (.unit 2 0 [.evidence "b"])

/-- The payload of a piece of evidence. -/
def payloadOf (db : RetentionStore) (evidenceId : String) : Option Payload :=
  (db.payloads.get (.evidence evidenceId)).map PayloadRow.payload

theorem runs :
    ((RetentionStore.commit {} writes).isSome = true ∧
      (served closed (.scan 1 30)).toOption.map Prod.fst = some .planned ∧
      (served (after closed (.scan 1 30)) (.scan 2 30)).toOption.map Prod.fst = some .planned ∧
      (served scanned (.unit 2 0 [.evidence "b"])).toOption.map Prod.fst =
        some (.cleaned [.evidence "a"]) ∧
      (served halfCleaned (.unit 1 0 [])).toOption.map Prod.fst =
        some (.cleaned [.evidence "b"])) ∧
    payloadOf scanned "a" = some (.present "raw a") ∧
    payloadOf halfCleaned "a" = some .cleaned ∧
    payloadOf halfCleaned "b" = some (.present "raw b") ∧
    payloadOf (after halfCleaned (.unit 1 0 [])) "b" = some .cleaned ∧
    (halfCleaned.passes.get 1).any (fun plan => (plan.units plan.ready)[0]?.any fun unit =>
      unit.rows.any fun row => row.key = .evidence "a") = true := by
  decide +kernel

theorem closed_reachable : retentionPasses.system.Reachable (quiet closed) := by
  have hcommit : RetentionStore.commit {} writes = some closed := by
    obtain ⟨db, hdb⟩ := Option.isSome_iff_exists.1 runs.1.1
    rw [closed, hdb, Option.getD_some]
  have hinit : retentionPasses.system.Init (quiet {}) := ⟨rfl, fun _ => rfl⟩
  exact (LTS.Reachable.init hinit).step
    (retentionPasses_other hcommit fun i task htask => by cases htask)

theorem halfCleaned_reachable : retentionPasses.system.Reachable (quiet halfCleaned) :=
  reachable_after (reachable_after (reachable_after closed_reachable runs.1.2.1) runs.1.2.2.1)
    runs.1.2.2.2.1

/-- **A unit writes although one of its rows has changed since it was planned**: the first pass
cleans the second row after the second pass has cleaned the first. -/
theorem changed_unit_writes : ∃ w w' i pass index fails answer plan unit row stored,
    retentionPasses.system.Reachable w ∧
    retentionPasses.system.Step w (.commit i (.unit pass index fails) answer) w' ∧
    w.db.passes.get pass = some plan ∧ (plan.units plan.ready)[index]? = some unit ∧
    row ∈ unit.rows ∧ w.db.payloads.get row.key = some stored ∧ stored.payload = .cleaned ∧
    w'.db ≠ w.db := by
  obtain ⟨⟨-, -, -, -, hserved⟩, -, ha, hb, hb', hplan⟩ := runs
  obtain ⟨w, hdb, hw, hstep⟩ := commits halfCleaned_reachable hserved
  rw [← hdb] at ha hplan
  obtain ⟨plan, hplan, hunit⟩ := (Option.any_eq_true _ _).1 hplan
  obtain ⟨unit, hunit, hrow⟩ := (Option.any_eq_true _ _).1 hunit
  obtain ⟨row, hrow, hkey⟩ := List.any_eq_true.1 hrow
  obtain ⟨stored, hstored, hcleaned⟩ := Option.map_eq_some_iff.1 ha
  rw [decide_eq_true_eq] at hkey
  refine ⟨w, _, 0, 1, 0, [], _, plan, unit, row, stored, hw, hstep, hplan, hunit, hrow,
    hkey ▸ hstored, hcleaned, fun hsame => ?_⟩
  have hafter : after halfCleaned (.unit 1 0 []) = halfCleaned := hsame.trans hdb
  rw [hafter, hb] at hb'
  cases hb'

/-- The theorem applied to that step: the incident of the second row may be cleaned. -/
theorem retention_cleans_second : ∃ w w' e, retentionPasses.system.Step w e w' ∧
    payloadOf w.db "b" = some (.present "raw b") ∧ payloadOf w'.db "b" = some .cleaned ∧
    ∃ o days, 30 ≤ days ∧ w.db.Cleanable days o := by
  obtain ⟨⟨-, -, -, -, hserved⟩, -, -, hb, hb', -⟩ := runs
  obtain ⟨w, hdb, hw, hstep⟩ := commits halfCleaned_reachable hserved
  rw [← hdb] at hb
  refine ⟨w, _, _, hstep, hb, hb', ?_⟩
  obtain ⟨row, hrow, hpresent⟩ := Option.map_eq_some_iff.1 hb
  obtain ⟨-, hrows, -⟩ := RetentionStore.retention_cleans hw hstep
  obtain ⟨row', hrow', -, -, hsame | ⟨-, -, i, pass, index, fails, answer, plan, -, -, hdays,
    howned, hcleanable⟩⟩ := hrows _ row hrow
  · obtain ⟨row'', hrow'', hcleaned⟩ := Option.map_eq_some_iff.1 hb'
    obtain rfl := Option.some.inj (hrow'.symm.trans hrow'')
    rw [hsame, hpresent] at hcleaned
    cases hcleaned
  · obtain ⟨o, ho⟩ := List.exists_mem_of_ne_nil _ howned
    exact ⟨o, plan.days, hdays, hcleanable o ho o (.refl o)⟩

end Cleaning

end OpsPilot
