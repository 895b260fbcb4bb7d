import OpsPilot.Retention.Blockers
import OpsPilot.Retention.Units
import Mathlib.Data.Fintype.EquivFin

/-!
# What the others write

A transaction of anybody else writes rows of the tables that retention reads, or runs a knowledge
operation. It locks the incidents whose rows it changes, those that a new row refers to, and those
that its knowledge operation locks; and it leaves every incident alone that it has not locked.

* `RetentionStore.write`, `RetentionStore.commit`: the rows of a transaction.
* `RetentionStore.Consistent`, `RetentionStore.Grows`: the foreign keys, and what nobody takes back.
* `RetentionStore.Spares`: what the lock of a row covers.
* **`RetentionStore.commit_spares`**: a transaction spares what it does not lock.
-/

namespace OpsPilot

/-! ## Writes -/

/-- `opspilot_incident_closed_at`, the trigger of an update of the lifecycle. -/
def LifecycleRow.setLifecycle (now : Time) (lifecycle : IncidentLifecycle) (row : LifecycleRow) :
    LifecycleRow :=
  { row with
    lifecycle := lifecycle
    closedAt :=
      if lifecycle ≠ .closed then none
      else if row.lifecycle = .closed then row.closedAt
      else some now }

/-- The incidents of a link. -/
def OwningLink.incidents (link : OwningLink) : List UUID :=
  link.incidentId :: link.relatedIncidentId.toList

/-- A row that somebody else writes. -/
inductive RetentionWrite
  | accept (incidentId : UUID)
  | setLifecycle (incidentId : UUID) (lifecycle : IncidentLifecycle)
  | merge (sourceId targetId : UUID)
  | openRun (runId incidentId : UUID)
  | setRun (runId : UUID) (state : RunExecution)
  | openSession (sessionId : UUID) (session : OwnedSession)
  | setSession (sessionId : UUID) (state : ObservationSessionState)
  | sample (sampleId sessionId : UUID)
  | comparison (comparisonId observationId : UUID)
  | link (observationId : UUID) (link : OwningLink)
  | payload (key : PayloadKey) (row : PayloadRow)
  | setColumns (key : PayloadKey) (columns : List (String × String))
  | knowledge (event : Knowledge.Event)

namespace RetentionStore

variable (db : RetentionStore)

/-- The incident is there. -/
def known (incidentId : UUID) : Bool := (db.incidents.get incidentId).isSome

/-- The foreign key of a payload row. -/
def payloadKnown : PayloadKey → PayloadRow → Bool
  | .evidence _, _ => true
  | .reading sampleId _, _ | .releaseQuery sampleId _, _ => (db.samples.get sampleId).isSome
  | .comparisonQuery comparisonId _, _ => (db.comparisons.get comparisonId).isSome
  | .delivery _, row => row.subjectId.all db.known

/-- One write, refused by the primary and the foreign keys. A payload is written as it comes in:
only retention cleans. -/
def write : RetentionWrite → Option RetentionStore
  | .accept incidentId =>
    if db.known incidentId then none
    else some { db with incidents := db.incidents.insert incidentId {} }
  | .setLifecycle incidentId lifecycle =>
    some { db with
      incidents := db.incidents.modify incidentId (.setLifecycle db.now lifecycle) }
  | .merge sourceId targetId =>
    if db.known targetId then
      some { db with incidents := db.incidents.modify sourceId fun row =>
        { row with mergedIntoIncidentId := some targetId } }
    else none
  | .openRun runId incidentId =>
    if db.known incidentId ∧ (db.runs.get runId).isNone then
      some { db with runs := db.runs.insert runId { incidentId } }
    else none
  | .setRun runId state =>
    some { db with runs := db.runs.modify runId fun run => { run with state } }
  | .openSession sessionId session =>
    if session.incidentId.all db.known ∧ (db.sessions.get sessionId).isNone then
      some { db with sessions := db.sessions.insert sessionId session }
    else none
  | .setSession sessionId state =>
    some { db with sessions := db.sessions.modify sessionId fun session =>
      { session with state } }
  | .sample sampleId sessionId =>
    if (db.sessions.get sessionId).isSome ∧ (db.samples.get sampleId).isNone then
      some { db with samples := db.samples.insert sampleId sessionId }
    else none
  | .comparison comparisonId observationId =>
    if (db.comparisons.get comparisonId).isNone then
      some { db with comparisons := db.comparisons.insert comparisonId observationId }
    else none
  | .link observationId link =>
    if link.incidents.all db.known ∧ (db.links.get observationId).isNone then
      some { db with links := db.links.insert observationId link }
    else none
  | .payload key row =>
    if db.payloadKnown key row ∧ row.payload ≠ .cleaned ∧ (db.payloads.get key).isNone then
      some { db with payloads := db.payloads.insert key row }
    else none
  | .setColumns key columns =>
    some { db with payloads := db.payloads.modify key fun row => { row with columns } }
  | .knowledge event => some { db with knowledge := db.knowledge.after event }

/-- The writes of a transaction, one after the other; one that is refused rolls it back. -/
def commit (db : RetentionStore) : List RetentionWrite → Option RetentionStore
  | [] => some db
  | write :: rest => (db.write write).bind fun written => commit written rest

/-- What a write locks: the rows it updates, the incidents a new row refers to, and the incidents
that its knowledge operation locks. -/
def locksOf : RetentionWrite → List RetentionLock
  | .setLifecycle incidentId _ => [.incident incidentId]
  | .merge sourceId targetId => [.incident sourceId, .incident targetId]
  | .openRun _ incidentId => [.incident incidentId]
  | .setRun runId _ => [.run runId]
  | .openSession _ session => session.incidentId.toList.map .incident
  | .setSession sessionId _ => [.session sessionId]
  | .link _ link => link.incidents.map .incident
  | .payload (.delivery _) row => row.subjectId.toList.map .incident
  | .knowledge event => (event.locks db.knowledge).map .incident
  | .accept _ | .sample _ _ | .comparison _ _ | .payload _ _ | .setColumns _ _ => []

/-- What a transaction locks. -/
def locksOfAll (db : RetentionStore) : List RetentionWrite → List RetentionLock
  | [] => []
  | write :: rest =>
    db.locksOf write ++ ((db.write write).map fun written => locksOfAll written rest).getD []

/-! ## Foreign keys, and what nobody takes back -/

/-- The rows that refer to an incident refer to one that is there. -/
structure Consistent : Prop where
  merged : ∀ {i row target}, db.incidents.get i = some row →
    row.mergedIntoIncidentId = some target → db.known target
  runs : ∀ {r run}, db.runs.get r = some run → db.known run.incidentId
  sessions : ∀ {s session i}, db.sessions.get s = some session → session.incidentId = some i →
    db.known i
  links : ∀ {o link i}, db.links.get o = some link → i ∈ link.incidents → db.known i
  deliveries : ∀ {d row i}, db.payloads.get (.delivery d) = some row → row.subjectId = some i →
    db.known i

/-- What nobody changes of a payload row: what it belongs to, and its hash. A payload is cleaned, or
it stays. -/
structure PayloadKept (row row' : PayloadRow) : Prop where
  subject : row'.subjectId = row.subjectId
  hash : row'.rawSha256 = row.rawSha256
  payload : row'.payload = row.payload ∨ row.isPresent = true ∧ row'.payload = .cleaned

/-- What nobody takes back. -/
structure Grows (db db' : RetentionStore) : Prop where
  known : ∀ {i}, db.known i → db'.known i
  runs : ∀ {r run}, db.runs.get r = some run →
    ∃ run', db'.runs.get r = some run' ∧ run'.incidentId = run.incidentId
  sessions : ∀ {s session}, db.sessions.get s = some session →
    ∃ session', db'.sessions.get s = some session' ∧ session'.incidentId = session.incidentId ∧
      session'.releaseObservationId = session.releaseObservationId
  samples : ∀ {s session}, db.samples.get s = some session → db'.samples.get s = some session
  comparisons : ∀ {c o}, db.comparisons.get c = some o → db'.comparisons.get c = some o
  links : ∀ {o link}, db.links.get o = some link → db'.links.get o = some link
  payloads : ∀ {key row}, db.payloads.get key = some row →
    ∃ row', db'.payloads.get key = some row' ∧ PayloadKept row row'
  passes : ∀ {pass plan}, db.passes.get pass = some plan → db'.passes.get pass = some plan
  now : db.now ≤ db'.now

variable {db} {db' db'' : RetentionStore}

theorem PayloadKept.refl (row : PayloadRow) : PayloadKept row row := ⟨rfl, rfl, .inl rfl⟩

theorem PayloadKept.trans {a b c : PayloadRow} (h : PayloadKept a b) (h' : PayloadKept b c) :
    PayloadKept a c where
  subject := h'.subject.trans h.subject
  hash := h'.hash.trans h.hash
  payload := by
    rcases h'.payload with hsame | ⟨hpresent, hcleaned⟩
    · rw [hsame]
      exact h.payload
    · rcases h.payload with hsame | ⟨-, hgone⟩
      · exact .inr ⟨by simpa [PayloadRow.isPresent, hsame] using hpresent, hcleaned⟩
      · simp [PayloadRow.isPresent, hgone] at hpresent

namespace Grows

theorem refl (db : RetentionStore) : db.Grows db where
  known h := h
  runs h := ⟨_, h, rfl⟩
  sessions h := ⟨_, h, rfl, rfl⟩
  samples h := h
  comparisons h := h
  links h := h
  payloads h := ⟨_, h, .refl _⟩
  passes h := h
  now := le_rfl

theorem trans (h : db.Grows db') (h' : db'.Grows db'') : db.Grows db'' where
  known hi := h'.known (h.known hi)
  runs hr := by
    obtain ⟨run, hrun, hsame⟩ := h.runs hr
    obtain ⟨run', hrun', hsame'⟩ := h'.runs hrun
    exact ⟨run', hrun', hsame'.trans hsame⟩
  sessions hs := by
    obtain ⟨session, hsession, hsame, hrelease⟩ := h.sessions hs
    obtain ⟨session', hsession', hsame', hrelease'⟩ := h'.sessions hsession
    exact ⟨session', hsession', hsame'.trans hsame, hrelease'.trans hrelease⟩
  samples hs := h'.samples (h.samples hs)
  comparisons hc := h'.comparisons (h.comparisons hc)
  links ho := h'.links (h.links ho)
  payloads hrow := by
    obtain ⟨row, hrow, hkept⟩ := h.payloads hrow
    obtain ⟨row', hrow', hkept'⟩ := h'.payloads hrow
    exact ⟨row', hrow', hkept.trans hkept'⟩
  passes hp := h'.passes (h.passes hp)
  now := h.now.trans h'.now

end Grows

theorem known_iff {i : UUID} : db.known i = true ↔ ∃ row, db.incidents.get i = some row := by
  rw [known, Option.isSome_iff_exists]

theorem known_modify {i j : UUID} {f : LifecycleRow → LifecycleRow} :
    ({ db with incidents := db.incidents.modify j f } : RetentionStore).known i = db.known i := by
  change ((db.incidents.modify j f).get i).isSome = (db.incidents.get i).isSome
  rw [Table.get_modify]
  split
  · rw [Option.isSome_map]
  · rfl

/-- A rewrite of an incident takes nothing back. -/
theorem grows_modify (j : UUID) (f : LifecycleRow → LifecycleRow) :
    db.Grows { db with incidents := db.incidents.modify j f } :=
  { Grows.refl db with known := fun hi => known_modify.trans hi }

/-- A new row keeps the others. -/
theorem grows_insert_payload {key : PayloadKey} {row : PayloadRow}
    (hnew : db.payloads.get key = none) :
    db.Grows { db with payloads := db.payloads.insert key row } :=
  { Grows.refl db with
    payloads := fun h => ⟨_, Table.get_insert_of_get _ hnew h, .refl _⟩ }

/-- A rewrite of payload rows that keeps what is to be kept. -/
theorem grows_update {f : PayloadKey → PayloadRow → PayloadRow}
    (hf : ∀ key row, PayloadKept row (f key row)) :
    db.Grows { db with payloads := db.payloads.update f } :=
  { Grows.refl db with
    payloads := fun {key row} h =>
      ⟨f key row, (Table.get_update ..).trans (by rw [h, Option.map_some]), hf key row⟩ }

/-- What a knowledge operation does to the tables of retention: time passes. -/
theorem grows_knowledge (event : Knowledge.Event) :
    db.Grows { db with knowledge := db.knowledge.after event } := by
  obtain ⟨i, hi⟩ := Infinite.exists_notMem_finset (event.locks db.knowledge).toFinset
  have hleaves := Knowledge.World.after_leaves event fun hmem => hi (List.mem_toFinset.2 hmem)
  exact { Grows.refl db with now := hleaves.clock }

variable {w : RetentionWrite} {l : RetentionLock}

/-- A write takes nothing back. -/
theorem write_grows (h : db.write w = some db') : db.Grows db' := by
  cases w with
  | accept incidentId =>
    obtain ⟨hnew, h⟩ := Option.ite_none_left_eq_some.1 h
    obtain rfl := Option.some.inj h
    have hnone : db.incidents.get incidentId = none := by simpa [known] using hnew
    refine { Grows.refl db with known := fun {i} hi => ?_ }
    obtain ⟨row, hrow⟩ := known_iff.1 hi
    exact known_iff.2 ⟨row, Table.get_insert_of_get _ hnone hrow⟩
  | setLifecycle incidentId lifecycle =>
    obtain rfl := Option.some.inj h
    exact grows_modify _ _
  | merge sourceId targetId =>
    obtain ⟨-, h⟩ := Option.ite_none_right_eq_some.1 h
    obtain rfl := Option.some.inj h
    exact grows_modify _ _
  | openRun runId incidentId =>
    obtain ⟨⟨-, hnew⟩, h⟩ := Option.ite_none_right_eq_some.1 h
    obtain rfl := Option.some.inj h
    exact { Grows.refl db with runs := fun hrun =>
      ⟨_, Table.get_insert_of_get _ (Option.isNone_iff_eq_none.1 hnew) hrun, rfl⟩ }
  | setRun runId state =>
    obtain rfl := Option.some.inj h
    refine { Grows.refl db with runs := fun {r run} hrun => ?_ }
    refine ⟨if r = runId then { run with state } else run, ?_, by split <;> rfl⟩
    change (db.runs.modify runId _).get r = _
    rw [Table.get_modify, hrun]
    split <;> rfl
  | openSession sessionId session =>
    obtain ⟨⟨-, hnew⟩, h⟩ := Option.ite_none_right_eq_some.1 h
    obtain rfl := Option.some.inj h
    exact { Grows.refl db with sessions := fun hsession =>
      ⟨_, Table.get_insert_of_get _ (Option.isNone_iff_eq_none.1 hnew) hsession, rfl, rfl⟩ }
  | setSession sessionId state =>
    obtain rfl := Option.some.inj h
    refine { Grows.refl db with sessions := fun {s session} hsession => ?_ }
    refine ⟨if s = sessionId then { session with state } else session, ?_, by split <;> rfl,
      by split <;> rfl⟩
    change (db.sessions.modify sessionId _).get s = _
    rw [Table.get_modify, hsession]
    split <;> rfl
  | sample sampleId sessionId =>
    obtain ⟨⟨-, hnew⟩, h⟩ := Option.ite_none_right_eq_some.1 h
    obtain rfl := Option.some.inj h
    exact { Grows.refl db with
      samples := Table.get_insert_of_get _ (Option.isNone_iff_eq_none.1 hnew) }
  | comparison comparisonId observationId =>
    obtain ⟨hnew, h⟩ := Option.ite_none_right_eq_some.1 h
    obtain rfl := Option.some.inj h
    exact { Grows.refl db with
      comparisons := Table.get_insert_of_get _ (Option.isNone_iff_eq_none.1 hnew) }
  | link observationId link =>
    obtain ⟨⟨-, hnew⟩, h⟩ := Option.ite_none_right_eq_some.1 h
    obtain rfl := Option.some.inj h
    exact { Grows.refl db with
      links := Table.get_insert_of_get _ (Option.isNone_iff_eq_none.1 hnew) }
  | payload key row =>
    obtain ⟨⟨-, -, hnew⟩, h⟩ := Option.ite_none_right_eq_some.1 h
    obtain rfl := Option.some.inj h
    exact grows_insert_payload (Option.isNone_iff_eq_none.1 hnew)
  | setColumns key columns =>
    obtain rfl := Option.some.inj h
    exact grows_update fun k row => by split <;> exact ⟨rfl, rfl, .inl rfl⟩
  | knowledge event =>
    obtain rfl := Option.some.inj h
    exact grows_knowledge event

/-- Rows of the incidents that refer to known ones. -/
theorem Consistent.of_incidents {incidents : Table UUID LifecycleRow} (h : db.Consistent)
    (hknown : ∀ {i}, db.known i → ({ db with incidents } : RetentionStore).known i)
    (hmerged : ∀ {i row target}, incidents.get i = some row →
      row.mergedIntoIncidentId = some target →
      (∃ old, db.incidents.get i = some old ∧ old.mergedIntoIncidentId = some target) ∨
        db.known target) : ({ db with incidents } : RetentionStore).Consistent where
  merged hrow htarget := by
    rcases hmerged hrow htarget with ⟨old, hold, htarget⟩ | htarget
    · exact hknown (h.merged hold htarget)
    · exact hknown htarget
  runs hrun := hknown (h.runs hrun)
  sessions hsession hi := hknown (h.sessions hsession hi)
  links hlink hi := hknown (h.links hlink hi)
  deliveries hrow hi := hknown (h.deliveries hrow hi)

/-- A write keeps the foreign keys. -/
theorem write_consistent (h : db.write w = some db') (hdb : db.Consistent) :
    db'.Consistent := by
  have hgrows := write_grows h
  cases w with
  | accept incidentId =>
    obtain ⟨-, h⟩ := Option.ite_none_left_eq_some.1 h
    obtain rfl := Option.some.inj h
    refine hdb.of_incidents hgrows.known fun hrow htarget => ?_
    obtain ⟨-, rfl⟩ | ⟨-, hold⟩ := Table.get_insert_eq_some.1 hrow
    · cases htarget
    · exact .inl ⟨_, hold, htarget⟩
  | setLifecycle incidentId lifecycle =>
    obtain rfl := Option.some.inj h
    refine hdb.of_incidents hgrows.known fun hrow htarget => ?_
    rw [Table.get_modify] at hrow
    split at hrow
    · obtain ⟨old, hold, rfl⟩ := Option.map_eq_some_iff.1 hrow
      exact .inl ⟨old, hold, htarget⟩
    · exact .inl ⟨_, hrow, htarget⟩
  | merge sourceId targetId =>
    obtain ⟨hknown, h⟩ := Option.ite_none_right_eq_some.1 h
    obtain rfl := Option.some.inj h
    refine hdb.of_incidents hgrows.known fun hrow htarget => ?_
    rw [Table.get_modify] at hrow
    split at hrow
    · obtain ⟨old, hold, rfl⟩ := Option.map_eq_some_iff.1 hrow
      exact .inr (Option.some.inj htarget ▸ hknown)
    · exact .inl ⟨_, hrow, htarget⟩
  | openRun runId incidentId =>
    obtain ⟨⟨hknown, -⟩, h⟩ := Option.ite_none_right_eq_some.1 h
    obtain rfl := Option.some.inj h
    refine { hdb with runs := fun hrun => ?_ }
    obtain ⟨-, rfl⟩ | ⟨-, hold⟩ := Table.get_insert_eq_some.1 hrun
    · exact hknown
    · exact hdb.runs hold
  | setRun runId state =>
    obtain rfl := Option.some.inj h
    refine { hdb with runs := fun {r run} hrun => ?_ }
    change (db.runs.modify runId _).get r = some run at hrun
    rw [Table.get_modify] at hrun
    split at hrun
    · obtain ⟨old, hold, rfl⟩ := Option.map_eq_some_iff.1 hrun
      have hknown := hdb.runs hold
      exact hknown
    · exact hdb.runs hrun
  | openSession sessionId session =>
    obtain ⟨⟨hknown, -⟩, h⟩ := Option.ite_none_right_eq_some.1 h
    obtain rfl := Option.some.inj h
    refine { hdb with sessions := fun hsession hi => ?_ }
    obtain ⟨-, rfl⟩ | ⟨-, hold⟩ := Table.get_insert_eq_some.1 hsession
    · rw [hi] at hknown
      exact hknown
    · exact hdb.sessions hold hi
  | setSession sessionId state =>
    obtain rfl := Option.some.inj h
    refine { hdb with sessions := fun {s session i} hsession hi => ?_ }
    change (db.sessions.modify sessionId _).get s = some session at hsession
    rw [Table.get_modify] at hsession
    split at hsession
    · obtain ⟨old, hold, rfl⟩ := Option.map_eq_some_iff.1 hsession
      exact hdb.sessions hold hi
    · exact hdb.sessions hsession hi
  | sample sampleId sessionId =>
    obtain ⟨-, h⟩ := Option.ite_none_right_eq_some.1 h
    obtain rfl := Option.some.inj h
    exact { hdb with }
  | comparison comparisonId observationId =>
    obtain ⟨-, h⟩ := Option.ite_none_right_eq_some.1 h
    obtain rfl := Option.some.inj h
    exact { hdb with }
  | link observationId link =>
    obtain ⟨⟨hknown, -⟩, h⟩ := Option.ite_none_right_eq_some.1 h
    obtain rfl := Option.some.inj h
    refine { hdb with links := fun hlink hi => ?_ }
    obtain ⟨-, rfl⟩ | ⟨-, hold⟩ := Table.get_insert_eq_some.1 hlink
    · exact List.all_eq_true.1 hknown _ hi
    · exact hdb.links hold hi
  | payload key row =>
    obtain ⟨⟨hknown, -⟩, h⟩ := Option.ite_none_right_eq_some.1 h
    obtain rfl := Option.some.inj h
    refine { hdb with deliveries := fun hrow hi => ?_ }
    obtain ⟨rfl, rfl⟩ | ⟨-, hold⟩ := Table.get_insert_eq_some.1 hrow
    · rw [payloadKnown, hi] at hknown
      exact hknown
    · exact hdb.deliveries hold hi
  | setColumns key columns =>
    obtain rfl := Option.some.inj h
    refine { hdb with deliveries := fun {d row i} hrow hi => ?_ }
    change (db.payloads.modify key _).get (.delivery d) = some row at hrow
    rw [Table.get_modify] at hrow
    split at hrow
    · obtain ⟨old, hold, rfl⟩ := Option.map_eq_some_iff.1 hrow
      exact hdb.deliveries hold hi
    · exact hdb.deliveries hrow hi
  | knowledge event =>
    obtain rfl := Option.some.inj h
    exact { hdb with }

/-- A transaction keeps the foreign keys, and takes nothing back. -/
theorem commit_grows {writes : List RetentionWrite} (h : db.commit writes = some db')
    (hdb : db.Consistent) : db'.Consistent ∧ db.Grows db' := by
  induction writes generalizing db with
  | nil =>
    obtain rfl := Option.some.inj h
    exact ⟨hdb, .refl db⟩
  | cons w rest ih =>
    obtain ⟨written, hwritten, h⟩ := Option.bind_eq_some_iff.1 h
    obtain ⟨hconsistent, hgrows⟩ := ih h (write_consistent hwritten hdb)
    exact ⟨hconsistent, (write_grows hwritten).trans hgrows⟩

/-- Nobody else writes in the memory of a pass, or cleans a row. -/
theorem write_payloads (h : db.write w = some db') :
    db'.passes = db.passes ∧ ∀ {key row}, db.payloads.get key = some row →
      ∃ row', db'.payloads.get key = some row' ∧ row'.payload = row.payload := by
  cases w with
  | accept incidentId =>
    obtain ⟨-, h⟩ := Option.ite_none_left_eq_some.1 h
    obtain rfl := Option.some.inj h
    exact ⟨rfl, fun hrow => ⟨_, hrow, rfl⟩⟩
  | setLifecycle | setRun | setSession | knowledge =>
    obtain rfl := Option.some.inj h
    exact ⟨rfl, fun hrow => ⟨_, hrow, rfl⟩⟩
  | merge | openRun | openSession | sample | comparison | link =>
    obtain ⟨-, h⟩ := Option.ite_none_right_eq_some.1 h
    obtain rfl := Option.some.inj h
    exact ⟨rfl, fun hrow => ⟨_, hrow, rfl⟩⟩
  | payload key row =>
    obtain ⟨⟨-, -, hnew⟩, h⟩ := Option.ite_none_right_eq_some.1 h
    obtain rfl := Option.some.inj h
    exact ⟨rfl, fun hrow =>
      ⟨_, Table.get_insert_of_get _ (Option.isNone_iff_eq_none.1 hnew) hrow, rfl⟩⟩
  | setColumns key columns =>
    obtain rfl := Option.some.inj h
    refine ⟨rfl, fun {k row} hrow => ⟨if k = key then { row with columns } else row, ?_, ?_⟩⟩
    · change (db.payloads.modify key _).get k = _
      rw [Table.get_modify, hrow]
      split <;> rfl
    · split <;> rfl

theorem commit_payloads {writes : List RetentionWrite} (h : db.commit writes = some db') :
    db'.passes = db.passes ∧ ∀ {key row}, db.payloads.get key = some row →
      ∃ row', db'.payloads.get key = some row' ∧ row'.payload = row.payload := by
  induction writes generalizing db with
  | nil =>
    obtain rfl := Option.some.inj h
    exact ⟨rfl, fun hrow => ⟨_, hrow, rfl⟩⟩
  | cons w rest ih =>
    obtain ⟨written, hwritten, h⟩ := Option.bind_eq_some_iff.1 h
    obtain ⟨hpasses, hrows⟩ := write_payloads hwritten
    obtain ⟨hpasses', hrows'⟩ := ih h
    refine ⟨hpasses'.trans hpasses, fun hrow => ?_⟩
    obtain ⟨row, hrow, hsame⟩ := hrows hrow
    obtain ⟨row', hrow', hsame'⟩ := hrows' hrow
    exact ⟨row', hrow', hsame'.trans hsame⟩

/-! ## What a lock covers -/

/-- What the lock of an incident's row covers: the row, and with it the rows that refer to it and
what keeps it. -/
structure SparesIncident (i : UUID) (db db' : RetentionStore) : Prop where
  row : ∀ {row}, db.incidents.get i = some row → db'.incidents.get i = some row
  pointers : ∀ {x row'}, db'.incidents.get x = some row' → row'.mergedIntoIncidentId = some i →
    ∃ row, db.incidents.get x = some row ∧ row.mergedIntoIncidentId = some i
  runs : ∀ {r run'}, db'.runs.get r = some run' → run'.incidentId = i →
    ∃ run, db.runs.get r = some run ∧ run.incidentId = i
  sessions : ∀ {s session'}, db'.sessions.get s = some session' → session'.incidentId = some i →
    ∃ session, db.sessions.get s = some session ∧ session.incidentId = some i
  knowledge : db.knowledge.Leaves i db'.knowledge

/-- What a lock covers. -/
def Spares : RetentionLock → RetentionStore → RetentionStore → Prop
  | .incident i, db, db' => SparesIncident i db db'
  | .run r, db, db' => ∀ run, db.runs.get r = some run → db'.runs.get r = some run
  | .session s, db, db' => ∀ session, db.sessions.get s = some session →
      db'.sessions.get s = some session

theorem SparesIncident.refl (i : UUID) (db : RetentionStore) : SparesIncident i db db where
  row h := h
  pointers h hi := ⟨_, h, hi⟩
  runs h hi := ⟨_, h, hi⟩
  sessions h hi := ⟨_, h, hi⟩
  knowledge := .refl i db.knowledge

theorem spares_refl (l : RetentionLock) (db : RetentionStore) : Spares l db db := by
  cases l with
  | incident i => exact .refl i db
  | run r => exact fun run h => h
  | session s => exact fun session h => h

theorem spares_trans (h : Spares l db db') (h' : Spares l db' db'') :
    Spares l db db'' := by
  cases l with
  | incident i =>
    exact
      { row := fun hrow => h'.row (h.row hrow)
        pointers := fun hrow hi => by
          obtain ⟨row, hrow, hi⟩ := h'.pointers hrow hi
          exact h.pointers hrow hi
        runs := fun hrun hi => by
          obtain ⟨run, hrun, hi⟩ := h'.runs hrun hi
          exact h.runs hrun hi
        sessions := fun hsession hi => by
          obtain ⟨session, hsession, hi⟩ := h'.sessions hsession hi
          exact h.sessions hsession hi
        knowledge := h.knowledge.trans h'.knowledge }
  | run r => exact fun run hrun => h' run (h run hrun)
  | session s => exact fun session hsession => h' session (h session hsession)

/-- What touches neither the incidents, the Runs, the sessions nor the knowledge spares every
lock. -/
theorem spares_of_same (l : RetentionLock) (hincidents : db'.incidents = db.incidents)
    (hruns : db'.runs = db.runs) (hsessions : db'.sessions = db.sessions)
    (hknowledge : db'.knowledge = db.knowledge) : Spares l db db' := by
  cases l with
  | incident i =>
    exact
      { row := fun h => hincidents ▸ h
        pointers := fun h hi => ⟨_, hincidents ▸ h, hi⟩
        runs := fun h hi => ⟨_, hruns ▸ h, hi⟩
        sessions := fun h hi => ⟨_, hsessions ▸ h, hi⟩
        knowledge := hknowledge ▸ .refl i db.knowledge }
  | run r => exact fun run h => hruns ▸ h
  | session s => exact fun session h => hsessions ▸ h

/-- A write spares the locks that it does not need. -/
theorem write_spares (h : db.write w = some db') (hl : l ∉ db.locksOf w) : Spares l db db' := by
  cases w with
  | accept incidentId =>
    obtain ⟨hnew, h⟩ := Option.ite_none_left_eq_some.1 h
    obtain rfl := Option.some.inj h
    have hnone : db.incidents.get incidentId = none := by simpa [known] using hnew
    cases l with
    | incident i =>
      refine { SparesIncident.refl i db with
        row := Table.get_insert_of_get _ hnone
        pointers := fun hrow hi => ?_ }
      obtain ⟨-, rfl⟩ | ⟨-, hold⟩ := Table.get_insert_eq_some.1 hrow
      · cases hi
      · exact ⟨_, hold, hi⟩
    | run r => exact fun run h => h
    | session s => exact fun session h => h
  | setLifecycle incidentId lifecycle =>
    obtain rfl := Option.some.inj h
    cases l with
    | incident i =>
      have hne : i ≠ incidentId := by simpa [locksOf] using hl
      refine { SparesIncident.refl i db with
        row := fun hrow => (Table.get_modify_ne _ _ hne).trans hrow
        pointers := fun {x row'} hrow hi => ?_ }
      rw [Table.get_modify] at hrow
      split at hrow
      · obtain ⟨old, hold, rfl⟩ := Option.map_eq_some_iff.1 hrow
        exact ⟨old, hold, hi⟩
      · exact ⟨row', hrow, hi⟩
    | run r => exact fun run h => h
    | session s => exact fun session h => h
  | merge sourceId targetId =>
    obtain ⟨-, h⟩ := Option.ite_none_right_eq_some.1 h
    obtain rfl := Option.some.inj h
    cases l with
    | incident i =>
      obtain ⟨hne, hne'⟩ : i ≠ sourceId ∧ i ≠ targetId := by simpa [locksOf] using hl
      refine { SparesIncident.refl i db with
        row := fun hrow => (Table.get_modify_ne _ _ hne).trans hrow
        pointers := fun {x row'} hrow hi => ?_ }
      rw [Table.get_modify] at hrow
      split at hrow
      · obtain ⟨old, hold, rfl⟩ := Option.map_eq_some_iff.1 hrow
        exact absurd (Option.some.inj hi).symm hne'
      · exact ⟨row', hrow, hi⟩
    | run r => exact fun run h => h
    | session s => exact fun session h => h
  | openRun runId incidentId =>
    obtain ⟨⟨-, hnew⟩, h⟩ := Option.ite_none_right_eq_some.1 h
    obtain rfl := Option.some.inj h
    cases l with
    | incident i =>
      have hne : i ≠ incidentId := by simpa [locksOf] using hl
      refine { SparesIncident.refl i db with runs := fun hrun hi => ?_ }
      obtain ⟨-, rfl⟩ | ⟨-, hold⟩ := Table.get_insert_eq_some.1 hrun
      · exact absurd hi.symm hne
      · exact ⟨_, hold, hi⟩
    | run r =>
      exact fun run hrun => Table.get_insert_of_get _ (Option.isNone_iff_eq_none.1 hnew) hrun
    | session s => exact fun session h => h
  | setRun runId state =>
    obtain rfl := Option.some.inj h
    cases l with
    | incident i =>
      refine { SparesIncident.refl i db with runs := fun {r run'} hrun hi => ?_ }
      change (db.runs.modify runId _).get r = some run' at hrun
      rw [Table.get_modify] at hrun
      split at hrun
      · obtain ⟨old, hold, rfl⟩ := Option.map_eq_some_iff.1 hrun
        exact ⟨old, hold, hi⟩
      · exact ⟨run', hrun, hi⟩
    | run r =>
      have hne : r ≠ runId := by simpa [locksOf] using hl
      exact fun run hrun => (Table.get_modify_ne _ _ hne).trans hrun
    | session s => exact fun session h => h
  | openSession sessionId session =>
    obtain ⟨⟨-, hnew⟩, h⟩ := Option.ite_none_right_eq_some.1 h
    obtain rfl := Option.some.inj h
    cases l with
    | incident i =>
      have hne : session.incidentId ≠ some i := by simpa [locksOf] using hl
      refine { SparesIncident.refl i db with sessions := fun hsession hi => ?_ }
      obtain ⟨-, rfl⟩ | ⟨-, hold⟩ := Table.get_insert_eq_some.1 hsession
      · exact absurd hi hne
      · exact ⟨_, hold, hi⟩
    | run r => exact fun run h => h
    | session s =>
      exact fun old hold => Table.get_insert_of_get _ (Option.isNone_iff_eq_none.1 hnew) hold
  | setSession sessionId state =>
    obtain rfl := Option.some.inj h
    cases l with
    | incident i =>
      refine { SparesIncident.refl i db with sessions := fun {s session'} hsession hi => ?_ }
      change (db.sessions.modify sessionId _).get s = some session' at hsession
      rw [Table.get_modify] at hsession
      split at hsession
      · obtain ⟨old, hold, rfl⟩ := Option.map_eq_some_iff.1 hsession
        exact ⟨old, hold, hi⟩
      · exact ⟨session', hsession, hi⟩
    | run r => exact fun run h => h
    | session s =>
      have hne : s ≠ sessionId := by simpa [locksOf] using hl
      exact fun session hsession => (Table.get_modify_ne _ _ hne).trans hsession
  | sample sampleId sessionId =>
    obtain ⟨-, h⟩ := Option.ite_none_right_eq_some.1 h
    obtain rfl := Option.some.inj h
    exact spares_of_same l rfl rfl rfl rfl
  | comparison comparisonId observationId =>
    obtain ⟨-, h⟩ := Option.ite_none_right_eq_some.1 h
    obtain rfl := Option.some.inj h
    exact spares_of_same l rfl rfl rfl rfl
  | link observationId link =>
    obtain ⟨-, h⟩ := Option.ite_none_right_eq_some.1 h
    obtain rfl := Option.some.inj h
    exact spares_of_same l rfl rfl rfl rfl
  | payload key row =>
    obtain ⟨-, h⟩ := Option.ite_none_right_eq_some.1 h
    obtain rfl := Option.some.inj h
    exact spares_of_same l rfl rfl rfl rfl
  | setColumns key columns =>
    obtain rfl := Option.some.inj h
    exact spares_of_same l rfl rfl rfl rfl
  | knowledge event =>
    obtain rfl := Option.some.inj h
    cases l with
    | incident i =>
      have hnot : i ∉ event.locks db.knowledge := by simpa [locksOf] using hl
      exact { SparesIncident.refl i db with
        knowledge := Knowledge.World.after_leaves event hnot }
    | run r => exact fun run h => h
    | session s => exact fun session h => h

/-- **A transaction spares what it does not lock.** -/
theorem commit_spares {writes : List RetentionWrite} (h : db.commit writes = some db')
    (hl : l ∉ db.locksOfAll writes) : Spares l db db' := by
  induction writes generalizing db with
  | nil =>
    obtain rfl := Option.some.inj h
    exact spares_refl l db
  | cons w rest ih =>
    obtain ⟨written, hwritten, h⟩ := Option.bind_eq_some_iff.1 h
    rw [locksOfAll, hwritten, Option.map_some, Option.getD_some, List.mem_append, not_or] at hl
    exact spares_trans (write_spares hwritten hl.1) (ih h hl.2)

end RetentionStore

end OpsPilot
