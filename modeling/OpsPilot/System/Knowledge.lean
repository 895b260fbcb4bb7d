import OpsPilot.System.KnowledgeWrites

/-!
# Knowledge publication

The requests of any actors, stale marking and what else happens to the incidents, one after the
other in any order.

* `Sound`: versions and revisions are numbered densely, generations count audit rows, only the
  latest revision of an entry can be active, and every revision equals a proposal of an approved
  version.
* `Reachable.sound`: it holds after every run.
* `Run.published`: the incident equalled the watermark when a revision was written.
* `serve_again`: a request repeated with its key returns the first result.
* **`knowledge_publication`**: all of it.
-/

namespace OpsPilot.Knowledge

/-! ## The system -/

/-- What can happen: a request of some actor, with the fresh ids it would draw, stale marking inside
a business transaction, and changes of the rows of an incident or of the generation jobs. -/
inductive Op
  | serve (fresh : UUID) (ids : String → UUID) (request : Request)
  | markStaleIn (keys : ℕ → String) (incidentId : UUID) (reason : StaleReason) (source : String)
  | incident (id : UUID) (facts : Incident)
  | jobs (jobs : Table UUID JobRow)

/-- The key of a request. -/
def Request.key : Request → String
  | generate r => r.idempotencyKey
  | transition r => r.idempotencyKey
  | revoke r => r.idempotencyKey

namespace Store

/-- The operation a request names. -/
def serve (s : Store) (fresh : UUID) (ids : String → UUID) :
    Request → Except KnowledgeError (ActionResult × Store)
  | .generate r => s.recordDraft fresh r
  | .transition r => s.transition ids r
  | .revoke r => s.revoke r

/-- What an operation answers and leaves. -/
def exec (s : Store) : Op → Except KnowledgeError (List ActionResult × Store)
  | .serve fresh ids request => do
    let served ← s.serve fresh ids request
    pure ([served.1], served.2)
  | .markStaleIn keys incidentId reason source => s.markStaleIn keys incidentId reason source
  | .incident id facts => pure ([], { s with incidents := s.incidents.insert id facts })
  | .jobs jobs => pure ([], { s with jobs := jobs })

/-- The store after an operation: a refused one is rolled back. -/
def after (s : Store) (op : Op) : Store :=
  match s.exec op with
  | .ok done => done.2
  | .error _ => s

/-- Nothing was drafted yet. -/
structure Fresh (s : Store) : Prop where
  postmortems : s.postmortems = ∅
  versions : s.versions = ∅
  entries : s.entries = ∅
  revisions : s.revisions = ∅
  revocations : s.revocations = ∅
  audit : s.audit = []
  requests : s.requests = ∅

end Store

/-- Requests may change versions wherever the operations let them. -/
def anyChange : Guard := fun _ _ _ => True

/-- The runs of the knowledge store. -/
def system : LTS Store Op where
  Init := Store.Fresh
  Step s op s' := s.after op = s'

variable {op : Op} {ops : List Op}

namespace Store

variable {G : Guard} {s s' t : Store} {result : ActionResult}

theorem serve_writes {fresh : UUID} {ids : String → UUID} {request : Request}
    (h : s.serve fresh ids request = .ok (result, s')) : Writes anyChange s s' := by
  cases request with
  | generate r => exact recordDraft_writes (fun _ _ _ => trivial) h
  | transition r => exact transition_writes trivial h
  | revoke r => exact revoke_writes h

/-- **An operation is a chain of writes, or a change of one incident.** -/
theorem after_cases (s : Store) (op : Op) :
    Writes anyChange s (s.after op) ∨
      ∃ id facts, s.after op = { s with incidents := s.incidents.insert id facts } := by
  unfold after
  cases op with
  | serve fresh ids request =>
    left
    cases h : s.serve fresh ids request with
    | error e =>
      rw [exec, h]
      exact .refl
    | ok served =>
      rw [exec, h]
      exact serve_writes h
  | markStaleIn keys incidentId reason source =>
    left
    cases h : s.markStaleIn keys incidentId reason source with
    | error e => rw [exec, h]
    | ok marked =>
      rw [exec, h]
      exact markStaleIn_writes (fun _ _ _ => trivial) h
  | incident id facts => exact .inr ⟨id, facts, rfl⟩
  | jobs jobs => exact .inl (.single (.jobs jobs))

/-- A property of the knowledge tables that every write keeps is kept by every operation. -/
theorem stable_of_writes {P : Store → Prop} (hwrite : ∀ {s s'}, Write anyChange s s' → P s → P s')
    (hincident : ∀ {s : Store} incidents, P s → P { s with incidents := incidents })
    (hstep : system.Step s op s') (h : P s) : P s' := by
  obtain rfl : s.after op = s' := hstep
  obtain hwrites | ⟨id, facts, heq⟩ := s.after_cases op
  · exact hwrites.stable hwrite h
  · rw [heq]
    exact hincident _ h

/-- The operations one after the other. -/
theorem run_foldl (s : Store) (ops : List Op) : system.Run s ops (ops.foldl after s) := by
  induction ops generalizing s with
  | nil => exact .nil s
  | cons op ops ih => exact .cons rfl (ih _)

/-- No operation undoes what no write undoes. -/
theorem Step.keeps (h : system.Step s op s') : s.Keeps s' := by
  obtain rfl : s.after op = s' := h
  obtain hwrites | ⟨id, facts, heq⟩ := s.after_cases op
  · exact hwrites.keeps
  · rw [heq]
    refine { Keeps.refl s with incidents := fun {id' row} hrow => ?_ }
    by_cases hid : id' = id
    · exact ⟨facts, (Table.get_insert ..).trans (if_pos hid)⟩
    · exact ⟨row, (Table.get_insert_ne _ _ hid).trans hrow⟩

theorem Run.keeps (h : system.Run s ops t) : s.Keeps t := by
  induction h with
  | nil s => exact .refl s
  | cons hstep _ ih => exact (Step.keeps hstep).trans ih

/-! ## Generations count audit rows -/

/-- The generation of an object; 0 before it is there. -/
def generationOf (s : Store) : ObjectKind → UUID → ℕ
  | .postmortem, id => (s.postmortems.get id).elim 0 PostmortemRow.generation
  | .knowledgeEntry, id => (s.entries.get id).elim 0 EntryRow.generation

/-- Every object has one audit row for each generation it went through. -/
def Audited (s : Store) : Prop :=
  ∀ kind id, (s.auditOf kind id).map AuditRow.resultingGeneration =
    List.range' 1 (s.generationOf kind id)

theorem Audited.of_same (h : s.Audited) (haudit : s'.audit = s.audit)
    (hgeneration : ∀ kind id, s'.generationOf kind id = s.generationOf kind id) : s'.Audited := by
  intro kind id
  rw [auditOf, haudit, hgeneration]
  exact h kind id

/-- An audit row of an object goes with the next generation of that object. -/
theorem Audited.append {audit : AuditRow} {kind : ObjectKind} {id : UUID} (h : s.Audited)
    (hof : audit.Of kind id (s.generationOf kind id)) (haudit : s'.audit = s.audit ++ [audit])
    (hgeneration : ∀ kind' id', s'.generationOf kind' id' =
      s.generationOf kind' id' + if kind' = kind ∧ id' = id then 1 else 0) : s'.Audited := by
  intro kind' id'
  have hold := h kind' id'
  unfold auditOf at hold
  rw [auditOf, haudit, hgeneration, List.filter_append, List.map_append, hold]
  by_cases hobject : kind' = kind ∧ id' = id
  · obtain ⟨rfl, rfl⟩ := hobject
    have hgen : audit.resultingGeneration = 1 + s.generationOf kind' id' := by
      rw [AuditRow.resultingGeneration, hof.generation_eq, Nat.add_comm]
    simp [hof.kind_eq, hof.id_eq, hgen, List.range'_1_concat]
  · have hother : ¬ (audit.objectKind = kind' ∧ audit.objectId = id') := by
      rw [hof.kind_eq, hof.id_eq]
      rintro ⟨rfl, rfl⟩
      exact hobject ⟨rfl, rfl⟩
    simp [hobject, hother]

theorem generationOf_postmortem {id : UUID} {head head' : PostmortemRow}
    (hhead : s.postmortems.get id = some head) (hhead' : s'.postmortems.get id = some head')
    (hgeneration : head'.generation = head.generation + 1)
    (hother : ∀ {id'}, id' ≠ id → s'.postmortems.get id' = s.postmortems.get id')
    (hentries : s'.entries = s.entries) (kind' : ObjectKind) (id' : UUID) :
    s'.generationOf kind' id' =
      s.generationOf kind' id' + if kind' = .postmortem ∧ id' = id then 1 else 0 := by
  cases kind' with
  | knowledgeEntry => simp [generationOf, hentries]
  | postmortem =>
    by_cases hid : id' = id
    · simp [generationOf, hid, hhead, hhead', hgeneration]
    · simp [generationOf, hid, hother hid]

theorem generationOf_entry {id : UUID} {entry entry' : EntryRow}
    (hentry : s.entries.get id = some entry) (hentry' : s'.entries.get id = some entry')
    (hgeneration : entry'.generation = entry.generation + 1)
    (hother : ∀ {id'}, id' ≠ id → s'.entries.get id' = s.entries.get id')
    (hpostmortems : s'.postmortems = s.postmortems) (kind' : ObjectKind) (id' : UUID) :
    s'.generationOf kind' id' =
      s.generationOf kind' id' + if kind' = .knowledgeEntry ∧ id' = id then 1 else 0 := by
  cases kind' with
  | postmortem => simp [generationOf, hpostmortems]
  | knowledgeEntry =>
    by_cases hid : id' = id
    · simp [generationOf, hid, hentry, hentry', hgeneration]
    · simp [generationOf, hid, hother hid]

theorem Write.audited (hwrite : Write G s s') (h : s.Audited) : s'.Audited := by
  cases hwrite with
  | jobs jobs => exact h
  | request row hnew => exact h
  | start hnew hfirst =>
    refine h.of_same rfl fun kind id => ?_
    cases kind with
    | knowledgeEntry => rfl
    | postmortem =>
      simp only [generationOf, Table.get_insert]
      split
      · next heq => simp [heq, hnew]
      · rfl
  | @draft id head generation audit row hhead hgeneration hnew haudit hguard =>
    have hid : s.generationOf .postmortem id = generation := by
      simp [generationOf, hhead, hgeneration]
    refine h.append (hid ▸ haudit) rfl fun kind' id' => ?_
    have hnext := congrArg (· + 1) hgeneration.symm
    refine generationOf_postmortem hhead (get_modify_of_get _ hhead) hnext ?_ ?_ kind' id'
    · exact fun hne => Table.get_modify_ne _ _ hne
    · rfl
  | @advance id version generation head row audit trigger state staleReason hhead hgeneration hrow
      hfire haudit hguard hsubmit =>
    have hid : s.generationOf .postmortem id = generation := by
      simp [generationOf, hhead, hgeneration]
    refine h.append (hid ▸ haudit) rfl fun kind' id' => ?_
    have hnext := congrArg (· + 1) hgeneration.symm
    refine generationOf_postmortem hhead (get_modify_of_get _ hhead) hnext ?_ ?_ kind' id'
    · exact fun hne => Table.get_modify_ne _ _ hne
    · rfl
  | enter hnew =>
    refine h.of_same rfl fun kind id => ?_
    cases kind with
    | postmortem => rfl
    | knowledgeEntry =>
      simp only [generationOf, Table.get_insert]
      split
      · next heq => simp [heq, hnew]
      · rfl
  | @publish id entry row audit hentry hnew hsupersedes hpublished haudit =>
    have hid : s.generationOf .knowledgeEntry id = entry.generation := by
      simp [generationOf, hentry]
    refine h.append (hid ▸ haudit) rfl fun kind' id' => ?_
    refine generationOf_entry hentry (get_modify_of_get _ hentry) rfl ?_ ?_ kind' id'
    · exact fun hne => Table.get_modify_ne _ _ hne
    · rfl
  | @revoke id revision generation entry audit row hentry hgeneration hactive hnew haudit =>
    have hid : s.generationOf .knowledgeEntry id = generation := by
      simp [generationOf, hentry, hgeneration]
    refine h.append (hid ▸ haudit) rfl fun kind' id' => ?_
    have hnext := congrArg (· + 1) hgeneration.symm
    refine generationOf_entry hentry (get_modify_of_get _ hentry) hnext ?_ ?_ kind' id'
    · exact fun hne => Table.get_modify_ne _ _ hne
    · rfl

end Store

/-! ## Dense numbers -/

/-- The rows of every object are numbered from 1 to its latest number, without a gap. -/
def Numbered {ρ : Type*} (t : Table (UUID × ℕ) ρ) (latest : UUID → Option ℕ) : Prop :=
  ∀ id n, (∃ row, t.get (id, n) = some row) ↔ ∃ m, latest id = some m ∧ 1 ≤ n ∧ n ≤ m

namespace Numbered

variable {ρ : Type*} {t : Table (UUID × ℕ) ρ} {latest latest' : UUID → Option ℕ} {id : UUID}

theorem of_eq (h : Numbered t latest) (hlatest : ∀ id, latest' id = latest id) :
    Numbered t latest' := by
  intro id n
  rw [hlatest]
  exact h id n

theorem modify (h : Numbered t latest) (k : UUID × ℕ) (f : ρ → ρ) :
    Numbered (t.modify k f) latest := by
  intro id n
  rw [← h id n, Table.get_modify]
  split
  · next heq => simp [heq]
  · rfl

/-- A new object has no rows. -/
theorem start (h : Numbered t latest) (hid : latest id = none) (hid' : latest' id = some 0)
    (hother : ∀ {id'}, id' ≠ id → latest' id' = latest id') : Numbered t latest' := by
  intro id' n
  rw [h id' n]
  by_cases heq : id' = id
  · subst heq
    simp only [hid, hid', reduceCtorEq, false_and, exists_false, Option.some.injEq, exists_eq_left',
      false_iff, not_and, not_le]
    omega
  · rw [hother heq]

/-- The next row of an object. -/
theorem insert {m : ℕ} {row : ρ} (h : Numbered t latest) (hid : latest id = some m)
    (hid' : latest' id = some (m + 1)) (hother : ∀ {id'}, id' ≠ id → latest' id' = latest id') :
    Numbered (t.insert (id, m + 1) row) latest' := by
  intro id' n
  by_cases heq : id' = id
  · subst heq
    have hold : (∃ row, t.get (id', n) = some row) ↔ 1 ≤ n ∧ n ≤ m := by
      rw [h id' n, hid]
      simp
    have hnew : (∃ row', (t.insert (id', m + 1) row).get (id', n) = some row') ↔
        n = m + 1 ∨ 1 ≤ n ∧ n ≤ m := by
      by_cases hn : n = m + 1
      · simp [hn]
      · have hne : (id', n) ≠ (id', m + 1) := fun hk => hn (Prod.mk.inj hk).2
        simp only [Table.get_insert_ne _ _ hne, hold, hn, false_or]
    rw [hnew, hid']
    simp only [Option.some.injEq, exists_eq_left']
    omega
  · have hne : (id', n) ≠ (id, m + 1) := fun hk => heq (Prod.mk.inj hk).1
    rw [Table.get_insert_ne _ _ hne, h id' n, hother heq]

end Numbered

namespace Store

variable {G : Guard} {s s' : Store}

/-- The latest version of a postmortem. -/
def latestVersion (s : Store) (id : UUID) : Option ℕ :=
  (s.postmortems.get id).map PostmortemRow.latestVersion

/-- The latest revision of an entry. -/
def latestRevision (s : Store) (id : UUID) : Option ℕ :=
  (s.entries.get id).map EntryRow.latestRevision

/-- **What holds after every operation.** -/
structure Sound (s : Store) : Prop where
  audited : s.Audited
  /-- An incident has one postmortem. -/
  unique : ∀ {id id' row row'}, s.postmortems.get id = some row →
    s.postmortems.get id' = some row' → row.incidentId = row'.incidentId → id = id'
  versions : Numbered s.versions s.latestVersion
  revisions : Numbered s.revisions s.latestRevision
  /-- Only the latest revision of an entry can be active. -/
  latest : ∀ {id n}, s.revisionState id n = some .active → s.latestRevision id = some n
  /-- A revision is a proposal of an approved version with valid citations and no dispute. -/
  sourced : ∀ {k row}, s.revisions.get k = some row → row.Sourced s

/-- A terminal version stays, so what a revision was written from stays. -/
theorem Keeps.sourced {row : RevisionRow} (h : s.Keeps s') (hsourced : row.Sourced s) :
    row.Sourced s' := by
  obtain ⟨hprincipal, version, hversion, hpublishable, p, hp, hequals⟩ := hsourced
  refine ⟨hprincipal, version, h.versions hversion ?_, hpublishable, p, hp, hequals⟩
  rw [hpublishable.approved]
  rfl

theorem Fresh.sound (h : s.Fresh) : s.Sound where
  audited kind id := by
    cases kind <;> simp [auditOf, generationOf, h.audit, h.postmortems, h.entries]
  unique hrow := by simp [h.postmortems] at hrow
  versions id n := by simp [latestVersion, h.versions, h.postmortems]
  revisions id n := by simp [latestRevision, h.revisions, h.entries]
  latest hactive := by simp [revisionState, h.revisions] at hactive
  sourced hrow := by simp [h.revisions] at hrow

theorem postmortemOf_eq_none {incidentId : UUID} :
    s.postmortemOf incidentId = none ↔
      ∀ id row, s.postmortems.get id = some row → row.incidentId ≠ incidentId := by
  simp only [postmortemOf, List.head?_eq_none_iff, List.eq_nil_iff_forall_not_mem, Prod.forall,
    Table.mem_select_iff, decide_eq_true_eq, not_and, ne_eq]

/-- An incident keeps having one postmortem when its rows keep their incident. -/
theorem unique_of_modify {id : UUID} {head : PostmortemRow} {f : PostmortemRow → PostmortemRow}
    (h : s.Sound) (hhead : s.postmortems.get id = some head)
    (hf : (f head).incidentId = head.incidentId) {id₁ id₂ : UUID} {row₁ row₂ : PostmortemRow}
    (h₁ : (s.postmortems.modify id f).get id₁ = some row₁)
    (h₂ : (s.postmortems.modify id f).get id₂ = some row₂)
    (heq : row₁.incidentId = row₂.incidentId) : id₁ = id₂ := by
  have hback : ∀ {id' row'}, (s.postmortems.modify id f).get id' = some row' →
      ∃ row, s.postmortems.get id' = some row ∧ row.incidentId = row'.incidentId := by
    intro id' row' hget
    obtain ⟨rfl, rfl⟩ | ⟨-, hget⟩ := (Table.get_modify_eq_some hhead).1 hget
    · exact ⟨head, hhead, hf.symm⟩
    · exact ⟨row', hget, rfl⟩
  obtain ⟨old₁, hold₁, heq₁⟩ := hback h₁
  obtain ⟨old₂, hold₂, heq₂⟩ := hback h₂
  exact h.unique hold₁ hold₂ (heq₁.trans (heq.trans heq₂.symm))

/-- A revision that was there was active before if it is active now. -/
theorem Write.active_before (h : Write G s s') {id : UUID} {n : ℕ} {row : RevisionRow}
    (hrow : s.revisions.get (id, n) = some row) (hactive : s'.revisionState id n = some .active) :
    s.revisionState id n = some .active := by
  obtain ⟨state, hstate⟩ : ∃ state, s.revisionState id n = some state := by
    simp [revisionState, hrow]
  by_cases heq : state = .active
  · rw [hstate, heq]
  · rw [h.frozen hstate heq] at hactive
    exact absurd (Option.some.inj hactive) heq

/-- **What holds is kept by every write.** -/
theorem Write.sound (hwrite : Write G s s') (h : s.Sound) : s'.Sound := by
  have haudited := Write.audited hwrite h.audited
  have hsourced : ∀ {row : RevisionRow}, row.Sourced s → row.Sourced s' :=
    fun hrow => hwrite.keeps.sourced hrow
  have hactiveBefore : ∀ {id n row}, s.revisions.get (id, n) = some row →
      s'.revisionState id n = some .active → s.revisionState id n = some .active :=
    fun hrow hactive => Write.active_before hwrite hrow hactive
  cases hwrite with
  | jobs jobs => exact { h with }
  | request row hnew => exact { h with }
  | @start id incidentId hnew hfirst =>
    have hnone : s.latestVersion id = none := congrArg _ hnew
    refine { h with
      audited := haudited
      unique := fun {id₁ id₂ row₁ row₂} h₁ h₂ heq => ?_
      versions := h.versions.start hnone ?_ fun {id'} hne => ?_ }
    · have hold := postmortemOf_eq_none.1 hfirst
      obtain ⟨rfl, rfl⟩ | ⟨hne₁, hget₁⟩ := Table.get_insert_eq_some.1 h₁ <;>
        obtain ⟨rfl, rfl⟩ | ⟨hne₂, hget₂⟩ := Table.get_insert_eq_some.1 h₂
      · rfl
      · exact absurd heq.symm (hold _ _ hget₂)
      · exact absurd heq (hold _ _ hget₁)
      · exact h.unique hget₁ hget₂ heq
    · simp [latestVersion]
    · exact congrArg (Option.map _) (Table.get_insert_ne _ _ hne)
  | @draft id head generation audit row hhead hgeneration hnew haudit hguard =>
    have hlatest : s.latestVersion id = some head.latestVersion := congrArg (Option.map _) hhead
    refine { h with
      audited := haudited
      unique := unique_of_modify h hhead rfl
      versions := h.versions.insert hlatest ?_ fun {id'} hne => ?_
      sourced := fun hrow => hsourced (h.sourced hrow) }
    · exact congrArg (Option.map _) (get_modify_of_get _ hhead)
    · exact congrArg (Option.map _) (Table.get_modify_ne _ _ hne)
  | @advance id version generation head row audit trigger state staleReason hhead hgeneration hrow
      hfire haudit hguard hsubmit =>
    refine { h with
      audited := haudited
      unique := unique_of_modify h hhead rfl
      versions := (h.versions.modify _ _).of_eq fun id' => ?_
      sourced := fun hrow => hsourced (h.sourced hrow) }
    obtain rfl | hne := eq_or_ne id' id
    · have hnext := get_modify_of_get (fun row => { row with generation := generation + 1 }) hhead
      have hlatest : s.latestVersion id' = some head.latestVersion := congrArg (Option.map _) hhead
      exact (congrArg (Option.map PostmortemRow.latestVersion) hnext).trans hlatest.symm
    · exact congrArg (Option.map _) (Table.get_modify_ne _ _ hne)
  | @enter id hnew =>
    have hnone : s.latestRevision id = none := congrArg _ hnew
    refine { h with
      audited := haudited
      revisions := h.revisions.start hnone ?_ fun {id'} hne => ?_
      latest := fun {id' n} hactive => ?_ }
    · simp [latestRevision]
    · exact congrArg (Option.map _) (Table.get_insert_ne _ _ hne)
    · obtain ⟨entry, hentry, hn⟩ := Option.map_eq_some_iff.1 (h.latest hactive)
      rw [latestRevision, Table.get_insert_of_get _ hnew hentry, Option.map_some, hn]
  | @publish id entry row audit hentry hnew hsupersedes hpublished haudit =>
    have hlatest : s.latestRevision id = some entry.latestRevision := congrArg (Option.map _) hentry
    have hother : ∀ {id'}, id' ≠ id → latestRevision { s with
        audit := s.audit ++ [audit]
        entries := s.entries.modify id fun _ => ⟨entry.generation + 1, entry.latestRevision + 1⟩
        revisions := s.revisions.insert (id, entry.latestRevision + 1) row } id' =
          s.latestRevision id' :=
      fun hne => congrArg (Option.map _) (Table.get_modify_ne _ _ hne)
    have hself := congrArg (Option.map EntryRow.latestRevision)
      (get_modify_of_get (fun _ => ⟨entry.generation + 1, entry.latestRevision + 1⟩) hentry)
    refine { h with
      audited := haudited
      revisions := h.revisions.insert hlatest hself hother
      latest := fun {id' n} hactive => ?_
      sourced := fun {k row'} hrow => ?_ }
    · obtain ⟨⟨row', hrow'⟩, hrevoked, hsuperseded⟩ := revisionState_eq_active.1 hactive
      obtain ⟨heq, rfl⟩ | ⟨hne, hold⟩ := Table.get_insert_eq_some.1 hrow'
      · obtain ⟨rfl, rfl⟩ := Prod.mk.inj heq
        exact hself
      · -- an older revision was active before, so it is the one the new revision supersedes
        have hbefore := hactiveBefore hold hactive
        obtain rfl | hid := eq_or_ne id' id
        · have hn : n = entry.latestRevision :=
            Option.some.inj ((h.latest hbefore).symm.trans hlatest)
          have hpos : entry.latestRevision ≠ 0 := by
            obtain ⟨m, -, hpos, -⟩ := (h.revisions id' n).1 ⟨_, hold⟩
            omega
          rw [hn] at hbefore hsuperseded
          rw [if_pos ⟨hpos, hbefore⟩] at hsupersedes
          exact absurd ⟨_, row, Table.get_insert_self .., rfl, hsupersedes⟩ hsuperseded
        · rw [hother hid]
          exact h.latest hbefore
    · obtain ⟨-, rfl⟩ | ⟨-, hold⟩ := Table.get_insert_eq_some.1 hrow
      · exact hsourced hpublished.sourced
      · exact hsourced (h.sourced hold)
  | @revoke id revision generation entry audit row hentry hgeneration hactive hnew haudit =>
    have hsame : ∀ id', latestRevision { s with
        audit := s.audit ++ [audit]
        entries := s.entries.modify id fun row => { row with generation := generation + 1 }
        revocations := s.revocations.insert (id, revision) row } id' = s.latestRevision id' := by
      intro id'
      obtain rfl | hne := eq_or_ne id' id
      · have hnext :=
          get_modify_of_get (fun row => { row with generation := generation + 1 }) hentry
        have hlatest : s.latestRevision id' = some entry.latestRevision :=
          congrArg (Option.map _) hentry
        exact (congrArg (Option.map EntryRow.latestRevision) hnext).trans hlatest.symm
      · exact congrArg (Option.map _) (Table.get_modify_ne _ _ hne)
    refine { h with
      audited := haudited
      revisions := h.revisions.of_eq hsame
      latest := fun {id' n} hactive' => ?_ }
    obtain ⟨row', hrow'⟩ := (revisionState_eq_active.1 hactive').1
    rw [hsame]
    exact h.latest (hactiveBefore hrow' hactive')

end Store

theorem Reachable.sound {s : Store} (h : system.Reachable s) : s.Sound :=
  h.invariant (fun _ hfresh => hfresh.sound) fun hstep hsound =>
    Store.stable_of_writes (P := Store.Sound) Store.Write.sound (fun _ hs => { hs with }) hstep
      hsound

/-! ## What a revision is written from -/

namespace Store

variable {G : Guard} {s s' t : Store}

theorem Write.incidents (h : Write G s s') : s'.incidents = s.incidents := by
  cases h <;> rfl

theorem Write.published {row : RevisionRow} (h : Write G s s') (hpublished : row.Published s) :
    row.Published s' := by
  obtain ⟨hprincipal, version, head, incident, hversion, hpublishable, hproposal, hhead, hincident,
    hmatches⟩ := hpublished
  obtain ⟨head', hhead', hsame⟩ := h.keeps.postmortems hhead
  refine ⟨hprincipal, version, head', incident, h.keeps.versions hversion ?_, hpublishable,
    hproposal, hhead', ?_, hmatches⟩
  · rw [hpublishable.approved]
    rfl
  · rw [Write.incidents h, hsame, hincident]

/-- The only write that adds a revision publishes it. -/
theorem Write.revisions (h : Write G s s') {k : UUID × ℕ} {row : RevisionRow}
    (hrow : s'.revisions.get k = some row) : s.revisions.get k = some row ∨ row.Published s' := by
  cases hwrite : h with
  | publish hentry hnew hsupersedes hpublished haudit =>
    obtain ⟨-, rfl⟩ | ⟨-, hold⟩ := Table.get_insert_eq_some.1 hrow
    · exact .inr (Write.published h hpublished)
    · exact .inl hold
  | _ => exact .inl hrow

/-- A revision is there before an operation, or the operation published it. -/
theorem Step.revisions (h : system.Step s op s') {k : UUID × ℕ} {row : RevisionRow}
    (hrow : s'.revisions.get k = some row) :
    s.revisions.get k = some row ∨ row.Published s' ∧ s'.incidents = s.incidents := by
  obtain rfl : s.after op = s' := h
  obtain hwrites | ⟨id, facts, heq⟩ := s.after_cases op
  · -- along the writes of the operation the incidents stay as they are
    have hall : (s.after op).incidents = s.incidents ∧
        ∀ row, (s.after op).revisions.get k = some row →
          s.revisions.get k = some row ∨ row.Published (s.after op) := by
      refine hwrites.stable (P := fun u => u.incidents = s.incidents ∧
        ∀ row, u.revisions.get k = some row → s.revisions.get k = some row ∨ row.Published u)
        (fun hwrite hu => ⟨(Write.incidents hwrite).trans hu.1, fun row hget => ?_⟩)
        ⟨rfl, fun _ hget => .inl hget⟩
      obtain hold | hpublished := Write.revisions hwrite hget
      · exact (hu.2 row hold).imp_right (Write.published hwrite)
      · exact .inr hpublished
    exact (hall.2 row hrow).imp_right fun hpublished => ⟨hpublished, hall.1⟩
  · rw [heq] at hrow
    exact .inl hrow

/-- A step of the run wrote the revision, from a publishable version of an incident that equalled
its watermark then. -/
def WrittenIn (s : Store) (ops : List Op) (t : Store) (k : UUID × ℕ) (row : RevisionRow) : Prop :=
  ∃ ops₁ op ops₂ before after, ops = ops₁ ++ op :: ops₂ ∧ system.Run s ops₁ before ∧
    system.Step before op after ∧ system.Run after ops₂ t ∧ before.revisions.get k = none ∧
    after.revisions.get k = some row ∧ row.Published after ∧ after.incidents = before.incidents

theorem Run.written (h : system.Run s ops t) {k : UUID × ℕ} {row : RevisionRow}
    (hnone : s.revisions.get k = none) (hrow : t.revisions.get k = some row) :
    WrittenIn s ops t k row := by
  induction h with
  | nil s =>
    rw [hnone] at hrow
    cases hrow
  | @cons s u t op ops hstep hrun ih =>
    cases hu : u.revisions.get k with
    | none =>
      obtain ⟨ops₁, op', ops₂, before, after, rfl, hbefore, hafter⟩ := ih hu hrow
      exact ⟨op :: ops₁, op', ops₂, before, after, rfl, .cons hstep hbefore, hafter⟩
    | some row' =>
      obtain rfl : row' = row :=
        Option.some.inj (((Run.keeps hrun).revisions hu).symm.trans hrow)
      obtain hold | ⟨hpublished, hincidents⟩ := Step.revisions hstep hu
      · rw [hnone] at hold
        cases hold
      · exact ⟨[], op, ops, s, u, rfl, .nil s, hstep, hrun, hnone, hu, hpublished, hincidents⟩

/-! ## Requests made again -/

end Store

/-- What an operation checks of a request before its transaction. -/
def Request.validate : Request → Except KnowledgeError Unit
  | generate r => r.validate
  | transition r => r.validate
  | revoke r => r.validate

/-- The objects a request is about are there. -/
def Request.Found (s : Store) : Request → Prop
  | generate r => (∃ incident, s.incidents.get r.incidentId = some incident) ∧
      ∃ head, s.postmortemOf r.incidentId = some head
  | transition r => ∃ head, s.postmortems.get r.postmortemId = some head
  | revoke r => ∃ head, s.entries.get r.entryId = some head

namespace Store

variable {s s' t : Store} {request : Request} {result : ActionResult}

theorem Keeps.found (h : s.Keeps t) (hfound : request.Found s) : request.Found t := by
  cases request with
  | generate r =>
    obtain ⟨⟨incident, hincident⟩, head, hhead⟩ := hfound
    refine ⟨h.incidents hincident, ?_⟩
    obtain ⟨hget, heq⟩ := postmortemOf_eq_some hhead
    obtain ⟨row, hrow, hsame⟩ := h.postmortems hget
    cases hnone : t.postmortemOf r.incidentId with
    | some head' => exact ⟨head', rfl⟩
    | none => exact absurd (hsame.trans heq) (postmortemOf_eq_none.1 hnone _ _ hrow)
  | transition r =>
    obtain ⟨head, hhead⟩ := hfound
    obtain ⟨row, hrow, -⟩ := h.postmortems hhead
    exact ⟨row, hrow⟩
  | revoke r =>
    obtain ⟨head, hhead⟩ := hfound
    exact h.entries hhead

theorem Keeps.replay (h : s.Keeps t) {key : String}
    (hreplay : s.replay key request = .ok (some result)) :
    t.replay key request = .ok (some result) := by
  obtain ⟨row, hrow, -⟩ := replay_some hreplay
  unfold Store.replay at hreplay ⊢
  rw [hrow] at hreplay
  rw [h.requests hrow]
  exact hreplay

theorem replay_of_recordRequest {key : String} {answer : ActionResult}
    (h : s.recordRequest key request answer = .ok (result, s')) :
    s'.replay key request = .ok (some { result with replayed := true }) := by
  obtain ⟨-, rfl, rfl⟩ := recordRequest_ok h
  simp [replay, refuse]

/-- What is replayed is marked as replayed. -/
theorem replay_again {key : String} (h : s.replay key request = .ok (some result)) :
    s.replay key request = .ok (some { result with replayed := true }) := by
  obtain ⟨row, -, -, rfl⟩ := replay_some h
  exact h

/-- What a request that was served leaves. -/
theorem serve_ok {fresh : UUID} {ids : String → UUID}
    (h : s.serve fresh ids request = .ok (result, s')) :
    request.validate = .ok () ∧ request.Found s' ∧
      s'.replay request.key request = .ok (some { result with replayed := true }) := by
  have hkeeps := (serve_writes h).keeps
  cases request with
  | generate r =>
    obtain ⟨incident, opened, head, hvalid, hincident, hopened, hhead, hcases⟩ :=
      recordDraft_cases h
    have hopen : Writes anyChange s opened := openPostmortem_writes hopened
    have hfound : (Request.generate r).Found opened :=
      ⟨hopen.keeps.incidents hincident, head, hhead⟩
    obtain ⟨hreplay, rfl⟩ | ⟨-, hchecks, written, hwritten, hrecord⟩ := hcases
    · exact ⟨hvalid, hfound, replay_again hreplay⟩
    · have hwrites : Writes anyChange opened written := writeDraft_writes (fun _ _ _ => trivial)
        (postmortemOf_eq_some hhead).1 (draftChecks_ok hchecks).1 hwritten
      exact ⟨hvalid, (Writes.keeps (hwrites.trans (recordRequest_writes hrecord))).found hfound,
        replay_of_recordRequest hrecord⟩
  | transition r =>
    obtain ⟨head, hvalid, hhead, hcases⟩ := transition_cases h
    refine ⟨hvalid, hkeeps.found ⟨head, hhead⟩, ?_⟩
    obtain ⟨hreplay, rfl⟩ | ⟨-, -, row, target, moved, published, -, -, -, -, -, hrecord⟩ := hcases
    · exact replay_again hreplay
    · exact replay_of_recordRequest hrecord
  | revoke r =>
    obtain ⟨head, hvalid, hhead, hcases⟩ := revoke_cases h
    refine ⟨hvalid, hkeeps.found ⟨head, hhead⟩, ?_⟩
    obtain ⟨hreplay, rfl⟩ | ⟨-, -, -, written, -, hrecord⟩ := hcases
    · exact replay_again hreplay
    · exact replay_of_recordRequest hrecord

/-- A request whose key is recorded for it is answered from the record. -/
theorem serve_of_replay (hvalid : request.validate = .ok ()) (hfound : request.Found s)
    (hreplay : s.replay request.key request = .ok (some result)) (fresh : UUID)
    (ids : String → UUID) : s.serve fresh ids request = .ok (result, s) := by
  cases request with
  | generate r =>
    obtain ⟨⟨incident, hincident⟩, head, hhead⟩ := hfound
    have hopened : s.openPostmortem fresh r.incidentId = .ok s := by
      rw [openPostmortem, hhead]
      rfl
    refine bind_eq_ok.2 ⟨(), hvalid, ?_⟩
    refine require_bind_eq_ok.2 ⟨incident, hincident, bind_eq_ok.2 ⟨s, hopened, ?_⟩⟩
    exact require_bind_eq_ok.2 ⟨head, hhead, bind_eq_ok.2 ⟨_, hreplay, rfl⟩⟩
  | transition r =>
    obtain ⟨head, hhead⟩ := hfound
    refine bind_eq_ok.2 ⟨(), hvalid, require_bind_eq_ok.2 ⟨head, hhead, ?_⟩⟩
    exact bind_eq_ok.2 ⟨_, hreplay, rfl⟩
  | revoke r =>
    obtain ⟨head, hhead⟩ := hfound
    refine bind_eq_ok.2 ⟨(), hvalid, require_bind_eq_ok.2 ⟨head, hhead, ?_⟩⟩
    exact bind_eq_ok.2 ⟨_, hreplay, rfl⟩

/-- **A request repeated with its key returns the first result and changes nothing**, whatever
happened in between and whatever ids it would draw. -/
theorem serve_again {fresh fresh' : UUID} {ids ids' : String → UUID}
    (h : s.serve fresh ids request = .ok (result, s')) (hrun : system.Run s' ops t) :
    t.serve fresh' ids' request = .ok ({ result with replayed := true }, t) := by
  obtain ⟨hvalid, hfound, hreplay⟩ := serve_ok h
  have hkeeps := Run.keeps hrun
  exact serve_of_replay hvalid (hkeeps.found hfound) (hkeeps.replay hreplay) fresh' ids'

/-! ## Publication -/

/-- The state of a revision that is not active is final. -/
theorem Run.frozen (hrun : system.Run s ops t) {id : UUID} {n : ℕ} {state : KnowledgeState}
    (hstate : s.revisionState id n = some state) (hnot : state ≠ .active) :
    t.revisionState id n = some state := by
  refine hrun.stable (P := fun u => u.revisionState id n = some state) (fun hstep hu => ?_) hstate
  exact stable_of_writes (P := fun u => u.revisionState id n = some state)
    (fun hwrite hw => hwrite.frozen hw hnot) (fun _ hw => hw) hstep hu

/-- A refused operation changes nothing. -/
theorem after_of_error {e : KnowledgeError} (h : s.exec op = .error e) :
    s.after op = s := by
  rw [after, h]

/-- **Knowledge publication is sound.** After any run of requests, stale marking and changes of the
incidents, every revision is a proposal of an approved version, written while the incident equalled
the watermark; the revisions of an entry are numbered densely and at most one is active; the
generation of an object is the number of its audit rows. In whatever follows, the state of a
revision that is not active and a terminal version stay as they are, a request repeated with its key
returns its first result and changes nothing, and a refused operation changes nothing. -/
theorem knowledge_publication {s₀ : Store} {ops : List Op} (hinit : s₀.Fresh)
    (hrun : system.Run s₀ ops s) :
    (∀ k row, s.revisions.get k = some row → row.Sourced s ∧ WrittenIn s₀ ops s k row) ∧
    (∀ id m n, s.revisionState id m = some .active → s.revisionState id n = some .active → m = n) ∧
    Numbered s.revisions s.latestRevision ∧
    (∀ kind id, s.generationOf kind id = (s.auditOf kind id).length) ∧
    (∀ ops' t, system.Run s ops' t →
      (∀ id n state, s.revisionState id n = some state → state ≠ .active →
        t.revisionState id n = some state) ∧
      (∀ k row, s.versions.get k = some row → postmortem.terminal row.state = true →
        t.versions.get k = some row)) ∧
    (∀ fresh ids request result s', s.serve fresh ids request = .ok (result, s') →
      ∀ ops' t, system.Run s' ops' t → ∀ fresh' ids',
        t.serve fresh' ids' request = .ok ({ result with replayed := true }, t)) ∧
    (∀ op e, s.exec op = .error e → s.after op = s) := by
  have hsound := Reachable.sound ⟨s₀, ops, hinit, hrun⟩
  refine ⟨fun k row hrow => ⟨hsound.sourced hrow, ?_⟩, fun id m n hm hn => ?_, hsound.revisions,
    fun kind id => ?_, fun ops' t hrun' => ⟨fun id n state => Run.frozen hrun',
      fun k row => (Run.keeps hrun').versions⟩,
    fun fresh ids request result s' h ops' t hrun' fresh' ids' => serve_again h hrun',
    fun op e => after_of_error⟩
  · exact Run.written hrun (by rw [hinit.revisions, Table.get_empty]) hrow
  · exact Option.some.inj ((hsound.latest hm).symm.trans (hsound.latest hn))
  · have hlength := congrArg List.length (hsound.audited kind id)
    rw [List.length_map, List.length_range'] at hlength
    exact hlength.symm

/-- An incident that ended with one Run, with a postmortem draft of one proposal, and its approval.
-/
def publicationStart : Store where
  incidents := (∅ : Table UUID Incident).insert 1
    { controlGeneration := 1, observationGeneration := 1, currentRunId := some 5
      runs := [(5, .completed)], inputs := [1]
      sessions := [⟨3, .completed, 1, [4]⟩] }

@[inherit_doc publicationStart]
def publicationRun : List Op :=
  [.serve 6 (fun _ => 7) (.generate
    { incidentId := 1, expectedGeneration := 0, idempotencyKey := "draft"
      actor := ⟨"worker", .worker⟩, content := "{}"
      watermark := ⟨1, 1, 3, 4, 1, some 5, 1, []⟩
      conclusions := [⟨"cause", "root_cause", "disk full", .code, .deterministic, true, []⟩]
      proposals := [{ key := "disk", name := "Disk full", tags := ["disk"], content := "{}" }] }),
   .serve 6 (fun _ => 7) (.transition
    { postmortemId := 6, version := 1, move := .approve ∅, expectedGeneration := 2
      idempotencyKey := "approve", actor := ⟨"reviewer", .basicAuth⟩ })]

theorem publicationRun_sound :
    (publicationRun.foldl after publicationStart).revisionState 7 1 = some .active ∧
      ∀ k row, (publicationRun.foldl after publicationStart).revisions.get k = some row →
        row.Sourced (publicationRun.foldl after publicationStart) ∧
          WrittenIn publicationStart publicationRun (publicationRun.foldl after publicationStart) k
            row :=
  ⟨by decide +kernel,
    (knowledge_publication ⟨rfl, rfl, rfl, rfl, rfl, rfl, rfl⟩
      (run_foldl publicationStart publicationRun)).1⟩

end Store

end OpsPilot.Knowledge
