import OpsPilot.System.Generation

/-!
# What the knowledge operations leave of an incident they have not locked

Every knowledge transaction that could keep an incident from being cleaned locks its row: a review
and a draft lock it `FOR SHARE`, and the foreign key of a new attempt takes a key lock. The others
add nothing that keeps it.

* `Event.locks`: the incidents whose rows a transaction locks.
* `World.Leaves`: no reason to keep the incident is new.
* **`World.after_leaves`**: a transaction leaves an incident that it does not lock.
-/

namespace OpsPilot.Knowledge

namespace Store

/-- The postmortem is of the incident. -/
def Heads (s : Store) (id incidentId : UUID) : Prop :=
  ∃ head, s.postmortems.get id = some head ∧ head.incidentId = incidentId

/-- Only the versions of one postmortem, the revisions sourced from it and the job of its incident
are touched, or that postmortem is new. -/
structure Confined (id incidentId : UUID) (s s' : Store) : Prop where
  heads : ∀ {p i}, s'.Heads p i → s.Heads p i ∨ i = incidentId
  versions : ∀ {k}, k.1 ≠ id → s'.versions.get k = s.versions.get k
  sourced : ∀ {k row}, s'.revisions.get k = some row →
    s.revisions.get k = some row ∨ row.sourcePostmortemId = id
  revisions : ∀ {k row}, s.revisions.get k = some row → s'.revisions.get k = some row
  revocations : ∀ {k row}, s.revocations.get k = some row → s'.revocations.get k = some row
  jobs : ∀ {i}, i ≠ incidentId → s'.jobs.get i = s.jobs.get i

/-- No reason to keep the incident is new. -/
structure Leaves (incidentId : UUID) (s s' : Store) : Prop where
  heads : ∀ {p}, s'.Heads p incidentId → s.Heads p incidentId
  versions : ∀ {k row'}, s'.Heads k.1 incidentId → s'.versions.get k = some row' →
    row'.state = .underReview → ∃ row, s.versions.get k = some row ∧ row.state = .underReview
  revisions : ∀ {k row}, s'.revisions.get k = some row →
    s'.Heads row.sourcePostmortemId incidentId →
    s'.revisionState k.1 k.2 = some .active →
    s.revisions.get k = some row ∧ s.revisionState k.1 k.2 = some .active
  pending : ∀ {job'}, s'.jobs.get incidentId = some job' → job'.pendingRegenerationVersion.isSome →
    ∃ job, s.jobs.get incidentId = some job ∧ job.pendingRegenerationVersion.isSome
  lease : ∀ {job' t}, s'.jobs.get incidentId = some job' → job'.leaseUntil = some t →
    ∃ job, s.jobs.get incidentId = some job ∧ job.leaseUntil = some t

variable {s s' s'' : Store} {id incidentId i : UUID}

namespace Leaves

theorem refl (i : UUID) (s : Store) : s.Leaves i s where
  heads h := h
  versions _ h hstate := ⟨_, h, hstate⟩
  revisions h _ hactive := ⟨h, hactive⟩
  pending h hpending := ⟨_, h, hpending⟩
  lease h hlease := ⟨_, h, hlease⟩

theorem trans (h : s.Leaves i s') (h' : s'.Leaves i s'') : s.Leaves i s'' where
  heads hp := h.heads (h'.heads hp)
  versions hhead hrow hstate := by
    obtain ⟨row, hrow, hstate⟩ := h'.versions hhead hrow hstate
    exact h.versions (h'.heads hhead) hrow hstate
  revisions hrow hhead hactive := by
    obtain ⟨hrow, hactive⟩ := h'.revisions hrow hhead hactive
    exact h.revisions hrow (h'.heads hhead) hactive
  pending hjob hpending := by
    obtain ⟨job, hjob, hpending⟩ := h'.pending hjob hpending
    exact h.pending hjob hpending
  lease hjob hlease := by
    obtain ⟨job, hjob, hlease⟩ := h'.lease hjob hlease
    exact h.lease hjob hlease

end Leaves

/-- A revision that is active was active before, if it was there. -/
theorem active_before (hrevisions : ∀ {k row}, s.revisions.get k = some row →
      s'.revisions.get k = some row)
    (hrevocations : ∀ {k row}, s.revocations.get k = some row → s'.revocations.get k = some row)
    {k : UUID × ℕ} {row : RevisionRow} (hrow : s.revisions.get k = some row)
    (hactive : s'.revisionState k.1 k.2 = some .active) :
    s.revisionState k.1 k.2 = some .active := by
  rw [revisionState_eq_active] at hactive ⊢
  obtain ⟨-, hrevoked, hsuperseded⟩ := hactive
  refine ⟨⟨row, hrow⟩, ?_, ?_⟩
  · by_contra hsome
    obtain ⟨tombstone, htombstone⟩ := Option.ne_none_iff_exists'.1 hsome
    rw [hrevocations htombstone] at hrevoked
    cases hrevoked
  · rintro ⟨k', row', hrow', hk⟩
    exact hsuperseded ⟨k', row', hrevisions hrow', hk⟩

variable {result : ActionResult} {r : TransitionRequest}

namespace Confined

theorem refl (id incidentId : UUID) (s : Store) : s.Confined id incidentId s where
  heads h := .inl h
  versions _ := rfl
  sourced h := .inl h
  revisions h := h
  revocations h := h
  jobs _ := rfl

theorem trans (h : s.Confined id incidentId s') (h' : s'.Confined id incidentId s'') :
    s.Confined id incidentId s'' where
  heads hp := (h'.heads hp).elim h.heads .inr
  versions hk := (h'.versions hk).trans (h.versions hk)
  sourced hrow := (h'.sourced hrow).elim h.sourced .inr
  revisions hrow := h'.revisions (h.revisions hrow)
  revocations hrow := h'.revocations (h.revocations hrow)
  jobs hi := (h'.jobs hi).trans (h.jobs hi)

/-- What touches one postmortem only leaves every other incident. -/
theorem leaves (h : s.Confined id incidentId s') (hid : s'.Heads id incidentId)
    (hne : i ≠ incidentId) : s.Leaves i s' := by
  have hother : ∀ {p}, s'.Heads p i → p ≠ id := by
    rintro p ⟨head, hhead, hincident⟩ rfl
    obtain ⟨head', hhead', hincident'⟩ := hid
    rw [hhead'] at hhead
    cases hhead
    exact hne (hincident.symm.trans hincident')
  refine ⟨fun hp => (h.heads hp).resolve_right hne, fun hhead hrow hstate => ?_,
    fun hrow hhead hactive => ?_, fun hjob hpending => ?_, fun hjob hlease => ?_⟩
  · rw [h.versions (hother hhead)] at hrow
    exact ⟨_, hrow, hstate⟩
  · have hold := (h.sourced hrow).resolve_right (hother hhead)
    exact ⟨hold, active_before h.revisions h.revocations hold hactive⟩
  · rw [h.jobs hne] at hjob
    exact ⟨_, hjob, hpending⟩
  · rw [h.jobs hne] at hjob
    exact ⟨_, hjob, hlease⟩

/-- A rewrite of a postmortem that keeps its incident. -/
theorem modify_postmortem (s : Store) (p : UUID) {f : PostmortemRow → PostmortemRow}
    (hf : ∀ row, (f row).incidentId = row.incidentId) :
    s.Confined id incidentId { s with postmortems := s.postmortems.modify p f } := by
  refine { refl id incidentId s with heads := ?_ }
  rintro q i ⟨head, hhead, rfl⟩
  rw [Table.get_modify] at hhead
  split at hhead
  · obtain ⟨old, hold, rfl⟩ := Option.map_eq_some_iff.1 hhead
    exact .inl ⟨old, hold, (hf old).symm⟩
  · exact .inl ⟨head, hhead, rfl⟩

/-- A new state of a version of the postmortem. -/
theorem setVersionState (s : Store) (version : ℕ) (state : PostmortemState)
    (staleReason : Option StaleReason) :
    s.Confined id incidentId (s.setVersionState id version state staleReason) := by
  refine { refl id incidentId s with versions := fun hk => ?_ }
  exact Table.get_modify_ne _ _ fun heq => hk (by rw [heq])

/-- A change of a postmortem's generation, with its audit row. -/
theorem bump (s : Store) (p : UUID) (generation : ℕ) (audit : AuditRow) :
    s.Confined id incidentId
      ({ s with audit := s.audit ++ [audit] }.bumpPostmortem p generation) :=
  let h : s.Confined id incidentId (s.bumpPostmortem p generation) :=
    modify_postmortem s p fun _ => rfl
  { h with }

/-- The job of the incident. -/
theorem modify_job (s : Store) (f : JobRow → JobRow) :
    s.Confined id incidentId { s with jobs := s.jobs.modify incidentId f } :=
  { refl id incidentId s with jobs := fun hi => Table.get_modify_ne _ _ hi }

theorem recordRequest {key : String} {request : Request} {answer : ActionResult}
    (h : s.recordRequest key request answer = .ok (result, s')) :
    s.Confined id incidentId s' := by
  obtain ⟨-, -, rfl⟩ := recordRequest_ok h
  exact { refl id incidentId s with }

theorem auditRow {row : AuditRow} (h : s.auditRow row = .ok s') : s.Confined id incidentId s' := by
  obtain rfl := auditRow_ok h
  exact { refl id incidentId s with }

theorem openPostmortem {fresh : UUID} (h : s.openPostmortem fresh incidentId = .ok s') :
    s.Confined id incidentId s' := by
  unfold Store.openPostmortem at h
  split at h
  · obtain rfl := pure_eq_ok.1 h
    exact refl id incidentId s
  · simp only [refuse_bind_eq_ok, pure_eq_ok] at h
    obtain ⟨-, rfl⟩ := h
    refine { refl id incidentId s with heads := ?_ }
    rintro p i ⟨head, hhead, rfl⟩
    obtain ⟨-, rfl⟩ | ⟨-, hold⟩ := Table.get_insert_eq_some.1 hhead
    · exact .inr rfl
    · exact .inl ⟨head, hold, rfl⟩

/-! ## Drafts -/

theorem regenerated (s : Store) {r : DraftRequest} (hr : r.incidentId = incidentId) :
    s.Confined id incidentId (s.regenerated r) := by
  unfold Store.regenerated
  split
  · rw [hr]
    exact modify_job s _
  · exact refl id incidentId s

theorem insertVersion {version : ℕ} {r : DraftRequest}
    (h : s.insertVersion id version r = .ok s') : s.Confined id incidentId s' := by
  obtain ⟨-, rfl⟩ := insertVersion_ok h
  let hheads : s.Confined id incidentId _ := modify_postmortem s id
    (f := fun row => { row with generation := r.expectedGeneration + 1, latestVersion := version })
    fun _ => rfl
  exact { hheads with versions := fun hk => Table.get_insert_ne _ _ fun heq => hk (by rw [heq]) }

theorem writeDraft {head : PostmortemRow} {r : DraftRequest} (hr : r.incidentId = incidentId)
    (h : s.writeDraft id head r = .ok s') : s.Confined id incidentId s' := by
  obtain ⟨audited, haudit, h⟩ := bind_eq_ok.1 h
  obtain ⟨drafted, hdraft, h⟩ := bind_eq_ok.1 h
  have hdrafted : s.Confined id incidentId drafted :=
    ((regenerated s hr).trans (auditRow haudit)).trans (insertVersion hdraft)
  split at h
  · obtain rfl := submit_ok h
    exact (hdrafted.trans (bump drafted id _ _)).trans (setVersionState _ _ _ _)
  · obtain rfl := pure_eq_ok.1 h
    exact hdrafted

end Confined

/-- A postmortem keeps its incident. -/
theorem Heads.keeps (h : s.Heads id i) (hkeeps : s.Keeps s') : s'.Heads id i := by
  obtain ⟨head, hhead, hincident⟩ := h
  obtain ⟨head', hhead', hsame⟩ := hkeeps.postmortems hhead
  exact ⟨head', hhead', hsame.trans hincident⟩

/-- A draft leaves every other incident. -/
theorem recordDraft_leaves {fresh : UUID} {r : DraftRequest}
    (h : s.recordDraft fresh r = .ok (result, s')) (hne : i ≠ r.incidentId) : s.Leaves i s' := by
  obtain ⟨incident, opened, head, -, -, hopened, hhead, hcases⟩ := recordDraft_cases h
  obtain ⟨hget, hincident⟩ := postmortemOf_eq_some hhead
  have hopened : s.Confined head.1 r.incidentId opened := .openPostmortem hopened
  have hheads : opened.Heads head.1 r.incidentId := ⟨head.2, hget, hincident⟩
  obtain ⟨-, rfl⟩ | ⟨-, hchecks, written, hwritten, hrecord⟩ := hcases
  · exact hopened.leaves hheads hne
  · have hwrites := writeDraft_writes (G := anyChange) (fun _ _ _ => trivial) hget
      (draftChecks_ok hchecks).1 hwritten
    have hkeeps : opened.Keeps s' :=
      Writes.keeps (hwrites.trans (recordRequest_writes hrecord))
    have hkept := hheads.keeps hkeeps
    exact ((hopened.trans (.writeDraft rfl hwritten)).trans (.recordRequest hrecord)).leaves hkept
      hne

/-! ## Reviews -/

namespace Confined

theorem requestRegeneration (s : Store) (version : ℕ) (move : Move) :
    s.Confined id incidentId (s.requestRegeneration incidentId version move) := by
  unfold Store.requestRegeneration
  split
  · refine { refl id incidentId s with jobs := fun hi => ?_ }
    dsimp only
    split
    · exact Table.get_insert_ne _ _ hi
    · exact Table.get_modify_ne _ _ hi
  · exact refl id incidentId s

variable {generations : Table UUID ℕ} {published : List (String × Published) × Store}

theorem entryFor {fresh : UUID} {p : Proposal} {found : (UUID × EntryRow) × Store}
    (h : s.entryFor fresh generations p = .ok found) :
    s.Confined id incidentId found.2 := by
  unfold Store.entryFor at h
  split at h
  · simp only [refuse_bind_eq_ok, pure_eq_ok] at h
    obtain ⟨-, rfl⟩ := h
    exact { refl id incidentId s with }
  · simp only [require_bind_eq_ok, refuse_bind_eq_ok, pure_eq_ok] at h
    obtain ⟨expected, -, row, -, -, rfl⟩ := h
    exact refl id incidentId s

/-- A new revision is sourced from the postmortem that is approved. -/
theorem insertRevision {p : Proposal} {entryId : UUID} {row : EntryRow} {superseded : Option ℕ}
    (h : s.insertRevision r p entryId row superseded = .ok s') :
    s.Confined r.postmortemId incidentId s' := by
  obtain ⟨audited, haudit, h⟩ := bind_eq_ok.1 h
  simp only [refuse_bind_eq_ok, pure_eq_ok, Option.not_isSome_iff_eq_none] at h
  obtain ⟨hnew, rfl⟩ := h
  refine (auditRow haudit).trans { refl r.postmortemId incidentId audited with
    sourced := fun hrow => ?_
    revisions := fun hrow => Table.get_insert_of_get _ hnew hrow }
  obtain ⟨-, rfl⟩ | ⟨-, hold⟩ := Table.get_insert_eq_some.1 hrow
  · exact .inr rfl
  · exact .inl hold

theorem publishOne {ids : String → UUID} {p : Proposal} {published : (String × Published) × Store}
    (h : s.publishOne ids generations r p = .ok published) :
    s.Confined r.postmortemId incidentId published.2 := by
  obtain ⟨found, hfound, h⟩ := bind_eq_ok.1 h
  obtain ⟨superseded, -, h⟩ := bind_eq_ok.1 h
  obtain ⟨written, hwritten, h⟩ := bind_eq_ok.1 h
  obtain rfl := pure_eq_ok.1 h
  exact (entryFor hfound).trans (insertRevision hwritten)

theorem publishAll {ids : String → UUID} {proposals : List Proposal}
    (h : s.publishAll ids generations r proposals = .ok published) :
    s.Confined r.postmortemId incidentId published.2 := by
  induction proposals generalizing s published with
  | nil =>
    obtain rfl := pure_eq_ok.1 h
    exact refl r.postmortemId incidentId s
  | cons p rest ih =>
    obtain ⟨first, hfirst, h⟩ := bind_eq_ok.1 h
    obtain ⟨others, hothers, h⟩ := bind_eq_ok.1 h
    obtain rfl := pure_eq_ok.1 h
    have hrest : first.2.Confined r.postmortemId incidentId others.2 := ih hothers
    exact (publishOne hfirst).trans hrest

theorem publishFor {ids : String → UUID} {row : VersionRow}
    (h : s.publishFor ids r row = .ok published) :
    s.Confined r.postmortemId incidentId published.2 := by
  unfold Store.publishFor at h
  split at h
  · exact publishAll (refuse_bind_eq_ok.1 h).2
  · obtain rfl := pure_eq_ok.1 h
    exact refl r.postmortemId incidentId s

end Confined

/-- A review leaves the incidents of other postmortems. -/
theorem transition_leaves {ids : String → UUID} (h : s.transition ids r = .ok (result, s'))
    (hne : ¬ s.Heads r.postmortemId i) :
    s.Leaves i s' := by
  have hkeeps : s.Keeps s' := (transition_writes (G := anyChange) trivial h).keeps
  obtain ⟨head, -, hhead, ⟨-, rfl⟩ | ⟨-, -, row, target, moved, published, -, -, -, hmoved,
    hpublished, hrecord⟩⟩ := transition_cases h
  · exact .refl i _
  have hheads : s.Heads r.postmortemId head.incidentId := ⟨head, hhead, rfl⟩
  have hi : i ≠ head.incidentId := by
    rintro rfl
    exact hne hheads
  obtain rfl := applyMove_ok hmoved
  have hbump : s.Confined r.postmortemId head.incidentId
      ({ s with audit := s.audit ++ [r.audit] }.bumpPostmortem r.postmortemId
        r.expectedGeneration) := .bump s _ _ _
  have hmoved := (hbump.trans (.setVersionState _ r.version target r.move.staleReason)).trans
    (.requestRegeneration _ r.version r.move)
  exact ((hmoved.trans (.publishFor hpublished)).trans (.recordRequest hrecord)).leaves
    (hheads.keeps hkeeps) hi

/-- What adds tombstones and nothing else leaves every incident. -/
theorem Leaves.of_revocations (hpostmortems : s'.postmortems = s.postmortems)
    (hversions : s'.versions = s.versions) (hrevisions : s'.revisions = s.revisions)
    (hjobs : s'.jobs = s.jobs) (hrevocations : ∀ {k row}, s.revocations.get k = some row →
      s'.revocations.get k = some row) : s.Leaves i s' where
  heads h := by
    obtain ⟨head, hhead, hincident⟩ := h
    exact ⟨head, hpostmortems ▸ hhead, hincident⟩
  versions _ hrow hstate := ⟨_, hversions ▸ hrow, hstate⟩
  revisions hrow _ hactive := by
    rw [hrevisions] at hrow
    exact ⟨hrow, active_before (fun h => hrevisions ▸ h) hrevocations hrow hactive⟩
  pending hjob hpending := ⟨_, hjobs ▸ hjob, hpending⟩
  lease hjob hlease := ⟨_, hjobs ▸ hjob, hlease⟩

/-- A revocation leaves every incident. -/
theorem revoke_leaves {r : RevokeRequest} (h : s.revoke r = .ok (result, s')) : s.Leaves i s' := by
  obtain ⟨head, -, -, ⟨-, rfl⟩ | ⟨-, -, -, written, hwritten, hrecord⟩⟩ := revoke_cases h
  · exact .refl i _
  obtain ⟨audited, haudit, hwritten⟩ := bind_eq_ok.1 hwritten
  simp only [refuse_bind_eq_ok, pure_eq_ok, Option.not_isSome_iff_eq_none] at hwritten
  obtain ⟨hnew, rfl⟩ := hwritten
  obtain rfl := auditRow_ok haudit
  obtain ⟨-, -, rfl⟩ := recordRequest_ok hrecord
  exact .of_revocations rfl rfl rfl rfl fun h => Table.get_insert_of_get _ hnew h

theorem markOpen_confined {keys : ℕ → String} {incident : Incident} {reason : StaleReason}
    {source : String} {rows : List (ℕ × VersionRow)} {generation : ℕ}
    {marked : List ActionResult × Store}
    (h : s.markOpen keys incident id reason source generation rows = .ok marked) :
    s.Confined id incidentId marked.2 := by
  induction rows generalizing s generation marked with
  | nil =>
    obtain rfl := pure_eq_ok.1 h
    exact .refl id incidentId s
  | cons e rest ih =>
    obtain ⟨version, row⟩ := e
    rw [markOpen] at h
    split at h
    · exact ih h
    · obtain ⟨audited, haudit, h⟩ := bind_eq_ok.1 h
      obtain ⟨first, hfirst, h⟩ := bind_eq_ok.1 h
      obtain ⟨others, hothers, h⟩ := bind_eq_ok.1 h
      obtain rfl := pure_eq_ok.1 h
      obtain rfl := auditRow_ok haudit
      have hrest : first.2.Confined id incidentId others.2 := ih hothers
      exact (((Confined.bump s id generation _).trans (.setVersionState _ version _ _)).trans
        (.recordRequest (show _ = Except.ok (first.1, first.2) from hfirst))).trans hrest

/-- Marking stale leaves every other incident. -/
theorem markStaleIn_leaves {keys : ℕ → String} {reason : StaleReason} {source : String}
    {marked : List ActionResult × Store}
    (h : s.markStaleIn keys incidentId reason source = .ok marked) (hne : i ≠ incidentId) :
    s.Leaves i marked.2 := by
  have hkeeps : s.Keeps marked.2 :=
    (markStaleIn_writes (G := anyChange) (fun _ _ _ => trivial) h).keeps
  obtain ⟨⟨⟩, -, h⟩ := bind_eq_ok.1 h
  split at h
  · obtain rfl := pure_eq_ok.1 h
    exact .refl i s
  · next head hhead =>
    simp only [require_bind_eq_ok] at h
    obtain ⟨incident, -, h⟩ := h
    obtain ⟨hget, hsame⟩ := postmortemOf_eq_some hhead
    have hheads : s.Heads head.1 incidentId := ⟨head.2, hget, hsame⟩
    exact (markOpen_confined h).leaves (hheads.keeps hkeeps) hne

end Store

/-! ## The world -/

namespace World

/-- No reason to keep the incident is new. -/
structure Leaves (incidentId : UUID) (w w' : World) : Prop where
  store : w.store.Leaves incidentId w'.store
  running : ∀ {a row'}, w'.attempts.get a = some row' → row'.incidentId = incidentId →
    row'.status = .running →
    ∃ row, w.attempts.get a = some row ∧ row.incidentId = incidentId ∧ row.status = .running
  clock : w.clock ≤ w'.clock

variable {w w' w'' : World} {i incidentId attemptId : UUID}

namespace Leaves

theorem refl (i : UUID) (w : World) : w.Leaves i w where
  store := .refl i w.store
  running h hincident hrunning := ⟨_, h, hincident, hrunning⟩
  clock := le_rfl

theorem trans (h : w.Leaves i w') (h' : w'.Leaves i w'') : w.Leaves i w'' where
  store := h.store.trans h'.store
  running hrow hincident hrunning := by
    obtain ⟨row, hrow, hincident, hrunning⟩ := h'.running hrow hincident hrunning
    exact h.running hrow hincident hrunning
  clock := h.clock.trans h'.clock

/-- What a transaction does to the store alone. -/
theorem of_store (h : w.store.Leaves i w'.store) (hattempts : w'.attempts = w.attempts)
    (hclock : w'.clock = w.clock) : w.Leaves i w' where
  store := h
  running hrow hincident hrunning := ⟨_, hattempts ▸ hrow, hincident, hrunning⟩
  clock := hclock.ge

/-- A rewrite of an attempt that does not set it running, nor moves it to another incident. -/
theorem modify_attempt (w : World) (a : UUID) {f : AttemptRow → AttemptRow}
    (hincident : ∀ row, (f row).incidentId = row.incidentId)
    (hrunning : ∀ row, w.attempts.get a = some row → (f row).status = .running →
      row.status = .running) :
    w.Leaves i { w with attempts := w.attempts.modify a f } := by
  refine { refl i w with running := fun {b row'} hrow hi hstatus => ?_ }
  rw [Table.get_modify] at hrow
  split at hrow
  · next heq =>
    obtain ⟨row, hold, rfl⟩ := Option.map_eq_some_iff.1 hrow
    rw [heq] at hold ⊢
    exact ⟨row, hold, (hincident row).symm.trans hi, hrunning row hold hstatus⟩
  · exact ⟨row', hrow, hi, hstatus⟩

/-- A rewrite of a job that adds no regeneration and no lease. -/
theorem setJob (w : World) (j : UUID) {f : JobRow → JobRow}
    (hpending : ∀ job, (f job).pendingRegenerationVersion = job.pendingRegenerationVersion)
    (hlease : ∀ job t, (f job).leaseUntil = some t → job.leaseUntil = some t) :
    w.Leaves i (w.setJob j f) := by
  refine of_store ?_ rfl rfl
  refine { Store.Leaves.refl i w.store with
    pending := fun {job'} hjob hsome => ?_
    lease := fun {job' t} hjob hsome => ?_ }
  · change (w.store.jobs.modify j f).get i = some job' at hjob
    rw [Table.get_modify] at hjob
    split at hjob
    · obtain ⟨job, hold, rfl⟩ := Option.map_eq_some_iff.1 hjob
      exact ⟨job, hold, hpending job ▸ hsome⟩
    · exact ⟨job', hjob, hsome⟩
  · change (w.store.jobs.modify j f).get i = some job' at hjob
    rw [Table.get_modify] at hjob
    split at hjob
    · obtain ⟨job, hold, rfl⟩ := Option.map_eq_some_iff.1 hjob
      exact ⟨job, hold, hlease job t hsome⟩
    · exact ⟨job', hjob, hsome⟩

/-- A job of another incident. -/
theorem setJob_ne (w : World) {j : UUID} (f : JobRow → JobRow) (hne : i ≠ j) :
    w.Leaves i (w.setJob j f) := by
  have hget : (w.store.jobs.modify j f).get i = w.store.jobs.get i := Table.get_modify_ne _ _ hne
  refine of_store ?_ rfl rfl
  exact { Store.Leaves.refl i w.store with
    pending := fun hjob hsome => ⟨_, hget ▸ hjob, hsome⟩
    lease := fun hjob hsome => ⟨_, hget ▸ hjob, hsome⟩ }

end Leaves

/-! ## Claims -/

theorem openJob_leaves (w : World) (incidentId : UUID) : w.Leaves i (w.openJob incidentId) := by
  unfold openJob
  split
  · exact .refl i w
  · refine .of_store ?_ rfl rfl
    refine { Store.Leaves.refl i w.store with
      pending := fun {job'} hjob hsome => ?_
      lease := fun {job' t} hjob hsome => ?_ }
    · obtain ⟨-, rfl⟩ | ⟨-, hold⟩ := Table.get_insert_eq_some.1 hjob
      · cases hsome
      · exact ⟨job', hold, hsome⟩
    · obtain ⟨-, rfl⟩ | ⟨-, hold⟩ := Table.get_insert_eq_some.1 hjob
      · cases hsome
      · exact ⟨job', hold, hsome⟩

/-- A counted failure asks for no regeneration and takes no lease. -/
theorem countedFailure_same (job : JobRow) (key : FailureKey) (errorCode : Option AttemptError)
    (now : Time) :
    (countedFailure job key errorCode now).pendingRegenerationVersion =
      job.pendingRegenerationVersion ∧
    (countedFailure job key errorCode now).leaseUntil = job.leaseUntil := ⟨rfl, rfl⟩

theorem abandon_leaves (w : World) (incidentId : UUID) (rows : List (UUID × AttemptRow)) :
    w.Leaves i (w.abandon incidentId rows) := by
  induction rows generalizing w with
  | nil => exact .refl i w
  | cons e rest ih =>
    rw [abandon]
    refine Leaves.trans ?_ (ih _)
    have hclosed := Leaves.modify_attempt (i := i) w e.1
      (f := fun row => { row with
        status := .abandoned, errorCode := some .leaseLost, finishedAt := some w.clock })
      (fun _ => rfl) fun _ _ h => by cases h
    refine hclosed.trans ?_
    exact .setJob _ _ (fun job => (countedFailure_same job _ _ _).1) fun job t h =>
      (countedFailure_same job _ _ _).2 ▸ h

theorem reopenCap_leaves (w : World) (incidentId : UUID) :
    w.Leaves i (w.reopenCap incidentId) := by
  unfold reopenCap
  dsimp only
  split
  · exact .setJob w incidentId (fun _ => rfl) fun _ _ h => h
  · exact .refl i w

/-- A lease and an attempt on another incident. -/
theorem takeLease_leaves (w : World) (watermark : Watermark) (owner : UUID) (policy : String)
    (maxModelRequests leaseSeconds : ℕ) (hne : i ≠ incidentId) :
    w.Leaves i (w.takeLease incidentId watermark attemptId owner policy maxModelRequests
      leaseSeconds) := by
  have hleased := Leaves.setJob_ne w (fun job =>
    { job with
      leaseOwner := some owner, leaseEpoch := (w.store.jobOf incidentId).leaseEpoch + 1
      leaseUntil := some (w.clock + seconds leaseSeconds) }) hne
  refine hleased.trans ⟨.refl i _, fun {a row'} hrow hi hrunning => ?_, le_rfl⟩
  obtain ⟨-, rfl⟩ | ⟨-, hold⟩ := Table.get_insert_eq_some.1 hrow
  · exact absurd hi.symm hne
  · exact ⟨row', hold, hi, hrunning⟩

/-- The claim opens an attempt. -/
def opensAttempt (w : World) (incidentId attemptId owner : UUID) (policy : String)
    (maxModelRequests leaseSeconds : ℕ) : Bool :=
  (w.attempts.get attemptId).isNone &&
    ((w.claim incidentId attemptId owner policy maxModelRequests leaseSeconds).attempts.get
      attemptId).isSome

/-- A claim that opens no attempt on an incident leaves it. -/
theorem claim_leaves (w : World) (owner : UUID) (policy : String)
    (maxModelRequests leaseSeconds : ℕ)
    (hopens :
      w.opensAttempt incidentId attemptId owner policy maxModelRequests leaseSeconds = true →
        i ≠ incidentId) :
    w.Leaves i (w.claim incidentId attemptId owner policy maxModelRequests leaseSeconds) := by
  rw [opensAttempt, Bool.and_eq_true] at hopens
  unfold claim at hopens ⊢
  split
  · exact .refl i w
  · next hnew =>
    rw [if_neg hnew] at hopens
    have hopened := openJob_leaves (i := i) w incidentId
    dsimp only at hopens ⊢
    split
    · exact hopened
    · next hlease =>
      rw [if_neg hlease] at hopens
      have hclosed := hopened.trans (abandon_leaves (w.openJob incidentId) incidentId
        ((w.openJob incidentId).running incidentId))
      split
      · exact hclosed.trans (.setJob _ incidentId (fun _ => rfl) fun _ _ h => by cases h)
      · next watermark hwatermark =>
        rw [hwatermark] at hopens
        dsimp only at hopens
        split
        · next hcandidate =>
          rw [if_pos hcandidate] at hopens
          have hne : i ≠ incidentId := by
            refine hopens ?_
            rw [not_or] at hnew
            simpa [takeLease] using hnew.2
          exact (hclosed.trans (reopenCap_leaves _ _)).trans (takeLease_leaves _ _ _ _ _ _ hne)
        · exact hclosed.trans (.setJob _ incidentId (fun _ => rfl) fun _ _ h => by cases h)

/-! ## Attempts -/

theorem setPhase_leaves (w : World) (attemptId : UUID) (phase : Phase) :
    w.Leaves i (w.setPhase attemptId phase) :=
  .of_store (.refl i w.store) rfl rfl

theorem reserve_leaves (w : World) (attemptId : UUID) : w.Leaves i (w.reserve attemptId) := by
  unfold reserve
  split
  · split
    · split
      · next reserved hreserved =>
        refine Leaves.trans ?_ (setPhase_leaves _ _ _)
        unfold reserveModelRequest at hreserved
        split at hreserved
        · cases hreserved
        · split at hreserved
          · obtain rfl := Option.some.inj hreserved
            exact .modify_attempt w _ (fun _ => rfl) fun _ _ h => h
          · cases hreserved
      · exact setPhase_leaves _ _ _
    · exact .refl i w
  · exact .refl i w

theorem writeDraft_leaves (w : World) (fresh : UUID) (draft : Assembled)
    (hne : ∀ worker, w.workers.get attemptId = some worker → i ≠ worker.claim.incidentId) :
    w.Leaves i (w.writeDraft attemptId fresh draft) := by
  unfold writeDraft
  split
  · next claim input used hworker =>
    split
    · next written hwritten =>
      have hstore : w.store.Leaves i written.2 := Store.recordDraft_leaves
        (show _ = Except.ok (written.1, written.2) from hwritten) (hne _ hworker)
      have hleaves : w.Leaves i { w with store := written.2 } := .of_store hstore rfl rfl
      exact hleaves.trans (setPhase_leaves _ _ _)
    · exact setPhase_leaves _ _ _
  · exact .refl i w

/-- The job of a closed attempt asks for no other regeneration. -/
theorem closedJob_pending (job : JobRow) (closing : Closing) (key : FailureKey) (now : Time) :
    (closedJob job closing key now).pendingRegenerationVersion =
      job.pendingRegenerationVersion := by
  unfold closedJob
  split
  · exact (countedFailure_same job _ _ _).1
  · split <;> rfl

theorem finish_leaves (w : World) (attemptId : UUID) : w.Leaves i (w.finish attemptId) := by
  unfold finish
  split
  · next claim closing hworker =>
    split
    · exact setPhase_leaves _ _ _
    · next row hrow =>
      dsimp only
      split
      · next hheld =>
        refine Leaves.trans ?_ (setPhase_leaves _ _ _)
        have hjob := Leaves.setJob (i := i) w claim.incidentId
          (f := fun job => { closedJob job closing
            ((closing.watermark.getD row.watermark).key row.revisesVersion) w.clock with
              leaseOwner := none, leaseUntil := none })
          (fun job => closedJob_pending job closing _ _) fun _ _ h => by cases h
        refine hjob.trans (.modify_attempt _ attemptId (fun _ => rfl) fun old hold _ => ?_)
        change w.attempts.get attemptId = some old at hold
        rw [hrow, Option.some.injEq] at hold
        exact hold ▸ hheld.1
      · exact setPhase_leaves _ _ _
  · exact .refl i w

/-! ## Transactions -/

end World

/-- The incidents whose rows a transaction locks. -/
def Event.locks (w : World) : Event → List UUID
  | .claim incidentId attemptId owner policy maxModelRequests leaseSeconds =>
    if w.opensAttempt incidentId attemptId owner policy maxModelRequests leaseSeconds then
      [incidentId]
    else []
  | .writeDraft attemptId _ _ =>
    ((w.workers.get attemptId).map fun worker => worker.claim.incidentId).toList
  | .review _ r => ((w.store.postmortems.get r.postmortemId).map PostmortemRow.incidentId).toList
  | .markStaleIn _ incidentId _ _ => [incidentId]
  | .compensate row _ =>
    ((w.store.postmortems.get row.postmortemId).map PostmortemRow.incidentId).toList
  | .read _ | .reserve _ | .fail _ _ | .finish _ | .revoke _ | .scanStale _ _ | .incident _ _
  | .tick _ => []

namespace World

variable {w : World} {i : UUID}

/-- A transaction of the store, if what it commits leaves the incident. -/
theorem transact_leaves {α : Type} {f : Store → Except KnowledgeError (α × Store)}
    (h : ∀ result s', f w.store = .ok (result, s') → w.store.Leaves i s') :
    w.Leaves i (w.transact f) := by
  unfold transact
  split
  · next done hdone => exact .of_store (h done.1 done.2 hdone) rfl rfl
  · exact .refl i w

/-- A review of a postmortem whose incident it locks. -/
theorem not_heads {id : UUID}
    (h : i ∉ ((w.store.postmortems.get id).map PostmortemRow.incidentId).toList) :
    ¬ w.store.Heads id i := by
  rintro ⟨head, hhead, rfl⟩
  exact h (by simp [hhead])

/-- **A transaction leaves an incident that it does not lock.** -/
theorem after_leaves (event : Event) (h : i ∉ event.locks w) : w.Leaves i (w.after event) := by
  cases event with
  | claim incidentId attemptId owner policy maxModelRequests leaseSeconds =>
    refine claim_leaves w owner policy maxModelRequests leaseSeconds fun hopens => ?_
    simpa [Event.locks, hopens] using h
  | read attemptId =>
    change w.Leaves i (w.read attemptId)
    unfold read
    split
    · split
      · exact setPhase_leaves _ _ _
      · exact setPhase_leaves _ _ _
    · exact .refl i w
  | reserve attemptId => exact reserve_leaves w attemptId
  | fail attemptId errorCode =>
    change w.Leaves i (w.fail attemptId errorCode)
    unfold fail
    split
    · exact setPhase_leaves _ _ _
    · exact .refl i w
  | writeDraft attemptId fresh draft =>
    refine writeDraft_leaves w fresh draft fun worker hworker heq => h ?_
    simp [Event.locks, hworker, heq]
  | finish attemptId => exact finish_leaves w attemptId
  | review ids r =>
    change w.Leaves i (if _ then _ else _)
    split
    · exact transact_leaves fun _ _ hdone => Store.transition_leaves hdone (not_heads h)
    · exact .refl i w
  | revoke r =>
    exact transact_leaves (f := (·.revoke r)) fun _ _ hdone => Store.revoke_leaves hdone
  | markStaleIn keys incidentId reason source =>
    refine transact_leaves (f := (·.markStaleIn keys incidentId reason source))
      fun result s' hdone => ?_
    exact Store.markStaleIn_leaves hdone (by simpa [Event.locks] using h)
  | scanStale postmortemId version =>
    change w.Leaves i (w.scanStale postmortemId version)
    unfold scanStale
    split
    · split
      · split
        · exact .of_store (.refl i w.store) rfl rfl
        · exact .refl i w
      · exact .refl i w
    · exact .refl i w
  | compensate row owner =>
    change w.Leaves i (w.compensate row owner)
    unfold compensate
    split
    · split
      · next marked hmarked =>
        exact .of_store (Store.transition_leaves
          (show _ = Except.ok (marked.1, marked.2) from hmarked) (not_heads h)) rfl rfl
      · exact .refl i w
    · exact .refl i w
  | incident id facts =>
    refine .of_store ?_ rfl rfl
    exact .of_revocations rfl rfl rfl rfl fun h => h
  | tick elapsed =>
    exact ⟨.refl i w.store, fun hrow hi hrunning => ⟨_, hrow, hi, hrunning⟩,
      le_add_of_nonneg_right (Int.natCast_nonneg elapsed)⟩

end World

end OpsPilot.Knowledge
