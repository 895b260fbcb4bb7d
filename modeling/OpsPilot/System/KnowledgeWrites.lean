import OpsPilot.Foundations.Transition
import OpsPilot.Knowledge.Store

/-!
# The writes of the knowledge operations

An operation of the knowledge store is one transaction of several writes, so its effect is a chain
of `Write`s: what a write can do is said once, with what the operation has checked before it, and
the properties of a run are proved from that.

* `Write.keeps`: what no write undoes.
* `recordDraft_writes`, `transition_writes`, `revoke_writes`, `markStaleIn_writes`: an operation
  that commits is a chain of writes.
-/

namespace OpsPilot.Knowledge

open Relation (ReflTransGen)

/-! ## Writes -/

/-- The audit row records a change of the object at the generation. -/
structure AuditRow.Of (audit : AuditRow) (kind : ObjectKind) (id : UUID) (generation : ℕ) :
    Prop where
  kind_eq : audit.objectKind = kind
  id_eq : audit.objectId = id
  generation_eq : audit.expectedGeneration = generation

/-- The revision is the proposal. -/
structure RevisionRow.Equals (row : RevisionRow) (p : Proposal) : Prop where
  key_eq : row.sourceProposalKey = p.key
  name_eq : row.name = p.name
  tags_eq : row.tags = p.tags
  content_eq : row.content = p.content

/-- The version can be published: it is approved, its citations are valid and nothing in it is
disputed. -/
structure VersionRow.Publishable (row : VersionRow) : Prop where
  approved : row.state = .approved
  citations : ∀ c ∈ row.conclusions, c.citationsValid = true
  undisputed : row.disputes = []

/-- What a revision is written from: a proposal of a publishable version. -/
def RevisionRow.Sourced (row : RevisionRow) (s : Store) : Prop :=
  row.approvedBy.principalKind = .basicAuth ∧
    ∃ version, s.versions.get (row.sourcePostmortemId, row.sourceVersion) = some version ∧
      version.Publishable ∧ ∃ p ∈ version.proposals, row.Equals p

/-- What a revision is published on: it is a proposal of a publishable version, and the incident
equals the watermark of that version. -/
def RevisionRow.Published (row : RevisionRow) (s : Store) : Prop :=
  row.approvedBy.principalKind = .basicAuth ∧
    ∃ version head incident,
      s.versions.get (row.sourcePostmortemId, row.sourceVersion) = some version ∧
        version.Publishable ∧ (∃ p ∈ version.proposals, row.Equals p) ∧
        s.postmortems.get row.sourcePostmortemId = some head ∧
        s.incidents.get head.incidentId = some incident ∧ incident.Matches version.watermark

theorem RevisionRow.Published.sourced {row : RevisionRow} {s : Store} (h : row.Published s) :
    row.Sourced s := by
  obtain ⟨hprincipal, version, head, incident, hversion, hpublishable, hproposal, -⟩ := h
  exact ⟨hprincipal, version, hversion, hpublishable, hproposal⟩

/-- The incident has moved past the watermark of the version. -/
def Store.Behind (s : Store) (k : UUID × ℕ) : Prop :=
  ∃ head row incident, s.postmortems.get k.1 = some head ∧ s.versions.get k = some row ∧
    s.incidents.get head.incidentId = some incident ∧ ¬ incident.Matches row.watermark

/-- What is known where a version is written, or where a trigger changes its state. -/
abbrev Guard := Store → Option PostmortemTrigger → UUID × ℕ → Prop

/-- One write of an operation, where versions are written and change under the guard. -/
inductive Write (G : Guard) (s : Store) : Store → Prop
  | jobs (jobs : Table UUID JobRow) : Write G s { s with jobs := jobs }
  | request {key : String} (row : RequestRow) (hnew : s.requests.get key = none) :
      Write G s { s with requests := s.requests.insert key row }
  | start {id incidentId : UUID} (hnew : s.postmortems.get id = none)
      (hfirst : s.postmortemOf incidentId = none) :
      Write G s { s with postmortems := s.postmortems.insert id { incidentId := incidentId } }
  | draft {id : UUID} {head : PostmortemRow} {generation : ℕ} {audit : AuditRow} (row : VersionRow)
      (hhead : s.postmortems.get id = some head) (hgeneration : head.generation = generation)
      (hnew : s.versions.get (id, head.latestVersion + 1) = none)
      (haudit : audit.Of .postmortem id generation)
      (hguard : G s none (id, head.latestVersion + 1)) :
      Write G s { s with
        audit := s.audit ++ [audit]
        postmortems := s.postmortems.modify id fun row =>
          { row with generation := generation + 1, latestVersion := head.latestVersion + 1 }
        versions := s.versions.insert (id, head.latestVersion + 1) row }
  | advance {id : UUID} {version generation : ℕ} {head : PostmortemRow} {row : VersionRow}
      {audit : AuditRow} {trigger : PostmortemTrigger} {state : PostmortemState}
      (staleReason : Option StaleReason) (hhead : s.postmortems.get id = some head)
      (hgeneration : head.generation = generation) (hrow : s.versions.get (id, version) = some row)
      (hfire : postmortem.fire row.state trigger = some state)
      (haudit : audit.Of .postmortem id generation) (hguard : G s (some trigger) (id, version))
      (hsubmit : audit.action = .submit → trigger = .submitForReview) :
      Write G s { s with
        audit := s.audit ++ [audit]
        postmortems := s.postmortems.modify id fun row => { row with generation := generation + 1 }
        versions := s.versions.modify (id, version) fun row =>
          { row with state := state, staleReason := staleReason } }
  | enter {id : UUID} (hnew : s.entries.get id = none) :
      Write G s { s with entries := s.entries.insert id {} }
  | publish {id : UUID} {entry : EntryRow} {row : RevisionRow} {audit : AuditRow}
      (hentry : s.entries.get id = some entry)
      (hnew : s.revisions.get (id, entry.latestRevision + 1) = none)
      (hsupersedes : row.supersedesRevision =
        if entry.latestRevision ≠ 0 ∧ s.revisionState id entry.latestRevision = some .active then
          some entry.latestRevision
        else none)
      (hpublished : row.Published s)
      (haudit : audit.Of .knowledgeEntry id entry.generation) :
      Write G s { s with
        audit := s.audit ++ [audit]
        entries := s.entries.modify id fun _ => ⟨entry.generation + 1, entry.latestRevision + 1⟩
        revisions := s.revisions.insert (id, entry.latestRevision + 1) row }
  | revoke {id : UUID} {revision generation : ℕ} {entry : EntryRow} {audit : AuditRow}
      (row : RevocationRow) (hentry : s.entries.get id = some entry)
      (hgeneration : entry.generation = generation)
      (hactive : s.revisionState id revision = some .active)
      (hnew : s.revocations.get (id, revision) = none)
      (haudit : audit.Of .knowledgeEntry id generation) :
      Write G s { s with
        audit := s.audit ++ [audit]
        entries := s.entries.modify id fun row => { row with generation := generation + 1 }
        revocations := s.revocations.insert (id, revision) row }

/-- A chain of writes. -/
abbrev Writes (G : Guard) (s s' : Store) : Prop := ReflTransGen (Write G) s s'

/-! ## What the states of a revision say -/

variable {n : ℕ}

namespace Store

variable {s s' : Store}

/-- A revision of the entry replaces the revision. -/
def Superseded (s : Store) (id : UUID) (n : ℕ) : Prop :=
  ∃ k row, s.revisions.get k = some row ∧ k.1 = id ∧ row.supersedesRevision = some n

theorem select_superseding {id : UUID} :
    (s.revisions.select fun k row => k.1 = id ∧ row.supersedesRevision = some n) ≠ [] ↔
      s.Superseded id n := by
  simp only [ne_eq, List.eq_nil_iff_forall_not_mem, Prod.forall, Table.mem_select_iff,
    decide_eq_true_eq, not_forall, not_not, Superseded, Prod.exists]

theorem revisionState_eq_active {id : UUID} :
    s.revisionState id n = some .active ↔
      (∃ row, s.revisions.get (id, n) = some row) ∧ s.revocations.get (id, n) = none ∧
        ¬ s.Superseded id n := by
  rw [← select_superseding, revisionState]
  cases s.revisions.get (id, n) <;> cases s.revocations.get (id, n) <;> simp

theorem revisionState_eq_revoked {id : UUID} :
    s.revisionState id n = some .revoked ↔
      (∃ row, s.revisions.get (id, n) = some row) ∧
        ∃ row, s.revocations.get (id, n) = some row := by
  rw [revisionState]
  cases s.revisions.get (id, n) with
  | none => simp
  | some row =>
    cases s.revocations.get (id, n) with
    | some tombstone => simp
    | none =>
      simp only [Option.map_some, Option.isSome_none, Bool.false_eq_true, if_false]
      split <;> simp

theorem revisionState_eq_superseded {id : UUID} :
    s.revisionState id n = some .superseded ↔
      (∃ row, s.revisions.get (id, n) = some row) ∧ s.revocations.get (id, n) = none ∧
        s.Superseded id n := by
  rw [← select_superseding, revisionState]
  cases s.revisions.get (id, n) <;> cases s.revocations.get (id, n) <;> simp

/-- What no write undoes: postmortems and entries stay, numbered rows stay, terminal versions stay
as they are, and so do the requests. -/
structure Keeps (s s' : Store) : Prop where
  incidents : ∀ {id row}, s.incidents.get id = some row → ∃ row', s'.incidents.get id = some row'
  postmortems : ∀ {id row}, s.postmortems.get id = some row →
    ∃ row', s'.postmortems.get id = some row' ∧ row'.incidentId = row.incidentId
  versions : ∀ {k row}, s.versions.get k = some row → postmortem.terminal row.state = true →
    s'.versions.get k = some row
  entries : ∀ {id row}, s.entries.get id = some row → ∃ row', s'.entries.get id = some row'
  revisions : ∀ {k row}, s.revisions.get k = some row → s'.revisions.get k = some row
  revocations : ∀ {k row}, s.revocations.get k = some row → s'.revocations.get k = some row
  requests : ∀ {key row}, s.requests.get key = some row → s'.requests.get key = some row
  audit : s.audit <+: s'.audit

namespace Keeps

theorem refl (s : Store) : Keeps s s where
  incidents h := ⟨_, h⟩
  postmortems h := ⟨_, h, rfl⟩
  versions h _ := h
  entries h := ⟨_, h⟩
  revisions h := h
  revocations h := h
  requests h := h
  audit := List.prefix_rfl

theorem trans {s₁ s₂ s₃ : Store} (h₁ : Keeps s₁ s₂) (h₂ : Keeps s₂ s₃) : Keeps s₁ s₃ where
  incidents h := by
    obtain ⟨row, hrow⟩ := h₁.incidents h
    exact h₂.incidents hrow
  postmortems h := by
    obtain ⟨row, hrow, hincident⟩ := h₁.postmortems h
    obtain ⟨row', hrow', hincident'⟩ := h₂.postmortems hrow
    exact ⟨row', hrow', hincident'.trans hincident⟩
  versions h hterminal := h₂.versions (h₁.versions h hterminal) hterminal
  entries h := by
    obtain ⟨row, hrow⟩ := h₁.entries h
    exact h₂.entries hrow
  revisions h := h₂.revisions (h₁.revisions h)
  revocations h := h₂.revocations (h₁.revocations h)
  requests h := h₂.requests (h₁.requests h)
  audit := h₁.audit.trans h₂.audit

theorem superseded (h : Keeps s s') {id : UUID} (hold : s.Superseded id n) :
    s'.Superseded id n := by
  obtain ⟨k, row, hrow, hk⟩ := hold
  exact ⟨k, row, h.revisions hrow, hk⟩

end Keeps

end Store

/-- The row that is rewritten. -/
theorem get_modify_of_get {κ ρ : Type*} [DecidableEq κ] {t : Table κ ρ} {k : κ} {row : ρ}
    (f : ρ → ρ) (h : t.get k = some row) : (t.modify k f).get k = some (f row) := by
  rw [Table.get_modify_self, h, Option.map_some]

/-- A rewritten row is there before and after. -/
theorem exists_get_modify {κ ρ : Type*} [DecidableEq κ] {t : Table κ ρ} (k : κ) {k' : κ} {row : ρ}
    (f : ρ → ρ) (h : t.get k' = some row) :
    ∃ row', (t.modify k f).get k' = some row' ∧ (row' = row ∨ k' = k ∧ row' = f row) := by
  by_cases hk : k' = k
  · exact ⟨f row, by rw [Table.get_modify, if_pos hk, h]; rfl, .inr ⟨hk, rfl⟩⟩
  · exact ⟨row, by rw [t.get_modify_ne f hk, h], .inl rfl⟩

/-- **What no write undoes.** -/
theorem Write.keeps {G : Guard} {s s' : Store} (h : Write G s s') : s.Keeps s' := by
  have hrefl := Store.Keeps.refl s
  cases h with
  | jobs jobs => exact { hrefl with }
  | request row hnew =>
    exact { hrefl with requests := fun h => Table.get_insert_of_get _ hnew h }
  | start hnew hfirst =>
    exact { hrefl with postmortems := fun h => ⟨_, Table.get_insert_of_get _ hnew h, rfl⟩ }
  | draft row hhead hgeneration hnew haudit hguard =>
    refine { hrefl with
      postmortems := fun h => ?_
      versions := fun h _ => Table.get_insert_of_get _ hnew h
      audit := List.prefix_append _ _ }
    obtain ⟨row', hrow', hcases⟩ := exists_get_modify _ (fun row : PostmortemRow => _) h
    refine ⟨row', hrow', ?_⟩
    rcases hcases with rfl | ⟨-, rfl⟩ <;> rfl
  | advance staleReason hhead hgeneration hrow hfire haudit hguard hsubmit =>
    refine { hrefl with
      postmortems := fun h => ?_
      versions := fun h hterminal => ?_
      audit := List.prefix_append _ _ }
    · obtain ⟨row', hrow', hcases⟩ := exists_get_modify _ (fun row : PostmortemRow => _) h
      refine ⟨row', hrow', ?_⟩
      rcases hcases with rfl | ⟨-, rfl⟩ <;> rfl
    · obtain ⟨row', hrow', rfl | ⟨hk, -⟩⟩ := exists_get_modify _ (fun row : VersionRow => _) h
      · exact hrow'
      · rw [hk, hrow, Option.some.injEq] at h
        subst h
        exact absurd (postmortem.edge_of_fire _ hfire) (postmortem.not_edge_of_terminal hterminal _)
  | enter hnew => exact { hrefl with entries := fun h => ⟨_, Table.get_insert_of_get _ hnew h⟩ }
  | publish hentry hnew hsupersedes hpublished haudit =>
    refine { hrefl with
      entries := fun h => ?_
      revisions := fun h => Table.get_insert_of_get _ hnew h
      audit := List.prefix_append _ _ }
    obtain ⟨row', hrow', -⟩ := exists_get_modify _ (fun row : EntryRow => _) h
    exact ⟨row', hrow'⟩
  | revoke row hentry hgeneration hactive hnew haudit =>
    refine { hrefl with
      entries := fun h => ?_
      revocations := fun h => Table.get_insert_of_get _ hnew h
      audit := List.prefix_append _ _ }
    obtain ⟨row', hrow', -⟩ := exists_get_modify _ (fun row : EntryRow => _) h
    exact ⟨row', hrow'⟩

/-- Only an active revision is revoked, so the state of any other is final. -/
theorem Write.frozen {G : Guard} {s s' : Store} (h : Write G s s') {id : UUID}
    {state : KnowledgeState} (hstate : s.revisionState id n = some state) (hnot : state ≠ .active) :
    s'.revisionState id n = some state := by
  cases state with
  | active => exact absurd rfl hnot
  | revoked =>
    obtain ⟨⟨row, hrow⟩, tombstone, htombstone⟩ := Store.revisionState_eq_revoked.1 hstate
    exact Store.revisionState_eq_revoked.2
      ⟨⟨row, h.keeps.revisions hrow⟩, tombstone, h.keeps.revocations htombstone⟩
  | superseded =>
    obtain ⟨⟨row, hrow⟩, hnone, hsuperseded⟩ := Store.revisionState_eq_superseded.1 hstate
    refine Store.revisionState_eq_superseded.2
      ⟨⟨row, h.keeps.revisions hrow⟩, ?_, h.keeps.superseded hsuperseded⟩
    cases h with
    | @revoke id' revision _ _ _ _ _ _ hactive _ _ =>
      have hne : (id, n) ≠ (id', revision) := by
        intro heq
        rw [← (Prod.mk.inj heq).1, ← (Prod.mk.inj heq).2, hstate] at hactive
        cases hactive
      exact (Table.get_insert_ne _ _ hne).trans hnone
    | _ => exact hnone

theorem Writes.keeps {G : Guard} {s s' : Store} (h : Writes G s s') : s.Keeps s' := by
  induction h with
  | refl => exact .refl s
  | tail _ hwrite ih => exact ih.trans hwrite.keeps

/-- A property that every write keeps is kept by a chain of writes. -/
theorem Writes.stable {G : Guard} {P : Store → Prop} {s s' : Store} (h : Writes G s s')
    (hwrite : ∀ {s s'}, Write G s s' → P s → P s') (hs : P s) : P s' := by
  induction h with
  | refl => exact hs
  | tail _ hlast ih => exact hwrite hlast ih

/-! ## What an operation writes -/

namespace Store

variable {G : Guard} {s s' : Store} {result : ActionResult}

theorem replay_some {key : String} {request : Request}
    (h : s.replay key request = .ok (some result)) :
    ∃ row, s.requests.get key = some row ∧ row.request = request ∧
      result = { row.result with replayed := true } := by
  unfold replay at h
  split at h
  · cases h
  · next row hrow =>
    simp only [refuse_bind_eq_ok, pure_eq_ok, Option.some.injEq, not_or, not_not] at h
    obtain ⟨⟨-, hrequest⟩, rfl⟩ := h
    exact ⟨row, hrow, hrequest, rfl⟩

theorem recordRequest_ok {key : String} {request : Request} {answer : ActionResult}
    (h : s.recordRequest key request answer = .ok (result, s')) :
    s.requests.get key = none ∧ result = answer ∧
      s' = { s with requests := s.requests.insert key ⟨request.action, request, answer⟩ } := by
  simp only [recordRequest, refuse_bind_eq_ok, pure_eq_ok, Prod.mk.injEq] at h
  obtain ⟨hnew, rfl, rfl⟩ := h
  exact ⟨by simpa using hnew, rfl, rfl⟩

theorem auditRow_ok {row : AuditRow} (h : s.auditRow row = .ok s') :
    s' = { s with audit := s.audit ++ [row] } := by
  simp only [auditRow, refuse_bind_eq_ok, pure_eq_ok] at h
  exact h.2.symm

variable {incidentId fresh : UUID} {version generation : ℕ} {head : PostmortemRow}
  {generations : Table UUID ℕ} {p : Proposal} {r : TransitionRequest} {ids : String → UUID}

theorem postmortemOf_eq_some {head : UUID × PostmortemRow}
    (h : s.postmortemOf incidentId = some head) :
    s.postmortems.get head.1 = some head.2 ∧ head.2.incidentId = incidentId := by
  have hmem := List.mem_of_mem_head? (Option.mem_def.2 h)
  obtain ⟨hget, hincident⟩ := Table.mem_select_iff.1 (show (head.1, head.2) ∈ _ from hmem)
  exact ⟨hget, by simpa using hincident⟩

theorem openPostmortem_writes (h : s.openPostmortem fresh incidentId = .ok s') : Writes G s s' := by
  unfold openPostmortem at h
  split at h
  · rw [pure_eq_ok] at h
    subst h
    exact .refl
  · next hfirst =>
    simp only [refuse_bind_eq_ok, pure_eq_ok, Option.not_isSome_iff_eq_none] at h
    obtain ⟨hnew, rfl⟩ := h
    exact .single (.start hnew hfirst)

theorem regenerated_writes (s : Store) (r : DraftRequest) : Writes G s (s.regenerated r) := by
  unfold regenerated
  split
  · exact .single (.jobs _)
  · exact .refl

theorem regenerated_postmortems (s : Store) (r : DraftRequest) :
    (s.regenerated r).postmortems = s.postmortems ∧ (s.regenerated r).versions = s.versions := by
  unfold regenerated
  split <;> exact ⟨rfl, rfl⟩

theorem insertVersion_ok {id : UUID} {r : DraftRequest}
    (h : s.insertVersion id version r = .ok s') :
    s.versions.get (id, version) = none ∧ s' = { s with
      postmortems := s.postmortems.modify id fun row =>
        { row with generation := r.expectedGeneration + 1, latestVersion := version }
      versions := s.versions.insert (id, version) r.row } := by
  simp only [insertVersion, refuse_bind_eq_ok, pure_eq_ok, Option.not_isSome_iff_eq_none] at h
  exact ⟨h.1, h.2.2.symm⟩

theorem submit_ok {id : UUID} {r : DraftRequest} (h : s.submit id version r = .ok s') :
    s' = ({ s with
      audit := s.audit ++ [r.audit .submit id version (r.expectedGeneration + 1)] }.bumpPostmortem id
        (r.expectedGeneration + 1)).setVersionState id version .underReview none := by
  obtain ⟨audited, haudit, h⟩ := bind_eq_ok.1 h
  obtain ⟨state, hstate, h⟩ := bind_eq_ok.1 h
  simp only [postmortem, StateMachine.fire, require_eq_ok] at hstate
  cases hstate
  rw [pure_eq_ok] at h
  rw [← h, auditRow_ok haudit]

/-- A change of the state of a version, with its audit row, is a write. -/
theorem advance_write {id : UUID} {row : VersionRow} {audit : AuditRow}
    {trigger : PostmortemTrigger} {state : PostmortemState} (staleReason : Option StaleReason)
    (hhead : s.postmortems.get id = some head) (hgeneration : head.generation = generation)
    (hrow : s.versions.get (id, version) = some row)
    (hfire : postmortem.fire row.state trigger = some state)
    (haudit : audit.Of .postmortem id generation) (hguard : G s (some trigger) (id, version))
    (hsubmit : audit.action = .submit → trigger = .submitForReview) :
    Write G s (({ s with audit := s.audit ++ [audit] }.bumpPostmortem id
      generation).setVersionState id version state staleReason) :=
  Write.advance staleReason hhead hgeneration hrow hfire haudit hguard hsubmit

/-- A draft is one write, and its submission another. -/
theorem writeDraft_writes {id : UUID} {r : DraftRequest} (hG : ∀ u trigger k, G u trigger k)
    (hhead : s.postmortems.get id = some head)
    (hgeneration : head.generation = r.expectedGeneration) (h : s.writeDraft id head r = .ok s') :
    Writes G s s' := by
  obtain ⟨audited, haudit, h⟩ := bind_eq_ok.1 h
  obtain ⟨drafted, hdraft, h⟩ := bind_eq_ok.1 h
  obtain ⟨hnew, rfl⟩ := insertVersion_ok hdraft
  obtain rfl := auditRow_ok haudit
  obtain ⟨hpostmortems, -⟩ := s.regenerated_postmortems r
  have hhead' : (s.regenerated r).postmortems.get id = some head := by rw [hpostmortems, hhead]
  have hof : (r.audit .generate id (head.latestVersion + 1) r.expectedGeneration).Of .postmortem id
      r.expectedGeneration := ⟨rfl, rfl, rfl⟩
  have hdraft := Write.draft r.row hhead' hgeneration hnew hof (hG _ _ _)
  refine (s.regenerated_writes r).trans (.head hdraft ?_)
  split at h
  · obtain rfl := submit_ok h
    have hfire : postmortem.fire r.row.state .submitForReview = some .underReview := rfl
    have hhead₂ : ((s.regenerated r).postmortems.modify id fun row =>
        { row with generation := r.expectedGeneration + 1
                   latestVersion := head.latestVersion + 1 }).get id =
        some { head with generation := r.expectedGeneration + 1
                         latestVersion := head.latestVersion + 1 } := by
      rw [Table.get_modify_self, hhead']
      rfl
    have hrow : ((s.regenerated r).versions.insert (id, head.latestVersion + 1) r.row).get
        (id, head.latestVersion + 1) = some r.row := by
      rw [Table.get_insert, if_pos rfl]
    exact .single (advance_write none hhead₂ rfl hrow hfire ⟨rfl, rfl, rfl⟩ (hG _ _ _) fun _ => rfl)
  · rw [pure_eq_ok] at h
    subst h
    exact .refl

/-- What a draft passes. -/
theorem draftChecks_ok {incident : Incident} {id : UUID} {r : DraftRequest}
    (h : s.draftChecks incident id head r = .ok ()) :
    head.generation = r.expectedGeneration ∧ incident.checkObservation r.watermark = true ∧
      incident.Matches r.watermark ∧
      (∀ n row, s.versions.get (id, n) = some row → row.state ≠ .underReview) ∧
      s.checkRevised id r.revisesVersion = .ok () := by
  simp only [draftChecks, refuse_bind_eq_ok, not_not, Bool.not_eq_false,
    Incident.movedComponents_eq_nil] at h
  obtain ⟨hgeneration, hobservation, hmatches, hopen, hrevised⟩ := h
  refine ⟨hgeneration, hobservation, hmatches, fun n row hrow hstate => ?_, hrevised⟩
  have hmem : ((id, n), row) ∈ s.versions.select fun k row =>
      k.1 = id ∧ row.state = .underReview :=
    Table.mem_select_iff.2 ⟨hrow, by simp [hstate]⟩
  rw [hopen] at hmem
  exact List.not_mem_nil hmem

/-- What `record_draft` does: it answers again, or it writes the next version. -/
theorem recordDraft_cases {r : DraftRequest} (h : s.recordDraft fresh r = .ok (result, s')) :
    ∃ incident opened head, r.validate = .ok () ∧ s.incidents.get r.incidentId = some incident ∧
      s.openPostmortem fresh r.incidentId = .ok opened ∧
      opened.postmortemOf r.incidentId = some head ∧
      ((opened.replay r.idempotencyKey (.generate r) = .ok (some result) ∧ s' = opened) ∨
        opened.replay r.idempotencyKey (.generate r) = .ok none ∧
          opened.draftChecks incident head.1 head.2 r = .ok () ∧
          ∃ written, opened.writeDraft head.1 head.2 r = .ok written ∧
            written.recordRequest r.idempotencyKey (.generate r) (draftResult head.1 head.2 r) =
              .ok (result, s')) := by
  obtain ⟨⟨⟩, hvalid, h⟩ := bind_eq_ok.1 h
  simp only [require_bind_eq_ok] at h
  obtain ⟨incident, hincident, h⟩ := h
  obtain ⟨opened, hopened, h⟩ := bind_eq_ok.1 h
  simp only [require_bind_eq_ok] at h
  obtain ⟨head, hhead, h⟩ := h
  refine ⟨incident, opened, head, hvalid, hincident, hopened, hhead, ?_⟩
  obtain ⟨replayed, hreplay, h⟩ := bind_eq_ok.1 h
  cases replayed with
  | some old =>
    simp only [pure_eq_ok, Prod.mk.injEq] at h
    obtain ⟨rfl, rfl⟩ := h
    exact .inl ⟨hreplay, rfl⟩
  | none =>
    obtain ⟨⟨⟩, hchecks, h⟩ := bind_eq_ok.1 h
    obtain ⟨written, hwritten, h⟩ := bind_eq_ok.1 h
    exact .inr ⟨hreplay, hchecks, written, hwritten, h⟩

theorem recordRequest_writes {key : String} {request : Request} {answer : ActionResult}
    (h : s.recordRequest key request answer = .ok (result, s')) : Writes G s s' := by
  obtain ⟨hnew, -, rfl⟩ := recordRequest_ok h
  exact .single (.request _ hnew)

theorem recordDraft_writes {r : DraftRequest} (hG : ∀ u trigger k, G u trigger k)
    (h : s.recordDraft fresh r = .ok (result, s')) : Writes G s s' := by
  obtain ⟨incident, opened, head, -, -, hopened, hhead, h⟩ := recordDraft_cases h
  have hwrites : Writes G s opened := openPostmortem_writes hopened
  obtain ⟨-, rfl⟩ | ⟨-, hchecks, written, hwritten, hrecord⟩ := h
  · exact hwrites
  · have hdraft := writeDraft_writes hG (postmortemOf_eq_some hhead).1 (draftChecks_ok hchecks).1
      hwritten
    exact (hwrites.trans hdraft).trans (recordRequest_writes hrecord)

/-- The tables a publication reads but does not write. -/
structure SameVersions (s s' : Store) : Prop where
  incidents : s'.incidents = s.incidents
  postmortems : s'.postmortems = s.postmortems
  versions : s'.versions = s.versions

theorem entryFor_ok {found : (UUID × EntryRow) × Store}
    (h : s.entryFor fresh generations p = .ok found) :
    Writes G s found.2 ∧ SameVersions s found.2 ∧
      found.2.entries.get found.1.1 = some found.1.2 := by
  unfold entryFor at h
  split at h
  · simp only [refuse_bind_eq_ok, pure_eq_ok, Option.not_isSome_iff_eq_none] at h
    obtain ⟨hnew, rfl⟩ := h
    refine ⟨.single (.enter hnew), ⟨rfl, rfl, rfl⟩, ?_⟩
    exact (Table.get_insert ..).trans (if_pos rfl)
  · simp only [require_bind_eq_ok, refuse_bind_eq_ok, pure_eq_ok] at h
    obtain ⟨expected, -, row, hrow, -, rfl⟩ := h
    exact ⟨.refl, ⟨rfl, rfl, rfl⟩, hrow⟩

theorem supersedes_ok {id : UUID} {entry : EntryRow} {superseded : Option ℕ}
    (h : s.supersedes id entry = .ok superseded) :
    superseded =
      if entry.latestRevision ≠ 0 ∧ s.revisionState id entry.latestRevision = some .active then
        some entry.latestRevision
      else none := by
  unfold supersedes at h
  split at h
  · next hzero =>
    rw [pure_eq_ok] at h
    rw [if_neg (fun hand => hand.1 hzero), h]
  · next hpos =>
    simp only [require_bind_eq_ok, pure_eq_ok] at h
    obtain ⟨state, hstate, rfl⟩ := h
    simp [hpos, hstate]

/-- What an approval has established before it publishes. -/
structure Approved (s : Store) (r : TransitionRequest) (row : VersionRow) : Prop where
  principal : r.actor.principalKind = .basicAuth
  version : s.versions.get (r.postmortemId, r.version) = some row
  publishable : row.Publishable
  current : ∃ head incident, s.postmortems.get r.postmortemId = some head ∧
    s.incidents.get head.incidentId = some incident ∧ incident.Matches row.watermark

theorem Approved.of_same {row : VersionRow} (h : s.Approved r row) (hsame : SameVersions s s') :
    s'.Approved r row where
  principal := h.principal
  version := by rw [hsame.versions, h.version]
  publishable := h.publishable
  current := by rw [hsame.postmortems, hsame.incidents]; exact h.current

/-- A proposal is published in one write, after its entry was opened. -/
theorem publishOne_writes {row : VersionRow} {published : (String × Published) × Store}
    (happroved : s.Approved r row) (hp : p ∈ row.proposals)
    (h : s.publishOne ids generations r p = .ok published) :
    Writes G s published.2 ∧ SameVersions s published.2 := by
  obtain ⟨found, hfound, h⟩ := bind_eq_ok.1 h
  obtain ⟨superseded, hsuperseded, h⟩ := bind_eq_ok.1 h
  obtain ⟨written, hwritten, h⟩ := bind_eq_ok.1 h
  obtain ⟨hwrites, hsame, hentry⟩ := entryFor_ok hfound
  obtain ⟨audited, haudit, hwritten⟩ := bind_eq_ok.1 hwritten
  simp only [refuse_bind_eq_ok, pure_eq_ok, Option.not_isSome_iff_eq_none] at hwritten h
  obtain ⟨hnew, rfl⟩ := hwritten
  subst h
  obtain rfl := auditRow_ok haudit
  have happroved' := happroved.of_same hsame
  have hpublished : (r.revision p superseded).Published found.2 := by
    obtain ⟨head, incident, hhead, hincident, hmatches⟩ := happroved'.current
    exact ⟨happroved'.principal, row, head, incident, happroved'.version, happroved'.publishable,
      ⟨p, hp, rfl, rfl, rfl, rfl⟩, hhead, hincident, hmatches⟩
  have hof : (r.entryAudit found.1.1 found.1.2 superseded).Of .knowledgeEntry found.1.1
      found.1.2.generation := ⟨rfl, rfl, rfl⟩
  refine ⟨hwrites.tail ?_, hsame.incidents, hsame.postmortems, hsame.versions⟩
  exact Write.publish hentry hnew (supersedes_ok hsuperseded) hpublished hof

theorem publishAll_writes {row : VersionRow} {proposals : List Proposal}
    {published : List (String × Published) × Store} (happroved : s.Approved r row)
    (hp : ∀ p ∈ proposals, p ∈ row.proposals)
    (h : s.publishAll ids generations r proposals = .ok published) : Writes G s published.2 := by
  induction proposals generalizing s published with
  | nil =>
    rw [publishAll, pure_eq_ok] at h
    subst h
    exact .refl
  | cons p rest ih =>
    obtain ⟨first, hfirst, h⟩ := bind_eq_ok.1 h
    obtain ⟨others, hothers, h⟩ := bind_eq_ok.1 h
    rw [pure_eq_ok] at h
    subst h
    obtain ⟨hwrites, hsame⟩ := publishOne_writes happroved (hp p List.mem_cons_self) hfirst
    have hrest := ih (happroved.of_same hsame) (fun q hq => hp q (List.mem_cons_of_mem _ hq))
      hothers
    exact hwrites.trans hrest

theorem mem_publicationOrder {proposals : List Proposal} (h : p ∈ publicationOrder proposals) :
    p ∈ proposals := by
  simp only [publicationOrder, List.mem_append, List.mem_filter, List.mem_insertionSort] at h
  exact h.elim And.left And.left

theorem requestRegeneration_writes (s : Store) (incidentId : UUID) (version : ℕ) (move : Move) :
    Writes G s (s.requestRegeneration incidentId version move) ∧
      SameVersions s (s.requestRegeneration incidentId version move) := by
  unfold requestRegeneration
  split
  · exact ⟨.single (.jobs _), rfl, rfl, rfl⟩
  · exact ⟨.refl, rfl, rfl, rfl⟩

/-- What `_transition` does: it answers again, or it moves the version. -/
theorem transition_cases (h : s.transition ids r = .ok (result, s')) :
    ∃ head, r.validate = .ok () ∧ s.postmortems.get r.postmortemId = some head ∧
      ((s.replay r.idempotencyKey (.transition r) = .ok (some result) ∧ s' = s) ∨
        s.replay r.idempotencyKey (.transition r) = .ok none ∧
          head.generation = r.expectedGeneration ∧
          ∃ row target moved published,
            s.versions.get (r.postmortemId, r.version) = some row ∧
            postmortem.fire row.state r.move.trigger = some target ∧
            s.approvalChecks head row r.move = .ok () ∧ s.applyMove head target r = .ok moved ∧
            moved.publishFor ids r row = .ok published ∧
            published.2.recordRequest r.idempotencyKey (.transition r)
              { action := r.move.action, objectKind := .postmortem, objectId := r.postmortemId
                generation := r.expectedGeneration + 1, version := some r.version
                state := some (.version target), published := published.1 } =
              .ok (result, s')) := by
  obtain ⟨⟨⟩, hvalid, h⟩ := bind_eq_ok.1 h
  simp only [require_bind_eq_ok] at h
  obtain ⟨head, hhead, h⟩ := h
  refine ⟨head, hvalid, hhead, ?_⟩
  obtain ⟨replayed, hreplay, h⟩ := bind_eq_ok.1 h
  cases replayed with
  | some old =>
    simp only [pure_eq_ok, Prod.mk.injEq] at h
    obtain ⟨rfl, rfl⟩ := h
    exact .inl ⟨hreplay, rfl⟩
  | none =>
    simp only [refuse_bind_eq_ok, require_bind_eq_ok, not_not] at h
    obtain ⟨hgeneration, row, hrow, target, htarget, h⟩ := h
    obtain ⟨⟨⟩, hchecks, h⟩ := bind_eq_ok.1 h
    obtain ⟨moved, hmoved, h⟩ := bind_eq_ok.1 h
    obtain ⟨published, hpublished, h⟩ := bind_eq_ok.1 h
    exact .inr ⟨hreplay, hgeneration, row, target, moved, published, hrow, htarget, hchecks, hmoved,
      hpublished, h⟩

/-- What an approval passes. -/
theorem approvalChecks_ok {row : VersionRow}
    (h : s.approvalChecks head row (.approve generations) = .ok ()) :
    (∀ c ∈ row.conclusions, c.citationsValid = true) ∧ row.disputes = [] ∧
      ∃ incident, s.incidents.get head.incidentId = some incident ∧
        incident.Matches row.watermark := by
  simp only [approvalChecks, refuse_bind_eq_ok, require_bind_eq_ok, refuse_eq_ok, not_not,
    Bool.not_eq_false, List.all_eq_true, Incident.movedComponents_eq_nil] at h
  exact h

theorem applyMove_ok {target : PostmortemState} (h : s.applyMove head target r = .ok s') :
    s' = ((({ s with audit := s.audit ++ [r.audit] }.bumpPostmortem r.postmortemId
      r.expectedGeneration).setVersionState r.postmortemId r.version target
        r.move.staleReason).requestRegeneration head.incidentId r.version r.move) := by
  obtain ⟨audited, haudit, h⟩ := bind_eq_ok.1 h
  rw [pure_eq_ok] at h
  rw [← h, auditRow_ok haudit]

/-- An approval is by an authenticated person. -/
theorem validate_principal (h : r.validate = .ok ()) (haction : r.move.action.byWorker = false) :
    r.actor.principalKind = .basicAuth := by
  obtain ⟨⟨⟩, hactor, -⟩ := bind_eq_ok.1 h
  obtain ⟨⟨⟩, -, hactor⟩ := bind_eq_ok.1 hactor
  rw [refuse_eq_ok, not_not, haction] at hactor
  cases hkind : r.actor.principalKind with
  | basicAuth => rfl
  | worker => simp [hkind] at hactor

theorem fire_humanApprove {a b : PostmortemState} (h : postmortem.fire a .humanApprove = some b) :
    b = .approved := by
  cases a <;> cases b <;> first | rfl | exact absurd h (by decide)

/-- A move changes the state of its version; an approval then publishes. -/
theorem transition_writes (hG : G s (some r.move.trigger) (r.postmortemId, r.version))
    (h : s.transition ids r = .ok (result, s')) : Writes G s s' := by
  obtain ⟨head, hvalid, hhead, ⟨-, rfl⟩ | ⟨-, hgeneration, row, target, moved, published, hrow,
    htarget, hchecks, hmoved, hpublished, hrecord⟩⟩ := transition_cases h
  · exact .refl
  obtain rfl := applyMove_ok hmoved
  have hof : r.audit.Of .postmortem r.postmortemId r.expectedGeneration := ⟨rfl, rfl, rfl⟩
  have hsubmit : r.audit.action = .submit → r.move.trigger = .submitForReview := by
    intro heq
    cases hmove : r.move <;> simp [TransitionRequest.audit, Move.action, hmove] at heq
  have hadvance := advance_write r.move.staleReason hhead hgeneration hrow htarget hof hG hsubmit
  obtain ⟨hjobs, hsame⟩ := requestRegeneration_writes
    (({ s with audit := s.audit ++ [r.audit] }.bumpPostmortem r.postmortemId
      r.expectedGeneration).setVersionState r.postmortemId r.version target r.move.staleReason)
    head.incidentId r.version r.move
  refine ReflTransGen.trans (.head hadvance (hjobs.trans ?_)) (recordRequest_writes hrecord)
  unfold publishFor at hpublished
  split at hpublished
  · next generations hmove =>
    rw [hmove] at hchecks htarget
    obtain ⟨hcitations, hdisputes, incident, hincident, hmatches⟩ := approvalChecks_ok hchecks
    have happroved := fire_humanApprove htarget
    have hready : Approved (({ s with audit := s.audit ++ [r.audit] }.bumpPostmortem r.postmortemId
        r.expectedGeneration).setVersionState r.postmortemId r.version target r.move.staleReason) r
        { row with state := target, staleReason := none } := by
      refine ⟨validate_principal hvalid (by rw [hmove]; rfl), ?_,
        ⟨happroved, hcitations, hdisputes⟩, ⟨_, incident, get_modify_of_get _ hhead, hincident, hmatches⟩⟩
      rw [hmove]
      exact get_modify_of_get _ hrow
    exact publishAll_writes (hready.of_same hsame) (fun p hp => mem_publicationOrder hp)
      (refuse_bind_eq_ok.1 hpublished).2
  · rw [pure_eq_ok] at hpublished
    subst hpublished
    exact .refl

/-- What `revoke` does: it answers again, or it writes a tombstone. -/
theorem revoke_cases {r : RevokeRequest} (h : s.revoke r = .ok (result, s')) :
    ∃ head, r.validate = .ok () ∧ s.entries.get r.entryId = some head ∧
      ((s.replay r.idempotencyKey (.revoke r) = .ok (some result) ∧ s' = s) ∨
        s.replay r.idempotencyKey (.revoke r) = .ok none ∧
          head.generation = r.expectedGeneration ∧
          s.revisionState r.entryId r.revision = some .active ∧
          ∃ written, s.writeRevocation r = .ok written ∧
            written.recordRequest r.idempotencyKey (.revoke r)
              { action := .revoke, objectKind := .knowledgeEntry, objectId := r.entryId
                generation := r.expectedGeneration + 1, revision := some r.revision
                state := some (.revision .revoked) } = .ok (result, s')) := by
  obtain ⟨⟨⟩, hvalid, h⟩ := bind_eq_ok.1 h
  simp only [require_bind_eq_ok] at h
  obtain ⟨head, hhead, h⟩ := h
  refine ⟨head, hvalid, hhead, ?_⟩
  obtain ⟨replayed, hreplay, h⟩ := bind_eq_ok.1 h
  cases replayed with
  | some old =>
    simp only [pure_eq_ok, Prod.mk.injEq] at h
    obtain ⟨rfl, rfl⟩ := h
    exact .inl ⟨hreplay, rfl⟩
  | none =>
    simp only [refuse_bind_eq_ok, require_bind_eq_ok, not_not] at h
    obtain ⟨hgeneration, state, hstate, rfl, h⟩ := h
    obtain ⟨written, hwritten, h⟩ := bind_eq_ok.1 h
    exact .inr ⟨hreplay, hgeneration, hstate, written, hwritten, h⟩

/-- A revocation is one write. -/
theorem revoke_writes {r : RevokeRequest} (h : s.revoke r = .ok (result, s')) : Writes G s s' := by
  obtain ⟨head, -, hhead, ⟨-, rfl⟩ | ⟨-, hgeneration, hactive, written, hwritten, hrecord⟩⟩ :=
    revoke_cases h
  · exact .refl
  obtain ⟨audited, haudit, hwritten⟩ := bind_eq_ok.1 hwritten
  simp only [refuse_bind_eq_ok, pure_eq_ok, Option.not_isSome_iff_eq_none] at hwritten
  obtain ⟨hnew, rfl⟩ := hwritten
  obtain rfl := auditRow_ok haudit
  have hof : r.audit.Of .knowledgeEntry r.entryId r.expectedGeneration := ⟨rfl, rfl, rfl⟩
  exact .head (.revoke _ hhead hgeneration hactive hnew hof) (recordRequest_writes hrecord)

/-- The versions left to mark are as they were read. -/
def OpenRows (s : Store) (id : UUID) (rows : List (ℕ × VersionRow)) : Prop :=
  (rows.map Prod.fst).Nodup ∧ ∀ e ∈ rows, s.versions.get (id, e.1) = some e.2 ∧
    (e.2.state = .draft ∨ e.2.state = .underReview)

theorem openVersions_openRows (s : Store) (id : UUID) : s.OpenRows id (s.openVersions id) := by
  have hrow : ∀ e ∈ s.versions.select fun k row =>
      k.1 = id ∧ (row.state = .draft ∨ row.state = .underReview),
      s.versions.get e.1 = some e.2 ∧ e.1.1 = id ∧
        (e.2.state = .draft ∨ e.2.state = .underReview) := by
    rintro ⟨k, row⟩ hmem
    simpa using Table.mem_select_iff.1 hmem
  unfold openVersions OpenRows
  constructor
  · rw [((List.perm_insertionSort _ _).map Prod.fst).nodup_iff, List.map_map]
    refine List.Nodup.of_map (fun n => (id, n)) ?_
    rw [List.map_map, List.map_congr_left (g := Prod.fst) fun e he => ?_]
    · exact (List.filter_sublist.map Prod.fst).nodup s.versions.keys_nodup
    · obtain ⟨-, rfl, -⟩ := hrow e he
      rfl
  · intro e he
    obtain ⟨e', hmem, rfl⟩ := List.mem_map.1 ((List.perm_insertionSort _ _).mem_iff.1 he)
    obtain ⟨hget, rfl, hstate⟩ := hrow e' hmem
    exact ⟨hget, hstate⟩

/-- Each version that is marked is one write. -/
theorem markOpen_writes {keys : ℕ → String} {incident : Incident} {id : UUID} {reason : StaleReason}
    {source : String} {rows : List (ℕ × VersionRow)} {marked : List ActionResult × Store}
    (hG : ∀ u k, u.Behind k → G u (some .markStale) k) (hhead : s.postmortems.get id = some head)
    (hincident : s.incidents.get head.incidentId = some incident)
    (hgeneration : head.generation = generation) (hrows : s.OpenRows id rows)
    (h : s.markOpen keys incident id reason source generation rows = .ok marked) :
    Writes G s marked.2 := by
  induction rows generalizing s generation head marked with
  | nil =>
    rw [markOpen, pure_eq_ok] at h
    subst h
    exact .refl
  | cons e rest ih =>
    obtain ⟨version, row⟩ := e
    obtain ⟨hnodup, hget⟩ := hrows
    obtain ⟨hnotMem, hnodup⟩ := List.nodup_cons.1 hnodup
    rw [markOpen] at h
    split at h
    · exact ih hhead hincident hgeneration
        ⟨hnodup, fun e he => hget e (List.mem_cons_of_mem _ he)⟩ h
    · next hmoved =>
      obtain ⟨audited, haudit, h⟩ := bind_eq_ok.1 h
      obtain ⟨first, hfirst, h⟩ := bind_eq_ok.1 h
      obtain ⟨others, hothers, h⟩ := bind_eq_ok.1 h
      rw [pure_eq_ok] at h
      subst h
      obtain rfl := auditRow_ok haudit
      obtain ⟨hnew, -, hstore⟩ :=
        recordRequest_ok (show _ = Except.ok (first.1, first.2) from hfirst)
      obtain ⟨hrow, hopen⟩ := hget _ List.mem_cons_self
      have hfire : postmortem.fire row.state .markStale = some .stale := by
        rcases hopen with hopen | hopen <;> rw [hopen] <;> rfl
      have hof : (staleRequest id version generation reason source (keys version)).audit.Of
          .postmortem id generation := ⟨rfl, rfl, rfl⟩
      have hbehind : s.Behind (id, version) :=
        ⟨head, row, incident, hhead, hrow, hincident, mt Incident.movedComponents_eq_nil.2 hmoved⟩
      have hmark := advance_write (some reason) hhead hgeneration hrow hfire hof (hG _ _ hbehind)
        (by simp [staleRequest, TransitionRequest.audit, Move.action])
      have hhead' : first.2.postmortems.get id =
          some { head with generation := generation + 1 } := by
        rw [hstore]
        exact get_modify_of_get _ hhead
      have hincident' : first.2.incidents.get head.incidentId = some incident := by
        rw [hstore]
        exact hincident
      have hrest := ih hhead' hincident' rfl
        ⟨hnodup, fun e he => ⟨?_, (hget e (List.mem_cons_of_mem _ he)).2⟩⟩
        hothers
      · exact (ReflTransGen.head hmark (recordRequest_writes hfirst)).trans hrest
      · have hne : (id, e.1) ≠ (id, version) := by
          intro heq
          have hmem := List.mem_map_of_mem (f := Prod.fst) he
          rw [(Prod.mk.inj heq).2] at hmem
          exact hnotMem hmem
        rw [hstore]
        exact (Table.get_modify_ne _ _ hne).trans (hget e (List.mem_cons_of_mem _ he)).1

theorem markStaleIn_writes {keys : ℕ → String} {reason : StaleReason} {source : String}
    {marked : List ActionResult × Store} (hG : ∀ u k, u.Behind k → G u (some .markStale) k)
    (h : s.markStaleIn keys incidentId reason source = .ok marked) : Writes G s marked.2 := by
  obtain ⟨⟨⟩, -, hmarked⟩ := bind_eq_ok.1 h
  split at hmarked
  · rw [pure_eq_ok] at hmarked
    subst hmarked
    exact .refl
  · next head hhead =>
    simp only [require_bind_eq_ok] at hmarked
    obtain ⟨incident, hincident, hmarked⟩ := hmarked
    obtain ⟨hget, hsame⟩ := postmortemOf_eq_some hhead
    exact markOpen_writes hG hget (hsame ▸ hincident) rfl (s.openVersions_openRows head.1) hmarked

end Store

end OpsPilot.Knowledge
