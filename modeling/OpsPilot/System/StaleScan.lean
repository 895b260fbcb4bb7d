import OpsPilot.Foundations.Ranking
import OpsPilot.System.Knowledge

/-!
# The compensation scan for stale versions

A business transaction marks the versions its incident moves past. `compensate_stale` finds what a
crash or a race left behind: it reads the oldest drafts and reviews, and marks those among them
whose incident has moved.

* `Store.staleVersions`, `Store.compensateStale`: the scan and one pass of the worker.
* `Reachable.scannable`: what every run leaves, so that a pass marks the first version it finds.
* **`staleScan_exact`**: repeated passes leave no version behind exactly if fewer than a batch of
  versions that are not behind are as old as each that is.
-/

namespace OpsPilot.Knowledge

/-! ## The scan -/

/-- A row `stale_versions` returns. -/
structure StaleVersion where
  incidentId : UUID
  postmortemId : UUID
  generation : ℕ
  version : ℕ
  reason : StaleReason
  deriving DecidableEq, Repr

/-- The key under which the worker marks a version: `stale-scan:{postmortem_id}:{version}`. -/
def scanKey (k : UUID × ℕ) : String := "stale-scan:" ++ toString k.1 ++ ":" ++ toString k.2

/-- The principal of the worker: `Actor(f"worker:{self.owner}", "worker")`. -/
def workerActor (owner : UUID) : Actor := ⟨"worker:" ++ toString owner, .worker⟩

/-- The request of the worker for a row of the scan. -/
def StaleVersion.request (row : StaleVersion) (actor : Actor) : TransitionRequest where
  postmortemId := row.postmortemId
  version := row.version
  move := .markStale row.reason
  expectedGeneration := row.generation
  idempotencyKey := scanKey (row.postmortemId, row.version)
  actor := actor

namespace Store

/-- The versions the scan reads: `JOIN opspilot_postmortems … WHERE v.state IN ('draft',
'under_review')`. -/
def pendingVersions (s : Store) : List (UUID × ℕ) :=
  (s.versions.select fun k row =>
    (row.state = .draft ∨ row.state = .underReview) ∧ (s.postmortems.get k.1).isSome).map Prod.fst

/-- An order `ORDER BY v.created_at` may give them: rows of one instant stand in any order. -/
structure ScanOrder (s : Store) (createdAt : UUID × ℕ → Time) (rows : List (UUID × ℕ)) :
    Prop where
  perm : rows.Perm s.pendingVersions
  sorted : rows.Pairwise fun a b => createdAt a ≤ createdAt b

/-- The row of a version, with the reason to mark it: none if its incident has not moved. -/
def staleRow (s : Store) (k : UUID × ℕ) : Except KnowledgeError (Option StaleVersion) := do
  let head ← require (s.postmortems.get k.1) .notFound
  let row ← require (s.versions.get k) .notFound
  let incident ← require (s.incidents.get head.incidentId) .notFound
  pure ((staleReasonFor (incident.movedComponents row.watermark)).map fun reason =>
    { incidentId := head.incidentId, postmortemId := k.1, generation := head.generation
      version := k.2, reason := reason })

/-- The rows of the versions read, one after the other. -/
def staleRows (s : Store) : List (UUID × ℕ) → Except KnowledgeError (List StaleVersion)
  | [] => pure []
  | k :: rest => do
    let row ← s.staleRow k
    let rows ← s.staleRows rest
    pure (row.toList ++ rows)

/-- `stale_versions`, where the query gives the rows in the order `rows`. -/
def staleVersions (s : Store) (rows : List (UUID × ℕ)) (limit : ℕ) :
    Except KnowledgeError (List StaleVersion) :=
  s.staleRows (rows.take limit)

/-- `mark_stale` of one row; a refusal is skipped. -/
def markFound (actor : Actor) (s : Store) (row : StaleVersion) : Store :=
  match s.transition (fun _ => 0) (row.request actor) with
  | .ok done => done.2
  | .error _ => s

/-- `compensate_stale`. -/
def compensateStale (s : Store) (actor : Actor) (rows : List (UUID × ℕ)) (limit : ℕ) :
    Except KnowledgeError Store := do
  let found ← s.staleVersions rows limit
  pure (found.foldl (markFound actor) s)

/-- One pass of the worker. -/
def Pass (createdAt : UUID × ℕ → Time) (actor : Actor) (limit : ℕ) (s s' : Store) : Prop :=
  ∃ rows, s.ScanOrder createdAt rows ∧ s.compensateStale actor rows limit = .ok s'

/-- The incident of a version has moved past its watermark. -/
def isBehind (s : Store) (k : UUID × ℕ) : Bool :=
  match s.postmortems.get k.1, s.versions.get k with
  | some head, some row =>
    (s.incidents.get head.incidentId).any fun incident =>
      incident.movedComponents row.watermark ≠ []
  | _, _ => false

/-- The versions that are not behind and as old as a version. -/
def unmovedBefore (s : Store) (createdAt : UUID × ℕ → Time) (k : UUID × ℕ) : List (UUID × ℕ) :=
  s.pendingVersions.filter fun u => ¬ s.isBehind u ∧ createdAt u ≤ createdAt k

end Store

/-- **The scan misses nothing**: it finds a version that is behind whenever there is one, and
repeated passes reach a state where none is. -/
structure MissesNothing (s : Store) (createdAt : UUID × ℕ → Time) (actor : Actor) (limit : ℕ) :
    Prop where
  finds : ∀ rows, s.ScanOrder createdAt rows → (∃ k ∈ s.pendingVersions, s.isBehind k = true) →
    ∃ found, s.staleVersions rows limit = .ok found ∧ found ≠ []
  drains : ∀ run : ℕ → Store, run 0 = s →
    (∀ n, (run n).Pass createdAt actor limit (run (n + 1))) →
    ∃ n, ∀ k ∈ (run n).pendingVersions, (run n).isBehind k = false

/-! ## The keys of an operation -/

variable {r : TransitionRequest} {reason : StaleReason} {generation : ℕ}

namespace Store

variable {s s' t : Store} {K : String → Prop} {result : ActionResult}

/-- The key of a request or of an audit row. -/
def Used (s : Store) (key : String) : Prop :=
  (∃ row, s.requests.get key = some row) ∨ ∃ row ∈ s.audit, row.idempotencyKey = key

/-- The step uses keys of `K` only, and opens no postmortem. -/
structure Quiet (K : String → Prop) (s s' : Store) : Prop where
  used : ∀ key, s'.Used key → s.Used key ∨ K key
  postmortems : ∀ {id row'}, s'.postmortems.get id = some row' →
    ∃ row, s.postmortems.get id = some row ∧ row.incidentId = row'.incidentId

namespace Quiet

theorem refl (s : Store) : Quiet K s s := ⟨fun _ h => .inl h, fun h => ⟨_, h, rfl⟩⟩

theorem trans (h₁ : Quiet K s s') (h₂ : Quiet K s' t) : Quiet K s t where
  used key hkey := (h₂.used key hkey).elim (h₁.used key) .inr
  postmortems hrow := by
    obtain ⟨row', hrow', heq'⟩ := h₂.postmortems hrow
    obtain ⟨row, hrow, heq⟩ := h₁.postmortems hrow'
    exact ⟨row, hrow, heq.trans heq'⟩

/-- Requests, audit and postmortems are left alone. -/
theorem of_same (hrequests : s'.requests = s.requests) (haudit : s'.audit = s.audit)
    (hpostmortems : s'.postmortems = s.postmortems) : Quiet K s s' where
  used key hkey := .inl (by rwa [Used, hrequests, haudit] at hkey)
  postmortems hrow := ⟨_, by rwa [hpostmortems] at hrow, rfl⟩

/-- A change of one postmortem that leaves its incident alone. -/
theorem of_modify {id : UUID} {f : PostmortemRow → PostmortemRow}
    (hf : ∀ row, (f row).incidentId = row.incidentId) (hrequests : s'.requests = s.requests)
    (haudit : s'.audit = s.audit) (hpostmortems : s'.postmortems = s.postmortems.modify id f) :
    Quiet K s s' where
  used key hkey := .inl (by rwa [Used, hrequests, haudit] at hkey)
  postmortems {id' row'} hrow := by
    rw [hpostmortems, Table.get_modify] at hrow
    split at hrow
    · obtain ⟨row, hget, rfl⟩ := Option.map_eq_some_iff.1 hrow
      exact ⟨row, hget, (hf row).symm⟩
    · exact ⟨row', hrow, rfl⟩

end Quiet

theorem auditRow_quiet {row : AuditRow} (hK : K row.idempotencyKey)
    (h : s.auditRow row = .ok s') : Quiet K s s' := by
  obtain rfl := auditRow_ok h
  refine ⟨fun key hkey => ?_, fun hrow => ⟨_, hrow, rfl⟩⟩
  rcases hkey with hrequest | ⟨row', hmem, rfl⟩
  · exact .inl (.inl hrequest)
  · rcases List.mem_append.1 hmem with hold | hnew
    · exact .inl (.inr ⟨row', hold, rfl⟩)
    · obtain rfl := List.mem_singleton.1 hnew
      exact .inr hK

theorem recordRequest_quiet {key : String} {request : Request} {answer : ActionResult} (hK : K key)
    (h : s.recordRequest key request answer = .ok (result, s')) : Quiet K s s' := by
  obtain ⟨-, -, rfl⟩ := recordRequest_ok h
  refine ⟨fun key' hkey => ?_, fun hrow => ⟨_, hrow, rfl⟩⟩
  rcases hkey with ⟨row, hrow⟩ | haudit
  · obtain ⟨rfl, -⟩ | ⟨-, hold⟩ := Table.get_insert_eq_some.1 hrow
    · exact .inr hK
    · exact .inl (.inl ⟨row, hold⟩)
  · exact .inl (.inr haudit)

theorem bump_quiet (id : UUID) (generation version : ℕ) (state : PostmortemState)
    (reason : Option StaleReason) :
    Quiet K s ((s.bumpPostmortem id generation).setVersionState id version state reason) :=
  .of_modify (f := fun row => { row with generation := generation + 1 }) (fun _ => rfl) rfl rfl rfl

theorem insertVersion_quiet {id : UUID} {version : ℕ} {r : DraftRequest}
    (h : s.insertVersion id version r = .ok s') : Quiet K s s' := by
  obtain ⟨-, rfl⟩ := insertVersion_ok h
  exact .of_modify (f := fun row => { row with
    generation := r.expectedGeneration + 1, latestVersion := version }) (fun _ => rfl) rfl rfl rfl

theorem writeDraft_quiet {id : UUID} {head : PostmortemRow} {r : DraftRequest}
    (hK : K r.idempotencyKey) (h : s.writeDraft id head r = .ok s') : Quiet K s s' := by
  obtain ⟨audited, haudit, h⟩ := bind_eq_ok.1 h
  obtain ⟨drafted, hdraft, h⟩ := bind_eq_ok.1 h
  have hregenerated : Quiet K s (s.regenerated r) := by
    unfold regenerated
    split <;> exact .of_same rfl rfl rfl
  have hdrafted := (hregenerated.trans (auditRow_quiet hK haudit)).trans (insertVersion_quiet hdraft)
  split at h
  · obtain ⟨submitted, haudit', h⟩ := bind_eq_ok.1 h
    obtain ⟨state, -, h⟩ := bind_eq_ok.1 h
    rw [pure_eq_ok] at h
    subst h
    exact (hdrafted.trans (auditRow_quiet hK haudit')).trans (bump_quiet ..)
  · rw [pure_eq_ok] at h
    subst h
    exact hdrafted

/-- What a draft writes, after its postmortem was opened. -/
theorem recordDraft_quiet {fresh : UUID} {r : DraftRequest} (hK : K r.idempotencyKey)
    (h : s.recordDraft fresh r = .ok (result, s')) :
    ∃ opened incident, s.openPostmortem fresh r.incidentId = .ok opened ∧
      s.incidents.get r.incidentId = some incident ∧ Writes anyChange opened s' ∧
      Quiet K opened s' := by
  obtain ⟨incident, opened, head, -, hincident, hopened, hhead, hcases⟩ := recordDraft_cases h
  refine ⟨opened, incident, hopened, hincident, ?_⟩
  obtain ⟨-, rfl⟩ | ⟨-, hchecks, written, hwritten, hrecord⟩ := hcases
  · exact ⟨.refl, .refl _⟩
  · have hwrites : Writes anyChange opened written := writeDraft_writes (fun _ _ _ => trivial)
      (postmortemOf_eq_some hhead).1 (draftChecks_ok hchecks).1 hwritten
    exact ⟨hwrites.trans (recordRequest_writes hrecord),
      (writeDraft_quiet hK hwritten).trans (recordRequest_quiet hK hrecord)⟩

theorem entryFor_quiet {fresh : UUID} {generations : Table UUID ℕ} {p : Proposal}
    {found : (UUID × EntryRow) × Store} (h : s.entryFor fresh generations p = .ok found) :
    Quiet K s found.2 := by
  unfold entryFor at h
  split at h
  · simp only [refuse_bind_eq_ok, pure_eq_ok] at h
    obtain ⟨-, rfl⟩ := h
    exact .of_same rfl rfl rfl
  · simp only [require_bind_eq_ok, refuse_bind_eq_ok, pure_eq_ok] at h
    obtain ⟨expected, -, row, -, -, rfl⟩ := h
    exact .refl _

theorem insertRevision_quiet (hK : K r.idempotencyKey) {p : Proposal} {id : UUID} {entry : EntryRow}
    {superseded : Option ℕ} (h : s.insertRevision r p id entry superseded = .ok s') :
    Quiet K s s' := by
  obtain ⟨audited, haudit, h⟩ := bind_eq_ok.1 h
  simp only [refuse_bind_eq_ok, pure_eq_ok] at h
  obtain ⟨-, rfl⟩ := h
  exact (auditRow_quiet hK haudit).trans (.of_same rfl rfl rfl)

theorem writeRevocation_quiet {r : RevokeRequest} (hK : K r.idempotencyKey)
    (h : s.writeRevocation r = .ok s') : Quiet K s s' := by
  obtain ⟨audited, haudit, h⟩ := bind_eq_ok.1 h
  simp only [refuse_bind_eq_ok, pure_eq_ok] at h
  obtain ⟨-, rfl⟩ := h
  exact (auditRow_quiet hK haudit).trans (.of_same rfl rfl rfl)

theorem publishAll_quiet {ids : String → UUID} {generations : Table UUID ℕ}
    (hK : K r.idempotencyKey) {proposals : List Proposal}
    {published : List (String × Published) × Store}
    (h : s.publishAll ids generations r proposals = .ok published) : Quiet K s published.2 := by
  induction proposals generalizing s published with
  | nil =>
    rw [publishAll, pure_eq_ok] at h
    subst h
    exact .refl _
  | cons p rest ih =>
    obtain ⟨first, hfirst, h⟩ := bind_eq_ok.1 h
    obtain ⟨others, hothers, h⟩ := bind_eq_ok.1 h
    rw [pure_eq_ok] at h
    subst h
    obtain ⟨found, hfound, hfirst⟩ := bind_eq_ok.1 hfirst
    obtain ⟨superseded, -, hfirst⟩ := bind_eq_ok.1 hfirst
    obtain ⟨written, hwritten, hfirst⟩ := bind_eq_ok.1 hfirst
    rw [pure_eq_ok] at hfirst
    subst hfirst
    have hrest : Quiet K written others.2 := ih hothers
    exact ((entryFor_quiet hfound).trans (insertRevision_quiet hK hwritten)).trans hrest

theorem transition_quiet {ids : String → UUID} (hK : K r.idempotencyKey)
    (h : s.transition ids r = .ok (result, s')) : Quiet K s s' := by
  obtain ⟨head, -, -, ⟨-, rfl⟩ | ⟨-, -, row, target, moved, published, -, -, -, hmoved, hpublished,
    hrecord⟩⟩ := transition_cases h
  · exact .refl _
  obtain ⟨audited, haudit, hmoved⟩ := bind_eq_ok.1 hmoved
  rw [pure_eq_ok] at hmoved
  have hregeneration : ∀ u : Store,
      Quiet K u (u.requestRegeneration head.incidentId r.version r.move) := by
    intro u
    unfold requestRegeneration
    split <;> exact .of_same rfl rfl rfl
  have hmove : Quiet K s moved := by
    rw [← hmoved]
    exact ((auditRow_quiet hK haudit).trans (bump_quiet ..)).trans (hregeneration _)
  have hpublish : Quiet K moved published.2 := by
    unfold publishFor at hpublished
    split at hpublished
    · exact publishAll_quiet hK (refuse_bind_eq_ok.1 hpublished).2
    · rw [pure_eq_ok] at hpublished
      subst hpublished
      exact .refl _
  exact (hmove.trans hpublish).trans (recordRequest_quiet hK hrecord)

theorem revoke_quiet {r : RevokeRequest} (hK : K r.idempotencyKey)
    (h : s.revoke r = .ok (result, s')) : Quiet K s s' := by
  obtain ⟨head, -, -, ⟨-, rfl⟩ | ⟨-, -, -, written, hwritten, hrecord⟩⟩ := revoke_cases h
  · exact .refl _
  exact (writeRevocation_quiet hK hwritten).trans (recordRequest_quiet hK hrecord)

theorem markOpen_quiet {keys : ℕ → String} (hK : ∀ n, K (keys n)) {incident : Incident} {id : UUID}
    {source : String} {rows : List (ℕ × VersionRow)} {marked : List ActionResult × Store}
    (h : s.markOpen keys incident id reason source generation rows = .ok marked) :
    Quiet K s marked.2 := by
  induction rows generalizing s generation marked with
  | nil =>
    rw [markOpen, pure_eq_ok] at h
    subst h
    exact .refl _
  | cons e rest ih =>
    obtain ⟨version, row⟩ := e
    rw [markOpen] at h
    split at h
    · exact ih h
    · obtain ⟨audited, haudit, h⟩ := bind_eq_ok.1 h
      obtain ⟨first, hfirst, h⟩ := bind_eq_ok.1 h
      obtain ⟨others, hothers, h⟩ := bind_eq_ok.1 h
      rw [pure_eq_ok] at h
      subst h
      have hmark : Quiet K s ((audited.bumpPostmortem id generation).setVersionState id version
          .stale (some reason)) := (auditRow_quiet (hK version) haudit).trans (bump_quiet ..)
      have hrest : Quiet K first.2 others.2 := ih hothers
      exact (hmark.trans (recordRequest_quiet (hK version) hfirst)).trans hrest

theorem markStaleIn_quiet {keys : ℕ → String} (hK : ∀ n, K (keys n)) {incidentId : UUID}
    {source : String} {marked : List ActionResult × Store}
    (h : s.markStaleIn keys incidentId reason source = .ok marked) : Quiet K s marked.2 := by
  obtain ⟨⟨⟩, -, hmarked⟩ := bind_eq_ok.1 h
  split at hmarked
  · rw [pure_eq_ok] at hmarked
    subst hmarked
    exact .refl _
  · simp only [require_bind_eq_ok] at hmarked
    obtain ⟨incident, -, hmarked⟩ := hmarked
    exact markOpen_quiet hK hmarked

end Store

/-! ## What every run leaves -/

/-- Nobody but the scan uses the keys of the scan. -/
def Op.LeavesScanKeys : Op → Prop
  | .serve _ _ request => ∀ k, request.key = scanKey k → ∃ r reason, request = .transition r ∧
      (r.postmortemId, r.version) = k ∧ r.move = .markStale reason
  | .markStaleIn keys _ _ _ => ∀ n k, keys n ≠ scanKey k
  | .incident _ _ | .jobs _ => True

/-- The runs of the knowledge store in which the keys of the scan are its own. -/
def scanSystem : LTS Store Op := system.restrict fun _ op => op.LeavesScanKeys

namespace Store

variable {s s' t : Store} {K : String → Prop} {result : ActionResult}

/-- What every run leaves for the scan: the incident of each postmortem is there, and a key of the
scan was used for a version that is closed. -/
structure Scannable (s : Store) : Prop where
  sound : s.Sound
  linked : ∀ {id head}, s.postmortems.get id = some head →
    ∃ incident, s.incidents.get head.incidentId = some incident
  keys : ∀ k, s.Used (scanKey k) →
    ∃ row, s.versions.get k = some row ∧ postmortem.terminal row.state = true

theorem Scannable.of_quiet (h : s.Scannable) (hwrites : Writes anyChange s s')
    (hquiet : Quiet K s s') (hK : ∀ k, K (scanKey k) → s'.Used (scanKey k) →
      s.Used (scanKey k) ∨ ∃ row, s'.versions.get k = some row ∧
        postmortem.terminal row.state = true) : s'.Scannable where
  sound := hwrites.stable Write.sound h.sound
  linked hrow := by
    obtain ⟨row, hget, heq⟩ := hquiet.postmortems hrow
    obtain ⟨incident, hincident⟩ := h.linked hget
    rw [← heq]
    exact hwrites.keeps.incidents hincident
  keys k hused := by
    have hold : s.Used (scanKey k) → ∃ row, s'.versions.get k = some row ∧
        postmortem.terminal row.state = true := by
      intro hused
      obtain ⟨row, hrow, hterminal⟩ := h.keys k hused
      exact ⟨row, hwrites.keeps.versions hrow hterminal, hterminal⟩
    rcases hquiet.used _ hused with hbefore | hkey
    · exact hold hbefore
    · exact (hK k hkey hused).elim hold id

theorem Scannable.openPostmortem {fresh incidentId : UUID} {incident : Incident} (h : s.Scannable)
    (hincident : s.incidents.get incidentId = some incident)
    (hopened : s.openPostmortem fresh incidentId = .ok s') : s'.Scannable := by
  have hwrites : Writes anyChange s s' := openPostmortem_writes hopened
  have hsound : s'.Sound := hwrites.stable Write.sound h.sound
  unfold Store.openPostmortem at hopened
  split at hopened
  · rw [pure_eq_ok] at hopened
    exact hopened ▸ h
  · simp only [refuse_bind_eq_ok, pure_eq_ok] at hopened
    obtain ⟨-, rfl⟩ := hopened
    refine ⟨hsound, fun hrow => ?_, h.keys⟩
    obtain ⟨-, rfl⟩ | ⟨-, hold⟩ := Table.get_insert_eq_some.1 hrow
    · exact ⟨incident, hincident⟩
    · exact h.linked hold

/-- A version that is marked stale is closed. -/
theorem transition_closes {ids : String → UUID} (hmove : r.move = .markStale reason)
    (h : s.transition ids r = .ok (result, s')) :
    s.Used r.idempotencyKey ∨ ∃ row, s'.versions.get (r.postmortemId, r.version) = some row ∧
      postmortem.terminal row.state = true := by
  obtain ⟨head, -, hhead, ⟨hreplay, rfl⟩ | ⟨-, -, row, target, moved, published, hrow, hfire, -,
    hmoved, hpublished, hrecord⟩⟩ := transition_cases h
  · obtain ⟨old, hold, -⟩ := replay_some hreplay
    exact .inl (.inl ⟨old, hold⟩)
  · right
    rw [publishFor, hmove, pure_eq_ok] at hpublished
    subst hpublished
    obtain ⟨-, -, rfl⟩ := recordRequest_ok hrecord
    obtain rfl := applyMove_ok hmoved
    rw [hmove]
    have hstale : postmortem.terminal target = true := by
      rw [hmove] at hfire
      cases hstate : row.state <;> rw [hstate] at hfire <;> cases hfire <;> rfl
    exact ⟨_, get_modify_of_get _ hrow, hstale⟩

/-- **What every run leaves is kept by every operation.** -/
theorem Scannable.after {op : Op} (h : s.Scannable) (hop : op.LeavesScanKeys) :
    (s.after op).Scannable := by
  unfold Store.after
  cases hexec : s.exec op with
  | error e => exact h
  | ok done =>
    cases op with
    | serve fresh ids request =>
      obtain ⟨served, hserved, hdone⟩ := bind_eq_ok.1 hexec
      rw [pure_eq_ok] at hdone
      subst hdone
      replace hserved : s.serve fresh ids request = .ok (served.1, served.2) := hserved
      have hwrites := serve_writes hserved
      cases request with
      | generate r =>
        obtain ⟨opened, incident, hopened, hincident, hwrites, hquiet⟩ :=
          recordDraft_quiet (K := (· = r.idempotencyKey)) rfl hserved
        refine (h.openPostmortem hincident hopened).of_quiet hwrites hquiet fun k hkey => ?_
        obtain ⟨r', reason, heq, -⟩ := hop k hkey.symm
        cases heq
      | transition r =>
        have hquiet := transition_quiet (K := (· = r.idempotencyKey)) rfl hserved
        refine h.of_quiet hwrites hquiet fun k hkey _ => ?_
        obtain ⟨r', reason, heq, rfl, hmove⟩ := hop k hkey.symm
        cases heq
        exact hkey ▸ transition_closes hmove hserved
      | revoke r =>
        have hquiet := revoke_quiet (K := (· = r.idempotencyKey)) rfl hserved
        refine h.of_quiet hwrites hquiet fun k hkey => ?_
        obtain ⟨r', reason, heq, -⟩ := hop k hkey.symm
        cases heq
    | markStaleIn keys incidentId reason source =>
      have hwrites := markStaleIn_writes (fun _ _ _ => trivial) hexec (G := anyChange)
      have hquiet := markStaleIn_quiet (K := fun key => ∃ n, keys n = key) (fun n => ⟨n, rfl⟩) hexec
      refine h.of_quiet hwrites hquiet fun k hkey => ?_
      obtain ⟨n, hn⟩ := hkey
      exact absurd hn (hop n k)
    | incident id facts =>
      rw [exec, pure_eq_ok] at hexec
      subst hexec
      refine { h with linked := fun {id' head} hrow => ?_, sound := { h.sound with } }
      obtain ⟨incident, hincident⟩ := h.linked hrow
      by_cases hid : head.incidentId = id
      · exact ⟨facts, (Table.get_insert ..).trans (if_pos hid)⟩
      · exact ⟨incident, (Table.get_insert_ne _ _ hid).trans hincident⟩
    | jobs jobs =>
      rw [exec, pure_eq_ok] at hexec
      subst hexec
      exact { h with sound := { h.sound with } }

/-- Nothing was drafted yet, so nothing was used. -/
theorem Fresh.scannable (h : s.Fresh) : s.Scannable where
  sound := h.sound
  linked hrow := by simp [h.postmortems] at hrow
  keys k hused := by simp [Used, h.requests, h.audit] at hused

end Store

/-- **What every run leaves for the scan.** -/
theorem Reachable.scannable {s : Store} (h : scanSystem.Reachable s) : s.Scannable := by
  refine h.invariant (fun _ hfresh => hfresh.scannable) fun {s op s'} hstep hs => ?_
  obtain ⟨rfl, hop⟩ : s.after op = s' ∧ op.LeavesScanKeys := hstep
  exact hs.after hop

/-! ## Marking what was found -/

theorem toDigits_injective {m n : ℕ} (h : Nat.toDigits 10 m = Nat.toDigits 10 n) : m = n := by
  rw [← Nat.ofDigitChars_ten_toDigits (n := m), h, Nat.ofDigitChars_ten_toDigits]

theorem colon_notMem_toDigits (n : ℕ) : ':' ∉ Nat.toDigits 10 n := fun hmem =>
  absurd (Nat.isDigit_of_mem_toDigits (by decide) (by decide) hmem) (by decide)

/-- A key of the scan names its version. -/
theorem scanKey_injective : Function.Injective scanKey := by
  rintro ⟨id, n⟩ ⟨id', n'⟩ h
  have htext := congrArg String.toList h
  simp only [scanKey, String.toList_append, List.append_assoc, List.append_cancel_left_eq,
    Nat.toString_eq_ofList_toDigits, String.toList_ofList] at htext
  have hcolon : ":".toList = [':'] := rfl
  rw [hcolon, List.singleton_append, List.singleton_append, List.append_cons_inj_of_notMem
    (colon_notMem_toDigits id) (colon_notMem_toDigits n)] at htext
  rw [toDigits_injective htext.1, toDigits_injective htext.2.2]

theorem staleReasonFor_eq_none {moved : List Component} :
    staleReasonFor moved = none ↔ moved = [] := by
  constructor
  · intro h
    rw [List.eq_nil_iff_forall_not_mem]
    intro component hmem
    unfold staleReasonFor at h
    split_ifs at h
    cases component <;> contradiction
  · rintro rfl
    rfl

namespace Store

variable {s s' t : Store} {actor : Actor} {k : UUID × ℕ} {createdAt : UUID × ℕ → Time}
  {C : UUID × ℕ → Prop}

theorem mem_pendingVersions : k ∈ s.pendingVersions ↔
    ∃ head row, s.postmortems.get k.1 = some head ∧ s.versions.get k = some row ∧
      (row.state = .draft ∨ row.state = .underReview) := by
  simp only [pendingVersions, List.mem_map, Prod.exists, exists_and_right, exists_eq_right,
    Table.mem_select_iff, decide_eq_true_eq, Option.isSome_iff_exists]
  constructor
  · rintro ⟨row, hrow, hstate, head, hhead⟩
    exact ⟨head, row, hhead, hrow, hstate⟩
  · rintro ⟨head, row, hhead, hrow, hstate⟩
    exact ⟨row, hrow, hstate, head, hhead⟩

/-- A version that is behind, with the generation of its postmortem. -/
structure Found (s : Store) (row : StaleVersion) : Prop where
  pending : (row.postmortemId, row.version) ∈ s.pendingVersions
  behind : s.isBehind (row.postmortemId, row.version) = true
  generation : ∃ head, s.postmortems.get row.postmortemId = some head ∧
    head.generation = row.generation

theorem staleRow_ok (h : s.Scannable) (hk : k ∈ s.pendingVersions) :
    s.isBehind k = false ∧ s.staleRow k = .ok none ∨
      ∃ row, s.staleRow k = .ok (some row) ∧ (row.postmortemId, row.version) = k ∧ s.Found row := by
  obtain ⟨head, row, hhead, hrow, hstate⟩ := mem_pendingVersions.1 hk
  obtain ⟨incident, hincident⟩ := h.linked hhead
  have hstale : s.staleRow k = .ok ((staleReasonFor (incident.movedComponents row.watermark)).map
      fun reason => ⟨head.incidentId, k.1, head.generation, k.2, reason⟩) :=
    require_bind_eq_ok.2 ⟨head, hhead, require_bind_eq_ok.2 ⟨row, hrow,
      require_bind_eq_ok.2 ⟨incident, hincident, rfl⟩⟩⟩
  have hbehind : s.isBehind k = decide (incident.movedComponents row.watermark ≠ []) := by
    simp [isBehind, hhead, hrow, hincident]
  rw [hstale, hbehind]
  cases hreason : staleReasonFor (incident.movedComponents row.watermark) with
  | none => exact .inl ⟨by simpa using staleReasonFor_eq_none.1 hreason, rfl⟩
  | some reason =>
    have hmoved : incident.movedComponents row.watermark ≠ [] := by
      intro hnil
      rw [staleReasonFor_eq_none.2 hnil] at hreason
      cases hreason
    exact .inr ⟨_, rfl, rfl, hk, hbehind.trans (decide_eq_true hmoved), head, hhead, rfl⟩

/-- **What the scan returns**: the versions it read that are behind. -/
theorem staleRows_ok (h : s.Scannable) {ks : List (UUID × ℕ)}
    (hks : ∀ k ∈ ks, k ∈ s.pendingVersions) :
    ∃ found, s.staleRows ks = .ok found ∧
      (∀ row ∈ found, (row.postmortemId, row.version) ∈ ks ∧ s.Found row) ∧
      ((∃ k ∈ ks, s.isBehind k = true) → found ≠ []) := by
  induction ks with
  | nil => exact ⟨[], rfl, by simp, by simp⟩
  | cons k rest ih =>
    obtain ⟨found, hfound, hrows, hne⟩ := ih fun k hk => hks k (List.mem_cons_of_mem _ hk)
    rcases staleRow_ok h (hks k List.mem_cons_self) with ⟨hbehind, hrow⟩ | ⟨row, hrow, rfl, hmem⟩
    · refine ⟨found, bind_eq_ok.2 ⟨none, hrow, bind_eq_ok.2 ⟨found, hfound, rfl⟩⟩, ?_, ?_⟩
      · exact fun row hmem => ⟨List.mem_cons_of_mem _ (hrows row hmem).1, (hrows row hmem).2⟩
      · rintro ⟨k', hk', hbehind'⟩
        rcases List.mem_cons.1 hk' with rfl | hrest
        · rw [hbehind] at hbehind'
          cases hbehind'
        · exact hne ⟨k', hrest, hbehind'⟩
    · refine ⟨row :: found, bind_eq_ok.2 ⟨some row, hrow, bind_eq_ok.2 ⟨found, hfound, rfl⟩⟩, ?_,
        fun _ => List.cons_ne_nil _ _⟩
      intro row' hrow'
      rcases List.mem_cons.1 hrow' with rfl | hrest
      · exact ⟨List.mem_cons_self, hmem⟩
      · exact ⟨List.mem_cons_of_mem _ (hrows row' hrest).1, (hrows row' hrest).2⟩

/-- What marking leaves: what is behind stays behind, and only versions of `C` are closed. -/
structure Later (C : UUID × ℕ → Prop) (s s' : Store) : Prop where
  scannable : s'.Scannable
  behind : ∀ k, s'.isBehind k = s.isBehind k
  pending : ∀ k ∈ s'.pendingVersions, k ∈ s.pendingVersions
  others : ∀ k ∈ s.pendingVersions, ¬ C k → k ∈ s'.pendingVersions

theorem Later.refl (h : s.Scannable) : Later C s s :=
  ⟨h, fun _ => rfl, fun _ hk => hk, fun _ hk _ => hk⟩

theorem Later.trans (h₁ : Later C s s') (h₂ : Later C s' t) : Later C s t where
  scannable := h₂.scannable
  behind k := (h₂.behind k).trans (h₁.behind k)
  pending k hk := h₁.pending k (h₂.pending k hk)
  others k hk hC := h₂.others k (h₁.others k hk hC) hC

/-- A version marked stale, with the generation of its postmortem. -/
theorem transition_markStale {ids : String → UUID} {result : ActionResult}
    (hmove : r.move = .markStale reason) (h : s.transition ids r = .ok (result, s')) :
    s' = s ∨ s'.incidents = s.incidents ∧
      s'.postmortems = s.postmortems.modify r.postmortemId (fun row =>
        { row with generation := r.expectedGeneration + 1 }) ∧
      s'.versions = s.versions.modify (r.postmortemId, r.version) fun row =>
        { row with state := .stale, staleReason := some reason } := by
  obtain ⟨head, -, hhead, ⟨-, rfl⟩ | ⟨-, -, row, target, moved, published, hrow, hfire, -, hmoved,
    hpublished, hrecord⟩⟩ := transition_cases h
  · exact .inl rfl
  · rw [publishFor, hmove, pure_eq_ok] at hpublished
    subst hpublished
    obtain ⟨-, -, rfl⟩ := recordRequest_ok hrecord
    obtain rfl := applyMove_ok hmoved
    rw [hmove] at hfire ⊢
    have hstale : target = .stale := by
      cases hstate : row.state <;> rw [hstate] at hfire <;> cases hfire <;> rfl
    subst hstale
    exact .inr ⟨rfl, rfl, rfl⟩

theorem isBehind_modify (hincidents : s'.incidents = s.incidents) {id : UUID}
    (hpostmortems : s'.postmortems = s.postmortems.modify id fun row =>
      { row with generation := generation }) {state : PostmortemState} {reason : Option StaleReason}
    (hversions : s'.versions = s.versions.modify k fun row =>
      { row with state := state, staleReason := reason }) (k' : UUID × ℕ) :
    s'.isBehind k' = s.isBehind k' := by
  simp only [isBehind, hincidents, hpostmortems, hversions, Table.get_modify]
  cases s.postmortems.get k'.1 <;> cases s.versions.get k' <;> split_ifs <;> rfl

theorem mem_pendingVersions_stale {id : UUID}
    (hpostmortems : s'.postmortems = s.postmortems.modify id fun row =>
      { row with generation := generation }) {reason : Option StaleReason}
    (hversions : s'.versions = s.versions.modify k fun row =>
      { row with state := .stale, staleReason := reason }) (k' : UUID × ℕ) :
    k' ∈ s'.pendingVersions ↔ k' ≠ k ∧ k' ∈ s.pendingVersions := by
  have hhead : (∃ head, s'.postmortems.get k'.1 = some head) ↔
      ∃ head, s.postmortems.get k'.1 = some head := by
    rw [hpostmortems, Table.get_modify]
    split <;> simp
  simp only [mem_pendingVersions, exists_and_left, exists_and_right, hhead]
  by_cases hk : k' = k
  · subst hk
    simp [hversions]
  · rw [hversions, Table.get_modify_ne _ _ hk]
    simp [hk]

theorem request_leaves (row : StaleVersion) (actor : Actor) :
    (Op.serve 0 (fun _ => 0) (.transition (row.request actor))).LeavesScanKeys :=
  fun _ hk => ⟨row.request actor, row.reason, rfl, scanKey_injective hk, rfl⟩

theorem markFound_eq_after (row : StaleVersion) :
    markFound actor s row = s.after (.serve 0 (fun _ => 0) (.transition (row.request actor))) := by
  unfold markFound after
  cases h : s.transition (fun _ => 0) (row.request actor) with
  | error e =>
    rw [exec, serve, h]
    rfl
  | ok done =>
    rw [exec, serve, h]
    rfl

theorem markFound_later (h : s.Scannable) {row : StaleVersion}
    (hC : C (row.postmortemId, row.version)) : Later C s (markFound actor s row) := by
  have hscannable : (markFound actor s row).Scannable := by
    rw [markFound_eq_after]
    exact h.after (request_leaves row actor)
  unfold markFound at hscannable ⊢
  cases hdone : s.transition (fun _ => 0) (row.request actor) with
  | error e => exact .refl h
  | ok done =>
    rw [hdone] at hscannable
    dsimp only at hscannable ⊢
    rcases transition_markStale rfl (show _ = Except.ok (done.1, done.2) from hdone) with heq | hmark
    · rw [heq]
      exact .refl h
    · obtain ⟨hincidents, hpostmortems, hversions⟩ := hmark
      have hpending := mem_pendingVersions_stale hpostmortems hversions
      refine ⟨hscannable, isBehind_modify hincidents hpostmortems hversions,
        fun k hk => ((hpending k).1 hk).2, fun k hk hnot => (hpending k).2 ⟨?_, hk⟩⟩
      rintro rfl
      exact hnot hC

theorem foldl_markFound_later (h : s.Scannable) {rows : List StaleVersion}
    (hC : ∀ row ∈ rows, C (row.postmortemId, row.version)) :
    Later C s (rows.foldl (markFound actor) s) := by
  induction rows generalizing s with
  | nil => exact .refl h
  | cons row rest ih =>
    have hfirst : Later C s (markFound actor s row) :=
      markFound_later h (hC row List.mem_cons_self)
    exact hfirst.trans (ih hfirst.scannable fun row' hmem => hC row' (List.mem_cons_of_mem _ hmem))

theorem workerActor_ok (owner : UUID) : requireActor (workerActor owner) .markStale = .ok () := by
  have hblank : blank (workerActor owner).actorId = false := by
    simp only [workerActor, blank, String.toList_append, List.all_append, Bool.and_eq_false_imp]
    intro h
    exact absurd h (by decide)
  refine bind_eq_ok.2 ⟨(), refuse_eq_ok.2 (by simp [hblank]), refuse_eq_ok.2 ?_⟩
  simp [workerActor, Action.byWorker]

theorem scanKey_ok (k : UUID × ℕ) : requireText (scanKey k) = .ok () := by
  have hblank : blank (scanKey k) = false := by
    simp only [scanKey, blank, String.toList_append, List.all_append, List.append_assoc,
      Bool.and_eq_false_imp]
    intro h
    exact absurd h (by decide)
  exact refuse_eq_ok.2 (by simp [hblank])

/-- No audit row stands in the way of the next one of an object. -/
theorem auditRow_total (h : s.Sound) {row : AuditRow}
    (hgeneration : s.generationOf row.objectKind row.objectId = row.expectedGeneration)
    (hkey : ∀ old ∈ s.audit, old.idempotencyKey ≠ row.idempotencyKey) :
    s.auditRow row = .ok { s with audit := s.audit ++ [row] } := by
  refine refuse_bind_eq_ok.2 ⟨?_, rfl⟩
  rw [Bool.not_eq_true, List.any_eq_false]
  intro old hold
  simp only [decide_eq_true_eq, not_and, not_or]
  intro hkind hid
  refine ⟨fun heq => absurd heq (hkey old hold), fun heq => ?_⟩
  have hmem : old.resultingGeneration ∈ List.range' 1 (s.generationOf row.objectKind row.objectId) := by
    rw [← h.audited]
    exact List.mem_map_of_mem (List.mem_filter.2 ⟨hold, by simp [hkind, hid]⟩)
  rw [heq, hgeneration, List.mem_range'_1, AuditRow.resultingGeneration] at hmem
  omega

/-- A request to mark a version is served when nothing stands in its way. -/
theorem transition_total {ids : String → UUID} {head : PostmortemRow} {row : VersionRow}
    {target : PostmortemState} (hmove : r.move = .markStale reason) (hvalid : r.validate = .ok ())
    (hhead : s.postmortems.get r.postmortemId = some head)
    (hgeneration : head.generation = r.expectedGeneration)
    (hrequest : s.requests.get r.idempotencyKey = none)
    (hrow : s.versions.get (r.postmortemId, r.version) = some row)
    (hfire : postmortem.fire row.state r.move.trigger = some target)
    (haudit : s.auditRow r.audit = .ok { s with audit := s.audit ++ [r.audit] }) :
    ∃ done, s.transition ids r = .ok done := by
  have hreplay : s.replay r.idempotencyKey (.transition r) = .ok none := by rw [replay, hrequest]
  have hchecks : s.approvalChecks head row r.move = .ok () := by rw [hmove]; rfl
  obtain ⟨moved, hmoved, hsame⟩ : ∃ moved, s.applyMove head target r = .ok moved ∧
      moved.requests = s.requests :=
    ⟨_, bind_eq_ok.2 ⟨_, haudit, rfl⟩, by rw [hmove]; rfl⟩
  have hpublished : moved.publishFor ids r row = .ok ([], moved) := by
    rw [publishFor, hmove]
    rfl
  have hrecord : ∀ answer, ∃ done,
      moved.recordRequest r.idempotencyKey (.transition r) answer = .ok done :=
    fun answer => ⟨_, refuse_bind_eq_ok.2 ⟨by simp [hsame, hrequest], rfl⟩⟩
  obtain ⟨done, hrecord⟩ := hrecord
    { action := r.move.action, objectKind := .postmortem, objectId := r.postmortemId
      generation := r.expectedGeneration + 1, version := some r.version
      state := some (.version target), published := [] }
  refine ⟨done, bind_eq_ok.2 ⟨(), hvalid, require_bind_eq_ok.2 ⟨head, hhead, bind_eq_ok.2 ⟨none,
    hreplay, refuse_bind_eq_ok.2 ⟨not_not.2 hgeneration, require_bind_eq_ok.2 ⟨row, hrow, ?_⟩⟩⟩⟩⟩⟩
  exact require_bind_eq_ok.2 ⟨target, hfire, bind_eq_ok.2 ⟨(), hchecks, bind_eq_ok.2 ⟨moved, hmoved,
    bind_eq_ok.2 ⟨_, hpublished, hrecord⟩⟩⟩⟩

/-- **The worker marks the first version it finds.** -/
theorem markFound_closes (h : s.Scannable) {row : StaleVersion} (hfound : s.Found row)
    (owner : UUID) :
    (row.postmortemId, row.version) ∉ (markFound (workerActor owner) s row).pendingVersions := by
  obtain ⟨head, version, hhead, hversion, hstate⟩ := mem_pendingVersions.1 hfound.pending
  obtain ⟨head', hhead', hgeneration⟩ := hfound.generation
  obtain rfl := Option.some.inj (hhead.symm.trans hhead')
  have hunused : ¬ s.Used (scanKey (row.postmortemId, row.version)) := by
    intro hused
    obtain ⟨version', hversion', hterminal⟩ := h.keys _ hused
    obtain rfl := Option.some.inj (hversion.symm.trans hversion')
    rcases hstate with hstate | hstate <;> rw [hstate] at hterminal <;> cases hterminal
  simp only [Used, not_or, not_exists, not_and] at hunused
  set r := row.request (workerActor owner) with hr
  have hrequest : s.requests.get r.idempotencyKey = none := Option.eq_none_iff_forall_ne_some.2 hunused.1
  have hpositive : ¬ row.version < 1 := by
    obtain ⟨m, -, hone, -⟩ := (h.sound.versions row.postmortemId row.version).1 ⟨_, hversion⟩
    omega
  have hvalid : r.validate = .ok () :=
    bind_eq_ok.2 ⟨(), workerActor_ok owner, bind_eq_ok.2 ⟨(), scanKey_ok _,
      bind_eq_ok.2 ⟨(), refuse_eq_ok.2 hpositive, rfl⟩⟩⟩
  have hreplay : s.replay r.idempotencyKey (.transition r) = .ok none := by
    rw [replay, hrequest]
  have hfire : postmortem.fire version.state r.move.trigger = some .stale := by
    rcases hstate with hstate | hstate <;> rw [hstate] <;> rfl
  have haudit : s.auditRow r.audit = .ok { s with audit := s.audit ++ [r.audit] } := by
    refine auditRow_total h.sound ?_ hunused.2
    exact (congrArg (Option.elim · 0 PostmortemRow.generation) hhead).trans hgeneration
  obtain ⟨done, hdone⟩ := transition_total rfl hvalid hhead hgeneration
    hrequest hversion hfire haudit
  have hclosed := (transition_closes rfl (show _ = Except.ok (done.1, done.2) from hdone)).resolve_left
    (not_or.2 ⟨not_exists.2 hunused.1, not_exists.2 fun row hrow => hunused.2 row hrow.1 hrow.2⟩)
  unfold markFound
  rw [← hr, hdone]
  intro hmem
  obtain ⟨-, version', -, hversion', hopen⟩ := mem_pendingVersions.1 hmem
  obtain ⟨version'', hversion'', hterminal⟩ := hclosed
  obtain rfl := Option.some.inj (hversion'.symm.trans hversion'')
  rcases hopen with hopen | hopen <;> rw [hopen] at hterminal <;> cases hterminal

/-! ## Passes -/

theorem pendingVersions_nodup (s : Store) : s.pendingVersions.Nodup :=
  (List.filter_sublist.map Prod.fst).nodup s.versions.keys_nodup

/-- Marking versions that are behind leaves the others where they are. -/
theorem Later.unmovedBefore (h : Later C s s') (hC : ∀ k, C k → s.isBehind k = true)
    (k : UUID × ℕ) :
    (s'.unmovedBefore createdAt k).length = (s.unmovedBefore createdAt k).length := by
  refine ((List.perm_ext_iff_of_nodup (s'.pendingVersions_nodup.filter _)
    (s.pendingVersions_nodup.filter _)).2 fun u => ?_).length_eq
  simp only [List.mem_filter, decide_eq_true_eq, h.behind]
  constructor
  · rintro ⟨hu, hkept⟩
    exact ⟨h.pending u hu, hkept⟩
  · rintro ⟨hu, hbehind, hage⟩
    exact ⟨h.others u hu fun hCu => hbehind (hC u hCu), hbehind, hage⟩

/-- What a pass does with the versions it reads. -/
theorem compensateStale_ok (h : s.Scannable) {rows : List (UUID × ℕ)}
    (horder : s.ScanOrder createdAt rows) (owner limit : ℕ) :
    ∃ found s', s.staleVersions rows limit = .ok found ∧
      s.compensateStale (workerActor owner) rows limit = .ok s' ∧
      Later (fun k => k ∈ rows.take limit ∧ s.isBehind k = true) s s' ∧
      ((∃ k ∈ rows.take limit, s.isBehind k = true) → found ≠ [] ∧
        ∃ k ∈ s.pendingVersions, s.isBehind k = true ∧ k ∉ s'.pendingVersions) := by
  have hread : ∀ k ∈ rows.take limit, k ∈ s.pendingVersions :=
    fun k hk => horder.perm.mem_iff.1 (List.mem_of_mem_take hk)
  obtain ⟨found, hfound, hrows, hne⟩ := staleRows_ok h hread
  refine ⟨found, _, hfound, bind_eq_ok.2 ⟨found, hfound, rfl⟩,
    foldl_markFound_later h fun row hmem => ⟨(hrows row hmem).1, (hrows row hmem).2.behind⟩,
    fun hbehind => ⟨hne hbehind, ?_⟩⟩
  cases found with
  | nil => exact absurd rfl (hne hbehind)
  | cons row rest =>
    -- the first version found is marked, and stays so
    obtain ⟨-, hfirst⟩ := hrows row List.mem_cons_self
    have hlater : Later (fun _ => True) s (markFound (workerActor owner) s row) :=
      markFound_later h trivial
    have hrest : Later (fun _ => True) (markFound (workerActor owner) s row)
        (rest.foldl (markFound (workerActor owner)) (markFound (workerActor owner) s row)) :=
      foldl_markFound_later hlater.scannable fun _ _ => trivial
    exact ⟨_, hfirst.pending, hfirst.behind, fun hmem =>
      markFound_closes h hfirst owner (hrest.pending _ hmem)⟩

/-- The versions that are behind. -/
def behindVersions (s : Store) : Finset (UUID × ℕ) :=
  s.pendingVersions.toFinset.filter fun k => s.isBehind k = true

theorem mem_behindVersions : k ∈ s.behindVersions ↔
    k ∈ s.pendingVersions ∧ s.isBehind k = true := by
  rw [behindVersions, Finset.mem_filter, List.mem_toFinset]

/-- Fewer versions that are not behind than a batch holds are as old as each that is. -/
def FewUnmoved (s : Store) (createdAt : UUID × ℕ → Time) (limit : ℕ) : Prop :=
  ∀ k ∈ s.pendingVersions, s.isBehind k = true → (s.unmovedBefore createdAt k).length < limit

variable {limit : ℕ}

theorem FewUnmoved.exists_read {rows : List (UUID × ℕ)} (h : s.FewUnmoved createdAt limit)
    (horder : s.ScanOrder createdAt rows) (hk : k ∈ s.pendingVersions)
    (hbehind : s.isBehind k = true) :
    ∃ k ∈ rows.take limit, s.isBehind k = true := by
  refine exists_mem_take_of_few horder.sorted (horder.perm.mem_iff.2 hk) hbehind ?_
  rw [(horder.perm.filter _).length_eq]
  exact h k hk hbehind

/-- Each pass marks a version, until none is behind. -/
theorem FewUnmoved.drains (owner : UUID) (run : ℕ → Store)
    (hrun : ∀ n, (run n).Pass createdAt (workerActor owner) limit (run (n + 1)))
    (hs : (run 0).Scannable) (h : (run 0).FewUnmoved createdAt limit) :
    ∃ n, ∀ k ∈ (run n).pendingVersions, (run n).isBehind k = false := by
  induction hcard : (run 0).behindVersions.card using Nat.strongRecOn generalizing run with
  | ind m ih =>
    by_cases hnone : ∀ k ∈ (run 0).pendingVersions, (run 0).isBehind k = false
    · exact ⟨0, hnone⟩
    simp only [not_forall, Bool.not_eq_false] at hnone
    obtain ⟨k, hk, hbehind⟩ := hnone
    obtain ⟨rows, horder, hpass⟩ := hrun 0
    obtain ⟨found, s', -, hs', hlater, hmarks⟩ := compensateStale_ok hs horder owner limit
    obtain rfl : s' = run 1 := Except.ok.inj (hs'.symm.trans hpass)
    obtain ⟨-, k', hk', hbehind', hgone⟩ := hmarks (h.exists_read horder hk hbehind)
    have hsubset : (run 1).behindVersions ⊂ (run 0).behindVersions := by
      refine Finset.ssubset_iff_subset_ne.2 ⟨fun u hu => ?_, fun heq => ?_⟩
      · rw [mem_behindVersions, hlater.behind] at hu
        exact mem_behindVersions.2 ⟨hlater.pending u hu.1, hu.2⟩
      · have hmem := mem_behindVersions.2 ⟨hk', hbehind'⟩
        rw [← heq, mem_behindVersions] at hmem
        exact hgone hmem.1
    have hnext : (run 1).FewUnmoved createdAt limit := by
      intro u hu hubehind
      rw [hlater.unmovedBefore fun _ hC => hC.2]
      exact h u (hlater.pending u hu) (by rwa [hlater.behind] at hubehind)
    obtain ⟨n, hn⟩ := ih _ (hcard ▸ Finset.card_lt_card hsubset) (fun n => run (n + 1))
      (fun n => hrun (n + 1)) hlater.scannable hnext rfl
    exact ⟨n + 1, hn⟩

/-- A version behind too many others can be passed over again and again. -/
structure Buried (createdAt : UUID × ℕ → Time) (limit : ℕ) (k : UUID × ℕ) (s : Store) : Prop where
  scannable : s.Scannable
  pending : k ∈ s.pendingVersions
  behind : s.isBehind k = true
  many : limit ≤ (s.unmovedBefore createdAt k).length

theorem Buried.pass (h : s.Buried createdAt limit k) (owner : UUID) :
    ∃ s', s.Pass createdAt (workerActor owner) limit s' ∧ s'.Buried createdAt limit k := by
  obtain ⟨rows, hperm, hsorted, hfirst⟩ := exists_sorted_of_many createdAt
    (fun u => s.isBehind u = true) s.pendingVersions limit
  obtain ⟨found, s', -, hs', hlater, -⟩ :=
    compensateStale_ok h.scannable ⟨hperm, hsorted⟩ owner limit
  refine ⟨s', ⟨rows, ⟨hperm, hsorted⟩, hs'⟩, hlater.scannable, hlater.others k h.pending ?_,
    (hlater.behind k).trans h.behind, ?_⟩
  · rintro ⟨hread, -⟩
    exact absurd (hfirst k hread h.behind) (not_lt.2 h.many)
  · rw [hlater.unmovedBefore fun _ hC => hC.2]
    exact h.many

end Store

/-- **When the scan misses nothing.** In every state a run leaves, however old the versions are and
in whatever order rows of one instant come, repeated passes reach a state with no version behind
(and a pass finds one whenever there is one) exactly if, of the versions that are not behind, fewer
than a batch are as old as each that is. -/
theorem staleScan_exact {s : Store} (h : scanSystem.Reachable s) (createdAt : UUID × ℕ → Time)
    (owner : UUID) (limit : ℕ) :
    MissesNothing s createdAt (workerActor owner) limit ↔ s.FewUnmoved createdAt limit := by
  have hs := Reachable.scannable h
  constructor
  · intro hmisses k hk hbehind
    by_contra hmany
    have hburied : s.Buried createdAt limit k := ⟨hs, hk, hbehind, not_lt.1 hmany⟩
    have hstep : ∀ u : { u : Store // u.Buried createdAt limit k },
        ∃ v : { u : Store // u.Buried createdAt limit k },
          u.1.Pass createdAt (workerActor owner) limit v.1 := by
      rintro ⟨u, hu⟩
      obtain ⟨v, hpass, hv⟩ := hu.pass owner
      exact ⟨⟨v, hv⟩, hpass⟩
    choose next hnext using hstep
    obtain ⟨n, hn⟩ := hmisses.drains (fun n => (next^[n] ⟨s, hburied⟩).1) rfl fun n => by
      rw [Function.iterate_succ_apply']
      exact hnext _
    have hlast := (next^[n] ⟨s, hburied⟩).2
    exact absurd (hlast.behind.symm.trans (hn k hlast.pending)) (by decide)
  · intro hfew
    refine ⟨fun rows horder hbehind => ?_, fun run hstart hrun => ?_⟩
    · obtain ⟨k, hk, hbehind⟩ := hbehind
      obtain ⟨found, s', hfound, -, -, hmarks⟩ := Store.compensateStale_ok hs horder owner limit
      exact ⟨found, hfound, (hmarks (hfew.exists_read horder hk hbehind)).1⟩
    · subst hstart
      exact hfew.drains owner run hrun hs

/-! ## An old draft that has not moved -/

/-- Two incidents that ended with one Run each, before anything was drafted. -/
def scanStart : Store where
  incidents := ((∅ : Table UUID Incident).insert 1
    { observationGeneration := 1, currentRunId := some 5, runs := [(5, .completed)]
      sessions := [⟨3, .completed, 1, [4]⟩] }).insert 2
    { observationGeneration := 1, currentRunId := some 15, runs := [(15, .completed)]
      sessions := [⟨13, .completed, 1, [14]⟩] }

/-- The draft of an incident. -/
def scanDraft (incidentId session ending run : UUID) (key : String) : DraftRequest where
  incidentId := incidentId
  expectedGeneration := 0
  idempotencyKey := key
  actor := workerActor 9
  content := "{}"
  watermark := ⟨0, 1, session, ending, 1, some run, 0, []⟩
  conclusions := [⟨"cause", "root_cause", "disk full", .code, .deterministic, true, []⟩]

/-- Each incident gets a draft, and then the second one gets an input that nobody marks for. -/
def scanRun : List Op :=
  [.serve 6 (fun _ => 0) (.generate (scanDraft 1 3 4 5 "generate:1")),
   .serve 7 (fun _ => 0) (.generate (scanDraft 2 13 14 15 "generate:2")),
   .incident 2
    { observationGeneration := 1, currentRunId := some 15, runs := [(15, .completed)]
      inputs := [1], sessions := [⟨13, .completed, 1, [14]⟩] }]

/-- What the run leaves. -/
def scanState : Store := scanRun.foldl Store.after scanStart

/-- The draft of the first incident is the older one. -/
def scanAge (k : UUID × ℕ) : Time := if k.1 = 6 then 0 else 1

theorem head?_scanKey (k : UUID × ℕ) : (scanKey k).toList.head? = some 's' := by
  simp only [scanKey, String.toList_append, List.append_assoc]
  rfl

theorem scanState_reachable : scanSystem.Reachable scanState := by
  refine ⟨scanStart, scanRun, ⟨rfl, rfl, rfl, rfl, rfl, rfl, rfl⟩,
    (Store.run_foldl scanStart scanRun).restrict fun _ op hop => ?_⟩
  -- the keys of the drafts do not begin as the keys of the scan do
  have hkey : ∀ request : Request, request.key.toList.head? ≠ some 's' → ∀ fresh ids,
      (Op.serve fresh ids request).LeavesScanKeys := by
    intro request hne fresh ids k hk
    rw [hk] at hne
    exact absurd (head?_scanKey k) hne
  simp only [scanRun, List.mem_cons, List.not_mem_nil, or_false] at hop
  rcases hop with rfl | rfl | rfl
  · exact hkey _ (by decide) _ _
  · exact hkey _ (by decide) _ _
  · trivial

/-- Of two such drafts, a batch of one finds neither, and a batch of two misses nothing. -/
theorem scanState_missed : scanSystem.Reachable scanState ∧
    ¬ MissesNothing scanState scanAge (workerActor 9) 1 := by
  refine ⟨scanState_reachable, fun h => ?_⟩
  have horder : scanState.ScanOrder scanAge [(6, 1), (7, 1)] := ⟨by decide +kernel, by decide +kernel⟩
  obtain ⟨found, hfound, hne⟩ := h.finds _ horder ⟨(7, 1), by decide +kernel, by decide +kernel⟩
  have hnone : (scanState.staleVersions [(6, 1), (7, 1)] 1).toOption = some [] := by decide +kernel
  rw [hfound] at hnone
  exact hne (Option.some.inj hnone)

theorem staleScan_exact_pair : scanState.FewUnmoved scanAge 2 ∧
    MissesNothing scanState scanAge (workerActor 9) 2 :=
  have hfew : scanState.FewUnmoved scanAge 2 := by unfold Store.FewUnmoved; decide +kernel
  ⟨hfew, (staleScan_exact scanState_reachable scanAge 9 2).2 hfew⟩

end OpsPilot.Knowledge
