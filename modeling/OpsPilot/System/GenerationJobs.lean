import OpsPilot.System.KnowledgeWrites

/-!
# The generation jobs beside the knowledge operations

The operations of the knowledge store touch a generation job in two places: a draft that can be
reviewed clears the version its job waits for (`recordDraft_jobs`), and a return sets it and starts
the count afresh (`transition_jobs`). Only a draft is recorded as one.
-/

namespace OpsPilot.Knowledge

/-- The states of a version that blocks another of its watermark. -/
def PostmortemState.reviewable : PostmortemState → Bool
  | .underReview | .approved | .rejected => true
  | .draft | .returned | .stale => false

namespace Store

variable {s s' s'' : Store} {result : ActionResult}

/-- A draft was recorded under the key. -/
def Generated (s : Store) (key : String) : Prop :=
  ∃ row r, s.requests.get key = some row ∧ row.request = .generate r

/-- A version of a postmortem of the incident that was submitted and not returned. -/
def ReviewableVersion (s : Store) (incidentId : UUID) (k : UUID × ℕ) : Prop :=
  ∃ head row, s.postmortems.get k.1 = some head ∧ head.incidentId = incidentId ∧
    s.versions.get k = some row ∧ row.state.reviewable = true

/-- The jobs stay, and no draft is recorded. -/
structure Beside (s s' : Store) : Prop where
  jobs : s'.jobs = s.jobs
  generated : ∀ {key}, s'.Generated key → s.Generated key

variable {fresh incidentId : UUID} {ids : String → UUID} {r : TransitionRequest}

namespace Beside

theorem refl (s : Store) : s.Beside s := ⟨rfl, id⟩

theorem trans (h : s.Beside s') (h' : s'.Beside s'') : s.Beside s'' :=
  ⟨h'.jobs.trans h.jobs, fun hkey => h.generated (h'.generated hkey)⟩

theorem auditRow {row : AuditRow} (h : s.auditRow row = .ok s') : s.Beside s' := by
  obtain rfl := auditRow_ok h
  exact ⟨rfl, id⟩

/-- A request that is no draft is recorded. -/
theorem recordRequest {key : String} {request : Request} {answer : ActionResult}
    (h : s.recordRequest key request answer = .ok (result, s'))
    (hrequest : ∀ r, request ≠ .generate r) : s.Beside s' := by
  obtain ⟨-, -, rfl⟩ := recordRequest_ok h
  refine ⟨rfl, ?_⟩
  rintro k ⟨row, r, hrow, hr⟩
  obtain ⟨-, rfl⟩ | ⟨-, hold⟩ := Table.get_insert_eq_some.1 hrow
  · exact absurd hr (hrequest r)
  · exact ⟨row, r, hold, hr⟩

theorem entryFor {generations : Table UUID ℕ} {p : Proposal} {found : (UUID × EntryRow) × Store}
    (h : s.entryFor fresh generations p = .ok found) :
    s.Beside found.2 := by
  unfold Store.entryFor at h
  split at h
  · simp only [refuse_bind_eq_ok, pure_eq_ok] at h
    obtain ⟨-, rfl⟩ := h
    exact ⟨rfl, id⟩
  · simp only [require_bind_eq_ok, refuse_bind_eq_ok, pure_eq_ok] at h
    obtain ⟨expected, -, row, -, -, rfl⟩ := h
    exact refl s

theorem publishOne {generations : Table UUID ℕ} {p : Proposal}
    {published : (String × Published) × Store}
    (h : s.publishOne ids generations r p = .ok published) : s.Beside published.2 := by
  obtain ⟨found, hfound, h⟩ := bind_eq_ok.1 h
  obtain ⟨superseded, -, h⟩ := bind_eq_ok.1 h
  obtain ⟨written, hwritten, h⟩ := bind_eq_ok.1 h
  obtain rfl := pure_eq_ok.1 h
  obtain ⟨audited, haudit, hwritten⟩ := bind_eq_ok.1 hwritten
  simp only [refuse_bind_eq_ok, pure_eq_ok] at hwritten
  obtain ⟨-, rfl⟩ := hwritten
  have hfound : s.Beside found.2 := entryFor hfound
  have haudited : s.Beside audited := hfound.trans (auditRow haudit)
  exact ⟨haudited.jobs, haudited.generated⟩

theorem publishFor {row : VersionRow} {published : List (String × Published) × Store}
    (h : s.publishFor ids r row = .ok published) :
    s.Beside published.2 := by
  have hall : ∀ {generations proposals s published},
      publishAll s ids generations r proposals = .ok published → s.Beside published.2 := by
    intro generations proposals
    induction proposals with
    | nil =>
      intro s published h
      obtain rfl := pure_eq_ok.1 h
      exact refl s
    | cons p rest ih =>
      intro s published h
      obtain ⟨first, hfirst, h⟩ := bind_eq_ok.1 h
      obtain ⟨others, hothers, h⟩ := bind_eq_ok.1 h
      obtain rfl := pure_eq_ok.1 h
      have hrest : first.2.Beside others.2 := ih hothers
      exact (publishOne hfirst).trans hrest
  unfold Store.publishFor at h
  split at h
  · exact hall (refuse_bind_eq_ok.1 h).2
  · obtain rfl := pure_eq_ok.1 h
    exact refl s

/-- A revocation goes on beside the jobs. -/
theorem revoke {r : RevokeRequest} (h : s.revoke r = .ok (result, s')) : s.Beside s' := by
  obtain ⟨head, -, -, ⟨-, rfl⟩ | ⟨-, -, -, written, hwritten, hrecord⟩⟩ := revoke_cases h
  · exact refl _
  · obtain ⟨audited, haudit, hwritten⟩ := bind_eq_ok.1 hwritten
    simp only [refuse_bind_eq_ok, pure_eq_ok] at hwritten
    obtain ⟨-, rfl⟩ := hwritten
    have haudited : s.Beside audited := auditRow haudit
    refine Beside.trans ?_ (recordRequest hrecord fun _ heq => ?_)
    · exact ⟨haudited.jobs, haudited.generated⟩
    · cases heq

theorem markOpen {keys : ℕ → String} {incident : Incident} {id : UUID} {reason : StaleReason}
    {source : String} {generation : ℕ} {rows : List (ℕ × VersionRow)}
    {marked : List ActionResult × Store}
    (h : s.markOpen keys incident id reason source generation rows = .ok marked) :
    s.Beside marked.2 := by
  induction rows generalizing s generation marked with
  | nil =>
    obtain rfl := pure_eq_ok.1 h
    exact refl s
  | cons e rest ih =>
    obtain ⟨version, row⟩ := e
    rw [Store.markOpen] at h
    split at h
    · exact ih h
    · obtain ⟨audited, haudit, h⟩ := bind_eq_ok.1 h
      obtain ⟨first, hfirst, h⟩ := bind_eq_ok.1 h
      obtain ⟨others, hothers, h⟩ := bind_eq_ok.1 h
      obtain rfl := pure_eq_ok.1 h
      have haudited : s.Beside audited := auditRow haudit
      have hmarked : s.Beside first.2 := by
        refine Beside.trans ?_
          (recordRequest (show _ = Except.ok (first.1, first.2) from hfirst) fun _ heq => ?_)
        · exact ⟨haudited.jobs, haudited.generated⟩
        · cases heq
      have hrest : first.2.Beside others.2 := ih hothers
      exact hmarked.trans hrest

/-- Marking stale goes on beside the jobs. -/
theorem markStaleIn {keys : ℕ → String} {reason : StaleReason} {source : String}
    {marked : List ActionResult × Store}
    (h : s.markStaleIn keys incidentId reason source = .ok marked) : s.Beside marked.2 := by
  obtain ⟨⟨⟩, -, hmarked⟩ := bind_eq_ok.1 h
  split at hmarked
  · obtain rfl := pure_eq_ok.1 hmarked
    exact refl s
  · simp only [require_bind_eq_ok] at hmarked
    obtain ⟨incident, -, hmarked⟩ := hmarked
    exact markOpen hmarked

end Beside

/-! ## Reviews -/

/-- The job of an incident after a return of one of its versions. -/
def returnedJob (job : Option JobRow) (version : ℕ) : JobRow :=
  match job with
  | none => { pendingRegenerationVersion := some version }
  | some job => { job with
      pendingRegenerationVersion := some version, consecutiveFailures := 0
      nextAttemptAt := none, lastErrorCode := none, failureWatermark := none }

theorem fire_return {a b : PostmortemState}
    (h : postmortem.fire a .humanReturnForRevision = some b) :
    a = .underReview ∧ b = .returned := by
  cases a <;> cases b <;> first | exact ⟨rfl, rfl⟩ | exact absurd h (by decide)

/-- **What a review makes of the jobs**: nothing, unless it returns a version. -/
theorem transition_jobs (h : s.transition ids r = .ok (result, s')) :
    (∀ {key}, s'.Generated key → s.Generated key) ∧ (s'.jobs = s.jobs ∨
      ∃ head row, s.postmortems.get r.postmortemId = some head ∧
        s.versions.get (r.postmortemId, r.version) = some row ∧ row.state = .underReview ∧
        s'.versions.get (r.postmortemId, r.version) =
          some { row with state := .returned, staleReason := none } ∧
        ∀ i, s'.jobs.get i = if i = head.incidentId then
          some (returnedJob (s.jobs.get i) r.version) else s.jobs.get i) := by
  obtain ⟨head, -, hhead, ⟨-, rfl⟩ | ⟨-, -, row, target, moved, published, hrow, htarget, -,
    hmoved, hpublished, hrecord⟩⟩ := transition_cases h
  · exact ⟨id, .inl rfl⟩
  have hpublished' : moved.Beside s' := (Beside.publishFor hpublished).trans
    (Beside.recordRequest hrecord fun _ heq => by cases heq)
  obtain rfl := applyMove_ok hmoved
  cases hmove : r.move with
  | approve generations | reject reason | markStale reason =>
    simp only [requestRegeneration, hmove] at hpublished'
    exact ⟨fun hkey => hpublished'.generated hkey, .inl hpublished'.jobs⟩
  | «return» reason =>
    simp only [requestRegeneration, hmove] at hpublished'
    rw [hmove] at htarget
    obtain ⟨hreview, rfl⟩ := fire_return htarget
    refine ⟨fun hkey => hpublished'.generated hkey, .inr ⟨head, row, hhead, hrow, hreview, ?_, ?_⟩⟩
    · rw [publishFor, hmove] at hpublished
      obtain rfl := pure_eq_ok.1 hpublished
      obtain ⟨-, -, rfl⟩ := recordRequest_ok hrecord
      simp only [requestRegeneration, setVersionState, bumpPostmortem, Table.get_modify_self, hrow,
        Option.map_some, Move.staleReason]
    · intro i
      rw [hpublished'.jobs]
      dsimp only [bumpPostmortem, setVersionState]
      split
      · next hnone =>
        rw [Table.get_insert]
        split
        · next heq => rw [heq, hnone, returnedJob]
        · rfl
      · next job hjob =>
        rw [Table.get_modify]
        split
        · next heq => rw [heq, hjob, Option.map_some, returnedJob]
        · rfl

/-! ## Drafts -/

theorem openPostmortem_beside (h : s.openPostmortem fresh incidentId = .ok s') : s.Beside s' := by
  unfold openPostmortem at h
  split at h
  · obtain rfl := pure_eq_ok.1 h
    exact .refl s
  · simp only [refuse_bind_eq_ok, pure_eq_ok] at h
    obtain ⟨-, rfl⟩ := h
    exact ⟨rfl, id⟩

/-- Opening a postmortem adds a head without versions. -/
theorem openPostmortem_reviewable {i : UUID} {k : UUID × ℕ}
    (h : s.openPostmortem fresh incidentId = .ok s') (hk : s.ReviewableVersion i k) :
    s'.ReviewableVersion i k := by
  obtain ⟨head, row, hhead, hincident, hrow, hstate⟩ := hk
  unfold openPostmortem at h
  split at h
  · obtain rfl := pure_eq_ok.1 h
    exact ⟨head, row, hhead, hincident, hrow, hstate⟩
  · simp only [refuse_bind_eq_ok, pure_eq_ok, Option.not_isSome_iff_eq_none] at h
    obtain ⟨hnew, rfl⟩ := h
    exact ⟨head, row, Table.get_insert_of_get _ hnew hhead, hincident, hrow, hstate⟩

theorem regenerated_jobs (s : Store) (r : DraftRequest) (i : UUID) :
    (s.regenerated r).jobs.get i = s.jobs.get i ∨ i = r.incidentId ∧
      (s.regenerated r).jobs.get i =
        (s.jobs.get i).map fun job => { job with pendingRegenerationVersion := none } := by
  unfold regenerated
  split
  · dsimp only
    rw [Table.get_modify]
    split
    · next heq =>
      cases hjob : s.jobs.get i with
      | none => exact .inl rfl
      | some job =>
        simp only [Option.map_some]
        split
        · exact .inr ⟨heq, rfl⟩
        · exact .inl rfl
    · exact .inl rfl
  · exact .inl rfl

/-- What a new draft does: its job may stop waiting, and one that can be reviewed is a new version
in review. -/
theorem writeDraft_jobs {head : UUID × PostmortemRow} {r : DraftRequest}
    (hhead : s.postmortems.get head.1 = some head.2) (hincident : head.2.incidentId = r.incidentId)
    (h : s.writeDraft head.1 head.2 r = .ok s') :
    s'.jobs = (s.regenerated r).jobs ∧ s'.requests = s.requests ∧
      (r.reviewable = true → ∃ k, ¬ s.ReviewableVersion r.incidentId k ∧
        s'.ReviewableVersion r.incidentId k) := by
  obtain ⟨hpostmortems, hversions⟩ := s.regenerated_postmortems r
  have hrequests : (s.regenerated r).requests = s.requests := by
    unfold regenerated
    split <;> rfl
  obtain ⟨audited, haudit, h⟩ := bind_eq_ok.1 h
  obtain ⟨drafted, hdraft, h⟩ := bind_eq_ok.1 h
  obtain ⟨hnew, rfl⟩ := insertVersion_ok hdraft
  obtain rfl := auditRow_ok haudit
  split at h
  · obtain rfl := submit_ok h
    refine ⟨rfl, hrequests, fun _ => ⟨(head.1, head.2.latestVersion + 1), ?_, ?_⟩⟩
    · rintro ⟨-, row, -, -, hrow, -⟩
      rw [hversions] at hnew
      rw [hnew] at hrow
      cases hrow
    · refine ⟨{ head.2 with
          generation := r.expectedGeneration + 1 + 1, latestVersion := head.2.latestVersion + 1 },
        { r.row with state := .underReview, staleReason := none }, ?_, hincident, ?_, rfl⟩
      · simp only [bumpPostmortem, setVersionState, Table.get_modify_self, hpostmortems, hhead,
          Option.map_some]
      · simp only [bumpPostmortem, setVersionState, Table.get_modify_self, Table.get_insert_self,
          Option.map_some]
  · next hnot =>
    obtain rfl := pure_eq_ok.1 h
    exact ⟨rfl, hrequests, fun hreviewable => absurd hreviewable hnot⟩

/-- **What a draft makes of the jobs**: the job of its incident may stop waiting for a regeneration.
A draft that can be reviewed and was not recorded before is a new version in review. -/
theorem recordDraft_jobs {r : DraftRequest} (h : s.recordDraft fresh r = .ok (result, s')) :
    (∀ {key}, s'.Generated key → s.Generated key ∨ key = r.idempotencyKey) ∧
      (∀ i, s'.jobs.get i = s.jobs.get i ∨ i = r.incidentId ∧ s'.jobs.get i =
        (s.jobs.get i).map fun job => { job with pendingRegenerationVersion := none }) ∧
      (s.Generated r.idempotencyKey ∨ (r.reviewable = true →
        ∃ k, ¬ s.ReviewableVersion r.incidentId k ∧ s'.ReviewableVersion r.incidentId k)) := by
  obtain ⟨incident, opened, head, -, -, hopened, hhead, ⟨hreplay, rfl⟩ | ⟨-, -, written, hwritten,
    hrecord⟩⟩ := recordDraft_cases h
  · have hbeside := openPostmortem_beside hopened
    obtain ⟨row, hrow, hrequest, -⟩ := replay_some hreplay
    exact ⟨fun hkey => .inl (hbeside.generated hkey), fun i => .inl (by rw [hbeside.jobs]),
      .inl (hbeside.generated ⟨row, r, hrow, hrequest⟩)⟩
  · have hbeside := openPostmortem_beside hopened
    obtain ⟨hget, hincident⟩ := postmortemOf_eq_some hhead
    obtain ⟨hjobs, hrequests, hreviewable⟩ := writeDraft_jobs hget hincident hwritten
    obtain ⟨-, -, rfl⟩ := recordRequest_ok hrecord
    refine ⟨?_, fun i => ?_, .inr fun hr => ?_⟩
    · rintro key ⟨row, r', hrow, hr⟩
      obtain ⟨rfl, -⟩ | ⟨-, hold⟩ := Table.get_insert_eq_some.1 hrow
      · exact .inr rfl
      · rw [hrequests] at hold
        exact .inl (hbeside.generated ⟨row, r', hold, hr⟩)
    · dsimp only
      rw [hjobs, ← hbeside.jobs]
      exact opened.regenerated_jobs r i
    · obtain ⟨k, hbefore, hafter⟩ := hreviewable hr
      exact ⟨k, fun hk => hbefore (openPostmortem_reviewable hopened hk), hafter⟩

end Store

end OpsPilot.Knowledge
