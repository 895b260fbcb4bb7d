import OpsPilot.Knowledge.Jobs
import OpsPilot.System.Knowledge

/-!
# One reviewable version per watermark

The generation workers with the reviewers, the stale scan and the transactions that move the
incidents, one transaction after the other in any order. A worker goes on with its attempt whether
or not it still holds the lease, or never goes on.

The draft of a worker is fenced by the generation of the postmortem that its input read, not by the
candidate query of its claim, so a version that another worker wrote and a reviewer decided between
the claim and the read stops nothing.

* `Reviewed`: what holds of the versions and the incidents, `Fenced` of the inputs that were read.
* **`World.one_per_watermark`**: in the runs that read no input after such a decision, at most one
  version of a watermark that no return asked for ever enters review.
* `World.lateWriter_two_in_review`: a run with two.
-/

namespace OpsPilot.Knowledge

open Relation (ReflTransGen)

/-! ## Watermarks -/

/-- The parts of a watermark that can move. -/
def Watermark.parts (w : Watermark) : ℕ × ℕ × ℕ × Option UUID × ℕ × List EvidenceFacts :=
  (w.incidentControlGeneration, w.observationGeneration, w.runCount, w.lastRunId, w.inputWatermark,
    w.evidenceSnapshot)

namespace Incident

/-- The same parts of an incident, now. -/
def parts (incident : Incident) : ℕ × ℕ × ℕ × Option UUID × ℕ × List EvidenceFacts :=
  (incident.controlGeneration, incident.observationGeneration, incident.runs.length,
    incident.currentRunId, incident.inputWatermark, incident.evidence)

theorem matches_iff {incident : Incident} {w : Watermark} :
    incident.Matches w ↔ incident.parts = w.parts := by
  simp only [parts, Watermark.parts, Prod.mk.injEq]
  constructor
  · rintro ⟨hobservation, hcount, hlast, hcontrol, hinputs, hevidence⟩
    exact ⟨hcontrol, hobservation, hcount, hlast, hinputs, hevidence⟩
  · rintro ⟨hcontrol, hobservation, hcount, hlast, hinputs, hevidence⟩
    exact ⟨hobservation, hcount, hlast, hcontrol, hinputs, hevidence⟩

/-- What transactions make of an incident: its generations, Runs, inputs and committed evidence only
grow, and the current Run changes only with a new Run. -/
structure Advances (old new : Incident) : Prop where
  control : old.controlGeneration ≤ new.controlGeneration
  observation : old.observationGeneration ≤ new.observationGeneration
  runs : old.runs.length ≤ new.runs.length
  current : old.runs.length = new.runs.length → old.currentRunId = new.currentRunId
  inputs : old.inputWatermark ≤ new.inputWatermark
  evidence : old.evidence.Sublist new.evidence

theorem Advances.refl (incident : Incident) : incident.Advances incident :=
  ⟨le_rfl, le_rfl, le_rfl, fun _ => rfl, le_rfl, .refl _⟩

theorem Advances.trans {i j k : Incident} (hij : i.Advances j) (hjk : j.Advances k) :
    i.Advances k where
  control := hij.control.trans hjk.control
  observation := hij.observation.trans hjk.observation
  runs := hij.runs.trans hjk.runs
  current h := by
    have hi := hij.runs
    have hj := hjk.runs
    exact (hij.current (by omega)).trans (hjk.current (by omega))
  inputs := hij.inputs.trans hjk.inputs
  evidence := hij.evidence.trans hjk.evidence

/-- An incident between two that are alike is like them: a watermark never comes back. -/
theorem Advances.squeeze {i j k : Incident} (hij : i.Advances j) (hjk : j.Advances k)
    (h : i.parts = k.parts) : j.parts = k.parts := by
  simp only [parts, Prod.mk.injEq] at h ⊢
  obtain ⟨hcontrol, hobservation, hruns, hcurrent, hinputs, hevidence⟩ := h
  have hlength : j.runs.length = k.runs.length := by
    have hi := hij.runs
    have hj := hjk.runs
    omega
  refine ⟨?_, ?_, hlength, hjk.current hlength, ?_, ?_⟩
  · have hi := hij.control
    have hj := hjk.control
    omega
  · have hi := hij.observation
    have hj := hjk.observation
    omega
  · have hi := hij.inputs
    have hj := hjk.inputs
    omega
  · exact hjk.evidence.antisymm (hevidence ▸ hij.evidence)

/-- The incident was once as the watermark says. -/
def Past (incident : Incident) (w : Watermark) : Prop :=
  ∃ earlier : Incident, earlier.Matches w ∧ earlier.Advances incident

theorem Past.advance {i j : Incident} {w : Watermark} (h : i.Past w) (hij : i.Advances j) :
    j.Past w := by
  obtain ⟨earlier, hmatches, hadvances⟩ := h
  exact ⟨earlier, hmatches, hadvances.trans hij⟩

/-- An incident that has moved past a watermark never equals it again. -/
theorem Past.not_matches {i j : Incident} {w : Watermark} (h : i.Past w) (hij : i.Advances j)
    (hnot : ¬ i.Matches w) : ¬ j.Matches w := by
  obtain ⟨earlier, hmatches, hadvances⟩ := h
  intro hj
  rw [matches_iff] at hmatches hnot hj
  exact hnot ((hadvances.squeeze hij (hmatches.trans hj.symm)).trans hj)

end Incident

/-! ## Versions in review -/

/-- A decision ended the review of the version. -/
def VersionRow.Decided (row : VersionRow) : Prop :=
  row.state = .approved ∨ row.state = .rejected ∨ row.state = .returned

/-- The input a draft was written from. -/
def DraftRequest.input (r : DraftRequest) : GenerationInput where
  expectedGeneration := r.expectedGeneration
  watermark := r.watermark
  revisesVersion := r.revisesVersion

namespace Store

variable {G : Guard} {s s' : Store}

/-- The version was submitted for review. -/
def EnteredReview (s : Store) (id : UUID) (n : ℕ) : Prop :=
  ∃ audit ∈ s.audit, audit.objectKind = .postmortem ∧ audit.objectId = id ∧
    audit.action = .submit ∧ audit.version = some n


/-- No return asked for the version. -/
def Unasked (s : Store) (k : UUID × ℕ) (row : VersionRow) : Prop :=
  s.versions.get k = some row ∧ row.revisesVersion = none

/-- At most one version of a watermark that was not asked for entered review. -/
def OnePerWatermark (s : Store) : Prop :=
  ∀ {id n m row row'}, s.Unasked (id, n) row → s.Unasked (id, m) row' → s.EnteredReview id n →
    s.EnteredReview id m → row.watermark.parts = row'.watermark.parts → n = m

/-- What holds of versions and incidents in every state. -/
structure Reviewed (s : Store) : Prop where
  past : ∀ {k row}, s.versions.get k = some row → ∃ head incident,
    s.postmortems.get k.1 = some head ∧ s.incidents.get head.incidentId = some incident ∧
      incident.Past row.watermark
  stale : ∀ {k row}, s.versions.get k = some row → row.state = .stale → s.Behind k
  entered : ∀ {id n}, s.EnteredReview id n →
    ∃ row, s.versions.get (id, n) = some row ∧ row.state ≠ .draft
  single : s.OnePerWatermark

/-- Review changes a version, and marks it stale only behind its incident. -/
def reviewChange : Guard := fun s trigger k =>
  trigger ≠ none ∧ trigger ≠ some .submitForReview ∧ (trigger = some .markStale → s.Behind k)

theorem enteredReview_append {audit : AuditRow} {id : UUID} {n : ℕ}
    (hsubmit : audit.objectKind = .postmortem → audit.action ≠ .submit)
    (h : EnteredReview { s with audit := s.audit ++ [audit] } id n) : s.EnteredReview id n := by
  obtain ⟨row, hmem, hkind, hid, haction, hversion⟩ := h
  rw [List.mem_append, List.mem_singleton] at hmem
  obtain hmem | rfl := hmem
  · exact ⟨row, hmem, hkind, hid, haction, hversion⟩
  · exact absurd haction (hsubmit hkind)

theorem Write.behind (hwrite : Write G s s') {k : UUID × ℕ} (h : s.Behind k) : s'.Behind k := by
  obtain ⟨head, row, incident, hhead, hrow, hincident, hmoved⟩ := h
  obtain ⟨head', hhead', hsame⟩ := hwrite.keeps.postmortems hhead
  obtain ⟨row', hrow', hwatermark⟩ : ∃ row', s'.versions.get k = some row' ∧
      row'.watermark = row.watermark := by
    cases hwrite with
    | draft _ _ _ hnew _ _ => exact ⟨row, Table.get_insert_of_get _ hnew hrow, rfl⟩
    | advance =>
      obtain ⟨row', hrow', rfl | ⟨-, rfl⟩⟩ := exists_get_modify _ _ hrow
      · exact ⟨_, hrow', rfl⟩
      · exact ⟨_, hrow', rfl⟩
    | _ => exact ⟨row, hrow, rfl⟩
  refine ⟨head', row', incident, hhead', hrow', ?_, hwatermark ▸ hmoved⟩
  rw [Write.incidents hwrite, hsame, hincident]

/-- Tables a write of the reviewers leaves as they are. -/
theorem Reviewed.of_same (h : s.Reviewed) (hwrite : Write G s s')
    (hversions : s'.versions = s.versions)
    (hentered : ∀ {id n}, s'.EnteredReview id n → s.EnteredReview id n) : s'.Reviewed where
  past hrow := by
    rw [hversions] at hrow
    obtain ⟨head, incident, hhead, hincident, hpast⟩ := h.past hrow
    obtain ⟨head', hhead', hsame⟩ := hwrite.keeps.postmortems hhead
    exact ⟨head', incident, hhead', by rw [Write.incidents hwrite, hsame, hincident], hpast⟩
  stale hrow hstate := Write.behind hwrite (h.stale (hversions ▸ hrow) hstate)
  entered hreview := by
    rw [hversions]
    exact h.entered (hentered hreview)
  single {id n m row row'} hrow hrow' hn hm := by
    rw [Unasked, hversions] at hrow hrow'
    exact h.single hrow hrow' (hentered hn) (hentered hm)

/-- A change of the state of one version, which may enter review with it. -/
theorem Reviewed.advance (h : s.Reviewed) (hwrite : Write G s s') {id : UUID} {n : ℕ}
    {old : VersionRow} {f : VersionRow → VersionRow}
    (hversions : s'.versions = s.versions.modify (id, n) f)
    (hold : s.versions.get (id, n) = some old) (hwatermark : (f old).watermark = old.watermark)
    (hrevises : (f old).revisesVersion = old.revisesVersion) (hdraft : (f old).state ≠ .draft)
    (hstale : (f old).state = .stale → s.Behind (id, n))
    (hentered : ∀ id' m, s'.EnteredReview id' m → s.EnteredReview id' m ∨ id' = id ∧ m = n)
    (hfirst : ¬ s.EnteredReview id n → s'.EnteredReview id n → old.revisesVersion = none →
      ∀ {m row}, s.Unasked (id, m) row → s.EnteredReview id m →
        row.watermark.parts ≠ old.watermark.parts) : s'.Reviewed := by
  have hback : ∀ {k row'}, s'.versions.get k = some row' → ∃ row, s.versions.get k = some row ∧
      row.watermark = row'.watermark ∧ row.revisesVersion = row'.revisesVersion ∧
      (row' = row ∨ k = (id, n) ∧ row' = f old) := by
    intro k row' hrow'
    rw [hversions] at hrow'
    obtain ⟨rfl, rfl⟩ | ⟨-, hrow⟩ := (Table.get_modify_eq_some hold).1 hrow'
    · exact ⟨old, hold, hwatermark.symm, hrevises.symm, .inr ⟨rfl, rfl⟩⟩
    · exact ⟨row', hrow, rfl, rfl, .inl rfl⟩
  have hunasked : ∀ {k row'}, s'.Unasked k row' →
      ∃ row, s.Unasked k row ∧ row.watermark = row'.watermark := by
    rintro k row' ⟨hget, hnone⟩
    obtain ⟨row, hrow, hmark, hsame, -⟩ := hback hget
    exact ⟨row, ⟨hrow, hsame.trans hnone⟩, hmark⟩
  refine ⟨fun {k row'} hrow' => ?_, fun {k row'} hrow' hstate => ?_, fun {id' m} hreview => ?_,
    fun {id' m m' row₁ row₂} h₁ h₂ hm hm' hparts => ?_⟩
  · obtain ⟨row, hrow, hmark, -⟩ := hback hrow'
    obtain ⟨head, incident, hhead, hincident, hpast⟩ := h.past hrow
    obtain ⟨head', hhead', hsame⟩ := hwrite.keeps.postmortems hhead
    exact ⟨head', incident, hhead', by rw [Write.incidents hwrite, hsame, hincident], hmark ▸ hpast⟩
  · obtain ⟨row, hrow, -, -, rfl | ⟨rfl, rfl⟩⟩ := hback hrow'
    · exact Write.behind hwrite (h.stale hrow hstate)
    · exact Write.behind hwrite (hstale hstate)
  · have hself : ∃ row, s'.versions.get (id, n) = some row ∧ row.state ≠ .draft :=
      ⟨f old, by rw [hversions, get_modify_of_get _ hold], hdraft⟩
    obtain hbefore | ⟨rfl, rfl⟩ := hentered _ _ hreview
    · obtain ⟨row, hrow, hnot⟩ := h.entered hbefore
      rw [hversions]
      obtain ⟨row', hrow', rfl | ⟨hk, -⟩⟩ := exists_get_modify (id, n) f hrow
      · exact ⟨_, hrow', hnot⟩
      · rwa [← hversions, hk]
    · exact hself
  · obtain ⟨old₁, hold₁, hmark₁⟩ := hunasked h₁
    obtain ⟨old₂, hold₂, hmark₂⟩ := hunasked h₂
    rw [← hmark₁, ← hmark₂] at hparts
    by_cases hnew : s.EnteredReview id n
    · have hbefore : ∀ {m}, s'.EnteredReview id' m → s.EnteredReview id' m := by
        intro m hreview
        obtain hreview | ⟨rfl, rfl⟩ := hentered _ _ hreview
        · exact hreview
        · exact hnew
      exact h.single hold₁ hold₂ (hbefore hm) (hbefore hm') hparts
    · obtain hm₁ | ⟨rfl, rfl⟩ := hentered _ _ hm <;> obtain hm₂ | ⟨hid, rfl⟩ := hentered _ _ hm'
      · exact h.single hold₁ hold₂ hm₁ hm₂ hparts
      · subst hid
        obtain rfl := Option.some.inj (hold₂.1.symm.trans hold)
        exact absurd hparts (hfirst hnew hm' hold₂.2 hold₁ hm₁)
      · obtain rfl := Option.some.inj (hold₁.1.symm.trans hold)
        exact absurd hparts.symm (hfirst hnew hm hold₁.2 hold₂ hm₂)
      · rfl

theorem fire_not_draft {a b : PostmortemState} {trigger : PostmortemTrigger}
    (h : postmortem.fire a trigger = some b) : b ≠ .draft := by
  rintro rfl
  revert h
  cases a <;> cases trigger <;> decide

theorem fire_stale {a : PostmortemState} {trigger : PostmortemTrigger}
    (h : postmortem.fire a trigger = some .stale) : trigger = .markStale := by
  revert h
  cases a <;> cases trigger <;> decide

/-- What the reviewers write keeps what holds. -/
theorem Write.reviewed (hwrite : Write reviewChange s s') (h : s.Reviewed) : s'.Reviewed := by
  cases hw : hwrite with
  | jobs jobs => exact h.of_same hwrite rfl fun hreview => hreview
  | request row hnew => exact h.of_same hwrite rfl fun hreview => hreview
  | start hnew hfirst => exact h.of_same hwrite rfl fun hreview => hreview
  | draft row hhead hgeneration hnew haudit hguard => exact absurd rfl hguard.1
  | @advance id version generation head row audit trigger state staleReason hhead hgeneration hrow
      hfire haudit hguard hsubmit =>
    have hnot : audit.objectKind = .postmortem → audit.action ≠ .submit :=
      fun _ heq => hguard.2.1 (congrArg some (hsubmit heq))
    have hstale : state = .stale → s.Behind (id, version) := by
      rintro rfl
      exact hguard.2.2 (congrArg some (fire_stale hfire))
    refine h.advance (f := fun row => { row with state := state, staleReason := staleReason })
      hwrite rfl hrow rfl rfl (fire_not_draft hfire) hstale (fun id' m hreview => .inl ?_)
      fun hbefore hreview => ?_
    · exact enteredReview_append hnot hreview
    · exact absurd (enteredReview_append hnot hreview) hbefore
  | enter hnew => exact h.of_same hwrite rfl fun hreview => hreview
  | publish hentry hnew hsupersedes hpublished haudit =>
    have hkind := haudit.kind_eq
    refine h.of_same hwrite rfl fun hreview => enteredReview_append (fun heq => ?_) hreview
    rw [hkind] at heq
    cases heq
  | revoke row hentry hgeneration hactive hnew haudit =>
    have hkind := haudit.kind_eq
    refine h.of_same hwrite rfl fun hreview => enteredReview_append (fun heq => ?_) hreview
    rw [hkind] at heq
    cases heq

theorem Writes.reviewed (hwrites : Writes reviewChange s s') (h : s.Reviewed) : s'.Reviewed :=
  hwrites.stable (P := Reviewed) Write.reviewed h

/-! ## Drafts -/

/-- Where a worker may write a draft that was not asked for: if the postmortem is as its input read
it, no other version of the watermark was decided. -/
def Open (s : Store) (incidentId : UUID) (input : GenerationInput) : Prop :=
  input.revisesVersion = none → ∀ {id head n row}, s.postmortems.get id = some head →
    head.incidentId = incidentId → head.generation = input.expectedGeneration →
    s.Unasked (id, n) row → row.Decided → row.watermark.parts ≠ input.watermark.parts

/-- A draft is the next version, which no review has seen. -/
theorem Reviewed.draft (h : s.Reviewed) {id : UUID} {head : PostmortemRow} {incident : Incident}
    {generation : ℕ} {audit : AuditRow} {row : VersionRow}
    (hhead : s.postmortems.get id = some head)
    (hincident : s.incidents.get head.incidentId = some incident)
    (hmatches : incident.Matches row.watermark) (hstate : row.state = .draft)
    (hnew : s.versions.get (id, head.latestVersion + 1) = none) (haction : audit.action ≠ .submit)
    (hwrite : Write G s { s with
      audit := s.audit ++ [audit]
      postmortems := s.postmortems.modify id fun row =>
        { row with generation := generation + 1, latestVersion := head.latestVersion + 1 }
      versions := s.versions.insert (id, head.latestVersion + 1) row }) :
    Reviewed { s with
      audit := s.audit ++ [audit]
      postmortems := s.postmortems.modify id fun row =>
        { row with generation := generation + 1, latestVersion := head.latestVersion + 1 }
      versions := s.versions.insert (id, head.latestVersion + 1) row } := by
  have hentered : ∀ {id' m}, EnteredReview { s with
      audit := s.audit ++ [audit]
      postmortems := s.postmortems.modify id fun row =>
        { row with generation := generation + 1, latestVersion := head.latestVersion + 1 }
      versions := s.versions.insert (id, head.latestVersion + 1) row } id' m →
        s.EnteredReview id' m :=
    fun hreview => enteredReview_append (fun _ => haction) hreview
  refine ⟨fun {k row'} hrow' => ?_, fun {k row'} hrow' hstale => ?_, fun {id' m} hreview => ?_,
    fun {id' m m' row₁ row₂} h₁ h₂ hm hm' hparts => ?_⟩
  · obtain ⟨rfl, rfl⟩ | ⟨-, hold⟩ := Table.get_insert_eq_some.1 hrow'
    · exact ⟨_, incident, get_modify_of_get _ hhead, hincident, incident, hmatches, .refl _⟩
    · obtain ⟨head', incident', hhead', hincident', hpast⟩ := h.past hold
      obtain ⟨head₂, hhead₂, hsame⟩ := hwrite.keeps.postmortems hhead'
      exact ⟨head₂, incident', hhead₂, by rw [hsame]; exact hincident', hpast⟩
  · obtain ⟨rfl, rfl⟩ | ⟨-, hold⟩ := Table.get_insert_eq_some.1 hrow'
    · rw [hstate] at hstale
      cases hstale
    · exact Write.behind hwrite (h.stale hold hstale)
  · obtain ⟨row', hrow', hnot⟩ := h.entered (hentered hreview)
    exact ⟨row', Table.get_insert_of_get _ hnew hrow', hnot⟩
  · obtain ⟨old₁, hold₁, -⟩ := h.entered (hentered hm)
    obtain ⟨old₂, hold₂, -⟩ := h.entered (hentered hm')
    obtain rfl := Option.some.inj (h₁.1.symm.trans (Table.get_insert_of_get row hnew hold₁))
    obtain rfl := Option.some.inj (h₂.1.symm.trans (Table.get_insert_of_get row hnew hold₂))
    exact h.single ⟨hold₁, h₁.2⟩ ⟨hold₂, h₂.2⟩ (hentered hm) (hentered hm') hparts

theorem Writes.incidents (h : Writes G s s') : s'.incidents = s.incidents :=
  h.stable (P := fun u => u.incidents = s.incidents)
    (fun hwrite hu => (Write.incidents hwrite).trans hu) rfl

/-- A postmortem that was not there has no versions. -/
theorem Sound.no_versions (h : s.Sound) {id : UUID} (hnone : s.postmortems.get id = none) (n : ℕ) :
    s.versions.get (id, n) = none := by
  cases hrow : s.versions.get (id, n) with
  | none => rfl
  | some row =>
    obtain ⟨m, hlatest, -⟩ := (h.versions id n).1 ⟨row, hrow⟩
    simp [latestVersion, hnone] at hlatest

theorem Open.opened {incidentId fresh : UUID} {input : GenerationInput}
    (h : s.Open incidentId input) (hs : s.Sound)
    (hopened : s.openPostmortem fresh incidentId = .ok s') : s'.Open incidentId input := by
  unfold openPostmortem at hopened
  split at hopened
  · rw [pure_eq_ok] at hopened
    exact hopened ▸ h
  · simp only [refuse_bind_eq_ok, pure_eq_ok, Option.not_isSome_iff_eq_none] at hopened
    obtain ⟨hnew, rfl⟩ := hopened
    intro hnone id head n row hhead hincident hgeneration hrow
    obtain ⟨rfl, rfl⟩ | ⟨-, hold⟩ := Table.get_insert_eq_some.1 hhead
    · have hempty := hs.no_versions hnew n
      rw [hrow.1] at hempty
      cases hempty
    · exact h hnone hold hincident hgeneration hrow

/-- Where a draft is written, no version of its watermark that was not asked for is in review, or
was reviewed. -/
theorem Open.not_parts {r : DraftRequest} {incident : Incident} {id : UUID} {head : PostmortemRow}
    (h : s.Open r.incidentId r.input) (hs : s.Reviewed) (hhead : s.postmortems.get id = some head)
    (hid : head.incidentId = r.incidentId)
    (hincident : s.incidents.get r.incidentId = some incident)
    (hchecks : s.draftChecks incident id head r = .ok ()) (hnone : r.revisesVersion = none) {m : ℕ}
    {row : VersionRow} (hrow : s.Unasked (id, m) row) (hreview : s.EnteredReview id m) :
    row.watermark.parts ≠ r.watermark.parts := by
  obtain ⟨hgeneration, -, hmatches, hnotOpen, -⟩ := draftChecks_ok hchecks
  obtain ⟨row', hrow', hnotDraft⟩ := hs.entered hreview
  obtain rfl := Option.some.inj (hrow.1.symm.trans hrow')
  cases hstate : row.state with
  | draft => exact absurd hstate hnotDraft
  | underReview => exact absurd hstate (hnotOpen m row hrow.1)
  | stale =>
    obtain ⟨head', row', incident', hhead', hrow', hincident', hmoved⟩ := hs.stale hrow.1 hstate
    obtain rfl := Option.some.inj (hhead.symm.trans hhead')
    obtain rfl := Option.some.inj (hrow.1.symm.trans hrow')
    rw [hid, hincident, Option.some.injEq] at hincident'
    subst hincident'
    intro hparts
    rw [Incident.matches_iff] at hmoved hmatches
    exact hmoved (hmatches.trans hparts.symm)
  | approved => exact h hnone hhead hid hgeneration hrow (.inl hstate)
  | rejected => exact h hnone hhead hid hgeneration hrow (.inr (.inl hstate))
  | returned => exact h hnone hhead hid hgeneration hrow (.inr (.inr hstate))

theorem regenerated_eq (s : Store) (r : DraftRequest) :
    ∃ jobs, s.regenerated r = { s with jobs := jobs } := by
  unfold regenerated
  split
  · exact ⟨_, rfl⟩
  · exact ⟨s.jobs, rfl⟩

/-- A draft is written, and enters review as the first of its watermark. -/
theorem writeDraft_reviewed {id : UUID} {head : PostmortemRow} {incident : Incident}
    {r : DraftRequest} (h : s.Reviewed) (hhead : s.postmortems.get id = some head)
    (hgeneration : head.generation = r.expectedGeneration)
    (hincident : s.incidents.get head.incidentId = some incident)
    (hmatches : incident.Matches r.watermark)
    (hfree : r.revisesVersion = none → ∀ {m row}, s.Unasked (id, m) row → s.EnteredReview id m →
      row.watermark.parts ≠ r.watermark.parts)
    (hok : s.writeDraft id head r = .ok s') : s'.Reviewed := by
  obtain ⟨jobs, hjobs⟩ := s.regenerated_eq r
  have hquiet : Write reviewChange s { s with jobs := jobs } := .jobs jobs
  obtain ⟨audited, haudit, hok⟩ := bind_eq_ok.1 hok
  obtain ⟨drafted, hdraft, hok⟩ := bind_eq_ok.1 hok
  obtain ⟨hnew, rfl⟩ := insertVersion_ok hdraft
  rw [hjobs] at haudit
  obtain rfl := auditRow_ok haudit
  have hof : (r.audit .generate id (head.latestVersion + 1) r.expectedGeneration).Of .postmortem id
      r.expectedGeneration := ⟨rfl, rfl, rfl⟩
  have hdraftWrite := Write.draft (G := anyChange) (s := { s with jobs := jobs }) r.row hhead
    hgeneration hnew hof trivial
  have hdrafted := (Write.reviewed hquiet h).draft hhead hincident hmatches rfl hnew
    (by simp [DraftRequest.audit]) hdraftWrite
  split at hok
  · obtain rfl := submit_ok hok
    have hrow : (s.versions.insert (id, head.latestVersion + 1) r.row).get
        (id, head.latestVersion + 1) = some r.row := Table.get_insert_self ..
    have hhead' := get_modify_of_get (fun row : PostmortemRow =>
      { row with generation := r.expectedGeneration + 1, latestVersion := head.latestVersion + 1 })
      hhead
    have hfire : postmortem.fire r.row.state .submitForReview = some .underReview := rfl
    have hof' : (r.audit .submit id (head.latestVersion + 1) (r.expectedGeneration + 1)).Of
      .postmortem id (r.expectedGeneration + 1) := ⟨rfl, rfl, rfl⟩
    refine hdrafted.advance (G := anyChange)
      (f := fun row => { row with state := .underReview, staleReason := none })
      (advance_write none hhead' rfl hrow hfire hof' trivial fun _ => rfl) rfl hrow rfl rfl
      (by simp) (by simp) (fun id' m hreview => ?_) fun _ _ hnone m row hunasked hreview => ?_
    · obtain ⟨row, hmem, hkind, hid, haction, hversion⟩ := hreview
      obtain hmem | hlast := List.mem_append.1 hmem
      · exact .inl ⟨row, hmem, hkind, hid, haction, hversion⟩
      · obtain rfl := List.mem_singleton.1 hlast
        exact .inr ⟨hid.symm, (Option.some.inj hversion).symm⟩
    · have hbefore : s.EnteredReview id m :=
        enteredReview_append (fun _ => by simp [DraftRequest.audit]) hreview
      obtain ⟨old, hold, -⟩ := h.entered hbefore
      obtain rfl := Option.some.inj
        (hunasked.1.symm.trans (Table.get_insert_of_get r.row hnew hold))
      exact hfree hnone ⟨hold, hunasked.2⟩ hbefore
  · rw [pure_eq_ok] at hok
    exact hok ▸ hdrafted

/-- **A draft that is written where it may be keeps one version per watermark.** -/
theorem recordDraft_reviewed {fresh : UUID} {r : DraftRequest} {result : ActionResult}
    (hs : s.Sound) (h : s.Reviewed) (hopen : s.Open r.incidentId r.input)
    (hok : s.recordDraft fresh r = .ok (result, s')) : s'.Reviewed := by
  obtain ⟨incident, opened, head, -, hincident, hopened, hhead, hcases⟩ := recordDraft_cases hok
  have hwrites : Writes reviewChange s opened := openPostmortem_writes hopened
  have hreviewed := Writes.reviewed hwrites h
  obtain ⟨-, rfl⟩ | ⟨-, hchecks, written, hwritten, hrecord⟩ := hcases
  · exact hreviewed
  have hincident' : opened.incidents.get r.incidentId = some incident := by
    rw [Writes.incidents hwrites, hincident]
  obtain ⟨hget, hid⟩ := postmortemOf_eq_some hhead
  obtain ⟨hgeneration, -, hmatches, -⟩ := draftChecks_ok hchecks
  have hwritten := writeDraft_reviewed hreviewed hget hgeneration (hid ▸ hincident') hmatches
    (fun hnone => (hopen.opened hs hopened).not_parts hreviewed hget hid hincident' hchecks hnone)
    hwritten
  exact Writes.reviewed (recordRequest_writes hrecord) hwritten

/-! ## Inputs that were read -/

/-- What an input says of the postmortem since it was read: its generation is that of the input, and
it is as it was, or higher. -/
structure Fenced (s : Store) (incidentId : UUID) (input : GenerationInput) : Prop where
  later : ∀ {id head}, s.postmortems.get id = some head → head.incidentId = incidentId →
    input.expectedGeneration ≤ head.generation
  first : s.postmortemOf incidentId = none → input.expectedGeneration = 0
  unmoved : s.Open incidentId input

/-- A postmortem that was written to is past the inputs read before. -/
theorem Fenced.bump {incidentId : UUID} {input : GenerationInput}
    (h : s.Fenced incidentId input) (hwrite : Write G s s') {id : UUID}
    {head head' : PostmortemRow} (hhead : s.postmortems.get id = some head)
    (hhead' : s'.postmortems.get id = some head') (hid : head'.incidentId = head.incidentId)
    (hlt : head.generation < head'.generation)
    (hother : ∀ {id'}, id' ≠ id → s'.postmortems.get id' = s.postmortems.get id')
    (hversions : ∀ {id' n}, id' ≠ id → s'.versions.get (id', n) = s.versions.get (id', n)) :
    s'.Fenced incidentId input where
  later {id' row} hrow hincident := by
    obtain rfl | hne := eq_or_ne id' id
    · obtain rfl := Option.some.inj (hhead'.symm.trans hrow)
      exact (h.later hhead (hid.symm.trans hincident)).trans hlt.le
    · exact h.later (by rw [← hother hne, hrow]) hincident
  first hnone := by
    refine h.first (postmortemOf_eq_none.2 fun id' row hrow hincident => ?_)
    obtain ⟨row', hrow', hsame⟩ := hwrite.keeps.postmortems hrow
    exact postmortemOf_eq_none.1 hnone id' row' hrow' (hsame.trans hincident)
  unmoved hnone {id' row n version} hrow hincident hgeneration hunasked := by
    obtain rfl | hne := eq_or_ne id' id
    · obtain rfl := Option.some.inj (hhead'.symm.trans hrow)
      have hle := h.later hhead (hid.symm.trans hincident)
      omega
    · rw [Unasked, hversions hne] at hunasked
      exact h.unmoved hnone (by rw [← hother hne, hrow]) hincident hgeneration hunasked

theorem Write.fenced {incidentId : UUID} {input : GenerationInput} (hwrite : Write G s s')
    (hs : s.Sound) (h : s.Fenced incidentId input) : s'.Fenced incidentId input := by
  cases hw : hwrite with
  | @start id incidentId' hnew hfirst =>
    refine ⟨fun {id' row} hrow hincident => ?_, fun hnone => h.first ?_,
      fun hnone {id' row n version} hrow hincident hgeneration hunasked => ?_⟩
    · obtain ⟨rfl, rfl⟩ | ⟨-, hold⟩ := Table.get_insert_eq_some.1 hrow
      · exact (h.first (hincident ▸ hfirst)).le
      · exact h.later hold hincident
    · refine postmortemOf_eq_none.2 fun id' row hrow => ?_
      exact postmortemOf_eq_none.1 hnone id' row (Table.get_insert_of_get _ hnew hrow)
    · obtain ⟨rfl, rfl⟩ | ⟨-, hold⟩ := Table.get_insert_eq_some.1 hrow
      · have hempty := hs.no_versions hnew n
        rw [hunasked.1] at hempty
        cases hempty
      · exact h.unmoved hnone hold hincident hgeneration hunasked
  | @draft id head generation audit row hhead hgeneration hnew haudit hguard =>
    refine h.bump hwrite hhead (get_modify_of_get _ hhead) rfl ?_ (Table.get_modify_ne _ _)
      fun {id' n} hne => ?_
    · exact hgeneration ▸ Nat.lt_succ_self _
    · exact Table.get_insert_ne _ _ fun heq => hne (Prod.mk.inj heq).1
  | @advance id version generation head row audit trigger state staleReason hhead hgeneration hrow
      hfire haudit hguard hsubmit =>
    refine h.bump hwrite hhead (get_modify_of_get _ hhead) rfl ?_ (Table.get_modify_ne _ _)
      fun {id' n} hne => ?_
    · exact hgeneration ▸ Nat.lt_succ_self _
    · exact Table.get_modify_ne _ _ fun heq => hne (Prod.mk.inj heq).1
  | _ => exact ⟨h.later, h.first, h.unmoved⟩

theorem Writes.sound_fenced {incidentId : UUID} {input : GenerationInput} (hwrites : Writes G s s')
    (hs : s.Sound) (h : s.Fenced incidentId input) : s'.Sound ∧ s'.Fenced incidentId input :=
  hwrites.stable (P := fun u => u.Sound ∧ u.Fenced incidentId input)
    (fun hwrite hu => ⟨Write.sound hwrite hu.1, Write.fenced hwrite hu.1 hu.2⟩) ⟨hs, h⟩

end Store

/-! ## The system -/

/-- A transaction of a worker, a reviewer, the stale scan or a business operation. -/
inductive Event
  | claim (incidentId attemptId owner : UUID) (policy : String) (maxModelRequests leaseSeconds : ℕ)
  | read (attemptId : UUID)
  | reserve (attemptId : UUID)
  | fail (attemptId : UUID) (errorCode : AttemptError)
  | writeDraft (attemptId fresh : UUID) (draft : Assembled)
  | finish (attemptId : UUID)
  | review (ids : String → UUID) (r : TransitionRequest)
  | revoke (r : RevokeRequest)
  | markStaleIn (keys : ℕ → String) (incidentId : UUID) (reason : StaleReason) (source : String)
  | scanStale (postmortemId : UUID) (version : ℕ)
  | compensate (row : ScannedRow) (owner : UUID)
  | incident (id : UUID) (facts : Incident)
  | tick (elapsed : ℕ)

namespace World

/-- An operation of the store, rolled back when it is refused. -/
def transact (w : World) {α : Type} (f : Store → Except KnowledgeError (α × Store)) : World :=
  match f w.store with
  | .ok done => { w with store := done.2 }
  | .error _ => w

/-- The world after an event. Reviewers are authenticated persons. -/
def after (w : World) : Event → World
  | .claim incidentId attemptId owner policy maxModelRequests leaseSeconds =>
    w.claim incidentId attemptId owner policy maxModelRequests leaseSeconds
  | .read attemptId => w.read attemptId
  | .reserve attemptId => w.reserve attemptId
  | .fail attemptId errorCode => w.fail attemptId errorCode
  | .writeDraft attemptId fresh draft => w.writeDraft attemptId fresh draft
  | .finish attemptId => w.finish attemptId
  | .review ids r =>
    if r.actor.principalKind = .basicAuth then w.transact (·.transition ids r) else w
  | .revoke r => w.transact (·.revoke r)
  | .markStaleIn keys incidentId reason source =>
    w.transact (·.markStaleIn keys incidentId reason source)
  | .scanStale postmortemId version => w.scanStale postmortemId version
  | .compensate row owner => w.compensate row owner
  | .incident id facts =>
    { w with store := { w.store with incidents := w.store.incidents.insert id facts } }
  | .tick elapsed => { w with clock := w.clock + elapsed }

/-- Nothing was drafted yet, and no worker is at work. -/
structure Fresh (w : World) : Prop where
  store : w.store.Fresh
  attempts : w.attempts = ∅
  workers : w.workers = ∅
  scanned : w.scanned = []

/-- The runs of the workers, the reviewers and the incidents; an incident only advances. -/
def system : LTS World Event where
  Init := Fresh
  Step w event w' := w.after event = w' ∧ ∀ id facts, event = .incident id facts →
    ∀ old, w.store.incidents.get id = some old → old.Advances facts

/-- A version that no return asked for was decided on the incident as it is, and no return waits. -/
def Settled (w : World) (incidentId : UUID) : Prop :=
  (w.store.jobOf incidentId).pendingRegenerationVersion = none ∧
    ∃ incident row, w.store.incidents.get incidentId = some incident ∧
      row ∈ w.store.versionsOf incidentId ∧ row.revisesVersion = none ∧ row.Decided ∧
      incident.Matches row.watermark

/-- A worker reads its input only where it is still to be generated. -/
def ReadsUnsettled (w : World) (event : Event) : Prop :=
  ∀ attemptId claim, event = .read attemptId → w.workers.get attemptId = some ⟨claim, .claimed⟩ →
    ¬ w.Settled claim.incidentId

/-- **What holds in every state.** -/
structure Guarded (w : World) : Prop where
  sound : w.store.Sound
  reviewed : w.store.Reviewed
  scanned : ∀ row ∈ w.scanned, w.store.Behind (row.postmortemId, row.version)
  reads : ∀ {attemptId claim input used},
    w.workers.get attemptId = some ⟨claim, .generating input used⟩ →
    w.store.Fenced claim.incidentId input

variable {w w' : World}

/-- Steps that touch the jobs, the attempts, the clock and the phases of workers, but no input. -/
structure Quiet (w w' : World) : Prop where
  jobs : ∃ jobs, w'.store = { w.store with jobs := jobs }
  scanned : w'.scanned = w.scanned
  workers : ∀ {attemptId claim input used},
    w'.workers.get attemptId = some ⟨claim, .generating input used⟩ →
    ∃ used', w.workers.get attemptId = some ⟨claim, .generating input used'⟩

namespace Quiet

theorem refl (w : World) : w.Quiet w := ⟨⟨w.store.jobs, rfl⟩, rfl, fun h => ⟨_, h⟩⟩

theorem trans {u v w : World} (huv : u.Quiet v) (hvw : v.Quiet w) : u.Quiet w where
  jobs := by
    obtain ⟨jobs, hjobs⟩ := huv.jobs
    obtain ⟨jobs', hjobs'⟩ := hvw.jobs
    exact ⟨jobs', by rw [hjobs', hjobs]⟩
  scanned := hvw.scanned.trans huv.scanned
  workers h := by
    obtain ⟨used, hused⟩ := hvw.workers h
    exact huv.workers hused

theorem guarded (h : w.Quiet w') (hw : w.Guarded) : w'.Guarded := by
  obtain ⟨jobs, hjobs⟩ := h.jobs
  have hwrite : Write Store.reviewChange w.store w'.store := hjobs ▸ .jobs jobs
  refine ⟨Store.Write.sound hwrite hw.sound, Store.Write.reviewed hwrite hw.reviewed,
    fun row hrow => ?_, fun hworker => ?_⟩
  · rw [h.scanned] at hrow
    exact Store.Write.behind hwrite (hw.scanned row hrow)
  · obtain ⟨used', hused'⟩ := h.workers hworker
    exact Store.Write.fenced hwrite hw.sound (hw.reads hused')

end Quiet

/-! ## The steps of an attempt -/

theorem setJob_quiet (w : World) (incidentId : UUID) (f : JobRow → JobRow) :
    w.Quiet (w.setJob incidentId f) :=
  ⟨⟨_, rfl⟩, rfl, fun h => ⟨_, h⟩⟩

theorem openJob_quiet (w : World) (incidentId : UUID) : w.Quiet (w.openJob incidentId) := by
  unfold openJob
  split
  · exact .refl w
  · exact ⟨⟨_, rfl⟩, rfl, fun h => ⟨_, h⟩⟩

theorem abandon_quiet (w : World) (incidentId : UUID) (rows : List (UUID × AttemptRow)) :
    w.Quiet (w.abandon incidentId rows) := by
  induction rows generalizing w with
  | nil => exact .refl w
  | cons e rest ih =>
    rw [abandon]
    refine Quiet.trans ?_ (ih _)
    exact ⟨⟨_, rfl⟩, rfl, fun h => ⟨_, h⟩⟩

theorem reopenCap_quiet (w : World) (incidentId : UUID) : w.Quiet (w.reopenCap incidentId) := by
  unfold reopenCap
  dsimp only
  split
  · exact setJob_quiet w incidentId _
  · exact .refl w

/-- A worker that begins has read nothing yet. -/
theorem takeLease_quiet (w : World) (incidentId : UUID) (watermark : Watermark)
    (attemptId owner : UUID) (policy : String) (maxModelRequests leaseSeconds : ℕ) :
    w.Quiet
      (w.takeLease incidentId watermark attemptId owner policy maxModelRequests leaseSeconds) := by
  refine ⟨⟨_, rfl⟩, rfl, fun {attemptId' claim input used} h => ?_⟩
  obtain ⟨-, heq⟩ | ⟨-, hold⟩ := Table.get_insert_eq_some.1 h
  · cases heq
  · exact ⟨used, hold⟩

theorem claim_quiet (w : World) (incidentId attemptId owner : UUID) (policy : String)
    (maxModelRequests leaseSeconds : ℕ) :
    w.Quiet (w.claim incidentId attemptId owner policy maxModelRequests leaseSeconds) := by
  unfold claim
  split
  · exact .refl w
  · have hopened := openJob_quiet w incidentId
    dsimp only
    split
    · exact hopened
    · have hclosed := hopened.trans (abandon_quiet (w.openJob incidentId) incidentId
        ((w.openJob incidentId).running incidentId))
      split
      · exact hclosed.trans (setJob_quiet _ _ _)
      · split
        · exact (hclosed.trans (reopenCap_quiet _ _)).trans (takeLease_quiet _ _ _ _ _ _ _ _)
        · exact hclosed.trans (setJob_quiet _ _ _)

/-- A worker that goes on keeps its input, or has none any more. -/
theorem setPhase_quiet {attemptId : UUID} {worker : Worker} {phase : Phase}
    (hworker : w.workers.get attemptId = some worker)
    (hphase : ∀ input used, phase = .generating input used →
      ∃ used', worker.phase = .generating input used') : w.Quiet (w.setPhase attemptId phase) := by
  refine ⟨⟨w.store.jobs, rfl⟩, rfl, fun {attemptId' claim input used} h => ?_⟩
  obtain ⟨rfl, heq⟩ | ⟨-, hold⟩ := (Table.get_modify_eq_some hworker).1 h
  · obtain ⟨rfl, rfl⟩ : worker.claim = claim ∧ phase = .generating input used := by
      simpa [eq_comm] using heq
    obtain ⟨used', hused⟩ := hphase input used rfl
    exact ⟨used', by rw [hworker, ← hused]⟩
  · exact ⟨used, hold⟩

theorem refused_ne {watermark : Option Watermark} {error : KnowledgeError} {input : GenerationInput}
    {used : ℕ} : refused watermark error ≠ .generating input used := by
  unfold refused
  split <;> simp

theorem reserve_quiet (w : World) (attemptId : UUID) : w.Quiet (w.reserve attemptId) := by
  unfold reserve
  split
  · next claim input used hworker =>
    split
    · split
      · next reserved hreserved =>
        have hquiet : w.Quiet reserved ∧ reserved.workers = w.workers := by
          unfold reserveModelRequest at hreserved
          split at hreserved
          · cases hreserved
          · split at hreserved
            · obtain rfl := Option.some.inj hreserved
              exact ⟨⟨⟨w.store.jobs, rfl⟩, rfl, fun h => ⟨_, h⟩⟩, rfl⟩
            · cases hreserved
        refine hquiet.1.trans (setPhase_quiet (hquiet.2 ▸ hworker) fun input' used' heq => ?_)
        cases heq
        exact ⟨used, rfl⟩
      · exact setPhase_quiet hworker fun _ _ heq => by cases heq
    · exact .refl w
  · exact .refl w

theorem fail_quiet (w : World) (attemptId : UUID) (errorCode : AttemptError) :
    w.Quiet (w.fail attemptId errorCode) := by
  unfold fail
  split
  · next hworker => exact setPhase_quiet hworker fun _ _ heq => by cases heq
  · exact .refl w

theorem finish_quiet (w : World) (attemptId : UUID) : w.Quiet (w.finish attemptId) := by
  unfold finish
  split
  · next claim closing hworker =>
    split
    · exact setPhase_quiet hworker fun _ _ heq => by cases heq
    · next row hrow =>
      dsimp only
      split
      · have hquiet : w.Quiet { (w.setJob claim.incidentId fun job =>
            { closedJob job closing ((closing.watermark.getD row.watermark).key row.revisesVersion)
                w.clock with leaseOwner := none, leaseUntil := none }) with
            attempts := w.attempts.modify attemptId fun row =>
              { row with
                status := closing.status, errorCode := closing.errorCode
                finishedAt := some w.clock } } :=
          ⟨⟨_, rfl⟩, rfl, fun h => ⟨_, h⟩⟩
        exact hquiet.trans (setPhase_quiet hworker fun _ _ heq => by cases heq)
      · exact setPhase_quiet hworker fun _ _ heq => by cases heq
  · exact .refl w

theorem mem_versionsOf {s : Store} (hs : s.Sound) {id : UUID} {head : PostmortemRow} {n : ℕ}
    {row : VersionRow} (hhead : s.postmortems.get id = some head)
    (hrow : s.versions.get (id, n) = some row) : row ∈ s.versionsOf head.incidentId := by
  unfold Store.versionsOf
  split
  · next hnone => exact absurd rfl (Store.postmortemOf_eq_none.1 hnone id head hhead)
  · next found hfound =>
    obtain ⟨hget, hsame⟩ := Store.postmortemOf_eq_some hfound
    obtain rfl := hs.unique hget hhead hsame
    exact List.mem_map.2 ⟨((found.1, n), row), Table.mem_select_iff.2 ⟨hrow, by simp⟩, rfl⟩

/-- What a worker reads is fenced from then on, where nothing was decided. -/
theorem readInput_fenced {incidentId : UUID} {input : GenerationInput} (hw : w.Guarded)
    (hunsettled : ¬ w.Settled incidentId) (h : w.readInput incidentId = .ok input) :
    w.store.Fenced incidentId input := by
  simp only [readInput, require_bind_eq_ok, refuse_bind_eq_ok, pure_eq_ok] at h
  obtain ⟨incident, hincident, -, watermark, hwatermark, rfl⟩ := h
  obtain ⟨observation, -, rfl⟩ := Option.map_eq_some_iff.1 hwatermark
  have hhead : ∀ {id head}, w.store.postmortems.get id = some head →
      head.incidentId = incidentId → w.store.postmortemOf incidentId = some (id, head) := by
    intro id head hget hid
    cases hfound : w.store.postmortemOf incidentId with
    | none => exact absurd hid (Store.postmortemOf_eq_none.1 hfound id head hget)
    | some found =>
      obtain ⟨hget', hid'⟩ := Store.postmortemOf_eq_some hfound
      obtain rfl := hw.sound.unique hget' hget (hid'.trans hid.symm)
      rw [Option.some.inj (hget.symm.trans hget')]
  refine ⟨fun hget hid => ?_, fun hnone => ?_, fun hnone {id head n row} hget hid _ hrow hdecided
    hparts => hunsettled ⟨hnone, incident, row, hincident, ?_, hrow.2, hdecided, ?_⟩⟩
  · simp [hhead hget hid]
  · simp [hnone]
  · exact hid ▸ mem_versionsOf hw.sound hget hrow.1
  · exact Incident.matches_iff.2 hparts.symm

theorem read_guarded {attemptId : UUID} (hw : w.Guarded)
    (hunsettled : ∀ claim, w.workers.get attemptId = some ⟨claim, .claimed⟩ →
      ¬ w.Settled claim.incidentId) : (w.read attemptId).Guarded := by
  unfold read
  split
  · next claim hworker =>
    split
    · next input hinput =>
      have hfenced := readInput_fenced hw (hunsettled claim hworker) hinput
      refine { hw with reads := fun {attemptId' claim' input' used} hget => ?_ }
      obtain ⟨rfl, heq⟩ | ⟨-, hold⟩ := (Table.get_modify_eq_some hworker).1 hget
      · cases heq
        exact hfenced
      · exact hw.reads hold
    · exact (setPhase_quiet hworker fun _ _ heq => absurd heq refused_ne).guarded hw
  · exact hw

/-- Writes of the reviewers keep what holds. -/
theorem Guarded.of_writes {s : Store} (hw : w.Guarded)
    (hwrites : Writes Store.reviewChange w.store s) : Guarded { w with store := s } where
  sound := hwrites.stable (P := Store.Sound) Store.Write.sound hw.sound
  reviewed := Store.Writes.reviewed hwrites hw.reviewed
  scanned row hrow := hwrites.stable (P := fun u => u.Behind (row.postmortemId, row.version))
    (fun hwrite hbehind => Store.Write.behind hwrite hbehind) (hw.scanned row hrow)
  reads hworker := (Store.Writes.sound_fenced hwrites hw.sound (hw.reads hworker)).2

theorem transact_guarded {α : Type} {f : Store → Except KnowledgeError (α × Store)} (hw : w.Guarded)
    (hf : ∀ {done}, f w.store = .ok done → Writes Store.reviewChange w.store done.2) :
    (w.transact f).Guarded := by
  unfold transact
  split
  · next done hdone => exact hw.of_writes (hf hdone)
  · exact hw

/-- The draft of a worker. -/
theorem writeDraft_guarded {attemptId fresh : UUID} {draft : Assembled} (hw : w.Guarded) :
    (w.writeDraft attemptId fresh draft).Guarded := by
  unfold writeDraft
  split
  · next claim input used hworker =>
    split
    · next written hwritten =>
      have hopen := (hw.reads hworker).unmoved
      have hwrites : Writes anyChange w.store written.2 :=
        Store.recordDraft_writes (fun _ _ _ => trivial) hwritten
      have hstore : Guarded { w with store := written.2 } :=
        { sound := hwrites.stable (P := Store.Sound) Store.Write.sound hw.sound
          reviewed := Store.recordDraft_reviewed hw.sound hw.reviewed hopen hwritten
          scanned := fun row hrow =>
            hwrites.stable (P := fun u => u.Behind (row.postmortemId, row.version))
              (fun hwrite hbehind => Store.Write.behind hwrite hbehind) (hw.scanned row hrow)
          reads := fun hget => (Store.Writes.sound_fenced hwrites hw.sound (hw.reads hget)).2 }
      exact (setPhase_quiet (w := { w with store := written.2 }) hworker
        fun _ _ heq => by cases heq).guarded hstore
    · exact (setPhase_quiet hworker fun _ _ heq => absurd heq refused_ne).guarded hw
  · exact hw

theorem trigger_ne_submit (move : Move) :
    some move.trigger ≠ some PostmortemTrigger.submitForReview := by
  cases move <;> simp [Move.trigger]

/-- A reviewer does not mark anything stale. -/
theorem review_writes {s s' : Store} {ids : String → UUID} {r : TransitionRequest}
    {result : ActionResult} (hactor : r.actor.principalKind = .basicAuth)
    (h : s.transition ids r = .ok (result, s')) : Writes Store.reviewChange s s' := by
  obtain ⟨head, hvalid, -⟩ := Store.transition_cases h
  refine Store.transition_writes ⟨by simp, trigger_ne_submit r.move, fun hstale => ?_⟩ h
  have haction : r.move.action.byWorker = true := by
    cases hmove : r.move <;> simp [Move.trigger, hmove] at hstale
    rfl
  obtain ⟨⟨⟩, hrequired, -⟩ := bind_eq_ok.1 hvalid
  obtain ⟨⟨⟩, -, hrequired⟩ := bind_eq_ok.1 hrequired
  rw [refuse_eq_ok, haction, hactor] at hrequired
  exact absurd (by simp) hrequired

/-- What the scan finds is behind its incident. -/
theorem scanStale_guarded {id : UUID} {n : ℕ} (hw : w.Guarded) : (w.scanStale id n).Guarded := by
  unfold scanStale
  split
  · next head row hhead hrow =>
    split
    · next reason hreason =>
      split
      · obtain ⟨incident, hincident, hmoved⟩ := Option.bind_eq_some_iff.1 hreason
        have hnot : ¬ incident.Matches row.watermark := by
          intro hmatches
          rw [Incident.movedComponents_eq_nil.2 hmatches] at hmoved
          cases hmoved
        refine { hw with scanned := fun found hfound => ?_ }
        obtain rfl | hold := List.mem_cons.1 hfound
        · exact ⟨head, row, incident, hhead, hrow, hincident, hnot⟩
        · exact hw.scanned found hold
      · exact hw
    · exact hw
  · exact hw

theorem compensate_guarded {row : ScannedRow} {owner : UUID} (hw : w.Guarded) :
    (w.compensate row owner).Guarded := by
  unfold compensate
  split
  · next hrow =>
    split
    · next marked hmarked =>
      have hguard : Store.reviewChange w.store (some (row.request owner).move.trigger)
          (row.postmortemId, row.version) :=
        ⟨by simp, trigger_ne_submit _, fun _ => hw.scanned row hrow⟩
      exact hw.of_writes (Store.transition_writes hguard hmarked)
    · exact hw
  · exact hw

/-- An incident that advances does not come back to a watermark it has left. -/
theorem behind_incident {s : Store} {id : UUID} {facts : Incident} (hs : s.Reviewed)
    (hadvances : ∀ old, s.incidents.get id = some old → old.Advances facts) {k : UUID × ℕ}
    (h : s.Behind k) : Store.Behind { s with incidents := s.incidents.insert id facts } k := by
  obtain ⟨head, row, incident, hhead, hrow, hincident, hmoved⟩ := h
  by_cases hid : head.incidentId = id
  · obtain ⟨head', incident', hhead', hincident', hpast⟩ := hs.past hrow
    obtain rfl := Option.some.inj (hhead.symm.trans hhead')
    obtain rfl := Option.some.inj (hincident.symm.trans hincident')
    subst hid
    exact ⟨head, row, facts, hhead, hrow, Table.get_insert_self ..,
      hpast.not_matches (hadvances incident hincident) hmoved⟩
  · exact ⟨head, row, incident, hhead, hrow, (Table.get_insert_ne _ _ hid).trans hincident, hmoved⟩

theorem incident_guarded {id : UUID} {facts : Incident} (hw : w.Guarded)
    (hadvances : ∀ old, w.store.incidents.get id = some old → old.Advances facts) :
    Guarded { w with
      store := { w.store with incidents := w.store.incidents.insert id facts } } where
  sound := { hw.sound with }
  reviewed :=
    { hw.reviewed with
      past := by
        intro k row hrow
        obtain ⟨head, incident, hhead, hincident, hpast⟩ := hw.reviewed.past hrow
        by_cases hid : head.incidentId = id
        · subst hid
          exact ⟨head, facts, hhead, Table.get_insert_self ..,
            hpast.advance (hadvances incident hincident)⟩
        · exact ⟨head, incident, hhead, (Table.get_insert_ne _ _ hid).trans hincident, hpast⟩
      stale := fun hrow hstate =>
        behind_incident hw.reviewed hadvances (hw.reviewed.stale hrow hstate) }
  scanned row hrow := behind_incident hw.reviewed hadvances (hw.scanned row hrow)
  reads hworker := by
    obtain ⟨hlater, hfirst, hunmoved⟩ := hw.reads hworker
    exact ⟨hlater, hfirst, hunmoved⟩

/-- **Every step keeps what holds.** -/
theorem step_guarded {event : Event} (hstep : system.Step w event w')
    (hreads : w.ReadsUnsettled event) (hw : w.Guarded) : w'.Guarded := by
  obtain ⟨rfl, hadvances⟩ := hstep
  cases event with
  | claim => exact (claim_quiet ..).guarded hw
  | read attemptId => exact read_guarded hw fun claim => hreads attemptId claim rfl
  | reserve attemptId => exact (reserve_quiet w attemptId).guarded hw
  | fail attemptId errorCode => exact (fail_quiet w attemptId errorCode).guarded hw
  | writeDraft attemptId fresh draft => exact writeDraft_guarded hw
  | finish attemptId => exact (finish_quiet w attemptId).guarded hw
  | review ids r =>
    unfold after
    dsimp only
    split
    · next hactor => exact transact_guarded hw fun h => review_writes hactor h
    · exact hw
  | revoke r => exact transact_guarded (f := (·.revoke r)) hw fun h => Store.revoke_writes h
  | markStaleIn keys incidentId reason source =>
    have hguard : ∀ u k, u.Behind k → Store.reviewChange u (some .markStale) k :=
      fun u k hbehind => ⟨by simp, by simp, fun _ => hbehind⟩
    exact transact_guarded (f := (·.markStaleIn keys incidentId reason source)) hw
      fun h => Store.markStaleIn_writes hguard h
  | scanStale id n => exact scanStale_guarded hw
  | compensate row owner => exact compensate_guarded hw
  | incident id facts => exact incident_guarded hw (hadvances id facts rfl)
  | tick elapsed => exact { hw with }

theorem Fresh.guarded (h : w.Fresh) : w.Guarded where
  sound := h.store.sound
  reviewed :=
    { past := fun hrow => by simp [h.store.versions] at hrow
      stale := fun hrow => by simp [h.store.versions] at hrow
      entered := fun ⟨_, hmem, _⟩ => by simp [h.store.audit] at hmem
      single := fun hrow => by simp [Store.Unasked, h.store.versions] at hrow }
  scanned row hrow := by simp [h.scanned] at hrow
  reads hworker := by simp [h.workers] at hworker

theorem Reachable.guarded (h : (system.restrict ReadsUnsettled).Reachable w) : w.Guarded :=
  h.invariant (fun _ hfresh => hfresh.guarded) fun hstep => step_guarded hstep.1 hstep.2

/-- **At most one version of a watermark enters review unasked**, in every run in which no worker
reads its input after a version of that watermark was decided. -/
theorem one_per_watermark (h : (system.restrict ReadsUnsettled).Reachable w)
    {k k' : UUID × ℕ} {head head' : PostmortemRow} {row row' : VersionRow}
    (hhead : w.store.postmortems.get k.1 = some head)
    (hhead' : w.store.postmortems.get k'.1 = some head')
    (hincident : head.incidentId = head'.incidentId)
    (hrow : w.store.Unasked k row) (hrow' : w.store.Unasked k' row')
    (hreview : w.store.EnteredReview k.1 k.2) (hreview' : w.store.EnteredReview k'.1 k'.2)
    (hparts : row.watermark.parts = row'.watermark.parts) : k = k' := by
  have hw := Reachable.guarded h
  obtain ⟨id, n⟩ := k
  obtain ⟨id', n'⟩ := k'
  obtain rfl : id = id' := hw.sound.unique hhead hhead' hincident
  rw [hw.reviewed.single hrow hrow' hreview hreview' hparts]

/-- An incident whose observation has ended, before any worker has claimed it. -/
def lateWriterStart : World where
  store := Store.publicationStart

/-- The lease of the first worker lapses and, after the backoff, a second worker claims the
incident; the first one writes its draft all the same, and the draft is rejected before the second
worker reads its input. -/
def lateWriterEvents : List Event :=
  [.claim 1 10 100 "v4" 2 900, .read 10, .reserve 10, .tick 901000000, .claim 1 11 101 "v4" 2 900,
    .tick 61000000, .claim 1 11 101 "v4" 2 900, .writeDraft 10 6 lateWriterDraft,
    .review (fun _ => 7)
      { postmortemId := 6, version := 1, move := .reject "wrong cause", expectedGeneration := 2
        idempotencyKey := "reject", actor := ⟨"reviewer", .basicAuth⟩ },
    .read 11, .reserve 11, .writeDraft 11 6 lateWriterDraft]
where
  /-- What the model writes. -/
  lateWriterDraft : Assembled :=
    { content := "{}"
      conclusions := [⟨"cause", "root_cause", "disk full", .code, .deterministic, true, []⟩] }

theorem run_foldl (w : World) {events : List Event}
    (h : ∀ event ∈ events, ∀ id facts, event ≠ .incident id facts) :
    system.Run w events (events.foldl after w) := by
  induction events generalizing w with
  | nil => exact .nil w
  | cons event events ih =>
    refine .cons ⟨rfl, fun id facts heq => absurd heq (h event List.mem_cons_self id facts)⟩ ?_
    exact ih _ fun event' hevent' => h event' (List.mem_cons_of_mem _ hevent')

theorem lateWriter_reachable : system.Reachable (lateWriterEvents.foldl after lateWriterStart) := by
  refine ⟨lateWriterStart, lateWriterEvents, ⟨⟨rfl, rfl, rfl, rfl, rfl, rfl, rfl⟩, rfl, rfl, rfl⟩,
    run_foldl _ ?_⟩
  simp [lateWriterEvents]

/-- **Two versions of one watermark enter review that no return asked for.** -/
theorem lateWriter_two_in_review :
    ¬ ∀ w, system.Reachable w → ∀ (k k' : UUID × ℕ) (head head' : PostmortemRow)
        (row row' : VersionRow), w.store.postmortems.get k.1 = some head →
      w.store.postmortems.get k'.1 = some head' → head.incidentId = head'.incidentId →
      w.store.Unasked k row → w.store.Unasked k' row' → w.store.EnteredReview k.1 k.2 →
      w.store.EnteredReview k'.1 k'.2 → row.watermark.parts = row'.watermark.parts → k = k' := by
  intro h
  have hversion : ∀ n : ℕ, n = 1 ∨ n = 2 →
      ((lateWriterEvents.foldl after lateWriterStart).store.versions.get (6, n)).map
        (fun row => (row.revisesVersion, row.watermark)) =
          some (none, ⟨1, 1, 3, 4, 1, some 5, 1, []⟩) := by
    rintro n (rfl | rfl) <;> decide +kernel
  obtain ⟨row, hrow, heq⟩ := Option.map_eq_some_iff.1 (hversion 1 (.inl rfl))
  obtain ⟨row', hrow', heq'⟩ := Option.map_eq_some_iff.1 (hversion 2 (.inr rfl))
  obtain ⟨hnone, hmark⟩ := Prod.mk.inj heq
  obtain ⟨hnone', hmark'⟩ := Prod.mk.inj heq'
  have hhead :
      ((lateWriterEvents.foldl after lateWriterStart).store.postmortems.get 6).isSome = true := by
    decide +kernel
  obtain ⟨head, hhead⟩ := Option.isSome_iff_exists.1 hhead
  have hreview : ∀ n : ℕ, n = 1 ∨ n = 2 →
      (lateWriterEvents.foldl after lateWriterStart).store.EnteredReview 6 n := by
    unfold Store.EnteredReview
    rintro n (rfl | rfl) <;> decide +kernel
  have hsame := h _ lateWriter_reachable (6, 1) (6, 2) head head row row' hhead hhead rfl
    ⟨hrow, hnone⟩ ⟨hrow', hnone'⟩ (hreview 1 (.inl rfl)) (hreview 2 (.inr rfl))
    (by rw [hmark, hmark'])
  exact absurd hsame (by decide)

theorem not_settled_of_empty (h : w.store.versions = ∅) (incidentId : UUID) :
    ¬ w.Settled incidentId := by
  rintro ⟨-, incident, row, -, hmem, -⟩
  unfold Store.versionsOf at hmem
  split at hmem
  · exact List.not_mem_nil hmem
  · rw [h] at hmem
    exact List.not_mem_nil hmem

/-- A worker alone. -/
def firstWriterEvents : List Event :=
  [.claim 1 10 100 "v4" 2 900, .read 10, .reserve 10,
    .writeDraft 10 6 lateWriterEvents.lateWriterDraft]

theorem firstWriter_reachable :
    (system.restrict ReadsUnsettled).Reachable (firstWriterEvents.foldl after lateWriterStart) := by
  have hempty : (lateWriterStart.after (.claim 1 10 100 "v4" 2 900)).store.versions = ∅ := by
    obtain ⟨jobs, hjobs⟩ := (claim_quiet lateWriterStart 1 10 100 "v4" 2 900).jobs
    exact congrArg Store.versions hjobs
  refine ⟨lateWriterStart, firstWriterEvents, ⟨⟨rfl, rfl, rfl, rfl, rfl, rfl, rfl⟩, rfl, rfl, rfl⟩,
    ?_⟩
  refine .cons ⟨⟨rfl, by simp⟩, fun _ _ heq => by cases heq⟩ ?_
  refine .cons ⟨⟨rfl, by simp⟩, fun _ claim _ _ => not_settled_of_empty hempty claim.incidentId⟩ ?_
  refine .cons ⟨⟨rfl, by simp⟩, fun _ _ heq => by cases heq⟩ ?_
  exact .single ⟨⟨rfl, by simp⟩, fun _ _ heq => by cases heq⟩

theorem firstWriter_one_in_review :
    (firstWriterEvents.foldl after lateWriterStart).store.EnteredReview 6 1 ∧
      ((6, 1) : UUID × ℕ) = (6, 1) := by
  have hreview : (firstWriterEvents.foldl after lateWriterStart).store.EnteredReview 6 1 := by
    unfold Store.EnteredReview
    decide +kernel
  have hhead :
      ((firstWriterEvents.foldl after lateWriterStart).store.postmortems.get 6).isSome = true := by
    decide +kernel
  have hversion : ((firstWriterEvents.foldl after lateWriterStart).store.versions.get (6, 1)).map
      VersionRow.revisesVersion = some none := by
    decide +kernel
  obtain ⟨head, hhead⟩ := Option.isSome_iff_exists.1 hhead
  obtain ⟨row, hrow, hnone⟩ := Option.map_eq_some_iff.1 hversion
  exact ⟨hreview, one_per_watermark firstWriter_reachable hhead hhead rfl ⟨hrow, hnone⟩
    ⟨hrow, hnone⟩ hreview hreview rfl⟩

end World

end OpsPilot.Knowledge
