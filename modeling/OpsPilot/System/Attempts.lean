import OpsPilot.Knowledge.FailureKeys
import OpsPilot.System.Generation
import OpsPilot.System.GenerationJobs

/-!
# Generation attempts

* `AttemptsSound`: no attempt exceeds its budget, and the one that runs on an incident was opened
  after all others had ended.
* `World.Attempted`: that, and each worker goes by the attempt of its claim; `Reachable.attempted`.
* `World.request_reserved`: a request is reserved under the lease of its attempt.
-/

namespace OpsPilot.Knowledge

/-! ## The rows of the attempts -/

/-- What holds of one attempt at a time. -/
structure AttemptRow.Sound (row : AttemptRow) (clock : Time) : Prop where
  budget : row.modelRequests ≤ row.maxModelRequests
  started : row.startedAt ≤ clock
  opened : row.status = .running → row.errorCode = none
  closed : row.status ≠ .running → row.finishedAt.isSome
  finished : ∀ t ∈ row.finishedAt, t ≤ clock

/-- What holds of two attempts on one incident: not both run, and the one that runs was opened after
the other had ended. -/
structure AttemptRow.Follows (row other : AttemptRow) : Prop where
  single : row.status = .running → other.status ≠ .running
  order : row.status = .running → ∀ t ∈ other.finishedAt, t ≤ row.startedAt

/-- What holds of the attempts at a time. -/
structure AttemptsSound (attempts : Table UUID AttemptRow) (clock : Time) : Prop where
  row : ∀ {a row}, attempts.get a = some row → row.Sound clock
  follows : ∀ {a b row other}, attempts.get a = some row → attempts.get b = some other → a ≠ b →
    row.incidentId = other.incidentId → row.Follows other

namespace AttemptsSound

variable {attempts : Table UUID AttemptRow} {clock later : Time} {a b : UUID} {row : AttemptRow}

theorem empty (clock : Time) : AttemptsSound ∅ clock where
  row h := by cases h
  follows h := by cases h

theorem tick (h : AttemptsSound attempts clock) (hle : clock ≤ later) :
    AttemptsSound attempts later where
  row hget :=
    { h.row hget with
      started := (h.row hget).started.trans hle
      finished := fun t ht => ((h.row hget).finished t ht).trans hle }
  follows := h.follows

/-- A rewrite of one attempt. -/
theorem modify {f : AttemptRow → AttemptRow} (h : AttemptsSound attempts clock)
    (hrow : attempts.get a = some row) (hf : (f row).incidentId = row.incidentId)
    (hsound : (f row).Sound clock) (hfollows : ∀ {b other}, attempts.get b = some other → a ≠ b →
      row.incidentId = other.incidentId → (f row).Follows other ∧ other.Follows (f row)) :
    AttemptsSound (attempts.modify a f) clock where
  row hget := by
    obtain ⟨-, rfl⟩ | ⟨-, hold⟩ := (Table.get_modify_eq_some hrow).1 hget
    · exact hsound
    · exact h.row hold
  follows hget hget' hne hsame := by
    obtain ⟨rfl, rfl⟩ | ⟨-, hold⟩ := (Table.get_modify_eq_some hrow).1 hget <;>
      obtain ⟨rfl, rfl⟩ | ⟨-, hold'⟩ := (Table.get_modify_eq_some hrow).1 hget'
    · exact absurd rfl hne
    · exact (hfollows hold' hne (hf.symm.trans hsame)).1
    · exact (hfollows hold (Ne.symm hne) (hsame.trans hf).symm).2
    · exact h.follows hold hold' hne hsame

/-- One more request of an attempt that has some left. -/
theorem reserve (h : AttemptsSound attempts clock) (hrow : attempts.get a = some row)
    (hleft : row.modelRequests < row.maxModelRequests) :
    AttemptsSound (attempts.modify a fun row =>
      { row with modelRequests := row.modelRequests + 1 }) clock := by
  have hsound := h.row hrow
  refine h.modify hrow rfl ?_ fun hother hne hsame => ?_
  · exact ⟨hleft, hsound.started, hsound.opened, hsound.closed, hsound.finished⟩
  · have hfollows := h.follows hrow hother hne hsame
    have hfollowed := h.follows hother hrow hne.symm hsame.symm
    exact ⟨⟨hfollows.single, hfollows.order⟩, ⟨hfollowed.single, hfollowed.order⟩⟩

/-- A running attempt ends now. -/
theorem close (h : AttemptsSound attempts clock) (hrow : attempts.get a = some row)
    (hrunning : row.status = .running) {status : AttemptStatus} (hstatus : status ≠ .running)
    (errorCode : Option AttemptError) :
    AttemptsSound (attempts.modify a fun row =>
      { row with status := status, errorCode := errorCode, finishedAt := some clock }) clock := by
  have hsound := h.row hrow
  refine h.modify hrow rfl ?_ fun hother hne hsame => ?_
  · refine ⟨hsound.budget, hsound.started, fun hopen => absurd hopen hstatus, fun _ => rfl, ?_⟩
    rintro t ⟨⟩
    exact le_rfl
  · have hfollows := h.follows hrow hother hne hsame
    -- The other attempt has ended, since this one was running.
    have hended := hfollows.single hrunning
    exact ⟨⟨fun hopen => absurd hopen hstatus, fun hopen => absurd hopen hstatus⟩,
      ⟨fun hopen => absurd hopen hended, fun hopen => absurd hopen hended⟩⟩

/-- A new attempt is opened now, on an incident where none is running. -/
theorem insert (h : AttemptsSound attempts clock) (hfresh : attempts.get a = none)
    (hsound : row.Sound clock) (hstarted : row.startedAt = clock)
    (hfinished : row.finishedAt = none)
    (hnone : ∀ {b other}, attempts.get b = some other → other.incidentId = row.incidentId →
      other.status ≠ .running) : AttemptsSound (attempts.insert a row) clock where
  row hget := by
    obtain ⟨-, rfl⟩ | ⟨-, hold⟩ := Table.get_insert_eq_some.1 hget
    · exact hsound
    · exact h.row hold
  follows hget hget' hne hsame := by
    obtain ⟨rfl, rfl⟩ | ⟨-, hold⟩ := Table.get_insert_eq_some.1 hget <;>
      obtain ⟨rfl, rfl⟩ | ⟨-, hold'⟩ := Table.get_insert_eq_some.1 hget'
    · exact absurd rfl hne
    · refine ⟨fun _ => hnone hold' hsame.symm, fun _ t ht => ?_⟩
      rw [hstarted]
      exact (h.row hold').finished t ht
    · have hended := hnone hold hsame
      exact ⟨fun hopen => absurd hopen hended, fun hopen => absurd hopen hended⟩
    · exact h.follows hold hold' hne hsame

/-- **At most one attempt on an incident is running.** -/
theorem single (h : AttemptsSound attempts clock) {other : AttemptRow}
    (hrow : attempts.get a = some row) (hother : attempts.get b = some other)
    (hsame : row.incidentId = other.incidentId) (hrunning : row.status = .running)
    (hrunning' : other.status = .running) : a = b := by
  by_contra hne
  exact (h.follows hrow hother hne hsame).single hrunning hrunning'

end AttemptsSound

/-! ## The workers and the jobs -/

/-- The attempt a claim was opened with. -/
structure AttemptRow.Of (row : AttemptRow) (claim : Claim) : Prop where
  incident : row.incidentId = claim.incidentId
  owner : row.leaseOwner = claim.owner
  epoch : row.leaseEpoch = claim.epoch
  requests : row.maxModelRequests = claim.maxModelRequests
  revises : row.revisesVersion = claim.revisesVersion

/-- What a worker closes its attempt with. -/
structure Closing.Sound (closing : Closing) : Prop where
  ends : closing.status = .succeeded ∨ closing.status = .failed ∨ closing.status = .superseded
  success : closing.status = .succeeded → closing.errorCode = none
  superseded : closing.status = .superseded → closing.errorCode ≠ some .inputTooLarge

theorem Closing.Sound.ended {closing : Closing} (h : closing.Sound) :
    closing.status ≠ .running := by
  rcases h.ends with h | h | h <;> simp [h]

/-- The worker has written its draft, or will not write one. -/
def Phase.written : Phase → Bool
  | .claimed | .generating _ _ => false
  | .closing _ | .done => true

/-- What the worker of a running attempt goes by: the key of the incident, and a draft only if its
citations failed. -/
def Phase.Under (key : Option FailureKey) (revisesVersion : Option ℕ) : Phase → Prop
  | .generating input _ => key = some (input.watermark.key revisesVersion)
  | .closing c =>
    (∀ watermark ∈ c.watermark, key = some (watermark.key revisesVersion)) ∧
      (c.status = .succeeded → c.citationsFailed = true)
  | .claimed | .done => True

/-- The key a worker records its draft under. -/
def draftKey (attemptId : UUID) : String := "generate:" ++ toString attemptId

theorem draftKey_injective {a b : UUID} (h : draftKey a = draftKey b) : a = b :=
  toString_nat_injective ((String.append_right_inj _).1 h)

/-- What holds of the attempts, the workers and the jobs in every state. -/
structure World.Attempted (w : World) : Prop where
  attempts : AttemptsSound w.attempts w.clock
  claim : ∀ {a worker}, w.workers.get a = some worker → worker.claim.attemptId = a ∧
    ∃ row, w.attempts.get a = some row ∧ row.Of worker.claim
  closing : ∀ {a worker closing}, w.workers.get a = some worker →
    worker.phase = .closing closing → closing.Sound
  job : ∀ {a row}, w.attempts.get a = some row → (w.store.jobs.get row.incidentId).isSome = true
  generated : ∀ {a}, w.store.Generated (draftKey a) →
    ∃ worker, w.workers.get a = some worker ∧ worker.phase.written = true

namespace World

variable {w w' : World} {i a : UUID}

theorem Fresh.attempted (h : w.Fresh) : w.Attempted where
  attempts := by
    rw [h.attempts]
    exact .empty _
  claim hget := by
    rw [h.workers] at hget
    cases hget
  closing hget := by
    rw [h.workers] at hget
    cases hget
  job hget := by
    rw [h.attempts] at hget
    cases hget
  generated := by
    rintro a ⟨row, r, hrow, -⟩
    rw [h.store.requests] at hrow
    cases hrow

namespace Attempted

/-- A change of the store that keeps the jobs there and records drafts of workers that are done. -/
theorem of_store {s : Store} (h : w.Attempted)
    (hjobs : ∀ i, (w.store.jobs.get i).isSome = true → (s.jobs.get i).isSome = true)
    (hgenerated : ∀ {a}, s.Generated (draftKey a) → w.store.Generated (draftKey a) ∨
      ∃ worker, w.workers.get a = some worker ∧ worker.phase.written = true) :
    Attempted { w with store := s } :=
  { h with
    job := fun hget => hjobs _ (h.job hget)
    generated := fun hkey => (hgenerated hkey).elim h.generated id }

theorem setJob (h : w.Attempted) (f : JobRow → JobRow) : (w.setJob i f).Attempted := by
  refine h.of_store (fun j hj => ?_) .inl
  rw [Table.get_modify]
  split
  · rwa [Option.isSome_map]
  · exact hj

theorem openJob (h : w.Attempted) : (w.openJob i).Attempted := by
  unfold World.openJob
  split
  · exact h
  · next hnone =>
    refine h.of_store (fun j hj => ?_) .inl
    rw [Table.get_insert]
    split
    · rfl
    · exact hj

/-- The worker goes on. -/
theorem setPhase {worker : Worker} {phase : Phase} (h : w.Attempted)
    (hworker : w.workers.get a = some worker)
    (hclosing : ∀ closing, phase = .closing closing → closing.Sound)
    (hwritten : worker.phase.written = true → phase.written = true) :
    (w.setPhase a phase).Attempted where
  attempts := h.attempts
  claim hget := by
    obtain ⟨rfl, rfl⟩ | ⟨-, hold⟩ := (Table.get_modify_eq_some hworker).1 hget
    · have hclaimed := h.claim hworker
      exact hclaimed
    · exact h.claim hold
  closing hget hphase := by
    obtain ⟨rfl, rfl⟩ | ⟨-, hold⟩ := (Table.get_modify_eq_some hworker).1 hget
    · exact hclosing _ hphase
    · exact h.closing hold hphase
  job := h.job
  generated hkey := by
    obtain ⟨old, hget, hold⟩ := h.generated hkey
    rw [World.setPhase, Table.get_modify]
    split
    · next heq =>
      subst heq
      obtain rfl := Option.some.inj (hworker.symm.trans hget)
      exact ⟨_, by rw [hget, Option.map_some], hwritten hold⟩
    · exact ⟨old, hget, hold⟩

/-- A rewrite of an attempt that stays with its claim. -/
theorem modify_attempt {f : AttemptRow → AttemptRow} (h : w.Attempted)
    (hattempts : AttemptsSound (w.attempts.modify a f) w.clock)
    (hf : ∀ row, (f row).incidentId = row.incidentId)
    (hof : ∀ row claim, row.Of claim → (f row).Of claim) :
    Attempted { w with attempts := w.attempts.modify a f } where
  attempts := hattempts
  claim hget := by
    obtain ⟨hid, row, hrow, hclaim⟩ := h.claim hget
    refine ⟨hid, ?_⟩
    dsimp only
    rw [Table.get_modify]
    split
    · exact ⟨f row, by rw [hrow, Option.map_some], hof row _ hclaim⟩
    · exact ⟨row, hrow, hclaim⟩
  closing := h.closing
  job {b new} hget := by
    dsimp only at hget ⊢
    rw [Table.get_modify] at hget
    split at hget
    · obtain ⟨old, hold, rfl⟩ := Option.map_eq_some_iff.1 hget
      rw [hf]
      exact h.job hold
    · exact h.job hget
  generated := h.generated

end Attempted

/-! ## Claims -/

/-- An attempt left running is closed. -/
def abandonOne (w : World) (attemptId : UUID) : World :=
  { w with attempts := w.attempts.modify attemptId fun row =>
    { row with status := .abandoned, errorCode := some .leaseLost, finishedAt := some w.clock } }

theorem mem_running {row : AttemptRow} : (a, row) ∈ w.running i ↔
    w.attempts.get a = some row ∧ row.incidentId = i ∧ row.status = .running := by
  rw [running, Table.mem_select_iff, decide_eq_true_iff]

/-- **A claim closes the attempt that is running**, if there is one. -/
theorem abandon_cases (h : w.Attempted) (i : UUID) :
    (w.running i = [] ∧ w.abandon i (w.running i) = w) ∨
      ∃ a row, w.running i = [(a, row)] ∧ w.attempts.get a = some row ∧ row.incidentId = i ∧
        row.status = .running ∧ w.abandon i (w.running i) =
          (w.abandonOne a).countFailure i (row.watermark.key row.revisesVersion)
            (some .leaseLost) := by
  cases hrows : w.running i with
  | nil => exact .inl ⟨rfl, rfl⟩
  | cons e rest =>
    obtain ⟨a, row⟩ := e
    obtain ⟨hget, hincident, hrunning⟩ :=
      mem_running.1 (show (a, row) ∈ w.running i from hrows ▸ List.mem_cons_self)
    have hrest : rest = [] := by
      rw [List.eq_nil_iff_forall_not_mem]
      rintro ⟨b, other⟩ hmem
      obtain ⟨hget', hincident', hrunning'⟩ := mem_running.1
        (show (b, other) ∈ w.running i from hrows ▸ List.mem_cons_of_mem _ hmem)
      have hsame := hincident.trans hincident'.symm
      obtain rfl := h.attempts.single hget hget' hsame hrunning hrunning'
      have hnodup : ((w.running i).map Prod.fst).Nodup :=
        (List.filter_sublist.map Prod.fst).nodup w.attempts.keys_nodup
      rw [hrows, List.map_cons, List.nodup_cons] at hnodup
      exact hnodup.1 (List.mem_map.2 ⟨_, hmem, rfl⟩)
    subst hrest
    exact .inr ⟨a, row, rfl, hget, hincident, hrunning, rfl⟩

namespace Attempted

theorem abandonOne {row : AttemptRow} (h : w.Attempted) (hrow : w.attempts.get a = some row)
    (hrunning : row.status = .running) : (w.abandonOne a).Attempted :=
  h.modify_attempt (h.attempts.close hrow hrunning (by simp) _) (fun _ => rfl)
    fun _ _ hof => ⟨hof.incident, hof.owner, hof.epoch, hof.requests, hof.revises⟩

theorem abandon (h : w.Attempted) (i : UUID) : (w.abandon i (w.running i)).Attempted := by
  obtain ⟨-, heq⟩ | ⟨a, row, -, hrow, -, hrunning, heq⟩ := abandon_cases h i
  · rw [heq]
    exact h
  · rw [heq]
    exact (h.abandonOne hrow hrunning).setJob _

end Attempted

/-- After that none is running. -/
theorem abandon_ended (h : w.Attempted) {row : AttemptRow}
    (hrow : (w.abandon i (w.running i)).attempts.get a = some row)
    (hincident : row.incidentId = i) :
    row.status ≠ .running := by
  intro hrunning
  obtain ⟨hnil, heq⟩ | ⟨b, old, -, hold, hb, hopen, heq⟩ := abandon_cases h i
  · rw [heq] at hrow
    have hmem := mem_running.2 ⟨hrow, hincident, hrunning⟩
    rw [hnil] at hmem
    cases hmem
  · rw [heq] at hrow
    obtain ⟨-, rfl⟩ | ⟨hne, hget⟩ := (Table.get_modify_eq_some hold).1 hrow
    · cases hrunning
    · exact hne (h.attempts.single hget hold (hincident.trans hb.symm) hrunning hopen)

/-- What a claim does: nothing, a look at a lease that is held, or the end of the attempt that was
running and a new one, if the incident is due. -/
theorem claim_cases (w : World) (incidentId attemptId owner : UUID) (policy : String)
    (maxModelRequests leaseSeconds : ℕ) :
    w.claim incidentId attemptId owner policy maxModelRequests leaseSeconds = w ∨
    w.claim incidentId attemptId owner policy maxModelRequests leaseSeconds =
      w.openJob incidentId ∨
    w.attempts.get attemptId = none ∧
      let opened := w.openJob incidentId
      let closed := opened.abandon incidentId (opened.running incidentId)
      w.claim incidentId attemptId owner policy maxModelRequests leaseSeconds =
        closed.setJob incidentId (fun job => { job with leaseOwner := none, leaseUntil := none }) ∨
      ∃ incident watermark, closed.store.incidents.get incidentId = some incident ∧
        incident.currentWatermark = some watermark ∧ closed.candidate policy incidentId = true ∧
        w.claim incidentId attemptId owner policy maxModelRequests leaseSeconds =
          (closed.reopenCap incidentId).takeLease incidentId watermark attemptId owner policy
            maxModelRequests leaseSeconds := by
  unfold claim
  split
  · exact .inl rfl
  · next hfound =>
    right
    rw [not_or, Option.not_isSome_iff_eq_none] at hfound
    dsimp only
    split
    · exact .inl rfl
    · refine .inr ⟨hfound.2, ?_⟩
      split
      · exact .inl rfl
      · next watermark hwatermark =>
        obtain ⟨incident, hincident, hcurrent⟩ := Option.bind_eq_some_iff.1 hwatermark
        split
        · next hdue => exact .inr ⟨incident, watermark, hincident, hcurrent, hdue, rfl⟩
        · exact .inl rfl

namespace Attempted

/-- The new attempt of a claim, on an incident where none is running. -/
theorem takeLease {watermark : Watermark} {attemptId owner : UUID} {policy : String}
    {maxModelRequests leaseSeconds : ℕ} (h : w.Attempted)
    (hfresh : w.attempts.get attemptId = none) (hjob : (w.store.jobs.get i).isSome = true)
    (hnone : ∀ {b other}, w.attempts.get b = some other → other.incidentId = i →
      other.status ≠ .running) :
    (w.takeLease i watermark attemptId owner policy maxModelRequests leaseSeconds).Attempted := by
  have hleased := h.setJob (i := i) fun job =>
    { job with
      leaseOwner := some owner, leaseEpoch := (w.store.jobOf i).leaseEpoch + 1
      leaseUntil := some (w.clock + seconds leaseSeconds) }
  refine ⟨?_, fun {b worker} hget => ?_, fun {b worker closing} hget hphase => ?_,
    fun {b row} hget => ?_, fun {b} hkey => ?_⟩
  · refine hleased.attempts.insert hfresh ⟨Nat.zero_le _, le_rfl, fun _ => rfl, fun hne => ?_, ?_⟩
      rfl rfl hnone
    · exact absurd rfl hne
    · rintro t ⟨⟩
  · obtain ⟨rfl, rfl⟩ | ⟨hne, hold⟩ := Table.get_insert_eq_some.1 hget
    · exact ⟨rfl, _, Table.get_insert_self .., rfl, rfl, rfl, rfl, rfl⟩
    · obtain ⟨hid, row, hrow, hof⟩ := h.claim hold
      exact ⟨hid, row, (Table.get_insert_ne _ _ hne).trans hrow, hof⟩
  · obtain ⟨rfl, rfl⟩ | ⟨-, hold⟩ := Table.get_insert_eq_some.1 hget
    · cases hphase
    · exact h.closing hold hphase
  · obtain ⟨rfl, rfl⟩ | ⟨-, hold⟩ := Table.get_insert_eq_some.1 hget
    · dsimp only [World.takeLease, World.setJob]
      rw [Table.get_modify_self, Option.isSome_map]
      exact hjob
    · exact hleased.job hold
  · obtain ⟨worker, hget, hwritten⟩ := hleased.generated hkey
    have hne : b ≠ attemptId := by
      rintro rfl
      obtain ⟨-, row, hrow, -⟩ := h.claim hget
      rw [hfresh] at hrow
      cases hrow
    exact ⟨worker, (Table.get_insert_ne _ _ hne).trans hget, hwritten⟩

theorem reopenCap (h : w.Attempted) (i : UUID) : (w.reopenCap i).Attempted := by
  unfold World.reopenCap
  dsimp only
  split
  · exact h.setJob _
  · exact h

end Attempted

/-! ## The other steps of a worker -/

theorem reserveModelRequest_some {claim : Claim} {reserved : World}
    (h : w.reserveModelRequest claim = some reserved) :
    ∃ row, w.attempts.get claim.attemptId = some row ∧ row.status = .running ∧
      w.leaseHeld claim = true ∧ row.modelRequests < row.maxModelRequests ∧
      reserved = { w with attempts := w.attempts.modify claim.attemptId fun row =>
        { row with modelRequests := row.modelRequests + 1 } } := by
  unfold reserveModelRequest at h
  split at h
  · cases h
  · next row hrow =>
    split at h
    · next hheld =>
      exact ⟨row, hrow, hheld.1, hheld.2.1, hheld.2.2, (Option.some.inj h).symm⟩
    · cases h

/-- A refused transaction supersedes the attempt or ends its worker. -/
theorem refused_cases (watermark : Option Watermark) (error : KnowledgeError) :
    refused watermark error = .done ∨ ∃ code, code ≠ AttemptError.inputTooLarge ∧
      refused watermark error =
        .closing { status := .superseded, watermark := watermark, errorCode := some code } := by
  unfold refused
  cases error <;> first
    | exact .inl rfl
    | exact .inr ⟨_, by decide, rfl⟩

theorem refused_sound {watermark : Option Watermark} {error : KnowledgeError} {closing : Closing}
    (h : refused watermark error = .closing closing) : closing.Sound := by
  obtain heq | ⟨code, hcode, heq⟩ := refused_cases watermark error
  · rw [heq] at h
    cases h
  · rw [heq, Phase.closing.injEq] at h
    subst h
    exact ⟨.inr (.inr rfl), (by simp), fun _ hcode' => hcode (Option.some.inj hcode')⟩

theorem refused_written (watermark : Option Watermark) (error : KnowledgeError) :
    (refused watermark error).written = true := by
  obtain heq | ⟨code, -, heq⟩ := refused_cases watermark error <;> rw [heq] <;> rfl

namespace Attempted

theorem read (h : w.Attempted) (a : UUID) : (w.read a).Attempted := by
  unfold World.read
  split
  · next claim hworker =>
    split
    · exact h.setPhase hworker (fun _ heq => by cases heq) fun hwritten => by cases hwritten
    · exact h.setPhase hworker (fun _ heq => refused_sound heq) fun _ => refused_written _ _
  · exact h

theorem reserve (h : w.Attempted) (a : UUID) : (w.reserve a).Attempted := by
  unfold World.reserve
  split
  · next claim input used hworker =>
    split
    · split
      · next reserved hreserved =>
        obtain ⟨row, hrow, -, -, hleft, rfl⟩ := reserveModelRequest_some hreserved
        refine (h.modify_attempt (h.attempts.reserve hrow hleft) (fun _ => rfl) fun _ _ hof =>
          ⟨hof.incident, hof.owner, hof.epoch, hof.requests, hof.revises⟩).setPhase hworker
            (fun _ heq => by cases heq) fun hwritten => by cases hwritten
      · refine h.setPhase hworker (fun closing heq => ?_) fun _ => rfl
        obtain rfl := Phase.closing.inj heq
        exact ⟨.inr (.inr rfl), (by simp), (by simp)⟩
    · exact h
  · exact h

theorem fail (h : w.Attempted) (a : UUID) (errorCode : AttemptError) :
    (w.fail a errorCode).Attempted := by
  unfold World.fail
  split
  · next claim input used hworker =>
    refine h.setPhase hworker (fun closing heq => ?_) fun _ => rfl
    obtain rfl := Phase.closing.inj heq
    exact ⟨.inr (.inl rfl), (by simp), (by simp)⟩
  · exact h

theorem writeDraft (h : w.Attempted) (a fresh : UUID) (draft : Assembled) :
    (w.writeDraft a fresh draft).Attempted := by
  unfold World.writeDraft
  split
  · next claim input used hworker =>
    split
    · next written hwritten =>
      obtain ⟨hgenerated, hjobs, -⟩ := Store.recordDraft_jobs
        (show _ = Except.ok (written.1, written.2) from hwritten)
      have hid : claim.attemptId = a := (h.claim hworker).1
      have hclosed : (w.setPhase a (.closing
          { status := .succeeded, watermark := some input.watermark
            citationsFailed := (draft.request claim input).reviewable = false })).Attempted := by
        refine h.setPhase hworker (fun closing heq => ?_) fun _ => rfl
        obtain rfl := Phase.closing.inj heq
        exact ⟨.inl rfl, (fun _ => rfl), (by simp)⟩
      refine hclosed.of_store (fun i hi => ?_) fun {b} hkey => ?_
      · obtain heq | ⟨-, heq⟩ := hjobs i
        · rw [heq]
          exact hi
        · rw [heq, Option.isSome_map]
          exact hi
      · obtain hold | hnew := hgenerated hkey
        · exact .inl hold
        · right
          obtain rfl : b = a := draftKey_injective (hnew.trans (by rw [← hid]; rfl))
          exact ⟨_, (Table.get_modify_self ..).trans (by rw [hworker]; rfl), rfl⟩
    · exact h.setPhase hworker (fun _ heq => refused_sound heq) fun _ => refused_written _ _
  · exact h

theorem finish (h : w.Attempted) (a : UUID) : (w.finish a).Attempted := by
  unfold World.finish
  split
  · next claim closing hworker =>
    have hdone : ∀ {v : World}, v.Attempted → v.workers = w.workers →
        (v.setPhase a .done).Attempted :=
      fun hv heq => hv.setPhase (heq ▸ hworker) (fun _ heq => by cases heq) fun _ => rfl
    split
    · exact hdone h rfl
    · next row hrow =>
      dsimp only
      split
      · next hours =>
        refine hdone ?_ rfl
        exact (h.setJob _).modify_attempt
          (h.attempts.close hrow hours.1 (h.closing hworker rfl).ended _) (fun _ => rfl)
          fun _ _ hof => ⟨hof.incident, hof.owner, hof.epoch, hof.requests, hof.revises⟩
      · exact hdone h rfl
  · exact h

end Attempted

/-- Opening a job changes the jobs only. -/
theorem openJob_frame (w : World) (i : UUID) : ∃ jobs, (jobs.get i).isSome = true ∧
    w.openJob i = { w with store := { w.store with jobs := jobs } } ∧
    ∀ j, (jobs.get j).getD {} = w.store.jobOf j := by
  unfold openJob
  split
  · next job hjob => exact ⟨w.store.jobs, by rw [hjob]; rfl, rfl, fun _ => rfl⟩
  · next hnone =>
    refine ⟨_, by rw [Table.get_insert_self]; rfl, rfl, fun j => ?_⟩
    rw [Table.get_insert]
    split
    · next heq => rw [Store.jobOf, heq, hnone]; rfl
    · rfl

theorem reopenCap_frame (w : World) (i : UUID) :
    w.reopenCap i = w ∨ w.reopenCap i = w.setJob i fun job =>
      { job with consecutiveFailures := 0, failureWatermark := none } := by
  unfold reopenCap
  dsimp only
  split
  · exact .inr rfl
  · exact .inl rfl

theorem isSome_setJob {f : JobRow → JobRow} {j : UUID} :
    ((w.setJob i f).store.jobs.get j).isSome = (w.store.jobs.get j).isSome := by
  rw [setJob, Table.get_modify]
  split
  · rw [Option.isSome_map]
  · rfl

/-- The attempts and the jobs after the attempt that was running has ended. -/
theorem abandon_kept (h : w.Attempted) (i : UUID) :
    (∀ a, ((w.abandon i (w.running i)).attempts.get a).isSome = (w.attempts.get a).isSome) ∧
      ∀ j, ((w.abandon i (w.running i)).store.jobs.get j).isSome =
        (w.store.jobs.get j).isSome := by
  obtain ⟨-, heq⟩ | ⟨b, row, -, hrow, -, -, heq⟩ := abandon_cases h i
  · rw [heq]
    exact ⟨fun _ => rfl, fun _ => rfl⟩
  · rw [heq]
    refine ⟨fun a => ?_, fun j => isSome_setJob⟩
    simp only [countFailure, setJob, abandonOne, Table.get_modify]
    split
    · rw [Option.isSome_map]
    · rfl

/-- An operation of the store that keeps the jobs there and records no draft. -/
theorem Attempted.transact {α : Type} {f : Store → Except KnowledgeError (α × Store)}
    (h : w.Attempted) (hf : ∀ {done}, f w.store = .ok done →
      (∀ i, (w.store.jobs.get i).isSome = true → (done.2.jobs.get i).isSome = true) ∧
        ∀ {key}, done.2.Generated key → w.store.Generated key) : (w.transact f).Attempted := by
  unfold World.transact
  split
  · next done hdone =>
    obtain ⟨hjobs, hgenerated⟩ := hf hdone
    exact h.of_store hjobs fun hkey => .inl (hgenerated hkey)
  · exact h

theorem transition_kept {ids : String → UUID} {r : TransitionRequest}
    {done : ActionResult × Store} (hdone : w.store.transition ids r = .ok done) :
    (∀ i, (w.store.jobs.get i).isSome = true → (done.2.jobs.get i).isSome = true) ∧
      ∀ {key}, done.2.Generated key → w.store.Generated key := by
  obtain ⟨hgenerated, hjobs⟩ := Store.transition_jobs
    (show _ = Except.ok (done.1, done.2) from hdone)
  refine ⟨fun i hi => ?_, hgenerated⟩
  obtain heq | ⟨head, row, -, -, -, -, heq⟩ := hjobs
  · rw [heq]
    exact hi
  · rw [heq]
    split
    · rfl
    · exact hi

theorem beside_kept {s s' : Store} (h : s.Beside s') :
    (∀ i, (s.jobs.get i).isSome = true → (s'.jobs.get i).isSome = true) ∧
      ∀ {key}, s'.Generated key → s.Generated key :=
  ⟨fun _ hi => h.jobs ▸ hi, h.generated⟩

/-- **What holds of the attempts holds in every state.** -/
theorem step_attempted {event : Event} (hstep : system.Step w event w') (h : w.Attempted) :
    w'.Attempted := by
  obtain ⟨rfl, -⟩ := hstep
  cases event with
  | claim incidentId attemptId owner policy maxModelRequests leaseSeconds =>
    have hopened : (w.openJob incidentId).Attempted := h.openJob
    obtain heq | heq | ⟨hfresh, hrest⟩ :=
      w.claim_cases incidentId attemptId owner policy maxModelRequests leaseSeconds
    · exact (congrArg Attempted heq).mpr h
    · exact (congrArg Attempted heq).mpr hopened
    have hclosed := hopened.abandon incidentId
    obtain ⟨jobs, hjob, hframe, -⟩ := w.openJob_frame incidentId
    obtain ⟨hattempts, hjobs⟩ := abandon_kept hopened incidentId
    obtain heq | ⟨incident, watermark, -, -, -, heq⟩ := hrest
    · exact (congrArg Attempted heq).mpr (hclosed.setJob _)
    · have hcap := ((w.openJob incidentId).abandon incidentId
        ((w.openJob incidentId).running incidentId)).reopenCap_frame incidentId
      have hsame : (((w.openJob incidentId).abandon incidentId
          ((w.openJob incidentId).running incidentId)).reopenCap incidentId).attempts =
          ((w.openJob incidentId).abandon incidentId
            ((w.openJob incidentId).running incidentId)).attempts := by
        rcases hcap with heq | heq
        · rw [heq]
        · rw [heq]
          rfl
      refine (congrArg Attempted heq).mpr ((hclosed.reopenCap incidentId).takeLease ?_ ?_ ?_)
      · rw [hsame, ← Option.not_isSome_iff_eq_none, hattempts, hframe,
          Option.not_isSome_iff_eq_none]
        exact hfresh
      · have hopen : ((w.openJob incidentId).store.jobs.get incidentId).isSome = true := by
          rw [hframe]
          exact hjob
        obtain heq | heq := hcap
        · rw [heq, hjobs, hopen]
        · rw [heq, isSome_setJob, hjobs, hopen]
      · intro b other hget hincident
        rw [hsame] at hget
        exact abandon_ended hopened hget hincident
  | read a => exact h.read a
  | reserve a => exact h.reserve a
  | fail a errorCode => exact h.fail a errorCode
  | writeDraft a fresh draft => exact h.writeDraft a fresh draft
  | finish a => exact h.finish a
  | review ids r =>
    rw [after]
    split
    · exact h.transact transition_kept
    · exact h
  | revoke r =>
    exact h.transact (f := fun s => s.revoke r) fun {done} hdone =>
      beside_kept (.revoke (show _ = Except.ok (done.1, done.2) from hdone))
  | markStaleIn keys incidentId reason source =>
    exact h.transact (f := fun s => s.markStaleIn keys incidentId reason source)
      fun hdone => beside_kept (.markStaleIn hdone)
  | scanStale id n =>
    rw [after, scanStale]
    split
    · split
      · split
        · exact { h with }
        · exact h
      · exact h
    · exact h
  | compensate row owner =>
    rw [after, compensate]
    split
    · split
      · next marked hmarked =>
        obtain ⟨hjobs, hgenerated⟩ := transition_kept hmarked
        exact h.of_store hjobs fun hkey => .inl (hgenerated hkey)
      · exact h
    · exact h
  | incident id facts => exact h.of_store (fun _ hj => hj) .inl
  | tick elapsed =>
    exact { h with attempts := h.attempts.tick (Int.le.intro elapsed rfl) }

theorem Reachable.attempted (h : system.Reachable w) : w.Attempted :=
  h.invariant (P := Attempted) (fun _ hfresh => Fresh.attempted hfresh)
    fun hstep => step_attempted hstep

/-! ## Requests -/

theorem jobOf_openJob (w : World) (i j : UUID) :
    (w.openJob j).store.jobOf i = w.store.jobOf i := by
  obtain ⟨jobs, -, heq, hjobs⟩ := w.openJob_frame j
  rw [heq]
  exact hjobs i

theorem attempts_openJob (w : World) (j : UUID) : (w.openJob j).attempts = w.attempts := by
  obtain ⟨jobs, -, heq, -⟩ := w.openJob_frame j
  rw [heq]

theorem running_openJob (w : World) (i j : UUID) : (w.openJob j).running i = w.running i := by
  rw [running, running, attempts_openJob]

theorem abandoned_of_running (hw : w.Attempted) (hmem : a ∈ (w.running i).map Prod.fst) :
    ∃ row, (w.abandon i (w.running i)).attempts.get a = some row ∧ row.status = .abandoned := by
  obtain ⟨hnil, -⟩ | ⟨b, row, hrunning, hrow, -, -, heq⟩ := abandon_cases hw i
  · rw [hnil] at hmem
    cases hmem
  · rw [hrunning, List.map_singleton, List.mem_singleton] at hmem
    subst hmem
    rw [heq]
    exact ⟨_, (Table.get_modify_self ..).trans (by rw [hrow]; rfl), rfl⟩

theorem attempts_reopenCap (w : World) (j : UUID) : (w.reopenCap j).attempts = w.attempts := by
  obtain heq | heq := w.reopenCap_frame j
  · rw [heq]
  · rw [heq]
    rfl

theorem attempts_read (w : World) (a : UUID) : (w.read a).attempts = w.attempts := by
  unfold World.read
  split
  · split <;> rfl
  · rfl

theorem attempts_fail (w : World) (a : UUID) (errorCode : AttemptError) :
    (w.fail a errorCode).attempts = w.attempts := by
  unfold World.fail
  split <;> rfl

theorem attempts_writeDraft (w : World) (a fresh : UUID) (draft : Assembled) :
    (w.writeDraft a fresh draft).attempts = w.attempts := by
  unfold World.writeDraft
  split
  · split <;> rfl
  · rfl

theorem transact_cases {α : Type} {f : Store → Except KnowledgeError (α × Store)} (w : World) :
    w.transact f = w ∨
      ∃ done, f w.store = .ok done ∧ w.transact f = { w with store := done.2 } := by
  unfold transact
  split
  · next done hdone => exact .inr ⟨done, hdone, rfl⟩
  · exact .inl rfl

/-- What the end of a worker does: nothing, or its attempt is closed. -/
theorem finish_cases (hw : w.Attempted) (a : UUID) :
    w.finish a = w ∨
    (∃ worker, w.workers.get a = some worker ∧ w.finish a = w.setPhase a .done) ∨
    ∃ claim closing row, w.workers.get a = some ⟨claim, .closing closing⟩ ∧
      w.attempts.get a = some row ∧ row.status = .running ∧ row.incidentId = claim.incidentId ∧
      w.finish a = { (w.setJob claim.incidentId fun job =>
          { closedJob job closing ((closing.watermark.getD row.watermark).key row.revisesVersion)
              w.clock with leaseOwner := none, leaseUntil := none }) with
        attempts := w.attempts.modify a fun row =>
          { row with
            status := closing.status, errorCode := closing.errorCode
            finishedAt := some w.clock } }.setPhase a .done := by
  unfold World.finish
  split
  · next claim closing hworker =>
    obtain ⟨-, row, hrow, hof⟩ := hw.claim hworker
    rw [hrow]
    dsimp only
    split
    · next hours =>
      exact .inr (.inr ⟨claim, closing, row, hworker, rfl, hours.1, hof.incident, rfl⟩)
    · exact .inr (.inl ⟨_, hworker, rfl⟩)
  · exact .inl rfl

theorem attempts_transact {α : Type} {f : Store → Except KnowledgeError (α × Store)} (w : World) :
    (w.transact f).attempts = w.attempts := by
  unfold transact
  split <;> rfl

theorem attempts_scanStale (w : World) (id : UUID) (n : ℕ) :
    (w.scanStale id n).attempts = w.attempts := by
  unfold World.scanStale
  split
  · split
    · split <;> rfl
    · rfl
  · rfl

theorem attempts_compensate (w : World) (row : ScannedRow) (owner : UUID) :
    (w.compensate row owner).attempts = w.attempts := by
  unfold World.compensate
  split
  · split <;> rfl
  · rfl

/-- A claim counts no request. -/
theorem requests_claim {j attemptId owner : UUID} {policy : String}
    {maxModelRequests leaseSeconds : ℕ} (hw : w.Attempted) {row : AttemptRow}
    (hrow : w.attempts.get a = some row) : ∃ row',
      (w.claim j attemptId owner policy maxModelRequests leaseSeconds).attempts.get a = some row' ∧
        row'.modelRequests = row.modelRequests := by
  obtain heq | heq | ⟨hfresh, hrest⟩ :=
    w.claim_cases j attemptId owner policy maxModelRequests leaseSeconds
  · rw [heq]
    exact ⟨row, hrow, rfl⟩
  · rw [heq, attempts_openJob]
    exact ⟨row, hrow, rfl⟩
  have hopen : (w.openJob j).attempts.get a = some row := by rw [attempts_openJob, hrow]
  obtain ⟨row', hrow', hsame⟩ : ∃ row',
      ((w.openJob j).abandon j ((w.openJob j).running j)).attempts.get a = some row' ∧
        row'.modelRequests = row.modelRequests := by
    obtain ⟨-, heq⟩ | ⟨b, other, -, -, -, -, heq⟩ := abandon_cases (hw.openJob (i := j)) j
    · rw [heq]
      exact ⟨row, hopen, rfl⟩
    · rw [heq]
      obtain ⟨row', hrow', rfl | ⟨-, rfl⟩⟩ := exists_get_modify b (fun row : AttemptRow =>
        { row with
          status := .abandoned, errorCode := some .leaseLost
          finishedAt := some (w.openJob j).clock }) hopen
      · exact ⟨_, hrow', rfl⟩
      · exact ⟨_, hrow', rfl⟩
  refine ⟨row', ?_, hsame⟩
  obtain heq | ⟨incident, watermark, -, -, -, heq⟩ := hrest
  · rw [heq]
    exact hrow'
  · rw [heq]
    refine (Table.get_insert_ne _ _ ?_).trans ?_
    · rintro rfl
      rw [hfresh] at hrow
      cases hrow
    · dsimp only [World.setJob]
      rw [attempts_reopenCap]
      exact hrow'

/-- Only a reservation counts a request. -/
theorem requests_kept {event : Event} (hw : w.Attempted) {row : AttemptRow}
    (hrow : w.attempts.get a = some row) (hevent : ∀ b, event ≠ .reserve b) : ∃ row',
      (w.after event).attempts.get a = some row' ∧ row'.modelRequests = row.modelRequests := by
  have hsame : ∀ {attempts : Table UUID AttemptRow}, attempts = w.attempts →
      ∃ row', attempts.get a = some row' ∧ row'.modelRequests = row.modelRequests := by
    rintro _ rfl
    exact ⟨row, hrow, rfl⟩
  cases event with
  | claim => exact requests_claim hw hrow
  | read b => exact hsame (attempts_read w b)
  | reserve b => exact absurd rfl (hevent b)
  | fail b errorCode => exact hsame (attempts_fail w b errorCode)
  | writeDraft b fresh draft => exact hsame (attempts_writeDraft w b fresh draft)
  | finish b =>
    obtain heq | ⟨worker, -, heq⟩ | ⟨claim, closing, old, -, -, -, -, heq⟩ :=
      finish_cases hw b
    · exact hsame (by rw [after, heq])
    · exact hsame (by rw [after, heq]; rfl)
    · obtain ⟨row', hrow', hcases⟩ := exists_get_modify b (fun row : AttemptRow =>
        { row with
          status := closing.status, errorCode := closing.errorCode
          finishedAt := some w.clock }) hrow
      refine ⟨row', (congrArg (fun v : World => v.attempts.get a) heq).trans hrow', ?_⟩
      rcases hcases with rfl | ⟨-, rfl⟩ <;> rfl
  | review ids r =>
    refine hsame ?_
    rw [after]
    split
    · exact attempts_transact w
    · rfl
  | revoke r => exact hsame (attempts_transact w)
  | markStaleIn keys incidentId reason source => exact hsame (attempts_transact w)
  | scanStale id n => exact hsame (attempts_scanStale w id n)
  | compensate marked owner => exact hsame (attempts_compensate w marked owner)
  | incident id facts => exact hsame rfl
  | tick elapsed => exact hsame rfl

/-- **A request is reserved under the lease of its attempt.** -/
theorem request_reserved {event : Event} (hw : w.Attempted) {row row' : AttemptRow}
    (hrow : w.attempts.get a = some row) (hrow' : (w.after event).attempts.get a = some row')
    (hne : row'.modelRequests ≠ row.modelRequests) :
    event = .reserve a ∧ row'.modelRequests = row.modelRequests + 1 ∧ row.status = .running ∧
      (w.store.jobOf row.incidentId).leaseOwner = some row.leaseOwner ∧
      (w.store.jobOf row.incidentId).leaseEpoch = row.leaseEpoch ∧
      ∃ t, (w.store.jobOf row.incidentId).leaseUntil = some t ∧ w.clock < t := by
  by_cases hevent : ∃ b, event = .reserve b
  · obtain ⟨b, rfl⟩ := hevent
    simp only [after] at hrow'
    unfold World.reserve at hrow'
    have hkept : ∀ phase, (w.setPhase b phase).attempts.get a = some row' → False :=
      fun phase hget => hne (by rw [Option.some.inj (hget.symm.trans hrow)])
    split at hrow'
    · next claim input used hworker =>
      split at hrow'
      · split at hrow'
        · next reserved hreserved =>
          obtain ⟨found, hfound, hrunning, hheld, -, rfl⟩ := reserveModelRequest_some hreserved
          obtain ⟨rfl, claimed, hclaimed, hof⟩ := hw.claim hworker
          obtain ⟨rfl, rfl⟩ | ⟨-, hold⟩ := (Table.get_modify_eq_some hfound).1 hrow'
          · obtain rfl := Option.some.inj (hfound.symm.trans hrow)
            obtain rfl := Option.some.inj (hfound.symm.trans hclaimed)
            rw [leaseHeld, decide_eq_true_iff, Option.any_eq_true] at hheld
            obtain ⟨howner, hepoch, t, ht, hlt⟩ := hheld
            rw [hof.incident, hof.owner, hof.epoch]
            exact ⟨rfl, rfl, hrunning, howner, hepoch, t, ht, of_decide_eq_true hlt⟩
          · exact absurd (by rw [Option.some.inj (hold.symm.trans hrow)]) hne
        · exact (hkept _ hrow').elim
      · exact absurd (by rw [Option.some.inj (hrow'.symm.trans hrow)]) hne
    · exact absurd (by rw [Option.some.inj (hrow'.symm.trans hrow)]) hne
  · obtain ⟨kept, hget, hsame⟩ := requests_kept hw hrow fun b heq => hevent ⟨b, heq⟩
    rw [Option.some.inj (hrow'.symm.trans hget)] at hne
    exact absurd hsame hne

end World

end OpsPilot.Knowledge
