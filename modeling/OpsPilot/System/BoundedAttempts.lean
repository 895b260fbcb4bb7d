import OpsPilot.System.FailureCount

/-!
# Bounded generation attempts

* `Counting.claim`, `Counting.step`: every steady step keeps the count.
* **`World.attempts_bounded`**: one attempt on an incident runs at a time, an attempt reserves at
  most its own number of requests and each under its lease, and in a steady run at most three of the
  attempts opened in it end badly, and one that was there before.
* `World.four_badEnds`: a steady run with four.
-/

namespace OpsPilot.Knowledge

namespace World

variable {w w' : World} {i a : UUID}

/-! ## A claim -/

theorem currentKey_openJob (w : World) (i j : UUID) :
    (w.openJob j).currentKey i = w.currentKey i := by
  have hjob := jobOf_openJob w i j
  obtain ⟨jobs, -, heq, -⟩ := w.openJob_frame j
  rw [heq] at hjob ⊢
  simp only [currentKey, hjob]

namespace Counting

variable {policy : String} {old : UUID → Bool} {bad : List UUID}

/-- The attempt that a claim finds running is one more bad end. -/
theorem abandon (h : Counting i policy old bad w) (hw : w.Attempted) :
    Counting i policy old (bad ++ (w.running i).map Prod.fst) (w.abandon i (w.running i)) := by
  obtain ⟨hnil, heq⟩ | ⟨a, row, hrunning, hrow, hi, hopen, heq⟩ := abandon_cases hw i
  · rw [heq, hnil, List.map_nil, List.append_nil]
    exact h
  have hjob : ((w.abandonOne a).store.jobs.get i).isSome = true := hi ▸ hw.job hrow
  have hkey : ((w.abandonOne a).countFailure i (row.watermark.key row.revisesVersion)
      (some .leaseLost)).currentKey i = w.currentKey i := currentKey_setJob fun _ => rfl
  have hattempts : (w.abandon i (w.running i)).attempts = w.attempts.modify a fun row =>
      { row with
        status := .abandoned, errorCode := some .leaseLost, finishedAt := some w.clock } := by
    rw [heq]
    rfl
  have hclosed := h.close hw hrow hi hopen (by simp) true hattempts fun hnew => by
    obtain ⟨hopened, -, hleft⟩ := h.running hrow hi hopen hnew
    rw [failures_eq, hopened] at hleft
    rw [failures_eq, failures_eq, heq, hkey, hopened, countFailure, jobOf_setJob hjob]
    exact ⟨counted_countedFailure _ _ _ _ hleft, fun hlarge => by cases hlarge⟩
  rw [hrunning] at hclosed ⊢
  exact hclosed

theorem openJob (h : Counting i policy old bad w) (j : UUID) :
    Counting i policy old bad (w.openJob j) := by
  obtain ⟨jobs, -, heq, -⟩ := w.openJob_frame j
  refine h.of_attempts (attempts_openJob w j) (by rw [heq]) ?_ (currentKey_openJob w i j)
  rw [jobOf_openJob]
  exact ⟨rfl, rfl, rfl⟩

/-- **A claim of the incident.** -/
theorem claim {attemptId owner : UUID} {maxModelRequests leaseSeconds : ℕ}
    (h : Counting i policy old bad w) (hw : w.Attempted) :
    Counting i policy old
      (bad ++ w.endedBadly (.claim i attemptId owner policy maxModelRequests leaseSeconds) i)
      (w.after (.claim i attemptId owner policy maxModelRequests leaseSeconds)) := by
  obtain heq | heq | ⟨hfresh, hrest⟩ :=
    w.claim_cases i attemptId owner policy maxModelRequests leaseSeconds
  · have hafter : w.after (.claim i attemptId owner policy maxModelRequests leaseSeconds) = w := heq
    refine past ?_ ?_
    · rw [hafter]
      exact .of_attempts rfl ⟨rfl, rfl, rfl⟩
    · rw [hafter]
      exact h
  · have hafter : w.after (.claim i attemptId owner policy maxModelRequests leaseSeconds) =
        w.openJob i := heq
    refine past ?_ ?_
    · rw [hafter]
      refine .of_attempts (attempts_openJob w i) ?_
      rw [jobOf_openJob]
      exact ⟨rfl, rfl, rfl⟩
    · rw [hafter]
      exact h.openJob i
  have hopened : (w.openJob i).Attempted := hw.openJob
  have hclosed := (h.openJob i).abandon hopened
  have hrunning : ∀ {a}, a ∈ ((w.openJob i).running i).map Prod.fst → ∃ row,
      ((w.openJob i).abandon i ((w.openJob i).running i)).attempts.get a = some row ∧
        row.status = .abandoned := abandoned_of_running hopened
  have hended : ∀ {a row},
      ((w.openJob i).abandon i ((w.openJob i).running i)).attempts.get a = some row →
        row.incidentId = i → row.status ≠ .running := abandon_ended hopened
  obtain ⟨hattempts, hjobs⟩ := abandon_kept hopened i
  dsimp only at hrest
  generalize (w.openJob i).abandon i ((w.openJob i).running i) = closed at *
  have hnew : closed.attempts.get attemptId = none := by
    rw [← Option.not_isSome_iff_eq_none, hattempts, attempts_openJob, hfresh]
    simp
  obtain ⟨hkeep, hcounting⟩ : (∀ {a row}, closed.attempts.get a = some row →
      (w.claim i attemptId owner policy maxModelRequests leaseSeconds).attempts.get a = some row) ∧
      Counting i policy old (bad ++ ((w.openJob i).running i).map Prod.fst)
        (w.claim i attemptId owner policy maxModelRequests leaseSeconds) := by
    obtain heq | ⟨incident, watermark, hincident, hcurrent, hdue, heq⟩ := hrest
    · rw [heq]
      exact ⟨fun hget => hget, hclosed.setJob (fun _ => rfl) fun _ _ => ⟨rfl, rfl, rfl⟩⟩
    · rw [heq]
      have hsame := closed.attempts_reopenCap i
      have hjob : (closed.store.jobs.get i).isSome = true := by
        obtain ⟨jobs, hjob, hopen, -⟩ := w.openJob_frame i
        rw [hjobs, hopen]
        exact hjob
      obtain ⟨hreopened, hleft⟩ := hclosed.reopenCap hended hjob hdue
      refine ⟨fun hget => ?_, hreopened.takeLease ?_ ?_ ?_ ?_ hcurrent hleft⟩
      · refine Table.get_insert_of_get _ ?_ ?_
        · rw [← hnew, ← hsame]
          rfl
        · rw [← hget, ← hsame]
          rfl
      · rw [hsame]
        exact hended
      · obtain heq | heq := closed.reopenCap_frame i
        · rw [heq]
          exact hjob
        · rw [heq, isSome_setJob]
          exact hjob
      · rw [hsame]
        exact hnew
      · obtain heq | heq := closed.reopenCap_frame i
        · rw [heq]
          exact hincident
        · rw [heq]
          exact hincident
  have hall : w.endedBadly (.claim i attemptId owner policy maxModelRequests leaseSeconds) i =
      ((w.openJob i).running i).map Prod.fst := by
    rw [endedBadly, ← running_openJob w i i, List.filter_eq_self]
    intro a hmem
    obtain ⟨row, hget, habandoned⟩ := hrunning hmem
    rw [after, hkeep hget]
    simp [habandoned]
  rw [hall]
  exact hcounting

end Counting

namespace Counting

variable {policy : String} {old : UUID → Bool} {bad : List UUID}

/-- A claim of another incident leaves the attempts on this one. -/
theorem claim_ne {j attemptId owner : UUID} {inputPolicyVersion : String}
    {maxModelRequests leaseSeconds : ℕ} (hw : w.Attempted) (hne : i ≠ j) :
    Untouched i w (w.claim j attemptId owner inputPolicyVersion maxModelRequests leaseSeconds) ∧
      ∀ {a row worker}, w.attempts.get a = some row →
        (w.claim j attemptId owner inputPolicyVersion maxModelRequests leaseSeconds).workers.get a =
          some worker → w.workers.get a = some worker := by
  have hopened : Untouched i w (w.openJob j) := by
    refine .of_attempts (attempts_openJob w j) ?_
    rw [jobOf_openJob]
    exact ⟨rfl, rfl, rfl⟩
  have hworkers : (w.openJob j).workers = w.workers := by
    obtain ⟨jobs, -, heq, -⟩ := w.openJob_frame j
    rw [heq]
  obtain heq | heq | ⟨hfresh, hrest⟩ :=
    w.claim_cases j attemptId owner inputPolicyVersion maxModelRequests leaseSeconds
  · rw [heq]
    exact ⟨.of_attempts rfl ⟨rfl, rfl, rfl⟩, fun _ hworker => hworker⟩
  · rw [heq, hworkers]
    exact ⟨hopened, fun _ hworker => hworker⟩
  have hclosed : Untouched i (w.openJob j)
      ((w.openJob j).abandon j ((w.openJob j).running j)) ∧
      ((w.openJob j).abandon j ((w.openJob j).running j)).workers = w.workers := by
    obtain ⟨-, heq⟩ | ⟨a, row, -, hrow, hj, -, heq⟩ := abandon_cases (hw.openJob (i := j)) j
    · rw [heq]
      exact ⟨.of_attempts rfl ⟨rfl, rfl, rfl⟩, hworkers⟩
    · have hattempts : ((w.openJob j).abandon j ((w.openJob j).running j)).attempts =
          (w.openJob j).attempts.modify a fun row =>
            { row with
              status := .abandoned, errorCode := some .leaseLost
              finishedAt := some (w.openJob j).clock } := by
        rw [heq]
        rfl
      refine ⟨.other hrow rfl (fun hi => hne (hi.symm.trans hj)) hattempts ?_, ?_⟩
      · rw [heq]
        exact jobOf_setJob_ne hne
      · rw [heq]
        exact hworkers
  obtain ⟨hattempts, -⟩ := abandon_kept (hw.openJob (i := j)) j
  dsimp only at hrest
  generalize (w.openJob j).abandon j ((w.openJob j).running j) = closed at *
  obtain ⟨hclosed, hsame⟩ := hclosed
  have hthere := hopened.trans hclosed
  obtain heq | ⟨incident, watermark, -, -, -, heq⟩ := hrest
  · rw [heq]
    refine ⟨hthere.trans (.of_attempts rfl ?_), fun _ hworker => hsame ▸ hworker⟩
    rw [jobOf_setJob_ne hne]
    exact ⟨rfl, rfl, rfl⟩
  · rw [heq]
    have hreopened : Untouched i closed (closed.reopenCap j) := by
      refine .of_attempts (closed.attempts_reopenCap j) ?_
      obtain heq | heq := closed.reopenCap_frame j
      · rw [heq]
        exact ⟨rfl, rfl, rfl⟩
      · rw [heq, jobOf_setJob_ne hne]
        exact ⟨rfl, rfl, rfl⟩
    have hnew : (closed.reopenCap j).attempts.get attemptId = none := by
      rw [closed.attempts_reopenCap, ← Option.not_isSome_iff_eq_none, hattempts, attempts_openJob,
        hfresh]
      simp
    refine ⟨(hthere.trans hreopened).trans (.insert hnew (Ne.symm hne) rfl (jobOf_setJob_ne hne)),
      fun hget hworker => ?_⟩
    obtain ⟨rfl, -⟩ | ⟨-, hold⟩ := Table.get_insert_eq_some.1 hworker
    · rw [hfresh] at hget
      cases hget
    · have hkept : (closed.reopenCap j).workers = closed.workers := by
        obtain heq | heq := closed.reopenCap_frame j
        · rw [heq]
        · rw [heq]
          rfl
      rw [← hsame, ← hkept]
      exact hold

/-! ## The other steps -/

/-- A return of a reviewable version ends it, so the job of the incident stays. -/
theorem transition_jobOf {s s' : Store} {ids : String → UUID} {r : TransitionRequest}
    {result : ActionResult} (hdone : s.transition ids r = .ok (result, s'))
    (hsame : ∀ k, s'.ReviewableVersion i k ↔ s.ReviewableVersion i k) :
    s'.jobOf i = s.jobOf i := by
  obtain ⟨-, hjobs | ⟨head, row, hhead, hrow, hreview, hreturned, hjobs⟩⟩ :=
    Store.transition_jobs hdone
  · rw [Store.jobOf, hjobs, Store.jobOf]
  · rw [Store.jobOf, hjobs, if_neg, Store.jobOf]
    intro hi
    have hbefore : s.ReviewableVersion i (r.postmortemId, r.version) :=
      ⟨head, row, hhead, hi.symm, hrow, by rw [hreview]; rfl⟩
    obtain ⟨-, row', -, -, hrow', hstate⟩ := (hsame _).2 hbefore
    rw [hreturned] at hrow'
    obtain rfl := Option.some.inj hrow'
    cases hstate

/-- A step beside the attempts, the workers and the job of the incident. -/
theorem beside {event : Event} (h : Counting i policy old bad w) (hsteady : Steady i policy w event)
    (hattempts : (w.after event).attempts = w.attempts)
    (hworkers : (w.after event).workers = w.workers)
    (hjob : (w.after event).store.jobOf i = w.store.jobOf i) :
    Counting i policy old (bad ++ w.endedBadly event i) (w.after event) := by
  refine past (.of_attempts hattempts ?_) (h.of_attempts hattempts hworkers ?_ hsteady.key)
  all_goals
    rw [hjob]
    exact ⟨rfl, rfl, rfl⟩

/-- An operation of the store that keeps the job of the incident, or is refused. -/
theorem of_store {event : Event} (h : Counting i policy old bad w)
    (hsteady : Steady i policy w event)
    (hstore : w.after event = w ∨ ∃ s, w.after event = { w with store := s } ∧
      s.jobOf i = w.store.jobOf i) :
    Counting i policy old (bad ++ w.endedBadly event i) (w.after event) := by
  obtain heq | ⟨s, heq, hjob⟩ := hstore
  · exact h.beside hsteady (by rw [heq]) (by rw [heq]) (by rw [heq])
  · refine h.beside hsteady (by rw [heq]) (by rw [heq]) ?_
    rw [heq]
    exact hjob

/-- A step of a worker that ends no attempt. -/
theorem going {event : Event} (hattempts : (w.after event).attempts = w.attempts)
    (hcounting : Counting i policy old bad (w.after event)) :
    Counting i policy old (bad ++ w.endedBadly event i) (w.after event) := by
  rw [endedBadly_eq_nil fun hget _ hrunning => ⟨_, hattempts ▸ hget, hrunning⟩, List.append_nil]
  exact hcounting

theorem running_reserve {row : AttemptRow} (hrow : w.attempts.get a = some row) (b : UUID) :
    ∃ row', (w.reserve b).attempts.get a = some row' ∧ row'.status = row.status := by
  unfold World.reserve
  split
  · split
    · split
      · next reserved hreserved =>
        obtain ⟨-, -, -, -, -, rfl⟩ := reserveModelRequest_some hreserved
        obtain ⟨row', hrow', rfl | ⟨-, rfl⟩⟩ := exists_get_modify _ _ hrow
        · exact ⟨_, hrow', rfl⟩
        · exact ⟨_, hrow', rfl⟩
      · exact ⟨row, hrow, rfl⟩
    · exact ⟨row, hrow, rfl⟩
  · exact ⟨row, hrow, rfl⟩

/-- **Every steady step keeps the count.** -/
theorem step {event : Event} (h : Counting i policy old bad w) (hw : w.Attempted)
    (hsteady : Steady i policy w event) :
    Counting i policy old (bad ++ w.endedBadly event i) (w.after event) := by
  cases event with
  | claim j attemptId owner inputPolicyVersion maxModelRequests leaseSeconds =>
    by_cases hne : i = j
    · subst hne
      obtain rfl := hsteady.policy rfl
      exact h.claim hw
    · obtain ⟨hsame, hworkers⟩ := claim_ne hw hne
      exact past hsame (h.untouched hsame hsteady.key fun hget hi hrunning hnew hworker =>
        h.worker hget hi hrunning hnew (hworkers hget hworker))
  | read a => exact going (attempts_read w a) (h.read hw a)
  | reserve a =>
    have hkept : ∀ {b row}, w.attempts.get b = some row → row.incidentId = i →
        row.status = .running → ∃ row', (w.after (.reserve a)).attempts.get b = some row' ∧
          row'.status = .running := fun hget _ hrunning => by
      obtain ⟨row', hget', heq⟩ := running_reserve hget a
      exact ⟨row', hget', heq.trans hrunning⟩
    rw [endedBadly_eq_nil hkept, List.append_nil]
    exact h.reserve a
  | fail a errorCode => exact going (attempts_fail w a errorCode) (h.fail a errorCode)
  | writeDraft a fresh draft =>
    exact going (attempts_writeDraft w a fresh draft) (h.writeDraft hw hsteady)
  | finish a => exact h.finish hw hsteady
  | review ids r =>
    have hreviewable := hsteady.reviewable
    refine h.of_store hsteady ?_
    simp only [after] at hreviewable ⊢
    split at hreviewable
    · next hactor =>
      rw [if_pos hactor]
      obtain heq | ⟨done, hdone, heq⟩ := transact_cases w
      · exact .inl heq
      · rw [heq] at hreviewable
        exact .inr ⟨_, heq, transition_jobOf (show _ = Except.ok (done.1, done.2) from hdone)
          hreviewable⟩
    · next hactor => exact .inl (if_neg hactor)
  | revoke r =>
    refine h.of_store hsteady ?_
    obtain heq | ⟨done, hdone, heq⟩ := transact_cases (f := fun s => s.revoke r) w
    · exact .inl heq
    · have hjobs := (Store.Beside.revoke (show _ = Except.ok (done.1, done.2) from hdone)).jobs
      exact .inr ⟨_, heq, by rw [Store.jobOf, hjobs, Store.jobOf]⟩
  | markStaleIn keys incidentId reason source =>
    refine h.of_store hsteady ?_
    obtain heq | ⟨done, hdone, heq⟩ :=
      transact_cases (f := fun s => s.markStaleIn keys incidentId reason source) w
    · exact .inl heq
    · have hjobs := (Store.Beside.markStaleIn hdone).jobs
      exact .inr ⟨_, heq, by rw [Store.jobOf, hjobs, Store.jobOf]⟩
  | scanStale id n =>
    have hafter : ∃ scanned, w.after (.scanStale id n) = { w with scanned := scanned } := by
      rw [after, scanStale]
      split
      · split
        · split
          · exact ⟨_, rfl⟩
          · exact ⟨w.scanned, rfl⟩
        · exact ⟨w.scanned, rfl⟩
      · exact ⟨w.scanned, rfl⟩
    obtain ⟨scanned, heq⟩ := hafter
    exact h.beside hsteady (by rw [heq]) (by rw [heq]) (by rw [heq])
  | compensate row owner =>
    have hreviewable := hsteady.reviewable
    refine h.of_store hsteady ?_
    simp only [after, compensate] at hreviewable ⊢
    split at hreviewable
    · next hscanned =>
      rw [if_pos hscanned]
      split at hreviewable
      · next done hdone =>
        exact .inr ⟨_, rfl, transition_jobOf (show _ = Except.ok (done.1, done.2) from hdone)
          hreviewable⟩
      · exact .inl rfl
    · next hscanned => exact .inl (if_neg hscanned)
  | incident id facts => exact h.beside hsteady rfl rfl rfl
  | tick elapsed => exact h.beside hsteady rfl rfl rfl

end Counting

/-! ## Steady runs -/

/-- A run in which nothing moves that a new count of the failures would need. -/
def SteadyRun (i : UUID) (policy : String) : World → List Event → Prop
  | _, [] => True
  | w, event :: events => Steady i policy w event ∧ SteadyRun i policy (w.after event) events

namespace Counting

variable {policy : String} {old : UUID → Bool} {bad : List UUID}

/-- Before a steady run nothing has been counted. -/
theorem start (w : World) (i : UUID) (policy : String) :
    Counting i policy (fun a => (w.attempts.get a).isSome) [] w where
  there hold := hold
  carried _ _ _ _ := rfl
  olds := Nat.zero_le _
  news := Nat.zero_le _
  most := Nat.zero_le _
  reopened hne := absurd rfl hne
  running hget _ _ hnew := by
    rw [hget] at hnew
    cases hnew
  worker hget _ _ hnew := by
    rw [hget] at hnew
    cases hnew

/-- **A steady run keeps the count.** -/
theorem run {events : List Event} (hrun : system.Run w events w') (hw : w.Attempted)
    (hsteady : SteadyRun i policy w events) (h : Counting i policy old bad w) :
    Counting i policy old (bad ++ badEnds i w events) w' := by
  induction hrun generalizing bad with
  | nil w =>
    rw [badEnds, List.append_nil]
    exact h
  | cons hstep _ ih =>
    obtain ⟨rfl, -⟩ := id hstep
    rw [badEnds, ← List.append_assoc]
    exact ih (step_attempted hstep hw) hsteady.2 (h.step hw hsteady.1)

end Counting

/-- **Generation attempts are bounded.** At most one attempt on an incident runs; an attempt
reserves at most its own number of requests, each while its lease is held; in a steady run at most
three of the attempts opened in it end badly, and at most one that was there before; and both
languages count under one key. -/
theorem attempts_bounded (h : system.Reachable w) (i : UUID) :
    (∀ a b row other, w.attempts.get a = some row → w.attempts.get b = some other →
      row.incidentId = i → other.incidentId = i → row.status = .running →
      other.status = .running → a = b) ∧
    (∀ a row, w.attempts.get a = some row → row.modelRequests ≤ row.maxModelRequests) ∧
    (∀ event a row row', w.attempts.get a = some row →
      (w.after event).attempts.get a = some row' → row'.modelRequests ≠ row.modelRequests →
      row'.modelRequests = row.modelRequests + 1 ∧ row.status = .running ∧
        (w.store.jobOf row.incidentId).leaseOwner = some row.leaseOwner ∧
        (w.store.jobOf row.incidentId).leaseEpoch = row.leaseEpoch ∧
        ∃ t, (w.store.jobOf row.incidentId).leaseUntil = some t ∧ w.clock < t) ∧
    (∀ policy events w', system.Run w events w' → SteadyRun i policy w events →
      ((badEnds i w events).filter fun a => (w.attempts.get a).isNone).length ≤
          maxAttemptsPerWatermark ∧
        ((badEnds i w events).filter fun a => (w.attempts.get a).isSome).length ≤ 1) ∧
    ∀ (watermark : Watermark) (evidenceSha256 : String) (incident : Incident)
      (revisesVersion pending : Option ℕ),
      keyOf (watermark.json evidenceSha256) revisesVersion =
          some (watermarkKey watermark revisesVersion) ∧
        (watermarkKey watermark revisesVersion = incident.keySql pending ↔
          watermark.key revisesVersion = incident.failureKey pending) := by
  have hw := Reachable.attempted h
  refine ⟨fun a b row other hrow hother hi hi' hrunning hrunning' => ?_,
    fun a row hrow => (hw.attempts.row hrow).budget,
    fun event a row row' hrow hrow' hne => (request_reserved hw hrow hrow' hne).2,
    fun policy events w' hrun hsteady => ?_,
    fun watermark evidenceSha256 incident revisesVersion pending =>
      ⟨keyOf_json .., watermarkKey_eq_keySql ..⟩⟩
  · exact hw.attempts.single hrow hother (hi.trans hi'.symm) hrunning hrunning'
  · have hcount := Counting.run hrun hw hsteady (.start w i policy)
    rw [List.nil_append] at hcount
    have hmost := hcount.most
    simp only [Option.not_isSome] at hmost
    exact ⟨hmost, hcount.olds⟩

/-! ## A run of failures -/

/-- A step is steady where no version was drafted. -/
def steadyStep (i : UUID) (policy : String) (w : World) (event : Event) : Bool :=
  decide ((w.after event).currentKey i = w.currentKey i) &&
    (w.store.versions.rows.isEmpty && ((w.after event).store.versions.rows.isEmpty &&
      match event with
      | .claim _ _ _ inputPolicyVersion _ _ => decide (inputPolicyVersion = policy)
      | .finish a => (w.attempts.get a).all fun row => row.startedAt < w.clock
      | _ => true))

/-- Every step of a run is steady. -/
def steadyEvents (i : UUID) (policy : String) : World → List Event → Bool
  | _, [] => true
  | w, event :: events =>
    steadyStep i policy w event && steadyEvents i policy (w.after event) events

theorem not_reviewable {s : Store} (h : s.versions.rows.isEmpty = true) (k : UUID × ℕ) :
    ¬ s.ReviewableVersion i k := by
  rintro ⟨-, row, -, -, hrow, -⟩
  rw [List.isEmpty_iff] at h
  have hmem := Table.mem_rows_iff.2 hrow
  rw [h] at hmem
  cases hmem

theorem steady_of_step {policy : String} {event : Event}
    (h : steadyStep i policy w event = true) : Steady i policy w event := by
  simp only [steadyStep, Bool.and_eq_true, decide_eq_true_eq] at h
  obtain ⟨hkey, hbefore, hafter, hevent⟩ := h
  refine ⟨hkey, fun k => iff_of_false (not_reviewable hafter k) (not_reviewable hbefore k), ?_, ?_⟩
  · rintro attemptId owner inputPolicyVersion maxModelRequests leaseSeconds rfl
    exact of_decide_eq_true hevent
  · rintro a row rfl hrow -
    dsimp only at hevent
    rw [hrow] at hevent
    simpa using hevent

theorem steadyRun_of_events {policy : String} {events : List Event}
    (h : steadyEvents i policy w events = true) : SteadyRun i policy w events := by
  induction events generalizing w with
  | nil => exact trivial
  | cons event events ih =>
    rw [steadyEvents, Bool.and_eq_true] at h
    exact ⟨steady_of_step h.1, ih h.2⟩

/-- An attempt that fails a moment after it was claimed. -/
def failingAttempt (a : UUID) : List Event :=
  [.claim 1 a (a + 100) "v4" 2 900, .read a, .tick 1, .fail a .modelUnavailable, .finish a]

/-- A worker crashes, and its incident moves on before its lease lapses. -/
def carriedEvents : List Event :=
  [.claim 1 10 110 "v4" 2 900, .incident 1
    { controlGeneration := 2, observationGeneration := 1, currentRunId := some 5
      runs := [(5, .completed)], inputs := [1]
      sessions := [⟨3, .completed, 1, [4]⟩] }]

/-- Its lease lapses, and three more attempts fail, each after its backoff. -/
def cappedEvents : List Event :=
  .tick 901000000 :: failingAttempt 11 ++ .tick 61000000 :: failingAttempt 12 ++
    .tick 121000000 :: failingAttempt 13

theorem carried_reachable : system.Reachable (carriedEvents.foldl after lateWriterStart) := by
  refine ⟨lateWriterStart, carriedEvents, ⟨⟨rfl, rfl, rfl, rfl, rfl, rfl, rfl⟩, rfl, rfl, rfl⟩, ?_⟩
  refine .cons ⟨rfl, fun id facts heq => by cases heq⟩ (.single ⟨rfl, ?_⟩)
  rintro id facts ⟨⟩ old hold
  have hstart : ((lateWriterStart.after (.claim 1 10 110 "v4" 2 900)).store.incidents.get 1) = some
      { controlGeneration := 1, observationGeneration := 1, currentRunId := some 5
        runs := [(5, .completed)], inputs := [1]
        sessions := [⟨3, .completed, 1, [4]⟩] } := by
    obtain ⟨jobs, hjobs⟩ := (claim_quiet lateWriterStart 1 10 110 "v4" 2 900).jobs
    exact congrArg (fun s : Store => s.incidents.get 1) hjobs
  obtain rfl := Option.some.inj (hold.symm.trans hstart)
  exact ⟨by decide, le_rfl, le_rfl, fun _ => rfl, le_rfl, .refl _⟩

theorem cappedEvents_badEnds :
    badEnds 1 (carriedEvents.foldl after lateWriterStart) cappedEvents = [10, 11, 12, 13] := by
  decide +kernel

theorem cappedEvents_steady :
    SteadyRun 1 "v4" (carriedEvents.foldl after lateWriterStart) cappedEvents :=
  steadyRun_of_events (by decide +kernel)

theorem attempts_bounded_capped :
    ((badEnds 1 (carriedEvents.foldl after lateWriterStart) cappedEvents).filter fun a =>
        ((carriedEvents.foldl after lateWriterStart).attempts.get a).isNone).length ≤
      maxAttemptsPerWatermark :=
  ((attempts_bounded carried_reachable 1).2.2.2.1 "v4" cappedEvents _
    (run_foldl _ (by simp [cappedEvents, failingAttempt])) cappedEvents_steady).1

/-- **Four attempts end badly while nothing moves**, one of them opened before. -/
theorem four_badEnds :
    ¬ ∀ (w w' : World) (i : UUID) (policy : String) (events : List Event),
      system.Reachable w → system.Run w events w' → SteadyRun i policy w events →
        (badEnds i w events).length ≤ maxAttemptsPerWatermark := by
  intro h
  have hle := h _ _ 1 "v4" cappedEvents carried_reachable
    (run_foldl _ (by simp [cappedEvents, failingAttempt])) cappedEvents_steady
  rw [cappedEvents_badEnds] at hle
  exact absurd hle (by decide)

end World

end OpsPilot.Knowledge
