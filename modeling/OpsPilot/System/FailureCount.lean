import OpsPilot.System.Attempts

/-!
# Counted failures

A job counts the attempts that ended badly under its failure key: when a worker closes its attempt,
when a claim finds one still running, and afresh when the input policy of a capped incident changes.

* `World.badEnds`: the attempts on an incident that end failed, abandoned or with failed citations
  in a run.
* `World.Steady`: a step that moves nothing a new count would need.
* `World.Counting`: how far the count has come, and what the running attempt goes by.
* `Counting.close`, `Counting.finish`: an attempt ends. `Counting.reopenCap`, `Counting.takeLease`:
  a claim counts afresh and opens a new one.
-/

namespace OpsPilot.Knowledge

namespace World

variable {w w' : World} {i a : UUID}

/-! ## Attempts that end badly -/

/-- The failure key of an incident, as it is. -/
def currentKey (w : World) (i : UUID) : Option FailureKey :=
  (w.store.incidents.get i).map fun incident =>
    incident.failureKey (w.store.jobOf i).pendingRegenerationVersion

/-- The worker closes its attempt with a draft whose citations failed. -/
def citationsFailed (w : World) (attemptId : UUID) : Bool :=
  (w.workers.get attemptId).any fun worker => match worker.phase with
    | .closing closing => closing.citationsFailed
    | _ => false

/-- The attempts on an incident that an event ends failed, abandoned or with failed citations. -/
def endedBadly (w : World) (event : Event) (i : UUID) : List UUID :=
  ((w.running i).map Prod.fst).filter fun a => ((w.after event).attempts.get a).any fun row =>
    row.status = .failed ∨ row.status = .abandoned ∨
      row.status = .succeeded ∧ w.citationsFailed a = true

/-- The attempts on an incident that end so in a run. -/
def badEnds (i : UUID) : World → List Event → List UUID
  | _, [] => []
  | w, event :: events => w.endedBadly event i ++ badEnds i (w.after event) events

/-- Nothing moves that a new count of the failures would need: not the failure key of the incident,
not its reviewable versions, not the input policy of the claims; and an attempt takes time. -/
structure Steady (i : UUID) (policy : String) (w : World) (event : Event) : Prop where
  key : (w.after event).currentKey i = w.currentKey i
  reviewable : ∀ k, (w.after event).store.ReviewableVersion i k ↔ w.store.ReviewableVersion i k
  policy : ∀ {attemptId owner inputPolicyVersion maxModelRequests leaseSeconds},
    event = .claim i attemptId owner inputPolicyVersion maxModelRequests leaseSeconds →
      inputPolicyVersion = policy
  time : ∀ {a row}, event = .finish a → w.attempts.get a = some row → row.incidentId = i →
    row.startedAt < w.clock

/-- The failures counted under the key of the incident. -/
def failures (w : World) (i : UUID) : ℕ :=
  if (w.store.jobOf i).failureWatermark = w.currentKey i then
    (w.store.jobOf i).consecutiveFailures
  else 0

/-- The latest attempt on the incident with too large an input ran under the policy. -/
def LatestBy (w : World) (i : UUID) (policy : String) : Prop :=
  ∃ a row, w.attempts.get a = some row ∧ row.incidentId = i ∧
    row.errorCode = some .inputTooLarge ∧ row.inputPolicyVersion = policy ∧
    ∀ {b other}, w.attempts.get b = some other → b ≠ a → other.incidentId = i →
      other.errorCode = some .inputTooLarge → other.finishedAt.getD 0 < row.finishedAt.getD 0

variable {f : JobRow → JobRow} {j : UUID}

theorem jobOf_setJob (hjob : (w.store.jobs.get i).isSome = true) :
    (w.setJob i f).store.jobOf i = f (w.store.jobOf i) := by
  obtain ⟨job, hget⟩ := Option.isSome_iff_exists.1 hjob
  simp only [setJob, Store.jobOf, Table.get_modify_self, hget, Option.map_some, Option.getD_some]

theorem jobOf_setJob_ne (hne : i ≠ j) :
    (w.setJob j f).store.jobOf i = w.store.jobOf i := by
  simp only [setJob, Store.jobOf, Table.get_modify_ne _ _ hne]

/-- A rewrite of the job that keeps the version it waits for keeps the key. -/
theorem currentKey_setJob
    (hf : ∀ job, (f job).pendingRegenerationVersion = job.pendingRegenerationVersion) :
    (w.setJob j f).currentKey i = w.currentKey i := by
  have hpending : ((w.setJob j f).store.jobOf i).pendingRegenerationVersion =
      (w.store.jobOf i).pendingRegenerationVersion := by
    by_cases hij : i = j
    · subst hij
      cases hjob : w.store.jobs.get i with
      | none => simp only [setJob, Store.jobOf, Table.get_modify_self, hjob, Option.map_none]
      | some job =>
        rw [jobOf_setJob (by rw [hjob]; rfl), hf]
    · rw [jobOf_setJob_ne hij]
  simp only [currentKey, hpending]
  rfl

/-- How far the count has come in a steady run: the attempts that ended badly, those that were
there before the run apart from the new ones. -/
structure Counting (i : UUID) (policy : String) (old : UUID → Bool) (bad : List UUID) (w : World) :
    Prop where
  there : ∀ {a}, old a = true → (w.attempts.get a).isSome = true
  carried : ∀ {a row}, w.attempts.get a = some row → row.incidentId = i → row.status = .running →
    old a = true → bad = []
  olds : (bad.filter fun a => old a).length ≤ 1
  news : (bad.filter fun a => !old a).length ≤ w.failures i
  most : (bad.filter fun a => !old a).length ≤ maxAttemptsPerWatermark
  reopened : bad.filter (fun a => !old a) ≠ [] →
    (w.store.jobOf i).lastErrorCode = some .inputTooLarge → w.LatestBy i policy
  running : ∀ {a row}, w.attempts.get a = some row → row.incidentId = i → row.status = .running →
    old a = false → w.currentKey i = some (row.watermark.key row.revisesVersion) ∧
      row.inputPolicyVersion = policy ∧ w.failures i < maxAttemptsPerWatermark
  worker : ∀ {a row worker}, w.attempts.get a = some row → row.incidentId = i →
    row.status = .running → old a = false → w.workers.get a = some worker →
      worker.phase.Under (w.currentKey i) row.revisesVersion

/-- The query finds the latest row, if one is later than all others. -/
theorem foldr_latest {row : AttemptRow} {rows : List AttemptRow}
    (hlatest : ∀ other ∈ rows, other = row ∨ other.finishedAt.getD 0 < row.finishedAt.getD 0) :
    let latest := rows.foldr (fun row latest => match latest with
      | none => some row
      | some other =>
        if other.finishedAt.getD 0 < row.finishedAt.getD 0 ∨
            other.finishedAt.getD 0 = row.finishedAt.getD 0 ∧ other.startedAt < row.startedAt then
          some row
        else some other) none
    (row ∈ rows → latest = some row) ∧ ∀ found, latest = some found → found ∈ rows := by
  induction rows with
  | nil => exact ⟨fun h => absurd h List.not_mem_nil, fun _ h => absurd h (by simp)⟩
  | cons e rest ih =>
    obtain ⟨ihrow, ihmem⟩ := ih fun other hmem => hlatest other (List.mem_cons_of_mem _ hmem)
    have he := hlatest e List.mem_cons_self
    rw [List.foldr_cons]
    generalize List.foldr _ none rest = latest at ihrow ihmem ⊢
    cases latest with
    | none =>
      refine ⟨fun hmem => ?_, fun found hfound => ?_⟩
      · rcases List.mem_cons.1 hmem with rfl | hrest
        · rfl
        · cases ihrow hrest
      · rw [← Option.some.inj hfound]
        exact List.mem_cons_self
    | some other =>
      have hother := ihmem other rfl
      dsimp only
      refine ⟨fun hmem => ?_, fun found hfound => ?_⟩
      · by_cases hrest : row ∈ rest
        · obtain rfl := Option.some.inj (ihrow hrest)
          rcases he with rfl | hlt
          · rw [ite_self]
          · rw [if_neg]
            rintro (hlt' | ⟨heq, -⟩)
            · exact lt_asymm hlt hlt'
            · exact hlt.ne heq.symm
        · obtain rfl := (List.mem_cons.1 hmem).resolve_right hrest
          have hlt := (hlatest other (List.mem_cons_of_mem _ hother)).resolve_left
            fun heq => hrest (heq ▸ hother)
          rw [if_pos (.inl hlt)]
      · split at hfound
        · rw [← Option.some.inj hfound]
          exact List.mem_cons_self
        · rw [← Option.some.inj hfound]
          exact List.mem_cons_of_mem _ hother

/-- The latest attempt by its times is the one the query finds. -/
theorem LatestBy.latestTooLarge {policy : String} (h : w.LatestBy i policy) :
    (w.latestTooLarge i).map AttemptRow.inputPolicyVersion = some policy := by
  obtain ⟨a, row, hget, hincident, hcode, rfl, hlatest⟩ := h
  have hmem : row ∈ (w.attempts.select fun _ row =>
      row.incidentId = i ∧ row.errorCode = some .inputTooLarge).map Prod.snd :=
    List.mem_map.2 ⟨(a, row), Table.mem_select_iff.2 ⟨hget, by simp [hincident, hcode]⟩, rfl⟩
  have hothers : ∀ other ∈ (w.attempts.select fun _ row =>
      row.incidentId = i ∧ row.errorCode = some .inputTooLarge).map Prod.snd,
      other = row ∨ other.finishedAt.getD 0 < row.finishedAt.getD 0 := by
    intro other hother
    obtain ⟨⟨b, other⟩, hselect, rfl⟩ := List.mem_map.1 hother
    obtain ⟨hget', hcond⟩ := Table.mem_select_iff.1 hselect
    rw [decide_eq_true_iff] at hcond
    by_cases hb : b = a
    · subst hb
      exact .inl (Option.some.inj (hget'.symm.trans hget))
    · exact .inr (hlatest hget' hb hcond.1 hcond.2)
  have hfound : w.latestTooLarge i = some row := (foldr_latest hothers).1 hmem
  rw [hfound, Option.map_some]

namespace Counting

variable {policy : String} {old : UUID → Bool} {bad : List UUID}

/-- The attempts on the incident, its job and what its running attempts go by are as they were. -/
structure Untouched (i : UUID) (w w' : World) : Prop where
  forth : ∀ {a row}, w.attempts.get a = some row → row.incidentId = i → ∃ row',
    w'.attempts.get a = some row' ∧ row' = { row with modelRequests := row'.modelRequests }
  back : ∀ {a row'}, w'.attempts.get a = some row' → row'.incidentId = i → ∃ row,
    w.attempts.get a = some row ∧ row' = { row with modelRequests := row'.modelRequests }
  there : ∀ {a}, (w.attempts.get a).isSome = true → (w'.attempts.get a).isSome = true
  watermark : (w'.store.jobOf i).failureWatermark = (w.store.jobOf i).failureWatermark
  count : (w'.store.jobOf i).consecutiveFailures = (w.store.jobOf i).consecutiveFailures
  error : (w'.store.jobOf i).lastErrorCode = (w.store.jobOf i).lastErrorCode

theorem untouched (h : Counting i policy old bad w) (hsame : Untouched i w w')
    (hkey : w'.currentKey i = w.currentKey i)
    (hworker : ∀ {a row worker'}, w.attempts.get a = some row → row.incidentId = i →
      row.status = .running → old a = false → w'.workers.get a = some worker' →
        worker'.phase.Under (w.currentKey i) row.revisesVersion) :
    Counting i policy old bad w' := by
  have hfailures : w'.failures i = w.failures i := by
    rw [failures, failures, hsame.watermark, hsame.count, hkey]
  refine ⟨fun hold => hsame.there (h.there hold), fun {a row} hget hincident hrunning => ?_, h.olds,
    by rw [hfailures]; exact h.news, h.most, fun hnews herror => ?_,
    fun {a row} hget hincident hrunning => ?_, fun {a row worker} hget hincident hrunning => ?_⟩
  · obtain ⟨row₀, hget₀, heq⟩ := hsame.back hget hincident
    rw [heq] at hincident hrunning
    dsimp only at hincident hrunning
    exact h.carried hget₀ hincident hrunning
  · rw [hsame.error] at herror
    obtain ⟨a, row, hget, hincident, hcode, hpolicy, hlatest⟩ := h.reopened hnews herror
    obtain ⟨row', hget', heq⟩ := hsame.forth hget hincident
    refine ⟨a, row', hget', by rw [heq]; exact hincident, by rw [heq]; exact hcode,
      by rw [heq]; exact hpolicy, fun {b other} hother hne hb hlarge => ?_⟩
    obtain ⟨other₀, hother₀, heq'⟩ := hsame.back hother hb
    rw [heq'] at hb hlarge ⊢
    rw [heq]
    dsimp only at hb hlarge ⊢
    exact hlatest hother₀ hne hb hlarge
  · obtain ⟨row₀, hget₀, heq⟩ := hsame.back hget hincident
    rw [heq] at hincident hrunning ⊢
    dsimp only at hincident hrunning ⊢
    rw [hkey, hfailures]
    exact h.running hget₀ hincident hrunning
  · obtain ⟨row₀, hget₀, heq⟩ := hsame.back hget hincident
    rw [heq] at hincident hrunning ⊢
    dsimp only at hincident hrunning ⊢
    rw [hkey]
    exact hworker hget₀ hincident hrunning

/-- **A running attempt ends.** If it is a new one, a bad end is one more failure, and the job is
not reopened by it. -/
theorem close (h : Counting i policy old bad w) (hw : w.Attempted) {row : AttemptRow}
    (hrow : w.attempts.get a = some row) (hincident : row.incidentId = i)
    (hrunning : row.status = .running) {status : AttemptStatus} {errorCode : Option AttemptError}
    (hstatus : status ≠ .running) (ended : Bool)
    (hattempts : w'.attempts = w.attempts.modify a fun row =>
      { row with status := status, errorCode := errorCode, finishedAt := some w.clock })
    (hnew : old a = false → w.failures i + (if ended then 1 else 0) ≤ w'.failures i ∧
      ((w'.store.jobOf i).lastErrorCode = some .inputTooLarge → w'.LatestBy i policy)) :
    Counting i policy old (bad ++ if ended then [a] else []) w' := by
  -- No attempt on the incident is running any more.
  have hended : ∀ {b other}, w'.attempts.get b = some other → other.incidentId = i →
      other.status ≠ .running := by
    intro b other hget hb hopen
    rw [hattempts] at hget
    obtain ⟨-, rfl⟩ | ⟨hne, hold⟩ := (Table.get_modify_eq_some hrow).1 hget
    · exact hstatus hopen
    · exact hne (hw.attempts.single hold hrow (hb.trans hincident.symm) hopen hrunning)
  have hthere : ∀ {b}, old b = true → (w'.attempts.get b).isSome = true := by
    intro b hb
    rw [hattempts, Table.get_modify]
    split
    · rw [Option.isSome_map]
      exact h.there hb
    · exact h.there hb
  cases hold : old a with
  | true =>
    obtain rfl := h.carried hrow hincident hrunning hold
    have hnone : ((if ended then [a] else []).filter fun a => !old a) = [] := by
      cases ended <;> simp [hold]
    refine ⟨hthere, fun hget hb hopen => absurd hopen (hended hget hb), ?_, ?_, ?_, ?_,
      fun hget hb hopen => absurd hopen (hended hget hb),
      fun hget hb hopen => absurd hopen (hended hget hb)⟩
    · cases ended <;> simp [hold]
    · rw [List.nil_append, hnone]
      exact Nat.zero_le _
    · rw [List.nil_append, hnone]
      exact Nat.zero_le _
    · rw [List.nil_append, hnone]
      exact fun hne => absurd rfl hne
  | false =>
    obtain ⟨hfailures, hreopened⟩ := hnew hold
    obtain ⟨-, -, hleft⟩ := h.running hrow hincident hrunning hold
    have hcount : ((bad ++ if ended then [a] else []).filter fun a => !old a).length =
        (bad.filter fun a => !old a).length + if ended then 1 else 0 := by
      cases ended <;> simp [hold]
    have hnews := h.news
    refine ⟨hthere, fun hget hb hopen => absurd hopen (hended hget hb), ?_, ?_, ?_,
      fun _ => hreopened, fun hget hb hopen => absurd hopen (hended hget hb),
      fun hget hb hopen => absurd hopen (hended hget hb)⟩
    · have holds := h.olds
      cases ended <;> simpa [hold] using holds
    · rw [hcount]
      omega
    · rw [hcount]
      split <;> omega

/-- **A claim of a due incident** counts afresh only if no new attempt has ended badly, and leaves
room for one more failure. -/
theorem reopenCap (h : Counting i policy old bad w)
    (hnone : ∀ {a row}, w.attempts.get a = some row → row.incidentId = i → row.status ≠ .running)
    (hjob : (w.store.jobs.get i).isSome = true) (hdue : w.candidate policy i = true) :
    Counting i policy old bad (w.reopenCap i) ∧
      (w.reopenCap i).failures i < maxAttemptsPerWatermark := by
  unfold candidate at hdue
  split at hdue
  · cases hdue
  next incident hincident =>
  simp only [decide_eq_true_eq] at hdue
  obtain ⟨-, -, -, -, hdue, -⟩ := hdue
  simp only [due, decide_eq_true_eq] at hdue
  have hkey : w.currentKey i =
      some (incident.failureKey (w.store.jobOf i).pendingRegenerationVersion) := by
    rw [currentKey, hincident, Option.map_some]
  have hcapped := hdue.2
  rw [← hkey] at hcapped
  -- A cap at this key is one the input policy reopens.
  have hreopen : maxAttemptsPerWatermark ≤ w.failures i →
      maxAttemptsPerWatermark ≤ (w.store.jobOf i).consecutiveFailures ∧
        w.inputPolicyReopen policy i = true := by
    intro hle
    have hpos : 0 < maxAttemptsPerWatermark := by decide
    rw [failures] at hle
    split at hle
    · next hmark =>
      refine ⟨hle, ?_⟩
      by_contra hnot
      exact hcapped ⟨hle, hmark, eq_false_of_ne_true hnot⟩
    · omega
  have hreopened : w.inputPolicyReopen policy i = true →
      (w.store.jobOf i).lastErrorCode = some .inputTooLarge ∧ ¬ w.LatestBy i policy := by
    intro hre
    rw [inputPolicyReopen, decide_eq_true_iff] at hre
    exact ⟨hre.1, fun hlatest => hre.2 hlatest.latestTooLarge⟩
  unfold World.reopenCap
  dsimp only
  split
  · next hcap =>
    -- A new attempt that ended badly is the latest of the policy, or not of this error.
    have hnews : bad.filter (fun a => !old a) = [] := by
      by_contra hne
      have hlength := List.length_pos_iff.2 hne
      have hle : maxAttemptsPerWatermark ≤ w.failures i := by
        have hcount := h.news
        rw [failures] at hcount ⊢
        split at hcount
        · next hmark =>
          rw [if_pos hmark]
          exact hcap.1
        · omega
      exact (hreopened (hreopen hle).2).2 (h.reopened hne hcap.2)
    have hmark : ((w.setJob i fun job =>
        { job with consecutiveFailures := 0, failureWatermark := none }).failures i) = 0 := by
      rw [failures, jobOf_setJob hjob]
      exact ite_self 0
    refine ⟨⟨h.there, h.carried, h.olds, ?_, h.most, fun hne => absurd hnews hne,
      fun hget hi hrunning => absurd hrunning (hnone hget hi),
      fun hget hi hrunning => absurd hrunning (hnone hget hi)⟩, ?_⟩
    · rw [hnews]
      exact Nat.zero_le _
    · rw [hmark]
      decide
  · next hcap =>
    refine ⟨h, ?_⟩
    by_contra hle
    obtain ⟨hcount, hre⟩ := hreopen (not_lt.1 hle)
    exact hcap ⟨hcount, (hreopened hre).1⟩

/-- **The new attempt of a claim** is opened under the key of the incident. -/
theorem takeLease {incident : Incident} {watermark : Watermark} {attemptId owner : UUID}
    {maxModelRequests leaseSeconds : ℕ} (h : Counting i policy old bad w)
    (hnone : ∀ {a row}, w.attempts.get a = some row → row.incidentId = i → row.status ≠ .running)
    (hjob : (w.store.jobs.get i).isSome = true) (hfresh : w.attempts.get attemptId = none)
    (hincident : w.store.incidents.get i = some incident)
    (hcurrent : incident.currentWatermark = some watermark)
    (hleft : w.failures i < maxAttemptsPerWatermark) :
    Counting i policy old bad
      (w.takeLease i watermark attemptId owner policy maxModelRequests leaseSeconds) := by
  have hold : old attemptId = false := by
    by_contra hnot
    have hthere := h.there (eq_true_of_ne_false hnot)
    rw [hfresh] at hthere
    cases hthere
  have hjobOf : (w.takeLease i watermark attemptId owner policy maxModelRequests
      leaseSeconds).store.jobOf i = { w.store.jobOf i with
        leaseOwner := some owner, leaseEpoch := (w.store.jobOf i).leaseEpoch + 1
        leaseUntil := some (w.clock + seconds leaseSeconds) } := jobOf_setJob hjob
  have hkey : (w.takeLease i watermark attemptId owner policy maxModelRequests
      leaseSeconds).currentKey i = w.currentKey i := currentKey_setJob fun _ => rfl
  have hfailures : (w.takeLease i watermark attemptId owner policy maxModelRequests
      leaseSeconds).failures i = w.failures i := by
    rw [failures, failures, hjobOf, hkey]
  have hopened : w.currentKey i =
      some (watermark.key (w.store.jobOf i).pendingRegenerationVersion) := by
    rw [currentKey, hincident, Option.map_some, currentWatermark_key hcurrent]
  refine ⟨fun hb => ?_, fun hget hi hrunning hcarried => ?_, h.olds,
    by rw [hfailures]; exact h.news, h.most, fun hne herror => ?_, fun hget hi hrunning _ => ?_,
    fun hget hi hrunning _ hworker => ?_⟩
  · dsimp only [World.takeLease]
    rw [Table.get_insert]
    split
    · rfl
    · exact h.there hb
  · obtain ⟨rfl, -⟩ | ⟨-, hget⟩ := Table.get_insert_eq_some.1 hget
    · rw [hold] at hcarried
      cases hcarried
    · exact absurd hrunning (hnone hget hi)
  · rw [hjobOf] at herror
    obtain ⟨a, row, hget, hi, hcode, hpolicy, hlatest⟩ := h.reopened hne herror
    refine ⟨a, row, Table.get_insert_of_get _ hfresh hget, hi, hcode, hpolicy,
      fun hother hb hsame hlarge => ?_⟩
    obtain ⟨-, rfl⟩ | ⟨-, hother⟩ := Table.get_insert_eq_some.1 hother
    · cases hlarge
    · exact hlatest hother hb hsame hlarge
  · obtain ⟨-, rfl⟩ | ⟨-, hget⟩ := Table.get_insert_eq_some.1 hget
    · rw [hkey, hfailures]
      exact ⟨hopened, rfl, hleft⟩
    · exact absurd hrunning (hnone hget hi)
  · obtain ⟨rfl, -⟩ | ⟨-, hget⟩ := Table.get_insert_eq_some.1 hget
    · obtain ⟨-, rfl⟩ | ⟨hne, -⟩ := Table.get_insert_eq_some.1 hworker
      · exact trivial
      · exact absurd rfl hne
    · exact absurd hrunning (hnone hget hi)

end Counting

namespace Counting

variable {policy : String} {old : UUID → Bool} {bad : List UUID}

namespace Untouched

/-- The attempts stay, and so does what the job of the incident counts. -/
theorem of_attempts (hattempts : w'.attempts = w.attempts)
    (hjob : (w'.store.jobOf i).failureWatermark = (w.store.jobOf i).failureWatermark ∧
      (w'.store.jobOf i).consecutiveFailures = (w.store.jobOf i).consecutiveFailures ∧
      (w'.store.jobOf i).lastErrorCode = (w.store.jobOf i).lastErrorCode) :
    Untouched i w w' := by
  refine ⟨fun hget _ => ⟨_, hattempts ▸ hget, rfl⟩, fun hget _ => ⟨_, hattempts ▸ hget, rfl⟩,
    fun hget => hattempts ▸ hget, hjob.1, hjob.2.1, hjob.2.2⟩

theorem trans {w'' : World} (h : Untouched i w w') (h' : Untouched i w' w'') :
    Untouched i w w'' where
  forth hget hi := by
    obtain ⟨row', hget', heq⟩ := h.forth hget hi
    rw [heq] at hget'
    obtain ⟨row'', hget'', heq'⟩ := h'.forth hget' hi
    exact ⟨row'', hget'', heq'⟩
  back hget hi := by
    obtain ⟨row', hget', heq⟩ := h'.back hget hi
    rw [heq] at hi ⊢
    obtain ⟨row, hget₀, heq'⟩ := h.back hget' hi
    rw [heq']
    exact ⟨row, hget₀, rfl⟩
  there hget := h'.there (h.there hget)
  watermark := h'.watermark.trans h.watermark
  count := h'.count.trans h.count
  error := h'.error.trans h.error

/-- A rewrite of an attempt on another incident, or of a count of requests. -/
theorem modify {f : AttemptRow → AttemptRow} {row : AttemptRow} (hrow : w.attempts.get a = some row)
    (hf : (f row).incidentId = row.incidentId)
    (hsame : row.incidentId = i → f row = { row with modelRequests := (f row).modelRequests }) :
    Untouched i w { w with attempts := w.attempts.modify a f } where
  forth {b r} hget hi := by
    dsimp only
    rw [Table.get_modify]
    split
    · next heq =>
      subst heq
      obtain rfl := Option.some.inj (hrow.symm.trans hget)
      exact ⟨f row, by rw [hget, Option.map_some], hsame hi⟩
    · exact ⟨r, hget, rfl⟩
  back {b r} hget hi := by
    obtain ⟨rfl, rfl⟩ | ⟨-, hold⟩ := (Table.get_modify_eq_some hrow).1 hget
    · exact ⟨row, hrow, hsame (hf.symm.trans hi)⟩
    · exact ⟨r, hold, rfl⟩
  there {b} hb := by
    dsimp only
    rw [Table.get_modify]
    split
    · rw [Option.isSome_map]
      exact hb
    · exact hb
  watermark := rfl
  count := rfl
  error := rfl

/-- The closing of an attempt on another incident. -/
theorem other {f : AttemptRow → AttemptRow} {row : AttemptRow} (hrow : w.attempts.get a = some row)
    (hf : (f row).incidentId = row.incidentId) (hi : row.incidentId ≠ i)
    (hattempts : w'.attempts = w.attempts.modify a f)
    (hjob : w'.store.jobOf i = w.store.jobOf i) : Untouched i w w' := by
  have hmodified : Untouched i w { w with attempts := w.attempts.modify a f } :=
    .modify hrow hf fun heq => absurd heq hi
  refine hmodified.trans (.of_attempts hattempts ?_)
  rw [hjob]
  exact ⟨rfl, rfl, rfl⟩

/-- A new attempt on another incident. -/
theorem insert {row : AttemptRow} (hfresh : w.attempts.get a = none) (hi : row.incidentId ≠ i)
    (hattempts : w'.attempts = w.attempts.insert a row)
    (hjob : w'.store.jobOf i = w.store.jobOf i) : Untouched i w w' where
  forth {b r} hget _ := ⟨r, by rw [hattempts]; exact Table.get_insert_of_get _ hfresh hget, rfl⟩
  back {b r} hget hb := by
    rw [hattempts] at hget
    obtain ⟨-, rfl⟩ | ⟨-, hold⟩ := Table.get_insert_eq_some.1 hget
    · exact absurd hb hi
    · exact ⟨r, hold, rfl⟩
  there {b} hb := by
    obtain ⟨r, hget⟩ := Option.isSome_iff_exists.1 hb
    rw [hattempts, Table.get_insert_of_get _ hfresh hget]
    rfl
  watermark := by rw [hjob]
  count := by rw [hjob]
  error := by rw [hjob]

end Untouched

/-- A change beside the attempts and the count. -/
theorem of_attempts (h : Counting i policy old bad w) (hattempts : w'.attempts = w.attempts)
    (hworkers : w'.workers = w.workers)
    (hjob : (w'.store.jobOf i).failureWatermark = (w.store.jobOf i).failureWatermark ∧
      (w'.store.jobOf i).consecutiveFailures = (w.store.jobOf i).consecutiveFailures ∧
      (w'.store.jobOf i).lastErrorCode = (w.store.jobOf i).lastErrorCode)
    (hkey : w'.currentKey i = w.currentKey i) : Counting i policy old bad w' :=
  h.untouched (.of_attempts hattempts hjob) hkey fun hget hi hrunning hnew hworker =>
    h.worker hget hi hrunning hnew (hworkers ▸ hworker)

/-- The worker of an attempt goes on. -/
theorem setPhase {worker : Worker} {phase : Phase} (h : Counting i policy old bad w)
    (hworker : w.workers.get a = some worker)
    (hphase : ∀ {row}, w.attempts.get a = some row → row.incidentId = i → row.status = .running →
      old a = false → phase.Under (w.currentKey i) row.revisesVersion) :
    Counting i policy old bad (w.setPhase a phase) := by
  refine h.untouched (.of_attempts rfl ⟨rfl, rfl, rfl⟩) rfl fun hget hi hrunning hnew hworker' => ?_
  obtain ⟨rfl, rfl⟩ | ⟨-, hold⟩ := (Table.get_modify_eq_some hworker).1 hworker'
  · exact hphase hget hi hrunning hnew
  · exact h.worker hget hi hrunning hnew hold

/-- A job of another incident, or its lease. -/
theorem setJob (h : Counting i policy old bad w)
    (hpending : ∀ job, (f job).pendingRegenerationVersion = job.pendingRegenerationVersion)
    (hf : i = j → ∀ job, (f job).failureWatermark = job.failureWatermark ∧
      (f job).consecutiveFailures = job.consecutiveFailures ∧
      (f job).lastErrorCode = job.lastErrorCode) : Counting i policy old bad (w.setJob j f) := by
  refine h.of_attempts rfl rfl ?_ (currentKey_setJob hpending)
  by_cases hij : i = j
  · subst hij
    cases hjob : w.store.jobs.get i with
    | none => simp only [World.setJob, Store.jobOf, Table.get_modify_self, hjob, Option.map_none,
        and_self]
    | some job =>
      rw [jobOf_setJob (by rw [hjob]; rfl)]
      exact hf rfl _
  · rw [jobOf_setJob_ne hij]
    exact ⟨rfl, rfl, rfl⟩

/-! ## Steps of a worker -/

theorem refused_under {watermark : Option Watermark} {error : KnowledgeError}
    {key : Option FailureKey} {revisesVersion : Option ℕ}
    (h : ∀ read ∈ watermark, key = some (read.key revisesVersion)) :
    (refused watermark error).Under key revisesVersion := by
  obtain heq | ⟨code, -, heq⟩ := refused_cases watermark error
  · rw [heq]
    exact trivial
  · rw [heq]
    exact ⟨h, fun hs => by cases hs⟩

/-- An input that is read under the key of a running attempt has that key. -/
theorem readInput_key {input : GenerationInput} {row : AttemptRow}
    (hinput : w.readInput i = .ok input)
    (hkey : w.currentKey i = some (row.watermark.key row.revisesVersion)) :
    w.currentKey i = some (input.watermark.key row.revisesVersion) := by
  simp only [readInput, require_bind_eq_ok, refuse_bind_eq_ok, pure_eq_ok] at hinput
  obtain ⟨incident, hincident, -, watermark, hcurrent, rfl⟩ := hinput
  rw [currentKey, hincident, Option.map_some] at hkey ⊢
  have hpending : (w.store.jobOf i).pendingRegenerationVersion = row.revisesVersion :=
    congrArg FailureKey.revisesVersion (Option.some.inj hkey)
  rw [hpending, currentWatermark_key hcurrent]

theorem read (h : Counting i policy old bad w) (hw : w.Attempted) (a : UUID) :
    Counting i policy old bad (w.read a) := by
  unfold World.read
  split
  · next claim hworker =>
    obtain ⟨-, row, hrow, hof⟩ := hw.claim hworker
    split
    · next input hinput =>
      refine h.setPhase hworker fun hget hi hrunning hnew => ?_
      obtain rfl := Option.some.inj (hrow.symm.trans hget)
      rw [← hof.incident, hi] at hinput
      exact readInput_key hinput (h.running hget hi hrunning hnew).1
    · exact h.setPhase hworker fun _ _ _ _ => refused_under fun _ hnone => by cases hnone
  · exact h

theorem reserve (h : Counting i policy old bad w) (a : UUID) :
    Counting i policy old bad (w.reserve a) := by
  unfold World.reserve
  split
  · next claim input used hworker =>
    have hgenerating : ∀ {row}, w.attempts.get a = some row → row.incidentId = i →
        row.status = .running → old a = false →
          w.currentKey i = some (input.watermark.key row.revisesVersion) :=
      fun hget hi hrunning hnew => h.worker hget hi hrunning hnew hworker
    split
    · split
      · next reserved hreserved =>
        obtain ⟨row, hrow, -, -, -, rfl⟩ := reserveModelRequest_some hreserved
        have hreserved : Untouched i w { w with
            attempts := w.attempts.modify claim.attemptId fun row =>
              { row with modelRequests := row.modelRequests + 1 } } :=
          .modify hrow rfl fun _ => rfl
        have hcounting := h.untouched hreserved rfl
          fun hget hi hrunning hnew hworker' => h.worker hget hi hrunning hnew hworker'
        refine hcounting.setPhase hworker fun hget hi hrunning hnew => ?_
        obtain ⟨row₀, hget₀, heq⟩ := hreserved.back hget hi
        rw [heq] at hi hrunning ⊢
        have hkey := hgenerating hget₀ hi hrunning hnew
        exact hkey
      · refine h.setPhase hworker fun hget hi hrunning hnew => ⟨?_, fun hs => by cases hs⟩
        rintro watermark ⟨⟩
        exact hgenerating hget hi hrunning hnew
    · exact h
  · exact h

theorem fail (h : Counting i policy old bad w) (a : UUID) (errorCode : AttemptError) :
    Counting i policy old bad (w.fail a errorCode) := by
  unfold World.fail
  split
  · next claim input used hworker =>
    refine h.setPhase hworker fun hget hi hrunning hnew => ⟨?_, fun hs => by cases hs⟩
    rintro watermark ⟨⟩
    exact h.worker hget hi hrunning hnew hworker
  · exact h

/-- A draft that can be reviewed would be a new reviewable version. -/
theorem writeDraft (h : Counting i policy old bad w) (hw : w.Attempted) {a fresh : UUID}
    {draft : Assembled} (hsteady : Steady i policy w (.writeDraft a fresh draft)) :
    Counting i policy old bad (w.writeDraft a fresh draft) := by
  obtain ⟨hkey, hreviewable, -, -⟩ := hsteady
  simp only [after] at hkey hreviewable
  unfold World.writeDraft at hkey hreviewable ⊢
  split
  · next claim input used hworker =>
    rw [hworker] at hkey hreviewable
    dsimp only at hkey hreviewable
    obtain ⟨hid, row, hrow, hof⟩ := hw.claim hworker
    split
    · next written hwritten =>
      rw [hwritten] at hkey hreviewable
      obtain ⟨-, hjobs, hnew⟩ := Store.recordDraft_jobs
        (show _ = Except.ok (written.1, written.2) from hwritten)
      have hjob : (written.2.jobOf i).failureWatermark = (w.store.jobOf i).failureWatermark ∧
          (written.2.jobOf i).consecutiveFailures = (w.store.jobOf i).consecutiveFailures ∧
          (written.2.jobOf i).lastErrorCode = (w.store.jobOf i).lastErrorCode := by
        obtain heq | ⟨-, heq⟩ := hjobs i
        · simp only [Store.jobOf, heq, and_self]
        · simp only [Store.jobOf, heq]
          cases w.store.jobs.get i <;> exact ⟨rfl, rfl, rfl⟩
      have hstored : Counting i policy old bad { w with store := written.2 } :=
        h.of_attempts rfl rfl hjob hkey
      refine hstored.setPhase hworker fun hget hi hrunning hfresh => ?_
      obtain rfl := Option.some.inj (hrow.symm.trans hget)
      refine ⟨?_, fun _ => ?_⟩
      · rintro watermark ⟨⟩
        rw [show currentKey { w with store := written.2 } i = w.currentKey i from hkey]
        exact h.worker hget hi hrunning hfresh hworker
      · -- A recorded draft has a worker that is done, and a new one would be a new version.
        dsimp only
        rw [decide_eq_true_iff]
        by_contra hreview
        obtain hold | hversion := hnew
        · have hkey : w.store.Generated (draftKey a) := by
            rw [draftKey, ← hid]
            exact hold
          obtain ⟨worker, hworker', hwritten'⟩ := hw.generated hkey
          rw [hworker] at hworker'
          obtain rfl := Option.some.inj hworker'
          cases hwritten'
        · obtain ⟨k, hbefore, hafter⟩ := hversion (eq_true_of_ne_false hreview)
          have hsame : (draft.request claim input).incidentId = i := hof.incident.symm.trans hi
          rw [hsame] at hbefore hafter
          exact hbefore ((hreviewable k).1 hafter)
    · refine h.setPhase hworker fun hget hi hrunning hfresh => refused_under ?_
      rintro watermark ⟨⟩
      exact h.worker hget hi hrunning hfresh hworker
  · exact h

end Counting

namespace Counting

variable {policy : String} {old : UUID → Bool} {bad : List UUID}

/-! ## The end of an attempt -/

/-- The failures a job counts under a key. -/
def counted (job : JobRow) (key : Option FailureKey) : ℕ :=
  if job.failureWatermark = key then job.consecutiveFailures else 0

/-- **One more failure under the key**, up to the cap. -/
theorem counted_countedFailure (job : JobRow) (key : FailureKey) (errorCode : Option AttemptError)
    (now : Time) (hleft : counted job (some key) < maxAttemptsPerWatermark) :
    counted job (some key) + 1 ≤ counted (countedFailure job key errorCode now) (some key) := by
  unfold counted at hleft ⊢
  unfold countedFailure
  dsimp only
  rw [if_pos rfl]
  have hcap : maxAttemptsPerWatermark = 3 := rfl
  split at hleft
  · next hmark =>
    rw [if_pos hmark, if_pos hmark]
    split <;> omega
  · next hmark =>
    rw [if_neg hmark, if_neg hmark]
    split <;> omega

theorem failures_eq (w : World) (i : UUID) :
    w.failures i = counted (w.store.jobOf i) (w.currentKey i) := rfl

/-- What a worker's closing makes of the count: a bad end is one more failure, and any other end of
a worker under the key of the incident leaves it. -/
theorem counted_closedJob {job : JobRow} {closing : Closing} {key : FailureKey} (now : Time)
    (hsound : closing.Sound)
    (hsuccess : closing.status = .succeeded → closing.citationsFailed = true)
    (hleft : counted job (some key) < maxAttemptsPerWatermark) :
    counted job (some key) +
          (if closing.status = .failed ∨ closing.status = .succeeded then 1 else 0) ≤
        counted (closedJob job closing key now) (some key) ∧
      ((closedJob job closing key now).lastErrorCode = some .inputTooLarge →
        closing.errorCode = some .inputTooLarge) := by
  unfold closedJob
  rcases hsound.ends with hends | hends | hends
  · rw [if_pos (Or.inr hends), if_pos (Or.inr (And.intro hends (hsuccess hends)))]
    exact ⟨counted_countedFailure job key closing.errorCode now hleft, fun herror => herror⟩
  · rw [if_pos (Or.inl hends), if_pos (Or.inl hends)]
    exact ⟨counted_countedFailure job key closing.errorCode now hleft, fun herror => herror⟩
  · simp only [hends, reduceCtorEq, false_and, or_self, if_false, Nat.add_zero]
    exact ⟨le_rfl, fun herror => herror⟩

/-- The end of the latest attempt with too large an input. -/
theorem latestBy_of_close (hw : w.Attempted) {row : AttemptRow} (hrow : w.attempts.get a = some row)
    (hincident : row.incidentId = i) (hrunning : row.status = .running)
    (hpolicy : row.inputPolicyVersion = policy) (htime : row.startedAt < w.clock)
    {status : AttemptStatus}
    (hattempts : w'.attempts = w.attempts.modify a fun row =>
      { row with
        status := status, errorCode := some .inputTooLarge, finishedAt := some w.clock }) :
    w'.LatestBy i policy := by
  have hclosed : w'.attempts.get a = some { row with
      status := status, errorCode := some .inputTooLarge, finishedAt := some w.clock } := by
    rw [hattempts, Table.get_modify_self, hrow, Option.map_some]
  refine ⟨a, _, hclosed, hincident, rfl, hpolicy, fun {b other} hother hne hb hlarge => ?_⟩
  rw [hattempts] at hother
  obtain ⟨rfl, -⟩ | ⟨-, hother⟩ := (Table.get_modify_eq_some hrow).1 hother
  · exact absurd rfl hne
  -- The other attempt had ended when this one was opened.
  have hended : other.status ≠ .running := by
    intro hopen
    rw [(hw.attempts.row hother).opened hopen] at hlarge
    cases hlarge
  obtain ⟨t, ht⟩ := Option.isSome_iff_exists.1 ((hw.attempts.row hother).closed hended)
  have hbefore := (hw.attempts.follows hrow hother hne.symm (hincident.trans hb.symm)).order
    hrunning t ht
  rw [ht]
  exact lt_of_le_of_lt hbefore htime

/-- The attempts that run after an event have not ended in it. -/
theorem endedBadly_eq_nil {event : Event}
    (h : ∀ {a row}, w.attempts.get a = some row → row.incidentId = i → row.status = .running →
      ∃ row', (w.after event).attempts.get a = some row' ∧ row'.status = .running) :
    w.endedBadly event i = [] := by
  unfold endedBadly
  rw [List.filter_eq_nil_iff]
  intro a hmem
  obtain ⟨⟨b, row⟩, hrow, rfl⟩ := List.mem_map.1 hmem
  obtain ⟨hget, hi, hrunning⟩ := mem_running.1 hrow
  obtain ⟨row', hget', hrunning'⟩ := h hget hi hrunning
  simp [hget', hrunning']

theorem endedBadly_of_untouched {event : Event} (h : Untouched i w (w.after event)) :
    w.endedBadly event i = [] :=
  endedBadly_eq_nil fun hget hi hrunning => by
    obtain ⟨row', hget', heq⟩ := h.forth hget hi
    refine ⟨row', hget', ?_⟩
    rw [heq]
    exact hrunning

/-- The one attempt on an incident that runs. -/
theorem running_eq (hw : w.Attempted) {row : AttemptRow} (hrow : w.attempts.get a = some row)
    (hincident : row.incidentId = i) (hrunning : row.status = .running) :
    w.running i = [(a, row)] := by
  have hmem := mem_running.2 ⟨hrow, hincident, hrunning⟩
  obtain ⟨hnil, -⟩ | ⟨b, other, heq, -⟩ := abandon_cases hw i
  · rw [hnil] at hmem
    cases hmem
  · rw [heq, List.mem_singleton] at hmem
    rw [heq, hmem]

/-- A step that goes past the attempts on an incident. -/
theorem past {event : Event} (hsame : Untouched i w (w.after event))
    (hcounting : Counting i policy old bad (w.after event)) :
    Counting i policy old (bad ++ w.endedBadly event i) (w.after event) := by
  rw [endedBadly_of_untouched hsame, List.append_nil]
  exact hcounting

/-- The worker is done, and its attempt stays. -/
theorem done {event : Event} {worker : Worker} (h : Counting i policy old bad w)
    (hworker : w.workers.get a = some worker) (hafter : w.after event = w.setPhase a .done) :
    Counting i policy old (bad ++ w.endedBadly event i) (w.after event) := by
  refine past ?_ ?_
  · rw [hafter]
    exact .of_attempts rfl ⟨rfl, rfl, rfl⟩
  · rw [hafter]
    exact h.setPhase hworker fun _ _ _ _ => trivial

/-- **A worker ends.** -/
theorem finish (h : Counting i policy old bad w) (hw : w.Attempted)
    (hsteady : Steady i policy w (.finish a)) :
    Counting i policy old (bad ++ w.endedBadly (.finish a) i) (w.after (.finish a)) := by
  have hkey := hsteady.key
  obtain heq | ⟨worker, hworker, heq⟩ |
    ⟨claim, closing, row, hworker, hrow, hrunning, hclaim, heq⟩ := finish_cases hw a
  · have hafter : w.after (.finish a) = w := heq
    refine past ?_ ?_
    · rw [hafter]
      exact .of_attempts rfl ⟨rfl, rfl, rfl⟩
    · rw [hafter]
      exact h
  · exact h.done hworker heq
  have hafter : w.after (.finish a) = _ := heq
  have hsound := hw.closing hworker rfl
  have hattempts : (w.after (.finish a)).attempts = w.attempts.modify a fun row =>
      { row with
        status := closing.status, errorCode := closing.errorCode
        finishedAt := some w.clock } := by
    rw [hafter]
    rfl
  by_cases hi : row.incidentId = i
  · have hjob : (w.store.jobs.get i).isSome = true := hi ▸ hw.job hrow
    have hjobOf : (w.after (.finish a)).store.jobOf i =
        { closedJob (w.store.jobOf i) closing
            ((closing.watermark.getD row.watermark).key row.revisesVersion) w.clock with
          leaseOwner := none, leaseUntil := none } := by
      rw [hafter, ← hclaim, hi]
      exact jobOf_setJob hjob
    have hended : w.endedBadly (.finish a) i =
        if decide (closing.status = .failed ∨ closing.status = .abandoned ∨
          closing.status = .succeeded ∧ closing.citationsFailed = true) then [a] else [] := by
      unfold endedBadly
      rw [running_eq hw hrow hi hrunning, hattempts, List.map_singleton, List.filter_singleton,
        Table.get_modify_self, hrow]
      simp [citationsFailed, hworker]
    rw [hended]
    refine h.close hw hrow hi hrunning hsound.ended _ hattempts fun hnew => ?_
    obtain ⟨hopened, hpolicy, hleft⟩ := h.running hrow hi hrunning hnew
    obtain ⟨hunder, hsuccess⟩ := h.worker hrow hi hrunning hnew hworker
    -- The key the worker counts under is the key of the incident.
    have hsame : w.currentKey i =
        some ((closing.watermark.getD row.watermark).key row.revisesVersion) := by
      cases hread : closing.watermark with
      | none => exact hopened
      | some watermark => exact hunder watermark hread
    rw [failures_eq, hsame] at hleft
    obtain ⟨hcount, herror⟩ := counted_closedJob w.clock hsound hsuccess hleft
    refine ⟨?_, fun hlarge => ?_⟩
    · rw [failures_eq, failures_eq, hkey, hjobOf, hsame]
      refine le_trans (Nat.add_le_add_left ?_ _) hcount
      rcases hsound.ends with hends | hends | hends
      · simp [hends, hsuccess hends]
      · simp [hends]
      · simp [hends]
    · rw [hjobOf] at hlarge
      rw [herror hlarge] at hattempts
      exact latestBy_of_close hw hrow hi hrunning hpolicy (hsteady.time rfl hrow hi)
        hattempts
  · have hsame : Untouched i w (w.after (.finish a)) := by
      refine .other hrow rfl hi hattempts ?_
      rw [hafter, ← hclaim]
      exact jobOf_setJob_ne (Ne.symm hi)
    refine past hsame (h.untouched hsame hkey fun hget hb hopen hnew hworker' => ?_)
    rw [hafter] at hworker'
    obtain ⟨rfl, rfl⟩ | ⟨-, hold⟩ := (Table.get_modify_eq_some hworker).1 hworker'
    · exact trivial
    · exact h.worker hget hb hopen hnew hold

end Counting

end World

end OpsPilot.Knowledge
