import OpsPilot.Observation.Replay

/-!
# Sessions a replay reproduces

`Sound` says of the rows of a session, in the order they were written, that a replay reproduces
every decision and ends where the session ended.

* `replaySamples_filter`: samples filed without a lease move nothing, so the others may be
  replayed without them.
* `verdict_sampleRow`: a row is replayed to the verdict it was written for.
* `Sound.fresh`, `Sound.rewrite`, `Sound.closed`, `Sound.late`, `Sound.judged` and
  `Sound.judgedLast`: the ways the rows of a session come about.
* **`Sound.consistent`**: the report on a sound session is consistent.
-/

namespace OpsPilot

variable [Texts] {b : Basis}

/-! ## One sample -/

/-- The replay of one sample on its stored outcome. -/
theorem replaySample_fst (acc : Replay) (id : UUID) (row : SampleRow) :
    (replaySample b none acc id row).1 =
      acc.after id row.window.end (b.verdict acc.fold row row.storedOutcome) := rfl

/-- Nothing a row stores contradicts its decision. -/
structure SampleRow.Clean (row : SampleRow) (b : Basis) : Prop where
  deadline : row.deadlineMismatch b.terms = false
  scope : row.moved b.terms = row.scopeSuspended
  raw : row.rawMismatches = []
  signals : row.signalMismatches b.required row.storedOutcome = [] ∨
    row.reason = .readingsInconsistent

variable {id : UUID} {v : Verdict} {e : EndingRow}

/-- A row matches its replay if it is clean and stores the verdict it is replayed to. -/
theorem replaySample_matches {acc : Replay} {row : SampleRow} (hclean : row.Clean b)
    (hstored : row.stored = (b.verdict acc.fold row row.storedOutcome).replayed) :
    (replaySample b none acc id row).2.«matches» = true := by
  simp only [replaySample, ReplayedSample.«matches», Option.getD_none, Option.map_none,
    decide_eq_true_eq]
  exact ⟨hstored, trivial, hclean.deadline, by simp [hclean.scope], hclean.raw, hclean.signals⟩

/-- A row filed without a lease, and nothing wrong with it. -/
structure SampleRow.Late (row : SampleRow) (b : Basis) : Prop where
  lease : row.leaseValid = false
  clean : row.Clean b
  stored : row.stored = ⟨false, .leaseRevoked, false, .notAdopted, none⟩

namespace SampleRow.Late

variable {row : SampleRow}

theorem verdict (h : row.Late b) (fold : Fold) (outcome : SampleOutcome × Bool) :
    b.verdict fold row outcome = {
      decision := historyOnly .leaseRevoked
      healthy := false
      healthBasis := .notAdopted
      endedReason := none
      fold := fold } := judge_leaseRevoked h.lease

/-- It moves nothing, -/
theorem after (h : row.Late b) (acc : Replay) (id : UUID) :
    (replaySample b none acc id row).1 = acc := by
  rw [replaySample_fst, h.verdict]
  simp [Replay.after, historyOnly, Verdict.transition]

/-- and is replayed to what it says wherever it comes. -/
theorem replayed (h : row.Late b) (acc : Replay) (id : UUID) :
    (replaySample b none acc id row).2.«matches» = true := by
  refine replaySample_matches h.clean ?_
  rw [h.stored, h.verdict]
  rfl

theorem transition (h : row.Late b) : row.transition = none := congrArg Decision.transition h.stored

end SampleRow.Late

/-- **A row is replayed to the verdict it was written for**, if it is clean. -/
theorem verdict_sampleRow {lease : SampleLease} {sample : HealthSample}
    {readings : List SignalReading} {c : Conditions} {scope : Scope} {t : Time} {row : SampleRow}
    (hrow : row = Store.sampleRow lease sample readings c scope v t)
    (hsession : sample.sessionId = b.sessionId) (hclean : row.Clean b)
    (hreadings : c.readingsConsistent = (row.signalMismatches b.required row.storedOutcome = []))
    (fold : Fold) :
    b.verdict fold row row.storedOutcome = judge b.sessionId b.terms fold sample c := by
  have hsample : row.sample b.sessionId row.storedOutcome = sample := by
    rw [hrow, ← hsession]
    rfl
  have hconditions : row.conditions b row.storedOutcome = c := by
    simp only [SampleRow.conditions, hclean.deadline, hclean.scope, ← hreadings]
    rw [hrow]
    simp [Store.sampleRow]
  rw [Basis.verdict, hsample, hconditions]

/-! ## The samples of a session -/

/-- The samples submitted under a valid lease, oldest first. -/
def arrivals (samples : List (UUID × SampleRow)) : List (UUID × SampleRow) :=
  (samples.filter (·.2.leaseValid)).reverse

/-- Every sample is replayed to what it says. -/
def Agrees (b : Basis) (acc : Replay) (samples : List (UUID × SampleRow)) : Prop :=
  ∀ r ∈ (replaySamples b none acc samples).2, r.«matches» = true

theorem replaySamples_append (acc : Replay) (samples : List (UUID × SampleRow)) (id : UUID)
    (row : SampleRow) :
    replaySamples b none acc (samples ++ [(id, row)]) =
      ((replaySample b none (replaySamples b none acc samples).1 id row).1,
        (replaySamples b none acc samples).2 ++
          [(replaySample b none (replaySamples b none acc samples).1 id row).2]) := by
  induction samples generalizing acc with
  | nil => rfl
  | cons e samples ih =>
    simp only [List.cons_append, replaySamples, Option.bind_none, ih]

/-- **Samples filed without a lease move nothing**: the others may be replayed alone. -/
theorem replaySamples_filter {samples : List (UUID × SampleRow)}
    (hlate : ∀ e ∈ samples, e.2.leaseValid = false → e.2.Late b) (acc : Replay) :
    (replaySamples b none acc samples).1 =
        (replaySamples b none acc (samples.filter (·.2.leaseValid))).1 ∧
      (Agrees b acc (samples.filter (·.2.leaseValid)) → Agrees b acc samples) := by
  induction samples generalizing acc with
  | nil => exact ⟨rfl, id⟩
  | cons e samples ih =>
    obtain ⟨id, row⟩ := e
    have ih := fun acc => ih (fun e he => hlate e (List.mem_cons_of_mem _ he)) acc
    cases hvalid : row.leaseValid with
    | true =>
      have hfilter : ((id, row) :: samples).filter (·.2.leaseValid) =
          (id, row) :: samples.filter (·.2.leaseValid) := List.filter_cons_of_pos hvalid
      rw [hfilter]
      obtain ⟨hrun, hagrees⟩ := ih (replaySample b none acc id row).1
      refine ⟨hrun, fun h r hr => ?_⟩
      rcases List.mem_cons.1 hr with rfl | hr
      · exact h _ List.mem_cons_self
      · exact hagrees (fun r' hr' => h r' (List.mem_cons_of_mem _ hr')) r hr
    | false =>
      have hthis := hlate (id, row) List.mem_cons_self hvalid
      rw [List.filter_cons_of_neg (by simp [hvalid])]
      simp only [Agrees, replaySamples, Option.bind_none, hthis.after, List.mem_cons,
        forall_eq_or_imp]
      exact ⟨(ih acc).1, fun h => ⟨hthis.replayed acc id, (ih acc).2 h⟩⟩

/-! ## Endings -/

section

omit [Texts]

/-- A record of a transition that was fired. -/
theorem EndingRow.moves_of_fired
    (h : fireTransition e.lifecycleBefore e.transition = .ok e.lifecycleAfter) :
    e.moves = true := by
  rw [EndingRow.moves]
  generalize e.lifecycleBefore = before, e.lifecycleAfter = after, e.transition = t at h ⊢
  cases t with
  | none => simpa using (Except.ok.inj h).symm
  | some t => cases t <;> cases before <;> cases h <;> rfl

/-- The lifecycle a fired transition of an active incident moves to. -/
theorem expected_of_fired {before after : IncidentLifecycle} {t : Transition}
    (hactive : activeIncidentLifecycle before = true)
    (h : fireTransition before (some t) = .ok after) :
    (incidentLifecycle.fire before t.trigger).getD before = t.expected := by
  cases t with
  | recoveryConfirmed =>
    rw [fireTransition, require_eq_ok] at h
    cases before <;> cases h
    rfl
  | observationEndedUnconfirmed => cases before <;> first | rfl | cases hactive

/-- The reasons a rejected sample ends a session for. -/
theorem SampleReason.ends_mem {r : SampleReason} {reason : EndedReason}
    (h : r.ends = some reason) :
    reason ∈ [EndedReason.deadlineExpired, .bindingStale, .scopeSuspended] := by
  cases r <;> cases h <;> decide

end

/-! ## Sound sessions -/

/-- An authorized session stands where the replay of its samples stands. -/
structure Standing (acc : Replay) (row : SessionRow) (samples : List (UUID × SampleRow)) :
    Prop where
  state : row.state = .authorized
  reason : row.endedReason = none
  fold : acc.fold = row.fold
  expected : acc.expectedLifecycle = none
  ending : acc.endingSampleId = none
  ended : acc.endedReason = none
  quiet : ∀ e ∈ samples, e.2.transition = none

/-- A session ended as its one ending record says, and as the replay of its samples allows. -/
structure Closed (acc : Replay) (row : SessionRow) (samples : List (UUID × SampleRow))
    (e : EndingRow) : Prop where
  owner : row.activeSampleOwner = none
  reason : row.endedReason = some e.endedReason
  state : row.state = endedState e.endedReason
  replayed : acc.endedReason.all (e.endedReason = ·) = true
  budget : e.endedReason = .maxSamplesExhausted → row.maxSamples ≤ acc.fold.adoptedCount
  deadline : e.endedReason = .deadlineExpired → acc.endedReason = none →
    row.deadlineAt ≤ e.recordedAt
  fits : e.fits acc.endingSampleId = true
  states : acc.fold.state = row.state ∨
    acc.fold.state = .authorized ∧ acc.endingSampleId = none ∧ row.state ≠ .completed
  lifecycle : ∀ l, acc.expectedLifecycle = some l → ∃ e ∈ samples,
    e.2.lifecycleAfter = l ∧ e.2.transition.isSome = true ∧
      ∀ e' ∈ samples, e'.2.transition.isSome = true → e' = e

/-- The rows of a session, newest first, are reproduced by a replay. -/
structure Sound (b : Basis) (row : SessionRow) (samples : List (UUID × SampleRow))
    (endings : List EndingRow) : Prop where
  terms : row.terms = b.terms
  budget : 0 < row.maxSamples
  late : ∀ e ∈ samples, e.2.leaseValid = false → e.2.Late b
  ordered : (arrivals samples).Pairwise SubmittedBefore
  agrees : Agrees b {} (arrivals samples)
  current : Standing (replaySamples b none {} (arrivals samples)).1 row samples ∧ endings = [] ∨
    ∃ e, endings = [e] ∧ Closed (replaySamples b none {} (arrivals samples)).1 row samples e

namespace Sound

variable {row row' : SessionRow} {samples : List (UUID × SampleRow)} {endings : List EndingRow}

/-- A session nothing was submitted for. -/
theorem fresh (hterms : row.terms = b.terms) (hbudget : 0 < row.maxSamples)
    (hfold : row.fold = {}) (hreason : row.endedReason = none) : Sound b row [] [] where
  terms := hterms
  budget := hbudget
  late _ he := nomatch he
  ordered := .nil
  agrees _ hr := nomatch hr
  current := .inl ⟨⟨congrArg Fold.state hfold, hreason, hfold.symm, rfl, rfl, rfl,
    fun _ he => nomatch he⟩, rfl⟩

theorem standing (h : Sound b row samples endings) (hstate : row.state = .authorized) :
    Standing (replaySamples b none {} (arrivals samples)).1 row samples ∧ endings = [] := by
  rcases h.current with hstanding | ⟨e, -, hclosed⟩
  · exact hstanding
  · exact absurd (hclosed.state.symm.trans hstate) (endedState_ne_authorized _)

/-- A write to the job slot of an authorized session. -/
theorem rewrite (h : Sound b row samples endings) (hstate : row.state = .authorized)
    (hterms : row'.terms = row.terms) (hfold : row'.fold = row.fold)
    (hreason : row'.endedReason = row.endedReason) : Sound b row' samples endings where
  terms := hterms.trans h.terms
  budget := h.budget.trans_eq (congrArg Terms.maxSamples hterms).symm
  late := h.late
  ordered := h.ordered
  agrees := h.agrees
  current := by
    obtain ⟨hs, hendings⟩ := h.standing hstate
    exact .inl ⟨⟨(congrArg Fold.state hfold).trans hs.state, hreason.trans hs.reason,
      hs.fold.trans hfold.symm, hs.expected, hs.ending, hs.ended, hs.quiet⟩, hendings⟩

/-- The session ends without a sample. -/
theorem closed (h : Sound b row samples endings) (hstate : row.state = .authorized)
    (hreason : e.endedReason ∈
      [EndedReason.authorityRevoked, .scopeSuspended, .deadlineExpired])
    (hfits : e.fits none = true)
    (hdeadline : e.endedReason = .deadlineExpired → row.deadlineAt ≤ e.recordedAt) :
    Sound b (row.ended e.endedReason none) samples (e :: endings) where
  terms := h.terms
  budget := h.budget
  late := h.late
  ordered := h.ordered
  agrees := h.agrees
  current := by
    obtain ⟨hs, rfl⟩ := h.standing hstate
    have hnot : e.endedReason ≠ .maxSamplesExhausted ∧ endedState e.endedReason ≠ .completed := by
      simp only [List.mem_cons, List.not_mem_nil, or_false] at hreason
      rcases hreason with hr | hr | hr <;> rw [hr] <;> decide
    refine .inr ⟨e, rfl, {
      owner := rfl
      reason := rfl
      state := rfl
      replayed := by rw [hs.ended]; rfl
      budget := fun hmax => absurd hmax hnot.1
      deadline := fun hr _ => hdeadline hr
      fits := by rw [hs.ending]; exact hfits
      states := .inr ⟨?_, hs.ending, hnot.2⟩
      lifecycle := fun l hl => ?_ }⟩
    · rw [hs.fold]
      exact hstate
    · rw [hs.expected] at hl
      cases hl

/-- A sample is filed without a lease. -/
theorem filed (h : Sound b row samples endings) {sample : SampleRow} (hlate : sample.Late b) :
    Sound b row ((id, sample) :: samples) endings := by
  have harrivals : arrivals ((id, sample) :: samples) = arrivals samples := by
    rw [arrivals, List.filter_cons_of_neg (by simp [hlate.lease]), arrivals]
  refine ⟨h.terms, h.budget, ?_, harrivals ▸ h.ordered, harrivals ▸ h.agrees, ?_⟩
  · rintro e (_ | ⟨_, he⟩) hvalid
    · exact hlate
    · exact h.late e he hvalid
  rw [harrivals]
  rcases h.current with ⟨hs, hendings⟩ | ⟨e, hendings, hc⟩
  · refine .inl ⟨{ hs with quiet := ?_ }, hendings⟩
    rintro e (_ | ⟨_, he⟩)
    · exact hlate.transition
    · exact hs.quiet e he
  · refine .inr ⟨e, hendings, { hc with lifecycle := fun l hl => ?_ }⟩
    obtain ⟨last, hlast, hl, hsome, honly⟩ := hc.lifecycle l hl
    refine ⟨last, List.mem_cons_of_mem _ hlast, hl, hsome, ?_⟩
    rintro e (_ | ⟨_, he⟩) htransition
    · rw [hlate.transition] at htransition
      cases htransition
    · exact honly e he htransition

/-- A sample submitted under a valid lease comes last in the replay. -/
theorem arrive (h : Sound b row samples endings) (hstate : row.state = .authorized)
    {sample : SampleRow} (hvalid : sample.leaseValid = true) (hclean : sample.Clean b)
    (hv : b.verdict row.fold sample sample.storedOutcome = v) (hstored : sample.stored = v.replayed)
    (hlast : ∀ e ∈ samples, e.2.leaseValid = true → SubmittedBefore e (id, sample)) :
    (∀ e ∈ (id, sample) :: samples, e.2.leaseValid = false → e.2.Late b) ∧
      (arrivals ((id, sample) :: samples)).Pairwise SubmittedBefore ∧
      Agrees b {} (arrivals ((id, sample) :: samples)) ∧
      (replaySamples b none {} (arrivals ((id, sample) :: samples))).1 =
        (replaySamples b none {} (arrivals samples)).1.after id sample.window.end v := by
  obtain ⟨hs, -⟩ := h.standing hstate
  have hfilter : ((id, sample) :: samples).filter (·.2.leaseValid) =
      (id, sample) :: samples.filter (·.2.leaseValid) := List.filter_cons_of_pos hvalid
  have harrivals : arrivals ((id, sample) :: samples) = arrivals samples ++ [(id, sample)] := by
    rw [arrivals, hfilter, List.reverse_cons, arrivals]
  rw [harrivals, replaySamples_append, replaySample_fst, hs.fold, hv]
  refine ⟨?_, ?_, ?_, rfl⟩
  · rintro e (_ | ⟨_, he⟩) hinvalid
    · rw [hvalid] at hinvalid
      cases hinvalid
    · exact h.late e he hinvalid
  · refine List.pairwise_append.2 ⟨h.ordered, List.pairwise_singleton _ _, ?_⟩
    intro e he e' he'
    obtain rfl := List.mem_singleton.1 he'
    obtain ⟨hmem, hvalid⟩ := List.mem_filter.1 (List.mem_reverse.1 he)
    exact hlast e hmem hvalid
  · intro r hr
    rw [replaySamples_append] at hr
    rcases List.mem_append.1 hr with hr | hr
    · exact h.agrees r hr
    · rw [List.mem_singleton.1 hr]
      exact replaySample_matches hclean (by rw [hs.fold, hv, hstored])

/-- The sample leaves the session authorized. -/
theorem judged (h : Sound b row samples endings) (hstate : row.state = .authorized)
    {sample : SampleRow} (hvalid : sample.leaseValid = true) (hclean : sample.Clean b)
    (hv : b.verdict row.fold sample sample.storedOutcome = v) (hstored : sample.stored = v.replayed)
    (hlast : ∀ e ∈ samples, e.2.leaseValid = true → SubmittedBefore e (id, sample))
    (hopen : v.endedReason = none) (hterms : row'.terms = row.terms) (hfold : row'.fold = v.fold)
    (hreason : row'.endedReason = row.endedReason) :
    Sound b row' ((id, sample) :: samples) endings := by
  obtain ⟨hlate, hordered, hagrees, hafter⟩ := h.arrive hstate hvalid hclean hv hstored hlast
  obtain ⟨hs, hendings⟩ := h.standing hstate
  refine ⟨hterms.trans h.terms, h.budget.trans_eq (congrArg Terms.maxSamples hterms).symm, hlate,
    hordered, hagrees, .inl ⟨?_, hendings⟩⟩
  have hstill : v.fold.state = row.fold.state := by
    rw [← hv] at hopen ⊢
    exact (judge_open hopen).1
  have htransition : v.transition = none := by
    rw [Verdict.transition, hopen]
    rfl
  rw [hafter]
  refine ⟨?_, hreason.trans hs.reason, hfold.symm, ?_, ?_, ?_, ?_⟩
  · exact (congrArg Fold.state hfold).trans (hstill.trans hstate)
  · simp [Replay.after, htransition, hs.expected]
  · simp [Replay.after, hopen, hs.ending]
  · simp [Replay.after, hopen, hs.ended]
  · rintro e (_ | ⟨_, he⟩)
    · exact (congrArg Decision.transition hstored).trans htransition
    · exact hs.quiet e he

/-- The sample ends the session. -/
theorem judgedLast (h : Sound b row samples endings) (hstate : row.state = .authorized)
    {sample : SampleRow} (hvalid : sample.leaseValid = true) (hclean : sample.Clean b)
    (hv : b.verdict row.fold sample sample.storedOutcome = v) (hstored : sample.stored = v.replayed)
    (hlast : ∀ e ∈ samples, e.2.leaseValid = true → SubmittedBefore e (id, sample))
    (hreason : v.endedReason = some e.endedReason) (htransition : e.transition = v.transition)
    (hsample : e.sampleId = if v.decision.accepted then some id else none)
    (hbefore : e.lifecycleBefore = sample.subjectLifecycle)
    (hfired : fireTransition e.lifecycleBefore e.transition = .ok e.lifecycleAfter)
    (watermark : Option Watermark) :
    Sound b (row.ended e.endedReason watermark) ((id, sample) :: samples) (e :: endings) := by
  obtain ⟨hlate, hordered, hagrees, hafter⟩ := h.arrive hstate hvalid hclean hv hstored hlast
  obtain ⟨hs, rfl⟩ := h.standing hstate
  refine ⟨h.terms, h.budget, hlate, hordered, hagrees, .inr ⟨e, rfl, ?_⟩⟩
  obtain ⟨hendState, hcause⟩ : v.fold.state = endedState e.endedReason ∧
      (v.decision.accepted = true ∧ (e.endedReason = .recoveryConfirmed ∨
          e.endedReason = .maxSamplesExhausted ∧ b.terms.maxSamples ≤ v.fold.adoptedCount) ∨
        v.decision.accepted = false ∧ v.decision.reason.ends = some e.endedReason) := by
    subst hv
    exact judge_ended hreason
  have hmoved : v.transition = e.endedReason.transition := by rw [Verdict.transition, hreason]; rfl
  rw [hafter]
  refine {
    owner := rfl
    reason := rfl
    state := rfl
    replayed := by simp [Replay.after, hs.ended, hreason]
    budget := fun hmax => ?_
    deadline := fun _ hnone => ?_
    fits := ?_
    states := .inl ?_
    lifecycle := fun l hl => ?_ }
  · rcases hcause with ⟨-, hr | ⟨-, hcount⟩⟩ | ⟨-, hends⟩
    · rw [hr] at hmax
      cases hmax
    · exact (congrArg Terms.maxSamples h.terms).trans_le hcount
    · have hmem := SampleReason.ends_mem hends
      rw [hmax] at hmem
      exact absurd hmem (by decide)
  · simp [Replay.after, hs.ended, hreason] at hnone
  · rw [EndingRow.fits, decide_eq_true_eq]
    refine ⟨?_, EndingRow.moves_of_fired hfired, ?_⟩
    · rw [EndingRow.fires, htransition, hmoved]
      rcases hcause with ⟨haccepted, hr | ⟨hr, -⟩⟩ | ⟨-, hends⟩
      · rw [hr, hsample, haccepted]
        rfl
      · rw [hr]
        rfl
      · have hmem := SampleReason.ends_mem hends
        simp only [List.mem_cons, List.not_mem_nil, or_false] at hmem
        rcases hmem with hr | hr | hr <;> rw [hr] <;> rfl
    · rw [hsample]
      simp only [Replay.after, hs.ending, hreason, Option.none_or]
      split <;> simp_all
  · exact hendState
  · have hexpected : v.transition.map (·.expected) = some l := by
      simpa only [Replay.after, hs.expected, Option.or_none] using hl
    obtain ⟨t, ht, rfl⟩ := Option.map_eq_some_iff.1 hexpected
    have hstoredTransition : sample.transition = some t :=
      (congrArg Decision.transition hstored).trans ht
    refine ⟨(id, sample), List.mem_cons_self, ?_, by simp [hstoredTransition], ?_⟩
    · rw [hbefore, htransition, ht] at hfired
      simp only [SampleRow.lifecycleAfter, hstoredTransition]
      exact expected_of_fired (judge_transition (hv ▸ ht)) hfired
    · rintro e (_ | ⟨_, he⟩) hsome
      · rfl
      · rw [hs.quiet e he] at hsome
        cases hsome

end Sound

/-! ## The report -/

section

omit [Texts]

instance : Std.Total SubmittedBefore := ⟨fun e e' => le_total (submission e) (submission e')⟩

instance : IsTrans (UUID × SampleRow) SubmittedBefore := ⟨fun _ _ _ => le_trans⟩

/-- Samples in the order of `session_history`, those without a lease left out. -/
theorem filter_insertionSort {samples : List (UUID × SampleRow)}
    (hkeys : (samples.map Prod.fst).Nodup) (hordered : (arrivals samples).Pairwise SubmittedBefore) :
    (samples.insertionSort SubmittedBefore).filter (·.2.leaseValid) = arrivals samples := by
  have hperm : ((samples.insertionSort SubmittedBefore).filter (·.2.leaseValid)).Perm
      (arrivals samples) :=
    ((List.perm_insertionSort _ samples).filter _).trans (List.reverse_perm _).symm
  refine List.Perm.eq_of_pairwise (fun e e' he he' hlt hgt => ?_)
    ((List.pairwise_insertionSort _ samples).sublist List.filter_sublist) hordered hperm
  have hmem : e ∈ samples := (List.mem_insertionSort _).1 (List.mem_filter.1 he).1
  have hmem' : e' ∈ samples := (List.mem_filter.1 (List.mem_reverse.1 he')).1
  exact List.inj_on_of_nodup_map hkeys hmem hmem'
    (Prod.ext_iff.1 (toLex_inj.1 (le_antisymm hlt hgt))).2

/-- The last of the samples with a transition, if there is only one. -/
theorem recordedLifecycle_eq {samples : List (UUID × SampleRow)} {e : UUID × SampleRow}
    (he : e ∈ samples) (hsome : e.2.transition.isSome = true)
    (honly : ∀ e' ∈ samples, e'.2.transition.isSome = true → e' = e) :
    recordedLifecycle samples = some e.2.lifecycleAfter := by
  have hmem : e ∈ samples.filter (·.2.transition.isSome) := List.mem_filter.2 ⟨he, hsome⟩
  have hne := List.ne_nil_of_mem hmem
  have hlast := List.mem_filter.1 (List.getLast_mem hne)
  rw [recordedLifecycle, List.getLast?_eq_some_getLast hne, honly _ hlast.1 hlast.2]
  rfl

theorem impliedState_eq (reason : EndedReason) : impliedState reason = endedState reason := by
  cases reason <;> rfl

end

namespace Sound

variable {history : History} {samples : List (UUID × SampleRow)}

/-- The end of the replay is the end of the session. -/
theorem sessionConsistent (h : Sound history.basis history.session samples history.endings)
    (rs : List ReplayedSample) :
    ((replaySamples history.basis none {} (arrivals samples)).1.report history
      rs).sessionConsistent = true := by
  rw [ReplayReport.sessionConsistent, decide_eq_true_eq]
  simp only [Replay.report]
  rcases h.current with ⟨hs, hendings⟩ | ⟨e, hendings, hc⟩
  · refine ⟨?_, .inl (by rw [hs.fold]; rfl)⟩
    simp [ReplayReport.endingConsistent, hs.state, hs.reason, hendings]
  · have hne : history.session.state ≠ .authorized := by
      rw [hc.state]
      exact endedState_ne_authorized _
    refine ⟨?_, ?_⟩
    · rw [ReplayReport.endingConsistent, if_neg hne]
      simp only [hendings, hc.reason, List.getLast?_singleton, List.length_singleton,
        decide_eq_true_eq, true_and]
      refine ⟨hc.replayed, fun ⟨hr, hmax⟩ => ?_, fun ⟨hr, hnone, hlt⟩ => ?_, ?_, hc.fits⟩
      · rw [if_neg h.budget.ne', Option.all_some, decide_eq_true_eq] at hmax
        exact absurd hmax (not_lt.2 (hc.budget hr))
      · exact absurd hlt (not_lt.2 (hc.deadline hr hnone))
      · rw [impliedState_eq, hc.state]
    · refine hc.states.imp_right fun ⟨hauthorized, hending, hcompleted⟩ => ⟨hauthorized, hending, ?_⟩
      cases hstate : history.session.state with
      | authorized => exact absurd hstate hne
      | completed => exact absurd hstate hcompleted
      | revoked => exact .inr rfl
      | expired => exact .inl rfl

/-- **The report on a sound session is consistent.** -/
theorem consistent (h : Sound history.basis history.session samples history.endings)
    (hkeys : (samples.map Prod.fst).Nodup)
    (hsamples : history.samples = samples.insertionSort SubmittedBefore) :
    (foldHistory history).consistent = true := by
  have hmem : ∀ e, e ∈ history.samples ↔ e ∈ samples := by
    rw [hsamples]
    exact fun e => List.mem_insertionSort _
  obtain ⟨hrun, hagrees⟩ := replaySamples_filter
    (fun e he => h.late e ((hmem e).1 he)) ({} : Replay)
  rw [hsamples, filter_insertionSort hkeys h.ordered, ← hsamples] at hrun hagrees
  rw [ReplayReport.consistent, decide_eq_true_eq, foldHistory]
  refine ⟨List.all_eq_true.2 (hagrees h.agrees), ?_, ?_⟩
  · rw [hrun]
    exact h.sessionConsistent _
  · rw [ReplayReport.lifecycleConsistent, decide_eq_true_eq]
    simp only [Replay.report, hrun]
    cases hl : (replaySamples history.basis none {} (arrivals samples)).1.expectedLifecycle with
    | none => exact .inl rfl
    | some l =>
      rcases h.current with ⟨hs, -⟩ | ⟨e, -, hc⟩
      · rw [hs.expected] at hl
        cases hl
      · obtain ⟨last, hlast, rfl, hsome, honly⟩ := hc.lifecycle l hl
        exact .inr (recordedLifecycle_eq ((hmem last).2 hlast) hsome
          fun e' he' => honly e' ((hmem e').1 he')).symm

end Sound

end OpsPilot
