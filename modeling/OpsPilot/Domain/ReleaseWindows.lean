import OpsPilot.Domain.Releases
import OpsPilot.Foundations.Streak

/-!
# The window of a release session

What the samples a session adopts decide about its release, one after the other
(`advance_release_window` in `opspilot/observer/release_evaluation.py`, folded as
`submit_release_sample` folds it).

* `AdoptedSample`: a sample with the bounds its adoption checks.
* `followSamples`: the fold, up to the sample that ends the session.
* `Confirms`: when the samples so far show the release to be healthy, in terms of the runs they
  end with.
* `Tracks`, `tracks_advance`: the marks of a session name the run its samples end with.
* **`release_window_exact`**: when and how the samples end the session.
-/

namespace OpsPilot

variable {terms : ReleaseTerms}

/-- A sample a session adopts: its window has ended when it is decided on, before the deadline. -/
structure AdoptedSample (terms : ReleaseTerms) where
  window : QueryWindow
  evaluation : ReleaseEvaluation
  decisionAt : Time
  decided : window.end ≤ decisionAt
  inTime : decisionAt < terms.deadlineAt

namespace AdoptedSample

/-- A verdict on sufficient evidence. -/
def Tracked (x : AdoptedSample terms) : Prop :=
  x.evaluation.evidenceSufficient = true ∧ x.evaluation.verdict ≠ .unknown

/-- Found healthy on sufficient evidence. -/
def Healthy (x : AdoptedSample terms) : Prop :=
  x.evaluation.evidenceSufficient = true ∧ x.evaluation.verdict = .healthy

/-- Found degraded on sufficient evidence. -/
def Degrades (x : AdoptedSample terms) : Prop :=
  x.evaluation.evidenceSufficient = true ∧ x.evaluation.verdict = .degraded

/-- The next window leaves no gap: it touches or overlaps this one. -/
def Touches (x y : AdoptedSample terms) : Prop := y.window.start ≤ x.window.end

theorem tracked_iff_healthy {x : AdoptedSample terms} (h : ¬ x.Degrades) :
    x.Tracked ↔ x.Healthy := by
  unfold Tracked Healthy Degrades at *
  cases hverdict : x.evaluation.verdict <;> simp_all

end AdoptedSample

open AdoptedSample

/-! ## The fold -/

/-- The samples of a session, adopted one after the other until one ends it. `used` is the number
of samples of the release before them. -/
def followSamples (terms : ReleaseTerms) : TrackingMarks → ℕ → List (AdoptedSample terms) →
    TrackingMarks × Option (ReleaseStatus × ReleaseEndedReason)
  | marks, _, [] => (marks, none)
  | marks, used, x :: samples =>
    match advanceReleaseWindow terms marks x.evaluation x.window x.decisionAt (used + 1) with
    | (marks, none) => followSamples terms marks (used + 1) samples
    | (marks, some ending) => (marks, some ending)

/-! ## What the samples show -/

/-- The samples so far show the release to be healthy: they end with a gap-free run of verdicts
that reaches back for the minimum tracking time, and with a gap-free run of healthy verdicts that
spans the sustained window from the end of its first window; the last window ends late enough
after the release, and before the deadline. -/
structure Confirms (terms : ReleaseTerms) (samples : List (AdoptedSample terms)) : Prop where
  runs : ∃ tracked healthy, LongestRun Tracked Touches samples tracked ∧
    LongestRun Healthy Touches samples healthy ∧
    ∃ first ∈ tracked.head?, ∃ start ∈ healthy.head?, ∃ last ∈ samples.getLast?,
      seconds terms.minTrackingSeconds ≤ last.window.end - first.window.start ∧
      seconds terms.sustainedWindowSeconds ≤ last.window.end - start.window.end ∧
      terms.releasedAt + seconds terms.minTrackingSeconds ≤ last.window.end ∧
      last.window.end < terms.deadlineAt

/-- No sample so far ends the session. -/
def StaysOpen (terms : ReleaseTerms) (used : ℕ) (samples : List (AdoptedSample terms)) : Prop :=
  ∀ front x, front ++ [x] <+: samples →
    ¬ x.Degrades ∧ ¬ Confirms terms (front ++ [x]) ∧ used + front.length + 1 < terms.maxSamples

/-! ## The marks -/

/-- The marks name the run of verdicts the samples end with. -/
structure Tracks (samples : List (AdoptedSample terms)) (marks : TrackingMarks) : Prop where
  healthy : ∀ x ∈ samples, ¬ x.Degrades
  run : ∃ run, LongestRun Tracked Touches samples run ∧
    marks.trackingSince = run.head?.map (·.window.start) ∧
    marks.trackingUntil = run.getLast?.map (·.window.end) ∧
    (run ≠ [] → marks.healthySince = run.head?.map (·.window.end))

theorem tracks_nil : Tracks ([] : List (AdoptedSample terms)) {} :=
  ⟨by simp, [], .nil, rfl, rfl, fun h => absurd rfl h⟩

variable {samples : List (AdoptedSample terms)} {marks : TrackingMarks} {x : AdoptedSample terms}

/-- A healthy verdict extends the run it touches, and starts a run after a gap; any other sample
ends it. -/
theorem Tracks.advance (h : Tracks samples marks) (hx : ¬ x.Degrades) :
    Tracks (samples ++ [x]) (marks.advance x.evaluation x.window) where
  healthy y hy := by
    rcases List.mem_append.1 hy with hy | hy
    · exact h.healthy y hy
    · rwa [List.mem_singleton.1 hy]
  run := by
    obtain ⟨run, hrun, hsince, huntil, hhealthy⟩ := h.run
    by_cases htracked : x.Tracked
    · have hverdict : x.evaluation.verdict = .healthy := ((tracked_iff_healthy hx).1 htracked).2
      have hsufficient := htracked.1
      cases hlast : run.getLast? with
      | none =>
        obtain rfl := List.getLast?_eq_none_iff.1 hlast
        refine ⟨[x], hrun.extend htracked (by simp), ?_, ?_, fun _ => ?_⟩
        all_goals simp [TrackingMarks.advance, huntil, hverdict, hsufficient]
      | some last =>
        have hne : run ≠ [] := by
          rintro rfl
          cases hlast
        by_cases hgap : last.window.end < x.window.start
        · have hapart : ∀ y ∈ samples.getLast?, ¬ Touches y x := by
            intro y hy
            obtain rfl : last = y := Option.some.inj ((hrun.getLast?_mem hlast).symm.trans hy)
            exact not_le.2 hgap
          refine ⟨[x], .restart htracked hapart, ?_, ?_, fun _ => ?_⟩
          all_goals simp [TrackingMarks.advance, huntil, hlast, hgap, hverdict, hsufficient]
        · have hjoin : ∀ y ∈ run.getLast?, Touches y x := by
            intro y hy
            obtain rfl : last = y := Option.some.inj (hlast.symm.trans hy)
            exact not_lt.1 hgap
          have hhead : (run ++ [x]).head? = run.head? := List.head?_append_of_ne_nil run hne
          have hsome : run.head?.map (·.window.end) ≠ none := by
            simpa [List.head?_eq_none_iff] using hne
          refine ⟨run ++ [x], hrun.extend htracked hjoin, ?_, ?_, fun _ => ?_⟩
          · simp [TrackingMarks.advance, huntil, hlast, hgap, hverdict, hsufficient, hsince, hhead]
          · simp [TrackingMarks.advance, hverdict, hsufficient]
          · simp only [TrackingMarks.advance, hverdict, if_true, huntil, hlast, Option.map_some,
              Option.all_some, hgap, decide_false, Bool.false_eq_true, false_or, hhealthy hne,
              if_neg hsome, hhead]
    · refine ⟨[], .cut htracked, ?_, ?_, fun hne => absurd rfl hne⟩
      all_goals
        simp only [TrackingMarks.advance]
        exact if_neg htracked

/-- The last sample of a run of healthy verdicts is healthy. -/
theorem Confirms.healthy (h : Confirms terms (samples ++ [x])) : x.Healthy := by
  obtain ⟨-, healthy, -, hhealthy, -, -, start, hstart, -⟩ := h.runs
  have hne : healthy ≠ [] := by
    rintro rfl
    cases hstart
  obtain ⟨last, hlast⟩ := Option.ne_none_iff_exists'.1 (mt List.getLast?_eq_none_iff.1 hne)
  obtain rfl : x = last := by simpa using hhealthy.getLast?_mem hlast
  exact hhealthy.isRun.good x (List.mem_of_getLast? hlast)

theorem Confirms.not_degrades (h : Confirms terms (samples ++ [x])) : ¬ x.Degrades :=
  fun hx => by simpa [h.healthy.2] using hx.2

/-- Where no sample is degraded, the verdicts on sufficient evidence are the healthy ones. -/
theorem Tracks.longestRun_iff (h : Tracks samples marks) {run : List (AdoptedSample terms)} :
    LongestRun Tracked Touches samples run ↔ LongestRun Healthy Touches samples run :=
  LongestRun.congr fun y hy => tracked_iff_healthy (h.healthy y hy)

/-- **The marks tell whether the samples show the release to be healthy.** -/
theorem Tracks.covers_iff (h : Tracks (samples ++ [x]) marks) :
    (x.evaluation.verdict = .healthy ∧ marks.covers terms x.window.end x.decisionAt = true) ↔
      Confirms terms (samples ++ [x]) := by
  obtain ⟨run, hrun, hsince, -, hhealthy⟩ := h.run
  constructor
  · rintro ⟨-, hcovers⟩
    simp only [TrackingMarks.covers, Option.any_eq_true, decide_eq_true_eq] at hcovers
    obtain ⟨since, htracking, start, hstart, hreleased, hminimum, hsustained, -⟩ := hcovers
    rw [hsince, Option.map_eq_some_iff] at htracking
    obtain ⟨first, hfirst, rfl⟩ := htracking
    have hne : run ≠ [] := by
      rintro rfl
      cases hfirst
    rw [hhealthy hne, hfirst, Option.map_some, Option.some.injEq] at hstart
    subst hstart
    exact ⟨run, run, hrun, h.longestRun_iff.1 hrun, first, hfirst, first, hfirst, x, by simp,
      hminimum, hsustained, hreleased, x.decided.trans_lt x.inTime⟩
  · intro hconfirms
    refine ⟨hconfirms.healthy.2, ?_⟩
    obtain ⟨tracked, healthy, htracked, hhealthyRun, first, hfirst, start, hstart, last, hlast,
      hminimum, hsustained, hreleased, -⟩ := hconfirms.runs
    obtain rfl := hrun.unique htracked
    obtain rfl := htracked.unique (h.longestRun_iff.2 hhealthyRun)
    obtain rfl : x = last := by simpa using hlast
    have hne : run ≠ [] := by
      rintro rfl
      cases hfirst
    simp only [TrackingMarks.covers, hsince, Option.mem_def.1 hfirst, hhealthy hne, Option.map_some,
      Option.any_some, decide_eq_true_eq]
    rw [hfirst] at hstart
    exact ⟨hreleased, hminimum, Option.some.inj hstart ▸ hsustained, x.inTime⟩

/-! ## What ends a session -/

/-- How a sample ends the session, after samples that left it open. -/
inductive Ends (terms : ReleaseTerms) (used : ℕ) (front : List (AdoptedSample terms))
    (x : AdoptedSample terms) : ReleaseStatus × ReleaseEndedReason → Prop
  | anomalous (h : x.Degrades) : Ends terms used front x (.anomalous, .anomalyDetected)
  | healthy (h : Confirms terms (front ++ [x])) :
      Ends terms used front x (.healthy, .healthyConfirmed)
  | unknown (hdegrades : ¬ x.Degrades) (hconfirms : ¬ Confirms terms (front ++ [x]))
      (h : terms.maxSamples ≤ used + front.length + 1) :
      Ends terms used front x (.unknown, .maxSamplesExhausted)

variable {used : ℕ} {front mid back : List (AdoptedSample terms)} {y : AdoptedSample terms}
  {ending ending' : ReleaseStatus × ReleaseEndedReason}

theorem Ends.unique (h : Ends terms used front x ending) (h' : Ends terms used front x ending') :
    ending = ending' := by
  cases h with
  | anomalous h =>
    cases h' with
    | anomalous => rfl
    | healthy h' => exact absurd h h'.not_degrades
    | unknown h' => exact absurd h h'
  | healthy h =>
    cases h' with
    | anomalous h' => exact absurd h' h.not_degrades
    | healthy => rfl
    | unknown _ h' => exact absurd h h'
  | unknown hdegrades hconfirms =>
    cases h' with
    | anomalous h' => exact absurd h' hdegrades
    | healthy h' => exact absurd h' hconfirms
    | unknown => rfl

/-- A sample that ends the session is none of the samples that leave it open. -/
theorem Ends.not_open (h : Ends terms used front x ending) {l : List (AdoptedSample terms)}
    (hopen : StaysOpen terms used l) : ¬ front ++ [x] <+: l := by
  intro hprefix
  obtain ⟨hdegrades, hconfirms, hleft⟩ := hopen front x hprefix
  cases h with
  | anomalous h => exact hdegrades h
  | healthy h => exact hconfirms h
  | unknown _ _ h => omega

/-- **One sample**: it leaves the session open, with marks that name the run it is in, or it ends
the session. -/
theorem Tracks.decides (h : Tracks front marks) (used : ℕ) (x : AdoptedSample terms) :
    match advanceReleaseWindow terms marks x.evaluation x.window x.decisionAt
        (used + front.length + 1) with
    | (marks', none) => Tracks (front ++ [x]) marks' ∧ ¬ Confirms terms (front ++ [x]) ∧
        used + front.length + 1 < terms.maxSamples
    | (_, some ending) => Ends terms used front x ending := by
  simp only [advanceReleaseWindow]
  by_cases hdegrades : x.Degrades
  · have hpair : x.evaluation.evidenceSufficient = true ∧ x.evaluation.verdict = .degraded :=
      hdegrades
    rw [if_pos hpair]
    exact .anomalous hdegrades
  · have htracks := h.advance hdegrades
    have hpair : ¬ (x.evaluation.evidenceSufficient = true ∧ x.evaluation.verdict = .degraded) :=
      hdegrades
    rw [if_neg hpair]
    by_cases hcovers : x.evaluation.verdict = .healthy ∧
        (marks.advance x.evaluation x.window).covers terms x.window.end x.decisionAt = true
    · rw [if_pos hcovers]
      exact .healthy (htracks.covers_iff.1 hcovers)
    · have hconfirms := mt htracks.covers_iff.2 hcovers
      rw [if_neg hcovers]
      by_cases hbudget : terms.maxSamples ≤ used + front.length + 1
      · rw [if_pos hbudget]
        exact .unknown hdegrades hconfirms hbudget
      · rw [if_neg hbudget]
        exact ⟨htracks, hconfirms, not_le.1 hbudget⟩

theorem StaysOpen.append (h : StaysOpen terms used front) (hdegrades : ¬ x.Degrades)
    (hconfirms : ¬ Confirms terms (front ++ [x]))
    (hleft : used + front.length + 1 < terms.maxSamples) :
    StaysOpen terms used (front ++ [x]) := by
  intro front' y hprefix
  rcases List.prefix_concat_iff.1 hprefix with heq | hprefix
  · obtain ⟨rfl, hlast⟩ := List.append_inj' heq rfl
    obtain rfl : y = x := by simpa using hlast
    exact ⟨hdegrades, hconfirms, hleft⟩
  · exact h front' y hprefix

/-- **The whole fold**: no sample ends the session, or one does after samples that leave it
open. -/
theorem Tracks.follow (h : Tracks front marks) (hopen : StaysOpen terms used front)
    (samples : List (AdoptedSample terms)) :
    match (followSamples terms marks (used + front.length) samples).2 with
    | none => StaysOpen terms used (front ++ samples)
    | some ending => ∃ mid x back, samples = mid ++ x :: back ∧
        StaysOpen terms used (front ++ mid) ∧ Ends terms used (front ++ mid) x ending := by
  induction samples generalizing front marks with
  | nil => simpa [OpsPilot.followSamples] using hopen
  | cons x samples ih =>
    have hdecides := h.decides used x
    rw [OpsPilot.followSamples]
    split at hdecides
    · next marks' _ =>
      obtain ⟨htracks, hconfirms, hleft⟩ := hdecides
      have hx : ¬ x.Degrades := htracks.healthy x (by simp)
      have hrest := ih htracks (hopen.append hx hconfirms hleft)
      rw [List.length_append, List.length_singleton, ← Nat.add_assoc] at hrest
      split at hrest
      · simpa using hrest
      · obtain ⟨mid, y, back, rfl, hmid, hends⟩ := hrest
        exact ⟨x :: mid, y, back, rfl, by simpa using hmid, by simpa using hends⟩
    · exact ⟨[], x, samples, rfl, by simpa using hopen, by simpa using hdecides⟩

theorem staysOpen_nil : StaysOpen terms used [] := by
  intro front x hprefix
  simp at hprefix

theorem follow_eq_none :
    (followSamples terms {} used samples).2 = none ↔ StaysOpen terms used samples := by
  have hstart : StaysOpen terms used [] := staysOpen_nil
  have hfollow := tracks_nil.follow hstart samples
  rw [List.length_nil, Nat.add_zero] at hfollow
  split at hfollow
  · next hnone => simpa [hnone] using hfollow
  · next ending hsome =>
    obtain ⟨mid, x, back, rfl, -, hends⟩ := hfollow
    simp only [hsome, reduceCtorEq, false_iff]
    exact fun hopen => hends.not_open hopen ⟨back, by simp⟩

/-- The first sample that ends the session decides how it ends. -/
theorem follow_eq_some :
    (followSamples terms {} used samples).2 = some ending ↔
      ∃ mid x back, samples = mid ++ x :: back ∧ StaysOpen terms used mid ∧
        Ends terms used mid x ending := by
  have hstart : StaysOpen terms used [] := staysOpen_nil
  have hfollow := tracks_nil.follow hstart samples
  rw [List.length_nil, Nat.add_zero] at hfollow
  constructor
  · intro hsome
    rw [hsome] at hfollow
    simpa using hfollow
  · rintro ⟨mid, x, back, rfl, hopen, hends⟩
    split at hfollow
    · exact absurd ⟨back, by simp⟩ (hends.not_open hfollow)
    · next ending' hsome =>
      obtain ⟨mid', x', back', heq, hopen', hends'⟩ := hfollow
      rw [List.nil_append] at hopen' hends'
      have hprefix : mid ++ [x] <+: mid ++ x :: back := ⟨back, by simp⟩
      have hprefix' : mid' ++ [x'] <+: mid ++ x :: back := ⟨back', by simp [heq]⟩
      -- the two ending samples are the same one, or one stands before the other
      rcases List.prefix_or_prefix_of_prefix hprefix hprefix' with hle | hle
      · rcases List.prefix_concat_iff.1 hle with hsame | hbefore
        · obtain ⟨rfl, hlast⟩ := List.append_inj' hsame rfl
          obtain rfl : x = x' := by simpa using hlast
          rw [hsome, hends.unique hends']
        · exact absurd hbefore (hends.not_open hopen')
      · rcases List.prefix_concat_iff.1 hle with hsame | hbefore
        · obtain ⟨rfl, hlast⟩ := List.append_inj' hsame rfl
          obtain rfl : x' = x := by simpa using hlast
          rw [hsome, hends.unique hends']
        · exact absurd hbefore (hends'.not_open hopen)

/-- **The window of a session is exact.** The session stays open as long as no sample degrades it,
the samples do not show the release to be healthy, and samples are left. It ends anomalous at the
first sample found degraded on sufficient evidence, healthy at the first sample after which the
samples show the release to be healthy, and unknown at the last sample of the budget when that one
does neither. -/
theorem release_window_exact (terms : ReleaseTerms) (used : ℕ)
    (samples : List (AdoptedSample terms)) :
    ((followSamples terms {} used samples).2 = none ↔ StaysOpen terms used samples) ∧
    ((followSamples terms {} used samples).2 = some (.anomalous, .anomalyDetected) ↔
      ∃ front x back, samples = front ++ x :: back ∧ StaysOpen terms used front ∧ x.Degrades) ∧
    ((followSamples terms {} used samples).2 = some (.healthy, .healthyConfirmed) ↔
      ∃ front x back, samples = front ++ x :: back ∧ StaysOpen terms used front ∧
        Confirms terms (front ++ [x])) ∧
    ((followSamples terms {} used samples).2 = some (.unknown, .maxSamplesExhausted) ↔
      ∃ front x back, samples = front ++ x :: back ∧ StaysOpen terms used front ∧
        ¬ x.Degrades ∧ ¬ Confirms terms (front ++ [x]) ∧
          terms.maxSamples ≤ used + front.length + 1) ∧
    ∀ ending, (followSamples terms {} used samples).2 = some ending →
      ending ∈ [(.anomalous, .anomalyDetected), (.healthy, .healthyConfirmed),
        (.unknown, .maxSamplesExhausted)] := by
  refine ⟨follow_eq_none, ?_, ?_, ?_, ?_⟩
  · rw [follow_eq_some]
    constructor
    · rintro ⟨front, x, back, hsplit, hopen, hends⟩
      cases hends with
      | anomalous h => exact ⟨front, x, back, hsplit, hopen, h⟩
    · rintro ⟨front, x, back, hsplit, hopen, h⟩
      exact ⟨front, x, back, hsplit, hopen, .anomalous h⟩
  · rw [follow_eq_some]
    constructor
    · rintro ⟨front, x, back, hsplit, hopen, hends⟩
      cases hends with
      | healthy h => exact ⟨front, x, back, hsplit, hopen, h⟩
    · rintro ⟨front, x, back, hsplit, hopen, h⟩
      exact ⟨front, x, back, hsplit, hopen, .healthy h⟩
  · rw [follow_eq_some]
    constructor
    · rintro ⟨front, x, back, hsplit, hopen, hends⟩
      cases hends with
      | unknown hdegrades hconfirms h =>
        exact ⟨front, x, back, hsplit, hopen, hdegrades, hconfirms, h⟩
    · rintro ⟨front, x, back, hsplit, hopen, hdegrades, hconfirms, h⟩
      exact ⟨front, x, back, hsplit, hopen, .unknown hdegrades hconfirms h⟩
  · intro ending hsome
    obtain ⟨front, x, back, -, -, hends⟩ := follow_eq_some.1 hsome
    cases hends <;> simp

end OpsPilot
