import OpsPilot.Foundations.Streak
import OpsPilot.System.Adoptions

/-!
# When recovery is confirmed

A session keeps one mark of its healthy streak, moved by every adopted sample. What it stands for is
a property of all the adopted samples together: `Terms.Recovered` asks of the longest run of samples
the session ends with that it span the sustained window.

* `SessionRow.Streaks`: the mark is where that run starts, and the endings are right.
* **`recovery_confirmation`**: recovery is confirmed exactly when the samples show it.
-/

namespace OpsPilot

open Store

/-! ## What the samples show -/

/-- The adopted samples of a session, oldest first. -/
def history (samples : List (UUID × SampleRow)) : List SampleRow := (adopted samples).reverse

/-- A sample that counts as healthy: a healthy outcome with the required signals, of a session with
a health profile, over a window that starts at or after the authorization. -/
structure Terms.Counts (terms : Terms) (r : SampleRow) : Prop where
  profile : terms.healthProfileRevision.isSome = true
  outcome : r.outcome = .healthy
  present : r.requiredSignalsPresent = true
  authorized : terms.authorizedAt ≤ r.window.start

/-- No unobserved time lies between the windows of two neighbouring samples. -/
def SampleRow.Meets (older newer : SampleRow) : Prop := newer.window.start ≤ older.window.end

/-- The longest run of samples that count, without a gap, spans the sustained window, from the end
of its first window to the end of its last. -/
def Terms.Recovered (terms : Terms) (samples : List SampleRow) : Prop :=
  ∃ run first last, LongestRun terms.Counts SampleRow.Meets samples run ∧
    run.head? = some first ∧ run.getLast? = some last ∧
    seconds terms.sustainedWindowSeconds ≤ last.window.end - first.window.end

/-- The mark of a streak: the end of the first window of the longest run. -/
def Terms.Marks (terms : Terms) (samples : List SampleRow) (mark : Option Time) : Prop :=
  ∃ run, LongestRun terms.Counts SampleRow.Meets samples run ∧
    mark = run.head?.map (·.window.end)

section

variable {terms : Terms} {samples : List SampleRow} {r : SampleRow} {mark : Option Time}

theorem Terms.marks_nil : terms.Marks [] none := ⟨[], .nil, rfl⟩

/-- An adopted sample moves the mark as `streak` does. -/
theorem Terms.Marks.adopt (h : terms.Marks samples mark) {healthy : Bool}
    (hhealthy : healthy = true ↔ terms.Counts r) {session : ObservationSession}
    {sample : HealthSample} (hwindow : sample.window = r.window)
    (hlast : session.adoptedWindowEnd = samples.getLast?.map (·.window.end)) :
    terms.Marks (samples ++ [r]) (streak session sample healthy mark) := by
  obtain ⟨run, hrun, rfl⟩ := h
  unfold streak
  split_ifs with hcounts hmark
  · exact ⟨[], .cut fun hr => by simp [hhealthy.2 hr] at hcounts, rfl⟩
  · have hr : terms.Counts r := hhealthy.1 (by simpa using hcounts)
    refine ⟨[r], ?_, by simp [hwindow]⟩
    rcases hmark with hnone | hgap
    · obtain rfl : run = [] := by simpa using hnone
      exact hrun.extend hr (by simp)
    · refine .restart hr fun y hy => ?_
      rw [hlast, hy, Option.map_some, Option.any_some, decide_eq_true_eq, hwindow] at hgap
      exact not_le.2 hgap
  · have hr : terms.Counts r := hhealthy.1 (by simpa using hcounts)
    refine ⟨run ++ [r], hrun.extend hr fun y hy => ?_, ?_⟩
    · have hmeets := (not_or.1 hmark).2
      rw [hlast, hrun.getLast?_mem hy, Option.map_some, Option.any_some, decide_eq_true_eq,
        not_lt, hwindow] at hmeets
      exact hmeets
    · cases run with
      | nil => simp at hmark
      | cons first run => rfl

/-- After a sample the samples show recovery exactly when it counts and the mark is old enough. -/
theorem Terms.Marks.recovered_iff (h : terms.Marks (samples ++ [r]) mark) :
    terms.Recovered (samples ++ [r]) ↔ terms.Counts r ∧
      ∃ t ∈ mark, seconds terms.sustainedWindowSeconds ≤ r.window.end - t := by
  obtain ⟨run, hrun, rfl⟩ := h
  have hlast : ∀ last ∈ run.getLast?, last = r := fun last hlast => by
    have hmem := hrun.getLast?_mem hlast
    simpa using hmem.symm
  constructor
  · rintro ⟨run', first, last, hrun', hfirst, hlast', hspan⟩
    obtain rfl := hrun.unique hrun'
    obtain rfl := hlast last hlast'
    exact ⟨hrun.isRun.good last (List.mem_of_getLast? hlast'), _, by rw [hfirst]; rfl, hspan⟩
  · rintro ⟨-, t, ht, hspan⟩
    obtain ⟨first, hfirst, rfl⟩ := Option.map_eq_some_iff.1 ht
    obtain ⟨last, hlast'⟩ : ∃ last, run.getLast? = some last := by
      cases run with
      | nil => cases hfirst
      | cons x run => exact ⟨_, List.getLast?_eq_some_getLast (by simp)⟩
    obtain rfl := hlast last hlast'
    exact ⟨run, first, last, hrun, hfirst, hlast', hspan⟩

end

/-! ## What a verdict makes of the streak -/

section

variable {sessionId : UUID} {terms : Terms} {fold : Fold} {sample : HealthSample} {c : Conditions}

theorem healthBasis_eq_confirmed {session : ObservationSession} {accepted : Bool} {t : Time} :
    healthBasis session sample accepted t = .confirmed ↔ accepted = true ∧
      session.healthProfileRevision.isSome = true ∧ sample.outcome = .healthy ∧
      sample.requiredSignalsPresent = true ∧ t ≤ sample.window.start := by
  unfold healthBasis
  split_ifs <;> simp_all [Option.isSome_iff_ne_none]

/-- An adopted sample is healthy exactly when it counts; it moves the mark of the streak, and it
confirms recovery when the mark is old enough. -/
theorem judge_streak {r : SampleRow} (hsample : r.outcome = sample.outcome ∧
      r.requiredSignalsPresent = sample.requiredSignalsPresent ∧ r.window = sample.window)
    (h : (judge sessionId terms fold sample c).decision.accepted = true) :
    ∃ healthy : Bool, (healthy = true ↔ terms.Counts r) ∧
      (judge sessionId terms fold sample c).fold.healthySince =
        streak (domainSession sessionId terms fold c) sample healthy fold.healthySince ∧
      ((judge sessionId terms fold sample c).endedReason = some .recoveryConfirmed ↔
        terms.Counts r ∧ ∃ t ∈ (judge sessionId terms fold sample c).fold.healthySince,
          seconds terms.sustainedWindowSeconds ≤ r.window.end - t) := by
  obtain ⟨houtcome, hpresent, hwindow⟩ := hsample
  rw [judge_decision] at h
  obtain ⟨healthy, hdef⟩ : ∃ healthy : Bool, healthy =
      (true && confirmsHealth (domainSession sessionId terms fold c) sample &&
        healthBasis (domainSession sessionId terms fold c) sample true terms.authorizedAt ==
          .confirmed) := ⟨_, rfl⟩
  have hhealthy : healthy = true ↔ terms.Counts r := by
    rw [hdef]
    simp only [Bool.true_and, Bool.and_eq_true, beq_iff_eq, healthBasis_eq_confirmed,
      confirmsHealth, domainSession]
    constructor
    · rintro ⟨-, -, hprofile, hout, hpres, hstart⟩
      exact ⟨hprofile, houtcome.trans hout, hpresent.trans hpres, hwindow ▸ hstart⟩
    · rintro ⟨hprofile, hout, hpres, hstart⟩
      rw [houtcome] at hout
      rw [hpresent] at hpres
      rw [hwindow] at hstart
      exact ⟨⟨⟨hprofile, hout⟩, hpres⟩, trivial, hprofile, hout, hpres, hstart⟩
  refine ⟨healthy, hhealthy, ?_, ?_⟩
  · simp only [judge, h, if_true, ← hdef]
  · simp only [judge, h, if_true, ← hdef, ← hhealthy, hwindow]
    generalize streak _ _ _ _ = mark
    have hold : mark.any (fun t => seconds terms.sustainedWindowSeconds ≤
        sample.window.end - t) = true ↔
        ∃ t ∈ mark, seconds terms.sustainedWindowSeconds ≤ sample.window.end - t := by
      simp [Option.any_eq_true]
    split_ifs with hconfirmed hmax
    · rw [Bool.and_eq_true, hold] at hconfirmed
      simpa using hconfirmed
    · rw [Bool.and_eq_true, hold] at hconfirmed
      simpa using hconfirmed
    · rw [Bool.and_eq_true, hold] at hconfirmed
      simpa using hconfirmed

end

/-! ## One session -/

/-- The mark of a session is that of its adopted samples; it ended with a recovery exactly when they
show one, and each sample confirmed a recovery exactly when those up to it show one. -/
structure SessionRow.Streaks (row : SessionRow) (samples : List (UUID × SampleRow)) : Prop where
  mark : row.terms.Marks (history samples) row.healthySince
  running : row.state = .authorized → row.endedReason = none
  ended : row.endedReason = some .recoveryConfirmed ↔ row.terms.Recovered (history samples)
  each : ∀ id r older, (id, r) :: older <:+ samples →
    (r.transition = some .recoveryConfirmed ↔
      r.accepted = true ∧ row.terms.Recovered (history ((id, r) :: older)))

theorem EndedReason.transition_eq {reason : EndedReason} :
    reason.transition = some .recoveryConfirmed ↔ reason = .recoveryConfirmed := by
  cases reason <;> decide

theorem Verdict.transition_eq {v : Verdict} :
    v.transition = some .recoveryConfirmed ↔ v.endedReason = some .recoveryConfirmed := by
  rw [Verdict.transition, Option.bind_eq_some_iff]
  constructor
  · rintro ⟨reason, hreason, ht⟩
    rw [hreason, EndedReason.transition_eq.1 ht]
  · intro h
    exact ⟨_, h, rfl⟩

namespace SessionRow.Streaks

variable {row row' : SessionRow} {samples : List (UUID × SampleRow)} {endings : List EndingRow}

theorem fresh (hstanding : row.fold = {}) (hunended : row.endedReason = none) :
    row.Streaks [] where
  mark := by
    have hsince : row.healthySince = none := congrArg Fold.healthySince hstanding
    rw [hsince]
    exact Terms.marks_nil
  running _ := hunended
  ended := by
    rw [hunended]
    refine iff_of_false (by simp) ?_
    rintro ⟨run, first, last, hrun, hfirst, -⟩
    obtain rfl := List.suffix_nil.1 hrun.suffix
    cases hfirst
  each id r older h := by simp at h

/-- A write that leaves the watermarks, the ending and the terms alone. -/
theorem congr (h : row.Streaks samples) (hsince : row'.healthySince = row.healthySince)
    (hterms : row'.terms = row.terms) (hreason : row'.endedReason = row.endedReason)
    (hstate : row'.state = row.state) : row'.Streaks samples where
  mark := by rw [hsince, hterms]; exact h.mark
  running hrunning := by rw [hreason]; exact h.running (hstate ▸ hrunning)
  ended := by rw [hreason, hterms]; exact h.ended
  each id r older hr := by rw [hterms]; exact h.each id r older hr

/-- An authorized session ends without an adopted sample. -/
theorem closed (h : row.Streaks samples) (hstate : row.state = .authorized)
    {reason : EndedReason} (hreason : reason ≠ .recoveryConfirmed)
    (hsince : row'.healthySince = row.healthySince) (hterms : row'.terms = row.terms)
    (hended : row'.endedReason = some reason) (hstate' : row'.state ≠ .authorized) :
    row'.Streaks samples where
  mark := by rw [hsince, hterms]; exact h.mark
  running hrunning := absurd hrunning hstate'
  ended := by
    rw [hended, hterms, ← h.ended, h.running hstate]
    simp [hreason]
  each id r older hr := by rw [hterms]; exact h.each id r older hr

/-- A sample that is not adopted. -/
theorem rejected (h : row.Streaks samples) {id : UUID} {r : SampleRow}
    (hrejected : r.accepted = false) (htransition : r.transition ≠ some .recoveryConfirmed) :
    row.Streaks ((id, r) :: samples) := by
  have hhistory : history ((id, r) :: samples) = history samples :=
    congrArg List.reverse (adopted_cons_rejected hrejected)
  refine ⟨hhistory ▸ h.mark, h.running, hhistory ▸ h.ended, fun id' r' older hsuffix => ?_⟩
  rcases List.suffix_cons_iff.1 hsuffix with heq | hsuffix
  · obtain ⟨⟨rfl, rfl⟩, rfl⟩ : (id' = id ∧ r' = r) ∧ older = samples := by simpa using heq
    exact iff_of_false htransition fun hr => by simp [hrejected] at hr
  · exact h.each id' r' older hsuffix

/-- A sample is adopted: the mark moves, and the session ends as the verdict says. -/
theorem adopted (h : row.Streaks samples) {id : UUID} {r : SampleRow}
    (haccepted : r.accepted = true) (hterms : row'.terms = row.terms)
    (hmark : row.terms.Marks (history samples ++ [r]) row'.healthySince)
    (hrunning : row'.state = .authorized → row'.endedReason = none)
    (hended : row'.endedReason = some .recoveryConfirmed ↔
      row.terms.Recovered (history samples ++ [r]))
    (htransition : r.transition = some .recoveryConfirmed ↔
      row'.endedReason = some .recoveryConfirmed) : row'.Streaks ((id, r) :: samples) := by
  have hhistory : history ((id, r) :: samples) = history samples ++ [r] := by
    rw [history, adopted_cons haccepted, List.reverse_cons, history]
  refine ⟨?_, hrunning, ?_, fun id' r' older hsuffix => ?_⟩
  · rw [hhistory, hterms]
    exact hmark
  · rw [hhistory, hterms]
    exact hended
  rw [hterms]
  rcases List.suffix_cons_iff.1 hsuffix with heq | hsuffix
  · obtain ⟨⟨rfl, rfl⟩, rfl⟩ : (id' = id ∧ r' = r) ∧ older = samples := by simpa using heq
    rw [hhistory, htransition, hended]
    simp [haccepted]
  · exact h.each id' r' older hsuffix

end SessionRow.Streaks

/-! ## Every session -/

section

variable [Texts] {op : Op} {clk : Clock} {s s' : Store} {t t' : Records}

/-- A submission keeps the streak of its session right. -/
theorem Store.Submitted.streaks {lease : SampleLease} {sample : HealthSample}
    {readings : List SignalReading} {sampleId jobId : UUID} {incident : IncidentRow}
    {row row' : SessionRow} {c : Conditions} {verdict : Verdict} {after : IncidentLifecycle}
    {samples : List (UUID × SampleRow)} {endings new : List EndingRow}
    (hsub : Submitted s clk lease sample readings sampleId jobId incident row c verdict after s')
    (hlawful : row.Lawful samples endings) (h : row.Streaks samples)
    (houtcome : Outcome row c verdict jobId row' new) :
    row'.Streaks ((sampleId,
      sampleRow lease sample readings c (s.scopeOf incident) verdict clk.later) :: samples) := by
  obtain ⟨stored, hstored⟩ : ∃ stored, stored =
      sampleRow lease sample readings c (s.scopeOf incident) verdict clk.later := ⟨_, rfl⟩
  have htransition : stored.transition = verdict.transition := by rw [hstored]; rfl
  have haccepted : stored.accepted = verdict.decision.accepted := by rw [hstored]; rfl
  have hsample : stored.outcome = sample.outcome ∧
      stored.requiredSignalsPresent = sample.requiredSignalsPresent ∧
      stored.window = sample.window := by rw [hstored]; exact ⟨rfl, rfl, rfl⟩
  have hjudged := hsub.judged
  rw [← hstored]
  cases hadopted : verdict.decision.accepted with
  | true =>
    have hverdict : Adopted row.terms row.fold sample c verdict := by
      rw [hjudged] at hadopted ⊢
      exact judge_adopted hadopted
    have hstate : row.state = .authorized := hverdict.state
    obtain ⟨healthy, hhealthy, hsince, hconfirmed⟩ := judge_streak hsample (hjudged ▸ hadopted)
    rw [← hjudged] at hsince hconfirmed
    have hlast : (domainSession lease.sessionId row.terms row.fold c).adoptedWindowEnd =
        (history samples).getLast?.map (·.window.end) := by
      rw [history, List.getLast?_reverse]
      exact hlawful.tracks.window
    have hmark : row.terms.Marks (history samples ++ [stored]) verdict.fold.healthySince := by
      rw [hsince]
      exact h.mark.adopt hhealthy hsample.2.2.symm hlast
    rw [← hmark.recovered_iff] at hconfirmed
    have hcause := Verdict.transition_eq (v := verdict)
    cases houtcome with
    | @ended e hended =>
      have hreason : (row.ended e.endedReason (some verdict.watermark)).endedReason =
          verdict.endedReason := hended.symm
      refine h.adopted (haccepted.trans hadopted) rfl hmark (fun hrunning => ?_) ?_ ?_
      · exact absurd hrunning (endedState_ne_authorized _)
      · rw [hreason, hconfirmed]
      · rw [hreason, htransition, hcause]
    | advanced hopen =>
      have hnone := h.running hstate
      have hreason : (SessionRow.advanced row verdict.fold ‹_› jobId).endedReason =
          verdict.endedReason := hnone.trans hopen.symm
      refine h.adopted (haccepted.trans hadopted) rfl hmark (fun _ => hnone) ?_ ?_
      · rw [hreason, hconfirmed]
      · rw [hreason, htransition, hcause]
    | postponed _ hrejected => rw [hrejected] at hadopted; cases hadopted
    | filed _ hrejected => rw [hrejected] at hadopted; cases hadopted
  | false =>
    have hnot : stored.transition ≠ some .recoveryConfirmed := by
      intro hconfirmed
      rw [htransition, hjudged] at hconfirmed
      rw [hjudged, judge_recovery hconfirmed] at hadopted
      cases hadopted
    refine SessionRow.Streaks.rejected ?_ (haccepted.trans hadopted) hnot
    rw [hjudged] at hadopted
    obtain ⟨hends, hfold⟩ := judge_rejected hadopted
    rw [← hjudged] at hends hfold hadopted
    cases houtcome with
    | @ended e hended =>
      rw [hended] at hends
      split at hends
      · next hstate =>
        have hreason : e.endedReason ≠ .recoveryConfirmed := by
          intro hrecovery
          have hmem := SampleReason.ends_mem hends.symm
          rw [hrecovery] at hmem
          exact absurd hmem (by decide)
        have hsince : verdict.fold.healthySince = row.healthySince := by rw [hfold]; rfl
        exact h.closed hstate hreason hsince rfl rfl (endedState_ne_authorized _)
      · cases hends
    | advanced _ haccepted' => rw [haccepted'] at hadopted; cases hadopted
    | postponed => exact h.congr rfl rfl rfl rfl
    | filed => exact h

/-- The streak of every session is right. -/
abbrev Records.Streaks (t : Records) : Prop :=
  t.Each fun _ row samples endings => row.Lawful samples endings ∧ row.Streaks samples

/-- **A write keeps the streaks right.** -/
theorem SessionStep.streaks (hstep : SessionStep op clk s t t') (h : t.Streaks) : t'.Streaks := by
  cases hstep with
  | @closed _ id row reason before after hrow hstate hreason =>
    obtain ⟨hlawful, hstreaks⟩ := h.session hrow
    refine h.close hrow fun e he => ⟨he ▸ hlawful.closed hstate e, ?_⟩
    have hne : reason ≠ .recoveryConfirmed := by
      rintro rfl
      exact absurd hreason (by decide)
    exact hstreaks.closed hstate hne rfl rfl rfl (endedState_ne_authorized _)
  | authorized _ hfresh _ hstanding hunended _ hbudget =>
    exact h.authorize hfresh ⟨.fresh hstanding hbudget, .fresh hstanding hunended⟩
  | leased _ hrow hstate =>
    obtain ⟨hlawful, hstreaks⟩ := h.session hrow
    exact h.lease hrow ⟨hlawful.leased hstate rfl rfl, hstreaks.congr rfl rfl rfl rfl⟩
  | submitted _ hsub =>
    obtain ⟨hlawful, hstreaks⟩ := h.session hsub.foundSession
    refine h.submit hsub fun row' new houtcome => ⟨?_, hsub.streaks hlawful hstreaks houtcome⟩
    exact hlawful.submitted hsub.judged hsub.owner rfl rfl rfl houtcome

theorem SessionSteps.streaks (hsteps : SessionSteps op clk s t t') (h : t.Streaks) :
    t'.Streaks := by
  induction hsteps with
  | refl => exact h
  | tail _ hstep ih => exact hstep.streaks ih

end

namespace State

variable [Texts] {σ : State}

theorem reachable_streaks (h : system.Reachable σ) : σ.store.records.Streaks := by
  refine h.invariant (P := fun σ => σ.store.records.Streaks) (fun σ hinit => ?_)
    fun {σ call σ'} hstep hσ => ?_
  · rw [hinit.1]
    exact .empty
  · rcases step_cases hstep with ⟨issued, store, hok, rfl⟩ | ⟨-, rfl⟩
    · exact (exec_sessions hok).streaks hσ
    · exact hσ

/-- **Recovery confirmation is exact.** In every reachable state a session has ended with a
confirmed recovery exactly when the longest run of counting samples without a gap that its adopted
samples end with spans the sustained window; and of the samples submitted for it, exactly those
confirmed a recovery that were adopted and with which the samples adopted so far show one. -/
theorem recovery_confirmation (h : system.Reachable σ) {id : UUID} {row : SessionRow}
    (hrow : σ.store.sessions.get id = some row) :
    (row.endedReason = some .recoveryConfirmed ↔
      row.terms.Recovered (history (σ.store.records.samplesOf id))) ∧
    ∀ newer sampleId r older,
      σ.store.records.samplesOf id = newer ++ (sampleId, r) :: older →
      (r.transition = some .recoveryConfirmed ↔
        r.accepted = true ∧ row.terms.Recovered (history ((sampleId, r) :: older))) := by
  obtain ⟨-, hstreaks⟩ := (reachable_streaks h).session hrow
  refine ⟨hstreaks.ended, fun newer sampleId r older hsamples => ?_⟩
  exact hstreaks.each sampleId r older ⟨newer, hsamples.symm⟩

end State

namespace Scenario

/-- The recovery observed in `recoveryCalls` is one its two samples show. -/
theorem recovery_confirmation_recovery : ∃ row : SessionRow,
    (State.reached recoveryCalls).store.sessions.get 10 = some row ∧
      row.endedReason = some .recoveryConfirmed ∧
      row.terms.Recovered (history ((State.reached recoveryCalls).store.records.samplesOf 10)) := by
  have hreachable : system.Reachable (State.reached recoveryCalls) :=
    State.reachable_reached (by decide +kernel)
  have hfound : (((State.reached recoveryCalls).store.sessions.get 10).map (·.endedReason)) =
      some (some .recoveryConfirmed) := by decide +kernel
  obtain ⟨row, hrow, hended⟩ := Option.map_eq_some_iff.1 hfound
  exact ⟨row, hrow, hended, (State.recovery_confirmation hreachable hrow).1.1 hended⟩

end Scenario

end OpsPilot
