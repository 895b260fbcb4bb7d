import OpsPilot.Control.Invariant

/-!
# The outcome of a subject

Which steps of the control machine can touch what a subject has come to: its current attempt, its
conclusion, its settled lifecycle, and a completed attempt.

* **`Step.subject`**: only a successor changes the current attempt, only a publication writes a
  conclusion, and only a reopening or a successor unsettles a lifecycle.
* **`Step.finished`**: an attempt that is finished stays as it ended, so `Step.completed`.
* **`Step.dormant`**: a closed subject without an unfinished attempt stays so, until it is reopened
  or gets a successor.
* **`Step.concluded`**: what a completed attempt published stands as long as it is current.
* `Step.generation_le`: no attempt goes back a generation.
* `Step.gated`: every subject is bound to a target with a gate.
-/

namespace OpsPilot.Control

variable {I R T W C : Type*} {now : Time} {F F' : State I R T W C}

/-- A subject before and after a step from `F`, as far as its outcome and its target go. -/
structure Outlives (F : State I R T W C) (e : Event I) (i : I) (sub sub' : Subject R T C) :
    Prop where
  target : sub'.target = sub.target ∨ F.HasGate sub'.target
  current : e ≠ .successor i → sub'.current = sub.current
  conclusion : e ≠ .successor i → e ≠ .publication i → sub'.conclusion = sub.conclusion
  settled : e ≠ .successor i → e ≠ .reopen i → sub.lifecycle.settled = true →
    sub'.lifecycle.settled = true

namespace Outlives

variable {e : Event I} {i : I} {sub : Subject R T C}

theorem rfl : Outlives F e i sub sub :=
  ⟨.inl (Eq.refl _), fun _ => Eq.refl _, fun _ _ => Eq.refl _, fun _ _ => id⟩

theorem pausedSubject (covers : Subject R T C → Bool) :
    Outlives F e i sub (F.pausedSubject covers sub) := by
  obtain ⟨-, hcur, htarget, -, hlife, hconc⟩ := pausedSubject_frame (F := F) covers sub
  exact ⟨.inl htarget, fun _ => hcur, fun _ _ => hconc, fun _ _ h => by rw [hlife]; exact h⟩

end Outlives

/-- A settled lifecycle is not active. -/
theorem not_active_of_settled {l : IncidentLifecycle} (h : l.settled = true) :
    activeIncidentLifecycle l = false := by
  cases l <;> first | rfl | cases h

/-- An observation leaves a settled lifecycle alone. -/
theorem Observed.settled {before after : IncidentLifecycle} (h : Observed before after)
    (hsettled : before.settled = true) : after.settled = true := by
  rcases h with rfl | ⟨rfl, -⟩ | ⟨rfl, -⟩
  · exact hsettled
  · cases hsettled
  · cases hsettled

variable {sub' subj : Subject R T C} {source : List RunExecution} {a b : Attempt I W} {r q : R}

/-- A ruling leaves a settled lifecycle settled. -/
theorem Ruling.settled {sub : Subject R T C} {target : RunExecution}
    (h : Ruling sub source target sub') (hsettled : sub.lifecycle.settled = true) :
    sub'.lifecycle.settled = true := by
  cases h with
  | terminate hstate hlife =>
    rcases hlife with h | h | ⟨-, hactive⟩
    · rw [h]
      exact hsettled
    · rw [h]
      rfl
    · rw [not_active_of_settled hsettled] at hactive
      cases hactive
  | takeover | hold | resume | note | record => exact hsettled
  | remediate hactive =>
    rw [not_active_of_settled hsettled] at hactive
    cases hactive

/-- A finished attempt has no step of its own but giving up its lease. -/
theorem AttemptStep.finished {a' : Attempt I W} (h : AttemptStep now F a a')
    (hfinished : a.state.unfinished = false) : a'.state = a.state := by
  cases h with
  | grant _ hstate => rcases hstate with h | h <;> rw [h] at hfinished <;> cases hfinished
  | refuse hstate => rcases hstate with h | ⟨h, -⟩ <;> rw [h] at hfinished <;> cases hfinished
  | extend | release => rfl
  | settle hmove =>
    rcases hmove with ⟨h, -⟩ | ⟨h, -⟩ <;> rw [h] at hfinished <;> cases hfinished

/-- A finished attempt is not paused. -/
theorem pausedAttempt_finished (reaches : Attempt I W → Bool)
    (hfinished : a.state.unfinished = false) : State.pausedAttempt reaches a = a := by
  unfold State.pausedAttempt
  rw [if_neg]
  rintro ⟨-, hmem⟩
  simp only [List.mem_cons, List.not_mem_nil, or_false] at hmem
  rcases hmem with h | h | h <;> rw [h] at hfinished <;> cases hfinished

section

variable [DecidableEq I]

/-- Replacing another subject, or this one by one that outlives it. -/
theorem outlives_setSubject {i j : I} {sub : Subject R T C} {e : Event I}
    (hsub : F.subjects i = some sub) (hsubj : F.subjects j = some subj)
    (h : j = i → Outlives F e i sub sub') :
    ∃ subj', (F.setSubject i sub').subjects j = some subj' ∧ Outlives F e j subj subj' := by
  by_cases hj : j = i
  · subst hj
    obtain rfl := Option.some.inj (hsub.symm.trans hsubj)
    exact ⟨sub', State.setSubject_subjects_self .., h (Eq.refl _)⟩
  · exact ⟨subj, by rw [State.setSubject_subjects_ne _ hj, hsubj], .rfl⟩

/-- Adding a subject leaves the others. -/
theorem outlives_newSubject {i j : I} {sub : Subject R T C} {e : Event I}
    (hnone : F.subjects i = none) (hsubj : F.subjects j = some subj) :
    ∃ subj', (F.setSubject i sub).subjects j = some subj' ∧ Outlives F e j subj subj' := by
  have hj : j ≠ i := by
    rintro rfl
    rw [hnone] at hsubj
    cases hsubj
  exact ⟨subj, by rw [State.setSubject_subjects_ne _ hj, hsubj], .rfl⟩

/-- A ruling moves no finished attempt. -/
theorem finished_rule {i : I} (target : RunExecution) (g : ℕ)
    (hsource : ∀ e ∈ source, e.unfinished = true) (ha : F.attempts r = some a)
    (hfinished : a.state.unfinished = false) :
    (F.rule i source target g).attempts r = some a := by
  refine State.rule_attempts_eq_some.2 ⟨a, ha, .inr ⟨fun h => ?_, rfl⟩⟩
  rw [hsource _ h.2] at hfinished
  cases hfinished

end

variable [DecidableEq I] [DecidableEq R] [DecidableEq T]

/-- **What a step can do to the outcome of a subject.** -/
theorem Step.subject {e : Event I} (h : Step now F e F') {j : I}
    (hsubj : F.subjects j = some subj) :
    ∃ subj', F'.subjects j = some subj' ∧ Outlives F e j subj subj' := by
  cases h with
  | idle | addTarget | attempt => exact ⟨subj, hsubj, .rfl⟩
  | openSubject hi | openHandoff hi => exact outlives_newSubject hi hsubj
  | publish hsub hcur ha hrun =>
    refine outlives_setSubject hsub hsubj fun hj => ?_
    exact ⟨.inl rfl, fun _ => rfl, fun _ hne => absurd rfl hne, fun _ _ => id⟩
  | observe hsub hobs =>
    refine outlives_setSubject hsub hsubj fun hj => ?_
    exact ⟨.inl rfl, fun _ => rfl, fun _ _ => rfl, fun _ _ => hobs.settled⟩
  | decide hsub hruling htarget =>
    obtain ⟨-, hcur, hconc, -⟩ := hruling.frame
    refine outlives_setSubject (by exact hsub) hsubj fun hj => ?_
    exact ⟨htarget, fun _ => hcur, fun _ _ => hconc, fun _ _ => hruling.settled⟩
  | reopen hsub hlife =>
    refine outlives_setSubject hsub hsubj fun hj => ?_
    exact ⟨.inl rfl, fun _ => rfl, fun _ _ => rfl, fun _ hne => absurd rfl hne⟩
  | succeed hsub hr =>
    refine outlives_setSubject (by exact hsub) hsubj fun hj => ?_
    exact ⟨.inl rfl, fun hne => absurd rfl hne, fun hne => absurd rfl hne,
      fun hne => absurd rfl hne⟩
  | globalGate hflip =>
    split
    · exact ⟨_, by simp only [State.suspend, State.mapAttempts, State.mapSubjects, hsubj]; rfl,
        .pausedSubject _⟩
    · exact ⟨subj, hsubj, .rfl⟩
  | targetGate hflip =>
    split
    · exact ⟨_, by simp only [State.suspend, State.mapAttempts, State.mapSubjects, hsubj]; rfl,
        .pausedSubject _⟩
    · exact ⟨subj, hsubj, .rfl⟩

/-- **A finished attempt stays as it ended.** -/
theorem Step.finished {e : Event I} (h : Step now F e F') (hb : F.attempts q = some b)
    (hfinished : b.state.unfinished = false) :
    ∃ b', F'.attempts q = some b' ∧ b'.state = b.state ∧ b'.subject = b.subject := by
  have hset : ∀ {G : State I R T W C} {r : R} {a' : Attempt I W}, G.attempts q = some b →
      (q = r → a'.state = b.state ∧ a'.subject = b.subject) →
      ∃ b', (G.setAttempt r a').attempts q = some b' ∧ b'.state = b.state ∧
        b'.subject = b.subject := by
    intro G r a' hb hself
    by_cases hq : q = r
    · subst hq
      exact ⟨a', State.setAttempt_attempts_self .., hself rfl⟩
    · exact ⟨b, by rw [State.setAttempt_attempts_ne _ hq, hb], rfl, rfl⟩
  have hnew : ∀ {G : State I R T W C} {r : R} {a' : Attempt I W}, G.attempts q = some b →
      G.attempts r = none → ∃ b', (G.setAttempt r a').attempts q = some b' ∧
        b'.state = b.state ∧ b'.subject = b.subject := by
    intro G r a' hb hnone
    refine hset hb fun hq => ?_
    rw [hq, hnone] at hb
    cases hb
  cases h with
  | idle | openHandoff | addTarget | observe | reopen => exact ⟨b, hb, rfl, rfl⟩
  | openSubject hi hr => exact hnew (by exact hb) hr
  | attempt ha hstep =>
    refine hset hb fun hq => ?_
    subst hq
    obtain rfl := Option.some.inj (ha.symm.trans hb)
    exact ⟨hstep.finished hfinished, hstep.frame.1⟩
  | publish hsub hcur ha hrun =>
    refine hset (by exact hb) fun hq => ?_
    subst hq
    obtain rfl := Option.some.inj (ha.symm.trans hb)
    rw [hrun] at hfinished
    cases hfinished
  | decide hsub hruling =>
    exact ⟨b, finished_rule _ _ (fun e he => hruling.source_unfinished he) hb hfinished, rfl, rfl⟩
  | @succeed i r sub a state source hsub hr hsource =>
    have hunfinished : ∀ e ∈ source, e.unfinished = true := by
      rcases hsource with rfl | ⟨rfl, -⟩ <;> decide
    refine hnew (finished_rule (i := i) .cancelled (sub.generation + 1) hunfinished hb hfinished) ?_
    simp [State.rule, State.mapAttempts, hr]
  | globalGate hflip =>
    split
    · exact ⟨_, by simp only [State.suspend, State.mapAttempts, State.mapSubjects, hb]; rfl,
        by rw [pausedAttempt_finished _ hfinished], by rw [pausedAttempt_finished _ hfinished]⟩
    · exact ⟨b, hb, rfl, rfl⟩
  | targetGate hflip =>
    split
    · exact ⟨_, by simp only [State.suspend, State.mapAttempts, State.mapSubjects, hb]; rfl,
        by rw [pausedAttempt_finished _ hfinished], by rw [pausedAttempt_finished _ hfinished]⟩
    · exact ⟨b, hb, rfl, rfl⟩

/-- A completed attempt stays completed. -/
theorem Step.completed {e : Event I} (h : Step now F e F') (hb : F.attempts q = some b)
    (hcompleted : b.state = .completed) :
    ∃ b', F'.attempts q = some b' ∧ b'.state = .completed := by
  obtain ⟨b', hb', hstate, -⟩ := h.finished hb (by rw [hcompleted]; rfl)
  exact ⟨b', hb', hstate.trans hcompleted⟩

/-- A subject a step opens has no conclusion, and no target without a gate. -/
theorem Step.opened {e : Event I} (h : Step now F e F') {i : I} (hnone : F.subjects i = none)
    (hsub' : F'.subjects i = some sub') :
    sub'.conclusion = none ∧ F.HasGate sub'.target := by
  have hkept : ∀ {j : I} {sub subj : Subject R T C} {G : State I R T W C},
      F.subjects j = some sub → G.subjects = F.subjects →
        (G.setSubject j subj).subjects i ≠ some sub' := by
    intro j sub subj G hj hG
    have hi : i ≠ j := by
      rintro rfl
      rw [hnone] at hj
      cases hj
    rw [State.setSubject_subjects_ne _ hi, hG, hnone]
    intro hget
    cases hget
  have hnew : ∀ {j : I} {subj : Subject R T C},
      (F.setSubject j subj).subjects i = some sub' → subj = sub' := by
    intro j subj hget
    by_cases hi : i = j
    · subst hi
      rwa [State.setSubject_subjects_self, Option.some.injEq] at hget
    · rw [State.setSubject_subjects_ne _ hi, hnone] at hget
      cases hget
  have hpaused : ∀ {covers : Subject R T C → Bool},
      (F.mapSubjects (F.pausedSubject covers)).subjects i ≠ some sub' := by
    intro covers
    simp only [State.mapSubjects, hnone]
    intro hget
    cases hget
  cases h with
  | idle | addTarget | attempt =>
    have hsub : F.subjects i = some sub' := hsub'
    rw [hnone] at hsub
    cases hsub
  | openSubject _ _ _ _ _ _ _ _ hconc _ _ htarget =>
    obtain rfl := hnew hsub'
    exact ⟨hconc, htarget⟩
  | openHandoff _ _ _ hconc _ htarget =>
    obtain rfl := hnew hsub'
    refine ⟨hconc, fun t ht => ?_⟩
    rw [htarget] at ht
    cases ht
  | publish hsub | observe hsub | decide hsub | reopen hsub | succeed hsub =>
    exact absurd hsub' (hkept hsub rfl)
  | globalGate | targetGate =>
    split at hsub'
    · exact absurd hsub' hpaused
    · rw [hnone] at hsub'
      cases hsub'

/-- A conclusion stood before, for the same current attempt, or is published now. -/
theorem Step.conclusion {e : Event I} (h : Step now F e F') {i : I} {c : C}
    (hsub' : F'.subjects i = some sub') (hc : sub'.conclusion = some c) :
    (∃ sub, F.subjects i = some sub ∧ sub.conclusion = some c ∧ sub'.current = sub.current) ∨
      e = .publication i := by
  by_cases hpublish : e = .publication i
  · exact .inr hpublish
  refine .inl ?_
  cases hsub : F.subjects i with
  | none =>
    rw [(h.opened hsub hsub').1] at hc
    cases hc
  | some sub =>
    obtain ⟨sub₁, hsub₁, houtlives⟩ := h.subject hsub
    obtain rfl := Option.some.inj (hsub₁.symm.trans hsub')
    by_cases hsuccessor : e = .successor i
    · subst hsuccessor
      cases h with
      | succeed =>
        simp only [State.setAttempt, State.setSubject, Function.update_self,
          Option.some.injEq] at hsub'
        rw [← hsub'] at hc
        cases hc
    · refine ⟨sub, rfl, ?_, houtlives.current hsuccessor⟩
      rw [← houtlives.conclusion hsuccessor hpublish, hc]

/-- **What a completed attempt published stands** as long as the attempt is current. -/
theorem Step.concluded {e : Event I} (h : Step now F e F') {i : I} {sub : Subject R T C} {c : C}
    (hsub : F.subjects i = some sub) (ha : F.attempts r = some a)
    (hcompleted : a.state = .completed) (hc : sub.current = some r → sub.conclusion = some c) :
    ∃ sub', F'.subjects i = some sub' ∧ (sub'.current = some r → sub'.conclusion = some c) := by
  obtain ⟨sub', hsub', houtlives⟩ := h.subject hsub
  refine ⟨sub', hsub', fun hcurrent => ?_⟩
  by_cases hsuccessor : e = .successor i
  · -- the attempt a successor makes current is new
    subst hsuccessor
    cases h with
    | succeed hsub₀ hr =>
      simp only [State.setAttempt, State.setSubject, Function.update_self, Option.some.injEq]
        at hsub'
      subst hsub'
      obtain rfl := Option.some.inj hcurrent
      rw [ha] at hr
      cases hr
  by_cases hpublish : e = .publication i
  · -- only a running attempt publishes
    subst hpublish
    cases h with
    | publish hsub₀ hcur ha₀ hrun =>
      obtain rfl := Option.some.inj (hsub.symm.trans hsub₀)
      rw [houtlives.current hsuccessor, hcur, Option.some.injEq] at hcurrent
      subst hcurrent
      obtain rfl := Option.some.inj (ha.symm.trans ha₀)
      rw [hcompleted] at hrun
      cases hrun
  · rw [houtlives.conclusion hsuccessor hpublish]
    exact hc (by rw [← houtlives.current hsuccessor, hcurrent])

/-! ## Dormant subjects -/

/-- The subject is closed, and nothing is left to run. -/
structure Dormant (F : State I R T W C) (i : I) : Prop where
  closed : ∃ sub, F.subjects i = some sub ∧ sub.lifecycle = .closed
  finished : ∀ r a, F.attempts r = some a → a.subject = i → a.state.unfinished = false

omit [DecidableEq I] [DecidableEq R] [DecidableEq T] in
/-- A ruling leaves a closed subject closed. -/
theorem Ruling.closed {sub : Subject R T C} {target : RunExecution}
    (h : Ruling sub source target sub') (hclosed : sub.lifecycle = .closed) :
    sub'.lifecycle = .closed := by
  cases h with
  | terminate hstate hlife =>
    rcases hlife with h | h | ⟨-, hactive⟩
    · rw [h, hclosed]
    · exact h
    · rw [hclosed] at hactive
      cases hactive
  | takeover | hold | resume | note | record => exact hclosed
  | remediate hactive =>
    rw [hclosed] at hactive
    cases hactive

/-- A closed subject is opened again by a reopening or a successor only. -/
theorem Step.closed {e : Event I} (h : Step now F e F') {i : I} {sub : Subject R T C}
    (hi : F.subjects i = some sub) (hclosed : sub.lifecycle = .closed)
    (hsuccessor : e ≠ .successor i) (hreopen : e ≠ .reopen i) :
    ∃ sub', F'.subjects i = some sub' ∧ sub'.lifecycle = .closed := by
  have hset : ∀ {G : State I R T W C} {j : I} {subj : Subject R T C}, G.subjects i = some sub →
      (i = j → subj.lifecycle = .closed) →
      ∃ sub', (G.setSubject j subj).subjects i = some sub' ∧ sub'.lifecycle = .closed := by
    intro G j subj hG hself
    by_cases hj : i = j
    · subst hj
      exact ⟨subj, State.setSubject_subjects_self .., hself rfl⟩
    · exact ⟨sub, by rw [State.setSubject_subjects_ne _ hj, hG], hclosed⟩
  have hpaused : ∀ {covers : Subject R T C → Bool},
      ∃ sub', (F.mapSubjects (F.pausedSubject covers)).subjects i = some sub' ∧
        sub'.lifecycle = .closed := by
    intro covers
    obtain ⟨-, -, -, -, hlife, -⟩ := pausedSubject_frame (F := F) covers sub
    exact ⟨_, by simp only [State.mapSubjects, hi, Option.map_some], hlife.trans hclosed⟩
  cases h with
  | idle | addTarget | attempt => exact ⟨sub, hi, hclosed⟩
  | openSubject hnone | openHandoff hnone =>
    refine hset hi fun hj => ?_
    rw [← hj, hi] at hnone
    cases hnone
  | publish hsub =>
    refine hset hi fun hj => ?_
    subst hj
    obtain rfl := Option.some.inj (hi.symm.trans hsub)
    exact hclosed
  | observe hsub hobs =>
    refine hset hi fun hj => ?_
    subst hj
    obtain rfl := Option.some.inj (hi.symm.trans hsub)
    rw [hclosed] at hobs
    rcases hobs with h | ⟨h, -⟩ | ⟨h, -⟩
    · exact h
    · cases h
    · cases h
  | decide hsub hruling =>
    refine hset hi fun hj => ?_
    subst hj
    obtain rfl := Option.some.inj (hi.symm.trans hsub)
    exact hruling.closed hclosed
  | reopen =>
    refine hset hi fun hj => ?_
    exact absurd (by rw [hj]) hreopen
  | succeed =>
    refine hset (by exact hi) fun hj => ?_
    exact absurd (by rw [hj]) hsuccessor
  | globalGate | targetGate =>
    split
    · exact hpaused
    · exact ⟨sub, hi, hclosed⟩

/-- **A closed subject without an unfinished attempt stays so**: an unfinished attempt would be the
current one, which has not changed, and was finished before. -/
theorem Step.dormant {e : Event I} (h : Step now F e F') (hinv : Inv now F) {i : I}
    (hdormant : Dormant F i) (hsuccessor : e ≠ .successor i) (hreopen : e ≠ .reopen i) :
    Dormant F' i := by
  obtain ⟨sub, hsub, hclosed⟩ := hdormant.closed
  refine ⟨h.closed hsub hclosed hsuccessor hreopen, fun r a' ha' hsubject => ?_⟩
  by_contra hunfinished
  rw [Bool.not_eq_false] at hunfinished
  obtain ⟨sub₁, hsub₁, hinv'⟩ := (h.inv hinv).attempt r a' ha'
  rw [hsubject] at hsub₁
  obtain ⟨sub₂, hsub₂, houtlives⟩ := h.subject hsub
  obtain rfl := Option.some.inj (hsub₁.symm.trans hsub₂)
  have hcurrent : sub.current = some r := by
    rw [← houtlives.current hsuccessor]
    exact hinv'.current hunfinished
  obtain ⟨a, ha, hai, -⟩ := (hinv.subject i sub hsub).owned r hcurrent
  have hfinished := hdormant.finished r a ha hai
  obtain ⟨a₁, ha₁, hstate, -⟩ := h.finished ha hfinished
  obtain rfl := Option.some.inj (ha₁.symm.trans ha')
  rw [hstate, hfinished] at hunfinished
  cases hunfinished

/-! ## Generations -/

section

omit [DecidableEq R] [DecidableEq T]

/-- A ruling moves no attempt back behind the generation of its subject. -/
theorem generation_rule (hinv : Inv now F) {i : I} {sub : Subject R T C}
    (hsub : F.subjects i = some sub) (source : List RunExecution) (target : RunExecution)
    (ha : F.attempts r = some a) :
    ∃ a', (F.rule i source target (sub.generation + 1)).attempts r = some a' ∧
      a.generation ≤ a'.generation := by
  by_cases h : a.subject = i ∧ a.state ∈ source
  · refine ⟨_, State.rule_attempts_eq_some.2 ⟨a, ha, .inl ⟨h.1, h.2, rfl⟩⟩, ?_⟩
    obtain ⟨sub', hsub', hattempt⟩ := hinv.attempt r a ha
    rw [h.1] at hsub'
    obtain rfl := Option.some.inj (hsub.symm.trans hsub')
    exact hattempt.generation_le.trans (Nat.le_succ _)
  · exact ⟨a, State.rule_attempts_eq_some.2 ⟨a, ha, .inr ⟨h, rfl⟩⟩, le_rfl⟩

omit [DecidableEq I] in
theorem pausedAttempt_generation (reaches : Attempt I W → Bool) (a : Attempt I W) :
    (State.pausedAttempt reaches a).generation = a.generation := by
  unfold State.pausedAttempt
  split <;> rfl

end

/-- **No attempt goes back a generation.** -/
theorem Step.generation_le {e : Event I} (h : Step now F e F') (hinv : Inv now F)
    (hb : F.attempts q = some b) :
    ∃ b', F'.attempts q = some b' ∧ b.generation ≤ b'.generation := by
  have hset : ∀ {G : State I R T W C} {r : R} {a' : Attempt I W},
      (∃ b', G.attempts q = some b' ∧ b.generation ≤ b'.generation) →
      (q = r → b.generation ≤ a'.generation) →
      ∃ b', (G.setAttempt r a').attempts q = some b' ∧ b.generation ≤ b'.generation := by
    intro G r a' hb' hself
    by_cases hq : q = r
    · subst hq
      exact ⟨a', State.setAttempt_attempts_self .., hself rfl⟩
    · obtain ⟨b', hget, hle⟩ := hb'
      exact ⟨b', by rw [State.setAttempt_attempts_ne _ hq, hget], hle⟩
  have hnew : ∀ {r : R} {a' : Attempt I W}, F.attempts r = none → q = r →
      b.generation ≤ a'.generation := by
    intro r a' hnone hq
    rw [hq, hnone] at hb
    cases hb
  have hpaused : ∀ {covers : Subject R T C → Bool} {reaches : Attempt I W → Bool},
      ∃ b', (F.suspend covers reaches).attempts q = some b' ∧ b.generation ≤ b'.generation := by
    intro covers reaches
    refine ⟨State.pausedAttempt reaches b, ?_, (pausedAttempt_generation reaches b).ge⟩
    simp only [State.suspend, State.mapAttempts, State.mapSubjects, hb, Option.map_some]
  cases h with
  | idle | openHandoff | addTarget | observe | reopen => exact ⟨b, hb, le_rfl⟩
  | openSubject hi hr => exact hset ⟨b, hb, le_rfl⟩ (hnew hr)
  | attempt ha hstep =>
    refine hset ⟨b, hb, le_rfl⟩ fun hq => ?_
    subst hq
    obtain rfl := Option.some.inj (ha.symm.trans hb)
    cases hstep with
    | grant hsub =>
      obtain ⟨sub, hsub', hattempt⟩ := hinv.attempt _ _ hb
      obtain rfl := Option.some.inj (hsub.symm.trans hsub')
      exact hattempt.generation_le
    | refuse | extend | release | settle => exact le_rfl
  | publish hsub hcur ha =>
    refine hset ⟨b, hb, le_rfl⟩ fun hq => ?_
    subst hq
    obtain rfl := Option.some.inj (ha.symm.trans hb)
    exact le_rfl
  | decide hsub hruling =>
    rw [hruling.frame.1]
    exact generation_rule hinv hsub _ _ hb
  | succeed hsub hr => exact hset (generation_rule hinv hsub _ _ hb) (hnew hr)
  | globalGate | targetGate =>
    split
    · exact hpaused
    · exact ⟨b, hb, le_rfl⟩

/-! ## Gates -/

/-- Every subject is bound to a target with a gate, or to none. -/
def Gated (F : State I R T W C) : Prop := ∀ i sub, F.subjects i = some sub → F.HasGate sub.target

/-- A gate is never taken away. -/
theorem Step.hasGate {e : Event I} (h : Step now F e F') {target : Option T}
    (hgate : F.HasGate target) : F'.HasGate target := by
  have hupdate : ∀ {t : T} {gate : Gate} {G : State I R T W C},
      G.targets = Function.update F.targets t (some gate) → G.HasGate target := by
    intro t gate G hG u hu
    rw [hG, Function.update_apply]
    split
    · rfl
    · exact hgate u hu
  cases h with
  | addTarget | targetGate => exact hupdate rfl
  | globalGate => split <;> exact hgate
  | _ => exact hgate

/-- Every gate has only flipped since it was open at generation 0. -/
structure Alternating (F : State I R T W C) : Prop where
  global : F.global.Alternates
  targets : ∀ t g, F.targets t = some g → g.Alternates

omit [DecidableEq I] [DecidableEq R] [DecidableEq T] in
theorem Alternating.target (h : Alternating F) (t : T) : ((F.targets t).getD {}).Alternates := by
  cases ht : F.targets t with
  | none => rfl
  | some g => exact h.targets t g ht

theorem Step.alternating {e : Event I} (h : Step now F e F') (ha : Alternating F) :
    Alternating F' := by
  have hupdate : ∀ {t : T} {gate : Gate}, gate.Alternates →
      ∀ u g, Function.update F.targets t (some gate) u = some g → g.Alternates := by
    intro t gate hgate u g hu
    rw [Function.update_apply] at hu
    split at hu
    · exact Option.some.inj hu ▸ hgate
    · exact ha.targets u g hu
  cases h with
  | addTarget => exact ⟨ha.global, hupdate rfl⟩
  | globalGate hflip =>
    refine ⟨hflip.alternates ha.global, ?_⟩
    dsimp only
    split <;> exact ha.targets
  | targetGate hflip =>
    refine ⟨?_, hupdate (hflip.alternates (ha.target _))⟩
    dsimp only
    split <;> exact ha.global
  | _ => exact ⟨ha.global, ha.targets⟩

/-- **Every subject stays bound to a target with a gate.** -/
theorem Step.gated {e : Event I} (h : Step now F e F') (hgated : Gated F) : Gated F' := by
  intro i sub' hsub'
  refine h.hasGate ?_
  cases hsub : F.subjects i with
  | none => exact (h.opened hsub hsub').2
  | some sub =>
    obtain ⟨sub₁, hsub₁, houtlives⟩ := h.subject hsub
    obtain rfl := Option.some.inj (hsub₁.symm.trans hsub')
    rcases houtlives.target with htarget | htarget
    · rw [htarget]
      exact hgated i sub hsub
    · exact htarget

end OpsPilot.Control
