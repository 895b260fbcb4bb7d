import OpsPilot.Control.Machine

/-!
# The control invariant

What holds between the subjects and the attempts of every reachable state of the control
machine: `Inv now F`. It relates each attempt to its subject (`AttemptInv`) and each subject to
its current attempt (`SubjectInv`). The main facts it carries are

* an unfinished attempt is the current attempt of its subject, so there is at most one;
* a running attempt belongs to an automatic subject that no human paused or cancelled;
* an attempt that is not running holds no live lease, and no lease outlasts its deadline;
* no attempt is ahead of its subject's generation.

**`Step.inv`**: every step of the machine preserves it. The proof goes through the attempts
and the subjects of the state a step leads to, one constructor of `Step` at a time.
-/

namespace OpsPilot.Control

variable {I R T W C : Type*}

/-- What holds between an attempt and its subject. -/
structure AttemptInv (now : Time) (r : R) (a : Attempt I W) (sub : Subject R T C) : Prop where
  generation_le : a.generation ≤ sub.generation
  current : a.state.unfinished = true → sub.current = some r
  cancelled : sub.state = .cancelled → a.state.unfinished = false
  running : a.state = .running →
    sub.mode = .automatic ∧ sub.state ≠ .paused ∧ sub.state ≠ .completed
  lapsed : a.state ≠ .running → leaseLive a.leaseUntil now = false
  bounded : ∀ u ∈ a.leaseUntil, u ≤ a.deadline

/-- What holds between a subject and its current attempt. -/
structure SubjectInv (F : State I R T W C) (i : I) (sub : Subject R T C) : Prop where
  owned : ∀ r, sub.current = some r → ∃ a, F.attempts r = some a ∧ a.subject = i ∧
    (sub.conclusion.isSome = true → a.state = .completed)
  concluded : sub.conclusion.isSome = true → sub.current.isSome = true

/-- The control invariant at the time `now`. -/
structure Inv (now : Time) (F : State I R T W C) : Prop where
  attempt : ∀ r a, F.attempts r = some a →
    ∃ sub, F.subjects a.subject = some sub ∧ AttemptInv now r a sub
  subject : ∀ i sub, F.subjects i = some sub → SubjectInv F i sub

variable {r : R} {a a' : Attempt I W} {i : I} {source : List RunExecution} {target : RunExecution}

namespace Inv

/-- Time only makes leases lapse. -/
theorem mono {now now' : Time} {F : State I R T W C} (h : Inv now F) (hle : now ≤ now') :
    Inv now' F where
  attempt r a ha := by
    obtain ⟨sub, hsub, hinv⟩ := h.attempt r a ha
    refine ⟨sub, hsub, { hinv with lapsed := fun hstate => ?_ }⟩
    by_contra hlive
    rw [Bool.not_eq_false] at hlive
    exact absurd (leaseLive_antitone hle hlive) (by simp [hinv.lapsed hstate])
  subject := h.subject

/-- An unfinished attempt is current, so a subject has at most one. -/
theorem unfinished_unique {now : Time} {F : State I R T W C} (h : Inv now F) {r' : R}
    (ha : F.attempts r = some a) (ha' : F.attempts r' = some a') (hsubject : a.subject = a'.subject)
    (hu : a.state.unfinished = true) (hu' : a'.state.unfinished = true) : r = r' := by
  obtain ⟨sub, hsub, hinv⟩ := h.attempt r a ha
  obtain ⟨sub', hsub', hinv'⟩ := h.attempt r' a' ha'
  rw [hsubject, hsub', Option.some.injEq] at hsub
  subst hsub
  exact Option.some.inj ((hinv.current hu).symm.trans (hinv'.current hu'))

end Inv

/-! ## Lookups after an update -/

namespace State

variable {F : State I R T W C}

section

variable [DecidableEq I]

@[simp] theorem setSubject_attempts (i : I) (sub : Subject R T C) :
    (F.setSubject i sub).attempts = F.attempts := rfl

@[simp] theorem setSubject_subjects_self (i : I) (sub : Subject R T C) :
    (F.setSubject i sub).subjects i = some sub := Function.update_self ..

theorem setSubject_subjects_ne {j : I} (sub : Subject R T C) (h : j ≠ i) :
    (F.setSubject i sub).subjects j = F.subjects j := Function.update_of_ne h ..

@[simp] theorem rule_subjects (i : I) (source : List RunExecution) (target : RunExecution)
    (g : ℕ) : (F.rule i source target g).subjects = F.subjects := rfl

/-- An attempt after a ruling: decided if it was one the ruling moves, else as before. -/
theorem rule_attempts_eq_some {g : ℕ} :
    (F.rule i source target g).attempts r = some a' ↔
      ∃ a, F.attempts r = some a ∧
        (a.subject = i ∧ a.state ∈ source ∧ a' = a.decided target g ∨
          ¬ (a.subject = i ∧ a.state ∈ source) ∧ a' = a) := by
  simp only [rule, mapAttempts, Option.map_eq_some_iff]
  constructor
  · rintro ⟨a, ha, rfl⟩
    refine ⟨a, ha, ?_⟩
    by_cases h : a.subject = i ∧ a.state ∈ source
    · exact .inl ⟨h.1, h.2, by simp [h.1, h.2]⟩
    · exact .inr ⟨h, if_neg h⟩
  · rintro ⟨a, ha, ⟨hi, hs, rfl⟩ | ⟨h, rfl⟩⟩
    · exact ⟨a, ha, by simp [hi, hs]⟩
    · exact ⟨a', ha, if_neg h⟩

end

section

variable [DecidableEq R]

@[simp] theorem setAttempt_subjects (r : R) (a : Attempt I W) :
    (F.setAttempt r a).subjects = F.subjects := rfl

@[simp] theorem setAttempt_attempts_self (r : R) (a : Attempt I W) :
    (F.setAttempt r a).attempts r = some a := Function.update_self ..

theorem setAttempt_attempts_ne {q : R} (a : Attempt I W) (h : q ≠ r) :
    (F.setAttempt r a).attempts q = F.attempts q := Function.update_of_ne h ..

end

end State

/-! ## Preservation -/

section

variable {now : Time} {F F' : State I R T W C}

/-- A subject keeps its invariant when its current attempt keeps its subject and, once
completed, stays completed. -/
theorem SubjectInv.congr {sub : Subject R T C} (h : SubjectInv F i sub)
    (hattempts : ∀ r a, F.attempts r = some a → ∃ a', F'.attempts r = some a' ∧
      a'.subject = a.subject ∧ (a.state = .completed → a'.state = .completed)) :
    SubjectInv F' i sub where
  owned r hr := by
    obtain ⟨a, ha, hsubject, hconc⟩ := h.owned r hr
    obtain ⟨a', ha', hsubject', hdone⟩ := hattempts r a ha
    exact ⟨a', ha', hsubject'.trans hsubject, fun hc => hdone (hconc hc)⟩
  concluded := h.concluded

/-- A subject's invariant reads its pointer and whether it has a conclusion. -/
theorem SubjectInv.of_eq {sub sub' : Subject R T C} (h : SubjectInv F i sub)
    (hcur : sub'.current = sub.current) (hconc : sub'.conclusion = sub.conclusion) :
    SubjectInv F i sub' where
  owned := by rw [hcur, hconc]; exact h.owned
  concluded := by rw [hcur, hconc]; exact h.concluded

/-- What an attempt step keeps: the subject, the deadline, and a completed attempt. -/
theorem AttemptStep.frame (h : AttemptStep now F a a') :
    a'.subject = a.subject ∧ a'.deadline = a.deadline ∧
      (a.state = .completed → a'.state = .completed) := by
  cases h with
  | grant hsub hstate => exact ⟨rfl, rfl, fun h => by rcases hstate with h' | h' <;> simp_all⟩
  | refuse hstate => exact ⟨rfl, rfl, fun h => by rcases hstate with h' | h' <;> simp_all⟩
  | extend hstate => exact ⟨rfl, rfl, fun h => by simp_all⟩
  | release => exact ⟨rfl, rfl, id⟩
  | settle hmove => exact ⟨rfl, rfl, fun h => by rcases hmove with h' | h' <;> simp_all⟩

/-- An attempt step keeps the invariant of the attempt. -/
theorem AttemptStep.inv {sub : Subject R T C} (h : AttemptStep now F a a')
    (hsub : F.subjects a.subject = some sub) (hinv : AttemptInv now r a sub) :
    AttemptInv now r a' sub := by
  cases h with
  | grant hsub' hstate hcontrol hmode hopen hle =>
    rw [hsub, Option.some.injEq] at hsub'
    subst hsub'
    have hu : a.state.unfinished = true := by rcases hstate with h | h <;> rw [h] <;> rfl
    simp only [List.mem_cons, List.not_mem_nil, or_false, not_or] at hcontrol
    exact {
      generation_le := le_rfl
      current := fun _ => hinv.current hu
      cancelled := fun hc => absurd hc hcontrol.2.1
      running := fun _ => ⟨hmode, hcontrol.2.2, hcontrol.1⟩
      lapsed := fun hne => absurd rfl hne
      bounded := fun u hu => by cases hu; exact hle }
  | refuse hstate =>
    have hu : a.state.unfinished = true := by rcases hstate with h | ⟨h, -⟩ <;> rw [h] <;> rfl
    have hlapsed : leaseLive a.leaseUntil now = false := by
      rcases hstate with h | h
      · exact hinv.lapsed (by simp [h])
      · exact h.2
    exact { hinv with
      current := fun _ => hinv.current hu
      cancelled := fun hc => absurd (hinv.cancelled hc) (by simp [hu])
      running := fun h => nomatch h
      lapsed := fun _ => hlapsed }
  | extend hstate hlive hle =>
    exact { hinv with
      lapsed := fun hne => absurd hstate hne
      bounded := fun u hu => by cases hu; exact hle }
  | release =>
    exact { hinv with lapsed := fun _ => rfl, bounded := fun u hu => nomatch hu }
  | settle hmove =>
    have hu : a.state.unfinished = true := by
      rcases hmove with ⟨h, -⟩ | ⟨h, -⟩ <;> rw [h] <;> rfl
    exact {
      generation_le := hinv.generation_le
      current := fun _ => hinv.current hu
      cancelled := fun hc => absurd (hinv.cancelled hc) (by simp [hu])
      running := fun h => by
        rcases hmove with ⟨-, rfl | rfl⟩ | ⟨-, rfl⟩ <;> cases h
      lapsed := fun _ => rfl
      bounded := fun u hu => nomatch hu }

/-- The states a ruling moves attempts from are unfinished, and so is the state it moves them
to unless it cancels them. -/
theorem Ruling.source_unfinished {sub sub' : Subject R T C} (h : Ruling sub source target sub')
    {e : RunExecution} (he : e ∈ source) : e.unfinished = true := by
  cases h <;> simp only [List.mem_cons, List.not_mem_nil, or_false] at he <;>
    rcases he with rfl | rfl | rfl | rfl | rfl <;> rfl

/-- What every ruling keeps and moves on. -/
theorem Ruling.frame {sub sub' : Subject R T C} (h : Ruling sub source target sub') :
    sub'.generation = sub.generation + 1 ∧ sub'.current = sub.current ∧
      sub'.conclusion = sub.conclusion ∧ target ≠ .running := by
  cases h <;> exact ⟨rfl, rfl, rfl, by decide⟩

/-- A ruling keeps the invariant of an attempt it does not move. -/
theorem Ruling.inv_kept {sub sub' : Subject R T C} (h : Ruling sub source target sub')
    (hinv : AttemptInv now r a sub) (hkept : a.state ∉ source) : AttemptInv now r a sub' := by
  obtain ⟨hgen, hcur, -, -⟩ := h.frame
  refine {
    generation_le := by rw [hgen]; exact hinv.generation_le.trans (Nat.le_succ _)
    current := by rw [hcur]; exact hinv.current
    cancelled := ?_
    running := ?_
    lapsed := hinv.lapsed
    bounded := hinv.bounded }
  · intro hc
    cases h with
    | terminate => cases ha : a.state <;> simp_all [RunExecution.unfinished]
    | takeover | remediate => exact hinv.cancelled hc
    | hold | resume | note => cases hc
    | record hstate =>
      rcases hstate with rfl | ⟨-, hne⟩
      · exact hinv.cancelled hc
      · exact absurd hc hne
  · intro hrun
    cases h with
    | terminate | takeover | hold | resume | note => simp [hrun] at hkept
    | record hstate =>
      obtain ⟨hmode, hp, hd⟩ := hinv.running hrun
      rcases hstate with rfl | ⟨hhuman, -⟩
      · exact ⟨hmode, hp, hd⟩
      · exact absurd (hmode.symm.trans hhuman) (by decide)
    | remediate => exact hinv.running hrun

/-- A ruling establishes the invariant of an attempt it moves. -/
theorem Ruling.inv_moved {sub sub' : Subject R T C} (h : Ruling sub source target sub')
    (hinv : AttemptInv now r a sub) (hmoved : a.state ∈ source) :
    AttemptInv now r (a.decided target sub'.generation) sub' := by
  have hu := h.source_unfinished hmoved
  obtain ⟨-, hcur, -, hne⟩ := h.frame
  refine {
    generation_le := le_rfl
    current := fun _ => by rw [hcur]; exact hinv.current hu
    cancelled := ?_
    running := fun hrun => absurd hrun hne
    lapsed := fun _ => rfl
    bounded := fun u hu => nomatch hu }
  intro hc
  cases h with
  | terminate => rfl
  | takeover => exact absurd (hinv.cancelled hc) (by simp [hu])
  | hold | resume | note => cases hc
  | record | remediate => cases hmoved

end

variable {now : Time} {F F' : State I R T W C}

section

variable [DecidableEq I]

/-- A ruling on `i` keeps subjects and completions of all attempts. -/
theorem rule_attempts_kept (target : RunExecution) (g : ℕ)
    (hsource : RunExecution.completed ∉ source) (r : R) (a : Attempt I W)
    (ha : F.attempts r = some a) :
    ∃ a', (F.rule i source target g).attempts r = some a' ∧ a'.subject = a.subject ∧
      (a.state = .completed → a'.state = .completed) := by
  by_cases h : a.subject = i ∧ a.state ∈ source
  · refine ⟨a.decided target g, State.rule_attempts_eq_some.2 ⟨a, ha, .inl ⟨h.1, h.2, rfl⟩⟩,
      rfl, fun hc => absurd (hc ▸ h.2) hsource⟩
  · exact ⟨a, State.rule_attempts_eq_some.2 ⟨a, ha, .inr ⟨h, rfl⟩⟩, rfl, id⟩

namespace Inv

/-- Opening a subject without an attempt. -/
theorem openHandoff (h : Inv now F) {sub : Subject R T C} (hi : F.subjects i = none)
    (hconc : sub.conclusion = none) (hcur : sub.current = none) :
    Inv now (F.setSubject i sub) where
  attempt q b hb := by
    obtain ⟨sub', hsub', hinv⟩ := h.attempt q b hb
    have hne : b.subject ≠ i := by
      rintro rfl
      rw [hi] at hsub'
      cases hsub'
    exact ⟨sub', (State.setSubject_subjects_ne _ hne).trans hsub', hinv⟩
  subject j sub' hsub' := by
    by_cases hj : j = i
    · subst hj
      rw [State.setSubject_subjects_self, Option.some.injEq] at hsub'
      subst hsub'
      exact ⟨fun q hq => by simp [hcur] at hq, fun hc => by simp [hconc] at hc⟩
    · rw [State.setSubject_subjects_ne _ hj] at hsub'
      exact (h.subject j sub' hsub').congr fun q b hb => ⟨b, hb, rfl, id⟩

/-- A change of a subject's columns that no attempt of it reads against. -/
theorem setSubject (h : Inv now F) {sub sub' : Subject R T C} (hsub : F.subjects i = some sub)
    (hcur : sub'.current = sub.current) (hconc : sub'.conclusion = sub.conclusion)
    (hinv : ∀ r a, F.attempts r = some a → a.subject = i → AttemptInv now r a sub →
      AttemptInv now r a sub') : Inv now (F.setSubject i sub') where
  attempt q b hb := by
    obtain ⟨sub₀, hsub₀, hb'⟩ := h.attempt q b hb
    by_cases hj : b.subject = i
    · rw [hj, hsub, Option.some.injEq] at hsub₀
      subst hsub₀
      exact ⟨sub', by rw [hj]; simp, hinv q b hb hj hb'⟩
    · exact ⟨sub₀, (State.setSubject_subjects_ne _ hj).trans hsub₀, hb'⟩
  subject j sub₀ hsub₀ := by
    by_cases hj : j = i
    · subst hj
      rw [State.setSubject_subjects_self, Option.some.injEq] at hsub₀
      subst hsub₀
      exact ((h.subject j sub hsub).of_eq hcur hconc).congr fun q b hb => ⟨b, hb, rfl, id⟩
    · rw [State.setSubject_subjects_ne _ hj] at hsub₀
      exact (h.subject j sub₀ hsub₀).congr fun q b hb => ⟨b, hb, rfl, id⟩

end Inv

end

section

variable [DecidableEq R]

/-- Replacing an attempt by a later state of the same attempt keeps subjects and completions. -/
theorem setAttempt_attempts_kept (a' : Attempt I W) (ha : F.attempts r = some a)
    (hsubject : a'.subject = a.subject) (hdone : a.state = .completed → a'.state = .completed)
    (q : R) (b : Attempt I W) (hb : F.attempts q = some b) :
    ∃ b', (F.setAttempt r a').attempts q = some b' ∧ b'.subject = b.subject ∧
      (b.state = .completed → b'.state = .completed) := by
  by_cases hq : q = r
  · subst hq
    rw [ha, Option.some.injEq] at hb
    subst hb
    exact ⟨a', State.setAttempt_attempts_self .., hsubject, hdone⟩
  · exact ⟨b, (State.setAttempt_attempts_ne _ hq).trans hb, rfl, id⟩

/-- Adding an attempt under a new identity keeps every other one. -/
theorem setAttempt_attempts_new (hr : F.attempts r = none) (q : R) (b : Attempt I W)
    (hb : F.attempts q = some b) :
    (F.setAttempt r a).attempts q = some b := by
  have hq : q ≠ r := by
    rintro rfl
    rw [hr] at hb
    cases hb
  exact (State.setAttempt_attempts_ne _ hq).trans hb

namespace Inv

/-- Replacing an attempt by a step of it. -/
theorem attemptStep (h : Inv now F) (ha : F.attempts r = some a) (hstep : AttemptStep now F a a') :
    Inv now (F.setAttempt r a') where
  attempt q b hb := by
    by_cases hq : q = r
    · subst hq
      rw [State.setAttempt_attempts_self, Option.some.injEq] at hb
      subst hb
      obtain ⟨sub, hsub, hinv⟩ := h.attempt q a ha
      exact ⟨sub, by rw [hstep.frame.1]; exact hsub, hstep.inv hsub hinv⟩
    · exact h.attempt q b ((State.setAttempt_attempts_ne _ hq).symm.trans hb)
  subject j sub hsub := (h.subject j sub hsub).congr
    (setAttempt_attempts_kept a' ha hstep.frame.1 hstep.frame.2.2)

end Inv

end

namespace Inv

variable [DecidableEq I]

/-- A ruling. -/
theorem decide (h : Inv now F) {sub sub' : Subject R T C} (hsub : F.subjects i = some sub)
    (hruling : Ruling sub source target sub') :
    Inv now ((F.rule i source target sub'.generation).setSubject i sub') := by
  obtain ⟨-, hcur, hconc, -⟩ := hruling.frame
  have hcompleted : RunExecution.completed ∉ source := fun hm =>
    absurd (hruling.source_unfinished hm) (by decide)
  refine ⟨fun q b hb => ?_, fun j sub₀ hsub₀ => ?_⟩
  · rw [State.setSubject_attempts, State.rule_attempts_eq_some] at hb
    obtain ⟨a, ha, hb⟩ := hb
    obtain ⟨sub₀, hsub₀, hinv⟩ := h.attempt q a ha
    by_cases hj : a.subject = i
    · rw [hj, hsub, Option.some.injEq] at hsub₀
      subst hsub₀
      rcases hb with ⟨-, hmoved, rfl⟩ | ⟨hkept, rfl⟩
      · exact ⟨sub', by simp [Attempt.decided, Attempt.release, hj],
          hruling.inv_moved hinv hmoved⟩
      · exact ⟨sub', by rw [hj]; simp, hruling.inv_kept hinv fun hm => hkept ⟨hj, hm⟩⟩
    · rcases hb with ⟨hj', -⟩ | ⟨-, rfl⟩
      · exact absurd hj' hj
      · exact ⟨sub₀, (State.setSubject_subjects_ne _ hj).trans hsub₀, hinv⟩
  · have hkept := rule_attempts_kept (F := F) (i := i) target sub'.generation hcompleted
    by_cases hj : j = i
    · subst hj
      rw [State.setSubject_subjects_self, Option.some.injEq] at hsub₀
      subst hsub₀
      exact ((h.subject j sub hsub).of_eq hcur hconc).congr hkept
    · rw [State.setSubject_subjects_ne _ hj, State.rule_subjects] at hsub₀
      exact (h.subject j sub₀ hsub₀).congr hkept

variable [DecidableEq R]

/-- Opening a subject with its first attempt. -/
theorem openSubject (h : Inv now F) {sub : Subject R T C} (hi : F.subjects i = none)
    (hr : F.attempts r = none) (hsubject : a.subject = i) (hconc : sub.conclusion = none)
    (hcur : sub.current = some r) (ha : AttemptInv now r a sub) :
    Inv now ((F.setSubject i sub).setAttempt r a) where
  attempt q b hb := by
    by_cases hq : q = r
    · subst hq
      rw [State.setAttempt_attempts_self, Option.some.injEq] at hb
      subst hb
      exact ⟨sub, by rw [hsubject]; simp, ha⟩
    · rw [State.setAttempt_attempts_ne _ hq] at hb
      obtain ⟨sub', hsub', hinv⟩ := h.attempt q b hb
      have hne : b.subject ≠ i := by
        rintro rfl
        rw [hi] at hsub'
        cases hsub'
      exact ⟨sub', (State.setSubject_subjects_ne _ hne).trans hsub', hinv⟩
  subject j sub' hsub' := by
    by_cases hj : j = i
    · subst hj
      simp only [State.setAttempt_subjects, State.setSubject_subjects_self,
        Option.some.injEq] at hsub'
      subst hsub'
      refine ⟨fun q hq => ?_, fun hc => by simp [hconc] at hc⟩
      rw [hcur, Option.some.injEq] at hq
      subst hq
      exact ⟨a, State.setAttempt_attempts_self .., hsubject, fun hc => by simp [hconc] at hc⟩
    · rw [State.setAttempt_subjects, State.setSubject_subjects_ne _ hj] at hsub'
      exact (h.subject j sub' hsub').congr fun q b hb =>
        ⟨b, setAttempt_attempts_new hr q b hb, rfl, id⟩

/-- Publishing the conclusion of a running current attempt. -/
theorem publish (h : Inv now F) {sub : Subject R T C} (c : C) (hsub : F.subjects i = some sub)
    (hcur : sub.current = some r) (ha : F.attempts r = some a) :
    Inv now ((F.setSubject i { sub with conclusion := some c }).setAttempt r
      (a.release .completed)) := by
  obtain ⟨a₀, ha₀, hsubject, -⟩ := (h.subject i sub hsub).owned r hcur
  rw [ha, Option.some.injEq] at ha₀
  subst ha₀
  refine ⟨fun q b hb => ?_, fun j sub' hsub' => ?_⟩
  · by_cases hq : q = r
    · subst hq
      rw [State.setAttempt_attempts_self, Option.some.injEq] at hb
      subst hb
      obtain ⟨sub₀, hsub₀, hinv⟩ := h.attempt q a ha
      rw [hsubject, hsub, Option.some.injEq] at hsub₀
      subst hsub₀
      refine ⟨{ sub with conclusion := some c }, by simp [Attempt.release, hsubject], ?_⟩
      exact {
        generation_le := hinv.generation_le
        current := fun hu => nomatch hu
        cancelled := fun _ => rfl
        running := fun hr => nomatch hr
        lapsed := fun _ => rfl
        bounded := fun u hu => nomatch hu }
    · rw [State.setAttempt_attempts_ne _ hq] at hb
      obtain ⟨sub₀, hsub₀, hinv⟩ := h.attempt q b hb
      by_cases hj : b.subject = i
      · rw [hj, hsub, Option.some.injEq] at hsub₀
        subst hsub₀
        exact ⟨{ sub with conclusion := some c }, by simp [hj], { hinv with }⟩
      · exact ⟨sub₀, by simp [State.setSubject_subjects_ne _ hj, hsub₀], hinv⟩
  · have hkept := setAttempt_attempts_kept (F := F.setSubject i { sub with conclusion := some c })
      (a.release .completed) ha rfl fun _ => rfl
    by_cases hj : j = i
    · subst hj
      simp only [State.setAttempt_subjects, State.setSubject_subjects_self,
        Option.some.injEq] at hsub'
      subst hsub'
      refine ⟨fun q hq => ?_, fun _ => by simp [hcur]⟩
      have hqr : q = r := Option.some.inj (hq.symm.trans hcur)
      subst hqr
      exact ⟨a.release .completed, State.setAttempt_attempts_self .., hsubject, fun _ => rfl⟩
    · rw [State.setAttempt_subjects, State.setSubject_subjects_ne _ hj] at hsub'
      exact (h.subject j sub' hsub').congr hkept

/-- A successor attempt, opened after the unfinished ones are cancelled. -/
theorem succeed (h : Inv now F) {sub : Subject R T C} {state : IncidentState}
    (hsub : F.subjects i = some sub) (hr : F.attempts r = none)
    (hsource : source = [.queued, .paused, .running, .waitingHuman, .blocked] ∨
      source = [] ∧ sub.state = .cancelled)
    (hstate : state = .queued ∨ state = .running ∨ state = .paused) (hsubject : a.subject = i)
    (hgen : a.generation = sub.generation + 1) (hlease : a.leaseUntil = none)
    (hastate : a.state = .queued ∨ a.state = .paused) :
    Inv now (((F.rule i source .cancelled (sub.generation + 1)).setSubject i
      (sub.succeeded state r)).setAttempt r a) := by
  have hcompleted : RunExecution.completed ∉ source := by
    rcases hsource with rfl | ⟨rfl, -⟩ <;> decide
  have hstate' : state ≠ .cancelled := by rcases hstate with rfl | rfl | rfl <;> decide
  have hnone : (F.rule i source .cancelled (sub.generation + 1)).attempts r = none := by
    simp [State.rule, State.mapAttempts, hr]
  refine ⟨fun q b hb => ?_, fun j sub₀ hsub₀ => ?_⟩
  · by_cases hq : q = r
    · subst hq
      rw [State.setAttempt_attempts_self, Option.some.injEq] at hb
      subst hb
      refine ⟨sub.succeeded state q, by simp [hsubject], ?_⟩
      have hrun : a.state ≠ .running := by rcases hastate with h | h <;> rw [h] <;> decide
      exact {
        generation_le := hgen.le
        current := fun _ => rfl
        cancelled := fun hc => absurd hc hstate'
        running := fun hr => absurd hr hrun
        lapsed := fun _ => by rw [hlease]; rfl
        bounded := fun u hu => by simp [hlease] at hu }
    · rw [State.setAttempt_attempts_ne _ hq, State.setSubject_attempts,
        State.rule_attempts_eq_some] at hb
      obtain ⟨a₀, ha₀, hb⟩ := hb
      obtain ⟨sub₀, hsub₀, hinv⟩ := h.attempt q a₀ ha₀
      by_cases hj : a₀.subject = i
      · -- an attempt of the subject: none is left unfinished
        rw [hj, hsub, Option.some.injEq] at hsub₀
        subst hsub₀
        have hb' : b.subject = i := by rcases hb with ⟨-, -, rfl⟩ | ⟨-, rfl⟩ <;> exact hj
        refine ⟨sub.succeeded state r, by simp [hb'], ?_⟩
        · rcases hb with ⟨-, -, rfl⟩ | ⟨hkept, rfl⟩
          · exact {
              generation_le := le_rfl
              current := fun hu => nomatch hu
              cancelled := fun _ => rfl
              running := fun hr => nomatch hr
              lapsed := fun _ => rfl
              bounded := fun u hu => nomatch hu }
          · have hu : b.state.unfinished = false := by
              rcases hsource with rfl | ⟨rfl, hc⟩
              · cases hb : b.state <;> simp_all [RunExecution.unfinished]
              · exact hinv.cancelled hc
            exact {
              generation_le := hinv.generation_le.trans (Nat.le_succ _)
              current := fun h => absurd h (by simp [hu])
              cancelled := fun _ => hu
              running := fun hr => by rw [hr] at hu; cases hu
              lapsed := hinv.lapsed
              bounded := hinv.bounded }
      · rcases hb with ⟨hj', -⟩ | ⟨-, rfl⟩
        · exact absurd hj' hj
        · exact ⟨sub₀, by simp [State.setSubject_subjects_ne _ hj, hsub₀], hinv⟩
  · by_cases hj : j = i
    · subst hj
      simp only [State.setAttempt_subjects, State.setSubject_subjects_self,
        Option.some.injEq] at hsub₀
      subst hsub₀
      refine ⟨fun q hq => ?_, fun hc => nomatch hc⟩
      cases hq
      exact ⟨a, State.setAttempt_attempts_self .., hsubject, fun hc => nomatch hc⟩
    · rw [State.setAttempt_subjects, State.setSubject_subjects_ne _ hj,
        State.rule_subjects] at hsub₀
      refine (h.subject j sub₀ hsub₀).congr fun q b hb => ?_
      obtain ⟨b', hb', hsub', hdone⟩ := rule_attempts_kept (F := F) (i := i) .cancelled
        (sub.generation + 1) hcompleted q b hb
      exact ⟨b', setAttempt_attempts_new hnone q b' hb', hsub', hdone⟩

end Inv

/-! ## Gates -/

/-- A paused subject differs from the subject in its state only, and then it is paused. -/
theorem pausedSubject_cases (covers : Subject R T C → Bool) (sub : Subject R T C) :
    F.pausedSubject covers sub = sub ∨ F.pausedSubject covers sub = { sub with state := .paused } := by
  unfold State.pausedSubject
  split
  · exact .inr rfl
  · exact .inl rfl

theorem pausedSubject_frame (covers : Subject R T C → Bool) (sub : Subject R T C) :
    (F.pausedSubject covers sub).generation = sub.generation ∧
      (F.pausedSubject covers sub).current = sub.current ∧
      (F.pausedSubject covers sub).target = sub.target ∧
      (F.pausedSubject covers sub).mode = sub.mode ∧
      (F.pausedSubject covers sub).lifecycle = sub.lifecycle ∧
      (F.pausedSubject covers sub).conclusion = sub.conclusion := by
  rcases pausedSubject_cases (F := F) covers sub with h | h <;> rw [h] <;>
    exact ⟨rfl, rfl, rfl, rfl, rfl, rfl⟩

theorem pausedAttempt_frame (reaches : Attempt I W → Bool) (a : Attempt I W) :
    (State.pausedAttempt reaches a).subject = a.subject ∧
      (a.state = .completed → (State.pausedAttempt reaches a).state = .completed) := by
  unfold State.pausedAttempt
  split
  · next h => exact ⟨rfl, fun hc => by simp [hc] at h⟩
  · exact ⟨rfl, id⟩

/-- **A closing gate.** What it pauses is paused on both sides, and what it does not reach is
left alone. -/
theorem Inv.suspend (h : Inv now F) {covers : Subject R T C → Bool}
    {reaches : Attempt I W → Bool}
    (hreach : ∀ a sub, F.subjects a.subject = some sub → (reaches a = true ↔ covers sub = true)) :
    Inv now (F.suspend covers reaches) := by
  refine ⟨fun q b hb => ?_, fun j sub' hsub' => ?_⟩
  · simp only [State.suspend, State.mapAttempts, State.mapSubjects,
      Option.map_eq_some_iff] at hb
    obtain ⟨a, ha, rfl⟩ := hb
    obtain ⟨sub, hsub, hinv⟩ := h.attempt q a ha
    refine ⟨F.pausedSubject covers sub, ?_, ?_⟩
    · simp [State.suspend, State.mapAttempts, State.mapSubjects, (pausedAttempt_frame reaches a).1,
        hsub]
    · obtain ⟨hgen, hcur, -, hmode, -, -⟩ := pausedSubject_frame (F := F) covers sub
      by_cases hmoved : reaches a = true ∧ a.state ∈ [RunExecution.queued, .running, .waitingHuman]
      · have hu : a.state.unfinished = true := by
          have hm := hmoved.2
          simp only [List.mem_cons, List.not_mem_nil, or_false] at hm
          rcases hm with h | h | h <;> rw [h] <;> rfl
        rw [State.pausedAttempt, if_pos hmoved]
        exact {
          generation_le := by rw [hgen]; exact hinv.generation_le
          current := fun _ => by rw [hcur]; exact hinv.current hu
          cancelled := fun hc => by
            rcases pausedSubject_cases (F := F) covers sub with hp | hp <;> rw [hp] at hc
            · exact absurd (hinv.cancelled hc) (by simp [hu])
            · cases hc
          running := fun hr => nomatch hr
          lapsed := fun _ => rfl
          bounded := fun u hu => nomatch hu }
      · rw [State.pausedAttempt, if_neg hmoved]
        refine { hinv with
          generation_le := by rw [hgen]; exact hinv.generation_le
          current := by rw [hcur]; exact hinv.current
          cancelled := fun hc => ?_
          running := fun hr => ?_ }
        · rcases pausedSubject_cases (F := F) covers sub with hp | hp <;> rw [hp] at hc
          · exact hinv.cancelled hc
          · cases hc
        · -- a running attempt the gate does not reach has a subject it does not cover
          have hcov : covers sub = false := by
            by_contra hc
            rw [Bool.not_eq_false] at hc
            exact hmoved ⟨(hreach a sub hsub).2 hc, by simp [hr]⟩
          have hp : F.pausedSubject covers sub = sub := if_neg (by simp [hcov])
          rw [hp]
          exact hinv.running hr
  · simp only [State.suspend, State.mapAttempts, State.mapSubjects,
      Option.map_eq_some_iff] at hsub'
    obtain ⟨sub, hsub, rfl⟩ := hsub'
    obtain ⟨-, hcur, -, -, -, hconc⟩ := pausedSubject_frame (F := F) covers sub
    refine ((h.subject j sub hsub).of_eq hcur hconc).congr fun r a ha => ?_
    exact ⟨State.pausedAttempt reaches a,
      by simp [State.suspend, State.mapAttempts, State.mapSubjects, ha],
      (pausedAttempt_frame reaches a).1, (pausedAttempt_frame reaches a).2⟩

/-- The gates are not part of the invariant. -/
theorem Inv.withGates (h : Inv now F) (global : Gate) (targets : T → Option Gate) :
    Inv now { F with global, targets } where
  attempt := h.attempt
  subject i sub hsub := (h.subject i sub hsub).congr fun _ a ha => ⟨a, ha, rfl, id⟩

/-! ## The step theorem -/

/-- An observed lifecycle is no part of the invariant of an attempt. -/
theorem AttemptInv.withLifecycle {sub : Subject R T C} (h : AttemptInv now r a sub)
    (lifecycle : IncidentLifecycle) :
    AttemptInv now r a { sub with lifecycle } := { h with }

/-- **Every step of the control machine preserves the control invariant.** -/
theorem Step.inv [DecidableEq I] [DecidableEq R] [DecidableEq T] {e : Event I}
    (hstep : Step now F e F') (h : Inv now F) : Inv now F' := by
  cases hstep with
  | idle => exact h
  | openSubject hi hr hcur hsub hgen hsgen hlease _ hconc _ hstate =>
    refine h.openSubject hi hr hsub hconc hcur {
      generation_le := by rw [hgen]; exact Nat.zero_le _
      current := fun _ => hcur
      cancelled := fun hc => ?_
      running := fun hrun => ?_
      lapsed := fun _ => by rw [hlease]; rfl
      bounded := fun u hu => by simp [hlease] at hu }
    · rcases hstate with ⟨h, -⟩ | ⟨h, -⟩ <;> rw [h] at hc <;> cases hc
    · rcases hstate with ⟨-, h⟩ | ⟨-, h⟩ <;> rw [h] at hrun <;> cases hrun
  | openHandoff hi hcur _ hconc => exact h.openHandoff hi hconc hcur
  | addTarget ht => exact h.withGates F.global _
  | attempt ha hstep => exact h.attemptStep ha hstep
  | publish hsub hcur ha => exact h.publish _ hsub hcur ha
  | observe hsub => exact h.setSubject hsub rfl rfl fun _ _ _ _ hinv => hinv.withLifecycle _
  | decide hsub hruling => exact h.decide hsub hruling
  | reopen hsub =>
    exact h.setSubject hsub rfl rfl fun _ _ _ _ hinv =>
      { hinv with generation_le := hinv.generation_le.trans (Nat.le_succ _) }
  | succeed hsub hr hsource hstate hsubj hgen hlease hastate =>
    exact h.succeed hsub hr hsource hstate hsubj hgen hlease hastate
  | globalGate =>
    split
    · exact (h.suspend fun _ _ _ => Iff.rfl).withGates _ _
    · exact h.withGates _ _
  | targetGate _ hreach =>
    split
    · refine (h.suspend fun a sub hsub => ?_).withGates _ _
      rw [hreach a sub hsub, decide_eq_true_eq]
    · exact h.withGates _ _

end OpsPilot.Control
