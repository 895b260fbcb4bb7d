import OpsPilot.Control.Outcome

/-!
# Settled subjects

A subject that was closed has nothing left to run, and a subject whose current attempt is finished
is concluded: cancelled, completed, or with a conclusion. The first is kept by every step of the
control machine. The second is kept by every step but a decision on the subject, whose ruling may
say anything of the control mirror.

* `ClosedDormant`, **`Step.closedDormant`**: closed subjects are dormant.
* `ConcludedAt`, **`Step.concludedAt`**: a finished current attempt concludes its subject.
-/

namespace OpsPilot.Control

variable {I R T W C : Type*} {now : Time} {F F' : State I R T W C}

/-- The control mirror is closed, or there is a conclusion. -/
def Subject.concluded (sub : Subject R T C) : Bool :=
  sub.state ∈ [IncidentState.cancelled, .completed] ∨ sub.conclusion.isSome

/-- Every closed subject is dormant. -/
def ClosedDormant (F : State I R T W C) : Prop :=
  ∀ i sub, F.subjects i = some sub → sub.lifecycle = .closed → Dormant F i

/-- If its current attempt is finished, the subject is concluded. -/
def ConcludedAt (F : State I R T W C) (i : I) : Prop :=
  ∀ sub r a, F.subjects i = some sub → sub.current = some r → F.attempts r = some a →
    a.state.unfinished = false → sub.concluded = true

/-- A paused attempt is unfinished, so a finished one was not paused. -/
theorem finished_of_pausedAttempt (reaches : Attempt I W → Bool) {a : Attempt I W}
    (h : (State.pausedAttempt reaches a).state.unfinished = false) :
    a.state.unfinished = false := by
  unfold State.pausedAttempt at h
  split at h
  · cases h
  · exact h

/-- An attempt step finishes no attempt. -/
theorem AttemptStep.unfinished {a a' : Attempt I W} (h : AttemptStep now F a a')
    (hfinished : a'.state.unfinished = false) : a.state.unfinished = false := by
  cases h with
  | grant | refuse => cases hfinished
  | extend | release => exact hfinished
  | settle hmove =>
    rcases hmove with ⟨-, rfl | rfl⟩ | ⟨-, rfl⟩ <;> cases hfinished

variable [DecidableEq I] [DecidableEq R] [DecidableEq T]

/-- A step closes a subject by a ruling that cancels every unfinished attempt of it. -/
theorem Step.closes {e : Event I} (h : Step now F e F') {i : I} {sub' : Subject R T C}
    (hi : F'.subjects i = some sub') (hclosed : sub'.lifecycle = .closed) :
    (e ≠ .successor i ∧ e ≠ .reopen i ∧
      ∃ sub, F.subjects i = some sub ∧ sub.lifecycle = .closed) ∨ Dormant F' i := by
  have hset : ∀ {G : State I R T W C} {j : I} {subj : Subject R T C},
      (G.setSubject j subj).subjects i = some sub' → i = j ∧ subj = sub' ∨
        i ≠ j ∧ G.subjects i = some sub' := by
    intro G j subj hG
    by_cases hj : i = j
    · subst hj
      rw [State.setSubject_subjects_self, Option.some.injEq] at hG
      exact .inl ⟨rfl, hG⟩
    · rw [State.setSubject_subjects_ne _ hj] at hG
      exact .inr ⟨hj, hG⟩
  have hpaused : ∀ {covers : Subject R T C → Bool},
      (F.mapSubjects (F.pausedSubject covers)).subjects i = some sub' →
        ∃ sub, F.subjects i = some sub ∧ sub.lifecycle = .closed := by
    intro covers hmap
    simp only [State.mapSubjects, Option.map_eq_some_iff] at hmap
    obtain ⟨sub, hsub, rfl⟩ := hmap
    obtain ⟨-, -, -, -, hlife, -⟩ := pausedSubject_frame (F := F) covers sub
    exact ⟨sub, hsub, hlife.symm.trans hclosed⟩
  cases h with
  | idle | addTarget | attempt => exact .inl ⟨by simp, by simp, sub', hi, hclosed⟩
  | openSubject _ _ _ _ _ _ _ _ _ hlife | openHandoff _ _ _ _ hlife =>
    rcases hset hi with ⟨-, rfl⟩ | ⟨-, hbefore⟩
    · rw [hlife] at hclosed
      cases hclosed
    · exact .inl ⟨by simp, by simp, sub', hbefore, hclosed⟩
  | @publish j r sub a c hsub =>
    rcases hset hi with ⟨rfl, rfl⟩ | ⟨-, hbefore⟩
    · exact .inl ⟨by simp, by simp, sub, hsub, hclosed⟩
    · exact .inl ⟨by simp, by simp, sub', hbefore, hclosed⟩
  | @observe j sub lifecycle hsub hobs =>
    rcases hset hi with ⟨rfl, rfl⟩ | ⟨-, hbefore⟩
    · rcases hobs with hobs | ⟨-, hobs⟩ | ⟨-, hobs | hobs⟩
      · exact .inl ⟨by simp, by simp, sub, hsub, hobs.symm.trans hclosed⟩
      all_goals
        rw [show lifecycle = _ from hobs] at hclosed
        cases hclosed
    · exact .inl ⟨by simp, by simp, sub', hbefore, hclosed⟩
  | @decide j sub sub'' source target hsub hruling =>
    rcases hset hi with ⟨rfl, rfl⟩ | ⟨-, hbefore⟩
    · by_cases hold : sub.lifecycle = .closed
      · exact .inl ⟨by simp, by simp, sub, hsub, hold⟩
      · right
        refine ⟨⟨_, hi, hclosed⟩, fun r a ha hsubject => ?_⟩
        cases hruling with
        | terminate =>
          -- The ruling reached every unfinished attempt of the subject.
          obtain ⟨a₀, -, ⟨-, -, rfl⟩ | ⟨hkept, rfl⟩⟩ := State.rule_attempts_eq_some.1 ha
          · rfl
          · have hstate : a.state ∉ [RunExecution.queued, .paused, .running, .waitingHuman,
                .blocked] := fun hmem => hkept ⟨hsubject, hmem⟩
            revert hstate
            cases a.state <;> simp [RunExecution.unfinished]
        | takeover | hold | resume | note | record => exact absurd hclosed hold
        | remediate => cases hclosed
    · exact .inl ⟨by simp, by simp, sub', hbefore, hclosed⟩
  | @reopen j sub hsub =>
    rcases hset hi with ⟨-, rfl⟩ | ⟨hne, hbefore⟩
    · cases hclosed
    · exact .inl ⟨by simp, by simpa using hne.symm, sub', hbefore, hclosed⟩
  | @succeed j r sub a state source hsub =>
    rcases hset hi with ⟨-, rfl⟩ | ⟨hne, hbefore⟩
    · cases hclosed
    · exact .inl ⟨by simpa using hne.symm, by simp, sub', hbefore, hclosed⟩
  | globalGate | targetGate =>
    refine .inl ⟨by simp, by simp, ?_⟩
    split at hi
    · exact hpaused hi
    · exact ⟨sub', hi, hclosed⟩

/-- **Every step keeps closed subjects dormant.** -/
theorem Step.closedDormant {e : Event I} (h : Step now F e F') (hinv : Inv now F)
    (hF : ClosedDormant F) : ClosedDormant F' := by
  intro i sub' hi hclosed
  rcases h.closes hi hclosed with ⟨hsuccessor, hreopen, sub, hsub, hbefore⟩ | hdormant
  · exact h.dormant hinv (hF i sub hsub hbefore) hsuccessor hreopen
  · exact hdormant

/-- **A finished current attempt concludes its subject, after every step that is no decision on
it.** -/
theorem Step.concludedAt {e : Event I} (h : Step now F e F') (hinv : Inv now F) {i : I}
    (hi : ConcludedAt F i) (hne : e ≠ .decision i) : ConcludedAt F' i := by
  intro sub' r a' hsub' hcur' ha' hfinished
  have hset : ∀ {G : State I R T W C} {j : I} {subj : Subject R T C},
      (G.setSubject j subj).subjects i = some sub' → i = j ∧ subj = sub' ∨
        i ≠ j ∧ G.subjects i = some sub' := by
    intro G j subj hG
    by_cases hj : i = j
    · subst hj
      rw [State.setSubject_subjects_self, Option.some.injEq] at hG
      exact .inl ⟨rfl, hG⟩
    · rw [State.setSubject_subjects_ne _ hj] at hG
      exact .inr ⟨hj, hG⟩
  -- The current attempt of a subject is registered, and is its own.
  have howned : ∀ {sub : Subject R T C} {q : R}, F.subjects i = some sub → sub.current = some q →
      ∃ b, F.attempts q = some b ∧ b.subject = i := by
    intro sub q hsub hcur
    obtain ⟨b, hb, hsubject, -⟩ := (hinv.subject i sub hsub).owned q hcur
    exact ⟨b, hb, hsubject⟩
  have hpaused : ∀ {covers : Subject R T C → Bool} {reaches : Attempt I W → Bool},
      (F.suspend covers reaches).subjects i = some sub' →
      (F.suspend covers reaches).attempts r = some a' → sub'.concluded = true := by
    intro covers reaches hmap hattempt
    simp only [State.suspend, State.mapAttempts, State.mapSubjects, Option.map_eq_some_iff]
      at hmap hattempt
    obtain ⟨sub, hsub, rfl⟩ := hmap
    obtain ⟨a, ha, rfl⟩ := hattempt
    obtain ⟨-, hcur, -⟩ := pausedSubject_frame (F := F) covers sub
    rw [hcur] at hcur'
    have hconcluded := hi sub r a hsub hcur' ha (finished_of_pausedAttempt reaches hfinished)
    have hsame : F.pausedSubject covers sub = sub := by
      unfold State.pausedSubject
      rw [if_neg]
      rintro ⟨-, hconc, hstate, -⟩
      simp only [Subject.concluded, decide_eq_true_eq, List.mem_cons, List.not_mem_nil,
        or_false] at hconcluded hstate
      rcases hconcluded with (h | h) | h
      · exact hstate (.inr h)
      · exact hstate (.inl h)
      · rw [Option.isNone_iff_eq_none] at hconc
        rw [hconc] at h
        cases h
    rw [hsame]
    exact hconcluded
  cases h with
  | idle | addTarget => exact hi sub' r a' hsub' hcur' ha' hfinished
  | @openSubject j q sub a hj hq hcur hsubject _ _ _ _ _ _ hstate =>
    rcases hset hsub' with ⟨rfl, rfl⟩ | ⟨hij, hbefore⟩
    · rw [hcur, Option.some.injEq] at hcur'
      subst hcur'
      rw [State.setAttempt_attempts_self, Option.some.injEq] at ha'
      subst ha'
      rcases hstate with ⟨-, h⟩ | ⟨-, h⟩ <;> rw [h] at hfinished <;> cases hfinished
    · have hrq : r ≠ q := by
        rintro rfl
        obtain ⟨b, hb, -⟩ := howned hbefore hcur'
        rw [hq] at hb
        cases hb
      rw [State.setAttempt_attempts_ne _ hrq] at ha'
      exact hi sub' r a' hbefore hcur' ha' hfinished
  | openHandoff hj hcur =>
    rcases hset hsub' with ⟨-, rfl⟩ | ⟨-, hbefore⟩
    · rw [hcur] at hcur'
      cases hcur'
    · exact hi sub' r a' hbefore hcur' ha' hfinished
  | @attempt q a b ha hstep =>
    by_cases hrq : r = q
    · subst hrq
      rw [State.setAttempt_attempts_self, Option.some.injEq] at ha'
      subst ha'
      exact hi sub' r a hsub' hcur' ha (hstep.unfinished hfinished)
    · rw [State.setAttempt_attempts_ne _ hrq] at ha'
      exact hi sub' r a' hsub' hcur' ha' hfinished
  | @publish j q sub a c hsub hcur ha hrun =>
    rcases hset hsub' with ⟨rfl, rfl⟩ | ⟨hij, hbefore⟩
    · simp [Subject.concluded]
    · have hrq : r ≠ q := by
        rintro rfl
        obtain ⟨b, hb, hbi⟩ := howned hbefore hcur'
        obtain ⟨b', hb', hbj, -⟩ := (hinv.subject j sub hsub).owned r hcur
        obtain rfl := Option.some.inj (hb.symm.trans hb')
        exact hij (hbi.symm.trans hbj)
      rw [State.setAttempt_attempts_ne _ hrq] at ha'
      exact hi sub' r a' hbefore hcur' ha' hfinished
  | observe hsub | reopen hsub =>
    rcases hset hsub' with ⟨rfl, rfl⟩ | ⟨-, hbefore⟩
    · have hconcluded := hi _ r a' hsub hcur' ha' hfinished
      exact hconcluded
    · exact hi sub' r a' hbefore hcur' ha' hfinished
  | @decide j sub sub'' source target hsub hruling =>
    rcases hset hsub' with ⟨rfl, -⟩ | ⟨hij, hbefore⟩
    · exact absurd rfl hne
    · obtain ⟨b, hb, hbi⟩ := howned hbefore hcur'
      obtain ⟨a, ha, ⟨haj, -, -⟩ | ⟨-, rfl⟩⟩ := State.rule_attempts_eq_some.1 ha'
      · obtain rfl := Option.some.inj (ha.symm.trans hb)
        exact absurd (hbi.symm.trans haj) hij
      · exact hi sub' r a' hbefore hcur' ha hfinished
  | @succeed j q sub a state source hsub hq hsource hstate _ _ _ hastate =>
    rcases hset hsub' with ⟨rfl, rfl⟩ | ⟨hij, hbefore⟩
    · obtain rfl : q = r := Option.some.inj hcur'
      rw [State.setAttempt_attempts_self, Option.some.injEq] at ha'
      subst ha'
      rcases hastate with h | h <;> rw [h] at hfinished <;> cases hfinished
    · obtain ⟨b, hb, hbi⟩ := howned hbefore hcur'
      have hrq : r ≠ q := by
        rintro rfl
        rw [hq] at hb
        cases hb
      rw [State.setAttempt_attempts_ne _ hrq] at ha'
      obtain ⟨a₀, ha₀, ⟨haj, -, -⟩ | ⟨-, rfl⟩⟩ := State.rule_attempts_eq_some.1 ha'
      · obtain rfl := Option.some.inj (ha₀.symm.trans hb)
        exact absurd (hbi.symm.trans haj) hij
      · exact hi sub' r a' hbefore hcur' ha₀ hfinished
  | globalGate | targetGate =>
    split at hsub'
    · next hgate =>
      rw [if_pos hgate] at ha'
      exact hpaused hsub' ha'
    · next hgate =>
      rw [if_neg hgate] at ha'
      exact hi sub' r a' hsub' hcur' ha' hfinished

end OpsPilot.Control
