import OpsPilot.Control.Invariant

/-!
# The lease fence

A lease names an attempt, its owner and epoch, and the generations it was granted under. It is
*valid* while the attempt and the gates still say the same and its time has not run out.

* `Step.advances` is what every step guarantees to everyone else: epochs, subject generations
  and gate generations only go up, and while they stay the same the owner does not change, an
  expired lease is not revived, the target stays and the gate keeps its flag.
* `Issued.advance` carries what a granted lease knows about the future along such a step.
* **`Issued.invalid_forever`**: a granted lease that is not valid is not valid after the step.
* **`Valid.unique`**: two valid leases on one attempt are equal.
-/

namespace OpsPilot.Control

variable {I R T W C : Type*}

/-- A lease on an attempt. -/
@[ext] structure Lease (I R W : Type*) where
  subject : I
  attempt : R
  owner : W
  epoch : ℕ
  generation : ℕ
  globalGeneration : ℕ
  targetGeneration : ℕ

/-- The lease authorises a write at the time `now`. -/
structure Valid (F : State I R T W C) (now : Time) (L : Lease I R W) (a : Attempt I W)
    (sub : Subject R T C) : Prop where
  attempt : F.attempts L.attempt = some a
  subject : F.subjects a.subject = some sub
  bound : a.subject = L.subject
  owner : a.owner = some L.owner
  epoch : a.epoch = L.epoch
  generation : sub.generation = L.generation
  live : leaseLive a.leaseUntil now = true
  deadline : now < a.deadline
  isOpen : F.Open sub
  global : F.global.generation = L.globalGeneration
  target : (F.targetGate sub).generation = L.targetGeneration

/-- One attempt as a step may change it, at the time `now`. -/
structure AttemptAdvances (now : Time) (a a' : Attempt I W) : Prop where
  subject : a'.subject = a.subject
  deadline : a'.deadline = a.deadline
  epoch : a.epoch ≤ a'.epoch
  owner : a'.epoch = a.epoch → a'.owner = a.owner ∨ a'.owner = none
  live : a'.epoch = a.epoch → leaseLive a'.leaseUntil now = true →
    leaseLive a.leaseUntil now = true

/-- One gate as a step may change it. -/
structure GateAdvances (g g' : Gate) : Prop where
  generation : g.generation ≤ g'.generation
  suspended : g'.generation = g.generation → g'.suspended = g.suspended

/-- What every step guarantees about the columns the fence reads. -/
structure Advances (now : Time) (F F' : State I R T W C) : Prop where
  attempt : ∀ r a, F.attempts r = some a →
    ∃ a', F'.attempts r = some a' ∧ AttemptAdvances now a a'
  subject : ∀ i sub, F.subjects i = some sub →
    ∃ sub', F'.subjects i = some sub' ∧ sub.generation ≤ sub'.generation ∧
      (sub'.generation = sub.generation → sub'.target = sub.target)
  global : GateAdvances F.global F'.global
  target : ∀ t, GateAdvances ((F.targets t).getD {}) ((F'.targets t).getD {})

/-! ## Every step advances -/

theorem GateAdvances.rfl {g : Gate} : GateAdvances g g := ⟨le_rfl, fun _ => Eq.refl _⟩

theorem GateAdvances.of_flips {g g' : Gate} (h : g.Flips g') : GateAdvances g g' where
  generation := by rw [h.2]; exact Nat.le_succ _
  suspended heq := by have := h.2; omega

theorem GateAdvances.trans {g g' g'' : Gate} (h : GateAdvances g g') (h' : GateAdvances g' g'') :
    GateAdvances g g'' where
  generation := h.generation.trans h'.generation
  suspended heq := by
    have hfirst := h.generation
    have hsecond := h'.generation
    rw [h'.suspended (by omega), h.suspended (by omega)]

namespace AttemptAdvances

variable {now : Time} {a : Attempt I W}

theorem rfl : AttemptAdvances now a a := ⟨Eq.refl _, Eq.refl _, le_rfl, fun _ => .inl (Eq.refl _), fun _ => id⟩

theorem release (state : RunExecution) : AttemptAdvances now a (a.release state) :=
  ⟨Eq.refl _, Eq.refl _, le_rfl, fun _ => .inr (Eq.refl _), fun _ h => nomatch h⟩

theorem decided (state : RunExecution) (g : ℕ) : AttemptAdvances now a (a.decided state g) :=
  ⟨Eq.refl _, Eq.refl _, le_rfl, fun _ => .inr (Eq.refl _), fun _ h => nomatch h⟩

theorem pausedAttempt (reaches : Attempt I W → Bool) :
    AttemptAdvances now a (State.pausedAttempt reaches a) := by
  unfold State.pausedAttempt
  split
  · exact release _
  · exact rfl

end AttemptAdvances

theorem AttemptStep.advances {now : Time} {F : State I R T W C} {a a' : Attempt I W}
    (h : AttemptStep now F a a') : AttemptAdvances now a a' := by
  cases h with
  | grant =>
    exact ⟨rfl, rfl, Nat.le_succ _, fun h => absurd h (Nat.succ_ne_self _),
      fun h => absurd h (Nat.succ_ne_self _)⟩
  | refuse => exact ⟨rfl, rfl, le_rfl, fun _ => .inl rfl, fun _ => id⟩
  | extend _ hlive => exact ⟨rfl, rfl, le_rfl, fun _ => .inl rfl, fun _ _ => hlive⟩
  | release => exact .release _
  | settle => exact .release _

namespace Advances

variable {now : Time} {F : State I R T W C}

/-- A state that changes subjects and attempts only, each as a step may change it. -/
theorem of_maps {F' : State I R T W C}
    (hattempt : ∀ r a, F.attempts r = some a →
      ∃ a', F'.attempts r = some a' ∧ AttemptAdvances now a a')
    (hsubject : ∀ i sub, F.subjects i = some sub →
      ∃ sub', F'.subjects i = some sub' ∧ sub.generation ≤ sub'.generation ∧
        (sub'.generation = sub.generation → sub'.target = sub.target))
    (hglobal : F'.global = F.global) (htargets : F'.targets = F.targets) : Advances now F F' :=
  ⟨hattempt, hsubject, by rw [hglobal]; exact .rfl, by rw [htargets]; exact fun _ => .rfl⟩

theorem rfl : Advances now F F :=
  .of_maps (fun _ a ha => ⟨a, ha, .rfl⟩) (fun _ sub hsub => ⟨sub, hsub, le_rfl, fun _ => Eq.refl _⟩)
    (Eq.refl _) (Eq.refl _)

/-- Rewriting attempts, with the subjects as they are. -/
theorem attempts_rule [DecidableEq I] (i : I) (source : List RunExecution)
    (target : RunExecution) (g : ℕ) (r : R) (a : Attempt I W) (ha : F.attempts r = some a) :
    ∃ a', (F.rule i source target g).attempts r = some a' ∧ AttemptAdvances now a a' := by
  by_cases h : a.subject = i ∧ a.state ∈ source
  · exact ⟨_, State.rule_attempts_eq_some.2 ⟨a, ha, .inl ⟨h.1, h.2, Eq.refl _⟩⟩, .decided _ _⟩
  · exact ⟨a, State.rule_attempts_eq_some.2 ⟨a, ha, .inr ⟨h, Eq.refl _⟩⟩, .rfl⟩

/-- Replacing a subject by one no older. -/
theorem subjects_set [DecidableEq I] {i : I} {sub sub' : Subject R T C}
    (hsub : F.subjects i = some sub) (hgen : sub.generation ≤ sub'.generation)
    (htarget : sub'.generation = sub.generation → sub'.target = sub.target) (j : I)
    (sub₀ : Subject R T C) (hsub₀ : F.subjects j = some sub₀) :
    ∃ sub₁, (F.setSubject i sub').subjects j = some sub₁ ∧
      sub₀.generation ≤ sub₁.generation ∧
      (sub₁.generation = sub₀.generation → sub₁.target = sub₀.target) := by
  by_cases hj : j = i
  · subst hj
    rw [hsub, Option.some.injEq] at hsub₀
    subst hsub₀
    exact ⟨sub', State.setSubject_subjects_self .., hgen, htarget⟩
  · exact ⟨sub₀, (State.setSubject_subjects_ne _ hj).trans hsub₀, le_rfl, fun _ => Eq.refl _⟩

/-- Adding a subject under a new identity. -/
theorem subjects_new [DecidableEq I] {i : I} {sub : Subject R T C} (hi : F.subjects i = none)
    (j : I) (sub₀ : Subject R T C) (hsub₀ : F.subjects j = some sub₀) :
    ∃ sub₁, (F.setSubject i sub).subjects j = some sub₁ ∧
      sub₀.generation ≤ sub₁.generation ∧
      (sub₁.generation = sub₀.generation → sub₁.target = sub₀.target) := by
  have hj : j ≠ i := by
    rintro h
    subst h
    rw [hi] at hsub₀
    cases hsub₀
  exact ⟨sub₀, (State.setSubject_subjects_ne _ hj).trans hsub₀, le_rfl, fun _ => Eq.refl _⟩

/-- Replacing an attempt by a step of it. -/
theorem attempts_set [DecidableEq R] {r : R} {a a' : Attempt I W} (ha : F.attempts r = some a)
    (hadv : AttemptAdvances now a a') (q : R) (b : Attempt I W) (hb : F.attempts q = some b) :
    ∃ b', (F.setAttempt r a').attempts q = some b' ∧ AttemptAdvances now b b' := by
  by_cases hq : q = r
  · subst hq
    rw [ha, Option.some.injEq] at hb
    subst hb
    exact ⟨a', State.setAttempt_attempts_self .., hadv⟩
  · exact ⟨b, (State.setAttempt_attempts_ne _ hq).trans hb, .rfl⟩

theorem suspend (covers : Subject R T C → Bool) (reaches : Attempt I W → Bool) :
    Advances now F (F.suspend covers reaches) := by
  refine .of_maps (fun r a ha => ?_) (fun i sub hsub => ?_) (Eq.refl _) (Eq.refl _)
  · exact ⟨_, by simp [State.suspend, State.mapAttempts, State.mapSubjects, ha],
      .pausedAttempt reaches⟩
  · obtain ⟨hgen, -, htarget, -⟩ := pausedSubject_frame (F := F) covers sub
    exact ⟨_, by simp [State.suspend, State.mapAttempts, State.mapSubjects, hsub], hgen.ge,
      fun _ => htarget⟩

/-- Changing the gates on top of an advance of the rest. -/
theorem withGates {F' : State I R T W C} (h : Advances now F F') {global : Gate}
    {targets : T → Option Gate} (hglobal : GateAdvances F.global global)
    (htarget : ∀ t, GateAdvances ((F.targets t).getD {}) ((targets t).getD {})) :
    Advances now F { F' with global, targets } :=
  ⟨h.attempt, h.subject, hglobal, htarget⟩

end Advances

/-- Updating the gate of one target. -/
theorem gateAdvances_update [DecidableEq T] {targets : T → Option Gate} {t : T} {gate : Gate}
    (h : GateAdvances ((targets t).getD {}) gate) (u : T) :
    GateAdvances ((targets u).getD {}) ((Function.update targets t (some gate) u).getD {}) := by
  by_cases hu : u = t
  · subst hu
    simpa using h
  · rw [Function.update_of_ne hu]
    exact .rfl

/-- **What every step guarantees**: the columns the fence reads only advance. -/
theorem Step.advances [DecidableEq I] [DecidableEq R] [DecidableEq T] {now : Time}
    {F F' : State I R T W C} {e : Event I} (h : Step now F e F') : Advances now F F' := by
  cases h with
  | idle => exact .rfl
  | openSubject hi hr =>
    refine .of_maps (fun q b hb => ⟨b, setAttempt_attempts_new hr q b hb, .rfl⟩) ?_ rfl rfl
    exact Advances.subjects_new hi
  | openHandoff hi =>
    exact .of_maps (fun _ a ha => ⟨a, ha, .rfl⟩) (Advances.subjects_new hi) rfl rfl
  | addTarget ht =>
    exact Advances.rfl.withGates .rfl (gateAdvances_update (by rw [ht]; exact .rfl))
  | attempt ha hstep =>
    exact .of_maps (Advances.attempts_set ha hstep.advances)
      (fun _ sub hsub => ⟨sub, hsub, le_rfl, fun _ => rfl⟩) rfl rfl
  | publish hsub hcur ha =>
    exact .of_maps (Advances.attempts_set ha (.release _))
      (Advances.subjects_set hsub le_rfl fun _ => rfl) rfl rfl
  | observe hsub =>
    exact .of_maps (fun _ a ha => ⟨a, ha, .rfl⟩)
      (Advances.subjects_set hsub le_rfl fun _ => rfl) rfl rfl
  | decide hsub hruling =>
    have hgen := hruling.frame.1
    refine .of_maps (Advances.attempts_rule _ _ _ _) ?_ rfl rfl
    exact Advances.subjects_set hsub (by omega) fun heq => absurd heq (by omega)
  | reopen hsub =>
    exact .of_maps (fun _ a ha => ⟨a, ha, .rfl⟩)
      (Advances.subjects_set hsub (Nat.le_succ _) fun _ => rfl) rfl rfl
  | succeed hsub hr =>
    refine .of_maps (fun q b hb => ?_) ?_ rfl rfl
    · obtain ⟨b', hb', hadv⟩ := Advances.attempts_rule _ _ .cancelled _ q b hb
      refine ⟨b', setAttempt_attempts_new ?_ q b' hb', hadv⟩
      simp [State.rule, State.mapAttempts, hr]
    · exact Advances.subjects_set hsub (Nat.le_succ _) fun _ => rfl
  | globalGate hflip =>
    split
    · exact (Advances.suspend _ _).withGates (.of_flips hflip) fun _ => .rfl
    · exact Advances.rfl.withGates (.of_flips hflip) fun _ => .rfl
  | targetGate hflip =>
    split
    · exact (Advances.suspend _ _).withGates .rfl (gateAdvances_update (.of_flips hflip))
    · exact Advances.rfl.withGates .rfl (gateAdvances_update (.of_flips hflip))

/-! ## Leases -/

/-- At most one lease on an attempt is valid. -/
theorem Valid.unique {F : State I R T W C} {now : Time} {L L' : Lease I R W}
    {a a' : Attempt I W} {sub sub' : Subject R T C} (h : Valid F now L a sub)
    (h' : Valid F now L' a' sub') (heq : L.attempt = L'.attempt) : L = L' := by
  have ha : a = a' := Option.some.inj (h.attempt.symm.trans (heq ▸ h'.attempt))
  subst ha
  have hsub : sub = sub' := Option.some.inj (h.subject.symm.trans h'.subject)
  subst hsub
  refine Lease.ext (h.bound.symm.trans h'.bound) heq ?_ (h.epoch.symm.trans h'.epoch)
    (h.generation.symm.trans h'.generation) (h.global.symm.trans h'.global)
    (h.target.symm.trans h'.target)
  exact Option.some.inj (h.owner.symm.trans h'.owner)

/-- What stays true of a lease from the moment it is granted: the columns it names are where
they were or further on, and where they still are, no gate was closed. -/
structure Issued (F : State I R T W C) (L : Lease I R W) (a : Attempt I W)
    (sub : Subject R T C) : Prop where
  attempt : F.attempts L.attempt = some a
  subject : F.subjects a.subject = some sub
  bound : a.subject = L.subject
  epoch : L.epoch ≤ a.epoch
  owner : a.epoch = L.epoch → a.owner = some L.owner ∨ a.owner = none
  generation : L.generation ≤ sub.generation
  global : L.globalGeneration ≤ F.global.generation
  globalOpen : F.global.generation = L.globalGeneration → F.global.suspended = false
  target : sub.generation = L.generation →
    L.targetGeneration ≤ (F.targetGate sub).generation
  targetOpen : sub.generation = L.generation →
    (F.targetGate sub).generation = L.targetGeneration → (F.targetGate sub).suspended = false

namespace Issued

variable {now : Time} {F F' : State I R T W C} {L : Lease I R W} {a : Attempt I W}
  {sub : Subject R T C}

/-- The gate of a subject whose generation did not move is the gate of the same target. -/
theorem targetGate_advances (hadv : Advances now F F') {sub' : Subject R T C}
    (htarget : sub'.target = sub.target) :
    GateAdvances (F.targetGate sub) (F'.targetGate sub') := by
  unfold State.targetGate
  rw [htarget]
  cases sub.target with
  | none => exact .rfl
  | some t => exact hadv.target t

/-- What a granted lease knows is carried along every step. -/
theorem advance (h : Issued F L a sub) (hadv : Advances now F F') :
    ∃ a' sub', Issued F' L a' sub' ∧ AttemptAdvances now a a' ∧
      F'.subjects a.subject = some sub' := by
  obtain ⟨a', ha', hstep⟩ := hadv.attempt _ a h.attempt
  obtain ⟨sub', hsub', hgen, htarget⟩ := hadv.subject _ sub h.subject
  refine ⟨a', sub', ?_, hstep, hsub'⟩
  have hG := hadv.global
  refine {
    attempt := ha'
    subject := by rw [hstep.subject]; exact hsub'
    bound := hstep.subject.trans h.bound
    epoch := h.epoch.trans hstep.epoch
    owner := fun heq => ?_
    generation := h.generation.trans hgen
    global := h.global.trans hG.generation
    globalOpen := fun heq => ?_
    target := fun heq => ?_
    targetOpen := fun heq heq' => ?_ }
  · have hepoch : a'.epoch = a.epoch := le_antisymm (heq ▸ h.epoch) hstep.epoch
    rcases hstep.owner hepoch with ho | ho
    · rw [ho]
      exact h.owner (hepoch.symm.trans heq)
    · exact .inr ho
  · have hsame : F'.global.generation = F.global.generation :=
      le_antisymm (heq ▸ h.global) hG.generation
    rw [hG.suspended hsame]
    exact h.globalOpen (hsame.symm.trans heq)
  · have hsame : sub'.generation = sub.generation := le_antisymm (heq ▸ h.generation) hgen
    exact (h.target (hsame.symm.trans heq)).trans
      (targetGate_advances hadv (htarget hsame)).generation
  · have hsame : sub'.generation = sub.generation := le_antisymm (heq ▸ h.generation) hgen
    have hgate := targetGate_advances hadv (htarget hsame)
    have hsame' : (F'.targetGate sub').generation = (F.targetGate sub).generation :=
      le_antisymm (heq' ▸ h.target (hsame.symm.trans heq)) hgate.generation
    rw [hgate.suspended hsame']
    exact h.targetOpen (hsame.symm.trans heq) (hsame'.symm.trans heq')

/-- **A granted lease that is no longer valid stays invalid.** Backwards: were it valid after
the step, every column it names would be unmoved, so it was valid before. -/
theorem invalid_forever (h : Issued F L a sub) (hadv : Advances now F F') {now' : Time}
    (hle : now ≤ now') {a' : Attempt I W} {sub' : Subject R T C}
    (hvalid : Valid F' now' L a' sub') : Valid F now L a sub := by
  obtain ⟨a₁, sub₁, hissued, hstep, hsub₁⟩ := h.advance hadv
  obtain rfl : a₁ = a' := Option.some.inj (hissued.attempt.symm.trans hvalid.attempt)
  obtain rfl : sub₁ = sub' := Option.some.inj (hissued.subject.symm.trans hvalid.subject)
  obtain ⟨sub₂, hsub₂, hgen, htarget⟩ := hadv.subject _ sub h.subject
  obtain rfl : sub₁ = sub₂ := Option.some.inj (hsub₁.symm.trans hsub₂)
  have hepoch : a.epoch = L.epoch :=
    le_antisymm (hstep.epoch.trans hvalid.epoch.le) h.epoch
  have hgen' : sub.generation = L.generation :=
    le_antisymm (hgen.trans hvalid.generation.le) h.generation
  have hglobal : F.global.generation = L.globalGeneration :=
    le_antisymm (hadv.global.generation.trans hvalid.global.le) h.global
  have hgate := targetGate_advances hadv (htarget (hvalid.generation.trans hgen'.symm))
  have htgen : (F.targetGate sub).generation = L.targetGeneration :=
    le_antisymm (hgate.generation.trans hvalid.target.le) (h.target hgen')
  have hsame : a₁.epoch = a.epoch := hvalid.epoch.trans hepoch.symm
  have howner : a.owner = some L.owner := by
    rcases h.owner hepoch with ho | ho
    · exact ho
    · rcases hstep.owner hsame with ho' | ho' <;> rw [hvalid.owner] at ho'
      · exact ho'.symm
      · cases ho'
  exact {
    attempt := h.attempt
    subject := h.subject
    bound := h.bound
    owner := howner
    epoch := hepoch
    generation := hgen'
    live := hstep.live hsame (leaseLive_antitone hle hvalid.live)
    deadline := by rw [← hstep.deadline]; exact hle.trans_lt hvalid.deadline
    isOpen := ⟨h.globalOpen hglobal, h.targetOpen hgen' htgen⟩
    global := hglobal
    target := htgen }

end Issued

/-- A lease that is valid was valid at every earlier time in the same state. -/
theorem Valid.earlier {F : State I R T W C} {now now' : Time} {L : Lease I R W}
    {a : Attempt I W} {sub : Subject R T C} (h : Valid F now' L a sub) (hle : now ≤ now') :
    Valid F now L a sub :=
  { h with live := leaseLive_antitone hle h.live, deadline := hle.trans_lt h.deadline }

/-- A grant issues the lease it hands out. -/
theorem issued_of_grant [DecidableEq R] {F : State I R T W C} {r : R}
    {a : Attempt I W} {sub : Subject R T C} {w : W}
    (hsub : F.subjects a.subject = some sub) (hopen : F.Open sub) (leaseUntil : Time) :
    Issued
      (F.setAttempt r
        { a with
          state := .running, owner := some w, epoch := a.epoch + 1
          generation := sub.generation, leaseUntil := some leaseUntil })
      { subject := a.subject, attempt := r, owner := w, epoch := a.epoch + 1
        generation := sub.generation, globalGeneration := F.global.generation
        targetGeneration := (F.targetGate sub).generation }
      { a with
        state := .running, owner := some w, epoch := a.epoch + 1
        generation := sub.generation, leaseUntil := some leaseUntil } sub where
  attempt := State.setAttempt_attempts_self ..
  subject := hsub
  bound := rfl
  epoch := le_rfl
  owner _ := .inl rfl
  generation := le_rfl
  global := le_rfl
  globalOpen _ := hopen.1
  target _ := le_rfl
  targetOpen _ _ := hopen.2

/-- **Who holds a valid lease.** Its attempt is running and current, no human stands in the way,
no gate is closed, and the lease ends by the deadline. -/
theorem Valid.control {now : Time} {F : State I R T W C} (hinv : Inv now F) {L : Lease I R W}
    {a : Attempt I W} {sub : Subject R T C} (h : Valid F now L a sub) :
    a.state = .running ∧ sub.current = some L.attempt ∧ sub.mode = .automatic ∧
      sub.state ∉ [IncidentState.paused, .cancelled, .completed] ∧ F.Open sub ∧
      ∀ u ∈ a.leaseUntil, u ≤ a.deadline := by
  obtain ⟨sub', hsub', ha⟩ := hinv.attempt _ a h.attempt
  obtain rfl : sub = sub' := Option.some.inj (h.subject.symm.trans hsub')
  have hrun : a.state = .running := by
    by_contra hne
    exact absurd h.live (by simp [ha.lapsed hne])
  have hu : a.state.unfinished = true := by rw [hrun]; rfl
  obtain ⟨hmode, hpaused, hcompleted⟩ := ha.running hrun
  have hcancelled : sub.state ≠ .cancelled := fun hc => by simp [ha.cancelled hc] at hu
  exact ⟨hrun, ha.current hu, hmode, by simp [hpaused, hcancelled, hcompleted], h.isOpen,
    ha.bounded⟩

end OpsPilot.Control
