import OpsPilot.Control.Invariant
import OpsPilot.Foundations.Transition

/-!
# Runs of the control machine

The machine with its clock is a transition system.

* **`generation_run`**: in a run the generation of a subject grows by the number of decisions on it.
-/

namespace OpsPilot.Control

variable {I R T W C : Type*} {now : Time} {F F' : State I R T W C} {e : Event I}

/-- The generation of a subject, zero before it is opened. -/
def State.generation (F : State I R T W C) (i : I) : ℕ := (F.subjects i).elim 0 (·.generation)

theorem generation_paused (covers : Subject R T C → Bool) (i : I) :
    ((F.subjects i).map (F.pausedSubject covers)).elim 0 (·.generation) = F.generation i := by
  rw [State.generation]
  cases F.subjects i with
  | none => rfl
  | some sub => exact (pausedSubject_frame covers sub).1

variable [DecidableEq I]

theorem generation_setSubject {G : State I R T W C} {i : I} {sub : Subject R T C} (n : ℕ)
    (hG : G.subjects = F.subjects) (hsub : sub.generation = F.generation i + n) (j : I) :
    (G.setSubject i sub).generation j = F.generation j + if i = j then n else 0 := by
  by_cases hj : i = j
  · subst hj
    rw [State.generation, State.setSubject_subjects_self, if_pos rfl]
    exact hsub
  · rw [if_neg hj, State.generation, State.setSubject_subjects_ne _ (Ne.symm hj), hG]
    rfl

theorem Ruling.generation {sub sub' : Subject R T C} {source : List RunExecution}
    {target : RunExecution} (h : Ruling sub source target sub') :
    sub'.generation = sub.generation + 1 := by
  cases h <;> rfl

variable [DecidableEq R] [DecidableEq T]

/-- A step raises the generation of the subject it decides on by one, and no other one. -/
theorem Step.generation (h : Step now F e F') (i : I) :
    F'.generation i = F.generation i + if e.subject? = some i then 1 else 0 := by
  have hof : ∀ {j : I} {sub : Option (Subject R T C)}, F.subjects j = sub →
      F.generation j = sub.elim 0 (·.generation) := fun hsub => by rw [State.generation, hsub]
  cases h with
  | idle | addTarget | attempt => rfl
  | openSubject hi _ _ _ _ hgen | openHandoff hi _ hgen =>
    refine (generation_setSubject (F := F) 0 rfl ?_ i).trans (by simp [Event.subject?])
    rw [hgen, hof hi]
    rfl
  | publish hsub | observe hsub =>
    refine (generation_setSubject (F := F) 0 rfl ?_ i).trans (by simp [Event.subject?])
    rw [hof hsub]
    rfl
  | decide hsub hruling =>
    refine (generation_setSubject (F := F) 1 rfl ?_ i).trans (by simp [Event.subject?])
    rw [hruling.generation, hof hsub]
    rfl
  | reopen hsub | succeed hsub =>
    refine (generation_setSubject (F := F) 1 rfl ?_ i).trans (by simp [Event.subject?])
    rw [hof hsub]
    rfl
  | globalGate | targetGate =>
    split
    · exact generation_paused _ i
    · rfl

/-- The machine with its clock: at first there is nothing, and no gate is closed. -/
def machine (I R T W C : Type*) [DecidableEq I] [DecidableEq R] [DecidableEq T] :
    LTS (Time × State I R T W C) (Time × Event I) where
  Init F := F.2 = ⟨fun _ => none, fun _ => none, {}, fun _ => none⟩
  Step F label F' := F.1 ≤ label.1 ∧ Move label.1 F.2 label.2 F'.2 ∧ label.1 ≤ F'.1

/-- **The generation counts the decisions.** -/
theorem generation_run {F F' : Time × State I R T W C} {labels : List (Time × Event I)}
    (h : (machine I R T W C).Run F labels F') (i : I) :
    F'.2.generation i =
      F.2.generation i + labels.countP fun label => label.2.subject? = some i := by
  induction h with
  | nil F => rfl
  | cons hstep _ ih =>
    obtain ⟨-, ⟨G, hprepare, hmove⟩, -⟩ := hstep
    have hquiet := hprepare.generation i
    rw [if_neg (by simp [Event.subject?]), Nat.add_zero] at hquiet
    rw [ih, hmove.generation i, hquiet, List.countP_cons]
    simp only [decide_eq_true_eq]
    omega

end OpsPilot.Control
