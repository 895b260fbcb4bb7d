import Mathlib.Order.Basic

/-!
# Labelled transition systems

A program that answers requests one at a time is a transition system whose labels are the
requests. This file has the rules by which its properties are proved.

* `Reachable.invariant`: a property of the initial states that every step preserves holds in
  every reachable state; `Reachable.invariant_of` lets the step use an invariant already known.
* `Run.stable`: a property that every step preserves, once true, stays true for the rest of
  the run; `Run.stable_of` restricts the steps to those whose labels satisfy a condition.
* `Run.monotone`: a quantity that no step lowers is not lowered by a run.
* `LTS.restrict`: the runs whose steps satisfy a condition.
-/

namespace OpsPilot

universe u v

/-- A labelled transition system on the states `σ` with labels `ι`. -/
structure LTS (σ : Type u) (ι : Type v) where
  Init : σ → Prop
  Step : σ → ι → σ → Prop

namespace LTS

variable {σ : Type u} {ι : Type v} (M : LTS σ ι)

/-- `M.Run s ls t`: the steps with the labels `ls`, in that order, lead from `s` to `t`. -/
inductive Run : σ → List ι → σ → Prop
  | nil (s : σ) : Run s [] s
  | cons {s t u : σ} {l : ι} {ls : List ι} (hstep : M.Step s l t) (hrun : Run t ls u) :
      Run s (l :: ls) u

/-- The states some run from an initial state ends in. -/
def Reachable (s : σ) : Prop :=
  ∃ s₀ ls, M.Init s₀ ∧ M.Run s₀ ls s

variable {M}

namespace Run

theorem single {s t : σ} {l : ι} (h : M.Step s l t) : M.Run s [l] t :=
  .cons h (.nil t)

theorem append {s t u : σ} {ls ls' : List ι} (h₁ : M.Run s ls t) (h₂ : M.Run t ls' u) :
    M.Run s (ls ++ ls') u := by
  induction h₁ with
  | nil s => exact h₂
  | cons hstep _ ih => exact .cons hstep (ih h₂)

/-- A property preserved by every step with an admitted label, from states with the
invariant `I`, is preserved by every run of such steps. -/
theorem stable_of {P I : σ → Prop} {A : ι → Prop} {s t : σ} {ls : List ι}
    (hrun : M.Run s ls t)
    (hI : ∀ {s l t}, M.Step s l t → I s → I t)
    (hP : ∀ {s l t}, M.Step s l t → A l → I s → P s → P t)
    (hA : ∀ l ∈ ls, A l) (hs : I s) (h : P s) : P t := by
  induction hrun with
  | nil s => exact h
  | cons hstep _ ih =>
    refine ih (fun l hl => hA l (List.mem_cons_of_mem _ hl)) (hI hstep hs) ?_
    exact hP hstep (hA _ List.mem_cons_self) hs h

/-- A property that every step preserves stays true for the rest of the run. -/
theorem stable {P : σ → Prop} {s t : σ} {ls : List ι} (hrun : M.Run s ls t)
    (hP : ∀ {s l t}, M.Step s l t → P s → P t) (h : P s) : P t := by
  induction hrun with
  | nil s => exact h
  | cons hstep _ ih => exact ih (hP hstep h)

/-- A quantity that no step lowers is not lowered by a run. -/
theorem monotone {β : Type*} [Preorder β] {f : σ → β} {s t : σ} {ls : List ι}
    (hrun : M.Run s ls t) (hf : ∀ {s l t}, M.Step s l t → f s ≤ f t) : f s ≤ f t := by
  induction hrun with
  | nil s => exact le_rfl
  | cons hstep _ ih => exact (hf hstep).trans ih

end Run

/-- The runs all of whose steps satisfy a condition on the state before and the label. -/
def restrict (M : LTS σ ι) (P : σ → ι → Prop) : LTS σ ι where
  Init := M.Init
  Step s l t := M.Step s l t ∧ P s l

theorem Run.of_restrict {P : σ → ι → Prop} {s t : σ} {ls : List ι}
    (h : (M.restrict P).Run s ls t) : M.Run s ls t := by
  induction h with
  | nil s => exact .nil s
  | cons hstep _ ih => exact .cons hstep.1 ih

/-- A run all of whose labels satisfy the condition. -/
theorem Run.restrict {P : σ → ι → Prop} {s t : σ} {ls : List ι} (h : M.Run s ls t)
    (hP : ∀ s, ∀ l ∈ ls, P s l) : (M.restrict P).Run s ls t := by
  induction h with
  | nil s => exact .nil s
  | cons hstep _ ih =>
    exact .cons ⟨hstep, hP _ _ List.mem_cons_self⟩
      (ih fun s l hl => hP s l (List.mem_cons_of_mem _ hl))

namespace Reachable

theorem init {s : σ} (h : M.Init s) : M.Reachable s := ⟨s, [], h, .nil s⟩

theorem run {s t : σ} {ls : List ι} (h : M.Reachable s) (hrun : M.Run s ls t) :
    M.Reachable t := by
  obtain ⟨s₀, ls₀, h₀, hr⟩ := h
  exact ⟨s₀, ls₀ ++ ls, h₀, hr.append hrun⟩

theorem of_restrict {P : σ → ι → Prop} {s : σ} (h : (M.restrict P).Reachable s) :
    M.Reachable s := by
  obtain ⟨s₀, ls, h₀, hrun⟩ := h
  exact ⟨s₀, ls, h₀, hrun.of_restrict⟩

theorem step {s t : σ} {l : ι} (h : M.Reachable s) (hstep : M.Step s l t) : M.Reachable t :=
  h.run (.single hstep)

/-- **Invariant rule.** -/
theorem invariant {P : σ → Prop} {s : σ} (h : M.Reachable s)
    (hinit : ∀ s, M.Init s → P s) (hstep : ∀ {s l t}, M.Step s l t → P s → P t) : P s := by
  obtain ⟨s₀, ls, h₀, hrun⟩ := h
  exact hrun.stable hstep (hinit s₀ h₀)

/-- The invariant rule relative to a known invariant. -/
theorem invariant_of {P I : σ → Prop} {s : σ} (h : M.Reachable s)
    (hI : ∀ s, M.Reachable s → I s) (hinit : ∀ s, M.Init s → P s)
    (hstep : ∀ {s l t}, M.Step s l t → I s → P s → P t) : P s := by
  have key : M.Reachable s ∧ P s := by
    refine h.invariant (P := fun s => M.Reachable s ∧ P s)
      (fun s hs => ⟨.init hs, hinit s hs⟩) ?_
    rintro s l t hst ⟨hr, hp⟩
    exact ⟨hr.step hst, hstep hst (hI s hr) hp⟩
  exact key.2

end Reachable

end LTS

end OpsPilot
