import Mathlib.Data.List.Forall2
import OpsPilot.Foundations.Transition

/-!
# Refinement of transition systems

* `Refines.run`: a run of a system is a run of the system it refines.
-/

namespace OpsPilot.LTS

/-- `M` refines `N` along `f`: its initial states and its steps are some of `N`, with labels that
`L` relates. -/
structure Refines {σ τ ι κ : Type*} (M : LTS σ ι) (N : LTS τ κ) (f : σ → τ) (L : ι → κ → Prop) :
    Prop where
  init : ∀ s, M.Init s → N.Init (f s)
  step : ∀ {s l t}, M.Step s l t → ∃ k, L l k ∧ N.Step (f s) k (f t)

namespace Refines

variable {σ τ ι κ : Type*} {M : LTS σ ι} {N : LTS τ κ} {f : σ → τ} {L : ι → κ → Prop}

theorem run (h : M.Refines N f L) {s t : σ} {ls : List ι} (hrun : M.Run s ls t) :
    ∃ ks, List.Forall₂ L ls ks ∧ N.Run (f s) ks (f t) := by
  induction hrun with
  | nil s => exact ⟨[], .nil, .nil (f s)⟩
  | cons hstep _ ih =>
    obtain ⟨k, hk, hmove⟩ := h.step hstep
    obtain ⟨ks, hks, hmoves⟩ := ih
    exact ⟨k :: ks, .cons hk hks, .cons hmove hmoves⟩

theorem reachable (h : M.Refines N f L) {s : σ} (hs : M.Reachable s) : N.Reachable (f s) := by
  obtain ⟨s₀, ls, h₀, hrun⟩ := hs
  obtain ⟨ks, -, hmoves⟩ := h.run hrun
  exact ⟨f s₀, ks, h.init s₀ h₀, hmoves⟩

end Refines

end OpsPilot.LTS
