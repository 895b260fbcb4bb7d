import Mathlib.Logic.Basic

/-!
# Transactions

A transaction on a state `σ` either raises, and nothing it did is kept, or commits a result
together with a new state: a value of `Except ε (α × σ)`. The two statements a body is built
from besides its writes are guards: `refuse c e` raises `e` when `c` holds, and `require o e`
raises `e` when a row is missing. Their `bind` lemmas turn a committed transaction into the list
of guards it passed, which is how every specification of a body is proved: `simp only` with the
lemmas of this file peels the guards off in the order the program checks them.
-/

namespace OpsPilot

universe u v

variable {ε : Type u} {α β : Type v}

/-- Raise `e` when `c` holds. -/
def refuse (c : Prop) [Decidable c] (e : ε) : Except ε PUnit.{v + 1} :=
  if c then .error e else .ok ⟨⟩

/-- The row a query found, or raise `e`. -/
def require (o : Option α) (e : ε) : Except ε α :=
  match o with
  | some a => .ok a
  | none => .error e

theorem refuse_bind_eq_ok {c : Prop} [Decidable c] {e : ε} {f : PUnit.{v + 1} → Except ε β} {b : β} :
    (refuse c e >>= f) = .ok b ↔ ¬ c ∧ f ⟨⟩ = .ok b := by
  by_cases h : c
  · simp only [refuse, h, if_true, not_true_eq_false, false_and, iff_false]
    exact fun h => nomatch h
  · simp only [refuse, h, if_false, not_false_eq_true, true_and]
    exact Iff.rfl

theorem ok_bind {a : α} {f : α → Except ε β} : (Except.ok a >>= f) = f a := rfl

/-- A check that passes. -/
theorem refuse_bind_of_not {c : Prop} [Decidable c] {e : ε} {f : PUnit.{v + 1} → Except ε β}
    (h : ¬ c) : (refuse c e >>= f) = f ⟨⟩ := by
  rw [refuse, if_neg h]
  rfl

theorem require_bind_eq_ok {o : Option α} {e : ε} {f : α → Except ε β} {b : β} :
    (require o e >>= f) = .ok b ↔ ∃ a, o = some a ∧ f a = .ok b := by
  cases o with
  | none =>
    simp only [require, reduceCtorEq, false_and, exists_false, iff_false]
    exact fun h => nomatch h
  | some a => simp only [Option.some.injEq, exists_eq_left']; exact Iff.rfl

theorem bind_eq_ok {x : Except ε α} {f : α → Except ε β} {b : β} :
    (x >>= f) = .ok b ↔ ∃ a, x = .ok a ∧ f a = .ok b := by
  cases x with
  | error e => simp only [reduceCtorEq, false_and, exists_false, iff_false]; exact fun h => nomatch h
  | ok a => simp only [Except.ok.injEq, exists_eq_left']; exact Iff.rfl

theorem refuse_eq_ok {c : Prop} [Decidable c] {e : ε} {u : PUnit.{v + 1}} :
    refuse c e = .ok u ↔ ¬ c := by
  unfold refuse
  split <;> simp_all

theorem require_eq_ok {o : Option α} {e : ε} {a : α} :
    require o e = .ok a ↔ o = some a := by
  cases o <;> simp [require]

theorem pure_eq_ok {a b : α} : (pure a : Except ε α) = .ok b ↔ a = b := by
  simp [pure, Except.pure]

theorem throw_eq_ok {e : ε} {b : β} : (throw e : Except ε β) = .ok b ↔ False := by
  simp [throw, throwThe, MonadExceptOf.throw]

end OpsPilot
