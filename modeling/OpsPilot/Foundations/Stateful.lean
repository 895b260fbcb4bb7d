import Mathlib.Logic.Basic

/-!
# Computations that may stop

A computation reads and writes a state, and returns a value or stops with an error. What it has
written stays written when it stops: this is how a program with exceptions works on an object, not
how a transaction works on a database.

`Ensures P m Q E`: from a state with `P`, the computation `m` returns a value and a state with `Q`,
or stops with an error and a state with `E`. There is one rule for each way computations are built.
-/

namespace OpsPilot

/-- A computation on a state `σ` that returns an `α` or stops with an `ε`. -/
abbrev Stateful (σ ε α : Type) := ExceptT ε (StateM σ) α

namespace Stateful

variable {σ ε α β : Type}

/-- What the computation returns or stops with, and the state it leaves. -/
def result (m : Stateful σ ε α) (s : σ) : Except ε α × σ := Id.run (StateT.run (ExceptT.run m) s)

/-- A read of the state. -/
def read (f : σ → α) : Stateful σ ε α := do return f (← get)

/-- A refusal, if there is one, stops the computation. -/
def stopOn (refusal : Option ε) : Stateful σ ε Unit :=
  match refusal with
  | some e => throw e
  | none => pure ()

/-- A result that is already known. -/
def lift (r : Except ε α) : Stateful σ ε α :=
  match r with
  | .ok a => pure a
  | .error e => throw e

@[simp] theorem result_pure (a : α) (s : σ) :
    (pure a : Stateful σ ε α).result s = (.ok a, s) := rfl

@[simp] theorem result_throw (e : ε) (s : σ) :
    (throw e : Stateful σ ε α).result s = (.error e, s) := rfl

@[simp] theorem result_read (f : σ → α) (s : σ) :
    (read f : Stateful σ ε α).result s = (.ok (f s), s) := rfl

@[simp] theorem result_modify (f : σ → σ) (s : σ) :
    (modify f : Stateful σ ε PUnit).result s = (.ok ⟨⟩, f s) := rfl

theorem result_bind (m : Stateful σ ε α) (f : α → Stateful σ ε β) (s : σ) :
    (m >>= f).result s =
      match m.result s with
      | (.ok a, t) => (f a).result t
      | (.error e, t) => (.error e, t) := by
  change (ExceptT.bindCont f (m.result s).1 (m.result s).2 : Except ε β × σ) = _
  rcases m.result s with ⟨(e | a), t⟩ <;> rfl

theorem result_map (f : α → β) (m : Stateful σ ε α) (s : σ) :
    (f <$> m).result s = ((m.result s).1.map f, (m.result s).2) := by
  change ((match (m.result s).1 with
    | .ok a => pure (.ok (f a))
    | .error e => pure (.error e) : StateM σ (Except ε β)) (m.result s).2 : Except ε β × σ) = _
  rcases m.result s with ⟨(e | a), t⟩ <;> rfl

/-- What a computation guarantees when it returns and when it stops. -/
def Ensures (P : σ → Prop) (m : Stateful σ ε α) (Q : α → σ → Prop) (E : ε → σ → Prop) : Prop :=
  ∀ s, P s → (∀ a t, m.result s = (.ok a, t) → Q a t) ∧ ∀ e t, m.result s = (.error e, t) → E e t

section

variable {P P' : σ → Prop} {m : Stateful σ ε α} {f : α → Stateful σ ε β} {Q Q' : α → σ → Prop}
  {R : β → σ → Prop} {E E' : ε → σ → Prop}

namespace Ensures

/-- Less is required, more is given. -/
theorem imp (h : Ensures P m Q E) (hP : ∀ s, P' s → P s) (hQ : ∀ a s, Q a s → Q' a s)
    (hE : ∀ e s, E e s → E' e s) : Ensures P' m Q' E' := fun s hs =>
  ⟨fun a t hr => hQ a t ((h s (hP s hs)).1 a t hr),
    fun e t hr => hE e t ((h s (hP s hs)).2 e t hr)⟩

theorem pre (h : Ensures P m Q E) (hP : ∀ s, P' s → P s) : Ensures P' m Q E :=
  h.imp hP (fun _ _ => id) fun _ _ => id

theorem post (h : Ensures P m Q E) (hQ : ∀ a s, Q a s → Q' a s) : Ensures P m Q' E :=
  h.imp (fun _ => id) hQ fun _ _ => id

/-- Two guarantees at once. -/
protected theorem and (h : Ensures P m Q E) (h' : Ensures P' m Q' E') :
    Ensures (fun s => P s ∧ P' s) m (fun a s => Q a s ∧ Q' a s) fun e s => E e s ∧ E' e s :=
  fun s hs => ⟨fun a t hr => ⟨(h s hs.1).1 a t hr, (h' s hs.2).1 a t hr⟩,
    fun e t hr => ⟨(h s hs.1).2 e t hr, (h' s hs.2).2 e t hr⟩⟩

/-- It is enough to consider one state at a time. -/
theorem of_state (h : ∀ s, P s → Ensures (· = s) m Q E) : Ensures P m Q E :=
  fun s hs => h s hs s rfl

protected theorem pure {a : α} (h : ∀ s, P s → Q a s) :
    Ensures P (pure a : Stateful σ ε α) Q E := by
  intro s hs
  constructor
  · rintro a t ⟨⟩
    exact h s hs
  · rintro e t ⟨⟩

protected theorem throw {e : ε} (h : ∀ s, P s → E e s) :
    Ensures P (throw e : Stateful σ ε α) Q E := by
  intro s hs
  constructor
  · rintro a t ⟨⟩
  · rintro e t ⟨⟩
    exact h s hs

protected theorem read {g : σ → α} (h : ∀ s, P s → Q (g s) s) :
    Ensures P (read g : Stateful σ ε α) Q E := by
  intro s hs
  constructor
  · rintro a t ⟨⟩
    exact h s hs
  · rintro e t ⟨⟩

protected theorem modify {g : σ → σ} {Q : PUnit → σ → Prop} (h : ∀ s, P s → Q ⟨⟩ (g s)) :
    Ensures P (modify g : Stateful σ ε PUnit) Q E := by
  intro s hs
  constructor
  · rintro a t ⟨⟩
    exact h s hs
  · rintro e t ⟨⟩

protected theorem stopOn {refusal : Option ε} {Q : Unit → σ → Prop}
    (h : ∀ s, refusal = none → P s → Q () s) (hE : ∀ e s, P s → E e s) :
    Ensures P (stopOn refusal : Stateful σ ε Unit) Q E := by
  cases refusal with
  | none => exact Ensures.pure fun s => h s rfl
  | some e => exact Ensures.throw (hE e)

protected theorem lift {r : Except ε α} (h : ∀ a s, r = .ok a → P s → Q a s)
    (hE : ∀ e s, P s → E e s) : Ensures P (lift r : Stateful σ ε α) Q E := by
  cases r with
  | ok a => exact Ensures.pure fun s => h a s rfl
  | error e => exact Ensures.throw (hE e)

protected theorem bind (hm : Ensures P m Q E) (hf : ∀ a, Ensures (Q a) (f a) R E) :
    Ensures P (m >>= f) R E := by
  intro s hs
  rw [result_bind]
  rcases hresult : m.result s with ⟨(e | a), t⟩
  · refine ⟨fun b u hr => by simp at hr, fun e' u hr => ?_⟩
    obtain ⟨⟨rfl⟩, rfl⟩ := Prod.mk.inj hr
    exact (hm s hs).2 _ _ hresult
  · exact hf a t ((hm s hs).1 a t hresult)

/-- A read of a state that is known. -/
theorem known {g : σ → α} {s : σ} (h : Ensures (· = s) (f (g s)) R E) :
    Ensures (· = s) (read g >>= f) R E := by
  refine (Ensures.read (Q := fun a t => a = g s ∧ t = s) ?_).bind fun a => ?_
  · rintro _ rfl
    exact ⟨rfl, rfl⟩
  · refine of_state fun t ⟨ha, ht⟩ => ?_
    rw [ha, ht]
    exact h

/-- A case distinction. -/
protected theorem ite {c : Prop} [Decidable c] {n : Stateful σ ε α} (hm : c → Ensures P m Q E)
    (hn : ¬c → Ensures P n Q E) : Ensures P (if c then m else n) Q E := by
  split
  · next h => exact hm h
  · next h => exact hn h

end Ensures

/-! ## What a computation keeps -/

/-- A property of the state that holds afterwards if it holds before, whatever happens. -/
def Keeps (P : σ → Prop) (m : Stateful σ ε α) : Prop := Ensures P m (fun _ => P) fun _ => P

namespace Keeps

protected theorem pure {a : α} : Keeps P (pure a : Stateful σ ε α) := Ensures.pure fun _ => id

protected theorem throw {e : ε} : Keeps P (throw e : Stateful σ ε α) := Ensures.throw fun _ => id

protected theorem read {g : σ → α} : Keeps P (read g : Stateful σ ε α) := Ensures.read fun _ => id

protected theorem modify {g : σ → σ} (h : ∀ s, P s → P (g s)) :
    Keeps P (modify g : Stateful σ ε PUnit) := Ensures.modify h

protected theorem stopOn {refusal : Option ε} : Keeps P (stopOn refusal : Stateful σ ε Unit) :=
  Ensures.stopOn (fun _ _ => id) fun _ _ => id

protected theorem lift {r : Except ε α} : Keeps P (lift r : Stateful σ ε α) :=
  Ensures.lift (fun _ _ _ => id) fun _ _ => id

protected theorem bind (hm : Keeps P m) (hf : ∀ a, Keeps P (f a)) : Keeps P (m >>= f) :=
  Ensures.bind hm hf

protected theorem ite {c : Prop} [Decidable c] {n : Stateful σ ε α} (hm : Keeps P m)
    (hn : Keeps P n) : Keeps P (if c then m else n) :=
  Ensures.ite (fun _ => hm) fun _ => hn

/-- A computation that keeps `P` before one that relies on it. -/
theorem before (hm : Keeps P m) (hE : ∀ e s, P s → E e s)
    (hf : ∀ a, Ensures P (f a) R E) : Ensures P (m >>= f) R E :=
  (hm.imp (fun _ => id) (fun _ _ => id) hE).bind hf

/-- The state a computation leaves. -/
theorem result (h : Keeps P m) {s : σ} (hs : P s) : P (m.result s).2 := by
  rcases hresult : m.result s with ⟨(e | a), t⟩
  · exact (h s hs).2 e t hresult
  · exact (h s hs).1 a t hresult

end Keeps

end

end Stateful

end OpsPilot
