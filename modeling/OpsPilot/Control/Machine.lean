import OpsPilot.Domain.Control
import OpsPilot.Domain.Runs
import Mathlib.Logic.Function.Basic

/-!
# The control machine

What human control of automatic work is about, apart from any database: *subjects* (incidents)
carry a control generation, a mode and a pointer to their current *attempt* (a Run); an attempt
carries a lease; two kinds of *gate* suspend subjects. The machine has one step for each kind of
thing that can happen:

* the machine side: opening subjects, granting, extending, refusing, releasing and settling an
  attempt (`AttemptStep`), publishing a conclusion, observing a lifecycle;
* the human side: a ruling on one subject (`Ruling`), a ruling that also starts a successor
  attempt, and the change of a gate.

A step is labelled with an `Event`, which says what kind of decision it is. Identities are
arbitrary types. The invariant is in `OpsPilot.Control.Invariant`, the lease fence in
`OpsPilot.Control.Fence`; the store is shown to be an instance in `OpsPilot.System.Simulation`.
-/

namespace OpsPilot.Control

variable {I R T W C : Type*}

/-- The control columns of a subject. -/
@[ext] structure Subject (R T C : Type*) where
  state : IncidentState
  mode : IncidentMode
  lifecycle : IncidentLifecycle
  generation : ℕ
  current : Option R
  target : Option T
  conclusion : Option C

namespace Subject

/-- The subject once a successor attempt `r` is current. -/
def succeeded (sub : Subject R T C) (state : IncidentState) (r : R) : Subject R T C :=
  { sub with
    state, lifecycle := .opened, generation := sub.generation + 1
    current := some r, conclusion := none }

end Subject

/-- The control columns of an attempt. -/
@[ext] structure Attempt (I W : Type*) where
  subject : I
  state : RunExecution
  owner : Option W
  epoch : ℕ
  leaseUntil : Option Time
  deadline : Time
  generation : ℕ

namespace Attempt

/-- The attempt in another state, its lease taken away. -/
def release (a : Attempt I W) (state : RunExecution) : Attempt I W :=
  { a with state, owner := none, leaseUntil := none }

/-- The attempt as a ruling leaves it. -/
def decided (a : Attempt I W) (state : RunExecution) (generation : ℕ) : Attempt I W :=
  { a.release state with generation }

end Attempt

/-- A state of the machine. -/
@[ext] structure State (I R T W C : Type*) where
  subjects : I → Option (Subject R T C)
  attempts : R → Option (Attempt I W)
  global : Gate
  targets : T → Option Gate

namespace State

/-- The gate of a subject's target; a subject or target without one is never suspended. -/
def targetGate (F : State I R T W C) (sub : Subject R T C) : Gate :=
  (sub.target.bind F.targets).getD {}

/-- The target, if there is one, is registered with a gate. -/
def HasGate (F : State I R T W C) (target : Option T) : Prop :=
  ∀ t ∈ target, (F.targets t).isSome = true

/-- No gate of the subject is suspended. -/
def Open (F : State I R T W C) (sub : Subject R T C) : Prop :=
  F.global.suspended = false ∧ (F.targetGate sub).suspended = false

variable [DecidableEq I] [DecidableEq R]

/-- Replace a subject. -/
def setSubject (F : State I R T W C) (i : I) (sub : Subject R T C) : State I R T W C :=
  { F with subjects := Function.update F.subjects i (some sub) }

/-- Replace an attempt. -/
def setAttempt (F : State I R T W C) (r : R) (a : Attempt I W) : State I R T W C :=
  { F with attempts := Function.update F.attempts r (some a) }

/-- Rewrite the attempts. -/
def mapAttempts (F : State I R T W C) (f : Attempt I W → Attempt I W) : State I R T W C :=
  { F with attempts := fun r => (F.attempts r).map f }

/-- Rewrite the subjects. -/
def mapSubjects (F : State I R T W C) (f : Subject R T C → Subject R T C) : State I R T W C :=
  { F with subjects := fun i => (F.subjects i).map f }

end State

/-- What a step is, as far as decisions go. -/
inductive Event (I : Type*)
  /-- Neither a human decision nor a publication. -/
  | machine
  /-- The publication of a subject's conclusion. -/
  | publication (i : I)
  /-- A decision on a subject that neither reopens it nor starts a successor attempt. -/
  | decision (i : I)
  /-- A decision that reopens a settled subject. -/
  | reopen (i : I)
  /-- A decision that starts a successor attempt. -/
  | successor (i : I)
  deriving DecidableEq

namespace Event

/-- The subject a human decision is about. -/
def subject? : Event I → Option I
  | machine | publication _ => none
  | decision i | reopen i | successor i => some i

end Event

/-- What the machine side does to one attempt. -/
inductive AttemptStep (now : Time) (F : State I R T W C) : Attempt I W → Attempt I W → Prop
  /-- A worker takes the attempt: a new epoch, the current generation, and a lease that does not
  outlast the deadline. -/
  | grant {a : Attempt I W} {sub : Subject R T C} {w : W} {leaseUntil : Time}
      (hsub : F.subjects a.subject = some sub)
      (hstate : a.state = .queued ∨ a.state = .running)
      (hcontrol : sub.state ∉ [IncidentState.completed, .cancelled, .paused])
      (hmode : sub.mode = .automatic) (hopen : F.Open sub) (hle : leaseUntil ≤ a.deadline) :
      AttemptStep now F a
        { a with
          state := .running, owner := some w, epoch := a.epoch + 1
          generation := sub.generation, leaseUntil := some leaseUntil }
  /-- The attempt is found incompatible and blocked; a lapsed lease stays on it. -/
  | refuse {a : Attempt I W}
      (hstate : a.state = .queued ∨ a.state = .running ∧ leaseLive a.leaseUntil now = false) :
      AttemptStep now F a { a with state := .blocked }
  /-- The holder of a live lease extends it. -/
  | extend {a : Attempt I W} {leaseUntil : Time} (hstate : a.state = .running)
      (hlive : leaseLive a.leaseUntil now = true) (hle : leaseUntil ≤ a.deadline) :
      AttemptStep now F a { a with leaseUntil := some leaseUntil }
  /-- The lease is given up. -/
  | release {a : Attempt I W} : AttemptStep now F a (a.release a.state)
  /-- The attempt stops and waits for a human. -/
  | settle {a : Attempt I W} {target : RunExecution}
      (hmove : a.state = .running ∧ (target = .waitingHuman ∨ target = .blocked) ∨
        a.state = .queued ∧ target = .waitingHuman) :
      AttemptStep now F a (a.release target)

/-- What an observation, or nothing, does to a lifecycle. -/
def Observed (before after : IncidentLifecycle) : Prop :=
  after = before ∨ before = .opened ∧ after = .observingRecovery ∨
    before = .observingRecovery ∧ (after = .resolved ∨ after = .opened)

/-- A ruling on a subject: which attempts it moves, from which states, to which state, and the
subject it leaves. Every ruling moves the control generation by one. -/
inductive Ruling :
    Subject R T C → List RunExecution → RunExecution → Subject R T C → Prop
  /-- Cancel, close, rebind or merge: every unfinished attempt is cancelled. -/
  | terminate {sub : Subject R T C} {state : IncidentState} {lifecycle : IncidentLifecycle}
      {target : Option T} (hstate : state = sub.state ∨ state = .cancelled)
      (hlife : lifecycle = sub.lifecycle ∨ lifecycle = .closed ∨
        lifecycle = .opened ∧ activeIncidentLifecycle sub.lifecycle = true) :
      Ruling sub [.queued, .paused, .running, .waitingHuman, .blocked] .cancelled
        { sub with state, lifecycle, target, generation := sub.generation + 1 }
  /-- Take over: the subject becomes human-owned and its attempts wait for the human. -/
  | takeover {sub : Subject R T C} :
      Ruling sub [.queued, .running, .paused, .blocked] .waitingHuman
        { sub with mode := .humanOwned, generation := sub.generation + 1 }
  /-- Pause, or record a note on a paused subject. -/
  | hold {sub : Subject R T C} :
      Ruling sub [.running, .waitingHuman] .paused
        { sub with state := .paused, generation := sub.generation + 1 }
  /-- Resume: everything unfinished but blocked is queued again. -/
  | resume {sub : Subject R T C} :
      Ruling sub [.queued, .paused, .running, .waitingHuman] .queued
        { sub with state := .running, generation := sub.generation + 1 }
  /-- A note: the attempt is queued again. -/
  | note {sub : Subject R T C} :
      Ruling sub [.queued, .running, .waitingHuman] .queued
        { sub with state := .running, generation := sub.generation + 1 }
  /-- A decision under human ownership, or a repeated takeover, moves no attempt. -/
  | record {sub : Subject R T C} {state : IncidentState}
      (hstate : state = sub.state ∨ sub.mode = .humanOwned ∧ state ≠ .cancelled) :
      Ruling sub [] .queued { sub with state, generation := sub.generation + 1 }
  /-- A handling outside the system is registered and observed from now on. -/
  | remediate {sub : Subject R T C} (hlife : activeIncidentLifecycle sub.lifecycle = true) :
      Ruling sub [] .queued
        { sub with lifecycle := .observingRecovery, generation := sub.generation + 1 }

namespace State

/-- The attempts of `i` in one of the states `source` as a ruling leaves them. -/
def rule [DecidableEq I] (F : State I R T W C) (i : I) (source : List RunExecution)
    (target : RunExecution) (generation : ℕ) : State I R T W C :=
  F.mapAttempts fun a =>
    if a.subject = i ∧ a.state ∈ source then a.decided target generation else a

/-- The subjects a closing gate pauses: covered, unconcluded, and with a current attempt that
is still open. -/
def pausedSubject (F : State I R T W C) (covers : Subject R T C → Bool) (sub : Subject R T C) :
    Subject R T C :=
  if covers sub = true ∧ sub.conclusion.isNone = true ∧
      sub.state ∉ [IncidentState.completed, .cancelled] ∧
      ((sub.current.bind F.attempts).any fun a =>
        a.state ∈ [RunExecution.queued, .running, .waitingHuman, .paused]) = true
  then { sub with state := .paused } else sub

/-- The attempts a closing gate pauses. -/
def pausedAttempt (reaches : Attempt I W → Bool) (a : Attempt I W) : Attempt I W :=
  if reaches a = true ∧ a.state ∈ [RunExecution.queued, .running, .waitingHuman]
  then a.release .paused else a

/-- Everything a closing gate pauses. -/
def suspend (F : State I R T W C) (covers : Subject R T C → Bool)
    (reaches : Attempt I W → Bool) : State I R T W C :=
  (F.mapSubjects (F.pausedSubject covers)).mapAttempts (pausedAttempt reaches)

end State

variable [DecidableEq I] [DecidableEq R] [DecidableEq T]

/-- One step of the machine at the time `now`. -/
inductive Step (now : Time) :
    State I R T W C → Event I → State I R T W C → Prop
  | idle {F : State I R T W C} : Step now F .machine F
  /-- A subject is opened with its first attempt, paused if a gate is. -/
  | openSubject {F : State I R T W C} {i : I} {r : R} {sub : Subject R T C} {a : Attempt I W}
      (hi : F.subjects i = none) (hr : F.attempts r = none)
      (hcur : sub.current = some r) (hsub : a.subject = i) (hgen : a.generation = 0)
      (hsgen : sub.generation = 0) (hlease : a.leaseUntil = none) (howner : a.owner = none)
      (hconc : sub.conclusion = none) (hlife : sub.lifecycle = .opened)
      (hstate : sub.state = .queued ∧ a.state = .queued ∨
        sub.state = .paused ∧ a.state = .paused)
      (htarget : F.HasGate sub.target) :
      Step now F .machine ((F.setSubject i sub).setAttempt r a)
  /-- A subject is opened without an attempt, for a human. -/
  | openHandoff {F : State I R T W C} {i : I} {sub : Subject R T C}
      (hi : F.subjects i = none) (hcur : sub.current = none) (hgen : sub.generation = 0)
      (hconc : sub.conclusion = none) (hlife : sub.lifecycle = .opened)
      (htarget : sub.target = none) :
      Step now F .machine (F.setSubject i sub)
  /-- A target is registered with an open gate. -/
  | addTarget {F : State I R T W C} {t : T} (ht : F.targets t = none) :
      Step now F .machine { F with targets := Function.update F.targets t (some {}) }
  | attempt {F : State I R T W C} {r : R} {a a' : Attempt I W} (ha : F.attempts r = some a)
      (hstep : AttemptStep now F a a') : Step now F .machine (F.setAttempt r a')
  /-- A running current attempt publishes the conclusion of its subject. -/
  | publish {F : State I R T W C} {i : I} {r : R} {sub : Subject R T C} {a : Attempt I W} {c : C}
      (hsub : F.subjects i = some sub) (hcur : sub.current = some r)
      (ha : F.attempts r = some a) (hrun : a.state = .running) :
      Step now F (.publication i)
        ((F.setSubject i { sub with conclusion := some c }).setAttempt r (a.release .completed))
  | observe {F : State I R T W C} {i : I} {sub : Subject R T C} {lifecycle : IncidentLifecycle}
      (hsub : F.subjects i = some sub) (hobs : Observed sub.lifecycle lifecycle) :
      Step now F .machine (F.setSubject i { sub with lifecycle })
  | decide {F : State I R T W C} {i : I} {sub sub' : Subject R T C}
      {source : List RunExecution} {target : RunExecution} (hsub : F.subjects i = some sub)
      (hruling : Ruling sub source target sub')
      (htarget : sub'.target = sub.target ∨ F.HasGate sub'.target) :
      Step now F (.decision i)
        ((F.rule i source target sub'.generation).setSubject i sub')
  | reopen {F : State I R T W C} {i : I} {sub : Subject R T C} (hsub : F.subjects i = some sub)
      (hlife : sub.lifecycle.settled = true) :
      Step now F (.reopen i)
        (F.setSubject i { sub with lifecycle := .opened, generation := sub.generation + 1 })
  /-- A new current attempt replaces the unfinished ones of an automatic subject: they are
  cancelled, or the subject was cancelled before. -/
  | succeed {F : State I R T W C} {i : I} {r : R} {sub : Subject R T C} {a : Attempt I W}
      {state : IncidentState} {source : List RunExecution}
      (hsub : F.subjects i = some sub) (hr : F.attempts r = none)
      (hsource : source = [.queued, .paused, .running, .waitingHuman, .blocked] ∨
        source = [] ∧ sub.state = .cancelled)
      (hstate : state = .queued ∨ state = .running ∨ state = .paused)
      (hsubj : a.subject = i) (hgen : a.generation = sub.generation + 1)
      (hlease : a.leaseUntil = none) (hastate : a.state = .queued ∨ a.state = .paused)
      (hmode : sub.mode = .automatic) :
      Step now F (.successor i)
        (((F.rule i source .cancelled (sub.generation + 1)).setSubject i
          (sub.succeeded state r)).setAttempt r a)
  /-- The global gate changes; closing it pauses every subject and attempt it covers. -/
  | globalGate {F : State I R T W C} {gate : Gate} (hflip : F.global.Flips gate) :
      Step now F .machine
        { (if gate.suspended then F.suspend (fun _ => true) (fun _ => true) else F) with
          global := gate }
  /-- The gate of a target changes; closing it pauses what is bound to the target. -/
  | targetGate {F : State I R T W C} {t : T} {gate : Gate} {reaches : Attempt I W → Bool}
      (hflip : ((F.targets t).getD {}).Flips gate)
      (hreach : ∀ a sub, F.subjects a.subject = some sub →
        (reaches a = true ↔ sub.target = some t)) :
      Step now F .machine
        { (if gate.suspended then F.suspend (fun sub => sub.target = some t) reaches else F) with
          targets := Function.update F.targets t (some gate) }

/-- A step, after a step of the machine side that prepares it (the registration of a target). -/
def Move (now : Time) (F : State I R T W C) (e : Event I) (F' : State I R T W C) : Prop :=
  ∃ F₁, Step now F .machine F₁ ∧ Step now F₁ e F'

theorem Step.move {now : Time} {F F' : State I R T W C} {e : Event I} (h : Step now F e F') :
    Move now F e F' := ⟨F, .idle, h⟩

end OpsPilot.Control
