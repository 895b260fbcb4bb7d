import OpsPilot.Foundations.StateMachine

/-!
# Incident lifecycles

The lifecycle of an incident and the machine `incidentLifecycle`
(`INCIDENT_LIFECYCLE` in the source). Only an independent healthy
observation reaches `resolved`: no human trigger does (`resolved_only_confirmed`).
-/

namespace OpsPilot

/-- `IncidentLifecycle`. -/
inductive IncidentLifecycle
  | opened | observingRecovery | resolved | closed
  deriving DecidableEq, Repr

/-- The triggers of `incidentLifecycle`. -/
inductive IncidentTrigger
  | startRecoveryObservation | humanClose | recoveryConfirmed
  | observationEndedUnconfirmed | humanReopen
  deriving DecidableEq, Repr

open IncidentLifecycle in
/-- The declared legal moves of an incident. The source's state `open` is `opened` here. -/
def incidentLifecycle : StateMachine IncidentLifecycle IncidentTrigger where
  edges
    | opened => [(.startRecoveryObservation, observingRecovery), (.humanClose, closed)]
    | observingRecovery =>
      [(.recoveryConfirmed, resolved), (.observationEndedUnconfirmed, opened),
        (.humanClose, closed)]
    | resolved => [(.humanClose, closed), (.humanReopen, opened)]
    | closed => [(.humanReopen, opened)]

namespace IncidentLifecycle

/-- The lifecycles an incident leaves only by a human decision. -/
def settled : IncidentLifecycle → Bool
  | resolved | closed => true
  | opened | observingRecovery => false

/-- Only `recoveryConfirmed` reaches `resolved`, and only from `observingRecovery`. -/
theorem resolved_only_confirmed {a : IncidentLifecycle} {t : IncidentTrigger}
    (h : incidentLifecycle.fire a t = some resolved) :
    a = observingRecovery ∧ t = .recoveryConfirmed := by
  cases a <;> cases t <;> first | exact ⟨rfl, rfl⟩ | cases h

/-- A settled incident is only reopened or closed. -/
theorem fire_settled {a b : IncidentLifecycle} {t : IncidentTrigger} (ha : a.settled = true)
    (h : incidentLifecycle.fire a t = some b) : t = .humanReopen ∨ b = closed := by
  cases a with
  | opened | observingRecovery => cases ha
  | resolved | closed =>
    cases t with
    | humanReopen => exact .inl rfl
    | humanClose => first | exact .inr (Option.some.inj h).symm | cases h
    | startRecoveryObservation | recoveryConfirmed | observationEndedUnconfirmed => cases h

end IncidentLifecycle

end OpsPilot
