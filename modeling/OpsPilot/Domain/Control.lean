import OpsPilot.Domain.Observation

/-!
# Human control and suspension

The control columns of an incident, the suspension gates, and the time bound of a lease.
-/

namespace OpsPilot

/-- `opspilot_incidents.state`, the control mirror of an incident. -/
inductive IncidentState
  | queued | running | waitingHuman | paused | cancelled | completed
  deriving DecidableEq, Repr

/-- `opspilot_incidents.mode`. -/
inductive IncidentMode
  | automatic | humanOwned
  deriving DecidableEq, Repr

/-- A suspension gate: the global one of `opspilot_scope_controls`, or the row of a target in
`opspilot_target_suspensions`. -/
structure Gate where
  suspended : Bool := false
  generation : ℕ := 0
  deriving DecidableEq, Repr

namespace Gate

/-- `g` becomes `g'` by a change of the gate: the flag flips and the generation moves on. -/
def Flips (g g' : Gate) : Prop :=
  g'.suspended ≠ g.suspended ∧ g'.generation = g.generation + 1

/-- The gate has only flipped since it was open at generation 0. -/
def Alternates (g : Gate) : Prop := g.suspended = decide (g.generation % 2 = 1)

theorem Flips.alternates {g g' : Gate} (h : g.Flips g') (halternates : g.Alternates) :
    g'.Alternates := by
  obtain ⟨hflag, hgen⟩ := h
  unfold Alternates at *
  rw [halternates] at hflag
  rw [hgen]
  cases hs : g'.suspended <;> rw [hs] at hflag <;> simp at hflag ⊢ <;> omega

end Gate

/-- A lease that is present and has not expired. -/
def leaseLive (leaseUntil : Option Time) (now : Time) : Bool := leaseUntil.any (now < ·)

theorem leaseLive_eq_true {leaseUntil : Option Time} {now : Time} :
    leaseLive leaseUntil now = true ↔ ∃ u, leaseUntil = some u ∧ now < u := by
  simp [leaseLive, Option.any_eq_true]

/-- Time only makes a lease expire. -/
theorem leaseLive_antitone {leaseUntil : Option Time} {now now' : Time} (h : now ≤ now')
    (hlive : leaseLive leaseUntil now' = true) : leaseLive leaseUntil now = true := by
  obtain ⟨u, hu, hlt⟩ := leaseLive_eq_true.1 hlive
  exact leaseLive_eq_true.2 ⟨u, hu, h.trans_lt hlt⟩

end OpsPilot
