import OpsPilot.Control.Fence
import OpsPilot.Persistence.Base

/-!
# The store as a control machine

`Store.view` forgets every column but the control columns of incidents and Runs and the
gates: a state of the control machine of `OpsPilot.Control.Machine`, with incidents for subjects
and Runs for attempts. The lemmas say what each kind of write does to that view, so that an
operation is shown to be a step of the machine by rewriting (`Step.of_eq`).

**`leaseCurrent_iff_valid`**: the shared lease check of the store is validity in the machine.
-/

namespace OpsPilot

namespace IncidentRow

/-- The control columns of an incident. -/
def subject (row : IncidentRow) : Control.Subject UUID UUID Json where
  state := row.state
  mode := row.mode
  lifecycle := row.lifecycle
  generation := row.controlGeneration
  current := row.currentRunId
  target := row.targetId
  conclusion := row.conclusion

end IncidentRow

namespace RunRow

/-- The control columns of a Run. -/
def attempt (row : RunRow) : Control.Attempt UUID UUID where
  subject := row.incidentId
  state := row.state
  owner := row.owner
  epoch := row.epoch
  leaseUntil := row.leaseUntil
  deadline := row.deadline
  generation := row.controlGeneration

end RunRow

/-- The subjects of an incident table. -/
def subjectsOf (t : Table UUID IncidentRow) (i : UUID) : Option (Control.Subject UUID UUID Json) :=
  (t.get i).map IncidentRow.subject

/-- The attempts of a Run table. -/
def attemptsOf (t : Table UUID RunRow) (r : UUID) : Option (Control.Attempt UUID UUID) :=
  (t.get r).map RunRow.attempt

/-- The control view of the store. -/
def Store.view (s : Store) : Control.State UUID UUID UUID UUID Json where
  subjects := subjectsOf s.incidents
  attempts := attemptsOf s.runs
  global := s.scope
  targets := s.targetSuspensions.get

/-- The lease as the control machine sees it. -/
def Lease.view (L : Lease) : Control.Lease UUID UUID UUID where
  subject := L.incidentId
  attempt := L.runId
  owner := L.owner
  epoch := L.epoch
  generation := L.controlGeneration
  globalGeneration := L.globalSuspensionGeneration
  targetGeneration := L.targetSuspensionGeneration

/-! ## Writes on the view -/

variable {i r : UUID} {t : Table UUID RunRow} {s s' : Store} {now : Time}

theorem subjectsOf_eq_some {t : Table UUID IncidentRow} {sub : Control.Subject UUID UUID Json} :
    subjectsOf t i = some sub ↔ ∃ row, t.get i = some row ∧ row.subject = sub :=
  Option.map_eq_some_iff

theorem attemptsOf_eq_some {a : Control.Attempt UUID UUID} :
    attemptsOf t r = some a ↔ ∃ row, t.get r = some row ∧ row.attempt = a :=
  Option.map_eq_some_iff

theorem subjectsOf_get {t : Table UUID IncidentRow} {row : IncidentRow} (h : t.get i = some row) :
    subjectsOf t i = some row.subject := by
  simp [subjectsOf, h]

theorem attemptsOf_get {row : RunRow} (h : t.get r = some row) :
    attemptsOf t r = some row.attempt := by
  simp [attemptsOf, h]

theorem subjectsOf_none {t : Table UUID IncidentRow} (h : t.get i = none) :
    subjectsOf t i = none := by
  simp [subjectsOf, h]

theorem attemptsOf_none (h : t.get r = none) :
    attemptsOf t r = none := by
  simp [attemptsOf, h]

theorem subjectsOf_insert (t : Table UUID IncidentRow) (i : UUID) (row : IncidentRow) :
    subjectsOf (t.insert i row) = Function.update (subjectsOf t) i (some row.subject) := by
  funext j
  by_cases hj : j = i
  · subst hj; simp [subjectsOf]
  · simp [subjectsOf, Table.get_insert_ne _ _ hj, hj]

theorem attemptsOf_insert (t : Table UUID RunRow) (r : UUID) (row : RunRow) :
    attemptsOf (t.insert r row) = Function.update (attemptsOf t) r (some row.attempt) := by
  funext q
  by_cases hq : q = r
  · subst hq; simp [attemptsOf]
  · simp [attemptsOf, Table.get_insert_ne _ _ hq, hq]

theorem subjectsOf_modify {t : Table UUID IncidentRow} {row : IncidentRow} (h : t.get i = some row)
    (f : IncidentRow → IncidentRow) :
    subjectsOf (t.modify i f) = Function.update (subjectsOf t) i (some (f row).subject) := by
  funext j
  by_cases hj : j = i
  · subst hj; simp [subjectsOf, h]
  · simp [subjectsOf, Table.get_modify_ne _ _ hj, hj]

theorem attemptsOf_modify {row : RunRow} (h : t.get r = some row) (f : RunRow → RunRow) :
    attemptsOf (t.modify r f) = Function.update (attemptsOf t) r (some (f row).attempt) := by
  funext q
  by_cases hq : q = r
  · subst hq; simp [attemptsOf, h]
  · simp [attemptsOf, Table.get_modify_ne _ _ hq, hq]

/-- A write to columns outside the control view of a Run is not seen. -/
theorem attemptsOf_update_of_eq {f : UUID → RunRow → RunRow}
    (h : ∀ r row, (f r row).attempt = row.attempt) : attemptsOf (t.update f) = attemptsOf t := by
  funext r
  simp only [attemptsOf, Table.get_update, Option.map_map]
  congr 1
  funext row
  exact h r row

theorem attemptsOf_modify_of_eq {f : RunRow → RunRow} (h : ∀ row, (f row).attempt = row.attempt) :
    attemptsOf (t.modify r f) = attemptsOf t :=
  attemptsOf_update_of_eq fun q row => by split <;> simp [h]

/-- A write to columns outside the control view of an incident is not seen. -/
theorem subjectsOf_modify_of_eq {t : Table UUID IncidentRow} {f : IncidentRow → IncidentRow}
    (h : ∀ row, (f row).subject = row.subject) :
    subjectsOf (t.modify i f) = subjectsOf t := by
  funext j
  simp only [subjectsOf, Table.get_modify]
  split
  · simp [Function.comp_def, h]
  · rfl

/-- An attempt that stays as it is may be written back. -/
theorem attemptsOf_modify_self {row : RunRow} (h : t.get r = some row) {f : RunRow → RunRow}
    (hf : (f row).attempt = row.attempt) :
    attemptsOf (t.modify r f) = attemptsOf t := by
  rw [attemptsOf_modify h, hf, ← attemptsOf_get h, Function.update_eq_self]

namespace Store

theorem view_open {incident : IncidentRow} (h : (s.scopeOf incident).suspended = false) :
    s.view.Open incident.subject := by
  simp only [Scope.suspended, Bool.or_eq_false_iff] at h
  exact h

end Store

/-- A target whose suspension row was read has a gate. -/
theorem Store.requireGate_hasGate {target : Option UUID} {gate : Gate}
    (h : s.requireGate target = .ok gate) : s.view.HasGate target := by
  rintro t rfl
  simp only [requireGate, require_eq_ok] at h
  simp [view, h]

/-- The scope of an incident is locked when its target has a gate. -/
theorem Store.lockScope_isOk {incidentId : UUID} {incident : IncidentRow}
    (hinc : s.incidents.get incidentId = some incident) (h : s.view.HasGate incident.targetId) :
    s.lockScope (some incidentId) = .ok (s.scopeOf incident) := by
  simp only [lockScope, Option.bind_some, hinc, scopeOf]
  cases htarget : incident.targetId with
  | none => rfl
  | some t =>
    obtain ⟨gate, hgate⟩ := Option.isSome_iff_exists.1 (h t htarget)
    have hget : s.targetSuspensions.get t = some gate := hgate
    simp [requireGate, require, refuse, hget, bind, Except.bind, pure, Except.pure]

/-- A step of the machine, from the views. -/
theorem Control.Step.of_eq {e : Control.Event UUID} {F : Control.State UUID UUID UUID UUID Json}
    (h : Control.Step now s.view e F) (heq : s'.view = F) :
    Control.Step now s.view e s'.view := heq ▸ h

/-- A write the control view does not see. -/
theorem Control.Step.unseen (h : s'.view = s.view) :
    Control.Step now s.view .machine s'.view := Control.Step.idle.of_eq h

/-- A valid lease is one a fenced operation accepts. -/
theorem valid_iff_not_revoked {run : RunRow} {incident : IncidentRow}
    (hrun : s.runs.get L.runId = some run) (hinc : s.incidents.get run.incidentId = some incident) :
    Control.Valid s.view now L.view run.attempt incident.subject ↔
      run.incidentId = L.incidentId ∧
        ¬ leaseRevoked run incident.controlGeneration (s.scopeOf incident) L now := by
  rw [not_leaseRevoked]
  constructor
  · intro h
    exact ⟨h.bound, h.owner, h.epoch, h.generation, h.live, h.deadline, h.isOpen.1, h.isOpen.2,
      h.global, h.target⟩
  · rintro ⟨hbound, howner, hepoch, hgen, hlive, hdead, hg, ht, hgg, htg⟩
    exact {
      attempt := attemptsOf_get hrun
      subject := subjectsOf_get hinc
      bound := hbound
      owner := howner
      epoch := hepoch
      generation := hgen
      live := hlive
      deadline := hdead
      isOpen := ⟨hg, ht⟩
      global := hgg
      target := htg }

/-- **The shared lease check is validity in the control machine.** -/
theorem leaseCurrent_iff_valid {L : Lease} :
    s.leaseCurrent L now = true ↔
      ∃ run incident, s.runs.get L.runId = some run ∧
        s.incidents.get run.incidentId = some incident ∧
        Control.Valid s.view now L.view run.attempt incident.subject := by
  rw [Store.leaseCurrent_eq_true]
  constructor
  · rintro ⟨row, hrow, hbound, hfence⟩
    obtain ⟨hrun, hinc, hscope⟩ := Store.fencedRow_eq_some.1 hrow
    refine ⟨row.run, row.incident, hrun, hinc, ?_⟩
    rw [Store.FencedRow.revoked, hscope] at hfence
    exact (valid_iff_not_revoked hrun hinc).2 ⟨hbound, hfence⟩
  · rintro ⟨run, incident, hrun, hinc, hvalid⟩
    obtain ⟨hbound, hfence⟩ := (valid_iff_not_revoked hrun hinc).1 hvalid
    exact ⟨⟨run, incident, s.scopeOf incident⟩,
      Store.fencedRow_eq_some.2 ⟨hrun, hinc, rfl⟩, hbound, hfence⟩

theorem leaseCurrent_iff_exists_valid {L : Lease} :
    s.leaseCurrent L now = true ↔ ∃ a sub, Control.Valid s.view now L.view a sub := by
  rw [leaseCurrent_iff_valid]
  constructor
  · rintro ⟨run, incident, -, -, hvalid⟩
    exact ⟨_, _, hvalid⟩
  · rintro ⟨a, sub, hvalid⟩
    obtain ⟨run, hrun, rfl⟩ := attemptsOf_eq_some.1 hvalid.attempt
    obtain ⟨incident, hinc, rfl⟩ := subjectsOf_eq_some.1 hvalid.subject
    exact ⟨run, incident, hrun, hinc, hvalid⟩

/-- A lease is determined by what the control machine sees of it. -/
theorem Lease.view_injective {L' : Lease} (h : L.view = L'.view) : L = L' := by
  simp only [Lease.view, Control.Lease.mk.injEq] at h
  obtain ⟨hi, hr, ho, he, hg, hgg, htg⟩ := h
  cases L
  cases L'
  simp_all

end OpsPilot
