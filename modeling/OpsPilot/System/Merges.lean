import OpsPilot.Foundations.Forest
import OpsPilot.System.Lifecycles
import OpsPilot.System.Simulation

/-!
# Merges

A merge closes an incident for good and points it at its survivor. The merged incidents with their
pointers are a forest (`OpsPilot.Foundations.Forest`): a merge points a root at another root, and
nothing else writes a pointer.

* `Store.MergesSound`: a merged incident is dormant (`Control.Dormant`), and no pointers close a
  cycle.
* `exec_dormant`: no operation reopens a merged incident, or starts work on it.
* **`State.merge_permanence`**: merges are permanent and acyclic, and leave the survivor alone.
-/

namespace OpsPilot

variable {i v : UUID}

namespace Store

/-- The incident another was merged into. -/
def survivor (s : Store) (i : UUID) : Option UUID :=
  (s.incidents.get i).bind (·.mergedIntoIncidentId)

/-- The incident was merged into `v`, and is closed. -/
def MergedInto (s : Store) (i v : UUID) : Prop :=
  ∃ row, s.incidents.get i = some row ∧ row.mergedIntoIncidentId = some v ∧ row.lifecycle = .closed

/-- Nothing of the incident, its Runs and its observation changed. -/
structure Untouched (s s' : Store) (v : UUID) : Prop where
  incident : s'.incidents.get v = s.incidents.get v
  runs : ∀ q, (s'.runs.get q).filter (·.incidentId = v) =
    (s.runs.get q).filter (·.incidentId = v)
  sessions : ∀ q, (s'.sessions.get q).filter (·.incidentId = v) =
    (s.sessions.get q).filter (·.incidentId = v)
  samples : s'.samples = s.samples
  endings : s'.endings.filter (·.incidentId = v) = s.endings.filter (·.incidentId = v)

/-- Merged incidents are dormant, and lie on no cycle. -/
structure MergesSound (s : Store) : Prop where
  dormant : ∀ i v, s.survivor i = some v → Control.Dormant s.view i
  acyclic : Acyclic s.survivor

variable {s s' : Store} {clk : Clock}

theorem survivor_eq_some : s.survivor i = some v ↔
    ∃ row, s.incidents.get i = some row ∧ row.mergedIntoIncidentId = some v :=
  Option.bind_eq_some_iff

theorem MergesSound.mergedInto (h : s.MergesSound) (hv : s.survivor i = some v) :
    s.MergedInto i v := by
  obtain ⟨row, hrow, hm⟩ := survivor_eq_some.1 hv
  obtain ⟨sub, hsub, hclosed⟩ := (h.dormant i v hv).closed
  obtain ⟨row', hrow', rfl⟩ := subjectsOf_eq_some.1 hsub
  obtain rfl := Option.some.inj (hrow.symm.trans hrow')
  exact ⟨row, hrow, hm, hclosed⟩

/-! ## The merge -/

namespace Merged

variable {r : ControlRequest} {incident row : IncidentRow} {survivorId : UUID}

/-- The row a merge leaves. -/
theorem get (h : Merged s clk r incident row survivorId s') :
    ∃ merged, s'.incidents.get r.incidentId = some merged ∧
      merged.mergedIntoIncidentId = some survivorId ∧ merged.lifecycle = .closed := by
  obtain ⟨payload, inputs, rfl⟩ := h.written
  exact ⟨_, (Table.get_modify_self ..).trans (congrArg (Option.map _) h.found), rfl, rfl⟩

/-- A merge writes one incident. -/
theorem get_ne (h : Merged s clk r incident row survivorId s') (hi : i ≠ r.incidentId) :
    s'.incidents.get i = s.incidents.get i := by
  obtain ⟨payload, inputs, rfl⟩ := h.written
  simp only [terminate]
  rw [Table.get_modify_ne _ _ hi]

/-- **A merge leaves the survivor alone.** -/
theorem untouched (h : Merged s clk r incident row survivorId s') : Untouched s s' survivorId := by
  have hincident := h.get_ne h.ne
  obtain ⟨payload, inputs, rfl⟩ := h.written
  obtain ⟨hsessions, hendings⟩ := revokeObservation_other s clk incident.lifecycle h.ne
  refine ⟨hincident, fun q => ?_, hsessions, rfl, hendings⟩
  simp only [terminate, moveRuns, Table.get_update]
  cases s.runs.get q with
  | none => rfl
  | some run =>
    simp only [Option.map_some]
    split
    · next hrun =>
      have hne : ¬ run.incidentId = survivorId := fun heq => h.ne (heq ▸ hrun.1)
      have hne' : ¬ (run.decided .cancelled r.generation).incidentId = survivorId := hne
      simp [Option.filter, hne, hne']
    · rfl

/-- The merged incident is dormant: closed, with every Run of it cancelled. -/
theorem dormant (h : Merged s clk r incident row survivorId s') :
    Control.Dormant s'.view r.incidentId := by
  obtain ⟨merged, hmerged, -, hclosed⟩ := h.get
  refine ⟨⟨_, subjectsOf_get hmerged, hclosed⟩, fun q a ha hsubject => ?_⟩
  obtain ⟨run, hrun, rfl⟩ := attemptsOf_eq_some.1 ha
  obtain ⟨payload, inputs, rfl⟩ := h.written
  simp only [terminate, moveRuns, Table.get_update, Option.map_eq_some_iff] at hrun
  obtain ⟨run₀, -, rfl⟩ := hrun
  split at hsubject
  · next hmoved =>
    rw [if_pos hmoved]
    rfl
  · next hmoved =>
    rw [if_neg hmoved]
    have hstate : run₀.state ∉ unfinishedStates := fun hmem => hmoved ⟨hsubject, hmem⟩
    simp only [unfinishedStates, List.mem_cons, List.not_mem_nil, or_false, not_or] at hstate
    simp only [RunRow.attempt]
    cases hrun : run₀.state <;> simp_all [RunExecution.unfinished]

/-- A merge points a root at a root. -/
theorem acyclic (h : Merged s clk r incident row survivorId s') (hacyclic : Acyclic s.survivor) :
    Acyclic s'.survivor := by
  obtain ⟨merged, hmerged, hpointer, -⟩ := h.get
  refine hacyclic.link (b := survivorId) ?_ h.ne
    (survivor_eq_some.2 ⟨merged, hmerged, hpointer⟩) fun c hc => ?_
  · rw [survivor, h.surviving, Option.bind_some, h.root]
  · rw [survivor, h.get_ne hc, survivor]

end Merged

end Store

/-- A finished Run is not overdue. -/
theorem RunRow.not_overdue_of_finished {run : RunRow} {now : Time}
    (hfinished : run.attempt.state.unfinished = false) : ¬ run.overdue now = true := by
  intro hoverdue
  simp only [overdue, controlOpenRunStates, decide_eq_true_eq, List.mem_cons, List.not_mem_nil,
    or_false] at hoverdue
  have hstate : run.state.unfinished = false := hfinished
  rcases hoverdue.1 with h | h | h | h <;> rw [h] at hstate <;> cases hstate

open Store

section

variable [Texts] {op : Op} {clk : Clock} {s s' : Store} {issued : Issued}

/-- No operation on a merged incident is a reopening or starts a successor, but the replay of a
`new_run`, which changes nothing. -/
theorem exec_event_merged (h : op.exec clk s = .ok (issued, s')) {now : Time}
    (hinv : Control.Inv now s.view) (hmerged : s.survivor i = some v)
    (hdormant : Control.Dormant s.view i) :
    s' = s ∨ op.event clk s ≠ .successor i ∧ op.event clk s ≠ .reopen i := by
  obtain ⟨row, hrow, hpointer⟩ := survivor_eq_some.1 hmerged
  have hclosed : row.lifecycle = .closed := by
    obtain ⟨sub, hsub, hclosed⟩ := hdormant.closed
    obtain ⟨row', hrow', rfl⟩ := subjectsOf_eq_some.1 hsub
    obtain rfl := Option.some.inj (hrow.symm.trans hrow')
    exact hclosed
  cases op with
  | newRun n =>
    obtain ⟨-, g, ha⟩ := committed_eq_ok.1 h
    rcases newRun_ok ha with ⟨rfl, -⟩ | ⟨incident, suspended, hinc, -, hlife, -⟩
    · exact .inl rfl
    · refine .inr ⟨fun heq => ?_, by rintro ⟨⟩⟩
      obtain rfl := Control.Event.successor.inj heq
      obtain rfl := Option.some.inj (hrow.symm.trans hinc)
      exact hlife hclosed
  | control r =>
    obtain ⟨-, g, ha⟩ := committed_eq_ok.1 h
    refine .inr ⟨fun heq => ?_, fun heq => ?_⟩
    · -- a renewal needs a Run that is still open, or an incident that is not settled
      obtain ⟨hrenews, rfl⟩ := controlEvent_successor heq
      obtain ⟨incident, currentId, run, hinc, hcurrent, hrun, hor⟩ := control_renews_ok ha hrenews
      obtain rfl := Option.some.inj (hrow.symm.trans hinc)
      rcases hor with hoverdue | hsettled
      · obtain ⟨a, ha', hsubject, -⟩ := (hinv.subject _ _ (subjectsOf_get hrow)).owned currentId
          hcurrent
        have hfinished := hdormant.finished currentId a ha' hsubject
        obtain ⟨run', hrun', rfl⟩ := attemptsOf_eq_some.1 ha'
        obtain rfl := Option.some.inj (hrun.symm.trans hrun')
        exact RunRow.not_overdue_of_finished hfinished hoverdue
      · rw [hclosed] at hsettled
        cases hsettled
    · obtain ⟨haction, rfl⟩ := controlEvent_reopen heq
      obtain ⟨incident, scope, toUid, registered, hinc, -, -, hfinal, -⟩ := control_checked ha
      obtain rfl := Option.some.inj (hrow.symm.trans hinc)
      exact hfinal (by rw [hpointer]; rfl) (by simp [haction])
  | registerRemediation r => exact .inr ⟨by rintro ⟨⟩, by rintro ⟨⟩⟩
  | publish => exact .inr ⟨by rintro ⟨⟩, by rintro ⟨⟩⟩
  | _ => exact .inr ⟨by rintro ⟨⟩, by rintro ⟨⟩⟩

/-- **No operation reopens a merged incident, or starts work on it.** -/
theorem exec_dormant (h : op.exec clk s = .ok (issued, s')) (hinv : Control.Inv clk.now s.view)
    (hmerged : s.survivor i = some v) (hdormant : Control.Dormant s.view i) :
    Control.Dormant s'.view i := by
  rcases exec_event_merged h hinv hmerged hdormant with rfl | ⟨hsuccessor, hreopen⟩
  · exact hdormant
  · obtain ⟨e, he, F, hprepare, hmove⟩ := exec_move h
    have hprepared : Control.Dormant F i :=
      hprepare.dormant hinv hdormant (by rintro ⟨⟩) (by rintro ⟨⟩)
    refine hmove.dormant (hprepare.inv hinv) hprepared ?_ ?_ <;>
      rcases he with rfl | rfl
    · rintro ⟨⟩
    · exact hsuccessor
    · rintro ⟨⟩
    · exact hreopen

/-- An operation other than a merge writes no pointer. -/
theorem exec_survivor (h : op.exec clk s = .ok (issued, s')) (hop : op.merges = false)
    (hv : s'.survivor i = some v) : s.survivor i = some v := by
  obtain ⟨row', hrow', hpointer⟩ := survivor_eq_some.1 hv
  rcases (exec_rewrites h).frame.cases hrow' with ⟨row, hrow, hrewrites⟩ | ⟨-, -, hnone⟩
  · rcases hrewrites.merged with heq | hmerges
    · exact survivor_eq_some.2 ⟨row, hrow, heq ▸ hpointer⟩
    · rw [hop] at hmerges
      cases hmerges
  · rw [hpointer] at hnone
    cases hnone

/-- A merge is an accepted merging control. -/
theorem exec_merged (h : op.exec clk s = .ok (issued, s')) (hop : op.merges = true) :
    ∃ r incident row survivorId, Merged s clk r incident row survivorId s' := by
  cases op with
  | control r =>
    obtain ⟨-, g, ha⟩ := committed_eq_ok.1 h
    obtain ⟨incident, row, survivorId, hmerged⟩ := control_merge_ok ha (by simpa [Op.merges] using hop)
    exact ⟨r, incident, row, survivorId, hmerged⟩
  | _ => cases hop

/-- **No operation moves a pointer.** -/
theorem exec_survivor_kept (h : op.exec clk s = .ok (issued, s')) (hv : s.survivor i = some v) :
    s'.survivor i = some v := by
  obtain ⟨row, hrow, hpointer⟩ := survivor_eq_some.1 hv
  cases hop : op.merges with
  | false =>
    obtain ⟨row', hrow', hrewrites⟩ := (exec_rewrites h).frame.kept hrow
    refine survivor_eq_some.2 ⟨row', hrow', ?_⟩
    rcases hrewrites.merged with heq | hmerges
    · rw [heq, hpointer]
    · rw [hop] at hmerges
      cases hmerges
  | true =>
    obtain ⟨r, incident, row', survivorId, hmerged⟩ := exec_merged h hop
    have hi : i ≠ r.incidentId := by
      rintro rfl
      rw [survivor, hmerged.found, Option.bind_some, hmerged.unmerged] at hv
      cases hv
    rw [survivor, hmerged.get_ne hi]
    exact hv

/-- **Every operation keeps the merges sound.** -/
theorem exec_mergesSound (h : op.exec clk s = .ok (issued, s')) (hinv : Control.Inv clk.now s.view)
    (hsound : s.MergesSound) : s'.MergesSound := by
  cases hop : op.merges with
  | false =>
    refine ⟨fun i v hv => ?_, hsound.acyclic.anti fun i v => exec_survivor h hop⟩
    have hv₀ := exec_survivor h hop hv
    exact exec_dormant h hinv hv₀ (hsound.dormant i v hv₀)
  | true =>
    obtain ⟨r, incident, row, survivorId, hmerged⟩ := exec_merged h hop
    refine ⟨fun i v hv => ?_, hmerged.acyclic hsound.acyclic⟩
    by_cases hi : i = r.incidentId
    · subst hi
      exact hmerged.dormant
    · rw [survivor, hmerged.get_ne hi] at hv
      exact exec_dormant h hinv hv (hsound.dormant i v hv)

end

namespace State

variable [Texts] {σ σ' : State} {call : Call}

theorem reachable_mergesSound (h : system.Reachable σ) : σ.store.MergesSound := by
  refine h.invariant_of (I := fun σ => Control.Inv σ.now σ.store.view)
    (P := fun σ => σ.store.MergesSound) (fun _ => reachable_inv) (fun σ hinit => ?_)
    fun {σ call σ'} hstep hinv hsound => ?_
  · rw [hinit.1]
    exact ⟨fun i v hv => (by cases hv), Acyclic.of_none fun _ => rfl⟩
  · rcases step_cases hstep with ⟨issued, store, hok, rfl⟩ | ⟨-, rfl⟩
    · exact exec_mergesSound hok (hinv.mono hstep.1) hsound
    · exact hsound

/-- No step moves a pointer. -/
theorem step_survivor (h : system.Step σ call σ') (hv : σ.store.survivor i = some v) :
    σ'.store.survivor i = some v :=
  step_store h hv fun _ _ hok => exec_survivor_kept hok hv

/-- **Merges are permanent and acyclic**: in every state some run reaches, the pointers close no
cycle, and a merged incident is closed, and stays closed with the same survivor whatever comes after;
and a merge leaves the survivor with its generations, Runs and observation as they were. -/
theorem merge_permanence (h : system.Reachable σ) :
    Acyclic σ.store.survivor ∧
    (∀ i v, σ.store.survivor i = some v →
      σ.store.MergedInto i v ∧
        ∀ calls σ', system.Run σ calls σ' → σ'.store.MergedInto i v) ∧
    ∀ clk r g s', σ.store.control clk r = .ok (g, s') → r.action = .mergeInto →
      ∃ v, r.survivorId = some v ∧ v ≠ r.incidentId ∧ s'.MergedInto r.incidentId v ∧
        σ.store.Untouched s' v := by
  have hsound := reachable_mergesSound h
  refine ⟨hsound.acyclic, fun i v hv => ⟨hsound.mergedInto hv, fun calls σ' hrun => ?_⟩, ?_⟩
  · have hv' : σ'.store.survivor i = some v :=
      hrun.stable (P := fun σ => σ.store.survivor i = some v) (fun hstep => step_survivor hstep) hv
    exact (reachable_mergesSound (h.run hrun)).mergedInto hv'
  · intro clk r g s' hcontrol haction
    obtain ⟨incident, row, v, hmerged⟩ := control_merge_ok hcontrol haction
    exact ⟨v, hmerged.named, hmerged.ne, hmerged.get, hmerged.untouched⟩

end State

namespace Scenario

/-- Two incidents, merged into each other at the same moment. -/
def mergeCalls : List Call :=
  [(Op.accept {
      incidentId := 1, runId := 2, intakeKey := "alert-1", deadline := seconds 3600
      budgetLimit := 1000, versions := .obj [], input := none, targetId := none
      priority := 1 }).at 0,
    (Op.accept {
      incidentId := 3, runId := 4, intakeKey := "alert-2", deadline := seconds 3600
      budgetLimit := 1000, versions := .obj [], input := none, targetId := none
      priority := 1 }).at 0,
    (Op.control {
      incidentId := 1, expectedGeneration := 0, action := .mergeInto, actor := "anna"
      survivorId := some 3, inputId := 5 }).at (seconds 1),
    (Op.control {
      incidentId := 3, expectedGeneration := 0, action := .mergeInto, actor := "ben"
      survivorId := some 1, inputId := 6 }).at (seconds 1)]

/-- The merge that comes first stands for good, and the other is refused. -/
theorem merge_permanence_opposite :
    Acyclic (State.reached mergeCalls).store.survivor ∧
      (State.reached mergeCalls).store.survivor 3 = none ∧
      ∀ calls σ', system.Run (State.reached mergeCalls) calls σ' → σ'.store.MergedInto 1 3 := by
  have hreachable : system.Reachable (State.reached mergeCalls) :=
    State.reachable_reached (by decide)
  have hmerged : (State.reached mergeCalls).store.survivor 1 = some 3 := by decide
  obtain ⟨hacyclic, hpermanent, -⟩ := State.merge_permanence hreachable
  exact ⟨hacyclic, by decide, (hpermanent 1 3 hmerged).2⟩

end Scenario

end OpsPilot
