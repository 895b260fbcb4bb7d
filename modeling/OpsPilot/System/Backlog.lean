import OpsPilot.Foundations.Interleaving
import OpsPilot.Foundations.Ranking
import OpsPilot.System.Simulation

/-!
# Parking the backlog

`park_backlog` parks one Run in a transaction: it takes the lock of the passes, picks the Run the
claim order would take last, locks and checks it again, counts the backlog, picks again and parks.
Any number of passes run at the same time, statement by statement, next to every other operation of
the store. What the statements saw is told by a `Trail`, the list of the states committed so far.

* `Store.claimable`: what `claimable_incidents` lists, in the claim order.
* `parkOne`: the statements of a pass; `parkOne_alone`: alone, it is `Store.parkBacklog`.
* `backlogLowest_last`: parking takes the last of the claim order.
* **`Trail.backlog_parking`**: in any order of statements, a Run is parked after its pass counted
  more than the limit and found it last, and never when a human decision opened or queued it.
-/

namespace OpsPilot

/-- An incident with its current Run. -/
abbrev BacklogEntry := UUID × IncidentRow × UUID × RunRow

/-- `ORDER BY priority, deadline, incident_id`. -/
def claimKey (e : BacklogEntry) : ℕ ×ₗ Time ×ₗ UUID :=
  toLex (e.2.1.priority, toLex (e.2.2.2.deadline, e.1))

/-- No human decision has touched the queued Run. -/
def Parkable (e : BacklogEntry) : Bool :=
  e.2.2.2.state = .queued ∧ e.2.2.2.controlGeneration = 0

namespace Store

/-- `claimable_incidents`: the open, automatic, unconcluded, unpaused incidents whose current Run a
worker may try to claim, in the claim order. -/
def claimable (s : Store) (now : Time) : List BacklogEntry :=
  (s.incidents.rows.filterMap fun e => do
    let runId ← e.2.currentRunId
    let run ← s.runs.get runId
    if e.2.state ∉ [IncidentState.paused, .cancelled, .completed] ∧ e.2.mode = .automatic ∧
        e.2.conclusion = none ∧ run.state ∈ [RunExecution.queued, .running] ∧ now < run.deadline ∧
        (run.state = .queued ∨ leaseLive run.leaseUntil now = false) then
      some (e.1, e.2, runId, run)
    else none).mergeSort fun a b => claimKey a ≤ claimKey b

/-- `claimable_incidents`, as it is called. -/
def claimableIncidents (s : Store) (now : Time) (limit : ℕ) : List UUID :=
  ((s.claimable now).take limit).map Prod.fst

/-- The re-check of a candidate under its locks: the generation of its incident, while the candidate
is still one. -/
def backlogRow (s : Store) (now : Time) (incidentId runId : UUID) : Option ℕ :=
  ((s.backlog now).find? fun e =>
    e.2.2.2.controlGeneration = 0 ∧ e.1 = incidentId ∧ e.2.2.1 = runId).map
      (·.2.1.controlGeneration)

end Store

/-- The states committed so far: the last one, and those before it, newest first. -/
structure Trail where
  state : State
  past : List State := []

namespace Trail

/-- All of them. -/
def states (t : Trail) : List State := t.state :: t.past

/-- One more. -/
def push (t : Trail) (σ : State) : Trail := ⟨σ, t.states⟩

/-- What was committed stays on record. -/
def Extends (t t' : Trail) : Prop := t.states <:+ t'.states

/-- `SELECT count(*)` over the backlog, now. -/
def queued (t : Trail) : ℕ := (t.state.store.backlog t.state.now).length

/-- The next Run to park, now. -/
def lowest (t : Trail) : Option BacklogEntry := t.state.store.backlogLowest t.state.now

/-- The Runs a pass may park, in the claim order, now. -/
def parkable (t : Trail) : List BacklogEntry :=
  (t.state.store.claimable t.state.now).filter Parkable

/-- Park a Run. -/
def park (t : Trail) (runId : UUID) : Trail :=
  t.push { t.state with store := t.state.store.park runId [.queued] }

end Trail

/-- What a pass locks: the other passes out, the row of an incident, the row of a Run. -/
inductive BacklogLock
  | backlog
  | incident (incidentId : UUID)
  | run (runId : UUID)
  deriving DecidableEq

/-- The incident, the Run and the generation when one was parked. -/
abbrev Parked := Option (UUID × UUID × ℕ)

/-- A transaction of a pass. -/
abbrev ParkTransaction :=
  Program Trail BacklogLock Code (Trail → Except Code (Parked × Trail))

open Program (acquire lift)

/-- The transaction writes nothing. -/
def parkNothing : ParkTransaction := Program.pure fun t => .ok (none, t)

/-- The last statements of a pass, with the candidate locked: the count, the second pick, and the
write. -/
def parkLocked (maxQueued : ℕ) (incidentId runId : UUID) (generation : ℕ) : ParkTransaction := do
  let counted ← Program.committed
  if counted.queued ≤ maxQueued then parkNothing
  else do
    let picked ← Program.committed
    if picked.lowest.map (·.2.2.1) = some runId then
      Program.pure fun t => .ok (some (incidentId, runId, generation), t.park runId)
    else parkNothing

/-- The statements that lock a candidate and check it again. -/
def parkCandidate (maxQueued : ℕ) : Option BacklogEntry → ParkTransaction
  | none => parkNothing
  | some (incidentId, _, runId, _) => do
    let _ ← acquire [BacklogLock.incident incidentId]
    let locked ← acquire [BacklogLock.run runId]
    match locked.state.store.backlogRow locked.state.now incidentId runId with
    | none => parkNothing
    | some generation => parkLocked maxQueued incidentId runId generation

/-- One transaction of `park_backlog`. -/
def parkOne (maxQueued : ℕ) : ParkTransaction := do
  let _ ← lift (refuse (maxQueued < 1) Code.invalidInput)
  let _ ← acquire [BacklogLock.backlog]
  let candidate ← Program.committed
  parkCandidate maxQueued candidate.lowest

/-- What a lock covers; the lock of the passes covers no row. -/
def BacklogLock.Spares : BacklogLock → Trail → Trail → Prop
  | .backlog, _, _ => True
  | .incident i, t, t' => ∀ row, t.state.store.incidents.get i = some row →
      t'.state.store.incidents.get i = some row
  | .run r, t, t' => ∀ row, t.state.store.runs.get r = some row →
      t'.state.store.runs.get r = some row

/-- A pass as one step. -/
def Op.parks : Op → Bool
  | .parkBacklog _ => true
  | _ => false

/-- Passes as a service, next to every other operation of the store. -/
def backlogParking [Texts] : Service Trail BacklogLock Code Parked ℕ Call where
  program := parkOne
  Init t := system.Init t.state ∧ t.past = []
  Other t call t' := call.op.parks = false ∧
    ∃ σ, system.Step t.state call σ ∧ t' = t.push σ
  Spares := BacklogLock.Spares

/-! ## The two orders -/

/-- **The parking order is the reverse of the claim order.** -/
theorem parkedBefore_iff (a b : BacklogEntry) :
    Store.parkedBefore a b = true ↔ claimKey b < claimKey a := by
  simp only [Store.parkedBefore, claimKey, decide_eq_true_eq, Prod.Lex.toLex_lt_toLex]

namespace Store

variable {s s' : Store} {now : Time} {e e' : BacklogEntry}

/-- An entry is an incident with its current Run. -/
structure Listed (s : Store) (e : BacklogEntry) : Prop where
  incident : s.incidents.get e.1 = some e.2.1
  current : e.2.1.currentRunId = some e.2.2.1
  run : s.runs.get e.2.2.1 = some e.2.2.2

/-- An incident is listed once. -/
theorem Listed.unique (h : s.Listed e) (h' : s.Listed e') (hid : e.1 = e'.1) : e = e' := by
  obtain ⟨i, incident, q, run⟩ := e
  obtain ⟨i', incident', q', run'⟩ := e'
  obtain rfl : i = i' := hid
  obtain rfl := Option.some.inj (h.incident.symm.trans h'.incident)
  obtain rfl := Option.some.inj (h.current.symm.trans h'.current)
  obtain rfl := Option.some.inj (h.run.symm.trans h'.run)
  rfl

theorem mem_claimable_iff : e ∈ s.claimable now ↔ s.Listed e ∧
    e.2.1.state ∉ [IncidentState.paused, .cancelled, .completed] ∧ e.2.1.mode = .automatic ∧
    e.2.1.conclusion = none ∧ e.2.2.2.state ∈ [RunExecution.queued, .running] ∧
    now < e.2.2.2.deadline ∧ (e.2.2.2.state = .queued ∨ leaseLive e.2.2.2.leaseUntil now = false) := by
  obtain ⟨i, incident, q, run⟩ := e
  simp only [claimable, List.mem_mergeSort, List.mem_filterMap, Option.bind_eq_bind,
    Option.bind_eq_some_iff]
  constructor
  · rintro ⟨⟨j, row⟩, hrow, r, hr, run', hrun, h⟩
    split at h
    · next hc =>
      cases h
      exact ⟨⟨Table.mem_rows_iff.1 hrow, hr, hrun⟩, hc⟩
    · cases h
  · rintro ⟨hlisted, hc⟩
    exact ⟨(i, incident), Table.mem_rows_iff.2 hlisted.incident, q, hlisted.current, run,
      hlisted.run, if_pos hc⟩

theorem mem_backlog_iff : e ∈ s.backlog now ↔ s.Listed e ∧
    e.2.1.state ∉ [IncidentState.paused, .cancelled, .completed] ∧ e.2.1.mode = .automatic ∧
    e.2.1.conclusion = none ∧ e.2.2.2.state = .queued ∧ now < e.2.2.2.deadline := by
  obtain ⟨i, incident, q, run⟩ := e
  simp only [backlog, List.mem_filterMap, Option.bind_eq_bind, Option.bind_eq_some_iff]
  constructor
  · rintro ⟨⟨j, row⟩, hrow, r, hr, run', hrun, h⟩
    split at h
    · next hc =>
      cases h
      exact ⟨⟨Table.mem_rows_iff.1 hrow, hr, hrun⟩, hc⟩
    · cases h
  · rintro ⟨hlisted, hc⟩
    exact ⟨(i, incident), Table.mem_rows_iff.2 hlisted.incident, q, hlisted.current, run,
      hlisted.run, if_pos hc⟩

/-- What a pass may park is the queued part of what is claimable, with no human decision yet. -/
theorem mem_parkable_iff : e ∈ (s.claimable now).filter Parkable ↔
    e ∈ s.backlog now ∧ e.2.2.2.controlGeneration = 0 := by
  simp only [List.mem_filter, mem_claimable_iff, mem_backlog_iff, Parkable, decide_eq_true_eq]
  constructor
  · rintro ⟨⟨hlisted, hstate, hmode, hconc, -, hdeadline, -⟩, hqueued, hgen⟩
    exact ⟨⟨hlisted, hstate, hmode, hconc, hqueued, hdeadline⟩, hgen⟩
  · rintro ⟨⟨hlisted, hstate, hmode, hconc, hqueued, hdeadline⟩, hgen⟩
    exact ⟨⟨hlisted, hstate, hmode, hconc, by simp [hqueued], hdeadline, .inl hqueued⟩, hqueued,
      hgen⟩

/-- The next Run to park is one a pass may park. -/
theorem mem_of_backlogLowest (h : s.backlogLowest now = some e) :
    e ∈ s.backlog now ∧ e.2.2.2.controlGeneration = 0 := by
  rcases foldl_best_mem _ _ _ h with hnone | hmem
  · cases hnone
  · simpa using hmem

/-- **The next Run to park is the last of the claim order.** -/
theorem backlogLowest_last (h : s.backlogLowest now = some e) :
    ((s.claimable now).filter Parkable).getLast? = some e := by
  obtain ⟨hgreatest, -⟩ := foldl_best_greatest parkedBefore_iff _ _ h
  refine getLast?_of_greatest claimKey ((pairwise_mergeSort_key claimKey _).filter _)
    (mem_parkable_iff.2 (mem_of_backlogLowest h)) (fun y hy => hgreatest y ?_) fun y hy hkey => ?_
  · simpa using mem_parkable_iff.1 hy
  · have hid : y.1 = e.1 := by
      have hlex := congrArg (fun k : ℕ ×ₗ Time ×ₗ UUID => (ofLex (ofLex k).2).2) hkey
      exact hlex
    exact (mem_backlog_iff.1 (mem_parkable_iff.1 hy).1).1.unique
      (mem_backlog_iff.1 (mem_of_backlogLowest h).1).1 hid

/-- A candidate that passes the re-check. -/
theorem backlogRow_eq_some {incidentId runId : UUID} {generation : ℕ}
    (h : s.backlogRow now incidentId runId = some generation) :
    ∃ e ∈ s.backlog now, e.1 = incidentId ∧ e.2.2.1 = runId ∧
      e.2.1.controlGeneration = generation ∧ e.2.2.2.controlGeneration = 0 := by
  obtain ⟨e, he, hgeneration⟩ := Option.map_eq_some_iff.1 h
  have hcheck := List.find?_some he
  simp only [decide_eq_true_eq] at hcheck
  exact ⟨e, List.mem_of_find?_eq_some he, hcheck.2.1, hcheck.2.2, hgeneration, hcheck.1⟩

/-- The candidate of a pass passes the re-check on the same state. -/
theorem backlogRow_of_lowest (h : s.backlogLowest now = some e) :
    s.backlogRow now e.1 e.2.2.1 = some e.2.1.controlGeneration := by
  obtain ⟨hmem, hgeneration⟩ := mem_of_backlogLowest h
  unfold backlogRow
  cases hfind : (s.backlog now).find? fun e' =>
      e'.2.2.2.controlGeneration = 0 ∧ e'.1 = e.1 ∧ e'.2.2.1 = e.2.2.1 with
  | none =>
    rw [List.find?_eq_none] at hfind
    exact absurd (by simp [hgeneration]) (hfind e hmem)
  | some e' =>
    have hcheck := List.find?_some hfind
    simp only [decide_eq_true_eq] at hcheck
    obtain rfl := (mem_backlog_iff.1 (List.mem_of_find?_eq_some hfind)).1.unique
      (mem_backlog_iff.1 hmem).1 hcheck.2.1
    rfl

end Store

/-- The last statements of a pass that runs alone. -/
theorem parkLocked_alone (maxQueued : ℕ) (i q : UUID) (g : ℕ) (t : Trail) :
    (parkLocked maxQueued i q g).alone t =
      if t.queued ≤ maxQueued then .ok fun t => .ok (none, t)
      else if t.lowest.map (·.2.2.1) = some q then .ok fun t => .ok (some (i, q, g), t.park q)
      else .ok fun t => .ok (none, t) := by
  unfold parkLocked
  by_cases hcount : t.queued ≤ maxQueued
  · simp only [Bind.bind, Program.committed, Program.bind, Program.alone, if_pos hcount, parkNothing]
  · by_cases hpick : t.lowest.map (·.2.2.1) = some q
    · simp only [Bind.bind, Program.committed, Program.bind, Program.alone, if_neg hcount,
        if_pos hpick]
    · simp only [Bind.bind, Program.committed, Program.bind, Program.alone, if_neg hcount,
        if_neg hpick, parkNothing]

/-- **A pass that runs alone** is the transaction of `Store.parkBacklog`. -/
theorem parkOne_alone (t : Trail) (maxQueued : ℕ) :
    (((parkOne maxQueued).alone t).bind fun write => write t).map
        (fun r => (r.1, r.2.state.store)) =
      t.state.store.parkBacklog ⟨t.state.now, t.state.now, le_rfl⟩ maxQueued := by
  by_cases hmax : maxQueued < 1
  · simp [parkOne, Store.parkBacklog, refuse, hmax, Program.lift, Bind.bind, Program.bind,
      Program.alone, Except.bind, Except.map]
  · have halone : (parkOne maxQueued).alone t = (parkCandidate maxQueued t.lowest).alone t := by
      simp only [parkOne, refuse, if_neg hmax]
      rfl
    rw [halone, Store.parkBacklog, refuse_bind_of_not hmax]
    unfold parkCandidate
    cases hlowest : t.lowest with
    | none =>
      rw [show t.state.store.backlogLowest t.state.now = none from hlowest]
      rfl
    | some e =>
      have hrow := Store.backlogRow_of_lowest (s := t.state.store) hlowest
      rw [show t.state.store.backlogLowest t.state.now = some e from hlowest]
      have hlocked : ((do
          let _ ← acquire [BacklogLock.incident e.1]
          let locked ← acquire [BacklogLock.run e.2.2.1]
          match locked.state.store.backlogRow locked.state.now e.1 e.2.2.1 with
          | none => parkNothing
          | some generation => parkLocked maxQueued e.1 e.2.2.1 generation :
            ParkTransaction).alone t) =
          (parkLocked maxQueued e.1 e.2.2.1 e.2.1.controlGeneration).alone t := by
        change (match t.state.store.backlogRow t.state.now e.1 e.2.2.1 with
          | none => parkNothing
          | some generation => parkLocked maxQueued e.1 e.2.2.1 generation).alone t = _
        rw [hrow]
      refine (congrArg (fun r => (Except.bind r fun write => write t).map _) hlocked).trans ?_
      have hpick : t.lowest.map (·.2.2.1) = some e.2.2.1 := by rw [hlowest, Option.map_some]
      rw [parkLocked_alone]
      simp only [hpick, if_true]
      change _ = (if t.queued ≤ maxQueued then _ else _)
      split <;> rfl

/-! ## A pass between its statements -/

namespace Trail

theorem Extends.refl (t : Trail) : t.Extends t := List.suffix_rfl

theorem Extends.trans {a b c : Trail} (h : a.Extends b) (h' : b.Extends c) : a.Extends c :=
  List.IsSuffix.trans h h'

theorem extends_push (t : Trail) (σ : State) : t.Extends (t.push σ) := List.suffix_cons ..

/-- The control invariant of what is committed. -/
def Inv (t : Trail) : Prop := Control.Inv t.state.now t.state.store.view

/-- **What the commit of a pass that parks did**: on the way here it counted more than the limit,
and then found the Run, the last it may park in the claim order; and the Run is still as it found
it. -/
structure Parks (maxQueued : ℕ) (t : Trail) (e : BacklogEntry) (t' : Trail) : Prop where
  seen : ∃ counted picked : Trail, counted.Extends picked ∧ picked.Extends t ∧
    maxQueued < counted.queued ∧ picked.parkable.getLast? = some e
  listed : t.state.store.Listed e
  parkable : Parkable e = true
  written : t' = t.park e.2.2.1

/-- The specification of a commit. -/
def Parking (maxQueued : ℕ) (held : List BacklogLock) (t : Trail) (answer : Parked) (t' : Trail) :
    Prop :=
  (answer = none ∧ t' = t) ∨
    ∃ e, answer = some (e.1, e.2.2.1, e.2.1.controlGeneration) ∧ t.Parks maxQueued e t' ∧
      .run e.2.2.1 ∈ held

end Trail

section

variable [Texts] {maxQueued : ℕ} {held : List BacklogLock} {s t : Trail}

/-- What a pass relies on between its statements. -/
abbrev ParkRely : List BacklogLock → Trail → Trail → Prop :=
  backlogParking.Rely Trail.Inv Trail.Extends

/-- What the value of a pass does. -/
abbrev ParkWrites (maxQueued : ℕ) (held : List BacklogLock) (t : Trail)
    (write : Trail → Except Code (Parked × Trail)) : Prop :=
  Service.Writes (Trail.Parking maxQueued) held t write

theorem backlogParking_lawful : backlogParking.Lawful Trail.Extends where
  grows_refl := .refl
  grows_trans := .trans
  refl l t := by
    cases l with
    | backlog => trivial
    | incident i => exact fun _ => id
    | run r => exact fun _ => id
  trans {l a b c} hab hbc := by
    cases l with
    | backlog => trivial
    | incident i => exact fun row h => hbc row (hab row h)
    | run r => exact fun row h => hbc row (hab row h)

theorem parkNothing_sound (held : List BacklogLock) (t : Trail) :
    parkNothing.Sound ParkRely (ParkWrites maxQueued) held t := by
  intro u _ answer v hwrite
  cases hwrite
  exact .inl ⟨rfl, rfl⟩

/-- **The last statements of a pass**, with the rows of the candidate locked. -/
theorem parkLocked_sound {e : BacklogEntry} (hlisted : t.state.store.Listed e)
    (hincident : .incident e.1 ∈ held) (hrun : .run e.2.2.1 ∈ held) :
    (parkLocked maxQueued e.1 e.2.2.1 e.2.1.controlGeneration).Sound ParkRely
      (ParkWrites maxQueued) held t := by
  unfold parkLocked
  refine .committed_bind fun counted hcounted => ?_
  split
  · exact parkNothing_sound held counted
  · next hmore =>
    refine .committed_bind fun picked hpicked => ?_
    split
    · next hsame =>
      obtain ⟨e', hlowest, hrunId⟩ := Option.map_eq_some_iff.1 hsame
      -- the row of the Run is the one that was locked, so it is the Run of the same incident
      have hrow : picked.state.store.runs.get e.2.2.1 = some e.2.2.2 :=
        (hpicked.spares _ hrun) _ ((hcounted.spares _ hrun) _ hlisted.run)
      have hinc : picked.state.store.incidents.get e.1 = some e.2.1 :=
        (hpicked.spares _ hincident) _ ((hcounted.spares _ hincident) _ hlisted.incident)
      obtain ⟨hmem, hgeneration⟩ := Store.mem_of_backlogLowest hlowest
      obtain ⟨hlisted', hstate, hmode, hconc, hqueued, hdeadline⟩ := Store.mem_backlog_iff.1 hmem
      have hlistedPicked : picked.state.store.Listed e := ⟨hinc, hlisted.current, hrow⟩
      have hid : e'.1 = e.1 := by
        obtain ⟨a', ha', hsubject', -⟩ := (hpicked.inv.subject _ _
          (subjectsOf_get hlisted'.incident)).owned _ hlisted'.current
        obtain ⟨a, ha, hsubject, -⟩ := (hpicked.inv.subject _ _
          (subjectsOf_get hinc)).owned _ hlisted.current
        rw [hrunId] at ha'
        obtain rfl := Option.some.inj (ha.symm.trans ha')
        exact hsubject'.symm.trans hsubject
      obtain rfl := hlisted'.unique hlistedPicked hid
      intro u hu answer v hwrite
      cases hwrite
      refine .inr ⟨e', rfl, ⟨⟨counted, picked, hpicked.grows, hu.grows, not_le.1 hmore,
        Store.backlogLowest_last hlowest⟩, ?_, ?_, rfl⟩, hrun⟩
      · exact ⟨(hu.spares _ hincident) _ hinc, hlisted.current, (hu.spares _ hrun) _ hrow⟩
      · simp [Parkable, hqueued, hgeneration]
    · exact parkNothing_sound held picked

theorem parkOne_sound (maxQueued : ℕ) (s : Trail) :
    (parkOne maxQueued).Sound ParkRely (ParkWrites maxQueued) [] s := by
  unfold parkOne
  refine .lift_bind fun _ _ => .acquire_bind fun t₁ _ => .committed_bind fun t₂ _ => ?_
  unfold parkCandidate
  split
  · exact parkNothing_sound _ t₂
  · refine .acquire_bind fun t₃ _ => .acquire_bind fun t₄ _ => ?_
    split
    · exact parkNothing_sound _ t₄
    · next hrow =>
      obtain ⟨e, he, rfl, rfl, rfl, -⟩ := Store.backlogRow_eq_some hrow
      exact parkLocked_sound (Store.mem_backlog_iff.1 he).1 (by simp) (by simp)

omit [Texts] in
/-- Parking a queued Run keeps the control invariant. -/
theorem park_inv {e : BacklogEntry} (hinv : t.Inv) (hlisted : t.state.store.Listed e) :
    (t.park e.2.2.1).Inv := by
  have hstep : Control.Step t.state.now t.state.store.view .machine
      (t.state.store.park e.2.2.1 [.queued]).view :=
    Store.park_step hlisted.run fun state hstate => .inl (List.mem_singleton.1 hstate)
  exact hstep.inv hinv

/-- **Passes keep the control invariant** and commit what they should, in any order of
statements. -/
theorem backlogParking_keeps :
    backlogParking.Keeps Trail.Inv Trail.Extends Trail.Parking where
  toLawful := backlogParking_lawful
  init t ht := State.reachable_inv (.init ht.1)
  sound maxQueued s _ := parkOne_sound maxQueued s
  commit {maxQueued held s answer t} h hinv := by
    rcases h with ⟨-, rfl⟩ | ⟨e, -, hparks, hheld⟩
    · exact ⟨hinv, .refl _, fun l _ => backlogParking_lawful.refl l _⟩
    · obtain rfl := hparks.written
      refine ⟨park_inv hinv hparks.listed, Trail.extends_push .., fun l hl => ?_⟩
      cases l with
      | backlog => trivial
      | incident i => exact fun _ => id
      | run r =>
        intro row hrow
        have hne : r ≠ e.2.2.1 := by
          rintro rfl
          exact hl hheld
        simp only [Trail.park, Trail.push, Store.park]
        rw [Table.get_modify_ne _ _ hne, hrow]
  other {s call t} h hinv := by
    obtain ⟨-, σ, hstep, rfl⟩ := h
    exact ⟨State.step_inv hstep hinv, Trail.extends_push ..⟩

end

/-! ## Human decisions -/

/-- The decisions that open Runs or queue them again. -/
def Op.human : Op → Bool
  | .control _ | .newRun _ => true
  | _ => false

namespace Store

variable {s s' : Store} {clk : Clock} {q : UUID} {run : RunRow}

/-- A Run a ruling has moved carries its generation. -/
theorem moveRuns_get {i : UUID} {source : List RunExecution} {target : RunExecution} {g : ℕ}
    (h : (s.moveRuns i source target g).get q = some run) :
    s.runs.get q = some run ∨ run.controlGeneration = g := by
  rw [moveRuns, Table.get_update] at h
  obtain ⟨old, hold, rfl⟩ := Option.map_eq_some_iff.1 h
  split
  · exact .inr rfl
  · exact .inl hold

/-- A Run a decision wrote carries the generation of the decision. -/
theorem Decided.runs_get {r : ControlRequest} {incident : IncidentRow}
    (h : Decided s clk r incident s') (hrun : s'.runs.get q = some run) :
    s.runs.get q = some run ∨ run.controlGeneration = r.generation := by
  cases h with
  | close => exact moveRuns_get hrun
  | reopen => exact .inl hrun
  | @rebind t targetId payload haction hlife hreg =>
    have hruns : t.runs = s.runs := by
      rcases hreg with rfl | ⟨-, toUid, rfl⟩ <;> rfl
    rw [← hruns]
    exact moveRuns_get hrun
  | @merge _ _ _ t _ haction hsurvivor hne ht hinput =>
    have hruns : s'.runs = s.moveRuns r.incidentId unfinishedStates .cancelled r.generation := by
      rcases hinput with rfl | ⟨-, rfl⟩ <;> rw [ht] <;> rfl
    rw [hruns] at hrun
    exact moveRuns_get hrun
  | takeover =>
    simp only [Store.takeover] at hrun
    split at hrun
    · exact .inl hrun
    · exact moveRuns_get hrun
  | renew =>
    simp only [addNote, addInput, Store.renew, Table.get_insert] at hrun
    split at hrun
    · obtain rfl := Option.some.inj hrun
      exact .inr rfl
    · exact moveRuns_get hrun
  | @direct suspended =>
    have hdirect : (s.directRuns r incident suspended).get q = some run := by
      split at hrun <;> exact hrun
    unfold directRuns at hdirect
    split at hdirect
    · exact moveRuns_get hdirect
    · split at hdirect
      · exact .inl hdirect
      · split at hdirect
        · exact moveRuns_get hdirect
        · split at hdirect <;> exact moveRuns_get hdirect

end Store

open Store in
/-- **A Run a human decision wrote has left generation 0.** -/
theorem exec_human [Texts] {op : Op} {clk : Clock} {s s' : Store} {issued : Issued}
    (h : op.exec clk s = .ok (issued, s')) (hop : op.human = true) {q : UUID} {run : RunRow}
    (hrun : s'.runs.get q = some run) (hne : s.runs.get q ≠ some run) :
    0 < run.controlGeneration := by
  cases op with
  | control r =>
    obtain ⟨-, g, ha⟩ := committed_eq_ok.1 h
    obtain ⟨incident, -, -, -, hdecided⟩ := control_ok ha
    rcases hdecided.runs_get hrun with hold | hgeneration
    · exact absurd hold hne
    · rw [hgeneration]
      exact Nat.succ_pos _
  | newRun n =>
    obtain ⟨-, g, ha⟩ := committed_eq_ok.1 h
    rcases newRun_ok ha with ⟨rfl, -⟩ | ⟨incident, suspended, -, -, -, -, -, -, -, rfl⟩
    · exact absurd hrun hne
    · simp only [startRun, Table.get_insert] at hrun
      split at hrun
      · obtain rfl := Option.some.inj hrun
        exact Nat.succ_pos _
      · exact absurd hrun hne
  | _ => cases hop

/-- A human decision has touched the Run. -/
def Trail.Touched (t : Trail) (q : UUID) : Prop :=
  ∃ run, t.state.store.runs.get q = some run ∧ 0 < run.controlGeneration

section

variable [Texts] {w w' : World Trail BacklogLock Code Parked ℕ} {l : Happening Parked ℕ Call}

/-- What a step of the service does. -/
theorem parkStep_cases (h : backlogParking.system.Reachable w)
    (hstep : backlogParking.system.Step w l w') :
    (w'.db = w.db ∧ ∀ i maxQueued parked, l ≠ .commit i maxQueued (some parked)) ∨
      (∃ i maxQueued e, l = .commit i maxQueued (some (e.1, e.2.2.1, e.2.1.controlGeneration)) ∧
        w.db.Parks maxQueued e w'.db) ∨
      ∃ call σ, l = .other call ∧ system.Step w.db.state call σ ∧ w'.db = w.db.push σ := by
  have hsound := Service.reachable_sound backlogParking_keeps h
  rcases hsound.step_cases backlogParking_keeps hstep with ⟨hdb, hne⟩ |
    ⟨i, maxQueued, answer, held, rfl, ⟨rfl, hdb⟩ | ⟨e, rfl, hparks, -⟩⟩ | ⟨call, rfl, -, σ, hσ, hdb⟩
  · exact .inl ⟨hdb, fun i maxQueued parked => hne i maxQueued _⟩
  · refine .inl ⟨hdb, fun j n parked heq => ?_⟩
    obtain ⟨-, -, hsome⟩ := Happening.commit.inj heq
    cases hsome
  · exact .inr (.inl ⟨i, maxQueued, e, rfl, hparks⟩)
  · exact .inr (.inr ⟨call, σ, rfl, hσ, hdb⟩)

/-- **A touched Run stays touched**, and is not the one a pass parks. -/
theorem touched_step (h : backlogParking.system.Reachable w)
    (hstep : backlogParking.system.Step w l w') {q : UUID} (hq : w.db.Touched q) :
    w'.db.Touched q ∧ ∀ i maxQueued incidentId g, l ≠ .commit i maxQueued (some (incidentId, q, g)) := by
  obtain ⟨run, hrun, hpos⟩ := hq
  rcases parkStep_cases h hstep with ⟨hdb, hne⟩ | ⟨i, maxQueued, e, rfl, hparks⟩ |
    ⟨call, σ, rfl, hσ, hdb⟩
  · rw [hdb]
    exact ⟨⟨run, hrun, hpos⟩, fun i maxQueued incidentId g => hne i maxQueued _⟩
  · have hother : q ≠ e.2.2.1 := by
      rintro rfl
      obtain rfl := Option.some.inj (hrun.symm.trans hparks.listed.run)
      have hparkable := hparks.parkable
      simp only [Parkable, decide_eq_true_eq] at hparkable
      omega
    refine ⟨⟨run, ?_, hpos⟩, fun j n incidentId g heq => ?_⟩
    · rw [hparks.written]
      simp only [Trail.park, Trail.push, Store.park]
      rw [Table.get_modify_ne _ _ hother, hrun]
    · obtain ⟨-, -, hsame⟩ := Happening.commit.inj heq
      simp only [Option.some.injEq, Prod.mk.injEq] at hsame
      exact hother hsame.2.1.symm
  · have hinv : w.db.Inv := (Service.reachable_sound backlogParking_keeps h).db
    obtain ⟨event, -, F, hprepare, hmove⟩ := State.step_move hσ
    have hinv' := hinv.mono hσ.1
    obtain ⟨a, ha, hle⟩ := hprepare.generation_le hinv' (attemptsOf_get hrun)
    obtain ⟨a', ha', hle'⟩ := hmove.generation_le (hprepare.inv hinv') ha
    obtain ⟨run', hrun', rfl⟩ := attemptsOf_eq_some.1 ha'
    refine ⟨⟨run', by rw [hdb]; exact hrun', ?_⟩, fun i maxQueued incidentId g heq => by cases heq⟩
    exact lt_of_lt_of_le hpos (hle.trans hle')

/-- **Backlog parking**, in any order of the statements of any number of passes and of everything
else: a Run is parked by a pass that counted more than the limit and then found it the last of the
claim order among those it may park; and a Run that a human decision opened or moved is never
parked, whatever comes after. -/
theorem Trail.backlog_parking (h : backlogParking.system.Reachable w) :
    (∀ i maxQueued incidentId q g w',
      backlogParking.system.Step w (.commit i maxQueued (some (incidentId, q, g))) w' →
        ∃ e, e.1 = incidentId ∧ e.2.2.1 = q ∧ w.db.Parks maxQueued e w'.db) ∧
    ∀ call w', backlogParking.system.Step w (.other call) w' → call.op.human = true →
      ∀ q run, w'.db.state.store.runs.get q = some run →
        w.db.state.store.runs.get q ≠ some run →
          ∀ labels w'', backlogParking.system.Run w' labels w'' →
            ∀ i maxQueued incidentId g, .commit i maxQueued (some (incidentId, q, g)) ∉ labels := by
  constructor
  · intro i maxQueued incidentId q g w' hstep
    rcases parkStep_cases h hstep with ⟨-, hne⟩ | ⟨j, n, e, heq, hparks⟩ | ⟨call, σ, heq, -⟩
    · exact absurd rfl (hne i maxQueued _)
    · obtain ⟨rfl, rfl, hsame⟩ := Happening.commit.inj heq
      simp only [Option.some.injEq, Prod.mk.injEq] at hsame
      exact ⟨e, hsame.1.symm, hsame.2.1.symm, hparks⟩
    · cases heq
  · intro call w' hstep hhuman q run hrun hne labels w'' hlabels
    have htouched : w'.db.Touched q := by
      rcases parkStep_cases h hstep with ⟨hdb, -⟩ | ⟨j, n, e, heq, -⟩ | ⟨call', σ, heq, hσ, hdb⟩
      · rw [hdb] at hrun
        exact absurd hrun hne
      · cases heq
      · obtain rfl := Happening.other.inj heq
        rw [hdb] at hrun
        rcases State.step_cases hσ with ⟨issued, store, hok, rfl⟩ | ⟨-, rfl⟩
        · refine ⟨run, by rw [hdb]; exact hrun, exec_human hok hhuman hrun hne⟩
        · exact absurd hrun hne
    have hreachable := h.step hstep
    clear hstep hrun hne
    induction hlabels with
    | nil => exact fun _ _ _ _ hmem => by cases hmem
    | cons hstep _ ih =>
      obtain ⟨htouched', hnot⟩ := touched_step hreachable hstep htouched
      intro i maxQueued incidentId g hmem
      rcases List.mem_cons.1 hmem with heq | hmem
      · exact hnot i maxQueued incidentId g heq.symm
      · exact ih htouched' (hreachable.step hstep) i maxQueued incidentId g hmem

end

section

variable [Texts]

/-- The trail after some calls. -/
def Trail.after (t : Trail) (calls : List Call) : Trail :=
  calls.foldl (fun t call => t.push (t.state.apply call)) t

/-- Other operations, with no pass on its way, are a run. -/
theorem Trail.run_others {t : Trail} {calls : List Call} (h : t.state.Feasible calls)
    (hcalls : ∀ call ∈ calls, call.op.parks = false) :
    backlogParking.system.Run { db := t } (calls.map .other) { db := t.after calls } := by
  induction calls generalizing t with
  | nil => exact .nil _
  | cons call calls ih =>
    have hstep : backlogParking.system.Step { db := t } (.other call)
        { db := t.push (t.state.apply call) } :=
      .other ⟨hcalls call List.mem_cons_self, _, ⟨h.1, h.2.1, rfl⟩, rfl⟩
        fun _ _ htask => by cases htask
    exact .cons hstep (ih h.2.2 fun c hc => hcalls c (List.mem_cons_of_mem _ hc))

end

namespace Scenario

/-- Two queued Runs: the incident 3 is less urgent than the incident 1. -/
def backlogCalls : List Call :=
  [(Op.accept {
      incidentId := 1, runId := 2, intakeKey := "alert-1", deadline := seconds 3600
      budgetLimit := 1000, versions := .obj [], input := none, targetId := none
      priority := 1 }).at 0,
    (Op.accept {
      incidentId := 3, runId := 4, intakeKey := "alert-2", deadline := seconds 3600
      budgetLimit := 1000, versions := .obj [], input := none, targetId := none
      priority := 2 }).at 0]

/-- With a limit of one Run, a pass parks the Run 4. -/
theorem backlog_parking_lower : ∃ w w' e, backlogParking.system.Reachable w ∧
    backlogParking.system.Step w (.commit 0 1 (some (3, 4, 0))) w' ∧ e.2.2.1 = 4 ∧
      w.db.Parks 1 e w'.db := by
  have hinit : backlogParking.system.Reachable { db := ⟨{ now := 0 }, []⟩ } :=
    .init ⟨⟨⟨rfl, rfl, rfl⟩, rfl⟩, fun _ => rfl⟩
  let start : Trail := ⟨{ now := 0 }, []⟩
  have hothers : backlogParking.system.Run { db := start } (backlogCalls.map .other)
      { db := start.after backlogCalls } := Trail.run_others (by decide) (by decide)
  have hpass : (backlogParking.program 1).alone (start.after backlogCalls) =
      .ok fun t => .ok (some (3, 4, 0), t.park 4) := rfl
  obtain ⟨es, w, hrun, hcommit⟩ := Service.run_to_commit (S := backlogParking)
    (P := fun _ _ => True) (fun _ _ _ _ => trivial) hpass rfl
  have hreachable := (hinit.run hothers).run hrun.of_restrict
  obtain ⟨e, -, hq, hparks⟩ := (Trail.backlog_parking hreachable).1 _ _ _ _ _ _ hcommit.1
  exact ⟨w, _, e, hreachable, hcommit.1, hq, hparks⟩

end Scenario

end OpsPilot
