import OpsPilot.Foundations.FirstWrites
import OpsPilot.System.LateResults

/-!
# Tool results of a step

The results of a step's tool calls are committed in any order, again and again, between any other
operations, and each commit reads the stored list and writes it back. `toolCommits` are the results
whose commit was accepted along a run; what a step stores is the first of them for each call.

* `Gathered`: the stored results are the first commits, within the plan.
* **`tool_commits`**: two runs with the same first commits store the same list, and a checkpoint has
  the calls of the plan without a commit pending, each of them once.
-/

namespace OpsPilot

open Store

/-! ## One commit -/

/-- A commit leaves the results of a step with one more, unless its call has one. -/
def StepRow.recorded (row : StepRow) (ordinal : ℕ) (result : Json) : StepRow :=
  if row.toolResults.any (·.1 = ordinal) then row else row.withResult ordinal result

theorem StepRow.recorded_toolResults (row : StepRow) (ordinal : ℕ) (result : Json) :
    (row.recorded ordinal result).toolResults = record row.toolResults (ordinal, result) := by
  rw [StepRow.recorded, record]
  split <;> rfl

theorem StepRow.recorded_response (row : StepRow) (ordinal : ℕ) (result : Json) :
    (row.recorded ordinal result).response = row.response := by
  rw [StepRow.recorded]
  split <;> rfl

namespace Store

variable {s s' : Store} {clk : Clock} {lease : Lease} {stepId fresh : UUID} {ordinal : ℕ}
  {payload : Json} {result : Except Code Unit}

/-- An accepted commit records a result for a call of the plan; a refused one files it as a late
result. -/
theorem commitTool_recorded
    (h : s.commitTool clk lease stepId ordinal payload fresh = .ok (result, s')) :
    result = .error .controlDenied ∧ StepAdded s s' ∨
    result = .ok () ∧ ∃ step calls, s.steps.get stepId = some step ∧
      toolPlan step.response = some calls ∧ ordinal < calls.length ∧
      s'.steps.get stepId = some (step.recorded ordinal payload) ∧
      ∀ k, k ≠ stepId → s'.steps.get k = s.steps.get k := by
  simp only [commitTool] at h
  obtain ⟨-, -, h⟩ := bind_eq_ok.1 h
  simp only [require_bind_eq_ok, refuse_bind_eq_ok, not_le] at h
  obtain ⟨row, -, step, hstep, calls, hcalls, hordinal, h⟩ := h
  replace hstep := (Option.filter_eq_some_iff.1 hstep).1
  split at h
  · obtain ⟨t, hlate, h⟩ := bind_eq_ok.1 h
    simp only [pure_eq_ok, Prod.mk.injEq] at h
    obtain ⟨rfl, rfl⟩ := h
    exact .inl ⟨rfl, .of_late hlate⟩
  · refine .inr ?_
    split at h <;> simp only [pure_eq_ok, Prod.mk.injEq] at h <;> obtain ⟨rfl, rfl⟩ := h
    · next hany =>
      refine ⟨rfl, step, calls, hstep, hcalls, hordinal, ?_, fun _ _ => rfl⟩
      rw [StepRow.recorded, if_pos hany, hstep]
    · next hany =>
      refine ⟨rfl, step, calls, hstep, hcalls, hordinal, ?_, fun k hk => Table.get_modify_ne _ _ hk⟩
      rw [StepRow.recorded, if_neg hany, Table.get_modify_self, hstep, Option.map_some]

end Store

/-! ## The commits of a run -/

namespace State

variable [Texts]

/-- The result a call commits for a step, if its commit is accepted. -/
def toolCommit (σ : State) (id : UUID) (call : Call) : Option (ℕ × Json) :=
  match call.op with
  | .commitTool lease stepId ordinal result fresh =>
    match σ.store.commitTool call.clock lease stepId ordinal result fresh with
    | .ok (.ok (), _) => if stepId = id then some (ordinal, result) else none
    | _ => none
  | _ => none

/-- The results committed for a step along a run, in the order of the commits. -/
def toolCommits (id : UUID) : State → List Call → List (ℕ × Json)
  | _, [] => []
  | σ, call :: calls => (σ.toolCommit id call).toList ++ toolCommits id (σ.apply call) calls

/-- The stored results of a step are the first commits, for calls of its plan. -/
structure Gathered (commits : List (ℕ × Json)) (row : StepRow) : Prop where
  writes : FirstWrites row.toolResults
  planned : ∀ ordinal ∈ row.toolResults.map Prod.fst,
    ∃ calls, toolPlan row.response = some calls ∧ ordinal < calls.length
  first : ∀ ordinal, row.toolResults.lookup ordinal = commits.lookup ordinal

/-- A step that was not committed yet has no commits, and one that was has gathered them. -/
def Gathers (σ : State) (id : UUID) (commits : List (ℕ × Json)) : Prop :=
  (σ.store.steps.get id = none → commits = []) ∧
    ∀ row, σ.store.steps.get id = some row → Gathered commits row

variable {σ σ' τ : State} {call : Call} {id : UUID} {commits : List (ℕ × Json)}

omit [Texts] in
/-- The results of a new step. -/
theorem Gathers.added {s' : Store} (h : σ.Gathers id commits) (hadded : StepAdded σ.store s') :
    Gathers { σ with store := s' } id commits := by
  cases hadded with
  | none hsteps =>
    unfold Gathers
    dsimp only
    rw [hsteps]
    exact h
  | @add r id' key status response g hrun hnew hfresh hlate hsteps =>
    unfold Gathers
    dsimp only
    rw [hsteps, addStep, Table.get_insert]
    split
    · next hid =>
      obtain rfl := h.1 (hid ▸ hfresh)
      refine ⟨fun hnone => absurd hnone (Option.some_ne_none _), fun row hrow => ?_⟩
      obtain rfl := Option.some.inj hrow
      exact ⟨.nil, fun ordinal hmem => by simp at hmem, fun ordinal => rfl⟩
    · exact h

omit [Texts] in
/-- One more result of a step. -/
theorem Gathered.record {row : StepRow} (h : Gathered commits row) {calls : List Json}
    (hcalls : toolPlan row.response = some calls) {ordinal : ℕ} (hordinal : ordinal < calls.length)
    (result : Json) : Gathered (commits ++ [(ordinal, result)]) (row.recorded ordinal result) := by
  refine ⟨?_, fun k hk => ?_, fun k => ?_⟩
  · rw [StepRow.recorded_toolResults]
    exact h.writes.record
  · rw [StepRow.recorded_response]
    rw [StepRow.recorded_toolResults, mem_keys_record] at hk
    rcases hk with hk | rfl
    · exact h.planned k hk
    · exact ⟨calls, hcalls, hordinal⟩
  · rw [StepRow.recorded_toolResults, lookup_record h.writes, List.lookup_append, h.first,
      ← List.lookup_append]

/-- **A step of the run gathers what it commits.** -/
theorem Gathers.step (hstep : system.Step σ call σ') (h : σ.Gathers id commits) :
    σ'.Gathers id (commits ++ (σ.toolCommit id call).toList) := by
  obtain ⟨-, -, rfl⟩ := hstep
  unfold apply
  cases hexec : call.op.exec call.clock σ.store with
  | error e =>
    have hnone : σ.toolCommit id call = none := by
      unfold toolCommit
      split
      · next hop =>
        rw [hop] at hexec
        split
        · next hok => simp [Op.exec, committed, hok, Except.map] at hexec
        · rfl
      · rfl
    rw [hnone, Option.toList_none, List.append_nil]
    exact h
  | ok result =>
    obtain ⟨issued, s'⟩ := result
    by_cases htool : call.op.commitsTool = false
    · have hnone : σ.toolCommit id call = none := by
        unfold toolCommit
        split
        · next hop => simp [hop, Op.commitsTool] at htool
        · rfl
      rw [hnone, Option.toList_none, List.append_nil]
      exact h.added (exec_added hexec htool)
    obtain ⟨lease, stepId, ordinal, payload, fresh, hop⟩ : ∃ lease stepId ordinal payload fresh,
        call.op = .commitTool lease stepId ordinal payload fresh := by
      cases hop : call.op with
      | commitTool => exact ⟨_, _, _, _, _, rfl⟩
      | _ => simp [hop, Op.commitsTool] at htool
    rw [hop] at hexec
    obtain ⟨-, result, hok⟩ := committed_eq_ok.1 hexec
    simp only [toolCommit, hop, hok]
    rcases commitTool_recorded hok with ⟨rfl, hadded⟩ |
      ⟨rfl, step, calls, hget, hcalls, hordinal, hself, hothers⟩
    · dsimp only
      rw [Option.toList_none, List.append_nil]
      exact h.added hadded
    · dsimp only
      by_cases hid : stepId = id
      · subst hid
        rw [if_pos rfl, Option.toList_some]
        refine ⟨fun hnone => ?_, fun row hrow => ?_⟩
        · rw [hself] at hnone
          cases hnone
        · obtain rfl := Option.some.inj (hself.symm.trans hrow)
          exact (h.2 step hget).record hcalls hordinal payload
      · rw [if_neg hid, Option.toList_none, List.append_nil]
        unfold Gathers
        dsimp only
        rw [hothers id (Ne.symm hid)]
        exact h

theorem Gathers.run {calls : List Call} (hrun : system.Run σ calls τ)
    (h : σ.Gathers id commits) : τ.Gathers id (commits ++ toolCommits id σ calls) := by
  induction hrun generalizing commits with
  | nil σ =>
    rw [toolCommits, List.append_nil]
    exact h
  | @cons σ σ' τ call calls hstep hrun ih =>
    have happly : σ' = σ.apply call := hstep.2.2
    rw [toolCommits, ← List.append_assoc, ← happly]
    exact ih (h.step hstep)

/-- In a run from the start every step gathers its commits. -/
theorem gathered_of_run {calls : List Call} (hinit : system.Init σ)
    (hrun : system.Run σ calls τ) {row : StepRow} (hrow : τ.store.steps.get id = some row) :
    Gathered (toolCommits id σ calls) row := by
  have hstart : σ.Gathers id [] := by
    refine ⟨fun _ => rfl, fun row hrow => ?_⟩
    rw [hinit.1, Table.get_empty] at hrow
    cases hrow
  have hgathers := hstart.run hrun
  rw [List.nil_append] at hgathers
  exact hgathers.2 row hrow

end State

/-! ## The calls a checkpoint has pending -/

/-- The completed ordinals are those with a result. -/
theorem completedToolOrdinals_eq {n : ℕ} {results : List (ℕ × Json)} {completed : List ℕ}
    (h : completedToolOrdinals n results = some completed) :
    completed = results.map Prod.fst := by
  induction results generalizing completed with
  | nil => exact (Option.some.inj h).symm
  | cons e results ih =>
    simp only [completedToolOrdinals, Option.bind_eq_bind, Option.bind_eq_some_iff] at h
    obtain ⟨rest, hrest, h⟩ := h
    split at h
    · rw [List.map_cons, ← ih hrest]
      exact (Option.some.inj h).symm
    · cases h

/-- Results of different calls of the plan are not corrupt. -/
theorem completedToolOrdinals_of_writes {n : ℕ} {results : List (ℕ × Json)}
    (hwrites : FirstWrites results) (hplanned : ∀ e ∈ results, e.1 < n)
    (hobjects : ∀ e ∈ results, e.2.isObject = true) :
    completedToolOrdinals n results = some (results.map Prod.fst) := by
  induction results with
  | nil => rfl
  | cons e results ih =>
    have hrest := ih hwrites.of_cons (fun e' he' => hplanned e' (List.mem_cons_of_mem _ he'))
      fun e' he' => hobjects e' (List.mem_cons_of_mem _ he')
    have hnew : e.1 ∉ results.map Prod.fst := (List.nodup_cons.1 hwrites.keys_nodup).1
    simp only [completedToolOrdinals, hrest, Option.bind_eq_bind, Option.bind_some, List.map_cons]
    exact if_pos ⟨hplanned e List.mem_cons_self, hnew, hobjects e List.mem_cons_self⟩

theorem StepRow.plan_eq_some {row : StepRow} {calls : List Json} {completed : List ℕ} :
    row.plan = some (calls, completed) ↔ toolPlan row.response = some calls ∧
      (∀ call ∈ calls, call.isObject = true) ∧
      completedToolOrdinals calls.length row.toolResults = some completed := by
  simp only [StepRow.plan, Option.bind_eq_bind, Option.bind_eq_some_iff]
  constructor
  · rintro ⟨calls', hcalls, h⟩
    split at h
    · next hall =>
      obtain ⟨completed', hcompleted, h⟩ := Option.bind_eq_some_iff.1 h
      obtain ⟨rfl, rfl⟩ := Prod.mk.inj (Option.some.inj h)
      exact ⟨hcalls, List.all_eq_true.1 hall, hcompleted⟩
    · cases h
  · rintro ⟨hcalls, hall, hcompleted⟩
    refine ⟨calls, hcalls, ?_⟩
    rw [if_pos (List.all_eq_true.2 hall), hcompleted]
    rfl

/-- The pending calls of one step among those of all of them. -/
theorem filter_flatMap_step {steps : List (UUID × StepRow)} (hkeys : (steps.map Prod.fst).Nodup)
    {f : UUID × StepRow → List PendingTool} (hf : ∀ e, ∀ tool ∈ f e, tool.stepId = e.1)
    {e : UUID × StepRow} (he : e ∈ steps) :
    (steps.flatMap f).filter (·.stepId = e.1) = f e := by
  have hself : ∀ e', (f e').filter (·.stepId = e.1) = if e'.1 = e.1 then f e' else [] := by
    intro e'
    split
    · next heq => exact List.filter_eq_self.2 fun tool htool => by simp [hf e' tool htool, heq]
    · next hne => exact List.filter_eq_nil_iff.2 fun tool htool => by simp [hf e' tool htool, hne]
  induction steps with
  | nil => cases he
  | cons e' steps ih =>
    rw [List.map_cons, List.nodup_cons] at hkeys
    rw [List.flatMap_cons, List.filter_append, hself]
    rcases List.mem_cons.1 he with rfl | he
    · have hothers : (steps.flatMap f).filter (·.stepId = e.1) = [] := by
        refine List.filter_eq_nil_iff.2 fun tool htool => ?_
        obtain ⟨e', he', htool⟩ := List.mem_flatMap.1 htool
        rw [decide_eq_true_eq, hf e' tool htool]
        exact fun heq => hkeys.1 (heq ▸ List.mem_map_of_mem he')
      rw [if_pos rfl, hothers, List.append_nil]
    · have hne : e'.1 ≠ e.1 := fun heq => hkeys.1 (heq ▸ List.mem_map_of_mem he)
      rw [if_neg hne, List.nil_append, ih hkeys.2 he]

namespace Store

variable {s : Store} {incidentId : UUID} {checkpoint : Checkpoint}

/-- The pending calls of a checkpoint are those of its live steps, which are not corrupt. -/
theorem rebuild_tools (h : s.rebuild incidentId = .ok checkpoint) :
    (checkpoint.steps.map Prod.fst).Nodup ∧
      (∀ e ∈ checkpoint.steps, e.2.status ≠ .lateResult → e.2.plan.isSome = true) ∧
      checkpoint.pendingTools = (checkpoint.steps.filter fun e =>
        e.2.live checkpoint.controlGeneration).flatMap fun e => e.2.pendingTools e.1 := by
  simp only [rebuild, require_bind_eq_ok, refuse_bind_eq_ok, pure_eq_ok] at h
  obtain ⟨incident, -, runId, -, run, -, hcorrupt, rfl⟩ := h
  refine ⟨?_, fun e he hlate => ?_, rfl⟩
  · dsimp only [orderedSteps]
    rw [((List.perm_insertionSort _ _).map _).nodup_iff]
    exact (Table.keys_nodup _).sublist (List.filter_sublist.map Prod.fst)
  · by_contra hnone
    refine hcorrupt (List.any_eq_true.2 ⟨e, he, ?_⟩)
    simpa [hlate] using hnone

/-- The pending calls of a live step are the calls of its plan that have no result. -/
theorem pendingTools_of_step (h : s.rebuild incidentId = .ok checkpoint) {id : UUID}
    {row : StepRow} (hmem : (id, row) ∈ checkpoint.steps)
    (hlive : row.live checkpoint.controlGeneration = true) :
    ∃ plan, toolPlan row.response = some plan ∧
      checkpoint.pendingTools.filter (·.stepId = id) =
        (plan.zipIdx.filter fun call => (row.toolResults.lookup call.2).isNone).map fun call =>
          ⟨id, call.2, call.1⟩ := by
  obtain ⟨hkeys, hsound, hpending⟩ := rebuild_tools h
  have hstatus : row.status ≠ .lateResult := by
    intro hlate
    rw [StepRow.live_eq_false hlate] at hlive
    cases hlive
  obtain ⟨⟨plan, completed⟩, hplan⟩ := Option.isSome_iff_exists.1 (hsound _ hmem hstatus)
  obtain ⟨hcalls, -, hcompleted⟩ := StepRow.plan_eq_some.1 hplan
  have hnone : ∀ ordinal, ordinal ∉ completed ↔ (row.toolResults.lookup ordinal).isNone = true := by
    intro ordinal
    rw [completedToolOrdinals_eq hcompleted, Option.isNone_iff_eq_none, lookup_eq_none_iff_notMem]
  refine ⟨plan, hcalls, ?_⟩
  rw [hpending]
  have hstep := filter_flatMap_step (f := fun e => e.2.pendingTools e.1) (e := (id, row))
    (hkeys.sublist (List.filter_sublist.map Prod.fst)) (fun e tool htool => ?_)
    (List.mem_filter (p := fun e => e.2.live checkpoint.controlGeneration).2 ⟨hmem, hlive⟩)
  · rw [hstep, StepRow.pendingTools, hplan]
    simp only [hnone, Bool.decide_eq_true]
  · unfold StepRow.pendingTools at htool
    split at htool
    · obtain ⟨call, -, rfl⟩ := List.mem_map.1 htool
      rfl
    · cases htool

end Store

namespace State

variable [Texts] {σ σ' τ τ' : State} {calls calls' : List Call} {id id' : UUID}
  {row row' : StepRow}

omit [Texts] in
/-- Two steps with the same first commits store the same results. -/
theorem Gathered.eq {commits commits' : List (ℕ × Json)} (h : Gathered commits row)
    (h' : Gathered commits' row') (hfirst : ∀ k, commits'.lookup k = commits.lookup k) :
    row'.toolResults = row.toolResults :=
  h'.writes.ext h.writes fun k => by rw [h'.first, hfirst, h.first]

/-- **Tool commits commute.** Along every run from the start the stored results of a step come in
the order of their calls, each call once and all of them in the plan, and each is the first that was
committed for its call. So any two steps store the same list whose first commits are the same, in
particular if the same results were committed, one for each call, in any order and any number of
times. The results never make a step corrupt, and a checkpoint has pending of a live step exactly
the calls of its plan without a commit, in their order. -/
theorem tool_commits (hinit : system.Init σ) (hrun : system.Run σ calls τ)
    (hrow : τ.store.steps.get id = some row) :
    (row.toolResults.Pairwise (fun a b => a.1 < b.1) ∧
      (∀ e ∈ row.toolResults, ∃ plan, toolPlan row.response = some plan ∧ e.1 < plan.length) ∧
      ∀ ordinal, row.toolResults.lookup ordinal = (toolCommits id σ calls).lookup ordinal) ∧
    (∀ σ' calls' τ' id' row', system.Init σ' → system.Run σ' calls' τ' →
      τ'.store.steps.get id' = some row' →
      ((∀ ordinal, (toolCommits id' σ' calls').lookup ordinal =
          (toolCommits id σ calls).lookup ordinal) ∨
        (∀ e, e ∈ toolCommits id' σ' calls' ↔ e ∈ toolCommits id σ calls) ∧
          ∀ e ∈ toolCommits id σ calls, ∀ e' ∈ toolCommits id σ calls, e.1 = e'.1 → e = e') →
      row'.toolResults = row.toolResults) ∧
    (∀ plan, toolPlan row.response = some plan → (∀ call ∈ plan, call.isObject = true) →
      (∀ e ∈ toolCommits id σ calls, e.2.isObject = true) →
      row.plan = some (plan, row.toolResults.map Prod.fst)) ∧
    ∀ incidentId checkpoint, τ.store.rebuild incidentId = .ok checkpoint →
      (id, row) ∈ checkpoint.steps → row.live checkpoint.controlGeneration = true →
      ∃ plan, toolPlan row.response = some plan ∧
        checkpoint.pendingTools.filter (·.stepId = id) =
          (plan.zipIdx.filter fun call =>
            ((toolCommits id σ calls).lookup call.2).isNone).map fun call =>
              ⟨id, call.2, call.1⟩ := by
  have h := gathered_of_run hinit hrun hrow
  have hplanned : ∀ e ∈ row.toolResults, ∃ plan, toolPlan row.response = some plan ∧
      e.1 < plan.length := fun e he => h.planned e.1 (List.mem_map_of_mem he)
  refine ⟨⟨h.writes, hplanned, h.first⟩, fun σ' calls' τ' id' row' hinit' hrun' hrow' hsame => ?_,
    fun plan hplan hcalls hobjects => ?_, fun incidentId checkpoint hrebuild hmem hlive => ?_⟩
  · refine h.eq (gathered_of_run hinit' hrun' hrow') ?_
    rcases hsame with hfirst | ⟨hmem, hone⟩
    · exact hfirst
    · exact fun k => (lookup_congr (fun e => (hmem e).symm) hone k).symm
  · refine StepRow.plan_eq_some.2 ⟨hplan, hcalls, ?_⟩
    refine completedToolOrdinals_of_writes h.writes (fun e he => ?_) fun e he => ?_
    · obtain ⟨plan', hplan', hlt⟩ := hplanned e he
      obtain rfl := Option.some.inj (hplan.symm.trans hplan')
      exact hlt
    · have hfound := (lookup_eq_some_iff_mem h.writes.keys_nodup).2 he
      rw [h.first] at hfound
      obtain ⟨front, back, hcommits, -⟩ := List.lookup_eq_some_iff.1 hfound
      exact hobjects e (hcommits ▸ by simp)
  · obtain ⟨plan, hplan, hpending⟩ := pendingTools_of_step hrebuild hmem hlive
    refine ⟨plan, hplan, hpending.trans ?_⟩
    simp only [h.first]

end State

namespace Scenario

/-- A response that plans two reads. -/
def twoReads : Json :=
  .obj [("tool_calls", .arr [.obj [("name", .str "logs")], .obj [("name", .str "metrics")]])]

/-- The worker plans two reads, commits the second one twice and then the first one. -/
def readCalls : List Call :=
  claimCalls ++ [(Op.commitStep lease "round-1" twoReads 8).at (seconds 1),
    (Op.commitTool lease 8 1 (.obj [("value", .num 5)]) 9).at (seconds 2),
    (Op.commitTool lease 8 1 (.obj [("value", .num 6)]) 9).at (seconds 3),
    (Op.commitTool lease 8 0 (.obj []) 9).at (seconds 4)]

/-- The first commit of the second read stays. -/
theorem tool_commits_reads : ∃ row : StepRow,
    (State.reached readCalls).store.steps.get 8 = some row ∧
      row.toolResults.lookup 1 = some (.obj [("value", .num 5)]) := by
  have hfeasible : State.Feasible { now := 0 } readCalls := by decide
  have hfound : ((State.reached readCalls).store.steps.get 8).isSome = true := by decide
  have hfirst : (State.toolCommits 8 { now := 0 } readCalls).lookup 1 =
      some (.obj [("value", .num 5)]) := by decide
  obtain ⟨row, hrow⟩ := Option.isSome_iff_exists.1 hfound
  obtain ⟨⟨-, -, hcommits⟩, -⟩ :=
    State.tool_commits ⟨rfl, rfl, rfl⟩ (State.run_applyAll hfeasible) hrow
  exact ⟨row, hrow, (hcommits 1).trans hfirst⟩

end Scenario

end OpsPilot
