import OpsPilot.System.Frames
import OpsPilot.System.Leases

/-!
# Tool charges over whole runs

The tool columns of a Run are moved by deltas, some of them negative; the rows of the dispatches
hold the truth. The invariant `Metered` says that the two agree.

* `exec_charges`: only `chargeTool` touches the tool charges or the tool columns of a Run.
* `exec_metered`: every operation keeps the columns at the totals of the dispatches.
* `exec_settles`: a dispatch stays with the lease that opened it, and its time, once settled,
  only goes up.
* **`tool_accounting`**: the totals, the settlements, and what a revoked lease may still do.
-/

namespace OpsPilot

/-- The Run has the tool columns it had. -/
def RunRow.SameMeter (r r' : RunRow) : Prop := r'.meter = r.meter

/-- Every Run keeps its tool columns, and a new Run starts empty ones. -/
def MetersKept (old new : Table UUID RunRow) : Prop :=
  Table.Frame RunRow.SameMeter (·.meter = {}) old new

theorem BooksKept.meters {old new : Table UUID RunRow} (h : BooksKept old new) :
    MetersKept old new :=
  h.mono (fun hr => hr.meter) fun hn => hn.meter

theorem MetersKept.refl (t : Table UUID RunRow) : MetersKept t t := (BooksKept.refl t).meters

theorem MetersKept.modify {t : Table UUID RunRow} {k : UUID} {f : RunRow → RunRow}
    (h : ∀ r, (f r).meter = r.meter) : MetersKept t (t.modify k f) :=
  Table.Frame.of_modify (R := RunRow.SameMeter) (fun _ => rfl) h t k

/-! ## The totals -/

/-- The dispatches of a Run. -/
def dispatchesOf (charges : Table UUID ToolChargeRow) (runId : UUID) :
    List (UUID × ToolChargeRow) :=
  charges.select fun _ c => c.runId = runId

/-- The time of the dispatches of a Run: what a settled one took, and what an unsettled one may
take. -/
def chargedSeconds (charges : Table UUID ToolChargeRow) (runId : UUID) : ℚ :=
  ((dispatchesOf charges runId).map fun e => e.2.charged).sum

/-- The tool columns of a Run are the totals of its dispatches. -/
structure Metered (charges : Table UUID ToolChargeRow) (runId : UUID) (run : RunRow) : Prop where
  operations : run.toolOperationsUsed = (dispatchesOf charges runId).length
  seconds : run.toolSecondsUsed = chargedSeconds charges runId

section Totals

variable {t : Table UUID ToolChargeRow} {id runId : UUID} {c : ToolChargeRow}

/-- The time a dispatch contributes to the total of a Run. -/
def ToolChargeRow.chargedTo (c : ToolChargeRow) (runId : UUID) : ℚ :=
  if c.runId = runId then c.charged else 0

theorem chargedSeconds_eq (t : Table UUID ToolChargeRow) (runId : UUID) :
    chargedSeconds t runId = t.sum fun _ c => c.chargedTo runId := by
  rw [chargedSeconds, dispatchesOf, Table.sum_select t (fun _ c => c.runId = runId)
    fun _ c => c.charged]
  simp only [decide_eq_true_eq, ToolChargeRow.chargedTo]

/-- A Run without dispatches has none to account for. -/
theorem dispatchesOf_eq_nil (h : ∀ id c, t.get id = some c → c.runId ≠ runId) :
    dispatchesOf t runId = [] := by
  refine List.eq_nil_iff_forall_not_mem.2 fun e he => ?_
  obtain ⟨hget, hp⟩ := Table.mem_select_iff.1 he
  exact h _ _ hget (of_decide_eq_true hp)

/-- A new dispatch is one more of its Run. -/
theorem dispatchesOf_insert (hnone : t.get id = none) :
    dispatchesOf (t.insert id c) runId =
      if c.runId = runId then (id, c) :: dispatchesOf t runId else dispatchesOf t runId := by
  rw [dispatchesOf, Table.select_insert _ hnone, dispatchesOf]
  simp only [decide_eq_true_eq]

/-- A new dispatch adds its time to the total of its Run. -/
theorem chargedSeconds_insert (hnone : t.get id = none) :
    chargedSeconds (t.insert id c) runId = c.chargedTo runId + chargedSeconds t runId := by
  rw [chargedSeconds_eq, chargedSeconds_eq, Table.sum_insert _ hnone]

variable {f : ToolChargeRow → ToolChargeRow}

/-- A settlement leaves the number of dispatches alone. -/
theorem dispatchesOf_modify_length (hf : ∀ c, (f c).runId = c.runId) :
    (dispatchesOf (t.modify id f) runId).length = (dispatchesOf t runId).length := by
  rw [dispatchesOf, Table.modify, Table.select_update fun k c _ => ?_, List.length_map,
    dispatchesOf]
  split <;> simp [hf]

/-- A settlement moves the total of a Run by what the dispatch contributes to it. -/
theorem chargedSeconds_modify (hget : t.get id = some c) :
    chargedSeconds (t.modify id f) runId =
      chargedSeconds t runId + ((f c).chargedTo runId - c.chargedTo runId) := by
  rw [chargedSeconds_eq, chargedSeconds_eq, Table.sum_modify hget]

end Totals

namespace Store

/-- Every Run has the totals of its dispatches, and every dispatch is one of some Run, for a named
operation. -/
structure Charged (s : Store) : Prop where
  metered : ∀ {r run}, s.runs.get r = some run → Metered s.toolCharges r run
  owned : ∀ {d c}, s.toolCharges.get d = some c → ∃ run, s.runs.get c.runId = some run
  named : ∀ {d c}, s.toolCharges.get d = some c → c.operationId ≠ ""

variable {s s' : Store} {clk : Clock} {lease : Lease} {operationId : String}
  {chargeSeconds maxToolSeconds : ℚ} {maxOperations : ℤ} {d : UUID} {u : Unit}

/-- A change that writes no charge and no tool column keeps the totals. -/
theorem Charged.of_meters (h : Charged s) (hruns : MetersKept s.runs s'.runs)
    (hcharges : s'.toolCharges = s.toolCharges) : Charged s' where
  metered {r run'} hrun' := by
    rw [hcharges]
    rcases hruns.cases hrun' with ⟨run, hrun, hsame⟩ | ⟨hnone, hzero⟩
    · obtain ⟨hoperations, hseconds⟩ := h.metered hrun
      simp only [RunRow.SameMeter, RunRow.meter, Meter.mk.injEq] at hsame
      exact ⟨hsame.1.trans hoperations, hsame.2.trans hseconds⟩
    · have hempty : dispatchesOf s.toolCharges r = [] := by
        refine dispatchesOf_eq_nil fun id c hc heq => ?_
        obtain ⟨run, hrun⟩ := h.owned hc
        rw [heq, hnone] at hrun
        cases hrun
      simp only [RunRow.meter, Meter.mk.injEq] at hzero
      refine ⟨?_, ?_⟩
      · rw [hempty, hzero.1, List.length_nil]
      · rw [chargedSeconds, hempty, hzero.2, List.map_nil, List.sum_nil]
  owned {d c} hc := by
    rw [hcharges] at hc
    obtain ⟨run, hrun⟩ := h.owned hc
    obtain ⟨run', hrun', -⟩ := hruns.kept hrun
    exact ⟨run', hrun'⟩
  named {d c} hc := h.named (by rw [← hcharges]; exact hc)

/-- A write to one Run and to its dispatches keeps the totals, if it keeps those of that Run. -/
theorem Charged.of_one (h : Charged s) {runId : UUID} {run : RunRow} {f : RunRow → RunRow}
    {charges : Table UUID ToolChargeRow} (hrun : s.runs.get runId = some run)
    (hself : Metered charges runId (f run))
    (hothers : ∀ r, r ≠ runId →
      (dispatchesOf charges r).length = (dispatchesOf s.toolCharges r).length ∧
        chargedSeconds charges r = chargedSeconds s.toolCharges r)
    (howned : ∀ d c, charges.get d = some c → c.runId = runId ∧ c.operationId ≠ "" ∨
      ∃ c', s.toolCharges.get d = some c' ∧ c'.runId = c.runId ∧ c'.operationId = c.operationId) :
    Charged { s with toolCharges := charges, runs := s.runs.modify runId f } where
  metered {r run'} hrun' := by
    by_cases hr : r = runId
    · subst hr
      rw [Table.get_modify_self, hrun, Option.map_some, Option.some.injEq] at hrun'
      exact hrun' ▸ hself
    · rw [Table.get_modify_ne _ _ hr] at hrun'
      obtain ⟨hoperations, hseconds⟩ := h.metered hrun'
      exact ⟨hoperations.trans (hothers r hr).1.symm, hseconds.trans (hothers r hr).2.symm⟩
  owned {d c} hc := by
    have hfound : ∃ row, s.runs.get c.runId = some row := by
      rcases howned d c hc with ⟨hown, -⟩ | ⟨c', hc', hown, -⟩
      · exact ⟨run, hown ▸ hrun⟩
      · exact hown ▸ h.owned hc'
    obtain ⟨row, hrow⟩ := hfound
    rw [Table.get_modify, hrow]
    split <;> exact ⟨_, rfl⟩
  named {d c} hc := by
    rcases howned d c hc with ⟨-, hnamed⟩ | ⟨c', hc', -, hid⟩
    · exact hnamed
    · exact hid ▸ h.named hc'

/-- **A charge keeps the totals.** -/
theorem chargeTool_charged (h : Charged s)
    (hok : s.chargeTool clk lease operationId chargeSeconds maxOperations maxToolSeconds d =
      .ok (u, s')) : Charged s' := by
  obtain ⟨⟨hnamed, -⟩, -, row, hrow, -, hcase⟩ := chargeTool_eq_ok.1 hok
  have hrun := (fencedRow_eq_some.1 hrow).1
  obtain ⟨hoperations, hseconds⟩ := h.metered hrun
  rcases hcase with ⟨hnone, -, rfl⟩ | ⟨c, hget, ⟨hown, -, -⟩, rfl⟩
  · refine h.of_one hrun ⟨?_, ?_⟩ (fun r hr => ⟨?_, ?_⟩) fun d' c' hc' => ?_
    · rw [dispatchesOf_insert hnone, if_pos rfl, List.length_cons, ← hoperations]
    · rw [chargedSeconds_insert hnone, ← hseconds, ToolChargeRow.chargedTo, if_pos rfl]
      exact add_comm _ _
    · rw [dispatchesOf_insert hnone, if_neg (Ne.symm hr)]
    · rw [chargedSeconds_insert hnone, ToolChargeRow.chargedTo, if_neg (Ne.symm hr), zero_add]
    · rw [Table.get_insert] at hc'
      split at hc'
      · cases hc'
        exact .inl ⟨rfl, hnamed⟩
      · exact .inr ⟨c', hc', rfl, rfl⟩
  · refine h.of_one hrun ⟨?_, ?_⟩ (fun r hr => ⟨?_, ?_⟩) fun d' c' hc' => ?_
    · refine hoperations.trans ?_
      rw [dispatchesOf_modify_length]
      exact fun _ => rfl
    · rw [chargedSeconds_modify hget, ← hseconds, ToolChargeRow.chargedTo, if_pos hown,
        ToolChargeRow.chargedTo, if_pos hown]
      rfl
    · exact dispatchesOf_modify_length fun _ => rfl
    · have hne : c.runId ≠ r := fun heq => hr (heq.symm.trans hown)
      rw [chargedSeconds_modify hget, ToolChargeRow.chargedTo, if_neg hne,
        ToolChargeRow.chargedTo, if_neg hne, sub_zero, add_zero]
    · rw [Table.get_modify] at hc'
      split at hc'
      · obtain ⟨c₀, hc₀, rfl⟩ := Option.map_eq_some_iff.1 hc'
        exact .inr ⟨c₀, hc₀, rfl, rfl⟩
      · exact .inr ⟨c', hc', rfl, rfl⟩

end Store

/-! ## The dispatches -/

namespace ToolChargeRow

/-- What later charges make of a dispatch: it stays the dispatch its lease opened, and its time,
once settled, only goes up. -/
structure Settles (c c' : ToolChargeRow) : Prop where
  runId : c'.runId = c.runId
  epoch : c'.epoch = c.epoch
  operationId : c'.operationId = c.operationId
  seconds : ∀ x, c.seconds = some x → ∃ y, c'.seconds = some y ∧ x ≤ y

variable {c c' c'' : ToolChargeRow}

theorem Settles.refl (c : ToolChargeRow) : c.Settles c := ⟨rfl, rfl, rfl, fun x h => ⟨x, h, le_rfl⟩⟩

theorem Settles.trans (h : c.Settles c') (h' : c'.Settles c'') : c.Settles c'' where
  runId := h'.runId.trans h.runId
  epoch := h'.epoch.trans h.epoch
  operationId := h'.operationId.trans h.operationId
  seconds x hx := by
    obtain ⟨y, hy, hxy⟩ := h.seconds x hx
    obtain ⟨z, hz, hyz⟩ := h'.seconds y hy
    exact ⟨z, hz, hxy.trans hyz⟩

theorem le_settled (c : ToolChargeRow) (chargeSeconds : ℚ) :
    chargeSeconds ≤ c.settled chargeSeconds := by
  unfold settled
  cases c.seconds with
  | none => exact le_rfl
  | some recorded => exact le_max_right _ _

theorem settles_settled (c : ToolChargeRow) (chargeSeconds : ℚ) :
    c.Settles { c with seconds := some (c.settled chargeSeconds) } := by
  refine ⟨rfl, rfl, rfl, fun x hx => ⟨_, rfl, ?_⟩⟩
  rw [settled, hx]
  exact le_max_left _ _

/-- No more than is recorded already settles nothing anew. -/
theorem settled_of_le {x chargeSeconds : ℚ} (hx : c.seconds = some x) (hle : chargeSeconds ≤ x) :
    c.settled chargeSeconds = x := by
  rw [settled, hx]
  exact max_eq_left hle

end ToolChargeRow

open Store

section

variable [Texts] {op : Op} {clk : Clock} {s s' : Store} {issued : Issued}

/-- What an operation does to tool charges and tool columns: only a charge does anything. -/
inductive ChargeChange (s s' : Store) : Prop
  | charge {clk : Clock} {lease : Lease} {operationId : String} {chargeSeconds maxToolSeconds : ℚ}
      {maxOperations : ℤ} {d : UUID} {u : Unit}
      (h : s.chargeTool clk lease operationId chargeSeconds maxOperations maxToolSeconds d =
        .ok (u, s'))
  | none (hcharges : s'.toolCharges = s.toolCharges) (hruns : MetersKept s.runs s'.runs)

omit [Texts] in
/-- A change that only records a late result. -/
theorem ChargeChange.of_late {r fresh : UUID} {key : StepKey} {payload : Json} {g : ℕ}
    (h : s.lateResult r key payload g fresh = .ok s') : ChargeChange s s' := by
  rcases lateResult_ok h with ⟨rfl, -⟩ | ⟨-, -, -, rfl⟩ <;> exact .none rfl (.refl _)

/-- **What an operation does to tool charges and tool columns.** -/
theorem exec_charges (h : op.exec clk s = .ok (issued, s')) : ChargeChange s s' := by
  by_cases hop : op.records = false
  · cases hcharge : op.charges with
    | false =>
      have hquiet := exec_quiet h hop hcharge
      exact .none hquiet.toolCharges hquiet.runs.meters
    | true =>
      cases op with
      | chargeTool lease operationId seconds maxOperations maxToolSeconds dispatchId =>
        obtain ⟨-, a, ha⟩ := committed_eq_ok.1 h
        exact .charge ha
      | _ => cases hcharge
  cases op with
  | commitStep lease logicalKey response fresh =>
    obtain ⟨-, a, ha⟩ := committed_eq_ok.1 h
    cases commitStep_ok ha with
    | late _ hlate => exact .of_late hlate
    | replay => exact .none rfl (.refl _)
    | committed =>
      refine .none rfl ?_
      simp only [commitResponse]
      split
      · exact MetersKept.modify fun r => rfl
      · exact .refl _
  | commitTool lease stepId ordinal result fresh =>
    obtain ⟨-, a, ha⟩ := committed_eq_ok.1 h
    cases commitTool_ok ha with
    | late hlate => exact .of_late hlate
    | replay => exact .none rfl (.refl _)
    | committed => exact .none rfl (.refl _)
  | beginRound lease logicalKey =>
    obtain ⟨-, a, ha⟩ := committed_eq_ok.1 h
    obtain ⟨-, -, -, -, -, ⟨rfl, -⟩ | ⟨-, -, rfl⟩⟩ := beginRound_ok ha <;> exact .none rfl (.refl _)
  | publish lease conclusion stepId fresh =>
    obtain ⟨-, a, ha⟩ := committed_eq_ok.1 h
    cases publish_ok ha with
    | replay => exact .none rfl (.refl _)
    | fenced _ _ hlate => exact .of_late hlate
    | written =>
      refine .none rfl ?_
      simp only [published]
      exact MetersKept.modify fun r => rfl
  | reserveBudget lease id amount requestSeconds =>
    obtain ⟨-, a, ha⟩ := committed_eq_ok.1 h
    rcases reserveBudget_ok ha with rfl | ⟨-, -, -, -, -, rfl⟩
    · exact .none rfl (.refl _)
    · refine .none rfl ?_
      dsimp only
      exact MetersKept.modify fun r => rfl
  | settleBudget lease id outcome requestSeconds =>
    obtain ⟨-, a, ha⟩ := committed_eq_ok.1 h
    obtain ⟨-, -, -, ⟨rfl, -⟩ | ⟨-, rfl⟩⟩ := settleBudget_ok ha
    · exact .none rfl (.refl _)
    · refine .none rfl ?_
      dsimp only
      exact MetersKept.modify fun r => by cases outcome <;> rfl
  | appendInput incidentId inputId content actor =>
    obtain ⟨-, a, ha⟩ := committed_eq_ok.1 h
    rcases appendInput_ok ha with rfl | ⟨incident, -, -, rfl⟩ <;> exact .none rfl (.refl _)
  | control r =>
    obtain ⟨-, a, ha⟩ := committed_eq_ok.1 h
    obtain ⟨incident, -, -, -, hdecided⟩ := control_ok ha
    obtain ⟨t, hquiet, rfl | ⟨_, _, _, _, _, _, -, rfl⟩⟩ := hdecided.quiet
    · exact .none hquiet.toolCharges hquiet.runs.meters
    · exact .none hquiet.toolCharges hquiet.runs.meters
  | _ => exact absurd rfl hop

/-- Every operation keeps the totals. -/
theorem exec_charged (h : op.exec clk s = .ok (issued, s')) (hcharged : Charged s) :
    Charged s' := by
  cases exec_charges h with
  | charge h => exact chargeTool_charged hcharged h
  | none hcharges hruns => exact hcharged.of_meters hruns hcharges

/-- No operation drops a dispatch, gives it away or lowers its settled time. -/
theorem exec_settles (h : op.exec clk s = .ok (issued, s')) {d : UUID} {c : ToolChargeRow}
    (hget : s.toolCharges.get d = some c) : ∃ c', s'.toolCharges.get d = some c' ∧ c.Settles c' := by
  cases exec_charges h with
  | none hcharges => exact ⟨c, by rw [hcharges, hget], .refl c⟩
  | @charge _ _ _ chargeSeconds _ _ d' _ h =>
    obtain ⟨-, -, -, -, -, ⟨hnone, -, rfl⟩ | ⟨c', hget', -, rfl⟩⟩ := chargeTool_eq_ok.1 h
    · have hne : d ≠ d' := by
        rintro rfl
        rw [hnone] at hget
        cases hget
      exact ⟨c, by rw [Table.get_insert_ne _ _ hne, hget], .refl c⟩
    · by_cases hd : d = d'
      · subst hd
        obtain rfl := Option.some.inj (hget.symm.trans hget')
        exact ⟨_, by rw [Table.get_modify_self, hget]; rfl, c.settles_settled chargeSeconds⟩
      · exact ⟨c, by rw [Table.get_modify_ne _ _ hd, hget], .refl c⟩

end

/-! ## Charges by a lease -/

namespace Store

variable {s s' : Store} {clk : Clock} {lease : Lease} {operationId : String}
  {chargeSeconds maxToolSeconds : ℚ} {maxOperations : ℤ} {d : UUID} {c : ToolChargeRow} {u : Unit}

/-- Only a current lease opens a dispatch. -/
theorem chargeTool_leaseCurrent (hnone : s.toolCharges.get d = none)
    (hok : s.chargeTool clk lease operationId chargeSeconds maxOperations maxToolSeconds d =
      .ok (u, s')) : s.leaseCurrent lease clk.now = true := by
  obtain ⟨-, -, row, hrow, hbound, ⟨-, hcurrent, -⟩ | ⟨c, hget, -, -⟩⟩ := chargeTool_eq_ok.1 hok
  · exact leaseCurrent_eq_true.2 ⟨row, hrow, hbound, hcurrent⟩
  · rw [hnone] at hget
    cases hget

/-- A charge of a recorded dispatch is one by the lease that opened it, and settles it. -/
theorem chargeTool_settles (hget : s.toolCharges.get d = some c)
    (hok : s.chargeTool clk lease operationId chargeSeconds maxOperations maxToolSeconds d =
      .ok (u, s')) :
    c.OpenedBy lease operationId ∧
      s'.toolCharges.get d = some { c with seconds := some (c.settled chargeSeconds) } := by
  obtain ⟨-, -, row, hrow, -, ⟨hnone, -, -⟩ | ⟨c', hget', hopened, rfl⟩⟩ := chargeTool_eq_ok.1 hok
  · rw [hget] at hnone
    cases hnone
  · obtain rfl := Option.some.inj (hget.symm.trans hget')
    refine ⟨hopened, ?_⟩
    rw [Table.get_modify_self, hget]
    rfl

/-- A charge of no more than is recorded changes nothing. -/
theorem chargeTool_again {x : ℚ} (hget : s.toolCharges.get d = some c) (hx : c.seconds = some x)
    (hle : chargeSeconds ≤ x)
    (hok : s.chargeTool clk lease operationId chargeSeconds maxOperations maxToolSeconds d =
      .ok (u, s')) : s' = s := by
  obtain ⟨-, -, row, hrow, -, ⟨hnone, -, -⟩ | ⟨c', hget', hopened, rfl⟩⟩ := chargeTool_eq_ok.1 hok
  · rw [hget] at hnone
    cases hnone
  · obtain rfl := Option.some.inj (hget.symm.trans hget')
    have hsettled : c.settled chargeSeconds = x := ToolChargeRow.settled_of_le hx hle
    have hcharged : c.charged = x := by rw [ToolChargeRow.charged, hx, Option.getD_some]
    rw [hsettled, hcharged, sub_self]
    have hcharges : (s.toolCharges.modify d fun c => { c with seconds := some x }) =
        s.toolCharges := by
      refine Table.modify_eq_self fun row hrow => ?_
      obtain rfl := Option.some.inj (hget.symm.trans hrow)
      rw [← hx]
    have hruns : (s.runs.modify lease.runId fun r =>
        { r with toolSecondsUsed := r.toolSecondsUsed + 0 }) = s.runs := by
      refine Table.modify_eq_self fun r _ => ?_
      rw [add_zero]
    rw [hcharges, hruns]

/-- The same charge again is accepted, and changes nothing. -/
theorem chargeTool_repeat {clk' : Clock} (hget : s.toolCharges.get d = some c)
    (hok : s.chargeTool clk lease operationId chargeSeconds maxOperations maxToolSeconds d =
      .ok (u, s')) :
    s'.chargeTool clk' lease operationId chargeSeconds maxOperations maxToolSeconds d =
      .ok (u, s') := by
  obtain ⟨hopened, hsettled⟩ := chargeTool_settles hget hok
  obtain ⟨t, ht⟩ : ∃ t, s'.chargeTool clk' lease operationId chargeSeconds maxOperations
      maxToolSeconds d = .ok (u, t) := by
    obtain ⟨hvalid, ⟨scope, hlock⟩, row, hrow, hbound, ⟨hnone, -⟩ | ⟨c', hget', -, rfl⟩⟩ :=
      chargeTool_eq_ok.1 hok
    · rw [hget] at hnone
      cases hnone
    · obtain ⟨hrun, hinc, hscope⟩ := fencedRow_eq_some.1 hrow
      refine ⟨_, chargeTool_eq_ok.2 ⟨hvalid, ⟨scope, hlock⟩,
        { row with run := { row.run with toolSecondsUsed := row.run.toolSecondsUsed +
          (c'.settled chargeSeconds - c'.charged) } }, ?_, hbound,
        .inr ⟨_, hsettled, hopened, rfl⟩⟩⟩
      refine fencedRow_eq_some.2 ⟨?_, hinc, hscope⟩
      rw [Table.get_modify_self, hrun]
      rfl
  rw [ht, chargeTool_again hsettled rfl (c.le_settled chargeSeconds) ht]

end Store

namespace State

variable [Texts] {σ τ : State} {L L' : Lease}

theorem reachable_charged (h : system.Reachable σ) : Charged σ.store := by
  refine store_invariant ⟨fun hrun => ?_, fun hc => ?_, fun hc => ?_⟩
    (fun op clk s s' issued hcharged hok => exec_charged hok hcharged) h
  · cases hrun
  · cases hc
  · cases hc

/-- A dispatch settles along every run. -/
theorem settles_of_run {calls : List Call} (hrun : system.Run σ calls τ) {d : UUID}
    {c : ToolChargeRow} (hget : σ.store.toolCharges.get d = some c) :
    ∃ c', τ.store.toolCharges.get d = some c' ∧ c.Settles c' := by
  refine hrun.stable (P := fun σ => ∃ c', σ.store.toolCharges.get d = some c' ∧ c.Settles c')
    (fun hstep hc => ?_) ⟨c, hget, .refl c⟩
  refine step_store (P := fun s => ∃ c', s.toolCharges.get d = some c' ∧ c.Settles c') hstep hc
    fun issued store hok => ?_
  obtain ⟨c₁, hget₁, hsettles₁⟩ := hc
  obtain ⟨c₂, hget₂, hsettles₂⟩ := exec_settles hok hget₁
  exact ⟨c₂, hget₂, hsettles₁.trans hsettles₂⟩

omit [Texts] in
/-- A claim raises the epoch of the Run above every lease handed out before. -/
theorem lt_epoch_of_claim {clk : Clock} {incidentId runId owner : UUID} {versions : Json}
    {leaseSeconds : ℤ} {s' : Store} (hL : σ.HandedOut L)
    (hclaim : σ.store.claim clk incidentId runId owner versions leaseSeconds = .ok (.ok L', s'))
    (hrun : L.runId = L'.runId) : L.epoch < L'.epoch := by
  obtain ⟨a, sub, hissued⟩ := hL
  obtain ⟨incident, run, hc, ⟨hresult, -⟩ | ⟨-, hresult, -⟩⟩ := claim_ok hclaim
  · cases hresult
  · cases hresult
    obtain ⟨row, hrow, hattempt⟩ := attemptsOf_eq_some.1 hissued.attempt
    have hsame : row = run := by
      have hget : σ.store.runs.get L.runId = some row := hrow
      rw [hrun] at hget
      exact Option.some.inj (hget.symm.trans hc.foundRun)
    have hle : L.epoch ≤ row.epoch := by
      have hepoch := hissued.epoch
      rwa [← hattempt] at hepoch
    rw [hsame] at hle
    exact Nat.lt_succ_of_le hle

/-- **Every lease of a Run has an epoch of its own.** -/
theorem lease_of_epoch (h : system.Reachable σ) (hL : L ∈ σ.leases) (hL' : L' ∈ σ.leases)
    (hrun : L.runId = L'.runId) (hepoch : L.epoch = L'.epoch) : L = L' := by
  refine h.invariant_of (I := fun σ => ∀ L ∈ σ.leases, σ.HandedOut L)
    (P := fun σ => ∀ L ∈ σ.leases, ∀ L' ∈ σ.leases, L.runId = L'.runId → L.epoch = L'.epoch →
      L = L') (fun σ hσ => reachable_handedOut hσ) (fun σ hinit => ?_)
    (fun {σ call σ'} hstep hhanded hunique => ?_) L hL L' hL' hrun hepoch
  · rw [hinit.2.1]
    exact fun L hL => nomatch hL
  · rcases step_cases hstep with ⟨issued, store, hok, rfl⟩ | ⟨-, rfl⟩
    · have hnew : ∀ L ∈ issued.lease.toList, ∀ L' ∈ σ.leases, L'.runId = L.runId →
          L'.epoch < L.epoch := by
        intro L hL L' hL' hrun
        obtain ⟨_, _, _, _, _, hclaim⟩ := claim_of_exec hok (Option.mem_toList.1 hL)
        exact lt_epoch_of_claim (hhanded L' hL') hclaim hrun
      intro L hL L' hL' hrun hepoch
      rcases List.mem_append.1 hL with hL | hL <;> rcases List.mem_append.1 hL' with hL' | hL'
      · exact Option.mem_unique (Option.mem_toList.1 hL) (Option.mem_toList.1 hL')
      · exact absurd hepoch (hnew L hL L' hL' hrun.symm).ne'
      · exact absurd hepoch (hnew L' hL' L hL hrun).ne
      · exact hunique L hL L' hL' hrun hepoch
    · exact hunique

omit [Texts] in
/-- A lease that was handed out names a Run of its incident. -/
theorem fencedRow_of_handedOut (hL : σ.HandedOut L) :
    ∃ row, σ.store.fencedRow L.runId = some row ∧ row.run.incidentId = L.incidentId := by
  obtain ⟨a, sub, hissued⟩ := hL
  obtain ⟨run, hrun, hattempt⟩ := attemptsOf_eq_some.1 hissued.attempt
  obtain ⟨incident, hinc, -⟩ := subjectsOf_eq_some.1 hissued.subject
  rw [← hattempt] at hinc
  refine ⟨⟨run, incident, σ.store.scopeOf incident⟩, fencedRow_eq_some.2 ⟨hrun, hinc, rfl⟩, ?_⟩
  have hbound := hissued.bound
  rwa [← hattempt] at hbound

/-- A lease settles the dispatches it opened, whether it is current or not. -/
theorem settle_own (h : system.Reachable σ) (hL : σ.HandedOut L) {d : UUID} {c : ToolChargeRow}
    (hget : σ.store.toolCharges.get d = some c) (hopened : c.OpenedBy L c.operationId) {clk : Clock} {chargeSeconds maxToolSeconds : ℚ} {maxOperations : ℤ}
    (hseconds : 0 ≤ chargeSeconds) (hops : 0 < maxOperations) (hmax : 0 < maxToolSeconds) :
    ∃ s', σ.store.chargeTool clk L c.operationId chargeSeconds maxOperations maxToolSeconds d =
      .ok ((), s') := by
  obtain ⟨row, hrow, hbound⟩ := fencedRow_of_handedOut hL
  obtain ⟨-, hinc, -⟩ := fencedRow_eq_some.1 hrow
  rw [hbound] at hinc
  have hlock := lockScope_isOk hinc (reachable_gated h _ _ (subjectsOf_get hinc))
  have hnamed := (reachable_charged h).named hget
  exact ⟨_, chargeTool_eq_ok.2 ⟨⟨hnamed, hseconds, hops, hmax⟩, ⟨_, hlock⟩, row, hrow, hbound,
    .inr ⟨c, hget, hopened, rfl⟩⟩⟩

/-- **Tool charge accounting.** In every reachable state the tool columns of a Run are the totals
of its dispatches. A dispatch, once recorded, keeps its key; its time, once settled, never goes
down along a run; the same charge again is accepted and changes nothing, and neither does any
charge of no more than is recorded. A dispatch is opened under the key of its lease, and no other
lease settles it. A lease that was found not to be current opens no dispatch any more, and still
settles those it opened. -/
theorem tool_accounting (h : system.Reachable σ) :
    (∀ r run, σ.store.runs.get r = some run → Metered σ.store.toolCharges r run) ∧
    (∀ d c, σ.store.toolCharges.get d = some c → ∀ calls τ, system.Run σ calls τ →
      ∃ c', τ.store.toolCharges.get d = some c' ∧ c.Settles c') ∧
    (∀ clk L operationId seconds maxOperations maxSeconds d c s',
      σ.store.toolCharges.get d = some c →
      σ.store.chargeTool clk L operationId seconds maxOperations maxSeconds d = .ok ((), s') →
        (∀ clk', s'.chargeTool clk' L operationId seconds maxOperations maxSeconds d =
          .ok ((), s')) ∧
        ∀ x, c.seconds = some x → seconds ≤ x → s' = σ.store) ∧
    (∀ clk L operationId seconds maxOperations maxSeconds d s', L ∈ σ.leases →
      σ.store.chargeTool clk L operationId seconds maxOperations maxSeconds d = .ok ((), s') →
        ∃ c, s'.toolCharges.get d = some c ∧ c.OpenedBy L operationId ∧
          (∀ c₀, σ.store.toolCharges.get d = some c₀ → c₀.OpenedBy L operationId) ∧
          ∀ L' ∈ σ.leases, c.OpenedBy L' operationId → L' = L) ∧
    ∀ L ∈ σ.leases, ∀ t, σ.now ≤ t → σ.store.leaseCurrent L t = false →
      ∀ calls τ, system.Run σ calls τ → (∀ c ∈ calls, t ≤ c.clock.now) →
        (∀ clk operationId seconds maxOperations maxSeconds d s', t ≤ clk.now → τ.now ≤ clk.now →
          τ.store.chargeTool clk L operationId seconds maxOperations maxSeconds d = .ok ((), s') →
            ∃ c, τ.store.toolCharges.get d = some c) ∧
        ∀ d c, τ.store.toolCharges.get d = some c → c.OpenedBy L c.operationId →
          ∀ clk seconds maxOperations maxSeconds, 0 ≤ seconds → 0 < maxOperations →
            0 < maxSeconds → ∃ s',
              τ.store.chargeTool clk L c.operationId seconds maxOperations maxSeconds d =
                .ok ((), s') ∧
              s'.toolCharges.get d = some { c with seconds := some (c.settled seconds) } := by
  refine ⟨fun r run hrun => (reachable_charged h).metered hrun, ?_, ?_, ?_, ?_⟩
  · intro d c hget calls τ hrun
    exact settles_of_run hrun hget
  · intro clk L operationId seconds maxOperations maxSeconds d c s' hget hok
    refine ⟨fun clk' => chargeTool_repeat hget hok, fun x hx hle => ?_⟩
    exact chargeTool_again hget hx hle hok
  · intro clk L operationId seconds maxOperations maxSeconds d s' hL hok
    have hone : ∀ {c : ToolChargeRow}, c.OpenedBy L operationId →
        ∀ L' ∈ σ.leases, c.OpenedBy L' operationId → L' = L := by
      intro c hopened L' hL' hopened'
      exact lease_of_epoch h hL' hL (hopened'.1.symm.trans hopened.1)
        (hopened'.2.1.symm.trans hopened.2.1)
    obtain ⟨-, -, -, -, -, ⟨hnone, -, rfl⟩ | ⟨c, hget, hopened, -⟩⟩ := chargeTool_eq_ok.1 hok
    · have hopened : ToolChargeRow.OpenedBy
          { runId := L.runId, epoch := L.epoch, operationId, reserved := seconds } L operationId :=
        ⟨rfl, rfl, rfl⟩
      refine ⟨_, Table.get_insert_self .., hopened, fun c₀ hc₀ => ?_, hone hopened⟩
      rw [hnone] at hc₀
      cases hc₀
    · obtain ⟨-, hsettled⟩ := chargeTool_settles hget hok
      refine ⟨_, hsettled, hopened, fun c₀ hc₀ => ?_, hone hopened⟩
      obtain rfl := Option.some.inj (hget.symm.trans hc₀)
      exact hopened
  · intro L hL t hnow hfail calls τ hrun hcalls
    have hhanded := reachable_handedOut h L hL
    refine ⟨fun clk operationId seconds maxOperations maxSeconds d s' hclk hτ hok => ?_, ?_⟩
    · cases hget : τ.store.toolCharges.get d with
      | some c => exact ⟨c, rfl⟩
      | none =>
        have hcur := chargeTool_leaseCurrent hget hok
        rw [leaseCurrent_before_run hhanded hrun hcalls hclk hτ hcur] at hfail
        cases hfail
    · intro d c hget hopened clk seconds maxOperations maxSeconds hseconds hops hmax
      have hhandedτ : τ.HandedOut L :=
        hrun.stable (P := fun σ => σ.HandedOut L) (fun hstep hL => hL.step hstep) hhanded
      obtain ⟨s', hok⟩ := settle_own (h.run hrun) hhandedτ hget hopened hseconds hops hmax
      exact ⟨s', hok, (chargeTool_settles hget hok).2⟩

end State

namespace Scenario

/-- The worker charges a read for ten seconds, and is then taken over. -/
def chargeCalls : List Call :=
  claimCalls ++ [(Op.chargeTool lease "8:0" 10 1 1 5).at (seconds 1),
    (Op.control {
      incidentId := 1, expectedGeneration := 0, action := .takeover, actor := "anna" }).at
        (seconds 2)]

/-- The worker that was taken over settles its read at four seconds. -/
theorem tool_accounting_takeover :
    (State.reached chargeCalls).store.leaseCurrent lease (seconds 2) = false ∧ ∃ s',
      (State.reached chargeCalls).store.chargeTool ⟨seconds 3, seconds 3, le_rfl⟩ lease "8:0" 4 1 1 5 =
        .ok ((), s') ∧
      s'.toolCharges.get 5 = some {
        runId := 2, epoch := 1, operationId := "8:0", reserved := 10, seconds := some 4 } := by
  have hfail : (State.reached chargeCalls).store.leaseCurrent lease (seconds 2) = false := by
    decide
  obtain ⟨-, -, -, -, hrevoked⟩ :=
    State.tool_accounting (σ := State.reached chargeCalls) (State.reachable_reached (by decide))
  obtain ⟨-, hsettles⟩ := hrevoked lease (by decide) (seconds 2) (by decide) hfail [] _ (.nil _)
    (fun c hc => nomatch hc)
  exact ⟨hfail, hsettles 5 { runId := 2, epoch := 1, operationId := "8:0", reserved := 10 }
    (by decide) (by decide) _ 4 1 1 (by decide) (by decide) (by decide)⟩

end Scenario

end OpsPilot
