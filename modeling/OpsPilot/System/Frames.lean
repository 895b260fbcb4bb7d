import OpsPilot.System.Machine

/-!
# What the operations leave alone

Most operations decide, claim and observe; few write the ledger of a Run (its budget columns and
its input watermark) or the tables behind it: reservations, inputs, input rounds and steps.

The tool columns of a Run, and the charges behind them, are written by one operation.

* `Kept`: a change that leaves the ledgers alone. `Quiet`: one that leaves the tool charges alone
  as well.
* **`exec_quiet`**, **`exec_kept`**: every operation outside `Op.records` is such a change.
* `Decided.quiet`: a decision is one too, but for an input it may append.
* `Beside`, **`exec_beside`**: the operations of `Op.plain` leave the registry, the decisions and the
  tables of observation alone, and all but a few of them the incidents.
-/

namespace OpsPilot

/-- The budget columns of a Run. -/
structure Account where
  budgetLimit : ℕ
  budgetReserved : ℤ := 0
  budgetSpent : ℤ := 0
  budgetUnknown : ℤ := 0

/-- The columns of a Run that its reservations and rounds account for, with its incident. -/
structure Ledger where
  incidentId : UUID
  account : Account
  inputWatermark : ℕ := 0

/-- The columns of a Run that its tool dispatches account for. -/
structure Meter where
  toolOperationsUsed : ℕ := 0
  toolSecondsUsed : ℚ := 0

namespace RunRow

/-- The budget of a Run. -/
def account (r : RunRow) : Account where
  budgetLimit := r.budgetLimit
  budgetReserved := r.budgetReserved
  budgetSpent := r.budgetSpent
  budgetUnknown := r.budgetUnknown

/-- The ledger of a Run. -/
def ledger (r : RunRow) : Ledger where
  incidentId := r.incidentId
  account := r.account
  inputWatermark := r.inputWatermark

/-- Nothing is accounted to the Run. -/
def Unused (r : RunRow) : Prop :=
  r.ledger = { incidentId := r.incidentId, account := { budgetLimit := r.budgetLimit } }

/-- The tool columns of a Run. -/
def meter (r : RunRow) : Meter where
  toolOperationsUsed := r.toolOperationsUsed
  toolSecondsUsed := r.toolSecondsUsed

/-- The Run has the ledger and the tool columns it had. -/
structure SameBooks (r r' : RunRow) : Prop where
  ledger : r'.ledger = r.ledger
  meter : r'.meter = r.meter

/-- Nothing is accounted to the Run, and no tool operation. -/
structure Blank (r : RunRow) : Prop where
  unused : r.Unused
  meter : r.meter = {}

end RunRow

/-- The Run has the ledger it had. -/
def RunRow.SameLedger (r r' : RunRow) : Prop := r'.ledger = r.ledger

/-- Every Run keeps its ledger, and a new Run starts an empty one. -/
def LedgersKept (old new : Table UUID RunRow) : Prop :=
  Table.Frame RunRow.SameLedger RunRow.Unused old new

/-- Every Run keeps its ledger and its tool columns, and a new Run starts empty ones. -/
def BooksKept (old new : Table UUID RunRow) : Prop :=
  Table.Frame RunRow.SameBooks RunRow.Blank old new

theorem LedgersKept.refl (t : Table UUID RunRow) : LedgersKept t t :=
  Table.Frame.refl (R := RunRow.SameLedger) (fun _ => rfl) t

variable {k : UUID} {op : Op} {issued : Issued}

theorem LedgersKept.modify {t : Table UUID RunRow} {f : RunRow → RunRow}
    (h : ∀ r, (f r).ledger = r.ledger) : LedgersKept t (t.modify k f) :=
  Table.Frame.of_modify (R := RunRow.SameLedger) (fun _ => rfl) h t k

namespace BooksKept

variable {old middle new : Table UUID RunRow}

theorem sameBooks_refl (r : RunRow) : r.SameBooks r := ⟨rfl, rfl⟩

theorem ledgers (h : BooksKept old new) : LedgersKept old new :=
  h.mono (fun hr => hr.ledger) fun hn => hn.unused

theorem refl (t : Table UUID RunRow) : BooksKept t t := Table.Frame.refl sameBooks_refl t

theorem trans (h : BooksKept old middle) (h' : BooksKept middle new) : BooksKept old new := by
  refine Table.Frame.trans (fun hab hbc => ?_) (fun {a b} ha hab => ⟨?_, ?_⟩) h h'
  · exact ⟨hbc.ledger.trans hab.ledger, hbc.meter.trans hab.meter⟩
  · have hunused := ha.unused
    have hledger := hab.ledger
    unfold RunRow.Unused at *
    simp only [RunRow.ledger, RunRow.account, Ledger.mk.injEq, Account.mk.injEq] at *
    simp [hledger, hunused]
  · exact hab.meter.trans ha.meter

theorem update {t : Table UUID RunRow} {f : UUID → RunRow → RunRow}
    (h : ∀ k r, RunRow.SameBooks r (f k r)) : BooksKept t (t.update f) :=
  Table.Frame.of_update h t

theorem modify {t : Table UUID RunRow} {f : RunRow → RunRow} (h : ∀ r, RunRow.SameBooks r (f r)) :
    BooksKept t (t.modify k f) :=
  Table.Frame.of_modify sameBooks_refl h t k

theorem insert {t : Table UUID RunRow} {row : RunRow} (hnone : t.get k = none)
    (hblank : row.Blank) : BooksKept t (t.insert k row) :=
  Table.Frame.of_insert sameBooks_refl hnone hblank

end BooksKept

namespace Store

/-- A change that writes no ledger, and none of the tables behind the ledgers. -/
structure Kept (s s' : Store) : Prop where
  runs : LedgersKept s.runs s'.runs
  reservations : s'.reservations = s.reservations
  inputs : s'.inputs = s.inputs
  inputRounds : s'.inputRounds = s.inputRounds
  steps : s'.steps = s.steps

/-- A change that writes no tool column and no tool charge either. -/
structure Quiet (s s' : Store) : Prop where
  runs : BooksKept s.runs s'.runs
  reservations : s'.reservations = s.reservations
  inputs : s'.inputs = s.inputs
  inputRounds : s'.inputRounds = s.inputRounds
  steps : s'.steps = s.steps
  toolCharges : s'.toolCharges = s.toolCharges

variable {s s' t : Store} {clk : Clock}

namespace Quiet

theorem kept (h : Quiet s s') : Kept s s' :=
  ⟨h.runs.ledgers, h.reservations, h.inputs, h.inputRounds, h.steps⟩

theorem refl (s : Store) : Quiet s s := ⟨.refl _, rfl, rfl, rfl, rfl, rfl⟩

theorem trans (h : Quiet s t) (h' : Quiet t s') : Quiet s s' :=
  ⟨h.runs.trans h'.runs, h'.reservations.trans h.reservations, h'.inputs.trans h.inputs,
    h'.inputRounds.trans h.inputRounds, h'.steps.trans h.steps,
    h'.toolCharges.trans h.toolCharges⟩

/-- A write to Runs that keeps their books. -/
theorem of_runs {runs : Table UUID RunRow} (h : BooksKept s.runs runs) :
    Quiet s { s with runs } := ⟨h, rfl, rfl, rfl, rfl, rfl⟩

/-- A change to other tables. -/
theorem of_eq (hruns : s'.runs = s.runs) (hres : s'.reservations = s.reservations)
    (hinputs : s'.inputs = s.inputs) (hrounds : s'.inputRounds = s.inputRounds)
    (hsteps : s'.steps = s.steps) (hcharges : s'.toolCharges = s.toolCharges) : Quiet s s' :=
  ⟨hruns ▸ .refl _, hres, hinputs, hrounds, hsteps, hcharges⟩

end Quiet

/-- A decision's write to the Runs keeps their books. -/
theorem moveRuns_books (s : Store) (incidentId : UUID) (source : List RunExecution)
    (target : RunExecution) (g : ℕ) : BooksKept s.runs (s.moveRuns incidentId source target g) :=
  BooksKept.update fun _ r => by split <;> exact ⟨rfl, rfl⟩

theorem park_quiet (s : Store) (runId : UUID) (fromStates : List RunExecution) :
    Quiet s (s.park runId fromStates) := by
  refine .of_runs (BooksKept.modify fun r => ?_)
  split <;> exact ⟨rfl, rfl⟩

theorem suspend_quiet (s : Store) (covers : IncidentRow → Bool) (reaches : RunRow → Bool) :
    Quiet s (s.suspend covers reaches) := by
  refine ⟨?_, rfl, rfl, rfl, rfl, rfl⟩
  simp only [suspend]
  refine BooksKept.update fun _ r => ?_
  split <;> exact ⟨rfl, rfl⟩

theorem terminate_quiet (s : Store) (clk : Clock) (r : ControlRequest) (incident : IncidentRow)
    (payload : Option Json) (f : IncidentRow → IncidentRow) :
    Quiet s (s.terminate clk r incident payload f) :=
  ⟨moveRuns_books .., rfl, rfl, rfl, rfl, rfl⟩

theorem takeover_quiet (s : Store) (clk : Clock) (r : ControlRequest) (incident : IncidentRow) :
    Quiet s (s.takeover clk r incident) := by
  refine ⟨?_, rfl, rfl, rfl, rfl, rfl⟩
  simp only [takeover]
  split
  · exact .refl _
  · exact moveRuns_books ..

theorem direct_quiet (s : Store) (clk : Clock) (r : ControlRequest) (incident : IncidentRow)
    (suspended : Bool) : Quiet s (s.direct clk r incident suspended) := by
  refine ⟨?_, ?_, ?_, ?_, ?_, ?_⟩
  · simp only [direct, directRuns]
    split_ifs <;> first | exact .refl _ | exact moveRuns_books ..
  all_goals
    simp only [direct]
    split <;> rfl

theorem renew_quiet {r : ControlRequest} {incident : IncidentRow} {suspended : Bool} {runId : UUID}
    {successor : RunRow} (hfresh : s.runs.get runId = none) (hblank : successor.Blank) :
    Quiet s (s.renew clk r incident suspended runId successor) := by
  refine ⟨(moveRuns_books s r.incidentId unfinishedStates .cancelled r.generation).trans
    (.insert ?_ hblank), rfl, rfl, rfl, rfl, rfl⟩
  simp [moveRuns, Table.get_update, hfresh]

/-- **A decision writes no ledger**; a note and a merge append one input. -/
theorem Decided.quiet {r : ControlRequest} {incident : IncidentRow}
    (h : Decided s clk r incident s') :
    ∃ t, Quiet s t ∧ (s' = t ∨ ∃ incidentId inputId kind content actor g,
      t.inputs.get inputId = none ∧ s' = t.addInput incidentId inputId kind content actor g) := by
  cases h with
  | close => exact ⟨_, terminate_quiet .., .inl rfl⟩
  | reopen =>
    refine ⟨_, ?_, .inl rfl⟩
    exact .of_eq rfl rfl rfl rfl rfl rfl
  | @rebind t targetId payload haction hlife hreg =>
    have hkept : Quiet s t := by
      rcases hreg with rfl | ⟨-, toUid, rfl⟩
      · exact .refl _
      · exact .of_eq rfl rfl rfl rfl rfl rfl
    exact ⟨_, hkept.trans (terminate_quiet ..), .inl rfl⟩
  | merge haction hsurvivor hne ht hinput =>
    subst ht
    rcases hinput with rfl | ⟨hfresh, rfl⟩
    · exact ⟨_, terminate_quiet .., .inl rfl⟩
    · exact ⟨_, terminate_quiet .., .inr ⟨_, _, _, _, _, _, hfresh, rfl⟩⟩
  | takeover => exact ⟨_, takeover_quiet .., .inl rfl⟩
  | @renew suspended run currentId runId deadline hcurrent hrun hrenews hsettled hrunId hdeadline
      hfresh hinput =>
    have hblank : (r.successor incident run suspended deadline).Blank := ⟨rfl, rfl⟩
    exact ⟨_, renew_quiet hfresh hblank, .inr ⟨_, _, _, _, _, _, hinput, rfl⟩⟩
  | @direct suspended run currentId haction hcurrent hrun hdirect hinput =>
    have hkept := direct_quiet s clk r incident suspended
    refine ⟨_, hkept, ?_⟩
    split
    · next hnote => exact .inr ⟨_, _, _, _, _, _, by rw [hkept.inputs, hinput hnote], rfl⟩
    · exact .inl rfl

theorem newRun_quiet {n : NewRun} {g : ℕ} (h : s.newRun clk n = .ok (g, s')) : Quiet s s' := by
  rcases newRun_ok h with ⟨rfl, -⟩ | ⟨incident, suspended, -, -, -, -, -, hrun, -, rfl⟩
  · exact .refl _
  · have hblank : (n.run suspended (incident.controlGeneration + 1)).Blank := ⟨rfl, rfl⟩
    exact ⟨.insert hrun hblank, rfl, rfl, rfl, rfl, rfl⟩

theorem claim_quiet {incidentId runId owner : UUID} {versions : Json} {leaseSeconds : ℤ}
    {result : Except Code Lease}
    (h : s.claim clk incidentId runId owner versions leaseSeconds = .ok (result, s')) :
    Quiet s s' := by
  obtain ⟨incident, run, -, ⟨-, rfl⟩ | ⟨-, -, rfl⟩⟩ := claim_ok h
  · refine .of_runs (BooksKept.modify fun r => ?_)
    split <;> exact ⟨rfl, rfl⟩
  · refine .of_runs (BooksKept.modify fun r => ?_)
    exact ⟨rfl, rfl⟩

theorem Authorized.quiet {a : Authorization} {incident : IncidentRow}
    {lifecycle : IncidentLifecycle} {session : SessionRow}
    (h : Authorized s clk a incident lifecycle session s') : Quiet s s' := by
  rw [h.written]
  exact .of_eq rfl rfl rfl rfl rfl rfl

end Store

/-- The operations that write a ledger or a table behind it. -/
def Op.records : Op → Bool
  | .reserveBudget .. | .settleBudget .. | .commitStep .. | .commitTool .. | .beginRound ..
  | .publish .. | .appendInput .. | .control _ => true
  | _ => false

/-- The operation that writes the tool columns of a Run. -/
def Op.charges : Op → Bool
  | .chargeTool .. => true
  | _ => false

open Store in
/-- **Every other operation but a charge leaves the books alone**, and the tables behind them. -/
theorem exec_quiet [Texts] {clk : Clock} {s s' : Store} (h : op.exec clk s = .ok (issued, s'))
    (hop : op.records = false) (hcharge : op.charges = false) : Quiet s s' := by
  cases op with
  | accept intake =>
    obtain ⟨-, a, ha⟩ := committed_eq_ok.1 h
    rcases accept_ok ha with rfl | ⟨suspended, -, hrun, -, rfl⟩
    · exact .refl _
    · have hblank : (intake.run suspended).Blank := ⟨rfl, rfl⟩
      exact ⟨.insert hrun hblank, rfl, rfl, rfl, rfl, rfl⟩
  | openHandoff incidentId intakeKey priority related alert =>
    obtain ⟨-, a, ha⟩ := committed_eq_ok.1 h
    obtain ⟨-, rfl⟩ := openHandoff_ok ha
    exact .of_eq rfl rfl rfl rfl rfl rfl
  | escalatePriority incidentId priority =>
    obtain ⟨-, a, ha⟩ := committed_eq_ok.1 h
    obtain rfl := escalatePriority_ok ha
    exact .of_eq rfl rfl rfl rfl rfl rfl
  | registerTarget resourceUid targetId fresh =>
    obtain ⟨-, a, ha⟩ := committed_eq_ok.1 h
    rcases registerTarget_ok ha with rfl | ⟨-, rfl⟩
    · exact .refl _
    · exact .of_eq rfl rfl rfl rfl rfl rfl
  | newRun n =>
    obtain ⟨-, a, ha⟩ := committed_eq_ok.1 h
    exact newRun_quiet ha
  | claim incidentId runId owner versions leaseSeconds =>
    obtain ⟨a, -, ha⟩ := claimed_eq_ok.1 h
    exact claim_quiet ha
  | renewLease lease extendSeconds =>
    obtain ⟨-, a, ha⟩ := committed_eq_ok.1 h
    obtain ⟨run, -, -, -, -, rfl⟩ := renewLease_ok ha
    refine .of_runs (BooksKept.modify fun r => ?_)
    exact ⟨rfl, rfl⟩
  | block lease =>
    obtain ⟨-, a, ha⟩ := committed_eq_ok.1 h
    obtain ⟨row, -, -, rfl⟩ := block_ok ha
    refine .of_runs (BooksKept.modify fun r => ?_)
    split <;> exact ⟨rfl, rfl⟩
  | handOff lease =>
    obtain ⟨-, a, ha⟩ := committed_eq_ok.1 h
    obtain ⟨row, -, -, -, rfl⟩ := handOff_ok ha
    exact park_quiet ..
  | sweepExpiredRun incidentId runId =>
    cases h
    rcases sweepExpiredRun_cases s clk incidentId runId with hs | ⟨-, -, -, -, hs⟩ <;> rw [hs]
    · exact .refl _
    · exact park_quiet ..
  | parkBacklog maxQueued =>
    obtain ⟨-, a, ha⟩ := committed_eq_ok.1 h
    rcases parkBacklog_ok ha with rfl | ⟨runId, run, -, -, -, rfl⟩
    · exact .refl _
    · exact park_quiet ..
  | abandon lease =>
    cases h
    refine .of_runs (BooksKept.modify fun r => ?_)
    split <;> exact ⟨rfl, rfl⟩
  | setGlobalSuspension suspended expected actor =>
    obtain ⟨-, a, ha⟩ := committed_eq_ok.1 h
    rcases setGlobalSuspension_ok ha with ⟨-, rfl⟩ | ⟨-, -, rfl⟩
    · exact .of_eq rfl rfl rfl rfl rfl rfl
    · cases suspended
      · exact .of_eq rfl rfl rfl rfl rfl rfl
      · refine (suspend_quiet s (fun _ => true) fun _ => true).trans ?_
        exact .of_eq rfl rfl rfl rfl rfl rfl
  | setTargetSuspension target fresh suspended expected actor =>
    obtain ⟨-, a, ha⟩ := committed_eq_ok.1 h
    obtain ⟨t, targetId, gate, ht, -, hwrite⟩ := setTargetSuspension_ok ha
    have hkept : Quiet s (t.ensureGate targetId) := by
      rw [ht.eq]
      unfold ensureGate
      split <;> exact .of_eq rfl rfl rfl rfl rfl rfl
    refine hkept.trans ?_
    rcases hwrite with ⟨-, rfl⟩ | ⟨-, -, rfl⟩
    · exact .of_eq rfl rfl rfl rfl rfl rfl
    · cases suspended
      · exact .of_eq rfl rfl rfl rfl rfl rfl
      · refine (suspend_quiet (t.ensureGate targetId) (boundTo targetId)
          ((t.ensureGate targetId).runBoundTo targetId)).trans ?_
        exact .of_eq rfl rfl rfl rfl rfl rfl
  | authorizeSession a =>
    obtain ⟨-, id, ha⟩ := committed_eq_ok.1 h
    obtain ⟨t, ht, hrest⟩ := bind_eq_ok.1 ha
    simp only [pure_eq_ok, Prod.mk.injEq] at hrest
    obtain ⟨-, rfl⟩ := hrest
    obtain ⟨incident, lifecycle, session, hauth⟩ := authorizeSessionIn_ok ht
    exact hauth.quiet
  | registerRemediation r =>
    obtain ⟨-, a, ha⟩ := committed_eq_ok.1 h
    obtain ⟨t, authorized, incident, row, session, audit, ht, -, -, -, -, -, -, -, hauth, rfl⟩ :=
      registerRemediation_ok ha
    have hkept : Quiet s (t.remediated clk r.authorization.incidentId incident a) := by
      rw [ht.eq]
      exact .of_eq rfl rfl rfl rfl rfl rfl
    exact (hkept.trans hauth.quiet).trans (.of_eq rfl rfl rfl rfl rfl rfl)
  | authorizeAutomaticObservation incidentId controlGeneration grant refusal =>
    obtain ⟨-, a, ha⟩ := committed_eq_ok.1 h
    rcases authorizeAutomaticObservation_ok ha with ⟨selfHeal, rfl⟩ |
      ⟨t, authorized, a, incident, session, audit, selfHeal, ht, -, -, hauth, rfl⟩
    · exact .of_eq rfl rfl rfl rfl rfl rfl
    · have hkept : Quiet s t := by
        rw [ht.eq]
        exact .of_eq rfl rfl rfl rfl rfl rfl
      exact (hkept.trans hauth.quiet).trans (.of_eq rfl rfl rfl rfl rfl rfl)
  | recordAutoObservationFailure incidentId controlGeneration reason =>
    obtain ⟨-, a, ha⟩ := committed_eq_ok.1 h
    obtain ⟨selfHeal, rfl⟩ := recordAutoObservationFailure_ok ha
    exact .of_eq rfl rfl rfl rfl rfl rfl
  | revokeSessions incidentId =>
    obtain ⟨-, a, ha⟩ := committed_eq_ok.1 h
    obtain ⟨incident, -, rfl⟩ := revokeSessions_ok ha
    exact .of_eq rfl rfl rfl rfl rfl rfl
  | claimDueSample sessionId owner leaseSeconds =>
    obtain ⟨a, -, ha⟩ := sampleClaimed_eq_ok.1 h
    cases claimDueSample_ok ha <;> exact .of_eq rfl rfl rfl rfl rfl rfl
  | submitSample lease sample readings sampleId jobId =>
    obtain ⟨-, a, ha⟩ := committed_eq_ok.1 h
    obtain ⟨incident, row, c, verdict, after, hsub⟩ := submitSample_ok ha
    rw [hsub.written]
    exact .of_eq rfl rfl rfl rfl rfl rfl
  | sweepExpiredSession sessionId =>
    obtain ⟨-, a, ha⟩ := committed_eq_ok.1 h
    rcases sweepExpiredSession_ok ha with rfl | ⟨row, incident, after, -, -, -, -, -, rfl⟩
    · exact .refl _
    · exact .of_eq rfl rfl rfl rfl rfl rfl
  | reserveBudget | settleBudget | commitStep | commitTool | beginRound | publish | appendInput
  | control => cases hop
  | chargeTool => cases hcharge

open Store in
/-- **Every other operation leaves the ledgers alone**, and the tables behind them. -/
theorem exec_kept [Texts] {clk : Clock} {s s' : Store} (h : op.exec clk s = .ok (issued, s'))
    (hop : op.records = false) : Kept s s' := by
  cases hcharge : op.charges with
  | false => exact (exec_quiet h hop hcharge).kept
  | true =>
    cases op with
    | chargeTool lease operationId seconds maxOperations maxToolSeconds dispatchId =>
      obtain ⟨-, a, ha⟩ := committed_eq_ok.1 h
      obtain ⟨toolCharges, operations, total, rfl⟩ := chargeTool_ok ha
      refine ⟨?_, rfl, rfl, rfl, rfl⟩
      dsimp only
      refine LedgersKept.modify fun r => ?_
      rfl
    | _ => cases hcharge

/-- The operations on intakes and Runs, their inputs, rounds and budgets, and on the global
switch. -/
def Op.plain : Op → Bool
  | .accept .. | .openHandoff .. | .escalatePriority .. | .claim .. | .renewLease .. | .block ..
  | .handOff .. | .sweepExpiredRun .. | .parkBacklog .. | .abandon .. | .setGlobalSuspension ..
  | .appendInput .. | .commitStep .. | .commitTool .. | .beginRound .. | .publish ..
  | .reserveBudget .. | .settleBudget .. | .chargeTool .. => true
  | _ => false

/-- Those of them that may write an incident. -/
def Op.files : Op → Bool
  | .accept .. | .openHandoff .. | .escalatePriority .. | .setGlobalSuspension .. | .publish .. =>
    true
  | _ => false

/-- A change that leaves the registry, the decisions and the tables of observation alone, and the
incidents unless it `files`. -/
structure Store.Beside (files : Bool) (s s' : Store) : Prop where
  targets : s'.targets = s.targets
  selfHeal : s'.selfHeal = s.selfHeal
  sessions : s'.sessions = s.sessions
  samples : s'.samples = s.samples
  endings : s'.endings = s.endings
  profiles : s'.profiles = s.profiles
  incidents : files = false → s'.incidents = s.incidents

open Store in
/-- **A plain operation** writes none of the tables beside. -/
theorem exec_beside [Texts] {clk : Clock} {s s' : Store} (h : op.exec clk s = .ok (issued, s'))
    (hop : op.plain = true) : s.Beside op.files s' := by
  cases op with
  | accept intake =>
    obtain ⟨-, a, ha⟩ := committed_eq_ok.1 h
    rcases accept_ok ha with rfl | ⟨suspended, -, -, -, rfl⟩
    · exact ⟨rfl, rfl, rfl, rfl, rfl, rfl, fun _ => rfl⟩
    · exact ⟨rfl, rfl, rfl, rfl, rfl, rfl, fun hfiles => Bool.noConfusion hfiles⟩
  | openHandoff incidentId intakeKey priority related alert =>
    obtain ⟨-, a, ha⟩ := committed_eq_ok.1 h
    obtain ⟨-, rfl⟩ := openHandoff_ok ha
    exact ⟨rfl, rfl, rfl, rfl, rfl, rfl, fun hfiles => Bool.noConfusion hfiles⟩
  | escalatePriority incidentId priority =>
    obtain ⟨-, a, ha⟩ := committed_eq_ok.1 h
    obtain rfl := escalatePriority_ok ha
    exact ⟨rfl, rfl, rfl, rfl, rfl, rfl, fun hfiles => Bool.noConfusion hfiles⟩
  | claim incidentId runId owner versions leaseSeconds =>
    obtain ⟨a, -, ha⟩ := claimed_eq_ok.1 h
    obtain ⟨incident, run, -, ⟨-, rfl⟩ | ⟨-, -, rfl⟩⟩ := claim_ok ha <;>
      exact ⟨rfl, rfl, rfl, rfl, rfl, rfl, fun _ => rfl⟩
  | renewLease lease extendSeconds =>
    obtain ⟨-, a, ha⟩ := committed_eq_ok.1 h
    obtain ⟨run, -, -, -, -, rfl⟩ := renewLease_ok ha
    exact ⟨rfl, rfl, rfl, rfl, rfl, rfl, fun _ => rfl⟩
  | block lease =>
    obtain ⟨-, a, ha⟩ := committed_eq_ok.1 h
    obtain ⟨row, -, -, rfl⟩ := block_ok ha
    exact ⟨rfl, rfl, rfl, rfl, rfl, rfl, fun _ => rfl⟩
  | handOff lease =>
    obtain ⟨-, a, ha⟩ := committed_eq_ok.1 h
    obtain ⟨row, -, -, -, rfl⟩ := handOff_ok ha
    exact ⟨rfl, rfl, rfl, rfl, rfl, rfl, fun _ => rfl⟩
  | sweepExpiredRun incidentId runId =>
    cases h
    rcases sweepExpiredRun_cases s clk incidentId runId with hs | ⟨-, -, -, -, hs⟩ <;> rw [hs] <;>
      exact ⟨rfl, rfl, rfl, rfl, rfl, rfl, fun _ => rfl⟩
  | parkBacklog maxQueued =>
    obtain ⟨-, a, ha⟩ := committed_eq_ok.1 h
    rcases parkBacklog_ok ha with rfl | ⟨runId, run, -, -, -, rfl⟩ <;>
      exact ⟨rfl, rfl, rfl, rfl, rfl, rfl, fun _ => rfl⟩
  | abandon lease =>
    cases h
    exact ⟨rfl, rfl, rfl, rfl, rfl, rfl, fun _ => rfl⟩
  | setGlobalSuspension suspended expected actor =>
    obtain ⟨-, a, ha⟩ := committed_eq_ok.1 h
    rcases setGlobalSuspension_ok ha with ⟨-, rfl⟩ | ⟨-, -, rfl⟩
    · exact ⟨rfl, rfl, rfl, rfl, rfl, rfl, fun _ => rfl⟩
    · cases suspended <;> exact ⟨rfl, rfl, rfl, rfl, rfl, rfl, fun hfiles => Bool.noConfusion hfiles⟩
  | appendInput incidentId inputId content actor =>
    obtain ⟨-, a, ha⟩ := committed_eq_ok.1 h
    rcases appendInput_ok ha with rfl | ⟨incident, -, -, rfl⟩ <;>
      exact ⟨rfl, rfl, rfl, rfl, rfl, rfl, fun _ => rfl⟩
  | commitStep lease logicalKey response fresh =>
    obtain ⟨-, a, ha⟩ := committed_eq_ok.1 h
    cases commitStep_ok ha with
    | late _ hlate =>
      rcases lateResult_ok hlate with ⟨rfl, -⟩ | ⟨-, -, -, rfl⟩ <;>
        exact ⟨rfl, rfl, rfl, rfl, rfl, rfl, fun _ => rfl⟩
    | replay | committed => exact ⟨rfl, rfl, rfl, rfl, rfl, rfl, fun _ => rfl⟩
  | commitTool lease stepId ordinal result fresh =>
    obtain ⟨-, a, ha⟩ := committed_eq_ok.1 h
    cases commitTool_ok ha with
    | late hlate =>
      rcases lateResult_ok hlate with ⟨rfl, -⟩ | ⟨-, -, -, rfl⟩ <;>
        exact ⟨rfl, rfl, rfl, rfl, rfl, rfl, fun _ => rfl⟩
    | replay | committed => exact ⟨rfl, rfl, rfl, rfl, rfl, rfl, fun _ => rfl⟩
  | beginRound lease logicalKey =>
    obtain ⟨-, a, ha⟩ := committed_eq_ok.1 h
    obtain ⟨row, -, -, -, -, ⟨rfl, -⟩ | ⟨-, -, rfl⟩⟩ := beginRound_ok ha <;>
      exact ⟨rfl, rfl, rfl, rfl, rfl, rfl, fun _ => rfl⟩
  | publish lease conclusion stepId fresh =>
    obtain ⟨-, a, ha⟩ := committed_eq_ok.1 h
    cases publish_ok ha with
    | fenced _ _ hlate =>
      rcases lateResult_ok hlate with ⟨rfl, -⟩ | ⟨-, -, -, rfl⟩ <;>
        exact ⟨rfl, rfl, rfl, rfl, rfl, rfl, fun _ => rfl⟩
    | replay => exact ⟨rfl, rfl, rfl, rfl, rfl, rfl, fun _ => rfl⟩
    | written => exact ⟨rfl, rfl, rfl, rfl, rfl, rfl, fun hfiles => Bool.noConfusion hfiles⟩
  | reserveBudget lease id amount requestSeconds =>
    obtain ⟨-, a, ha⟩ := committed_eq_ok.1 h
    rcases reserveBudget_ok ha with rfl | ⟨-, -, -, -, -, rfl⟩ <;>
      exact ⟨rfl, rfl, rfl, rfl, rfl, rfl, fun _ => rfl⟩
  | settleBudget lease id outcome requestSeconds =>
    obtain ⟨-, a, ha⟩ := committed_eq_ok.1 h
    obtain ⟨-, -, -, ⟨rfl, -⟩ | ⟨-, rfl⟩⟩ := settleBudget_ok ha <;>
      exact ⟨rfl, rfl, rfl, rfl, rfl, rfl, fun _ => rfl⟩
  | chargeTool lease operationId seconds maxOperations maxToolSeconds dispatchId =>
    obtain ⟨-, a, ha⟩ := committed_eq_ok.1 h
    obtain ⟨toolCharges, operations, total, rfl⟩ := chargeTool_ok ha
    exact ⟨rfl, rfl, rfl, rfl, rfl, rfl, fun _ => rfl⟩
  | _ => cases hop

end OpsPilot
