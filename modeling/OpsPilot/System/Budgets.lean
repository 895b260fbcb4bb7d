import OpsPilot.System.Frames
import OpsPilot.System.Leases

/-!
# Budgets over whole runs

A reservation is counted in one of three columns of its Run, by its state. The columns are
therefore sums over a table that other statements write, and the invariant `Balanced` says that
they agree.

* `exec_budgets`: only `reserveBudget` and `settleBudget` touch reservations or budget columns.
* `exec_balanced`: every operation keeps the balance.
* `exec_settled`: a settled reservation is never written again.
* **`budget_conservation`**: the columns are the sums, their total stays within the limit, a
  settlement counts once, and what became unknown is never released.
-/

namespace OpsPilot

/-- The Run has the budget it had. -/
def RunRow.SameAccount (r r' : RunRow) : Prop := r'.account = r.account

/-- Every Run keeps its budget, and a new Run has used none of it. -/
def AccountsKept (old new : Table UUID RunRow) : Prop :=
  Table.Frame RunRow.SameAccount (fun r => r.account = { budgetLimit := r.budgetLimit }) old new

theorem LedgersKept.accounts {old new : Table UUID RunRow} (h : LedgersKept old new) :
    AccountsKept old new :=
  h.mono (fun hr => congrArg Ledger.account hr) fun hn => congrArg Ledger.account hn

theorem AccountsKept.refl (t : Table UUID RunRow) : AccountsKept t t :=
  (LedgersKept.refl t).accounts

theorem AccountsKept.modify {t : Table UUID RunRow} {k : UUID} {f : RunRow → RunRow}
    (h : ∀ r, (f r).account = r.account) : AccountsKept t (t.modify k f) :=
  Table.Frame.of_modify (R := RunRow.SameAccount) (fun _ => rfl) h t k

/-! ## The sums -/

/-- What the reservations of a Run in a state add up to. -/
def amountIn (reservations : Table UUID ReservationRow) (runId : UUID)
    (state : ReservationState) : ℤ :=
  ((reservations.select fun _ b => b.runId = runId ∧ b.state = state).map fun e =>
    e.2.amount).sum

namespace ReservationRow

/-- The amount a reservation contributes to the sum of a Run and a state. -/
def counted (b : ReservationRow) (runId : UUID) (state : ReservationState) : ℤ :=
  if b.runId = runId ∧ b.state = state then b.amount else 0

theorem counted_of_ne {b : ReservationRow} {runId : UUID} (h : runId ≠ b.runId)
    (state : ReservationState) : b.counted runId state = 0 := if_neg fun hb => h hb.1.symm

/-- What a settlement leaves of a reservation. -/
def settled (b : ReservationRow) (outcome : Settlement) (requestSeconds : Option ℚ) :
    ReservationRow :=
  { b with state := outcome.state, seconds := some (requestSeconds.getD b.reservedSeconds) }

end ReservationRow

section Sums

variable {t : Table UUID ReservationRow} {id runId : UUID} {b : ReservationRow}

theorem amountIn_eq (t : Table UUID ReservationRow) (runId : UUID) (state : ReservationState) :
    amountIn t runId state = t.sum fun _ b => b.counted runId state := by
  rw [amountIn, Table.sum_select t (fun _ b => b.runId = runId ∧ b.state = state)
    fun _ b => b.amount]
  simp only [decide_eq_true_eq, ReservationRow.counted]

/-- A Run without reservations has nothing to account for. -/
theorem amountIn_eq_zero (h : ∀ id b, t.get id = some b → b.runId ≠ runId)
    (state : ReservationState) : amountIn t runId state = 0 := by
  have hempty : t.select (fun _ b => b.runId = runId ∧ b.state = state) = [] := by
    refine List.eq_nil_iff_forall_not_mem.2 fun e he => ?_
    obtain ⟨hget, hp⟩ := Table.mem_select_iff.1 he
    rw [decide_eq_true_eq] at hp
    exact h _ _ hget hp.1
  rw [amountIn, hempty]
  rfl

/-- A new reservation counts for its Run. -/
theorem amountIn_insert (hnone : t.get id = none) (state : ReservationState) :
    amountIn (t.insert id b) runId state = b.counted runId state + amountIn t runId state := by
  rw [amountIn_eq, amountIn_eq, Table.sum_insert _ hnone]

/-- A rewrite moves the amount of one reservation. -/
theorem amountIn_modify (hget : t.get id = some b) (f : ReservationRow → ReservationRow)
    (state : ReservationState) : amountIn (t.modify id f) runId state =
      amountIn t runId state + ((f b).counted runId state - b.counted runId state) := by
  rw [amountIn_eq, amountIn_eq, Table.sum_modify hget]

end Sums

/-! ## The invariant -/

/-- The budget columns of a Run are the sums of its reservations, and fit into its limit. -/
structure Accounted (reservations : Table UUID ReservationRow) (runId : UUID) (run : RunRow) :
    Prop where
  reserved : run.budgetReserved = amountIn reservations runId .reserved
  spent : run.budgetSpent = amountIn reservations runId .spent
  unknown : run.budgetUnknown = amountIn reservations runId .unknown
  limit : run.budgetReserved + run.budgetSpent + run.budgetUnknown ≤ run.budgetLimit

namespace Store

/-- Every Run is accounted for, and every reservation is a positive amount of some Run. -/
structure Balanced (s : Store) : Prop where
  accounted : ∀ {r run}, s.runs.get r = some run → Accounted s.reservations r run
  owned : ∀ {id b}, s.reservations.get id = some b → ∃ run, s.runs.get b.runId = some run
  positive : ∀ {id b}, s.reservations.get id = some b → 0 < b.amount

variable {s s' : Store} {clk : Clock} {lease : Lease}

/-- A change that writes no reservation and no budget column keeps the balance. -/
theorem Balanced.of_accounts (h : Balanced s) (hruns : AccountsKept s.runs s'.runs)
    (hres : s'.reservations = s.reservations) : Balanced s' where
  accounted {r run'} hrun' := by
    rw [hres]
    rcases hruns.cases hrun' with ⟨run, hrun, hsame⟩ | ⟨hnone, hunused⟩
    · obtain ⟨hreserved, hspent, hunknown, hlimit⟩ := h.accounted hrun
      simp only [RunRow.SameAccount, RunRow.account, Account.mk.injEq] at hsame
      obtain ⟨hl, hr, hs, hu⟩ := hsame
      exact ⟨hr.trans hreserved, hs.trans hspent, hu.trans hunknown,
        by rw [hl, hr, hs, hu]; exact hlimit⟩
    · have hother : ∀ id b, s.reservations.get id = some b → b.runId ≠ r := by
        intro id b hb heq
        obtain ⟨run, hrun⟩ := h.owned hb
        rw [heq, hnone] at hrun
        cases hrun
      have hzero := amountIn_eq_zero hother
      simp only [RunRow.account, Account.mk.injEq, true_and] at hunused
      obtain ⟨hr, hs, hu⟩ := hunused
      exact ⟨by rw [hzero, hr], by rw [hzero, hs], by rw [hzero, hu], by simp [hr, hs, hu]⟩
  owned {id b} hb := by
    rw [hres] at hb
    obtain ⟨run, hrun⟩ := h.owned hb
    obtain ⟨run', hrun', -⟩ := hruns.kept hrun
    exact ⟨run', hrun'⟩
  positive {id b} hb := h.positive (by rw [← hres]; exact hb)

/-- A write to one reservation and to its Run keeps the balance, if it keeps the balance of that
Run: no other Run counts the reservation, before or after. -/
theorem Balanced.of_one (h : Balanced s) {runId id : UUID} {run : RunRow} {f : RunRow → RunRow}
    {c : ReservationRow} {reservations : Table UUID ReservationRow}
    (hrun : s.runs.get runId = some run)
    (hself : reservations.get id = some c)
    (hothers : ∀ k, k ≠ id → reservations.get k = s.reservations.get k)
    (howner : c.runId = runId) (hpos : 0 < c.amount)
    (hsums : ∀ r state, r ≠ runId → amountIn reservations r state = amountIn s.reservations r state)
    (haccounted : Accounted reservations runId (f run)) :
    Balanced { s with reservations, runs := s.runs.modify runId f } where
  accounted {r run'} hrun' := by
    by_cases hr : r = runId
    · subst hr
      rw [Table.get_modify_self, hrun, Option.map_some, Option.some.injEq] at hrun'
      exact hrun' ▸ haccounted
    · rw [Table.get_modify_ne _ _ hr] at hrun'
      obtain ⟨hreserved, hspent, hunknown, hlimit⟩ := h.accounted hrun'
      exact ⟨by rw [hsums r _ hr, hreserved], by rw [hsums r _ hr, hspent],
        by rw [hsums r _ hr, hunknown], hlimit⟩
  owned {k b} hb := by
    have hfound : ∀ {r row}, s.runs.get r = some row →
        ∃ row', (s.runs.modify runId f).get r = some row' := by
      intro r row hrow
      rw [Table.get_modify, hrow]
      split <;> exact ⟨_, rfl⟩
    by_cases hk : k = id
    · subst hk
      rw [hself, Option.some.injEq] at hb
      rw [← hb, howner]
      exact hfound hrun
    · rw [hothers k hk] at hb
      obtain ⟨row, hrow⟩ := h.owned hb
      exact hfound hrow
  positive {k b} hb := by
    by_cases hk : k = id
    · subst hk
      rw [hself, Option.some.injEq] at hb
      exact hb ▸ hpos
    · rw [hothers k hk] at hb
      exact h.positive hb

variable {reservationId : UUID} {u : Unit} {requestSeconds : Option ℚ}

theorem reserveBudget_balanced (h : Balanced s) {amount : ℤ} {requestSeconds : ℚ}
    (hok : s.reserveBudget clk lease reservationId amount requestSeconds = .ok (u, s')) :
    Balanced s' := by
  rcases reserveBudget_ok hok with rfl | ⟨run, hrun, hpos, hnone, hle, rfl⟩
  · exact h
  let row : ReservationRow := { runId := lease.runId, amount, reservedSeconds := requestSeconds }
  have hsum : ∀ r state, amountIn (s.reservations.insert reservationId row) r state =
      row.counted r state + amountIn s.reservations r state := fun r state =>
    amountIn_insert hnone state
  refine h.of_one hrun (Table.get_insert_self ..) (fun k hk => Table.get_insert_ne _ _ hk) rfl hpos
    (fun r state hr => ?_) ?_
  · rw [hsum, ReservationRow.counted_of_ne hr, zero_add]
  · obtain ⟨hreserved, hspent, hunknown, -⟩ := h.accounted hrun
    refine ⟨?_, ?_, ?_, ?_⟩
    · rw [hsum, ← hreserved]
      simp [RunRow.reserve, ReservationRow.counted, row, add_comm]
    · rw [hsum, ← hspent]
      simp [RunRow.reserve, ReservationRow.counted, row]
    · rw [hsum, ← hunknown]
      simp [RunRow.reserve, ReservationRow.counted, row]
    · simp only [RunRow.reserve]
      omega

theorem settleBudget_balanced (h : Balanced s) {outcome : Settlement}
    (hok : s.settleBudget clk lease reservationId outcome requestSeconds = .ok (u, s')) :
    Balanced s' := by
  obtain ⟨b, hget, howner, ⟨rfl, -⟩ | ⟨hstate, rfl⟩⟩ := settleBudget_ok hok
  · exact h
  obtain ⟨run, hrun⟩ := h.owned hget
  rw [howner] at hrun
  have hsum : ∀ r state, amountIn (s.reservations.modify reservationId
        (·.settled outcome requestSeconds)) r state = amountIn s.reservations r state +
      ((b.settled outcome requestSeconds).counted r state - b.counted r state) :=
    fun r state => amountIn_modify hget _ state
  refine h.of_one (c := b.settled outcome requestSeconds) hrun
    (by rw [Table.get_modify_self, hget]; rfl) (fun k hk => Table.get_modify_ne _ _ hk) howner
    (h.positive (b := b) hget) (fun r state hr => ?_) ?_
  · have hne : r ≠ b.runId := howner ▸ hr
    have hne' : r ≠ (b.settled outcome requestSeconds).runId := hne
    exact (hsum r state).trans (by
      rw [ReservationRow.counted_of_ne hne, ReservationRow.counted_of_ne hne', sub_zero, add_zero])
  · obtain ⟨hreserved, hspent, hunknown, hlimit⟩ := h.accounted hrun
    refine ⟨((hsum _ _).trans ?_).symm, ((hsum _ _).trans ?_).symm, ((hsum _ _).trans ?_).symm, ?_⟩
    · rw [← hreserved]
      cases outcome <;>
        simp [RunRow.settle, ReservationRow.counted, ReservationRow.settled, Settlement.state,
          howner, hstate, sub_eq_add_neg]
    · rw [← hspent]
      cases outcome <;>
        simp [RunRow.settle, ReservationRow.counted, ReservationRow.settled, Settlement.state,
          howner, hstate]
    · rw [← hunknown]
      cases outcome <;>
        simp [RunRow.settle, ReservationRow.counted, ReservationRow.settled, Settlement.state,
          howner, hstate]
    · cases outcome <;> simp only [RunRow.settle] <;> omega

/-- A settled reservation is not settled again. -/
theorem settleBudget_settled {b : ReservationRow} {outcome : Settlement}
    (hget : s.reservations.get reservationId = some b) (hsettled : b.state ≠ .reserved)
    (hok : s.settleBudget clk lease reservationId outcome requestSeconds = .ok (u, s')) :
    s' = s := by
  obtain ⟨b', hget', -, ⟨rfl, -⟩ | ⟨hstate, -⟩⟩ := settleBudget_ok hok
  · rfl
  · rw [hget, Option.some.injEq] at hget'
    exact absurd (hget' ▸ hstate) hsettled

/-- The same settlement again is accepted, and changes nothing. -/
theorem settleBudget_repeat {outcome : Settlement}
    (hok : s.settleBudget clk lease reservationId outcome requestSeconds = .ok (u, s')) :
    s'.settleBudget clk lease reservationId outcome requestSeconds = .ok (u, s') := by
  have hnot : outcome.state ≠ .reserved := by cases outcome <;> simp [Settlement.state]
  simp only [settleBudget, refuse_bind_eq_ok, require_bind_eq_ok, Option.filter_eq_some_iff,
    decide_eq_true_eq] at hok ⊢
  obtain ⟨hseconds, row, hrow, hfence, b, ⟨hget, howner⟩, hok⟩ := hok
  obtain ⟨hrun, hinc, hscope⟩ := fencedRow_eq_some.1 hrow
  refine ⟨hseconds, ?_⟩
  split at hok
  · next hsettled =>
    simp only [refuse_bind_eq_ok, pure_eq_ok, Prod.mk.injEq, ne_eq, not_not] at hok
    obtain ⟨hsame, -, rfl⟩ := hok
    refine ⟨row, hrow, hfence, b, ⟨hget, howner⟩, ?_⟩
    rw [if_pos hsettled, refuse_bind_eq_ok]
    exact ⟨not_not.2 hsame, rfl⟩
  · simp only [pure_eq_ok, Prod.mk.injEq] at hok
    obtain ⟨-, rfl⟩ := hok
    -- the settlement writes no column the fence reads
    refine ⟨{ row with run := row.run.settle outcome b.amount }, ?_, ?_,
      b.settled outcome requestSeconds, ⟨?_, howner⟩, ?_⟩
    · refine fencedRow_eq_some.2 ⟨by simp [hrun], ?_, hscope⟩
      cases outcome <;> exact hinc
    · cases outcome <;> exact hfence
    · simp [hget, ReservationRow.settled]
    · have hsettled : (b.settled outcome requestSeconds).state ≠ .reserved := hnot
      rw [if_pos hsettled, refuse_bind_eq_ok]
      exact ⟨not_not.2 rfl, rfl⟩

end Store

open Store

section

variable [Texts] {op : Op} {clk : Clock} {s s' : Store} {issued : Issued}

/-- What an operation does to reservations and budgets: only a reservation and a settlement do
anything. -/
inductive BudgetChange (s s' : Store) : Prop
  | reserve {clk : Clock} {lease : Lease} {id : UUID} {amount : ℤ} {requestSeconds : ℚ} {u : Unit}
      (h : s.reserveBudget clk lease id amount requestSeconds = .ok (u, s'))
  | settle {clk : Clock} {lease : Lease} {id : UUID} {outcome : Settlement}
      {requestSeconds : Option ℚ} {u : Unit}
      (h : s.settleBudget clk lease id outcome requestSeconds = .ok (u, s'))
  | none (hreservations : s'.reservations = s.reservations) (hruns : AccountsKept s.runs s'.runs)

theorem exec_budgets (h : op.exec clk s = .ok (issued, s')) : BudgetChange s s' := by
  by_cases hop : op.records = false
  · have hkept := exec_kept h hop
    exact .none hkept.reservations hkept.runs.accounts
  cases op with
  | reserveBudget lease id amount requestSeconds =>
    obtain ⟨-, a, ha⟩ := committed_eq_ok.1 h
    exact .reserve ha
  | settleBudget lease id outcome requestSeconds =>
    obtain ⟨-, a, ha⟩ := committed_eq_ok.1 h
    exact .settle ha
  | commitStep lease logicalKey response fresh =>
    obtain ⟨-, a, ha⟩ := committed_eq_ok.1 h
    cases commitStep_ok ha with
    | late _ hlate =>
      rcases lateResult_ok hlate with ⟨rfl, -⟩ | ⟨-, -, -, rfl⟩ <;> exact .none rfl (.refl _)
    | replay => exact .none rfl (.refl _)
    | committed =>
      refine .none rfl ?_
      simp only [commitResponse]
      split
      · exact AccountsKept.modify fun r => rfl
      · exact .refl _
  | commitTool lease stepId ordinal result fresh =>
    obtain ⟨-, a, ha⟩ := committed_eq_ok.1 h
    cases commitTool_ok ha with
    | late hlate =>
      rcases lateResult_ok hlate with ⟨rfl, -⟩ | ⟨-, -, -, rfl⟩ <;> exact .none rfl (.refl _)
    | replay => exact .none rfl (.refl _)
    | committed => exact .none rfl (.refl _)
  | beginRound lease logicalKey =>
    obtain ⟨-, a, ha⟩ := committed_eq_ok.1 h
    obtain ⟨-, -, -, -, -, ⟨rfl, -⟩ | ⟨-, -, rfl⟩⟩ := beginRound_ok ha <;> exact .none rfl (.refl _)
  | publish lease conclusion stepId fresh =>
    obtain ⟨-, a, ha⟩ := committed_eq_ok.1 h
    cases publish_ok ha with
    | replay => exact .none rfl (.refl _)
    | fenced _ _ hlate =>
      rcases lateResult_ok hlate with ⟨rfl, -⟩ | ⟨-, -, -, rfl⟩ <;> exact .none rfl (.refl _)
    | written =>
      refine .none rfl ?_
      simp only [published]
      exact AccountsKept.modify fun r => rfl
  | appendInput incidentId inputId content actor =>
    obtain ⟨-, a, ha⟩ := committed_eq_ok.1 h
    rcases appendInput_ok ha with rfl | ⟨incident, -, -, rfl⟩ <;> exact .none rfl (.refl _)
  | control r =>
    obtain ⟨-, a, ha⟩ := committed_eq_ok.1 h
    obtain ⟨incident, -, -, -, hdecided⟩ := control_ok ha
    obtain ⟨t, hkept, rfl | ⟨_, _, _, _, _, _, -, rfl⟩⟩ := hdecided.quiet
    · exact .none hkept.reservations hkept.runs.ledgers.accounts
    · exact .none hkept.reservations hkept.runs.ledgers.accounts
  | _ => exact absurd rfl hop

/-- Every operation keeps the balance. -/
theorem exec_balanced (h : op.exec clk s = .ok (issued, s')) (hbalanced : Balanced s) :
    Balanced s' := by
  cases exec_budgets h with
  | reserve h => exact reserveBudget_balanced hbalanced h
  | settle h => exact settleBudget_balanced hbalanced h
  | none hreservations hruns => exact hbalanced.of_accounts hruns hreservations

/-- A settled reservation is never written again. -/
theorem exec_settled (h : op.exec clk s = .ok (issued, s')) {id : UUID} {b : ReservationRow}
    (hget : s.reservations.get id = some b) (hsettled : b.state ≠ .reserved) :
    s'.reservations.get id = some b := by
  cases exec_budgets h with
  | @reserve _ _ id' _ _ _ h =>
    rcases reserveBudget_ok h with rfl | ⟨run, -, -, hnone, -, rfl⟩
    · exact hget
    · have hne : id ≠ id' := by
        rintro rfl
        rw [hnone] at hget
        cases hget
      rw [Table.get_insert_ne _ _ hne, hget]
  | @settle _ _ id' _ _ _ h =>
    obtain ⟨b', hget', -, ⟨rfl, -⟩ | ⟨hstate, rfl⟩⟩ := settleBudget_ok h
    · exact hget
    · have hne : id ≠ id' := by
        rintro rfl
        rw [hget, Option.some.injEq] at hget'
        exact hsettled (hget' ▸ hstate)
      rw [Table.get_modify_ne _ _ hne, hget]
  | none hreservations hruns => rw [hreservations, hget]

/-- The Run may have spent more since, but has the limit it had, and what was unknown is. -/
def RunRow.Occupied (run run' : RunRow) : Prop :=
  run'.budgetLimit = run.budgetLimit ∧ run.budgetUnknown ≤ run'.budgetUnknown

/-- No operation moves the limit of a Run, or takes anything out of its unknown column. -/
theorem exec_occupied (h : op.exec clk s = .ok (issued, s')) (hbalanced : Balanced s) {r : UUID}
    {run : RunRow} (hrun : s.runs.get r = some run) :
    ∃ run', s'.runs.get r = some run' ∧ run.Occupied run' := by
  cases exec_budgets h with
  | @reserve _ lease _ amount _ _ h =>
    rcases reserveBudget_ok h with rfl | ⟨-, -, -, -, -, rfl⟩
    · exact ⟨run, hrun, rfl, le_rfl⟩
    · by_cases hr : r = lease.runId
      · exact ⟨run.reserve amount, by rw [hr, Table.get_modify_self, ← hr, hrun]; rfl, rfl, le_rfl⟩
      · exact ⟨run, by rw [Table.get_modify_ne _ _ hr, hrun], rfl, le_rfl⟩
  | @settle _ lease _ outcome _ _ h =>
    obtain ⟨b, hget, -, ⟨rfl, -⟩ | ⟨-, rfl⟩⟩ := settleBudget_ok h
    · exact ⟨run, hrun, rfl, le_rfl⟩
    · have hpos := hbalanced.positive hget
      by_cases hr : r = lease.runId
      · refine ⟨run.settle outcome b.amount,
          by rw [hr, Table.get_modify_self, ← hr, hrun]; rfl, ?_⟩
        cases outcome <;> refine ⟨rfl, ?_⟩ <;> simp only [RunRow.settle] <;> omega
      · exact ⟨run, by rw [Table.get_modify_ne _ _ hr, hrun], rfl, le_rfl⟩
  | none hreservations hruns =>
    obtain ⟨run', hrun', hsame⟩ := hruns.kept hrun
    simp only [RunRow.SameAccount, RunRow.account, Account.mk.injEq] at hsame
    exact ⟨run', hrun', hsame.1, hsame.2.2.2.ge⟩

end

namespace State

variable [Texts] {σ τ : State}

theorem reachable_balanced (h : system.Reachable σ) : Balanced σ.store := by
  refine store_invariant ⟨fun hrun => ?_, fun hb => ?_, fun hb => ?_⟩
    (fun op clk s s' issued hbalanced hok => exec_balanced hok hbalanced) h
  · cases hrun
  · cases hb
  · cases hb

theorem reachable_occupied (h : system.Reachable σ) {calls : List Call}
    (hrun : system.Run σ calls τ) {r : UUID} {run : RunRow} (hget : σ.store.runs.get r = some run) :
    ∃ run', τ.store.runs.get r = some run' ∧ run.Occupied run' := by
  induction hrun generalizing run with
  | nil σ => exact ⟨run, hget, rfl, le_rfl⟩
  | @cons σ σ₁ τ call calls hstep hrun ih =>
    obtain ⟨run₁, hget₁, hlimit₁, hunknown₁⟩ :
        ∃ run₁, σ₁.store.runs.get r = some run₁ ∧ run.Occupied run₁ :=
      step_store (P := fun s => ∃ run₁, s.runs.get r = some run₁ ∧ run.Occupied run₁) hstep
        ⟨run, hget, rfl, le_rfl⟩ fun _ _ hok => exec_occupied hok (reachable_balanced h) hget
    obtain ⟨run', hget', hlimit', hunknown'⟩ := ih (h.step hstep) hget₁
    exact ⟨run', hget', hlimit'.trans hlimit₁, hunknown₁.trans hunknown'⟩

theorem settled_of_run {calls : List Call} (hrun : system.Run σ calls τ) {id : UUID}
    {b : ReservationRow} (hget : σ.store.reservations.get id = some b)
    (hsettled : b.state ≠ .reserved) : τ.store.reservations.get id = some b :=
  hrun.stable (P := fun σ => σ.store.reservations.get id = some b) (fun hstep hb =>
    step_store (P := fun s => s.reservations.get id = some b) hstep hb fun _ _ hok =>
      exec_settled hok hb hsettled) hget

/-- **Budget conservation.** In every reachable state the budget columns of every Run are the
sums over its reservations and fit into its limit. A settlement may be repeated; a settled
reservation stays as it is, whatever is called later, and no further settlement of it changes
anything. The unknown column of a Run never goes down, and its limit never moves. -/
theorem budget_conservation (h : system.Reachable σ) :
    (∀ r run, σ.store.runs.get r = some run → Accounted σ.store.reservations r run) ∧
    (∀ clk lease id outcome requestSeconds u s',
      σ.store.settleBudget clk lease id outcome requestSeconds = .ok (u, s') →
        s'.settleBudget clk lease id outcome requestSeconds = .ok (u, s')) ∧
    (∀ id b, σ.store.reservations.get id = some b → b.state ≠ .reserved →
      ∀ calls τ, system.Run σ calls τ → τ.store.reservations.get id = some b ∧
        ∀ clk lease outcome requestSeconds u s',
          τ.store.settleBudget clk lease id outcome requestSeconds = .ok (u, s') →
            s' = τ.store) ∧
    ∀ r run, σ.store.runs.get r = some run → ∀ calls τ, system.Run σ calls τ →
      ∃ run', τ.store.runs.get r = some run' ∧ run'.budgetLimit = run.budgetLimit ∧
        run.budgetUnknown ≤ run'.budgetUnknown := by
  refine ⟨fun r run hrun => (reachable_balanced h).accounted hrun, ?_, ?_, ?_⟩
  · intro clk lease id outcome requestSeconds u s' hok
    exact settleBudget_repeat hok
  · intro id b hget hsettled calls τ hrun
    have hlater := settled_of_run hrun hget hsettled
    exact ⟨hlater, fun clk lease outcome requestSeconds u s' hok =>
      settleBudget_settled hlater hsettled hok⟩
  · intro r run hget calls τ hrun
    exact reachable_occupied h hrun hget

end State

namespace Scenario

/-- The worker reserves two requests of a minute each, and never learns their outcome. -/
def budgetCalls : List Call :=
  claimCalls ++ [(Op.reserveBudget lease 7 2 60).at (seconds 1),
    (Op.settleBudget lease 7 .unknown none).at (seconds 2)]

/-- The two requests stay occupied whatever is called later. -/
theorem budget_conservation_unknown :
    system.Reachable (State.reached budgetCalls) ∧
      ∀ calls τ, system.Run (State.reached budgetCalls) calls τ → ∃ run,
        τ.store.runs.get 2 = some run ∧ run.budgetLimit = 1000 ∧ 2 ≤ run.budgetUnknown := by
  have hreachable : system.Reachable (State.reached budgetCalls) :=
    State.reachable_reached (by decide)
  refine ⟨hreachable, fun calls τ hrun => ?_⟩
  obtain ⟨run, hget, hlimit, hunknown⟩ : ∃ run,
      (State.reached budgetCalls).store.runs.get 2 = some run ∧ run.budgetLimit = 1000 ∧
        run.budgetUnknown = 2 := ⟨_, rfl, by decide, by decide⟩
  obtain ⟨run', hget', hlimit', hunknown'⟩ :=
    (State.budget_conservation hreachable).2.2.2 2 run hget calls τ hrun
  exact ⟨run', hget', hlimit'.trans hlimit, hunknown ▸ hunknown'⟩

end Scenario

end OpsPilot
