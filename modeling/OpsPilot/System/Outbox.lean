import OpsPilot.Foundations.Transition
import OpsPilot.Persistence.Outbox

/-!
# Delivering the outbox

The workers that deliver the outbox, as a transition system over the table `opspilot_trace_outbox`.
A delivery cycle is a sequence of transactions with the sending in between, and the cycles of any
number of workers interleave: the count of a trim and its `UPDATE` are two steps, a clock is read
before the statement that uses it, and a worker may die at any point. Business transactions add
rows and the cleanup deletes them.

* `Outbox.Step`: one transaction, one sending, one death.
* `Outbox.Sound`: every attempt that was claimed has its own number, up to the limit.
* `Outbox.Punctual`: what holds of a leased row as long as every worker settles within its lease.
* **`Outbox.delivery_discipline`**: a final row stays as it is, a row is sent at most eight times,
  and who may change a row.
-/

namespace OpsPilot

namespace Outbox

/-- `BATCH_SIZE`. -/
def batchSize : ℕ := 100

/-- `BACKLOG_LIMIT`. -/
def backlogLimit : ℕ := 20000

/-- `MAX_ATTEMPTS`. -/
def maxAttempts : ℕ := 8

/-- `CLAIM_LEASE`: how long a claimed row belongs to its claimer. -/
def claimLease : ℤ := seconds 30

/-- `backoff_seconds`: 5 s doubling, capped at 10 minutes. -/
def backoffSeconds (failures : ℕ) : ℤ := min (5 * 2 ^ (failures - 1)) 600

/-- A transaction that settles some claimed rows. -/
inductive Settling
  | delivered (rows : List ClaimedRow)
  | dropped (rows : List ClaimedRow) (reason : DropReason)
  | retried (rows : List ClaimedRow)
  deriving DecidableEq

namespace Settling

/-- The rows it is about. -/
def rows : Settling → List ClaimedRow
  | delivered rows | dropped rows _ | retried rows => rows

/-- Its `UPDATE`. -/
def run (x : Settling) (now : Time) (t : OutboxTable) : OutboxTable :=
  match x with
  | delivered rows => t.markDelivered (rows.map ClaimedRow.entryId) now
  | dropped rows reason => t.markDropped (rows.map ClaimedRow.entryId) reason now
  | retried rows =>
    t.scheduleRetry (rows.map fun r => (r.entryId, seconds (backoffSeconds r.attempts))) now

end Settling

/-- A failed sending that may be tried again. -/
def tryAgain (rows : List ClaimedRow) : List Settling :=
  [.dropped (rows.filter fun r => maxAttempts ≤ r.attempts) .maxAttempts,
    .retried (rows.filter fun r => r.attempts < maxAttempts)]

/-- What `_send` does with the answer of the transport: a status, or `none` if it raised. -/
def settlings (rows : List ClaimedRow) (status : Option ℕ) : List Settling :=
  match status with
  | some code =>
    if 200 ≤ code ∧ code < 300 then [.delivered rows]
    else if 400 ≤ code ∧ code < 500 ∧ code ∉ [408, 429] then [.dropped rows .rejected]
    else tryAgain rows
  | none => tryAgain rows

/-- Where a worker is in its delivery cycle. -/
inductive Phase
  /-- It counted the backlog, and this many rows are beyond the limit. -/
  | counted (excess : ℕ)
  /-- The backlog is trimmed; next it claims. -/
  | trimmed
  /-- It claimed these rows and builds their spans. -/
  | claimed (rows : List ClaimedRow)
  /-- It has these transactions to run, and then these rows to send. With neither, the cycle is
  over. -/
  | working (todo : List Settling) (unsent : List ClaimedRow)
  deriving DecidableEq

namespace Phase

/-- The rows the worker has claimed and not settled. -/
def held : Phase → List ClaimedRow
  | counted _ | trimmed => []
  | claimed rows => rows
  | working todo unsent => todo.flatMap Settling.rows ++ unsent

/-- The rows it may still send. -/
def unsent : Phase → List ClaimedRow
  | counted _ | trimmed => []
  | claimed rows => rows
  | working _ unsent => unsent

end Phase

/-- The first half of `_send`: the spans of the rows `bad` do not build, and the batch of the others
encodes or does not. -/
def encoded (rows : List ClaimedRow) (bad : List ℕ) (encodes : Bool) : Phase :=
  let failed := rows.filter fun r => r.entryId ∈ bad
  let sent := rows.filter fun r => r.entryId ∉ bad
  if encodes then .working [.dropped failed .unserializable] sent
  else .working [.dropped failed .unserializable, .dropped sent .unserializable] []

/-- A worker, with the time its last claim set: the worker itself does not keep it. -/
structure Worker where
  phase : Phase := .working [] []
  leaseUntil : Time := 0

end Outbox

open Outbox in
/-- The outbox: its table, the database clock, the `entry_id`s handed out, the workers, and the
attempts the endpoint was sent. -/
structure Outbox where
  table : OutboxTable := ∅
  now : Time := 0
  issued : List ℕ := []
  workers : ℕ → Worker := fun _ => {}
  sent : List ClaimedRow := []

namespace Outbox

/-- The rows a worker holds. -/
def held (s : Outbox) (w : ℕ) : List ClaimedRow := (s.workers w).phase.held

/-- The rows a worker may still send. -/
def unsent (s : Outbox) (w : ℕ) : List ClaimedRow := (s.workers w).phase.unsent

/-- A worker moves on. -/
def goTo (s : Outbox) (w : ℕ) (phase : Phase) : Outbox :=
  { s with workers := Function.update s.workers w { s.workers w with phase } }

/-- The step of a worker, of a business transaction, of the cleanup, or of the clock. -/
inductive Op
  | tick (now : Time)
  | insert (entryId : ℕ) (idempotencyKey : String) (createdAt : Time)
  | purge (now : Time) (exportEnabled : Bool)
  | count (w : ℕ)
  | trim (w : ℕ) (now : Time) (skip : List ℕ)
  | claim (w : ℕ) (now : Time) (skip : List ℕ)
  | encode (w : ℕ) (bad : List ℕ) (encodes : Bool)
  | settle (w : ℕ) (now : Time)
  | send (w : ℕ) (status : Option ℕ)
  | crash (w : ℕ)

/-- One step. A transaction takes effect when it commits; the time `now` it works with was read
before, and `skip` are the rows it found locked. -/
inductive Step : Outbox → Op → Outbox → Prop
  | tick {s : Outbox} {now : Time} (hnow : s.now ≤ now) : Step s (.tick now) { s with now }
  | insert {s : Outbox} {entryId : ℕ} {key : String} {createdAt : Time}
      (hfresh : entryId ∉ s.issued) :
      Step s (.insert entryId key createdAt)
        { s with
          table := s.table.insertEntry entryId key createdAt, issued := entryId :: s.issued }
  | purge {s : Outbox} {now : Time} {exportEnabled : Bool} (hnow : now ≤ s.now) :
      Step s (.purge now exportEnabled) { s with table := s.table.purgeExpired now exportEnabled }
  | count {s : Outbox} {w : ℕ} (hphase : (s.workers w).phase = .working [] []) :
      Step s (.count w) (s.goTo w
        (if s.table.countPending ≤ backlogLimit then .trimmed
          else .counted (s.table.countPending - backlogLimit)))
  | trim {s : Outbox} {w excess : ℕ} {now : Time} {skip : List ℕ} (hnow : now ≤ s.now)
      (hphase : (s.workers w).phase = .counted excess) :
      Step s (.trim w now skip)
        { s.goTo w .trimmed with table := s.table.trimBacklog excess now claimLease skip }
  | claim {s : Outbox} {w : ℕ} {now : Time} {skip : List ℕ} (hnow : now ≤ s.now)
      (hphase : (s.workers w).phase = .trimmed) :
      Step s (.claim w now skip)
        { s with
          table := (s.table.claim batchSize claimLease now maxAttempts skip).2
          workers := Function.update s.workers w {
            phase := .claimed (s.table.claim batchSize claimLease now maxAttempts skip).1
            leaseUntil := now + claimLease } }
  | encode {s : Outbox} {w : ℕ} {rows : List ClaimedRow} {bad : List ℕ} {encodes : Bool}
      (hphase : (s.workers w).phase = .claimed rows) :
      Step s (.encode w bad encodes) (s.goTo w (encoded rows bad encodes))
  | settle {s : Outbox} {w : ℕ} {x : Settling} {todo : List Settling} {unsent : List ClaimedRow}
      {now : Time} (hnow : now ≤ s.now)
      (hphase : (s.workers w).phase = .working (x :: todo) unsent) :
      Step s (.settle w now)
        { s.goTo w (.working todo unsent) with table := x.run now s.table }
  | send {s : Outbox} {w : ℕ} {rows : List ClaimedRow} {status : Option ℕ} (hne : rows ≠ [])
      (hphase : (s.workers w).phase = .working [] rows) :
      Step s (.send w status)
        { s.goTo w (.working (settlings rows status) []) with sent := rows ++ s.sent }
  | crash {s : Outbox} {w : ℕ} : Step s (.crash w) (s.goTo w (.working [] []))

/-- The step, computed: `none` where it is not the worker's turn to take it. -/
def exec (s : Outbox) : Op → Option Outbox
  | .tick now => if s.now ≤ now then some { s with now } else none
  | .insert entryId key createdAt =>
    if entryId ∈ s.issued then none
    else some { s with
      table := s.table.insertEntry entryId key createdAt, issued := entryId :: s.issued }
  | .purge now exportEnabled =>
    if now ≤ s.now then some { s with table := s.table.purgeExpired now exportEnabled } else none
  | .count w =>
    match (s.workers w).phase with
    | .working [] [] => some (s.goTo w
        (if s.table.countPending ≤ backlogLimit then .trimmed
          else .counted (s.table.countPending - backlogLimit)))
    | _ => none
  | .trim w now skip =>
    match (s.workers w).phase with
    | .counted excess =>
      if now ≤ s.now then
        some { s.goTo w .trimmed with table := s.table.trimBacklog excess now claimLease skip }
      else none
    | _ => none
  | .claim w now skip =>
    match (s.workers w).phase with
    | .trimmed =>
      if now ≤ s.now then
        let claimed := s.table.claim batchSize claimLease now maxAttempts skip
        some { s with
          table := claimed.2
          workers := Function.update s.workers w {
            phase := .claimed claimed.1, leaseUntil := now + claimLease } }
      else none
    | _ => none
  | .encode w bad encodes =>
    match (s.workers w).phase with
    | .claimed rows => some (s.goTo w (encoded rows bad encodes))
    | _ => none
  | .settle w now =>
    match (s.workers w).phase with
    | .working (x :: todo) unsent =>
      if now ≤ s.now then some { s.goTo w (.working todo unsent) with table := x.run now s.table }
      else none
    | _ => none
  | .send w status =>
    match (s.workers w).phase with
    | .working [] rows =>
      if rows = [] then none
      else some { s.goTo w (.working (settlings rows status) []) with sent := rows ++ s.sent }
    | _ => none
  | .crash w => some (s.goTo w (.working [] []))

/-- The deliveries, from an empty table on. -/
def delivery : LTS Outbox Op where
  Init s := s.table = ∅ ∧ (∀ w, (s.workers w).phase = .working [] []) ∧ s.sent = []
  Step := Step

/-! ## What a step does -/

variable {s t : Outbox} {op : Op}

theorem step_iff : Step s op t ↔ s.exec op = some t := by
  constructor
  · intro h
    cases h with
    | tick hnow => simp [exec, hnow]
    | insert hfresh => simp [exec, hfresh]
    | purge hnow => simp [exec, hnow]
    | count hphase => simp [exec, hphase]
    | trim hnow hphase => simp [exec, hnow, hphase]
    | claim hnow hphase => simp [exec, hnow, hphase]
    | encode hphase => simp [exec, hphase]
    | settle hnow hphase => simp [exec, hnow, hphase]
    | send hne hphase => simp [exec, hne, hphase]
    | crash => rfl
  · intro h
    unfold exec at h
    split at h
    · split at h <;> cases h
      exact .tick ‹_›
    · split at h <;> cases h
      exact .insert ‹_›
    · split at h <;> cases h
      exact .purge ‹_›
    · split at h <;> cases h
      exact .count ‹_›
    · split at h
      · split at h <;> cases h
        exact .trim ‹_› ‹_›
      · cases h
    · split at h
      · split at h <;> cases h
        exact .claim ‹_› ‹_›
      · cases h
    · split at h <;> cases h
      exact .encode ‹_›
    · split at h
      · split at h <;> cases h
        exact .settle ‹_› ‹_›
      · cases h
    · split at h
      · split at h <;> cases h
        exact .send ‹_› ‹_›
      · cases h
    · cases h
      exact .crash

/-- The state after a list of steps, if they can be taken. -/
def runAll (s : Outbox) (ops : List Op) : Option Outbox := ops.foldlM exec s

variable {ops : List Op} {skip : List ℕ}

theorem run_runAll (h : s.runAll ops = some t) : delivery.Run s ops t := by
  induction ops generalizing s with
  | nil =>
    obtain rfl := Option.some.inj h
    exact .nil s
  | cons op ops ih =>
    rw [runAll, List.foldlM_cons, Option.bind_eq_bind, Option.bind_eq_some_iff] at h
    obtain ⟨u, hstep, hrest⟩ := h
    exact .cons (step_iff.2 hstep) (ih hrest)

@[simp] theorem held_goTo (s : Outbox) (w w' : ℕ) (phase : Phase) :
    (s.goTo w phase).held w' = if w' = w then phase.held else s.held w' := by
  by_cases h : w' = w <;> simp [held, goTo, h]

@[simp] theorem unsent_goTo (s : Outbox) (w w' : ℕ) (phase : Phase) :
    (s.goTo w phase).unsent w' = if w' = w then phase.unsent else s.unsent w' := by
  by_cases h : w' = w <;> simp [unsent, goTo, h]

theorem Settling.run_grows {limit : ℕ} {fresh : ℕ → Prop} (x : Settling) (now : Time)
    (t : OutboxTable) : OutboxTable.Grows limit fresh t (x.run now t) := by
  cases x with
  | delivered rows => exact OutboxTable.markDelivered_grows _ _
  | dropped rows reason => exact OutboxTable.markDropped_grows _ _ _
  | retried rows => exact OutboxTable.scheduleRetry_grows _ _

/-- A settling changes pending rows it is about, and not their attempts. -/
theorem Settling.run_row {x : Settling} {now : Time} {t : OutboxTable} {id : ℕ} {row' : OutboxRow}
    (h : (x.run now t).get id = some row') :
    ∃ row, t.get id = some row ∧
      (row' = row ∨ (∃ c ∈ x.rows, c.entryId = id) ∧ row.state = .pending) := by
  cases x with
  | delivered rows =>
    obtain ⟨row, hrow, hsame | ⟨hid, hpending, -⟩⟩ := OutboxTable.markDelivered_row h
    · exact ⟨row, hrow, .inl hsame⟩
    · exact ⟨row, hrow, .inr ⟨List.mem_map.1 hid, hpending⟩⟩
  | dropped rows reason =>
    obtain ⟨row, hrow, hsame | ⟨hid, hpending, -⟩⟩ := OutboxTable.markDropped_row h
    · exact ⟨row, hrow, .inl hsame⟩
    · exact ⟨row, hrow, .inr ⟨List.mem_map.1 hid, hpending⟩⟩
  | retried rows =>
    obtain ⟨row, hrow, hsame | ⟨hid, hpending, -⟩⟩ := OutboxTable.scheduleRetry_row h
    · exact ⟨row, hrow, .inl hsame⟩
    · rw [List.map_map] at hid
      exact ⟨row, hrow, .inr ⟨List.mem_map.1 hid, hpending⟩⟩

/-- Every row of the table is one that was there, advanced, or a new one. -/
theorem Step.grows (h : Step s op t) :
    OutboxTable.Grows maxAttempts (· ∉ s.issued) s.table t.table := by
  cases h with
  | tick | count | encode | send | crash => exact .refl _
  | insert hfresh => exact OutboxTable.insertEntry_grows hfresh _ _
  | purge => exact OutboxTable.purgeExpired_grows _ _
  | trim => exact OutboxTable.trimBacklog_grows _ _ _ _
  | claim => exact OutboxTable.claim_grows _ _ _ _
  | settle => exact Settling.run_grows _ _ _

theorem Step.issued_subset (h : Step s op t) : s.issued ⊆ t.issued := by
  cases h with
  | insert => exact List.subset_cons_self _ _
  | _ => exact List.Subset.refl _

/-- A row that is added has an `entry_id` that is handed out. -/
theorem Step.added (h : Step s op t) {id : ℕ} {row : OutboxRow} (hrow : t.table.get id = some row) :
    (∃ row, s.table.get id = some row) ∨ id ∈ t.issued := by
  cases h with
  | insert hfresh =>
    rcases OutboxTable.insertEntry_row hrow with hold | ⟨rfl, -⟩
    · exact .inl ⟨row, hold⟩
    · exact .inr List.mem_cons_self
  | tick | count | encode | send | crash => exact .inl ⟨row, hrow⟩
  | purge => exact .inl ⟨row, OutboxTable.purgeExpired_row hrow⟩
  | trim =>
    obtain ⟨row, hrow, -⟩ := OutboxTable.trimBacklog_row hrow
    exact .inl ⟨row, hrow⟩
  | claim =>
    obtain ⟨row, hrow, -⟩ := OutboxTable.claim_row hrow
    exact .inl ⟨row, hrow⟩
  | settle =>
    obtain ⟨row, hrow, -⟩ := Settling.run_row hrow
    exact .inl ⟨row, hrow⟩

/-- The rows of the settlings after a sending are those that were sent. -/
theorem settlings_rows (rows : List ClaimedRow) (status : Option ℕ) :
    ((settlings rows status).flatMap Settling.rows).Perm rows := by
  have hagain : ((tryAgain rows).flatMap Settling.rows).Perm rows := by
    have hnot : ∀ r : ClaimedRow,
        decide (r.attempts < maxAttempts) = !decide (maxAttempts ≤ r.attempts) := by
      intro r
      rw [← decide_not]
      simp
    simpa [tryAgain, Settling.rows, hnot] using
      List.filter_append_perm (fun r : ClaimedRow => decide (maxAttempts ≤ r.attempts)) rows
  unfold settlings
  split
  · split
    · simp [Settling.rows]
    · split
      · simp [Settling.rows]
      · exact hagain
  · exact hagain

/-- The rows a claim of the worker hands out. -/
def handedOut (s : Outbox) (now : Time) (skip : List ℕ) : List ClaimedRow :=
  (s.table.claim batchSize claimLease now maxAttempts skip).1

/-- A worker holds no more than before, unless it claims. -/
theorem Step.held (h : Step s op t) (w : ℕ) :
    (t.held w).Subperm (s.held w) ∨
      ∃ now skip, op = .claim w now skip ∧ s.held w = [] ∧ t.held w = s.handedOut now skip := by
  cases h with
  | tick | insert | purge => exact .inl (List.Subperm.refl _)
  | @count w' hphase =>
    refine .inl ?_
    rw [held_goTo]
    split
    · split <;> exact List.nil_subperm
    · exact List.Subperm.refl _
  | @trim w' excess now skip hnow hphase =>
    refine .inl ?_
    change ((s.goTo w' .trimmed).held w).Subperm _
    rw [held_goTo]
    split
    · exact List.nil_subperm
    · exact List.Subperm.refl _
  | @claim w' now skip hnow hphase =>
    by_cases hw : w = w'
    · subst hw
      refine .inr ⟨now, skip, rfl, ?_, ?_⟩
      · simp [Outbox.held, hphase, Phase.held]
      · simp [Outbox.held, handedOut, Phase.held]
    · refine .inl ?_
      simpa [Outbox.held, Function.update_of_ne hw] using List.Subperm.refl _
  | @encode w' rows bad encodes hphase =>
    refine .inl ?_
    rw [held_goTo]
    split
    · next hw =>
      subst hw
      have hheld : s.held w = rows := by simp [Outbox.held, hphase, Phase.held]
      have hsplit := List.filter_append_perm (fun r : ClaimedRow => decide (r.entryId ∈ bad)) rows
      rw [hheld, encoded]
      split <;> simpa [Phase.held, Settling.rows] using hsplit.subperm
    · exact List.Subperm.refl _
  | @settle w' x todo unsent now hnow hphase =>
    refine .inl ?_
    change ((s.goTo w' (.working todo unsent)).held w).Subperm _
    rw [held_goTo]
    split
    · next hw =>
      subst hw
      have hheld : s.held w = x.rows ++ (Phase.working todo unsent).held := by
        simp [Outbox.held, hphase, Phase.held]
      rw [hheld]
      exact (List.sublist_append_right _ _).subperm
    · exact List.Subperm.refl _
  | @send w' rows status hne hphase =>
    refine .inl ?_
    change ((s.goTo w' (.working (settlings rows status) [])).held w).Subperm _
    rw [held_goTo]
    split
    · next hw =>
      subst hw
      have hheld : s.held w = rows := by simp [Outbox.held, hphase, Phase.held]
      rw [hheld]
      simpa [Phase.held] using (settlings_rows rows status).subperm
    · exact List.Subperm.refl _
  | @crash w' =>
    refine .inl ?_
    rw [held_goTo]
    split
    · exact List.nil_subperm
    · exact List.Subperm.refl _

theorem unsent_sublist_held (s : Outbox) (w : ℕ) : (s.unsent w).Sublist (s.held w) := by
  unfold unsent held
  cases (s.workers w).phase with
  | counted | trimmed | claimed => exact List.Sublist.refl _
  | working todo unsent => exact List.sublist_append_right _ _

/-- What a worker may still send is what it might before, or what it claims. -/
theorem Step.unsent (h : Step s op t) {w : ℕ} {c : ClaimedRow} (hc : c ∈ t.unsent w) :
    c ∈ s.unsent w ∨ ∃ now skip, op = .claim w now skip ∧ c ∈ s.handedOut now skip := by
  cases h with
  | tick | insert | purge => exact .inl hc
  | count | crash =>
    rw [unsent_goTo] at hc
    split at hc
    · first | cases hc | (split at hc <;> cases hc)
    · exact .inl hc
  | @trim w' excess now skip hnow hphase =>
    change c ∈ (s.goTo w' .trimmed).unsent w at hc
    rw [unsent_goTo] at hc
    split at hc
    · cases hc
    · exact .inl hc
  | @claim w' now skip hnow hphase =>
    by_cases hw : w = w'
    · subst hw
      refine .inr ⟨now, skip, rfl, ?_⟩
      simpa [Outbox.unsent, Phase.unsent, handedOut] using hc
    · refine .inl ?_
      simpa [Outbox.unsent, Function.update_of_ne hw] using hc
  | @encode w' rows bad encodes hphase =>
    rw [unsent_goTo] at hc
    split at hc
    · next hw =>
      subst hw
      have hunsent : s.unsent w = rows := by simp [Outbox.unsent, hphase, Phase.unsent]
      rw [hunsent]
      unfold encoded at hc
      split at hc
      · exact .inl (List.mem_of_mem_filter hc)
      · cases hc
    · exact .inl hc
  | @settle w' x todo unsent now hnow hphase =>
    change c ∈ (s.goTo w' (.working todo unsent)).unsent w at hc
    rw [unsent_goTo] at hc
    split at hc
    · next hw =>
      subst hw
      have hunsent : s.unsent w = unsent := by simp [Outbox.unsent, hphase, Phase.unsent]
      exact .inl (hunsent ▸ hc)
    · exact .inl hc
  | @send w' rows status hne hphase =>
    change c ∈ (s.goTo w' (.working (settlings rows status) [])).unsent w at hc
    rw [unsent_goTo] at hc
    split at hc
    · cases hc
    · exact .inl hc

/-- What is sent is what a worker held back until then. -/
theorem Step.sent (h : Step s op t) :
    t.sent = s.sent ∨ ∃ w, t.sent = s.unsent w ++ s.sent ∧ t.unsent w = [] := by
  cases h with
  | @send w rows status hne hphase =>
    refine .inr ⟨w, ?_, ?_⟩
    · simp [Outbox.unsent, hphase, Phase.unsent]
    · change (s.goTo w (.working (settlings rows status) [])).unsent w = []
      rw [unsent_goTo, if_pos rfl]
      rfl
  | _ => exact .inl rfl

/-! ## Attempts have their own numbers -/

/-- The attempt was claimed, and its row counts it. -/
def Counted (s : Outbox) (c : ClaimedRow) : Prop :=
  c.entryId ∈ s.issued ∧ 1 ≤ c.attempts ∧ c.attempts ≤ maxAttempts ∧
    ∀ row, s.table.get c.entryId = some row → c.attempts ≤ row.attempts

/-- No two claims handed out the same attempt, and none is sent twice. -/
structure Sound (s : Outbox) : Prop where
  issued : ∀ {id row}, s.table.get id = some row → id ∈ s.issued
  attempts_le : ∀ {id row}, s.table.get id = some row → row.attempts ≤ maxAttempts
  held : ∀ {w c}, c ∈ s.held w → s.Counted c
  held_nodup : ∀ w, ((s.held w).map ClaimedRow.entryId).Nodup
  apart : ∀ {w w' c}, c ∈ s.held w → c ∈ s.held w' → w = w'
  sent : ∀ {c}, c ∈ s.sent → s.Counted c
  sent_nodup : s.sent.Nodup
  unsent : ∀ {w c}, c ∈ s.unsent w → c ∉ s.sent

theorem Counted.step {c : ClaimedRow} (hc : s.Counted c) (h : Step s op t) : t.Counted c := by
  obtain ⟨hissued, hpos, hle, hrow⟩ := hc
  refine ⟨h.issued_subset hissued, hpos, hle, fun row' hrow' => ?_⟩
  rcases h.grows hrow' with ⟨row, hold, hadvances⟩ | ⟨hfresh, -⟩
  · exact (hrow row hold).trans hadvances.attempts_le
  · exact absurd hissued hfresh

/-- An attempt a claim hands out is a new one. -/
theorem handedOut_new {now : Time} {c : ClaimedRow} (hc : c ∈ s.handedOut now skip) :
    ¬ s.Counted c := by
  rintro ⟨-, -, -, hrow⟩
  obtain ⟨row, hget, -, -, hattempts, -⟩ := OutboxTable.claim_rows hc
  have hle := hrow row hget
  omega

theorem handedOut_counted {w : ℕ} {now : Time} {c : ClaimedRow} (hs : s.Sound)
    (h : Step s (.claim w now skip) t) (hc : c ∈ s.handedOut now skip) : t.Counted c := by
  obtain ⟨row, hget, -, hlt, hattempts, htaken⟩ := OutboxTable.claim_rows hc
  cases h with
  | claim hnow hphase =>
    refine ⟨hs.issued hget, by omega, by omega, fun row' hrow' => ?_⟩
    obtain rfl := Option.some.inj (htaken.symm.trans hrow')
    exact hattempts.le

theorem Sound.init (h : delivery.Init s) : s.Sound := by
  obtain ⟨htable, hphase, hsent⟩ := h
  have hheld : ∀ w, s.held w = [] := fun w => by rw [Outbox.held, hphase w]; rfl
  refine ⟨?_, ?_, ?_, ?_, ?_, ?_, ?_, ?_⟩
  · intro id row hrow
    simp [htable] at hrow
  · intro id row hrow
    simp [htable] at hrow
  · intro w c hc
    simp [hheld] at hc
  · intro w
    simp [hheld]
  · intro w w' c hc
    simp [hheld] at hc
  · intro c hc
    simp [hsent] at hc
  · simp [hsent]
  · intro w c hc
    simp [hsent]

theorem Sound.step (hs : s.Sound) (h : Step s op t) : t.Sound where
  issued {id row} hrow := by
    rcases h.added hrow with ⟨row, hold⟩ | hid
    · exact h.issued_subset (hs.issued hold)
    · exact hid
  attempts_le {id row} hrow := by
    rcases h.grows hrow with ⟨row', hold, hadvances⟩ | ⟨-, -, hzero⟩
    · exact hadvances.le_limit (hs.attempts_le hold)
    · rw [hzero]
      exact Nat.zero_le _
  held {w c} hc := by
    rcases h.held w with hsub | ⟨now, skip, rfl, -, hnew⟩
    · exact (hs.held (hsub.subset hc)).step h
    · exact handedOut_counted hs h (hnew ▸ hc)
  held_nodup w := by
    rcases h.held w with ⟨l, hperm, hsub⟩ | ⟨now, skip, rfl, -, hnew⟩
    · have hl := (hsub.map ClaimedRow.entryId).nodup (hs.held_nodup w)
      exact (hperm.map ClaimedRow.entryId).nodup_iff.1 hl
    · rw [hnew]
      exact OutboxTable.claim_nodup
  apart {w w' c} hc hc' := by
    -- an attempt just handed out is held by nobody else
    rcases h.held w with hsub | ⟨now, skip, rfl, -, hnew⟩
    · rcases h.held w' with hsub' | ⟨now, skip, rfl, -, hnew'⟩
      · exact hs.apart (hsub.subset hc) (hsub'.subset hc')
      · exact absurd (hs.held (hsub.subset hc)) (handedOut_new (hnew' ▸ hc'))
    · rcases h.held w' with hsub' | ⟨now', skip', hop, -, -⟩
      · exact absurd (hs.held (hsub'.subset hc')) (handedOut_new (hnew ▸ hc))
      · cases hop
        rfl
  sent {c} hc := by
    rcases h.sent with hsent | ⟨w, hsent, -⟩
    · exact (hs.sent (hsent ▸ hc)).step h
    · rw [hsent] at hc
      rcases List.mem_append.1 hc with hc | hc
      · exact (hs.held ((unsent_sublist_held s w).subset hc)).step h
      · exact (hs.sent hc).step h
  sent_nodup := by
    rcases h.sent with hsent | ⟨w, hsent, -⟩
    · rw [hsent]
      exact hs.sent_nodup
    · rw [hsent]
      refine List.nodup_append.2 ⟨?_, hs.sent_nodup, ?_⟩
      · exact (unsent_sublist_held s w).nodup (hs.held_nodup w).of_map
      · rintro c hc _ hc' rfl
        exact hs.unsent hc hc'
  unsent {w c} hc := by
    rcases h.sent with hsent | ⟨w', hsent, hempty⟩
    · rw [hsent]
      rcases h.unsent hc with hc | ⟨now, skip, rfl, hc⟩
      · exact hs.unsent hc
      · exact fun hold => handedOut_new hc (hs.sent hold)
    · rw [hsent]
      intro hmem
      rcases h.unsent hc with hold | ⟨now, skip, rfl, hnew⟩
      · rcases List.mem_append.1 hmem with hmem | hmem
        · -- one worker holds it, and that one has nothing left to send
          obtain rfl := hs.apart ((unsent_sublist_held s w).subset hold)
            ((unsent_sublist_held s w').subset hmem)
          rw [hempty] at hc
          cases hc
        · exact hs.unsent hold hmem
      · rcases List.mem_append.1 hmem with hmem | hmem
        · exact handedOut_new hnew (hs.held ((unsent_sublist_held s w').subset hmem))
        · exact handedOut_new hnew (hs.sent hmem)

theorem sound (h : delivery.Reachable s) : s.Sound :=
  h.invariant (fun _ => Sound.init) fun hstep hs => hs.step hstep

/-- A row is sent once for each number of an attempt at most. -/
theorem Sound.sent_le (hs : s.Sound) (id : ℕ) :
    (s.sent.map ClaimedRow.entryId).count id ≤ maxAttempts := by
  have hcount : (s.sent.map ClaimedRow.entryId).count id =
      ((s.sent.filter fun c => c.entryId = id).map ClaimedRow.attempts).length := by
    rw [List.count_eq_length_filter, List.filter_map, List.length_map, List.length_map]
    rfl
  have hnodup : ((s.sent.filter fun c => c.entryId = id).map ClaimedRow.attempts).Nodup := by
    refine (hs.sent_nodup.filter _).map_on fun c hc c' hc' heq => ?_
    rw [List.mem_filter, decide_eq_true_eq] at hc hc'
    cases c
    cases c'
    simp_all
  have hsub : ((s.sent.filter fun c => c.entryId = id).map ClaimedRow.attempts) ⊆
      List.range' 1 maxAttempts := by
    intro n hn
    obtain ⟨c, hc, rfl⟩ := List.mem_map.1 hn
    obtain ⟨-, hpos, hle, -⟩ := hs.sent (List.mem_of_mem_filter hc)
    rw [List.mem_range'_1]
    omega
  rw [hcount]
  simpa using (List.subperm_of_subset hnodup hsub).length_le

/-! ## Who changes a row -/

/-- The statement may change a row: a settling the worker's own, a claim a due one, a trim one that
is due or backed off further than a lease. -/
def Allows (s : Outbox) (op : Op) (id : ℕ) (row : OutboxRow) : Prop :=
  match op with
  | .settle w _ => ∃ c ∈ s.held w, c.entryId = id
  | .claim _ now _ => row.Due now
  | .trim _ now _ => row.Trimmable now claimLease
  | _ => False

/-- A row that changes was pending, and the step was allowed to change it. -/
theorem Step.allows (hs : s.Sound) (h : Step s op t) {id : ℕ} {row row' : OutboxRow}
    (hrow : s.table.get id = some row) (hrow' : t.table.get id = some row') (hne : row' ≠ row) :
    row.state = .pending ∧ s.Allows op id row := by
  cases h with
  | tick | count | encode | send | crash =>
    exact absurd (Option.some.inj (hrow'.symm.trans hrow)) hne
  | insert hfresh =>
    rcases OutboxTable.insertEntry_row hrow' with hold | ⟨rfl, -⟩
    · exact absurd (Option.some.inj (hold.symm.trans hrow)) hne
    · exact absurd (hs.issued hrow) hfresh
  | purge =>
    exact absurd (Option.some.inj ((OutboxTable.purgeExpired_row hrow').symm.trans hrow)) hne
  | trim =>
    obtain ⟨row₀, hrow₀, hsame | ⟨htrim, -⟩⟩ := OutboxTable.trimBacklog_row hrow'
    all_goals obtain rfl := Option.some.inj (hrow₀.symm.trans hrow)
    · exact absurd hsame hne
    · exact ⟨htrim.pending, htrim⟩
  | claim =>
    obtain ⟨row₀, hrow₀, hsame | ⟨hdue, -⟩ | ⟨hdue, -⟩⟩ := OutboxTable.claim_row hrow'
    all_goals obtain rfl := Option.some.inj (hrow₀.symm.trans hrow)
    · exact absurd hsame hne
    · exact ⟨hdue.pending, hdue⟩
    · exact ⟨hdue.pending, hdue⟩
  | @settle w x todo unsent now hnow hphase =>
    obtain ⟨row₀, hrow₀, hsame | ⟨⟨c, hc, hid⟩, hpending⟩⟩ := Settling.run_row hrow'
    all_goals obtain rfl := Option.some.inj (hrow₀.symm.trans hrow)
    · exact absurd hsame hne
    · refine ⟨hpending, c, ?_, hid⟩
      simp [Outbox.held, hphase, Phase.held, hc]

/-! ## Settling in time -/

/-- The worker holds the row's current lease: the last claim of the row is its own, and the lease
runs. -/
def Leases (s : Outbox) (w id : ℕ) : Prop :=
  (∃ c ∈ s.held w, c.entryId = id ∧
    ∃ row, s.table.get id = some row ∧ row.attempts = c.attempts) ∧
  s.now < (s.workers w).leaseUntil

/-- No worker settles after its lease. -/
def Timely (s : Outbox) (op : Op) : Prop :=
  ∀ w now, op = .settle w now → s.now < (s.workers w).leaseUntil

/-- A held row whose lease runs counts no later claim, and its next attempt is where the lease
ends. -/
def Punctual (s : Outbox) : Prop :=
  ∀ ⦃w c row⦄, c ∈ s.held w → s.now < (s.workers w).leaseUntil →
    s.table.get c.entryId = some row → row.state = .pending →
    row.attempts = c.attempts ∧ row.nextAttemptAt = some (s.workers w).leaseUntil

theorem Step.now_le (h : Step s op t) : s.now ≤ t.now := by
  cases h with
  | tick hnow => exact hnow
  | _ => exact le_rfl

theorem leaseUntil_goTo (s : Outbox) (w w' : ℕ) (phase : Phase) :
    ((s.goTo w phase).workers w').leaseUntil = (s.workers w').leaseUntil := by
  by_cases hw : w' = w
  · subst hw
    simp [goTo]
  · simp [goTo, hw]

/-- A lease ends when it did, unless the worker claims. -/
theorem Step.leaseUntil (h : Step s op t) (w : ℕ) :
    (t.workers w).leaseUntil = (s.workers w).leaseUntil ∨ ∃ now skip, op = .claim w now skip := by
  cases h with
  | tick | insert | purge => exact .inl rfl
  | count | encode | crash => exact .inl (leaseUntil_goTo s _ _ _)
  | trim | settle | send => exact .inl (leaseUntil_goTo s _ _ _)
  | @claim w' now skip hnow hphase =>
    by_cases hw : w = w'
    · subst hw
      exact .inr ⟨now, skip, rfl⟩
    · exact .inl (by simp [Function.update_of_ne hw])

/-- Under a lease, nobody but its holder settles the row. -/
theorem Punctual.settler (hs : s.Sound) (hp : s.Punctual) {w w' : ℕ} {c c' : ClaimedRow}
    {row : OutboxRow} (hc : c ∈ s.held w) (hlease : s.now < (s.workers w).leaseUntil)
    (hc' : c' ∈ s.held w') (hlease' : s.now < (s.workers w').leaseUntil)
    (hid : c'.entryId = c.entryId) (hrow : s.table.get c.entryId = some row)
    (hpending : row.state = .pending) : w' = w := by
  have hattempts := (hp hc hlease hrow hpending).1
  have hattempts' := (hp hc' hlease' (hid ▸ hrow) hpending).1
  have heq : c' = c := by
    cases c
    cases c'
    simp_all
  exact hs.apart hc' (heq ▸ hc)

/-- A row that stays held under its lease is not touched, unless it becomes final. -/
theorem Punctual.untouched (hs : s.Sound) (hp : s.Punctual) (htimely : Timely s op)
    (h : Step s op t) {w : ℕ} {c : ClaimedRow} {row row' : OutboxRow} (hc : c ∈ s.held w)
    (hlease : s.now < (s.workers w).leaseUntil) (hc' : c ∈ t.held w)
    (hrow : s.table.get c.entryId = some row) (hrow' : t.table.get c.entryId = some row')
    (hpending' : row'.state = .pending) : row' = row := by
  by_contra hne
  obtain ⟨hpending, hallows⟩ := h.allows hs hrow hrow' hne
  cases h with
  | tick | insert | purge | count | encode | send | crash => exact hallows
  | trim =>
    obtain ⟨row₀, hrow₀, hsame | ⟨-, hdropped⟩⟩ := OutboxTable.trimBacklog_row hrow'
    · exact hne (hsame.trans (Option.some.inj (hrow₀.symm.trans hrow)))
    · rw [hdropped] at hpending'
      cases hpending'
  | @claim w' now skip hnow hphase =>
    have hdue : (s.workers w).leaseUntil ≤ now :=
      hallows.2 _ (hp hc hlease hrow hpending).2
    exact (hdue.trans hnow).not_gt hlease
  | @settle w' x todo unsent now hnow hphase =>
    obtain ⟨row₀, hrow₀, hsame | ⟨⟨c₃, hc₃, hid⟩, -⟩⟩ := Settling.run_row hrow'
    · exact hne (hsame.trans (Option.some.inj (hrow₀.symm.trans hrow)))
    · have hheld : s.held w' = x.rows ++ (Phase.working todo unsent).held := by
        simp [Outbox.held, hphase, Phase.held]
      have hc₃' : c₃ ∈ s.held w' := hheld ▸ List.mem_append_left _ hc₃
      obtain rfl := hp.settler hs hc hlease hc₃' (htimely w' now rfl) hid hrow hpending
      -- the settled rows are not among those the worker still holds
      have hrest : c ∈ (Phase.working todo unsent).held := by
        change c ∈ (s.goTo w' (.working todo unsent)).held w' at hc'
        rwa [held_goTo, if_pos rfl] at hc'
      have hnodup := hs.held_nodup w'
      rw [hheld, List.map_append] at hnodup
      exact (List.nodup_append.1 hnodup).2.2 _ (List.mem_map_of_mem hc₃) _
        (List.mem_map_of_mem hrest) hid

theorem Punctual.step (hs : s.Sound) (hp : s.Punctual) (htimely : Timely s op) (h : Step s op t) :
    t.Punctual := by
  intro w c row' hc hlease hrow' hpending'
  rcases h.held w with hsub | ⟨now, skip, rfl, -, hnew⟩
  · have hheld := hsub.subset hc
    have huntil : (t.workers w).leaseUntil = (s.workers w).leaseUntil := by
      refine (h.leaseUntil w).resolve_right ?_
      rintro ⟨now, skip, rfl⟩
      cases h with
      | claim hnow hphase => simp [Outbox.held, hphase, Phase.held] at hheld
    rw [huntil] at hlease ⊢
    have hlease' := h.now_le.trans_lt hlease
    rcases h.grows hrow' with ⟨row, hrow, -⟩ | ⟨hfresh, -⟩
    · obtain rfl := hp.untouched hs htimely h hheld hlease' hc hrow hrow' hpending'
      exact hp hheld hlease' hrow hpending'
    · exact absurd (hs.held hheld).1 hfresh
  · rw [hnew] at hc
    obtain ⟨row, -, -, -, hattempts, htaken⟩ := OutboxTable.claim_rows hc
    cases h with
    | claim hnow hphase =>
      obtain rfl := Option.some.inj (htaken.symm.trans hrow')
      exact ⟨hattempts.symm, by simp [OutboxRow.take]⟩

theorem punctual (h : (delivery.restrict Timely).Reachable s) : s.Punctual := by
  refine h.invariant_of (P := Punctual) (I := Sound) (fun s hs => sound hs.of_restrict) ?_ ?_
  · intro s hinit w c row hc
    have hheld : s.held w = [] := by
      rw [held, hinit.2.1 w]
      rfl
    rw [hheld] at hc
    cases hc
  · intro s l t hstep hs hp
    exact hp.step hs hstep.2 hstep.1

/-- As long as every worker settles within its lease, whoever settles a row holds its current
lease, and a leased row is changed by its holder alone, or by a trim that read its clock before the
row was claimed. -/
theorem Punctual.changes (hs : s.Sound) (hp : s.Punctual) (htimely : Timely s op)
    (h : Step s op t) {id : ℕ} {row row' : OutboxRow} (hrow : s.table.get id = some row)
    (hrow' : t.table.get id = some row') (hne : row' ≠ row) :
    (∀ w now, op = .settle w now → s.Leases w id) ∧
      ∀ w, s.Leases w id →
        (∃ now, op = .settle w now) ∨
          ∃ w' now skip, op = .trim w' now skip ∧ now < (s.workers w).leaseUntil - claimLease := by
  obtain ⟨hpending, hallows⟩ := h.allows hs hrow hrow' hne
  constructor
  · rintro w now rfl
    obtain ⟨c, hc, rfl⟩ := hallows
    have hlease := htimely w now rfl
    exact ⟨⟨c, hc, rfl, row, hrow, (hp hc hlease hrow hpending).1⟩, hlease⟩
  · rintro w ⟨⟨c, hc, rfl, -⟩, hlease⟩
    have huntil := (hp hc hlease hrow hpending).2
    cases h with
    | tick | insert | purge | count | encode | send | crash => exact hallows.elim
    | @trim w' excess now skip hnow hphase =>
      refine .inr ⟨w', now, skip, rfl, ?_⟩
      rcases hallows with hdue | ⟨-, due, hdue, hlt⟩
      · have hle := hdue.2 _ huntil
        exact absurd hlease (hle.trans hnow).not_gt
      · obtain rfl := Option.some.inj (huntil.symm.trans hdue)
        exact lt_sub_iff_add_lt.2 hlt
    | @claim w' now skip hnow hphase =>
      have hle := hallows.2 _ huntil
      exact absurd hlease (hle.trans hnow).not_gt
    | @settle w' x todo unsent now hnow hphase =>
      obtain ⟨c', hc', hid⟩ := hallows
      obtain rfl := hp.settler hs hc hlease hc' (htimely w' now rfl) hid hrow hpending
      exact .inl ⟨now, rfl⟩

/-! ## The delivery discipline -/

/-- A final row that is still there is as it was. -/
theorem run_final (hs : s.Sound) (hrun : delivery.Run s ops t) {id : ℕ} {row row' : OutboxRow}
    (hrow : s.table.get id = some row) (hfinal : row.state ≠ .pending)
    (hrow' : t.table.get id = some row') : row' = row := by
  have hkept : (∀ row', t.table.get id = some row' → row' = row) ∧ id ∈ t.issued ∧ t.Sound := by
    refine hrun.stable (P := fun t => (∀ row', t.table.get id = some row' → row' = row) ∧
      id ∈ t.issued ∧ t.Sound) ?_ ⟨fun row' hrow' => ?_, hs.issued hrow, hs⟩
    · rintro s l t h ⟨hkept, hid, hs⟩
      refine ⟨fun row' hrow' => ?_, h.issued_subset hid, hs.step h⟩
      rcases h.grows hrow' with ⟨row₀, hold, hadvances⟩ | ⟨hfresh, -⟩
      · obtain rfl := hkept row₀ hold
        exact hadvances.sealed hfinal
      · exact absurd hid hfresh
    · exact Option.some.inj (hrow'.symm.trans hrow)
  exact hkept.1 row' hrow'

/-- A row that was deleted does not come back. -/
theorem run_deleted (hrun : delivery.Run s ops t) {id : ℕ} (hid : id ∈ s.issued)
    (hnone : s.table.get id = none) : t.table.get id = none := by
  have hgone : id ∈ t.issued ∧ t.table.get id = none := by
    refine hrun.stable (P := fun t => id ∈ t.issued ∧ t.table.get id = none) ?_ ⟨hid, hnone⟩
    rintro s l t h ⟨hid, hnone⟩
    refine ⟨h.issued_subset hid, ?_⟩
    rw [Option.eq_none_iff_forall_ne_some]
    intro row' hrow'
    rcases h.grows hrow' with ⟨row, hold, -⟩ | ⟨hfresh, -⟩
    · rw [hnone] at hold
      cases hold
    · exact hfresh hid
  exact hgone.2

/-- A trim takes away no more pending rows than the worker counted beyond the limit. -/
theorem Step.trim_count {u v : Outbox} {w : ℕ} {now : Time} (hcount : Step u (.count w) v)
    (hw : s.workers w = v.workers w) (h : Step s (.trim w now skip) t) :
    s.table.countPending + backlogLimit ≤ t.table.countPending + u.table.countPending := by
  cases h with
  | @trim _ excess _ _ hnow hphase =>
    have htrim := s.table.trimBacklog_count excess now claimLease skip
    rw [hw] at hphase
    cases hcount with
    | count hidle =>
      simp only [goTo, Function.update_self] at hphase
      split at hphase
      · cases hphase
      · have hexcess := Phase.counted.inj hphase
        change s.table.countPending + backlogLimit ≤
          (s.table.trimBacklog excess now claimLease skip).countPending + u.table.countPending
        omega

/-- The state a list of steps leads to. -/
def after (ops : List Op) : Outbox := (runAll {} ops).getD {}

theorem reachable_init : delivery.Reachable {} := .init ⟨rfl, fun _ => rfl, rfl⟩

theorem reachable_after (h : (runAll {} ops).isSome) :
    delivery.Reachable (after ops) := by
  obtain ⟨t, ht⟩ := Option.isSome_iff_exists.1 h
  have hafter : after ops = t := by rw [after, ht, Option.getD_some]
  rw [hafter]
  exact reachable_init.run (run_runAll ht)

theorem step_after (h : (runAll {} (ops ++ [op])).isSome) :
    Step (after ops) op (after (ops ++ [op])) := by
  obtain ⟨t, ht⟩ := Option.isSome_iff_exists.1 h
  have hafter : after (ops ++ [op]) = t := by rw [after, ht, Option.getD_some]
  rw [runAll, List.foldlM_append, Option.bind_eq_bind, Option.bind_eq_some_iff] at ht
  obtain ⟨u, hu, hlast⟩ := ht
  have hu' : after ops = u := by rw [after, runAll, hu, Option.getD_some]
  rw [hu', hafter, step_iff]
  simpa using hlast

namespace Scenario

/-- The worker 0 sends the row and stops; after its lease the worker 1 claims the row. -/
def lateOps : List Op :=
  [.insert 1 "run_state:7:1" 0, .count 0, .claim 0 0 [], .encode 0 [] true, .settle 0 0,
    .send 0 (some 200), .tick (seconds 31), .count 1, .claim 1 (seconds 31) []]

/-- A worker that settles after its lease settles a row another worker is sending. -/
theorem late_settle :
    delivery.Reachable (after lateOps) ∧
      Step (after lateOps) (.settle 0 (seconds 31)) (after (lateOps ++ [.settle 0 (seconds 31)])) ∧
      ((after lateOps).table.get 1).map OutboxRow.state = some .pending ∧
      ((after (lateOps ++ [.settle 0 (seconds 31)])).table.get 1).map OutboxRow.state =
        some .delivered ∧
      (after lateOps).Leases 1 1 ∧ ¬ (after lateOps).Leases 0 1 := by
  refine ⟨reachable_after (by decide +kernel), step_after (by decide +kernel), by decide +kernel,
    by decide +kernel, ⟨⟨⟨1, 2⟩, by decide +kernel, rfl, ?_⟩, by decide +kernel⟩, ?_⟩
  · have hrow : ((after lateOps).table.get 1).map OutboxRow.attempts = some 2 := by decide +kernel
    exact Option.map_eq_some_iff.1 hrow
  · rintro ⟨-, h⟩
    revert h
    decide +kernel

/-- The key of the row `i`. -/
def key (i : ℕ) : String := String.ofList (List.replicate i 'k')

theorem key_injective {i j : ℕ} (h : key i = key j) : i = j := by
  have hlength := congrArg String.length h
  simpa [key] using hlength

/-- The rows 1 to `n` are waiting. -/
def filled : ℕ → Outbox
  | 0 => {}
  | n + 1 => { filled n with
      table := (filled n).table.insertEntry (n + 1) (key (n + 1)) 0
      issued := (n + 1) :: (filled n).issued }

/-- The row `i`, new. -/
def waiting (i : ℕ) : OutboxRow := { idempotencyKey := key i, createdAt := 0 }

theorem filled_get (n id : ℕ) :
    (filled n).table.get id = if 1 ≤ id ∧ id ≤ n then some (waiting id) else none := by
  induction n generalizing id with
  | zero =>
    rw [if_neg (by omega)]
    rfl
  | succ n ih =>
    have hnew : ((filled n).table.select fun _ row => row.idempotencyKey = key (n + 1)) = [] := by
      rw [List.eq_nil_iff_forall_not_mem]
      rintro ⟨id, row⟩ hmem
      rw [Table.mem_select_iff, ih, decide_eq_true_eq] at hmem
      obtain ⟨hrow, hkey⟩ := hmem
      split at hrow
      · cases hrow
        have heq := key_injective hkey
        omega
      · cases hrow
    simp only [filled, OutboxTable.insertEntry, hnew, List.isEmpty_nil, if_true]
    rw [Table.get_insert, ih]
    split
    · next hid => rw [if_pos (by omega), hid]; rfl
    · split
      · rw [if_pos (by omega)]
      · rw [if_neg (by omega)]

theorem filled_run (n : ℕ) : delivery.Reachable (filled n) ∧ (filled n).now = 0 ∧
    (∀ w, ((filled n).workers w).phase = .working [] []) ∧ ∀ id ∈ (filled n).issued, id ≤ n := by
  induction n with
  | zero => exact ⟨reachable_init, rfl, fun _ => rfl, fun id hid => by cases hid⟩
  | succ n ih =>
    obtain ⟨hreach, hnow, hidle, hissued⟩ := ih
    refine ⟨hreach.step (l := .insert (n + 1) (key (n + 1)) 0) (Step.insert fun hmem => ?_), hnow,
      hidle, fun id hid => ?_⟩
    · have hle := hissued _ hmem
      omega
    · rcases List.mem_cons.1 hid with rfl | hid
      · exact le_rfl
      · exact (hissued id hid).trans (Nat.le_succ n)

theorem filled_count (n : ℕ) : (filled n).table.countPending = n := by
  have hperm : (filled n).table.pendingIds.Perm (List.range' 1 n) := by
    refine (List.perm_ext_iff_of_nodup OutboxTable.pendingIds_nodup List.nodup_range').2 fun id => ?_
    rw [OutboxTable.mem_pendingIds, List.mem_range'_1]
    constructor
    · rintro ⟨row, hrow, -⟩
      rw [filled_get] at hrow
      split at hrow
      · omega
      · cases hrow
    · intro hid
      exact ⟨waiting id, by rw [filled_get, if_pos (by omega)], rfl⟩
  have hlength := hperm.length_eq
  rwa [OutboxTable.length_pendingIds, List.length_range'] at hlength

/-- Two workers count one row beyond the limit, and both drop one. -/
theorem two_trims : ∃ s t, delivery.Reachable s ∧ Step s (.trim 2 0 []) t ∧
    s.table.countPending = backlogLimit ∧ t.table.countPending < backlogLimit := by
  obtain ⟨n, hn⟩ : ∃ n, n = backlogLimit := ⟨_, rfl⟩
  obtain ⟨hreach, hnow, hidle, -⟩ := filled_run (n + 1)
  have hcount := filled_count (n + 1)
  generalize hs₀ : filled (n + 1) = s₀ at hreach hnow hidle hcount
  have hphase : (if s₀.table.countPending ≤ backlogLimit then Phase.trimmed
      else .counted (s₀.table.countPending - backlogLimit)) = .counted 1 := by
    rw [if_neg (by omega), hcount, hn, Nat.add_sub_cancel_left]
  have hwaiting : ∀ id row, s₀.table.get id = some row → row.Trimmable 0 claimLease := by
    intro id row hrow
    rw [← hs₀, filled_get] at hrow
    split at hrow
    · cases hrow
      exact .inl ⟨rfl, fun due hdue => by cases hdue⟩
    · cases hrow
  have hfirst : (s₀.table.trimBacklog 1 0 claimLease []).countPending = backlogLimit := by
    rw [OutboxTable.trimBacklog_all fun id row hrow _ => hwaiting id row hrow, hcount, hn,
      Nat.add_sub_cancel]
  have hrest : ∀ id row, (s₀.table.trimBacklog 1 0 claimLease []).get id = some row →
      row.state = .pending → row.Trimmable 0 claimLease := by
    intro id row hrow hpending
    obtain ⟨row₀, hrow₀, rfl | ⟨-, rfl⟩⟩ := OutboxTable.trimBacklog_row hrow
    · exact hwaiting id row hrow₀
    · cases hpending
  have hsecond : ((s₀.table.trimBacklog 1 0 claimLease []).trimBacklog 1 0 claimLease
      []).countPending < backlogLimit := by
    rw [OutboxTable.trimBacklog_all hrest, hfirst]
    decide
  have hcount₁ : Step s₀ (.count 1) (s₀.goTo 1 (.counted 1)) := hphase ▸ Step.count (hidle 1)
  have hcount₂ : Step (s₀.goTo 1 (.counted 1)) (.count 2)
      ((s₀.goTo 1 (.counted 1)).goTo 2 (.counted 1)) := by
    have hidle₂ : ((s₀.goTo 1 (.counted 1)).workers 2).phase = .working [] [] := by
      simpa [goTo] using hidle 2
    have h := Step.count hidle₂
    rwa [show (s₀.goTo 1 (.counted 1)).table = s₀.table from rfl, hphase] at h
  have hcounted₁ : (((s₀.goTo 1 (.counted 1)).goTo 2 (.counted 1)).workers 1).phase =
      .counted 1 := by simp [goTo]
  have hcounted₂ : ((((s₀.goTo 1 (.counted 1)).goTo 2 (.counted 1)).goTo 1 .trimmed).workers
      2).phase = .counted 1 := by simp [goTo]
  exact ⟨_, _, ((hreach.step hcount₁).step hcount₂).step (l := .trim 1 0 [])
    (Step.trim hnow.ge hcounted₁), Step.trim hnow.ge hcounted₂, hfirst, hsecond⟩

/-- A worker reads the clock for its trim, another one claims the oldest row, and the trim drops
it. -/
theorem leased_trim : ∃ s t, delivery.Reachable s ∧ Step s (.trim 1 0 []) t ∧ s.Leases 2 1 ∧
    (∃ row, s.table.get 1 = some row ∧ row.state = .pending) ∧
    ∃ row, t.table.get 1 = some row ∧ row.state = .dropped := by
  obtain ⟨n, hn⟩ : ∃ n, n = backlogLimit := ⟨_, rfl⟩
  have hpos : 0 < n := by
    rw [hn]
    decide
  obtain ⟨hreach, hnow, hidle, hissued⟩ := filled_run n
  have hcount := filled_count n
  have hcount' := filled_count (n + 1)
  have hget := filled_get (n + 1)
  have htable : (filled (n + 1)).table =
    (filled n).table.insertEntry (n + 1) (key (n + 1)) 0 := rfl
  generalize filled (n + 1) = s₂ at hcount' hget htable
  generalize filled n = s₀ at hreach hnow hidle hissued hcount htable
  -- the worker 2 has trimmed, a row comes in, and the worker 1 counts
  have hcount₂ : Step s₀ (.count 2) (s₀.goTo 2 .trimmed) := by
    have h := Step.count (hidle 2)
    rwa [if_pos (by omega)] at h
  have hinsert : Step (s₀.goTo 2 .trimmed) (.insert (n + 1) (key (n + 1)) 0)
      { s₀.goTo 2 .trimmed with table := s₂.table, issued := (n + 1) :: s₀.issued } := by
    rw [htable]
    exact Step.insert fun hmem => absurd (hissued _ hmem) (by omega)
  have hreach₂ := (hreach.step hcount₂).step hinsert
  generalize hs₁ : ({ s₀.goTo 2 .trimmed with
    table := s₂.table, issued := (n + 1) :: s₀.issued } : Outbox) = s₁ at hreach₂
  have hworker₁ : (s₁.workers 1).phase = .working [] [] := by
    subst hs₁
    simpa [goTo] using hidle 1
  have hcount₁ : Step s₁ (.count 1) (s₁.goTo 1 (.counted 1)) := by
    have h := Step.count hworker₁
    have htable₁ : s₁.table.countPending = n + 1 := by
      subst hs₁
      exact hcount'
    rwa [htable₁, if_neg (by omega), hn, Nat.add_sub_cancel_left] at h
  have htick : Step (s₁.goTo 1 (.counted 1)) (.tick (seconds 1))
      { s₁.goTo 1 (.counted 1) with now := seconds 1 } := by
    refine Step.tick ?_
    subst hs₁
    change s₀.now ≤ seconds 1
    rw [hnow]
    decide
  have hreach₃ := (hreach₂.step hcount₁).step htick
  have hworker₂ : ((s₁.goTo 1 (.counted 1)).workers 2).phase = .trimmed := by
    subst hs₁
    simp [goTo]
  have htable₃ : ({ s₁.goTo 1 (.counted 1) with now := seconds 1 } : Outbox).table = s₂.table := by
    subst hs₁
    rfl
  have hworker₃ : ((s₁.goTo 1 (.counted 1)).workers 1).phase = .counted 1 := by simp [goTo]
  generalize hs₃ : ({ s₁.goTo 1 (.counted 1) with now := seconds 1 } : Outbox) = s₃
    at hreach₃ htable₃
  have hnow₃ : s₃.now = seconds 1 := by
    subst hs₃
    rfl
  have hworkers₃ : (s₃.workers 2).phase = .trimmed ∧ (s₃.workers 1).phase = .counted 1 := by
    subst hs₃
    exact ⟨hworker₂, hworker₃⟩
  have hclaim := @Step.claim s₃ 2 (seconds 1) [] hnow₃.ge hworkers₃.1
  rw [htable₃] at hclaim
  -- the claim hands out the row 1
  have hrow : s₂.table.get 1 = some (waiting 1) := by rw [hget, if_pos (by omega)]
  have hdue : ∀ id row, s₂.table.get id = some row → row = waiting id ∧ 1 ≤ id := by
    intro id row hrow
    rw [hget] at hrow
    split at hrow
    · next hid => exact ⟨(Option.some.inj hrow).symm, hid.1⟩
    · cases hrow
  have hheld : ⟨1, 1⟩ ∈ (s₂.table.claim batchSize claimLease (seconds 1) maxAttempts []).1 :=
    OutboxTable.claim_first 99 hrow ⟨rfl, fun due hdue => by cases hdue⟩
      List.not_mem_nil (by decide) fun id row hrow _ => (hdue id row hrow).2
  obtain ⟨row, hrow', -, -, hattempts, htaken⟩ := OutboxTable.claim_rows hheld
  obtain rfl := Option.some.inj (hrow'.symm.trans hrow)
  -- to the trim, its lease looks like a long back-off
  have htrim : ((waiting 1).take (seconds 1 + claimLease)).Trimmable 0 claimLease :=
    .inr ⟨rfl, _, rfl, by decide⟩
  have holdest := OutboxTable.trimBacklog_oldest 0 htaken htrim List.not_mem_nil (by
      intro id row hrow _
      obtain ⟨row₀, hrow₀, hcases⟩ := OutboxTable.claim_row hrow
      obtain ⟨rfl, hid⟩ := hdue id row₀ hrow₀
      have hcreated : row.createdAt = 0 := by
        rcases hcases with rfl | ⟨-, -, rfl⟩ | ⟨-, -, rfl⟩ <;> rfl
      rw [OutboxTable.ageKey, OutboxTable.ageKey, Prod.Lex.toLex_le_toLex, hcreated]
      exact .inr ⟨rfl, hid⟩)
  refine ⟨_, _, hreach₃.step (l := .claim 2 (seconds 1) []) hclaim,
    @Step.trim _ 1 1 0 [] ?_ ?_, ⟨⟨⟨1, 1⟩, ?_, rfl, _, htaken, rfl⟩, ?_⟩,
    ⟨_, htaken, rfl⟩, _, holdest, rfl⟩
  · rw [hnow₃]
    decide
  · simpa using hworkers₃.2
  · simpa [held, Phase.held] using hheld
  · change s₃.now < _
    rw [hnow₃]
    simp only [Function.update_self]
    decide

/-- The row 1 is claimed, and its span does not build. -/
def promptOps : List Op :=
  [.insert 1 "run_state:7:1" 0, .count 0, .claim 0 0 [], .encode 0 [1] true]

end Scenario

end Outbox

end OpsPilot
