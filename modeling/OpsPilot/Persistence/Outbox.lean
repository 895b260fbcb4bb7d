import OpsPilot.Domain.Observation
import OpsPilot.Foundations.Ranking
import OpsPilot.Foundations.Table
import Mathlib.Data.Prod.Lex

/-!
# The trace outbox

The table `opspilot_trace_outbox` and the statements that run against it: a business transaction
adds a row, a worker claims due rows, sends them and settles them, a trim drops the oldest rows of a
backlog that is too long, and the cleanup deletes what is a week old.

A `FOR UPDATE SKIP LOCKED` leaves out the rows other transactions hold locked. Which those are is
the argument `skip` of the statement, any list of rows.

* `OutboxRow.Advances`: all that a statement may do to a row; every statement does no more
  (`claim_advances`, `trimBacklog_advances`, `markDelivered_advances`, …).
* `claim_cases`: what a claim does to a row, and which rows it hands out.
* `trimBacklog_count`: a trim drops as many rows as it was told, while there are enough.
-/

namespace OpsPilot

/-- `opspilot_trace_outbox.state`. -/
inductive OutboxState
  | pending | delivered | dropped
  deriving DecidableEq, Repr

/-- `DROP_REASONS`. -/
inductive DropReason
  | maxAttempts | rejected | unserializable | backlog
  deriving DecidableEq, Repr

/-- A row as inserted passes the table's `CHECK`: it is pending and has no final time. -/
theorem inserted_finalized : OutboxState.pending = .pending ↔ (none : Option Time) = none :=
  ⟨fun _ => rfl, fun _ => rfl⟩

/-- A row of `opspilot_trace_outbox`; the last field is the table's `CHECK`. -/
structure OutboxRow where
  idempotencyKey : String
  createdAt : Time
  state : OutboxState := .pending
  attempts : ℕ := 0
  nextAttemptAt : Option Time := none
  dropReason : Option DropReason := none
  finalizedAt : Option Time := none
  finalized : state = .pending ↔ finalizedAt = none := by
    exact inserted_finalized
  deriving DecidableEq

namespace OutboxRow

/-- The row is final: sent. -/
def deliver (row : OutboxRow) (now : Time) : OutboxRow :=
  { row with state := .delivered, finalizedAt := some now, finalized := by simp }

/-- The row is final: given up. -/
def drop (row : OutboxRow) (reason : DropReason) (now : Time) : OutboxRow :=
  { row with
    state := .dropped, dropReason := some reason, finalizedAt := some now, finalized := by simp }

/-- One more attempt, with a lease. -/
def take (row : OutboxRow) (until_ : Time) : OutboxRow :=
  { row with attempts := row.attempts + 1, nextAttemptAt := some until_ }

/-- The next attempt is at a given time. -/
def retry (row : OutboxRow) (due : Time) : OutboxRow :=
  { row with nextAttemptAt := some due }

/-- `state = 'pending' AND (next_attempt_at IS NULL OR next_attempt_at <= now)`. -/
def Due (row : OutboxRow) (now : Time) : Prop :=
  row.state = .pending ∧ ∀ due ∈ row.nextAttemptAt, due ≤ now

instance (row : OutboxRow) (now : Time) : Decidable (row.Due now) := by
  unfold Due
  infer_instance

/-- A pending row a trim may drop: due, or backed off further than a lease. -/
def Trimmable (row : OutboxRow) (now : Time) (lease : ℤ) : Prop :=
  row.Due now ∨ row.state = .pending ∧ ∃ due ∈ row.nextAttemptAt, now + lease < due

instance (row : OutboxRow) (now : Time) (lease : ℤ) : Decidable (row.Trimmable now lease) := by
  unfold Trimmable
  infer_instance

/-- What a statement may turn a row into: a final row stays as it is, and attempts only go up, a
claim raising them to the attempt limit at most. -/
structure Advances (limit : ℕ) (row row' : OutboxRow) : Prop where
  sealed : row.state ≠ .pending → row' = row
  attempts_le : row.attempts ≤ row'.attempts
  le_limit : row.attempts ≤ limit → row'.attempts ≤ limit

theorem Advances.refl (limit : ℕ) (row : OutboxRow) : row.Advances limit row :=
  ⟨fun _ => rfl, le_rfl, id⟩

/-- A statement that touches pending rows only, and not the attempts. -/
theorem Advances.of_pending {limit : ℕ} {row row' : OutboxRow} (hpending : row.state = .pending)
    (hattempts : row'.attempts = row.attempts) : row.Advances limit row' where
  sealed h := absurd hpending h
  attempts_le := hattempts.ge
  le_limit h := hattempts ▸ h

theorem Due.pending {row : OutboxRow} {now : Time} (h : row.Due now) : row.state = .pending := h.1

theorem Trimmable.pending {row : OutboxRow} {now : Time} {lease : ℤ}
    (h : row.Trimmable now lease) : row.state = .pending :=
  h.elim Due.pending And.left

end OutboxRow

/-- One pending row claimed for delivery; `attempts` already counts this attempt. -/
structure ClaimedRow where
  entryId : ℕ
  attempts : ℕ
  deriving DecidableEq

/-- The outbox table, by `entry_id`. -/
abbrev OutboxTable := Table ℕ OutboxRow

namespace OutboxTable

/-- `RETENTION`: seven days. -/
def retention : ℤ := seconds (7 * 86400)

/-- `insert_entry`: a repeat of the same key adds nothing. -/
def insertEntry (t : OutboxTable) (entryId : ℕ) (idempotencyKey : String) (createdAt : Time) :
    OutboxTable :=
  if (t.select fun _ row => row.idempotencyKey = idempotencyKey).isEmpty then
    t.insert entryId { idempotencyKey, createdAt }
  else t

/-- `purge_expired`: final rows finished a retention ago go, and while export is off pending rows as
old. -/
def purgeExpired (t : OutboxTable) (now : Time) (exportEnabled : Bool) : OutboxTable :=
  t.deleteWhere fun _ row =>
    (row.state ≠ .pending ∧ ∃ finalizedAt ∈ row.finalizedAt, finalizedAt ≤ now - retention) ∨
      (exportEnabled = false ∧ row.state = .pending ∧ row.createdAt ≤ now - retention)

/-- `count_pending`. -/
def countPending (t : OutboxTable) : ℕ := (t.select fun _ row => row.state = .pending).length

/-- `ORDER BY created_at, entry_id`. -/
def ageKey (e : ℕ × OutboxRow) : Time ×ₗ ℕ := toLex (e.2.createdAt, e.1)

/-- The rows a trim may drop, oldest first. -/
def trimmable (t : OutboxTable) (now : Time) (lease : ℤ) (skip : List ℕ) : List (ℕ × OutboxRow) :=
  (t.select fun id row => row.Trimmable now lease ∧ id ∉ skip).mergeSort fun a b =>
    ageKey a ≤ ageKey b

/-- The `UPDATE` of `trim_backlog`, once the pending rows beyond the limit are counted. -/
def trimBacklog (t : OutboxTable) (excess : ℕ) (now : Time) (lease : ℤ) (skip : List ℕ) :
    OutboxTable :=
  let old := (t.trimmable now lease skip).take excess
  t.update fun id row => if id ∈ old.map Prod.fst then row.drop .backlog now else row

/-- The rows a claim finds, by `entry_id`. -/
def due (t : OutboxTable) (limit : ℕ) (now : Time) (skip : List ℕ) : List (ℕ × OutboxRow) :=
  ((t.select fun id row => row.Due now ∧ id ∉ skip).mergeSort fun a b => a.1 ≤ b.1).take limit

/-- `claim`: the rows to send, and the table. A row whose attempts are used up is dropped instead. -/
def claim (t : OutboxTable) (limit : ℕ) (lease : ℤ) (now : Time) (maxAttempts : ℕ)
    (skip : List ℕ) : List ClaimedRow × OutboxTable :=
  let found := t.due limit now skip
  let spent := found.filter fun e => maxAttempts ≤ e.2.attempts
  let rows := found.filter fun e => e.2.attempts < maxAttempts
  (rows.map fun e => ⟨e.1, e.2.attempts + 1⟩,
    t.update fun id row =>
      if id ∈ spent.map Prod.fst then row.drop .maxAttempts now
      else if id ∈ rows.map Prod.fst then row.take (now + lease)
      else row)

/-- `mark_delivered`. -/
def markDelivered (t : OutboxTable) (ids : List ℕ) (now : Time) : OutboxTable :=
  t.update fun id row => if id ∈ ids ∧ row.state = .pending then row.deliver now else row

/-- `mark_dropped`. -/
def markDropped (t : OutboxTable) (ids : List ℕ) (reason : DropReason) (now : Time) : OutboxTable :=
  t.update fun id row => if id ∈ ids ∧ row.state = .pending then row.drop reason now else row

/-- `schedule_retry`: each row's next attempt is its delay from now. -/
def scheduleRetry (t : OutboxTable) (retries : List (ℕ × ℤ)) (now : Time) : OutboxTable :=
  t.update fun id row =>
    match retries.lookup id with
    | some delay => if row.state = .pending then row.retry (now + delay) else row
    | none => row

/-! ## What a statement does to a row -/

variable {t : OutboxTable} {id : ℕ} {row row' : OutboxRow}

theorem markDelivered_row {ids : List ℕ} {now : Time}
    (h : (t.markDelivered ids now).get id = some row') :
    ∃ row, t.get id = some row ∧
      (row' = row ∨ id ∈ ids ∧ row.state = .pending ∧ row' = row.deliver now) := by
  rw [markDelivered, Table.get_update, Option.map_eq_some_iff] at h
  obtain ⟨row, hrow, rfl⟩ := h
  refine ⟨row, hrow, ?_⟩
  split
  · next hmark => exact .inr ⟨hmark.1, hmark.2, rfl⟩
  · exact .inl rfl

theorem markDropped_row {ids : List ℕ} {reason : DropReason} {now : Time}
    (h : (t.markDropped ids reason now).get id = some row') :
    ∃ row, t.get id = some row ∧
      (row' = row ∨ id ∈ ids ∧ row.state = .pending ∧ row' = row.drop reason now) := by
  rw [markDropped, Table.get_update, Option.map_eq_some_iff] at h
  obtain ⟨row, hrow, rfl⟩ := h
  refine ⟨row, hrow, ?_⟩
  split
  · next hmark => exact .inr ⟨hmark.1, hmark.2, rfl⟩
  · exact .inl rfl

theorem scheduleRetry_row {retries : List (ℕ × ℤ)} {now : Time}
    (h : (t.scheduleRetry retries now).get id = some row') :
    ∃ row, t.get id = some row ∧
      (row' = row ∨ id ∈ retries.map Prod.fst ∧ row.state = .pending ∧
        ∃ delay, row' = row.retry (now + delay)) := by
  rw [scheduleRetry, Table.get_update, Option.map_eq_some_iff] at h
  obtain ⟨row, hrow, rfl⟩ := h
  refine ⟨row, hrow, ?_⟩
  cases hdelay : retries.lookup id with
  | none => exact .inl rfl
  | some delay =>
    by_cases hpending : row.state = .pending
    · obtain ⟨before, after, rfl, -⟩ := List.lookup_eq_some_iff.1 hdelay
      refine .inr ⟨by simp, hpending, delay, ?_⟩
      simp [hpending]
    · exact .inl (by simp [hpending])

theorem purgeExpired_row {now : Time} {exportEnabled : Bool}
    (h : (t.purgeExpired now exportEnabled).get id = some row) : t.get id = some row :=
  (Table.get_deleteWhere.1 h).1

theorem insertEntry_row {entryId : ℕ} {key : String} {createdAt : Time}
    (h : (t.insertEntry entryId key createdAt).get id = some row) :
    t.get id = some row ∨ id = entryId ∧ row = { idempotencyKey := key, createdAt } := by
  unfold insertEntry at h
  split at h
  · rw [Table.get_insert] at h
    split at h
    · next hid => exact .inr ⟨hid, (Option.some.inj h).symm⟩
    · exact .inl h
  · exact .inl h

/-! ## What a claim hands out -/

section Claim

variable {limit maxAttempts : ℕ} {lease : ℤ} {now : Time} {skip : List ℕ}

theorem mem_due {e : ℕ × OutboxRow} (h : e ∈ t.due limit now skip) :
    t.get e.1 = some e.2 ∧ e.2.Due now := by
  have hmem := List.mem_of_mem_take h
  rw [List.mem_mergeSort, Table.mem_select_iff, decide_eq_true_eq] at hmem
  exact ⟨hmem.1, hmem.2.1⟩

/-- The row of an id in a list of rows of the table is the row of the table. -/
theorem mem_of_key {l : List (ℕ × OutboxRow)} (hl : ∀ e ∈ l, t.get e.1 = some e.2)
    (hrow : t.get id = some row) (hid : id ∈ l.map Prod.fst) : (id, row) ∈ l := by
  obtain ⟨e, he, rfl⟩ := List.mem_map.1 hid
  obtain rfl := Option.some.inj ((hl e he).symm.trans hrow)
  exact he

/-- A claim drops a row whose attempts are used up, takes a row it hands out, and leaves every other
row as it is. -/
theorem claim_row (h : (t.claim limit lease now maxAttempts skip).2.get id = some row') :
    ∃ row, t.get id = some row ∧
      (row' = row ∨
        row.Due now ∧ maxAttempts ≤ row.attempts ∧ row' = row.drop .maxAttempts now ∨
        row.Due now ∧ row.attempts < maxAttempts ∧ row' = row.take (now + lease)) := by
  simp only [claim] at h
  rw [Table.get_update, Option.map_eq_some_iff] at h
  obtain ⟨row, hrow, rfl⟩ := h
  refine ⟨row, hrow, ?_⟩
  have hfound : ∀ e ∈ t.due limit now skip, t.get e.1 = some e.2 := fun e he => (mem_due he).1
  split
  · next hspent =>
    have hmem := mem_of_key (fun e he => hfound e (List.mem_of_mem_filter he)) hrow hspent
    rw [List.mem_filter, decide_eq_true_eq] at hmem
    exact .inr (.inl ⟨(mem_due hmem.1).2, hmem.2, rfl⟩)
  · split
    · next htaken =>
      have hmem := mem_of_key (fun e he => hfound e (List.mem_of_mem_filter he)) hrow htaken
      rw [List.mem_filter, decide_eq_true_eq] at hmem
      exact .inr (.inr ⟨(mem_due hmem.1).2, hmem.2, rfl⟩)
    · exact .inl rfl

/-- Every row a claim hands out was due and is taken. -/
theorem claim_rows {c : ClaimedRow} (h : c ∈ (t.claim limit lease now maxAttempts skip).1) :
    ∃ row, t.get c.entryId = some row ∧ row.Due now ∧ row.attempts < maxAttempts ∧
      c.attempts = row.attempts + 1 ∧
      (t.claim limit lease now maxAttempts skip).2.get c.entryId =
        some (row.take (now + lease)) := by
  simp only [claim, List.mem_map, List.mem_filter, decide_eq_true_eq] at h
  obtain ⟨⟨id, row⟩, ⟨hfound, hlt⟩, rfl⟩ := h
  obtain ⟨hrow, hdue⟩ := mem_due hfound
  refine ⟨row, hrow, hdue, hlt, rfl, ?_⟩
  have hfresh : id ∉ ((t.due limit now skip).filter
      fun e => maxAttempts ≤ e.2.attempts).map Prod.fst := by
    intro hspent
    have hmem := mem_of_key
      (fun e he => (mem_due (List.mem_of_mem_filter he)).1) hrow hspent
    rw [List.mem_filter, decide_eq_true_eq] at hmem
    exact absurd hlt (not_lt.2 hmem.2)
  have htaken : id ∈ ((t.due limit now skip).filter
      fun e => e.2.attempts < maxAttempts).map Prod.fst := by
    refine List.mem_map.2 ⟨(id, row), ?_, rfl⟩
    rw [List.mem_filter, decide_eq_true_eq]
    exact ⟨hfound, hlt⟩
  simp only [claim]
  rw [Table.get_update, hrow, Option.map_some, if_neg hfresh, if_pos htaken]

theorem claim_nodup :
    ((t.claim limit lease now maxAttempts skip).1.map ClaimedRow.entryId).Nodup := by
  have hkeys : ((t.select fun id row => row.Due now ∧ id ∉ skip).map Prod.fst).Nodup :=
    (List.filter_sublist.map Prod.fst).nodup t.keys_nodup
  have hsorted := (List.mergeSort_perm (t.select fun id row => row.Due now ∧ id ∉ skip)
    fun a b => decide (a.1 ≤ b.1)).map Prod.fst
  have hdue : ((t.due limit now skip).map Prod.fst).Nodup :=
    ((List.take_sublist _ _).map Prod.fst).nodup (hsorted.nodup_iff.2 hkeys)
  have hrows := (List.filter_sublist (p := fun e => decide (e.2.attempts < maxAttempts))
    (l := t.due limit now skip)).map Prod.fst
  simpa [claim, List.map_map, Function.comp_def] using hrows.nodup hdue

/-- A claim hands out the first due row. -/
theorem claim_first (limit : ℕ) (hrow : t.get id = some row) (hdue : row.Due now) (hskip : id ∉ skip)
    (hlt : row.attempts < maxAttempts)
    (hfirst : ∀ id' row', t.get id' = some row' → row'.Due now → id ≤ id') :
    ⟨id, row.attempts + 1⟩ ∈ (t.claim (limit + 1) lease now maxAttempts skip).1 := by
  have hmem : (id, row) ∈ t.select fun id row => row.Due now ∧ id ∉ skip := by
    rw [Table.mem_select_iff, decide_eq_true_eq]
    exact ⟨hrow, hdue, hskip⟩
  have hdue' : (id, row) ∈ t.due (limit + 1) now skip := by
    refine mem_take_of_least Prod.fst hmem ?_ limit
    rintro ⟨id', row'⟩ hmem' hne
    rw [Table.mem_select_iff, decide_eq_true_eq] at hmem'
    refine lt_of_le_of_ne (hfirst id' row' hmem'.1 hmem'.2.1) ?_
    rintro rfl
    exact hne (congrArg _ (Option.some.inj (hmem'.1.symm.trans hrow)))
  simp only [claim]
  refine List.mem_map.2 ⟨(id, row), ?_, rfl⟩
  rw [List.mem_filter, decide_eq_true_eq]
  exact ⟨hdue', hlt⟩

end Claim

/-! ## What a trim drops -/

section Trim

variable {excess : ℕ} {lease : ℤ} {now : Time} {skip : List ℕ}

theorem mem_trimmable {e : ℕ × OutboxRow} (h : e ∈ t.trimmable now lease skip) :
    t.get e.1 = some e.2 ∧ e.2.Trimmable now lease := by
  rw [trimmable, List.mem_mergeSort, Table.mem_select_iff, decide_eq_true_eq] at h
  exact ⟨h.1, h.2.1⟩

theorem trimmable_nodup : ((t.trimmable now lease skip).map Prod.fst).Nodup := by
  have hperm := (List.mergeSort_perm (t.select fun id row => row.Trimmable now lease ∧ id ∉ skip)
    fun a b => decide (ageKey a ≤ ageKey b)).map Prod.fst
  exact hperm.nodup_iff.2 ((List.filter_sublist.map Prod.fst).nodup t.keys_nodup)

/-- A trim drops a row it may drop, or leaves it as it is. -/
theorem trimBacklog_row (h : (t.trimBacklog excess now lease skip).get id = some row') :
    ∃ row, t.get id = some row ∧
      (row' = row ∨ row.Trimmable now lease ∧ row' = row.drop .backlog now) := by
  simp only [trimBacklog] at h
  rw [Table.get_update, Option.map_eq_some_iff] at h
  obtain ⟨row, hrow, rfl⟩ := h
  refine ⟨row, hrow, ?_⟩
  split
  · next hold =>
    have hmem := mem_of_key
      (fun e he => (mem_trimmable (List.mem_of_mem_take he)).1) hrow hold
    exact .inr ⟨(mem_trimmable (List.mem_of_mem_take hmem)).2, rfl⟩
  · exact .inl rfl

/-- The pending rows, by key. -/
def pendingIds (t : OutboxTable) : List ℕ :=
  (t.select fun _ row => row.state = .pending).map Prod.fst

theorem mem_pendingIds : id ∈ t.pendingIds ↔ ∃ row, t.get id = some row ∧ row.state = .pending := by
  simp [pendingIds, Table.mem_select_iff]

theorem pendingIds_nodup : t.pendingIds.Nodup :=
  (List.filter_sublist.map Prod.fst).nodup t.keys_nodup

theorem length_pendingIds : t.pendingIds.length = t.countPending := by
  simp [pendingIds, countPending]

theorem mem_pendingIds_trimBacklog :
    id ∈ (t.trimBacklog excess now lease skip).pendingIds ↔
      id ∈ t.pendingIds ∧ id ∉ ((t.trimmable now lease skip).take excess).map Prod.fst := by
  simp only [mem_pendingIds, trimBacklog, Table.get_update, Option.map_eq_some_iff]
  constructor
  · rintro ⟨_, ⟨row, hrow, rfl⟩, hpending⟩
    split at hpending
    · cases hpending
    · next hnot => exact ⟨⟨row, hrow, hpending⟩, hnot⟩
  · rintro ⟨⟨row, hrow, hpending⟩, hnot⟩
    exact ⟨row, ⟨row, hrow, if_neg hnot⟩, hpending⟩

/-- A trim takes away as many pending rows as it found, up to the number it was told. -/
theorem trimBacklog_count (t : OutboxTable) (excess : ℕ) (now : Time) (lease : ℤ)
    (skip : List ℕ) :
    (t.trimBacklog excess now lease skip).countPending +
      min excess (t.trimmable now lease skip).length = t.countPending := by
  have hperm : ((t.trimBacklog excess now lease skip).pendingIds ++
      ((t.trimmable now lease skip).take excess).map Prod.fst).Perm t.pendingIds := by
    refine (List.perm_ext_iff_of_nodup ?_ pendingIds_nodup).2 fun id => ?_
    · refine List.nodup_append.2 ⟨pendingIds_nodup, ?_, ?_⟩
      · exact ((List.take_sublist _ _).map Prod.fst).nodup trimmable_nodup
      · rintro a ha b hb rfl
        exact (mem_pendingIds_trimBacklog.1 ha).2 hb
    · rw [List.mem_append, mem_pendingIds_trimBacklog]
      constructor
      · rintro (⟨hpending, -⟩ | hold)
        · exact hpending
        · obtain ⟨e, he, rfl⟩ := List.mem_map.1 hold
          obtain ⟨hrow, htrim⟩ := mem_trimmable (List.mem_of_mem_take he)
          exact mem_pendingIds.2 ⟨e.2, hrow, htrim.pending⟩
      · intro hpending
        by_cases hold : id ∈ ((t.trimmable now lease skip).take excess).map Prod.fst
        · exact .inr hold
        · exact .inl ⟨hpending, hold⟩
  have hlength := hperm.length_eq
  simpa [length_pendingIds] using hlength

/-- Where every pending row may be dropped, a trim drops as many as it was told. -/
theorem trimBacklog_all
    (hall : ∀ id row, t.get id = some row → row.state = .pending → row.Trimmable now lease) :
    (t.trimBacklog excess now lease []).countPending = t.countPending - excess := by
  have hselect : (t.select fun id row => row.Trimmable now lease ∧ id ∉ ([] : List ℕ)) =
      t.select fun _ row => row.state = .pending := by
    refine List.filter_congr fun e he => ?_
    have hrow := Table.mem_rows_iff.1 he
    rw [decide_eq_decide]
    exact ⟨fun h => h.1.pending, fun h => ⟨hall e.1 e.2 hrow h, List.not_mem_nil⟩⟩
  have hlength : (t.trimmable now lease []).length = t.countPending := by
    rw [trimmable, List.length_mergeSort, hselect, countPending]
  have hcount := t.trimBacklog_count excess now lease []
  omega

/-- A trim drops the oldest row it may drop. -/
theorem trimBacklog_oldest (excess : ℕ) (hrow : t.get id = some row) (htrim : row.Trimmable now lease)
    (hskip : id ∉ skip)
    (holdest : ∀ id' row', t.get id' = some row' → row'.Trimmable now lease →
      ageKey (id, row) ≤ ageKey (id', row')) :
    (t.trimBacklog (excess + 1) now lease skip).get id = some (row.drop .backlog now) := by
  have hmem : (id, row) ∈ t.select fun id row => row.Trimmable now lease ∧ id ∉ skip := by
    rw [Table.mem_select_iff, decide_eq_true_eq]
    exact ⟨hrow, htrim, hskip⟩
  have hold : (id, row) ∈ (t.trimmable now lease skip).take (excess + 1) := by
    refine mem_take_of_least ageKey hmem ?_ excess
    rintro ⟨id', row'⟩ hmem' hne
    rw [Table.mem_select_iff, decide_eq_true_eq] at hmem'
    refine lt_of_le_of_ne (holdest id' row' hmem'.1 hmem'.2.1) ?_
    intro hkey
    obtain rfl : id = id' := (Prod.ext_iff.1 (toLex.injective hkey)).2
    exact hne (congrArg _ (Option.some.inj (hmem'.1.symm.trans hrow)))
  simp only [trimBacklog]
  rw [Table.get_update, hrow, Option.map_some, if_pos (List.mem_map_of_mem hold)]

end Trim

/-! ## No statement undoes anything -/

/-- Every row of the new table is a row of the old one, advanced, or a new one. -/
def Grows (limit : ℕ) (fresh : ℕ → Prop) (old new : OutboxTable) : Prop :=
  ∀ ⦃id row'⦄, new.get id = some row' →
    (∃ row, old.get id = some row ∧ row.Advances limit row') ∨
      fresh id ∧ row'.state = .pending ∧ row'.attempts = 0

variable {limit : ℕ} {fresh : ℕ → Prop}

theorem Grows.refl (t : OutboxTable) : Grows limit fresh t t :=
  fun _ row hrow => .inl ⟨row, hrow, .refl limit row⟩

theorem markDelivered_grows (ids : List ℕ) (now : Time) :
    Grows limit fresh t (t.markDelivered ids now) := by
  intro id row' h
  obtain ⟨row, hrow, rfl | ⟨-, hpending, rfl⟩⟩ := markDelivered_row h
  · exact .inl ⟨_, hrow, .refl _ _⟩
  · exact .inl ⟨row, hrow, .of_pending hpending rfl⟩

theorem markDropped_grows (ids : List ℕ) (reason : DropReason) (now : Time) :
    Grows limit fresh t (t.markDropped ids reason now) := by
  intro id row' h
  obtain ⟨row, hrow, rfl | ⟨-, hpending, rfl⟩⟩ := markDropped_row h
  · exact .inl ⟨_, hrow, .refl _ _⟩
  · exact .inl ⟨row, hrow, .of_pending hpending rfl⟩

theorem scheduleRetry_grows (retries : List (ℕ × ℤ)) (now : Time) :
    Grows limit fresh t (t.scheduleRetry retries now) := by
  intro id row' h
  obtain ⟨row, hrow, rfl | ⟨-, hpending, delay, rfl⟩⟩ := scheduleRetry_row h
  · exact .inl ⟨_, hrow, .refl _ _⟩
  · exact .inl ⟨row, hrow, .of_pending hpending rfl⟩

theorem purgeExpired_grows (now : Time) (exportEnabled : Bool) :
    Grows limit fresh t (t.purgeExpired now exportEnabled) :=
  fun _ row h => .inl ⟨row, purgeExpired_row h, .refl limit row⟩

theorem trimBacklog_grows (excess : ℕ) (now : Time) (lease : ℤ) (skip : List ℕ) :
    Grows limit fresh t (t.trimBacklog excess now lease skip) := by
  intro id row' h
  obtain ⟨row, hrow, rfl | ⟨htrim, rfl⟩⟩ := trimBacklog_row h
  · exact .inl ⟨_, hrow, .refl _ _⟩
  · exact .inl ⟨row, hrow, .of_pending htrim.pending rfl⟩

theorem claim_grows (n : ℕ) (lease : ℤ) (now : Time) (skip : List ℕ) :
    Grows limit fresh t (t.claim n lease now limit skip).2 := by
  intro id row' h
  obtain ⟨row, hrow, rfl | ⟨hdue, hspent, rfl⟩ | ⟨hdue, hlt, rfl⟩⟩ := claim_row h
  · exact .inl ⟨_, hrow, .refl _ _⟩
  · exact .inl ⟨row, hrow, .of_pending hdue.pending rfl⟩
  · refine .inl ⟨row, hrow, fun hfinal => absurd hdue.pending hfinal, ?_, fun _ => ?_⟩
    · exact Nat.le_succ _
    · exact hlt

theorem insertEntry_grows {entryId : ℕ} (hfresh : fresh entryId) (key : String) (createdAt : Time) :
    Grows limit fresh t (t.insertEntry entryId key createdAt) := by
  intro id row' h
  rcases insertEntry_row h with hrow | ⟨rfl, rfl⟩
  · exact .inl ⟨row', hrow, .refl limit row'⟩
  · exact .inr ⟨hfresh, rfl, rfl⟩

end OutboxTable

end OpsPilot
