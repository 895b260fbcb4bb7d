import OpsPilot.Foundations.Numbering
import OpsPilot.Foundations.Transition
import OpsPilot.Persistence.Announcements

/-!
# The event stream

Any number of transactions append to the event log at the same time, and readers follow the log of
a subject. Every append first takes the advisory lock of its subject, whose key is a hash of the
identity, and the lock is held until the transaction ends; a transaction may make several appends,
on one subject or on many. Each statement sees what is committed when it runs, and what its own
transaction wrote. A reader reads after the last number it has.

* `EventStream`, `eventStream`: the log, the sessions and the readers, and their steps.
* `EventStream.Sound`: the invariant. What a transaction sees of a subject is numbered from one;
  whoever holds a lock is the only one with rows of its subjects, so that what it saw of them stays
  true until it commits.
* **`events_resume`**: numbers are dense and become visible in order, a reader has seen the events
  before its cursor, and once-only appends with one kind and key store one event.
-/

namespace OpsPilot

/-- A row of the log, with the call that wrote it. -/
structure Written where
  call : Announcement
  sequence : ℕ

namespace Written

/-- The row as the table has it. -/
def event (w : Written) : SubjectEvent :=
  ⟨w.call.subjectId, w.sequence, w.call.kind, w.call.payload⟩

/-- Two events of once-only appends with the same kind and key. -/
def SameFact (a b : Written) : Prop :=
  a.call.wanted.isSome ∧ a.call.kind = b.call.kind ∧ a.call.wanted = b.call.wanted

end Written

/-- The table with these rows. -/
def eventLog (rows : List Written) : EventLog := rows.map Written.event

/-- The rows of a subject. -/
def rowsOf (subjectId : UUID) (rows : List Written) : List Written :=
  rows.filter fun w => w.call.subjectId = subjectId

/-- The events of a subject. -/
def timeline (subjectId : UUID) (rows : List Written) : List SubjectEvent :=
  (rowsOf subjectId rows).map Written.event

/-- No two of the rows are the same fact, stored twice. -/
def OnceOnly (rows : List Written) : Prop := rows.Pairwise fun a b => ¬ a.SameFact b

/-- Where a transaction is in an append. -/
inductive Appending
  | idle
  | locked (call : Announcement)
  | absent (call : Announcement)
  | numbered (call : Announcement) (sequence : ℕ)

/-- The call being made. -/
def Appending.call? : Appending → Option Announcement
  | idle => none
  | locked call | absent call | numbered call _ => some call

/-- The call is to be numbered next: an append at once, a once-only append after its look. -/
def Appending.Ready (call : Announcement) : Appending → Prop
  | locked call' => call' = call ∧ call.wanted = none
  | absent call' => call' = call
  | _ => False

/-- A database session: the locks of its transaction, the rows it has inserted, and where it is. -/
structure Session where
  held : List ℤ := []
  own : List Written := []
  doing : Appending := .idle

/-- A reader of a subject: the number it started after, its cursor, and what it has read. -/
structure EventReader where
  subjectId : UUID
  start : ℕ
  cursor : ℕ := start
  seen : List SubjectEvent := []

/-- The committed rows in the order they were committed, the sessions and the readers. -/
structure EventStream where
  log : List Written
  sessions : ℕ → Session
  readers : ℕ → EventReader

namespace EventStream

/-- What a statement of a session sees. -/
def view (σ : EventStream) (i : ℕ) : List Written := σ.log ++ (σ.sessions i).own

/-- A session moves on. -/
def set (σ : EventStream) (i : ℕ) (session : Session) : EventStream :=
  { σ with sessions := Function.update σ.sessions i session }

/-- The session's transaction commits. -/
def commit (σ : EventStream) (i : ℕ) : EventStream :=
  { σ with log := σ.view i, sessions := Function.update σ.sessions i {} }

/-- A reader moves on. -/
def setReader (σ : EventStream) (r : ℕ) (reader : EventReader) : EventStream :=
  { σ with readers := Function.update σ.readers r reader }

end EventStream

/-- The reader with one more page: its cursor is the number of the last event of the page. -/
def EventReader.after (reader : EventReader) (page : List SubjectEvent) : EventReader :=
  { reader with
    cursor := (page.getLast?.map SubjectEvent.sequence).getD reader.cursor
    seen := reader.seen ++ page }

/-- What a session or a reader does next. -/
inductive StreamMove
  | call (i : ℕ) (call : Announcement)
  | look (i : ℕ)
  | number (i : ℕ)
  | insert (i : ℕ)
  | commit (i : ℕ)
  | rollback (i : ℕ)
  | subscribe (r : ℕ) (subjectId : UUID) (start : ℕ)
  | read (r : ℕ) (limit : ℕ)

open EventStream

/-- A statement of a session, or a read. -/
inductive StreamStep (hash : UUID → ℤ) : EventStream → StreamMove → EventStream → Prop
  /-- `pg_advisory_xact_lock`: wait until no other transaction holds the lock. -/
  | call {σ : EventStream} {i : ℕ} {call : Announcement}
      (hidle : (σ.sessions i).doing = .idle) (hchecked : checkEvent call.kind = .ok ())
      (hfree : ∀ j, j ≠ i → hash call.subjectId ∉ (σ.sessions j).held) :
      StreamStep hash σ (.call i call) (σ.set i
        { σ.sessions i with
          held := hash call.subjectId :: (σ.sessions i).held
          doing := .locked call })
  /-- Is an event retained that answers the key? Then its sequence is the result. -/
  | look {σ : EventStream} {i : ℕ} {call : Announcement} {key : EventFields}
      (hdoing : (σ.sessions i).doing = .locked call) (hwanted : call.wanted = some key) :
      StreamStep hash σ (.look i) (σ.set i
        { σ.sessions i with
          doing :=
            if (eventLog (σ.view i)).retained call.subjectId call.kind key = [] then .absent call
            else .idle })
  /-- `COALESCE(MAX(sequence), 0) + 1`. -/
  | number {σ : EventStream} {i : ℕ} {call : Announcement}
      (hready : (σ.sessions i).doing.Ready call) :
      StreamStep hash σ (.number i) (σ.set i
        { σ.sessions i with
          doing := .numbered call ((eventLog (σ.view i)).nextSequence call.subjectId) })
  /-- The row is inserted. -/
  | insert {σ : EventStream} {i : ℕ} {call : Announcement} {sequence : ℕ}
      (hdoing : (σ.sessions i).doing = .numbered call sequence) :
      StreamStep hash σ (.insert i) (σ.set i
        { σ.sessions i with
          own := (σ.sessions i).own ++ [⟨call, sequence⟩]
          doing := .idle })
  /-- The transaction ends, its rows become visible and its locks are released. -/
  | commit {σ : EventStream} {i : ℕ} (hidle : (σ.sessions i).doing = .idle) :
      StreamStep hash σ (.commit i) (σ.commit i)
  /-- The transaction fails, or its process dies. -/
  | rollback (σ : EventStream) (i : ℕ) : StreamStep hash σ (.rollback i) (σ.set i {})
  /-- A reader starts after a number. -/
  | subscribe (σ : EventStream) (r : ℕ) (subjectId : UUID) (start : ℕ) :
      StreamStep hash σ (.subscribe r subjectId start)
        (σ.setReader r { subjectId := subjectId, start := start })
  /-- A reader reads after its cursor, on a snapshot of what is committed. -/
  | read {σ : EventStream} {r limit : ℕ} {page : List SubjectEvent} (hlimit : 0 < limit)
      (hpage : (eventLog σ.log).readAfter (σ.readers r).subjectId (σ.readers r).cursor limit =
        .ok page) :
      StreamStep hash σ (.read r limit) (σ.setReader r ((σ.readers r).after page))

/-- The event log from the day its table is created. -/
def eventStream (hash : UUID → ℤ) : LTS EventStream StreamMove where
  Init σ := σ.log = [] ∧ (∀ i, σ.sessions i = {}) ∧
    ∀ r, (σ.readers r).cursor = (σ.readers r).start ∧ (σ.readers r).seen = []
  Step := StreamStep hash

/-! ## The rows of one subject -/

section Rows

variable {subjectId other : UUID} {rows rows' : List Written} {w : Written}
  {call : Announcement} {kind : String} {key : EventFields}

theorem rowsOf_append (subjectId : UUID) (rows rows' : List Written) :
    rowsOf subjectId (rows ++ rows') = rowsOf subjectId rows ++ rowsOf subjectId rows' :=
  List.filter_append ..

/-- No row is the subject's. -/
theorem rowsOf_eq_nil (h : ∀ w ∈ rows, w.call.subjectId ≠ subjectId) :
    rowsOf subjectId rows = [] := by
  simpa [rowsOf, List.filter_eq_nil_iff] using h

theorem timeline_append (subjectId : UUID) (rows rows' : List Written) :
    timeline subjectId (rows ++ rows') = timeline subjectId rows ++ timeline subjectId rows' := by
  rw [timeline, rowsOf_append, List.map_append]
  rfl

/-- The table's events of a subject. -/
theorem filter_eventLog (subjectId : UUID) (rows : List Written) :
    List.filter (fun e => e.subjectId = subjectId) (eventLog rows) = timeline subjectId rows := by
  rw [eventLog, List.filter_map]
  rfl

/-- The events retained for a subject are among its rows. -/
theorem retained_eventLog (rows : List Written) :
    (eventLog rows).retained subjectId kind key =
      (timeline subjectId rows).filter fun e => e.kind = kind ∧ e.answers key := by
  rw [← filter_eventLog]
  show List.filter _ (rows.map Written.event) =
    List.filter _ (List.filter _ (rows.map Written.event))
  rw [List.filter_filter]
  congr 1
  funext e
  simp only [Bool.decide_and, Bool.decide_eq_true]
  cases decide (e.subjectId = subjectId) <;> simp

/-- The next number of a subject whose events are numbered. -/
theorem nextSequence_eventLog
    (h : Numbered SubjectEvent.sequence (timeline subjectId rows)) :
    (eventLog rows).nextSequence subjectId = (timeline subjectId rows).length + 1 := by
  rw [EventLog.nextSequence, filter_eventLog]
  exact h.next

/-- **A page is what follows the cursor.** -/
theorem readAfter_eventLog (h : Numbered SubjectEvent.sequence (timeline subjectId rows))
    (cursor limit : ℕ) :
    (eventLog rows).readAfter subjectId cursor limit =
      .ok (((timeline subjectId rows).drop cursor).take limit) := by
  have hfilter : (timeline subjectId rows).filter (fun e => ((cursor : ℕ) : ℤ) < e.sequence) =
      (timeline subjectId rows).drop cursor := by
    rw [← h.after cursor]
    congr 1
    funext e
    exact decide_eq_decide.2 Nat.cast_lt
  have hfloor : ¬ ∃ oldest ∈ ((timeline subjectId rows).map SubjectEvent.sequence).min?,
      ((cursor : ℕ) : ℤ) < oldest - 1 := by
    rintro ⟨oldest, holdest, hlt⟩
    have hone := h.eq_one_of_min holdest
    omega
  unfold EventLog.readAfter
  rw [filter_eventLog, if_neg (by omega)]
  simp only
  rw [if_neg hfloor, hfilter, h.sorted]

end Rows

/-! ## The invariant -/

namespace Appending

/-- Nothing retained answers the key a call wants. -/
def Unannounced (rows : List Written) (call : Announcement) : Prop :=
  ∀ key ∈ call.wanted,
    (timeline call.subjectId rows).filter (fun e => e.kind = call.kind ∧ e.answers key) = []

/-- What a transaction found out about the log is still so. -/
def Fits (rows : List Written) : Appending → Prop
  | idle | locked _ => True
  | absent call => Unannounced rows call
  | numbered call sequence =>
    Unannounced rows call ∧ sequence = (timeline call.subjectId rows).length + 1

theorem Unannounced.congr {rows rows' : List Written} {call : Announcement}
    (h : timeline call.subjectId rows' = timeline call.subjectId rows)
    (hcall : Unannounced rows call) : Unannounced rows' call := by
  rw [Unannounced, h]
  exact hcall

/-- It depends on the events of the subject alone. -/
theorem Fits.congr {rows rows' : List Written} {doing : Appending}
    (h : ∀ call ∈ doing.call?, timeline call.subjectId rows' = timeline call.subjectId rows)
    (hfits : doing.Fits rows) : doing.Fits rows' := by
  cases doing with
  | idle | locked call => trivial
  | absent call => exact Unannounced.congr (h call rfl) hfits
  | numbered call sequence =>
    exact ⟨hfits.1.congr (h call rfl), by rw [h call rfl]; exact hfits.2⟩

end Appending

namespace EventStream

/-- A reader has read what follows its start, as far as its cursor. -/
structure UpTo (log : List Written) (reader : EventReader) : Prop where
  seen : reader.seen <+: (timeline reader.subjectId log).drop reader.start
  cursor : reader.cursor = reader.start + reader.seen.length

/-- The rows of every subject are numbered, and no fact is stored twice. -/
structure InOrder (rows : List Written) : Prop where
  numbered : ∀ subjectId, Numbered SubjectEvent.sequence (timeline subjectId rows)
  once : ∀ subjectId, OnceOnly (rowsOf subjectId rows)

/-- What holds of a session, given what is committed. -/
structure Keeps (hash : UUID → ℤ) (log : List Written) (session : Session) : Prop where
  own : ∀ w ∈ session.own, hash w.call.subjectId ∈ session.held
  doing : ∀ call ∈ session.doing.call?, hash call.subjectId ∈ session.held
  inOrder : InOrder (log ++ session.own)
  fits : session.doing.Fits (log ++ session.own)

/-- The invariant. -/
structure Sound (hash : UUID → ℤ) (σ : EventStream) : Prop where
  exclusive : ∀ i j, i ≠ j → ∀ lock ∈ (σ.sessions i).held, lock ∉ (σ.sessions j).held
  sessions : ∀ i, Keeps hash σ.log (σ.sessions i)
  readers : ∀ r, UpTo σ.log (σ.readers r)

variable {hash : UUID → ℤ} {σ τ : EventStream} {i : ℕ} {session : Session}

theorem InOrder.nil : InOrder [] := ⟨fun _ => .nil, fun _ => List.Pairwise.nil⟩

/-- What a transaction sees is in order, so what is committed is. -/
theorem InOrder.of_append {rows own : List Written} (h : InOrder (rows ++ own)) :
    InOrder rows := by
  refine ⟨fun subjectId => ?_, fun subjectId => ?_⟩
  · have hboth := h.numbered subjectId
    rw [timeline_append] at hboth
    exact hboth.of_append
  · have hboth := h.once subjectId
    rw [OnceOnly, rowsOf_append] at hboth
    exact (List.pairwise_append.1 hboth).1

/-- A numbered row that nothing retained answers is in order. -/
theorem InOrder.concat {rows : List Written} {call : Announcement} {sequence : ℕ}
    (h : InOrder rows) (hfits : (Appending.numbered call sequence).Fits rows) :
    InOrder (rows ++ [⟨call, sequence⟩]) := by
  obtain ⟨habsent, hsequence⟩ := hfits
  refine ⟨fun subjectId => ?_, fun subjectId => ?_⟩
  · rw [timeline_append]
    by_cases hsubject : call.subjectId = subjectId
    · have hrow : timeline subjectId [⟨call, sequence⟩] = [(Written.mk call sequence).event] := by
        simp [timeline, rowsOf, hsubject]
      rw [hrow]
      refine (h.numbered subjectId).concat ?_
      show sequence = _
      rw [hsequence, hsubject]
    · have hrow : timeline subjectId [⟨call, sequence⟩] = [] := by
        simp [timeline, rowsOf, hsubject]
      rw [hrow, List.append_nil]
      exact h.numbered subjectId
  · rw [OnceOnly, rowsOf_append]
    refine List.pairwise_append.2 ⟨h.once subjectId, ?_, ?_⟩
    · exact List.Pairwise.filter _ (List.pairwise_singleton _ _)
    · intro w hw w' hw' hsame
      obtain ⟨hmem, hsubject⟩ := List.mem_filter.1 hw'
      obtain rfl := List.mem_singleton.1 hmem
      have hown : call.subjectId = subjectId := by simpa using hsubject
      obtain ⟨hsome, hkind, hwanted⟩ := hsame
      obtain ⟨key, hkey⟩ := Option.isSome_iff_exists.1 hsome
      -- The row it is the same as is retained, and answers the key.
      have hanswers : w.event.answers key = true := w.call.answers hkey
      have hnone := habsent key (hwanted ▸ hkey)
      rw [hown, List.filter_eq_nil_iff] at hnone
      refine hnone w.event (List.mem_map_of_mem hw) ?_
      simp only [decide_eq_true_eq]
      exact ⟨hkind, hanswers⟩

/-- One session moves on, and what is committed stays. -/
theorem Sound.set (h : Sound hash σ) (hkeeps : Keeps hash σ.log session)
    (hfree : ∀ lock ∈ session.held, ∀ j, j ≠ i → lock ∉ (σ.sessions j).held) :
    Sound hash (σ.set i session) := by
  refine ⟨fun j k hjk lock hlock => ?_, fun j => ?_, h.readers⟩
  · simp only [EventStream.set] at hlock ⊢
    by_cases hj : j = i
    · subst hj
      rw [Function.update_self] at hlock
      rw [Function.update_of_ne hjk.symm]
      exact hfree lock hlock k hjk.symm
    · rw [Function.update_of_ne hj] at hlock
      by_cases hk : k = i
      · subst hk
        rw [Function.update_self]
        exact fun hmem => hfree lock hmem j hj hlock
      · rw [Function.update_of_ne hk]
        exact h.exclusive j k hjk lock hlock
  · simp only [EventStream.set]
    by_cases hj : j = i
    · rw [hj, Function.update_self]
      exact hkeeps
    · rw [Function.update_of_ne hj]
      exact h.sessions j

/-- The locks a session keeps are free of the others. -/
theorem Sound.free (h : Sound hash σ) :
    ∀ lock ∈ (σ.sessions i).held, ∀ j, j ≠ i → lock ∉ (σ.sessions j).held :=
  fun lock hlock j hj => h.exclusive i j (Ne.symm hj) lock hlock

/-- A reader goes on when more is committed. -/
theorem UpTo.append {log : List Written} {reader : EventReader} (h : UpTo log reader)
    (rows : List Written) : UpTo (log ++ rows) reader := by
  refine ⟨h.seen.trans ?_, h.cursor⟩
  rw [timeline_append]
  exact (List.prefix_append _ _).drop _

/-- **Others' rows.** A commit adds nothing to the subjects whose lock another transaction holds,
and that transaction has nothing of the others. -/
theorem Sound.rowsOf_commit (h : Sound hash σ) {i j : ℕ} (hij : i ≠ j) (subjectId : UUID) :
    rowsOf subjectId (σ.view i ++ (σ.sessions j).own) = rowsOf subjectId (σ.view i) ∨
      rowsOf subjectId (σ.view i ++ (σ.sessions j).own) = rowsOf subjectId (σ.view j) := by
  by_cases hheld : hash subjectId ∈ (σ.sessions j).held
  · right
    have hnil : rowsOf subjectId (σ.sessions i).own = [] := by
      refine rowsOf_eq_nil fun w hw heq => ?_
      exact h.exclusive i j hij _ ((h.sessions i).own w hw) (heq ▸ hheld)
    rw [rowsOf_append, EventStream.view, EventStream.view, rowsOf_append, rowsOf_append, hnil,
      List.append_nil]
  · left
    have hnil : rowsOf subjectId (σ.sessions j).own = [] :=
      rowsOf_eq_nil fun w hw heq => hheld (heq ▸ (h.sessions j).own w hw)
    rw [rowsOf_append, hnil, List.append_nil]

/-- A transaction finds its subject as it was when another one commits. -/
theorem Sound.timeline_commit (h : Sound hash σ) {i j : ℕ} (hij : i ≠ j) {subjectId : UUID}
    (hheld : hash subjectId ∈ (σ.sessions j).held) :
    timeline subjectId (σ.view i ++ (σ.sessions j).own) = timeline subjectId (σ.view j) := by
  have hnil : rowsOf subjectId (σ.sessions i).own = [] := by
    refine rowsOf_eq_nil fun w hw heq => ?_
    exact h.exclusive i j hij _ ((h.sessions i).own w hw) (heq ▸ hheld)
  rw [timeline, timeline, rowsOf_append, EventStream.view, EventStream.view, rowsOf_append,
    rowsOf_append, hnil, List.append_nil]

/-- **A commit keeps the invariant.** -/
theorem Sound.commit (h : Sound hash σ) : Sound hash (σ.commit i) := by
  have hcommitted := (h.sessions i).inOrder
  refine ⟨fun j k hjk lock hlock => ?_, fun j => ?_, fun r => (h.readers r).append _⟩
  · simp only [EventStream.commit] at hlock ⊢
    have hj : j ≠ i := by
      rintro rfl
      rw [Function.update_self] at hlock
      cases hlock
    rw [Function.update_of_ne hj] at hlock
    by_cases hk : k = i
    · rw [hk, Function.update_self]
      exact List.not_mem_nil
    · rw [Function.update_of_ne hk]
      exact h.exclusive j k hjk lock hlock
  · simp only [EventStream.commit]
    by_cases hj : j = i
    · rw [hj, Function.update_self]
      have hview : σ.view i ++ (Session.own {}) = σ.view i := List.append_nil _
      refine ⟨fun w hw => absurd hw List.not_mem_nil, fun call hcall => ?_, ?_, trivial⟩
      · cases hcall
      · rw [hview]
        exact hcommitted
    · rw [Function.update_of_ne hj]
      have hother := h.sessions j
      refine ⟨hother.own, hother.doing, ⟨fun subjectId => ?_, fun subjectId => ?_⟩, ?_⟩
      · rw [timeline]
        rcases h.rowsOf_commit (Ne.symm hj) subjectId with heq | heq
        · rw [heq]
          exact hcommitted.numbered subjectId
        · rw [heq]
          exact hother.inOrder.numbered subjectId
      · rcases h.rowsOf_commit (Ne.symm hj) subjectId with heq | heq
        · rw [heq]
          exact hcommitted.once subjectId
        · rw [heq]
          exact hother.inOrder.once subjectId
      · exact hother.fits.congr fun call hcall =>
          h.timeline_commit (Ne.symm hj) (hother.doing call hcall)

/-- The state a session is in decides nothing of what it wrote. -/
theorem Keeps.moves {log : List Written} {doing : Appending} (h : Keeps hash log session)
    (hcall : ∀ call ∈ doing.call?, hash call.subjectId ∈ session.held)
    (hfits : doing.Fits (log ++ session.own)) :
    Keeps hash log { session with doing := doing } :=
  ⟨h.own, hcall, h.inOrder, hfits⟩

/-- The call a session is ready to number, and what it knows of it. -/
theorem Keeps.ready {log : List Written} {call : Announcement} (h : Keeps hash log session)
    (hready : session.doing.Ready call) :
    hash call.subjectId ∈ session.held ∧
      Appending.Unannounced (log ++ session.own) call := by
  have hdoing := h.doing
  have hfits := h.fits
  cases hsession : session.doing with
  | idle | numbered call' sequence =>
    rw [hsession] at hready
    cases hready
  | locked call' =>
    rw [hsession] at hready hdoing
    obtain ⟨rfl, hnone⟩ := hready
    refine ⟨hdoing _ rfl, fun key hkey => ?_⟩
    rw [hnone] at hkey
    cases hkey
  | absent call' =>
    rw [hsession] at hready hdoing hfits
    obtain rfl := hready
    exact ⟨hdoing _ rfl, hfits⟩

/-- **A page moves a reader on.** -/
theorem UpTo.after {log : List Written} {reader : EventReader} {limit : ℕ}
    {page : List SubjectEvent} (h : UpTo log reader) (hlog : InOrder log)
    (hpage : (eventLog log).readAfter reader.subjectId reader.cursor limit = .ok page) :
    UpTo log (reader.after page) := by
  have hnumbered := hlog.numbered reader.subjectId
  rw [readAfter_eventLog hnumbered, Except.ok.injEq] at hpage
  obtain ⟨rest, hrest⟩ := h.seen
  -- The page is taken from what follows the events the reader has.
  have hdrop : (timeline reader.subjectId log).drop reader.cursor = rest := by
    rw [h.cursor, ← List.drop_drop, ← hrest, List.drop_left]
  refine ⟨?_, ?_⟩
  · show reader.seen ++ page <+: (timeline reader.subjectId log).drop reader.start
    rw [← hrest, ← hpage, hdrop]
    exact (List.prefix_append_right_inj _).2 (List.take_prefix _ _)
  · show (page.getLast?.map SubjectEvent.sequence).getD reader.cursor =
      reader.start + (reader.seen ++ page).length
    rw [List.length_append, ← Nat.add_assoc, ← h.cursor]
    cases hlast : page.getLast? with
    | none =>
      rw [List.getLast?_eq_none_iff] at hlast
      simp [hlast]
    | some e =>
      rw [← hpage] at hlast ⊢
      exact hnumbered.last_after hlast

/-- **A step keeps the invariant.** -/
theorem Sound.step {move : StreamMove} (h : Sound hash σ) (hstep : StreamStep hash σ move τ) :
    Sound hash τ := by
  cases hstep with
  | @call i call hidle hchecked hfree =>
    have hkeeps := h.sessions i
    refine h.set ⟨fun w hw => .tail _ (hkeeps.own w hw), fun call' hcall => ?_, hkeeps.inOrder,
      trivial⟩ fun lock hlock => ?_
    · obtain rfl := Option.some.inj hcall
      exact List.mem_cons_self
    · rcases List.mem_cons.1 hlock with rfl | hold
      · exact hfree
      · exact h.free lock hold
  | @look i call key hdoing hwanted =>
    have hkeeps := h.sessions i
    have hheld : hash call.subjectId ∈ (σ.sessions i).held :=
      hkeeps.doing call (by rw [hdoing]; rfl)
    refine h.set (hkeeps.moves ?_ ?_) h.free
    · split
      · rintro call' hcall
        obtain rfl := Option.some.inj hcall
        exact hheld
      · rintro call' hcall
        cases hcall
    · split
      · next hnone =>
        intro key' hkey
        obtain rfl : key = key' := Option.some.inj (hwanted.symm.trans hkey)
        rw [retained_eventLog] at hnone
        exact hnone
      · trivial
  | @number i call hready =>
    have hkeeps := h.sessions i
    obtain ⟨hheld, habsent⟩ := hkeeps.ready hready
    refine h.set (hkeeps.moves ?_ ⟨habsent, ?_⟩) h.free
    · rintro call' hcall
      obtain rfl := Option.some.inj hcall
      exact hheld
    · exact nextSequence_eventLog (hkeeps.inOrder.numbered _)
  | @insert i call sequence hdoing =>
    have hkeeps := h.sessions i
    have hheld : hash call.subjectId ∈ (σ.sessions i).held :=
      hkeeps.doing call (by rw [hdoing]; rfl)
    have hfits := hkeeps.fits
    rw [hdoing] at hfits
    refine h.set ⟨fun w hw => ?_, fun call' hcall => ?_, ?_, trivial⟩ h.free
    · rcases List.mem_append.1 hw with hold | hnew
      · exact hkeeps.own w hold
      · obtain rfl := List.mem_singleton.1 hnew
        exact hheld
    · cases hcall
    · rw [← List.append_assoc]
      exact hkeeps.inOrder.concat hfits
  | commit hidle => exact h.commit
  | rollback i =>
    refine h.set ⟨fun w hw => absurd hw List.not_mem_nil, fun call hcall => ?_, ?_, trivial⟩
      fun lock hlock => absurd hlock List.not_mem_nil
    · cases hcall
    · rw [List.append_nil]
      exact (h.sessions i).inOrder.of_append
  | subscribe r subjectId start =>
    refine ⟨h.exclusive, h.sessions, fun r' => ?_⟩
    simp only [EventStream.setReader]
    by_cases hr : r' = r
    · rw [hr, Function.update_self]
      exact ⟨List.nil_prefix, rfl⟩
    · rw [Function.update_of_ne hr]
      exact h.readers r'
  | @read r limit page hlimit hpage =>
    refine ⟨h.exclusive, h.sessions, fun r' => ?_⟩
    simp only [EventStream.setReader]
    by_cases hr : r' = r
    · rw [hr, Function.update_self]
      exact (h.readers r).after (h.sessions 0).inOrder.of_append hpage
    · rw [Function.update_of_ne hr]
      exact h.readers r'

theorem sound_of_reachable (h : (eventStream hash).Reachable σ) : Sound hash σ := by
  refine h.invariant (fun s hs => ?_) fun hstep hsound => hsound.step hstep
  obtain ⟨hlog, hidle, hreaders⟩ := hs
  refine ⟨fun i j hij lock hlock => ?_, fun i => ?_, fun r => ?_⟩
  · rw [hidle i] at hlock
    cases hlock
  · rw [hlog, hidle i]
    refine ⟨fun w hw => absurd hw List.not_mem_nil, fun call hcall => ?_, InOrder.nil, trivial⟩
    cases hcall
  · refine ⟨?_, ?_⟩
    · rw [(hreaders r).2]
      exact List.nil_prefix
    · rw [(hreaders r).1, (hreaders r).2, List.length_nil, Nat.add_zero]

/-- One more step. -/
theorem reachable_step {move : StreamMove} (h : (eventStream hash).Reachable σ)
    (hstep : StreamStep hash σ move τ) : (eventStream hash).Reachable τ :=
  h.step hstep

/-- What is committed stays, and more is added after it. -/
theorem log_extends {moves : List StreamMove} (hrun : (eventStream hash).Run σ moves τ) :
    σ.log <+: τ.log := by
  refine hrun.stable (P := fun s => σ.log <+: s.log) (fun {s move t} hstep hbefore => ?_)
    List.prefix_rfl
  cases hstep with
  | commit hidle => exact hbefore.trans (List.prefix_append _ _)
  | call | look | number | insert | rollback | subscribe | read => exact hbefore

/-- **The event stream loses nothing.** -/
theorem events_resume (h : (eventStream hash).Reachable σ) :
    (∀ subjectId,
      (timeline subjectId σ.log).map SubjectEvent.sequence =
        List.range' 1 (timeline subjectId σ.log).length) ∧
    (∀ subjectId, ∀ e ∈ timeline subjectId σ.log, ∀ n, 1 ≤ n → n < e.sequence →
      ∃ e' ∈ timeline subjectId σ.log, e'.sequence = n) ∧
    (∀ moves τ, (eventStream hash).Run σ moves τ → σ.log <+: τ.log) ∧
    (∀ r, (σ.readers r).seen <+:
        (timeline (σ.readers r).subjectId σ.log).drop (σ.readers r).start) ∧
    (∀ r limit, 0 < limit → ∃ page,
      (eventLog σ.log).readAfter (σ.readers r).subjectId (σ.readers r).cursor limit = .ok page ∧
      (σ.readers r).seen ++ page =
        ((timeline (σ.readers r).subjectId σ.log).drop (σ.readers r).start).take
          ((σ.readers r).seen.length + limit)) ∧
    ∀ subjectId, (rowsOf subjectId σ.log).Pairwise fun a b =>
      ¬ (a.call.wanted.isSome ∧ a.call.kind = b.call.kind ∧ a.call.wanted = b.call.wanted) := by
  have hsound := sound_of_reachable h
  have hlog : InOrder σ.log := (hsound.sessions 0).inOrder.of_append
  refine ⟨hlog.numbered, fun subjectId e he n hn hlt => (hlog.numbered _).exists_of_lt he hn hlt,
    fun moves τ hrun => log_extends hrun, fun r => (hsound.readers r).seen, fun r limit hlimit => ?_,
    hlog.once⟩
  refine ⟨_, readAfter_eventLog (hlog.numbered _) _ _, ?_⟩
  obtain ⟨rest, hrest⟩ := (hsound.readers r).seen
  have hdrop : (timeline (σ.readers r).subjectId σ.log).drop (σ.readers r).cursor = rest := by
    rw [(hsound.readers r).cursor, ← List.drop_drop, ← hrest, List.drop_left]
  rw [hdrop, ← hrest, List.take_length_add_append]

/-- The log before its first event. -/
def fresh : EventStream :=
  ⟨[], fun _ => {}, fun _ => { subjectId := 7, start := 0 }⟩

/-- The append of an incident's intake, alone and followed by a read. -/
theorem events_resume_intake :
    ∃ σ, (eventStream fun id => (id : ℤ)).Reachable σ ∧ (timeline 7 σ.log).length = 1 ∧
      (∀ subjectId, (timeline subjectId σ.log).map SubjectEvent.sequence =
        List.range' 1 (timeline subjectId σ.log).length) ∧
      (σ.readers 0).seen.length = 1 := by
  let call := announceIntake 7 11 "r" "a" "web" "t" "q" "2026-01-01"
  have hinit : (eventStream fun id => (id : ℤ)).Reachable fresh :=
    .init ⟨rfl, fun _ => rfl, fun _ => ⟨rfl, rfl⟩⟩
  have hcall := reachable_step hinit
    (.call (i := 0) (show (fresh.sessions 0).doing = .idle from rfl)
      (show checkEvent call.kind = .ok () by decide) fun _ _ => List.not_mem_nil)
  have hlook := reachable_step hcall (.look (i := 0) rfl rfl)
  have hnumber := reachable_step hlook
    (.number (i := 0) (show Appending.Ready call _ from rfl))
  have hinsert := reachable_step hnumber (.insert (i := 0) rfl)
  have hcommit := reachable_step hinsert (.commit (i := 0) rfl)
  have hread := reachable_step hcommit
    (.read (r := 0) (show 0 < 1000 by decide) (readAfter_eventLog (by rfl) 0 1000))
  exact ⟨_, hread, rfl, (events_resume hread).1, rfl⟩

end EventStream

end OpsPilot
