import OpsPilot.Persistence.Base

/-!
# The event log of a subject

`opspilot_subject_events`: what the workbench shows of an incident, one row an event. The log is
only appended to. `append_once` first looks for a retained event of the kind whose payload contains
a key, and appends only if there is none; `EventLog.retained` is what it looks for.

Payloads are JSON objects, and the values of a key are scalars, for which containment is equality.
-/

namespace OpsPilot

/-- A row of `opspilot_subject_events`. -/
structure SubjectEvent where
  subjectId : UUID
  sequence : ℕ
  kind : String
  payload : List (String × Json)
  deriving DecidableEq

/-- The rows of `opspilot_subject_events`, in the order they were written. -/
def EventLog := List SubjectEvent

/-- `check_event`: a payload is a mapping by its type. -/
def checkEvent (kind : String) : Except Code Unit :=
  refuse (kind = "" ∨ 64 < kind.length) .invalidInput

namespace SubjectEvent

/-- `payload @> key`. -/
def contains (e : SubjectEvent) (key : List (String × Json)) : Bool :=
  key.all fun field => e.payload.lookup field.1 = some field.2

/-- The payload contains the key. A key with `reconciled` false is also answered by an older payload
without the field. -/
def answers (e : SubjectEvent) (key : List (String × Json)) : Bool :=
  e.contains key ∨ key.lookup "reconciled" = some (.bool false) ∧
    e.contains (key.filter fun field => field.1 ≠ "reconciled") ∧
    e.payload.lookup "reconciled" = none

end SubjectEvent

namespace EventLog

/-- The events of a kind the log has for a subject, with a payload that answers the key. -/
def retained (log : EventLog) (subjectId : UUID) (kind : String) (key : List (String × Json)) :
    List SubjectEvent :=
  List.filter (fun e => e.subjectId = subjectId ∧ e.kind = kind ∧ e.answers key) log

/-- The sequence of the next event of a subject. -/
def nextSequence (log : EventLog) (subjectId : UUID) : ℕ :=
  ((List.filter (fun e => e.subjectId = subjectId) log).map SubjectEvent.sequence).max?.getD 0 + 1

/-- The log with one more event. -/
def written (log : EventLog) (subjectId : UUID) (kind : String)
    (payload : List (String × Json)) : EventLog :=
  List.append log [⟨subjectId, log.nextSequence subjectId, kind, payload⟩]

/-- `append`: the sequence of the new event. -/
def append (log : EventLog) (subjectId : UUID) (kind : String)
    (payload : List (String × Json)) : Except Code (ℕ × EventLog) := do
  checkEvent kind
  pure (log.nextSequence subjectId, log.written subjectId kind payload)

/-- `append_once_in`: the sequence of the retained or of the new event. -/
def appendOnceIn (log : EventLog) (subjectId : UUID) (kind : String)
    (payload : List (String × Json)) (key : Option (List (String × Json)) := none) :
    Except Code (ℕ × EventLog) := do
  checkEvent kind
  match ((log.retained subjectId kind (key.getD [])).map SubjectEvent.sequence).min? with
  | some sequence => pure (sequence, log)
  | none => log.append subjectId kind payload

/-- Why `read_after` gives no page. -/
inductive ReadRefusal
  | invalidInput
  | cursorTooOld
  deriving DecidableEq

/-- `read_after`, on the snapshot it reads: the events after the cursor, at most `limit` of them. -/
def readAfter (log : EventLog) (subjectId : UUID) (cursor : ℤ) (limit : ℕ) :
    Except ReadRefusal (List SubjectEvent) :=
  if cursor < 0 then .error .invalidInput
  else
    let rows := List.filter (fun e => e.subjectId = subjectId) log
    if ∃ oldest ∈ (rows.map SubjectEvent.sequence).min?, cursor < oldest - 1 then
      .error .cursorTooOld
    else
      .ok (((rows.filter fun e => cursor < e.sequence).mergeSort
        fun a b => a.sequence ≤ b.sequence).take limit)

variable {log log' : EventLog} {subjectId other : UUID} {kind kind' : String}
  {payload : List (String × Json)} {key : Option (List (String × Json))}
  {wanted : List (String × Json)} {sequence : ℕ}

/-- What the new event adds to the retained events. -/
theorem retained_written :
    (log.written subjectId kind payload).retained other kind' wanted =
      log.retained other kind' wanted ++
        (retained [⟨subjectId, log.nextSequence subjectId, kind, payload⟩] other kind' wanted) :=
  List.filter_append ..

/-- An event of another kind is not retained under this one. -/
theorem retained_written_ne (h : kind ≠ kind') :
    (log.written subjectId kind payload).retained other kind' wanted =
      log.retained other kind' wanted := by
  have hnone : (retained [⟨subjectId, log.nextSequence subjectId, kind, payload⟩] other kind'
      wanted) = [] := by simp [retained, h]
  rw [retained_written, hnone, List.append_nil]

theorem append_ok (h : log.append subjectId kind payload = .ok (sequence, log')) :
    log' = log.written subjectId kind payload := by
  obtain ⟨-, -, h⟩ := bind_eq_ok.1 h
  simp only [pure_eq_ok, Prod.mk.injEq] at h
  exact h.2.symm

/-- An event is appended if none that answers its key is retained. -/
theorem appendOnceIn_ok (h : log.appendOnceIn subjectId kind payload key = .ok (sequence, log')) :
    log.retained subjectId kind (key.getD []) ≠ [] ∧ log' = log ∨
      log.retained subjectId kind (key.getD []) = [] ∧
        log' = log.written subjectId kind payload := by
  obtain ⟨-, -, h⟩ := bind_eq_ok.1 h
  split at h
  · next n hmin =>
    simp only [pure_eq_ok, Prod.mk.injEq] at h
    refine .inl ⟨fun hnil => ?_, h.2.symm⟩
    simp [hnil] at hmin
  · next hmin =>
    exact .inr ⟨by simpa using hmin, append_ok h⟩

/-- Events of a kind that passes the check are appended. -/
theorem appendOnceIn_total (hkind : checkEvent kind = .ok ()) :
    ∃ result, log.appendOnceIn subjectId kind payload key = .ok result := by
  unfold appendOnceIn append
  rw [hkind]
  simp only [bind, Except.bind]
  split <;> exact ⟨_, rfl⟩

/-- Writing events of other kinds changes nothing retained under this one. -/
theorem retained_appendOnceIn_ne (hne : kind ≠ kind')
    (h : log.appendOnceIn subjectId kind payload key = .ok (sequence, log')) :
    log'.retained other kind' wanted = log.retained other kind' wanted := by
  rcases appendOnceIn_ok h with ⟨-, rfl⟩ | ⟨-, rfl⟩
  · rfl
  · exact retained_written_ne hne

end EventLog

end OpsPilot
