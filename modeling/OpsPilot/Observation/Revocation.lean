import OpsPilot.Persistence.Base

/-!
# Ending observation sessions

The two functions through which every session ends, inside the transaction of the caller:
`endSession` closes one session and records the ending, and `revokeAuthorizedSessions` withdraws
every authorized session of an incident. They touch the session and ending tables only, so they
are functions on that pair of tables.
-/

namespace OpsPilot

/-- The two tables a session ending writes. -/
structure SessionTables where
  sessions : Table UUID SessionRow
  endings : List EndingRow

namespace Store

/-- The session tables of the store. -/
def sessionTables (s : Store) : SessionTables := ⟨s.sessions, s.endings⟩

/-- The store with its session tables replaced. -/
def withSessionTables (s : Store) (tables : SessionTables) : Store :=
  { s with sessions := tables.sessions, endings := tables.endings }

end Store

/-- `_SESSION_TRIGGER`: how each ending reason moves the session machine. -/
def sessionTrigger : EndedReason → ObservationTrigger
  | .recoveryConfirmed => .observationCompleted
  | .deadlineExpired | .maxSamplesExhausted => .deadlineExpired
  | .authorityRevoked | .bindingStale | .scopeSuspended => .authorityRevoked

/-- The state a session ends in for a reason. -/
def endedState (reason : EndedReason) : ObservationSessionState :=
  match observationSession.fire .authorized (sessionTrigger reason) with
  | some state => state
  | none => .authorized

/-- The watermarks an ending sample leaves on its session. -/
structure Watermark where
  adoptedSequence : ℕ
  adoptedWindowEnd : Option Time
  adoptedCount : ℕ
  healthySince : Option Time

/-- The row of a session that ended: state, reason and watermarks set, job slot cleared. -/
def SessionRow.ended (row : SessionRow) (reason : EndedReason) (watermark : Option Watermark) :
    SessionRow :=
  { row with
    state := endedState reason
    endedReason := some reason
    adoptedSequence := (watermark.map (·.adoptedSequence)).getD row.adoptedSequence
    adoptedWindowEnd := (watermark.bind (·.adoptedWindowEnd)).or row.adoptedWindowEnd
    adoptedCount := (watermark.map (·.adoptedCount)).getD row.adoptedCount
    healthySince := (watermark.map (·.healthySince)).getD row.healthySince
    activeSampleJobId := none
    activeSampleSequence := none
    activeSampleDueAt := none
    activeSampleOwner := none
    activeSampleLeaseUntil := none }

/-- `end_session`. -/
def endSession (tables : SessionTables) (recordedAt : Time) (sessionId incidentId : UUID)
    (endedReason : EndedReason) (transition : Option Transition)
    (lifecycleBefore lifecycleAfter : IncidentLifecycle) (sampleId : Option UUID := none)
    (watermark : Option Watermark := none) : SessionTables where
  sessions := tables.sessions.modify sessionId fun row => row.ended endedReason watermark
  endings :=
    { sessionId, incidentId, endedReason, transition, sampleId, lifecycleBefore, lifecycleAfter
      jobId := (tables.sessions.get sessionId).bind (·.activeSampleJobId)
      jobSequence := (tables.sessions.get sessionId).bind (·.activeSampleSequence)
      recordedAt } :: tables.endings

/-- The authorized sessions of an incident. -/
def authorizedSessions (sessions : Table UUID SessionRow) (incidentId : UUID) : List UUID :=
  (sessions.select fun _ row => row.incidentId = incidentId ∧ row.state = .authorized).map
    Prod.fst

/-- End each of the listed sessions as `authority_revoked`, the lifecycle unchanged. -/
def revokeSessions (tables : SessionTables) (recordedAt : Time) (incidentId : UUID)
    (lifecycle : IncidentLifecycle) (ids : List UUID) : SessionTables :=
  ids.foldl (fun tables id =>
    endSession tables recordedAt id incidentId .authorityRevoked none lifecycle lifecycle) tables

/-- `revoke_authorized_sessions`: the lifecycle is the caller's decision, and the ending records
it as it stands. -/
def revokeAuthorizedSessions (tables : SessionTables) (recordedAt : Time) (incidentId : UUID)
    (lifecycle : IncidentLifecycle) : List UUID × SessionTables :=
  let ids := authorizedSessions tables.sessions incidentId
  (ids, revokeSessions tables recordedAt incidentId lifecycle ids)

/-- `revoke_authorized_sessions` in the transaction of a decision. -/
def Store.revokeObservation (s : Store) (clk : Clock) (incidentId : UUID)
    (lifecycle : IncidentLifecycle) : Store :=
  s.withSessionTables
    (revokeAuthorizedSessions s.sessionTables clk.later incidentId lifecycle).2

/-- An ending rewrites its session, and records how it ended. -/
theorem endSession_eq (tables : SessionTables) (recordedAt : Time) (sessionId incidentId : UUID)
    (reason : EndedReason) (transition : Option Transition) (before after : IncidentLifecycle)
    (sampleId : Option UUID) (watermark : Option Watermark) :
    ∃ e : EndingRow, endSession tables recordedAt sessionId incidentId reason transition before
        after sampleId watermark =
        ⟨tables.sessions.modify sessionId (·.ended reason watermark), e :: tables.endings⟩ ∧
      e.sessionId = sessionId ∧ e.endedReason = reason ∧ e.transition = transition ∧
      e.sampleId = sampleId ∧ e.lifecycleBefore = before ∧ e.lifecycleAfter = after ∧
      e.recordedAt = recordedAt :=
  ⟨_, rfl, rfl, rfl, rfl, rfl, rfl, rfl, rfl⟩

/-- Ending sessions of one incident leaves those of another alone, with their endings. -/
theorem revokeSessions_other {tables : SessionTables} {recordedAt : Time}
    {incidentId other : UUID} {lifecycle : IncidentLifecycle} {ids : List UUID}
    (hids : ∀ id ∈ ids, ∀ row, tables.sessions.get id = some row → row.incidentId = incidentId)
    (hne : other ≠ incidentId) :
    (∀ q, ((revokeSessions tables recordedAt incidentId lifecycle ids).sessions.get q).filter
        (·.incidentId = other) = (tables.sessions.get q).filter (·.incidentId = other)) ∧
      (revokeSessions tables recordedAt incidentId lifecycle ids).endings.filter
        (·.incidentId = other) = tables.endings.filter (·.incidentId = other) := by
  induction ids generalizing tables with
  | nil => exact ⟨fun _ => rfl, rfl⟩
  | cons id ids ih =>
    have hhead := hids id List.mem_cons_self
    have hstep : ∀ q, ((tables.sessions.modify id (·.ended .authorityRevoked none)).get q).filter
        (·.incidentId = other) = (tables.sessions.get q).filter (·.incidentId = other) := by
      intro q
      rw [Table.get_modify]
      split
      · next hq =>
        subst hq
        cases hrow : tables.sessions.get q with
        | none => rfl
        | some row =>
          have hrowne : ¬ row.incidentId = other := fun h => hne (h ▸ hhead row hrow)
          simp [Option.filter, SessionRow.ended, hrowne]
      · rfl
    have htail := @ih (endSession tables recordedAt id incidentId .authorityRevoked none lifecycle
      lifecycle) fun id' hid' row hrow => ?_
    · refine ⟨fun q => (htail.1 q).trans (hstep q), htail.2.trans ?_⟩
      simp [endSession, hne.symm]
    · simp only [endSession, Table.get_modify] at hrow
      split at hrow
      · obtain ⟨row₀, hrow₀, rfl⟩ := Option.map_eq_some_iff.1 hrow
        exact hids id' (List.mem_cons_of_mem _ hid') row₀ hrow₀
      · exact hids id' (List.mem_cons_of_mem _ hid') row hrow

/-- A revocation leaves the observation of another incident alone. -/
theorem revokeObservation_other (s : Store) (clk : Clock) {incidentId other : UUID}
    (lifecycle : IncidentLifecycle) (hne : other ≠ incidentId) :
    (∀ q, ((s.revokeObservation clk incidentId lifecycle).sessions.get q).filter
        (·.incidentId = other) = (s.sessions.get q).filter (·.incidentId = other)) ∧
      (s.revokeObservation clk incidentId lifecycle).endings.filter (·.incidentId = other) =
        s.endings.filter (·.incidentId = other) := by
  refine revokeSessions_other (fun id hid row hrow => ?_) hne
  obtain ⟨e, he, rfl⟩ := List.mem_map.1 hid
  obtain ⟨hget, hp⟩ := Table.mem_select_iff.1 he
  obtain rfl := Option.some.inj (hget.symm.trans hrow)
  simp only [decide_eq_true_eq] at hp
  exact hp.1

theorem endedState_ne_authorized (reason : EndedReason) : endedState reason ≠ .authorized := by
  cases reason <;> decide

end OpsPilot
