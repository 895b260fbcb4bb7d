import OpsPilot.Persistence.Events

/-!
# The appends to the event log

Every writer of `opspilot_subject_events` goes through `append` or `append_once`. The file has the
calls: `announceClaimed` and the other announcements of a worker, of the workbench, of a review, of
the knowledge worker and of the observation store. A once-only call names a key, and each of them
puts the key into its payload (`Announcement.held`), so that its own event answers the key.
-/

namespace OpsPilot

/-- The fields of an event's payload. -/
abbrev EventFields := List (String × Json)

/-- The fields hold every field of the key. -/
def EventFields.Holds (payload key : EventFields) : Prop :=
  ∀ field ∈ key, payload.lookup field.1 = some field.2

/-- `dict(payload, name=value)`. -/
def EventFields.put (payload : EventFields) (name : String) (value : Json) : EventFields :=
  (name, value) :: payload.filter fun field => field.1 ≠ name

/-- A call of `append`, or of `append_once` with the key it wants (empty if it names none). -/
structure Announcement where
  subjectId : UUID
  kind : String
  payload : EventFields
  wanted : Option EventFields
  held : ∀ key ∈ wanted, payload.Holds key

namespace EventFields

variable {payload key : EventFields} {name : String} {value : Json}

theorem holds_nil (payload : EventFields) : payload.Holds [] := by simp [Holds]

/-- A key is held one field at a time. -/
theorem holds_cons {rest : EventFields} :
    payload.Holds ((name, value) :: rest) ↔
      payload.lookup name = some value ∧ payload.Holds rest := by
  simp [Holds]

theorem lookup_put_self : (payload.put name value).lookup name = some value := by
  simp [put]

/-- What is put over a payload leaves its other fields. -/
theorem lookup_put_ne {other : String} (h : other ≠ name) :
    (payload.put name value).lookup other = payload.lookup other := by
  have hne : (other == name) = false := by simpa using h
  rw [put, List.lookup_cons, hne]
  induction payload with
  | nil => rfl
  | cons field rest ih =>
    obtain ⟨first, item⟩ := field
    by_cases hfirst : first = name
    · have hskip : (other == first) = false := by simpa [hfirst] using h
      simpa [List.filter_cons, hfirst, List.lookup_cons, hskip, hne] using ih
    · simp only [List.filter_cons, hfirst, ne_eq, not_false_eq_true, decide_true, if_true,
        List.lookup_cons]
      split
      · rfl
      · exact ih

end EventFields

open EventFields

namespace Announcement

/-- `log.append(subject_id, kind, payload)`. -/
def plain (subjectId : UUID) (kind : String) (payload : EventFields) : Announcement :=
  ⟨subjectId, kind, payload, none, fun _ h => absurd h (Option.not_mem_none _)⟩

/-- `log.append_once(subject_id, kind, payload, key=key)`. -/
def once (subjectId : UUID) (kind : String) (payload key : EventFields)
    (h : payload.Holds key) : Announcement :=
  ⟨subjectId, kind, payload, some key, fun _ hkey => Option.some.inj hkey ▸ h⟩

end Announcement

section Worker

variable (subjectId runId : UUID)

/-- `announce_claimed`. -/
def announceClaimed (epoch controlGeneration : ℕ) : Announcement :=
  .plain subjectId "run_claimed"
    [("run_id", .str (toString runId)), ("epoch", .num epoch),
      ("control_generation", .num controlGeneration)]

/-- `announce_claim_refused`. -/
def announceClaimRefused (code : String) : Announcement :=
  .plain subjectId "run_claim_refused" [("run_id", .str (toString runId)), ("code", .str code)]

/-- The event of a committed step. -/
def stepCommitted (stepId : UUID) (logicalKey : String) (finishReason : Json)
    (plannedTools : ℕ) : Announcement :=
  .plain subjectId "step_committed"
    [("run_id", .str (toString runId)), ("step_id", .str (toString stepId)),
      ("logical_key", .str logicalKey), ("finish_reason", finishReason),
      ("planned_tools", .num plannedTools)]

/-- The event of a committed tool result, in the loop or by a recovery. -/
def toolCommitted (stepId : UUID) (ordinal : ℕ) (result : Json) : Announcement :=
  .plain subjectId "tool_committed"
    [("run_id", .str (toString runId)), ("step_id", .str (toString stepId)),
      ("ordinal", .num ordinal), ("evidence_id", (result.field? "evidence_id").getD .null),
      ("status", (result.field? "status").getD .null),
      ("adopted", (result.field? "adopted").getD .null),
      ("tool", (result.field? "tool").getD .null),
      ("target_id", (result.field? "target_id").getD .null)]

/-- The key of a completion. -/
def completionKey : EventFields := [("run_id", .str (toString runId))]

/-- The payload of `announce_completed`. -/
def completedPayload (execution : String) (reportSha256 : Json) (evidenceIds : List String)
    (modelRequestsUsed promptRevision : Json) : EventFields :=
  [("run_id", .str (toString runId)), ("published", .bool true), ("execution", .str execution),
    ("handoff", .bool false), ("handoff_reasons", .arr []), ("report_sha256", reportSha256),
    ("evidence_ids", .arr (evidenceIds.map .str)), ("model_requests_used", modelRequestsUsed),
    ("prompt_revision", promptRevision)]

theorem completedPayload_holds (execution : String) (reportSha256 : Json)
    (evidenceIds : List String) (modelRequestsUsed promptRevision : Json) :
    (completedPayload runId execution reportSha256 evidenceIds modelRequestsUsed
      promptRevision).Holds (completionKey runId) :=
  holds_cons.2 ⟨by simp [completedPayload], holds_nil _⟩

/-- `announce_completed`. -/
def announceCompleted (execution : String) (reportSha256 : Json) (evidenceIds : List String)
    (modelRequestsUsed promptRevision : Json) : Announcement :=
  .once subjectId "run_completed" _ (completionKey runId)
    (completedPayload_holds runId execution reportSha256 evidenceIds modelRequestsUsed
      promptRevision)

/-- The key of a parked handoff: generation zero is not named. -/
def handoffKey (controlGeneration : ℕ) : EventFields :=
  [("run_id", .str (toString runId)), ("parked", .bool true)] ++
    if controlGeneration = 0 then [] else [("control_generation", .num controlGeneration)]

/-- The payload of a handoff, parked or not. -/
def handoffPayload (execution : String) (parked : Bool) (reasons : List String)
    (reportSha256 : Json) (evidenceIds : List String) : EventFields :=
  [("run_id", .str (toString runId)), ("published", .bool false), ("execution", .str execution),
    ("handoff", .bool true), ("parked", .bool parked), ("reasons", .arr (reasons.map .str)),
    ("report_sha256", reportSha256), ("evidence_ids", .arr (evidenceIds.map .str))]

/-- The payload of a parked handoff. -/
def parkedPayload (execution : String) (reasons : List String) (reportSha256 : Json)
    (evidenceIds : List String) (reconciled : Bool) (controlGeneration : ℕ) : EventFields :=
  handoffPayload runId execution true reasons reportSha256 evidenceIds ++
    [("reconciled", .bool reconciled), ("control_generation", .num controlGeneration)]

theorem parkedPayload_holds (execution : String) (reasons : List String) (reportSha256 : Json)
    (evidenceIds : List String) (reconciled : Bool) (controlGeneration : ℕ) :
    (parkedPayload runId execution reasons reportSha256 evidenceIds reconciled
      controlGeneration).Holds (handoffKey runId controlGeneration) := by
  unfold handoffKey
  split <;> simp [holds_cons, holds_nil, parkedPayload, handoffPayload, List.lookup_cons]

/-- The key of an announcement made by whoever parked the run. -/
def announcedKey (controlGeneration : ℕ) : EventFields :=
  handoffKey runId controlGeneration ++ [("reconciled", .bool false)]

theorem parkedPayload_holds_announced (execution : String) (reasons : List String)
    (reportSha256 : Json) (evidenceIds : List String) (controlGeneration : ℕ) :
    (parkedPayload runId execution reasons reportSha256 evidenceIds false
      controlGeneration).Holds (announcedKey runId controlGeneration) := by
  intro field hfield
  rcases List.mem_append.1 hfield with hkey | hlast
  · exact parkedPayload_holds runId _ _ _ _ _ _ field hkey
  · obtain rfl := List.mem_singleton.1 hlast
    simp [parkedPayload, handoffPayload, List.lookup_cons]

/-- `announce_handoff`. A parked handoff without a generation is a `TypeError`. -/
def announceHandoff (execution : String) (reasons : List String) (reportSha256 : Json)
    (evidenceIds : List String) (parked : Bool) (controlGeneration : Option ℕ) :
    Option Announcement :=
  if parked then
    controlGeneration.map fun generation =>
      .once subjectId "run_handoff" _ (announcedKey runId generation)
        (parkedPayload_holds_announced runId execution reasons reportSha256 evidenceIds generation)
  else
    some (.plain subjectId "run_handoff"
      (handoffPayload runId execution false reasons reportSha256 evidenceIds))

/-- `announce_deadline_exceeded`. -/
def announceDeadlineExceeded (controlGeneration : ℕ) : Announcement :=
  .once subjectId "run_handoff" _ (announcedKey runId controlGeneration)
    (parkedPayload_holds_announced runId "failed" ["DEADLINE_EXCEEDED"] .null [] controlGeneration)

/-- `announce_backlog_full`. -/
def announceBacklogFull (controlGeneration : ℕ) : Announcement :=
  .once subjectId "run_handoff" _ (announcedKey runId controlGeneration)
    (parkedPayload_holds_announced runId "not_started" ["BACKLOG_FULL"] .null []
      controlGeneration)

end Worker

section Workbench

variable (incidentId : UUID)

/-- `_announce_intake`: no key, so one for each incident. -/
def announceIntake (runId : UUID) (requestId actorId channel targetId question : String)
    (receivedAt : String) : Announcement :=
  .once incidentId "intake_accepted"
    [("run_id", .str (toString runId)), ("request_id", .str requestId), ("actor_id", .str actorId),
      ("channel", .str channel), ("target_id", .str targetId), ("question", .str question),
      ("received_at", .str receivedAt)]
    [] (holds_nil _)

/-- The run a decision opened, in its payload. -/
def runFields (payload : EventFields) : Option UUID → EventFields
  | none => payload
  | some runId => payload.put "run_id" (.str (toString runId))

theorem runFields_holds (payload : EventFields) {generation : ℕ} (runId : Option UUID)
    (h : payload.lookup "generation" = some (.num generation)) :
    (runFields payload runId).Holds [("generation", .num generation)] := by
  refine holds_cons.2 ⟨?_, holds_nil _⟩
  cases runId with
  | none => exact h
  | some id => exact (lookup_put_ne (by decide)).trans h

/-- The event of an applied control. -/
def controlApplied (intent : EventFields) (generation : ℕ) (runId : Option UUID) :
    Announcement :=
  .once incidentId "control_applied" _ [("generation", .num generation)]
    (runFields_holds (intent.put "generation" (.num generation)) runId lookup_put_self)

/-- The payload of a control confirmed from its audit row. -/
def confirmedPayload (intent : EventFields) (generation : ℕ) : EventFields :=
  (intent.put "generation" (.num generation)).put "reconciled" (.bool true)

theorem lookup_confirmedPayload (intent : EventFields) (generation : ℕ) :
    (confirmedPayload intent generation).lookup "generation" = some (.num generation) :=
  (lookup_put_ne (by decide)).trans lookup_put_self

/-- `_confirm`. -/
def confirm (intent : EventFields) (generation : ℕ) (runId : Option UUID) : Announcement :=
  .once incidentId "control_applied" _ [("generation", .num generation)]
    (runFields_holds _ runId (lookup_confirmedPayload intent generation))

/-- The handoff `reconcile` repairs. -/
def reconcileHandoff (runId : UUID) (controlGeneration : ℕ) : Announcement :=
  .once incidentId "run_handoff" _ (handoffKey runId controlGeneration)
    (parkedPayload_holds runId "unknown" [] .null [] true controlGeneration)

/-- The payload of the completion `reconcile` repairs. -/
def reconciledCompletion (runId : UUID) (reportSha256 : Json) : EventFields :=
  [("run_id", .str (toString runId)), ("published", .bool true), ("execution", .str "completed"),
    ("handoff", .bool false), ("handoff_reasons", .arr []), ("reconciled", .bool true),
    ("report_sha256", reportSha256), ("evidence_ids", .arr [])]

theorem reconciledCompletion_holds (runId : UUID) (reportSha256 : Json) :
    (reconciledCompletion runId reportSha256).Holds (completionKey runId) :=
  holds_cons.2 ⟨by simp [reconciledCompletion], holds_nil _⟩

/-- The completion `reconcile` repairs. -/
def reconcileCompletion (runId : UUID) (reportSha256 : Json) : Announcement :=
  .once incidentId "run_completed" _ (completionKey runId)
    (reconciledCompletion_holds runId reportSha256)

end Workbench

section Knowledge

variable (incidentId : UUID)

/-- The payload of a reviewed post-mortem. -/
def reviewedPayload (postmortemId : UUID) (version : ℕ) (state : String) (generation : ℕ)
    (reason : Json) : EventFields :=
  [("postmortem_id", .str (toString postmortemId)), ("version", .num version),
    ("state", .str state), ("generation", .num generation), ("reason", reason)]

theorem reviewedPayload_holds (postmortemId : UUID) (version : ℕ) (state : String)
    (generation : ℕ) (reason : Json) :
    (reviewedPayload postmortemId version state generation reason).Holds
      [("postmortem_id", .str (toString postmortemId)), ("generation", .num generation)] := by
  simp [holds_cons, holds_nil, reviewedPayload, List.lookup_cons]

/-- The event of a reviewed post-mortem. -/
def postmortemReviewed (postmortemId : UUID) (version : ℕ) (state : String) (generation : ℕ)
    (reason : Json) : Announcement :=
  .once incidentId "postmortem_reviewed" _ _
    (reviewedPayload_holds postmortemId version state generation reason)

/-- The payload of a changed entry. -/
def changedPayload (entryId : UUID) (revision : ℕ) (state : String) (generation : ℕ)
    (reason : Json) : EventFields :=
  [("entry_id", .str (toString entryId)), ("revision", .num revision), ("state", .str state),
    ("generation", .num generation), ("reason", reason)]

theorem changedPayload_holds (entryId : UUID) (revision : ℕ) (state : String) (generation : ℕ)
    (reason : Json) :
    (changedPayload entryId revision state generation reason).Holds
      [("entry_id", .str (toString entryId)), ("generation", .num generation)] := by
  simp [holds_cons, holds_nil, changedPayload, List.lookup_cons]

/-- `_announce_entry`. -/
def announceEntry (entryId : UUID) (revision : ℕ) (state : String) (generation : ℕ)
    (reason : Json) : Announcement :=
  .once incidentId "knowledge_changed" _ _
    (changedPayload_holds entryId revision state generation reason)

theorem reviewedPayload_holds_self (postmortemId : UUID) (version : ℕ) (state : String)
    (generation : ℕ) (reason : Json) :
    (reviewedPayload postmortemId version state generation reason).Holds
      (reviewedPayload postmortemId version state generation reason) := by
  simp [holds_cons, holds_nil, reviewedPayload, List.lookup_cons]

/-- `_event` of a stale post-mortem: the whole payload is the key. -/
def postmortemStale (postmortemId : UUID) (version : ℕ) (state : String) (generation : ℕ)
    (reason : Json) : Announcement :=
  .once incidentId "postmortem_stale" _ _
    (reviewedPayload_holds_self postmortemId version state generation reason)

/-- The payload of a generated post-mortem. -/
def generatedPayload (postmortemId : UUID) (version : ℕ) (state : String) (generation : ℕ) :
    EventFields :=
  [("postmortem_id", .str (toString postmortemId)), ("version", .num version),
    ("state", .str state), ("generation", .num generation)]

theorem generatedPayload_holds_self (postmortemId : UUID) (version : ℕ) (state : String)
    (generation : ℕ) :
    (generatedPayload postmortemId version state generation).Holds
      (generatedPayload postmortemId version state generation) := by
  simp [holds_cons, holds_nil, generatedPayload, List.lookup_cons]

/-- `_event` of a generated post-mortem. -/
def postmortemGenerated (postmortemId : UUID) (version : ℕ) (state : String)
    (generation : ℕ) : Announcement :=
  .once incidentId "postmortem_generated" _ _
    (generatedPayload_holds_self postmortemId version state generation)

theorem failedPayload_holds_self (attemptId reason : Json) :
    EventFields.Holds [("attempt_id", attemptId), ("reason", reason)]
      [("attempt_id", attemptId), ("reason", reason)] := by
  simp [holds_cons, holds_nil, List.lookup_cons]

/-- `_event` of a failed generation. -/
def postmortemGenerationFailed (attemptId : UUID) (reason : Json) : Announcement :=
  .once incidentId "postmortem_generation_failed" _ _
    (failedPayload_holds_self (.str (toString attemptId)) reason)

end Knowledge

/-- The payload of an automatic observation that is handed off. -/
def handedOffPayload (controlGeneration : ℕ) (reason : String) (attempts : ℕ) : EventFields :=
  [("control_generation", .num controlGeneration), ("reason", .str reason),
    ("attempts", .num attempts)]

theorem handedOffPayload_holds (controlGeneration : ℕ) (reason : String) (attempts : ℕ) :
    (handedOffPayload controlGeneration reason attempts).Holds
      [("control_generation", .num controlGeneration)] :=
  holds_cons.2 ⟨by simp [handedOffPayload], holds_nil _⟩

/-- The append `record_auto_observation_failure` makes in its own transaction. -/
def announceHandedOff (incidentId : UUID) (controlGeneration : ℕ) (reason : String)
    (attempts : ℕ) : Announcement :=
  .once incidentId "auto_observation_handed_off" _ _
    (handedOffPayload_holds controlGeneration reason attempts)

namespace Announcement

variable {call : Announcement} {key : EventFields} {sequence : ℕ}

/-- The event a call writes answers the key the call wants. -/
theorem answers (h : call.wanted = some key) :
    (SubjectEvent.mk call.subjectId sequence call.kind call.payload).answers key = true := by
  have hheld := call.held key h
  simp only [SubjectEvent.answers, SubjectEvent.contains, List.all_eq_true, decide_eq_true_eq]
  exact .inl fun field hfield => by simpa using hheld field hfield

end Announcement

end OpsPilot
