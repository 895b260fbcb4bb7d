import Mathlib
import OpsPilot.Investigation.Loop
import OpsPilot.Investigation.Pairing
import OpsPilot.Investigation.StepKeys
import OpsPilot.Persistence.Payloads

/-!
# Rebuilding a transcript

A later attempt at a Run rebuilds the messages of the next model call from the rows that were
committed (`rebuild_transcript` in `opspilot/investigation/context.py`). A row of another shape
than the loop writes, or one whose recorded hash is not that of the messages rebuilt so far, ends
the rebuild.

* `StoredHistory`: what is read; `RebuildState`: the messages and marks so far.
* `rebuildCompaction`, `rebuildRound`, `rebuildStep`: what one row adds.
* `rebuildTranscript`: the whole rebuild.
* `rebuildStep_paired`: a row keeps the transcript paired.
* **`tool_pairing`**: in a transcript every call has its result and every result its call.
-/

namespace OpsPilot

/-! ## What is read -/

/-- A row of a Run's steps, as `rebuild` returns it. -/
structure StoredStep where
  stepId : UUID
  runId : String
  sequence : ℤ
  late : Bool
  logicalKey : String
  controlGeneration : ℕ
  response : Json
  toolResults : List (ℤ × Json)

/-- `rebuild()`'s snapshot, as far as the transcript reads it. -/
structure StoredHistory where
  runId : String
  /-- `run["input"]`. -/
  input : Option Json
  controlGeneration : ℕ
  steps : List StoredStep
  inputs : List RoundInput
  /-- The Run has a published conclusion. -/
  concluded : Bool

/-- What ends a rebuild: the code of a `ContextError`, a `ValueError` of a step key, or the
`TypeError` or `AttributeError` of a value of another type. -/
inductive RebuildError
  | runMismatch | inputMissing | inputInvalid | inconsistentState | incompatibleState
  | pendingTools | valueError | typeError
  deriving DecidableEq, Repr

/-- The error of a snapshot that is not read. -/
def InputError.rebuild : InputError → RebuildError
  | inputInvalid => .inputInvalid
  | incompatibleState => .incompatibleState

/-- The error of a group that is not paired. -/
def PairingCode.rebuild : PairingCode → RebuildError
  | privateProtocolMissing => .incompatibleState
  | toolPairingInvalid => .inconsistentState

/-- `CommittedRound`. -/
structure CommittedRound where
  finishReason : Option String
  final : Bool
  rejection : Option String
  toolRound : Bool
  content : Option String
  concluded : Bool

/-- The transcript so far. -/
structure RebuildState where
  messages : List Json
  delivered : List DeliveredView
  evidenceIds : List String
  maxRound : ℕ
  segment : String
  live : ℕ
  lastStepId : Option UUID
  lastRound : Option CommittedRound
  calibration : Calibration
  /-- A revoked view has changed the bytes that are shown. -/
  diverged : Bool
  foldedSince : List UUID
  compactions : ℕ
  compactionAttempts : ℕ
  dropped : List UUID
  pendingPublish : Option (UUID × Json)
  /-- The feedback on a reply that was no report, with the generation of its row. -/
  retryFeedback : Option (ℕ × String)

/-! ## What is delivered -/

/-- The texts of a list that are not empty. -/
def textsOf (items : List Json) : Finset String := (items.filterMap nonemptyText).toFinset

/-- The targets a binding names: by its refs, or by one id. -/
def bindingTargets (binding : Json) : Finset String :=
  match binding.get "target_refs" with
  | .arr refs => textsOf refs
  | _ => (nonemptyText (binding.get "target_id")).toList.toFinset

/-- The view a binding of the evidence context stands for. -/
def bindingView (field : String × Json) : Option DeliveredView :=
  let (evidenceId, binding) := field
  if evidenceId ≠ "" ∧ binding.get "status" = .str "ok" then
    some {
      evidenceId
      targetIds := bindingTargets binding
      status := "ok"
      timeScopeRefs := textsOf ((binding.get "time_scope_refs").items?.getD [])
      citableAsFact := binding.get "citable_as_fact" = .bool true
      inherited := true }
  else none

/-- `delivered_from_context`: nothing of a context that is not this Run's own. -/
def deliveredFromContext (context : Json) (runId : String) : List DeliveredView :=
  if context.get "type" = .str evidenceContextType ∧ context.get "run_id" = .str runId then
    match context.get "view_bindings" with
    | .obj bindings => bindings.filterMap bindingView
    | _ => []
  else []

/-- `revoked_view`: what the model sees in place of evidence of a target no longer authorized. -/
def revokedView (view : Json) : Json :=
  .obj [("adopted", .bool false),
    ("evidence_id", ((view.get "evidence_id").text?.map Json.str).getD .null),
    ("reason", .str "TARGET_NOT_AUTHORIZED"), ("status", .str "revoked")]

/-- `_ordered_results`: the results by ordinal; `none` when one is still missing. -/
def orderedResults (results : List (ℤ × Json)) (callCount : ℕ) :
    Except RebuildError (Option (List Json)) := do
  refuse (results.any fun r => r.1 < 0 ∨ callCount ≤ r.1 ∨ ¬ r.2.isObject) .inconsistentState
  refuse (¬ (results.map Prod.fst).Nodup) .inconsistentState
  pure ((List.range callCount).mapM fun (i : ℕ) => results.lookup (i : ℤ))

/-- `_calibration_from_row`. -/
def calibrationFromRow (response : Json) (factor : Calibration) : Calibration :=
  match (response.get "context").get "estimated_prompt_tokens", (response.get "usage").isObject with
  | .num estimated, true =>
    if estimated.isInt then
      calibrated factor estimated.num.toNat ((response.get "usage").get "prompt_tokens")
    else factor
  | _, _ => factor

/-- `list(record.get("folded_step_ids") or ())`. -/
def foldedStepIds (value : Json) : Option (List Json) :=
  match value with
  | .arr items => some items
  | .obj fields => some (fields.map fun f => .str f.1)
  | .str text => some (text.toList.map fun c => .str c.toString)
  | value => if value.falsy then some [] else none

section

variable [FactTexts] [ReportTexts] [DigitTexts]

/-- What a rebuild reads all along: the Run, its input with the evidence context as projected, the
authorization and the inputs. -/
structure RebuildScope where
  history : StoredHistory
  input : InputSnapshot
  context : Option Json
  authorizedTargets : Finset String
  /-- The messages a Run starts with. -/
  opening : List Json

/-- A message of the opening as JSON. -/
def Message.toJson (message : Message) : Json :=
  .obj [("content", .str message.content), ("role", .str message.role)]

/-- What the messages read of a snapshot. -/
def InputSnapshot.prompt (input : InputSnapshot) : InvestigationInput where
  question := input.question
  modelRequests := input.modelRequests
  variantId := input.variantId
  scopeFacts := input.facts
  evidenceContext := (input.evidenceContext.map Json.obj).getD .null

/-- `messages_hash`. -/
def messagesHash (messages : List Json) : String :=
  LoopTexts.sha256 (PromptTexts.canonical (.arr messages))

/-- The messages a step sent after the transcript: the inputs up to its watermark, and in a final
round the instruction, the feedback and the coverage. -/
def trailingMessages (context : Json) (inputs : List RoundInput) (delivered : List DeliveredView)
    (feedback : String) : List Json :=
  (match context.get "input_watermark" with
    | .num watermark =>
      if watermark.isInt ∧ 0 < watermark then
        (inputsMessage (inputs.filter fun row => (row.sequence : ℚ) ≤ watermark)).toList
      else []
    | _ => []) ++
  if context.get "final" = .bool true then
    [userMessage finalReportInstruction] ++
      (if feedback = "" then [] else [userMessage feedback]) ++
      [userMessage (runCoverageMessage delivered)]
  else []

/-- `_check_snapshot_hash`: the hash a row recorded, if it did, is that of what its step sent. -/
def snapshotHashMatches (response : Json) (sentBefore : List Json) (inputs : List RoundInput)
    (delivered : List DeliveredView) (feedback : String) : Bool :=
  let context := response.get "context"
  match context.get "input_snapshot_hash" with
  | .str recorded =>
    messagesHash (sentBefore ++ trailingMessages context inputs delivered feedback) = recorded
  | _ => true

/-! ## The rows -/

/-- A number that is whole. -/
def whole? : Json → Option ℤ
  | .num q => if q.isInt then some q.num else none
  | _ => none

/-- `compaction_message`, of any revision a row may hold. -/
def foldedMessage (revision : ℤ) (digest : Json) (summary : String) : Json :=
  userMessage ("[context compacted rev=" ++ toString revision ++ "] " ++ compactionPreamble ++
    "\n" ++ PromptTexts.canonical digest ++ "\n\n" ++
    String.ofList (strip summary.toList) ++ "\n\n" ++ compactionSuffix)

variable (scope : RebuildScope)

/-- A conclusion that is not published yet, or that a human decision has passed over. -/
def rebuildConclusion (s : RebuildState) (step : StoredStep) : RebuildState :=
  if scope.history.concluded then s
  else if step.controlGeneration = scope.history.controlGeneration then
    { s with pendingPublish := some (step.stepId, step.response) }
  else { s with lastRound := s.lastRound.map fun round => { round with concluded := true } }

/-- A compaction row: one that was accepted replaces the turns it folded by its message. -/
def rebuildCompaction (s : RebuildState) (step : StoredStep) :
    Except RebuildError RebuildState := do
  let record := step.response.get "compaction"
  refuse (¬ record.isObject) .inconsistentState
  let s := { s with compactionAttempts := s.compactionAttempts + 1 }
  if record.get "accepted" ≠ .bool true then
    pure { s with
      retryFeedback := none
      lastRound := some ⟨none, false, some "COMPACTION_FAILED", false, none,
        step.controlGeneration ≠ scope.history.controlGeneration⟩ }
  else do
    -- the row folds exactly the steps this rebuild has seen
    refuse (record.get "from_segment" ≠ .str s.segment) .incompatibleState
    let folded ← require (foldedStepIds (record.get "folded_step_ids")) .typeError
    refuse (folded ≠ (s.foldedSince.map fun id => .str (Payload.uuidText id)) ∨
      ¬ (record.get "digest").isObject) .incompatibleState
    let revision ← require (whole? (record.get "revision")) .incompatibleState
    let toSegment ← require (record.get "to_segment").text? .incompatibleState
    let assistant := step.response.get "assistant"
    refuse (¬ assistant.isObject ∧ ¬ assistant.falsy) .typeError
    let summary ← require (assistant.get "content").text? .inconsistentState
    refuse (strip summary.toList = []) .inconsistentState
    refuse (¬ s.diverged ∧ ¬ snapshotHashMatches step.response
      (s.messages ++ [userMessage compactionInstruction]) [] [] "") .incompatibleState
    pure { s with
      messages := scope.opening ++ [foldedMessage revision (record.get "digest") summary]
      segment := toSegment
      foldedSince := []
      compactions := s.compactions + 1 }

/-- What a result of a tool adds: the message with its view, or with a stub where its target is no
longer authorized, and the citation of an adopted view. -/
def rebuildResult (s : RebuildState) (call : ToolCall) (view : Json) : RebuildState × Json :=
  let revoked := (view.get "target_id").text?.any fun target => target ∉ scope.authorizedTargets
  if revoked then
    ({ s with diverged := true }, toolMessage call.id (PromptTexts.canonical (revokedView view)))
  else
    let cited := (deliveredView view (scope.context.getD .null) scope.authorizedTargets).toList
    ({ s with
        delivered := s.delivered ++ cited
        evidenceIds := s.evidenceIds ++ cited.map (·.evidenceId) },
      toolMessage call.id (PromptTexts.canonical (visibleView view scope.input.limits)))

/-- The results of the calls of a round, one after the other. -/
def rebuildResults (s : RebuildState) : List (ToolCall × Json) → RebuildState × List Json
  | [] => (s, [])
  | (call, view) :: rest =>
    let (s, message) := rebuildResult scope s call view
    let (s, messages) := rebuildResults s rest
    (s, message :: messages)

/-- The verdict of the row of a round. -/
def committedRound (response : Json) (calls : List ToolCall) (concluded : Bool) :
    CommittedRound where
  finishReason := (response.get "finish_reason").text?
  final := (response.get "context").get "final" = .bool true
  rejection := ((response.get "rejected_plan").get "reason").text?
  toolRound := calls ≠ []
  content := ((response.get "assistant").get "content").text?
  concluded

/-- The feedback a reply without calls that was no report forced the next round to carry. -/
def feedbackOf (s : RebuildState) (round : CommittedRound) : Option String :=
  if s.diverged ∨ round.toolRound ∨ round.final ∨ round.rejection.isSome then none
  else match validatedReport (round.content.getD "") round.finishReason s.delivered
      (scope.context.getD .null) scope.authorizedTargets with
    | .accepted _ => none
    | .rejected _ feedback => some feedback

/-- The segment and the number of a round. -/
def roundKey (key : String) : Except RebuildError (String × ℕ) :=
  match parseStepKey key with
  | .ok (some parsed) => .ok parsed
  | .ok none => .error .incompatibleState
  | .error _ => .error .valueError

/-- A row of a round: its message, and with calls the group of these and their results. -/
def rebuildRound (s : RebuildState) (step : StoredStep) : Except RebuildError RebuildState := do
  let parsed ← roundKey step.logicalKey
  refuse (parsed.1 ≠ s.segment) .incompatibleState
  let current := step.controlGeneration = scope.history.controlGeneration
  let feedback := match s.retryFeedback with
    | some (generation, feedback) => if generation = step.controlGeneration then feedback else ""
    | none => ""
  refuse (¬ s.diverged ∧ ¬ snapshotHashMatches step.response s.messages scope.history.inputs
    s.delivered feedback) .incompatibleState
  let assistant := step.response.get "assistant"
  refuse (¬ assistant.isObject) .inconsistentState
  let calls ← (validateToolCalls assistant).mapError fun _ => .inconsistentState
  let content := assistant.get "content"
  let reasoning := assistant.get "reasoning_content"
  refuse (content ≠ .null ∧ content.text? = none ∨ reasoning ≠ .null ∧ reasoning.text? = none)
    .inconsistentState
  let round := committedRound step.response calls (¬ current)
  let s := { s with
    retryFeedback := (feedbackOf scope s round).map fun feedback =>
      (step.controlGeneration, feedback)
    lastStepId := some step.stepId
    maxRound := max s.maxRound parsed.2
    live := s.live + 1
    foldedSince := s.foldedSince ++ [step.stepId] }
  if calls = [] then
    pure { s with
      messages := s.messages ++ [assistantMessage content.text? reasoning.text? []]
      lastRound := some round }
  else do
    match ← orderedResults step.toolResults calls.length with
    | none =>
      -- the calls of a generation that is over are dropped with their message
      refuse current .pendingTools
      pure { s with dropped := s.dropped ++ [step.stepId] }
    | some results =>
      let (s, messages) := rebuildResults scope { s with lastRound := some round }
        (calls.zip results)
      let group ← (pairResults (assistantMessage content.text? reasoning.text?
        (calls.map ToolCall.toJson)) messages true).mapError PairingCode.rebuild
      pure { s with messages := s.messages ++ group }

/-- What a row adds to the transcript. -/
def rebuildStep (s : RebuildState) (step : StoredStep) : Except RebuildError RebuildState := do
  if step.late then pure s
  else do
    refuse (step.runId ≠ scope.history.runId ∨ ¬ step.response.isObject) .inconsistentState
    match step.response.get "kind" with
    | .str "conclusion" => pure (rebuildConclusion scope s step)
    | kind =>
      let s := { s with calibration := calibrationFromRow step.response s.calibration }
      if kind = .str "compaction" then rebuildCompaction scope s step
      else do
        refuse (kind ≠ .null) .incompatibleState
        rebuildRound scope s step

/-- `sequence`, then `step_id`. -/
def sortedSteps (steps : List StoredStep) : List StoredStep :=
  steps.insertionSort fun a b =>
    a.sequence < b.sequence ∨ a.sequence = b.sequence ∧ a.stepId ≤ b.stepId

omit [FactTexts] [ReportTexts] [DigitTexts] in
theorem one_le_factor : (1 : ℚ) ≤ 1 := le_refl 1

/-- The transcript before the first row. -/
def RebuildScope.start : RebuildState where
  messages := scope.opening
  delivered := deliveredFromContext (scope.context.getD .null) scope.history.runId
  evidenceIds := (deliveredFromContext (scope.context.getD .null) scope.history.runId).map
    (·.evidenceId)
  maxRound := 0
  segment := initialSegment
  live := 0
  lastStepId := none
  lastRound := none
  calibration := ⟨1, one_le_factor⟩
  diverged := false
  foldedSince := []
  compactions := 0
  compactionAttempts := 0
  dropped := []
  pendingPublish := none
  retryFeedback := none

/-- The snapshot a Run is rebuilt from: the one the caller holds, or the recorded row. -/
def inputOf (history : StoredHistory) (input : Option InputSnapshot) :
    Except RebuildError InputSnapshot :=
  match input, history.input with
  | some input, _ => .ok input
  | none, none => .error .inputMissing
  | none, some row => (InputSnapshot.fromJson row).mapError InputError.rebuild

/-- What a rebuild reads of a history. -/
def scopeOf (history : StoredHistory) (input : InputSnapshot)
    (authorizedTargets : Finset String) : RebuildScope :=
  let context := evidenceContextProjection input.prompt.evidenceContext history.runId
  { history
    input
    context
    authorizedTargets
    opening := (initialMessages input.prompt context).map Message.toJson }

/-- `rebuild_transcript`. -/
def rebuildTranscript (history : StoredHistory) (runId : String)
    (authorizedTargets : Finset String) (input : Option InputSnapshot) :
    Except RebuildError RebuildState := do
  refuse (history.runId ≠ runId) .runMismatch
  let input ← inputOf history input
  let scope := scopeOf history input authorizedTargets
  (sortedSteps history.steps).foldlM (rebuildStep scope) scope.start

/-! ## Pairing -/

omit [FactTexts] [ReportTexts] [DigitTexts] in
theorem mapError_eq_ok {α ε ε' : Type} {x : Except ε α} {f : ε → ε'} {a : α} :
    x.mapError f = .ok a ↔ x = .ok a := by
  cases x <;> simp [Except.mapError]

variable {scope : RebuildScope} {s s' : RebuildState} {step : StoredStep}

/-- A transcript that starts with the opening of its Run, and is well paired after it. -/
def RebuildState.Paired (scope : RebuildScope) (s : RebuildState) : Prop :=
  ∃ turns, s.messages = scope.opening ++ turns ∧ WellPaired turns

omit [DigitTexts] in
theorem RebuildState.Paired.append (h : s.Paired scope) {group : List Json}
    (hgroup : WellPaired group) (hmessages : s'.messages = s.messages ++ group) :
    s'.Paired scope := by
  obtain ⟨turns, hturns, hpaired⟩ := h
  exact ⟨turns ++ group, by rw [hmessages, hturns, List.append_assoc], hpaired.append hgroup⟩

omit [DigitTexts] in
theorem rebuildResults_messages (s : RebuildState) (answered : List (ToolCall × Json)) :
    (rebuildResults scope s answered).1.messages = s.messages := by
  induction answered generalizing s with
  | nil => rfl
  | cons answer answered ih =>
    obtain ⟨call, view⟩ := answer
    rw [rebuildResults]
    dsimp only
    rw [ih]
    unfold rebuildResult
    dsimp only
    split <;> rfl

omit [DigitTexts] in
/-- A compaction leaves the opening and one message. -/
theorem rebuildCompaction_paired (hs : s.Paired scope)
    (h : rebuildCompaction scope s step = .ok s') : s'.Paired scope := by
  unfold rebuildCompaction at h
  obtain ⟨-, -, h⟩ := bind_eq_ok.1 h
  dsimp only at h
  split at h
  · obtain rfl := Except.ok.inj h
    exact hs
  · obtain ⟨-, -, h⟩ := bind_eq_ok.1 h
    obtain ⟨folded, -, h⟩ := bind_eq_ok.1 h
    obtain ⟨-, -, h⟩ := bind_eq_ok.1 h
    obtain ⟨revision, -, h⟩ := bind_eq_ok.1 h
    obtain ⟨toSegment, -, h⟩ := bind_eq_ok.1 h
    obtain ⟨-, -, h⟩ := bind_eq_ok.1 h
    obtain ⟨summary, -, h⟩ := bind_eq_ok.1 h
    obtain ⟨-, -, h⟩ := bind_eq_ok.1 h
    obtain ⟨-, -, h⟩ := bind_eq_ok.1 h
    obtain rfl := Except.ok.inj h
    refine ⟨_, rfl, wellPaired_of_plain fun message hmem => ?_⟩
    rw [List.mem_singleton.1 hmem]
    exact ⟨by simp [foldedMessage, userMessage, Json.get, Json.field?, List.lookup_cons], rfl⟩

omit [FactTexts] [ReportTexts] [DigitTexts] in
/-- A message without calls is plain. -/
theorem assistantMessage_plain (content reasoning : Option String) :
    PlainMessage (assistantMessage content reasoning []) := by
  obtain ⟨hrole, hcalled⟩ := assistantMessage_fields content reasoning []
  rw [if_pos rfl] at hcalled
  exact ⟨by rw [hrole]; simp, hcalled⟩

/-- A round adds its message, a whole group, or nothing. -/
theorem rebuildRound_paired (hs : s.Paired scope)
    (h : rebuildRound scope s step = .ok s') : s'.Paired scope := by
  unfold rebuildRound at h
  obtain ⟨parsed, -, h⟩ := bind_eq_ok.1 h
  obtain ⟨-, -, h⟩ := bind_eq_ok.1 h
  obtain ⟨-, -, h⟩ := bind_eq_ok.1 h
  obtain ⟨-, -, h⟩ := bind_eq_ok.1 h
  obtain ⟨calls, -, h⟩ := bind_eq_ok.1 h
  obtain ⟨-, -, h⟩ := bind_eq_ok.1 h
  dsimp only at h
  split at h
  · obtain rfl := Except.ok.inj h
    exact hs.append (wellPaired_of_plain fun message hmem => by
      rw [List.mem_singleton.1 hmem]
      exact assistantMessage_plain _ _) rfl
  · obtain ⟨results, -, h⟩ := bind_eq_ok.1 h
    split at h
    · obtain ⟨-, -, h⟩ := bind_eq_ok.1 h
      obtain rfl := Except.ok.inj h
      exact hs
    · obtain ⟨group, hgroup, h⟩ := bind_eq_ok.1 h
      obtain rfl := Except.ok.inj h
      refine hs.append (wellPaired_of_pairResults (mapError_eq_ok.1 hgroup)) ?_
      rw [rebuildResults_messages]

/-- **One row keeps the transcript paired.** -/
theorem rebuildStep_paired (hs : s.Paired scope) (h : rebuildStep scope s step = .ok s') :
    s'.Paired scope := by
  unfold rebuildStep at h
  split at h
  · obtain rfl := Except.ok.inj h
    exact hs
  · obtain ⟨-, -, h⟩ := bind_eq_ok.1 h
    split at h
    · obtain rfl := Except.ok.inj h
      unfold rebuildConclusion
      split
      · exact hs
      · split
        · exact hs
        · exact hs
    · dsimp only at h
      split at h
      · refine rebuildCompaction_paired ?_ h
        exact hs
      · obtain ⟨-, -, h⟩ := bind_eq_ok.1 h
        refine rebuildRound_paired ?_ h
        exact hs

/-- Every row keeps it paired, in whatever order the rows come. -/
theorem foldlM_rebuildStep_paired {steps : List StoredStep} (hs : s.Paired scope)
    (h : steps.foldlM (rebuildStep scope) s = .ok s') : s'.Paired scope := by
  induction steps generalizing s with
  | nil =>
    obtain rfl := Except.ok.inj h
    exact hs
  | cons step steps ih =>
    rw [List.foldlM_cons] at h
    obtain ⟨mid, hmid, h⟩ := bind_eq_ok.1 h
    exact ih (rebuildStep_paired hs hmid) h

omit [DigitTexts] in
/-- The messages a Run starts with call no tool. -/
theorem opening_plain (history : StoredHistory) (input : InputSnapshot)
    (authorizedTargets : Finset String) :
    ∀ message ∈ (scopeOf history input authorizedTargets).opening, PlainMessage message := by
  intro message hmem
  obtain ⟨opened, hopened, rfl⟩ := List.mem_map.1 hmem
  have hrole : opened.role = "system" ∨ opened.role = "user" := by
    simp only [initialMessages, boundedMessage, List.mem_append, List.mem_cons, List.mem_map,
      List.not_mem_nil, or_false] at hopened
    rcases hopened with ((((rfl | rfl) | ⟨_, _, rfl⟩) | ⟨_, _, rfl⟩) | ⟨_, _, rfl⟩) | ⟨_, _, rfl⟩
    · exact .inl rfl
    all_goals exact .inr rfl
  refine ⟨?_, rfl⟩
  have hget : opened.toJson.get "role" = .str opened.role := rfl
  rw [hget]
  rcases hrole with hrole | hrole <;> simp [hrole]

/-- **Tool pairing.** A group does not depend on the order of its results and has one result for
each call, in the order of the calls; and in whatever transcript a history is rebuilt as, every call
has its result and every result its call. -/
theorem tool_pairing :
    (∀ assistant results results' requireReasoning, List.Perm results results' →
      pairResults assistant results requireReasoning =
        pairResults assistant results' requireReasoning) ∧
    (∀ assistant results requireReasoning group,
      pairResults assistant results requireReasoning = .ok group →
        ∃ calls cleaned kept, validateToolCalls assistant = .ok calls ∧
          results.mapM cleanResult? = some cleaned ∧
          kept = assistantMessage (assistant.get "content").text?
            (assistant.get "reasoning_content").text? (calls.map ToolCall.toJson) ∧
          group = kept :: calls.map (fun call =>
            toolMessage call.id ((cleaned.lookup call.id).getD "")) ∧
          (calls.map fun call => (call.id, (cleaned.lookup call.id).getD "")).Perm cleaned) ∧
    ∀ history runId authorizedTargets input transcript,
      rebuildTranscript history runId authorizedTargets input = .ok transcript →
        WellPaired transcript.messages := by
  refine ⟨fun assistant _ _ requireReasoning h => pairResults_perm h assistant requireReasoning,
    ?_, ?_⟩
  · intro assistant results requireReasoning group h
    obtain ⟨calls, cleaned, kept, hcalls, -, hcleaned, hkept, hgroup, hperm⟩ := pairResults_ok h
    exact ⟨calls, cleaned, kept, hcalls, hcleaned, hkept, hgroup, hperm⟩
  · intro history runId authorizedTargets input transcript h
    obtain ⟨-, -, h⟩ := bind_eq_ok.1 h
    obtain ⟨input, -, h⟩ := bind_eq_ok.1 h
    have hstart : (scopeOf history input authorizedTargets).start.Paired
        (scopeOf history input authorizedTargets) := ⟨[], (List.append_nil _).symm, .nil⟩
    obtain ⟨turns, hturns, hpaired⟩ := foldlM_rebuildStep_paired hstart h
    rw [hturns]
    exact (wellPaired_of_plain (opening_plain history input authorizedTargets)).append hpaired

end

end OpsPilot
