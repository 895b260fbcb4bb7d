import OpsPilot.Foundations.Stateful
import OpsPilot.Foundations.Transition
import OpsPilot.Investigation.Context

/-!
# The investigation loop

One attempt at a Run (`InvestigationLoop`): round after round, the messages so far go to a model; a
reply with tool calls is committed and its tools are run, and a reply without ends the attempt with
a report, or forces a last round that may only report. Before a request that would not fit the
context budget, the turns so far are compacted into one message by a request of their own.

* `LoopState`: the working set of an attempt.
* `callModel`, `compact`, `manageContext`, `runTools`, `round`, `drive`: the code, as computations
  on the working set and the requests sent.
* `loopSystem`: an attempt, one round after another.

What happens outside answers a round (`RoundAnswers`): the clock, the store, the model and the
tools. The keys and hashes under which steps are stored are left out, and tools are run one after
the other.
-/

namespace OpsPilot

/-! ## The working set -/

/-- `InvestigationRequest`, as far as the rounds read it, with the model the loop accepts; a context
that is absent is null. -/
structure LoopRequest where
  toolSchemas : List Json
  modelRequests : ℕ
  evidenceContext : Json
  authorizedTargets : Finset String
  boundTargetId : Option String
  deadline : ℚ
  acceptedResponseModel : String
  limits : RunLimits
  /-- `_check_identity`. -/
  bounded : 0 < modelRequests ∧ modelRequests ≤ limits.modelRequests

/-- `_State`. -/
structure LoopState where
  request : LoopRequest
  messages : List Json
  delivered : List DeliveredView
  evidenceIds : List String
  nextRound : ℕ
  used : ℕ
  priorActive : ℚ
  attemptStarted : ℚ
  prefixLen : ℕ
  calibration : Calibration
  compactions : ℕ
  secondsUsed : ℚ
  toolSecondsAtOpen : ℚ
  forceFinal : Bool
  retryFeedback : String
  seenToolCalls : List (String × String)

/-- `ModelCall`. -/
structure ModelCall where
  messages : List Json
  tools : Option (List Json)
  jsonMode : Bool
  maxTokens : ℕ
  timeoutSeconds : ℚ
  model : String

/-- A request that was sent, with the calibration it was sent under. -/
structure SentRequest where
  call : ModelCall
  calibration : Calibration
  compaction : Bool

/-- `LoopExecution`. -/
inductive LoopExecution
  | completed | failed | blocked | budgetExhausted
  deriving DecidableEq, Repr

/-- `_LoopHalt`. -/
structure Halt where
  execution : LoopExecution
  reasons : List String
  deriving DecidableEq

/-- How a round settles the attempt. -/
structure Settled where
  execution : LoopExecution
  reasons : List String
  report : Option ReportV2
  content : Option String

/-- An attempt at work: its working set, and the requests sent so far. -/
structure Driven where
  state : LoopState
  sent : List SentRequest

/-- A part of a round. -/
abbrev Loop := Stateful Driven Halt

namespace Loop

/-- The working set. -/
def state : Loop LoopState := Stateful.read Driven.state

/-- A change of the working set. -/
def update (f : LoopState → LoopState) : Loop PUnit :=
  modify fun d => { d with state := f d.state }

/-- A request goes out. -/
def send (call : ModelCall) (compaction : Bool) : Loop PUnit :=
  modify fun d =>
    { state := { d.state with used := d.state.used + 1 }
      sent := d.sent ++ [⟨call, d.state.calibration, compaction⟩] }

/-- `_halt_from_store`. -/
def haltFromStore (code : String) : Halt :=
  if code = "BUDGET_EXHAUSTED" then ⟨.budgetExhausted, [code]⟩
  else if code = "INCOMPATIBLE_STATE" then ⟨.blocked, [code]⟩
  else ⟨.failed, [code]⟩

/-- The store answers a write: with the code of its refusal, if it refuses. -/
def stored (refusal : Option String) : Loop Unit := Stateful.stopOn (refusal.map haltFromStore)

end Loop

/-! ## What answers a round -/

/-- What the clock and the tool ledger say when a timeout is computed. -/
structure Reading where
  now : ℚ
  monotonic : ℚ
  toolSeconds : ℚ

/-- `ModelReply`; its usage is its `prompt_tokens`. -/
structure ModelReply where
  content : Option String
  reasoningContent : Option String
  toolCalls : List Json
  finishReason : String
  responseModel : String
  promptTokens : Json

/-- What answers one physical request: the clock, the store that reserves, checks and settles it,
and the model, with a reply or the code of a `ModelError`. -/
structure RequestAnswer where
  reading : Reading
  reserved : Option String
  current : Option String
  reply : Except String ModelReply
  elapsed : ℚ
  settled : Option String

/-- What answers the two physical requests a logical request may take. -/
structure CallAnswer where
  first : RequestAnswer
  second : RequestAnswer

/-- What answers a compaction. -/
structure CompactionAnswer where
  reading : Reading
  call : CallAnswer
  committed : Option String

/-- What answers a tool call: the store before the dispatch, the view the tool returns, and the
store that commits it. -/
structure ToolAnswer where
  renewed : Option String
  current : Option String
  view : Json
  committed : Option String

/-- What answers a round. The store returns the input rows up to a boundary, so that it returns the
same rows after a compaction if it returns the same boundary. -/
structure RoundAnswers where
  frozen : Except String (List RoundInput)
  compaction : CompactionAnswer
  refrozen : Except String (List RoundInput)
  same : ∀ inputs, frozen = .ok inputs → ∀ rows, refrozen = .ok rows →
    inputWatermark rows = inputWatermark inputs → rows = inputs
  reading : Reading
  call : CallAnswer
  committed : Except String String
  tools : ℕ → ToolAnswer

/-! ## Requests -/

/-- `_remaining_timeout`. -/
def LoopState.remainingTimeout (s : LoopState) (r : Reading) : Except Halt ℚ :=
  let charged := s.secondsUsed + (r.toolSeconds - s.toolSecondsAtOpen)
  let spent := max (r.monotonic - s.attemptStarted) charged
  let remainingDeadline := s.request.deadline - r.now
  let remainingActive := s.request.limits.activeSeconds - (s.priorActive + spent)
  if remainingDeadline ≤ 0 then .error ⟨.failed, ["DEADLINE_EXCEEDED"]⟩
  else if remainingActive ≤ 0 then .error ⟨.failed, ["WALL_TIME_EXHAUSTED"]⟩
  else .ok (min (min s.request.limits.modelRequestTimeoutSeconds remainingDeadline)
    remainingActive)

/-- `request.model_requests - state.used`. -/
def LoopState.remaining (s : LoopState) : ℤ := s.request.modelRequests - s.used

/-- What becomes of one physical request: a reply, a round given up so that the reserved final
request can run (`_RoundAborted`), or another try. -/
inductive Answered
  | reply (reply : ModelReply) (dispatched : ModelCall)
  | aborted
  | again

namespace Loop

/-- `_settle`: a fenced lease is left to the next write. -/
def settle (refusal : Option String) : Loop Unit :=
  stored (refusal.filter (· ≠ "CONTROL_DENIED"))

/-- A request that failed: its cost is not known. -/
def requestFailed (code : String) (final last : Bool) (timeoutSeconds : ℚ) (a : RequestAnswer) :
    Loop Answered := do
  settle a.settled
  update fun s => { s with secondsUsed := s.secondsUsed + timeoutSeconds }
  let s ← state
  if final = false ∧ s.remaining ≤ 1 then pure .aborted
  else if code ≠ "MODEL_UNAVAILABLE" ∨ last = true ∨
      s.request.limits.modelRequests ≤ s.used then
    throw ⟨if code = "BUDGET_EXHAUSTED" then .budgetExhausted else .failed, [code]⟩
  else pure .again

/-- A request that was answered. -/
def requestAnswered (reply : ModelReply) (timed : ModelCall) (a : RequestAnswer) :
    Loop Answered := do
  settle a.settled
  update fun s => { s with secondsUsed := s.secondsUsed + max 0 a.elapsed }
  let s ← state
  if reply.responseModel = s.request.acceptedResponseModel then pure (.reply reply timed)
  else throw ⟨.failed, ["MODEL_IDENTITY_MISMATCH"]⟩

/-- One physical request of `_call_model`. -/
def requestOnce (call : ModelCall) (final compaction last : Bool) (a : RequestAnswer) :
    Loop Answered := do
  let s ← state
  Stateful.stopOn (if s.request.limits.modelRequests ≤ s.used then
    some ⟨.budgetExhausted, ["BUDGET_EXHAUSTED"]⟩ else none)
  let timeoutSeconds ← Stateful.lift (s.remainingTimeout a.reading)
  let timed := { call with timeoutSeconds }
  stored a.reserved
  stored a.current
  send timed compaction
  match a.reply with
  | .error code => requestFailed code final last timeoutSeconds a
  | .ok reply => requestAnswered reply timed a

/-- `_call_model`: nothing where the round is given up. -/
def callModel (call : ModelCall) (final compaction : Bool) (a : CallAnswer) :
    Loop (Option (ModelReply × ModelCall)) := do
  match ← requestOnce call final compaction false a.first with
  | .reply reply dispatched => pure (some (reply, dispatched))
  | .aborted => pure none
  | .again =>
    match ← requestOnce call final compaction true a.second with
    | .reply reply dispatched => pure (some (reply, dispatched))
    | .aborted | .again => pure none

end Loop

section

variable [LoopTexts]

/-- The body of `serialized_request`. -/
def requestBody (call : ModelCall) : Json :=
  .dict ([("model", .str call.model), ("messages", .arr call.messages),
      ("max_tokens", .num call.maxTokens), ("thinking", .obj [("type", .str "enabled")]),
      ("reasoning_effort", .str "high"), ("stream", .bool false)] ++
    (if call.jsonMode then [("response_format", .obj [("type", .str "json_object")])] else []) ++
    match call.tools with
    | none => []
    | some tools => [("tools", .arr tools), ("tool_choice", .str "auto")])

namespace Loop

/-- `_reject_oversized`. -/
def rejectOversized (call : ModelCall) : Loop Unit := do
  let s ← state
  Stateful.stopOn (if s.request.limits.requestBytes <
      (LoopTexts.serialize (requestBody call)).utf8ByteSize then
    some ⟨.failed, ["REQUEST_TOO_LARGE"]⟩ else none)

end Loop

/-! ## The context budget -/

namespace LoopState

/-- The calibrated estimate of a request with these messages after the transcript. -/
def projected (s : LoopState) (tools : Option (List Json)) (extra : List Json) : ℚ :=
  estimateTokens s.messages tools extra * s.calibration.1

/-- The request would pass `compaction_pct` of the budget. -/
def needsCompaction (s : LoopState) (tools : Option (List Json)) (extra : List Json) : Bool :=
  s.request.limits.budget * (19 / 20 : ℚ) < s.projected tools extra

/-- The working set after an accepted compaction. -/
def compacted (s : LoopState) (summary : String) : LoopState :=
  { s with
    messages := s.messages.take s.prefixLen ++
      [compactionMessage (s.compactions + 1) (foldDigest (s.messages.drop s.prefixLen)) summary]
    compactions := s.compactions + 1
    seenToolCalls := [] }

end LoopState

/-- A compaction's reply is a summary, and nothing else. -/
def ModelReply.summarizes (reply : ModelReply) : Bool :=
  reply.toolCalls = [] ∧ reply.finishReason = "stop" ∧ blank (reply.content.getD "") = false

namespace Loop

/-- The provider's count for a request that was answered. -/
def calibrate (dispatched : ModelCall) (reply : ModelReply) : Loop PUnit :=
  update fun s => { s with
    calibration := calibrated s.calibration (estimateTokens dispatched.messages dispatched.tools [])
      reply.promptTokens }

/-- `_compact`. -/
def compact (a : CompactionAnswer) : Loop Unit := do
  let s ← state
  let timeoutSeconds ← Stateful.lift (s.remainingTimeout a.reading)
  let call : ModelCall :=
    { messages := s.messages ++ [userMessage compactionInstruction]
      tools := none
      jsonMode := false
      maxTokens := s.request.limits.outputTokens
      timeoutSeconds
      model := s.request.acceptedResponseModel }
  rejectOversized call
  match ← callModel call false true a.call with
  | none => throw ⟨.failed, ["COMPACTION_FAILED"]⟩
  | some (reply, dispatched) =>
    calibrate dispatched reply
    stored a.committed
    if reply.summarizes = true then update (·.compacted (reply.content.getD ""))
    else throw ⟨.failed, ["COMPACTION_FAILED"]⟩

/-- `_require_fit`. -/
def requireFit (tools : Option (List Json)) (extra : List Json) : Loop Unit := do
  let s ← state
  Stateful.stopOn (if s.request.limits.budget < s.projected tools extra then
    some ⟨.failed, ["CONTEXT_EXHAUSTED"]⟩ else none)

/-- `_manage_context`: whether there was a compaction. -/
def manageContext (tools : Option (List Json)) (extra : List Json) (a : CompactionAnswer) :
    Loop Bool := do
  let s ← state
  if s.needsCompaction tools extra = false then pure false
  else if s.remaining < 2 then throw ⟨.failed, ["CONTEXT_EXHAUSTED"]⟩
  else do
    compact a
    requireFit tools extra
    pure true

end Loop

/-! ## The messages of a round -/

/-- `FINAL_REPORT_INSTRUCTION`. -/
def finalReportInstruction : String :=
  "Collection is now CLOSED. This is the final report request. No further " ++
    "tools or fresh queries are permitted. Return only one json object in the " ++
    "report format already given. Do not emit DSML, tool invocation markup, " ++
    "Markdown fences or requests for more tools."

/-- The views a coverage message lists, or a word for none. -/
def listed (ids : List String) : String := if ids = [] then "none" else joined ", " ids

/-- `run_coverage_message`. -/
def runCoverageMessage (views : List DeliveredView) : String :=
  let own := views.filter fun view => view.inherited = false
  "Run coverage summary, computed from the structured fields of the " ++ toString own.length ++
    " view(s) this Run delivered, in delivery order. Views with incomplete true: " ++
    listed ((own.filter (·.incomplete)).map (·.evidenceId)) ++
    ". Views with truncated true: " ++ listed ((own.filter (·.truncated)).map (·.evidenceId)) ++
    ". Views whose status is not ok: " ++
    listed ((own.filter fun view => view.status ≠ "ok").map fun view =>
      view.evidenceId ++ " (status " ++ view.status ++ ")") ++
    ". A view listed here is a stated limit of what this Run observed; report it in gaps " ++
    "instead of treating that view as complete."

namespace LoopState

/-- `_final_messages`. -/
def finalMessages (s : LoopState) : List Json :=
  [userMessage finalReportInstruction] ++
    (if s.retryFeedback = "" then [] else [userMessage s.retryFeedback]) ++
    [userMessage (runCoverageMessage s.delivered)]

/-- The tools of a round. -/
def tools (s : LoopState) (final : Bool) : Option (List Json) :=
  if final then none else some s.request.toolSchemas

/-- The instruction of a round. -/
def extra (s : LoopState) (final : Bool) : List Json := if final then s.finalMessages else []

end LoopState

/-- `_with_trailing`. -/
def withTrailing (inputs : List RoundInput) (extra : List Json) : List Json :=
  (inputsMessage inputs).toList ++ extra

/-! ## Tools -/

/-- `_bound_target`. -/
def LoopRequest.boundTarget (request : LoopRequest) : Option String :=
  request.boundTargetId.or (sole request.authorizedTargets)

/-- `_parse_arguments`. -/
def parseArguments (raw : String) : Json :=
  if raw = "" then .obj [] else (Json.loads plainObject raw).getD .null

/-- `_fingerprint_of`. -/
def fingerprintOf (call : ToolCall) (target : Option String) : String :=
  PromptTexts.canonical (.obj [("params", parseArguments call.arguments),
    ("target_ref", (target.map Json.str).getD .null), ("tool", .str call.name)])

/-- `_duplicate_call_view`. -/
def duplicateCallView (operationId evidenceId : String) : Json :=
  .dict [("operation_id", .str operationId), ("evidence_id", .str evidenceId),
    ("trust", .str "gateway"), ("status", .str "denied"), ("citable_as_fact", .bool false),
    ("reason", .str "DUPLICATE_TOOL_CALL"), ("duplicate_of_evidence_id", .str evidenceId),
    ("content", .null),
    ("message", .str ("Refusing to run this tool call again: it exactly matches a call already " ++
      "made this Run. See evidence_id " ++ evidenceId ++ " for that result. Move on to a " ++
      "different tool or different parameter values."))]

/-- `_dispatched_view`: a call that produced evidence is remembered. -/
def LoopState.remember (s : LoopState) (fingerprint : String) (view : Json) : LoopState :=
  match nonemptyText (view.get "evidence_id") with
  | some evidenceId => { s with seenToolCalls := (fingerprint, evidenceId) :: s.seenToolCalls }
  | none => s

omit [LoopTexts] in
theorem LoopState.remember_request (s : LoopState) (fingerprint : String) (view : Json) :
    (s.remember fingerprint view).request = s.request := by
  unfold LoopState.remember
  split <;> rfl

section

variable [ReportTexts]

/-- The citation of a delivered view. -/
def LoopState.cite (s : LoopState) (view : Json) : LoopState :=
  match deliveredView view s.request.evidenceContext s.request.authorizedTargets with
  | some citation => { s with
      evidenceIds := s.evidenceIds ++ [citation.evidenceId]
      delivered := s.delivered ++ [citation] }
  | none => s

omit [LoopTexts] in
theorem LoopState.cite_request (s : LoopState) (view : Json) :
    (s.cite view).request = s.request := by
  unfold LoopState.cite
  split <;> rfl

namespace Loop

/-- `_deliver`: the view is committed, cited, and shown. -/
def deliver (call : ToolCall) (view : Json) (a : ToolAnswer) : Loop (String × String) := do
  stored a.committed
  update (·.cite view)
  let s ← state
  pure (call.id, PromptTexts.canonical (visibleView view s.request.limits))

/-- One call of `_run_tools`: an exact repeat is not executed. -/
def runTool (stepId : String) (index : ℕ) (call : ToolCall) (a : ToolAnswer) :
    Loop (String × String) := do
  let s ← state
  let fingerprint := fingerprintOf call s.request.boundTarget
  match s.seenToolCalls.lookup fingerprint with
  | some evidenceId =>
    deliver call (duplicateCallView (stepId ++ "-t" ++ toString index) evidenceId) a
  | none => do
    stored a.renewed
    stored a.current
    update (·.remember fingerprint a.view)
    deliver call a.view a

/-- `_run_tools`, from the call with the index on. -/
def runTools (stepId : String) (answers : ℕ → ToolAnswer) (index : ℕ) :
    List ToolCall → Loop (List (String × String))
  | [] => pure []
  | call :: calls => do
    let result ← runTool stepId index call (answers index)
    let results ← runTools stepId answers (index + 1) calls
    pure (result :: results)

end Loop

/-! ## Rounds -/

/-- The message of a reply. -/
def ModelReply.assistant (reply : ModelReply) : Json :=
  assistantMessage reply.content reply.reasoningContent reply.toolCalls

/-- Why a reply's tool plan may never execute, and the calls of one that may. -/
def ModelReply.plan (reply : ModelReply) (final : Bool) : Option String × List ToolCall :=
  match validateToolCalls reply.assistant with
  | .error code => (some code.text, [])
  | .ok calls =>
    if calls = [] then (none, [])
    else if final then (some "TOOL_PLAN_ON_FINAL", calls)
    else if reply.finishReason ≠ "tool_calls" then
      (some (if reply.finishReason = "length" then "OUTPUT_LENGTH"
        else PairingCode.toolPairingInvalid.text), calls)
    else if reply.reasoningContent = none then
      (some PairingCode.privateProtocolMissing.text, calls)
    else (none, calls)

/-- `_round_verdict`: what a committed round settles, and the feedback on a refused report. -/
def LoopState.roundVerdict (s : LoopState) (toolRound : Bool) (reply : ModelReply) (final : Bool)
    (rejection : Option String) : Option Settled × String :=
  match rejection with
  | some reason => (some ⟨.failed, [reason], none, none⟩, "")
  | none =>
    if toolRound then (none, "")
    else match validatedReport (reply.content.getD "") (some reply.finishReason) s.delivered
        s.request.evidenceContext s.request.authorizedTargets with
      | .accepted report =>
        let reasons := if report.assessmentStatus = .incomplete then
          ["INCOMPLETE_INVESTIGATION"] else []
        (some ⟨.completed, reasons, some report, some (reply.content.getD "")⟩, "")
      | .rejected reason retryFeedback =>
        if final then (some ⟨.failed, [reason.text], none, reply.content⟩, "")
        else (none, retryFeedback)

namespace Loop

/-- `_begin_round`. -/
def beginRound (rows : Except String (List RoundInput)) : Loop (List RoundInput) :=
  Stateful.lift (rows.mapError haltFromStore)

/-- The inputs of a round: those frozen before the context is managed, or those frozen again after a
compaction. -/
def roundInputs (final : Bool) (a : RoundAnswers) : Loop (List RoundInput) := do
  let inputs ← beginRound a.frozen
  let s ← state
  if ← manageContext (s.tools final) (withTrailing inputs (s.extra final)) a.compaction then do
    let rows ← beginRound a.refrozen
    if inputWatermark rows = inputWatermark inputs then pure rows
    else do
      requireFit (s.tools final) (withTrailing rows (s.extra final))
      pure rows
  else pure inputs

/-- The request of a round; a compaction may have left it no other than the final report. -/
def roundRequest (final : Bool) (a : RoundAnswers) : Loop (Bool × ModelCall) := do
  let inputs ← roundInputs final a
  let s ← state
  let final := final || s.remaining ≤ 1
  let timeoutSeconds ← Stateful.lift (s.remainingTimeout a.reading)
  let call : ModelCall :=
    { messages := s.messages ++ withTrailing inputs (s.extra final)
      tools := s.tools final
      jsonMode := final
      maxTokens := s.request.limits.outputTokens
      timeoutSeconds
      model := s.request.acceptedResponseModel }
  rejectOversized call
  pure (final, call)

/-- What the loop does with a reply. -/
def roundReply (final : Bool) (reply : ModelReply) (dispatched : ModelCall) (a : RoundAnswers) :
    Loop (Option Settled) := do
  let (rejection, calls) := reply.plan final
  calibrate dispatched reply
  let stepId ← Stateful.lift (a.committed.mapError haltFromStore)
  update fun s => { s with nextRound := s.nextRound + 1 }
  let s ← state
  let (settled, retryFeedback) := s.roundVerdict (calls ≠ []) reply final rejection
  match settled with
  | some settled => pure (some settled)
  | none =>
    if calls = [] then do
      update fun s => { s with
        messages := s.messages ++ [reply.assistant]
        retryFeedback
        forceFinal := true }
      pure none
    else do
      let results ← runTools stepId a.tools 0 calls
      let group ← Stateful.lift ((pairToolResults reply.assistant results).mapError fun code =>
        ⟨.failed, [code.text]⟩)
      update fun s => { s with messages := s.messages ++ group }
      pure none

/-- `_round`. -/
def round (final : Bool) (a : RoundAnswers) : Loop (Option Settled) := do
  let (final, call) ← roundRequest final a
  match ← callModel call final false a.call with
  | some (reply, dispatched) => roundReply final reply dispatched a
  | none => do
    update fun s => { s with nextRound := s.nextRound + 1 }
    pure none

end Loop

/-- The round may only ask for the final report. -/
def LoopState.final (s : LoopState) : Bool := s.remaining ≤ 1 || s.forceFinal

/-- One turn of `_drive`. -/
def Loop.drive (a : RoundAnswers) : Loop (Option Settled) := do
  let s ← Loop.state
  if s.remaining ≤ 0 then throw ⟨.budgetExhausted, ["BUDGET_EXHAUSTED"]⟩
  else Loop.round s.final a

/-! ## Attempts -/

/-- An attempt, and how it ended. -/
structure LoopAttempt where
  driven : Driven
  outcome : Option Settled

/-- The attempt after one more turn; a halt ends it. -/
def LoopAttempt.advance (σ : LoopAttempt) (a : RoundAnswers) : LoopAttempt :=
  match (Loop.drive a).result σ.driven with
  | (.ok outcome, driven) => ⟨driven, outcome⟩
  | (.error halt, driven) => ⟨driven, some ⟨halt.execution, halt.reasons, none, none⟩⟩

/-- The attempts of the loop, from any working set. -/
def loopSystem : LTS LoopAttempt RoundAnswers where
  Init σ := σ.driven.sent = [] ∧ σ.outcome = none
  Step σ a τ := σ.outcome = none ∧ τ = σ.advance a

end

end

end OpsPilot
