import Mathlib.Data.Rat.Floor
import OpsPilot.Investigation.Projection

/-!
# The messages of an investigation

What the loop sends to a model and what it makes of the answers: the estimate of a request's tokens,
the view of a tool result the model is shown, the message a compaction leaves of the turns it
replaces, the message with the inputs of a round, and the pairing of tool calls with their results.

* `estimateTokens`, `estimateTokens_extra`: the estimate, which adds up over the messages.
* `calibrated`: the factor the provider's own counts correct the estimate by. It is at least one by
  its type.
* `visibleView`, `foldDigest`, `compactionMessage`, `inputsMessage`, `deliveredView`.
* `validateToolCalls`, `pairToolResults`: a reply's calls, and its group of messages.

A message is the JSON object that is sent. Floating point numbers are rationals.
-/

namespace OpsPilot

/-- What the loop takes from the library: SHA-256 of a text in hexadecimal, `str()` of a JSON value,
and the text `json.dumps` makes of the body of a request, up to the order of its fields. -/
class LoopTexts extends PromptTexts where
  sha256 : String → String
  str : Json → String
  serialize : Json → String

/-! ## Limits -/

/-- `RunLimits`. -/
structure RunLimits where
  modelRequests : ℕ
  outputTokens : ℕ
  contextTokens : ℕ
  requestBytes : ℕ
  modelRequestTimeoutSeconds : ℚ
  activeSeconds : ℚ
  /-- `INVALID_LIMITS`. -/
  positive : 0 < modelRequests ∧ 0 < outputTokens ∧ 0 < contextTokens ∧ 0 < requestBytes ∧
    0 < modelRequestTimeoutSeconds ∧ 0 < activeSeconds

/-- `limits.context_tokens - limits.output_tokens`. -/
def RunLimits.budget (limits : RunLimits) : ℤ := limits.contextTokens - limits.outputTokens

/-! ## Estimates -/

/-- `{"role": "user", "content": content}`. -/
def userMessage (content : String) : Json := .obj [("content", .str content), ("role", .str "user")]

section

variable [PromptTexts]

/-- The bytes of a value's canonical text. -/
def canonicalBytes (value : Json) : ℕ := (PromptTexts.canonical value).utf8ByteSize

/-- A message, with its overhead. -/
def messageTokens (message : Json) : ℕ := canonicalBytes message / 4 + 4

/-- The tools array, if there is one. -/
def toolTokens (tools : Option (List Json)) : ℕ :=
  match tools with
  | none | some [] => 0
  | some tools => canonicalBytes (.arr tools) / 4

/-- `estimate_tokens`. -/
def estimateTokens (messages : List Json) (tools : Option (List Json)) (extra : List Json) : ℕ :=
  ((messages ++ extra).map messageTokens).sum + toolTokens tools

theorem estimateTokens_extra (messages : List Json) (tools : Option (List Json))
    (extra : List Json) :
    estimateTokens (messages ++ extra) tools [] = estimateTokens messages tools extra := by
  rw [estimateTokens, estimateTokens, List.append_nil]

/-- The estimate of messages after others, with the tools in between. -/
theorem estimateTokens_append (messages : List Json) (tools : Option (List Json))
    (extra extra' : List Json) :
    estimateTokens messages tools (extra ++ extra') =
      estimateTokens messages none extra + (extra'.map messageTokens).sum + toolTokens tools := by
  simp only [estimateTokens, List.map_append, List.sum_append, toolTokens]
  omega

end

/-- A factor the estimate is multiplied by. -/
abbrev Calibration := { factor : ℚ // 1 ≤ factor }

/-- `calibrated`: a count that is no positive integer is ignored. -/
def calibrated (factor : Calibration) (estimated : ℕ) (observed : Json) : Calibration :=
  match observed with
  | .num count =>
    if count.isInt ∧ 0 < count ∧ 0 < estimated then
      ⟨max factor (count / estimated), le_max_of_le_left factor.2⟩
    else factor
  | _ => factor

/-! ## Views of tool results -/

/-- `_VIEW_PROVENANCE_KEYS`. -/
def viewProvenanceKeys : List String :=
  ["evidence_id", "operation_id", "status", "adopted", "citable_as_fact", "tool", "source",
    "target_id", "window", "observed_at", "freshness_seconds", "lookback_seconds",
    "lookback_start_at", "truncated"]

/-- The provenance of a view, as far as it is an object. -/
def provenance (view : Json) : List (String × Json) :=
  viewProvenanceKeys.map fun key => (key, view.get key)

/-- `ContextPolicy.stub_preview_chars`. -/
def stubPreviewChars : ℕ := 512

section

variable [LoopTexts]

/-- `view_stub`. -/
def viewStub (view : Json) : Json :=
  let full := PromptTexts.canonical view
  .dict (((provenance view).filter fun f => f.1 ≠ "truncated") ++
    [("truncated", .bool true), ("spilled", .bool true), ("reason", .str "VIEW_TOO_LARGE"),
      ("full_view_sha256", .str (LoopTexts.sha256 full)),
      ("full_view_bytes", .num full.utf8ByteSize),
      ("preview", .str (String.ofList (full.toList.take stubPreviewChars)))])

/-- `{"role": "tool", "tool_call_id": callId, "content": content}`. -/
def toolMessage (callId content : String) : Json :=
  .obj [("content", .str content), ("role", .str "tool"), ("tool_call_id", .str callId)]

/-- `visible_view`: a view over a quarter of the budget is replaced by its stub. -/
def visibleView (view : Json) (limits : RunLimits) : Json :=
  let shown := Json.obj [("content", .str (PromptTexts.canonical view)), ("role", .str "tool")]
  if limits.budget.tdiv 4 < estimateTokens [shown] none [] then viewStub view else view

/-! ## Compactions -/

/-- `COMPACTION_INSTRUCTION`. -/
def compactionInstruction : String :=
  "Context compaction request. The investigation continues after this, so " ++
    "write the working summary you need to continue it: observed facts with " ++
    "their exact evidence_id values, hypotheses and counter-evidence, what is " ++
    "still unknown, which queries were already made so they are not repeated, " ++
    "and the next intended step. Cite evidence_id values exactly as given. " ++
    "Do not call tools. Plain text only, no JSON, no Markdown fences."

/-- `COMPACTION_PREAMBLE`. -/
def compactionPreamble : String :=
  "Earlier turns were compacted to keep the context within budget. The " ++
    "provenance digest below lists every evidence_id that was collected; the " ++
    "summary after it replaces the earlier turns:"

/-- `COMPACTION_SUFFIX`. -/
def compactionSuffix : String :=
  "Continue the investigation from here. Cite only evidence_id values " ++
    "listed above or collected after this point; do not repeat listed queries."

/-- A plain JSON object: of two fields of one name the last. -/
def plainObject (pairs : List (String × Json)) : Option Json :=
  some (.dict (pairs.foldl (fun fields pair =>
    (fields.filter fun f => f.1 ≠ pair.1) ++ [pair]) []))

/-- What `str(value)` is of a value: of a text the text. -/
def textOf : Json → String
  | .str text => text
  | value => LoopTexts.str value

/-- The entry of a folded tool message. -/
def foldView (message : Json) : Json :=
  let payload := (Json.loads plainObject (textOf (message.get "content"))).getD .null
  .dict (provenance payload ++ [("tool_call_id", message.get "tool_call_id")])

/-- The entries of the calls of a folded assistant message. -/
def foldCalls (message : Json) : List Json :=
  ((message.get "tool_calls").items?.getD []).filterMap fun call =>
    ((call.field? "function").filter Json.isObject).map fun function =>
      .dict [("id", .str (textOf (call.get "id"))), ("name", .str (textOf (function.get "name"))),
        ("arguments_sha256", .str (LoopTexts.sha256 (textOf (function.get "arguments"))))]

/-- The hash of the text of a folded assistant message. -/
def foldText (message : Json) : Option Json :=
  (nonemptyText (message.get "content")).map fun text => .str (LoopTexts.sha256 text)

/-- The evidence an adopted view of a digest names. -/
def foldEvidence (view : Json) : Option String :=
  if view.get "adopted" = .bool true then (view.get "evidence_id").text? else none

/-- `fold_digest`. -/
def foldDigest (messages : List Json) : Json :=
  let views := (messages.filter fun m => m.get "role" = .str "tool").map foldView
  let assistant := messages.filter fun m => m.get "role" = .str "assistant"
  .obj [("assistant_text_sha256", .arr (assistant.filterMap foldText)),
    ("evidence_ids", .arr ((views.filterMap foldEvidence).eraseDups.map .str)),
    ("folded_messages", .num messages.length),
    ("tool_calls", .arr (assistant.flatMap foldCalls)),
    ("views", .arr views)]

/-- `compaction_message`: the one message that replaces the folded turns. -/
def compactionMessage (revision : ℕ) (digest : Json) (summary : String) : Json :=
  userMessage ("[context compacted rev=" ++ toString revision ++ "] " ++ compactionPreamble ++
    "\n" ++ PromptTexts.canonical digest ++ "\n\n" ++
    String.ofList (strip summary.toList) ++ "\n\n" ++ compactionSuffix)

/-! ## The inputs of a round -/

/-- A row `begin_round` returns. -/
structure RoundInput where
  sequence : ℕ
  kind : String
  content : Json

/-- `INPUT_CONTENT_FIELDS`. -/
def inputContentFields : List String := ["channel", "question", "text"]

/-- `INPUT_CONTENT_FIELD_MAX_CHARS`. -/
def inputContentFieldMaxChars : ℕ := 8192

/-- A field of an input's content, as the model is shown it: redacted, and then cut. -/
def projectInputField : Json → Option Json
  | .obj _ | .arr _ => none
  | .str text =>
    let redacted := PromptTexts.redactCredentials text
    some (.str (if inputContentFieldMaxChars < redacted.length then
      String.ofList (redacted.toList.take inputContentFieldMaxChars) ++ " …[truncated]"
      else redacted))
  | value => some value

/-- `project_input_content`. -/
def projectInputContent (content : Json) : Json :=
  .obj (inputContentFields.filterMap fun key =>
    ((content.field? key).bind projectInputField).map (key, ·))

/-- `input_watermark`. -/
def inputWatermark (inputs : List RoundInput) : ℕ := (inputs.map (·.sequence)).foldr max 0

/-- `inputs_message`: the message with the inputs a round sees, if it sees any. -/
def inputsMessage (inputs : List RoundInput) : Option Json :=
  match inputs.insertionSort fun a b => a.sequence ≤ b.sequence with
  | [] => none
  | rows => some (userMessage (PromptTexts.canonical (.obj [("investigation_inputs",
      .arr (rows.map fun row => .obj [("content", projectInputContent row.content),
        ("kind", .str row.kind), ("sequence", .num row.sequence)]))])))

end

/-! ## Citations -/

section

variable [ReportTexts]

/-- `delivered_view`: the citation an adopted view entitles the report to. -/
def deliveredView (view evidenceContext : Json) (authorizedTargets : Finset String) :
    Option DeliveredView :=
  if view.get "adopted" = .bool true then
    (nonemptyText (view.get "evidence_id")).map fun evidenceId =>
      let registry := (view.get "target_id").text?
      let catalog := (contextTargetCatalog evidenceContext authorizedTargets).getD []
      let aliases := (catalog.filter fun entry => entry.2 = registry).map Prod.fst
      let targetIds := (registry.toList.filter (· ≠ "") ++ aliases).toFinset
      let tool := if (view.get "parent_tool").text?.isSome then view.get "parent_tool"
        else view.get "tool"
      { evidenceId
        targetIds
        status := (view.get "status").text?.getD "unknown"
        citableAsFact := match view.get "citable_as_fact" with
          | .bool flag => flag
          | _ => view.get "status" = .str "ok"
        incomplete := view.get "incomplete" = .bool true
        truncated := view.get "truncated" = .bool true
        timeScopeRefs := ViewFacts.eligibleTimePolicies
          { source := view.get "source"
            tool
            targetIds
            window := view.get "window"
            freshnessSeconds := view.get "freshness_seconds"
            sourceStartAt := view.get "source_start_at"
            sourceEndAt := view.get "source_end_at"
            dispatchStartedAt := view.get "dispatch_started_at"
            responseReceivedAt := view.get "observed_at" }
          (evidenceContext.get "time_policies") }
  else none

end

/-! ## Pairing -/

/-- `PairingError.code`. -/
inductive PairingCode
  | toolPairingInvalid | privateProtocolMissing
  deriving DecidableEq, Repr

/-- The code as it is written. -/
def PairingCode.text : PairingCode → String
  | toolPairingInvalid => "TOOL_PAIRING_INVALID"
  | privateProtocolMissing => "PRIVATE_PROTOCOL_MISSING"

/-- A tool call `validate_tool_calls` has let through. -/
structure ToolCall where
  id : String
  name : String
  arguments : String
  deriving DecidableEq

/-- The call as a message carries it. -/
def ToolCall.toJson (call : ToolCall) : Json :=
  .obj [("function", .obj [("arguments", .str call.arguments), ("name", .str call.name)]),
    ("id", .str call.id), ("type", .str "function")]

/-- A call with all its fields. -/
def ToolCall.ofJson? (call : Json) : Option ToolCall := do
  let function ← (call.field? "function").filter Json.isObject
  let id ← nonemptyText (call.get "id")
  let name ← nonemptyText (function.get "name")
  let arguments ← (function.get "arguments").text?
  if call.get "type" = .str "function" then some ⟨id, name, arguments⟩ else none

/-- `validate_tool_calls`: the calls of a message, each with an id of its own. -/
def validateToolCalls (message : Json) : Except PairingCode (List ToolCall) :=
  match message.get "tool_calls" with
  | .null => .ok []
  | .arr calls =>
    match calls.mapM ToolCall.ofJson? with
    | some calls => if (calls.map ToolCall.id).Nodup then .ok calls else .error .toolPairingInvalid
    | none => .error .toolPairingInvalid
  | _ => .error .toolPairingInvalid

/-- `assistant_message`. -/
def assistantMessage (content reasoningContent : Option String) (toolCalls : List Json) : Json :=
  .dict ([("role", .str "assistant"), ("content", (content.map Json.str).getD .null)] ++
    Json.assign "reasoning_content" (reasoningContent.map .str) ++
    if toolCalls = [] then [] else [("tool_calls", .arr toolCalls)])

/-- `pair_tool_results(assistant, results, require_reasoning=True)`: the group of an assistant
message and the results of its calls (each with the id of its call), in the order of the calls. -/
def pairToolResults (assistant : Json) (results : List (String × String)) :
    Except PairingCode (List Json) := do
  let content := assistant.get "content"
  if assistant.get "role" ≠ .str "assistant" ∨ content ≠ .null ∧ content.text? = none then
    throw .toolPairingInvalid
  let calls ← validateToolCalls assistant
  let ids := calls.map ToolCall.id
  if "" ∈ results.map Prod.fst ∨ ids = [] ∨ ¬ids.Perm (results.map Prod.fst) then
    throw .toolPairingInvalid
  match (assistant.get "reasoning_content").text? with
  | none => throw .privateProtocolMissing
  | some reasoning =>
    pure (.obj [("content", content), ("reasoning_content", .str reasoning),
      ("role", .str "assistant"), ("tool_calls", .arr (calls.map ToolCall.toJson))] ::
      ids.map fun id =>
        .obj [("content", .str ((results.lookup id).getD "")), ("role", .str "tool"),
          ("tool_call_id", .str id)])

end OpsPilot
