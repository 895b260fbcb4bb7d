import OpsPilot.Investigation.Context

/-!
# The input snapshot of a Run

What a later worker rebuilds a Run from is stored as one JSON row (`InvestigationInput` in
`opspilot/investigation/context.py`). The row carries a version, which follows from the facts in
its scope, and the hash of its tool schemas; the reader refuses a row in which these disagree.

* `RunLimits.asJson`, `RunLimits.ofJson`: the limits, written and read on their own.
* `alertContextValid`, `releaseObservationValid`, `knowledgeValid`: what facts a row may carry.
* `InputSnapshot.asJson`, `InputSnapshot.fromJson`: the writer and the reader.
* `fromJson_asJson`: a snapshot is read back.
* `RowAgrees`, `rowAgrees_of_fromJson`: how a row that is read and the snapshot written anew
  compare.
-/

namespace OpsPilot

/-- `isinstance(value, Mapping) and set(value) == names`. -/
def Json.hasExactly (value : Json) (names : List String) : Bool :=
  match value with
  | .obj fields => fields.all (·.1 ∈ names) && names.all fun name => (value.field? name).isSome
  | _ => false

/-! ## Limits -/

namespace RunLimits

/-- An integer from 1 on. -/
def count? : Json → Option ℕ
  | .num q => if q.isInt ∧ 1 ≤ q.num then some q.num.toNat else none
  | _ => none

/-- A number above 0. -/
def duration? : Json → Option ℚ
  | .num q => if 0 < q then some q else none
  | _ => none

/-- The names of the limits. -/
def names : List String :=
  ["active_seconds", "context_tokens", "model_request_timeout_seconds", "model_requests",
    "output_tokens", "request_bytes"]

/-- `RunLimits.as_json`. -/
def asJson (limits : RunLimits) : Json := .obj [
  ("active_seconds", .num limits.activeSeconds),
  ("context_tokens", .num limits.contextTokens),
  ("model_request_timeout_seconds", .num limits.modelRequestTimeoutSeconds),
  ("model_requests", .num limits.modelRequests),
  ("output_tokens", .num limits.outputTokens),
  ("request_bytes", .num limits.requestBytes)]

theorem count?_eq_some {value : Json} {n : ℕ} :
    count? value = some n ↔ value = .num n ∧ 0 < n := by
  cases value with
  | num q =>
    show (if q.isInt ∧ 1 ≤ q.num then some q.num.toNat else none) = some n ↔ _
    constructor
    · intro h
      split at h
      · next hq =>
        have hn : q.num.toNat = n := Option.some.inj h
        have hint : (q.num : ℚ) = q := Rat.den_eq_one_iff q |>.1 (by simpa [Rat.isInt] using hq.1)
        have hnum : q.num = n := by omega
        refine ⟨?_, by omega⟩
        rw [← hint, hnum, Int.cast_natCast]
      · cases h
    · rintro ⟨hq, hpos⟩
      obtain rfl := Json.num.inj hq
      have hle : (1 : ℤ) ≤ (n : ℚ).num := by rw [Rat.num_natCast]; omega
      rw [if_pos ⟨by simp [Rat.isInt], hle⟩, Rat.num_natCast, Int.toNat_natCast]
  | _ => simp [count?]

theorem duration?_eq_some {value : Json} {q : ℚ} :
    duration? value = some q ↔ value = .num q ∧ 0 < q := by
  cases value with
  | num q' =>
    show (if 0 < q' then some q' else none) = some q ↔ _
    constructor
    · intro h
      split at h
      · next hq =>
        obtain rfl := Option.some.inj h
        exact ⟨rfl, hq⟩
      · cases h
    · rintro ⟨hq, hpos⟩
      obtain rfl := Json.num.inj hq
      rw [if_pos hpos]
  | _ => simp [duration?]

/-- `RunLimits.from_json`: exactly the limits, each a number above 0, the first four whole. -/
def ofJson (value : Json) : Option RunLimits :=
  if ¬ value.hasExactly names then none
  else
    match h₁ : count? (value.get "model_requests"), h₂ : count? (value.get "output_tokens"),
      h₃ : count? (value.get "context_tokens"), h₄ : count? (value.get "request_bytes"),
      h₅ : duration? (value.get "model_request_timeout_seconds"),
      h₆ : duration? (value.get "active_seconds") with
    | some modelRequests, some outputTokens, some contextTokens, some requestBytes,
      some timeout, some active =>
      some ⟨modelRequests, outputTokens, contextTokens, requestBytes, timeout, active,
        (count?_eq_some.1 h₁).2, (count?_eq_some.1 h₂).2, (count?_eq_some.1 h₃).2,
        (count?_eq_some.1 h₄).2, (duration?_eq_some.1 h₅).2, (duration?_eq_some.1 h₆).2⟩
    | _, _, _, _, _, _ => none

/-- Limits are read of a value with exactly their fields. -/
theorem ofJson_eq_some {value : Json} {limits : RunLimits} :
    ofJson value = some limits ↔ value.hasExactly names = true ∧
      value.get "model_requests" = .num limits.modelRequests ∧
      value.get "output_tokens" = .num limits.outputTokens ∧
      value.get "context_tokens" = .num limits.contextTokens ∧
      value.get "request_bytes" = .num limits.requestBytes ∧
      value.get "model_request_timeout_seconds" = .num limits.modelRequestTimeoutSeconds ∧
      value.get "active_seconds" = .num limits.activeSeconds := by
  unfold ofJson
  constructor
  · intro h
    split at h
    · cases h
    · next hnames =>
      split at h
      · next h₁ h₂ h₃ h₄ h₅ h₆ =>
        obtain rfl := Option.some.inj h
        exact ⟨not_not.1 hnames, (count?_eq_some.1 h₁).1, (count?_eq_some.1 h₂).1,
          (count?_eq_some.1 h₃).1, (count?_eq_some.1 h₄).1, (duration?_eq_some.1 h₅).1,
          (duration?_eq_some.1 h₆).1⟩
      · cases h
  · rintro ⟨hnames, h₁, h₂, h₃, h₄, h₅, h₆⟩
    obtain ⟨p₁, p₂, p₃, p₄, p₅, p₆⟩ := limits.positive
    rw [if_neg (not_not.2 hnames)]
    split
    · next g₁ g₂ g₃ g₄ g₅ g₆ =>
      rw [count?_eq_some.2 ⟨h₁, p₁⟩] at g₁
      rw [count?_eq_some.2 ⟨h₂, p₂⟩] at g₂
      rw [count?_eq_some.2 ⟨h₃, p₃⟩] at g₃
      rw [count?_eq_some.2 ⟨h₄, p₄⟩] at g₄
      rw [duration?_eq_some.2 ⟨h₅, p₅⟩] at g₅
      rw [duration?_eq_some.2 ⟨h₆, p₆⟩] at g₆
      cases limits
      simp_all
    · next hnone =>
      exact absurd (duration?_eq_some.2 ⟨h₆, p₆⟩) (hnone _ _ _ _ _ _
        (count?_eq_some.2 ⟨h₁, p₁⟩) (count?_eq_some.2 ⟨h₂, p₂⟩) (count?_eq_some.2 ⟨h₃, p₃⟩)
        (count?_eq_some.2 ⟨h₄, p₄⟩) (duration?_eq_some.2 ⟨h₅, p₅⟩))

/-- The limits are read back. -/
theorem ofJson_asJson (limits : RunLimits) : ofJson limits.asJson = some limits :=
  ofJson_eq_some.2 ⟨rfl, rfl, rfl, rfl, rfl, rfl, rfl⟩

end RunLimits

/-! ## Facts -/

/-- What the checks of facts take from outside: whether the category of a character is one of
`ALERT_CONTEXT_UNPRINTABLE`, and whether `UUID` reads a text. -/
class FactTexts extends LoopTexts where
  unprintable : Char → Bool
  isUuid : String → Bool

section

variable [FactTexts]

open FactTexts PromptTexts

/-- `ALERT_CONTEXT_TRUNCATED`. -/
def alertContextTruncated : String := " [truncated]"

/-- `not _unprintable(text)`. -/
def printable (text : String) : Bool := ¬ text.toList.any unprintable

/-- Whether a text is within its limit, or cut at it. -/
def cutAt (limit : ℕ) (text : String) : Bool :=
  text.length ≤ limit ||
    text.length = limit + alertContextTruncated.length &&
      alertContextTruncated.toList.isSuffixOf text.toList

/-- A key of an alert's context is at most 128 characters, a text at most 1024. -/
def alertEntryValid : String × Json → Bool
  | (key, .str text) => printable key && printable text && cutAt 128 key && cutAt 1024 text
  | _ => false

/-- Whether an entry of an alert's context was cut. -/
def alertEntryCut : String × Json → Bool
  | (key, .str text) => 128 < key.length || 1024 < text.length
  | _ => false

/-- `_valid_alert_context`. -/
def alertContextValid (value : Json) : Bool :=
  value.hasExactly ["labels", "annotations", "truncated", "omitted"] &&
    match value.get "truncated", value.get "omitted", value.get "labels",
        value.get "annotations" with
    | .bool truncated, .num omitted, .obj labels, .obj annotations =>
      omitted.isInt && 0 ≤ omitted && (labels ++ annotations).all alertEntryValid &&
        truncated == ((labels ++ annotations).any alertEntryCut || 0 < omitted) &&
        (canonical value).length ≤ 8192
    | _, _, _, _ => false

/-- `RELEASE_OBSERVATION_FIELDS`. -/
def releaseObservationFields : List String :=
  ["observation_id", "source", "source_release_id", "target", "released_at", "anchor",
    "before_revision", "after_revision", "auxiliary", "ending_id", "anomaly_key", "sample_id",
    "calibrated_policy_revision", "release_evaluation", "comparison", "truncated"]

/-- `texts_ok`, with the levels that are left. -/
def textsOk : ℕ → Json → Bool
  | 0, _ => false
  | _ + 1, .str text => printable text && text.length ≤ 256 + alertContextTruncated.length
  | n + 1, .obj fields => fields.all fun (key, entry) => textsOk n (.str key) && textsOk n entry
  | n + 1, .arr items => items.all (textsOk n)
  | _ + 1, _ => true

/-- `_valid_release_observation`; nine levels, from depth 0 to depth 8. -/
def releaseObservationValid (value : Json) : Bool :=
  value.hasExactly releaseObservationFields &&
    (match value.get "truncated" with
      | .bool _ => true
      | _ => false) &&
    textsOk 9 value && (canonical value).length ≤ 16384

/-- `CONTENT_BYTES`. -/
def knowledgeContentBytes : ℕ := 4096

/-- `ENTRIES_BYTES`. -/
def knowledgeEntriesBytes : ℕ := 12288

/-- Whether a value is a whole number from `least` on. -/
def wholeFrom (least : ℤ) : Json → Bool
  | .num q => q.isInt && least ≤ q
  | _ => false

/-- Whether a text is a SHA-256 in hexadecimal. -/
def hexDigest (text : String) : Bool :=
  text.length = 64 && text.toList.all fun c => c.isDigit || 'a' ≤ c && c ≤ 'f'

variable [ReportTexts]

/-- Whether an entry of the knowledge of a Run is well formed, and as old as its instants say. -/
def knowledgeEntryValid (retrieved : Time) (maxAge : ℚ) (entry : Json) : Bool :=
  entry.hasExactly ["entry_id", "revision", "name", "tags", "content", "content_sha256",
      "source_incident_id", "source_postmortem_id", "source_version", "approved_by",
      "approved_at", "observation_ended_at", "age_seconds", "freshness", "truncated"] &&
    ["entry_id", "source_incident_id", "source_postmortem_id"].all (fun key =>
      (entry.get key).text?.any isUuid) &&
    ["revision", "source_version"].all (fun key => wholeFrom 1 (entry.get key)) &&
    ["name", "content", "approved_by"].all (fun key => (nonemptyText (entry.get key)).isSome) &&
    (match entry.get "tags" with
      | .arr tags => tags.all fun tag => tag.text?.isSome
      | _ => false) &&
    (entry.get "content_sha256").text?.any hexDigest &&
    (aware (entry.get "approved_at")).isSome &&
    (entry.get "content").text?.any (·.utf8ByteSize ≤ knowledgeContentBytes) &&
    match entry.get "age_seconds", entry.get "truncated", aware (entry.get "observation_ended_at"),
        entry.get "freshness" with
    | .num age, .bool _, some ended, .str freshness =>
      age = ((retrieved - ended) / 1000000 : ℤ) &&
        freshness = if maxAge < age then "stale" else "fresh"
    | _, _, _, _ => false

/-- `valid_knowledge`. -/
def knowledgeValid (value : Json) : Bool :=
  value.hasExactly ["policy_version", "status", "retrieved_at", "max_age_seconds",
      "omitted_for_size", "entries"] &&
    value.get "policy_version" = .str "knowledge-hint-v1" &&
    match value.get "status", value.get "max_age_seconds", value.get "omitted_for_size",
        value.get "entries" with
    | .str status, .num maxAge, .num omitted, .arr entries =>
      wholeFrom 0 (.num maxAge) && wholeFrom 0 (.num omitted) && entries.length ≤ 3 &&
        if status = "unavailable" then
          value.get "retrieved_at" = .null && entries = [] && omitted = 0
        else status = "ok" &&
          (aware (value.get "retrieved_at")).any fun retrieved =>
            canonicalBytes (.arr entries) ≤ knowledgeEntriesBytes &&
              entries.all (knowledgeEntryValid retrieved maxAge) &&
              (entries.map (·.get "entry_id")).Nodup
    | _, _, _, _ => false

/-- Whether a fact of the scope, where it is there, passes its check. -/
def factPasses (facts : Json) (name : String) (check : Json → Bool) : Bool :=
  (facts.field? name).all check

/-- The namespace and the workload an alert names. -/
def affectedServiceValid (value : Json) : Bool :=
  value.hasExactly ["namespace", "workload"] &&
    ["namespace", "workload"].all fun key => (nonemptyText (value.get key)).isSome

/-- The anchor of an alert; `ALERT_ANCHOR_ADJUSTMENTS`. -/
def alertStartsAtValid (value : Json) : Bool :=
  value.hasExactly ["anchor", "original", "adjusted"] &&
    (nonemptyText (value.get "anchor")).isSome && (value.get "original").text?.isSome &&
    value.get "adjusted" ∈ [.null, .str "future", .str "before_frame"]

/-- The checks `InvestigationInput.__post_init__` makes of the facts of the scope. -/
def scopeFactsValid (facts : Json) : Bool :=
  facts.isObject && factPasses facts "affected_service" affectedServiceValid &&
    factPasses facts "alert_starts_at" alertStartsAtValid &&
    factPasses facts "alert_context" (fun value =>
      (facts.field? "alert_starts_at").isSome && alertContextValid value) &&
    factPasses facts "knowledge" knowledgeValid &&
    factPasses facts "release_observation" releaseObservationValid

/-! ## The snapshot -/

/-- `InvestigationInput`, with what `__post_init__` checks of it. -/
structure InputSnapshot where
  question : String
  modelRequests : ℕ
  limits : RunLimits
  /-- The fields of each schema. -/
  toolSchemas : List (List (String × Json))
  evidenceContext : Option (List (String × Json))
  variantId : String
  boundTargetId : Option String
  scopeFacts : List (String × Json)
  question_ne : question ≠ ""
  modelRequests_pos : 0 < modelRequests
  modelRequests_le : modelRequests ≤ limits.modelRequests
  variantId_ne : variantId ≠ ""
  boundTargetId_ne : boundTargetId ≠ some ""
  scopeFacts_valid : scopeFactsValid (.obj scopeFacts) = true

/-- `ContextError`. -/
inductive InputError
  | inputInvalid | incompatibleState
  deriving DecidableEq, Repr

/-- `InvestigationInput.version`: the last of the versions whose fact is there. -/
def inputVersion (facts : Json) : String :=
  if (facts.field? "release_observation").isSome then "opspilot-investigation-input-v6"
  else if (facts.field? "knowledge").isSome then "opspilot-investigation-input-v5"
  else if (facts.field? "alert_context").isSome then "opspilot-investigation-input-v4"
  else if (facts.field? "alert_starts_at").isSome then "opspilot-investigation-input-v3"
  else if (facts.field? "affected_service").isSome then "opspilot-investigation-input-v2"
  else "opspilot-investigation-input-v1"

/-- `KNOWN_INPUT_VERSIONS`. -/
def knownInputVersions : List String :=
  ["opspilot-investigation-input-v1", "opspilot-investigation-input-v2",
    "opspilot-investigation-input-v3", "opspilot-investigation-input-v4",
    "opspilot-investigation-input-v5", "opspilot-investigation-input-v6"]

/-- `_INPUT_VERSION_FORM`: a number of one to nine digits that does not start with 0. -/
def inputVersionForm (version : String) : Bool :=
  let form := "opspilot-investigation-input-v".toList
  form.isPrefixOf version.toList &&
    match version.toList.drop form.length with
    | c :: digits => c.isDigit && c ≠ '0' && digits.all Char.isDigit && digits.length ≤ 8
    | [] => false

/-- `InvestigationInput.tool_face_sha256`. -/
def toolFaceSha256 (schemas : List Json) : String :=
  LoopTexts.sha256 (canonical (.arr schemas))

/-- The text of a value, or null. -/
def Json.optional (text : Option String) : Json := (text.map Json.str).getD .null

namespace InputSnapshot

variable (x : InputSnapshot)

/-- The facts of the scope, as an object. -/
def facts : Json := .obj x.scopeFacts

/-- The schemas of the tools, as objects. -/
def schemas : List Json := x.toolSchemas.map .obj

/-- `InvestigationInput.as_json`. -/
def asJson : Json := .obj [
  ("bound_target_id", .optional x.boundTargetId),
  ("evidence_context", (x.evidenceContext.map Json.obj).getD .null),
  ("limits", x.limits.asJson),
  ("model_requests", .num x.modelRequests),
  ("question", .str x.question),
  ("scope_facts", x.facts),
  ("tool_face_sha256", .str (toolFaceSha256 x.schemas)),
  ("tool_schemas", .arr x.schemas),
  ("variant_id", .str x.variantId),
  ("version", .str (inputVersion x.facts))]

end InputSnapshot

/-- The fields of an object. -/
def Json.fields? : Json → Option (List (String × Json))
  | .obj fields => some fields
  | _ => none

/-- The fields of an object, or null. -/
def optionalFields : Json → Option (Option (List (String × Json)))
  | .null => some none
  | .obj fields => some (some fields)
  | _ => none

/-- A text, or null. -/
def optionalText : Json → Option (Option String)
  | .null => some none
  | .str text => some (some text)
  | _ => none

/-- `value or {}`. -/
def orEmpty (value : Json) : Json :=
  if value.falsy then .obj [] else value

namespace InputSnapshot

/-- The snapshot of these fields, if `__post_init__` takes them. -/
def ofFields (question modelRequests : Json) (limits : RunLimits) (schemas : List Json)
    (evidenceContext variantId boundTargetId scopeFacts : Json) : Option InputSnapshot :=
  match question.text?, RunLimits.count? modelRequests, schemas.mapM Json.fields?,
      optionalFields evidenceContext, variantId.text?, optionalText boundTargetId,
      scopeFacts.fields? with
  | some question, some modelRequests, some toolSchemas, some evidenceContext, some variantId,
      some boundTargetId, some scopeFacts =>
    if h : question ≠ "" ∧ 0 < modelRequests ∧ modelRequests ≤ limits.modelRequests ∧
        variantId ≠ "" ∧ boundTargetId ≠ some "" ∧ scopeFactsValid (.obj scopeFacts) = true then
      some ⟨question, modelRequests, limits, toolSchemas, evidenceContext, variantId,
        boundTargetId, scopeFacts, h.1, h.2.1, h.2.2.1, h.2.2.2.1, h.2.2.2.2.1, h.2.2.2.2.2⟩
    else none
  | _, _, _, _, _, _, _ => none

/-- `InvestigationInput.from_json`. -/
def fromJson (row : Json) : Except InputError InputSnapshot :=
  if ¬ row.isObject then .error .inputInvalid
  else match row.get "version" with
    | .str version =>
      if version ∉ knownInputVersions then
        .error (if inputVersionForm version then .incompatibleState else .inputInvalid)
      else match row.get "tool_schemas", RunLimits.ofJson (row.get "limits") with
        | .arr schemas, some limits =>
          match ofFields (row.get "question") (row.get "model_requests") limits schemas
            (row.get "evidence_context") (row.get "variant_id") (row.get "bound_target_id")
            (orEmpty (row.get "scope_facts")) with
          | some parsed =>
            -- A row whose version and facts, or whose face and schemas, disagree is refused.
            if version ≠ inputVersion parsed.facts ∨
                row.get "tool_face_sha256" ≠ .str (toolFaceSha256 parsed.schemas) then
              .error .inputInvalid
            else .ok parsed
          | none => .error .inputInvalid
        | _, _ => .error .inputInvalid
    | _ => .error .inputInvalid

end InputSnapshot

/-! ## What is read -/

omit [FactTexts] [ReportTexts] in
theorem text?_eq_some {value : Json} {text : String} :
    value.text? = some text ↔ value = .str text := by
  cases value <;> simp [Json.text?]

omit [FactTexts] [ReportTexts] in
theorem fields?_eq_some {value : Json} {fields : List (String × Json)} :
    value.fields? = some fields ↔ value = .obj fields := by
  cases value <;> simp [Json.fields?]

omit [FactTexts] [ReportTexts] in
theorem optionalFields_eq_some {value : Json} {fields : Option (List (String × Json))} :
    optionalFields value = some fields ↔ value = (fields.map Json.obj).getD .null := by
  cases value <;> cases fields <;> simp [optionalFields]

omit [FactTexts] [ReportTexts] in
theorem optionalText_eq_some {value : Json} {text : Option String} :
    optionalText value = some text ↔ value = .optional text := by
  cases value <;> cases text <;> simp [optionalText, Json.optional]

omit [FactTexts] [ReportTexts] in
theorem mapM_fields?_eq_some {schemas : List Json} {fields : List (List (String × Json))} :
    schemas.mapM Json.fields? = some fields ↔ schemas = fields.map .obj := by
  induction schemas generalizing fields with
  | nil => cases fields <;> simp
  | cons schema schemas ih =>
    rw [List.mapM_cons]
    constructor
    · intro h
      obtain ⟨first, hfirst, h⟩ := Option.bind_eq_some_iff.1 h
      obtain ⟨rest, hrest, h⟩ := Option.bind_eq_some_iff.1 h
      obtain rfl := Option.some.inj h
      rw [List.map_cons, ← ih.1 hrest, fields?_eq_some.1 hfirst]
    · intro h
      cases fields with
      | nil => cases h
      | cons first rest =>
        obtain ⟨rfl, hrest⟩ := List.cons.inj h
        rw [ih.2 hrest]
        rfl

namespace InputSnapshot

variable {x : InputSnapshot} {row : Json}

theorem ofFields_eq_some {question modelRequests evidenceContext variantId boundTargetId
    scopeFacts : Json} {limits : RunLimits} {schemas : List Json} :
    ofFields question modelRequests limits schemas evidenceContext variantId boundTargetId
        scopeFacts = some x ↔
      question = .str x.question ∧ modelRequests = .num x.modelRequests ∧ limits = x.limits ∧
        schemas = x.schemas ∧ evidenceContext = (x.evidenceContext.map Json.obj).getD .null ∧
        variantId = .str x.variantId ∧ boundTargetId = .optional x.boundTargetId ∧
        scopeFacts = x.facts := by
  unfold ofFields
  constructor
  · intro h
    split at h
    · next h₁ h₂ h₃ h₄ h₅ h₆ h₇ =>
      split at h
      · obtain rfl := Option.some.inj h
        exact ⟨text?_eq_some.1 h₁, (RunLimits.count?_eq_some.1 h₂).1, rfl,
          mapM_fields?_eq_some.1 h₃, optionalFields_eq_some.1 h₄, text?_eq_some.1 h₅,
          optionalText_eq_some.1 h₆, fields?_eq_some.1 h₇⟩
      · cases h
    · cases h
  · rintro ⟨rfl, rfl, rfl, rfl, rfl, rfl, rfl, rfl⟩
    have hschemas : x.schemas.mapM Json.fields? = some x.toolSchemas :=
      mapM_fields?_eq_some.2 rfl
    have hfacts : x.facts.fields? = some x.scopeFacts := fields?_eq_some.2 rfl
    rw [text?_eq_some.2 rfl, RunLimits.count?_eq_some.2 ⟨rfl, x.modelRequests_pos⟩, hschemas,
      optionalFields_eq_some.2 rfl, text?_eq_some.2 rfl, optionalText_eq_some.2 rfl, hfacts]
    exact dif_pos ⟨x.question_ne, x.modelRequests_pos, x.modelRequests_le, x.variantId_ne,
      x.boundTargetId_ne, x.scopeFacts_valid⟩

omit [FactTexts] [ReportTexts] in
theorem inputVersion_mem (facts : Json) : inputVersion facts ∈ knownInputVersions := by
  unfold inputVersion knownInputVersions
  repeat' split
  all_goals simp

/-- **What a row must be to be read.** -/
theorem fromJson_eq_ok : fromJson row = .ok x ↔ row.isObject = true ∧
    row.get "version" = .str (inputVersion x.facts) ∧
    row.get "tool_face_sha256" = .str (toolFaceSha256 x.schemas) ∧
    RunLimits.ofJson (row.get "limits") = some x.limits ∧
    row.get "question" = .str x.question ∧ row.get "model_requests" = .num x.modelRequests ∧
    row.get "tool_schemas" = .arr x.schemas ∧
    row.get "evidence_context" = (x.evidenceContext.map Json.obj).getD .null ∧
    row.get "variant_id" = .str x.variantId ∧
    row.get "bound_target_id" = .optional x.boundTargetId ∧
    orEmpty (row.get "scope_facts") = x.facts := by
  unfold fromJson
  constructor
  · intro h
    split at h
    · cases h
    · next hobject =>
      split at h
      · next version hversion =>
        split at h
        · cases h
        · split at h
          · next schemas limits hschemas hlimits =>
            split at h
            · next parsed hparsed =>
              split at h
              · cases h
              · next hagree =>
                obtain rfl := Except.ok.inj h
                simp only [not_or, not_not] at hagree
                obtain ⟨h₁, h₂, rfl, rfl, h₅, h₆, h₇, h₈⟩ := ofFields_eq_some.1 hparsed
                exact ⟨not_not.1 hobject, by rw [hversion, hagree.1], hagree.2, hlimits, h₁, h₂,
                  hschemas, h₅, h₆, h₇, h₈⟩
            · cases h
          · cases h
      · cases h
  · rintro ⟨hobject, hversion, hface, hlimits, h₁, h₂, h₃, h₄, h₅, h₆, h₇⟩
    have hparsed := ofFields_eq_some.2 ⟨h₁, h₂, rfl, rfl, h₄, h₅, h₆, h₇⟩
    rw [if_neg (not_not.2 hobject), hversion]
    dsimp only
    rw [if_neg (not_not.2 (inputVersion_mem _)), h₃, hlimits]
    dsimp only
    rw [hparsed]
    dsimp only
    rw [if_neg (by simp [hface])]

/-- A snapshot is read back. -/
theorem fromJson_asJson (x : InputSnapshot) : fromJson x.asJson = .ok x := by
  refine fromJson_eq_ok.2 ⟨rfl, rfl, rfl, RunLimits.ofJson_asJson x.limits, rfl, rfl, rfl, rfl,
    rfl, rfl, ?_⟩
  show orEmpty (.obj x.scopeFacts) = x.facts
  simp [orEmpty, Json.falsy, facts]

/-- How a row that is read compares with its snapshot written anew: in the row, the version follows
from the facts and the face from the schemas; the two agree in the limits and in every other field
the writer knows, a field that is absent counting as null and facts that are false as none. -/
structure RowAgrees (row : Json) (x : InputSnapshot) : Prop where
  version : row.get "version" = .str (inputVersion (orEmpty (row.get "scope_facts")))
  toolFace : ∃ schemas, row.get "tool_schemas" = .arr schemas ∧
    row.get "tool_face_sha256" = .str (toolFaceSha256 schemas)
  limitNames : (row.get "limits").hasExactly RunLimits.names = true
  limits : ∀ name ∈ RunLimits.names,
    (x.asJson.get "limits").get name = (row.get "limits").get name
  scopeFacts : x.asJson.get "scope_facts" = orEmpty (row.get "scope_facts")
  fields : ∀ key ∈ ["bound_target_id", "evidence_context", "model_requests", "question",
    "tool_face_sha256", "tool_schemas", "variant_id", "version"], x.asJson.get key = row.get key

theorem rowAgrees_of_fromJson (h : fromJson row = .ok x) : RowAgrees row x := by
  obtain ⟨-, hversion, hface, hlimits, hquestion, hrequests, hschemas, hcontext, hvariant, hbound,
    hfacts⟩ := fromJson_eq_ok.1 h
  obtain ⟨hnames, hl₁, hl₂, hl₃, hl₄, hl₅, hl₆⟩ := RunLimits.ofJson_eq_some.1 hlimits
  refine ⟨by rw [hfacts, hversion], ⟨x.schemas, hschemas, hface⟩, hnames, ?_, hfacts.symm, ?_⟩
  · intro name hname
    simp only [RunLimits.names, List.mem_cons, List.not_mem_nil, or_false] at hname
    rcases hname with rfl | rfl | rfl | rfl | rfl | rfl
    · exact hl₆.symm
    · exact hl₃.symm
    · exact hl₅.symm
    · exact hl₁.symm
    · exact hl₂.symm
    · exact hl₄.symm
  · intro key hkey
    simp only [List.mem_cons, List.not_mem_nil, or_false] at hkey
    rcases hkey with rfl | rfl | rfl | rfl | rfl | rfl | rfl | rfl
    · exact hbound.symm
    · exact hcontext.symm
    · exact hrequests.symm
    · exact hquestion.symm
    · exact hface.symm
    · exact hschemas.symm
    · exact hvariant.symm
    · exact hversion.symm

/-- **The input snapshot round trip.** A snapshot is read back; and a row is read only if its
version, its facts and its face agree, and then agrees with the snapshot written anew. -/
theorem input_round_trip : (∀ x, fromJson (asJson x) = .ok x) ∧
    ∀ row x, fromJson row = .ok x → RowAgrees row x :=
  ⟨fromJson_asJson, fun _ _ => rowAgrees_of_fromJson⟩

end InputSnapshot

end

namespace AnnotatedRow

/-- No text here is a report or a timestamp. -/
scoped instance reportTexts : ReportTexts where
  decodeError _ := ""
  schemaErrors _ := []
  fromisoformat _ := none

/-- Texts that are not looked into. -/
scoped instance factTexts : FactTexts where
  render variant _ := variant
  redactCredentials text := text
  canonical _ := ""
  sha256 text := text
  str _ := ""
  serialize _ := ""
  unprintable _ := false
  isUuid _ := false

theorem limits_positive : 0 < 1 ∧ 0 < 1 ∧ 0 < 1 ∧ 0 < 1 ∧ (0 : ℚ) < 1 ∧ (0 : ℚ) < 1 := by
  norm_num

theorem texts_ne : "Why is checkout slow?" ≠ "" ∧ "flash" ≠ "" ∧ none ≠ some "" := by decide

/-- A snapshot without tools, context or facts. -/
def snapshot : InputSnapshot where
  question := "Why is checkout slow?"
  modelRequests := 1
  limits := ⟨1, 1, 1, 1, 1, 1, limits_positive⟩
  toolSchemas := []
  evidenceContext := none
  variantId := "flash"
  boundTargetId := none
  scopeFacts := []
  question_ne := texts_ne.1
  modelRequests_pos := Nat.one_pos
  modelRequests_le := Nat.le_refl 1
  variantId_ne := texts_ne.2.1
  boundTargetId_ne := texts_ne.2.2
  scopeFacts_valid := rfl

/-- Its row, with a field no writer knows. -/
def row : Json := snapshot.asJson.setField "note" (.str "checked by hand")

/-- A row with a field more is read, and is not what is written anew. -/
theorem annotated_row_read : InputSnapshot.fromJson row = .ok snapshot ∧ snapshot.asJson ≠ row := by
  constructor
  · rw [InputSnapshot.fromJson_eq_ok]
    refine ⟨rfl, rfl, rfl, ?_, rfl, rfl, rfl, rfl, rfl, rfl, rfl⟩
    exact RunLimits.ofJson_asJson snapshot.limits
  · decide

end AnnotatedRow

end OpsPilot
