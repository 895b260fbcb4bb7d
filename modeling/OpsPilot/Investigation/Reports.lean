import OpsPilot.Domain.Observation
import OpsPilot.Foundations.JsonText
import Mathlib.Data.Finset.Sort
import Mathlib.Data.String.Basic
import Mathlib.Tactic.NormNum

/-!
# Reports and their citations

The report a model ends an investigation with (`opspilot/investigation/reports.py`): how its text
is read, and what each of its claims may cite of the views delivered to the model.

* `ClaimV2`, `ReportV2`: the report contract. What the contract asks of a value is part of its
  type, so that a `ReportV2` is a report that validates.
* `parseReport`: the report of a reply, or the code of its refusal.
* `citationFailures`: the first check each claim fails, in the order of the source.
* `eligibleTimePolicies`: the time policies a view may be cited under.
* `validatedReport`: the verdict on a reply, with the feedback a refused one is answered by.

What the checks take from outside (the error texts of the JSON reader and of the schema
validator, the reading of a timestamp) is the class `ReportTexts`.
-/

namespace OpsPilot

/-- A place in a payload: the name of a field, or the index of an item. -/
inductive Loc
  | field (name : String)
  | index (n : ℕ)
  deriving DecidableEq

/-- What the checks of a report take from outside: the text of the error `json.loads` raises on a
text, the errors (place and message) the schema validator lists for a payload that is no report,
and the UTC instant of an ISO timestamp with an offset. -/
class ReportTexts where
  decodeError : String → String
  schemaErrors : Json → List (List Loc × String)
  fromisoformat : String → Option Time

/-- `value.get(key)`: `None` when the field is absent. -/
def Json.get (value : Json) (key : String) : Json := (value.field? key).getD .null

/-! ## The report contract -/

/-- `CLAIM_KINDS`. -/
inductive ClaimKind
  | fact | hypothesis | recommendation | counterEvidence | rejectedHypothesis
  deriving DecidableEq

namespace ClaimKind

/-- The kind a text names. -/
def ofText? : String → Option ClaimKind
  | "fact" => some fact
  | "hypothesis" => some hypothesis
  | "recommendation" => some recommendation
  | "counter_evidence" => some counterEvidence
  | "rejected_hypothesis" => some rejectedHypothesis
  | _ => none

/-- `_FACTLKE`: the kinds that assert what evidence shows. -/
def factLike : ClaimKind → Bool
  | fact | counterEvidence | rejectedHypothesis => true
  | hypothesis | recommendation => false

end ClaimKind

/-- One claim of a report. -/
structure ClaimV2 where
  kind : ClaimKind
  text : String
  evidenceIds : List String
  targetRefs : List String
  timeScopeRef : Option String
  text_ne : text ≠ ""
  evidenceIds_ne : "" ∉ evidenceIds
  targetRefs_ne : "" ∉ targetRefs
  timeScopeRef_ne : timeScopeRef ≠ some ""
  /-- `FACT_SCOPE_REQUIRED`. -/
  explicitScope : kind.factLike = true → evidenceIds ≠ [] ∧ targetRefs ≠ [] ∧ timeScopeRef ≠ none
  /-- `DUPLICATE_TARGET_REF`. -/
  targetRefs_nodup : targetRefs.Nodup
  /-- `DUPLICATE_EVIDENCE_ID`. -/
  evidenceIds_nodup : evidenceIds.Nodup

/-- `assessment_status`. -/
inductive AssessmentStatus
  | completed | incomplete
  deriving DecidableEq

/-- The status a text names. -/
def AssessmentStatus.ofText? : String → Option AssessmentStatus
  | "completed" => some completed
  | "incomplete" => some incomplete
  | _ => none

/-- `conclusion`. -/
inductive ReportConclusion
  | supported | partly | inconclusive
  deriving DecidableEq

/-- The conclusion a text names. -/
def ReportConclusion.ofText? : String → Option ReportConclusion
  | "supported" => some supported
  | "partial" => some partly
  | "inconclusive" => some inconclusive
  | _ => none

/-- `str.isspace()` on one character. -/
def isSpace (c : Char) : Bool :=
  let n := c.toNat
  (9 ≤ n && n ≤ 13) || (28 ≤ n && n ≤ 32) || n == 0x85 || n == 0xA0 || n == 0x1680 ||
    (0x2000 ≤ n && n ≤ 0x200A) || n == 0x2028 || n == 0x2029 || n == 0x202F || n == 0x205F ||
    n == 0x3000

/-- `text.strip()`. -/
def strip (text : List Char) : List Char :=
  ((text.dropWhile isSpace).reverse.dropWhile isSpace).reverse

/-- `not text.strip()`. -/
def blank (text : String) : Bool := text.toList.all isSpace

/-- `REPORT_SCHEMA_VERSION`. -/
def reportSchemaVersion : String := "m0-report-v2"

/-- A report. -/
structure ReportV2 where
  assessmentStatus : AssessmentStatus
  conclusion : ReportConclusion
  summary : String
  claims : List ClaimV2
  gaps : List String
  nextSteps : List String
  gaps_ne : "" ∉ gaps
  nextSteps_ne : "" ∉ nextSteps
  /-- `EMPTY_SUMMARY`. -/
  summary_ne : blank summary = false
  /-- `INCOMPLETE_REPORT_CONTRACT`. -/
  incomplete : assessmentStatus = .incomplete → conclusion = .inconclusive ∧ gaps ≠ []
  /-- `SUPPORTED_REPORT_REQUIRES_FACT`. -/
  supported : conclusion = .supported → ∃ claim ∈ claims, claim.kind = .fact

/-! ## Reading a report -/

/-- The fields of an object none of whose fields is unknown (`extra="forbid"`). -/
def closedFields (declared : List String) : Json → Option (List (String × Json))
  | .obj fields => if fields.all fun f => f.1 ∈ declared then some fields else none
  | _ => none

/-- `Text`: a nonempty string. -/
def nonemptyText : Json → Option String
  | .str text => if text = "" then none else some text
  | _ => none

/-- `list[Text]`. -/
def textList : Json → Option (List String)
  | .arr items => items.mapM nonemptyText
  | _ => none

/-- `ClaimV2.model_validate(payload)`. -/
def ClaimV2.modelValidate (payload : Json) : Option ClaimV2 := do
  let fields ← closedFields
    ["kind", "text", "evidence_ids", "target_refs", "time_scope_ref"] payload
  let kind ← ((fields.lookup "kind").bind Json.text?).bind ClaimKind.ofText?
  let text ← (fields.lookup "text").bind nonemptyText
  let evidenceIds ← (fields.lookup "evidence_ids").bind textList
  let targetRefs ← match fields.lookup "target_refs" with
    | none => some []
    | some refs => textList refs
  let timeScopeRef ← match fields.lookup "time_scope_ref" with
    | none | some .null => some none
    | some ref => (nonemptyText ref).map some
  if h : text ≠ "" ∧ "" ∉ evidenceIds ∧ "" ∉ targetRefs ∧ timeScopeRef ≠ some "" ∧
      (kind.factLike = true → evidenceIds ≠ [] ∧ targetRefs ≠ [] ∧ timeScopeRef ≠ none) ∧
      targetRefs.Nodup ∧ evidenceIds.Nodup then
    some { kind, text, evidenceIds, targetRefs, timeScopeRef, text_ne := h.1,
           evidenceIds_ne := h.2.1, targetRefs_ne := h.2.2.1, timeScopeRef_ne := h.2.2.2.1,
           explicitScope := h.2.2.2.2.1, targetRefs_nodup := h.2.2.2.2.2.1,
           evidenceIds_nodup := h.2.2.2.2.2.2 }
  else none

/-- `ReportV2.model_validate(payload)`. -/
def ReportV2.modelValidate (payload : Json) : Option ReportV2 := do
  let fields ← closedFields ["schema_version", "assessment_status", "conclusion", "summary",
    "claims", "gaps", "next_steps"] payload
  let version ← (fields.lookup "schema_version").bind Json.text?
  let assessmentStatus ←
    ((fields.lookup "assessment_status").bind Json.text?).bind AssessmentStatus.ofText?
  let conclusion ← ((fields.lookup "conclusion").bind Json.text?).bind ReportConclusion.ofText?
  let summary ← (fields.lookup "summary").bind nonemptyText
  let claims ← ((fields.lookup "claims").bind Json.items?).bind (·.mapM ClaimV2.modelValidate)
  let gaps ← (fields.lookup "gaps").bind textList
  let nextSteps ← (fields.lookup "next_steps").bind textList
  if h : version = reportSchemaVersion ∧ "" ∉ gaps ∧ "" ∉ nextSteps ∧ blank summary = false ∧
      (assessmentStatus = .incomplete → conclusion = .inconclusive ∧ gaps ≠ []) ∧
      (conclusion = .supported → ∃ claim ∈ claims, claim.kind = .fact) then
    some { assessmentStatus, conclusion, summary, claims, gaps, nextSteps, gaps_ne := h.2.1,
           nextSteps_ne := h.2.2.1, summary_ne := h.2.2.2.1, incomplete := h.2.2.2.2.1,
           supported := h.2.2.2.2.2 }
  else none

/-- `_unique_object`: an object no field of which is named twice. -/
def uniqueObject (pairs : List (String × Json)) : Option Json :=
  if (pairs.map Prod.fst).Nodup then some (.obj pairs) else none

/-- Whether a text reads `[^>\n]*DSML`, in any case, from its start. -/
def dsmlAfter : List Char → Bool
  | [] => false
  | c :: text =>
    (match c :: text with
      | d :: s :: m :: l :: _ => (d == 'D' || d == 'd') && (s == 'S' || s == 's' || s == 'ſ') &&
          (m == 'M' || m == 'm') && (l == 'L' || l == 'l')
      | _ => false) || (c != '>' && c != '\n' && dsmlAfter text)

/-- `_DSML.search(text)`: markup of a tool call. -/
def hasDsml : List Char → Bool
  | [] => false
  | c :: text => (c == '<' && dsmlAfter text) || hasDsml text

/-- The fixed codes of a refused reply. -/
inductive RejectCode
  | outputLength | reportInvalid | emptyReport
  deriving DecidableEq

/-- The text of a code. -/
def RejectCode.text : RejectCode → String
  | outputLength => "OUTPUT_LENGTH"
  | reportInvalid => "REPORT_INVALID"
  | emptyReport => "EMPTY_REPORT"

/-- `parse_report`: the report of a reply, or why there is none. -/
def parseReport (content : String) (finishReason : String) : Except RejectCode ReportV2 :=
  if finishReason = "length" then .error .outputLength
  else if finishReason ≠ "stop" then .error .reportInvalid
  else if blank content then .error .emptyReport
  else if hasDsml content.toList then .error .reportInvalid
  else match Json.loads uniqueObject content with
    | none => .error .reportInvalid
    | some payload =>
      match ReportV2.modelValidate payload with
      | some report => .ok report
      | none => .error .reportInvalid

/-- A reply that is read as a payload has the report the payload is, if it is one. -/
theorem parseReport_of_loads {raw : String} {payload : Json} (hblank : blank raw = false)
    (hdsml : hasDsml raw.toList = false) (hloads : Json.loads uniqueObject raw = some payload) :
    (parseReport raw "stop").toOption = ReportV2.modelValidate payload := by
  rw [parseReport, if_neg (by decide), if_neg (by decide), hblank, hdsml, hloads]
  cases hvalid : ReportV2.modelValidate payload <;> simp [Except.toOption, hvalid]

/-! ## What a claim may cite -/

/-- One adopted view a report is allowed to cite. -/
structure DeliveredView where
  evidenceId : String
  targetIds : Finset String
  status : String
  timeScopeRefs : Finset String := ∅
  citableAsFact : Bool := false
  incomplete : Bool := false
  truncated : Bool := false
  inherited : Bool := false

/-- `{view.evidence_id: view for view in views}[eid]`: of two views of one evidence id, the
later. -/
def byId (views : List DeliveredView) (eid : String) : Option DeliveredView :=
  views.reverse.find? fun view => view.evidenceId = eid

/-- What opaque target refs stand for: a registry id, or nothing. -/
abbrev Catalog := List (String × Option String)

/-- The only element of a set. -/
def sole (targets : Finset String) : Option String :=
  match targets.sort (· ≤ ·) with
  | [target] => some target
  | _ => none

/-- The registry id an entry of the catalog names. -/
def registryId (entry : Json) : Option String :=
  match entry.get "target_id" with
  | .str target => if target = "" then none else some target
  | _ => none

/-- The refs of a catalog with the registry ids their entries name. -/
def namedCatalog (fields : List (String × Json)) : Catalog :=
  (fields.filter fun f => f.1 ≠ "").map fun f => (f.1, registryId f.2)

/-- The refs whose entries name no registry id. -/
def unmapped (catalog : Catalog) : List String :=
  (catalog.filter fun f => f.2 = none).map Prod.fst

/-- The catalog under an authorization: a sole unmapped ref binds to a sole target. -/
def Catalog.bindSole (catalog : Catalog) (authorized : Finset String) : Catalog :=
  match unmapped catalog, sole authorized with
  | [ref], some target => catalog.map fun f => if f.1 = ref then (ref, some target) else f
  | _, _ => catalog

/-- `context_target_catalog`: `none` when the context has no catalog at all. -/
def contextTargetCatalog (context : Json) (authorized : Finset String) : Option Catalog :=
  match context.get "target_catalog" with
  | .obj fields => some ((namedCatalog fields).bindSole authorized)
  | _ => none

/-- `context_time_policy_ids`. -/
def contextTimePolicyIds (context : Json) : List String :=
  match context.get "time_policies" with
  | .arr items => items.filterMap fun item => nonemptyText (item.get "id")
  | _ => []

/-- The closed vocabulary of citation failures. -/
inductive CitationReason
  | unknownEvidenceId | missingTargetRefs | missingTimeScopeRef | citesNonOkView
  | notCitableAsFact | timeScopeNotBoundToView | targetNotObservedByView
  deriving DecidableEq

/-- The name of a reason. -/
def CitationReason.text : CitationReason → String
  | unknownEvidenceId => "unknown_evidence_id"
  | missingTargetRefs => "missing_target_refs"
  | missingTimeScopeRef => "missing_time_scope_ref"
  | citesNonOkView => "cites_non_ok_view"
  | notCitableAsFact => "not_citable_as_fact"
  | timeScopeNotBoundToView => "time_scope_not_bound_to_view"
  | targetNotObservedByView => "target_not_observed_by_view"

/-- One claim's first citation failure. -/
structure ClaimCitationFailure where
  claimIndex : ℕ
  reason : CitationReason
  evidenceIds : List String := []

/-- What the citations of a report are checked against. -/
structure CitationScope where
  views : List DeliveredView
  authorizedTargets : Finset String
  timePolicyIds : List String
  targetCatalog : Option Catalog

namespace CitationScope

variable (scope : CitationScope)

/-- Whether a claim may name a target ref: a ref of the catalog that stands for an authorized
target or for nothing; without a catalog, an authorized target. -/
def refAllowed (ref : String) : Bool :=
  match scope.targetCatalog with
  | some catalog =>
    match catalog.lookup ref with
    | none => false
    | some none => true
    | some (some target) => target ∈ scope.authorizedTargets
  | none => ref ∈ scope.authorizedTargets

/-- The views a claim cites, in the order of its evidence ids. -/
def cited (claim : ClaimV2) : List DeliveredView :=
  claim.evidenceIds.filterMap (byId scope.views)

/-- The evidence ids of the cited views that fail a test. -/
def citedNot (claim : ClaimV2) (p : DeliveredView → Bool) : List String :=
  ((scope.cited claim).filter fun view => !p view).map DeliveredView.evidenceId

/-- Whether a view was delivered under the time policy a claim names. -/
def boundBy (claim : ClaimV2) (view : DeliveredView) : Bool :=
  match claim.timeScopeRef with
  | some ref => ref ∈ view.timeScopeRefs
  | none => false

/-- Whether a claim names one of the time policies. -/
def timeKnown (claim : ClaimV2) : Bool :=
  match claim.timeScopeRef with
  | some ref => ref ∈ scope.timePolicyIds
  | none => false

/-- The checks of the claims that assert what evidence shows. -/
def factFailure (index : ℕ) (claim : ClaimV2) : Option ClaimCitationFailure :=
  if !scope.timeKnown claim then some ⟨index, .missingTimeScopeRef, []⟩
  else if scope.citedNot claim (·.status = "ok") ≠ [] then
    some ⟨index, .citesNonOkView, scope.citedNot claim (·.status = "ok")⟩
  else if scope.citedNot claim (·.citableAsFact) ≠ [] then
    some ⟨index, .notCitableAsFact, scope.citedNot claim (·.citableAsFact)⟩
  else if scope.citedNot claim (boundBy claim) ≠ [] then
    some ⟨index, .timeScopeNotBoundToView, scope.citedNot claim (boundBy claim)⟩
  else if claim.targetRefs.any fun ref =>
      (scope.cited claim).all fun view => ref ∉ view.targetIds then
    some ⟨index, .targetNotObservedByView, []⟩
  else none

/-- The first check a claim fails. -/
def citationFailure (index : ℕ) (claim : ClaimV2) : Option ClaimCitationFailure :=
  let unknown := claim.evidenceIds.filter fun eid => (byId scope.views eid).isNone
  if unknown ≠ [] then some ⟨index, .unknownEvidenceId, unknown⟩
  else if claim.targetRefs.any fun ref => !scope.refAllowed ref then
    some ⟨index, .missingTargetRefs, []⟩
  else if claim.timeScopeRef ≠ none ∧ !scope.timeKnown claim then
    some ⟨index, .missingTimeScopeRef, []⟩
  else if claim.kind.factLike then scope.factFailure index claim
  else none

/-- `_citation_failures`: every claim's first failure, in the order of the claims. -/
def citationFailures (report : ReportV2) : List ClaimCitationFailure :=
  report.claims.zipIdx.filterMap fun (claim, index) => scope.citationFailure index claim

/-- `unsupported_citations`. -/
def unsupportedCitations (report : ReportV2) : Bool := !(scope.citationFailures report).isEmpty

end CitationScope

/-! ## Feedback on a refused reply -/

/-- `" ".join(texts)` and the like. -/
def joined (separator : String) (texts : List String) : String := separator.intercalate texts

/-- `_MAX_FEEDBACK_ITEMS`. -/
def maxFeedbackItems : ℕ := 50

/-- `_capped_items`: at most fifty lines, with a note on the ones left out. -/
def cappedItems (items : List String) (what : String) : String :=
  let shown := items.take maxFeedbackItems
  if items = [] then ""
  else " " ++ joined " " (shown.map (· ++ ".")) ++
    if shown.length < items.length then
      " Truncated: " ++ toString (items.length - shown.length) ++ " more " ++ what ++ " (" ++
        toString items.length ++ " total); only the first " ++ toString shown.length ++
        " are listed."
    else ""

/-- `_citation_failure_detail`: one line for each failing claim. -/
def citationFailureDetail (scope : CitationScope) (report : ReportV2) : String :=
  cappedItems ((scope.citationFailures report).map fun f =>
      "claim " ++ toString f.claimIndex ++ ": " ++ f.reason.text ++
        if f.evidenceIds = [] then "" else " (evidence_id: " ++ joined ", " f.evidenceIds ++ ")")
    "claim(s) failed citation checks"

/-- A character of a fence's language tag. -/
def isTagChar (c : Char) : Bool :=
  ('A' ≤ c && c ≤ 'Z') || ('a' ≤ c && c ≤ 'z') || ('0' ≤ c && c ≤ '9') || c == '_' || c == '+' ||
    c == '-'

/-- `_strip_fence_language`: a fence's body without its language tag, trimmed. -/
def stripFenceLanguage (inner : List Char) : List Char :=
  let first := inner.takeWhile (· != '\n')
  let tag := strip first
  if first.length < inner.length && tag.length ≤ 32 && tag.all isTagChar then
    strip (inner.drop (first.length + 1))
  else if (inner.take 4).map Char.toLower = ['j', 's', 'o', 'n'] then strip (inner.drop 4)
  else strip inner

/-- The Markdown fence. -/
def fence : List Char := List.replicate 3 (Char.ofNat 96)

/-- `_markdown_json_fence_body`: the body of a reply that is one code fence. -/
def markdownJsonFenceBody (content : String) : Option (List Char) :=
  let text := strip content.toList
  if 6 ≤ text.length && fence.isPrefixOf text && fence.isSuffixOf text then
    some (stripFenceLanguage ((text.drop 3).take (text.length - 6)))
  else none

/-- The text before the first fence and the text after it. -/
def splitFence : List Char → Option (List Char × List Char)
  | [] => none
  | c :: text =>
    if fence.isPrefixOf (c :: text) then some ([], text.drop 2)
    else (splitFence text).map fun (before, after) => (c :: before, after)

/-- `_embedded_json_fence_body`: the body of the first code fence inside a reply. -/
def embeddedJsonFenceBody (content : String) : Option (List Char) := do
  let (_, after) ← splitFence content.toList
  let (body, _) ← splitFence after
  some (stripFenceLanguage body)

/-- A part of a place as the feedback writes it. -/
def Loc.text : Loc → String
  | field name => name
  | index n => toString n

/-- One line on a schema error. -/
def schemaErrorLine : List Loc × String → String
  | (.field "claims" :: .index n :: path, message) =>
    let field := if path = [] then "claim" else joined "." (path.map Loc.text)
    "claim " ++ toString n ++ ": schema_error (" ++ field ++ ": " ++ message ++ ")"
  | (path, message) =>
    let field := if path = [] then "report" else joined "." (path.map Loc.text)
    field ++ ": schema_error (" ++ message ++ ")"

section

variable [ReportTexts]

/-- What the feedback says of a payload that was read: its schema errors, or (of a fenced one,
which has a `parseError`) the citation failures of the report it is. -/
def payloadDetail (scope : CitationScope) (parseError label : String) (payload : Json) : String :=
  match ReportV2.modelValidate payload with
  | none => parseError ++ cappedItems ((ReportTexts.schemaErrors payload).map schemaErrorLine)
      "claim(s)/field(s) failed schema validation"
  | some located =>
    let detail := citationFailureDetail scope located
    if parseError ≠ "" ∧ detail ≠ "" then
      parseError ++ " " ++ label ++ ", citation check:" ++ detail
    else parseError

/-- `_json_parse_position_detail`: where the text of a reply fails, looking into a code fence
when the text itself is not JSON. -/
def jsonParsePositionDetail (scope : CitationScope) (content : String) : String :=
  match Json.loads uniqueObject content with
  | some payload => payloadDetail scope "" "" payload
  | none =>
    let parseError := " JSON parse error: " ++ ReportTexts.decodeError content ++ "."
    let inFence := fun (label : String) (body : List Char) =>
      match Json.loads uniqueObject (String.ofList body) with
      | some payload => payloadDetail scope parseError label payload
      | none => parseError ++ " " ++ label ++ ", JSON parse error: " ++
          ReportTexts.decodeError (String.ofList body) ++ "."
    match markdownJsonFenceBody content, embeddedJsonFenceBody content with
    | some body, _ => inFence "After removing the Markdown json fence" body
    | none, some body => inFence "In the Markdown json fence found inside the reply" body
    | none, none => parseError

/-- `REPORT_RETRY_TEMPLATE`. -/
def reportRetryTemplate (reason detail : String) : String :=
  "The previous reply was not accepted as the final report (" ++ reason ++ ")." ++ detail ++
    " This is the forced final retry: return exactly one corrected json object in the report " ++
    "format already given, citing only evidence_id values already delivered in this transcript."

/-- `report_retry_feedback`. -/
def reportRetryFeedback (reason : RejectCode) (report : Option ReportV2) (scope : CitationScope)
    (content : Option String) : String :=
  reportRetryTemplate reason.text <|
    match report, content with
    | some report, _ => citationFailureDetail scope report
    | none, some content =>
      if reason = .reportInvalid ∧ blank content = false then
        jsonParsePositionDetail scope content
      else ""
    | none, none => ""

/-- The verdict on a reply: its report, or why it is refused and the feedback on it. -/
inductive ReportVerdict
  | accepted (report : ReportV2)
  | rejected (reason : RejectCode) (retryFeedback : String)

/-- What `validated_report` checks citations against. -/
def citationScope (delivered : List DeliveredView) (evidenceContext : Json)
    (authorizedTargets : Finset String) : CitationScope where
  views := delivered
  authorizedTargets
  timePolicyIds := contextTimePolicyIds evidenceContext
  targetCatalog := contextTargetCatalog evidenceContext authorizedTargets

/-- `validated_report`: the verdict of the live round, and of the rebuild. -/
def validatedReport (content : String) (finishReason : Option String)
    (delivered : List DeliveredView) (evidenceContext : Json)
    (authorizedTargets : Finset String) : ReportVerdict :=
  let scope := citationScope delivered evidenceContext authorizedTargets
  let finish := match finishReason with
    | none | some "" => "unknown"
    | some finish => finish
  match parseReport content finish with
  | .error reason => .rejected reason (reportRetryFeedback reason none scope (some content))
  | .ok report =>
    if scope.unsupportedCitations report then
      .rejected .reportInvalid (reportRetryFeedback .reportInvalid (some report) scope none)
    else .accepted report

end

end OpsPilot
