import OpsPilot.Foundations.Traversal
import OpsPilot.Investigation.Reports

/-!
# The deterministic gate of an evaluation

What the evaluation suite checks of one attempt without a judge (`opspilot/evaluation/gate.py`): how
the execution ended, that there is a complete report, the permissions used, that every citation of
the report is bound to evidence of this Run, and, for a fault, that a cited record shows the
signature of the injected fault.

* `factBindingReasons`: why a record cannot back a fact. `Backs` is what it says when there is no
  reason (`factBindingReasons_eq_nil`).
* `signatureMatches`: the spans of a record that match a signature. `Shows` says when there are any.
* `reportSignatureMatches`: the records cited as a fact's would be that show the signature.
* `runGate`: the gate.

The records and the authorized windows are mappings, given by what they return for a key.
-/

namespace OpsPilot

/-- What an evaluation takes from the library: `str.casefold`, the value of a decimal digit of any
script, `str()` of a JSON value that is not a text, `canonical_hash`, and the instant
`datetime.fromtimestamp` finds some microseconds after the epoch, if it is in range. -/
class EvaluationTexts where
  casefold : String → String
  digit : Char → Option ℕ
  str : Json → String
  canonicalHash : Json → String
  fromtimestamp : ℤ → Option Time

/-- What an evaluation raises: two errors of its own, and those of Python for a key that cannot be
hashed, for a number of more than 4300 digits and for an index out of range. -/
inductive EvaluationError
  | attemptNotStarted | scenarioMismatch | unhashable | tooManyDigits | indexError
  deriving DecidableEq, Repr

/-! ## The records of an evaluation -/

/-- `Window`. -/
structure Window where
  start : Time
  endAt : Time
  /-- `WINDOW_REVERSED`. -/
  ordered : start ≤ endAt

/-- `Window.contains`. -/
def Window.contains (window other : Window) : Bool :=
  window.start ≤ other.start ∧ other.endAt ≤ window.endAt

/-- `ScenarioKind`. -/
inductive ScenarioKind
  | fault | normal
  deriving DecidableEq

/-- `AnyScenarioSpec`: a `ScenarioSpec` has a kind, a `ScenarioSpecV2` has none. -/
structure AnyScenarioSpec where
  scenarioId : String
  version : String
  kind : Option ScenarioKind
  targetId : String

/-- `SpanMatcher`. -/
structure SpanMatcher where
  service : String
  operation : String
  deriving DecidableEq

/-- `SignatureRule`. -/
structure SignatureRule where
  anyOf : List SpanMatcher
  minMatches : ℕ := 1

/-- `InjectedFault`. -/
structure InjectedFault where
  service : String
  serviceAliases : List String
  operation : String
  operationAliases : List String

/-- `AnyAnswer`: an `Answer`, which may name the injected fault, or an `AnswerV2`. -/
inductive AnyAnswer
  | v1 (scenarioId version : String) (injected : Option InjectedFault)
      (signature : Option SignatureRule)
  | v2 (scenarioId version : String) (signature : Option SignatureRule)

namespace AnyAnswer

/-- The scenario an answer is for, and its version. -/
def identity : AnyAnswer → String × String
  | v1 scenarioId version .. | v2 scenarioId version _ => (scenarioId, version)

/-- `answer.signature`. -/
def signature : AnyAnswer → Option SignatureRule
  | v1 _ _ _ signature | v2 _ _ signature => signature

/-- `injected_fault`. -/
def injectedFault : AnyAnswer → Option InjectedFault
  | v1 _ _ injected _ => injected
  | v2 .. => none

end AnyAnswer

/-- `is_fault_scenario`. -/
def isFaultScenario (spec : AnyScenarioSpec) (answer : AnyAnswer) : Bool :=
  match spec.kind with
  | none => answer.signature.isSome
  | some kind => kind = .fault

/-- `DeliveredRecord`. -/
structure DeliveredRecord where
  evidenceId : String
  targetId : String
  status : String
  citableAsFact : Bool
  timeScopeRefs : Finset String
  window : Option Window
  view : Json
  viewSha256 : String
  delivered : Bool

/-- `ReportCapture`. -/
structure ReportCapture where
  raw : Option String
  finishReason : String

/-- `OutcomeState`. -/
inductive OutcomeState
  | completed | failed | blocked | budgetExhausted | cancelled | paused
  deriving DecidableEq

/-- `IncidentOutcome`. -/
structure IncidentOutcome where
  scenarioId : String
  finalState : OutcomeState
  evidenceIds : List String
  decision : String
  permissions : List String
  humanInteraction : Option String
  handoffReasons : List String
  reportAvailable : Bool

/-- `RunScope`: what a cited record must belong to. -/
structure RunScope where
  evidenceIds : List String
  targetId : String

/-- The results of the five checks of the gate. -/
structure GateChecks where
  execution : Bool
  report : Bool
  permissions : Bool
  citations : Bool
  signature : Bool

/-- `GateResult`. -/
structure GateResult where
  passed : Bool
  checks : GateChecks
  reasons : List String

/-! ## Signatures -/

section

variable [EvaluationTexts]

/-- `str(value)`. -/
def pyStr : Json → String
  | .str text => text
  | value => EvaluationTexts.str value

/-- `_error_by_tags`. -/
def errorByTags (tags : Json) : Bool :=
  tags.isObject ∧ (tags.get "error" = .bool true ∨ tags.get "otel.status_code" = .str "ERROR" ∨
    (tags.get "rpc.grpc.status_code" ≠ .null ∧
      pyStr (tags.get "rpc.grpc.status_code") ∉ ["0", "None"]) ∨
    (pyStr ((tags.field? "http.status_code").getD (.str ""))).toList.head? = some '5')

/-- `_in_window`. -/
def inWindow (startUs : Json) (window : Window) : Bool :=
  match startUs with
  | .num q => q.den = 1 ∧
      (EvaluationTexts.fromtimestamp q.num).any fun at' => window.start ≤ at' ∧ at' ≤ window.endAt
  | _ => false

/-- `_trace_rows_view`. -/
def traceRowsView (view : Json) : Bool :=
  view.get "tool" = .str "traces_search" ∨
    view.get "tool" = .str "read_evidence" ∧ view.get "parent_tool" = .str "traces_search"

/-- The value can be hashed. -/
def hashable : Json → Bool
  | .arr _ | .obj _ => false
  | _ => true

/-- A row is a complete span of a wanted operation that failed inside the window. -/
def spanMatches (rule : SignatureRule) (window : Window) (row : Json) : Bool :=
  (rule.anyOf.any fun m => row.get "service" = .str m.service ∧
      row.get "operation" = .str m.operation) ∧
    row.get "operation_truncated" = .bool false ∧ errorByTags (row.get "status_tags") ∧
    inWindow (row.get "start_us") window

/-- The span a row adds to the hits, if it does. -/
def spanHit (rule : SignatureRule) (window : Window) (row : Json) :
    Except EvaluationError (Option String) :=
  if row.isObject = false then .ok none
  else if !(hashable (row.get "service") && hashable (row.get "operation")) then
    .error .unhashable
  else if spanMatches rule window row then .ok (row.get "span_id").text?
  else .ok none

/-- `signature_matches`: the spans of a record that match, if there are enough. -/
def signatureMatches (rule : SignatureRule) (record : DeliveredRecord) :
    Except EvaluationError (List String) :=
  match record.window, record.view.get "content" with
  | some window, .arr rows =>
    if traceRowsView record.view then do
      let hits ← rows.mapM (spanHit rule window)
      pure (if rule.minMatches ≤ (hits.filterMap id).length then hits.filterMap id else [])
    else .ok []
  | _, _ => .ok []

/-! ## Citations -/

/-- `_execution_ok`. -/
def executionOk (outcome : Option IncidentOutcome) : Bool :=
  outcome.any fun o => o.finalState = .completed ∧ o.reportAvailable ∧
    o.decision = "report_available" ∧ o.humanInteraction = none ∧ o.handoffReasons = []

/-- `parsed_report`: without a text there is no report. -/
def parsedReport (report : Option ReportCapture) : Option ReportV2 := do
  let capture ← report
  let raw ← capture.raw
  (parseReport raw capture.finishReason).toOption

omit [EvaluationTexts] in
/-- A reply that is read as a payload has the report the payload is, if it is one. -/
theorem parsedReport_of_loads {raw : String} {payload : Json} (hblank : blank raw = false)
    (hdsml : hasDsml raw.toList = false) (hloads : Json.loads uniqueObject raw = some payload) :
    parsedReport (some ⟨some raw, "stop"⟩) = ReportV2.modelValidate payload :=
  parseReport_of_loads hblank hdsml hloads

/-- Every citation of a report, with its claim. -/
def citations (report : ReportV2) : List (ClaimV2 × String) :=
  report.claims.flatMap fun claim => claim.evidenceIds.map fun eid => (claim, eid)

/-- `cited_ids`. -/
def citedIds (report : ReportV2) : List String :=
  (report.claims.flatMap ClaimV2.evidenceIds).eraseDups

/-- `run_scope`. -/
def runScope (spec : AnyScenarioSpec) (outcome : Option IncidentOutcome) : RunScope where
  evidenceIds := outcome.elim [] IncidentOutcome.evidenceIds
  targetId := spec.targetId

/-- `in_scope`. -/
def inScope (eid : String) (record : Option DeliveredRecord) (scope : RunScope) : Bool :=
  record.any fun r => r.delivered ∧ r.evidenceId = eid ∧ eid ∈ scope.evidenceIds ∧
    r.targetId = scope.targetId

/-- `fact_binding_reasons`: why the record cannot back a fact cited with these refs. -/
def factBindingReasons (eid : String) (targetRefs : List String) (timeScopeRef : Option String)
    (record : Option DeliveredRecord) (authorized : String → Option Window) (scope : RunScope) :
    List String :=
  match record.filter DeliveredRecord.delivered with
  | none => ["CITATION_NOT_DELIVERED"]
  | some record =>
    if record.evidenceId ≠ eid then ["CITATION_ID_MISMATCH"]
    else
      let frame := timeScopeRef.bind authorized
      (if record.viewSha256 ≠ EvaluationTexts.canonicalHash record.view then
        ["VIEW_HASH_MISMATCH"] else []) ++
      (if record.status ≠ "ok" ∨ !record.citableAsFact then
        ["CITATION_NOT_FACT_EVIDENCE"] else []) ++
      (if targetRefs = [] ∨ (∃ ref ∈ targetRefs, ref ≠ record.targetId) ∨
          record.targetId ≠ scope.targetId then ["TARGET_MISMATCH"] else []) ++
      (if timeScopeRef.all (· ∉ record.timeScopeRefs) ∨ frame.isNone then
        ["TIME_SCOPE_MISMATCH"] else []) ++
      (if frame.any fun frame => !record.window.any frame.contains then
        ["WINDOW_OUTSIDE_AUTHORIZED"] else [])

/-- Why one citation of a claim is refused. -/
def citationReasons (delivered : String → Option DeliveredRecord)
    (authorized : String → Option Window) (scope : RunScope) (claim : ClaimV2) (eid : String) :
    List String :=
  match (delivered eid).filter DeliveredRecord.delivered with
  | none => ["CITATION_NOT_DELIVERED"]
  | some record =>
    if record.evidenceId ≠ eid then ["CITATION_ID_MISMATCH"]
    else
      (if eid ∉ scope.evidenceIds then ["CITATION_NOT_IN_RUN"] else []) ++
      if claim.kind.factLike then
        factBindingReasons eid claim.targetRefs claim.timeScopeRef (some record) authorized scope
      else if record.viewSha256 ≠ EvaluationTexts.canonicalHash record.view then
        ["VIEW_HASH_MISMATCH"]
      else []

/-- `_citation_reasons`. -/
def reportCitationReasons (report : ReportV2) (delivered : String → Option DeliveredRecord)
    (authorized : String → Option Window) (scope : RunScope) : List String :=
  ((citations report).flatMap fun (claim, eid) =>
    citationReasons delivered authorized scope claim eid).eraseDups

/-- The signature hits with those of one more citation. -/
def addHits (rule : SignatureRule) (delivered : String → Option DeliveredRecord)
    (authorized : String → Option Window) (scope : RunScope) (hits : List (String × List String))
    (citation : ClaimV2 × String) : Except EvaluationError (List (String × List String)) :=
  let (claim, eid) := citation
  match delivered eid with
  | none => .ok hits
  | some record =>
    if hits.any (·.1 = eid) ∨ !inScope eid (some record) scope ∨
        factBindingReasons eid claim.targetRefs claim.timeScopeRef (some record) authorized
          scope ≠ [] then .ok hits
    else do
      let matched ← signatureMatches rule record
      pure (if matched = [] then hits else hits ++ [(eid, matched)])

/-- `report_signature_matches`: the signature hits of every qualified citation. -/
def reportSignatureMatches (answer : AnyAnswer) (report : Option ReportV2)
    (delivered : String → Option DeliveredRecord) (authorized : String → Option Window)
    (scope : RunScope) : Except EvaluationError (List (String × List String)) :=
  match answer.signature, report with
  | some rule, some report =>
    (citations report).foldlM (addHits rule delivered authorized scope) []
  | _, _ => .ok []

/-! ## The gate -/

/-- `_ALLOWED_PERMISSIONS`. -/
def allowedPermissions : List String := ["read_only", "human_control"]

/-- The signature check of a report: a fault has to show its signature. -/
def signatureCheck (spec : AnyScenarioSpec) (answer : AnyAnswer) (report : ReportV2)
    (delivered : String → Option DeliveredRecord) (authorized : String → Option Window)
    (scope : RunScope) : Except EvaluationError Bool :=
  if isFaultScenario spec answer then
    (reportSignatureMatches answer (some report) delivered authorized scope).map (!·.isEmpty)
  else .ok true

/-- The checks of the citations and of the signature, with their reasons. -/
def bindingChecks (spec : AnyScenarioSpec) (answer : AnyAnswer) (report : Option ReportV2)
    (delivered : String → Option DeliveredRecord) (authorized : String → Option Window)
    (scope : RunScope) : Except EvaluationError (Bool × Bool × List String) :=
  match report with
  | none => .ok (false, false, [])
  | some report =>
    let reasons := reportCitationReasons report delivered authorized scope
    (signatureCheck spec answer report delivered authorized scope).map fun signature =>
      (reasons.isEmpty, signature, reasons ++ if signature then [] else ["SIGNATURE_ABSENT"])

/-- The reasons of the report check. -/
def reportReasons : Option ReportV2 → List String
  | none => ["REPORT_INVALID"]
  | some report => if report.assessmentStatus ≠ .completed then ["REPORT_INCOMPLETE"] else []

/-- The permissions check. -/
def permissionsOk (outcome : Option IncidentOutcome) : Bool :=
  let used := outcome.elim [] IncidentOutcome.permissions
  "read_only" ∈ used ∧ ∀ p ∈ used, p ∈ allowedPermissions

/-- `run_gate`, without the expectations of an attempt. -/
def runGate (spec : AnyScenarioSpec) (answer : AnyAnswer) (outcome : Option IncidentOutcome)
    (report : Option ReportCapture) (delivered : String → Option DeliveredRecord)
    (authorized : String → Option Window) : Except EvaluationError GateResult := do
  let parsed := parsedReport report
  let (citations, signature, bindingReasons) ←
    bindingChecks spec answer parsed delivered authorized (runScope spec outcome)
  let checks : GateChecks :=
    { execution := executionOk outcome, report := (reportReasons parsed).isEmpty
      permissions := permissionsOk outcome, citations, signature }
  pure {
    passed := checks.execution && checks.report && checks.permissions && citations && signature
    checks
    reasons := (if checks.execution then [] else ["EXECUTION_NOT_COMPLETED"]) ++
      reportReasons parsed ++ (if checks.permissions then [] else ["PERMISSION_VIOLATION"]) ++
      bindingReasons }

/-! ## What the checks say -/

/-- A record that backs a fact cited under an id with a claim's target and time: it was delivered,
its view has the hash it was filed under, it is fact evidence of the scenario's target, and its
window lies inside the authorized one the claim names. -/
structure Backs (authorized : String → Option Window) (scope : RunScope) (claim : ClaimV2)
    (eid : String) (record : DeliveredRecord) : Prop where
  delivered : record.delivered = true
  evidenceId : record.evidenceId = eid
  hash : record.viewSha256 = EvaluationTexts.canonicalHash record.view
  status : record.status = "ok"
  citable : record.citableAsFact = true
  target : record.targetId = scope.targetId
  targetRefs : claim.targetRefs ≠ [] ∧ ∀ ref ∈ claim.targetRefs, ref = record.targetId
  window : ∃ ref ∈ record.timeScopeRefs, claim.timeScopeRef = some ref ∧
    ∃ frame window, authorized ref = some frame ∧ record.window = some window ∧
      frame.contains window = true

variable {authorized : String → Option Window} {scope : RunScope} {claim : ClaimV2} {eid : String}
  {delivered delivered' : String → Option DeliveredRecord} {rule : SignatureRule}

omit [EvaluationTexts] in
theorem ite_eq_nil {c : Prop} [Decidable c] {reason : String} :
    (if c then [reason] else []) = [] ↔ ¬ c := by
  split <;> simp_all

/-- **A citation has no reason against it exactly if its record backs a fact.** -/
theorem factBindingReasons_eq_nil {record : Option DeliveredRecord} :
    factBindingReasons eid claim.targetRefs claim.timeScopeRef record authorized scope = [] ↔
      ∃ r, record = some r ∧ Backs authorized scope claim eid r := by
  unfold factBindingReasons
  cases hrecord : record.filter DeliveredRecord.delivered with
  | none =>
    rw [Option.filter_eq_none_iff] at hrecord
    simp only [List.cons_ne_nil, false_iff, not_exists, not_and]
    exact fun r hr hbacks => hrecord r hr hbacks.delivered
  | some r =>
    obtain ⟨rfl, hdelivered⟩ := Option.filter_eq_some_iff.1 hrecord
    dsimp only
    split
    · next hid =>
      simp only [List.cons_ne_nil, Option.some.injEq, exists_eq_left', false_iff]
      exact fun hbacks => hid hbacks.evidenceId
    · next hid =>
      rw [not_not] at hid
      simp only [List.append_eq_nil_iff, ite_eq_nil, Option.some.injEq, exists_eq_left']
      constructor
      · rintro ⟨⟨⟨⟨hhash, hstatus⟩, htarget⟩, htime⟩, hwindow⟩
        simp only [not_or, not_exists, not_and, not_not, ne_eq, Bool.not_eq_true',
          Bool.not_eq_false] at hhash hstatus htarget htime
        obtain ⟨ref, href, hmem⟩ : ∃ ref, claim.timeScopeRef = some ref ∧ ref ∈ r.timeScopeRefs := by
          cases href : claim.timeScopeRef with
          | none => simp [href] at htime
          | some ref => exact ⟨ref, rfl, by simpa [href] using htime.1⟩
        rw [href, Option.bind_some] at htime hwindow
        obtain ⟨frame, hframe⟩ : ∃ frame, authorized ref = some frame := by
          cases hframe : authorized ref with
          | none => simp [hframe] at htime
          | some frame => exact ⟨frame, rfl⟩
        rw [hframe, Option.any_some, Bool.not_eq_true', Bool.not_eq_false, Option.any_eq_true]
          at hwindow
        obtain ⟨window, hsome, hcontains⟩ := hwindow
        exact ⟨hdelivered, hid, hhash, hstatus.1, hstatus.2, htarget.2.2,
          ⟨htarget.1, htarget.2.1⟩, ref, hmem, href, frame, window, hframe, hsome, hcontains⟩
      · rintro ⟨-, -, hhash, hstatus, hcitable, htarget, ⟨hrefs, hall⟩, ref, hmem, href, frame,
          window, hframe, hsome, hcontains⟩
        simp [hhash, hstatus, hcitable, htarget, hrefs, href, hmem, hframe, hsome, hcontains]
        exact fun x hx => (hall x hx).trans htarget

/-- A row that shows a span of the fault: an object with a span id that matches. -/
def shown (rule : SignatureRule) (window : Window) (row : Json) : Bool :=
  row.isObject ∧ spanMatches rule window row ∧ (row.get "span_id").text?.isSome

/-- A record that shows the signature of a fault: it has the rows of a trace search, and enough of
them, at least one, match. -/
def Shows (rule : SignatureRule) (record : DeliveredRecord) : Prop :=
  traceRowsView record.view = true ∧ ∃ window rows, record.window = some window ∧
    record.view.get "content" = .arr rows ∧
      max 1 rule.minMatches ≤ (rows.filter (shown rule window)).length

/-- The hits are the rows that match. -/
theorem length_spanHits {window : Window} {rows : List Json} {hits : List (Option String)}
    (h : rows.mapM (spanHit rule window) = .ok hits) :
    (hits.filterMap id).length = (rows.filter (shown rule window)).length := by
  induction mapM_eq_ok.1 h with
  | nil => rfl
  | @cons row hit rows rest hhit hrest ih =>
    replace ih := ih (mapM_eq_ok.2 hrest)
    have hshown : hit.isSome = shown rule window row := by
      unfold spanHit at hhit
      split at hhit
      · next hobject =>
        cases hhit
        simp [shown, hobject]
      · next hobject =>
        split at hhit
        · cases hhit
        · split at hhit <;> cases hhit <;> simp_all [shown]
    rw [List.filter_cons, ← hshown]
    cases hit with
    | none =>
      show (rest.filterMap id).length = _
      exact ih
    | some span =>
      show (rest.filterMap id).length + 1 = (rows.filter (shown rule window)).length + 1
      rw [ih]

/-- A record with hits shows the signature. -/
theorem signatureMatches_shows {record : DeliveredRecord} {spans : List String}
    (h : signatureMatches rule record = .ok spans) (hspans : spans ≠ []) : Shows rule record := by
  unfold signatureMatches at h
  split at h
  · next window rows hwindow hrows =>
    split at h
    · next hview =>
      obtain ⟨hits, hhits, h⟩ := bind_eq_ok.1 h
      rw [pure_eq_ok] at h
      subst h
      refine ⟨hview, window, rows, hwindow, hrows, ?_⟩
      rw [← length_spanHits hhits]
      split at hspans
      · next hmin => exact max_le (List.length_pos_iff.2 hspans) hmin
      · exact absurd rfl hspans
    · cases h
      exact absurd rfl hspans
  · cases h
    exact absurd rfl hspans

/-! ### Citations -/

omit [EvaluationTexts] in
theorem mem_citations {report : ReportV2} :
    (claim, eid) ∈ citations report ↔ claim ∈ report.claims ∧ eid ∈ claim.evidenceIds := by
  simp only [citations, List.mem_flatMap, List.mem_map, Prod.mk.injEq]
  constructor
  · rintro ⟨claim', hclaim, eid', heid, rfl, rfl⟩
    exact ⟨hclaim, heid⟩
  · rintro ⟨hclaim, heid⟩
    exact ⟨claim, hclaim, eid, heid, rfl, rfl⟩

omit [EvaluationTexts] in
theorem mem_citedIds {report : ReportV2} :
    eid ∈ citedIds report ↔ ∃ claim ∈ report.claims, eid ∈ claim.evidenceIds := by
  rw [citedIds, List.mem_eraseDups, List.mem_flatMap]

omit [EvaluationTexts] in
theorem citedIds_of_mem {report : ReportV2} (h : (claim, eid) ∈ citations report) :
    eid ∈ citedIds report := by
  rw [mem_citations] at h
  exact mem_citedIds.2 ⟨claim, h⟩

/-- Every citation of a fact-like claim, in a report without a reason against its citations, is of
a record of this Run that backs it. -/
theorem reportCitationReasons_eq_nil {report : ReportV2}
    (h : reportCitationReasons report delivered authorized scope = []) (hclaim : claim ∈ report.claims)
    (hfact : claim.kind.factLike = true) (heid : eid ∈ claim.evidenceIds) :
    eid ∈ scope.evidenceIds ∧
      ∃ record, delivered eid = some record ∧ Backs authorized scope claim eid record := by
  have hnone : citationReasons delivered authorized scope claim eid = [] := by
    refine List.eq_nil_iff_forall_not_mem.2 fun reason hreason => ?_
    have hmem : reason ∈ reportCitationReasons report delivered authorized scope :=
      List.mem_eraseDups.2 (List.mem_flatMap.2 ⟨_, mem_citations.2 ⟨hclaim, heid⟩, hreason⟩)
    rw [h] at hmem
    cases hmem
  unfold citationReasons at hnone
  split at hnone
  · cases hnone
  · next record hrecord =>
    obtain ⟨hfound, hdelivered⟩ := Option.filter_eq_some_iff.1 hrecord
    split at hnone
    · cases hnone
    · rw [List.append_eq_nil_iff, ite_eq_nil, not_not] at hnone
      obtain ⟨hscope, hreasons⟩ := hnone
      obtain ⟨r, hr, hbacks⟩ := factBindingReasons_eq_nil.1 hreasons
      cases hr
      exact ⟨hscope, record, hfound, hbacks⟩

/-- A hit: some claim cites the record as it would cite one for a fact, and the record shows the
signature. -/
structure Hit (report : ReportV2) (delivered : String → Option DeliveredRecord)
    (authorized : String → Option Window) (scope : RunScope) (rule : SignatureRule)
    (eid : String) : Prop where
  record : ∃ record, delivered eid = some record ∧ inScope eid (some record) scope = true ∧
    Shows rule record
  cited : eid ∈ citedIds report

theorem foldlM_addHits {report : ReportV2} {cites : List (ClaimV2 × String)}
    {hits found : List (String × List String)} (hcites : ∀ c ∈ cites, c ∈ citations report)
    (hhits : ∀ hit ∈ hits, Hit report delivered authorized scope rule hit.1)
    (h : cites.foldlM (addHits rule delivered authorized scope) hits = .ok found) :
    ∀ hit ∈ found, Hit report delivered authorized scope rule hit.1 := by
  induction cites generalizing hits with
  | nil =>
    cases h
    exact hhits
  | cons c cites ih =>
    rw [List.foldlM_cons] at h
    obtain ⟨hits', hadd, h⟩ := bind_eq_ok.1 h
    refine ih (fun c hc => hcites c (List.mem_cons_of_mem _ hc)) ?_ h
    obtain ⟨claim, eid⟩ := c
    unfold addHits at hadd
    dsimp only at hadd
    split at hadd
    · cases hadd
      exact hhits
    · next record hrecord =>
      split at hadd
      · cases hadd
        exact hhits
      · next hqualified =>
        obtain ⟨matched, hmatched, hadd⟩ := bind_eq_ok.1 hadd
        rw [pure_eq_ok] at hadd
        subst hadd
        split
        · exact hhits
        · next hne =>
          simp only [not_or, Bool.not_eq_true', Bool.not_eq_false, ne_eq, not_not] at hqualified
          intro hit hmem
          rw [List.mem_append, List.mem_singleton] at hmem
          rcases hmem with hmem | rfl
          · exact hhits hit hmem
          · exact ⟨⟨record, hrecord, hqualified.2.1, signatureMatches_shows hmatched hne⟩,
              citedIds_of_mem (hcites _ List.mem_cons_self)⟩

/-- Every hit of a report is one. -/
theorem reportSignatureMatches_hit {answer : AnyAnswer} {report : ReportV2}
    {found : List (String × List String)}
    (h : reportSignatureMatches answer (some report) delivered authorized scope = .ok found)
    {hit : String × List String} (hmem : hit ∈ found) :
    ∃ rule, answer.signature = some rule ∧
      Hit report delivered authorized scope rule hit.1 := by
  unfold reportSignatureMatches at h
  split at h
  · next rule report' hrule hreport =>
    cases hreport
    refine ⟨rule, hrule, foldlM_addHits (fun c hc => hc) ?_ h hit hmem⟩
    intro hit' hnil
    cases hnil
  · cases h
    cases hmem

/-! ### What the gate reads -/

/-- The reasons against the citations read the records of the cited ids alone. -/
theorem reportCitationReasons_congr {report : ReportV2}
    (h : ∀ eid ∈ citedIds report, delivered' eid = delivered eid) :
    reportCitationReasons report delivered' authorized scope =
      reportCitationReasons report delivered authorized scope := by
  unfold reportCitationReasons
  congr 1
  refine List.flatMap_congr fun c hc => ?_
  simp only [citationReasons, h c.2 (citedIds_of_mem hc)]

omit [EvaluationTexts] in
/-- A fold that takes the same steps has the same result. -/
theorem foldlM_congr {m : Type → Type} [Monad m] {α β : Type} {f g : β → α → m β} {l : List α}
    (h : ∀ b, ∀ a ∈ l, f b a = g b a) (b : β) : l.foldlM f b = l.foldlM g b := by
  induction l generalizing b with
  | nil => rfl
  | cons a l ih =>
    rw [List.foldlM_cons, List.foldlM_cons, h b a List.mem_cons_self]
    congr 1
    funext b'
    exact ih (fun b a ha => h b a (List.mem_cons_of_mem _ ha)) b'

/-- So do the signature hits. -/
theorem reportSignatureMatches_congr {answer : AnyAnswer} {report : Option ReportV2}
    (h : ∀ r ∈ report, ∀ eid ∈ citedIds r, delivered' eid = delivered eid) :
    reportSignatureMatches answer report delivered' authorized scope =
      reportSignatureMatches answer report delivered authorized scope := by
  unfold reportSignatureMatches
  cases answer.signature with
  | none => rfl
  | some rule =>
    cases report with
    | none => rfl
    | some r =>
      refine foldlM_congr (fun hits c hc => ?_) []
      simp only [addHits, h r rfl c.2 (citedIds_of_mem hc)]

variable {spec : AnyScenarioSpec} {answer : AnyAnswer} {outcome : Option IncidentOutcome}
  {report : Option ReportCapture} {gate : GateResult}

/-- A gate that passes has a complete report without a reason against its citations. -/
theorem runGate_passed (h : runGate spec answer outcome report delivered authorized = .ok gate)
    (hpassed : gate.passed = true) :
    ∃ parsed, parsedReport report = some parsed ∧ executionOk outcome = true ∧
      parsed.assessmentStatus = .completed ∧
      reportCitationReasons parsed delivered authorized (runScope spec outcome) = [] := by
  unfold runGate at h
  obtain ⟨⟨citations, signature, reasons⟩, hbound, h⟩ := bind_eq_ok.1 h
  rw [pure_eq_ok] at h
  subst h
  simp only [Bool.and_eq_true] at hpassed
  obtain ⟨⟨⟨⟨hexecution, hreport⟩, -⟩, rfl⟩, -⟩ := hpassed
  cases hparsed : parsedReport report with
  | none =>
    rw [hparsed] at hreport
    cases hreport
  | some parsed =>
    rw [hparsed] at hreport hbound
    refine ⟨parsed, rfl, hexecution, ?_, ?_⟩
    · by_contra hstatus
      rw [reportReasons, if_pos hstatus] at hreport
      cases hreport
    · unfold bindingChecks at hbound
      cases hsignature : signatureCheck spec answer parsed delivered authorized
          (runScope spec outcome) with
      | error e =>
        simp only [hsignature, Except.map] at hbound
        cases hbound
      | ok shown =>
        simp only [hsignature, Except.map, Except.ok.injEq, Prod.mk.injEq,
          List.isEmpty_iff] at hbound
        exact hbound.1

/-- The gate reads the records of the cited ids alone. -/
theorem runGate_congr
    (h : ∀ r ∈ parsedReport report, ∀ eid ∈ citedIds r, delivered' eid = delivered eid) :
    runGate spec answer outcome report delivered' authorized =
      runGate spec answer outcome report delivered authorized := by
  have hbound : bindingChecks spec answer (parsedReport report) delivered' authorized
      (runScope spec outcome) = bindingChecks spec answer (parsedReport report) delivered
        authorized (runScope spec outcome) := by
    cases hparsed : parsedReport report with
    | none => rfl
    | some parsed =>
      have hhits : ∀ r ∈ some parsed, ∀ eid ∈ citedIds r, delivered' eid = delivered eid :=
        fun r hr => h r (hparsed ▸ hr)
      simp only [bindingChecks, signatureCheck, reportSignatureMatches_congr hhits,
        reportCitationReasons_congr (hhits parsed rfl)]
  rw [runGate, runGate, hbound]

end

end OpsPilot
