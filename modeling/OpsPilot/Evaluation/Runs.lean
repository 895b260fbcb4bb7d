import OpsPilot.Evaluation.Gate

/-!
# The evaluation of a run

`evaluate` (`opspilot/evaluation/runs.py`): one attempt is judged by the deterministic gate, by the
traces read back for it, and by a judge that says which statements of the report are factual causal
diagnoses. The judge is not trusted: its locations, quotes and citations are checked against the
report, its verdict is computed again, and what it cites is held to the rules for facts.

* `Located`: what the checks of its output say of a diagnosis (`judgeOutputReasons_eq_nil`).
* **`evaluation_earned`**: what a passing evaluation shows, whatever the judge returned, and that
  no evaluation reads a record the report does not cite.
-/

namespace OpsPilot

/-! ## The records of a run -/

/-- `AttemptStatus`. -/
inductive AttemptStatus
  | ran | setupFailed | aborted | unknown
  deriving DecidableEq

/-- `AttemptRecord`. -/
structure AttemptRecord where
  scenarioId : String
  scenarioVersion : String
  started : Bool
  status : AttemptStatus
  replayMiss : Bool
  productRunId : Option String

/-- `TraceReadBack`. -/
inductive TraceReadBack
  | found | rootRunNotFound | noTraceId | notExported | error
  deriving DecidableEq

/-- `TraceEntry`. -/
structure TraceEntry where
  required : Bool
  readBack : TraceReadBack
  runId : Option String
  expectedRunId : Option String
  productRunId : Option String := none

/-- `JudgedDiagnosis`. -/
structure JudgedDiagnosis where
  location : String
  quote : String
  factualCausal : Bool
  service : Option String
  operation : Option String
  citedEvidenceIds : List String
  linkedClaim : Option ℤ
  supported : Bool

/-- `JudgeStatus`. -/
inductive JudgeStatus
  | ok | error | timeout | invalid | oversize
  deriving DecidableEq

/-- `JudgeResult`. -/
structure JudgeResult where
  status : JudgeStatus
  calibrated : Bool
  diagnoses : List JudgedDiagnosis
  verdict : Option Bool
  configHash : String
  calibrationHash : String

/-- The `judge_status` of an evaluation. -/
inductive JudgedStatus
  | ok | error | timeout | invalid | oversize | uncalibrated | skipped | notRun
  deriving DecidableEq

/-- The status of a judge, as an evaluation keeps it. -/
def JudgeStatus.judged : JudgeStatus → JudgedStatus
  | ok => .ok
  | error => .error
  | timeout => .timeout
  | invalid => .invalid
  | oversize => .oversize

/-- `f"JUDGE_{status.upper()}"`. -/
def JudgeStatus.reason : JudgeStatus → String
  | ok => "JUDGE_OK"
  | error => "JUDGE_ERROR"
  | timeout => "JUDGE_TIMEOUT"
  | invalid => "JUDGE_INVALID"
  | oversize => "JUDGE_OVERSIZE"

/-- `FailureClass`. -/
inductive FailureClass
  | setup | replayMiss | execution | deterministicGate | judgeError | diagnosis
  | evidenceIncomplete
  deriving DecidableEq

/-- `FAILURE_PRIORITY`. -/
def failurePriority : List FailureClass :=
  [.setup, .replayMiss, .execution, .deterministicGate, .judgeError, .diagnosis,
    .evidenceIncomplete]

/-- `RunEvaluation`. -/
structure RunEvaluation where
  attempt : AttemptRecord
  gate : GateResult
  signatureMatches : List (String × List String)
  judgeStatus : JudgedStatus
  diagnosisPass : Option Bool
  evidenceComplete : Bool
  deterministicPass : Bool
  judgePass : Bool
  overall : Bool
  failureClass : Option FailureClass
  failureReasons : List String
  judgeConfigHash : Option String
  judgeCalibrationHash : Option String

/-! ## Where a diagnosis stands -/

/-- Every run of white space as one blank. -/
def collapse : List Char → List Char
  | [] => []
  | c :: text =>
    if isSpace c then
      if (text.head?.any isSpace) then collapse text else ' ' :: collapse text
    else c :: collapse text

/-- `_squash`. -/
def squash (text : String) : List Char := strip (collapse text.toList)

/-- The lists a location may point into. -/
inductive ReportField
  | claims | gaps | nextSteps
  deriving DecidableEq

/-- The name of a list. -/
def ReportField.name : ReportField → String
  | claims => "claims"
  | gaps => "gaps"
  | nextSteps => "next_steps"

/-- What `_LOCATION` matches: the summary, or an item of a list by the digits of its index. -/
inductive Location
  | summary
  | item (field : ReportField) (digits : List ℕ)

section

variable [EvaluationTexts]

/-- The digits of `name[digits]`. -/
def indexDigits (name : String) (text : List Char) : Option (List ℕ) := do
  let rest ← (name.toList ++ ['[']).isPrefixOf? text
  if rest.getLast? = some ']' ∧ rest.dropLast ≠ [] then rest.dropLast.mapM EvaluationTexts.digit
  else none

/-- `_LOCATION.match(location)`: a newline may follow the match. -/
def Location.ofText? (location : String) : Option Location :=
  let text := location.toList
  let text := if text.getLast? = some '\n' then text.dropLast else text
  if text = "summary".toList then some .summary
  else [ReportField.claims, .gaps, .nextSteps].findSome? fun field =>
    (indexDigits field.name text).map (.item field)

/-- `int(digits)`. -/
def intOfDigits (digits : List ℕ) : Except EvaluationError ℕ :=
  if 4300 < digits.length then .error .tooManyDigits
  else .ok (digits.foldl (fun n d => 10 * n + d) 0)

/-- `_location_text`: the text at a location and, for a claim, its index. -/
def locationText (report : ReportV2) (location : String) :
    Except EvaluationError (Option (String × Option ℕ)) :=
  match Location.ofText? location with
  | none => .ok none
  | some .summary => .ok (some (report.summary, none))
  | some (.item field digits) => (intOfDigits digits).map fun index =>
    match field with
    | .claims => report.claims[index]?.map fun claim => (claim.text, some index)
    | .gaps => report.gaps[index]?.map fun text => (text, none)
    | .nextSteps => report.nextSteps[index]?.map fun text => (text, none)

/-- The evidence ids a located diagnosis may cite: those of the claim it stands in or is linked to. -/
def allowedIds (report : ReportV2) (claimIndex : Option ℕ) (linkedClaim : Option ℤ) :
    Option (List String) :=
  match claimIndex, linkedClaim with
  | some index, _ => report.claims[index]?.map ClaimV2.evidenceIds
  | none, none => some []
  | none, some linked =>
    if 0 ≤ linked then report.claims[linked.toNat]?.map ClaimV2.evidenceIds else none

/-- Why the output of a judge on one statement is refused. -/
def diagnosisReasons (report : ReportV2) (d : JudgedDiagnosis) :
    Except EvaluationError (List String) :=
  (locationText report d.location).map fun located =>
    match located with
    | none => ["JUDGE_BAD_LOCATION"]
    | some (text, claimIndex) =>
      (if squash d.quote = [] ∨ ¬ squash d.quote <:+: squash text then
        ["JUDGE_QUOTE_NOT_FOUND"] else []) ++
      (if (allowedIds report claimIndex d.linkedClaim).any fun allowed =>
          d.citedEvidenceIds.all (· ∈ allowed) then [] else ["JUDGE_CITATION_NOT_IN_CLAIM"])

/-- `_judge_output_reasons`. -/
def judgeOutputReasons (report : ReportV2) (judge : JudgeResult) :
    Except EvaluationError (List String) := do
  let reasons ← judge.diagnoses.mapM (diagnosisReasons report)
  pure reasons.flatten.eraseDups

/-! ## The diagnoses -/

/-- `_names`: the value is the name or one of its aliases, in any case. -/
def names (value : Option String) (canonical : String) (aliases : List String) : Bool :=
  value.any fun text => EvaluationTexts.casefold (String.ofList (strip text.toList)) ∈
    (canonical :: aliases).map EvaluationTexts.casefold

/-- A diagnosis names the injected fault and cites a hit. -/
def diagnoses (injected : InjectedFault) (hits : List (String × List String))
    (d : JudgedDiagnosis) : Bool :=
  names d.service injected.service injected.serviceAliases ∧
    names d.operation injected.operation injected.operationAliases ∧ d.supported ∧
    d.citedEvidenceIds.any fun eid => hits.any (·.1 = eid)

/-- `_diagnosis_pass`. -/
def diagnosisPass (spec : AnyScenarioSpec) (answer : AnyAnswer) (judged : List JudgedDiagnosis)
    (hits : List (String × List String)) : Bool :=
  let causal := judged.filter JudgedDiagnosis.factualCausal
  if isFaultScenario spec answer then
    answer.injectedFault.any fun injected => causal ≠ [] ∧ causal.all (diagnoses injected hits)
  else causal.isEmpty

/-- `_anchor_claim`: the index of the claim whose refs a diagnosis's citations rest on. -/
def anchorClaim (report : ReportV2) (d : JudgedDiagnosis) : Except EvaluationError (Option ℤ) :=
  (locationText report d.location).map fun located =>
    match located with
    | some (_, some index) => some index
    | _ => d.linkedClaim

/-- `report.claims[index]`: a negative index counts from the end. -/
def claimAt (report : ReportV2) (index : ℤ) : Except EvaluationError ClaimV2 :=
  let position := if 0 ≤ index then index else report.claims.length + index
  if 0 ≤ position then require report.claims[position.toNat]? .indexError else .error .indexError

/-- The claim a diagnosis's citations rest on, if there is one. -/
def anchoredClaim (report : ReportV2) (d : JudgedDiagnosis) :
    Except EvaluationError (Option ClaimV2) :=
  anchorClaim report d >>= fun index =>
    match index with
    | some index => (claimAt report index).map some
    | none => .ok none

/-- A citation that cannot back a fact of the claim. -/
def unqualified (claim : Option ClaimV2) (delivered : String → Option DeliveredRecord)
    (authorized : String → Option Window) (scope : RunScope) (eid : String) : Bool :=
  match claim with
  | none => true
  | some claim => !inScope eid (delivered eid) scope ∨
      factBindingReasons eid claim.targetRefs claim.timeScopeRef (delivered eid) authorized
        scope ≠ []

/-- `_unqualified_diagnoses`: some factual causal diagnosis cites what cannot back a fact. -/
def unqualifiedDiagnoses (report : ReportV2) (delivered : String → Option DeliveredRecord)
    (authorized : String → Option Window) (scope : RunScope) :
    List JudgedDiagnosis → Except EvaluationError Bool
  | [] => .ok false
  | d :: rest =>
    if d.factualCausal then do
      let claim ← anchoredClaim report d
      if d.citedEvidenceIds.any (unqualified claim delivered authorized scope) then .ok true
      else unqualifiedDiagnoses report delivered authorized scope rest
    else unqualifiedDiagnoses report delivered authorized scope rest

/-! ## The evaluation -/

/-- `_evidence_complete`. -/
def evidenceComplete (traces : List TraceEntry) (attempt : AttemptRecord) : Bool :=
  let required := traces.filter TraceEntry.required
  ¬ (attempt.status = .ran ∧ attempt.productRunId = none) ∧ required ≠ [] ∧
    ∀ entry ∈ required, entry.readBack = .found ∧ entry.runId ≠ none ∧
      entry.runId = entry.expectedRunId ∧ entry.productRunId = attempt.productRunId

/-- What the evaluation makes of the judge's result. -/
structure Judgement where
  status : JudgedStatus
  pass : Option Bool := none
  classes : List FailureClass := []
  reasons : List String := []

/-- The judgement on the diagnoses of a calibrated judge. -/
def judgeDiagnoses (spec : AnyScenarioSpec) (answer : AnyAnswer) (report : ReportV2)
    (hits : List (String × List String)) (delivered : String → Option DeliveredRecord)
    (authorized : String → Option Window) (scope : RunScope) (judge : JudgeResult) :
    Except EvaluationError Judgement := do
  let outputReasons ← judgeOutputReasons report judge
  let recomputed := diagnosisPass spec answer judge.diagnoses hits
  let outputReasons := outputReasons ++
    if judge.verdict ≠ some recomputed then ["JUDGE_VERDICT_MISMATCH"] else []
  if outputReasons ≠ [] then pure { status := .invalid, reasons := outputReasons }
  else do
    let unqualified ← unqualifiedDiagnoses report delivered authorized scope judge.diagnoses
    pure {
      status := .ok
      pass := some (recomputed && !unqualified)
      classes := if unqualified || !recomputed then [.diagnosis] else []
      reasons := (if unqualified then ["DIAGNOSIS_EVIDENCE_UNQUALIFIED"] else []) ++
        if recomputed then [] else ["DIAGNOSIS_FAILED"] }

/-- The judgement on what the judge returned, if it was run. -/
def judgement (spec : AnyScenarioSpec) (answer : AnyAnswer) (gate : GateResult)
    (report : Option ReportV2) (hits : List (String × List String))
    (delivered : String → Option DeliveredRecord) (authorized : String → Option Window)
    (scope : RunScope) (judge : Option JudgeResult) : Except EvaluationError Judgement :=
  match judge with
  | none => .ok (if gate.passed then { status := .notRun, reasons := ["JUDGE_NOT_RUN"] }
      else { status := .skipped })
  | some judge =>
    if judge.status ≠ .ok then
      .ok { status := judge.status.judged, reasons := [judge.status.reason] }
    else if !judge.calibrated then
      .ok { status := .uncalibrated, reasons := ["JUDGE_UNCALIBRATED"] }
    else match report with
    | none => .ok { status := .invalid, reasons := ["JUDGE_BAD_LOCATION"] }
    | some report => judgeDiagnoses spec answer report hits delivered authorized scope judge

/-- The class and the reason of an attempt that did not run. -/
def attemptReasons : AttemptStatus → List String
  | .ran => []
  | .setupFailed => ["SETUP_FAILED"]
  | .aborted => ["ATTEMPT_ABORTED"]
  | .unknown => ["ATTEMPT_UNKNOWN"]

/-- The classes of an evaluation, with its reasons. -/
def failures (attempt : AttemptRecord) (gate : GateResult) (judged : Judgement)
    (evidence : Bool) : List FailureClass × List String :=
  ((if attempt.status ≠ .ran then [.setup] else []) ++
      (if attempt.replayMiss then [.replayMiss] else []) ++
      (gate.reasons.map fun code =>
        if code = "EXECUTION_NOT_COMPLETED" then .execution else .deterministicGate) ++
      judged.classes ++
      (if judged.status ≠ .ok ∧ judged.status ≠ .skipped then [.judgeError] else []) ++
      (if evidence then [] else [.evidenceIncomplete]),
    (attemptReasons attempt.status ++ (if attempt.replayMiss then ["REPLAY_MISS"] else []) ++
      gate.reasons ++ judged.reasons ++
      (if evidence then [] else ["EVIDENCE_INCOMPLETE"])).eraseDups)

/-- `evaluate`. -/
def evaluate (spec : AnyScenarioSpec) (answer : AnyAnswer) (attempt : AttemptRecord)
    (outcome : Option IncidentOutcome) (report : Option ReportCapture)
    (delivered : String → Option DeliveredRecord) (authorized : String → Option Window)
    (traces : List TraceEntry) (judge : Option JudgeResult) :
    Except EvaluationError RunEvaluation := do
  refuse (attempt.started = false) .attemptNotStarted
  refuse ((attempt.scenarioId, attempt.scenarioVersion) ≠ (spec.scenarioId, spec.version) ∨
    answer.identity ≠ (spec.scenarioId, spec.version) ∨
    ∃ o ∈ outcome, o.scenarioId ≠ spec.scenarioId) .scenarioMismatch
  let gate ← runGate spec answer outcome report delivered authorized
  let parsed := parsedReport report
  let scope := runScope spec outcome
  let hits ← reportSignatureMatches answer parsed delivered authorized scope
  let judged ← judgement spec answer gate parsed hits delivered authorized scope judge
  let evidence := evidenceComplete traces attempt
  let deterministicPass := attempt.status = .ran ∧ attempt.replayMiss = false ∧ gate.passed ∧ evidence
  let judgePass := judged.status = .ok ∧ judged.pass = some true
  let (classes, reasons) := failures attempt gate judged evidence
  pure {
    attempt, gate
    signatureMatches := hits
    judgeStatus := judged.status
    diagnosisPass := judged.pass
    evidenceComplete := evidence
    deterministicPass, judgePass
    overall := deterministicPass ∧ judgePass
    failureClass := if deterministicPass ∧ judgePass then none
      else some ((failurePriority.find? (· ∈ classes)).getD .judgeError)
    failureReasons := reasons
    judgeConfigHash := judge.map JudgeResult.configHash
    judgeCalibrationHash := judge.map JudgeResult.calibrationHash }

/-! ## What the checks of the judge say -/

variable {report : ReportV2} {judge : JudgeResult} {d : JudgedDiagnosis} {claim : ClaimV2}
  {delivered delivered' : String → Option DeliveredRecord} {authorized : String → Option Window}
  {scope : RunScope} {hits : List (String × List String)}

/-- A diagnosis stands somewhere in the report, and cites ids it may cite there. -/
structure Located (report : ReportV2) (d : JudgedDiagnosis) (index : Option ℕ)
    (allowed : List String) : Prop where
  location : ∃ text, locationText report d.location = .ok (some (text, index)) ∧
    squash d.quote <:+: squash text
  allows : allowedIds report index d.linkedClaim = some allowed
  cited : ∀ eid ∈ d.citedEvidenceIds, eid ∈ allowed

/-- **Without a reason against the judge's output every diagnosis is located.** -/
theorem judgeOutputReasons_eq_nil (h : judgeOutputReasons report judge = .ok [])
    (hd : d ∈ judge.diagnoses) : ∃ index allowed, Located report d index allowed := by
  obtain ⟨results, hresults, h⟩ := bind_eq_ok.1 h
  rw [pure_eq_ok] at h
  obtain ⟨reasons, hmem, hreasons⟩ := exists_of_mem_left (mapM_eq_ok.1 hresults) hd
  have hnil : reasons = [] := by
    refine List.eq_nil_iff_forall_not_mem.2 fun reason hreason => ?_
    have hall : reason ∈ results.flatten.eraseDups :=
      List.mem_eraseDups.2 (List.mem_flatten.2 ⟨reasons, hmem, hreason⟩)
    rw [h] at hall
    cases hall
  subst hnil
  unfold diagnosisReasons at hreasons
  cases hlocation : locationText report d.location with
  | error e =>
    rw [hlocation] at hreasons
    cases hreasons
  | ok located =>
    rw [hlocation] at hreasons
    cases located with
    | none => cases hreasons
    | some place =>
      obtain ⟨text, index⟩ := place
      simp only [Except.map, Except.ok.injEq, List.append_eq_nil_iff, ite_eq_nil, not_or,
        not_not] at hreasons
      obtain ⟨⟨-, hquote⟩, hcited⟩ := hreasons
      cases hallowed : allowedIds report index d.linkedClaim with
      | none => simp [hallowed] at hcited
      | some allowed =>
        refine ⟨index, allowed, ⟨text, hlocation, hquote⟩, hallowed, ?_⟩
        simpa [hallowed] using hcited

/-- The ids a diagnosis may cite are cited by the report. -/
theorem Located.citedIds {index : Option ℕ} {allowed : List String}
    (h : Located report d index allowed) {eid : String} (heid : eid ∈ d.citedEvidenceIds) :
    eid ∈ citedIds report := by
  have hmem := h.cited eid heid
  have hallowed := h.allows
  unfold allowedIds at hallowed
  split at hallowed
  · obtain ⟨claim, hclaim, rfl⟩ := Option.map_eq_some_iff.1 hallowed
    exact mem_citedIds.2 ⟨claim, List.mem_of_getElem? hclaim, hmem⟩
  · obtain rfl := Option.some.inj hallowed
    cases hmem
  · split at hallowed
    · obtain ⟨claim, hclaim, rfl⟩ := Option.map_eq_some_iff.1 hallowed
      exact mem_citedIds.2 ⟨claim, List.mem_of_getElem? hclaim, hmem⟩
    · cases hallowed

/-- The claim of a diagnosis: the one it stands in, or else the one it is linked to. -/
def OwnClaim (report : ReportV2) (d : JudgedDiagnosis) (claim : ClaimV2) : Prop :=
  ∃ text index, locationText report d.location = .ok (some (text, index)) ∧
    ∃ position : ℕ, (index = some position ∨ index = none ∧ d.linkedClaim = some (position : ℤ)) ∧
      report.claims[position]? = some claim

/-- A located diagnosis that cites something has a claim of its own, and its citations rest on
it. -/
theorem Located.ownClaim {index : Option ℕ} {allowed : List String}
    (h : Located report d index allowed) {eid : String} (heid : eid ∈ d.citedEvidenceIds) :
    ∃ claim, OwnClaim report d claim ∧ allowed = claim.evidenceIds ∧
      anchoredClaim report d = .ok (some claim) := by
  obtain ⟨⟨text, hlocation, -⟩, hallowed, hcited⟩ := h
  have hmem := hcited eid heid
  -- a claim found at a position is the one Python finds there
  have hfound : ∀ {position : ℕ} {claim : ClaimV2}, report.claims[position]? = some claim →
      claimAt report position = .ok claim := by
    intro position claim hclaim
    simp [claimAt, hclaim, require]
  cases index with
  | some position =>
    obtain ⟨claim, hclaim, rfl⟩ := Option.map_eq_some_iff.1 hallowed
    refine ⟨claim, ⟨text, _, hlocation, position, .inl rfl, hclaim⟩, rfl, ?_⟩
    simp [anchoredClaim, anchorClaim, hlocation, Except.map, bind, Except.bind, hfound hclaim]
  | none =>
    cases hlinked : d.linkedClaim with
    | none =>
      rw [hlinked] at hallowed
      obtain rfl := Option.some.inj hallowed
      cases hmem
    | some linked =>
      rw [hlinked, allowedIds] at hallowed
      split at hallowed
      · next hpos =>
        obtain ⟨claim, hclaim, rfl⟩ := Option.map_eq_some_iff.1 hallowed
        have hcast : ((linked.toNat : ℕ) : ℤ) = linked := Int.toNat_of_nonneg hpos
        have hat := hfound hclaim
        rw [hcast] at hat
        refine ⟨claim, ⟨text, _, hlocation, linked.toNat, .inr ⟨rfl, ?_⟩, hclaim⟩, rfl, ?_⟩
        · rw [hlinked, hcast]
        · simp [anchoredClaim, anchorClaim, hlocation, Except.map, bind, Except.bind, hlinked, hat]
      · cases hallowed

/-- Without an unqualified one, every causal diagnosis cites records that back a fact of the claim
its citations rest on. -/
theorem unqualifiedDiagnoses_false {judged : List JudgedDiagnosis}
    (h : unqualifiedDiagnoses report delivered authorized scope judged = .ok false)
    (hd : d ∈ judged) (hcausal : d.factualCausal = true)
    (hanchor : anchoredClaim report d = .ok (some claim)) {eid : String}
    (heid : eid ∈ d.citedEvidenceIds) :
    eid ∈ scope.evidenceIds ∧
      ∃ record, delivered eid = some record ∧ Backs authorized scope claim eid record := by
  induction judged with
  | nil => cases hd
  | cons first rest ih =>
    unfold unqualifiedDiagnoses at h
    rcases List.mem_cons.1 hd with rfl | hd
    · rw [if_pos hcausal, hanchor] at h
      simp only [bind, Except.bind] at h
      split at h
      · cases h
      · next hnone =>
        rw [List.any_eq_true, not_exists] at hnone
        have hqualified := fun hun => hnone eid ⟨heid, hun⟩
        simp only [unqualified, decide_eq_true_eq, not_or, Bool.not_eq_true', Bool.not_eq_false,
          ne_eq, not_not, imp_false] at hqualified
        obtain ⟨hscope, hreasons⟩ := hqualified
        obtain ⟨record, hrecord, hbacks⟩ := factBindingReasons_eq_nil.1 hreasons
        rw [hrecord, inScope, Option.any_some, decide_eq_true_eq] at hscope
        exact ⟨hscope.2.2.1, record, hrecord, hbacks⟩
    · split at h
      · obtain ⟨found, -, h⟩ := bind_eq_ok.1 h
        split at h
        · cases h
        · exact ih h hd
      · exact ih h hd

variable {spec : AnyScenarioSpec} {answer : AnyAnswer} {attempt : AttemptRecord}
  {outcome : Option IncidentOutcome} {capture : Option ReportCapture} {traces : List TraceEntry}
  {result : Option JudgeResult} {gate : GateResult} {judged : Judgement}

/-- A judge passes the report only with output that is located, with the recomputed verdict, and
without an unqualified citation. -/
theorem judgement_pass {parsed : Option ReportV2}
    (h : judgement spec answer gate parsed hits delivered authorized scope result = .ok judged)
    (hpass : judged.pass = some true) :
    ∃ judge report, result = some judge ∧ parsed = some report ∧
      judgeOutputReasons report judge = .ok [] ∧
      diagnosisPass spec answer judge.diagnoses hits = true ∧
      unqualifiedDiagnoses report delivered authorized scope judge.diagnoses = .ok false := by
  unfold judgement at h
  split at h
  · split at h <;> cases h <;> cases hpass
  · next judge =>
    split at h
    · cases h
      cases hpass
    · split at h
      · cases h
        cases hpass
      · split at h
        · cases h
          cases hpass
        · next report =>
          obtain ⟨reasons, hreasons, h⟩ := bind_eq_ok.1 h
          dsimp only at h
          generalize hout : reasons ++ _ = output at h
          split at h
          · rw [pure_eq_ok] at h
            subst h
            cases hpass
          · next hnone =>
            rw [ne_eq, not_not] at hnone
            obtain ⟨rfl, -⟩ := List.append_eq_nil_iff.1 (hout.trans hnone)
            obtain ⟨unqualified, hunqualified, h⟩ := bind_eq_ok.1 h
            rw [pure_eq_ok] at h
            subst h
            simp only [Option.some.injEq, Bool.and_eq_true, Bool.not_eq_true'] at hpass
            obtain ⟨hrecomputed, rfl⟩ := hpass
            exact ⟨judge, report, rfl, rfl, hreasons, hrecomputed, hunqualified⟩

/-- The parts of an evaluation, and what an overall pass asks of them. -/
theorem evaluate_ok {e : RunEvaluation}
    (h : evaluate spec answer attempt outcome capture delivered authorized traces result = .ok e) :
    ∃ gate judged, runGate spec answer outcome capture delivered authorized = .ok gate ∧
      reportSignatureMatches answer (parsedReport capture) delivered authorized
        (runScope spec outcome) = .ok e.signatureMatches ∧
      judgement spec answer gate (parsedReport capture) e.signatureMatches delivered authorized
        (runScope spec outcome) result = .ok judged ∧
      (e.overall = true ↔ (attempt.status = .ran ∧ attempt.replayMiss = false ∧
        gate.passed = true ∧ evidenceComplete traces attempt = true) ∧
          judged.status = .ok ∧ judged.pass = some true) := by
  simp only [evaluate, refuse_bind_eq_ok] at h
  obtain ⟨-, -, h⟩ := h
  obtain ⟨gate, hgate, h⟩ := bind_eq_ok.1 h
  obtain ⟨hits, hhits, h⟩ := bind_eq_ok.1 h
  obtain ⟨judged, hjudged, h⟩ := bind_eq_ok.1 h
  rw [pure_eq_ok] at h
  subst h
  exact ⟨gate, judged, hgate, hhits, hjudged, by simp only [decide_eq_true_eq]⟩

/-- What a causal diagnosis of a fault shows: it names the injected service and operation, and
cites, among the ids of its own claim, a record that backs a fact of that claim and shows the
signature. -/
structure Diagnosed (report : ReportV2) (delivered : String → Option DeliveredRecord)
    (authorized : String → Option Window) (scope : RunScope) (injected : InjectedFault)
    (rule : SignatureRule) (d : JudgedDiagnosis) : Prop where
  service : names d.service injected.service injected.serviceAliases = true
  operation : names d.operation injected.operation injected.operationAliases = true
  evidence : ∃ claim eid record, OwnClaim report d claim ∧ eid ∈ claim.evidenceIds ∧
    eid ∈ d.citedEvidenceIds ∧ eid ∈ scope.evidenceIds ∧ delivered eid = some record ∧
      Backs authorized scope claim eid record ∧ Shows rule record

/-- A fault that passes was diagnosed, and every causal diagnosis shows it. -/
theorem diagnosed_of_pass {found : List (String × List String)}
    (hhits : reportSignatureMatches answer (some report) delivered authorized scope = .ok found)
    (houtput : judgeOutputReasons report judge = .ok [])
    (hpass : diagnosisPass spec answer judge.diagnoses found = true)
    (hqualified : unqualifiedDiagnoses report delivered authorized scope judge.diagnoses =
      .ok false) (hfault : isFaultScenario spec answer = true) :
    ∃ injected rule, answer.injectedFault = some injected ∧ answer.signature = some rule ∧
      (∃ d ∈ judge.diagnoses, d.factualCausal = true) ∧
      ∀ d ∈ judge.diagnoses, d.factualCausal = true →
        Diagnosed report delivered authorized scope injected rule d := by
  rw [diagnosisPass, if_pos hfault, Option.any_eq_true] at hpass
  obtain ⟨injected, hinjected, hpass⟩ := hpass
  rw [decide_eq_true_eq] at hpass
  obtain ⟨hsome, hall⟩ := hpass
  obtain ⟨d₀, hd₀⟩ := List.exists_mem_of_ne_nil _ hsome
  rw [List.mem_filter] at hd₀
  -- what one causal diagnosis cites: a hit of the report, out of its own claim
  have hevery : ∀ d ∈ judge.diagnoses, d.factualCausal = true → ∃ rule,
      answer.signature = some rule ∧ Diagnosed report delivered authorized scope injected rule d := by
    intro d hd hcausal
    have hdiagnoses := List.all_eq_true.1 hall d (List.mem_filter.2 ⟨hd, hcausal⟩)
    simp only [diagnoses, decide_eq_true_eq, List.any_eq_true] at hdiagnoses
    obtain ⟨hservice, hoperation, -, eid, heid, hit, hit_mem, rfl⟩ := hdiagnoses
    obtain ⟨rule, hrule, hhit⟩ := reportSignatureMatches_hit hhits hit_mem
    obtain ⟨index, allowed, hlocated⟩ := judgeOutputReasons_eq_nil houtput hd
    obtain ⟨claim, hown, rfl, hanchored⟩ := hlocated.ownClaim heid
    obtain ⟨hscope, record, hrecord, hbacks⟩ :=
      unqualifiedDiagnoses_false hqualified hd hcausal hanchored heid
    obtain ⟨record', hrecord', -, hshows⟩ := hhit.record
    obtain rfl := Option.some.inj (hrecord.symm.trans hrecord')
    exact ⟨rule, hrule, hservice, hoperation, claim, hit.1, record, hown, hlocated.cited _ heid,
      heid, hscope, hrecord, hbacks, hshows⟩
  obtain ⟨rule, hrule, -⟩ := hevery d₀ hd₀.1 hd₀.2
  refine ⟨injected, rule, hinjected, hrule, ⟨d₀, hd₀⟩, fun d hd hcausal => ?_⟩
  obtain ⟨rule', hrule', hdiagnosed⟩ := hevery d hd hcausal
  obtain rfl := Option.some.inj (hrule.symm.trans hrule')
  exact hdiagnosed

/-- The unqualified citations read the records of the cited ids alone. -/
theorem unqualifiedDiagnoses_congr {judged : List JudgedDiagnosis}
    (h : ∀ d ∈ judged, ∀ eid ∈ d.citedEvidenceIds, delivered' eid = delivered eid) :
    unqualifiedDiagnoses report delivered' authorized scope judged =
      unqualifiedDiagnoses report delivered authorized scope judged := by
  induction judged with
  | nil => rfl
  | cons first rest ih =>
    rw [unqualifiedDiagnoses, unqualifiedDiagnoses,
      ih fun d hd => h d (List.mem_cons_of_mem _ hd)]
    have hfirst : ∀ claim, first.citedEvidenceIds.any (unqualified claim delivered' authorized
        scope) = first.citedEvidenceIds.any (unqualified claim delivered authorized scope) := by
      intro claim
      rw [Bool.eq_iff_iff, List.any_eq_true, List.any_eq_true]
      refine exists_congr fun eid => and_congr_right fun heid => ?_
      simp only [unqualified, h first List.mem_cons_self eid heid]
    simp only [hfirst]

/-- The judgement reads the records of the cited ids alone: citations of other records make the
judge's output invalid. -/
theorem judgement_congr {parsed : Option ReportV2}
    (h : ∀ r ∈ parsed, ∀ eid ∈ citedIds r, delivered' eid = delivered eid) :
    judgement spec answer gate parsed hits delivered' authorized scope result =
      judgement spec answer gate parsed hits delivered authorized scope result := by
  cases result with
  | none => rfl
  | some judge =>
    cases parsed with
    | none => rfl
    | some report =>
      suffices hdiagnoses : judgeDiagnoses spec answer report hits delivered' authorized scope
          judge = judgeDiagnoses spec answer report hits delivered authorized scope judge by
        simp only [judgement, hdiagnoses]
      unfold judgeDiagnoses
      cases hreasons : judgeOutputReasons report judge with
      | error e => rfl
      | ok reasons =>
        simp only [bind, Except.bind]
        generalize hout : reasons ++ _ = output
        split
        · rfl
        · next hnone =>
          rw [ne_eq, not_not] at hnone
          obtain ⟨rfl, -⟩ := List.append_eq_nil_iff.1 (hout.trans hnone)
          rw [unqualifiedDiagnoses_congr fun d hd eid heid => ?_]
          obtain ⟨index, allowed, hlocated⟩ := judgeOutputReasons_eq_nil hreasons hd
          exact h report rfl eid (hlocated.citedIds heid)

/-- **A passing evaluation is earned.** If an evaluation passes overall, whatever the judge
returned, the attempt ran without a replay miss, every required trace, and there is one, was read
back and is bound to the attempt, every fact-like claim of the report cites only records of this Run
that back it, and a fault has a causal diagnosis, each of which names the injected fault and cites
a record of its own claim that backs a fact and shows the signature. No evaluation changes with the
records the report does not cite. -/
theorem evaluation_earned (spec : AnyScenarioSpec) (answer : AnyAnswer) (attempt : AttemptRecord)
    (outcome : Option IncidentOutcome) (capture : Option ReportCapture)
    (delivered : String → Option DeliveredRecord) (authorized : String → Option Window)
    (traces : List TraceEntry) (result : Option JudgeResult) :
    (∀ e, evaluate spec answer attempt outcome capture delivered authorized traces result = .ok e →
      e.overall = true →
      (attempt.status = .ran ∧ attempt.replayMiss = false) ∧
      ((∃ entry ∈ traces, entry.required = true) ∧
        ∀ entry ∈ traces, entry.required = true → entry.readBack = .found ∧
          entry.runId ≠ none ∧ entry.runId = entry.expectedRunId ∧
          entry.productRunId = attempt.productRunId ∧ attempt.productRunId ≠ none) ∧
      ∃ report, parsedReport capture = some report ∧
        (∀ claim ∈ report.claims, claim.kind.factLike = true → ∀ eid ∈ claim.evidenceIds,
          eid ∈ (runScope spec outcome).evidenceIds ∧ ∃ record, delivered eid = some record ∧
            Backs authorized (runScope spec outcome) claim eid record) ∧
        (isFaultScenario spec answer = true → ∃ judge injected rule, result = some judge ∧
          answer.injectedFault = some injected ∧ answer.signature = some rule ∧
          (∃ d ∈ judge.diagnoses, d.factualCausal = true) ∧
          ∀ d ∈ judge.diagnoses, d.factualCausal = true → Diagnosed report delivered authorized
            (runScope spec outcome) injected rule d)) ∧
    ∀ delivered' : String → Option DeliveredRecord,
      (∀ report, parsedReport capture = some report → ∀ eid ∈ citedIds report,
        delivered' eid = delivered eid) →
      evaluate spec answer attempt outcome capture delivered' authorized traces result =
        evaluate spec answer attempt outcome capture delivered authorized traces result := by
  constructor
  · intro e h hoverall
    obtain ⟨gate, judged, hgate, hhits, hjudged, hiff⟩ := evaluate_ok h
    obtain ⟨⟨hran, hmiss, hpassed, hevidence⟩, -, hpass⟩ := hiff.1 hoverall
    obtain ⟨report, hreport, -, -, hcitations⟩ := runGate_passed hgate hpassed
    obtain ⟨judge, parsed, rfl, hparsed, houtput, hdiagnosis, hqualified⟩ :=
      judgement_pass hjudged hpass
    obtain rfl := Option.some.inj (hreport.symm.trans hparsed)
    refine ⟨⟨hran, hmiss⟩, ?_, report, hreport, ?_, fun hfault => ?_⟩
    · simp only [evidenceComplete, decide_eq_true_eq, List.mem_filter, and_imp] at hevidence
      obtain ⟨hproduct, hrequired, hall⟩ := hevidence
      obtain ⟨entry, hentry⟩ := List.exists_mem_of_ne_nil _ hrequired
      refine ⟨⟨entry, List.mem_filter.1 hentry⟩, fun entry hmem hreq => ?_⟩
      obtain ⟨hfound, hrun, hexpected, hbound⟩ := hall entry hmem hreq
      exact ⟨hfound, hrun, hexpected, hbound, fun hnone => hproduct ⟨hran, hnone⟩⟩
    · exact fun claim hclaim hfact eid heid =>
        reportCitationReasons_eq_nil hcitations hclaim hfact heid
    · rw [hreport] at hhits
      obtain ⟨injected, rule, hinjected, hrule, hdiagnosed⟩ :=
        diagnosed_of_pass hhits houtput hdiagnosis hqualified hfault
      exact ⟨judge, injected, rule, rfl, hinjected, hrule, hdiagnosed⟩
  · intro delivered' h
    have hcited : ∀ r ∈ parsedReport capture, ∀ eid ∈ citedIds r, delivered' eid = delivered eid :=
      h
    simp only [evaluate, runGate_congr hcited, reportSignatureMatches_congr hcited,
      judgement_congr hcited]

end

namespace Scenario

/-- The view of a trace search: one failed charge. -/
def chargeView : Json := .obj [
  ("content", .arr [.obj [("operation", .str "charge"), ("operation_truncated", .bool false),
    ("service", .str "payment"), ("span_id", .str "span-1"), ("start_us", .num 5000000),
    ("status_tags", .obj [("error", .bool true)])]]),
  ("tool", .str "traces_search")]

/-- Latin letters and digits, instants in microseconds, and the hash of the view. -/
scoped instance : EvaluationTexts where
  casefold text := String.ofList (text.toList.map Char.toLower)
  digit c := if '0' ≤ c ∧ c ≤ '9' then some (c.toNat - 48) else none
  str
    | .bool true => "True"
    | .bool false => "False"
    | .null => "None"
    | _ => ""
  canonicalHash view :=
    if view = chargeView then "4e7a0378a7ef8243c42367bce0d2cb8fa16f3a0e485fabfe5330aa416dd84996" else ""
  fromtimestamp us := some us

/-- The first ten seconds. -/
def charges : Window where
  start := 0
  endAt := seconds 10
  ordered := by decide

/-- The record of the trace search. -/
def chargeRecord : DeliveredRecord where
  evidenceId := "e"
  targetId := "s"
  status := "ok"
  citableAsFact := true
  timeScopeRefs := {"w"}
  window := some charges
  view := chargeView
  viewSha256 := "4e7a0378a7ef8243c42367bce0d2cb8fa16f3a0e485fabfe5330aa416dd84996"
  delivered := true

/-- The text of a report with one fact. -/
def chargeText : String :=
  "\x7b\"schema_version\":\"m0-report-v2\"," ++ ("\"assessment_status\":\"completed\"," ++
    ("\"conclusion\":\"partial\"," ++ ("\"summary\":\"no\",\"claims\":[\x7b\"kind\":\"fact\"," ++
    ("\"text\":\"charge  fails\",\"evidence_ids\":[\"e\"]," ++ ("\"target_refs\":[\"s\"]," ++
    "\"time_scope_ref\":\"w\"\x7d],\"gaps\":[],\"next_steps\":[]\x7d")))))

/-- The report in the text. -/
def chargePayload : Json := .obj [("schema_version", .str "m0-report-v2"),
  ("assessment_status", .str "completed"), ("conclusion", .str "partial"), ("summary", .str "no"),
  ("claims", .arr [.obj [("kind", .str "fact"), ("text", .str "charge  fails"),
    ("evidence_ids", .arr [.str "e"]), ("target_refs", .arr [.str "s"]),
    ("time_scope_ref", .str "w")]]), ("gaps", .arr []), ("next_steps", .arr [])]

/-- The reply with the report. -/
def chargeReport : ReportCapture where
  raw := some chargeText
  finishReason := "stop"

/-- The reply is read as the report. -/
theorem parsedReport_charge :
    parsedReport (some chargeReport) = ReportV2.modelValidate chargePayload := by
  have htext : ∃ chars, chargeText.toList = chars ∧ chars.all isSpace = false ∧
      hasDsml chars = false ∧ Json.loadsChars uniqueObject chars = some chargePayload := by
    unfold chargeText
    simp only [String.toList_append]
    exact ⟨_, rfl, by decide +kernel⟩
  obtain ⟨chars, hchars, hblank, hdsml, hloads⟩ := htext
  refine parsedReport_of_loads ?_ (hchars ▸ hdsml) (Json.loads_eq .. ▸ hchars ▸ hloads)
  rw [blank, hchars, hblank]

/-- The judge finds the fact to be a causal diagnosis, and names the service in its own way. -/
def chargeJudge : JudgeResult where
  status := .ok
  calibrated := true
  diagnoses := [{
    location := "claims[0]", quote := "charge fails", factualCausal := true
    service := some " Payment ", operation := some "charge", citedEvidenceIds := ["e"]
    linkedClaim := none, supported := true }]
  verdict := some true
  configHash := "config"
  calibrationHash := "calibration"

/-- The evaluation of a run that found the failed charges. -/
def chargeEvaluation : Except EvaluationError RunEvaluation :=
  evaluate { scenarioId := "charges", version := "1", kind := some .fault, targetId := "s" }
    (.v1 "charges" "1" (some {
        service := "payment", serviceAliases := [], operation := "charge", operationAliases := [] })
      (some { anyOf := [⟨"payment", "charge"⟩] }))
    { scenarioId := "charges", scenarioVersion := "1", started := true, status := .ran
      replayMiss := false, productRunId := some "run-1" }
    (some {
      scenarioId := "charges", finalState := .completed, evidenceIds := ["e"]
      decision := "report_available", permissions := ["read_only"], humanInteraction := none
      handoffReasons := [], reportAvailable := true })
    (some chargeReport) (fun eid => if eid = "e" then some chargeRecord else none)
    (fun ref => if ref = "w" then some charges else none)
    [{ required := true, readBack := .found, runId := some "trace-1"
       expectedRunId := some "trace-1", productRunId := some "run-1" }]
    (some chargeJudge)

/-- It passes, and its diagnosis names the fault and cites a record that shows it. -/
theorem evaluation_earned_charges : ∃ e, chargeEvaluation = .ok e ∧ e.overall = true ∧
    ∃ report, parsedReport (some chargeReport) = some report ∧
      ∀ d ∈ chargeJudge.diagnoses, d.factualCausal = true → ∃ claim eid record,
        OwnClaim report d claim ∧ eid ∈ claim.evidenceIds ∧ eid ∈ d.citedEvidenceIds ∧
          Shows { anyOf := [⟨"payment", "charge"⟩] } record := by
  have hpass : chargeEvaluation.toOption.map RunEvaluation.overall = some true := by
    unfold chargeEvaluation evaluate runGate
    rw [parsedReport_charge]
    decide +kernel
  obtain ⟨e, he, hoverall⟩ := Option.map_eq_some_iff.1 hpass
  have hok : chargeEvaluation = .ok e := by
    cases hresult : chargeEvaluation with
    | error code =>
      rw [hresult] at he
      cases he
    | ok e' =>
      rw [hresult] at he
      cases he
      rfl
  obtain ⟨-, -, report, hreport, -, hfault⟩ := (evaluation_earned ..).1 e hok hoverall
  obtain ⟨judge, injected, rule, hjudge, -, hrule, -, hdiagnosed⟩ := hfault rfl
  cases hjudge
  cases hrule
  refine ⟨e, hok, hoverall, report, hreport, fun d hd hcausal => ?_⟩
  obtain ⟨claim, eid, record, hown, hclaim, hcited, -, -, -, hshows⟩ :=
    (hdiagnosed d hd hcausal).evidence
  exact ⟨claim, eid, record, hown, hclaim, hcited, hshows⟩

end Scenario

end OpsPilot
