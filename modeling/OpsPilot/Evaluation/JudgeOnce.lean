import OpsPilot.Evaluation.Runs

/-!
# The judge's own check

`recheck_diagnoses` and the end of `judge_once` (`opspilot/evaluation/judge.py`). What a judge
answers is checked when it arrives: the diagnoses are held against the report, the verdict is
computed from them, and the full verdict is that one with the citations and the gate. `evaluate`
computes all of it again from the result that is kept.

* `AgreesOn`: on a list of diagnoses the two say the same, and neither raises what it would not
  raise without them.
* **`agrees_iff`**: they agree unless an index in a location has more than 4300 digits.
-/

namespace OpsPilot

/-- `JudgeInput`. -/
structure JudgeInput where
  spec : AnyScenarioSpec
  answer : AnyAnswer
  report : ReportCapture
  delivered : String → Option DeliveredRecord
  authorized : String → Option Window
  outcome : IncidentOutcome

/-- What is raised on the way to a judge's verdict: a `TimeoutError`, a `JudgeError` with its code,
a `StorageError`, an exception of the transport, and one of the checks themselves. -/
inductive JudgeRaise
  | timeout | judge (code : String) | storage | transport | check (e : EvaluationError)
  deriving DecidableEq

/-- `OBSERVATION_ERROR_CODES`. -/
def observationErrorCodes : List String :=
  ["CONFIG_INVALID", "JUDGE_IDENTITY_MISMATCH", "SCHEMA_INVALID", "JUDGE_PRIVATE_FIELD",
    "JUDGE_OUTPUT_INVALID", "JUDGE_VERDICT_MISMATCH", "JUDGE_REQUEST_OVERSIZE",
    "JUDGE_RESPONSE_OVERSIZE", "JUDGE_TIMEOUT", "JUDGE_HTTP_ERROR", "JUDGE_TRANSPORT_ERROR",
    "JUDGE_RESPONSE_IDENTITY_INVALID"]

/-- `_observation_code`. -/
def observationCode (code : String) : String :=
  if code ∈ observationErrorCodes then code else "JUDGE_TRANSPORT_ERROR"

/-- The status and the code `judge_once` keeps of what was raised. -/
def JudgeRaise.observed : JudgeRaise → JudgeStatus × String
  | timeout => (.timeout, "JUDGE_TIMEOUT")
  | judge code =>
    let code := observationCode code
    (if "OVERSIZE".toList <:+ code.toList then .oversize
      else if code ∈ ["JUDGE_IDENTITY_MISMATCH", "JUDGE_HTTP_ERROR", "JUDGE_TRANSPORT_ERROR"] then
        .error
      else .invalid, code)
  | storage => (.invalid, "SCHEMA_INVALID")
  | transport | check _ => (.error, "JUDGE_TRANSPORT_ERROR")

/-- `JudgeObservation`, without what is measured of the exchange. -/
structure JudgeObservation where
  result : JudgeResult
  valid : Bool
  recomputedVerdict : Option Bool
  passed : Bool
  errorCode : Option String
  responseModel : Option String
  modelVerdict : Option Bool
  verdictMatched : Option Bool

section

variable [EvaluationTexts]

/-- The verdict of diagnoses that stand in the report, and the full verdict. -/
def recheckReport (request : JudgeInput) (report : ReportV2) (diagnoses : List JudgedDiagnosis) :
    Except EvaluationError (Bool × Bool) := do
  let hits ← reportSignatureMatches request.answer (some report) request.delivered
    request.authorized (runScope request.spec (some request.outcome))
  if diagnosisPass request.spec request.answer diagnoses hits then do
    let unqualified ← unqualifiedDiagnoses report request.delivered request.authorized
      (runScope request.spec (some request.outcome)) diagnoses
    -- the gate is run for qualified diagnoses only
    if unqualified then pure (true, false)
    else do
      let gate ← runGate request.spec request.answer (some request.outcome) (some request.report)
        request.delivered request.authorized
      pure (true, gate.passed)
  else pure (false, false)

/-- `recheck_diagnoses`: the verdict of the diagnoses, and the full verdict. -/
def recheckDiagnoses (request : JudgeInput) (diagnoses : List JudgedDiagnosis) :
    Except JudgeRaise (Bool × Bool) := do
  let report ← require (parsedReport (some request.report)) (.judge "SCHEMA_INVALID")
  let reasons ← (judgeOutputReasons report
    { status := .ok, calibrated := false, diagnoses, verdict := none, configHash := ""
      calibrationHash := "" }).mapError .check
  refuse (reasons ≠ []) (.judge "JUDGE_OUTPUT_INVALID")
  (recheckReport request report diagnoses).mapError .check

/-- An answer of the judge with the verdicts of its check. -/
def judgeChecked (request : JudgeInput)
    (answer : Except JudgeRaise (List JudgedDiagnosis × Bool × String)) :
    Except JudgeRaise (List JudgedDiagnosis × Bool × Bool × Bool) := do
  let answered ← answer
  let verdicts ← recheckDiagnoses request answered.1
  pure (answered.1, answered.2.1, verdicts)

/-- `judge_once`, from what the exchange and `_output` gave: the diagnoses, the judge's own verdict
and the model that answered. The calibration is the hash of its pack, if one matches the
configuration. -/
def judgeOnce (request : JudgeInput) (configHash : String) (calibration : Option String)
    (answer : Except JudgeRaise (List JudgedDiagnosis × Bool × String)) : JudgeObservation :=
  let responseModel := answer.toOption.map (·.2.2)
  let result : JudgeResult :=
    { status := .invalid, calibrated := calibration.isSome, diagnoses := [], verdict := none
      configHash, calibrationHash := calibration.getD "" }
  match judgeChecked request answer with
  | .ok (diagnoses, modelVerdict, verdict, full) =>
    { result := { result with status := .ok, diagnoses, verdict := some verdict }
      valid := true, recomputedVerdict := some full, passed := calibration.isSome && full
      errorCode := none, responseModel, modelVerdict := some modelVerdict
      verdictMatched := some (modelVerdict = verdict) }
  | .error e =>
    { result := { result with status := e.observed.1 }
      valid := false, recomputedVerdict := none, passed := false, errorCode := some e.observed.2
      responseModel, modelVerdict := none, verdictMatched := none }

/-- `evaluate` on the parts of a judge's input. -/
def JudgeInput.evaluate (request : JudgeInput) (attempt : AttemptRecord) (traces : List TraceEntry)
    (judge : JudgeResult) : Except EvaluationError RunEvaluation :=
  OpsPilot.evaluate request.spec request.answer attempt (some request.outcome)
    (some request.report) request.delivered request.authorized traces (some judge)

/-- The parts of a judge's input are about the scenario of the attempt, which was started. -/
structure JudgeInput.Identified (request : JudgeInput) (attempt : AttemptRecord) : Prop where
  started : attempt.started = true
  attempt : (attempt.scenarioId, attempt.scenarioVersion) =
    (request.spec.scenarioId, request.spec.version)
  answer : request.answer.identity = (request.spec.scenarioId, request.spec.version)
  outcome : request.outcome.scenarioId = request.spec.scenarioId

/-- The judge's check and the evaluation agree on these diagnoses. What the judge's check accepts
under a calibration the evaluation takes, with the same full verdict; and what either of them raises
with the diagnoses it raises without them too. -/
structure AgreesOn (request : JudgeInput) (diagnoses : List JudgedDiagnosis) : Prop where
  accepted : ∀ (configHash packHash model : String) (modelVerdict : Bool) (o : JudgeObservation)
    (attempt : AttemptRecord) (traces : List TraceEntry),
    o = judgeOnce request configHash (some packHash) (.ok (diagnoses, modelVerdict, model)) →
    o.result.status = .ok → request.Identified attempt →
    ∃ verdict full e, recheckDiagnoses request diagnoses = .ok (verdict, full) ∧
      request.evaluate attempt traces o.result = .ok e ∧ e.judgeStatus = .ok ∧
      ((e.diagnosisPass = some true ∧ e.gate.passed = true) ↔ full = true)
  recheck : ∀ e, recheckDiagnoses request diagnoses = .error (.check e) →
    recheckDiagnoses request [] = .error (.check e)
  evaluate : ∀ (attempt : AttemptRecord) (traces : List TraceEntry) (judge : JudgeResult) (e),
    request.evaluate attempt traces { judge with diagnoses } = .error e →
      request.evaluate attempt traces { judge with diagnoses := [] } = .error e

/-- The index in the location of a diagnosis, if it has one, is a number Python reads. -/
def Readable (d : JudgedDiagnosis) : Prop :=
  ∀ field digits, Location.ofText? d.location = some (.item field digits) → digits.length ≤ 4300

/-! ## Locations -/

variable {request : JudgeInput} {diagnoses : List JudgedDiagnosis} {report : ReportV2}
  {judge : JudgeResult} {d : JudgedDiagnosis} {delivered : String → Option DeliveredRecord}
  {authorized : String → Option Window} {scope : RunScope}

/-- A readable location leads somewhere or nowhere, and raises nothing. -/
theorem locationText_ok (h : Readable d) :
    ∃ located, locationText report d.location = .ok located := by
  unfold locationText
  cases hlocation : Location.ofText? d.location with
  | none => exact ⟨_, rfl⟩
  | some location =>
    cases location with
    | summary => exact ⟨_, rfl⟩
    | item field digits =>
      have hread : intOfDigits digits = .ok (digits.foldl (fun n d => 10 * n + d) 0) :=
        if_neg (Nat.not_lt.2 (h field digits hlocation))
      dsimp only
      rw [hread]
      exact ⟨_, rfl⟩

/-- One that is not readable raises. -/
theorem locationText_error (h : ¬ Readable d) :
    locationText report d.location = .error .tooManyDigits := by
  unfold Readable at h
  push Not at h
  obtain ⟨field, digits, hlocation, hlong⟩ := h
  unfold locationText
  rw [hlocation]
  show (intOfDigits digits).map _ = _
  rw [intOfDigits, if_pos hlong]
  rfl

/-- The output of a judge is held against the report without an exception if every location is
readable. -/
theorem judgeOutputReasons_ok (h : ∀ d ∈ judge.diagnoses, Readable d) :
    ∃ reasons, judgeOutputReasons report judge = .ok reasons := by
  suffices hall : ∃ results, judge.diagnoses.mapM (diagnosisReasons report) = .ok results by
    obtain ⟨results, hresults⟩ := hall
    exact ⟨results.flatten.eraseDups, by rw [judgeOutputReasons, hresults]; rfl⟩
  generalize judge.diagnoses = l at h
  induction l with
  | nil => exact ⟨[], rfl⟩
  | cons d l ih =>
    obtain ⟨located, hlocated⟩ := locationText_ok (h d List.mem_cons_self)
    obtain ⟨results, hresults⟩ := ih fun d hd => h d (List.mem_cons_of_mem _ hd)
    rw [List.mapM_cons, diagnosisReasons, hlocated, hresults]
    exact ⟨_, rfl⟩

/-- With one that is not it raises. -/
theorem judgeOutputReasons_error (hd : d ∈ judge.diagnoses) (h : ¬ Readable d) :
    judgeOutputReasons report judge = .error .tooManyDigits := by
  suffices hall : judge.diagnoses.mapM (diagnosisReasons report) = .error .tooManyDigits by
    rw [judgeOutputReasons, hall]
    rfl
  generalize judge.diagnoses = l at hd
  induction l with
  | nil => cases hd
  | cons first l ih =>
    rw [List.mapM_cons]
    by_cases hfirst : Readable first
    · obtain ⟨located, hlocated⟩ : ∃ located, locationText report first.location = .ok located :=
        locationText_ok hfirst
      have hrest : d ∈ l := by
        rcases List.mem_cons.1 hd with rfl | hd
        · exact absurd hfirst h
        · exact hd
      rw [diagnosisReasons, hlocated, ih hrest]
      rfl
    · rw [diagnosisReasons, locationText_error hfirst]
      rfl

/-! ## Links -/

/-- A diagnosis that is located rests on a claim of the report or on none: its link is in range. -/
theorem Located.anchored {index : Option ℕ} {allowed : List String}
    (h : Located report d index allowed) : ∃ claim, anchoredClaim report d = .ok claim := by
  obtain ⟨⟨text, hlocation, -⟩, hallowed, -⟩ := h
  have hat : ∀ {position : ℕ} {ids : List String},
      report.claims[position]?.map ClaimV2.evidenceIds = some ids →
        ∃ claim, claimAt report position = .ok claim := by
    intro position ids hids
    obtain ⟨claim, hclaim, -⟩ := Option.map_eq_some_iff.1 hids
    exact ⟨claim, by simp [claimAt, hclaim, require]⟩
  cases index with
  | some position =>
    obtain ⟨claim, hclaim⟩ := hat hallowed
    have hanchor : anchorClaim report d = .ok (some (position : ℤ)) := by
      rw [anchorClaim, hlocation]
      rfl
    refine ⟨some claim, ?_⟩
    rw [anchoredClaim, hanchor]
    show (claimAt report position).map some = _
    rw [hclaim]
    rfl
  | none =>
    have hanchor : anchorClaim report d = .ok d.linkedClaim := by
      rw [anchorClaim, hlocation]
      rfl
    cases hlinked : d.linkedClaim with
    | none =>
      refine ⟨none, ?_⟩
      rw [anchoredClaim, hanchor, hlinked]
      rfl
    | some linked =>
      rw [hlinked, allowedIds] at hallowed
      split at hallowed
      · next hpos =>
        obtain ⟨claim, hclaim⟩ := hat hallowed
        rw [Int.toNat_of_nonneg hpos] at hclaim
        refine ⟨some claim, ?_⟩
        rw [anchoredClaim, hanchor, hlinked]
        show (claimAt report linked).map some = _
        rw [hclaim]
        rfl
      · cases hallowed

/-- Of diagnoses that are located it is found out whether one is unqualified. -/
theorem unqualifiedDiagnoses_ok {judged : List JudgedDiagnosis}
    (h : ∀ d ∈ judged, ∃ index allowed, Located report d index allowed) :
    ∃ unqualified, unqualifiedDiagnoses report delivered authorized scope judged =
      .ok unqualified := by
  induction judged with
  | nil => exact ⟨false, rfl⟩
  | cons first rest ih =>
    obtain ⟨unqualified, hrest⟩ := ih fun d hd => h d (List.mem_cons_of_mem _ hd)
    obtain ⟨index, allowed, hfirst⟩ := h first List.mem_cons_self
    obtain ⟨claim, hclaim⟩ := hfirst.anchored
    rw [unqualifiedDiagnoses, hclaim, ok_bind, hrest]
    split
    · split
      · exact ⟨true, rfl⟩
      · exact ⟨unqualified, rfl⟩
    · exact ⟨unqualified, rfl⟩

/-! ## The gate -/

variable {spec : AnyScenarioSpec} {answer : AnyAnswer} {capture : Option ReportCapture}
  {outcome : Option IncidentOutcome} {hits : List (String × List String)}

/-- The gate raises nothing once the signature hits of the report are found. -/
theorem runGate_ok (hparsed : parsedReport capture = some report)
    (hhits : reportSignatureMatches answer (some report) delivered authorized
      (runScope spec outcome) = .ok hits) :
    ∃ gate, runGate spec answer outcome capture delivered authorized = .ok gate := by
  have hsignature : ∃ found, signatureCheck spec answer report delivered authorized
      (runScope spec outcome) = .ok found := by
    unfold signatureCheck
    split
    · exact ⟨_, by rw [hhits]; rfl⟩
    · exact ⟨true, rfl⟩
  obtain ⟨found, hfound⟩ := hsignature
  rw [runGate, hparsed, bindingChecks]
  dsimp only
  rw [hfound]
  exact ⟨_, rfl⟩

/-- What `judge_once` keeps of an answer its check accepts. -/
theorem judgeOnce_accepted {verdict full : Bool}
    (h : recheckDiagnoses request diagnoses = .ok (verdict, full)) (configHash : String)
    (calibration : Option String) (modelVerdict : Bool) (model : String) :
    (judgeOnce request configHash calibration (.ok (diagnoses, modelVerdict, model))).result =
      { status := .ok, calibrated := calibration.isSome, diagnoses, verdict := some verdict
        configHash, calibrationHash := calibration.getD "" } := by
  have hchecked : judgeChecked request (.ok (diagnoses, modelVerdict, model)) =
      .ok (diagnoses, modelVerdict, verdict, full) := by
    rw [judgeChecked, ok_bind, h]
    rfl
  unfold judgeOnce
  rw [hchecked]

variable {e : EvaluationError}

/-- A search for the signature raises for a value that cannot be hashed, and for nothing else. -/
theorem signatureMatches_error {rule : SignatureRule} {record : DeliveredRecord}
    (h : signatureMatches rule record = .error e) : e = .unhashable := by
  have hrow : ∀ (window : Window) (row : Json), spanHit rule window row = .error e →
      e = .unhashable := by
    intro window row h
    unfold spanHit at h
    split_ifs at h
    all_goals cases h
    rfl
  have hrows : ∀ (window : Window) (rows : List Json), rows.mapM (spanHit rule window) = .error e →
      e = .unhashable := by
    intro window rows
    induction rows with
    | nil =>
      intro h
      cases h
    | cons row rows ih =>
      intro h
      rw [List.mapM_cons] at h
      cases hhit : spanHit rule window row with
      | error e' =>
        rw [hhit] at h
        obtain rfl : e' = e := Except.error.inj h
        exact hrow window row hhit
      | ok hit =>
        rw [hhit, ok_bind] at h
        cases hhits : rows.mapM (spanHit rule window) with
        | error e' =>
          rw [hhits] at h
          obtain rfl : e' = e := Except.error.inj h
          exact ih hhits
        | ok hits =>
          rw [hhits] at h
          cases h
  unfold signatureMatches at h
  split at h
  · next window rows hwindow hrows' =>
    split at h
    · cases hhits : rows.mapM (spanHit rule window) with
      | error e' =>
        rw [hhits] at h
        obtain rfl : e' = e := Except.error.inj h
        exact hrows window rows hhits
      | ok hits =>
        rw [hhits] at h
        cases h
    · cases h
  · cases h

/-- The same for a whole report. -/
theorem reportSignatureMatches_error {parsed : Option ReportV2}
    (h : reportSignatureMatches answer parsed delivered authorized scope = .error e) :
    e = .unhashable := by
  unfold reportSignatureMatches at h
  split at h
  · next rule report hrule =>
    suffices hfold : ∀ (cites : List (ClaimV2 × String)) (hits : List (String × List String)),
        cites.foldlM (addHits rule delivered authorized scope) hits = .error e →
          e = .unhashable from hfold _ _ h
    intro cites
    induction cites with
    | nil =>
      intro hits h
      cases h
    | cons cite cites ih =>
      intro hits h
      rw [List.foldlM_cons] at h
      cases hnext : addHits rule delivered authorized scope hits cite with
      | ok next =>
        rw [hnext] at h
        exact ih next h
      | error e' =>
        rw [hnext] at h
        obtain rfl : e' = e := Except.error.inj h
        obtain ⟨claim, eid⟩ := cite
        unfold addHits at hnext
        dsimp only at hnext
        cases hrecord : delivered eid with
        | none =>
          rw [hrecord] at hnext
          cases hnext
        | some record =>
          rw [hrecord] at hnext
          dsimp only at hnext
          split at hnext
          · cases hnext
          · cases hmatched : signatureMatches rule record with
            | error e'' =>
              rw [hmatched] at hnext
              obtain rfl : e'' = e' := Except.error.inj hnext
              exact signatureMatches_error hmatched
            | ok matched =>
              rw [hmatched] at hnext
              cases hnext
  · cases h

/-! ## Agreement -/

omit [EvaluationTexts] in
/-- What is raised is never kept as an accepted answer. -/
theorem JudgeRaise.observed_ne_ok (e : JudgeRaise) : e.observed.1 ≠ .ok := by
  cases e with
  | judge code =>
    unfold JudgeRaise.observed
    dsimp only
    split_ifs <;> simp
  | timeout | storage | transport | check e => simp [JudgeRaise.observed]

omit [EvaluationTexts] in
theorem mapError_check_eq_ok {α : Type} {x : Except EvaluationError α} {a : α} :
    x.mapError JudgeRaise.check = .ok a ↔ x = .ok a := by
  cases x <;> simp [Except.mapError]

omit [EvaluationTexts] in
/-- What raises in its first step, or in all that follow on it, raises the same when what follows
does too. -/
theorem error_bind_mono {α β γ : Type} {x : Except EvaluationError α}
    {f : α → Except EvaluationError β} {g : α → Except EvaluationError γ} (h : (x >>= f) = .error e)
    (hf : ∀ a, f a = .error e → g a = .error e) :
    (x >>= g) = .error e := by
  cases x with
  | error e' =>
    obtain rfl : e' = e := Except.error.inj h
    rfl
  | ok a => exact hf a h

/-- The reasons against the output of a judge are about its diagnoses. -/
theorem judgeOutputReasons_congr {judge' : JudgeResult} (h : judge'.diagnoses = judge.diagnoses) :
    judgeOutputReasons report judge' = judgeOutputReasons report judge := by
  rw [judgeOutputReasons, judgeOutputReasons, h]

/-- What the judge's check computes of diagnoses that are located: it raises what the search for the
signature raises and nothing else. -/
theorem recheckReport_eq (hparsed : parsedReport (some request.report) = some report)
    (hlocated : ∀ d ∈ diagnoses, ∃ index allowed, Located report d index allowed) :
    (∃ e, reportSignatureMatches request.answer (some report) request.delivered request.authorized
        (runScope request.spec (some request.outcome)) = .error e ∧
      recheckReport request report diagnoses = .error e) ∨
    ∃ hits unqualified gate,
      reportSignatureMatches request.answer (some report) request.delivered request.authorized
        (runScope request.spec (some request.outcome)) = .ok hits ∧
      unqualifiedDiagnoses report request.delivered request.authorized
        (runScope request.spec (some request.outcome)) diagnoses = .ok unqualified ∧
      runGate request.spec request.answer (some request.outcome) (some request.report)
        request.delivered request.authorized = .ok gate ∧
      recheckReport request report diagnoses =
        .ok (diagnosisPass request.spec request.answer diagnoses hits,
          diagnosisPass request.spec request.answer diagnoses hits && !unqualified &&
            gate.passed) := by
  unfold recheckReport
  cases hhits : reportSignatureMatches request.answer (some report) request.delivered
      request.authorized (runScope request.spec (some request.outcome)) with
  | error e => exact .inl ⟨e, rfl, rfl⟩
  | ok hits =>
    obtain ⟨unqualified, hunqualified⟩ : ∃ unqualified, unqualifiedDiagnoses report
        request.delivered request.authorized (runScope request.spec (some request.outcome))
        diagnoses = .ok unqualified := unqualifiedDiagnoses_ok hlocated
    obtain ⟨gate, hgate⟩ := runGate_ok hparsed hhits
    refine .inr ⟨hits, unqualified, gate, rfl, hunqualified, hgate, ?_⟩
    rw [ok_bind, hunqualified, hgate]
    cases diagnosisPass request.spec request.answer diagnoses hits with
    | false => rfl
    | true =>
      cases unqualified with
      | false => rfl
      | true => rfl

/-- What the judge's check accepts has no reason against it. -/
theorem recheckDiagnoses_ok {verdicts : Bool × Bool}
    (h : recheckDiagnoses request diagnoses = .ok verdicts) :
    ∃ report, parsedReport (some request.report) = some report ∧
      (∀ judge : JudgeResult, judge.diagnoses = diagnoses →
        judgeOutputReasons report judge = .ok []) ∧
      recheckReport request report diagnoses = .ok verdicts := by
  obtain ⟨report, hreport, h⟩ := require_bind_eq_ok.1 h
  obtain ⟨reasons, hreasons, h⟩ := bind_eq_ok.1 h
  obtain ⟨hnone, h⟩ := refuse_bind_eq_ok.1 h
  rw [ne_eq, not_not] at hnone
  rw [mapError_check_eq_ok, hnone] at hreasons
  refine ⟨report, hreport, fun judge hjudge => ?_, mapError_check_eq_ok.1 h⟩
  rw [← hreasons]
  exact judgeOutputReasons_congr hjudge

/-- What the judge's check raises of the checks, when every location is readable, the records of the
report make it raise. -/
theorem recheckDiagnoses_error (hread : ∀ d ∈ diagnoses, Readable d)
    (h : recheckDiagnoses request diagnoses = .error (.check e)) :
    recheckDiagnoses request [] = .error (.check e) := by
  unfold recheckDiagnoses at h ⊢
  cases hreport : parsedReport (some request.report) with
  | none =>
    rw [hreport] at h
    cases h
  | some report =>
    rw [hreport] at h
    obtain ⟨reasons, hreasons⟩ : ∃ reasons, judgeOutputReasons report
        { status := .ok, calibrated := false, diagnoses, verdict := none, configHash := ""
          calibrationHash := "" } = .ok reasons := judgeOutputReasons_ok hread
    simp only [require, ok_bind, hreasons, Except.mapError] at h
    by_cases hnone : reasons = []
    · subst hnone
      rw [refuse_bind_of_not (not_not_intro rfl)] at h
      obtain ⟨e', hhits, hcheck⟩ | ⟨hits, unqualified, gate, -, -, -, hcheck⟩ :=
        recheckReport_eq hreport fun d hd => judgeOutputReasons_eq_nil hreasons hd
      · rw [hcheck] at h
        obtain rfl := JudgeRaise.check.inj (Except.error.inj h)
        show (recheckReport request report []).mapError JudgeRaise.check = _
        rw [recheckReport, hhits]
        rfl
      · rw [hcheck] at h
        cases h
    · rw [refuse, if_pos hnone] at h
      cases h

/-- The judgement on diagnoses with readable locations raises nothing. -/
theorem judgeDiagnoses_ok (hread : ∀ d ∈ judge.diagnoses, Readable d) :
    ∃ judged, judgeDiagnoses spec answer report hits delivered authorized scope judge =
      .ok judged := by
  obtain ⟨reasons, hreasons⟩ : ∃ reasons, judgeOutputReasons report judge = .ok reasons :=
    judgeOutputReasons_ok hread
  rw [judgeDiagnoses, hreasons, ok_bind]
  dsimp only
  generalize hout : reasons ++ (if judge.verdict ≠ some (diagnosisPass spec answer judge.diagnoses
    hits) then ["JUDGE_VERDICT_MISMATCH"] else []) = output
  by_cases hnone : output = []
  · rw [hnone, List.append_eq_nil_iff] at hout
    obtain ⟨unqualified, hunqualified⟩ : ∃ unqualified, unqualifiedDiagnoses report delivered
        authorized scope judge.diagnoses = .ok unqualified :=
      unqualifiedDiagnoses_ok fun d hd => judgeOutputReasons_eq_nil (hout.1 ▸ hreasons) hd
    rw [if_neg (not_not_intro hnone), hunqualified]
    exact ⟨_, rfl⟩
  · rw [if_pos hnone]
    exact ⟨_, rfl⟩

/-- So does the one on the result of a judge. -/
theorem judgement_ok {gate : GateResult} {parsed : Option ReportV2}
    (hread : parsed = none ∨ ∀ d ∈ judge.diagnoses, Readable d) :
    ∃ judged, judgement spec answer gate parsed hits delivered authorized scope (some judge) =
      .ok judged := by
  unfold judgement
  dsimp only
  split
  · exact ⟨_, rfl⟩
  · split
    · exact ⟨_, rfl⟩
    · cases parsed with
      | none => exact ⟨_, rfl⟩
      | some report => exact judgeDiagnoses_ok (hread.resolve_left (Option.some_ne_none _))

/-- With readable locations an evaluation raises what it would raise without the diagnoses. -/
theorem evaluate_error {attempt : AttemptRecord} {traces : List TraceEntry}
    (hread : parsedReport capture = none ∨ ∀ d ∈ judge.diagnoses, Readable d)
    (h : evaluate spec answer attempt outcome capture delivered authorized traces (some judge) =
      .error e) (judge' : JudgeResult) :
    evaluate spec answer attempt outcome capture delivered authorized traces
      (some { judge' with diagnoses := [] }) = .error e := by
  refine error_bind_mono h fun _ h => error_bind_mono h fun _ h => error_bind_mono h fun gate h =>
    error_bind_mono h fun hits h => ?_
  obtain ⟨judged, hjudged⟩ : ∃ judged, judgement spec answer gate (parsedReport capture) hits
      delivered authorized (runScope spec outcome) (some judge) = .ok judged := judgement_ok hread
  rw [hjudged] at h
  cases h

/-- The evaluation of a result without a reason against it: the judgement is its verdict, and that
no citation is unqualified. -/
theorem evaluate_accepted {attempt : AttemptRecord} {traces : List TraceEntry} {unqualified : Bool}
    {gate : GateResult} (hidentified : request.Identified attempt)
    (hparsed : parsedReport (some request.report) = some report)
    (houtput : judgeOutputReasons report judge = .ok [])
    (hhits : reportSignatureMatches request.answer (some report) request.delivered
      request.authorized (runScope request.spec (some request.outcome)) = .ok hits)
    (hunqualified : unqualifiedDiagnoses report request.delivered request.authorized
      (runScope request.spec (some request.outcome)) judge.diagnoses = .ok unqualified)
    (hgate : runGate request.spec request.answer (some request.outcome) (some request.report)
      request.delivered request.authorized = .ok gate)
    (hstatus : judge.status = .ok) (hcalibrated : judge.calibrated = true)
    (hverdict : judge.verdict =
      some (diagnosisPass request.spec request.answer judge.diagnoses hits)) :
    ∃ e, request.evaluate attempt traces judge = .ok e ∧ e.judgeStatus = .ok ∧ e.gate = gate ∧
      e.diagnosisPass = some
        (diagnosisPass request.spec request.answer judge.diagnoses hits && !unqualified) := by
  have hmatch : ¬ ((attempt.scenarioId, attempt.scenarioVersion) ≠
      (request.spec.scenarioId, request.spec.version) ∨
      request.answer.identity ≠ (request.spec.scenarioId, request.spec.version) ∨
      ∃ o ∈ some request.outcome, o.scenarioId ≠ request.spec.scenarioId) := by
    rintro (h | h | ⟨o, ho, h⟩)
    · exact h hidentified.attempt
    · exact h hidentified.answer
    · cases ho
      exact h hidentified.outcome
  have hstarted : ¬ attempt.started = false := by
    rw [hidentified.started]
    exact Bool.noConfusion
  have hjudged : ∃ judged, judgement request.spec request.answer gate (some report) hits
      request.delivered request.authorized (runScope request.spec (some request.outcome))
      (some judge) = .ok judged ∧ judged.status = .ok ∧ judged.pass = some
        (diagnosisPass request.spec request.answer judge.diagnoses hits && !unqualified) := by
    rw [judgement, if_neg (not_not_intro hstatus),
      if_neg (by rw [hcalibrated]; exact Bool.noConfusion)]
    show ∃ judged, judgeDiagnoses request.spec request.answer report hits request.delivered
      request.authorized _ judge = .ok judged ∧ _
    rw [judgeDiagnoses, houtput, ok_bind]
    dsimp only
    rw [if_neg (not_not_intro hverdict), List.append_nil, if_neg (not_not_intro rfl), hunqualified]
    exact ⟨_, rfl, rfl, rfl⟩
  obtain ⟨judged, hjudged, hok, hpass⟩ := hjudged
  rw [JudgeInput.evaluate, evaluate, refuse_bind_of_not hstarted, refuse_bind_of_not hmatch, hgate,
    ok_bind, hparsed]
  extract_lets parsed scope
  rw [show reportSignatureMatches request.answer parsed request.delivered request.authorized scope =
    .ok hits from hhits, ok_bind, show judgement request.spec request.answer gate parsed hits
    request.delivered request.authorized scope (some judge) = .ok judged from hjudged, ok_bind]
  exact ⟨_, rfl, hok, rfl, hpass⟩

/-- A location that is not readable makes the check raise. -/
theorem recheckDiagnoses_long (hparsed : parsedReport (some request.report) = some report)
    (hd : d ∈ diagnoses) (hlong : ¬ Readable d) :
    recheckDiagnoses request diagnoses = .error (.check .tooManyDigits) := by
  have houtput : judgeOutputReasons report
      { status := .ok, calibrated := false, diagnoses, verdict := none, configHash := ""
        calibrationHash := "" } = .error .tooManyDigits := judgeOutputReasons_error hd hlong
  rw [recheckDiagnoses, hparsed, require, ok_bind, houtput]
  rfl

/-- Without diagnoses no number is read. -/
theorem recheckDiagnoses_nil (hparsed : parsedReport (some request.report) = some report) :
    recheckDiagnoses request [] ≠ .error (.check .tooManyDigits) := by
  intro h
  have hempty : recheckDiagnoses request [] =
      (recheckReport request report []).mapError JudgeRaise.check := by
    rw [recheckDiagnoses, hparsed]
    rfl
  rw [hempty] at h
  obtain ⟨e, hhits, hcheck⟩ | ⟨hits, unqualified, gate, -, -, -, hcheck⟩ :=
    recheckReport_eq hparsed fun d (hd : d ∈ []) => by cases hd
  · rw [hcheck, reportSignatureMatches_error hhits] at h
    cases h
  · rw [hcheck] at h
    cases h

/-- **The judge's own check and the evaluation agree unless an index is too long to read.** For
every judge's input and every list of diagnoses: what `judge_once` accepts under a calibration the
evaluation of the same parts takes, never as invalid, with a judgement that together with the gate
is the full verdict of the check, and neither raises an exception for the sake of the diagnoses, if
and only if the report is not read at all or no location has an index of more than 4300 digits. -/
theorem agrees_iff (request : JudgeInput) (diagnoses : List JudgedDiagnosis) :
    AgreesOn request diagnoses ↔
      parsedReport (some request.report) = none ∨ ∀ d ∈ diagnoses, Readable d := by
  constructor
  · intro h
    by_contra hnot
    rw [not_or] at hnot
    obtain ⟨hparsed, hread⟩ := hnot
    push Not at hread
    obtain ⟨d, hd, hlong⟩ := hread
    obtain ⟨report, hreport⟩ := Option.ne_none_iff_exists'.1 hparsed
    exact recheckDiagnoses_nil hreport (h.recheck _ (recheckDiagnoses_long hreport hd hlong))
  · intro hread
    have hall : ∀ judge : JudgeResult, judge.diagnoses = diagnoses →
        parsedReport (some request.report) = none ∨ ∀ d ∈ judge.diagnoses, Readable d := by
      rintro judge rfl
      exact hread
    constructor
    · rintro configHash packHash model modelVerdict o attempt traces rfl hok hidentified
      cases hcheck : recheckDiagnoses request diagnoses with
      | error e =>
        have hchecked : judgeChecked request (.ok (diagnoses, modelVerdict, model)) = .error e := by
          rw [judgeChecked, ok_bind, hcheck]
          rfl
        unfold judgeOnce at hok
        rw [hchecked] at hok
        exact absurd hok e.observed_ne_ok
      | ok verdicts =>
        obtain ⟨report, hparsed, houtput, hreport⟩ := recheckDiagnoses_ok hcheck
        have hlocated : ∀ d ∈ diagnoses, ∃ index allowed, Located report d index allowed :=
          fun d hd => judgeOutputReasons_eq_nil
            (houtput { status := .ok, calibrated := true, diagnoses, verdict := none
                       configHash := "", calibrationHash := "" } rfl) hd
        obtain ⟨e, -, herror⟩ | ⟨hits, unqualified, gate, hhits, hunqualified, hgate, hok'⟩ :=
          recheckReport_eq hparsed hlocated
        · rw [herror] at hreport
          cases hreport
        · rw [hok'] at hreport
          obtain rfl := Except.ok.inj hreport
          have hresult := judgeOnce_accepted hcheck configHash (some packHash) modelVerdict model
          generalize (judgeOnce request configHash (some packHash)
            (.ok (diagnoses, modelVerdict, model))).result = judge at hresult
          have hdiagnoses : judge.diagnoses = diagnoses := by rw [hresult]
          have hverdict : judge.verdict =
              some (diagnosisPass request.spec request.answer judge.diagnoses hits) := by
            rw [hresult]
          rw [← hdiagnoses] at hunqualified
          obtain ⟨e, he, hstatus, rfl, hpass⟩ :
              ∃ e, request.evaluate attempt traces judge = .ok e ∧ _ :=
            evaluate_accepted hidentified hparsed (houtput judge hdiagnoses) hhits hunqualified
              hgate (by rw [hresult]) (by rw [hresult]; rfl) hverdict
          refine ⟨_, _, e, rfl, he, hstatus, ?_⟩
          rw [hpass, hdiagnoses, Option.some.injEq, ← Bool.and_eq_true]
    · intro e h
      rcases hread with hparsed | hread
      · rw [recheckDiagnoses, hparsed] at h
        cases h
      · exact recheckDiagnoses_error hread h
    · intro attempt traces judge e h
      exact evaluate_error (hall _ rfl) h judge

end

namespace LongIndex

open Scenario

/-- The parts of the run that found the failed charges. -/
def request : JudgeInput where
  spec := { scenarioId := "charges", version := "1", kind := some .fault, targetId := "s" }
  answer := .v1 "charges" "1" (some {
      service := "payment", serviceAliases := [], operation := "charge", operationAliases := [] })
    (some { anyOf := [⟨"payment", "charge"⟩] })
  report := chargeReport
  delivered := fun eid => if eid = "e" then some chargeRecord else none
  authorized := fun ref => if ref = "w" then some charges else none
  outcome := {
    scenarioId := "charges", finalState := .completed, evidenceIds := ["e"]
    decision := "report_available", permissions := ["read_only"], humanInteraction := none
    handoffReasons := [], reportAvailable := true }

/-- The location `claims[11…1]`. -/
def ones (n : ℕ) : String := String.ofList ("claims[".toList ++ (List.replicate n '1' ++ [']']))

/-- A diagnosis in a claim whose index has 4301 digits. -/
def diagnosis : JudgedDiagnosis where
  location := ones 4301
  quote := "charge fails"
  factualCausal := true
  service := some "payment"
  operation := some "charge"
  citedEvidenceIds := ["e"]
  linkedClaim := none
  supported := true

theorem mapM_digit (n : ℕ) :
    (List.replicate n '1').mapM EvaluationTexts.digit = some (List.replicate n 1) := by
  induction n with
  | zero => rfl
  | succ n ih =>
    rw [List.replicate_succ, List.mapM_cons, ih]
    rfl

/-- The location is matched, and its index has so many digits. -/
theorem ofText_ones (n : ℕ) :
    Location.ofText? (ones (n + 1)) = some (.item .claims (List.replicate (n + 1) 1)) := by
  have hdigits : indexDigits "claims" ("claims[".toList ++ (List.replicate (n + 1) '1' ++ [']'])) =
      some (List.replicate (n + 1) 1) := by
    have hrest : ("claims".toList ++ ['[']).isPrefixOf?
        ("claims[".toList ++ (List.replicate (n + 1) '1' ++ [']'])) =
          some (List.replicate (n + 1) '1' ++ [']']) := rfl
    rw [indexDigits, hrest]
    simp only [Option.bind_eq_bind, Option.bind_some, List.getLast?_concat, List.dropLast_concat,
      true_and, mapM_digit]
    exact if_pos (List.cons_ne_nil _ _)
  have hlast : ("claims[".toList ++ (List.replicate (n + 1) '1' ++ [']'])).getLast? = some ']' := by
    rw [← List.append_assoc, List.getLast?_concat]
  have hsummary : "claims[".toList ++ (List.replicate (n + 1) '1' ++ [']']) ≠ "summary".toList := by
    intro h
    have hhead : ('c' : Char) = 's' := Option.some.inj (congrArg List.head? h)
    exact absurd hhead (by decide)
  unfold Location.ofText? ones
  rw [String.toList_ofList]
  dsimp only
  have hline : ¬ (some ']' : Option Char) = some '\n' := by decide
  rw [hlast, if_neg hline, if_neg hsummary]
  have hfound : (indexDigits ReportField.claims.name _).map (Location.item .claims) =
      some (.item .claims (List.replicate (n + 1) 1)) := congrArg _ hdigits
  rw [List.findSome?_cons_of_isSome (by rw [hfound]; rfl)]
  exact hfound

/-- Its index has 4301 digits. -/
theorem not_readable : ¬ Readable diagnosis := by
  intro h
  have hshort := h _ _ (ofText_ones 4300)
  rw [List.length_replicate] at hshort
  omega

/-- The check raises an exception it does not declare, and the observation blames the transport. -/
theorem long_index_raises :
    (judgeOnce request "config" (some "pack") (.ok ([diagnosis], true, "model"))).errorCode =
      some "JUDGE_TRANSPORT_ERROR" ∧ ¬ AgreesOn request [diagnosis] := by
  have hparsed : ∃ report, parsedReport (some request.report) = some report := by
    have hsome : (ReportV2.modelValidate chargePayload).isSome = true := by decide +kernel
    obtain ⟨report, hreport⟩ := Option.isSome_iff_exists.1 hsome
    exact ⟨report, parsedReport_charge.trans hreport⟩
  obtain ⟨report, hreport⟩ := hparsed
  have hraised := recheckDiagnoses_long hreport (List.mem_singleton_self diagnosis) not_readable
  constructor
  · have hchecked : judgeChecked request (.ok ([diagnosis], true, "model")) =
        .error (.check .tooManyDigits) := by
      rw [judgeChecked, ok_bind, hraised]
      rfl
    rw [judgeOnce, hchecked]
    rfl
  · exact fun h => recheckDiagnoses_nil hreport (h.recheck _ hraised)

end LongIndex

end OpsPilot
