import OpsPilot.System.CollectedRuns

/-!
# Truncated Runs

What `collection_truncated` says of the conclusions a Run has stored, against what made their rounds
final. A decision between a report that was refused and the round that concludes hides that the
bound made this round final: the attempt after the decision is not forced, while the rule reads the
row before.

* **`collectionTruncated_iff`**: the rule is right exactly where no decision came between.
-/

namespace OpsPilot

open Coverage

section

variable [FactTexts] [ReportTexts] [DigitTexts]

/-- The conclusion names the row. -/
def Names (response : Json) (step : StoredStep) : Prop :=
  (response.get "conclusion").get "source_step_id" = .str (Payload.uuidText step.stepId)

namespace CollectedRun

/-- The round that concludes was made final because at most one request was left, and not because a
report was refused before it. -/
def Truncated (σ : CollectedRun) (response : Json) : Prop :=
  ∃ id ∈ σ.bounded, (response.get "conclusion").get "source_step_id" = .str (Payload.uuidText id)

/-- The round that concludes is final, and the round before it made no call, was not rejected and was
not final, in an older control generation. -/
def PassedOver (σ : CollectedRun) (response : Json) : Prop :=
  ∃ front row back prior, roundRows σ.history.steps = front ++ row :: back ∧ Names response row ∧
    finalFlag row.toJson = some true ∧ front.getLast? = some prior ∧
    retried prior.toJson = true ∧ prior.controlGeneration ≠ row.controlGeneration

variable {σ : CollectedRun} {front back : List StoredStep} {row step : StoredStep}
  {response : Json}

omit [FactTexts] [ReportTexts] [DigitTexts] in
/-- The rule reads the rows of rounds. -/
theorem live_rows (steps : List StoredStep) :
    (live (steps.map StoredStep.toJson)).filter isRound =
      (roundRows steps).map StoredStep.toJson := by
  rw [live, roundRows, List.filter_filter, List.filter_map]
  refine congrArg _ (List.filter_congr fun step _ => ?_)
  have hstatus : step.toJson.get "status" =
      .str (if step.late then "late_result" else "response_committed") := rfl
  have hresponse : step.toJson.get "response" = step.response := rfl
  simp only [Function.comp_apply, StoredStep.isRound, isRound, hstatus, hresponse]
  cases step.late <;> simp

omit [FactTexts] [ReportTexts] [DigitTexts] in
theorem whole?_natCast (n : ℕ) : whole? (.num n) = some (n : ℤ) := by
  rw [whole?, if_pos (by simp [Rat.isInt])]
  simp

omit [ReportTexts] [DigitTexts] in
/-- The rule at a row of a round. -/
theorem collectionTruncated_row (h : σ.Sound) {used : ℕ} {source : Option UUID}
    (hrecords : RecordsConclusion used source response)
    (hrows : roundRows σ.history.steps = front ++ row :: back) (hnames : Names response row) :
    collectionTruncated (σ.history.input.getD .null) (σ.history.steps.map StoredStep.toJson)
        response =
      (finalFlag row.toJson).map fun final =>
        final && decide (σ.modelRequests ≤ used) &&
          !front.getLast?.any fun prior => retried prior.toJson := by
  have hnumbers : whole? ((σ.history.input.getD .null).get "model_requests") =
      some (σ.modelRequests : ℤ) ∧
      whole? ((response.get "conclusion").get "model_requests_used") = some (used : ℤ) := by
    rw [h.limit, hrecords.used]
    exact ⟨whole?_natCast _, whole?_natCast _⟩
  -- the row is the first one that the conclusion names
  have hindex : ((front ++ row :: back).map StoredStep.toJson).findIdx? (fun step =>
      (response.get "conclusion").get "source_step_id" = .str (stepIdText step)) =
        some front.length := by
    have hdistinct := h.distinct
    rw [hrows, List.map_append, List.nodup_append] at hdistinct
    rw [List.findIdx?_map, List.findIdx?_append, List.findIdx?_eq_none_iff.2, List.findIdx?_cons]
    · have hself : ((response.get "conclusion").get "source_step_id" =
          .str (stepIdText row.toJson)) := hnames
      simp [hself]
    · intro other hother
      rw [Function.comp_apply, decide_eq_false_iff_not]
      intro hsame
      refine hdistinct.2.2 _ (List.mem_map_of_mem hother) _ (List.mem_map_of_mem List.mem_cons_self) ?_
      exact Json.str.inj (hsame.symm.trans hnames)
  unfold collectionTruncated
  dsimp only
  rw [if_neg (by simp [hrecords.kind, hrecords.object]), hnumbers.1, hnumbers.2, live_rows, hrows]
  dsimp only
  rw [hindex]
  dsimp only
  have hrow : ((front ++ row :: back).map StoredStep.toJson)[front.length]? = some row.toJson := by
    simp
  have hprior : front ≠ [] →
      ((front ++ row :: back).map StoredStep.toJson)[front.length - 1]? =
        front.getLast?.map StoredStep.toJson := by
    intro hfront
    have hlast := List.length_pos_iff.2 hfront
    rw [List.getElem?_map, List.getElem?_append_left (by omega), List.getLast?_eq_getElem?]
  rw [hrow, Option.bind_some]
  cases finalFlag row.toJson with
  | none => rfl
  | some final =>
    dsimp only [Option.map_some]
    by_cases hshort : (used : ℤ) < σ.modelRequests ∨ final = false
    · rw [if_pos hshort]
      rcases hshort with hshort | hshort
      · rw [decide_eq_false (by omega), Bool.and_false, Bool.false_and]
      · rw [hshort, Bool.false_and, Bool.false_and]
    · rw [if_neg hshort]
      rw [not_or, Bool.not_eq_false] at hshort
      rw [hshort.2, decide_eq_true (by omega), Bool.true_and, Bool.true_and]
      rcases List.eq_nil_or_concat front with rfl | ⟨init, prior, rfl⟩
      · rfl
      · rw [if_neg (by simp), hprior (by simp), List.concat_eq_append, List.getLast?_concat]
        rfl

omit [ReportTexts] [DigitTexts] in
/-- A conclusion that names no row of a round says nothing. -/
theorem collectionTruncated_unnamed {steps : List StoredStep} {snapshot : Json}
    (h : ∀ row ∈ roundRows steps, ¬ Names response row) :
    collectionTruncated snapshot (steps.map StoredStep.toJson) response = none := by
  have hindex : ((roundRows steps).map StoredStep.toJson).findIdx? (fun step =>
      (response.get "conclusion").get "source_step_id" = .str (stepIdText step)) = none := by
    rw [List.findIdx?_map, List.findIdx?_eq_none_iff]
    intro row hrow
    rw [Function.comp_apply, decide_eq_false_iff_not]
    exact h row hrow
  unfold collectionTruncated
  dsimp only
  split
  · rfl
  · split
    · rw [live_rows, hindex]
    · rfl

/-- **The rule is right unless the round is passed over.** -/
theorem collectionTruncated_iff (hσ : collectSystem.Reachable σ) (hstep : step ∈ σ.history.steps)
    (hlate : step.late = false) (hkind : step.response.get "kind" = .str "conclusion") :
    (collectionTruncated (σ.history.input.getD .null) (σ.history.steps.map StoredStep.toJson)
          step.response = some true ↔ σ.Truncated step.response) ↔
      ¬ σ.PassedOver step.response := by
  have h := sound_of_reachable hσ
  obtain ⟨used, source, hrecords, hsource⟩ := h.concluded step hstep hlate hkind
  -- the row of a round that the conclusion names is the one of its source
  have hsame : ∀ {row : StoredStep} {id : UUID}, row ∈ roundRows σ.history.steps →
      (∃ other ∈ roundRows σ.history.steps, other.stepId = id) →
      (Payload.uuidText row.stepId = Payload.uuidText id) → row.stepId = id := by
    rintro row _ hrow ⟨other, hother, rfl⟩ htexts
    rw [List.inj_on_of_nodup_map h.distinct hrow hother htexts]
  cases source with
  | none =>
    -- without a source no row is named, and nothing is said
    have hnull : (step.response.get "conclusion").get "source_step_id" = .null := hrecords.source
    have hfalse : ¬ σ.Truncated step.response := by
      rintro ⟨id, -, hnames⟩
      rw [hnull] at hnames
      cases hnames
    have hpassed : ¬ σ.PassedOver step.response := by
      rintro ⟨front, row, back, prior, -, hnames, -⟩
      rw [Names, hnull] at hnames
      cases hnames
    rw [collectionTruncated_unnamed fun row _ hnames => by
      rw [Names, hnull] at hnames
      cases hnames]
    simp [hfalse, hpassed]
  | some id =>
    obtain ⟨⟨row, hrow, rfl⟩, hspent⟩ := hsource id rfl
    have hnames : Names step.response row := hrecords.source
    obtain ⟨front, back, hrows⟩ := List.append_of_mem hrow
    obtain ⟨final, reply, hround⟩ := h.recorded row hrow
    have hmarked := h.marked front row back hrows
    rw [hround.finalFlag, Option.some_inj] at hmarked
    -- what was made final by the bound is the row itself
    have htruncated : σ.Truncated step.response ↔ final = true ∧
        ¬ Forces front row.controlGeneration := by
      rw [← hmarked]
      constructor
      · rintro ⟨id, hid, hother⟩
        rw [hsame hrow (h.known id hid) (Json.str.inj (hnames.symm.trans hother))]
        exact hid
      · exact fun hid => ⟨row.stepId, hid, hnames⟩
    have hpassed : σ.PassedOver step.response ↔ final = true ∧ ∃ prior,
        front.getLast? = some prior ∧ retried prior.toJson = true ∧
          prior.controlGeneration ≠ row.controlGeneration := by
      constructor
      · rintro ⟨front', row', back', prior, hrows', hnames', hfinal, hprior⟩
        -- the row is named once
        have hmem : row' ∈ roundRows σ.history.steps := by rw [hrows']; simp
        obtain rfl := List.inj_on_of_nodup_map h.distinct hmem hrow
          (Json.str.inj (hnames'.symm.trans hnames))
        have hdistinct := (List.Nodup.of_map _ h.distinct)
        rw [hrows, List.nodup_append, List.nodup_cons] at hdistinct
        obtain ⟨rfl, -, -⟩ := (List.append_cons_inj_of_notMem
          (fun hin => hdistinct.2.2 _ hin _ List.mem_cons_self rfl) hdistinct.2.1.1).1
          (hrows.symm.trans hrows')
        exact ⟨by simpa [hround.finalFlag] using hfinal, prior, hprior⟩
      · rintro ⟨hfinal, prior, hprior⟩
        exact ⟨front, row, back, prior, hrows, hnames, by rw [hround.finalFlag, hfinal], hprior⟩
    have hlimit : final = true → ¬ Forces front row.controlGeneration → σ.modelRequests ≤ used :=
      fun hfinal hfree => hspent (hmarked.2 ⟨hfinal, hfree⟩)
    rw [collectionTruncated_row h hrecords hrows hnames, hround.finalFlag, htruncated, hpassed]
    cases final with
    | false => simp
    | true =>
      have hlimit := hlimit rfl
      unfold Forces at hlimit ⊢
      cases hlast : front.getLast? with
      | none =>
        have hlimit : σ.modelRequests ≤ used := hlimit (by simp [hlast])
        simp [hlimit]
      | some prior =>
        simp only [hlast, Option.some_inj, exists_eq_left'] at hlimit ⊢
        by_cases hretried : retried prior.toJson = true
        · -- a report was refused before: the rule says no, and the generations decide
          simp [hretried]
        · have hlimit : σ.modelRequests ≤ used := hlimit fun h => hretried h.2
          simp [hretried, hlimit]

end CollectedRun

end

/-! ## A round that is cut -/

section

variable [LoopTexts] [ReportTexts]

namespace Loop
open Stateful

/-- The request of a round. -/
def roundCall (s : LoopState) (final : Bool) (inputs : List RoundInput) (timeoutSeconds : ℚ) :
    ModelCall where
  messages := s.messages ++ withTrailing inputs (s.extra final)
  tools := s.tools final
  jsonMode := final
  maxTokens := s.request.limits.outputTokens
  timeoutSeconds
  model := s.request.acceptedResponseModel

/-- A round that needs no compaction and is answered by a reply without calls, cut at its length. -/
structure Cut (d : Driven) (a : RoundAnswers) (reply : ModelReply) (stepId : String) (t : ℚ) :
    Prop where
  left : ¬ d.state.remaining ≤ 0
  inputs : a.frozen = .ok []
  fits : d.state.needsCompaction (d.state.tools d.state.final)
    (withTrailing [] (d.state.extra d.state.final)) = false
  time : d.state.remainingTimeout a.reading = .ok t
  small : Small d.state (roundCall d.state d.state.final [] t)
  undisturbed : Undisturbed d a.call.first t
  answered : a.call.first.reply = .ok reply
  model : reply.responseModel = d.state.request.acceptedResponseModel
  calls : reply.plan d.state.final = (none, [])
  length : reply.finishReason = "length"
  committed : a.committed = .ok stepId

variable {d : Driven} {a : RoundAnswers} {reply : ModelReply} {stepId : String} {t : ℚ}

omit [ReportTexts] in
theorem Cut.roundRequest (h : Cut d a reply stepId t) :
    (roundRequest d.state.final a).result d =
      (.ok (d.state.final, roundCall d.state d.state.final [] t), d) := by
  have hinputs : (roundInputs d.state.final a).result d = (.ok [], d) := by
    simp [roundInputs, result_bind, Loop.state, beginRound, h.inputs, lift, Except.mapError,
      manageContext, h.fits]
  have hsame : (d.state.final || decide (d.state.remaining ≤ 1)) = d.state.final := by
    rw [LoopState.final]
    cases decide (d.state.remaining ≤ 1) <;> simp
  have hsmall : ¬ d.state.request.limits.requestBytes < (LoopTexts.serialize
      (requestBody (roundCall d.state d.state.final [] t))).utf8ByteSize := Nat.not_lt.2 h.small
  unfold roundCall at hsmall
  simp [Loop.roundRequest, result_bind, hinputs, Loop.state, hsame, h.time, lift, rejectOversized,
    stopOn, hsmall, roundCall]

omit [LoopTexts] in
/-- A reply that was cut is no report: a final round ends with it, another one is asked once more. -/
theorem roundVerdict_cut (s : LoopState) (final : Bool) (hlength : reply.finishReason = "length") :
    (s.roundVerdict false reply final none).1.isSome = final := by
  obtain ⟨feedback, hcut⟩ : ∃ feedback, validatedReport (reply.content.getD "")
      (some reply.finishReason) s.delivered s.request.evidenceContext s.request.authorizedTargets =
        .rejected .outputLength feedback := by
    rw [hlength]
    exact ⟨_, rfl⟩
  simp only [LoopState.roundVerdict, hcut, Bool.false_eq_true, if_false]
  cases final <;> rfl

theorem roundReply_cut {final : Bool} {dispatched : ModelCall}
    (hcalls : reply.plan final = (none, [])) (hlength : reply.finishReason = "length")
    (hcommitted : a.committed = .ok stepId) (d : Driven) :
    ∃ settled e, (roundReply final reply dispatched a).result d = (.ok settled, e) ∧
      e.state.used = d.state.used ∧ settled.isSome = final := by
  simp only [roundReply, hcalls, calibrate, update, hcommitted, lift, Except.mapError, Loop.state,
    result_bind, result_modify, result_pure, result_read, ne_eq, not_true_eq_false, decide_false,
    if_true]
  split
  · next settled hverdict =>
    refine ⟨some settled, _, rfl, rfl, ?_⟩
    rw [← hverdict]
    exact roundVerdict_cut _ final hlength
  · next hverdict =>
    refine ⟨none, _, rfl, rfl, ?_⟩
    rw [← hverdict]
    exact roundVerdict_cut _ final hlength

/-- It is stored as it is; if it was to be final it settles the attempt. -/
theorem Cut.drive (h : Cut d a reply stepId t) :
    turnRow d a = some (d.state.final, reply, stepId) ∧
      ∃ settled e, (drive a).result d = (.ok settled, e) ∧ e.state.used = d.state.used + 1 ∧
        settled.isSome = d.state.final := by
  have hcall : (callModel (roundCall d.state d.state.final [] t) d.state.final false a.call).result
      d = (.ok (some (reply, { roundCall d.state d.state.final [] t with timeoutSeconds := t })), _) :=
    callModel_ok h.undisturbed h.answered h.model
  constructor
  · simp [turnRow, h.left, committedRow, result_bind, h.roundRequest, hcall, calibrate, update, lift,
      h.committed, Except.mapError, result_map, Except.map]
  · simp only [Loop.drive, result_bind, Loop.state, result_read, h.left, if_false, Loop.round,
      h.roundRequest, hcall]
    exact roundReply_cut h.calls h.length h.committed _

end Loop

end

/-! ## A report that is resumed -/

namespace ResumedReport

open Superscript
open Json (dumps)

/-- No text here is a report or a timestamp. -/
scoped instance reportTexts : ReportTexts where
  decodeError _ := "Expecting value: line 1 column 1 (char 0)"
  schemaErrors _ := []
  fromisoformat _ := none

/-- JSON texts; no text is redacted, hashed or an identifier here. -/
scoped instance factTexts : FactTexts where
  render variant _ := variant
  redactCredentials text := text
  canonical value := String.ofList (dumps ⟨[','], [':'], fun q => (toString q.num).toList⟩ value)
  sha256 text := text
  str _ := ""
  serialize value :=
    String.ofList (dumps ⟨[',', ' '], [':', ' '], fun q => (toString q.num).toList⟩ value)
  unprintable _ := false
  isUuid _ := false

/-- A reply that was cut. -/
def cutReply : ModelReply where
  content := some "Checkout errors since"
  reasoningContent := none
  toolCalls := []
  finishReason := "length"
  responseModel := "deepseek-flash"
  promptTokens := .null

/-- The messages the Run starts with. -/
def opening : List Json :=
  (initialMessages ⟨"Why is checkout slow?", 2, "flash", .obj [], .null⟩ none).map Message.toJson

/-- The messages after the first round. -/
def resumed : List Json := opening ++ [cutReply.assistant]

/-- The messages of the final report. -/
def reportMessages : List Json :=
  [userMessage finalReportInstruction, userMessage (runCoverageMessage [])]

/-- A request with these messages. -/
def sentCall (messages : List Json) (final : Bool) : ModelCall where
  messages := messages ++ if final then reportMessages else []
  tools := if final then none else some []
  jsonMode := final
  maxTokens := 65536
  timeoutSeconds := 360
  model := "deepseek-flash"

/-- The bytes of a request. -/
def sentBytes (messages : List Json) (final : Bool) : ℕ :=
  (LoopTexts.serialize (requestBody (sentCall messages final))).utf8ByteSize

/-- The estimate of a request. -/
def sentTokens (messages : List Json) (final : Bool) : ℕ :=
  estimateTokens (sentCall messages final).messages (sentCall messages final).tools []

/-- Limits with room for both requests. -/
def limits : RunLimits :=
  FilledWindow.windowLimits (2 * (sentTokens opening false + sentTokens resumed true))
    (sentBytes opening false + sentBytes resumed true)

theorem two_le_requests : 2 ≤ limits.modelRequests := by
  show 2 ≤ 100
  decide

theorem question_ne : "Why is checkout slow?" ≠ "" := by decide

theorem variant_ne : "flash" ≠ "" := by decide

theorem target_ne : none ≠ some "" := Option.some_ne_none "" |>.symm

theorem facts_valid : scopeFactsValid (.obj []) = true := rfl

/-- The input of the Run: two requests, and no tools. -/
def input : InputSnapshot where
  question := "Why is checkout slow?"
  modelRequests := 2
  limits
  toolSchemas := []
  evidenceContext := none
  variantId := "flash"
  boundTargetId := none
  scopeFacts := []
  question_ne
  modelRequests_pos := Nat.two_pos
  modelRequests_le := two_le_requests
  variantId_ne := variant_ne
  boundTargetId_ne := target_ne
  scopeFacts_valid := facts_valid

theorem requests_bounded : 0 < 2 ∧ 2 ≤ limits.modelRequests := ⟨Nat.two_pos, two_le_requests⟩

/-- The working set of an attempt with these messages. -/
def openState (messages : List Json) (nextRound used : ℕ) : LoopState where
  request :=
    { toolSchemas := []
      modelRequests := 2
      evidenceContext := .null
      authorizedTargets := ∅
      boundTargetId := none
      deadline := 3600
      acceptedResponseModel := "deepseek-flash"
      limits
      bounded := requests_bounded }
  messages
  delivered := []
  evidenceIds := []
  nextRound
  used
  priorActive := 60
  attemptStarted := 0
  prefixLen := 2
  calibration := ⟨1, one_le_factor⟩
  compactions := 0
  secondsUsed := 0
  toolSecondsAtOpen := 0
  forceFinal := false
  retryFeedback := ""
  seenToolCalls := []

theorem nothing_same : ∀ inputs : List RoundInput, Except.ok [] = Except.ok (ε := String) inputs →
    ∀ rows : List RoundInput, Except.ok [] = Except.ok (ε := String) rows →
      inputWatermark rows = inputWatermark inputs → rows = inputs := by
  rintro _ ⟨⟩ _ ⟨⟩ -
  rfl

/-- A round without inputs whose reply is cut. -/
def cutRound (stepId : UUID) : RoundAnswers where
  frozen := .ok []
  compaction :=
    { reading := ⟨0, 0, 0⟩
      call := ⟨FilledWindow.promptAnswer (.ok cutReply), FilledWindow.promptAnswer (.ok cutReply)⟩
      committed := none }
  refrozen := .ok []
  same := nothing_same
  reading := ⟨0, 0, 0⟩
  call := ⟨FilledWindow.promptAnswer (.ok cutReply), FilledWindow.promptAnswer (.ok cutReply)⟩
  committed := .ok (Payload.uuidText stepId)
  tools _ := ⟨none, none, .null, none⟩

variable {messages : List Json} {nextRound used : ℕ} {final : Bool}

theorem openState_fresh (hused : used < 2) :
    FilledWindow.Fresh (2 * (sentTokens opening false + sentTokens resumed true))
      (sentBytes opening false + sentBytes resumed true) (openState messages nextRound used) :=
  ⟨rfl, rfl, rfl, rfl, rfl, .inl rfl, by show used ≤ 7; omega⟩

theorem openState_extra : withTrailing [] ((openState messages nextRound used).extra final) =
    if final then reportMessages else [] := by
  cases final <;> rfl

theorem openState_projected : (openState messages nextRound used).projected
    ((openState messages nextRound used).tools final)
    (withTrailing [] ((openState messages nextRound used).extra final)) =
      sentTokens messages final := by
  rw [LoopState.projected, openState_extra, ← estimateTokens_extra]
  exact mul_one _

theorem openState_call : Loop.roundCall (openState messages nextRound used) final [] 360 =
    sentCall messages final := by
  rw [Loop.roundCall, openState_extra]
  rfl

/-- A request within the bytes of the limits. -/
theorem small_of_fresh {budget bytes : ℕ} {s : LoopState} (h : FilledWindow.Fresh budget bytes s)
    (hbytes : sentBytes messages final ≤ bytes) : Loop.Small s (sentCall messages final) := by
  rw [Loop.Small, h.limits, FilledWindow.windowLimits_requestBytes]
  exact Nat.le_succ_of_le hbytes

/-- An attempt that sends one of the two requests is cut. -/
theorem cut_round (hfinal : (openState messages nextRound used).final = final) (hused : used < 2)
    (hlarge : sentTokens messages final ≤ sentTokens opening false + sentTokens resumed true)
    (hsmall : sentBytes messages final ≤ sentBytes opening false + sentBytes resumed true)
    (stepId : UUID) :
    Loop.Cut ⟨openState messages nextRound used, []⟩ (cutRound stepId) cutReply
      (Payload.uuidText stepId) 360 := by
  have hfresh : FilledWindow.Fresh (2 * (sentTokens opening false + sentTokens resumed true))
      (sentBytes opening false + sentBytes resumed true) (openState messages nextRound used) :=
    openState_fresh hused
  constructor
  case left =>
    show ¬ ((2 : ℕ) : ℤ) - used ≤ 0
    omega
  case inputs => rfl
  case fits =>
    rw [hfinal, LoopState.needsCompaction, openState_projected, hfresh.limits,
      FilledWindow.windowLimits_budget, decide_eq_false_iff_not]
    have hlarge : (sentTokens messages final : ℚ) ≤
        (sentTokens opening false + sentTokens resumed true : ℕ) := Nat.cast_le.2 hlarge
    have hnonneg : (0 : ℚ) ≤ (sentTokens opening false + sentTokens resumed true : ℕ) :=
      Nat.cast_nonneg _
    push_cast at hlarge hnonneg ⊢
    linarith
  case time => exact hfresh.remainingTimeout
  case small =>
    rw [hfinal, openState_call]
    exact small_of_fresh hfresh hsmall
  case undisturbed => exact hfresh.undisturbed [] _
  case answered => rfl
  case model => rfl
  case calls =>
    rw [hfinal]
    cases final <;> rfl
  case length => rfl
  case committed => rfl

/-! ### The Run -/

/-- The Run with these rows. -/
def runWith (controlGeneration : ℕ) (steps : List StoredStep) (used : ℕ) (bounded : List UUID) :
    CollectedRun where
  history := ⟨"run", some input.asJson, controlGeneration, steps, [], false⟩
  modelRequests := 2
  used
  attempt := none
  bounded

/-- The row of a round, the first of generation 0, the second of generation 1. -/
def cutRow (stepId : UUID) (final : Bool) (sequence : ℕ) (generation : ℕ) (logicalKey : String) :
    StoredStep where
  stepId
  runId := "run"
  sequence
  late := false
  logicalKey
  controlGeneration := generation
  response := roundResponse final cutReply
  toolResults := []

/-- The round before the decision. -/
def firstRow : StoredStep := cutRow 1 false 0 0 "ctx0:round-1"

/-- The round after it. -/
def lastRow : StoredStep := cutRow 2 true 1 1 "ctx0:round-2"

/-- The response of the conclusion. -/
def conclusionResponse : Json :=
  .obj [("conclusion", .obj [("model_requests_used", .num (2 : ℕ)),
    ("source_step_id", .str (Payload.uuidText 2))]), ("kind", .str "conclusion")]

/-- The conclusion. -/
def conclusionRow : StoredStep where
  stepId := 3
  runId := "run"
  sequence := 2
  late := false
  logicalKey := "conclusion"
  controlGeneration := 1
  response := conclusionResponse
  toolResults := []

theorem records_cut (final : Bool) : RecordsRound final cutReply (roundResponse final cutReply) := by
  cases final <;> exact ⟨rfl, fun _ _ => rfl, rfl⟩

theorem records_conclusion : RecordsConclusion 2 (some 2) conclusionResponse :=
  ⟨rfl, rfl, rfl, rfl⟩

theorem inputOf_asJson {history : StoredHistory} {x : InputSnapshot}
    (hinput : history.input = some x.asJson) : inputOf history none = .ok x := by
  simp only [inputOf, hinput, InputSnapshot.fromJson_asJson, Except.mapError]

/-- Without rows a transcript is the opening. -/
theorem rebuild_nil {history : StoredHistory} {x : InputSnapshot}
    (hinput : history.input = some x.asJson) (hsteps : history.steps = []) :
    rebuildTranscript history history.runId ∅ none = .ok (scopeOf history x ∅).start := by
  rw [rebuildTranscript, refuse_bind_of_not (not_not_intro rfl), inputOf_asJson hinput, ok_bind,
    hsteps]
  rfl

/-- The row of a cut round that a decision has passed over. -/
theorem rebuildRound_cut {scope : RebuildScope} {s : RebuildState} {step : StoredStep} {n : ℕ}
    (hkey : parseStepKey step.logicalKey = .ok (some (initialSegment, n)))
    (hsegment : s.segment = initialSegment)
    (hold : step.controlGeneration ≠ scope.history.controlGeneration)
    (hresponse : step.response = roundResponse false cutReply) : ∃ t,
    rebuildRound scope s step = .ok t ∧ t.pendingPublish = s.pendingPublish ∧
      (t.lastRound.filter fun round => !round.concluded) = none ∧
      t.lastStepId = some step.stepId ∧ t.maxRound = max s.maxRound n ∧
      t.messages = s.messages ++ [cutReply.assistant] ∧ t.delivered = s.delivered := by
  have hroundKey : roundKey step.logicalKey = .ok (initialSegment, n) := by
    rw [roundKey, hkey]
  have hassistant : (roundResponse false cutReply).get "assistant" = cutReply.assistant := rfl
  have hcalls : validateToolCalls cutReply.assistant = .ok [] := rfl
  have hunhashed : ∀ sent inputs delivered feedback,
      snapshotHashMatches (roundResponse false cutReply) sent inputs delivered feedback = true :=
    fun _ _ _ _ => rfl
  have hcontent : (cutReply.assistant.get "content").text? = some "Checkout errors since" := rfl
  have hreasoning : cutReply.assistant.get "reasoning_content" = .null := rfl
  rw [rebuildRound, hroundKey, ok_bind, refuse_bind_of_not (not_not_intro hsegment.symm), hresponse]
  dsimp only
  rw [refuse_bind_of_not (by rw [hunhashed]; simp), hassistant, refuse_bind_of_not (by decide),
    hcalls]
  refine ⟨_, rfl, rfl, ?_, rfl, rfl, rfl, rfl⟩
  simp [committedRound, hold]

/-- After the decision the first round is history. -/
theorem rebuild_cut {history : StoredHistory} {x : InputSnapshot} {step : StoredStep}
    {n : ℕ} (hinput : history.input = some x.asJson) (hsteps : history.steps = [step])
    (hlate : step.late = false) (hrun : step.runId = history.runId)
    (hkey : parseStepKey step.logicalKey = .ok (some (initialSegment, n)))
    (hold : step.controlGeneration ≠ history.controlGeneration)
    (hresponse : step.response = roundResponse false cutReply) : ∃ t,
    rebuildTranscript history history.runId ∅ none = .ok t ∧ t.pendingPublish = none ∧
      (t.lastRound.filter fun round => !round.concluded) = none ∧
      t.lastStepId = some step.stepId ∧ t.maxRound = n ∧
      t.messages = (scopeOf history x ∅).opening ++ [cutReply.assistant] ∧
      t.delivered = (scopeOf history x ∅).start.delivered := by
  have hsorted : sortedSteps [step] = [step] := rfl
  have hkind : (roundResponse false cutReply).get "kind" = .null := rfl
  have hobject : (roundResponse false cutReply).isObject = true := rfl
  obtain ⟨t, ht, hpending, hlast, hid, hround, hmessages, hdelivered⟩ : ∃ t,
      rebuildRound (scopeOf history x ∅) { (scopeOf history x ∅).start with
        calibration := calibrationFromRow step.response (scopeOf history x ∅).start.calibration }
          step = .ok t ∧ _ := rebuildRound_cut hkey rfl hold hresponse
  refine ⟨t, ?_, hpending, hlast, hid, ?_, hmessages, hdelivered⟩
  · rw [rebuildTranscript, refuse_bind_of_not (not_not_intro rfl), inputOf_asJson hinput, ok_bind,
      hsteps, hsorted]
    dsimp only
    rw [List.foldlM_cons, rebuildStep, if_neg (by rw [hlate]; simp), refuse_bind_of_not, hresponse,
      hkind]
    · dsimp only
      rw [if_neg (by simp), refuse_bind_of_not (by simp), ← hresponse, ht]
      rfl
    · rw [hresponse, hobject]
      simp [scopeOf, hrun]
  · exact hround.trans (Nat.zero_max n)

/-- A turn whose reply is cut. -/
theorem turned_cut (σ : CollectedRun) {α : LoopAttempt} (last : Option UUID) {stepId : UUID}
    (logicalKey : String) (response : Json) {a : RoundAnswers} {reply : ModelReply} {t : ℚ}
    (h : Loop.Cut α.driven a reply (Payload.uuidText stepId) t) : ∃ β,
      σ.turned α last stepId logicalKey response a =
        { σ.store (σ.newRow stepId logicalKey response) with
          used := α.driven.state.used + 1
          attempt := some (β, some stepId)
          bounded := if α.driven.state.final && !α.driven.state.forceFinal then
            stepId :: σ.bounded else σ.bounded } ∧
      β.driven.state.used = α.driven.state.used + 1 ∧ β.outcome.isSome = α.driven.state.final := by
  obtain ⟨hrow, settled, e, hdrive, hused, hsettled⟩ := h.drive
  have hadvance : α.advance a = ⟨e, settled⟩ := by
    rw [LoopAttempt.advance, hdrive]
  refine ⟨⟨e, settled⟩, ?_, hused, hsettled⟩
  rw [CollectedRun.turned, hrow, hadvance]
  dsimp only
  rw [hused]

/-- An attempt that has not sent a request. -/
def openedAttempt (messages : List Json) (nextRound used : ℕ) : LoopAttempt :=
  ⟨⟨openState messages nextRound used, []⟩, none⟩

/-- The Run with an attempt at work. -/
def workingRun (controlGeneration : ℕ) (steps : List StoredStep) (used : ℕ) (bounded : List UUID)
    (α : LoopAttempt) (last : Option UUID) : CollectedRun :=
  { runWith controlGeneration steps used bounded with attempt := some (α, last) }

section

variable {controlGeneration : ℕ} {steps : List StoredStep} {bounded : List UUID}
  {last : Option UUID} {stepId : UUID}

/-- A Run whose rows leave nothing open is resumed. -/
theorem resumes {t : RebuildState}
    (hσ : collectSystem.Reachable (runWith controlGeneration steps used bounded))
    (ht : rebuildTranscript (runWith controlGeneration steps used bounded).history "run" ∅ none =
      .ok t)
    (hpending : t.pendingPublish = none)
    (hclosed : (t.lastRound.filter fun round => !round.concluded) = none)
    (hdelivered : t.delivered = []) :
    collectSystem.Reachable (workingRun controlGeneration steps used bounded
      (openedAttempt t.messages (t.maxRound + 1) used) t.lastStepId) := by
  have hopen : openAttempt t (openState t.messages (t.maxRound + 1) used) =
      openedAttempt t.messages (t.maxRound + 1) used := by
    rw [openAttempt, hclosed, openedAttempt]
  rw [← hopen]
  exact hσ.step (.resume rfl rfl ht hpending ⟨rfl, le_rfl, rfl, hdelivered.symm, rfl, rfl, rfl⟩)

/-- A turn of it whose reply is cut. -/
theorem turns (hσ : collectSystem.Reachable (workingRun controlGeneration steps used bounded
      (openedAttempt messages nextRound used) last))
    (hfinal : (openState messages nextRound used).final = final) (hused : used < 2)
    (hlarge : sentTokens messages final ≤ sentTokens opening false + sentTokens resumed true)
    (hsmall : sentBytes messages final ≤ sentBytes opening false + sentBytes resumed true)
    (hfresh : (runWith controlGeneration steps used bounded).Fresh stepId) (logicalKey : String) :
    ∃ β : LoopAttempt, collectSystem.Reachable (workingRun controlGeneration
        (steps ++ [cutRow stepId final steps.length controlGeneration logicalKey]) (used + 1)
        (if final then stepId :: bounded else bounded) β (some stepId)) ∧
      β.driven.state.used = used + 1 ∧ β.outcome.isSome = final := by
  have hcut : Loop.Cut (openedAttempt messages nextRound used).driven (cutRound stepId) cutReply
      (Payload.uuidText stepId) 360 := cut_round hfinal hused hlarge hsmall stepId
  have hrow : turnRow (openedAttempt messages nextRound used).driven (cutRound stepId) =
      some (final, cutReply, Payload.uuidText stepId) := hfinal ▸ hcut.drive.1
  obtain ⟨β, hturned, hmore, houtcome⟩ := turned_cut (workingRun controlGeneration steps used
    bounded (openedAttempt messages nextRound used) last) last logicalKey
      (roundResponse final cutReply) hcut
  have hevent : CollectedRun.Step (workingRun controlGeneration steps used bounded
      (openedAttempt messages nextRound used) last)
      (.turn stepId logicalKey (roundResponse final cutReply) (cutRound stepId))
      ((workingRun controlGeneration steps used bounded (openedAttempt messages nextRound used)
        last).turned (openedAttempt messages nextRound used) last stepId logicalKey
          (roundResponse final cutReply) (cutRound stepId)) := by
    refine .turn rfl rfl hfresh fun final' reply' text' hrow' => ?_
    obtain ⟨rfl, rfl, rfl⟩ : final = final' ∧ cutReply = reply' ∧
        Payload.uuidText stepId = text' := by
      simpa using hrow.symm.trans hrow'
    exact ⟨rfl, records_cut final⟩
  refine ⟨β, ?_, hmore, houtcome.trans hfinal⟩
  have hreached := hσ.step hevent
  rw [hturned, show (openedAttempt messages nextRound used).driven.state.final = final from hfinal]
    at hreached
  cases final <;> exact hreached

end

/-! ### The decision -/

/-- The first round, before the bound. -/
theorem run_first : ∃ β, collectSystem.Reachable (workingRun 0 [firstRow] 1 [] β (some 1)) := by
  have hinit : collectSystem.Init (runWith 0 [] 0 []) := ⟨rfl, rfl, rfl, rfl, rfl⟩
  have ht : rebuildTranscript (runWith 0 [] 0 []).history "run" ∅ none =
      .ok (scopeOf (runWith 0 [] 0 []).history input ∅).start := rebuild_nil rfl rfl
  have hresumed : collectSystem.Reachable (workingRun 0 [] 0 [] (openedAttempt opening 1 0) none) :=
    resumes (.init hinit) ht rfl rfl rfl
  have hfresh : (runWith 0 [] 0 []).Fresh 1 := fun step hstep => by cases hstep
  obtain ⟨β, hβ, -⟩ := turns hresumed (by decide) Nat.two_pos (Nat.le_add_right _ _)
    (Nat.le_add_right _ _) hfresh "ctx0:round-1"
  exact ⟨β, hβ⟩

/-- The last round, made final by the bound. -/
theorem run_last : ∃ β : LoopAttempt,
    collectSystem.Reachable (workingRun 1 [firstRow, lastRow] 2 [2] β (some 2)) ∧
      β.driven.state.used = 2 ∧ β.outcome.isSome = true := by
  obtain ⟨α, hα⟩ := run_first
  have hdecided : collectSystem.Reachable (runWith 1 [firstRow] 1 []) := hα.step .decision
  obtain ⟨t, ht, hpending, hclosed, hlast, hround, hmessages, hdelivered⟩ : ∃ t,
      rebuildTranscript (runWith 1 [firstRow] 1 []).history "run" ∅ none = .ok t ∧ _ :=
    rebuild_cut (x := input) rfl rfl rfl rfl (n := 1) (by decide) (by decide) rfl
  have hresumed : collectSystem.Reachable
      (workingRun 1 [firstRow] 1 [] (openedAttempt resumed 2 1) (some 1)) := by
    have hresumed := resumes hdecided ht hpending hclosed hdelivered
    rw [hlast, hround, hmessages] at hresumed
    exact hresumed
  have hfresh : (runWith 1 [firstRow] 1 []).Fresh 2 := by
    rintro step hstep
    obtain rfl := List.mem_singleton.1 hstep
    decide
  exact turns hresumed (by decide) (by decide) (Nat.le_add_left _ _) (Nat.le_add_left _ _) hfresh
    "ctx0:round-2"

/-- The Run, concluded. -/
theorem run_concluded :
    collectSystem.Reachable (runWith 1 [firstRow, lastRow, conclusionRow] 2 [2]) := by
  obtain ⟨β, hβ, hused, houtcome⟩ := run_last
  obtain ⟨settled, hsettled⟩ := Option.isSome_iff_exists.1 houtcome
  have hrecords : RecordsConclusion β.driven.state.used (some 2) conclusionResponse := by
    rw [hused]
    exact records_conclusion
  have hevent : CollectedRun.Step (workingRun 1 [firstRow, lastRow] 2 [2] β (some 2))
      (.conclude 3 "conclusion" conclusionResponse)
      (runWith 1 [firstRow, lastRow, conclusionRow] 2 [2]) := .conclude rfl hsettled hrecords
  exact hβ.step hevent

/-- **A report that was refused before a decision hides the bound.** The last round of the Run was
made final because one request was left; the rule reads a retry from the row before. -/
theorem resumed_report_missed : ¬ ∀ σ, collectSystem.Reachable σ → ∀ step ∈ σ.history.steps,
    step.late = false → step.response.get "kind" = .str "conclusion" →
      (collectionTruncated (σ.history.input.getD .null) (σ.history.steps.map StoredStep.toJson)
        step.response = some true ↔ σ.Truncated step.response) := by
  intro hall
  have htruncated : (runWith 1 [firstRow, lastRow, conclusionRow] 2 [2]).Truncated
      conclusionResponse := ⟨2, List.mem_singleton_self 2, rfl⟩
  have hmissed := (hall _ run_concluded conclusionRow (by simp [runWith]) rfl rfl).2 htruncated
  have hrows : roundRows (runWith 1 [firstRow, lastRow, conclusionRow] 2 [2]).history.steps =
      [firstRow] ++ lastRow :: [] := rfl
  have hrow : collectionTruncated (input.asJson)
      ([firstRow, lastRow, conclusionRow].map StoredStep.toJson) conclusionResponse = _ :=
    CollectedRun.collectionTruncated_row (sound_of_reachable run_concluded) records_conclusion hrows rfl
  have hfinal : finalFlag lastRow.toJson = some true := (records_cut true).finalFlag
  have hretried : retried firstRow.toJson = true :=
    (records_cut false).retried_iff.2 ⟨rfl, rfl⟩
  have hsaid := hrow.symm.trans hmissed
  simp [hfinal, hretried] at hsaid

/-- The round is passed over. -/
theorem resumed_report_passed_over :
    (collectionTruncated ((runWith 1 [firstRow, lastRow, conclusionRow] 2 [2]).history.input.getD
        .null) ((runWith 1 [firstRow, lastRow, conclusionRow] 2 [2]).history.steps.map
          StoredStep.toJson) conclusionRow.response = some true ↔
      (runWith 1 [firstRow, lastRow, conclusionRow] 2 [2]).Truncated conclusionRow.response) ↔
      ¬ (runWith 1 [firstRow, lastRow, conclusionRow] 2 [2]).PassedOver conclusionRow.response :=
  CollectedRun.collectionTruncated_iff run_concluded (by simp [runWith]) rfl rfl

end ResumedReport

end OpsPilot
