import OpsPilot.Investigation.Loop

/-!
# The context window

Whether the requests of the loop fit the context window. A round manages its context before it sends
its request, and what it checks is the request it is about to send, in all cases but one: a
compaction may take so many of the remaining requests that the round becomes the final report, and
its messages are added without another check.

* `SentRequest.Fits`: the calibrated estimate of a request, with the output it reserves, is within
  the window.
* `LoopState.Overtaken`: a round becomes the final report by its own compaction, and asks for it
  with more than the tool schemas it leaves out.
* **`requests_fit`**: as long as no round is overtaken, every request but those of compactions fits.
-/

namespace OpsPilot

open Stateful

/-- The physical requests a logical request takes: another one if the first fails. -/
def CallAnswer.taken (a : CallAnswer) : ℕ :=
  match a.first.reply with
  | .ok _ => 1
  | .error _ => 2

variable {code : String} {a : RoundAnswers} {inputs : List RoundInput}

section

variable [LoopTexts]

/-- The calibrated estimate of the messages sent plus the reserved output tokens is at most the
context window. -/
def SentRequest.Fits (limits : RunLimits) (r : SentRequest) : Prop :=
  estimateTokens r.call.messages r.call.tools [] * r.calibration.1 + r.call.maxTokens ≤
    limits.contextTokens

/-- The requests sent fit, but for those of compactions. -/
structure Driven.Sound (limits : RunLimits) (d : Driven) : Prop where
  limits_eq : d.state.request.limits = limits
  fits : ∀ r ∈ d.sent, r.compaction = false → r.Fits limits

/-- A round that is not final needs a compaction, which leaves it no request but the final report;
and the messages of the report are more than the tool schemas they take the place of. -/
def LoopState.Overtaken (s : LoopState) (a : RoundAnswers) : Prop :=
  s.final = false ∧
    (∃ inputs, a.frozen = .ok inputs ∧
      s.needsCompaction (s.tools false) (withTrailing inputs []) = true) ∧
    s.remaining ≤ a.compaction.call.taken + 1 ∧
    toolTokens (s.tools false) < (s.finalMessages.map messageTokens).sum

/-! ## What fits -/

namespace LoopState

variable {s : LoopState} {tools : Option (List Json)} {extra : List Json}

theorem projected_nonneg : 0 ≤ s.projected tools extra :=
  mul_nonneg (Nat.cast_nonneg _) (zero_le_one.trans s.calibration.2)

/-- Below the threshold of a compaction the budget is kept: a budget that is not positive lets
nothing pass. -/
theorem projected_le_of_needsCompaction (h : s.needsCompaction tools extra = false) :
    s.projected tools extra ≤ s.request.limits.budget := by
  have hle : s.projected tools extra ≤ s.request.limits.budget * (19 / 20 : ℚ) :=
    not_lt.1 (of_decide_eq_false h)
  have hnonneg : 0 ≤ s.projected tools extra := projected_nonneg
  linarith

/-- A request within the budget fits. -/
theorem fits_of_projected (h : s.projected tools extra ≤ s.request.limits.budget)
    {call : ModelCall} (hmessages : call.messages = s.messages ++ extra)
    (htools : call.tools = tools) (hmax : call.maxTokens = s.request.limits.outputTokens)
    (compaction : Bool) :
    SentRequest.Fits s.request.limits ⟨call, s.calibration, compaction⟩ := by
  have hbudget : (s.request.limits.budget : ℚ) =
      s.request.limits.contextTokens - s.request.limits.outputTokens := by
    simp [RunLimits.budget]
  rw [SentRequest.Fits, hmessages, htools, hmax, estimateTokens_extra]
  rw [projected, hbudget] at h
  linarith

end LoopState

/-! ## One request -/

namespace Loop

variable {limits : RunLimits} {d e : Driven} {n : ℕ} {call : ModelCall} {final compaction : Bool}

/-- A change of the working set within the same request keeps what was sent. -/
theorem update_sound {f : LoopState → LoopState} (hf : ∀ s, (f s).request = s.request) :
    Keeps (Driven.Sound limits) (update f) :=
  Keeps.modify fun d hd => ⟨(congrArg _ (hf d.state)).trans hd.limits_eq, hd.fits⟩

/-- What `n` physical requests leave of an attempt. -/
structure Asked (limits : RunLimits) (d : Driven) (n : ℕ) (e : Driven) : Prop where
  sound : e.Sound limits
  request : e.state.request = d.state.request
  delivered : e.state.delivered = d.state.delivered
  feedback : e.state.retryFeedback = d.state.retryFeedback
  calibration : e.state.calibration = d.state.calibration
  used : e.state.used = d.state.used + n

theorem Asked.of_eq (hd : d.Sound limits) (h : e = d) : Asked limits d 0 e := by
  subst h
  exact ⟨hd, rfl, rfl, rfl, rfl, rfl⟩

/-- Charging seconds is no request. -/
theorem charge_asked {seconds : LoopState → ℚ} :
    Keeps (Asked limits d n) (update fun s => { s with secondsUsed := seconds s }) :=
  Keeps.modify fun _ h => ⟨⟨h.sound.limits_eq, h.sound.fits⟩, h.request, h.delivered, h.feedback,
    h.calibration, h.used⟩

/-- A request that fails is no reply. -/
theorem requestFailed_asked {last : Bool} {seconds : ℚ} {a : RequestAnswer} :
    Ensures (Asked limits d n) (requestFailed code final last seconds a)
      (fun r e => Asked limits d n e ∧ ∀ reply dispatched, r ≠ .reply reply dispatched)
      (fun _ => Asked limits d n) := by
  unfold requestFailed
  refine Keeps.stopOn.before (fun _ _ => id) fun _ => ?_
  refine charge_asked.before (fun _ _ => id) fun _ => ?_
  refine Keeps.read.before (fun _ _ => id) fun s => ?_
  refine Ensures.ite (fun _ => Ensures.pure fun _ h => ⟨h, by simp⟩) fun _ => ?_
  exact Ensures.ite (fun _ => Ensures.throw fun _ => id)
    fun _ => Ensures.pure fun _ h => ⟨h, by simp⟩

/-- A request that is answered is a reply. -/
theorem requestAnswered_asked {reply : ModelReply} {a : RequestAnswer} :
    Ensures (Asked limits d n) (requestAnswered reply call a)
      (fun r e => Asked limits d n e ∧ r = .reply reply call) (fun _ => Asked limits d n) := by
  unfold requestAnswered
  refine Keeps.stopOn.before (fun _ _ => id) fun _ => ?_
  refine charge_asked.before (fun _ _ => id) fun _ => ?_
  refine Keeps.read.before (fun _ _ => id) fun s => ?_
  exact Ensures.ite (fun _ => Ensures.pure fun _ h => ⟨h, rfl⟩)
    fun _ => Ensures.throw fun _ => id

/-- Sending a request that fits, or that of a compaction. -/
theorem send_asked (hfit : compaction = false →
      SentRequest.Fits limits ⟨call, d.state.calibration, false⟩) :
    Ensures (Asked limits d n) (send call compaction) (fun _ => Asked limits d (n + 1))
      (fun _ => Driven.Sound limits) := by
  refine Ensures.modify fun e h => ⟨⟨h.sound.limits_eq, ?_⟩, h.request, h.delivered, h.feedback,
    h.calibration, congrArg (· + 1) h.used⟩
  intro r hr hcompaction
  rcases List.mem_append.1 hr with hr | hr
  · exact h.sound.fits r hr hcompaction
  · obtain rfl := List.mem_singleton.1 hr
    obtain rfl : compaction = false := hcompaction
    simp only [h.calibration]
    exact hfit rfl

/-- A physical request: it is answered if the model answers. -/
theorem requestOnce_asked {last : Bool} {a : RequestAnswer} (hfit : compaction = false →
      ∀ timeoutSeconds, SentRequest.Fits limits
        ⟨{ call with timeoutSeconds }, d.state.calibration, false⟩) :
    Ensures (Asked limits d n) (requestOnce call final compaction last a)
      (fun r e => Asked limits d (n + 1) e ∧
        ((∃ reply dispatched, r = .reply reply dispatched) ↔ ∃ reply, a.reply = .ok reply))
      (fun _ => Driven.Sound limits) := by
  have hsound : ∀ {n} (_ : Halt) e, Asked limits d n e → e.Sound limits := fun _ _ h => h.sound
  unfold requestOnce
  refine Keeps.read.before hsound fun s => Keeps.stopOn.before hsound fun _ => ?_
  refine Keeps.lift.before hsound fun timeoutSeconds => ?_
  refine Keeps.stopOn.before hsound fun _ => Keeps.stopOn.before hsound fun _ => ?_
  refine (send_asked fun hcompaction => hfit hcompaction timeoutSeconds).bind fun _ => ?_
  cases hreply : a.reply with
  | error code =>
    refine requestFailed_asked.imp (fun _ => id) (fun r e h => ⟨h.1, ?_⟩) hsound
    simp [h.2]
  | ok reply =>
    refine requestAnswered_asked.imp (fun _ => id) (fun r e h => ⟨h.1, ?_⟩) hsound
    simp [h.2]

/-- `_call_model`: a reply has taken one physical request, or two if the first one failed. -/
theorem callModel_asked {a : CallAnswer} (hfit : compaction = false →
      ∀ timeoutSeconds, SentRequest.Fits limits
        ⟨{ call with timeoutSeconds }, d.state.calibration, false⟩) :
    Ensures (Asked limits d 0) (callModel call final compaction a)
      (fun r e => e.Sound limits ∧ (r.isSome → Asked limits d a.taken e))
      (fun _ => Driven.Sound limits) := by
  refine (requestOnce_asked hfit).bind fun r => ?_
  cases r with
  | reply reply dispatched =>
    refine Ensures.pure fun e ⟨h, hreply⟩ => ⟨h.sound, fun _ => ?_⟩
    obtain ⟨first, hfirst⟩ := hreply.1 ⟨reply, dispatched, rfl⟩
    rw [CallAnswer.taken, hfirst]
    exact h
  | aborted => exact Ensures.pure fun e ⟨h, _⟩ => ⟨h.sound, by simp⟩
  | again =>
    refine Ensures.of_state fun e ⟨h, hreply⟩ => ?_
    have htaken : a.taken = 2 := by
      rw [CallAnswer.taken]
      cases hfirst : a.first.reply with
      | error code => rfl
      | ok first => simp [hfirst] at hreply
    refine ((requestOnce_asked hfit).pre fun _ he => he ▸ h).bind fun r => ?_
    cases r with
    | reply reply dispatched =>
      exact Ensures.pure fun g ⟨hg, _⟩ => ⟨hg.sound, fun _ => htaken ▸ hg⟩
    | aborted => exact Ensures.pure fun g ⟨hg, _⟩ => ⟨hg.sound, by simp⟩
    | again => exact Ensures.pure fun g ⟨hg, _⟩ => ⟨hg.sound, by simp⟩

/-! ## The context is managed -/

theorem rejectOversized_keeps {P : Driven → Prop} : Keeps P (rejectOversized call) :=
  Keeps.read.bind fun _ => Keeps.stopOn

/-- What a compaction leaves of an attempt, for the request after it. -/
structure Folded (limits : RunLimits) (d : Driven) (n : ℕ) (e : Driven) : Prop where
  sound : e.Sound limits
  request : e.state.request = d.state.request
  delivered : e.state.delivered = d.state.delivered
  feedback : e.state.retryFeedback = d.state.retryFeedback
  used : e.state.used = d.state.used + n

theorem Asked.folded (h : Asked limits d n e) : Folded limits d n e :=
  ⟨h.sound, h.request, h.delivered, h.feedback, h.used⟩

theorem requireFit_ensures {tools : Option (List Json)} {extra : List Json} (hd : d.Sound limits) :
    Ensures (· = d) (requireFit tools extra)
      (fun _ e => e = d ∧ e.state.projected tools extra ≤ limits.budget)
      (fun _ => Driven.Sound limits) := by
  unfold requireFit
  refine Ensures.known (Ensures.stopOn ?_ fun _ _ he => he ▸ hd)
  rintro _ hnone rfl
  refine ⟨rfl, ?_⟩
  rw [← hd.limits_eq]
  split at hnone
  · cases hnone
  · next hle => exact not_lt.1 hle

theorem compact_ensures {a : CompactionAnswer} (hd : d.Sound limits) :
    Ensures (· = d) (compact a) (fun _ => Folded limits d a.call.taken)
      (fun _ => Driven.Sound limits) := by
  have hsound : ∀ (_ : Halt) e, e = d → e.Sound limits := fun _ _ he => he ▸ hd
  unfold compact
  refine Ensures.known (Keeps.lift.before hsound fun timeoutSeconds => ?_)
  refine (rejectOversized_keeps.before hsound) fun _ => ?_
  refine ((callModel_asked (by simp)).pre fun _ => Asked.of_eq hd).bind fun r => ?_
  cases r with
  | none => exact Ensures.throw fun _ h => h.1
  | some answered =>
    obtain ⟨reply, dispatched⟩ := answered
    have hcalibrate : Keeps (Folded limits d a.call.taken) (calibrate dispatched reply) :=
      Keeps.modify fun e h => ⟨⟨h.sound.limits_eq, h.sound.fits⟩, h.request, h.delivered,
        h.feedback, h.used⟩
    have hcompacted : ∀ summary, Keeps (Folded limits d a.call.taken)
        (update (·.compacted summary)) := fun summary =>
      Keeps.modify fun e h => ⟨⟨h.sound.limits_eq, h.sound.fits⟩, h.request, h.delivered,
        h.feedback, h.used⟩
    have hstop : ∀ (_ : Halt) e, Folded limits d a.call.taken e → e.Sound limits :=
      fun _ _ h => h.sound
    refine Ensures.pre ?_ fun e h => (h.2 rfl).folded
    refine hcalibrate.before hstop fun _ => Keeps.stopOn.before hstop fun _ => ?_
    refine Ensures.ite (fun _ => ?_) fun _ => Ensures.throw fun _ h => h.sound
    exact (hcompacted _).imp (fun _ => id) (fun _ _ => id) hstop

/-- After its context is managed a request is within the budget; and it has taken a compaction, or
nothing has changed. -/
theorem manageContext_ensures {tools : Option (List Json)} {extra : List Json}
    {a : CompactionAnswer} (hd : d.Sound limits) :
    Ensures (· = d) (manageContext tools extra a)
      (fun compacted e => e.state.projected tools extra ≤ limits.budget ∧
        if compacted then
          d.state.needsCompaction tools extra = true ∧ Folded limits d a.call.taken e
        else e = d)
      (fun _ => Driven.Sound limits) := by
  unfold manageContext
  refine Ensures.known (Ensures.ite (fun hneeds => Ensures.pure ?_) fun hneeds => ?_)
  · rintro _ rfl
    refine ⟨?_, rfl⟩
    rw [← hd.limits_eq]
    exact LoopState.projected_le_of_needsCompaction hneeds
  · refine Ensures.ite (fun _ => Ensures.throw fun _ he => he ▸ hd) fun _ => ?_
    refine (compact_ensures hd).bind fun _ => Ensures.of_state fun e he => ?_
    refine (requireFit_ensures he.sound).bind fun _ => Ensures.pure ?_
    rintro _ ⟨rfl, hfit⟩
    exact ⟨hfit, Bool.not_eq_false _ ▸ hneeds, he⟩

/-! ## A round -/

/-- The working set when the inputs of a round are there: the request with them is within the
budget, and there was no compaction unless one was needed. -/
structure Ready (limits : RunLimits) (d : Driven) (final : Bool) (a : RoundAnswers)
    (inputs : List RoundInput) (e : Driven) : Prop where
  sound : e.Sound limits
  request : e.state.request = d.state.request
  delivered : e.state.delivered = d.state.delivered
  feedback : e.state.retryFeedback = d.state.retryFeedback
  fits : e.state.projected (d.state.tools final) (withTrailing inputs (d.state.extra final)) ≤
    limits.budget
  used : e.state.used = d.state.used ∨
    e.state.used = d.state.used + a.compaction.call.taken ∧
      ∃ inputs, a.frozen = .ok inputs ∧ d.state.needsCompaction (d.state.tools final)
        (withTrailing inputs (d.state.extra final)) = true

theorem beginRound_ensures {rows : Except String (List RoundInput)} {P : Driven → Prop}
    (hP : ∀ d, P d → d.Sound limits) :
    Ensures P (beginRound rows) (fun inputs e => rows = .ok inputs ∧ P e)
      (fun _ => Driven.Sound limits) := by
  refine Ensures.lift (fun inputs e hrows he => ⟨?_, he⟩) fun _ e he => hP e he
  cases rows with
  | error code => cases hrows
  | ok rows => exact congrArg Except.ok (Except.ok.inj hrows)

theorem roundInputs_ensures (hd : d.Sound limits) :
    Ensures (· = d) (roundInputs final a) (fun inputs => Ready limits d final a inputs)
      (fun _ => Driven.Sound limits) := by
  unfold roundInputs
  refine (beginRound_ensures fun _ he => he ▸ hd).bind fun inputs => ?_
  by_cases hfrozen : a.frozen = .ok inputs
  swap
  · exact fun _ ⟨h, _⟩ => absurd h hfrozen
  refine Ensures.pre ?_ fun e h => h.2
  refine Ensures.known ((manageContext_ensures hd).bind fun compacted => ?_)
  cases compacted with
  | false =>
    refine Ensures.pure ?_
    rintro _ ⟨hfit, rfl⟩
    exact ⟨hd, rfl, rfl, rfl, hfit, .inl rfl⟩
  | true =>
    refine Ensures.of_state fun e ⟨hfit, hneeds, he⟩ => ?_
    have hready : ∀ rows, e.state.projected (d.state.tools final)
        (withTrailing rows (d.state.extra final)) ≤ limits.budget → Ready limits d final a rows e :=
      fun rows hrows => ⟨he.sound, he.request, he.delivered, he.feedback, hrows,
        .inr ⟨he.used, inputs, hfrozen, hneeds⟩⟩
    refine (beginRound_ensures fun _ h => h ▸ he.sound).bind fun rows => ?_
    refine Ensures.ite (fun hsame => Ensures.pure ?_) fun _ => ?_
    · -- the boundary has not moved, so that these are the inputs that were checked
      rintro _ ⟨hrows, rfl⟩
      obtain rfl := a.same inputs hfrozen rows hrows hsame
      exact hready _ hfit
    · refine ((requireFit_ensures he.sound).pre fun _ h => h.2).bind fun _ => Ensures.pure ?_
      rintro _ ⟨rfl, hrows⟩
      exact hready _ hrows

/-- The final report's messages in place of tool schemas that are no smaller. -/
theorem projected_final_le {s : LoopState}
    (h : (s.finalMessages.map messageTokens).sum ≤ toolTokens (s.tools false)) :
    s.projected (s.tools true) (withTrailing inputs (s.extra true)) ≤
      s.projected (s.tools false) (withTrailing inputs (s.extra false)) := by
  have hestimate : estimateTokens s.messages none (withTrailing inputs s.finalMessages) ≤
      estimateTokens s.messages (s.tools false) (withTrailing inputs []) := by
    rw [withTrailing, withTrailing, estimateTokens_append, estimateTokens_append]
    simp only [toolTokens, List.map_nil, List.sum_nil]
    exact Nat.add_le_add_left h _
  exact mul_le_mul_of_nonneg_right (Nat.cast_le.2 hestimate)
    (zero_le_one.trans s.calibration.2)

/-- A round that is not overtaken is within the budget when its request is made. -/
theorem Ready.projected_le (h : Ready limits d d.state.final a inputs e)
    (hnot : ¬d.state.Overtaken a) :
    e.state.projected (e.state.tools (d.state.final || e.state.remaining ≤ 1))
      (withTrailing inputs (e.state.extra (d.state.final || e.state.remaining ≤ 1))) ≤
        limits.budget := by
  have htools : ∀ final, e.state.tools final = d.state.tools final := fun final => by
    rw [LoopState.tools, LoopState.tools, h.request]
  have hmessages : e.state.finalMessages = d.state.finalMessages := by
    rw [LoopState.finalMessages, LoopState.finalMessages, h.delivered, h.feedback]
  have hfits := h.fits
  have hextra : ∀ final, e.state.extra final = d.state.extra final := fun final => by
    rw [LoopState.extra, LoopState.extra, hmessages]
  cases hfinal : d.state.final with
  | true =>
    rw [Bool.true_or, htools, hextra, ← hfinal]
    exact hfits
  | false =>
    rw [Bool.false_or]
    rw [hfinal, ← htools, ← hextra] at hfits
    by_cases hturned : e.state.remaining ≤ 1
    swap
    · rw [decide_eq_false hturned]
      exact hfits
    · -- the compaction has taken the requests between this round and the final report
      rw [decide_eq_true hturned]
      refine (projected_final_le ?_).trans hfits
      by_contra hlarger
      refine hnot ⟨hfinal, ?_⟩
      have hremaining : ¬d.state.remaining ≤ 1 := by
        simp only [LoopState.final, Bool.or_eq_false_iff] at hfinal
        exact of_decide_eq_false hfinal.1
      simp only [LoopState.remaining, h.request] at hturned hremaining
      rcases h.used with hused | ⟨hused, inputs', hfrozen, hneeds⟩
      · rw [hused] at hturned
        exact absurd hturned hremaining
      · rw [hfinal] at hneeds
        refine ⟨⟨inputs', hfrozen, hneeds⟩, ?_, ?_⟩
        · simp only [LoopState.remaining]
          omega
        · rw [← htools, ← hmessages]
          exact not_le.1 hlarger

/-- The request of a round that is not overtaken fits, whatever its timeout. -/
theorem roundRequest_ensures (hd : d.Sound limits) (hnot : ¬d.state.Overtaken a) :
    Ensures (· = d) (roundRequest d.state.final a)
      (fun r e => e.Sound limits ∧ ∀ timeoutSeconds, SentRequest.Fits limits
        ⟨{ r.2 with timeoutSeconds }, e.state.calibration, false⟩)
      (fun _ => Driven.Sound limits) := by
  unfold roundRequest
  refine (roundInputs_ensures hd).bind fun inputs => Ensures.of_state fun e he => ?_
  have hsound : ∀ (_ : Halt) g, g = e → g.Sound limits := fun _ _ hg => hg ▸ he.sound
  refine Ensures.known (Keeps.lift.before hsound fun timeoutSeconds => ?_)
  refine rejectOversized_keeps.before hsound fun _ => Ensures.pure ?_
  rintro _ rfl
  refine ⟨he.sound, fun timeoutSeconds' => ?_⟩
  have hfits := he.projected_le hnot
  rw [← he.sound.limits_eq] at hfits ⊢
  exact LoopState.fits_of_projected hfits rfl rfl rfl false

section

variable [ReportTexts]

theorem deliver_sound {call : ToolCall} {view : Json} {a : ToolAnswer} :
    Keeps (Driven.Sound limits) (deliver call view a) :=
  Keeps.stopOn.bind fun _ => (update_sound fun s => LoopState.cite_request s view).bind
    fun _ => Keeps.read.bind fun _ => Keeps.pure

theorem runTool_sound {stepId : String} {index : ℕ} {call : ToolCall} {a : ToolAnswer} :
    Keeps (Driven.Sound limits) (runTool stepId index call a) := by
  unfold runTool
  refine Keeps.read.bind fun s => ?_
  dsimp only
  split
  · exact deliver_sound
  · exact Keeps.stopOn.bind fun _ => Keeps.stopOn.bind fun _ =>
      (update_sound fun s => LoopState.remember_request s _ _).bind fun _ => deliver_sound

/-- Running tools sends no request. -/
theorem runTools_sound {stepId : String} {answers : ℕ → ToolAnswer} {calls : List ToolCall} :
    ∀ index, Keeps (Driven.Sound limits) (runTools stepId answers index calls) := by
  induction calls with
  | nil => exact fun _ => Keeps.pure
  | cons call calls ih =>
    exact fun index => runTool_sound.bind fun _ => (ih (index + 1)).bind fun _ => Keeps.pure

/-- What the loop does with a reply sends no request. -/
theorem roundReply_sound {reply : ModelReply} {dispatched : ModelCall} :
    Keeps (Driven.Sound limits) (roundReply final reply dispatched a) := by
  unfold roundReply
  rcases reply.plan final with ⟨rejection, calls⟩
  refine Keeps.bind (update_sound fun _ => rfl) fun _ => Keeps.lift.bind fun stepId => ?_
  refine Keeps.bind (update_sound fun _ => rfl) fun _ => Keeps.read.bind fun s => ?_
  rcases s.roundVerdict (calls ≠ []) reply final rejection with ⟨settled | settled, retryFeedback⟩
  swap
  · exact Keeps.pure
  · refine Keeps.ite (Keeps.bind (update_sound fun _ => rfl) fun _ => Keeps.pure) ?_
    exact (runTools_sound 0).bind fun _ => Keeps.lift.bind fun _ =>
      Keeps.bind (update_sound fun _ => rfl) fun _ => Keeps.pure

/-- A turn of the loop that is not overtaken sends requests that fit. -/
theorem drive_sound (hd : d.Sound limits) (hnot : ¬d.state.Overtaken a) :
    Ensures (· = d) (drive a) (fun _ => Driven.Sound limits) (fun _ => Driven.Sound limits) := by
  unfold drive round
  refine Ensures.known (Ensures.ite (fun _ => Ensures.throw fun _ he => he ▸ hd) fun _ => ?_)
  refine (roundRequest_ensures hd hnot).bind fun request => Ensures.of_state fun e ⟨he, hfits⟩ => ?_
  refine ((callModel_asked fun _ => hfits).pre fun _ => Asked.of_eq he).bind fun answered => ?_
  cases answered with
  | none =>
    refine Ensures.pre ?_ fun g hg => hg.1
    exact Keeps.bind (update_sound fun _ => rfl) fun _ => Keeps.pure
  | some answered => exact roundReply_sound.pre fun g hg => hg.1

end

end Loop

/-! ## The run -/

section

variable [ReportTexts]

/-- The attempts in which no round is overtaken. -/
def unturnedLoop : LTS LoopAttempt RoundAnswers :=
  loopSystem.restrict fun σ a => ¬σ.driven.state.Overtaken a

theorem advance_sound {limits : RunLimits} {σ : LoopAttempt} (hσ : σ.driven.Sound limits)
    (hnot : ¬σ.driven.state.Overtaken a) :
    (σ.advance a).driven.Sound limits := by
  have h := Loop.drive_sound hσ hnot σ.driven rfl
  unfold LoopAttempt.advance
  split
  · next outcome driven hresult => exact h.1 _ _ hresult
  · next halt driven hresult => exact h.2 _ _ hresult

/-- **Every request fits the window, as long as no round is overtaken.** In every attempt whose
rounds are not turned into the final report by their own compaction, with messages that are more
than the tool schemas they take the place of, each request that is sent and is not one of a
compaction has a calibrated estimate that leaves the reserved output tokens of the window. -/
theorem requests_fit {σ : LoopAttempt} (h : unturnedLoop.Reachable σ) :
    ∀ r ∈ σ.driven.sent, r.compaction = false → r.Fits σ.driven.state.request.limits := by
  obtain ⟨limits, hσ⟩ : ∃ limits, σ.driven.Sound limits := by
    refine h.invariant (P := fun σ => ∃ limits, σ.driven.Sound limits) ?_ ?_
    · rintro σ ⟨hsent, -⟩
      exact ⟨_, rfl, by simp [hsent]⟩
    · rintro σ a τ ⟨⟨-, rfl⟩, hnot⟩ ⟨limits, hσ⟩
      exact ⟨limits, advance_sound hσ hnot⟩
  intro r hr hcompaction
  rw [hσ.limits_eq]
  exact hσ.fits r hr hcompaction

end

end

/-! ## A request nothing interferes with -/

namespace Loop

/-- The clock leaves time, and the store lets the request out. -/
structure Undisturbed (d : Driven) (a : RequestAnswer) (timeoutSeconds : ℚ) : Prop where
  slots : d.state.used < d.state.request.limits.modelRequests
  time : d.state.remainingTimeout a.reading = .ok timeoutSeconds
  reserved : a.reserved = none
  current : a.current = none
  settled : a.settled = none

variable {t : ℚ}

/-- A request the model refuses halts the final round. -/
theorem callModel_error {d : Driven} {call : ModelCall} {compaction : Bool} {a : CallAnswer}
    (h : Undisturbed d a.first t) (hreply : a.first.reply = .error code)
    (hcode : code ≠ "MODEL_UNAVAILABLE" ∧ code ≠ "BUDGET_EXHAUSTED") :
    ∃ e, (callModel call true compaction a).result d = (.error ⟨.failed, [code]⟩, e) ∧
      e.sent = d.sent ++ [⟨{ call with timeoutSeconds := t }, d.state.calibration, compaction⟩] ∧
      e.state.request = d.state.request := by
  simp [callModel, requestOnce, result_bind, Loop.state, h.time, lift, stopOn,
    Nat.not_le.2 h.slots, stored, h.reserved, h.current, send, hreply, requestFailed, settle,
    h.settled, update, hcode]

/-- A request the accepted model answers. -/
theorem callModel_ok {d : Driven} {call : ModelCall} {final compaction : Bool} {a : CallAnswer}
    {reply : ModelReply} (h : Undisturbed d a.first t) (hreply : a.first.reply = .ok reply)
    (hmodel : reply.responseModel = d.state.request.acceptedResponseModel) :
    (callModel call final compaction a).result d =
      (.ok (some (reply, { call with timeoutSeconds := t })),
        { state := { d.state with
            used := d.state.used + 1
            secondsUsed := d.state.secondsUsed + max 0 a.first.elapsed }
          sent := d.sent ++
            [⟨{ call with timeoutSeconds := t }, d.state.calibration, compaction⟩] }) := by
  simp [callModel, requestOnce, result_bind, Loop.state, h.time, lift, stopOn,
    Nat.not_le.2 h.slots, stored, h.reserved, h.current, send, hreply, requestAnswered, settle,
    h.settled, update, hmodel]

/-- The bytes of a request are within the limit. -/
def Small [LoopTexts] (s : LoopState) (call : ModelCall) : Prop :=
  (LoopTexts.serialize (requestBody call)).utf8ByteSize ≤ s.request.limits.requestBytes

/-- The request of a compaction. -/
def compactionRequest (s : LoopState) (timeoutSeconds : ℚ) : ModelCall where
  messages := s.messages ++ [userMessage compactionInstruction]
  tools := none
  jsonMode := false
  maxTokens := s.request.limits.outputTokens
  timeoutSeconds
  model := s.request.acceptedResponseModel

/-- The request of a final report. -/
def reportRequest (s : LoopState) (inputs : List RoundInput) (timeoutSeconds : ℚ) [LoopTexts] :
    ModelCall where
  messages := s.messages ++ withTrailing inputs s.finalMessages
  tools := none
  jsonMode := true
  maxTokens := s.request.limits.outputTokens
  timeoutSeconds
  model := s.request.acceptedResponseModel

/-- The working set after a compaction by one request. -/
def refolded [LoopTexts] (s : LoopState) (summary : String) (elapsed : ℚ) : LoopState :=
  { s.compacted summary with
    used := s.used + 1
    secondsUsed := s.secondsUsed + max 0 elapsed }

/-- A compaction whose summary is accepted. -/
theorem compact_ok [LoopTexts] {d : Driven} {a : CompactionAnswer} {t' : ℚ} {reply : ModelReply}
    (htime : d.state.remainingTimeout a.reading = .ok t') (h : Undisturbed d a.call.first t)
    (hsmall : Small d.state (compactionRequest d.state t'))
    (hreply : a.call.first.reply = .ok reply)
    (hmodel : reply.responseModel = d.state.request.acceptedResponseModel)
    (hsummary : reply.summarizes = true) (hcount : reply.promptTokens = .null)
    (hcommitted : a.committed = none) :
    ∃ sent, (compact a).result d =
      (.ok (), ⟨refolded d.state (reply.content.getD "") a.call.first.elapsed, sent⟩) := by
  simp only [Small, compactionRequest] at hsmall
  simp [compact, result_bind, Loop.state, htime, lift, stopOn, rejectOversized,
    Nat.not_lt.2 hsmall, callModel_ok h hreply hmodel, calibrate, update, calibrated, hcount,
    stored, hcommitted, hsummary, LoopState.compacted, refolded]

/-- What a round sends that its own compaction turns into the final report: the messages of the
report, after a check that was made without them. -/
theorem drive_turned [LoopTexts] [ReportTexts] {d : Driven} {s : LoopState}
    (hfinal : d.state.final = false) (hremaining : d.state.remaining = 2)
    (hfrozen : a.frozen = .ok inputs) (hrefrozen : a.refrozen = .ok inputs)
    (hneeds : d.state.needsCompaction (d.state.tools false) (withTrailing inputs []) = true)
    (hcompact : ∃ sent, (compact a.compaction).result d = (.ok (), ⟨s, sent⟩))
    (hused : s.remaining = 1)
    (hfits : s.projected (d.state.tools false) (withTrailing inputs []) ≤ s.request.limits.budget)
    (htime : s.remainingTimeout a.reading = .ok t) (hsmall : Small s (reportRequest s inputs t))
    (h : ∀ sent, Undisturbed ⟨s, sent⟩ a.call.first t) (hreply : a.call.first.reply = .error code)
    (hcode : code ≠ "MODEL_UNAVAILABLE" ∧ code ≠ "BUDGET_EXHAUSTED") :
    ∃ e, (drive a).result d = (.error ⟨.failed, [code]⟩, e) ∧
      ⟨reportRequest s inputs t, s.calibration, false⟩ ∈ e.sent ∧
      e.state.request = s.request := by
  obtain ⟨sent, hcompact⟩ := hcompact
  have hmanage : (manageContext (d.state.tools false) (withTrailing inputs []) a.compaction).result
      d = (.ok true, ⟨s, sent⟩) := by
    simp [manageContext, result_bind, Loop.state, hneeds, hremaining, hcompact, requireFit, stopOn,
      not_lt.2 hfits]
  have hinputs : (roundInputs false a).result d = (.ok inputs, ⟨s, sent⟩) := by
    simp [roundInputs, result_bind, Loop.state, beginRound, hfrozen, hrefrozen, lift,
      Except.mapError, LoopState.extra, result_map, hmanage, Except.map]
  have hrequest : (roundRequest false a).result d =
      (.ok (true, reportRequest s inputs t), ⟨s, sent⟩) := by
    simp only [Small, reportRequest] at hsmall
    simp [roundRequest, result_bind, hinputs, Loop.state, hused, htime, lift, LoopState.extra,
      LoopState.tools, rejectOversized, stopOn, Nat.not_lt.2 hsmall, reportRequest]
  obtain ⟨e, hcall, hsent, hsame⟩ : ∃ e, (callModel (reportRequest s inputs t) true false
      a.call).result ⟨s, sent⟩ = (.error ⟨.failed, [code]⟩, e) ∧
      e.sent = sent ++ [⟨reportRequest s inputs t, s.calibration, false⟩] ∧
      e.state.request = s.request := callModel_error (h sent) hreply hcode
  refine ⟨e, ?_, ?_, hsame⟩
  · simp [drive, result_bind, Loop.state, hremaining, hfinal, round, hrequest, hcall]
  · rw [hsent]
    exact List.mem_append_right _ List.mem_cons_self

/-- What a final round sends that needs no compaction. -/
theorem drive_final [LoopTexts] [ReportTexts] {d : Driven} (hfinal : d.state.final = true)
    (hremaining : ¬d.state.remaining ≤ 0) (hfrozen : a.frozen = .ok inputs)
    (hneeds : d.state.needsCompaction none (withTrailing inputs d.state.finalMessages) = false)
    (htime : d.state.remainingTimeout a.reading = .ok t)
    (hsmall : Small d.state (reportRequest d.state inputs t)) (h : Undisturbed d a.call.first t)
    (hreply : a.call.first.reply = .error code)
    (hcode : code ≠ "MODEL_UNAVAILABLE" ∧ code ≠ "BUDGET_EXHAUSTED") :
    ∃ e, (drive a).result d = (.error ⟨.failed, [code]⟩, e) ∧
      e.sent = d.sent ++ [⟨reportRequest d.state inputs t, d.state.calibration, false⟩] := by
  have hinputs : (roundInputs true a).result d = (.ok inputs, d) := by
    simp [roundInputs, result_bind, Loop.state, beginRound, hfrozen, lift, Except.mapError,
      LoopState.extra, LoopState.tools, manageContext, hneeds]
  have hrequest : (roundRequest true a).result d =
      (.ok (true, reportRequest d.state inputs t), d) := by
    simp only [Small, reportRequest] at hsmall
    simp [roundRequest, result_bind, hinputs, Loop.state, htime, lift, LoopState.extra,
      LoopState.tools, rejectOversized, stopOn, Nat.not_lt.2 hsmall, reportRequest]
  obtain ⟨e, hcall, hsent, -⟩ : ∃ e, (callModel (reportRequest d.state inputs t) true false
      a.call).result d = (.error ⟨.failed, [code]⟩, e) ∧
      e.sent = d.sent ++ [⟨reportRequest d.state inputs t, d.state.calibration, false⟩] ∧
      e.state.request = d.state.request := callModel_error h hreply hcode
  refine ⟨e, ?_, hsent⟩
  simp [drive, result_bind, Loop.state, hremaining, hfinal, round, hrequest, hcall]

end Loop

namespace FilledWindow

open Json (dumps)

/-- No text here is a report or a timestamp. -/
scoped instance : ReportTexts where
  decodeError _ := "Expecting value: line 1 column 1 (char 0)"
  schemaErrors _ := []
  fromisoformat _ := none

/-- JSON texts; no text is redacted or hashed here. -/
scoped instance : LoopTexts where
  render variant _ := variant
  redactCredentials text := text
  canonical value := String.ofList (dumps ⟨[','], [':'], fun q => (toString q.num).toList⟩ value)
  sha256 text := text
  str _ := ""
  serialize value :=
    String.ofList (dumps ⟨[',', ' '], [':', ' '], fun q => (toString q.num).toList⟩ value)

/-! The texts are too long to be written out by evaluation: their sizes are compared, and the limits
are expressions in them. -/

/-- The summary of a compaction. -/
def summary : String := "Checkout errors since 10:02."

/-- The transcript of an attempt after a compaction, with nothing since. -/
def foldedMessages (revision : ℕ) : List Json :=
  [.obj [("content", .str "You investigate production incidents."), ("role", .str "system")],
    userMessage "Why is checkout slow?", compactionMessage revision (foldDigest [.null]) summary]

/-- The messages of the final report. -/
def reportMessages : List Json :=
  [userMessage finalReportInstruction, userMessage (runCoverageMessage [])]

/-- The only tool of the attempt. -/
def logsSchema : Json :=
  .obj [("function", .obj [("name", .str "logs")]), ("type", .str "function")]

/-- The request of the second compaction. -/
def compactionCall : ModelCall where
  messages := foldedMessages 1 ++ [userMessage compactionInstruction]
  tools := none
  jsonMode := false
  maxTokens := 65536
  timeoutSeconds := 360
  model := "deepseek-flash"

/-- The request of the final report. -/
def reportCall (revision : ℕ) : ModelCall where
  messages := foldedMessages revision ++ reportMessages
  tools := none
  jsonMode := true
  maxTokens := 65536
  timeoutSeconds := 360
  model := "deepseek-flash"

/-- The bytes of a request's body. -/
def bodyBytes (call : ModelCall) : ℕ := (LoopTexts.serialize (requestBody call)).utf8ByteSize

theorem windowLimits_positive (budget bytes : ℕ) : 0 < 100 ∧ 0 < 65536 ∧ 0 < 65536 + budget ∧
    0 < bytes + 1 ∧ (0 : ℚ) < 360 ∧ (0 : ℚ) < 7200 :=
  ⟨by decide, by decide, by omega, by omega, by norm_num, by norm_num⟩

/-- Limits with a budget of their own. -/
def windowLimits (budget bytes : ℕ) : RunLimits where
  modelRequests := 100
  outputTokens := 65536
  contextTokens := 65536 + budget
  requestBytes := bytes + 1
  modelRequestTimeoutSeconds := 360
  activeSeconds := 7200
  positive := windowLimits_positive budget bytes

theorem windowRequest_bounded (budget bytes : ℕ) :
    0 < 8 ∧ 8 ≤ (windowLimits budget bytes).modelRequests := by
  simp [windowLimits]

/-- An attempt resumed after its first compaction. -/
def windowAttempt (budget bytes used : ℕ) : LoopAttempt where
  driven :=
    { state :=
        { request :=
            { toolSchemas := [logsSchema]
              modelRequests := 8
              evidenceContext := .null
              authorizedTargets := ∅
              boundTargetId := none
              deadline := 3600
              acceptedResponseModel := "deepseek-flash"
              limits := windowLimits budget bytes
              bounded := windowRequest_bounded budget bytes }
          messages := foldedMessages 1
          delivered := []
          evidenceIds := []
          nextRound := 6
          used
          priorActive := 60
          attemptStarted := 0
          prefixLen := 2
          calibration := ⟨1, le_refl 1⟩
          compactions := 1
          secondsUsed := 0
          toolSecondsAtOpen := 0
          forceFinal := false
          retryFeedback := ""
          seenToolCalls := [] }
      sent := [] }
  outcome := none

/-- The summary of the second compaction, as a reply. -/
def summaryReply : ModelReply where
  content := some summary
  reasoningContent := none
  toolCalls := []
  finishReason := "stop"
  responseModel := "deepseek-flash"
  promptTokens := .null

/-- An answer after a second, with nothing against the request. -/
def promptAnswer (reply : Except String ModelReply) : RequestAnswer where
  reading := ⟨0, 0, 0⟩
  reserved := none
  current := none
  reply
  elapsed := 1
  settled := none

/-- A round without inputs: the model summarizes, and refuses the request of the round. -/
def refusedRound : RoundAnswers where
  frozen := .ok []
  compaction :=
    { reading := ⟨0, 0, 0⟩
      call := ⟨promptAnswer (.ok summaryReply), promptAnswer (.ok summaryReply)⟩
      committed := none }
  refrozen := .ok []
  same := by
    rintro _ ⟨⟩ _ ⟨⟩ -
    rfl
  reading := ⟨0, 0, 0⟩
  call := ⟨promptAnswer (.error "CONTEXT_LENGTH"), promptAnswer (.error "CONTEXT_LENGTH")⟩
  committed := .ok "step"
  tools _ := ⟨none, none, .null, none⟩

/-! ### The limits -/

section

variable {budget bytes used : ℕ} {s : LoopState}

theorem windowLimits_budget : ((windowLimits budget bytes).budget : ℚ) = budget := by
  simp [RunLimits.budget, windowLimits]

theorem windowLimits_contextTokens : (windowLimits budget bytes).contextTokens = 65536 + budget :=
  rfl

theorem windowLimits_requestBytes : (windowLimits budget bytes).requestBytes = bytes + 1 := rfl

/-- A working set of the attempt, a second after it was resumed at the latest. -/
structure Fresh (budget bytes : ℕ) (s : LoopState) : Prop where
  limits : s.request.limits = windowLimits budget bytes
  deadline : s.request.deadline = 3600
  priorActive : s.priorActive = 60
  started : s.attemptStarted = 0
  tools : s.toolSecondsAtOpen = 0
  seconds : s.secondsUsed = 0 ∨ s.secondsUsed = 0 + max 0 1
  used : s.used ≤ 7

theorem Fresh.remainingTimeout (h : Fresh budget bytes s) :
    s.remainingTimeout ⟨0, 0, 0⟩ = .ok 360 := by
  have hmax : (0 : ℚ) + max 0 1 = 1 := by norm_num
  have hseconds := h.seconds
  rw [hmax] at hseconds
  rcases hseconds with hseconds | hseconds <;>
    norm_num [LoopState.remainingTimeout, h.limits, windowLimits, h.deadline, h.priorActive,
      h.started, h.tools, hseconds]

theorem Fresh.undisturbed (h : Fresh budget bytes s) (sent : List SentRequest)
    (reply : Except String ModelReply) :
    Loop.Undisturbed ⟨s, sent⟩ (promptAnswer reply) 360 := by
  refine ⟨?_, h.remainingTimeout, rfl, rfl, rfl⟩
  rw [h.limits]
  exact h.used.trans_lt (by decide : 7 < 100)

theorem Fresh.small (h : Fresh budget bytes s) (call : ModelCall)
    (hcall : bodyBytes call ≤ bytes) : Loop.Small s call := by
  rw [Loop.Small, h.limits, windowLimits_requestBytes]
  exact Nat.le_succ_of_le hcall

theorem windowAttempt_fresh (hused : used ≤ 7) :
    Fresh budget bytes (windowAttempt budget bytes used).driven.state :=
  ⟨rfl, rfl, rfl, rfl, rfl, .inl rfl, hused⟩

end

/-! ### The sizes -/

/-- The bytes of a text inside a string. -/
def escapedBytes (text : String) : ℕ :=
  (String.ofList (text.toList.flatMap Json.escapeChar)).utf8ByteSize

theorem escapedBytes_append (a b : String) :
    escapedBytes (a ++ b) = escapedBytes a + escapedBytes b := by
  simp only [escapedBytes, String.toList_append, List.flatMap_append, String.ofList_append,
    String.utf8ByteSize_append]

theorem escapedBytes_le_append (a b : String) : escapedBytes a ≤ escapedBytes (a ++ b) :=
  (escapedBytes_append a b).symm ▸ Nat.le_add_right _ _

/-- The estimate of a message depends on its content by the bytes of its text. -/
theorem messageTokens_userMessage (content : String) :
    messageTokens (userMessage content) = (escapedBytes content + 28) / 4 + 4 := by
  have hcanonical : PromptTexts.canonical (userMessage content) =
      "\x7b\"content\":\"" ++ String.ofList (content.toList.flatMap Json.escapeChar) ++
        "\",\"role\":\"user\"\x7d" := by
    apply String.toList_injective
    simp [userMessage, PromptTexts.canonical, dumps, Json.dumpsFields, Json.quote, Json.escapeChar]
  have hbefore : "\x7b\"content\":\"".utf8ByteSize = 12 := by decide
  have hafter : "\",\"role\":\"user\"\x7d".utf8ByteSize = 16 := by decide
  rw [messageTokens, canonicalBytes, hcanonical, String.utf8ByteSize_append,
    String.utf8ByteSize_append, hbefore, hafter, escapedBytes]
  generalize (String.ofList (content.toList.flatMap Json.escapeChar)).utf8ByteSize = bytes
  omega

/-- A compaction of the transcript after a compaction changes the revision only. -/
theorem compacted_messages {s : LoopState} (hmessages : s.messages = foldedMessages 1)
    (hfixed : s.prefixLen = 2) (hcompactions : s.compactions = 1) :
    (s.compacted summary).messages = foldedMessages 2 := by
  have hdigest : ∀ content, foldDigest [userMessage content] = foldDigest [.null] := by
    intro content
    have hrole : (userMessage content).get "role" = .str "user" := rfl
    have hnull : Json.null.get "role" = .null := rfl
    simp [foldDigest, hrole, hnull]
  simp only [LoopState.compacted, hmessages, hfixed, hcompactions, foldedMessages,
    List.take_succ_cons, List.take_zero, List.drop_succ_cons, List.drop_zero, List.cons_append,
    List.nil_append]
  rw [show compactionMessage 1 (foldDigest [.null]) summary = userMessage _ from rfl, hdigest]

/-- The transcripts of both compactions have the same estimate. -/
theorem estimate_foldedMessages (tools : Option (List Json)) :
    estimateTokens (foldedMessages 1) tools [] = estimateTokens (foldedMessages 2) tools [] := by
  have hrevision : messageTokens (compactionMessage 1 (foldDigest [.null]) summary) =
      messageTokens (compactionMessage 2 (foldDigest [.null]) summary) := by
    have hbytes : escapedBytes (toString 1) = escapedBytes (toString 2) := by decide
    simp only [compactionMessage, messageTokens_userMessage, escapedBytes_append, hbytes]
  simp only [estimateTokens, foldedMessages, List.append_nil, List.map_cons, List.map_nil,
    hrevision]

/-- The instruction of the final report is more than the tool. -/
theorem report_larger : toolTokens (some [logsSchema]) <
    messageTokens (userMessage finalReportInstruction) := by
  have hcanonical : PromptTexts.canonical (.arr [logsSchema]) =
      "[\x7b\"function\":\x7b\"name\":\"logs\"\x7d,\"type\":\"function\"\x7d]" := by
    apply String.toList_injective
    simp [logsSchema, PromptTexts.canonical, dumps, Json.dumpsFields, Json.dumpsItems, Json.quote,
      Json.escapeChar]
  have htool : toolTokens (some [logsSchema]) = 12 := by
    change canonicalBytes (.arr [logsSchema]) / 4 = 12
    rw [canonicalBytes, hcanonical]
    decide
  have hfirst : escapedBytes
      "Collection is now CLOSED. This is the final report request. No further " = 71 := by
    decide
  have hinstruction : 71 ≤ escapedBytes finalReportInstruction := by
    rw [← hfirst]
    exact ((escapedBytes_le_append _ _).trans (escapedBytes_le_append _ _)).trans
      (escapedBytes_le_append _ _)
  rw [htool, messageTokens_userMessage]
  generalize escapedBytes finalReportInstruction = bytes at hinstruction ⊢
  omega

/-- Messages that take the place of smaller tool schemas make a request larger. -/
theorem estimateTokens_lt [PromptTexts] (messages : List Json) {tools : Option (List Json)}
    {a : Json} (b : Json) (h : toolTokens tools < messageTokens a) :
    estimateTokens messages tools [] < estimateTokens (messages ++ [a, b]) none [] := by
  have hsent := estimateTokens_append messages none [] [a, b]
  have hchecked := estimateTokens_append messages tools [] []
  rw [List.nil_append] at hsent hchecked
  rw [estimateTokens_extra, hsent, hchecked, List.map_cons, List.sum_cons]
  simp only [List.map_nil, List.sum_nil, toolTokens] at h ⊢
  omega

theorem estimateTokens_pos [PromptTexts] (message : Json) (messages : List Json)
    (tools : Option (List Json)) (extra : List Json) :
    0 < estimateTokens (message :: messages) tools extra := by
  simp only [estimateTokens, messageTokens, List.cons_append, List.map_cons, List.sum_cons]
  omega

/-! ### A window that is filled -/

/-- An attempt with two requests left, whose transcript fills the budget exactly. -/
def filledAttempt : LoopAttempt :=
  windowAttempt (estimateTokens (foldedMessages 2) (some [logsSchema]) [])
    (bodyBytes compactionCall + bodyBytes (reportCall 2)) 6

/-- The working set after the second compaction. -/
def refilledState : LoopState := Loop.refolded filledAttempt.driven.state summary 1

theorem refilledState_messages : refilledState.messages = foldedMessages 2 :=
  compacted_messages (s := filledAttempt.driven.state) rfl rfl rfl

theorem filledAttempt_fresh : Fresh (estimateTokens (foldedMessages 2) (some [logsSchema]) [])
    (bodyBytes compactionCall + bodyBytes (reportCall 2)) filledAttempt.driven.state :=
  windowAttempt_fresh (by decide)

theorem refilledState_fresh : Fresh (estimateTokens (foldedMessages 2) (some [logsSchema]) [])
    (bodyBytes compactionCall + bodyBytes (reportCall 2)) refilledState :=
  ⟨rfl, rfl, rfl, rfl, rfl, .inr rfl, by decide⟩

/-- The transcript is the budget, before the compaction and after it. -/
theorem Fresh.projected {bytes : ℕ} {s : LoopState}
    (h : Fresh (estimateTokens (foldedMessages 2) (some [logsSchema]) []) bytes s)
    (hcalibration : s.calibration.1 = 1)
    (hmessages : s.messages = foldedMessages 1 ∨ s.messages = foldedMessages 2) :
    s.projected (some [logsSchema]) [] = s.request.limits.budget := by
  rw [LoopState.projected, hcalibration, mul_one, h.limits, windowLimits_budget]
  rcases hmessages with hmessages | hmessages
  · rw [hmessages, estimate_foldedMessages]
  · rw [hmessages]

theorem filledAttempt_needsCompaction :
    filledAttempt.driven.state.needsCompaction (some [logsSchema]) [] = true := by
  have hprojected := filledAttempt_fresh.projected rfl (.inl rfl)
  rw [LoopState.needsCompaction, hprojected, filledAttempt_fresh.limits, windowLimits_budget,
    decide_eq_true_eq]
  have hpositive : (0 : ℚ) < estimateTokens (foldedMessages 2) (some [logsSchema]) [] :=
    Nat.cast_pos.2 (estimateTokens_pos _ _ _ _)
  linarith

theorem compact_filled : ∃ sent, (Loop.compact refusedRound.compaction).result
    filledAttempt.driven = (.ok (), ⟨refilledState, sent⟩) := by
  have hfresh := filledAttempt_fresh
  have hsmall : Loop.Small filledAttempt.driven.state
      (Loop.compactionRequest filledAttempt.driven.state 360) :=
    hfresh.small compactionCall (Nat.le_add_right _ _)
  have hreply : refusedRound.compaction.call.first.reply = .ok summaryReply := rfl
  have hsummary : summaryReply.summarizes = true := rfl
  have hcompact := Loop.compact_ok hfresh.remainingTimeout (hfresh.undisturbed [] _) hsmall hreply
    rfl hsummary rfl rfl
  exact hcompact

theorem reportRequest_filled : Loop.reportRequest refilledState [] 360 = reportCall 2 := by
  simp only [Loop.reportRequest, refilledState_messages, withTrailing]
  rfl

/-- The round ends with the request of the final report. -/
theorem refusedRound_sends : ∃ e, (Loop.drive refusedRound).result filledAttempt.driven =
      (.error ⟨.failed, ["CONTEXT_LENGTH"]⟩, e) ∧
    ⟨reportCall 2, refilledState.calibration, false⟩ ∈ e.sent ∧
      e.state.request = refilledState.request := by
  have hfresh := refilledState_fresh
  have hfinal : filledAttempt.driven.state.final = false := rfl
  have hremaining : filledAttempt.driven.state.remaining = 2 := rfl
  have hone : refilledState.remaining = 1 := rfl
  have hfrozen : refusedRound.frozen = .ok [] := rfl
  have hrefrozen : refusedRound.refrozen = .ok [] := rfl
  have hreply : refusedRound.call.first.reply = .error "CONTEXT_LENGTH" := rfl
  have htools : filledAttempt.driven.state.tools false = some [logsSchema] := rfl
  have hinputs : withTrailing [] [] = [] := rfl
  have hsmall : Loop.Small refilledState (Loop.reportRequest refilledState [] 360) := by
    rw [reportRequest_filled]
    exact hfresh.small _ (Nat.le_add_left _ _)
  rw [← reportRequest_filled]
  refine Loop.drive_turned hfinal hremaining hfrozen hrefrozen ?_ compact_filled hone ?_
    hfresh.remainingTimeout hsmall (fun sent => hfresh.undisturbed sent _) hreply (by decide)
  · rw [htools, hinputs]
    exact filledAttempt_needsCompaction
  · rw [htools, hinputs]
    exact (hfresh.projected rfl (.inr refilledState_messages)).le

theorem not_fits {n m : ℕ} (h : n < m) :
    ¬((m : ℚ) + ((65536 : ℕ) : ℚ) ≤ ((65536 + n : ℕ) : ℚ)) := by
  have hlt : (n : ℚ) < m := Nat.cast_lt.2 h
  push_cast
  linarith

/-- **A round that is overtaken exceeds the window.** The transcript after a compaction fills the
budget, so that the resumed attempt compacts it again; this leaves it the final report, whose
messages no longer fit. -/
theorem filled_window_exceeded : ¬∀ σ, loopSystem.Reachable σ → ∀ r ∈ σ.driven.sent,
    r.compaction = false → r.Fits σ.driven.state.request.limits := by
  intro hall
  obtain ⟨e, hdrive, hsent, hsame⟩ := refusedRound_sends
  have hadvance : filledAttempt.advance refusedRound =
      ⟨e, some ⟨.failed, ["CONTEXT_LENGTH"], none, none⟩⟩ := by
    rw [LoopAttempt.advance, hdrive]
  have hinit : loopSystem.Init filledAttempt := ⟨rfl, rfl⟩
  have hstep : loopSystem.Step filledAttempt refusedRound (filledAttempt.advance refusedRound) :=
    ⟨rfl, rfl⟩
  rw [hadvance] at hstep
  have hfits := hall _ ((LTS.Reachable.init hinit).step hstep) _ hsent rfl
  have hlimits : e.state.request.limits = windowLimits _ _ :=
    (congrArg _ hsame).trans refilledState_fresh.limits
  have hone : refilledState.calibration.1 = 1 := rfl
  rw [SentRequest.Fits, hlimits, windowLimits_contextTokens, hone, mul_one] at hfits
  have hlarger : estimateTokens (foldedMessages 2) (some [logsSchema]) [] <
      estimateTokens (reportCall 2).messages (reportCall 2).tools [] :=
    estimateTokens_lt (foldedMessages 2) (userMessage (runCoverageMessage [])) report_larger
  exact not_fits hlarger hfits

/-! ### A window with room -/

/-- An attempt with its last request left, and a budget of twice that. -/
def roomyAttempt : LoopAttempt :=
  windowAttempt (2 * estimateTokens (foldedMessages 1) none reportMessages)
    (bodyBytes (reportCall 1)) 7

theorem roomyAttempt_sends : ∃ e, (Loop.drive refusedRound).result roomyAttempt.driven =
      (.error ⟨.failed, ["CONTEXT_LENGTH"]⟩, e) ∧
    e.sent = [⟨reportCall 1, ⟨1, le_refl 1⟩, false⟩] := by
  have hfresh : Fresh (2 * estimateTokens (foldedMessages 1) none reportMessages)
      (bodyBytes (reportCall 1)) roomyAttempt.driven.state := windowAttempt_fresh (le_refl 7)
  have hfinal : roomyAttempt.driven.state.final = true := rfl
  have hremaining : ¬roomyAttempt.driven.state.remaining ≤ 0 := by decide
  have hneeds : roomyAttempt.driven.state.needsCompaction none
      (withTrailing [] roomyAttempt.driven.state.finalMessages) = false := by
    have hprojected : roomyAttempt.driven.state.projected none
        (withTrailing [] roomyAttempt.driven.state.finalMessages) =
          estimateTokens (foldedMessages 1) none reportMessages := mul_one _
    rw [LoopState.needsCompaction, hprojected, hfresh.limits, windowLimits_budget,
      decide_eq_false_iff_not]
    have hnonneg : (0 : ℚ) ≤ estimateTokens (foldedMessages 1) none reportMessages :=
      Nat.cast_nonneg _
    push_cast
    linarith
  have hreply : refusedRound.call.first.reply = .error "CONTEXT_LENGTH" := rfl
  have hfrozen : refusedRound.frozen = .ok [] := rfl
  have hsmall : Loop.Small roomyAttempt.driven.state
      (Loop.reportRequest roomyAttempt.driven.state [] 360) :=
    hfresh.small (reportCall 1) (le_refl _)
  exact Loop.drive_final hfinal hremaining hfrozen hneeds hfresh.remainingTimeout hsmall
    (hfresh.undisturbed [] _) hreply (by decide)

/-- The request of the last round fits. -/
theorem requests_fit_roomy : (roomyAttempt.advance refusedRound).driven.sent.length = 1 ∧
    ∀ r ∈ (roomyAttempt.advance refusedRound).driven.sent, r.compaction = false →
      r.Fits (roomyAttempt.advance refusedRound).driven.state.request.limits := by
  obtain ⟨e, hdrive, hsent⟩ := roomyAttempt_sends
  have hadvance : roomyAttempt.advance refusedRound =
      ⟨e, some ⟨.failed, ["CONTEXT_LENGTH"], none, none⟩⟩ := by
    rw [LoopAttempt.advance, hdrive]
  refine ⟨?_, requests_fit ?_⟩
  · rw [hadvance, hsent, List.length_singleton]
  · have hinit : unturnedLoop.Init roomyAttempt := ⟨rfl, rfl⟩
    refine (LTS.Reachable.init hinit).step ⟨⟨rfl, rfl⟩, fun hovertaken => ?_⟩
    have hfinal : roomyAttempt.driven.state.final = true := rfl
    rw [hovertaken.1] at hfinal
    cases hfinal

end FilledWindow

end OpsPilot
