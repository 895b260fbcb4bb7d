import OpsPilot.Investigation.Coverage
import OpsPilot.Investigation.Transcript
import OpsPilot.Investigation.Window

/-!
# Truncated collection

`collection_truncated` (`opspilot/investigation/coverage.py`) reads off the stored rows of a Run
whether its last round was made final by the bound on model requests. What the loop knew when it
made a round final is not stored.

* `collectionTruncated`: the rule.
* `turnRow`: the row of a round that a turn of the loop commits.
* **`drive_row`**: what a turn says of its row and of the turn after it. A round is final because a
  refused report forced it, or because at most one request was left.
-/

namespace OpsPilot

/-! ## The rule -/

namespace Coverage

variable [LoopTexts]

/-- `str(step.get("step_id"))`. -/
def stepIdText (step : Json) : String :=
  match step.get "step_id" with
  | .str id => id
  | value => LoopTexts.str value

/-- A row of a round: its response is of no kind. -/
def isRound (step : Json) : Bool :=
  (step.get "response").isObject ∧ (step.get "response").get "kind" = .null

/-- `context.get("final")`, if it is a flag. -/
def finalFlag (step : Json) : Option Bool :=
  match ((step.get "response").get "context").get "final" with
  | .bool final => some final
  | _ => none

/-- The round made no tool call, rejected none, and was not itself final. -/
def retried (step : Json) : Bool :=
  plannedNames (step.get "response") = [] ∧ (step.get "response").get "rejected_plan" = .null ∧
    finalFlag step = some false

/-- `collection_truncated`. -/
def collectionTruncated (snapshot : Json) (steps : List Json) (conclusion : Json) : Option Bool :=
  let inner := conclusion.get "conclusion"
  if conclusion.get "kind" ≠ .str "conclusion" ∨ inner.isObject = false then none
  else match whole? (snapshot.get "model_requests"), whole? (inner.get "model_requests_used") with
  | some limit, some used =>
    let rounds := (live steps).filter isRound
    match rounds.findIdx? fun step => inner.get "source_step_id" = .str (stepIdText step) with
    | none => none
    | some index =>
      match rounds[index]?.bind finalFlag with
      | none => none
      | some final =>
        if used < limit ∨ final = false then some false
        else if index = 0 then some true
        else some (!(rounds[index - 1]?.any retried))
  | _, _ => none

end Coverage

/-! ## The row of a round -/

section

variable [LoopTexts]

/-- The response a round is stored with, as far as it is read here: the message without a plan that
was refused, what the reply ended with, whether the round was final, and the refused plan. -/
def roundResponse (final : Bool) (reply : ModelReply) : Json :=
  match (reply.plan final).1 with
  | none => .obj [("assistant", reply.assistant), ("context", .obj [("final", .bool final)]),
      ("finish_reason", .str reply.finishReason)]
  | some reason => .obj [
      ("assistant", assistantMessage reply.content reply.reasoningContent []),
      ("context", .obj [("final", .bool final)]), ("finish_reason", .str reply.finishReason),
      ("rejected_plan", .obj [("reason", .str reason),
        ("tool_calls", if reply.toolCalls = [] then .null else .arr reply.toolCalls)])]

/-- A round whose reply the loop asks for a report once more: it was not final, and its reply
proposes no tool calls. -/
def Retried (final : Bool) (reply : ModelReply) : Prop :=
  final = false ∧ reply.plan final = (none, [])

instance (final : Bool) (reply : ModelReply) : Decidable (Retried final reply) :=
  inferInstanceAs (Decidable (_ ∧ _))

/-- What a round commits: whether it was final, the reply, and the id of the row. -/
def Loop.committedRow (final : Bool) (a : RoundAnswers) :
    Loop (Option (Bool × ModelReply × String)) := do
  let (final, call) ← Loop.roundRequest final a
  match ← Loop.callModel call final false a.call with
  | some (reply, dispatched) => do
    Loop.calibrate dispatched reply
    let stepId ← Stateful.lift (a.committed.mapError Loop.haltFromStore)
    pure (some (final, reply, stepId))
  | none => pure none

/-- What a turn of the loop commits, if it comes to that. -/
def turnRow (d : Driven) (a : RoundAnswers) : Option (Bool × ModelReply × String) :=
  if d.state.remaining ≤ 0 then none
  else match (Loop.committedRow d.state.final a).result d with
    | (.ok row, _) => row
    | (.error _, _) => none

/-! ## What a turn keeps -/

/-- What a part of a round leaves as it is, after at least `n` requests. -/
structure Driven.Holds (d : Driven) (n : ℕ) (e : Driven) : Prop where
  request : e.state.request = d.state.request
  forced : e.state.forceFinal = d.state.forceFinal
  used : d.state.used + n ≤ e.state.used

namespace Driven.Holds

variable {d e f : Driven} {n m : ℕ}

omit [LoopTexts] in
theorem start (d : Driven) : d.Holds 0 d := ⟨rfl, rfl, le_rfl⟩

omit [LoopTexts] in
theorem mono (h : d.Holds n e) (hm : m ≤ n) : d.Holds m e :=
  ⟨h.request, h.forced, (Nat.add_le_add_left hm _).trans h.used⟩

omit [LoopTexts] in
theorem trans (h : d.Holds n e) (h' : e.Holds m f) : d.Holds (n + m) f :=
  ⟨h'.request.trans h.request, h'.forced.trans h.forced, by
    have := h.used
    have := h'.used
    omega⟩

end Driven.Holds

namespace Loop

open Stateful

variable {d : Driven} {n : ℕ} {call : ModelCall} {final compaction : Bool}

omit [LoopTexts] in
theorem charge_holds {seconds : LoopState → ℚ} :
    Keeps (d.Holds n) (update fun s => { s with secondsUsed := seconds s }) :=
  Keeps.modify fun _ h => ⟨h.request, h.forced, h.used⟩

omit [LoopTexts] in
theorem requestFailed_holds {code : String} {last : Bool} {seconds : ℚ} {a : RequestAnswer} :
    Keeps (d.Holds n) (requestFailed code final last seconds a) := by
  unfold requestFailed
  refine Keeps.stopOn.bind fun _ => charge_holds.bind fun _ => Keeps.read.bind fun s => ?_
  exact Keeps.ite Keeps.pure (Keeps.ite Keeps.throw Keeps.pure)

omit [LoopTexts] in
theorem requestAnswered_holds {reply : ModelReply} {a : RequestAnswer} :
    Keeps (d.Holds n) (requestAnswered reply call a) := by
  unfold requestAnswered
  refine Keeps.stopOn.bind fun _ => charge_holds.bind fun _ => Keeps.read.bind fun s => ?_
  exact Keeps.ite Keeps.pure Keeps.throw

omit [LoopTexts] in
theorem send_holds : Ensures (d.Holds n) (send call compaction) (fun _ => d.Holds (n + 1))
    (fun _ => d.Holds n) :=
  Ensures.modify fun _ h => ⟨h.request, h.forced, Nat.succ_le_succ h.used⟩

omit [LoopTexts] in
/-- One physical request uses one up, unless it is stopped before. -/
theorem requestOnce_holds {last : Bool} {a : RequestAnswer} :
    Ensures (d.Holds n) (requestOnce call final compaction last a) (fun _ => d.Holds (n + 1))
      (fun _ => d.Holds n) := by
  have hkeep : ∀ (_ : Halt) e, d.Holds n e → d.Holds n e := fun _ _ => id
  unfold requestOnce
  refine Keeps.read.before hkeep fun s => Keeps.stopOn.before hkeep fun _ => ?_
  refine Keeps.lift.before hkeep fun timeoutSeconds => ?_
  refine Keeps.stopOn.before hkeep fun _ => Keeps.stopOn.before hkeep fun _ => ?_
  refine send_holds.bind fun _ => ?_
  have hmono : ∀ (_ : Halt) e, d.Holds (n + 1) e → d.Holds n e := fun _ e h =>
    h.mono (Nat.le_succ n)
  cases a.reply with
  | error code => exact requestFailed_holds.imp (fun _ => id) (fun _ _ => id) hmono
  | ok reply => exact requestAnswered_holds.imp (fun _ => id) (fun _ _ => id) hmono

omit [LoopTexts] in
/-- A logical request uses at least one up. -/
theorem callModel_holds {a : CallAnswer} :
    Ensures (d.Holds n) (callModel call final compaction a) (fun _ => d.Holds (n + 1))
      (fun _ => d.Holds n) := by
  have hmono : ∀ e, d.Holds (n + 1) e → d.Holds n e := fun e h => h.mono (Nat.le_succ n)
  unfold callModel
  refine requestOnce_holds.bind fun r => ?_
  cases r with
  | reply reply dispatched => exact Ensures.pure fun _ => id
  | aborted => exact Ensures.pure fun _ => id
  | again =>
    refine (requestOnce_holds.imp (fun _ => id) (fun _ e h => h.mono (Nat.le_succ (n + 1)))
      fun _ => hmono).bind fun r => ?_
    cases r with
    | reply reply dispatched => exact Ensures.pure fun _ => id
    | aborted => exact Ensures.pure fun _ => id
    | again => exact Ensures.pure fun _ => id

theorem calibrate_holds {dispatched : ModelCall} {reply : ModelReply} :
    Keeps (d.Holds n) (calibrate dispatched reply) :=
  Keeps.modify fun _ h => ⟨h.request, h.forced, h.used⟩

theorem compact_holds {a : CompactionAnswer} : Keeps (d.Holds n) (compact a) := by
  unfold compact
  refine Keeps.read.bind fun s => Keeps.lift.bind fun timeoutSeconds => ?_
  refine rejectOversized_keeps.bind fun _ => ?_
  refine Keeps.bind (callModel_holds.imp (fun _ => id)
    (fun _ e h => h.mono (Nat.le_succ n)) fun _ _ => id) fun r => ?_
  cases r with
  | none => exact Keeps.throw
  | some answered =>
    refine calibrate_holds.bind fun _ => Keeps.stopOn.bind fun _ => Keeps.ite ?_ Keeps.throw
    exact Keeps.modify fun _ h => ⟨h.request, h.forced, h.used⟩

theorem requireFit_holds {tools : Option (List Json)} {extra : List Json} :
    Keeps (d.Holds n) (requireFit tools extra) := Keeps.read.bind fun _ => Keeps.stopOn

theorem manageContext_holds {tools : Option (List Json)} {extra : List Json}
    {a : CompactionAnswer} : Keeps (d.Holds n) (manageContext tools extra a) := by
  unfold manageContext
  refine Keeps.read.bind fun s => Keeps.ite Keeps.pure (Keeps.ite Keeps.throw ?_)
  exact compact_holds.bind fun _ => requireFit_holds.bind fun _ => Keeps.pure

theorem roundInputs_holds {a : RoundAnswers} : Keeps (d.Holds n) (roundInputs final a) := by
  unfold roundInputs
  refine Keeps.lift.bind fun inputs => Keeps.read.bind fun s => manageContext_holds.bind fun turned => ?_
  refine Keeps.ite (Keeps.lift.bind fun rows => Keeps.ite Keeps.pure ?_) Keeps.pure
  exact requireFit_holds.bind fun _ => Keeps.pure

/-- A round is final if it was to be, or if at most one request is left when it is sent. -/
theorem roundRequest_holds {a : RoundAnswers} :
    Ensures (d.Holds n) (roundRequest final a)
      (fun r e => d.Holds n e ∧ r.1 = (final || decide (e.state.remaining ≤ 1)))
      (fun _ => d.Holds n) := by
  have hkeep : ∀ (_ : Halt) e, d.Holds n e → d.Holds n e := fun _ _ => id
  unfold roundRequest
  refine roundInputs_holds.before hkeep fun inputs => ?_
  refine Ensures.of_state fun e he => Ensures.known ?_
  -- from here on the working set is only read
  have hend : ∀ (_ : Halt) f, f = e → d.Holds n f := by
    rintro _ _ rfl
    exact he
  refine Keeps.lift.before hend fun timeoutSeconds => rejectOversized_keeps.before hend fun _ => ?_
  refine Ensures.pure ?_
  rintro _ rfl
  exact ⟨he, rfl⟩

/-! ## What a turn says of its row -/

section

variable [ReportTexts]

theorem runTools_holds {stepId : String} {answers : ℕ → ToolAnswer} {index : ℕ}
    {calls : List ToolCall} : Keeps (d.Holds n) (runTools stepId answers index calls) := by
  have hcite : ∀ view, Keeps (d.Holds n) (update (·.cite view)) := fun view =>
    Keeps.modify fun e h => by
      have hsame : (e.state.cite view).request = e.state.request ∧
          (e.state.cite view).forceFinal = e.state.forceFinal ∧
          (e.state.cite view).used = e.state.used := by
        unfold LoopState.cite
        split <;> exact ⟨rfl, rfl, rfl⟩
      exact ⟨hsame.1.trans h.request, hsame.2.1.trans h.forced, h.used.trans hsame.2.2.ge⟩
  have hremember : ∀ fingerprint view,
      Keeps (d.Holds n) (update (·.remember fingerprint view)) := fun fingerprint view =>
    Keeps.modify fun e h => by
      have hsame : (e.state.remember fingerprint view).request = e.state.request ∧
          (e.state.remember fingerprint view).forceFinal = e.state.forceFinal ∧
          (e.state.remember fingerprint view).used = e.state.used := by
        unfold LoopState.remember
        split <;> exact ⟨rfl, rfl, rfl⟩
      exact ⟨hsame.1.trans h.request, hsame.2.1.trans h.forced, h.used.trans hsame.2.2.ge⟩
  have hdeliver : ∀ call view (a : ToolAnswer), Keeps (d.Holds n) (deliver call view a) :=
    fun call view a => Keeps.stopOn.bind fun _ => (hcite view).bind fun _ =>
      Keeps.read.bind fun _ => Keeps.pure
  induction calls generalizing index with
  | nil => exact Keeps.pure
  | cons call calls ih =>
    refine Keeps.bind ?_ fun result => ih.bind fun results => Keeps.pure
    unfold runTool
    refine Keeps.read.bind fun s => ?_
    dsimp only
    split
    · exact hdeliver _ _ _
    · exact Keeps.stopOn.bind fun _ => Keeps.stopOn.bind fun _ =>
        (hremember _ _).bind fun _ => hdeliver _ _ _

omit [LoopTexts] [ReportTexts] in
/-- A final round has no plan that may be executed. -/
theorem plan_final {reply : ModelReply} {calls : List ToolCall}
    (h : reply.plan true = (none, calls)) : calls = [] := by
  unfold ModelReply.plan at h
  split at h
  · cases h
  · split at h
    · exact (Prod.mk.inj h).2.symm
    · cases h

omit [LoopTexts] in
/-- A round that does not settle the attempt was not refused, and without calls it was not final. -/
theorem roundVerdict_none {s : LoopState} {toolRound : Bool} {reply : ModelReply}
    {rejection : Option String} (h : (s.roundVerdict toolRound reply final rejection).1 = none) :
    rejection = none ∧ (toolRound = true ∨ final = false) := by
  unfold LoopState.roundVerdict at h
  split at h
  · cases h
  · refine ⟨rfl, ?_⟩
    split at h
    · next htool => exact .inl htool
    · split at h
      · cases h
      · split at h
        · cases h
        · next hfinal => exact .inr (Bool.eq_false_iff.2 hfinal)

/-- What the loop does with a reply whose row is committed. The next turn is forced to be final
exactly after a reply that is asked for its report once more. -/
theorem roundReply_holds (reply : ModelReply) (dispatched : ModelCall) (a : RoundAnswers)
    (hforced : d.state.forceFinal = true → final = true) :
    Ensures (· = d) (roundReply final reply dispatched a)
      (fun settled e => e.state.request = d.state.request ∧ d.state.used ≤ e.state.used ∧
        (settled = none → (e.state.forceFinal = true ↔ Retried final reply)))
      (fun _ e => e.state.request = d.state.request ∧ d.state.used ≤ e.state.used) := by
  have hend : ∀ (_ : Halt) e, d.Holds 0 e →
      e.state.request = d.state.request ∧ d.state.used ≤ e.state.used :=
    fun _ e h => ⟨h.request, h.used⟩
  unfold roundReply
  rcases hplan : reply.plan final with ⟨rejection, calls⟩
  dsimp only
  refine Ensures.pre (P := d.Holds 0) ?_ fun e (he : e = d) => he ▸ Driven.Holds.start d
  refine calibrate_holds.before hend fun _ => Keeps.lift.before hend fun stepId => ?_
  refine Keeps.before (Keeps.modify fun _ h => ⟨h.request, h.forced, h.used⟩) hend fun _ => ?_
  refine Keeps.read.before hend fun s => ?_
  cases hverdict : (s.roundVerdict (decide (calls ≠ [])) reply final rejection).1 with
  | some settled => exact Ensures.pure fun e h => ⟨h.request, h.used, fun hnone => by cases hnone⟩
  | none =>
    obtain ⟨rfl, hopen⟩ := roundVerdict_none hverdict
    refine Ensures.ite (fun hcalls => ?_) fun hcalls => ?_
    · subst hcalls
      refine Ensures.bind (Ensures.modify (Q := fun _ e => e.state.request = d.state.request ∧
        d.state.used ≤ e.state.used ∧ e.state.forceFinal = true) fun e h =>
          ⟨h.request, h.used, rfl⟩) fun _ => Ensures.pure fun e h => ⟨h.1, h.2.1, fun _ => ?_⟩
      refine ⟨fun _ => ⟨?_, hplan⟩, fun _ => h.2.2⟩
      rcases hopen with hopen | hopen
      · simp at hopen
      · exact hopen
    · have hnot : ¬ Retried final reply := fun h =>
        hcalls (Prod.mk.inj (hplan.symm.trans h.2)).2
      have hunforced : d.state.forceFinal = false := by
        by_contra hforce
        have hfinal := hforced (Bool.eq_true_of_not_eq_false hforce)
        subst hfinal
        exact hcalls (plan_final hplan)
      refine runTools_holds.before hend fun results => Keeps.lift.before hend fun group => ?_
      refine Keeps.before (Keeps.modify fun _ h => ⟨h.request, h.forced, h.used⟩) hend fun _ => ?_
      refine Ensures.pure fun e h => ⟨h.request, h.used, fun _ => ?_⟩
      rw [h.forced, hunforced]
      exact iff_of_false Bool.false_ne_true hnot

end

end Loop

/-! ## Turns -/

variable [ReportTexts]

/-- What a turn says of the row it commits and of the turn after it. A final round is one that was
forced, or one after which no request is left; and the next turn is forced exactly after a round
that is asked for its report once more. Without a row nothing changes. -/
structure Turned (d : Driven) (row : Option (Bool × ModelReply × String))
    (outcome : Except Halt (Option Settled)) (e : Driven) : Prop where
  request : e.state.request = d.state.request
  used : d.state.used ≤ e.state.used
  forced : ∀ final reply stepId, row = some (final, reply, stepId) →
    d.state.forceFinal = true → final = true
  bound : ∀ final reply stepId, row = some (final, reply, stepId) → final = true →
    d.state.forceFinal = false → e.state.request.modelRequests ≤ e.state.used
  next : outcome = .ok none → (e.state.forceFinal = true ↔
    row.elim (d.state.forceFinal = true) fun row => Retried row.1 row.2.1)

open Stateful in
/-- **A round is final because a refused report forced it, or because the requests run out.** -/
theorem drive_row (d : Driven) (a : RoundAnswers) :
    Turned d (turnRow d a) ((Loop.drive a).result d).1 ((Loop.drive a).result d).2 := by
  -- a turn that commits no row and stops leaves what is held
  have hstopped : ∀ {halt : Halt} {e : Driven}, d.Holds 0 e → Turned d none (.error halt) e := by
    intro halt e h
    refine ⟨h.request, h.used, ?_, ?_, ?_⟩
    · rintro final reply stepId ⟨⟩
    · rintro final reply stepId ⟨⟩
    · rintro ⟨⟩
  by_cases hremaining : d.state.remaining ≤ 0
  · have hdrive : (Loop.drive a).result d =
        (.error ⟨.budgetExhausted, ["BUDGET_EXHAUSTED"]⟩, d) := by
      simp [Loop.drive, result_bind, Loop.state, hremaining]
    rw [turnRow, if_pos hremaining, hdrive]
    exact hstopped (.start d)
  · have hdrive : (Loop.drive a).result d = (Loop.round d.state.final a).result d := by
      simp [Loop.drive, result_bind, Loop.state, hremaining]
    rw [turnRow, if_neg hremaining, hdrive, Loop.round, Loop.committedRow, result_bind, result_bind]
    rcases hrequest : (Loop.roundRequest d.state.final a).result d with ⟨(halt | ⟨final, call⟩), d₁⟩
    · exact hstopped ((Loop.roundRequest_holds d (.start d)).2 halt d₁ hrequest)
    · obtain ⟨h₁, hfinal⟩ := (Loop.roundRequest_holds d (.start d)).1 _ d₁ hrequest
      dsimp only
      rw [result_bind, result_bind]
      rcases hcall : (Loop.callModel call final false a.call).result d₁ with
        ⟨(halt | answered), d₂⟩
      · exact hstopped (h₁.trans ((Loop.callModel_holds d₁ (.start d₁)).2 halt d₂ hcall))
      · have h₂ := (Loop.callModel_holds d₁ (.start d₁)).1 _ d₂ hcall
        cases answered with
        | none =>
          -- the round is given up, and its number with it
          refine ⟨(h₁.trans h₂).request, ?_, ?_, ?_, fun _ => ?_⟩
          · exact ((h₁.trans h₂).mono (Nat.zero_le _)).used
          · rintro final reply stepId ⟨⟩
          · rintro final reply stepId ⟨⟩
          · show d₂.state.forceFinal = true ↔ d.state.forceFinal = true
            rw [(h₁.trans h₂).forced]
        | some answered =>
          obtain ⟨reply, dispatched⟩ := answered
          dsimp only
          have hforce : d.state.forceFinal = true → final = true := by
            intro hforce
            rw [show final = _ from hfinal, LoopState.final, hforce, Bool.or_true, Bool.true_or]
          have hsame := (h₁.trans h₂).forced
          obtain ⟨hok, herror⟩ := Loop.roundReply_holds reply dispatched a
            (fun h => hforce (hsame.symm.trans h)) d₂ rfl
          rcases hreply : (Loop.roundReply final reply dispatched a).result d₂ with ⟨r, e⟩
          have hheld : e.state.request = d₂.state.request ∧ d₂.state.used ≤ e.state.used := by
            cases r with
            | error halt => exact herror halt e hreply
            | ok settled => exact ⟨(hok settled e hreply).1, (hok settled e hreply).2.1⟩
          have hused := h₂.used
          have hrequest' := (h₁.trans h₂).request
          cases hcommitted : a.committed with
          | error code =>
            -- the store refuses the row: the turn stops there
            have hstored : (Loop.roundReply final reply dispatched a).result d₂ =
                (.error (Loop.haltFromStore code),
                  ((Loop.calibrate dispatched reply).result d₂).2) := by
              simp [Loop.roundReply, result_bind, hcommitted, Except.mapError, lift, Loop.calibrate,
                Loop.update]
            obtain ⟨rfl, rfl⟩ := Prod.mk.inj (hreply.symm.trans hstored)
            exact hstopped (((h₁.trans h₂).mono (Nat.zero_le _)).trans
              (Loop.calibrate_holds.result (.start d₂)))
          | ok stepId =>
            refine ⟨hheld.1.trans hrequest', ?_, ?_, ?_, ?_⟩
            · have := h₁.used
              show d.state.used ≤ e.state.used
              omega
            · rintro final' reply' stepId' ⟨⟩
              exact hforce
            · rintro final' reply' stepId' ⟨⟩ htrue hnot
              have hlast : d₁.state.remaining ≤ 1 := by
                have hwas : (d.state.final || decide (d₁.state.remaining ≤ 1)) = true :=
                  hfinal.symm.trans htrue
                rw [LoopState.final, hnot, Bool.or_false, Bool.or_eq_true, decide_eq_true_eq,
                  decide_eq_true_eq] at hwas
                rcases hwas with hwas | hwas
                · have := h₁.used
                  rw [LoopState.remaining] at hwas ⊢
                  rw [h₁.request]
                  omega
                · exact hwas
              show (e.state.request.modelRequests : ℕ) ≤ e.state.used
              rw [hheld.1, h₂.request]
              rw [LoopState.remaining] at hlast
              have := hheld.2
              omega
            · rintro rfl
              exact (hok none e hreply).2.2 rfl

end

end OpsPilot
