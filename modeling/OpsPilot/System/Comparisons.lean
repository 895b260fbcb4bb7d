import OpsPilot.Observation.Comparisons
import OpsPilot.System.ReleaseRuns

/-!
# Comparison attempts

Observers that run `take_release_comparison`, one transaction or query after the other, next to
every operation on the releases. An Observer that crashes, stops or loses its transaction never goes
on. The gates are read by statements of their own: between the two reads of a submission and its
insert, and between a check and the query after it, other transactions commit.

* `ComparisonWorld.after_cases`: what a step can do.
* `ComparisonWorld.Sound`: the invariant of attempts and queries.
* **`ComparisonWorld.comparison_attempts`**: attempts, records and queries of an ending, and what a
  change of the gates blocks if none commits between the reads of a submission and its insert.
* `Comparing.filed_while_suspended`: a record filed although the target was suspended.
-/

namespace OpsPilot

/-! ## The Observers -/

/-- Where an Observer is in `take_release_comparison`: it selected an ending, it claimed an attempt,
it collects the mapping or the slice (`cleared` after a check of the gates), or it submits. -/
inductive CollectorPhase
  | chosen
  | claimed
  | mapping (todo : List (String × String)) (cleared : Bool)
  | slice (todo : List (String × String)) (cleared : Bool)
  | submitting (global target : Option Gate)

/-- One run of `take_release_comparison`. -/
structure Collector where
  owner : UUID
  lease : ComparisonLease
  context : Option ReleaseContext := none
  gathered : List ReleaseQueryResult := []
  phase : CollectorPhase

/-- The answer to a query. -/
structure VectorAnswer where
  sentAt : Option Time
  status : QueryStatus
  httpStatus : Option ℕ
  detail : String
  bodyComplete : Bool
  raw : List UInt8
  rawSha256 : String

/-- A query that was sent, in an attempt on an ending. -/
structure AskedQuery where
  endingId : ReleaseEndingId
  attempt : ℕ
  queryKey : String
  deriving DecidableEq

/-- The database, the Observers, and every query sent so far. -/
structure ComparisonWorld where
  db : ComparisonStore := {}
  collectors : Table UUID Collector := ∅
  asked : List AskedQuery := []

/-- A step of one Observer. -/
inductive CollectorAct
  /-- The rest of `claim_comparison`, under the lock. -/
  | claim (clk : AttemptClock)
  /-- The context is read. -/
  | start
  /-- The gates are checked before a query. -/
  | check
  /-- The next query is sent. -/
  | ask (answer : VectorAnswer)
  /-- The budget is spent: the next query is not sent. -/
  | skip (rawSha256 : String)
  /-- The mapping is collected: the slice comes next. -/
  | slice
  /-- `claim_next_attempt`, after a transport failure. -/
  | retry (clk : AttemptClock)
  /-- The collection is over. -/
  | conclude
  /-- The global gate is read by a submission. -/
  | readGlobal
  /-- The gate of the target is read by a submission. -/
  | readTarget
  /-- The rest of the submission, to its commit. -/
  | submit (clk : SubmitClock)

/-- What happens next: an operation on the releases or of the incident store, the first statement of
a `claim_comparison`, or a step of an Observer that made it. -/
inductive ComparisonEvent
  | release (call : ReleaseCall)
  | select (w owner : UUID) (id : ReleaseEndingId) (now : Time)
  | act (w : UUID) (a : CollectorAct)

section

variable [ComparisonTexts]

namespace Collector

/-- `evidence(attempt)`; `none` is a validation error. -/
def evidence (c : Collector) (context : ReleaseContext) (attempt : ℕ) :
    Option ReleaseComparisonEvidence :=
  if h : (1 ≤ attempt ∧ attempt ≤ comparisonMaxAttempts) ∧
      c.gathered.length ≤ comparisonMaxQueries ∧ (c.gathered.map (·.queryKey)).Nodup then
    some {
      comparisonId := c.lease.endingId, attempts := attempt, window := context.beforeWindow
      queries := c.gathered, attempts_mem := h.1, length_queries := h.2.1
      unique_queries := h.2.2 }
  else none

/-- The start of an attempt: an exhausted lease and an unsupported profile ask nothing. -/
def enter (c : Collector) (context : ReleaseContext) : Collector :=
  { c with
    context := some context
    gathered := []
    phase :=
      if c.lease.exhausted then .submitting none none
      else match buildReleaseComparisonPlan context [] with
        | some plan => .mapping plan.queries false
        | none => .submitting none none }

/-- The result of a query is gathered. -/
def gather (c : Collector) (context : ReleaseContext) (query : String × String)
    (answer : VectorAnswer) : List ReleaseQueryResult :=
  c.gathered ++ [{
    queryKey := query.1, query := query.2, evaluatedAt := context.beforeWindow.end
    sentAt := answer.sentAt, status := answer.status, httpStatus := answer.httpStatus
    detail := answer.detail, bodyComplete := answer.bodyComplete, raw := answer.raw
    rawSha256 := answer.rawSha256 }]

/-- The anomaly a draft is compared with: none. -/
def noAnomaly : ReleaseEvaluation where
  verdict := .unknown
  outcome := .noData
  evidenceSufficient := false
  report := .obj [("reason_codes", .arr []), ("instances", .arr []), ("signals", .arr [])]

/-- The draft of the collected evidence asks for another attempt. -/
def wantsRetry (c : Collector) : Option Bool := do
  let context ← c.context
  let attempt ← c.lease.attempt
  let evidence ← c.evidence context attempt
  let draft := ComparisonTexts.compareEvidence context c.lease noAnomaly evidence
    context.beforeWindow.end
  pure (draft.needsRetry && attempt < comparisonMaxAttempts)

/-- The query that is next, if the gates were checked, and the phase after it. -/
def next (c : Collector) : Option ((String × String) × CollectorPhase) :=
  match c.phase with
  | .mapping (query :: todo) true => some (query, .mapping todo false)
  | .slice (query :: todo) true => some (query, .slice todo false)
  | _ => none

end Collector

namespace ComparisonWorld

/-- An Observer goes on. -/
def put (σ : ComparisonWorld) (w : UUID) (c : Collector) : ComparisonWorld :=
  { σ with collectors := σ.collectors.insert w c }

/-- The answer to a query that the budget of an attempt does not reach. -/
def budgetAnswer (rawSha256 : String) : VectorAnswer where
  sentAt := none
  status := .timeout
  httpStatus := none
  detail := "COMPARISON_BUDGET"
  bodyComplete := false
  raw := []
  rawSha256 := rawSha256

/-- One step of one Observer. -/
def actOf (σ : ComparisonWorld) (w : UUID) (c : Collector) : CollectorAct → Option ComparisonWorld
  | .claim clk =>
    match c.phase, σ.db.claimComparison clk c.owner c.lease with
    | .chosen, .ok (some lease, db) =>
      some ({ σ with db }.put w { c with lease, phase := .claimed })
    | _, _ => none
  | .start =>
    match c.phase, σ.db.comparisonContext c.lease with
    | .claimed, .ok context => some (σ.put w (c.enter context))
    | _, _ => none
  | .check =>
    match c.phase, σ.db.comparisonScopeCurrent c.lease with
    | .mapping todo _, .ok true => some (σ.put w { c with phase := .mapping todo true })
    | .slice todo _, .ok true => some (σ.put w { c with phase := .slice todo true })
    | _, _ => none
  | .ask answer => do
    let context ← c.context
    let attempt ← c.lease.attempt
    let (query, phase) ← c.next
    some { σ.put w { c with gathered := c.gather context query answer, phase } with
      asked := σ.asked ++ [⟨c.lease.endingId, attempt, query.1⟩] }
  | .skip rawSha256 => do
    let context ← c.context
    let (query, phase) ← c.next
    some (σ.put w { c with gathered := c.gather context query (budgetAnswer rawSha256), phase })
  | .slice => do
    let context ← c.context
    let attempt ← c.lease.attempt
    let evidence ← c.evidence context attempt
    let plan ← buildReleaseComparisonPlan context []
    let full ← buildReleaseComparisonPlan context
      (ComparisonTexts.mappedInstances context evidence)
    match c.phase with
    | .mapping [] _ => some (σ.put w { c with
        phase := .slice (full.queries.filter fun e => (plan.get e.1).isNone) false })
    | _ => none
  | .retry clk => do
    let context ← c.context
    let retry ← c.wantsRetry
    guard retry
    match c.phase, σ.db.claimNextAttempt clk c.lease with
    | .slice [] _, .ok (lease, db) =>
      some ({ σ with db }.put w ({ c with lease }.enter context))
    | _, _ => none
  | .conclude => do
    let retry ← c.wantsRetry
    guard (retry = false)
    match c.phase with
    | .slice [] _ => some (σ.put w { c with phase := .submitting none none })
    | _ => none
  | .readGlobal =>
    match c.phase with
    | .submitting none none =>
      some (σ.put w { c with phase := .submitting (some σ.db.base.store.scope) none })
    | _ => none
  | .readTarget =>
    match c.phase, σ.db.scopeOf c.lease.endingId with
    | .submitting (some global) none, .ok scope =>
      some (σ.put w { c with phase := .submitting (some global) (some scope.target) })
    | _, _ => none
  | .submit clk => do
    let context ← c.context
    let attempt ← c.lease.attempt
    let evidence ← c.evidence context attempt
    match c.phase with
    | .submitting (some global) (some target) =>
      match σ.db.submitComparison clk ⟨global, target⟩ c.lease evidence with
      | .ok (_, db) => some ({ σ with db }.put w { c with phase := .submitting none none })
      | .error _ => none
    | _ => none

/-- One event; `none` is one that cannot happen, or a transaction that rolls back. -/
def after (σ : ComparisonWorld) : ComparisonEvent → Option ComparisonWorld
  | .release call =>
    match call.op.exec call.clock σ.db.base with
    | .ok (_, base) => some { σ with db := { σ.db with base } }
    | .error _ => none
  | .select w owner id now => do
    guard (σ.collectors.get w).isNone
    let lease ← σ.db.pending now id
    some (σ.put w { owner, lease, phase := .chosen })
  | .act w a => do
    let c ← σ.collectors.get w
    σ.actOf w c a

end ComparisonWorld

/-- The transition system of the comparisons. The database may lose any transaction. -/
def comparisonSystem : LTS ComparisonWorld ComparisonEvent where
  Init σ := releaseSystem.Init σ.db.base ∧ σ.db.attempts = ∅ ∧ σ.db.comparisons = ∅ ∧
    σ.collectors = ∅ ∧ σ.asked = []
  Step σ e τ := τ = σ ∨ σ.after e = some τ

/-! ## What a step can do -/

/-- `lease'` is on the ending of `lease`, under the same gates. -/
structure ComparisonLease.SameClaim (lease lease' : ComparisonLease) : Prop where
  ending : lease'.endingId = lease.endingId
  global : lease'.globalSuspensionGeneration = lease.globalSuspensionGeneration
  target : lease'.targetSuspensionGeneration = lease.targetSuspensionGeneration

namespace Collector

/-- The Observer holds the attempt `n` on the ending. -/
structure Holds (c : Collector) (id : ReleaseEndingId) (n : ℕ) : Prop where
  ending : c.lease.endingId = id
  attempt : c.lease.attempt = some n
  exhausted : c.lease.exhausted = false

/-- The keys asked in the attempt, with those still to ask, are different ones of one plan. -/
inductive Progress (c : Collector) (keys : List String) : Prop
  | quiet (h : c.phase = .chosen ∨ ∃ global target, c.phase = .submitting global target)
  | claimed (h : c.phase = .claimed) (hnone : keys = [])
  | mapping {todo : List (String × String)} {cleared : Bool} {context : ReleaseContext}
      {plan : QueryPlan} (h : c.phase = .mapping todo cleared) (hlease : c.lease.exhausted = false)
      (hcontext : c.context = some context) (hsession : context.sessionId = c.lease.endingId.2)
      (hplan : buildReleaseComparisonPlan context [] = some plan)
      (hcovers : plan.Covers (keys ++ todo.map Prod.fst))
  | slice {todo : List (String × String)} {cleared : Bool} {context : ReleaseContext}
      {uids : List UUID} {plan : QueryPlan} (h : c.phase = .slice todo cleared)
      (hlease : c.lease.exhausted = false) (hcontext : c.context = some context)
      (hsession : context.sessionId = c.lease.endingId.2)
      (hplan : buildReleaseComparisonPlan context uids = some plan)
      (hcovers : plan.Covers (keys ++ todo.map Prod.fst))

/-- The gates a submission has read are those of the database. -/
def ReadFrom (c : Collector) (db : ComparisonStore) : Prop :=
  ∀ global target, c.phase = .submitting global target →
    (∀ gate ∈ global, gate = db.base.store.scope) ∧
    ∀ gate ∈ target, ∀ scope, db.scopeOf c.lease.endingId = .ok scope → gate = scope.target

end Collector

/-- The keys are different ones of one plan for the session of the ending, if there are any. -/
def Planned (id : ReleaseEndingId) (keys : List String) : Prop :=
  keys = [] ∨ ∃ context uids plan, context.sessionId = id.2 ∧
    buildReleaseComparisonPlan context uids = some plan ∧ plan.Covers keys

namespace ComparisonWorld

/-- What an event does, if it does anything: an operation on the releases, a new Observer, an
exhausted lease, the next attempt, a step of the collection, a query, or a record. -/
inductive Change (σ : ComparisonWorld) : ComparisonEvent → ComparisonWorld → Prop
  | idle (e : ComparisonEvent) : Change σ e σ
  | base {call : ReleaseCall} {base : ReleaseStore}
      (hstep : releaseSystem.Step σ.db.base call base) :
      Change σ (.release call) { σ with db := { σ.db with base } }
  | select {w owner : UUID} {id : ReleaseEndingId} {now : Time} {lease : ComparisonLease}
      (hnew : σ.collectors.get w = none) (hpending : σ.db.pending now id = some lease) :
      Change σ (.select w owner id now) (σ.put w { owner, lease, phase := .chosen })
  | spent {w : UUID} {a : CollectorAct} {c c' : Collector} (hget : σ.collectors.get w = some c)
      (hspent : comparisonMaxAttempts ≤ σ.db.attemptCount c.lease.endingId)
      (hclaim : c.lease.SameClaim c'.lease) (hlease : c'.lease.exhausted = true)
      (hphase : c'.phase = .claimed) : Change σ (.act w a) (σ.put w c')
  | attempt {w : UUID} {a : CollectorAct} {c c' : Collector} {clk : AttemptClock} {n : ℕ}
      {owner : UUID} {row : ComparisonAttemptRow} {db : ComparisonStore}
      (hget : σ.collectors.get w = some c) (hclaim : c.lease.SameClaim c'.lease)
      (hinsert : σ.db.insertAttempt clk c.lease.endingId n owner = .ok (row, db))
      (hholds : c'.Holds c.lease.endingId n) (hprogress : ∀ keys, c.Progress keys → c'.Progress [])
      (hread : c'.ReadFrom σ.db) : Change σ (.act w a) ({ σ with db }.put w c')
  | move {w : UUID} {a : CollectorAct} {c c' : Collector} (hget : σ.collectors.get w = some c)
      (hlease : c'.lease = c.lease)
      (hprogress : ∀ keys, c.Progress keys → c'.Progress keys)
      (hread : c.ReadFrom σ.db → c'.ReadFrom σ.db) : Change σ (.act w a) (σ.put w c')
  | ask {w : UUID} {a : CollectorAct} {c c' : Collector} {n : ℕ} {key : String}
      (hget : σ.collectors.get w = some c) (hlease : c'.lease = c.lease)
      (hattempt : c.lease.attempt = some n)
      (hprogress : ∀ keys, c.Progress keys → c.lease.exhausted = false ∧
        c'.Progress (keys ++ [key]) ∧ Planned c.lease.endingId (keys ++ [key]))
      (hread : c'.ReadFrom σ.db) :
      Change σ (.act w a) { σ.put w c' with
        asked := σ.asked ++ [⟨c.lease.endingId, n, key⟩] }
  | file {w : UUID} {c : Collector} {clk : SubmitClock} {global target : Gate}
      {record : ComparisonRow} (hget : σ.collectors.get w = some c)
      (hphase : c.phase = .submitting (some global) (some target))
      (hfiles : σ.db.Files clk ⟨global, target⟩ c.lease record) :
      Change σ (.act w (.submit clk))
        ({ σ with db := { σ.db with
            comparisons := σ.db.comparisons.insert c.lease.endingId record } }.put w
          { c with phase := .submitting none none })

variable {σ τ : ComparisonWorld} {e : ComparisonEvent} {w : UUID} {c c' : Collector}
  {context : ReleaseContext}

/-! ### The steps of a collection -/

omit [ComparisonTexts] in
/-- A phase that has read no gate. -/
theorem readFrom_of_ne {db : ComparisonStore}
    (h : ∀ global target, c.phase ≠ .submitting global target) : c.ReadFrom db :=
  fun global target hphase => absurd hphase (h global target)

omit [ComparisonTexts] in
theorem readFrom_none {db : ComparisonStore} (h : c.phase = .submitting none none) :
    c.ReadFrom db := by
  intro global target hphase
  rw [h] at hphase
  cases hphase
  exact ⟨fun gate hgate => (by cases hgate), fun gate hgate => (by cases hgate)⟩

/-- The start of an attempt asks the whole plan, once. -/
theorem enter_progress (hsession : context.sessionId = c.lease.endingId.2) :
    (c.enter context).Progress [] := by
  by_cases hexhausted : c.lease.exhausted = true
  · exact .quiet (.inr ⟨none, none, by simp [Collector.enter, hexhausted]⟩)
  · rw [Bool.not_eq_true] at hexhausted
    cases hplan : buildReleaseComparisonPlan context [] with
    | none => exact .quiet (.inr ⟨none, none, by simp [Collector.enter, hexhausted, hplan]⟩)
    | some plan =>
      have hphase : (c.enter context).phase = .mapping plan.queries false := by
        simp [Collector.enter, hexhausted, hplan]
      exact .mapping hphase hexhausted rfl hsession hplan (by simpa using plan.covers_queries)

theorem enter_readFrom (c : Collector) (context : ReleaseContext) (db : ComparisonStore) :
    (c.enter context).ReadFrom db := by
  by_cases hexhausted : c.lease.exhausted = true
  · exact readFrom_none (by simp [Collector.enter, hexhausted])
  · rw [Bool.not_eq_true] at hexhausted
    cases hplan : buildReleaseComparisonPlan context [] with
    | none => exact readFrom_none (by simp [Collector.enter, hexhausted, hplan])
    | some plan =>
      exact readFrom_of_ne fun _ _ => by simp [Collector.enter, hexhausted, hplan]

variable {query : String × String} {phase : CollectorPhase} {gathered : List ReleaseQueryResult}
  {scope : Scope}

omit [ComparisonTexts] in
/-- A next query is the first of those still to ask. -/
theorem next_cases (h : c.next = some (query, phase)) :
    (∃ todo, c.phase = .mapping (query :: todo) true ∧ phase = .mapping todo false) ∨
      ∃ todo, c.phase = .slice (query :: todo) true ∧ phase = .slice todo false := by
  unfold Collector.next at h
  split at h
  · next query' todo hphase =>
    cases h
    exact .inl ⟨todo, hphase, rfl⟩
  · next query' todo hphase =>
    cases h
    exact .inr ⟨todo, hphase, rfl⟩
  · cases h

/-- A query that is sent is one of the plan, and it is sent once. -/
theorem next_progress {keys : List String} (h : c.next = some (query, phase))
    (hprogress : c.Progress keys) :
    c.lease.exhausted = false ∧
      ({ c with gathered, phase } : Collector).Progress (keys ++ [query.1]) ∧
      Planned c.lease.endingId (keys ++ [query.1]) := by
  have hcons : ∀ todo : List (String × String),
      keys ++ (query :: todo).map Prod.fst = (keys ++ [query.1]) ++ todo.map Prod.fst := by simp
  rcases next_cases h with ⟨todo, hphase, rfl⟩ | ⟨todo, hphase, rfl⟩
  · cases hprogress with
    | quiet hquiet => simp [hphase] at hquiet
    | claimed hclaimed => simp [hphase] at hclaimed
    | slice hslice => simp [hphase] at hslice
    | mapping hmapping hlease hcontext hsession hplan hcovers =>
      rw [hphase] at hmapping
      cases hmapping
      rw [hcons] at hcovers
      exact ⟨hlease, .mapping rfl hlease hcontext hsession hplan hcovers,
        .inr ⟨_, _, _, hsession, hplan, hcovers.sublist (List.sublist_append_left _ _)⟩⟩
  · cases hprogress with
    | quiet hquiet => simp [hphase] at hquiet
    | claimed hclaimed => simp [hphase] at hclaimed
    | mapping hmapping => simp [hphase] at hmapping
    | slice hslice hlease hcontext hsession hplan hcovers =>
      rw [hphase] at hslice
      cases hslice
      rw [hcons] at hcovers
      exact ⟨hlease, .slice rfl hlease hcontext hsession hplan hcovers,
        .inr ⟨_, _, _, hsession, hplan, hcovers.sublist (List.sublist_append_left _ _)⟩⟩

/-- A query that is not sent is one less to ask. -/
theorem skip_progress {keys : List String} (h : c.next = some (query, phase))
    (hprogress : c.Progress keys) :
    ({ c with gathered, phase } : Collector).Progress keys := by
  have hsub : ∀ todo : List (String × String),
      (keys ++ todo.map Prod.fst).Sublist (keys ++ (query :: todo).map Prod.fst) := fun todo =>
    (List.Sublist.refl keys).append (List.sublist_cons_self _ _)
  rcases next_cases h with ⟨todo, hphase, rfl⟩ | ⟨todo, hphase, rfl⟩
  · cases hprogress with
    | quiet hquiet => simp [hphase] at hquiet
    | claimed hclaimed => simp [hphase] at hclaimed
    | slice hslice => simp [hphase] at hslice
    | mapping hmapping hlease hcontext hsession hplan hcovers =>
      rw [hphase] at hmapping
      cases hmapping
      exact .mapping rfl hlease hcontext hsession hplan (hcovers.sublist (hsub todo))
  · cases hprogress with
    | quiet hquiet => simp [hphase] at hquiet
    | claimed hclaimed => simp [hphase] at hclaimed
    | mapping hmapping => simp [hphase] at hmapping
    | slice hslice hlease hcontext hsession hplan hcovers =>
      rw [hphase] at hslice
      cases hslice
      exact .slice rfl hlease hcontext hsession hplan (hcovers.sublist (hsub todo))

omit [ComparisonTexts] in
theorem next_readFrom {db : ComparisonStore} (h : c.next = some (query, phase)) :
    ({ c with gathered, phase } : Collector).ReadFrom db := by
  rcases next_cases h with ⟨todo, -, rfl⟩ | ⟨todo, -, rfl⟩ <;>
    exact readFrom_of_ne fun _ _ => by simp

/-- A claim grants an exhausted lease or the next attempt. -/
theorem claim_change {clk : AttemptClock} {lease : ComparisonLease} {db : ComparisonStore}
    (hget : σ.collectors.get w = some c)
    (h : σ.db.claimComparison clk c.owner c.lease = .ok (some lease, db))
    (a : CollectorAct) :
    Change σ (.act w a) ({ σ with db }.put w { c with lease, phase := .claimed }) := by
  rcases ComparisonStore.claimComparison_cases h with ⟨hnone, -⟩ | ⟨hspent, rfl, hlease⟩ |
    ⟨row, hinsert, hlease⟩
  · cases hnone
  · cases hlease
    exact .spent hget hspent ⟨rfl, rfl, rfl⟩ rfl rfl
  · cases hlease
    exact .attempt hget ⟨rfl, rfl, rfl⟩ hinsert ⟨rfl, rfl, rfl⟩ (fun _ _ => .claimed rfl rfl)
      (readFrom_of_ne fun _ _ => by simp)

/-- **What a step of an Observer does.** -/
theorem actOf_change {a : CollectorAct} (hget : σ.collectors.get w = some c)
    (h : σ.actOf w c a = some τ) : Change σ (.act w a) τ := by
  cases a with
  | claim clk =>
    simp only [actOf] at h
    split at h
    · next lease db hphase hclaim =>
      cases h
      exact claim_change hget hclaim _
    · cases h
  | start =>
    simp only [actOf] at h
    split at h
    · next context hphase hcontext =>
      cases h
      have hsession := ComparisonStore.comparisonContext_session hcontext
      refine .move hget rfl (fun keys hprogress => ?_) fun _ => enter_readFrom _ _ _
      cases hprogress with
      | claimed _ hnone => exact hnone ▸ enter_progress hsession
      | quiet hquiet => simp [hphase] at hquiet
      | mapping hmapping => simp [hphase] at hmapping
      | slice hslice => simp [hphase] at hslice
    · cases h
  | check =>
    simp only [actOf] at h
    split at h
    · next todo cleared hphase _ =>
      cases h
      refine .move hget rfl (fun keys hprogress => ?_) fun _ => readFrom_of_ne fun _ _ => by simp
      cases hprogress with
      | mapping hmapping hlease hcontext hsession hplan hcovers =>
        rw [hphase] at hmapping
        cases hmapping
        exact .mapping rfl hlease hcontext hsession hplan hcovers
      | quiet hquiet => simp [hphase] at hquiet
      | claimed hclaimed => simp [hphase] at hclaimed
      | slice hslice => simp [hphase] at hslice
    · next todo cleared hphase _ =>
      cases h
      refine .move hget rfl (fun keys hprogress => ?_) fun _ => readFrom_of_ne fun _ _ => by simp
      cases hprogress with
      | slice hslice hlease hcontext hsession hplan hcovers =>
        rw [hphase] at hslice
        cases hslice
        exact .slice rfl hlease hcontext hsession hplan hcovers
      | quiet hquiet => simp [hphase] at hquiet
      | claimed hclaimed => simp [hphase] at hclaimed
      | mapping hmapping => simp [hphase] at hmapping
    · cases h
  | ask answer =>
    simp only [actOf, Option.bind_eq_bind, Option.bind_eq_some_iff, Option.some.injEq] at h
    obtain ⟨context, -, attempt, hattempt, ⟨query, phase⟩, hnext, rfl⟩ := h
    exact .ask hget rfl hattempt (fun keys => next_progress hnext) (next_readFrom hnext)
  | skip rawSha256 =>
    simp only [actOf, Option.bind_eq_bind, Option.bind_eq_some_iff, Option.some.injEq] at h
    obtain ⟨context, -, ⟨query, phase⟩, hnext, rfl⟩ := h
    exact .move hget rfl (fun keys => skip_progress hnext) fun _ => next_readFrom hnext
  | slice =>
    simp only [actOf, Option.bind_eq_bind, Option.bind_eq_some_iff] at h
    obtain ⟨context, hcontext, attempt, -, evidence, -, plan, hplan, full, hfull, h⟩ := h
    split at h
    · next cleared hphase =>
      cases h
      refine .move hget rfl (fun keys hprogress => ?_) fun _ => readFrom_of_ne fun _ _ => by simp
      cases hprogress with
      | mapping hmapping hlease hcontext' hsession hplan' hcovers =>
        rw [hphase] at hmapping
        cases hmapping
        obtain rfl := Option.some.inj (hcontext'.symm.trans hcontext)
        obtain rfl := Option.some.inj (hplan'.symm.trans hplan)
        rw [List.map_nil, List.append_nil] at hcovers
        exact .slice rfl hlease hcontext hsession hfull
          (hcovers.extend fun _ => buildReleaseComparisonPlan_le hplan hfull)
      | quiet hquiet => simp [hphase] at hquiet
      | claimed hclaimed => simp [hphase] at hclaimed
      | slice hslice => simp [hphase] at hslice
    · cases h
  | retry clk =>
    simp only [actOf, Option.bind_eq_bind, Option.bind_eq_some_iff] at h
    obtain ⟨context, hcontext, retry, -, -, -, h⟩ := h
    split at h
    · next cleared lease db hphase hclaim =>
      cases h
      obtain ⟨n, owner, row, hattempt, howner, hexhausted, hinsert, rfl⟩ :=
        ComparisonStore.claimNextAttempt_ok hclaim
      refine .attempt hget ⟨rfl, rfl, rfl⟩ hinsert ⟨rfl, rfl, hexhausted⟩
        (fun keys hprogress => ?_) (enter_readFrom _ _ _)
      cases hprogress with
      | slice hslice hlease hcontext' hsession =>
        obtain rfl := Option.some.inj (hcontext'.symm.trans hcontext)
        exact enter_progress hsession
      | quiet hquiet => simp [hphase] at hquiet
      | claimed hclaimed => simp [hphase] at hclaimed
      | mapping hmapping => simp [hphase] at hmapping
    · cases h
  | conclude =>
    simp only [actOf, Option.bind_eq_bind, Option.bind_eq_some_iff] at h
    obtain ⟨retry, -, -, -, h⟩ := h
    split at h
    · cases h
      exact .move hget rfl (fun _ _ => .quiet (.inr ⟨_, _, rfl⟩)) fun _ => readFrom_none rfl
    · cases h
  | readGlobal =>
    simp only [actOf] at h
    split at h
    · cases h
      refine .move hget rfl (fun _ _ => .quiet (.inr ⟨_, _, rfl⟩)) fun _ global target hread => ?_
      cases hread
      exact ⟨fun gate hgate => (Option.some.inj hgate).symm, fun gate hgate => by cases hgate⟩
    · cases h
  | readTarget =>
    simp only [actOf] at h
    split at h
    · next global scope hphase hscope =>
      cases h
      refine .move hget rfl (fun _ _ => .quiet (.inr ⟨_, _, rfl⟩)) fun hread g t hnow => ?_
      cases hnow
      refine ⟨(hread _ _ hphase).1, fun gate hgate scope' hscope' => ?_⟩
      have heq : scope = scope' := by
        rw [hscope] at hscope'
        exact Except.ok.inj hscope'
      rw [← heq]
      exact (Option.some.inj hgate).symm
    · cases h
  | submit clk =>
    simp only [actOf, Option.bind_eq_bind, Option.bind_eq_some_iff] at h
    obtain ⟨context, -, attempt, -, evidence, -, h⟩ := h
    split at h
    · next global target hphase =>
      split at h
      · next receipt db hsubmit =>
        cases h
        rcases ComparisonStore.submitComparison_cases hsubmit with rfl | ⟨record, hfiles, rfl⟩
        · exact .move hget rfl (fun _ _ => .quiet (.inr ⟨_, _, rfl⟩)) fun _ => readFrom_none rfl
        · exact .file hget hphase hfiles
      · cases h
    · cases h

/-- **What an event does.** -/
theorem step_change (h : comparisonSystem.Step σ e τ) : Change σ e τ := by
  rcases h with rfl | h
  · exact .idle e
  cases e with
  | release call =>
    simp only [after] at h
    split at h
    · next answer base hok =>
      cases h
      exact .base (.inr ⟨answer, hok⟩)
    · cases h
  | select w owner id now =>
    simp only [after, Option.bind_eq_bind, Option.bind_eq_some_iff, Option.some.injEq,
      Option.guard_eq_some'] at h
    obtain ⟨-, hnew, lease, hpending, rfl⟩ := h
    exact .select (by simpa using hnew) hpending
  | act w a =>
    simp only [after, Option.bind_eq_bind, Option.bind_eq_some_iff] at h
    obtain ⟨c, hget, h⟩ := h
    exact actOf_change hget h

/-! ## Attempts and queries -/

/-- The keys of the queries sent in an attempt. -/
def askedIn (σ : ComparisonWorld) (id : ReleaseEndingId) (n : ℕ) : List String :=
  (σ.asked.filter fun a => a.endingId = id ∧ a.attempt = n).map (·.queryKey)

/-- The queries sent for an ending. -/
def askedFor (σ : ComparisonWorld) (id : ReleaseEndingId) : List AskedQuery :=
  σ.asked.filter (·.endingId = id)

/-- **The invariant of attempts and queries.** -/
structure Sound (σ : ComparisonWorld) : Prop where
  dense : ∀ id n, (σ.db.attempts.get (id, n)).isSome = true ↔
    1 ≤ n ∧ n ≤ σ.db.attemptCount id
  most : ∀ id, σ.db.attemptCount id ≤ comparisonMaxAttempts
  held : ∀ ⦃w c id n⦄, σ.collectors.get w = some c → c.Holds id n →
    (σ.db.attempts.get (id, n)).isSome = true
  unique : ∀ ⦃w w' c c' id n⦄, σ.collectors.get w = some c → σ.collectors.get w' = some c' →
    c.Holds id n → c'.Holds id n → w = w'
  asked : ∀ a ∈ σ.asked, (σ.db.attempts.get (a.endingId, a.attempt)).isSome = true
  planned : ∀ id n, Planned id (σ.askedIn id n)
  progress : ∀ ⦃w c⦄, σ.collectors.get w = some c →
    ∃ keys, c.Progress keys ∧ ∀ id n, c.Holds id n → keys = σ.askedIn id n

namespace Sound

variable {id : ReleaseEndingId} {n : ℕ}

/-- The invariant reads the attempts, the Observers and the queries. -/
theorem congr (h : Sound σ) (base : ReleaseStore)
    (comparisons : Table ReleaseEndingId ComparisonRow) :
    Sound { σ with db := { σ.db with base, comparisons } } :=
  ⟨h.dense, h.most, h.held, h.unique, h.asked, h.planned, h.progress⟩

/-- An Observer that holds no other attempt than before goes on. -/
theorem put (h : Sound σ)
    (hholds : ∀ id n, c'.Holds id n → ∃ c, σ.collectors.get w = some c ∧ c.Holds id n)
    (hprogress : ∃ keys, c'.Progress keys ∧ ∀ id n, c'.Holds id n → keys = σ.askedIn id n) :
    Sound (σ.put w c') where
  dense := h.dense
  most := h.most
  held w' d id n hd hhold := by
    rcases Table.get_insert_eq_some.1 hd with ⟨rfl, rfl⟩ | ⟨-, hd⟩
    · obtain ⟨c, hc, hhold⟩ := hholds id n hhold
      exact h.held hc hhold
    · exact h.held hd hhold
  unique w₁ w₂ d₁ d₂ id n h₁ h₂ hhold₁ hhold₂ := by
    rcases Table.get_insert_eq_some.1 h₁ with ⟨rfl, rfl⟩ | ⟨-, hd₁⟩ <;>
      rcases Table.get_insert_eq_some.1 h₂ with ⟨rfl, rfl⟩ | ⟨-, hd₂⟩
    · rfl
    · obtain ⟨c, hc, hhold⟩ := hholds id n hhold₁
      exact h.unique hc hd₂ hhold hhold₂
    · obtain ⟨c, hc, hhold⟩ := hholds id n hhold₂
      exact h.unique hd₁ hc hhold₁ hhold
    · exact h.unique hd₁ hd₂ hhold₁ hhold₂
  asked := h.asked
  planned := h.planned
  progress w' d hd := by
    rcases Table.get_insert_eq_some.1 hd with ⟨rfl, rfl⟩ | ⟨-, hd⟩
    · exact hprogress
    · exact h.progress hd

omit [ComparisonTexts] in
theorem holds_of_lease (hlease : c'.lease = c.lease) (h : c'.Holds id n) : c.Holds id n :=
  ⟨hlease ▸ h.ending, hlease ▸ h.attempt, hlease ▸ h.exhausted⟩

/-- A step of the collection keeps the invariant. -/
theorem move (h : Sound σ) (hget : σ.collectors.get w = some c) (hlease : c'.lease = c.lease)
    (hprogress : ∀ keys, c.Progress keys → c'.Progress keys) : Sound (σ.put w c') := by
  obtain ⟨keys, hkeys, hasked⟩ := h.progress hget
  refine h.put (fun id n hhold => ⟨c, hget, holds_of_lease hlease hhold⟩)
    ⟨keys, hprogress keys hkeys, fun id n hhold => hasked id n (holds_of_lease hlease hhold)⟩

/-- An attempt without a row has asked nothing. -/
theorem askedIn_eq_nil (h : Sound σ) (hnew : σ.db.attempts.get (id, n) = none) :
    σ.askedIn id n = [] := by
  rw [askedIn, List.map_eq_nil_iff, List.filter_eq_nil_iff]
  intro a ha hmatch
  rw [decide_eq_true_eq] at hmatch
  have hsome := h.asked a ha
  rw [hmatch.1, hmatch.2, hnew] at hsome
  cases hsome

/-- The next attempt of an ending keeps the invariant. -/
theorem attempt (h : Sound σ) {clk : AttemptClock} {owner : UUID} {row : ComparisonAttemptRow}
    {db : ComparisonStore} (hinsert : σ.db.insertAttempt clk id n owner = .ok (row, db))
    (hholds : c'.Holds id n) (hprogress : c'.Progress []) :
    Sound ({ σ with db }.put w c') := by
  obtain ⟨hpos, hmax, hcount, hnew, -, -, rfl⟩ := ComparisonStore.insertAttempt_ok hinsert
  have hcounts : ∀ id', ({ σ.db with attempts := σ.db.attempts.insert (id, n) row } :
      ComparisonStore).attemptCount id' =
        if id' = id then σ.db.attemptCount id' + 1 else σ.db.attemptCount id' :=
    ComparisonStore.attemptCount_insert hnew
  have hkept : ∀ {id' n'}, (σ.db.attempts.get (id', n')).isSome = true →
      ((σ.db.attempts.insert (id, n) row).get (id', n')).isSome = true := by
    intro id' n' hsome
    rw [Table.get_insert]
    split
    · rfl
    · exact hsome
  -- nobody holds an attempt without a row
  have hfree : ∀ {w' d}, σ.collectors.get w' = some d → ¬ d.Holds id n := by
    intro w' d hd hhold
    have hsome := h.held hd hhold
    rw [hnew] at hsome
    cases hsome
  have honly : ∀ {id' n'}, c'.Holds id' n' → id' = id ∧ n' = n := fun hhold =>
    ⟨hhold.ending.symm.trans hholds.ending,
      Option.some.inj (hhold.attempt.symm.trans hholds.attempt)⟩
  constructor
  · intro id' n'
    change ((σ.db.attempts.insert (id, n) row).get (id', n')).isSome = true ↔ 1 ≤ n' ∧ n' ≤ _
    rw [Table.get_insert]
    have hcount' := hcounts id'
    change _ ↔ 1 ≤ n' ∧ n' ≤ ({ σ.db with
      attempts := σ.db.attempts.insert (id, n) row } : ComparisonStore).attemptCount id'
    rw [hcount']
    by_cases hid : id' = id
    · subst hid
      by_cases hn : n' = n
      · subst hn
        simp only [if_true, Option.isSome_some, true_iff]
        omega
      · rw [if_neg (by simpa using hn), if_pos rfl, h.dense]
        omega
    · rw [if_neg (by simp [hid]), if_neg hid]
      exact h.dense id' n'
  · intro id'
    change ({ σ.db with
      attempts := σ.db.attempts.insert (id, n) row } : ComparisonStore).attemptCount id' ≤ _
    rw [hcounts id']
    split
    · next hid =>
      rw [hid]
      omega
    · exact h.most id'
  · intro w' d id' n' hd hhold
    rcases Table.get_insert_eq_some.1 hd with ⟨-, rfl⟩ | ⟨-, hd⟩
    · obtain ⟨rfl, rfl⟩ := honly hhold
      change ((σ.db.attempts.insert (id', n') row).get (id', n')).isSome = true
      rw [Table.get_insert_self]
      rfl
    · exact hkept (h.held hd hhold)
  · intro w₁ w₂ d₁ d₂ id' n' h₁ h₂ hhold₁ hhold₂
    rcases Table.get_insert_eq_some.1 h₁ with ⟨rfl, rfl⟩ | ⟨-, hd₁⟩ <;>
      rcases Table.get_insert_eq_some.1 h₂ with ⟨rfl, rfl⟩ | ⟨-, hd₂⟩
    · rfl
    · obtain ⟨rfl, rfl⟩ := honly hhold₁
      exact absurd hhold₂ (hfree hd₂)
    · obtain ⟨rfl, rfl⟩ := honly hhold₂
      exact absurd hhold₁ (hfree hd₁)
    · exact h.unique hd₁ hd₂ hhold₁ hhold₂
  · exact fun a ha => hkept (h.asked a ha)
  · exact h.planned
  · intro w' d hd
    rcases Table.get_insert_eq_some.1 hd with ⟨-, rfl⟩ | ⟨-, hd⟩
    · refine ⟨[], hprogress, fun id' n' hhold => ?_⟩
      obtain ⟨rfl, rfl⟩ := honly hhold
      exact (h.askedIn_eq_nil hnew).symm
    · exact h.progress hd

omit [ComparisonTexts] in
theorem askedIn_append {key : String} (h : τ.asked = σ.asked ++ [⟨id, n, key⟩])
    (id' : ReleaseEndingId) (n' : ℕ) : τ.askedIn id' n' =
      if id' = id ∧ n' = n then σ.askedIn id' n' ++ [key] else σ.askedIn id' n' := by
  simp only [askedIn, h, List.filter_append, List.map_append]
  by_cases heq : id' = id ∧ n' = n
  · obtain ⟨rfl, rfl⟩ := heq
    simp
  · rw [if_neg heq]
    have hne : ¬ (id = id' ∧ n = n') := fun h => heq ⟨h.1.symm, h.2.symm⟩
    simp [hne]

/-- A query that is sent keeps the invariant. -/
theorem ask (h : Sound σ) {key : String} (hget : σ.collectors.get w = some c)
    (hlease : c'.lease = c.lease) (hattempt : c.lease.attempt = some n)
    (hprogress : ∀ keys, c.Progress keys → c.lease.exhausted = false ∧
      c'.Progress (keys ++ [key]) ∧ Planned c.lease.endingId (keys ++ [key])) :
    Sound { σ.put w c' with asked := σ.asked ++ [⟨c.lease.endingId, n, key⟩] } := by
  have happend := askedIn_append (σ := σ)
    (τ := { σ.put w c' with asked := σ.asked ++ [⟨c.lease.endingId, n, key⟩] }) rfl
  obtain ⟨keys, hkeys, hasked⟩ := h.progress hget
  obtain ⟨hexhausted, hnext, hplanned⟩ := hprogress keys hkeys
  have hholds : c.Holds c.lease.endingId n := ⟨rfl, hattempt, hexhausted⟩
  obtain rfl := hasked _ _ hholds
  -- the other Observers hold other attempts, so their queries are the same
  have hothers : ∀ {w' d}, w' ≠ w → σ.collectors.get w' = some d → ¬ d.Holds c.lease.endingId n :=
    fun hne hd hhold => hne (h.unique hd hget hhold hholds)
  have hsame : ∀ {d : Collector} {id' n'}, d.Holds id' n' → ¬ d.Holds c.lease.endingId n →
      ¬ (id' = c.lease.endingId ∧ n' = n) := by
    rintro d id' n' hhold hnot ⟨rfl, rfl⟩
    exact hnot hhold
  constructor
  · exact h.dense
  · exact h.most
  · intro w' d id' n' hd hhold
    rcases Table.get_insert_eq_some.1 hd with ⟨-, rfl⟩ | ⟨-, hd⟩
    · exact h.held hget (holds_of_lease hlease hhold)
    · exact h.held hd hhold
  · intro w₁ w₂ d₁ d₂ id' n' h₁ h₂ hhold₁ hhold₂
    rcases Table.get_insert_eq_some.1 h₁ with ⟨rfl, rfl⟩ | ⟨-, hd₁⟩ <;>
      rcases Table.get_insert_eq_some.1 h₂ with ⟨rfl, rfl⟩ | ⟨-, hd₂⟩
    · rfl
    · exact h.unique hget hd₂ (holds_of_lease hlease hhold₁) hhold₂
    · exact h.unique hd₁ hget hhold₁ (holds_of_lease hlease hhold₂)
    · exact h.unique hd₁ hd₂ hhold₁ hhold₂
  · intro a ha
    rcases List.mem_append.1 ha with hold | hnew
    · exact h.asked a hold
    · rw [List.mem_singleton] at hnew
      rw [hnew]
      exact h.held hget hholds
  · intro id' n'
    rw [happend]
    split
    · next heq =>
      rw [heq.1, heq.2]
      exact hplanned
    · exact h.planned id' n'
  · intro w' d hd
    simp only [happend]
    rcases Table.get_insert_eq_some.1 hd with ⟨-, rfl⟩ | ⟨hne, hd⟩
    · refine ⟨_, hnext, fun id' n' hhold => ?_⟩
      have hhold := holds_of_lease hlease hhold
      obtain rfl := hhold.ending
      obtain rfl := Option.some.inj (hhold.attempt.symm.trans hattempt)
      rw [if_pos ⟨rfl, rfl⟩]
    · obtain ⟨keys, hkeys', hasked'⟩ := h.progress hd
      refine ⟨keys, hkeys', fun id' n' hhold => ?_⟩
      rw [if_neg (hsame hhold (hothers hne hd))]
      exact hasked' id' n' hhold

/-- **An event keeps the invariant.** -/
theorem step (h : Sound σ) (hstep : comparisonSystem.Step σ e τ) : Sound τ := by
  cases step_change hstep with
  | idle => exact h
  | base => exact h.congr _ _
  | select hnew hpending =>
    have hlease := ComparisonStore.pending_unclaimed hpending
    refine h.put (fun id n hhold => ?_) ⟨[], .quiet (.inl rfl), fun id n hhold => ?_⟩
    · have hattempt := hhold.attempt
      rw [hlease] at hattempt
      cases hattempt
    · have hattempt := hhold.attempt
      rw [hlease] at hattempt
      cases hattempt
  | spent hget hspent hclaim hlease hphase =>
    refine h.put (fun id n hhold => ?_) ⟨[], .claimed hphase rfl, fun id n hhold => ?_⟩
    · have hexhausted := hhold.exhausted
      rw [hlease] at hexhausted
      cases hexhausted
    · have hexhausted := hhold.exhausted
      rw [hlease] at hexhausted
      cases hexhausted
  | attempt hget hclaim hinsert hholds hprogress hread =>
    obtain ⟨keys, hkeys, -⟩ := h.progress hget
    exact h.attempt hinsert hholds (hprogress keys hkeys)
  | move hget hlease hprogress hread => exact h.move hget hlease hprogress
  | ask hget hlease hattempt hprogress hread => exact h.ask hget hlease hattempt hprogress
  | file hget hphase hfiles =>
    exact (h.congr _ _).move hget rfl fun _ _ => .quiet (.inr ⟨_, _, rfl⟩)

end Sound

/-- The invariant holds in every reachable state. -/
theorem reachable_sound (h : comparisonSystem.Reachable σ) : Sound σ := by
  refine h.invariant (fun σ hinit => ?_) fun hstep hsound => hsound.step hstep
  obtain ⟨-, hattempts, -, hcollectors, hasked⟩ := hinit
  have hnone : ∀ id n, σ.askedIn id n = [] := fun id n => by rw [askedIn, hasked]; rfl
  have hcount : ∀ id, σ.db.attemptCount id = 0 := by
    intro id
    rw [ComparisonStore.attemptCount, ComparisonStore.attemptsOf, hattempts]
    rfl
  constructor
  · intro id n
    rw [hattempts, Table.get_empty, hcount]
    simp only [Option.isSome_none, Bool.false_eq_true, false_iff]
    omega
  · intro id
    rw [hcount]
    exact Nat.zero_le _
  · intro w c id n hget
    rw [hcollectors, Table.get_empty] at hget
    cases hget
  · intro w w' c c' id n hget
    rw [hcollectors, Table.get_empty] at hget
    cases hget
  · intro a ha
    rw [hasked] at ha
    cases ha
  · exact fun id n => .inl (hnone id n)
  · intro w c hget
    rw [hcollectors, Table.get_empty] at hget
    cases hget

/-- Three attempts hold every query of an ending. -/
theorem length_askedFor (h : Sound σ) (id : ReleaseEndingId) :
    (σ.askedFor id).length =
      (σ.askedIn id 1).length + (σ.askedIn id 2).length + (σ.askedIn id 3).length := by
  have hattempt : ∀ a ∈ σ.askedFor id, 1 ≤ a.attempt ∧ a.attempt ≤ 3 := by
    intro a ha
    obtain ⟨hmem, hid⟩ := List.mem_filter.1 ha
    have hsome := (h.dense _ _).1 (h.asked a hmem)
    exact ⟨hsome.1, hsome.2.trans (h.most _)⟩
  have hsplit : ∀ l : List AskedQuery, (∀ a ∈ l, 1 ≤ a.attempt ∧ a.attempt ≤ 3) →
      l.length = (l.filter (·.attempt = 1)).length + (l.filter (·.attempt = 2)).length +
        (l.filter (·.attempt = 3)).length := by
    intro l
    induction l with
    | nil => simp
    | cons a l ih =>
      intro hl
      have hrest := ih fun b hb => hl b (List.mem_cons_of_mem _ hb)
      obtain ⟨hlow, hhigh⟩ := hl a List.mem_cons_self
      have hcases : a.attempt = 1 ∨ a.attempt = 2 ∨ a.attempt = 3 := by omega
      rcases hcases with hn | hn | hn <;>
        simp only [List.filter_cons, hn, List.length_cons, decide_true, if_true] <;>
        simp <;> omega
  have hin : ∀ n, ((σ.askedFor id).filter (·.attempt = n)).length = (σ.askedIn id n).length := by
    intro n
    rw [askedIn, List.length_map, askedFor, List.filter_filter]
    congr 1
    refine List.filter_congr fun a _ => ?_
    rw [Bool.decide_and, Bool.and_comm]
  rw [hsplit _ hattempt, hin, hin, hin]

/-- **The queries of an ending.** In each attempt they are different ones of one plan, so all of
them are no more than those of three plans. -/
theorem queries_le (h : Sound σ) (id : ReleaseEndingId) :
    ∃ plans : ℕ → QueryPlan,
      (∀ n, plans n = ∅ ∨ ∃ context uids, context.sessionId = id.2 ∧
        buildReleaseComparisonPlan context uids = some (plans n)) ∧
      (∀ n, (plans n).Covers (σ.askedIn id n)) ∧
      (σ.askedFor id).length ≤
        (plans 1).queries.length + (plans 2).queries.length + (plans 3).queries.length := by
  have hplan : ∀ n, ∃ plan : QueryPlan, (plan = ∅ ∨ ∃ context uids, context.sessionId = id.2 ∧
      buildReleaseComparisonPlan context uids = some plan) ∧ plan.Covers (σ.askedIn id n) := by
    intro n
    rcases h.planned id n with hnone | ⟨context, uids, plan, hsession, hbuilt, hcovers⟩
    · exact ⟨∅, .inl rfl, by rw [hnone]; exact ⟨.nil, fun key hkey => by cases hkey⟩⟩
    · exact ⟨plan, .inr ⟨context, uids, hsession, hbuilt⟩, hcovers⟩
  choose plans hbuilt hcovers using hplan
  refine ⟨plans, hbuilt, hcovers, ?_⟩
  rw [length_askedFor h]
  have h₁ := (hcovers 1).length_le
  have h₂ := (hcovers 2).length_le
  have h₃ := (hcovers 3).length_le
  omega

/-! ## The record -/

/-- A record that is filed stays as it is. -/
theorem step_record {id : ReleaseEndingId} {row : ComparisonRow}
    (hstep : comparisonSystem.Step σ e τ) (hget : σ.db.comparisons.get id = some row) :
    τ.db.comparisons.get id = some row := by
  cases step_change hstep with
  | attempt _ _ hinsert =>
    obtain ⟨-, -, -, -, -, -, rfl⟩ := ComparisonStore.insertAttempt_ok hinsert
    exact hget
  | file _ _ hfiles => exact Table.get_insert_of_get _ hfiles.fresh hget
  | _ => exact hget

/-- **Who files a record**: a submission of an Observer, under the conditions of
`ComparisonStore.Files`. -/
theorem step_filed {id : ReleaseEndingId} {row : ComparisonRow}
    (hstep : comparisonSystem.Step σ e τ) (hnone : σ.db.comparisons.get id = none)
    (hsome : τ.db.comparisons.get id = some row) :
    ∃ w c clk global target, e = .act w (.submit clk) ∧ σ.collectors.get w = some c ∧
      c.lease.endingId = id ∧ c.phase = .submitting (some global) (some target) ∧
      σ.db.Files clk ⟨global, target⟩ c.lease row := by
  have habsurd : σ.db.comparisons.get id ≠ some row := by
    rw [hnone]
    simp
  cases step_change hstep with
  | attempt _ _ hinsert =>
    obtain ⟨-, -, -, -, -, -, rfl⟩ := ComparisonStore.insertAttempt_ok hinsert
    exact absurd hsome habsurd
  | @file w c clk global target record hget hphase hfiles =>
    rcases Table.get_insert_eq_some.1 hsome with ⟨rfl, rfl⟩ | ⟨-, hsome⟩
    · exact ⟨w, c, clk, global, target, rfl, hget, rfl, hphase, hfiles⟩
    · exact absurd hsome habsurd
  | idle => exact absurd hsome habsurd
  | base => exact absurd hsome habsurd
  | select => exact absurd hsome habsurd
  | spent => exact absurd hsome habsurd
  | move => exact absurd hsome habsurd
  | ask => exact absurd hsome habsurd

/-! ## The gates -/

/-- The gate was open at the generation, and may have moved since. -/
def Since (generation : ℕ) (gate : Gate) : Prop :=
  generation ≤ gate.generation ∧ (gate.generation = generation → gate.suspended = false)

omit [ComparisonTexts] in
theorem Since.advance {generation : ℕ} {gate gate' : Gate} (h : Since generation gate)
    (hadvances : Control.GateAdvances gate gate') : Since generation gate' := by
  refine ⟨h.1.trans hadvances.generation, fun heq => ?_⟩
  have hfirst := h.1
  have hsecond := hadvances.generation
  have hstill : gate'.generation = gate.generation := by omega
  rw [hadvances.suspended hstill]
  exact h.2 (hstill.symm.trans heq)

omit [ComparisonTexts] in
theorem Since.moved {generation : ℕ} {gate gate' : Gate} (h : Since generation gate)
    (hadvances : Control.GateAdvances gate gate') (hmoved : gate.generation ≠ generation) :
    gate'.generation ≠ generation := by
  have hfirst := h.1
  have hsecond := hadvances.generation
  omega

/-- The gates of the ending were those of the lease, open, and may have moved since. -/
def Stamped (db : ComparisonStore) (lease : ComparisonLease) : Prop :=
  ∃ scope, db.scopeOf lease.endingId = .ok scope ∧
    Since lease.globalSuspensionGeneration scope.global ∧
    Since lease.targetSuspensionGeneration scope.target

/-- The gates of the ending are no longer those of the lease. -/
def Moved (db : ComparisonStore) (lease : ComparisonLease) : Prop :=
  ∀ scope, db.scopeOf lease.endingId = .ok scope → lease.admits scope = false

omit [ComparisonTexts] in
theorem scopeOf_eq_ok {db : ComparisonStore} {id : ReleaseEndingId} :
    db.scopeOf id = .ok scope ↔ ∃ release target, db.base.releases.get id.1 = some release ∧
      db.base.store.targetSuspensions.get release.terms.targetId = some target ∧
      scope = ⟨db.base.store.scope, target⟩ := by
  rw [ComparisonStore.scopeOf, bind_eq_ok]
  simp only [ReleaseStore.releaseRow, require_eq_ok, ReleaseStore.releaseScope,
    require_bind_eq_ok, pure_eq_ok]
  constructor
  · rintro ⟨release, hrelease, target, htarget, rfl⟩
    exact ⟨release, target, hrelease, htarget, rfl⟩
  · rintro ⟨release, target, hrelease, htarget, rfl⟩
    exact ⟨release, hrelease, target, htarget, rfl⟩

omit [ComparisonTexts] in
/-- Open gates that have not moved admit the lease. -/
theorem admits_of_since {lease : ComparisonLease}
    (hglobal : Since lease.globalSuspensionGeneration scope.global)
    (htarget : Since lease.targetSuspensionGeneration scope.target) :
    lease.admits scope = true ↔ scope.global.generation = lease.globalSuspensionGeneration ∧
      scope.target.generation = lease.targetSuspensionGeneration := by
  simp only [ComparisonLease.admits, Scope.suspended, Bool.and_eq_true, Bool.not_eq_true',
    Bool.or_eq_false_iff, decide_eq_true_eq]
  exact ⟨fun h => ⟨h.1.2, h.2⟩, fun h => ⟨⟨⟨hglobal.2 h.1, htarget.2 h.2⟩, h.1⟩, h.2⟩⟩

omit [ComparisonTexts] in
/-- An ending is pending under open gates. -/
theorem pending_stamped {db : ComparisonStore} {now : Time} {id : ReleaseEndingId}
    {lease : ComparisonLease} (h : db.pending now id = some lease) : Stamped db lease := by
  simp only [ComparisonStore.pending, Option.bind_eq_bind, Option.bind_eq_some_iff,
    Option.pure_def, Option.some.injEq, Option.guard_eq_some'] at h
  obtain ⟨ending, -, release, hrelease, sampleId, -, sample, -, target, htarget, key, -, -,
    ⟨-, hglobal, hopen, -⟩, rfl⟩ := h
  exact ⟨_, scopeOf_eq_ok.2 ⟨release, target, hrelease, htarget, rfl⟩,
    ⟨le_rfl, fun _ => hglobal⟩, ⟨le_rfl, fun _ => hopen⟩⟩

/-- What an operation on the releases does to the gates of an ending. -/
theorem base_gates {db : ComparisonStore} {id : ReleaseEndingId} {call : ReleaseCall}
    {base : ReleaseStore} (hstep : releaseSystem.Step db.base call base)
    (hscope : db.scopeOf id = .ok scope) :
    ∃ scope', ({ db with base } : ComparisonStore).scopeOf id = .ok scope' ∧
      Control.GateAdvances scope.global scope'.global ∧
      Control.GateAdvances scope.target scope'.target := by
  obtain ⟨release, target, hrelease, htarget, rfl⟩ := scopeOf_eq_ok.1 hscope
  obtain ⟨release', hrelease', hterms, -, -⟩ := (ReleaseStore.step_advances hstep).row hrelease
  obtain ⟨hglobal, hgates⟩ := ReleaseStore.step_gates hstep
  obtain ⟨target', htarget', hadvances⟩ := hgates htarget
  exact ⟨_, scopeOf_eq_ok.2 ⟨release', target', hrelease', by rw [hterms]; exact htarget', rfl⟩,
    hglobal, hadvances⟩

/-- Every lease of an Observer was claimed under open gates. -/
theorem step_stamped (hstep : comparisonSystem.Step σ e τ)
    (h : ∀ w c, σ.collectors.get w = some c → Stamped σ.db c.lease) :
    ∀ w c, τ.collectors.get w = some c → Stamped τ.db c.lease := by
  -- an Observer that goes on has the claim it had
  have hgoes : ∀ {w : UUID} {c c' : Collector}, σ.collectors.get w = some c →
      c.lease.SameClaim c'.lease → Stamped σ.db c'.lease := by
    intro w c c' hget hclaim
    obtain ⟨scope, hscope, hglobal, htarget⟩ := h w c hget
    exact ⟨scope, by rw [hclaim.ending]; exact hscope, by rw [hclaim.global]; exact hglobal,
      by rw [hclaim.target]; exact htarget⟩
  have hput : ∀ {db : ComparisonStore} {w : UUID} {c' : Collector}, db.base = σ.db.base →
      Stamped σ.db c'.lease →
      ∀ w' d, (σ.collectors.insert w c').get w' = some d → Stamped db d.lease := by
    intro db w c' hbase hstamped w' d hd
    have hstamped' : ∀ lease, Stamped σ.db lease → Stamped db lease := by
      rintro lease ⟨scope, hscope, hsince⟩
      exact ⟨scope, scopeOf_eq_ok.2 (by rw [hbase]; exact scopeOf_eq_ok.1 hscope), hsince⟩
    rcases Table.get_insert_eq_some.1 hd with ⟨-, rfl⟩ | ⟨-, hd⟩
    · exact hstamped' _ hstamped
    · exact hstamped' _ (h w' d hd)
  cases step_change hstep with
  | idle => exact h
  | base hbase =>
    intro w c hget
    obtain ⟨scope, hscope, hglobal, htarget⟩ := h w c hget
    obtain ⟨scope', hscope', hadvances, hadvances'⟩ := base_gates hbase hscope
    exact ⟨scope', hscope', hglobal.advance hadvances, htarget.advance hadvances'⟩
  | select hnew hpending => exact hput rfl (pending_stamped hpending)
  | spent hget hspent hclaim => exact hput rfl (hgoes hget hclaim)
  | attempt hget hclaim hinsert =>
    obtain ⟨-, -, -, -, -, -, rfl⟩ := ComparisonStore.insertAttempt_ok hinsert
    exact hput rfl (hgoes hget hclaim)
  | move hget hlease => exact hput rfl (hgoes hget (hlease ▸ ⟨rfl, rfl, rfl⟩))
  | ask hget hlease => exact hput rfl (hgoes hget (hlease ▸ ⟨rfl, rfl, rfl⟩))
  | file hget => exact hput rfl (hgoes hget ⟨rfl, rfl, rfl⟩)

/-- Every lease of an Observer was claimed under open gates, in every reachable state. -/
theorem reachable_stamped (h : comparisonSystem.Reachable σ) :
    ∀ w c, σ.collectors.get w = some c → Stamped σ.db c.lease := by
  refine h.invariant (P := fun σ => ∀ w c, σ.collectors.get w = some c → Stamped σ.db c.lease)
    (fun σ hinit w c hget => ?_) fun hstep hstamped => step_stamped hstep hstamped
  rw [hinit.2.2.2.1, Table.get_empty] at hget
  cases hget

/-- An Observer keeps its claim, and gates that moved since stay moved. -/
theorem step_moved (hstep : comparisonSystem.Step σ e τ)
    (hstamped : ∀ w c, σ.collectors.get w = some c → Stamped σ.db c.lease)
    (hget : σ.collectors.get w = some c) (hmoved : Moved σ.db c.lease) :
    ∃ c', τ.collectors.get w = some c' ∧ Moved τ.db c'.lease := by
  have hput : ∀ {db : ComparisonStore} {w' : UUID} {d d' : Collector}, db.base = σ.db.base →
      σ.collectors.get w' = some d → d.lease.SameClaim d'.lease →
      ∃ c', (σ.collectors.insert w' d').get w = some c' ∧ Moved db c'.lease := by
    intro db w' d d' hbase hd hclaim
    have hmoved' : Moved db c.lease := fun scope hscope =>
      hmoved scope (scopeOf_eq_ok.2 (by rw [← hbase]; exact scopeOf_eq_ok.1 hscope))
    by_cases hw : w = w'
    · subst hw
      obtain rfl := Option.some.inj (hget.symm.trans hd)
      refine ⟨d', Table.get_insert_self _ _ _, fun scope hscope => ?_⟩
      rw [hclaim.ending] at hscope
      have hnot := hmoved' scope hscope
      rw [ComparisonLease.admits, hclaim.global, hclaim.target]
      exact hnot
    · exact ⟨c, by rw [Table.get_insert_ne _ _ hw]; exact hget, hmoved'⟩
  cases step_change hstep with
  | idle => exact ⟨c, hget, hmoved⟩
  | base hbase =>
    refine ⟨c, hget, fun scope' hscope' => ?_⟩
    obtain ⟨scope, hscope, hglobal, htarget⟩ := hstamped w c hget
    obtain ⟨scope'', hscope'', hadvances, hadvances'⟩ := base_gates hbase hscope
    obtain rfl := Except.ok.inj (hscope''.symm.trans hscope')
    rw [← Bool.not_eq_true, admits_of_since (hglobal.advance hadvances)
      (htarget.advance hadvances'), not_and_or]
    have hnot := hmoved scope hscope
    rw [← Bool.not_eq_true, admits_of_since hglobal htarget, not_and_or] at hnot
    rcases hnot with hnot | hnot
    · exact .inl (hglobal.moved hadvances hnot)
    · exact .inr (htarget.moved hadvances' hnot)
  | @select w' owner id now lease hnew =>
    have hw : w ≠ w' := by
      rintro rfl
      rw [hget] at hnew
      cases hnew
    exact ⟨c, (Table.get_insert_ne _ _ hw).trans hget, hmoved⟩
  | spent hd hspent hclaim => exact hput rfl hd hclaim
  | attempt hd hclaim hinsert =>
    obtain ⟨-, -, -, -, -, -, rfl⟩ := ComparisonStore.insertAttempt_ok hinsert
    exact hput rfl hd hclaim
  | move hd hlease => exact hput rfl hd (hlease ▸ ⟨rfl, rfl, rfl⟩)
  | ask hd hlease => exact hput rfl hd (hlease ▸ ⟨rfl, rfl, rfl⟩)
  | file hd => exact hput rfl hd ⟨rfl, rfl, rfl⟩

/-- No gate that a submission has read moves before the submission commits. -/
def Fenced (σ : ComparisonWorld) (e : ComparisonEvent) : Prop :=
  ∀ call base, e = .release call → releaseSystem.Step σ.db.base call base →
    ∀ w c, σ.collectors.get w = some c → c.ReadFrom σ.db → c.ReadFrom { σ.db with base }

/-- In the runs of fenced steps, the gates a submission has read are those of the database. -/
theorem step_readFrom (hstep : comparisonSystem.Step σ e τ) (hfenced : Fenced σ e)
    (h : ∀ w c, σ.collectors.get w = some c → c.ReadFrom σ.db) :
    ∀ w c, τ.collectors.get w = some c → c.ReadFrom τ.db := by
  have hput : ∀ {db : ComparisonStore} {w : UUID} {c' : Collector}, db.base = σ.db.base →
      c'.ReadFrom σ.db → ∀ w' d, (σ.collectors.insert w c').get w' = some d → d.ReadFrom db := by
    intro db w c' hbase hread w' d hd
    have hsame : ∀ {d : Collector}, d.ReadFrom σ.db → d.ReadFrom db := by
      intro d hd global target hphase
      obtain ⟨hglobal, htarget⟩ := hd global target hphase
      rw [hbase]
      exact ⟨hglobal, fun gate hgate scope hscope => htarget gate hgate scope
        (scopeOf_eq_ok.2 (by rw [← hbase]; exact scopeOf_eq_ok.1 hscope))⟩
    rcases Table.get_insert_eq_some.1 hd with ⟨-, rfl⟩ | ⟨-, hd⟩
    · exact hsame hread
    · exact hsame (h w' d hd)
  cases step_change hstep with
  | idle => exact h
  | base hbase => exact fun w c hget => hfenced _ _ rfl hbase w c hget (h w c hget)
  | select hnew hpending => exact hput rfl (readFrom_of_ne fun _ _ => by simp)
  | spent hget hspent hclaim hlease hphase =>
    exact hput rfl (readFrom_of_ne fun _ _ => by simp [hphase])
  | attempt hget hclaim hinsert hholds hprogress hread =>
    obtain ⟨-, -, -, -, -, -, rfl⟩ := ComparisonStore.insertAttempt_ok hinsert
    exact hput rfl hread
  | move hget hlease hprogress hread => exact hput rfl (hread (h _ _ hget))
  | ask hget hlease hattempt hprogress hread => exact hput rfl hread
  | file hget => exact hput rfl (readFrom_none rfl)

/-- The gates a submission has read are those of the database, in every state a run of fenced steps
reaches. -/
theorem reachable_readFrom (h : (comparisonSystem.restrict Fenced).Reachable σ) :
    ∀ w c, σ.collectors.get w = some c → c.ReadFrom σ.db := by
  refine h.invariant (P := fun σ => ∀ w c, σ.collectors.get w = some c → c.ReadFrom σ.db)
    (fun σ hinit w c hget => ?_) fun hstep hread => step_readFrom hstep.1 hstep.2 hread
  rw [hinit.2.2.2.1, Table.get_empty] at hget
  cases hget

/-- A submission whose gates moved since the claim files nothing, if they are still those it has
read. -/
theorem submit_blocked {clk : SubmitClock}
    (hstep : comparisonSystem.Step σ (.act w (.submit clk)) τ)
    (hstamped : ∀ w c, σ.collectors.get w = some c → Stamped σ.db c.lease)
    (hread : ∀ w c, σ.collectors.get w = some c → c.ReadFrom σ.db)
    (hget : σ.collectors.get w = some c) (hmoved : Moved σ.db c.lease) :
    ∀ id, σ.db.comparisons.get id = none → τ.db.comparisons.get id = none := by
  intro id hnone
  cases hsome : τ.db.comparisons.get id with
  | none => rfl
  | some row =>
    obtain ⟨w', d, clk', global, target, heq, hd, -, hphase, hfiles⟩ := step_filed hstep hnone hsome
    cases heq
    obtain rfl := Option.some.inj (hget.symm.trans hd)
    obtain ⟨scope, hscope, -⟩ := hstamped w c hget
    obtain ⟨hglobal, htarget⟩ := hread w c hget _ _ hphase
    have hgates : (⟨global, target⟩ : Scope) = scope := by
      obtain ⟨release, gate, -, -, rfl⟩ := scopeOf_eq_ok.1 hscope
      rw [hglobal global rfl, htarget target rfl _ hscope]
    have hadmits := hfiles.admits
    rw [hgates, hmoved scope hscope] at hadmits
    cases hadmits

/-- **Comparison attempts.** In every reachable state, an ending has at most three attempts,
numbered from one; its record, once filed, stays the only one; a record is filed by a submission
whose lease is the latest attempt's and within its lease, or, empty, once the third attempt lapsed;
and the queries sent for the ending are no more than three plans. If no gate that a submission has
read moves before it commits, then gates that moved since a claim block its submissions. -/
theorem comparison_attempts (h : comparisonSystem.Reachable σ) (id : ReleaseEndingId) :
    (σ.db.attemptCount id ≤ 3 ∧ ∀ n, (σ.db.attempts.get (id, n)).isSome = true ↔
      1 ≤ n ∧ n ≤ σ.db.attemptCount id) ∧
    (∀ row, σ.db.comparisons.get id = some row → ∀ events τ, comparisonSystem.Run σ events τ →
      τ.db.comparisons.get id = some row) ∧
    (∀ e τ row, comparisonSystem.Step σ e τ → σ.db.comparisons.get id = none →
      τ.db.comparisons.get id = some row →
      ∃ w c clk scope, e = .act w (.submit clk) ∧ σ.collectors.get w = some c ∧
        c.lease.endingId = id ∧ σ.db.Files clk scope c.lease row) ∧
    (∃ plans : ℕ → QueryPlan,
      (∀ n, plans n = ∅ ∨ ∃ context uids, context.sessionId = id.2 ∧
        buildReleaseComparisonPlan context uids = some (plans n)) ∧
      (∀ n, (plans n).Covers (σ.askedIn id n)) ∧
      (σ.askedFor id).length ≤
        (plans 1).queries.length + (plans 2).queries.length + (plans 3).queries.length) ∧
    ((comparisonSystem.restrict Fenced).Reachable σ →
      ∀ w c, σ.collectors.get w = some c → Moved σ.db c.lease →
        ∀ events τ, (comparisonSystem.restrict Fenced).Run σ events τ →
          ∀ clk τ', comparisonSystem.Step τ (.act w (.submit clk)) τ' →
            ∀ id, τ.db.comparisons.get id = none → τ'.db.comparisons.get id = none) := by
  have hsound := reachable_sound h
  refine ⟨⟨hsound.most id, hsound.dense id⟩, fun row hget events τ hrun => ?_,
    fun e τ row hstep hnone hsome => ?_, queries_le hsound id, ?_⟩
  · exact hrun.stable (P := fun σ => σ.db.comparisons.get id = some row)
      (fun hstep hget => step_record hstep hget) hget
  · obtain ⟨w, c, clk, global, target, he, hget, hid, -, hfiles⟩ := step_filed hstep hnone hsome
    exact ⟨w, c, clk, _, he, hget, hid, hfiles⟩
  · intro hfenced w c hget hmoved events τ hrun clk τ' hstep
    have hlater : ∃ c', τ.collectors.get w = some c' ∧ Moved τ.db c'.lease := by
      refine hrun.stable_of
        (P := fun σ => ∃ c', σ.collectors.get w = some c' ∧ Moved σ.db c'.lease)
        (I := comparisonSystem.Reachable) (A := fun _ => True) (fun hstep hs => hs.step hstep.1)
        (fun hstep _ hs hmoved => ?_) (fun _ _ => trivial) h ⟨c, hget, hmoved⟩
      obtain ⟨d, hd, hmoved⟩ := hmoved
      exact step_moved hstep.1 (reachable_stamped hs) hd hmoved
    obtain ⟨c', hget', hmoved'⟩ := hlater
    have hreachable := hfenced.run hrun
    exact submit_blocked hstep (reachable_stamped hreachable.of_restrict)
      (reachable_readFrom hreachable) hget' hmoved'

/-! ## Runs -/

/-- The world after an event, if it happens. -/
def apply (σ : ComparisonWorld) (e : ComparisonEvent) : ComparisonWorld :=
  (σ.after e).getD σ

theorem step_apply (σ : ComparisonWorld) (e : ComparisonEvent) :
    comparisonSystem.Step σ e (σ.apply e) := by
  cases h : σ.after e with
  | none => exact .inl (by rw [apply, h]; rfl)
  | some τ => exact .inr (by rw [apply, h]; rfl)

omit [ComparisonTexts] in
/-- No submission is between its reads and its insert. -/
def unread (σ : ComparisonWorld) : Bool :=
  σ.collectors.rows.all fun e =>
    match e.2.phase with
    | .submitting global target => global.isNone && target.isNone
    | _ => true

/-- Only operations on the releases may move a gate, and they come while nothing is read. -/
def quiet (σ : ComparisonWorld) : List ComparisonEvent → Bool
  | [] => true
  | .release call :: events => σ.unread && quiet (σ.apply (.release call)) events
  | e :: events => quiet (σ.apply e) events

theorem fenced_of_unread (h : σ.unread = true) : Fenced σ e := by
  intro call base he hstep w c hget hread global target hphase
  rw [unread, List.all_eq_true] at h
  have hnone := h (w, c) (Table.mem_rows_iff.2 hget)
  simp only [hphase, Bool.and_eq_true, Option.isNone_iff_eq_none] at hnone
  obtain ⟨rfl, rfl⟩ := hnone
  exact ⟨fun gate hgate => (by cases hgate), fun gate hgate => by cases hgate⟩

/-- A quiet run is a fenced one. -/
theorem run_quiet (σ : ComparisonWorld) (events : List ComparisonEvent)
    (h : σ.quiet events = true) :
    (comparisonSystem.restrict Fenced).Run σ events (events.foldl apply σ) := by
  induction events generalizing σ with
  | nil => exact .nil σ
  | cons e events ih =>
    cases e with
    | release call =>
      rw [quiet, Bool.and_eq_true] at h
      exact .cons ⟨step_apply σ _, fenced_of_unread h.1⟩ (ih _ h.2)
    | select w owner id now =>
      exact .cons ⟨step_apply σ _, fun call base he => by cases he⟩ (ih _ h)
    | act w a => exact .cons ⟨step_apply σ _, fun call base he => by cases he⟩ (ih _ h)

theorem run_apply (σ : ComparisonWorld) (events : List ComparisonEvent) :
    comparisonSystem.Run σ events (events.foldl apply σ) := by
  induction events generalizing σ with
  | nil => exact .nil σ
  | cons e events ih => exact .cons (step_apply σ e) (ih _)

end ComparisonWorld

end

/-! ## A release that is compared -/

namespace Comparing

/-- Every sample of the service `api` is degraded, and it has one signal. -/
scoped instance comparisonTexts : ComparisonTexts where
  toReleaseTexts := { Scenario.releaseTexts with
    evaluateReleaseSample := fun _ _ _ => {
      verdict := .degraded, outcome := .degraded, evidenceSufficient := true, report := .obj [] } }
  signals _ := [⟨"error_ratio", "rate", "count", "time"⟩]
  evaluationWindow _ := 300
  evaluationWindow_pos _ := by decide
  versionIdentity _ := none
  mappingQuery _ _ _ _ := ""
  sliceQueries _ _ _ := some []
  mappedInstances _ _ := []
  compareEvidence _ _ _ evidence _ := ⟨.incomplete, evidence.attempts, [], .obj []⟩
  comparisonFingerprint _ := "evidence"

/-- The lease of the only sample. -/
def sampleLease : ReleaseSampleLease where
  sessionId := 101
  observationId := 1
  jobId := 201
  sequence := 1
  owner := 9
  epoch := 1
  leaseUntil := seconds 150
  subjectControlGeneration := 0
  observationGeneration := 1
  healthProfileRevision := Scenario.profileRevision
  calibratedPolicyRevision := "slo@1"
  deadlineAt := seconds 600
  sampleIntervalSeconds := 60
  adoptedWindowEnd := none
  globalSuspensionGeneration := 0
  targetSuspensionGeneration := 0

/-- An answer without data. -/
def noData : VectorAnswer := ⟨none, .noData, none, "", true, [], ""⟩

theorem sampleWindow_lt : seconds 30 < seconds 90 := by decide

/-- The release is recorded, authorized, and ended by a degraded sample; an Observer claims its
comparison, asks its three queries and reads both gates. -/
def events : List ComparisonEvent :=
  Scenario.releaseCalls.map .release ++
    [.release ⟨.claimReleaseDue 9 101 60, Scenario.releaseClock 90⟩,
      .release ⟨.submitReleaseSample sampleLease
        ⟨50, ⟨seconds 30, seconds 90, sampleWindow_lt⟩, [], List.nodup_nil⟩ 202,
        Scenario.releaseClock 100⟩,
      .select 1 9 (1, 101) (seconds 110),
      .act 1 (.claim ⟨seconds 110, seconds 110, seconds 110⟩), .act 1 .start,
      .act 1 .check, .act 1 (.ask noData), .act 1 .check, .act 1 (.ask noData),
      .act 1 .check, .act 1 (.ask noData), .act 1 .slice, .act 1 .conclude,
      .act 1 .readGlobal, .act 1 .readTarget]

/-- The target is suspended. -/
def suspension : ComparisonEvent :=
  .release ⟨.base (.setTargetSuspension (.id 7) 0 true 0 "anna")
    ⟨seconds 120, seconds 120, le_rfl⟩, Scenario.releaseClock 120⟩

/-- The record is submitted. -/
def submission : ComparisonEvent :=
  .act 1 (.submit ⟨seconds 130, seconds 130, seconds 130, seconds 130⟩)

/-- The world the first `n` events lead to. -/
def reached (n : ℕ) : ComparisonWorld := (events.take n).foldl ComparisonWorld.apply {}

/-- The same, and then the suspension. -/
def suspended (n : ℕ) : ComparisonWorld := (reached n).apply suspension

theorem init : comparisonSystem.Init {} := ⟨⟨rfl, rfl, rfl, rfl, rfl⟩, rfl, rfl, rfl, rfl⟩

theorem suspended_reachable (n : ℕ) : comparisonSystem.Reachable (suspended n) :=
  ⟨{}, events.take n ++ [suspension], init,
    (ComparisonWorld.run_apply _ _).append (.single (ComparisonWorld.step_apply _ _))⟩

/-- The Observer has a lease, and its gates have moved. -/
def behind (σ : ComparisonWorld) : Bool :=
  (σ.collectors.get 1).any fun c =>
    (σ.db.scopeOf c.lease.endingId).toOption.all fun scope => c.lease.admits scope = false

theorem moved_of_behind {σ : ComparisonWorld} (h : behind σ = true) :
    ∃ c, σ.collectors.get 1 = some c ∧ ComparisonWorld.Moved σ.db c.lease := by
  obtain ⟨c, hget, hall⟩ := (Option.any_eq_true _ _).1 h
  refine ⟨c, hget, fun scope hscope => ?_⟩
  rw [hscope] at hall
  simpa [Except.toOption] using hall

/-- **A record that a suspension did not block.** The target is suspended after the Observer read
its gate and before its record is inserted. -/
theorem filed_while_suspended : ¬ ∀ σ : ComparisonWorld, comparisonSystem.Reachable σ →
    ∀ w c, σ.collectors.get w = some c → ComparisonWorld.Moved σ.db c.lease →
      ∀ clk τ, comparisonSystem.Step σ (.act w (.submit clk)) τ →
        ∀ id, σ.db.comparisons.get id = none → τ.db.comparisons.get id = none := by
  intro hblocks
  have hrun : behind (suspended 17) = true ∧
      (suspended 17).db.comparisons.get (1, 101) = none ∧
      (((suspended 17).apply submission).db.comparisons.get (1, 101)).isSome = true := by
    decide +kernel
  obtain ⟨hbehind, hbefore, hfiled⟩ := hrun
  obtain ⟨c, hget, hmoved⟩ := moved_of_behind hbehind
  have hnone := hblocks (suspended 17) (suspended_reachable 17) 1 c hget hmoved _ _
    (ComparisonWorld.step_apply _ submission) (1, 101) hbefore
  rw [hnone] at hfiled
  cases hfiled

/-- A suspension before the gates are read blocks the record. -/
theorem comparison_attempts_suspended : (suspended 15).db.attemptCount (1, 101) ≤ 3 ∧
    ((([.act 1 .readGlobal, .act 1 .readTarget, submission] : List ComparisonEvent).foldl
      ComparisonWorld.apply (suspended 15)).db.comparisons.get (1, 101)) = none := by
  obtain ⟨⟨hmost, -⟩, -, -, -, hblocks⟩ :=
    ComparisonWorld.comparison_attempts (suspended_reachable 15) (1, 101)
  have hcheck : behind (suspended 15) = true ∧
      ComparisonWorld.quiet {} (events.take 15 ++ [suspension]) = true ∧
      (suspended 15).quiet [.act 1 .readGlobal, .act 1 .readTarget] = true ∧
      ((([.act 1 .readGlobal, .act 1 .readTarget] : List ComparisonEvent).foldl
        ComparisonWorld.apply (suspended 15)).db.comparisons.get (1, 101)) = none := by
    decide +kernel
  obtain ⟨hbehind, hquiet, hreads, hnone⟩ := hcheck
  obtain ⟨c, hget, hmoved⟩ := moved_of_behind hbehind
  have hfenced := ComparisonWorld.run_quiet {} (events.take 15 ++ [suspension]) hquiet
  simp only [List.foldl_append, List.foldl_cons, List.foldl_nil] at hfenced
  have hrun := ComparisonWorld.run_quiet (suspended 15) [.act 1 .readGlobal, .act 1 .readTarget]
    hreads
  have hblocked := hblocks ⟨{}, _, init, hfenced⟩ 1 c hget hmoved _ _ hrun _ _
    (ComparisonWorld.step_apply _ submission) (1, 101) hnone
  simp only [List.foldl_cons, List.foldl_nil] at hblocked ⊢
  exact ⟨hmost, hblocked⟩

end Comparing

end OpsPilot
