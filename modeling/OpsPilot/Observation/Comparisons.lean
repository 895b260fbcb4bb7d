import OpsPilot.Foundations.Ranking
import OpsPilot.Observation.ReleaseRecords
import OpsPilot.Observation.ReleaseSamples

/-!
# Comparing a release with what was before it

After an anomaly ended a release, the Observer collects the evidence of the window before the
release, once, and files one record (`submitComparison`). A collection is an attempt, and an attempt
is a row that is inserted before its first query (`insertAttempt`): at most three of an ending.

The claims and the records of one ending wait for each other (an advisory lock), so they are atomic
here. The gates are read without a lock, by an earlier statement of the same transaction; a
submission gets them as an argument.

* `buildReleaseComparisonPlan`: the queries of one collection.
* `insertAttempt_ok`, `submitComparison_ok`: what a committed claim and a committed record say.
-/

namespace OpsPilot

/-- `COMPARISON_MAX_ATTEMPTS`. -/
def comparisonMaxAttempts : ℕ := 3

/-- `COMPARISON_MAX_QUERIES`. -/
def comparisonMaxQueries : ℕ := 49

/-- `ATTEMPT_LEASE_SECONDS`. -/
def attemptLeaseSeconds : ℕ := 150

/-! ## The tables -/

/-- `opspilot_release_comparison_attempts`; the key is the ending and the number of the attempt. -/
structure ComparisonAttemptRow where
  owner : UUID
  leaseUntil : Time
  recordedAt : Time
  deriving DecidableEq

/-- The status of a comparison: `complete`, `partial` or `unavailable`. -/
inductive ComparisonStatus
  | complete | incomplete | unavailable
  deriving DecidableEq, Repr

/-- `ReleaseComparison`; `report` has its windows, instances and signals. -/
structure ReleaseComparison where
  status : ComparisonStatus
  attempts : ℕ
  reasonCodes : List String
  report : Json
  deriving DecidableEq

/-- `opspilot_release_comparisons` with its rows of `opspilot_release_comparison_queries`; the key
is the ending. -/
structure ComparisonRow where
  sampleId : UUID
  owner : UUID
  attempts : ℕ
  windowBefore : QueryWindow
  windowAfter : QueryWindow
  decisionAt : Time
  evidenceSha256 : String
  comparison : ReleaseComparison
  queries : List ReleaseQueryResult
  recordedAt : Time
  deriving DecidableEq

/-- The tables of the releases, with those of their comparisons. -/
structure ComparisonStore where
  base : ReleaseStore := {}
  attempts : Table (ReleaseEndingId × ℕ) ComparisonAttemptRow := ∅
  comparisons : Table ReleaseEndingId ComparisonRow := ∅

/-- `ComparisonLease`. The id of a comparison is the `uuid5` of its release and its ending, so it is
the ending here, which says its release and its session. -/
structure ComparisonLease where
  endingId : ReleaseEndingId
  sampleId : UUID
  anomalyKey : UUID
  releasedAt : Time
  windowAfter : QueryWindow
  globalSuspensionGeneration : ℕ
  targetSuspensionGeneration : ℕ
  attempt : Option ℕ := none
  owner : Option UUID := none
  leaseUntil : Option Time := none
  exhausted : Bool := false
  deriving DecidableEq

/-- `ReleaseComparisonEvidence`: no query key comes twice. -/
structure ReleaseComparisonEvidence where
  comparisonId : ReleaseEndingId
  attempts : ℕ
  window : QueryWindow
  queries : List ReleaseQueryResult
  attempts_mem : 1 ≤ attempts ∧ attempts ≤ comparisonMaxAttempts
  length_queries : queries.length ≤ comparisonMaxQueries
  unique_queries : (queries.map (·.queryKey)).Nodup

/-- `ComparisonReceipt`. -/
structure ComparisonReceipt where
  comparisonId : ReleaseEndingId
  replayed : Bool
  comparison : ReleaseComparison
  deriving DecidableEq

/-- What a comparison operation raises. -/
inductive ComparisonError
  | release (error : ReleaseError)
  | invalidInput | integrityRefused | comparisonLeaseLost | scopeChanged
  deriving DecidableEq, Repr

/-! ## The queries of one collection -/

/-- A signal of a `HealthProfile`, as a query plan reads it. -/
structure PlanSignal where
  name : String
  query : String
  coverageQuery : String
  freshnessQuery : String
  deriving DecidableEq

/-- What a comparison calls on texts and telemetry: the signals and the window of a profile, the
name of the replica set (`version_identity`), the PromQL texts of the mapping and of the slice of a
signal, the evaluator and the hash of the evidence. -/
class ComparisonTexts extends ReleaseTexts where
  signals : HealthProfile → List PlanSignal
  evaluationWindow : HealthProfile → ℕ
  evaluationWindow_pos : ∀ profile, 0 < evaluationWindow profile
  versionIdentity : ReleaseContext → Option String
  mappingQuery : ReleaseContext → String → String → String → String
  sliceQueries : HealthProfile → List UUID → PlanSignal → Option (List (String × String))
  mappedInstances : ReleaseContext → ReleaseComparisonEvidence → List UUID
  compareEvidence : ReleaseContext → ComparisonLease → ReleaseEvaluation →
    ReleaseComparisonEvidence → Time → ReleaseComparison
  comparisonFingerprint : ReleaseComparisonEvidence → String

/-- `AFTER_SIGNALS`. -/
def afterSignals : List String :=
  ["request_rate_per_second", "error_ratio", "latency_p95_milliseconds", "dependency_error_ratio"]

/-- A query plan: the texts under their keys. -/
abbrev QueryPlan := Table String String

/-- The queries of a plan. -/
def QueryPlan.queries (plan : QueryPlan) : List (String × String) := plan.rows.reverse

/-- A plan from its queries; the last text under a key is the one. -/
def QueryPlan.ofQueries (queries : List (String × String)) : QueryPlan :=
  queries.foldl (fun plan e => plan.insert e.1 e.2) ∅

/-- The prefixes of `_KEY_PREFIXES`: of a stored key, and of the key it stands for. -/
def keyPrefixes : List (String × String) :=
  [("before_old:mapping:", "mapping:"), ("before_service:", "context:"), ("before_old:", "after:")]

/-- `_to_stored_key`. -/
def toStoredKey (key : String) : String :=
  match keyPrefixes.find? fun e => e.2.toList.isPrefixOf key.toList with
  | some (stored, short) => stored ++ String.ofList (key.toList.drop short.toList.length)
  | none => key

variable [ComparisonTexts]

/-- `before_window`. -/
def ReleaseContext.beforeWindow (context : ReleaseContext) : QueryWindow where
  start := context.terms.releasedAt -
    seconds (ComparisonTexts.evaluationWindow context.profile)
  «end» := context.terms.releasedAt
  ordered := by
    have hpos := ComparisonTexts.evaluationWindow_pos context.profile
    have hlength : 0 < seconds (ComparisonTexts.evaluationWindow context.profile) := by
      unfold seconds
      omega
    exact sub_lt_self _ hlength

/-- `before_context`: the version before the release in the place of the one after it. -/
def ReleaseContext.before (context : ReleaseContext) : ReleaseContext :=
  let terms := context.terms
  let before := terms.auxiliary.field? "before_pod_template_hash"
  let after := terms.auxiliary.field? "after_pod_template_hash"
  let swap (key : String) (value : Option Json) (auxiliary : Json) : Json :=
    auxiliary.setField key (value.getD .null)
  let swapped :=
    if before.any (· ≠ .null) ∧ before = after then
      { terms with
        afterRevision := terms.beforeRevision
        auxiliary := swap "after_pod_template_hash" before terms.auxiliary }
    else
      { terms with
        beforeRevision := terms.afterRevision
        afterRevision := terms.beforeRevision
        auxiliary := swap "before_pod_template_hash" after
          (swap "after_pod_template_hash" before terms.auxiliary) }
  { context with terms := swapped, authorizedAt := context.beforeWindow.start }

/-- The mapping and context queries of `build_release_query_plan`. -/
def mappingQueries (context : ReleaseContext) : List (String × String) :=
  (match ComparisonTexts.versionIdentity context with
    | none => []
    | some rs =>
      ["replicaset_owner", "pod_owner", "container_info"].flatMap fun name =>
        ["query", "coverage", "freshness"].map fun kind =>
          ("mapping:" ++ name ++ ":" ++ kind, ComparisonTexts.mappingQuery context rs name kind)) ++
    (ComparisonTexts.signals context.profile).flatMap fun signal =>
      [("context:" ++ signal.name ++ ":query", signal.query),
        ("context:" ++ signal.name ++ ":coverage", signal.coverageQuery),
        ("context:" ++ signal.name ++ ":freshness", signal.freshnessQuery)]

/-- The slice queries of `build_release_query_plan`, for the instances that are proven. -/
def sliceQueries (context : ReleaseContext) (instanceUids : List UUID) :
    Option (List (String × String)) :=
  if instanceUids = [] then some []
  else do
    let signals := (ComparisonTexts.signals context.profile).filter (·.name ∈ afterSignals)
    let slices ← signals.mapM fun signal => do
      let texts ← ComparisonTexts.sliceQueries context.profile instanceUids signal
      pure (texts.map fun e => ("after:" ++ signal.name ++ ":" ++ e.1, e.2))
    pure slices.flatten

/-- `build_release_query_plan`: `none` is `HEALTH_PROFILE_INVALID`. -/
def buildReleaseQueryPlan (context : ReleaseContext) (instanceUids : List UUID) :
    Option QueryPlan := do
  guard (ReleaseTexts.supportedProfile context.profile)
  let slices ← sliceQueries context instanceUids
  pure (.ofQueries (mappingQueries context ++ slices))

/-- `build_release_comparison_plan`. -/
def buildReleaseComparisonPlan (context : ReleaseContext) (instanceUids : List UUID) :
    Option QueryPlan := do
  let plan ← buildReleaseQueryPlan context.before instanceUids
  pure (.ofQueries (plan.queries.map fun e => (toStoredKey e.1, e.2)))

/-- `needs_retry`: a query failed or ran into its timeout. -/
def ReleaseComparison.needsRetry (comparison : ReleaseComparison) : Bool :=
  comparison.reasonCodes.any fun code =>
    "QUERY_FAILED:".toList.isPrefixOf code.toList || "QUERY_TIMEOUT:".toList.isPrefixOf code.toList

/-! ## The keys of a plan -/

namespace QueryPlan

variable {plan full : QueryPlan} {keys : List String} {key : String}

omit [ComparisonTexts] in
theorem mem_queries : key ∈ plan.queries.map Prod.fst ↔ (plan.get key).isSome = true := by
  rw [queries, List.map_reverse, List.mem_reverse, List.mem_map, Option.isSome_iff_exists]
  constructor
  · rintro ⟨⟨k, text⟩, hmem, rfl⟩
    exact ⟨text, Table.mem_rows_iff.1 hmem⟩
  · rintro ⟨text, hget⟩
    exact ⟨(key, text), Table.mem_rows_iff.2 hget, rfl⟩

omit [ComparisonTexts] in
theorem get_ofQueries (queries : List (String × String)) :
    ((ofQueries queries).get key).isSome = true ↔ key ∈ queries.map Prod.fst := by
  have hfold : ∀ (l : List (String × String)) (plan : QueryPlan),
      ((l.foldl (fun plan e => plan.insert e.1 e.2) plan).get key).isSome = true ↔
        (plan.get key).isSome = true ∨ key ∈ l.map Prod.fst := by
    intro l
    induction l with
    | nil => simp
    | cons e l ih =>
      intro plan
      rw [List.foldl_cons, ih, Table.get_insert, List.map_cons, List.mem_cons]
      split
      · next heq => simp [heq]
      · next hne => simp [hne]
  rw [ofQueries, hfold, Table.get_empty]
  simp

/-- The keys are different ones of the plan. -/
def Covers (plan : QueryPlan) (keys : List String) : Prop :=
  keys.Nodup ∧ ∀ key ∈ keys, (plan.get key).isSome = true

omit [ComparisonTexts] in
theorem covers_queries (plan : QueryPlan) : plan.Covers (plan.queries.map Prod.fst) := by
  refine ⟨?_, fun key => mem_queries.1⟩
  rw [queries, List.map_reverse, List.nodup_reverse]
  exact plan.keys_nodup

omit [ComparisonTexts] in
theorem Covers.sublist {keys' : List String} (h : plan.Covers keys) (hsub : keys'.Sublist keys) :
    plan.Covers keys' :=
  ⟨hsub.nodup h.1, fun key hkey => h.2 key (hsub.subset hkey)⟩

omit [ComparisonTexts] in
theorem Covers.length_le (h : plan.Covers keys) : keys.length ≤ plan.queries.length := by
  have hsub : keys ⊆ plan.queries.map Prod.fst := fun key hkey => mem_queries.2 (h.2 key hkey)
  have hle := (List.subperm_of_subset h.1 hsub).length_le
  rwa [List.length_map] at hle

omit [ComparisonTexts] in
/-- The queries of a larger plan that are not in the smaller one come on top of its keys. -/
theorem Covers.extend (h : plan.Covers keys)
    (hle : ∀ key, (plan.get key).isSome = true → (full.get key).isSome = true) :
    full.Covers (keys ++ (full.queries.filter fun e => (plan.get e.1).isNone).map Prod.fst) := by
  have hnew : ∀ key ∈ (full.queries.filter fun e => (plan.get e.1).isNone).map Prod.fst,
      plan.get key = none ∧ (full.get key).isSome = true := by
    intro key hkey
    obtain ⟨e, he, rfl⟩ := List.mem_map.1 hkey
    obtain ⟨hmem, hnone⟩ := List.mem_filter.1 he
    exact ⟨by simpa using hnone, mem_queries.1 (List.mem_map_of_mem hmem)⟩
  constructor
  · refine List.nodup_append.2 ⟨h.1, ?_, fun key hkey key' hkey' heq => ?_⟩
    · exact ((List.filter_sublist).map Prod.fst).nodup full.covers_queries.1
    · have hsome := h.2 key hkey
      rw [heq, (hnew key' hkey').1] at hsome
      cases hsome
  · intro key hkey
    rcases List.mem_append.1 hkey with hold | hkey
    · exact hle key (h.2 key hold)
    · exact (hnew key hkey).2

end QueryPlan

/-- The keys of a comparison plan: the stored names of those of the mapping, the context and the
slice. -/
theorem get_buildReleaseComparisonPlan {context : ReleaseContext} {uids : List UUID}
    {plan : QueryPlan} (h : buildReleaseComparisonPlan context uids = some plan) (key : String) :
    ∃ slices, sliceQueries context.before uids = some slices ∧
      ((plan.get key).isSome = true ↔
        ∃ e ∈ mappingQueries context.before ++ slices, toStoredKey e.1 = key) := by
  simp only [buildReleaseComparisonPlan, buildReleaseQueryPlan, Option.bind_eq_bind,
    Option.bind_eq_some_iff, Option.pure_def, Option.some.injEq] at h
  obtain ⟨_, ⟨_, -, slices, hslices, rfl⟩, rfl⟩ := h
  refine ⟨slices, hslices, ?_⟩
  rw [QueryPlan.get_ofQueries, List.map_map, List.mem_map]
  constructor
  · rintro ⟨e, he, rfl⟩
    have hkey := QueryPlan.mem_queries.1 (List.mem_map_of_mem (f := Prod.fst) he)
    obtain ⟨e', he', heq⟩ := List.mem_map.1 ((QueryPlan.get_ofQueries _).1 hkey)
    exact ⟨e', he', by rw [heq]; rfl⟩
  · rintro ⟨e, he, rfl⟩
    have hkey := QueryPlan.mem_queries.2
      ((QueryPlan.get_ofQueries _).2 (List.mem_map_of_mem (f := Prod.fst) he))
    obtain ⟨e', he', heq⟩ := List.mem_map.1 hkey
    exact ⟨e', he', by simp [heq]⟩

/-- The plan without instances is part of every plan of its context. -/
theorem buildReleaseComparisonPlan_le {context : ReleaseContext} {uids : List UUID}
    {plan full : QueryPlan} (hplan : buildReleaseComparisonPlan context [] = some plan)
    (hfull : buildReleaseComparisonPlan context uids = some full) {key : String}
    (hkey : (plan.get key).isSome = true) : (full.get key).isSome = true := by
  obtain ⟨none, hnone, hiff⟩ := get_buildReleaseComparisonPlan hplan key
  obtain ⟨slices, -, hiff'⟩ := get_buildReleaseComparisonPlan hfull key
  obtain ⟨e, he, heq⟩ := hiff.1 hkey
  rw [sliceQueries, if_pos rfl, Option.some.injEq] at hnone
  rw [← hnone, List.append_nil] at he
  exact hiff'.2 ⟨e, List.mem_append_left _ he, heq⟩

/-! ## The operations -/

/-- The readings of the database clock during a claim: of the re-read, of the guard, and the one the
lease is stamped with. -/
structure AttemptClock where
  liveAt : Time
  guardAt : Time
  recordedAt : Time

/-- The readings of the database clock during a submission: of the lease check, of the decision, of
the guard, and the one the record is stamped with. -/
structure SubmitClock where
  checkedAt : Time
  decisionAt : Time
  guardAt : Time
  recordedAt : Time

/-- The gates a comparison was claimed under. -/
def ComparisonLease.admits (lease : ComparisonLease) (scope : Scope) : Bool :=
  !scope.suspended && scope.global.generation = lease.globalSuspensionGeneration &&
    scope.target.generation = lease.targetSuspensionGeneration

namespace ComparisonStore

variable (s : ComparisonStore)

/-- The attempts of an ending. -/
def attemptsOf (id : ReleaseEndingId) : List ((ReleaseEndingId × ℕ) × ComparisonAttemptRow) :=
  s.attempts.select fun key _ => key.1 = id

/-- `SELECT count(*)`. -/
def attemptCount (id : ReleaseEndingId) : ℕ := (s.attemptsOf id).length

/-- An attempt of the ending is within its lease. -/
def live (now : Time) (id : ReleaseEndingId) : Bool :=
  (s.attemptsOf id).any fun e => now < e.2.leaseUntil

/-- `ORDER BY attempt DESC LIMIT 1`. -/
def latest (id : ReleaseEndingId) : Option (ℕ × ComparisonAttemptRow) :=
  ((s.attemptsOf id).mergeSort fun a b => decide (a.1.2 ≤ b.1.2)).getLast?.map
    fun e => (e.1.2, e.2)

/-- The ending is one of an anomaly, of a release that is anomalous. -/
def anomalous (id : ReleaseEndingId) : Bool :=
  (s.base.endings.get id).any (·.anomalyKey.isSome) ∧
    (s.base.releases.get id.1).any (·.status = .anomalous)

/-- The row of a pending ending, as `pending_comparisons` and the first statement of
`claim_comparison` select it: an anomaly under open gates, without a record, that no live attempt
holds. -/
def pending (now : Time) (id : ReleaseEndingId) : Option ComparisonLease := do
  let ending ← s.base.endings.get id
  let release ← s.base.releases.get id.1
  let sampleId ← ending.sampleId
  let sample ← s.base.samples.get sampleId
  let target ← s.base.store.targetSuspensions.get release.terms.targetId
  let anomalyKey ← ending.anomalyKey
  let global := s.base.store.scope
  guard (release.status = .anomalous ∧ global.suspended = false ∧ target.suspended = false ∧
    s.comparisons.get id = none ∧ s.live now id = false)
  pure {
    endingId := id, sampleId, anomalyKey, releasedAt := release.terms.releasedAt
    windowAfter := sample.window
    globalSuspensionGeneration := global.generation
    targetSuspensionGeneration := target.generation }

/-- The insert of an attempt under the checks of its table and its guard: the attempts before it are
there, nobody else is within a lease, and there is no record. -/
def insertAttempt (clk : AttemptClock) (id : ReleaseEndingId) (attempt : ℕ) (owner : UUID) :
    Except ComparisonError (ComparisonAttemptRow × ComparisonStore) := do
  refuse (attempt = 0 ∨ comparisonMaxAttempts < attempt) .integrityRefused
  refuse (s.anomalous id = false) .integrityRefused
  refuse (s.comparisons.get id).isSome .integrityRefused
  refuse (s.attemptCount id ≠ attempt - 1) .integrityRefused
  refuse ((s.attemptsOf id).any fun e => e.2.owner ≠ owner ∧ clk.guardAt < e.2.leaseUntil)
    .integrityRefused
  refuse (s.attempts.get (id, attempt)).isSome .integrityRefused
  let row : ComparisonAttemptRow := {
    owner, recordedAt := clk.recordedAt
    leaseUntil := clk.recordedAt + seconds attemptLeaseSeconds }
  pure (row, { s with attempts := s.attempts.insert (id, attempt) row })

/-- The rest of `claim_comparison`, under the lock of the ending it selected: the next attempt, or
an exhausted lease if all of them are spent. -/
def claimComparison (clk : AttemptClock) (owner : UUID) (lease : ComparisonLease) :
    Except ComparisonError (Option ComparisonLease × ComparisonStore) := do
  if s.live clk.liveAt lease.endingId ∨ (s.comparisons.get lease.endingId).isSome then
    pure (none, s)
  else if comparisonMaxAttempts ≤ s.attemptCount lease.endingId then
    pure (some { lease with
      attempt := some comparisonMaxAttempts, owner := some owner, exhausted := true }, s)
  else do
    let attempt := s.attemptCount lease.endingId + 1
    let (row, t) ← s.insertAttempt clk lease.endingId attempt owner
    pure (some { lease with
      attempt := some attempt, owner := some owner, leaseUntil := some row.leaseUntil
      exhausted := false }, t)

/-- `claim_next_attempt`: the claimer's own next attempt. -/
def claimNextAttempt (clk : AttemptClock) (lease : ComparisonLease) :
    Except ComparisonError (ComparisonLease × ComparisonStore) := do
  let attempt ← require lease.attempt .invalidInput
  let owner ← require lease.owner .invalidInput
  refuse (lease.exhausted ∨ comparisonMaxAttempts ≤ attempt) .invalidInput
  let (row, t) ← s.insertAttempt clk lease.endingId (attempt + 1) owner
  pure ({ lease with attempt := some (attempt + 1), leaseUntil := some row.leaseUntil }, t)

/-- The gates of the release of an ending, as `release_scope` reads them. -/
def scopeOf (id : ReleaseEndingId) : Except ReleaseError Scope := do
  let release ← s.base.releaseRow id.1
  s.base.releaseScope release.terms.targetId

/-- `comparison_scope_current`. -/
def comparisonScopeCurrent (lease : ComparisonLease) : Except ReleaseError Bool := do
  let scope ← s.scopeOf lease.endingId
  pure (lease.admits scope)

/-- `comparison_context`. -/
def comparisonContext (lease : ComparisonLease) : Except ReleaseError ReleaseContext := do
  let session ← require (s.base.sessions.get lease.endingId.2) .notFound
  let release ← s.base.releaseRow session.observationId
  let context ← s.base.contextIn lease.endingId.2 session release
  refuse (session.observationId ≠ lease.endingId.1) (.store .invalidInput)
  pure context

/-- The latest attempt is the lease's, and within its lease; or it is the third, it has lapsed, and
the lease is the exhausted one. -/
def holds (lease : ComparisonLease) (attempt : ℕ) (owner : UUID) (now : Time) : Bool :=
  (s.latest lease.endingId).any fun (number, row) =>
    number = attempt ∧ ((row.owner = owner ∧ now < row.leaseUntil) ∨
      (lease.exhausted ∧ number = comparisonMaxAttempts ∧ ¬ now < row.leaseUntil))

/-- The checks and the guard of a record: its windows are those of the release and of the sample,
and it comes from the holder of the latest attempt within its lease, or is an unavailable one after
the third lapsed. -/
def recordGuard (clk : SubmitClock) (id : ReleaseEndingId) (release : ReleaseRow)
    (sampleWindow : QueryWindow) (row : ComparisonRow) : Bool :=
  row.decisionAt ≤ clk.guardAt ∧ row.windowBefore.end ≤ row.decisionAt ∧ s.anomalous id ∧
    release.terms.releasedAt = row.windowBefore.end ∧
    ((s.base.store.profiles.get release.terms.healthProfileRevision).bind
      fun frozen => ReleaseTexts.healthProfile frozen.content).any (fun profile =>
        row.windowBefore.start = release.terms.releasedAt -
          seconds (ComparisonTexts.evaluationWindow profile)) ∧
    sampleWindow = row.windowAfter ∧ sampleWindow.end ≤ row.decisionAt ∧
    (s.latest id).any fun (number, attempt) =>
      row.attempts = number ∧ ((attempt.owner = row.owner ∧ clk.guardAt < attempt.leaseUntil) ∨
        (number = comparisonMaxAttempts ∧ attempt.leaseUntil ≤ clk.guardAt ∧
          row.comparison.status = .unavailable))

/-- `submit_comparison`, with the gates the transaction read: the holder of the latest attempt, or
whoever found all of them spent, files the one record; it is answered again after that. -/
def submitComparison (clk : SubmitClock) (scope : Scope) (lease : ComparisonLease)
    (evidence : ReleaseComparisonEvidence) :
    Except ComparisonError (ComparisonReceipt × ComparisonStore) := do
  let id := lease.endingId
  let attempt ← require lease.attempt .invalidInput
  let owner ← require lease.owner .invalidInput
  refuse (evidence.comparisonId ≠ id ∨ evidence.attempts ≠ attempt ∨
    (lease.exhausted ∧ evidence.queries ≠ [])) .invalidInput
  refuse (s.holds lease attempt owner clk.checkedAt = false) .comparisonLeaseLost
  match s.comparisons.get id with
  | some row => pure (⟨id, true, row.comparison⟩, s)
  | none => do
    let ending ← require (s.base.endings.get id) .invalidInput
    refuse (ending.sampleId ≠ some lease.sampleId ∨ ending.anomalyKey ≠ some lease.anomalyKey)
      .invalidInput
    let release ← (s.base.releaseRow id.1).mapError .release
    refuse (release.status ≠ .anomalous) .invalidInput
    refuse (lease.admits scope = false) .scopeChanged
    let session ← require (s.base.sessions.get id.2) .invalidInput
    let sample ← require (s.base.samples.get lease.sampleId) .invalidInput
    refuse (sample.window ≠ lease.windowAfter) .invalidInput
    let context ← (s.base.contextIn id.2 session release).mapError .release
    let comparison := ComparisonTexts.compareEvidence context lease sample.evaluation evidence
      clk.decisionAt
    let row : ComparisonRow := {
      sampleId := lease.sampleId, owner, attempts := evidence.attempts
      windowBefore := evidence.window, windowAfter := sample.window, decisionAt := clk.decisionAt
      evidenceSha256 := ComparisonTexts.comparisonFingerprint evidence, comparison
      queries := evidence.queries, recordedAt := clk.recordedAt }
    refuse (s.recordGuard clk id release sample.window row = false) .integrityRefused
    refuse ((s.comparisons.select fun other _ => other.1 = id.1) ≠ []) .integrityRefused
    pure (⟨id, false, comparison⟩, { s with comparisons := s.comparisons.insert id row })

/-! ## What a committed operation says -/

variable {s} {t : ComparisonStore} {id : ReleaseEndingId} {n : ℕ} {owner : UUID}
  {lease lease' : ComparisonLease} {row : ComparisonAttemptRow}

omit [ComparisonTexts] in
/-- An attempt that is inserted is the next one, it is new, and the ending has no record. -/
theorem insertAttempt_ok {clk : AttemptClock} (h : s.insertAttempt clk id n owner = .ok (row, t)) :
    1 ≤ n ∧ n ≤ comparisonMaxAttempts ∧ s.attemptCount id = n - 1 ∧
      s.attempts.get (id, n) = none ∧ s.comparisons.get id = none ∧ row.owner = owner ∧
      t = { s with attempts := s.attempts.insert (id, n) row } := by
  simp only [insertAttempt, refuse_bind_eq_ok, pure_eq_ok, Prod.mk.injEq, not_or, not_lt,
    Option.not_isSome_iff_eq_none, not_not] at h
  obtain ⟨⟨hzero, hmax⟩, -, hnone, hcount, -, hnew, rfl, rfl⟩ := h
  exact ⟨Nat.one_le_iff_ne_zero.2 hzero, hmax, hcount, hnew, hnone, rfl, rfl⟩

omit [ComparisonTexts] in
/-- The inserted attempt counts. -/
theorem attemptCount_insert (hnew : s.attempts.get (id, n) = none) (id' : ReleaseEndingId) :
    ({ s with attempts := s.attempts.insert (id, n) row } : ComparisonStore).attemptCount id' =
      if id' = id then s.attemptCount id' + 1 else s.attemptCount id' := by
  rw [attemptCount, attemptsOf, Table.select_insert _ hnew]
  by_cases h : id' = id
  · rw [if_pos (by simpa using h.symm), if_pos h]
    rfl
  · rw [if_neg (by simpa using Ne.symm h), if_neg h]
    rfl

omit [ComparisonTexts] in
/-- A claim hands out the next attempt, an exhausted lease, or nothing. -/
theorem claimComparison_cases {clk : AttemptClock} {granted : Option ComparisonLease}
    (h : s.claimComparison clk owner lease = .ok (granted, t)) :
    (granted = none ∧ t = s) ∨
      (comparisonMaxAttempts ≤ s.attemptCount lease.endingId ∧ t = s ∧
        granted = some { lease with
          attempt := some comparisonMaxAttempts, owner := some owner, exhausted := true }) ∨
      ∃ row, s.insertAttempt clk lease.endingId (s.attemptCount lease.endingId + 1) owner =
          .ok (row, t) ∧
        granted = some { lease with
          attempt := some (s.attemptCount lease.endingId + 1), owner := some owner
          leaseUntil := some row.leaseUntil, exhausted := false } := by
  unfold claimComparison at h
  split at h
  · cases h
    exact .inl ⟨rfl, rfl⟩
  · split at h
    · next hspent =>
      cases h
      exact .inr (.inl ⟨hspent, rfl, rfl⟩)
    · obtain ⟨⟨row, u⟩, hinsert, h⟩ := bind_eq_ok.1 h
      cases h
      exact .inr (.inr ⟨row, hinsert, rfl⟩)

omit [ComparisonTexts] in
/-- The next attempt of a lease is one more than its own. -/
theorem claimNextAttempt_ok {clk : AttemptClock}
    (h : s.claimNextAttempt clk lease = .ok (lease', t)) :
    ∃ n owner row, lease.attempt = some n ∧ lease.owner = some owner ∧ lease.exhausted = false ∧
      s.insertAttempt clk lease.endingId (n + 1) owner = .ok (row, t) ∧
      lease' = { lease with attempt := some (n + 1), leaseUntil := some row.leaseUntil } := by
  simp only [claimNextAttempt, require_bind_eq_ok, refuse_bind_eq_ok, not_or] at h
  obtain ⟨n, hn, owner, howner, ⟨hexhausted, -⟩, h⟩ := h
  obtain ⟨⟨row, u⟩, hinsert, h⟩ := bind_eq_ok.1 h
  cases h
  exact ⟨n, owner, row, hn, howner, by simpa using hexhausted, hinsert, rfl⟩

omit [ComparisonTexts] in
/-- A pending ending is listed without an attempt. -/
theorem pending_unclaimed {now : Time} (h : s.pending now id = some lease) :
    lease.attempt = none := by
  simp only [pending, Option.bind_eq_bind, Option.bind_eq_some_iff, Option.pure_def,
    Option.some.injEq] at h
  obtain ⟨ending, -, release, -, sampleId, -, sample, -, target, -, key, -, -, -, rfl⟩ := h
  rfl

/-- The context of a comparison is one of its session. -/
theorem comparisonContext_session {context : ReleaseContext}
    (h : s.comparisonContext lease = .ok context) : context.sessionId = lease.endingId.2 := by
  simp only [comparisonContext, require_bind_eq_ok] at h
  obtain ⟨session, -, h⟩ := h
  obtain ⟨release, -, h⟩ := bind_eq_ok.1 h
  obtain ⟨context', hcontext, h⟩ := bind_eq_ok.1 h
  simp only [refuse_bind_eq_ok, pure_eq_ok] at h
  rw [← h.2]
  simp only [ReleaseStore.contextIn, require_bind_eq_ok, pure_eq_ok] at hcontext
  obtain ⟨frozen, -, policy, -, profile, -, rfl⟩ := hcontext
  rfl

/-- What lets a submission file a record: its lease is the latest attempt's and holds, or all
attempts are spent and the record is empty, and the gates it read are those of its lease. -/
structure Files (s : ComparisonStore) (clk : SubmitClock) (scope : Scope) (lease : ComparisonLease)
    (record : ComparisonRow) : Prop where
  fresh : s.comparisons.get lease.endingId = none
  admits : lease.admits scope = true
  status : ∃ release, s.base.releases.get lease.endingId.1 = some release ∧
    release.status = .anomalous
  holder : ∃ number row, s.latest lease.endingId = some (number, row) ∧
    lease.attempt = some number ∧ record.attempts = number ∧ lease.owner = some record.owner ∧
    ((row.owner = record.owner ∧ clk.checkedAt < row.leaseUntil) ∨
      (lease.exhausted = true ∧ number = comparisonMaxAttempts ∧ row.leaseUntil ≤ clk.checkedAt ∧
        record.queries = []))
  fenced : ∃ number row, s.latest lease.endingId = some (number, row) ∧
    ((row.owner = record.owner ∧ clk.guardAt < row.leaseUntil) ∨
      (number = comparisonMaxAttempts ∧ row.leaseUntil ≤ clk.guardAt ∧
        record.comparison.status = .unavailable))

/-- **A submission files one record, under the conditions of `Files`, or changes nothing.** -/
theorem submitComparison_cases {clk : SubmitClock} {scope : Scope}
    {evidence : ReleaseComparisonEvidence} {receipt : ComparisonReceipt}
    (h : s.submitComparison clk scope lease evidence = .ok (receipt, t)) :
    t = s ∨ ∃ record, Files s clk scope lease record ∧
      t = { s with comparisons := s.comparisons.insert lease.endingId record } := by
  simp only [submitComparison, require_bind_eq_ok, refuse_bind_eq_ok, not_or, not_and, not_not] at h
  obtain ⟨n, hn, owner, howner, ⟨-, hattempts, hempty⟩, hholds, h⟩ := h
  split at h
  · cases h
    exact .inl rfl
  · next hfresh =>
    simp only [require_bind_eq_ok, refuse_bind_eq_ok] at h
    obtain ⟨ending, -, -, h⟩ := h
    obtain ⟨release, hrelease, h⟩ := bind_eq_ok.1 h
    simp only [require_bind_eq_ok, refuse_bind_eq_ok, not_not] at h
    obtain ⟨hstatus, hadmits, session, -, sample, -, -, h⟩ := h
    obtain ⟨context, -, h⟩ := bind_eq_ok.1 h
    simp only [refuse_bind_eq_ok, Bool.not_eq_false] at h
    obtain ⟨hguard, -, h⟩ := h
    cases h
    refine .inr ⟨_, ⟨hfresh, by simpa using hadmits, ⟨release, ?_, hstatus⟩, ?_, ?_⟩, rfl⟩
    · exact require_eq_ok.1 (ReleaseStore.mapError_eq_ok.1 hrelease)
    · rw [Bool.not_eq_false, holds, Option.any_eq_true] at hholds
      obtain ⟨⟨number, row⟩, hlatest, hheld⟩ := hholds
      simp only [decide_eq_true_eq] at hheld
      obtain ⟨rfl, hheld⟩ := hheld
      refine ⟨number, row, hlatest, hn, hattempts, howner, ?_⟩
      rcases hheld with hown | ⟨hspent, hthird, hlapsed⟩
      · exact .inl hown
      · exact .inr ⟨hspent, hthird, not_lt.1 hlapsed, hempty hspent⟩
    · simp only [recordGuard, Option.any_eq_true, decide_eq_true_eq] at hguard
      obtain ⟨-, -, -, -, -, -, -, ⟨number, row⟩, hlatest, -, hfence⟩ := hguard
      exact ⟨number, row, hlatest, hfence⟩

end ComparisonStore

end OpsPilot
