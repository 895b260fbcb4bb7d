import Mathlib
import OpsPilot.Observer.Health
import OpsPilot.Observer.QueryForms

/-!
# Profiles the release evaluation supports

Which health profiles the release evaluation takes (`supported_profile` in
`opspilot/observer/release_evaluation.py`).

* `supportedQueries`: the queries the product ships, written for the namespace `otel-demo` and the
  service `checkout`.
* `supportedProfile`: whether a profile has them, after both names are replaced in their texts.
* `ShippedProfile`: a profile with the shipped queries about its own namespace and service.
* **`supportedProfile_exact`**: these are the supported profiles of a subject exactly if the second
  replacement leaves the namespace alone.
-/

namespace OpsPilot.Observer

/-! ## The shipped queries -/

/-- `AFTER_SIGNALS`. -/
def afterSignals : List String :=
  ["request_rate_per_second", "error_ratio", "latency_p95_milliseconds", "dependency_error_ratio"]

/-- A matcher of a label with a fixed text. -/
def labelIs (label operator text : String) : LabelMatcher where
  label := label.toList
  operator := operator.toList
  value := .fixed text.toList

/-- `namespace="…",deployment="…"`. -/
def deploymentMatchers : List LabelMatcher :=
  [⟨"namespace".toList, "=".toList, .namespace⟩, ⟨"deployment".toList, "=".toList, .service⟩]

/-- `namespace="…",deployment=~"payment|…"`. -/
def dependencyMatchers : List LabelMatcher :=
  [⟨"namespace".toList, "=".toList, .namespace⟩,
    labelIs "deployment" "=~"
      "payment|cart|valkey-cart|product-catalog|currency|shipping|email|flagd"]

/-- `k8s_namespace_name="…",service_name="…"`. -/
def spanMatchers : List LabelMatcher :=
  [⟨"k8s_namespace_name".toList, "=".toList, .namespace⟩,
    ⟨"service_name".toList, "=".toList, .service⟩]

/-- The spans of requests to the service. -/
def serverMatchers : List LabelMatcher :=
  spanMatchers ++ [labelIs "span_kind" "=" "SPAN_KIND_SERVER",
    labelIs "span_name" "=~" ".*CheckoutService/PlaceOrder"]

/-- The spans of requests the service makes. -/
def clientMatchers : List LabelMatcher :=
  spanMatchers ++ [labelIs "span_kind" "=" "SPAN_KIND_CLIENT"]

/-- `status_code="STATUS_CODE_ERROR"`. -/
def errorMatcher : LabelMatcher := labelIs "status_code" "=" "STATUS_CODE_ERROR"

/-- `lead metric{…} tail`. -/
def selecting (lead metric : String) (matchers : List LabelMatcher) (tail : String) : Query :=
  .selector (lead.toList ++ metric.toList) matchers (.finish tail.toList)

/-- `lead metric{…}[5m] …`. -/
def ranging (lead metric : String) (matchers : List LabelMatcher) (rest : Query) : Query :=
  .selector (lead.toList ++ metric.toList) matchers (.window [] rest)

/-- The three queries of a signal. -/
structure SignalQueries where
  query : Query
  coverageQuery : Query
  freshnessQuery : Query

/-- A signal of deployments. -/
def deploymentSignal (query : Query) (metric : String) (matchers : List LabelMatcher) :
    SignalQueries where
  query
  coverageQuery := ranging "min(count_over_time(" metric matchers (.finish "))".toList)
  freshnessQuery := selecting "min(timestamp(" metric matchers "))"

/-- A signal of spans. -/
def spanSignal (query : Query) (metric : String) (matchers : List LabelMatcher) :
    SignalQueries where
  query
  coverageQuery := ranging "max(count_over_time(" metric matchers (.finish "))".toList)
  freshnessQuery := selecting "min(timestamp(" metric matchers "))"

/-- `kube_deployment_status_replicas_available`. -/
def replicasAvailable : String := "kube_deployment_status_replicas_available"

/-- `kube_deployment_status_replicas_ready`. -/
def replicasReady : String := "kube_deployment_status_replicas_ready"

/-- `traces_span_metrics_calls_total`. -/
def callsTotal : String := "traces_span_metrics_calls_total"

/-- `traces_span_metrics_duration_milliseconds_bucket`. -/
def durationBucket : String := "traces_span_metrics_duration_milliseconds_bucket"

/-- The calls that failed over all calls. -/
def errorRatio (matchers : List LabelMatcher) : Query :=
  ranging "(sum(rate(" callsTotal (matchers ++ [errorMatcher])
    (.selector (")) or vector(0)) / sum(rate(".toList ++ callsTotal.toList) matchers
      (.window [] (.finish "))".toList)))

/-- `_SUPPORTED_QUERIES`. -/
def supportedQueries : List (String × SignalQueries) :=
  [("deployment_available_replicas",
      deploymentSignal (selecting "min(" replicasAvailable deploymentMatchers ")")
        replicasAvailable deploymentMatchers),
    ("request_rate_per_second",
      spanSignal (ranging "sum(rate(" callsTotal serverMatchers (.finish "))".toList))
        callsTotal serverMatchers),
    ("error_ratio", spanSignal (errorRatio serverMatchers) callsTotal serverMatchers),
    ("latency_p95_milliseconds",
      spanSignal (ranging "histogram_quantile(0.95, sum by (le) (rate(" durationBucket
        serverMatchers (.finish ")))".toList)) durationBucket serverMatchers),
    ("deployment_ready_replicas",
      deploymentSignal (selecting "min(" replicasReady deploymentMatchers ")")
        replicasReady deploymentMatchers),
    ("deployment_available_replicas_min_in_window",
      deploymentSignal (ranging "min(min_over_time(" replicasAvailable deploymentMatchers
        (.finish "))".toList)) replicasAvailable deploymentMatchers),
    ("dependency_deployments_available",
      deploymentSignal (selecting "count(" replicasAvailable dependencyMatchers " >= 1)")
        replicasAvailable dependencyMatchers),
    ("dependency_error_ratio",
      spanSignal (errorRatio clientMatchers) callsTotal clientMatchers)]

/-! ## Supported profiles -/

/-- The namespace in the shipped texts. -/
def shippedNamespace : List Char := "otel-demo".toList

/-- The service in the shipped texts. -/
def shippedService : List Char := "checkout".toList

theorem shippedNamespace_ne_nil : shippedNamespace ≠ [] := by decide

theorem shippedService_ne_nil : shippedService ≠ [] := by decide

/-- The shipped text of a query. -/
def Query.shipped (q : Query) : List Char := q.write shippedNamespace shippedService "5m".toList

/-- `text.replace("checkout", service)`. -/
def replaceService (service text : List Char) : List Char :=
  (Pattern.literal shippedService shippedService_ne_nil).sub (fun _ => service) text

/-- `text.replace("otel-demo", namespace)`. -/
def replaceNamespace («namespace» text : List Char) : List Char :=
  (Pattern.literal shippedNamespace shippedNamespace_ne_nil).sub (fun _ => «namespace») text

/-- A text of a profile is the shipped one after both replacements, up to ranges and in normal
form. -/
def sameQuery (profile : HealthProfile) (original : List Char) (actual : String) : Bool :=
  let expected := replaceService profile.service.toList
    (replaceNamespace profile.namespace.toList original)
  normalizeQuery (windowed profile.evaluationWindowSeconds expected) ==
    normalizeQuery (windowed profile.evaluationWindowSeconds actual.toList)

/-- `supported_profile`. -/
def supportedProfile (profile : HealthProfile) : Bool :=
  let names := profile.signals.map HealthSignal.name
  let supported := supportedQueries.map Prod.fst
  if profile.source ≠ "prometheus" ∨ ¬ (names ⊆ supported ∧ supported ⊆ names) then false
  else if profile.signals.all fun signal => signal.required &&
      (supportedQueries.lookup signal.name).all fun queries =>
        sameQuery profile queries.query.shipped signal.query &&
        sameQuery profile queries.coverageQuery.shipped signal.coverageQuery &&
        sameQuery profile queries.freshnessQuery.shipped signal.freshnessQuery
  then profile.effectiveTraffic.signal ∈ afterSignals
  else false

/-! ## What the shipped texts look like -/

/-- Nothing of a query but the names contains a text. -/
def Query.without (old : List Char) : Query → Bool
  | .finish text => ¬ old <:+: text
  | .selector lead matchers rest =>
    ¬ old <:+: lead && matchers.all (fun m => ¬ old <:+: m.label ++ m.operator &&
      match m.value with
      | .namespace | .service => true
      | .fixed text => ¬ old <:+: text) && rest.without old
  | .window lead rest => ¬ old <:+: lead && rest.without old

/-- A query is one, and neither name occurs where it is not replaced. -/
def Query.clean (q : Query) : Bool :=
  q.wellFormed && q.without shippedNamespace && q.without shippedService

/-- The queries of a signal are clean. -/
def SignalQueries.clean (queries : SignalQueries) : Bool :=
  queries.query.clean && queries.coverageQuery.clean && queries.freshnessQuery.clean

theorem supportedQueries_clean : supportedQueries.all (fun entry => entry.2.clean) = true := by
  decide +kernel

/-- The characters around the parts of a query. -/
def queryMarks : List Char := ['{', '"', ',', '}', '[', ']']

section

variable {n s range : List Char} {p : Pattern Char} {f : List Char → List Char}
  (hmarks : ∀ c ∈ queryMarks, p.Blind c)

include hmarks in
/-- Replacing within the names of a selector. -/
theorem sub_writeSelector {matchers : List LabelMatcher} {rest : List Char}
    (hlabel : ∀ m ∈ matchers, p.sub f (m.label ++ m.operator) = m.label ++ m.operator)
    (hfixed : ∀ m ∈ matchers, ∀ text, m.value = .fixed text → p.sub f text = text)
    (lead : List Char) :
    p.sub f (lead ++ writeSelector (matchers.map (LabelMatcher.write n s)) ++ rest) =
      p.sub f lead ++ writeSelector
        (matchers.map (LabelMatcher.write (p.sub f n) (p.sub f s))) ++ p.sub f rest := by
  have hopen : p.Blind '{' := hmarks _ (by decide)
  have hquote : p.Blind '"' := hmarks _ (by decide)
  have hcomma : p.Blind ',' := hmarks _ (by decide)
  have hclose : p.Blind '}' := hmarks _ (by decide)
  have hpart (m : LabelMatcher) (hm : m ∈ matchers) :
      p.sub f (m.write n s) = m.write (p.sub f n) (p.sub f s) := by
    have hvalue : p.sub f (m.value.write n s) = m.value.write (p.sub f n) (p.sub f s) := by
      cases hv : m.value with
      | «namespace» => rfl
      | service => rfl
      | fixed text => exact hfixed m hm text hv
    have hassoc (label value : List Char) :
        label ++ '"' :: value ++ ['"'] = label ++ '"' :: (value ++ '"' :: []) := by
      simp
    rw [LabelMatcher.write, hassoc, hquote.sub_append_cons, hquote.sub_append_cons, hlabel m hm,
      hvalue, Pattern.sub_nil, ← hassoc]
    rfl
  have hparts : p.sub f ([','].intercalate (matchers.map (LabelMatcher.write n s))) =
      [','].intercalate (matchers.map (LabelMatcher.write (p.sub f n) (p.sub f s))) := by
    clear hlabel hfixed
    induction matchers with
    | nil => rfl
    | cons m matchers ih =>
      have ih := ih fun m' hm' => hpart m' (List.mem_cons_of_mem _ hm')
      have hm := hpart m (List.mem_cons_self ..)
      cases matchers with
      | nil =>
        rw [List.map_singleton, List.map_singleton, List.intercalate_singleton,
          List.intercalate_singleton, hm]
      | cons m' matchers =>
        rw [List.map_cons, List.map_cons] at ih ⊢
        rw [List.map_cons, List.map_cons, List.intercalate_cons_cons, List.intercalate_cons_cons,
          List.append_assoc, List.singleton_append, hcomma.sub_append_cons, hm, ih]
        simp
  have hassoc (lead selector rest : List Char) :
      lead ++ ('{' :: selector ++ ['}']) ++ rest = lead ++ '{' :: (selector ++ '}' :: rest) := by
    simp
  rw [writeSelector, hassoc, hopen.sub_append_cons, hclose.sub_append_cons, hparts, writeSelector,
    hassoc]

end

/-- **Replacing a text that only names contain.** -/
theorem replace_write {old n s range : List Char} {hold : old ≠ []} {f : List Char → List Char}
    (hmarks : ∀ c ∈ queryMarks, c ∉ old) (hrange : ¬ old <:+: range) {q : Query}
    (h : q.without old = true) :
    (Pattern.literal old hold).sub f (q.write n s range) =
      q.write ((Pattern.literal old hold).sub f n) ((Pattern.literal old hold).sub f s) range := by
  have hblind : ∀ c ∈ queryMarks, (Pattern.literal old hold).Blind c :=
    fun c hc => Pattern.literal_blind (hmarks c hc)
  have hself {text : List Char} (htext : decide ¬ old <:+: text = true) :
      (Pattern.literal old hold).sub f text = text :=
    Pattern.literal_sub_eq_self (of_decide_eq_true htext)
  induction q with
  | finish text => exact hself h
  | selector lead matchers rest ih =>
    rw [Query.without, Bool.and_eq_true, Bool.and_eq_true, List.all_eq_true] at h
    obtain ⟨⟨hlead, hmatchers⟩, hrest⟩ := h
    rw [Query.write, sub_writeSelector hblind, hself hlead, ih hrest, Query.write]
    · intro m hm
      exact hself (Bool.and_eq_true_iff.1 (hmatchers m hm)).1
    · intro m hm text hv
      have hfixed := (Bool.and_eq_true_iff.1 (hmatchers m hm)).2
      rw [hv] at hfixed
      exact hself hfixed
  | window lead rest ih =>
    rw [Query.without, Bool.and_eq_true] at h
    rw [Query.write, List.append_assoc, List.cons_append,
      (hblind '[' (by decide)).sub_append_cons, (hblind ']' (by decide)).sub_append_cons,
      hself h.1, Pattern.literal_sub_eq_self hrange, ih h.2, Query.write, List.append_assoc,
      List.cons_append]

theorem shippedNamespace_marks : ∀ c ∈ queryMarks, c ∉ shippedNamespace := by
  have hall : queryMarks.all (fun c => c ∉ shippedNamespace) = true := by decide +kernel
  simpa using hall

theorem shippedService_marks : ∀ c ∈ queryMarks, c ∉ shippedService := by
  have hall : queryMarks.all (fun c => c ∉ shippedService) = true := by decide +kernel
  simpa using hall

theorem shippedNames_apart : ¬ shippedNamespace <:+: "5m".toList ∧
    ¬ shippedService <:+: "5m".toList ∧ ¬ shippedNamespace <:+: shippedService := by
  decide +kernel

/-- A range is read as one, whatever follows it. -/
theorem window_matchAt (rest : List Char) :
    window.pattern.matchAt ('[' :: "5m".toList ++ ']' :: rest) =
      some ("[5m]".toList, rest) := by
  have hpath : window.path .opened "5m".toList = some .unit := rfl
  rw [List.cons_append, Machine.matchAt_start rfl, Machine.read_path hpath rfl]
  rfl

/-- The digits of a window and its unit. -/
def rangeText (seconds : ℕ) : List Char := (toString seconds).toList ++ ['s']

theorem writeWindow_eq (seconds : ℕ) : writeWindow seconds = '[' :: rangeText seconds ++ [']'] := by
  simp [writeWindow, rangeText]

/-- The ranges of a shipped query are written in seconds. -/
theorem windowed_write {n s : List Char} (hn : n.all isInert = true) (hs : s.all isInert = true)
    {q : Query} (h : q.wellFormed = true) (seconds : ℕ) :
    windowed seconds (q.write n s "5m".toList) = q.write n s (rangeText seconds) := by
  have hout {text : List Char} (htext : '[' ∉ text) (rest : List Char) :
      windowed seconds (text ++ rest) = text ++ windowed seconds rest :=
    Pattern.sub_append fun c hc rest => Machine.matchAt_not_start (by
      simp only [window]
      rw [if_neg]
      rintro rfl
      exact htext hc)
  have hlead {lead : List Char} (hall : lead.all isLead = true) : '[' ∉ lead := fun hmem =>
    absurd (List.all_eq_true.1 hall _ hmem) (by decide)
  induction q with
  | finish text =>
    have htext := hout (hlead h) []
    rwa [List.append_nil, show windowed seconds [] = [] from rfl, List.append_nil] at htext
  | selector lead matchers rest ih =>
    rw [Query.wellFormed, Bool.and_eq_true, Bool.and_eq_true] at h
    have hselector : '[' ∉ writeSelector (matchers.map (LabelMatcher.write n s)) := by
      have hparts : '[' ∉ [','].intercalate (matchers.map (LabelMatcher.write n s)) := by
        refine notMem_intercalate (by decide) fun part hpart => ?_
        obtain ⟨m, hm, rfl⟩ := List.mem_map.1 hpart
        exact notMem_write hn hs (by decide) (by decide) (by decide)
          (List.all_eq_true.1 h.1.2 m hm)
      simp [writeSelector, hparts]
    rw [Query.write, List.append_assoc, hout (hlead h.1.1), hout hselector, ih h.2, Query.write,
      List.append_assoc]
  | window lead rest ih =>
    rw [Query.wellFormed, Bool.and_eq_true] at h
    rw [Query.write, List.append_assoc, hout (hlead h.1), windowed,
      Pattern.sub_found (window_matchAt _), ← windowed, ih h.2, writeWindow_eq, Query.write]
    simp

/-! ## Profiles with the shipped queries -/

/-- A label of a domain name. -/
def dnsLabel (label : List Char) : Bool :=
  label.all (fun c => c.isLower || c.isDigit || c == '-') &&
    label.head?.any (· != '-') && label.getLast?.any (· != '-')

/-- `DnsSubdomain`. -/
def dnsSubdomain (text : List Char) : Bool :=
  (text.splitOn '.').all dnsLabel && text.length ≤ 253

theorem isInert_of_dnsSubdomain {text : List Char} (h : dnsSubdomain text = true) :
    text.all isInert = true := by
  rw [dnsSubdomain, Bool.and_eq_true, List.all_eq_true] at h
  rw [List.all_eq_true]
  intro c hc
  by_contra hinert
  have hdot : c ≠ '.' := by
    rintro rfl
    exact hinert (by decide)
  have hout : c ∉ ['.'].intercalate (text.splitOn '.') := by
    refine notMem_intercalate hdot fun label hlabel hmem => ?_
    have hall := h.1 label hlabel
    rw [dnsLabel, Bool.and_eq_true, Bool.and_eq_true, List.all_eq_true] at hall
    refine hinert (decide_eq_true fun hout => ?_)
    have hchar := hall.1.1 c hmem
    simp only [List.mem_cons, List.not_mem_nil, or_false] at hout
    rcases hout with rfl | rfl | rfl | rfl | rfl | rfl <;> exact absurd hchar (by decide)
  rw [List.intercalate_splitOn] at hout
  exact hout hc

/-- **A text of a profile is a shipped query about a namespace and its service**: the query with
some order of its matchers, up to white space outside quotations, its ranges those of the
profile. -/
def Spells («namespace» : List Char) (profile : HealthProfile) (q : Query) (text : String) : Prop :=
  ∃ q', Reordered q q' ∧
    compact (windowed profile.evaluationWindowSeconds text.toList) =
      compact (q'.write «namespace» profile.service.toList
        (rangeText profile.evaluationWindowSeconds))

/-- A profile of Prometheus with the shipped signals, all required, that measures traffic by one of
them, with the shipped queries about a namespace and its service. -/
structure ShippedFor («namespace» : List Char) (profile : HealthProfile) : Prop where
  source : profile.source = "prometheus"
  names : ∀ name,
    name ∈ profile.signals.map HealthSignal.name ↔ name ∈ supportedQueries.map Prod.fst
  required : ∀ signal ∈ profile.signals, signal.required = true
  queries : ∀ signal ∈ profile.signals, ∀ queries,
    supportedQueries.lookup signal.name = some queries →
      Spells «namespace» profile queries.query signal.query ∧
      Spells «namespace» profile queries.coverageQuery signal.coverageQuery ∧
      Spells «namespace» profile queries.freshnessQuery signal.freshnessQuery
  traffic : profile.effectiveTraffic.signal ∈ afterSignals

/-- A profile with the shipped queries about its own namespace and service. -/
def ShippedProfile (profile : HealthProfile) : Prop :=
  ShippedFor profile.namespace.toList profile

theorem nameRest_of_mem_rangeText {seconds : ℕ} {c : Char} (h : c ∈ rangeText seconds) :
    nameRest c = true := by
  rcases List.mem_append.1 h with h | h
  · have hdigit : c.isDigit = true := by
      rw [Nat.toString_eq_ofList_toDigits, String.toList_ofList] at h
      exact Nat.isDigit_of_mem_toDigits (by decide) (by decide) h
    simp [nameRest, Char.isAlphanum, hdigit]
  · rw [List.mem_singleton.1 h]
    decide

theorem rangeText_plain (seconds : ℕ) :
    (rangeText seconds).all isPlain = true ∧ '{' ∉ rangeText seconds :=
  ⟨List.all_eq_true.2 fun _ hc => isPlain_of_nameRest (nameRest_of_mem_rangeText hc),
    fun hmem => (nameRest_ne (nameRest_of_mem_rangeText hmem)).2.1 rfl⟩

section

variable {profile : HealthProfile}
  (hn : dnsSubdomain profile.namespace.toList = true)
  (hs : dnsSubdomain profile.service.toList = true)

/-- Replacing inert characters by inert ones. -/
theorem isInert_replaceService {service text : List Char} (hservice : service.all isInert = true)
    (h : text.all isInert = true) : (replaceService service text).all isInert = true := by
  rw [replaceService]
  induction text using Pattern.pieces_induction
    (Pattern.literal shippedService shippedService_ne_nil) with
  | nil => rfl
  | found text found rest hmatch ih =>
    have hsplit := Pattern.splits _ hmatch
    rw [hsplit, List.all_append, Bool.and_eq_true] at h
    rw [Pattern.sub_found hmatch, List.all_append, hservice, ih h.2]
    rfl
  | skipped c text hmatch ih =>
    rw [List.all_cons, Bool.and_eq_true] at h
    rw [Pattern.sub_skipped hmatch, List.all_cons, h.1, ih h.2]
    rfl

include hn hs in
/-- Two texts are the same exactly if one is the shipped query with both names replaced. -/
theorem sameQuery_eq_true {q : Query} (h : q.clean = true) (text : String) :
    sameQuery profile q.shipped text = true ↔
      Spells (replaceService profile.service.toList profile.namespace.toList) profile q text := by
  rw [Query.clean, Bool.and_eq_true, Bool.and_eq_true] at h
  obtain ⟨⟨hwf, hnamespace⟩, hservice⟩ := h
  have hn := isInert_of_dnsSubdomain hn
  have hs := isInert_of_dnsSubdomain hs
  have hn' := isInert_replaceService hs hn
  have hself : replaceNamespace profile.namespace.toList shippedService = shippedService :=
    Pattern.literal_sub_eq_self shippedNames_apart.2.2
  have hexpected : replaceService profile.service.toList
      (replaceNamespace profile.namespace.toList q.shipped) =
        q.write (replaceService profile.service.toList profile.namespace.toList)
          profile.service.toList "5m".toList := by
    rw [Query.shipped, replaceNamespace,
      replace_write shippedNamespace_marks shippedNames_apart.1 hnamespace,
      Pattern.literal_sub_self, ← replaceNamespace, hself, replaceService,
      replace_write shippedService_marks shippedNames_apart.2.1 hservice,
      Pattern.literal_sub_self]
    rfl
  obtain ⟨hplain, hrange⟩ := rangeText_plain profile.evaluationWindowSeconds
  rw [sameQuery, beq_iff_eq, hexpected, windowed_write hn' hs hwf, eq_comm,
    normalizeQuery_eq_iff hn' hs hplain hrange hwf]
  rfl

variable (profile) in
include hn hs in
/-- **What is supported are the shipped queries with both names replaced.** -/
theorem supportedProfile_eq_true : supportedProfile profile = true ↔
    ShippedFor (replaceService profile.service.toList profile.namespace.toList) profile := by
  generalize hrenamed : replaceService profile.service.toList profile.namespace.toList = renamed
  have hsame {q : Query} (h : q.clean = true) (text : String) :
      sameQuery profile q.shipped text = true ↔ Spells renamed profile q text :=
    hrenamed ▸ sameQuery_eq_true hn hs h text
  have hqueries (signal : HealthSignal) :
      ((supportedQueries.lookup signal.name).all fun queries =>
        sameQuery profile queries.query.shipped signal.query &&
        sameQuery profile queries.coverageQuery.shipped signal.coverageQuery &&
        sameQuery profile queries.freshnessQuery.shipped signal.freshnessQuery) = true ↔
      ∀ queries, supportedQueries.lookup signal.name = some queries →
        Spells renamed profile queries.query signal.query ∧
        Spells renamed profile queries.coverageQuery signal.coverageQuery ∧
        Spells renamed profile queries.freshnessQuery signal.freshnessQuery := by
    cases hlookup : supportedQueries.lookup signal.name with
    | none => simp
    | some queries =>
      obtain ⟨front, back, heq, -⟩ := List.lookup_eq_some_iff.1 hlookup
      have hmem : (signal.name, queries) ∈ supportedQueries := by
        rw [heq]
        exact List.mem_append_right _ (List.mem_cons_self ..)
      have hclean := List.all_eq_true.1 supportedQueries_clean _ hmem
      rw [SignalQueries.clean, Bool.and_eq_true, Bool.and_eq_true] at hclean
      rw [Option.all_some, Bool.and_eq_true, Bool.and_eq_true,
        hsame hclean.1.1, hsame hclean.1.2, hsame hclean.2, and_assoc]
      simp
  constructor
  · intro h
    simp only [supportedProfile] at h
    split_ifs at h with hfirst hall
    rw [not_or, not_not, not_not] at hfirst
    obtain ⟨hsource, hnames⟩ := hfirst
    rw [List.all_eq_true] at hall
    exact {
      source := hsource
      names := fun name => ⟨fun hname => hnames.1 hname, fun hname => hnames.2 hname⟩
      required := fun signal hsignal => (Bool.and_eq_true_iff.1 (hall signal hsignal)).1
      queries := fun signal hsignal =>
        (hqueries signal).1 (Bool.and_eq_true_iff.1 (hall signal hsignal)).2
      traffic := of_decide_eq_true h }
  · intro h
    have hfirst : ¬ (profile.source ≠ "prometheus" ∨
        ¬ (profile.signals.map HealthSignal.name ⊆ supportedQueries.map Prod.fst ∧
          supportedQueries.map Prod.fst ⊆ profile.signals.map HealthSignal.name)) := by
      rw [not_or, not_not, not_not]
      exact ⟨h.source, fun name hname => (h.names name).1 hname,
        fun name hname => (h.names name).2 hname⟩
    simp only [supportedProfile]
    rw [if_neg hfirst, if_pos]
    · exact decide_eq_true h.traffic
    · refine List.all_eq_true.2 fun signal hsignal => ?_
      rw [h.required signal hsignal, Bool.true_and]
      exact (hqueries signal).2 (h.queries signal hsignal)

end

/-! ## Two namespaces -/

/-- The available replicas of a deployment. -/
def availableReplicas : Query := selecting "min(" replicasAvailable deploymentMatchers ")"

example : availableReplicas.shipped =
    ("min(kube_deployment_status_replicas_available" ++
      "\x7bnamespace=\"otel-demo\",deployment=\"checkout\"\x7d)").toList := by
  decide +kernel

theorem availableReplicas_clean : availableReplicas.clean = true := by
  have hclean := List.all_eq_true.1 supportedQueries_clean _ (List.mem_cons_self ..)
  rw [SignalQueries.clean, Bool.and_eq_true, Bool.and_eq_true] at hclean
  exact hclean.1.1

/-- The matchers of a namespace and a deployment, in any order, are about one namespace. -/
theorem eq_of_spells {n n' : List Char} {profile : HealthProfile} {text : String}
    (hn : n.all isInert = true) (hn' : n'.all isInert = true)
    (hs : profile.service.toList.all isInert = true)
    (h : Spells n profile availableReplicas text) (h' : Spells n' profile availableReplicas text) :
    n = n' := by
  obtain ⟨q, hq, htext⟩ := h
  obtain ⟨q', hq', htext'⟩ := h'
  have hwf : availableReplicas.wellFormed = true := by
    have hclean := availableReplicas_clean
    rw [Query.clean, Bool.and_eq_true, Bool.and_eq_true] at hclean
    exact hclean.1.1
  have hplain := (rangeText_plain profile.evaluationWindowSeconds).1
  generalize profile.service.toList = s at *
  have hmatchers {m : List Char} (hm : m.all isInert = true) {matchers : List LabelMatcher}
      (hperm : deploymentMatchers.Perm matchers) :
      ∀ part ∈ matchers.map (LabelMatcher.write m s), IsMatcher part := by
    intro part hpart
    obtain ⟨label, hlabel, rfl⟩ := List.mem_map.1 hpart
    rw [availableReplicas, selecting, Query.wellFormed, Bool.and_eq_true, Bool.and_eq_true] at hwf
    exact isMatcher_write hm hs (List.all_eq_true.1 hwf.1.2 _ (hperm.mem_iff.2 hlabel))
  rw [htext, compact_write hn hs hplain (hq.wellFormed hwf),
    compact_write hn' hs hplain (hq'.wellFormed hwf)] at htext'
  cases hq with
  | selector _ hperm hrest =>
    cases hrest
    cases hq' with
    | selector _ hperm' hrest' =>
      cases hrest'
      rw [Query.squeeze, Query.squeeze, Query.write, Query.write] at htext'
      have hselector := List.append_cancel_left (List.append_cancel_right htext')
      rw [writeSelector, writeSelector] at hselector
      have hcontent := congrArg matcher.pattern.findAll
        (List.cons.inj (List.append_cancel_right hselector)).2
      rw [findAll_intercalate (hmatchers hn hperm), findAll_intercalate (hmatchers hn' hperm')]
        at hcontent
      have hsame : ([LabelMatcher.write n s ⟨"namespace".toList, "=".toList, .namespace⟩] ++
            [LabelMatcher.write n s ⟨"deployment".toList, "=".toList, .service⟩]).Perm
          ([LabelMatcher.write n' s ⟨"namespace".toList, "=".toList, .namespace⟩] ++
            [LabelMatcher.write n' s ⟨"deployment".toList, "=".toList, .service⟩]) :=
        ((hperm.map _).trans (hcontent ▸ List.Perm.refl _)).trans (hperm'.map _).symm
      have hfirst := List.singleton_perm_singleton.1 ((List.perm_append_right_iff _).1 hsame)
      simpa [LabelMatcher.write, MatcherValue.write] using hfirst

/-! ## The profile shipped for a subject -/

/-- Any value from nought up. -/
def nonnegative : SignalBound where
  min := some 0
  max := none
  edge := .inl rfl
  ordered := fun _ _ _ hhigh => absurd hhigh (Option.not_mem_none _)

/-- A shipped signal about a namespace and a service. -/
def shippedSignal («namespace» service : String) (entry : String × SignalQueries) :
    HealthSignal where
  name := entry.1
  required := true
  query := .ofList (entry.2.query.write namespace.toList service.toList "5m".toList)
  coverageQuery :=
    .ofList (entry.2.coverageQuery.write namespace.toList service.toList "5m".toList)
  freshnessQuery :=
    .ofList (entry.2.freshnessQuery.write namespace.toList service.toList "5m".toList)
  minimumSamples := 1
  trafficDependent := false
  healthy := nonnegative
  positive := Nat.one_pos

theorem shippedSignal_names («namespace» service : String) :
    (supportedQueries.map (shippedSignal «namespace» service)).map HealthSignal.name =
      supportedQueries.map Prod.fst := by
  rw [List.map_map]
  rfl

theorem supportedQueries_nodup : (supportedQueries.map Prod.fst).Nodup := by
  decide +kernel

theorem shippedSignals_nodup («namespace» service : String) :
    ((supportedQueries.map (shippedSignal «namespace» service)).map HealthSignal.name).Nodup := by
  rw [shippedSignal_names]
  exact supportedQueries_nodup

theorem exists_shippedSignal («namespace» service : String) :
    ∃ signal ∈ supportedQueries.map (shippedSignal «namespace» service),
      signal.name = "request_rate_per_second" ∧ signal.required = true :=
  ⟨_, List.mem_map_of_mem (List.mem_cons_of_mem _ (List.mem_cons_self ..)), rfl, rfl⟩

/-- The floor of one request a second. -/
def oneRequest : TrafficGate where
  signal := "request_rate_per_second"
  minimum := ((1 : ℚ) : WithTop ℚ)
  positive := WithTop.coe_pos.2 one_pos

/-- The shipped profile with the names of a subject in its matchers. -/
def shippedProfile («namespace» service : String) : HealthProfile where
  profileId := "checkout-recovery"
  «namespace»
  service
  source := "prometheus"
  evaluationWindowSeconds := 300
  freshnessSeconds := 90
  effectiveTraffic := oneRequest
  signals := supportedQueries.map (shippedSignal «namespace» service)
  distinct := shippedSignals_nodup «namespace» service
  gated := exists_shippedSignal «namespace» service

section

variable {n s : String} (hn : dnsSubdomain n.toList = true) (hs : dnsSubdomain s.toList = true)
include hn hs

theorem spells_shipped {q : Query} (h : q.clean = true) :
    Spells n.toList (shippedProfile n s) q
      (.ofList (q.write n.toList s.toList "5m".toList)) := by
  rw [Query.clean, Bool.and_eq_true, Bool.and_eq_true] at h
  refine ⟨q, .refl q, ?_⟩
  rw [String.toList_ofList, windowed_write (isInert_of_dnsSubdomain hn)
    (isInert_of_dnsSubdomain hs) h.1.1]
  rfl

/-- It has the shipped queries about the subject. -/
theorem shippedProfile_shipped : ShippedProfile (shippedProfile n s) where
  source := rfl
  names name := by
    show name ∈ (supportedQueries.map (shippedSignal n s)).map HealthSignal.name ↔ _
    rw [shippedSignal_names]
  required signal hsignal := by
    obtain ⟨entry, -, rfl⟩ := List.mem_map.1 hsignal
    rfl
  queries signal hsignal queries hlookup := by
    obtain ⟨⟨name, written⟩, hentry, rfl⟩ := List.mem_map.1 hsignal
    obtain ⟨front, back, heq, -⟩ := List.lookup_eq_some_iff.1 hlookup
    have hmem : (name, queries) ∈ supportedQueries := by
      rw [heq]
      exact List.mem_append_right _ (List.mem_cons_self ..)
    obtain rfl : written = queries :=
      (Prod.mk.inj (List.inj_on_of_nodup_map supportedQueries_nodup hentry hmem rfl)).2
    have hclean := List.all_eq_true.1 supportedQueries_clean _ hentry
    rw [SignalQueries.clean, Bool.and_eq_true, Bool.and_eq_true] at hclean
    exact ⟨spells_shipped hn hs hclean.1.1, spells_shipped hn hs hclean.1.2,
      spells_shipped hn hs hclean.2⟩
  traffic := List.mem_cons_self ..

/-- It is not the shipped profile about another namespace. -/
theorem eq_of_shippedFor {n' : List Char} (hn' : n'.all isInert = true)
    (h : ShippedFor n' (shippedProfile n s)) : n' = n.toList := by
  have hsignal : shippedSignal n s ("deployment_available_replicas",
        deploymentSignal availableReplicas replicasAvailable deploymentMatchers) ∈
      (shippedProfile n s).signals :=
    List.mem_map_of_mem (List.mem_cons_self ..)
  have hlookup : supportedQueries.lookup "deployment_available_replicas" =
      some (deploymentSignal availableReplicas replicasAvailable deploymentMatchers) :=
    List.lookup_cons_self
  have hquery : Spells n' (shippedProfile n s) availableReplicas
      (.ofList (availableReplicas.write n.toList s.toList "5m".toList)) :=
    (h.queries _ hsignal _ hlookup).1
  have hservice : (shippedProfile n s).service.toList.all isInert = true :=
    isInert_of_dnsSubdomain hs
  exact eq_of_spells hn' (isInert_of_dnsSubdomain hn) hservice hquery
    (spells_shipped hn hs availableReplicas_clean)

/-- **Recognition is exact where replacing the shipped service leaves the namespace alone**: the
supported profiles of a subject are those with the shipped queries about it exactly if the namespace
does not contain `checkout`, or that is the service. -/
theorem supportedProfile_exact :
    (∀ profile : HealthProfile, profile.namespace = n → profile.service = s →
      (supportedProfile profile = true ↔ ShippedProfile profile)) ↔
      ¬ "checkout".toList <:+: n.toList ∨ s = "checkout" := by
  have hself : replaceService s.toList n.toList = n.toList ↔
      ¬ "checkout".toList <:+: n.toList ∨ s = "checkout" := by
    have hservice : s.toList = shippedService ↔ s = "checkout" := String.toList_inj
    rw [← hservice]
    exact Pattern.literal_sub_eq_self_iff
  rw [← hself]
  constructor
  · intro h
    have hsupported := (h (shippedProfile n s) rfl rfl).2 (shippedProfile_shipped hn hs)
    exact eq_of_shippedFor hn hs
      (isInert_replaceService (isInert_of_dnsSubdomain hs) (isInert_of_dnsSubdomain hn))
      ((supportedProfile_eq_true (shippedProfile n s) hn hs).1 hsupported)
  · rintro hrenamed profile rfl rfl
    rw [supportedProfile_eq_true profile hn hs, hrenamed]
    rfl

end

theorem dnsSubdomain_shop : dnsSubdomain "shop".toList = true ∧ dnsSubdomain "cart".toList = true := by
  decide +kernel

/-- The recognition of the cart service in the namespace of a shop. -/
theorem supportedProfile_exact_shop :
    (∀ profile : HealthProfile, profile.namespace = "shop" → profile.service = "cart" →
      (supportedProfile profile = true ↔ ShippedProfile profile)) ↔
      ¬ "checkout".toList <:+: "shop".toList ∨ "cart" = "checkout" :=
  supportedProfile_exact dnsSubdomain_shop.1 dnsSubdomain_shop.2

theorem dnsSubdomain_blue : dnsSubdomain "checkout-blue".toList = true := by
  decide +kernel

theorem shippedService_infix_blue : shippedService <:+: "checkout-blue".toList := by
  decide +kernel

/-- In a namespace named after the shipped service, the profile of another service is refused. -/
theorem checkoutBlue_refused :
    ShippedProfile (shippedProfile "checkout-blue" "cart") ∧
      supportedProfile (shippedProfile "checkout-blue" "cart") = false := by
  refine ⟨shippedProfile_shipped dnsSubdomain_blue dnsSubdomain_shop.2, ?_⟩
  rw [Bool.eq_false_iff]
  intro hsupported
  have hblue := isInert_of_dnsSubdomain dnsSubdomain_blue
  have hcart := isInert_of_dnsSubdomain dnsSubdomain_shop.2
  have hself := eq_of_shippedFor dnsSubdomain_blue dnsSubdomain_shop.2
    (isInert_replaceService hcart hblue)
    ((supportedProfile_eq_true (shippedProfile "checkout-blue" "cart") dnsSubdomain_blue
      dnsSubdomain_shop.2).1 hsupported)
  rcases Pattern.literal_sub_eq_self_iff.1 hself with hout | hsame
  · exact hout shippedService_infix_blue
  · exact absurd hsame (by decide)

end OpsPilot.Observer
