import Mathlib
import OpsPilot.Domain.Observation

/-!
# The verdict on a set of readings

What one sample's readings say about a target under a versioned profile (`evaluate_readings` in
`opspilot/observer/health_profile.py`).

* `HealthProfile`, `SignalReading`: a profile and a reading, as far as the verdict depends on them.
* `judge`: whether one reading can be judged at all, before bounds and traffic.
* `evaluateReadings`: the verdict.
* `Usable`, `Reads`, `TrafficReached`, `Judged`: what the verdict means.
* **`health_exact`**: the verdict in these terms, and what it does not depend on.

Instants are microseconds; the seconds the source computes with are doubles, rounded by `double`.
-/

namespace OpsPilot.Observer

/-- The double next to a rational, the even one of two. -/
def double (q : ℚ) : ℚ :=
  if q = 0 then 0
  else
    let ulp := (2 : ℚ) ^ (Int.log 2 |q| - 52)
    let units := q / ulp
    let low := ⌊units⌋
    let up := 1 / 2 < units - low ∨ units - low = 1 / 2 ∧ low % 2 = 1
    (if up then low + 1 else low) * ulp

/-- `timedelta.total_seconds()`. -/
def totalSeconds (span : ℤ) : ℚ := double (span / 1000000)

/-! ## Profiles and readings -/

/-- `SignalBound`: a closed interval with at least one edge. -/
structure SignalBound where
  min : Option ℚ
  max : Option ℚ
  /-- `BOUND_EMPTY`. -/
  edge : min.isSome ∨ max.isSome
  /-- `BOUND_INVERTED`. -/
  ordered : ∀ low ∈ min, ∀ high ∈ max, low ≤ high

/-- `contains`. -/
def SignalBound.contains (bound : SignalBound) (value : ℚ) : Bool :=
  if bound.min.any (value < ·) then false
  else if bound.max.any (· < value) then false
  else true

/-- `HealthSignal`, without the parts only the profile's own validator reads. -/
structure HealthSignal where
  name : String
  required : Bool
  query : String
  coverageQuery : String
  freshnessQuery : String
  minimumSamples : ℕ
  trafficDependent : Bool
  healthy : SignalBound
  positive : 0 < minimumSamples

/-- `TrafficGate`: the floor may be infinite. -/
structure TrafficGate where
  signal : String
  minimum : WithTop ℚ
  positive : 0 < minimum

/-- `HealthProfile`, without the parts no verdict depends on. -/
structure HealthProfile where
  profileId : String
  «namespace» : String
  service : String
  source : String
  evaluationWindowSeconds : ℕ
  freshnessSeconds : ℕ
  effectiveTraffic : TrafficGate
  signals : List HealthSignal
  /-- `DUPLICATE_SIGNAL_NAME`. -/
  distinct : (signals.map HealthSignal.name).Nodup
  /-- `TRAFFIC_SIGNAL_UNKNOWN` and `TRAFFIC_SIGNAL_NOT_REQUIRED`. -/
  gated : ∃ signal ∈ signals, signal.name = effectiveTraffic.signal ∧ signal.required = true

/-- `ReadingStatus`, with the value and the sample count an ok reading has. -/
inductive ReadingStatus
  | ok (value : ℚ) (sampleCount : ℕ)
  | noData | stale | timeout | failed
  deriving DecidableEq

/-- `SignalReading`. -/
structure SignalReading where
  signalName : String
  status : ReadingStatus
  query : String
  source : String
  window : QueryWindow
  latestSampleAt : Option Time
  deriving DecidableEq

/-- The value of a reading. -/
def SignalReading.value (reading : SignalReading) : Option ℚ :=
  match reading.status with
  | .ok value _ => some value
  | _ => none

/-- `SignalVerdictKind`. -/
inductive SignalVerdictKind
  | healthy | degraded | belowTrafficGate | notJudged | missing | noData | stale | timeout | failed
  | insufficientSamples | queryMismatch | notInProfile
  deriving DecidableEq

/-- `_UNKNOWN_FOR_VERDICT`. -/
def SignalVerdictKind.unknown : SignalVerdictKind → Option SampleOutcome
  | .failed | .queryMismatch => some .failed
  | .timeout => some .timeout
  | .stale => some .stale
  | .noData | .missing | .insufficientSamples => some .noData
  | .healthy | .degraded | .belowTrafficGate | .notJudged | .notInProfile => none

/-- `_UNKNOWN_SEVERITY`. -/
def unknownSeverity : List SampleOutcome := [.failed, .timeout, .stale, .noData]

/-- `SignalVerdict`. -/
structure SignalVerdict where
  signalName : String
  required : Bool
  verdict : SignalVerdictKind
  value : Option ℚ
  reason : String

/-- `SampleEvaluation`. -/
structure SampleEvaluation where
  healthProfileRevision : String
  outcome : SampleOutcome
  requiredSignalsPresent : Bool
  reason : String
  verdicts : List SignalVerdict

/-- How numbers are written (`str` of a double and its rounding to whole seconds), and the revision
of a profile. -/
class HealthTexts where
  str : ℚ → String
  whole : ℚ → String
  profileRevision : HealthProfile → String

open HealthTexts

/-! ## One reading -/

/-- `_Judged`. -/
structure Judgement where
  usable : Bool
  value : Option ℚ := none
  unusable : SignalVerdictKind := .missing
  reason : String := "-"

/-- A reading that cannot be judged. -/
def unusable (kind : SignalVerdictKind) (reason : String) (value : Option ℚ) :
    Judgement where
  usable := false
  value
  unusable := kind
  reason

/-- An instant is not after the sample, and at most so many seconds before it. -/
def freshAt (profile : HealthProfile) (sampleTime instant : Time) : Bool :=
  let age := totalSeconds (sampleTime - instant)
  ¬ (age < 0 ∨ profile.freshnessSeconds < age)

/-- The double `0.05` of `WINDOW_TOLERANCE_SHARE`. -/
def windowToleranceShare : ℚ := 3602879701896397 / 72057594037927936

/-- A window spans the evaluation window, up to the tolerance. -/
def spansWindow (profile : HealthProfile) (window : QueryWindow) : Bool :=
  let expected : ℚ := profile.evaluationWindowSeconds
  let span := totalSeconds (window.end - window.start)
  ¬ double (expected * windowToleranceShare) < |double (span - expected)|

section

variable [HealthTexts]

/-- The verdict kind and the reason of a status that is not ok. -/
def ReadingStatus.judge (status : ReadingStatus) (judged : ℚ → ℕ → Judgement) : Judgement :=
  match status with
  | .ok value count => judged value count
  | .noData => unusable .noData "reading status is no_data" none
  | .stale => unusable .stale "reading status is stale" none
  | .timeout => unusable .timeout "reading status is timeout" none
  | .failed => unusable .failed "reading status is failed" none

/-- The checks of `_judge` on an ok reading. -/
def judgeOk (profile : HealthProfile) (signal : HealthSignal) (reading : SignalReading)
    (sampleTime : Time) (value : ℚ) (count : ℕ) : Judgement :=
  if ¬ freshAt profile sampleTime reading.window.end then
    unusable .stale ("window ended " ++ whole (totalSeconds (sampleTime - reading.window.end)) ++
      "s before the sample; profile allows " ++ toString profile.freshnessSeconds ++ "s") none
  else if ¬ spansWindow profile reading.window then
    unusable .stale ("window spans " ++
      whole (totalSeconds (reading.window.end - reading.window.start)) ++
        "s; profile evaluates " ++ toString profile.evaluationWindowSeconds ++ "s") none
  else match reading.latestSampleAt with
    | none => unusable .stale "no raw sample timestamp behind the reading" none
    | some latest =>
      if ¬ freshAt profile sampleTime latest then
        unusable .stale ("newest raw sample is " ++ whole (totalSeconds (sampleTime - latest)) ++
          "s old at the sample; profile allows " ++ toString profile.freshnessSeconds ++ "s") none
      else if count < signal.minimumSamples then
        unusable .insufficientSamples (toString count ++ " points, profile needs " ++
          toString signal.minimumSamples) (some value)
      else { usable := true, value := some value }

/-- `_judge`. -/
def judge (profile : HealthProfile) (signal : HealthSignal) (reading : Option SignalReading)
    (sampleTime : Time) : Judgement :=
  match reading with
  | none => unusable .missing "no reading for this signal" none
  | some reading =>
    if reading.query ≠ signal.query ∨ reading.source ≠ profile.source then
      unusable .queryMismatch
        "reading was taken with a query or source the profile does not define" none
    else reading.status.judge (judgeOk profile signal reading sampleTime)

/-! ## All readings -/

/-- `by_name.get(name)`. -/
def reading? (readings : List SignalReading) (name : String) : Option SignalReading :=
  readings.find? fun reading => reading.signalName = name

/-- The first name that came before. -/
def repeated : List String → List String → Option String
  | _, [] => none
  | seen, name :: names => if name ∈ seen then some name else repeated (name :: seen) names

/-- `str(gate.minimum)`. -/
def minimumText : WithTop ℚ → String
  | none => "inf"
  | some minimum => str minimum

/-- `_render_bound`. -/
def renderBound (bound : SignalBound) : String :=
  "[" ++ (bound.min.map str).getD "-inf" ++ ", " ++ (bound.max.map str).getD "+inf" ++ "]"

/-- `str(item.value)`. -/
def valueText (value : Option ℚ) : String := (value.map str).getD "None"

/-- `judged`: the judgement of each signal of a profile. -/
def judgements (profile : HealthProfile) (readings : List SignalReading) (sampleTime : Time)
    (signal : HealthSignal) : Judgement :=
  judge profile signal (reading? readings signal.name) sampleTime

/-- The judgement of the traffic signal. -/
def judgedTraffic (profile : HealthProfile) (judged : HealthSignal → Judgement) : Judgement :=
  ((profile.signals.find? fun signal => signal.name = profile.effectiveTraffic.signal).map
    judged).getD { usable := false }

/-- `traffic_confirmed`. -/
def trafficConfirmed (gate : TrafficGate) (traffic : Judgement) : Bool :=
  traffic.usable && traffic.value.any fun (value : ℚ) => gate.minimum ≤ (value : WithTop ℚ)

/-- `traffic_low`. -/
def trafficLow (gate : TrafficGate) (traffic : Judgement) : Bool :=
  traffic.usable && !trafficConfirmed gate traffic

/-- The verdict kind of a signal, and its reason. -/
def signalVerdict (gate : TrafficGate) (traffic : Judgement) (signal : HealthSignal)
    (item : Judgement) : SignalVerdictKind × String :=
  if !item.usable then (item.unusable, item.reason)
  else if signal.name = gate.signal ∧ trafficLow gate traffic then
    (.belowTrafficGate,
      valueText item.value ++ " < effective-traffic minimum " ++ minimumText gate.minimum)
  else if signal.trafficDependent ∧ !trafficConfirmed gate traffic then
    (.notJudged, valueText item.value ++ " not judged: traffic " ++
      if trafficLow gate traffic then "below the gate" else "not confirmed")
  else if item.value.any fun value => !signal.healthy.contains value then
    (.degraded,
      valueText item.value ++ " outside healthy bound " ++ renderBound signal.healthy)
  else
    (.healthy, valueText item.value ++ " within healthy bound " ++ renderBound signal.healthy)

/-- The verdict on a signal of the profile. -/
def verdictOn (gate : TrafficGate) (traffic : Judgement) (judged : HealthSignal → Judgement)
    (signal : HealthSignal) : SignalVerdict :=
  let verdict := signalVerdict gate traffic signal (judged signal)
  { signalName := signal.name
    required := signal.required
    verdict := verdict.1
    value := (judged signal).value
    reason := verdict.2 }

/-- The verdict on a reading of a signal the profile does not have. -/
def notInProfile (reading : SignalReading) : SignalVerdict where
  signalName := reading.signalName
  required := false
  verdict := .notInProfile
  value := reading.value
  reason := "reading has no signal in the profile; ignored"

/-- Names in their order, with commas. -/
def sortedNames (names : List String) : String :=
  ", ".intercalate (names.insertionSort (· ≤ ·))

/-- The outcome of the verdicts on the required signals, and its reason. -/
def outcomeOf (gate : TrafficGate) (traffic : Judgement) (required : List SignalVerdict) :
    SampleOutcome × String :=
  let degraded := (required.filter fun v => v.verdict = .degraded).map SignalVerdict.signalName
  let unknown := required.filter fun v => v.verdict.unknown.isSome
  if degraded ≠ [] then
    (.degraded, "required signals outside their healthy bound: " ++ sortedNames degraded)
  else if unknown ≠ [] then
    ((unknownSeverity.find? fun level => unknown.any fun v => v.verdict.unknown = some level).getD
        .noData,
      "required signals without a usable reading: " ++
        sortedNames (unknown.map SignalVerdict.signalName))
  else if trafficLow gate traffic then
    (.noData, "traffic below the effective-traffic gate (" ++ gate.signal ++ " < " ++
      minimumText gate.minimum ++ ")")
  else (.healthy, "every required signal is present, fresh and within bounds")

/-- `evaluate_readings`. The error is the detail of its `INVALID_INPUT`. -/
def evaluateReadings (profile : HealthProfile) (readings : List SignalReading)
    (sampleTime : Time) : Except String SampleEvaluation :=
  match repeated [] (readings.map SignalReading.signalName) with
  | some name => .error ("duplicate reading for " ++ name)
  | none =>
    let judged := judgements profile readings sampleTime
    let gate := profile.effectiveTraffic
    let traffic := judgedTraffic profile judged
    let known := profile.signals.map HealthSignal.name
    let verdicts := profile.signals.map (verdictOn gate traffic judged) ++
      (readings.filter fun reading => reading.signalName ∉ known).map notInProfile
    let required := verdicts.filter SignalVerdict.required
    let outcome := outcomeOf gate traffic required
    .ok {
      healthProfileRevision := profileRevision profile
      outcome := outcome.1
      requiredSignalsPresent := required.all fun v => v.verdict.unknown.isNone
      reason := outcome.2
      verdicts }

/-! ## What the verdict means -/

/-- A reading of a signal that can be judged, and its value: an ok answer to the profile's own
query, of enough samples, over the evaluation window, and fresh. -/
structure Usable (profile : HealthProfile) (signal : HealthSignal) (reading : SignalReading)
    (sampleTime : Time) (value : ℚ) : Prop where
  query : reading.query = signal.query
  source : reading.source = profile.source
  ok : ∃ count, reading.status = .ok value count ∧ signal.minimumSamples ≤ count
  ended : freshAt profile sampleTime reading.window.end = true
  spans : spansWindow profile reading.window = true
  fresh : ∃ latest ∈ reading.latestSampleAt, freshAt profile sampleTime latest = true

/-- The readings have a usable one of the signal, of this value. -/
def Reads (profile : HealthProfile) (readings : List SignalReading) (sampleTime : Time)
    (signal : HealthSignal) (value : ℚ) : Prop :=
  ∃ reading ∈ readings, reading.signalName = signal.name ∧
    Usable profile signal reading sampleTime value

/-- Traffic reaches its gate. -/
def TrafficReached (profile : HealthProfile) (readings : List SignalReading)
    (sampleTime : Time) : Prop :=
  ∃ signal ∈ profile.signals, signal.name = profile.effectiveTraffic.signal ∧
    ∃ value, Reads profile readings sampleTime signal value ∧
      profile.effectiveTraffic.minimum ≤ (value : WithTop ℚ)

/-- A signal is judged by its value: there is a usable reading of it, and traffic reaches its gate
where the signal depends on traffic or is the traffic itself. -/
def JudgedBy (profile : HealthProfile) (readings : List SignalReading) (sampleTime : Time)
    (signal : HealthSignal) (value : ℚ) : Prop :=
  Reads profile readings sampleTime signal value ∧
    (signal.trafficDependent = true ∨ signal.name = profile.effectiveTraffic.signal →
      TrafficReached profile readings sampleTime)

variable {profile : HealthProfile} {signal : HealthSignal} {sampleTime : Time} {value v : ℚ}
  {count : ℕ} {r : SignalReading}

/-- A judgement is usable, with this value. -/
def Judgement.Of (item : Judgement) (value : ℚ) : Prop :=
  item.usable = true ∧ item.value = some value

omit [HealthTexts] in
theorem not_of_unusable {kind : SignalVerdictKind} {reason : String} {old : Option ℚ} :
    ¬ (unusable kind reason old).Of value := by
  simp [Judgement.Of, unusable]

/-- The checks of an ok reading. -/
theorem judgeOk_of : (judgeOk profile signal r sampleTime v count).Of value ↔
    v = value ∧ signal.minimumSamples ≤ count ∧ freshAt profile sampleTime r.window.end = true ∧
      spansWindow profile r.window = true ∧
      ∃ latest ∈ r.latestSampleAt, freshAt profile sampleTime latest = true := by
  unfold judgeOk
  by_cases hended : freshAt profile sampleTime r.window.end = true
  · rw [if_neg (not_not.2 hended)]
    by_cases hspans : spansWindow profile r.window = true
    · rw [if_neg (not_not.2 hspans)]
      cases r.latestSampleAt with
      | none => simp [not_of_unusable]
      | some latest =>
        dsimp only
        by_cases hfresh : freshAt profile sampleTime latest = true
        · rw [if_neg (not_not.2 hfresh)]
          by_cases hcount : count < signal.minimumSamples
          · rw [if_pos hcount]
            exact iff_of_false not_of_unusable fun h => by omega
          · rw [if_neg hcount]
            simp [Judgement.Of, hended, hspans, hfresh, not_lt.1 hcount]
        · rw [if_pos hfresh]
          exact iff_of_false not_of_unusable fun h => by simp [hfresh] at h
    · rw [if_pos hspans]
      exact iff_of_false not_of_unusable fun h => hspans h.2.2.2.1
  · rw [if_pos hended]
    exact iff_of_false not_of_unusable fun h => hended h.2.2.1

/-- **The checks of one reading are exact.** -/
theorem judge_of {reading : Option SignalReading} :
    (judge profile signal reading sampleTime).Of value ↔
      ∃ r ∈ reading, Usable profile signal r sampleTime value := by
  cases reading with
  | none => simp [judge, not_of_unusable]
  | some r =>
    simp only [judge, Option.mem_some_iff, exists_eq_left']
    by_cases hquery : r.query ≠ signal.query ∨ r.source ≠ profile.source
    · rw [if_pos hquery]
      refine iff_of_false not_of_unusable fun h => ?_
      exact hquery.elim (absurd h.query) (absurd h.source)
    · rw [if_neg hquery]
      push Not at hquery
      cases hstatus : r.status with
      | ok v count =>
        show (judgeOk profile signal r sampleTime v count).Of value ↔ _
        rw [judgeOk_of]
        constructor
        · rintro ⟨rfl, hcount, hended, hspans, hfresh⟩
          exact ⟨hquery.1, hquery.2, ⟨count, hstatus, hcount⟩, hended, hspans, hfresh⟩
        · intro h
          obtain ⟨n, hn, hcount⟩ := h.ok
          rw [hstatus, ReadingStatus.ok.injEq] at hn
          obtain ⟨rfl, rfl⟩ := hn
          exact ⟨rfl, hcount, h.ended, h.spans, h.fresh⟩
      | noData | stale | timeout | failed =>
        refine iff_of_false not_of_unusable fun h => ?_
        obtain ⟨n, hn, -⟩ := h.ok
        rw [hstatus] at hn
        cases hn

/-- A judgement is usable with its value, or says why the outcome is unknown. -/
def Judgement.Settled (item : Judgement) : Prop :=
  (∃ value, item.Of value) ∨
    item.usable = false ∧ item.unusable.unknown.isSome = true ∧ item.unusable ≠ .degraded

theorem judgeOk_settled : (judgeOk profile signal r sampleTime v count).Settled := by
  unfold judgeOk
  by_cases hended : freshAt profile sampleTime r.window.end = true
  · rw [if_neg (not_not.2 hended)]
    by_cases hspans : spansWindow profile r.window = true
    · rw [if_neg (not_not.2 hspans)]
      cases r.latestSampleAt with
      | none => exact .inr ⟨rfl, rfl, by simp [unusable]⟩
      | some latest =>
        dsimp only
        by_cases hfresh : freshAt profile sampleTime latest = true
        · rw [if_neg (not_not.2 hfresh)]
          by_cases hcount : count < signal.minimumSamples
          · rw [if_pos hcount]
            exact .inr ⟨rfl, rfl, by simp [unusable]⟩
          · rw [if_neg hcount]
            exact .inl ⟨v, rfl, rfl⟩
        · rw [if_pos hfresh]
          exact .inr ⟨rfl, rfl, by simp [unusable]⟩
    · rw [if_pos hspans]
      exact .inr ⟨rfl, rfl, by simp [unusable]⟩
  · rw [if_pos hended]
    exact .inr ⟨rfl, rfl, by simp [unusable]⟩

theorem judge_settled (profile : HealthProfile) (signal : HealthSignal)
    (reading : Option SignalReading) (sampleTime : Time) :
    (judge profile signal reading sampleTime).Settled := by
  cases reading with
  | none => exact .inr ⟨rfl, rfl, by simp [judge, unusable]⟩
  | some r =>
    unfold judge
    dsimp only
    by_cases hquery : r.query ≠ signal.query ∨ r.source ≠ profile.source
    · rw [if_pos hquery]
      exact .inr ⟨rfl, rfl, by simp [unusable]⟩
    · rw [if_neg hquery]
      cases r.status with
      | ok v count => exact judgeOk_settled
      | noData | stale | timeout | failed =>
        exact .inr ⟨rfl, rfl, by simp [ReadingStatus.judge, unusable]⟩

/-! ## The verdicts on the signals -/

variable {readings : List SignalReading} {name : String}

omit [HealthTexts] in
theorem reading?_eq_some (h : (readings.map SignalReading.signalName).Nodup) :
    reading? readings name = some r ↔ r ∈ readings ∧ r.signalName = name := by
  constructor
  · intro hfind
    exact ⟨List.mem_of_find?_eq_some hfind, by simpa using List.find?_some hfind⟩
  · rintro ⟨hmem, rfl⟩
    obtain ⟨r', hr'⟩ := Option.isSome_iff_exists.1
      (List.find?_isSome.2 ⟨r, hmem, by simp⟩ :
        (readings.find? fun x => x.signalName = r.signalName).isSome = true)
    have hname : r'.signalName = r.signalName := by simpa using List.find?_some hr'
    rw [reading?, hr', List.inj_on_of_nodup_map h (List.mem_of_find?_eq_some hr') hmem hname]

theorem judgements_settled (profile : HealthProfile) (readings : List SignalReading)
    (sampleTime : Time) (signal : HealthSignal) :
    (judgements profile readings sampleTime signal).Settled := judge_settled ..

/-- The judgement of a signal is of the values that are read of it. -/
theorem judgements_of (h : (readings.map SignalReading.signalName).Nodup) :
    (judgements profile readings sampleTime signal).Of value ↔
      Reads profile readings sampleTime signal value := by
  rw [judgements, judge_of]
  constructor
  · rintro ⟨r, hr, husable⟩
    obtain ⟨hmem, hname⟩ := (reading?_eq_some h).1 hr
    exact ⟨r, hmem, hname, husable⟩
  · rintro ⟨r, hmem, hname, husable⟩
    exact ⟨r, (reading?_eq_some h).2 ⟨hmem, hname⟩, husable⟩

omit [HealthTexts] in
/-- The traffic signal is one of the profile. -/
theorem find_gate (profile : HealthProfile) : ∃ gate ∈ profile.signals,
    gate.name = profile.effectiveTraffic.signal ∧ gate.required = true ∧
      profile.signals.find? (fun s => s.name = profile.effectiveTraffic.signal) = some gate := by
  obtain ⟨gate, hmem, hname, hrequired⟩ := profile.gated
  obtain ⟨found, hfound⟩ := Option.isSome_iff_exists.1
    (List.find?_isSome.2 ⟨gate, hmem, by simp [hname]⟩ :
      (profile.signals.find? fun s => s.name = profile.effectiveTraffic.signal).isSome = true)
  have hsame : found.name = gate.name := by
    rw [hname]
    simpa using List.find?_some hfound
  obtain rfl := List.inj_on_of_nodup_map profile.distinct (List.mem_of_find?_eq_some hfound) hmem
    hsame
  exact ⟨found, hmem, hname, hrequired, hfound⟩

theorem trafficConfirmed_iff (h : (readings.map SignalReading.signalName).Nodup) :
    trafficConfirmed profile.effectiveTraffic
        (judgedTraffic profile (judgements profile readings sampleTime)) = true ↔
      TrafficReached profile readings sampleTime := by
  obtain ⟨gate, hmem, hname, -, hfind⟩ := find_gate profile
  rw [judgedTraffic, hfind, Option.map_some, Option.getD_some, trafficConfirmed]
  simp only [Bool.and_eq_true, Option.any_eq_true, decide_eq_true_eq]
  constructor
  · rintro ⟨husable, value, hvalue, hle⟩
    exact ⟨gate, hmem, hname, value, (judgements_of h).1 ⟨husable, hvalue⟩, hle⟩
  · rintro ⟨signal, hsignal, hsame, value, hreads, hle⟩
    obtain rfl := List.inj_on_of_nodup_map profile.distinct hsignal hmem (hsame.trans hname.symm)
    obtain ⟨husable, hvalue⟩ := (judgements_of h).2 hreads
    exact ⟨husable, value, hvalue, hle⟩

section

variable {gate : TrafficGate} {traffic item : Judgement}

/-- A signal without a usable reading makes the outcome unknown. -/
theorem signalVerdict_unknown (h : item.Settled) :
    (signalVerdict gate traffic signal item).1.unknown.isSome = true ↔ item.usable = false := by
  unfold signalVerdict
  rcases h with ⟨value, husable, hvalue⟩ | ⟨husable, hunknown, -⟩
  · simp only [husable, Bool.not_true, Bool.false_eq_true, if_false]
    split_ifs <;> simp [SignalVerdictKind.unknown]
  · simp [husable, hunknown]

/-- A signal is degraded when its usable value is outside the bound, and traffic does not stand in
the way. -/
theorem signalVerdict_degraded (h : item.Settled) :
    (signalVerdict gate traffic signal item).1 = .degraded ↔
      ∃ value, item.Of value ∧ signal.healthy.contains value = false ∧
        ¬ (signal.name = gate.signal ∧ trafficLow gate traffic = true) ∧
        ¬ (signal.trafficDependent = true ∧ trafficConfirmed gate traffic = false) := by
  unfold signalVerdict
  rcases h with ⟨value, husable, hvalue⟩ | ⟨husable, -, hkind⟩
  · have hof : ∀ v, item.Of v ↔ v = value := fun v => by
      simp [Judgement.Of, husable, hvalue, eq_comm]
    simp only [husable, Bool.not_true, Bool.false_eq_true, if_false, hof, exists_eq_left, hvalue,
      Option.any_some, Bool.not_eq_true']
    split_ifs <;> simp_all
  · simp [husable, hkind, Judgement.Of]

/-! ## The outcome -/

variable {required : List SignalVerdict}

omit [HealthTexts] in
/-- The level of an unknown outcome is one of four. -/
theorem severity_mem (unknown : List SignalVerdict) :
    (unknownSeverity.find? fun level => unknown.any fun v => v.verdict.unknown = some level).getD
      .noData ∈ unknownSeverity := by
  cases hfind : unknownSeverity.find? fun level =>
      unknown.any fun v => v.verdict.unknown = some level with
  | none => simp [unknownSeverity]
  | some level => exact List.mem_of_find?_eq_some hfind

theorem outcomeOf_degraded : (outcomeOf gate traffic required).1 = .degraded ↔
    ∃ v ∈ required, v.verdict = .degraded := by
  unfold outcomeOf
  dsimp only
  have hmem := severity_mem (required.filter fun v => v.verdict.unknown.isSome)
  split_ifs with hdegraded hunknown hlow
  · simpa [List.filter_eq_nil_iff] using hdegraded
  all_goals
    have hnone : ¬ ∃ v ∈ required, v.verdict = .degraded := by
      simpa [List.filter_eq_nil_iff] using hdegraded
    refine iff_of_false ?_ hnone
  · intro heq
    simp only at heq
    rw [heq] at hmem
    simp [unknownSeverity] at hmem
  · simp
  · simp

theorem outcomeOf_healthy : (outcomeOf gate traffic required).1 = .healthy ↔
    (∀ v ∈ required, v.verdict ≠ .degraded ∧ v.verdict.unknown = none) ∧
      trafficLow gate traffic = false := by
  unfold outcomeOf
  dsimp only
  have hmem := severity_mem (required.filter fun v => v.verdict.unknown.isSome)
  split_ifs with hdegraded hunknown hlow
  · refine iff_of_false (by simp) ?_
    rintro ⟨hall, -⟩
    exact hdegraded (by simpa [List.filter_eq_nil_iff] using fun v hv => (hall v hv).1)
  · refine iff_of_false ?_ ?_
    · intro heq
      simp only at heq
      rw [heq] at hmem
      simp [unknownSeverity] at hmem
    · rintro ⟨hall, -⟩
      exact hunknown (by simpa [List.filter_eq_nil_iff] using fun v hv => (hall v hv).2)
  · simp [hlow]
  · simp only [ne_eq, not_not, List.map_eq_nil_iff, List.filter_eq_nil_iff, decide_eq_true_eq,
      Option.not_isSome_iff_eq_none] at hdegraded hunknown
    simp only [true_iff]
    exact ⟨fun v hv => ⟨hdegraded v hv, hunknown v hv⟩, by simpa using hlow⟩

end

/-! ## The whole verdict -/

omit [HealthTexts] in
theorem repeated_eq_none {seen names : List String} :
    repeated seen names = none ↔ names.Nodup ∧ ∀ n ∈ names, n ∉ seen := by
  induction names generalizing seen with
  | nil => simp [repeated]
  | cons n names ih =>
    rw [repeated]
    by_cases hn : n ∈ seen
    · simp [hn]
    · rw [if_neg hn, ih, List.nodup_cons]
      simp only [List.mem_cons, not_or, forall_eq_or_imp]
      constructor
      · rintro ⟨hnodup, hall⟩
        exact ⟨⟨fun hmem => (hall n hmem).1 rfl, hnodup⟩, hn, fun m hm => (hall m hm).2⟩
      · rintro ⟨⟨hmem, hnodup⟩, -, hall⟩
        exact ⟨hnodup, fun m hm => ⟨fun heq => hmem (heq ▸ hm), hall m hm⟩⟩

/-- The verdicts on the required signals of a profile. -/
def requiredVerdicts (profile : HealthProfile) (readings : List SignalReading)
    (sampleTime : Time) : List SignalVerdict :=
  let judged := judgements profile readings sampleTime
  (profile.signals.filter HealthSignal.required).map
    (verdictOn profile.effectiveTraffic (judgedTraffic profile judged) judged)

/-- The outcome, whether every required signal is present, and the reason. -/
def SampleEvaluation.summary (e : SampleEvaluation) : SampleOutcome × Bool × String :=
  (e.outcome, e.requiredSignalsPresent, e.reason)

variable {e : SampleEvaluation}

/-- What a verdict is made of: the required signals of the profile, and the traffic. -/
theorem evaluateReadings_ok (h : evaluateReadings profile readings sampleTime = .ok e) :
    (readings.map SignalReading.signalName).Nodup ∧
      let required := requiredVerdicts profile readings sampleTime
      let outcome := outcomeOf profile.effectiveTraffic
        (judgedTraffic profile (judgements profile readings sampleTime)) required
      e.summary = (outcome.1, required.all fun v => v.verdict.unknown.isNone, outcome.2) := by
  unfold evaluateReadings at h
  split at h
  · cases h
  · next hrepeated =>
    refine ⟨(repeated_eq_none.1 hrepeated).1, ?_⟩
    have hothers : ∀ others : List SignalReading,
        (others.map notInProfile).filter SignalVerdict.required = [] := by
      intro others
      simp [List.filter_eq_nil_iff, notInProfile]
    have hrequired : ∀ (traffic : Judgement) (judged : HealthSignal → Judgement),
        (profile.signals.map (verdictOn profile.effectiveTraffic traffic judged)).filter
            SignalVerdict.required =
          (profile.signals.filter HealthSignal.required).map
            (verdictOn profile.effectiveTraffic traffic judged) := by
      intro traffic judged
      rw [List.filter_map]
      rfl
    cases h
    simp only [SampleEvaluation.summary, List.filter_append, hothers, List.append_nil, hrequired]
    rfl

theorem evaluateReadings_isOk : (evaluateReadings profile readings sampleTime).toOption.isSome ↔
    (readings.map SignalReading.signalName).Nodup := by
  unfold evaluateReadings
  cases hrepeated : repeated [] (readings.map SignalReading.signalName) with
  | none => simpa [Except.toOption] using (repeated_eq_none.1 hrepeated).1
  | some name =>
    have hnot : ¬ (readings.map SignalReading.signalName).Nodup := by
      intro hnodup
      rw [repeated_eq_none.2 ⟨hnodup, by simp⟩] at hrepeated
      cases hrepeated
    simpa [Except.toOption] using hnot

/-- The verdict on a required signal. -/
theorem mem_requiredVerdicts {P : SignalVerdictKind → Prop} :
    (∃ v ∈ requiredVerdicts profile readings sampleTime, P v.verdict) ↔
      ∃ signal ∈ profile.signals, signal.required = true ∧
        P (signalVerdict profile.effectiveTraffic
          (judgedTraffic profile (judgements profile readings sampleTime)) signal
          (judgements profile readings sampleTime signal)).1 := by
  simp [requiredVerdicts, verdictOn, and_assoc]

variable (hnodup : (readings.map SignalReading.signalName).Nodup)
include hnodup

/-- Traffic is low when the traffic signal has a usable reading that does not reach the gate. -/
theorem trafficReached_of_not_low
    (husable : (judgedTraffic profile (judgements profile readings sampleTime)).usable = true) :
    trafficLow profile.effectiveTraffic
        (judgedTraffic profile (judgements profile readings sampleTime)) = false ↔
      TrafficReached profile readings sampleTime := by
  rw [← trafficConfirmed_iff hnodup, trafficLow, husable, Bool.true_and, Bool.not_eq_false']

/-- A required signal is degraded when it is judged by a value outside its bound. -/
theorem degraded_iff (hsignal : signal ∈ profile.signals) :
    (signalVerdict profile.effectiveTraffic
        (judgedTraffic profile (judgements profile readings sampleTime)) signal
        (judgements profile readings sampleTime signal)).1 = .degraded ↔
      ∃ value, JudgedBy profile readings sampleTime signal value ∧
        signal.healthy.contains value = false := by
  rw [signalVerdict_degraded (judgements_settled ..)]
  have hconfirmed : trafficConfirmed profile.effectiveTraffic
      (judgedTraffic profile (judgements profile readings sampleTime)) = true ↔
        TrafficReached profile readings sampleTime := trafficConfirmed_iff hnodup
  refine exists_congr fun value => ?_
  rw [judgements_of hnodup, JudgedBy]
  by_cases hreads : Reads profile readings sampleTime signal value
  · by_cases hreached : TrafficReached profile readings sampleTime
    · have hlow : trafficLow profile.effectiveTraffic
          (judgedTraffic profile (judgements profile readings sampleTime)) = false := by
        rw [trafficLow, hconfirmed.2 hreached]
        simp
      simp [hreads, hreached, hlow, hconfirmed.2 hreached]
    · have hnot : trafficConfirmed profile.effectiveTraffic
          (judgedTraffic profile (judgements profile readings sampleTime)) = false :=
        Bool.eq_false_iff.2 (mt hconfirmed.1 hreached)
      have hlow : signal.name = profile.effectiveTraffic.signal →
          trafficLow profile.effectiveTraffic
            (judgedTraffic profile (judgements profile readings sampleTime)) = true := by
        intro hname
        obtain ⟨gate, hmem, hgate, -, hfind⟩ := find_gate profile
        obtain rfl := List.inj_on_of_nodup_map profile.distinct hsignal hmem
          (hname.trans hgate.symm)
        have husable := ((judgements_of hnodup).2 hreads).1
        rw [trafficLow, hnot, judgedTraffic, hfind]
        simpa using husable
      simp only [hreads, true_and, hnot, hreached, imp_false, not_or]
      constructor
      · rintro ⟨hbound, hgate, hdepends⟩
        exact ⟨⟨fun h => hdepends ⟨h, trivial⟩, fun h => hgate ⟨h, hlow h⟩⟩, hbound⟩
      · rintro ⟨⟨hdepends, hgate⟩, hbound⟩
        exact ⟨hbound, fun h => hgate h.1, fun h => hdepends h.1⟩
  · simp [hreads]

/-- The target is degraded when a required signal is judged by a value outside its bound. -/
theorem outcome_degraded (h : evaluateReadings profile readings sampleTime = .ok e) :
    e.outcome = .degraded ↔ ∃ signal ∈ profile.signals, signal.required = true ∧
      ∃ value, JudgedBy profile readings sampleTime signal value ∧
        signal.healthy.contains value = false := by
  have houtcome := congrArg Prod.fst (evaluateReadings_ok h).2
  rw [show e.outcome = _ from houtcome, outcomeOf_degraded,
    mem_requiredVerdicts (P := fun kind => kind = .degraded)]
  exact exists_congr fun signal => and_congr_right fun hsignal => and_congr_right fun _ =>
    degraded_iff hnodup hsignal

theorem Reads.unique (h : Reads profile readings sampleTime signal value)
    (h' : Reads profile readings sampleTime signal v) : value = v := by
  have hvalue := ((judgements_of hnodup).2 h).2
  rw [((judgements_of hnodup).2 h').2] at hvalue
  exact (Option.some.inj hvalue).symm

/-- A required signal has a usable reading unless it makes the outcome unknown. -/
theorem unknown_iff : (signalVerdict profile.effectiveTraffic
      (judgedTraffic profile (judgements profile readings sampleTime)) signal
      (judgements profile readings sampleTime signal)).1.unknown = none ↔
    ∃ value, Reads profile readings sampleTime signal value := by
  rw [← Option.not_isSome_iff_eq_none, signalVerdict_unknown (judgements_settled ..),
    Bool.not_eq_false]
  constructor
  · intro husable
    rcases judgements_settled profile readings sampleTime signal with ⟨value, hof⟩ | ⟨hnot, -⟩
    · exact ⟨value, (judgements_of hnodup).1 hof⟩
    · rw [hnot] at husable
      cases husable
  · rintro ⟨value, hreads⟩
    exact ((judgements_of hnodup).2 hreads).1

/-- The target is healthy when traffic reaches its gate and every required signal has a usable
reading inside its bound. -/
theorem outcome_healthy (h : evaluateReadings profile readings sampleTime = .ok e) :
    e.outcome = .healthy ↔ TrafficReached profile readings sampleTime ∧
      ∀ signal ∈ profile.signals, signal.required = true →
        ∃ value, Reads profile readings sampleTime signal value ∧
          signal.healthy.contains value = true := by
  have houtcome := congrArg Prod.fst (evaluateReadings_ok h).2
  rw [show e.outcome = _ from houtcome, outcomeOf_healthy]
  have hverdicts : (∀ v ∈ requiredVerdicts profile readings sampleTime,
      v.verdict ≠ .degraded ∧ v.verdict.unknown = none) ↔
      ∀ signal ∈ profile.signals, signal.required = true →
        (¬ ∃ value, JudgedBy profile readings sampleTime signal value ∧
          signal.healthy.contains value = false) ∧
        ∃ value, Reads profile readings sampleTime signal value := by
    simp only [requiredVerdicts, List.forall_mem_map, List.mem_filter, and_imp]
    refine forall_congr' fun signal => forall_congr' fun hsignal => forall_congr' fun _ => ?_
    rw [← degraded_iff hnodup hsignal, ← unknown_iff hnodup]
    rfl
  rw [hverdicts]
  constructor
  · rintro ⟨hall, hlow⟩
    obtain ⟨gate, hmem, -, hrequired, hfind⟩ := find_gate profile
    obtain ⟨-, level, hlevel⟩ := hall gate hmem hrequired
    have husable : (judgedTraffic profile
        (judgements profile readings sampleTime)).usable = true := by
      rw [judgedTraffic, hfind]
      exact ((judgements_of hnodup).2 hlevel).1
    have hreached := (trafficReached_of_not_low hnodup husable).1 hlow
    refine ⟨hreached, fun signal hsignal hrequired => ?_⟩
    obtain ⟨hbound, value, hreads⟩ := hall signal hsignal hrequired
    refine ⟨value, hreads, ?_⟩
    by_contra hout
    exact hbound ⟨value, ⟨hreads, fun _ => hreached⟩, by simpa using hout⟩
  · rintro ⟨hreached, hall⟩
    refine ⟨fun signal hsignal hrequired => ?_, ?_⟩
    · obtain ⟨value, hreads, hbound⟩ := hall signal hsignal hrequired
      refine ⟨?_, value, hreads⟩
      rintro ⟨other, hjudged, hout⟩
      rw [Reads.unique hnodup hjudged.1 hreads, hbound] at hout
      cases hout
    · rw [trafficLow, (trafficConfirmed_iff hnodup).2 hreached]
      simp

omit hnodup

/-! ## What the verdict does not depend on -/

/-- Two profiles that ask the same of the required signals. -/
structure SameRequirements (p q : HealthProfile) : Prop where
  source : p.source = q.source
  window : p.evaluationWindowSeconds = q.evaluationWindowSeconds
  freshness : p.freshnessSeconds = q.freshnessSeconds
  gate : p.effectiveTraffic = q.effectiveTraffic
  required : p.signals.filter HealthSignal.required = q.signals.filter HealthSignal.required

variable {profile' : HealthProfile} {readings' : List SignalReading} {e' : SampleEvaluation}

theorem judge_congr (h : SameRequirements profile profile') (reading : Option SignalReading) :
    judge profile signal reading sampleTime = judge profile' signal reading sampleTime := by
  have hfresh : freshAt profile = freshAt profile' := by
    funext sampleTime instant
    rw [freshAt, freshAt, h.freshness]
  have hspans : spansWindow profile = spansWindow profile' := by
    funext window
    rw [spansWindow, spansWindow, h.window]
  have hok : ∀ r, judgeOk profile signal r sampleTime = judgeOk profile' signal r sampleTime := by
    intro r
    funext value count
    rw [judgeOk, judgeOk, hfresh, hspans, h.freshness, h.window]
  cases reading with
  | none => rfl
  | some r => rw [judge, judge, h.source, hok]

/-- The verdict depends on the required signals and on the readings of them only. -/
theorem summary_congr (hsame : SameRequirements profile profile')
    (hreadings : ∀ signal ∈ profile.signals, signal.required = true →
      reading? readings signal.name = reading? readings' signal.name)
    (h : evaluateReadings profile readings sampleTime = .ok e)
    (h' : evaluateReadings profile' readings' sampleTime = .ok e') : e.summary = e'.summary := by
  have hjudged : ∀ signal ∈ profile.signals, signal.required = true →
      judgements profile readings sampleTime signal =
        judgements profile' readings' sampleTime signal := by
    intro signal hsignal hrequired
    rw [judgements, judgements, hreadings signal hsignal hrequired, judge_congr hsame]
  have htraffic : judgedTraffic profile (judgements profile readings sampleTime) =
      judgedTraffic profile' (judgements profile' readings' sampleTime) := by
    obtain ⟨gate, hmem, hname, hrequired, hfind⟩ := find_gate profile
    obtain ⟨gate', hmem', hname', hrequired', hfind'⟩ := find_gate profile'
    -- the gate of the other profile is a required signal of this one
    have hgate' : gate' ∈ profile.signals.filter HealthSignal.required := by
      rw [hsame.required]
      exact List.mem_filter.2 ⟨hmem', hrequired'⟩
    obtain rfl := List.inj_on_of_nodup_map profile.distinct (List.mem_filter.1 hgate').1 hmem
      (by rw [hname', hname, hsame.gate])
    rw [judgedTraffic, judgedTraffic, hfind, hfind', Option.map_some, Option.map_some,
      hjudged _ hmem hrequired]
  have hrequired : requiredVerdicts profile readings sampleTime =
      requiredVerdicts profile' readings' sampleTime := by
    simp only [requiredVerdicts, htraffic, hsame.gate, ← hsame.required]
    refine List.map_congr_left fun signal hsignal => ?_
    obtain ⟨hmem, hrequired⟩ := List.mem_filter.1 hsignal
    simp only [verdictOn, hjudged signal hmem hrequired]
  rw [(evaluateReadings_ok h).2, (evaluateReadings_ok h').2, hrequired, htraffic, hsame.gate]

omit [HealthTexts] in
theorem reading?_perm (hperm : readings.Perm readings')
    (h : (readings.map SignalReading.signalName).Nodup) (name : String) :
    reading? readings name = reading? readings' name := by
  have h' : (readings'.map SignalReading.signalName).Nodup := (hperm.map _).nodup_iff.1 h
  refine Option.ext fun r => ?_
  rw [reading?_eq_some h, reading?_eq_some h', hperm.mem_iff]

end

/-! ## The traffic signal below its gate -/

namespace LowTraffic

/-- No text depends on numbers. -/
scoped instance : HealthTexts where
  str _ := ""
  whole _ := ""
  profileRevision _ := "p"

/-- The request rate, which is healthy from two on. -/
def rate : HealthSignal where
  name := "rate"
  required := true
  query := "q"
  coverageQuery := "c"
  freshnessQuery := "f"
  minimumSamples := 1
  trafficDependent := false
  healthy := { min := some 2, max := none, edge := .inl rfl, ordered := by simp }
  positive := Nat.one_pos

/-- A profile of the request rate alone, with a gate of one. -/
def profile : HealthProfile where
  profileId := "p"
  «namespace» := "shop"
  service := "checkout"
  source := "prometheus"
  evaluationWindowSeconds := 2
  freshnessSeconds := 60
  effectiveTraffic := { signal := "rate", minimum := 1, positive := zero_lt_one }
  signals := [rate]
  distinct := List.nodup_singleton _
  gated := ⟨rate, List.mem_singleton_self _, rfl, rfl⟩

/-- A usable reading of a half. -/
def half : SignalReading where
  signalName := "rate"
  status := .ok (1 / 2) 1
  query := "q"
  source := "prometheus"
  window := ⟨0, seconds 2, by decide⟩
  latestSampleAt := some (seconds 2)

example : double (1 / 10) = 3602879701896397 / 36028797018963968 := by decide +kernel

end LowTraffic

end OpsPilot.Observer
