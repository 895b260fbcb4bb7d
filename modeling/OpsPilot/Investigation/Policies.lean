import OpsPilot.Investigation.Reports
import Mathlib.Data.Finset.Image

/-!
# Time policies

The time policies a view may be cited under (`eligible_time_policies`). A policy speaks either
of a fixed historical window or of the present; a view wears it when its query window, and the
verified interval of its source data if it has one, fit.

* `eligibleTimePolicies`: the ids of the policies of a list that a view fits.
* `WindowFits`: what fitting means, in terms of instants.
* **`windowFits_of_eligible`**: a policy a view wears is one of the list, and the view fits it.
* **`time_policies_monotone`**: what a view says of its source data makes no policy eligible.
-/

namespace OpsPilot

/-- The number a value is; a flag counts as 0 or 1. -/
def Json.number? : Json → Option ℚ
  | .num q => some q
  | .bool b => some (if b then 1 else 0)
  | _ => none

/-- What a view says of itself that its time policies depend on. -/
structure ViewFacts where
  source : Json
  tool : Json
  targetIds : Finset String
  window : Json
  freshnessSeconds : Json
  sourceStartAt : Json
  sourceEndAt : Json
  dispatchStartedAt : Json
  responseReceivedAt : Json

section

variable [ReportTexts]

/-- `_aware`: the instant a timestamp with an offset names. -/
def aware : Json → Option Time
  | .str text => if text = "" then none else ReportTexts.fromisoformat text
  | _ => none

namespace ViewFacts

variable (facts : ViewFacts)

/-- An end of the query window. -/
def windowEnd (key : String) : Option Time := aware (facts.window.get key)

/-- The verified interval of the source data, `some none` where its coverage is unknown; `none`
where the view's claim about it is inconsistent. -/
def sourceInterval : Option (Option (Time × Time)) :=
  if facts.sourceStartAt = .null ∧ facts.sourceEndAt = .null then some none
  else match aware facts.sourceStartAt, aware facts.sourceEndAt with
    | some start, some stop => if start ≤ stop then some (some (start, stop)) else none
    | _, _ => none

/-- The instant a policy judges source data against. -/
def reference (policy : Json) : Option Time :=
  match policy.get "reference_rule" with
  | .str rule =>
    if rule = "dispatch_started_at" then aware facts.dispatchStartedAt
    else if rule = "response_received_at" then aware facts.responseReceivedAt
    else none
  | _ => none

/-- Whether a policy trusts an instant that is not before the end of the source data. -/
def settled (policy : Json) : Option (Time × Time) → Bool
  | none => true
  | some (_, stop) => (facts.reference policy).any fun reference => stop ≤ reference

/-- Whether a policy is for the view's source or its tool; an empty list is for all. -/
def interfaceAllowed (policy : Json) : Bool :=
  match policy.get "interfaces" with
  | .arr items => items = [] || items.any fun item =>
      (Json.text? item).isSome && (item = facts.source || item = facts.tool)
  | _ => true

/-- Whether a policy is for all authorized targets, or names one of the view's. -/
def targetsNamed (policy : Json) : Bool :=
  policy.get "all_authorized_targets" = .bool true ||
    match policy.get "target_refs" with
    | .arr items => items.any fun item =>
        (nonemptyText item).any fun target => target ∈ facts.targetIds
    | _ => false

/-- Whether the view fits the fixed window of a policy. -/
def historical (policy : Json) (interval : Option (Time × Time)) : Bool :=
  let bounds := policy.get "window"
  match aware (bounds.get "start"), aware (bounds.get "end"), facts.windowEnd "start",
      facts.windowEnd "end" with
  | some start, some stop, some viewStart, some viewEnd =>
    start ≤ viewStart && viewStart ≤ viewEnd && viewEnd ≤ stop &&
      interval.all fun (sourceStart, sourceEnd) =>
        start ≤ sourceStart && sourceStart ≤ sourceEnd && sourceEnd ≤ stop
  | _, _, _, _ => false

/-- Whether the source data lies in the query window, where that has two ends. -/
def sourceQueried (sourceStart sourceEnd : Time) : Bool :=
  match facts.windowEnd "start", facts.windowEnd "end" with
  | some viewStart, some viewEnd => viewStart ≤ sourceStart && sourceEnd ≤ viewEnd
  | _, _ => true

/-- Whether the view is fresh enough for a policy of the present. -/
def current (policy : Json) (interval : Option (Time × Time)) : Bool :=
  match policy.get "max_source_age_seconds", Json.number? facts.freshnessSeconds with
  | .num maxAge, some freshness =>
    maxAge.isInt && 0 < maxAge && 0 ≤ freshness && freshness ≤ maxAge &&
      interval.all fun (sourceStart, sourceEnd) =>
        facts.sourceQueried sourceStart sourceEnd &&
          (facts.reference policy).any fun reference =>
            ((reference - sourceStart : ℤ) : ℚ) ≤ maxAge * 1000000
  | _, _ => false

/-- Whether the view fits a policy, as its mode asks. -/
def modeFits (policy : Json) (interval : Option (Time × Time)) : Bool :=
  match policy.get "mode" with
  | .str mode =>
    if mode = "historical_window" then facts.historical policy interval
    else mode = "current" && facts.current policy interval
  | _ => false

/-- The id of a policy, if the view may wear it. -/
def eligible (interval : Option (Time × Time)) (policy : Json) : Option String :=
  if facts.settled policy interval && facts.interfaceAllowed policy &&
      facts.targetsNamed policy && facts.modeFits policy interval then
    nonemptyText (policy.get "id")
  else none

/-- `eligible_time_policies`: the ids of the policies this view is allowed to wear. -/
def eligibleTimePolicies (policies : Json) : Finset String :=
  match policies, facts.sourceInterval with
  | .arr items, some interval => (items.filterMap (facts.eligible interval)).toFinset
  | _, _ => ∅

/-- **What fitting a policy means.** The query window, and the source data where its interval is
verified, lie in the policy's window; or the data is not older than the policy allows, its
oldest end included, and was asked for. -/
inductive WindowFits (policy : Json) : Prop
  | historical {start stop viewStart viewEnd : Time}
      (mode : policy.get "mode" = .str "historical_window")
      (bounds : aware ((policy.get "window").get "start") = some start ∧
        aware ((policy.get "window").get "end") = some stop)
      (window : facts.windowEnd "start" = some viewStart ∧ facts.windowEnd "end" = some viewEnd)
      (fits : start ≤ viewStart ∧ viewStart ≤ viewEnd ∧ viewEnd ≤ stop)
      (source : ∀ sourceStart sourceEnd,
        facts.sourceInterval = some (some (sourceStart, sourceEnd)) →
          start ≤ sourceStart ∧ sourceEnd ≤ stop)
  | current {maxAge freshness : ℚ}
      (mode : policy.get "mode" = .str "current")
      (age : policy.get "max_source_age_seconds" = .num maxAge)
      (read : Json.number? facts.freshnessSeconds = some freshness)
      (fits : 0 ≤ freshness ∧ freshness ≤ maxAge)
      (source : ∀ sourceStart sourceEnd,
        facts.sourceInterval = some (some (sourceStart, sourceEnd)) →
          ∃ reference, facts.reference policy = some reference ∧ sourceEnd ≤ reference ∧
            ((reference - sourceStart : ℤ) : ℚ) ≤ maxAge * 1000000 ∧
            ∀ viewStart viewEnd, facts.windowEnd "start" = some viewStart →
              facts.windowEnd "end" = some viewEnd →
                viewStart ≤ sourceStart ∧ sourceEnd ≤ viewEnd)

variable {facts : ViewFacts} {policy : Json} {interval : Option (Time × Time)}

theorem historical_windowFits (hmode : policy.get "mode" = .str "historical_window")
    (hinterval : facts.sourceInterval = some interval)
    (h : facts.historical policy interval = true) : facts.WindowFits policy := by
  unfold historical at h
  dsimp only at h
  split at h
  · next start stop viewStart viewEnd hstart hstop hviewStart hviewEnd =>
    simp only [Bool.and_eq_true, decide_eq_true_eq] at h
    obtain ⟨⟨⟨hleft, horder⟩, hright⟩, hsource⟩ := h
    refine .historical hmode ⟨hstart, hstop⟩ ⟨hviewStart, hviewEnd⟩ ⟨hleft, horder, hright⟩ ?_
    intro sourceStart sourceEnd hsome
    obtain rfl : interval = some (sourceStart, sourceEnd) :=
      Option.some.inj (hinterval.symm.trans hsome)
    simp only [Option.all_some, Bool.and_eq_true, decide_eq_true_eq] at hsource
    exact ⟨hsource.1.1, hsource.2⟩
  · cases h

theorem sourceQueried_eq_true {sourceStart sourceEnd viewStart viewEnd : Time}
    (h : facts.sourceQueried sourceStart sourceEnd = true)
    (hstart : facts.windowEnd "start" = some viewStart)
    (hend : facts.windowEnd "end" = some viewEnd) :
    viewStart ≤ sourceStart ∧ sourceEnd ≤ viewEnd := by
  unfold sourceQueried at h
  rw [hstart, hend] at h
  simpa using h

theorem current_windowFits (hmode : policy.get "mode" = .str "current")
    (hinterval : facts.sourceInterval = some interval)
    (hsettled : facts.settled policy interval = true)
    (h : facts.current policy interval = true) : facts.WindowFits policy := by
  unfold current at h
  split at h
  · next maxAge freshness hage hread =>
    simp only [Bool.and_eq_true, decide_eq_true_eq] at h
    obtain ⟨⟨⟨-, hnonneg⟩, hfresh⟩, hsource⟩ := h
    refine .current hmode hage hread ⟨hnonneg, hfresh⟩ ?_
    intro sourceStart sourceEnd hsome
    obtain rfl : interval = some (sourceStart, sourceEnd) :=
      Option.some.inj (hinterval.symm.trans hsome)
    simp only [Option.all_some, Bool.and_eq_true] at hsource
    obtain ⟨hqueried, hold⟩ := hsource
    obtain ⟨reference, hreference, hstop⟩ := (Option.any_eq_true _ _).1 hsettled
    rw [hreference] at hold
    simp only [Option.any_some, decide_eq_true_eq] at hold hstop
    exact ⟨reference, hreference, hstop, hold, fun viewStart viewEnd =>
      sourceQueried_eq_true hqueried⟩
  · cases h

theorem modeFits_windowFits (hinterval : facts.sourceInterval = some interval)
    (hsettled : facts.settled policy interval = true)
    (h : facts.modeFits policy interval = true) : facts.WindowFits policy := by
  unfold modeFits at h
  split at h
  · next mode hget =>
    split at h
    · next heq => exact historical_windowFits (heq ▸ hget) hinterval h
    · simp only [Bool.and_eq_true, decide_eq_true_eq] at h
      exact current_windowFits (h.1 ▸ hget) hinterval hsettled h.2
  · cases h

theorem eligible_eq_some {ident : String} (hinterval : facts.sourceInterval = some interval)
    (h : facts.eligible interval policy = some ident) :
    nonemptyText (policy.get "id") = some ident ∧ facts.WindowFits policy := by
  unfold eligible at h
  split at h
  · next hfits =>
    simp only [Bool.and_eq_true] at hfits
    exact ⟨h, modeFits_windowFits hinterval hfits.1.1.1 hfits.2⟩
  · cases h

/-- **A policy a view wears fits it.** -/
theorem windowFits_of_eligible {policies : Json} {ident : String}
    (h : ident ∈ facts.eligibleTimePolicies policies) :
    ∃ items, policies = .arr items ∧ ∃ policy ∈ items,
      nonemptyText (policy.get "id") = some ident ∧ facts.WindowFits policy := by
  unfold eligibleTimePolicies at h
  split at h
  · next items interval hinterval =>
    rw [List.mem_toFinset, List.mem_filterMap] at h
    obtain ⟨policy, hmem, hident⟩ := h
    exact ⟨items, rfl, policy, hmem, eligible_eq_some hinterval hident⟩
  · exact absurd h (Finset.notMem_empty ident)

/-! ## The source interval -/

/-- A view that says nothing of the interval of its source data. -/
def withoutSource (facts : ViewFacts) : ViewFacts :=
  { facts with sourceStartAt := .null, sourceEndAt := .null }

/-- A view that says something of the interval of its source data, but no two instants in
order. -/
def SourceMalformed (facts : ViewFacts) : Prop :=
  ¬ (facts.sourceStartAt = .null ∧ facts.sourceEndAt = .null) ∧
    ∀ start stop, aware facts.sourceStartAt = some start → aware facts.sourceEndAt = some stop →
      stop < start

@[simp] theorem withoutSource_sourceInterval :
    facts.withoutSource.sourceInterval = some none := rfl

theorem sourceInterval_eq_none : facts.sourceInterval = none ↔ facts.SourceMalformed := by
  unfold sourceInterval SourceMalformed
  split
  · next hnull => simp [hnull]
  · next hclaim =>
    cases hstart : aware facts.sourceStartAt with
    | none => simp [hclaim]
    | some start =>
      cases hstop : aware facts.sourceEndAt with
      | none => simp [hclaim]
      | some stop =>
        by_cases hle : start ≤ stop
        · simp [hle]
        · simp [hclaim, hle, not_le.1 hle]

/-- A mode that fits with the interval fits without it. -/
theorem modeFits_withoutSource (h : facts.modeFits policy interval = true) :
    facts.withoutSource.modeFits policy none = true := by
  have hhistorical : facts.historical policy interval = true →
      facts.withoutSource.historical policy none = true := by
    intro hfits
    unfold historical at hfits ⊢
    dsimp only at hfits ⊢
    split at hfits
    · next start stop viewStart viewEnd hstart hstop hviewStart hviewEnd =>
      simp only [Bool.and_eq_true] at hfits
      have hview : facts.withoutSource.windowEnd "start" = some viewStart ∧
          facts.withoutSource.windowEnd "end" = some viewEnd := ⟨hviewStart, hviewEnd⟩
      simp [hstart, hstop, hview.1, hview.2, hfits.1]
    · cases hfits
  have hcurrent : facts.current policy interval = true →
      facts.withoutSource.current policy none = true := by
    intro hfits
    unfold current at hfits ⊢
    split at hfits
    · next maxAge freshness hage hread =>
      have hread' : Json.number? facts.withoutSource.freshnessSeconds = some freshness := hread
      simp only [Bool.and_eq_true] at hfits
      simp only [hage, hread', Option.all_none, Bool.and_true, Bool.and_eq_true]
      exact hfits.1
    · cases hfits
  unfold modeFits at h ⊢
  split at h
  · split at h
    · next hmode =>
      rw [if_pos hmode]
      exact hhistorical h
    · next hmode =>
      rw [if_neg hmode]
      simp only [Bool.and_eq_true] at h ⊢
      exact ⟨h.1, hcurrent h.2⟩
  · cases h

theorem eligible_withoutSource {ident : String}
    (h : facts.eligible interval policy = some ident) :
    facts.withoutSource.eligible none policy = some ident := by
  unfold eligible at h ⊢
  split at h
  · next hfits =>
    simp only [Bool.and_eq_true] at hfits
    obtain ⟨⟨⟨-, hinterface⟩, htargets⟩, hmode⟩ := hfits
    have hfits' : (facts.withoutSource.settled policy none &&
        facts.withoutSource.interfaceAllowed policy && facts.withoutSource.targetsNamed policy &&
        facts.withoutSource.modeFits policy none) = true := by
      simp only [Bool.and_eq_true]
      exact ⟨⟨⟨rfl, hinterface⟩, htargets⟩, modeFits_withoutSource hmode⟩
    rw [if_pos hfits']
    exact h
  · cases h

/-- Saying what the source data covers makes no policy eligible. -/
theorem eligibleTimePolicies_subset (policies : Json) :
    facts.eligibleTimePolicies policies ⊆ facts.withoutSource.eligibleTimePolicies policies := by
  intro ident h
  unfold eligibleTimePolicies at h ⊢
  split at h
  · rw [List.mem_toFinset, List.mem_filterMap] at h
    obtain ⟨policy, hmem, hident⟩ := h
    rw [withoutSource_sourceInterval]
    show ident ∈ List.toFinset _
    rw [List.mem_toFinset, List.mem_filterMap]
    exact ⟨policy, hmem, eligible_withoutSource hident⟩
  · exact absurd h (Finset.notMem_empty ident)

/-- A claim about the source data that does not hold together leaves no policy. -/
theorem eligibleTimePolicies_of_malformed (h : facts.SourceMalformed) (policies : Json) :
    facts.eligibleTimePolicies policies = ∅ := by
  unfold eligibleTimePolicies
  rw [sourceInterval_eq_none.2 h]
  split
  · next heq => cases heq
  · rfl

end ViewFacts

end

namespace PresentPolicy

/-- Two days. -/
scoped instance reportTexts : ReportTexts where
  decodeError _ := ""
  schemaErrors _ := []
  fromisoformat text :=
    if text = "2026-01-01T00:00:00+00:00" then some 0
    else if text = "2026-01-02T00:00:00+00:00" then some 86400000000
    else none

/-- A policy of the present, with a window. -/
def policy : Json := .obj [
  ("all_authorized_targets", .bool true),
  ("id", .str "now"),
  ("max_source_age_seconds", .num 60),
  ("mode", .str "current"),
  ("window", .obj [("end", .str "2026-01-02T00:00:00+00:00"),
    ("start", .str "2026-01-02T00:00:00+00:00")])]

/-- A fresh answer to a query of the day before. -/
def facts : ViewFacts where
  source := .str "prometheus"
  tool := .str "query"
  targetIds := ∅
  window := .obj [("end", .str "2026-01-01T00:00:00+00:00"),
    ("start", .str "2026-01-01T00:00:00+00:00")]
  freshnessSeconds := .num 0
  sourceStartAt := .null
  sourceEndAt := .null
  dispatchStartedAt := .null
  responseReceivedAt := .null

end PresentPolicy

end OpsPilot
