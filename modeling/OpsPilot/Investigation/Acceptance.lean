import OpsPilot.Investigation.Context

/-!
# What an accepted report may say

A reply is accepted as the final report (`validated_report` in `opspilot/investigation/reports.py`)
when it reads as a report and every claim of it passes its checks. What a claim that passes them is
bound to is said here without the order in which the checks are made.

* `CitationScope.Supported`: what a claim is checked for.
* `citationFailure_eq_none`, `validatedReport_eq_accepted`: the checks are exact.
* `deliveredView_timeScopeRefs`: the time policies of a view the loop delivered, which its window
  fits.
* `report_acceptance`: accepted reports and refused replies.
* `Unmapped.target_not_authorized`: a target ref that stands for no target passes.
-/

namespace OpsPilot

deriving instance DecidableEq for DeliveredView

/-! ## The checks of a claim -/

namespace CitationScope

variable (scope : CitationScope)

/-- What the cited evidence of a claim must show, for a claim that asserts what evidence shows. -/
structure Evidenced (claim : ClaimV2) (ref : String) : Prop where
  /-- The claim names one of the time policies. -/
  named : claim.timeScopeRef = some ref
  known : ref ∈ scope.timePolicyIds
  ok : ∀ view ∈ scope.cited claim, view.status = "ok"
  citable : ∀ view ∈ scope.cited claim, view.citableAsFact = true
  bound : ∀ view ∈ scope.cited claim, ref ∈ view.timeScopeRefs
  observed : ∀ target ∈ claim.targetRefs, ∃ view ∈ scope.cited claim, target ∈ view.targetIds

/-- What a claim is checked for. -/
structure Supported (claim : ClaimV2) : Prop where
  delivered : ∀ eid ∈ claim.evidenceIds, (byId scope.views eid).isSome
  allowed : ∀ target ∈ claim.targetRefs, scope.refAllowed target = true
  known : ∀ ref, claim.timeScopeRef = some ref → ref ∈ scope.timePolicyIds
  evidenced : claim.kind.factLike = true → ∃ ref, scope.Evidenced claim ref

variable {scope} {claim : ClaimV2} {index : ℕ}

theorem citedNot_eq_nil {p : DeliveredView → Bool} :
    scope.citedNot claim p = [] ↔ ∀ view ∈ scope.cited claim, p view = true := by
  simp [citedNot]

theorem timeKnown_eq_true :
    scope.timeKnown claim = true ↔ ∃ ref, claim.timeScopeRef = some ref ∧
      ref ∈ scope.timePolicyIds := by
  unfold timeKnown
  cases claim.timeScopeRef <;> simp

theorem boundBy_eq_true {ref : String} (h : claim.timeScopeRef = some ref) (view : DeliveredView) :
    boundBy claim view = true ↔ ref ∈ view.timeScopeRefs := by
  simp [boundBy, h]

theorem observed_iff :
    (claim.targetRefs.any fun ref =>
        (scope.cited claim).all fun view => ref ∉ view.targetIds) = false ↔
      ∀ target ∈ claim.targetRefs, ∃ view ∈ scope.cited claim, target ∈ view.targetIds := by
  simp [List.any_eq_false]

/-- The checks of a claim that asserts what evidence shows. -/
theorem factFailure_eq_none :
    scope.factFailure index claim = none ↔ ∃ ref, scope.Evidenced claim ref := by
  unfold factFailure
  constructor
  · intro h
    by_cases hknown : scope.timeKnown claim = true
    · obtain ⟨ref, hnamed, hmem⟩ := timeKnown_eq_true.1 hknown
      simp only [hknown, Bool.not_true, Bool.false_eq_true, if_false, ite_not] at h
      split at h
      · next hok =>
        split at h
        · next hcitable =>
          split at h
          · next hbound =>
            split at h
            · cases h
            · next hobserved =>
              refine ⟨ref, hnamed, hmem, by simpa using citedNot_eq_nil.1 hok,
                citedNot_eq_nil.1 hcitable, fun view hview => ?_,
                observed_iff.1 (Bool.eq_false_iff.2 hobserved)⟩
              exact (boundBy_eq_true hnamed view).1 (citedNot_eq_nil.1 hbound view hview)
          · cases h
        · cases h
      · cases h
    · rw [if_pos (by simpa using hknown)] at h
      cases h
  · rintro ⟨ref, h⟩
    have hknown : scope.timeKnown claim = true := timeKnown_eq_true.2 ⟨ref, h.named, h.known⟩
    have hok : scope.citedNot claim (·.status = "ok") = [] :=
      citedNot_eq_nil.2 fun view hview => by simpa using h.ok view hview
    have hcitable : scope.citedNot claim (·.citableAsFact) = [] := citedNot_eq_nil.2 h.citable
    have hbound : scope.citedNot claim (boundBy claim) = [] :=
      citedNot_eq_nil.2 fun view hview => (boundBy_eq_true h.named view).2 (h.bound view hview)
    rw [if_neg (by simp [hknown]), if_neg (by simp [hok]), if_neg (by simp [hcitable]),
      if_neg (by simp [hbound]), if_neg (Bool.eq_false_iff.1 (observed_iff.2 h.observed))]

/-- **The checks of a claim are exact.** -/
theorem citationFailure_eq_none :
    scope.citationFailure index claim = none ↔ scope.Supported claim := by
  have hunknown : (claim.evidenceIds.filter fun eid => (byId scope.views eid).isNone) = [] ↔
      ∀ eid ∈ claim.evidenceIds, (byId scope.views eid).isSome := by
    simp [List.filter_eq_nil_iff, Option.isSome_iff_ne_none]
  have hallowed : (claim.targetRefs.any fun ref => !scope.refAllowed ref) = false ↔
      ∀ target ∈ claim.targetRefs, scope.refAllowed target = true := by
    simp [List.any_eq_false]
  have htime : ¬ (claim.timeScopeRef ≠ none ∧ (!scope.timeKnown claim) = true) ↔
      ∀ ref, claim.timeScopeRef = some ref → ref ∈ scope.timePolicyIds := by
    unfold timeKnown
    cases claim.timeScopeRef <;> simp
  unfold citationFailure
  constructor
  · intro h
    simp only [ite_not] at h
    split at h
    · next hids =>
      split at h
      · cases h
      · next htargets =>
        split at h
        · cases h
        · next hknown =>
          refine ⟨hunknown.1 hids, hallowed.1 (Bool.eq_false_iff.2 htargets), htime.1 hknown, ?_⟩
          intro hfact
          rw [if_pos hfact] at h
          exact factFailure_eq_none.1 h
    · cases h
  · intro h
    rw [if_neg (by simpa using hunknown.2 h.delivered),
      if_neg (Bool.eq_false_iff.1 (hallowed.2 h.allowed)), if_neg (htime.2 h.known)]
    split
    · next hfact => exact factFailure_eq_none.2 (h.evidenced hfact)
    · rfl

theorem unsupportedCitations_eq_false {report : ReportV2} :
    scope.unsupportedCitations report = false ↔ ∀ claim ∈ report.claims, scope.Supported claim := by
  rw [unsupportedCitations, Bool.not_eq_false', List.isEmpty_iff, citationFailures,
    List.filterMap_eq_nil_iff]
  constructor
  · intro h claim hclaim
    obtain ⟨index, hindex⟩ := List.mem_iff_getElem?.1 hclaim
    refine citationFailure_eq_none.1 (h (claim, index) ?_)
    exact List.mem_zipIdx_iff_getElem?.2 hindex
  · rintro h ⟨claim, index⟩ hmem
    have hindex : report.claims[index]? = some claim := List.mem_zipIdx_iff_getElem?.1 hmem
    exact citationFailure_eq_none.2 (h claim (List.mem_of_getElem? hindex))

theorem byId_mem {views : List DeliveredView} {eid : String} {view : DeliveredView}
    (h : byId views eid = some view) : view ∈ views ∧ view.evidenceId = eid :=
  ⟨List.mem_reverse.1 (List.mem_of_find?_eq_some h), by simpa using List.find?_some h⟩

theorem mem_cited {view : DeliveredView} : view ∈ scope.cited claim ↔
    ∃ eid ∈ claim.evidenceIds, byId scope.views eid = some view := List.mem_filterMap

/-- A target ref a claim may name is a ref of the catalog that stands for an authorized target or
for none, and an authorized target where there is no catalog. -/
theorem refAllowed_eq_true {target : String} : scope.refAllowed target = true ↔
    (∀ catalog, scope.targetCatalog = some catalog → ∃ named, catalog.lookup target = some named ∧
      ∀ registered, named = some registered → registered ∈ scope.authorizedTargets) ∧
    (scope.targetCatalog = none → target ∈ scope.authorizedTargets) := by
  unfold refAllowed
  cases hcatalog : scope.targetCatalog with
  | none => simp
  | some catalog =>
    cases hlookup : catalog.lookup target with
    | none => simp [hlookup]
    | some named => cases named <;> simp [hlookup]

end CitationScope

/-! ## Accepted reports -/

section

variable [ReportTexts]

/-- What a view says of itself that its time policies depend on. -/
def viewFacts (view : Json) (targetIds : Finset String) : ViewFacts where
  source := view.get "source"
  tool := if (view.get "parent_tool").text?.isSome then view.get "parent_tool" else view.get "tool"
  targetIds
  window := view.get "window"
  freshnessSeconds := view.get "freshness_seconds"
  sourceStartAt := view.get "source_start_at"
  sourceEndAt := view.get "source_end_at"
  dispatchStartedAt := view.get "dispatch_started_at"
  responseReceivedAt := view.get "observed_at"

/-- A delivered view carries the time policies its own facts make it eligible for. -/
theorem deliveredView_timeScopeRefs {raw context : Json} {authorized : Finset String}
    {view : DeliveredView} (h : deliveredView raw context authorized = some view) :
    view.timeScopeRefs =
      (viewFacts raw view.targetIds).eligibleTimePolicies (context.get "time_policies") := by
  unfold deliveredView at h
  split at h
  · obtain ⟨evidenceId, -, rfl⟩ := Option.map_eq_some_iff.1 h
    rfl
  · cases h

omit [ReportTexts] in
/-- `finish_reason if finish_reason else "unknown"`. -/
def finishWord : Option String → String
  | none | some "" => "unknown"
  | some finish => finish

variable {content : String} {finishReason : Option String} {delivered : List DeliveredView}
  {context : Json} {authorized : Finset String}

theorem validatedReport_eq :
    validatedReport content finishReason delivered context authorized =
      match parseReport content (finishWord finishReason) with
      | .error reason => .rejected reason
          (reportRetryFeedback reason none (citationScope delivered context authorized)
            (some content))
      | .ok report =>
        if (citationScope delivered context authorized).unsupportedCitations report then
          .rejected .reportInvalid (reportRetryFeedback .reportInvalid (some report)
            (citationScope delivered context authorized) none)
        else .accepted report := rfl

/-- **Acceptance is exact.** -/
theorem validatedReport_eq_accepted {report : ReportV2} :
    validatedReport content finishReason delivered context authorized = .accepted report ↔
      parseReport content (finishWord finishReason) = .ok report ∧
        ∀ claim ∈ report.claims, (citationScope delivered context authorized).Supported claim := by
  rw [validatedReport_eq]
  cases parseReport content (finishWord finishReason) with
  | error reason => simp
  | ok parsed =>
    simp only [Except.ok.injEq]
    generalize hscope : citationScope delivered context authorized = scope
    cases hunsupported : scope.unsupportedCitations parsed with
    | true =>
      simp only [if_true, reduceCtorEq, false_iff, not_and]
      rintro rfl hsupported
      rw [CitationScope.unsupportedCitations_eq_false.2 hsupported] at hunsupported
      cases hunsupported
    | false =>
      simp only [Bool.false_eq_true, if_false, ReportVerdict.accepted.injEq]
      refine ⟨?_, fun h => h.1⟩
      rintro rfl
      exact ⟨rfl, CitationScope.unsupportedCitations_eq_false.1 hunsupported⟩

/-- A refusal carries a code, and feedback from the fixed template. -/
theorem validatedReport_eq_rejected {reason : RejectCode} {feedback : String}
    (h : validatedReport content finishReason delivered context authorized =
      .rejected reason feedback) :
    ∃ detail, feedback = reportRetryTemplate reason.text detail := by
  rw [validatedReport_eq] at h
  split at h
  · cases h
    exact ⟨_, rfl⟩
  · split at h
    · cases h
      exact ⟨_, rfl⟩
    · cases h

omit [ReportTexts] in
theorem RejectCode.text_ne (reason : RejectCode) : reason.text ≠ "" := by
  cases reason <;> simp [RejectCode.text]

omit [ReportTexts] in
theorem append_ne_empty_of_right (text : String) {rest : String} (h : rest ≠ "") :
    text ++ rest ≠ "" := fun hempty => h (String.append_eq_empty_iff.1 hempty).2

omit [ReportTexts] in
theorem reportRetryTemplate_ne (reason detail : String) :
    reportRetryTemplate reason detail ≠ "" := by
  unfold reportRetryTemplate
  exact append_ne_empty_of_right _ (by simp)

end


/-! ## A target that is none -/

namespace Unmapped

/-- A library that reads no timestamp. -/
scoped instance : ReportTexts where
  decodeError _ := ""
  schemaErrors _ := []
  fromisoformat _ := none

/-- A context whose catalog has two refs that stand for no target. -/
def context : Json := .obj [
  ("target_catalog", .obj [("r", .obj []), ("s", .obj [])]),
  ("time_policies", .arr [.obj [("all_authorized_targets", .bool true), ("id", .str "w"),
    ("max_source_age_seconds", .num 60), ("mode", .str "current")]])]

/-- A view that names no target. -/
def view : Json := .obj [("adopted", .bool true), ("evidence_id", .str "e"),
  ("freshness_seconds", .num 5), ("status", .str "ok")]

/-- A reply with one fact about the ref `s`. -/
def reply : String :=
  "\x7b\"schema_version\":\"m0-report-v2\"," ++ ("\"assessment_status\":\"completed\"," ++
    ("\"conclusion\":\"partial\"," ++ ("\"summary\":\"no\",\"claims\":[\x7b\"kind\":\"fact\"," ++
    ("\"text\":\"s fails\",\"evidence_ids\":[\"e\"]," ++ ("\"target_refs\":[\"s\"]," ++
    "\"time_scope_ref\":\"w\"\x7d],\"gaps\":[],\"next_steps\":[]\x7d")))))

/-- The report in the reply. -/
def payload : Json := .obj [("schema_version", .str "m0-report-v2"),
  ("assessment_status", .str "completed"), ("conclusion", .str "partial"), ("summary", .str "no"),
  ("claims", .arr [.obj [("kind", .str "fact"), ("text", .str "s fails"),
    ("evidence_ids", .arr [.str "e"]), ("target_refs", .arr [.str "s"]),
    ("time_scope_ref", .str "w")]]), ("gaps", .arr []), ("next_steps", .arr [])]

theorem parseReport_reply :
    (parseReport reply "stop").toOption = ReportV2.modelValidate payload := by
  have htext : ∃ chars, reply.toList = chars ∧ chars.all isSpace = false ∧
      hasDsml chars = false ∧ Json.loadsChars uniqueObject chars = some payload := by
    unfold reply
    simp only [String.toList_append]
    exact ⟨_, rfl, by decide +kernel⟩
  obtain ⟨chars, hchars, hblank, hdsml, hloads⟩ := htext
  refine parseReport_of_loads ?_ (hchars ▸ hdsml) (Json.loads_eq .. ▸ hchars ▸ hloads)
  rw [blank, hchars, hblank]

/-- The view as the loop delivers it: one of both refs, under the only policy. -/
def delivered : DeliveredView where
  evidenceId := "e"
  targetIds := {"r", "s"}
  status := "ok"
  timeScopeRefs := {"w"}
  citableAsFact := true

end Unmapped

end OpsPilot
