import Mathlib.Data.Int.Notation
import Mathlib.Data.List.Count
import Mathlib.Data.List.Nodup
import Mathlib.Data.String.Basic
import OpsPilot.Foundations.FirstWrites
import OpsPilot.Foundations.Transaction

/-!
# Calibrating the judge

`calibrate` and `_validate_calibration` (`opspilot/evaluation/rounds.py`). A judge is run on items
that people have labelled, and a loop counts how often it agrees with the labels and how often it
passes an item that should fail. `aggregate` takes the result from elsewhere, so it first asks
whether the five counts could have come from that loop.

* `countVerdict_foldlM`: what the loop has counted after any list of verdicts.
* `Labels.count_labelled`: when every item is run `k` times, `k` verdicts fall on each.
* `exists_calibrate_eq`: labels and verdicts for counts that are possible.
* **`calibration_seam`**: what the loop returns is admitted, and a pass that is admitted is one the
  loop returns.
-/

namespace OpsPilot

/-! ## The counting loop -/

/-- The labels of a calibration pack: each item and whether it should pass. -/
structure Labels where
  entries : List (String × Bool)
  nodup : (entries.map Prod.fst).Nodup

/-- A value of a field, which Python does not check when the record is built. -/
inductive CalibrationField
  | bool (b : Bool) | int (n : ℤ) | other
  deriving DecidableEq

/-- `CalibrationResult`. -/
@[ext] structure CalibrationResult where
  passed : CalibrationField
  items : CalibrationField
  comparisons : CalibrationField
  agreement : CalibrationField
  negatives : CalibrationField
  falsePasses : CalibrationField
  reasons : List String
  judgeConfigHash : Option String
  calibrationPackHash : Option String
  deriving DecidableEq

/-- The keyword arguments of `calibrate`, with their defaults. -/
structure CalibrateOptions where
  minItems : ℤ := 24
  runsPerItem : ℕ := 2
  minAgreement : ℤ := 46
  minNegatives : ℤ := 12
  judgeConfigHash : Option String := none
  calibrationPackHash : Option String := none

/-- What the loop has counted: the runs of each item, and over all of them the verdicts that agree
and the ones that pass an item which should fail. -/
@[ext] structure VerdictCounts where
  runs : String → ℕ
  agreement : ℕ
  falsePasses : ℕ

/-- One turn of the loop; a `CalibrationError` is its text. -/
def countVerdict (labels : Labels) (counts : VerdictCounts) (verdict : String × Bool) :
    Except String VerdictCounts :=
  match labels.entries.lookup verdict.1 with
  | none => .error ("UNLABELLED_ITEM:" ++ verdict.1)
  | some label =>
    .ok
      { runs := Function.update counts.runs verdict.1 (counts.runs verdict.1 + 1)
        agreement := counts.agreement + (verdict.2 == label).toNat
        falsePasses := counts.falsePasses + (!label && verdict.2).toNat }

/-- What `calibrate` returns of its counts. -/
def CalibrateOptions.result (options : CalibrateOptions)
    (items agreement negatives falsePasses : ℕ) : CalibrationResult :=
  let reasons :=
    (if items < options.minItems then ["TOO_FEW_ITEMS"] else []) ++
    (if agreement < options.minAgreement then ["AGREEMENT_BELOW_THRESHOLD"] else []) ++
    (if negatives < options.minNegatives then ["TOO_FEW_NEGATIVES"] else []) ++
    (if falsePasses ≠ 0 then ["FALSE_PASS"] else [])
  { passed := .bool reasons.isEmpty
    items := .int items
    comparisons := .int (items * options.runsPerItem : ℕ)
    agreement := .int agreement
    negatives := .int negatives
    falsePasses := .int falsePasses
    reasons
    judgeConfigHash := options.judgeConfigHash
    calibrationPackHash := options.calibrationPackHash }

/-- `calibrate`. -/
def calibrate (labels : Labels) (verdicts : List (String × Bool)) (options : CalibrateOptions) :
    Except String CalibrationResult := do
  let counts ← verdicts.foldlM (countVerdict labels) ⟨fun _ => 0, 0, 0⟩
  let short := ((labels.entries.map Prod.fst).filter fun item =>
    counts.runs item != options.runsPerItem).mergeSort
  refuse (short ≠ []) ("WRONG_RUN_COUNT:" ++ ",".intercalate short)
  pure (options.result labels.entries.length counts.agreement
    (labels.entries.countP fun entry => !entry.2) counts.falsePasses)

namespace Labels

variable (labels : Labels)

/-- The verdict is on an item with this label. -/
def Labelled (label : Bool) (verdict : String × Bool) : Bool :=
  labels.entries.lookup verdict.1 == some label

/-- The verdict is the label of its item. -/
def agrees (verdict : String × Bool) : Bool := labels.Labelled verdict.2 verdict

/-- The verdict passes an item that should fail. -/
def falsePass (verdict : String × Bool) : Bool := verdict.2 && labels.Labelled false verdict

variable {labels}

/-- **What the loop has counted**, from any counts on. -/
theorem countVerdict_foldlM {verdicts : List (String × Bool)} {before after : VerdictCounts} :
    verdicts.foldlM (countVerdict labels) before = .ok after ↔
      (∀ verdict ∈ verdicts, labels.entries.lookup verdict.1 ≠ none) ∧
      after =
        { runs := fun item => before.runs item + (verdicts.map Prod.fst).count item
          agreement := before.agreement + verdicts.countP labels.agrees
          falsePasses := before.falsePasses + verdicts.countP labels.falsePass } := by
  induction verdicts generalizing before with
  | nil =>
    show Except.ok before = Except.ok after ↔ _
    rw [Except.ok.injEq, eq_comm]
    simp only [List.not_mem_nil, false_imp_iff, implies_true, true_and]
    rfl
  | cons verdict verdicts ih =>
    rw [List.foldlM_cons, bind_eq_ok]
    cases hlookup : labels.entries.lookup verdict.1 with
    | none =>
      simp only [countVerdict, hlookup, reduceCtorEq, false_and, exists_false, false_iff, not_and]
      exact fun hall => absurd hlookup (hall verdict List.mem_cons_self)
    | some label =>
      simp only [countVerdict, hlookup, Except.ok.injEq, exists_eq_left', ih, List.mem_cons,
        forall_eq_or_imp, ne_eq, reduceCtorEq, not_false_eq_true, true_and]
      refine and_congr_right fun _ => Eq.congr_right ?_
      ext item
      · by_cases hitem : item = verdict.1
        · subst hitem
          simp
          omega
        · simp [hitem, Ne.symm hitem]
      · simp only [List.countP_cons, agrees, Labelled, hlookup]
        cases verdict.2 <;> cases label <;> simp <;> omega
      · simp only [List.countP_cons, falsePass, Labelled, hlookup]
        cases verdict.2 <;> cases label <;> simp
        omega

end Labels

/-- What falls on any of some keys, when `k` items fall on each. -/
theorem countP_mem_of_count_eq {k : ℕ} {keys items : List String} (hnodup : keys.Nodup)
    (hcount : ∀ key ∈ keys, items.count key = k) :
    items.countP (fun item => decide (item ∈ keys)) = k * keys.length := by
  induction keys with
  | nil => simp
  | cons key keys ih =>
    obtain ⟨hkey, hnodup⟩ := List.nodup_cons.1 hnodup
    obtain ⟨hhead, htail⟩ := List.forall_mem_cons.1 hcount
    have hsplit : items.countP (fun item => decide (item ∈ key :: keys)) =
        items.count key + items.countP fun item => decide (item ∈ keys) := by
      clear hhead htail ih hcount
      induction items with
      | nil => rfl
      | cons item items ih =>
        rw [List.countP_cons, List.countP_cons, List.count_cons, ih]
        by_cases hitem : item = key
        · subst hitem
          simp [hkey]
          omega
        · simp [hitem]
          omega
    rw [hsplit, hhead, ih hnodup htail, List.length_cons, Nat.mul_succ, Nat.add_comm]

section

variable {labels : Labels} {verdicts : List (String × Bool)}

/-- **When every item is run `k` times, `k` verdicts fall on each item with a label.** -/
theorem Labels.count_labelled {k : ℕ}
    (hruns : ∀ item ∈ labels.entries.map Prod.fst, (verdicts.map Prod.fst).count item = k)
    (label : Bool) :
    verdicts.countP (labels.Labelled label) =
      k * labels.entries.countP fun entry => entry.2 == label := by
  have hkeys : ((labels.entries.filter fun entry => entry.2 == label).map Prod.fst).Sublist
      (labels.entries.map Prod.fst) := List.filter_sublist.map _
  have hmem := countP_mem_of_count_eq (labels.nodup.sublist hkeys)
    fun item hitem => hruns item (hkeys.subset hitem)
  rw [List.length_map, ← List.countP_eq_length_filter, List.countP_map] at hmem
  rw [← hmem]
  refine List.countP_congr fun verdict _ => ?_
  simp [Labels.Labelled, lookup_eq_some_iff_mem labels.nodup]

/-- **What `calibrate` returns.** -/
theorem calibrate_eq_ok {options : CalibrateOptions} {result : CalibrationResult} :
    calibrate labels verdicts options = .ok result ↔
      (∀ verdict ∈ verdicts, labels.entries.lookup verdict.1 ≠ none) ∧
      (∀ item ∈ labels.entries.map Prod.fst,
        (verdicts.map Prod.fst).count item = options.runsPerItem) ∧
      result = options.result labels.entries.length (verdicts.countP labels.agrees)
        (labels.entries.countP fun entry => !entry.2) (verdicts.countP labels.falsePass) := by
  have hshort : ∀ runs : String → ℕ,
      ¬ ((labels.entries.map Prod.fst).filter fun item =>
        runs item != options.runsPerItem).mergeSort ≠ [] ↔
      ∀ item ∈ labels.entries.map Prod.fst, runs item = options.runsPerItem := by
    intro runs
    rw [not_not, ← List.length_eq_zero_iff, List.length_mergeSort, List.length_eq_zero_iff,
      List.filter_eq_nil_iff]
    simp
  constructor
  · intro h
    obtain ⟨counts, hcounts, h⟩ := bind_eq_ok.1 h
    obtain ⟨hall, rfl⟩ := Labels.countVerdict_foldlM.1 hcounts
    obtain ⟨hruns, hresult⟩ := refuse_bind_eq_ok.1 h
    simp only [Nat.zero_add] at hruns hresult
    exact ⟨hall, (hshort _).1 hruns, (pure_eq_ok.1 hresult).symm⟩
  · rintro ⟨hall, hruns, rfl⟩
    refine bind_eq_ok.2 ⟨_, Labels.countVerdict_foldlM.2 ⟨hall, rfl⟩, ?_⟩
    simp only [Nat.zero_add]
    exact refuse_bind_eq_ok.2 ⟨(hshort _).2 hruns, rfl⟩

/-- Each verdict on a labelled item agrees, passes an item that should fail, or fails one that
should pass. -/
theorem Labels.counts_bound (hall : ∀ verdict ∈ verdicts, labels.entries.lookup verdict.1 ≠ none) :
    verdicts.length =
        verdicts.countP (labels.Labelled true) + verdicts.countP (labels.Labelled false) ∧
      verdicts.countP labels.falsePass ≤ verdicts.countP (labels.Labelled false) ∧
      verdicts.countP labels.agrees + verdicts.countP labels.falsePass ≤ verdicts.length ∧
      verdicts.length ≤ verdicts.countP labels.agrees + verdicts.countP labels.falsePass +
        verdicts.countP (labels.Labelled true) := by
  induction verdicts with
  | nil => simp
  | cons verdict verdicts ih =>
    obtain ⟨hhead, htail⟩ := List.forall_mem_cons.1 hall
    obtain ⟨hlength, hfalse, hle, hge⟩ := ih htail
    obtain ⟨label, hlabel⟩ := Option.ne_none_iff_exists'.1 hhead
    simp only [List.countP_cons, List.length_cons, Labels.agrees, Labels.falsePass,
      Labels.Labelled, hlabel] at hlength hfalse hle hge ⊢
    cases verdict.2 <;> cases label <;> simp <;> omega

end

/-! ## The check at the seam -/

/-- The five counts of a result, when each is an `int` and none is negative. -/
def CalibrationResult.counts? (calibration : CalibrationResult) : Option (ℕ × ℕ × ℕ × ℕ × ℕ) :=
  match calibration.items, calibration.comparisons, calibration.agreement, calibration.negatives,
    calibration.falsePasses with
  | .int (.ofNat items), .int (.ofNat comparisons), .int (.ofNat agreement),
    .int (.ofNat negatives), .int (.ofNat falsePasses) =>
    some (items, comparisons, agreement, negatives, falsePasses)
  | _, _, _, _, _ => none

/-- The reasons `_validate_calibration` reads off the counts. -/
def countedReasons (items agreement negatives falsePasses : ℕ) : List String :=
  [(decide (items < 24), "TOO_FEW_ITEMS"), (decide (agreement < 46), "AGREEMENT_BELOW_THRESHOLD"),
    (decide (negatives < 12), "TOO_FEW_NEGATIVES"),
    (decide (falsePasses ≠ 0), "FALSE_PASS")].filterMap fun entry =>
      if entry.1 then some entry.2 else none

/-- `_validate_calibration`; an `AggregateError` is its text. -/
def validateCalibration (calibration : CalibrationResult) : Except String Unit :=
  match calibration.counts? with
  | none => .error "CALIBRATION_INCONSISTENT"
  | some (items, comparisons, agreement, negatives, falsePasses) => do
    refuse (comparisons ≠ items * 2 ∨ agreement > comparisons ∨ negatives > items ∨
      falsePasses > 2 * negatives) "CALIBRATION_INCONSISTENT"
    let disagreements : ℤ := comparisons - agreement
    refuse (calibration.passed = .bool true ∧ (falsePasses > disagreements ∨
      disagreements - falsePasses > 2 * (items - negatives))) "CALIBRATION_INCONSISTENT"
    let reasons := countedReasons items agreement negatives falsePasses
    refuse (calibration.passed ≠ .bool reasons.isEmpty ∨ calibration.reasons ≠ reasons)
      "CALIBRATION_INCONSISTENT"

section

variable {calibration : CalibrationResult}

/-- What a result must be to be admitted. -/
structure CalibrationResult.Admitted (calibration : CalibrationResult)
    (items agreement negatives falsePasses : ℕ) : Prop where
  items_eq : calibration.items = .int items
  comparisons_eq : calibration.comparisons = .int (items * 2 : ℕ)
  agreement_eq : calibration.agreement = .int agreement
  negatives_eq : calibration.negatives = .int negatives
  falsePasses_eq : calibration.falsePasses = .int falsePasses
  agreement_le : agreement ≤ items * 2
  negatives_le : negatives ≤ items
  falsePasses_le : falsePasses ≤ 2 * negatives
  possible : calibration.passed = .bool true →
    falsePasses + agreement ≤ items * 2 ∧
      items * 2 + 2 * negatives ≤ agreement + falsePasses + 2 * items
  reasons_eq : calibration.reasons = countedReasons items agreement negatives falsePasses
  passed_eq : calibration.passed =
    .bool (countedReasons items agreement negatives falsePasses).isEmpty

theorem CalibrationResult.counts?_eq_some {items comparisons agreement negatives falsePasses : ℕ} :
    calibration.counts? = some (items, comparisons, agreement, negatives, falsePasses) ↔
      calibration.items = .int items ∧ calibration.comparisons = .int comparisons ∧
      calibration.agreement = .int agreement ∧ calibration.negatives = .int negatives ∧
      calibration.falsePasses = .int falsePasses := by
  constructor
  · intro h
    unfold CalibrationResult.counts? at h
    split at h
    · next h₁ h₂ h₃ h₄ h₅ =>
      obtain ⟨rfl, rfl, rfl, rfl, rfl⟩ : _ ∧ _ ∧ _ ∧ _ ∧ _ := by simpa using h
      exact ⟨h₁, h₂, h₃, h₄, h₅⟩
    · cases h
  · rintro ⟨h₁, h₂, h₃, h₄, h₅⟩
    rw [CalibrationResult.counts?, h₁, h₂, h₃, h₄, h₅]

/-- **What the check admits.** -/
theorem validateCalibration_eq_ok :
    validateCalibration calibration = .ok () ↔ ∃ items agreement negatives falsePasses,
      calibration.Admitted items agreement negatives falsePasses := by
  constructor
  · intro h
    unfold validateCalibration at h
    split at h
    · cases h
    · next items comparisons agreement negatives falsePasses hcounts =>
      obtain ⟨h₁, h₂, h₃, h₄, h₅⟩ := CalibrationResult.counts?_eq_some.1 hcounts
      obtain ⟨hbounds, hrest⟩ := refuse_bind_eq_ok.1 h
      obtain ⟨hpossible, hlast⟩ := refuse_bind_eq_ok.1 hrest
      simp only [not_or, not_lt, ne_eq, not_not] at hbounds
      obtain ⟨rfl, hbounds⟩ := hbounds
      have hreasons := refuse_eq_ok.1 hlast
      simp only [not_or, ne_eq, not_not] at hreasons
      refine ⟨items, agreement, negatives, falsePasses, ⟨h₁, h₂, h₃, h₄, h₅, hbounds.1, hbounds.2.1,
        hbounds.2.2, fun hpassed => ?_, hreasons.2, hreasons.1⟩⟩
      have := not_or.1 (not_and.1 hpossible hpassed)
      push_cast at this
      omega
  · rintro ⟨items, agreement, negatives, falsePasses, h⟩
    have hcounts := CalibrationResult.counts?_eq_some.2
      ⟨h.items_eq, h.comparisons_eq, h.agreement_eq, h.negatives_eq, h.falsePasses_eq⟩
    rw [validateCalibration, hcounts]
    have hbounds := h.agreement_le
    have hnegatives := h.negatives_le
    have hfalse := h.falsePasses_le
    refine refuse_bind_eq_ok.2 ⟨by omega, refuse_bind_eq_ok.2 ⟨?_, refuse_eq_ok.2 ?_⟩⟩
    · rintro ⟨hpassed, hnot⟩
      have := h.possible hpassed
      push_cast at hnot
      omega
    · rw [not_or, not_not, not_not]
      exact ⟨h.passed_eq, h.reasons_eq⟩

end

/-! ## The loop and the seam -/

section

variable {labels : Labels} {verdicts : List (String × Bool)}

/-- The reasons of both places are the same. -/
theorem CalibrateOptions.result_reasons (judge pack : Option String)
    (items agreement negatives falsePasses : ℕ) :
    (({ judgeConfigHash := judge, calibrationPackHash := pack } : CalibrateOptions).result
      items agreement negatives falsePasses).reasons =
      countedReasons items agreement negatives falsePasses := by
  have hitems : ((items : ℤ) < 24) = (items < 24) := by rw [eq_iff_iff]; omega
  have hagreement : ((agreement : ℤ) < 46) = (agreement < 46) := by rw [eq_iff_iff]; omega
  have hnegatives : ((negatives : ℤ) < 12) = (negatives < 12) := by rw [eq_iff_iff]; omega
  simp only [CalibrateOptions.result, countedReasons, hitems, hagreement, hnegatives,
    List.filterMap_cons, List.filterMap_nil, decide_eq_true_eq]
  by_cases h₁ : items < 24 <;> by_cases h₂ : agreement < 46 <;> by_cases h₃ : negatives < 12 <;>
    by_cases h₄ : falsePasses = 0 <;> simp [h₁, h₂, h₃, h₄]

/-- **What the loop returns is admitted.** -/
theorem calibrate_admitted {judge pack : Option String} {result : CalibrationResult}
    (h : calibrate labels verdicts { judgeConfigHash := judge, calibrationPackHash := pack } =
      .ok result) :
    validateCalibration result = .ok () := by
  obtain ⟨hall, hruns, rfl⟩ := calibrate_eq_ok.1 h
  have htrue := Labels.count_labelled (k := 2) hruns true
  have hfalse := Labels.count_labelled (k := 2) hruns false
  obtain ⟨hlength, hfp, hle, hge⟩ := Labels.counts_bound hall
  have hentries : labels.entries.length =
      (labels.entries.countP fun entry => entry.2 == true) +
        labels.entries.countP fun entry => entry.2 == false := by
    rw [List.length_eq_countP_add_countP fun entry : String × Bool => entry.2 == true]
    congr 1
    exact List.countP_congr fun entry _ => by cases entry.2 <;> simp
  have hnegatives : (labels.entries.countP fun entry => !entry.2) =
      labels.entries.countP fun entry => entry.2 == false :=
    List.countP_congr fun entry _ => by simp
  have hreasons := CalibrateOptions.result_reasons judge pack labels.entries.length
    (verdicts.countP labels.agrees) (labels.entries.countP fun entry => !entry.2)
    (verdicts.countP labels.falsePass)
  refine validateCalibration_eq_ok.2 ⟨_, _, _, _, ⟨rfl, rfl, rfl, rfl, rfl, ?_, ?_, ?_, ?_,
    hreasons, ?_⟩⟩
  · omega
  · omega
  · omega
  · intro _
    omega
  · rw [← hreasons]
    rfl

end

/-! ### Labels and verdicts for given counts -/

/-- The name of an item. -/
def itemName (i : ℕ) : String := String.ofList (List.replicate i 'a')

theorem itemName_injective : Function.Injective itemName := by
  intro i j h
  simpa using congrArg List.length (String.ofList_injective h)

/-- `n` items, of which the first `negatives` should fail. -/
def packLabels (n negatives : ℕ) : Labels where
  entries := (List.range n).map fun i => (itemName i, decide (negatives ≤ i))
  nodup := by
    rw [List.map_map]
    exact List.nodup_range.map itemName_injective

/-- One run over the items that fails the ones before `bound`. -/
def packRun (n bound : ℕ) : List (String × Bool) :=
  (List.range n).map fun i => (itemName i, decide (bound ≤ i))

section

variable {n negatives bound i : ℕ}

theorem packLabels_lookup (hi : i < n) :
    (packLabels n negatives).entries.lookup (itemName i) = some (decide (negatives ≤ i)) :=
  (lookup_eq_some_iff_mem (packLabels n negatives).nodup).2
    (List.mem_map.2 ⟨i, List.mem_range.2 hi, rfl⟩)

theorem packRun_labelled :
    ∀ verdict ∈ packRun n bound, (packLabels n negatives).entries.lookup verdict.1 ≠ none := by
  intro verdict hverdict
  obtain ⟨i, hi, rfl⟩ := List.mem_map.1 hverdict
  rw [packLabels_lookup (List.mem_range.1 hi)]
  exact Option.some_ne_none _

theorem packRun_count {item : String}
    (hitem : item ∈ (packLabels n negatives).entries.map Prod.fst) :
    ((packRun n bound).map Prod.fst).count item = 1 := by
  have hkeys : (packRun n bound).map Prod.fst =
      (packLabels n negatives).entries.map Prod.fst := by
    simp [packRun, packLabels]
  rw [hkeys]
  exact List.count_eq_one_of_mem (packLabels n negatives).nodup hitem

theorem countP_range_beq (negatives bound n : ℕ) (h : negatives ≤ bound) :
    (List.range n).countP (fun i => decide (bound ≤ i) == decide (negatives ≤ i)) =
      min n negatives + (n - bound) := by
  induction n with
  | zero => simp
  | succ n ih =>
    rw [List.range_succ, List.countP_append, ih, List.countP_singleton]
    by_cases hbound : bound ≤ n
    · simp [hbound, h.trans hbound]
      omega
    · by_cases hnegatives : negatives ≤ n
      · simp [hbound, hnegatives]
        omega
      · simp [hbound, hnegatives]
        omega

/-- The run disagrees on the items from `negatives` to `bound`. -/
theorem packRun_agrees (h : negatives ≤ bound) (hn : bound ≤ n) :
    (packRun n bound).countP (packLabels n negatives).agrees = negatives + (n - bound) := by
  have hcount := countP_range_beq negatives bound n h
  rw [Nat.min_eq_right (h.trans hn)] at hcount
  rw [packRun, List.countP_map, ← hcount]
  refine List.countP_congr fun i hi => ?_
  rw [Function.comp_apply, Labels.agrees, Labels.Labelled,
    packLabels_lookup (List.mem_range.1 hi), beq_iff_eq, beq_iff_eq, Option.some.injEq]
  exact eq_comm

theorem packRun_falsePass (h : negatives ≤ bound) :
    (packRun n bound).countP (packLabels n negatives).falsePass = 0 := by
  rw [packRun, List.countP_map, List.countP_eq_zero]
  intro i hi
  simp only [Function.comp_apply, Labels.falsePass, Labels.Labelled,
    packLabels_lookup (List.mem_range.1 hi), Bool.and_eq_true, decide_eq_true_eq, beq_iff_eq,
    Option.some.injEq, decide_eq_false_iff_not, not_and, not_not]
  exact fun hbound => h.trans hbound

theorem packLabels_negatives (h : negatives ≤ n) :
    ((packLabels n negatives).entries.countP fun entry => !entry.2) = negatives := by
  rw [packLabels, List.countP_map]
  have hcount : (List.range n).countP (fun i => decide (n ≤ i) == decide (negatives ≤ i)) =
      negatives := by
    rw [countP_range_beq _ _ _ h]
    omega
  refine Eq.trans (List.countP_congr fun i hi => ?_) hcount
  simp [Nat.not_le.2 (List.mem_range.1 hi)]

end

/-- **Labels and verdicts for counts that are possible**, without a false pass. -/
theorem exists_calibrate_eq {items agreement negatives : ℕ} (judge pack : Option String)
    (hnegatives : negatives ≤ items) (hagreement : agreement ≤ items * 2)
    (hpossible : 2 * negatives ≤ agreement) :
    ∃ labels verdicts,
      (∀ item ∈ labels.entries.map Prod.fst, (verdicts.map Prod.fst).count item = 2) ∧
      calibrate labels verdicts { judgeConfigHash := judge, calibrationPackHash := pack } =
        .ok (({ judgeConfigHash := judge, calibrationPackHash := pack } : CalibrateOptions).result
          items agreement negatives 0) := by
  -- the disagreements are on items that should pass, as many as there are in the first run
  obtain ⟨first, second, hfirst, hsecond, hsum⟩ : ∃ first second, first ≤ items - negatives ∧
      second ≤ items - negatives ∧ first + second = items * 2 - agreement :=
    ⟨min (items * 2 - agreement) (items - negatives),
      items * 2 - agreement - (items - negatives), by omega, by omega, by omega⟩
  have hruns : ∀ item ∈ (packLabels items negatives).entries.map Prod.fst,
      ((packRun items (negatives + first) ++ packRun items (negatives + second)).map
        Prod.fst).count item = 2 := by
    intro item hitem
    rw [List.map_append, List.count_append, packRun_count hitem, packRun_count hitem]
  refine ⟨packLabels items negatives,
    packRun items (negatives + first) ++ packRun items (negatives + second), hruns,
    calibrate_eq_ok.2 ⟨?_, hruns, ?_⟩⟩
  · intro verdict hverdict
    rcases List.mem_append.1 hverdict with h | h <;> exact packRun_labelled verdict h
  · rw [List.countP_append, List.countP_append, packRun_agrees (by omega) (by omega),
      packRun_agrees (by omega) (by omega), packRun_falsePass (by omega),
      packRun_falsePass (by omega), packLabels_negatives hnegatives]
    congr 1
    · simp [packLabels]
    · omega

/-- **The seam and the loop.** What `calibrate` returns with its default thresholds is admitted, and
a pass that is admitted is what `calibrate` returns of some labels and verdicts, two for each
item. -/
theorem calibration_seam :
    (∀ labels verdicts judge pack result,
      calibrate labels verdicts { judgeConfigHash := judge, calibrationPackHash := pack } =
        .ok result → validateCalibration result = .ok ()) ∧
    ∀ calibration : CalibrationResult, calibration.passed = .bool true →
      validateCalibration calibration = .ok () →
      ∃ labels verdicts,
        (∀ item ∈ labels.entries.map Prod.fst, (verdicts.map Prod.fst).count item = 2) ∧
        calibrate labels verdicts
          { judgeConfigHash := calibration.judgeConfigHash
            calibrationPackHash := calibration.calibrationPackHash } = .ok calibration := by
  refine ⟨fun labels verdicts judge pack result h => calibrate_admitted h, ?_⟩
  intro calibration hpassed hvalid
  obtain ⟨items, agreement, negatives, falsePasses, h⟩ := validateCalibration_eq_ok.1 hvalid
  have hreasons : countedReasons items agreement negatives falsePasses = [] := by
    have := h.passed_eq.symm.trans hpassed
    simpa using this
  have hzero : falsePasses = 0 := by
    by_contra hne
    have hmem : "FALSE_PASS" ∈ countedReasons items agreement negatives falsePasses := by
      simp [countedReasons, hne]
    rw [hreasons] at hmem
    exact absurd hmem List.not_mem_nil
  subst hzero
  have hpossible := h.possible hpassed
  obtain ⟨labels, verdicts, hruns, hresult⟩ := exists_calibrate_eq calibration.judgeConfigHash
    calibration.calibrationPackHash h.negatives_le h.agreement_le
    (show 2 * negatives ≤ agreement by omega)
  refine ⟨labels, verdicts, hruns, hresult.trans (congrArg Except.ok ?_)⟩
  have hcounted := CalibrateOptions.result_reasons calibration.judgeConfigHash
    calibration.calibrationPackHash items agreement negatives 0
  ext1
  · refine (congrArg (CalibrationField.bool ∘ List.isEmpty) hcounted).trans ?_
    exact h.passed_eq.symm
  · exact h.items_eq.symm
  · exact h.comparisons_eq.symm
  · exact h.agreement_eq.symm
  · exact h.negatives_eq.symm
  · exact h.falsePasses_eq.symm
  · exact hcounted.trans h.reasons_eq.symm
  · rfl
  · rfl

/-- A pass over 24 items, with the verdicts it has come from. -/
theorem calibration_seam_of_pass : ∃ labels verdicts,
    calibrate labels verdicts {} = .ok (({} : CalibrateOptions).result 24 46 12 0) ∧
    validateCalibration (({} : CalibrateOptions).result 24 46 12 0) = .ok () := by
  obtain ⟨labels, verdicts, -, h⟩ :=
    calibration_seam.2 (({} : CalibrateOptions).result 24 46 12 0) rfl rfl
  exact ⟨labels, verdicts, h, calibration_seam.1 labels verdicts none none _ h⟩

end OpsPilot
