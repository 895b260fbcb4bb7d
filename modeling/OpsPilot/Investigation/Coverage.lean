import Mathlib.Algebra.BigOperators.Group.Finset.Basic
import Mathlib.Data.Prod.Lex
import Mathlib.Data.String.Basic
import OpsPilot.Foundations.Grouping
import OpsPilot.Foundations.Traversal
import OpsPilot.Investigation.Context

/-!
# The coverage of a Run

`run_coverage` (`opspilot/investigation/coverage.py`) counts the tool results of a Run by the sources
that its input names: a result goes to the source that owns its tool, to the Run's own stored evidence,
or to the calls that were not executed again.

* `placeOf`: where a result is counted.
* `runCoverage`: the rows.
* **`runCoverage_counts`**: every result is counted once, every source has one row, and a row without
  a gap has a result that succeeded and none that failed.
* **`runCoverage_reordered`**: the order of steps and of results does not matter.
-/

namespace OpsPilot.Coverage

open LoopTexts

/-! ## Tallies -/

/-- `SourceCoverage.state`. -/
inductive SourceState
  | allOk | partialFailure | failed | noDataOnly | notQueried | notAuthorized | notIntegrated | internal
  deriving DecidableEq

/-- `SourceCoverage`. -/
structure SourceCoverage where
  name : String
  ok : ℕ
  noData : ℕ
  nonOk : ℕ
  reasons : List (String × ℕ)
  state : SourceState
  gap : Bool
  deriving DecidableEq

/-- `RunCoverage`. -/
structure RunCoverage where
  runId : Json
  sourcesRecorded : Bool
  sources : List SourceCoverage
  duplicatesSkipped : ℕ

/-- The `TypeError` of a value that cannot be iterated, or of a status that cannot be looked up in a
set. -/
inductive CoverageError
  | typeError
  deriving DecidableEq

/-- `DUPLICATE_REASON`. -/
def duplicateReason : String := "DUPLICATE_TOOL_CALL"

/-- `EVIDENCE_TOOL`. -/
def evidenceTool : String := "read_evidence"

/-- `INTERNAL_SOURCE`. -/
def internalSource : String := "opspilot-evidence"

/-- `UNKNOWN_SOURCE`. -/
def unknownSource : String := "unknown"

/-- `_Tally`. -/
structure Tally where
  ok : ℕ
  noData : ℕ
  nonOk : ℕ
  reasons : List (String × ℕ)

/-- A new tally. -/
def Tally.empty : Tally := ⟨0, 0, 0, []⟩

/-- `reasons[key] = reasons.get(key, 0) + 1`. -/
def reasonCounts : Grouping String String ℕ := ⟨id, fun _ => 0, fun count _ => count + 1⟩

section

variable [LoopTexts]

/-- What a result that is not well is counted under. -/
def reasonOf (result : Json) : String :=
  match result.get "reason" with
  | .str reason => reason
  | _ => str (result.get "status")

/-- `_Tally.add`. -/
def Tally.add (t : Tally) (result : Json) : Tally :=
  if result.get "status" = .str "ok" then { t with ok := t.ok + 1 }
  else if result.get "status" = .str "no_data" then { t with noData := t.noData + 1 }
  else
    { t with
      nonOk := t.nonOk + 1
      reasons := reasonCounts.add t.reasons (reasonOf result) }

end

/-- `_Tally.sorted_reasons`: the most frequent first, ties in the order of their names. -/
def Tally.sortedReasons (t : Tally) : List (String × ℕ) :=
  t.reasons.insertionSort fun a b => toLex (-(a.2 : ℤ), a.1) ≤ toLex (-(b.2 : ℤ), b.1)

/-! ## The snapshot -/

/-- The texts of a list. -/
def strings : Json → List String
  | .arr items => items.filterMap Json.text?
  | _ => []

/-- `{name: tools for …}`. -/
def toolsByName : Grouping (String × List String) String (List String) :=
  ⟨Prod.fst, fun _ => [], fun _ entry => entry.2⟩

/-- The sources a snapshot names: those with their tools, and those that cannot be queried. -/
structure DataSources where
  available : List (String × List String)
  notIntegrated : List String

/-- `_data_sources`. -/
def dataSources (snapshot : Json) : Option DataSources :=
  let sources := (snapshot.get "evidence_context").get "data_sources"
  match sources.get "available" with
  | .obj available => some
      { available := toolsByName.groups (available.filterMap fun entry =>
          entry.2.items?.map fun tools => (entry.1, tools.filterMap Json.text?))
        notIntegrated := strings (sources.get "not_integrated") }
  | _ => none

/-- `for item in value or []`: an object and a string give texts, which are skipped. -/
def iterate : Json → Except CoverageError (List Json)
  | .arr items => .ok items
  | .bool true => .error .typeError
  | .num q => if q = 0 then .ok [] else .error .typeError
  | _ => .ok []

/-- `_schema_tools`. -/
def schemaTools (snapshot : Json) : Except CoverageError (List String) := do
  let items ← iterate (snapshot.get "tool_schemas")
  .ok (items.filterMap fun item => ((item.get "function").get "name").text?)

/-- The tools offered to a Run whose sources are recorded. -/
def authorizedTools (snapshot : Json) : Except CoverageError (List String) :=
  if (dataSources snapshot).isSome then schemaTools snapshot else .ok []

/-- `owner.get(tool, tool)`: the first source that lists the tool. -/
def ownerOf (recorded : Option DataSources) (tool : String) : String :=
  match recorded.bind fun sources => sources.available.find? fun source => tool ∈ source.2 with
  | some source => source.1
  | none => tool

/-! ## Results -/

/-- Where a result is counted. -/
inductive Place
  | duplicate
  | internal
  | source (name : String)
  deriving DecidableEq

/-- `_planned_names`. -/
def plannedNames (response : Json) : List (Option String) :=
  match (response.get "assistant").get "tool_calls" with
  | .arr calls => calls.map fun call => ((call.get "function").get "name").text?
  | _ => []

/-- The index of a value that is an `int`. -/
def index? : Json → Option ℕ
  | .bool b => some b.toNat
  | .num q => if q.isInt ∧ 0 ≤ q then some q.num.toNat else none
  | _ => none

/-- A result as it stands in its step: the names of the plan, the item and the result in it. -/
structure StepResult where
  planned : List (Option String)
  item : Json
  result : Json

/-- The tool of a result: its own, the one of its call in the plan, or none that is known. -/
def StepResult.tool (r : StepResult) : String :=
  match r.result.get "tool" with
  | .str tool => tool
  | _ =>
    match (index? (r.item.get "ordinal")).bind fun ordinal => r.planned[ordinal]?.join with
    | some tool => if tool = "" then unknownSource else tool
    | none => unknownSource

/-- The tool results of a step that are well formed. -/
def stepResults (step : Json) : Except CoverageError (List StepResult) := do
  let items ← iterate (step.get "tool_results")
  .ok ((items.filter fun item => (item.get "result").isObject).map fun item =>
    ⟨plannedNames (step.get "response"), item, item.get "result"⟩)

/-- Where a result is counted: a slice of stored evidence is its parent's observation. -/
def placeOf (recorded : Option DataSources) (r : StepResult) : Except CoverageError Place :=
  if r.result.get "reason" = .str duplicateReason then .ok .duplicate
  else if r.tool = evidenceTool then do
    let status := r.result.get "status"
    refuse (status.isObject ∨ status.items?.isSome) .typeError
    match r.result.get "parent_tool" with
    | .str parent =>
      .ok (if status = .str "ok" ∨ status = .str "no_data" then .source (ownerOf recorded parent)
        else .internal)
    | _ => .ok .internal
  else .ok (.source (ownerOf recorded r.tool))

/-- A result with its place. -/
abbrev Placed := Place × Json

/-- `_live`. -/
def live (steps : List Json) : List Json :=
  steps.filter fun step => step.get "status" ≠ .str "late_result"

/-- The results of the steps that count, each with its place. -/
def placements (recorded : Option DataSources) (steps : List Json) :
    Except CoverageError (List Placed) := do
  let results ← (live steps).mapM stepResults
  results.flatten.mapM fun r => do
    let place ← placeOf recorded r
    .ok (place, r.result)

/-! ## Rows -/

/-- `_state`. -/
def stateOf (t : Tally) : SourceState :=
  if t.nonOk ≠ 0 then if t.ok ≠ 0 then .partialFailure else .failed
  else if t.ok ≠ 0 then .allOk
  else if t.noData ≠ 0 then .noDataOnly
  else .notQueried

/-- `_row`. -/
def rowOf (name : String) (t : Tally) (state : Option SourceState) : SourceCoverage :=
  let state := state.getD (stateOf t)
  { name := name
    ok := t.ok
    noData := t.noData
    nonOk := t.nonOk
    reasons := t.sortedReasons
    state := state
    gap := state ≠ .allOk ∧ state ≠ .internal }

/-- The sources of a snapshot in the order of their rows, each with the state it has in any case. -/
def listedSources (sources : DataSources) (authorized : List String) :
    List (String × Option SourceState) :=
  (sources.available.map fun source =>
    (source.1, if source.2.any (· ∈ authorized) then none else some .notAuthorized)) ++
  (sources.notIntegrated.filter (· ∉ sources.available.map Prod.fst)).map (·, some .notIntegrated)

/-- The rows of the listed sources, and the tallies that are left. -/
def popRows : List (String × Option SourceState) → List (String × Tally) →
    List SourceCoverage × List (String × Tally)
  | [], tallies => ([], tallies)
  | (name, state) :: listed, tallies =>
    let (rows, rest) := popRows listed (tallies.filter fun entry => entry.1 ≠ name)
    (rowOf name ((tallies.lookup name).getD .empty) state :: rows, rest)

section

variable [LoopTexts]

/-- `tally(name).add(result)`. -/
def talliesByName : Grouping (String × Json) String Tally :=
  ⟨Prod.fst, fun _ => .empty, fun t entry => t.add entry.2⟩

/-- The results of the data sources, each with the name of its source. -/
def ofSources (placed : List Placed) : List (String × Json) :=
  placed.filterMap fun entry => match entry.1 with
    | .source name => some (name, entry.2)
    | _ => none

/-- The tally of some results. -/
def tallyOf (results : List Json) : Tally := results.foldl Tally.add .empty

/-- The results of a place. -/
def resultsAt (place : Place) (placed : List Placed) : List Json :=
  (placed.filter fun entry => entry.1 = place).map Prod.snd

/-- The rows of `run_coverage`. -/
def coverageRows (listed : List (String × Option SourceState)) (placed : List Placed) :
    List SourceCoverage :=
  let (rows, tallies) := popRows listed (talliesByName.groups (ofSources placed))
  let rest := tallies.filter fun entry => entry.1 ≠ unknownSource
  let internal := tallyOf (resultsAt .internal placed)
  rows ++ ((rest.map Prod.fst).insertionSort (· ≤ ·)).map (fun name =>
      rowOf name ((rest.lookup name).getD .empty) none) ++
    ((tallies.lookup unknownSource).map fun t => rowOf unknownSource t none).toList ++
    if internal.ok ≠ 0 ∨ internal.noData ≠ 0 ∨ internal.nonOk ≠ 0 then
      [rowOf internalSource internal (some .internal)]
    else []

/-- `run_coverage`. -/
def runCoverage (runId snapshot : Json) (steps : List Json) : Except CoverageError RunCoverage := do
  let recorded := dataSources snapshot
  let placed ← placements recorded steps
  let authorized ← authorizedTools snapshot
  .ok
    { runId := runId
      sourcesRecorded := recorded.isSome
      sources := coverageRows ((recorded.map (listedSources · authorized)).getD []) placed
      duplicatesSkipped := (resultsAt .duplicate placed).length }

end

/-! ## What a tally says -/

variable {t : Tally}

section

variable [LoopTexts]

/-- A result that is neither `ok` nor `no_data`. -/
def isNonOk (result : Json) : Bool :=
  result.get "status" ≠ .str "ok" ∧ result.get "status" ≠ .str "no_data"

/-- A tally counts its results. -/
theorem tallyOf_eq (results : List Json) : tallyOf results =
    { ok := results.countP fun result => result.get "status" = .str "ok"
      noData := results.countP fun result => result.get "status" = .str "no_data"
      nonOk := results.countP isNonOk
      reasons := reasonCounts.groups ((results.filter isNonOk).map reasonOf) } := by
  induction results using List.reverseRecOn with
  | nil => rfl
  | append_singleton results result ih =>
    rw [tallyOf, List.foldl_append, ← tallyOf, ih, List.foldl_cons, List.foldl_nil, Tally.add]
    by_cases hok : result.get "status" = .str "ok"
    · simp [hok, isNonOk]
    · by_cases hnoData : result.get "status" = .str "no_data"
      · simp [hnoData, isNonOk]
      · have hnonOk : isNonOk result = true := by simp [isNonOk, hok, hnoData]
        simp [hok, hnoData, hnonOk, Grouping.groups_concat]

/-- How many results a tally has counted. -/
def Tally.total (t : Tally) : ℕ := t.ok + t.noData + t.nonOk

theorem total_tallyOf (results : List Json) : (tallyOf results).total = results.length := by
  induction results using List.reverseRecOn with
  | nil => rfl
  | append_singleton results result ih =>
    rw [tallyOf, List.foldl_append, ← tallyOf, List.foldl_cons, List.foldl_nil, Tally.add,
      List.length_append, ← ih, List.length_singleton]
    split
    · simp only [Tally.total]
      omega
    · split
      · simp only [Tally.total]
        omega
      · simp only [Tally.total]
        omega

omit [LoopTexts] in
/-- Reasons in another order are counted the same. -/
theorem reasonCounts_perm {reasons reasons' : List String} (h : reasons.Perm reasons') :
    (reasonCounts.groups reasons).Perm (reasonCounts.groups reasons') := by
  have hcount : ∀ keys : List String, keys.foldl reasonCounts.push 0 = keys.length := by
    intro keys
    induction keys using List.reverseRecOn with
    | nil => rfl
    | append_singleton keys key ih =>
      rw [List.foldl_append, ih, List.length_append]
      rfl
  refine Grouping.groups_congr (fun k => (h.map _).mem_iff) fun k => ?_
  rw [show reasonCounts.new k = 0 from rfl, hcount, hcount]
  exact (h.filter _).length_eq

omit [LoopTexts] in
/-- Reasons are sorted the same in whatever order they came. -/
theorem sortedReasons_perm {t' : Tally} (h : t.reasons.Perm t'.reasons) :
    t.sortedReasons = t'.sortedReasons := by
  have hsorted : ∀ reasons : List (String × ℕ), (reasons.insertionSort fun a b =>
      toLex (-(a.2 : ℤ), a.1) ≤ toLex (-(b.2 : ℤ), b.1)).Pairwise fun a b =>
        toLex (-(a.2 : ℤ), a.1) ≤ toLex (-(b.2 : ℤ), b.1) :=
    fun reasons => List.pairwise_insertionSort _ reasons
  refine List.Perm.eq_of_pairwise (fun a b _ _ hab hba => ?_) (hsorted _) (hsorted _)
    (((List.perm_insertionSort _ _).trans h).trans (List.perm_insertionSort _ _).symm)
  have heq := congrArg ofLex (le_antisymm hab hba)
  obtain ⟨hcount, hname⟩ := Prod.mk.inj heq
  exact Prod.ext hname (by simpa using hcount)

theorem rowOf_perm (name : String) {results results' : List Json} (h : results.Perm results')
    (state : Option SourceState) :
    rowOf name (tallyOf results) state = rowOf name (tallyOf results') state := by
  have hreasons : (tallyOf results).sortedReasons = (tallyOf results').sortedReasons := by
    refine sortedReasons_perm ?_
    rw [tallyOf_eq, tallyOf_eq]
    exact reasonCounts_perm ((h.filter _).map _)
  have hok : (tallyOf results).ok = (tallyOf results').ok := by
    rw [tallyOf_eq, tallyOf_eq]
    exact h.countP_eq _
  have hnoData : (tallyOf results).noData = (tallyOf results').noData := by
    rw [tallyOf_eq, tallyOf_eq]
    exact h.countP_eq _
  have hnonOk : (tallyOf results).nonOk = (tallyOf results').nonOk := by
    rw [tallyOf_eq, tallyOf_eq]
    exact h.countP_eq _
  have hstate : stateOf (tallyOf results) = stateOf (tallyOf results') := by
    simp only [stateOf, hok, hnoData, hnonOk]
  rw [rowOf, rowOf, hok, hnoData, hnonOk, hreasons, hstate]

end

/-! ## The rows, name by name -/

/-- An entry of a part of a dictionary that is chosen by its keys. -/
theorem lookup_filter_key {α : Type} (p : String → Bool) (entries : List (String × α))
    (name : String) : (entries.filter fun entry => p entry.1).lookup name =
      if p name then entries.lookup name else none := by
  induction entries with
  | nil => simp
  | cons entry entries ih =>
    obtain ⟨key, value⟩ := entry
    by_cases hname : name = key
    · subst hname
      by_cases hp : p name = true
      · simp [hp]
      · simp [hp, ih]
    · have hskip : ∀ rest : List (String × α), ((key, value) :: rest).lookup name =
          rest.lookup name := fun rest => by rw [List.lookup_cons, beq_eq_false_iff_ne.2 hname]
      by_cases hp : p key = true
      · rw [List.filter_cons_of_pos (by exact hp), hskip, hskip, ih]
      · rw [List.filter_cons_of_neg (by exact hp), hskip, ih]

theorem popRows_eq {listed : List (String × Option SourceState)}
    (hnodup : (listed.map Prod.fst).Nodup) (tallies : List (String × Tally)) :
    popRows listed tallies =
      (listed.map fun entry => rowOf entry.1 ((tallies.lookup entry.1).getD .empty) entry.2,
        tallies.filter fun entry => entry.1 ∉ listed.map Prod.fst) := by
  induction listed generalizing tallies with
  | nil => simp [popRows]
  | cons head listed ih =>
    obtain ⟨hhead, hnodup⟩ := List.nodup_cons.1 hnodup
    rw [popRows, ih hnodup]
    refine Prod.ext ?_ ?_
    · refine congrArg (rowOf head.1 _ head.2 :: ·) (List.map_congr_left fun entry hentry => ?_)
      have hne : entry.1 ≠ head.1 := fun heq => hhead (heq ▸ List.mem_map_of_mem hentry)
      rw [lookup_filter_key (fun name => name ≠ head.1), if_pos (by simpa using hne)]
    · simp only [List.filter_filter]
      refine List.filter_congr fun entry _ => ?_
      rw [← Bool.decide_and, decide_eq_decide, List.map_cons, List.mem_cons, not_or]
      exact and_comm

section

variable [LoopTexts]

/-- The tally of a source. -/
def tallyAt (placed : List Placed) (name : String) : Tally := tallyOf (resultsAt (.source name) placed)

omit [LoopTexts] in
theorem filter_ofSources (placed : List Placed) (name : String) :
    ((ofSources placed).filter fun entry => entry.1 = name).map Prod.snd =
      resultsAt (.source name) placed := by
  induction placed with
  | nil => rfl
  | cons entry placed ih =>
    obtain ⟨place, result⟩ := entry
    cases place with
    | source name' =>
      by_cases hname : name' = name
      · simpa [ofSources, resultsAt, hname] using ih
      · simpa [ofSources, resultsAt, hname] using ih
    | _ => simpa [ofSources, resultsAt] using ih

/-- What the tallies hold of a source. -/
theorem lookup_tallies (placed : List Placed) (name : String) :
    ((talliesByName.groups (ofSources placed)).lookup name).getD .empty = tallyAt placed name := by
  rw [Grouping.lookup_groups, tallyAt, ← filter_ofSources, tallyOf, List.foldl_map]
  by_cases hname : name ∈ (ofSources placed).map talliesByName.key
  · rw [if_pos hname]
    rfl
  · have hnone : (ofSources placed).filter (fun entry => entry.1 = name) = [] := by
      rw [List.filter_eq_nil_iff]
      exact fun entry hentry heq => hname (List.mem_map.2 ⟨entry, hentry, of_decide_eq_true heq⟩)
    rw [if_neg hname, hnone]
    rfl

/-- The names of the rows after the listed ones, the unknown source last. -/
def restNames (listed : List (String × Option SourceState)) (placed : List Placed) : List String :=
  let keys := ((talliesByName.groups (ofSources placed)).map Prod.fst).filter (· ∉ listed.map Prod.fst)
  (keys.filter (· ≠ unknownSource)).insertionSort (· ≤ ·) ++ keys.filter (· = unknownSource)

/-- The row of the Run's own evidence. -/
def internalRows (placed : List Placed) : List SourceCoverage :=
  if resultsAt .internal placed = [] then []
  else [rowOf internalSource (tallyOf (resultsAt .internal placed)) (some .internal)]

/-- The last row, of the Run's own evidence. -/
theorem internalRows_eq (placed : List Placed) : internalRows placed =
    let internal := tallyOf (resultsAt .internal placed)
    if internal.ok ≠ 0 ∨ internal.noData ≠ 0 ∨ internal.nonOk ≠ 0 then
      [rowOf internalSource internal (some .internal)]
    else [] := by
  have htotal := total_tallyOf (resultsAt .internal placed)
  rw [Tally.total] at htotal
  rw [internalRows]
  by_cases hnil : resultsAt .internal placed = []
  · rw [if_pos hnil, hnil]
    rfl
  · have hlength : (resultsAt .internal placed).length ≠ 0 := fun h => hnil (List.length_eq_zero_iff.1 h)
    rw [if_neg hnil]
    refine (if_pos ?_).symm
    omega

/-- The rows that no snapshot lists. -/
theorem restRows_eq (listed : List String) (placed : List Placed) :
    let tallies := (talliesByName.groups (ofSources placed)).filter fun entry => entry.1 ∉ listed
    let rest := tallies.filter fun entry => entry.1 ≠ unknownSource
    ((rest.map Prod.fst).insertionSort (· ≤ ·)).map (fun name =>
        rowOf name ((rest.lookup name).getD .empty) none) =
      (((((talliesByName.groups (ofSources placed)).map Prod.fst).filter (· ∉ listed)).filter
        (· ≠ unknownSource)).insertionSort (· ≤ ·)).map
          fun name => rowOf name (tallyAt placed name) none := by
  intro tallies rest
  have hkeys : rest.map Prod.fst =
      (((talliesByName.groups (ofSources placed)).map Prod.fst).filter (· ∉ listed)).filter
        (· ≠ unknownSource) := by
    simp only [rest, tallies, List.filter_map]
    rfl
  rw [hkeys]
  refine List.map_congr_left fun name hname => ?_
  rw [List.mem_insertionSort, List.mem_filter, List.mem_filter] at hname
  obtain ⟨⟨-, hlisted⟩, hunknown⟩ := hname
  have hlookup : rest.lookup name = (talliesByName.groups (ofSources placed)).lookup name := by
    rw [lookup_filter_key (fun name => name ≠ unknownSource), if_pos hunknown,
      lookup_filter_key (fun name => name ∉ listed), if_pos hlisted]
  rw [hlookup, lookup_tallies]

/-- The row of the unknown source. -/
theorem unknownRow_eq (listed : List String) (placed : List Placed) :
    ((((talliesByName.groups (ofSources placed)).filter fun entry => entry.1 ∉ listed).lookup
      unknownSource).map fun t => rowOf unknownSource t none).toList =
      ((((talliesByName.groups (ofSources placed)).map Prod.fst).filter (· ∉ listed)).filter
        (· = unknownSource)).map fun name => rowOf name (tallyAt placed name) none := by
  have htally := lookup_tallies placed unknownSource
  have hnodup := Grouping.nodup_groups (G := talliesByName) (ofSources placed)
  rw [lookup_filter_key (fun name => name ∉ listed), List.filter_eq, List.map_replicate]
  by_cases hlisted : unknownSource ∈ listed
  · have hcount : ((((talliesByName.groups (ofSources placed)).map Prod.fst).filter
        (· ∉ listed)).count unknownSource) = 0 := by
      rw [List.count_eq_zero]
      exact fun h => by simpa [hlisted] using (List.mem_filter.1 h).2
    rw [if_neg (by simpa using hlisted), hcount]
    rfl
  · rw [if_pos (by simpa using hlisted)]
    have hmem := Grouping.lookup_groups (G := talliesByName) (ofSources placed) unknownSource
    by_cases hkey : unknownSource ∈ (ofSources placed).map talliesByName.key
    · have hcount : ((((talliesByName.groups (ofSources placed)).map Prod.fst).filter
          (· ∉ listed)).count unknownSource) = 1 := by
        refine List.count_eq_one_of_mem (hnodup.filter _) (List.mem_filter.2 ⟨?_, by simpa⟩)
        exact Grouping.mem_keys_groups.2 hkey
      rw [if_pos hkey] at hmem
      rw [hmem, Option.getD_some] at htally
      rw [hmem, hcount, htally]
      rfl
    · have hcount : ((((talliesByName.groups (ofSources placed)).map Prod.fst).filter
          (· ∉ listed)).count unknownSource) = 0 := by
        rw [List.count_eq_zero]
        exact fun h => hkey (Grouping.mem_keys_groups.1 (List.mem_filter.1 h).1)
      rw [if_neg hkey] at hmem
      rw [hmem, hcount]
      rfl

theorem coverageRows_eq {listed : List (String × Option SourceState)}
    (hnodup : (listed.map Prod.fst).Nodup) (placed : List Placed) : coverageRows listed placed =
      (listed.map fun entry => rowOf entry.1 (tallyAt placed entry.1) entry.2) ++
        ((restNames listed placed).map fun name => rowOf name (tallyAt placed name) none) ++
          internalRows placed := by
  rw [coverageRows, popRows_eq hnodup, internalRows_eq, restNames, List.map_append]
  simp only [lookup_tallies]
  rw [restRows_eq, unknownRow_eq]
  simp only [List.append_assoc]

/-! ## Names -/

variable {sources : DataSources} {placed placed' : List Placed} {state : Option SourceState}
  {authorized : List String}

omit [LoopTexts] in
theorem nodup_available {snapshot : Json} (h : dataSources snapshot = some sources) :
    (sources.available.map Prod.fst).Nodup := by
  rw [dataSources] at h
  split at h
  · obtain rfl := Option.some.inj h
    exact Grouping.nodup_groups _
  · cases h

omit [LoopTexts] in
theorem nodup_listedSources {snapshot : Json} (h : dataSources snapshot = some sources)
    (hnodup : sources.notIntegrated.Nodup) (authorized : List String) :
    ((listedSources sources authorized).map Prod.fst).Nodup := by
  rw [listedSources, List.map_append, List.map_map, List.map_map]
  refine List.nodup_append.2 ⟨nodup_available h, ?_, ?_⟩
  · exact (List.map_id _).symm ▸ hnodup.filter _
  · rintro name hname other hother rfl
    obtain ⟨missing, hmissing, rfl⟩ := List.mem_map.1 hother
    exact of_decide_eq_true (List.mem_filter.1 hmissing).2 hname

theorem mem_restNames {listed : List (String × Option SourceState)} {name : String} :
    name ∈ restNames listed placed ↔
      name ∈ (ofSources placed).map Prod.fst ∧ name ∉ listed.map Prod.fst := by
  have hkeys : name ∈ ((talliesByName.groups (ofSources placed)).map Prod.fst).filter
      (· ∉ listed.map Prod.fst) ↔
        name ∈ (ofSources placed).map Prod.fst ∧ name ∉ listed.map Prod.fst := by
    rw [List.mem_filter, Grouping.mem_keys_groups, decide_eq_true_eq]
    rfl
  rw [restNames, List.mem_append, List.mem_insertionSort]
  constructor
  · rintro (h | h)
    · exact hkeys.1 (List.mem_filter.1 h).1
    · exact hkeys.1 (List.mem_filter.1 h).1
  · intro h
    by_cases hunknown : name = unknownSource
    · exact .inr (List.mem_filter.2 ⟨hkeys.2 h, decide_eq_true hunknown⟩)
    · exact .inl (List.mem_filter.2 ⟨hkeys.2 h, decide_eq_true hunknown⟩)

theorem nodup_names {listed : List (String × Option SourceState)}
    (hnodup : (listed.map Prod.fst).Nodup) (placed : List Placed) :
    (listed.map Prod.fst ++ restNames listed placed).Nodup := by
  have hkeys := (Grouping.nodup_groups (G := talliesByName) (ofSources placed)).filter
    (· ∉ listed.map Prod.fst)
  refine List.nodup_append.2 ⟨hnodup, ?_, ?_⟩
  · refine List.nodup_append.2 ⟨?_, hkeys.filter _, ?_⟩
    · exact (List.perm_insertionSort _ _).nodup_iff.2 (hkeys.filter _)
    · rintro name hname other hother rfl
      rw [List.mem_insertionSort] at hname
      exact of_decide_eq_true (List.mem_filter.1 hname).2
        (of_decide_eq_true (List.mem_filter.1 hother).2)
  · rintro name hname other hother rfl
    exact (mem_restNames.1 hother).2 hname

/-! ## Counting -/

omit [LoopTexts] in
/-- Names that hold those of all results divide the results among them. -/
theorem sum_length_filter {names : List String} (hnodup : names.Nodup)
    {results : List (String × Json)} (h : ∀ name ∈ results.map Prod.fst, name ∈ names) :
    (names.map fun name => (results.filter fun entry => entry.1 = name).length).sum =
      results.length := by
  have hcount : ∀ name, (results.filter fun entry => entry.1 = name).length =
      (results.map Prod.fst).count name := by
    intro name
    rw [← List.countP_eq_length_filter, List.count, List.countP_map]
    refine List.countP_congr fun entry _ => ?_
    simp
  simp only [hcount]
  have hmem : ∀ name ∈ (results.map Prod.fst : Multiset String), name ∈ names.toFinset :=
    fun name hname => List.mem_toFinset.2 (h name hname)
  have hsum := Multiset.sum_count_eq_card hmem
  rw [List.sum_toFinset _ hnodup] at hsum
  simpa using hsum

omit [LoopTexts] in
theorem length_placed (placed : List Placed) : placed.length = (ofSources placed).length +
    (resultsAt .internal placed).length + (resultsAt .duplicate placed).length := by
  induction placed with
  | nil => rfl
  | cons entry placed ih =>
    obtain ⟨place, result⟩ := entry
    cases place with
    | _ =>
      simp only [ofSources, resultsAt, List.length_cons, List.length_map] at ih ⊢
      simp
      omega

/-- The results of a row. -/
def SourceCoverage.total (row : SourceCoverage) : ℕ := row.ok + row.noData + row.nonOk

/-- Where the results of a row are counted. -/
def SourceCoverage.place (row : SourceCoverage) : Place :=
  if row.state = .internal then .internal else .source row.name

omit [LoopTexts] in
theorem state_rowOf_ne {name : String} (h : state ≠ some .internal) :
    (rowOf name t state).state ≠ .internal := by
  cases state with
  | some state => exact fun heq => h (congrArg some heq)
  | none =>
    show stateOf t ≠ .internal
    rw [stateOf]
    split
    · split <;> decide
    · split
      · decide
      · split <;> decide

omit [LoopTexts] in
theorem listedSources_ne_internal {entry : String × Option SourceState}
    (h : entry ∈ listedSources sources authorized) :
    entry.2 ≠ some .internal := by
  rcases List.mem_append.1 h with h | h
  · obtain ⟨source, -, rfl⟩ := List.mem_map.1 h
    show (if _ then _ else _) ≠ _
    split <;> simp
  · obtain ⟨name, -, rfl⟩ := List.mem_map.1 h
    simp

/-- The rows hold every result of a source or of stored evidence once. -/
theorem sum_coverageRows {listed : List (String × Option SourceState)}
    (hnodup : (listed.map Prod.fst).Nodup) (placed : List Placed) :
    ((coverageRows listed placed).map SourceCoverage.total).sum +
      (resultsAt .duplicate placed).length = placed.length := by
  have hinternal : ((internalRows placed).map SourceCoverage.total).sum =
      (resultsAt .internal placed).length := by
    rw [internalRows]
    by_cases hnil : resultsAt .internal placed = []
    · rw [if_pos hnil, hnil]
      rfl
    · rw [if_neg hnil]
      exact total_tallyOf _
  have hcovered : ∀ name ∈ (ofSources placed).map Prod.fst,
      name ∈ listed.map Prod.fst ++ restNames listed placed := fun name hname =>
    List.mem_append.2 ((em (name ∈ listed.map Prod.fst)).imp id fun h => mem_restNames.2 ⟨hname, h⟩)
  have hnames := sum_length_filter (nodup_names hnodup placed) hcovered
  have hat : ∀ name, ((ofSources placed).filter fun entry => entry.1 = name).length =
      (tallyAt placed name).total := by
    intro name
    rw [tallyAt, total_tallyOf, ← filter_ofSources, List.length_map]
  simp only [hat, List.map_append, List.sum_append, List.map_map] at hnames
  rw [coverageRows_eq hnodup, length_placed, List.map_append, List.map_append, List.sum_append,
    List.sum_append, hinternal, List.map_map, List.map_map, ← hnames]
  rfl

/-! ## Orders -/

omit [LoopTexts] in
theorem resultsAt_perm (h : placed.Perm placed') (place : Place) :
    (resultsAt place placed).Perm (resultsAt place placed') := (h.filter _).map _

omit [LoopTexts] in
theorem insertionSort_perm {names names' : List String} (h : names.Perm names') :
    names.insertionSort (· ≤ ·) = names'.insertionSort (· ≤ ·) :=
  List.Perm.eq_of_pairwise (fun _ _ _ _ => le_antisymm) (List.pairwise_insertionSort _ _)
    (List.pairwise_insertionSort _ _)
    (((List.perm_insertionSort _ _).trans h).trans (List.perm_insertionSort _ _).symm)

theorem restNames_perm (h : placed.Perm placed') (listed : List (String × Option SourceState)) :
    restNames listed placed = restNames listed placed' := by
  have hkeys : ((talliesByName.groups (ofSources placed)).map Prod.fst).Perm
      ((talliesByName.groups (ofSources placed')).map Prod.fst) :=
    (List.perm_ext_iff_of_nodup (Grouping.nodup_groups _) (Grouping.nodup_groups _)).2 fun name => by
      rw [Grouping.mem_keys_groups, Grouping.mem_keys_groups]
      exact ((h.filterMap _).map _).mem_iff
  have hrest := hkeys.filter (· ∉ listed.map Prod.fst)
  simp only [restNames]
  rw [insertionSort_perm (hrest.filter _), List.filter_eq, List.filter_eq, hrest.count_eq]

theorem coverageRows_perm {listed : List (String × Option SourceState)}
    (hnodup : (listed.map Prod.fst).Nodup) (h : placed.Perm placed') :
    coverageRows listed placed = coverageRows listed placed' := by
  have hrow : ∀ name state, rowOf name (tallyAt placed name) state =
      rowOf name (tallyAt placed' name) state := fun name state =>
    rowOf_perm name (resultsAt_perm h _) state
  have hinternal : internalRows placed = internalRows placed' := by
    have hperm := resultsAt_perm h .internal
    rw [internalRows, internalRows, rowOf_perm internalSource hperm]
    by_cases hnil : resultsAt .internal placed = []
    · rw [if_pos hnil, if_pos (List.nil_perm.1 (hnil ▸ hperm))]
    · have hnil' : resultsAt .internal placed' ≠ [] := fun heq => hnil (List.perm_nil.1 (heq ▸ hperm))
      rw [if_neg hnil, if_neg hnil']
  rw [coverageRows_eq hnodup, coverageRows_eq hnodup, restNames_perm h, hinternal]
  simp only [hrow]

/-- A step with its results in another order. -/
def SameStep (step step' : Json) : Prop :=
  step'.get "status" = step.get "status" ∧ step'.get "response" = step.get "response" ∧
    (step'.get "tool_results" = step.get "tool_results" ∨
      ∃ items items', step.get "tool_results" = .arr items ∧
        step'.get "tool_results" = .arr items' ∧ items.Perm items')

/-- Steps in another order, with their results in another order. -/
def Reordered (steps steps' : List Json) : Prop :=
  ∃ middle, List.Forall₂ SameStep steps middle ∧ middle.Perm steps'

omit [LoopTexts] in
theorem stepResults_same {step step' : Json} (h : SameStep step step') {results : List StepResult}
    (hresults : stepResults step = .ok results) :
    ∃ results', stepResults step' = .ok results' ∧ results.Perm results' := by
  obtain ⟨-, hresponse, heq | ⟨items, items', hitems, hitems', hperm⟩⟩ := h
  · refine ⟨results, ?_, .refl _⟩
    rwa [stepResults, hresponse, heq]
  · rw [stepResults, hitems] at hresults
    obtain rfl := Except.ok.inj hresults
    refine ⟨_, by rw [stepResults, hitems', hresponse]; rfl, (hperm.filter _).map _⟩

omit [LoopTexts] in
theorem mapM_stepResults_same {steps steps' : List Json} (h : List.Forall₂ SameStep steps steps')
    {results : List (List StepResult)} (hresults : (live steps).mapM stepResults = .ok results) :
    ∃ results', (live steps').mapM stepResults = .ok results' ∧
      List.Forall₂ List.Perm results results' := by
  induction h generalizing results with
  | nil => exact ⟨results, hresults, by obtain rfl := Except.ok.inj hresults; exact .nil⟩
  | @cons step step' steps steps' hstep _ ih =>
    have hstatus := hstep.1
    by_cases hlive : step.get "status" ≠ .str "late_result"
    · rw [live, List.filter_cons_of_pos (by simpa using hlive), ← live, List.mapM_cons] at hresults
      obtain ⟨first, hfirst, hresults⟩ := bind_eq_ok.1 hresults
      obtain ⟨rest, hrest, hresults⟩ := bind_eq_ok.1 hresults
      obtain rfl := pure_eq_ok.1 hresults
      obtain ⟨first', hfirst', hperm⟩ := stepResults_same hstep hfirst
      obtain ⟨rest', hrest', hforall⟩ := ih hrest
      refine ⟨first' :: rest', ?_, .cons hperm hforall⟩
      rw [live, List.filter_cons_of_pos (by simpa [hstatus] using hlive), ← live, List.mapM_cons,
        hfirst', hrest']
      rfl
    · rw [live, List.filter_cons_of_neg (by simpa using hlive), ← live] at hresults
      obtain ⟨rest', hrest', hforall⟩ := ih hresults
      refine ⟨rest', ?_, hforall⟩
      rwa [live, List.filter_cons_of_neg (by simpa [hstatus] using hlive), ← live]

omit [LoopTexts] in
theorem placements_reordered {recorded : Option DataSources} {steps steps' : List Json}
    (h : Reordered steps steps') (hplaced : placements recorded steps = .ok placed) :
    ∃ placed', placements recorded steps' = .ok placed' ∧ placed.Perm placed' := by
  obtain ⟨middle, hsame, hperm⟩ := h
  obtain ⟨results, hresults, hplaced⟩ := bind_eq_ok.1 hplaced
  obtain ⟨results', hresults', hforall⟩ := mapM_stepResults_same hsame hresults
  obtain ⟨results'', hresults'', hperm'⟩ := mapM_ok_perm (hperm.filter _) hresults'
  obtain ⟨placed', hplaced', hperm''⟩ := mapM_ok_perm
    ((List.Perm.flatten_congr hforall).trans hperm'.flatten) hplaced
  exact ⟨placed', bind_eq_ok.2 ⟨results'', hresults'', hplaced'⟩, hperm''⟩

/-! ## The coverage -/

/-- The results of a step that are well formed. -/
def wellFormed (step : Json) : List Json :=
  (((step.get "tool_results").items?.getD []).map (·.get "result")).filter Json.isObject

omit [LoopTexts] in
theorem iterate_eq_ok {value : Json} {items : List Json} (h : iterate value = .ok items) :
    items = value.items?.getD [] := by
  cases value with
  | bool b =>
    cases b with
    | true => cases h
    | false => exact (Except.ok.inj h).symm
  | num q =>
    rw [iterate] at h
    by_cases hq : q = 0
    · rw [if_pos hq] at h
      exact (Except.ok.inj h).symm
    · rw [if_neg hq] at h
      cases h
  | _ => exact (Except.ok.inj h).symm

omit [LoopTexts] in
theorem stepResults_eq_ok {step : Json} {results : List StepResult}
    (h : stepResults step = .ok results) : results.map StepResult.result = wellFormed step := by
  obtain ⟨items, hitems, h⟩ := bind_eq_ok.1 h
  obtain rfl := Except.ok.inj h
  rw [wellFormed, ← iterate_eq_ok hitems, List.map_map, List.filter_map]
  rfl

omit [LoopTexts] in
/-- The results that are counted are those of the steps that are not late. -/
theorem placements_eq_ok {recorded : Option DataSources} {steps : List Json}
    (h : placements recorded steps = .ok placed) :
    placed.map Prod.snd = (live steps).flatMap wellFormed := by
  obtain ⟨results, hresults, h⟩ := bind_eq_ok.1 h
  have hplaced : ∀ {found : List StepResult} {placed : List Placed},
      (found.mapM fun r => placeOf recorded r >>= fun place => .ok (place, r.result)) = .ok placed →
        placed.map Prod.snd = found.map StepResult.result := by
    intro found placed h
    induction mapM_eq_ok.1 h with
    | nil => rfl
    | cons hfirst hrest ih =>
      obtain ⟨place, -, hfirst⟩ := bind_eq_ok.1 hfirst
      obtain rfl := Except.ok.inj hfirst
      rw [List.map_cons, List.map_cons, ih (mapM_eq_ok.2 hrest)]
  have hresults' : ∀ {steps : List Json} {results : List (List StepResult)},
      steps.mapM stepResults = .ok results →
        results.flatten.map StepResult.result = steps.flatMap wellFormed := by
    intro steps results h
    induction mapM_eq_ok.1 h with
    | nil => rfl
    | cons hfirst hrest ih =>
      rw [List.flatten_cons, List.map_append, List.flatMap_cons, stepResults_eq_ok hfirst,
        ih (mapM_eq_ok.2 hrest)]
  rw [hplaced h, hresults' hresults]

/-- A row without a gap: a result succeeded and none failed; the name is not that of a source which
cannot be queried, and a tool of its source was offered to the Run. -/
structure NoGap (snapshot : Json) (row : SourceCoverage) : Prop where
  ok_pos : 0 < row.ok
  nonOk_eq : row.nonOk = 0
  integrated : ∀ sources ∈ dataSources snapshot,
    row.name ∈ sources.notIntegrated → row.name ∈ sources.available.map Prod.fst
  offered : ∀ sources ∈ dataSources snapshot, ∀ tools, (row.name, tools) ∈ sources.available →
    ∃ authorized, schemaTools snapshot = .ok authorized ∧ ∃ tool ∈ tools, tool ∈ authorized

/-- What the coverage of a Run says of its results. -/
structure Counts (snapshot : Json) (steps : List Json) (coverage : RunCoverage)
    (placed : List Placed) : Prop where
  placements_eq : placements (dataSources snapshot) steps = .ok placed
  results_eq : placed.map Prod.snd = (live steps).flatMap wellFormed
  duplicates_eq : coverage.duplicatesSkipped = (resultsAt .duplicate placed).length
  row_eq : ∀ row ∈ coverage.sources, row.total = (resultsAt row.place placed).length
  sum_eq : (coverage.sources.map SourceCoverage.total).sum + coverage.duplicatesSkipped = placed.length
  nodup : (coverage.sources.map SourceCoverage.place).Nodup
  listed : ∀ sources ∈ dataSources snapshot, ∀ name,
    name ∈ sources.available.map Prod.fst ∨ name ∈ sources.notIntegrated →
      ∃ row ∈ coverage.sources, row.place = .source name
  noGap : ∀ row ∈ coverage.sources, row.gap = false → row.state = .internal ∨ NoGap snapshot row

omit [LoopTexts] in
theorem place_rowOf {name : String} (h : state ≠ some .internal) :
    (rowOf name t state).place = .source name :=
  if_neg (state_rowOf_ne h)

/-- One row for each name, and one for stored evidence. -/
theorem places_coverageRows {listed : List (String × Option SourceState)}
    (hnodup : (listed.map Prod.fst).Nodup) (hstate : ∀ entry ∈ listed, entry.2 ≠ some .internal)
    (placed : List Placed) : (coverageRows listed placed).map SourceCoverage.place =
      (listed.map Prod.fst ++ restNames listed placed).map Place.source ++
        (internalRows placed).map SourceCoverage.place := by
  rw [coverageRows_eq hnodup, List.map_append, List.map_append, List.map_append, List.map_map,
    List.map_map, List.map_map]
  refine congrArg₂ (· ++ ·) (congrArg₂ (· ++ ·) ?_ ?_) rfl
  · exact List.map_congr_left fun entry hentry => place_rowOf (hstate entry hentry)
  · exact List.map_congr_left fun name _ => place_rowOf (by simp)

theorem row_total {listed : List (String × Option SourceState)}
    (hnodup : (listed.map Prod.fst).Nodup) (hstate : ∀ entry ∈ listed, entry.2 ≠ some .internal)
    {row : SourceCoverage} (h : row ∈ coverageRows listed placed) :
    row.total = (resultsAt row.place placed).length := by
  have hrow : ∀ name state, state ≠ some SourceState.internal →
      (rowOf name (tallyAt placed name) state).total =
        (resultsAt (rowOf name (tallyAt placed name) state).place placed).length := by
    intro name state hne
    rw [place_rowOf hne]
    exact total_tallyOf _
  rw [coverageRows_eq hnodup, List.mem_append, List.mem_append] at h
  obtain (h | h) | h := h
  · obtain ⟨entry, hentry, rfl⟩ := List.mem_map.1 h
    exact hrow _ _ (hstate entry hentry)
  · obtain ⟨name, -, rfl⟩ := List.mem_map.1 h
    exact hrow _ _ (by simp)
  · rw [internalRows] at h
    split at h
    · cases h
    · obtain rfl := List.mem_singleton.1 h
      exact total_tallyOf _

omit [LoopTexts] in
theorem ok_of_gap {name : String} (hstate : state ≠ some .internal) (hallOk : state ≠ some .allOk)
    (h : (rowOf name t state).gap = false) : state = none ∧ 0 < t.ok ∧ t.nonOk = 0 := by
  have hgap : (rowOf name t state).state = .allOk := by
    have hne : (rowOf name t state).state ≠ .internal := state_rowOf_ne hstate
    by_contra hother
    exact absurd h (by simp only [rowOf] at hne hother ⊢; simp [hne, hother])
  cases state with
  | some state => exact absurd (congrArg some hgap) hallOk
  | none =>
    refine ⟨rfl, ?_⟩
    have hof : stateOf t = .allOk := hgap
    rw [stateOf] at hof
    split at hof
    · split at hof <;> cases hof
    · split at hof
      · omega
      · split at hof <;> cases hof

omit [LoopTexts] in
/-- A listed source without a state of its own was offered to the Run. -/
theorem offered_of_listed {name : String} (h : (name, none) ∈ listedSources sources authorized) :
    ∃ tools, (name, tools) ∈ sources.available ∧ ∃ tool ∈ tools, tool ∈ authorized := by
  rcases List.mem_append.1 h with h | h
  · obtain ⟨source, hsource, heq⟩ := List.mem_map.1 h
    obtain ⟨rfl, hnone⟩ := Prod.mk.inj heq
    refine ⟨source.2, hsource, ?_⟩
    by_cases hany : source.2.any (· ∈ authorized) = true
    · simpa using hany
    · rw [if_neg hany] at hnone
      cases hnone
  · obtain ⟨missing, -, heq⟩ := List.mem_map.1 h
    cases (Prod.mk.inj heq).2

/-- What `run_coverage` lists of a snapshot. -/
def listedOf (snapshot : Json) (authorized : List String) : List (String × Option SourceState) :=
  ((dataSources snapshot).map (listedSources · authorized)).getD []

omit [LoopTexts] in
theorem mem_listedOf {snapshot : Json} (h : dataSources snapshot = some sources) {name : String} :
    name ∈ (listedOf snapshot authorized).map Prod.fst ↔
      name ∈ sources.available.map Prod.fst ∨ name ∈ sources.notIntegrated := by
  rw [listedOf, h, Option.map_some, Option.getD_some, listedSources, List.map_append,
    List.mem_append, List.map_map, List.map_map]
  constructor
  · rintro (havailable | hmissing)
    · exact .inl havailable
    · obtain ⟨missing, hmem, rfl⟩ := List.mem_map.1 hmissing
      exact .inr (List.mem_filter.1 hmem).1
  · intro hname
    by_cases havailable : name ∈ sources.available.map Prod.fst
    · exact .inl havailable
    · have hmissing := hname.resolve_left havailable
      exact .inr (List.mem_map.2 ⟨name, List.mem_filter.2 ⟨hmissing, by simpa using havailable⟩, rfl⟩)

theorem noGap_of_gap {snapshot : Json}
    (hauthorized : (dataSources snapshot).isSome → schemaTools snapshot = .ok authorized)
    (hnodup : ((listedOf snapshot authorized).map Prod.fst).Nodup) {row : SourceCoverage}
    (h : row ∈ coverageRows (listedOf snapshot authorized) placed) (hgap : row.gap = false) :
    row.state = .internal ∨ NoGap snapshot row := by
  rw [coverageRows_eq hnodup, List.mem_append, List.mem_append] at h
  obtain (h | h) | h := h
  · right
    obtain ⟨⟨name, state⟩, hentry, rfl⟩ := List.mem_map.1 h
    cases hsources : dataSources snapshot with
    | none =>
      rw [listedOf, hsources] at hentry
      cases hentry
    | some sources =>
      rw [listedOf, hsources] at hentry
      have hstate : state ≠ some .allOk := by
        rcases List.mem_append.1 hentry with h | h
        · obtain ⟨source, -, heq⟩ := List.mem_map.1 h
          rw [← (Prod.mk.inj heq).2]
          split <;> simp
        · obtain ⟨missing, -, heq⟩ := List.mem_map.1 h
          rw [← (Prod.mk.inj heq).2]
          simp
      obtain ⟨rfl, hok, hnonOk⟩ := ok_of_gap (listedSources_ne_internal hentry) hstate hgap
      obtain ⟨tools, htools, hoffered⟩ := offered_of_listed hentry
      refine ⟨hok, hnonOk, ?_, ?_⟩
      · rintro other hother -
        obtain rfl := Option.some.inj (hsources.symm.trans hother)
        exact List.mem_map.2 ⟨_, htools, rfl⟩
      · rintro other hother tools' htools'
        obtain rfl := Option.some.inj (hsources.symm.trans hother)
        have heq := List.inj_on_of_nodup_map (nodup_available hsources) htools' htools rfl
        obtain rfl := (Prod.mk.inj heq).2
        exact ⟨authorized, hauthorized (by simp [hsources]), hoffered⟩
  · right
    obtain ⟨name, hname, rfl⟩ := List.mem_map.1 h
    obtain ⟨-, hlisted⟩ := mem_restNames.1 hname
    obtain ⟨-, hok, hnonOk⟩ := ok_of_gap (by simp) (by simp) hgap
    refine ⟨hok, hnonOk, ?_, ?_⟩
    · intro sources hsources hmissing
      exact absurd ((mem_listedOf hsources).2 (.inr hmissing)) hlisted
    · intro sources hsources tools htools
      exact absurd ((mem_listedOf hsources).2 (.inl (List.mem_map.2 ⟨_, htools, rfl⟩))) hlisted
  · left
    rw [internalRows] at h
    split at h
    · cases h
    · obtain rfl := List.mem_singleton.1 h
      rfl

end

namespace UnlistedTool

/-- No text here is looked into. -/
scoped instance loopTexts : LoopTexts where
  render variant _ := variant
  redactCredentials text := text
  canonical _ := ""
  sha256 text := text
  str _ := ""
  serialize _ := ""

/-- A Run that was offered the search of its logs. -/
def snapshot : Json := .obj [
  ("evidence_context", .obj [("data_sources", .obj [
    ("available", .obj [("logs", .arr [.str "search"])]), ("not_integrated", .arr [.str "traces"])])]),
  ("tool_schemas", .arr [.obj [("function", .obj [("name", .str "search")])]])]

/-- A step with a result of a tool that no source lists. -/
def step : Json := .obj [
  ("status", .str "done"),
  ("tool_results", .arr [.obj [("ordinal", .num 0),
    ("result", .obj [("status", .str "ok"), ("tool", .str "metrics")])]])]

/-- The rows: the logs were not queried, the traces cannot be, and the metrics have no gap. -/
def coverage : RunCoverage where
  runId := .null
  sourcesRecorded := true
  sources := [⟨"logs", 0, 0, 0, [], .notQueried, true⟩, ⟨"traces", 0, 0, 0, [], .notIntegrated, true⟩,
    ⟨"metrics", 1, 0, 0, [], .allOk, false⟩]
  duplicatesSkipped := 0

theorem runCoverage_eq : runCoverage .null snapshot [step] = .ok coverage := by rfl

end UnlistedTool

end OpsPilot.Coverage
