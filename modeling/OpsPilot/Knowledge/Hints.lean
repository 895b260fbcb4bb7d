import Mathlib.Data.Prod.Lex
import OpsPilot.Foundations.Traversal
import OpsPilot.Investigation.Snapshot
import OpsPilot.Knowledge.Records

/-!
# Knowledge hints

What a new Run is told of the knowledge published for its target: `knowledge_for_target`
(`opspilot/knowledge/store.py`) selects active revisions, cuts their contents and drops the last ones
until the rest is small enough (`opspilot/knowledge/hints.py`). The fact is checked again when the
input of the Run is read.

* `knowledgeForTarget`: the fact, or why there is none.
* **`knowledgeForTarget_valid`**: the fact passes its check, and its entries are the first of those
  selected.
-/

namespace OpsPilot.Knowledge

open PromptTexts FactTexts

/-- What the hints take of `json.dumps`: the texts of an empty list and how an object starts. -/
class HintTexts extends FactTexts, ReportTexts where
  canonical_nil : canonical (.arr []) = "[]"
  canonical_obj : ∀ fields, ∃ rest, canonical (.obj fields) = String.ofList ('\x7b' :: rest)

section

variable [HintTexts]

/-! ## Rows -/

/-- An instant of a row, with what `isoformat` prints of it. -/
structure Instant where
  time : Time
  isoformat : String
  reads : aware (.str isoformat) = some time

/-- A row of `opspilot_knowledge_revisions` with what the query joins to it. The content is the
object that its text reads as. -/
structure HintRow where
  entryId : String
  revision : ℕ
  state : KnowledgeState
  resourceUid : String
  name : String
  tags : List String
  content : List (String × Json)
  contentSha256 : String
  sourceIncidentId : String
  sourcePostmortemId : String
  sourceVersion : ℕ
  approvedBy : String
  approvedAt : Instant
  observationEndedAt : Instant
  entryId_uuid : isUuid entryId = true
  sourceIncidentId_uuid : isUuid sourceIncidentId = true
  sourcePostmortemId_uuid : isUuid sourcePostmortemId = true
  revision_pos : 1 ≤ revision
  sourceVersion_pos : 1 ≤ sourceVersion
  name_ne : name ≠ ""
  approvedBy_ne : approvedBy ≠ ""
  contentSha256_hex : hexDigest contentSha256 = true

/-- The published revisions; an entry has at most one active. -/
structure Revisions where
  rows : List HintRow
  active_nodup : ((rows.filter fun row => row.state = .active).map HintRow.entryId).Nodup

/-! ## Entries -/

/-- How `knowledge_for_target` ends without a fact: `INVALID_INPUT`, or the `TypeError` of evidence
references that have no length. -/
inductive HintError
  | invalidInput | typeError
  deriving DecidableEq

/-- `len(value)`. -/
def jsonLength : Json → Option ℕ
  | .str text => some text.length
  | .arr items => some items.length
  | .obj fields => some fields.length
  | _ => none

/-- The characters that fit in so many bytes. -/
def takeBytes : ℕ → List Char → List Char
  | _, [] => []
  | bytes, c :: text => if c.utf8Size ≤ bytes then c :: takeBytes (bytes - c.utf8Size) text else []

/-- `hint_content`. -/
def hintContent (content : List (String × Json)) : Except HintError (String × Bool) := do
  let refs := (content.lookup "evidence_refs").getD (.arr [])
  let count ← require (jsonLength refs) .typeError
  let text := canonical ((Json.obj content).setField "evidence_refs"
    (.obj [("count", .num count), ("omitted", .bool true)]))
  .ok (String.ofList (takeBytes knowledgeContentBytes text.toList),
    knowledgeContentBytes < text.utf8ByteSize)

/-- `floor(extract(epoch FROM (retrieved_at - recorded_at)))`. -/
def ageSeconds (retrievedAt : Instant) (row : HintRow) : ℤ :=
  (retrievedAt.time - row.observationEndedAt.time) / 1000000

/-- The entry of a row with its content. -/
def entryOf (retrievedAt : Instant) (maxAgeSeconds : ℕ) (row : HintRow) (content : String)
    (truncated : Bool) : Json :=
  .obj [("age_seconds", .num (ageSeconds retrievedAt row)),
    ("approved_at", .str row.approvedAt.isoformat), ("approved_by", .str row.approvedBy),
    ("content", .str content), ("content_sha256", .str row.contentSha256),
    ("entry_id", .str row.entryId),
    ("freshness", .str (if maxAgeSeconds < ageSeconds retrievedAt row then "stale" else "fresh")),
    ("name", .str row.name), ("observation_ended_at", .str row.observationEndedAt.isoformat),
    ("revision", .num row.revision), ("source_incident_id", .str row.sourceIncidentId),
    ("source_postmortem_id", .str row.sourcePostmortemId),
    ("source_version", .num row.sourceVersion), ("tags", .arr (row.tags.map .str)),
    ("truncated", .bool truncated)]

/-- The entry of a row. -/
def hintEntry (retrievedAt : Instant) (maxAgeSeconds : ℕ) (row : HintRow) :
    Except HintError Json := do
  let (content, truncated) ← hintContent row.content
  .ok (entryOf retrievedAt maxAgeSeconds row content truncated)

/-! ## The fact -/

/-- The rows of `knowledge_for_target`, the fresh ones first, those of a rank by their approval. -/
def selected (revisions : Revisions) (rank : HintRow → ℚ) (retrievedAt : Instant)
    (resourceUid : String) (limit maxAgeSeconds : ℕ) : List HintRow :=
  let stale row := decide ((maxAgeSeconds : ℤ) < ageSeconds retrievedAt row)
  ((revisions.rows.filter fun row => row.resourceUid = resourceUid ∧ row.state = .active).mergeSort
    fun a b => toLex (stale a, toLex (-rank a, toLex (-a.approvedAt.time, a.entryId))) ≤
      toLex (stale b, toLex (-rank b, toLex (-b.approvedAt.time, b.entryId)))).take limit

/-- The entries that are left when the last ones are dropped until the rest is small enough. -/
def keepEntries : ℕ → List Json → List Json
  | 0, entries => entries
  | fuel + 1, entries =>
    if knowledgeEntriesBytes < canonicalBytes (.arr entries) then keepEntries fuel entries.dropLast
    else entries

/-- `bound_entries`: what is kept, and how many are left out. -/
def boundEntries (entries : List Json) : List Json × ℕ :=
  let kept := keepEntries entries.length entries
  (kept, entries.length - kept.length)

/-- The fact with its entries. -/
def knowledgeFact (retrievedAt : Instant) (maxAgeSeconds : ℕ) (entries : List Json)
    (omitted : ℕ) : Json :=
  .obj [("entries", .arr entries), ("max_age_seconds", .num maxAgeSeconds),
    ("omitted_for_size", .num omitted), ("policy_version", .str "knowledge-hint-v1"),
    ("retrieved_at", .str retrievedAt.isoformat), ("status", .str "ok")]

/-- `knowledge_for_target`. -/
def knowledgeForTarget (revisions : Revisions) (rank : HintRow → ℚ) (retrievedAt : Instant)
    (resourceUid : String) (limit maxAgeSeconds : ℕ) : Except HintError Json := do
  refuse (3 < limit) .invalidInput
  let rows := selected revisions rank retrievedAt resourceUid limit maxAgeSeconds
  let entries ← rows.mapM (hintEntry retrievedAt maxAgeSeconds)
  let (kept, omitted) := boundEntries entries
  .ok (knowledgeFact retrievedAt maxAgeSeconds kept omitted)

/-! ## Cutting -/

variable {entries : List Json} {retrievedAt : Instant} {maxAgeSeconds : ℕ}

theorem keepEntries_spec {fuel : ℕ} (h : entries.length ≤ fuel) :
    keepEntries fuel entries <+: entries ∧
      canonicalBytes (.arr (keepEntries fuel entries)) ≤ knowledgeEntriesBytes := by
  induction fuel generalizing entries with
  | zero =>
    obtain rfl := List.length_eq_zero_iff.1 (Nat.le_zero.1 h)
    refine ⟨List.prefix_rfl, ?_⟩
    rw [keepEntries, canonicalBytes, HintTexts.canonical_nil]
    decide
  | succ fuel ih =>
    rw [keepEntries]
    by_cases hsize : knowledgeEntriesBytes < canonicalBytes (.arr entries)
    · rw [if_pos hsize]
      obtain ⟨hfirst, hbytes⟩ := ih
        (show entries.dropLast.length ≤ fuel by rw [List.length_dropLast]; omega)
      exact ⟨hfirst.trans (List.dropLast_prefix entries), hbytes⟩
    · rw [if_neg hsize]
      exact ⟨List.prefix_rfl, not_lt.1 hsize⟩

omit [HintTexts] in
theorem utf8ByteSize_cons (c : Char) (text : List Char) :
    (String.ofList (c :: text)).utf8ByteSize = c.utf8Size + (String.ofList text).utf8ByteSize := by
  have hcons : String.ofList (c :: text) = String.singleton c ++ String.ofList text := by
    apply String.toList_injective
    simp
  rw [hcons, String.utf8ByteSize_append, String.utf8ByteSize_singleton]

omit [HintTexts] in
theorem bytes_takeBytes (bytes : ℕ) (text : List Char) :
    (String.ofList (takeBytes bytes text)).utf8ByteSize ≤ bytes := by
  induction text generalizing bytes with
  | nil => exact Nat.zero_le _
  | cons c text ih =>
    rw [takeBytes]
    by_cases hc : c.utf8Size ≤ bytes
    · have htail := ih (bytes - c.utf8Size)
      rw [if_pos hc, utf8ByteSize_cons]
      omega
    · rw [if_neg hc]
      exact Nat.zero_le _

theorem hintContent_eq_ok {content : List (String × Json)} {text : String} {truncated : Bool}
    (h : hintContent content = .ok (text, truncated)) :
    text ≠ "" ∧ text.utf8ByteSize ≤ knowledgeContentBytes := by
  obtain ⟨count, -, h⟩ := require_bind_eq_ok.1 h
  obtain ⟨rfl, -⟩ := Prod.mk.inj (Except.ok.inj h)
  refine ⟨fun hempty => ?_, bytes_takeBytes _ _⟩
  obtain ⟨rest, hcanonical⟩ := HintTexts.canonical_obj
    (((content.filter fun field => field.1 < "evidence_refs") ++
      ("evidence_refs", .obj [("count", .num count), ("omitted", .bool true)]) ::
        content.filter fun field => "evidence_refs" < field.1))
  -- the text starts with an opening brace, which fits
  rw [Json.setField, hcanonical, String.toList_ofList, takeBytes, if_pos (by decide)] at hempty
  exact absurd (congrArg String.toList hempty) (by simp)

/-! ## Entries and their checks -/

theorem hintEntry_valid {row : HintRow} {entry : Json}
    (h : hintEntry retrievedAt maxAgeSeconds row = .ok entry) :
    knowledgeEntryValid retrievedAt.time maxAgeSeconds entry = true ∧
      entry.get "entry_id" = .str row.entryId := by
  obtain ⟨⟨content, truncated⟩, hcontent, h⟩ := bind_eq_ok.1 h
  obtain rfl := Except.ok.inj h
  obtain ⟨hne, hbytes⟩ := hintContent_eq_ok hcontent
  refine ⟨?_, rfl⟩
  have hnonempty : ∀ {text : String}, text ≠ "" → (nonemptyText (.str text)).isSome = true :=
    fun htext => by rw [nonemptyText, if_neg htext]; rfl
  have hwhole : ∀ {n : ℕ}, 1 ≤ n → wholeFrom 1 (.num n) = true := fun {n} hn => by
    simp only [wholeFrom, Bool.and_eq_true, decide_eq_true_eq]
    exact ⟨by simp [Rat.isInt], by exact_mod_cast hn⟩
  simp only [knowledgeEntryValid, Bool.and_eq_true, List.all_cons, List.all_nil, Bool.and_true]
  refine ⟨⟨⟨⟨⟨⟨⟨⟨rfl, ?_, ?_, ?_⟩, ?_, ?_⟩, ?_, ?_, ?_⟩, ?_⟩, ?_⟩, ?_⟩, ?_⟩, ?_⟩
  · exact row.entryId_uuid
  · exact row.sourceIncidentId_uuid
  · exact row.sourcePostmortemId_uuid
  · exact hwhole row.revision_pos
  · exact hwhole row.sourceVersion_pos
  · exact hnonempty row.name_ne
  · exact hnonempty hne
  · exact hnonempty row.approvedBy_ne
  · show (row.tags.map Json.str).all (fun tag => tag.text?.isSome) = true
    simp [Json.text?]
  · exact row.contentSha256_hex
  · show (aware (.str row.approvedAt.isoformat)).isSome = true
    rw [row.approvedAt.reads]
    rfl
  · exact decide_eq_true hbytes
  · have hage : (entryOf retrievedAt maxAgeSeconds row content truncated).get "age_seconds" =
      .num (ageSeconds retrievedAt row) := rfl
    have htruncated : (entryOf retrievedAt maxAgeSeconds row content truncated).get "truncated" =
      .bool truncated := rfl
    have hended : aware ((entryOf retrievedAt maxAgeSeconds row content truncated).get
      "observation_ended_at") = some row.observationEndedAt.time := row.observationEndedAt.reads
    have hfreshness : (entryOf retrievedAt maxAgeSeconds row content truncated).get "freshness" =
      .str (if maxAgeSeconds < ageSeconds retrievedAt row then "stale" else "fresh") := rfl
    rw [hage, htruncated, hended, hfreshness]
    simp only [Bool.and_eq_true, decide_eq_true_eq]
    refine ⟨rfl, ?_⟩
    by_cases hstale : (maxAgeSeconds : ℤ) < ageSeconds retrievedAt row
    · rw [if_pos hstale, if_pos (by exact_mod_cast hstale)]
    · rw [if_neg hstale, if_neg (by exact_mod_cast hstale)]

theorem hintEntries_eq_ok {rows : List HintRow}
    (h : rows.mapM (hintEntry retrievedAt maxAgeSeconds) = .ok entries) :
    entries.all (knowledgeEntryValid retrievedAt.time maxAgeSeconds) = true ∧
      entries.map (·.get "entry_id") = rows.map fun row => .str row.entryId := by
  induction mapM_eq_ok.1 h with
  | nil => exact ⟨rfl, rfl⟩
  | cons hentry hrest ih =>
    obtain ⟨hvalid, hid⟩ := hintEntry_valid hentry
    obtain ⟨hall, hids⟩ := ih (mapM_eq_ok.2 hrest)
    exact ⟨by rw [List.all_cons, hvalid, hall]; rfl, by rw [List.map_cons, List.map_cons, hid, hids]⟩

theorem selected_nodup (revisions : Revisions) (rank : HintRow → ℚ) (retrievedAt : Instant)
    (resourceUid : String) (limit maxAgeSeconds : ℕ) :
    ((selected revisions rank retrievedAt resourceUid limit maxAgeSeconds).map
      HintRow.entryId).Nodup := by
  have hfilter : (revisions.rows.filter fun row =>
      row.resourceUid = resourceUid ∧ row.state = .active).Sublist
        (revisions.rows.filter fun row => row.state = .active) :=
    List.monotone_filter_right _ fun row hrow => by
      simp only [decide_eq_true_eq] at hrow ⊢
      exact hrow.2
  refine List.Nodup.sublist ((List.take_sublist _ _).map _) ?_
  exact ((List.mergeSort_perm _ _).map HintRow.entryId).nodup_iff.2
    (revisions.active_nodup.sublist (hfilter.map HintRow.entryId))

theorem length_selected_le (revisions : Revisions) (rank : HintRow → ℚ) (retrievedAt : Instant)
    (resourceUid : String) (limit maxAgeSeconds : ℕ) :
    (selected revisions rank retrievedAt resourceUid limit maxAgeSeconds).length ≤ limit :=
  List.length_take_le _ _

theorem knowledgeFact_valid {omitted : ℕ} (hcount : entries.length ≤ 3)
    (hbytes : canonicalBytes (.arr entries) ≤ knowledgeEntriesBytes)
    (hvalid : entries.all (knowledgeEntryValid retrievedAt.time maxAgeSeconds) = true)
    (hnodup : (entries.map (·.get "entry_id")).Nodup) :
    knowledgeValid (knowledgeFact retrievedAt maxAgeSeconds entries omitted) = true := by
  have hnatural : ∀ n : ℕ, wholeFrom 0 (.num n) = true := fun n => by
    simp [wholeFrom, Rat.isInt]
  have hstatus : (knowledgeFact retrievedAt maxAgeSeconds entries omitted).get "status" =
    .str "ok" := rfl
  have hmaxAge : (knowledgeFact retrievedAt maxAgeSeconds entries omitted).get "max_age_seconds" =
    .num maxAgeSeconds := rfl
  have homitted : (knowledgeFact retrievedAt maxAgeSeconds entries omitted).get
    "omitted_for_size" = .num omitted := rfl
  have hentries : (knowledgeFact retrievedAt maxAgeSeconds entries omitted).get "entries" =
    .arr entries := rfl
  have hretrieved : aware ((knowledgeFact retrievedAt maxAgeSeconds entries omitted).get
    "retrieved_at") = some retrievedAt.time := retrievedAt.reads
  rw [knowledgeValid, hstatus, hmaxAge, homitted, hentries, hretrieved]
  simp only [Bool.and_eq_true, hnatural, decide_eq_true hcount, if_neg (by decide : "ok" ≠ "unavailable"),
    Option.any_some, decide_eq_true hbytes, hvalid, decide_eq_true hnodup]
  exact ⟨⟨rfl, decide_eq_true rfl⟩, ⟨⟨trivial, trivial⟩, trivial⟩, rfl, ⟨trivial, trivial⟩, trivial⟩

/-- **The fact passes its own check.** Its entries are the first of those selected, and it counts the
others. -/
theorem knowledgeForTarget_valid {revisions : Revisions} {rank : HintRow → ℚ} {retrievedAt : Instant}
    {resourceUid : String} {limit maxAgeSeconds : ℕ} {fact : Json}
    (h : knowledgeForTarget revisions rank retrievedAt resourceUid limit maxAgeSeconds = .ok fact) :
    knowledgeValid fact = true ∧ ∃ entries kept, ∃ omitted : ℕ,
      (selected revisions rank retrievedAt resourceUid limit maxAgeSeconds).mapM
        (hintEntry retrievedAt maxAgeSeconds) = .ok entries ∧
      fact.get "entries" = .arr kept ∧ fact.get "omitted_for_size" = .num omitted ∧
      kept <+: entries ∧ omitted + kept.length = entries.length := by
  obtain ⟨hlimit, h⟩ := refuse_bind_eq_ok.1 h
  obtain ⟨entries, hentries, h⟩ := bind_eq_ok.1 h
  obtain rfl := Except.ok.inj h
  obtain ⟨hfirst, hbytes⟩ := keepEntries_spec (le_refl entries.length)
  obtain ⟨hvalid, hids⟩ := hintEntries_eq_ok hentries
  have hlength := hfirst.length_le
  refine ⟨?_, entries, _, _, hentries, rfl, rfl, hfirst, Nat.sub_add_cancel hlength⟩
  have hcount : (keepEntries entries.length entries).length ≤ 3 := by
    have hentriesLength : entries.length =
        (selected revisions rank retrievedAt resourceUid limit maxAgeSeconds).length := by
      simpa using congrArg List.length hids
    have := length_selected_le revisions rank retrievedAt resourceUid limit maxAgeSeconds
    omega
  have hnodup : ((keepEntries entries.length entries).map (·.get "entry_id")).Nodup := by
    refine List.Nodup.sublist (hfirst.sublist.map _) ?_
    rw [hids]
    have hselected := selected_nodup revisions rank retrievedAt resourceUid limit maxAgeSeconds
    have hstr := hselected.map fun _ _ => Json.str.inj
    rwa [List.map_map] at hstr
  have hkept : (keepEntries entries.length entries).all
      (knowledgeEntryValid retrievedAt.time maxAgeSeconds) = true :=
    List.all_eq_true.2 fun entry hentry => List.all_eq_true.1 hvalid entry (hfirst.subset hentry)
  exact knowledgeFact_valid hcount hbytes hkept hnodup

end

namespace PublishedFix

open Json (dumps)

/-- JSON texts, two days, and identifiers that are UUIDs. -/
scoped instance hintTexts : HintTexts where
  decodeError _ := ""
  schemaErrors _ := []
  fromisoformat text :=
    if text = "2026-01-01T00:00:00+00:00" then some 0
    else if text = "2026-01-02T00:00:00+00:00" then some 86400000000
    else none
  render variant _ := variant
  redactCredentials text := text
  canonical value := String.ofList (dumps ⟨[','], [':'], fun q => (toString q.num).toList⟩ value)
  sha256 text := text
  str _ := ""
  serialize _ := ""
  unprintable _ := false
  isUuid _ := true
  canonical_nil := rfl
  canonical_obj fields := by
    rcases fields with _ | ⟨⟨key, value⟩, fields⟩
    · exact ⟨_, rfl⟩
    · exact ⟨_, rfl⟩

def approved : Instant := ⟨0, "2026-01-01T00:00:00+00:00", by decide⟩

def retrieved : Instant := ⟨86400000000, "2026-01-02T00:00:00+00:00", by decide⟩

theorem digest_hex :
    hexDigest "0000000000000000000000000000000000000000000000000000000000000000" = true := by
  decide +kernel

theorem uuid_ok (text : String) : isUuid text = true := rfl

theorem first_pos : 1 ≤ 1 := le_rfl

theorem name_ne : "Connection pool exhausted" ≠ "" := by decide

theorem approver_ne : "oncall" ≠ "" := by decide

/-- What was learned from an incident. -/
def fix : HintRow where
  entryId := "4d0f2a54-6f0e-4a5f-9a6b-0d6a3c2f1e10"
  revision := 1
  state := .active
  resourceUid := "checkout"
  name := "Connection pool exhausted"
  tags := ["database"]
  content := [("evidence_refs", .arr []), ("summary", .str "Raise the pool's limit.")]
  contentSha256 := "0000000000000000000000000000000000000000000000000000000000000000"
  sourceIncidentId := "8d5f5d3c-2f0b-4a55-8f1e-3a7b9c1d2e3f"
  sourcePostmortemId := "0b9d4f6e-7a1c-4c2d-9e3f-5a6b7c8d9e0f"
  sourceVersion := 1
  approvedBy := "oncall"
  approvedAt := approved
  observationEndedAt := approved
  entryId_uuid := uuid_ok _
  sourceIncidentId_uuid := uuid_ok _
  sourcePostmortemId_uuid := uuid_ok _
  revision_pos := first_pos
  sourceVersion_pos := first_pos
  name_ne
  approvedBy_ne := approver_ne
  contentSha256_hex := digest_hex

theorem fix_nodup : (([fix].filter fun row => row.state = .active).map HintRow.entryId).Nodup := by
  simp [fix]

def revisions : Revisions := ⟨[fix], fix_nodup⟩

/-- The knowledge of a day before is shown as stale, and its fact passes. -/
theorem knowledgeForTarget_valid_one : ∃ fact,
    knowledgeForTarget revisions (fun _ => 0) retrieved "checkout" 3 3600 = .ok fact ∧
      knowledgeValid fact = true ∧ ∃ entries,
        [fix].mapM (hintEntry retrieved 3600) = .ok entries := by
  have hselected : selected revisions (fun _ => 0) retrieved "checkout" 3 3600 = [fix] := by
    simp [selected, revisions, fix]
  obtain ⟨fact, hfact⟩ : ∃ fact,
      knowledgeForTarget revisions (fun _ => 0) retrieved "checkout" 3 3600 = .ok fact := by
    simp only [knowledgeForTarget, hselected]
    exact ⟨_, rfl⟩
  obtain ⟨hvalid, entries, -, -, hentries, -⟩ := knowledgeForTarget_valid hfact
  exact ⟨fact, hfact, hvalid, entries, hselected ▸ hentries⟩

end PublishedFix

end OpsPilot.Knowledge
