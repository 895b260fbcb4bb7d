import OpsPilot.Redaction.Trees

/-!
# The reply of the model

`parse_model_output` reads what the model wrote for a postmortem: one JSON object of sections,
conclusions, proposed entries and disputes. It collects every problem of the reply before it refuses
it; a value it cannot hash escapes as a `TypeError`.

* `parseModelOutput`: the parser, with the problems in the order in which it finds them.
* `Denotes`: the documented grammar, as what a reply says. `Lax` is the grammar in which a key or a
  tag may have a line feed after it.
* `parseObject_eq_ok`: the parser returns what the lax grammar says a reply denotes.
* **`parseModelOutput_exact`**: when the parser is total and exact.
-/

namespace OpsPilot.Knowledge.Reply

open Redaction

/-! ## Values -/

/-- `Statement`. -/
structure Statement where
  key : Text
  «section» : Text
  claim : Text
  body : Text
  evidenceIds : List Text
  narrative : Bool
  deriving DecidableEq

/-- `Proposal`. -/
structure Proposal where
  key : Text
  name : Text
  tags : List Text
  symptoms : List Text
  checks : List Text
  evidenceIds : List Text
  supersedesRevision : Option ℤ
  deriving DecidableEq

/-- `ModelOutput`. -/
structure ModelOutput where
  statements : List Statement
  proposals : List Proposal
  disputes : List (Text × Text)
  deriving DecidableEq

/-- How the parser ends without an output: `OutputInvalid` with its problems, or the `TypeError` of
a value that is not hashable. -/
inductive Failure
  | outputInvalid (problems : List Text)
  | typeError
  deriving DecidableEq

/-! ## Bounds and names -/

/-- `MAX_NARRATIVE_SECTIONS`. -/
def maxNarrativeSections : ℕ := 8

/-- `MAX_CONCLUSIONS`. -/
def maxConclusions : ℕ := 20

/-- `MAX_PROPOSALS`. -/
def maxProposals : ℕ := 5

/-- `MAX_DISPUTES`. -/
def maxDisputes : ℕ := 20

/-- `MAX_BODY_CHARS`. -/
def maxBodyChars : ℕ := 4000

/-- `MAX_CITED`. -/
def maxCited : ℕ := 20

/-- `MAX_LIST_ITEMS`. -/
def maxListItems : ℕ := 10

/-- `CODE_SECTIONS`. -/
def codeSections : List Text :=
  ["incident", "timeline", "runs", "human_actions", "recovery"].map literal

/-- `_NARRATIVE_SECTIONS`: the claim of each section. -/
def narrativeSections : List (Text × Text) :=
  [(literal "impact_summary", literal "fact"),
    (literal "recommendations", literal "recommendation")]

/-- `_CONCLUSION_SECTIONS`. -/
def conclusionSections : List Text := ["findings", "hypotheses"].map literal

/-- `_CLAIMS`. -/
def claims : List Text :=
  ["fact", "hypothesis", "counter_evidence", "recommendation"].map literal

/-- `MODEL_OUTPUT_FIELDS[""]`. -/
def outputFields : List Text :=
  ["narrative_sections", "conclusions", "proposals", "disputes"].map literal

/-- `MODEL_OUTPUT_FIELDS["narrative_sections"]`. -/
def narrativeFields : List Text := ["key", "section", "body", "evidence_ids"].map literal

/-- `MODEL_OUTPUT_FIELDS["conclusions"]`. -/
def conclusionFields : List Text := ["key", "section", "claim", "body", "evidence_ids"].map literal

/-- `MODEL_OUTPUT_FIELDS["proposals"]`. -/
def proposalFields : List Text :=
  ["key", "name", "tags", "symptoms", "checks", "evidence_ids", "supersedes_revision"].map literal

/-- `MODEL_OUTPUT_OPTIONAL_FIELDS["proposals"]`. -/
def proposalOptionalFields : List Text := ["supersedes_revision"].map literal

/-- `MODEL_OUTPUT_FIELDS["disputes"]`. -/
def disputeFields : List Text := ["conclusion_key", "reason"].map literal

/-- A pattern `^[first][rest]{0,bound}$`. -/
structure Shape where
  first : Redaction.Code → Bool
  rest : Redaction.Code → Bool
  bound : ℕ

/-- The text has the shape from its first to its last character. -/
def Shape.full (shape : Shape) : Text → Bool
  | [] => false
  | c :: tail => shape.first c && tail.all shape.rest && decide (tail.length ≤ shape.bound)

/-- `pattern.match(text)`: the end anchor also matches before a line feed that ends the text. -/
def Shape.found (shape : Shape) : Text → Bool
  | [] => false
  | c :: tail =>
    shape.first c && decide ((tail.takeWhile shape.rest).length ≤ shape.bound) &&
      decide (tail.dropWhile shape.rest = [] ∨ tail.dropWhile shape.rest = [.char '\n'])

/-- `_KEY`. -/
def keyShape : Shape where
  first c := c.within 'a' 'z'
  rest c := c.isLowerAlnum || c ∈ literal "_-"
  bound := 47

/-- `_TAG`. -/
def tagShape : Shape where
  first c := c.isLowerAlnum
  rest c := c.isLowerAlnum || c ∈ literal "._-"
  bound := 39

/-! ## Problems -/

/-- `f"{name}[{index}]"`. -/
def indexed (name : Text) (index : ℕ) : Text :=
  name ++ literal "[" ++ literal (toString index) ++ literal "]"

/-- `f"{where}.{name}"`. -/
def within (place name : Text) : Text := place ++ literal "." ++ name

/-- The order of Python's strings. -/
def textLe (a b : Text) : Bool := a.map Redaction.Code.point ≤ b.map Redaction.Code.point

/-- `sorted(texts)`. -/
def sorted (texts : List Text) : List Text := texts.mergeSort textLe

/-- The problem of one field. -/
def fieldProblem (place key problem : Text) : Text :=
  if place = [] then within key problem else within (within place key) problem

/-- The names a dictionary has and must not have. -/
def extraFields (fields : List (Text × Tree)) (wanted : List Text) : List Text :=
  sorted ((fields.map Prod.fst).filter (· ∉ wanted))

/-- The names a dictionary must have and has not. -/
def missingFields (fields : List (Text × Tree)) (wanted optional : List Text) : List Text :=
  sorted (wanted.filter fun key => key ∉ fields.map Prod.fst ∧ key ∉ optional)

/-- `_exact_keys`: the problems it adds; it returns whether there are none. -/
def exactKeys (item : Tree) (wanted : List Text) (place : Text) (optional : List Text) :
    List Text :=
  match item with
  | .obj fields =>
    (extraFields fields wanted).map (fieldProblem place · (literal "unknown")) ++
      (missingFields fields wanted optional).map (fieldProblem place · (literal "missing"))
  | _ => [within (if place = [] then literal "reply" else place) (literal "not_an_object")]

/-- `item[name]` of a dictionary that has the name, and `item.get(name)` of any. -/
def fieldAt (item : Tree) (name : Text) : Tree :=
  match item with
  | .obj fields => (fields.lookup name).getD .null
  | _ => .null

/-- `_items`: the problem, or the items of a list with their indexes. -/
def items (data : Tree) (name : Text) (limit : ℕ) : List Text × List (Tree × ℕ) :=
  match fieldAt data name with
  | .arr value =>
    if limit < value.length then ([within name (literal "too_many")], []) else ([], value.zipIdx)
  | _ => ([within name (literal "not_a_list")], [])

/-! ## Fields -/

/-- The text of a string. -/
def asText : Tree → Option Text
  | .str text => some text
  | _ => none

/-- `_bounded_text`, with the text. -/
def boundedText (value : Tree) (limit : ℕ) : Option Text :=
  (asText value).filter fun text => ¬ text.all Redaction.Code.isSpace ∧ text.length ≤ limit

/-- A list of strings. -/
def asTexts : Tree → Option (List Text)
  | .arr values => values.mapM asText
  | _ => none

/-- `_ids`. -/
def ids (value : Tree) : Option (List Text) :=
  (asTexts value).filter fun texts =>
    1 ≤ texts.length ∧ texts.length ≤ maxCited ∧ [] ∉ texts ∧ texts.Nodup

/-- `_strings`, with the pattern of its items, if they have one. -/
def strings (value : Tree) (minimum : ℕ) (pattern : Option Shape) : Option (List Text) :=
  (asTexts value).filter fun texts =>
    minimum ≤ texts.length ∧ texts.length ≤ maxListItems ∧
      (texts.all fun text => ¬ text.all Redaction.Code.isSpace ∧ text.length ≤ 500) ∧
      pattern.all fun shape => texts.all shape.found

/-- A key that matches `_KEY`. -/
def keyText (value : Tree) : Option Text := (asText value).filter keyShape.found

/-- The problem of a field that has no value. -/
def problemOf {α : Type} (place : Text) (name : String) (value : Option α) : List Text :=
  if value.isSome then [] else [within place (literal name)]

/-- `_statement`: its problems, and the statement when it has none. -/
def statement (item : Tree) (place sectionName claim : Text) (narrative : Bool) :
    List Text × Option Statement :=
  let key := (keyText (fieldAt item (literal "key"))).filter (· ∉ codeSections)
  let body := boundedText (fieldAt item (literal "body")) maxBodyChars
  let cited := ids (fieldAt item (literal "evidence_ids"))
  (problemOf place "key" key ++ problemOf place "body" body ++ problemOf place "evidence_ids" cited,
    do pure ⟨← key, sectionName, claim, ← body, ← cited, narrative⟩)

/-- `supersedes_revision`: none, or a revision number. -/
def revision : Tree → Option (Option ℤ)
  | .null => some none
  | .int n => if 1 ≤ n then some (some n) else none
  | _ => none

/-- `_proposal`: its problems, and the proposal when it has none. -/
def proposal (item : Tree) (place : Text) : List Text × Option Proposal :=
  let key := keyText (fieldAt item (literal "key"))
  let name := boundedText (fieldAt item (literal "name")) 200
  let tags := strings (fieldAt item (literal "tags")) 0 (some tagShape)
  let symptoms := strings (fieldAt item (literal "symptoms")) 1 none
  let checks := strings (fieldAt item (literal "checks")) 1 none
  let cited := ids (fieldAt item (literal "evidence_ids"))
  let superseded := revision (fieldAt item (literal "supersedes_revision"))
  (problemOf place "key" key ++ problemOf place "name" name ++
    problemOf place "supersedes_revision" superseded ++ problemOf place "tags" tags ++
    problemOf place "symptoms" symptoms ++ problemOf place "checks" checks ++
    problemOf place "evidence_ids" cited,
    do pure ⟨← key, ← name, ← tags, ← symptoms, ← checks, ← cited, ← superseded⟩)

/-! ## Items -/

/-- A dictionary or a list cannot be looked up in a dictionary. -/
def Hashable : Tree → Bool
  | .arr _ | .obj _ => false
  | _ => true

/-- One item of `narrative_sections`. -/
def narrativeItem (entry : Tree × ℕ) : Except Failure (List Text × Option Statement) :=
  let place := indexed (literal "narrative_sections") entry.2
  let problems := exactKeys entry.1 narrativeFields place []
  if problems ≠ [] then .ok (problems, none)
  else if ¬ Hashable (fieldAt entry.1 (literal "section")) then .error .typeError
  else
    match (asText (fieldAt entry.1 (literal "section"))).bind fun sectionName =>
        (narrativeSections.lookup sectionName).map fun claim => (sectionName, claim) with
    | none => .ok ([within place (literal "section")], none)
    | some (sectionName, claim) => .ok (statement entry.1 place sectionName claim true)

/-- One item of `conclusions`. -/
def conclusionItem (entry : Tree × ℕ) : List Text × Option Statement :=
  let place := indexed (literal "conclusions") entry.2
  let problems := exactKeys entry.1 conclusionFields place []
  if problems ≠ [] then (problems, none)
  else
    match (asText (fieldAt entry.1 (literal "section"))).filter (· ∈ conclusionSections) with
    | none => ([within place (literal "section")], none)
    | some sectionName =>
      match (asText (fieldAt entry.1 (literal "claim"))).filter (· ∈ claims) with
      | none => ([within place (literal "claim")], none)
      | some claim => statement entry.1 place sectionName claim false

/-- One item of `proposals`. -/
def proposalItem (entry : Tree × ℕ) : List Text × Option Proposal :=
  let place := indexed (literal "proposals") entry.2
  let problems := exactKeys entry.1 proposalFields place proposalOptionalFields
  if problems ≠ [] then (problems, none) else proposal entry.1 place

/-- One item of `disputes`, given the keys of the statements. -/
def disputeItem (keys : List Text) (entry : Tree × ℕ) : List Text × Option (Text × Text) :=
  let place := indexed (literal "disputes") entry.2
  let problems := exactKeys entry.1 disputeFields place []
  if problems ≠ [] then (problems, none)
  else
    match (asText (fieldAt entry.1 (literal "conclusion_key"))).filter (· ∈ keys) with
    | none => ([within place (literal "conclusion_key")], none)
    | some key =>
      match boundedText (fieldAt entry.1 (literal "reason")) 1000 with
      | none => ([within place (literal "reason")], none)
      | some reason => ([], some (key, reason))

/-! ## The reply -/

section

variable {α : Type}

/-- The problems of the items of a list, after those of the list. -/
def problemsOf (listed : List Text) (read : List (List Text × Option α)) : List Text :=
  listed ++ (read.map Prod.fst).flatten

/-- The values of the items that have one. -/
def valuesOf (read : List (List Text × Option α)) : List α := read.filterMap Prod.snd

end

/-- The problem of a condition that fails. -/
def failing (problem : String) (ok : Bool) : List Text := if ok then [] else [literal problem]

/-- The problems of the reply and what was read of it, given what was read of the narrative
sections. -/
def readRest (data : Tree) (narrative : List (List Text × Option Statement)) :
    List Text × ModelOutput :=
  let conclusions := (items data (literal "conclusions") maxConclusions)
  let concluded := conclusions.2.map conclusionItem
  let statements := valuesOf narrative ++ valuesOf concluded
  let keys := statements.map Statement.key
  let proposed := items data (literal "proposals") maxProposals
  let proposals := proposed.2.map proposalItem
  let disputed := items data (literal "disputes") maxDisputes
  let disputes := disputed.2.map (disputeItem keys)
  (problemsOf (items data (literal "narrative_sections") maxNarrativeSections).1 narrative ++
    problemsOf conclusions.1 concluded ++
    failing "narrative_sections.impact_summary_missing"
      (statements.any fun s => s.narrative ∧ s.section = literal "impact_summary") ++
    failing "DUPLICATE_STATEMENT_KEY" keys.Nodup ++
    problemsOf proposed.1 proposals ++
    failing "DUPLICATE_PROPOSAL_KEY" ((valuesOf proposals).map Proposal.key).Nodup ++
    problemsOf disputed.1 disputes,
    ⟨statements, valuesOf proposals, valuesOf disputes⟩)

/-- `parse_model_output` after `json.loads`. -/
def parseValue (data : Tree) : Except Failure ModelOutput :=
  match data with
  | .obj _ => do
    let problems := exactKeys data outputFields [] []
    refuse (problems ≠ []) (.outputInvalid problems)
    let narrative ←
      (items data (literal "narrative_sections") maxNarrativeSections).2.mapM narrativeItem
    let read := readRest data narrative
    refuse (read.1 ≠ []) (.outputInvalid read.1)
    pure read.2
  | _ => .error (.outputInvalid [literal "NOT_AN_OBJECT"])

/-- `parse_model_output`. -/
def parseModelOutput [JsonTexts] (text : Option Text) : Except Failure ModelOutput :=
  match text with
  | none => .error (.outputInvalid [literal "EMPTY_REPLY"])
  | some text =>
    if text.all Redaction.Code.isSpace then .error (.outputInvalid [literal "EMPTY_REPLY"])
    else
      match loads distinct text with
      | .error .duplicateKey => .error (.outputInvalid [literal "DUPLICATE_KEY"])
      | .error .invalid => .error (.outputInvalid [literal "NOT_JSON"])
      | .ok data => parseValue data

/-! ## The documented grammar -/

/-- The text has the shape; in the lax grammar it may have a line feed after it. -/
def Named (lax : Bool) (shape : Shape) (text : Text) : Prop :=
  shape.full text = true ∨ lax = true ∧ ∃ name, text = name ++ [.char '\n'] ∧ shape.full name = true

/-- An object with the names wanted and no others; those that are optional may be missing. -/
def HasFields (item : Tree) (wanted optional : List Text) : Prop :=
  ∃ fields, item = .obj fields ∧ (∀ key ∈ fields.map Prod.fst, key ∈ wanted) ∧
    ∀ key ∈ wanted, key ∉ optional → key ∈ fields.map Prod.fst

/-- A text that is not blank, of at most `limit` characters. -/
structure Bounded (limit : ℕ) (text : Text) : Prop where
  visible : text.all Redaction.Code.isSpace = false
  length_le : text.length ≤ limit

/-- Ids that are cited: some, none of them empty or twice. -/
structure Cited (texts : List Text) : Prop where
  pos : 1 ≤ texts.length
  length_le : texts.length ≤ maxCited
  ne_nil : [] ∉ texts
  nodup : texts.Nodup

/-- The strings of a list. -/
structure Texts (minimum : ℕ) (texts : List Text) : Prop where
  minimum_le : minimum ≤ texts.length
  length_le : texts.length ≤ maxListItems
  bounded : ∀ text ∈ texts, Bounded 500 text

/-- The array of some texts. -/
def ofTexts (texts : List Text) : Tree := .arr (texts.map .str)

/-- What an item says of a statement, beside its section and its claim. -/
structure IsStatement (lax : Bool) (item : Tree) (s : Statement) : Prop where
  key : fieldAt item (literal "key") = .str s.key
  named : Named lax keyShape s.key
  free : s.key ∉ codeSections
  body : fieldAt item (literal "body") = .str s.body
  bounded : Bounded maxBodyChars s.body
  ids : fieldAt item (literal "evidence_ids") = ofTexts s.evidenceIds
  cited : Cited s.evidenceIds

/-- An item of `narrative_sections`. -/
structure IsNarrative (lax : Bool) (item : Tree) (s : Statement) : Prop
    extends IsStatement lax item s where
  fields : HasFields item narrativeFields []
  sectionName : fieldAt item (literal "section") = .str s.section
  claim : narrativeSections.lookup s.section = some s.claim
  narrative : s.narrative = true

/-- An item of `conclusions`. -/
structure IsConclusion (lax : Bool) (item : Tree) (s : Statement) : Prop
    extends IsStatement lax item s where
  fields : HasFields item conclusionFields []
  sectionName : fieldAt item (literal "section") = .str s.section
  inSections : s.section ∈ conclusionSections
  claim : fieldAt item (literal "claim") = .str s.claim
  inClaims : s.claim ∈ claims
  narrative : s.narrative = false

/-- An item of `proposals`. -/
structure IsProposal (lax : Bool) (item : Tree) (p : Proposal) : Prop where
  fields : HasFields item proposalFields proposalOptionalFields
  key : fieldAt item (literal "key") = .str p.key
  named : Named lax keyShape p.key
  name : fieldAt item (literal "name") = .str p.name
  bounded : Bounded 200 p.name
  tags : fieldAt item (literal "tags") = ofTexts p.tags
  tagTexts : Texts 0 p.tags
  tagged : ∀ tag ∈ p.tags, Named lax tagShape tag
  symptoms : fieldAt item (literal "symptoms") = ofTexts p.symptoms
  symptomTexts : Texts 1 p.symptoms
  checks : fieldAt item (literal "checks") = ofTexts p.checks
  checkTexts : Texts 1 p.checks
  ids : fieldAt item (literal "evidence_ids") = ofTexts p.evidenceIds
  cited : Cited p.evidenceIds
  revision : fieldAt item (literal "supersedes_revision") = p.supersedesRevision.elim .null .int
  positive : ∀ n ∈ p.supersedesRevision, 1 ≤ n

/-- An item of `disputes`, given the keys of the statements. -/
structure IsDispute (keys : List Text) (item : Tree) (d : Text × Text) : Prop where
  fields : HasFields item disputeFields []
  key : fieldAt item (literal "conclusion_key") = .str d.1
  known : d.1 ∈ keys
  reason : fieldAt item (literal "reason") = .str d.2
  bounded : Bounded 1000 d.2

/-- A field lists the values, in order. -/
def Listed {α : Type} (data : Tree) (name : Text) (limit : ℕ) (R : Tree → α → Prop)
    (values : List α) : Prop :=
  ∃ entries, fieldAt data name = .arr entries ∧ entries.length ≤ limit ∧
    List.Forall₂ R entries values

/-- **The documented grammar**: what an object says, item by item. -/
structure Denotes (lax : Bool) (data : Tree) (out : ModelOutput) : Prop where
  fields : HasFields data outputFields []
  statements : ∃ narrative conclusions, out.statements = narrative ++ conclusions ∧
    Listed data (literal "narrative_sections") maxNarrativeSections (IsNarrative lax) narrative ∧
    Listed data (literal "conclusions") maxConclusions (IsConclusion lax) conclusions
  summary : ∃ s ∈ out.statements, s.narrative = true ∧ s.section = literal "impact_summary"
  keys : (out.statements.map Statement.key).Nodup
  proposals : Listed data (literal "proposals") maxProposals (IsProposal lax) out.proposals
  proposalKeys : (out.proposals.map Proposal.key).Nodup
  disputes : Listed data (literal "disputes") maxDisputes
    (IsDispute (out.statements.map Statement.key)) out.disputes

/-! ## Shapes -/

variable {shape : Shape} {texts wanted optional : List Text} {limit : ℕ} {item : Tree}
  {place sectionName : Text}

theorem Shape.found_iff (hrest : shape.rest '\n' = false) (text : Text) :
    shape.found text = true ↔ Named true shape text := by
  cases text with
  | nil =>
    simp only [Shape.found, Named, Shape.full, Bool.false_eq_true, true_and, false_or, false_iff,
      not_exists, not_and]
    rintro name hname
    simp at hname
  | cons c tail =>
    have hsplit := List.takeWhile_append_dropWhile (p := shape.rest) (l := tail)
    have hall : (tail.takeWhile shape.rest).all shape.rest = true := List.all_takeWhile
    simp only [Shape.found, Bool.and_eq_true, decide_eq_true_eq, Named, true_and]
    constructor
    · rintro ⟨⟨hfirst, hlength⟩, hend | hend⟩
      · rw [hend, List.append_nil] at hsplit
        rw [hsplit] at hall hlength
        exact .inl (by simp [Shape.full, hfirst, hall, hlength])
      · rw [hend] at hsplit
        refine .inr ⟨c :: tail.takeWhile shape.rest, by rw [List.cons_append, hsplit], ?_⟩
        simp only [Shape.full, hfirst, hall, hlength, Bool.and_self, decide_true]
    · rintro (hfull | ⟨name, hname, hfull⟩)
      · simp only [Shape.full, Bool.and_eq_true, decide_eq_true_eq, List.all_eq_true] at hfull
        obtain ⟨⟨hfirst, hrest'⟩, hlength⟩ := hfull
        rw [List.takeWhile_eq_self_iff.2 hrest', List.dropWhile_eq_nil_iff.2 hrest']
        exact ⟨⟨hfirst, hlength⟩, .inl rfl⟩
      · cases name with
        | nil => simp [Shape.full] at hfull
        | cons c' name =>
          rw [List.cons_append, List.cons.injEq] at hname
          obtain ⟨rfl, rfl⟩ := hname
          simp only [Shape.full, Bool.and_eq_true, decide_eq_true_eq, List.all_eq_true] at hfull
          obtain ⟨⟨hfirst, hrest'⟩, hlength⟩ := hfull
          rw [List.takeWhile_append_of_pos hrest', List.dropWhile_append_of_pos hrest']
          simp [hrest, hfirst, hlength]

theorem keyShape_found (text : Text) : keyShape.found text = true ↔ Named true keyShape text :=
  Shape.found_iff (by decide) text

theorem tagShape_found (text : Text) : tagShape.found text = true ↔ Named true tagShape text :=
  Shape.found_iff (by decide) text

/-- The lax grammar is no stricter. -/
theorem Named.lax {lax : Bool} {text : Text} (h : Named false shape text) :
    Named lax shape text :=
  h.elim .inl fun h => absurd h.1 (by decide)

/-! ## What the fields hold -/

theorem asText_eq_some {value : Tree} {text : Text} : asText value = some text ↔ value = .str text := by
  cases value <;> simp [asText]

theorem asTexts_eq_some {value : Tree} :
    asTexts value = some texts ↔ value = ofTexts texts := by
  have hitems : ∀ values : List Tree, values.mapM asText = some texts ↔ values = texts.map .str := by
    intro values
    induction values generalizing texts with
    | nil => cases texts <;> simp
    | cons value values ih =>
      cases texts with
      | nil => simp [List.mapM_cons, Option.bind_eq_some_iff]
      | cons text texts =>
        simp only [List.mapM_cons, Option.pure_def, Option.bind_eq_bind, Option.bind_eq_some_iff,
          asText_eq_some, ih, Option.some.injEq, List.cons.injEq, List.map_cons]
        constructor
        · rintro ⟨a, ha, b, hb, rfl, rfl⟩
          exact ⟨ha, hb⟩
        · rintro ⟨hvalue, hvalues⟩
          exact ⟨text, hvalue, texts, hvalues, rfl, rfl⟩
  cases value with
  | arr values => simp only [asTexts, hitems, ofTexts, Tree.arr.injEq]
  | _ => simp [asTexts, ofTexts]

theorem boundedText_eq_some {value : Tree} {text : Text} :
    boundedText value limit = some text ↔ value = .str text ∧ Bounded limit text := by
  simp only [boundedText, Option.filter_eq_some_iff, asText_eq_some, decide_eq_true_eq,
    Bool.not_eq_true]
  exact and_congr_right fun _ => ⟨fun h => ⟨h.1, h.2⟩, fun h => ⟨h.1, h.2⟩⟩

theorem ids_eq_some {value : Tree} :
    ids value = some texts ↔ value = ofTexts texts ∧ Cited texts := by
  simp only [ids, Option.filter_eq_some_iff, asTexts_eq_some, decide_eq_true_eq]
  exact and_congr_right fun _ =>
    ⟨fun h => ⟨h.1, h.2.1, h.2.2.1, h.2.2.2⟩, fun h => ⟨h.1, h.2, h.3, h.4⟩⟩

theorem strings_eq_some {value : Tree} {minimum : ℕ} {pattern : Option Shape} :
    strings value minimum pattern = some texts ↔ value = ofTexts texts ∧ Texts minimum texts ∧
      ∀ shape ∈ pattern, ∀ text ∈ texts, shape.found text = true := by
  simp only [strings, Option.filter_eq_some_iff, asTexts_eq_some, decide_eq_true_eq,
    Bool.not_eq_true, Option.all_eq_true_iff_get]
  simp only [List.all_eq_true, decide_eq_true_eq]
  refine and_congr_right fun _ => ⟨fun h => ?_, fun h => ?_⟩
  · obtain ⟨hmin, hlength, hbounded, hpattern⟩ := h
    refine ⟨⟨hmin, hlength, fun text hmem => ⟨(hbounded text hmem).1, (hbounded text hmem).2⟩⟩, ?_⟩
    rintro shape hshape
    obtain rfl := Option.mem_def.1 hshape
    exact hpattern rfl
  · obtain ⟨⟨hmin, hlength, hbounded⟩, hpattern⟩ := h
    refine ⟨hmin, hlength, fun text hmem => ⟨(hbounded text hmem).1, (hbounded text hmem).2⟩, ?_⟩
    intro hsome
    exact hpattern _ (Option.get_mem hsome)

theorem keyText_eq_some {value : Tree} {text : Text} :
    keyText value = some text ↔ value = .str text ∧ Named true keyShape text := by
  simp only [keyText, Option.filter_eq_some_iff, asText_eq_some, keyShape_found]

theorem revision_eq_some {value : Tree} {r : Option ℤ} :
    revision value = some r ↔ value = r.elim .null .int ∧ ∀ n ∈ r, 1 ≤ n := by
  cases value <;> cases r <;> simp [revision]
  constructor
  · rintro ⟨hpos, rfl⟩
    exact ⟨rfl, hpos⟩
  · rintro ⟨rfl, hpos⟩
    exact ⟨hpos, rfl⟩

theorem sorted_eq_nil : sorted texts = [] ↔ texts = [] := by
  rw [sorted, ← List.length_eq_zero_iff, List.length_mergeSort, List.length_eq_zero_iff]

/-- **What `_exact_keys` accepts.** -/
theorem exactKeys_eq_nil :
    exactKeys item wanted place optional = [] ↔ HasFields item wanted optional := by
  cases item with
  | obj fields =>
    simp only [exactKeys, List.append_eq_nil_iff, List.map_eq_nil_iff, extraFields, missingFields,
      sorted_eq_nil, List.filter_eq_nil_iff, decide_eq_true_eq, not_not, not_and, HasFields,
      Tree.obj.injEq, exists_eq_left']
    refine and_congr_right fun _ => forall₂_congr fun key hkey => ?_
    tauto
  | _ => simp [exactKeys, HasFields]

theorem problemOf_eq_nil {α : Type} {name : String} {value : Option α} :
    problemOf place name value = [] ↔ ∃ a, value = some a := by
  cases value <;> simp [problemOf]

/-! ## What the items hold -/

/-- A reader of items: it reads what the grammar says, and whatever it does not read is a
problem. -/
structure Reads {α β : Type} (f : β → List Text × Option α) (R : β → α → Prop) : Prop where
  iff : ∀ e a, f e = ([], some a) ↔ R e a
  total : ∀ e, (f e).1 = [] → ∃ a, (f e).2 = some a

/-- An item whose names are checked first. -/
theorem Reads.of_fields {α : Type} {f : Tree × ℕ → List Text × Option α} {R : Tree → α → Prop}
    {place : ℕ → Text}
    (hiff : ∀ e a, HasFields e.1 wanted optional → (f e = ([], some a) ↔ R e.1 a))
    (hfields : ∀ item a, R item a → HasFields item wanted optional)
    (htotal : ∀ e, (f e).1 = [] → ∃ a, (f e).2 = some a) :
    Reads (fun e => if exactKeys e.1 wanted (place e.2) optional ≠ [] then
      (exactKeys e.1 wanted (place e.2) optional, none) else f e) fun e => R e.1 where
  iff e a := by
    split
    · next hne =>
      rw [ne_eq, exactKeys_eq_nil] at hne
      simp only [Prod.mk.injEq, reduceCtorEq, and_false, false_iff]
      exact fun hR => hne (hfields _ _ hR)
    · next heq =>
      rw [ne_eq, not_not, exactKeys_eq_nil] at heq
      exact hiff e a heq
  total e h := by
    split at h
    · next hne => exact absurd h hne
    · next heq =>
      rw [if_neg heq]
      exact htotal e h

theorem statement_total (item : Tree) (place sectionName claim : Text) (narrative : Bool)
    (h : (statement item place sectionName claim narrative).1 = []) :
    ∃ s, (statement item place sectionName claim narrative).2 = some s := by
  simp only [statement, List.append_eq_nil_iff, problemOf_eq_nil] at h
  obtain ⟨⟨⟨key, hkey⟩, body, hbody⟩, cited, hcited⟩ := h
  exact ⟨_, by simp only [statement, hkey, hbody, hcited]; rfl⟩

/-- **What `_statement` reads.** -/
theorem statement_eq_some {claim : Text} {narrative : Bool} {s : Statement} :
    statement item place sectionName claim narrative = ([], some s) ↔
      IsStatement true item s ∧ s.section = sectionName ∧ s.claim = claim ∧
        s.narrative = narrative := by
  constructor
  · intro h
    obtain ⟨hnil, hsome⟩ := Prod.mk.inj h
    simp only [List.append_eq_nil_iff, problemOf_eq_nil] at hnil
    obtain ⟨⟨⟨key, hkey⟩, body, hbody⟩, cited, hcited⟩ := hnil
    simp only [hkey, hbody, hcited, Option.bind_eq_bind, Option.bind_some, Option.pure_def,
      Option.some.injEq] at hsome
    subst hsome
    obtain ⟨hkey, hfree⟩ := Option.filter_eq_some_iff.1 hkey
    rw [keyText_eq_some] at hkey
    rw [boundedText_eq_some] at hbody
    rw [ids_eq_some] at hcited
    exact ⟨⟨hkey.1, hkey.2, of_decide_eq_true hfree, hbody.1, hbody.2, hcited.1, hcited.2⟩, rfl, rfl,
      rfl⟩
  · rintro ⟨h, rfl, rfl, rfl⟩
    have hkey : (keyText (fieldAt item (literal "key"))).filter (· ∉ codeSections) = some s.key :=
      Option.filter_eq_some_iff.2 ⟨keyText_eq_some.2 ⟨h.key, h.named⟩, decide_eq_true h.free⟩
    have hbody := boundedText_eq_some.2 ⟨h.body, h.bounded⟩
    have hcited := ids_eq_some.2 ⟨h.ids, h.cited⟩
    simp only [statement, hkey, hbody, hcited, problemOf]
    rfl

theorem proposal_total (item : Tree) (place : Text) (h : (proposal item place).1 = []) :
    ∃ p, (proposal item place).2 = some p := by
  simp only [proposal, List.append_eq_nil_iff, problemOf_eq_nil] at h
  obtain ⟨⟨⟨⟨⟨⟨⟨key, hkey⟩, name, hname⟩, superseded, hsuperseded⟩, tags, htags⟩, symptoms,
    hsymptoms⟩, checks, hchecks⟩, cited, hcited⟩ := h
  exact ⟨_, by
    simp only [proposal, hkey, hname, hsuperseded, htags, hsymptoms, hchecks, hcited]
    rfl⟩

/-- **What `_proposal` reads** of an item with the right names. -/
theorem proposal_eq_some {p : Proposal}
    (hfields : HasFields item proposalFields proposalOptionalFields) :
    proposal item place = ([], some p) ↔ IsProposal true item p := by
  have htagged : ∀ tags : List Text, (∀ shape ∈ some tagShape, ∀ text ∈ tags,
      shape.found text = true) ↔ ∀ tag ∈ tags, Named true tagShape tag := by
    intro tags
    simp only [Option.mem_some_iff, forall_eq', tagShape_found]
  constructor
  · intro h
    obtain ⟨hnil, hsome⟩ := Prod.mk.inj h
    simp only [List.append_eq_nil_iff, problemOf_eq_nil] at hnil
    obtain ⟨⟨⟨⟨⟨⟨⟨key, hkey⟩, name, hname⟩, superseded, hsuperseded⟩, tags, htags⟩, symptoms,
      hsymptoms⟩, checks, hchecks⟩, cited, hcited⟩ := hnil
    simp only [hkey, hname, hsuperseded, htags, hsymptoms, hchecks, hcited, Option.bind_eq_bind,
      Option.bind_some, Option.pure_def, Option.some.injEq] at hsome
    subst hsome
    rw [keyText_eq_some] at hkey
    rw [boundedText_eq_some] at hname
    rw [revision_eq_some] at hsuperseded
    rw [strings_eq_some, htagged] at htags
    rw [strings_eq_some] at hsymptoms hchecks
    rw [ids_eq_some] at hcited
    exact ⟨hfields, hkey.1, hkey.2, hname.1, hname.2, htags.1, htags.2.1, htags.2.2, hsymptoms.1,
      hsymptoms.2.1, hchecks.1, hchecks.2.1, hcited.1, hcited.2, hsuperseded.1, hsuperseded.2⟩
  · intro h
    have hkey := keyText_eq_some.2 ⟨h.key, h.named⟩
    have hname := boundedText_eq_some.2 ⟨h.name, h.bounded⟩
    have hsuperseded := revision_eq_some.2 ⟨h.revision, h.positive⟩
    have htags := strings_eq_some.2 ⟨h.tags, h.tagTexts, (htagged _).2 h.tagged⟩
    have hsymptoms := strings_eq_some.2
      ⟨h.symptoms, h.symptomTexts, fun _ hnone => absurd hnone (Option.not_mem_none _)⟩
    have hchecks := strings_eq_some.2
      ⟨h.checks, h.checkTexts, fun _ hnone => absurd hnone (Option.not_mem_none _)⟩
    have hcited := ids_eq_some.2 ⟨h.ids, h.cited⟩
    simp only [proposal, hkey, hname, hsuperseded, htags, hsymptoms, hchecks, hcited, problemOf]
    rfl

theorem proposalItem_reads : Reads proposalItem fun e => IsProposal true e.1 :=
  Reads.of_fields (f := fun e => proposal e.1 (indexed (literal "proposals") e.2))
    (fun _ _ hfields => proposal_eq_some hfields) (fun _ _ h => h.fields)
    fun e h => proposal_total e.1 _ h

/-- The value of a field that a condition keeps. -/
theorem filter_asText_eq_some {value : Tree} {p : Text → Bool} {text : Text} :
    (asText value).filter p = some text ↔ value = .str text ∧ p text = true := by
  rw [Option.filter_eq_some_iff, asText_eq_some]

theorem conclusionItem_reads : Reads conclusionItem fun e => IsConclusion true e.1 := by
  refine Reads.of_fields (f := fun e =>
    match (asText (fieldAt e.1 (literal "section"))).filter (· ∈ conclusionSections) with
    | none => ([within (indexed (literal "conclusions") e.2) (literal "section")], none)
    | some sectionName =>
      match (asText (fieldAt e.1 (literal "claim"))).filter (· ∈ claims) with
      | none => ([within (indexed (literal "conclusions") e.2) (literal "claim")], none)
      | some claim =>
        statement e.1 (indexed (literal "conclusions") e.2) sectionName claim false)
    (fun e s hfields => ?_) (fun _ _ h => h.fields) fun e h => ?_
  · constructor
    · intro h
      split at h
      · simp at h
      · next sectionName hsection =>
        split at h
        · simp at h
        · next claim hclaim =>
          obtain ⟨hs, rfl, rfl, hnarrative⟩ := statement_eq_some.1 h
          obtain ⟨hsection, hsections⟩ := filter_asText_eq_some.1 hsection
          obtain ⟨hclaim, hclaims⟩ := filter_asText_eq_some.1 hclaim
          exact { hs with
            fields := hfields, sectionName := hsection, inSections := of_decide_eq_true hsections
            claim := hclaim, inClaims := of_decide_eq_true hclaims, narrative := hnarrative }
    · intro h
      rw [filter_asText_eq_some.2 ⟨h.sectionName, decide_eq_true h.inSections⟩]
      dsimp only
      rw [filter_asText_eq_some.2 ⟨h.claim, decide_eq_true h.inClaims⟩]
      exact statement_eq_some.2 ⟨h.toIsStatement, rfl, rfl, h.narrative⟩
  · split at h
    · simp at h
    · split at h
      · simp at h
      · exact statement_total _ _ _ _ _ h

theorem disputeItem_reads (keys : List Text) :
    Reads (disputeItem keys) fun e => IsDispute keys e.1 := by
  refine Reads.of_fields (f := fun e =>
    match (asText (fieldAt e.1 (literal "conclusion_key"))).filter (· ∈ keys) with
    | none => ([within (indexed (literal "disputes") e.2) (literal "conclusion_key")], none)
    | some key =>
      match boundedText (fieldAt e.1 (literal "reason")) 1000 with
      | none => ([within (indexed (literal "disputes") e.2) (literal "reason")], none)
      | some reason => ([], some (key, reason)))
    (fun e d hfields => ?_) (fun _ _ h => h.fields) fun e h => ?_
  · constructor
    · intro h
      split at h
      · simp at h
      · next key hkey =>
        split at h
        · simp at h
        · next reason hreason =>
          simp only [Prod.mk.injEq, Option.some.injEq, true_and] at h
          subst h
          obtain ⟨hkey, hknown⟩ := filter_asText_eq_some.1 hkey
          obtain ⟨hreason, hbounded⟩ := boundedText_eq_some.1 hreason
          exact ⟨hfields, hkey, of_decide_eq_true hknown, hreason, hbounded⟩
    · intro h
      rw [filter_asText_eq_some.2 ⟨h.key, decide_eq_true h.known⟩]
      dsimp only
      rw [boundedText_eq_some.2 ⟨h.reason, h.bounded⟩]
  · split at h
    · simp at h
    · split at h
      · simp at h
      · exact ⟨_, rfl⟩

/-! ## Narrative sections -/

/-- An item the parser cannot look at: its names are right, and its section is a list or an
object. -/
def Unhashable (item : Tree) : Prop :=
  HasFields item narrativeFields [] ∧ Hashable (fieldAt item (literal "section")) = false

/-- What is read of an item of `narrative_sections` that can be looked at. -/
def narrativeRead (entry : Tree × ℕ) : List Text × Option Statement :=
  match narrativeItem entry with
  | .ok read => read
  | .error _ => ([literal "TypeError"], none)

theorem narrativeItem_cases (entry : Tree × ℕ) :
    Unhashable entry.1 ∧ narrativeItem entry = .error .typeError ∨
      ¬ Unhashable entry.1 ∧ narrativeItem entry = .ok (narrativeRead entry) := by
  unfold narrativeRead
  by_cases hfields : HasFields entry.1 narrativeFields []
  · have hnil : exactKeys entry.1 narrativeFields (indexed (literal "narrative_sections") entry.2)
        [] = [] := exactKeys_eq_nil.2 hfields
    cases hhash : Hashable (fieldAt entry.1 (literal "section")) with
    | false =>
      refine .inl ⟨⟨hfields, hhash⟩, ?_⟩
      simp [narrativeItem, hnil, hhash]
    | true =>
      refine .inr ⟨fun h => absurd (hhash.symm.trans h.2) (by decide), ?_⟩
      simp only [narrativeItem, hnil, hhash, ne_eq, not_true_eq_false, if_false]
      split <;> rfl
  · have hne : exactKeys entry.1 narrativeFields (indexed (literal "narrative_sections") entry.2)
        [] ≠ [] := mt exactKeys_eq_nil.1 hfields
    refine .inr ⟨fun h => hfields h.1, ?_⟩
    simp only [narrativeItem, ne_eq, hne, not_false_eq_true, if_true]

/-- A section with its claim. -/
theorem lookup_section_eq_some {value : Tree} {claim : Text} :
    ((asText value).bind fun sectionName =>
      (narrativeSections.lookup sectionName).map fun claim => (sectionName, claim)) =
        some (sectionName, claim) ↔
      value = .str sectionName ∧ narrativeSections.lookup sectionName = some claim := by
  simp only [Option.bind_eq_some_iff, asText_eq_some, Option.map_eq_some_iff, Prod.mk.injEq]
  constructor
  · rintro ⟨name, hvalue, claim', hclaim, rfl, rfl⟩
    exact ⟨hvalue, hclaim⟩
  · rintro ⟨hvalue, hclaim⟩
    exact ⟨sectionName, hvalue, claim, hclaim, rfl, rfl⟩

theorem IsNarrative.hashable {lax : Bool} {s : Statement} (h : IsNarrative lax item s) :
    ¬ Unhashable item := by
  rintro ⟨-, hhash⟩
  rw [h.sectionName] at hhash
  cases hhash

theorem narrativeRead_reads : Reads narrativeRead fun e s => IsNarrative true e.1 s where
  iff e s := by
    rcases narrativeItem_cases e with ⟨hun, herror⟩ | ⟨hhash, hok⟩
    · rw [narrativeRead, herror]
      exact ⟨fun h => by simp at h, fun h => absurd hun h.hashable⟩
    rw [← Except.ok.injEq (ε := Failure), ← hok]
    constructor
    · intro h
      unfold narrativeItem at h
      dsimp only at h
      split_ifs at h with hfields hsection
      · simp at h
      · rw [ne_eq, not_not, exactKeys_eq_nil] at hfields
        split at h
        · simp at h
        · next sectionName claim hlookup =>
          obtain ⟨hvalue, hclaim⟩ := lookup_section_eq_some.1 hlookup
          obtain ⟨hs, rfl, rfl, hnarrative⟩ := statement_eq_some.1 (Except.ok.inj h)
          exact { hs with
            fields := hfields, sectionName := hvalue, claim := hclaim, narrative := hnarrative }
    · intro h
      have hnil : exactKeys e.1 narrativeFields (indexed (literal "narrative_sections") e.2) [] =
          [] := exactKeys_eq_nil.2 h.fields
      have hlookup := lookup_section_eq_some.2 ⟨h.sectionName, h.claim⟩
      have hstatement : statement e.1 (indexed (literal "narrative_sections") e.2) s.section s.claim
          true = ([], some s) := statement_eq_some.2 ⟨h.toIsStatement, rfl, rfl, h.narrative⟩
      have hhash : Hashable (fieldAt e.1 (literal "section")) = true := by
        rw [h.sectionName]
        rfl
      simp only [narrativeItem, hnil, ne_eq, not_true_eq_false, if_false, hhash, hlookup, hstatement]
  total e h := by
    rcases narrativeItem_cases e with ⟨hun, herror⟩ | ⟨hhash, hok⟩
    · simp [narrativeRead, herror] at h
    · generalize narrativeRead e = read at h hok ⊢
      unfold narrativeItem at hok
      dsimp only at hok
      split_ifs at hok with hfields hsection
      · obtain rfl := Except.ok.inj hok
        exact absurd h hfields
      · split at hok
        · obtain rfl := Except.ok.inj hok
          simp at h
        · obtain rfl := Except.ok.inj hok
          exact statement_total _ _ _ _ _ h

/-! ## Lists -/

/-- **What is read of a list**: its items, one by one. -/
theorem Reads.listed {α : Type} {f : Tree × ℕ → List Text × Option α} {R : Tree → α → Prop}
    (h : Reads f fun e => R e.1) {data : Tree} {name : Text} {values : List α} :
    problemsOf (items data name limit).1 ((items data name limit).2.map f) = [] ∧
        valuesOf ((items data name limit).2.map f) = values ↔
      Listed data name limit R values := by
  have hitems : ∀ (entries : List Tree) (k : ℕ) (values : List α),
      (((entries.zipIdx k).map f).map Prod.fst).flatten = [] ∧
          ((entries.zipIdx k).map f).filterMap Prod.snd = values ↔ List.Forall₂ R entries values := by
    intro entries
    induction entries with
    | nil =>
      intro k values
      simp [eq_comm]
    | cons entry entries ih =>
      intro k values
      simp only [List.zipIdx_cons, List.map_cons, List.flatten_cons, List.append_eq_nil_iff,
        List.filterMap_cons]
      constructor
      · rintro ⟨⟨hfirst, hrest⟩, rfl⟩
        obtain ⟨a, ha⟩ := h.total _ hfirst
        rw [ha]
        exact .cons ((h.iff _ a).1 (Prod.ext hfirst ha)) ((ih (k + 1) _).1 ⟨hrest, rfl⟩)
      · rintro (_ | ⟨hfirst, hrest⟩)
        obtain ⟨hproblems, hvalues⟩ := (ih (k + 1) _).2 hrest
        rw [(h.iff (entry, k) _).2 hfirst]
        exact ⟨⟨rfl, hproblems⟩, congrArg _ hvalues⟩
  unfold items Listed problemsOf valuesOf
  cases hdata : fieldAt data name with
  | arr entries =>
    dsimp only
    split
    · next hlimit =>
      simp only [List.cons_append, reduceCtorEq, false_and, Tree.arr.injEq, false_iff, not_exists,
        not_and]
      rintro entries' rfl hlength
      omega
    · next hlimit =>
      simp only [List.nil_append, hitems, Tree.arr.injEq, exists_eq_left', not_lt.1 hlimit, true_and]
  | _ => simp

/-! ## The whole reply -/

theorem failing_eq_nil {problem : String} {ok : Bool} : failing problem ok = [] ↔ ok = true := by
  cases ok <;> simp [failing]

/-- The narrative sections are read, unless the parser cannot look at one of them. -/
theorem mapM_narrativeItem (entries : List (Tree × ℕ)) :
    (∃ e ∈ entries, Unhashable e.1) ∧ entries.mapM narrativeItem = .error .typeError ∨
      (∀ e ∈ entries, ¬ Unhashable e.1) ∧
        entries.mapM narrativeItem = .ok (entries.map narrativeRead) := by
  induction entries with
  | nil => exact .inr ⟨by simp, rfl⟩
  | cons e entries ih =>
    rw [List.mapM_cons]
    rcases narrativeItem_cases e with ⟨hun, herror⟩ | ⟨hhash, hok⟩
    · rw [herror]
      exact .inl ⟨⟨e, List.mem_cons_self, hun⟩, rfl⟩
    · rw [hok]
      rcases ih with ⟨⟨e', hmem, hun⟩, herror⟩ | ⟨hall, hrest⟩
      · rw [herror]
        exact .inl ⟨⟨e', List.mem_cons_of_mem _ hmem, hun⟩, rfl⟩
      · rw [hrest]
        refine .inr ⟨fun e' hmem => ?_, rfl⟩
        rcases List.mem_cons.1 hmem with rfl | hmem
        · exact hhash
        · exact hall e' hmem

/-- **What is read of a reply** whose narrative sections could be looked at. -/
theorem readRest_eq {data : Tree} {out : ModelOutput} (hfields : HasFields data outputFields []) :
    readRest data ((items data (literal "narrative_sections") maxNarrativeSections).2.map
      narrativeRead) = ([], out) ↔ Denotes true data out := by
  set narrative := (items data (literal "narrative_sections") maxNarrativeSections).2.map
    narrativeRead
  simp only [readRest, Prod.mk.injEq, List.append_eq_nil_iff, failing_eq_nil, decide_eq_true_eq,
    List.any_eq_true]
  constructor
  · rintro ⟨⟨⟨⟨⟨⟨⟨hnarrative, hconclusions⟩, hsummary⟩, hkeys⟩, hproposals⟩, hproposalKeys⟩,
      hdisputes⟩, rfl⟩
    exact {
      fields := hfields
      statements := ⟨_, _, rfl, narrativeRead_reads.listed.1 ⟨hnarrative, rfl⟩,
        conclusionItem_reads.listed.1 ⟨hconclusions, rfl⟩⟩
      summary := hsummary
      keys := hkeys
      proposals := proposalItem_reads.listed.1 ⟨hproposals, rfl⟩
      proposalKeys := hproposalKeys
      disputes := (disputeItem_reads _).listed.1 ⟨hdisputes, rfl⟩ }
  · rintro ⟨-, ⟨said, concluded, hstatements, hsaid, hconcluded⟩, hsummary, hkeys, hproposals,
      hproposalKeys, hdisputes⟩
    obtain ⟨hnarrative, hsaid⟩ := narrativeRead_reads.listed.2 hsaid
    obtain ⟨hconclusions, hconcluded⟩ := conclusionItem_reads.listed.2 hconcluded
    have hread : valuesOf narrative ++ valuesOf ((items data (literal "conclusions")
        maxConclusions).2.map conclusionItem) = out.statements := by
      rw [hstatements, hconcluded]
      exact congrArg (· ++ concluded) hsaid
    obtain ⟨hproposed, hproposals⟩ := proposalItem_reads.listed.2 hproposals
    obtain ⟨hdisputed, hdisputes⟩ := (disputeItem_reads _).listed.2 hdisputes
    rw [hread, hproposals, hdisputes]
    exact ⟨⟨⟨⟨⟨⟨⟨hnarrative, hconclusions⟩, hsummary⟩, hkeys⟩, hproposed⟩, hproposalKeys⟩,
      hdisputed⟩, rfl⟩

/-- The reply the parser cannot look at: its names are right, and one of the narrative sections of a
list of bounded length has a list or an object as its section. -/
def Escapes (data : Tree) : Prop :=
  HasFields data outputFields [] ∧ ∃ entries,
    fieldAt data (literal "narrative_sections") = .arr entries ∧
      entries.length ≤ maxNarrativeSections ∧ ∃ item ∈ entries, Unhashable item

theorem mem_items {data : Tree} {name : Text} {P : Tree → Prop} :
    (∃ e ∈ (items data name limit).2, P e.1) ↔
      ∃ entries, fieldAt data name = .arr entries ∧ entries.length ≤ limit ∧
        ∃ item ∈ entries, P item := by
  unfold items
  cases hdata : fieldAt data name with
  | arr entries =>
    have hzip : (∃ e ∈ entries.zipIdx, P e.1) ↔ ∃ item ∈ entries, P item := by
      have hmap := List.zipIdx_map_fst 0 entries
      constructor
      · rintro ⟨e, hmem, hP⟩
        exact ⟨e.1, hmap ▸ List.mem_map_of_mem hmem, hP⟩
      · rintro ⟨item, hmem, hP⟩
        rw [← hmap] at hmem
        obtain ⟨e, hentry, rfl⟩ := List.mem_map.1 hmem
        exact ⟨e, hentry, hP⟩
    dsimp only
    split
    · next hlimit =>
      simp only [List.not_mem_nil, false_and, exists_false, Tree.arr.injEq, false_iff, not_exists,
        not_and]
      rintro entries' rfl hlength
      omega
    · next hlimit =>
      simp only [hzip, Tree.arr.injEq, exists_eq_left', not_lt.1 hlimit, true_and]
  | _ => simp

/-- A value without the names of a reply is refused. -/
theorem parseValue_of_not {data : Tree} (h : ¬ HasFields data outputFields []) :
    ∃ problems, problems ≠ [] ∧ parseValue data = .error (.outputInvalid problems) := by
  cases data with
  | obj fields =>
    have hne : exactKeys (.obj fields) outputFields [] [] ≠ [] := mt exactKeys_eq_nil.1 h
    exact ⟨_, hne, by simp only [parseValue, refuse, if_pos hne]; rfl⟩
  | _ => exact ⟨_, List.cons_ne_nil _ _, rfl⟩

/-- What was read is refused with its problems, or returned without any. -/
theorem refuse_problems (read : List Text × ModelOutput) {P : ModelOutput → Prop}
    (hread : ∀ out, read = ([], out) ↔ P out) :
    (∀ out, (do
      refuse (read.1 ≠ []) (Failure.outputInvalid read.1)
      pure read.2) = .ok out ↔ P out) ∧
    ((∃ out, (do
      refuse (read.1 ≠ []) (Failure.outputInvalid read.1)
      pure read.2) = .ok out) ∨
    ∃ problems, problems ≠ [] ∧ (do
      refuse (read.1 ≠ []) (Failure.outputInvalid read.1)
      pure read.2) = .error (.outputInvalid problems)) := by
  refine ⟨fun out => ?_, ?_⟩
  · rw [← hread, refuse_bind_eq_ok, not_not, pure_eq_ok, Prod.ext_iff]
  · by_cases hnil : read.1 = []
    · exact .inl ⟨read.2, refuse_bind_eq_ok.2 ⟨not_not.2 hnil, rfl⟩⟩
    · refine .inr ⟨read.1, hnil, ?_⟩
      rw [refuse, if_pos hnil]
      rfl

/-- **What the parser does with a value**: it cannot look at it, or it returns what the value denotes
and refuses a value that denotes nothing with its problems. -/
theorem parseValue_cases (data : Tree) :
    Escapes data ∧ parseValue data = .error .typeError ∨
      ¬ Escapes data ∧ (∀ out, parseValue data = .ok out ↔ Denotes true data out) ∧
        ((∃ out, parseValue data = .ok out) ∨
          ∃ problems, problems ≠ [] ∧ parseValue data = .error (.outputInvalid problems)) := by
  by_cases hfields : HasFields data outputFields []
  · obtain ⟨fields, rfl, -⟩ := id hfields
    have hparse : parseValue (.obj fields) =
        (items (.obj fields) (literal "narrative_sections") maxNarrativeSections).2.mapM
          narrativeItem >>= fun narrative =>
            refuse ((readRest (.obj fields) narrative).1 ≠ [])
              (.outputInvalid (readRest (.obj fields) narrative).1) >>= fun _ =>
                pure (readRest (.obj fields) narrative).2 := by
      simp only [parseValue, exactKeys_eq_nil.2 hfields]
      rfl
    have hmem : (∃ e ∈ (items (.obj fields) (literal "narrative_sections") maxNarrativeSections).2,
        Unhashable e.1) ↔ _ := mem_items
    rcases mapM_narrativeItem (items (.obj fields) (literal "narrative_sections")
      maxNarrativeSections).2 with ⟨hun, herror⟩ | ⟨hhash, hok⟩
    · exact .inl ⟨⟨hfields, hmem.1 hun⟩, by rw [hparse, herror]; rfl⟩
    · refine .inr ⟨fun hescapes => ?_, ?_⟩
      · obtain ⟨e, he, hun⟩ := hmem.2 hescapes.2
        exact hhash e he hun
      · rw [hparse, hok]
        exact refuse_problems _ fun out => readRest_eq hfields
  · refine .inr ⟨fun h => hfields h.1, fun out => ?_, .inr (parseValue_of_not hfields)⟩
    obtain ⟨problems, -, herror⟩ := parseValue_of_not hfields
    rw [herror]
    simp only [reduceCtorEq, false_iff]
    exact fun h => hfields h.fields

/-! ## Texts -/

/-- White space is not the first character of a value. -/
theorem scanLeaf_blank {text : Text} (h : text.all Redaction.Code.isSpace = true) :
    scanLeaf text = .error .invalid := by
  have hhead : ∀ c : Char, (Redaction.Code.char c).isSpace = false → text.head? ≠ some (.char c) := by
    intro c hc hhead
    have hspace := List.all_eq_true.1 h _ (List.mem_of_mem_head? (Option.mem_def.2 hhead))
    rw [hc] at hspace
    cases hspace
  have hdigits : text.takeWhile Redaction.Code.isDigit = [] := by
    cases text with
    | nil => rfl
    | cons c rest =>
      have hspace := List.all_eq_true.1 h c List.mem_cons_self
      have hdigit : c.isDigit = false := by
        simp only [Redaction.Code.isSpace, List.mem_cons, List.not_mem_nil, or_false, decide_eq_true_eq]
          at hspace
        simp only [Redaction.Code.isDigit, Redaction.Code.within, Bool.decide_and, Bool.and_eq_false_iff,
          decide_eq_false_iff_not, show '0'.toNat = 48 from rfl, show '9'.toNat = 57 from rfl]
        omega
      rw [List.takeWhile_cons, hdigit]
      rfl
  have hconstants : constants.find? (fun e => e.1.isPrefixOf text) = none := by
    rw [List.find?_eq_none]
    intro entry hentry hstart
    have hvisible : constants.all fun e => e.1.any fun c => ¬ c.isSpace := by decide
    obtain ⟨c, hc, hnot⟩ := List.any_eq_true.1 (List.all_eq_true.1 hvisible entry hentry)
    have hspace := List.all_eq_true.1 h c ((List.isPrefixOf_iff_prefix.1 hstart).subset hc)
    exact of_decide_eq_true hnot hspace
  have hinteger : scanInteger text = none := by
    unfold scanInteger
    split
    · exact absurd rfl (hhead '0' (by decide))
    · rw [if_pos hdigits]
  have hscalar : scanScalar text = none := by
    unfold scanScalar
    rw [hconstants]
    dsimp only
    split
    · exact absurd rfl (hhead '-' (by decide))
    · rw [scanUnsigned, hinteger]
      rfl
  unfold scanLeaf
  split
  · exact absurd rfl (hhead '"' (by decide))
  · rw [hscalar]
    rfl

/-- The text of a value is not blank. -/
theorem loads_visible [JsonTexts] {hook : Hook} {text : Text} {data : Tree}
    (h : loads hook text = .ok data) : text.all Redaction.Code.isSpace = false := by
  by_contra hblank
  rw [Bool.not_eq_false] at hblank
  have hrest : (skipBlank text).all Redaction.Code.isSpace = true := by
    rw [List.all_eq_true] at hblank ⊢
    exact fun c hc => hblank c ((List.dropWhile_suffix _).subset hc)
  have hscan : ∀ fuel depth, scanTree hook fuel depth (skipBlank text) = .error .invalid := by
    generalize skipBlank text = rest at hrest
    intro fuel depth
    cases fuel with
    | zero => rfl
    | succ fuel =>
      unfold scanTree
      split
      · simp at hrest
        exact absurd hrest.1 (by decide)
      · simp at hrest
        exact absurd hrest.1 (by decide)
      · exact scanLeaf_blank hrest
  rw [loads, hscan] at h
  cases h

/-- What a text denotes: it is JSON without a name that comes twice, and its value is a reply. -/
def TextDenotes [JsonTexts] (lax : Bool) (text : Option Text) (out : ModelOutput) : Prop :=
  ∃ content data, text = some content ∧ loads distinct content = .ok data ∧ Denotes lax data out

/-- A text with a section the parser cannot look at. -/
def TextEscapes [JsonTexts] (text : Option Text) : Prop :=
  ∃ content data, text = some content ∧ loads distinct content = .ok data ∧ Escapes data

/-- A text that says a reply but for a line feed after a key or a tag. -/
def Trails [JsonTexts] (text : Option Text) : Prop :=
  ∃ out, TextDenotes true text out ∧
    ((∃ s ∈ out.statements, s.key.getLast? = some '\n') ∨
      ∃ p ∈ out.proposals, p.key.getLast? = some '\n' ∨ ∃ tag ∈ p.tags, tag.getLast? = some '\n')

/-- **The parser is total and exact on a text**: it returns, or it raises `OutputInvalid` with a
problem; and it returns what the text denotes, item by item. -/
structure ReadsExactly [JsonTexts] (text : Option Text) : Prop where
  total : (∃ out, parseModelOutput text = .ok out) ∨
    ∃ problems, problems ≠ [] ∧ parseModelOutput text = .error (.outputInvalid problems)
  exact : ∀ out, parseModelOutput text = .ok out ↔ TextDenotes false text out

/-- What the parser does with a text. -/
theorem parseModelOutput_cases [JsonTexts] (text : Option Text) :
    TextEscapes text ∧ parseModelOutput text = .error .typeError ∨
      ¬ TextEscapes text ∧
        (∀ out, parseModelOutput text = .ok out ↔ TextDenotes true text out) ∧
        ((∃ out, parseModelOutput text = .ok out) ∨
          ∃ problems, problems ≠ [] ∧
            parseModelOutput text = .error (.outputInvalid problems)) := by
  -- a text without a value is refused
  have hrefused : ∀ problem, parseModelOutput text = .error (.outputInvalid [problem]) →
      (∀ content data, text = some content → loads distinct content ≠ .ok data) →
      ¬ TextEscapes text ∧
        (∀ out, parseModelOutput text = .ok out ↔ TextDenotes true text out) ∧
        ((∃ out, parseModelOutput text = .ok out) ∨
          ∃ problems, problems ≠ [] ∧
            parseModelOutput text = .error (.outputInvalid problems)) := by
    intro problem hparse hnone
    refine ⟨fun ⟨content, data, htext, hloads, _⟩ => hnone content data htext hloads, fun out => ?_,
      .inr ⟨_, List.cons_ne_nil _ _, hparse⟩⟩
    rw [hparse]
    simp only [reduceCtorEq, false_iff]
    exact fun ⟨content, data, htext, hloads, _⟩ => hnone content data htext hloads
  cases text with
  | none => exact .inr (hrefused _ rfl fun content data htext => by cases htext)
  | some content =>
    cases hloads : loads distinct content with
    | error e =>
      right
      have hnone : ∀ content' data, some content = some content' →
          loads distinct content' ≠ .ok data := by
        rintro content' data ⟨⟩ hok
        rw [hloads] at hok
        cases hok
      cases hblank : content.all Redaction.Code.isSpace with
      | true => exact hrefused _ (by rw [parseModelOutput, if_pos hblank]) hnone
      | false =>
        cases e with
        | invalid => exact hrefused _ (by simp [parseModelOutput, hblank, hloads]; rfl) hnone
        | duplicateKey => exact hrefused _ (by simp [parseModelOutput, hblank, hloads]; rfl) hnone
    | ok data =>
      have hparse : parseModelOutput (some content) = parseValue data := by
        simp only [parseModelOutput, loads_visible hloads, Bool.false_eq_true, if_false, hloads]
      have hescapes : TextEscapes (some content) ↔ Escapes data := by
        constructor
        · rintro ⟨content', data', ⟨⟩, hloads', h⟩
          rwa [Except.ok.inj (hloads.symm.trans hloads')]
        · exact fun h => ⟨content, data, rfl, hloads, h⟩
      have hdenotes : ∀ out, TextDenotes true (some content) out ↔ Denotes true data out := by
        intro out
        constructor
        · rintro ⟨content', data', ⟨⟩, hloads', h⟩
          rwa [Except.ok.inj (hloads.symm.trans hloads')]
        · exact fun h => ⟨content, data, rfl, hloads, h⟩
      simp only [hparse, hescapes, hdenotes]
      exact parseValue_cases data

/-! ## Line feeds -/

/-- A text with a shape does not end in a line feed. -/
theorem Named.getLast?_ne (hfirst : shape.first '\n' = false) (hrest : shape.rest '\n' = false)
    {text : Text} (h : Named false shape text) :
    text.getLast? ≠ some '\n' := by
  intro hlast
  have hfull := h.resolve_right fun h => absurd h.1 (by decide)
  cases text with
  | nil => cases hlast
  | cons c tail =>
    simp only [Shape.full, Bool.and_eq_true, decide_eq_true_eq, List.all_eq_true] at hfull
    rcases List.mem_cons.1 (List.mem_of_getLast? hlast) with hc | hmem
    · rw [← hc, hfirst] at hfull
      exact absurd hfull.1.1 (by decide)
    · have htail := hfull.1.2 _ hmem
      rw [hrest] at htail
      cases htail

/-- A text with a shape, up to a line feed that it does not have. -/
theorem Named.strict {lax : Bool} {text : Text} (h : Named lax shape text)
    (hlast : text.getLast? ≠ some '\n') : Named false shape text := by
  rcases h with hfull | ⟨-, name, rfl, -⟩
  · exact .inl hfull
  · exact absurd List.getLast?_concat hlast

theorem Listed.mono {α : Type} {data : Tree} {name : Text} {R R' : Tree → α → Prop}
    {values : List α} (h : Listed data name limit R values)
    (himp : ∀ a ∈ values, ∀ item, R item a → R' item a) : Listed data name limit R' values := by
  obtain ⟨entries, hdata, hlength, hall⟩ := h
  refine ⟨entries, hdata, hlength, ?_⟩
  clear hdata hlength
  induction hall with
  | nil => exact .nil
  | cons hfirst _ ih =>
    exact .cons (himp _ List.mem_cons_self _ hfirst)
      (ih fun a ha => himp a (List.mem_cons_of_mem _ ha))

theorem Listed.forall {α : Type} {data : Tree} {name : Text} {R : Tree → α → Prop} {values : List α}
    (h : Listed data name limit R values) {P : α → Prop} (hP : ∀ item a, R item a → P a) :
    ∀ a ∈ values, P a := by
  obtain ⟨entries, -, -, hall⟩ := h
  induction hall with
  | nil => simp
  | cons hfirst _ ih =>
    intro a ha
    rcases List.mem_cons.1 ha with rfl | hrest
    · exact hP _ _ hfirst
    · exact ih a hrest

namespace Denotes

variable {lax lax' : Bool} {data : Tree} {out : ModelOutput}

/-- The names of a reply. -/
theorem named (h : Denotes lax data out) :
    (∀ s ∈ out.statements, Named lax keyShape s.key) ∧
      ∀ p ∈ out.proposals, Named lax keyShape p.key ∧ ∀ tag ∈ p.tags, Named lax tagShape tag := by
  obtain ⟨narrative, conclusions, hstatements, hnarrative, hconclusions⟩ := h.statements
  refine ⟨fun s hs => ?_, h.proposals.forall fun item p hp => ⟨hp.named, hp.tagged⟩⟩
  rw [hstatements] at hs
  rcases List.mem_append.1 hs with hs | hs
  · exact hnarrative.forall (P := fun s => Named lax keyShape s.key) (fun _ _ h => h.named) s hs
  · exact hconclusions.forall (P := fun s => Named lax keyShape s.key) (fun _ _ h => h.named) s hs

/-- The two grammars differ in the names only. -/
theorem rename (h : Denotes lax data out)
    (hstatements : ∀ s ∈ out.statements, Named lax' keyShape s.key)
    (hproposals : ∀ p ∈ out.proposals,
      Named lax' keyShape p.key ∧ ∀ tag ∈ p.tags, Named lax' tagShape tag) :
    Denotes lax' data out := by
  obtain ⟨narrative, conclusions, heq, hnarrative, hconclusions⟩ := h.statements
  rw [heq] at hstatements
  refine { h with
    statements := ⟨narrative, conclusions, heq,
      hnarrative.mono fun s hs item hitem => ?_, hconclusions.mono fun s hs item hitem => ?_⟩
    proposals := h.proposals.mono fun p hp item hitem => ?_ }
  · exact { hitem with named := hstatements s (List.mem_append_left _ hs) }
  · exact { hitem with named := hstatements s (List.mem_append_right _ hs) }
  · exact { hitem with named := (hproposals p hp).1, tagged := (hproposals p hp).2 }

end Denotes

/-- **When the parser is total and exact.** For every reply, `parse_model_output` returns or raises
`OutputInvalid` with a problem, and returns exactly what the documented grammar says the reply
denotes, if and only if no section of a readable narrative section is a list or an object, and the
reply is not one that only a line feed after a key or a tag keeps out of the grammar. -/
theorem parseModelOutput_exact [JsonTexts] (text : Option Text) :
    ReadsExactly text ↔ ¬ TextEscapes text ∧ ¬ Trails text := by
  rcases parseModelOutput_cases text with ⟨hescapes, herror⟩ | ⟨hescapes, hok, htotal⟩
  · refine ⟨fun h => ?_, fun h => absurd hescapes h.1⟩
    rcases h.total with ⟨out, hout⟩ | ⟨problems, -, hproblems⟩
    · cases herror.symm.trans hout
    · cases herror.symm.trans hproblems
  constructor
  · refine fun h => ⟨hescapes, fun ⟨out, hdenotes, htrails⟩ => ?_⟩
    obtain ⟨content, data, -, -, hstrict⟩ := (h.exact out).1 ((hok out).2 hdenotes)
    obtain ⟨hstatements, hproposals⟩ := hstrict.named
    rcases htrails with ⟨s, hs, hlast⟩ | ⟨p, hp, hlast | ⟨tag, htag, hlast⟩⟩
    · exact (hstatements s hs).getLast?_ne (by decide) (by decide) hlast
    · exact (hproposals p hp).1.getLast?_ne (by decide) (by decide) hlast
    · exact ((hproposals p hp).2 tag htag).getLast?_ne (by decide) (by decide) hlast
  · rintro ⟨-, htrails⟩
    refine ⟨htotal, fun out => (hok out).trans ⟨fun h => ?_, fun h => ?_⟩⟩
    · obtain ⟨content, data, htext, hloads, hdenotes⟩ := id h
      obtain ⟨hstatements, hproposals⟩ := hdenotes.named
      refine ⟨content, data, htext, hloads, hdenotes.rename (fun s hs => ?_) fun p hp => ⟨?_, ?_⟩⟩
      · exact (hstatements s hs).strict fun hlast => htrails ⟨out, h, .inl ⟨s, hs, hlast⟩⟩
      · exact (hproposals p hp).1.strict fun hlast => htrails ⟨out, h, .inr ⟨p, hp, .inl hlast⟩⟩
      · exact fun tag htag => ((hproposals p hp).2 tag htag).strict fun hlast =>
          htrails ⟨out, h, .inr ⟨p, hp, .inr ⟨tag, htag, hlast⟩⟩⟩
    · obtain ⟨content, data, htext, hloads, hdenotes⟩ := h
      obtain ⟨hstatements, hproposals⟩ := hdenotes.named
      exact ⟨content, data, htext, hloads, hdenotes.rename (fun s hs => (hstatements s hs).lax)
        fun p hp => ⟨(hproposals p hp).1.lax, fun tag htag => ((hproposals p hp).2 tag htag).lax⟩⟩

/-! ## Replies that escape -/

/-- A decoder that nests a thousand containers, and floats that print as their tokens. -/
@[reducible] def plainTexts : JsonTexts := ⟨1000, id⟩

/-- A reply of one narrative section with a key and a section, given as JSON. -/
def replyText (key sectionName : String) : Text :=
  (["\x7b\"narrative_sections\":[", "\x7b\"key\":", key, ",\"section\":", sectionName,
    ",\"body\":\"b\",", "\"evidence_ids\":[\"e\"]\x7d],", "\"conclusions\":[],",
    "\"proposals\":[],", "\"disputes\":[]\x7d"].map literal).flatten

/-- A section that is a list escapes as a `TypeError`, and a key with a line feed after it is
accepted. -/
theorem parseModelOutput_inexact :
    (¬ @ReadsExactly plainTexts (some (replyText "\"k\"" "[]"))) ∧
      ¬ @ReadsExactly plainTexts (some (replyText "\"k\\n\"" "\"impact_summary\"")) := by
  let _ := plainTexts
  constructor
  · intro h
    have herror : parseModelOutput (some (replyText "\"k\"" "[]")) = .error .typeError := by
      decide +kernel
    rcases h.total with ⟨out, hout⟩ | ⟨problems, -, hproblems⟩
    · cases herror.symm.trans hout
    · cases herror.symm.trans hproblems
  · intro h
    have hok : parseModelOutput (some (replyText "\"k\\n\"" "\"impact_summary\"")) = .ok
        ⟨[⟨literal "k\n", literal "impact_summary", literal "fact", literal "b", [literal "e"],
          true⟩], [], []⟩ := by decide +kernel
    obtain ⟨content, data, -, -, hdenotes⟩ := (h.exact _).1 hok
    exact (hdenotes.named.1 _ List.mem_cons_self).getLast?_ne (by decide) (by decide) (by decide)

end OpsPilot.Knowledge.Reply
