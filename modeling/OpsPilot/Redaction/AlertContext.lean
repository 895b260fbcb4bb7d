import Mathlib
import OpsPilot.Foundations.Excerpt
import OpsPilot.Redaction.Bounded

/-!
# The context of an alert

What an investigation is shown of the labels and annotations of an alert (`alert_context` in
`opspilot/alertmanager.py`), and the check a fact of a stored Run must pass
(`_valid_alert_context` in `opspilot/investigation/context.py`).

* `redacted`, `jsonRedacted`: the rule of the audit record, also for JSON inside a text.
* `contextEntries`: the processed entries of one object in key order, one for each key.
* `alertContext`: as many of them as fit, labels first.
* `validAlertContext`: the check.
* **`alert_context_valid`**: the context passes the check, and what it shows.

An object is a dictionary of texts, so its keys differ; like every dictionary it has fewer than
`2 ^ 63` entries.
-/

namespace OpsPilot.Redaction

/-- Whether `_redacted` of a value takes more than the interpreter's stack (`RecursionError`). -/
class StackTexts where
  overflows : Tree → Bool

/-- A dictionary of texts. -/
structure TextMap where
  entries : List (Text × Text)
  nodup : (entries.map Prod.fst).Nodup
  size_lt : entries.length < 2 ^ 63

/-- What Python compares texts by. -/
def points (text : Text) : List ℕ := text.map Code.point

/-! ## The rule of the audit record -/

section

variable [UnicodeTexts]

mutual

/-- `_redacted`. -/
def redacted : Tree → Tree
  | .obj fields => .obj (redactedFields fields)
  | .arr items => .arr (redactedItems items)
  | .str text => .str (redactCredentials text)
  | value => value

/-- The items of an array. -/
def redactedItems : List Tree → List Tree
  | [] => []
  | item :: items => redacted item :: redactedItems items

/-- The fields of an object: the value of a key that names a credential is replaced whole. -/
def redactedFields : List (Text × Tree) → List (Text × Tree)
  | [] => []
  | (key, value) :: fields =>
    (key, if ¬ value.isNull ∧ credentialName key then .str redactedCredential
      else redacted value) :: redactedFields fields

end

variable [JsonTexts] [StackTexts]

/-- `_json_redacted`. -/
def jsonRedacted (text : Text) : Text :=
  if ¬ ((text.dropWhile Code.isSpace).head?).any (· ∈ literal "\x7b[") then text
  else match loads dictionary text with
    | .error _ => text
    | .ok parsed =>
      if StackTexts.overflows parsed then redactedCredential
      else if redacted parsed = parsed then text
      else dumps false (redacted parsed)

/-! ## Entries -/

/-- `_context_text`. -/
def contextText (text : Text) (limit : ℕ) : Text × Bool :=
  cutText limit (printable (jsonRedacted (redactCredentials text)))

/-- `ALERT_CONTEXT_KEY_CHARS`. -/
def alertContextKeyChars : ℕ := 128

/-- `ALERT_CONTEXT_VALUE_CHARS`. -/
def alertContextValueChars : ℕ := 1024

/-- `ALERT_CONTEXT_TOTAL_CHARS`. -/
def alertContextTotalChars : ℕ := 8192

/-- The processed value of an entry, and whether it was cut. -/
def contextValue (raw : Text × Text) : Text × Bool :=
  if credentialName raw.1 then (redactedCredential, false)
  else contextText raw.2 alertContextValueChars

/-- The processed key and value of an entry. -/
def contextEntry (raw : Text × Text) : Text × Text :=
  ((contextText raw.1 alertContextKeyChars).1, (contextValue raw).1)

/-- Whether the key or the value of an entry is cut. -/
def isCut (raw : Text × Text) : Bool :=
  (contextText raw.1 alertContextKeyChars).2 || (contextValue raw).2

/-- `processed.sort()`: entries with their own keys, in the order of tuples. -/
def sortProcessed (processed : List (Text × Text × Text)) : List (Text × Text × Text) :=
  processed.insertionSort fun a b =>
    toLex (points a.1, toLex (points a.2.1, points a.2.2)) ≤
      toLex (points b.1, toLex (points b.2.1, points b.2.2))

/-- The entries of an object as they are sorted: the processed key, the key and the processed
value. -/
def processed (entries : List (Text × Text)) : List (Text × Text × Text) :=
  sortProcessed (entries.map fun raw => ((contextEntry raw).1, raw.1, (contextEntry raw).2))

/-- `_context_entries`: the entries, whether any was cut, and how many collided. -/
def contextEntries (entries : List (Text × Text)) : List (Text × Text) × Bool × ℕ :=
  let kept := keepFirsts (fun entry => points entry.1) none (processed entries)
  (kept.1.map fun entry => (entry.1, entry.2.2), entries.any isCut, kept.2)

/-! ## The fact -/

/-- The objects of an alert that its context shows. -/
inductive AlertObject
  | labels | annotations
  deriving DecidableEq

/-- The entries chosen for one object: `chosen[name][key] = value`. -/
def chosen (name : AlertObject) (entries : List (AlertObject × Text × Text)) : List (Text × Tree) :=
  dictOf ((entries.filter (·.1 = name)).map fun entry => (entry.2.1, .str entry.2.2))

/-- The fact that shows the first `count` entries. -/
def contextFact (ordered : List (AlertObject × Text × Text)) (cut : Bool) (collided count : ℕ) :
    Tree :=
  let omitted := collided + ordered.length - count
  .obj [(literal "labels", .obj (chosen .labels (ordered.take count))),
    (literal "annotations", .obj (chosen .annotations (ordered.take count))),
    (literal "truncated", .bool (cut || 0 < omitted)),
    (literal "omitted", .int omitted)]

/-- The processed entries of both objects, labels first. -/
def orderedEntries (labels annotations : TextMap) : List (AlertObject × Text × Text) :=
  (contextEntries labels.entries).1.map (AlertObject.labels, ·) ++
    (contextEntries annotations.entries).1.map (AlertObject.annotations, ·)

/-- `alert_context`. -/
def alertContext (labels annotations : TextMap) : Tree :=
  let ordered := orderedEntries labels annotations
  let cut := (contextEntries labels.entries).2.1 || (contextEntries annotations.entries).2.1
  let collided := (contextEntries labels.entries).2.2 + (contextEntries annotations.entries).2.2
  let fact := contextFact ordered cut collided
  fact (longestFit (fun count => (dumps false (fact count)).length ≤ alertContextTotalChars)
    ordered.length 0)

end

/-! ## The check -/

/-- Whether an entry of a fact is well formed. -/
def entryValid : Text × Tree → Bool
  | (key, .str text) =>
    !hasUnprintable key && !hasUnprintable text && cutAt alertContextKeyChars key &&
      cutAt alertContextValueChars text
  | _ => false

/-- Whether a text of an entry of a fact is over its limit. -/
def entryCut : Text × Tree → Bool
  | (key, .str text) => alertContextKeyChars < key.length || alertContextValueChars < text.length
  | _ => false

/-- `isinstance(value, Mapping) and set(value) == names`. -/
def hasExactly (fields : List (Text × Tree)) (names : List Text) : Bool :=
  fields.all (·.1 ∈ names) && names.all (· ∈ fields.map Prod.fst)

/-- `_valid_alert_context`. -/
def validAlertContext [JsonTexts] : Tree → Bool
  | .obj fields =>
    hasExactly fields (["labels", "annotations", "truncated", "omitted"].map literal) &&
      match fields.lookup (literal "truncated"), fields.lookup (literal "omitted"),
          fields.lookup (literal "labels"), fields.lookup (literal "annotations") with
      | some (.bool truncated), some (.int omitted), some (.obj labels),
          some (.obj annotations) =>
        0 ≤ omitted && (labels ++ annotations).all entryValid &&
          truncated == ((labels ++ annotations).any entryCut || 0 < omitted) &&
          -- `canonical` raises `ValueError` for an integer of too many digits
          writable (.obj fields) && (dumps false (.obj fields)).length ≤ alertContextTotalChars
      | _, _, _, _ => false
  | _ => false

/-! ## The entries of an object -/

theorem points_injective : Function.Injective points := by
  refine List.map_injective_iff.2 fun a b h => ?_
  cases a with
  | char c =>
    cases b with
    | char d => exact congrArg Code.char (Char.ext (UInt32.toNat_inj.1 h))
    | surrogate n =>
      -- a character is no surrogate
      exfalso
      have hc : c.toNat = 0xD800 + n := h
      have hvalid := c.valid
      simp only [UInt32.isValidChar, Nat.isValidChar] at hvalid
      have hval : c.val.toNat = c.toNat := rfl
      omega
  | surrogate m =>
    cases b with
    | char d =>
      exfalso
      have hd : 0xD800 + (m : ℕ) = d.toNat := h
      have hvalid := d.valid
      simp only [UInt32.isValidChar, Nat.isValidChar] at hvalid
      have hval : d.val.toNat = d.toNat := rfl
      omega
    | surrogate n =>
      have hpoints : 0xD800 + (m : ℕ) = 0xD800 + (n : ℕ) := h
      exact congrArg Code.surrogate (Fin.ext (by omega))

section

variable [UnicodeTexts] [JsonTexts] [StackTexts]

/-- What an object shows of its entries: the processed ones in the order of their keys and, of those
with one processed key, the one whose own key comes first. -/
structure InKeyOrder (entries kept : List (Text × Text)) : Prop where
  sorted : kept.Pairwise fun a b => points a.1 < points b.1
  mem_iff : ∀ entry, entry ∈ kept ↔ ∃ raw ∈ entries, contextEntry raw = entry ∧
    ∀ other ∈ entries, (contextEntry other).1 = entry.1 → points raw.1 ≤ points other.1

theorem sortedBy_processed (entries : List (Text × Text)) :
    SortedBy (fun entry => points entry.1) (fun entry : Text × Text × Text => points entry.2.1)
      (processed entries) := by
  have htotal : Std.Total fun a b : Text × Text × Text =>
      toLex (points a.1, toLex (points a.2.1, points a.2.2)) ≤
        toLex (points b.1, toLex (points b.2.1, points b.2.2)) := ⟨fun a b => le_total _ _⟩
  have htrans : IsTrans _ fun a b : Text × Text × Text =>
      toLex (points a.1, toLex (points a.2.1, points a.2.2)) ≤
        toLex (points b.1, toLex (points b.2.1, points b.2.2)) := ⟨fun a b c => le_trans⟩
  refine (List.pairwise_insertionSort _ _).imp fun {a b} h => ?_
  rw [Prod.Lex.toLex_le_toLex] at h ⊢
  exact h.imp_right fun h => ⟨h.1, Prod.Lex.monotone_fst _ _ h.2⟩

theorem processed_perm (entries : List (Text × Text)) :
    (processed entries).Perm
      (entries.map fun raw => ((contextEntry raw).1, raw.1, (contextEntry raw).2)) :=
  List.perm_insertionSort _ _

variable {entries : List (Text × Text)}

theorem mem_processed {entry : Text × Text × Text} :
    entry ∈ processed entries ↔
      ∃ raw ∈ entries, ((contextEntry raw).1, raw.1, (contextEntry raw).2) = entry := by
  rw [(processed_perm entries).mem_iff, List.mem_map]

/-- The own keys of an object's entries differ, so no two of one processed key tie. -/
theorem processed_ties (h : (entries.map Prod.fst).Nodup) :
    (processed entries).Pairwise fun a b => points a.1 = points b.1 → points a.2.1 ≠ points b.2.1 := by
  have hnodup : ((processed entries).map fun entry => entry.2.1).Nodup := by
    rw [((processed_perm entries).map _).nodup_iff, List.map_map]
    exact h
  exact (List.pairwise_map.1 hnodup).imp fun hne _ heq => hne (points_injective heq)

theorem inKeyOrder_contextEntries (h : (entries.map Prod.fst).Nodup) :
    InKeyOrder entries (contextEntries entries).1 where
  sorted := List.pairwise_map.2 (pairwise_keepFirsts (sortedBy_processed entries))
  mem_iff entry := by
    simp only [contextEntries, List.mem_map,
      mem_keepFirsts (sortedBy_processed entries) (processed_ties h)]
    constructor
    · rintro ⟨kept, ⟨hkept, hleast⟩, rfl⟩
      obtain ⟨raw, hraw, rfl⟩ := mem_processed.1 hkept
      refine ⟨raw, hraw, Prod.mk.eta.symm, fun other hother hkey => ?_⟩
      exact hleast _ (mem_processed.2 ⟨other, hother, rfl⟩) (congrArg points hkey)
    · rintro ⟨raw, hraw, rfl, hleast⟩
      refine ⟨_, ⟨mem_processed.2 ⟨raw, hraw, rfl⟩, fun other hother hkey => ?_⟩, Prod.mk.eta⟩
      obtain ⟨raw', hraw', rfl⟩ := mem_processed.1 hother
      exact hleast raw' hraw' (points_injective hkey)

theorem length_contextEntries (entries : List (Text × Text)) :
    (contextEntries entries).1.length + (contextEntries entries).2.2 = entries.length := by
  have h := length_keepFirsts (fun entry : Text × Text × Text => points entry.1) none
    (processed entries)
  rw [(processed_perm entries).length_eq, List.length_map] at h
  rw [contextEntries, List.length_map]
  exact h

/-- Without a collision an object shows all of its entries. -/
theorem contextEntries_perm (h : (contextEntries entries).2.2 = 0) :
    (contextEntries entries).1.Perm (entries.map contextEntry) := by
  have hall : (keepFirsts (fun entry => points entry.1) none (processed entries)).1 =
      processed entries := by
    refine (keepFirsts_sublist _ _ _).eq_of_length ?_
    have hlength := length_keepFirsts (fun entry : Text × Text × Text => points entry.1) none
      (processed entries)
    have hzero : (keepFirsts (fun entry : Text × Text × Text => points entry.1) none
      (processed entries)).2 = 0 := h
    omega
  rw [contextEntries, hall]
  refine ((processed_perm entries).map _).trans ?_
  rw [List.map_map]
  exact List.Perm.of_eq (List.map_congr_left fun raw _ => Prod.mk.eta)

theorem nodup_contextEntries (h : (entries.map Prod.fst).Nodup) :
    ((contextEntries entries).1.map Prod.fst).Nodup :=
  List.pairwise_map.2 ((inKeyOrder_contextEntries h).sorted.imp fun hlt heq =>
    absurd (congrArg points heq) (ne_of_lt hlt))

/-! ## Processed texts pass the check -/

theorem hasUnprintable_contextText (text : Text) (limit : ℕ) :
    hasUnprintable (contextText text limit).1 = false := by
  rw [contextText]
  exact hasUnprintable_cutText (hasUnprintable_printable _) limit

theorem cutAt_contextText (text : Text) (limit : ℕ) :
    cutAt limit (contextText text limit).1 = true := by
  rw [contextText]
  exact cutAt_cutText limit _

theorem contextText_snd (text : Text) (limit : ℕ) :
    (contextText text limit).2 = decide (limit < (contextText text limit).1.length) := by
  rw [contextText]
  exact cutText_snd limit _

theorem entryValid_contextEntry (raw : Text × Text) :
    entryValid ((contextEntry raw).1, .str (contextEntry raw).2) = true := by
  have hvalue : hasUnprintable (contextValue raw).1 = false ∧
      cutAt alertContextValueChars (contextValue raw).1 = true := by
    rw [contextValue]
    split
    · exact ⟨hasUnprintable_redactedCredential, by decide⟩
    · exact ⟨hasUnprintable_contextText _ _, cutAt_contextText _ _⟩
  rw [entryValid, contextEntry, hasUnprintable_contextText, cutAt_contextText, hvalue.1, hvalue.2]
  rfl

theorem entryCut_contextEntry (raw : Text × Text) :
    entryCut ((contextEntry raw).1, .str (contextEntry raw).2) = isCut raw := by
  have hvalue : (contextValue raw).2 =
      decide (alertContextValueChars < (contextValue raw).1.length) := by
    rw [contextValue]
    split
    · decide
    · exact contextText_snd _ _
  rw [isCut, contextText_snd, hvalue]
  rfl

/-! ## The chosen entries -/

omit [UnicodeTexts] [JsonTexts] [StackTexts] in
/-- A dictionary made of pairs whose keys differ is these pairs. -/
theorem dictOf_eq_of_nodup {entries : List (Text × Tree)} (h : (entries.map Prod.fst).Nodup) :
    dictOf entries = entries := by
  have hall : ∀ fields : List (Text × Tree), ((fields ++ entries).map Prod.fst).Nodup →
      entries.foldl (fun fields entry => dictSet fields entry.1 entry.2) fields =
        fields ++ entries := by
    clear h
    induction entries with
    | nil => simp
    | cons entry entries ih =>
      intro fields h
      have hfresh : entry.1 ∉ fields.map Prod.fst := by
        rw [List.map_append, List.map_cons] at h
        exact fun hmem => (List.nodup_append.1 h).2.2 _ hmem _ List.mem_cons_self rfl
      rw [List.foldl_cons, dictSet, if_neg hfresh, ih]
      · simp
      · simpa using h
  exact hall [] h

/-- What a fact lists of an object's entries. -/
def texts (entries : List (Text × Text)) : List (Text × Tree) :=
  entries.map fun entry => (entry.1, .str entry.2)

omit [UnicodeTexts] [JsonTexts] [StackTexts] in
theorem take_ordered (first second : List (Text × Text)) (count : ℕ) :
    (first.map (AlertObject.labels, ·) ++ second.map (AlertObject.annotations, ·)).take count =
      (first.take count).map (AlertObject.labels, ·) ++
        (second.take (count - first.length)).map (AlertObject.annotations, ·) := by
  rw [List.take_append, List.length_map, ← List.map_take, ← List.map_take]

omit [UnicodeTexts] [JsonTexts] [StackTexts] in
/-- Of entries of both objects, each object gets its own. -/
theorem chosen_ordered {first second : List (Text × Text)} (hfirst : (first.map Prod.fst).Nodup)
    (hsecond : (second.map Prod.fst).Nodup) :
    let ordered := first.map (AlertObject.labels, ·) ++ second.map (AlertObject.annotations, ·)
    chosen .labels ordered = texts first ∧ chosen .annotations ordered = texts second := by
  have hkeys : ∀ {entries : List (Text × Text)}, (entries.map Prod.fst).Nodup →
      ((texts entries).map Prod.fst).Nodup := by
    intro entries h
    rw [texts, List.map_map]
    exact h
  constructor
  · rw [chosen]
    simp only [List.filter_append, List.filter_map, Function.comp_def, decide_true, List.filter_true,
      reduceCtorEq, decide_false, List.filter_false, List.map_nil, List.append_nil, List.map_map]
    exact dictOf_eq_of_nodup (hkeys hfirst)
  · rw [chosen]
    simp only [List.filter_append, List.filter_map, Function.comp_def, decide_true, List.filter_true,
      reduceCtorEq, decide_false, List.filter_false, List.map_nil, List.nil_append, List.map_map]
    exact dictOf_eq_of_nodup (hkeys hsecond)

/-! ## The fact passes the check -/

/-- The fact of the entries it shows. -/
def shownFact (labels annotations : List (Text × Text)) (truncated : Bool) (omitted : ℕ) : Tree :=
  .obj [(literal "labels", .obj (texts labels)), (literal "annotations", .obj (texts annotations)),
    (literal "truncated", .bool truncated), (literal "omitted", .int omitted)]

omit [UnicodeTexts] [StackTexts] in
/-- A fact that shows nothing is far below the bound. -/
theorem length_shownFact_nil (truncated : Bool) {omitted : ℕ} (h : omitted < 10 ^ 20) :
    (dumps false (shownFact [] [] truncated omitted)).length ≤ alertContextTotalChars := by
  have hdigits : (dumps false (.int omitted)).length ≤ 20 := by
    have hrepr : toString (omitted : ℤ) = toString omitted := rfl
    rw [dumps, hrepr, literal, List.length_map, Nat.toString_eq_ofList_toDigits,
      String.toList_ofList]
    exact (Nat.length_toDigits_le_iff (by omega) (by omega)).2 h
  have hflag : (dumps false (.bool truncated)).length ≤ 5 := by
    rw [dumps]
    revert truncated
    decide
  have hempty : (dumps false (.obj (texts []))).length = 2 := by
    rw [length_dumps_obj]
    rfl
  rw [shownFact, length_dumps_obj]
  simp only [List.map_cons, List.map_nil, List.sum_cons, List.sum_nil, List.length_cons,
    List.length_nil, fieldLength, hempty]
  have hlabels : (quoteText false (literal "labels")).length = 8 := by decide
  have hannotations : (quoteText false (literal "annotations")).length = 13 := by decide
  have htruncated : (quoteText false (literal "truncated")).length = 11 := by decide
  have homitted : (quoteText false (literal "omitted")).length = 9 := by decide
  rw [hlabels, hannotations, htruncated, homitted, alertContextTotalChars]
  omega

omit [UnicodeTexts] [StackTexts] in
/-- A fact of valid entries within the bound passes when its flag says what its entries say. -/
theorem validAlertContext_shownFact {labels annotations : List (Text × Text)} {truncated : Bool}
    {omitted : ℕ} (hentries : (texts (labels ++ annotations)).all entryValid = true)
    (htruncated : truncated = ((texts (labels ++ annotations)).any entryCut || 0 < omitted))
    (hdigits : omitted < 10 ^ 20)
    (hlength : (dumps false (shownFact labels annotations truncated omitted)).length ≤
      alertContextTotalChars) :
    validAlertContext (shownFact labels annotations truncated omitted) = true := by
  have hexactly : hasExactly [(literal "labels", .obj (texts labels)),
      (literal "annotations", .obj (texts annotations)), (literal "truncated", .bool truncated),
      (literal "omitted", .int omitted)]
        (["labels", "annotations", "truncated", "omitted"].map literal) = true := by
    simp [hasExactly]
  have hwritable : writable (shownFact labels annotations truncated omitted) = true := by
    have htexts : ∀ entries, writableFields (texts entries) = true := by
      intro entries
      induction entries with
      | nil => rfl
      | cons entry entries ih => exact ih
    have hint : (Nat.toDigits 10 (omitted : ℤ).natAbs).length ≤ intMaxStrDigits := by
      have hle := (Nat.length_toDigits_le_iff (b := 10) (k := 20) (by omega) (by omega)).2 hdigits
      rw [Int.natAbs_natCast]
      exact hle.trans (by decide)
    simp only [shownFact, writable, writableFields, htexts, Bool.and_true, Bool.true_and]
    exact decide_eq_true hint
  have htexts : texts labels ++ texts annotations = texts (labels ++ annotations) :=
    List.map_append.symm
  have hlookup : ∀ {a b : String} (fields : List (Text × Tree)) (value : Tree), literal a ≠ literal b →
      ((literal b, value) :: fields).lookup (literal a) = fields.lookup (literal a) :=
    fun fields value hne => by rw [List.lookup_cons, beq_false_of_ne hne]
  rw [shownFact] at hwritable hlength ⊢
  rw [validAlertContext, hexactly, hlookup _ _ (by decide), hlookup _ _ (by decide),
    List.lookup_cons_self, hlookup _ _ (by decide), hlookup _ _ (by decide),
    hlookup _ _ (by decide), List.lookup_cons_self, List.lookup_cons_self, hlookup _ _ (by decide),
    List.lookup_cons_self]
  simp only [htexts, hentries, hwritable, hlength, ← htruncated, decide_true, Bool.and_true,
    beq_self_eq_true, Int.natCast_nonneg, Int.natCast_pos]

variable (labels annotations : TextMap)

/-- The fact of the first `count` entries, in terms of the entries of both objects. -/
theorem contextFact_ordered (cut : Bool) (collided count : ℕ) :
    contextFact (orderedEntries labels annotations) cut collided count =
      let first := (contextEntries labels.entries).1
      let second := (contextEntries annotations.entries).1
      let omitted := collided + (first.length + second.length) - count
      shownFact (first.take count) (second.take (count - first.length)) (cut || 0 < omitted)
        omitted := by
  have htake : ∀ (entries : List (Text × Text)) (n : ℕ), (entries.map Prod.fst).Nodup →
      ((entries.take n).map Prod.fst).Nodup := fun entries n h =>
    h.sublist ((List.take_sublist n entries).map _)
  obtain ⟨hlabels, hannotations⟩ := chosen_ordered
    (htake _ count (nodup_contextEntries labels.nodup))
    (htake _ (count - (contextEntries labels.entries).1.length)
      (nodup_contextEntries annotations.nodup))
  have hlength : (orderedEntries labels annotations).length =
      (contextEntries labels.entries).1.length + (contextEntries annotations.entries).1.length := by
    rw [orderedEntries, List.length_append, List.length_map, List.length_map]
  rw [contextFact, hlength, orderedEntries, take_ordered, hlabels, hannotations]
  rfl

/-- The entries a fact may show are valid. -/
theorem entryValid_contextEntries (entries : List (Text × Text))
    (h : (entries.map Prod.fst).Nodup) {entry : Text × Text}
    (hentry : entry ∈ (contextEntries entries).1) : entryValid (entry.1, .str entry.2) = true := by
  obtain ⟨raw, -, rfl, -⟩ := ((inKeyOrder_contextEntries h).mem_iff entry).1 hentry
  exact entryValid_contextEntry raw

/-- When no entry collides, the entries shown by an object are cut as often as its own ones. -/
theorem any_entryCut_contextEntries (h : (contextEntries entries).2.2 = 0) :
    (texts (contextEntries entries).1).any entryCut = entries.any isCut := by
  rw [texts, ((contextEntries_perm h).map _).any_eq, List.map_map, List.any_map]
  refine congrArg (List.any entries) ?_
  funext raw
  exact entryCut_contextEntry raw

/-- The entries a fact shows are valid. -/
theorem entryValid_shown (count : ℕ) :
    (texts ((contextEntries labels.entries).1.take count ++ (contextEntries annotations.entries).1.take
      (count - (contextEntries labels.entries).1.length))).all entryValid = true := by
  rw [texts, List.all_map, List.all_eq_true]
  intro entry hentry
  rcases List.mem_append.1 hentry with hentry | hentry
  · exact entryValid_contextEntries _ labels.nodup (List.mem_of_mem_take hentry)
  · exact entryValid_contextEntries _ annotations.nodup (List.mem_of_mem_take hentry)

/-- A fact that omits nothing shows a cut text when a text of an entry is cut. -/
theorem entryCut_shown {count : ℕ}
    (hcollided : (contextEntries labels.entries).2.2 + (contextEntries annotations.entries).2.2 = 0)
    (hcount : (contextEntries labels.entries).1.length +
      (contextEntries annotations.entries).1.length ≤ count) :
    (texts ((contextEntries labels.entries).1.take count ++ (contextEntries annotations.entries).1.take
        (count - (contextEntries labels.entries).1.length))).any entryCut =
      (labels.entries.any isCut || annotations.entries.any isCut) := by
  have happend : ∀ first second, texts (first ++ second) = texts first ++ texts second :=
    fun first second => List.map_append
  rw [List.take_of_length_le (by omega), List.take_of_length_le (by omega), happend, List.any_append,
    any_entryCut_contextEntries (by omega), any_entryCut_contextEntries (by omega)]

/-- **The context of an alert** passes the check of a stored fact. Of the labels in order and then
the annotations in order it shows whole entries up to some place, and its flag says whether a text
of an entry was cut or an entry is not shown. -/
theorem alert_context_valid :
    validAlertContext (alertContext labels annotations) = true ∧
      ∃ shownLabels restLabels shownNotes restNotes truncated omitted,
        InKeyOrder labels.entries (shownLabels ++ restLabels) ∧
        InKeyOrder annotations.entries (shownNotes ++ restNotes) ∧
        (restLabels = [] ∨ shownNotes = []) ∧
        alertContext labels annotations = shownFact shownLabels shownNotes truncated omitted ∧
        shownLabels.length + shownNotes.length + omitted =
          labels.entries.length + annotations.entries.length ∧
        (truncated = true ↔
          (∃ raw ∈ labels.entries ++ annotations.entries, isCut raw = true) ∨ 0 < omitted) := by
  set first := (contextEntries labels.entries).1 with hfirst
  set second := (contextEntries annotations.entries).1 with hsecond
  set cut := labels.entries.any isCut || annotations.entries.any isCut with hcut
  set collided := (contextEntries labels.entries).2.2 + (contextEntries annotations.entries).2.2
    with hcollided
  have hlength₁ := length_contextEntries labels.entries
  have hlength₂ := length_contextEntries annotations.entries
  have hordered : (orderedEntries labels annotations).length = first.length + second.length := by
    rw [orderedEntries, List.length_append, List.length_map, List.length_map]
  obtain ⟨count, hcount⟩ : ∃ count, count = longestFit (fun count =>
      (dumps false (contextFact (orderedEntries labels annotations) cut collided count)).length ≤
        alertContextTotalChars) (orderedEntries labels annotations).length 0 := ⟨_, rfl⟩
  obtain ⟨-, hle, hfits, -⟩ := longestFit_spec (fun count =>
    (dumps false (contextFact (orderedEntries labels annotations) cut collided count)).length ≤
      alertContextTotalChars) (orderedEntries labels annotations).length 0
  rw [← hcount, hordered] at hle
  rw [← hcount, decide_eq_true_eq] at hfits
  have hfact : alertContext labels annotations =
      contextFact (orderedEntries labels annotations) cut collided count := by
    rw [hcount]
    rfl
  rw [← hfirst] at hlength₁
  rw [← hsecond] at hlength₂
  have hsize : collided + (first.length + second.length) =
      labels.entries.length + annotations.entries.length := by omega
  have hlabels_lt := labels.size_lt
  have hannotations_lt := annotations.size_lt
  have hdigits : ∀ n, collided + (first.length + second.length) - n < 10 ^ 20 := by omega
  have hbound : (dumps false (contextFact (orderedEntries labels annotations) cut collided
      count)).length ≤ alertContextTotalChars := by
    rcases hfits with hzero | hfits
    · rw [hzero, contextFact_ordered]
      simp only [List.take_zero, Nat.zero_sub]
      exact length_shownFact_nil _ (hdigits 0)
    · exact hfits
  rw [hfact]
  rw [contextFact_ordered] at hbound ⊢
  simp only [← hfirst, ← hsecond] at hbound ⊢
  refine ⟨validAlertContext_shownFact ?_ ?_ (hdigits count) hbound, first.take count,
    first.drop count, second.take (count - first.length), second.drop (count - first.length), _, _,
    ?_, ?_, ?_, rfl, ?_, ?_⟩
  · exact entryValid_shown labels annotations count
  · by_cases homitted : 0 < collided + (first.length + second.length) - count
    · simp [homitted]
    · have hnone : collided = 0 := by omega
      have hall : first.length + second.length ≤ count := by omega
      rw [entryCut_shown labels annotations hnone hall]
  · rw [List.take_append_drop]
    exact inKeyOrder_contextEntries labels.nodup
  · rw [List.take_append_drop]
    exact inKeyOrder_contextEntries annotations.nodup
  · rcases Nat.le_total first.length count with h | h
    · exact .inl (List.drop_eq_nil_of_le h)
    · exact .inr (by rw [Nat.sub_eq_zero_of_le h, List.take_zero])
  · rw [List.length_take, List.length_take]
    omega
  · rw [Bool.or_eq_true, decide_eq_true_eq, hcut, ← List.any_append, List.any_eq_true]

end

end OpsPilot.Redaction
