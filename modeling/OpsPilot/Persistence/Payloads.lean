import Mathlib
import OpsPilot.Foundations.JsonText
import OpsPilot.Foundations.Transaction

/-!
# The payloads of the trace outbox

A row of the outbox carries an object of named fields, each kept only in the shape its key admits
(`build_payload` in `opspilot/persistence/outbox.py`).

* `Shape`: the shapes of versions, codes and names; `isoformatUtc`: the text of a time.
* `build`: the payload of the fields a caller gives.
* `Sound`, `build_sound`: what is kept under each key; `build_error`: when nothing is built.
* `size_le`: a payload fits the 4096 bytes of its column.
-/

namespace OpsPilot.Payload

/-! ## Shapes -/

/-- A text of one character and some more: `^[head][tail]{least,most}$`. -/
structure Shape where
  head : Char → Bool
  tail : Char → Bool
  least : ℕ
  most : ℕ

/-- `shape.fullmatch(text)`. -/
def Shape.fullmatch (shape : Shape) (text : String) : Bool :=
  match text.toList with
  | [] => false
  | c :: rest => shape.head c && rest.all shape.tail && shape.least ≤ rest.length &&
      rest.length ≤ shape.most

/-- `_CODE`. -/
def codeShape : Shape where
  head := Char.isUpper
  tail c := c.isUpper || c.isDigit || c = '_'
  least := 1
  most := 63

/-- `_FINISH`. -/
def finishShape : Shape where
  head := Char.isLower
  tail c := c.isLower || c.isDigit || c = '_'
  least := 0
  most := 31

/-- `IDENTIFIER`. -/
def identifierShape : Shape where
  head := Char.isAlphanum
  tail c := c.isAlphanum || c = '.' || c = '_' || c = '-'
  least := 0
  most := 63

/-- `_TOOL_NAME`. -/
def toolNameShape : Shape where
  head := Char.isLower
  tail c := c.isLower || c.isDigit || c = '_'
  least := 0
  most := 63

/-- A character of `_VALUE`. -/
def valueChar (c : Char) : Bool := c.isAlphanum || c ∈ ['.', '_', ':', '+', '-']

/-- `_VALUE` of the sender: the shape of every text in a payload. -/
def valueShape : Shape where
  head := valueChar
  tail := valueChar
  least := 0
  most := 63

/-- A shape whose texts are values. -/
structure Shape.Admits (shape : Shape) : Prop where
  head : ∀ c, shape.head c = true → valueShape.head c = true
  tail : ∀ c, shape.tail c = true → valueShape.tail c = true
  most : shape.most ≤ valueShape.most

theorem Shape.Admits.fullmatch {shape : Shape} (h : shape.Admits) {text : String}
    (hmatch : shape.fullmatch text = true) : valueShape.fullmatch text = true := by
  unfold Shape.fullmatch at hmatch ⊢
  split at hmatch
  · cases hmatch
  · next c rest heq =>
    simp only [Bool.and_eq_true, List.all_eq_true, decide_eq_true_eq] at hmatch ⊢
    obtain ⟨⟨⟨hhead, htail⟩, -⟩, hmost⟩ := hmatch
    exact ⟨⟨⟨h.head c hhead, fun d hd => h.tail d (htail d hd)⟩, Nat.zero_le _⟩,
      hmost.trans h.most⟩

variable {c : Char}

theorem valueChar_of_isUpper (h : c.isUpper = true) : valueChar c = true := by
  simp [valueChar, Char.isAlphanum, Char.isAlpha, h]

theorem valueChar_of_isLower (h : c.isLower = true) : valueChar c = true := by
  simp [valueChar, Char.isAlphanum, Char.isAlpha, h]

theorem valueChar_of_isDigit (h : c.isDigit = true) : valueChar c = true := by
  simp [valueChar, Char.isAlphanum, h]

/-- A character of a lower-case name. -/
theorem valueChar_of_name (h : (c.isLower || c.isDigit || c = '_') = true) :
    valueChar c = true := by
  simp only [Bool.or_eq_true, decide_eq_true_eq] at h
  rcases h with (h | h) | rfl
  · exact valueChar_of_isLower h
  · exact valueChar_of_isDigit h
  · decide

theorem codeShape_admits : codeShape.Admits where
  head _ h := valueChar_of_isUpper h
  tail c h := by
    simp only [codeShape, Bool.or_eq_true, decide_eq_true_eq] at h
    rcases h with (h | h) | rfl
    · exact valueChar_of_isUpper h
    · exact valueChar_of_isDigit h
    · decide
  most := Nat.le_refl 63

theorem finishShape_admits : finishShape.Admits where
  head _ h := valueChar_of_isLower h
  tail _ h := valueChar_of_name h
  most := by decide

theorem toolNameShape_admits : toolNameShape.Admits where
  head _ h := valueChar_of_isLower h
  tail _ h := valueChar_of_name h
  most := Nat.le_refl 63

theorem identifierShape_admits : identifierShape.Admits where
  head c h := by simp only [identifierShape] at h; simp [valueShape, valueChar, h]
  tail c h := by
    simp only [identifierShape, Bool.or_eq_true, decide_eq_true_eq] at h
    rcases h with ((h | h) | h) | h <;> simp [valueShape, valueChar, h]
  most := Nat.le_refl 63

/-- A text is a value if its characters are, and there are 1 to 64 of them. -/
theorem valueShape_fullmatch {text : String} : valueShape.fullmatch text = true ↔
    (∀ c ∈ text.toList, valueChar c = true) ∧ 0 < text.toList.length ∧ text.toList.length ≤ 64 := by
  unfold Shape.fullmatch
  cases text.toList with
  | nil => simp
  | cons c rest =>
    have hlength : rest.length + 1 ≤ 64 ↔ rest.length ≤ 63 := by omega
    simp only [Bool.and_eq_true, List.all_eq_true, decide_eq_true_eq, List.mem_cons,
      forall_eq_or_imp, List.length_cons, Nat.zero_lt_succ, hlength, true_and, and_assoc]
    simp only [valueShape, Nat.zero_le, true_and]

/-! ## Values -/

/-- The days before a month, in a year that is no leap year. -/
def daysBeforeMonth (month : ℕ) : ℕ :=
  [0, 0, 31, 59, 90, 120, 151, 181, 212, 243, 273, 304, 334].getD month 0

/-- The days of a month, in a year that is no leap year. -/
def daysInMonth (month : ℕ) : ℕ :=
  [0, 31, 28, 31, 30, 31, 30, 31, 31, 30, 31, 30, 31].getD month 0

/-- The year, month and day of the n-th day from 0001-01-01 on (`datetime._ord2ymd`). -/
def yearMonthDay (n : ℕ) : ℕ × ℕ × ℕ :=
  let n400 := n / 146097
  let n := n % 146097
  let n100 := n / 36524
  let n := n % 36524
  let n4 := n / 1461
  let n := n % 1461
  let n1 := n / 365
  let n := n % 365
  let year := n400 * 400 + 1 + n100 * 100 + n4 * 4 + n1
  -- the last day of a leap year, or of a cycle of four centuries
  if n1 = 4 ∨ n100 = 4 then (year - 1, 12, 31)
  else
    let leap := if n1 = 3 ∧ (n4 ≠ 24 ∨ n100 = 3) then 1 else 0
    let before month := daysBeforeMonth month + if 2 < month then leap else 0
    let month := (n + 50) / 32
    let month := if n < before month then month - 1 else month
    (year, month, n - before month + 1)

example : yearMonthDay 738885 = (2024, 1, 1) ∧ yearMonthDay 738944 = (2024, 2, 29) ∧
    yearMonthDay 738945 = (2024, 3, 1) ∧ yearMonthDay 3652058 = (9999, 12, 31) := by decide

/-- The last digits of a number, as many as there are asked for. -/
def padded (width n : ℕ) : List Char :=
  (List.range width).map fun i => Nat.digitChar (n / 10 ^ (width - 1 - i) % 10)

/-- The microseconds of a day. -/
def dayMicroseconds : ℕ := 86400000000

/-- The microseconds from 0001-01-01 to the end of 9999-12-31. -/
def lastMicrosecond : ℕ := 3652059 * dayMicroseconds

/-- `moment.isoformat()`, of a UTC time in microseconds from 0001-01-01 on. -/
def isoformatUtc (t : ℕ) : String :=
  let (year, month, day) := yearMonthDay (t / dayMicroseconds)
  let second := t / 1000000 % 86400
  let fraction := t % 1000000
  String.ofList (padded 4 year ++ '-' :: padded 2 month ++ '-' :: padded 2 day ++
    'T' :: padded 2 (second / 3600) ++ ':' :: padded 2 (second / 60 % 60) ++
    ':' :: padded 2 (second % 60) ++ (if fraction = 0 then [] else '.' :: padded 6 fraction) ++
    "+00:00".toList)

/-- A `datetime` with an offset: its wall clock in microseconds from 0001-01-01 on, and its offset
in microseconds. -/
structure Moment where
  wall : ℕ
  offset : ℤ
  wall_lt : wall < lastMicrosecond

/-- `moment.astimezone(UTC)`: `none` when the year leaves 1 to 9999 (`OverflowError`). -/
def Moment.toUtc (moment : Moment) : Option ℕ :=
  let utc := moment.wall - moment.offset
  if 0 ≤ utc ∧ utc < lastMicrosecond then some utc.toNat else none

/-- `str(id)`. -/
def uuidText (id : ℕ) : String :=
  let digits := (List.range 32).map fun i => Nat.digitChar (id / 16 ^ (31 - i) % 16)
  String.ofList (digits.take 8 ++ '-' :: (digits.drop 8).take 4 ++ '-' :: (digits.drop 12).take 4 ++
    '-' :: (digits.drop 16).take 4 ++ '-' :: digits.drop 20)

/-- A value a caller gives. -/
inductive FieldValue
  | none
  | uuid (id : ℕ)
  | text (text : String)
  /-- A `datetime`, without an offset or with one. -/
  | naive
  | aware (moment : Moment)
  | bool (b : Bool)
  | int (n : ℤ)
  /-- A `float`, if it is finite. -/
  | float (q : Option ℚ)
  /-- A value of any other type. -/
  | other

/-- What the payloads take from outside: the UUID a text names, the moment an ISO text names (one
without an offset names none), and the text of a number. A UTC time is read back with the offset 0,
and a number of at most `_MAX_NUMBER` is written in at most 327 characters of ASCII, even with all
its zeros (as `jsonb` does). -/
class PayloadTexts where
  uuid : String → Option ℕ
  fromisoformat : String → Option (Option Moment)
  fromisoformat_isoformatUtc : ∀ t < lastMicrosecond,
    ∃ moment, fromisoformat (isoformatUtc t) = some (some moment) ∧ moment.offset = 0
  numberText : ℚ → List Char
  numberText_ascii : ∀ q, ∀ c ∈ numberText q, c.utf8Size = 1
  numberText_length : ∀ q, |q| ≤ 2 ^ 53 → (numberText q).length ≤ 327

/-! ## Building -/

/-- `_IDS`. -/
def idKeys : List String := ["incident_id", "run_id", "step_id", "attempt_id"]

/-- `_TIMES`. -/
def timeKeys : List String := ["started_at", "ended_at"]

/-- `_NUMBERS`. -/
def numberKeys : List String :=
  ["input_tokens", "output_tokens", "total_tokens", "reasoning_tokens", "budget_seconds"]

/-- `_IDENTIFIERS`. -/
def identifierKeys : List String :=
  ["image_version", "image_revision", "prompt_revision", "tool_schema_revision",
    "context_policy_revision", "model"]

/-- `_CODES`. -/
def codeKeys : List String := ["handoff_reason", "tool_reason"]

/-- `PAYLOAD_KEYS`. -/
def payloadKeys : List String :=
  ["incident_id", "run_id", "step_id", "attempt_id", "image_version", "image_revision",
    "prompt_revision", "tool_schema_revision", "context_policy_revision", "model", "span_kind",
    "started_at", "ended_at", "input_tokens", "output_tokens", "total_tokens",
    "reasoning_tokens", "finish_reason", "run_state", "handoff_reason", "tool_status_class",
    "tool_reason", "tool_name", "source_contact", "budget_seconds"]

/-- `KINDS`. -/
inductive Kind
  | runState | modelStep | toolResult | generation
  deriving DecidableEq

/-- The text of a kind. -/
def Kind.text : Kind → String
  | runState => "run_state"
  | modelStep => "model_step"
  | toolResult => "tool_result"
  | generation => "generation"

/-- `KINDS`, as texts. -/
def kindTexts : List String := ["run_state", "model_step", "tool_result", "generation"]

/-- `_RUN_STATES`. -/
def runStateTexts : List String :=
  ["queued", "running", "waiting_human", "paused", "blocked", "completed", "failed", "cancelled",
    "budget_exhausted"]

/-- `_TOOL_STATUSES`. -/
def toolStatusTexts : List String := ["ok", "no_data", "error", "timeout", "denied"]

/-- `_SOURCE_CONTACTS`. -/
def sourceContactTexts : List String := ["none", "possible", "confirmed"]

/-- `UNCLASSIFIED`. -/
def unclassified : String := "UNCLASSIFIED"

/-- `_closed`. -/
def closed (allowed : List String) : FieldValue → String
  | .text text => if text ∈ allowed then text else unclassified
  | _ => unclassified

/-- `_shaped`. -/
def shaped (shape : Shape) : FieldValue → String
  | .text text => if shape.fullmatch text then text else unclassified
  | _ => unclassified

/-- `_number`. -/
def number? : FieldValue → Option ℚ
  | .int n => if |(n : ℚ)| ≤ 2 ^ 53 then some n else none
  | .float (some q) => if |q| ≤ 2 ^ 53 then some q else none
  | _ => none

/-- What ends `build_payload`: the `OverflowError` of a time. -/
inductive PayloadError
  | overflow
  deriving DecidableEq

section

variable [PayloadTexts]

/-- `_id`. -/
def idText? : FieldValue → Option String
  | .uuid id => some (uuidText id)
  | .text text => (PayloadTexts.uuid text).map uuidText
  | _ => none

/-- `_time`. -/
def time? : FieldValue → Except PayloadError (Option String)
  | .aware moment =>
    match moment.toUtc with
    | some utc => .ok (some (isoformatUtc utc))
    | none => .error .overflow
  | _ => .ok none

/-- What is kept of a value under a key of `PAYLOAD_KEYS` that is not a time's. -/
def keepPlain (key : String) (value : FieldValue) : Option Json :=
  if key ∈ idKeys then (idText? value).map .str
  else if key ∈ numberKeys then (number? value).map .num
  else if key ∈ identifierKeys then some (.str (shaped identifierShape value))
  else if key ∈ codeKeys then some (.str (shaped codeShape value))
  else if key = "finish_reason" then some (.str (shaped finishShape value))
  else if key = "tool_name" then
    match value with
    | .text text => if toolNameShape.fullmatch text then some (.str text) else none
    | _ => none
  else if key = "run_state" then some (.str (closed runStateTexts value))
  else if key = "tool_status_class" then some (.str (closed toolStatusTexts value))
  else if key = "source_contact" then some (.str (closed sourceContactTexts value))
  else if key = "span_kind" then some (.str (closed kindTexts value))
  else none

/-- What `build_payload` keeps of one field: nothing of a key outside `PAYLOAD_KEYS`, or of a
`None`. -/
def keep (key : String) (value : FieldValue) : Except PayloadError (Option Json) :=
  match value with
  | .none => .ok none
  | value =>
    if key ∉ payloadKeys then .ok none
    else if key ∈ timeKeys then (time? value).map fun text => text.map .str
    else .ok (keepPlain key value)

/-- `build_payload`. -/
def build : List (String × FieldValue) → Except PayloadError (List (String × Json))
  | [] => .ok []
  | (key, value) :: fields => do
    let kept ← keep key value
    let payload ← build fields
    pure (kept.toList.map (key, ·) ++ payload)

/-! ## What is kept -/

omit [PayloadTexts] in
theorem valueChar_digitChar : ∀ n < 16, valueChar (Nat.digitChar n) = true := by decide

omit [PayloadTexts] in
theorem valueChar_padded {width n : ℕ} : ∀ c ∈ padded width n, valueChar c = true := by
  intro c hc
  obtain ⟨i, -, rfl⟩ := List.mem_map.1 hc
  exact valueChar_digitChar _ (by omega)

omit [PayloadTexts] in
theorem length_padded (width n : ℕ) : (padded width n).length = width := by simp [padded]

omit [PayloadTexts] in
theorem uuidText_value (id : ℕ) : valueShape.fullmatch (uuidText id) = true := by
  rw [valueShape_fullmatch, uuidText, String.toList_ofList]
  set digits := (List.range 32).map fun i => Nat.digitChar (id / 16 ^ (31 - i) % 16) with hdigits
  have hlength : digits.length = 32 := by simp [hdigits]
  have hvalue : ∀ c ∈ digits, valueChar c = true := by
    intro c hc
    obtain ⟨i, -, rfl⟩ := List.mem_map.1 hc
    exact valueChar_digitChar _ (Nat.mod_lt _ (by omega))
  have htake : ∀ k n c, c ∈ (digits.drop k).take n → valueChar c = true := fun k n c hc =>
    hvalue c (List.mem_of_mem_drop (List.mem_of_mem_take hc))
  have hdash : valueChar '-' = true := by decide
  refine ⟨?_, by simp [hlength], by simp [hlength]⟩
  intro c hc
  simp only [List.mem_append, List.mem_cons] at hc
  rcases hc with (((hc | rfl | hc) | rfl | hc) | rfl | hc) | rfl | hc
  · exact hvalue c (List.mem_of_mem_take hc)
  · exact hdash
  · exact htake _ _ c hc
  · exact hdash
  · exact htake _ _ c hc
  · exact hdash
  · exact htake _ _ c hc
  · exact hdash
  · exact hvalue c (List.mem_of_mem_drop hc)

omit [PayloadTexts] in
theorem isoformatUtc_value (t : ℕ) : valueShape.fullmatch (isoformatUtc t) = true := by
  rw [valueShape_fullmatch, isoformatUtc, String.toList_ofList]
  set fraction := if t % 1000000 = 0 then [] else '.' :: padded 6 (t % 1000000) with hfraction
  have hlength : fraction.length ≤ 7 := by
    rw [hfraction]
    split <;> simp [length_padded]
  have hvalue : ∀ c ∈ fraction, valueChar c = true := by
    rw [hfraction]
    split
    · simp
    · intro c hc
      rcases List.mem_cons.1 hc with rfl | hc
      · decide
      · exact valueChar_padded c hc
  have hmarks : ∀ c ∈ ['-', 'T', ':'], valueChar c = true := List.all_eq_true.1 (by decide)
  have hzone : ∀ c ∈ "+00:00".toList, valueChar c = true := List.all_eq_true.1 (by decide)
  have hzoneLength : "+00:00".toList.length = 6 := by decide
  simp only [List.length_append, List.length_cons, length_padded, hzoneLength]
  refine ⟨?_, by omega, by omega⟩
  intro c hc
  simp only [List.mem_append, List.mem_cons] at hc
  rcases hc with ((((((hc | rfl | hc) | rfl | hc) | rfl | hc) | rfl | hc) | rfl | hc) | hc) | hc
  all_goals
    first
    | exact valueChar_padded c hc
    | exact hvalue c hc
    | exact hzone c hc
    | exact hmarks _ (by simp)

/-- What is kept under a key: a number, the text of a time, or a value. -/
def Sound (key : String) (value : Json) : Prop :=
  if key ∈ numberKeys then ∃ q, value = .num q ∧ |q| ≤ 2 ^ 53
  else if key ∈ timeKeys then ∃ t < lastMicrosecond, value = .str (isoformatUtc t)
  else ∃ text, value = .str text ∧ valueShape.fullmatch text = true

omit [PayloadTexts] in
theorem unclassified_value : valueShape.fullmatch unclassified = true := by decide

omit [PayloadTexts] in
theorem shaped_value {shape : Shape} (h : shape.Admits) (value : FieldValue) :
    valueShape.fullmatch (shaped shape value) = true := by
  cases value with
  | text text =>
    show valueShape.fullmatch (if shape.fullmatch text then text else unclassified) = true
    split
    · next hmatch => exact h.fullmatch hmatch
    · exact unclassified_value
  | _ => exact unclassified_value

omit [PayloadTexts] in
theorem closed_value {allowed : List String}
    (h : ∀ text ∈ allowed, valueShape.fullmatch text = true) (value : FieldValue) :
    valueShape.fullmatch (closed allowed value) = true := by
  cases value with
  | text text =>
    show valueShape.fullmatch (if text ∈ allowed then text else unclassified) = true
    split
    · next hmem => exact h text hmem
    · exact unclassified_value
  | _ => exact unclassified_value

omit [PayloadTexts] in
/-- The texts of the closed vocabularies are values. -/
theorem vocabularies_value : ∀ text ∈ runStateTexts ++ toolStatusTexts ++ sourceContactTexts ++
    kindTexts, valueShape.fullmatch text = true := by decide

omit [PayloadTexts] in
theorem number?_le {value : FieldValue} {q : ℚ} (h : number? value = some q) : |q| ≤ 2 ^ 53 := by
  unfold number? at h
  split at h
  · split at h
    · next hle =>
      obtain rfl := Option.some.inj h
      exact hle
    · cases h
  · split at h
    · next hle =>
      obtain rfl := Option.some.inj h
      exact hle
    · cases h
  · cases h

omit [PayloadTexts] in
theorem Moment.toUtc_lt {moment : Moment} {utc : ℕ} (h : moment.toUtc = some utc) :
    utc < lastMicrosecond := by
  unfold Moment.toUtc at h
  dsimp only at h
  split at h
  · obtain rfl := Option.some.inj h
    omega
  · cases h

omit [PayloadTexts] in
theorem time?_eq_ok {value : FieldValue} {text : String} (h : time? value = .ok (some text)) :
    ∃ t < lastMicrosecond, text = isoformatUtc t := by
  cases value with
  | aware moment =>
    cases hutc : moment.toUtc with
    | some utc =>
      simp only [time?, hutc] at h
      exact ⟨utc, Moment.toUtc_lt hutc, (Option.some.inj (Except.ok.inj h)).symm⟩
    | none => simp [time?, hutc] at h
  | _ => simp [time?] at h

variable {e : PayloadError} {fields : List (String × FieldValue)}

omit [PayloadTexts] in
/-- Only a time out of the calendar raises. -/
theorem time?_error {value : FieldValue} :
    time? value = .error e ↔ ∃ moment, value = .aware moment ∧ moment.toUtc = none := by
  cases value with
  | aware moment => cases hutc : moment.toUtc <;> cases e <;> simp [time?, hutc]
  | _ => simp [time?]

theorem idText?_value {value : FieldValue} {text : String} (h : idText? value = some text) :
    valueShape.fullmatch text = true := by
  unfold idText? at h
  split at h
  · obtain rfl := Option.some.inj h
    exact uuidText_value _
  · obtain ⟨id, -, rfl⟩ := Option.map_eq_some_iff.1 h
    exact uuidText_value id
  · cases h

theorem keepPlain_sound {key : String} {value : FieldValue} {kept : Json}
    (htime : key ∉ timeKeys) (h : keepPlain key value = some kept) : Sound key kept := by
  have hvocabularies := vocabularies_value
  simp only [List.forall_mem_append] at hvocabularies
  obtain ⟨⟨⟨hstates, hstatuses⟩, hcontacts⟩, hkinds⟩ := hvocabularies
  have hids : ∀ key ∈ idKeys, key ∉ numberKeys := by decide
  unfold keepPlain at h
  by_cases hnumber : key ∈ numberKeys
  · have hid : key ∉ idKeys := fun hid => hids key hid hnumber
    rw [if_neg hid, if_pos hnumber] at h
    obtain ⟨q, hq, rfl⟩ := Option.map_eq_some_iff.1 h
    rw [Sound, if_pos hnumber]
    exact ⟨q, rfl, number?_le hq⟩
  -- every other key keeps a text, classified or not
  have htext : ∀ {text : String}, valueShape.fullmatch text = true → some (.str text) = some kept →
      Sound key kept := by
    intro text hmatch hkept
    rw [Sound, if_neg hnumber, if_neg htime]
    exact ⟨text, (Option.some.inj hkept).symm, hmatch⟩
  by_cases hid : key ∈ idKeys
  · rw [if_pos hid] at h
    obtain ⟨text, hid, hkept⟩ := Option.map_eq_some_iff.1 h
    exact htext (idText?_value hid) (congrArg some hkept)
  rw [if_neg hid, if_neg hnumber] at h
  by_cases hidentifier : key ∈ identifierKeys
  · rw [if_pos hidentifier] at h
    exact htext (shaped_value identifierShape_admits value) h
  rw [if_neg hidentifier] at h
  by_cases hcode : key ∈ codeKeys
  · rw [if_pos hcode] at h
    exact htext (shaped_value codeShape_admits value) h
  rw [if_neg hcode] at h
  by_cases hfinish : key = "finish_reason"
  · rw [if_pos hfinish] at h
    exact htext (shaped_value finishShape_admits value) h
  rw [if_neg hfinish] at h
  by_cases htool : key = "tool_name"
  · rw [if_pos htool] at h
    cases value with
    | text text =>
      by_cases hname : toolNameShape.fullmatch text = true
      · refine htext (toolNameShape_admits.fullmatch hname) ?_
        simpa [hname] using h
      · simp [hname] at h
    | _ => cases h
  rw [if_neg htool] at h
  by_cases hstate : key = "run_state"
  · rw [if_pos hstate] at h
    exact htext (closed_value hstates value) h
  rw [if_neg hstate] at h
  by_cases hstatus : key = "tool_status_class"
  · rw [if_pos hstatus] at h
    exact htext (closed_value hstatuses value) h
  rw [if_neg hstatus] at h
  by_cases hcontact : key = "source_contact"
  · rw [if_pos hcontact] at h
    exact htext (closed_value hcontacts value) h
  rw [if_neg hcontact] at h
  by_cases hspan : key = "span_kind"
  · rw [if_pos hspan] at h
    exact htext (closed_value hkinds value) h
  · rw [if_neg hspan] at h
    cases h

/-- What is kept of a field is sound. -/
theorem keep_sound {key : String} {value : FieldValue} {kept : Json}
    (h : keep key value = .ok (some kept)) : key ∈ payloadKeys ∧ Sound key kept := by
  have hnumbers : ∀ key ∈ timeKeys, key ∉ numberKeys := by decide
  unfold keep at h
  split at h
  · cases h
  · by_cases hkey : key ∉ payloadKeys
    · rw [if_pos hkey] at h
      cases h
    · rw [if_neg hkey] at h
      refine ⟨not_not.1 hkey, ?_⟩
      by_cases htime : key ∈ timeKeys
      · rw [if_pos htime] at h
        cases hread : time? value with
        | error e => simp [hread, Except.map] at h
        | ok text =>
          rw [hread] at h
          obtain ⟨text, rfl, rfl⟩ := Option.map_eq_some_iff.1 (Except.ok.inj h)
          obtain ⟨t, ht, rfl⟩ := time?_eq_ok hread
          rw [Sound, if_neg (hnumbers key htime), if_pos htime]
          exact ⟨t, ht, rfl⟩
      · rw [if_neg htime] at h
        exact keepPlain_sound htime (Except.ok.inj h)

/-- A field under which the UTC time of a moment is out of the calendar. -/
def Overflows (field : String × FieldValue) : Prop :=
  field.1 ∈ timeKeys ∧ ∃ moment, field.2 = .aware moment ∧ moment.toUtc = none

theorem keep_error {key : String} {value : FieldValue} :
    keep key value = .error e ↔ Overflows (key, value) := by
  have htimes : ∀ key ∈ timeKeys, key ∈ payloadKeys := by decide
  unfold keep Overflows
  split
  · simp
  · by_cases htime : key ∈ timeKeys
    · rw [if_neg (not_not.2 (htimes key htime)), if_pos htime, ← time?_error (e := e)]
      cases time? value with
      | error e' => cases e; cases e'; simp [Except.map, htime]
      | ok text => simp [Except.map]
    · by_cases hkey : key ∉ payloadKeys
      · simp [hkey, htime]
      · rw [if_neg hkey, if_neg htime]
        simp [htime]

/-- **When a payload is not built**: a time in it overflows. -/
theorem build_error :
    build fields = .error e ↔ ∃ field ∈ fields, Overflows field := by
  induction fields with
  | nil => simp [build]
  | cons field fields ih =>
    obtain ⟨key, value⟩ := field
    simp only [List.mem_cons, exists_eq_or_imp]
    rw [← ih, ← keep_error (e := e), build]
    cases hkeep : keep key value with
    | error e' => cases e; cases e'; exact ⟨fun _ => .inl rfl, fun _ => rfl⟩
    | ok kept =>
      cases hbuild : build fields with
      | error e' => cases e; cases e'; exact ⟨fun _ => .inr rfl, fun _ => rfl⟩
      | ok payload =>
        constructor
        · intro h
          cases h
        · rintro (h | h) <;> cases h

/-- The fields of a payload are fields given, under keys of `PAYLOAD_KEYS`, each sound. -/
theorem build_sound {payload : List (String × Json)} (h : build fields = .ok payload) :
    (payload.map Prod.fst).Sublist (fields.map Prod.fst) ∧
      ∀ key value, (key, value) ∈ payload → key ∈ payloadKeys ∧ Sound key value := by
  induction fields generalizing payload with
  | nil =>
    obtain rfl := Except.ok.inj h
    exact ⟨List.Sublist.slnil, fun _ _ hmem => absurd hmem List.not_mem_nil⟩
  | cons field fields ih =>
    obtain ⟨key, value⟩ := field
    obtain ⟨kept, hkept, h⟩ := bind_eq_ok.1 h
    obtain ⟨rest, hrest, h⟩ := bind_eq_ok.1 h
    obtain rfl := Except.ok.inj h
    obtain ⟨hkeys, hsound⟩ := ih hrest
    cases kept with
    | none => exact ⟨hkeys.cons _, hsound⟩
    | some kept =>
      refine ⟨hkeys.cons_cons _, ?_⟩
      intro key' value' hmem
      rcases List.mem_cons.1 hmem with heq | hmem
      · obtain ⟨rfl, rfl⟩ := Prod.mk.inj heq
        exact keep_sound hkept
      · exact hsound key' value' hmem

/-! ## The size of a payload -/

open Json (dumps dumpsFields quote escapeChar Style)

/-- `json.dumps(payload)`: texts and numbers are ASCII, so that nothing is escaped. -/
def payloadStyle : Style where
  item := [',', ' ']
  key := [':', ' ']
  number := PayloadTexts.numberText

/-- The bytes of a text in UTF-8. -/
def byteCount (text : List Char) : ℕ := (text.map Char.utf8Size).sum

omit [PayloadTexts] in
theorem byteCount_append (text text' : List Char) :
    byteCount (text ++ text') = byteCount text + byteCount text' := by
  simp [byteCount]

omit [PayloadTexts] in
theorem byteCount_cons (c : Char) (text : List Char) :
    byteCount (c :: text) = c.utf8Size + byteCount text := by
  simp [byteCount]

omit [PayloadTexts] in
/-- A text of ASCII has as many bytes as characters. -/
theorem byteCount_ascii {text : List Char} (h : ∀ c ∈ text, c.utf8Size = 1) :
    byteCount text = text.length := by
  induction text with
  | nil => rfl
  | cons c text ih =>
    rw [byteCount_cons, h c List.mem_cons_self, ih fun d hd => h d (List.mem_cons_of_mem _ hd),
      List.length_cons]
    omega

omit [PayloadTexts] in
theorem valueChar_plain (h : valueChar c = true) :
    escapeChar c = [c] ∧ c.utf8Size = 1 := by
  have hrange : 32 ≤ c.toNat ∧ c.toNat < 128 := by
    simp only [valueChar, Char.isAlphanum, Char.isAlpha, Char.isUpper, Char.isLower, Char.isDigit,
      Bool.or_eq_true, Bool.and_eq_true, decide_eq_true_eq, List.mem_cons, List.not_mem_nil,
      or_false, ge_iff_le, UInt32.le_iff_toNat_le] at h
    rcases h with ((h | h) | h) | rfl | rfl | rfl | rfl | rfl
    case inl.inl.inl =>
      have hlow : 65 ≤ c.toNat := h.1
      have hhigh : c.toNat ≤ 90 := h.2
      omega
    case inl.inl.inr =>
      have hlow : 97 ≤ c.toNat := h.1
      have hhigh : c.toNat ≤ 122 := h.2
      omega
    case inl.inr =>
      have hlow : 48 ≤ c.toNat := h.1
      have hhigh : c.toNat ≤ 57 := h.2
      omega
    all_goals decide
  have hquote : ¬ (c = '"' ∨ c = '\\') := by
    rintro (rfl | rfl) <;> exact absurd h (by decide)
  have hcontrol : c ≠ '\n' ∧ c ≠ '\r' ∧ c ≠ '\t' := by
    refine ⟨?_, ?_, ?_⟩ <;> rintro rfl <;> exact absurd h (by decide)
  constructor
  · unfold escapeChar
    rw [if_neg hquote, if_neg hcontrol.1, if_neg hcontrol.2.1, if_neg hcontrol.2.2,
      if_neg (by omega), if_neg (by omega), if_neg (by omega)]
  · rw [Char.utf8Size_eq_one_iff, UInt32.le_iff_toNat_le]
    show c.toNat ≤ 127
    omega

omit [PayloadTexts] in
/-- A value is written between quotes, as it is. -/
theorem byteCount_quote {text : String} (h : ∀ c ∈ text.toList, valueChar c = true) :
    byteCount (quote text) = text.toList.length + 2 := by
  have hescaped : text.toList.flatMap escapeChar = text.toList := by
    generalize text.toList = chars at h
    induction chars with
    | nil => rfl
    | cons c chars ih =>
      rw [List.flatMap_cons, (valueChar_plain (h c List.mem_cons_self)).1,
        ih fun d hd => h d (List.mem_cons_of_mem _ hd)]
      rfl
  rw [quote, List.cons_append, byteCount_cons, byteCount_append, hescaped,
    byteCount_ascii fun c hc => (valueChar_plain (h c hc)).2]
  have hquote : ('"').utf8Size = 1 := by decide
  have hlast : byteCount ['"'] = 1 := by decide
  omega

/-- The bytes a value under a key may have. -/
def weight (key : String) : ℕ := if key ∈ numberKeys then 327 else 66

omit [PayloadTexts] in
/-- The keys of a payload are plain texts of at most 23 characters. -/
theorem payloadKeys_plain {key : String} (h : key ∈ payloadKeys) :
    (∀ c ∈ key.toList, valueChar c = true) ∧ key.toList.length ≤ 23 := by
  have hkeys : payloadKeys.all (fun key => key.toList.all valueChar && key.toList.length ≤ 23) =
      true := by decide
  have hkey := List.all_eq_true.1 hkeys key h
  simpa only [Bool.and_eq_true, List.all_eq_true, decide_eq_true_eq] using hkey

theorem byteCount_value {key : String} {value : Json} (h : Sound key value) :
    byteCount (dumps payloadStyle value) ≤ weight key := by
  have hvalue : ∀ {text : String}, valueShape.fullmatch text = true →
      byteCount (quote text) ≤ 66 := by
    intro text hmatch
    obtain ⟨hchars, -, hlength⟩ := valueShape_fullmatch.1 hmatch
    rw [byteCount_quote hchars]
    omega
  unfold Sound at h
  unfold weight
  by_cases hnumber : key ∈ numberKeys
  · rw [if_pos hnumber] at h ⊢
    obtain ⟨q, rfl, hq⟩ := h
    show byteCount (PayloadTexts.numberText q) ≤ 327
    rw [byteCount_ascii (PayloadTexts.numberText_ascii q)]
    exact PayloadTexts.numberText_length q hq
  · rw [if_neg hnumber] at h ⊢
    by_cases htime : key ∈ timeKeys
    · rw [if_pos htime] at h
      obtain ⟨t, -, rfl⟩ := h
      exact hvalue (isoformatUtc_value t)
    · rw [if_neg htime] at h
      obtain ⟨text, rfl, hmatch⟩ := h
      exact hvalue hmatch

/-- The bytes of the fields of a payload, each after a separator. -/
theorem byteCount_dumpsFields {payload : List (String × Json)}
    (h : ∀ key value, (key, value) ∈ payload → key ∈ payloadKeys ∧ Sound key value) :
    byteCount (dumpsFields payloadStyle payload) ≤
      1 + ((payload.map Prod.fst).map fun key => 29 + weight key).sum := by
  have hmark : byteCount ['}'] = 1 ∧ byteCount [',', ' '] = 2 ∧ byteCount [':', ' '] = 2 := by
    decide
  induction payload with
  | nil => exact Nat.le_of_eq hmark.1
  | cons field payload ih =>
    obtain ⟨key, value⟩ := field
    obtain ⟨hkey, hsound⟩ := h key value List.mem_cons_self
    have hrest := ih fun key value hmem => h key value (List.mem_cons_of_mem _ hmem)
    have hquote := byteCount_quote (payloadKeys_plain hkey).1
    have hlength := (payloadKeys_plain hkey).2
    have hvalue := byteCount_value hsound
    have hitem : byteCount payloadStyle.item = 2 := hmark.2.1
    have hcolon : byteCount payloadStyle.key = 2 := hmark.2.2
    rw [dumpsFields]
    simp only [byteCount_append, List.map_cons, List.sum_cons]
    omega

theorem byteCount_dumps {payload : List (String × Json)}
    (h : ∀ key value, (key, value) ∈ payload → key ∈ payloadKeys ∧ Sound key value) :
    byteCount (dumps payloadStyle (.obj payload)) ≤
      2 + ((payload.map Prod.fst).map fun key => 29 + weight key).sum := by
  cases payload with
  | nil =>
    have hbraces : byteCount ['{', '}'] = 2 := by decide
    exact Nat.le_of_eq hbraces
  | cons field payload =>
    -- the first field has no separator before it
    have hfields := byteCount_dumpsFields h
    obtain ⟨key, value⟩ := field
    have hopen : ('{').utf8Size = 1 := by decide
    rw [dumpsFields] at hfields
    rw [dumps]
    simp only [byteCount_append, byteCount_cons, List.cons_append] at hfields ⊢
    omega

/-- **A payload fits its column.** -/
theorem size_le (hnodup : (fields.map Prod.fst).Nodup) {payload : List (String × Json)}
    (h : build fields = .ok payload) :
    byteCount (dumps payloadStyle (.obj payload)) ≤ 4096 := by
  obtain ⟨hkeys, hsound⟩ := build_sound h
  have hsubset : payload.map Prod.fst ⊆ payloadKeys := by
    intro key hkey
    obtain ⟨⟨key, value⟩, hmem, rfl⟩ := List.mem_map.1 hkey
    exact (hsound key value hmem).1
  obtain ⟨keys, hperm, hsub⟩ := List.subperm_of_subset (hnodup.sublist hkeys) hsubset
  calc byteCount (dumps payloadStyle (.obj payload))
    _ ≤ 2 + ((payload.map Prod.fst).map fun key => 29 + weight key).sum := byteCount_dumps hsound
    _ = 2 + (keys.map fun key => 29 + weight key).sum := by
      rw [(hperm.map fun key => 29 + weight key).sum_eq]
    _ ≤ 2 + (payloadKeys.map fun key => 29 + weight key).sum :=
      Nat.add_le_add_left ((hsub.map _).sum_le_sum fun _ _ => Nat.zero_le _) 2
    _ ≤ 4096 := by decide

end

end OpsPilot.Payload
