import Mathlib.Data.List.Sort
import OpsPilot.Foundations.Transaction
import OpsPilot.Redaction.Names

/-!
# JSON bodies

`json.loads` and `json.dumps` on the strings of Python, as the redaction of a body uses them
(`opspilot/redaction.py`). A value keeps what its text and its bytes depend on: a number is an
integer or the token of a float, a string may hold unpaired surrogates, and an object lists its
fields in the order in which the dictionary holds them.

* `loads`: the value of a text, with the function that makes an object of its fields
  (`object_pairs_hook`). `pairs` keeps them all, `dictionary` the last one of a key, `distinct`
  refuses a key that comes twice.
* `loads_build`: what a reader reads is what its function makes of the value with all fields.
* `dumps`: the canonical text of a value.

How deep containers may nest and what the text of a float is are the parameters of the class
`JsonTexts`.
-/

namespace OpsPilot.Redaction

/-- A JSON value. -/
inductive Tree
  | null
  | bool (b : Bool)
  | int (n : ℤ)
  | float (token : Text)
  | str (text : Text)
  | arr (items : List Tree)
  | obj (fields : List (Text × Tree))

namespace Tree

mutual

/-- Decidable equality of values. -/
def decEq : (a b : Tree) → Decidable (a = b)
  | null, null => isTrue rfl
  | bool a, bool b => decidable_of_iff (a = b) (by simp)
  | int a, int b => decidable_of_iff (a = b) (by simp)
  | float a, float b => decidable_of_iff (a = b) (by simp)
  | str a, str b => decidable_of_iff (a = b) (by simp)
  | arr a, arr b => @decidable_of_iff _ (a = b) (by simp) (decEqItems a b)
  | obj a, obj b => @decidable_of_iff _ (a = b) (by simp) (decEqFields a b)
  | null, bool _ | null, int _ | null, float _ | null, str _ | null, arr _ | null, obj _
  | bool _, null | bool _, int _ | bool _, float _ | bool _, str _ | bool _, arr _ | bool _, obj _
  | int _, null | int _, bool _ | int _, float _ | int _, str _ | int _, arr _ | int _, obj _
  | float _, null | float _, bool _ | float _, int _ | float _, str _ | float _, arr _
  | float _, obj _
  | str _, null | str _, bool _ | str _, int _ | str _, float _ | str _, arr _ | str _, obj _
  | arr _, null | arr _, bool _ | arr _, int _ | arr _, float _ | arr _, str _ | arr _, obj _
  | obj _, null | obj _, bool _ | obj _, int _ | obj _, float _ | obj _, str _ | obj _, arr _ =>
    isFalse (by simp)

/-- Decidable equality of the items of two arrays. -/
def decEqItems : (a b : List Tree) → Decidable (a = b)
  | [], [] => isTrue rfl
  | [], _ :: _ | _ :: _, [] => isFalse (by simp)
  | x :: xs, y :: ys =>
    match decEq x y, decEqItems xs ys with
    | isTrue h, isTrue h' => isTrue (by rw [h, h'])
    | isFalse h, _ => isFalse (by simp [h])
    | _, isFalse h => isFalse (by simp [h])

/-- Decidable equality of the fields of two objects. -/
def decEqFields : (a b : List (Text × Tree)) → Decidable (a = b)
  | [], [] => isTrue rfl
  | [], _ :: _ | _ :: _, [] => isFalse (by simp)
  | (k, x) :: xs, (l, y) :: ys =>
    match decEq x y, decEqFields xs ys with
    | isTrue h, isTrue h' => decidable_of_iff (k = l) (by simp [h, h'])
    | isFalse h, _ => isFalse (by simp [h])
    | _, isFalse h => isFalse (by simp [h])

end

instance : DecidableEq Tree := decEq

end Tree

/-- What the JSON modules know of the machine: how deep the decoder nests before it raises
`RecursionError`, and `float.__repr__` of the float of a token. -/
class JsonTexts where
  recursionLimit : ℕ
  floatRepr : Text → Text

/-- The errors of a reader: text that is not JSON or too deep, and a key that comes twice. -/
inductive ReadError
  | invalid | duplicateKey
  deriving DecidableEq

/-! ## Tokens -/

/-- The text after the white space it starts with. -/
def skipBlank (text : Text) : Text := text.dropWhile (· ∈ literal " \t\n\r")

/-- The character of a one-letter escape. -/
def shortEscape (c : Code) : Option Code :=
  if c = '"' ∨ c = '\\' ∨ c = '/' then some c
  else if c = 'b' then some (.ofPoint 8)
  else if c = 'f' then some (.ofPoint 12)
  else if c = 'n' then some '\n'
  else if c = 'r' then some '\r'
  else if c = 't' then some '\t'
  else none

/-- The character of a high and a low surrogate escape. -/
def joinSurrogates (high low : ℕ) : Option Code :=
  if 0xD800 ≤ high ∧ high < 0xDC00 ∧ 0xDC00 ≤ low ∧ low < 0xE000 then
    some (.ofPoint (0x10000 + (high - 0xD800) * 0x400 + (low - 0xDC00)))
  else none

/-- The characters of a string up to its closing quote, each with whether it is a `\uXXXX` escape,
and the text after it. A control character must be escaped. -/
def scanUnits : Text → Option (List (Code × Bool) × Text)
  | [] => none
  | .char '"' :: rest => some ([], rest)
  | .char '\\' :: .char 'u' :: a :: b :: c :: d :: rest => do
    let point ← hexFour a b c d
    let (units, rest) ← scanUnits rest
    some ((.ofPoint point, true) :: units, rest)
  | .char '\\' :: c :: rest => do
    let code ← shortEscape c
    let (units, rest) ← scanUnits rest
    some ((code, false) :: units, rest)
  | c :: rest => do
    if c.point < 32 then none
    let (units, rest) ← scanUnits rest
    some ((c, false) :: units, rest)

/-- The text of the characters of a string: two escapes that make a surrogate pair are one. -/
def joinUnits : List (Code × Bool) → Text
  | [] => []
  | [unit] => [unit.1]
  | high :: low :: units =>
    match high.2 && low.2, joinSurrogates high.1.point low.1.point with
    | true, some code => code :: joinUnits units
    | _, _ => high.1 :: joinUnits (low :: units)

/-- The string that starts after an opening quote, and the text after it. -/
def scanText (text : Text) : Option (Text × Text) :=
  (scanUnits text).map fun (units, rest) => (joinUnits units, rest)

/-- The integer part of a number and the text after it: a lone `0`, or digits that start with no
`0`. -/
def scanInteger : Text → Option (Text × Text)
  | .char '0' :: rest => some (literal "0", rest)
  | text =>
    if text.takeWhile Code.isDigit = [] then none
    else some (text.takeWhile Code.isDigit, text.dropWhile Code.isDigit)

/-- The fraction of a number and the text after it. -/
def scanFraction : Text → Text × Text
  | .char '.' :: text =>
    if text.takeWhile Code.isDigit = [] then ([], .char '.' :: text)
    else (.char '.' :: text.takeWhile Code.isDigit, text.dropWhile Code.isDigit)
  | text => ([], text)

/-- The exponent of a number and the text after it. -/
def scanExponent (text : Text) : Text × Text :=
  let sign := match text.drop 1 with
    | c :: _ => if c ∈ literal "+-" then 2 else 1
    | [] => 1
  let digits := (text.drop sign).takeWhile Code.isDigit
  if ¬ (text.head?).any (· ∈ literal "eE") ∨ digits = [] then ([], text)
  else (text.take sign ++ digits, (text.drop sign).dropWhile Code.isDigit)

/-- The value of decimal digits. -/
def digitsValue (digits : Text) : ℕ := digits.foldl (fun n c => 10 * n + (c.point - 48)) 0

/-- The number of an integer part and of the fraction and exponent after it. An integer may not
have more digits than `int` reads. -/
def numberOf (negative : Bool) (integer tail : Text) : Option Tree :=
  if tail ≠ [] then some (.float ((if negative then literal "-" else []) ++ integer ++ tail))
  else if intMaxStrDigits < integer.length then none
  else some (.int (if negative then -digitsValue integer else digitsValue integer))

/-- A number after its sign, and the text after it. -/
def scanUnsigned (negative : Bool) (text : Text) : Option (Tree × Text) := do
  let (integer, rest) ← scanInteger text
  let (fraction, rest) := scanFraction rest
  let (exponent, rest) := scanExponent rest
  let number ← numberOf negative integer (fraction ++ exponent)
  some (number, rest)

/-- The literals, and the value of each. -/
def constants : List (Text × Tree) :=
  [(literal "null", .null), (literal "true", .bool true), (literal "false", .bool false),
    (literal "NaN", .float (literal "NaN")), (literal "Infinity", .float (literal "Infinity")),
    (literal "-Infinity", .float (literal "-Infinity"))]

/-- A literal or a number, and the text after it. -/
def scanScalar (text : Text) : Option (Tree × Text) :=
  match constants.find? fun (name, _) => name.isPrefixOf text with
  | some (name, value) => some (value, text.drop name.length)
  | none =>
    match text with
    | .char '-' :: text => scanUnsigned true text
    | text => scanUnsigned false text

/-- A value that holds no other, and the text after it. -/
def scanLeaf (text : Text) : Except ReadError (Tree × Text) :=
  match text with
  | .char '"' :: rest =>
    require ((scanText rest).map fun (text, rest) => (.str text, rest)) .invalid
  | text => require (scanScalar text) .invalid

/-- The key of a field with its colon, and the text after it. -/
def scanKey (text : Text) : Except ReadError (Text × Text) := do
  refuse (text.head? ≠ some '"') .invalid
  let (key, rest) ← require (scanText text.tail) .invalid
  refuse ((skipBlank rest).head? ≠ some ':') .invalid
  .ok (key, skipBlank (skipBlank rest).tail)

section

variable {α β : Type} (close : Code) (scan : Text → Except ReadError (List α × Text))

/-- The entries after an opening bracket: none, when it is closed at once. -/
def scanEntries (text : Text) : Except ReadError (List α × Text) :=
  if text.head? = some close then .ok ([], text.tail) else scan text

/-- The entries after an entry: none, or a comma and more of them. -/
def scanMore (text : Text) : Except ReadError (List α × Text) :=
  if text.head? = some close then .ok ([], text.tail)
  else if text.head? = some ',' then scan (skipBlank text.tail)
  else .error .invalid

end

/-! ## Values -/

/-- What makes an object of its fields: `object_pairs_hook`. -/
abbrev Hook := List (Text × Tree) → Except ReadError Tree

section

variable (hook : Hook)

mutual

/-- A value at a depth that is left, and the text after it. The fuel counts the values and the
containers that are still to come: each takes a character. -/
def scanTree : ℕ → ℕ → Text → Except ReadError (Tree × Text)
  | 0, _, _ => .error .invalid
  | fuel + 1, depth, text =>
    match text with
    | .char '[' :: rest => do
      refuse (depth = 0) .invalid
      let (items, rest) ← scanEntries ']' (scanItems fuel (depth - 1)) (skipBlank rest)
      .ok (.arr items, rest)
    | .char '\x7b' :: rest => do
      refuse (depth = 0) .invalid
      let (fields, rest) ← scanEntries '\x7d' (scanFields fuel (depth - 1)) (skipBlank rest)
      let value ← hook fields
      .ok (value, rest)
    | text => scanLeaf text

/-- The items of an array up to its closing bracket, and the text after it. -/
def scanItems : ℕ → ℕ → Text → Except ReadError (List Tree × Text)
  | 0, _, _ => .error .invalid
  | fuel + 1, depth, text => do
    let (item, rest) ← scanTree fuel depth text
    let (items, rest) ← scanMore ']' (scanItems fuel depth) (skipBlank rest)
    .ok (item :: items, rest)

/-- The fields of an object up to its closing brace, and the text after it. -/
def scanFields : ℕ → ℕ → Text → Except ReadError (List (Text × Tree) × Text)
  | 0, _, _ => .error .invalid
  | fuel + 1, depth, text => do
    let (key, rest) ← scanKey text
    let (value, rest) ← scanTree fuel depth rest
    let (fields, rest) ← scanMore '\x7d' (scanFields fuel depth) (skipBlank rest)
    .ok ((key, value) :: fields, rest)

end

/-- `json.loads(text, object_pairs_hook=hook)`. -/
def loads [JsonTexts] (text : Text) : Except ReadError Tree := do
  let (value, rest) ← scanTree hook (text.length + 1) JsonTexts.recursionLimit (skipBlank text)
  if skipBlank rest = [] then .ok value else .error .invalid

end

/-! ## The objects of a reader -/

/-- `result[key] = value`. -/
def dictSet (fields : List (Text × Tree)) (key : Text) (value : Tree) : List (Text × Tree) :=
  if key ∈ fields.map Prod.fst then
    fields.map fun field => if field.1 = key then (key, value) else field
  else fields ++ [(key, value)]

/-- `dict(pairs)`. -/
def dictOf (entries : List (Text × Tree)) : List (Text × Tree) :=
  entries.foldl (fun fields entry => dictSet fields entry.1 entry.2) []

/-- The object of all fields, repeated ones included. -/
def pairs : Hook := fun fields => .ok (.obj fields)

/-- The object `json.loads` makes without a hook. -/
def dictionary : Hook := fun fields => .ok (.obj (dictOf fields))

/-- `_pairs_without_duplicates`. -/
def distinct : Hook := fun fields =>
  if (dictOf fields).length ≠ fields.length then .error .duplicateKey
  else .ok (.obj (dictOf fields))

/-- `has_duplicate_keys`. -/
def hasDuplicateKeys [JsonTexts] (text : Text) : Bool :=
  match loads distinct text with
  | .error .duplicateKey => true
  | _ => false

section

variable (hook : Hook)

mutual

/-- The value a hook makes of a value with all its fields, inner objects first. -/
def build : Tree → Except ReadError Tree
  | .arr items => do
    let items ← buildItems items
    .ok (.arr items)
  | .obj fields => do
    let fields ← buildFields fields
    hook fields
  | value => .ok value

/-- The items of an array. -/
def buildItems : List Tree → Except ReadError (List Tree)
  | [] => .ok []
  | item :: items => do
    let item ← build item
    let items ← buildItems items
    .ok (item :: items)

/-- The values of fields. -/
def buildFields : List (Text × Tree) → Except ReadError (List (Text × Tree))
  | [] => .ok []
  | (key, value) :: fields => do
    let value ← build value
    let fields ← buildFields fields
    .ok ((key, value) :: fields)

end

end

mutual

/-- The value with the last value of every key. -/
def collapse : Tree → Tree
  | .arr items => .arr (collapseItems items)
  | .obj fields => .obj (dictOf (collapseFields fields))
  | value => value

/-- The items of an array. -/
def collapseItems : List Tree → List Tree
  | [] => []
  | item :: items => collapse item :: collapseItems items

/-- The values of fields. -/
def collapseFields : List (Text × Tree) → List (Text × Tree)
  | [] => []
  | (key, value) :: fields => (key, collapse value) :: collapseFields fields

end

/-! ## What a hook reads -/

variable {tree : Tree}

section

/-- `read'` reads `f a` wherever `read` reads `a`. -/
def Follows {α β : Type} (f : α → Except ReadError β) (read : Text → Except ReadError (α × Text))
    (read' : Text → Except ReadError (β × Text)) : Prop :=
  ∀ text a rest, read text = .ok (a, rest) → read' text = (f a).map (·, rest)

variable {α β : Type} {close : Code} {f : List α → Except ReadError (List β)}
  {read : Text → Except ReadError (List α × Text)} {read' : Text → Except ReadError (List β × Text)}

theorem Follows.scanEntries (h : Follows f read read') (hnil : f [] = .ok []) :
    Follows f (scanEntries close read) (scanEntries close read') := by
  intro text items rest hread
  unfold Redaction.scanEntries at hread ⊢
  by_cases hclose : text.head? = some close
  · rw [if_pos hclose] at hread ⊢
    obtain ⟨rfl, rfl⟩ := Prod.mk.inj (Except.ok.inj hread)
    rw [hnil]
    rfl
  · rw [if_neg hclose] at hread ⊢
    exact h text items rest hread

theorem Follows.scanMore (h : Follows f read read') (hnil : f [] = .ok []) :
    Follows f (scanMore close read) (scanMore close read') := by
  intro text items rest hread
  unfold Redaction.scanMore at hread ⊢
  by_cases hclose : text.head? = some close
  · rw [if_pos hclose] at hread ⊢
    obtain ⟨rfl, rfl⟩ := Prod.mk.inj (Except.ok.inj hread)
    rw [hnil]
    rfl
  · rw [if_neg hclose] at hread ⊢
    by_cases hcomma : text.head? = some ','
    · rw [if_pos hcomma] at hread ⊢
      exact h _ items rest hread
    · rw [if_neg hcomma] at hread
      cases hread

variable {hook : Hook}

theorem numberOf_build {negative : Bool} {integer tail : Text}
    (h : numberOf negative integer tail = some tree) : build hook tree = .ok tree := by
  unfold numberOf at h
  split at h
  · cases h
    simp [build]
  · split at h
    · cases h
    · cases h
      simp [build]

theorem scanUnsigned_build {negative : Bool} {text rest : Text}
    (h : scanUnsigned negative text = some (tree, rest)) : build hook tree = .ok tree := by
  obtain ⟨⟨integer, text⟩, -, h⟩ := Option.bind_eq_some_iff.1 h
  obtain ⟨number, hnumber, h⟩ := Option.bind_eq_some_iff.1 h
  obtain ⟨rfl, -⟩ := Prod.mk.inj (Option.some.inj h)
  exact numberOf_build hnumber

theorem constants_build {name : Text} (h : (name, tree) ∈ constants) :
    build hook tree = .ok tree := by
  simp only [constants, List.mem_cons, Prod.mk.injEq, List.not_mem_nil, or_false] at h
  rcases h with ⟨-, rfl⟩ | ⟨-, rfl⟩ | ⟨-, rfl⟩ | ⟨-, rfl⟩ | ⟨-, rfl⟩ | ⟨-, rfl⟩ <;> simp [build]

theorem scanScalar_build {text rest : Text} (h : scanScalar text = some (tree, rest)) :
    build hook tree = .ok tree := by
  unfold scanScalar at h
  split at h
  · next name value hfind =>
    obtain ⟨rfl, -⟩ := Prod.mk.inj (Option.some.inj h)
    exact constants_build (List.mem_of_find?_eq_some hfind)
  · split at h
    · exact scanUnsigned_build h
    · exact scanUnsigned_build h

theorem scanLeaf_build {text rest : Text} (h : scanLeaf text = .ok (tree, rest)) :
    build hook tree = .ok tree := by
  unfold scanLeaf at h
  split at h
  · next text =>
    obtain ⟨⟨string, rest'⟩, -, heq⟩ := Option.map_eq_some_iff.1 (require_eq_ok.1 h)
    obtain ⟨rfl, -⟩ := Prod.mk.inj heq
    simp [build]
  · exact scanScalar_build (require_eq_ok.1 h)

/-- The reader with a hook reads what the hook makes of the value with all its fields. -/
theorem scan_build (hook : Hook) (fuel depth : ℕ) :
    Follows (build hook) (scanTree pairs fuel depth) (scanTree hook fuel depth) ∧
      Follows (buildItems hook) (scanItems pairs fuel depth) (scanItems hook fuel depth) ∧
        Follows (buildFields hook) (scanFields pairs fuel depth) (scanFields hook fuel depth) := by
  induction fuel generalizing depth with
  | zero =>
    refine ⟨?_, ?_, ?_⟩
    · intro text tree rest h
      rw [scanTree] at h
      cases h
    · intro text items rest h
      rw [scanItems] at h
      cases h
    · intro text fields rest h
      rw [scanFields] at h
      cases h
  | succ fuel ih =>
    refine ⟨?_, ?_, ?_⟩
    · intro text tree rest h
      rw [scanTree.eq_def] at h ⊢
      simp only at h ⊢
      split at h
      · next text =>
        obtain ⟨_, hdepth, h⟩ := bind_eq_ok.1 h
        obtain ⟨⟨items, rest'⟩, hitems, h⟩ := bind_eq_ok.1 h
        obtain ⟨rfl, rfl⟩ := Prod.mk.inj (Except.ok.inj h)
        rw [refuse_bind_of_not (refuse_eq_ok.1 hdepth),
          (ih (depth - 1)).2.1.scanEntries rfl _ _ _ hitems, build]
        cases buildItems hook items <;> rfl
      · next text =>
        obtain ⟨_, hdepth, h⟩ := bind_eq_ok.1 h
        obtain ⟨⟨fields, rest'⟩, hfields, h⟩ := bind_eq_ok.1 h
        obtain ⟨value, hvalue, h⟩ := bind_eq_ok.1 h
        obtain ⟨rfl, rfl⟩ := Prod.mk.inj (Except.ok.inj h)
        obtain rfl := Except.ok.inj hvalue
        rw [refuse_bind_of_not (refuse_eq_ok.1 hdepth),
          (ih (depth - 1)).2.2.scanEntries rfl _ _ _ hfields, build]
        cases buildFields hook fields with
        | error e => rfl
        | ok fields => cases hook fields <;> rfl
      · rw [h, scanLeaf_build h]
        rfl
    · intro text items rest h
      rw [scanItems] at h ⊢
      obtain ⟨⟨item, rest₁⟩, hitem, h⟩ := bind_eq_ok.1 h
      obtain ⟨⟨items', rest₂⟩, hitems, h⟩ := bind_eq_ok.1 h
      obtain ⟨rfl, rfl⟩ := Prod.mk.inj (Except.ok.inj h)
      rw [(ih depth).1 _ _ _ hitem, buildItems]
      cases build hook item with
      | error e => rfl
      | ok value =>
        show (scanMore ']' (scanItems hook fuel depth) (skipBlank rest₁) >>= _) = _
        rw [(ih depth).2.1.scanMore rfl _ _ _ hitems]
        cases buildItems hook items' <;> rfl
    · intro text fields rest h
      rw [scanFields] at h ⊢
      obtain ⟨⟨key, rest₁⟩, hkey, h⟩ := bind_eq_ok.1 h
      obtain ⟨⟨value, rest₂⟩, hvalue, h⟩ := bind_eq_ok.1 h
      obtain ⟨⟨fields', rest₃⟩, hfields, h⟩ := bind_eq_ok.1 h
      obtain ⟨rfl, rfl⟩ := Prod.mk.inj (Except.ok.inj h)
      rw [hkey, ok_bind]
      simp only
      rw [(ih depth).1 _ _ _ hvalue, buildFields]
      cases build hook value with
      | error e => rfl
      | ok value =>
        show (scanMore '\x7d' (scanFields hook fuel depth) (skipBlank rest₂) >>= _) = _
        rw [(ih depth).2.2.scanMore rfl _ _ _ hfields]
        cases buildFields hook fields' <;> rfl

/-- What a hook reads in a text that reads with all fields. -/
theorem loads_build [JsonTexts] (hook : Hook) {text : Text} (h : loads pairs text = .ok tree) :
    loads hook text = build hook tree := by
  obtain ⟨⟨value, rest⟩, hscan, h⟩ := bind_eq_ok.1 h
  have hread := (scan_build hook (text.length + 1) JsonTexts.recursionLimit).1 _ _ _ hscan
  simp only at h
  by_cases hrest : skipBlank rest = []
  · rw [if_pos hrest] at h
    obtain rfl := Except.ok.inj h
    rw [loads, hread]
    cases build hook value with
    | error e => rfl
    | ok value =>
      show (if skipBlank rest = [] then _ else _) = _
      rw [if_pos hrest]
  · rw [if_neg hrest] at h
    cases h

end

mutual

theorem build_dictionary : ∀ tree : Tree, build dictionary tree = .ok (collapse tree)
  | .arr items => by rw [build, buildItems_dictionary items, collapse]; rfl
  | .obj fields => by rw [build, buildFields_dictionary fields, collapse]; rfl
  | .null | .bool _ | .int _ | .float _ | .str _ => by simp [build, collapse]

theorem buildItems_dictionary :
    ∀ items : List Tree, buildItems dictionary items = .ok (collapseItems items)
  | [] => rfl
  | item :: items => by
    rw [buildItems, build_dictionary item, buildItems_dictionary items, collapseItems]
    rfl

theorem buildFields_dictionary :
    ∀ fields : List (Text × Tree), buildFields dictionary fields = .ok (collapseFields fields)
  | [] => rfl
  | (key, value) :: fields => by
    rw [buildFields, build_dictionary value, buildFields_dictionary fields, collapseFields]
    rfl

end

theorem length_dictSet (fields : List (Text × Tree)) (key : Text) (value : Tree) :
    (dictSet fields key value).length =
      if key ∈ fields.map Prod.fst then fields.length else fields.length + 1 := by
  rw [dictSet]
  split <;> simp

/-- A dictionary has as many entries as there are pairs only if no key comes twice. -/
theorem foldl_dictSet (entries fields : List (Text × Tree)) :
    let filled := entries.foldl (fun fields entry => dictSet fields entry.1 entry.2) fields
    filled.length ≤ fields.length + entries.length ∧
      (fields.length + entries.length ≤ filled.length → filled = fields ++ entries) := by
  induction entries generalizing fields with
  | nil => simp
  | cons entry entries ih =>
    obtain ⟨hle, heq⟩ := ih (dictSet fields entry.1 entry.2)
    have hlength := length_dictSet fields entry.1 entry.2
    dsimp only
    rw [List.foldl_cons, List.length_cons]
    by_cases hkey : entry.1 ∈ fields.map Prod.fst
    · rw [if_pos hkey] at hlength
      exact ⟨by omega, fun h => by omega⟩
    · rw [if_neg hkey] at hlength
      refine ⟨by omega, fun h => ?_⟩
      rw [heq (by omega), dictSet, if_neg hkey]
      simp

theorem dictOf_eq_self {entries : List (Text × Tree)}
    (h : (dictOf entries).length = entries.length) : dictOf entries = entries := by
  have hlength : ([] : List (Text × Tree)).length + entries.length ≤ (dictOf entries).length := by
    rw [h, List.length_nil, Nat.zero_add]
  exact (foldl_dictSet entries []).2 hlength

mutual

/-- A value that repeats no key is read as it is, and one that does is refused. -/
theorem build_distinct : ∀ tree : Tree, build distinct tree = .error .duplicateKey ∨
    build distinct tree = .ok tree ∧ collapse tree = tree
  | .arr items => by
    rw [build, collapse]
    rcases buildItems_distinct items with herror | ⟨hitems, hcollapse⟩
    · rw [herror]
      exact .inl rfl
    · rw [hitems, hcollapse]
      exact .inr ⟨rfl, rfl⟩
  | .obj fields => by
    rw [build, collapse]
    rcases buildFields_distinct fields with herror | ⟨hfields, hcollapse⟩
    · rw [herror]
      exact .inl rfl
    · rw [hfields, hcollapse, ok_bind, distinct]
      by_cases hlength : (dictOf fields).length = fields.length
      · rw [if_neg (not_not.2 hlength), dictOf_eq_self hlength]
        exact .inr ⟨rfl, rfl⟩
      · rw [if_pos hlength]
        exact .inl rfl
  | .null | .bool _ | .int _ | .float _ | .str _ => by simp [build, collapse]

theorem buildItems_distinct :
    ∀ items : List Tree, buildItems distinct items = .error .duplicateKey ∨
      buildItems distinct items = .ok items ∧ collapseItems items = items
  | [] => .inr ⟨rfl, rfl⟩
  | item :: items => by
    rw [buildItems, collapseItems]
    rcases build_distinct item with herror | ⟨hitem, hcollapse⟩
    · rw [herror]
      exact .inl rfl
    · rw [hitem, hcollapse, ok_bind]
      rcases buildItems_distinct items with herror | ⟨hitems, hcollapse⟩
      · rw [herror]
        exact .inl rfl
      · rw [hitems, hcollapse]
        exact .inr ⟨rfl, rfl⟩

theorem buildFields_distinct :
    ∀ fields : List (Text × Tree), buildFields distinct fields = .error .duplicateKey ∨
      buildFields distinct fields = .ok fields ∧ collapseFields fields = fields
  | [] => .inr ⟨rfl, rfl⟩
  | (key, value) :: fields => by
    rw [buildFields, collapseFields]
    rcases build_distinct value with herror | ⟨hvalue, hcollapse⟩
    · rw [herror]
      exact .inl rfl
    · rw [hvalue, hcollapse, ok_bind]
      rcases buildFields_distinct fields with herror | ⟨hfields, hcollapse⟩
      · rw [herror]
        exact .inl rfl
      · rw [hfields, hcollapse]
        exact .inr ⟨rfl, rfl⟩

end

/-- A text without repeated keys reads as the value it lists. -/
theorem collapse_eq_self [JsonTexts] {text : Text} (h : loads pairs text = .ok tree)
    (hdistinct : hasDuplicateKeys text = false) : collapse tree = tree := by
  rw [hasDuplicateKeys, loads_build distinct h] at hdistinct
  rcases build_distinct tree with herror | ⟨-, hcollapse⟩
  · rw [herror] at hdistinct
    cases hdistinct
  · exact hcollapse

/-! ## Writing -/

/-- Four hexadecimal digits. -/
def hexDigits (n : ℕ) : Text :=
  [16 ^ 3, 16 ^ 2, 16, 1].map fun place => .char (Nat.digitChar (n / place % 16))

/-- A character of a string, with or without `ensure_ascii`. -/
def escapeCode (ascii : Bool) (c : Code) : Text :=
  if c = '"' ∨ c = '\\' then ['\\', c]
  else if c = '\n' then literal "\\n"
  else if c = '\r' then literal "\\r"
  else if c = '\t' then literal "\\t"
  else if c.point = 8 then literal "\\b"
  else if c.point = 12 then literal "\\f"
  else if c.point < 32 then literal "\\u" ++ hexDigits c.point
  else if ¬ ascii ∨ c.point < 127 then [c]
  else if c.point < 0x10000 then literal "\\u" ++ hexDigits c.point
  else
    literal "\\u" ++ hexDigits (0xD800 + (c.point - 0x10000) / 0x400) ++
      literal "\\u" ++ hexDigits (0xDC00 + (c.point - 0x10000) % 0x400)

/-- A string between its quotes. -/
def quoteText (ascii : Bool) (text : Text) : Text :=
  literal "\"" ++ text.flatMap (escapeCode ascii) ++ literal "\""

/-- Fields in the order of their keys. -/
def sortByKey (fields : List (Text × Text)) : List (Text × Text) :=
  fields.insertionSort fun a b => a.1.map Code.point ≤ b.1.map Code.point

variable [JsonTexts]

mutual

/-- `json.dumps(value, sort_keys=True, separators=(",", ":"), ensure_ascii=ascii)`. -/
def dumps (ascii : Bool) : Tree → Text
  | .null => literal "null"
  | .bool b => if b then literal "true" else literal "false"
  | .int n => literal (toString n)
  | .float token => JsonTexts.floatRepr token
  | .str text => quoteText ascii text
  | .arr items =>
    literal "[" ++ (literal ",").intercalate (dumpsItems ascii items) ++ literal "]"
  | .obj fields =>
    literal "\x7b" ++ (literal ",").intercalate ((sortByKey (dumpsFields ascii fields)).map
      fun (key, value) => quoteText ascii key ++ literal ":" ++ value) ++ literal "\x7d"

/-- The items of an array. -/
def dumpsItems (ascii : Bool) : List Tree → List Text
  | [] => []
  | item :: items => dumps ascii item :: dumpsItems ascii items

/-- The keys of an object and the texts of its values. -/
def dumpsFields (ascii : Bool) : List (Text × Tree) → List (Text × Text)
  | [] => []
  | (key, value) :: fields => (key, dumps ascii value) :: dumpsFields ascii fields

end

end OpsPilot.Redaction
