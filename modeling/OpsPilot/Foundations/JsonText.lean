import OpsPilot.Foundations.Json

/-!
# Reading and writing JSON text

The reader of `json.loads`: white space, literals, numbers, strings with their escapes, arrays
and objects. The caller says what becomes of the fields of an object (`object_pairs_hook`), so
that a reader can refuse an object that names a field twice.

* `Json.scanString`, `Json.scanNumber`: the two tokens with an inner structure.
* `Json.loads`: the value of a whole text, `none` when it has none. `NaN`, `Infinity` and an
  unpaired surrogate escape, which have no value here, are not read.
* `Json.dumps`: the text `json.dumps` writes for a value.
-/

namespace OpsPilot.Json

/-- The text after the white space it starts with. -/
def skipSpace (text : List Char) : List Char :=
  text.dropWhile fun c => c = ' ' || c = '\t' || c = '\n' || c = '\r'

/-! ## Strings -/

/-- The value of a hexadecimal digit. -/
def hexDigit (c : Char) : Option ℕ :=
  if '0' ≤ c ∧ c ≤ '9' then some (c.toNat - 48)
  else if 'a' ≤ c ∧ c ≤ 'f' then some (c.toNat - 87)
  else if 'A' ≤ c ∧ c ≤ 'F' then some (c.toNat - 55)
  else none

/-- The code unit of a `\uXXXX` escape. -/
def hexUnit (a b c d : Char) : Option ℕ := do
  some ((((← hexDigit a) * 16 + (← hexDigit b)) * 16 + (← hexDigit c)) * 16 + (← hexDigit d))

/-- The code unit of a one-letter escape. -/
def escaped : Char → Option ℕ
  | '"' => some 34
  | '\\' => some 92
  | '/' => some 47
  | 'b' => some 8
  | 'f' => some 12
  | 'n' => some 10
  | 'r' => some 13
  | 't' => some 9
  | _ => none

/-- The code units of a string up to its closing quote, and the text after it. A control
character must be escaped. -/
def scanString : List Char → Option (List ℕ × List Char)
  | [] => none
  | '"' :: rest => some ([], rest)
  | '\\' :: 'u' :: a :: b :: c :: d :: rest => do
    let unit ← hexUnit a b c d
    let (units, rest) ← scanString rest
    some (unit :: units, rest)
  | '\\' :: c :: rest => do
    let unit ← escaped c
    let (units, rest) ← scanString rest
    some (unit :: units, rest)
  | c :: rest => do
    if c.toNat < 32 then none
    let (units, rest) ← scanString rest
    some (c.toNat :: units, rest)

/-- The characters of code units: a high and a low surrogate make one character. -/
def ofUnits : List ℕ → Option (List Char)
  | [] => some []
  | [unit] => if unit.isValidChar then some [Char.ofNat unit] else none
  | high :: low :: rest =>
    if 0xD800 ≤ high ∧ high < 0xDC00 ∧ 0xDC00 ≤ low ∧ low < 0xE000 then
      (ofUnits rest).map (Char.ofNat (0x10000 + (high - 0xD800) * 0x400 + (low - 0xDC00)) :: ·)
    else if high.isValidChar then (ofUnits (low :: rest)).map (Char.ofNat high :: ·)
    else none

/-- The string that starts after an opening quote, and the text after it. -/
def readString (text : List Char) : Option (String × List Char) := do
  let (units, rest) ← scanString text
  let chars ← ofUnits units
  some (String.ofList chars, rest)

/-! ## Numbers -/

/-- The digits a text starts with, and the text after them. -/
def spanDigits (text : List Char) : List ℕ × List Char :=
  ((text.takeWhile Char.isDigit).map fun c => c.toNat - 48, text.dropWhile Char.isDigit)

/-- The value of decimal digits. -/
def ofDigits (digits : List ℕ) : ℕ := digits.foldl (fun n d => 10 * n + d) 0

/-- The integer part of a number: a lone `0`, or digits that start with no `0`. -/
def scanInteger : List Char → Option (ℕ × List Char)
  | '0' :: rest => some (0, rest)
  | text =>
    match spanDigits text with
    | ([], _) => none
    | (digits, rest) => some (ofDigits digits, rest)

/-- The fraction of a number, if it has one. -/
def scanFraction : List Char → ℚ × List Char
  | '.' :: text =>
    match spanDigits text with
    | ([], _) => (0, '.' :: text)
    | (digits, rest) => ((ofDigits digits : ℚ) / 10 ^ digits.length, rest)
  | text => (0, text)

/-- The digits of an exponent, after its letter and its sign. -/
def scanPower (whole : List Char) (negative : Bool) (text : List Char) : ℤ × List Char :=
  match spanDigits text with
  | ([], _) => (0, whole)
  | (digits, rest) => (if negative then -(ofDigits digits : ℤ) else ofDigits digits, rest)

/-- The exponent of a number, if it has one. -/
def scanExponent : List Char → ℤ × List Char
  | e :: text =>
    if e = 'e' ∨ e = 'E' then
      match text with
      | '-' :: digits => scanPower (e :: text) true digits
      | '+' :: digits => scanPower (e :: text) false digits
      | _ => scanPower (e :: text) false text
    else (0, e :: text)
  | [] => (0, [])

/-- An unsigned number, and the text after it. -/
def scanUnsigned (text : List Char) : Option (ℚ × List Char) := do
  let (integer, rest) ← scanInteger text
  let (fraction, rest) := scanFraction rest
  let (exponent, rest) := scanExponent rest
  some ((integer + fraction) * 10 ^ exponent, rest)

/-- A number, and the text after it. -/
def scanNumber : List Char → Option (ℚ × List Char)
  | '-' :: text => (scanUnsigned text).map fun (q, rest) => (-q, rest)
  | text => scanUnsigned text

/-! ## Values -/

variable (hook : List (String × Json) → Option Json)

mutual

/-- A value, and the text after it. -/
def scanValue : ℕ → List Char → Option (Json × List Char)
  | 0, _ => none
  | _ + 1, '"' :: rest => (readString rest).map fun (s, rest) => (str s, rest)
  | _ + 1, 'n' :: 'u' :: 'l' :: 'l' :: rest => some (null, rest)
  | _ + 1, 't' :: 'r' :: 'u' :: 'e' :: rest => some (bool true, rest)
  | _ + 1, 'f' :: 'a' :: 'l' :: 's' :: 'e' :: rest => some (bool false, rest)
  | fuel + 1, '[' :: rest =>
    match skipSpace rest with
    | ']' :: rest => some (arr [], rest)
    | rest => (scanItems fuel rest).map fun (items, rest) => (arr items, rest)
  | fuel + 1, '{' :: rest =>
    match skipSpace rest with
    | '}' :: rest => (hook []).map fun value => (value, rest)
    | rest => (scanFields fuel rest).bind fun (fields, rest) =>
      (hook fields).map fun value => (value, rest)
  | _ + 1, text => (scanNumber text).map fun (q, rest) => (num q, rest)

/-- The items of an array up to its closing bracket, and the text after it. -/
def scanItems : ℕ → List Char → Option (List Json × List Char)
  | 0, _ => none
  | fuel + 1, text =>
    match scanValue fuel text with
    | none => none
    | some (item, rest) =>
      match skipSpace rest with
      | ']' :: rest => some ([item], rest)
      | ',' :: rest =>
        (scanItems fuel (skipSpace rest)).map fun (items, rest) => (item :: items, rest)
      | _ => none

/-- The fields of an object up to its closing brace, and the text after it. -/
def scanFields : ℕ → List Char → Option (List (String × Json) × List Char)
  | fuel + 1, '"' :: text =>
    match readString text with
    | none => none
    | some (key, rest) =>
      match skipSpace rest with
      | ':' :: rest =>
        match scanValue fuel (skipSpace rest) with
        | none => none
        | some (value, rest) =>
          match skipSpace rest with
          | '}' :: rest => some ([(key, value)], rest)
          | ',' :: rest =>
            (scanFields fuel (skipSpace rest)).map fun (fields, rest) =>
              ((key, value) :: fields, rest)
          | _ => none
      | _ => none
  | _, _ => none

end

/-- `json.loads(text, object_pairs_hook=hook)`: the value of the whole text. Every nested value
takes a character, so the length of the text bounds the recursion. -/
def loads (text : String) : Option Json :=
  match scanValue hook (text.toList.length + 1) (skipSpace text.toList) with
  | some (value, rest) => if skipSpace rest = [] then some value else none
  | none => none

/-- `json.loads` on the characters of a text. -/
def loadsChars (text : List Char) : Option Json :=
  match scanValue hook (text.length + 1) (skipSpace text) with
  | some (value, rest) => if skipSpace rest = [] then some value else none
  | none => none

theorem loads_eq (text : String) : loads hook text = loadsChars hook text.toList := rfl

/-! ## Writing -/

/-- A character inside a string, with `ensure_ascii=False`. -/
def escapeChar (c : Char) : List Char :=
  if c = '"' ∨ c = '\\' then ['\\', c]
  else if c = '\n' then ['\\', 'n']
  else if c = '\r' then ['\\', 'r']
  else if c = '\t' then ['\\', 't']
  else if c.toNat = 8 then ['\\', 'b']
  else if c.toNat = 12 then ['\\', 'f']
  else if c.toNat < 32 then
    ['\\', 'u', '0', '0', Nat.digitChar (c.toNat / 16), Nat.digitChar (c.toNat % 16)]
  else [c]

/-- A string between its quotes. -/
def quote (text : String) : List Char := '"' :: text.toList.flatMap escapeChar ++ ['"']

/-- The separators of `json.dumps`, and how it writes a number. -/
structure Style where
  item : List Char
  key : List Char
  number : ℚ → List Char

mutual

/-- `json.dumps(value, ensure_ascii=False)`, the fields of an object in their order. -/
def dumps (style : Style) : Json → List Char
  | .null => ['n', 'u', 'l', 'l']
  | .bool true => ['t', 'r', 'u', 'e']
  | .bool false => ['f', 'a', 'l', 's', 'e']
  | .num q => style.number q
  | .str text => quote text
  | .arr [] => ['[', ']']
  | .arr (item :: items) => '[' :: dumps style item ++ dumpsItems style items
  | .obj [] => ['{', '}']
  | .obj ((key, value) :: fields) =>
    '{' :: quote key ++ style.key ++ dumps style value ++ dumpsFields style fields

/-- The items of an array after the first. -/
def dumpsItems (style : Style) : List Json → List Char
  | [] => [']']
  | item :: items => style.item ++ dumps style item ++ dumpsItems style items

/-- The fields of an object after the first. -/
def dumpsFields (style : Style) : List (String × Json) → List Char
  | [] => ['}']
  | (key, value) :: fields =>
    style.item ++ quote key ++ style.key ++ dumps style value ++ dumpsFields style fields

end

end OpsPilot.Json
