import OpsPilot.Redaction.Names

/-!
# Credentials in prose

`redact_credentials` (`opspilot/redaction.py`): the rules that replace credential-bearing spans of a
text by a fixed marker, each a scan from left to right, one after the other.

* `AuthorityRule.matchAt`: user information in a URL authority, also with escaped slashes.
* `redactAssignments`: the value of an unquoted `name: value` or `name=value`.
* `redactEscapedKeys`, `redactQuoted`: the value of a quoted key, of a quoted value, of an object
  or an array.
* `schemeAt`: the token after a `Bearer` or `Basic` scheme.

A regular expression is a function that says what it matches at an index. Its runs take as many
characters as they can and none of them gives any back, so no match needs a second try.
-/

namespace OpsPilot.Redaction

/-- `REDACTED_CREDENTIAL`. -/
def redactedCredential : Text := literal "[REDACTED_CREDENTIAL]"

/-! ## User information in a URL authority -/

/-- The parts of a pattern for an authority: what its prefix takes at the start of a text, and the
characters of its user information and of its host. -/
structure AuthorityRule where
  slashes : Text → Option ℕ
  userinfo : Code → Bool
  host : Code → Bool

/-- What a match at an index is replaced by, and where it ends. -/
def AuthorityRule.matchAt (rule : AuthorityRule) (text : Text) (index : ℕ) : Option (Text × ℕ) := do
  let slashes ← rule.slashes (text.drop index)
  let start := index + slashes
  let atSign := spanEnd rule.userinfo text start
  if atSign = start ∨ text[atSign]? ≠ some '@' then none
  let stop := spanEnd rule.host text (atSign + 1)
  if stop = atSign + 1 then none
  some (slice text index start ++ redactedCredential ++ slice text atSign stop, stop)

/-- `_AUTHORITY_USERINFO`. -/
def authorityUserinfo : AuthorityRule where
  slashes text := if (literal "//").isPrefixOf text then some 2 else none
  userinfo c := ¬ c.isSpace ∧ c ∉ literal "/@"
  host c := ¬ c.isSpace ∧ c ∉ literal "/:?#"

/-- `\/` or `\u002f` at the start of a text: its length. -/
def escapedSlash (text : Text) : Option ℕ :=
  if (literal "\\/").isPrefixOf text then some 2
  else if (literal "\\u002f").isPrefixOf text ∨ (literal "\\u002F").isPrefixOf text then some 6
  else none

/-- `_ESCAPED_AUTHORITY_USERINFO`. -/
def escapedAuthorityUserinfo : AuthorityRule where
  slashes text := do
    let first ← escapedSlash text
    let second ← escapedSlash (text.drop first)
    some (first + second)
  userinfo c := ¬ c.isSpace ∧ c ∉ literal "/@\\\""
  host c := ¬ c.isSpace ∧ c ∉ literal "/:?#\\\""

/-! ## The end of a value -/

/-- `_CLOSERS`. -/
def closer (c : Code) : Option Code :=
  if c = '{' then some '}' else if c = '[' then some ']' else none

/-- `_UNQUOTED_STOPS`. -/
def unquotedStops : Text := literal "&;,?#"

/-- `_JSON_STOPS`. -/
def jsonStops : Text := literal ",\x7d]"

/-- The loop of `_container_end`: how many characters it passes, to the end of the text when the
object or array never balances. -/
def containerLength : List Code → Option Code → Text → ℕ
  | _, _, [] => 0
  | stack, some q, c :: text =>
    if c = '\\' then
      match text with
      | [] => 1
      | _ :: text => containerLength stack (some q) text + 2
    else containerLength stack (if c = q then none else some q) text + 1
  | stack, none, c :: text =>
    if c = '"' ∨ c = '\'' then containerLength stack (some c) text + 1
    else match closer c, stack with
      | some close, _ => containerLength (close :: stack) none text + 1
      | none, [] => containerLength [] none text + 1
      | none, close :: stack =>
        if c ≠ close then containerLength (close :: stack) none text + 1
        else if stack = [] then 1 else containerLength stack none text + 1

/-- `_container_end`. -/
def containerEnd (text : Text) (start : ℕ) : ℕ :=
  start + containerLength [] none (text.drop start)

/-- The loop of `_value_end`: how many characters it passes. -/
def valueLength (stops : Text) : List Code → Option Code → Text → ℕ
  | _, _, [] => 0
  | stack, some q, c :: text =>
    if c = '\\' then
      match text with
      | [] => 1
      | _ :: text => valueLength stops stack (some q) text + 2
    else valueLength stops stack (if c = q then none else some q) text + 1
  | stack, none, c :: text =>
    if c = '"' ∨ c = '\'' then valueLength stops stack (some c) text + 1
    else match closer c, stack with
      | some close, _ => valueLength stops (close :: stack) none text + 1
      | none, close :: stack =>
        valueLength stops (if c = close then stack else close :: stack) none text + 1
      | none, [] => if c.isSpace ∨ c ∈ stops then 0 else valueLength stops [] none text + 1

/-- `_value_end`. -/
def valueEnd (stops text : Text) (start : ℕ) : ℕ :=
  start + valueLength stops [] none (text.drop start)

/-- `_tail_end`. -/
def tailEnd (text : Text) (stop : ℕ) : ℕ :=
  match text[stop]? with
  | none => stop
  | some c => if c.isSpace ∨ c ∈ jsonStops then stop else valueEnd jsonStops text stop

/-- `_QUOTED_VALUE[quote]` after at least one item: how many characters it takes, `none` when the
quote does not close on its line. -/
def quotedLength (quote : Code) : Text → Option ℕ
  | [] => none
  | c :: text =>
    if c = quote then some 1
    else if c = '\n' then none
    else if c = '\\' then
      match text with
      | [] => none
      | d :: text => if d = '\n' then none else (quotedLength quote text).map (· + 2)
    else (quotedLength quote text).map (· + 1)

/-- `_SCALAR_VALUE`'s characters. -/
def isScalar (c : Code) : Bool := ¬ c.isSpace ∧ c ∉ literal "\"'\x7b[],\x7d"

/-- `_value_redaction`: the marker for a value and where the value ends. -/
def valueRedaction (text : Text) (start : ℕ) : Option (Text × ℕ) :=
  if redactedCredential.isPrefixOf (text.drop start) then none
  else match text[start]? with
    | none => none
    | some c =>
      if c = '"' ∨ c = '\'' then
        if text[start + 1]? = some c ∨ text[start + 1]? = none then none
        else match quotedLength c (text.drop (start + 1)) with
          | none => some (c :: redactedCredential, text.length)
          | some n => some (c :: redactedCredential ++ [c], tailEnd text (start + 1 + n))
      else if (closer c).isSome then
        some (literal "\"" ++ redactedCredential ++ literal "\"",
          tailEnd text (containerEnd text start))
      else if isScalar c then some (redactedCredential, valueEnd jsonStops text start)
      else none

/-! ## Unquoted assignments -/

/-- A letter of `[A-Za-z]` with `re.IGNORECASE`: four more characters have one of its letters as
another case. -/
def foldCase (c : Code) : Code :=
  if c.within 'A' 'Z' then .ofPoint (c.point + 32)
  else if c.point = 0x130 ∨ c.point = 0x131 then 'i'
  else if c.point = 0x17F then 's'
  else if c.point = 0x212A then 'k'
  else c

/-- `[A-Za-z0-9_.\-]`. -/
def isNameCode (c : Code) : Bool := c.isLetter || c.isDigit || c ∈ literal "_.-"

/-- The length of the first of some words that a text starts with, whatever its case. -/
def wordLength (words : List String) (text : Text) : Option ℕ :=
  (words.find? fun word => (literal word).isPrefixOf (text.map foldCase)).map String.length

/-- A separator `\s*[:=]\s*` at an index: where it ends. -/
def separatorEnd (signs text : Text) (index : ℕ) : Option ℕ :=
  let sign := spanEnd Code.isSpace text index
  match text[sign]? with
  | some c => if c ∈ signs then some (spanEnd Code.isSpace text (sign + 1)) else none
  | none => none

/-- Whether a name of the characters `name` can start at an index: with a letter and after none of
these characters. -/
def startsName (name letter : Code → Bool) (text : Text) (index : ℕ) : Bool :=
  (text[index]?).any letter && (index = 0 || ¬ (text[index - 1]?).any name)

/-- A match of `_CREDENTIAL_ASSIGNMENT`. -/
structure Assignment where
  name : Text
  value : ℕ
  scheme : ℕ

/-- The scheme of a value and the white space after it, when a character of a value follows. -/
def schemeLength (text : Text) (start : ℕ) : Option ℕ := do
  let word ← wordLength ["bearer", "basic", "digest", "token"] (text.drop start)
  let stop := spanEnd Code.isSpace text (start + word)
  let first ← text[stop]?
  if stop = start + word ∨ first ∈ literal "&;,?#\"'" then none
  some (stop - start)

/-- The match of `_CREDENTIAL_ASSIGNMENT` at an index. -/
def assignmentAt (text : Text) (index : ℕ) : Option Assignment := do
  if ¬ startsName (isNameCode ∘ foldCase) (Code.isLetter ∘ foldCase) text index then none
  let stop := spanEnd (isNameCode ∘ foldCase) text index
  let value ← separatorEnd (literal ":=") text stop
  let first ← text[value]?
  if first ∈ literal "&;,?#\"'" then none
  some ⟨slice text index stop, value, (schemeLength text value).getD 0⟩

/-- A match of `_QUOTED_ASSIGNMENT`: its name, whether a quote closes the name, where the value
starts, and where a bare scalar ends. -/
structure QuotedAssignment where
  name : Text
  close : Bool
  value : ℕ
  scalar : Option ℕ

/-- The match of `_QUOTED_ASSIGNMENT` at an index. -/
def quotedAt (text : Text) (index : ℕ) : Option QuotedAssignment := do
  if ¬ startsName isNameCode Code.isLetter text index then none
  let stop := spanEnd isNameCode text index
  let close : Bool := text[stop]? = some '"' ∨ text[stop]? = some '\''
  let after := if close then stop + 1 else stop
  let value ← separatorEnd (literal ":=") text after
  let first ← text[value]?
  if first ∈ literal "\"'\x7b[" then some ⟨slice text index stop, close, value, none⟩
  else if isScalar first ∧ (separatorEnd (literal ":") text after).isSome then
    some ⟨slice text index stop, close, value, some (spanEnd isScalar text value)⟩
  else none

section

variable [UnicodeTexts]

/-- The loop of `_redact_assignments`. Every match takes a character, so the length of the text
bounds the recursion. -/
def assignmentsFrom (text : Text) : ℕ → ℕ → Text
  | 0, pos => text.drop pos
  | fuel + 1, pos =>
    match search (assignmentAt text) text pos with
    | none => text.drop pos
    | some (_, found) =>
      if credentialName found.name then
        slice text pos found.value ++ redactedCredential ++
          assignmentsFrom text fuel (valueEnd unquotedStops text (found.value + found.scheme))
      else slice text pos found.value ++ assignmentsFrom text fuel found.value

/-- `_redact_assignments`. -/
def redactAssignments (text : Text) : Text := assignmentsFrom text (text.length + 1) 0

/-! ## Quoted assignments -/

/-- The loop of `_redact_quoted`. -/
def quotedFrom (text : Text) : ℕ → ℕ → Text
  | 0, pos => text.drop pos
  | fuel + 1, pos =>
    match search (quotedAt text) text pos with
    | none => text.drop pos
    | some (_, found) =>
      if found.scalar.isSome ∧ ¬ found.close then
        slice text pos found.value ++ quotedFrom text fuel found.value
      else match if credentialName found.name then valueRedaction text found.value else none with
        | none =>
          let stop := found.scalar.getD (found.value + 1)
          slice text pos stop ++ quotedFrom text fuel stop
        | some (marker, stop) =>
          slice text pos found.value ++ marker ++ quotedFrom text fuel stop

/-- `_redact_quoted`. -/
def redactQuoted (text : Text) : Text := quotedFrom text (text.length + 1) 0

/-! ## Keys spelled with escapes -/

/-- `_escaped`: whether the character at an index follows an odd run of backslashes. -/
def isEscaped (text : Text) (index : ℕ) : Bool :=
  (((text.take index).reverse.takeWhile (· = (('\\' : Char) : Code))).length) % 2 = 1

/-- `_decoded_name`. -/
def decodedName : Text → Text
  | .char '\\' :: .char 'u' :: a :: b :: c :: d :: text =>
    match hexFour a b c d with
    | some point => .ofPoint point :: decodedName text
    | none => .char 'u' :: decodedName (a :: b :: c :: d :: text)
  | .char '\\' :: c :: text => c :: decodedName text
  | c :: text => c :: decodedName text
  | [] => []

/-- The walk back from a closing quote for the quote that opens a key, above the index `low`: an
index, or whether the walk reached `low`. -/
def walkBack (text : Text) (quote : Code) (low : ℕ) : ℕ → Option ℕ × Bool
  | 0 => (none, true)
  | index + 1 =>
    if index < low then (none, true)
    else if text[index]? = some '\n' then (none, false)
    else if text[index]? = some quote ∧ ¬ isEscaped text index then (some index, false)
    else walkBack text quote low index

/-- The quote that opens the key closed at `stop`. `low` is the index after the previous candidate
of the same quote, or after the last redaction: a candidate, when the walk reaches it, opens the
key itself. -/
def openingQuote (text : Text) (quote : Code) (pos low stop : ℕ) : Option ℕ :=
  match walkBack text quote low stop with
  | (some index, _) => some index
  | (none, false) => none
  | (none, true) => if pos < low ∧ text[low - 1]? = some quote then some (low - 1) else none

/-- The state of `_redact_escaped_keys`: what is written, the index up to which the text is
consumed, and the index after the previous candidate of each quote. -/
structure KeyScan where
  parts : Text
  pos : ℕ
  double : ℕ
  single : ℕ

/-- The redaction of the value of a key between two quotes, when the key is spelled with an escape
and names a credential: where its separator ends, and the marker and where the value ends. -/
def escapedKey (text : Text) (opening stop : ℕ) : Option (ℕ × Text × ℕ) := do
  let name := slice text (opening + 1) stop
  if (('\\' : Char) : Code) ∉ name ∨ ¬ credentialName (decodedName name) then none
  let value ← separatorEnd (literal ":=") text (stop + 1)
  let (marker, valueStop) ← valueRedaction text value
  some (value, marker, valueStop)

/-- One turn of the loop of `_redact_escaped_keys`, at a match of `_KEY_END`. -/
def keyTurn (text : Text) (scan : KeyScan) (stop : ℕ) (quote : Code) : KeyScan :=
  if stop < scan.pos ∨ isEscaped text stop then scan
  else
    let previous := if quote = '"' then scan.double else scan.single
    let low := max previous scan.pos
    let scan := if quote = '"' then { scan with double := stop + 1 }
      else { scan with single := stop + 1 }
    match (openingQuote text quote scan.pos low stop).bind (escapedKey text · stop) with
    | none => scan
    | some (value, marker, valueStop) =>
      { scan with parts := scan.parts ++ slice text scan.pos value ++ marker, pos := valueStop }

/-- The matches of `_KEY_END`: the quotes that a separator follows. -/
def keyEnds (text : Text) : List (ℕ × Code) :=
  (List.range text.length).filterMap fun index =>
    match (text[index]? : Option Code) with
    | some c =>
      if (c = '"' ∨ c = '\'') ∧ (separatorEnd (literal ":=") text (index + 1)).isSome then
        some (index, c)
      else none
    | none => none

/-- `_redact_escaped_keys`. -/
def redactEscapedKeys (text : Text) : Text :=
  if (('\\' : Char) : Code) ∉ text then text
  else
    let scan := (keyEnds text).foldl (fun scan found => keyTurn text scan found.1 found.2)
      ⟨[], 0, 0, 0⟩
    scan.parts ++ text.drop scan.pos

/-! ## Schemes -/

/-- `[A-Za-z0-9._~+/=\-]` with `re.IGNORECASE`. -/
def isTokenCode (c : Code) : Bool :=
  (foldCase c).isLetter || c.isDigit || c ∈ literal "._~+/=-"

open UnicodeTexts in
/-- The match of `_CREDENTIAL_SCHEME` at an index: what replaces it, and where it ends. -/
def schemeAt (text : Text) (index : ℕ) : Option (Text × ℕ) := do
  if index ≠ 0 ∧ (text[index - 1]?).any fun c => isAlnum c || c = '_' then none
  let word ← wordLength ["bearer", "basic"] (text.drop index)
  let start := spanEnd Code.isSpace text (index + word)
  let stop := spanEnd isTokenCode text start
  if start = index + word ∨ stop < start + 8 then none
  some (slice text index (index + word) ++ literal " " ++ redactedCredential, stop)

/-- `redact_credentials`. -/
def redactCredentials (text : Text) : Text :=
  let redacted := substitute (authorityUserinfo.matchAt text) text
  let redacted := substitute (escapedAuthorityUserinfo.matchAt redacted) redacted
  let redacted := redactAssignments redacted
  let redacted := redactEscapedKeys redacted
  let redacted := redactQuoted redacted
  substitute (schemeAt redacted) redacted

end

end OpsPilot.Redaction
