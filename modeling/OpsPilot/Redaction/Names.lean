import Mathlib
import OpsPilot.Foundations.Scanning

/-!
# Names of credentials

What names a credential (`_authentication_name` and `_credential_name` in
`opspilot/redaction.py`): a name that is one of a few, that holds one of a few words when it is
folded to its letters and digits, or that has one of a few short words among its own.

Texts are lists of Python's characters, which include the surrogates an escape can leave alone.
The Unicode tables behind `str.isalnum` and `str.lower` are the parameters of the class
`UnicodeTexts`.
-/

namespace OpsPilot.Redaction

/-- A character of a Python string. -/
inductive Code
  | char (c : Char)
  | surrogate (n : Fin 2048)
  deriving DecidableEq

/-- A Python string. -/
abbrev Text := List Code

instance : LawfulBEq Text := inferInstance

instance : Coe Char Code := ⟨.char⟩

/-- The text of a literal. -/
def literal (s : String) : Text := s.toList.map .char

/-- The code point of a character. -/
def Code.point : Code → ℕ
  | char c => c.toNat
  | surrogate n => 0xD800 + n

/-- `chr(point)` for a point below `0x110000`. -/
def Code.ofPoint (point : ℕ) : Code :=
  if h : 0xD800 ≤ point ∧ point < 0xE000 then surrogate ⟨point - 0xD800, by omega⟩
  else char (Char.ofNat point)

/-- Whether a character is one of an ASCII range. -/
def Code.within (c : Code) (low high : Char) : Bool :=
  low.toNat ≤ c.point ∧ c.point ≤ high.toNat

/-- `[A-Za-z]`. -/
def Code.isLetter (c : Code) : Bool := c.within 'A' 'Z' || c.within 'a' 'z'

/-- `[0-9]`. -/
def Code.isDigit (c : Code) : Bool := c.within '0' '9'

/-- `str.isspace` of a character, and `\s`. -/
def Code.isSpace (c : Code) : Bool :=
  let p := c.point
  (9 ≤ p ∧ p ≤ 13) ∨ (28 ≤ p ∧ p ≤ 32) ∨ (0x2000 ≤ p ∧ p ≤ 0x200A) ∨
    p ∈ [0x85, 0xA0, 0x1680, 0x2028, 0x2029, 0x202F, 0x205F, 0x3000]

/-- The value of a hexadecimal digit. -/
def hexValue (c : Code) : Option ℕ :=
  if c.isDigit then some (c.point - 48)
  else if c.within 'a' 'f' then some (c.point - 87)
  else if c.within 'A' 'F' then some (c.point - 55)
  else none

/-- The value of four hexadecimal digits. -/
def hexFour (a b c d : Code) : Option ℕ := do
  some ((((← hexValue a) * 16 + (← hexValue b)) * 16 + (← hexValue c)) * 16 + (← hexValue d))

/-- What the standard library knows of Unicode: `str.isalnum` of a character and `str.lower`. -/
class UnicodeTexts where
  isAlnum : Code → Bool
  lower : Text → Text

/-! ## Credential names -/

/-- `_AUTHENTICATION_KEYS`. -/
def authenticationKeys : List Text :=
  ["api_key", "authorization", "credential", "credential_ref", "headers", "password", "secret",
    "token"].map literal

/-- `_AUTHENTICATION_SUBSTRINGS`. -/
def authenticationSubstrings : List Text :=
  ["accesskey", "accesstoken", "apikey", "authorisation", "authorization", "bearer",
    "certificate", "credential", "keypair", "keystore", "passwd", "password", "privatekey",
    "publickey", "secret", "signature", "sshkey", "token", "truststore"].map literal

/-- `_AUTHENTICATION_TOKENS`. -/
def authenticationTokens : List Text :=
  ["auth", "cert", "cookie", "p12", "pem", "pfx", "session", "sig"].map literal

/-- `part in text`. -/
def occursIn (part text : Text) : Bool := text.tails.any part.isPrefixOf

/-- `[a-z0-9]`. -/
def Code.isLowerAlnum (c : Code) : Bool := c.within 'a' 'z' || c.isDigit

/-- `_WORDS.findall(name)`: a letter and the lower-case letters and digits after it, or digits.
Every word takes a character, so the length of the name bounds the recursion. -/
def findWords : ℕ → Text → List Text
  | 0, _ | _, [] => []
  | fuel + 1, c :: text =>
    if c.isLetter then
      (c :: text.takeWhile Code.isLowerAlnum) :: findWords fuel (text.dropWhile Code.isLowerAlnum)
    else if c.isDigit then
      (c :: text.takeWhile Code.isDigit) :: findWords fuel (text.dropWhile Code.isDigit)
    else findWords fuel text

section

variable [UnicodeTexts]

open UnicodeTexts

/-- `_authentication_name`. -/
def authenticationName (name : Text) : Bool :=
  let folded := (lower name).filter isAlnum
  if authenticationSubstrings.any (occursIn · folded) then true
  else
    let words := (findWords name.length name).map lower ++
      ((lower name).splitOnP fun c => ¬ c.isLowerAlnum).filter (· ≠ [])
    words.any (· ∈ authenticationTokens)

/-- `_credential_name`. -/
def credentialName (name : Text) : Bool :=
  lower name ∈ authenticationKeys || authenticationName name

end

end OpsPilot.Redaction
