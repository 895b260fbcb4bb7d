import OpsPilot.Redaction.Payloads

/-!
# The codec of evaluation artifacts

`parse` and `canonical_bytes` (`opspilot/evaluation/codec.py`) on JSON values. Every error of the two
is the same `SCHEMA_INVALID`, so they are partial functions.

Which tokens are finite floats and how deep `encode` recurses are parameters.
-/

namespace OpsPilot.Codec

open Redaction

/-- What the codec knows of the machine: whether `float` of a token is finite, and how many
containers within each other `encode` can go through. -/
class CodecTexts extends JsonTexts where
  isFinite : Text → Bool
  encodeLimit : ℕ

variable [CodecTexts]

open CodecTexts

/-! ## Encoding -/

mutual

/-- Whether every value that holds no other passes a check, with so many containers around them at
most. -/
def leaves (check : Tree → Bool) : ℕ → Tree → Bool
  | depth, .arr items => 0 < depth && leavesOfItems check (depth - 1) items
  | depth, .obj fields => 0 < depth && leavesOfFields check (depth - 1) fields
  | _, leaf => check leaf

/-- The same for the items of an array. -/
def leavesOfItems (check : Tree → Bool) : ℕ → List Tree → Bool
  | _, [] => true
  | depth, item :: items => leaves check depth item && leavesOfItems check depth items

/-- The same for the values of an object. -/
def leavesOfFields (check : Tree → Bool) : ℕ → List (Text × Tree) → Bool
  | _, [] => true
  | depth, (_, value) :: fields => leaves check depth value && leavesOfFields check depth fields

end

/-- `encode` of a value that holds no other: a string must be UTF-8 and a float finite. -/
def encodesLeaf : Tree → Bool
  | .str text => (encode text).isSome
  | .float token => isFinite token
  | _ => true

/-- Whether `encode` takes a JSON value; it gives the value back. -/
def encodes (value : Tree) : Bool := leaves encodesLeaf encodeLimit value

/-- Whether `json.dumps` writes a value that holds no other: an integer may not be too long. -/
def dumpsLeaf : Tree → Bool
  | .int n => n.natAbs < 10 ^ intMaxStrDigits
  | _ => true

/-- `canonical_bytes`. -/
def canonicalBytes (value : Tree) : Option ByteArray :=
  if leaves (fun leaf => encodesLeaf leaf && dumpsLeaf leaf) encodeLimit value then
    encode (dumps false value)
  else none

/-! ## Parsing -/

/-- `_pairs`. -/
def uniquePairs : Hook := fun fields =>
  if (fields.map Prod.fst).Nodup then .ok (.obj fields) else .error .duplicateKey

/-- `parse`. A constant such as `NaN` is no finite float. -/
def parse (raw : ByteArray) : Option (List (Text × Tree)) := do
  let text ← decode raw
  let value ← (loads uniquePairs text).toOption
  if encodes value then
    match value with
    | .obj fields => some fields
    | _ => none
  else none

end OpsPilot.Codec
