import Mathlib.Data.Rat.Defs

/-!
# JSON values

The JSON values a program stores and compares. An object lists its fields in one fixed order
(the order of a canonical rendering), so that two objects are equal exactly when the values
are. The file has decidable equality, field access and the type tests programs make.
-/

namespace OpsPilot

/-- A JSON value. -/
inductive Json
  | null
  | bool (b : Bool)
  | num (q : ℚ)
  | str (s : String)
  | arr (items : List Json)
  | obj (fields : List (String × Json))

namespace Json

mutual

/-- Decidable equality of values. -/
def decEq : (a b : Json) → Decidable (a = b)
  | null, null => isTrue rfl
  | bool a, bool b => decidable_of_iff (a = b) (by simp)
  | num a, num b => decidable_of_iff (a = b) (by simp)
  | str a, str b => decidable_of_iff (a = b) (by simp)
  | arr a, arr b => @decidable_of_iff _ (a = b) (by simp) (decEqItems a b)
  | obj a, obj b => @decidable_of_iff _ (a = b) (by simp) (decEqFields a b)
  | null, bool _ | null, num _ | null, str _ | null, arr _ | null, obj _
  | bool _, null | bool _, num _ | bool _, str _ | bool _, arr _ | bool _, obj _
  | num _, null | num _, bool _ | num _, str _ | num _, arr _ | num _, obj _
  | str _, null | str _, bool _ | str _, num _ | str _, arr _ | str _, obj _
  | arr _, null | arr _, bool _ | arr _, num _ | arr _, str _ | arr _, obj _
  | obj _, null | obj _, bool _ | obj _, num _ | obj _, str _ | obj _, arr _ =>
    isFalse (by simp)

/-- Decidable equality of the items of two arrays. -/
def decEqItems : (a b : List Json) → Decidable (a = b)
  | [], [] => isTrue rfl
  | [], _ :: _ | _ :: _, [] => isFalse (by simp)
  | x :: xs, y :: ys =>
    match decEq x y, decEqItems xs ys with
    | isTrue h, isTrue h' => isTrue (by rw [h, h'])
    | isFalse h, _ => isFalse (by simp [h])
    | _, isFalse h => isFalse (by simp [h])

/-- Decidable equality of the fields of two objects. -/
def decEqFields : (a b : List (String × Json)) → Decidable (a = b)
  | [], [] => isTrue rfl
  | [], _ :: _ | _ :: _, [] => isFalse (by simp)
  | (k, x) :: xs, (l, y) :: ys =>
    match decEq x y, decEqFields xs ys with
    | isTrue h, isTrue h' => decidable_of_iff (k = l) (by simp [h, h'])
    | isFalse h, _ => isFalse (by simp [h])
    | _, isFalse h => isFalse (by simp [h])

end

instance : DecidableEq Json := decEq

/-- `value.get(key)`: the field of an object, `none` when absent or not an object. -/
def field? : Json → String → Option Json
  | obj fields, key => fields.lookup key
  | _, _ => none

/-- `{**value, key: item}` on an object, its fields kept in the order of their keys. -/
def setField : Json → String → Json → Json
  | obj fields, key, item =>
    obj ((fields.filter fun f => f.1 < key) ++ (key, item) :: fields.filter fun f => key < f.1)
  | value, _, _ => value

/-- `isinstance(value, dict)`. -/
def isObject : Json → Bool
  | obj _ => true
  | _ => false

/-- The items of an array. -/
def items? : Json → Option (List Json)
  | arr items => some items
  | _ => none

/-- The text of a string value. -/
def text? : Json → Option String
  | str s => some s
  | _ => none

/-- `not value`. -/
def falsy (value : Json) : Bool :=
  value ∈ [null, bool false, num 0, str "", arr [], obj []]

end Json

end OpsPilot
