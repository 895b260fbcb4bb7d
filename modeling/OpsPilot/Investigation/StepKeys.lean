import Mathlib.Data.List.Basic
import OpsPilot.Foundations.Scanning

/-!
# The keys of steps

A step of a Run is stored under a key that carries a context segment and a round
(`step_key`, `parse_step_key` in `opspilot/investigation/context.py`). The reader also takes the
bare form `round-N` of keys from before there were segments.

* `stepKey`, `parseStepKey`: the writer and the reader.
* `parseStepKey_stepKey`, `parseStepKey_eq_some`: the reader undoes the writer, and accepts nothing
  but keys.
* `parseStepKey_error`: it fails on a round written in digits that are no decimal number.
-/

namespace OpsPilot

/-- What `str` and `int` know of digits: whether `str.isdigit` holds of a character, and the value
`int` gives to a decimal digit of any script. Some characters, such as superscripts, are digits
without being decimal. -/
class DigitTexts where
  isdigit : Char → Bool
  decimal : Char → Option ℕ
  decimal_ascii : ∀ c, c.isDigit = true → decimal c = some (c.toNat - 48)
  isdigit_of_decimal : ∀ c, (decimal c).isSome = true → isdigit c = true
  isdigit_colon : isdigit ':' = false

/-- What ends `step_key` or `parse_step_key`: `ContextError("INVALID_INPUT")`, or a `ValueError` of
`int` or `str`. -/
inductive StepKeyError
  | invalidInput | valueError
  deriving DecidableEq, Repr

/-- `INITIAL_SEGMENT`. -/
def initialSegment : String := "ctx0"

/-- The text before the number of a round. -/
def roundMark : List Char := ['r', 'o', 'u', 'n', 'd', '-']

/-- `step_key`. -/
def stepKey (segment : String) (roundNo : ℕ) : Except StepKeyError String :=
  if segment = "" ∨ ':' ∈ segment.toList ∨ roundNo < 1 then .error .invalidInput
  else if intMaxStrDigits < (Nat.toDigits 10 roundNo).length then .error .valueError
  else .ok (segment ++ ":round-" ++ toString roundNo)

section

variable [DigitTexts]

open DigitTexts

/-- `int(digits)`, of a text of digits. -/
def intOf (digits : List Char) : Except StepKeyError ℕ :=
  if intMaxStrDigits < digits.length then .error .valueError
  else match digits.mapM decimal with
    | some values => .ok (values.foldl (fun n d => 10 * n + d) 0)
    | none => .error .valueError

/-- The segment of a key, and what it says of the round. -/
def keyParts (key : List Char) : List Char × List Char :=
  (rpartition ':' key).getD (initialSegment.toList, key)

/-- `parse_step_key`. -/
def parseStepKey (key : String) : Except StepKeyError (Option (String × ℕ)) :=
  let (segment, rest) := keyParts key.toList
  if segment = [] ∨ ':' ∈ segment ∨ ¬ roundMark <+: rest then .ok none
  else
    let digits := rest.drop roundMark.length
    if digits = [] ∨ ¬ digits.all isdigit then .ok none
    else do
      let n ← intOf digits
      pure (if digits ≠ Nat.toDigits 10 n ∨ n < 1 then none else some (String.ofList segment, n))

/-! ## Numbers -/

variable {n : ℕ} {digits : List Char}

/-- The digits `str` writes are read back. -/
theorem intOf_toDigits (h : (Nat.toDigits 10 n).length ≤ intMaxStrDigits) :
    intOf (Nat.toDigits 10 n) = .ok n := by
  have hread : (Nat.toDigits 10 n).mapM decimal =
      some ((Nat.toDigits 10 n).map fun c => c.toNat - 48) := by
    have hdigits : ∀ c ∈ Nat.toDigits 10 n, decimal c = some (c.toNat - 48) := fun c hc =>
      decimal_ascii c (Nat.isDigit_of_mem_toDigits (by omega) (Nat.le_refl _) hc)
    generalize Nat.toDigits 10 n = digits at hdigits
    induction digits with
    | nil => rfl
    | cons c digits ih =>
      rw [List.mapM_cons, hdigits c List.mem_cons_self,
        ih fun d hd => hdigits d (List.mem_cons_of_mem _ hd)]
      rfl
  rw [intOf, if_neg (by omega), hread]
  dsimp only
  rw [List.foldl_map]
  exact congrArg Except.ok Nat.ofDigitChars_ten_toDigits

theorem isdigit_toDigits : (Nat.toDigits 10 n).all isdigit = true := by
  refine List.all_eq_true.2 fun c hc => isdigit_of_decimal c ?_
  rw [decimal_ascii c (Nat.isDigit_of_mem_toDigits (by omega) (Nat.le_refl _) hc)]
  rfl

theorem mapM_decimal_eq_none :
    digits.mapM decimal = none ↔ ∃ c ∈ digits, decimal c = none := by
  induction digits with
  | nil => simp
  | cons c digits ih =>
    rw [List.mapM_cons]
    cases hc : decimal c with
    | none => simp [hc]
    | some d =>
      cases hrest : digits.mapM decimal with
      | none => simpa [hc, hrest] using ih.1 hrest
      | some values =>
        simp only [hrest, reduceCtorEq, false_iff] at ih
        simpa [hc] using ih

/-- A number is not read if it is too long, or not decimal. -/
theorem intOf_error {e : StepKeyError} : intOf digits = .error e ↔
    e = .valueError ∧ (intMaxStrDigits < digits.length ∨ ∃ c ∈ digits, decimal c = none) := by
  rw [← mapM_decimal_eq_none, intOf]
  split
  · next hlong => simp [hlong, eq_comm]
  · next hlong =>
    cases hread : digits.mapM decimal with
    | none => simp [eq_comm]
    | some values => simp [hlong]

/-! ## The reader -/

omit [DigitTexts] in
/-- What a key is split into: what is before its last `:` and after it, or the first segment and
the key. -/
theorem keyParts_eq {key segment rest : List Char} (hsegment : ':' ∉ segment) :
    keyParts key = (segment, rest) ↔
      key = segment ++ ':' :: rest ∧ ':' ∉ rest ∨
        segment = initialSegment.toList ∧ rest = key ∧ ':' ∉ key := by
  unfold keyParts
  cases hparts : rpartition ':' key with
  | none =>
    have hkey := rpartition_eq_none.1 hparts
    constructor
    · intro h
      obtain ⟨rfl, rfl⟩ := Prod.mk.inj h
      exact .inr ⟨rfl, rfl, hkey⟩
    · rintro (⟨rfl, -⟩ | ⟨rfl, rfl, -⟩)
      · simp at hkey
      · rfl
  | some parts =>
    obtain ⟨front, back⟩ := parts
    obtain ⟨hkey, hback⟩ := rpartition_eq_some.1 hparts
    constructor
    · intro h
      obtain ⟨rfl, rfl⟩ := Prod.mk.inj h
      exact .inl ⟨hkey, hback⟩
    · rintro (hsplit | ⟨-, rfl, hnone⟩)
      · rw [rpartition_eq_some.2 hsplit] at hparts
        rw [← Option.some.inj hparts]
        rfl
      · simp [hkey] at hnone

/-- A key that names a round in digits, decimal or not: of the segment, or in the bare form. -/
inductive NamesRound (key : String) (segment digits : List Char) : Prop
  | keyed (hkey : key.toList = segment ++ ':' :: (roundMark ++ digits)) (hne : segment ≠ [])
      (hcolon : ':' ∉ segment) (hdigits : digits ≠ []) (hall : digits.all isdigit = true)
  | bare (hkey : key.toList = roundMark ++ digits) (hsegment : segment = initialSegment.toList)
      (hdigits : digits ≠ []) (hall : digits.all isdigit = true)

theorem colon_notMem (hall : digits.all isdigit = true) :
    ':' ∉ roundMark ++ digits := by
  intro hmem
  rcases List.mem_append.1 hmem with hmark | hdigit
  · exact absurd hmark (by decide)
  · have hcolon := List.all_eq_true.1 hall ':' hdigit
    rw [isdigit_colon] at hcolon
    cases hcolon

/-- A key that names a round is read as far as the number. -/
theorem NamesRound.parse {key : String} {segment : List Char} (h : NamesRound key segment digits) :
    parseStepKey key = (intOf digits).map fun n =>
      if digits ≠ Nat.toDigits 10 n ∨ n < 1 then none else some (String.ofList segment, n) := by
  have hparts : keyParts key.toList = (segment, roundMark ++ digits) ∧ segment ≠ [] ∧
      ':' ∉ segment ∧ digits ≠ [] ∧ digits.all isdigit = true := by
    cases h with
    | keyed hkey hne hcolon hdigits hall =>
      exact ⟨(keyParts_eq hcolon).2 (.inl ⟨hkey, colon_notMem hall⟩), hne, hcolon, hdigits, hall⟩
    | bare hkey hsegment hdigits hall =>
      subst hsegment
      have hcolon : ':' ∉ initialSegment.toList := by decide
      refine ⟨(keyParts_eq hcolon).2 (.inr ⟨rfl, hkey.symm, ?_⟩), by decide, hcolon, hdigits, hall⟩
      rw [hkey]
      exact colon_notMem hall
  obtain ⟨hparts, hne, hcolon, hdigits, hall⟩ := hparts
  rw [parseStepKey, hparts]
  dsimp only
  rw [if_neg (by simp [hne, hcolon]), List.drop_left, if_neg (by simp [hdigits, hall])]
  cases intOf digits <;> rfl

/-- Any other text is no key. -/
theorem parseStepKey_of_not_namesRound {key : String}
    (h : ∀ segment digits, ¬ NamesRound key segment digits) : parseStepKey key = .ok none := by
  rw [parseStepKey]
  cases hparts : keyParts key.toList with
  | mk segment rest =>
    dsimp only
    split
    · rfl
    · next hform =>
      split
      · rfl
      · next hdigits =>
        simp only [not_or, not_not] at hform hdigits
        obtain ⟨hne, hcolon, digits, rfl⟩ := hform
        rw [List.drop_left] at hdigits
        obtain ⟨hdigits, hall⟩ := hdigits
        refine absurd ?_ (h segment digits)
        rcases (keyParts_eq hcolon).1 hparts with ⟨hkey, -⟩ | ⟨hsegment, hkey, -⟩
        · exact .keyed hkey hne hcolon hdigits hall
        · exact .bare hkey.symm hsegment hdigits hall

/-- A key in whose round no number can be read: one of its digits is no decimal digit, or there are
too many. -/
def Unreadable (key : String) : Prop :=
  ∃ segment digits, NamesRound key segment digits ∧
    (intMaxStrDigits < digits.length ∨ ∃ c ∈ digits, decimal c = none)

/-- The reader fails on these keys. -/
theorem parseStepKey_error {key : String} {e : StepKeyError} :
    parseStepKey key = .error e ↔ e = .valueError ∧ Unreadable key := by
  constructor
  · intro h
    by_cases hnames : ∃ segment digits, NamesRound key segment digits
    · obtain ⟨segment, digits, hnames⟩ := hnames
      rw [hnames.parse] at h
      cases hint : intOf digits with
      | ok n => simp [hint, Except.map] at h
      | error e' =>
        obtain rfl : e' = e := by simpa [hint, Except.map] using h
        obtain ⟨he, hdigits⟩ := intOf_error.1 hint
        exact ⟨he, segment, digits, hnames, hdigits⟩
    · rw [parseStepKey_of_not_namesRound fun segment digits hn => hnames ⟨segment, digits, hn⟩] at h
      cases h
  · rintro ⟨he, segment, digits, hnames, hdigits⟩
    rw [hnames.parse, intOf_error.2 ⟨he, hdigits⟩]
    rfl

/-- What is accepted is a key, or the bare form of one. -/
theorem parseStepKey_eq_some {key segment : String}
    (h : parseStepKey key = .ok (some (segment, n))) :
    stepKey segment n = .ok key ∨
      segment = initialSegment ∧ 1 ≤ n ∧ key = "round-" ++ toString n := by
  by_cases hnames : ∃ segment digits, NamesRound key segment digits
  · obtain ⟨front, digits, hnames⟩ := hnames
    rw [hnames.parse] at h
    cases hint : intOf digits with
    | error e => simp [hint, Except.map] at h
    | ok m =>
      simp only [hint, Except.map, Except.ok.injEq] at h
      split at h
      · cases h
      · next hfits =>
        obtain ⟨rfl, rfl⟩ := Prod.mk.inj (Option.some.inj h)
        simp only [not_or, not_not, Nat.not_lt] at hfits
        obtain ⟨rfl, hpos⟩ := hfits
        have hlong : ¬ intMaxStrDigits < (Nat.toDigits 10 m).length := by
          intro hlong
          rw [intOf, if_pos hlong] at hint
          cases hint
        cases hnames with
        | keyed hkey hne hcolon _ _ =>
          left
          have hne' : String.ofList front ≠ "" := by
            intro hempty
            exact hne (by simpa using congrArg String.toList hempty)
          rw [stepKey, if_neg (by simp [hne', hcolon]; omega), if_neg hlong]
          refine congrArg Except.ok (String.toList_injective ?_)
          rw [hkey]
          simp [String.toList_append, roundMark, Nat.toString_eq_repr, Nat.toList_repr]
        | bare hkey hsegment _ _ =>
          right
          refine ⟨by rw [hsegment, String.ofList_toList], hpos, String.toList_injective ?_⟩
          rw [hkey]
          simp [String.toList_append, roundMark, Nat.toString_eq_repr, Nat.toList_repr]
  · rw [parseStepKey_of_not_namesRound fun segment digits hn => hnames ⟨segment, digits, hn⟩] at h
    cases h

/-- **The reader undoes the writer.** -/
theorem parseStepKey_stepKey {segment key : String} (h : stepKey segment n = .ok key) :
    parseStepKey key = .ok (some (segment, n)) := by
  unfold stepKey at h
  split at h
  · cases h
  · next hvalid =>
    simp only [not_or, Nat.not_lt] at hvalid
    obtain ⟨hne, hcolon, hpos⟩ := hvalid
    split at h
    · cases h
    · next hlong =>
      have hkey : key.toList = segment.toList ++ ':' :: (roundMark ++ Nat.toDigits 10 n) := by
        rw [← Except.ok.inj h]
        simp [String.toList_append, roundMark, Nat.toString_eq_repr, Nat.toList_repr]
      have hnames : NamesRound key segment.toList (Nat.toDigits 10 n) :=
        .keyed hkey (by simpa using hne) hcolon Nat.toDigits_ne_nil isdigit_toDigits
      rw [hnames.parse, intOf_toDigits (by omega)]
      simp [Except.map, Nat.pos_iff_ne_zero.1 hpos]

/-- **The step-key codec.** The reader returns, and accepts nothing but keys, exactly of the texts
in whose round a number can be read; it undoes the writer. -/
theorem step_key_codec :
    (∀ key, ((∃ parsed, parseStepKey key = .ok parsed) ∧
      ∀ segment n, parseStepKey key = .ok (some (segment, n)) → stepKey segment n = .ok key ∨
        segment = initialSegment ∧ 1 ≤ n ∧ key = "round-" ++ toString n) ↔ ¬ Unreadable key) ∧
    ∀ segment n key, stepKey segment n = .ok key →
      parseStepKey key = .ok (some (segment, n)) := by
  refine ⟨fun key => ⟨?_, fun hreadable => ⟨?_, fun segment n => parseStepKey_eq_some⟩⟩,
    fun segment n key => parseStepKey_stepKey⟩
  · rintro ⟨⟨parsed, hparsed⟩, -⟩ hunreadable
    rw [parseStepKey_error.2 ⟨rfl, hunreadable⟩] at hparsed
    cases hparsed
  · cases hparse : parseStepKey key with
    | ok parsed => exact ⟨parsed, rfl⟩
    | error e => exact absurd (parseStepKey_error.1 hparse).2 hreadable

end

namespace Superscript

/-- Digits as `str` knows them, of ASCII and the superscript two. -/
scoped instance digitTexts : DigitTexts where
  isdigit c := c.isDigit || c = '²'
  decimal c := if c.isDigit then some (c.toNat - 48) else none
  decimal_ascii c hc := by rw [if_pos hc]
  isdigit_of_decimal c hc := by
    split at hc
    · next hdigit => simp [hdigit]
    · cases hc
  isdigit_colon := rfl

/-- The superscript two is a digit that `int` does not read. -/
theorem parseStepKey_superscript :
    ¬ ∃ parsed, parseStepKey "ctx0:round-²" = .ok parsed := by
  rintro ⟨parsed, hparsed⟩
  have herror : parseStepKey "ctx0:round-²" = .error .valueError := by decide
  rw [herror] at hparsed
  cases hparsed

end Superscript

end OpsPilot
