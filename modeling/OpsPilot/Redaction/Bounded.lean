import Mathlib
import OpsPilot.Redaction.Payloads

/-!
# Texts within bounds

What an investigation is shown of a text from outside: its printable characters up to a limit, cut
with a marker, inside a fact whose canonical text is bounded as a whole
(`opspilot/alertmanager.py`, `opspilot/investigation/inputs.py`; the checks are in
`opspilot/investigation/context.py`).

* `Code.unprintable`, `printable`: the characters that are replaced.
* `cutText`, `cutAt`: a text up to its limit, and whether a text can be one.
* `length_dumps_obj`: how long the canonical text of an object is, in any order of its fields.
-/

namespace OpsPilot.Redaction

/-! ## Printable texts -/

/-- The code points of the categories Cc, Cf, Zl and Zp, as ranges. -/
def unprintableRanges : List (ℕ × ℕ) :=
  [(0x0, 0x1F), (0x7F, 0x9F), (0xAD, 0xAD), (0x600, 0x605), (0x61C, 0x61C), (0x6DD, 0x6DD),
    (0x70F, 0x70F), (0x890, 0x891), (0x8E2, 0x8E2), (0x180E, 0x180E), (0x200B, 0x200F),
    (0x2028, 0x202E), (0x2060, 0x2064), (0x2066, 0x206F), (0xFEFF, 0xFEFF), (0xFFF9, 0xFFFB),
    (0x110BD, 0x110BD), (0x110CD, 0x110CD), (0x13430, 0x1343F), (0x1BCA0, 0x1BCA3),
    (0x1D173, 0x1D17A), (0xE0001, 0xE0001), (0xE0020, 0xE007F)]

/-- `category(char) in ALERT_CONTEXT_UNPRINTABLE`. -/
def Code.unprintable (c : Code) : Bool :=
  unprintableRanges.any fun range => range.1 ≤ c.point && c.point ≤ range.2

/-- `_unprintable`. -/
def hasUnprintable (text : Text) : Bool := text.any Code.unprintable

/-- The text with U+FFFD for every unprintable character. -/
def printable (text : Text) : Text :=
  text.map fun c => if c.unprintable then .ofPoint 0xFFFD else c

theorem hasUnprintable_append (s t : Text) :
    hasUnprintable (s ++ t) = (hasUnprintable s || hasUnprintable t) := List.any_append

theorem hasUnprintable_printable (text : Text) : hasUnprintable (printable text) = false := by
  rw [hasUnprintable, printable, List.any_map, List.any_eq_false]
  intro c _
  show ¬ (if c.unprintable then Code.ofPoint 0xFFFD else c).unprintable = true
  split
  · decide
  · next h => exact h

theorem hasUnprintable_take {text : Text} (h : hasUnprintable text = false) (n : ℕ) :
    hasUnprintable (text.take n) = false := by
  rw [hasUnprintable, List.any_eq_false] at h ⊢
  exact fun c hc => h c (List.mem_of_mem_take hc)

theorem hasUnprintable_redactedCredential : hasUnprintable redactedCredential = false := by decide

/-! ## Texts up to a limit -/

/-- `ALERT_CONTEXT_TRUNCATED`. -/
def contextTruncated : Text := literal " [truncated]"

theorem hasUnprintable_contextTruncated : hasUnprintable contextTruncated = false := by decide

/-- A text up to a limit, with the marker when it was cut, and whether it was. -/
@[irreducible]
def cutText (limit : ℕ) (text : Text) : Text × Bool :=
  if limit < text.length then (text.take limit ++ contextTruncated, true) else (text, false)

/-- A text is within its limit, or cut at exactly its limit. -/
def cutAt (limit : ℕ) (text : Text) : Bool :=
  text.length ≤ limit ||
    text.length = limit + contextTruncated.length && contextTruncated.isSuffixOf text

theorem length_contextTruncated : contextTruncated.length = 12 := by decide

theorem cutAt_cutText (limit : ℕ) (text : Text) : cutAt limit (cutText limit text).1 = true := by
  rw [cutAt, cutText]
  split
  · next h =>
    have hlength : (text.take limit ++ contextTruncated).length =
        limit + contextTruncated.length := by
      rw [List.length_append, List.length_take, Nat.min_eq_left h.le]
    have hsuffix : contextTruncated.isSuffixOf (text.take limit ++ contextTruncated) = true :=
      List.isSuffixOf_iff_suffix.2 (List.suffix_append _ _)
    simp only [hlength, hsuffix, decide_true, Bool.and_self, Bool.or_true]
  · next h => simp [not_lt.1 h]

/-- A text was cut exactly when what it was cut to is over its limit. -/
theorem cutText_snd (limit : ℕ) (text : Text) :
    (cutText limit text).2 = decide (limit < (cutText limit text).1.length) := by
  rw [cutText]
  split
  · next h =>
    have hlength : limit < (text.take limit ++ contextTruncated).length := by
      rw [List.length_append, List.length_take, length_contextTruncated]
      omega
    exact (decide_eq_true hlength).symm
  · next h => exact (decide_eq_false h).symm

theorem hasUnprintable_cutText {text : Text} (h : hasUnprintable text = false) (limit : ℕ) :
    hasUnprintable (cutText limit text).1 = false := by
  rw [cutText]
  split
  · rw [hasUnprintable_append, hasUnprintable_take h, hasUnprintable_contextTruncated]
    rfl
  · exact h

/-! ## The length of a canonical text -/

mutual

/-- Whether `json.dumps` writes a value: an integer may not have more digits than `str` writes. -/
def writable : Tree → Bool
  | .int n => (Nat.toDigits 10 n.natAbs).length ≤ intMaxStrDigits
  | .arr items => writableItems items
  | .obj fields => writableFields fields
  | _ => true

/-- Whether it writes the items of an array. -/
def writableItems : List Tree → Bool
  | [] => true
  | item :: items => writable item && writableItems items

/-- Whether it writes the fields of an object. -/
def writableFields : List (Text × Tree) → Bool
  | [] => true
  | (_, value) :: fields => writable value && writableFields fields

end

theorem length_intercalate (s : Text) (texts : List Text) :
    (s.intercalate texts).length = (texts.map List.length).sum + (texts.length - 1) * s.length := by
  induction texts with
  | nil => simp [List.intercalate]
  | cons t texts ih =>
    cases texts with
    | nil => simp [List.intercalate]
    | cons u texts =>
      have hcons : s.intercalate (t :: u :: texts) = t ++ s ++ s.intercalate (u :: texts) := by
        simp [List.intercalate]
      rw [hcons, List.length_append, List.length_append, ih]
      simp only [List.map_cons, List.sum_cons, List.length_cons, Nat.add_sub_cancel]
      ring

section

variable [JsonTexts]

/-- How much of a canonical text a field takes: its key in quotes, a colon and its value. -/
def fieldLength (field : Text × Tree) : ℕ :=
  (quoteText false field.1).length + 1 + (dumps false field.2).length

theorem dumpsFields_eq (ascii : Bool) (fields : List (Text × Tree)) :
    dumpsFields ascii fields = fields.map fun field => (field.1, dumps ascii field.2) := by
  induction fields with
  | nil => rfl
  | cons field fields ih => rw [dumpsFields, ih, List.map_cons]

/-- The canonical text of an object is as long as its fields, whatever their order, the commas
between them and two braces. -/
theorem length_dumps_obj (fields : List (Text × Tree)) :
    (dumps false (.obj fields)).length =
      (fields.map fieldLength).sum + (fields.length - 1) + 2 := by
  have hperm := List.perm_insertionSort
    (fun a b : Text × Text => a.1.map Code.point ≤ b.1.map Code.point) (dumpsFields false fields)
  rw [dumps, List.length_append, List.length_append, length_intercalate, List.map_map,
    List.length_map, sortByKey, hperm.length_eq, (hperm.map _).sum_eq, dumpsFields_eq,
    List.map_map, List.length_map]
  have hfield : (List.length ∘ fun entry : Text × Text =>
      quoteText false entry.1 ++ literal ":" ++ entry.2) ∘
        (fun field : Text × Tree => (field.1, dumps false field.2)) = fieldLength := by
    funext field
    show (quoteText false field.1 ++ literal ":" ++ dumps false field.2).length = _
    rw [List.length_append, List.length_append]
    rfl
  rw [hfield]
  show 1 + ((fields.map fieldLength).sum + (fields.length - 1) * 1) + 1 = _
  omega

end

end OpsPilot.Redaction
