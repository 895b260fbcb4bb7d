import Mathlib.Data.List.Basic

/-!
# Lines that arrive in pieces

A text is cut into lines that end with a line feed, a carriage return, or the two together. What is
known after a part of the text is the unfinished line and whether the last letter was a carriage
return, whose line feed may still come.

* `linesFrom`: the lines that end in a text, after an unfinished one.
* `breakLine`: the first line of a text, its ending and the rest.
* **`breakLine_eq_some`**: the text is put together from these.
-/

namespace OpsPilot.Lines

variable {α : Type} [DecidableEq α] (cr lf : α)

/-- The unfinished line, and whether a carriage return has just ended one. -/
abbrev Held (α : Type) := List α × Bool

/-- What is held after a letter. -/
def hold (held : Held α) (c : α) : Held α :=
  if held.2 ∧ c = lf then (held.1, false)
  else if c = cr then ([], true)
  else if c = lf then ([], false)
  else (held.1 ++ [c], false)

/-- The lines that end in a text, the first of them begun before. -/
def linesFrom (held : Held α) : List α → List (List α)
  | [] => []
  | c :: text =>
    if ¬ (held.2 ∧ c = lf) ∧ (c = cr ∨ c = lf) then
      held.1 :: linesFrom (hold cr lf held c) text
    else linesFrom (hold cr lf held c) text

/-- The lines of a text that have an end. -/
def lines (text : List α) : List (List α) := linesFrom cr lf ([], false) text

variable {cr lf}

/-- A carriage return that ended a line is forgotten when no line feed follows. -/
theorem linesFrom_of_head {held : Held α} {text : List α}
    (h : ¬ (held.2 ∧ text.head? = some lf)) :
    linesFrom cr lf (held.1, false) text = linesFrom cr lf held text := by
  cases text with
  | nil => rfl
  | cons c text =>
    have hpair : ¬ (held.2 ∧ c = lf) := by simpa using h
    have hhold : hold cr lf (held.1, false) c = hold cr lf held c := by
      rw [hold, hold, if_neg hpair, if_neg (by simp)]
    rw [linesFrom, linesFrom, hhold]
    simp only [hpair, Bool.false_eq_true, false_and]

/-- A letter that ends no line. -/
def Plain (cr lf : α) (c : α) : Prop := c ≠ cr ∧ c ≠ lf

/-- Letters that end no line are held. -/
theorem foldl_hold_plain (held : Held α) {text : List α} (h : ∀ c ∈ text, Plain cr lf c) :
    text.foldl (hold cr lf) held = (held.1 ++ text, held.2 && text.isEmpty) := by
  induction text generalizing held with
  | nil => simp
  | cons c text ih =>
    obtain ⟨⟨hcr, hlf⟩, h⟩ := List.forall_mem_cons.1 h
    rw [List.foldl_cons, ih _ h, hold, if_neg fun h => hlf h.2, if_neg hcr, if_neg hlf]
    simp

/-- What is held of a text is no longer than the text. -/
theorem length_foldl_hold (held : Held α) (text : List α) :
    (text.foldl (hold cr lf) held).1.length ≤ held.1.length + text.length := by
  induction text generalizing held with
  | nil => simp
  | cons c text ih =>
    have hone : (hold cr lf held c).1.length ≤ held.1.length + 1 := by
      rw [hold]
      split
      · exact Nat.le_succ _
      · split
        · exact Nat.zero_le _
        · split
          · exact Nat.zero_le _
          · simp
    have := ih (hold cr lf held c)
    rw [List.foldl_cons, List.length_cons]
    omega

/-- After a carriage return a line feed may still come. -/
theorem getLast?_of_foldl_hold {held : Held α} {text : List α} (hne : text ≠ [])
    (h : (text.foldl (hold cr lf) held).2 = true) : text.getLast? = some cr := by
  obtain ⟨first, c, rfl⟩ := List.eq_nil_or_concat' text |>.resolve_left hne
  rw [List.foldl_append, List.foldl_cons, List.foldl_nil, hold] at h
  by_cases hpair : (first.foldl (hold cr lf) held).2 ∧ c = lf
  · rw [if_pos hpair] at h
    cases h
  · by_cases hcr : c = cr
    · simp [hcr]
    · rw [if_neg hpair, if_neg hcr] at h
      split at h <;> cases h

/-! ## The first line -/

/-- The first line of a text, the length of its ending, and the text after it. -/
def breakLine (cr lf : α) : List α → Option (List α × ℕ × List α)
  | [] => none
  | c :: text =>
    if c = cr then some ([], if text.head? = some lf then (2, text.tail) else (1, text))
    else if c = lf then some ([], 1, text)
    else (breakLine cr lf text).map fun (line, found) => (c :: line, found)

theorem breakLine_eq_none {text : List α} (h : breakLine cr lf text = none) :
    ∀ c ∈ text, Plain cr lf c := by
  induction text with
  | nil => simp
  | cons c text ih =>
    rw [breakLine] at h
    by_cases hcr : c = cr
    · rw [if_pos hcr] at h
      cases h
    · by_cases hlf : c = lf
      · rw [if_neg hcr, if_pos hlf] at h
        cases h
      · rw [if_neg hcr, if_neg hlf, Option.map_eq_none_iff] at h
        exact List.forall_mem_cons.2 ⟨⟨hcr, hlf⟩, ih h⟩

/-- How the ending of a line is followed: a carriage return that stands alone by no line feed. -/
def Ending (cr lf : α) (ending rest : List α) : Prop :=
  ending = [cr, lf] ∨ ending = [cr] ∧ rest.head? ≠ some lf ∨ ending = [lf]

theorem breakLine_eq_some {text line rest : List α} {size : ℕ}
    (h : breakLine cr lf text = some (line, size, rest)) :
    ∃ ending, Ending cr lf ending rest ∧ size = ending.length ∧ text = line ++ (ending ++ rest) ∧
      ∀ c ∈ line, Plain cr lf c := by
  induction text generalizing line with
  | nil => cases h
  | cons c text ih =>
    rw [breakLine] at h
    by_cases hcr : c = cr
    · rw [if_pos hcr] at h
      obtain ⟨rfl, hfound⟩ := Prod.mk.inj (Option.some.inj h)
      by_cases hhead : text.head? = some lf
      · rw [if_pos hhead] at hfound
        obtain ⟨rfl, rfl⟩ := Prod.mk.inj hfound
        obtain ⟨tail, rfl⟩ := List.head?_eq_some_iff.1 hhead
        exact ⟨[cr, lf], .inl rfl, rfl, by rw [hcr]; rfl, by simp⟩
      · rw [if_neg hhead] at hfound
        obtain ⟨rfl, rfl⟩ := Prod.mk.inj hfound
        exact ⟨[cr], .inr (.inl ⟨rfl, hhead⟩), rfl, by rw [hcr]; rfl, by simp⟩
    · by_cases hlf : c = lf
      · rw [if_neg hcr, if_pos hlf] at h
        obtain ⟨rfl, hfound⟩ := Prod.mk.inj (Option.some.inj h)
        obtain ⟨rfl, rfl⟩ := Prod.mk.inj hfound
        exact ⟨[lf], .inr (.inr rfl), rfl, by rw [hlf]; rfl, by simp⟩
      · rw [if_neg hcr, if_neg hlf] at h
        obtain ⟨⟨tail, found⟩, hfound, h⟩ := Option.map_eq_some_iff.1 h
        obtain ⟨rfl, rfl⟩ := Prod.mk.inj h
        obtain ⟨ending, hending, hsize, rfl, hplain⟩ := ih hfound
        exact ⟨ending, hending, hsize, rfl, List.forall_mem_cons.2 ⟨⟨hcr, hlf⟩, hplain⟩⟩

end OpsPilot.Lines
