import Mathlib.Data.List.Basic

/-!
# Scanning texts

* `rpartition`: what is before and after the last separator of a text.
* `rpartition_eq_some`, `rpartition_eq_none`: what it finds, without its recursion.
* `search`, `substitute`: the matches of a pattern from left to right, given what it matches at an
  index.
-/

namespace OpsPilot

/-- `sys.get_int_max_str_digits()`: how many digits `int` reads. -/
def intMaxStrDigits : ℕ := 4300

/-- `text.rpartition(sep)`: the parts around the last separator, if there is one. -/
def rpartition (sep : Char) : List Char → Option (List Char × List Char)
  | [] => none
  | c :: text =>
    match rpartition sep text with
    | some (front, back) => some (c :: front, back)
    | none => if c = sep then some ([], text) else none

section

variable {sep : Char} {text front back : List Char}

theorem rpartition_eq_none : rpartition sep text = none ↔ sep ∉ text := by
  induction text with
  | nil => simp [rpartition]
  | cons c text ih =>
    rw [rpartition]
    split
    · next front back h =>
      have hmem : sep ∈ text := by
        by_contra hout
        rw [ih.2 hout] at h
        cases h
      simp [hmem]
    · next h =>
      have hout := ih.1 h
      split
      · next hc => simp [hc]
      · next hc => simp [hout, Ne.symm hc]

theorem rpartition_eq_some :
    rpartition sep text = some (front, back) ↔ text = front ++ sep :: back ∧ sep ∉ back := by
  induction text generalizing front back with
  | nil => simp [rpartition]
  | cons c text ih =>
    rw [rpartition]
    split
    · next front' back' h =>
      obtain ⟨htext, hout⟩ := ih.1 h
      constructor
      · intro heq
        obtain ⟨rfl, rfl⟩ := Prod.mk.inj (Option.some.inj heq)
        exact ⟨by rw [htext, List.cons_append], hout⟩
      · rintro ⟨heq, hout'⟩
        cases front with
        | nil =>
          obtain ⟨-, rfl⟩ := List.cons.inj heq
          simp [htext] at hout'
        | cons d front =>
          obtain ⟨rfl, htail⟩ := List.cons.inj heq
          have hback : rpartition sep text = some (front, back) := ih.2 ⟨htail, hout'⟩
          rw [h] at hback
          obtain ⟨rfl, rfl⟩ := Prod.mk.inj (Option.some.inj hback)
          rfl
    · next h =>
      have hout := rpartition_eq_none.1 h
      constructor
      · intro heq
        split at heq
        · next hc =>
          obtain ⟨rfl, rfl⟩ := Prod.mk.inj (Option.some.inj heq)
          exact ⟨by rw [hc]; rfl, hout⟩
        · cases heq
      · rintro ⟨heq, -⟩
        cases front with
        | nil =>
          obtain ⟨rfl, rfl⟩ := List.cons.inj heq
          rw [if_pos rfl]
        | cons d front =>
          obtain ⟨rfl, rfl⟩ := List.cons.inj heq
          simp at hout

end

/-! ## Matches from left to right -/

section

variable {α β : Type*}

/-- `text[start:stop]`. -/
def slice (text : List α) (start stop : ℕ) : List α := (text.take stop).drop start

/-- Where the run of characters with a property ends that starts at an index. -/
def spanEnd (p : α → Bool) (text : List α) (start : ℕ) : ℕ :=
  start + ((text.drop start).takeWhile p).length

/-- `pattern.search(text, pos)`: the first index with a match, and the match. -/
def search (matchAt : ℕ → Option β) (text : List α) (pos : ℕ) : Option (ℕ × β) :=
  (List.range' pos (text.length - pos)).findSome? fun index => (matchAt index).map (index, ·)

/-- The text from a position on, with its matches replaced. -/
def substituteFrom (matchAt : ℕ → Option (List α × ℕ)) (text : List α) : ℕ → ℕ → List α
  | 0, pos => text.drop pos
  | fuel + 1, pos =>
    match search matchAt text pos with
    | none => text.drop pos
    | some (start, replacement, stop) =>
      slice text pos start ++ replacement ++ substituteFrom matchAt text fuel stop

/-- `pattern.sub(…, text)`: every match replaced, from left to right. A match takes a character, so
the length of the text bounds the recursion. -/
def substitute (matchAt : ℕ → Option (List α × ℕ)) (text : List α) : List α :=
  substituteFrom matchAt text (text.length + 1) 0

variable {text : List α} {start stop pos index : ℕ}

end

end OpsPilot
