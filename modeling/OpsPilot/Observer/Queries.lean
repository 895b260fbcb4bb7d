import Mathlib
import OpsPilot.Foundations.Patterns
import OpsPilot.Investigation.Reports

/-!
# Normal forms of queries

The texts of PromQL queries, compared up to white space and the order of matchers
(`normalize_query` in `opspilot/observer/release_evaluation.py`).

* `quotation`, `token`, `matcher`, `group`, `window`: the regular expressions of the source, those
  that a character ends as machines.
* `compact`: a query without its white space, quoted contents kept.
* `normalizeQuery`: the normal form.
* `windowed`: a query with its ranges written in seconds.
-/

namespace OpsPilot.Observer

/-! ## The patterns -/

/-- Inside a quotation, or after a backslash there. -/
inductive Quoting
  | open | escaped

/-- `"(?:\\.|[^"\\])*"`. -/
def quotation : Machine Quoting Char where
  start c := if c = '"' then some .open else none
  move
    | .open, c => if c = '"' then .stop else .next (if c = '\\' then .escaped else .open)
    | .escaped, c => if c = '\n' then .fail else .next .open

/-- In the name of a label, after the first character of an operator, after the operator, and in
the value. -/
inductive Matching
  | name | equals | bang | operator | quoted | escaped

/-- `[a-zA-Z_]`. -/
def nameStart (c : Char) : Bool := c.isAlpha || c == '_'

/-- `[a-zA-Z0-9_]`. -/
def nameRest (c : Char) : Bool := c.isAlphanum || c == '_'

/-- `[a-zA-Z_][a-zA-Z0-9_]*(?:=~|!~|!=|=)"(?:\\.|[^"\\])*"`. -/
def matcher : Machine Matching Char where
  start c := if nameStart c then some .name else none
  move
    | .name, c =>
      if nameRest c then .next .name
      else if c = '=' then .next .equals
      else if c = '!' then .next .bang
      else .fail
    | .equals, c =>
      if c = '~' then .next .operator else if c = '"' then .next .quoted else .fail
    | .bang, c => if c = '~' ∨ c = '=' then .next .operator else .fail
    | .operator, c => if c = '"' then .next .quoted else .fail
    | .quoted, c => if c = '"' then .stop else .next (if c = '\\' then .escaped else .quoted)
    | .escaped, c => if c = '\n' then .fail else .next .quoted

/-- Between the braces of a selector, in a quotation there, and after a backslash in it. -/
inductive Grouping
  | plain | quoted | escaped

/-- `\{((?:[^"{}]|"(?:\\.|[^"\\])*")*)\}`. -/
def group : Machine Grouping Char where
  start c := if c = '{' then some .plain else none
  move
    | .plain, c =>
      if c = '}' then .stop
      else if c = '{' then .fail
      else .next (if c = '"' then .quoted else .plain)
    | .quoted, c =>
      .next (if c = '"' then .plain else if c = '\\' then .escaped else .quoted)
    | .escaped, c => if c = '\n' then .fail else .next .quoted

/-- After the bracket, in the digits, and after the unit. -/
inductive Ranging
  | opened | digits | unit

/-- `\[[0-9]+[smhd]\]`. -/
def window : Machine Ranging Char where
  start c := if c = '[' then some .opened else none
  move
    | .opened, c => if c.isDigit then .next .digits else .fail
    | .digits, c =>
      if c.isDigit then .next .digits else if c ∈ ['s', 'm', 'h', 'd'] then .next .unit else .fail
    | .unit, c => if c = ']' then .stop else .fail

/-- The characters a token that is no quotation goes on with: `\s+` or `[^\s"]+`. -/
def sameRun (c d : Char) : Bool := if isSpace c then isSpace d else !isSpace d && d != '"'

theorem sameRun_self {c : Char} (h : c ≠ '"') : sameRun c c = true := by
  cases hc : isSpace c <;> simp [sameRun, hc, h]

/-- `"(?:\\.|[^"\\])*"|\s+|[^\s"]+`. -/
def token : Pattern Char where
  matchAt
    | [] => none
    | c :: text =>
      if c = '"' then quotation.pattern.matchAt (c :: text)
      else some ((c :: text).takeWhile (sameRun c), (c :: text).dropWhile (sameRun c))
  splits {text found rest} h := by
    cases text with
    | nil => cases h
    | cons c text =>
      replace h : (if c = '"' then _ else _) = _ := h
      split at h
      · exact quotation.pattern.splits h
      · obtain ⟨rfl, rfl⟩ := Prod.mk.inj (Option.some.inj h)
        exact List.takeWhile_append_dropWhile.symm
  consumes {text found rest} h := by
    cases text with
    | nil => cases h
    | cons c text =>
      replace h : (if c = '"' then _ else _) = _ := h
      split at h
      · exact quotation.pattern.consumes h
      · next hquote =>
        obtain ⟨rfl, -⟩ := Prod.mk.inj (Option.some.inj h)
        rw [List.takeWhile_cons_of_pos (sameRun_self hquote)]
        exact List.cons_ne_nil _ _

/-! ## Normal forms -/

/-- The tokens of a query that are not white space. -/
def compact (query : List Char) : List Char :=
  ((token.findAll query).filter fun t => !t.all isSpace).flatten

/-- A selector with its matchers in the order of their texts, if it is a list of matchers. -/
def sortMatchers (selector : List Char) : List Char :=
  let content := selector.tail.dropLast
  let parts := matcher.pattern.findAll content
  if [','].intercalate parts ≠ content then selector
  else '{' :: [','].intercalate (parts.insertionSort (· ≤ ·)) ++ ['}']

/-- `normalize_query`. -/
def normalizeQuery (query : List Char) : List Char := group.pattern.sub sortMatchers (compact query)

/-- `f"[{seconds}s]"`. -/
def writeWindow (seconds : ℕ) : List Char := '[' :: (toString seconds).toList ++ "s]".toList

/-- The ranges of a query written in seconds. -/
def windowed (seconds : ℕ) (query : List Char) : List Char :=
  window.pattern.sub (fun _ => writeWindow seconds) query

/-! ## Without white space -/

section

variable {c : Char} {text found rest : List Char}

theorem token_matchAt_run (h : c ≠ '"') : token.matchAt (c :: text) =
    some (c :: text.takeWhile (sameRun c), text.dropWhile (sameRun c)) := by
  show (if c = '"' then _ else _) = _
  rw [if_neg h, List.takeWhile_cons_of_pos (sameRun_self h),
    List.dropWhile_cons_of_pos (sameRun_self h)]

theorem token_matchAt_quote :
    token.matchAt ('"' :: text) = quotation.pattern.matchAt ('"' :: text) := by
  simp only [token, if_true]

theorem compact_found (h : token.matchAt text = some (found, rest)) :
    compact text = (if found.all isSpace then [] else found) ++ compact rest := by
  rw [compact, Pattern.findAll_found h, List.filter_cons]
  cases hspace : found.all isSpace <;> simp [compact]

/-- A run of characters of one kind is kept or dropped as a whole. -/
theorem compact_run {p : Char → Bool} (hp : ∀ d, p d = true → d ≠ '"' ∧ sameRun d = p)
    (keep : Bool) (hkeep : ∀ d, p d = true → isSpace d = !keep) :
    compact text =
      (if keep then text.takeWhile p else []) ++ compact (text.dropWhile p) := by
  cases text with
  | nil => cases keep <;> rfl
  | cons d text =>
    by_cases hd : p d = true
    · obtain ⟨hquote, hsame⟩ := hp d hd
      rw [compact_found (token_matchAt_run hquote), hsame, List.takeWhile_cons_of_pos hd,
        List.dropWhile_cons_of_pos hd]
      have hall : (d :: text.takeWhile p).all isSpace = !keep := by
        cases keep with
        | true => simp [hkeep d hd]
        | false =>
          rw [Bool.not_false, List.all_eq_true]
          intro e he
          rcases List.mem_cons.1 he with rfl | he
          · exact hkeep e hd
          · exact hkeep e (List.mem_takeWhile_imp he)
      rw [hall]
      cases keep <;> rfl
    · rw [List.takeWhile_cons_of_neg hd, List.dropWhile_cons_of_neg hd]
      cases keep <;> rfl

/-- A character that is neither white space nor a mark. -/
def isPlain (c : Char) : Bool := !isSpace c && c != '"'

theorem ne_quote_of_isSpace (h : isSpace c = true) : c ≠ '"' := by
  rintro rfl
  exact absurd h (by decide)

theorem compact_spaces : compact text = compact (text.dropWhile isSpace) :=
  compact_run (fun d hd => ⟨ne_quote_of_isSpace hd, by funext e; simp [sameRun, hd]⟩) false
    fun _ hd => hd

theorem compact_plains :
    compact text = text.takeWhile isPlain ++ compact (text.dropWhile isPlain) := by
  refine compact_run (fun d hd => ?_) true fun d hd => ?_
  · rw [isPlain, Bool.and_eq_true, Bool.not_eq_true', bne_iff_ne] at hd
    exact ⟨hd.2, by funext e; simp [sameRun, isPlain, hd.1]⟩
  · rw [isPlain, Bool.and_eq_true, Bool.not_eq_true'] at hd
    exact hd.1

theorem compact_space (h : isSpace c = true) : compact (c :: text) = compact text := by
  rw [compact_spaces, List.dropWhile_cons_of_pos h, ← compact_spaces]

theorem compact_plain (h : isPlain c = true) : compact (c :: text) = c :: compact text := by
  rw [compact_plains, List.takeWhile_cons_of_pos h, List.dropWhile_cons_of_pos h,
    List.cons_append, ← compact_plains]

theorem compact_quotation (h : quotation.pattern.matchAt ('"' :: text) = some (found, rest)) :
    compact ('"' :: text) = found ++ compact rest := by
  obtain ⟨c, s, text', found', heq, rfl, -, -⟩ := Machine.matchAt_eq_some h
  obtain ⟨rfl, rfl⟩ := List.cons.inj heq
  rw [compact_found (token_matchAt_quote.trans h),
    show ('"' :: found').all isSpace = false from rfl, if_neg Bool.false_ne_true]

/-- Outside quotations the white space goes. -/
theorem compact_append {front : List Char} (h : ∀ c ∈ front, c ≠ '"') :
    compact (front ++ text) = front.filter (fun c => !isSpace c) ++ compact text := by
  induction front with
  | nil => rfl
  | cons c front ih =>
    have ih := ih fun d hd => h d (List.mem_cons_of_mem _ hd)
    cases hc : isSpace c with
    | true => simp [compact_space hc, ih, hc]
    | false =>
      have hplain : isPlain c = true := by
        simp [isPlain, hc, h c (List.mem_cons_self ..)]
      simp [compact_plain hplain, ih, hc]

end

end OpsPilot.Observer
