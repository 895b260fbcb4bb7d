import Mathlib.Data.List.Basic

/-!
# Patterns of texts

What a regular expression does to a text from left to right, given what it matches at the beginning
of one.

* `Pattern`: what is matched at the beginning of a text, never nothing, and what is left.
* `Pattern.pieces`: a text cut into matches and the characters between them.
* `Pattern.findAll`, `Pattern.sub`: the matches, and the text with its matches replaced.
* `Pattern.Blind`: a character that no match reaches.
* `Pattern.literal`: the pattern of one text.
* `Machine`: a pattern read character by character, which a character ends.
* `Machine.pattern_stable`: what a machine matches, it matches before any other text.
-/

namespace OpsPilot

universe u v w

/-- What is matched at the beginning of a text, and what is left. -/
structure Pattern (α : Type u) where
  matchAt : List α → Option (List α × List α)
  splits {text found rest : List α} : matchAt text = some (found, rest) → text = found ++ rest
  consumes {text found rest : List α} : matchAt text = some (found, rest) → found ≠ []

/-- A part of a text: a match, or a character that begins none. -/
inductive Piece (α : Type u)
  | found (text : List α)
  | skipped (a : α)

/-- The text of a match. -/
def Piece.found? {α : Type u} : Piece α → Option (List α)
  | .found text => some text
  | .skipped _ => none

/-- A piece with its match replaced. -/
def Piece.replaced {α : Type u} (f : List α → List α) : Piece α → List α
  | .found text => f text
  | .skipped a => [a]

namespace Pattern

variable {α : Type u} {p : Pattern α} {f : List α → List α} {a b : α}
  {text found rest front : List α}

theorem length_rest_lt (h : p.matchAt text = some (found, rest)) : rest.length < text.length := by
  have hpos := List.length_pos_iff.2 (p.consumes h)
  rw [p.splits h, List.length_append]
  omega

@[simp]
theorem matchAt_nil : p.matchAt [] = none := by
  cases h : p.matchAt [] with
  | none => rfl
  | some match_ =>
    obtain ⟨found, rest⟩ := match_
    have hlt := length_rest_lt h
    simp at hlt

/-! ## The pieces of a text -/

/-- The pieces of a text, with a bound on their number. -/
def piecesFrom (p : Pattern α) : ℕ → List α → List (Piece α)
  | 0, _ => []
  | _ + 1, [] => []
  | bound + 1, a :: text =>
    match p.matchAt (a :: text) with
    | some (found, rest) => .found found :: piecesFrom p bound rest
    | none => .skipped a :: piecesFrom p bound text

/-- The matches from left to right, and what is between them. -/
def pieces (p : Pattern α) (text : List α) : List (Piece α) := p.piecesFrom text.length text

theorem piecesFrom_of_le {bound : ℕ} (h : text.length ≤ bound) :
    p.piecesFrom bound text = p.pieces text := by
  induction bound using Nat.strongRecOn generalizing text with
  | _ bound ih =>
    cases text with
    | nil => cases bound <;> rfl
    | cons a text =>
      obtain ⟨bound, rfl⟩ : ∃ n, bound = n + 1 :=
        ⟨bound - 1, by rw [List.length_cons] at h; omega⟩
      rw [List.length_cons] at h
      have hsame {rest : List α} (hlt : rest.length ≤ text.length) :
          p.piecesFrom bound rest = p.piecesFrom text.length rest := by
        rw [ih bound (by omega) (by omega)]
        rcases Nat.lt_or_ge text.length (bound + 1) with hbound | hbound
        · exact (ih text.length hbound hlt).symm
        · omega
      rw [pieces, List.length_cons, piecesFrom, piecesFrom]
      split
      · next found rest hmatch =>
        have hlt := length_rest_lt hmatch
        rw [List.length_cons] at hlt
        rw [hsame (by omega)]
      · rw [hsame (Nat.le_refl _)]

@[simp]
theorem pieces_nil : p.pieces [] = [] := rfl

theorem pieces_found (h : p.matchAt text = some (found, rest)) :
    p.pieces text = .found found :: p.pieces rest := by
  cases text with
  | nil => rw [matchAt_nil] at h; cases h
  | cons a text =>
    have hlt := length_rest_lt h
    rw [List.length_cons] at hlt
    rw [pieces, List.length_cons, piecesFrom, h]
    show _ :: p.piecesFrom text.length rest = _
    rw [piecesFrom_of_le (by omega)]

theorem pieces_skipped (h : p.matchAt (a :: text) = none) :
    p.pieces (a :: text) = .skipped a :: p.pieces text := by
  rw [pieces, List.length_cons, piecesFrom, h]
  rfl

/-- The induction along the pieces of a text. -/
theorem pieces_induction (p : Pattern α) {motive : List α → Prop} (nil : motive [])
    (found : ∀ text found rest, p.matchAt text = some (found, rest) → motive rest → motive text)
    (skipped : ∀ a text, p.matchAt (a :: text) = none → motive text → motive (a :: text))
    (text : List α) : motive text := by
  induction hlen : text.length using Nat.strongRecOn generalizing text with
  | _ n ih =>
    subst hlen
    cases text with
    | nil => exact nil
    | cons a text =>
      cases h : p.matchAt (a :: text) with
      | none => exact skipped a text h (ih _ (by simp) _ rfl)
      | some match_ => exact found _ match_.1 match_.2 h (ih _ (length_rest_lt h) _ rfl)

/-! ## Finding and replacing -/

/-- `pattern.findall(text)`. -/
def findAll (p : Pattern α) (text : List α) : List (List α) :=
  (p.pieces text).filterMap Piece.found?

/-- `pattern.sub(f, text)`. -/
def sub (p : Pattern α) (f : List α → List α) (text : List α) : List α :=
  (p.pieces text).flatMap (Piece.replaced f)

@[simp]
theorem findAll_nil : p.findAll [] = [] := rfl

theorem findAll_found (h : p.matchAt text = some (found, rest)) :
    p.findAll text = found :: p.findAll rest := by
  rw [findAll, pieces_found h]
  rfl

theorem findAll_skipped (h : p.matchAt (a :: text) = none) :
    p.findAll (a :: text) = p.findAll text := by
  rw [findAll, pieces_skipped h]
  rfl

/-- The characters of a match are those of the text. -/
theorem mem_of_mem_findAll (h : found ∈ p.findAll text) (hmem : a ∈ found) : a ∈ text := by
  induction text using p.pieces_induction with
  | nil => cases h
  | found text first rest hmatch ih =>
    rw [findAll_found hmatch] at h
    rw [p.splits hmatch]
    rcases List.mem_cons.1 h with rfl | h
    · exact List.mem_append_left _ hmem
    · exact List.mem_append_right _ (ih h)
  | skipped b text hmatch ih =>
    rw [findAll_skipped hmatch] at h
    exact List.mem_cons_of_mem _ (ih h)

@[simp]
theorem sub_nil : p.sub f [] = [] := rfl

theorem sub_found (h : p.matchAt text = some (found, rest)) :
    p.sub f text = f found ++ p.sub f rest := by
  rw [sub, pieces_found h]
  rfl

theorem sub_skipped (h : p.matchAt (a :: text) = none) :
    p.sub f (a :: text) = a :: p.sub f text := by
  rw [sub, pieces_skipped h]
  rfl

/-- Characters that begin no match stay as they are. -/
theorem sub_append (h : ∀ a ∈ front, ∀ text, p.matchAt (a :: text) = none) :
    p.sub f (front ++ text) = front ++ p.sub f text := by
  induction front with
  | nil => rfl
  | cons a front ih =>
    rw [List.cons_append, sub_skipped (h a (List.mem_cons_self ..) _),
      ih fun b hb => h b (List.mem_cons_of_mem _ hb), List.cons_append]

/-! ## Characters that no match reaches -/

/-- A character no match reaches: what is matched before it does not depend on what follows. -/
def Blind (p : Pattern α) (a : α) : Prop :=
  ∀ front text, p.matchAt (front ++ a :: text) =
    (p.matchAt front).map fun match_ => (match_.1, match_.2 ++ a :: text)

theorem Blind.pieces_append_cons (h : p.Blind a) :
    p.pieces (front ++ a :: text) = p.pieces front ++ .skipped a :: p.pieces text := by
  induction front using p.pieces_induction with
  | nil => exact pieces_skipped (by simpa using h [] text)
  | found front found rest hmatch ih =>
    have hlonger := h front text
    rw [hmatch] at hlonger
    rw [pieces_found hlonger, pieces_found hmatch, ih]
    rfl
  | skipped b front hmatch ih =>
    have hlonger := h (b :: front) text
    rw [hmatch, List.cons_append] at hlonger
    rw [List.cons_append, pieces_skipped hlonger, pieces_skipped hmatch, ih]
    rfl

theorem Blind.sub_append_cons (h : p.Blind a) :
    p.sub f (front ++ a :: text) = p.sub f front ++ a :: p.sub f text := by
  rw [sub, h.pieces_append_cons, List.flatMap_append]
  rfl

/-! ## The pattern of one text -/

section

variable [DecidableEq α]

/-- A text that is not empty, as it is. -/
def literal (old : List α) (h : old ≠ []) : Pattern α where
  matchAt text := if old <+: text then some (old, text.drop old.length) else none
  splits {text found rest} hmatch := by
    split at hmatch
    · next hfront =>
      obtain ⟨rfl, rfl⟩ := Prod.mk.inj (Option.some.inj hmatch)
      exact (List.prefix_iff_eq_append.1 hfront).symm
    · cases hmatch
  consumes {text found rest} hmatch := by
    split at hmatch
    · obtain ⟨rfl, -⟩ := Prod.mk.inj (Option.some.inj hmatch)
      exact h
    · cases hmatch

variable {old : List α} {hold : old ≠ []}

theorem literal_matchAt_append (rest : List α) :
    (literal old hold).matchAt (old ++ rest) = some (old, rest) := by
  show (if old <+: old ++ rest then _ else _) = _
  rw [if_pos (List.prefix_append ..), List.drop_left]

theorem literal_matchAt_eq_none (h : ¬ old <+: text) :
    (literal old hold).matchAt text = none := if_neg h

theorem literal_blind (h : a ∉ old) : (literal old hold).Blind a := by
  intro front text
  by_cases hfront : old <+: front
  · obtain ⟨rest, rfl⟩ := hfront
    rw [List.append_assoc, literal_matchAt_append, literal_matchAt_append]
    rfl
  · have hlonger : ¬ old <+: front ++ a :: text := by
      intro hlonger
      rcases List.prefix_or_prefix_of_prefix hlonger (List.prefix_append front _) with hle | hle
      · exact hfront hle
      · obtain ⟨tail, rfl⟩ := hle
        cases tail with
        | nil => exact hfront (by simp)
        | cons b tail =>
          have hab := (List.prefix_append_right_inj front).1 hlonger
          obtain ⟨rfl, -⟩ := List.cons_prefix_cons.1 hab
          simp at h
    rw [literal_matchAt_eq_none hlonger, literal_matchAt_eq_none hfront]
    rfl

/-- The text itself, replaced. -/
theorem literal_sub_self : (literal old hold).sub f old = f old := by
  have hmatch : (literal old hold).matchAt (old ++ []) = some (old, []) :=
    literal_matchAt_append []
  rw [List.append_nil] at hmatch
  rw [sub_found hmatch, sub_nil, List.append_nil]

/-- A text without the other one stays as it is. -/
theorem literal_sub_eq_self (h : ¬ old <:+: text) : (literal old hold).sub f text = text := by
  induction text with
  | nil => rfl
  | cons a text ih =>
    have hfront : ¬ old <+: a :: text := fun hfront => h hfront.isInfix
    rw [sub_skipped (literal_matchAt_eq_none hfront),
      ih fun hin => h (hin.trans (List.suffix_cons a text).isInfix)]

theorem eq_of_literal_matchAt (h : (literal old hold).matchAt text = some (found, rest)) :
    found = old := by
  replace h : (if old <+: text then some (old, text.drop old.length) else none) =
    some (found, rest) := h
  split at h
  · exact (Prod.mk.inj (Option.some.inj h)).1.symm
  · cases h

variable (hold f) in
/-- The first occurrence of the text is replaced, and what follows it. -/
theorem exists_literal_sub (h : old <:+: text) : ∃ front back, text = front ++ old ++ back ∧
    (literal old hold).sub f text = front ++ f old ++ (literal old hold).sub f back := by
  induction text with
  | nil => exact absurd (List.infix_nil.1 h) hold
  | cons a text ih =>
    by_cases hfront : old <+: a :: text
    · obtain ⟨back, hback⟩ := hfront
      refine ⟨[], back, hback.symm, ?_⟩
      rw [← hback, sub_found (literal_matchAt_append back), List.nil_append]
    · obtain ⟨front, back, rfl, hsub⟩ := ih ((List.infix_cons_iff.1 h).resolve_left hfront)
      refine ⟨a :: front, back, rfl, ?_⟩
      rw [sub_skipped (literal_matchAt_eq_none hfront), hsub]
      rfl

/-- Replacing by a shorter text does not lengthen a text, nor by a longer one shorten it. -/
theorem length_literal_sub (hold : old ≠ []) (new : List α) (text : List α) :
    (new.length ≤ old.length → ((literal old hold).sub (fun _ => new) text).length ≤ text.length) ∧
      (old.length ≤ new.length →
        text.length ≤ ((literal old hold).sub (fun _ => new) text).length) := by
  induction text using (literal old hold).pieces_induction with
  | nil => exact ⟨fun _ => Nat.le_refl _, fun _ => Nat.le_refl _⟩
  | found text found rest hmatch ih =>
    rw [sub_found hmatch, Pattern.splits _ hmatch, eq_of_literal_matchAt hmatch, List.length_append, List.length_append]
    exact ⟨fun h => by have := ih.1 h; omega, fun h => by have := ih.2 h; omega⟩
  | skipped a text hmatch ih =>
    rw [sub_skipped hmatch, List.length_cons, List.length_cons]
    exact ⟨fun h => by have := ih.1 h; omega, fun h => by have := ih.2 h; omega⟩

/-- **Replacing a text leaves one alone exactly if it is not there, or is replaced by itself.** -/
theorem literal_sub_eq_self_iff {new : List α} :
    (literal old hold).sub (fun _ => new) text = text ↔ ¬ old <:+: text ∨ new = old := by
  constructor
  · intro h
    by_contra hout
    rw [not_or, Classical.not_not] at hout
    obtain ⟨front, back, htext, hsub⟩ := exists_literal_sub (fun _ => new) hold hout.1
    rw [h, htext, List.append_assoc, List.append_assoc] at hsub
    have hback := List.append_cancel_left hsub
    have hlength := congrArg List.length hback
    have hbound := length_literal_sub hold new back
    rw [List.length_append, List.length_append] at hlength
    have hsame : old.length = new.length := by omega
    exact hout.2 (List.append_inj hback hsame).1.symm
  · rintro (hout | rfl)
    · exact literal_sub_eq_self hout
    · induction text using (literal new hold).pieces_induction with
      | nil => rfl
      | found text found rest hmatch ih =>
        rw [sub_found hmatch, ih, Pattern.splits _ hmatch, eq_of_literal_matchAt hmatch]
      | skipped a text hmatch ih => rw [sub_skipped hmatch, ih]

end

end Pattern

/-! ## Machines -/

/-- What a machine does with a character: it goes on, ends the match with it, or fails. -/
inductive Move (σ : Type v)
  | next (state : σ)
  | stop
  | fail

/-- A pattern read character by character: the state after the first one, and what every state
does with the next. -/
structure Machine (σ : Type v) (α : Type u) where
  start : α → Option σ
  move : σ → α → Move σ

namespace Machine

variable {α : Type u} {σ : Type v} {m : Machine σ α} {s s' : σ} {a : α}
  {text found rest front : List α}

/-- What is read up to the end of the match, and what is left. -/
def read (m : Machine σ α) : σ → List α → Option (List α × List α)
  | _, [] => none
  | s, a :: text =>
    match m.move s a with
    | .next s' => (read m s' text).map fun match_ => (a :: match_.1, match_.2)
    | .stop => some ([a], text)
    | .fail => none

theorem read_next (h : m.move s a = .next s') :
    m.read s (a :: text) = (m.read s' text).map fun match_ => (a :: match_.1, match_.2) := by
  rw [read, h]

theorem read_stop (h : m.move s a = .stop) : m.read s (a :: text) = some ([a], text) := by
  rw [read, h]

theorem read_fail (h : m.move s a = .fail) : m.read s (a :: text) = none := by
  rw [read, h]

theorem splits_of_read (h : m.read s text = some (found, rest)) : text = found ++ rest := by
  induction text generalizing s found with
  | nil => cases h
  | cons a text ih =>
    cases hmove : m.move s a with
    | next s' =>
      rw [read_next hmove] at h
      obtain ⟨match_, hread, heq⟩ := Option.map_eq_some_iff.1 h
      obtain ⟨rfl, rfl⟩ := Prod.mk.inj heq
      rw [ih hread]
      rfl
    | stop =>
      rw [read_stop hmove] at h
      obtain ⟨rfl, rfl⟩ := Prod.mk.inj (Option.some.inj h)
      rfl
    | fail =>
      rw [read_fail hmove] at h
      cases h

/-- What is read does not depend on what follows it. -/
theorem read_stable (h : m.read s text = some (found, rest)) (other : List α) :
    m.read s (found ++ other) = some (found, other) := by
  induction text generalizing s found with
  | nil => cases h
  | cons a text ih =>
    cases hmove : m.move s a with
    | next s' =>
      rw [read_next hmove] at h
      obtain ⟨match_, hread, heq⟩ := Option.map_eq_some_iff.1 h
      obtain ⟨rfl, rfl⟩ := Prod.mk.inj heq
      rw [List.cons_append, read_next hmove, ih hread]
      rfl
    | stop =>
      rw [read_stop hmove] at h
      obtain ⟨rfl, rfl⟩ := Prod.mk.inj (Option.some.inj h)
      exact read_stop hmove
    | fail =>
      rw [read_fail hmove] at h
      cases h

/-- The state after a text that does not end the match. -/
def path (m : Machine σ α) : σ → List α → Option σ
  | s, [] => some s
  | s, a :: text =>
    match m.move s a with
    | .next s' => path m s' text
    | .stop | .fail => none

theorem path_next (h : m.move s a = .next s') : m.path s (a :: text) = m.path s' text := by
  rw [path, h]

theorem path_append (h : m.path s front = some s') : m.path s (front ++ text) = m.path s' text := by
  induction front generalizing s with
  | nil =>
    obtain rfl := Option.some.inj h
    rfl
  | cons a front ih =>
    rw [path] at h
    split at h
    · next hmove => rw [List.cons_append, path_next hmove, ih h]
    · cases h
    · cases h

/-- Characters that keep a state. -/
theorem path_of_forall (h : ∀ a ∈ front, m.move s a = .next s) : m.path s front = some s := by
  induction front with
  | nil => rfl
  | cons a front ih =>
    rw [path_next (h a (List.mem_cons_self ..)), ih fun b hb => h b (List.mem_cons_of_mem _ hb)]

theorem read_append (h : m.path s front = some s') :
    m.read s (front ++ text) = (m.read s' text).map fun match_ => (front ++ match_.1, match_.2) := by
  induction front generalizing s with
  | nil =>
    obtain rfl := Option.some.inj h
    simp
  | cons a front ih =>
    rw [path] at h
    split at h
    · next hmove =>
      rw [List.cons_append, read_next hmove, ih h, Option.map_map]
      rfl
    · cases h
    · cases h

/-- What is read is a text that goes on and the character that ends it. -/
theorem path_of_read (h : m.read s text = some (found, rest)) :
    ∃ front a s', found = front ++ [a] ∧ m.path s front = some s' ∧ m.move s' a = .stop := by
  induction text generalizing s found with
  | nil => cases h
  | cons a text ih =>
    cases hmove : m.move s a with
    | next s' =>
      rw [read_next hmove] at h
      obtain ⟨match_, hread, heq⟩ := Option.map_eq_some_iff.1 h
      obtain ⟨rfl, rfl⟩ := Prod.mk.inj heq
      obtain ⟨front, b, s'', hfound, hpath, hstop⟩ := ih hread
      exact ⟨a :: front, b, s'', by rw [hfound]; rfl, by rw [path_next hmove, hpath], hstop⟩
    | stop =>
      rw [read_stop hmove] at h
      obtain ⟨rfl, rfl⟩ := Prod.mk.inj (Option.some.inj h)
      exact ⟨[], a, s, rfl, rfl, hmove⟩
    | fail =>
      rw [read_fail hmove] at h
      cases h

/-- A machine that goes on wherever another one does, and where that one stops. -/
theorem path_of_simulation {τ : Type w} {n : Machine τ α} (g : σ → τ) {t : τ}
    (hnext : ∀ s a s', m.move s a = .next s' → n.move (g s) a = .next (g s'))
    (hstop : ∀ s a, m.move s a = .stop → n.move (g s) a = .next t)
    (h : m.read s text = some (found, rest)) : n.path (g s) found = some t := by
  induction text generalizing s found with
  | nil => cases h
  | cons a text ih =>
    cases hmove : m.move s a with
    | next s' =>
      rw [read_next hmove] at h
      obtain ⟨match_, hread, heq⟩ := Option.map_eq_some_iff.1 h
      obtain ⟨rfl, rfl⟩ := Prod.mk.inj heq
      rw [path_next (hnext s a s' hmove), ih hread]
    | stop =>
      rw [read_stop hmove] at h
      obtain ⟨rfl, rfl⟩ := Prod.mk.inj (Option.some.inj h)
      rw [path_next (hstop s a hmove)]
      rfl
    | fail =>
      rw [read_fail hmove] at h
      cases h

/-- A text that leads to the state in which a character ends the match. -/
theorem read_path (h : m.path s front = some s') (hstop : m.move s' a = .stop) :
    m.read s (front ++ a :: text) = some (front ++ [a], text) := by
  rw [read_append h, read_stop hstop]
  rfl

/-- The pattern of a machine. -/
def pattern (m : Machine σ α) : Pattern α where
  matchAt
    | [] => none
    | a :: text => (m.start a).bind fun s =>
      (m.read s text).map fun match_ => (a :: match_.1, match_.2)
  splits {text found rest} h := by
    cases text with
    | nil => cases h
    | cons a text =>
      obtain ⟨s, -, h⟩ := Option.bind_eq_some_iff.1 h
      obtain ⟨match_, hread, heq⟩ := Option.map_eq_some_iff.1 h
      obtain ⟨rfl, rfl⟩ := Prod.mk.inj heq
      rw [splits_of_read hread]
      rfl
  consumes {text found rest} h := by
    cases text with
    | nil => cases h
    | cons a text =>
      obtain ⟨s, -, h⟩ := Option.bind_eq_some_iff.1 h
      obtain ⟨match_, -, heq⟩ := Option.map_eq_some_iff.1 h
      obtain ⟨rfl, -⟩ := Prod.mk.inj heq
      exact List.cons_ne_nil _ _

theorem matchAt_start (h : m.start a = some s) : m.pattern.matchAt (a :: text) =
    (m.read s text).map fun match_ => (a :: match_.1, match_.2) := by
  show (m.start a).bind _ = _
  rw [h]
  rfl

theorem matchAt_not_start (h : m.start a = none) : m.pattern.matchAt (a :: text) = none := by
  show (m.start a).bind _ = _
  rw [h]
  rfl

/-- What a match begins with, and what the machine reads of it. -/
theorem matchAt_eq_some (h : m.pattern.matchAt text = some (found, rest)) :
    ∃ a s text' found', text = a :: text' ∧ found = a :: found' ∧ m.start a = some s ∧
      m.read s text' = some (found', rest) := by
  cases text with
  | nil => cases h
  | cons a text =>
    obtain ⟨s, hstart, h⟩ := Option.bind_eq_some_iff.1 h
    obtain ⟨match_, hread, heq⟩ := Option.map_eq_some_iff.1 h
    obtain ⟨rfl, rfl⟩ := Prod.mk.inj heq
    exact ⟨a, s, text, match_.1, rfl, rfl, hstart, hread⟩

theorem pattern_stable (h : m.pattern.matchAt text = some (found, rest)) (other : List α) :
    m.pattern.matchAt (found ++ other) = some (found, other) := by
  obtain ⟨a, s, text', found', rfl, rfl, hstart, hread⟩ := matchAt_eq_some h
  rw [List.cons_append, matchAt_start hstart, read_stable hread]
  rfl

end Machine

end OpsPilot
