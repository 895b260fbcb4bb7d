import Mathlib
import OpsPilot.Observer.Queries

/-!
# Queries with their selectors

Queries as texts with selectors and ranges between them, and what their normal forms say.

* `Query`: a query about a namespace and a service.
* `Query.write`: its text.
* `Reordered`: two queries that differ in the order of matchers within selectors.
* **`normalizeQuery_eq_iff`**: a text has the normal form of a query exactly if it is the query with
  some order of its matchers, up to white space outside quotations.
-/

namespace OpsPilot.Observer

/-! ## Queries -/

/-- What a matcher compares a label with. -/
inductive MatcherValue
  | «namespace»
  | service
  | fixed (text : List Char)

/-- One matcher of a selector. -/
structure LabelMatcher where
  label : List Char
  operator : List Char
  value : MatcherValue

/-- A query: a text, with selectors and ranges behind parts of it. -/
inductive Query
  | finish (text : List Char)
  | selector (lead : List Char) (matchers : List LabelMatcher) (rest : Query)
  | window (lead : List Char) (rest : Query)

/-- A character that neither ends a quotation nor looks like a part of a query. -/
def isInert (c : Char) : Bool := c ∉ ['"', '\\', '{', '}', '[', '\n']

/-- A character of a text around selectors and ranges. -/
def isLead (c : Char) : Bool := c ∉ ['"', '{', '}', '[', '\n']

/-- The fixed text of a value is inert. -/
def MatcherValue.wellFormed : MatcherValue → Bool
  | .namespace | .service => true
  | .fixed text => text.all isInert

/-- A label, an operator and a value. -/
def LabelMatcher.wellFormed (m : LabelMatcher) : Bool :=
  m.label.head?.any nameStart && m.label.all nameRest &&
    m.operator ∈ ["=".toList, "!=".toList, "=~".toList, "!~".toList] && m.value.wellFormed

/-- The selectors and ranges are where the query says they are. -/
def Query.wellFormed : Query → Bool
  | .finish text => text.all isLead
  | .selector lead matchers rest =>
    lead.all isLead && matchers.all LabelMatcher.wellFormed && rest.wellFormed
  | .window lead rest => lead.all isLead && rest.wellFormed

section

variable (n s range : List Char)

/-- The text of a value. -/
def MatcherValue.write : MatcherValue → List Char
  | .namespace => n
  | .service => s
  | .fixed text => text

/-- The text of a matcher. -/
def LabelMatcher.write (m : LabelMatcher) : List Char :=
  m.label ++ m.operator ++ '"' :: m.value.write n s ++ ['"']

/-- The text of a selector. -/
def writeSelector (matchers : List (List Char)) : List Char :=
  '{' :: [','].intercalate matchers ++ ['}']

/-- The text of a query about a namespace and a service over a range. -/
def Query.write : Query → List Char
  | .finish text => text
  | .selector lead matchers rest =>
    lead ++ writeSelector (matchers.map (LabelMatcher.write n s)) ++ rest.write
  | .window lead rest => lead ++ '[' :: range ++ ']' :: rest.write

/-- The text with its matchers in the order of their texts. -/
def Query.writeSorted : Query → List Char
  | .finish text => text
  | .selector lead matchers rest =>
    lead ++ writeSelector ((matchers.map (LabelMatcher.write n s)).insertionSort (· ≤ ·)) ++
      rest.writeSorted
  | .window lead rest => lead ++ '[' :: range ++ ']' :: rest.writeSorted

end

/-- The query without the white space around its selectors. -/
def Query.squeeze : Query → Query
  | .finish text => .finish (text.filter fun c => !isSpace c)
  | .selector lead matchers rest =>
    .selector (lead.filter fun c => !isSpace c) matchers rest.squeeze
  | .window lead rest => .window (lead.filter fun c => !isSpace c) rest.squeeze

/-- The same query with another order of the matchers within its selectors. -/
inductive Reordered : Query → Query → Prop
  | finish (text : List Char) : Reordered (.finish text) (.finish text)
  | selector (lead : List Char) {matchers matchers' : List LabelMatcher} {rest rest' : Query} :
    matchers.Perm matchers' → Reordered rest rest' →
      Reordered (.selector lead matchers rest) (.selector lead matchers' rest')
  | window (lead : List Char) {rest rest' : Query} :
    Reordered rest rest' → Reordered (.window lead rest) (.window lead rest')

/-! ## Matchers and selectors as texts -/

/-- A text that is one matcher. -/
def IsMatcher (text : List Char) : Prop := matcher.pattern.matchAt text = some (text, [])

theorem IsMatcher.matchAt {text : List Char} (h : IsMatcher text) (rest : List Char) :
    matcher.pattern.matchAt (text ++ rest) = some (text, rest) := Machine.pattern_stable h rest

/-- What the pattern finds are matchers. -/
theorem isMatcher_of_mem_findAll {text part : List Char} (h : part ∈ matcher.pattern.findAll text) :
    IsMatcher part := by
  induction text using matcher.pattern.pieces_induction with
  | nil => cases h
  | found text found rest hmatch ih =>
    rw [Pattern.findAll_found hmatch] at h
    rcases List.mem_cons.1 h with rfl | h
    · have hself := Machine.pattern_stable hmatch []
      rwa [List.append_nil] at hself
    · exact ih h
  | skipped c text hmatch ih =>
    rw [Pattern.findAll_skipped hmatch] at h
    exact ih h

variable {parts : List (List Char)} {c : Char} {content lead : List Char}

/-- The matchers between commas are found. -/
theorem findAll_intercalate (h : ∀ part ∈ parts, IsMatcher part) :
    matcher.pattern.findAll ([','].intercalate parts) = parts := by
  have hcomma (text : List Char) : matcher.pattern.matchAt (',' :: text) = none :=
    Machine.matchAt_not_start rfl
  induction parts with
  | nil => rfl
  | cons part parts ih =>
    have ih := ih fun p hp => h p (List.mem_cons_of_mem _ hp)
    have hpart := h part (List.mem_cons_self ..)
    cases parts with
    | nil =>
      rw [List.intercalate_singleton]
      rw [Pattern.findAll_found hpart, Pattern.findAll_nil]
    | cons next parts =>
      rw [List.intercalate_cons_cons, List.append_assoc, Pattern.findAll_found (hpart.matchAt _),
        List.singleton_append, Pattern.findAll_skipped (hcomma _), ih]

/-- Where a matcher is, seen from the selector around it. -/
def Matching.grouping : Matching → Grouping
  | .name | .equals | .bang | .operator => .plain
  | .quoted => .quoted
  | .escaped => .escaped

theorem group_move_plain (h : c ≠ '"' ∧ c ≠ '{' ∧ c ≠ '}') :
    group.move .plain c = .next .plain := by
  simp only [group, if_neg h.1, if_neg h.2.1, if_neg h.2.2]

theorem nameRest_ne (h : nameRest c = true) : c ≠ '"' ∧ c ≠ '{' ∧ c ≠ '}' := by
  refine ⟨?_, ?_, ?_⟩ <;> rintro rfl <;> exact absurd h (by decide)

theorem nameRest_of_nameStart (h : nameStart c = true) : nameRest c = true := by
  simp only [nameStart, nameRest, Char.isAlphanum, Bool.or_eq_true] at h ⊢
  exact h.imp_left Or.inl

/-- Between braces, a matcher is read through. -/
theorem IsMatcher.path {text : List Char} (h : IsMatcher text) :
    group.path .plain text = some .plain := by
  obtain ⟨c, s, text', found', rfl, heq, hstart, hread⟩ := Machine.matchAt_eq_some h
  obtain ⟨-, rfl⟩ := List.cons.inj heq
  have hname : nameStart c = true ∧ s = .name := by
    simp only [matcher] at hstart
    split at hstart
    · next hc => exact ⟨hc, (Option.some.inj hstart).symm⟩
    · cases hstart
  obtain ⟨hc, rfl⟩ := hname
  rw [Machine.path_next (group_move_plain (nameRest_ne (nameRest_of_nameStart hc)))]
  refine Machine.path_of_simulation Matching.grouping (t := .plain) ?_ ?_ hread
  · intro s a s' hmove
    cases s with
    | name =>
      simp only [matcher] at hmove
      split_ifs at hmove with hrest heq hbang
      · obtain rfl := Move.next.inj hmove
        exact group_move_plain (nameRest_ne hrest)
      · obtain rfl := Move.next.inj hmove
        exact group_move_plain (by rw [heq]; decide)
      · obtain rfl := Move.next.inj hmove
        exact group_move_plain (by rw [hbang]; decide)
    | equals =>
      simp only [matcher] at hmove
      split_ifs at hmove with htilde hquote
      · obtain rfl := Move.next.inj hmove
        exact group_move_plain (by rw [htilde]; decide)
      · obtain rfl := Move.next.inj hmove
        rw [hquote]
        rfl
    | bang =>
      simp only [matcher] at hmove
      split_ifs at hmove with hop
      obtain rfl := Move.next.inj hmove
      rcases hop with rfl | rfl <;> rfl
    | operator =>
      simp only [matcher] at hmove
      split_ifs at hmove with hquote
      obtain rfl := Move.next.inj hmove
      rw [hquote]
      rfl
    | quoted =>
      simp only [matcher] at hmove
      split_ifs at hmove with hquote hescape
      · obtain rfl := Move.next.inj hmove
        simp only [group, Matching.grouping, if_neg hquote, if_pos hescape]
      · obtain rfl := Move.next.inj hmove
        simp only [group, Matching.grouping, if_neg hquote, if_neg hescape]
    | escaped =>
      simp only [matcher] at hmove
      split_ifs at hmove with hline
      obtain rfl := Move.next.inj hmove
      simp only [group, Matching.grouping, if_neg hline]
  · intro s a hmove
    cases s <;> simp only [matcher] at hmove <;> split_ifs at hmove with hquote
    rw [hquote]
    rfl

theorem path_intercalate (h : ∀ part ∈ parts, IsMatcher part) :
    group.path .plain ([','].intercalate parts) = some .plain := by
  induction parts with
  | nil => rfl
  | cons part parts ih =>
    have ih := ih fun p hp => h p (List.mem_cons_of_mem _ hp)
    have hpart := (h part (List.mem_cons_self ..)).path
    cases parts with
    | nil => rw [List.intercalate_singleton, hpart]
    | cons next parts =>
      rw [List.intercalate_cons_cons, List.append_assoc, Machine.path_append hpart,
        List.singleton_append, Machine.path_next (group_move_plain (by decide)), ih]

/-- A selector is matched as a whole, whatever follows it. -/
theorem group_matchAt (h : group.path .plain content = some .plain) (rest : List Char) :
    group.pattern.matchAt ('{' :: content ++ '}' :: rest) =
      some ('{' :: content ++ ['}'], rest) := by
  rw [List.cons_append, Machine.matchAt_start rfl, Machine.read_path h rfl]
  rfl

/-- What is matched as a selector. -/
theorem group_matchAt_eq_some {text found rest : List Char}
    (h : group.pattern.matchAt text = some (found, rest)) :
    ∃ content, found = '{' :: content ++ ['}'] ∧ group.path .plain content = some .plain := by
  obtain ⟨c, s, text', found', rfl, rfl, hstart, hread⟩ := Machine.matchAt_eq_some h
  obtain ⟨content, a, s', rfl, hpath, hstop⟩ := Machine.path_of_read hread
  have hopen : c = '{' ∧ s = .plain := by
    simp only [group] at hstart
    split at hstart
    · next hc => exact ⟨hc, (Option.some.inj hstart).symm⟩
    · cases hstart
  obtain ⟨rfl, rfl⟩ := hopen
  have hclose : s' = .plain ∧ a = '}' := by
    cases s' <;> simp only [group] at hstop <;> split_ifs at hstop with ha
    exact ⟨rfl, ha⟩
  obtain ⟨rfl, rfl⟩ := hclose
  exact ⟨content, rfl, hpath⟩

/-- The matchers of a selector are sorted. -/
theorem sortMatchers_writeSelector (h : ∀ part ∈ parts, IsMatcher part) :
    sortMatchers (writeSelector parts) = writeSelector (parts.insertionSort (· ≤ ·)) := by
  have hcontent : (writeSelector parts).tail.dropLast = [','].intercalate parts := by
    rw [writeSelector, List.cons_append, List.tail_cons, List.dropLast_concat]
  simp only [sortMatchers, hcontent, findAll_intercalate h, ne_eq, not_true_eq_false, if_false]
  rfl

/-- A selector stays one, with the same braces. -/
theorem sortMatchers_selector (h : group.path .plain content = some .plain) :
    ∃ content', sortMatchers ('{' :: content ++ ['}']) = '{' :: content' ++ ['}'] ∧
      group.path .plain content' = some .plain := by
  have hcontent : ('{' :: content ++ ['}']).tail.dropLast = content := by
    rw [List.cons_append, List.tail_cons, List.dropLast_concat]
  by_cases hparts : [','].intercalate (matcher.pattern.findAll content) = content
  · have hsorted : ∀ part ∈ (matcher.pattern.findAll content).insertionSort (· ≤ ·),
        IsMatcher part := fun part hpart =>
      isMatcher_of_mem_findAll ((List.mem_insertionSort _).1 hpart)
    refine ⟨_, ?_, path_intercalate hsorted⟩
    simp only [sortMatchers, hcontent, hparts, ne_eq, not_true_eq_false, if_false]
  · refine ⟨content, ?_, h⟩
    simp only [sortMatchers, hcontent, ne_eq, hparts, not_false_eq_true, if_true]

/-! ## Undoing a normal form -/

/-- A text before the first brace is the same before and after. -/
theorem eq_append_of_sub {text front back : List Char} (hfront : '{' ∉ front)
    (h : group.pattern.sub sortMatchers text = front ++ back) :
    ∃ text', text = front ++ text' ∧ group.pattern.sub sortMatchers text' = back := by
  induction front generalizing text with
  | nil => exact ⟨text, rfl, h⟩
  | cons a front ih =>
    rw [List.mem_cons, not_or] at hfront
    cases text with
    | nil => cases h
    | cons c text =>
      cases hmatch : group.pattern.matchAt (c :: text) with
      | none =>
        rw [Pattern.sub_skipped hmatch, List.cons_append] at h
        obtain ⟨rfl, htail⟩ := List.cons.inj h
        obtain ⟨text', rfl, hsub⟩ := ih hfront.2 htail
        exact ⟨text', rfl, hsub⟩
      | some match_ =>
        obtain ⟨content, hfound, hpath⟩ := group_matchAt_eq_some hmatch
        obtain ⟨content', hsort, -⟩ := sortMatchers_selector hpath
        rw [Pattern.sub_found hmatch, hfound, hsort, List.cons_append, List.cons_append] at h
        exact absurd (List.cons.inj h).1 hfront.1

/-- A selector comes from one with the same braces. -/
theorem eq_selector_of_sub {text content back : List Char} (hcontent : '{' ∉ content)
    (hpath : group.path .plain content = some .plain)
    (h : group.pattern.sub sortMatchers text = '{' :: content ++ '}' :: back) :
    ∃ content' text', text = '{' :: content' ++ '}' :: text' ∧
      sortMatchers ('{' :: content' ++ ['}']) = '{' :: content ++ ['}'] ∧
      group.pattern.sub sortMatchers text' = back := by
  cases text with
  | nil => cases h
  | cons c text =>
    cases hmatch : group.pattern.matchAt (c :: text) with
    | none =>
      -- the brace is that of a selector, so it cannot have been passed over
      rw [Pattern.sub_skipped hmatch, List.cons_append] at h
      obtain ⟨rfl, htail⟩ := List.cons.inj h
      have hclosed : '{' ∉ content ++ ['}'] := by
        simpa using hcontent
      rw [List.append_cons] at htail
      obtain ⟨text', rfl, -⟩ := eq_append_of_sub hclosed htail
      rw [List.append_assoc, List.singleton_append, ← List.cons_append,
        group_matchAt hpath] at hmatch
      cases hmatch
    | some match_ =>
      obtain ⟨content', hfound, hpath'⟩ := group_matchAt_eq_some hmatch
      obtain ⟨sorted, hsort, hsorted⟩ := sortMatchers_selector hpath'
      have htext := group.pattern.splits hmatch
      rw [Pattern.sub_found hmatch, hfound, hsort] at h
      have hsame := congrArg group.pattern.matchAt h
      rw [List.append_assoc, List.singleton_append, group_matchAt hsorted, group_matchAt hpath]
        at hsame
      obtain ⟨heq, hback⟩ := Prod.mk.inj (Option.some.inj hsame)
      refine ⟨content', match_.2, ?_, by rw [hsort, heq], hback⟩
      rw [htext, hfound, List.append_assoc]
      rfl

/-! ## The texts of queries -/

/-- A text that loses nothing with the white space. -/
def Kept (text : List Char) : Prop := ∀ rest, compact (text ++ rest) = text ++ compact rest

theorem Kept.append {front back : List Char} (hfront : Kept front) (hback : Kept back) :
    Kept (front ++ back) := by
  intro rest
  rw [List.append_assoc, hfront, hback, List.append_assoc]

theorem kept_of_plain {text : List Char} (h : ∀ c ∈ text, isPlain c = true) : Kept text := by
  intro rest
  induction text with
  | nil => rfl
  | cons c text ih =>
    rw [List.cons_append, compact_plain (h c (List.mem_cons_self ..)),
      ih fun d hd => h d (List.mem_cons_of_mem _ hd), List.cons_append]

theorem kept_singleton (h : isPlain c = true) : Kept [c] :=
  kept_of_plain fun _ hd => (List.mem_singleton.1 hd).symm ▸ h

theorem kept_intercalate (h : ∀ part ∈ parts, Kept part) :
    Kept ([','].intercalate parts) := by
  induction parts with
  | nil => exact fun _ => rfl
  | cons part parts ih =>
    have ih := ih fun p hp => h p (List.mem_cons_of_mem _ hp)
    have hpart := h part (List.mem_cons_self ..)
    cases parts with
    | nil =>
      rw [List.intercalate_singleton]
      exact hpart
    | cons next parts =>
      rw [List.intercalate_cons_cons]
      exact (hpart.append (kept_singleton (by decide))).append ih

theorem nameRest_bounds (h : nameRest c = true) : 48 ≤ c.toNat ∧ c.toNat ≤ 122 := by
  simp only [nameRest, Char.isAlphanum, Char.isAlpha, Char.isUpper, Char.isLower, Char.isDigit,
    Bool.or_eq_true, Bool.and_eq_true, decide_eq_true_eq, beq_iff_eq, UInt32.le_iff_toNat_le,
    Char.reduceVal, UInt32.reduceToNat] at h
  rcases h with ((h | h) | h) | rfl
  · exact ⟨le_trans (by omega) h.1, le_trans h.2 (by omega)⟩
  · exact ⟨le_trans (by omega) h.1, h.2⟩
  · exact ⟨h.1, le_trans h.2 (by omega)⟩
  · decide

theorem isPlain_of_nameRest (h : nameRest c = true) : isPlain c = true := by
  obtain ⟨hlow, hhigh⟩ := nameRest_bounds h
  have hspace : isSpace c = false := by
    simp only [isSpace, Bool.or_eq_false_iff, Bool.and_eq_false_iff, decide_eq_false_iff_not,
      beq_eq_false_iff_ne]
    omega
  simp [isPlain, hspace, (nameRest_ne h).1]

theorem isInert_ne (h : isInert c = true) :
    c ≠ '"' ∧ c ≠ '\\' ∧ c ≠ '{' ∧ c ≠ '}' ∧ c ≠ '[' ∧ c ≠ '\n' := by
  simpa [isInert] using h

/-- A quotation of inert characters. -/
theorem kept_quoted {text : List Char} (h : text.all isInert = true) :
    Kept ('"' :: text ++ ['"']) := by
  intro rest
  have hinner : quotation.path .open text = some .open :=
    Machine.path_of_forall fun d hd => by
      obtain ⟨hquote, hescape, -⟩ := isInert_ne (List.all_eq_true.1 h d hd)
      simp only [quotation, if_neg hquote, if_neg hescape]
  have hmatch : quotation.pattern.matchAt ('"' :: (text ++ '"' :: rest)) =
      some ('"' :: (text ++ ['"']), rest) := by
    rw [Machine.matchAt_start rfl, Machine.read_path hinner rfl]
    rfl
  rw [List.append_assoc, List.cons_append, List.singleton_append, compact_quotation hmatch]
  rfl

theorem brace_notMem_lead (h : lead.all isLead = true) : '{' ∉ lead := by
  intro hmem
  exact absurd (List.all_eq_true.1 h _ hmem) (by decide)

theorem group_matchAt_of_ne {c : Char} (h : c ≠ '{') (text : List Char) :
    group.pattern.matchAt (c :: text) = none :=
  Machine.matchAt_not_start (by simp only [group, if_neg h])

theorem sub_lead (h : lead.all isLead = true) (text : List Char) :
    group.pattern.sub sortMatchers (lead ++ text) =
      lead ++ group.pattern.sub sortMatchers text :=
  Pattern.sub_append fun _ hc => group_matchAt_of_ne fun heq => brace_notMem_lead h (heq ▸ hc)

theorem notMem_intercalate {sep : Char} (hsep : c ≠ sep) (h : ∀ part ∈ parts, c ∉ part) :
    c ∉ [sep].intercalate parts := by
  induction parts with
  | nil => exact List.not_mem_nil
  | cons part parts ih =>
    have ih := ih fun p hp => h p (List.mem_cons_of_mem _ hp)
    have hpart := h part (List.mem_cons_self ..)
    cases parts with
    | nil =>
      rw [List.intercalate_singleton]
      exact hpart
    | cons next parts =>
      rw [List.intercalate_cons_cons]
      simp [hpart, hsep, ih]

/-- Nothing but the empty text becomes empty. -/
theorem eq_nil_of_sub {text : List Char} (h : group.pattern.sub sortMatchers text = []) :
    text = [] := by
  cases text with
  | nil => rfl
  | cons c text =>
    cases hmatch : group.pattern.matchAt (c :: text) with
    | none =>
      rw [Pattern.sub_skipped hmatch] at h
      cases h
    | some match_ =>
      obtain ⟨content, hfound, hpath⟩ := group_matchAt_eq_some hmatch
      obtain ⟨content', hsort, -⟩ := sortMatchers_selector hpath
      rw [Pattern.sub_found hmatch, hfound, hsort] at h
      cases h

theorem insertionSort_eq_of_perm {parts' : List (List Char)} (h : parts.Perm parts') :
    parts.insertionSort (· ≤ ·) = parts'.insertionSort (· ≤ ·) :=
  (((List.perm_insertionSort _ _).trans h).trans
    (List.perm_insertionSort _ _).symm).eq_of_pairwise'
      (List.pairwise_insertionSort _ _) (List.pairwise_insertionSort _ _)

/-- What is sorted into the matchers of a selector are its matchers in some order. -/
theorem exists_perm_of_sortMatchers {n s : List Char} {matchers : List LabelMatcher}
    (hparts : ∀ part ∈ matchers.map (LabelMatcher.write n s), IsMatcher part)
    (h : sortMatchers ('{' :: content ++ ['}']) = '{' :: [','].intercalate
      ((matchers.map (LabelMatcher.write n s)).insertionSort (· ≤ ·)) ++ ['}']) :
    ∃ matchers', matchers.Perm matchers' ∧
      content = [','].intercalate (matchers'.map (LabelMatcher.write n s)) := by
  have hfind : matcher.pattern.findAll ([','].intercalate
      ((matchers.map (LabelMatcher.write n s)).insertionSort (· ≤ ·))) =
        (matchers.map (LabelMatcher.write n s)).insertionSort (· ≤ ·) :=
    findAll_intercalate fun part hpart => hparts part ((List.mem_insertionSort _).1 hpart)
  have hcontent : ('{' :: content ++ ['}']).tail.dropLast = content := by
    rw [List.cons_append, List.tail_cons, List.dropLast_concat]
  by_cases hlist : [','].intercalate (matcher.pattern.findAll content) = content
  · simp only [sortMatchers, hcontent, hlist, ne_eq, not_true_eq_false, if_false] at h
    have hsame := congrArg matcher.pattern.findAll (List.cons.inj (List.append_cancel_right h)).2
    rw [hfind, findAll_intercalate fun part hpart =>
      isMatcher_of_mem_findAll ((List.mem_insertionSort _).1 hpart)] at hsame
    have hperm : (matcher.pattern.findAll content).Perm
        (matchers.map (LabelMatcher.write n s)) :=
      ((List.perm_insertionSort (· ≤ ·) _).symm.trans (hsame ▸ List.Perm.refl _)).trans
        (List.perm_insertionSort (· ≤ ·) _)
    obtain ⟨matchers', hmap, hperm'⟩ : ∃ matchers' : List LabelMatcher, matcher.pattern.findAll content =
        matchers'.map (LabelMatcher.write n s) ∧ matchers'.Perm matchers := by
      have := congrFun (congrFun (List.eq_map_comp_perm (LabelMatcher.write n s))
        (matcher.pattern.findAll content)) matchers
      exact this.mpr hperm
    exact ⟨matchers', hperm'.symm, by rw [← hmap, hlist]⟩
  · simp only [sortMatchers, hcontent, ne_eq, hlist, not_false_eq_true, if_true] at h
    have hsame := (List.cons.inj (List.append_cancel_right h)).2
    exact absurd (by rw [hsame, hfind]) hlist

theorem Query.wellFormed_squeeze {q : Query} (h : q.wellFormed = true) :
    q.squeeze.wellFormed = true := by
  have hfilter {lead : List Char} (hlead : lead.all isLead = true) :
      (lead.filter fun c => !isSpace c).all isLead = true :=
    List.all_eq_true.2 fun c hc => List.all_eq_true.1 hlead c (List.mem_filter.1 hc).1
  induction q with
  | finish text => exact hfilter h
  | selector lead matchers rest ih =>
    rw [wellFormed, Bool.and_eq_true, Bool.and_eq_true] at h
    rw [squeeze, wellFormed, hfilter h.1.1, h.1.2, ih h.2]
    rfl
  | window lead rest ih =>
    rw [wellFormed, Bool.and_eq_true] at h
    rw [squeeze, wellFormed, hfilter h.1, ih h.2]
    rfl

namespace Reordered

variable {q q' : Query}

theorem refl (q : Query) : Reordered q q := by
  induction q with
  | finish text => exact .finish text
  | selector lead matchers rest ih => exact .selector lead (.refl _) ih
  | window lead rest ih => exact .window lead ih

theorem wellFormed (h : Reordered q q') (hq : q.wellFormed = true) : q'.wellFormed = true := by
  induction h with
  | finish text => exact hq
  | selector lead hperm _ ih =>
    rw [Query.wellFormed, Bool.and_eq_true, Bool.and_eq_true] at hq
    rw [Query.wellFormed, hq.1.1, ih hq.2, ← hperm.all_eq, hq.1.2]
    rfl
  | window lead _ ih =>
    rw [Query.wellFormed, Bool.and_eq_true] at hq
    rw [Query.wellFormed, hq.1, ih hq.2]
    rfl

theorem squeeze (h : Reordered q q') : Reordered q.squeeze q'.squeeze := by
  induction h with
  | finish text => exact .finish _
  | selector lead hperm _ ih => exact .selector _ hperm ih
  | window lead _ ih => exact .window _ ih

theorem writeSorted_eq (h : Reordered q q') (n s range : List Char) :
    q.writeSorted n s range = q'.writeSorted n s range := by
  induction h with
  | finish text => rfl
  | selector lead hperm _ ih =>
    rw [Query.writeSorted, Query.writeSorted, ih, insertionSort_eq_of_perm (hperm.map _)]
  | window lead _ ih => rw [Query.writeSorted, Query.writeSorted, ih]

end Reordered

/-- An order of the matchers of a query without white space is one of the query. -/
theorem exists_squeeze {q squeezed : Query} (h : Reordered q.squeeze squeezed) :
    ∃ q', Reordered q q' ∧ q'.squeeze = squeezed := by
  induction q generalizing squeezed with
  | finish text =>
    cases h
    exact ⟨_, .finish text, rfl⟩
  | selector lead matchers rest ih =>
    cases h with
    | selector _ hperm hrest =>
      obtain ⟨rest', hrest', rfl⟩ := ih hrest
      exact ⟨_, .selector lead hperm hrest', rfl⟩
  | window lead rest ih =>
    cases h with
    | window _ hrest =>
      obtain ⟨rest', hrest', rfl⟩ := ih hrest
      exact ⟨_, .window lead hrest', rfl⟩

section

variable {n s range : List Char} (hn : n.all isInert = true) (hs : s.all isInert = true)
include hn hs

theorem write_inert {value : MatcherValue} (h : value.wellFormed = true) :
    (value.write n s).all isInert = true := by
  cases value with
  | «namespace» => exact hn
  | service => exact hs
  | fixed text => exact h

variable {m : LabelMatcher}

/-- A well-formed matcher is one as a text. -/
theorem isMatcher_write (h : m.wellFormed = true) : IsMatcher (m.write n s) := by
  rw [LabelMatcher.wellFormed, Bool.and_eq_true, Bool.and_eq_true, Bool.and_eq_true] at h
  obtain ⟨⟨⟨hstart, hlabel⟩, hop⟩, hvalue⟩ := h
  obtain ⟨c, label, hcons⟩ : ∃ c label, m.label = c :: label := by
    cases hm : m.label with
    | nil => rw [hm] at hstart; cases hstart
    | cons c label => exact ⟨c, label, rfl⟩
  rw [hcons, List.head?_cons, Option.any_some] at hstart
  rw [hcons, List.all_cons, Bool.and_eq_true, List.all_eq_true] at hlabel
  have hname : matcher.path .name label = some .name :=
    Machine.path_of_forall fun d hd => by simp only [matcher, hlabel.2 d hd, if_true]
  have hoperator : matcher.path .name (m.operator ++ ['"']) = some .quoted := by
    simp only [List.mem_cons, List.not_mem_nil, or_false, decide_eq_true_eq] at hop
    rcases hop with hop | hop | hop | hop <;> rw [hop] <;> rfl
  have hinner : matcher.path .quoted (m.value.write n s) = some .quoted :=
    Machine.path_of_forall fun d hd => by
      obtain ⟨hquote, hescape, -⟩ := isInert_ne (List.all_eq_true.1 (write_inert hn hs hvalue) d hd)
      simp only [matcher, if_neg hquote, if_neg hescape]
  have hpath : matcher.path .name (label ++ (m.operator ++ ['"'] ++ m.value.write n s)) =
      some .quoted := by
    rw [Machine.path_append hname, Machine.path_append hoperator, hinner]
  have hread : matcher.read .name
      (label ++ (m.operator ++ ['"'] ++ m.value.write n s) ++ ['"']) = some (_, []) :=
    Machine.read_path hpath rfl
  have hwrite : m.write n s =
      c :: (label ++ (m.operator ++ ['"'] ++ m.value.write n s) ++ ['"']) := by
    simp [LabelMatcher.write, hcons]
  have hmatch : matcher.start c = some .name := by
    simp only [matcher, hstart, if_true]
  rw [IsMatcher, hwrite, Machine.matchAt_start hmatch, hread]
  rfl

theorem kept_write (h : m.wellFormed = true) : Kept (m.write n s) := by
  have hvalue := h
  rw [LabelMatcher.wellFormed, Bool.and_eq_true, Bool.and_eq_true, Bool.and_eq_true] at hvalue
  obtain ⟨⟨⟨-, hlabel⟩, hop⟩, hvalue⟩ := hvalue
  have hname : Kept m.label :=
    kept_of_plain fun c hc => isPlain_of_nameRest (List.all_eq_true.1 hlabel c hc)
  have hoperator : Kept m.operator := by
    simp only [List.mem_cons, List.not_mem_nil, or_false, decide_eq_true_eq] at hop
    refine kept_of_plain fun c hc => ?_
    have hall : m.operator.all isPlain = true := by
      rcases hop with hop | hop | hop | hop <;> rw [hop] <;> decide
    exact List.all_eq_true.1 hall c hc
  rw [LabelMatcher.write, List.append_assoc]
  exact (hname.append hoperator).append (kept_quoted (write_inert hn hs hvalue))

/-- A character that is in no part of a matcher. -/
theorem notMem_write (hname : nameRest c = false) (hinert : isInert c = false)
    (hout : c ∉ ['=', '!', '~', '"']) (h : m.wellFormed = true) :
    c ∉ m.write n s := by
  rw [LabelMatcher.wellFormed, Bool.and_eq_true, Bool.and_eq_true, Bool.and_eq_true] at h
  obtain ⟨⟨⟨-, hlabel⟩, hop⟩, hvalue⟩ := h
  have hlabel' : c ∉ m.label := fun hmem => by
    rw [List.all_eq_true.1 hlabel _ hmem] at hname
    cases hname
  have hoperator : c ∉ m.operator := by
    simp only [List.mem_cons, List.not_mem_nil, or_false, not_or] at hout
    simp only [List.mem_cons, List.not_mem_nil, or_false, decide_eq_true_eq] at hop
    rcases hop with hop | hop | hop | hop <;> rw [hop] <;> simp [hout]
  have hinner : c ∉ m.value.write n s := fun hmem => by
    rw [List.all_eq_true.1 (write_inert hn hs hvalue) _ hmem] at hinert
    cases hinert
  have hquote : c ≠ '"' := fun heq => hout (by simp [heq])
  simp [LabelMatcher.write, hlabel', hoperator, hinner, hquote]

/-- Without white space, a query is the query without it around its selectors. -/
theorem compact_write (hrange : range.all isPlain = true) {q : Query} (h : q.wellFormed = true) :
    compact (q.write n s range) = q.squeeze.write n s range := by
  have hlead {lead : List Char} (hall : lead.all isLead = true) : ∀ c ∈ lead, c ≠ '"' := by
    intro c hc
    have := List.all_eq_true.1 hall c hc
    simp only [isLead, List.mem_cons, not_or, decide_eq_true_eq] at this
    exact this.1
  induction q with
  | finish text =>
    have htext : compact (text ++ []) = _ := compact_append (hlead h)
    rw [List.append_nil] at htext
    rw [Query.write, htext, Query.squeeze, Query.write]
    exact List.append_nil _
  | selector lead matchers rest ih =>
    rw [Query.wellFormed, Bool.and_eq_true, Bool.and_eq_true] at h
    have hparts : ∀ part ∈ matchers.map (LabelMatcher.write n s), Kept part := by
      intro part hpart
      obtain ⟨m, hm, rfl⟩ := List.mem_map.1 hpart
      exact kept_write hn hs (List.all_eq_true.1 h.1.2 m hm)
    have hselector : Kept (writeSelector (matchers.map (LabelMatcher.write n s))) :=
      ((kept_singleton (by decide)).append (kept_intercalate hparts)).append
        (kept_singleton (by decide))
    rw [Query.write, List.append_assoc, compact_append (hlead h.1.1),
      hselector, ih h.2, Query.squeeze, Query.write, List.append_assoc]
  | window lead rest ih =>
    rw [Query.wellFormed, Bool.and_eq_true] at h
    have hkept : Kept ('[' :: range ++ [']']) :=
      ((kept_singleton (by decide)).append (kept_of_plain (List.all_eq_true.1 hrange))).append
        (kept_singleton (by decide))
    have hassoc (back : List Char) :
        lead ++ '[' :: range ++ ']' :: back = lead ++ (('[' :: range ++ [']']) ++ back) := by
      simp
    rw [Query.write, hassoc, compact_append (hlead h.1), hkept, ih h.2, Query.squeeze, Query.write]
    simp

/-- The normal form of a query without white space. -/
theorem sub_write (hrange : '{' ∉ range) {q : Query} (h : q.wellFormed = true) :
    group.pattern.sub sortMatchers (q.write n s range) = q.writeSorted n s range := by
  induction q with
  | finish text =>
    have htext := sub_lead h []
    rwa [List.append_nil, Pattern.sub_nil, List.append_nil] at htext
  | selector lead matchers rest ih =>
    rw [Query.wellFormed, Bool.and_eq_true, Bool.and_eq_true] at h
    have hparts : ∀ part ∈ matchers.map (LabelMatcher.write n s), IsMatcher part := by
      intro part hpart
      obtain ⟨m, hm, rfl⟩ := List.mem_map.1 hpart
      exact isMatcher_write hn hs (List.all_eq_true.1 h.1.2 m hm)
    have hmatch := group_matchAt (path_intercalate hparts) (rest.write n s range)
    rw [List.append_cons] at hmatch
    rw [Query.write, List.append_assoc, sub_lead h.1.1, writeSelector, Pattern.sub_found hmatch,
      ih h.2, ← writeSelector, sortMatchers_writeSelector hparts, Query.writeSorted,
      List.append_assoc]
  | window lead rest ih =>
    rw [Query.wellFormed, Bool.and_eq_true] at h
    have hopen : ∀ c ∈ '[' :: range ++ [']'], ∀ text : List Char,
        group.pattern.matchAt (c :: text) = none := by
      intro c hc text
      refine group_matchAt_of_ne (fun heq => ?_) text
      subst heq
      simp [hrange] at hc
    have hassoc (back : List Char) :
        lead ++ '[' :: range ++ ']' :: back = lead ++ (('[' :: range ++ [']']) ++ back) := by
      simp
    rw [Query.write, hassoc, sub_lead h.1, Pattern.sub_append hopen, ih h.2, Query.writeSorted,
      hassoc]

/-- A text whose normal form is that of a query is the query, in another order. -/
theorem exists_reordered (hrange : '{' ∉ range) {q : Query} (h : q.wellFormed = true)
    {text : List Char}
    (hsub : group.pattern.sub sortMatchers text = q.writeSorted n s range) :
    ∃ q', Reordered q q' ∧ text = q'.write n s range := by
  induction q generalizing text with
  | finish tail =>
    rw [Query.writeSorted, ← List.append_nil tail] at hsub
    obtain ⟨text', rfl, hnil⟩ := eq_append_of_sub (brace_notMem_lead h) hsub
    obtain rfl := eq_nil_of_sub hnil
    exact ⟨_, .finish tail, by rw [Query.write, List.append_nil]⟩
  | selector lead matchers rest ih =>
    rw [Query.wellFormed, Bool.and_eq_true, Bool.and_eq_true] at h
    have hparts : ∀ part ∈ matchers.map (LabelMatcher.write n s), IsMatcher part := by
      intro part hpart
      obtain ⟨m, hm, rfl⟩ := List.mem_map.1 hpart
      exact isMatcher_write hn hs (List.all_eq_true.1 h.1.2 m hm)
    have hsorted : ∀ part ∈ (matchers.map (LabelMatcher.write n s)).insertionSort (· ≤ ·),
        part ∈ matchers.map (LabelMatcher.write n s) :=
      fun part hpart => (List.mem_insertionSort _).1 hpart
    have hbrace : '{' ∉ [','].intercalate
        ((matchers.map (LabelMatcher.write n s)).insertionSort (· ≤ ·)) := by
      refine notMem_intercalate (by decide) fun part hpart => ?_
      obtain ⟨m, hm, rfl⟩ := List.mem_map.1 (hsorted part hpart)
      exact notMem_write hn hs (by decide) (by decide) (by decide)
        (List.all_eq_true.1 h.1.2 m hm)
    rw [Query.writeSorted, List.append_assoc] at hsub
    obtain ⟨back, rfl, hback⟩ := eq_append_of_sub (brace_notMem_lead h.1.1) hsub
    rw [writeSelector, List.append_assoc, List.singleton_append] at hback
    obtain ⟨content, tail, rfl, hsort, htail⟩ := eq_selector_of_sub hbrace
      (path_intercalate fun part hpart => hparts part (hsorted part hpart)) hback
    obtain ⟨rest', hrest, rfl⟩ := ih h.2 htail
    obtain ⟨matchers', hperm, rfl⟩ := exists_perm_of_sortMatchers hparts hsort
    refine ⟨.selector lead matchers' rest', .selector lead hperm hrest, ?_⟩
    rw [Query.write, writeSelector]
    simp
  | window lead rest ih =>
    rw [Query.wellFormed, Bool.and_eq_true] at h
    have hfront : '{' ∉ lead ++ ('[' :: range ++ [']']) := by
      simp [brace_notMem_lead h.1, hrange]
    have hassoc (back : List Char) :
        lead ++ '[' :: range ++ ']' :: back = lead ++ ('[' :: range ++ [']']) ++ back := by
      simp
    rw [Query.writeSorted, hassoc] at hsub
    obtain ⟨back, rfl, hback⟩ := eq_append_of_sub hfront hsub
    obtain ⟨rest', hrest, rfl⟩ := ih h.2 hback
    exact ⟨.window lead rest', .window lead hrest, by rw [Query.write, hassoc]⟩

/-- **A text has the normal form of a query exactly if it is the query with some order of its
matchers, up to white space outside quotations.** -/
theorem normalizeQuery_eq_iff (hplain : range.all isPlain = true) (hrange : '{' ∉ range)
    {q : Query} (h : q.wellFormed = true) (text : List Char) :
    normalizeQuery text = normalizeQuery (q.write n s range) ↔
      ∃ q', Reordered q q' ∧ compact text = compact (q'.write n s range) := by
  have hnormal {q' : Query} (hwf : q'.wellFormed = true) :
      normalizeQuery (q'.write n s range) = q'.squeeze.writeSorted n s range := by
    rw [normalizeQuery, compact_write hn hs hplain hwf,
      sub_write hn hs hrange (Query.wellFormed_squeeze hwf)]
  rw [hnormal h]
  constructor
  · intro htext
    obtain ⟨squeezed, hreordered, hcompact⟩ :=
      exists_reordered hn hs hrange (Query.wellFormed_squeeze h) htext
    obtain ⟨q', hq', rfl⟩ := exists_squeeze hreordered
    exact ⟨q', hq', by rw [hcompact, compact_write hn hs hplain (hq'.wellFormed h)]⟩
  · rintro ⟨q', hq', hcompact⟩
    rw [normalizeQuery, hcompact, ← normalizeQuery, hnormal (hq'.wellFormed h)]
    exact (hq'.squeeze.writeSorted_eq n s range).symm

end

end OpsPilot.Observer
