import Mathlib.Order.Defs.LinearOrder
import Mathlib.Data.List.Sort
import Mathlib.Data.Prod.Lex

/-!
# The last of a ranking

A scan that keeps the better of two rows, and a sort by a key, agree on which row comes last.

* **`foldl_best_greatest`**: the row a scan keeps has the greatest key.
* `mem_take_of_least`: the row with the least key is among the first of a sort.
* `getLast?_of_greatest`: the row with the greatest key is the last of a sorted list.
* `exists_mem_take_of_few`, `exists_sorted_of_many`: when the first rows of a sorted list have a row
  of a kind.
-/

namespace OpsPilot

universe u v

variable {α : Type u} {κ : Type v} [LinearOrder κ] {key : α → κ}

/-- **The row a scan keeps has the greatest key** of the rows it saw. -/
theorem foldl_best_greatest {better : α → α → Bool}
    (hbetter : ∀ a b, better a b = true ↔ key b < key a) (l : List α) (b : Option α) {x : α}
    (h : l.foldl (fun best e => if best.all (better e) then some e else best) b = some x) :
    (∀ y ∈ l, key y ≤ key x) ∧ ∀ y ∈ b, key y ≤ key x := by
  induction l generalizing b with
  | nil =>
    refine ⟨fun y hy => (by cases hy), fun y hy => ?_⟩
    obtain rfl := Option.some.inj (hy.symm.trans h)
    exact le_rfl
  | cons e l ih =>
    obtain ⟨hrest, hbest⟩ := ih _ h
    -- the row kept after `e` is at least `e` and at least the one kept before
    have hkept : key e ≤ key x ∧ ∀ y ∈ b, key y ≤ key x := by
      cases b with
      | none => exact ⟨hbest e rfl, fun y hy => by cases hy⟩
      | some y =>
        simp only [Option.all_some] at hbest
        by_cases hlt : better e y = true
        · rw [if_pos hlt] at hbest
          have he := hbest e rfl
          refine ⟨he, fun z hz => ?_⟩
          obtain rfl := Option.some.inj hz
          exact ((hbetter e y).1 hlt).le.trans he
        · rw [if_neg hlt] at hbest
          have hy := hbest y rfl
          refine ⟨(not_lt.1 fun hlt' => hlt ((hbetter e y).2 hlt')).trans hy, fun z hz => ?_⟩
          obtain rfl := Option.some.inj hz
          exact hy
    refine ⟨fun y hy => ?_, hkept.2⟩
    rcases List.mem_cons.1 hy with rfl | hl
    · exact hkept.1
    · exact hrest y hl

variable (key) in
/-- The only row with the greatest key is the last of a sorted list. -/
theorem getLast?_of_greatest {l : List α} (hsorted : l.Pairwise fun a b => key a ≤ key b) {x : α}
    (hmem : x ∈ l) (hgreatest : ∀ y ∈ l, key y ≤ key x)
    (honly : ∀ y ∈ l, key y = key x → y = x) : l.getLast? = some x := by
  obtain ⟨init, last, rfl⟩ :=
    (List.eq_nil_or_concat' l).resolve_left (List.ne_nil_of_mem hmem)
  rw [List.getLast?_append, List.getLast?_singleton, Option.some_or, Option.some.injEq]
  have hlast : last ∈ init ++ [last] := by simp
  rcases List.mem_append.1 hmem with hinit | hx
  · have hle := (List.pairwise_append.1 hsorted).2.2 x hinit last List.mem_cons_self
    exact honly last hlast (le_antisymm (hgreatest last hlast) hle)
  · exact (List.mem_singleton.1 hx).symm

/-- A list sorted by a key. -/
theorem pairwise_mergeSort_key (key : α → κ) (l : List α) :
    (l.mergeSort fun a b => decide (key a ≤ key b)).Pairwise fun a b => key a ≤ key b := by
  have h : (l.mergeSort fun a b => decide (key a ≤ key b)).Pairwise fun a b =>
      decide (key a ≤ key b) = true := by
    refine List.pairwise_mergeSort (fun a b c hab hbc => ?_) (fun a b => by simp [le_total]) l
    simp only [decide_eq_true_eq] at hab hbc ⊢
    exact hab.trans hbc
  exact h.imp fun hab => by simpa using hab

variable (key) in
/-- The row with the least key comes first. -/
theorem mem_take_of_least {l : List α} {x : α} (hmem : x ∈ l)
    (hleast : ∀ y ∈ l, y ≠ x → key x < key y) (n : ℕ) :
    x ∈ (l.mergeSort fun a b => decide (key a ≤ key b)).take (n + 1) := by
  have hsorted := pairwise_mergeSort_key key l
  have hx : x ∈ l.mergeSort fun a b => decide (key a ≤ key b) := List.mem_mergeSort.2 hmem
  have hsub : ∀ y ∈ l.mergeSort fun a b => decide (key a ≤ key b), y ∈ l :=
    fun y hy => List.mem_mergeSort.1 hy
  generalize (l.mergeSort fun a b => decide (key a ≤ key b)) = sorted at hsorted hx hsub
  cases sorted with
  | nil => cases hx
  | cons a rest =>
    rcases List.mem_cons.1 hx with rfl | hrest
    · exact List.mem_cons_self
    · have hle := (List.pairwise_cons.1 hsorted).1 x hrest
      by_cases hne : a = x
      · rw [hne]
        exact List.mem_cons_self
      · exact absurd hle (hleast a (hsub a List.mem_cons_self) hne).not_ge

/-- The first `n` rows of a sorted list have a row with `p` if fewer than `n` rows without it come
no later than one with it. -/
theorem exists_mem_take_of_few {p : α → Prop} [DecidablePred p] {l : List α}
    (hsorted : l.Pairwise fun a b => key a ≤ key b) {x : α} (hmem : x ∈ l) (hx : p x) {n : ℕ}
    (hfew : (l.filter fun u => ¬ p u ∧ key u ≤ key x).length < n) : ∃ y ∈ l.take n, p y := by
  by_contra hnone
  simp only [not_exists, not_and] at hnone
  rw [← List.take_append_drop n l] at hmem hsorted
  have hdrop : x ∈ l.drop n :=
    (List.mem_append.1 hmem).resolve_left fun htake => hnone x htake hx
  have hbefore := (List.pairwise_append.1 hsorted).2.2
  have hall : (l.take n).filter (fun u => ¬ p u ∧ key u ≤ key x) = l.take n := by
    rw [List.filter_eq_self]
    exact fun u hu => decide_eq_true ⟨hnone u hu, hbefore u hu x hdrop⟩
  have hlength : n < l.length := by
    have hpos := List.length_pos_of_mem hdrop
    rw [List.length_drop] at hpos
    omega
  have hle := ((List.take_sublist n l).filter fun u => ¬ p u ∧ key u ≤ key x).length_le
  rw [hall, List.length_take] at hle
  omega

/-- Some sorted order has a row with `p` among its first `n` only where fewer than `n` rows without
it come no later. -/
theorem exists_sorted_of_many (key : α → κ) (p : α → Prop) [DecidablePred p] (l : List α) (n : ℕ) :
    ∃ l' : List α, l'.Perm l ∧ (l'.Pairwise fun a b => key a ≤ key b) ∧
      ∀ x ∈ l'.take n, p x → (l.filter fun u => ¬ p u ∧ key u ≤ key x).length < n := by
  -- among equal keys, the rows without `p` come first
  let late : α → κ ×ₗ ℕ := fun a => toLex (key a, if p a then 1 else 0)
  have hperm := List.mergeSort_perm l fun a b => decide (late a ≤ late b)
  have hsorted := pairwise_mergeSort_key late l
  refine ⟨_, hperm, hsorted.imp fun hab => ?_, fun x hx hpx => ?_⟩
  · rcases (Prod.Lex.le_iff ..).1 hab with hlt | ⟨heq, -⟩
    · exact hlt.le
    · exact heq.le
  · set l' := l.mergeSort fun a b => decide (late a ≤ late b)
    rw [← (hperm.filter _).length_eq, ← List.take_append_drop n l', List.filter_append]
    rw [← List.take_append_drop n l'] at hsorted
    have hbefore := (List.pairwise_append.1 hsorted).2.2 x hx
    have hdrop : (l'.drop n).filter (fun u => ¬ p u ∧ key u ≤ key x) = [] := by
      rw [List.filter_eq_nil_iff]
      intro u hu hq
      obtain ⟨hpu, hle⟩ := of_decide_eq_true hq
      have hxu := (Prod.Lex.le_iff ..).1 (hbefore u hu)
      simp only [late, ofLex_toLex, if_pos hpx, if_neg hpu] at hxu
      rcases hxu with hlt | ⟨-, hone⟩
      · exact absurd hlt (not_lt.2 hle)
      · exact absurd hone (by omega)
    rw [hdrop, List.append_nil]
    refine lt_of_lt_of_le ?_ (List.length_take_le n l')
    exact List.length_filter_lt_length_iff_exists.2 ⟨x, hx, by simp [hpx]⟩
end OpsPilot
