import Mathlib.Data.List.Sort
import Mathlib.Order.Lattice.Nat

/-!
# Numbered rows

Rows that carry the numbers one, two, three and so on in the order they are listed. The next number
is one more than the greatest, the rows after a number are what is left when that many are dropped,
and the rows are sorted by their numbers.
-/

namespace OpsPilot

universe u

variable {α : Type u} {number : α → ℕ} {rows : List α} {a : α}

/-- The rows are numbered from one, in order. -/
def Numbered (number : α → ℕ) (rows : List α) : Prop :=
  rows.map number = List.range' 1 rows.length

namespace Numbered

theorem nil : Numbered number [] := rfl

/-- A row with the next number is added at the end. -/
theorem concat (h : Numbered number rows) (ha : number a = rows.length + 1) :
    Numbered number (rows ++ [a]) := by
  rw [Numbered, List.map_append, List.map_singleton, h, ha, List.length_append,
    List.length_singleton, List.range'_concat, Nat.one_mul, Nat.add_comm 1]

/-- The first of them are numbered. -/
theorem of_append {rows' : List α} (h : Numbered number (rows ++ rows')) :
    Numbered number rows := by
  have hmap : rows.map number = ((rows ++ rows').map number).take rows.length := by
    rw [List.map_append, List.take_left' (List.length_map _)]
  rw [Numbered, hmap, h, List.take_range'_of_length_ge]
  rw [List.length_append]
  exact Nat.le_add_right _ _

/-- The numbers of the rows before one are below its number. -/
theorem pairwise (h : Numbered number rows) : rows.Pairwise fun a b => number a < number b := by
  have hsorted : (rows.map number).Pairwise (· < ·) := by
    rw [h]
    exact List.pairwise_lt_range'
  exact List.pairwise_map.1 hsorted

/-- The numbers are those from one to the number of rows. -/
theorem mem_iff (h : Numbered number rows) {n : ℕ} :
    n ∈ rows.map number ↔ 1 ≤ n ∧ n ≤ rows.length := by
  rw [h, List.mem_range'_1]
  omega

/-- A number below that of a row is the number of a row. -/
theorem exists_of_lt (h : Numbered number rows) (ha : a ∈ rows) {n : ℕ} (hn : 1 ≤ n)
    (hlt : n < number a) : ∃ b ∈ rows, number b = n := by
  have hle : number a ≤ rows.length := (h.mem_iff.1 (List.mem_map_of_mem ha)).2
  have hmem : n ∈ rows.map number := h.mem_iff.2 ⟨hn, by omega⟩
  simpa using hmem

/-- One more than the greatest number. -/
theorem next (h : Numbered number rows) : (rows.map number).max?.getD 0 + 1 = rows.length + 1 := by
  rw [h]
  cases hlength : rows.length with
  | zero => rfl
  | succ n =>
    have hmax : (List.range' 1 (n + 1)).max? = some (n + 1) := by
      rw [List.max?_eq_some_iff]
      refine ⟨by simp [List.mem_range'_1], fun b hb => ?_⟩
      have := List.mem_range'_1.1 hb
      omega
    rw [hmax, Option.getD_some]

/-- The least number is one. -/
theorem eq_one_of_min (h : Numbered number rows) {n : ℕ} (hn : (rows.map number).min? = some n) :
    n = 1 := by
  have hmem := List.min?_eq_some_iff.1 hn
  have hpos := (h.mem_iff.1 hmem.1).1
  have hone := hmem.2 1 (h.mem_iff.2 ⟨le_rfl, by have := h.mem_iff.1 hmem.1; omega⟩)
  omega

private theorem filter_range {first : ℕ} (cursor : ℕ)
    (h : rows.map number = List.range' first rows.length) :
    rows.filter (fun a => cursor < number a) = rows.drop (cursor + 1 - first) := by
  induction rows generalizing first with
  | nil => simp
  | cons a rest ih =>
    rw [List.map_cons, List.length_cons, List.range'_succ, List.cons.injEq] at h
    have hrest := ih h.2
    by_cases hlt : cursor < number a
    · have hzero : cursor + 1 - first = 0 := by omega
      have hzero' : cursor + 1 - (first + 1) = 0 := by omega
      rw [List.filter_cons_of_pos (by simpa using hlt), hrest, hzero, hzero', List.drop_zero,
        List.drop_zero]
    · have hsucc : cursor + 1 - first = (cursor + 1 - (first + 1)) + 1 := by omega
      rw [List.filter_cons_of_neg (by simpa using hlt), hrest, hsucc, List.drop_succ_cons]

/-- The rows after a number. -/
theorem after (h : Numbered number rows) (cursor : ℕ) :
    rows.filter (fun a => cursor < number a) = rows.drop cursor := by
  rw [filter_range cursor h, Nat.add_sub_cancel]

/-- The rows are sorted by their numbers. -/
theorem sorted (h : Numbered number rows) (n : ℕ) :
    (rows.drop n).mergeSort (fun a b => number a ≤ number b) = rows.drop n := by
  refine List.mergeSort_of_pairwise ((h.pairwise.drop (i := n)).imp fun hlt => ?_)
  simpa using hlt.le

/-- The number of the last of the rows after one. -/
theorem last_after (h : Numbered number rows) {cursor limit : ℕ}
    (ha : a ∈ ((rows.drop cursor).take limit).getLast?) :
    number a = cursor + ((rows.drop cursor).take limit).length := by
  have hlength : ((rows.drop cursor).take limit).length = min limit (rows.length - cursor) := by
    rw [List.length_take, List.length_drop]
  have hmap : ((rows.drop cursor).take limit).map number =
      List.range' (1 + cursor) ((rows.drop cursor).take limit).length := by
    have hdrop : (rows.map number).drop cursor =
        List.range' (1 + cursor) (rows.length - cursor) := by
      rw [h, List.drop_range', Nat.mul_one]
    rw [List.map_take, List.map_drop, hdrop, hlength, List.take_eq_take_min, List.length_range',
      List.take_range'_of_length_ge (Nat.min_le_right _ _)]
  have hlast : number a ∈ (((rows.drop cursor).take limit).map number).getLast? := by
    rw [List.getLast?_map]
    exact Option.mem_map_of_mem _ ha
  rw [hmap, List.getLast?_range'] at hlast
  split at hlast
  · exact absurd hlast (Option.not_mem_none _)
  · have := Option.some.inj hlast
    omega

end Numbered

end OpsPilot
