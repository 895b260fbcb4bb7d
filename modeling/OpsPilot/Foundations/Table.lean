import Mathlib.Algebra.BigOperators.Group.List.Basic
import Mathlib.Data.List.AList
import Mathlib.Order.MinMax
import Mathlib.Tactic.Abel

/-!
# Keyed tables

A relational table with a primary key is an association list with distinct keys, Mathlib's
`AList`, at a constant row type. The statements a program runs against such a table are:

* `INSERT`: `Table.insert`, used where the key is new;
* `SELECT … WHERE key = k`: `Table.get`;
* `UPDATE … SET … WHERE …`: `Table.update`, which rewrites the row of every key;
* `UPDATE … WHERE key = k`: `Table.modify`, the same for one key;
* `DELETE … WHERE …`: `Table.deleteWhere`;
* aggregates over the rows a condition selects: `Table.select`.

Every statement has a lemma saying what a later `get` finds, so that nothing else has to
look at the list of rows (`get_insert`, `get_update`, `get_modify`, `get_deleteWhere`); the aggregates have a
lemma for each statement as well (`select_insert`, `select_update`; `sum_insert`, `sum_modify`
for the sum of a column, `foldr_max_eq_iff` for its maximum). `Frame` says what a list of statements leaves alone.
-/

namespace OpsPilot

/-- A table of rows `ρ` with primary key `κ`. -/
abbrev Table (κ ρ : Type*) := AList fun _ : κ => ρ

namespace Table

variable {κ ρ : Type*}

/-- Rewrite every row: `UPDATE … SET`, with the `WHERE` clause inside `f`. -/
def update (t : Table κ ρ) (f : κ → ρ → ρ) : Table κ ρ where
  entries := t.entries.map fun e => ⟨e.1, f e.1 e.2⟩
  nodupKeys := by
    have h : t.entries.keys.Nodup := t.nodupKeys
    simpa [List.NodupKeys, List.keys, List.map_map, Function.comp_def] using h

/-- `DELETE … WHERE`. -/
def deleteWhere (t : Table κ ρ) (p : κ → ρ → Bool) : Table κ ρ where
  entries := t.entries.filter fun e => !p e.1 e.2
  nodupKeys := by
    have hsub : (t.entries.filter fun e => !p e.1 e.2).Sublist t.entries := List.filter_sublist
    exact (hsub.map Sigma.fst).nodup t.nodupKeys

/-- The rows, newest first. -/
def rows (t : Table κ ρ) : List (κ × ρ) :=
  t.entries.map fun e => (e.1, e.2)

/-- The rows a `WHERE` clause selects. -/
def select (t : Table κ ρ) (p : κ → ρ → Bool) : List (κ × ρ) :=
  t.rows.filter fun e => p e.1 e.2

theorem rows_update (t : Table κ ρ) (f : κ → ρ → ρ) :
    (t.update f).rows = t.rows.map fun e => (e.1, f e.1 e.2) := by
  simp [rows, update, List.map_map, Function.comp_def]

theorem rows_deleteWhere (t : Table κ ρ) (p : κ → ρ → Bool) :
    (t.deleteWhere p).rows = t.rows.filter fun e => !p e.1 e.2 := by
  simp [rows, deleteWhere, List.filter_map, Function.comp_def]

variable [DecidableEq κ]

/-- The row of a key, if there is one. -/
def get (t : Table κ ρ) (k : κ) : Option ρ := AList.lookup k t

/-- Add a row under a new key. -/
def insert (t : Table κ ρ) (k : κ) (row : ρ) : Table κ ρ := AList.insert k row t

/-- Rewrite the row of one key. -/
def modify (t : Table κ ρ) (k : κ) (f : ρ → ρ) : Table κ ρ :=
  t.update fun k' row => if k' = k then f row else row

/-! ## What a lookup finds -/

@[simp] theorem get_empty (k : κ) : (∅ : Table κ ρ).get k = none := AList.lookup_empty k

theorem mem_rows_iff {t : Table κ ρ} {k : κ} {row : ρ} :
    (k, row) ∈ t.rows ↔ t.get k = some row := by
  rw [get, ← Option.mem_def, AList.mem_lookup_iff]
  simp only [rows, List.mem_map]
  constructor
  · rintro ⟨⟨k', row'⟩, hmem, heq⟩
    cases heq
    exact hmem
  · exact fun hmem => ⟨⟨k, row⟩, hmem, rfl⟩

theorem get_update (t : Table κ ρ) (f : κ → ρ → ρ) (k : κ) :
    (t.update f).get k = (t.get k).map (f k) := by
  ext row
  rw [← mem_rows_iff, rows_update]
  simp only [List.mem_map, Option.map_eq_some_iff, ← mem_rows_iff]
  constructor
  · rintro ⟨⟨k', row'⟩, hmem, heq⟩
    cases heq
    exact ⟨row', hmem, rfl⟩
  · rintro ⟨row', hmem, rfl⟩
    exact ⟨(k, row'), hmem, rfl⟩

theorem get_modify (t : Table κ ρ) (k k' : κ) (f : ρ → ρ) :
    (t.modify k f).get k' = if k' = k then (t.get k').map f else t.get k' := by
  rw [modify, get_update]
  split <;> simp

@[simp] theorem get_modify_self (t : Table κ ρ) (k : κ) (f : ρ → ρ) :
    (t.modify k f).get k = (t.get k).map f := by
  simp [get_modify]

theorem get_modify_ne (t : Table κ ρ) {k k' : κ} (f : ρ → ρ) (h : k' ≠ k) :
    (t.modify k f).get k' = t.get k' := by
  simp [get_modify, h]

/-- A row after a rewrite is the rewritten one, or another one as it was. -/
theorem get_modify_eq_some {t : Table κ ρ} {k k' : κ} {f : ρ → ρ} {row row' : ρ}
    (h : t.get k = some row) :
    (t.modify k f).get k' = some row' ↔ k' = k ∧ row' = f row ∨ k' ≠ k ∧ t.get k' = some row' := by
  rw [get_modify]
  split
  · next heq => simp [heq, h, eq_comm]
  · next hne => simp [hne]

/-- Two rewrites of one row are one. -/
theorem modify_modify (t : Table κ ρ) (k : κ) (f g : ρ → ρ) :
    (t.modify k f).modify k g = t.modify k fun row => g (f row) := by
  refine AList.ext ?_
  simp only [modify, update, List.map_map]
  refine List.map_congr_left fun e _ => ?_
  by_cases h : e.1 = k <;> simp [h]

/-- A rewrite that leaves the row as it is leaves the table as it is. -/
theorem modify_eq_self {t : Table κ ρ} {k : κ} {f : ρ → ρ}
    (h : ∀ row, t.get k = some row → f row = row) : t.modify k f = t := by
  refine AList.ext ?_
  simp only [modify, update]
  refine (List.map_congr_left fun e he => ?_).trans (List.map_id _)
  split
  · next hk =>
    have hget : t.get k = some e.2 := by
      rw [← hk, get, ← Option.mem_def, AList.mem_lookup_iff]
      exact he
    rw [h e.2 hget]
    rfl
  · rfl

theorem get_deleteWhere {t : Table κ ρ} {p : κ → ρ → Bool} {k : κ} {row : ρ} :
    (t.deleteWhere p).get k = some row ↔ t.get k = some row ∧ p k row = false := by
  simp [← mem_rows_iff, rows_deleteWhere]

theorem get_insert (t : Table κ ρ) (k k' : κ) (row : ρ) :
    (t.insert k row).get k' = if k' = k then some row else t.get k' := by
  split
  · next h => rw [h]; exact AList.lookup_insert t
  · next h => exact AList.lookup_insert_ne h

@[simp] theorem get_insert_self (t : Table κ ρ) (k : κ) (row : ρ) :
    (t.insert k row).get k = some row := by
  simp [get_insert]

theorem get_insert_ne (t : Table κ ρ) {k k' : κ} (row : ρ) (h : k' ≠ k) :
    (t.insert k row).get k' = t.get k' := by
  simp [get_insert, h]

/-- A row after an insertion is the new one, or one of the others. -/
theorem get_insert_eq_some {t : Table κ ρ} {k k' : κ} {row row' : ρ} :
    (t.insert k row).get k' = some row' ↔ k' = k ∧ row' = row ∨ k' ≠ k ∧ t.get k' = some row' := by
  rw [get_insert]
  split
  · next heq => simp [heq, eq_comm]
  · next hne => simp [hne]

/-- An insertion under a new key keeps every row. -/
theorem get_insert_of_get {t : Table κ ρ} {k k' : κ} {row' : ρ} (row : ρ) (hnew : t.get k = none)
    (h : t.get k' = some row') : (t.insert k row).get k' = some row' := by
  have hne : k' ≠ k := by
    rintro rfl
    rw [hnew] at h
    cases h
  rw [get_insert_ne _ _ hne, h]

/-! ## What an aggregate ranges over -/

theorem mem_select_iff {t : Table κ ρ} {p : κ → ρ → Bool} {k : κ} {row : ρ} :
    (k, row) ∈ t.select p ↔ t.get k = some row ∧ p k row = true := by
  simp [select, mem_rows_iff]

theorem rows_insert {t : Table κ ρ} {k : κ} (row : ρ) (h : t.get k = none) :
    (t.insert k row).rows = (k, row) :: t.rows := by
  rw [rows, insert, AList.entries_insert_of_notMem (AList.lookup_eq_none.1 h)]
  rfl

theorem select_insert {t : Table κ ρ} {k : κ} (row : ρ) (h : t.get k = none)
    (p : κ → ρ → Bool) :
    (t.insert k row).select p =
      if p k row then (k, row) :: t.select p else t.select p := by
  rw [select, rows_insert row h, List.filter_cons]
  rfl

/-- Updating rows without moving any in or out of a selection updates the selected rows. -/
theorem select_update {t : Table κ ρ} {f : κ → ρ → ρ} {p : κ → ρ → Bool}
    (h : ∀ k row, t.get k = some row → p k (f k row) = p k row) :
    (t.update f).select p = (t.select p).map fun e => (e.1, f e.1 e.2) := by
  rw [select, rows_update, List.filter_map, select]
  congr 1
  refine List.filter_congr fun e he => ?_
  exact h e.1 e.2 (mem_rows_iff.1 he)

/-! ## What a statement leaves alone -/

/-- `new` keeps every row of `old` as far as `R` says, and each row it adds satisfies `N`. -/
structure Frame (R : ρ → ρ → Prop) (N : ρ → Prop) (old new : Table κ ρ) : Prop where
  kept : ∀ {k row}, old.get k = some row → ∃ row', new.get k = some row' ∧ R row row'
  added : ∀ {k row'}, new.get k = some row' → old.get k = none → N row'

namespace Frame

variable {R : ρ → ρ → Prop} {N : ρ → Prop} {old middle new : Table κ ρ}

theorem refl (hR : ∀ row, R row row) (t : Table κ ρ) : Frame R N t t where
  kept h := ⟨_, h, hR _⟩
  added h hnone := by
    rw [hnone] at h
    cases h

theorem trans (hR : ∀ {a b c}, R a b → R b c → R a c) (hN : ∀ {a b}, N a → R a b → N b)
    (h : Frame R N old middle) (h' : Frame R N middle new) : Frame R N old new where
  kept hrow := by
    obtain ⟨row', hrow', hr⟩ := h.kept hrow
    obtain ⟨row'', hrow'', hr'⟩ := h'.kept hrow'
    exact ⟨row'', hrow'', hR hr hr'⟩
  added {k} row'' hrow'' hnone := by
    cases hmiddle : middle.get k with
    | none => exact h'.added hrow'' hmiddle
    | some row' =>
      obtain ⟨row, hrow, hr⟩ := h'.kept hmiddle
      obtain rfl := Option.some.inj (hrow.symm.trans hrow'')
      exact hN (h.added hmiddle hnone) hr

theorem of_update {f : κ → ρ → ρ} (h : ∀ k row, R row (f k row)) (t : Table κ ρ) :
    Frame R N t (t.update f) where
  kept {k row} hrow := ⟨f k row, by rw [get_update, hrow, Option.map_some], h k row⟩
  added {k} row' hrow' hnone := by
    rw [get_update, hnone, Option.map_none] at hrow'
    cases hrow'

theorem of_modify {f : ρ → ρ} (hR : ∀ row, R row row) (h : ∀ row, R row (f row)) (t : Table κ ρ)
    (k : κ) : Frame R N t (t.modify k f) :=
  of_update (fun k' row => by split <;> first | exact h row | exact hR row) t

/-- Only the row of the key has to be kept. -/
theorem of_modify_row {f : ρ → ρ} (hR : ∀ row, R row row) {t : Table κ ρ} {k : κ}
    (h : ∀ row, t.get k = some row → R row (f row)) : Frame R N t (t.modify k f) where
  kept {k' row} hrow := by
    rw [get_modify]
    split
    · next hk => exact ⟨f row, by rw [hrow, Option.map_some], h row (hk ▸ hrow)⟩
    · exact ⟨row, hrow, hR row⟩
  added {k' row'} hrow' hnone := by
    rw [get_modify, hnone, Option.map_none, ite_self] at hrow'
    cases hrow'

theorem of_insert {t : Table κ ρ} {k : κ} {row : ρ} (hR : ∀ row, R row row)
    (hnone : t.get k = none) (hN : N row) : Frame R N t (t.insert k row) where
  kept {k' row'} hrow' := by
    have hne : k' ≠ k := by
      rintro rfl
      rw [hnone] at hrow'
      cases hrow'
    exact ⟨row', by rw [get_insert_ne _ _ hne, hrow'], hR row'⟩
  added {k'} row' hrow' hnone' := by
    rw [get_insert] at hrow'
    split at hrow'
    · cases hrow'
      exact hN
    · rw [hnone'] at hrow'
      cases hrow'

theorem mono {R' : ρ → ρ → Prop} {N' : ρ → Prop} (h : Frame R N old new)
    (hR : ∀ {a b}, R a b → R' a b) (hN : ∀ {a}, N a → N' a) : Frame R' N' old new where
  kept hrow := by
    obtain ⟨row', hrow', hr⟩ := h.kept hrow
    exact ⟨row', hrow', hR hr⟩
  added hrow' hnone := hN (h.added hrow' hnone)

/-- A row of the new table is one kept, or one added. -/
theorem cases (h : Frame R N old new) {k : κ} {row' : ρ} (hrow' : new.get k = some row') :
    (∃ row, old.get k = some row ∧ R row row') ∨ old.get k = none ∧ N row' := by
  cases hold : old.get k with
  | none => exact .inr ⟨rfl, h.added hrow' hold⟩
  | some row =>
    obtain ⟨row'', hrow'', hr⟩ := h.kept hold
    obtain rfl := Option.some.inj (hrow''.symm.trans hrow')
    exact .inl ⟨row, rfl, hr⟩

end Frame

/-! ## The maximum of a column -/

/-- `COALESCE(MAX(…),0)` over a list. -/
theorem foldr_max_eq_iff {l : List ℕ} {m : ℕ} :
    l.foldr max 0 = m ↔ (∀ x ∈ l, x ≤ m) ∧ (m = 0 ∨ m ∈ l) := by
  induction l generalizing m with
  | nil => simp [eq_comm]
  | cons x l ih =>
    obtain ⟨hle, hmem⟩ := ih.1 rfl
    simp only [List.foldr_cons, List.mem_cons, forall_eq_or_imp]
    constructor
    · rintro rfl
      refine ⟨⟨le_max_left _ _, fun y hy => (hle y hy).trans (le_max_right _ _)⟩, ?_⟩
      rcases max_choice x (l.foldr max 0) with h | h
      · exact .inr (.inl h)
      · rw [h]
        exact hmem.imp_right .inr
    · rintro ⟨⟨hx, hl⟩, hm⟩
      refine le_antisymm (max_le hx ?_) ?_
      · rcases hmem with h | h
        · omega
        · exact hl _ h
      · rcases hm with rfl | rfl | hm
        · exact Nat.zero_le _
        · exact le_max_left _ _
        · exact (hle m hm).trans (le_max_right _ _)

/-! ## Sums of a column -/

section Sum

variable {M : Type*} [AddCommGroup M]

/-- `SELECT COALESCE(SUM(w),0)`. -/
def sum (t : Table κ ρ) (w : κ → ρ → M) : M := (t.rows.map fun e => w e.1 e.2).sum

omit [DecidableEq κ] in
/-- The sum over a selection is the sum of a column that is zero elsewhere. -/
theorem sum_select (t : Table κ ρ) (p : κ → ρ → Bool) (w : κ → ρ → M) :
    ((t.select p).map fun e => w e.1 e.2).sum = t.sum fun k row => if p k row then w k row else 0 := by
  rw [sum, select]
  induction t.rows with
  | nil => rfl
  | cons e l ih =>
    rw [List.filter_cons, List.map_cons, List.sum_cons, ← ih]
    split <;> simp

theorem sum_insert {t : Table κ ρ} {k : κ} (row : ρ) (h : t.get k = none) (w : κ → ρ → M) :
    (t.insert k row).sum w = w k row + t.sum w := by
  simp [sum, rows_insert row h]

omit [DecidableEq κ] in
theorem keys_nodup (t : Table κ ρ) : (t.rows.map Prod.fst).Nodup := by
  have h : t.entries.keys.Nodup := t.nodupKeys
  simpa [rows, List.keys, List.map_map, Function.comp_def] using h

/-- Rewriting one row moves the sum by what the row's value changes. -/
theorem sum_modify {t : Table κ ρ} {k : κ} {row : ρ} (h : t.get k = some row) (f : ρ → ρ)
    (w : κ → ρ → M) : (t.modify k f).sum w = t.sum w + (w k (f row) - w k row) := by
  rw [sum, modify, rows_update, List.map_map, sum]
  have hmem := mem_rows_iff.2 h
  have hnodup := t.keys_nodup
  generalize t.rows = l at hmem hnodup
  induction l with
  | nil => cases hmem
  | cons e l ih =>
    rw [List.map_cons, List.nodup_cons] at hnodup
    simp only [List.map_cons, List.sum_cons, Function.comp_apply]
    rcases List.mem_cons.1 hmem with rfl | hmem
    · have hrest : ∀ e ∈ l, e.1 ≠ k := fun e he hk =>
        hnodup.1 (List.mem_map.2 ⟨e, he, hk⟩)
      have hsame : l.map ((fun e => w e.1 e.2) ∘ fun e => (e.1, if e.1 = k then f e.2 else e.2)) =
          l.map fun e => w e.1 e.2 :=
        List.map_congr_left fun e he => by simp [hrest e he]
      rw [hsame, if_pos rfl]
      abel
    · have hk : e.1 ≠ k := fun hk => hnodup.1 (List.mem_map.2 ⟨_, hmem, hk.symm⟩)
      rw [if_neg hk, ih hmem hnodup.2]
      abel

end Sum

end Table

end OpsPilot
