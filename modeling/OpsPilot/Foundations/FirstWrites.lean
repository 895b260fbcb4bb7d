import Mathlib.Data.List.Sort

/-!
# Lists of first writes

A list of keys and values in the order of the keys, each key once, is a list of `FirstWrites`. A
write `record`s a key that has no value yet and is passed over otherwise, so what such a list holds
is the first write of every key (`lookup_record`), and two such lists with the same values are the
same list (`FirstWrites.ext`).
-/

namespace OpsPilot

variable {κ β : Type*} [LinearOrder κ] {l l' : List (κ × β)} {w : κ × β} {k : κ} {v : β}

/-- The keys go up, so each of them comes once. -/
def FirstWrites (l : List (κ × β)) : Prop := l.Pairwise fun a b => a.1 < b.1

/-- Write a value under a key that has none. -/
def record (l : List (κ × β)) (w : κ × β) : List (κ × β) :=
  if l.any (·.1 = w.1) then l else (l ++ [w]).insertionSort fun a b => a.1 ≤ b.1

namespace FirstWrites

theorem nil : FirstWrites ([] : List (κ × β)) := List.Pairwise.nil

theorem keys_nodup (h : FirstWrites l) : (l.map Prod.fst).Nodup :=
  List.pairwise_map.2 (h.imp fun hlt => hlt.ne)

end FirstWrites

/-- A list whose keys are all different holds what it looks up. -/
theorem lookup_eq_some_iff_mem (h : (l.map Prod.fst).Nodup) :
    l.lookup k = some v ↔ (k, v) ∈ l := by
  induction l with
  | nil => simp
  | cons e l ih =>
    obtain ⟨k', v'⟩ := e
    rw [List.map_cons, List.nodup_cons] at h
    rw [List.lookup_cons, List.mem_cons]
    by_cases hk : k = k'
    · subst hk
      have hnot : (k, v) ∉ l := fun hmem => h.1 (List.mem_map.2 ⟨(k, v), hmem, rfl⟩)
      simp [hnot, eq_comm]
    · rw [beq_eq_false_iff_ne.2 hk, ih h.2]
      simp [hk]

/-- Nothing is found under a key that is not there. -/
theorem lookup_eq_none_iff_notMem : l.lookup k = none ↔ k ∉ l.map Prod.fst := by
  rw [List.lookup_eq_none_iff]
  simp only [bne_iff_ne, ne_eq, List.mem_map, Prod.exists, exists_and_right, exists_eq_right,
    not_exists, Prod.forall]
  exact ⟨fun h v hv => h k v hv rfl, fun h k' v' hmem heq => h v' (heq ▸ hmem)⟩

/-- The first writes of two lists are the same if they hold the same writes, and one value for each
key. -/
theorem lookup_congr (hmem : ∀ e, e ∈ l ↔ e ∈ l')
    (hone : ∀ e ∈ l, ∀ e' ∈ l, e.1 = e'.1 → e = e') (k : κ) : l.lookup k = l'.lookup k := by
  have hfound : ∀ {l : List (κ × β)} {v : β}, l.lookup k = some v → (k, v) ∈ l := by
    intro l v hv
    obtain ⟨front, back, rfl, -⟩ := List.lookup_eq_some_iff.1 hv
    simp
  have hkeys : k ∉ l.map Prod.fst ↔ k ∉ l'.map Prod.fst := by
    simp only [List.mem_map, hmem]
  cases hv : l.lookup k with
  | none => rw [eq_comm, lookup_eq_none_iff_notMem, ← hkeys, ← lookup_eq_none_iff_notMem, hv]
  | some v =>
    cases hv' : l'.lookup k with
    | none =>
      rw [lookup_eq_none_iff_notMem, ← hkeys, ← lookup_eq_none_iff_notMem, hv] at hv'
      cases hv'
    | some v' =>
      have heq := hone _ (hfound hv) _ ((hmem _).2 (hfound hv')) rfl
      rw [(Prod.mk.inj heq).2]

/-- Two lists of first writes with the same values are the same list. -/
theorem FirstWrites.ext (h : FirstWrites l) (h' : FirstWrites l')
    (hlookup : ∀ k, l.lookup k = l'.lookup k) : l = l' := by
  have hmem : ∀ e, e ∈ l ↔ e ∈ l' := by
    rintro ⟨k, v⟩
    rw [← lookup_eq_some_iff_mem h.keys_nodup, hlookup, lookup_eq_some_iff_mem h'.keys_nodup]
  have hperm : l.Perm l' :=
    (List.perm_ext_iff_of_nodup (List.Nodup.of_map _ h.keys_nodup)
      (List.Nodup.of_map _ h'.keys_nodup)).2 hmem
  refine List.Perm.eq_of_pairwise (fun a b ha hb hlt hgt => ?_) h h' hperm
  exact absurd hlt hgt.asymm

section

variable (l w)

theorem record_of_mem (h : w.1 ∈ l.map Prod.fst) : record l w = l := by
  obtain ⟨e, he, hkey⟩ := List.mem_map.1 h
  exact if_pos (List.any_eq_true.2 ⟨e, he, by simp [hkey]⟩)

theorem record_of_notMem (h : w.1 ∉ l.map Prod.fst) :
    record l w = (l ++ [w]).insertionSort fun a b => a.1 ≤ b.1 := by
  refine if_neg fun hany => h ?_
  obtain ⟨e, he, hkey⟩ := List.any_eq_true.1 hany
  exact List.mem_map.2 ⟨e, he, by simpa using hkey⟩

end

/-- The keys of a record: those of the list, and the one written. -/
theorem mem_keys_record : k ∈ (record l w).map Prod.fst ↔ k ∈ l.map Prod.fst ∨ k = w.1 := by
  by_cases hw : w.1 ∈ l.map Prod.fst
  · rw [record_of_mem l w hw]
    exact ⟨.inl, fun h => h.elim id fun h => h ▸ hw⟩
  · rw [record_of_notMem l w hw, ((List.perm_insertionSort _ _).map _).mem_iff]
    simp

/-- A write leaves a list of first writes. -/
theorem FirstWrites.record (h : FirstWrites l) : FirstWrites (record l w) := by
  by_cases hw : w.1 ∈ l.map Prod.fst
  · rw [record_of_mem l w hw]
    exact h
  rw [record_of_notMem l w hw]
  have hnodup : ((l ++ [w]).map Prod.fst).Nodup := by
    rw [List.map_append, List.nodup_append]
    refine ⟨h.keys_nodup, by simp, fun a ha b hb hab => hw ?_⟩
    obtain rfl : b = w.1 := by simpa using hb
    exact hab ▸ ha
  have hsorted : ((l ++ [w]).insertionSort fun a b => a.1 ≤ b.1).Pairwise fun a b => a.1 ≤ b.1 := by
    have : Std.Total fun a b : κ × β => a.1 ≤ b.1 := ⟨fun a b => le_total a.1 b.1⟩
    have : IsTrans (κ × β) fun a b => a.1 ≤ b.1 := ⟨fun _ _ _ => le_trans⟩
    exact List.pairwise_insertionSort _ _
  have hne : ((l ++ [w]).insertionSort fun a b => a.1 ≤ b.1).Pairwise fun a b => a.1 ≠ b.1 :=
    List.pairwise_map.1 (((List.perm_insertionSort _ _).map Prod.fst).nodup_iff.2 hnodup)
  exact hsorted.imp₂ (fun _ _ hle hne => lt_of_le_of_ne hle hne) hne

/-- **The first write of a key counts.** -/
theorem lookup_record (h : FirstWrites l) (k : κ) :
    (OpsPilot.record l w).lookup k = (l ++ [w]).lookup k := by
  by_cases hw : w.1 ∈ l.map Prod.fst
  · rw [record_of_mem l w hw, List.lookup_append]
    by_cases hk : k = w.1
    · subst hk
      obtain ⟨v, hv⟩ := Option.ne_none_iff_exists'.1 fun hnone =>
        lookup_eq_none_iff_notMem.1 hnone hw
      rw [hv, Option.some_or]
    · have hnone : [w].lookup k = none := by
        rw [lookup_eq_none_iff_notMem]
        simpa using hk
      rw [hnone, Option.or_none]
  · have hwrites : FirstWrites (OpsPilot.record l w) := h.record
    rw [List.lookup_append]
    refine Option.ext fun v => ?_
    rw [lookup_eq_some_iff_mem hwrites.keys_nodup, record_of_notMem l w hw,
      (List.perm_insertionSort _ _).mem_iff, List.mem_append, Option.or_eq_some_iff,
      lookup_eq_some_iff_mem h.keys_nodup, lookup_eq_some_iff_mem (by simp)]
    refine or_congr_right ⟨fun hmem => ⟨?_, hmem⟩, And.right⟩
    obtain rfl : (k, v) = w := by simpa using hmem
    exact lookup_eq_none_iff_notMem.2 hw

end OpsPilot
