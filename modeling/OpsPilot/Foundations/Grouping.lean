import Mathlib.Data.List.Induction
import Mathlib.Data.List.Nodup
import Mathlib.Data.List.Perm.Basic

/-!
# Groups of a list

A loop that puts each item into the group of its key, making the group when the key is new, in the
order in which the keys come.

* `Grouping.groups`: the groups of a list, each with its key.
* **`lookup_groups`**: the group of a key has taken the items of the key, in their order.
* `groups_congr`: groups that agree key by key are the same but for their order.
-/

namespace OpsPilot

universe u v w x

/-- How items are grouped: by what key, what a new group is, and how a group takes an item. -/
structure Grouping (α : Type u) (κ : Type v) (γ : Type w) where
  key : α → κ
  new : κ → γ
  push : γ → α → γ

namespace Grouping

variable {α : Type u} {κ : Type v} {γ : Type w} {β : Type x} [DecidableEq κ] (G : Grouping α κ γ)

/-- The groups after one more item. -/
def add : List (κ × γ) → α → List (κ × γ)
  | [], a => [(G.key a, G.push (G.new (G.key a)) a)]
  | (k, group) :: groups, a =>
    if k = G.key a then (k, G.push group a) :: groups else (k, group) :: add groups a

/-- The groups of a list. -/
def groups (items : List α) : List (κ × γ) := items.foldl G.add []

variable {G}

/-! ## One key -/

theorem groups_concat (items : List α) (a : α) :
    G.groups (items ++ [a]) = G.add (G.groups items) a := by
  rw [groups, List.foldl_append]
  rfl

theorem keys_add (groups : List (κ × γ)) (a : α) : (G.add groups a).map Prod.fst =
    if G.key a ∈ groups.map Prod.fst then groups.map Prod.fst
    else groups.map Prod.fst ++ [G.key a] := by
  induction groups with
  | nil => simp [add]
  | cons head groups ih =>
    by_cases hk : head.1 = G.key a
    · simp [add, hk]
    · rw [add, if_neg hk, List.map_cons, ih]
      by_cases hmem : G.key a ∈ groups.map Prod.fst
      · rw [if_pos hmem, List.map_cons, if_pos (List.mem_cons_of_mem _ hmem)]
      · rw [if_neg hmem, List.map_cons,
          if_neg fun h => (List.mem_cons.1 h).elim (fun h => hk h.symm) hmem, List.cons_append]

/-- Each key has one group. -/
theorem nodup_groups (items : List α) : ((G.groups items).map Prod.fst).Nodup := by
  induction items using List.reverseRecOn with
  | nil => exact List.nodup_nil
  | append_singleton items a ih =>
    rw [groups_concat, keys_add]
    by_cases hmem : G.key a ∈ (G.groups items).map Prod.fst
    · rwa [if_pos hmem]
    · rw [if_neg hmem]
      exact List.nodup_append.2 ⟨ih, List.nodup_singleton _, fun k hk l hl heq =>
        hmem (List.mem_singleton.1 hl ▸ heq ▸ hk)⟩

theorem mem_keys_groups {items : List α} {k : κ} :
    k ∈ (G.groups items).map Prod.fst ↔ k ∈ items.map G.key := by
  induction items using List.reverseRecOn with
  | nil => exact Iff.rfl
  | append_singleton items a ih =>
    rw [groups_concat, keys_add, List.map_append, List.mem_append, ← ih]
    by_cases hmem : G.key a ∈ (G.groups items).map Prod.fst
    · rw [if_pos hmem]
      refine ⟨.inl, ?_⟩
      rintro (h | h)
      · exact h
      · exact List.mem_singleton.1 h ▸ hmem
    · rw [if_neg hmem, List.mem_append]
      rfl

theorem lookup_add (groups : List (κ × γ)) (a : α) (k : κ) : (G.add groups a).lookup k =
    if k = G.key a then some (G.push ((groups.lookup k).getD (G.new k)) a)
    else groups.lookup k := by
  induction groups with
  | nil =>
    rw [add, List.lookup_cons]
    by_cases hk : k = G.key a
    · simp [hk]
    · simp [hk, beq_eq_false_iff_ne.2 hk]
  | cons head groups ih =>
    rw [add]
    by_cases hhead : head.1 = G.key a
    · rw [if_pos hhead, List.lookup_cons, List.lookup_cons, hhead]
      by_cases hk : k = G.key a
      · simp [hk]
      · simp [hk, beq_eq_false_iff_ne.2 hk]
    · rw [if_neg hhead, List.lookup_cons, List.lookup_cons, ih]
      by_cases hk : k = head.1
      · simp [hk, hhead]
      · simp [beq_eq_false_iff_ne.2 hk]

/-- **The group of a key has taken the items of the key.** -/
theorem lookup_groups (items : List α) (k : κ) : (G.groups items).lookup k =
    if k ∈ items.map G.key then
      some ((items.filter fun a => G.key a = k).foldl G.push (G.new k))
    else none := by
  induction items using List.reverseRecOn with
  | nil => rfl
  | append_singleton items a ih =>
    rw [groups_concat, lookup_add, ih, List.map_append, List.filter_append, List.foldl_append]
    by_cases hk : k = G.key a
    · have hmem : k ∈ items.map G.key ++ [a].map G.key := by simp [hk]
      have hlast : [a].filter (fun a => G.key a = k) = [a] := by simp [hk]
      rw [if_pos hk, if_pos hmem, hlast]
      by_cases hitems : k ∈ items.map G.key
      · rw [if_pos hitems]
        rfl
      · have hnone : items.filter (fun a => G.key a = k) = [] := by
          rw [List.filter_eq_nil_iff]
          exact fun b hb heq => hitems (List.mem_map.2 ⟨b, hb, of_decide_eq_true heq⟩)
        rw [if_neg hitems, hnone]
        rfl
    · have hlast : [a].filter (fun a => G.key a = k) = [] := by simp [Ne.symm hk]
      rw [if_neg hk, hlast]
      by_cases hitems : k ∈ items.map G.key
      · rw [if_pos hitems, if_pos (List.mem_append_left _ hitems)]
        rfl
      · have hboth : k ∉ items.map G.key ++ [a].map G.key := by
          simp only [List.map_cons, List.map_nil, List.mem_append, List.mem_singleton]
          exact not_or.2 ⟨hitems, hk⟩
        rw [if_neg hitems, if_neg hboth]

/-- Lists with one entry for each key that agree key by key are the same but for their order. -/
theorem perm_of_lookup_eq {groups groups' : List (κ × γ)} (h : (groups.map Prod.fst).Nodup)
    (h' : (groups'.map Prod.fst).Nodup) (heq : ∀ k, groups.lookup k = groups'.lookup k) :
    groups.Perm groups' := by
  have hmem : ∀ {entries : List (κ × γ)}, (entries.map Prod.fst).Nodup → ∀ entry : κ × γ,
      entry ∈ entries ↔ entries.lookup entry.1 = some entry.2 := by
    intro entries hnodup entry
    rw [List.lookup_eq_some_iff]
    constructor
    · intro hentry
      obtain ⟨front, back, rfl⟩ := List.append_of_mem hentry
      refine ⟨front, back, rfl, fun other hother => ?_⟩
      rw [List.map_append, List.nodup_append] at hnodup
      have hne := hnodup.2.2 _ (List.mem_map_of_mem hother) entry.1 (by simp)
      exact bne_iff_ne.2 hne.symm
    · rintro ⟨front, back, rfl, -⟩
      simp
  refine (List.perm_ext_iff_of_nodup (List.Nodup.of_map _ h) (List.Nodup.of_map _ h')).2 ?_
  exact fun entry => by rw [hmem h, hmem h', heq]

/-- Groups whose keys take the same. -/
theorem groups_congr {items items' : List α} (hkeys : ∀ k, k ∈ items.map G.key ↔ k ∈ items'.map G.key)
    (h : ∀ k, (items.filter fun a => G.key a = k).foldl G.push (G.new k) =
      (items'.filter fun a => G.key a = k).foldl G.push (G.new k)) :
    (G.groups items).Perm (G.groups items') :=
  perm_of_lookup_eq (nodup_groups items) (nodup_groups items') fun k => by
    rw [lookup_groups, lookup_groups, h k]
    simp only [hkeys k]

end Grouping

end OpsPilot
