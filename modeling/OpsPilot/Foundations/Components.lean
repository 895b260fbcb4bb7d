import Mathlib.Data.Finset.Card
import Mathlib.Data.List.Basic
import Mathlib.Logic.Function.Basic
import Mathlib.Logic.Relation
import Mathlib.Order.Lattice

/-!
# Connected components

A dictionary of pointers towards smaller keys, in which two trees are joined by pointing the larger
root at the smaller one: a union-find without ranks or path compression. Following the pointers ends
at the smallest key of a component.

* `Components.find`, `Components.union`, `Components.members`.
* `Components.find_union`: what a union does to the roots.
* **`Components.find_unionAll`**: the components of a list of pairs are the classes of the
  equivalence that the pairs generate.
-/

namespace OpsPilot

open Relation (EqvGen)

universe u

variable {α : Type u} [LinearOrder α]

/-- The keys in the order they were seen, each pointing at a key that is no larger. -/
structure Components (α : Type u) [LinearOrder α] where
  keys : List α
  parent : α → α
  parent_le : ∀ a, parent a ≤ a
  parent_mem : ∀ {a}, a ∈ keys → parent a ∈ keys
  parent_of_notMem : ∀ {a}, a ∉ keys → parent a = a

namespace Components

/-- No keys. -/
def empty : Components α where
  keys := []
  parent a := a
  parent_le _ := le_rfl
  parent_mem := id
  parent_of_notMem _ := rfl

/-- Follow the pointers, `n` of them at most. -/
def climb (parent : α → α) : ℕ → α → α
  | 0, a => a
  | n + 1, a => if parent a = a then a else climb parent n (parent a)

variable (s : Components α) {a b : α}

/-- The root of a key. -/
def find (a : α) : α := climb s.parent s.keys.length a

/-- A key that is not there yet is its own component. -/
def add (a : α) : Components α where
  keys := if a ∈ s.keys then s.keys else s.keys ++ [a]
  parent := s.parent
  parent_le := s.parent_le
  parent_mem {b} hb := by
    split at hb
    · next ha => rw [if_pos ha]; exact s.parent_mem hb
    · next ha =>
      rw [if_neg ha]
      rcases List.mem_append.1 hb with hb | hb
      · exact List.mem_append_left _ (s.parent_mem hb)
      · obtain rfl := List.mem_singleton.1 hb
        rw [s.parent_of_notMem ha]
        exact List.mem_append_right _ (List.mem_singleton_self b)
  parent_of_notMem {b} hb := by
    refine s.parent_of_notMem fun hmem => hb ?_
    split
    · exact hmem
    · exact List.mem_append_left _ hmem

/-! ## Roots -/

/-- The keys below a key, which its pointers can lead to. -/
def below (a : α) : Finset α := s.keys.toFinset.filter (· < a)

theorem below_parent (h : s.parent a ≠ a) : (s.below (s.parent a)).card < (s.below a).card := by
  have hlt : s.parent a < a := lt_of_le_of_ne (s.parent_le a) h
  have hmem : a ∈ s.keys := by
    by_contra hnot
    exact h (s.parent_of_notMem hnot)
  apply Finset.card_lt_card
  rw [Finset.ssubset_iff_of_subset]
  · refine ⟨s.parent a, ?_, ?_⟩
    · simp only [below, Finset.mem_filter, List.mem_toFinset]
      exact ⟨s.parent_mem hmem, hlt⟩
    · simp [below]
  · intro c hc
    simp only [below, Finset.mem_filter] at hc ⊢
    exact ⟨hc.1, hc.2.trans hlt⟩

/-- Induction along the pointers. -/
theorem parent_induction {P : α → Prop} (root : ∀ a, s.parent a = a → P a)
    (child : ∀ a, s.parent a ≠ a → P (s.parent a) → P a) (a : α) : P a := by
  induction hn : (s.below a).card using Nat.strong_induction_on generalizing a with
  | _ n ih =>
    by_cases h : s.parent a = a
    · exact root a h
    · exact child a h (ih _ (hn ▸ s.below_parent h) _ rfl)

/-- Enough pointers lead to a root. -/
theorem parent_climb {n : ℕ} (h : (s.below a).card ≤ n) :
    s.parent (climb s.parent n a) = climb s.parent n a := by
  induction n generalizing a with
  | zero =>
    show s.parent a = a
    by_contra hne
    have hlt := s.below_parent hne
    omega
  | succ n ih =>
    unfold climb
    split
    · next hroot => exact hroot
    · next hne =>
      have hlt := s.below_parent hne
      exact ih (by omega)

theorem below_card_le (a : α) : (s.below a).card ≤ s.keys.length :=
  (Finset.card_filter_le _ _).trans (List.toFinset_card_le _)

/-- One pointer more from a key that needs them all leads nowhere else. -/
theorem climb_succ {n : ℕ} (h : (s.below a).card ≤ n) :
    climb s.parent (n + 1) a = climb s.parent n a := by
  induction n generalizing a with
  | zero =>
    have hroot : s.parent a = a := s.parent_climb h
    show (if s.parent a = a then a else _) = a
    rw [if_pos hroot]
  | succ n ih =>
    show (if s.parent a = a then a else climb s.parent (n + 1) (s.parent a)) =
      if s.parent a = a then a else climb s.parent n (s.parent a)
    split
    · rfl
    · next hne =>
      have hlt := s.below_parent hne
      exact ih (by omega)

@[simp] theorem parent_find (a : α) : s.parent (s.find a) = s.find a :=
  s.parent_climb (s.below_card_le a)

theorem find_of_root (h : s.parent a = a) : s.find a = a := by
  unfold find
  cases s.keys.length with
  | zero => rfl
  | succ n => exact if_pos h

/-- A key has the root of the key it points at. -/
@[simp] theorem find_parent (a : α) : s.find (s.parent a) = s.find a := by
  by_cases h : s.parent a = a
  · rw [h]
  · have hlt := s.below_parent h
    have hle := s.below_card_le a
    have hstep : climb s.parent (s.keys.length + 1) a = climb s.parent s.keys.length (s.parent a) :=
      if_neg h
    exact hstep.symm.trans (s.climb_succ hle)

theorem find_mem (h : a ∈ s.keys) : s.find a ∈ s.keys := by
  induction a using s.parent_induction with
  | root a hroot => rwa [s.find_of_root hroot]
  | child a hne ih => exact s.find_parent a ▸ ih (s.parent_mem h)

/-- Two structures with the same pointers have the same roots. -/
theorem find_congr {t : Components α} (h : t.parent = s.parent) (a : α) : t.find a = s.find a := by
  induction a using s.parent_induction with
  | root a hroot => rw [s.find_of_root hroot, t.find_of_root (by rw [h, hroot])]
  | child a hne ih => rw [← s.find_parent, ← t.find_parent, h, ih]

@[simp] theorem find_add (a b : α) : (s.add a).find b = s.find b :=
  s.find_congr (t := s.add a) rfl b

theorem mem_keys_add : b ∈ (s.add a).keys ↔ b = a ∨ b ∈ s.keys := by
  unfold add
  split
  · next ha =>
    constructor
    · exact .inr
    · rintro (rfl | hb)
      · exact ha
      · exact hb
  · simp [or_comm]

/-! ## Unions -/

/-- Point one root at a smaller one. -/
def link (lo hi : α) (hlo : lo ∈ s.keys) (hhi : hi ∈ s.keys) (hle : lo ≤ hi) : Components α where
  keys := s.keys
  parent a := if a = hi then lo else s.parent a
  parent_le a := by
    split
    · next h => exact h ▸ hle
    · exact s.parent_le a
  parent_mem {a} ha := by
    split
    · exact hlo
    · exact s.parent_mem ha
  parent_of_notMem {a} ha := by
    rw [if_neg (by rintro rfl; exact ha hhi)]
    exact s.parent_of_notMem ha

theorem find_link {lo hi : α} (hlo : lo ∈ s.keys) (hhi : hi ∈ s.keys) (hlt : lo < hi)
    (hroot : s.parent lo = lo) (hroot' : s.parent hi = hi) (a : α) :
    (s.link lo hi hlo hhi hlt.le).find a = if s.find a = hi then lo else s.find a := by
  set t := s.link lo hi hlo hhi hlt.le
  have hparent : ∀ c, t.parent c = if c = hi then lo else s.parent c := fun c => rfl
  have hlow : t.find lo = lo := t.find_of_root (by rw [hparent, if_neg hlt.ne, hroot])
  induction a using s.parent_induction with
  | root a h =>
    rw [s.find_of_root h]
    split
    · next heq => rw [← t.find_parent, hparent, if_pos heq, hlow]
    · next hne => exact t.find_of_root (by rw [hparent, if_neg hne, h])
  | child a h ih =>
    have hne : a ≠ hi := by
      rintro rfl
      exact h hroot'
    rw [← t.find_parent, hparent, if_neg hne, ih, s.find_parent]

/-- Join the components of two keys. -/
def union (a b : α) : Components α :=
  let t := (s.add a).add b
  if h : t.find a = t.find b then t
  else
    t.link (min (t.find a) (t.find b)) (max (t.find a) (t.find b))
      (by
        have ha : t.find a ∈ t.keys := t.find_mem (by simp [t, mem_keys_add])
        have hb : t.find b ∈ t.keys := t.find_mem (by simp [t, mem_keys_add])
        rcases min_choice (t.find a) (t.find b) with heq | heq
        · rwa [heq]
        · rwa [heq])
      (by
        have ha : t.find a ∈ t.keys := t.find_mem (by simp [t, mem_keys_add])
        have hb : t.find b ∈ t.keys := t.find_mem (by simp [t, mem_keys_add])
        rcases max_choice (t.find a) (t.find b) with heq | heq
        · rwa [heq]
        · rwa [heq])
      min_le_max

/-- **The roots after a union**: the larger of the two gives way to the smaller. -/
theorem find_union (a b c : α) :
    (s.union a b).find c =
      if s.find c = max (s.find a) (s.find b) then min (s.find a) (s.find b) else s.find c := by
  have hadd : ∀ d, ((s.add a).add b).find d = s.find d := fun d => by rw [find_add, find_add]
  unfold union
  dsimp only
  split
  · next h =>
    rw [hadd, hadd] at h
    rw [hadd, h, max_self, min_self]
    split
    · next hc => exact hc
    · rfl
  · next h =>
    have hlt : min (((s.add a).add b).find a) (((s.add a).add b).find b) <
        max (((s.add a).add b).find a) (((s.add a).add b).find b) := min_lt_max.2 h
    rw [find_link _ _ _ hlt, hadd, hadd, hadd]
    · rcases min_choice (((s.add a).add b).find a) (((s.add a).add b).find b) with heq | heq
      · rw [heq, parent_find]
      · rw [heq, parent_find]
    · rcases max_choice (((s.add a).add b).find a) (((s.add a).add b).find b) with heq | heq
      · rw [heq, parent_find]
      · rw [heq, parent_find]

/-- Two keys are in one component after a union if they were before, or if it joined theirs. -/
theorem find_union_eq_iff {a b c d : α} :
    (s.union a b).find c = (s.union a b).find d ↔
      s.find c = s.find d ∨ s.find c = s.find a ∧ s.find d = s.find b ∨
        s.find c = s.find b ∧ s.find d = s.find a := by
  rw [find_union, find_union]
  rcases le_total (s.find a) (s.find b) with h | h
  · rw [max_eq_right h, min_eq_left h]
    split <;> split <;> grind
  · rw [max_eq_left h, min_eq_right h]
    split <;> split <;> grind

theorem mem_keys_union {a b c : α} : c ∈ (s.union a b).keys ↔ c = a ∨ c = b ∨ c ∈ s.keys := by
  have hkeys : (s.union a b).keys = ((s.add a).add b).keys := by
    unfold union
    dsimp only
    split <;> rfl
  rw [hkeys, mem_keys_add, mem_keys_add]
  grind

/-- Join the keys of every pair. -/
def unionAll (s : Components α) (pairs : List (α × α)) : Components α :=
  pairs.foldl (fun s pair => s.union pair.1 pair.2) s

/-- **The components of a list of pairs** are the classes of the equivalence that the pairs generate
from the components there were. -/
theorem find_unionAll {pairs : List (α × α)} {c d : α} :
    (s.unionAll pairs).find c = (s.unionAll pairs).find d ↔
      EqvGen (fun a b => s.find a = s.find b ∨ (a, b) ∈ pairs) c d := by
  induction pairs generalizing s with
  | nil =>
    constructor
    · exact fun h => .rel _ _ (.inl h)
    · intro h
      induction h with
      | rel a b h => exact h.resolve_right List.not_mem_nil
      | refl a => rfl
      | symm a b _ ih => exact ih.symm
      | trans a b c _ _ ihab ihbc => exact ihab.trans ihbc
  | cons pair pairs ih =>
    show ((s.union pair.1 pair.2).unionAll pairs).find c =
      ((s.union pair.1 pair.2).unionAll pairs).find d ↔ _
    rw [ih]
    have hpair : EqvGen (fun a b => s.find a = s.find b ∨ (a, b) ∈ pair :: pairs) pair.1 pair.2 :=
      .rel _ _ (.inr (List.mem_cons_self ..))
    constructor
    · intro h
      refine (EqvGen.is_equivalence _).eqvGen_iff.1 (h.mono fun a b hab => ?_)
      rcases hab with hab | hab
      · rcases (s.find_union_eq_iff).1 hab with hab | ⟨ha, hb⟩ | ⟨ha, hb⟩
        · exact .rel _ _ (.inl hab)
        · exact .trans _ _ _ (.rel _ _ (.inl ha)) (.trans _ _ _ hpair (.rel _ _ (.inl hb.symm)))
        · exact .trans _ _ _ (.rel _ _ (.inl ha))
            (.trans _ _ _ (.symm _ _ hpair) (.rel _ _ (.inl hb.symm)))
      · exact .rel _ _ (.inr (List.mem_cons_of_mem _ hab))
    · intro h
      refine h.mono fun a b hab => ?_
      rcases hab with hab | hab
      · exact .inl ((s.find_union_eq_iff).2 (.inl hab))
      · rcases List.mem_cons.1 hab with rfl | hab
        · exact .inl ((s.find_union_eq_iff).2 (.inr (.inl ⟨rfl, rfl⟩)))
        · exact .inr hab

/-- A pair is in one component. -/
theorem find_of_mem {pairs : List (α × α)} {a b : α} (h : (a, b) ∈ pairs) :
    (s.unionAll pairs).find a = (s.unionAll pairs).find b :=
  (s.find_unionAll).2 (.rel _ _ (.inr h))

theorem mem_keys_unionAll {pairs : List (α × α)} {c : α} :
    c ∈ (s.unionAll pairs).keys ↔ c ∈ s.keys ∨ ∃ pair ∈ pairs, c = pair.1 ∨ c = pair.2 := by
  induction pairs generalizing s with
  | nil => simp [unionAll]
  | cons pair pairs ih =>
    show c ∈ ((s.union pair.1 pair.2).unionAll pairs).keys ↔ _
    rw [ih, mem_keys_union]
    simp only [List.mem_cons, exists_eq_or_imp]
    grind

/-! ## The component of a key -/

/-- The keys with a root. -/
def members (root : α) : List α := s.keys.filter (s.find · = root)

theorem mem_members {root a : α} : a ∈ s.members root ↔ a ∈ s.keys ∧ s.find a = root := by
  simp [members]

/-- The keys in the components of some keys. -/
def closure (wanted : Finset α) : Finset α :=
  (s.keys.filter fun a => ∃ b ∈ wanted, s.find b = s.find a).toFinset

theorem mem_closure {wanted : Finset α} {a : α} :
    a ∈ s.closure wanted ↔ a ∈ s.keys ∧ ∃ b ∈ wanted, s.find b = s.find a := by
  simp [closure]

end Components

end OpsPilot
