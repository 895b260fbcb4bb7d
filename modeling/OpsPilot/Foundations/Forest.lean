import Mathlib.Data.List.Lattice
import Mathlib.Logic.Relation

/-!
# Pointer graphs

Every node points at one node at most. A pointer graph is a forest when no node leads back to
itself; it stays one when a pointer is added from one root to another.

* `Leads next a b`: one or more pointers lead from `a` to `b`.
* **`Acyclic.link`**: pointing a root at another root closes no cycle.
* `Hops next n a b`: `n` pointers lead from `a` to `b`, on any graph.
* `Explored.advance`, `Explored.mem_of_hops`: a search that follows the pointers of the nodes it
  found last keeps every node whose pointer it has not followed among these.
-/

namespace OpsPilot

universe u

variable {α : Type u} {next next' : α → Option α} {a b c d : α}

/-- One or more pointers lead from `a` to `b`. -/
def Leads (next : α → Option α) : α → α → Prop :=
  Relation.TransGen fun a b => next a = some b

/-- No node leads back to itself. -/
def Acyclic (next : α → Option α) : Prop := ∀ a, ¬ Leads next a a

/-- A path starts at a node that points. -/
theorem Leads.pointed (h : Leads next a b) : (next a).isSome = true := by
  induction h using Relation.TransGen.head_induction_on with
  | single hab => exact Option.isSome_of_eq_some hab
  | head hac _ _ => exact Option.isSome_of_eq_some hac

theorem Leads.mono (h : Leads next' a b) (hle : ∀ a b, next' a = some b → next a = some b) :
    Leads next a b :=
  Relation.TransGen.mono hle a b h

namespace Acyclic

/-- No pointers, no cycles. -/
theorem of_none (h : ∀ a, next a = none) : Acyclic next := by
  intro a ha
  have hpointed := ha.pointed
  rw [h a] at hpointed
  cases hpointed

/-- Taking pointers away closes no cycle. -/
theorem anti (h : Acyclic next) (hle : ∀ a b, next' a = some b → next a = some b) :
    Acyclic next' :=
  fun a ha => h a (ha.mono hle)

/-- **Pointing a root at another root closes no cycle**: the new pointer ends at a root, so a path
through it goes no further. -/
theorem link (h : Acyclic next) (hroot : next b = none) (hne : b ≠ a) (hab : next' a = some b)
    (hkept : ∀ c, c ≠ a → next' c = next c) : Acyclic next' := by
  have hroot' : next' b = none := by rw [hkept b hne, hroot]
  have hpath : ∀ {c d}, Leads next' c d → Leads next c d ∨ d = b := by
    intro c d hcd
    induction hcd with
    | single hstep =>
      by_cases hc : c = a
      · subst hc
        exact .inr (Option.some.inj (hstep.symm.trans hab))
      · rw [hkept c hc] at hstep
        exact .inl (.single hstep)
    | @tail e f _ hstep ih =>
      by_cases he : e = a
      · subst he
        exact .inr (Option.some.inj (hstep.symm.trans hab))
      · rw [hkept e he] at hstep
        rcases ih with hce | rfl
        · exact .inl (hce.tail hstep)
        · rw [hroot] at hstep
          cases hstep
  intro c hc
  rcases hpath hc with hold | rfl
  · exact h c hold
  · have hpointed := hc.pointed
    rw [hroot'] at hpointed
    cases hpointed

end Acyclic

/-! ## Chains of a given length -/

/-- `n` pointers lead from `a` to `b`. -/
inductive Hops (next : α → Option α) : ℕ → α → α → Prop
  | here (a : α) : Hops next 0 a a
  | hop {n : ℕ} {a b c : α} (hab : next a = some b) (hbc : Hops next n b c) : Hops next (n + 1) a c

namespace Hops

variable {n : ℕ}

theorem zero_iff : Hops next 0 a b ↔ a = b := by
  constructor
  · rintro ⟨⟩
    rfl
  · rintro rfl
    exact .here a

theorem succ_iff (hab : next a = some b) : Hops next (n + 1) a c ↔ Hops next n b c := by
  constructor
  · rintro (_ | ⟨hab', hbc⟩)
    obtain rfl := Option.some.inj (hab.symm.trans hab')
    exact hbc
  · exact .hop hab

/-- No pointer leads on from a root. -/
theorem of_root (hroot : next a = none) (h : Hops next n a b) : a = b := by
  cases h with
  | here => rfl
  | hop hab _ => simp [hroot] at hab

/-- A chain stays where the pointers stay. -/
theorem mem_of_closed {s : List α} (hs : ∀ a ∈ s, ∀ b, next a = some b → b ∈ s)
    (h : Hops next n a b) (ha : a ∈ s) : b ∈ s := by
  induction h with
  | here => exact ha
  | hop hab _ ih => exact ih (hs _ ha _ hab)

end Hops

/-- The search has found `ids`; it has followed all pointers but those of the nodes in `frontier`. -/
structure Explored (next : α → Option α) (ids frontier : List α) : Prop where
  found : ∀ a ∈ frontier, a ∈ ids
  followed : ∀ a ∈ ids, a ∉ frontier → ∀ b, next a = some b → b ∈ ids

namespace Explored

variable {ids frontier : List α}

theorem start (ids : List α) : Explored next ids ids := ⟨fun _ => id, fun _ h h' => absurd h h'⟩

/-- A search with nothing left to follow has everything. -/
theorem mem_of_done (h : Explored next ids []) {n : ℕ} (hab : Hops next n a b) (ha : a ∈ ids) :
    b ∈ ids :=
  hab.mem_of_closed (fun a ha => h.followed a ha List.not_mem_nil) ha

variable [DecidableEq α]

/-- The pointers of the frontier are followed. -/
theorem advance (h : Explored next ids frontier) :
    Explored next (ids ∪ frontier.filterMap next) ((frontier.filterMap next).filter (· ∉ ids)) where
  found a ha := List.mem_union_iff.2 (.inr (List.mem_of_mem_filter ha))
  followed a ha hnew b hab := by
    rw [List.mem_union_iff]
    have hold : a ∈ ids := by
      by_contra hout
      have hpointer := (List.mem_union_iff.1 ha).resolve_left hout
      exact hnew (List.mem_filter.2 ⟨hpointer, by simpa using hout⟩)
    by_cases hf : a ∈ frontier
    · exact .inr (List.mem_filterMap.2 ⟨a, hf, hab⟩)
    · exact .inl (h.followed a hold hf b hab)

end Explored

end OpsPilot
