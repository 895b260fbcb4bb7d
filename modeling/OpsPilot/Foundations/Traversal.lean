import Mathlib.Data.List.Perm.Basic
import OpsPilot.Foundations.Transaction

/-!
# Fallible traversals of a list

`List.mapM` of a computation that may fail: it succeeds when every item does, with their results in
the order of the items (`mapM_eq_ok`, `mapM_eq_some`). In another order of the items it gives the
same results in another order.
-/

namespace OpsPilot

variable {α β : Type*} {items items' : List α} {found : List β}

theorem mapM_eq_ok {ε : Type*} {α β : Type} {f : α → Except ε β} {items : List α} {found : List β} :
    items.mapM f = .ok found ↔ List.Forall₂ (fun a b => f a = .ok b) items found := by
  induction items generalizing found with
  | nil =>
    rw [List.forall₂_nil_left_iff]
    exact ⟨fun h => (Except.ok.inj h).symm, fun h => h ▸ rfl⟩
  | cons item items ih =>
    simp only [List.mapM_cons, bind_eq_ok, pure_eq_ok, List.forall₂_cons_left_iff, ih]
    exact ⟨fun ⟨b, hb, u, hu, h⟩ => ⟨b, u, hb, hu, h.symm⟩,
      fun ⟨b, u, hb, hu, h⟩ => ⟨b, hb, u, hu, h.symm⟩⟩

theorem mapM_eq_some {f : α → Option β} :
    items.mapM f = some found ↔ List.Forall₂ (fun a b => f a = some b) items found := by
  induction items generalizing found with
  | nil =>
    rw [List.forall₂_nil_left_iff]
    exact ⟨fun h => (Option.some.inj h).symm, fun h => h ▸ rfl⟩
  | cons item items ih =>
    simp only [List.mapM_cons, Option.bind_eq_bind, Option.bind_eq_some_iff, Option.pure_def,
      Option.some.injEq, List.forall₂_cons_left_iff, ih]
    exact ⟨fun ⟨b, hb, u, hu, h⟩ => ⟨b, u, hb, hu, h.symm⟩,
      fun ⟨b, u, hb, hu, h⟩ => ⟨b, hb, u, hu, h.symm⟩⟩

section

variable {R : α → β → Prop}

theorem exists_of_mem_left (h : List.Forall₂ R items found) {a : α} (ha : a ∈ items) :
    ∃ b ∈ found, R a b := by
  induction h with
  | nil => cases ha
  | cons hab _ ih =>
    obtain rfl | ha := List.mem_cons.1 ha
    · exact ⟨_, List.mem_cons_self, hab⟩
    · obtain ⟨b, hb, hr⟩ := ih ha
      exact ⟨b, List.mem_cons_of_mem _ hb, hr⟩

theorem exists_of_mem_right (h : List.Forall₂ R items found) {b : β} (hb : b ∈ found) :
    ∃ a ∈ items, R a b :=
  exists_of_mem_left (R := flip R) (List.Forall₂.flip h) hb

theorem forall₂_of_perm (h : items.Perm items') (hr : List.Forall₂ R items found) :
    ∃ found', List.Forall₂ R items' found' ∧ found.Perm found' := by
  obtain ⟨found', hr', hperm⟩ := List.perm_comp_forall₂ h.symm hr
  exact ⟨found', hr', hperm.symm⟩

end

theorem mapM_ok_perm {ε : Type*} {α β : Type} {f : α → Except ε β} {items items' : List α}
    {found : List β} (h : items.Perm items') (hfound : items.mapM f = .ok found) :
    ∃ found', items'.mapM f = .ok found' ∧ found.Perm found' := by
  obtain ⟨found', hr, hperm⟩ := forall₂_of_perm h (mapM_eq_ok.1 hfound)
  exact ⟨found', mapM_eq_ok.2 hr, hperm⟩

theorem mapM_some_perm {f : α → Option β} (h : items.Perm items')
    (hfound : items.mapM f = some found) :
    ∃ found', items'.mapM f = some found' ∧ found.Perm found' := by
  obtain ⟨found', hr, hperm⟩ := forall₂_of_perm h (mapM_eq_some.1 hfound)
  exact ⟨found', mapM_eq_some.2 hr, hperm⟩

end OpsPilot
