import Mathlib.Data.List.Lex
import Mathlib.Data.List.Sort
import Mathlib.Data.Prod.Lex

/-!
# Excerpts of a sorted list

One entry for each key of a sorted list, and as many of the first entries of a list as fit a bound.

* `keepFirsts`: the first entry of every key, and how many others there are.
* `mem_keepFirsts`, `pairwise_keepFirsts`: of a list sorted by keys and ties, the entry with the
  least tie of each key, in the order of the keys.
* `longestFit`: a count that grows while the next one fits.
* **`longestFit_spec`**: the count fits, and the next one does not.
-/

namespace OpsPilot

universe u v w

/-! ## Lists in the order of their keys -/

section

variable {α : Type u} {κ : Type v} {τ : Type w} [LinearOrder κ] [LinearOrder τ] (key : α → κ)
  (tie : α → τ)

/-- A list in the order of its keys, entries of one key in the order of their ties. -/
def SortedBy (l : List α) : Prop :=
  l.Pairwise fun a b => toLex (key a, tie a) ≤ toLex (key b, tie b)

variable {key tie}

theorem SortedBy.key_le {a : α} {l : List α} (h : SortedBy key tie (a :: l)) {b : α}
    (hb : b ∈ l) : key a ≤ key b :=
  Prod.Lex.monotone_fst _ _ ((List.pairwise_cons.1 h).1 b hb)

theorem SortedBy.tie_le {a : α} {l : List α} (h : SortedBy key tie (a :: l)) {b : α}
    (hb : b ∈ l) (hkey : key b = key a) : tie a ≤ tie b := by
  have hle := (List.pairwise_cons.1 h).1 b hb
  rw [Prod.Lex.toLex_le_toLex, hkey] at hle
  exact hle.elim (fun hlt => absurd hlt (lt_irrefl _)) And.right

theorem SortedBy.tail {a : α} {l : List α} (h : SortedBy key tie (a :: l)) : SortedBy key tie l :=
  (List.pairwise_cons.1 h).2

end

/-! ## One entry for each key -/

section

variable {α : Type u} {κ : Type v} {τ : Type w} [DecidableEq κ]

/-- The entries whose key is not that of the entry kept last, and how many there are of the
others. -/
def keepFirsts (key : α → κ) : Option κ → List α → List α × ℕ
  | _, [] => ([], 0)
  | last, a :: l =>
    if last = some (key a) then ((keepFirsts key last l).1, (keepFirsts key last l).2 + 1)
    else (a :: (keepFirsts key (some (key a)) l).1, (keepFirsts key (some (key a)) l).2)

theorem length_keepFirsts (key : α → κ) (last : Option κ) (l : List α) :
    (keepFirsts key last l).1.length + (keepFirsts key last l).2 = l.length := by
  induction l generalizing last with
  | nil => rfl
  | cons a l ih =>
    rw [keepFirsts]
    split
    · have h := ih last
      simp only [List.length_cons]
      omega
    · have h := ih (some (key a))
      simp only [List.length_cons]
      omega

theorem keepFirsts_sublist (key : α → κ) (last : Option κ) (l : List α) :
    List.Sublist (keepFirsts key last l).1 l := by
  induction l generalizing last with
  | nil => exact List.Sublist.slnil
  | cons a l ih =>
    rw [keepFirsts]
    split
    · exact (ih last).cons a
    · exact (ih (some (key a))).cons_cons a

variable [LinearOrder κ] [LinearOrder τ] {key : α → κ} {tie : α → τ}

/-- Past an entry of the key kept last, the entries kept have a greater key. -/
theorem lt_of_mem_keepFirsts {k : κ} {l : List α} (hsorted : SortedBy key tie l)
    (hk : ∀ b ∈ l, k ≤ key b) {a : α} (ha : a ∈ (keepFirsts key (some k) l).1) : k < key a := by
  induction l generalizing k with
  | nil => cases ha
  | cons b l ih =>
    rw [keepFirsts] at ha
    split at ha
    · exact ih hsorted.tail (fun c hc => hk c (List.mem_cons_of_mem _ hc)) ha
    · next hne =>
      have hlt : k < key b :=
        lt_of_le_of_ne (hk b List.mem_cons_self) fun heq => hne (congrArg some heq)
      rcases List.mem_cons.1 ha with rfl | ha
      · exact hlt
      · exact hlt.trans (ih hsorted.tail (fun c hc => hsorted.key_le hc) ha)

/-- The keys of the entries kept increase. -/
theorem pairwise_keepFirsts {last : Option κ} {l : List α} (hsorted : SortedBy key tie l) :
    (keepFirsts key last l).1.Pairwise fun a b => key a < key b := by
  induction l generalizing last with
  | nil => exact List.Pairwise.nil
  | cons a l ih =>
    rw [keepFirsts]
    split
    · exact ih hsorted.tail
    · exact List.pairwise_cons.2
        ⟨fun b hb => lt_of_mem_keepFirsts hsorted.tail (fun c hc => hsorted.key_le hc) hb,
          ih hsorted.tail⟩

/-- An entry is kept when its key is not the one kept last and its tie is the least of its key. -/
theorem mem_keepFirsts_iff {last : Option κ} {l : List α} (hsorted : SortedBy key tie l)
    (hlast : ∀ k ∈ last, ∀ b ∈ l, k ≤ key b)
    (hties : l.Pairwise fun a b => key a = key b → tie a ≠ tie b) {a : α} :
    a ∈ (keepFirsts key last l).1 ↔
      a ∈ l ∧ last ≠ some (key a) ∧ ∀ b ∈ l, key b = key a → tie a ≤ tie b := by
  induction l generalizing last with
  | nil => simp [keepFirsts]
  | cons c l ih =>
    obtain ⟨hties₁, hties₂⟩ := List.pairwise_cons.1 hties
    rw [keepFirsts]
    split
    · next heq =>
      rw [ih hsorted.tail (fun k hk b hb => hlast k hk b (List.mem_cons_of_mem _ hb)) hties₂]
      constructor
      · rintro ⟨ha, hne, hleast⟩
        refine ⟨List.mem_cons_of_mem _ ha, hne, fun b hb hkey => ?_⟩
        rcases List.mem_cons.1 hb with rfl | hb
        · exact absurd (heq.trans (congrArg some hkey)) hne
        · exact hleast b hb hkey
      · rintro ⟨ha, hne, hleast⟩
        rcases List.mem_cons.1 ha with rfl | ha
        · exact absurd heq hne
        · exact ⟨ha, hne, fun b hb => hleast b (List.mem_cons_of_mem _ hb)⟩
    · next hne =>
      rw [List.mem_cons, ih hsorted.tail (fun k hk b hb => by
        obtain rfl := Option.some.inj hk
        exact hsorted.key_le hb) hties₂]
      constructor
      · rintro (rfl | ⟨ha, hkey, hleast⟩)
        · refine ⟨List.mem_cons_self, hne, fun b hb hkey => ?_⟩
          rcases List.mem_cons.1 hb with rfl | hb
          · exact le_rfl
          · exact hsorted.tie_le hb hkey
        · refine ⟨List.mem_cons_of_mem _ ha, fun heq => ?_, fun b hb hb' => ?_⟩
          · -- a later entry of the key kept last would put `c` between two entries of one key
            have hle := hlast _ heq c List.mem_cons_self
            exact hkey (congrArg some (le_antisymm (hsorted.key_le ha) hle))
          · rcases List.mem_cons.1 hb with rfl | hb
            · exact absurd (congrArg some hb') hkey
            · exact hleast b hb hb'
      · rintro ⟨ha, hlast', hleast⟩
        rcases List.mem_cons.1 ha with rfl | ha
        · exact .inl rfl
        · refine .inr ⟨ha, fun heq => ?_, fun b hb => hleast b (List.mem_cons_of_mem _ hb)⟩
          have hkey : key c = key a := Option.some.inj heq
          have hle := hleast c List.mem_cons_self hkey
          exact hties₁ a ha hkey (le_antisymm (hsorted.tie_le ha hkey.symm) hle)

/-- **The entries kept of a sorted list** are those with the least tie of their key. -/
theorem mem_keepFirsts {l : List α} (hsorted : SortedBy key tie l)
    (hties : l.Pairwise fun a b => key a = key b → tie a ≠ tie b) {a : α} :
    a ∈ (keepFirsts key none l).1 ↔ a ∈ l ∧ ∀ b ∈ l, key b = key a → tie a ≤ tie b := by
  rw [mem_keepFirsts_iff hsorted (fun k hk => by cases hk) hties]
  simp

end

/-! ## As many entries as fit -/

/-- A count that grows by one, at most as often as the first argument says, while the next count
fits. -/
def longestFit (fits : ℕ → Bool) : ℕ → ℕ → ℕ
  | 0, count => count
  | left + 1, count => if fits (count + 1) then longestFit fits left (count + 1) else count

/-- **The count that is reached** fits, unless it is the first one, and the next one does not. -/
theorem longestFit_spec (fits : ℕ → Bool) (left count : ℕ) :
    count ≤ longestFit fits left count ∧ longestFit fits left count ≤ count + left ∧
      (longestFit fits left count = count ∨ fits (longestFit fits left count) = true) ∧
      (longestFit fits left count = count + left ∨
        fits (longestFit fits left count + 1) = false) := by
  induction left generalizing count with
  | zero => exact ⟨le_rfl, le_rfl, .inl rfl, .inl rfl⟩
  | succ left ih =>
    rw [longestFit]
    split
    · next hfits =>
      obtain ⟨hle, hle', hfit, hnext⟩ := ih (count + 1)
      refine ⟨by omega, by omega, .inr ?_, hnext.imp_left fun h => by omega⟩
      rcases hfit with heq | hfit
      · rw [heq]
        exact hfits
      · exact hfit
    · next hfits => exact ⟨le_rfl, by omega, .inl rfl, .inr (by simpa using hfits)⟩

end OpsPilot
