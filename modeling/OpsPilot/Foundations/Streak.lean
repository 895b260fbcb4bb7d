import Mathlib.Data.List.Chain

/-!
# The run a list ends with

A run is a list whose elements are all good and whose neighbours all join. `LongestRun` is the
longest suffix of a list that is one. A reader that sees the list element by element need not keep
the run: a good element that joins the last one extends it (`LongestRun.extend`), any other good
element starts it anew (`LongestRun.restart`), and an element that is not good ends it
(`LongestRun.cut`).
-/

namespace OpsPilot

variable {α : Type*} {good : α → Prop} {joins : α → α → Prop} {l run run' : List α} {x y : α}

/-- All elements are good, and every two neighbours join. -/
structure IsRun (good : α → Prop) (joins : α → α → Prop) (l : List α) : Prop where
  good : ∀ x ∈ l, good x
  chain : l.IsChain joins

theorem isRun_nil : IsRun good joins [] := ⟨by simp, .nil⟩

theorem isRun_append_singleton : IsRun good joins (l ++ [x]) ↔
    IsRun good joins l ∧ good x ∧ ∀ y ∈ l.getLast?, joins y x := by
  constructor
  · rintro ⟨hgood, hchain⟩
    obtain ⟨hleft, -, hjoin⟩ := List.isChain_append.1 hchain
    exact ⟨⟨fun y hy => hgood y (by simp [hy]), hleft⟩, hgood x (by simp),
      fun y hy => hjoin y hy x (by simp)⟩
  · rintro ⟨⟨hgood, hchain⟩, hx, hjoin⟩
    refine ⟨fun y hy => ?_, List.isChain_append.2 ⟨hchain, .singleton x, fun y hy z hz => ?_⟩⟩
    · rcases List.mem_append.1 hy with hy | hy
      · exact hgood y hy
      · rwa [List.mem_singleton.1 hy]
    · obtain rfl : x = z := by simpa using hz
      exact hjoin y hy

/-- A suffix ends with the last element of the list. -/
theorem getLast?_of_suffix (h : run <:+ l) (hy : y ∈ run.getLast?) : y ∈ l.getLast? := by
  obtain ⟨front, rfl⟩ := h
  rw [List.getLast?_append, hy]
  rfl

/-- `run` is the longest suffix of `l` that is a run. -/
structure LongestRun (good : α → Prop) (joins : α → α → Prop) (l run : List α) : Prop where
  suffix : run <:+ l
  isRun : IsRun good joins run
  longest : ∀ r, r <:+ l → IsRun good joins r → r <:+ run

namespace LongestRun

theorem nil : LongestRun good joins [] [] := ⟨List.suffix_refl _, isRun_nil, fun _ h _ => h⟩

theorem unique (h : LongestRun good joins l run) (h' : LongestRun good joins l run') :
    run = run' :=
  (h'.longest run h.suffix h.isRun).eq_of_length
    (le_antisymm (h'.longest run h.suffix h.isRun).length_le
      (h.longest run' h'.suffix h'.isRun).length_le)

/-- The run ends with the last element of the list. -/
theorem getLast?_mem (h : LongestRun good joins l run) (hy : y ∈ run.getLast?) :
    y ∈ l.getLast? := getLast?_of_suffix h.suffix hy

/-- A good element that joins the run extends it. -/
theorem extend (h : LongestRun good joins l run) (hx : good x)
    (hjoin : ∀ y ∈ run.getLast?, joins y x) : LongestRun good joins (l ++ [x]) (run ++ [x]) where
  suffix := by
    obtain ⟨front, rfl⟩ := h.suffix
    exact ⟨front, by simp⟩
  isRun := isRun_append_singleton.2 ⟨h.isRun, hx, hjoin⟩
  longest r hr hrun := by
    rcases List.suffix_concat_iff.1 hr with rfl | ⟨t, rfl, ht⟩
    · exact List.nil_suffix
    · obtain ⟨front, hfront⟩ := h.longest t ht (isRun_append_singleton.1 hrun).1
      exact ⟨front, by rw [← hfront, List.append_assoc]⟩

/-- A good element that does not join the last one is a run of its own. -/
theorem restart (hx : good x) (hapart : ∀ y ∈ l.getLast?, ¬ joins y x) :
    LongestRun good joins (l ++ [x]) [x] where
  suffix := ⟨l, rfl⟩
  isRun := ⟨by simpa using hx, .singleton x⟩
  longest r hr hrun := by
    rcases List.suffix_concat_iff.1 hr with rfl | ⟨t, rfl, ht⟩
    · exact List.nil_suffix
    obtain ⟨-, -, hjoin⟩ := isRun_append_singleton.1 hrun
    cases hlast : t.getLast? with
    | none =>
      obtain rfl := List.getLast?_eq_none_iff.1 hlast
      exact List.suffix_refl _
    | some y =>
      -- a longer run would hold the last element of `l`, which does not join
      have hy : y ∈ l.getLast? := getLast?_of_suffix ht hlast
      exact absurd (hjoin y hlast) (hapart y hy)

/-- An element that is not good ends every run. -/
theorem cut (hx : ¬ good x) : LongestRun good joins (l ++ [x]) [] where
  suffix := List.nil_suffix
  isRun := isRun_nil
  longest r hr hrun := by
    rcases List.suffix_concat_iff.1 hr with rfl | ⟨t, rfl, -⟩
    · exact List.nil_suffix
    · exact absurd (isRun_append_singleton.1 hrun).2.1 hx

/-- Two properties that agree on a list have the same run. -/
theorem congr {good' : α → Prop} (h : ∀ x ∈ l, good x ↔ good' x) :
    LongestRun good joins l run ↔ LongestRun good' joins l run := by
  have hrun : ∀ r, r <:+ l → (IsRun good joins r ↔ IsRun good' joins r) := by
    intro r hr
    constructor
    · exact fun hr' => ⟨fun y hy => (h y (hr.subset hy)).1 (hr'.good y hy), hr'.chain⟩
    · exact fun hr' => ⟨fun y hy => (h y (hr.subset hy)).2 (hr'.good y hy), hr'.chain⟩
  constructor
  · rintro ⟨hsuffix, hisRun, hlongest⟩
    exact ⟨hsuffix, (hrun _ hsuffix).1 hisRun, fun r hr hr' => hlongest r hr ((hrun r hr).2 hr')⟩
  · rintro ⟨hsuffix, hisRun, hlongest⟩
    exact ⟨hsuffix, (hrun _ hsuffix).2 hisRun, fun r hr hr' => hlongest r hr ((hrun r hr).1 hr')⟩

end LongestRun

end OpsPilot
