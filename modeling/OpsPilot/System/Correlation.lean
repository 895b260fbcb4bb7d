import OpsPilot.Foundations.Forest
import OpsPilot.System.Alerts

/-!
# The candidates of a correlation

An anomaly is correlated with incidents that may have been merged into others. The incidents a
candidate's merge pointers lead to are read without locks, then locked, and each candidate then
stands for the end of its chain (`lock_merge_closure`, `resolve_merged`). The read and the
resolution are two traversals, each cut after `mergeChainLimit` pointers, of a graph that may have
cycles and shared tails.

* `AlertStore.pointer`: the merge pointers, as a pointer graph.
* `mergeClosure_sound`: what the read finds holds every chain up to the limit.
* `followMerged_spec`: following the pointers of rows that hold a chain does not leave them.
* **`correlation_resolved`**: while the graph stays as it is, the resolution never asks for a retry,
  and is the ends of the chains.
-/

namespace OpsPilot

/-! ## The graph -/

/-- The incident an incident was merged into. -/
def AlertStore.pointer (db : AlertStore) (id : UUID) : Option UUID :=
  (db.store.incidents.get id).bind IncidentRow.mergedIntoIncidentId

/-- Every merge pointer leads to an incident (the foreign key of the pointer). -/
def AlertStore.MergeGraph (db : AlertStore) : Prop :=
  ∀ id next, db.pointer id = some next → (db.store.incidents.get next).isSome = true

/-- The graph stays as it is, and so do the rows that are locked. -/
structure GraphKept (held : List AlertLock) (a b : AlertStore) : Prop where
  graph : ∀ id, (b.store.incidents.get id).map IncidentRow.mergedIntoIncidentId =
    (a.store.incidents.get id).map IncidentRow.mergedIntoIncidentId
  locked : ∀ id, .incident id ∈ held → b.store.incidents.get id = a.store.incidents.get id

theorem graphKept_refl (held : List AlertLock) (db : AlertStore) : GraphKept held db db :=
  ⟨fun _ => rfl, fun _ _ => rfl⟩

theorem graphKept_stable : Program.Stable GraphKept where
  refl _ held := graphKept_refl held _
  trans hab hbc :=
    ⟨fun id => (hbc.graph id).trans (hab.graph id), fun id hid =>
      (hbc.locked id hid).trans (hab.locked id hid)⟩

namespace GraphKept

variable {held : List AlertLock} {a b : AlertStore}

theorem pointer (h : GraphKept held a b) : b.pointer = a.pointer := by
  funext id
  have hid := h.graph id
  unfold AlertStore.pointer
  cases hb : b.store.incidents.get id <;> cases ha : a.store.incidents.get id <;>
    simp_all

theorem isSome (h : GraphKept held a b) (id : UUID) :
    (b.store.incidents.get id).isSome = (a.store.incidents.get id).isSome := by
  rw [← Option.isSome_map, h.graph id, Option.isSome_map]

theorem mergeGraph (h : GraphKept held a b) (ha : a.MergeGraph) : b.MergeGraph := by
  intro id next hnext
  rw [h.pointer] at hnext
  rw [h.isSome]
  exact ha id next hnext

end GraphKept

/-! ## The read -/

/-- The read finds everything within its limit of the incidents it starts from. -/
theorem mergeClosure_sound {next : UUID → Option UUID} {limit : ℕ} {ids frontier : List UUID}
    {db : AlertStore} {held : List AlertLock} (hgraph : db.pointer = next)
    (h : Explored next ids frontier) :
    (mergeClosure limit ids frontier).Sound GraphKept (fun _ _ found =>
      ∀ a ∈ ids, ∀ n ≤ limit, ∀ b, Hops next n a b → b ∈ found) held db := by
  induction limit generalizing ids frontier db with
  | zero =>
    intro t _ a ha n hn b hab
    obtain rfl : n = 0 := Nat.le_zero.1 hn
    rwa [← Hops.zero_iff.1 hab]
  | succ limit ih =>
    unfold mergeClosure
    split
    · next hdone =>
      intro t _ a ha n _ b hab
      subst hdone
      exact h.mem_of_done hab ha
    · refine .committed_bind fun s hs => ?_
      obtain rfl : s.pointer = next := hs.pointer.trans hgraph
      refine (ih rfl h.advance).mono fun held t found hfound a ha n hn b hab => ?_
      cases hab with
      | here => exact hfound a (List.mem_union_iff.2 (.inl ha)) 0 (Nat.zero_le _) a (.here a)
      | @hop m _ c _ hac hcb =>
        -- the chain goes on from an incident that is found now
        have hc : c ∈ ids ∪ frontier.filterMap s.pointer := by
          rw [List.mem_union_iff]
          by_cases hf : a ∈ frontier
          · exact .inr (List.mem_filterMap.2 ⟨a, hf, hac⟩)
          · exact .inl (h.followed a ha hf c hac)
        exact hfound c hc m (by omega) b hcb

/-- The locked rows are those of a set of incidents that holds every chain up to the limit. -/
theorem lockMergeClosure_holds {next : UUID → Option UUID} {candidateIds : List UUID}
    {db : AlertStore} {held : List AlertLock} (hgraph : db.pointer = next) :
    (lockMergeClosure candidateIds).Sound GraphKept (fun _ t locked => t.pointer = next ∧
      (∀ id row, locked id = some row → t.store.incidents.get id = some row) ∧
      ∀ a ∈ candidateIds, ∀ n ≤ mergeChainLimit, ∀ b, Hops next n a b →
        locked b = t.store.incidents.get b) held db := by
  unfold lockMergeClosure
  have hread := (@mergeClosure_sound next mergeChainLimit candidateIds candidateIds db held hgraph
    (Explored.start candidateIds)).frame (F := fun _ t => t.pointer = next)
    (fun h hab => hab.pointer.trans h) id hgraph
  refine .bind graphKept_stable (hread.mono ?_) (graphKept_refl held db)
  rintro held₁ s₁ ids ⟨hfound, hgraph₁⟩
  refine .acquire_bind fun s₂ hs₂ t ht => ?_
  have hrow (id : UUID) (hid : id ∈ ids) :
      t.store.incidents.get id = s₂.store.incidents.get id :=
    ht.locked id (List.mem_append_left _ (List.mem_map.2 ⟨id, hid, rfl⟩))
  refine ⟨ht.pointer.trans (hs₂.pointer.trans hgraph₁), fun id row hlocked => ?_,
    fun a ha n hn b hab => ?_⟩
  · dsimp only at hlocked
    split at hlocked
    · next hid => rw [hrow id hid, hlocked]
    · cases hlocked
  · have hb := hfound a ha n hn b hab
    dsimp only
    rw [if_pos hb, hrow b hb]

/-! ## The resolution -/

section

variable {db : AlertStore} {locked : UUID → Option IncidentRow} {id last : UUID}
  {row end_ : IncidentRow}

theorem pointer_of_get (h : db.store.incidents.get id = some row) :
    db.pointer id = row.mergedIntoIncidentId := by
  rw [AlertStore.pointer, h]
  rfl

/-- Following the pointers of rows that hold a chain does not leave them. It ends at the end of the
chain, if that is within the limit. -/
theorem followMerged_spec (hgraph : db.MergeGraph) {limit : ℕ}
    (hheld : ∀ n ≤ limit, ∀ b, Hops db.pointer n id b →
      locked b = db.store.incidents.get b)
    (hrow : db.store.incidents.get id = some row) :
    ∃ last end_, followMerged locked limit id row = .ok (last, end_) ∧
      db.store.incidents.get last = some end_ ∧ (∃ n ≤ limit, Hops db.pointer n id last) ∧
      ∀ n ≤ limit, ∀ root, db.pointer root = none → Hops db.pointer n id root → root = last := by
  induction limit generalizing id row with
  | zero =>
    refine ⟨id, row, rfl, hrow, ⟨0, le_rfl, .here id⟩, fun n hn root _ hroot => ?_⟩
    obtain rfl : n = 0 := Nat.le_zero.1 hn
    exact (Hops.zero_iff.1 hroot).symm
  | succ limit ih =>
    have hpointer := pointer_of_get hrow
    unfold followMerged
    cases hmerged : row.mergedIntoIncidentId with
    | none =>
      rw [hmerged] at hpointer
      exact ⟨id, row, rfl, hrow, ⟨0, Nat.zero_le _, .here id⟩,
        fun n _ root _ hroot => (hroot.of_root hpointer).symm⟩
    | some next =>
      rw [hmerged] at hpointer
      obtain ⟨nextRow, hnext⟩ := Option.isSome_iff_exists.1 (hgraph id next hpointer)
      have hlocked : locked next = some nextRow := by
        rw [hheld 1 (by omega) next (.hop hpointer (.here next)), hnext]
      dsimp only
      rw [hlocked]
      obtain ⟨last, end_, hfollow, hend, ⟨n, hn, hlast⟩, hroots⟩ :=
        ih (fun n hn b hb => hheld (n + 1) (by omega) b (.hop hpointer hb)) hnext
      refine ⟨last, end_, hfollow, hend, ⟨n + 1, by omega, .hop hpointer hlast⟩,
        fun m hm root hroot hchain => ?_⟩
      cases m with
      | zero =>
        obtain rfl := Hops.zero_iff.1 hchain
        rw [hroot] at hpointer
        cases hpointer
      | succ m => exact hroots m (by omega) root hroot ((Hops.succ_iff hpointer).1 hchain)

end

/-- The candidate a resolved one stands for: its chain ends there within the limit, at an incident
that is not merged and is bound to the target. -/
def AlertStore.ChainEnd [AlertNames] (db : AlertStore) (candidate : UUID) (targetId : Option UUID)
    (c : CorrelationCandidate) : Prop :=
  (db.store.incidents.get candidate).isSome = true ∧
    (∃ n ≤ mergeChainLimit, Hops db.pointer n candidate c.incidentId) ∧
    ∃ row, db.store.incidents.get c.incidentId = some row ∧ row.mergedIntoIncidentId = none ∧
      row.targetId = targetId ∧ c.lifecycle = row.lifecycle ∧
      c.createdAt = AlertNames.createdAt c.incidentId

section

variable [AlertNames] {db : AlertStore} {locked : UUID → Option IncidentRow}

/-- One candidate is resolved to the end of its chain, or to nothing. -/
theorem resolveCandidate_spec {candidate : UUID} (targetId : Option UUID) (hgraph : db.MergeGraph)
    (hheld : ∀ n ≤ mergeChainLimit, ∀ b, Hops db.pointer n candidate b →
      locked b = db.store.incidents.get b) :
    ∃ here, resolveCandidate locked targetId candidate = .ok here ∧ here.Nodup ∧
      ∀ c, c ∈ here ↔ db.ChainEnd candidate targetId c := by
  have hlocked := hheld 0 (Nat.zero_le _) candidate (.here candidate)
  unfold resolveCandidate
  rw [hlocked]
  cases hrow : db.store.incidents.get candidate with
  | none =>
    refine ⟨[], rfl, .nil, fun c => iff_of_false List.not_mem_nil ?_⟩
    rintro ⟨hsome, -⟩
    simp [hrow] at hsome
  | some row =>
    obtain ⟨last, end_, hfollow, hend, ⟨n, hn, hlast⟩, hroots⟩ :=
      followMerged_spec hgraph hheld hrow
    dsimp only
    rw [hfollow]
    refine ⟨_, rfl, ?_, fun c => ?_⟩
    · split
      · exact List.nodup_singleton _
      · exact .nil
    · constructor
      · intro hc
        split at hc
        · next hfits =>
          obtain rfl := List.mem_singleton.1 hc
          exact ⟨by simp [hrow], ⟨n, hn, hlast⟩, end_, hend, hfits.1, hfits.2, rfl, rfl⟩
        · cases hc
      · rintro ⟨-, ⟨m, hm, hchain⟩, row', hrow', hroot, htarget, hlifecycle, hcreated⟩
        have hpointer : db.pointer c.incidentId = none := by rw [pointer_of_get hrow', hroot]
        have hid := hroots m hm c.incidentId hpointer hchain
        obtain rfl : row' = end_ := by
          rw [hid, hend] at hrow'
          exact (Option.some.inj hrow').symm
        rw [if_pos ⟨hroot, htarget⟩, List.mem_singleton]
        cases c
        simp_all

/-- The candidates are resolved to the ends of their chains, each of them once. -/
theorem resolveMerged_spec (targetId : Option UUID) (hgraph : db.MergeGraph) {candidates : List UUID}
    (hheld : ∀ a ∈ candidates, ∀ n ≤ mergeChainLimit, ∀ b, Hops db.pointer n a b →
      locked b = db.store.incidents.get b) :
    ∃ resolved, resolveMerged locked targetId candidates = .ok resolved ∧ resolved.Nodup ∧
      ∀ c, c ∈ resolved ↔ ∃ candidate ∈ candidates, db.ChainEnd candidate targetId c := by
  induction candidates with
  | nil => exact ⟨[], rfl, .nil, by simp⟩
  | cons candidate rest ih =>
    obtain ⟨here, hhere, hnodup, hmem⟩ := resolveCandidate_spec targetId hgraph
      (hheld candidate List.mem_cons_self)
    obtain ⟨others, hothers, hnodup', hmem'⟩ := ih fun a ha => hheld a (List.mem_cons_of_mem _ ha)
    refine ⟨here ++ others.filter (· ∉ here), ?_, ?_, fun c => ?_⟩
    · rw [resolveMerged, hhere, hothers]
      rfl
    · refine List.nodup_append.2 ⟨hnodup, hnodup'.filter _, fun a ha b hb hab => ?_⟩
      have hout := (List.mem_filter.1 hb).2
      rw [← hab] at hout
      simp [ha] at hout
    · rw [List.mem_append, List.mem_filter, hmem']
      simp only [List.mem_cons, exists_eq_or_imp, hmem, decide_eq_true_eq]
      tauto

end

/-- The read and the lock refuse nothing. -/
theorem lockMergeClosure_alone (candidateIds : List UUID) (db : AlertStore) :
    ∃ locked, (lockMergeClosure candidateIds).alone db = .ok locked := by
  have hread (limit : ℕ) (ids frontier : List UUID) :
      ∃ found, (mergeClosure limit ids frontier).alone db = .ok found := by
    induction limit generalizing ids frontier with
    | zero => exact ⟨ids, rfl⟩
    | succ limit ih =>
      unfold mergeClosure
      split
      · exact ⟨ids, rfl⟩
      · exact ih _ _
  obtain ⟨found, hfound⟩ := hread mergeChainLimit candidateIds candidateIds
  exact ⟨_, by rw [lockMergeClosure, Program.alone_bind, hfound]; rfl⟩

/-- **A correlation resolves its candidates.** While the merge graph stays as it is, the candidates
(or some of them) are resolved from the locked rows without a retry, to the ends of their chains
that are reached within the limit, unmerged and bound to the target. -/
theorem correlation_resolved [AlertNames] (candidateIds : List UUID) (db : AlertStore)
    (held : List AlertLock) (hgraph : db.MergeGraph) :
    (∃ locked, (lockMergeClosure candidateIds).alone db = .ok locked) ∧
    (lockMergeClosure candidateIds).Sound GraphKept (fun _ t locked =>
      ∀ candidates ⊆ candidateIds, ∀ targetId,
        ∃ resolved, resolveMerged locked targetId candidates = .ok resolved ∧
          (resolved.map CorrelationCandidate.incidentId).Nodup ∧
          ∀ c, c ∈ resolved ↔ ∃ candidate ∈ candidates, t.ChainEnd candidate targetId c)
      held db := by
  refine ⟨lockMergeClosure_alone candidateIds db, ?_⟩
  have hlock := (@lockMergeClosure_holds _ candidateIds db held rfl).frame
    (F := fun _ t => AlertStore.MergeGraph t) (fun h hab => hab.mergeGraph h) id hgraph
  refine hlock.mono ?_
  rintro held₁ t locked ⟨⟨hpointer, -, hheld⟩, hgraph₁⟩ candidates hsub targetId
  rw [← hpointer] at hheld
  obtain ⟨resolved, hresolved, hnodup, hmem⟩ := resolveMerged_spec targetId hgraph₁
    fun a ha => hheld a (hsub ha)
  refine ⟨resolved, hresolved, (List.nodup_map_iff_inj_on hnodup).2 fun c hc c' hc' hid => ?_, hmem⟩
  -- what an incident stands for is read off its row
  obtain ⟨-, -, -, -, row, hrow, -, -, hlifecycle, hcreated⟩ := (hmem c).1 hc
  obtain ⟨-, -, -, -, row', hrow', -, -, hlifecycle', hcreated'⟩ := (hmem c').1 hc'
  rw [hid, hrow'] at hrow
  obtain rfl := Option.some.inj hrow
  cases c
  cases c'
  simp_all

namespace Scenario

/-- An incident of target 7, and the incident it was merged into. -/
def mergedIncident (mergedInto : Option UUID) : IncidentRow :=
  { intakeKey := "", state := .running, currentRunId := none, targetId := some 7, priority := 2
    relatedIncidentId := none, mergedIntoIncidentId := mergedInto }

/-- Two chains with a shared tail, `1 → 2 → 3` and `4 → 2 → 3`, and a cycle `5 → 6 → 5`. -/
def mergedStore : AlertStore :=
  let merged := [(1, some 2), (2, some 3), (3, none), (4, some 2), (5, some 6), (6, some 5)]
  { store := { incidents := merged.foldl (fun t p => t.insert p.1 (mergedIncident p.2)) ∅ } }

theorem mergedStore_graph : mergedStore.MergeGraph := by
  intro id next h
  have hmem : id ∈ [1, 2, 3, 4, 5, 6] := by
    by_contra hout
    simp only [List.mem_cons, not_or, List.not_mem_nil, not_false_eq_true, and_true] at hout
    simp [AlertStore.pointer, mergedStore, Table.get_insert, hout] at h
  have hall : ∀ id ∈ [1, 2, 3, 4, 5, 6], (mergedStore.pointer id).all fun next =>
      (mergedStore.store.incidents.get next).isSome := by decide
  have hnext := hall id hmem
  rwa [h] at hnext

end Scenario

open Scenario in
theorem correlation_resolved_shared :
    (∃ locked, (lockMergeClosure [1, 4, 5]).alone mergedStore = .ok locked) ∧
    (lockMergeClosure [1, 4, 5]).Sound GraphKept (fun _ t locked =>
      ∀ candidates ⊆ [1, 4, 5], ∀ targetId,
        ∃ resolved, resolveMerged locked targetId candidates = .ok resolved ∧
          (resolved.map CorrelationCandidate.incidentId).Nodup ∧
          ∀ c, c ∈ resolved ↔ ∃ candidate ∈ candidates, t.ChainEnd candidate targetId c)
      [] mergedStore :=
  correlation_resolved [1, 4, 5] mergedStore [] mergedStore_graph

end OpsPilot
