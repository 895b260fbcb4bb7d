import OpsPilot.Investigation.Transcript

/-!
# The last round of a rebuilt transcript

A resumed attempt takes up what the last committed round left open (`Transcript.last_round`). The
rows of a Run are in the order of their control generations; a round of an older generation than the
current one is history.

* `rebuildStep_last`: what one row does to the last round.
* **`lastRound_spec`**: the last round is that of the last row of a round if this is of the current
  generation, unless a compaction was refused after it.
-/

namespace OpsPilot

/-- A row of a round. -/
def StoredStep.isRound (step : StoredStep) : Bool :=
  !step.late && step.response.isObject && decide (step.response.get "kind" = .null)

/-- The rows of rounds. -/
def roundRows (steps : List StoredStep) : List StoredStep := steps.filter StoredStep.isRound

theorem roundRows_append (steps rest : List StoredStep) :
    roundRows (steps ++ rest) = roundRows steps ++ roundRows rest := List.filter_append ..

/-- The generations of the rows that count are those of the Run so far, in order. -/
structure Ordered (generation : ℕ) (steps : List StoredStep) : Prop where
  rising : (steps.filter fun step => !step.late).Pairwise fun a b =>
    a.controlGeneration ≤ b.controlGeneration
  bounded : ∀ step ∈ steps, step.late = false → step.controlGeneration ≤ generation

/-- The verdict a rebuild takes from the row of a round. -/
def CommittedRound.OfRow (round : CommittedRound) (step : StoredStep) : Prop :=
  ∃ calls, validateToolCalls (step.response.get "assistant") = .ok calls ∧
    round = committedRound step.response calls false

/-- What a rebuild of these rows has found of the last round. -/
structure Rebuilt (generation : ℕ) (steps : List StoredStep) (t : RebuildState) : Prop where
  lastStepId : t.lastStepId = (roundRows steps).getLast?.map StoredStep.stepId
  /-- A round that is still open is that of the last row, or a refused compaction. -/
  opened : ∀ round, t.lastRound = some round → round.concluded = false →
    round.rejection.isSome ∨ ∃ step, (roundRows steps).getLast? = some step ∧
      step.controlGeneration = generation ∧ round.OfRow step
  /-- The last row leaves its round open, or a compaction was refused since. -/
  current : ∀ step, (roundRows steps).getLast? = some step →
    step.controlGeneration = generation → ∃ round, t.lastRound = some round ∧
      round.concluded = false ∧ (round.rejection.isSome ∨ round.OfRow step)

section

variable [FactTexts] [ReportTexts] [DigitTexts] {scope : RebuildScope} {s s' : RebuildState}
  {step : StoredStep}

omit [DigitTexts] in
theorem rebuildResults_last (s : RebuildState) (answered : List (ToolCall × Json)) :
    (rebuildResults scope s answered).1.lastRound = s.lastRound ∧
      (rebuildResults scope s answered).1.lastStepId = s.lastStepId := by
  induction answered generalizing s with
  | nil => exact ⟨rfl, rfl⟩
  | cons answer answered ih =>
    obtain ⟨call, view⟩ := answer
    rw [rebuildResults]
    dsimp only
    rw [(ih _).1, (ih _).2]
    unfold rebuildResult
    dsimp only
    split <;> exact ⟨rfl, rfl⟩

omit [DigitTexts] in
/-- A compaction that is refused is a round that was rejected; another one changes nothing here. -/
theorem rebuildCompaction_last (h : rebuildCompaction scope s step = .ok s') :
    s'.lastStepId = s.lastStepId ∧ (s'.lastRound = s.lastRound ∨
      s'.lastRound = some ⟨none, false, some "COMPACTION_FAILED", false, none,
        step.controlGeneration ≠ scope.history.controlGeneration⟩) := by
  unfold rebuildCompaction at h
  obtain ⟨-, -, h⟩ := bind_eq_ok.1 h
  dsimp only at h
  split at h
  · obtain rfl := Except.ok.inj h
    exact ⟨rfl, .inr rfl⟩
  · obtain ⟨-, -, h⟩ := bind_eq_ok.1 h
    obtain ⟨folded, -, h⟩ := bind_eq_ok.1 h
    obtain ⟨-, -, h⟩ := bind_eq_ok.1 h
    obtain ⟨revision, -, h⟩ := bind_eq_ok.1 h
    obtain ⟨toSegment, -, h⟩ := bind_eq_ok.1 h
    obtain ⟨-, -, h⟩ := bind_eq_ok.1 h
    obtain ⟨summary, -, h⟩ := bind_eq_ok.1 h
    obtain ⟨-, -, h⟩ := bind_eq_ok.1 h
    obtain ⟨-, -, h⟩ := bind_eq_ok.1 h
    obtain rfl := Except.ok.inj h
    exact ⟨rfl, .inl rfl⟩

/-- A round is the last one, unless it is dropped with the results that are missing: then it is of
an older generation. -/
theorem rebuildRound_last (h : rebuildRound scope s step = .ok s') :
    s'.lastStepId = some step.stepId ∧ ∃ calls,
      validateToolCalls (step.response.get "assistant") = .ok calls ∧
      (s'.lastRound = some (committedRound step.response calls
          (¬ step.controlGeneration = scope.history.controlGeneration)) ∨
        step.controlGeneration ≠ scope.history.controlGeneration ∧
          s'.lastRound = s.lastRound) := by
  unfold rebuildRound at h
  obtain ⟨parsed, -, h⟩ := bind_eq_ok.1 h
  obtain ⟨-, -, h⟩ := bind_eq_ok.1 h
  obtain ⟨-, -, h⟩ := bind_eq_ok.1 h
  obtain ⟨-, -, h⟩ := bind_eq_ok.1 h
  obtain ⟨calls, hcalls, h⟩ := bind_eq_ok.1 h
  obtain ⟨-, -, h⟩ := bind_eq_ok.1 h
  dsimp only at h
  have hcalls := mapError_eq_ok.1 hcalls
  split at h
  · obtain rfl := Except.ok.inj h
    exact ⟨rfl, calls, hcalls, .inl rfl⟩
  · obtain ⟨results, -, h⟩ := bind_eq_ok.1 h
    split at h
    · obtain ⟨hold, h⟩ := refuse_bind_eq_ok.1 h
      obtain rfl := Except.ok.inj h
      exact ⟨rfl, calls, hcalls, .inr ⟨hold, rfl⟩⟩
    · obtain ⟨group, -, h⟩ := bind_eq_ok.1 h
      obtain rfl := Except.ok.inj h
      refine ⟨?_, calls, hcalls, .inl ?_⟩
      · exact (rebuildResults_last _ _).2
      · exact (rebuildResults_last _ _).1

/-! ## One row -/

variable {generation : ℕ} {steps : List StoredStep} {t : RebuildState}

omit [FactTexts] [ReportTexts] [DigitTexts] in
theorem Ordered.init (h : Ordered generation (steps ++ [step])) : Ordered generation steps := by
  obtain ⟨hrising, hbounded⟩ := h
  rw [List.filter_append, List.pairwise_append] at hrising
  exact ⟨hrising.1, fun step hstep => hbounded step (List.mem_append_left _ hstep)⟩

omit [FactTexts] [ReportTexts] [DigitTexts] in
theorem Ordered.succ (h : Ordered generation steps) :
    Ordered (generation + 1) steps :=
  ⟨h.rising, fun step hstep hlate => (h.bounded step hstep hlate).trans (Nat.le_succ _)⟩

omit [FactTexts] [ReportTexts] [DigitTexts] in
/-- A row of the current generation, or one that does not count. -/
theorem Ordered.append (h : Ordered generation steps)
    (hstep : step.late = false → step.controlGeneration = generation) :
    Ordered generation (steps ++ [step]) := by
  constructor
  · rw [List.filter_append, List.pairwise_append]
    refine ⟨h.rising, ?_, ?_⟩
    · exact (List.pairwise_singleton _ _).filter _
    · intro a ha b hb
      obtain ⟨hb, hlate⟩ := List.mem_filter.1 hb
      obtain rfl := List.mem_singleton.1 hb
      obtain ⟨ha, halate⟩ := List.mem_filter.1 ha
      rw [hstep (by simpa using hlate)]
      exact h.bounded a ha (by simpa using halate)
  · intro a ha hlate
    rcases List.mem_append.1 ha with ha | ha
    · exact h.bounded a ha hlate
    · obtain rfl := List.mem_singleton.1 ha
      exact (hstep hlate).le

omit [FactTexts] [ReportTexts] [DigitTexts] in
/-- After a round of the current generation every row that counts is of it. -/
theorem Ordered.current_of_last (h : Ordered generation (steps ++ [step]))
    (hlate : step.late = false) {last : StoredStep} (hlast : (roundRows steps).getLast? = some last)
    (hcurrent : last.controlGeneration = generation) : step.controlGeneration = generation := by
  have hmem := List.mem_of_getLast? hlast
  rw [roundRows, List.mem_filter, StoredStep.isRound] at hmem
  simp only [Bool.and_eq_true, Bool.not_eq_true'] at hmem
  have hrising := h.rising
  rw [List.filter_append, List.pairwise_append] at hrising
  have hle := hrising.2.2 last (List.mem_filter.2 ⟨hmem.1, by rw [hmem.2.1.1]; rfl⟩) step
    (List.mem_filter.2 ⟨List.mem_singleton_self step, by rw [hlate]; rfl⟩)
  have hbounded := h.bounded step (List.mem_append_right _ (List.mem_singleton_self step)) hlate
  omega

omit [FactTexts] [ReportTexts] [DigitTexts] in
/-- A row that is not one of a round. What it leaves open it left open before or rejects, and a round
of the current generation stays open. -/
theorem Rebuilt.other (h : Rebuilt generation steps t) (hround : step.isRound = false)
    {t' : RebuildState} (hid : t'.lastStepId = t.lastStepId)
    (hopened : ∀ round, t'.lastRound = some round → round.concluded = false →
      round.rejection.isSome ∨ t.lastRound = some round)
    (hcurrent : ∀ last, (roundRows steps).getLast? = some last →
      last.controlGeneration = generation → t'.lastRound = t.lastRound ∨
        ∃ round, t'.lastRound = some round ∧ round.concluded = false ∧ round.rejection.isSome) :
    Rebuilt generation (steps ++ [step]) t' := by
  have hrows : roundRows (steps ++ [step]) = roundRows steps := by
    rw [roundRows_append, roundRows, roundRows, List.filter_cons_of_neg (by rw [hround]; simp)]
    exact List.append_nil _
  constructor
  · rw [hid, hrows, h.lastStepId]
  · intro round hlast hopen
    rw [hrows]
    rcases hopened round hlast hopen with hrejected | hlast
    · exact .inl hrejected
    · exact h.opened round hlast hopen
  · intro last hlast hgeneration
    rw [hrows] at hlast
    rcases hcurrent last hlast hgeneration with hsame | ⟨round, hround, hopen, hrejected⟩
    · rw [hsame]
      exact h.current last hlast hgeneration
    · exact ⟨round, hround, hopen, .inl hrejected⟩

/-- **One row.** -/
theorem rebuildStep_last (horder : Ordered generation (steps ++ [step]))
    (hgeneration : scope.history.controlGeneration = generation)
    (hs : Rebuilt generation steps s) (h : rebuildStep scope s step = .ok s') :
    Rebuilt generation (steps ++ [step]) s' := by
  -- a row that leaves the last round as it is
  have hskip : ∀ {t : RebuildState}, step.isRound = false → t.lastStepId = s.lastStepId →
      t.lastRound = s.lastRound → Rebuilt generation (steps ++ [step]) t :=
    fun hround hid hlast => hs.other hround hid (fun _ hopened _ => .inr (hlast ▸ hopened))
      fun _ _ _ => .inl hlast
  unfold rebuildStep at h
  split at h
  · next hlate =>
    obtain rfl := Except.ok.inj h
    exact hskip (by rw [StoredStep.isRound, hlate]; rfl) rfl rfl
  · next hlate =>
    rw [Bool.not_eq_true] at hlate
    obtain ⟨hobject, h⟩ := refuse_bind_eq_ok.1 h
    rw [not_or, not_not, not_not] at hobject
    split at h
    · next hkind =>
      obtain rfl := Except.ok.inj h
      have hround : step.isRound = false := by simp [StoredStep.isRound, hkind]
      unfold rebuildConclusion
      split
      · exact hskip hround rfl rfl
      · split
        · exact hskip hround rfl rfl
        · next hold =>
          -- a conclusion of an older generation: no round before it is of the current one
          refine hs.other hround rfl (fun round hopened hopen => ?_) fun last hlast hcurrent => ?_
          · obtain ⟨_, -, rfl⟩ := Option.map_eq_some_iff.1 hopened
            cases hopen
          · exact absurd ((horder.current_of_last hlate hlast hcurrent).trans hgeneration.symm) hold
    · next kind hkind =>
      dsimp only at h
      split at h
      · next hcompaction =>
        have hround : step.isRound = false := by simp [StoredStep.isRound, hcompaction]
        obtain ⟨hid, hlast | hlast⟩ := rebuildCompaction_last h
        · exact hskip hround hid hlast
        · refine hs.other hround hid (fun round hopened _ => .inl ?_) fun last hrow hcurrent => ?_
          · rw [hlast] at hopened
            obtain rfl := Option.some.inj hopened
            rfl
          · refine .inr ⟨_, hlast, ?_, rfl⟩
            rw [decide_eq_false_iff_not, not_not, hgeneration]
            exact horder.current_of_last hlate hrow hcurrent
      · obtain ⟨hnull, h⟩ := refuse_bind_eq_ok.1 h
        rw [not_not] at hnull
        have hround : step.isRound = true := by simp [StoredStep.isRound, hlate, hobject.2, hnull]
        have hlastRow : (roundRows (steps ++ [step])).getLast? = some step := by
          rw [roundRows_append, roundRows, roundRows, List.filter_cons_of_pos hround,
            List.filter_nil, List.getLast?_concat]
        obtain ⟨hid, calls, hcalls, hlast⟩ := rebuildRound_last h
        rw [hgeneration] at hlast
        refine ⟨by rw [hid, hlastRow]; rfl, fun round hopened hopen => ?_, fun last hrow hcurrent => ?_⟩
        · rcases hlast with hlast | ⟨hold, hlast⟩
          · rw [hlast] at hopened
            obtain rfl := Option.some.inj hopened
            have hcurrent : step.controlGeneration = generation := by
              simpa [committedRound] using hopen
            refine .inr ⟨step, hlastRow, hcurrent, calls, hcalls, ?_⟩
            simp [hcurrent]
          · -- what was left open before a dropped round was rejected
            rw [hlast] at hopened
            rcases hs.opened round hopened hopen with hrejected | ⟨last, hrow, hcurrent, -⟩
            · exact .inl hrejected
            · exact absurd (horder.current_of_last hlate hrow hcurrent) hold
        · obtain rfl := Option.some.inj (hlastRow.symm.trans hrow)
          rcases hlast with hlast | ⟨hold, -⟩
          · refine ⟨_, hlast, ?_, .inr ⟨calls, hcalls, ?_⟩⟩
            · simp [committedRound, hcurrent]
            · simp [hcurrent]
          · exact absurd hcurrent hold

/-- The rows one after the other. -/
theorem foldlM_rebuildStep_last (horder : Ordered generation steps)
    (hgeneration : scope.history.controlGeneration = generation)
    (h : steps.foldlM (rebuildStep scope) scope.start = .ok t) : Rebuilt generation steps t := by
  induction steps using List.reverseRecOn generalizing t with
  | nil =>
    obtain rfl := Except.ok.inj h
    constructor
    · rfl
    · rintro round ⟨⟩
    · rintro step ⟨⟩
  | append_singleton steps step ih =>
    rw [List.foldlM_append] at h
    obtain ⟨s, hs, h⟩ := bind_eq_ok.1 h
    rw [List.foldlM_cons] at h
    obtain ⟨s', hstep, h⟩ := bind_eq_ok.1 h
    obtain rfl := Except.ok.inj h
    exact rebuildStep_last horder hgeneration (ih horder.init hs) hstep

/-- **What a rebuild finds of the last round.** -/
theorem lastRound_spec {history : StoredHistory} {runId : String}
    {authorizedTargets : Finset String} {input : Option InputSnapshot}
    (hsorted : sortedSteps history.steps = history.steps)
    (horder : Ordered history.controlGeneration history.steps)
    (h : rebuildTranscript history runId authorizedTargets input = .ok t) :
    Rebuilt history.controlGeneration history.steps t := by
  obtain ⟨-, -, h⟩ := bind_eq_ok.1 h
  obtain ⟨input, -, h⟩ := bind_eq_ok.1 h
  dsimp only at h
  rw [hsorted] at h
  exact foldlM_rebuildStep_last horder rfl h

end

end OpsPilot
