import OpsPilot.System.Lifecycles
import OpsPilot.System.Replay
import OpsPilot.System.Simulation

/-!
# Observation sessions over whole runs

Samples, sweeps, withdrawals and suspensions race for the same session row, and each may end it.

* `Fold.Tracks`: the watermarks of a session are those of its newest adopted sample.
* `SessionRow.Lawful`: the counters and endings of a session, against its samples and endings.
* `SessionRow.Progress`: what a run makes of a session; one that ended never moves again.
* **`observation_safety`**: the sessions of every reachable state, along every run, and what an
  observation needs to resolve an incident.
-/

namespace OpsPilot

open Store

/-! ## One session -/

/-- The adopted samples among those of a session, newest first. -/
def adopted (samples : List (UUID × SampleRow)) : List SampleRow :=
  (samples.map Prod.snd).filter (·.accepted)

variable {id sampleId jobId i : UUID} {r : SampleRow} {c : Conditions}

theorem adopted_cons {samples : List (UUID × SampleRow)} (h : r.accepted = true) :
    adopted ((id, r) :: samples) = r :: adopted samples := by
  rw [adopted, List.map_cons, List.filter_cons_of_pos h, adopted]

theorem adopted_cons_rejected {samples : List (UUID × SampleRow)} (h : r.accepted = false) :
    adopted ((id, r) :: samples) = adopted samples := by
  rw [adopted, List.map_cons, List.filter_cons_of_neg (by simp [h]), adopted]

/-- The watermarks are those of the newest adopted sample; from one adopted sample to the next the
sequence goes up, and the window does not go back. -/
structure Fold.Tracks (fold : Fold) (samples : List SampleRow) : Prop where
  count : fold.adoptedCount = samples.length
  ordered : samples.Pairwise fun new old =>
    old.sequence < new.sequence ∧ old.window.end ≤ new.window.end
  sequence : fold.adoptedSequence = (samples.head?.map (·.sequence)).getD 0
  window : fold.adoptedWindowEnd = samples.head?.map (·.window.end)

namespace Fold.Tracks

variable {fold fold' : Fold} {samples : List SampleRow}

/-- No adopted sample is ahead of the watermarks. -/
theorem bounds (h : fold.Tracks samples) (hr : r ∈ samples) :
    r.sequence ≤ fold.adoptedSequence ∧ ∃ w ∈ fold.adoptedWindowEnd, r.window.end ≤ w := by
  obtain ⟨-, hordered, hsequence, hwindow⟩ := h
  cases samples with
  | nil => cases hr
  | cons new old =>
    rw [hsequence, hwindow]
    rcases List.mem_cons.1 hr with rfl | hr
    · exact ⟨le_rfl, _, rfl, le_rfl⟩
    · obtain ⟨hlt, hle⟩ := List.rel_of_pairwise_cons hordered hr
      exact ⟨hlt.le, _, rfl, hle⟩

/-- An adopted sample moves the watermarks to its own. -/
theorem adopt (h : fold.Tracks samples) (hsequence : fold.adoptedSequence < r.sequence)
    (hwindow : ∀ w ∈ fold.adoptedWindowEnd, w ≤ r.window.end)
    (hcount' : fold'.adoptedCount = fold.adoptedCount + 1)
    (hsequence' : fold'.adoptedSequence = r.sequence)
    (hwindow' : fold'.adoptedWindowEnd = some r.window.end) : fold'.Tracks (r :: samples) where
  count := by rw [hcount', h.count, List.length_cons]
  ordered := by
    refine List.pairwise_cons.2 ⟨fun old hold => ?_, h.ordered⟩
    obtain ⟨hle, w, hw, hend⟩ := h.bounds hold
    exact ⟨hle.trans_lt hsequence, hend.trans (hwindow w hw)⟩
  sequence := hsequence'
  window := hwindow'

/-- The watermarks alone count. -/
theorem congr (h : fold.Tracks samples) (hcount : fold'.adoptedCount = fold.adoptedCount)
    (hsequence : fold'.adoptedSequence = fold.adoptedSequence)
    (hwindow : fold'.adoptedWindowEnd = fold.adoptedWindowEnd) : fold'.Tracks samples :=
  ⟨hcount.trans h.count, h.ordered, hsequence.trans h.sequence, hwindow.trans h.window⟩

end Fold.Tracks

namespace SessionRow

/-- The session holds no sampling job. -/
structure Idle (row : SessionRow) : Prop where
  job : row.activeSampleJobId = none
  sequence : row.activeSampleSequence = none
  dueAt : row.activeSampleDueAt = none
  owner : row.activeSampleOwner = none
  lease : row.activeSampleLeaseUntil = none

/-- The counters of a session are those of its adopted samples and within its budget; it has no
ending while it is authorized, and afterwards exactly one, and no job. -/
structure Lawful (row : SessionRow) (samples : List (UUID × SampleRow))
    (endings : List EndingRow) : Prop where
  tracks : row.fold.Tracks (adopted samples)
  budget : row.adoptedCount ≤ row.maxSamples
  room : row.state = .authorized → row.adoptedCount < row.maxSamples
  running : row.state = .authorized → endings = []
  ended : row.state ≠ .authorized →
    ∃ e, endings = [e] ∧ row.endedReason = some e.endedReason ∧ row.Idle

variable {row row' : SessionRow} {samples : List (UUID × SampleRow)} {endings : List EndingRow}

theorem ended_idle (row : SessionRow) (reason : EndedReason) (watermark : Option Watermark) :
    (row.ended reason watermark).Idle :=
  ⟨rfl, rfl, rfl, rfl, rfl⟩

namespace Lawful

theorem fresh (hstanding : row.fold = {}) (hbudget : 0 < row.maxSamples) : row.Lawful [] [] := by
  have hcount : row.adoptedCount = 0 := congrArg Fold.adoptedCount hstanding
  have hstate : row.state = .authorized := congrArg Fold.state hstanding
  refine ⟨?_, ?_, fun _ => hcount ▸ hbudget, fun _ => rfl, fun hnot => absurd hstate hnot⟩
  · rw [hstanding]
    exact ⟨rfl, List.Pairwise.nil, rfl, rfl⟩
  · rw [hcount]
    exact Nat.zero_le _

/-- The session ends without a sample. -/
theorem closed (h : row.Lawful samples endings) (hstate : row.state = .authorized)
    (e : EndingRow) : (row.ended e.endedReason none).Lawful samples (e :: endings) where
  tracks := h.tracks.congr rfl rfl rfl
  budget := h.budget
  room hauthorized := absurd hauthorized (endedState_ne_authorized _)
  running hauthorized := absurd hauthorized (endedState_ne_authorized _)
  ended _ := by
    rw [h.running hstate]
    exact ⟨e, rfl, rfl, row.ended_idle e.endedReason none⟩

/-- A write to the job slot of an authorized session. -/
theorem leased (h : row.Lawful samples endings) (hstate : row.state = .authorized)
    (hfold : row'.fold = row.fold) (hterms : row'.terms = row.terms) :
    row'.Lawful samples endings := by
  have hcount : row'.adoptedCount = row.adoptedCount := congrArg Fold.adoptedCount hfold
  have hmax : row'.maxSamples = row.maxSamples := congrArg Terms.maxSamples hterms
  have hstate' : row'.state = .authorized := (congrArg Fold.state hfold).trans hstate
  refine ⟨hfold ▸ h.tracks, ?_, fun _ => ?_, fun _ => h.running hstate,
    fun hnot => absurd hstate' hnot⟩
  · rw [hcount, hmax]
    exact h.budget
  · rw [hcount, hmax]
    exact h.room hstate

/-- A sample is submitted for the session. -/
theorem submitted (h : row.Lawful samples endings) {sessionId : UUID} {sample : HealthSample}
    {stored : SampleRow} {verdict : Verdict} {new : List EndingRow}
    (hjudged : verdict = judge sessionId row.terms row.fold sample c)
    (hlease : c.leaseValid = true → row.activeSampleOwner.isSome = true)
    (haccepted : stored.accepted = verdict.decision.accepted)
    (hsequence : stored.sequence = sample.sequence) (hwindow : stored.window = sample.window)
    (houtcome : Outcome row c verdict jobId row' new) :
    row'.Lawful ((sampleId, stored) :: samples) (new ++ endings) := by
  have hopen : c.leaseValid = true → row.state = .authorized := by
    intro hvalid
    by_contra hnot
    obtain ⟨e, -, -, hidle⟩ := h.ended hnot
    have howner := hlease hvalid
    rw [hidle.owner] at howner
    cases howner
  cases hadopted : verdict.decision.accepted with
  | true =>
    have hlist : adopted ((sampleId, stored) :: samples) = stored :: adopted samples :=
      adopted_cons (haccepted.trans hadopted)
    have hverdict : Adopted row.terms row.fold sample c verdict := by
      rw [hjudged] at hadopted ⊢
      exact judge_adopted hadopted
    have hstate : row.state = .authorized := hverdict.state
    obtain ⟨since, hmoved⟩ := hverdict.moved
    have htracks : ∀ {fold : Fold}, fold.adoptedCount = verdict.fold.adoptedCount →
        fold.adoptedSequence = verdict.fold.adoptedSequence →
        fold.adoptedWindowEnd = verdict.fold.adoptedWindowEnd →
        fold.Tracks (adopted ((sampleId, stored) :: samples)) := by
      intro fold hcount' hsequence' hwindow'
      rw [hmoved] at hcount' hsequence' hwindow'
      rw [hlist]
      refine h.tracks.adopt ?_ ?_ hcount' ?_ ?_
      · rw [hsequence]
        exact hverdict.sequence
      · rw [hwindow]
        exact hverdict.window
      · rw [hsequence', hsequence]
        rfl
      · rw [hwindow', hwindow]
        rfl
    have hcount : verdict.fold.adoptedCount = row.adoptedCount + 1 := by
      rw [hmoved]
      rfl
    have hbudget : verdict.fold.adoptedCount ≤ row.maxSamples := by
      rw [hcount]
      exact h.room hstate
    cases houtcome with
    | @ended e hended =>
      have hwindow' : (row.ended e.endedReason (some verdict.watermark)).adoptedWindowEnd =
          verdict.fold.adoptedWindowEnd := by
        simp only [SessionRow.ended, Verdict.watermark, Option.bind_some]
        rw [hmoved]
        rfl
      refine ⟨htracks rfl rfl hwindow', hbudget, fun hauthorized => ?_, fun hauthorized => ?_,
        fun _ => ?_⟩
      · exact absurd hauthorized (endedState_ne_authorized _)
      · exact absurd hauthorized (endedState_ne_authorized _)
      · rw [h.running hstate]
        exact ⟨e, rfl, rfl, row.ended_idle _ _⟩
    | advanced hunended =>
      refine ⟨htracks rfl rfl rfl, hbudget, fun _ => ?_, fun _ => h.running hstate,
        fun hnot => absurd hstate hnot⟩
      have hroom := hverdict.room hunended
      exact (congrArg (· < row.maxSamples) hcount).mpr hroom
    | postponed _ hrejected => rw [hrejected] at hadopted; cases hadopted
    | filed _ hrejected => rw [hrejected] at hadopted; cases hadopted
  | false =>
    have hlist : adopted ((sampleId, stored) :: samples) = adopted samples :=
      adopted_cons_rejected (haccepted.trans hadopted)
    have hverdict := hadopted
    rw [hjudged] at hverdict
    obtain ⟨hends, hfold⟩ := judge_rejected hverdict
    rw [← hjudged] at hends hfold
    cases houtcome with
    | @ended e hended =>
      have hstate : row.fold.state = .authorized := by
        by_contra hnot
        rw [if_neg hnot, hended] at hends
        cases hends
      have hwatermark : (row.ended e.endedReason (some verdict.watermark)).fold =
          (row.ended e.endedReason none).fold := by
        simp only [SessionRow.fold, SessionRow.ended, Verdict.watermark, hfold, Option.bind_some,
          Option.bind_none, Option.map_some, Option.map_none, Option.getD_some, Option.getD_none,
          Option.none_or, Option.or_self]
      have hclosed := h.closed hstate e
      refine ⟨?_, ?_, fun hauthorized => ?_, fun hauthorized => ?_, fun _ => ?_⟩
      · rw [hlist, hwatermark]
        exact hclosed.tracks
      · exact (congrArg Fold.adoptedCount hwatermark).trans_le hclosed.budget
      · exact absurd hauthorized (endedState_ne_authorized _)
      · exact absurd hauthorized (endedState_ne_authorized _)
      · rw [h.running hstate]
        exact ⟨e, rfl, rfl, row.ended_idle _ _⟩
    | advanced _ haccepted => rw [haccepted] at hadopted; cases hadopted
    | @postponed dueAt _ _ hvalid =>
      have hkept : (SessionRow.postponed row dueAt).Lawful samples endings :=
        h.leased (hopen hvalid) rfl rfl
      exact ⟨hlist ▸ hkept.tracks, hkept.budget, hkept.room, hkept.running, hkept.ended⟩
    | filed => exact ⟨hlist ▸ h.tracks, h.budget, h.room, h.running, h.ended⟩

end Lawful

/-- What later writes make of a session: the watermarks go up only, and after its end it never
changes again. -/
structure Progress (r r' : SessionRow) : Prop where
  sequence : r.adoptedSequence ≤ r'.adoptedSequence
  window : ∀ w ∈ r.adoptedWindowEnd, ∃ w' ∈ r'.adoptedWindowEnd, w ≤ w'
  count : r.adoptedCount ≤ r'.adoptedCount
  ended : r.state ≠ .authorized → r' = r

namespace Progress

theorem refl (r : SessionRow) : r.Progress r :=
  ⟨le_rfl, fun w hw => ⟨w, hw, le_rfl⟩, le_rfl, fun _ => rfl⟩

theorem trans {a b c : SessionRow} (h : a.Progress b) (h' : b.Progress c) : a.Progress c where
  sequence := h.sequence.trans h'.sequence
  window w hw := by
    obtain ⟨v, hv, hle⟩ := h.window w hw
    obtain ⟨u, hu, hle'⟩ := h'.window v hv
    exact ⟨u, hu, hle.trans hle'⟩
  count := h.count.trans h'.count
  ended hnot := by
    obtain rfl := h.ended hnot
    exact h'.ended hnot

/-- A write that moves no watermark of an authorized session. -/
theorem of_watermarks (hstate : row.state = .authorized)
    (hsequence : row'.adoptedSequence = row.adoptedSequence)
    (hwindow : row'.adoptedWindowEnd = row.adoptedWindowEnd)
    (hcount : row'.adoptedCount = row.adoptedCount) : row.Progress row' :=
  ⟨hsequence.ge, fun w hw => ⟨w, hwindow ▸ hw, le_rfl⟩, hcount.ge, fun hnot => absurd hstate hnot⟩

/-- What the samples of a session adopt only adds to its watermarks. -/
theorem submitted (h : row.Lawful samples endings) {sessionId : UUID} {sample : HealthSample}
    {verdict : Verdict} {new : List EndingRow}
    (hjudged : verdict = judge sessionId row.terms row.fold sample c)
    (hlease : c.leaseValid = true → row.activeSampleOwner.isSome = true)
    (houtcome : Outcome row c verdict jobId row' new) : row.Progress row' := by
  cases hadopted : verdict.decision.accepted with
  | true =>
    have hverdict : Adopted row.terms row.fold sample c verdict := by
      rw [hjudged] at hadopted ⊢
      exact judge_adopted hadopted
    have hstate : row.state = .authorized := hverdict.state
    obtain ⟨since, hmoved⟩ := hverdict.moved
    have hprogress : ∀ {r : SessionRow}, r.adoptedSequence = sample.sequence →
        r.adoptedWindowEnd = some sample.window.end → r.adoptedCount = row.adoptedCount + 1 →
        row.Progress r := by
      intro r hsequence hwindow hcount
      refine ⟨?_, fun w hw => ⟨_, hwindow, hverdict.window w hw⟩, ?_,
        fun hnot => absurd hstate hnot⟩
      · rw [hsequence]
        exact hverdict.sequence.le
      · rw [hcount]
        exact Nat.le_succ _
    cases houtcome with
    | ended =>
      refine hprogress ?_ ?_ ?_ <;>
        simp only [SessionRow.ended, Verdict.watermark, Option.bind_some] <;> rw [hmoved] <;> rfl
    | advanced =>
      refine hprogress ?_ ?_ ?_ <;> simp only [SessionRow.advanced] <;> rw [hmoved] <;> rfl
    | postponed _ hrejected => rw [hrejected] at hadopted; cases hadopted
    | filed _ hrejected => rw [hrejected] at hadopted; cases hadopted
  | false =>
    have hverdict := hadopted
    rw [hjudged] at hverdict
    obtain ⟨hends, hfold⟩ := judge_rejected hverdict
    rw [← hjudged] at hends hfold
    cases houtcome with
    | @ended e hended =>
      have hstate : row.fold.state = .authorized := by
        by_contra hnot
        rw [if_neg hnot, hended] at hends
        cases hends
      refine of_watermarks hstate ?_ ?_ ?_ <;>
        simp only [SessionRow.ended, SessionRow.fold, Verdict.watermark, hfold, Option.bind_some,
          Option.map_some, Option.getD_some, Option.or_self]
    | advanced _ haccepted => rw [haccepted] at hadopted; cases hadopted
    | postponed _ _ hvalid =>
      have hstate : row.state = .authorized := by
        by_contra hnot
        obtain ⟨e, -, -, hidle⟩ := h.ended hnot
        have howner := hlease hvalid
        rw [hidle.owner] at howner
        cases howner
      exact of_watermarks hstate rfl rfl rfl
    | filed => exact refl row

end Progress

end SessionRow

/-! ## All sessions -/

namespace Records

/-- Every session is lawful. -/
abbrev Lawful (t : Records) : Prop := t.Each fun _ row samples endings => row.Lawful samples endings

/-- No two sessions of an incident are authorized. -/
def Alone (t : Records) : Prop :=
  ∀ {id id' : UUID} {row row' : SessionRow}, t.sessions.get id = some row →
    t.sessions.get id' = some row' → row.incidentId = row'.incidentId →
    row.state = .authorized → row'.state = .authorized → id = id'

/-- Every session makes progress, and no ending is taken back. -/
structure Progress (t t' : Records) : Prop where
  sessions : Table.Frame SessionRow.Progress (fun _ => True) t.sessions t'.sessions
  endings : t.endings <:+ t'.endings

theorem Progress.refl (t : Records) : t.Progress t :=
  ⟨Table.Frame.refl SessionRow.Progress.refl _, List.suffix_refl _⟩

theorem Progress.trans {a b c : Records} (h : a.Progress b) (h' : b.Progress c) : a.Progress c :=
  ⟨Table.Frame.trans (fun h h' => h.trans h') (fun _ _ => trivial) h.sessions h'.sessions,
    h.endings.trans h'.endings⟩

end Records

section

variable [Texts] {op : Op} {clk : Clock} {s s' : Store} {t t' : Records}

/-- A valid lease has the owner of the job. -/
theorem Store.Submitted.owner {lease : SampleLease} {sample : HealthSample}
    {readings : List SignalReading} {incident : IncidentRow} {row : SessionRow} {verdict : Verdict}
    {after : IncidentLifecycle}
    (h : Submitted s clk lease sample readings sampleId jobId incident row c verdict after s')
    (hvalid : c.leaseValid = true) : row.activeSampleOwner.isSome = true := by
  rw [h.conditions] at hvalid
  simp only [submitConditions, sampleLeaseValid, decide_eq_true_eq] at hvalid
  rw [hvalid.2.1]
  rfl

theorem keeps_lawful :
    Records.Keeps (fun _ row samples endings => row.Lawful samples endings) op clk s where
  closed h hstate := h.closed hstate _
  fresh hstanding _ hbudget := .fresh hstanding hbudget
  leased h hstate hfold hterms _ _ := h.leased hstate hfold hterms
  submitted _ hsub h houtcome := h.submitted hsub.judged hsub.owner rfl rfl rfl houtcome

/-- **A write makes progress.** -/
theorem SessionStep.progress (h : SessionStep op clk s t t') (hlawful : t.Lawful) :
    t.Progress t' := by
  cases h with
  | closed hrow hstate =>
    refine ⟨?_, List.suffix_cons _ _⟩
    dsimp only [Records.close, Records.withTables, Records.tables, endSession]
    refine Table.Frame.of_modify_row SessionRow.Progress.refl fun r hr => ?_
    obtain rfl := Option.some.inj (hrow.symm.trans hr)
    exact .of_watermarks hstate rfl rfl rfl
  | authorized _ hfresh =>
    exact ⟨Table.Frame.of_insert SessionRow.Progress.refl hfresh trivial, List.suffix_refl _⟩
  | leased _ hrow hstate =>
    refine ⟨?_, List.suffix_refl _⟩
    dsimp only [records]
    refine Table.Frame.of_modify_row SessionRow.Progress.refl fun r hr => ?_
    obtain rfl := Option.some.inj (hrow.symm.trans hr)
    exact .of_watermarks hstate rfl rfl rfl
  | @submitted lease sample readings sampleId jobId incident row c verdict after s' hop hsub =>
    obtain ⟨row', new, sessions, houtcome, hnew, hself, hothers, hrecords⟩ := hsub.outcome
    have hprogress : row.Progress row' :=
      .submitted (hlawful.session hsub.foundSession) hsub.judged hsub.owner houtcome
    rw [hrecords]
    refine ⟨⟨fun {id r} hr => ?_, fun {id r} hold hr => trivial⟩, List.suffix_append _ _⟩
    by_cases hid : id = lease.sessionId
    · subst hid
      obtain rfl := Option.some.inj (hsub.foundSession.symm.trans hr)
      exact ⟨row', hself, hprogress⟩
    · exact ⟨r, (hothers id hid).trans hr, .refl r⟩

/-- A session a write brings is authorized by its operation, alone for its incident. -/
theorem SessionStep.known (h : SessionStep op clk s t t') {row' : SessionRow}
    (hrow' : t'.sessions.get id = some row') :
    (∃ row, t.sessions.get id = some row) ∨
      op.authorizes = true ∧ authorizedSessions t.sessions row'.incidentId = [] ∧
        ∀ i, i ≠ id → t'.sessions.get i = t.sessions.get i := by
  have hmodify : ∀ {table : Table UUID SessionRow} {k : UUID} {f : SessionRow → SessionRow},
      (table.modify k f).get id = some row' → ∃ row, table.get id = some row := by
    intro table k f hget
    rw [Table.get_modify] at hget
    split at hget
    · obtain ⟨row, hrow, -⟩ := Option.map_eq_some_iff.1 hget
      exact ⟨row, hrow⟩
    · exact ⟨row', hget⟩
  cases h with
  | closed | leased => exact .inl (hmodify hrow')
  | @authorized _ id' session profiles hop hfresh halone =>
    dsimp only at hrow'
    by_cases hid : id = id'
    · subst hid
      obtain rfl := Option.some.inj ((Table.get_insert_self _ _ _).symm.trans hrow')
      exact .inr ⟨hop, halone, fun i hi => Table.get_insert_ne _ _ hi⟩
    · rw [Table.get_insert_ne _ _ hid] at hrow'
      exact .inl ⟨row', hrow'⟩
  | @submitted lease sample readings sampleId jobId incident row c verdict after s' hop hsub =>
    obtain ⟨row₁, new, sessions, -, -, -, hothers, hrecords⟩ := hsub.outcome
    rw [hrecords] at hrow'
    refine .inl ?_
    by_cases hid : id = lease.sessionId
    · exact ⟨row, hid ▸ hsub.foundSession⟩
    · exact ⟨row', (hothers id hid).symm.trans hrow'⟩

/-- No write authorizes a second session of an incident. -/
theorem SessionStep.alone (h : SessionStep op clk s t t') (hlawful : t.Lawful) (halone : t.Alone) :
    t'.Alone := by
  have hbefore : ∀ {id row row'}, t.sessions.get id = some row → t'.sessions.get id = some row' →
      row'.state = .authorized → row.incidentId = row'.incidentId ∧ row.state = .authorized := by
    intro id row row' hrow hrow' hstate'
    obtain ⟨row₁, hrow₁, hprogress⟩ := (h.progress hlawful).sessions.kept hrow
    obtain ⟨row₂, hrow₂, hsame⟩ := h.kept.kept hrow
    obtain rfl := Option.some.inj (hrow₁.symm.trans hrow')
    obtain rfl := Option.some.inj (hrow₂.symm.trans hrow')
    refine ⟨hsame.incident.symm, ?_⟩
    by_contra hnot
    rw [hprogress.ended hnot] at hstate'
    exact hnot hstate'
  -- a session the write brings is the only authorized one of its incident
  have hnew : ∀ {id id' row row'}, t.sessions.get id = none → t'.sessions.get id = some row →
      t'.sessions.get id' = some row' → row.incidentId = row'.incidentId →
      row'.state = .authorized → id = id' := by
    intro id id' row row' hnone hrow hrow' hincident hstate'
    by_contra hne
    rcases h.known hrow with ⟨r, hr⟩ | ⟨-, halone', hothers⟩
    · rw [hnone] at hr
      cases hr
    · rw [hothers id' (Ne.symm hne)] at hrow'
      have hmem : id' ∈ authorizedSessions t.sessions row.incidentId :=
        mem_authorizedSessions.2 ⟨row', hrow', hincident.symm, hstate'⟩
      rw [halone'] at hmem
      cases hmem
  intro id id' row row' hrow hrow' hincident hstate hstate'
  cases hold : t.sessions.get id with
  | none => exact hnew hold hrow hrow' hincident hstate'
  | some old =>
    cases hold' : t.sessions.get id' with
    | none => exact (hnew hold' hrow' hrow hincident.symm hstate).symm
    | some old' =>
      obtain ⟨hi, hs⟩ := hbefore hold hrow hstate
      obtain ⟨hi', hs'⟩ := hbefore hold' hrow' hstate'
      exact halone hold hold' (hi.trans (hincident.trans hi'.symm)) hs hs'

/-- What the writes of an operation keep. -/
theorem SessionSteps.sound (h : SessionSteps op clk s t t') (hlawful : t.Lawful)
    (halone : t.Alone) : t'.Lawful ∧ t'.Alone ∧ t.Progress t' := by
  induction h with
  | refl => exact ⟨hlawful, halone, .refl t⟩
  | tail _ hstep ih =>
    obtain ⟨hlawful', halone', hprogress⟩ := ih
    exact ⟨hlawful'.step keeps_lawful hstep, hstep.alone hlawful' halone',
      hprogress.trans (hstep.progress hlawful')⟩

/-- An operation that authorizes no session brings none. -/
theorem SessionSteps.known (h : SessionSteps op clk s t t') (hop : op.authorizes = false)
    {row' : SessionRow} (hrow' : t'.sessions.get id = some row') :
    ∃ row, t.sessions.get id = some row ∧ row.SameGround row' := by
  have hfound : ∃ row, t.sessions.get id = some row := by
    induction h generalizing row' with
    | refl => exact ⟨row', hrow'⟩
    | tail _ hstep ih =>
      rcases hstep.known hrow' with ⟨row, hrow⟩ | ⟨hauthorizes, -⟩
      · exact ih hrow
      · rw [hop] at hauthorizes
        cases hauthorizes
  obtain ⟨row, hrow⟩ := hfound
  obtain ⟨row₁, hrow₁, hsame⟩ := h.kept.kept hrow
  obtain rfl := Option.some.inj (hrow₁.symm.trans hrow')
  exact ⟨row, hrow, hsame⟩

/-! ## The ground of a session -/

/-- Every session has the control generation of its incident, or an earlier one; at that generation
the incident has the target of the session. -/
def Store.Grounded (s : Store) : Prop :=
  ∀ {id : UUID} {row : SessionRow}, s.sessions.get id = some row →
    ∃ incident, s.incidents.get row.incidentId = some incident ∧
      row.subjectControlGeneration ≤ incident.controlGeneration ∧
      (row.subjectControlGeneration = incident.controlGeneration →
        incident.targetId = some row.targetId)

/-- An incident's control generation goes up only, and its target changes with it. -/
def IncidentRow.Binds (r r' : IncidentRow) : Prop :=
  r.controlGeneration ≤ r'.controlGeneration ∧
    (r'.controlGeneration = r.controlGeneration → r'.targetId = r.targetId)

omit [Texts] in
theorem Store.Grounded.of_kept (h : s.Grounded)
    (hincidents : ∀ {i incident}, s.incidents.get i = some incident →
      ∃ incident', s'.incidents.get i = some incident' ∧ incident.Binds incident')
    (hsessions : ∀ {id row'}, s'.sessions.get id = some row' →
      ∃ row, s.sessions.get id = some row ∧ row.SameGround row') : s'.Grounded := by
  intro id row' hrow'
  obtain ⟨row, hrow, hsame⟩ := hsessions hrow'
  obtain ⟨incident, hinc, hle, htarget⟩ := h hrow
  obtain ⟨incident', hinc', hle', htarget'⟩ := hincidents hinc
  rw [hsame.incident, hsame.control, hsame.target]
  refine ⟨incident', hinc', hle.trans hle', fun heq => ?_⟩
  have hgeneration : incident'.controlGeneration = incident.controlGeneration :=
    le_antisymm (heq ▸ hle) hle'
  rw [htarget' hgeneration, htarget (heq.trans hgeneration)]

omit [Texts] in
/-- The ground of an authorized session is its incident. -/
theorem Store.Authorized.grounded {a : Authorization} {incident : IncidentRow}
    {lifecycle : IncidentLifecycle} {session : SessionRow} (h : s.Grounded)
    (hauth : Authorized s clk a incident lifecycle session s') : s'.Grounded := by
  rw [hauth.written]
  intro id row hrow
  dsimp only at hrow ⊢
  rw [Table.get_insert] at hrow
  split at hrow
  · obtain rfl := Option.some.inj hrow
    rw [hauth.incidentId, Table.get_modify_self, hauth.found]
    exact ⟨_, rfl, hauth.generation.le, fun _ => hauth.target⟩
  · obtain ⟨old, hold, hle, htarget⟩ := h hrow
    rw [Table.get_modify, hold]
    split
    · exact ⟨_, rfl, hle, htarget⟩
    · exact ⟨_, rfl, hle, htarget⟩

/-- A move of the control machine binds incidents no other way. -/
theorem exec_binds {issued : Issued} (h : op.exec clk s = .ok (issued, s')) {incident : IncidentRow}
    (hinc : s.incidents.get i = some incident) :
    ∃ incident', s'.incidents.get i = some incident' ∧ incident.Binds incident' := by
  obtain ⟨e, -, F, hprepare, hmove⟩ := exec_move h
  obtain ⟨sub, hsub, hle, htarget⟩ := hprepare.advances.subject i _ (subjectsOf_get hinc)
  obtain ⟨sub', hsub', hle', htarget'⟩ := hmove.advances.subject i sub hsub
  obtain ⟨incident', hinc', rfl⟩ := subjectsOf_eq_some.1 hsub'
  refine ⟨incident', hinc', hle.trans hle', fun heq => ?_⟩
  have hgeneration : sub.generation = incident.controlGeneration :=
    le_antisymm (hle'.trans_eq heq) hle
  exact (htarget' (heq.trans hgeneration.symm)).trans (htarget hgeneration)

/-- **Sessions keep their ground.** -/
theorem exec_grounded {issued : Issued} (h : op.exec clk s = .ok (issued, s')) (hs : s.Grounded) :
    s'.Grounded := by
  by_cases hop : op.authorizes = false
  · exact hs.of_kept (exec_binds h) fun hrow' => (exec_sessions h).known hop hrow'
  cases op with
  | authorizeSession a =>
    obtain ⟨-, id, ha⟩ := committed_eq_ok.1 h
    obtain ⟨t, ht, hrest⟩ := bind_eq_ok.1 ha
    simp only [pure_eq_ok, Prod.mk.injEq] at hrest
    obtain ⟨-, rfl⟩ := hrest
    obtain ⟨incident, lifecycle, session, hauth⟩ := authorizeSessionIn_ok ht
    exact hauth.grounded hs
  | registerRemediation r =>
    obtain ⟨-, a, ha⟩ := committed_eq_ok.1 h
    obtain ⟨t, authorized, incident, row, session, audit, ht, hinc, hgen, hg, -, -, -, -, hauth,
      rfl⟩ := registerRemediation_ok ha
    have hsteps : SessionSteps (.revokeSessions r.authorization.incidentId) clk s s.records
        (t.remediated clk r.authorization.incidentId incident a).records := by
      rw [ht.eq]
      exact revokeObservation_sessions (t := s) ..
    have hremediated : (t.remediated clk r.authorization.incidentId incident a).Grounded := by
      refine hs.of_kept (fun {i old} hold => ?_) fun hrow' => hsteps.known rfl hrow'
      rw [ht.eq]
      dsimp only [remediated]
      rw [Table.get_modify]
      split
      · next hi =>
        subst hi
        obtain rfl := Option.some.inj (hinc.symm.trans hold)
        refine ⟨_, by rw [hold]; rfl, ?_, fun heq => ?_⟩
        · dsimp only
          omega
        · dsimp only at heq
          omega
      · exact ⟨old, hold, le_rfl, fun _ => rfl⟩
    exact hauth.grounded hremediated
  | authorizeAutomaticObservation incidentId controlGeneration grant refusal =>
    obtain ⟨-, a, ha⟩ := committed_eq_ok.1 h
    rcases authorizeAutomaticObservation_ok ha with ⟨selfHeal, rfl⟩ |
      ⟨t, authorized, a, incident, session, audit, selfHeal, ht, -, -, hauth, rfl⟩
    · exact hs
    · have hsame : t.Grounded := by
        rw [ht.eq]
        exact hs
      exact hauth.grounded hsame
  | _ => exact absurd rfl hop

end

namespace State

variable [Texts] {σ σ' τ : State} {call : Call}

/-- What holds of the observation tables in every reachable state. -/
structure Observed (σ : State) : Prop where
  lawful : σ.store.records.Lawful
  alone : σ.store.records.Alone
  grounded : σ.store.Grounded

theorem reachable_observed (h : system.Reachable σ) : σ.Observed := by
  refine h.invariant (P := Observed) (fun σ hinit => ?_) fun {σ call σ'} hstep hσ => ?_
  · rw [show σ = { σ with store := {} } from hinit.1 ▸ rfl]
    refine ⟨.empty, fun hrow => ?_, fun hrow => ?_⟩ <;> simp [records] at hrow
  · rcases step_cases hstep with ⟨issued, store, hok, rfl⟩ | ⟨-, rfl⟩
    · obtain ⟨hlawful, halone, -⟩ := (exec_sessions hok).sound hσ.lawful hσ.alone
      exact ⟨hlawful, halone, exec_grounded hok hσ.grounded⟩
    · exact ⟨hσ.lawful, hσ.alone, hσ.grounded⟩

/-- A run makes progress on every session. -/
theorem run_progress {calls : List Call} (hreachable : system.Reachable σ)
    (hrun : system.Run σ calls τ) : σ.store.records.Progress τ.store.records := by
  induction hrun with
  | nil σ => exact .refl _
  | @cons σ σ' τ call calls hstep hrun ih =>
    have hσ := reachable_observed hreachable
    refine .trans ?_ (ih (hreachable.step hstep))
    rcases step_cases hstep with ⟨issued, store, hok, rfl⟩ | ⟨-, rfl⟩
    · exact ((exec_sessions hok).sound hσ.lawful hσ.alone).2.2
    · exact .refl _

/-- Every sampling lease on record carries the incident and the generations of its session. -/
def SampleLeasesBound (σ : State) : Prop :=
  ∀ lease ∈ σ.sampleLeases, ∃ row, σ.store.sessions.get lease.sessionId = some row ∧
    lease.incidentId = row.incidentId ∧
    lease.subjectControlGeneration = row.subjectControlGeneration ∧
    lease.observationGeneration = row.observationGeneration

theorem reachable_sampleLeasesBound (h : system.Reachable σ) : σ.SampleLeasesBound := by
  refine h.invariant (P := SampleLeasesBound) (fun σ hinit lease hlease => ?_)
    fun {σ call σ'} hstep hbound lease hlease => ?_
  · rw [hinit.2.2] at hlease
    cases hlease
  rcases step_cases hstep with ⟨issued, store, hok, rfl⟩ | ⟨-, rfl⟩
  · have hfound : ∃ row, σ.store.sessions.get lease.sessionId = some row ∧
        lease.incidentId = row.incidentId ∧
        lease.subjectControlGeneration = row.subjectControlGeneration ∧
        lease.observationGeneration = row.observationGeneration := by
      rcases List.mem_append.1 hlease with hnew | hold
      · obtain ⟨sessionId, owner, leaseSeconds, hclaimed⟩ :=
          claim_of_sampleLease hok (Option.mem_toList.1 hnew)
        cases hclaimed with
        | leased hrow => exact ⟨_, hrow, rfl, rfl, rfl⟩
      · exact hbound lease hold
    obtain ⟨row, hrow, hincident, hcontrol, hobservation⟩ := hfound
    obtain ⟨row', hrow', hsame⟩ := (exec_sessions hok).kept.kept hrow
    exact ⟨row', hrow', hincident.trans hsame.incident.symm, hcontrol.trans hsame.control.symm,
      hobservation.trans hsame.observation.symm⟩
  · exact hbound lease hlease

end State

/-- What a sample that resolves an incident was submitted under. -/
structure Store.Confirmation (s : Store) (i : UUID) (lease : SampleLease) (sample : HealthSample)
    (incident : IncidentRow) (row : SessionRow) (stored : SampleRow) : Prop where
  foundIncident : s.incidents.get i = some incident
  foundSession : s.sessions.get lease.sessionId = some row
  bound : row.incidentId = i
  authorized : row.state = .authorized
  sampled : sample.subjectControlGeneration = incident.controlGeneration ∧
    sample.observationGeneration = incident.observationGeneration
  current : row.subjectControlGeneration = incident.controlGeneration ∧
    row.observationGeneration = incident.observationGeneration
  scope : (s.scopeOf incident).suspended = false
  unmoved : (s.scopeOf incident).global.generation = row.authorizedGlobalGeneration ∧
    (s.scopeOf incident).target.generation = row.authorizedTargetGeneration
  target : incident.targetId = some row.targetId
  healthy : sample.outcome = .healthy ∧ sample.requiredSignalsPresent = true
  stored : stored.sessionId = lease.sessionId ∧ stored.accepted = true ∧
    stored.confirmsHealth = true

namespace State

variable [Texts] {σ σ' τ : State} {call : Call}

/-- **What an observation needs to resolve an incident.** -/
theorem resolved_of_step (hreachable : system.Reachable σ) (h : system.Step σ call σ')
    {after : IncidentRow} (hafter : σ'.store.incidents.get i = some after)
    (hresolved : after.lifecycle = .resolved) :
    (∃ before, σ.store.incidents.get i = some before ∧ before.lifecycle = .resolved) ∨
    ∃ lease sample readings sampleId jobId incident row stored,
      call.op = .submitSample lease sample readings sampleId jobId ∧
        σ'.store.samples.get sampleId = some stored ∧
        σ.store.Confirmation i lease sample incident row stored := by
  have hadmits := h.2.1
  rcases step_cases h with ⟨issued, store, hok, rfl⟩ | ⟨-, rfl⟩
  swap
  · exact .inl ⟨after, hafter, hresolved⟩
  by_cases hop : ∃ lease sample readings sampleId jobId,
      call.op = .submitSample lease sample readings sampleId jobId
  swap
  · have hkept : IncidentsKept False σ.store.incidents store.incidents :=
      exec_lifecycles hok (Bool.eq_false_iff.2 fun hsubmits => hop (submits_iff.1 hsubmits))
    rcases hkept.cases hafter with ⟨before, hbefore, hfollows⟩ | ⟨-, hnot⟩
    · exact .inl ⟨before, hbefore, (hfollows.resolved hresolved).elim id False.elim⟩
    · exact absurd hresolved hnot
  obtain ⟨lease, sample, readings, sampleId, jobId, hop⟩ := hop
  rw [hop] at hok hadmits
  obtain ⟨-, receipt, ha⟩ := committed_eq_ok.1 hok
  obtain ⟨incident, row, c, verdict, lifecycle, hsub⟩ := submitSample_ok ha
  have hwritten := hsub.written
  dsimp only at hafter
  rw [hwritten] at hafter
  dsimp only at hafter
  by_cases hi : i = lease.incidentId
  swap
  · rw [Table.get_modify_ne _ _ hi] at hafter
    exact .inl ⟨after, hafter, hresolved⟩
  subst hi
  rw [Table.get_modify_self, hsub.foundIncident] at hafter
  obtain rfl := Option.some.inj hafter
  by_cases hbefore : incident.lifecycle = .resolved
  · exact .inl ⟨incident, hsub.foundIncident, hbefore⟩
  -- only a confirmation resolves an incident that was not
  have htransition : verdict.transition = some .recoveryConfirmed := by
    by_contra hnot
    exact hbefore (fireTransition_unresolved hsub.fired hnot hresolved)
  have hjudged := hsub.judged
  have haccepted : verdict.decision.accepted = true := by
    rw [hjudged] at htransition ⊢
    exact judge_recovery htransition
  have hadopted : Adopted row.terms row.fold sample c verdict := by
    rw [hjudged] at haccepted ⊢
    exact judge_adopted haccepted
  have hhealthy := hadopted.confirmed htransition
  obtain ⟨houtcome, hpresent, -⟩ := judge_healthy (hjudged ▸ hhealthy)
  obtain ⟨hvalid, hstamps, -, hscope, -, hstate, hcontrol, hobservation⟩ := hadopted
  rw [hsub.conditions] at hvalid hstamps hscope hcontrol hobservation
  simp only [submitConditions] at hvalid hstamps hscope hcontrol hobservation
  simp only [sampleStampsMatch, hvalid, not_true_eq_false, false_or, decide_eq_true_eq] at hstamps
  simp only [scopeBlocks, ne_eq, decide_eq_false_iff_not, not_or, Bool.not_eq_true,
    not_not] at hscope
  obtain ⟨-, hleaseControl, hleaseObservation, -⟩ := hstamps
  obtain ⟨row', hrow', hincident, hrowControl, hrowObservation⟩ :=
    reachable_sampleLeasesBound hreachable lease hadmits.1
  obtain rfl := Option.some.inj (hsub.foundSession.symm.trans hrow')
  have hcurrent : row.subjectControlGeneration = incident.controlGeneration := by
    rw [← hrowControl, ← hleaseControl, hcontrol]
  obtain ⟨incident', hinc', -, htarget⟩ :=
    (reachable_observed hreachable).grounded hsub.foundSession
  rw [hsub.bound, hsub.foundIncident] at hinc'
  obtain rfl := Option.some.inj hinc'
  refine .inr ⟨lease, sample, readings, sampleId, jobId, incident, row,
    sampleRow lease sample readings c (σ.store.scopeOf incident) verdict call.clock.later, hop, ?_,
    ?_⟩
  · dsimp only
    rw [hwritten]
    exact Table.get_insert_self _ _ _
  · exact {
      foundIncident := hsub.foundIncident
      foundSession := hsub.foundSession
      bound := hsub.bound
      authorized := hstate
      sampled := ⟨hcontrol, hobservation⟩
      current := ⟨hcurrent, by rw [← hrowObservation, ← hleaseObservation, hobservation]⟩
      scope := hscope.1
      unmoved := hscope.2
      target := htarget hcurrent
      healthy := ⟨houtcome, hpresent⟩
      stored := ⟨rfl, haccepted, hhealthy⟩ }

/-- **Observation session safety.** In every reachable state an incident has at most one authorized
session; the counters of a session are those of its adopted samples, whose sequences go up and
whose windows do not go back, within its budget; a session has no ending while it is authorized, and
then exactly one and no job, for good. Only a healthy sample of an authorized session, under the
current generations, an open scope and an unchanged target, resolves an incident. -/
theorem observation_safety (h : system.Reachable σ) :
    (∀ incidentId, (authorizedSessions σ.store.sessions incidentId).length ≤ 1) ∧
    (∀ id row, σ.store.sessions.get id = some row →
      row.Lawful (σ.store.records.samplesOf id) (σ.store.records.endingsOf id) ∧
        ((adopted (σ.store.records.samplesOf id)).map (·.sequence)).Nodup) ∧
    (∀ calls τ, system.Run σ calls τ → σ.store.endings <:+ τ.store.endings ∧
      ∀ id row, σ.store.sessions.get id = some row →
        ∃ row', τ.store.sessions.get id = some row' ∧ row.Progress row') ∧
    ∀ call σ', system.Step σ call σ' → ∀ i after, σ'.store.incidents.get i = some after →
      after.lifecycle = .resolved →
      (∃ before, σ.store.incidents.get i = some before ∧ before.lifecycle = .resolved) ∨
      ∃ lease sample readings sampleId jobId incident row stored,
        call.op = .submitSample lease sample readings sampleId jobId ∧
          σ'.store.samples.get sampleId = some stored ∧
          σ.store.Confirmation i lease sample incident row stored := by
  have hσ := reachable_observed h
  refine ⟨fun incidentId => ?_, fun id row hrow => ?_, fun calls τ hrun => ?_,
    fun call σ' hstep i after hafter hresolved => resolved_of_step h hstep hafter hresolved⟩
  · have hnodup := authorizedSessions_nodup σ.store.sessions incidentId
    by_contra hmore
    obtain ⟨id, id', hid, hid', hne⟩ : ∃ id id',
        id ∈ authorizedSessions σ.store.sessions incidentId ∧
          id' ∈ authorizedSessions σ.store.sessions incidentId ∧ id ≠ id' := by
      generalize authorizedSessions σ.store.sessions incidentId = ids at hnodup hmore
      rcases ids with _ | ⟨id, _ | ⟨id', ids⟩⟩
      · exact absurd (Nat.zero_le 1) hmore
      · exact absurd le_rfl hmore
      · exact ⟨id, id', by simp, by simp, List.rel_of_pairwise_cons hnodup List.mem_cons_self⟩
    obtain ⟨row, hrow, hincident, hstate⟩ := mem_authorizedSessions.1 hid
    obtain ⟨row', hrow', hincident', hstate'⟩ := mem_authorizedSessions.1 hid'
    exact hne (hσ.alone hrow hrow' (hincident.trans hincident'.symm) hstate hstate')
  · have hlawful := hσ.lawful.session hrow
    refine ⟨hlawful, List.pairwise_map.2 (hlawful.tracks.ordered.imp fun hlt => ?_)⟩
    exact hlt.1.ne'
  · have hprogress := run_progress h hrun
    exact ⟨hprogress.endings, fun id row hrow => hprogress.sessions.kept hrow⟩

end State

namespace Scenario

/-- The session of `recoveryCalls`, with its two adopted samples. -/
theorem observation_safety_recovery :
    ((adopted ((State.reached recoveryCalls).store.records.samplesOf 10)).map
      (·.sequence)).Nodup ∧
      (authorizedSessions (State.reached recoveryCalls).store.sessions 1).length ≤ 1 := by
  have hreachable : system.Reachable (State.reached recoveryCalls) :=
    State.reachable_reached (by decide +kernel)
  obtain ⟨hone, hsessions, -⟩ := State.observation_safety hreachable
  have hfound : ((State.reached recoveryCalls).store.sessions.get 10).isSome = true := by
    decide +kernel
  obtain ⟨row, hrow⟩ := Option.isSome_iff_exists.1 hfound
  exact ⟨(hsessions 10 row hrow).2, hone 1⟩

end Scenario

end OpsPilot
