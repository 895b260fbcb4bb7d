import OpsPilot.System.Frames

/-!
# What becomes of an incident

Whatever is done to an incident, its row stays with its intake key, it is never claimed later than
before (its priority number does not rise), nothing but an observation resolves it, and nothing but
a merge points it at a survivor: a human closes, reopens and merges incidents, but resolves none.

* **`exec_rewrites`**: what any operation leaves of the incidents; no two come to share a key.
* `exec_lifecycles`: no operation but the submission of a sample resolves an incident.
* `exec_incidents`: no operation makes an incident less urgent.
-/

namespace OpsPilot

/-- An incident after an operation: no less urgent, and resolved only if it was before or a sample
was submitted (`observed`). -/
structure IncidentRow.Follows (observed : Prop) (r r' : IncidentRow) : Prop where
  urgent : r'.priority ≤ r.priority
  resolved : r'.lifecycle = .resolved → r.lifecycle = .resolved ∨ observed

variable {a b c r r' : IncidentRow} {op : Op} {issued : Issued}

namespace IncidentRow.Follows

variable {observed : Prop}

theorem refl (r : IncidentRow) : r.Follows observed r := ⟨le_rfl, .inl⟩

theorem trans (h : a.Follows observed b) (h' : b.Follows observed c) :
    a.Follows observed c := by
  refine ⟨h'.urgent.trans h.urgent, fun hresolved => ?_⟩
  rcases h'.resolved hresolved with hb | ho
  · exact h.resolved hb
  · exact .inr ho

/-- A write that leaves the priority and does not resolve. -/
theorem of_unresolved (hp : r'.priority = r.priority) (hlife : r'.lifecycle ≠ .resolved) :
    r.Follows observed r' :=
  ⟨hp.le, fun hresolved => absurd hresolved hlife⟩

/-- A write that leaves the priority and the lifecycle. -/
theorem of_eq (hp : r'.priority = r.priority) (hlife : r'.lifecycle = r.lifecycle) :
    r.Follows observed r' :=
  ⟨hp.le, fun hresolved => .inl (hlife ▸ hresolved)⟩

end IncidentRow.Follows

/-- Every incident stays, and none opens resolved. -/
def IncidentsKept (observed : Prop) (old new : Table UUID IncidentRow) : Prop :=
  Table.Frame (IncidentRow.Follows observed) (·.lifecycle ≠ .resolved) old new

namespace IncidentsKept

variable {observed : Prop} {old middle new : Table UUID IncidentRow}

theorem refl (t : Table UUID IncidentRow) : IncidentsKept False t t :=
  Table.Frame.refl IncidentRow.Follows.refl t

/-- A submitted sample may resolve what nothing else may. -/
theorem mono_observed {observed' : Prop} (h : IncidentsKept observed old new)
    (himp : observed → observed') : IncidentsKept observed' old new :=
  Table.Frame.mono h (fun hab => ⟨hab.urgent, fun hr => (hab.resolved hr).imp_right himp⟩) id

end IncidentsKept

/-- An incident after an operation: as `Follows` says, with its key and its relation, and merged
only if it was before or a merge was decided (`merging`). -/
structure IncidentRow.Rewrites (observed merging : Prop) (r r' : IncidentRow) : Prop
    extends IncidentRow.Follows observed r r' where
  intakeKey : r'.intakeKey = r.intakeKey
  related : r'.relatedIncidentId = r.relatedIncidentId
  merged : r'.mergedIntoIncidentId = r.mergedIntoIncidentId ∨ merging

namespace IncidentRow.Rewrites

variable {observed merging : Prop}

theorem refl (r : IncidentRow) : r.Rewrites observed merging r :=
  ⟨.refl r, rfl, rfl, .inl rfl⟩

theorem trans (h : a.Rewrites observed merging b) (h' : b.Rewrites observed merging c) :
    a.Rewrites observed merging c := by
  refine ⟨h.toFollows.trans h'.toFollows, h'.intakeKey.trans h.intakeKey,
    h'.related.trans h.related, ?_⟩
  rcases h'.merged with heq | hm
  · rw [heq]
    exact h.merged
  · exact .inr hm

/-- A write that leaves everything but the lifecycle, and does not resolve. -/
theorem of_unresolved (hlife : r'.lifecycle ≠ .resolved) (hpriority : r'.priority = r.priority)
    (hkey : r'.intakeKey = r.intakeKey) (hrelated : r'.relatedIncidentId = r.relatedIncidentId)
    (hmerged : r'.mergedIntoIncidentId = r.mergedIntoIncidentId) :
    r.Rewrites observed merging r' :=
  ⟨.of_unresolved hpriority hlife, hkey, hrelated, .inl hmerged⟩

/-- A write that leaves the lifecycle too. -/
theorem of_eq (hlife : r'.lifecycle = r.lifecycle) (hpriority : r'.priority = r.priority)
    (hkey : r'.intakeKey = r.intakeKey) (hrelated : r'.relatedIncidentId = r.relatedIncidentId)
    (hmerged : r'.mergedIntoIncidentId = r.mergedIntoIncidentId) :
    r.Rewrites observed merging r' :=
  ⟨.of_eq hpriority hlife, hkey, hrelated, .inl hmerged⟩

end IncidentRow.Rewrites

/-- No two incidents have one intake key. -/
def KeysDistinct (t : Table UUID IncidentRow) : Prop :=
  ∀ ⦃i j row row'⦄, t.get i = some row → t.get j = some row' → row.intakeKey = row'.intakeKey →
    i = j

/-- What an operation leaves of the incidents: it keeps them as `Rewrites` says, opens none resolved
or merged, and none under a key that is taken. -/
structure IncidentsRewritten (observed merging : Prop) (old new : Table UUID IncidentRow) :
    Prop where
  frame : Table.Frame (IncidentRow.Rewrites observed merging)
    (fun r => r.lifecycle ≠ .resolved ∧ r.mergedIntoIncidentId = none) old new
  distinct : KeysDistinct old → KeysDistinct new

namespace IncidentsRewritten

variable {observed merging : Prop} {old middle new : Table UUID IncidentRow}

/-- Without a row added, distinct keys stay distinct. -/
theorem of_frame
    (h : Table.Frame (IncidentRow.Rewrites observed merging) (fun _ => False) old new) :
    IncidentsRewritten observed merging old new where
  frame := h.mono id False.elim
  distinct hdistinct i j row row' hrow hrow' hkey := by
    have hback : ∀ {k r}, new.get k = some r →
        ∃ r₀, old.get k = some r₀ ∧ r.intakeKey = r₀.intakeKey := by
      intro k r hr
      rcases h.cases hr with ⟨r₀, hr₀, hrw⟩ | ⟨-, hnew⟩
      · exact ⟨r₀, hr₀, hrw.intakeKey⟩
      · exact hnew.elim
    obtain ⟨r, hr, hkr⟩ := hback hrow
    obtain ⟨r', hr', hkr'⟩ := hback hrow'
    exact hdistinct hr hr' (by rw [← hkr, ← hkr', hkey])

theorem refl (t : Table UUID IncidentRow) : IncidentsRewritten observed merging t t :=
  .of_frame (Table.Frame.refl IncidentRow.Rewrites.refl t)

theorem trans (h : IncidentsRewritten False False old middle)
    (h' : IncidentsRewritten False False middle new) : IncidentsRewritten False False old new where
  frame := by
    refine Table.Frame.trans IncidentRow.Rewrites.trans (fun ha hab => ?_) h.frame h'.frame
    refine ⟨fun hb => (hab.resolved hb).elim ha.1 id, ?_⟩
    rcases hab.merged with heq | hm
    · rw [heq, ha.2]
    · exact hm.elim
  distinct hdistinct := h'.distinct (h.distinct hdistinct)

theorem modify {t : Table UUID IncidentRow} {k : UUID} {f : IncidentRow → IncidentRow}
    (h : ∀ r, IncidentRow.Rewrites observed merging r (f r)) :
    IncidentsRewritten observed merging t (t.modify k f) :=
  .of_frame (Table.Frame.of_modify IncidentRow.Rewrites.refl h t k)

theorem insert {t : Table UUID IncidentRow} {k : UUID} {row : IncidentRow}
    (hnone : t.get k = none) (hlife : row.lifecycle ≠ .resolved)
    (hmerged : row.mergedIntoIncidentId = none)
    (hkey : ∀ i r, t.get i = some r → r.intakeKey ≠ row.intakeKey) :
    IncidentsRewritten observed merging t (t.insert k row) where
  frame := Table.Frame.of_insert IncidentRow.Rewrites.refl hnone ⟨hlife, hmerged⟩
  distinct hdistinct i j r r' hr hr' heq := by
    rw [Table.get_insert] at hr hr'
    split at hr
    · next hi =>
      obtain rfl := Option.some.inj hr
      split at hr'
      · next hj => rw [hi, hj]
      · exact absurd heq.symm (hkey _ _ hr')
    · split at hr'
      · obtain rfl := Option.some.inj hr'
        exact absurd heq (hkey _ _ hr)
      · exact hdistinct hr hr' heq

/-- An operation that neither observes nor merges does less. -/
theorem mono (h : IncidentsRewritten False False old new) :
    IncidentsRewritten observed merging old new where
  frame := h.frame.mono (fun hab => ⟨⟨hab.urgent, fun hr => (hab.resolved hr).imp_right False.elim⟩,
    hab.intakeKey, hab.related, hab.merged.imp_right False.elim⟩) id
  distinct := h.distinct

/-- As far as priority and lifecycle go. -/
theorem kept (h : IncidentsRewritten observed merging old new) : IncidentsKept observed old new :=
  h.frame.mono IncidentRow.Rewrites.toFollows And.left

end IncidentsRewritten

/-- An ending without a confirmation resolves nothing. -/
theorem fireTransition_unresolved {before after : IncidentLifecycle} {t : Option Transition}
    (h : fireTransition before t = .ok after) (hnot : t ≠ some .recoveryConfirmed)
    (hresolved : after = .resolved) : before = .resolved := by
  subst hresolved
  cases t with
  | none => exact Except.ok.inj h
  | some t =>
    cases t with
    | recoveryConfirmed => exact absurd rfl hnot
    | observationEndedUnconfirmed =>
      cases before <;> first | rfl | cases h

namespace Store

variable {s s' : Store} {clk : Clock}

theorem suspend_rewrites (s : Store) (covers : IncidentRow → Bool) (reaches : RunRow → Bool) :
    IncidentsRewritten False False s.incidents (s.suspend covers reaches).incidents := by
  dsimp only [suspend]
  refine .of_frame (Table.Frame.of_update (fun _ r => ?_) _)
  unfold pausedIncident
  split <;> exact .of_eq rfl rfl rfl rfl rfl

/-- A decision resolves nothing, and merges only if that is what it is. -/
theorem Decided.rewrites {r : ControlRequest} {incident : IncidentRow}
    (h : Decided s clk r incident s') :
    IncidentsRewritten False (r.action = .mergeInto) s.incidents s'.incidents := by
  cases h with
  | close | reopen | renew =>
    dsimp only [terminate, Store.renew, addNote, addInput]
    exact .modify fun _ => .of_unresolved (by rintro ⟨⟩) rfl rfl rfl rfl
  | @rebind t targetId payload haction hlife hreg =>
    have hsame : s.incidents = t.incidents := by
      rcases hreg with rfl | ⟨-, toUid, rfl⟩ <;> rfl
    rw [hsame]
    dsimp only [terminate]
    exact .modify fun _ => .of_unresolved (by rintro ⟨⟩) rfl rfl rfl rfl
  | @merge _ _ _ t _ haction hsurvivor hne ht hinput =>
    have hmerged : IncidentsRewritten False (r.action = .mergeInto) s.incidents t.incidents := by
      rw [ht]
      dsimp only [terminate]
      refine .modify fun _ => ⟨.of_unresolved rfl ?_, rfl, rfl, .inr haction⟩
      rintro ⟨⟩
    rcases hinput with rfl | ⟨-, rfl⟩ <;> exact hmerged
  | takeover =>
    dsimp only [Store.takeover]
    exact .modify fun _ => .of_eq rfl rfl rfl rfl rfl
  | @direct suspended =>
    have hdirect : IncidentsRewritten False (r.action = .mergeInto) s.incidents
        (s.direct clk r incident suspended).incidents := by
      dsimp only [Store.direct]
      exact .modify fun _ => .of_eq rfl rfl rfl rfl rfl
    split <;> exact hdirect

/-- An authorization observes an incident, and resolves nothing. -/
theorem Authorized.rewrites {a : Authorization} {incident : IncidentRow}
    {lifecycle : IncidentLifecycle} {session : SessionRow}
    (h : Authorized s clk a incident lifecycle session s') :
    IncidentsRewritten False False s.incidents s'.incidents := by
  rw [h.written]
  dsimp only
  refine .modify fun _ => .of_unresolved (fun hresolved => ?_) rfl rfl rfl rfl
  have hlife : lifecycle = .resolved := hresolved
  rw [h.observing] at hlife
  cases hlife

end Store

/-- The operation that may resolve an incident. -/
def Op.submits : Op → Bool
  | .submitSample .. => true
  | _ => false

theorem submits_iff : op.submits = true ↔ ∃ lease sample readings sampleId jobId,
    op = .submitSample lease sample readings sampleId jobId := by
  constructor
  · intro h
    cases op with
    | submitSample lease sample readings sampleId jobId =>
      exact ⟨lease, sample, readings, sampleId, jobId, rfl⟩
    | _ => cases h
  · rintro ⟨lease, sample, readings, sampleId, jobId, rfl⟩
    rfl

/-- The operation that may merge an incident. -/
def Op.merges : Op → Bool
  | .control r => r.action = .mergeInto
  | _ => false

open Store in
/-- **What an operation leaves of the incidents.** -/
theorem exec_rewrites [Texts] {clk : Clock} {s s' : Store} (h : op.exec clk s = .ok (issued, s')) :
    IncidentsRewritten (op.submits = true) (op.merges = true) s.incidents s'.incidents := by
  by_cases hbeside : op.plain = true ∧ op.files = false
  · rw [(exec_beside h hbeside.1).incidents hbeside.2]
    exact .refl _
  cases op with
  | accept intake =>
    obtain ⟨-, a, ha⟩ := committed_eq_ok.1 h
    rcases accept_cases ha with ⟨-, rfl, -⟩ | ⟨-, hkey, suspended, hinc, -, -, rfl⟩
    · exact .refl _
    · exact .insert hinc (by rintro ⟨⟩) rfl hkey
  | openHandoff incidentId intakeKey priority related alert =>
    obtain ⟨-, a, ha⟩ := committed_eq_ok.1 h
    have hkey := openHandoff_key ha
    obtain ⟨hinc, rfl⟩ := openHandoff_ok ha
    exact .insert hinc (by rintro ⟨⟩) rfl hkey
  | escalatePriority incidentId priority =>
    obtain ⟨-, a, ha⟩ := committed_eq_ok.1 h
    obtain rfl := escalatePriority_ok ha
    dsimp only
    refine .modify fun r => ?_
    split
    · next hlt => exact ⟨⟨hlt.le, .inl⟩, rfl, rfl, .inl rfl⟩
    · exact .refl r
  | registerTarget resourceUid targetId fresh =>
    obtain ⟨-, a, ha⟩ := committed_eq_ok.1 h
    rcases registerTarget_ok ha with rfl | ⟨-, rfl⟩ <;> exact .refl _
  | newRun n =>
    obtain ⟨-, a, ha⟩ := committed_eq_ok.1 h
    rcases newRun_ok ha with ⟨rfl, -⟩ | ⟨incident, suspended, -, -, -, -, -, -, -, rfl⟩
    · exact .refl _
    · dsimp only [startRun]
      exact .modify fun _ => .of_unresolved (by rintro ⟨⟩) rfl rfl rfl rfl
  | setGlobalSuspension suspended expected actor =>
    obtain ⟨-, a, ha⟩ := committed_eq_ok.1 h
    rcases setGlobalSuspension_ok ha with ⟨-, rfl⟩ | ⟨-, -, rfl⟩
    · exact .refl _
    · cases suspended
      · exact .refl _
      · exact (suspend_rewrites s (fun _ => true) fun _ => true).mono
  | setTargetSuspension target fresh suspended expected actor =>
    obtain ⟨-, a, ha⟩ := committed_eq_ok.1 h
    obtain ⟨t, targetId, gate, ht, -, hwrite⟩ := setTargetSuspension_ok ha
    have hgate : (t.ensureGate targetId).incidents = s.incidents := by
      rw [ht.eq]
      unfold ensureGate
      split <;> rfl
    rw [← hgate]
    rcases hwrite with ⟨-, rfl⟩ | ⟨-, -, rfl⟩
    · exact .refl _
    · cases suspended
      · exact .refl _
      · exact (suspend_rewrites (t.ensureGate targetId) (boundTo targetId)
          ((t.ensureGate targetId).runBoundTo targetId)).mono
  | control r =>
    obtain ⟨-, a, ha⟩ := committed_eq_ok.1 h
    obtain ⟨incident, -, -, -, hdecided⟩ := control_ok ha
    refine ⟨hdecided.rewrites.frame.mono (fun hab => ⟨⟨hab.urgent, fun hr =>
      (hab.resolved hr).imp_right False.elim⟩, hab.intakeKey, hab.related, ?_⟩) id,
      hdecided.rewrites.distinct⟩
    exact hab.merged.imp_right fun haction => by simpa [Op.merges] using haction
  | publish lease conclusion stepId fresh =>
    obtain ⟨-, a, ha⟩ := committed_eq_ok.1 h
    cases publish_ok ha with
    | fenced _ _ hlate => rcases lateResult_ok hlate with ⟨rfl, -⟩ | ⟨-, -, -, rfl⟩ <;> exact .refl _
    | replay => exact .refl _
    | written =>
      dsimp only [published]
      exact .modify fun _ => .of_eq rfl rfl rfl rfl rfl
  | authorizeSession a =>
    obtain ⟨-, id, ha⟩ := committed_eq_ok.1 h
    obtain ⟨t, ht, hrest⟩ := bind_eq_ok.1 ha
    simp only [pure_eq_ok, Prod.mk.injEq] at hrest
    obtain ⟨-, rfl⟩ := hrest
    obtain ⟨incident, lifecycle, session, hauth⟩ := authorizeSessionIn_ok ht
    exact hauth.rewrites.mono
  | registerRemediation r =>
    obtain ⟨-, a, ha⟩ := committed_eq_ok.1 h
    obtain ⟨t, authorized, incident, row, session, audit, ht, -, -, -, -, -, -, -, hauth, rfl⟩ :=
      registerRemediation_ok ha
    have hkept : IncidentsRewritten False False s.incidents
        (t.remediated clk r.authorization.incidentId incident a).incidents := by
      rw [ht.eq]
      dsimp only [remediated]
      exact .modify fun _ => .of_eq rfl rfl rfl rfl rfl
    exact (hkept.trans hauth.rewrites).mono
  | authorizeAutomaticObservation incidentId controlGeneration grant refusal =>
    obtain ⟨-, a, ha⟩ := committed_eq_ok.1 h
    rcases authorizeAutomaticObservation_ok ha with ⟨selfHeal, rfl⟩ |
      ⟨t, authorized, a, incident, session, audit, selfHeal, ht, -, -, hauth, rfl⟩
    · exact .refl _
    · have hsame : s.incidents = t.incidents := by
        rw [ht.eq]
      rw [hsame]
      exact hauth.rewrites.mono
  | recordAutoObservationFailure incidentId controlGeneration reason =>
    obtain ⟨-, a, ha⟩ := committed_eq_ok.1 h
    obtain ⟨selfHeal, rfl⟩ := recordAutoObservationFailure_ok ha
    exact .refl _
  | revokeSessions incidentId =>
    obtain ⟨-, a, ha⟩ := committed_eq_ok.1 h
    obtain ⟨incident, -, rfl⟩ := revokeSessions_ok ha
    exact .refl _
  | claimDueSample sessionId owner leaseSeconds =>
    obtain ⟨a, -, ha⟩ := sampleClaimed_eq_ok.1 h
    cases claimDueSample_ok ha <;> exact .refl _
  | submitSample lease sample readings sampleId jobId =>
    obtain ⟨-, receipt, ha⟩ := committed_eq_ok.1 h
    obtain ⟨incident, row, c, verdict, lifecycle, hsub⟩ := submitSample_ok ha
    rw [hsub.written]
    dsimp only
    exact .modify fun _ => ⟨⟨le_rfl, fun _ => .inr rfl⟩, rfl, rfl, .inl rfl⟩
  | sweepExpiredSession sessionId =>
    obtain ⟨-, a, ha⟩ := committed_eq_ok.1 h
    rcases sweepExpiredSession_ok ha with
      rfl | ⟨row, incident, after, -, -, -, hinc, hafter, rfl⟩
    · exact .refl _
    · dsimp only
      refine .of_frame (Table.Frame.of_modify_row IncidentRow.Rewrites.refl fun r hr => ?_)
      obtain rfl := Option.some.inj (hinc.symm.trans hr)
      refine ⟨⟨le_rfl, fun hresolved => .inl (fireTransition_unresolved hafter ?_ hresolved)⟩,
        rfl, rfl, .inl rfl⟩
      rintro ⟨⟩
  | _ => exact absurd ⟨rfl, rfl⟩ hbeside

/-- Only a sample resolves an incident. -/
theorem exec_lifecycles [Texts] {clk : Clock} {s s' : Store} (h : op.exec clk s = .ok (issued, s'))
    (hop : op.submits = false) :
    IncidentsKept False s.incidents s'.incidents :=
  (exec_rewrites h).kept.mono_observed fun ho => Bool.noConfusion (hop.symm.trans ho)

/-- No operation makes an incident less urgent. -/
theorem exec_incidents [Texts] {clk : Clock} {s s' : Store} (h : op.exec clk s = .ok (issued, s')) :
    IncidentsKept True s.incidents s'.incidents :=
  (exec_rewrites h).kept.mono_observed fun _ => trivial

end OpsPilot
