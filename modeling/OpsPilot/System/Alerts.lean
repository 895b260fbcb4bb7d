import OpsPilot.Persistence.Alerts
import OpsPilot.System.Lifecycles

/-!
# Alerts under concurrency

Any number of deliveries are recorded at the same time, statement by statement, next to every other
operation of the store and to the release anomalies that open incidents. What protects them are the
lock of the fingerprint and the row locks on incidents.

* `AlertRecorded`: what the commit of a delivery does, said of the database it is made on;
  `recordAlert` does it whatever happens between its statements (`recordAlert_sound`).
* `AlertStore.Inv`: an episode has an identity or an attachment, not both, and not two.
* **`AlertStore.alert_intake`**: alert intake neither loses nor duplicates, as long as no incident
  was merged into a release incident that another fingerprint has claimed (`Unmerged`).
-/

namespace OpsPilot

/-- What anybody but alert intake commits: an operation of the store, or the incident of a release
anomaly. -/
inductive AlertCall
  | call (op : Op) (clk : Clock)
  | release (intake : Intake)

namespace AlertStore

/-- A transaction of anybody else. The intake ids of a release are its own, so that its incident is
new. -/
inductive Other [Texts] (db : AlertStore) : AlertCall → AlertStore → Prop
  | call {op clk issued store} (h : op.exec clk db.store = .ok (issued, store)) :
      Other db (.call op clk) { db with store }
  | release {intake store} (h : db.store.accept intake = .ok (true, store)) :
      Other db (.release intake)
        { db with store, releases := intake.incidentId :: db.releases }

/-- What a lock covers: the episodes of a fingerprint; the row of an incident, and who claims it. -/
def Spares : AlertLock → AlertStore → AlertStore → Prop
  | .fingerprint f, db, db' => ∀ key, key.fingerprint = f →
      db'.identities.get key = db.identities.get key ∧ db'.deliveriesOf key = db.deliveriesOf key
  | .incident i, db, db' =>
      (∀ row, db.store.incidents.get i = some row → db'.store.incidents.get i = some row) ∧
        ∀ f, db'.Claims i f → db.Claims i f

end AlertStore

/-- A delivery with the incident it may open. -/
structure AlertRequest where
  delivery : Delivery
  opening : Option AlertOpening := none

/-- Alert intake as a service. -/
def alertIntake [Texts] [AlertNames] :
    Service AlertStore AlertLock Code AlertReceipt AlertRequest AlertCall where
  program request := recordAlert request.delivery request.opening
  Init db := db = {}
  Other := AlertStore.Other
  Spares := AlertStore.Spares

/-! ## The episodes on record -/

/-- The annotation revision of each delivery is that of the delivery before it, one more if the
annotations changed; the first is 1. Newest first. -/
def Revised : List DeliveryRow → Prop
  | [] => True
  | row :: rows =>
    row.annotationRevision = annotationRevision rows.head? row.delivery ∧ Revised rows

variable {outcome : AlertOutcome} {incidentId : Option UUID}

namespace AlertStore

/-- What nobody takes back: an incident stays, and none becomes a release incident later. -/
def Grows (db db' : AlertStore) : Prop :=
  ∀ i, (db.store.incidents.get i).isSome → (db'.store.incidents.get i).isSome ∧
    (i ∈ db'.releases → i ∈ db.releases)

/-- A delivery of the episode attached it to an incident. -/
def Attached (db : AlertStore) (key : DeliveryKey) : Prop :=
  ∃ row ∈ db.deliveriesOf key, row.outcome = .attached

/-- The episode is known: it has an identity, or an attachment. -/
def Owned (db : AlertStore) (key : DeliveryKey) : Prop :=
  (db.identities.get key).isSome ∨ db.Attached key

/-- The invariant of alert intake. -/
structure Inv (db : AlertStore) : Prop where
  released : ∀ i ∈ db.releases, (db.store.incidents.get i).isSome
  attached : ∀ row ∈ db.deliveries, row.outcome = .attached →
    ∃ i, row.incidentId = some i ∧ (db.store.incidents.get i).isSome
  one : ∀ key row row', row ∈ db.deliveriesOf key → row' ∈ db.deliveriesOf key →
    row.outcome = .attached → row'.outcome = .attached → row.incidentId = row'.incidentId
  apart : ∀ key, (db.identities.get key).isSome → ¬ db.Attached key
  revised : ∀ key, Revised (db.deliveriesOf key)
  owned : ∀ row ∈ db.deliveries, row.delivery.status = .firing → db.Owned row.delivery.key

variable {db db' : AlertStore} {d : Delivery} {key : DeliveryKey}

theorem mem_deliveriesOf {row : DeliveryRow} :
    row ∈ db.deliveriesOf key ↔ row ∈ db.deliveries ∧ row.delivery.key = key := by
  simp [deliveriesOf]

theorem deliveriesOf_file (outcome : AlertOutcome) (incidentId : Option UUID) (revision : ℕ) :
    (db.file d outcome incidentId revision).deliveriesOf key =
      if d.key = key then ⟨d, outcome, incidentId, revision⟩ :: db.deliveriesOf key
      else db.deliveriesOf key := by
  simp only [deliveriesOf, file, List.filter_cons, decide_eq_true_eq]

theorem claims_file {revision : ℕ} {i : UUID} {f : String}
    (h : (db.file d outcome incidentId revision).Claims i f) :
    db.Claims i f ∨ outcome = .attached ∧ incidentId = some i ∧ d.key.fingerprint = f := by
  obtain ⟨row, hrow, hclaim⟩ := h
  rcases List.mem_cons.1 hrow with rfl | hold
  · exact .inr hclaim
  · exact .inl ⟨row, hold, hclaim⟩

/-- The attachment of an episode is that of one of its deliveries. -/
theorem attachment_mem {i : UUID} (h : db.attachment key = some i) :
    ∃ row ∈ db.deliveriesOf key, row.outcome = .attached ∧ row.incidentId = some i := by
  obtain ⟨row, hrow, hi⟩ := Option.bind_eq_some_iff.1 h
  obtain ⟨hmem, houtcome⟩ := List.mem_filter.1 (List.mem_of_getLast? hrow)
  exact ⟨row, hmem, by simpa using houtcome, hi⟩

/-- An episode without an attachment has no attached delivery. -/
theorem Inv.not_attached (h : db.Inv) (hnone : db.attachment key = none) : ¬ db.Attached key := by
  rintro ⟨row, hrow, houtcome⟩
  have hmem : row ∈ (db.deliveriesOf key).filter (·.outcome = .attached) :=
    List.mem_filter.2 ⟨hrow, decide_eq_true houtcome⟩
  obtain ⟨last, hlast⟩ := Option.isSome_iff_exists.1
    (List.getLast?_isSome.2 (List.ne_nil_of_mem hmem))
  obtain ⟨hlastmem, hlastout⟩ := List.mem_filter.1 (List.mem_of_getLast? hlast)
  obtain ⟨i, hi, -⟩ := h.attached last (mem_deliveriesOf.1 hlastmem).1 (by simpa using hlastout)
  rw [attachment, hlast, Option.bind_some, hi] at hnone
  cases hnone

theorem attachment_congr (h : db'.deliveriesOf key = db.deliveriesOf key) :
    db'.attachment key = db.attachment key := by
  rw [attachment, h, attachment]

/-- A delivery more leaves what is known known. -/
theorem Owned.file (h : db.Owned key) (outcome : AlertOutcome) (incidentId : Option UUID)
    (revision : ℕ) : (db.file d outcome incidentId revision).Owned key := by
  refine h.imp_right ?_
  rintro ⟨row, hrow, houtcome⟩
  refine ⟨row, ?_, houtcome⟩
  rw [mem_deliveriesOf] at hrow ⊢
  exact ⟨List.mem_cons_of_mem _ hrow.1, hrow.2⟩

theorem inv_empty : Inv {} where
  released i hi := by cases hi
  attached row hrow := by cases hrow
  one key row row' hrow := by cases hrow
  apart key hid := by cases hid
  revised key := trivial
  owned row hrow := by cases hrow

/-- A delivery more keeps the invariant, if what it says of its own episode is in order. -/
theorem Inv.file (h : db.Inv) (hattached : outcome = .attached → (∃ i, incidentId = some i ∧
      (db.store.incidents.get i).isSome) ∧ db.identities.get d.key = none ∧
        ∀ row ∈ db.deliveriesOf d.key, row.outcome = .attached → row.incidentId = incidentId)
    (howned : d.status = .firing → outcome = .attached ∨ db.Owned d.key) :
    (db.file d outcome incidentId (annotationRevision (db.deliveriesOf d.key).head? d)).Inv where
  released := h.released
  attached row hrow houtcome := by
    rcases List.mem_cons.1 hrow with rfl | hold
    · exact (hattached houtcome).1
    · exact h.attached row hold houtcome
  one key row row' hrow hrow' houtcome houtcome' := by
    rw [deliveriesOf_file] at hrow hrow'
    split at hrow
    · next hkey =>
      subst hkey
      rw [if_pos rfl] at hrow'
      rcases List.mem_cons.1 hrow with rfl | hold <;> rcases List.mem_cons.1 hrow' with rfl | hold'
      · rfl
      · exact ((hattached houtcome).2.2 row' hold' houtcome').symm
      · exact (hattached houtcome').2.2 row hold houtcome
      · exact h.one _ row row' hold hold' houtcome houtcome'
    · next hkey =>
      rw [if_neg hkey] at hrow'
      exact h.one key row row' hrow hrow' houtcome houtcome'
  apart key hid := by
    rintro ⟨row, hrow, houtcome⟩
    rw [deliveriesOf_file] at hrow
    split at hrow
    · next hkey =>
      subst hkey
      rcases List.mem_cons.1 hrow with rfl | hold
      · have hnone := (hattached houtcome).2.1
        change (db.identities.get d.key).isSome = true at hid
        rw [hnone] at hid
        cases hid
      · exact h.apart _ hid ⟨row, hold, houtcome⟩
    · exact h.apart key hid ⟨row, hrow, houtcome⟩
  revised key := by
    rw [deliveriesOf_file]
    split
    · next hkey =>
      subst hkey
      exact ⟨rfl, h.revised _⟩
    · exact h.revised key
  owned row hrow hfiring := by
    rcases List.mem_cons.1 hrow with rfl | hold
    · rcases howned hfiring with rfl | hkey
      · exact .inr ⟨_, mem_deliveriesOf.2 ⟨hrow, rfl⟩, rfl⟩
      · exact hkey.file _ _ _
    · exact (h.owned row hold hfiring).file _ _ _

/-- The invariant only reads which incidents there are. -/
theorem Inv.withStore (h : db.Inv) {store : Store}
    (hkept : ∀ i, (db.store.incidents.get i).isSome → (store.incidents.get i).isSome) :
    { db with store }.Inv where
  released i hi := hkept i (h.released i hi)
  attached row hrow houtcome := by
    obtain ⟨i, hi, hsome⟩ := h.attached row hrow houtcome
    exact ⟨i, hi, hkept i hsome⟩
  one := h.one
  apart := h.apart
  revised := h.revised
  owned := h.owned

/-- A new identity of an episode that has no attachment. -/
theorem Inv.identify (h : db.Inv) {identity : IdentityRow} (hnot : ¬ db.Attached key) :
    { db with identities := db.identities.insert key identity }.Inv where
  released := h.released
  attached := h.attached
  one := h.one
  apart k hid := by
    by_cases hk : k = key
    · subst hk
      exact hnot
    · dsimp only at hid
      rw [Table.get_insert_ne _ _ hk] at hid
      exact h.apart k hid
  revised := h.revised
  owned row hrow hfiring := by
    refine (h.owned row hrow hfiring).imp_left fun hid => ?_
    dsimp only
    rw [Table.get_insert]
    split
    · rfl
    · exact hid

/-! ## The commit of a delivery -/

/-- An alert may attach to the incident: it is not a release incident another fingerprint claims,
unless some incident was merged into it. -/
def Attachable (db : AlertStore) (fingerprint : String) (i : UUID) : Prop :=
  ∀ f, f ≠ fingerprint → i ∈ db.releases → db.Claims i f →
    ∃ z row, db.store.incidents.get z = some row ∧ row.mergedIntoIncidentId = some i

/-- The candidates are incidents, and the release incidents among them are marked. -/
def Covers (db : AlertStore) (rows : List (UUID × Bool)) : Prop :=
  ∀ i ∈ rows.map Prod.fst, (db.store.incidents.get i).isSome ∧ (i ∈ db.releases → (i, true) ∈ rows)

theorem covers_candidates (db : AlertStore) (fingerprint resourceUid : String)
    (targetId : Option UUID) : db.Covers (db.candidates fingerprint resourceUid targetId) := by
  intro i hi
  obtain ⟨e, he, rfl⟩ := List.mem_map.1 hi
  obtain ⟨c, hc, rfl⟩ := List.mem_map.1 he
  refine ⟨?_, fun hrel => List.mem_map.2 ⟨c, hc, ?_⟩⟩
  · rw [(Table.mem_select_iff.1 hc).1]
    rfl
  · simp only [hrel, decide_true]

theorem Covers.grow {rows : List (UUID × Bool)} (h : db.Covers rows) (hgrows : db.Grows db') :
    db'.Covers rows := by
  intro i hi
  obtain ⟨hsome, htrue⟩ := h i hi
  obtain ⟨hsome', hreleases⟩ := hgrows i hsome
  exact ⟨hsome', fun hrel => htrue (hreleases hrel)⟩

/-- The revision of the next delivery. -/
def nextRevision (db : AlertStore) (d : Delivery) : ℕ :=
  annotationRevision (db.deliveriesOf d.key).head? d

end AlertStore

open AlertStore

/-- **What the commit of a delivery does**, said of the database it is made on: the episode has an
identity, or an attachment, or is resolved and unknown, and nothing but the delivery is recorded;
or it is new and fires, and attaches to an incident or opens one. -/
inductive AlertRecorded [AlertNames] (request : AlertRequest) (held : List AlertLock)
    (db : AlertStore) : AlertReceipt → AlertStore → Prop
  | identified {identity} (hid : db.identities.get request.delivery.key = some identity) :
      AlertRecorded request held db
        (db.fileIdentified request.delivery identity (db.nextRevision request.delivery)).1
        (db.fileIdentified request.delivery identity (db.nextRevision request.delivery)).2
  | attached {i} (hid : db.identities.get request.delivery.key = none)
      (hattached : db.attachment request.delivery.key = some i) :
      AlertRecorded request held db
        (db.fileAttached request.delivery i (db.nextRevision request.delivery)).1
        (db.fileAttached request.delivery i (db.nextRevision request.delivery)).2
  | resolved (hid : db.identities.get request.delivery.key = none)
      (hattached : db.attachment request.delivery.key = none)
      (hstatus : request.delivery.status = .resolved) :
      AlertRecorded request held db
        (db.fileResolved request.delivery (db.nextRevision request.delivery)).1
        (db.fileResolved request.delivery (db.nextRevision request.delivery)).2
  | attaches {o i release receipt db'} (hid : db.identities.get request.delivery.key = none)
      (hattached : db.attachment request.delivery.key = none)
      (hstatus : request.delivery.status = .firing) (hheld : .incident i ∈ held)
      (hattachable : db.Attachable request.delivery.key.fingerprint i)
      (hwrite : db.attach request.delivery o i release (db.nextRevision request.delivery) =
        .ok (receipt, db')) :
      AlertRecorded request held db receipt db'
  | opens {o related receipt db'} (hid : db.identities.get request.delivery.key = none)
      (hattached : db.attachment request.delivery.key = none)
      (hstatus : request.delivery.status = .firing)
      (hwrite : db.openIdentity request.delivery o related (db.nextRevision request.delivery) =
        .ok (receipt, db')) :
      AlertRecorded request held db receipt db'

/-- The specification of a commit, with the lock of the fingerprint held. -/
def Recording [AlertNames] (request : AlertRequest) (held : List AlertLock) (db : AlertStore)
    (receipt : AlertReceipt) (db' : AlertStore) : Prop :=
  .fingerprint request.delivery.key.fingerprint ∈ held ∧ AlertRecorded request held db receipt db'

section

variable [Texts] [AlertNames]

/-- What a delivery relies on between its statements. -/
abbrev AlertRely : List AlertLock → AlertStore → AlertStore → Prop :=
  alertIntake.Rely AlertStore.Inv AlertStore.Grows

theorem alertIntake_lawful : alertIntake.Lawful AlertStore.Grows where
  grows_refl db i hi := ⟨hi, id⟩
  grows_trans hab hbc i hi := by
    obtain ⟨hb, hba⟩ := hab i hi
    obtain ⟨hc, hcb⟩ := hbc i hb
    exact ⟨hc, fun h => hba (hcb h)⟩
  refl l db := by
    cases l with
    | fingerprint f => exact fun key _ => ⟨rfl, rfl⟩
    | incident i => exact ⟨fun _ => id, fun _ => id⟩
  trans {l a b c} hab hbc := by
    cases l with
    | fingerprint f =>
      intro key hkey
      exact ⟨(hbc key hkey).1.trans (hab key hkey).1, (hbc key hkey).2.trans (hab key hkey).2⟩
    | incident i => exact ⟨fun row h => hbc.1 row (hab.1 row h), fun f h => hab.2 f (hbc.2 f h)⟩

theorem alertRely_stable : Program.Stable AlertRely := alertIntake_lawful.stable

/-! ## A delivery between its statements -/

section Correlate

variable {d : Delivery} {o : AlertOpening} {held : List AlertLock} {s t : AlertStore}

omit [Texts] [AlertNames] in
/-- The merge closure locks the rows it returns, and whoever spares locked rows leaves them as they
are. -/
theorem lockMergeClosure_rows {Rely : List AlertLock → AlertStore → AlertStore → Prop}
    (hR : Program.Stable Rely)
    (hrows : ∀ {held a b i row}, Rely held a b → .incident i ∈ held →
      a.store.incidents.get i = some row → b.store.incidents.get i = some row)
    (candidateIds : List UUID) (hs : Rely held s s) :
    (lockMergeClosure candidateIds).Sound Rely (fun held t locked =>
      ∀ i row, locked i = some row →
        .incident i ∈ held ∧ t.store.incidents.get i = some row) held s := by
  unfold lockMergeClosure
  refine .bind hR (.of_forall fun held₁ s₁ ids => ?_) hs
  refine .acquire_bind fun t ht u hu i row hlocked => ?_
  dsimp only at hlocked
  split at hlocked
  · next hi =>
    have hmem : AlertLock.incident i ∈ ids.map .incident ++ held₁ :=
      List.mem_append_left _ (List.mem_map.2 ⟨i, hi, rfl⟩)
    exact ⟨hmem, hrows hu hmem hlocked⟩
  · cases hlocked

/-- The merge closure of a delivery. -/
theorem lockMergeClosure_sound (candidateIds : List UUID) (hs : s.Inv) (held : List AlertLock) :
    (lockMergeClosure candidateIds).Sound AlertRely (fun held t locked =>
      ∀ i row, locked i = some row →
        .incident i ∈ held ∧ t.store.incidents.get i = some row) held s :=
  lockMergeClosure_rows alertRely_stable (fun hab hi => (hab.spares _ hi).1 _) candidateIds
    (alertIntake_lawful.rely_refl hs held)

/-- A correlation attaches to a locked incident, which the alert may attach to from then on. -/
theorem correlate_sound (s : AlertStore) (held : List AlertLock) :
    (correlate d o).Sound AlertRely (fun held t r => ∀ i, r.1.attachTo = some i →
      .incident i ∈ held ∧ ∀ u, AlertRely held t u → u.Attachable d.key.fingerprint i) held s := by
  unfold correlate
  split
  · exact fun t _ i hi => nomatch hi
  · next resourceUid _ _ _ _ _ _ _ =>
    refine .committed_bind fun s₁ _ => .committed_bind fun s₂ _ => .lift_bind fun _ _ =>
      .committed_bind fun s₃ hs₃ => ?_
    have hcovers := s₃.covers_candidates d.key.fingerprint resourceUid
      (s₁.store.targetByUid resourceUid)
    generalize s₃.candidates d.key.fingerprint resourceUid (s₁.store.targetByUid resourceUid) = rows
      at hcovers
    have hlocked := (lockMergeClosure_sound (rows.map Prod.fst) hs₃.inv held).frame
      (F := fun _ t => t.Covers rows) (fun h hab => h.grow hab.grows) id hcovers
    refine .bind alertRely_stable (hlocked.mono ?_) (alertIntake_lawful.rely_refl hs₃.inv _)
    rintro held₄ s₄ locked ⟨hlock, hcovers₄⟩
    refine .committed_bind fun s₅ hs₅ => .lift_bind fun resolved hresolved t ht i hi => ?_
    obtain ⟨c, hc, rfl⟩ := mem_of_attachTo hi
    obtain ⟨candidate, hcandidate, row, last, hrow, hfollow, -⟩ := mem_of_resolveMerged hresolved hc
    obtain ⟨hlast, hchain⟩ := followMerged_ok hfollow hrow
    have hheld := (hlock _ _ hlast).1
    refine ⟨hheld, fun s₆ hu f hf hrel hclaim => ?_⟩
    have hs₆ := alertRely_stable.trans ht hu
    rcases hchain with hself | ⟨z, merged, hz, hmerged⟩
    · -- the candidate itself: its claims were read under its lock
      rw [hself] at hheld hrel hclaim
      obtain ⟨hmem, hnot⟩ := List.mem_filter.1 hcandidate
      have hin := (((hcovers₄.grow hs₅.grows).grow hs₆.grows) _ hmem).2 hrel
      obtain ⟨claim, hclaim, houtcome, hincident, hfingerprint⟩ := (hs₆.spares _ hheld).2 f hclaim
      refine absurd ⟨hin, ?_⟩ (of_decide_eq_true hnot)
      refine List.any_eq_true.2 ⟨claim, hclaim, decide_eq_true ⟨hincident, houtcome, ?_⟩⟩
      rw [hfingerprint]
      exact hf
    · obtain ⟨hzheld, hzrow⟩ := hlock z merged hz
      exact ⟨z, merged, (hs₆.spares _ hzheld).1 _ ((hs₅.spares _ hzheld).1 _ hzrow), hmerged⟩

/-- What a delivery has read of its episode, under the lock of its fingerprint. -/
structure Seen (key : DeliveryKey) (identity : Option IdentityRow) (rows : List DeliveryRow)
    (held : List AlertLock) (t : AlertStore) : Prop where
  held : .fingerprint key.fingerprint ∈ held
  identity : t.identities.get key = identity
  rows : t.deliveriesOf key = rows

theorem Seen.rely {key : DeliveryKey} {identity : Option IdentityRow} {rows : List DeliveryRow}
    (h : Seen key identity rows held s) (hst : AlertRely held s t) :
    Seen key identity rows held t where
  held := h.held
  identity := ((hst.spares _ h.held) key rfl).1.trans h.identity
  rows := ((hst.spares _ h.held) key rfl).2.trans h.rows

omit [Texts] [AlertNames] in
theorem Seen.lock {key : DeliveryKey} {identity : Option IdentityRow} {rows : List DeliveryRow}
    {locks : List AlertLock} (h : Seen key identity rows held s) :
    Seen key identity rows (locks ++ held) s :=
  ⟨List.mem_append_right _ h.held, h.identity, h.rows⟩

theorem readAttachment_sound {key : DeliveryKey} {identity : Option IdentityRow}
    {rows : List DeliveryRow} (hseen : Seen key identity rows held s) :
    (readAttachment key identity).Sound AlertRely (fun held t attached =>
      Seen key identity rows held t ∧
        attached = if identity.isSome then none else t.attachment key) held s := by
  unfold readAttachment
  split
  · exact fun t ht => ⟨hseen.rely ht, rfl⟩
  · intro t ht u hu
    have hseen_t := hseen.rely ht
    have hsame := hu.spares _ hseen_t.held key rfl
    exact ⟨hseen_t.rely hu, (attachment_congr hsame.2).symm⟩

/-- A new episode attaches or opens as it should. -/
theorem beginEpisode_sound {request : AlertRequest} {rows : List DeliveryRow} (hs : s.Inv)
    (hseen : Seen request.delivery.key none rows held s)
    (hattached : s.attachment request.delivery.key = none)
    (hstatus : request.delivery.status = .firing) :
    (beginEpisode request.delivery o (annotationRevision rows.head? request.delivery)).Sound
      AlertRely (Service.Writes (Recording request)) held s := by
  have hcorrelate := (correlate_sound (d := request.delivery) (o := o) s held).frame
    (F := Seen request.delivery.key none rows) (fun h hab => h.rely hab) (fun h => h.lock) hseen
  have hnone : ∀ {held t}, Seen request.delivery.key none rows held t →
      t.attachment request.delivery.key = none := by
    intro held t h
    rw [← hattached]
    exact attachment_congr (h.rows.trans hseen.rows.symm)
  refine .bind alertRely_stable (hcorrelate.mono ?_) (alertIntake_lawful.rely_refl hs _)
  rintro held₁ s₁ correlated ⟨hattach, hseen₁⟩
  cases hto : correlated.1.attachTo with
  | some i =>
    obtain ⟨hi, hattachable⟩ := hattach i hto
    intro t ht receipt db' hwrite
    have hseen_t := hseen₁.rely ht
    rw [← hseen_t.rows] at hwrite
    exact ⟨hseen_t.held, .attaches hseen_t.identity (hnone hseen_t) hstatus hi (hattachable t ht)
      hwrite⟩
  | none =>
    intro t ht receipt db' hwrite
    have hseen_t := hseen₁.rely ht
    rw [← hseen_t.rows] at hwrite
    exact ⟨hseen_t.held, .opens hseen_t.identity (hnone hseen_t) hstatus hwrite⟩

/-- **Whatever happens between its statements**, a delivery commits what it should. -/
theorem recordAlert_sound (request : AlertRequest) (s : AlertStore) :
    (recordAlert request.delivery request.opening).Sound AlertRely
      (Service.Writes (Recording request)) [] s := by
  unfold recordAlert
  refine .lift_bind fun _ hrefuse => .acquire_bind fun s₁ hs₁ => .committed_bind fun s₂ hs₂ => ?_
  rw [refuse_eq_ok] at hrefuse
  have hseen : Seen request.delivery.key (s₂.identities.get request.delivery.key)
      (s₂.deliveriesOf request.delivery.key) [.fingerprint request.delivery.key.fingerprint] s₂ :=
    ⟨List.mem_singleton_self _, rfl, rfl⟩
  generalize s₂.identities.get request.delivery.key = identity,
    s₂.deliveriesOf request.delivery.key = rows at hseen
  refine .bind alertRely_stable ((readAttachment_sound hseen).mono ?_)
    (alertIntake_lawful.rely_refl hs₂.inv _)
  rintro held₃ s₃ attached ⟨hseen₃, hattached⟩
  refine .committed_bind fun s₄ hs₄ => ?_
  have hseen₄ := hseen₃.rely hs₄
  have hsame : s₄.attachment request.delivery.key = s₃.attachment request.delivery.key :=
    attachment_congr (hseen₄.rows.trans hseen₃.rows.symm)
  rw [hseen₄.rows]
  dsimp only
  split
  · rintro t ht receipt db' hwrite
    have hseen_t := hseen₄.rely ht
    obtain ⟨rfl, rfl⟩ := Prod.mk.inj (Except.ok.inj hwrite)
    rw [← hseen_t.rows]
    exact ⟨hseen_t.held, .identified hseen_t.identity⟩
  · next i =>
    rintro t ht receipt db' hwrite
    have hseen_t := hseen₄.rely ht
    have hi : t.attachment request.delivery.key = some i :=
      (attachment_congr (hseen_t.rows.trans hseen₃.rows.symm)).trans hattached.symm
    obtain ⟨rfl, rfl⟩ := Prod.mk.inj (Except.ok.inj hwrite)
    rw [← hseen_t.rows]
    exact ⟨hseen_t.held, .attached hseen_t.identity hi⟩
  · next hstatus _ =>
    exact beginEpisode_sound hs₄.inv hseen₄ (hsame.trans hattached.symm) hstatus
  · next status opening hnot =>
    rintro t ht receipt db' hwrite
    have hseen_t := hseen₄.rely ht
    have hnone : t.attachment request.delivery.key = none :=
      (attachment_congr (hseen_t.rows.trans hseen₃.rows.symm)).trans hattached.symm
    have hstatus : request.delivery.status = .resolved := by
      cases hfires : request.delivery.status with
      | resolved => rfl
      | firing =>
        cases hopening : request.opening with
        | none => exact absurd ⟨hfires, by rw [hopening]; rfl⟩ hrefuse
        | some o => exact (hnot o hfires hopening).elim
    obtain ⟨rfl, rfl⟩ := Prod.mk.inj (Except.ok.inj hwrite)
    rw [← hseen_t.rows]
    exact ⟨hseen_t.held, .resolved hseen_t.identity hnone hstatus⟩

end Correlate

/-! ## The commits keep the invariant -/

variable {request : AlertRequest} {held : List AlertLock} {db db' : AlertStore}
  {receipt : AlertReceipt}

/-- What every commit has in common: one delivery more, with the next revision, and nothing changed
of other episodes and of incidents that are not locked. -/
structure Filing (d : Delivery) (held : List AlertLock) (db db' : AlertStore)
    (outcome : AlertOutcome) (incidentId : Option UUID) : Prop where
  deliveries : db'.deliveries = ⟨d, outcome, incidentId, db.nextRevision d⟩ :: db.deliveries
  releases : db'.releases = db.releases
  identities : ∀ key, key ≠ d.key → db'.identities.get key = db.identities.get key
  incidents : ∀ i row, db.store.incidents.get i = some row →
    ∃ row', db'.store.incidents.get i = some row' ∧ row'.priority ≤ row.priority ∧
      (.incident i ∉ held → row' = row)
  claimed : outcome = .attached → ∃ i, incidentId = some i ∧
    (.incident i ∈ held ∨ db.Claims i d.key.fingerprint)

omit [Texts] in
theorem AlertRecorded.filing (h : AlertRecorded request held db receipt db') :
    ∃ outcome incidentId, Filing request.delivery held db db' outcome incidentId := by
  have hsame : ∀ i row, db.store.incidents.get i = some row →
      ∃ row', db.store.incidents.get i = some row' ∧ row'.priority ≤ row.priority ∧
        (.incident i ∉ held → row' = row) := fun i row hrow => ⟨row, hrow, le_rfl, fun _ => rfl⟩
  cases h with
  | @identified identity hid =>
    refine ⟨_, _, rfl, rfl, fun _ _ => rfl, hsame, fun houtcome => ?_⟩
    split at houtcome
    · split at houtcome <;> cases houtcome
    · cases houtcome
  | @attached i hid hattached =>
    obtain ⟨row, hrow, hout, hi⟩ := attachment_mem hattached
    obtain ⟨hmem, hkey⟩ := mem_deliveriesOf.1 hrow
    refine ⟨_, _, rfl, rfl, fun _ _ => rfl, hsame, fun _ => ⟨i, rfl, .inr ?_⟩⟩
    exact ⟨row, hmem, hout, hi, by rw [hkey]⟩
  | resolved => exact ⟨_, _, rfl, rfl, fun _ _ => rfl, hsame, fun houtcome => by cases houtcome⟩
  | @attaches o i release _ _ hid hattached hstatus hheld hattachable hwrite =>
    obtain ⟨store, hrow, hincidents, rfl⟩ := attach_ok hwrite
    refine ⟨_, _, rfl, rfl, fun _ _ => rfl, fun j row hj => ?_, fun _ => ⟨i, rfl, .inl hheld⟩⟩
    change ∃ row', store.incidents.get j = some row' ∧ _
    rw [hincidents, Table.get_modify]
    split
    · next hji =>
      refine ⟨_, by rw [hj, Option.map_some], ?_, fun hnot => absurd (hji ▸ hheld) hnot⟩
      split
      · next hlt => exact hlt.le
      · exact le_rfl
    · exact ⟨row, hj, le_rfl, fun _ => rfl⟩
  | @opens o related _ _ hid hattached hstatus hwrite =>
    obtain ⟨store, outcome, hopen, hnot, hnone, rfl⟩ := openIdentity_ok hwrite
    refine ⟨_, _, rfl, rfl, fun key hkey => Table.get_insert_ne _ _ hkey, fun j row hj => ?_,
      fun houtcome => absurd houtcome hnot⟩
    change ∃ row', store.incidents.get j = some row' ∧ _
    rcases Store.openAlert_ok hopen with hincidents | ⟨new, hfresh, hincidents⟩
    · rw [hincidents]
      exact hsame j row hj
    · have hne : j ≠ o.incidentId := by
        rintro rfl
        rw [hfresh] at hj
        cases hj
      rw [hincidents, Table.get_insert_ne _ _ hne]
      exact hsame j row hj

omit [Texts] [AlertNames] in
theorem Filing.grows {d : Delivery} (h : Filing d held db db' outcome incidentId) :
    db.Grows db' := by
  intro i hi
  obtain ⟨row, hrow⟩ := Option.isSome_iff_exists.1 hi
  obtain ⟨row', hrow', -⟩ := h.incidents i row hrow
  exact ⟨by rw [hrow']; rfl, fun hrel => h.releases ▸ hrel⟩

omit [Texts] in
/-- A commit keeps the invariant. -/
theorem AlertRecorded.inv (hinv : db.Inv) (h : AlertRecorded request held db receipt db') :
    db'.Inv := by
  have hkept : ∀ i, (db.store.incidents.get i).isSome → (db'.store.incidents.get i).isSome := by
    obtain ⟨outcome, incidentId, hfiling⟩ := h.filing
    exact fun i hi => (hfiling.grows i hi).1
  cases h with
  | @identified identity hid =>
    refine hinv.file (fun houtcome => ?_) fun _ => .inr (.inl (by rw [hid]; rfl))
    split at houtcome
    · split at houtcome <;> cases houtcome
    · cases houtcome
  | @attached i hid hattached =>
    obtain ⟨row, hrow, hout, hi⟩ := attachment_mem hattached
    refine hinv.file (fun _ => ⟨?_, hid, fun row' hrow' hout' => ?_⟩) fun _ => .inr (.inr
      ⟨row, hrow, hout⟩)
    · obtain ⟨j, hj, hsome⟩ := hinv.attached row (mem_deliveriesOf.1 hrow).1 hout
      obtain rfl := Option.some.inj (hi.symm.trans hj)
      exact ⟨i, rfl, hsome⟩
    · rw [hinv.one _ row' row hrow' hrow hout' hout, hi]
  | resolved hid hattached hstatus =>
    refine hinv.file (fun houtcome => by cases houtcome) fun hfiring => ?_
    rw [hstatus] at hfiring
    cases hfiring
  | @attaches o i release _ _ hid hattached hstatus hheld hattachable hwrite =>
    obtain ⟨store, ⟨row, hrow⟩, hincidents, rfl⟩ := attach_ok hwrite
    refine (hinv.withStore hkept).file (fun _ => ⟨⟨i, rfl, hkept i (by rw [hrow]; rfl)⟩, hid, ?_⟩)
      fun _ => .inl rfl
    exact fun row' hrow' hout' => absurd ⟨row', hrow', hout'⟩ (hinv.not_attached hattached)
  | @opens o related _ _ hid hattached hstatus hwrite =>
    obtain ⟨store, outcome, hopen, hnot, hnone, rfl⟩ := openIdentity_ok hwrite
    refine ((hinv.withStore hkept).identify (hinv.not_attached hattached)).file
      (fun houtcome => absurd houtcome hnot) fun _ => .inr (.inl ?_)
    dsimp only
    rw [Table.get_insert_self]
    rfl

omit [Texts] [AlertNames] in
/-- A filed delivery leaves what it has not locked alone. -/
theorem Filing.spares {d : Delivery} (h : Filing d held db db' outcome incidentId)
    (hheld : .fingerprint d.key.fingerprint ∈ held) {l : AlertLock} (hl : l ∉ held) :
    AlertStore.Spares l db db' := by
  cases l with
  | fingerprint f =>
    intro key hkey
    have hne : key ≠ d.key := by
      rintro rfl
      exact hl (hkey ▸ hheld)
    refine ⟨h.identities key hne, ?_⟩
    rw [deliveriesOf, h.deliveries, List.filter_cons_of_neg (by simpa using hne.symm), deliveriesOf]
  | incident i =>
    refine ⟨fun row hrow => ?_, fun f hclaims => ?_⟩
    · obtain ⟨row', hrow', -, hsame⟩ := h.incidents i row hrow
      rw [hrow', hsame hl]
    · obtain ⟨row, hrow, hout, hi, hf⟩ := hclaims
      rw [h.deliveries] at hrow
      rcases List.mem_cons.1 hrow with rfl | hold
      · obtain ⟨j, hj, hlocked | hclaimed⟩ := h.claimed hout
        · obtain rfl := Option.some.inj (hi.symm.trans hj)
          exact absurd hlocked hl
        · obtain rfl := Option.some.inj (hi.symm.trans hj)
          exact hf ▸ hclaimed
      · exact ⟨row, hold, hout, hi, hf⟩

variable {label : AlertCall}
  {P : World AlertStore AlertLock Code AlertReceipt AlertRequest →
    Happening AlertReceipt AlertRequest AlertCall → Prop}

omit [AlertNames] in
/-- What anybody else does to the incidents: none becomes less urgent. -/
theorem AlertStore.Other.incidents (h : db.Other label db') :
    IncidentsKept True db.store.incidents db'.store.incidents := by
  cases h with
  | call h => exact exec_incidents h
  | @release intake store h =>
    rcases Store.accept_ok h with rfl | ⟨suspended, hnone, -, -, rfl⟩
    · exact (IncidentsKept.refl _).mono_observed False.elim
    · exact Table.Frame.of_insert IncidentRow.Follows.refl hnone (by rintro ⟨⟩)

omit [AlertNames] in
/-- A release incident is new, and is there. -/
theorem AlertStore.Other.releases (h : db.Other label db') {i : UUID} (hi : i ∈ db'.releases) :
    i ∈ db.releases ∨ db.store.incidents.get i = none ∧ (db'.store.incidents.get i).isSome := by
  cases h with
  | call h => exact .inl hi
  | @release intake store h =>
    obtain ⟨row, hnone, hincidents⟩ := Store.accept_created h
    rcases List.mem_cons.1 hi with rfl | hold
    · refine .inr ⟨hnone, ?_⟩
      dsimp only
      rw [hincidents, Table.get_insert_self]
      rfl
    · exact .inl hold

omit [AlertNames] in
theorem AlertStore.Other.deliveries (h : db.Other label db') :
    db'.deliveries = db.deliveries ∧ db'.identities = db.identities := by
  cases h <;> exact ⟨rfl, rfl⟩

omit [AlertNames] in
theorem AlertStore.Other.grows (h : db.Other label db') : db.Grows db' := by
  intro i hi
  obtain ⟨row, hrow⟩ := Option.isSome_iff_exists.1 hi
  obtain ⟨row', hrow', -⟩ := h.incidents.kept hrow
  refine ⟨by rw [hrow']; rfl, fun hrel => ?_⟩
  rcases h.releases hrel with hold | ⟨hnone, -⟩
  · exact hold
  · rw [hnone] at hrow
    cases hrow

omit [AlertNames] in
theorem AlertStore.Other.inv (hinv : db.Inv) (h : db.Other label db') :
    db'.Inv := by
  obtain ⟨hdeliveries, hidentities⟩ := h.deliveries
  have hkept := fun i hi => (h.grows i hi).1
  have hrows : ∀ key, db'.deliveriesOf key = db.deliveriesOf key := by
    intro key
    rw [deliveriesOf, hdeliveries, deliveriesOf]
  have hbase := hinv.withStore hkept
  refine ⟨fun i hi => ?_, ?_, ?_, ?_, ?_, ?_⟩
  · rcases h.releases hi with hold | ⟨-, hsome⟩
    · exact hkept i (hinv.released i hold)
    · exact hsome
  · rw [hdeliveries]
    exact hbase.attached
  · intro key row row' hrow hrow'
    rw [hrows] at hrow hrow'
    exact hinv.one key row row' hrow hrow'
  · intro key hid
    rw [hidentities] at hid
    rw [Attached, hrows]
    exact hinv.apart key hid
  · intro key
    rw [hrows]
    exact hinv.revised key
  · intro row hrow hfiring
    rw [hdeliveries] at hrow
    rw [Owned, Attached, hidentities, hrows]
    exact hinv.owned row hrow hfiring

/-- **Alert intake keeps its invariant** and commits what it should, in any order of statements. -/
theorem alertIntake_keeps :
    alertIntake.Keeps AlertStore.Inv AlertStore.Grows Recording where
  toLawful := alertIntake_lawful
  init db hdb := by
    obtain rfl : db = {} := hdb
    exact AlertStore.inv_empty
  sound request s _ := recordAlert_sound request s
  commit {request held s receipt t} h hinv := by
    obtain ⟨outcome, incidentId, hfiling⟩ := h.2.filing
    exact ⟨h.2.inv hinv, hfiling.grows, fun l hl => hfiling.spares h.1 hl⟩
  other h hinv := ⟨h.inv hinv, h.grows⟩

/-! ## The runs of alert intake -/

variable {w w' : World AlertStore AlertLock Code AlertReceipt AlertRequest}
  {e : Happening AlertReceipt AlertRequest AlertCall}

omit [Texts] [AlertNames] in
/-- Of two deliveries of one key that follow each other, the revision says whether the annotations
changed. -/
theorem Revised.step {newer older : List DeliveryRow} {new old : DeliveryRow}
    (h : Revised (newer ++ new :: old :: older)) :
    new.annotationRevision = if old.delivery.annotationsSha256 = new.delivery.annotationsSha256
      then old.annotationRevision else old.annotationRevision + 1 := by
  induction newer with
  | nil => exact h.1
  | cons row newer ih => exact ih h.2

omit [Texts] in
/-- A delivery of a known episode, or of an unknown one that is over, changes nothing else. -/
theorem AlertRecorded.idle (hinv : db.Inv) (h : AlertRecorded request held db receipt db')
    (hknown : db.Owned request.delivery.key ∨ request.delivery.status = .resolved) :
    db'.store = db.store := by
  have hnew : db.identities.get request.delivery.key = none →
      db.attachment request.delivery.key = none → request.delivery.status = .firing → False := by
    intro hid hattached hstatus
    rcases hknown with (hsome | hat) | hresolved
    · rw [hid] at hsome
      cases hsome
    · exact hinv.not_attached hattached hat
    · rw [hstatus] at hresolved
      cases hresolved
  cases h with
  | identified | attached | resolved => rfl
  | attaches hid hattached hstatus => exact (hnew hid hattached hstatus).elim
  | opens hid hattached hstatus => exact (hnew hid hattached hstatus).elim

/-- No incident is merged into a release incident that another fingerprint has claimed. -/
def AlertStore.Unmerged (db : AlertStore) (fingerprint : String) : Prop :=
  ∀ incident ∈ db.store.incidents.rows, ∀ i ∈ incident.2.mergedIntoIncidentId, i ∈ db.releases →
    ∀ row ∈ db.deliveries, row.outcome = .attached → row.incidentId = some i →
      row.delivery.key.fingerprint = fingerprint

instance (db : AlertStore) (fingerprint : String) : Decidable (db.Unmerged fingerprint) :=
  inferInstanceAs (Decidable (∀ _ ∈ _, ∀ _ ∈ _, _ → ∀ _ ∈ _, _))

/-- The condition of a step: a delivery commits where no incident is merged so. -/
def Unmerged (w : World AlertStore AlertLock Code AlertReceipt AlertRequest) :
    Happening AlertReceipt AlertRequest AlertCall → Prop
  | .commit _ request _ => w.db.Unmerged request.delivery.key.fingerprint
  | _ => True

/-- No two fingerprints claim one release incident. -/
def AlertStore.Exclusive (db : AlertStore) : Prop :=
  ∀ i ∈ db.releases, ∀ f f', db.Claims i f → db.Claims i f' → f = f'

omit [Texts] in
/-- A claim on a release incident is an old one, or the first of its fingerprint. -/
theorem AlertRecorded.claims (h : AlertRecorded request held db receipt db')
    (hmerged : db.Unmerged request.delivery.key.fingerprint) {i : UUID} (hi : i ∈ db.releases)
    {f : String} (hclaims : db'.Claims i f) :
    db.Claims i f ∨ f = request.delivery.key.fingerprint ∧
      ∀ g, db.Claims i g → g = request.delivery.key.fingerprint := by
  cases h with
  | @identified identity hid =>
    rcases claims_file hclaims with hold | ⟨hout, -, -⟩
    · exact .inl hold
    · split at hout
      · split at hout <;> cases hout
      · cases hout
  | @attached j hid hattached =>
    obtain ⟨row, hrow, hout, hj⟩ := attachment_mem hattached
    obtain ⟨hmem, hkey⟩ := mem_deliveriesOf.1 hrow
    rcases claims_file hclaims with hold | ⟨-, hij, hf⟩
    · exact .inl hold
    · obtain rfl := Option.some.inj hij
      exact .inl ⟨row, hmem, hout, hj, by rw [hkey, hf]⟩
  | resolved =>
    rcases claims_file hclaims with hold | ⟨hout, -, -⟩
    · exact .inl hold
    · cases hout
  | @attaches o j release _ _ hid hattached hstatus hheld hattachable hwrite =>
    obtain ⟨store, -, -, rfl⟩ := attach_ok hwrite
    rcases claims_file hclaims with hold | ⟨-, hij, hf⟩
    · exact .inl hold
    · obtain rfl := Option.some.inj hij
      refine .inr ⟨hf.symm, fun g hg => ?_⟩
      by_contra hne
      obtain ⟨z, merged, hz, hinto⟩ := hattachable g hne hi hg
      obtain ⟨row, hrow, hout, hincident, hfingerprint⟩ := hg
      have hsame := hmerged _ (Table.mem_rows_iff.2 hz) j hinto hi row hrow hout hincident
      exact hne (hfingerprint.symm.trans hsame)
  | @opens o related _ _ hid hattached hstatus hwrite =>
    obtain ⟨store, outcome, -, hnot, -, rfl⟩ := openIdentity_ok hwrite
    rcases claims_file hclaims with hold | ⟨hout, -, -⟩
    · exact .inl hold
    · exact absurd hout hnot

omit [Texts] in
/-- Where no incident is merged so, a delivery claims no release incident of another
fingerprint. -/
theorem AlertRecorded.exclusive (h : AlertRecorded request held db receipt db')
    (hmerged : db.Unmerged request.delivery.key.fingerprint) (hdb : db.Exclusive) :
    db'.Exclusive := by
  intro i hi f f' hf hf'
  obtain ⟨outcome, incidentId, hfiling⟩ := h.filing
  rw [hfiling.releases] at hi
  rcases h.claims hmerged hi hf with hold | ⟨rfl, hall⟩ <;>
    rcases h.claims hmerged hi hf' with hold' | ⟨rfl, hall'⟩
  · exact hdb i hi f f' hold hold'
  · exact hall' f hold
  · exact (hall f' hold').symm
  · rfl

omit [AlertNames] in
/-- Nobody else claims an incident, and a release incident that opens has no claim. -/
theorem AlertStore.Other.exclusive (hinv : db.Inv) (h : db.Other label db') (hdb : db.Exclusive) :
    db'.Exclusive := by
  intro i hi f f' hf hf'
  have hclaims : ∀ {f}, db'.Claims i f → db.Claims i f := by
    rintro f ⟨row, hrow, hclaim⟩
    rw [h.deliveries.1] at hrow
    exact ⟨row, hrow, hclaim⟩
  rcases h.releases hi with hold | ⟨hnone, -⟩
  · exact hdb i hold f f' (hclaims hf) (hclaims hf')
  · obtain ⟨row, hrow, hout, hincident, -⟩ := hclaims hf
    obtain ⟨j, hj, hsome⟩ := hinv.attached row hrow hout
    obtain rfl := Option.some.inj (hincident.symm.trans hj)
    rw [hnone] at hsome
    cases hsome

theorem reachable_inv (h : alertIntake.system.Reachable w) : w.db.Inv :=
  (Service.reachable_sound alertIntake_keeps h).db

/-- What a step of alert intake does. -/
theorem alertStep_cases (h : alertIntake.system.Reachable w)
    (hstep : alertIntake.system.Step w e w') :
    (w'.db = w.db ∧ ∀ i request receipt, e ≠ .commit i request receipt) ∨
      (∃ i request receipt held, e = .commit i request receipt ∧
        AlertRecorded request held w.db receipt w'.db) ∨
      ∃ label, e = .other label ∧ w.db.Other label w'.db := by
  have hsound := Service.reachable_sound alertIntake_keeps h
  rcases hsound.step_cases alertIntake_keeps hstep with hidle | hcommit | hother
  · exact .inl hidle
  · obtain ⟨i, request, receipt, held, he, hrecorded⟩ := hcommit
    exact .inr (.inl ⟨i, request, receipt, held, he, hrecorded.2⟩)
  · exact .inr (.inr hother)

/-- No step makes an incident less urgent. -/
theorem alertStep_priority (h : alertIntake.system.Reachable w)
    (hstep : alertIntake.system.Step w e w') {i : UUID} {row : IncidentRow}
    (hrow : w.db.store.incidents.get i = some row) :
    ∃ row', w'.db.store.incidents.get i = some row' ∧ row'.priority ≤ row.priority := by
  rcases alertStep_cases h hstep with ⟨hdb, -⟩ | hcommit | ⟨label, -, hother⟩
  · exact ⟨row, by rw [hdb, hrow], le_rfl⟩
  · obtain ⟨_, request, receipt, held, -, hrecorded⟩ := hcommit
    obtain ⟨outcome, incidentId, hfiling⟩ := hrecorded.filing
    obtain ⟨row', hrow', hle, -⟩ := hfiling.incidents i row hrow
    exact ⟨row', hrow', hle⟩
  · obtain ⟨row', hrow', hfollows⟩ := hother.incidents.kept hrow
    exact ⟨row', hrow', hfollows.urgent⟩

/-- In the runs where no incident is merged so, no two fingerprints claim one release incident. -/
theorem reachable_exclusive (h : (alertIntake.system.restrict Unmerged).Reachable w) :
    w.db.Exclusive := by
  refine h.invariant_of (P := fun w => w.db.Exclusive) (I := alertIntake.system.Reachable) ?_ ?_ ?_
  · exact fun w hw => hw.of_restrict
  · rintro w ⟨hdb, -⟩
    obtain hdb : w.db = {} := hdb
    rw [hdb]
    intro i hi
    cases hi
  · rintro w e w' ⟨hstep, hunmerged⟩ hreach hexclusive
    rcases alertStep_cases hreach hstep with ⟨hdb, -⟩ | hcommit | ⟨label, -, hother⟩
    · rw [hdb]
      exact hexclusive
    · obtain ⟨_, request, receipt, held, rfl, hrecorded⟩ := hcommit
      exact hrecorded.exclusive hunmerged hexclusive
    · exact hother.exclusive (reachable_inv hreach) hexclusive

/-! ## Transactions one after another -/

/-- A delivery, or a transaction of anybody else. -/
inductive AlertEvent
  | deliver (request : AlertRequest)
  | other (label : AlertCall)

namespace AlertStore

/-- Run one transaction alone; a delivery only where `check` admits it. -/
def play (check : AlertStore → AlertRequest → Bool) (db : AlertStore) :
    AlertEvent → Option AlertStore
  | .deliver request => do
    let write ← ((recordAlert request.delivery request.opening).alone db).toOption
    let written ← (write db).toOption
    if check db request then some written.2 else none
  | .other (.call op clk) => do
    let written ← (op.exec clk db.store).toOption
    some { db with store := written.2 }
  | .other (.release intake) => do
    let written ← (db.store.accept intake).toOption
    if written.1 then
      some { db with store := written.2, releases := intake.incidentId :: db.releases }
    else none

/-- Transactions one after another, on the empty database. -/
def played (check : AlertStore → AlertRequest → Bool) (events : List AlertEvent) :
    Option AlertStore :=
  events.foldlM (play check) {}

end AlertStore

omit [Texts] [AlertNames] in
theorem toOption_eq_some {ε α : Type*} {x : Except ε α} {a : α} :
    x.toOption = some a ↔ x = .ok a := by
  cases x <;> simp [Except.toOption]

/-- Transactions one after another are a run. -/
theorem run_play {check : AlertStore → AlertRequest → Bool}
    (hstart : ∀ w i request, P w (.start i request)) (hproceed : ∀ w i, P w (.proceed i))
    (hcommit : ∀ w i request receipt, check w.db request = true → P w (.commit i request receipt))
    (hother : ∀ w label, P w (.other label)) {event : AlertEvent}
    (h : db.play check event = some db') :
    ∃ es, (alertIntake.system.restrict P).Run { db } es { db := db' } := by
  cases event with
  | deliver request =>
    simp only [play, Option.bind_eq_bind, Option.bind_eq_some_iff, toOption_eq_some,
      Option.ite_none_right_eq_some, Option.some.injEq] at h
    obtain ⟨write, hwrite, ⟨receipt, t⟩, ht, hcheck, rfl⟩ := h
    refine Service.run_alone (S := alertIntake) (fun w e hdb he => ?_) hwrite ht
    simp only [List.mem_cons, List.not_mem_nil, or_false] at he
    rcases he with rfl | rfl | rfl
    · exact hstart w 0 request
    · exact hproceed w 0
    · exact hcommit w 0 request receipt (by rw [hdb]; exact hcheck)
  | other label =>
    have hrun : db.Other label db' := by
      cases label with
      | call op clk =>
        simp only [play, Option.bind_eq_bind, Option.bind_eq_some_iff, toOption_eq_some,
          Option.some.injEq] at h
        obtain ⟨⟨issued, store⟩, hexec, rfl⟩ := h
        exact .call hexec
      | release intake =>
        simp only [play, Option.bind_eq_bind, Option.bind_eq_some_iff, toOption_eq_some,
          Option.ite_none_right_eq_some, Option.some.injEq] at h
        obtain ⟨⟨created, store⟩, haccept, hcreated, rfl⟩ := h
        obtain rfl : created = true := hcreated
        exact .release haccept
    exact ⟨[.other label], .single ⟨.other hrun nofun, hother _ _⟩⟩

theorem reachable_played {check : AlertStore → AlertRequest → Bool}
    (hstart : ∀ w i request, P w (.start i request)) (hproceed : ∀ w i, P w (.proceed i))
    (hcommit : ∀ w i request receipt, check w.db request = true → P w (.commit i request receipt))
    (hother : ∀ w label, P w (.other label)) {events : List AlertEvent}
    (h : played check events = some db) :
    (alertIntake.system.restrict P).Reachable { db } := by
  have key : ∀ (events : List AlertEvent) {db₀}, (alertIntake.system.restrict P).Reachable
      { db := db₀ } → events.foldlM (play check) db₀ = some db →
        (alertIntake.system.restrict P).Reachable { db } := by
    intro events
    induction events with
    | nil =>
      intro db₀ hreach hfold
      obtain rfl := Option.some.inj hfold
      exact hreach
    | cons event events ih =>
      intro db₀ hreach hfold
      rw [List.foldlM_cons, Option.bind_eq_bind, Option.bind_eq_some_iff] at hfold
      obtain ⟨db₁, hplay, hfold⟩ := hfold
      obtain ⟨es, hrun⟩ := run_play hstart hproceed hcommit hother hplay
      exact ih (hreach.run hrun) hfold
  exact key events (.init ⟨rfl, fun _ => rfl⟩) h

/-- **Alert intake neither loses nor duplicates.** In every reachable world an episode has an
identity or attachments to one incident, not both, and one of them once a delivery of it fired; the
revision of a delivery is one more than that of the delivery before it exactly if the annotations
changed. A committed delivery of a known episode, or of an unknown one that is over, changes nothing
but the deliveries, and a firing one leaves its episode known. No step makes an incident less
urgent. Where no incident is merged into a release incident that another fingerprint has claimed,
no two fingerprints claim one release incident. -/
theorem alert_intake :
    (alertIntake.system.Reachable w →
      (∀ key, ¬ ((w.db.identities.get key).isSome ∧ w.db.Attached key)) ∧
      (∀ key row row', row ∈ w.db.deliveriesOf key → row' ∈ w.db.deliveriesOf key →
        row.outcome = .attached → row'.outcome = .attached → row.incidentId = row'.incidentId) ∧
      (∀ row ∈ w.db.deliveries, row.delivery.status = .firing → w.db.Owned row.delivery.key) ∧
      (∀ key newer new old older, w.db.deliveriesOf key = newer ++ new :: old :: older →
        new.annotationRevision =
          if old.delivery.annotationsSha256 = new.delivery.annotationsSha256
          then old.annotationRevision else old.annotationRevision + 1) ∧
      ∀ e w', alertIntake.system.Step w e w' →
        (∀ i row, w.db.store.incidents.get i = some row →
          ∃ row', w'.db.store.incidents.get i = some row' ∧ row'.priority ≤ row.priority) ∧
        ∀ i request receipt, e = .commit i request receipt →
          w.db.Owned request.delivery.key ∨ request.delivery.status = .resolved →
            w'.db.store = w.db.store) ∧
    ((alertIntake.system.restrict Unmerged).Reachable w →
      ∀ i ∈ w.db.releases, ∀ f f', w.db.Claims i f → w.db.Claims i f' → f = f') := by
  refine ⟨fun h => ?_, reachable_exclusive⟩
  have hinv := reachable_inv h
  refine ⟨fun key ⟨hid, hat⟩ => hinv.apart key hid hat, hinv.one, hinv.owned, ?_, ?_⟩
  · intro key newer new old older hrows
    have hrevised := hinv.revised key
    rw [hrows] at hrevised
    exact hrevised.step
  · intro e w' hstep
    refine ⟨fun i row hrow => alertStep_priority h hstep hrow, ?_⟩
    rintro i request receipt rfl hknown
    rcases alertStep_cases h hstep with ⟨-, hnot⟩ | hcommit | ⟨label, he, -⟩
    · exact absurd rfl (hnot i request receipt)
    · obtain ⟨_, request', receipt', held, he, hrecorded⟩ := hcommit
      cases he
      exact hrecorded.idle hinv hknown
    · cases he

end

namespace Scenario

/-- Ids that tell episodes and incidents apart; incidents are created in the order of their ids. -/
scoped instance alertNames : AlertNames where
  keyText key := key.fingerprint ++ ":" ++ key.startsAt
  attachEvent key i := 1000 * i + key.fingerprint.length
  createdAt i := i

/-- The release anomaly on the target of the scenario that opens the incident `i`. -/
def releaseAnomaly (i : UUID) : AlertEvent :=
  .other (.release { incidentId := i, runId := i + 1, intakeKey := "release:" ++ toString i
                     deadline := seconds 900, budgetLimit := 4, versions := .obj [], input := none
                     targetId := some 1, priority := 1 })

/-- A delivery of the alert with the fingerprint, which may open the incident `i`. -/
def alert (fingerprint annotations : String) (i : UUID) : AlertEvent :=
  .deliver
    { delivery := ⟨⟨fingerprint, "2026-01-01T00:00:00Z"⟩, .firing, "alertmanager", annotations⟩
      opening := some
        { incidentId := i, intakeKey := "intake:" ++ fingerprint, freshTarget := 9
          work := .run (i + 1) "uid" none none (seconds 900) 4 (.obj []) none } }

/-- A human decision on an incident. -/
def decision (r : ControlRequest) : AlertEvent :=
  .other (.call (.control r) ⟨seconds 1, seconds 1, le_rfl⟩)

/-- The target of the scenario. -/
def registered : AlertEvent :=
  .other (.call (.registerTarget "uid" (some 1) 1) ⟨seconds 0, seconds 0, le_rfl⟩)

/-- An alert joins the incident of a release anomaly and fires again with other annotations; a
second alert cannot join it and opens an incident of its own. -/
def claimedRelease : List AlertEvent :=
  [registered, releaseAnomaly 10, alert "a" "x" 20, alert "a" "y" 20, alert "bb" "x" 30]

theorem alert_intake_claimed :
    ∃ w : World AlertStore AlertLock Code AlertReceipt AlertRequest,
      alertIntake.system.Reachable w ∧ w.db.Claims 10 "a" ∧
        (∀ key, ¬ ((w.db.identities.get key).isSome ∧ w.db.Attached key)) ∧
        ∀ f, w.db.Claims 10 f → f = "a" := by
  have hplayed : (played (fun db request => decide (db.Unmerged request.delivery.key.fingerprint))
      claimedRelease).any (fun db => 10 ∈ db.releases ∧ db.Claims 10 "a") = true := by
    decide +kernel
  obtain ⟨db, hdb, hclaimed⟩ := (Option.any_eq_true _ _).1 hplayed
  obtain ⟨hrelease, hclaims⟩ := of_decide_eq_true hclaimed
  have hreach : (alertIntake.system.restrict Unmerged).Reachable { db } :=
    reachable_played (fun _ _ _ => trivial) (fun _ _ => trivial)
      (fun w _ request _ hcheck => show w.db.Unmerged request.delivery.key.fingerprint from
        of_decide_eq_true hcheck) (fun _ _ => trivial) hdb
  refine ⟨{ db }, hreach.of_restrict, hclaims, (alert_intake.1 hreach.of_restrict).1, ?_⟩
  exact fun f hf => alert_intake.2 hreach 10 hrelease f "a" hf hclaims

/-- A release incident is closed and merged into the one a second anomaly opened; two alerts
follow. -/
def mergedRelease : List AlertEvent :=
  [registered, releaseAnomaly 10,
    decision { incidentId := 10, expectedGeneration := 0, action := .close, actor := "human" },
    releaseAnomaly 20,
    decision { incidentId := 10, expectedGeneration := 1, action := .mergeInto, actor := "human"
               survivorId := some 20, inputId := 7 },
    alert "a" "x" 30, alert "bb" "x" 40]

/-- Two fingerprints claim one release incident. -/
theorem alert_intake_merged :
    ∃ w : World AlertStore AlertLock Code AlertReceipt AlertRequest,
      alertIntake.system.Reachable w ∧ 20 ∈ w.db.releases ∧ w.db.Claims 20 "a" ∧
        w.db.Claims 20 "bb" := by
  have hplayed : (played (fun _ _ => true) mergedRelease).any
      (fun db => 20 ∈ db.releases ∧ db.Claims 20 "a" ∧ db.Claims 20 "bb") = true := by
    decide +kernel
  obtain ⟨db, hdb, hclaimed⟩ := (Option.any_eq_true _ _).1 hplayed
  have hreach : (alertIntake.system.restrict fun _ _ => True).Reachable { db } :=
    reachable_played (fun _ _ _ => trivial) (fun _ _ => trivial) (fun _ _ _ _ _ => trivial)
      (fun _ _ => trivial) hdb
  exact ⟨{ db }, hreach.of_restrict, of_decide_eq_true hclaimed⟩

end Scenario

end OpsPilot
