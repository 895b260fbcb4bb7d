import OpsPilot.Foundations.JsonFields
import OpsPilot.Persistence.Payloads

/-!
# Sending the payloads of the trace outbox

The thread that sends a row of the outbox reads the fields of its payload again, each in the form
the key asks for, and gives the row up when one is not (`_text`, `_count`, `_ns`, `_spans` in
`opspilot/outbox_delivery.py`).

* `recheck`: what the sender reads of a payload.
* `SoundPayload.recheck`: a payload whose values are sound is sent, whatever the kind of its row.
* **`deliverable_iff`**: a payload is built, fits its column and is sent exactly when no time of it
  leaves the calendar in UTC.
-/

namespace OpsPilot.Payload

section

variable [PayloadTexts]

open Json (dumps)

/-- What the sender makes a row unserializable for: a text or a number of the wrong form, a time
that is not read, has no offset or leaves the calendar, or a status that is no text. -/
inductive Unserializable
  | valueShape | number | time | naiveTime | overflow | status
  deriving DecidableEq, Repr

/-- `_text`. -/
def sentText : Json → Except Unserializable String
  | .str text => if valueShape.fullmatch text then .ok text else .error .valueShape
  | _ => .error .valueShape

/-- `_count`. -/
def sentCount : Json → Except Unserializable ℚ
  | .num q => .ok q
  | _ => .error .number

/-- The microseconds from 0001-01-01 to 1970-01-01. -/
def epochMicroseconds : ℤ := 719162 * 86400000000

/-- `_ns`, of a value of a payload. -/
def sentTime (value : Json) : Except Unserializable ℤ :=
  match sentText value with
  | .error _ => .error .time
  | .ok text =>
    match PayloadTexts.fromisoformat text with
    | none => .error .time
    | some none => .error .naiveTime
    | some (some moment) =>
      match moment.toUtc with
      | none => .error .overflow
      | some utc => .ok ((utc - epochMicroseconds) * 1000)

/-- `_METADATA_KEYS`. -/
def metadataKeys : List String :=
  ["attempt_id", "budget_seconds", "context_policy_revision", "finish_reason", "handoff_reason",
    "image_revision", "image_version", "incident_id", "prompt_revision", "reasoning_tokens",
    "run_id", "run_state", "source_contact", "span_kind", "step_id", "tool_name", "tool_reason",
    "tool_schema_revision", "tool_status_class"]

/-- `_TOKEN_KEYS`. -/
def tokenKeys : List String := ["input_tokens", "output_tokens", "total_tokens"]

/-- The keys of a list that a payload has. -/
def presentKeys (keys : List String) (payload : Json) : List String :=
  keys.filter fun key => (payload.field? key).isSome

/-- The value under a key that is there. -/
def valueOf (payload : Json) (key : String) : Json := (payload.field? key).getD .null

/-- One attribute of the metadata. -/
def sentMetadatum (payload : Json) (key : String) : Except Unserializable (String × Json) :=
  let name := "langsmith.metadata." ++ key
  if key ∈ ["reasoning_tokens", "budget_seconds"] then
    (sentCount (valueOf payload key)).map fun count => (name, .num count)
  else (sentText (valueOf payload key)).map fun text => (name, .str text)

/-- `_metadata`. -/
def sentMetadata (payload : Json) : Except Unserializable (List (String × Json)) :=
  (presentKeys metadataKeys payload).mapM (sentMetadatum payload)

/-- The attributes of a model's answer. -/
def modelAttributes (payload : Json) : Except Unserializable (List (String × Json)) := do
  let model ← (presentKeys ["model"] payload).mapM fun key => sentText (valueOf payload key)
  let tokens ← (presentKeys tokenKeys payload).mapM fun key => do
    let count ← sentCount (valueOf payload key)
    pure ("gen_ai.usage." ++ key, Json.num count)
  let reasoning ← (presentKeys ["reasoning_tokens"] payload).mapM fun key => do
    let count ← sentCount (valueOf payload key)
    pure ("gen_ai.usage.reasoning.output_tokens", Json.num count)
  pure ([("langsmith.span.kind", .str "llm"), ("gen_ai.system", .str "deepseek"),
      ("langsmith.metadata.ls_provider", .str "deepseek")] ++
    model.flatMap (fun model => [("gen_ai.request.model", .str model),
      ("gen_ai.response.model", .str model), ("langsmith.metadata.ls_model_name", .str model)]) ++
    tokens ++ reasoning)

/-- The attributes of a kind. -/
def kindAttributes (kind : Kind) (payload : Json) :
    Except Unserializable (List (String × Json)) :=
  match kind with
  | .modelStep | .generation => modelAttributes payload
  | .toolResult => .ok [("langsmith.span.kind", .str "tool")]
  | .runState => .ok [("langsmith.span.kind", .str "chain")]

/-- `_attributes`. -/
def sentAttributes (kind : Kind) (payload : Json) :
    Except Unserializable (List (String × Json)) := do
  let metadata ← sentMetadata payload
  let more ← kindAttributes kind payload
  pure (metadata ++ more)

/-- `_name`. -/
def sentName (kind : Kind) (payload : Json) : Except Unserializable String :=
  match kind with
  | .toolResult =>
    let tool := valueOf payload "tool_name"
    if tool.falsy then .ok "opspilot.tool_result"
    else (sentText tool).map ("opspilot.tool." ++ ·)
  | .runState =>
    (sentText ((payload.field? "run_state").getD (.str unclassified))).map
      ("opspilot.run_state." ++ ·)
  | .modelStep => .ok "opspilot.model_step"
  | .generation => .ok "opspilot.generation"

/-- `_error`. -/
def sentError (payload : Json) : Except Unserializable (Bool × Option String) :=
  match valueOf payload "tool_status_class" with
  | .arr _ | .obj _ => .error .status
  | status =>
    if status ∈ [.str "error", .str "timeout", .str "denied"] then
      let reason := valueOf payload "tool_reason"
      if reason.falsy then .ok (true, none)
      else (sentText reason).map fun reason => (true, some reason)
    else .ok (valueOf payload "run_state" = .str "failed", none)

/-- What the sender reads of a payload. -/
structure SentSpan where
  name : String
  start : Option ℤ
  stop : Option ℤ
  attributes : List (String × Json)
  error : Bool
  description : Option String

/-- `_spans`, as far as it reads the payload. -/
def recheck (kind : Kind) (payload : Json) : Except Unserializable SentSpan := do
  let stop ← (payload.field? "ended_at").mapM sentTime
  let start ← (payload.field? "started_at").mapM sentTime
  let attributes ← sentAttributes kind payload
  let (error, description) ← sentError payload
  let name ← sentName kind payload
  pure ⟨name, start, stop, attributes, error, description⟩

/-! ## What is sent -/

/-- A computation that comes to a result. -/
def Succeeds {ε α : Type} (x : Except ε α) : Prop := ∃ a, x = .ok a

omit [PayloadTexts] in
theorem Succeeds.bind {ε α β : Type} {x : Except ε α} {f : α → Except ε β} (hx : Succeeds x)
    (hf : ∀ a, x = .ok a → Succeeds (f a)) : Succeeds (x >>= f) := by
  obtain ⟨a, ha⟩ := hx
  obtain ⟨b, hb⟩ := hf a ha
  exact ⟨b, bind_eq_ok.2 ⟨a, ha, hb⟩⟩

omit [PayloadTexts] in
theorem Succeeds.map {ε α β : Type} {x : Except ε α} (hx : Succeeds x) (f : α → β) :
    Succeeds (x.map f) := by
  obtain ⟨a, rfl⟩ := hx
  exact ⟨f a, rfl⟩

omit [PayloadTexts] in
theorem succeeds_mapM {ε α β : Type} {f : α → Except ε β} {items : List α}
    (h : ∀ item ∈ items, Succeeds (f item)) : Succeeds (items.mapM f) := by
  induction items with
  | nil => exact ⟨[], rfl⟩
  | cons item items ih =>
    rw [List.mapM_cons]
    refine (h item List.mem_cons_self).bind fun b _ => ?_
    refine (ih fun item hitem => h item (List.mem_cons_of_mem _ hitem)).bind fun bs _ => ?_
    exact ⟨b :: bs, rfl⟩

omit [PayloadTexts] in
theorem sentText_eq_ok {text : String} (h : valueShape.fullmatch text = true) :
    sentText (.str text) = .ok text := by
  show (if valueShape.fullmatch text then .ok text else .error .valueShape :
    Except Unserializable String) = .ok text
  rw [if_pos h]

/-- A payload whose values are sound. -/
def SoundPayload (payload : Json) : Prop :=
  ∀ key value, payload.field? key = some value → Sound key value

omit [PayloadTexts] in
theorem Sound.sentText {key : String} {value : Json} (h : Sound key value)
    (hkey : key ∉ numberKeys) : Succeeds (sentText value) := by
  unfold Sound at h
  rw [if_neg hkey] at h
  split at h
  · obtain ⟨t, -, rfl⟩ := h
    exact ⟨_, sentText_eq_ok (isoformatUtc_value t)⟩
  · obtain ⟨text, rfl, hmatch⟩ := h
    exact ⟨text, sentText_eq_ok hmatch⟩

omit [PayloadTexts] in
theorem Sound.sentCount {key : String} {value : Json} (h : Sound key value)
    (hkey : key ∈ numberKeys) : Succeeds (sentCount value) := by
  unfold Sound at h
  rw [if_pos hkey] at h
  obtain ⟨q, rfl, -⟩ := h
  exact ⟨q, rfl⟩

/-- A time that was written is read back. -/
theorem Sound.sentTime {key : String} {value : Json} (h : Sound key value)
    (hkey : key ∈ timeKeys) : Succeeds (sentTime value) := by
  have htimes : ∀ key ∈ timeKeys, key ∉ numberKeys := by decide
  unfold Sound at h
  rw [if_neg (htimes key hkey), if_pos hkey] at h
  obtain ⟨t, ht, rfl⟩ := h
  have htext := sentText_eq_ok (isoformatUtc_value t)
  obtain ⟨moment, hread, hoffset⟩ := PayloadTexts.fromisoformat_isoformatUtc t ht
  have hutc : moment.toUtc = some moment.wall := by
    unfold Moment.toUtc
    have hlt := moment.wall_lt
    simp only [hoffset, sub_zero, Int.toNat_natCast]
    rw [if_pos ⟨Int.natCast_nonneg _, by exact_mod_cast hlt⟩]
  refine ⟨(moment.wall - epochMicroseconds) * 1000, ?_⟩
  simp only [Payload.sentTime, htext, hread, hutc]

variable {payload : Json}

omit [PayloadTexts] in
theorem mem_presentKeys {keys : List String} {key : String} (h : key ∈ presentKeys keys payload) :
    key ∈ keys ∧ payload.field? key = some (valueOf payload key) := by
  obtain ⟨hkey, hpresent⟩ := List.mem_filter.1 h
  obtain ⟨value, hvalue⟩ := Option.isSome_iff_exists.1 hpresent
  exact ⟨hkey, by rw [valueOf, hvalue, Option.getD_some]⟩

omit [PayloadTexts] in
theorem SoundPayload.metadata (h : SoundPayload payload) : Succeeds (sentMetadata payload) := by
  have hkeys : ∀ key ∈ metadataKeys, key ∉ ["reasoning_tokens", "budget_seconds"] →
      key ∉ numberKeys := by decide
  have hcounts : ∀ key ∈ ["reasoning_tokens", "budget_seconds"], key ∈ numberKeys := by decide
  refine succeeds_mapM fun key hkey => ?_
  obtain ⟨hkey, hvalue⟩ := mem_presentKeys hkey
  have hsound := h key _ hvalue
  unfold sentMetadatum
  by_cases hcount : key ∈ ["reasoning_tokens", "budget_seconds"]
  · rw [if_pos hcount]
    exact (hsound.sentCount (hcounts key hcount)).map _
  · rw [if_neg hcount]
    exact (hsound.sentText (hkeys key hkey hcount)).map _

omit [PayloadTexts] in
theorem SoundPayload.modelAttributes (h : SoundPayload payload) :
    Succeeds (modelAttributes payload) := by
  have hmodel : ∀ key ∈ ["model"], key ∉ numberKeys := by decide
  have htokens : ∀ key ∈ tokenKeys, key ∈ numberKeys := by decide
  have hreasoning : ∀ key ∈ ["reasoning_tokens"], key ∈ numberKeys := by decide
  refine Succeeds.bind (succeeds_mapM fun key hkey => ?_) fun model _ => ?_
  · obtain ⟨hkey, hvalue⟩ := mem_presentKeys hkey
    exact (h key _ hvalue).sentText (hmodel key hkey)
  refine Succeeds.bind (succeeds_mapM fun key hkey => ?_) fun tokens _ => ?_
  · obtain ⟨hkey, hvalue⟩ := mem_presentKeys hkey
    exact ((h key _ hvalue).sentCount (htokens key hkey)).bind fun count _ => ⟨_, rfl⟩
  refine Succeeds.bind (succeeds_mapM fun key hkey => ?_) fun reasoning _ => ⟨_, rfl⟩
  obtain ⟨hkey, hvalue⟩ := mem_presentKeys hkey
  exact ((h key _ hvalue).sentCount (hreasoning key hkey)).bind fun count _ => ⟨_, rfl⟩

omit [PayloadTexts] in
theorem SoundPayload.attributes (h : SoundPayload payload) (kind : Kind) :
    Succeeds (sentAttributes kind payload) := by
  refine h.metadata.bind fun metadata _ => Succeeds.bind ?_ fun more _ => ⟨_, rfl⟩
  cases kind with
  | modelStep | generation => exact h.modelAttributes
  | toolResult | runState => exact ⟨_, rfl⟩

omit [PayloadTexts] in
/-- The value under a key that is not there is null. -/
theorem SoundPayload.valueOf (h : SoundPayload payload) (key : String) :
    Sound key (valueOf payload key) ∨ Payload.valueOf payload key = .null := by
  unfold Payload.valueOf
  cases hvalue : payload.field? key with
  | none => exact .inr rfl
  | some value => exact .inl (h key value hvalue)

omit [PayloadTexts] in
theorem SoundPayload.name (h : SoundPayload payload) (kind : Kind) :
    Succeeds (sentName kind payload) := by
  have hstate : "run_state" ∉ numberKeys := by decide
  have htool : "tool_name" ∉ numberKeys := by decide
  cases kind with
  | toolResult =>
    unfold sentName
    dsimp only
    split
    · exact ⟨_, rfl⟩
    · next hfalsy =>
      rcases h.valueOf "tool_name" with hsound | hnull
      · exact (hsound.sentText htool).map _
      · rw [hnull] at hfalsy
        exact absurd rfl hfalsy
  | runState =>
    refine Succeeds.map ?_ _
    cases hvalue : payload.field? "run_state" with
    | none => exact ⟨unclassified, sentText_eq_ok unclassified_value⟩
    | some value => exact (h _ _ hvalue).sentText hstate
  | modelStep | generation => exact ⟨_, rfl⟩

omit [PayloadTexts] in
theorem SoundPayload.error (h : SoundPayload payload) : Succeeds (sentError payload) := by
  have hstatus : "tool_status_class" ∉ numberKeys := by decide
  have hreason : "tool_reason" ∉ numberKeys := by decide
  have hplain : ∀ fields, Payload.valueOf payload "tool_status_class" ≠ .obj fields ∧
      ∀ items, Payload.valueOf payload "tool_status_class" ≠ .arr items := by
    intro fields
    rcases h.valueOf "tool_status_class" with hsound | hnull
    · obtain ⟨text, htext⟩ := hsound.sentText hstatus
      constructor
      · intro heq
        rw [heq] at htext
        cases htext
      · intro items heq
        rw [heq] at htext
        cases htext
    · rw [hnull]
      exact ⟨Json.noConfusion, fun _ => Json.noConfusion⟩
  unfold sentError
  split
  · next items heq => exact absurd heq ((hplain []).2 items)
  · next fields heq => exact absurd heq (hplain fields).1
  · split
    · dsimp only
      split
      · exact ⟨_, rfl⟩
      · next hfalsy =>
        rcases h.valueOf "tool_reason" with hsound | hnull
        · exact (hsound.sentText hreason).map _
        · rw [hnull] at hfalsy
          exact absurd rfl hfalsy
    · exact ⟨_, rfl⟩

/-- **A sound payload is sent.** -/
theorem SoundPayload.recheck (h : SoundPayload payload) (kind : Kind) :
    Succeeds (recheck kind payload) := by
  have htime : ∀ key ∈ timeKeys, Succeeds ((payload.field? key).mapM sentTime) := by
    intro key hkey
    cases hvalue : payload.field? key with
    | none => exact ⟨none, rfl⟩
    | some value =>
      obtain ⟨t, ht⟩ := (h key value hvalue).sentTime hkey
      exact ⟨some t, by simp [Option.mapM, ht, Functor.map, Except.map]⟩
  refine (htime "ended_at" (by decide)).bind fun stop _ => ?_
  refine (htime "started_at" (by decide)).bind fun start _ => ?_
  refine (h.attributes kind).bind fun attributes _ => ?_
  refine h.error.bind fun error _ => ?_
  exact (h.name kind).bind fun name _ => ⟨_, rfl⟩

/-- The fields a caller gives are a mapping: no key occurs twice. -/
structure Fields where
  fields : List (String × FieldValue)
  nodup : (fields.map Prod.fst).Nodup

/-- A payload that is built, has only keys of the allowlist, fits its column and is sent. -/
def Deliverable (built : Except PayloadError (List (String × Json))) : Prop :=
  ∃ payload, built = .ok payload ∧ (∀ key ∈ payload.map Prod.fst, key ∈ payloadKeys) ∧
    byteCount (dumps payloadStyle (.obj payload)) ≤ 4096 ∧
    ∀ kind, Succeeds (recheck kind (.obj payload))

/-- **Outbox payloads are deliverable**, exactly when no time among the fields overflows. -/
theorem deliverable_iff (given : Fields) :
    Deliverable (build given.fields) ↔ ∀ field ∈ given.fields, ¬ Overflows field := by
  constructor
  · rintro ⟨payload, hbuild, -⟩ field hfield hoverflow
    rw [build_error (e := .overflow) |>.2 ⟨field, hfield, hoverflow⟩] at hbuild
    cases hbuild
  · intro hfields
    cases hbuild : build given.fields with
    | error e =>
      obtain ⟨field, hfield, hoverflow⟩ := build_error.1 hbuild
      exact absurd hoverflow (hfields field hfield)
    | ok payload =>
      obtain ⟨-, hsound⟩ := build_sound hbuild
      have hpayload : SoundPayload (.obj payload) := fun key value hvalue =>
        (hsound key value (Json.mem_of_field? hvalue)).2
      refine ⟨payload, rfl, ?_, size_le given.nodup hbuild, hpayload.recheck⟩
      intro key hkey
      obtain ⟨⟨key, value⟩, hmem, rfl⟩ := List.mem_map.1 hkey
      exact (hsound key value hmem).1

end

namespace FirstDay

theorem lastMicrosecond_pos : 0 < lastMicrosecond := by decide

/-- The first microsecond of the calendar, an hour east of Greenwich. -/
def moment : Moment := ⟨0, 3600000000, lastMicrosecond_pos⟩

/-- No text names a UUID; every text names the first microsecond, every number is written 0. -/
scoped instance payloadTexts : PayloadTexts where
  uuid _ := none
  fromisoformat _ := some (some ⟨0, 0, moment.wall_lt⟩)
  fromisoformat_isoformatUtc _ _ := ⟨_, rfl, rfl⟩
  numberText _ := ['0']
  numberText_ascii _ c hc := by rw [List.mem_singleton.1 hc]; rfl
  numberText_length _ _ := by decide

/-- A span that starts then. -/
def given : Fields where
  fields := [("started_at", .aware moment)]
  nodup := List.nodup_singleton _

/-- Nothing is built of a time before the calendar starts. -/
theorem not_deliverable : ¬ Deliverable (build given.fields) := by
  rintro ⟨payload, hbuild, -⟩
  have hoverflow : Overflows ("started_at", .aware moment) :=
    ⟨by decide, moment, rfl, by decide⟩
  have herror : build given.fields = .error .overflow :=
    build_error.2 ⟨_, List.mem_cons_self, hoverflow⟩
  rw [herror] at hbuild
  cases hbuild

end FirstDay

end OpsPilot.Payload
