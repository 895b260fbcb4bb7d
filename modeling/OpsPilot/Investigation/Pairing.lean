import OpsPilot.Foundations.FirstWrites
import OpsPilot.Foundations.Traversal
import OpsPilot.Investigation.Snapshot

/-!
# Pairing tool calls with their results

A provider refuses a transcript with a tool call that has no result, or a result without its call.
Groups of an assistant message and the results of its calls are built in one place
(`pair_tool_results` in `opspilot/investigation/messages.py`).

* `pairResults`: the group of a message and of results in any order.
* `WellPaired`: a list of messages in which every call has its result, right after the message.
* `pairResults_perm`, `pairResults_ok`: the order of the results does not matter, and a group has
  one result for each call, in the order of the calls.
* `pairToolResults_eq`: the loop, whose results are texts under ids, pairs them so.
-/

namespace OpsPilot

/-! ## Groups -/

/-- A result with exactly its three fields: the id of its call, and its content. -/
def cleanResult? (result : Json) : Option (String × String) :=
  if result.hasExactly ["role", "tool_call_id", "content"] ∧ result.get "role" = .str "tool" then
    match nonemptyText (result.get "tool_call_id"), (result.get "content").text? with
    | some id, some content => some (id, content)
    | _, _ => none
  else none

/-- The group of validated calls and cleaned results, in the order of the calls. -/
def pairCleaned (assistant : Json) (calls : List ToolCall) (cleaned : List (String × String))
    (requireReasoning : Bool) : Except PairingCode (List Json) := do
  let ids := calls.map ToolCall.id
  refuse (ids = [] ∨ ¬ids.Perm (cleaned.map Prod.fst)) .toolPairingInvalid
  let reasoning := (assistant.get "reasoning_content").text?
  refuse (requireReasoning ∧ reasoning = none) .privateProtocolMissing
  pure (assistantMessage (assistant.get "content").text? reasoning (calls.map ToolCall.toJson) ::
    ids.map fun id => toolMessage id ((cleaned.lookup id).getD ""))

/-- `pair_tool_results`. -/
def pairResults (assistant : Json) (results : List Json) (requireReasoning : Bool) :
    Except PairingCode (List Json) := do
  let content := assistant.get "content"
  refuse (assistant.get "role" ≠ .str "assistant" ∨ content ≠ .null ∧ content.text? = none)
    .toolPairingInvalid
  let calls ← validateToolCalls assistant
  let cleaned ← require (results.mapM cleanResult?) .toolPairingInvalid
  pairCleaned assistant calls cleaned requireReasoning

/-- A message that is no result of a tool and calls no tool. -/
def PlainMessage (message : Json) : Prop :=
  message.get "role" ≠ .str "tool" ∧ message.field? "tool_calls" = none

/-- A message that is the result of a call. -/
def IsResult (message : Json) (call : ToolCall) : Prop :=
  message.get "role" = .str "tool" ∧ message.get "tool_call_id" = .str call.id

/-- **Every call has its result and every result its call.** After a message with calls come the
results of these, one for each, in the order of the calls. -/
inductive WellPaired : List Json → Prop
  | nil : WellPaired []
  | plain {message : Json} {rest : List Json} (h : PlainMessage message) (hrest : WellPaired rest) :
      WellPaired (message :: rest)
  | group {message : Json} {calls : List ToolCall} {results rest : List Json}
      (role : message.get "role" = .str "assistant")
      (called : message.field? "tool_calls" = some (.arr (calls.map ToolCall.toJson)))
      (distinct : (calls.map ToolCall.id).Nodup)
      (answered : List.Forall₂ IsResult results calls) (hrest : WellPaired rest) :
      WellPaired (message :: results ++ rest)

theorem WellPaired.append {front back : List Json} (h : WellPaired front) (h' : WellPaired back) :
    WellPaired (front ++ back) := by
  induction h with
  | nil => exact h'
  | plain h _ ih => exact .plain h ih
  | group role called distinct answered _ ih =>
    rw [List.append_assoc]
    exact .group role called distinct answered ih

theorem wellPaired_of_plain {messages : List Json} (h : ∀ m ∈ messages, PlainMessage m) :
    WellPaired messages := by
  induction messages with
  | nil => exact .nil
  | cons message messages ih =>
    exact .plain (h message List.mem_cons_self) (ih fun m hm => h m (List.mem_cons_of_mem _ hm))

/-- The fields of an assistant message. -/
theorem assistantMessage_fields (content reasoning : Option String) (toolCalls : List Json) :
    (assistantMessage content reasoning toolCalls).get "role" = .str "assistant" ∧
      (assistantMessage content reasoning toolCalls).field? "tool_calls" =
        if toolCalls = [] then none else some (.arr toolCalls) := by
  have hkeys : ∀ key, (assistantMessage content reasoning toolCalls).field? key =
      ([("role", Json.str "assistant"), ("content", (content.map Json.str).getD .null)] ++
        Json.assign "reasoning_content" (reasoning.map .str) ++
        if toolCalls = [] then [] else [("tool_calls", Json.arr toolCalls)]).lookup key := by
    intro key
    refine Json.field?_dict ?_ key
    cases reasoning <;> by_cases htools : toolCalls = [] <;> simp [Json.assign, htools]
  constructor
  · rw [Json.get, hkeys]
    rfl
  · rw [hkeys]
    cases reasoning <;> by_cases htools : toolCalls = [] <;>
      simp [Json.assign, htools, List.lookup_cons]

/-- The ids of validated calls are distinct. -/
theorem validateToolCalls_nodup {message : Json} {calls : List ToolCall}
    (h : validateToolCalls message = .ok calls) : (calls.map ToolCall.id).Nodup := by
  unfold validateToolCalls at h
  split at h
  · obtain rfl := Except.ok.inj h
    exact List.nodup_nil
  · split at h
    · split at h
      · next hnodup =>
        obtain rfl := Except.ok.inj h
        exact hnodup
      · cases h
    · cases h
  · cases h

/-- Of results with distinct ids, the one that is looked up does not depend on their order. -/
theorem lookup_perm {results results' : List (String × String)} (h : results.Perm results')
    (hnodup : (results.map Prod.fst).Nodup) (id : String) :
    results.lookup id = results'.lookup id := by
  have hnodup' : (results'.map Prod.fst).Nodup := (h.map Prod.fst).nodup_iff.1 hnodup
  ext content
  rw [lookup_eq_some_iff_mem hnodup, lookup_eq_some_iff_mem hnodup', h.mem_iff]

theorem pairCleaned_perm {assistant : Json} {calls : List ToolCall}
    {cleaned cleaned' : List (String × String)} (hcalls : (calls.map ToolCall.id).Nodup)
    (h : cleaned.Perm cleaned') (requireReasoning : Bool) :
    pairCleaned assistant calls cleaned requireReasoning =
      pairCleaned assistant calls cleaned' requireReasoning := by
  unfold pairCleaned
  by_cases hperm : (calls.map ToolCall.id).Perm (cleaned.map Prod.fst)
  · have hperm' : (calls.map ToolCall.id).Perm (cleaned'.map Prod.fst) := hperm.trans (h.map _)
    have hlookup := lookup_perm h (hperm.nodup_iff.1 hcalls)
    simp only [hperm, hperm', hlookup]
  · have hperm' : ¬ (calls.map ToolCall.id).Perm (cleaned'.map Prod.fst) := fun hperm' =>
      hperm (hperm'.trans (h.map _).symm)
    simp only [hperm, hperm', not_false_eq_true, or_true]
    rfl

/-- **The order of the results does not matter.** -/
theorem pairResults_perm {results results' : List Json} (h : results.Perm results')
    (assistant : Json) (requireReasoning : Bool) :
    pairResults assistant results requireReasoning =
      pairResults assistant results' requireReasoning := by
  unfold pairResults
  refine congrArg _ (funext fun _ => ?_)
  cases hcalls : validateToolCalls assistant with
  | error e => rfl
  | ok calls =>
    show ((require (results.mapM cleanResult?) PairingCode.toolPairingInvalid >>= _) :
      Except PairingCode (List Json)) = require (results'.mapM cleanResult?) _ >>= _
    cases hcleaned : results.mapM cleanResult? with
    | none =>
      have hcleaned' : results'.mapM cleanResult? = none := by
        by_contra hsome
        obtain ⟨found, hfound⟩ := Option.ne_none_iff_exists'.1 hsome
        obtain ⟨found', hfound', -⟩ := mapM_some_perm h.symm hfound
        rw [hcleaned] at hfound'
        cases hfound'
      rw [hcleaned']
    | some cleaned =>
      obtain ⟨cleaned', hcleaned', hperm⟩ := mapM_some_perm h hcleaned
      rw [hcleaned']
      exact pairCleaned_perm (validateToolCalls_nodup hcalls) hperm requireReasoning

/-- **What a group is**: the message with its calls, and for each call, in their order, its result,
which is one of the results given; no result is left over. -/
theorem pairResults_ok {assistant : Json} {results group : List Json} {requireReasoning : Bool}
    (h : pairResults assistant results requireReasoning = .ok group) :
    ∃ calls cleaned kept, validateToolCalls assistant = .ok calls ∧ calls ≠ [] ∧
      results.mapM cleanResult? = some cleaned ∧
      kept = assistantMessage (assistant.get "content").text?
        (assistant.get "reasoning_content").text? (calls.map ToolCall.toJson) ∧
      group = kept :: calls.map (fun call =>
        toolMessage call.id ((cleaned.lookup call.id).getD "")) ∧
      (calls.map fun call => (call.id, (cleaned.lookup call.id).getD "")).Perm cleaned := by
  obtain ⟨-, -, h⟩ := bind_eq_ok.1 h
  obtain ⟨calls, hcalls, h⟩ := bind_eq_ok.1 h
  obtain ⟨cleaned, hcleaned, h⟩ := bind_eq_ok.1 h
  simp only [pairCleaned, refuse_bind_eq_ok, pure_eq_ok, not_or, not_not] at h
  obtain ⟨⟨hne, hperm⟩, -, rfl⟩ := h
  have hnodup := validateToolCalls_nodup hcalls
  have hnodup' : (cleaned.map Prod.fst).Nodup := hperm.nodup_iff.1 hnodup
  refine ⟨calls, cleaned, _, hcalls, fun heq => hne (by rw [heq]; rfl), require_eq_ok.1 hcleaned,
    rfl, by rw [List.map_map]; rfl, ?_⟩
  -- both lists have no duplicates and the same members
  refine (List.perm_ext_iff_of_nodup ?_ hnodup'.of_map).2 fun pair => ?_
  · refine List.Nodup.of_map Prod.fst ?_
    rw [List.map_map]
    exact hnodup
  · obtain ⟨id, content⟩ := pair
    rw [List.mem_map, ← lookup_eq_some_iff_mem hnodup']
    constructor
    · rintro ⟨call, hcall, heq⟩
      obtain ⟨rfl, rfl⟩ := Prod.mk.inj heq
      have hmem : call.id ∈ cleaned.map Prod.fst := hperm.mem_iff.1 (List.mem_map_of_mem hcall)
      obtain ⟨⟨id, content⟩, hmem, hid⟩ := List.mem_map.1 hmem
      have hfound := (lookup_eq_some_iff_mem hnodup').2 hmem
      obtain rfl : id = call.id := hid
      rw [hfound]
      rfl
    · intro hfound
      have hmem : id ∈ calls.map ToolCall.id := hperm.mem_iff.2
        (List.mem_map.2 ⟨_, (lookup_eq_some_iff_mem hnodup').1 hfound, rfl⟩)
      obtain ⟨call, hcall, rfl⟩ := List.mem_map.1 hmem
      exact ⟨call, hcall, by rw [hfound]; rfl⟩

/-- A group is well paired. -/
theorem wellPaired_of_pairResults {assistant : Json} {results group : List Json}
    {requireReasoning : Bool} (h : pairResults assistant results requireReasoning = .ok group) :
    WellPaired group := by
  obtain ⟨calls, cleaned, kept, hcalls, hne, -, rfl, rfl, -⟩ := pairResults_ok h
  obtain ⟨hrole, hcalled⟩ := assistantMessage_fields (assistant.get "content").text?
    (assistant.get "reasoning_content").text? (calls.map ToolCall.toJson)
  rw [if_neg (by simpa using hne)] at hcalled
  have hanswered : List.Forall₂ IsResult
      (calls.map fun call => toolMessage call.id ((cleaned.lookup call.id).getD "")) calls := by
    rw [List.forall₂_map_left_iff]
    exact List.forall₂_same.2 fun call _ => ⟨rfl, rfl⟩
  have hgroup := WellPaired.group hrole hcalled (validateToolCalls_nodup hcalls) hanswered .nil
  rwa [List.append_nil] at hgroup

/-! ## The live loop -/

/-- The fields of a message with calls, in order. -/
theorem assistantMessage_called (content : Option String) (reasoning : String)
    {toolCalls : List Json} (h : toolCalls ≠ []) :
    assistantMessage content (some reasoning) toolCalls =
      .obj [("content", (content.map Json.str).getD .null), ("reasoning_content", .str reasoning),
        ("role", .str "assistant"), ("tool_calls", .arr toolCalls)] := by
  have h₁ : ¬ "role" ≤ "content" := by decide
  have h₂ : "content" ≤ "reasoning_content" ∧ "content" ≤ "tool_calls" ∧ "role" ≤ "tool_calls" ∧
    "reasoning_content" ≤ "tool_calls" ∧ ¬ "role" ≤ "reasoning_content" := by decide
  simp [assistantMessage, h, Json.assign, Json.dict, List.insertionSort, List.orderedInsert, h₁, h₂]

theorem cleanResult?_toolMessage (id content : String) :
    cleanResult? (toolMessage id content) = if id = "" then none else some (id, content) := by
  unfold cleanResult?
  rw [if_pos ⟨rfl, rfl⟩]
  show (match (if id = "" then none else some id), some content with
    | some id, some content => some (id, content)
    | _, _ => none) = _
  by_cases hid : id = "" <;> simp [hid]

theorem mapM_cleanResult? (results : List (String × String)) :
    (results.map fun r => toolMessage r.1 r.2).mapM cleanResult? =
      if "" ∈ results.map Prod.fst then none else some results := by
  induction results with
  | nil => rfl
  | cons result results ih =>
    obtain ⟨id, content⟩ := result
    rw [List.map_cons, List.mapM_cons, ih, cleanResult?_toolMessage]
    by_cases hid : id = ""
    · simp [hid]
    · by_cases hmem : "" ∈ results.map Prod.fst
      · simp [hid, hmem]
      · simp [hid, hmem, Ne.symm hid]

/-- The live loop pairs its results as the rebuild does. -/
theorem pairToolResults_eq (assistant : Json) (results : List (String × String)) :
    pairToolResults assistant results =
      pairResults assistant (results.map fun r => toolMessage r.1 r.2) true := by
  unfold pairToolResults pairResults
  rw [mapM_cleanResult?]
  by_cases hrole : assistant.get "role" ≠ .str "assistant" ∨
      assistant.get "content" ≠ .null ∧ (assistant.get "content").text? = none
  · simp only [if_pos hrole, refuse]
    rfl
  · simp only [if_neg hrole, refuse]
    have hcontent : ((assistant.get "content").text?.map Json.str).getD .null =
        assistant.get "content" := by
      cases hget : assistant.get "content" <;> simp_all [Json.text?]
    cases hcalls : validateToolCalls assistant with
    | error e => rfl
    | ok calls =>
      by_cases hempty : "" ∈ results.map Prod.fst
      · simp only [hempty, true_or, if_true]
        rfl
      · simp only [hempty, false_or, if_false, require]
        show (if calls.map ToolCall.id = [] ∨ ¬ (calls.map ToolCall.id).Perm
          (results.map Prod.fst) then _ else _) = pairCleaned assistant calls results true
        unfold pairCleaned
        dsimp only
        by_cases hrefused : calls.map ToolCall.id = [] ∨
            ¬ (calls.map ToolCall.id).Perm (results.map Prod.fst)
        · rw [if_pos hrefused, refuse, if_pos hrefused]
          rfl
        · rw [if_neg hrefused, refuse, if_neg hrefused]
          cases hreasoning : (assistant.get "reasoning_content").text? with
          | none => rfl
          | some reasoning =>
            have hcalled : calls.map ToolCall.toJson ≠ [] := by
              rintro heq
              exact hrefused (.inl (by rw [List.map_eq_nil_iff.1 heq]; rfl))
            rw [assistantMessage_called _ _ hcalled, hcontent]
            rfl

end OpsPilot
