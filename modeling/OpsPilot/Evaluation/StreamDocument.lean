import OpsPilot.Evaluation.StreamCuts

/-!
# The document of a stream

What the bytes of a response say by the rules of event streams: their lines, the events of these
lines, the objects of the events before the end marker, and the completion of the objects, whose
content is that of the deltas in their order. `assemble_sse` gives this document, and no cut of the
bytes changes what it gives.
-/

namespace OpsPilot.EventStream

open Redaction (Text Code Tree literal encode decode)
open Codec StreamCode Lines

section

variable [CodecTexts]

/-! ## The rules -/

/-- The bytes after a byte-order mark. -/
def withoutMark (text : Bytes) : Bytes :=
  if text.take 3 = [0xEF, 0xBB, 0xBF] then text.drop 3 else text

/-- The texts of the lines before one that is not UTF-8. -/
def texts : List Bytes → List Text
  | [] => []
  | line :: lines =>
    match decodeLine line with
    | some text => text :: texts lines
    | none => []

/-- The lines between the blank ones; those after the last are no block. -/
def blocksFrom (block : List Text) : List Text → List (List Text)
  | [] => []
  | line :: lines =>
    if line = [] then block :: blocksFrom [] lines else blocksFrom (block ++ [line]) lines

/-- The values of the fields of a name. -/
def values (name : String) (block : List Text) : List Text :=
  ((block.map fieldOf).filter fun field => field.1 = literal name).map Prod.snd

/-- The type and the data of the event of a block; without data there is none. -/
def eventOf (block : List Text) : Option (Text × Text) :=
  if values "data" block = [] then none
  else some ((values "event" block).getLast?.getD [],
    (literal "\n").intercalate (values "data" block))

/-- The objects of the events before the end marker. -/
def objectsOf (events : List (Text × Text)) : List (List (Text × Tree)) :=
  (events.takeWhile fun event => event.2 ≠ literal "[DONE]").filterMap fun event =>
    (encode event.2).bind parse

/-- The only choice of an object. -/
def choiceOfObject (obj : List (Text × Tree)) : Option (List (Text × Tree) × Tree) :=
  match get obj "choices" with
  | .arr choices => choiceOf choices
  | _ => none

/-- The last value that is present. -/
def lastPresent (values : List Tree) : Tree := ((values.filter (· ≠ .null)).getLast?).getD .null

/-- The content of a delta. -/
def contentOf (delta : List (Text × Tree)) : Option Text :=
  match get delta "content" with
  | .str text => some text
  | _ => none

/-- The completion of the objects of a stream. -/
def completionOf (objects : List (List (Text × Tree))) : Completion :=
  let model := (objects.head?.map (get · "model")).getD .null
  let ident := (objects.head?.map (get · "id")).getD .null
  let choices := objects.filterMap choiceOfObject
  let finish := lastPresent (choices.map Prod.snd)
  { chunks := objects.length
    id := ident
    model := model
    identityOk := objects.all (identifies model ident)
    content := choices.filterMap fun choice => contentOf choice.1
    role := lastPresent (choices.map fun choice => get choice.1 "role")
    extra := choices.foldl (fun extra choice => setDefaults extra choice.1) []
    finished := finish ≠ .null
    finish := finish
    usage := lastPresent (objects.map (get · "usage")) }

/-- The completion of a response by the rules of event streams. -/
def streamCompletion (text : Bytes) : Completion :=
  completionOf (objectsOf ((blocksFrom [] (texts (lines 13 10 (withoutMark text)))).filterMap eventOf))

/-! ## Objects -/

omit [CodecTexts] in
theorem lastPresent_append (values : List Tree) (value : Tree) : lastPresent (values ++ [value]) =
    if value = .null then lastPresent values else value := by
  by_cases h : value = .null
  · simp [lastPresent, h]
  · simp [lastPresent, h]

variable {a b : Assembly} {objects : List (List (Text × Tree))} {delta obj : List (Text × Tree)}

omit [CodecTexts] in
/-- What is kept of an object before its choices. -/
theorem observe_completion (ha : a.toCompletion = completionOf objects) (obj : List (Text × Tree)) :
    (a.observe obj).toCompletion =
      { completionOf (objects ++ [obj]) with
        content := a.content
        role := a.role
        extra := a.extra
        finished := a.finished
        finish := a.finish } := by
  have hchunks : a.chunks = objects.length := congrArg Completion.chunks ha
  have hmodel : a.model = (objects.head?.map (get · "model")).getD .null :=
    congrArg Completion.model ha
  have hident : a.id = (objects.head?.map (get · "id")).getD .null := congrArg Completion.id ha
  have hidentity : a.identityOk = (completionOf objects).identityOk :=
    congrArg Completion.identityOk ha
  have husage : a.usage = lastPresent (objects.map (get · "usage")) := congrArg Completion.usage ha
  have hlast : (if get obj "usage" = .null then a.usage else get obj "usage") =
      lastPresent ((objects ++ [obj]).map (get · "usage")) := by
    rw [husage, List.map_append, List.map_singleton, lastPresent_append]
  cases objects with
  | nil => simp [Assembly.observe, completionOf, hchunks, hidentity, hlast]
  | cons first objects =>
    simp [Assembly.observe, completionOf, hchunks, hmodel, hident, hidentity, hlast,
      Bool.and_assoc]

omit [CodecTexts] in
theorem addContent_eq_ok {content : Tree} (h : a.addContent content = .ok b) :
    ∃ text : Option Text, (content = (text.map Tree.str).getD .null) ∧
      ∃ size, b = { a with content := a.content ++ text.toList, contentSize := size } := by
  cases content with
  | null =>
    obtain rfl := Except.ok.inj h
    exact ⟨none, rfl, a.contentSize, by simp⟩
  | str text =>
    obtain ⟨-, h⟩ := refuse_bind_eq_ok.1 h
    obtain rfl := Except.ok.inj h
    exact ⟨some text, rfl, _, rfl⟩
  | _ => cases h

omit [CodecTexts] in
/-- A choice more. -/
theorem addChoice_eq_ok {finish : Tree} (h : a.addChoice delta finish = .ok b) : ∃ size, b =
      { a with
        content := a.content ++ (contentOf delta).toList
        contentSize := size
        role := if get delta "role" = .null then a.role else get delta "role"
        extra := setDefaults a.extra delta
        finished := a.finished || finish ≠ .null
        finish := if finish = .null then a.finish else finish } := by
  obtain ⟨-, h⟩ := refuse_bind_eq_ok.1 h
  obtain ⟨hrole, h⟩ := refuse_bind_eq_ok.1 h
  obtain ⟨c, hc, h⟩ := bind_eq_ok.1 h
  obtain ⟨text, htext, size, rfl⟩ := addContent_eq_ok hc
  have hcontent : contentOf delta = text := by
    rw [contentOf, htext]
    cases text <;> rfl
  refine ⟨size, ?_⟩
  rw [hcontent]
  obtain rfl := Except.ok.inj h
  by_cases hfinish : finish = .null
  · simp [hfinish]
  · simp [hfinish]

omit [CodecTexts] in
theorem completionOf_snoc_none (h : choiceOfObject obj = none) : completionOf (objects ++ [obj]) =
      { completionOf (objects ++ [obj]) with
        content := (completionOf objects).content
        role := (completionOf objects).role
        extra := (completionOf objects).extra
        finished := (completionOf objects).finished
        finish := (completionOf objects).finish } := by
  simp [completionOf, h]

omit [CodecTexts] in
theorem completionOf_snoc_some {finish : Tree} (h : choiceOfObject obj = some (delta, finish)) :
    completionOf (objects ++ [obj]) =
      { completionOf (objects ++ [obj]) with
        content := (completionOf objects).content ++ (contentOf delta).toList
        role := if get delta "role" = .null then (completionOf objects).role else get delta "role"
        extra := setDefaults (completionOf objects).extra delta
        finished := (completionOf objects).finished || finish ≠ .null
        finish := if finish = .null then (completionOf objects).finish else finish } := by
  have hchoices : (objects ++ [obj]).filterMap choiceOfObject =
      objects.filterMap choiceOfObject ++ [(delta, finish)] := by simp [h]
  have hcontent : [(delta, finish)].filterMap (fun choice => contentOf choice.1) =
      (contentOf delta).toList := by
    cases hdelta : contentOf delta <;> simp [hdelta]
  simp only [completionOf, hchoices, List.map_append, List.map_singleton, lastPresent_append,
    List.foldl_append, List.foldl_cons, List.foldl_nil, List.filterMap_append, hcontent]
  by_cases hfinish : finish = .null
  · simp [hfinish]
  · simp [hfinish]

omit [CodecTexts] in
/-- An object more. -/
theorem chunk_eq_ok (ha : a.toCompletion = completionOf objects) (h : a.chunk obj = .ok b) :
    b.toCompletion = completionOf (objects ++ [obj]) ∧ b.data = a.data ∧ b.event = a.event ∧
      b.done = a.done := by
  obtain ⟨-, h⟩ := refuse_bind_eq_ok.1 h
  have hobserve := observe_completion ha obj
  cases hchoices : get obj "choices" with
  | arr choices =>
    rw [hchoices] at h
    cases choices with
    | nil =>
      have hnone : choiceOfObject obj = none := by rw [choiceOfObject, hchoices]; rfl
      have hb : a.observe obj = b := by
        by_cases hfinished : (a.observe obj).finished = true
        · exact Except.ok.inj ((if_pos hfinished).symm.trans h)
        · cases (if_neg hfinished).symm.trans h
      subst hb
      refine ⟨?_, rfl, rfl, rfl⟩
      rw [hobserve, completionOf_snoc_none hnone, ha]
    | cons choice choices =>
      obtain ⟨⟨delta, finish⟩, hchoice, h⟩ := require_bind_eq_ok.1 h
      obtain ⟨size, rfl⟩ := addChoice_eq_ok h
      have hsome : choiceOfObject obj = some (delta, finish) := by
        rw [choiceOfObject, hchoices]
        exact hchoice
      refine ⟨?_, rfl, rfl, rfl⟩
      rw [completionOf_snoc_some hsome, hobserve, ha]
  | _ =>
    rw [hchoices] at h
    cases h

/-! ## Events -/

/-- The lines of a stream up to the end marker. -/
def dispatchAll (a : Assembly) : List Bytes → Except StreamCode Assembly
  | [] => .ok a
  | line :: lines => if a.done then .ok a else a.dispatchLine line >>= fun a => dispatchAll a lines

omit [CodecTexts] in
theorem values_snoc (name : String) (block : List Text) (line : Text) :
    values name (block ++ [line]) =
      if (fieldOf line).1 = literal name then values name block ++ [(fieldOf line).2]
      else values name block := by
  by_cases h : (fieldOf line).1 = literal name
  · simp [values, h]
  · simp [values, h]

/-- What is known within a block. -/
structure Within (a : Assembly) (objects : List (List (Text × Tree))) (block : List Text) :
    Prop where
  completion : a.toCompletion = completionOf objects
  data : a.data = values "data" block
  event : a.event = (values "event" block).getLast?.getD []

omit [CodecTexts] in
/-- A line that is not blank. -/
theorem Within.addField {block : List Text} (h : Within a objects block) {line : Text}
    (hb : a.addField (fieldOf line) = .ok b) :
    Within b objects (block ++ [line]) ∧ b.done = a.done := by
  rw [Assembly.addField] at hb
  by_cases hdata : (fieldOf line).1 = literal "data"
  · rw [if_pos hdata] at hb
    obtain ⟨-, hb⟩ := refuse_bind_eq_ok.1 hb
    obtain rfl := Except.ok.inj hb
    have hevent : (fieldOf line).1 ≠ literal "event" := by rw [hdata]; decide
    refine ⟨⟨h.completion, ?_, ?_⟩, rfl⟩
    · rw [values_snoc, if_pos hdata, ← h.data]
    · rw [values_snoc, if_neg hevent, ← h.event]
  · rw [if_neg hdata] at hb
    by_cases hevent : (fieldOf line).1 = literal "event"
    · rw [if_pos hevent] at hb
      obtain rfl := Except.ok.inj hb
      refine ⟨⟨h.completion, ?_, ?_⟩, rfl⟩
      · rw [values_snoc, if_neg hdata, ← h.data]
      · simp [values_snoc, hevent]
    · rw [if_neg hevent] at hb
      obtain rfl := Except.ok.inj hb
      refine ⟨⟨h.completion, ?_, ?_⟩, rfl⟩
      · rw [values_snoc, if_neg hdata, ← h.data]
      · rw [values_snoc, if_neg hevent, ← h.event]

omit [CodecTexts] in
/-- A comment. -/
theorem Within.comment {block : List Text} (h : Within a objects block) {line : Text}
    (hline : line.head? = some (Redaction.Code.char ':')) :
    Within a objects (block ++ [line]) := by
  obtain ⟨rest, rfl⟩ := List.head?_eq_some_iff.1 hline
  have hname : (fieldOf (Redaction.Code.char ':' :: rest)).1 = [] := by simp [fieldOf]
  refine ⟨h.completion, ?_, ?_⟩
  · rw [values_snoc, hname, if_neg (by decide), h.data]
  · rw [values_snoc, hname, if_neg (by decide), h.event]

theorem dispatchAll_of_done (hdone : a.done = true) (lines : List Bytes) :
    dispatchAll a lines = .ok a := by
  cases lines with
  | nil => rfl
  | cons line lines => exact if_pos hdone

omit [CodecTexts] in
/-- The event of a block. -/
theorem eventOf_eq {block : List Text} (h : Within a objects block) : eventOf block =
      if a.data = [] then none else some (a.event, (literal "\n").intercalate a.data) := by
  rw [eventOf, h.data, h.event]

/-- What a stream makes of its lines is the completion of their objects. -/
theorem dispatchAll_completion {block : List Text} (h : Within a objects block)
    (hdone : a.done = false) {lines : List Bytes} (hb : dispatchAll a lines = .ok b)
    (hend : b.done = true) :
    b.toCompletion = completionOf
      (objects ++ objectsOf ((blocksFrom block (texts lines)).filterMap eventOf)) := by
  induction lines generalizing a objects block with
  | nil =>
    obtain rfl := Except.ok.inj hb
    rw [hend] at hdone
    cases hdone
  | cons line lines ih =>
    rw [dispatchAll, if_neg (by simp [hdone])] at hb
    obtain ⟨c, hc, hb⟩ := bind_eq_ok.1 hb
    obtain ⟨text, htext, hc⟩ := require_bind_eq_ok.1 hc
    rw [texts, htext]
    by_cases hblank : text = []
    · rw [if_pos hblank, Assembly.dispatchEvent] at hc
      rw [blocksFrom, if_pos hblank, List.filterMap_cons, eventOf_eq h]
      by_cases hdata : a.data = []
      · rw [if_pos hdata] at hc
        obtain rfl := Except.ok.inj hc
        rw [if_pos hdata]
        have hwithin : Within { a with data := [], dataSize := 0, event := [] } objects [] :=
          ⟨h.completion, rfl, rfl⟩
        exact ih hwithin hdone hb
      · rw [if_neg hdata] at hc
        obtain ⟨-, hc⟩ := refuse_bind_eq_ok.1 hc
        rw [if_neg hdata]
        by_cases hmarker : (literal "\n").intercalate a.data = literal "[DONE]"
        · rw [if_pos hmarker] at hc
          obtain rfl := Except.ok.inj hc
          rw [dispatchAll_of_done (by rfl)] at hb
          obtain rfl := Except.ok.inj hb
          simp only [objectsOf, hmarker]
          simpa using h.completion
        · rw [if_neg hmarker] at hc
          obtain ⟨raw, hraw, hc⟩ := require_bind_eq_ok.1 hc
          obtain ⟨obj, hobj, hc⟩ := require_bind_eq_ok.1 hc
          obtain ⟨hcompletion, hcdata, hcevent, hcdone⟩ :=
            chunk_eq_ok (a := { a with data := [], dataSize := 0, event := [] }) h.completion hc
          have hwithin : Within c (objects ++ [obj]) [] := ⟨hcompletion, hcdata, hcevent⟩
          rw [ih hwithin (hcdone.trans hdone) hb, List.append_assoc]
          simp [objectsOf, hmarker, hraw, hobj]
    · rw [if_neg hblank] at hc
      rw [blocksFrom, if_neg hblank]
      by_cases hcomment : text.head? = some (Redaction.Code.char ':')
      · rw [if_pos hcomment] at hc
        obtain rfl := Except.ok.inj hc
        exact ih (h.comment hcomment) hdone hb
      · rw [if_neg hcomment] at hc
        obtain ⟨hwithin, hcdone⟩ := h.addField hc
        exact ih hwithin (hcdone.trans hdone) hb

open SSEAssembler in
/-- One byte at a time makes of a text what its lines make. -/
theorem SSEAssembler.run_eq_ok {s t : SSEAssembler} {text : Bytes} (h : s.run text = .ok t) :
    dispatchAll s.toAssembly (linesFrom 13 10 s.held text) = .ok t.toAssembly := by
  induction text generalizing s with
  | nil =>
    obtain rfl := Except.ok.inj h
    rfl
  | cons b text ih =>
    by_cases hdone : s.done = true
    · rw [run_of_done hdone] at h
      obtain rfl := Except.ok.inj h
      exact dispatchAll_of_done hdone _
    rw [run] at h
    obtain ⟨u, hu, h⟩ := bind_eq_ok.1 h
    rw [step, if_neg hdone] at hu
    rw [linesFrom]
    by_cases hpair : s.cr ∧ b = 10
    · rw [if_pos hpair, count_eq] at hu
      split at hu
      · obtain rfl := Except.ok.inj hu
        rw [if_neg fun h => h.1 hpair, hold, if_pos (show s.held.2 ∧ b = 10 from hpair)]
        exact ih h
      · cases hu
    have hheld : ¬ (s.held.2 = true ∧ b = 10) := hpair
    rw [if_neg hpair] at hu
    by_cases hend : b = 13 ∨ b = 10
    · rw [if_pos hend, count_eq] at hu
      split at hu
      · rw [ok_bind] at hu
        obtain ⟨a, ha, hu⟩ := bind_eq_ok.1 hu
        obtain rfl := Except.ok.inj hu
        have hhold : hold 13 10 s.held b = ([], decide (b = 13)) := by
          rw [hold, if_neg hheld]
          rcases hend with rfl | rfl
          · rfl
          · rfl
        rw [if_pos ⟨hheld, hend⟩, hhold, dispatchAll, if_neg hdone]
        exact bind_eq_ok.2 ⟨a, ha, ih h⟩
      · cases hu
    · rw [if_neg hend, count_eq] at hu
      split at hu
      · obtain rfl := Except.ok.inj hu
        rw [if_neg fun h => hend h.2, hold, if_neg hheld, if_neg fun h => hend (.inl h),
          if_neg fun h => hend (.inr h)]
        exact ih h
      · cases hu

open SSEAssembler in
/-- The document of the bytes is the one of their lines. -/
theorem outcome_eq_ok {text : Bytes} {maxDocumentBytes : ℕ} {raw : ByteArray}
    (hmark : text.take 3 ≠ [0xEF, 0xBB, 0xBF])
    (h : (start maxDocumentBytes).outcome text = .ok raw) :
    Codec.canonicalBytes (streamCompletion text).json = some raw := by
  obtain ⟨t, ht, h⟩ := bind_eq_ok.1 h
  have hlines := run_eq_ok ht
  have hdocument : t.document = .ok raw := by
    split at h
    · exact h
    · obtain ⟨u, hu, h⟩ := bind_eq_ok.1 h
      obtain ⟨-, hu⟩ := refuse_bind_eq_ok.1 hu
      obtain rfl := Except.ok.inj hu
      exact h
  obtain ⟨hdone, hdocument⟩ := refuse_bind_eq_ok.1 hdocument
  obtain ⟨-, hdocument⟩ := refuse_bind_eq_ok.1 hdocument
  obtain ⟨bytes, hbytes, hdocument⟩ := require_bind_eq_ok.1 hdocument
  obtain ⟨-, hdocument⟩ := refuse_bind_eq_ok.1 hdocument
  obtain rfl := Except.ok.inj hdocument
  have hwithin : Within (start maxDocumentBytes).toAssembly [] [] := ⟨rfl, rfl, rfl⟩
  have hcompletion := dispatchAll_completion hwithin rfl hlines (by simpa using hdone)
  rw [streamCompletion, withoutMark, if_neg hmark]
  exact hcompletion ▸ hbytes

end

namespace ShortStream

/-- A machine on which the texts here are read. -/
scoped instance codecTexts : CodecTexts where
  recursionLimit := 1000
  floatRepr token := token
  isFinite _ := true
  encodeLimit := 300

/-- The event of an answer. -/
def answer : Bytes :=
  ("data: \x7b\"choices\":[\x7b\"delta\":\x7b\"content\":\"ok\"\x7d,\"finish_reason\":\"stop\"," ++
    "\"index\":0\x7d],\"id\":\"1\",\"model\":\"m\"\x7d\x0d\n\x0d\n").toUTF8.data.toList

/-- The data line of the end marker. -/
def marker : Bytes := "data: [DONE]".toUTF8.data.toList

/-- A whole response. -/
def stream : Bytes := answer ++ marker ++ [13, 10, 13, 10]

theorem length_stream : stream.length ≤ sseEventLimit := by decide +kernel

theorem wireFits_stream : WireFits 0 stream := by
  intro before after h
  have hlength := congrArg List.length h
  have := length_stream
  simp only [List.length_append, List.length_cons, sseEventLimit, sseWireLimit] at *
  omega

end ShortStream

end OpsPilot.EventStream
