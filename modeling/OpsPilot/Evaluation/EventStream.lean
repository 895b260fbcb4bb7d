import OpsPilot.Evaluation.Codec
import OpsPilot.Foundations.Lines

/-!
# The event stream of a judge

`SSEAssembler` (`opspilot/evaluation/judge.py`) makes of the chunks of a response the completion that
an endpoint without streaming would have sent: bytes into lines, lines into events, the objects of the
events into a document.

* `feed`, `dispatchLine`, `dispatchEvent`, `chunk`, `document`: its methods.
* `assembleSse`: `assemble_sse`.
-/

namespace OpsPilot.EventStream

open Redaction (Text Code Tree literal encode decode)
open Codec

/-- A byte string. -/
abbrev Bytes := List UInt8

/-- The codes of the errors: those of a `JudgeError`, and that of the `StorageError` of a document
that has no canonical bytes. -/
inductive StreamCode
  | transportError | outputInvalid | httpError | responseOversize | schemaInvalid
  deriving DecidableEq

open StreamCode

/-- `SSE_WIRE_LIMIT`. -/
def sseWireLimit : ℕ := 32 * 1024 * 1024

/-- `SSE_EVENT_LIMIT`. -/
def sseEventLimit : ℕ := 1024 * 1024

/-- What `SSEAssembler` keeps of the objects of a stream. A value that is absent is null, as `None`
is. -/
structure Completion where
  chunks : ℕ
  id : Tree
  model : Tree
  identityOk : Bool
  content : List Text
  role : Tree
  extra : List (Text × Tree)
  finished : Bool
  finish : Tree
  usage : Tree

/-- What it knows of the events. -/
structure Assembly extends Completion where
  maxDocumentBytes : ℕ
  done : Bool
  data : List Text
  dataSize : ℕ
  event : Text
  contentSize : ℕ

/-- `SSEAssembler`: the bytes that came, the line they hold back, and whether the last of them was a
carriage return. -/
structure SSEAssembler extends Assembly where
  wire : ℕ
  line : Bytes
  cr : Bool

/-- Nothing of a stream. -/
def Completion.empty : Completion where
  chunks := 0
  id := .null
  model := .null
  identityOk := true
  content := []
  role := .null
  extra := []
  finished := false
  finish := .null
  usage := .null

/-- A new assembler. -/
def SSEAssembler.start (maxDocumentBytes : ℕ) : SSEAssembler where
  toCompletion := .empty
  maxDocumentBytes := maxDocumentBytes
  done := false
  data := []
  dataSize := 0
  event := []
  contentSize := 0
  wire := 0
  line := []
  cr := false

/-- `obj.get(name)`. -/
def get (fields : List (Text × Tree)) (name : String) : Tree :=
  (fields.lookup (literal name)).getD .null

/-- `len(text.encode("utf-8"))` of a text that is UTF-8. -/
def utf8Size (text : Text) : ℕ := ((encode text).map ByteArray.size).getD 0

variable [CodecTexts]

/-! ## Chunks of a completion -/

/-- `_chunk`, the identity: every object carries the first one's model and identifier. -/
def identifies (model ident : Tree) (obj : List (Text × Tree)) : Bool :=
  match get obj "model", get obj "id" with
  | .str name, .str text =>
    Tree.str name = model && text ≠ [] && Tree.str text = ident
  | _, _ => false

/-- The only choice of an object: its delta and what it says of the end. -/
def choiceOf : List Tree → Option (List (Text × Tree) × Tree)
  | [.obj choice] =>
    match get choice "index", get choice "delta" with
    | .int 0, .obj delta => some (delta, get choice "finish_reason")
    | _, _ => none
  | _ => none

/-- `self._extra.setdefault(name, delta[name])` for the names of a delta that are present. -/
def setDefaults (extra delta : List (Text × Tree)) : List (Text × Tree) :=
  ["tool_calls", "function_call", "refusal"].foldl (fun extra name =>
    if get delta name = .null ∨ literal name ∈ extra.map Prod.fst then extra
    else extra ++ [(literal name, get delta name)]) extra

namespace Assembly

/-- `_chunk`, what is kept of the object before its choices. -/
def observe (s : Assembly) (obj : List (Text × Tree)) : Assembly :=
  let model := if s.chunks = 0 then get obj "model" else s.model
  let ident := if s.chunks = 0 then get obj "id" else s.id
  { s with
    model := model
    id := ident
    identityOk := s.identityOk && identifies model ident obj
    chunks := s.chunks + 1
    usage := if get obj "usage" = .null then s.usage else get obj "usage" }

/-- `_chunk`, the content of a delta. -/
def addContent (s : Assembly) : Tree → Except StreamCode Assembly
  | .null => .ok s
  | .str text => do
    refuse (s.maxDocumentBytes < s.contentSize + utf8Size text) responseOversize
    .ok { s with content := s.content ++ [text], contentSize := s.contentSize + utf8Size text }
  | _ => .error outputInvalid

/-- `_chunk`, the choice. -/
def addChoice (s : Assembly) (delta : List (Text × Tree)) (finish : Tree) :
    Except StreamCode Assembly := do
  let content := get delta "content"
  refuse (s.finished ∧ (finish ≠ .null ∨ content ≠ .null)) outputInvalid
  let role := get delta "role"
  refuse (role ≠ .null ∧ role ≠ .str (literal "assistant")) outputInvalid
  let s ← addContent { s with role := if role = .null then s.role else role } content
  let s := { s with extra := setDefaults s.extra delta }
  .ok (if finish = .null then s else { s with finished := true, finish := finish })

/-- `_chunk`. -/
def chunk (s : Assembly) (obj : List (Text × Tree)) : Except StreamCode Assembly := do
  refuse (literal "error" ∈ obj.map Prod.fst) httpError
  let s := s.observe obj
  match get obj "choices" with
  | .arr [] => if s.finished then .ok s else .error outputInvalid
  | .arr choices => do
    let (delta, finish) ← require (choiceOf choices) outputInvalid
    s.addChoice delta finish
  | _ => .error outputInvalid

/-! ## Events and lines -/

/-- `_dispatch_event`. -/
def dispatchEvent (s : Assembly) : Except StreamCode Assembly := do
  let data := (literal "\n").intercalate s.data
  let cleared := { s with data := [], dataSize := 0, event := [] }
  if s.data = [] then .ok cleared
  else do
    refuse (s.event ≠ [] ∧ s.event ≠ literal "message") outputInvalid
    if data = literal "[DONE]" then .ok { cleared with done := true }
    else do
      let raw ← require (encode data) outputInvalid
      let obj ← require (parse raw) outputInvalid
      cleared.chunk obj

end Assembly

/-- The name and the value of the field of a line. -/
def fieldOf (line : Text) : Text × Text :=
  let name := line.takeWhile (· ≠ Redaction.Code.char ':')
  let value := (line.drop name.length).tail
  (name, if value.head? = some (Redaction.Code.char ' ') then value.tail else value)

/-- `raw.decode("utf-8")`. -/
def decodeLine (raw : Bytes) : Option Text := decode raw.toByteArray

namespace Assembly

/-- `_dispatch_line`, a field. -/
def addField (s : Assembly) (field : Text × Text) : Except StreamCode Assembly :=
  if field.1 = literal "data" then do
    let size := s.dataSize + utf8Size field.2 + (if s.data = [] then 0 else 1)
    refuse (sseEventLimit < size) responseOversize
    .ok { s with dataSize := size, data := s.data ++ [field.2] }
  else if field.1 = literal "event" then .ok { s with event := field.2 }
  else .ok s

/-- `_dispatch_line`. -/
def dispatchLine (s : Assembly) (raw : Bytes) : Except StreamCode Assembly := do
  let line ← require (decodeLine raw) outputInvalid
  if line = [] then s.dispatchEvent
  else if line.head? = some (Redaction.Code.char ':') then .ok s
  else s.addField (fieldOf line)

end Assembly

/-! ## The document -/

/-- The completion that the chunks make. -/
def Completion.json (c : Completion) : Tree :=
  .obj ([(literal "id", c.id), (literal "object", .str (literal "chat.completion")),
    (literal "model", if c.identityOk then c.model else .null),
    (literal "choices", .arr [.obj [(literal "index", .int 0),
      (literal "message", .obj ([(literal "role", c.role),
        (literal "content", .str c.content.flatten)] ++ c.extra)),
      (literal "finish_reason", c.finish)]])] ++
    if c.usage = .null then [] else [(literal "usage", c.usage)])

/-- `document`. -/
def Assembly.document (s : Assembly) : Except StreamCode ByteArray := do
  refuse (s.done = false) transportError
  refuse (s.finished = false) outputInvalid
  let raw ← require (Codec.canonicalBytes s.json) schemaInvalid
  refuse (s.maxDocumentBytes < raw.size) responseOversize
  .ok raw

/-! ## Bytes -/

namespace SSEAssembler

/-- `_count`. -/
def count (s : SSEAssembler) (size : ℕ) : Except StreamCode SSEAssembler := do
  refuse (sseWireLimit < s.wire + size) responseOversize
  .ok { s with wire := s.wire + size }

/-- `feed`, the lines that end in the chunk: the state after them, and the bytes that are left. -/
def feedLines : ℕ → SSEAssembler → Bytes → Except StreamCode (SSEAssembler × Bytes)
  | 0, s, data => .ok (s, data)
  | fuel + 1, s, data =>
    match Lines.breakLine 13 10 data with
    | none => .ok (s, data)
    | some (line, size, rest) => do
      let s ← s.count (line.length + size)
      let assembly ← s.dispatchLine (s.line ++ line)
      let s := { s with toAssembly := assembly, line := [] }
      if s.done then .ok (s, rest) else feedLines fuel s rest

/-- `feed`, the held line: it may not be longer than an event's, unless it is a comment. -/
def checkHeld (s : SSEAssembler) : Except StreamCode SSEAssembler := do
  refuse (s.line.head? ≠ some 58 ∧ sseEventLimit + 6 < s.line.length) responseOversize
  .ok s

/-- `feed`. -/
def feed (s : SSEAssembler) (data : Bytes) : Except StreamCode SSEAssembler :=
  if s.done then .ok s
  else do
    let pos := if s.cr ∧ data.head? = some 10 then 1 else 0
    let s ← { s with cr := false }.count pos
    let (s, rest) ← s.feedLines data.length (data.drop pos)
    if s.done then .ok s
    else do
      let s ← s.count rest.length
      { s with cr := data.getLast? = some 13, line := s.line ++ rest }.checkHeld

end SSEAssembler

/-- `assemble_sse`, the chunks that are left. -/
def feedAll (s : SSEAssembler) : List Bytes → Except StreamCode SSEAssembler
  | [] => .ok s
  | data :: chunks => do
    let s ← s.feed data
    if s.done then .ok s else feedAll s chunks

/-- `assemble_sse`. -/
def assembleSse (chunks : List Bytes) (maxDocumentBytes : ℕ) : Except StreamCode ByteArray := do
  let s ← feedAll (.start maxDocumentBytes) chunks
  s.document

end OpsPilot.EventStream
