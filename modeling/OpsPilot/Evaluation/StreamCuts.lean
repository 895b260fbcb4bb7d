import OpsPilot.Evaluation.EventStream

/-!
# How a stream is cut

The chunks of a response against its bytes: `step` takes one byte, and does not know where a chunk
ends. The two agree when

* no empty chunk comes between a carriage return and its line feed (`Unpaused`),
* a line that a chunk holds too much of is a comment or data (`HeldFits`),
* a line feed that follows a carriage return is not the first byte over the wire limit (`WireFits`).

The result is **`assembleSse_eq_outcome`**.
-/

namespace OpsPilot.EventStream

open Redaction (Text Code literal encode decode)
open Codec StreamCode Lines

variable [CodecTexts]

omit [CodecTexts] in
theorem refuse_bind_of {α : Type} {p : Prop} [Decidable p] {code : StreamCode} (h : p)
    (next : PUnit → Except StreamCode α) : (refuse p code >>= next) = .error code := by
  rw [refuse, if_pos h]
  rfl

variable {s : SSEAssembler} {line rest data : Bytes} {chunks : List Bytes}

namespace SSEAssembler

/-! ## One byte at a time -/

/-- One byte. -/
def step (s : SSEAssembler) (b : UInt8) : Except StreamCode SSEAssembler :=
  if s.done then .ok s
  else if s.cr ∧ b = 10 then { s with cr := false }.count 1
  else if b = 13 ∨ b = 10 then do
    let s ← s.count 1
    let assembly ← s.dispatchLine s.line
    .ok { s with toAssembly := assembly, line := [], cr := b = 13 }
  else do
    let s ← s.count 1
    .ok { s with line := s.line ++ [b], cr := false }

/-- The bytes of a text, one at a time. -/
def run (s : SSEAssembler) : Bytes → Except StreamCode SSEAssembler
  | [] => .ok s
  | b :: text => do
    let s ← s.step b
    s.run text

/-- The document of the bytes that are left. -/
def outcome (s : SSEAssembler) (text : Bytes) : Except StreamCode ByteArray := do
  let s ← s.run text
  if s.done then s.document
  else do
    let s ← s.checkHeld
    s.document

theorem run_of_done (hdone : s.done = true) (text : Bytes) :
    s.run text = .ok s := by
  induction text with
  | nil => rfl
  | cons b text ih =>
    rw [run, step, if_pos hdone]
    exact ih

theorem run_append (s : SSEAssembler) (text rest : Bytes) :
    s.run (text ++ rest) = (s.run text >>= fun s => s.run rest) := by
  induction text generalizing s with
  | nil => rfl
  | cons b text ih =>
    simp only [List.cons_append, run, bind_assoc]
    exact bind_congr fun s => ih s

theorem outcome_of_done (hdone : s.done = true) (text : Bytes) :
    s.outcome text = s.document := by
  rw [outcome, run_of_done hdone]
  exact if_pos hdone

theorem outcome_append (s : SSEAssembler) (text rest : Bytes) :
    s.outcome (text ++ rest) = (s.run text >>= fun s => s.outcome rest) := by
  simp only [outcome, run_append, bind_assoc]

omit [CodecTexts] in
/-- A count is within the limit, or ends the stream. -/
theorem count_eq (s : SSEAssembler) (size : ℕ) : s.count size =
    if s.wire + size ≤ sseWireLimit then .ok { s with wire := s.wire + size }
    else .error responseOversize := by
  by_cases h : s.wire + size ≤ sseWireLimit
  · rw [if_pos h, count, refuse, if_neg (not_lt.2 h)]
    rfl
  · rw [if_neg h, count, refuse, if_pos (not_le.1 h)]
    rfl

/-- Bytes that end no line are held, or are too many. -/
theorem run_plain (hdone : s.done = false) {text : Bytes} (hplain : ∀ b ∈ text, Plain 13 10 b)
    (hwire : s.wire ≤ sseWireLimit) : s.run text =
      if s.wire + text.length ≤ sseWireLimit then
        .ok { s with wire := s.wire + text.length, line := s.line ++ text,
                     cr := s.cr && text.isEmpty }
      else .error responseOversize := by
  induction text generalizing s with
  | nil => simp [run, hwire]
  | cons b text ih =>
    obtain ⟨⟨hcr, hlf⟩, hplain⟩ := List.forall_mem_cons.1 hplain
    rw [run, step, if_neg (by simp [hdone]), if_neg (by simp [hlf]), if_neg (by simp [hcr, hlf]),
      count_eq]
    by_cases hone : s.wire + 1 ≤ sseWireLimit
    · rw [if_pos hone]
      refine (ih (s := { s with wire := s.wire + 1, line := s.line ++ [b], cr := false }) hdone
        hplain hone).trans ?_
      simp only
      rw [List.length_cons, show s.wire + 1 + text.length = s.wire + (text.length + 1) by omega]
      simp
    · rw [if_neg hone, if_neg (by rw [List.length_cons]; omega)]
      rfl

end SSEAssembler

/-! ## Long lines -/

/-- A line that may be cut: one that is as short as an event's, a comment, or data, which is too long
in any case. -/
def LineFits (line : Bytes) : Prop :=
  line.head? = some 58 ∨ line.length ≤ sseEventLimit + 6 ∨
    ∃ text, decodeLine line = some text ∧ (fieldOf text).1 = literal "data"

/-- A held line that is too long. -/
def Overlong (line : Bytes) : Prop := line.head? ≠ some 58 ∧ sseEventLimit + 6 < line.length

instance (line : Bytes) : Decidable (Overlong line) := inferInstanceAs (Decidable (_ ∧ _))

omit [CodecTexts] in
theorem Overlong.append (h : Overlong line) (b : UInt8) : Overlong (line ++ [b]) := by
  obtain ⟨hhead, hlength⟩ := h
  cases line with
  | nil => cases hlength
  | cons c line => exact ⟨hhead, by rw [List.length_append]; omega⟩

omit [CodecTexts] in
theorem utf8Size_map (chars : List Char) :
    utf8Size (chars.map .char) = (String.ofList chars).utf8ByteSize := by
  have hliteral : chars.map .char = literal (String.ofList chars) := by
    rw [literal, String.toList_ofList]
  rw [utf8Size, hliteral, Redaction.encode_literal]
  rfl

omit [CodecTexts] in
theorem utf8Size_append (first rest : List Char) : utf8Size ((first ++ rest).map .char) =
    utf8Size (first.map .char) + utf8Size (rest.map .char) := by
  rw [utf8Size_map, utf8Size_map, utf8Size_map, String.ofList_append, String.utf8ByteSize_append]

omit [CodecTexts] in
/-- A line that is decoded has as many bytes as its text. -/
theorem decodeLine_eq_some {text : Text} (h : decodeLine line = some text) :
    ∃ chars : List Char, text = chars.map .char ∧ utf8Size text = line.length := by
  obtain ⟨s, hs, rfl⟩ := Option.map_eq_some_iff.1 h
  rw [String.fromUTF8?] at hs
  split at hs
  · obtain rfl := Option.some.inj hs
    refine ⟨_, rfl, ?_⟩
    rw [literal, utf8Size_map, String.ofList_toList]
    show line.toByteArray.size = line.length
    simp
  · cases hs

omit [CodecTexts] in
/-- The value of a data line has all but six of its bytes. -/
theorem size_value {text : Text} (h : decodeLine line = some text)
    (hname : (fieldOf text).1 = literal "data") : line.length ≤ utf8Size (fieldOf text).2 + 6 := by
  obtain ⟨chars, rfl, hsize⟩ := decodeLine_eq_some h
  rw [← hsize]
  set colon : Char → Bool := fun c => Code.char c ≠ Code.char ':'
  have hsplit := List.takeWhile_append_dropWhile (p := colon) (l := chars)
  have htake : ((chars.map Code.char).takeWhile (· ≠ Code.char ':')) =
      (chars.takeWhile colon).map .char := List.takeWhile_map
  have hdrop : (chars.map Code.char).drop ((chars.takeWhile colon).map Code.char).length =
      (chars.dropWhile colon).map .char := by
    calc (chars.map Code.char).drop ((chars.takeWhile colon).map Code.char).length
        = ((chars.takeWhile colon ++ chars.dropWhile colon).map Code.char).drop
            ((chars.takeWhile colon).map Code.char).length := by rw [hsplit]
      _ = (chars.dropWhile colon).map .char := by rw [List.map_append, List.drop_left]
  have hword : utf8Size ((chars.takeWhile colon).map .char) = 4 := by
    rw [← htake]
    exact (congrArg utf8Size hname).trans (by rw [utf8Size, Redaction.encode_literal]; rfl)
  simp only [fieldOf, htake, hdrop]
  rw [← hsplit, utf8Size_append, hword, hsplit]
  cases hrest : chars.dropWhile colon with
  | nil =>
    show 4 + utf8Size [] ≤ utf8Size [] + 6
    omega
  | cons c rest =>
    have hc : c = ':' := by
      have hnot := List.head?_dropWhile_not colon chars
      rw [hrest] at hnot
      simpa [colon] using hnot
    have hfirst : utf8Size ((c :: rest).map .char) = 1 + utf8Size (rest.map .char) := by
      rw [show c :: rest = [c] ++ rest from rfl, utf8Size_append, hc]
      rfl
    rw [hfirst, List.map_cons, List.tail_cons]
    by_cases hspace : (rest.map Code.char).head? = some (Code.char ' ')
    · rw [if_pos hspace]
      cases rest with
      | nil => cases hspace
      | cons d rest =>
        obtain rfl : d = ' ' := by simpa using hspace
        have hsecond : utf8Size ((' ' :: rest).map .char) = 1 + utf8Size (rest.map .char) := by
          rw [show ' ' :: rest = [' '] ++ rest from rfl, utf8Size_append]
          rfl
        rw [hsecond, List.map_cons, List.tail_cons]
        omega
    · rw [if_neg hspace]
      omega

/-- A data line that is too long to be held is too long. -/
theorem dispatchLine_overlong (a : Assembly) (hfits : LineFits line) (hlong : Overlong line) :
    a.dispatchLine line = .error responseOversize := by
  obtain hcomment | hshort | ⟨text, htext, hname⟩ := hfits
  · exact absurd hcomment hlong.1
  · exact absurd hlong.2 (not_lt.2 hshort)
  · have hsize := size_value htext hname
    have hne : text ≠ [] := by
      rintro rfl
      cases hname
    have hcolon : text.head? ≠ some (Code.char ':') := by
      intro hhead
      obtain ⟨rest, rfl⟩ := List.head?_eq_some_iff.1 hhead
      cases hname
    have hlength := hlong.2
    rw [Assembly.dispatchLine, htext]
    show (if text = [] then _ else _) = _
    rw [if_neg hne, if_neg hcolon, Assembly.addField, if_pos hname]
    exact refuse_bind_of (by omega) _

namespace SSEAssembler

omit [CodecTexts] in
theorem checkHeld_of_overlong (h : Overlong s.line) :
    s.checkHeld = .error responseOversize :=
  refuse_bind_of h _

omit [CodecTexts] in
theorem checkHeld_of_not (h : ¬ Overlong s.line) : s.checkHeld = .ok s :=
   refuse_bind_of_not h

/-- What is held of a line and of its ending. -/
def held (s : SSEAssembler) : Held UInt8 := (s.line, s.cr)

/-- A line that is too long ends the stream, whatever follows. -/
theorem outcome_of_overlong (hdone : s.done = false) (hlong : Overlong s.line)
    (hfits : ∀ line, (linesFrom 13 10 s.held rest).head? = some line → LineFits line) :
    s.outcome rest = .error responseOversize := by
  induction rest generalizing s with
  | nil =>
    rw [outcome, run, ok_bind, if_neg (by simp [hdone]), checkHeld_of_overlong hlong]
    rfl
  | cons b rest ih =>
    rw [outcome, run, step, if_neg (by simp [hdone])]
    rw [linesFrom] at hfits
    by_cases hpair : s.cr ∧ b = 10
    · rw [if_pos hpair, count_eq]
      by_cases hone : s.wire + 1 ≤ sseWireLimit
      · rw [if_pos hone]
        rw [if_neg fun h => h.1 hpair] at hfits
        refine ih (s := { s with cr := false, wire := s.wire + 1 }) hdone hlong ?_
        rwa [hold, if_pos (show s.held.2 ∧ b = 10 from hpair)] at hfits
      · rw [if_neg hone]
        rfl
    rw [if_neg hpair]
    by_cases hend : b = 13 ∨ b = 10
    · rw [if_pos hend, count_eq]
      by_cases hone : s.wire + 1 ≤ sseWireLimit
      · rw [if_pos hone]
        rw [if_pos ⟨hpair, hend⟩] at hfits
        have hline : s.dispatchLine s.line = .error responseOversize :=
          dispatchLine_overlong s.toAssembly (hfits _ rfl) hlong
        simp only [ok_bind, hline]
        rfl
      · rw [if_neg hone]
        rfl
    · rw [if_neg hend, count_eq]
      by_cases hone : s.wire + 1 ≤ sseWireLimit
      · rw [if_pos hone]
        rw [if_neg fun h => hend h.2] at hfits
        refine ih (s := { s with wire := s.wire + 1, line := s.line ++ [b], cr := false }) hdone
          (hlong.append b) ?_
        rwa [hold, if_neg (show ¬ (s.held.2 ∧ b = 10) from hpair),
          if_neg fun h => hend (.inl h), if_neg fun h => hend (.inr h)] at hfits
      · rw [if_neg hone]
        rfl

end SSEAssembler

/-! ## Chunks -/

/-- No line feed after a carriage return is the first byte over the wire limit. -/
def WireFits (wire : ℕ) (text : Bytes) : Prop :=
  ∀ before after, text = before ++ 13 :: 10 :: after → wire + before.length + 1 ≠ sseWireLimit

omit [CodecTexts] in
theorem WireFits.of_append {wire : ℕ} {text : Bytes} (h : WireFits wire (text ++ rest)) :
    WireFits wire text := by
  rintro before after rfl
  exact h before (after ++ rest) (by simp)

omit [CodecTexts] in
theorem WireFits.drop {wire : ℕ} {text : Bytes} (h : WireFits wire (text ++ rest)) :
    WireFits (wire + text.length) rest := by
  rintro before after rfl
  have := h (text ++ before) after (by simp)
  rw [List.length_append] at this
  omega

namespace SSEAssembler

section

variable {β : Type} {next after : SSEAssembler → Except StreamCode β}

/-- What `feed` does after the last line that ends in a chunk, and what comes then. -/
def close (last : Bool) (next : SSEAssembler → Except StreamCode β) (found : SSEAssembler × Bytes) :
    Except StreamCode β :=
  if found.1.done then next found.1
  else do
    let s ← found.1.count found.2.length
    next { s with cr := last, line := s.line ++ found.2 }

/-- The rest of a chunk, which ends no line. -/
theorem close_plain {last c : Bool} (hdone : s.done = false) (hwire : s.wire ≤ sseWireLimit)
    (hplain : ∀ b ∈ data, Plain 13 10 b)
    (hlast : last = if data = [] then c else decide (data.getLast? = some 13))
    (hopen : ∀ t : SSEAssembler, t.done = false → t.wire = s.wire + data.length →
      t.wire ≤ sseWireLimit → t.held = data.foldl (hold 13 10) (s.line, c) → next t = after t) :
    close last next (s, data) = (run { s with cr := c } data >>= after) := by
  have hcr : last = (c && data.isEmpty) := by
    cases data using List.reverseRecOn with
    | nil => simpa using hlast
    | append_singleton data b =>
      have hb : b ≠ 13 := (hplain b (by simp)).1
      have hempty : (data ++ [b]).isEmpty = false := by simp
      rw [hempty, Bool.and_false]
      simpa [hb] using hlast
  rw [close, if_neg (by simp [hdone]), count_eq, run_plain (by exact hdone) hplain (by exact hwire)]
  by_cases hsize : s.wire + data.length ≤ sseWireLimit
  · rw [if_pos hsize, if_pos hsize]
    refine (hopen { s with wire := s.wire + data.length, cr := last, line := s.line ++ data }
      hdone rfl hsize ?_).trans ?_
    · rw [foldl_hold_plain _ hplain, held, hcr]
    · rw [hcr]
      rfl
  · rw [if_neg hsize, if_neg hsize]
    rfl

/-- The line that a line ending ends. -/
theorem run_ending (hdone : s.done = false) {b : UInt8} (hend : b = 13 ∨ b = 10)
    (hpair : ¬ (s.cr ∧ b = 10)) (text : Bytes) : s.run (b :: text) =
      if s.wire + 1 ≤ sseWireLimit then
        s.dispatchLine s.line >>= fun a =>
          run { toAssembly := a, wire := s.wire + 1, line := [], cr := b = 13 } text
      else .error responseOversize := by
  rw [run, step, if_neg (by simp [hdone]), if_neg hpair, if_pos hend, count_eq]
  by_cases hone : s.wire + 1 ≤ sseWireLimit
  · rw [if_pos hone, if_pos hone]
    simp only [ok_bind, bind_assoc]
  · rw [if_neg hone, if_neg hone]
    rfl

/-- A line with its ending. -/
theorem run_line (hdone : s.done = false) (hwire : s.wire ≤ sseWireLimit)
    (hplain : ∀ b ∈ line, Plain 13 10 b) {b : UInt8} (hend : b = 13 ∨ b = 10)
    (hpair : ¬ (s.cr ∧ (line ++ [b]).head? = some 10)) (text : Bytes) :
    s.run (line ++ b :: text) =
      if s.wire + (line.length + 1) ≤ sseWireLimit then
        s.dispatchLine (s.line ++ line) >>= fun a =>
          run { toAssembly := a, wire := s.wire + (line.length + 1), line := [], cr := b = 13 } text
      else .error responseOversize := by
  rw [run_append, run_plain hdone hplain hwire]
  by_cases hline : s.wire + line.length ≤ sseWireLimit
  · rw [if_pos hline, ok_bind, run_ending (by exact hdone) hend]
    · rfl
    · rintro ⟨hcr, rfl⟩
      cases line with
      | nil => exact hpair ⟨by simpa using hcr, rfl⟩
      | cons c line => simp at hcr
  · rw [if_neg hline, if_neg (by omega)]
    rfl

/-- **The lines of a chunk.** What `feed` makes of a chunk, one byte at a time makes of it. -/
theorem feedLines_bind {fuel : ℕ} {last c : Bool} (hdone : s.done = false)
    (hwire : s.wire ≤ sseWireLimit) (hfuel : data.length ≤ fuel) (hfits : WireFits s.wire data)
    (hc : ¬ (c ∧ data.head? = some 10))
    (hlast : last = if data = [] then c else decide (data.getLast? = some 13))
    (hclosed : ∀ t u : SSEAssembler, t.toAssembly = u.toAssembly → t.done = true →
      next t = after u)
    (hopen : ∀ t : SSEAssembler, t.done = false → t.wire = s.wire + data.length →
      t.wire ≤ sseWireLimit → t.held = data.foldl (hold 13 10) (s.line, c) → next t = after t) :
    (s.feedLines fuel data >>= close last next) = (run { s with cr := c } data >>= after) := by
  induction fuel generalizing s data c with
  | zero =>
    obtain rfl := List.length_eq_zero_iff.1 (Nat.le_zero.1 hfuel)
    exact close_plain hdone hwire (by simp) hlast hopen
  | succ fuel ih =>
    rw [feedLines]
    cases hbreak : breakLine 13 10 data with
    | none => exact close_plain hdone hwire (breakLine_eq_none hbreak) hlast hopen
    | some found =>
      obtain ⟨line, size, rest⟩ := found
      obtain ⟨ending, hending, rfl, rfl, hplain⟩ := breakLine_eq_some hbreak
      rw [← List.append_assoc] at hfuel hfits hc hlast hopen ⊢
      have hne : ending ≠ [] := by rcases hending with rfl | ⟨rfl, -⟩ | rfl <;> simp
      -- what is left of the chunk, when its first line has been dispatched
      have hrest : ∀ (a : Assembly) (flag : Bool),
          s.wire + (line.length + ending.length) ≤ sseWireLimit →
          (line ++ ending).foldl (hold 13 10) (s.line, c) = ([], flag) →
          ¬ (flag ∧ rest.head? = some 10) →
          (flag = decide ((line ++ ending).getLast? = some 13)) →
          ((if a.done then .ok (⟨a, s.wire + (line.length + ending.length), [], s.cr⟩, rest)
            else feedLines fuel ⟨a, s.wire + (line.length + ending.length), [], s.cr⟩ rest) >>=
              close last next) =
            (run ⟨a, s.wire + (line.length + ending.length), [], flag⟩ rest >>= after) := by
        intro a flag hsize hhold hflag hending
        rw [← List.length_append] at hsize ⊢
        by_cases ha : a.done = true
        · rw [if_pos ha, run_of_done (by exact ha), ok_bind, ok_bind, close, if_pos (by exact ha)]
          exact hclosed _ _ rfl ha
        · rw [if_neg ha]
          refine ih (s := ⟨a, _, [], s.cr⟩) (by simpa using ha) hsize ?_ hfits.drop hflag ?_ ?_
          · rw [List.length_append, List.length_append] at hfuel
            have := List.length_pos_iff.2 hne
            omega
          · rw [hlast, if_neg (by simp [hne])]
            by_cases hnil : rest = []
            · rw [if_pos hnil, hnil, List.append_nil, hending]
            · rw [if_neg hnil, List.getLast?_append_of_ne_nil _ hnil]
          · intro t ht hwire hlimit hheld
            refine hopen t ht ?_ hlimit ?_
            · simp only [List.length_append] at hwire ⊢
              omega
            · rw [hheld, List.foldl_append, hhold]
      have hhead : ¬ (c ∧ (line ++ ending).head? = some 10) := by
        rintro ⟨hflag, hlf⟩
        exact hc ⟨hflag, by rw [List.head?_append_of_ne_nil _ (by simp [hne]), hlf]⟩
      have hhold := foldl_hold_plain (s.line, c) hplain
      -- a line with an ending of one byte
      have hone : ∀ b : UInt8, ending = [b] → b = 13 ∨ b = 10 →
          ¬ (b = 13 ∧ rest.head? = some 10) →
          ((s.count (line.length + ending.length) >>= fun s =>
            s.dispatchLine (s.line ++ line) >>= fun a =>
              if a.done then .ok (⟨a, s.wire, [], s.cr⟩, rest)
              else feedLines fuel ⟨a, s.wire, [], s.cr⟩ rest) >>= close last next) =
            (run { s with cr := c } (line ++ ending ++ rest) >>= after) := by
        rintro b rfl hend hnext
        rw [List.append_assoc, List.singleton_append, run_line (by exact hdone) (by exact hwire)
          hplain hend (by exact hhead), count_eq, List.length_singleton]
        by_cases hsize : s.wire + (line.length + 1) ≤ sseWireLimit
        · rw [if_pos hsize, if_pos hsize, ok_bind, bind_assoc, bind_assoc]
          refine bind_congr fun a => hrest a (decide (b = 13)) hsize ?_ (by simpa using hnext)
            (by simp)
          rw [List.foldl_append, hhold, List.foldl_cons, List.foldl_nil, hold]
          have hpair : ¬ ((c && line.isEmpty) = true ∧ b = 10) := by
            rintro ⟨hflag, rfl⟩
            simp only [Bool.and_eq_true, List.isEmpty_iff] at hflag
            exact hhead ⟨hflag.1, by rw [hflag.2]; rfl⟩
          rw [if_neg hpair]
          rcases hend with rfl | rfl
          · rfl
          · rfl
        · rw [if_neg hsize, if_neg hsize]
          rfl
      rcases hending with rfl | ⟨rfl, hlf⟩ | rfl
      · -- the line feed of the two is counted before the line is dispatched
        have hwireNe := hfits line rest (by simp)
        show ((s.count (line.length + 2) >>= fun s =>
          s.dispatchLine (s.line ++ line) >>= fun a =>
            if a.done then .ok (⟨a, s.wire, [], s.cr⟩, rest)
            else feedLines fuel ⟨a, s.wire, [], s.cr⟩ rest) >>= close last next) = _
        rw [List.append_assoc, List.cons_append, List.cons_append, List.nil_append,
          run_line (by exact hdone) (by exact hwire) hplain (.inl rfl) (by simpa using hhead),
          count_eq]
        by_cases hsize : s.wire + (line.length + 1) ≤ sseWireLimit
        · have hboth : s.wire + (line.length + 2) ≤ sseWireLimit := by omega
          rw [if_pos hsize, if_pos hboth, ok_bind, bind_assoc, bind_assoc]
          refine bind_congr fun a => (hrest a false hboth ?_ (by simp) (by simp)).trans ?_
          · rw [List.foldl_append, hhold]
            simp [hold]
          by_cases ha : a.done = true
          · rw [run_of_done (by exact ha), run_of_done (by exact ha), ok_bind, ok_bind]
            have hsame : ∀ t : SSEAssembler, t.toAssembly = a → next ⟨a, 0, [], false⟩ = after t :=
              fun t ht => hclosed _ t ht.symm ha
            exact (hsame _ rfl).symm.trans (hsame _ rfl)
          · have hcount : s.wire + (line.length + 1) + 1 ≤ sseWireLimit := by omega
            rw [run, step, if_neg (by exact ha), if_pos ⟨rfl, rfl⟩, count_eq,
              if_pos (by exact hcount)]
            rfl
        · rw [if_neg hsize, if_neg fun h => hsize (by omega)]
          rfl
      · exact hone 13 rfl (.inl rfl) fun h => hlf h.2
      · exact hone 10 rfl (.inr rfl) fun h => absurd h.1 (by decide)

end

theorem outcome_of_cr (hnext : ¬ (s.cr ∧ rest.head? = some 10)) :
    { s with cr := false }.outcome rest = s.outcome rest := by
  by_cases hdone : s.done = true
  · rw [outcome_of_done (by exact hdone), outcome_of_done hdone]
  cases rest with
  | nil =>
    simp only [outcome, run, ok_bind, if_neg hdone]
    by_cases hlong : Overlong s.line
    · rw [checkHeld_of_overlong hlong, checkHeld_of_overlong (by exact hlong)]
    · rw [checkHeld_of_not hlong, checkHeld_of_not (by exact hlong)]
      rfl
  | cons b rest =>
    have hpair : ¬ (s.cr ∧ b = 10) := by simpa using hnext
    have hstep : { s with cr := false }.step b = s.step b := by
      simp only [step, if_neg hdone, if_neg hpair, Bool.false_eq_true, false_and, if_false, count_eq]
      by_cases hone : s.wire + 1 ≤ sseWireLimit
      · simp only [if_pos hone, ok_bind]
      · simp only [if_neg hone]
    rw [outcome, run, outcome, run, hstep]

/-- A chunk that is not empty. -/
theorem feed_bind {β : Type} {next after : SSEAssembler → Except StreamCode β}
    (hdone : s.done = false) (hwire : s.wire ≤ sseWireLimit) (hne : data ≠ [])
    (hfits : WireFits s.wire data)
    (hclosed : ∀ t u : SSEAssembler, t.toAssembly = u.toAssembly → t.done = true →
      next t = after u)
    (hopen : ∀ t : SSEAssembler, t.done = false → t.wire = s.wire + data.length →
      t.wire ≤ sseWireLimit → t.held = data.foldl (hold 13 10) s.held →
      (t.checkHeld >>= next) = after t) :
    (s.feed data >>= next) = (s.run data >>= after) := by
  set last := decide (data.getLast? = some 13) with hlast
  set rest : SSEAssembler → Except StreamCode β :=
    fun t => if t.done then next t else t.checkHeld >>= next with hrest
  have hclose : ∀ found : SSEAssembler × Bytes,
      ((if found.1.done then Except.ok found.1
        else found.1.count found.2.length >>= fun t =>
          { t with cr := last, line := t.line ++ found.2 }.checkHeld) >>= next) =
        close last rest found := by
    intro found
    by_cases hfound : found.1.done = true
    · rw [if_pos hfound, close, if_pos hfound, hrest, ok_bind]
      exact (if_pos hfound).symm
    · rw [if_neg hfound, close, if_neg hfound, count_eq]
      split
      · exact (if_neg hfound).symm
      · rfl
  have hrestClosed : ∀ t u : SSEAssembler, t.toAssembly = u.toAssembly → t.done = true →
      rest t = after u := fun t u htu ht => (if_pos ht).trans (hclosed t u htu ht)
  have hfeed : ∀ pos, (if s.cr = true ∧ data.head? = some 10 then 1 else 0) = pos →
      (s.feed data >>= next) = ({ s with cr := false }.count pos >>= fun t =>
        t.feedLines data.length (data.drop pos) >>= close last rest) := by
    rintro pos rfl
    rw [feed, if_neg (by simp [hdone])]
    simp only [bind_assoc]
    exact bind_congr fun t => bind_congr fun found => hclose found
  by_cases hpair : s.cr = true ∧ data.head? = some 10
  · obtain ⟨hcr, hhead⟩ := hpair
    obtain ⟨tail, rfl⟩ := List.head?_eq_some_iff.1 hhead
    rw [hfeed 1 (if_pos ⟨hcr, hhead⟩), run, step, if_neg (by simp [hdone]), if_pos ⟨hcr, rfl⟩,
      count_eq]
    by_cases hone : s.wire + 1 ≤ sseWireLimit
    · rw [if_pos hone, ok_bind, ok_bind, List.drop_succ_cons, List.drop_zero]
      refine feedLines_bind (c := false) hdone hone (by simp) ?_ (by simp) ?_ hrestClosed ?_
      · exact (show WireFits s.wire ([10] ++ tail) from hfits).drop
      · rw [hlast]
        cases tail <;> simp
      · intro t ht hwire hlimit hheld
        refine (if_neg (by simp [ht])).trans (hopen t ht ?_ hlimit ?_)
        · refine hwire.trans ?_
          show s.wire + 1 + tail.length = s.wire + (tail.length + 1)
          omega
        · rw [hheld, List.foldl_cons, hold, if_pos (show s.held.2 = true ∧ (10 : UInt8) = 10 from
            ⟨hcr, rfl⟩)]
          rfl
    · rw [if_neg hone]
      rfl
  · rw [hfeed 0 (if_neg hpair), count_eq, if_pos (by exact hwire), ok_bind, List.drop_zero]
    refine (feedLines_bind (s := { s with cr := false }) (c := s.cr) hdone hwire (le_refl _) hfits
      hpair (by rw [if_neg hne]) hrestClosed ?_).trans rfl
    exact fun t ht hwire hlimit hheld =>
      (if_neg (by simp [ht])).trans (hopen t ht hwire hlimit hheld)

end SSEAssembler

/-! ## Streams -/

namespace SSEAssembler

theorem feed_nil (hdone : s.done = false) (hwire : s.wire ≤ sseWireLimit)
    (hheld : ¬ Overlong s.line) : s.feed [] = .ok { s with cr := false } := by
  have hcount : ∀ t : SSEAssembler, t.wire ≤ sseWireLimit → t.count 0 = .ok t := fun t ht => by
    rw [count_eq, if_pos (by exact ht)]
    rfl
  rw [feed, if_neg (by simp [hdone]), if_neg (by simp)]
  show ({ s with cr := false }.count 0 >>= fun t => if t.done then .ok t else
    t.count 0 >>= fun t => { t with cr := false, line := t.line ++ [] }.checkHeld) = _
  rw [hcount _ (by exact hwire), ok_bind, if_neg (by exact ne_true_of_eq_false hdone),
    hcount _ (by exact hwire), ok_bind, List.append_nil]
  exact checkHeld_of_not hheld

end SSEAssembler

/-- No empty chunk comes between a carriage return and its line feed. -/
def Unpaused (chunks : List Bytes) : Prop :=
  ∀ before after, chunks = before ++ [] :: after → before.flatten.getLast? = some 13 →
    after.flatten.head? ≠ some 10

/-- A chunk that ends within a line which ends later, and holds too much of it, holds a line that may be
cut. -/
def HeldFits (held : Held UInt8) (chunks : List Bytes) : Prop :=
  ∀ before after, chunks = before ++ after →
    Overlong (before.flatten.foldl (hold 13 10) held).1 →
    ∀ line, (linesFrom 13 10 (before.flatten.foldl (hold 13 10) held) after.flatten).head? = some line →
      LineFits line

omit [CodecTexts] in
theorem HeldFits.of_cons {held : Held UInt8} (h : HeldFits held (data :: chunks)) :
    HeldFits (data.foldl (hold 13 10) held) chunks := by
  rintro before after rfl
  simpa [List.foldl_append] using h (data :: before) after rfl

omit [CodecTexts] in
/-- A carriage return that is forgotten. -/
theorem HeldFits.of_cr {held : Held UInt8} (h : HeldFits held chunks)
    (hnext : ¬ (held.2 ∧ chunks.flatten.head? = some 10)) : HeldFits (held.1, false) chunks := by
  rintro before after rfl hlong line hline
  rw [List.flatten_append] at hnext
  by_cases hempty : before.flatten = []
  · rw [hempty, List.nil_append] at hnext
    rw [hempty] at hlong hline
    refine h before after rfl (by rw [hempty]; exact hlong) line ?_
    rw [hempty, List.foldl_nil, ← linesFrom_of_head hnext]
    exact hline
  · obtain ⟨c, text, htext⟩ := List.exists_cons_of_ne_nil hempty
    have hpair : ¬ (held.2 = true ∧ c = 10) := by
      rw [htext, List.cons_append, List.head?_cons, Option.some.injEq] at hnext
      exact hnext
    have hhold : before.flatten.foldl (hold 13 10) (held.1, false) =
        before.flatten.foldl (hold 13 10) held := by
      rw [htext, List.foldl_cons, List.foldl_cons, hold, hold, if_neg hpair, if_neg (by simp)]
    exact h before after rfl (hhold ▸ hlong) line (hhold ▸ hline)

omit [CodecTexts] in
theorem heldFits_of_length (h : chunks.flatten.length ≤ sseEventLimit + 6) :
    HeldFits ([], false) chunks := by
  rintro before after rfl hlong
  have hlength := (length_foldl_hold ([], false) before.flatten :
    (before.flatten.foldl (hold 13 10) ([], false)).1.length ≤ _)
  have := hlong.2
  simp only [List.flatten_append, List.length_append, List.length_nil] at h hlength
  omega

omit [CodecTexts] in
theorem unpaused_of_notMem (h : [] ∉ chunks) : Unpaused chunks := by
  rintro before after rfl
  exact absurd (List.mem_append_right _ List.mem_cons_self) h

open SSEAssembler

theorem feedAll_bind (hdone : s.done = false) (hwire : s.wire ≤ sseWireLimit)
    (hheld : ¬ Overlong s.line) (hfits : HeldFits s.held chunks)
    (hlimit : WireFits s.wire chunks.flatten)
    (hpaused : ∀ before after, chunks = before ++ [] :: after →
      (before.flatten = [] ∧ s.cr = true ∨ before.flatten.getLast? = some 13) →
        after.flatten.head? ≠ some 10) :
    (feedAll s chunks >>= fun s => s.document) = s.outcome chunks.flatten := by
  induction chunks generalizing s with
  | nil =>
    rw [feedAll, ok_bind, List.flatten_nil, outcome, run, ok_bind, if_neg (by simp [hdone]),
      checkHeld_of_not hheld]
    rfl
  | cons data chunks ih =>
    rw [List.flatten_cons] at hlimit ⊢
    rw [feedAll, bind_assoc]
    by_cases hne : data = []
    · subst hne
      rw [List.nil_append] at hlimit ⊢
      have hnext : ¬ (s.cr = true ∧ chunks.flatten.head? = some 10) := fun h =>
        hpaused [] chunks rfl (.inl ⟨rfl, h.1⟩) h.2
      rw [feed_nil hdone hwire hheld, ok_bind, if_neg (by exact ne_true_of_eq_false hdone),
        ← outcome_of_cr hnext]
      refine ih hdone hwire hheld (hfits.of_cons.of_cr hnext) hlimit ?_
      · rintro before after rfl (⟨-, hcr⟩ | hlast)
        · cases hcr
        · exact hpaused ([] :: before) after rfl (.inr hlast)
    · rw [outcome_append]
      refine feed_bind hdone hwire hne hlimit.of_append ?_ ?_
      · intro t u htu ht
        have hu : u.done = true := by rw [← htu, ht]
        rw [if_pos ht, ok_bind, outcome_of_done hu, htu]
      · intro t ht htwire htlimit htheld
        have htfits : HeldFits t.held chunks := htheld ▸ hfits.of_cons
        by_cases hlong : Overlong t.line
        · rw [checkHeld_of_overlong hlong, outcome_of_overlong ht hlong (htfits [] chunks rfl hlong)]
          rfl
        · rw [checkHeld_of_not hlong, ok_bind, if_neg (by simp [ht])]
          refine ih ht htlimit hlong htfits (htwire ▸ hlimit.drop) ?_
          intro before after hchunks hlast
          refine hpaused (data :: before) after (by rw [hchunks]; rfl) (.inr ?_)
          rw [List.flatten_cons]
          rcases hlast with ⟨hnil, hcr⟩ | hlast
          · rw [hnil, List.append_nil]
            exact getLast?_of_foldl_hold hne (by rw [← htheld]; exact hcr)
          · rw [List.getLast?_append, hlast]
            rfl

/-- **Chunks do not matter.** -/
theorem assembleSse_eq_outcome {maxDocumentBytes : ℕ} (hfits : HeldFits ([], false) chunks)
    (hlimit : WireFits 0 chunks.flatten) (hpaused : Unpaused chunks) :
    assembleSse chunks maxDocumentBytes = (start maxDocumentBytes).outcome chunks.flatten := by
  refine feedAll_bind rfl (Nat.zero_le _) (fun h => Nat.not_lt_zero _ h.2) hfits hlimit ?_
  rintro before after hchunks (⟨-, hcr⟩ | hlast)
  · cases hcr
  · exact hpaused before after hchunks hlast

end OpsPilot.EventStream
