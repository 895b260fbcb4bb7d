import OpsPilot.Knowledge.Jobs

/-!
# The failure key in two languages

Failed attempts are counted under a text. The candidate query builds it in SQL from the incident as
it is (`Incident.keySql`), and the worker builds it in Python from a watermark (`watermarkKey`) or
from the JSON of a stored one (`keyOf`).

* `keyText_injective`: the text says which parts it was built from.
* `keyOf_json`: the stored watermark gives the text the watermark gives.
* **`watermarkKey_eq_keySql`**: the texts of the two languages are equal exactly when the watermark
  and the incident agree in every part and the version to regenerate is the same.
-/

namespace OpsPilot.Knowledge

/-! ## The texts -/

/-- `concat_ws(':', …)`: the arguments that are not NULL, joined. -/
def concatWs (separator : String) (arguments : List (Option String)) : String :=
  separator.intercalate (arguments.filterMap id)

/-- `_KEY_SQL`, as a text. -/
def Incident.keySql (incident : Incident) (pendingRegenerationVersion : Option ℕ) : String :=
  concatWs ":"
    [some (toString incident.controlGeneration), some (toString incident.observationGeneration),
      some (toString incident.runs.length),
      some ((incident.currentRunId.map toString).getD ""),
      some (toString incident.inputWatermark)] ++
    ("#r" ++ (pendingRegenerationVersion.map toString).getD "")

/-- `_failure_key`, on the texts of the parts. -/
def failureKeyText (parts : List String) (revisesVersion : Option ℕ) : String :=
  let revised := match revisesVersion with
    | none => ""
    | some version => toString version
  ":".intercalate parts ++ "#r" ++ revised

/-- `watermark_key`, as a text. -/
def watermarkKey (watermark : Watermark) (revisesVersion : Option ℕ) : String :=
  failureKeyText
    [toString watermark.incidentControlGeneration, toString watermark.observationGeneration,
      toString watermark.runCount,
      match watermark.lastRunId with
        | none => ""
        | some runId => toString runId,
      toString watermark.inputWatermark] revisesVersion

/-- `_watermark_json`. The hash of the evidence snapshot is a text of its own. -/
def Watermark.json (watermark : Watermark) (evidenceSha256 : String) : Json :=
  .obj [("evidence_snapshot_sha256", .str evidenceSha256),
    ("incident_control_generation", .num watermark.incidentControlGeneration),
    ("input_watermark", .num watermark.inputWatermark),
    ("last_run_id", match watermark.lastRunId with
      | none => .null
      | some runId => .str (toString runId)),
    ("observation_ending_id", .str (toString watermark.observationEndingId)),
    ("observation_generation", .num watermark.observationGeneration),
    ("observation_session_id", .str (toString watermark.observationSessionId)),
    ("run_count", .num watermark.runCount)]

/-- `str` of an integer. -/
def partText : Json → Option String
  | .num q => if q.den = 1 then some (toString q.num) else none
  | _ => none

/-- `stored["last_run_id"] or ""`. -/
def runText : Json → Option String
  | .null => some ""
  | .str runId => some runId
  | _ => none

/-- `_key_of`, on a stored watermark; a value without the fields has no key. -/
def keyOf (stored : Json) (revisesVersion : Option ℕ) : Option String := do
  let controlGeneration ← (stored.field? "incident_control_generation").bind partText
  let observationGeneration ← (stored.field? "observation_generation").bind partText
  let runCount ← (stored.field? "run_count").bind partText
  let lastRunId ← (stored.field? "last_run_id").bind runText
  let inputWatermark ← (stored.field? "input_watermark").bind partText
  some (failureKeyText [controlGeneration, observationGeneration, runCount, lastRunId,
    inputWatermark] revisesVersion)

/-! ## Both build one text -/

/-- The text of the parts of a key. -/
def FailureKey.text (key : FailureKey) : String :=
  toString key.controlGeneration ++ ":" ++ (toString key.observationGeneration ++ ":" ++
    (toString key.runCount ++ ":" ++ ((key.currentRunId.map toString).getD "" ++ ":" ++
      (toString key.inputWatermark ++ "#r" ++ (key.revisesVersion.map toString).getD ""))))

theorem keySql_eq (incident : Incident) (pending : Option ℕ) :
    incident.keySql pending = (incident.failureKey pending).text := by
  simp [Incident.keySql, concatWs, FailureKey.text, Incident.failureKey, String.append_assoc]

theorem watermarkKey_eq (watermark : Watermark) (revisesVersion : Option ℕ) :
    watermarkKey watermark revisesVersion = (watermark.key revisesVersion).text := by
  cases hrun : watermark.lastRunId <;> cases revisesVersion <;>
    simp [watermarkKey, failureKeyText, FailureKey.text, Watermark.key, hrun, String.append_assoc]

theorem partText_natCast (n : ℕ) : partText (.num n) = some (toString n) := by
  simp [partText]
  rfl

/-- **The stored watermark gives the same key.** -/
theorem keyOf_json (watermark : Watermark) (evidenceSha256 : String) (revisesVersion : Option ℕ) :
    keyOf (watermark.json evidenceSha256) revisesVersion =
      some (watermarkKey watermark revisesVersion) := by
  cases hrun : watermark.lastRunId <;>
    simp [keyOf, Watermark.json, Json.field?, List.lookup_cons, partText_natCast, runText,
      watermarkKey, hrun]

/-! ## The text says the parts -/

/-- What stands before the first separator, and what stands after it. -/
theorem append_separator_inj {α : Type*} {a : α} {xs ys rest rest' : List α} (hx : a ∉ xs)
    (hy : a ∉ ys) (h : xs ++ a :: rest = ys ++ a :: rest') : xs = ys ∧ rest = rest' := by
  induction xs generalizing ys with
  | nil =>
    cases ys with
    | nil => exact ⟨rfl, (List.cons.inj h).2⟩
    | cons y ys => exact absurd (List.mem_cons.2 (.inl (List.cons.inj h).1)) hy
  | cons x xs ih =>
    cases ys with
    | nil => exact absurd (List.mem_cons.2 (.inl (List.cons.inj h).1.symm)) hx
    | cons y ys =>
      obtain ⟨rfl, htail⟩ := List.cons.inj h
      obtain ⟨rfl, hrest⟩ := ih (fun hmem => hx (List.mem_cons_of_mem _ hmem))
        (fun hmem => hy (List.mem_cons_of_mem _ hmem)) htail
      exact ⟨rfl, hrest⟩

theorem toString_nat_injective {m n : ℕ} (h : toString m = toString n) : m = n := by
  have hlist := congrArg String.toList h
  simp only [Nat.toString_eq_ofList_toDigits, String.toList_ofList] at hlist
  rw [← Nat.ofDigitChars_ten_toDigits (n := m), hlist, Nat.ofDigitChars_ten_toDigits]

/-- A numeral has digits only. -/
theorem isDigit_of_mem_toString {n : ℕ} {c : Char} (h : c ∈ (toString n).toList) :
    c.isDigit = true := by
  rw [Nat.toString_eq_ofList_toDigits, String.toList_ofList] at h
  exact Nat.isDigit_of_mem_toDigits (by decide) (by decide) h

/-- A numeral or nothing. -/
theorem isDigit_of_mem_getD {o : Option ℕ} {c : Char}
    (h : c ∈ ((o.map toString).getD "").toList) : c.isDigit = true := by
  cases o with
  | none => simp at h
  | some n => exact isDigit_of_mem_toString h

theorem getD_toString_injective {o o' : Option ℕ}
    (h : (o.map toString).getD "" = (o'.map toString).getD "") : o = o' := by
  have hne : ∀ n : ℕ, toString n ≠ "" := fun n hempty => by
    have hlength := congrArg String.length hempty
    simp at hlength
  cases o with
  | none =>
    cases o' with
    | none => rfl
    | some n => exact absurd h.symm (hne n)
  | some m =>
    cases o' with
    | none => exact absurd h (hne m)
    | some n => rw [toString_nat_injective h]

/-- One part of the text, and the rest after the separator. -/
theorem text_part_inj {c : Char} {tail : List Char} {separator s s' t t' : String}
    (hseparator : separator.toList = c :: tail) (hc : c.isDigit = false)
    (hs : ∀ d ∈ s.toList, d.isDigit = true) (hs' : ∀ d ∈ s'.toList, d.isDigit = true)
    (h : s ++ separator ++ t = s' ++ separator ++ t') : s = s' ∧ t = t' := by
  have hlist := congrArg String.toList h
  simp only [String.toList_append, hseparator, List.append_assoc, List.cons_append] at hlist
  have hnot : ∀ {u : String}, (∀ d ∈ u.toList, d.isDigit = true) → c ∉ u.toList := by
    intro u hu hmem
    rw [hu c hmem] at hc
    cases hc
  obtain ⟨hleft, hright⟩ := append_separator_inj (hnot hs) (hnot hs') hlist
  exact ⟨String.toList_inj.1 hleft, String.toList_inj.1 (List.append_cancel_left hright)⟩

/-- **The text of a key says its parts.** -/
theorem keyText_injective : Function.Injective FailureKey.text := by
  intro a b h
  have hcolon : (":" : String).toList = [':'] := rfl
  have hversion : ("#r" : String).toList = ['#', 'r'] := rfl
  obtain ⟨hcontrol, h⟩ := text_part_inj hcolon rfl (fun _ => isDigit_of_mem_toString)
    (fun _ => isDigit_of_mem_toString) h
  obtain ⟨hobservation, h⟩ := text_part_inj hcolon rfl (fun _ => isDigit_of_mem_toString)
    (fun _ => isDigit_of_mem_toString) h
  obtain ⟨hcount, h⟩ := text_part_inj hcolon rfl (fun _ => isDigit_of_mem_toString)
    (fun _ => isDigit_of_mem_toString) h
  obtain ⟨hrun, h⟩ := text_part_inj hcolon rfl (fun _ => isDigit_of_mem_getD)
    (fun _ => isDigit_of_mem_getD) h
  obtain ⟨hinputs, h⟩ := text_part_inj hversion rfl (fun _ => isDigit_of_mem_toString)
    (fun _ => isDigit_of_mem_toString) h
  cases a
  cases b
  simp only [FailureKey.mk.injEq]
  exact ⟨toString_nat_injective hcontrol, toString_nat_injective hobservation,
    toString_nat_injective hcount, getD_toString_injective hrun, toString_nat_injective hinputs,
    getD_toString_injective h⟩

/-- **One key in both languages**: for every watermark and every incident the texts are equal
exactly when the parts are. -/
theorem watermarkKey_eq_keySql (watermark : Watermark) (incident : Incident)
    (revisesVersion pending : Option ℕ) :
    watermarkKey watermark revisesVersion = incident.keySql pending ↔
      watermark.key revisesVersion = incident.failureKey pending := by
  rw [watermarkKey_eq, keySql_eq, keyText_injective.eq_iff]

/-- The watermark of an incident has the key of the incident. -/
theorem currentWatermark_key {incident : Incident} {watermark : Watermark}
    (h : incident.currentWatermark = some watermark) (revisesVersion : Option ℕ) :
    watermark.key revisesVersion = incident.failureKey revisesVersion := by
  obtain ⟨observation, -, rfl⟩ := Option.map_eq_some_iff.1 h
  rfl

end OpsPilot.Knowledge
