import Mathlib.Data.List.Perm.Subperm
import OpsPilot.Redaction.Credentials
import OpsPilot.Redaction.Trees

/-!
# Redacting payloads

`redact_payload` and `redact_json_bytes` (`opspilot/redaction.py`) on JSON values and on bodies.
The walk over a value is a recursion: the stack of the source fixes the order in which containers
are filled, and nothing a container gets depends on another one.

* `redactPayload`, `redactJsonBytes`: a value and a body, redacted.
* `walk_unchanged`, `redactPayload_eq`: the walk returns an unchanged value as it is.
* `walkFields_nodup`: the fields of a redacted object have different names.
-/

namespace OpsPilot.Redaction

variable [UnicodeTexts]

/-! ## Values -/

/-- `key.replace(REDACTED_CREDENTIAL, "")`. -/
def withoutMarker : ℕ → Text → Text
  | 0, text => text
  | _, [] => []
  | fuel + 1, c :: text =>
    if redactedCredential.isPrefixOf (c :: text) then
      withoutMarker fuel ((c :: text).drop redactedCredential.length)
    else c :: withoutMarker fuel text

/-- Whether a key names a credential. The marker's own word does not make it one. -/
def credentialKey (key : Text) : Bool := credentialName (withoutMarker key.length key)

/-- `item is None`. -/
def Tree.isNull : Tree → Bool
  | .null => true
  | _ => false

/-- Whether a value is the marker. -/
def Tree.isMarker : Tree → Bool
  | .str text => text = redactedCredential
  | _ => false

/-- Whether a field holds a credential, whose value is replaced whole whatever it is. -/
def holdsCredential (key : Text) (item : Tree) : Bool := credentialKey key && !item.isNull

/-- The name with a suffix. -/
def suffixed (base : Text) (suffix : ℕ) : Text := base ++ literal "#" ++ literal (toString suffix)

/-- The loop over the suffixes of a taken name: the first one after `suffix` that makes it free. -/
def nextSuffix (taken : List Text) (base : Text) : ℕ → ℕ → ℕ
  | 0, suffix => suffix
  | fuel + 1, suffix =>
    if suffixed base (suffix + 1) ∈ taken then nextSuffix taken base fuel (suffix + 1)
    else suffix + 1

/-- The name a field gets beside the names its object has already, and the last suffix of each
name that came twice. Among one suffix more than there are names, one makes the name free. -/
def nameField (taken : List Text) (suffixes : List (Text × ℕ)) (name : Text) :
    Text × List (Text × ℕ) :=
  if name ∈ taken then
    let suffix := nextSuffix taken name (taken.length + 1) ((suffixes.lookup name).getD 1)
    (suffixed name suffix, (name, suffix) :: suffixes)
  else (name, suffixes)

mutual

/-- The walk of `redact_payload` over a value: the redacted value, and whether anything changed. -/
def walk : Tree → Tree × Bool
  | .str text => (.str (redactCredentials text), redactCredentials text ≠ text)
  | .arr items => (.arr (walkItems items).1, (walkItems items).2)
  | .obj fields => (.obj (walkFields [] [] fields).1, (walkFields [] [] fields).2)
  | value => (value, false)

/-- The items of an array. -/
def walkItems : List Tree → List Tree × Bool
  | [] => ([], false)
  | item :: items => ((walk item).1 :: (walkItems items).1, (walk item).2 || (walkItems items).2)

/-- The fields of an object, after the names and suffixes of the fields before them. -/
def walkFields (taken : List Text) (suffixes : List (Text × ℕ)) :
    List (Text × Tree) → List (Text × Tree) × Bool
  | [] => ([], false)
  | (key, item) :: fields =>
    let redacted := if holdsCredential key item then (.str redactedCredential, !item.isMarker)
      else walk item
    let name := redactCredentials key
    let named := nameField taken suffixes name
    let rest := walkFields (named.1 :: taken) named.2 fields
    ((named.1, redacted.1) :: rest.1, redacted.2 || name ≠ key || name ∈ taken || rest.2)

end

/-- `redact_payload`: the value itself when nothing changed. -/
def redactPayload (value : Tree) : Tree := if (walk value).2 then (walk value).1 else value

omit [UnicodeTexts] in
theorem Tree.eq_of_isMarker {item : Tree} (h : item.isMarker = true) :
    item = .str redactedCredential := by
  unfold isMarker at h
  split at h
  · rw [of_decide_eq_true h]
  · cases h

mutual

theorem walk_unchanged : ∀ value : Tree, (walk value).2 = false → (walk value).1 = value
  | .str text => by simp [walk]
  | .arr items => by
    simp only [walk]
    exact fun h => congrArg Tree.arr (walkItems_unchanged items h)
  | .obj fields => by
    simp only [walk]
    exact fun h => congrArg Tree.obj (walkFields_unchanged [] [] fields h)
  | .null | .bool _ | .int _ | .float _ => by simp [walk]

theorem walkItems_unchanged : ∀ items : List Tree,
    (walkItems items).2 = false → (walkItems items).1 = items
  | [] => fun _ => rfl
  | item :: items => by
    intro h
    simp only [walkItems, Bool.or_eq_false_iff] at h ⊢
    rw [walk_unchanged item h.1, walkItems_unchanged items h.2]

theorem walkFields_unchanged : ∀ (taken : List Text) (suffixes : List (Text × ℕ))
    (fields : List (Text × Tree)), (walkFields taken suffixes fields).2 = false →
      (walkFields taken suffixes fields).1 = fields
  | _, _, [] => fun _ => rfl
  | taken, suffixes, (key, item) :: fields => by
    intro h
    rw [walkFields] at h ⊢
    simp only [Bool.or_eq_false_iff, decide_eq_false_iff_not, not_not] at h ⊢
    obtain ⟨⟨⟨hitem, hkey⟩, hfree⟩, hfields⟩ := h
    rw [walkFields_unchanged _ _ fields hfields, nameField, if_neg hfree, hkey]
    by_cases hcredential : holdsCredential key item = true
    · rw [if_pos hcredential] at hitem ⊢
      have hmarker : item.isMarker = true := by simpa using hitem
      rw [Tree.eq_of_isMarker hmarker]
    · rw [if_neg hcredential] at hitem ⊢
      rw [walk_unchanged item hitem]

end

/-- `redact_payload` gives the value of the walk. -/
theorem redactPayload_eq (value : Tree) : redactPayload value = (walk value).1 := by
  rw [redactPayload]
  split
  · rfl
  · next h => rw [walk_unchanged value (by simpa using h)]

/-! ## The names of fields -/

omit [UnicodeTexts] in
theorem literal_injective : Function.Injective literal := by
  intro s t h
  have hchars : s.toList = t.toList := List.map_injective_iff.2 (fun _ _ => Code.char.inj) h
  exact String.toList_inj.1 hchars

omit [UnicodeTexts] in
theorem suffixed_injective (base : Text) : Function.Injective (suffixed base) := by
  intro m n h
  have hdigits : toString m = toString n := literal_injective (List.append_cancel_left h)
  have hlist := congrArg String.toList hdigits
  simp only [Nat.toString_eq_ofList_toDigits, String.toList_ofList] at hlist
  rw [← Nat.ofDigitChars_ten_toDigits (n := m), hlist, Nat.ofDigitChars_ten_toDigits]

omit [UnicodeTexts] in
/-- The loop ends at a free name, or every suffix it tried makes a taken one. -/
theorem nextSuffix_cases (taken : List Text) (base : Text) (fuel suffix : ℕ) :
    suffixed base (nextSuffix taken base fuel suffix) ∉ taken ∨
      ∀ n, suffix < n → n ≤ suffix + fuel → suffixed base n ∈ taken := by
  induction fuel generalizing suffix with
  | zero => exact .inr fun n hlt hle => by omega
  | succ fuel ih =>
    rw [nextSuffix]
    by_cases htaken : suffixed base (suffix + 1) ∈ taken
    · rw [if_pos htaken]
      refine (ih (suffix + 1)).imp_right fun hall n hlt hle => ?_
      obtain rfl | hlt : n = suffix + 1 ∨ suffix + 1 < n := by omega
      · exact htaken
      · exact hall n hlt (by omega)
    · rw [if_neg htaken]
      exact .inl htaken

omit [UnicodeTexts] in
/-- A field's name is free. -/
theorem nameField_free (taken : List Text) (suffixes : List (Text × ℕ)) (name : Text) :
    (nameField taken suffixes name).1 ∉ taken := by
  rw [nameField]
  split
  · generalize hsuffix : (suffixes.lookup name).getD 1 = suffix
    rcases nextSuffix_cases taken name (taken.length + 1) suffix with hfree | hall
    · simpa [hsuffix] using hfree
    · have hnodup : ((List.range' (suffix + 1) (taken.length + 1)).map (suffixed name)).Nodup :=
        List.Nodup.map (suffixed_injective name) List.nodup_range'
      have hsubset :
          ((List.range' (suffix + 1) (taken.length + 1)).map (suffixed name)) ⊆ taken := by
        intro key hkey
        obtain ⟨n, hn, rfl⟩ := List.mem_map.1 hkey
        obtain ⟨hle, hlt⟩ := List.mem_range'_1.1 hn
        exact hall n (by omega) (by omega)
      have hlength := (List.subperm_of_subset hnodup hsubset).length_le
      rw [List.length_map, List.length_range'] at hlength
      omega
  · next hfree => exact hfree

/-- The fields of a redacted object have different names. -/
theorem walkFields_nodup (taken : List Text) (suffixes : List (Text × ℕ))
    (fields : List (Text × Tree)) :
    ((walkFields taken suffixes fields).1.map Prod.fst).Nodup ∧
      ∀ key ∈ (walkFields taken suffixes fields).1.map Prod.fst, key ∉ taken := by
  induction fields generalizing taken suffixes with
  | nil => exact ⟨List.nodup_nil, fun key hkey => by cases hkey⟩
  | cons field fields ih =>
    rw [walkFields]
    generalize hnamed : nameField taken suffixes (redactCredentials field.1) = named
    obtain ⟨hnodup, hfresh⟩ := ih (named.1 :: taken) named.2
    have hfree : named.1 ∉ taken := hnamed ▸ nameField_free taken suffixes _
    simp only [List.map_cons, List.nodup_cons, List.mem_cons]
    refine ⟨⟨fun hmem => hfresh _ hmem List.mem_cons_self, hnodup⟩, ?_⟩
    rintro key (rfl | hkey)
    · exact hfree
    · exact fun htaken => hfresh key hkey (List.mem_cons_of_mem _ htaken)

/-! ## Bytes -/

/-- `body.decode("utf-8")`. -/
def decode (body : ByteArray) : Option Text := (String.fromUTF8? body).map literal

/-- A character that is no surrogate. -/
def Code.char? : Code → Option Char
  | .char c => some c
  | .surrogate _ => none

/-- `text.encode("utf-8")`: `none` when the text has a surrogate. -/
def encode (text : Text) : Option ByteArray :=
  (text.mapM Code.char?).map fun chars => (String.ofList chars).toUTF8

variable [JsonTexts]

/-- The canonical bytes of a value, with escapes when it has a surrogate. -/
def canonicalBytes (value : Tree) : Option ByteArray :=
  (encode (dumps false value)).or (encode (dumps true value))

/-- `redact_json_bytes`, `none` when the redacted text cannot be encoded. -/
def redactJsonBytes (body : ByteArray) : Option ByteArray :=
  match decode body with
  | none => some body
  | some text =>
    match loads dictionary text with
    | .error _ =>
      if redactCredentials text = text then some body else encode (redactCredentials text)
    | .ok payload =>
      if ¬ (walk payload).2 ∧ ¬ hasDuplicateKeys text then some body
      else canonicalBytes (redactPayload payload)

omit [UnicodeTexts] [JsonTexts] in
theorem decode_toUTF8 (s : String) : decode s.toUTF8 = some (literal s) := by
  have h : String.fromUTF8? s.toUTF8 = some s := dif_pos s.isValidUTF8
  rw [decode, h]
  rfl

omit [UnicodeTexts] [JsonTexts] in
theorem encode_literal (s : String) : encode (literal s) = some s.toUTF8 := by
  have hchars : ∀ chars : List Char, (chars.map Code.char).mapM Code.char? = some chars := by
    intro chars
    induction chars with
    | nil => rfl
    | cons c chars ih => rw [List.map_cons, List.mapM_cons, ih]; rfl
  rw [encode, literal, hchars, Option.map_some, String.ofList_toList]

end OpsPilot.Redaction
