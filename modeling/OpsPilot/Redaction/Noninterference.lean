import OpsPilot.Redaction.Payloads

/-!
# Redaction hides what fills a credential field

Two JSON trees that differ in the values of their credential-named fields, and in nothing else, are
two fillings of one tree. They redact to the same payload, and the bodies that list them to texts of
the same value.

* `blank`: a value but for its credentials. `redactPayload_congr`: the payload depends on no more.
* `blank_collapse`: a body's repeated keys are dropped before or after its credentials.
* `fill`, `blank_fill`: the fillings of a tree.
* `redaction_noninterference`: the statement for payloads and for bodies.
* `KeptBody.kept_body`: two bodies that come out as different texts, since one is kept as it is.
-/

namespace OpsPilot.Redaction

section

variable [UnicodeTexts]

/-! ## Values but for their credentials -/

mutual

/-- The value with the marker for the value of every field that holds a credential. -/
def blank : Tree → Tree
  | .arr items => .arr (blankItems items)
  | .obj fields => .obj (blankFields fields)
  | value => value

/-- The items of an array. -/
def blankItems : List Tree → List Tree
  | [] => []
  | item :: items => blank item :: blankItems items

/-- The fields of an object. -/
def blankFields : List (Text × Tree) → List (Text × Tree)
  | [] => []
  | (key, item) :: fields =>
    (key, if holdsCredential key item then .str redactedCredential else blank item) ::
      blankFields fields

end

theorem isNull_blank (value : Tree) : (blank value).isNull = value.isNull := by
  cases value <;> simp [blank, Tree.isNull]

omit [UnicodeTexts] in
theorem isNull_collapse (value : Tree) : (collapse value).isNull = value.isNull := by
  cases value <;> simp [collapse, Tree.isNull]

theorem holdsCredential_marker (key : Text) :
    holdsCredential key (.str redactedCredential) = credentialKey key := by
  simp [holdsCredential, Tree.isNull]

theorem holdsCredential_congr {key : Text} {item item' : Tree} (h : item'.isNull = item.isNull) :
    holdsCredential key item' = holdsCredential key item := by
  rw [holdsCredential, holdsCredential, h]

theorem credentialKey_of_holds {key : Text} {item : Tree} (h : holdsCredential key item = true) :
    credentialKey key = true := (Bool.and_eq_true_iff.1 h).1

mutual

/-- The redacted value does not depend on the values of the fields that hold credentials. -/
theorem walk_blank : ∀ value : Tree, (walk (blank value)).1 = (walk value).1
  | .arr items => by simp only [blank, walk, walkItems_blank items]
  | .obj fields => by simp only [blank, walk, walkFields_blank [] [] fields]
  | .null | .bool _ | .int _ | .float _ | .str _ => by simp [blank]

theorem walkItems_blank :
    ∀ items : List Tree, (walkItems (blankItems items)).1 = (walkItems items).1
  | [] => rfl
  | item :: items => by simp only [blankItems, walkItems, walk_blank item, walkItems_blank items]

theorem walkFields_blank : ∀ (taken : List Text) (suffixes : List (Text × ℕ))
    (fields : List (Text × Tree)),
      (walkFields taken suffixes (blankFields fields)).1 = (walkFields taken suffixes fields).1
  | _, _, [] => rfl
  | taken, suffixes, (key, item) :: fields => by
    simp only [blankFields, walkFields, walkFields_blank _ _ fields]
    by_cases hcredential : holdsCredential key item = true
    · rw [if_pos hcredential, if_pos hcredential,
        if_pos (by rw [holdsCredential_marker, credentialKey_of_holds hcredential])]
    · rw [if_neg hcredential, if_neg hcredential,
        if_neg (by rwa [holdsCredential_congr (isNull_blank item)]), walk_blank item]

end

/-- The payload that redaction gives depends on the value but for its credentials. -/
theorem redactPayload_congr {value value' : Tree} (h : blank value = blank value') :
    redactPayload value = redactPayload value' := by
  rw [redactPayload_eq, redactPayload_eq, ← walk_blank value, h, walk_blank value']


/-! ## Repeated keys -/

omit [UnicodeTexts] in
theorem dictSet_map (φ : Text → Tree → Tree) (fields : List (Text × Tree)) (key : Text)
    (value : Tree) :
    dictSet (fields.map fun field => (field.1, φ field.1 field.2)) key (φ key value) =
      (dictSet fields key value).map fun field => (field.1, φ field.1 field.2) := by
  have hkeys : (fields.map fun field => (field.1, φ field.1 field.2)).map Prod.fst =
      fields.map Prod.fst := by simp
  rw [dictSet, dictSet, hkeys]
  by_cases hkey : key ∈ fields.map Prod.fst
  · rw [if_pos hkey, if_pos hkey, List.map_map, List.map_map]
    refine List.map_congr_left fun field _ => ?_
    by_cases hfield : field.1 = key
    · simp [hfield]
    · simp [hfield]
  · rw [if_neg hkey, if_neg hkey, List.map_append]
    rfl

omit [UnicodeTexts] in
theorem dictOf_map (φ : Text → Tree → Tree) (fields : List (Text × Tree)) :
    dictOf (fields.map fun field => (field.1, φ field.1 field.2)) =
      (dictOf fields).map fun field => (field.1, φ field.1 field.2) := by
  have hfold : ∀ acc : List (Text × Tree),
      (fields.map fun field => (field.1, φ field.1 field.2)).foldl
          (fun fields entry => dictSet fields entry.1 entry.2)
          (acc.map fun field => (field.1, φ field.1 field.2)) =
        (fields.foldl (fun fields entry => dictSet fields entry.1 entry.2) acc).map
          fun field => (field.1, φ field.1 field.2) := by
    induction fields with
    | nil => intro acc; rfl
    | cons field fields ih =>
      intro acc
      rw [List.map_cons, List.foldl_cons, List.foldl_cons, dictSet_map, ih]
  exact hfold []

theorem blankFields_eq_map (fields : List (Text × Tree)) : blankFields fields =
    fields.map fun field => (field.1,
      if holdsCredential field.1 field.2 then .str redactedCredential else blank field.2) := by
  induction fields with
  | nil => rfl
  | cons field fields ih => rw [blankFields, ih]; rfl

theorem blankFields_dictOf (fields : List (Text × Tree)) :
    blankFields (dictOf fields) = dictOf (blankFields fields) := by
  rw [blankFields_eq_map, blankFields_eq_map, dictOf_map fun key item =>
    if holdsCredential key item then .str redactedCredential else blank item]

mutual

theorem blank_collapse : ∀ value : Tree, blank (collapse value) = collapse (blank value)
  | .arr items => by simp only [collapse, blank, blankItems_collapse items]
  | .obj fields => by
    simp only [collapse, blank, blankFields_dictOf, blankFields_collapse fields]
  | .null | .bool _ | .int _ | .float _ | .str _ => by simp [collapse, blank]

theorem blankItems_collapse : ∀ items : List Tree,
    blankItems (collapseItems items) = collapseItems (blankItems items)
  | [] => rfl
  | item :: items => by
    simp only [collapseItems, blankItems, blank_collapse item, blankItems_collapse items]

theorem blankFields_collapse : ∀ fields : List (Text × Tree),
    blankFields (collapseFields fields) = collapseFields (blankFields fields)
  | [] => rfl
  | (key, item) :: fields => by
    simp only [collapseFields, blankFields, blankFields_collapse fields,
      holdsCredential_congr (isNull_collapse item)]
    by_cases hcredential : holdsCredential key item = true
    · rw [if_pos hcredential, if_pos hcredential]
      simp [collapse]
    · rw [if_neg hcredential, if_neg hcredential, blank_collapse item]

end

/-! ## Fillings -/

/-- A value for every position of a tree, none of them null. -/
structure Filling where
  value : List ℕ → Tree
  filled : ∀ path, (value path).isNull = false

mutual

/-- A value with other values in the fields that hold credentials. -/
def fill (filling : Filling) (path : List ℕ) : Tree → Tree
  | .arr items => .arr (fillItems filling path 0 items)
  | .obj fields => .obj (fillFields filling path 0 fields)
  | value => value

/-- The items of an array from a position on. -/
def fillItems (filling : Filling) (path : List ℕ) (position : ℕ) : List Tree → List Tree
  | [] => []
  | item :: items =>
    fill filling (position :: path) item :: fillItems filling path (position + 1) items

/-- The fields of an object from a position on. -/
def fillFields (filling : Filling) (path : List ℕ) (position : ℕ) :
    List (Text × Tree) → List (Text × Tree)
  | [] => []
  | (key, item) :: fields =>
    (key, if holdsCredential key item then filling.value (position :: path)
      else fill filling (position :: path) item) ::
        fillFields filling path (position + 1) fields

end

theorem isNull_fill (filling : Filling) (path : List ℕ) (value : Tree) :
    (fill filling path value).isNull = value.isNull := by
  cases value <;> simp [fill, Tree.isNull]

mutual

/-- A filled value is the same but for its credentials. -/
theorem blank_fill (filling : Filling) : ∀ (path : List ℕ) (value : Tree),
    blank (fill filling path value) = blank value
  | path, .arr items => by simp only [fill, blank, blankItems_fill filling path 0 items]
  | path, .obj fields => by simp only [fill, blank, blankFields_fill filling path 0 fields]
  | _, .null | _, .bool _ | _, .int _ | _, .float _ | _, .str _ => by simp [fill]

theorem blankItems_fill (filling : Filling) : ∀ (path : List ℕ) (position : ℕ) (items : List Tree),
    blankItems (fillItems filling path position items) = blankItems items
  | _, _, [] => rfl
  | path, position, item :: items => by
    simp only [fillItems, blankItems, blank_fill filling (position :: path) item,
      blankItems_fill filling path (position + 1) items]

theorem blankFields_fill (filling : Filling) :
    ∀ (path : List ℕ) (position : ℕ) (fields : List (Text × Tree)),
      blankFields (fillFields filling path position fields) = blankFields fields
  | _, _, [] => rfl
  | path, position, (key, item) :: fields => by
    simp only [fillFields, blankFields, blankFields_fill filling path (position + 1) fields]
    by_cases hcredential : holdsCredential key item = true
    · have hfilled : holdsCredential key (filling.value (position :: path)) = true := by
        rw [holdsCredential, credentialKey_of_holds hcredential, filling.filled]
        rfl
      rw [if_pos hcredential, if_pos hcredential, if_pos hfilled]
    · rw [if_neg hcredential, if_neg hcredential,
        if_neg (by rwa [holdsCredential_congr (isNull_fill filling _ item)]),
        blank_fill filling (position :: path) item]

end

theorem redactPayload_fill (f g : Filling) (tree : Tree) :
    redactPayload (fill f [] tree) = redactPayload (fill g [] tree) :=
  redactPayload_congr (by rw [blank_fill, blank_fill])

theorem redactPayload_collapse_fill (f g : Filling) (tree : Tree) :
    redactPayload (collapse (fill f [] tree)) = redactPayload (collapse (fill g [] tree)) :=
  redactPayload_congr (by rw [blank_collapse, blank_collapse, blank_fill, blank_fill])

section

variable [JsonTexts]

/-- The JSON value a body lists, repeated keys included. -/
def listed (body : ByteArray) : Option Tree :=
  (decode body).bind fun text => (loads pairs text).toOption

/-- A body comes out as the canonical bytes of its redacted value, or as it is when it lists that
value already. -/
theorem redactJsonBytes_of_listed {body : ByteArray} {tree : Tree} (h : listed body = some tree) :
    redactJsonBytes body = canonicalBytes (redactPayload (collapse tree)) ∨
      redactJsonBytes body = some body ∧ tree = redactPayload (collapse tree) := by
  obtain ⟨text, htext, hread⟩ := Option.bind_eq_some_iff.1 h
  have hpairs : loads pairs text = .ok tree := by
    cases hloads : loads pairs text with
    | error e => rw [hloads] at hread; cases hread
    | ok value => rw [hloads] at hread; rw [Option.some.inj hread]
  unfold redactJsonBytes
  rw [htext]
  simp only
  rw [loads_build dictionary hpairs, build_dictionary]
  simp only
  split
  · next hsame =>
    have hcollapse : collapse tree = tree := collapse_eq_self hpairs (by simpa using hsame.2)
    refine .inr ⟨rfl, ?_⟩
    have hunchanged : (walk tree).2 = false := by
      rw [← hcollapse]
      simpa using hsame.1
    rw [hcollapse, redactPayload_eq, walk_unchanged tree hunchanged]
  · exact .inl rfl

/-- Two ways of filling the credential-named fields of a JSON tree redact to the same payload, and
two bodies that list the tree filled so come out as texts of one value: its canonical bytes, or the
body itself when it lists that value. -/
theorem redaction_noninterference (f g : Filling) (tree : Tree) :
    redactPayload (fill f [] tree) = redactPayload (fill g [] tree) ∧
      ∀ b c : ByteArray, listed b = some (fill f [] tree) → listed c = some (fill g [] tree) →
        ∃ result,
          (redactJsonBytes b = canonicalBytes result ∨
            redactJsonBytes b = some b ∧ listed b = some result) ∧
          (redactJsonBytes c = canonicalBytes result ∨
            redactJsonBytes c = some c ∧ listed c = some result) := by
  refine ⟨redactPayload_fill f g tree, fun b c hb hc => ?_⟩
  refine ⟨redactPayload (collapse (fill f [] tree)), ?_, ?_⟩
  · refine (redactJsonBytes_of_listed hb).imp_right fun ⟨hsame, hlisted⟩ => ⟨hsame, ?_⟩
    rw [hb, ← hlisted]
  · rw [redactPayload_collapse_fill f g]
    refine (redactJsonBytes_of_listed hc).imp_right fun ⟨hsame, hlisted⟩ => ⟨hsame, ?_⟩
    rw [hc, ← hlisted]

end

end

namespace KeptBody

/-- The Unicode tables on ASCII. -/
scoped instance asciiTexts : UnicodeTexts where
  isAlnum c := c.isLetter || c.isDigit
  lower text := text.map foldCase

scoped instance jsonTexts : JsonTexts where
  recursionLimit := 1000
  floatRepr token := token

/-- A password that is the marker already. -/
def marked : String := "\x7b\"password\": \"[REDACTED_CREDENTIAL]\"\x7d"

/-- A password to hide. -/
def secret : String := "\x7b\"password\": \"s\"\x7d"

/-- The tree both bodies fill. -/
def login : Tree := .obj [(literal "password", .bool true)]

/-- The password of every field. -/
def password (text : String) : Filling where
  value _ := .str (literal text)
  filled _ := rfl

theorem listed_toUTF8 {s : String} {tree : Tree} (h : loads pairs (literal s) = .ok tree) :
    listed s.toUTF8 = some tree := by
  rw [listed, decode_toUTF8, Option.bind_some, h]
  rfl

theorem listed_marked :
    listed marked.toUTF8 = some (fill (password "[REDACTED_CREDENTIAL]") [] login) :=
  listed_toUTF8 (by decide +kernel)

theorem listed_secret : listed secret.toUTF8 = some (fill (password "s") [] login) :=
  listed_toUTF8 (by decide +kernel)

/-- The two passwords redact to texts of one value. -/
theorem redaction_noninterference_login :
    redactPayload (fill (password "[REDACTED_CREDENTIAL]") [] login) =
        redactPayload (fill (password "s") [] login) ∧
      ∃ result,
        (redactJsonBytes marked.toUTF8 = canonicalBytes result ∨
          redactJsonBytes marked.toUTF8 = some marked.toUTF8 ∧
            listed marked.toUTF8 = some result) ∧
        (redactJsonBytes secret.toUTF8 = canonicalBytes result ∨
          redactJsonBytes secret.toUTF8 = some secret.toUTF8 ∧
            listed secret.toUTF8 = some result) :=
  have h := redaction_noninterference (password "[REDACTED_CREDENTIAL]") (password "s") login
  ⟨h.1, h.2 _ _ listed_marked listed_secret⟩

/-- The canonical text of the redacted body. -/
def canonicalText : String := "\x7b\"password\":\"[REDACTED_CREDENTIAL]\"\x7d"

/-- The body that has nothing to hide keeps its space, and the other one loses it. -/
theorem kept_body : ¬ ∀ (f g : Filling) (tree : Tree) (b c : ByteArray),
    listed b = some (fill f [] tree) → listed c = some (fill g [] tree) →
      redactJsonBytes b = redactJsonBytes c := by
  intro h
  have hsame := h _ _ login _ _ listed_marked listed_secret
  have hmarked : redactJsonBytes marked.toUTF8 = some marked.toUTF8 := by
    have hread : loads dictionary (literal marked) =
        .ok (.obj [(literal "password", .str redactedCredential)]) := by decide +kernel
    rw [redactJsonBytes, decode_toUTF8]
    simp only [hread]
    exact if_pos (by decide +kernel)
  have hsecret : redactJsonBytes secret.toUTF8 = some canonicalText.toUTF8 := by
    have hread : loads dictionary (literal secret) =
        .ok (.obj [(literal "password", .str (literal "s"))]) := by decide +kernel
    have hdumps : dumps false (redactPayload (.obj [(literal "password", .str (literal "s"))])) =
        literal canonicalText := by decide +kernel
    rw [redactJsonBytes, decode_toUTF8]
    simp only [hread]
    rw [if_neg (by decide +kernel), canonicalBytes, hdumps, encode_literal]
    rfl
  rw [hmarked, hsecret] at hsame
  have hdecode := congrArg decode (Option.some.inj hsame)
  rw [decode_toUTF8, decode_toUTF8] at hdecode
  have hne : literal marked ≠ literal canonicalText := by decide +kernel
  exact hne (Option.some.inj hdecode)

end KeptBody

end OpsPilot.Redaction
