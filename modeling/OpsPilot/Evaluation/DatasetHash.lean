import OpsPilot.Redaction.Payloads

/-!
# The hash of a dataset

`dataset_tree_hash` (`opspilot/evaluation/model.py`) feeds the path and the content of every file
under a directory to SHA-256, each with a NUL after it, in the order of the paths.

* `datasetStream`: the bytes it feeds, or the error it ends with.
* **`paths_of_datasetStream_eq`**: when no content has a NUL, equal bytes come from the same paths
  with the same contents.
-/

namespace OpsPilot.Dataset

open Redaction

/-! ## File trees -/

/-- A file name: not empty, and without a slash or a NUL. -/
structure Name where
  text : Text
  ne_nil : text ≠ []
  no_slash : .char '/' ∉ text
  no_nul : .char '\x00' ∉ text

/-- What a name of a directory stands for: a file, whose bytes may not be readable, a directory, or
something that is neither. -/
inductive Node
  | file (content : Option (List UInt8))
  | dir (entries : List (Name × Node))
  | other

/-- The names from a directory down to a file. -/
abbrev Path := List Name

mutual

/-- The files under a node, each with its path from there. -/
def Node.files : Node → List (Path × Option (List UInt8))
  | .file content => [([], content)]
  | .dir entries => entryFiles entries
  | .other => []

/-- The files under the entries of a directory. -/
def entryFiles : List (Name × Node) → List (Path × Option (List UInt8))
  | [] => []
  | (name, node) :: entries =>
    (node.files.map fun file => (name :: file.1, file.2)) ++ entryFiles entries

end

/-- `as_posix` of a relative path. -/
def posix (path : Path) : Text := [.char '/'].intercalate (path.map Name.text)

/-! ## The stream -/

/-- How `dataset_tree_hash` ends without a hash: `DATASET_ROOT_MISSING`, `UNREADABLE` with the path,
or the `UnicodeEncodeError` of a name that is not UTF-8. -/
inductive HashError
  | rootMissing
  | unreadable (relative : Text)
  | notUnicode
  deriving DecidableEq

/-- What a file adds to the stream. -/
def fileBytes (file : Text × Option (List UInt8)) : Except HashError (List UInt8) := do
  let content ← require file.2 (.unreadable file.1)
  let relative ← require (encode file.1) .notUnicode
  .ok (relative.data.toList ++ [0] ++ content ++ [0])

/-- Files in the order of their paths. -/
def sortByPath (files : List (Text × Option (List UInt8))) : List (Text × Option (List UInt8)) :=
  files.insertionSort fun a b => a.1.map Code.point ≤ b.1.map Code.point

/-- What the files add to the stream. -/
def filesBytes : List (Text × Option (List UInt8)) → Except HashError (List UInt8)
  | [] => .ok []
  | file :: files => do
    let first ← fileBytes file
    let rest ← filesBytes files
    .ok (first ++ rest)

/-- The bytes `dataset_tree_hash` feeds to SHA-256. -/
def datasetStream (root : Node) : Except HashError (List UInt8) :=
  match root with
  | .dir entries =>
    filesBytes (sortByPath ((entryFiles entries).map fun file => (posix file.1, file.2)))
  | _ => .error .rootMissing

/-! ## What the bytes say -/

/-- No file has a NUL. -/
def NulFree (root : Node) : Prop := ∀ file ∈ root.files, ∀ content ∈ file.2, 0 ∉ content

/-! ### Texts and their bytes -/

theorem zero_notMem_utf8EncodeChar {c : Char} (hc : c ≠ '\x00') : 0 ∉ String.utf8EncodeChar c := by
  have hne : c.val.toNat ≠ 0 := fun h => hc (Char.ext (UInt32.toNat_inj.1 h))
  have hnat : ∀ n : ℕ, n % 256 ≠ 0 → ¬ (0 : UInt8) = UInt8.ofNat n := fun n hn h =>
    hn (by simpa using (congrArg UInt8.toNat h).symm)
  unfold String.utf8EncodeChar
  simp only
  split_ifs <;> simp only [List.mem_cons, List.not_mem_nil, or_false, not_or]
  · exact hnat _ (by omega)
  · exact ⟨hnat _ (by omega), hnat _ (by omega)⟩
  · exact ⟨hnat _ (by omega), hnat _ (by omega), hnat _ (by omega)⟩
  · exact ⟨hnat _ (by omega), hnat _ (by omega), hnat _ (by omega), hnat _ (by omega)⟩

theorem encode_eq_some {text : Text} {bytes : ByteArray} (h : encode text = some bytes) :
    ∃ chars : List Char, text = chars.map .char ∧ bytes = (String.ofList chars).toUTF8 := by
  obtain ⟨chars, hchars, rfl⟩ := Option.map_eq_some_iff.1 h
  refine ⟨chars, ?_, rfl⟩
  clear h
  induction text generalizing chars with
  | nil =>
    obtain rfl := Option.some.inj hchars
    rfl
  | cons c text ih =>
    rw [List.mapM_cons] at hchars
    simp only [Option.bind_eq_bind, Option.bind_eq_some_iff, Option.pure_def, Option.some.injEq]
      at hchars
    obtain ⟨head, hhead, tail, htail, rfl⟩ := hchars
    cases c with
    | char c =>
      obtain rfl := Option.some.inj hhead
      rw [List.map_cons, ih tail htail]
    | surrogate n => cases hhead

theorem encode_injective {text other : Text} {bytes bytes' : ByteArray}
    (h : encode text = some bytes) (h' : encode other = some bytes')
    (heq : bytes.data.toList = bytes'.data.toList) : text = other := by
  obtain ⟨chars, rfl, rfl⟩ := encode_eq_some h
  obtain ⟨chars', rfl, rfl⟩ := encode_eq_some h'
  have hbytes := ByteArray.ext (Array.toList_inj.1 heq)
  rw [String.ofList_injective (String.toByteArray_inj.1 hbytes)]

theorem zero_notMem_encode {text : Text} {bytes : ByteArray} (h : encode text = some bytes)
    (hnul : .char '\x00' ∉ text) : 0 ∉ bytes.data.toList := by
  obtain ⟨chars, rfl, rfl⟩ := encode_eq_some h
  have hbytes : (String.ofList chars).toUTF8.data.toList = chars.flatMap String.utf8EncodeChar := by
    show (String.ofList chars).toByteArray.data.toList = _
    rw [String.toByteArray_ofList, List.utf8Encode, List.toList_data_toByteArray]
  rw [hbytes, List.mem_flatMap]
  rintro ⟨c, hc, hzero⟩
  exact zero_notMem_utf8EncodeChar (fun heq => hnul (List.mem_map.2 ⟨c, hc, by rw [heq]⟩)) hzero

theorem Name.ext {name other : Name} (h : name.text = other.text) : name = other := by
  cases name
  cases other
  cases h
  rfl

theorem posix_eq_nil {path : Path} : posix path = [] ↔ path = [] := by
  cases path with
  | nil => simp [posix]
  | cons name path =>
    have hname := name.ne_nil
    cases path <;> simp [posix, List.intercalate, hname]

theorem posix_injective : Function.Injective posix := by
  intro path other h
  by_cases hpath : path = []
  · subst hpath
    exact (posix_eq_nil.1 h.symm).symm
  · have hother : other ≠ [] := fun hnil => hpath (posix_eq_nil.1 (h.trans (posix_eq_nil.2 hnil)))
    have hslash : ∀ path : Path, ∀ text ∈ path.map Name.text, .char '/' ∉ text := fun path text ht => by
      obtain ⟨name, -, rfl⟩ := List.mem_map.1 ht
      exact name.no_slash
    have hsplit := congrArg (List.splitOn (.char '/')) h
    rw [posix, posix, List.splitOn_intercalate _ (hslash path) (by simpa using hpath),
      List.splitOn_intercalate _ (hslash other) (by simpa using hother)] at hsplit
    exact List.map_injective_iff.2 (fun _ _ => Name.ext) hsplit

theorem nul_notMem_posix (path : Path) : .char '\x00' ∉ posix path := by
  induction path with
  | nil => simp [posix]
  | cons name path ih =>
    cases path with
    | nil => simpa [posix, List.intercalate] using name.no_nul
    | cons next path =>
      have hcons : posix (name :: next :: path) = name.text ++ .char '/' :: posix (next :: path) := by
        simp [posix, List.intercalate]
      rw [hcons, List.mem_append, List.mem_cons]
      rintro (hname | hslash | hrest)
      · exact name.no_nul hname
      · exact absurd hslash (by decide)
      · exact ih hrest

/-! ### The stream and its files -/

theorem append_cons_inj {α : Type*} [DecidableEq α] {a : α} {xs ys as bs : List α} (hxs : a ∉ xs)
    (hys : a ∉ ys) (h : xs ++ a :: as = ys ++ a :: bs) : xs = ys ∧ as = bs := by
  have hsplit := congrArg (List.splitOn a) h
  rw [List.splitOn_append_cons_self_of_not_mem hxs, List.splitOn_append_cons_self_of_not_mem hys]
    at hsplit
  obtain ⟨rfl, -⟩ := List.cons.inj hsplit
  exact ⟨rfl, (List.cons.inj (List.append_cancel_left h)).2⟩

/-- Whether the path and the content of a file have no NUL. -/
def Plain (file : Text × Option (List UInt8)) : Prop :=
  .char '\x00' ∉ file.1 ∧ ∀ content ∈ file.2, 0 ∉ content

theorem fileBytes_eq_ok {file : Text × Option (List UInt8)} {bytes : List UInt8} :
    fileBytes file = .ok bytes ↔ ∃ content relative, file.2 = some content ∧
      encode file.1 = some relative ∧ bytes = relative.data.toList ++ [0] ++ content ++ [0] := by
  simp only [fileBytes, require_bind_eq_ok, Except.ok.injEq, eq_comm (a := bytes)]
  constructor
  · rintro ⟨content, hcontent, relative, hrelative, rfl⟩
    exact ⟨content, relative, hcontent, hrelative, rfl⟩
  · rintro ⟨content, relative, hcontent, hrelative, rfl⟩
    exact ⟨content, hcontent, relative, hrelative, rfl⟩

theorem filesBytes_cons_eq_ok {file : Text × Option (List UInt8)}
    {files : List (Text × Option (List UInt8))} {bytes : List UInt8} :
    filesBytes (file :: files) = .ok bytes ↔
      ∃ first rest, fileBytes file = .ok first ∧ filesBytes files = .ok rest ∧
        bytes = first ++ rest := by
  simp only [filesBytes, bind_eq_ok, Except.ok.injEq, eq_comm (a := bytes)]
  constructor
  · rintro ⟨first, hfirst, rest, hrest, rfl⟩
    exact ⟨first, rest, hfirst, hrest, rfl⟩
  · rintro ⟨first, rest, hfirst, hrest, rfl⟩
    exact ⟨first, hfirst, rest, hrest, rfl⟩

theorem filesBytes_injective {files others : List (Text × Option (List UInt8))} {bytes : List UInt8}
    (hplain : ∀ file ∈ files, Plain file) (hothers : ∀ file ∈ others, Plain file)
    (h : filesBytes files = .ok bytes) (h' : filesBytes others = .ok bytes) : files = others := by
  have hne : ∀ {file : Text × Option (List UInt8)} {files : List (Text × Option (List UInt8))},
      filesBytes (file :: files) ≠ .ok [] := fun hok => by
    obtain ⟨first, rest, hfirst, -, hnil⟩ := filesBytes_cons_eq_ok.1 hok
    obtain ⟨content, relative, -, -, rfl⟩ := fileBytes_eq_ok.1 hfirst
    simp at hnil
  induction files generalizing others bytes with
  | nil =>
    obtain rfl := Except.ok.inj h
    cases others with
    | nil => rfl
    | cons other others => exact absurd h' hne
  | cons file files ih =>
    cases others with
    | nil =>
      obtain rfl := Except.ok.inj h'
      exact absurd h hne
    | cons other others =>
      obtain ⟨⟨hpath, hcontent⟩, hfiles⟩ := List.forall_mem_cons.1 hplain
      obtain ⟨⟨hpath', hcontent'⟩, hothers⟩ := List.forall_mem_cons.1 hothers
      obtain ⟨first, rest, hfirst, hrest, hbytes⟩ := filesBytes_cons_eq_ok.1 h
      obtain ⟨first', rest', hfirst', hrest', hbytes'⟩ := filesBytes_cons_eq_ok.1 h'
      obtain ⟨content, relative, hsome, hencode, rfl⟩ := fileBytes_eq_ok.1 hfirst
      obtain ⟨content', relative', hsome', hencode', rfl⟩ := fileBytes_eq_ok.1 hfirst'
      have heq := hbytes.symm.trans hbytes'
      simp only [List.append_assoc, List.singleton_append] at heq
      -- the path ends at the first NUL, and the content at the next one
      obtain ⟨hrelative, heq⟩ := append_cons_inj (zero_notMem_encode hencode hpath)
        (zero_notMem_encode hencode' hpath') heq
      obtain ⟨rfl, rfl⟩ := append_cons_inj (hcontent content hsome) (hcontent' content' hsome') heq
      have hfile : file = other :=
        Prod.ext (encode_injective hencode hencode' hrelative) (hsome.trans hsome'.symm)
      rw [hfile, ih hfiles hothers hrest hrest']

/-- **Equal streams come from the same paths with the same contents**, when no content has a
NUL. -/
theorem paths_of_datasetStream_eq {root root' : Node} (hroot : NulFree root) (hroot' : NulFree root')
    {bytes : List UInt8} (h : datasetStream root = .ok bytes)
    (h' : datasetStream root' = .ok bytes) : root.files.Perm root'.files := by
  have hplain : ∀ {root : Node}, NulFree root →
      ∀ file ∈ sortByPath (root.files.map fun file => (posix file.1, file.2)), Plain file := by
    intro root hroot file hfile
    obtain ⟨found, hfound, rfl⟩ := List.mem_map.1 ((List.perm_insertionSort _ _).mem_iff.1 hfile)
    exact ⟨nul_notMem_posix _, hroot found hfound⟩
  cases root with
  | file | other => cases h
  | dir entries =>
    cases root' with
    | file | other => cases h'
    | dir others =>
      have heq := filesBytes_injective (hplain hroot) (hplain hroot') h h'
      have hperm := (List.perm_insertionSort _ _).symm.trans
        ((List.Perm.of_eq heq).trans (List.perm_insertionSort _ _))
      refine (List.map_perm_map_iff fun file found hfile => ?_).1 hperm
      exact Prod.ext (posix_injective (Prod.mk.inj hfile).1) (Prod.mk.inj hfile).2

/-- A name of one letter. -/
def letterName (c : Char) (h : c.isAlpha = true) : Name where
  text := [.char c]
  ne_nil := List.cons_ne_nil _ _
  no_slash hmem := by
    obtain rfl := Code.char.inj (List.mem_singleton.1 hmem)
    exact absurd h (by decide)
  no_nul hmem := by
    obtain rfl := Code.char.inj (List.mem_singleton.1 hmem)
    exact absurd h (by decide)

theorem paths_of_datasetStream_eq_two :
    (Node.dir [(letterName 'a' rfl, .file (some [1])),
      (letterName 'b' rfl, .dir [(letterName 'c' rfl, .file (some []))])]).files.Perm
      (Node.dir [(letterName 'b' rfl, .dir [(letterName 'c' rfl, .file (some []))]),
        (letterName 'a' rfl, .file (some [1]))]).files := by
  have hleft : NulFree (.dir [(letterName 'a' rfl, .file (some [1])),
      (letterName 'b' rfl, .dir [(letterName 'c' rfl, .file (some []))])]) := by
    simp [NulFree, Node.files, entryFiles]
  have hright : NulFree (.dir [(letterName 'b' rfl, .dir [(letterName 'c' rfl, .file (some []))]),
      (letterName 'a' rfl, .file (some [1]))]) := by
    simp [NulFree, Node.files, entryFiles]
  exact @paths_of_datasetStream_eq _ _ hleft hright [97, 0, 1, 0, 98, 47, 99, 0, 0]
    (by decide +kernel) (by decide +kernel)

/-- A content can imitate the end of a file and another file. -/
theorem imitated_file : ∃ root root' : Node, ∃ bytes,
    datasetStream root = .ok bytes ∧ datasetStream root' = .ok bytes ∧
      ¬ root.files.Perm root'.files := by
  refine ⟨.dir [(letterName 'a' rfl, .file (some [1, 0, 98, 0, 2]))],
    .dir [(letterName 'a' rfl, .file (some [1])), (letterName 'b' rfl, .file (some [2]))],
    [97, 0, 1, 0, 98, 0, 2, 0], ?_, ?_, fun hperm => ?_⟩
  · decide +kernel
  · decide +kernel
  · exact absurd hperm.length_eq (by decide)

end OpsPilot.Dataset
