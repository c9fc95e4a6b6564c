import AtrexAgent.Library.JsonPrefix
import AtrexAgent.Workspace.FileTree
import AtrexAgent.Workspace.Snapshot

/-! Installing a snapshot in a workspace that holds another one: the files of the earlier content are
removed, and those of the snapshot are published. -/

namespace AtrexAgent.Sources

open AtrexAgent.Json

/-- What is raised: an error of the program, or one of the operating system. -/
inductive Failure where
  | source (error : Error)
  | os
  deriving DecidableEq, Repr

def lift {α : Type} : Except Error α → Except Failure α
  | .ok a => .ok a
  | .error error => .error (.source error)

def fromOs {α : Type} : Option α → Except Failure α
  | some a => .ok a
  | none => .error .os

theorem lift_ok {α : Type} {x : Except Error α} {a : α} : lift x = .ok a ↔ x = .ok a := by
  cases x <;> simp [lift]

theorem fromOs_ok {α : Type} {x : Option α} {a : α} : fromOs x = .ok a ↔ x = some a := by
  cases x <;> simp [fromOs]

/-- `ValueError`, with the decoding errors below it. -/
def Error.isValue : Error → Bool
  | .value _ | .unsafePath | .json | .unicode => true
  | _ => false

def SELECTION : String := ".atrex_file_system.json"

def POLICY : String := ".atrex_source.json"

/-! ### Reading -/

/-- `read_regular_bytes(workspace/name, limit=MAX_FILE+1)`; nothing for a `FileNotFoundError`. -/
def readRegular (tree : FileTree) (name : String) : Except Failure (Option Bytes) :=
  match tree.node name with
  | some (.file data) => .ok (some (data.take (MAX_FILE + 1)))
  | some .link => .error .os
  | some _ => .error (.source (.value "Not a regular transcript"))
  | none => if tree.Opens name then .ok none else .error .os

def readFile (tree : FileTree) (name : String) : Except Failure (String × Bytes) := do
  let data ← readRegular tree name >>= fromOs
  pure (name, data)

/-! ### Contracts -/

section Same

variable {F : Type} [DecidableEq F] (platform : Platform F)

def wholeNumber : Json F → Option Int
  | .bool b => some (if b then 1 else 0)
  | .int n => some n
  | _ => none

mutual

/-- `previous == target` of two contracts; a contract has a float only where it is equal to one. -/
def sameValue : Json F → Json F → Bool
  | .null, .null => true
  | .str a, .str b => a = b
  | .arr a, .arr b => sameItems a b
  | .obj a, .obj b => sameMembers a b
  | .float x, .float y => x = y
  | .float x, other => platform.isOne x && wholeNumber other = some 1
  | other, .float x => platform.isOne x && wholeNumber other = some 1
  | a, b => (wholeNumber a).isSome && wholeNumber a = wholeNumber b

def sameItems : List (Json F) → List (Json F) → Bool
  | [], [] => true
  | a :: as, b :: bs => sameValue a b && sameItems as bs
  | _, _ => false

def sameMembers : Dict F → Dict F → Bool
  | [], [] => true
  | (key, a) :: as, (key', b) :: bs => key = key' && sameValue a b && sameMembers as bs
  | _, _ => false

end

mutual

theorem sameValue_refl (value : Json F) : sameValue platform value value = true := by
  cases value with
  | arr items => exact sameItems_refl items
  | obj items => exact sameMembers_refl items
  | _ => simp [sameValue, wholeNumber]

theorem sameItems_refl (items : List (Json F)) : sameItems platform items items = true := by
  cases items with
  | nil => rfl
  | cons item rest => simp [sameItems, sameValue_refl item, sameItems_refl rest]

theorem sameMembers_refl (items : Dict F) : sameMembers platform items items = true := by
  cases items with
  | nil => rfl
  | cons item rest =>
      obtain ⟨key, value⟩ := item
      simp [sameMembers, sameValue_refl value, sameMembers_refl rest]

end

end Same

variable {F : Type} [FloatText F] (platform : Platform F)

inductive FileSystem where
  | singleFile | sourceTree | cudaManifest
  deriving DecidableEq, Repr

def FileSystem.name : FileSystem → String
  | .singleFile => "single_file"
  | .sourceTree => "source_tree"
  | .cudaManifest => "cuda_manifest"

/-- `POLICY` of a CUDA manifest. -/
def cudaPolicy : Json F := .obj [("editable_roots", .arr []), ("immutable_files", .obj []),
  ("kind", .str "agate_cuda"), ("package_root", .str "."), ("runtime_requirements", .arr [])]

def FileSystem.defaultPolicy : FileSystem → Json F
  | .cudaManifest => cudaPolicy
  | _ => .null

def parseJson (raw : Bytes) : Except Failure (Json F) :=
  match loadBytes platform.otherEncoding raw with
  | some value => .ok value
  | none => .error (.source .json)

/-- `inspect_policy`: the contract, if the format is claimed. -/
def FileSystem.inspectPolicy (tree : FileTree) : FileSystem → Except Failure (Option (Json F))
  | .singleFile => .ok (some .null)
  | .sourceTree => do
      match ← readRegular tree POLICY with
      | none => pure none
      | some raw => some <$> parseJson platform raw
  | .cudaManifest => do
      match ← readRegular tree "solution.json" with
      | none => pure none
      | some raw => do
          let names ← lift (manifest platform raw)
          pure (names.map fun _ => cudaPolicy)

def FileSystem.validatePolicy (policy : Json F) : FileSystem → Except Error Unit
  | .singleFile =>
      match policy with
      | .null => .ok ()
      | _ => .error (.value "Single-file candidates do not have a source-tree contract")
  | .sourceTree =>
      match policy with
      | .obj items => validateTreePolicy platform items
      | _ => .error (.value "Invalid source contract")
  | .cudaManifest =>
      match policy with
      | .obj items => need (isCudaPolicy items) "Invalid CUDA manifest source contract"
      | _ => .error (.value "Invalid CUDA manifest source contract")

/-- `select(json.loads(selection)['name'])` -/
def selected (raw : Bytes) : Except Failure FileSystem := do
  match ← parseJson platform raw with
  | .obj items =>
      match find? items "name" with
      | none => .error (.source (.key "name"))
      | some (.str "single_file") => pure .singleFile
      | some (.str "source_tree") => pure .sourceTree
      | some (.str "cuda_manifest") => pure .cudaManifest
      | some (.arr _) | some (.obj _) => .error (.source .type)
      | some _ => .error (.source (.value "Unknown candidate file system"))
  | _ => .error (.source .type)

/-- `resolve` -/
def resolve (tree : FileTree) : Except Failure (FileSystem × Json F) := do
  match ← readRegular tree SELECTION with
  | some raw => do
      let system ← selected platform raw
      let claimed ← system.inspectPolicy platform tree
      let contract := claimed.getD system.defaultPolicy
      lift (system.validatePolicy platform contract)
      pure (system, contract)
  | none => do
      match ← FileSystem.sourceTree.inspectPolicy platform tree with
      | some contract => do
          lift (FileSystem.sourceTree.validatePolicy platform contract)
          pure (.sourceTree, contract)
      | none => do
          match ← FileSystem.cudaManifest.inspectPolicy platform tree with
          | some contract => do
              lift (FileSystem.cudaManifest.validatePolicy platform contract)
              pure (.cudaManifest, contract)
          | none => pure (.singleFile, .null)

/-! ### Collecting -/

/-- The walk enters every directory that the path is in. -/
def Walked (name : String) : Prop := ∀ parent ∈ above name, sourceName parent = true

instance (name : String) : Decidable (Walked name) := inferInstanceAs (Decidable (∀ parent ∈ above name, _))

/-- A link where the walk comes by, outside of what is the workspace's own. -/
def FileTree.Linked (tree : FileTree) (name : String) : Prop :=
  Walked name ∧ tree.node name = some .link ∧ String.ofList ((parts name).headD []) ∉ ".git" :: WORKSPACE_ONLY

instance (tree : FileTree) (name : String) : Decidable (tree.Linked name) :=
  inferInstanceAs (Decidable (_ ∧ _ ∧ _))

/-- The source files that the walk comes by. -/
def FileTree.found (tree : FileTree) : Finset String :=
  tree.names.filter fun name => Walked name ∧ sourceName name = true ∧ tree.node name ≠ some .dir

/-- `collect` of a source tree, before the files are validated. -/
def collectTree (tree : FileTree) : Except Failure Files := do
  if ∃ name ∈ tree.names, tree.Linked name then
    .error (.source (.value "Source tree cannot contain symlinks"))
  else do
    let files ← (tree.found.sort).mapM (readFile tree)
    lift (need (files.length ≤ 4096 && total files ≤ MAX_TOTAL) "Source tree exceeds 4096 files / 64 MiB")
    pure files

/-- The files of a manifest, as it is read. -/
def collectCuda (tree : FileTree) : Except Failure Files := do
  let raw ← readFile tree "solution.json"
  match ← lift (manifest platform raw.2) with
  | none => .error (.source (.value "CUDA candidate requires solution.json"))
  | some names => ((insert "solution.json" names.toFinset).sort).mapM (readFile tree)

def FileSystem.collect (tree : FileTree) (policy : Json F) : FileSystem → Except Failure Files
  | .singleFile => do
      let file ← readFile tree "kernel.py"
      pure [file]
  | .sourceTree => do
      let files ← collectTree tree
      lift (validateFiles platform files policy)
      pure files
  | .cudaManifest => do
      let files ← collectCuda platform tree
      lift (validateCuda platform files)
      pure files

/-- `snapshot` -/
def snapshot (tree : FileTree) : Except Failure Bytes := do
  let (system, policy) ← resolve platform tree
  let files ← system.collect platform tree policy
  lift (pack platform files policy)

/-! ### Lines of JSON -/

/-- `(json.dumps(value, sort_keys=True)+'\n').encode()` -/
def jsonLine (value : Json F) : Bytes :=
  encode (String.ofList (asciiText (dumpsWith [' '] (sortKeys value)) ++ ['\n']))

theorem jsonLine_text (value : Json F) : jsonLine value =
    encode (String.ofList (asciiText (dumpsWith [' '] (sortKeys value)) ++ ['\n'])) := rfl

theorem line_narrow (value : Json F) : ∀ c ∈ asciiText (dumpsWith [' '] value) ++ ['\n'], c.toNat < 127 := by
  intro c member
  rcases List.mem_append.mp member with inside | newline
  · exact asciiText_small _ c inside
  · rw [List.mem_singleton.mp newline]
    decide

theorem line_object (first : String × Json F) (items : Dict F) :
    ∃ rest, asciiText (dumpsWith [' '] (.obj (first :: items))) ++ ['\n'] = '\x7b' :: '"' :: rest := by
  obtain ⟨key, value⟩ := first
  rw [dumpsWith, dumpsMembersWith, quoted]
  exact ⟨_, rfl⟩

/-- The line of an object, or the beginning of it, is read as text. -/
theorem loadBytes_part (other : Bytes → Option (Json F)) {first : String × Json F} {items : Dict F}
    (canonical : Canonical (.obj (first :: items))) {n : Nat} (enough : 2 ≤ n) :
    loadBytes other ((jsonLine (.obj (first :: items))).take n) =
      (loads ((asciiText (dumpsWith [' '] (.obj (first :: items))) ++ ['\n']).take n)).map sortKeys := by
  obtain ⟨rest, object⟩ := line_object first items
  obtain ⟨n, rfl⟩ : ∃ more, n = more + 2 := ⟨n - 2, by omega⟩
  rw [jsonLine_text, sortKeys_canonical _ canonical, take_narrow (line_narrow _), object, List.take_succ_cons,
    List.take_succ_cons]
  unfold loadBytes
  rw [detectsUtf8_object, if_pos rfl, decode_encode]
  simp only [String.toList_ofList]

theorem loadBytes_line (other : Bytes → Option (Json F)) {first : String × Json F} {items : Dict F}
    (canonical : Canonical (.obj (first :: items))) {n : Nat}
    (whole : (jsonLine (.obj (first :: items))).length ≤ n) :
    loadBytes other ((jsonLine (.obj (first :: items))).take n) = some (.obj (first :: items)) := by
  have text := line_narrow (.obj (first :: items) : Json F)
  have size : (jsonLine (.obj (first :: items))).length =
      (asciiText (dumpsWith [' '] (.obj (first :: items))) ++ ['\n']).length := by
    rw [jsonLine_text, sortKeys_canonical _ canonical, length_narrow text]
  obtain ⟨rest, object⟩ := line_object first items
  have enough : 2 ≤ n := by
    rw [size, object] at whole
    simp only [List.length_cons] at whole
    omega
  rw [loadBytes_part other canonical enough, List.take_of_length_le (size ▸ whole),
    loads_asciiLine (each_of_all (by decide)) _ (canonical_distinct _ canonical), Option.map_some,
    sortKeys_canonical _ canonical]

theorem loadBytes_canonical {data : Bytes} {value : Json F} (loaded : loadBytes (fun _ => none) data = some value) :
    Canonical value := by
  unfold loadBytes at loaded
  split at loaded
  · split at loaded
    · obtain ⟨read, here, rfl⟩ := Option.map_eq_some_iff.mp loaded
      exact canonical_sortKeys read (loads_distinct _ read here)
    · cases loaded
  · cases loaded

omit [FloatText F] in
theorem encodeFiles_keys {texts : Dict F} {files : Files} (encoded : encodeFiles texts = .ok files) :
    files.map Prod.fst = texts.map Prod.fst := by
  induction texts generalizing files with
  | nil =>
      cases encoded
      rfl
  | cons item rest ih =>
      obtain ⟨name, value⟩ := item
      cases value with
      | str text =>
          rw [encodeFiles] at encoded
          obtain ⟨files', later, same⟩ := (bind_ok_iff _ _ _).mp encoded
          cases same
          rw [List.map_cons, List.map_cons, ih later]
      | _ => cases encoded

/-- What an accepted snapshot holds. -/
theorem unpack_ok {source : Bytes} {policy : Json F} {files : Files}
    (accepted : unpack platform source = .ok (policy, files)) :
    validateFiles platform files policy = .ok () ∧ Canonical policy ∧ (files.map Prod.fst).Pairwise (· < ·) ∧
      (policy ≠ .null → source.length ≤ MAX_SNAPSHOT) := by
  have packed := pack_unpack accepted
  have valid : validateFiles platform files policy = .ok () := by
    obtain ⟨⟨⟩, valid, -⟩ := (bind_ok_iff _ _ _).mp packed
    exact valid
  refine ⟨valid, ?_⟩
  unfold unpack at accepted
  split at accepted
  · cases accepted
    exact ⟨trivial, List.pairwise_singleton _ _, fun tree => absurd rfl tree⟩
  · split at accepted
    · cases accepted
    · rename_i fits
      split at accepted
      · cases accepted
      · rename_i value read
        obtain ⟨items, object, accepted⟩ := (bind_ok_iff _ _ _).mp accepted
        obtain ⟨texts, held, accepted⟩ := (bind_ok_iff _ _ _).mp accepted
        obtain ⟨files', encoded, accepted⟩ := (bind_ok_iff _ _ _).mp accepted
        obtain ⟨policy', contract, accepted⟩ := (bind_ok_iff _ _ _).mp accepted
        obtain ⟨_, -, accepted⟩ := (bind_ok_iff _ _ _).mp accepted
        obtain ⟨_, -, accepted⟩ := (bind_ok_iff _ _ _).mp accepted
        obtain ⟨dict, found, same⟩ := (bind_ok_iff _ _ _).mp held
        split at accepted
        · cases accepted
        · cases accepted
          have whole := loadBytes_canonical read
          rw [asDict_ok.mp object] at whole
          have sorted := canonical_get whole.2 (item_ok.mp found)
          rw [asDict_ok.mp same] at sorted
          refine ⟨canonical_get whole.2 (item_ok.mp contract), ?_, fun _ => Nat.le_of_not_lt fits⟩
          rw [encodeFiles_keys encoded]
          exact sorted.1

/-- A tree that is packed is read back, where its bytes are not too many. -/
theorem unpack_packed {source : Bytes} {policy : Json F} {files : Files} (tree : policy ≠ .null)
    (canonical : Canonical policy) (sorted : (files.map Prod.fst).Pairwise (· < ·))
    (packed : pack platform files policy = .ok source) (fits : source.length ≤ MAX_SNAPSHOT) :
    unpack platform source = .ok (policy, files) := by
  obtain ⟨valid, texts, decoded, rfl⟩ := (pack_tree tree).mp packed
  exact unpack_tree tree canonical sorted valid decoded fits

/-! ### Installing -/

variable [DecidableEq F]

/-- `for_policy` -/
def forPolicy (policy : Json F) : Except Error FileSystem :=
  match policy with
  | .null => .ok .singleFile
  | .obj items => if isStr "agate_cuda" (get items "kind") then .ok .cudaManifest else .ok .sourceTree
  | _ => .error (.value "Invalid source contract")

def FileSystem.validateRestore (previous target : Json F) : FileSystem → Except Error Unit
  | .sourceTree => need (sameValue platform previous target) "Source contract cannot change within a Campaign"
  | _ => .ok ()

/-- The names of the files that an installed content has. -/
def FileSystem.obsolete (tree : FileTree) : FileSystem → Except Failure (List String)
  | .singleFile => .ok ["kernel.py"]
  | .sourceTree => do
      let files ← collectTree tree
      pure (files.map Prod.fst)
  | .cudaManifest => do
      match ← readRegular tree "solution.json" with
      | none => pure []
      | some raw => do
          match ← lift (manifest platform raw) with
          | none => pure []
          | some names => pure ("solution.json" :: names)

/-- `(workspace/'kernel.py').unlink(missing_ok=True)` -/
def unlinkKernel (tree : FileTree) : Option FileTree :=
  if free : tree.node "kernel.py" ≠ some .dir then some (tree.set "kernel.py" none free) else none

def FileSystem.install (tree : FileTree) (files : Files) (policy : Json F) : FileSystem → Option FileTree
  | .singleFile => (files.get? "kernel.py").bind (tree.publish "kernel.py")
  | .sourceTree => tree.publishAll (files ++ [(POLICY, jsonLine policy)])
  | .cudaManifest => (unlinkKernel tree).bind fun tree => tree.publishAll files

/-- What the earlier content of a workspace has that a snapshot for this contract may replace. -/
def earlierNames (tree : FileTree) (policy : Json F) : Except Failure (List String) := do
  let (previous, previousPolicy) ← resolve platform tree
  lift (previous.validateRestore platform previousPolicy policy)
  previous.obsolete platform tree

def removable (tree : FileTree) (policy : Json F) : Except Failure (List String) :=
  match earlierNames platform tree policy with
  | .ok names => .ok names
  | .error (.source error) =>
      if error.isValue && (tree.node POLICY).isNone then .ok [] else .error (.source error)
  | .error .os => .error .os

/-- What is written to name a format: `{'name':system.name}` -/
def FileSystem.selection (chosen : FileSystem) : Json F := .obj [("name", .str chosen.name)]

/-- The selection is written where it is asked for, or is a file already. -/
def recordSelection (tree : FileTree) (line : Bytes) (bind : Bool) : Option FileTree :=
  let isFile := match tree.node SELECTION with
    | some (.file _) => true
    | _ => false
  if bind || isFile then tree.publish SELECTION line else some tree

/-- `install` -/
def install (tree : FileTree) (source : Bytes) (replace bind : Bool) : Except Failure FileTree := do
  let (policy, files) ← lift (unpack platform source)
  let chosen ← lift (forPolicy policy)
  let obsolete ← removable platform tree policy
  let tree ← if replace then
      fromOs (tree.removeAll (obsolete.dedup.filter fun name => name ∉ files.map Prod.fst))
    else pure tree
  let tree ← fromOs (chosen.install tree files policy)
  fromOs (recordSelection tree (jsonLine (chosen.selection : Json F)) bind)

/-! ### What an installed snapshot is -/

/-- A workspace whose content is a valid snapshot for a contract. -/
structure Holds (tree : FileTree) (chosen : FileSystem) (policy : Json F) (earlier : Files) : Prop where
  resolved : resolve platform tree = .ok (chosen, policy)
  collected : chosen.collect platform tree policy = .ok earlier
  packs : ∃ before, pack platform earlier policy = .ok before

/-- Installing a snapshot succeeds, the workspace then is that snapshot, and no other file of the earlier content
is left. -/
def Reproduces (tree : FileTree) (source : Bytes) (bind : Bool) (earlier files : Files) : Prop :=
  ∃ after, install platform tree source true bind = .ok after ∧ snapshot platform after = .ok source ∧
    ∀ name ∈ earlier.map Prod.fst, name ∉ files.map Prod.fst → ∀ data, after.node name ≠ some (.file data)

/-- Every file has a place: no directory is there, and what its directories are now is a directory, nothing, or a
file that is removed. -/
def Placed (tree : FileTree) (chosen : FileSystem) (earlier files : Files) : Prop :=
  (∀ name ∈ files.map Prod.fst, tree.node name ≠ some .dir ∧ ∀ parent ∈ above name,
    parent ∉ files.map Prod.fst ∧ (tree.node parent = none ∨ tree.node parent = some .dir ∨
      parent ∈ earlier.map Prod.fst ∨ chosen = .cudaManifest ∧ parent = "kernel.py")) ∧
  (chosen = .cudaManifest → tree.node "kernel.py" ≠ some .dir)

/-- The files have their places, the walk for the snapshot comes by, and what is read back is whole. -/
structure Installable (tree : FileTree) (chosen : FileSystem) (policy : Json F) (earlier files : Files) : Prop where
  placed : Placed tree chosen earlier files
  walked : chosen = .sourceTree → ∀ name ∈ files.map Prod.fst, Walked name
  metadata : chosen = .sourceTree → parseJson platform ((jsonLine policy).take (MAX_FILE + 1)) = .ok policy
  short : chosen = .singleFile → ∀ file ∈ files, file.2.length ≤ MAX_FILE + 1

/-! ### The format of a workspace -/

/-- How the format of a workspace is found. -/
inductive Found (tree : FileTree) : FileSystem → Json F → Prop where
  | selected {chosen : FileSystem} {raw : Bytes} {claimed : Option (Json F)}
      (here : readRegular tree SELECTION = .ok (some raw)) (named : selected platform raw = .ok chosen)
      (inspected : chosen.inspectPolicy platform tree = .ok claimed)
      (valid : chosen.validatePolicy platform (claimed.getD chosen.defaultPolicy) = .ok ()) :
      Found tree chosen (claimed.getD chosen.defaultPolicy)
  | tree {policy : Json F} (absent : readRegular tree SELECTION = .ok none)
      (inspected : FileSystem.sourceTree.inspectPolicy platform tree = .ok (some policy))
      (valid : FileSystem.sourceTree.validatePolicy platform policy = .ok ()) : Found tree .sourceTree policy
  | cuda {policy : Json F} (absent : readRegular tree SELECTION = .ok none)
      (no_tree : FileSystem.sourceTree.inspectPolicy platform tree = .ok none)
      (inspected : FileSystem.cudaManifest.inspectPolicy platform tree = .ok (some policy))
      (valid : FileSystem.cudaManifest.validatePolicy platform policy = .ok ()) : Found tree .cudaManifest policy
  | single (absent : readRegular tree SELECTION = .ok none)
      (no_tree : FileSystem.sourceTree.inspectPolicy platform tree = .ok none)
      (no_cuda : FileSystem.cudaManifest.inspectPolicy platform tree = .ok none) : Found tree .singleFile .null

omit [DecidableEq F] in
theorem resolve_iff {tree : FileTree} {chosen : FileSystem} {policy : Json F} :
    resolve platform tree = .ok (chosen, policy) ↔ Found platform tree chosen policy := by
  constructor
  · intro resolved
    unfold resolve at resolved
    obtain ⟨selection, here, resolved⟩ := (bind_ok_iff _ _ _).mp resolved
    cases selection with
    | some raw =>
        obtain ⟨chosen', named, resolved⟩ := (bind_ok_iff _ _ _).mp resolved
        obtain ⟨claimed, inspected, resolved⟩ := (bind_ok_iff _ _ _).mp resolved
        obtain ⟨⟨⟩, valid, resolved⟩ := (bind_ok_iff _ _ _).mp resolved
        cases resolved
        exact .selected here named inspected (lift_ok.mp valid)
    | none =>
        obtain ⟨claimed, inspected, resolved⟩ := (bind_ok_iff _ _ _).mp resolved
        cases claimed with
        | some policy' =>
            obtain ⟨⟨⟩, valid, resolved⟩ := (bind_ok_iff _ _ _).mp resolved
            cases resolved
            exact .tree here inspected (lift_ok.mp valid)
        | none =>
            obtain ⟨claimed, inspected', resolved⟩ := (bind_ok_iff _ _ _).mp resolved
            cases claimed with
            | some policy' =>
                obtain ⟨⟨⟩, valid, resolved⟩ := (bind_ok_iff _ _ _).mp resolved
                cases resolved
                exact .cuda here inspected inspected' (lift_ok.mp valid)
            | none =>
                cases resolved
                exact .single here inspected inspected'
  · intro found
    cases found with
    | selected here named inspected valid =>
        simp [resolve, here, named, inspected, valid, lift, bind, Except.bind, pure, Except.pure]
    | tree absent inspected valid =>
        simp [resolve, absent, inspected, valid, lift, bind, Except.bind, pure, Except.pure]
    | cuda absent no_tree inspected valid =>
        simp [resolve, absent, no_tree, inspected, valid, lift, bind, Except.bind, pure, Except.pure]
    | single absent no_tree no_cuda =>
        simp [resolve, absent, no_tree, no_cuda, bind, Except.bind, pure, Except.pure]

variable {platform} {tree : FileTree} {chosen : FileSystem} {policy : Json F}

omit [DecidableEq F] in
theorem Found.valid (found : Found platform tree chosen policy) :
    chosen.validatePolicy platform policy = .ok () := by
  cases found with
  | selected _ _ _ valid => exact valid
  | tree _ _ valid => exact valid
  | cuda _ _ _ valid => exact valid
  | single => rfl

omit [FloatText F] [DecidableEq F] in
theorem sameKeys_get {items : Dict F} {names : List String} {key : String} (same : sameKeys items names = true)
    (absent : key ∉ names) : get items key = .null := by
  have missing : find? items key = none := by
    rw [find?_eq_none]
    intro item member here
    have known := List.all_eq_true.mp (Bool.and_eq_true _ _ ▸ same).1 item member
    exact absent (here ▸ List.contains_iff_mem.mp known)
  rw [Json.get, missing]
  rfl

omit [FloatText F] [DecidableEq F] in
/-- A contract is one of the format that was found. -/
theorem valid_forPolicy (valid : chosen.validatePolicy platform policy = .ok ()) :
    forPolicy policy = .ok chosen := by
  cases chosen with
  | singleFile =>
      cases policy with
      | null => rfl
      | _ => cases valid
  | sourceTree =>
      cases policy with
      | obj items =>
          have valid : validateTreePolicy platform items = .ok () := valid
          unfold validateTreePolicy at valid
          obtain ⟨_, fields, -⟩ := (bind_ok_iff _ _ _).mp valid
          have same : sameKeys items POLICY_FIELDS = true := (Bool.and_eq_true _ _ ▸ need_ok.mp fields).1
          rw [forPolicy, sameKeys_get same (by decide)]
          rfl
      | _ => cases valid
  | cudaManifest =>
      cases policy with
      | obj items =>
          have valid : need (isCudaPolicy items) "Invalid CUDA manifest source contract" = .ok () := valid
          have cuda := need_ok.mp valid
          have kind : isStr "agate_cuda" (get items "kind") = true := by
            simp only [isCudaPolicy, Bool.and_eq_true] at cuda
            have kind := cuda.1.1.1.1.2
            cases here : get items "kind" <;> simp_all [isStr]
          rw [forPolicy, kind]
          rfl
      | _ => cases valid

/-! ### The earlier content -/

/-- A file is read from the tree. -/
def ReadFrom (tree : FileTree) (file : String × Bytes) : Prop :=
  ∃ whole, tree.node file.1 = some (.file whole) ∧ file.2 = whole.take (MAX_FILE + 1)

theorem readRegular_file {name : String} {data : Bytes} : readRegular tree name = .ok (some data) ↔
    ReadFrom tree (name, data) := by
  unfold readRegular ReadFrom
  constructor
  · intro read
    split at read
    · rename_i whole here
      cases read
      exact ⟨whole, here, rfl⟩
    · cases read
    · cases read
    · split at read <;> cases read
  · rintro ⟨whole, here, rfl⟩
    simp [here]

theorem readFile_ok {name : String} {file : String × Bytes} : readFile tree name = .ok file ↔
    file.1 = name ∧ ReadFrom tree file := by
  rw [readFile, bind_ok_iff]
  constructor
  · rintro ⟨data, read, same⟩
    obtain ⟨found, regular, some⟩ := (bind_ok_iff _ _ _).mp read
    cases same
    rw [fromOs_ok] at some
    subst some
    exact ⟨rfl, readRegular_file.mp regular⟩
  · rintro ⟨rfl, from_tree⟩
    refine ⟨file.2, ?_, rfl⟩
    rw [readRegular_file.mpr from_tree]
    rfl

theorem readFiles_iff {names : List String} {files : Files} : names.mapM (readFile tree) = .ok files ↔
    files.map Prod.fst = names ∧ ∀ file ∈ files, ReadFrom tree file := by
  rw [mapM_ok_iff]
  constructor
  · intro read
    induction read with
    | nil => simp
    | cons first _ ih =>
        obtain ⟨here, from_tree⟩ := readFile_ok.mp first
        simp [here, from_tree, ih.1]
        exact fun name data member => ih.2 (name, data) member
  · rintro ⟨rfl, all⟩
    rw [List.forall₂_map_left_iff, List.forall₂_same]
    exact fun file member => readFile_ok.mpr ⟨rfl, all file member⟩

theorem collectTree_iff {files : Files} : collectTree tree = .ok files ↔
    (∀ name ∈ tree.names, ¬ tree.Linked name) ∧ files.map Prod.fst = tree.found.sort ∧
      (∀ file ∈ files, ReadFrom tree file) ∧ files.length ≤ 4096 ∧ total files ≤ MAX_TOTAL := by
  unfold collectTree
  split
  · rename_i linked
    simp only [reduceCtorEq, false_iff, not_and]
    intro unlinked
    obtain ⟨name, member, here⟩ := linked
    exact absurd here (unlinked name member)
  · rename_i unlinked
    push Not at unlinked
    rw [bind_ok_iff]
    constructor
    · rintro ⟨found, read, checked⟩
      obtain ⟨⟨⟩, small, same⟩ := (bind_ok_iff _ _ _).mp checked
      cases same
      have small := need_ok.mp (lift_ok.mp small)
      simp only [Bool.and_eq_true, decide_eq_true_eq] at small
      obtain ⟨names, from_tree⟩ := readFiles_iff.mp read
      exact ⟨unlinked, names, from_tree, small⟩
    · rintro ⟨-, names, from_tree, count, size⟩
      refine ⟨files, readFiles_iff.mpr ⟨names, from_tree⟩, ?_⟩
      simp [need, count, size, lift, bind, Except.bind, pure, Except.pure]

omit [DecidableEq F] in
theorem collectCuda_iff {files : Files} : collectCuda platform tree = .ok files ↔
    ∃ raw names, ReadFrom tree ("solution.json", raw) ∧ manifest platform raw = .ok (some names) ∧
      files.map Prod.fst = (insert "solution.json" names.toFinset).sort ∧ ∀ file ∈ files, ReadFrom tree file := by
  unfold collectCuda
  rw [bind_ok_iff]
  constructor
  · rintro ⟨⟨name, raw⟩, solution, read⟩
    obtain ⟨rfl, solution⟩ := readFile_ok.mp solution
    obtain ⟨listed, named, read⟩ := (bind_ok_iff _ _ _).mp read
    cases listed with
    | none => cases read
    | some names => exact ⟨raw, names, solution, lift_ok.mp named, readFiles_iff.mp read⟩
  · rintro ⟨raw, names, solution, named, read⟩
    refine ⟨("solution.json", raw), readFile_ok.mpr ⟨rfl, solution⟩, ?_⟩
    simp only [named, lift]
    exact readFiles_iff.mpr read

variable {earlier : Files}

omit [DecidableEq F] in
theorem collect_files (collected : chosen.collect platform tree policy = .ok earlier) :
    ∀ file ∈ earlier, ReadFrom tree file := by
  cases chosen with
  | singleFile =>
      obtain ⟨file, read, same⟩ := (bind_ok_iff _ _ _).mp collected
      cases same
      intro other member
      rw [List.mem_singleton.mp member]
      exact (readFile_ok.mp read).2
  | sourceTree =>
      obtain ⟨files, read, checked⟩ := (bind_ok_iff _ _ _).mp collected
      obtain ⟨_, -, same⟩ := (bind_ok_iff _ _ _).mp checked
      cases same
      exact (collectTree_iff.mp read).2.2.1
  | cudaManifest =>
      obtain ⟨files, read, checked⟩ := (bind_ok_iff _ _ _).mp collected
      obtain ⟨_, -, same⟩ := (bind_ok_iff _ _ _).mp checked
      cases same
      obtain ⟨_, _, _, _, _, read⟩ := collectCuda_iff.mp read
      exact read

omit [DecidableEq F] in
/-- What may be removed is what was collected. -/
theorem obsolete_ok (collected : chosen.collect platform tree policy = .ok earlier) :
    ∃ names, chosen.obsolete platform tree = .ok names ∧ ∀ name, name ∈ names ↔ name ∈ earlier.map Prod.fst := by
  cases chosen with
  | singleFile =>
      obtain ⟨file, read, same⟩ := (bind_ok_iff _ _ _).mp collected
      cases same
      exact ⟨_, rfl, by simp [(readFile_ok.mp read).1]⟩
  | sourceTree =>
      obtain ⟨files, read, checked⟩ := (bind_ok_iff _ _ _).mp collected
      obtain ⟨_, -, same⟩ := (bind_ok_iff _ _ _).mp checked
      cases same
      refine ⟨earlier.map Prod.fst, ?_, fun _ => Iff.rfl⟩
      simp [FileSystem.obsolete, read, bind, Except.bind, pure, Except.pure]
  | cudaManifest =>
      obtain ⟨files, read, checked⟩ := (bind_ok_iff _ _ _).mp collected
      obtain ⟨_, -, same⟩ := (bind_ok_iff _ _ _).mp checked
      cases same
      obtain ⟨raw, names, solution, named, listed, _⟩ := collectCuda_iff.mp read
      refine ⟨"solution.json" :: names, ?_, fun name => ?_⟩
      · simp [FileSystem.obsolete, readRegular_file.mpr solution, named, lift, bind, Except.bind, pure, Except.pure]
      · rw [listed]
        simp

theorem removable_ok (holds : Holds platform tree chosen policy earlier) : ∃ names,
    removable platform tree policy = .ok names ∧ ∀ name, name ∈ names ↔ name ∈ earlier.map Prod.fst := by
  obtain ⟨names, obsolete, same⟩ := obsolete_ok holds.collected
  have restores : chosen.validateRestore platform policy policy = .ok () := by
    cases chosen with
    | sourceTree => exact need_ok.mpr (sameValue_refl platform policy)
    | _ => rfl
  refine ⟨names, ?_, same⟩
  simp [removable, earlierNames, holds.resolved, restores, obsolete, lift, bind, Except.bind]

variable {source : Bytes} {files : Files}

/-- The earlier files are removed, and what is left is as it was. -/
theorem install_cleared (holds : Holds platform tree chosen policy earlier)
    (accepted : unpack platform source = .ok (policy, files)) : ∃ cleared : FileTree,
      (∀ n, cleared.node n = if n ∈ earlier.map Prod.fst ∧ n ∉ files.map Prod.fst then none else tree.node n) ∧
      ∀ bind, install platform tree source true bind = fromOs ((chosen.install cleared files policy).bind fun tree =>
        recordSelection tree (jsonLine (chosen.selection : Json F)) bind) := by
  obtain ⟨names, removes, same⟩ := removable_ok holds
  have member (name : String) : name ∈ names.dedup.filter (fun name => name ∉ files.map Prod.fst) ↔
      name ∈ earlier.map Prod.fst ∧ name ∉ files.map Prod.fst := by
    simp [same]
  have held : ∀ name ∈ names.dedup.filter (fun name => name ∉ files.map Prod.fst), ∃ data,
      tree.node name = some (.file data) := by
    intro name inside
    obtain ⟨file, present, rfl⟩ := List.mem_map.mp ((member name).mp inside).1
    obtain ⟨whole, here, -⟩ := collect_files holds.collected file present
    exact ⟨whole, here⟩
  obtain ⟨cleared, removed, nodes⟩ := FileTree.removeAll_files ((List.nodup_dedup names).filter _) held
  refine ⟨cleared, fun n => ?_, fun bind => ?_⟩
  · rw [nodes]
    by_cases here : n ∈ earlier.map Prod.fst ∧ n ∉ files.map Prod.fst
    · rw [if_pos ((member n).mpr here), if_pos here]
    · rw [if_neg (fun inside => here ((member n).mp inside)), if_neg here]
  · have chooses := valid_forPolicy ((resolve_iff platform).mp holds.resolved).valid
    unfold install
    simp only [accepted, chooses, removes, lift, ite_true, removed, fromOs, Bind.bind, Except.bind]
    cases chosen.install cleared files policy <;> rfl

/-! ### Where files are put -/

theorem above_kernel : above "kernel.py" = [] := by decide

theorem above_policy : above POLICY = [] := by decide

theorem above_selection : above SELECTION = [] := by decide

theorem above_solution : above "solution.json" = [] := by decide

theorem head_above {name parent : String} (lies : parent ∈ above name) :
    (parts parent).headD [] = (parts name).headD [] := by
  obtain ⟨more, longer⟩ := (mem_above.mp lies).1
  obtain ⟨first, rest, split⟩ := List.exists_cons_of_ne_nil (parts_ne_nil parent)
  rw [← longer, split]
  rfl

/-- What is the workspace's own is no source file, and is above none. -/
theorem reserved_apart {name reserved : String} (source : sourceName name = true)
    (own : WORKSPACE_ONLY.contains (String.ofList ((parts reserved).headD [])) = true) :
    name ≠ reserved ∧ reserved ∉ above name := by
  have outside : WORKSPACE_ONLY.contains (String.ofList ((parts name).headD [])) = false := by
    simp only [sourceName, Bool.not_eq_true', Bool.or_eq_false_iff] at source
    exact source.1
  constructor
  · rintro rfl
    rw [own] at outside
    cases outside
  · intro lies
    rw [← head_above lies, own] at outside
    cases outside

/-- The name of a file that a snapshot may have. -/
def Named (name : String) : Prop := sourceName name = true ∨ name = "solution.json"

theorem named_apart {name reserved : String} (named : Named name) (own : reserved = POLICY ∨ reserved = SELECTION) :
    name ≠ reserved ∧ reserved ∉ above name := by
  rcases named with source | rfl
  · refine reserved_apart source ?_
    rcases own with rfl | rfl <;> decide
  · rw [above_solution]
    rcases own with rfl | rfl <;> decide

omit [FloatText F] [DecidableEq F] in
theorem checkFiles_ok {fixed items : Dict F} {root : String} {files : Files}
    (checked : checkFiles platform items fixed root files = .ok ()) :
    ∀ file ∈ files, sourceName file.1 = true ∧ file.2.length ≤ MAX_FILE := by
  induction files with
  | nil => simp
  | cons file rest ih =>
      rw [checkFiles] at checked
      obtain ⟨⟨⟩, first, later⟩ := (bind_ok_iff _ _ _).mp checked
      unfold checkFile at first
      obtain ⟨_, -, first⟩ := (bind_ok_iff _ _ _).mp first
      obtain ⟨_, source, first⟩ := (bind_ok_iff _ _ _).mp first
      obtain ⟨_, small, -⟩ := (bind_ok_iff _ _ _).mp first
      intro other member
      rcases List.mem_cons.mp member with rfl | member
      · exact ⟨need_ok.mp source, of_decide_eq_true (need_ok.mp small)⟩
      · exact ih later other member

omit [FloatText F] [DecidableEq F] in
theorem validateTree_ok {items : Dict F} (valid : validateTree platform files items = .ok ()) :
    files.length ≤ 4096 ∧ total files ≤ MAX_TOTAL ∧
      ∀ file ∈ files, sourceName file.1 = true ∧ file.2.length ≤ MAX_FILE := by
  unfold validateTree at valid
  obtain ⟨_, -, valid⟩ := (bind_ok_iff _ _ _).mp valid
  obtain ⟨_, -, valid⟩ := (bind_ok_iff _ _ _).mp valid
  obtain ⟨_, bounded, valid⟩ := (bind_ok_iff _ _ _).mp valid
  obtain ⟨_, -, valid⟩ := (bind_ok_iff _ _ _).mp valid
  obtain ⟨_, -, valid⟩ := (bind_ok_iff _ _ _).mp valid
  obtain ⟨⟨⟩, checked, -⟩ := (bind_ok_iff _ _ _).mp valid
  have bounded := need_ok.mp bounded
  simp only [Bool.and_eq_true, decide_eq_true_eq] at bounded
  exact ⟨bounded.1, bounded.2, checkFiles_ok checked⟩

omit [FloatText F] [DecidableEq F] in
theorem checkNames_named {names : List String} (checked : checkNames (F := F) names = .ok ()) :
    ∀ name ∈ names, sourceName name = true ∧ name ≠ "kernel.py" := by
  induction names with
  | nil => simp
  | cons name rest ih =>
      rw [checkNames] at checked
      obtain ⟨checked_name, relative, checked⟩ := (bind_ok_iff _ _ _).mp checked
      obtain ⟨_, source, later⟩ := (bind_ok_iff _ _ _).mp checked
      have same : checked_name = name := by
        unfold Sources.relative at relative
        simp only [Bool.false_and, Bool.false_eq_true, ite_false] at relative
        split at relative
        · exact (Except.ok.inj relative).symm
        · cases relative
      subst same
      have source := need_ok.mp source
      simp only [Bool.and_eq_true] at source
      intro other member
      rcases List.mem_cons.mp member with rfl | member
      · refine ⟨source.1.1, ?_⟩
        rintro rfl
        exact absurd source.1.2 (by decide)
      · exact ih later other member

omit [DecidableEq F] in
theorem manifest_named {raw : Bytes} {names : List String} (read : manifest platform raw = .ok (some names)) :
    ∀ name ∈ names, sourceName name = true ∧ name ≠ "kernel.py" := by
  unfold manifest at read
  split at read
  · cases read
  · split at read
    · cases read
    · obtain ⟨_, -, read⟩ := (bind_ok_iff _ _ _).mp read
      obtain ⟨_, -, read⟩ := (bind_ok_iff _ _ _).mp read
      obtain ⟨_, -, read⟩ := (bind_ok_iff _ _ _).mp read
      obtain ⟨_, -, read⟩ := (bind_ok_iff _ _ _).mp read
      have refused {names : List String} {more : Dict F → Except Error (Option (List String))} :
          (Except.error (Error.value editableManifest) >>= more) ≠ .ok (some names) := fun read => by cases read
      dsimp only at read
      split at read
      · split at read
        · obtain ⟨fields, same, read⟩ := (bind_ok_iff _ _ _).mp read
          cases same
          split at read
          · cases read
          · obtain ⟨_, -, read⟩ := (bind_ok_iff _ _ _).mp read
            obtain ⟨⟨⟩, checked, read⟩ := (bind_ok_iff _ _ _).mp read
            obtain ⟨_, -, read⟩ := (bind_ok_iff _ _ _).mp read
            cases read
            exact checkNames_named checked
        · exact absurd read refused
      · exact absurd read refused
  · cases read

omit [FloatText F] [DecidableEq F] in
theorem checkSizes_ok {files : Files} (checked : checkSizes files = .ok ()) : ∀ file ∈ files, file.2.length ≤ MAX_FILE := by
  induction files with
  | nil => simp
  | cons file rest ih =>
      rw [checkSizes] at checked
      obtain ⟨_, small, checked⟩ := (bind_ok_iff _ _ _).mp checked
      have later : checkSizes rest = .ok () := by
        dsimp only at checked
        split at checked
        · cases checked
        · exact checked
      intro other member
      rcases List.mem_cons.mp member with rfl | member
      · exact of_decide_eq_true (need_ok.mp small)
      · exact ih later other member

omit [FloatText F] [DecidableEq F] in
theorem get?_isSome {files : Files} {name : String} : (files.get? name).isSome = true ↔ name ∈ files.map Prod.fst := by
  simp [Files.get?]

omit [FloatText F] [DecidableEq F] in
theorem get?_mem {files : Files} {name : String} {data : Bytes} (found : files.get? name = some data) :
    (name, data) ∈ files := by
  obtain ⟨⟨other, data'⟩, here, rfl⟩ := Option.map_eq_some_iff.mp found
  have same : other = name := by simpa using List.find?_some here
  exact same ▸ List.mem_of_find?_eq_some here

omit [DecidableEq F] in
/-- A native snapshot is its manifest with the files that it names. -/
theorem validateCuda_ok (valid : validateCuda platform files = .ok ()) : ∃ raw names,
    ("solution.json", raw) ∈ files ∧ manifest platform raw = .ok (some names) ∧
      (∀ name, name ∈ files.map Prod.fst ↔ name = "solution.json" ∨ name ∈ names) ∧
      ∀ file ∈ files, file.2.length ≤ MAX_FILE := by
  unfold validateCuda at valid
  split at valid
  · cases valid
  · rename_i raw solution
    obtain ⟨names, read, valid⟩ := (bind_ok_iff _ _ _).mp valid
    obtain ⟨_, listed, valid⟩ := (bind_ok_iff _ _ _).mp valid
    obtain ⟨_, -, sizes⟩ := (bind_ok_iff _ _ _).mp valid
    have listed := need_ok.mp listed
    simp only [Bool.and_eq_true, List.all_eq_true] at listed
    obtain ⟨⟨some_name, known⟩, present⟩ := listed
    cases names with
    | none => cases some_name
    | some names =>
        refine ⟨raw, names, get?_mem solution, read, fun name => ⟨fun member => ?_, fun listed => ?_⟩, checkSizes_ok sizes⟩
        · obtain ⟨file, inside, rfl⟩ := List.mem_map.mp member
          exact List.mem_cons.mp (List.contains_iff_mem.mp (known file inside))
        · exact get?_isSome.mp (present name (List.mem_cons.mpr listed))

omit [DecidableEq F] in
theorem validateCuda_named (valid : validateCuda platform files = .ok ()) :
    ∀ name ∈ files.map Prod.fst, Named name ∧ name ≠ "kernel.py" := by
  obtain ⟨raw, names, -, read, same, -⟩ := validateCuda_ok valid
  intro name member
  rcases (same name).mp member with rfl | known
  · exact ⟨.inr rfl, by decide⟩
  · have source := manifest_named read _ known
    exact ⟨.inl source.1, source.2⟩

omit [DecidableEq F] in
theorem validateFiles_cuda {items : Dict F} (cuda : isStr "agate_cuda" (get items "kind") = true)
    (valid : validateFiles platform files (.obj items) = .ok ()) : validateCuda platform files = .ok () := by
  simp only [validateFiles, cuda, ite_true] at valid
  obtain ⟨_, -, valid⟩ := (bind_ok_iff _ _ _).mp valid
  exact valid

omit [DecidableEq F] in
theorem validateFiles_named (valid : validateFiles platform files policy = .ok ()) :
    ∀ name ∈ files.map Prod.fst, Named name := by
  cases policy with
  | null =>
      have only : files.map Prod.fst = ["kernel.py"] := of_decide_eq_true (need_ok.mp valid)
      rw [only]
      intro name member
      rw [List.mem_singleton.mp member]
      exact .inl (by decide)
  | obj items =>
      by_cases cuda : isStr "agate_cuda" (get items "kind") = true
      · exact fun name member => (validateCuda_named (validateFiles_cuda cuda valid) name member).1
      · rw [validateFiles, if_neg cuda] at valid
        intro name member
        obtain ⟨file, inside, rfl⟩ := List.mem_map.mp member
        exact .inl ((validateTree_ok valid).2.2 file inside).1
  | _ => cases valid

omit [FloatText F] [DecidableEq F] in
/-- The formats of a contract, with what a valid content of each is. -/
theorem forPolicy_cases (chooses : forPolicy policy = .ok chosen) :
    chosen = .singleFile ∧ policy = .null ∨
      (∃ items, policy = .obj items) ∧ (chosen = .sourceTree ∨ chosen = .cudaManifest) := by
  unfold forPolicy at chooses
  split at chooses
  · cases chooses
    exact .inl ⟨rfl, rfl⟩
  · split at chooses <;> cases chooses
    · exact .inr ⟨⟨_, rfl⟩, .inr rfl⟩
    · exact .inr ⟨⟨_, rfl⟩, .inl rfl⟩
  · cases chooses

omit [DecidableEq F] in
theorem single_files (chooses : forPolicy policy = .ok .singleFile) (valid : validateFiles platform files policy = .ok ()) :
    ∃ data, files = [("kernel.py", data)] := by
  rcases forPolicy_cases chooses with ⟨-, rfl⟩ | ⟨-, other | other⟩
  · have only : files.map Prod.fst = ["kernel.py"] := of_decide_eq_true (need_ok.mp valid)
    match files with
    | [] => cases only
    | [(name, data)] =>
        rw [List.map_singleton, List.singleton_inj] at only
        exact ⟨data, by rw [show name = "kernel.py" from only]⟩
    | _ :: _ :: _ => cases (List.cons.inj only).2
  · cases other
  · cases other

omit [DecidableEq F] in
theorem tree_valid (chooses : forPolicy policy = .ok .sourceTree) (valid : validateFiles platform files policy = .ok ()) :
    ∃ items, policy = .obj items ∧ validateTree platform files items = .ok () := by
  unfold forPolicy at chooses
  split at chooses
  · cases chooses
  · rename_i items
    split at chooses
    · cases chooses
    · rename_i other
      rw [validateFiles, if_neg other] at valid
      exact ⟨items, rfl, valid⟩
  · cases chooses

omit [DecidableEq F] in
theorem cuda_valid (chooses : forPolicy policy = .ok .cudaManifest)
    (valid : validateFiles platform files policy = .ok ()) : validateCuda platform files = .ok () := by
  unfold forPolicy at chooses
  split at chooses
  · cases chooses
  · split at chooses
    · rename_i cuda
      exact validateFiles_cuda cuda valid
    · cases chooses
  · cases chooses

omit [DecidableEq F] in
theorem cuda_apart (chooses : forPolicy policy = .ok .cudaManifest)
    (valid : validateFiles platform files policy = .ok ()) : "kernel.py" ∉ files.map Prod.fst := fun member =>
  (validateCuda_named (cuda_valid chooses valid) _ member).2 rfl

section Placing

variable {cleared : FileTree}

theorem takes_iff {removed : List String} {name : String} (present : name ∈ files.map Prod.fst)
    (nodes : ∀ n, cleared.node n = if n ∈ removed ∧ n ∉ files.map Prod.fst then none else tree.node n) :
    (cleared.Takes name ∧ ∀ parent ∈ above name, parent ∉ files.map Prod.fst) ↔
      tree.node name ≠ some .dir ∧ ∀ parent ∈ above name, parent ∉ files.map Prod.fst ∧
        (tree.node parent = none ∨ tree.node parent = some .dir ∨ parent ∈ removed) := by
  have here : cleared.node name = tree.node name := by rw [nodes, if_neg (fun both => both.2 present)]
  have lies (parent : String) (outside : parent ∉ files.map Prod.fst) :
      (cleared.node parent = none ∨ cleared.node parent = some .dir) ↔
        tree.node parent = none ∨ tree.node parent = some .dir ∨ parent ∈ removed := by
    rw [nodes]
    by_cases inside : parent ∈ removed
    · rw [if_pos ⟨inside, outside⟩]
      simp [inside]
    · rw [if_neg (fun both => inside both.1)]
      simp only [inside, or_false]
  rw [FileTree.Takes, FileTree.Opens, here]
  constructor
  · rintro ⟨⟨opens, free⟩, outside⟩
    exact ⟨free, fun parent above => ⟨outside parent above, (lies parent (outside parent above)).mp (opens parent above)⟩⟩
  · rintro ⟨free, places⟩
    exact ⟨⟨fun parent above => (lies parent (places parent above).1).mpr (places parent above).2, free⟩,
      fun parent above => (places parent above).1⟩

/-- The kernel is taken away as one more file that is not there any longer. -/
theorem unlinkKernel_iff : (∃ middle, unlinkKernel cleared = some middle) ↔ cleared.node "kernel.py" ≠ some .dir := by
  unfold unlinkKernel
  split <;> simp_all

theorem unlinkKernel_node {middle : FileTree} (unlinked : unlinkKernel cleared = some middle) (n : String) :
    middle.node n = if n = "kernel.py" then none else cleared.node n := by
  unfold unlinkKernel at unlinked
  split at unlinked
  · cases unlinked
    rw [FileTree.set_node, above_kernel]
    simp
  · cases unlinked

omit [DecidableEq F] in
/-- When the files are put. -/
theorem install_iff (valid : validateFiles platform files policy = .ok ())
    (sorted : (files.map Prod.fst).Pairwise (· < ·)) (chooses : forPolicy policy = .ok chosen)
    (own : chosen = .sourceTree → tree.node POLICY ≠ some .dir)
    (held : ∀ name ∈ earlier.map Prod.fst, tree.node name ≠ some .dir)
    (nodes : ∀ n, cleared.node n = if n ∈ earlier.map Prod.fst ∧ n ∉ files.map Prod.fst then none else tree.node n) :
    (∃ middle, chosen.install cleared files policy = some middle) ↔ Placed tree chosen earlier files := by
  have nodup := keys_nodup sorted
  cases chosen with
  | singleFile =>
      obtain ⟨data, rfl⟩ := single_files chooses valid
      have present : "kernel.py" ∈ [("kernel.py", data)].map Prod.fst := by simp
      have takes := takes_iff present nodes
      simp only [above_kernel, List.not_mem_nil, false_imp_iff, implies_true, and_true] at takes
      simp only [Placed, List.map_singleton, List.mem_singleton, forall_eq, above_kernel, List.not_mem_nil,
        false_imp_iff, implies_true, and_true, reduceCtorEq, ← takes]
      simp only [FileSystem.install, Files.get?, List.find?_cons, decide_true, Option.map_some, Option.bind_some,
        FileTree.publish]
      by_cases here : cleared.Takes "kernel.py" <;> simp [here]
  | sourceTree =>
      have apart := fun name member => named_apart (validateFiles_named valid name member) (.inl rfl)
      have fresh : (files.map Prod.fst ++ [POLICY]).Nodup :=
        List.nodup_append.mpr ⟨nodup, List.nodup_singleton _, fun name member other only => by
          rw [List.mem_singleton.mp only]
          exact (apart name member).1⟩
      have policy_takes : cleared.Takes POLICY := by
        refine ⟨fun parent lies => ?_, ?_⟩
        · rw [above_policy] at lies
          cases lies
        · rw [nodes]
          split
          · simp
          · exact own rfl
      have names : (files ++ [(POLICY, jsonLine policy)]).map Prod.fst = files.map Prod.fst ++ [POLICY] := by simp
      rw [FileSystem.install, FileTree.publishAll_iff (by rw [names]; exact fresh), names]
      constructor
      · intro all
        refine ⟨fun name member => ?_, fun other => by cases other⟩
        obtain ⟨takes, outside⟩ := all name (List.mem_append_left _ member)
        obtain ⟨free, places⟩ := (takes_iff member nodes).mp
          ⟨takes, fun parent lies inside => outside parent lies (List.mem_append_left _ inside)⟩
        refine ⟨free, fun parent lies => ?_⟩
        obtain ⟨outside, place⟩ := places parent lies
        exact ⟨outside, by tauto⟩
      · intro placed name member
        rcases List.mem_append.mp member with member | only
        · obtain ⟨free, places⟩ := placed.1 name member
          obtain ⟨takes, outside⟩ := (takes_iff member nodes).mpr ⟨free, fun parent lies => by
            obtain ⟨outside, place⟩ := places parent lies
            exact ⟨outside, by simpa using place⟩⟩
          refine ⟨takes, fun parent lies inside => ?_⟩
          rcases List.mem_append.mp inside with inside | only
          · exact outside parent lies inside
          · rw [List.mem_singleton] at only
            exact (apart name member).2 (only ▸ lies)
        · rw [List.mem_singleton.mp only, above_policy]
          exact ⟨policy_takes, by simp⟩
  | cudaManifest =>
      have absent := cuda_apart chooses valid
      rw [FileSystem.install]
      by_cases free : cleared.node "kernel.py" = some .dir
      · have stays : unlinkKernel cleared = none := by rw [unlinkKernel, dif_neg (not_not.mpr free)]
        have stood : tree.node "kernel.py" = some .dir := by
          rw [nodes] at free
          split at free
          · cases free
          · exact free
        rw [stays]
        constructor
        · rintro ⟨middle, installed⟩
          cases installed
        · exact fun placed => absurd stood (placed.2 rfl)
      · obtain ⟨unlinked, taken⟩ := unlinkKernel_iff.mpr free
        have kernel_nodes (n : String) : unlinked.node n =
            if n ∈ ("kernel.py" :: earlier.map Prod.fst) ∧ n ∉ files.map Prod.fst then none else tree.node n := by
          rw [unlinkKernel_node taken, nodes]
          by_cases here : n = "kernel.py"
          · rw [if_pos here, if_pos ⟨here ▸ List.mem_cons_self, here ▸ absent⟩]
          · rw [if_neg here]
            simp only [List.mem_cons, here, false_or]
        have stood : tree.node "kernel.py" ≠ some .dir := by
          rw [nodes] at free
          split at free
          · rename_i removed
            exact held _ removed.1
          · exact free
        rw [taken, Option.bind_some, FileTree.publishAll_iff nodup]
        constructor
        · intro all
          refine ⟨fun name member => ?_, fun _ => stood⟩
          obtain ⟨free, places⟩ := (takes_iff member kernel_nodes).mp (all name member)
          refine ⟨free, fun parent lies => ⟨(places parent lies).1, ?_⟩⟩
          have place := (places parent lies).2
          rw [List.mem_cons] at place
          tauto
        · intro placed name member
          refine (takes_iff member kernel_nodes).mpr ⟨(placed.1 name member).1, fun parent lies => ?_⟩
          obtain ⟨outside, place⟩ := (placed.1 name member).2 parent lies
          refine ⟨outside, ?_⟩
          rw [List.mem_cons]
          tauto

omit [DecidableEq F] in
/-- What is where after the files are put. -/
theorem install_node {middle : FileTree} (valid : validateFiles platform files policy = .ok ())
    (sorted : (files.map Prod.fst).Pairwise (· < ·)) (chooses : forPolicy policy = .ok chosen)
    (installed : chosen.install cleared files policy = some middle) :
    (∀ file ∈ files, middle.node file.1 = some (.file file.2)) ∧
    (chosen = .sourceTree → middle.node POLICY = some (.file (jsonLine policy))) ∧
    ∀ n, n ∉ files.map Prod.fst → (n = POLICY → chosen ≠ .sourceTree) → middle.node n =
      if ∃ name ∈ files.map Prod.fst, n ∈ above name then some .dir
      else if chosen = .cudaManifest ∧ n = "kernel.py" then none else cleared.node n := by
  have nodup := keys_nodup sorted
  cases chosen with
  | singleFile =>
      obtain ⟨data, rfl⟩ := single_files chooses valid
      simp only [FileSystem.install, Files.get?, List.find?_cons, decide_true, Option.map_some, Option.bind_some] at installed
      have published : cleared.publishAll [("kernel.py", data)] = some middle := by
        simp [FileTree.publishAll, installed]
      have nodes := FileTree.publishAll_node nodup published
      refine ⟨fun file member => (nodes _).1 _ member, (by intro other; cases other), fun n outside _ => ?_⟩
      simpa using (nodes n).2 outside
  | sourceTree =>
      have apart := fun name member => named_apart (validateFiles_named valid name member) (.inl rfl)
      have names : (files ++ [(POLICY, jsonLine policy)]).map Prod.fst = files.map Prod.fst ++ [POLICY] := by simp
      have fresh : ((files ++ [(POLICY, jsonLine policy)]).map Prod.fst).Nodup := by
        rw [names]
        exact List.nodup_append.mpr ⟨nodup, List.nodup_singleton _, fun name member other only => by
          rw [List.mem_singleton.mp only]
          exact (apart name member).1⟩
      have nodes := FileTree.publishAll_node fresh installed
      refine ⟨fun file member => (nodes _).1 _ (List.mem_append_left _ member),
        fun _ => (nodes _).1 _ (List.mem_append_right _ (List.mem_singleton_self _)), fun n outside other => ?_⟩
      rw [(nodes n).2, names]
      · have same : (∃ name ∈ files.map Prod.fst ++ [POLICY], n ∈ above name) ↔
            ∃ name ∈ files.map Prod.fst, n ∈ above name := by
          simp only [List.mem_append, List.mem_singleton, or_and_right, exists_or, exists_eq_left, above_policy,
            List.not_mem_nil, or_false]
        simp only [same, reduceCtorEq, false_and, ite_false]
      · rw [names, List.mem_append, List.mem_singleton, not_or]
        exact ⟨outside, fun here => other here rfl⟩
  | cudaManifest =>
      obtain ⟨unlinked, taken, published⟩ := Option.bind_eq_some_iff.mp installed
      have nodes := FileTree.publishAll_node nodup published
      refine ⟨fun file member => (nodes _).1 _ member, (by intro other; cases other), fun n outside _ => ?_⟩
      rw [(nodes n).2 outside, unlinkKernel_node taken]
      simp

end Placing

end AtrexAgent.Sources
