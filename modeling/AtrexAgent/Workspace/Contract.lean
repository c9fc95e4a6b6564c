import Mathlib.Data.List.SplitOn
import AtrexAgent.Library.JsonKeys

/-! Source contracts: what a policy may say, and which files it admits. A dict of the program is
given by its items in the order of their keys. -/

namespace AtrexAgent.Sources

open AtrexAgent.Json

abbrev Bytes := List UInt8

def encode (text : String) : Bytes := text.toByteArray.data.toList

/-- `data.decode("utf-8")` -/
def decode (data : Bytes) : Option String := String.fromUTF8? ⟨data.toArray⟩

theorem decode_encode (text : String) : decode (encode text) = some text := by
  unfold decode encode String.fromUTF8?
  rw [Array.toArray_toList]
  exact dif_pos text.isValidUTF8

theorem encode_decode {data : Bytes} {text : String} (decoded : decode data = some text) :
    encode text = data := by
  unfold decode String.fromUTF8? at decoded
  split at decoded
  · cases decoded
    rfl
  · cases decoded

theorem encode_append (first second : String) : encode (first ++ second) = encode first ++ encode second := by
  unfold encode
  rw [String.toByteArray_append, ByteArray.data_append, Array.toList_append]

theorem encode_inj {first second : String} (same : encode first = encode second) : first = second := by
  have decoded := decode_encode first
  rw [same, decode_encode] at decoded
  exact (Option.some.inj decoded).symm

inductive Error where
  | value (message : String)
  | unsafePath
  | json
  | unicode
  | key (name : String)
  | index
  | type
  deriving DecidableEq, Repr

variable {F : Type} [FloatText F]

/-- What is taken from the interpreter: the digest of bytes in hexadecimal, whether a float is equal
to one, and what the JSON decoder makes of bytes that it does not read as UTF-8. -/
structure Platform (F : Type) where
  sha256 : Bytes → String
  isOne : F → Bool
  otherEncoding : Bytes → Option (Json F)

/-- `json.detect_encoding(data) == "utf-8"` -/
def detectsUtf8 : Bytes → Bool
  | 0xEF :: 0xBB :: 0xBF :: _ => false
  | 0xFF :: 0xFE :: _ => false
  | 0xFE :: 0xFF :: _ => false
  | [a, b] => a ≠ 0 && b ≠ 0
  | a :: b :: _ :: _ :: _ => a ≠ 0 && b ≠ 0
  | _ => true

/-- `json.loads` of bytes. -/
def loadBytes (other : Bytes → Option (Json F)) (data : Bytes) : Option (Json F) :=
  if detectsUtf8 data then
    match decode data with
    | some text => (loads text.toList).map sortKeys
    | none => other data
  else other data

def need (condition : Bool) (message : String) : Except Error Unit :=
  if condition then .ok () else .error (.value message)

theorem need_ok {condition : Bool} {message : String} {value : Unit} :
    need condition message = .ok value ↔ condition = true := by
  cases condition
  · simp [need]
  · simp [need]

/-! ### Names of files -/

def CACHES : List String := [".git", "__pycache__", ".pytest_cache", ".mypy_cache", ".ruff_cache"]

def PROTECTED : List String :=
  ["atrex_bench", "torch", "cutlass", "cuda", "triton", "site", "sitecustomize", "usercustomize",
    "importlib", "packaging", "json", "subprocess", "os", "sys"]

def WORKSPACE_ONLY : List String :=
  ["tools", "skills", "scratch", "memory", "input", "profiles", "eval", "plans", "reference",
    "reference-projects", "gpu-wiki", "atrex-bench", "verification_artifacts", "README.md", "CLAUDE.md",
    "WORKSPACE.md", "agent_problem.json", "reference.py", "input.py", "shapes.json", "metadata.json",
    "roofline.json", "valid.py", "definition.json", "workload.jsonl", "solution.json", "config.json",
    "test_kernel.py", "profile_driver.py", "evaluations.jsonl", "numerical_probe.py",
    "numerical_inputs.py", "probe-request.json", "policy_review_request.json", ".gitignore", ".claude",
    ".codex", ".qoder", ".agents", ".pi", ".orchestrator_mode.json", ".aka-agent-observations",
    ".aka-agent-sessions", ".aka-agent-session-errors", ".humanize", ".gpu_wiki_profile",
    ".atrex_long_horizon", ".atrex_versions", ".atrex_plugins", ".atrex_stall_state.json",
    ".orchestrator_state.json", "framework_baseline.json", "baseline_report.md",
    "trace-retention-manifest.json", ".atrex_environment", ".qodersec", ".venv", "node_modules",
    ".atrex_source.json", ".atrex_file_system.json"]

def MAX_FILE : Nat := 16 * 1024 * 1024

def MAX_TOTAL : Nat := 64 * 1024 * 1024

def MAX_SNAPSHOT : Nat := 6 * MAX_TOTAL

/-- `name.split("/")` -/
def parts (name : String) : List Text := name.toList.splitOn '/'

/-- `relative`, whose path must be a string. -/
def relative (value : Json F) (dot : Bool) : Except Error String :=
  match value with
  | .str name =>
      if dot && name = "." then .ok name
      else if name ≠ "" && !(name.toList.head? = some '/') && !(name.toList.head? = some '-') &&
          !(name.toList.any fun c => ['\\', '\x00', '\n', '\r'].contains c) &&
          !((parts name).any fun part => part = [] || part = ['.'] || part = ['.', '.']) then .ok name
      else .error .unsafePath
  | _ => .error .unsafePath

/-- `Path(name).suffix` -/
def suffix (name : String) : String :=
  let last := (parts name).getLastD []
  let after := last.reverse.takeWhile (· ≠ '.')
  if last.contains '.' && after.length + 1 < last.length && !after.isEmpty then
    String.ofList ('.' :: after.reverse)
  else ""

def ignored (name : String) : Bool :=
  ((parts name).any fun part => CACHES.contains (String.ofList part)) ||
    [".pyc", ".pyo"].contains (suffix name)

def sourceName (name : String) : Bool :=
  !(WORKSPACE_ONLY.contains (String.ofList ((parts name).headD [])) || ignored name)

def isHex (text : Text) : Bool := text.all fun c => "0123456789abcdef".toList.contains c

/-! ### Source trees -/

def asDict (value : Json F) : Except Error (Dict F) :=
  match value with
  | .obj items => .ok items
  | _ => .error .type

def stringsOf : List (Json F) → List String
  | [] => []
  | .str name :: rest => name :: stringsOf rest
  | _ :: rest => stringsOf rest

/-- `editable`, of a policy whose roots are strings. -/
def editable (policy : Dict F) (name : String) : Bool :=
  match get policy "editable_roots" with
  | .arr roots => (stringsOf roots).any fun root =>
      name = root || (root ++ "/").toList.isPrefixOf name.toList
  | _ => false

def isEqualOne (platform : Platform F) : Json F → Bool
  | .int n => n = 1
  | .bool b => b
  | .float x => platform.isOne x
  | _ => false

def sameKeys (items : Dict F) (names : List String) : Bool :=
  (items.all fun item => names.contains item.1) && names.all fun name => (find? items name).isSome

def POLICY_FIELDS : List String :=
  ["schema_version", "source_revision", "seed_digest", "package_root", "editable_roots",
    "immutable_files", "runtime_requirements"]

def checkRevision (revision : Json F) : Bool :=
  match revision with
  | .null => true
  | .str text => (text.length = 40 || text.length = 64) && isHex text.toList
  | _ => false

def checkSeed (seed : Json F) : Bool :=
  match seed with
  | .str text => "sha256:".toList.isPrefixOf text.toList && text.length = 71 && isHex (text.toList.drop 7)
  | _ => false

def checkRoots : List (Json F) → Except Error Unit
  | [] => .ok ()
  | root :: rest => do
      let name ← relative root false
      need (sourceName name) "Editable root collides with workspace infrastructure"
      checkRoots rest

def checkFixed : Dict F → Except Error Unit
  | [] => .ok ()
  | (name, digest) :: rest => do
      let name ← relative (.str name : Json F) false
      let digestOk := match digest with
        | .str text => text.length = 64 && isHex text.toList
        | _ => false
      need (sourceName name && digestOk) "Invalid fixed source identity or reserved workspace path"
      checkFixed rest

def isText : Json F → Bool
  | .str text => !(text.toList.any fun c => c = '\n' || c = '\r')
  | _ => false

def isNonempty : Json F → Bool
  | .str text => text ≠ ""
  | _ => false

/-- A requirement: what is not a string is refused in the end. -/
def checkRequirement (item : Json F) : Bool :=
  match item with
  | .obj fields => (fields.all fun field => ["distribution", "import", "version"].contains field.1) &&
      isNonempty (get fields "distribution") && isNonempty (get fields "import") &&
      fields.all fun field => isText field.2
  | _ => false

def validateTreePolicy (platform : Platform F) (policy : Dict F) : Except Error Unit := do
  need (sameKeys policy POLICY_FIELDS && isEqualOne platform (get policy "schema_version"))
    "Invalid source contract"
  let _ ← relative (get policy "package_root") true
  need (checkRevision (get policy "source_revision") && checkSeed (get policy "seed_digest"))
    "Source contract needs a seed digest and an exact Git revision or null for a directory snapshot"
  match get policy "editable_roots" with
  | .arr (root :: rest) => checkRoots (root :: rest)
  | _ => .error (.value "Source contract requires editable_roots")
  match get policy "immutable_files" with
  | .obj fixed => do
      need (editable policy "kernel.py" != (find? fixed "kernel.py").isSome)
        "Source contract must make kernel.py either editable or immutable"
      checkFixed fixed
  | _ => .error (.value "Source contract immutable_files must be an object")
  match get policy "runtime_requirements" with
  | .arr items => need (items.all checkRequirement) "Invalid runtime requirement"
  | _ => .error (.value "runtime_requirements must be a list")

abbrev Files := List (String × Bytes)

def Files.get? (files : Files) (name : String) : Option Bytes :=
  (files.find? fun file => file.1 = name).map Prod.snd

def total (files : Files) : Nat := (files.map fun file => file.2.length).sum

/-- The first part of the path of a file, inside the package if it is there. -/
def packagePart (root : String) (name : String) : Option Text :=
  if root ≠ "." && (parts root).isPrefixOf (parts name) then
    ((parts name).drop (parts root).length).head?
  else (parts name).head?

def removePy (part : Text) : Text :=
  if ['.', 'p', 'y'].isSuffixOf part then part.take (part.length - 3) else part

def checkFile (platform : Platform F) (policy fixed : Dict F) (root name : String) (data : Bytes) :
    Except Error Unit := do
  let _ ← relative (.str name : Json F) false
  need (sourceName name) "Source path collides with workspace infrastructure"
  need (data.length ≤ MAX_FILE) "Source file exceeds 16 MiB"
  if (decode data).isNone then .error .unicode else .ok ()
  match packagePart root name with
  | none => .error .index
  | some part => need (!(PROTECTED.contains (String.ofList (removePy part)))) "Source shadows a protected import"
  match find? fixed name with
  | some (.str expected) => need (platform.sha256 data = expected) "Fixed source file was modified"
  | _ => do
      need (editable policy name) "Source file is outside editable_roots"
      need (!([".so", ".a", ".o", ".cubin", ".whl", ".pth"].contains (suffix name)))
        "Prebuilt/loading artifact is not permitted"

def checkFiles (platform : Platform F) (policy fixed : Dict F) (root : String) : Files → Except Error Unit
  | [] => .ok ()
  | (name, data) :: rest => do
      checkFile platform policy fixed root name data
      checkFiles platform policy fixed root rest

/-- `validate_files` of a source tree. -/
def validateTree (platform : Platform F) (files : Files) (policy : Dict F) : Except Error Unit := do
  validateTreePolicy platform policy
  need (files.get? "kernel.py").isSome "Source tree requires kernel.py"
  need (files.length ≤ 4096 && total files ≤ MAX_TOTAL) "Source tree exceeds 4096 files / 64 MiB"
  let fixed ← asDict (get policy "immutable_files")
  let root ← relative (get policy "package_root") true
  checkFiles platform policy fixed root files
  need (fixed.all fun file => (files.get? file.1).isSome) "Fixed source files were removed"

/-! ### CUDA manifests -/

def SUFFIXES : List String := [".cu", ".cuh", ".h", ".hpp", ".cpp", ".cc", ".cxx"]

/-- `policy == POLICY` -/
def isCudaPolicy (policy : Dict F) : Bool :=
  sameKeys policy ["kind", "package_root", "immutable_files", "runtime_requirements", "editable_roots"] &&
    (match get policy "kind" with | .str kind => kind = "agate_cuda" | _ => false) &&
    (match get policy "package_root" with | .str root => root = "." | _ => false) &&
    (match get policy "immutable_files" with | .obj [] => true | _ => false) &&
    (match get policy "runtime_requirements" with | .arr [] => true | _ => false) &&
    (match get policy "editable_roots" with | .arr [] => true | _ => false)

def isStr (expected : String) : Json F → Bool
  | .str text => text = expected
  | _ => false

/-- A list of strings that is not empty. -/
def namesOf : Json F → Option (List String)
  | .arr items => if items ≠ [] ∧ items.length = (stringsOf items).length then some (stringsOf items) else none
  | _ => none

def checkNames : List String → Except Error Unit
  | [] => .ok ()
  | name :: rest => do
      let name ← relative (.str name : Json F) false
      need (sourceName name && SUFFIXES.contains (suffix name) &&
        !(".agate_dependencies/".toList.isPrefixOf name.toList)) "Not an editable native source path"
      checkNames rest

def checkBuild (names : List String) (build : Json F) : Bool :=
  match build with
  | .obj fields => isStr "torch_extension" (get fields "toolchain") &&
      match namesOf (get fields "sources") with
      | some sources => (sources.all fun source => names.contains source) &&
          sources.any fun source => ".cu".toList.isSuffixOf source.toList
      | none => false
  | _ => false

def editableManifest : String :=
  "AKA editable manifests require source=\x7b\"type\":\"local\",\"files\":[\"kernel.cu\", ...]\x7d"

/-- `manifest`: the names of its sources, if it is versioned. -/
def manifest (platform : Platform F) (raw : Bytes) : Except Error (Option (List String)) :=
  match loadBytes platform.otherEncoding raw with
  | none => .error .json
  | some (.obj value) =>
      if (find? value "schema_version").isNone then .ok none
      else do
        need (match get value "schema_version" with | .int n => n = 1 | _ => false)
          "solution.json requires schema_version 1"
        let entry := get value "entry_point"
        need (match entry with | .obj fields => isStr "cuda" (get fields "type") | _ => false)
          "Versioned AKA manifests currently require a CUDA entry_point"
        need (value.all fun item => ["schema_version", "name", "version", "source", "entry_point",
          "dependencies", "targets"].contains item.1) "Unknown solution.json fields"
        need (isNonempty (get value "name") && isNonempty (get value "version"))
          "solution.json requires name and version strings"
        let source ← match get value "source" with
          | .obj fields =>
              if sameKeys fields ["type", "files"] && isStr "local" (get fields "type") then .ok fields
              else .error (.value editableManifest)
          | _ => .error (.value editableManifest)
        match namesOf (get source "files") with
        | none => .error (.value "source.files must be a nonempty list of distinct local paths")
        | some names => do
            need (names.Nodup) "source.files must be a nonempty list of distinct local paths"
            checkNames (F := F) names
            let build := match entry with
              | .obj fields => (find? fields "build").getD (.obj [])
              | _ => .obj []
            need (checkBuild names build)
              "CUDA build.sources must name declared sources including a .cu; toolchain is torch_extension"
            pure (some names)
  | some _ => .ok none

def checkSizes : Files → Except Error Unit
  | [] => .ok ()
  | (_, data) :: rest => do
      need (data.length ≤ 16 * 1024 * 1024) "Native source file exceeds 16 MiB"
      if (decode data).isNone then .error .unicode else .ok ()
      checkSizes rest

def validateCuda (platform : Platform F) (files : Files) : Except Error Unit := do
  match files.get? "solution.json" with
  | none => .error (.key "solution.json")
  | some raw => do
      let names ← manifest platform raw
      let names := names.getD []
      need (!names.isEmpty && (files.all fun file => ("solution.json" :: names).contains file.1) &&
          ("solution.json" :: names).all fun name => (files.get? name).isSome)
        "Native snapshot must contain exactly the manifest and its declared files"
      need (files.length ≤ 2001 && total (files.filter fun file => file.1 ≠ "solution.json") ≤ 4 * 1024 * 1024)
        "Native source exceeds 2000 source files / 4 MiB"
      checkSizes files

/-! ### Selection -/

/-- `validate_files`, of the file system that `for_policy` selects. -/
def validateFiles (platform : Platform F) (files : Files) (policy : Json F) : Except Error Unit :=
  match policy with
  | .null => need (files.map Prod.fst = ["kernel.py"]) "Single-file candidate requires exactly kernel.py"
  | .obj items =>
      if isStr "agate_cuda" (get items "kind") then do
        need (isCudaPolicy items) "Invalid CUDA manifest source contract"
        validateCuda platform files
      else validateTree platform files items
  | _ => .error (.value "Invalid source contract")

end AtrexAgent.Sources
