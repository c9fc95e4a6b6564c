import Mathlib
import AtrexAgent.Core.Boot
import AtrexAgent.Core.Equality
import AtrexAgent.Library.Overlay

/-! `resolve`: the rows of a composition, from the bundles of a profile and the patches over them. -/

namespace AtrexAgent.Layering

open AtrexAgent.Boot (Row Composition listed sortedSet)
open AtrexAgent.Interpolation (Exc isKey)
open AtrexAgent.Json
open AtrexAgent.Overlay
open AtrexAgent.Schema (Floats truthy)

variable {F : Type} [FloatText F]

def API_VERSION : Int := 1

def ROW_FIELDS : List String :=
  ["id", "name", "config", "group", "disabled", "inject", "isolate", "required", "doc"]

def PATCH_FIELDS : List String :=
  ["id", "config", "disabled", "insert", "remove", "required", "inject", "isolate", "doc"]

def PROFILE_FIELDS : List String := ["api_version", "bundles", "patches", "doc"]

def BUNDLE_FIELDS : List String := ["api_version", "entries", "doc"]

def PATCH_FILE_FIELDS : List String := ["api_version", "patches", "doc"]

def GROUP_FIELDS : List String := ["id", "entries", "isolate", "disabled", "doc"]

/-- What is read from outside: files, packages, and the texts that Python makes of values. -/
structure Outside (F : Type) where
  /-- The text of a file, or an `OSError` or a `ValueError` as it prints. -/
  readText : String → Except (String ⊕ String) String
  decodeError : String → String
  profile : String → String
  bundle : String → String
  resource : String → String → Option String
  isIdentifier : String → Bool
  str : Json F → String
  repr : Json F → String
  floats : Floats F

/-! ### Reading -/

section Reading

variable (outside : Outside F)

def fail {α : Type} (source message : String) : Except Exc α := .error (.compositionError source message)

/-- `_read` -/
def readDocument (path : String) : Except Exc (Dict F) :=
  match outside.readText path with
  | .error (.inl error) => fail path ("cannot read: " ++ error)
  | .error (.inr error) => fail path ("invalid JSON: " ++ error)
  | .ok text =>
      match (loads text.toList : Option (Json F)) with
      | none => fail path ("invalid JSON: " ++ outside.decodeError text)
      | some (.obj document) =>
          match get document "api_version" with
          | .int 1 => .ok document
          | version => fail path ("api_version must be " ++ toString API_VERSION ++ ", got " ++ outside.repr version)
      | some _ => fail path "document must be a JSON object"

def checkFields (source : String) (document : Dict F) (allowed : List String) : Except Exc Unit :=
  let unknown := sortedSet ((document.map Prod.fst).filter (· ∉ allowed))
  if unknown ≠ [] then fail source ("unsupported field(s): " ++ listed unknown) else .ok ()

/-- `_flag` -/
def flag (source : String) (value : Json F) (label : String) : Except Exc Bool :=
  match value with
  | .null => .ok false
  | .bool b => .ok b
  | value => fail source (label ++ " must be true or false, got " ++ outside.repr value)

/-- The text of a string that is not empty. -/
def nameOf : Json F → Option String
  | .str name => if name = "" then none else some name
  | _ => none

/-- `_names` -/
def names (source : String) (value : Json F) (label : String) : Except Exc (List String) :=
  match value with
  | .null => .ok []
  | .arr items =>
      match items.mapM nameOf with
      | some names => .ok names
      | none => fail source (label ++ " contains a non-string entry")
  | _ => fail source (label ++ " must be an array of strings")

/-- `str(value or "")` -/
def textOf (value : Json F) : String :=
  if truthy outside.floats value then
    match value with
    | .str text => text
    | value => outside.str value
  else ""

/-- `_row` -/
def readRow (source : String) (entry : Json F) (group : String) (inherited : List String) : Except Exc (Row F) :=
  match entry with
  | .obj items => do
      checkFields source items ROW_FIELDS
      match nameOf (get items "id") with
      | none => fail source ("entry needs a string id, got " ++ outside.repr (get items "id"))
      | some id =>
          match nameOf (get items "name") with
          | none => fail source ("entry \"" ++ id ++ "\" needs a module path in \"name\"")
          | some module =>
              match (find? items "config").getD (.obj []) with
              | .obj config => do
                  let required ← flag outside source (get items "required") ("entry \"" ++ id ++ "\" required")
                  let disabled ← flag outside source (get items "disabled") ("entry \"" ++ id ++ "\" disabled")
                  let inject ← names source (get items "inject") ("entry \"" ++ id ++ "\" inject")
                  let isolate ← names source (get items "isolate") ("entry \"" ++ id ++ "\" isolate")
                  pure {
                    id := id, name := module, config := config, required := required, disabled := disabled,
                    inject := inject, isolate := (inherited ++ isolate).eraseDups,
                    group := if group = "" then textOf outside ((find? items "group").getD (.str "")) else group,
                    doc := textOf outside ((find? items "doc").getD (.str "")), source := source,
                    configSource := if config = [] then "" else source }
              | _ => fail source ("entry \"" ++ id ++ "\" config must be an object")
  | _ => fail source "entry must be a JSON object"

/-- A row of a group, as a row of the list that the group stands in. -/
def inGroup (groupId : String) (isolate : List String) (disabled : Bool) (row : Row F) : Row F :=
  { row with
    group := if row.group = "" then groupId else row.group
    isolate := (isolate ++ row.isolate).eraseDups
    disabled := row.disabled || disabled }

mutual

/-- `_flatten` -/
def flatten (source : String) : Json F → Except Exc (List (Row F))
  | .arr entries => flattenEntries source entries
  | _ => fail source "entries must be an array"

def flattenEntries (source : String) : List (Json F) → Except Exc (List (Row F))
  | [] => .ok []
  | entry :: rest => do
      let rows ← flattenEntry source entry
      let later ← flattenEntries source rest
      pure (rows ++ later)

def flattenEntry (source : String) : Json F → Except Exc (List (Row F))
  | .obj items =>
      match flattenChildren source items with
      | some children => do
          checkFields source items GROUP_FIELDS
          match nameOf (get items "id") with
          | none => fail source "group needs a string id"
          | some groupId => do
              let isolate ← names source (get items "isolate") ("group \"" ++ groupId ++ "\" isolate")
              let disabled ← flag outside source (get items "disabled") ("group \"" ++ groupId ++ "\" disabled")
              let rows ← children
              pure (rows.map (inGroup groupId isolate disabled))
      | none => do
          let row ← readRow outside source (.obj items) "" []
          pure [row]
  | entry => do
      let row ← readRow outside source entry "" []
      pure [row]

/-- What the entries of a group come to, where there are any. -/
def flattenChildren (source : String) : Dict F → Option (Except Exc (List (Row F)))
  | [] => none
  | (key, value) :: rest => if key = "entries" then some (flatten source value) else flattenChildren source rest

end

/-! ### Patches -/

/-- What a patch sets of a row; the source of the row is set by every patch. -/
structure Update (F : Type) where
  source : String
  config : Option (Dict F)
  disabled : Option Bool
  required : Option Bool
  inject : Option (List String)
  isolate : Option (List String)
  doc : Option String

def Update.apply (update : Update F) (row : Row F) : Row F :=
  { row with
    source := update.source
    config := update.config.getD row.config
    configSource := if update.config.isSome then update.source else row.configSource
    disabled := update.disabled.getD row.disabled
    required := update.required.getD row.required
    inject := update.inject.getD row.inject
    isolate := update.isolate.getD row.isolate
    doc := update.doc.getD row.doc }

/-- A field of a patch, read where it is there. -/
def given {α : Type} (items : Dict F) (key : String) (read : Json F → Except Exc α) : Except Exc (Option α) :=
  match find? items key with
  | none => .ok none
  | some value => (read value).map some

def readUpdate (source id : String) (items : Dict F) : Except Exc (Update F) := do
  let config ← given items "config" fun
    | .obj config => .ok config
    | _ => fail source ("patch \"" ++ id ++ "\" config must be an object")
  let disabled ← given items "disabled" fun value => flag outside source value ("patch \"" ++ id ++ "\" disabled")
  let required ← given items "required" fun value => flag outside source value ("patch \"" ++ id ++ "\" required")
  let inject ← given items "inject" fun value => names source value ("patch \"" ++ id ++ "\" inject")
  let isolate ← given items "isolate" fun value => names source value ("patch \"" ++ id ++ "\" isolate")
  let doc ← given items "doc" fun value => .ok (textOf outside value)
  return ⟨source, config, disabled, required, inject, isolate, doc⟩

/-- The row that a patch inserts, if it inserts one. -/
def insertOf (source id : String) (items : Dict F) : Except Exc (Option (Dict F)) :=
  match find? items "insert" with
  | none => .ok none
  | some (.obj insert) => .ok (some insert)
  | some _ => fail source ("patch \"" ++ id ++ "\" insert must be an object")

/-- A patch that inserts or removes does nothing else. -/
def checkAlone (source id key : String) (items : Dict F) : Except Exc Unit :=
  let conflicts := sortedSet ((items.map Prod.fst).filter (· ∉ ["id", key]))
  if conflicts ≠ [] then fail source ("patch \"" ++ id ++ "\" " ++ key ++ " conflicts with " ++ listed conflicts) else .ok ()

/-- What a patch asks for, checked for what it says of itself. -/
def readPatch (source id : String) (items : Dict F) : Except Exc (Option (Dict F) × Bool) := do
  let insert ← insertOf source id items
  let remove ← flag outside source (get items "remove") ("patch \"" ++ id ++ "\" remove")
  if insert.isSome then checkAlone source id "insert" items
  if remove then checkAlone source id "remove" items
  if (insert.bind fun insert => find? insert "id").isSome then
    fail source ("patch \"" ++ id ++ "\" insert must not carry its own id")
  return (insert, remove)

/-- A patch on rows that do not have its row. -/
def patchAbsent (source id : String) (rows : List (Row F)) : Option (Dict F) × Bool → Except Exc (List (Row F))
  | (_, true) => .ok rows
  | (none, false) => fail source ("patch targets unknown row \"" ++ id ++ "\"; add \"insert\" to create it")
  | (some insert, false) => (readRow outside source (.obj (("id", .str id) :: insert)) "" []).map fun row => rows ++ [row]

/-- A patch on rows of which one is its own. -/
def patchPresent (source id : String) (items : Dict F) (rows : List (Row F)) (index : Nat) (row : Row F) :
    Option (Dict F) × Bool → Except Exc (List (Row F))
  | (_, true) => .ok (rows.eraseIdx index)
  | (insert, false) => do
      let update ← readUpdate outside source id items
      if insert.isSome then fail source ("patch \"" ++ id ++ "\" cannot insert a row that already exists")
      return rows.set index (update.apply row)

/-- `_apply_patch`: the rows after it. -/
def applyPatch (source : String) (rows : List (Row F)) (patch : Json F) : Except Exc (List (Row F)) :=
  match patch with
  | .obj items => do
      checkFields source items PATCH_FIELDS
      match nameOf (get items "id") with
      | none => fail source ("patch needs a string id, got " ++ outside.repr (get items "id"))
      | some id => do
          let asked ← readPatch outside source id items
          match rows.findIdx? fun row => row.id = id with
          | none => patchAbsent outside source id rows asked
          | some index => match rows[index]? with
            | none => .ok rows
            | some row => patchPresent outside source id items rows index row asked
  | _ => fail source "patch must be a JSON object"

def applyPatches (rows : List (Row F)) (patches : List (String × Json F)) : Except Exc (List (Row F)) :=
  patches.foldlM (fun rows patch => applyPatch outside patch.1 rows patch.2) rows

/-! ### Resolving -/

/-- The patches of a document, each with its source. -/
def patchesIn (label source : String) (document : Dict F) : Except Exc (List (String × Json F)) :=
  match (find? document "patches").getD (.arr []) with
  | .arr patches => .ok (patches.map fun patch => (source, patch))
  | _ => fail label "patches must be an array"

/-- The file of a bundle. -/
def bundlePath (profilePath bundle : String) : Except Exc String :=
  let module := bundle.toList.takeWhile (· ≠ ':')
  match bundle.toList.dropWhile (· ≠ ':') with
  | [] => .ok (outside.bundle bundle)
  | _ :: relative =>
      if module = [] ∨ ¬ (module.splitOn '.').all (fun part => outside.isIdentifier (String.ofList part)) ∨ relative = [] ∨
          relative.head? = some '/' ∨ (relative.splitOn '/').contains "..".toList then
        fail profilePath "invalid module bundle reference"
      else match outside.resource (String.ofList module) (String.ofList relative) with
        | some path => .ok path
        | none => fail profilePath "module bundle is unavailable"

/-- The rows of a bundle under those that are there. -/
def addRows (source : String) : List (Row F) → List (Row F) → Except Exc (List (Row F))
  | rows, [] => .ok rows
  | rows, row :: rest =>
      if rows.any fun existing => existing.id = row.id then fail source ("duplicate row id \"" ++ row.id ++ "\"")
      else addRows source (rows ++ [row]) rest

def readBundle (profilePath bundle : String) : Except Exc (List (Row F)) := do
  let path ← bundlePath outside profilePath bundle
  let document ← readDocument outside path
  checkFields path document BUNDLE_FIELDS
  flatten outside ("bundle:" ++ bundle) ((find? document "entries").getD (.arr []))

def addBundle (profilePath : String) (rows : List (Row F)) (bundle : String) : Except Exc (List (Row F)) := do
  let found ← readBundle outside profilePath bundle
  addRows ("bundle:" ++ bundle) rows found

def readPatchFile (path : String) : Except Exc (List (String × Json F)) := do
  let document ← readDocument outside path
  checkFields ("patch:" ++ path) document PATCH_FILE_FIELDS
  patchesIn ("patch:" ++ path) ("patch:" ++ path) document

/-- `_apply_patch_document`, of the document at a path -/
def addPatchFile (rows : List (Row F)) (path : String) : Except Exc (List (Row F)) := do
  let patches ← readPatchFile outside path
  applyPatches outside rows patches

/-- `_resolve_variables` -/
def resolveVariables (vars : List (String × String)) : Except Exc (List (String × String)) :=
  match vars.find? fun item => ¬ isKey item.1.toList with
  | some item => fail "variables" ("invalid composition variable name: " ++ outside.repr (.str item.1))
  | none => .ok vars

/-- The rows of `resolve`, with the layers that they come from. -/
def resolveRows (profile : String) (patchFiles : List String) (patches : List (Json F)) : Except Exc (List (Row F) × List String) := do
  let path := outside.profile profile
  let document ← readDocument outside path
  checkFields path document PROFILE_FIELDS
  let bundles ← names path (get document "bundles") "bundles"
  let bundled ← bundles.foldlM (addBundle outside path) []
  let own ← patchesIn path ("profile:" ++ profile) document
  let patched ← applyPatches outside bundled own
  let filed ← patchFiles.foldlM (addPatchFile outside) patched
  let rows ← applyPatches outside filed (patches.map fun patch => ("cli", patch))
  return (rows, bundles.map ("bundle:" ++ ·) ++ (if own = [] then [] else ["profile:" ++ profile]) ++ patchFiles.map ("patch:" ++ ·) ++
    (if patches = [] then [] else ["cli"]))

end Reading

end AtrexAgent.Layering
