import Mathlib
import AtrexAgent.Core.Boot
import AtrexAgent.Core.Equality
import AtrexAgent.Library.JsonIndent
import AtrexAgent.Library.JsonKeys
import AtrexAgent.Library.JsonPrefix

/-! The lock of a workspace: what it says of a composition, and which compositions may resume under it. -/

namespace AtrexAgent.Lock

open AtrexAgent.Boot
open AtrexAgent.Interpolation (Exc)
open AtrexAgent.Json
open AtrexAgent.Schema (Floats equal isStr SameAt)

variable {F : Type}

def LOCK_VERSION : Int := 2

/-- What a call raises: a `CompositionError`, a `TypeError`, a `ValueError` or an `OSError`. -/
inductive Refusal where
  | composition (source message : String)
  | type
  | value (message : String)
  | os
  deriving DecidableEq

/-! ### Snapshots -/

/-- What the declaration of a plugin says of its identity, with the digests of its files by their packages. -/
structure Identity where
  resumePolicy : String
  observationalFields : List String
  files : List (String × List (String × String))
  policy : resumePolicy = "strict" ∨ resumePolicy = "observational" ∧ observationalFields ≠ []
  onlyGroup : ∀ field ∈ observationalFields, field = "group"
  packages : (files.map Prod.fst).Nodup
  names : ∀ package ∈ files, (package.2.map Prod.fst).Nodup

/-- The code of a process, as far as a lock records it. -/
structure Checkout (F : Type) where
  digest : Json F → String
  identity : Declaration F → Except Exc Identity
  framework : Json F
  version : String

def strings (names : List String) : Json F := .arr (names.map .str)

/-- What an entry of a lock says of its row, whatever its plugin declares. -/
def rowFields (row : Row F) : Dict F :=
  [("id", .str row.id), ("module", .str row.name), ("enabled", .bool !row.disabled), ("required", .bool row.required),
    ("group", .str row.group), ("isolate", strings row.isolate), ("inject", strings row.inject)]

def undeclaredEntry (checkout : Checkout F) (row : Row F) : Dict F :=
  rowFields row ++ [("config_digest", .str (checkout.digest (.obj row.config))), ("schema_digest", .str "unavailable"),
    ("resume_policy", .str "strict"), ("identity_files", .obj [])]

/-- A dict of texts. -/
def texts (items : List (String × String)) : Json F := .obj (items.map fun item => (item.1, .str item.2))

def filesOf (identity : Identity) : Json F := .obj (identity.files.map fun package => (package.1, texts package.2))

def declaredEntry (checkout : Checkout F) (row : Row F) (declaration : Declaration F) (identity : Identity) (config : Dict F) : Dict F :=
  rowFields row ++ [("config_digest", .str (checkout.digest (.obj config))),
    ("schema_digest", .str (checkout.digest (declaration.configSchema.elim .null .obj))), ("resume_policy", .str identity.resumePolicy),
    ("identity_files", filesOf identity), ("observational_fields", strings identity.observationalFields)]

section Snapshot

variable (environ : Text → Option Text) (checkout : Checkout F)

/-- The config of a row in effect. -/
def effectiveConfig (composition : Composition F) (prepared : Prepared F) (row : Row F) (declaration : Declaration F) : Except Exc (Dict F) :=
  match prepared.config? row.id with
  | some config => .ok config
  | none => (interpolate declaration.interpolate (scopeOf environ composition.vars row.id) row.config).map (update declaration.defaults)

def snapshotEntry (composition : Composition F) (prepared : Prepared F) (row : Row F) : Except Exc (Dict F) :=
  match ((prepared.declarations.find? fun entry => entry.1 = row.id).map Prod.snd).join with
  | none => .ok (undeclaredEntry checkout row)
  | some declaration => do
      let identity ← checkout.identity declaration
      let config ← effectiveConfig environ composition prepared row declaration
      return declaredEntry checkout row declaration identity config

/-- `sorted(tokens, key=lambda item: item.name)` -/
def byName (tokens : List ServiceKey) : List ServiceKey := tokens.insertionSort fun a b => a.name ≤ b.name

def tokenEntry (token : ServiceKey) : Json F :=
  .obj [("name", .str token.name), ("module", .str token.module), ("definition", .str token.definition),
    ("cardinality", .str (if token.single then "single" else "registry")), ("protocol_version", .int token.protocolVersion)]

/-- A lock with its entries. -/
def lockOf (composition : Composition F) (prepared : Prepared F) (entries : List (Dict F)) : Dict F :=
  [("lock_version", .int LOCK_VERSION), ("profile", .str composition.profile),
    ("variables_digest", .str (checkout.digest (texts composition.vars))), ("core_version", .str checkout.version),
    ("core_digest", .str (checkout.digest checkout.framework)), ("tokens", .arr ((byName prepared.seams).map tokenEntry)),
    ("entries", .arr (entries.map .obj))]

def snapshot (composition : Composition F) (prepared : Prepared F) : Except Exc (Dict F) := do
  let entries ← composition.rows.mapM (snapshotEntry environ checkout composition prepared)
  return lockOf checkout composition prepared entries

end Snapshot

/-! ### Differences -/

section Compare

variable (floats : Floats F)

def dictIn : Json F → Option (Dict F)
  | .obj items => some items
  | _ => none

def textIn : Json F → Option String
  | .str text => some text
  | _ => none

def entriesOf (lock : Dict F) : List (Dict F) :=
  match get lock "entries" with
  | .arr items => items.filterMap dictIn
  | _ => []

def idsOf (lock : Dict F) : List String := (entriesOf lock).filterMap fun entry => textIn (get entry "id")

/-- The entry of an id, the last one of several. -/
def entryAt (lock : Dict F) (id : String) : Option (Dict F) := (entriesOf lock).reverse.find? fun entry => isStr id (get entry "id")

inductive Kind where
  | added
  | removed
  | changed
  | global
  deriving DecidableEq

structure Difference where
  entryId : Option String
  fields : List String
  kind : Kind
  deriving DecidableEq

def Difference.render (difference : Difference) : String :=
  match difference.entryId with
  | none => difference.fields.headD "" ++ ": changed"
  | some id => id ++ ": fields changed " ++ ",".intercalate difference.fields

/-- `key not in before or key not in after or before[key] != after[key]`, of a key of one of the two -/
def differsAt (before after : Dict F) (key : String) : Bool :=
  match find? before key, find? after key with
  | none, none => false
  | some value, some other => !equal floats value other
  | _, _ => true

def differingFields (before after : Dict F) : List String :=
  sortedSet ((before.map Prod.fst ++ after.map Prod.fst).filter (differsAt floats before after))

def differenceAt (stored current : Dict F) (id : String) : Option Difference :=
  match entryAt stored id, entryAt current id with
  | none, none => none
  | none, some after => some ⟨some id, differingFields floats [] after, .added⟩
  | some before, none => some ⟨some id, differingFields floats before [], .removed⟩
  | some before, some after =>
      if equal floats (.obj before) (.obj after) then none else some ⟨some id, differingFields floats before after, .changed⟩

def GLOBAL_FIELDS : List String := ["core_version", "core_digest", "tokens", "variables_digest"]

def globalDifference (stored current : Dict F) (field : String) : Option Difference :=
  if equal floats (get stored field) (get current field) then none else some ⟨none, [field], .global⟩

/-- `_difference_records` -/
def differenceRecords (stored current : Dict F) : List Difference :=
  (sortedSet (idsOf stored ++ idsOf current)).filterMap (differenceAt floats stored current) ++
    GLOBAL_FIELDS.filterMap (globalDifference floats stored current)

def isStrict (entry : Dict F) : Bool := isStr "strict" ((find? entry "resume_policy").getD (.str "strict"))

def isHashable : Json F → Bool
  | .arr _ => false
  | .obj _ => false
  | _ => true

/-- The texts in `set(value)`. -/
def textsIn : Json F → Except Refusal (List String)
  | .arr items => if items.all isHashable then .ok (items.filterMap textIn) else .error .type
  | .obj items => .ok (items.map Prod.fst)
  | .str text => .ok (text.toList.map fun c => String.ofList [c])
  | _ => .error .type

def observationalFields (entry : Dict F) : Except Refusal (List String) := textsIn ((find? entry "observational_fields").getD (.arr []))

/-- Whether a difference may not be resumed over. -/
def isSensitive (stored current : Dict F) (difference : Difference) : Except Refusal Bool :=
  match difference.kind with
  | .changed => do
      let id := difference.entryId.getD ""
      let before := (entryAt stored id).getD []
      let after := (entryAt current id).getD []
      if isStrict before || isStrict after then return true
      let allowed ← observationalFields before
      let allowed' ← observationalFields after
      return !difference.fields.all fun field => allowed.contains field && allowed'.contains field
  | _ => .ok true

def sensitives (stored current : Dict F) : List Difference → Except Refusal (List Difference)
  | [] => .ok []
  | difference :: rest => do
      let refused ← isSensitive stored current difference
      let more ← sensitives stored current rest
      return if refused then difference :: more else more

/-- `reconcile` in resume mode, from the lock that was read on. -/
def resume (path : String) (stored current : Dict F) : Except Refusal (List String) := do
  let records := differenceRecords floats stored current
  let sensitive ← sensitives stored current records
  if sensitive ≠ [] then .error (.composition path ("resume identity mismatch: " ++ "; ".intercalate (sensitive.map Difference.render)))
  else .ok (records.map Difference.render)

end Compare

/-! ### The file -/

section File

variable [FloatText F]

/-- The text that `reconcile` writes in create mode. -/
def lockText (current : Dict F) : Text := asciiText (dumpsIndented 2 0 (sortKeys (.obj current))) ++ ['\n']

/-- What Python prints of a value and of a text that is no JSON. -/
structure Printing (F : Type) where
  str : Json F → String
  decodeError : Text → String

def isEntry (value : Json F) : Bool := ((dictIn value).bind fun entry => textIn (get entry "id")).isSome

/-- `read`, of the text of the file if there is one -/
def read (floats : Floats F) (printing : Printing F) (path : String) : Option Text → Except Refusal (Option (Dict F))
  | none => .ok none
  | some text =>
      match (loads text : Option (Json F)) with
      | none => .error (.composition path ("unreadable composition lock: " ++ printing.decodeError text))
      | some (.obj value) =>
          if equal floats (get value "lock_version") (.int LOCK_VERSION) then
            match get value "entries" with
            | .arr items =>
                if items.all isEntry then .ok (some value)
                else .error (.composition path "composition lock entries must be objects with string ids")
            | _ => .error (.composition path "composition lock entries must be objects with string ids")
          else .error (.composition path ("unsupported composition lock version: " ++ printing.str (get value "lock_version")))
      | some _ => .error (.composition path ("unsupported composition lock version: " ++ printing.str .null))

end File

end AtrexAgent.Lock
