import Mathlib
import AtrexAgent.Core.Interpolation
import AtrexAgent.Core.Schema
import AtrexAgent.Library.Traversal

/-! Boot: the configs of a composition are computed and validated before anything is applied, and
once more by each fiber that loads. A composition can be frozen in between. -/

namespace AtrexAgent.Boot

open AtrexAgent.Interpolation
open AtrexAgent.Json
open AtrexAgent.Objects
open AtrexAgent.Schema

variable {F : Type}

/-! ### Interpolation of what a config says -/

def interpolateEach (allowed : List Path) (scope : Scope) : List (Path × Json F) → Dict F → Except Exc (Dict F)
  | [], items => .ok items
  | field :: rest, items =>
      if containsReference field.2 then
        if allowed.contains field.1 then
          match substituteValue scope field.2 with
          | .ok value => interpolateEach allowed scope rest (assign value field.1 items)
          | .error error => .error error
        else .error (.compositionError scope.source ("field \"" ++ dotted field.1 ++ "\" contains \"$\x7b\" " ++
          "but is not listed in the plugin's interpolate allowlist"))
      else interpolateEach allowed scope rest items

/-- `apply_interpolation`, of a config that is given by what it says. -/
def interpolate (allowlist : List String) (scope : Scope) (items : Dict F) : Except Exc (Dict F) :=
  interpolateEach (allowlist.map split) scope (fields items) items

/-! ### Declarations -/

structure ServiceKey where
  name : String
  definition : String
  single : Bool
  module : String
  protocolVersion : Int
  doc : String
  deriving DecidableEq, Repr

/-- What a plugin module declares. A validator is pure: it raises or it does not. -/
structure Declaration (F : Type) where
  name : String
  module : String
  configSchema : Option (Dict F)
  configValidator : Option (Dict F → Except String Unit)
  defaults : Dict F
  interpolate : List String
  inject : List String
  optionalInject : List String
  provide : List String

/-- `sorted(set(names))` -/
def sortedSet (names : List String) : List String := names.dedup.insertionSort (· ≤ ·)

def listed (names : List String) : String := ", ".intercalate names

def Declaration.withExtraInject (declaration : Declaration F) (extra : List String) :
    Except String (Declaration F) :=
  let added := extra.filter (· ≠ "")
  let overlap := sortedSet (added.filter (· ∈ declaration.provide))
  if overlap ≠ [] then
    .error ("plugin declaration \"" ++ declaration.module ++ "\": composition row injects " ++
      listed overlap ++ ", which this plugin provides; the row would wait on itself forever")
  else
    let merged := sortedSet (declaration.inject ++ added)
    if merged = declaration.inject then .ok declaration
    else .ok { declaration with
      inject := merged, optionalInject := declaration.optionalInject.filter (· ∉ merged) }

/-- The process at some moment: its environment, and what importing a module and declaring the plugin
that it holds comes to. -/
structure World (F : Type) where
  environ : Text → Option Text
  declared : List ServiceKey → String → Except String (Declaration F)

/-! ### Compositions -/

structure Row (F : Type) where
  id : String
  name : String
  config : Dict F
  required : Bool
  disabled : Bool
  inject : List String
  isolate : List String
  group : String
  doc : String
  source : String
  configSource : String

/-- A composition as `resolve` makes it: no two rows have one id. -/
@[ext] structure Composition (F : Type) where
  profile : String
  rows : List (Row F)
  layers : List String
  vars : List (String × String)
  configsResolved : Bool
  distinct : (rows.map Row.id).Nodup
  named : ∀ row ∈ rows, row.id ≠ ""

def Composition.enabled (composition : Composition F) : List (Row F) :=
  composition.rows.filter fun row => !row.disabled

inductive Failure where
  | value (message : String)
  | boot (failures : List (String × String))
  deriving DecidableEq, Repr

def tokenTable : List ServiceKey → List ServiceKey → Except Failure (List ServiceKey)
  | seams, [] => .ok seams
  | seams, token :: rest =>
      match seams.find? fun seam => seam.name = token.name with
      | some previous =>
          if previous ≠ token then .error (.value ("service token \"" ++ token.name ++ "\" metadata conflicts"))
          else tokenTable seams rest
      | none => tokenTable (seams ++ [token]) rest

def known (seams : List ServiceKey) (name : String) : Bool := seams.any fun seam => seam.name = name

/-- `declare(import_plugin(row.name), known_seams=seams).with_extra_inject(row.inject)` -/
def declareRow (world : World F) (seams : List ServiceKey) (row : Row F) : Except String (Declaration F) := do
  let declaration ← world.declared seams row.name
  declaration.withExtraInject row.inject

/-! ### Preflight -/

def excText : Exc → String
  | .compositionError source message => "composition " ++ source ++ ": " ++ message
  | .recursionError => "maximum recursion depth exceeded"
  | .indexError => "index out of range"

def scopeOf (environ : Text → Option Text) (vars : List (String × String)) (id : String) : Scope :=
  ⟨vars, environ, "entry:" ++ id⟩

variable (floats : Floats F)

def checkSchema (schema : Option (Dict F)) (merged : Dict F) (path : String) : Except String Unit :=
  match schema with
  | some schema => validateSchema floats schema (.obj merged) path
  | none => .ok ()

def callValidator (validator : Option (Dict F → Except String Unit)) (merged : Dict F) : Except String Unit :=
  match validator with
  | some validator => validator merged
  | none => .ok ()

/-- `_validate_plugin_config` -/
def validatePluginConfig (environ : Text → Option Text) (vars : List (String × String))
    (declaration : Declaration F) (row : Row F) (resolved : Bool) : Except String (Dict F) := do
  let config ← (if resolved then .ok row.config
    else (interpolate declaration.interpolate (scopeOf environ vars row.id) row.config).mapError excText :
      Except String (Dict F))
  let merged := if resolved then config else update declaration.defaults config
  if declaration.configSchema.isNone && !merged.isEmpty then .error "plugin declares no Config schema"
  else do
    checkSchema floats declaration.configSchema merged (row.id ++ ".config")
    callValidator declaration.configValidator merged
    pure merged

structure Prepared (F : Type) where
  seams : List ServiceKey
  declarations : List (String × Option (Declaration F))
  effectiveConfigs : List (String × Dict F)

def Prepared.config? (prepared : Prepared F) (id : String) : Option (Dict F) :=
  (prepared.effectiveConfigs.find? fun entry => entry.1 = id).map Prod.snd

/-- The rows whose plugin cannot be declared although they are required. -/
def preflightFailures (world : World F) (seams : List ServiceKey) (requiredIds : List String)
    (rows : List (Row F)) : List (String × String) :=
  rows.filterMap fun row => match declareRow world seams row with
    | .ok _ => none
    | .error message => if row.id ∈ requiredIds then some (row.id, message) else none

/-- The enabled rows that have a declaration, with what becomes of their config. -/
def configChecks (world : World F) (seams : List ServiceKey) (composition : Composition F) :
    List (String × Except String (Dict F)) :=
  composition.enabled.filterMap fun row => match declareRow world seams row with
    | .ok declaration => some (row.id, validatePluginConfig floats world.environ composition.vars declaration
        row composition.configsResolved)
    | .error _ => none

def configFailures (checks : List (String × Except String (Dict F))) : List (String × String) :=
  checks.filterMap fun check => match check.2 with
    | .ok _ => none
    | .error message => some (check.1, message)

def accepted (checks : List (String × Except String (Dict F))) : List (String × Dict F) :=
  checks.filterMap fun check => match check.2 with
    | .ok config => some (check.1, config)
    | .error _ => none

/-- Which service is provided by which row. -/
def provided (world : World F) (seams : List ServiceKey) (rows : List (Row F)) : List (String × String) :=
  rows.flatMap fun row => match declareRow world seams row with
    | .ok declaration => (declaration.provide.filter (· ∉ row.isolate)).map fun service => (service, row.id)
    | .error _ => []

def duplicates (seams : List ServiceKey) (offers : List (String × String)) : List (String × String) :=
  (sortedSet (offers.map Prod.fst)).filterMap fun service =>
    let rows := (offers.filter fun offer => offer.1 = service).map Prod.snd
    if rows.length > 1 && seams.any fun seam => seam.name = service && seam.single then
      some (service, "single implementation is provided by rows " ++ listed rows)
    else none

def orFail (failures : List (String × String)) : Except Failure Unit :=
  if failures.isEmpty then .ok () else .error (.boot failures)

/-- `_prepare` -/
def prepare (world : World F) (composition : Composition F) (tokens : List ServiceKey)
    (requiredRows requiredServices : List String) : Except Failure (Prepared F) := do
  let seams ← tokenTable [] tokens
  orFail ((sortedSet (requiredServices.filter fun name => !known seams name)).map fun name =>
    (name, "required service has no registered token"))
  let requiredIds := (composition.rows.filter Row.required).map Row.id ++ requiredRows
  orFail (preflightFailures world seams requiredIds composition.enabled)
  let checks := configChecks floats world seams composition
  orFail (configFailures checks)
  orFail (duplicates seams (provided world seams composition.enabled))
  pure {
    seams
    declarations := composition.rows.map fun row => (row.id,
      if row.disabled then none else (declareRow world seams row).toOption)
    effectiveConfigs := accepted checks }

/-! ### Freezing -/

/-- A row with the config that it has in effect, if it has one. -/
def effective (prepared : Prepared F) (row : Row F) : Row F :=
  match prepared.config? row.id with
  | some config => { row with config }
  | none => row

theorem effective_id (prepared : Prepared F) (row : Row F) : (effective prepared row).id = row.id := by
  unfold effective
  split <;> rfl

def Composition.withConfigs (composition : Composition F) (prepared : Prepared F) : Composition F where
  profile := composition.profile
  rows := composition.rows.map (effective prepared)
  layers := composition.layers
  vars := composition.vars
  configsResolved := true
  distinct := by
    have same : (composition.rows.map (effective prepared)).map Row.id = composition.rows.map Row.id := by
      rw [List.map_map]
      exact List.map_congr_left fun row _ => effective_id prepared row
    rw [same]
    exact composition.distinct
  named := by
    intro row member
    obtain ⟨raw, here, rfl⟩ := List.mem_map.mp member
    rw [effective_id]
    exact composition.named raw here

/-- `freeze` -/
def freeze (world : World F) (composition : Composition F) (tokens : List ServiceKey) :
    Except Failure (Composition F) := do
  let prepared ← prepare floats world composition tokens [] []
  pure (composition.withConfigs prepared)

/-! ### Loading -/

structure Fiber (F : Type) where
  declaration : Declaration F
  rawConfig : Dict F
  configResolved : Bool
  entryId : String

/-- `_mount`, into a tree that has the rows `mounted`. -/
def mountRow (world : World F) (seams : List ServiceKey) (mounted : List String) (row : Row F)
    (configsResolved : Bool) : Except String (Fiber F) := do
  let unknown := sortedSet ((row.inject ++ row.isolate).filter fun name => !known seams name)
  if unknown ≠ [] then
    .error ("composition entry:" ++ row.id ++ ": references unregistered seams: " ++ listed unknown)
  else do
    let declaration ← declareRow world seams row
    if "" ∈ row.isolate then .error "isolation names must be non-empty strings"
    else
      let entryId := if row.id = "" then declaration.name else row.id
      if entryId ∈ mounted then
        .error ("config for entry \"" ++ entryId ++ "\": duplicate composition row id")
      else .ok ⟨declaration, row.config, configsResolved, entryId⟩

def configError (entryId message : String) : String :=
  "config for entry \"" ++ entryId ++ "\": " ++ message

/-- `Fiber._resolve_config`, where nobody listens to the draft. -/
def resolveConfig (environ : Text → Option Text) (vars : List (String × String)) (fiber : Fiber F) :
    Except String (Dict F) := do
  let interpolated ← (if fiber.configResolved then .ok fiber.rawConfig
    else (interpolate fiber.declaration.interpolate (scopeOf environ vars fiber.entryId)
      fiber.rawConfig).mapError excText : Except String (Dict F))
  let merged := if fiber.configResolved then interpolated
    else update fiber.declaration.defaults interpolated
  match fiber.declaration.configSchema with
  | none =>
      if merged.isEmpty then .ok []
      else .error (configError fiber.entryId ("row supplies config but " ++ fiber.declaration.module ++
        " declares no Config schema: " ++ listed (sortedSet (merged.map Prod.fst))))
  | some schema => do
      (validateSchema floats schema (.obj merged) (fiber.entryId ++ ".config")).mapError
        (configError fiber.entryId)
      (callValidator fiber.declaration.configValidator merged).mapError (configError fiber.entryId)
      pure merged

/-! ### What interpolation reads -/

section Interpolation

variable {scope scope' : Scope}

theorem interpolateEach_cases (allowed : List Path) (changes : List (Path × Json F)) (items : Dict F) :
    ((∃ field ∈ changes, RefusedField allowed scope field) ∧
      ∃ error, interpolateEach allowed scope changes items = .error error) ∨
    ((∀ field ∈ changes, ¬ RefusedField allowed scope field) ∧
      interpolateEach allowed scope changes items =
        .ok (changes.foldl (rewrite (substituted scope)) items)) := by
  induction changes generalizing items with
  | nil => exact Or.inr ⟨fun _ member => absurd member List.not_mem_nil, rfl⟩
  | cons field rest ih =>
      have onward (items' : Dict F) (passes : ¬ RefusedField allowed scope field)
          (step : rewrite (substituted scope) items field = items')
          (run : interpolateEach allowed scope (field :: rest) items = interpolateEach allowed scope rest items') :
          ((∃ other ∈ field :: rest, RefusedField allowed scope other) ∧
            ∃ error, interpolateEach allowed scope (field :: rest) items = .error error) ∨
          ((∀ other ∈ field :: rest, ¬ RefusedField allowed scope other) ∧
            interpolateEach allowed scope (field :: rest) items =
              .ok ((field :: rest).foldl (rewrite (substituted scope)) items)) := by
        rw [run, List.foldl_cons, step]
        rcases ih items' with ⟨⟨other, member, refused⟩, error⟩ | ⟨none_, result⟩
        · exact Or.inl ⟨⟨other, List.mem_cons_of_mem _ member, refused⟩, error⟩
        · exact Or.inr ⟨List.forall_mem_cons.mpr ⟨passes, none_⟩, result⟩
      have spec := substituteValue_texts scope field.2
      by_cases has : containsReference field.2 = true
      · by_cases permitted : field.1 ∈ allowed
        · cases done : substituteValue scope field.2 with
          | error error =>
              refine Or.inl ⟨⟨field, List.mem_cons_self, has, Or.inr (spec.1.mp ⟨error, done⟩)⟩, error, ?_⟩
              rw [interpolateEach, if_pos has, if_pos (List.contains_iff_mem.mpr permitted), done]
          | ok value =>
              refine onward (assign value field.1 items) ?_ ?_ ?_
              · rintro ⟨-, forbidden | refused⟩
                · exact forbidden permitted
                · obtain ⟨_, wrong⟩ := spec.1.mpr refused
                  cases done.symm.trans wrong
              · rw [rewrite, if_pos has, spec.2 value done]
              · rw [interpolateEach, if_pos has, if_pos (List.contains_iff_mem.mpr permitted), done]
        · refine Or.inl ⟨⟨field, List.mem_cons_self, has, Or.inl permitted⟩, ?_⟩
          rw [interpolateEach, if_pos has, if_neg (mt List.contains_iff_mem.mp permitted)]
          exact ⟨_, rfl⟩
      · refine onward items (fun refused => has refused.1) ?_ ?_
        · rw [rewrite, if_neg has]
        · rw [interpolateEach, if_neg has]

/-- `interpolate` is `apply_interpolation` without the heap. -/
theorem applyInterpolation_interpolate {limit : Nat} {allowlist : List String} {heap : Heap F} {config : Nat}
    {items : Dict F} (rep : Rep heap (.dict config) (.obj items)) (shallow : depth (.obj items) ≤ limit) :
    match applyInterpolation limit allowlist scope config heap with
    | (.ret result, heap') => heap <+: heap' ∧
        ∃ tree, interpolate allowlist scope items = .ok tree ∧ Rep heap' (.dict result) (.obj tree)
    | (.raised _, heap') => heap <+: heap' ∧ ∃ error, interpolate allowlist scope items = .error error
    | (.diverged, _) => False := by
  unfold interpolate
  rcases applyInterpolation_cases limit rep shallow with ⟨⟨field, member, refused⟩, error, heap', run, grown⟩ |
    ⟨passes, result, heap', run, grown, rep'⟩
  · rw [run]
    rcases interpolateEach_cases (allowlist.map split) (fields items) items with ⟨-, failed⟩ | ⟨none_, -⟩
    · exact ⟨grown, failed⟩
    · exact absurd refused (none_ field member)
  · rw [run]
    rcases interpolateEach_cases (allowlist.map split) (fields items) items with
      ⟨⟨field, member, refused⟩, -⟩ | ⟨-, tree⟩
    · exact absurd refused (passes field member)
    · exact ⟨grown, _, tree, (rewritten_fields (rep_keyed rep) passes).symm ▸ rep'⟩

theorem substitute_congr {s : Text} (source : scope.source = scope'.source) (vars : scope.vars = scope'.vars)
    (agree : ∀ r, Names s r → scope.value r = scope'.value r) : substitute scope s = substitute scope' s := by
  have each (pieces : List Piece) (inside : ∀ r, .reference r ∈ pieces → scope.value r = scope'.value r) :
      replaceAll scope pieces = replaceAll scope' pieces := by
    induction pieces with
    | nil => rfl
    | cons piece rest ih =>
        have here : replacement scope piece = replacement scope' piece := by
          cases piece with
          | char c => rfl
          | reference r =>
              have value := inside r List.mem_cons_self
              simp only [replacement, Scope.names, value, source, vars]
        rw [replaceAll, replaceAll, here, ih fun r member => inside r (List.mem_cons_of_mem _ member)]
  unfold substitute
  rw [source, each _ fun r member => agree r ((names_scan s r).mpr member)]

mutual

theorem substituteValue_congr (value : Json F) (agree : ∀ s ∈ texts value, substitute scope s = substitute scope' s) :
    substituteValue scope value = substituteValue scope' value := by
  cases value with
  | str text => rw [substituteValue, substituteValue, agree _ (List.mem_singleton_self _)]
  | arr items => rw [substituteValue, substituteValue, substituteItems_congr items agree]
  | obj items => rw [substituteValue, substituteValue, substituteMembers_congr items agree]
  | null => rfl
  | bool value => rfl
  | int value => rfl
  | float value => rfl

theorem substituteItems_congr (items : List (Json F))
    (agree : ∀ s ∈ itemTexts items, substitute scope s = substitute scope' s) :
    substituteItems scope items = substituteItems scope' items := by
  cases items with
  | nil => rfl
  | cons item rest =>
      rw [substituteItems, substituteItems,
        substituteValue_congr item fun s inside => agree s (List.mem_append_left _ inside),
        substituteItems_congr rest fun s inside => agree s (List.mem_append_right _ inside)]

theorem substituteMembers_congr (items : Dict F)
    (agree : ∀ s ∈ memberTexts items, substitute scope s = substitute scope' s) :
    substituteMembers scope items = substituteMembers scope' items := by
  cases items with
  | nil => rfl
  | cons item rest =>
      rw [substituteMembers, substituteMembers,
        substituteValue_congr item.2 fun s inside => agree s (List.mem_append_left _ inside),
        substituteMembers_congr rest fun s inside => agree s (List.mem_append_right _ inside)]

end

theorem interpolateEach_congr (allowed : List Path) (source : scope.source = scope'.source)
    (changes : List (Path × Json F)) (items : Dict F)
    (agree : ∀ field ∈ changes, field.1 ∈ allowed → ∀ s ∈ texts field.2, substitute scope s = substitute scope' s) :
    interpolateEach allowed scope changes items = interpolateEach allowed scope' changes items := by
  induction changes generalizing items with
  | nil => rfl
  | cons field rest ih =>
      have later := fun items => ih items fun other member => agree other (List.mem_cons_of_mem _ member)
      rw [interpolateEach, interpolateEach]
      by_cases permitted : allowed.contains field.1 = true
      · rw [if_pos permitted, if_pos permitted,
          substituteValue_congr field.2 (agree field List.mem_cons_self (List.contains_iff_mem.mp permitted))]
        cases substituteValue scope' field.2 with
        | ok value => simp only [later]
        | error error => simp only [later]
      · rw [if_neg permitted, if_neg permitted, source, later]

/-- A reference in a field that may have references. -/
def Referenced (allowlist : List String) (items : Dict F) (r : Reference) : Prop :=
  ∃ s, Permitted allowlist items s ∧ Names s r

theorem interpolate_congr {allowlist : List String} {items : Dict F} (source : scope.source = scope'.source)
    (vars : scope.vars = scope'.vars) (agree : ∀ r, Referenced allowlist items r → scope.value r = scope'.value r) :
    interpolate allowlist scope items = interpolate allowlist scope' items :=
  interpolateEach_congr _ source _ _ fun field member permitted s inside =>
    substitute_congr source vars fun r names => agree r ⟨s, ⟨field, member, permitted, inside⟩, names⟩

end Interpolation

/-! ### What preparation accepts -/

section Preparation

variable {world later : World F} {composition : Composition F} {tokens : List ServiceKey}
  {requiredRows requiredServices : List String} {prepared : Prepared F} {row : Row F} {config : Dict F}

theorem orFail_ok {failures : List (String × String)} {done : Unit} :
    orFail failures = .ok done ↔ failures = [] := by
  unfold orFail
  cases failures <;> simp

/-- The config of an enabled row that has a declaration, if it is valid. -/
def outcome (world : World F) (seams : List ServiceKey) (composition : Composition F) (row : Row F) :
    Option (Dict F) :=
  match declareRow world seams row with
  | .ok declaration => (validatePluginConfig floats world.environ composition.vars declaration row
      composition.configsResolved).toOption
  | .error _ => none

theorem accepted_checks (seams : List ServiceKey) : accepted (configChecks floats world seams composition) =
    composition.enabled.filterMap fun row =>
      (outcome floats world seams composition row).map fun config => (row.id, config) := by
  unfold accepted configChecks
  rw [List.filterMap_filterMap]
  refine List.filterMap_congr fun row _ => ?_
  unfold outcome
  cases declareRow world seams row with
  | error message => rfl
  | ok declaration =>
      cases checked : validatePluginConfig floats world.environ composition.vars declaration row
        composition.configsResolved with
      | error message => simp [checked, Except.toOption]
      | ok config => simp [checked, Except.toOption]

theorem find_keyed {g : Row F → Option (Dict F)} {rows : List (Row F)} (distinct : (rows.map Row.id).Nodup)
    (member : row ∈ rows) : ((rows.filterMap fun row => (g row).map fun config => (row.id, config)).find?
      fun entry => entry.1 = row.id).map Prod.snd = g row := by
  induction rows with
  | nil => cases member
  | cons first rest ih =>
      obtain ⟨fresh, distinct⟩ := List.nodup_cons.mp distinct
      rcases List.mem_cons.mp member with rfl | later
      · cases made : g row with
        | some config => simp [made]
        | none =>
            have absent : ∀ entry ∈ rest.filterMap fun row => (g row).map fun config => (row.id, config),
                entry.1 ≠ row.id := by
              intro entry inside same
              obtain ⟨other, here, made⟩ := List.mem_filterMap.mp inside
              obtain ⟨config, -, rfl⟩ := Option.map_eq_some_iff.mp made
              exact fresh (List.mem_map.mpr ⟨other, here, same⟩)
            rw [List.filterMap_cons, made]
            dsimp only [Option.map_none]
            rw [List.find?_eq_none.mpr fun entry inside => by simpa using absent entry inside, Option.map_none]
      · have apart : first.id ≠ row.id := fun same => fresh (same ▸ List.mem_map_of_mem later)
        rw [← ih distinct later, List.filterMap_cons]
        cases made : g first with
        | none => rfl
        | some config => simp [apart]

theorem prepare_ok : prepare floats world composition tokens requiredRows requiredServices = .ok prepared ↔
    tokenTable [] tokens = .ok prepared.seams ∧
    (requiredServices.filter fun name => !known prepared.seams name) = [] ∧
    preflightFailures world prepared.seams
      ((composition.rows.filter Row.required).map Row.id ++ requiredRows) composition.enabled = [] ∧
    configFailures (configChecks floats world prepared.seams composition) = [] ∧
    duplicates prepared.seams (provided world prepared.seams composition.enabled) = [] ∧
    (prepared.declarations = composition.rows.map fun row => (row.id,
      if row.disabled then none else (declareRow world prepared.seams row).toOption)) ∧
    prepared.effectiveConfigs = accepted (configChecks floats world prepared.seams composition) := by
  have nothing (names : List String) : sortedSet names = [] ↔ names = [] := by
    unfold sortedSet
    rw [← List.length_eq_zero_iff, List.length_insertionSort, List.length_eq_zero_iff, List.dedup_eq_nil]
  unfold prepare
  simp only [bind_ok_iff, orFail_ok, List.map_eq_nil_iff, nothing, exists_and_left, exists_const]
  constructor
  · rintro ⟨seams, table, known_, required, valid, single, same⟩
    cases same
    exact ⟨table, known_, required, valid, single, rfl, rfl⟩
  · rintro ⟨table, known_, required, valid, single, declarations, configs⟩
    refine ⟨_, table, known_, required, valid, single, ?_⟩
    rw [← declarations, ← configs]
    rfl

theorem enabled_distinct (composition : Composition F) : (composition.enabled.map Row.id).Nodup :=
  composition.distinct.sublist (List.filter_sublist.map _)

theorem prepared_config (ready : prepare floats world composition tokens requiredRows requiredServices =
    .ok prepared) (member : row ∈ composition.enabled) :
    prepared.config? row.id = outcome floats world prepared.seams composition row := by
  obtain ⟨-, -, -, -, -, -, configs⟩ := (prepare_ok floats).mp ready
  unfold Prepared.config?
  rw [configs, accepted_checks]
  exact find_keyed (enabled_distinct composition) member

theorem outcome_some (made : outcome floats world prepared.seams composition row = some config) :
    ∃ declaration, declareRow world prepared.seams row = .ok declaration ∧
      validatePluginConfig floats world.environ composition.vars declaration row
        composition.configsResolved = .ok config := by
  unfold outcome at made
  cases declared : declareRow world prepared.seams row with
  | error message =>
      rw [declared] at made
      cases made
  | ok declaration =>
      rw [declared] at made
      dsimp only at made
      refine ⟨declaration, rfl, ?_⟩
      cases checked : validatePluginConfig floats world.environ composition.vars declaration row
        composition.configsResolved with
      | error message =>
          rw [checked] at made
          cases made
      | ok config' =>
          rw [checked] at made
          cases made
          rfl

end Preparation

/-! ### Agreement -/

/-- What a fiber reads when it loads is what it was mounted with. For a raw config that includes the
defaults, and the environment in what the config refers to. -/
structure Unchanged (mounted loading : Fiber F) (environ environ' : Text → Option Text) : Prop where
  entry : loading.entryId = mounted.entryId
  resolved : loading.configResolved = mounted.configResolved
  config : loading.rawConfig = mounted.rawConfig
  schema : loading.declaration.configSchema = mounted.declaration.configSchema
  validator : loading.declaration.configValidator = mounted.declaration.configValidator
  fields : mounted.configResolved = false → loading.declaration.interpolate = mounted.declaration.interpolate
  defaults : mounted.configResolved = false → loading.declaration.defaults = mounted.declaration.defaults
  environ : mounted.configResolved = false → ∀ r,
    Referenced mounted.declaration.interpolate mounted.rawConfig r → r.space = .env → environ' r.key = environ r.key

/-- Every enabled row that has a config gets that config when it loads. -/
def Delivers (world : World F) (composition : Composition F) (prepared : Prepared F) : Prop :=
  ∀ row ∈ composition.enabled, ∀ config, prepared.config? row.id = some config →
    ∀ others mounted, mountRow world prepared.seams others row composition.configsResolved = .ok mounted →
      ∀ loading environ, Unchanged mounted loading world.environ environ →
        resolveConfig floats environ composition.vars loading = .ok config

/-- A declaration without what only a raw config uses. -/
def Declaration.code (declaration : Declaration F) : Declaration F :=
  { declaration with defaults := [], interpolate := [] }

/-- The same modules declare the same plugins, whatever their defaults are. -/
def SameCode (world later : World F) : Prop := ∀ seams name,
  (later.declared seams name).map Declaration.code = (world.declared seams name).map Declaration.code

section Agreement

variable {world later : World F} {composition : Composition F} {tokens : List ServiceKey}
  {requiredRows requiredServices : List String} {prepared : Prepared F} {row : Row F} {config : Dict F}

theorem mapError_ok {α ε ε' : Type} {f : ε → ε'} {run : Except ε α} {value : α} :
    run.mapError f = .ok value ↔ run = .ok value := by
  cases run <;> simp [Except.mapError]

/-- The two sides agree on what they compute and on what they accept. -/
theorem validate_resolve {environ : Text → Option Text} {vars : List (String × String)}
    {declaration : Declaration F} {resolved : Bool}
    (valid : validatePluginConfig floats environ vars declaration row resolved = .ok config) :
    resolveConfig floats environ vars ⟨declaration, row.config, resolved, row.id⟩ = .ok config := by
  unfold validatePluginConfig at valid
  obtain ⟨interpolated, computed, valid⟩ := (bind_ok_iff _ _ _).mp valid
  unfold resolveConfig
  refine (bind_ok_iff _ _ _).mpr ⟨interpolated, computed, ?_⟩
  dsimp only at valid ⊢
  generalize (if resolved = true then interpolated else update declaration.defaults interpolated) = merged at valid ⊢
  split at valid
  · cases valid
  · rename_i supplied
    obtain ⟨_, fits, valid⟩ := (bind_ok_iff _ _ _).mp valid
    obtain ⟨_, passes, valid⟩ := (bind_ok_iff _ _ _).mp valid
    cases valid
    cases schema : declaration.configSchema with
    | none =>
        -- without a schema only the empty config passes, and the fiber does not ask the validator again
        have empty : config = [] := by simpa [schema] using supplied
        rw [empty]
        rfl
    | some schema' =>
        rw [schema] at fits
        refine (bind_ok_iff _ _ _).mpr ⟨(), mapError_ok.mpr fits, ?_⟩
        exact (bind_ok_iff _ _ _).mpr ⟨(), mapError_ok.mpr passes, rfl⟩

theorem resolve_unchanged {mounted loading : Fiber F} {environ environ' : Text → Option Text}
    {vars : List (String × String)} (same : Unchanged mounted loading environ environ')
    (resolves : resolveConfig floats environ vars mounted = .ok config) :
    resolveConfig floats environ' vars loading = .ok config := by
  have read : (if loading.configResolved then .ok loading.rawConfig
      else (interpolate loading.declaration.interpolate (scopeOf environ' vars loading.entryId)
        loading.rawConfig).mapError excText : Except String (Dict F)) =
      if mounted.configResolved then .ok mounted.rawConfig
      else (interpolate mounted.declaration.interpolate (scopeOf environ vars mounted.entryId)
        mounted.rawConfig).mapError excText := by
    rw [same.resolved, same.config, same.entry]
    cases resolved : mounted.configResolved with
    | true => rfl
    | false =>
        rw [if_neg Bool.false_ne_true, if_neg Bool.false_ne_true, same.fields resolved]
        refine congrArg (Except.mapError excText) (interpolate_congr rfl rfl fun r referenced => ?_)
        unfold Scope.value
        cases space : r.space with
        | env =>
            exact congrArg (fun value : Option Text => some (value.getD []))
              (same.environ resolved r referenced space)
        | aka => rfl
  have merges (interpolated : Dict F) :
      (if loading.configResolved then interpolated else update loading.declaration.defaults interpolated) =
        if mounted.configResolved then interpolated else update mounted.declaration.defaults interpolated := by
    rw [same.resolved]
    cases resolved : mounted.configResolved with
    | true => rfl
    | false => rw [same.defaults resolved]
  unfold resolveConfig at resolves ⊢
  rw [read]
  obtain ⟨interpolated, computed, resolves⟩ := (bind_ok_iff _ _ _).mp resolves
  refine (bind_ok_iff _ _ _).mpr ⟨interpolated, computed, ?_⟩
  dsimp only at resolves ⊢
  rw [merges, same.entry, same.schema, same.validator]
  generalize (if mounted.configResolved = true then interpolated else
    update mounted.declaration.defaults interpolated) = merged at resolves ⊢
  cases schema : mounted.declaration.configSchema with
  | some schema' =>
      rw [schema] at resolves
      exact resolves
  | none =>
      rw [schema] at resolves
      cases merged with
      | nil => exact resolves
      | cons first rest => cases resolves

theorem mountRow_ok {seams : List ServiceKey} {others : List String} {resolved : Bool} {mounted : Fiber F}
    (named : row.id ≠ "") (mounts : mountRow world seams others row resolved = .ok mounted) :
    ∃ declaration, declareRow world seams row = .ok declaration ∧
      mounted = ⟨declaration, row.config, resolved, row.id⟩ := by
  unfold mountRow at mounts
  simp only [if_neg named] at mounts
  split at mounts
  · cases mounts
  · obtain ⟨declaration, declared, mounts⟩ := (bind_ok_iff _ _ _).mp mounts
    split at mounts
    · cases mounts
    · split at mounts
      · cases mounts
      · cases mounts
        exact ⟨declaration, declared, rfl⟩

theorem prepare_delivers (ready : prepare floats world composition tokens requiredRows requiredServices =
    .ok prepared) : Delivers floats world composition prepared := by
  intro row member config has others mounted mounts loading environ same
  obtain ⟨declaration, declared, valid⟩ := outcome_some floats ((prepared_config floats ready member).symm.trans has)
  obtain ⟨declaration', declared', rfl⟩ := mountRow_ok (composition.named row (List.mem_filter.mp member).1) mounts
  cases declared.symm.trans declared'
  exact resolve_unchanged floats same (validate_resolve floats valid)

/-! The frozen form. -/

theorem withExtraInject_code (declaration : Declaration F) (extra : List String) :
    (declaration.withExtraInject extra).map Declaration.code = declaration.code.withExtraInject extra := by
  unfold Declaration.withExtraInject Declaration.code
  dsimp only
  split
  · rfl
  · split <;> rfl

theorem declareRow_code (same : SameCode world later) (seams : List ServiceKey) {row' : Row F}
    (name : row'.name = row.name) (inject : row'.inject = row.inject) :
    (declareRow later seams row').map Declaration.code = (declareRow world seams row).map Declaration.code := by
  have each (world : World F) (row : Row F) : (declareRow world seams row).map Declaration.code =
      (world.declared seams row.name).map Declaration.code >>= fun declaration =>
        declaration.withExtraInject row.inject := by
    unfold declareRow
    cases world.declared seams row.name with
    | error message => rfl
    | ok declaration => exact withExtraInject_code declaration row.inject
  rw [each, each, name, inject, same]

theorem declareRow_ok (same : SameCode world later) {seams : List ServiceKey} {row' : Row F}
    (name : row'.name = row.name) (inject : row'.inject = row.inject) {declaration : Declaration F}
    (declared : declareRow world seams row = .ok declaration) :
    ∃ declaration', declareRow later seams row' = .ok declaration' ∧ declaration'.code = declaration.code := by
  have code := declareRow_code same seams name inject
  rw [declared] at code
  cases declared' : declareRow later seams row' with
  | error message =>
      rw [declared'] at code
      cases code
  | ok declaration' =>
      rw [declared'] at code
      exact ⟨declaration', rfl, Except.ok.inj code⟩

theorem declareRow_error (same : SameCode world later) {seams : List ServiceKey} {row' : Row F}
    (name : row'.name = row.name) (inject : row'.inject = row.inject) {message : String}
    (failed : declareRow world seams row = .error message) : declareRow later seams row' = .error message := by
  have code := declareRow_code same seams name inject
  rw [failed] at code
  cases declared' : declareRow later seams row' with
  | error message' =>
      rw [declared'] at code
      exact congrArg Except.error (Except.error.inj code)
  | ok declaration' =>
      rw [declared'] at code
      cases code

/-- A valid config, taken as it is, is valid whatever the defaults and the environment are now. -/
theorem validate_frozen {environ environ' : Text → Option Text} {vars : List (String × String)}
    {declaration declaration' : Declaration F} {resolved : Bool} (same : declaration'.code = declaration.code)
    (valid : validatePluginConfig floats environ vars declaration row resolved = .ok config) :
    validatePluginConfig floats environ' vars declaration' { row with config } true = .ok config := by
  have schema : declaration'.configSchema = declaration.configSchema := congrArg (·.configSchema) same
  have validator : declaration'.configValidator = declaration.configValidator :=
    congrArg (·.configValidator) same
  unfold validatePluginConfig at valid ⊢
  obtain ⟨interpolated, -, valid⟩ := (bind_ok_iff _ _ _).mp valid
  refine (bind_ok_iff _ _ _).mpr ⟨config, rfl, ?_⟩
  dsimp only at valid ⊢
  generalize (if resolved = true then interpolated else update declaration.defaults interpolated) = merged at valid
  rw [schema, validator]
  split at valid
  · cases valid
  · rename_i supplied
    obtain ⟨_, fits, valid⟩ := (bind_ok_iff _ _ _).mp valid
    obtain ⟨_, passes, valid⟩ := (bind_ok_iff _ _ _).mp valid
    cases valid
    rw [if_pos rfl, if_neg supplied]
    exact (bind_ok_iff _ _ _).mpr ⟨(), fits, (bind_ok_iff _ _ _).mpr ⟨(), passes, rfl⟩⟩

theorem effective_same (prepared : Prepared F) (row : Row F) : (effective prepared row).name = row.name ∧
    (effective prepared row).inject = row.inject ∧ (effective prepared row).isolate = row.isolate ∧
    (effective prepared row).required = row.required ∧ (effective prepared row).disabled = row.disabled := by
  unfold effective
  split <;> exact ⟨rfl, rfl, rfl, rfl, rfl⟩

theorem withConfigs_enabled (prepared : Prepared F) :
    (composition.withConfigs prepared).enabled = composition.enabled.map (effective prepared) := by
  unfold Composition.enabled Composition.withConfigs
  rw [List.filter_map]
  refine congrArg _ (List.filter_congr fun row _ => ?_)
  rw [Function.comp, (effective_same prepared row).2.2.2.2]

theorem preflightFailures_frozen (same : SameCode world later) (prepared : Prepared F)
    (seams : List ServiceKey) (requiredIds : List String) (rows : List (Row F)) :
    preflightFailures later seams requiredIds (rows.map (effective prepared)) =
      preflightFailures world seams requiredIds rows := by
  unfold preflightFailures
  rw [List.filterMap_map]
  refine List.filterMap_congr fun row _ => ?_
  obtain ⟨name, inject, -⟩ := effective_same prepared row
  rw [Function.comp, effective_id]
  cases declared : declareRow world seams row with
  | error message => rw [declareRow_error same name inject declared]
  | ok declaration =>
      obtain ⟨declaration', declared', -⟩ := declareRow_ok same name inject declared
      rw [declared']

theorem provided_frozen (same : SameCode world later) (prepared : Prepared F) (seams : List ServiceKey)
    (rows : List (Row F)) : provided later seams (rows.map (effective prepared)) = provided world seams rows := by
  unfold provided
  rw [List.flatMap_map]
  refine List.flatMap_congr fun row _ => ?_
  obtain ⟨name, inject, isolate, -⟩ := effective_same prepared row
  rw [effective_id, isolate]
  cases declared : declareRow world seams row with
  | error message => rw [declareRow_error same name inject declared]
  | ok declaration =>
      obtain ⟨declaration', declared', code⟩ := declareRow_ok same name inject declared
      have provide : declaration'.provide = declaration.provide := congrArg (·.provide) code
      rw [declared']
      dsimp only
      rw [provide]

theorem validated (ready : prepare floats world composition tokens requiredRows requiredServices = .ok prepared)
    (member : row ∈ composition.enabled) {declaration : Declaration F}
    (declared : declareRow world prepared.seams row = .ok declaration) :
    ∃ config, prepared.config? row.id = some config ∧ validatePluginConfig floats world.environ composition.vars
      declaration row composition.configsResolved = .ok config := by
  obtain ⟨-, -, -, valid, -⟩ := (prepare_ok floats).mp ready
  rw [prepared_config floats ready member]
  unfold outcome
  rw [declared]
  cases checked : validatePluginConfig floats world.environ composition.vars declaration row
    composition.configsResolved with
  | ok config => exact ⟨config, by simp [checked, Except.toOption], rfl⟩
  | error message =>
      have failed : (row.id, message) ∈ configFailures (configChecks floats world prepared.seams composition) := by
        refine List.mem_filterMap.mpr ⟨(row.id, .error message), ?_, rfl⟩
        exact List.mem_filterMap.mpr ⟨row, member, by simp [declared, checked]⟩
      rw [valid] at failed
      cases failed

theorem configChecks_frozen (same : SameCode world later)
    (ready : prepare floats world composition tokens requiredRows requiredServices = .ok prepared) :
    configChecks floats later prepared.seams (composition.withConfigs prepared) =
      configChecks floats world prepared.seams composition := by
  unfold configChecks
  rw [withConfigs_enabled, List.filterMap_map]
  refine List.filterMap_congr fun row member => ?_
  obtain ⟨name, inject, -⟩ := effective_same prepared row
  rw [Function.comp, effective_id]
  cases declared : declareRow world prepared.seams row with
  | error message => rw [declareRow_error same name inject declared]
  | ok declaration =>
      obtain ⟨declaration', declared', code⟩ := declareRow_ok same name inject declared
      obtain ⟨config, has, valid⟩ := validated floats ready member declared
      have frozen : effective prepared row = { row with config } := by
        unfold effective
        rw [has]
      rw [declared']
      dsimp only
      rw [valid, frozen]
      exact congrArg some (congrArg (Prod.mk row.id) (validate_frozen floats code valid))

theorem prepare_frozen (same : SameCode world later)
    (ready : prepare floats world composition tokens requiredRows requiredServices = .ok prepared) :
    ∃ prepared', prepare floats later (composition.withConfigs prepared) tokens requiredRows requiredServices =
      .ok prepared' ∧ prepared'.effectiveConfigs = prepared.effectiveConfigs := by
  obtain ⟨table, known_, required, valid, single, -, configs⟩ := (prepare_ok floats).mp ready
  let declarations := (composition.withConfigs prepared).rows.map fun row => (row.id,
    if row.disabled then none else (declareRow later prepared.seams row).toOption)
  refine ⟨⟨prepared.seams, declarations, prepared.effectiveConfigs⟩, (prepare_ok floats).mpr
    ⟨table, known_, ?_, ?_, ?_, rfl, ?_⟩, rfl⟩
  · have ids : ((composition.withConfigs prepared).rows.filter Row.required).map Row.id =
        (composition.rows.filter Row.required).map Row.id := by
      unfold Composition.withConfigs
      rw [List.filter_map, List.map_map]
      have which : (Row.required ∘ effective prepared) = (Row.required : Row F → Bool) :=
        funext fun row => (effective_same prepared row).2.2.2.1
      have ids : (Row.id ∘ effective prepared) = (Row.id : Row F → String) :=
        funext fun row => effective_id prepared row
      rw [which, ids]
    rw [ids, withConfigs_enabled, preflightFailures_frozen same]
    exact required
  · rw [configChecks_frozen floats same ready]
    exact valid
  · rw [withConfigs_enabled, provided_frozen same]
    exact single
  · rw [configChecks_frozen floats same ready]
    exact configs

theorem withConfigs_congr {prepared' : Prepared F} (same : prepared'.effectiveConfigs = prepared.effectiveConfigs) :
    composition.withConfigs prepared' = composition.withConfigs prepared := by
  have each : effective prepared' = effective prepared := by
    funext row
    unfold effective Prepared.config?
    rw [same]
  exact Composition.ext rfl (congrArg (composition.rows.map ·) each) rfl rfl rfl

theorem validate_resolved {environ : Text → Option Text} {vars : List (String × String)}
    {declaration : Declaration F}
    (valid : validatePluginConfig floats environ vars declaration row true = .ok config) : config = row.config := by
  unfold validatePluginConfig at valid
  obtain ⟨interpolated, read, valid⟩ := (bind_ok_iff _ _ _).mp valid
  cases read
  rw [if_pos rfl] at valid
  dsimp only at valid
  split at valid
  · cases valid
  · obtain ⟨_, -, valid⟩ := (bind_ok_iff _ _ _).mp valid
    obtain ⟨_, -, valid⟩ := (bind_ok_iff _ _ _).mp valid
    cases valid
    rfl

theorem prepared_disabled (ready : prepare floats world composition tokens requiredRows requiredServices =
    .ok prepared) (member : row ∈ composition.rows) (disabled : row.disabled = true) :
    prepared.config? row.id = none := by
  obtain ⟨-, -, -, -, -, -, configs⟩ := (prepare_ok floats).mp ready
  unfold Prepared.config?
  rw [configs, accepted_checks, Option.map_eq_none_iff, List.find?_eq_none]
  intro entry inside same
  obtain ⟨other, enabled, made⟩ := List.mem_filterMap.mp inside
  obtain ⟨config, -, rfl⟩ := Option.map_eq_some_iff.mp made
  obtain ⟨here, able⟩ := List.mem_filter.mp enabled
  have one : other = row :=
    List.inj_on_of_nodup_map composition.distinct here member (of_decide_eq_true same)
  rw [one, disabled] at able
  cases able

/-- A composition whose configs are resolved has nothing left to freeze. -/
theorem withConfigs_resolved (resolved : composition.configsResolved = true)
    (ready : prepare floats world composition tokens requiredRows requiredServices = .ok prepared) :
    composition.withConfigs prepared = composition := by
  have each : ∀ row ∈ composition.rows, effective prepared row = row := by
    intro row member
    unfold effective
    cases has : prepared.config? row.id with
    | none => rfl
    | some config =>
        by_cases disabled : row.disabled = true
        · rw [prepared_disabled floats ready member disabled] at has
          cases has
        · have enabled : row ∈ composition.enabled := List.mem_filter.mpr ⟨member, by simpa using disabled⟩
          obtain ⟨declaration, -, valid⟩ := outcome_some floats ((prepared_config floats ready enabled).symm.trans has)
          rw [resolved] at valid
          obtain rfl := validate_resolved floats valid
          rfl
  exact Composition.ext rfl (List.map_congr_left each |>.trans (List.map_id _)) rfl rfl resolved.symm

/-- Whatever preparation accepts is what is loaded: a row gets the config that preflight computed when what
it reads has not changed in between. The frozen form of a composition gives the same configs, whatever has
become of the environment and of the defaults; and it is its own frozen form. -/
theorem boot_agrees (world : World F) (composition : Composition F) (tokens : List ServiceKey) :
    (∀ requiredRows requiredServices prepared,
      prepare floats world composition tokens requiredRows requiredServices = .ok prepared →
        Delivers floats world composition prepared) ∧
    ∀ frozen, freeze floats world composition tokens = .ok frozen →
      (∀ later, SameCode world later → ∀ requiredRows requiredServices prepared,
        prepare floats world composition tokens requiredRows requiredServices = .ok prepared →
        ∃ prepared', prepare floats later frozen tokens requiredRows requiredServices = .ok prepared' ∧
          Delivers floats later frozen prepared' ∧ ∀ id, prepared'.config? id = prepared.config? id) ∧
      (∀ later, SameCode world later → freeze floats later frozen tokens = .ok frozen) ∧
      ∀ later tokens' again, freeze floats later frozen tokens' = .ok again → again = frozen := by
  refine ⟨fun _ _ _ ready => prepare_delivers floats ready, fun frozen froze => ?_⟩
  obtain ⟨sealed_, ready, same⟩ := (bind_ok_iff _ _ _).mp froze
  cases same
  have again (later : World F) (tokens' : List ServiceKey) (twice : Composition F)
      (froze : freeze floats later (composition.withConfigs sealed_) tokens' = .ok twice) :
      twice = composition.withConfigs sealed_ := by
    obtain ⟨prepared, ready, same⟩ := (bind_ok_iff _ _ _).mp froze
    cases same
    exact withConfigs_resolved floats rfl ready
  refine ⟨fun later code requiredRows requiredServices prepared ready' => ?_, fun later code => ?_, again⟩
  · have configs : sealed_.effectiveConfigs = prepared.effectiveConfigs := by
      obtain ⟨table, -, -, -, -, -, configs⟩ := (prepare_ok floats).mp ready
      obtain ⟨table', -, -, -, -, -, configs'⟩ := (prepare_ok floats).mp ready'
      rw [configs, configs', Except.ok.inj (table.symm.trans table')]
    rw [withConfigs_congr configs]
    obtain ⟨prepared', run, same⟩ := prepare_frozen floats code ready'
    refine ⟨prepared', run, prepare_delivers floats run, fun id => ?_⟩
    unfold Prepared.config?
    rw [same]
  · obtain ⟨prepared', run, -⟩ := prepare_frozen floats code ready
    have froze : freeze floats later (composition.withConfigs sealed_) tokens =
        .ok ((composition.withConfigs sealed_).withConfigs prepared') := by
      unfold freeze
      rw [run]
      rfl
    rw [froze, again later tokens _ froze]

end Agreement

/-! ### A greeting from the environment -/

def noFloats : Floats Unit := ⟨fun _ => true, fun _ _ => true, fun _ _ => true, fun _ _ => true,
  fun _ _ => true, fun _ _ => true⟩

def greeter : Declaration Unit where
  name := "greeter"
  module := "greeter"
  configSchema := some [("type", .str "object"),
    ("properties", .obj [("greeting", .obj [("type", .str "string")])])]
  configValidator := none
  defaults := []
  interpolate := ["greeting"]
  inject := []
  optionalInject := []
  provide := []

def greeterRow : Row Unit where
  id := "greeter"
  name := "greeter"
  config := [("greeting", .str "$\x7benv:GREETING\x7d")]
  required := true
  disabled := false
  inject := []
  isolate := []
  group := ""
  doc := ""
  source := ""
  configSource := ""

def greeters : Composition Unit where
  profile := "default"
  rows := [greeterRow]
  layers := []
  vars := []
  configsResolved := false
  distinct := by decide
  named := by decide

/-- A process in whose environment every variable has one value. -/
def saying (text : String) : World Unit := ⟨fun _ => some text.toList, fun _ _ => .ok greeter⟩

def greeted (text : String) : Prepared Unit where
  seams := []
  declarations := [("greeter", some greeter)]
  effectiveConfigs := [("greeter", [("greeting", .str text)])]

def greeterFiber : Fiber Unit := ⟨greeter, greeterRow.config, false, "greeter"⟩

theorem greeting_substitute (text : String) :
    substitute (scopeOf (saying text).environ [] "greeter") "$\x7benv:GREETING\x7d".toList = .ok text.toList := by
  have scanned : scan "$\x7benv:GREETING\x7d".toList = [.reference ⟨.env, "GREETING".toList, rfl⟩] := rfl
  unfold substitute leftover
  rw [scanned]
  simp [replaceAll, replacement, Scope.value, scopeOf, saying, hasReference, bind, Except.bind, pure, Except.pure]

theorem greeting_interpolate (text : String) :
    interpolate ["greeting"] (scopeOf (saying text).environ [] "greeter") greeterRow.config =
      .ok [("greeting", .str text)] := by
  have allowed : ["greeting"].map split = [["greeting"]] := by decide
  have only : fields greeterRow.config = [(["greeting"], .str "$\x7benv:GREETING\x7d")] := rfl
  have has : containsReference (.str "$\x7benv:GREETING\x7d" : Json Unit) = true := by decide
  unfold interpolate
  rw [allowed, only, interpolateEach, if_pos has, if_pos (List.contains_iff_mem.mpr List.mem_cons_self), substituteValue, greeting_substitute]
  simp [interpolateEach, bind, Except.bind, pure, Except.pure, assign, greeterRow, Json.set]

theorem greeting_schema (text : String) (path : String) :
    checkSchema noFloats greeter.configSchema [("greeting", .str text)] path = .ok () := by
  have long : ¬(text.length : Int) < 0 := by omega
  simp [checkSchema, greeter, validateSchema, validateMembers, checkKind, hasKind, textOf, checkRequired, itemsOf,
    membersOf, childOf, minLength, Json.get, bind, Except.bind, long]

theorem greeting_valid (text : String) :
    validatePluginConfig noFloats (saying text).environ [] greeter greeterRow false =
      .ok [("greeting", .str text)] := by
  have computed : interpolate greeter.interpolate (scopeOf (saying text).environ [] greeterRow.id)
      greeterRow.config = .ok [("greeting", .str text)] := greeting_interpolate text
  unfold validatePluginConfig
  rw [if_neg Bool.false_ne_true, mapError_ok.mpr computed]
  refine (bind_ok_iff _ _ _).mpr ⟨_, rfl, ?_⟩
  exact (bind_ok_iff _ _ _).mpr ⟨(), greeting_schema text _, rfl⟩

theorem greeters_checks (text : String) : configChecks noFloats (saying text) [] greeters =
    [("greeter", .ok [("greeting", .str text)])] :=
  congrArg (fun checked => [("greeter", checked)]) (greeting_valid text)

theorem greeters_prepare (text : String) :
    prepare noFloats (saying text) greeters [] [] [] = .ok (greeted text) := by
  refine (prepare_ok noFloats).mpr ⟨rfl, rfl, rfl, ?_, rfl, rfl, ?_⟩
  · rw [show (greeted text).seams = [] from rfl, greeters_checks]
    rfl
  · rw [show (greeted text).seams = [] from rfl, greeters_checks]
    rfl

theorem greeters_load :
    resolveConfig noFloats (saying "hello").environ [] greeterFiber = .ok [("greeting", .str "hello")] :=
  (boot_agrees noFloats (saying "hello") greeters []).1 [] [] (greeted "hello") (greeters_prepare "hello")
    greeterRow List.mem_cons_self [("greeting", .str "hello")] rfl [] greeterFiber rfl greeterFiber _
    ⟨rfl, rfl, rfl, rfl, rfl, fun _ => rfl, fun _ => rfl, fun _ _ _ _ => rfl⟩

/-- A plugin that is applied first can change the environment that a later row refers to. -/
theorem load_differs : ¬ ∀ (world : World Unit) (composition : Composition Unit) (prepared : Prepared Unit)
    (row : Row Unit) (config : Dict Unit) (fiber : Fiber Unit) (environ : Text → Option Text),
    prepare noFloats world composition [] [] [] = .ok prepared → row ∈ composition.enabled →
    prepared.config? row.id = some config →
    mountRow world prepared.seams [] row composition.configsResolved = .ok fiber →
    resolveConfig noFloats environ composition.vars fiber = .ok config := by
  intro always
  have loads := always (saying "hello") greeters (greeted "hello") greeterRow [("greeting", .str "hello")]
    greeterFiber (saying "bye").environ (greeters_prepare "hello") List.mem_cons_self rfl rfl
  have said := validate_resolve noFloats (greeting_valid "bye")
  have differ := Except.ok.inj (said.symm.trans loads)
  simp at differ

end AtrexAgent.Boot
