import AtrexAgent.Library.Json
import AtrexAgent.Wiki.Lanes

/-! Natural-language retrieval: the typed intent of a request, what it is normalized to, and the argument vectors of the
queries that its stages run. -/

namespace AtrexAgent.Intent

open AtrexAgent.ScopeResolver AtrexAgent.Lanes

variable {F : Type}

def DEFAULT_MAX_RECORDS : ℤ := 20

def ENOUGH_RECORDS : ℤ := 8

def MAX_TERMS : ℕ := 6

def MAX_COMPONENT_TERMS : ℕ := 6

def MAX_OPERATOR_SCOPES : ℤ := 8

def INTENTS : List String := ["technique", "pitfall", "documentation", "diagnosis", "correctness"]

def HARDWARE_KINDS : List String := ["product", "instruction", "feature"]

/-- `sorted(INTENT_SCHEMA["properties"])` -/
def PROPERTIES : List String :=
  ["architecture", "component_terms", "dsl", "free_text_terms", "hardware_requests", "intents", "measured_symptoms",
    "operator_terms", "vendor"]

/-- `str(value).strip()` takes any value; texts are stripped, and lower case is taken, as the language does. -/
structure Texts (F : Type) extends Builtins where
  str : Json F → String
  casefold : String → String

variable (texts : Texts F)

/-! ### Validation -/

def listed (keys : List String) : String := ", ".intercalate keys

def isBlank (text : String) : Bool := texts.strip text = ""

/-- A text that is not blank. -/
def isText (value : Json F) : Bool := match value with
  | .str s => !isBlank texts s
  | _ => false

def checkSlot (doc : Json.Dict F) (key : String) : Except String Unit :=
  match Json.get doc key with
  | .null => .ok ()
  | .str s => if isBlank texts s then .error s!"{key} must be non-empty or null" else .ok ()
  | _ => .error s!"{key} must be a string or null"

def checkTerms (doc : Json.Dict F) (limited : String × ℕ) : Except String Unit :=
  let (key, limit) := limited
  match Json.get doc key with
  | .arr items =>
      if limit < items.length then .error s!"{key} has more than {limit} items"
      else if items.all (isText texts) then .ok ()
      else .error s!"{key} must contain only non-empty strings"
  | _ => .error s!"{key} must be an array"

def checkIntents (doc : Json.Dict F) : Except String Unit :=
  match Json.get doc "intents" with
  | .arr items =>
      let named := items.filterMap fun item => match item with
        | .str s => some s
        | _ => none
      if named.length ≠ items.length ∨ ¬ named.all (· ∈ INTENTS) then .error "intents contains an unsupported value"
      else if named.Nodup then .ok ()
      else .error "intents must not contain duplicates"
  | _ => .error "intents must be an array"

def checkOptional (request : Json.Dict F) (label key : String) : Except String Unit :=
  match Json.get request key with
  | .null => .ok ()
  | .str s => if isBlank texts s then .error s!"{label}.{key} must be non-empty or null" else .ok ()
  | _ => .error s!"{label}.{key} must be a string or null"

def checkRequest (label : String) (request : Json F) : Except String Unit :=
  match request with
  | .obj request => do
      if ¬ (request.all (fun item => item.1 ∈ ["kind", "value", "field", "vs"]) ∧
          ["kind", "value", "field", "vs"].all fun key => (Json.find? request key).isSome) then
        throw s!"{label} must contain exactly kind, value, field, vs"
      match Json.get request "kind" with
      | .str kind => if kind ∉ HARDWARE_KINDS then throw s!"{label}.kind is unsupported"
      | _ => throw s!"{label}.kind is unsupported"
      if ¬ isText texts (Json.get request "value") then throw s!"{label}.value must be a non-empty string"
      checkOptional texts request label "field"
      checkOptional texts request label "vs"
  | _ => .error s!"{label} must be an object"

def checkHardware (doc : Json.Dict F) : Except String Unit :=
  match Json.get doc "hardware_requests" with
  | .arr items =>
      if 4 < items.length then .error "hardware_requests has more than 4 items"
      else items.zipIdx.forM fun item => checkRequest texts s!"hardware_requests[{item.2}]" item.1
  | _ => .error "hardware_requests must be an array"

/-- `strictly_validate_intent` -/
def strictlyValidateIntent (doc : Json F) : Except String (Json.Dict F) :=
  match doc with
  | .obj doc => do
      let missing := PROPERTIES.filter fun key => key ≠ "component_terms" ∧ (Json.find? doc key).isNone
      let extra := ((doc.map Prod.fst).filter (· ∉ PROPERTIES)).mergeSort (· ≤ ·)
      if missing ≠ [] then throw s!"missing keys: {listed missing}"
      if extra ≠ [] then throw s!"unexpected keys: {listed extra}"
      let doc := if (Json.find? doc "component_terms").isNone then Json.set doc "component_terms" (.arr []) else doc
      ["architecture", "vendor", "dsl"].forM (checkSlot texts doc)
      [("operator_terms", MAX_TERMS), ("component_terms", MAX_COMPONENT_TERMS), ("measured_symptoms", 2),
        ("free_text_terms", MAX_TERMS)].forM (checkTerms texts doc)
      checkIntents doc
      checkHardware texts doc
      return doc
  | _ => .error "top level must be an object"

/-- `_string` -/
def string? (value : Json F) : Option String :=
  match value with
  | .null => none
  | .str s => given (texts.strip s)
  | value => given (texts.strip (texts.str value))
where
  given (text : String) : Option String := if text = "" then none else some text

/-- `_strings` -/
def strings (value : Json F) (limit : ℕ) : List String :=
  match value with
  | .arr items => ((items.filterMap (string? texts)).foldl (fun out text => if text ∈ out then out else out ++ [text]) []).take limit
  | _ => []

/-- The slots of an intent that a kernel query depends on. -/
structure Slots where
  architecture : Option String
  vendor : Option String
  dsl : Option String
  operatorTerms : List String
  componentTerms : List String
  measuredSymptoms : List String
  freeTextTerms : List String
  intents : List String

def checkCleanRequest (index : ℕ) (request : Json F) : Except String Unit :=
  match request with
  | .obj request =>
      match string? texts (Json.get request "kind"), string? texts (Json.get request "value") with
      | some kind, some _ =>
          if kind ∈ HARDWARE_KINDS then .ok ()
          else .error "bad-intent hardware request needs kind product/instruction/feature and value"
      | _, _ => .error "bad-intent hardware request needs kind product/instruction/feature and value"
  | _ => .error s!"bad-intent hardware_requests[{index + 1}] must be an object"

/-- `validate_intent`; the hardware requests of the result are left out. -/
def validateIntent (doc : Json.Dict F) : Except String Slots := do
  let forbidden := ["flags", "queries", "reading_guide", "tool"].filter fun key => (Json.find? doc key).isSome
  if forbidden ≠ [] then throw s!"bad-intent executable/research fields are forbidden: {listed forbidden}"
  match Json.get doc "hardware_requests" with
  | .null | .bool false | .int 0 | .str "" | .obj [] => pure ()
  | .arr items => items.zipIdx.forM fun item => checkCleanRequest texts item.2 item.1
  | _ => throw "bad-intent hardware_requests must be a list"
  return {
    architecture := string? texts (Json.get doc "architecture")
    vendor := string? texts (Json.get doc "vendor")
    dsl := string? texts (Json.get doc "dsl")
    operatorTerms := strings texts (Json.get doc "operator_terms") MAX_TERMS
    componentTerms := strings texts (Json.get doc "component_terms") MAX_COMPONENT_TERMS
    measuredSymptoms := strings texts (Json.get doc "measured_symptoms") 2
    freeTextTerms := strings texts (Json.get doc "free_text_terms") MAX_TERMS
    intents := (strings texts (Json.get doc "intents") MAX_TERMS).filter (· ∈ INTENTS) }

/-! ### Normalization -/

/-- What the index of a store can be asked for. -/
structure Vocabulary where
  arch : List String
  vendor : List String
  dsl : List String
  symptom : List String
  product : List String

/-- The tables of hardware names: `ARCH_ALIASES`, `PRODUCT_ARCH` and the vendors of `HARDWARE_IDENTITIES`. -/
structure Hardware where
  archAlias : String → Option String
  normalizeProductName : String → String
  productArch : String → Option String
  identityVendor : String → Option String

/-- A store with what a request is resolved by. -/
structure Wiki (F : Type) where
  texts : Texts F
  vocabulary : Vocabulary
  hardware : Hardware
  operators : List String
  families : List String
  corpus : Corpus

/-- A normalized intent, as far as it decides the kernel queries. -/
structure Lookup where
  arch : Option String
  archQuery : Option String
  vendor : Option String
  dsl : Option String
  dslScopes : List String
  operator : Option String
  family : Option String
  symptom : Option String
  terms : List String
  productQueryable : Bool
  operatorScopes : List OperatorScope
  requestedScope : Bool

/-- `value if value else None` -/
def truthy (value : Option String) : Option String := value.filter (· ≠ "")

/-- `_resolve_vocab_all` -/
def resolveVocabAll (value : Option String) (allowed : List String) : List String :=
  match truthy value with
  | none => []
  | some value =>
      let exact := (allowed.filter fun token => texts.casefold token = texts.casefold (texts.strip value)).mergeSort (· ≤ ·)
      let equivalent := (allowed.filter fun token =>
        token ∉ exact ∧ ScopeResolver.fold texts.toBuiltins token = ScopeResolver.fold texts.toBuiltins value).mergeSort (· ≤ ·)
      exact ++ equivalent

variable (wiki : Wiki F)

/-- `_resolve_arch` -/
def resolveArch (value : Option String) : Option String :=
  (truthy value).bind fun value =>
    let token := wiki.texts.lower (wiki.texts.strip value)
    if token ∈ wiki.vocabulary.arch then some token
    else
      let family := (wiki.hardware.archAlias token).or ((wiki.hardware.archAlias (token.replace "sm_" "sm")).or
        (wiki.hardware.productArch (wiki.hardware.normalizeProductName value)))
      family.filter (· ∈ wiki.vocabulary.arch)

/-- Each of the terms once, in their order. -/
def distinctTerms (terms : List String) : List String :=
  terms.foldl (fun out term => if term ≠ "" ∧ term ∉ out then out ++ [term] else out) []

/-- `normalize_intent`, which raises where the operator names cannot be resolved. -/
def normalizeIntent (slots : Slots) : Except String Lookup :=
  let runtimeProduct := some (wiki.hardware.normalizeProductName (slots.architecture.getD "")) |>.filter fun product =>
    (wiki.hardware.identityVendor product).isSome
  let productArch := (runtimeProduct.bind wiki.hardware.productArch).filter (· ∈ wiki.vocabulary.arch)
  let productVendor := (runtimeProduct.bind wiki.hardware.identityVendor).filter (· ∈ wiki.vocabulary.vendor)
  let arch := productArch.or (resolveArch wiki slots.architecture)
  let vendor := productVendor.or (resolveVocabAll wiki.texts slots.vendor wiki.vocabulary.vendor).head?
  let dslScopes := resolveVocabAll wiki.texts slots.dsl wiki.vocabulary.dsl
  let resolver := resolverOf wiki.texts.toBuiltins wiki.operators wiki.families
  let gathered := (resolver.gather wiki.corpus MAX_OPERATOR_SCOPES (roleTerms slots.operatorTerms slots.componentTerms)
    ⟨[], [], []⟩ State.initial).1
  gathered.map fun gathered =>
    let preferred := (gathered.scopes.find? fun scope => scope.role = .primary).or gathered.scopes.head?
    let resolved := slots.measuredSymptoms.map fun raw => (raw, (resolveVocabAll wiki.texts (some raw) wiki.vocabulary.symptom).head?)
    let symptom := (resolved.filterMap fun item => truthy item.2).head?
    let spill := gathered.unresolved ++ (resolved.filter fun item => (truthy item.2).isNone ∨ item.2 ≠ symptom).map Prod.fst
    { arch := arch
      archQuery := (runtimeProduct.filter fun product => (wiki.hardware.archAlias product).isSome).or arch
      vendor := vendor
      dsl := dslScopes.head?
      dslScopes := dslScopes
      operator := (preferred.filter fun scope => scope.axis = .operator).map OperatorScope.value
      family := (preferred.filter fun scope => scope.axis = .family).map OperatorScope.value
      symptom := symptom
      terms := (distinctTerms (spill ++ slots.freeTextTerms ++ if dslScopes.isEmpty then slots.dsl.toList else [])).take MAX_TERMS
      productQueryable := runtimeProduct.any (· ∈ wiki.vocabulary.product)
      operatorScopes := gathered.scopes
      requestedScope := !slots.operatorTerms.isEmpty || !slots.componentTerms.isEmpty }

/-! ### Stages -/

/-- The options of a stage. -/
structure Stage where
  label : String
  scope : Option OperatorScope := none
  dropSymptom : Bool := false
  anyTerms : Bool := false
  crossArch : Bool := false
  dropTerms : Bool := false
  dropProduct : Bool := false

def stages (lookup : Lookup) : Option OperatorScope → List Stage
  | some scope =>
      [{ label := "exact scope", scope := scope }] ++
        (if lookup.productQueryable then
          [{ label := "same operator scope at architecture level", scope := scope, dropProduct := true }] else []) ++
        [{ label := "same operator scope with text removed", scope := scope, dropTerms := true }] ++
        (if lookup.productQueryable then
          [{ label := "same operator scope with text removed at architecture level", scope := scope, dropTerms := true, dropProduct := true }]
          else []) ++
        (if (truthy lookup.arch).isSome then
          [{ label := "same operator scope on sibling architectures", scope := scope, dropTerms := true, dropProduct := true, crossArch := true }]
          else [])
  | none =>
      [{ label := "exact scope" }] ++
        (if lookup.productQueryable then [{ label := "architecture-level scope", dropProduct := true }] else []) ++
        [{ label := "symptom scope removed", dropSymptom := true },
          { label := "text terms widened to OR", dropSymptom := true, anyTerms := true }] ++
        (if (truthy lookup.arch).isSome then
          [{ label := "same-vendor sibling architectures included", dropSymptom := true, dropProduct := true, anyTerms := true, crossArch := true }]
          else [])

/-- What a stage chooses for a query. -/
structure Selection where
  arch : Option String
  vendor : Option String
  dsl : Option String
  operator : Option String
  family : Option String
  symptom : Option String
  terms : List String
  anyTerms : Bool
  crossArch : Bool
  limit : ℤ
  exclude : Option String
  maxBytes : Option ℤ

/-- An operator is looked up as the lane's scope, or else as the preferred operator, or else as the preferred family. -/
def scopeOn (axis : Axis) (lookup : Lookup) (stage : Stage) : Option String :=
  match stage.scope with
  | some scope => if scope.axis = axis then some scope.value else none
  | none => match axis with
    | .operator => truthy lookup.operator
    | .family => if (truthy lookup.operator).isNone then truthy lookup.family else none

def select (lookup : Lookup) (stage : Stage) (limit : ℤ) (dslScope : Option String) (exclude : Option String) (maxBytes : Option ℤ) : Selection where
  arch := truthy (if stage.dropProduct then lookup.arch else (truthy lookup.archQuery).or lookup.arch)
  vendor := truthy lookup.vendor
  dsl := truthy (dslScope.or lookup.dsl)
  operator := scopeOn .operator lookup stage
  family := scopeOn .family lookup stage
  symptom := if stage.dropSymptom then none else truthy lookup.symptom
  terms := if stage.dropTerms then [] else lookup.terms
  anyTerms := stage.anyTerms && !(if stage.dropTerms then [] else lookup.terms).isEmpty
  crossArch := stage.crossArch && (truthy lookup.arch).isSome
  limit := max 1 limit
  exclude := truthy exclude
  maxBytes := maxBytes.filter (· ≠ 0)

/-- `[flag, value]`, where there is a value. -/
def flagged (flag : String) (value : Option String) : List String := value.elim [] fun value => [flag, value]

def Selection.flags (chosen : Selection) : List String :=
  flagged "--arch" chosen.arch ++ flagged "--vendor" chosen.vendor ++ flagged "--dsl" chosen.dsl ++
    flagged "--operator" chosen.operator ++ flagged "--family" chosen.family ++ flagged "--symptom" chosen.symptom ++
    chosen.terms ++ (if chosen.anyTerms then ["--any"] else []) ++ (if chosen.crossArch then ["--cross-arch"] else []) ++
    ["--emit-json", "--no-fallback", "--limit", toString chosen.limit] ++ flagged "--exclude" chosen.exclude ++
    flagged "--max-bytes" (chosen.maxBytes.map toString)

/-- `_kernel_flags` -/
def kernelFlags (lookup : Lookup) (stage : Stage) (limit : ℤ) (dslScope exclude : Option String) (maxBytes : Option ℤ) : List String :=
  (select lookup stage limit dslScope exclude maxBytes).flags

/-! ### Queries -/

/-- One argument vector with what it was made for. -/
structure Passed where
  chosen : Selection
  argv : List String

/-- What a query answers: none where it fails, or for each record found the id of its projection, if it has one. -/
abbrev Answer := Option (List (Option String))

/-- What the lookup of one lane depends on. -/
structure Lane where
  lookup : Lookup
  maxRecords : ℤ
  exclude : Option String
  maxBytes : Option ℤ
  scope : Option OperatorScope
  respond : List String → Answer

/-- The records so far, by id and with whether each is a hardware record, and the queries that were run. -/
structure Progress where
  records : List (String × Bool)
  seen : List (List String)
  passed : List Passed
  finished : Bool

/-- The records found are added up to the cap. -/
def addFound (maxRecords : ℤ) : List (Option String) → List (String × Bool) → List (String × Bool)
  | [], records => records
  | none :: rest, records => addFound maxRecords rest records
  | some rid :: rest, records =>
      if rid ∈ records.map Prod.fst then addFound maxRecords rest records
      else
        let records := records ++ [(rid, false)]
        if maxRecords ≠ 0 ∧ maxRecords ≤ records.length then records else addFound maxRecords rest records

def Lane.remaining (lane : Lane) (progress : Progress) : ℤ :=
  if lane.maxRecords = 0 then DEFAULT_MAX_RECORDS else lane.maxRecords - progress.records.length

/-- What a stage chooses under one spelling of the DSL. -/
def Lane.selects (lane : Lane) (stage : Stage) (progress : Progress) (dsl : Option String) : Selection :=
  select lane.lookup stage (min 8 (max 1 (lane.remaining progress))) dsl lane.exclude lane.maxBytes

/-- One query, unless it has been run before. -/
def Lane.query (lane : Lane) (stage : Stage) (progress : Progress) (dsl : Option String) : Progress :=
  let chosen := lane.selects stage progress dsl
  if progress.seen.contains chosen.flags then progress
  else
    let asked : Progress := { progress with
      seen := progress.seen ++ [chosen.flags]
      passed := progress.passed ++ [⟨chosen, chosen.flags⟩] }
    match lane.respond chosen.flags with
    | none => asked
    | some found =>
        let records := addFound lane.maxRecords found asked.records
        let target := min ENOUGH_RECORDS (if lane.maxRecords = 0 then ENOUGH_RECORDS else lane.maxRecords)
        { asked with
          records := records
          finished := (lane.scope.isSome && !found.isEmpty) || decide (target ≤ (records.countP fun record => !record.2 : ℕ)) }

/-- The spellings of the DSL one after another, up to the cap. -/
def Lane.stage (lane : Lane) (stage : Stage) : List (Option String) → Progress → Progress
  | [], progress => progress
  | dsl :: rest, progress =>
      if progress.finished ∨ (lane.maxRecords ≠ 0 ∧ lane.remaining progress ≤ 0) then progress
      else Lane.stage lane stage rest (lane.query stage progress dsl)

/-- `_query_kernel_single` -/
def queryKernelSingle (lane : Lane) (records : List (String × Bool)) : Progress :=
  let dslScopes := if lane.lookup.dslScopes.isEmpty then [lane.lookup.dsl] else lane.lookup.dslScopes.map some
  (stages lane.lookup lane.scope).foldl (fun progress stage => lane.stage stage dslScopes progress) ⟨records, [], [], false⟩

def availableRecords (records : List (String × Bool)) (maxRecords : ℤ) : ℤ :=
  if maxRecords = 0 then DEFAULT_MAX_RECORDS else max 0 (maxRecords - records.length)

/-- The argument vectors that `query_kernel` passes to `query_wiki`. -/
def queryKernel (lookup : Lookup) (records : List (String × Bool)) (maxRecords : ℤ) (exclude : Option String) (maxBytes : Option ℤ)
    (respond : List String → Answer) : List Passed :=
  let available := availableRecords records maxRecords
  if lookup.operatorScopes.isEmpty ∧ lookup.requestedScope then []
  else if lookup.operatorScopes.isEmpty ∨ available ≤ 0 then
    (queryKernelSingle ⟨lookup, maxRecords, exclude, maxBytes, none, respond⟩ records).passed
  else
    let scopes := lookup.operatorScopes.take available.toNat
    (scopes.zip (laneBudgets scopes available.toNat)).flatMap fun lane =>
      (queryKernelSingle ⟨lookup, lane.2, exclude, maxBytes, some lane.1, respond⟩ []).passed

/-- What a request passes to `query_wiki`, once its intent is validated and normalized. -/
def kernelQueries (doc : Json F) (records : List (String × Bool)) (maxRecords : ℤ) (exclude : Option String) (maxBytes : Option ℤ)
    (respond : List String → Answer) : Except String (List Passed) := do
  let strict ← strictlyValidateIntent wiki.texts doc
  let slots ← validateIntent wiki.texts strict
  let lookup ← normalizeIntent wiki slots
  return queryKernel lookup records maxRecords exclude maxBytes respond

/-! ### What is passed -/

/-- The vector is the flags of what a stage chose, and at least one record is asked for. -/
def Passed.Made (passed : Passed) : Prop := passed.argv = passed.chosen.flags ∧ 1 ≤ passed.chosen.limit

theorem query_made {lane : Lane} {stage : Stage} {progress : Progress} {dsl : Option String}
    (made : ∀ passed ∈ progress.passed, passed.Made) : ∀ passed ∈ (lane.query stage progress dsl).passed, passed.Made := by
  have asked : ∀ passed ∈ progress.passed ++ [⟨lane.selects stage progress dsl, (lane.selects stage progress dsl).flags⟩], passed.Made := by
    intro passed member
    rcases List.mem_append.mp member with before | last
    · exact made passed before
    · rw [List.mem_singleton.mp last]
      exact ⟨rfl, le_max_left _ _⟩
  unfold Lane.query
  dsimp only
  split
  · exact made
  · split
    · exact asked
    · exact asked

theorem stage_made {lane : Lane} {stage : Stage} {dsls : List (Option String)} {progress : Progress}
    (made : ∀ passed ∈ progress.passed, passed.Made) : ∀ passed ∈ (lane.stage stage dsls progress).passed, passed.Made := by
  induction dsls generalizing progress with
  | nil => exact made
  | cons dsl rest ih =>
      rw [Lane.stage]
      split
      · exact made
      · exact ih (query_made made)

theorem queryKernelSingle_made (lane : Lane) (records : List (String × Bool)) :
    ∀ passed ∈ (queryKernelSingle lane records).passed, passed.Made := by
  unfold queryKernelSingle
  dsimp only
  generalize stages lane.lookup lane.scope = run
  have begun : ∀ passed ∈ (⟨records, [], [], false⟩ : Progress).passed, passed.Made := fun passed member => absurd member List.not_mem_nil
  generalize (⟨records, [], [], false⟩ : Progress) = progress at begun
  induction run generalizing progress with
  | nil => exact begun
  | cons stage run ih => exact ih _ (stage_made begun)

theorem queryKernel_made (lookup : Lookup) (records : List (String × Bool)) (maxRecords : ℤ) (exclude : Option String) (maxBytes : Option ℤ)
    (respond : List String → Answer) : ∀ passed ∈ queryKernel lookup records maxRecords exclude maxBytes respond, passed.Made := by
  unfold queryKernel
  dsimp only
  split
  · exact fun passed member => absurd member List.not_mem_nil
  · split
    · exact queryKernelSingle_made _ records
    · intro passed member
      obtain ⟨lane, _, inside⟩ := List.mem_flatMap.mp member
      exact queryKernelSingle_made _ [] passed inside

end AtrexAgent.Intent
