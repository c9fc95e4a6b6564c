import AtrexAgent.Library.Binary64
import AtrexAgent.Library.Items
import AtrexAgent.Library.Warmup

/-! Operator names on the scopes of the record store: declared spellings first, then a vote of the corpus, which is loaded when
it is first needed. -/

namespace AtrexAgent.ScopeResolver

open AtrexAgent.Binary64

def MAX_JOIN_LENGTH : ℕ := 4

def MIN_TOKEN_LENGTH : ℕ := 3

def VOTE_MARGIN : ℚ := 1.5

def PHRASE_WEIGHT : ℚ := 2.5

def MAX_CORPUS_DOCUMENTS : ℕ := 10000

def MAX_CORPUS_TEXT_BYTES : ℕ := 64 * 1024 * 1024

def NOISE : List String :=
  ["fused", "fusion", "kernel", "kernels", "op", "ops", "operator", "fwd", "bwd", "forward", "backward", "fp8", "fp16", "fp32",
    "bf16", "fp4", "nvfp4", "mxfp4", "int8", "int4", "e4m3", "e5m2", "v1", "v2", "v3", "dynamic", "static", "batched", "quantized"]

inductive Axis where
  | operator | family
  deriving DecidableEq

inductive Role where
  | primary | component | related
  deriving DecidableEq

inductive Confidence where
  | declared | direct | voted
  deriving DecidableEq

/-- One independent lane of the store. -/
structure OperatorScope where
  role : Role
  axis : Axis
  value : String
  confidence : Confidence
  sourceTerm : String
  deriving DecidableEq

/-- Text methods of the language, and the functions of `math` that no format fixes. -/
structure Builtins where
  strip : String → String
  lower : String → String
  log1p : ℚ → ℚ
  sqrt : ℚ → ℚ

/-- `RELATION_GROUPS` -/
def RELATION_GROUPS : List (List String × List (Axis × String)) :=
  [(["gdn", "gated delta net", "gated delta rule"],
    [(.operator, "gdn"), (.family, "gdn"), (.family, "mamba"), (.family, "conv")])]

def DECLARED_SCOPE_ALIASES : List (String × (Axis × String)) :=
  [("causal conv1d", (.family, "conv")), ("causal_conv1d", (.family, "conv")), ("causal conv1d update", (.family, "conv")),
    ("causal_conv1d_update", (.family, "conv"))]

/-! ### Spellings -/

def isPlain (c : Char) : Bool := ('a' ≤ c ∧ c ≤ 'z') ∨ ('0' ≤ c ∧ c ≤ '9')

def isUpper (c : Char) : Bool := 'A' ≤ c ∧ c ≤ 'Z'

variable (builtins : Builtins)

def fold (value : String) : String := String.ofList ((builtins.lower (builtins.strip value)).toList.filter isPlain)

/-- An underscore before an upper letter that follows a lower one or a digit. -/
def separated : List Char → List Char
  | a :: b :: rest => if isPlain a ∧ isUpper b then a :: '_' :: separated (b :: rest) else a :: separated (b :: rest)
  | rest => rest

/-- The longest runs of characters that satisfy `keep`. -/
def runs (keep : Char → Bool) (text : List Char) : List String :=
  ((text.splitBy fun a b => keep a = keep b).filter fun run => run.any keep).map String.ofList

def tokensOf (name : String) : List String :=
  runs (fun c => isPlain c || isUpper c) (builtins.lower (String.ofList (separated name.toList))).toList

/-- Adjacent tokens joined, longer ones first. -/
def joinsOf (parts : List String) : List (List String) :=
  ((List.range (min MAX_JOIN_LENGTH parts.length)).reverse.map (· + 1)).flatMap fun size =>
    (List.range (parts.length - size + 1)).map fun start => (parts.drop start).take size

def candidates (parts : List String) : List String := (joinsOf parts).map (String.intercalate "-")

/-- Which lengths known decorations reach from the start, in the order of the loop. -/
def reachable (decorations : List String) (value : List Char) : List ℕ :=
  (List.range (value.length + 1)).foldl (fun reached start =>
    if start ∈ reached then
      reached ++ (decorations.filter fun decoration => decoration.toList.isPrefixOf (value.drop start)).map (start + ·.length)
    else reached) [0]

def isNoiseSequence (value : List Char) : Bool :=
  value.isEmpty || decide (value.length ∈ reachable (NOISE.map (fold builtins)) value)

/-! ### Resolver -/

/-- `{fold(value): value for value in values if value}` -/
def tableOf (values : List String) : List (String × String) :=
  (values.filter (· ≠ "")).foldl (fun table value => Items.set table (fold builtins value) value) []

structure Resolver where
  builtins : Builtins
  operators : List (String × String)
  families : List (String × String)

def resolverOf (operators families : List String) : Resolver := ⟨builtins, tableOf builtins operators, tableOf builtins families⟩

variable (resolver : Resolver)

def Resolver.fold (value : String) : String := ScopeResolver.fold resolver.builtins value

def Resolver.known (axis : Axis) (value : String) : Bool :=
  (Items.get? (match axis with
    | .operator => resolver.operators
    | .family => resolver.families) (resolver.fold value)).isSome

def Resolver.relations : List (String × List (Axis × String)) :=
  RELATION_GROUPS.foldl (fun table group => group.1.foldl (fun table alias_ => Items.set table (resolver.fold alias_) group.2) table) []

def Resolver.scopeAliases : List (String × (Axis × String)) :=
  DECLARED_SCOPE_ALIASES.foldl (fun table item => Items.set table (resolver.fold item.1) item.2) []

/-- A scope of the vocabulary with this key; an operator comes before a family. -/
def Resolver.keyed (key : String) (role : Role) (term : String) : Option OperatorScope :=
  match Items.get? resolver.operators key with
  | some value => some ⟨role, .operator, value, .direct, term⟩
  | none => (Items.get? resolver.families key).map fun value => ⟨role, .family, value, .direct, term⟩

def Resolver.declared (whole : String) (role : Role) (term : String) : Option OperatorScope :=
  ((Items.get? resolver.scopeAliases whole).filter fun scope => resolver.known scope.1 scope.2).map fun scope =>
    ⟨role, scope.1, scope.2, .declared, term⟩

/-- Where a key of the vocabulary stands in a text with nothing but decorations around it. -/
def Resolver.decorated (whole : List Char) (axis : Axis) (table : List (String × String)) : List (String × Axis × String) :=
  table.flatMap fun (key, value) =>
    if key.length < MIN_TOKEN_LENGTH then []
    else (List.range (whole.length + 1)).filterMap fun start =>
      if key.toList.isPrefixOf (whole.drop start) ∧ isNoiseSequence resolver.builtins (whole.take start) = true ∧
          isNoiseSequence resolver.builtins (whole.drop (start + key.length)) = true then some (key, axis, value) else none

def Resolver.resolveDecorated (whole : String) (role : Role) (term : String) : Option OperatorScope :=
  let found := resolver.decorated whole.toList .operator resolver.operators ++ resolver.decorated whole.toList .family resolver.families
  let longest := (found.map (·.1.length)).foldl max 0
  let kept := found.filter (·.1.length = longest)
  if (kept.map Prod.fst).dedup.length = 1 then
    ((kept.find? (·.2.1 = .operator)).or kept.head?).map fun selected => ⟨role, selected.2.1, selected.2.2, .direct, term⟩
  else none

/-! ### Corpus -/

/-- What the loader yields, and how it ends. -/
structure Corpus where
  documents : List (String × String)
  failure : Option String

structure Document where
  family : String
  text : String
  words : List String

/-- The tables that a resolver fills when it first votes. -/
structure State where
  documents : Option (List Document)
  documentTextBytes : ℕ
  familySize : List (String × ℕ)
  documentFrequency : List (String × ℕ)

def State.initial : State := ⟨none, 0, [], []⟩

def increment (counts : List (String × ℕ)) (key : String) : List (String × ℕ) :=
  Items.set counts key ((Items.get? counts key).getD 0 + 1)

def budgetMessage : String :=
  s!"operator corpus exceeds the in-process vote budget ({MAX_CORPUS_DOCUMENTS} documents or {MAX_CORPUS_TEXT_BYTES} bytes); " ++
    "use a structured operator scope or raise the reviewed limit"

/-- The documents counted so far, with the text of the next one. -/
def State.exceeds (state : State) (text : String) : Prop :=
  MAX_CORPUS_DOCUMENTS ≤ (state.documents.getD []).length ∨ MAX_CORPUS_TEXT_BYTES < state.documentTextBytes + text.utf8ByteSize

instance (state : State) (text : String) : Decidable (state.exceeds text) := inferInstanceAs (Decidable (_ ∨ _))

def State.count (state : State) (family text : String) : State :=
  let words := (runs isPlain text.toList).dedup
  ⟨some (state.documents.getD [] ++ [⟨family, text, words⟩]), state.documentTextBytes + text.utf8ByteSize,
    increment state.familySize family, words.foldl increment state.documentFrequency⟩

/-- The loop of `_ensure_documents`. -/
def loadDocuments (failure : Option String) (state : State) : List (String × String) → Except String Unit × State
  | [] => match failure with
    | some message => (.error message, state)
    | none => (.ok (), state)
  | (family, text) :: rest =>
      if state.exceeds text then (.error budgetMessage, state) else loadDocuments failure (state.count family text) rest

def ensureDocuments (corpus : Corpus) (state : State) : Except String Unit × State :=
  if state.documents.isSome then (.ok (), state)
  else loadDocuments corpus.failure { state with documents := some [] } corpus.documents

/-! ### Vote -/

def voteTerms (tokens : List String) : List String := tokens.filter fun token => MIN_TOKEN_LENGTH ≤ token.length ∧ token ∉ NOISE

variable (state : State) (documents : List Document)

/-- `math.log1p(total_documents / (1 + frequency))` -/
def rarity (total : ℕ) (word : String) : ℚ :=
  builtins.log1p (nearest (total / (1 + (Items.get? state.documentFrequency word).getD 0 : ℕ)))

def phrasesOf (tokens : List String) : List (List String) :=
  (joinsOf tokens).filter fun parts => 1 < parts.length ∧ ∀ part ∈ parts, part ∉ NOISE

def documentScore (terms : List String) (phrases : List (List String)) (document : Document) : ℚ :=
  let byTerm := terms.foldl (fun score term =>
    if term ∈ document.words then nearest (score + rarity builtins state documents.length term) else score) 0
  phrases.foldl (fun score parts =>
    if (String.intercalate " " parts).toList <:+: document.text.toList then
      let least := (parts.map (rarity builtins state documents.length)).min?.getD 0
      nearest (score + nearest (PHRASE_WEIGHT * least))
    else score) byTerm

def familyScores (terms : List String) (phrases : List (List String)) : List (String × ℚ) :=
  documents.foldl (fun scores document =>
    let score := documentScore builtins state documents terms phrases document
    if score = 0 then scores
    else Items.set scores document.family (nearest ((Items.get? scores document.family).getD 0 + score))) []

/-- The family that the loaded documents choose. -/
def ballot (tokens : List String) : Option String :=
  let scores := familyScores builtins state documents (voteTerms tokens) (phrasesOf tokens)
  let ranked := (scores.map fun (family, score) =>
    (nearest (score / builtins.sqrt ((Items.get? state.familySize family).getD 0 : ℕ)), family)).mergeSort fun a b =>
      decide (b.1 < a.1 ∨ b.1 = a.1 ∧ b.2 ≤ a.2)
  match ranked with
  | [] => none
  | (best, family) :: others =>
      let runnerUp := (others.head?.map Prod.fst).getD 0
      if runnerUp ≠ 0 ∧ best < nearest (VOTE_MARGIN * runnerUp) then none else some family

def vote (corpus : Corpus) (state : State) (tokens : List String) : Except String (Option String) × State :=
  if voteTerms tokens = [] then (.ok none, state)
  else match ensureDocuments corpus state with
    | (.error message, state) => (.error message, state)
    | (.ok (), state) => match state.documents.getD [] with
      | [] => (.ok none, state)
      | documents => (.ok (ballot builtins state documents tokens), state)

/-! ### Calls -/

/-- What a term resolves to without a vote: a scope, or nothing where there is nothing to vote on. -/
def Resolver.named (term : String) (role : Role) : Option (Option OperatorScope) :=
  let whole := resolver.fold term
  let tokens := tokensOf resolver.builtins term
  match (resolver.keyed whole role term).or (resolver.declared whole role term) with
  | some scope => some (some scope)
  | none =>
      if tokens = [] then some none
      else match (candidates tokens).findSome? fun candidate => resolver.keyed (resolver.fold candidate) role term with
        | some scope => some (some scope)
        | none => (resolver.resolveDecorated whole role term).map some

def Resolver.resolve (corpus : Corpus) (state : State) (term : String) (role : Role) : Except String (Option OperatorScope) × State :=
  match resolver.named term role with
  | some found => (.ok found, state)
  | none => match vote resolver.builtins corpus state (tokensOf resolver.builtins term) with
    | (.error message, state) => (.error message, state)
    | (.ok family, state) => (.ok (family.map fun family => ⟨role, .family, family, .voted, term⟩), state)

structure Gathered where
  scopes : List OperatorScope
  unresolved : List String
  seen : List (Axis × String)

/-- `add(scope)` -/
def Gathered.add (gathered : Gathered) (limit : ℤ) (scope : OperatorScope) : Gathered :=
  if (scope.axis, scope.value) ∉ gathered.seen ∧ gathered.scopes.length < limit then
    { gathered with
      seen := gathered.seen ++ [(scope.axis, scope.value)]
      scopes := gathered.scopes ++ [scope] }
  else gathered

/-- The same token on the other axis, as a lane of its own. -/
def Resolver.twin (scope : OperatorScope) (term : String) : Option OperatorScope :=
  match scope.axis with
  | .operator => (Items.get? resolver.families (resolver.fold scope.value)).map fun value => ⟨.related, .family, value, .direct, term⟩
  | .family => (Items.get? resolver.operators (resolver.fold scope.value)).map fun value => ⟨.related, .operator, value, .direct, term⟩

/-- What `resolve_many` does with a term once it is resolved. -/
def Resolver.collect (limit : ℤ) (term : String) (resolved : Option OperatorScope) (gathered : Gathered) : Gathered :=
  let gathered := match resolved with
    | some scope => (resolver.twin scope term).toList.foldl (·.add limit) (gathered.add limit scope)
    | none => gathered
  match Items.get? resolver.relations (resolver.fold term) with
  | some scopes => (scopes.filter fun scope => resolver.known scope.1 scope.2).foldl
      (fun gathered scope => gathered.add limit ⟨.related, scope.1, scope.2, .declared, term⟩) gathered
  | none => if resolved.isNone then { gathered with unresolved := gathered.unresolved ++ [term] } else gathered

def Resolver.gather (corpus : Corpus) (limit : ℤ) : List (Role × String) → Gathered → State → Except String Gathered × State
  | [], gathered, state => (.ok gathered, state)
  | (role, raw) :: rest, gathered, state =>
      let term := resolver.builtins.strip raw
      if term = "" then Resolver.gather corpus limit rest gathered state
      else match resolver.resolve corpus state term role with
        | (.error message, state) => (.error message, state)
        | (.ok resolved, state) => Resolver.gather corpus limit rest (resolver.collect limit term resolved gathered) state

def roleTerms (primaryTerms componentTerms : List String) : List (Role × String) :=
  primaryTerms.map (Role.primary, ·) ++ componentTerms.map (Role.component, ·)

inductive Call where
  | resolve (term : String) (role : Role)
  | resolveMany (primaryTerms componentTerms : List String) (limit : ℤ)

inductive Outcome where
  | error (message : String)
  | scope (found : Option OperatorScope)
  | scopes (found : List OperatorScope) (unresolved : List String)

def Resolver.call (corpus : Corpus) (state : State) : Call → Outcome × State
  | .resolve term role => match resolver.resolve corpus state term role with
    | (.error message, state) => (.error message, state)
    | (.ok found, state) => (.scope found, state)
  | .resolveMany primaryTerms componentTerms limit =>
      match resolver.gather corpus limit (roleTerms primaryTerms componentTerms) ⟨[], [], []⟩ state with
      | (.error message, state) => (.error message, state)
      | (.ok gathered, state) => (.scopes gathered.scopes gathered.unresolved, state)

/-- The outcomes of calls on one resolver. -/
def Resolver.run (corpus : Corpus) (calls : List Call) : List Outcome := Warmup.answers (resolver.call corpus) State.initial calls

/-- What a fresh resolver over the same store answers. -/
def Resolver.fresh (corpus : Corpus) (call : Call) : Outcome := (resolver.call corpus State.initial call).1

end AtrexAgent.ScopeResolver
