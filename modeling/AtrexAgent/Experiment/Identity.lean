import AtrexAgent.Core.Equality
import AtrexAgent.Library.Traversal

/-! The identity of the correctness that an evaluation shows: its request without what only its
timings depend on. -/

namespace AtrexAgent.Records

open AtrexAgent.Json
open AtrexAgent.Schema

variable {F : Type} (floats : Floats F)

def CORRECTNESS_CASES : Int := 6

inductive Raised
  | type
  | attribute
  | value (message : String)

/-! ### Words of a command -/

/-- `word.split("=", 1)[0]` -/
def flag (word : String) : String := String.ofList (word.toList.takeWhile (· ≠ '='))

/-- `"=" in word` -/
def joined (word : String) : Bool := word.toList.contains '='

def timing (word : String) : Bool := flag word = "--multi-seed" || flag word = "--timed-runs"

/-- The loop over the arguments: those that are left, or `none` at a `--shape-id`. -/
def normalize : List (Json F) → Except Raised (Option (List String))
  | [] => pure (some [])
  | [.str word] =>
      if flag word = "--shape-id" then pure none
      else if timing word then pure (some [])
      else pure (some [word])
  | .str word :: value :: rest =>
      if flag word = "--shape-id" then pure none
      else if timing word then
        if joined word then normalize (value :: rest) else normalize rest
      else do
        let left ← normalize (value :: rest)
        pure (left.map (word :: ·))
  | _ => throw .attribute

/-- `option_values` of a command of several words. -/
def optionValues (name : String) : List String → Except Raised (List String)
  | [] => pure []
  | [token] =>
      if token = name then throw (.value (name ++ " requires a value"))
      else if (name ++ "=").toList.isPrefixOf token.toList then
        pure [String.ofList (token.toList.drop (name ++ "=").length)]
      else pure []
  | token :: value :: rest => do
      let later ← optionValues name (value :: rest)
      if token = name then pure (value :: later)
      else if (name ++ "=").toList.isPrefixOf token.toList then
        pure (String.ofList (token.toList.drop (name ++ "=").length) :: later)
      else pure later

/-! ### Requests -/

/-- `dict(request.get(key, {}))` -/
def dictAt (request : Dict F) (key : String) : Except Raised (Dict F) :=
  match find? request key with
  | none => pure []
  | some (.obj items) => pure items
  | some _ => throw .type

/-- `value not in {"full", "correctness_only"}`, of a value with a hash. -/
def standardMode : Json F → Except Raised Bool
  | .str mode => pure (mode = "full" || mode = "correctness_only")
  | .arr _ => throw .type
  | .obj _ => throw .type
  | _ => pure false

/-- The arguments after the canonical entry point. -/
def canonicalArguments : Json F → Except Raised (Option (List (Json F)))
  | .arr (.str "python3" :: .str "test_kernel.py" :: arguments) => pure (some arguments)
  | .arr _ => pure none
  | .str _ => pure none
  | _ => throw .type

/-- `d.pop(key, None)` -/
def pop (d : Dict F) (key : String) : Dict F := d.filter fun item => item.1 ≠ key

/-- The options of the identity. -/
def identityOptions (options policy : Dict F) (left : List String) : Dict F :=
  set (pop (set options "command" (.arr (("python3" :: "test_kernel.py" :: left).map .str)))
    "evaluation_mode") "evaluation_policy" (.obj (pop policy "mode"))

def identityOf (request options policy supervisor : Dict F) (left : List String) : Dict F :=
  set (set request "options" (.obj (identityOptions options policy left))) "supervisor_policy"
    (.obj (pop supervisor "repetitions"))

def correctnessIdentity (request : Dict F) : Except Raised (Option (Dict F)) := do
  if isStr "evaluate" (get request "operation") = false then pure none
  else
    let options ← dictAt request "options"
    match get options "evaluation_policy" with
    | .obj policy =>
        if equal floats (get policy "schema_version") (.int 1) = false ∨
            equal floats (get policy "num_correctness_cases") (.int CORRECTNESS_CASES) = false then
          pure none
        else
          let standard ← standardMode (get policy "mode")
          if standard = false ∨ truthy floats (get options "evaluation_input_path") = true ∨
              truthy floats (get options "evaluation_shapes_path") = true then pure none
          else
            match ← canonicalArguments ((find? options "command").getD (.arr [])) with
            | none => pure none
            | some arguments =>
                match ← normalize arguments with
                | none => pure none
                | some left =>
                    let supervisor ← dictAt request "supervisor_policy"
                    pure (some (identityOf request options policy supervisor left))
    | _ => pure none

/-! ### What the identity leaves out -/

/-- What is left of arguments without the timing options and their values. -/
inductive Words : List (Json F) → List String → Prop
  | nil : Words [] []
  | joined {word : String} {rest : List (Json F)} {left : List String} : timing word = true →
      joined word = true → Words rest left → Words (.str word :: rest) left
  | separate {word : String} {value : Json F} {rest : List (Json F)} {left : List String} :
      timing word = true → joined word = false → Words rest left →
      Words (.str word :: value :: rest) left
  | last {word : String} : timing word = true → joined word = false → Words [.str word] []
  | other {word : String} {rest : List (Json F)} {left : List String} : timing word = false →
      Words rest left → Words (.str word :: rest) (word :: left)

def SameUntimed (arguments arguments' : List (Json F)) : Prop :=
  ∃ left, Words arguments left ∧ Words arguments' left

theorem timing_not_shape {word : String} (shape : flag word = "--shape-id") : timing word = false := by
  simp [timing, shape]

theorem normalize_ok {arguments : List (Json F)} {left : List String} :
    normalize arguments = .ok (some left) ↔
      Words arguments left ∧ ∀ word ∈ left, flag word ≠ "--shape-id" := by
  constructor
  · intro done
    induction arguments using normalize.induct generalizing left with
    | case1 =>
        cases done
        exact ⟨.nil, by simp⟩
    | case2 word shape =>
        rw [normalize, if_pos shape] at done
        cases done
    | case3 word other timed =>
        rw [normalize, if_neg other, if_pos timed] at done
        cases done
        cases split : joined word with
        | true => exact ⟨.joined timed split .nil, by simp⟩
        | false => exact ⟨.last timed split, by simp⟩
    | case4 word other untimed =>
        rw [normalize, if_neg other, if_neg untimed] at done
        cases done
        exact ⟨.other (Bool.not_eq_true _ ▸ untimed) .nil, by simpa using other⟩
    | case5 word value rest shape =>
        rw [normalize, if_pos shape] at done
        cases done
    | case6 word value rest other timed split ih =>
        rw [normalize, if_neg other, if_pos timed, if_pos split] at done
        obtain ⟨words, clean⟩ := ih done
        exact ⟨.joined timed split words, clean⟩
    | case7 word value rest other timed split ih =>
        rw [normalize, if_neg other, if_pos timed, if_neg split] at done
        obtain ⟨words, clean⟩ := ih done
        exact ⟨.separate timed (Bool.not_eq_true _ ▸ split) words, clean⟩
    | case8 word value rest other untimed ih =>
        rw [normalize, if_neg other, if_neg untimed] at done
        obtain ⟨found, here, done⟩ := (bind_ok_iff _ _ _).mp done
        cases found with
        | none => cases done
        | some later =>
            cases done
            obtain ⟨words, clean⟩ := ih here
            exact ⟨.other (Bool.not_eq_true _ ▸ untimed) words, List.forall_mem_cons.mpr ⟨other, clean⟩⟩
    | case9 arguments empty single several =>
        rw [normalize] at done
        · cases done
        · exact empty
        · exact single
        · exact several
  · rintro ⟨words, clean⟩
    have apart : ∀ word, timing word = true → flag word ≠ "--shape-id" := by
      intro word timed shape
      rw [timing_not_shape shape] at timed
      cases timed
    induction words with
    | nil => rfl
    | @joined word rest left timed split _ ih =>
        cases rest with
        | nil =>
            have done := ih clean
            cases done
            rw [normalize, if_neg (apart word timed), if_pos timed]
            rfl
        | cons value rest =>
            rw [normalize, if_neg (apart word timed), if_pos timed, if_pos split]
            exact ih clean
    | @separate word value rest left timed split _ ih =>
        rw [normalize, if_neg (apart word timed), if_pos timed, if_neg (by simp [split])]
        exact ih clean
    | @last word timed split =>
        rw [normalize, if_neg (apart word timed), if_pos timed]
        rfl
    | @other word rest left untimed _ ih =>
        rw [List.forall_mem_cons] at clean
        have done := ih clean.2
        cases rest with
        | nil =>
            cases done
            rw [normalize, if_neg clean.1, if_neg (by simp [untimed])]
            rfl
        | cons value rest =>
            rw [normalize, if_neg clean.1, if_neg (by simp [untimed]), done]
            rfl

theorem Words.unique {arguments : List (Json F)} {left left' : List String}
    (words : Words arguments left) (words' : Words arguments left') : left = left' := by
  induction words generalizing left' with
  | nil =>
      cases words'
      rfl
  | joined timed split _ ih =>
      cases words' with
      | joined _ _ later => exact ih later
      | separate _ whole _ => simp [split] at whole
      | last _ whole => simp [split] at whole
      | other untimed _ => simp [timed] at untimed
  | separate timed whole _ ih =>
      cases words' with
      | joined _ split _ => simp [whole] at split
      | separate _ _ later => exact ih later
      | other untimed _ => simp [timed] at untimed
  | last timed whole =>
      cases words' with
      | joined _ split _ => simp [whole] at split
      | last _ _ => rfl
      | other untimed _ => simp [timed] at untimed
  | other untimed _ ih =>
      cases words' with
      | joined timed _ _ => simp [untimed] at timed
      | separate timed _ _ => simp [untimed] at timed
      | last timed _ => simp [untimed] at timed
      | other _ later => rw [ih later]

/-- The dict of a request: no key twice in any object of it. -/
structure Request (F : Type) where
  fields : Dict F
  distinct : Distinct (.obj fields)

namespace Request

variable (request : Request F)

def options : Dict F := membersOf (get request.fields "options")

def policy : Dict F := membersOf (get request.options "evaluation_policy")

def supervisor : Dict F := membersOf (get request.fields "supervisor_policy")

/-- The words after `python3 test_kernel.py`. -/
def arguments : List (Json F) := (itemsOf (get request.options "command")).drop 2

end Request

/-- Two requests agree on everything but the evaluation mode, the timing options and the repetitions
of the supervisor. -/
structure SameCorrectness (floats : Floats F) (r r' : Request F) : Prop where
  fields : ∀ key, key ≠ "options" → key ≠ "supervisor_policy" →
    SameAt floats r.fields r'.fields key
  options : ∀ key, key ≠ "command" → key ≠ "evaluation_mode" → key ≠ "evaluation_policy" →
    SameAt floats r.options r'.options key
  policy : ∀ key, key ≠ "mode" → SameAt floats r.policy r'.policy key
  supervisor : ∀ key, key ≠ "repetitions" → SameAt floats r.supervisor r'.supervisor key
  arguments : SameUntimed r.arguments r'.arguments

theorem find?_pop (d : Dict F) (key other : String) :
    find? (pop d key) other = if other = key then none else find? d other := by
  induction d with
  | nil => simp [pop]
  | cons item rest ih =>
      unfold pop at ih ⊢
      by_cases removed : item.1 = key
      · rw [List.filter_cons_of_neg (by simpa using removed), ih, find?_cons]
        by_cases same : other = key
        · rw [if_pos same, if_pos same]
        · rw [if_neg same, if_neg same, if_neg (fun h => same (h.symm.trans removed))]
      · rw [List.filter_cons_of_pos (by simpa using removed), find?_cons, find?_cons, ih]
        by_cases here : item.1 = other
        · rw [if_pos here, if_pos here, if_neg (fun h => removed (here.trans h))]
        · rw [if_neg here, if_neg here]

theorem keys_pop {d : Dict F} (distinct : (d.map Prod.fst).Nodup) (key : String) :
    ((pop d key).map Prod.fst).Nodup :=
  distinct.sublist (List.filter_sublist.map Prod.fst)

variable {floats}

namespace Request

variable (request : Request F)

theorem options_distinct : Distinct (.obj request.options) :=
  distinct_membersOf (distinct_get request.distinct _)

theorem policy_distinct : Distinct (.obj request.policy) :=
  distinct_membersOf (distinct_get request.options_distinct _)

theorem supervisor_distinct : Distinct (.obj request.supervisor) :=
  distinct_membersOf (distinct_get request.distinct _)

end Request

/-- What a request is, apart from its arguments, where it has an identity. -/
structure Standard (floats : Floats F) (request : Request F) : Prop where
  operation : get request.fields "operation" = .str "evaluate"
  options : ∃ options, dictAt request.fields "options" = .ok options
  policy : get request.options "evaluation_policy" = .obj request.policy
  version : equal floats (get request.policy "schema_version") (.int 1) = true
  cases : equal floats (get request.policy "num_correctness_cases") (.int CORRECTNESS_CASES) = true
  mode : standardMode (get request.policy "mode") = .ok true
  input : truthy floats (get request.options "evaluation_input_path") = false
  shapes : truthy floats (get request.options "evaluation_shapes_path") = false
  command : canonicalArguments ((find? request.options "command").getD (.arr [])) =
    .ok (some request.arguments)
  supervisor : ∃ supervisor, dictAt request.fields "supervisor_policy" = .ok supervisor

theorem dictAt_ok {fields items : Dict F} {key : String} (read : dictAt fields key = .ok items) :
    items = membersOf (get fields key) := by
  unfold dictAt at read
  unfold Json.get
  split at read
  · next absent =>
    rw [absent]
    cases read
    rfl
  · next items' found =>
    rw [found]
    cases read
    rfl
  · cases read

theorem canonicalArguments_ok {command : Json F} {arguments : List (Json F)}
    (read : canonicalArguments command = .ok (some arguments)) :
    command = .arr (.str "python3" :: .str "test_kernel.py" :: arguments) := by
  unfold canonicalArguments at read
  split at read
  · cases read
    rfl
  · cases read
  · cases read
  · cases read

theorem correctnessIdentity_some {request : Request F} {identity : Dict F} :
    correctnessIdentity floats request.fields = .ok (some identity) ↔
      Standard floats request ∧ ∃ left, normalize request.arguments = .ok (some left) ∧
        identity = identityOf request.fields request.options request.policy request.supervisor left := by
  constructor
  · intro made
    unfold correctnessIdentity at made
    split at made
    · cases made
    next operation =>
    obtain ⟨options, readOptions, made⟩ := (bind_ok_iff _ _ _).mp made
    obtain rfl : options = request.options := dictAt_ok readOptions
    split at made
    swap
    · cases made
    next policy isPolicy =>
    obtain rfl : policy = request.policy := by
      unfold Request.policy
      rw [isPolicy]
      rfl
    split at made
    · cases made
    next numbers =>
    rw [not_or, Bool.not_eq_false, Bool.not_eq_false] at numbers
    obtain ⟨standard, mode, made⟩ := (bind_ok_iff _ _ _).mp made
    split at made
    · cases made
    next clean =>
    rw [not_or, not_or, Bool.not_eq_false, Bool.not_eq_true, Bool.not_eq_true] at clean
    obtain ⟨found, canonical, made⟩ := (bind_ok_iff _ _ _).mp made
    cases found with
    | none => cases made
    | some arguments =>
        obtain rfl : arguments = request.arguments := by
          have command := canonicalArguments_ok canonical
          unfold Request.arguments Json.get
          cases held : find? request.options "command" with
          | none =>
              rw [held] at command
              cases command
          | some value =>
              rw [held] at command
              change value = _ at command
              rw [command]
              rfl
        obtain ⟨found, normal, made⟩ := (bind_ok_iff _ _ _).mp made
        cases found with
        | none => cases made
        | some left =>
            obtain ⟨supervisor, readSupervisor, made⟩ := (bind_ok_iff _ _ _).mp made
            obtain rfl : supervisor = request.supervisor := dictAt_ok readSupervisor
            cases made
            refine ⟨⟨by simpa using operation, ⟨_, readOptions⟩, isPolicy, numbers.1, numbers.2, ?_,
              clean.2.1, clean.2.2, canonical, ⟨_, readSupervisor⟩⟩, left, normal, rfl⟩
            rw [clean.1] at mode
            exact mode
  · rintro ⟨standard, left, normal, rfl⟩
    obtain ⟨options, readOptions⟩ := standard.options
    obtain ⟨supervisor, readSupervisor⟩ := standard.supervisor
    obtain rfl : options = request.options := dictAt_ok readOptions
    obtain rfl : supervisor = request.supervisor := dictAt_ok readSupervisor
    unfold correctnessIdentity
    rw [if_neg (by simp [standard.operation]), readOptions]
    change (match get request.options "evaluation_policy" with | .obj policy => _ | _ => _) = _
    rw [standard.policy]
    dsimp only
    rw [if_neg (by simp [standard.version, standard.cases]), standard.mode]
    change (if _ then _ else _) = _
    rw [if_neg (by simp [standard.input, standard.shapes]), standard.command]
    change (normalize request.arguments >>= _) = _
    rw [normal]
    change (dictAt request.fields "supervisor_policy" >>= _) = _
    rw [readSupervisor]
    rfl

theorem sameAt_pop {a b : Dict F} {key other : String} :
    SameAt floats (pop a key) (pop b key) other ↔ (other ≠ key → SameAt floats a b other) := by
  unfold SameAt
  rw [find?_pop, find?_pop]
  by_cases same : other = key
  · simp [same]
  · simp [same]

theorem sameAt_set {a b : Dict F} {key other : String} {value value' : Json F} :
    SameAt floats (set a key value) (set b key value') other ↔
      (other = key → equal floats value value' = true) ∧
        (other ≠ key → SameAt floats a b other) := by
  unfold SameAt
  rw [find?_set, find?_set]
  by_cases same : other = key
  · simp [same]
  · simp [same]

/-- The values written at a key are equal, and the rest agrees. -/
theorem same_set_iff {a b : Dict F} {key : String} {value value' : Json F} :
    (∀ other, SameAt floats (set a key value) (set b key value') other) ↔
      equal floats value value' = true ∧ ∀ other, other ≠ key → SameAt floats a b other := by
  simp only [sameAt_set]
  constructor
  · intro each
    exact ⟨(each key).1 rfl, fun other => (each other).2⟩
  · rintro ⟨here, rest⟩ other
    exact ⟨fun _ => here, rest other⟩

theorem identityOptions_iff {options options' policy policy' : Dict F} {left left' : List String}
    (distinct : (options.map Prod.fst).Nodup) (distinct' : (options'.map Prod.fst).Nodup)
    (keys : (policy.map Prod.fst).Nodup) (keys' : (policy'.map Prod.fst).Nodup) :
    equal floats (.obj (identityOptions options policy left))
        (.obj (identityOptions options' policy' left')) = true ↔
      left = left' ∧ (∀ key, key ≠ "mode" → SameAt floats policy policy' key) ∧
        ∀ key, key ≠ "command" → key ≠ "evaluation_mode" → key ≠ "evaluation_policy" →
          SameAt floats options options' key := by
  unfold identityOptions
  rw [equal_obj_iff (keys_set _ _ _ (keys_pop (keys_set _ _ _ distinct) _))
    (keys_set _ _ _ (keys_pop (keys_set _ _ _ distinct') _)), same_set_iff,
    equal_obj_iff (keys_pop keys _) (keys_pop keys' _)]
  simp only [sameAt_pop, sameAt_set, equal_strs]
  constructor
  · rintro ⟨policies, options⟩
    have commands := (options "command" (by decide) (by decide)).1 rfl
    refine ⟨by simpa using commands, policies, ?_⟩
    intro key command mode policy
    exact (options key policy mode).2 command
  · rintro ⟨rfl, policies, options⟩
    refine ⟨policies, fun key policy mode => ⟨fun _ => rfl, fun command => ?_⟩⟩
    exact options key command mode policy

/-- The identity is equal where everything but the timing is, at every request that has one. -/
theorem identity_eq_iff {r r' : Request F} {identity identity' : Dict F}
    (made : correctnessIdentity floats r.fields = .ok (some identity))
    (made' : correctnessIdentity floats r'.fields = .ok (some identity')) :
    equal floats (.obj identity) (.obj identity') = true ↔ SameCorrectness floats r r' := by
  obtain ⟨-, left, normal, rfl⟩ := correctnessIdentity_some.mp made
  obtain ⟨-, left', normal', rfl⟩ := correctnessIdentity_some.mp made'
  have words := (normalize_ok.mp normal).1
  have words' := (normalize_ok.mp normal').1
  unfold identityOf
  rw [equal_obj_iff (keys_set _ _ _ (keys_set _ _ _ r.distinct.1))
    (keys_set _ _ _ (keys_set _ _ _ r'.distinct.1)), same_set_iff,
    equal_obj_iff (keys_pop r.supervisor_distinct.1 _) (keys_pop r'.supervisor_distinct.1 _)]
  simp only [sameAt_pop, sameAt_set]
  constructor
  · rintro ⟨supervisor, rest⟩
    obtain ⟨rfl, policy, options⟩ := (identityOptions_iff r.options_distinct.1
      r'.options_distinct.1 r.policy_distinct.1 r'.policy_distinct.1).mp
      ((rest "options" (by decide)).1 rfl)
    exact ⟨fun key options supervisor => (rest key supervisor).2 options, options, policy,
      supervisor, left, words, words'⟩
  · rintro ⟨fields, options, policy, supervisor, shared, first, second⟩
    obtain rfl := words.unique first
    obtain rfl := words'.unique second
    refine ⟨supervisor, fun key other => ⟨fun _ => ?_, fun more => fields key more other⟩⟩
    exact (identityOptions_iff r.options_distinct.1 r'.options_distinct.1 r.policy_distinct.1
      r'.policy_distinct.1).mpr ⟨rfl, policy, options⟩

/-! ### Requests for some of the shapes -/

/-- A word of the command names shapes, spelled joined or separate, wherever it stands. -/
def SelectsShapes (floats : Floats F) (request : Request F) : Prop :=
  truthy floats (get request.options "evaluation_shapes_path") = true ∨
    ∃ word, .str word ∈ request.arguments ∧ flag word = "--shape-id"

theorem takeWhile_eq_iff (name word : List Char) (plain : '=' ∉ name) :
    word.takeWhile (· ≠ '=') = name ↔ word = name ∨ name ++ ['='] <+: word := by
  induction word generalizing name with
  | nil => cases name <;> simp
  | cons c rest ih =>
      cases name with
      | nil =>
          by_cases sign : c = '='
          · subst sign
            exact iff_of_true (by simp) (Or.inr ⟨rest, rfl⟩)
          · refine iff_of_false (by simp [sign]) ?_
            rintro (whole | ⟨_, longer⟩)
            · cases whole
            · cases longer
              exact sign rfl
      | cons d name =>
          rw [List.mem_cons, not_or] at plain
          by_cases sign : c = '='
          · subst sign
            simp [plain.1, Ne.symm plain.1, List.cons_prefix_cons]
          · rw [List.takeWhile_cons_of_pos (by simpa using sign), List.cons.injEq, ih name plain.2]
            simp only [List.cons.injEq, List.cons_append, List.cons_prefix_cons]
            constructor
            · rintro ⟨rfl, rfl | longer⟩
              · exact Or.inl ⟨rfl, rfl⟩
              · exact Or.inr ⟨rfl, longer⟩
            · rintro (⟨rfl, rfl⟩ | ⟨rfl, longer⟩)
              · exact ⟨rfl, Or.inl rfl⟩
              · exact ⟨rfl, Or.inr longer⟩

theorem flag_shape_iff (word : String) : flag word = "--shape-id" ↔
    word = "--shape-id" ∨ ("--shape-id" ++ "=").toList.isPrefixOf word.toList = true := by
  rw [List.isPrefixOf_iff_prefix, ← String.toList_inj, ← String.toList_inj]
  unfold flag
  rw [String.toList_ofList]
  exact takeWhile_eq_iff _ _ (by decide)

/-- `option_values` returns no shapes where no word names one. -/
theorem optionValues_shapes (tokens : List String) :
    optionValues "--shape-id" tokens = .ok [] ↔ ∀ word ∈ tokens, flag word ≠ "--shape-id" := by
  simp only [Ne, flag_shape_iff, not_or]
  induction tokens with
  | nil => exact iff_of_true rfl (by simp)
  | cons token rest ih =>
      rw [List.forall_mem_cons]
      cases rest with
      | nil =>
          unfold optionValues
          split
          · next same => exact iff_of_false nofun (fun clean => clean.1.1 same)
          · next other =>
            split
            · next longer => exact iff_of_false nofun (fun clean => clean.1.2 longer)
            · next whole => exact iff_of_true rfl ⟨⟨other, whole⟩, by simp⟩
      | cons value rest =>
          unfold optionValues
          rw [bind_ok_iff]
          constructor
          · rintro ⟨later, read, done⟩
            split at done
            · cases done
            next other =>
            split at done
            · cases done
            next whole =>
            cases done
            exact ⟨⟨other, whole⟩, ih.mp read⟩
          · rintro ⟨⟨other, whole⟩, clean⟩
            refine ⟨[], ih.mpr clean, ?_⟩
            rw [if_neg other, if_neg whole]
            rfl

theorem correctness_identity_abstracts_timing (floats : Floats F) :
    (∀ (r r' : Request F) identity identity',
      correctnessIdentity floats r.fields = .ok (some identity) →
      correctnessIdentity floats r'.fields = .ok (some identity') →
      (equal floats (.obj identity) (.obj identity') = true ↔ SameCorrectness floats r r')) ∧
    ∀ r : Request F,
      (SelectsShapes floats r → ∀ identity,
        correctnessIdentity floats r.fields ≠ .ok (some identity)) ↔
      (Standard floats r → SelectsShapes floats r → ∀ left, Words r.arguments left →
        ∃ word ∈ left, flag word = "--shape-id") := by
  refine ⟨fun r r' identity identity' => identity_eq_iff, fun r => ?_⟩
  constructor
  · intro refused standard selects left words
    by_contra clean
    refine refused selects _ (correctnessIdentity_some.mpr ⟨standard, left, ?_, rfl⟩)
    refine normalize_ok.mpr ⟨words, fun word member shape => clean ⟨word, member, shape⟩⟩
  · intro left selects identity made
    obtain ⟨standard, rest, normal, -⟩ := correctnessIdentity_some.mp made
    obtain ⟨words, clean⟩ := normalize_ok.mp normal
    obtain ⟨word, member, shape⟩ := left standard selects rest words
    exact clean word member shape

def integers : Floats Empty := ⟨nofun, nofun, nofun, (fun _ x => nomatch x), nofun, nofun⟩

/-- The shape option follows an option that takes the next word. -/
def swallowed : Request Empty where
  fields := [("operation", .str "evaluate"), ("options", .obj [
    ("command", .arr [.str "python3", .str "test_kernel.py", .str "--multi-seed", .str "5",
      .str "--timed-runs", .str "--shape-id", .str "0"]),
    ("evaluation_policy", .obj [("schema_version", .int 1), ("num_correctness_cases", .int 6),
      ("mode", .str "full")])])]
  distinct := by simp [Distinct, DistinctMembers, DistinctItems]

theorem swallowed_shape_has_identity : ¬ ∀ r : Request Empty, SelectsShapes integers r →
    ∀ identity, correctnessIdentity integers r.fields ≠ .ok (some identity) := by
  intro refused
  refine refused swallowed (Or.inr ⟨"--shape-id", ?_, by decide⟩) _ rfl
  simp [swallowed, Request.arguments, Request.options, Json.get, membersOf, itemsOf]

end AtrexAgent.Records
