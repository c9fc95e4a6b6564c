import AtrexAgent.Library.Items

/-! The option scan of a command-line parser with one positional argument that takes any number of strings: which strings
are read as options, what an option takes, and what is left for the positional argument. -/

namespace AtrexAgent.ArgumentParser

abbrev Arg := List Char

/-- What an option does; none is done where its value cannot be converted. -/
inductive Action (V : Type) where
  | store (dest : Arg) (convert : Arg → Option V)
  | constant (dest : Arg) (value : V)
  | help

structure Parser (V : Type) where
  options : List (Arg × Action V)
  /-- A decimal digit that is not an ASCII one. -/
  wideDigit : Char → Bool

/-- What a string is read as. -/
inductive Reading (V : Type) where
  | positional
  | option (action : Action V) (explicit : Option Arg)
  | unknown
  | ambiguous

variable {V : Type} (parser : Parser V)

/-- `arg.split("=", 1)`, where there is one. -/
def splitEquals (arg : Arg) : Option (Arg × Arg) :=
  match arg.dropWhile (· ≠ '=') with
  | [] => none
  | _ :: value => some (arg.takeWhile (· ≠ '='), value)

def Parser.isDigit (c : Char) : Bool := ('0' ≤ c ∧ c ≤ '9') ∨ (128 ≤ c.toNat ∧ parser.wideDigit c)

/-- `^-\d+$|^-\d*\.\d+$`, whose end may stand before a last line feed. -/
def Parser.isNegativeNumber : Arg → Bool
  | '-' :: rest =>
      let number := if rest.getLast? = some '\n' then rest.dropLast else rest
      match number.dropWhile parser.isDigit with
      | [] => !number.isEmpty
      | '.' :: fraction => !fraction.isEmpty && fraction.all parser.isDigit
      | _ => false
  | _ => false

/-- `_get_option_tuples`: the options that a string abbreviates, or a short one that its value follows at once. -/
def Parser.optionTuples : Arg → List (Action V × Option Arg)
  | '-' :: '-' :: rest =>
      let (name, explicit) := match splitEquals ('-' :: '-' :: rest) with
        | some (name, value) => (name, some value)
        | none => ('-' :: '-' :: rest, none)
      (parser.options.filter fun option => name.isPrefixOf option.1).map fun option => (option.2, explicit)
  | '-' :: c :: rest =>
      parser.options.filterMap fun option =>
        if option.1 = ['-', c] then some (option.2, some rest)
        else if ('-' :: c :: rest).isPrefixOf option.1 then some (option.2, none)
        else none
  | _ => []

/-- The option before an equals sign. -/
def Parser.joined (arg : Arg) : Option (Action V × Option Arg) :=
  (splitEquals arg).bind fun parts => (parser.options.lookup parts.1).map fun action => (action, some parts.2)

/-- `_parse_optional` -/
def Parser.parseOptional (arg : Arg) : Reading V :=
  if arg.head? ≠ some '-' then .positional
  else match parser.options.lookup arg with
    | some action => .option action none
    | none =>
        if arg = ['-'] then .positional
        else match parser.joined arg with
          | some (action, explicit) => .option action explicit
          | none => match parser.optionTuples arg with
            | [(action, explicit)] => .option action explicit
            | _ :: _ :: _ => .ambiguous
            | [] =>
                if parser.isNegativeNumber arg ∧ ¬ parser.options.any (fun option => parser.isNegativeNumber option.1) then .positional
                else if ' ' ∈ arg then .positional
                else .unknown

/-- The string is no option. -/
def Parser.Plain (arg : Arg) : Prop := parser.parseOptional arg = .positional

/-! ### The scan -/

inductive Token (V : Type) where
  | arg (text : Arg)
  | marker
  | option (text : Arg) (action : Action V) (explicit : Option Arg)
  | refused (text : Arg)

def MARKER : Arg := ['-', '-']

def Token.text : Token V → Arg
  | .arg text => text
  | .marker => MARKER
  | .option text _ _ => text
  | .refused text => text

def Parser.token (arg : Arg) : Token V :=
  match parser.parseOptional arg with
  | .positional => .arg arg
  | .option action explicit => .option arg action explicit
  | .unknown => .refused arg
  | .ambiguous => .refused arg

/-- No string after the first `--` is read as an option. -/
def Parser.scan : List Arg → List (Token V)
  | [] => []
  | arg :: rest => if arg = MARKER then .marker :: rest.map .arg else parser.token arg :: Parser.scan rest

/-- The positional argument takes the first run of strings that no option takes. -/
inductive Positional where
  | pending
  | collecting (args : List Arg)
  | closed (args : List Arg)

def Positional.taken : Positional → List Arg
  | .pending => []
  | .collecting args => args
  | .closed args => args

structure State (V : Type) where
  positional : Positional
  values : List (Arg × V)

/-- One more string, which nothing else takes; after the run it is an unrecognized argument. -/
def Positional.take (arg : Arg) : Positional → Option Positional
  | .pending => some (.collecting [arg])
  | .collecting args => some (.collecting (args ++ [arg]))
  | .closed _ => none

/-- The first `--` belongs to a run and is left out of it. -/
def Positional.mark : Positional → Option Positional
  | .pending => some (.collecting [])
  | .collecting args => some (.collecting args)
  | .closed _ => none

def Positional.close : Positional → Positional
  | .collecting args => .closed args
  | other => other

/-- An option ends a run, and sets a value. -/
def State.set (state : State V) (dest : Arg) (value : V) : State V := ⟨state.positional.close, Items.set state.values dest value⟩

/-- The options and positional strings of a command line, taken one after another; no state where the parser exits. -/
def steps : List (Token V) → State V → Option (State V)
  | [], state => some state
  | .arg text :: rest, state => (state.positional.take text).bind fun positional => steps rest ⟨positional, state.values⟩
  | .marker :: rest, state => state.positional.mark.bind fun positional => steps rest ⟨positional, state.values⟩
  | .option _ (.constant dest value) none :: rest, state => steps rest (state.set dest value)
  | .option _ (.store dest convert) (some text) :: rest, state => (convert text).bind fun value => steps rest (state.set dest value)
  | .option _ (.store dest convert) none :: .arg text :: rest, state =>
      (convert text).bind fun value => steps rest (state.set dest value)
  | _, _ => none

structure Namespace (V : Type) where
  positional : List Arg
  values : List (Arg × V)

/-- `parse_args` -/
def Parser.parseArgs (defaults : List (Arg × V)) (argv : List Arg) : Option (Namespace V) :=
  (steps (parser.scan argv) ⟨.pending, defaults⟩).map fun state => ⟨state.positional.taken, state.values⟩

/-! ### Reading in parts -/

variable {parser}

theorem plain_iff {arg : Arg} : parser.Plain arg ↔ parser.token arg = .arg arg := by
  unfold Parser.Plain Parser.token
  split <;> simp_all

theorem token_text (arg : Arg) : (parser.token arg).text = arg := by
  unfold Parser.token
  split <;> rfl

/-- The marker is never a positional string. -/
theorem marker_not_plain : ¬ parser.Plain MARKER := by
  have digit : parser.isDigit '-' = false := by
    unfold Parser.isDigit
    exact decide_eq_false (by simp)
  have number : parser.isNegativeNumber MARKER = false := by
    simp [Parser.isNegativeNumber, MARKER, digit]
  unfold Parser.Plain Parser.parseOptional
  rw [if_neg (by decide)]
  split
  · simp
  · rw [if_neg (by decide)]
    split
    · simp
    · split
      · simp
      · simp
      · rw [if_neg (by simp [number]), if_neg (by decide)]
        simp

theorem scan_cons {arg : Arg} (other : arg ≠ MARKER) (rest : List Arg) : parser.scan (arg :: rest) = parser.token arg :: parser.scan rest := by
  rw [Parser.scan, if_neg other]

theorem scan_plain {arg : Arg} (plain : parser.Plain arg) (rest : List Arg) : parser.scan (arg :: rest) = .arg arg :: parser.scan rest := by
  have other : arg ≠ MARKER := by
    intro same
    exact marker_not_plain (same ▸ plain)
  rw [scan_cons other, plain_iff.mp plain]

/-- Where no string is the marker, each of them is read by itself. -/
theorem scan_append {args : List Arg} (others : MARKER ∉ args) (rest : List Arg) :
    parser.scan (args ++ rest) = args.map parser.token ++ parser.scan rest := by
  induction args with
  | nil => rfl
  | cons arg args ih =>
      rw [List.mem_cons, not_or] at others
      rw [List.cons_append, scan_cons (Ne.symm others.1), ih others.2]
      rfl

theorem scan_marker {args : List Arg} (others : MARKER ∉ args) (rest : List Arg) :
    parser.scan (args ++ MARKER :: rest) = args.map parser.token ++ .marker :: rest.map .arg := by
  rw [scan_append others, Parser.scan, if_pos rfl]

/-- What is read does not begin with a string that an option before it could take. -/
def Fresh (tokens : List (Token V)) : Prop := ∀ text rest, tokens ≠ .arg text :: rest

theorem steps_append (tokens : List (Token V)) {rest : List (Token V)} (fresh : Fresh rest) (state : State V) :
    steps (tokens ++ rest) state = (steps tokens state).bind (steps rest) := by
  fun_induction steps tokens state with
  | case1 state => rfl
  | case2 text tokens state ih =>
      rw [List.cons_append, steps]
      cases state.positional.take text with
      | none => rfl
      | some positional => exact ih positional
  | case3 tokens state ih =>
      rw [List.cons_append, steps]
      cases state.positional.mark with
      | none => rfl
      | some positional => exact ih positional
  | case4 text dest value tokens state ih =>
      rw [List.cons_append, steps, ih]
  | case5 text dest convert explicit tokens state ih =>
      rw [List.cons_append, steps]
      cases convert explicit with
      | none => rfl
      | some value => exact ih value
  | case6 text dest convert taken tokens state ih =>
      rw [List.cons_append, List.cons_append, steps]
      cases convert taken with
      | none => rfl
      | some value => exact ih value
  | case7 tokens state nonempty not_arg not_marker not_constant not_joined not_store =>
      cases tokens with
      | nil => exact absurd rfl nonempty
      | cons first more =>
          have head {token : Token V} {tail : List (Token V)} (same : first :: more ++ rest = token :: tail) : first :: more = token :: more := by
            rw [(List.cons.inj same).1]
          rw [steps.eq_7 (first :: more ++ rest) _ (fun none_read => nomatch none_read) (fun text tail same => not_arg text more (head same)) (fun tail same => not_marker more (head same))
            (fun text dest value tail same => not_constant text dest value more (head same))
            (fun text dest convert explicit tail same => not_joined text dest convert explicit more (head same))]
          · rfl
          · -- An option that lacks its value takes none from what follows.
            intro text dest convert taken tail same
            cases more with
            | nil => exact fresh taken tail (List.cons.inj same).2
            | cons next more =>
                obtain ⟨rfl, later⟩ := List.cons.inj same
                obtain ⟨rfl, _⟩ := List.cons.inj later
                exact not_store text dest convert taken more rfl

/-! ### Settings -/

theorem close_taken (positional : Positional) : positional.close.taken = positional.taken := by cases positional <;> rfl

/-- An option with the value it sets, and the strings that say so. -/
inductive Setting (V : Type) where
  | constant (flag dest : Arg) (value : V)
  | store (flag dest text : Arg) (value : V)

def Setting.args : Setting V → List Arg
  | .constant flag _ _ => [flag]
  | .store flag _ text _ => [flag, text]

def Setting.item : Setting V → Arg × V
  | .constant _ dest value => (dest, value)
  | .store _ dest _ value => (dest, value)

/-- The string that must not be read as an option. -/
def Setting.text? : Setting V → Option Arg
  | .constant _ _ _ => none
  | .store _ _ text _ => some text

/-- The option is one of the parser's, and its string stands for its value. -/
def Setting.Known (parser : Parser V) : Setting V → Prop
  | .constant flag dest value => flag ≠ MARKER ∧ parser.parseOptional flag = .option (.constant dest value) none
  | .store flag dest text value => flag ≠ MARKER ∧
      ∃ convert, parser.parseOptional flag = .option (.store dest convert) none ∧ convert text = some value

def Setting.Plain (parser : Parser V) (setting : Setting V) : Prop := ∀ text ∈ setting.text?, parser.Plain text

def argsOf (settings : List (Setting V)) : List Arg := settings.flatMap Setting.args

/-- A state in which some options have been read. -/
def State.setAll (state : State V) (settings : List (Setting V)) : State V :=
  (settings.map Setting.item).foldl (fun state item => state.set item.1 item.2) state

theorem setAll_values (state : State V) (settings : List (Setting V)) :
    (state.setAll settings).values = Items.update state.values (settings.map Setting.item) := by
  unfold State.setAll Items.update
  induction settings.map Setting.item generalizing state with
  | nil => rfl
  | cons item items ih => exact ih (state.set item.1 item.2)

theorem setAll_taken (state : State V) (settings : List (Setting V)) : (state.setAll settings).positional.taken = state.positional.taken := by
  unfold State.setAll
  induction settings.map Setting.item generalizing state with
  | nil => rfl
  | cons item items ih =>
      rw [List.foldl_cons, ih, State.set]
      exact close_taken state.positional

theorem setAll_pending {state : State V} (pending : state.positional = .pending) (settings : List (Setting V)) :
    (state.setAll settings).positional = .pending := by
  unfold State.setAll
  induction settings.map Setting.item generalizing state with
  | nil => exact pending
  | cons item items ih =>
      have next : (state.set item.1 item.2).positional = .pending := by
        rw [State.set, pending]
        rfl
      exact ih next

theorem token_option {arg : Arg} {action : Action V} {explicit : Option Arg} (read : parser.parseOptional arg = .option action explicit) :
    parser.token arg = .option arg action explicit := by
  rw [Parser.token, read]

/-- A setting is read where its string is no option, and only there. -/
theorem steps_setting {setting : Setting V} (known : setting.Known parser) (rest : List Arg) (state : State V) :
    (setting.Plain parser → steps (parser.scan (setting.args ++ rest)) state = steps (parser.scan rest) (state.set setting.item.1 setting.item.2)) ∧
      (¬ setting.Plain parser → steps (parser.scan (setting.args ++ rest)) state = none) := by
  cases setting with
  | constant flag dest value =>
      obtain ⟨other, read⟩ := known
      have all_plain : (Setting.constant flag dest value).Plain parser := fun text none_text => nomatch none_text
      refine ⟨fun _ => ?_, fun not_plain => absurd all_plain not_plain⟩
      rw [Setting.args, List.singleton_append, scan_cons other, token_option read, steps]
      rfl
  | store flag dest text value =>
      obtain ⟨other, convert, read, same⟩ := known
      have begun : parser.scan ((Setting.store flag dest text value).args ++ rest) =
          .option flag (.store dest convert) none :: parser.scan (text :: rest) := by
        rw [Setting.args, List.cons_append, List.singleton_append, scan_cons other, token_option read]
      rw [begun]
      constructor
      · intro plain
        rw [scan_plain (plain text rfl), steps, same]
        rfl
      · intro not_plain
        have not_plain : ¬ parser.Plain text := fun plain => not_plain fun text' same => Option.some.inj same ▸ plain
        have stopped (token : Token V) (tokens : List (Token V)) (not_arg : ∀ arg, token ≠ .arg arg) :
            steps (.option flag (.store dest convert) none :: token :: tokens) state = none := by
          cases token with
          | arg arg => exact absurd rfl (not_arg arg)
          | marker => rfl
          | option => rfl
          | refused => rfl
        by_cases marked : text = MARKER
        · rw [marked, Parser.scan, if_pos rfl]
          exact stopped _ _ fun arg same => nomatch same
        · rw [scan_cons marked]
          refine stopped _ _ fun arg here => not_plain (plain_iff.mpr ?_)
          have same_text := congrArg Token.text here
          rw [token_text] at same_text
          rw [here, same_text]
          rfl

theorem steps_settings {settings : List (Setting V)} (known : ∀ setting ∈ settings, setting.Known parser)
    (plain : ∀ setting ∈ settings, setting.Plain parser) (rest : List Arg) (state : State V) :
    steps (parser.scan (argsOf settings ++ rest)) state = steps (parser.scan rest) (state.setAll settings) := by
  induction settings generalizing state with
  | nil => rfl
  | cons setting settings ih =>
      rw [argsOf, List.flatMap_cons, List.append_assoc, (steps_setting (known setting List.mem_cons_self) _ state).1 (plain setting List.mem_cons_self)]
      exact ih (fun other member => known other (List.mem_cons_of_mem _ member)) (fun other member => plain other (List.mem_cons_of_mem _ member)) _

theorem plain_of_steps {settings : List (Setting V)} (known : ∀ setting ∈ settings, setting.Known parser) {rest : List Arg} {state state' : State V}
    (read : steps (parser.scan (argsOf settings ++ rest)) state = some state') : ∀ setting ∈ settings, setting.Plain parser := by
  induction settings generalizing state with
  | nil => exact fun setting member => absurd member List.not_mem_nil
  | cons setting settings ih =>
      rw [argsOf, List.flatMap_cons, List.append_assoc] at read
      have at_first := steps_setting (known setting List.mem_cons_self) (argsOf settings ++ rest) state
      by_cases plain : setting.Plain parser
      · rw [show List.flatMap Setting.args settings = argsOf settings from rfl, at_first.1 plain] at read
        have later := ih (fun other member => known other (List.mem_cons_of_mem _ member)) read
        intro other member
        rcases List.mem_cons.mp member with rfl | member
        · exact plain
        · exact later other member
      · rw [show List.flatMap Setting.args settings = argsOf settings from rfl, at_first.2 plain] at read
        cases read

/-- Positional strings before the first option. -/
theorem steps_plain {args : List Arg} (plain : ∀ arg ∈ args, parser.Plain arg) (rest : List Arg) {state : State V}
    (pending : state.positional = .pending) : ∃ positional, positional.taken = args ∧
      steps (parser.scan (args ++ rest)) state = steps (parser.scan rest) ⟨positional, state.values⟩ := by
  have collect (args before : List Arg) (plain : ∀ arg ∈ args, parser.Plain arg) :
      steps (parser.scan (args ++ rest)) ⟨.collecting before, state.values⟩ = steps (parser.scan rest) ⟨.collecting (before ++ args), state.values⟩ := by
    induction args generalizing before with
    | nil => rw [List.nil_append, List.append_nil]
    | cons arg args ih =>
        rw [List.cons_append, scan_plain (plain arg List.mem_cons_self), steps, Positional.take, Option.bind_some,
          ih (before ++ [arg]) fun other member => plain other (List.mem_cons_of_mem _ member), List.append_assoc]
        rfl
  cases args with
  | nil => exact ⟨state.positional, by rw [pending]; rfl, rfl⟩
  | cons arg args =>
      refine ⟨.collecting (arg :: args), rfl, ?_⟩
      rw [List.cons_append, scan_plain (plain arg List.mem_cons_self), steps, pending, Positional.take, Option.bind_some,
        collect args [arg] fun other member => plain other (List.mem_cons_of_mem _ member)]
      rfl

/-! ### What becomes of the strings -/

/-- The sum of a weight over strings. -/
def total (weigh : Arg → ℕ) : List Arg → ℕ
  | [] => 0
  | arg :: args => weigh arg + total weigh args

@[simp] theorem total_nil (weigh : Arg → ℕ) : total weigh [] = 0 := rfl

@[simp] theorem total_cons (weigh : Arg → ℕ) (arg : Arg) (args : List Arg) : total weigh (arg :: args) = weigh arg + total weigh args := rfl

@[simp] theorem total_append (weigh : Arg → ℕ) (args more : List Arg) : total weigh (args ++ more) = total weigh args + total weigh more := by
  induction args with
  | nil => rw [List.nil_append, total_nil, Nat.zero_add]
  | cons arg args ih => rw [List.cons_append, total_cons, total_cons, ih, Nat.add_assoc]

theorem le_total (weigh : Arg → ℕ) {arg : Arg} {args : List Arg} (member : arg ∈ args) : weigh arg ≤ total weigh args := by
  induction args with
  | nil => cases member
  | cons other args ih =>
      rw [total_cons]
      rcases List.mem_cons.mp member with rfl | inside
      · exact Nat.le_add_right _ _
      · exact Nat.le_add_left_of_le (ih inside)

/-- Where a value comes from: it is a constant, it is joined to its option, or it follows it. -/
inductive Origin (tokens : List (Token V)) (used : List Arg) (dest : Arg) (value : V) : Prop
  | constant (text : Arg) (read : Token.option text (.constant dest value) none ∈ tokens)
  | joined (text explicit : Arg) (convert : Arg → Option V) (read : Token.option text (.store dest convert) (some explicit) ∈ tokens)
      (inside : text ∈ used) (same : convert explicit = some value)
  | separate (text follower : Arg) (convert : Arg → Option V) (read : Token.option text (.store dest convert) none ∈ tokens)
      (inside : follower ∈ used) (same : convert follower = some value)

theorem Origin.mono {tokens more : List (Token V)} {used further : List Arg} {dest : Arg} {value : V} (origin : Origin tokens used dest value)
    (sub : tokens ⊆ more) (sub' : used ⊆ further) : Origin more further dest value := by
  cases origin with
  | constant text read => exact .constant text (sub read)
  | joined text explicit convert read inside same => exact .joined text explicit convert (sub read) (sub' inside) same
  | separate text follower convert read inside same => exact .separate text follower convert (sub read) (sub' inside) same

/-- What a scan does with its strings: the positional argument gets some, options use others, and each of them once. -/
structure Ledger (tokens : List (Token V)) (state state' : State V) (taken used : List Arg) : Prop where
  positional : state'.positional.taken = state.positional.taken ++ taken
  once : ∀ weigh, total weigh taken + total weigh used ≤ total weigh (tokens.map Token.text)
  options : ∀ text action explicit, Token.option text action explicit ∈ tokens → text ∈ used
  values : ∀ dest value, Items.get? state'.values dest = some value → Items.get? state.values dest = some value ∨ Origin tokens used dest value
  accepted : ∀ text, Token.refused text ∉ tokens

theorem take_taken {positional positional' : Positional} {arg : Arg} (took : positional.take arg = some positional') :
    positional'.taken = positional.taken ++ [arg] := by
  cases positional <;> cases took <;> rfl

theorem mark_taken {positional positional' : Positional} (marked : positional.mark = some positional') : positional'.taken = positional.taken := by
  cases positional <;> cases marked <;> rfl

/-- An option has set a value, and the strings that it used are not used again. -/
theorem Ledger.set (front : List (Token V)) {tokens : List (Token V)} {state state' : State V} {dest : Arg} {value : V} {taken used spent : List Arg}
    (ledger : Ledger tokens (state.set dest value) state' taken used) (spending : spent = front.map Token.text)
    (origin : Origin front spent dest value) (accepted : ∀ text, Token.refused text ∉ front) :
    Ledger (front ++ tokens) state state' taken (spent ++ used) := by
  refine ⟨?_, fun weigh => ?_, fun text action explicit member => ?_, fun dest' value' here => ?_, fun text member => ?_⟩
  · rw [ledger.positional, State.set, close_taken]
  · have once := ledger.once weigh
    rw [List.map_append, total_append, total_append, ← spending]
    omega
  · rcases List.mem_append.mp member with first | later
    · rw [spending]
      exact List.mem_append_left _ (List.mem_map.mpr ⟨_, first, rfl⟩)
    · exact List.mem_append_right _ (ledger.options text action explicit later)
  · rcases ledger.values dest' value' here with before | after
    · rw [State.set, Items.get?_set] at before
      split at before
      · rename_i same
        cases before
        rw [same]
        exact .inr (origin.mono (List.subset_append_left _ _) (List.subset_append_left _ _))
      · exact .inl before
    · exact .inr (after.mono (List.subset_append_right _ _) (List.subset_append_right _ _))
  · rcases List.mem_append.mp member with first | later
    · exact accepted text first
    · exact ledger.accepted text later

theorem steps_ledger {tokens : List (Token V)} {state state' : State V} (read : steps tokens state = some state') :
    ∃ taken used, Ledger tokens state state' taken used := by
  fun_induction steps tokens state with
  | case1 state =>
      cases read
      exact ⟨[], [], (List.append_nil _).symm, fun weigh => Nat.zero_le _, fun text action explicit member => absurd member List.not_mem_nil,
        fun dest value here => .inl here, fun text => List.not_mem_nil⟩
  | case2 text tokens state ih =>
      obtain ⟨positional, took, read⟩ := Option.bind_eq_some_iff.mp read
      obtain ⟨taken, used, ledger⟩ := ih positional read
      refine ⟨text :: taken, used, ?_, fun weigh => ?_, fun text' action explicit member => ?_, fun dest value here => ?_, fun text' member => ?_⟩
      · rw [ledger.positional, take_taken took, List.append_assoc]
        rfl
      · have once := ledger.once weigh
        simp only [List.map_cons, total_cons, Token.text]
        omega
      · exact ledger.options text' action explicit (by simpa using member)
      · exact (ledger.values dest value here).imp_right fun origin => origin.mono (List.subset_cons_self _ _) (List.Subset.refl _)
      · exact ledger.accepted text' (by simpa using member)
  | case3 tokens state ih =>
      obtain ⟨positional, marked, read⟩ := Option.bind_eq_some_iff.mp read
      obtain ⟨taken, used, ledger⟩ := ih positional read
      refine ⟨taken, used, ?_, fun weigh => ?_, fun text' action explicit member => ?_, fun dest value here => ?_, fun text' member => ?_⟩
      · rw [ledger.positional, mark_taken marked]
      · exact Nat.le_trans (ledger.once weigh) (by simp)
      · exact ledger.options text' action explicit (by simpa using member)
      · exact (ledger.values dest value here).imp_right fun origin => origin.mono (List.subset_cons_self _ _) (List.Subset.refl _)
      · exact ledger.accepted text' (by simpa using member)
  | case4 text dest value tokens state ih =>
      obtain ⟨taken, used, ledger⟩ := ih read
      exact ⟨taken, _, Ledger.set [.option text (.constant dest value) none] ledger rfl (.constant text (List.mem_singleton_self _)) (by simp)⟩
  | case5 text dest convert explicit tokens state ih =>
      obtain ⟨value, same, read⟩ := Option.bind_eq_some_iff.mp read
      obtain ⟨taken, used, ledger⟩ := ih value read
      exact ⟨taken, _, Ledger.set [.option text (.store dest convert) (some explicit)] ledger rfl
        (.joined text explicit convert (List.mem_singleton_self _) (List.mem_singleton_self _) same) (by simp)⟩
  | case6 text dest convert follower tokens state ih =>
      obtain ⟨value, same, read⟩ := Option.bind_eq_some_iff.mp read
      obtain ⟨taken, used, ledger⟩ := ih value read
      exact ⟨taken, _, Ledger.set [.option text (.store dest convert) none, .arg follower] ledger rfl
        (.separate text follower convert List.mem_cons_self (by simp [Token.text]) same) (by simp)⟩
  | case7 tokens state => cases read

/-- After the marker every string is positional, and no value is set. -/
theorem steps_args {args : List Arg} {state state' : State V} (read : steps (args.map .arg) state = some state') :
    state'.positional.taken = state.positional.taken ++ args ∧ state'.values = state.values := by
  induction args generalizing state with
  | nil =>
      cases read
      exact ⟨(List.append_nil _).symm, rfl⟩
  | cons arg args ih =>
      rw [List.map_cons, steps] at read
      obtain ⟨positional, took, read⟩ := Option.bind_eq_some_iff.mp read
      obtain ⟨taken, values⟩ := ih read
      refine ⟨?_, values⟩
      rw [taken, take_taken took, List.append_assoc]
      rfl

theorem total_zero {weigh : Arg → ℕ} {args : List Arg} (zero : ∀ arg ∈ args, weigh arg = 0) : total weigh args = 0 := by
  induction args with
  | nil => rfl
  | cons arg args ih =>
      rw [total_cons, zero arg List.mem_cons_self, ih fun other member => zero other (List.mem_cons_of_mem _ member)]

/-! ### Where an option stands in its string -/

theorem splitEquals_eq {arg name value : Arg} (split : splitEquals arg = some (name, value)) : arg = name ++ '=' :: value := by
  unfold splitEquals at split
  have whole : arg.takeWhile (· ≠ '=') ++ arg.dropWhile (· ≠ '=') = arg := List.takeWhile_append_dropWhile
  have stopped := List.head?_dropWhile_not (fun c : Char => decide (c ≠ '=')) arg
  cases rest : arg.dropWhile (· ≠ '=') with
  | nil =>
      rw [rest] at split
      cases split
  | cons c more =>
      rw [rest] at split stopped whole
      obtain ⟨rfl, rfl⟩ := Prod.mk.inj (Option.some.inj split)
      have same : c = '=' := by simpa using stopped
      rw [same] at whole
      exact whole.symm

/-- Where a value is joined to its option: after an equals sign, or at once after a short option. -/
inductive Joined (name arg explicit : Arg) : Prop
  | equals (start : Arg) (begun : start <+: name) (same : arg = start ++ '=' :: explicit)
  | short (c : Char) (short : name = ['-', c]) (same : arg = '-' :: c :: explicit)

theorem lookup_mem {options : List (Arg × Action V)} {name : Arg} {action : Action V} (found : options.lookup name = some action) :
    (name, action) ∈ options := by
  obtain ⟨before, after, rfl, _⟩ := List.lookup_eq_some_iff.mp found
  simp

theorem mem_optionTuples {arg : Arg} {action : Action V} {explicit : Option Arg} (member : (action, explicit) ∈ parser.optionTuples arg) :
    ∃ name, (name, action) ∈ parser.options ∧ ∀ value, explicit = some value → Joined name arg value := by
  unfold Parser.optionTuples at member
  split at member
  · rename_i rest
    obtain ⟨⟨name, action'⟩, inside, same⟩ := List.mem_map.mp member
    obtain ⟨known, begun⟩ := List.mem_filter.mp inside
    obtain ⟨rfl, rfl⟩ := Prod.mk.inj same
    refine ⟨name, known, fun value given => ?_⟩
    cases split : splitEquals ('-' :: '-' :: rest) with
    | none =>
        rw [split] at given
        cases given
    | some parts =>
        obtain ⟨start, value'⟩ := parts
        rw [split] at given begun
        cases given
        exact .equals start (List.isPrefixOf_iff_prefix.mp begun) (splitEquals_eq split)
  · rename_i c rest _
    obtain ⟨⟨name, action'⟩, known, same⟩ := List.mem_filterMap.mp member
    split at same
    · rename_i short
      obtain ⟨rfl, rfl⟩ := Prod.mk.inj (Option.some.inj same)
      refine ⟨name, known, fun value given => ?_⟩
      cases given
      exact .short c short rfl
    · split at same
      · obtain ⟨rfl, rfl⟩ := Prod.mk.inj (Option.some.inj same)
        exact ⟨name, known, fun value given => nomatch given⟩
      · cases same
  · cases member

/-- What is read as an option is one of the parser's, and holds the value it is joined to. -/
theorem parseOptional_option {arg : Arg} {action : Action V} {explicit : Option Arg} (read : parser.parseOptional arg = .option action explicit) :
    ∃ name, (name, action) ∈ parser.options ∧ ∀ value, explicit = some value → Joined name arg value := by
  unfold Parser.parseOptional at read
  split at read
  · cases read
  · split at read
    · rename_i found
      cases read
      exact ⟨arg, lookup_mem found, fun value given => nomatch given⟩
    · split at read
      · cases read
      · split at read
        · rename_i joined
          cases read
          obtain ⟨⟨name, value⟩, split, found⟩ := Option.bind_eq_some_iff.mp joined
          obtain ⟨_, known, same⟩ := Option.map_eq_some_iff.mp found
          cases same
          refine ⟨name, lookup_mem known, fun value' given => ?_⟩
          cases given
          exact .equals name (List.prefix_refl name) (splitEquals_eq split)
        · split at read
          · rename_i tuples
            cases read
            exact mem_optionTuples (by rw [tuples]; exact List.mem_singleton_self _)
          · cases read
          · split at read
            · cases read
            · split at read <;> cases read

/-- A string that is read as an option begins with a dash. -/
theorem head_of_not_plain {arg : Arg} (not_plain : ¬ parser.Plain arg) : arg.head? = some '-' := by
  by_contra other
  exact not_plain (if_pos other)

theorem token_of_not_plain {arg : Arg} (not_plain : ¬ parser.Plain arg) :
    (∃ action explicit, parser.token arg = .option arg action explicit) ∨ parser.token arg = .refused arg := by
  unfold Parser.Plain at not_plain
  unfold Parser.token
  cases read : parser.parseOptional arg with
  | positional => exact absurd read not_plain
  | option action explicit => exact .inl ⟨action, explicit, rfl⟩
  | unknown => exact .inr rfl
  | ambiguous => exact .inr rfl

theorem mem_token {args : List Arg} {text : Arg} {action : Action V} {explicit : Option Arg}
    (member : Token.option text action explicit ∈ args.map parser.token) : parser.parseOptional text = .option action explicit := by
  obtain ⟨arg, _, same⟩ := List.mem_map.mp member
  unfold Parser.token at same
  split at same <;> cases same
  assumption

/-- An option begins what is fresh. -/
theorem fresh_settings {setting : Setting V} (known : setting.Known parser) (settings : List (Setting V)) :
    Fresh (parser.scan (argsOf (setting :: settings))) := by
  intro text rest same
  cases setting with
  | constant flag dest value =>
      rw [argsOf, List.flatMap_cons, Setting.args, List.singleton_append, scan_cons known.1, token_option known.2] at same
      cases same
  | store flag dest text' value =>
      obtain ⟨other, convert, read, _⟩ := known
      rw [argsOf, List.flatMap_cons, Setting.args, List.cons_append, scan_cons other, token_option read] at same
      cases same

end AtrexAgent.ArgumentParser
