import AtrexAgent.Library.ArgumentParser
import AtrexAgent.Library.Words
import AtrexAgent.Wiki.Intent

/-! The command line of `query_wiki`, and what it reads from the argument vectors of natural-language retrieval. -/

namespace AtrexAgent.Intent

open AtrexAgent.ArgumentParser AtrexAgent.Words

/-- A value of the parsed namespace; a float is held as its text. -/
inductive Value where
  | none
  | bool (value : Bool)
  | int (value : ℤ)
  | float (text : Arg)
  | text (value : Arg)

/-- Which texts are numbers: `int`, whether `float` accepts, and the decimal digits of other scripts. -/
structure Numbers where
  int : Arg → Option ℤ
  float : Arg → Bool
  wideDigit : Char → Bool
  int_str : ∀ n : ℤ, int (toString n).toList = some n

def storeText (dest : String) : Action Value := .store dest.toList fun arg => some (.text arg)

def storeChoice (dest : String) (choices : List String) : Action Value :=
  .store dest.toList fun arg => if String.ofList arg ∈ choices then some (.text arg) else none

def storeInt (numbers : Numbers) (dest : String) : Action Value := .store dest.toList fun arg => (numbers.int arg).map .int

def storeFloat (numbers : Numbers) (dest : String) : Action Value :=
  .store dest.toList fun arg => if numbers.float arg then some (.float arg) else none

def storeTrue (dest : String) : Action Value := .constant dest.toList (.bool true)

def TIERS : List String := ["proven", "promising", "provisional", "cautionary"]

def RANK_MODES : List String := ["blend", "text", "importance"]

def wikiOptions (numbers : Numbers) : List (String × Action Value) :=
  [("-h", .help), ("--help", .help), ("--json-store", storeText "json_store"), ("--vendor", storeText "vendor"), ("--arch", storeText "arch"),
    ("--dsl", storeText "dsl"), ("--family", storeText "family"), ("--operator", storeText "operator"), ("--type", storeText "type"),
    ("--level", storeText "level"), ("--status", storeText "status"), ("--strict-arch", storeTrue "strict_arch"),
    ("--cross-arch", storeTrue "cross_arch"), ("--coverage", storeTrue "coverage"), ("--exclude", storeText "exclude"),
    ("--tier", storeChoice "tier" TIERS), ("--symptom", storeText "symptom"), ("--min-importance", storeFloat numbers "min_importance"),
    ("--min-gain", storeFloat numbers "min_gain"), ("--min-speedup", storeFloat numbers "min_speedup"),
    ("--rank", storeChoice "rank" RANK_MODES), ("--weight-importance", storeFloat numbers "weight_importance"), ("--any", storeTrue "any"),
    ("--explain", storeTrue "explain"), ("--emit-json", storeTrue "emit_json"), ("--brief", storeTrue "brief"),
    ("--max-bytes", storeInt numbers "max_bytes"), ("--fallback-ratio", storeFloat numbers "fallback_ratio"),
    ("--no-fallback", .constant "fallback".toList (.bool false)), ("--seed", storeInt numbers "seed"), ("--limit", storeInt numbers "limit"),
    ("--list-arch", storeTrue "list_arch"), ("--list-dsl", storeTrue "list_dsl"), ("--list-family", storeTrue "list_family"),
    ("--list-operators", storeTrue "list_operators"), ("--list-type", storeTrue "list_type"),
    ("--list-symptoms", storeTrue "list_symptoms"), ("--list-tags", storeTrue "list_tags"), ("--like", storeText "like")]

/-- `build_parser` -/
def buildParser (numbers : Numbers) : Parser Value where
  options := (wikiOptions numbers).map fun option => (option.1.toList, option.2)
  wideDigit := numbers.wideDigit

def DEFAULTS : List (String × Value) :=
  [("json_store", .none), ("vendor", .none), ("arch", .none), ("dsl", .none), ("family", .none), ("operator", .none), ("type", .none),
    ("level", .none), ("status", .none), ("strict_arch", .bool false), ("cross_arch", .bool false), ("coverage", .bool false),
    ("exclude", .none), ("tier", .none), ("symptom", .none), ("min_importance", .none), ("min_gain", .none), ("min_speedup", .none),
    ("rank", .text "blend".toList), ("weight_importance", .float "1.0".toList), ("any", .bool false), ("explain", .bool false),
    ("emit_json", .bool false), ("brief", .bool false), ("max_bytes", .none), ("fallback_ratio", .float "0.1".toList),
    ("fallback", .bool true), ("seed", .none), ("limit", .int 8), ("list_arch", .bool false), ("list_dsl", .bool false),
    ("list_family", .bool false), ("list_operators", .bool false), ("list_type", .bool false), ("list_symptoms", .bool false),
    ("list_tags", .bool false), ("like", .none)]

/-- A table with its keys as texts. -/
def keyed (items : List (String × Value)) : List (Arg × Value) := items.map fun item => (item.1.toList, item.2)

/-- `build_parser().parse_args(argv)` -/
def parseWiki (numbers : Numbers) (argv : List String) : Option (Namespace Value) :=
  (buildParser numbers).parseArgs (keyed DEFAULTS) (argv.map String.toList)

/-- `getattr(args, dest)` -/
def argument (parsed : Namespace Value) (dest : String) : Option Value := Items.get? parsed.values dest.toList

/-- The words of the free text that a query is normalized to. -/
def queryWords (texts : List Arg) : List Arg := words (joined texts)

/-! ### What is meant -/

def optionValue (value : Option String) : Value := value.elim .none fun value => .text value.toList

/-- The options hold what was chosen, and the free text is what was chosen. -/
structure Faithful (chosen : Selection) (parsed : Namespace Value) : Prop where
  store : argument parsed "json_store" = some .none
  arch : argument parsed "arch" = some (optionValue chosen.arch)
  vendor : argument parsed "vendor" = some (optionValue chosen.vendor)
  dsl : argument parsed "dsl" = some (optionValue chosen.dsl)
  operator : argument parsed "operator" = some (optionValue chosen.operator)
  family : argument parsed "family" = some (optionValue chosen.family)
  symptom : argument parsed "symptom" = some (optionValue chosen.symptom)
  limit : argument parsed "limit" = some (.int chosen.limit)
  exclude : argument parsed "exclude" = some (optionValue chosen.exclude)
  emitJson : argument parsed "emit_json" = some (.bool true)
  brief : argument parsed "brief" = some (.bool false)
  fallback : argument parsed "fallback" = some (.bool false)
  maxBytes : argument parsed "max_bytes" = some (chosen.maxBytes.elim .none .int)
  terms : queryWords parsed.positional = queryWords (chosen.terms.map String.toList)

/-- The texts that are spliced into the vector. -/
def Selection.texts (chosen : Selection) : List String :=
  chosen.arch.toList ++ chosen.vendor.toList ++ chosen.dsl.toList ++ chosen.operator.toList ++ chosen.family.toList ++
    chosen.symptom.toList ++ chosen.terms ++ chosen.exclude.toList ++ (chosen.maxBytes.map toString).toList

/-- No text is read as an option. -/
def Selection.Plain (numbers : Numbers) (chosen : Selection) : Prop := ∀ text ∈ chosen.texts, (buildParser numbers).Plain text.toList

/-! ### The vector as settings -/

def textSetting (flag dest : String) (value : Option String) : List (Setting Value) :=
  value.elim [] fun value => [.store flag.toList dest.toList value.toList (.text value.toList)]

def numberSetting (flag dest : String) (value : Option ℤ) : List (Setting Value) :=
  value.elim [] fun value => [.store flag.toList dest.toList (toString value).toList (.int value)]

def boolSetting (flag dest : String) (value given : Bool) : List (Setting Value) :=
  if given then [.constant flag.toList dest.toList (.bool value)] else []

def Selection.head (chosen : Selection) : List (Setting Value) :=
  textSetting "--arch" "arch" chosen.arch ++ textSetting "--vendor" "vendor" chosen.vendor ++ textSetting "--dsl" "dsl" chosen.dsl ++
    textSetting "--operator" "operator" chosen.operator ++ textSetting "--family" "family" chosen.family ++
    textSetting "--symptom" "symptom" chosen.symptom

/-- What comes between the free text and the ids to exclude. -/
def Selection.middle (chosen : Selection) : List (Setting Value) :=
  boolSetting "--any" "any" true chosen.anyTerms ++ boolSetting "--cross-arch" "cross_arch" true chosen.crossArch ++
    boolSetting "--emit-json" "emit_json" true true ++ boolSetting "--no-fallback" "fallback" false true ++
    numberSetting "--limit" "limit" (some chosen.limit)

def Selection.tail (chosen : Selection) : List (Setting Value) :=
  chosen.middle ++ textSetting "--exclude" "exclude" chosen.exclude ++ numberSetting "--max-bytes" "max_bytes" chosen.maxBytes

theorem argsOf_append (settings more : List (Setting Value)) : argsOf (settings ++ more) = argsOf settings ++ argsOf more := by
  simp [argsOf]

theorem argsOf_text (flag dest : String) (value : Option String) :
    argsOf (textSetting flag dest value) = (flagged flag value).map String.toList := by
  cases value <;> rfl

theorem argsOf_number (flag dest : String) (value : Option ℤ) :
    argsOf (numberSetting flag dest value) = (flagged flag (value.map toString)).map String.toList := by
  cases value <;> rfl

theorem flags_eq (chosen : Selection) :
    chosen.flags.map String.toList = argsOf chosen.head ++ (chosen.terms.map String.toList ++ argsOf chosen.tail) := by
  unfold Selection.flags Selection.head Selection.tail Selection.middle
  simp only [argsOf_append, argsOf_text, argsOf_number, List.map_append, List.append_assoc]
  congr 7
  cases chosen.anyTerms <;> cases chosen.crossArch <;> rfl

/-! ### The options of the parser -/

section

variable {numbers : Numbers}

theorem lookup_keys {α : Type} (items : List (String × α)) (key : String) :
    (items.map fun item => (item.1.toList, item.2)).lookup key.toList = items.lookup key := by
  induction items with
  | nil => rfl
  | cons item items ih =>
      rw [List.map_cons, List.lookup_cons, List.lookup_cons, ih]
      by_cases same : key = item.1
      · rw [same, beq_self_eq_true, beq_self_eq_true]
      · have different : key.toList ≠ item.1.toList := fun equal => same (String.toList_inj.mp equal)
        rw [beq_false_of_ne same, beq_false_of_ne different]

/-- An option is read as itself. -/
theorem parseOptional_flag {flag : String} {action : Action Value} (dash : flag.toList.head? = some '-')
    (known : (wikiOptions numbers).lookup flag = some action) :
    (buildParser numbers).parseOptional flag.toList = .option action none := by
  unfold Parser.parseOptional
  rw [if_neg fun other => other dash, buildParser, lookup_keys, known]

theorem known_text {flag dest : String} {value : Option String} (dash : flag.toList.head? = some '-') (other : flag.toList ≠ MARKER)
    (known : (wikiOptions numbers).lookup flag = some (storeText dest)) :
    ∀ setting ∈ textSetting flag dest value, setting.Known (buildParser numbers) := by
  intro setting member
  cases value with
  | none => cases member
  | some value =>
      rw [List.mem_singleton.mp member]
      exact ⟨other, _, parseOptional_flag dash known, rfl⟩

theorem known_number {flag dest : String} {value : Option ℤ} (dash : flag.toList.head? = some '-') (other : flag.toList ≠ MARKER)
    (known : (wikiOptions numbers).lookup flag = some (storeInt numbers dest)) :
    ∀ setting ∈ numberSetting flag dest value, setting.Known (buildParser numbers) := by
  intro setting member
  cases value with
  | none => cases member
  | some value =>
      rw [List.mem_singleton.mp member]
      refine ⟨other, _, parseOptional_flag dash known, ?_⟩
      rw [numbers.int_str value, Option.map_some]

theorem known_bool {flag dest : String} {value given : Bool} (dash : flag.toList.head? = some '-') (other : flag.toList ≠ MARKER)
    (known : (wikiOptions numbers).lookup flag = some (.constant dest.toList (.bool value))) :
    ∀ setting ∈ boolSetting flag dest value given, setting.Known (buildParser numbers) := by
  intro setting member
  cases given with
  | false => cases member
  | true =>
      rw [List.mem_singleton.mp member]
      exact ⟨other, parseOptional_flag dash known⟩

theorem each_append {α : Type} {P : α → Prop} {items more : List α} (first : ∀ item ∈ items, P item) (second : ∀ item ∈ more, P item) :
    ∀ item ∈ items ++ more, P item := by
  intro item member
  rcases List.mem_append.mp member with inside | inside
  · exact first item inside
  · exact second item inside

theorem head_known (chosen : Selection) : ∀ setting ∈ chosen.head, setting.Known (buildParser numbers) := by
  unfold Selection.head
  refine each_append (each_append (each_append (each_append (each_append ?_ ?_) ?_) ?_) ?_) ?_
  all_goals exact known_text rfl (by decide) (by simp [wikiOptions, List.lookup_cons])

theorem middle_known (chosen : Selection) : ∀ setting ∈ chosen.middle, setting.Known (buildParser numbers) := by
  unfold Selection.middle
  refine each_append (each_append (each_append (each_append ?_ ?_) ?_) ?_) ?_
  · exact known_bool rfl (by decide) (by simp [wikiOptions, List.lookup_cons, storeTrue])
  · exact known_bool rfl (by decide) (by simp [wikiOptions, List.lookup_cons, storeTrue])
  · exact known_bool rfl (by decide) (by simp [wikiOptions, List.lookup_cons, storeTrue])
  · exact known_bool rfl (by decide) (by simp [wikiOptions, List.lookup_cons, storeTrue])
  · exact known_number rfl (by decide) (by simp [wikiOptions, List.lookup_cons])

theorem tail_known (chosen : Selection) : ∀ setting ∈ chosen.tail, setting.Known (buildParser numbers) := by
  unfold Selection.tail
  refine each_append (each_append (middle_known chosen) ?_) ?_
  · exact known_text rfl (by decide) (by simp [wikiOptions, List.lookup_cons])
  · exact known_number rfl (by decide) (by simp [wikiOptions, List.lookup_cons])

/-- The digits of a number begin with no dash. -/
theorem plain_limit {n : ℤ} (positive : 1 ≤ n) : (buildParser numbers).Plain (toString n).toList := by
  obtain ⟨m, rfl⟩ := Int.eq_ofNat_of_zero_le (Int.le_trans (by decide) positive)
  have text : (toString (m : ℤ)).toList = Nat.toDigits 10 m := by simp [toString, Int.repr, Nat.repr]
  refine if_pos fun dash => ?_
  rw [text] at dash
  have digit := Nat.isDigit_of_mem_toDigits (by decide) (Nat.le_refl 10) (List.mem_of_mem_head? dash)
  exact absurd digit (by decide)

/-! ### Plain texts are parsed as they were chosen -/

theorem plain_text {flag dest : String} {value : Option String} :
    (∀ setting ∈ textSetting flag dest value, setting.Plain (buildParser numbers)) ↔ ∀ text ∈ value.toList, (buildParser numbers).Plain text.toList := by
  cases value <;> simp [textSetting, Setting.Plain, Setting.text?]

theorem plain_number {flag dest : String} {value : Option ℤ} : (∀ setting ∈ numberSetting flag dest value, setting.Plain (buildParser numbers)) ↔
    ∀ text ∈ (value.map toString).toList, (buildParser numbers).Plain text.toList := by
  cases value <;> simp [numberSetting, Setting.Plain, Setting.text?]

theorem plain_bool {flag dest : String} {value given : Bool} :
    ∀ setting ∈ boolSetting flag dest value given, setting.Plain (buildParser numbers) := by
  cases given <;> simp [boolSetting, Setting.Plain, Setting.text?]

/-- The texts are plain where those of each part of the vector are. -/
theorem plain_iff_parts {chosen : Selection} (positive : 1 ≤ chosen.limit) : chosen.Plain numbers ↔
    (∀ setting ∈ chosen.head, setting.Plain (buildParser numbers)) ∧ (∀ term ∈ chosen.terms.map String.toList, (buildParser numbers).Plain term) ∧
      ∀ setting ∈ chosen.tail, setting.Plain (buildParser numbers) := by
  have limit : ∀ setting ∈ numberSetting "--limit" "limit" (some chosen.limit), setting.Plain (buildParser numbers) := by
    rw [plain_number]
    intro text member
    rw [List.mem_singleton.mp member]
    exact plain_limit positive
  have middle : ∀ setting ∈ chosen.middle, setting.Plain (buildParser numbers) := by
    unfold Selection.middle
    exact each_append (each_append (each_append (each_append plain_bool plain_bool) plain_bool) plain_bool) limit
  unfold Selection.Plain Selection.texts Selection.head Selection.tail
  simp only [List.forall_mem_append, plain_text, plain_number, List.forall_mem_map]
  tauto

end

/-! ### What the namespace holds -/

theorem get?_keyed (items : List (String × Value)) (key : String) : Items.get? (keyed items) key.toList = Items.get? items key := by
  induction items with
  | nil => rfl
  | cons item items ih =>
      have same : item.1.toList = key.toList ↔ item.1 = key := String.toList_inj
      rw [keyed, List.map_cons, Items.get?_cons, Items.get?_cons, ← ih]
      simp only [same]
      rfl

theorem get?_text (flag dest key : String) (value : Option String) : Items.get? ((textSetting flag dest value).map Setting.item).reverse key.toList =
    if dest = key then value.map fun value => .text value.toList else none := by
  cases value with
  | none => simp [textSetting]
  | some value =>
      have same : dest.toList = key.toList ↔ dest = key := String.toList_inj
      simp [textSetting, Setting.item, same]

theorem get?_number (flag dest key : String) (value : Option ℤ) : Items.get? ((numberSetting flag dest value).map Setting.item).reverse key.toList =
    if dest = key then value.map .int else none := by
  cases value with
  | none => simp [numberSetting]
  | some value =>
      have same : dest.toList = key.toList ↔ dest = key := String.toList_inj
      simp [numberSetting, Setting.item, same]

theorem get?_bool (flag dest key : String) (value given : Bool) : Items.get? ((boolSetting flag dest value given).map Setting.item).reverse key.toList =
    if given = true ∧ dest = key then some (.bool value) else none := by
  cases given with
  | false => simp [boolSetting]
  | true =>
      have same : dest.toList = key.toList ↔ dest = key := String.toList_inj
      simp [boolSetting, Setting.item, same]

/-- What an option holds once all settings have been read. -/
def holds (chosen : Selection) (key : String) : Option Value :=
  (Items.get? (chosen.tail.map Setting.item).reverse key.toList).or
    ((Items.get? (chosen.head.map Setting.item).reverse key.toList).or (Items.get? DEFAULTS key))

theorem parseWiki_plain {numbers : Numbers} {chosen : Selection} (positive : 1 ≤ chosen.limit) (plain : chosen.Plain numbers) :
    ∃ parsed, parseWiki numbers chosen.flags = some parsed ∧ parsed.positional = chosen.terms.map String.toList ∧
      ∀ key, argument parsed key = holds chosen key := by
  obtain ⟨head, terms, tail⟩ := (plain_iff_parts positive).mp plain
  have pending : (State.setAll ⟨.pending, keyed DEFAULTS⟩ chosen.head : State Value).positional = .pending := setAll_pending rfl chosen.head
  obtain ⟨positional, taken, middle⟩ := steps_plain terms (argsOf chosen.tail) pending
  generalize read_head : State.setAll ⟨.pending, keyed DEFAULTS⟩ chosen.head = first at middle
  have last := steps_settings (tail_known chosen) tail [] (⟨positional, first.values⟩ : State Value)
  rw [List.append_nil] at last
  generalize read_tail : State.setAll ⟨positional, first.values⟩ chosen.tail = final at last
  refine ⟨⟨final.positional.taken, final.values⟩, ?_, ?_, ?_⟩
  · rw [parseWiki, Parser.parseArgs, flags_eq, steps_settings (head_known chosen) head, read_head, middle, last, Parser.scan, steps]
    rfl
  · rw [← read_tail]
    exact (setAll_taken _ _).trans taken
  · intro key
    rw [argument, holds, ← read_tail, setAll_values, Items.get?_update, ← read_head, setAll_values, Items.get?_update, get?_keyed]

theorem getD_text (value : Option String) : (value.map fun value => Value.text value.toList).getD .none = optionValue value := by
  cases value <;> rfl

theorem getD_number (value : Option ℤ) : (value.map Value.int).getD .none = value.elim .none .int := by
  cases value <;> rfl

/-- What one option holds, part by part. -/
theorem holds_eq (chosen : Selection) (key : String) : holds chosen key =
    (if "max_bytes" = key then chosen.maxBytes.map .int else none).or
      ((if "exclude" = key then chosen.exclude.map fun value => .text value.toList else none).or
        ((if "limit" = key then some (.int chosen.limit) else none).or
          ((if "fallback" = key then some (.bool false) else none).or
            ((if "emit_json" = key then some (.bool true) else none).or
              ((if chosen.crossArch = true ∧ "cross_arch" = key then some (.bool true) else none).or
                ((if chosen.anyTerms = true ∧ "any" = key then some (.bool true) else none).or
                  ((if "symptom" = key then chosen.symptom.map fun value => .text value.toList else none).or
                    ((if "family" = key then chosen.family.map fun value => .text value.toList else none).or
                      ((if "operator" = key then chosen.operator.map fun value => .text value.toList else none).or
                        ((if "dsl" = key then chosen.dsl.map fun value => .text value.toList else none).or
                          ((if "vendor" = key then chosen.vendor.map fun value => .text value.toList else none).or
                            ((if "arch" = key then chosen.arch.map fun value => .text value.toList else none).or
                              (Items.get? DEFAULTS key))))))))))))) := by
  simp only [holds, Selection.tail, Selection.middle, Selection.head, List.map_append, List.reverse_append, Items.get?_append, get?_text,
    get?_number, get?_bool, Option.or_assoc, true_and, Option.map_some]

theorem faithful_of_plain {numbers : Numbers} {chosen : Selection} (positive : 1 ≤ chosen.limit) (plain : chosen.Plain numbers) :
    ∃ parsed, parseWiki numbers chosen.flags = some parsed ∧ Faithful chosen parsed := by
  obtain ⟨parsed, read, positional, values⟩ := parseWiki_plain positive plain
  refine ⟨parsed, read, ?_⟩
  constructor
  case terms => rw [positional]
  all_goals rw [values, holds_eq]; simp [DEFAULTS, getD_text, getD_number]

/-! ### A vector that is parsed as it was chosen has plain texts -/

/-- How often a word stands in a text. -/
def countWord (word : Arg) (text : Arg) : ℕ := (words text).count word

theorem count_flatMap (word : Arg) (texts : List Arg) : (texts.flatMap words).count word = total (countWord word) texts := by
  induction texts with
  | nil => rfl
  | cons text texts ih =>
      rw [List.flatMap_cons, List.count_append, ih]
      rfl

theorem length_flatMap (texts : List Arg) : (texts.flatMap words).length = total (fun text => (words text).length) texts := by
  induction texts with
  | nil => rfl
  | cons text texts ih =>
      rw [List.flatMap_cons, List.length_append, ih]
      rfl

theorem queryWords_eq (texts : List Arg) : queryWords texts = texts.flatMap words := words_joined texts

/-- A text without white space has no word but itself. -/
theorem countWord_solid {word text : Arg} (solid : Solid text) (different : text ≠ word) : countWord word text = 0 := by
  unfold countWord
  by_cases empty : text = []
  · rw [empty]
    rfl
  · rw [words_solid empty solid, List.count_singleton, if_neg (by simpa using different)]

/-- What a text is not that stands for an option: a marker, or one with an equals sign. -/
def Odd (word : Arg) : Prop := word = MARKER ∨ '=' ∈ word

theorem countWord_number {word : Arg} (odd : Odd word) (n : ℤ) : countWord word (toString n).toList = 0 := by
  have digits {c : Char} {m : ℕ} (member : c ∈ Nat.toDigits 10 m) : c.isDigit = true :=
    Nat.isDigit_of_mem_toDigits (by decide) (Nat.le_refl 10) member
  have solid_digit {c : Char} (digit : c.isDigit = true) : isSpace c = false := by
    simp only [Char.isDigit, Bool.and_eq_true, decide_eq_true_eq] at digit
    obtain ⟨low, high⟩ := digit
    have low' : 48 ≤ c.toNat := low
    have high' : c.toNat ≤ 57 := high
    simp only [isSpace, Bool.or_eq_false_iff, Bool.and_eq_false_iff, decide_eq_false_iff_not]
    omega
  have each : ∀ c ∈ (toString n).toList, c = '-' ∨ c.isDigit = true := by
    intro c member
    cases n with
    | ofNat m =>
        have text : (toString (Int.ofNat m)).toList = Nat.toDigits 10 m := by simp [toString, Int.repr, Nat.repr]
        rw [text] at member
        exact .inr (digits member)
    | negSucc m =>
        have text : (toString (Int.negSucc m)).toList = '-' :: Nat.toDigits 10 (m + 1) := by simp [toString, Int.repr, Nat.repr]
        rw [text] at member
        exact (List.mem_cons.mp member).imp_right digits
  have some_digit : ∃ c ∈ (toString n).toList, c.isDigit = true := by
    cases n with
    | ofNat m =>
        have text : (toString (Int.ofNat m)).toList = Nat.toDigits 10 m := by simp [toString, Int.repr, Nat.repr]
        obtain ⟨c, member⟩ := List.exists_mem_of_ne_nil _ (Nat.toDigits_ne_nil (n := m) (b := 10))
        exact ⟨c, text ▸ member, digits member⟩
    | negSucc m =>
        have text : (toString (Int.negSucc m)).toList = '-' :: Nat.toDigits 10 (m + 1) := by simp [toString, Int.repr, Nat.repr]
        obtain ⟨c, member⟩ := List.exists_mem_of_ne_nil _ (Nat.toDigits_ne_nil (n := m + 1) (b := 10))
        exact ⟨c, text ▸ List.mem_cons_of_mem _ member, digits member⟩
  refine countWord_solid (fun c member => ?_) fun same => ?_
  · rcases each c member with rfl | digit
    · decide
    · exact solid_digit digit
  · rcases odd with rfl | equals
    · obtain ⟨c, member, digit⟩ := some_digit
      rw [same] at member
      simp only [MARKER, List.mem_cons, List.not_mem_nil, or_false, or_self] at member
      rw [member] at digit
      exact absurd digit (by decide)
    · rcases each '=' (same ▸ equals) with other | digit
      · exact absurd other (by decide)
      · exact absurd digit (by decide)

/-- The name of an option is one word, and no odd one. -/
structure Flag (flag : String) : Prop where
  solid : Solid flag.toList
  equals : '=' ∉ flag.toList
  marker : flag.toList ≠ MARKER

instance (flag : String) : Decidable (Flag flag) :=
  decidable_of_iff (Solid flag.toList ∧ '=' ∉ flag.toList ∧ flag.toList ≠ MARKER) ⟨fun ⟨a, b, c⟩ => ⟨a, b, c⟩, fun ⟨a, b, c⟩ => ⟨a, b, c⟩⟩

theorem countWord_flag {word : Arg} (odd : Odd word) {flag : String} (named : Flag flag) : countWord word flag.toList = 0 := by
  refine countWord_solid named.solid fun same => ?_
  rcases odd with rfl | equals
  · exact named.marker same
  · exact named.equals (same ▸ equals)

theorem total_text {word : Arg} (odd : Odd word) {flag : String} (named : Flag flag) (dest : String) (value : Option String) :
    total (countWord word) (argsOf (textSetting flag dest value)) = value.elim 0 fun value => countWord word value.toList := by
  cases value with
  | none => rfl
  | some value => simp [argsOf, textSetting, Setting.args, countWord_flag odd named]

theorem total_number {word : Arg} (odd : Odd word) {flag : String} (named : Flag flag) (dest : String) (value : Option ℤ) :
    total (countWord word) (argsOf (numberSetting flag dest value)) = 0 := by
  cases value with
  | none => rfl
  | some value =>
      have args : argsOf (numberSetting flag dest (some value)) = [flag.toList, (toString value).toList] := rfl
      rw [args, total_cons, total_cons, countWord_flag odd named, countWord_number odd]
      rfl

theorem total_bool {word : Arg} (odd : Odd word) {flag : String} (named : Flag flag) (dest : String) (value given : Bool) :
    total (countWord word) (argsOf (boolSetting flag dest value given)) = 0 := by
  cases given with
  | false => rfl
  | true => simp [argsOf, boolSetting, Setting.args, countWord_flag odd named]

/-- An odd word stands after the free text only in the ids to exclude. -/
theorem total_tail {word : Arg} (odd : Odd word) (chosen : Selection) :
    total (countWord word) (argsOf chosen.tail) = chosen.exclude.elim 0 fun value => countWord word value.toList := by
  simp only [Selection.tail, Selection.middle, argsOf_append, total_append, total_bool odd (show Flag "--any" by decide),
    total_bool odd (show Flag "--cross-arch" by decide), total_bool odd (show Flag "--emit-json" by decide),
    total_bool odd (show Flag "--no-fallback" by decide), total_number odd (show Flag "--limit" by decide),
    total_text odd (show Flag "--exclude" by decide), total_number odd (show Flag "--max-bytes" by decide), Nat.zero_add, Nat.add_zero]

/-- The ids to exclude are stored as they are given, and by one option. -/
theorem exclude_option {numbers : Numbers} {name : Arg} {action : Action Value} (known : (name, action) ∈ (buildParser numbers).options) :
    (∀ convert, action = .store "exclude".toList convert → name = "--exclude".toList ∧ convert = fun arg => some (.text arg)) ∧
      ∀ value, action ≠ .constant "exclude".toList value := by
  have all : ∀ option ∈ wikiOptions numbers,
      (∀ convert, option.2 = .store "exclude".toList convert → option.1 = "--exclude" ∧ convert = fun arg => some (.text arg)) ∧
        ∀ value, option.2 ≠ .constant "exclude".toList value := by
    unfold wikiOptions storeText storeChoice storeInt storeFloat storeTrue
    simp only [List.forall_mem_cons, Action.store.injEq, Action.constant.injEq, String.toList_inj, reduceCtorEq, false_and, not_false_eq_true,
      implies_true, and_true, ne_eq, String.reduceEq, false_implies, true_and, List.not_mem_nil]
    exact fun convert same => same.symm
  obtain ⟨option, listed, same⟩ := List.mem_map.mp known
  obtain ⟨rfl, rfl⟩ := Prod.mk.inj same
  refine ⟨fun convert stores => ?_, (all option listed).2⟩
  obtain ⟨named, stored⟩ := (all option listed).1 convert stores
  exact ⟨congrArg String.toList named, stored⟩

/-- Where no term is the marker, a faithful reading takes every term as it stands. -/
theorem terms_plain {numbers : Numbers} {chosen : Selection} {first final : State Value} (others : MARKER ∉ chosen.terms.map String.toList)
    (pending : first.positional = .pending)
    (read : steps ((buildParser numbers).scan (chosen.terms.map String.toList ++ argsOf chosen.tail)) first = some final)
    (terms : queryWords final.positional.taken = queryWords (chosen.terms.map String.toList)) :
    (∀ term ∈ chosen.terms.map String.toList, (buildParser numbers).Plain term) ∧ ∀ setting ∈ chosen.tail, setting.Plain (buildParser numbers) := by
  have fresh : Fresh ((buildParser numbers).scan (argsOf chosen.tail)) := by
    cases settings : chosen.tail with
    | nil => exact fun text rest same => nomatch same
    | cons setting more => exact fresh_settings (tail_known chosen setting (by simp [settings])) more
  rw [scan_append others, steps_append _ fresh] at read
  obtain ⟨middle, read_terms, read_tail⟩ := Option.bind_eq_some_iff.mp read
  have read_tail : steps ((buildParser numbers).scan (argsOf chosen.tail ++ [])) middle = some final := by rwa [List.append_nil]
  have tail := plain_of_steps (tail_known chosen) read_tail
  rw [steps_settings (tail_known chosen) tail [] middle, Parser.scan, steps] at read_tail
  obtain ⟨taken, used, ledger⟩ := steps_ledger read_terms
  have texts : ((chosen.terms.map String.toList).map (buildParser numbers).token).map Token.text = chosen.terms.map String.toList := by
    rw [List.map_map]
    exact List.map_id'' (fun arg => token_text arg) _
  have same_taken : final.positional.taken = taken := by
    rw [← Option.some.inj read_tail, setAll_taken, ledger.positional, pending]
    rfl
  have none_used : total (fun text => (words text).length) used = 0 := by
    have once := ledger.once fun text => (words text).length
    have length := congrArg List.length terms
    rw [queryWords_eq, queryWords_eq, length_flatMap, length_flatMap, same_taken] at length
    rw [texts] at once
    omega
  refine ⟨fun term member => ?_, tail⟩
  by_contra not_plain
  have listed : (buildParser numbers).token term ∈ (chosen.terms.map String.toList).map (buildParser numbers).token := List.mem_map_of_mem member
  rcases token_of_not_plain not_plain with ⟨action, explicit, option⟩ | refused
  · -- The words of an option would be missing from the free text.
    have below := le_total (fun text => (words text).length) (ledger.options term action explicit (option ▸ listed))
    have above := words_pos (List.mem_of_mem_head? (head_of_not_plain not_plain)) (by decide)
    omega
  · exact ledger.accepted term (refused ▸ listed)

/-- A reading that an option begins, joined to the ids to exclude, has a word more than they have. -/
theorem countWord_joined {start : Arg} (begun : start <+: "--exclude".toList) (text : Arg) :
    ∃ word, Odd word ∧ countWord word text < countWord word (start ++ '=' :: text) := by
  have solid : Solid (start ++ ['=']) := by
    intro c member
    rcases List.mem_append.mp member with first | last
    · exact (show Solid "--exclude".toList by decide) c (begun.subset first)
    · rw [List.mem_singleton.mp last]
      decide
  have split := words_prefix (by simp) solid text
  rw [List.append_assoc, List.singleton_append] at split
  refine ⟨(start ++ ['=']) ++ text.takeWhile fun c => !isSpace c, .inr (by simp), ?_⟩
  have longer : (text.takeWhile fun c => !isSpace c) ≠ (start ++ ['=']) ++ text.takeWhile fun c => !isSpace c := by
    intro same
    have length := congrArg List.length same
    simp only [List.length_append, List.length_cons, List.length_nil] at length
    omega
  have none_first : countWord ((start ++ ['=']) ++ text.takeWhile fun c => !isSpace c) (text.takeWhile fun c => !isSpace c) = 0 :=
    countWord_solid (takeWhile_solid text) longer
  unfold countWord at none_first ⊢
  rw [split, List.count_cons_self, words_split text, List.count_append, none_first, Nat.zero_add]
  exact Nat.lt_succ_self _

/-- A marker among the terms never leaves a faithful reading: what follows it becomes free text. -/
theorem marker_not_faithful {numbers : Numbers} {chosen : Selection} {first final : State Value} (marked : MARKER ∈ chosen.terms.map String.toList)
    (pending : first.positional = .pending) (unset : Items.get? first.values "exclude".toList = some .none)
    (read : steps ((buildParser numbers).scan (chosen.terms.map String.toList ++ argsOf chosen.tail)) first = some final)
    (terms : queryWords final.positional.taken = queryWords (chosen.terms.map String.toList))
    (excluded : Items.get? final.values "exclude".toList = some (optionValue chosen.exclude)) : False := by
  obtain ⟨before, after, split, others⟩ := List.eq_append_cons_of_mem marked
  have fresh : Fresh (.marker :: (after ++ argsOf chosen.tail).map .arg : List (Token Value)) := fun text rest same => nomatch same
  rw [split, List.append_assoc, List.cons_append, scan_marker others, steps_append _ fresh] at read
  obtain ⟨middle, read_before, read_after⟩ := Option.bind_eq_some_iff.mp read
  rw [steps] at read_after
  obtain ⟨positional, mark, read_after⟩ := Option.bind_eq_some_iff.mp read_after
  obtain ⟨all_taken, values⟩ := steps_args read_after
  obtain ⟨taken, used, ledger⟩ := steps_ledger read_before
  have texts : (before.map (buildParser numbers).token).map Token.text = before := by
    rw [List.map_map]
    exact List.map_id'' (fun arg => token_text arg) _
  have same_taken : final.positional.taken = taken ++ (after ++ argsOf chosen.tail) := by
    rw [all_taken, mark_taken mark, ledger.positional, pending]
    rfl
  -- Every odd word that an option used stands once more in the ids to exclude.
  have spent {word : Arg} (odd : Odd word) :
      total (countWord word) used + countWord word MARKER ≤ chosen.exclude.elim 0 fun value => countWord word value.toList := by
    have once := ledger.once (countWord word)
    have count := congrArg (List.count word) terms
    rw [queryWords_eq, queryWords_eq, count_flatMap, count_flatMap, same_taken, split] at count
    simp only [total_append, total_cons, total_tail odd chosen] at count
    rw [texts] at once
    omega
  have marker : countWord MARKER MARKER = 1 := by decide
  have spent_marker := spent (.inl rfl : Odd MARKER)
  rw [marker] at spent_marker
  cases chosen_exclude : chosen.exclude with
  | none => rw [chosen_exclude] at spent_marker; exact absurd spent_marker (by simp)
  | some exclude =>
      rw [chosen_exclude] at spent_marker excluded
      simp only [Option.elim_some] at spent_marker
      rw [values] at excluded
      rcases ledger.values _ _ excluded with before_all | origin
      · rw [unset] at before_all
        cases before_all
      · cases origin with
        | constant text read =>
            obtain ⟨name, known, _⟩ := parseOptional_option (mem_token read)
            exact (exclude_option known).2 _ rfl
        | joined text explicit convert read inside same =>
            obtain ⟨name, known, joined⟩ := parseOptional_option (mem_token read)
            obtain ⟨rfl, rfl⟩ := (exclude_option known).1 convert rfl
            have same_text : explicit = exclude.toList := by simpa [optionValue] using same
            rcases joined explicit rfl with ⟨start, begun, text_eq⟩ | ⟨c, short, _⟩
            · rw [same_text] at text_eq
              obtain ⟨word, odd, more⟩ := countWord_joined begun exclude.toList
              have below := le_total (countWord word) inside
              have above := spent odd
              rw [chosen_exclude, Option.elim_some] at above
              rw [text_eq] at below
              omega
            · have length := congrArg List.length short
              exact absurd length (by rw [show "--exclude".toList.length = 9 from rfl]; simp)
        | separate text follower convert read inside same =>
            obtain ⟨name, known, _⟩ := parseOptional_option (mem_token read)
            obtain ⟨rfl, rfl⟩ := (exclude_option known).1 convert rfl
            have same_text : follower = exclude.toList := by simpa [optionValue] using same
            have below := le_total (countWord MARKER) inside
            rw [same_text] at below
            omega

theorem plain_of_faithful {numbers : Numbers} {chosen : Selection} {parsed : Namespace Value} (positive : 1 ≤ chosen.limit)
    (read : parseWiki numbers chosen.flags = some parsed) (faithful : Faithful chosen parsed) : chosen.Plain numbers := by
  unfold parseWiki Parser.parseArgs at read
  obtain ⟨final, scanned, rfl⟩ := Option.map_eq_some_iff.mp read
  rw [flags_eq] at scanned
  have head := plain_of_steps (head_known chosen) scanned
  rw [steps_settings (head_known chosen) head] at scanned
  have pending : (State.setAll ⟨.pending, keyed DEFAULTS⟩ chosen.head : State Value).positional = .pending := setAll_pending rfl chosen.head
  have unset : Items.get? (State.setAll ⟨.pending, keyed DEFAULTS⟩ chosen.head).values "exclude".toList = some .none := by
    rw [setAll_values, Items.get?_update, get?_keyed]
    simp only [Selection.head, List.map_append, List.reverse_append, Items.get?_append, get?_text]
    rfl
  refine (plain_iff_parts positive).mpr ⟨head, ?_⟩
  by_cases marked : MARKER ∈ chosen.terms.map String.toList
  · exact (marker_not_faithful marked pending unset scanned faithful.terms faithful.exclude).elim
  · exact terms_plain marked pending scanned faithful.terms

/-- A vector is parsed as it was chosen exactly where each of its texts is plain. -/
theorem faithful_iff_plain {numbers : Numbers} {chosen : Selection} (positive : 1 ≤ chosen.limit) :
    (∃ parsed, parseWiki numbers chosen.flags = some parsed ∧ Faithful chosen parsed) ↔ chosen.Plain numbers :=
  ⟨fun ⟨_, read, faithful⟩ => plain_of_faithful positive read faithful, faithful_of_plain positive⟩

def decimal (digits : List Char) : Option ℕ :=
  if digits ≠ [] ∧ digits.all Char.isDigit then some (Nat.ofDigitChars 10 digits 0) else none

theorem decimal_digits (n : ℕ) : decimal (Nat.toDigits 10 n) = some n := by
  have digits : (Nat.toDigits 10 n).all Char.isDigit = true := by
    rw [List.all_eq_true]
    exact fun c member => Nat.isDigit_of_mem_toDigits (by decide) (Nat.le_refl 10) member
  rw [decimal, if_pos ⟨Nat.toDigits_ne_nil, digits⟩, Nat.ofDigitChars_ten_toDigits]

def decimalNumbers : Numbers where
  int
    | '-' :: digits => (decimal digits).map fun n : ℕ => -(n : ℤ)
    | digits => (decimal digits).map Int.ofNat
  float := fun text => (decimal text).isSome
  wideDigit := fun _ => false
  int_str := by
    intro n
    cases n with
    | ofNat m =>
        have text : (toString (Int.ofNat m)).toList = Nat.toDigits 10 m := by simp [toString, Int.repr, Nat.repr]
        rw [text]
        split
        · rename_i digits same
          have dash : '-' ∈ Nat.toDigits 10 m := by simp [same]
          exact absurd (Nat.isDigit_of_mem_toDigits (by decide) (Nat.le_refl 10) dash) (by decide)
        · exact congrArg (Option.map Int.ofNat) (decimal_digits m)
    | negSucc m =>
        have text : (toString (Int.negSucc m)).toList = '-' :: Nat.toDigits 10 (m + 1) := by simp [toString, Int.repr, Nat.repr]
        rw [text]
        exact congrArg (Option.map fun n : ℕ => -(n : ℤ)) (decimal_digits (m + 1))

/-- A store without records. -/
def bareWiki : Wiki Unit where
  texts := { strip := id, lower := id, log1p := id, sqrt := id, str := fun _ => "", casefold := id }
  vocabulary := ⟨[], [], [], [], []⟩
  hardware := ⟨fun _ => none, id, fun _ => none, fun _ => none⟩
  operators := []
  families := []
  corpus := ⟨[], none⟩

def tileRequest : Json Unit :=
  .obj [("architecture", .null), ("vendor", .null), ("dsl", .null), ("operator_terms", .arr []), ("measured_symptoms", .arr []),
    ("free_text_terms", .arr [.str "tile", .str "--like"]), ("intents", .arr [.str "technique"]), ("hardware_requests", .arr [])]

end AtrexAgent.Intent
