import AtrexAgent.Library.Regex

/-! Redaction of what an agent is shown: private values and paths, secrets that a text
names, and the dimensions of hidden workloads. -/

namespace AtrexAgent.Evaluation

open AtrexAgent.Json AtrexAgent.Regex

/-- What the regular expressions read of the interpreter's Unicode tables: `\w`, `\s`, `\d`,
and equality under `re.I`. -/
structure CharTables where
  word : Char → Bool
  space : Char → Bool
  digit : Char → Bool
  same : Char → Char → Bool

namespace CharTables

variable (tables : CharTables)

def exact (c d : Char) : Bool := c = d

def among (letters : String) : Regex := .char fun d => letters.toList.any fun c => tables.same c d

def folded (text : String) : Regex := literal text tables.same

def spaces : Regex := .star (.char tables.space)

def digits : Regex := plus (.char tables.digit)

/-- `\b` -/
def boundary : Regex :=
  .look fun previous next => previous.any tables.word != next.any tables.word

/-- `(?<![\w])` -/
def notAfterWord : Regex := .look fun previous _ => !previous.any tables.word

end CharTables

def except (letters : String) : Regex := .char fun d => !letters.toList.contains d

def one (c : Char) : Regex := .char fun d => d = c

def oneIn (letters : String) : Regex := .char fun d => letters.toList.contains d

def anyChar : Regex := .char fun d => d ≠ '\n'

section Patterns

variable (tables : CharTables)

/-- `_SECRET_KEY` -/
def secretKeyPattern : Regex :=
  let folded := tables.folded
  oneOf [
    folded "authorization", folded "password", folded "ak", folded "sk",
    folded "atrex_aka_identity_key",
    sequence [folded "agate", Regex.optional (oneIn "_-"), oneOf [folded "ak", folded "sk", folded "token"]],
    sequence [Regex.optional (sequence [.star anyChar, oneIn "_-"]),
      oneOf [folded "api", folded "access", folded "secret"], Regex.optional (oneIn "_-"), folded "key",
      Regex.optional (sequence [Regex.optional (oneIn "_-"), folded "id"])],
    sequence [.star anyChar,
      oneOf [folded "token", folded "password", folded "secret", folded "credential"],
      .star anyChar]]

/-- `_SECRET_TEXT`, with its two groups kept. -/
def secretText : List Rule :=
  let folded := tables.folded
  [{ before := sequence [tables.boundary,
        oneOf [folded "AGATE_AK", folded "AGATE_SK", folded "AGATE_TOKEN", folded "API_KEY",
          folded "ACCESS_KEY", folded "SECRET_KEY", folded "PASSWORD"],
        tables.spaces, oneIn "=:", tables.spaces]
     body := oneOf [
        sequence [one '"', .star (except "\""), one '"'],
        sequence [one '\'', .star (except "'"), one '\''],
        plus (.char fun d => !(tables.space d || ",;\"']\x7d".toList.contains d))]
     after := .empty },
   { before := sequence [tables.boundary,
        Regex.optional (sequence [folded "Authorization", tables.spaces, one ':', tables.spaces]),
        folded "Bearer", plus (.char tables.space)]
     body := sequence [plus (tables.among
        "ABCDEFGHIJKLMNOPQRSTUVWXYZabcdefghijklmnopqrstuvwxyz0123456789._~+/-"), .star (one '=')]
     after := .empty }]

def signed : Regex := .seq (Regex.optional (one '-')) tables.digits

/-- The patterns of `redact_hidden_shapes`, one substitution each. -/
def shapeRuns : List Rule :=
  let folded := tables.folded
  let gaps := Regex.star (oneIn " \t")
  [{ before := sequence [tables.boundary,
        oneOf [folded "shapes", folded "shape", folded "sizes", folded "size", folded "strides",
          folded "stride", folded "dimensions", folded "dimension", folded "dims", folded "dim",
          folded "numel", folded "batch_size", folded "seq_len"],
        tables.spaces, Regex.optional (oneOf [oneIn "=:", folded "of"]), tables.spaces]
     body := .seq (signed tables) (.star (.seq
        (oneOf [sequence [gaps, tables.among ",x×", gaps], plus (oneIn " \t")]) (signed tables)))
     after := .empty }]

def shapeVectors : List Rule :=
  let spaces := tables.spaces
  [{ before := .empty
     body := sequence [literal "torch.Size([" CharTables.exact, .star (except "]"),
        literal "])" CharTables.exact]
     after := .empty },
   { before := .empty
     body := sequence [tables.notAfterWord, oneIn "[(", spaces, signed tables,
        plus (sequence [spaces, one ',', spaces, signed tables]), spaces, Regex.optional (one ','), spaces,
        oneIn "])"]
     after := .empty }]

def shapeSingles : List Rule :=
  let spaces := tables.spaces
  [{ before := .empty
     body := .seq tables.notAfterWord (oneOf [
        sequence [one '(', spaces, signed tables, spaces, one ',', spaces, one ')'],
        sequence [one '[', spaces, signed tables, spaces, one ']']])
     after := .empty }]

def shapeProducts : List Rule :=
  [{ before := .empty
     body := sequence [tables.boundary, tables.digits,
        plus (sequence [tables.spaces, oneIn "x×", tables.spaces, tables.digits]), tables.boundary]
     after := .empty }]

def shapeNames : List Rule :=
  let named := fun name => literal name CharTables.exact
  [{ before := sequence [tables.boundary,
        oneOf [named "N", named "M", named "K", named "B", named "S", named "batch", named "seq",
          named "sequence_length", named "hidden_size", named "head_dim", named "num_heads"],
        tables.spaces, oneIn "=:", tables.spaces]
     body := tables.digits
     after := .empty }]

def shapeTensors : List Rule :=
  [{ before := sequence [tables.folded "size of tensor ", tables.among "ab", tables.spaces, one '(']
     body := tables.digits
     after := one ')' }]

def shapeExpected : List Rule :=
  let folded := tables.folded
  [{ before := sequence [tables.boundary, oneOf [folded "expected", folded "got"],
        plus (.char tables.space), Regex.optional (.seq (folded "size") (plus (.char tables.space)))]
     body := .seq (signed tables) tables.boundary
     after := .empty }]

def shapeWords : Regex :=
  sequence [tables.boundary,
    oneOf [tables.folded "shape", tables.folded "size", tables.folded "dimension"], tables.boundary]

end Patterns

/-! ### Texts -/

def redacted : Text := "redacted".toList

def supervisor : Text := "supervisor".toList

def hiddenShape : Text := "hidden shape".toList

/-- The distinct items that are not empty, the longest first. -/
def longestFirst (items : List Text) : List Text :=
  ((items.filter fun item => !item.isEmpty).dedup).mergeSort fun a b => b.length ≤ a.length

def replaceAll (label : Text) (secrets : List Text) (text : Text) : Text :=
  secrets.foldl (fun text secret => replace text secret (angled label)) text

/-- `redact_diagnostics` of a text. -/
def redactText (tables : CharTables) (privatePaths privateValues : List Text) (text : Text) :
    Text :=
  sub (secretText tables) (angled redacted)
    (replaceAll supervisor (longestFirst privatePaths)
      (replaceAll redacted (longestFirst privateValues) text))

/-- The patterns of `redact_hidden_shapes`, one after the other. -/
def hideText (tables : CharTables) (text : Text) : Text :=
  let mark := angled hiddenShape
  let text := sub (shapeRuns tables) mark text
  let text := sub (shapeVectors tables) mark text
  let text := sub (shapeSingles tables) mark text
  let text := sub (shapeProducts tables) mark text
  let text := sub (shapeNames tables) mark text
  let text := sub (shapeTensors tables) mark text
  if search (shapeWords tables) none text then sub (shapeExpected tables) mark text else text

/-! ### Values -/

section Values

variable {F : Type} (constant : String → Option Text) (onText : Text → Text)

mutual

/-- A value with its strings rewritten, and a constant under some keys. -/
def mapStrings : Json F → Json F
  | .str s => .str (String.ofList (onText s.toList))
  | .arr items => .arr (mapItems items)
  | .obj items => .obj (mapMembers items)
  | .null => .null
  | .bool b => .bool b
  | .int n => .int n
  | .float x => .float x

def mapItems : List (Json F) → List (Json F)
  | [] => []
  | item :: rest => mapStrings item :: mapItems rest

def mapMembers : List (String × Json F) → List (String × Json F)
  | [] => []
  | (key, value) :: rest =>
      (key, match constant key with
        | some text => .str (String.ofList text)
        | none => mapStrings value) :: mapMembers rest

end

end Values

section Redact

variable {F : Type} [FloatText F] (tables : CharTables)

/-- `redact_diagnostics` -/
def redactDiagnostics (privatePaths privateValues : List Text) : Json F → Json F :=
  mapStrings (fun key =>
      if (secretKeyPattern tables).fullmatch key.toList then some (angled redacted) else none)
    (redactText tables privatePaths privateValues)

/-- `_hidden_shape_key`, of a key in lower case. -/
def hiddenShapeKey (key : Text) : Bool :=
  let ends := fun (tail : String) => tail.toList.isSuffixOf key
  if ends "shape_id" || ends "shape_ids" || ends "_by_shape" then false
  else (["shape", "shapes", "input_shape", "output_shape", "strides", "init_kwargs",
      "forward_kwargs"].map String.toList).contains key ||
    ends "_shape" || ends "_shapes" || ends "_dimensions" || ends "_dims" || ends "_strides"

-- `lower` is `str.lower`.
variable (lower : Text → Text)

def hideWith (onText : Text → Text) : Json F → Json F :=
  mapStrings (fun key =>
    if hiddenShapeKey (lower key.toList) then some (angled hiddenShape) else none) onText

/-- The text looks like an encoded object. -/
def looksEncoded (text : Text) : Bool := (text.dropWhile tables.space).head? = some '{'

/-- `redact_hidden_shapes` of a text. An encoded object is decoded, and its strings, which
are shorter, are treated in the same way. -/
def hideString (F : Type) [FloatText F] : Nat → Text → Text
  | 0, text => hideText tables text
  | fuel + 1, text =>
      if looksEncoded tables text then
        match (loads text : Option (Json F)) with
        | some value => dumps (hideWith lower (hideString F fuel) value)
        | none => hideText tables text
      else hideText tables text

/-- `redact_hidden_shapes` -/
def redactHiddenShapes : Json F → Json F :=
  hideWith lower fun text => hideString tables lower F text.length text

end Redact

/-! ### What redaction keeps -/

/-- The marks that redaction writes. -/
def redactionMarks : List Text := [angled redacted, angled supervisor, angled hiddenShape]

theorem redactionMarks_nonempty : ∀ mark ∈ redactionMarks, mark ≠ [] := by decide

theorem replaceAll_keeps {P : Text → Prop} (kept : Kept redactionMarks P) (label : Text)
    (listed : angled label ∈ redactionMarks) (secrets : List Text) (text : Text) (holds : P text) :
    P (replaceAll label secrets text) := by
  unfold replaceAll
  induction secrets generalizing text with
  | nil => exact holds
  | cons secret rest ih =>
      exact ih _ (kept (angled label) listed _ _ (replace_rewrites text secret _) holds)

theorem sub_keeps {P : Text → Prop} (kept : Kept redactionMarks P) (label : Text)
    (listed : angled label ∈ redactionMarks) (rules : List Rule) (text : Text) (holds : P text) :
    P (sub rules (angled label) text) :=
  kept (angled label) listed _ _ (sub_rewrites rules _ text) holds

theorem redactText_keeps {P : Text → Prop} (kept : Kept redactionMarks P) (tables : CharTables)
    (privatePaths privateValues : List Text) (text : Text) (holds : P text) :
    P (redactText tables privatePaths privateValues text) :=
  sub_keeps kept redacted (by simp [redactionMarks]) _ _
    (replaceAll_keeps kept supervisor (by simp [redactionMarks]) _ _
      (replaceAll_keeps kept redacted (by simp [redactionMarks]) _ _ holds))

theorem hideText_keeps {P : Text → Prop} (kept : Kept redactionMarks P) (tables : CharTables)
    (text : Text) (holds : P text) : P (hideText tables text) := by
  have step := sub_keeps kept hiddenShape (by simp [redactionMarks])
  have six := step (shapeTensors tables) _ (step (shapeNames tables) _
    (step (shapeProducts tables) _ (step (shapeSingles tables) _
      (step (shapeVectors tables) _ (step (shapeRuns tables) _ holds)))))
  unfold hideText
  dsimp only
  split
  · exact step (shapeExpected tables) _ six
  · exact six

/-- An encoded object is encoded again; any other text is rewritten. -/
theorem hideString_cases (tables : CharTables) (lower : Text → Text) (F : Type) [FloatText F]
    (fuel : Nat) (text : Text) :
    hideString tables lower F fuel text = hideText tables text ∨
      ∃ value : Json F, hideString tables lower F fuel text = dumps value := by
  cases fuel with
  | zero => exact Or.inl rfl
  | succ fuel =>
      rw [hideString]
      split
      · split
        · exact Or.inr ⟨_, rfl⟩
        · exact Or.inl rfl
      · exact Or.inl rfl

theorem hideString_keeps {P : Text → Prop} (kept : Kept redactionMarks P)
    (tables : CharTables) (lower : Text → Text) (F : Type) [FloatText F]
    (encoded : ∀ value : Json F, P (dumps value)) (fuel : Nat) (text : Text) (holds : P text) :
    P (hideString tables lower F fuel text) := by
  rcases hideString_cases tables lower F fuel text with rewritten | ⟨value, written⟩
  · rw [rewritten]
    exact hideText_keeps kept tables text holds
  · rw [written]
    exact encoded value

section Keys

variable {F : Type} (constant : String → Option Text) (onText : Text → Text)

theorem mapMembers_keys (items : List (String × Json F)) :
    (mapMembers constant onText items).map Prod.fst = items.map Prod.fst := by
  induction items with
  | nil => rfl
  | cons item rest ih => rw [mapMembers, List.map_cons, List.map_cons, ih]

mutual

/-- Rewriting the strings of a value keeps its keys distinct. -/
theorem mapStrings_distinct (value : Json F) (distinct : Distinct value) :
    Distinct (mapStrings constant onText value) := by
  cases value with
  | null => trivial
  | bool b => trivial
  | int n => trivial
  | float x => trivial
  | str s => trivial
  | arr items =>
      rw [mapStrings, Distinct]
      exact mapItems_distinct items distinct
  | obj items =>
      rw [mapStrings, Distinct, mapMembers_keys]
      exact ⟨distinct.1, mapMembers_distinct items distinct.2⟩

theorem mapItems_distinct (items : List (Json F)) (distinct : DistinctItems items) :
    DistinctItems (mapItems constant onText items) := by
  cases items with
  | nil => trivial
  | cons item rest =>
      rw [mapItems, DistinctItems]
      exact ⟨mapStrings_distinct item distinct.1, mapItems_distinct rest distinct.2⟩

theorem mapMembers_distinct (items : List (String × Json F)) (distinct : DistinctMembers items) :
    DistinctMembers (mapMembers constant onText items) := by
  cases items with
  | nil => trivial
  | cons item rest =>
      obtain ⟨key, value⟩ := item
      rw [mapMembers, DistinctMembers]
      refine ⟨?_, mapMembers_distinct rest distinct.2⟩
      split
      · trivial
      · exact mapStrings_distinct value distinct.1

end

end Keys

end AtrexAgent.Evaluation
