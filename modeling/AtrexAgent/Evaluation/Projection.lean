import AtrexAgent.Evaluation.Redaction
import AtrexAgent.Library.Traversal

/-! The projection of a Gateway process: its result lines decoded, formatted, redacted
and encoded again in place, its other lines redacted as text, and the limits on the
size of both streams. -/

namespace AtrexAgent.Evaluation

open AtrexAgent.Json AtrexAgent.Regex

def resultPrefix : Text := "[test_kernel] RESULT_JSON=".toList
def abbaPrefix : Text := "[sandbox] ABBA_JSON=".toList
def profilePrefix : Text := "[sandbox] PROFILE_JSON=".toList
def checkPrefix : Text := "[sandbox] CHECK_JSON=".toList
def disassemblePrefix : Text := "[sandbox] DISASSEMBLE_JSON=".toList
def envPrefix : Text := "[sandbox] ENV_JSON=".toList
def numericalResultPrefix : Text := "__ATREX_NUMERICAL_RESULT__=".toList
def sourceErrorPrefix : Text := "[sandbox] SOURCE_ERROR_JSON=".toList
def gatewayErrorPrefix : Text := "[sandbox] GATEWAY_ERROR_JSON=".toList

/-- The markers with a formatter, in the order in which they are tried. -/
def knownPrefixes : List Text :=
  [resultPrefix, profilePrefix, checkPrefix, disassemblePrefix, abbaPrefix, envPrefix,
    numericalResultPrefix, sourceErrorPrefix, gatewayErrorPrefix]

/-- What a formatter raises: an exception that the projection catches, or another. -/
inductive FormatError where
  | caught
  | other (name : String)
  deriving DecidableEq, Repr

/-- The formatters of the known markers, which return dicts, and the interpreter's
tables. -/
structure Formatters (F : Type) where
  tables : CharTables
  lower : Text → Text
  format : Text → Json.Dict F → Except FormatError (Json.Dict F)
  distinct : ∀ marker raw value, format marker raw = .ok value → Distinct (.obj raw) →
    Distinct (.obj value)

structure Request where
  generalized : Bool
  wiki : Bool
  publicDev : Bool
  operation : String
  privatePaths : List Text
  privateValues : List Text

def Request.hideShapes (request : Request) : Bool :=
  request.generalized && !request.wiki && !request.publicDev

/-- A projected line: a text, or a marker with the object encoded after it. -/
inductive Line (F : Type) where
  | plain (text : Text)
  | marked (marker : Text) (value : Json.Dict F)

variable {F : Type} [FloatText F]

def Line.text : Line F → Text
  | .plain text => text
  | .marked marker value => marker ++ dumps (.obj value)

section Lines

variable (formatters : Formatters F) (request : Request)

/-- `^(\[[^\]\r\n]+\]\s+[A-Za-z0-9_]+_JSON=)` -/
def jsonMarker : Regex :=
  sequence [one '[', plus (except "]\r\n"), one ']', plus (.char formatters.tables.space),
    plus (oneIn "ABCDEFGHIJKLMNOPQRSTUVWXYZabcdefghijklmnopqrstuvwxyz0123456789_"),
    literal "_JSON=" CharTables.exact]

def markerOf (line : Text) : Option Text :=
  (knownPrefixes.find? fun known => known.isPrefixOf line).or
    ((((jsonMarker formatters).results none line).head?).map Prod.fst)

def plainText (line : Text) : Text :=
  let text := redactText formatters.tables request.privatePaths request.privateValues line
  if request.hideShapes then hideString formatters.tables formatters.lower F text.length text
  else text

/-- An object of JSON with its strings redacted. -/
def redactObject (d : Json.Dict F) : Json.Dict F :=
  mapMembers (fun key =>
      if (secretKeyPattern formatters.tables).fullmatch key.toList then some (angled redacted)
      else none)
    (redactText formatters.tables request.privatePaths request.privateValues) d

def hideObject (d : Json.Dict F) : Json.Dict F :=
  mapMembers (fun key =>
      if hiddenShapeKey (formatters.lower key.toList) then some (angled hiddenShape) else none)
    (fun text => hideString formatters.tables formatters.lower F text.length text) d

def formatObject (marker : Text) (raw : Json.Dict F) : Except FormatError (Json.Dict F) :=
  if marker ∈ knownPrefixes then formatters.format marker raw else .ok raw

/-- One line of `stdout`. What no formatter takes stays as text. -/
def projectLine (line : Text) : Except FormatError (Line F) :=
  match markerOf formatters line with
  | none => .ok (.plain (plainText formatters request line))
  | some marker =>
      match (loads (line.drop marker.length) : Option (Json F)) with
      | some (.obj raw) =>
          match formatObject formatters marker (redactObject formatters request raw) with
          | .ok value =>
              let value := redactObject formatters request value
              .ok (.marked marker
                (if request.hideShapes then hideObject formatters value else value))
          | .error .caught => .ok (.plain (plainText formatters request line))
          | .error (.other name) => .error (.other name)
      | _ => .ok (.plain (plainText formatters request line))

end Lines

/-! ### The limits -/

structure Process where
  returncode : Int
  stdout : Text
  stderr : Text

structure Truncation where
  originalBytes : Nat
  omittedChars : Nat
  omittedEntries : Nat

structure Response where
  exitCode : Int
  stdout : Text
  stderr : Text
  truncated : Bool
  truncation : Option Truncation

def utf8Length (text : Text) : Nat := (text.map Char.utf8Size).sum

/-- `encoded[:limit].decode("utf-8", "ignore")` -/
def takeBytes : Nat → Text → Text
  | _, [] => []
  | limit, c :: rest =>
      if c.utf8Size ≤ limit then c :: takeBytes (limit - c.utf8Size) rest else []

def outputTruncated : Text := '\n' :: (angled "output truncated".toList ++ ['\n'])

def exceedsLimit : Text :=
  dumps (.obj [("error", .str "Projected result exceeds context limit; narrow the request.")] :
    Json F) ++ ['\n']

/-- The length of a string in `json.dumps(value, ensure_ascii=True)`. -/
def asciiChar (c : Char) : Nat :=
  if c ∈ ['"', '\\', '\n', '\r', '\t', '\x08', '\x0c'] then 2
  else if 32 ≤ c.toNat ∧ c.toNat ≤ 126 then 1
  else if c.toNat < 0x10000 then 6
  else 12

def asciiText (text : Text) : Nat := 2 + (text.map asciiChar).sum

/-- The length of an object of which these are the items. -/
def asciiObject (items : List (String × Nat)) : Nat :=
  2 + (items.map fun item => asciiText item.1.toList + 1 + item.2).sum + (items.length - 1)

def asciiInt (n : Int) : Nat := (intNumeral n).text.length

def maxResponseBytes : Nat := 8 * 1024 * 1024

def truncationReason : String :=
  "Oversized diagnostic response; original executor evidence retained privately"

def Truncation.size (truncation : Truncation) : Nat :=
  asciiObject [("reason", asciiText truncationReason.toList),
    ("original_response_bytes", asciiInt truncation.originalBytes),
    ("limit_bytes", asciiInt maxResponseBytes),
    ("omitted_text_chars", asciiInt truncation.omittedChars),
    ("omitted_diagnostic_entries", asciiInt truncation.omittedEntries)]

def Response.size (response : Response) : Nat :=
  asciiObject ([("exit_code", asciiInt response.exitCode), ("stdout", asciiText response.stdout),
      ("stderr", asciiText response.stderr)] ++
    (if response.truncated then [("truncated", 4)] else []) ++
    (response.truncation.toList.map fun truncation => ("diagnostic_truncation", truncation.size)))

section Compact

def textTruncated : Text := '\n' :: angled "diagnostic text truncated".toList

def stdoutTruncated : Text := angled "diagnostic stdout truncated".toList

variable (textLimit entryLimit : Nat)

/-- A text cut to the limit, and how many characters were left out. -/
def compactText (text : Text) : Text × Nat :=
  if text.length > textLimit then
    (text.take textLimit ++ textTruncated, text.length - textLimit)
  else (text, 0)

def entryFields : List String := ["diagnostics", "actionable_diagnostics", "failures"]

mutual

/-- `compact` of a value under a field, with the characters and entries it leaves out. -/
def compactValue (field : String) : Json F → Json F × Nat × Nat
  | .str s =>
      let cut := compactText textLimit s.toList
      (.str (String.ofList cut.1), cut.2, 0)
  | .obj items =>
      let cut := compactMembers items
      (.obj cut.1, cut.2)
  | .arr items =>
      let entries := if field ∈ entryFields then entryLimit else items.length
      let cut := compactItems field entries items
      (.arr cut.1, cut.2.1, cut.2.2 + (items.length - entries))
  | .null => (.null, 0, 0)
  | .bool b => (.bool b, 0, 0)
  | .int n => (.int n, 0, 0)
  | .float x => (.float x, 0, 0)

def compactItems (field : String) : Nat → List (Json F) → List (Json F) × Nat × Nat
  | _, [] => ([], 0, 0)
  | 0, _ :: _ => ([], 0, 0)
  | entries + 1, item :: rest =>
      let here := compactValue field item
      let later := compactItems field entries rest
      (here.1 :: later.1, here.2.1 + later.2.1, here.2.2 + later.2.2)

def compactMembers : List (String × Json F) → List (String × Json F) × Nat × Nat
  | [] => ([], 0, 0)
  | (key, value) :: rest =>
      let here := compactValue key value
      let later := compactMembers rest
      ((key, here.1) :: later.1, here.2.1 + later.2.1, here.2.2 + later.2.2)

end

/-- The markers whose lines are compacted as JSON. -/
def compactPrefixes : List Text :=
  [resultPrefix, abbaPrefix, profilePrefix, checkPrefix, disassemblePrefix, envPrefix,
    sourceErrorPrefix, gatewayErrorPrefix, numericalResultPrefix]

structure Compacted where
  lines : List Text
  noteChars : Nat
  omittedChars : Nat
  omittedEntries : Nat

def compactNote (state : Compacted) (line : Text) : Compacted :=
  let remaining := textLimit - state.noteChars
  let kept := line.take remaining
  { lines := state.lines ++ (if kept.isEmpty then [] else [kept]) ++
      (if line.length > remaining ∧ state.noteChars ≤ textLimit then [stdoutTruncated] else [])
    noteChars := state.noteChars + line.length + 1
    omittedChars := state.omittedChars + (line.length - kept.length) +
      (if kept.isEmpty then 1 else 0)
    omittedEntries := state.omittedEntries }

def compactLine (F : Type) [FloatText F] (state : Compacted) (line : Text) : Compacted :=
  match compactPrefixes.find? fun marker => marker.isPrefixOf line with
  | none => compactNote textLimit state line
  | some marker =>
      match (loads (line.drop marker.length) : Option (Json F)) with
      | none =>
          let cut := compactText textLimit line
          { state with
            lines := state.lines ++ [cut.1]
            omittedChars := state.omittedChars + cut.2 }
      | some value =>
          let cut := compactValue textLimit entryLimit "" value
          { state with
            lines := state.lines ++ [marker ++ dumps cut.1]
            omittedChars := state.omittedChars + cut.2.1
            omittedEntries := state.omittedEntries + cut.2.2 }

def compactResponse (F : Type) [FloatText F] (response : Response) : Response :=
  let state := (splitlines response.stdout).foldl (compactLine textLimit entryLimit F) ⟨[], 0, 0, 0⟩
  let stderr := compactText textLimit response.stderr
  { response with
    stdout := (state.lines.intersperse ['\n']).flatten
    stderr := stderr.1
    truncation := some ⟨response.size, state.omittedChars + stderr.2, state.omittedEntries⟩ }

end Compact

/-- The limits tried: both are halved until they reach 256 and 1. -/
def compactLimits : List (Nat × Nat) :=
  (List.range 13).map fun k => (max 256 (1024 * 1024 / 2 ^ k), max 1 (4096 / 2 ^ k))

def evidenceTooLarge : FormatError :=
  .other "Non-diagnostic measurement evidence exceeds the response size limit"

/-- `bound_diagnostic_response` -/
def boundDiagnosticResponse (F : Type) [FloatText F] (response : Response) :
    Except FormatError Response :=
  if response.size ≤ maxResponseBytes then .ok response
  else
    match (compactLimits.map fun limits => compactResponse limits.1 limits.2 F response).find?
        fun compacted => compacted.size ≤ maxResponseBytes with
    | some compacted => .ok compacted
    | none => .error evidenceTooLarge

section Project

variable (formatters : Formatters F) (request : Request) (process : Process)

def stdoutLimit : Nat := if request.wiki then 256 * 1024 else 384 * 1024

def stderrLimit : Nat := 16 * 1024

/-- Evaluations are never cut. -/
def Exempt (stdout : Text) : Prop :=
  request.operation ∈ ["evaluate", "same_allocation_abba"] ∨
    (∃ line ∈ splitlines process.stdout, numericalResultPrefix <+: line) ∨
    resultPrefix <:+: stdout ∨ abbaPrefix <:+: stdout

instance (stdout : Text) : Decidable (Exempt request process stdout) :=
  inferInstanceAs (Decidable (_ ∨ _ ∨ _ ∨ _))

def cutText (limit : Nat) (text : Text) : Text := takeBytes limit text ++ outputTruncated

/-- The response before `bound_diagnostic_response`. -/
def limitResponse (lines : List (Line F)) (stderr : Text) : Response :=
  let stdout := unlines (lines.map Line.text)
  let exceeds := fun (limit : Nat) (text : Text) =>
    decide (utf8Length text > limit ∧ ¬ Exempt request process stdout)
  let structured := lines.any fun line => ['['].isPrefixOf line.text
  let stdoutOver := exceeds (stdoutLimit request) stdout
  let stderrOver := exceeds stderrLimit stderr
  { exitCode := if stdoutOver && structured && process.returncode = 0 then 2
      else process.returncode
    stdout := if stdoutOver then
        if structured then exceedsLimit (F := F) else cutText (stdoutLimit request) stdout
      else stdout
    stderr := if stderrOver then cutText stderrLimit stderr else stderr
    truncated := stdoutOver || stderrOver
    truncation := none }

/-- `project_response` -/
def projectResponse : Except FormatError Response := do
  let lines ← (splitlines process.stdout).mapM (projectLine formatters request)
  let stderr := process.stderr
  let stderr := if request.hideShapes then
      hideString formatters.tables formatters.lower F stderr.length stderr else stderr
  let stderr := redactText formatters.tables request.privatePaths request.privateValues stderr
  boundDiagnosticResponse F (limitResponse request process lines stderr)

end Project

/-! ### What a projection is -/

section Facts

variable (formatters : Formatters F) (request : Request)

/-- A marker begins the line, and has the sign before the object. -/
theorem markerOf_spec (line marker : Text) (found : markerOf formatters line = some marker) :
    marker <+: line ∧ '=' ∈ marker := by
  rw [markerOf, Option.or_eq_some_iff] at found
  rcases found with known | ⟨_, unknown⟩
  · have listed := List.mem_of_find?_eq_some known
    have starts := List.find?_some (p := fun known => List.isPrefixOf known line) known
    refine ⟨List.isPrefixOf_iff_prefix.mp starts, ?_⟩
    revert listed
    have each : ∀ known ∈ knownPrefixes, '=' ∈ known := by decide
    exact each marker
  · obtain ⟨m, here, rfl⟩ := Option.map_eq_some_iff.mp unknown
    have member := List.mem_of_head? here
    refine ⟨⟨m.2, results_append _ none line m member⟩, ?_⟩
    refine emits_sequence '=' _ (literal "_JSON=" CharTables.exact) (by simp) ?_ none line m member
    apply emits_literal
    · intro d same
      exact (of_decide_eq_true same).symm
    · decide

theorem plainText_keeps {P : Text → Prop} (kept : Kept redactionMarks P)
    (encoded : ∀ value : Json F, P (dumps value)) (line : Text) (holds : P line) :
    P (plainText formatters request line) := by
  have redacted := redactText_keeps kept formatters.tables request.privatePaths
    request.privateValues line holds
  unfold plainText
  dsimp only
  split
  · exact hideString_keeps kept _ _ F encoded _ _ redacted
  · exact redacted

/-- A projected line is the redacted text, or a marker of the line and an object. -/
theorem projectLine_cases (line : Text) (projected : Line F)
    (here : projectLine formatters request line = .ok projected) :
    projected = .plain (plainText formatters request line) ∨
      ∃ marker raw formatted, markerOf formatters line = some marker ∧
        Distinct (.obj formatted) ∧ loads (line.drop marker.length) = some (.obj raw) ∧
        formatObject formatters marker (redactObject formatters request raw) = .ok formatted ∧
        projected = .marked marker (if request.hideShapes
          then hideObject formatters (redactObject formatters request formatted)
          else redactObject formatters request formatted) := by
  unfold projectLine at here
  split at here
  · injection here with here
    exact Or.inl here.symm
  · rename_i marker found
    split at here
    · rename_i raw read
      have decoded := loads_distinct _ _ read
      split at here
      · rename_i formatted given
        injection here with here
        right
        refine ⟨marker, raw, formatted, found, ?_, read, given, here.symm⟩
        have distinct : Distinct (.obj (redactObject formatters request raw)) := by
          rw [Distinct, redactObject, mapMembers_keys]
          exact ⟨decoded.1, mapMembers_distinct _ _ raw decoded.2⟩
        unfold formatObject at given
        split at given
        · exact formatters.distinct _ _ _ given distinct
        · injection given with given
          rw [← given]
          exact distinct
      · injection here with here
        exact Or.inl here.symm
      · cases here
    · injection here with here
      exact Or.inl here.symm

/-- The object of a marked line holds every key once. -/
theorem projectLine_distinct (line marker : Text) (value : Json.Dict F)
    (here : projectLine formatters request line = .ok (.marked marker value)) :
    Distinct (.obj value) := by
  rcases projectLine_cases formatters request line _ here with
    plain | ⟨_, _, formatted, _, given, _, _, same⟩
  · cases plain
  · injection same with _ same
    rw [same]
    have redacted : Distinct (.obj (redactObject formatters request formatted)) := by
      rw [Distinct, redactObject, mapMembers_keys]
      exact ⟨given.1, mapMembers_distinct _ _ formatted given.2⟩
    split
    · rw [Distinct, hideObject, mapMembers_keys]
      exact ⟨redacted.1, mapMembers_distinct _ _ _ redacted.2⟩
    · exact redacted

/-- The lines of a projection, before its limits. -/
def projectedLines (process : Process) : Except FormatError (List (Line F)) :=
  (splitlines process.stdout).mapM (projectLine formatters request)

/-- The projected `stderr`, before its limit. -/
def projectedStderr (process : Process) : Text :=
  redactText formatters.tables request.privatePaths request.privateValues
    (if request.hideShapes then
      hideString formatters.tables formatters.lower F process.stderr.length process.stderr
    else process.stderr)

theorem projectResponse_lines (process : Process) (lines : List (Line F))
    (projected : projectedLines formatters request process = .ok lines) :
    projectResponse formatters request process = boundDiagnosticResponse F
      (limitResponse request process lines (projectedStderr formatters request process)) := by
  unfold projectedLines at projected
  unfold projectResponse
  rw [projected]
  rfl

theorem projectResponse_ok (process : Process) (response : Response)
    (projected : projectResponse formatters request process = .ok response) :
    ∃ lines, projectedLines formatters request process = .ok lines ∧
      boundDiagnosticResponse F (limitResponse request process lines
        (projectedStderr formatters request process)) = .ok response := by
  cases here : projectedLines formatters request process with
  | error raised =>
      unfold projectedLines at here
      unfold projectResponse at projected
      rw [here] at projected
      cases projected
  | ok lines =>
      rw [projectResponse_lines formatters request process lines here] at projected
      exact ⟨lines, rfl, projected⟩

/-- A response without a note of truncation is as it was. -/
theorem boundDiagnosticResponse_same (before after : Response)
    (bounded : boundDiagnosticResponse F before = .ok after) (whole : after.truncation = none) :
    after = before := by
  unfold boundDiagnosticResponse at bounded
  split at bounded
  · injection bounded with same
    exact same.symm
  · split at bounded
    · rename_i compacted found
      injection bounded with same
      subst same
      obtain ⟨limits, _, rfl⟩ := List.mem_map.mp (List.mem_of_find?_eq_some found)
      cases whole
    · cases bounded

/-- The limit on `stdout` does not apply. -/
def StdoutFits (process : Process) (lines : List (Line F)) : Prop :=
  utf8Length (unlines (lines.map Line.text)) ≤ stdoutLimit request ∨
    Exempt request process (unlines (lines.map Line.text))

theorem limitResponse_stdout (process : Process) (lines : List (Line F)) (stderr : Text)
    (fits : StdoutFits request process lines) :
    (limitResponse request process lines stderr).stdout = unlines (lines.map Line.text) := by
  unfold limitResponse
  dsimp only
  rw [if_neg]
  rw [decide_eq_true_eq]
  rintro ⟨longer, not_exempt⟩
  rcases fits with short | exempt
  · omega
  · exact not_exempt exempt

end Facts

end AtrexAgent.Evaluation
