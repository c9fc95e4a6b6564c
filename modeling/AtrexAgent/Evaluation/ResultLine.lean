import Mathlib
import AtrexAgent.Evaluation.Projection

/-! The result of a measurement is read back from the lines of the projected output. The
projection encodes it in one line, and every reader splits the output into lines again. -/

namespace AtrexAgent.Evaluation

open AtrexAgent.Json AtrexAgent.Regex

/-- `PREFIXES.get(operation)` -/
def operationPrefix (operation : String) : Option Text :=
  if operation = "evaluate" then some resultPrefix
  else if operation = "same_allocation_abba" then some abbaPrefix
  else if operation = "profile" then some profilePrefix
  else if operation = "check" then some checkPrefix
  else if operation = "disassemble" then some disassemblePrefix
  else if operation = "env" then some envPrefix
  else none

/-- `ERROR_PREFIXES` -/
def errorPrefixes : List Text := [sourceErrorPrefix, gatewayErrorPrefix]

def recordPrefix : Text := "[sandbox] RECORD_JSON=".toList

section Readers

variable {F : Type} [FloatText F]

/-- `result_from_response`. Text that is no JSON raises. -/
def resultFromResponse (stdout : Text) (operation : String) :
    Except String (Option (Json.Dict F)) :=
  match operationPrefix operation with
  | none => .ok none
  | some marker =>
      match (splitlines stdout).reverse.find? fun line => marker.isPrefixOf line with
      | none => .ok none
      | some line =>
          match (loads (line.drop marker.length) : Option (Json F)) with
          | some (.obj value) => .ok (some value)
          | some _ => .ok none
          | none => .error "JSONDecodeError"

/-- What `canonical_result` collects from the lines. -/
structure Scan (F : Type) where
  sample : Option (Json.Dict F)
  errors : List (Json.Dict F)
  notes : List Text

def scanLine (operation : String) (scan : Scan F) (line : Text) : Scan F :=
  match (errorPrefixes ++ (operationPrefix operation).toList).find? fun marker =>
      marker.isPrefixOf line with
  | some marker =>
      match (loads (line.drop marker.length) : Option (Json F)) with
      | some (.obj value) =>
          if errorPrefixes.contains marker then { scan with errors := scan.errors ++ [value] }
          else { scan with sample := some value }
      | _ => { scan with notes := scan.notes ++ [line] }
  | none =>
      if recordPrefix.isPrefixOf line then scan else { scan with notes := scan.notes ++ [line] }

def scanLines (stdout : Text) (operation : String) : Scan F :=
  (splitlines stdout).foldl (scanLine operation) ⟨none, [], []⟩

/-- The marked lines of a record, each with its marker and what is decoded from it. -/
def recordMarkers (stdout : Text) (operation : String) : List (Text × Option (Json F)) :=
  (splitlines stdout).filterMap fun line =>
    ((errorPrefixes ++ (operationPrefix operation).toList).find? fun marker =>
      marker.isPrefixOf line).map fun marker => (marker, loads (line.drop marker.length))

end Readers

/-! ### Markers -/

/-- The markers of the operations. -/
def operationMarkers : List Text :=
  [resultPrefix, abbaPrefix, profilePrefix, checkPrefix, disassemblePrefix, envPrefix]

theorem operationPrefix_listed (operation : String) (marker : Text)
    (known : operationPrefix operation = some marker) : marker ∈ operationMarkers := by
  unfold operationPrefix at known
  split_ifs at known <;> (injection known with known; subst known; simp [operationMarkers])

/-- The sign before the object is the last character of a marker, and stands only there. -/
theorem operationMarkers_sign : ∀ marker ∈ operationMarkers, '=' ∉ marker.dropLast := by
  decide

theorem operationMarkers_apart (marker : Text) (listed : marker ∈ operationMarkers) :
    ∀ mark ∈ redactionMarks, Apart mark marker := by
  have brackets : ∀ marker ∈ operationMarkers, '<' ∉ marker ∧ '>' ∉ marker := by decide
  have longer : ∀ marker ∈ operationMarkers, ∀ label ∈ [redacted, supervisor, hiddenShape],
      label.length < marker.length := by decide
  obtain ⟨opening, closing⟩ := brackets marker listed
  have each : ∀ label ∈ [redacted, supervisor, hiddenShape], Apart (angled label) marker := by
    intro label named
    apply apart_angled label marker opening closing
    intro occurs
    exact absurd occurs.length_le (Nat.not_le_of_lt (longer marker listed label named))
  intro mark member
  simp only [redactionMarks, List.mem_cons, List.not_mem_nil, or_false] at member
  rcases member with rfl | rfl | rfl <;> exact each _ (by simp)

/-- Lines of the operation begin with no marker of an error. -/
theorem error_marker_other : ∀ marker ∈ operationMarkers, ∀ error ∈ errorPrefixes,
    ¬ error <+: marker ∧ ¬ marker <+: error := by
  decide

theorem error_marker_absent (marker : Text) (listed : marker ∈ operationMarkers)
    (rest : Text) : ∀ error ∈ errorPrefixes, ¬ error <+: marker ++ rest := by
  intro error member starts
  obtain ⟨forward, backward⟩ := error_marker_other marker listed error member
  rcases List.prefix_or_prefix_of_prefix starts (List.prefix_append marker rest) with
    shorter | longer
  · exact forward shorter
  · exact backward longer

/-- A line that begins with another marker begins with this one only if it did before. -/
theorem marker_start (marker other rest line : Text) (listed : marker ∈ operationMarkers)
    (starts : other <+: line) (sign : '=' ∈ other) (different : other ≠ marker)
    (here : marker <+: other ++ rest) : marker <+: line := by
  have once := operationMarkers_sign marker listed
  rcases List.prefix_or_prefix_of_prefix here (List.prefix_append other rest) with inside | outside
  · exact inside.trans starts
  · obtain ⟨tail, same⟩ := outside
    exfalso
    cases tail using List.reverseRecOn with
    | nil => exact different (by simpa using same)
    | append_singleton front last _ =>
        rw [← same, ← List.append_assoc, List.dropLast_concat] at once
        exact once (List.mem_append_left _ sign)

section Lines

variable {F : Type} [FloatText F]

theorem operationMarkers_word : ∀ marker ∈ operationMarkers,
    (∃ rest, marker = '[' :: 's' :: rest) ∨ ∃ rest, marker = '[' :: 't' :: 'e' :: rest := by
  intro marker listed
  simp only [operationMarkers, List.mem_cons, List.not_mem_nil, or_false] at listed
  rcases listed with rfl | rfl | rfl | rfl | rfl | rfl
  · exact Or.inr ⟨_, rfl⟩
  all_goals exact Or.inl ⟨_, rfl⟩

/-- No encoded value begins with a marker. -/
theorem dumps_no_marker (value : Json F) (marker : Text) (listed : marker ∈ operationMarkers) :
    ¬ marker <+: dumps value :=
  dumps_bracket value marker (operationMarkers_word marker listed)

/-- What ends a line for `str.splitlines` and is written as it is by `json.dumps`. -/
def separators : List Char := ['\u0085', '\u2028', '\u2029']

/-- The characters that end a line in the text are separators. -/
def Separable (text : Text) : Prop := ∀ c ∈ text, isBoundary c = true → c ∈ separators

theorem separable_dumps (value : Json F) : Separable (dumps value) := by
  intro c member boundary
  have printable := printable_dumps value c member
  simp only [isBoundary, Bool.or_eq_true, decide_eq_true_eq] at boundary
  rcases boundary with ((((((((rfl | rfl) | rfl) | rfl) | rfl) | rfl) | rfl) | rfl) | rfl) | rfl
  all_goals first
    | exact absurd printable (by decide)
    | simp [separators]

theorem separable_kept : Kept redactionMarks Separable :=
  kept_each redactionMarks (fun c => isBoundary c = true → c ∈ separators) fun mark listed =>
    each_of_all (by revert mark; decide)

theorem separable_append (before after : Text) (first : Separable before)
    (second : Separable after) : Separable (before ++ after) := by
  intro c member
  rcases List.mem_append.mp member with left | right
  · exact first c left
  · exact second c right

theorem oneLine_of_separable (text : Text) (separable : Separable text)
    (absent : ∀ c ∈ separators, c ∉ text) : OneLine text := by
  intro c member
  by_contra boundary
  exact absent c (separable c member (by simpa using boundary)) member

variable (formatters : Formatters F) (request : Request)

/-- A projected line is a line, up to separators in its objects. -/
theorem projectLine_separable (line : Text) (plain : OneLine line) (projected : Line F)
    (here : projectLine formatters request line = .ok projected) : Separable projected.text := by
  have source : Separable line := fun c member boundary => by
    rw [plain c member] at boundary
    cases boundary
  rcases projectLine_cases formatters request line projected here with
    rfl | ⟨marker, _, _, found, _, _, _, rfl⟩
  · exact plainText_keeps formatters request separable_kept separable_dumps line source
  · obtain ⟨starts, _⟩ := markerOf_spec formatters line marker found
    exact separable_append marker _ (fun c member => source c (starts.subset member))
      (separable_dumps _)

/-- A projected line begins with the marker of the operation only if the line did. -/
theorem projectLine_start (marker line : Text) (listed : marker ∈ operationMarkers)
    (projected : Line F) (here : projectLine formatters request line = .ok projected)
    (absent : ¬ marker <+: line) : ¬ marker <+: projected.text := by
  rcases projectLine_cases formatters request line projected here with
    rfl | ⟨other, _, _, found, _, _, _, rfl⟩
  · have kept := kept_start (operationMarkers_apart marker listed) redactionMarks_nonempty
    exact plainText_keeps formatters request kept
      (fun value => dumps_no_marker value marker listed) line absent
  · obtain ⟨starts, sign⟩ := markerOf_spec formatters line other found
    intro begins
    have different : other ≠ marker := by
      rintro rfl
      exact absent starts
    exact absent (marker_start marker other _ line listed starts sign different begins)

/-- The projected output splits into the projected lines. -/
theorem projected_splitlines (process : Process) (lines : List (Line F))
    (projected : projectedLines formatters request process = .ok lines)
    (whole : ∀ line ∈ lines, ∀ c ∈ separators, c ∉ line.text) :
    splitlines (unlines (lines.map Line.text)) = lines.map Line.text := by
  apply splitlines_unlines
  intro text member
  obtain ⟨line, listed, rfl⟩ := List.mem_map.mp member
  obtain ⟨source, given, here⟩ :=
    forall₂_mem_right ((mapM_ok_iff _ _ _).mp projected) line listed
  exact oneLine_of_separable _
    (projectLine_separable formatters request source (splitlines_oneLine _ source given) line here)
    (whole line listed)

end Lines

/-! ### Reading the lines -/

section Reading

variable {F : Type} [FloatText F] (operation : String) (marker : Text) (value : Json.Dict F)

theorem reader_marker (known : operationPrefix operation = some marker) :
    ((errorPrefixes ++ (operationPrefix operation).toList).find? fun candidate =>
      candidate.isPrefixOf (marker ++ dumps (.obj value))) = some marker := by
  have listed := operationPrefix_listed operation marker known
  have errors : errorPrefixes.find? (fun candidate =>
      candidate.isPrefixOf (marker ++ dumps (.obj value))) = none := by
    rw [List.find?_eq_none]
    intro error member starts
    exact error_marker_absent marker listed _ error member (List.isPrefixOf_iff_prefix.mp starts)
  have starts : marker.isPrefixOf (marker ++ dumps (.obj value)) = true :=
    List.isPrefixOf_iff_prefix.mpr (List.prefix_append _ _)
  rw [List.find?_append, errors, known]
  simp [starts]

theorem operation_not_error (known : operationPrefix operation = some marker) :
    marker ∉ errorPrefixes := by
  intro member
  exact (error_marker_other marker (operationPrefix_listed operation marker known) marker
    member).1 (List.prefix_refl _)

theorem scan_keeps (known : operationPrefix operation = some marker) (lines : List Text)
    (absent : ∀ line ∈ lines, ¬ marker <+: line) (scan : Scan F) :
    (lines.foldl (scanLine operation) scan).sample = scan.sample := by
  induction lines generalizing scan with
  | nil => rfl
  | cons line rest ih =>
      rw [List.foldl_cons, ih fun other member => absent other (List.mem_cons_of_mem _ member)]
      unfold scanLine
      split
      · rename_i candidate found
        have starts := List.find?_some (p := fun marker => List.isPrefixOf marker line) found
        have error : candidate ∈ errorPrefixes := by
          rcases List.mem_append.mp (List.mem_of_find?_eq_some found) with error | own
          · exact error
          · rw [known, Option.toList_some, List.mem_singleton] at own
            subst own
            exact absurd (List.isPrefixOf_iff_prefix.mp starts) (absent line List.mem_cons_self)
        split
        · rw [if_pos (List.contains_iff_mem.mpr error)]
        · rfl
      · split <;> rfl

/-- Readers of lines among which the object stands, and after which no line has its
marker, read the object. -/
theorem readers_agree (known : operationPrefix operation = some marker)
    (distinct : Distinct (.obj value)) (stdout : Text) (before after : List Text)
    (lines : splitlines stdout = before ++ (marker ++ dumps (.obj value)) :: after)
    (last : ∀ line ∈ after, ¬ marker <+: line) :
    resultFromResponse stdout operation = .ok (some value) ∧
      (scanLines stdout operation : Scan F).sample = some value ∧
      ∃ first later, (recordMarkers stdout operation : List (Text × Option (Json F))) =
        first ++ (marker, some (.obj value)) :: later ∧ ∀ entry ∈ later, entry.1 ≠ marker := by
  have payload : (loads ((marker ++ dumps (.obj value)).drop marker.length) : Option (Json F)) =
      some (.obj value) := by rw [List.drop_left, loads_dumps _ distinct]
  refine ⟨?_, ?_, ?_⟩
  · have found : ((splitlines stdout).reverse.find? fun line => marker.isPrefixOf line) =
        some (marker ++ dumps (.obj value)) := by
      have later : after.reverse.find? (fun line => marker.isPrefixOf line) = none := by
        rw [List.find?_eq_none]
        intro line member starts
        exact last line (List.mem_reverse.mp member) (List.isPrefixOf_iff_prefix.mp starts)
      have starts : marker.isPrefixOf (marker ++ dumps (.obj value)) = true :=
        List.isPrefixOf_iff_prefix.mpr (List.prefix_append _ _)
      rw [lines, List.reverse_append, List.reverse_cons, List.append_assoc, List.find?_append,
        later]
      simp [starts]
    unfold resultFromResponse
    rw [known]
    dsimp only
    rw [found]
    dsimp only
    rw [payload]
  · unfold scanLines
    rw [lines, List.foldl_append, List.foldl_cons, scan_keeps operation marker known after last]
    unfold scanLine
    rw [reader_marker operation marker value known]
    dsimp only
    rw [payload]
    dsimp only
    rw [if_neg (mt List.contains_iff_mem.mp (operation_not_error operation marker known))]
  · unfold recordMarkers
    rw [lines, List.filterMap_append, List.filterMap_cons,
      reader_marker operation marker value known, Option.map_some, payload]
    refine ⟨_, _, rfl, ?_⟩
    intro entry member same
    obtain ⟨line, listed, here⟩ := List.mem_filterMap.mp member
    obtain ⟨candidate, found, rfl⟩ := Option.map_eq_some_iff.mp here
    have starts := List.find?_some (p := fun marker => List.isPrefixOf marker line) found
    dsimp only at same
    rw [same] at starts
    exact last line listed (List.isPrefixOf_iff_prefix.mp starts)

/-- The object of the last line with the marker of the operation is what every reader of
the projected output reads, if the output is not cut and no character of a projected line
ends a line. -/
theorem last_result_is_read (formatters : Formatters F) (request : Request) (process : Process)
    (response : Response) (lines : List (Line F)) (before after : List Text) (line : Text)
    (known : operationPrefix operation = some marker)
    (stdout : splitlines process.stdout = before ++ line :: after)
    (last : ∀ later ∈ after, ¬ marker <+: later)
    (marked : projectLine formatters request line = .ok (.marked marker value))
    (projected : projectedLines formatters request process = .ok lines)
    (answered : projectResponse formatters request process = .ok response)
    (fits : StdoutFits request process lines) (complete : response.truncation = none)
    (whole : ∀ line ∈ lines, ∀ c ∈ separators, c ∉ line.text) :
    resultFromResponse response.stdout operation = .ok (some value) ∧
      (scanLines response.stdout operation : Scan F).sample = some value ∧
      ∃ first later, (recordMarkers response.stdout operation : List (Text × Option (Json F))) =
        first ++ (marker, some (.obj value)) :: later ∧ ∀ entry ∈ later, entry.1 ≠ marker := by
  have listed := operationPrefix_listed operation marker known
  obtain ⟨lines', here, bounded⟩ :=
    projectResponse_ok formatters request process response answered
  rw [projected] at here
  injection here with here
  subst here
  have text : response.stdout = unlines (lines.map Line.text) := by
    rw [boundDiagnosticResponse_same _ _ bounded complete]
    exact limitResponse_stdout request process lines _ fits
  have split := projected_splitlines formatters request process lines projected whole
  have related := (mapM_ok_iff _ _ _).mp projected
  rw [stdout] at related
  obtain ⟨first, own, later, rfl, _, here, afterwards⟩ := forall₂_split related
  rw [marked] at here
  injection here with here
  subst here
  rw [← text, List.map_append, List.map_cons] at split
  apply readers_agree operation marker value known
    (projectLine_distinct formatters request line marker value marked) response.stdout _ _ split
  intro written member
  obtain ⟨projected_line, given, rfl⟩ := List.mem_map.mp member
  obtain ⟨source, source_listed, here⟩ := forall₂_mem_right afterwards projected_line given
  exact projectLine_start formatters request marker source listed projected_line here
    (last source source_listed)

end Reading

/-! ### A log of any length -/

def asciiTables : CharTables where
  word c := c.isAlphanum || c = '_'
  space c := " \t\n\r\x0b\x0c".toList.contains c
  digit := isDigit
  same c d := c.toLower = d.toLower

/-- Formatters of which only `dict`, for the environment, takes anything. -/
def envFormatters : Formatters OnlyNan where
  tables := asciiTables
  lower text := text.map Char.toLower
  format marker raw := if marker = envPrefix then .ok raw else .error .caught
  distinct := by
    intro marker raw value made distinct
    split at made
    · injection made with made
      rw [← made]
      exact distinct
    · cases made

def envRequest : Request := ⟨false, false, false, "env", [], []⟩

def nullLog (n : Nat) : Json.Dict OnlyNan := [("log", .arr (List.replicate n .null))]

def nullLine (n : Nat) : Text := envPrefix ++ dumps (.obj (nullLog n))

def nullProcess (n : Nat) : Process := ⟨0, unlines [nullLine n], []⟩

theorem nullItems_distinct (n : Nat) : DistinctItems (List.replicate n (.null : Json OnlyNan)) := by
  induction n with
  | zero => trivial
  | succ n ih => exact ⟨trivial, ih⟩

theorem nullLog_distinct (n : Nat) : Distinct (.obj (nullLog n)) :=
  ⟨List.nodup_singleton _, nullItems_distinct n, trivial⟩

theorem nullItems_same (constant : String → Option Text) (onText : Text → Text) (n : Nat) :
    mapItems constant onText (List.replicate n (.null : Json OnlyNan)) =
      List.replicate n .null := by
  induction n with
  | zero => rfl
  | succ n ih => rw [List.replicate_succ, mapItems, mapStrings, ih]

theorem redact_nullLog (n : Nat) : redactObject envFormatters envRequest (nullLog n) = nullLog n := by
  have key : (secretKeyPattern asciiTables).fullmatch "log".toList = false := by decide +kernel
  have tables : envFormatters.tables = asciiTables := rfl
  unfold redactObject nullLog
  rw [mapMembers, mapMembers, tables, key]
  simp only [Bool.false_eq_true, if_false]
  rw [mapStrings, nullItems_same]

theorem nullItems_characters (n : Nat) :
    ∀ c ∈ dumpsItems (List.replicate n (.null : Json OnlyNan)), c ∈ "nul, ".toList := by
  induction n with
  | zero =>
      intro c member
      rw [List.replicate_zero, dumpsItems] at member
      cases member
  | succ n ih =>
      intro c member
      rw [List.replicate_succ, dumpsItems, dumps, List.mem_append, List.mem_append] at member
      rcases member with here | comma | later
      · exact each_of_all (by decide) c here
      · revert comma
        cases (List.replicate n (.null : Json OnlyNan)).isEmpty <;> exact each_of_all (by decide) c
      · exact ih c later

theorem nullLine_text (n : Nat) : nullLine n =
    "[sandbox] ENV_JSON=\x7b\"log\": [".toList ++
      (dumpsItems (List.replicate n (.null : Json OnlyNan)) ++ "]\x7d".toList) := by
  have before : envPrefix ++ ('{' :: (quoted "log".toList ++ [':', ' ', '['])) =
      "[sandbox] ENV_JSON=\x7b\"log\": [".toList := by decide +kernel
  rw [← before, nullLine, nullLog, dumps, dumpsMembers, dumps, dumpsMembers]
  simp

theorem nullLine_characters (n : Nat) :
    ∀ c ∈ nullLine n, c ∈ "[sandbox] ENV_JSON=\x7b\"log\": nul,]\x7d".toList := by
  intro c member
  rw [nullLine_text, List.mem_append, List.mem_append] at member
  rcases member with before | inside | after
  · exact each_of_all (by decide +kernel) c before
  · have wider : ∀ c ∈ "nul, ".toList,
        c ∈ "[sandbox] ENV_JSON=\x7b\"log\": nul,]\x7d".toList := each_of_all (by decide +kernel)
    exact wider c (nullItems_characters n c inside)
  · exact each_of_all (by decide +kernel) c after

theorem nullLine_oneLine (n : Nat) : OneLine (nullLine n) := by
  intro c member
  have each : ∀ c ∈ "[sandbox] ENV_JSON=\x7b\"log\": nul,]\x7d".toList, isBoundary c = false :=
    each_of_all (by decide +kernel)
  exact each c (nullLine_characters n c member)

theorem nullProcess_lines (n : Nat) : splitlines (nullProcess n).stdout = [nullLine n] := by
  apply splitlines_unlines
  intro line member
  rw [List.mem_singleton] at member
  rw [member]
  exact nullLine_oneLine n

theorem project_nullLine (n : Nat) : projectLine envFormatters envRequest (nullLine n) =
    .ok (.marked envPrefix (nullLog n)) := by
  have marker : markerOf envFormatters (nullLine n) = some envPrefix := by
    have before : knownPrefixes.find? (fun known => known.isPrefixOf (nullLine n)) =
        some envPrefix := rfl
    rw [markerOf, before]
    rfl
  have payload : (loads ((nullLine n).drop envPrefix.length) : Option (Json OnlyNan)) =
      some (.obj (nullLog n)) := by
    rw [nullLine, List.drop_left, loads_dumps _ (nullLog_distinct n)]
  have formatted : formatObject envFormatters envPrefix (nullLog n) = .ok (nullLog n) := rfl
  unfold projectLine
  rw [marker]
  dsimp only
  rw [payload]
  dsimp only
  rw [redact_nullLog, formatted]
  dsimp only
  rw [redact_nullLog]
  rfl

theorem project_nullProcess (n : Nat) : projectedLines envFormatters envRequest (nullProcess n) =
    .ok [.marked envPrefix (nullLog n)] := by
  rw [projectedLines, nullProcess_lines, List.mapM_cons, project_nullLine]
  rfl

theorem respond_nullProcess (n : Nat) : projectResponse envFormatters envRequest (nullProcess n) =
    boundDiagnosticResponse OnlyNan (limitResponse envRequest (nullProcess n)
      [.marked envPrefix (nullLog n)] []) := by
  have quiet : projectedStderr envFormatters envRequest ⟨0, [], []⟩ = [] := by decide +kernel
  have silent : projectedStderr envFormatters envRequest (nullProcess n) =
      projectedStderr envFormatters envRequest ⟨0, [], []⟩ := rfl
  rw [projectResponse_lines envFormatters envRequest _ _ (project_nullProcess n), silent, quiet]

theorem log_line_is_read : ∃ response,
    projectResponse envFormatters envRequest (nullProcess 1) = .ok response ∧
      resultFromResponse response.stdout "env" = .ok (some (nullLog 1)) := by
  have fits : StdoutFits envRequest (nullProcess 1) [.marked envPrefix (nullLog 1)] :=
    Or.inl (by decide +kernel)
  have small : (limitResponse envRequest (nullProcess 1) [.marked envPrefix (nullLog 1)] []).size ≤
      maxResponseBytes := by decide +kernel
  have answered := respond_nullProcess 1
  rw [boundDiagnosticResponse, if_pos small] at answered
  refine ⟨_, answered, ?_⟩
  refine (last_result_is_read "env" envPrefix (nullLog 1) envFormatters envRequest (nullProcess 1)
    _ [.marked envPrefix (nullLog 1)] [] [] (nullLine 1) rfl (nullProcess_lines 1) ?_
    (project_nullLine 1) (project_nullProcess 1) answered fits rfl ?_).1
  · intro later member
    cases member
  · intro line member
    rw [List.mem_singleton] at member
    subst member
    exact each_of_all (by decide +kernel)

theorem nullItems_length (n : Nat) :
    4 * n ≤ (dumpsItems (List.replicate n (.null : Json OnlyNan))).length := by
  induction n with
  | zero => exact Nat.zero_le _
  | succ n ih =>
      rw [List.replicate_succ, dumpsItems, dumps, List.length_append, List.length_append]
      have word : ['n', 'u', 'l', 'l'].length = 4 := rfl
      omega

theorem length_le_utf8Length (text : Text) : text.length ≤ utf8Length text := by
  unfold utf8Length
  induction text with
  | nil => exact Nat.zero_le _
  | cons c rest ih =>
      have positive := c.utf8Size_pos
      rw [List.map_cons, List.sum_cons, List.length_cons]
      omega

/-- A log over the limit is answered by an error. -/
theorem long_log_error (n : Nat) (long : 100000 ≤ n) :
    projectResponse envFormatters envRequest (nullProcess n) =
      .ok ⟨2, exceedsLimit (F := OnlyNan), [], true, none⟩ := by
  have text : ([.marked envPrefix (nullLog n)] : List (Line OnlyNan)).map Line.text =
      [nullLine n] := rfl
  have longer : utf8Length (unlines [nullLine n]) > stdoutLimit envRequest := by
    have items := nullItems_length n
    have whole := length_le_utf8Length (unlines [nullLine n])
    have limit : stdoutLimit envRequest = 393216 := rfl
    rw [unlines_single, List.length_append, nullLine_text, List.length_append,
      List.length_append] at whole
    rw [limit, unlines_single, nullLine_text]
    omega
  have not_exempt : ¬ Exempt envRequest (nullProcess n) (unlines [nullLine n]) := by
    have missing : ∀ c ∈ ['A', 't'], c ∉ unlines [nullLine n] := by
      intro c listed member
      rw [unlines_single, List.mem_append] at member
      rcases member with inside | newline
      · have each : ∀ c ∈ ['A', 't'],
            c ∉ "[sandbox] ENV_JSON=\x7b\"log\": nul,]\x7d".toList := each_of_all (by decide +kernel)
        exact each c listed (nullLine_characters n c inside)
      · have each : ∀ c ∈ ['A', 't'], c ∉ ['\n'] := each_of_all (by decide)
        exact each c listed newline
    rintro (operation | ⟨line, listed, starts⟩ | result | abba)
    · revert operation
      decide
    · rw [nullProcess_lines, List.mem_singleton] at listed
      have inside := starts.subset (show 'A' ∈ numericalResultPrefix by decide)
      rw [listed] at inside
      exact missing 'A' (by simp) (by
        rw [unlines_single]
        exact List.mem_append_left _ inside)
    · exact missing 't' (by simp) (result.subset (by decide))
    · exact missing 'A' (by simp) (abba.subset (by decide))
  have limited : limitResponse envRequest (nullProcess n) [.marked envPrefix (nullLog n)] [] =
      ⟨2, exceedsLimit (F := OnlyNan), [], true, none⟩ := by
    unfold limitResponse
    rw [text]
    simp only [decide_eq_true (And.intro longer not_exempt)]
    rfl
  have small : (⟨2, exceedsLimit (F := OnlyNan), [], true, none⟩ : Response).size ≤
      maxResponseBytes := by decide +kernel
  rw [respond_nullProcess, limited, boundDiagnosticResponse, if_pos small]

/-- A result over the limit is replaced by an error, and no reader finds it. -/
theorem long_log_is_not_read : ∃ response,
    projectLine envFormatters envRequest (nullLine 100000) =
      .ok (.marked envPrefix (nullLog 100000)) ∧
    splitlines (nullProcess 100000).stdout = [nullLine 100000] ∧
    projectResponse envFormatters envRequest (nullProcess 100000) = .ok response ∧
      (resultFromResponse response.stdout "env" : Except String (Option (Json.Dict OnlyNan))) =
        .ok none ∧
      (scanLines response.stdout "env" : Scan OnlyNan).sample = none :=
  ⟨_, project_nullLine _, nullProcess_lines _, long_log_error _ le_rfl, rfl, rfl⟩

end AtrexAgent.Evaluation
