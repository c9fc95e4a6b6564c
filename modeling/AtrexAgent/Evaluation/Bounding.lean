import AtrexAgent.Evaluation.PublicResult

/-! What compacting a response keeps: its marked lines, up to cut strings and dropped diagnostics, and whether its
evaluation is cacheable. -/

namespace AtrexAgent.Evaluation

open AtrexAgent.Json

variable {F : Type}

/-! ### Values -/

mutual

/-- A value under a field with long strings cut, and with entries dropped from the end of diagnostic lists. -/
inductive Shortened : String → Json F → Json F → Prop
  | null {field : String} : Shortened field .null .null
  | bool {field : String} (b : Bool) : Shortened field (.bool b) (.bool b)
  | int {field : String} (n : Int) : Shortened field (.int n) (.int n)
  | float {field : String} (x : F) : Shortened field (.float x) (.float x)
  | same {field : String} (s : String) : Shortened field (.str s) (.str s)
  | cut {field : String} (s : String) (kept : Nat) (long : 256 ≤ kept) (longer : kept < s.toList.length) :
      Shortened field (.str s) (.str (String.ofList (s.toList.take kept ++ textTruncated)))
  | list {field : String} {items items' : List (Json F)} (each : ShortenedItems field items items')
      (all : field ∉ entryFields → items'.length = items.length) (some_item : items ≠ [] → items' ≠ []) :
      Shortened field (.arr items) (.arr items')
  | dict {field : String} {items items' : Json.Dict F} (each : ShortenedMembers items items') :
      Shortened field (.obj items) (.obj items')

inductive ShortenedItems : String → List (Json F) → List (Json F) → Prop
  | dropped {field : String} (items : List (Json F)) : ShortenedItems field items []
  | kept {field : String} {item item' : Json F} {rest rest' : List (Json F)} (here : Shortened field item item')
      (later : ShortenedItems field rest rest') : ShortenedItems field (item :: rest) (item' :: rest')

inductive ShortenedMembers : Json.Dict F → Json.Dict F → Prop
  | nil : ShortenedMembers [] []
  | cons {key : String} {value value' : Json F} {rest rest' : Json.Dict F} (here : Shortened key value value')
      (later : ShortenedMembers rest rest') : ShortenedMembers ((key, value) :: rest) ((key, value') :: rest')

end

section Values

variable (textLimit entryLimit : Nat)

theorem length_compactItems (field : String) (entries : Nat) (items : List (Json F)) :
    (compactItems textLimit entryLimit field entries items).1.length = min entries items.length := by
  induction items generalizing entries with
  | nil => cases entries <;> simp [compactItems]
  | cons item rest ih =>
      cases entries with
      | zero => simp [compactItems]
      | succ entries => simp [compactItems, ih]

/-- What holds of the strings and keys of a value, and of such strings cut, holds of those of the compacted one. -/
def CutKeeps (textLimit : Nat) (P : Text → Prop) : Prop := ∀ s, P s → P (compactText textLimit s).1

mutual

theorem compactValue_shortened (long : 256 ≤ textLimit) (entry : 1 ≤ entryLimit) (field : String) (value : Json F) :
    Shortened field value (compactValue textLimit entryLimit field value).1 := by
  cases value with
  | null => exact .null
  | bool b => exact .bool b
  | int n => exact .int n
  | float x => exact .float x
  | str s =>
      rw [compactValue, compactText]
      dsimp only
      split
      · rename_i longer
        exact .cut s textLimit long longer
      · dsimp only
        rw [String.ofList_toList]
        exact .same s
  | arr items =>
      rw [compactValue]
      dsimp only
      have count := length_compactItems textLimit entryLimit field
        (if field ∈ entryFields then entryLimit else items.length) items
      refine .list (compactItems_shortened long entry field _ items) (fun other => ?_) (fun some_item none_left => ?_)
      · rw [count, if_neg other, Nat.min_self]
      · have some_length := List.length_pos_iff.mpr some_item
        rw [none_left, List.length_nil] at count
        split at count <;> omega
  | obj items =>
      rw [compactValue]
      exact .dict (compactMembers_shortened long entry items)

theorem compactItems_shortened (long : 256 ≤ textLimit) (entry : 1 ≤ entryLimit) (field : String) (entries : Nat)
    (items : List (Json F)) : ShortenedItems field items (compactItems textLimit entryLimit field entries items).1 := by
  cases items with
  | nil =>
      rw [compactItems]
      exact .dropped []
  | cons item rest =>
      cases entries with
      | zero =>
          rw [compactItems]
          exact .dropped _
      | succ entries =>
          rw [compactItems]
          exact .kept (compactValue_shortened long entry field item)
            (compactItems_shortened long entry field entries rest)

theorem compactMembers_shortened (long : 256 ≤ textLimit) (entry : 1 ≤ entryLimit) (items : Json.Dict F) :
    ShortenedMembers items (compactMembers textLimit entryLimit items).1 := by
  cases items with
  | nil =>
      rw [compactMembers]
      exact .nil
  | cons item rest =>
      obtain ⟨key, value⟩ := item
      rw [compactMembers]
      exact .cons (compactValue_shortened long entry key value) (compactMembers_shortened long entry rest)

end

mutual

theorem compactValue_texts {P : Text → Prop} (keeps : CutKeeps textLimit P) (field : String) (value : Json F)
    (texts : ∀ s ∈ textsOf value, P s) : ∀ s ∈ textsOf (compactValue textLimit entryLimit field value).1, P s := by
  cases value with
  | null => exact texts
  | bool b => exact texts
  | int n => exact texts
  | float x => exact texts
  | str s =>
      rw [compactValue]
      simp only [textsOf, List.mem_singleton, forall_eq, String.toList_ofList] at texts ⊢
      exact keeps _ texts
  | arr items =>
      rw [compactValue]
      simp only [textsOf] at texts ⊢
      exact compactItems_texts keeps field _ items texts
  | obj items =>
      rw [compactValue]
      simp only [textsOf] at texts ⊢
      exact compactMembers_texts keeps items texts

theorem compactItems_texts {P : Text → Prop} (keeps : CutKeeps textLimit P) (field : String) (entries : Nat)
    (items : List (Json F)) (texts : ∀ s ∈ textsOfItems items, P s) :
    ∀ s ∈ textsOfItems (compactItems textLimit entryLimit field entries items).1, P s := by
  cases items with
  | nil =>
      rw [compactItems]
      exact texts
  | cons item rest =>
      cases entries with
      | zero =>
          rw [compactItems]
          simp [textsOfItems]
      | succ entries =>
          rw [compactItems]
          simp only [textsOfItems, List.mem_append, or_imp, forall_and] at texts ⊢
          exact ⟨compactValue_texts keeps field item texts.1, compactItems_texts keeps field entries rest texts.2⟩

theorem compactMembers_texts {P : Text → Prop} (keeps : CutKeeps textLimit P) (items : Json.Dict F)
    (texts : ∀ s ∈ textsOfMembers items, P s) :
    ∀ s ∈ textsOfMembers (compactMembers textLimit entryLimit items).1, P s := by
  cases items with
  | nil =>
      rw [compactMembers]
      exact texts
  | cons item rest =>
      obtain ⟨key, value⟩ := item
      rw [compactMembers]
      simp only [textsOfMembers, List.mem_cons, List.mem_append, or_imp, forall_and, forall_eq] at texts ⊢
      exact ⟨texts.1, compactValue_texts keeps key value texts.2.1, compactMembers_texts keeps rest texts.2.2⟩

end

theorem compactMembers_keys (items : Json.Dict F) :
    (compactMembers textLimit entryLimit items).1.map Prod.fst = items.map Prod.fst := by
  induction items with
  | nil => rw [compactMembers]
  | cons item rest ih =>
      obtain ⟨key, value⟩ := item
      rw [compactMembers, List.map_cons, List.map_cons, ih]

mutual

theorem compactValue_distinct (field : String) (value : Json F) (distinct : Distinct value) :
    Distinct (compactValue textLimit entryLimit field value).1 := by
  cases value with
  | null => exact distinct
  | bool b => exact distinct
  | int n => exact distinct
  | float x => exact distinct
  | str s => rw [compactValue]; trivial
  | arr items =>
      rw [compactValue]
      exact compactItems_distinct field _ items distinct
  | obj items =>
      rw [compactValue]
      rw [Distinct] at distinct ⊢
      rw [compactMembers_keys]
      exact ⟨distinct.1, compactMembers_distinct items distinct.2⟩

theorem compactItems_distinct (field : String) (entries : Nat) (items : List (Json F)) (distinct : DistinctItems items) :
    DistinctItems (compactItems textLimit entryLimit field entries items).1 := by
  cases items with
  | nil =>
      rw [compactItems]
      trivial
  | cons item rest =>
      cases entries with
      | zero =>
          rw [compactItems]
          trivial
      | succ entries =>
          rw [compactItems]
          exact ⟨compactValue_distinct field item distinct.1, compactItems_distinct field entries rest distinct.2⟩

theorem compactMembers_distinct (items : Json.Dict F) (distinct : DistinctMembers items) :
    DistinctMembers (compactMembers textLimit entryLimit items).1 := by
  cases items with
  | nil =>
      rw [compactMembers]
      trivial
  | cons item rest =>
      obtain ⟨key, value⟩ := item
      rw [compactMembers]
      exact ⟨compactValue_distinct key value distinct.1, compactMembers_distinct rest distinct.2⟩

end

theorem find?_compactMembers (items : Json.Dict F) (key : String) :
    find? (compactMembers textLimit entryLimit items).1 key =
      (find? items key).map fun value => (compactValue textLimit entryLimit key value).1 := by
  induction items with
  | nil => rw [compactMembers]; rfl
  | cons item rest ih =>
      obtain ⟨name, value⟩ := item
      rw [compactMembers, find?_cons, find?_cons, ih]
      by_cases same : name = key
      · rw [if_pos same, if_pos same, Option.map_some, same]
      · rw [if_neg same, if_neg same]

theorem get_compactMembers (items : Json.Dict F) (key : String) :
    get (compactMembers textLimit entryLimit items).1 key =
      (compactValue textLimit entryLimit key (get items key)).1 := by
  rw [Json.get, Json.get, find?_compactMembers]
  cases find? items key <;> simp [compactValue]

end Values

/-! ### Lines -/

/-- A line that is not empty. -/
def Row (line : Text) : Prop := line ≠ [] ∧ OneLine line

theorem splitlines_plain {line : Text} (row : Row line) : splitlines line = [line] := by
  obtain ⟨some_char, plain⟩ := row
  induction line with
  | nil => exact absurd rfl some_char
  | cons c rest ih =>
      rw [splitlines_cons c rest (plain c List.mem_cons_self)]
      cases rest with
      | nil => rfl
      | cons d rest => rw [ih (List.cons_ne_nil _ _) fun e member => plain e (List.mem_cons_of_mem _ member)]; rfl

@[simp] theorem joinLines_cons (row next : Text) (rest : List Text) :
    joinLines (row :: next :: rest) = row ++ '\n' :: joinLines (next :: rest) := rfl

theorem splitlines_join {rows : List Text} (each : ∀ row ∈ rows, Row row) : splitlines (joinLines rows) = rows := by
  induction rows with
  | nil => rfl
  | cons row rest ih =>
      have first := each row List.mem_cons_self
      cases rest with
      | nil => exact splitlines_plain first
      | cons next rest =>
          rw [joinLines_cons, splitlines_line _ _ first.2,
            ih fun other member => each other (List.mem_cons_of_mem _ member)]

/-- Lines joined in groups are joined. -/
theorem joinLines_append {first second : List Text} (some_first : first ≠ []) (some_second : second ≠ []) :
    joinLines (first ++ second) = joinLines first ++ '\n' :: joinLines second := by
  induction first with
  | nil => exact absurd rfl some_first
  | cons row rest ih =>
      cases rest with
      | nil =>
          cases second with
          | nil => exact absurd rfl some_second
          | cons next rest => rfl
      | cons next rest =>
          rw [List.cons_append, List.cons_append, joinLines_cons, ← List.cons_append, ih (List.cons_ne_nil _ _),
            joinLines_cons, List.append_assoc, List.cons_append]

theorem joinLines_groups {groups : List (List Text)} (each : ∀ group ∈ groups, group ≠ []) :
    joinLines (groups.map joinLines) = joinLines groups.flatten := by
  induction groups with
  | nil => rfl
  | cons group rest ih =>
      have later := ih fun other member => each other (List.mem_cons_of_mem _ member)
      cases rest with
      | nil => simp [joinLines]
      | cons next rest =>
          have some_group := each group List.mem_cons_self
          have some_next := each next (List.mem_cons_of_mem _ List.mem_cons_self)
          rw [List.map_cons, List.map_cons, joinLines_cons, ← List.map_cons, later, List.flatten_cons (l := group),
            joinLines_append some_group]
          intro none_left
          rw [List.flatten_cons, List.append_eq_nil_iff] at none_left
          exact some_next none_left.1

section Lines

variable [FloatText F] {textLimit entryLimit : Nat}

theorem compactPrefixes_apart : ∀ marker ∈ compactPrefixes, ∀ other ∈ compactPrefixes, other <+: marker → other = marker := by
  decide

theorem errorPrefixes_listed : ∀ marker ∈ errorPrefixes, marker ∈ compactPrefixes := by
  decide

theorem operationMarkers_compacted : ∀ marker ∈ operationMarkers, marker ∈ compactPrefixes := by
  decide

theorem compactPrefixes_short : ∀ marker ∈ compactPrefixes, marker.length ≤ 256 ∧ marker ≠ [] := by
  decide

theorem ascii_plain (c : Char) (ascii : Ascii c) : isBoundary c = false := by
  by_contra boundary
  simp only [isBoundary, Bool.or_eq_true, decide_eq_true_eq, Bool.not_eq_false] at boundary
  rcases boundary with ((((((((rfl | rfl) | rfl) | rfl) | rfl) | rfl) | rfl) | rfl) | rfl) | rfl
  all_goals exact absurd ascii (by decide)

theorem compactPrefixes_oneLine : ∀ marker ∈ compactPrefixes, OneLine marker := by
  have all : (compactPrefixes.all fun marker => marker.all fun c => decide (Ascii c)) = true := by decide +kernel
  intro marker listed c member
  exact ascii_plain c (each_of_all (List.all_eq_true.mp all marker listed) c member)

/-- The markers that a reader looks for. -/
def readerMarkers (operation : String) : List Text := errorPrefixes ++ (operationPrefix operation).toList

theorem readerMarkers_listed (operation : String) : ∀ marker ∈ readerMarkers operation, marker ∈ compactPrefixes := by
  intro marker member
  rcases List.mem_append.mp member with error | own
  · exact errorPrefixes_listed marker error
  · exact operationMarkers_compacted marker (operationPrefix_listed operation marker (Option.mem_toList.mp own))

/-- A line has one marker at most. -/
theorem find_marker {markers : List Text} (listed : ∀ marker ∈ markers, marker ∈ compactPrefixes) {marker : Text}
    (known : marker ∈ compactPrefixes) (rest : Text) :
    (markers.find? fun other => other.isPrefixOf (marker ++ rest)) = if marker ∈ markers then some marker else none := by
  induction markers with
  | nil => rfl
  | cons other others ih =>
      have later := ih fun marker member => listed marker (List.mem_cons_of_mem _ member)
      have other_known := listed other List.mem_cons_self
      rw [List.find?_cons]
      by_cases starts : other.isPrefixOf (marker ++ rest) = true
      · have prefix_of := List.isPrefixOf_iff_prefix.mp starts
        have same : other = marker := by
          rcases List.prefix_or_prefix_of_prefix prefix_of (List.prefix_append marker rest) with shorter | longer
          · exact compactPrefixes_apart marker known other other_known shorter
          · exact (compactPrefixes_apart other other_known marker known longer).symm
        rw [starts, same, if_pos List.mem_cons_self]
      · rw [Bool.not_eq_true] at starts
        have different : marker ≠ other := by
          rintro rfl
          rw [List.isPrefixOf_iff_prefix.mpr (List.prefix_append _ _)] at starts
          cases starts
        rw [starts, later]
        simp [different]

/-! ### A line that is compacted -/

/-- The marker of a line. -/
def markerFor (line : Text) : Option Text := compactPrefixes.find? fun marker => marker.isPrefixOf line

theorem markerFor_some {line marker : Text} (found : markerFor line = some marker) :
    marker ∈ compactPrefixes ∧ ∃ rest, line = marker ++ rest := by
  refine ⟨List.mem_of_find?_eq_some found, ?_⟩
  obtain ⟨rest, same⟩ := List.isPrefixOf_iff_prefix.mp
    (List.find?_some (p := fun marker => List.isPrefixOf marker line) found)
  exact ⟨rest, same.symm⟩

theorem markerFor_none {line : Text} (absent : markerFor line = none) :
    ∀ marker ∈ compactPrefixes, ¬ marker <+: line := by
  intro marker listed starts
  exact List.find?_eq_none.mp absent marker listed (List.isPrefixOf_iff_prefix.mpr starts)

/-- The lines that one line becomes. -/
inductive Becomes (F : Type) [FloatText F] (textLimit entryLimit : Nat) (line : Text) : List Text → Prop
  | note (rows : List Text) (absent : markerFor line = none)
      (each : ∀ row ∈ rows, row = stdoutTruncated ∨ (row <+: line ∧ row ≠ [])) : Becomes F textLimit entryLimit line rows
  | parsed (marker : Text) (value : Json F) (found : markerFor line = some marker)
      (decoded : loads (line.drop marker.length) = some value) :
      Becomes F textLimit entryLimit line [marker ++ dumps (compactValue textLimit entryLimit "" value).1]
  | short (marker : Text) (found : markerFor line = some marker)
      (broken : (loads (line.drop marker.length) : Option (Json F)) = none) (fits : line.length ≤ textLimit) :
      Becomes F textLimit entryLimit line [line]
  | cut (marker : Text) (found : markerFor line = some marker)
      (broken : (loads (line.drop marker.length) : Option (Json F)) = none) (long : textLimit < line.length) :
      Becomes F textLimit entryLimit line [line.take textLimit, textTruncated.tail]

theorem compactNote_becomes (textLimit entryLimit : Nat) (state : Compacted) {line : Text} (absent : markerFor line = none) :
    ∃ rows, (compactNote textLimit state line).lines = state.lines ++ rows ∧
      Becomes F textLimit entryLimit line rows := by
  unfold compactNote
  dsimp only
  refine ⟨_, List.append_assoc _ _ _, .note _ absent fun row member => ?_⟩
  rcases List.mem_append.mp member with kept | note
  · split at kept
    · cases kept
    · rename_i some_char
      rw [List.mem_singleton.mp kept]
      exact .inr ⟨List.take_prefix _ _, fun none_left => some_char (by simp [none_left])⟩
  · split at note
    · exact .inl (List.mem_singleton.mp note)
    · cases note

/-- A line is compacted to lines, some of which are joined. -/
theorem compactLine_becomes (textLimit entryLimit : Nat) (state : Compacted) (line : Text) :
    ∃ groups : List (List Text), (compactLine textLimit entryLimit F state line).lines =
        state.lines ++ groups.map joinLines ∧ (∀ group ∈ groups, group ≠ []) ∧
      Becomes F textLimit entryLimit line groups.flatten := by
  unfold compactLine
  cases found : compactPrefixes.find? (fun marker => marker.isPrefixOf line) with
  | none =>
      obtain ⟨rows, same, becomes⟩ := compactNote_becomes (F := F) textLimit entryLimit state found
      refine ⟨rows.map fun row => [row], ?_, by simp, ?_⟩
      · simpa [Function.comp_def, joinLines] using same
      · simpa [← List.flatMap_def] using becomes
  | some marker =>
      dsimp only
      cases decoded : (loads (line.drop marker.length) : Option (Json F)) with
      | some value => exact ⟨[[_]], rfl, by simp, .parsed marker value found decoded⟩
      | none =>
          dsimp only
          unfold compactText
          by_cases long : line.length > textLimit
          · rw [if_pos long]
            exact ⟨[[line.take textLimit, textTruncated.tail]], rfl, by simp, .cut marker found decoded long⟩
          · rw [if_neg long]
            exact ⟨[[line]], rfl, by simp, .short marker found decoded (Nat.le_of_not_lt long)⟩

/-- No string or key of the value has a separator of lines. -/
def Plain (value : Json F) : Prop := ∀ s ∈ textsOf value, ∀ c ∈ separators, c ∉ s

theorem mem_escapeChar {c d : Char} (member : d ∈ escapeChar c) : Ascii d ∨ d = c := by
  have hexadecimal : ∀ n, n < 16 → Ascii (hexChar n) := by decide
  unfold escapeChar at member
  iterate 7
    split at member
    · exact .inl (each_of_all (by decide) d member)
  split at member
  · rename_i control
    simp only [List.mem_cons, List.not_mem_nil, or_false] at member
    refine .inl ?_
    rcases member with rfl | rfl | rfl | rfl | rfl | rfl
    · decide
    · decide
    · decide
    · decide
    · exact hexadecimal _ (by omega)
    · exact hexadecimal _ (Nat.mod_lt _ (by decide))
  · exact .inr (List.mem_singleton.mp member)

theorem mem_quoted {s : Text} {c : Char} (member : c ∈ quoted s) : Ascii c ∨ c ∈ s := by
  simp only [quoted, List.mem_cons, List.mem_append, List.mem_flatMap, List.not_mem_nil, or_false] at member
  rcases member with rfl | ⟨d, inside, here⟩ | rfl
  · exact .inl (by decide)
  · rcases mem_escapeChar here with ascii | rfl
    · exact .inl ascii
    · exact .inr inside
  · exact .inl (by decide)

theorem separators_not_ascii : ∀ c ∈ separators, ¬ Ascii c := by
  have all : (separators.all fun c => !decide (Ascii c)) = true := by decide +kernel
  intro c member
  simpa using List.all_eq_true.mp all c member

theorem Plain.oneLine {value : Json F} (plain : Plain value) : OneLine (dumps value) := by
  intro c member
  rw [← Bool.not_eq_true]
  intro boundary
  have separator := separable_dumps value c member boundary
  have absent : ∀ c ∈ dumps value, c ∉ separators := by
    refine dumps_each (fun c ascii listed => ?_) value fun s listed c member separator => ?_
    · exact separators_not_ascii c listed ascii
    · rcases mem_quoted member with ascii | inside
      · exact separators_not_ascii c separator ascii
      · exact plain s listed c separator inside
  exact absent c member separator

theorem textTruncated_plain : ∀ c ∈ separators, c ∉ textTruncated := by
  have all : (textTruncated.all fun c => decide (c ∉ separators)) = true := by decide +kernel
  exact fun c separator member => each_of_all all c member separator

omit [FloatText F] in
theorem Plain.compact {value : Json F} (plain : Plain value) (textLimit entryLimit : Nat) (field : String) :
    Plain (compactValue textLimit entryLimit field value).1 := by
  refine compactValue_texts textLimit entryLimit (fun s plain => ?_) field value plain
  unfold compactText
  split
  · intro c separator member
    rcases List.mem_append.mp member with kept | mark
    · exact plain c separator (List.take_subset _ _ kept)
    · exact textTruncated_plain c separator mark
  · exact plain

theorem oneLine_prefix {line row : Text} (plain : OneLine line) (start : row <+: line) : OneLine row :=
  fun c member => plain c (start.subset member)

theorem truncation_marks_row : Row stdoutTruncated ∧ Row textTruncated.tail := by
  have ascii : (stdoutTruncated.all fun c => decide (Ascii c)) = true ∧
      (textTruncated.tail.all fun c => decide (Ascii c)) = true := by decide +kernel
  exact ⟨⟨by decide, fun c member => ascii_plain c (each_of_all ascii.1 c member)⟩,
    ⟨by decide, fun c member => ascii_plain c (each_of_all ascii.2 c member)⟩⟩

theorem truncation_marks_unmarked : markerFor stdoutTruncated = none ∧ markerFor textTruncated.tail = none := by
  decide

section Becoming

variable {line : Text} {rows : List Text}

theorem Becomes.each_row (becomes : Becomes F textLimit entryLimit line rows) (long : 256 ≤ textLimit) (one : OneLine line)
    (plain : ∀ marker (value : Json F), markerFor line = some marker → loads (line.drop marker.length) = some value →
      Plain value) : ∀ row ∈ rows, Row row := by
  cases becomes with
  | note rows absent each =>
      intro row member
      rcases each row member with rfl | ⟨start, some_char⟩
      · exact truncation_marks_row.1
      · exact ⟨some_char, oneLine_prefix one start⟩
  | parsed marker value found decoded =>
      obtain ⟨listed, -⟩ := markerFor_some found
      have written := ((plain marker value found decoded).compact textLimit entryLimit "").oneLine
      intro row member
      rw [List.mem_singleton.mp member]
      refine ⟨fun none_left => (compactPrefixes_short marker listed).2 (List.append_eq_nil_iff.mp none_left).1, ?_⟩
      intro c inside
      rcases List.mem_append.mp inside with mark | value
      · exact compactPrefixes_oneLine marker listed c mark
      · exact written c value
  | short marker found broken fits =>
      obtain ⟨listed, rest, rfl⟩ := markerFor_some found
      intro row member
      rw [List.mem_singleton.mp member]
      exact ⟨fun none_left => (compactPrefixes_short marker listed).2 (List.append_eq_nil_iff.mp none_left).1, one⟩
  | cut marker found broken longer =>
      intro row member
      rcases List.mem_cons.mp member with rfl | member
      · refine ⟨fun none_left => ?_, oneLine_prefix one (List.take_prefix _ _)⟩
        have length := congrArg List.length none_left
        rw [List.length_take, List.length_nil] at length
        omega
      · rw [List.mem_singleton.mp member]
        exact truncation_marks_row.2

/-- What is marked, and what is decoded from it. -/
def markedLine (F : Type) [FloatText F] (line : Text) : Option (Text × Option (Json F)) :=
  (markerFor line).map fun marker => (marker, loads (line.drop marker.length))

/-- The same marker, and a value with strings cut and diagnostics dropped. -/
def MarkedAs (before after : Text × Option (Json F)) : Prop :=
  after.1 = before.1 ∧ Option.Rel (Shortened "") before.2 after.2

theorem markerFor_append {marker : Text} (listed : marker ∈ compactPrefixes) (rest : Text) :
    markerFor (marker ++ rest) = some marker := by
  unfold markerFor
  rw [find_marker (fun _ => id) listed, if_pos listed]

theorem markedLine_none (absent : markerFor line = none) : markedLine F line = none := by
  rw [markedLine, absent]
  rfl

theorem markerFor_start {row : Text} (absent : markerFor line = none) (start : row <+: line) : markerFor row = none := by
  refine List.find?_eq_none.mpr fun marker listed starts => ?_
  exact markerFor_none absent marker listed ((List.isPrefixOf_iff_prefix.mp starts).trans start)

/-- A cut line keeps its marker. -/
theorem take_marked {marker rest : Text} (listed : marker ∈ compactPrefixes) (long : 256 ≤ textLimit) :
    (marker ++ rest).take textLimit = marker ++ rest.take (textLimit - marker.length) := by
  have short := (compactPrefixes_short marker listed).1
  rw [List.take_append, List.take_of_length_le (by omega)]

theorem Becomes.marked (becomes : Becomes F textLimit entryLimit line rows) (long : 256 ≤ textLimit)
    (entry : 1 ≤ entryLimit)
    (broken : ∀ marker, markerFor line = some marker → (loads (line.drop marker.length) : Option (Json F)) = none →
      textLimit < line.length → (loads ((line.take textLimit).drop marker.length) : Option (Json F)) = none) :
    List.Forall₂ MarkedAs ([line].filterMap (markedLine F)) (rows.filterMap (markedLine F)) := by
  cases becomes with
  | note rows absent each =>
      have none_marked : rows.filterMap (markedLine F) = [] := by
        rw [List.filterMap_eq_nil_iff]
        intro row member
        rcases each row member with rfl | ⟨start, -⟩
        · exact markedLine_none truncation_marks_unmarked.1
        · exact markedLine_none (markerFor_start absent start)
      rw [none_marked, List.filterMap_cons_none (markedLine_none absent)]
      exact .nil
  | parsed marker value found decoded =>
      obtain ⟨listed, -⟩ := markerFor_some found
      have distinct := compactValue_distinct textLimit entryLimit "" value (loads_distinct _ _ decoded)
      have before : markedLine F line = some (marker, some value) := by rw [markedLine, found, Option.map_some, decoded]
      have after : markedLine F (marker ++ dumps (compactValue textLimit entryLimit "" value).1) =
          some (marker, some (compactValue textLimit entryLimit "" value).1) := by
        rw [markedLine, markerFor_append listed, Option.map_some, List.drop_left, loads_dumps _ distinct]
      simp only [List.filterMap_cons, List.filterMap_nil, before, after]
      exact .cons ⟨rfl, .some (compactValue_shortened textLimit entryLimit long entry "" value)⟩ .nil
  | short marker found none_decoded fits =>
      have before : markedLine F line = some (marker, none) := by rw [markedLine, found, Option.map_some, none_decoded]
      simp only [List.filterMap_cons, List.filterMap_nil, before]
      exact .cons ⟨rfl, .none⟩ .nil
  | cut marker found none_decoded longer =>
      have still := broken marker found none_decoded longer
      have before : markedLine F line = some (marker, none) := by rw [markedLine, found, Option.map_some, none_decoded]
      obtain ⟨listed, rest, rfl⟩ := markerFor_some found
      have after : markedLine F ((marker ++ rest).take textLimit) = some (marker, none) := by
        rw [take_marked listed long] at still ⊢
        rw [markedLine, markerFor_append listed, Option.map_some, still]
      simp only [List.filterMap_cons, List.filterMap_nil, before, after, markedLine_none truncation_marks_unmarked.2]
      exact .cons ⟨rfl, .none⟩ .nil

end Becoming

/-! ### Scans -/

/-- What a scan of compacted lines has collected, but for its notes. -/
structure Related (textLimit entryLimit : Nat) (scan scan' : Scan F) : Prop where
  sample : scan'.sample = scan.sample.map fun value => (compactMembers textLimit entryLimit value).1
  errors : scan'.errors = scan.errors.map fun value => (compactMembers textLimit entryLimit value).1

section Scanning

variable {operation : String} {line : Text} {rows : List Text} {scan scan' : Scan F}

theorem scanLine_unmarked (operation : String) (scan : Scan F) (absent : markerFor line = none) : (scanLine operation scan line).sample = scan.sample ∧
    (scanLine operation scan line).errors = scan.errors := by
  have none_found : ((errorPrefixes ++ (operationPrefix operation).toList).find? fun marker =>
      marker.isPrefixOf line) = none := by
    refine List.find?_eq_none.mpr fun marker member starts => ?_
    exact markerFor_none absent marker (readerMarkers_listed operation marker member) (List.isPrefixOf_iff_prefix.mp starts)
  unfold scanLine
  rw [none_found]
  dsimp only
  split <;> exact ⟨rfl, rfl⟩

/-- What a reader makes of a marked line. -/
theorem scanLine_marked (operation : String) (scan : Scan F) {marker : Text} (rest : Text)
    (listed : marker ∈ compactPrefixes) :
    (scanLine operation scan (marker ++ rest)).sample =
        (if marker ∈ readerMarkers operation ∧ marker ∉ errorPrefixes then
          match (loads rest : Option (Json F)) with
          | some (.obj value) => some value
          | _ => scan.sample
        else scan.sample) ∧
      (scanLine operation scan (marker ++ rest)).errors =
        if marker ∈ errorPrefixes then
          match (loads rest : Option (Json F)) with
          | some (.obj value) => scan.errors ++ [value]
          | _ => scan.errors
        else scan.errors := by
  have found : ((errorPrefixes ++ (operationPrefix operation).toList).find? fun other =>
      other.isPrefixOf (marker ++ rest)) = if marker ∈ readerMarkers operation then some marker else none :=
    find_marker (readerMarkers_listed operation) listed rest
  unfold scanLine
  rw [found]
  by_cases read : marker ∈ readerMarkers operation
  · rw [if_pos read]
    dsimp only
    rw [List.drop_left]
    cases (loads rest : Option (Json F)) with
    | none => simp
    | some value =>
        cases value with
        | obj value => by_cases error : marker ∈ errorPrefixes <;> simp [error, read]
        | _ => simp
  · have no_error : marker ∉ errorPrefixes := fun error => read (List.mem_append_left _ error)
    rw [if_neg read]
    dsimp only
    simp only [read, no_error, false_and, if_false]
    split <;> exact ⟨rfl, rfl⟩

omit [FloatText F] in
theorem Related.trans_same (related : Related textLimit entryLimit scan scan') {after after' : Scan F}
    (sample : after.sample = scan.sample) (errors : after.errors = scan.errors) (sample' : after'.sample = scan'.sample)
    (errors' : after'.errors = scan'.errors) : Related textLimit entryLimit after after' :=
  ⟨by rw [sample', sample, related.sample], by rw [errors', errors, related.errors]⟩

theorem scan_unmarked (operation : String) (scan : Scan F) (absent : ∀ row ∈ rows, markerFor row = none) :
    (rows.foldl (scanLine operation) scan).sample = scan.sample ∧
      (rows.foldl (scanLine operation) scan).errors = scan.errors := by
  induction rows generalizing scan with
  | nil => exact ⟨rfl, rfl⟩
  | cons row rest ih =>
      obtain ⟨sample, errors⟩ := scanLine_unmarked operation scan (absent row List.mem_cons_self)
      obtain ⟨sample', errors'⟩ := ih (scanLine operation scan row) fun other member =>
        absent other (List.mem_cons_of_mem _ member)
      exact ⟨sample'.trans sample, errors'.trans errors⟩

/-- A marked line that is no JSON changes nothing. -/
theorem scanLine_broken (operation : String) (scan : Scan F) {marker : Text} (found : markerFor line = some marker)
    (broken : (loads (line.drop marker.length) : Option (Json F)) = none) :
    (scanLine operation scan line).sample = scan.sample ∧ (scanLine operation scan line).errors = scan.errors := by
  obtain ⟨listed, rest, rfl⟩ := markerFor_some found
  rw [List.drop_left] at broken
  obtain ⟨sample, errors⟩ := scanLine_marked operation scan rest listed
  rw [broken] at sample errors
  exact ⟨by simpa using sample, by simpa using errors⟩

theorem Becomes.related (becomes : Becomes F textLimit entryLimit line rows) (long : 256 ≤ textLimit)
    (broken : ∀ marker, markerFor line = some marker → (loads (line.drop marker.length) : Option (Json F)) = none →
      textLimit < line.length → (loads ((line.take textLimit).drop marker.length) : Option (Json F)) = none)
    (related : Related textLimit entryLimit scan scan') :
    Related textLimit entryLimit (scanLine operation scan line) (rows.foldl (scanLine operation) scan') := by
  cases becomes with
  | note rows absent each =>
      obtain ⟨sample, errors⟩ := scanLine_unmarked operation scan absent
      have unmarked : ∀ row ∈ rows, markerFor row = none := by
        intro row member
        rcases each row member with rfl | ⟨start, -⟩
        · exact truncation_marks_unmarked.1
        · exact markerFor_start absent start
      obtain ⟨sample', errors'⟩ := scan_unmarked operation scan' unmarked
      exact related.trans_same sample errors sample' errors'
  | parsed marker value found decoded =>
      obtain ⟨listed, rest, rfl⟩ := markerFor_some found
      rw [List.drop_left] at decoded
      have distinct := compactValue_distinct textLimit entryLimit "" value (loads_distinct _ _ decoded)
      obtain ⟨sample, errors⟩ := scanLine_marked operation scan rest listed
      obtain ⟨sample', errors'⟩ := scanLine_marked operation scan'
        (dumps (compactValue textLimit entryLimit "" value).1) listed
      rw [decoded] at sample errors
      rw [loads_dumps _ distinct] at sample' errors'
      rw [List.foldl_cons, List.foldl_nil]
      constructor
      · rw [sample, sample']
        split
        · cases value with
          | obj value => simp [compactValue]
          | _ => simp [compactValue, related.sample]
        · exact related.sample
      · rw [errors, errors']
        split
        · cases value with
          | obj value => simp [compactValue, related.errors]
          | _ => simp [compactValue, related.errors]
        · exact related.errors
  | short marker found none_decoded fits =>
      obtain ⟨sample, errors⟩ := scanLine_broken operation scan found none_decoded
      obtain ⟨sample', errors'⟩ := scanLine_broken operation scan' found none_decoded
      exact related.trans_same sample errors sample' errors'
  | cut marker found none_decoded longer =>
      obtain ⟨sample, errors⟩ := scanLine_broken operation scan found none_decoded
      have still := broken marker found none_decoded longer
      obtain ⟨listed, rest, rfl⟩ := markerFor_some found
      have kept : markerFor ((marker ++ rest).take textLimit) = some marker := by
        rw [take_marked listed long, markerFor_append listed]
      obtain ⟨sample', errors'⟩ := scanLine_broken operation scan' kept still
      obtain ⟨last_sample, last_errors⟩ := scanLine_unmarked operation (scanLine operation scan' ((marker ++ rest).take textLimit)) truncation_marks_unmarked.2
      exact related.trans_same sample errors (last_sample.trans sample') (last_errors.trans errors')

end Scanning

/-! ### Verdicts -/

section Verdicts

variable {operation : String} {scan scan' : Scan F} {exitCode truncated : Json F}

omit [FloatText F] in
/-- A short word is not cut, and nothing is cut to it. -/
theorem inWords_compact (long : 256 ≤ textLimit) (entryLimit : Nat) {words : List String}
    (short : ∀ word ∈ words, word.toList.length ≤ 256) (field : String) (value : Json F) :
    inWords (compactValue textLimit entryLimit field value).1 words = inWords value words := by
  cases value with
  | str s =>
      rw [compactValue, compactText]
      dsimp only
      split
      · rename_i longer
        have absent {text : String} (length : 256 < text.toList.length) : text ∉ words := fun member =>
          absurd (short text member) (Nat.not_le_of_lt length)
        have cut_absent : String.ofList (s.toList.take textLimit ++ textTruncated) ∉ words := by
          refine absent ?_
          rw [String.toList_ofList, List.length_append, List.length_take]
          have mark : 0 < textTruncated.length := by decide
          omega
        simp only [inWords, cut_absent, absent (Nat.lt_of_le_of_lt long longer)]
      · rw [String.ofList_toList]
  | _ => simp [compactValue, inWords]

omit [FloatText F] in
theorem isText_compact (long : 256 ≤ textLimit) (entryLimit : Nat) {word : String} (short : word.toList.length ≤ 256)
    (field : String) (value : Json F) :
    isText (compactValue textLimit entryLimit field value).1 word = isText value word := by
  have short : ∀ other ∈ [word], other.toList.length ≤ 256 := by simpa using short
  have same := inWords_compact long entryLimit short field value
  cases value with
  | str s =>
      rw [compactValue] at same ⊢
      simpa [inWords, isText] using same
  | _ => simp [compactValue, isText]

omit [FloatText F] in
@[simp] theorem isBool_compact (field : String) (value : Json F) :
    isBool (compactValue textLimit entryLimit field value).1 = isBool value := by
  cases value <;> simp [compactValue, isBool]

omit [FloatText F] in
@[simp] theorem isFalse_compact (field : String) (value : Json F) :
    isFalse (compactValue textLimit entryLimit field value).1 = isFalse value := by
  cases value <;> simp [compactValue, isFalse]

omit [FloatText F] in
theorem sampleVerdict_compact (textLimit entryLimit : Nat) (sample : Json.Dict F) :
    ∃ field, sampleVerdict (compactMembers textLimit entryLimit sample).1 =
      (compactValue textLimit entryLimit field (sampleVerdict sample)).1 := by
  unfold sampleVerdict
  rw [find?_compactMembers, get_compactMembers]
  cases find? sample "correct" with
  | none => exact ⟨"all_pass", rfl⟩
  | some value => exact ⟨"correct", rfl⟩

omit [FloatText F] in
theorem anyCancelled_compact (long : 256 ≤ textLimit) (entryLimit : Nat) (items : List (Json.Dict F)) :
    anyCancelled (items.map fun value => (compactMembers textLimit entryLimit value).1) = anyCancelled items := by
  induction items with
  | nil => rfl
  | cons item rest ih =>
      rw [List.map_cons, anyCancelled, anyCancelled, ih, get_compactMembers,
        inWords_compact long entryLimit (by decide)]

omit [FloatText F] in
theorem isInfra_compact (long : 256 ≤ textLimit) (entryLimit : Nat) (sample : Json.Dict F) :
    isInfra (compactMembers textLimit entryLimit sample).1 = isInfra sample := by
  unfold isInfra
  rw [get_compactMembers]
  cases get sample "error" with
  | obj error =>
      rw [compactValue]
      dsimp only
      rw [get_compactMembers, isText_compact long entryLimit (by decide)]
  | _ => simp [compactValue]

omit [FloatText F] in
theorem knownGatewayError_compact (long : 256 ≤ textLimit) (entryLimit : Nat) (value : Json.Dict F) :
    knownGatewayError (compactMembers textLimit entryLimit value).1 = knownGatewayError value := by
  unfold knownGatewayError
  rw [get_compactMembers, get_compactMembers, get_compactMembers, isText_compact long entryLimit (by decide),
    inWords_compact long entryLimit (by decide)]
  cases get value "error" with
  | obj error =>
      rw [compactValue]
      dsimp only
      rw [get_compactMembers, inWords_compact long entryLimit (by decide)]
  | _ => simp [compactValue]

omit [FloatText F] in
theorem Related.sample_getD (related : Related textLimit entryLimit scan scan') :
    scan'.sample.getD [] = (compactMembers textLimit entryLimit (scan.sample.getD [])).1 := by
  rw [related.sample]
  cases scan.sample with
  | none => simp [compactMembers]
  | some value => rfl

theorem isRejected_related (related : Related textLimit entryLimit scan scan') :
    isRejected operation exitCode scan' = isRejected operation exitCode scan := by
  obtain ⟨field, verdict⟩ := sampleVerdict_compact textLimit entryLimit (scan.sample.getD [])
  unfold isRejected
  rw [related.sample_getD, verdict, isFalse_compact, related.errors, List.isEmpty_map]

theorem statusOf_related (long : 256 ≤ textLimit) (related : Related textLimit entryLimit scan scan') :
    statusOf operation exitCode truncated scan' = statusOf operation exitCode truncated scan := by
  have cancelled : anyCancelled (scan'.errors ++ [scan'.sample.getD []]) =
      anyCancelled (scan.errors ++ [scan.sample.getD []]) := by
    rw [related.sample_getD, related.errors,
      ← anyCancelled_compact long entryLimit (scan.errors ++ [scan.sample.getD []]), List.map_append]
    rfl
  have no_sample : scan'.sample.isNone = scan.sample.isNone := by rw [related.sample, Option.isNone_map]
  unfold statusOf
  dsimp only
  rw [cancelled, isRejected_related related, related.sample_getD, isInfra_compact long, no_sample, related.errors,
    List.isEmpty_map]

theorem cacheableScan_related (long : 256 ≤ textLimit) (related : Related textLimit entryLimit scan scan') :
    cacheableScan operation exitCode truncated scan' = cacheableScan operation exitCode truncated scan := by
  have classified : classifyFirst scan'.errors = classifyFirst scan.errors := by
    rw [related.errors]
    cases scan.errors with
    | nil => rfl
    | cons first rest => exact knownGatewayError_compact long entryLimit first
  have decided (field : String) (correct outcome : Json F) (key : String) :
      isDecided (compactValue textLimit entryLimit field correct).1 (compactValue textLimit entryLimit key outcome).1 =
        isDecided correct outcome := by
    unfold isDecided
    rw [isBool_compact, inWords_compact long entryLimit (by decide)]
  obtain ⟨field, verdict⟩ := sampleVerdict_compact textLimit entryLimit (scan.sample.getD [])
  unfold cacheableScan
  rw [statusOf_related long related, classified]
  dsimp only
  rw [related.sample_getD, verdict, get_compactMembers, get_compactMembers]
  by_cases evaluation : operation ∈ ["evaluate", "same_allocation_abba"]
  · simp only [if_pos evaluation, decided]
  · simp only [if_neg evaluation, decided]

end Verdicts

/-! ### Responses -/

/-- A marked line that is JSON has no separator in its strings, and one that is none is none when it is cut. -/
structure TameLine (F : Type) [FloatText F] (textLimit : Nat) (line : Text) : Prop where
  one : OneLine line
  plain : ∀ marker (value : Json F), markerFor line = some marker → loads (line.drop marker.length) = some value →
    Plain value
  broken : ∀ marker, markerFor line = some marker → (loads (line.drop marker.length) : Option (Json F)) = none →
    textLimit < line.length → (loads ((line.take textLimit).drop marker.length) : Option (Json F)) = none

/-- What the lines become together. -/
theorem compactLines_becomes (textLimit entryLimit : Nat) (lines : List Text) (state : Compacted) : ∃ groups : List (List Text), ∃ blocks,
    (lines.foldl (compactLine textLimit entryLimit F) state).lines = state.lines ++ groups.map joinLines ∧
      (∀ group ∈ groups, group ≠ []) ∧ groups.flatten = blocks.flatten ∧
      List.Forall₂ (Becomes F textLimit entryLimit) lines blocks := by
  induction lines generalizing state with
  | nil => exact ⟨[], [], by simp, by simp, rfl, .nil⟩
  | cons line rest ih =>
      obtain ⟨first, written, some_first, becomes⟩ := compactLine_becomes (F := F) textLimit entryLimit state line
      obtain ⟨groups, blocks, later, some_later, same, each⟩ := ih (compactLine textLimit entryLimit F state line)
      refine ⟨first ++ groups, first.flatten :: blocks, ?_, ?_, ?_, .cons becomes each⟩
      · rw [List.foldl_cons, later, written, List.map_append, List.append_assoc]
      · intro group member
        exact (List.mem_append.mp member).elim (some_first group) (some_later group)
      · rw [List.flatten_append, List.flatten_cons, same]

section Blocks

variable {lines : List Text} {blocks : List (List Text)}

theorem blocks_rows (becomes : List.Forall₂ (Becomes F textLimit entryLimit) lines blocks) (long : 256 ≤ textLimit)
    (tame : ∀ line ∈ lines, TameLine F textLimit line) : ∀ row ∈ blocks.flatten, Row row := by
  induction becomes with
  | nil => simp
  | @cons line rows lines blocks here later ih =>
      have first := tame line List.mem_cons_self
      intro row member
      rw [List.flatten_cons, List.mem_append] at member
      rcases member with inside | inside
      · exact here.each_row long first.one first.plain row inside
      · exact ih (fun other member => tame other (List.mem_cons_of_mem _ member)) row inside

theorem blocks_marked (becomes : List.Forall₂ (Becomes F textLimit entryLimit) lines blocks) (long : 256 ≤ textLimit)
    (entry : 1 ≤ entryLimit) (tame : ∀ line ∈ lines, TameLine F textLimit line) :
    List.Forall₂ MarkedAs (lines.filterMap (markedLine F)) (blocks.flatten.filterMap (markedLine F)) := by
  induction becomes with
  | nil => exact .nil
  | @cons line rows lines blocks here later ih =>
      have first := tame line List.mem_cons_self
      rw [← List.singleton_append, List.filterMap_append, List.flatten_cons, List.filterMap_append]
      exact List.rel_append (here.marked long entry first.broken)
        (ih fun other member => tame other (List.mem_cons_of_mem _ member))

theorem blocks_related (becomes : List.Forall₂ (Becomes F textLimit entryLimit) lines blocks) (long : 256 ≤ textLimit)
    (tame : ∀ line ∈ lines, TameLine F textLimit line) (operation : String) {scan scan' : Scan F}
    (related : Related textLimit entryLimit scan scan') :
    Related textLimit entryLimit (lines.foldl (scanLine operation) scan)
      (blocks.flatten.foldl (scanLine operation) scan') := by
  induction becomes generalizing scan scan' with
  | nil => exact related
  | @cons line rows lines blocks here later ih =>
      rw [List.foldl_cons, List.flatten_cons, List.foldl_append]
      exact ih (fun other member => tame other (List.mem_cons_of_mem _ member))
        (here.related long (tame line List.mem_cons_self).broken related)

end Blocks

/-- What a compacted response has kept. -/
structure Keeps (source result : Json.Dict F) : Prop where
  /-- The marked lines, one by one: the same markers, and the same values but for cut strings and diagnostics. -/
  marked : ∀ stdout stdout', streamOf source "stdout" = .str stdout → streamOf result "stdout" = .str stdout' →
    List.Forall₂ MarkedAs (markedLines (F := F) stdout.toList) (markedLines stdout'.toList)
  cacheable : ∀ operation, cacheableEvaluation operation result = cacheableEvaluation operation source
  others : ∀ key, key ∉ ["stdout", "stderr", "diagnostic_truncation"] → find? result key = find? source key

theorem compactSource_keeps {limit : Nat} {source result : Json.Dict F} (long : 256 ≤ textLimit) (entry : 1 ≤ entryLimit)
    (unsealed : get source "agent_result" = .null)
    (tame : ∀ stdout, streamOf source "stdout" = .str stdout → ∀ line ∈ splitlines stdout.toList,
      TameLine F textLimit line)
    (compacted : compactSource textLimit entryLimit limit source = .ok result) : Keeps source result := by
  unfold compactSource at compacted
  cases read : streamOf source "stdout" with
  | str stdout =>
      rw [read] at compacted
      cases compacted
      obtain ⟨groups, blocks, written, some_group, same, becomes⟩ :=
        compactLines_becomes (F := F) textLimit entryLimit (splitlines stdout.toList) ⟨[], 0, 0, 0⟩
      rw [List.nil_append] at written
      rw [written, joinLines_groups some_group, same]
      have tame := tame stdout read
      have rows := blocks_rows becomes long tame
      constructor
      · intro before after given here
        cases read.symm.trans given
        simp only [streamOf, find?_set] at here
        cases here
        have marked := blocks_marked becomes long entry tame
        rw [← splitlines_join rows] at marked
        rw [String.toList_ofList]
        exact marked
      · intro operation
        have related := blocks_related becomes long tame operation
          (⟨rfl, rfl⟩ : Related textLimit entryLimit ⟨none, [], []⟩ ⟨none, [], []⟩)
        rw [← splitlines_join rows] at related
        unfold cacheableEvaluation
        simp only [get_set, streamOf, find?_set] at read ⊢
        simp only [unsealed, read, String.reduceEq, if_false, if_true, Option.getD_some, String.toList_ofList]
        exact cacheableScan_related long related
      · intro key other
        simp only [List.mem_cons, List.not_mem_nil, or_false, not_or] at other
        simp [other]
  | _ => simp [read] at compacted

omit [FloatText F] in
theorem sourceOf_unsealed (response : Json.Dict F) : get (sourceOf response) "agent_result" = .null := by
  have absent : find? (sourceOf response) "agent_result" = none := by
    rw [find?_eq_none]
    intro item member
    simpa using (List.mem_filter.mp member).2
  rw [Json.get, absent]
  rfl

/-- No marked line that is JSON has a separator in a string, and no cut makes JSON of one that is none. -/
structure Tame (F : Type) [FloatText F] (stdout : Text) : Prop where
  plain : ∀ line ∈ splitlines stdout, ∀ marker (value : Json F), markerFor line = some marker →
    loads (line.drop marker.length) = some value → Plain value
  broken : ∀ line ∈ splitlines stdout, ∀ marker, markerFor line = some marker →
    (loads (line.drop marker.length) : Option (Json F)) = none → ∀ round ≤ 12, 256 * 2 ^ round < line.length →
      (loads ((line.take (256 * 2 ^ round)).drop marker.length) : Option (Json F)) = none

/-- What the loop comes to from some limits on, which it halves. -/
def LoopOutcome (limit : Nat) (source : Json.Dict F) (rounds : Nat) : Except ResultError (Json.Dict F) → Prop
  | .ok result => ∃ round ≤ rounds, compactSource (256 * 2 ^ round) (2 ^ round) limit source = .ok result ∧
      storageSize (.obj result) ≤ limit
  | .error failure => failure = .evidence → ∀ round ≤ rounds, ∃ result,
      compactSource (256 * 2 ^ round) (2 ^ round) limit source = .ok result ∧ limit < storageSize (.obj result)

omit [FloatText F] in
theorem compactSource_failure [FloatText F] {limit : Nat} {source : Json.Dict F} {failure : ResultError}
    (failed : compactSource textLimit entryLimit limit source = .error failure) : failure = .attribute := by
  unfold compactSource at failed
  split at failed
  · cases failed
  · cases failed
    rfl

theorem boundLoop_outcome (limit : Nat) (source : Json.Dict F) (rounds : Nat) : ∃ outcome,
    (∀ fuel, rounds < fuel → boundLoop limit source fuel (256 * 2 ^ rounds) (2 ^ rounds) = some outcome) ∧
      LoopOutcome limit source rounds outcome := by
  induction rounds with
  | zero =>
      have once (fuel : Nat) (enough : 0 < fuel) : ∃ less, fuel = less + 1 := ⟨fuel - 1, by omega⟩
      cases compacted : compactSource (256 * 2 ^ 0) (2 ^ 0) limit source with
      | error failure =>
          refine ⟨.error failure, fun fuel enough => ?_, fun evidence => ?_⟩
          · obtain ⟨less, rfl⟩ := once fuel enough
            rw [boundLoop, compacted]
          · rw [compactSource_failure compacted] at evidence
            cases evidence
      | ok result =>
          by_cases fits : storageSize (.obj result) ≤ limit
          · refine ⟨.ok result, fun fuel enough => ?_, 0, Nat.le_refl 0, compacted, fits⟩
            obtain ⟨less, rfl⟩ := once fuel enough
            rw [boundLoop, compacted]
            simp only [if_pos fits]
          · refine ⟨.error .evidence, fun fuel enough => ?_, fun _ round least => ?_⟩
            · obtain ⟨less, rfl⟩ := once fuel enough
              rw [boundLoop, compacted]
              simp only [if_neg fits]
              rfl
            · rw [Nat.le_zero.mp least]
              exact ⟨result, compacted, Nat.lt_of_not_le fits⟩
  | succ rounds ih =>
      obtain ⟨outcome, runs, spec⟩ := ih
      cases compacted : compactSource (256 * 2 ^ (rounds + 1)) (2 ^ (rounds + 1)) limit source with
      | error failure =>
          refine ⟨.error failure, fun fuel enough => ?_, fun evidence => ?_⟩
          · obtain ⟨less, rfl⟩ : ∃ less, fuel = less + 1 := ⟨fuel - 1, by omega⟩
            rw [boundLoop, compacted]
          · rw [compactSource_failure compacted] at evidence
            cases evidence
      | ok result =>
          by_cases fits : storageSize (.obj result) ≤ limit
          · refine ⟨.ok result, fun fuel enough => ?_, rounds + 1, Nat.le_refl _, compacted, fits⟩
            obtain ⟨less, rfl⟩ : ∃ less, fuel = less + 1 := ⟨fuel - 1, by omega⟩
            rw [boundLoop, compacted]
            simp only [if_pos fits]
          · refine ⟨outcome, fun fuel enough => ?_, ?_⟩
            · obtain ⟨less, rfl⟩ : ∃ less, fuel = less + 1 := ⟨fuel - 1, by omega⟩
              have positive : 0 < 2 ^ rounds := Nat.two_pow_pos rounds
              have not_last : ¬ (256 * 2 ^ (rounds + 1) = 256 ∧ 2 ^ (rounds + 1) = 1) := by
                rw [Nat.pow_succ]
                omega
              have text : max 256 (256 * 2 ^ (rounds + 1) / 2) = 256 * 2 ^ rounds := by
                rw [Nat.pow_succ]
                omega
              have entry : max 1 (2 ^ (rounds + 1) / 2) = 2 ^ rounds := by
                rw [Nat.pow_succ]
                omega
              rw [boundLoop, compacted]
              simp only [if_neg fits, if_neg not_last, text, entry]
              exact runs less (by omega)
            · cases outcome with
              | ok small =>
                  obtain ⟨round, least, here⟩ := spec
                  exact ⟨round, by omega, here⟩
              | error failure =>
                  intro evidence round least
                  rcases Nat.lt_or_ge rounds round with last | earlier
                  · obtain rfl : round = rounds + 1 := by omega
                    exact ⟨result, compacted, Nat.lt_of_not_le fits⟩
                  · exact spec evidence round earlier

/-- What bounding a response comes to: the response, a smaller one that keeps the evidence, or an error. -/
def BoundOutcome (limit : Nat) (response : Json.Dict F) : Except ResultError (Json.Dict F) → Prop
  | .ok result => result = response ∨ (storageSize (.obj result) ≤ limit ∧
      ((∀ stdout, streamOf (sourceOf response) "stdout" = .str stdout → Tame F stdout.toList) →
        Keeps (sourceOf response) result))
  | .error failure => failure = .evidence → ∀ round ≤ 12, ∃ result,
      compactSource (256 * 2 ^ round) (2 ^ round) limit (sourceOf response) = .ok result ∧
        limit < storageSize (.obj result)

theorem response_is_bounded (limit : Nat) (response : Json.Dict F) : ∃ outcome,
    (∀ fuel, 13 ≤ fuel → boundWithin limit fuel response = some outcome) ∧ BoundOutcome limit response outcome := by
  by_cases small : storageSize (.obj (sourceOf response)) ≤ limit
  · exact ⟨.ok response, fun fuel _ => if_pos small, .inl rfl⟩
  · obtain ⟨outcome, runs, spec⟩ := boundLoop_outcome limit (sourceOf response) 12
    refine ⟨outcome, fun fuel enough => ?_, ?_⟩
    · rw [boundWithin, if_neg small]
      exact runs fuel enough
    · cases outcome with
      | error failure => exact spec
      | ok result =>
          obtain ⟨round, least, compacted, fits⟩ := spec
          refine .inr ⟨fits, fun tame => ?_⟩
          have positive : 0 < 2 ^ round := Nat.two_pow_pos round
          refine compactSource_keeps (by omega) positive (sourceOf_unsealed response) (fun stdout read line member => ?_) compacted
          have tame := tame stdout read
          exact ⟨splitlines_oneLine _ line member, tame.plain line member,
            fun marker found broken longer => tame.broken line member marker found broken round least longer⟩

end Lines

/-- The failures that a result lists. -/
def failuresOf (value : Json OnlyNan) : List (Json OnlyNan) :=
  match value with
  | .obj sample => match get sample "failures" with
    | .arr items => items
    | _ => []
  | _ => []

def failedSample (failures : List (Json OnlyNan)) : Json OnlyNan := .obj [("failures", .arr failures)]

def failedLine (failures : List (Json OnlyNan)) : Text := resultPrefix ++ dumps (failedSample failures)

/-- A response of a result line, and of errors. -/
def failedResponse (failures : List (Json OnlyNan)) (stderr : Text) : Json.Dict OnlyNan :=
  [("exit_code", .int 0), ("stdout", .str (String.ofList (failedLine failures))), ("stderr", .str (String.ofList stderr))]

def noise : Text := List.replicate 700 'x'

def truncatedResponse (failures : List (Json OnlyNan)) (stderr : Text) (omitted entries : Nat) : Json.Dict OnlyNan :=
  failedResponse failures stderr ++ [("diagnostic_truncation", .obj [("reason", .str truncationReason),
    ("original_response_bytes", .int 787), ("limit_bytes", .int 700), ("omitted_text_chars", .int omitted),
    ("omitted_diagnostic_entries", .int entries)])]

theorem failedResponse_size : storageSize (.obj (failedResponse [.int 1, .int 2] noise)) = 787 := by
  simp only [storageSize, failedResponse, dumpsWith, dumpsMembersWith, String.toList_ofList]
  decide +kernel

theorem loads_failedSample : loads (dumps (failedSample [.int 1, .int 2])) = some (failedSample [.int 1, .int 2]) :=
  loads_dumps _ (by simp [failedSample, Distinct, DistinctMembers, DistinctItems])

theorem failedLine_lines : splitlines (failedLine [.int 1, .int 2]) = [failedLine [.int 1, .int 2]] := by
  decide +kernel

theorem compact_failed (textLimit entryLimit : Nat) (kept : List (Json OnlyNan)) (omitted entries : Nat)
    (sample : compactValue textLimit entryLimit "" (failedSample [.int 1, .int 2]) = (failedSample kept, 0, entries))
    (texts : (compactText textLimit noise).2 = omitted) :
    compactSource textLimit entryLimit 700 (failedResponse [.int 1, .int 2] noise) =
      .ok (truncatedResponse kept (compactText textLimit noise).1 omitted entries) := by
  have stdout : streamOf (failedResponse [.int 1, .int 2] noise) "stdout" =
      .str (String.ofList (failedLine [.int 1, .int 2])) := rfl
  have stderr : streamOf (failedResponse [.int 1, .int 2] noise) "stderr" = .str (String.ofList noise) := rfl
  unfold compactSource
  rw [stdout]
  dsimp only
  rw [stderr, String.toList_ofList, failedLine_lines, failedResponse_size]
  have marked : markerFor (failedLine [.int 1, .int 2]) = some resultPrefix :=
    markerFor_append (by simp [compactPrefixes]) _
  unfold markerFor at marked
  simp only [List.foldl_cons, List.foldl_nil, compactLine, marked]
  rw [failedLine, List.drop_left, loads_failedSample]
  simp only [sample, compactValue, String.toList_ofList, texts, List.nil_append, joinLines]
  simp [failedResponse, truncatedResponse, Json.set, failedLine]

theorem truncated_sizes : storageSize (.obj (truncatedResponse [.int 1, .int 2] noise 0 0)) = 1003 ∧
    storageSize (.obj (truncatedResponse [.int 1, .int 2] (compactText 512 noise).1 188 0)) = 846 ∧
      storageSize (.obj (truncatedResponse [.int 1] (compactText 256 noise).1 444 1)) = 587 := by
  simp only [storageSize, truncatedResponse, failedResponse, List.cons_append, List.nil_append, dumpsWith,
    dumpsMembersWith, String.toList_ofList]
  decide +kernel

theorem compact_large {textLimit entryLimit : Nat} (long : 700 ≤ textLimit) (both : 2 ≤ entryLimit) :
    compactSource textLimit entryLimit 700 (failedResponse [.int 1, .int 2] noise) =
      .ok (truncatedResponse [.int 1, .int 2] noise 0 0) := by
  obtain ⟨entries, rfl⟩ : ∃ entries, entryLimit = entries + 2 := ⟨entryLimit - 2, by omega⟩
  have uncut : compactText textLimit noise = (noise, 0) := if_neg (by rw [noise, List.length_replicate]; omega)
  have compacted := compact_failed textLimit (entries + 2) [.int 1, .int 2] 0 0
    (by simp [failedSample, compactValue, compactMembers, compactItems, entryFields]) (congrArg Prod.snd uncut)
  rwa [uncut] at compacted

theorem failedResponse_bounded : boundWithin 700 13 (failedResponse [.int 1, .int 2] noise) =
    some (.ok (truncatedResponse [.int 1] (compactText 256 noise).1 444 1)) := by
  obtain ⟨large, middle, small⟩ := truncated_sizes
  have second := compact_failed 512 2 [.int 1, .int 2] 188 0
    (by simp [failedSample, compactValue, compactMembers, compactItems, entryFields]) (by decide +kernel)
  have last := compact_failed 256 1 [.int 1] 444 1
    (by simp [failedSample, compactValue, compactMembers, compactItems, entryFields]) (by decide +kernel)
  have source : sourceOf (failedResponse [.int 1, .int 2] noise) = failedResponse [.int 1, .int 2] noise := by
    simp [sourceOf, failedResponse]
  simp (disch := decide) [boundWithin, boundLoop, source, failedResponse_size, compact_large, large, second, middle,
    last, small]

theorem kept_failures (failures : List (Json OnlyNan)) (distinct : Distinct (failedSample failures))
    (line : splitlines (failedLine failures) = [failedLine failures]) :
    (markedLines (F := OnlyNan) (failedLine failures)).map (fun entry => entry.2.map failuresOf) = [some failures] := by
  have marked : markerFor (failedLine failures) = some resultPrefix := markerFor_append (by simp [compactPrefixes]) _
  unfold markerFor at marked
  unfold markedLines
  rw [line]
  simp only [List.filterMap_cons, List.filterMap_nil, marked, Option.map_some]
  rw [failedLine, List.drop_left, loads_dumps _ distinct]
  rfl

/-- Bounding drops a number of a marked line, if it is one of the last failures. -/
theorem bounding_drops_numbers : ¬ ∀ (limit fuel : Nat) (response result : Json.Dict OnlyNan),
    boundWithin limit fuel response = some (.ok result) → ∀ stdout stdout', streamOf response "stdout" = .str stdout →
      streamOf result "stdout" = .str stdout' →
        (markedLines stdout'.toList).map (fun entry => entry.2.map failuresOf) =
          (markedLines stdout.toList).map (fun entry => entry.2.map failuresOf) := by
  intro always
  have same := always 700 13 _ _ failedResponse_bounded _ _ rfl rfl
  rw [String.toList_ofList, String.toList_ofList,
    kept_failures _ (by simp [failedSample, Distinct, DistinctMembers, DistinctItems]) failedLine_lines,
    kept_failures _ (by simp [failedSample, Distinct, DistinctMembers, DistinctItems]) (by decide +kernel)] at same
  simp at same

end AtrexAgent.Evaluation
