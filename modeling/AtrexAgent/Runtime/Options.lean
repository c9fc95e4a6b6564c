import Mathlib.Data.Finset.Basic
import Mathlib.Data.String.Basic

/-! `filter_options`: the options of the supervisor are taken out of an argument vector before it is
parsed. -/

namespace AtrexAgent.Options

def AUTHORITY : Finset String := {
  "--workspace", "--hardware", "--url", "--gateway-profile", "--ssh", "--ssh-init",
  "--ssh-gpu", "--ssh-runtime-bind", "--health-command", "--runtime-health-command",
  "--timeout", "--max-input-file-mb", "--max-output-file-mb" }

def FORBIDDEN : Finset String := {"--preflight", "--check-health"}

variable (owned forbidden : Finset String)

inductive Error where
  | abbreviated (option : String)
  | supervisorOwned (option : String)
  | requiresValue (option : String)
  deriving DecidableEq, Repr

def Error.message : Error → String
  | .abbreviated option => "Abbreviated authority option is not allowed: " ++ option
  | .supervisorOwned option => "Supervisor-owned option is not allowed: " ++ option
  | .requiresValue option => option ++ " requires a value"

/-- `text.startswith(start)` -/
def startsWith (text start : String) : Bool := start.toList.isPrefixOf text.toList

/-- `word.split("=", 1)[0]` -/
def optionOf (word : String) : String := String.ofList (word.toList.takeWhile (· ≠ '='))

/-- `"=" in word` -/
def isJoined (word : String) : Bool := word.toList.contains '='

/-- The option is not one of the names, but the beginning of one. -/
def isAbbreviation (option : String) : Bool :=
  startsWith option "--" && option ∉ owned ∪ forbidden && decide (∃ name ∈ owned ∪ forbidden, startsWith name option)

def filterFrom : List String → List String → Except Error (List String)
  | [], result => .ok result
  | word :: rest, result =>
      if word = "--" then .ok (result ++ word :: rest)
      else
        let option := optionOf word
        if isAbbreviation owned forbidden option then .error (.abbreviated option)
        else if option ∈ forbidden then .error (.supervisorOwned option)
        else if option ∈ owned then
          if isJoined word then filterFrom rest result
          else
            match rest with
            | [] => .error (.requiresValue option)
            | value :: rest =>
                if startsWith value "-" then .error (.requiresValue option) else filterFrom rest result
        else filterFrom rest (result ++ [word])

/-- `filter_options` -/
def filterOptions (argv : List String) : Except Error (List String) := filterFrom owned forbidden argv []

/-! ### How a vector is read -/

/-- The word is read as an option of the supervisor, in full. -/
def Owned (word : String) : Prop := word ≠ "--" ∧ optionOf word ∉ forbidden ∧ optionOf word ∈ owned

/-- The word is no option of the supervisor in any spelling. -/
def Plain (word : String) : Prop :=
  isAbbreviation owned forbidden (optionOf word) = false ∧ optionOf word ∉ forbidden ∧ optionOf word ∉ owned

/-- The words that one turn of the loop takes. -/
inductive Item where
  | kept (word : String)
  | joined (word : String)
  | separate (word value : String)

def Item.words : Item → List String
  | .kept word => [word]
  | .joined word => [word]
  | .separate word value => [word, value]

def Item.left : Item → List String
  | .kept word => [word]
  | _ => []

def Item.Valid : Item → Prop
  | .kept word => word ≠ "--" ∧ Plain owned forbidden word
  | .joined word => Owned owned forbidden word ∧ isJoined word = true
  | .separate word value =>
      Owned owned forbidden word ∧ isJoined word = false ∧ startsWith value "-" = false

/-- The words of an option that is refused, at the head of what is left of a vector: a forbidden one, an
abbreviation, or one without its value. -/
def Refused (word : String) (rest : List String) : Prop :=
  word ≠ "--" ∧ (isAbbreviation owned forbidden (optionOf word) = true ∨ optionOf word ∈ forbidden ∨
    (optionOf word ∈ owned ∧ isJoined word = false ∧ ∀ value ∈ rest.head?, startsWith value "-" = true))

/-- The vector is read as these items, up to its end or to its first `--`. -/
structure Reading (argv : List String) (items : List Item) (tail : List String) : Prop where
  words : argv = items.flatMap Item.words ++ tail
  valid : ∀ item ∈ items, item.Valid owned forbidden
  stops : ∀ word ∈ tail.head?, word = "--"

variable {owned forbidden}

theorem Owned.full {word : String} (own : Owned owned forbidden word) :
    isAbbreviation owned forbidden (optionOf word) = false := by
  simp [isAbbreviation, own.2.2]

theorem filterFrom_kept {word : String} (valid : (Item.kept word).Valid owned forbidden) (rest result : List String) :
    filterFrom owned forbidden (word :: rest) result = filterFrom owned forbidden rest (result ++ [word]) := by
  obtain ⟨other, full, free, foreign⟩ := valid
  simp [filterFrom, other, full, free, foreign]

theorem filterFrom_joined {word : String} (valid : (Item.joined word).Valid owned forbidden) (rest result : List String) :
    filterFrom owned forbidden (word :: rest) result = filterFrom owned forbidden rest result := by
  obtain ⟨own, joined⟩ := valid
  simp [filterFrom, own.1, own.full, own.2.1, own.2.2, joined]

theorem filterFrom_separate {word value : String} (valid : (Item.separate word value).Valid owned forbidden)
    (rest result : List String) :
    filterFrom owned forbidden (word :: value :: rest) result = filterFrom owned forbidden rest result := by
  obtain ⟨own, joined, plain⟩ := valid
  simp [filterFrom, own.1, own.full, own.2.1, own.2.2, joined, plain]

theorem filterFrom_items {items : List Item} (valid : ∀ item ∈ items, item.Valid owned forbidden)
    (rest result : List String) : filterFrom owned forbidden (items.flatMap Item.words ++ rest) result =
      filterFrom owned forbidden rest (result ++ items.flatMap Item.left) := by
  induction items generalizing result with
  | nil => simp
  | cons item items ih =>
      have later := ih fun other member => valid other (List.mem_cons_of_mem _ member)
      have here := valid item List.mem_cons_self
      cases item with
      | kept word =>
          rw [List.flatMap_cons, Item.words, List.singleton_append, List.cons_append, filterFrom_kept here, later]
          simp [Item.left]
      | joined word =>
          rw [List.flatMap_cons, Item.words, List.singleton_append, List.cons_append, filterFrom_joined here, later]
          simp [Item.left]
      | separate word value =>
          rw [List.flatMap_cons, Item.words, List.cons_append, List.singleton_append, List.cons_append,
            List.cons_append, filterFrom_separate here, later]
          simp [Item.left]

theorem filterFrom_tail {tail : List String} (stops : ∀ word ∈ tail.head?, word = "--") (result : List String) :
    filterFrom owned forbidden tail result = .ok (result ++ tail) := by
  cases tail with
  | nil => simp [filterFrom]
  | cons word rest =>
      have marker : word = "--" := stops word (by simp)
      simp [filterFrom, marker]

theorem filterFrom_refused {word : String} {rest : List String} (refused : Refused owned forbidden word rest)
    (result : List String) : ∃ error, filterFrom owned forbidden (word :: rest) result = .error error := by
  obtain ⟨other, why⟩ := refused
  rw [filterFrom, if_neg other]
  dsimp only
  by_cases short : isAbbreviation owned forbidden (optionOf word) = true
  · exact ⟨_, by rw [if_pos short]⟩
  rw [if_neg short]
  by_cases bad : optionOf word ∈ forbidden
  · exact ⟨_, by rw [if_pos bad]⟩
  obtain ⟨own, separate, missing⟩ := (why.resolve_left short).resolve_left bad
  rw [if_neg bad, if_pos own, separate]
  cases rest with
  | nil => exact ⟨_, rfl⟩
  | cons value rest =>
      have dash := missing value (by simp)
      exact ⟨.requiresValue (optionOf word), by simp [dash]⟩

variable (owned forbidden) in
/-- A vector is read up to its end or to its first `--`, or up to a refused option. -/
def Read (argv : List String) : Prop :=
  (∃ items tail, Reading owned forbidden argv items tail) ∨
    ∃ (items : List Item) (word : String) (rest : List String), argv = items.flatMap Item.words ++ word :: rest ∧
      (∀ item ∈ items, item.Valid owned forbidden) ∧ Refused owned forbidden word rest

theorem Read.cons (item : Item) (valid : item.Valid owned forbidden) {rest : List String}
    (read : Read owned forbidden rest) : Read owned forbidden (item.words ++ rest) := by
  have all {items : List Item} (others : ∀ other ∈ items, other.Valid owned forbidden) :
      ∀ other ∈ item :: items, other.Valid owned forbidden := by
    simpa using ⟨valid, others⟩
  rcases read with ⟨items, tail, words, others, stops⟩ | ⟨items, word, rest, words, others, refused⟩
  · exact .inl ⟨item :: items, tail, by simp [words], all others, stops⟩
  · exact .inr ⟨item :: items, word, rest, by simp [words], all others, refused⟩

variable (owned forbidden) in
theorem reads (argv result : List String) : Read owned forbidden argv := by
  induction argv, result using filterFrom.induct owned forbidden with
  | case1 result => exact .inl ⟨[], [], rfl, by simp, by simp⟩
  | case2 result rest => exact .inl ⟨[], _, rfl, by simp, by simp⟩
  | case3 word rest result other option short =>
      exact .inr ⟨[], word, rest, rfl, by simp, other, .inl short⟩
  | case4 word rest result other option full bad =>
      exact .inr ⟨[], word, rest, rfl, by simp, other, .inr (.inl bad)⟩
  | case5 word rest result other option full free own joined ih =>
      exact Read.cons (.joined word) ⟨⟨other, free, own⟩, joined⟩ ih
  | case6 word result other option full free own separate =>
      exact .inr ⟨[], word, [], rfl, by simp, other, .inr (.inr ⟨own, by simpa using separate, by simp⟩)⟩
  | case7 word result other option full free own separate value rest dash =>
      exact .inr ⟨[], word, value :: rest, rfl, by simp, other,
        .inr (.inr ⟨own, by simpa using separate, by simpa using dash⟩)⟩
  | case8 word result other option full free own separate value rest plain ih =>
      exact Read.cons (.separate word value)
        ⟨⟨other, free, own⟩, by simpa using separate, by simpa using plain⟩ ih
  | case9 word rest result other option full free foreign ih =>
      exact Read.cons (.kept word) ⟨other, by simpa using full, free, foreign⟩ ih

theorem filterOptions_reading {argv tail : List String} {items : List Item}
    (reading : Reading owned forbidden argv items tail) :
    filterOptions owned forbidden argv = .ok (items.flatMap Item.left ++ tail) := by
  rw [filterOptions, reading.words, filterFrom_items reading.valid, filterFrom_tail reading.stops, List.nil_append]

theorem filterOptions_refused {items : List Item} {word : String} {rest : List String}
    (valid : ∀ item ∈ items, item.Valid owned forbidden) (refused : Refused owned forbidden word rest) :
    ∃ error, filterOptions owned forbidden (items.flatMap Item.words ++ word :: rest) = .error error := by
  rw [filterOptions, filterFrom_items valid]
  exact filterFrom_refused refused _

theorem filterOptions_ok {argv result : List String} (filtered : filterOptions owned forbidden argv = .ok result) :
    ∃ items tail, Reading owned forbidden argv items tail ∧ result = items.flatMap Item.left ++ tail := by
  rcases reads owned forbidden argv [] with ⟨items, tail, reading⟩ | refused
  · rw [filterOptions_reading reading] at filtered
    cases filtered
    exact ⟨items, tail, reading, rfl⟩
  · obtain ⟨items, word, rest, rfl, valid, refused⟩ := refused
    obtain ⟨error, raised⟩ := filterOptions_refused valid refused
    rw [raised] at filtered
    cases filtered

/-! ### What is left of a vector -/

theorem left_plain {items : List Item} (valid : ∀ item ∈ items, item.Valid owned forbidden) :
    ∀ word ∈ items.flatMap Item.left, word ≠ "--" ∧ Plain owned forbidden word := by
  intro word member
  obtain ⟨item, listed, here⟩ := List.mem_flatMap.mp member
  cases item with
  | kept kept =>
      rw [Item.left, List.mem_singleton] at here
      subst here
      exact valid _ listed
  | joined _ => simp [Item.left] at here
  | separate _ _ => simp [Item.left] at here

/-- No word that a turn takes is the marker. -/
theorem words_other {items : List Item} (valid : ∀ item ∈ items, item.Valid owned forbidden) :
    ∀ word ∈ items.flatMap Item.words, word ≠ "--" := by
  intro word member
  obtain ⟨item, listed, here⟩ := List.mem_flatMap.mp member
  have held := valid item listed
  cases item with
  | kept kept =>
      rw [Item.words, List.mem_singleton] at here
      subst here
      exact held.1
  | joined joined =>
      rw [Item.words, List.mem_singleton] at here
      subst here
      exact held.1.1
  | separate option value =>
      simp only [Item.words, List.mem_cons, List.not_mem_nil, or_false] at here
      rcases here with rfl | rfl
      · exact held.1.1
      · rintro rfl
        exact absurd held.2.2 (by decide)

/-- What is left is read word by word, and all of it is kept. -/
theorem Reading.again {argv tail : List String} {items : List Item} (reading : Reading owned forbidden argv items tail) :
    Reading owned forbidden (items.flatMap Item.left ++ tail) ((items.flatMap Item.left).map .kept) tail where
  words := by simp [List.flatMap_map, Item.words]
  valid := by
    intro item member
    obtain ⟨word, left, rfl⟩ := List.mem_map.mp member
    exact left_plain reading.valid word left
  stops := reading.stops

theorem before_marker {front tail : List String} (others : ∀ word ∈ front, word ≠ "--")
    (stops : ∀ word ∈ tail.head?, word = "--") :
    (front ++ tail).takeWhile (· ≠ "--") = front ∧ (front ++ tail).dropWhile (· ≠ "--") = tail := by
  have none_taken : tail.takeWhile (· ≠ "--") = [] ∧ tail.dropWhile (· ≠ "--") = tail := by
    cases tail with
    | nil => simp
    | cons word rest =>
        have marker : word = "--" := stops word (by simp)
        simp [marker]
  constructor
  · rw [List.takeWhile_append_of_pos (by simpa using others), none_taken.1, List.append_nil]
  · rw [List.dropWhile_append_of_pos (by simpa using others), none_taken.2]

/-- A vector is filtered if it can be read, and to what its reading leaves of it: before the first `--`
there is no option of the supervisor, from there on nothing is changed, and filtering again changes
nothing. It is refused exactly where a word that is read as an option is. -/
theorem options_are_filtered (owned forbidden : Finset String) (argv : List String) :
    (∀ result, filterOptions owned forbidden argv = .ok result ↔
      ∃ items tail, Reading owned forbidden argv items tail ∧ result = items.flatMap Item.left ++ tail) ∧
    (∀ result, filterOptions owned forbidden argv = .ok result →
      (∀ word ∈ result.takeWhile (· ≠ "--"), Plain owned forbidden word) ∧
      result.dropWhile (· ≠ "--") = argv.dropWhile (· ≠ "--") ∧
      filterOptions owned forbidden result = .ok result) ∧
    ((∃ error, filterOptions owned forbidden argv = .error error) ↔
      ∃ (items : List Item) (word : String) (rest : List String), argv = items.flatMap Item.words ++ word :: rest ∧
        (∀ item ∈ items, item.Valid owned forbidden) ∧ Refused owned forbidden word rest) := by
  refine ⟨fun result => ⟨filterOptions_ok, ?_⟩, fun result filtered => ?_, ?_, ?_⟩
  · intro read
    obtain ⟨items, tail, reading, rfl⟩ := read
    exact filterOptions_reading reading
  · obtain ⟨items, tail, reading, rfl⟩ := filterOptions_ok filtered
    have kept := left_plain reading.valid
    have after := before_marker (fun word member => (kept word member).1) reading.stops
    have before := before_marker (words_other reading.valid) reading.stops
    refine ⟨?_, ?_, ?_⟩
    · intro word member
      rw [after.1] at member
      exact (kept word member).2
    · rw [after.2, reading.words, before.2]
    · have again := filterOptions_reading reading.again
      rw [again]
      simp [List.flatMap_map, Item.left]
  · intro raised
    obtain ⟨error, raised⟩ := raised
    rcases reads owned forbidden argv [] with ⟨items, tail, reading⟩ | refused
    · rw [filterOptions_reading reading] at raised
      cases raised
    · exact refused
  · intro refused
    obtain ⟨items, word, rest, rfl, valid, refused⟩ := refused
    exact filterOptions_refused valid refused

example : filterOptions AUTHORITY FORBIDDEN
    ["--kind", "run", "--ssh=x", "--hardware", "h", "--", "--preflight"] =
      .ok ["--kind", "run", "--", "--preflight"] := by decide

end AtrexAgent.Options
