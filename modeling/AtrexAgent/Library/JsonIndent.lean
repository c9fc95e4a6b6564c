import AtrexAgent.Library.JsonText

/-! The indented JSON encoder, and that the decoder reads back what it writes. -/

namespace AtrexAgent.Json

variable {F : Type} [FloatText F]

/-- A new line at a depth. -/
def newline (indent depth : Nat) : Text := '\n' :: List.replicate (indent * depth) ' '

mutual

/-- `json.dumps(value, indent=indent, ensure_ascii=False)` of a value at a depth. -/
def dumpsIndented (indent depth : Nat) : Json F → Text
  | .arr [] => ['[', ']']
  | .arr (item :: rest) => '[' :: (newline indent (depth + 1) ++ (indentedItems indent (depth + 1) (item :: rest) ++
      (newline indent depth ++ [']'])))
  | .obj [] => ['{', '}']
  | .obj (item :: rest) => '{' :: (newline indent (depth + 1) ++ (indentedMembers indent (depth + 1) (item :: rest) ++
      (newline indent depth ++ ['}'])))
  | value => dumpsWith [] value

def indentedItems (indent depth : Nat) : List (Json F) → Text
  | [] => []
  | item :: rest => dumpsIndented indent depth item ++
      ((if rest.isEmpty then [] else ',' :: newline indent depth) ++ indentedItems indent depth rest)

def indentedMembers (indent depth : Nat) : List (String × Json F) → Text
  | [] => []
  | (key, value) :: rest => quoted key.toList ++ (':' :: ' ' :: (dumpsIndented indent depth value ++
      ((if rest.isEmpty then [] else ',' :: newline indent depth) ++ indentedMembers indent depth rest)))

end

/-- Members that others follow are written as one text before these. -/
theorem indentedMembers_append (indent depth : Nat) (front : List (String × Json F)) : ∃ start : Text, ∀ item rest,
    indentedMembers indent depth (front ++ item :: rest) = start ++ indentedMembers indent depth (item :: rest) := by
  induction front with
  | nil => exact ⟨[], fun item rest => rfl⟩
  | cons first front ih =>
      obtain ⟨start, same⟩ := ih
      refine ⟨quoted first.1.toList ++ (':' :: ' ' :: (dumpsIndented indent depth first.2 ++
        (',' :: newline indent depth ++ start))), fun item rest => ?_⟩
      rw [List.cons_append, indentedMembers, same, if_neg (by simp)]
      simp only [List.append_assoc, List.cons_append]

theorem dumpsIndented_begins (indent depth : Nat) (v : Json F) :
    ∃ c rest, dumpsIndented indent depth v = c :: rest ∧ Begins c := by
  cases v with
  | arr items => cases items <;> exact ⟨_, _, by rw [dumpsIndented], by decide⟩
  | obj items => cases items <;> exact ⟨_, _, by rw [dumpsIndented], by decide⟩
  | null => exact dumpsWith_begins [] (.null : Json F)
  | bool b => exact dumpsWith_begins [] (.bool b : Json F)
  | int n => exact dumpsWith_begins [] (.int n : Json F)
  | float x => exact dumpsWith_begins [] (.float x)
  | str s => exact dumpsWith_begins [] (.str s : Json F)

theorem newline_spaces (indent depth : Nat) : ∀ c ∈ newline indent depth, isSpace c = true := by
  intro c member
  rcases List.mem_cons.mp member with rfl | blank
  · decide
  · rw [List.eq_of_mem_replicate blank]
    decide

/-- What follows a new line, where no space begins it. -/
theorem dropWhile_newline (indent depth : Nat) {c : Char} (solid : isSpace c = false) (rest : Text) :
    (newline indent depth ++ c :: rest).dropWhile isSpace = c :: rest := by
  rw [List.dropWhile_append_of_pos (newline_spaces indent depth), List.dropWhile_cons_of_neg (by simp [solid])]

theorem newline_stops (indent depth : Nat) (rest : Text) : Stops inNumber (newline indent depth ++ rest) :=
  stops_of inNumber '\n' _ (by decide)

mutual

theorem scanValue_dumpsIndented (indent depth : Nat) (v : Json F) (distinct : Distinct v) (fuel : Nat)
    (enough : (dumpsIndented indent depth v).length < fuel) (rest : Text) (stops : Stops inNumber rest) :
    scanValue fuel (dumpsIndented indent depth v ++ rest) = some (v, rest) := by
  obtain ⟨fuel, rfl⟩ : ∃ more, fuel = more + 1 := ⟨fuel - 1, by omega⟩
  have plain (value : Json F) (distinct : Distinct value) (enough : (dumpsWith [] value).length < fuel + 1) :
      scanValue (fuel + 1) (dumpsWith [] value ++ rest) = some (value, rest) :=
    scanValue_dumpsWith (fun _ member => absurd member List.not_mem_nil) value distinct (fuel + 1) enough rest stops
  cases v with
  | null => exact plain .null distinct enough
  | bool b => exact plain (.bool b) distinct enough
  | int n => exact plain (.int n) distinct enough
  | float x => exact plain (.float x) distinct enough
  | str s => exact plain (.str s) distinct enough
  | arr items =>
      cases items with
      | nil => rfl
      | cons item more =>
          rw [dumpsIndented] at enough ⊢
          simp only [List.length_cons, List.length_append, List.length_nil] at enough
          obtain ⟨c, tail, start, begins⟩ := dumpsIndented_begins indent (depth + 1) item
          have opens : ∃ tail', indentedItems indent (depth + 1) (item :: more) ++ (newline indent depth ++ ']' :: rest) =
              c :: tail' := by
            rw [indentedItems, start]
            exact ⟨_, rfl⟩
          obtain ⟨tail', opens⟩ := opens
          have inner := scanItems_indented indent (depth + 1) depth (item :: more) (by simp)
            (by simpa [Distinct] using distinct) fuel (by omega) rest
          have text : '[' :: (newline indent (depth + 1) ++ (indentedItems indent (depth + 1) (item :: more) ++
              (newline indent depth ++ [']']))) ++ rest = '[' :: (newline indent (depth + 1) ++ (c :: tail')) := by
            rw [← opens]
            simp
          rw [opens] at inner
          rw [text, scanValue, dropWhile_newline indent _ begins.1]
          split
          · rename_i same
            injection same with here _
            exact absurd here begins.2.1
          · rw [inner]
            rfl
  | obj items =>
      cases items with
      | nil => rfl
      | cons item more =>
          rw [dumpsIndented] at enough ⊢
          simp only [List.length_cons, List.length_append, List.length_nil] at enough
          have opens : ∃ tail', indentedMembers indent (depth + 1) (item :: more) ++ (newline indent depth ++ '}' :: rest) =
              '"' :: tail' := by
            obtain ⟨key, value⟩ := item
            rw [indentedMembers, quoted]
            exact ⟨_, rfl⟩
          obtain ⟨tail', opens⟩ := opens
          rw [Distinct] at distinct
          have inner := scanMembers_indented indent (depth + 1) depth (item :: more) (by simp) distinct.2 fuel (by omega) rest
          have text : '{' :: (newline indent (depth + 1) ++ (indentedMembers indent (depth + 1) (item :: more) ++
              (newline indent depth ++ ['}']))) ++ rest = '{' :: (newline indent (depth + 1) ++ ('"' :: tail')) := by
            rw [← opens]
            simp
          rw [opens] at inner
          rw [text, scanValue, dropWhile_newline indent _ (by decide)]
          split
          · rename_i same
            injection same with here _
            exact absurd here (by decide)
          · rw [inner]
            simp [ofPairs_nodup (item :: more) distinct.1]

theorem scanItems_indented (indent depth closing : Nat) (items : List (Json F)) (some_item : items ≠ [])
    (distinct : DistinctItems items) (fuel : Nat) (enough : (indentedItems indent depth items).length + 1 < fuel)
    (rest : Text) : scanItems fuel (indentedItems indent depth items ++ (newline indent closing ++ ']' :: rest)) =
      some (items, rest) := by
  obtain ⟨fuel, rfl⟩ : ∃ more, fuel = more + 1 := ⟨fuel - 1, by omega⟩
  cases items with
  | nil => exact absurd rfl some_item
  | cons item more =>
      simp only [DistinctItems] at distinct
      simp only [indentedItems, List.length_append] at enough
      cases more with
      | nil =>
          have text : indentedItems indent depth [item] ++ (newline indent closing ++ ']' :: rest) =
              dumpsIndented indent depth item ++ (newline indent closing ++ ']' :: rest) := by
            simp [indentedItems]
          rw [text, scanItems, scanValue_dumpsIndented indent depth item distinct.1 fuel (by omega) _
            (newline_stops indent closing _), Option.bind_some]
          dsimp only
          rw [dropWhile_newline indent closing (by decide)]
          rfl
      | cons next later =>
          have text : indentedItems indent depth (item :: next :: later) ++ (newline indent closing ++ ']' :: rest) =
              dumpsIndented indent depth item ++ ',' :: (newline indent depth ++
                (indentedItems indent depth (next :: later) ++ (newline indent closing ++ ']' :: rest))) := by
            simp [indentedItems]
          obtain ⟨c, tail, start, begins⟩ := dumpsIndented_begins indent depth next
          have opens : ∃ tail', indentedItems indent depth (next :: later) ++ (newline indent closing ++ ']' :: rest) =
              c :: tail' := by
            rw [indentedItems, start]
            exact ⟨_, rfl⟩
          obtain ⟨tail', opens⟩ := opens
          have longer : 0 < (dumpsIndented indent depth item).length := by
            obtain ⟨_, _, begun, _⟩ := dumpsIndented_begins indent depth item
            rw [begun]
            simp
          have inner := scanItems_indented indent depth closing (next :: later) (by simp) distinct.2 fuel (by omega) rest
          rw [opens] at inner
          rw [text, scanItems, scanValue_dumpsIndented indent depth item distinct.1 fuel (by omega) _
            (stops_of _ _ _ (by decide)), opens, Option.bind_some]
          dsimp only
          rw [List.dropWhile_cons_of_neg (by decide)]
          show (scanItems fuel ((newline indent depth ++ c :: tail').dropWhile isSpace)).map
            (fun r => (item :: r.1, r.2)) = _
          rw [dropWhile_newline indent depth begins.1, inner]
          rfl

theorem scanMembers_indented (indent depth closing : Nat) (items : List (String × Json F)) (some_item : items ≠ [])
    (distinct : DistinctMembers items) (fuel : Nat) (enough : (indentedMembers indent depth items).length + 1 < fuel)
    (rest : Text) : scanMembers fuel (indentedMembers indent depth items ++ (newline indent closing ++ '}' :: rest)) =
      some (items, rest) := by
  obtain ⟨fuel, rfl⟩ : ∃ more, fuel = more + 1 := ⟨fuel - 1, by omega⟩
  cases items with
  | nil => exact absurd rfl some_item
  | cons item more =>
      obtain ⟨key, value⟩ := item
      simp only [DistinctMembers] at distinct
      simp only [indentedMembers, List.length_append, List.length_cons] at enough
      obtain ⟨c, tail, start, begins⟩ := dumpsIndented_begins indent depth value
      have spaced : ∀ after, (' ' :: (dumpsIndented indent depth value ++ after)).dropWhile isSpace =
          dumpsIndented indent depth value ++ after := by
        intro after
        rw [List.dropWhile_cons_of_pos (by decide), start, List.cons_append, dropWhile_begins c _ begins]
      cases more with
      | nil =>
          have text : indentedMembers indent depth [(key, value)] ++ (newline indent closing ++ '}' :: rest) =
              '"' :: (key.toList.flatMap escapeChar ++ '"' :: ':' :: ' ' ::
                (dumpsIndented indent depth value ++ (newline indent closing ++ '}' :: rest))) := by
            simp [indentedMembers, quoted]
          rw [text, scanMembers, scanString_escaped, Option.bind_some]
          dsimp only
          rw [List.dropWhile_cons_of_neg (by decide)]
          show (scanValue fuel ((' ' :: (dumpsIndented indent depth value ++
            (newline indent closing ++ '}' :: rest))).dropWhile isSpace)).bind _ = _
          rw [spaced, scanValue_dumpsIndented indent depth value distinct.1 fuel (by omega) _
            (newline_stops indent closing _), Option.bind_some]
          dsimp only
          rw [dropWhile_newline indent closing (by decide)]
          simp
      | cons next later =>
          have text : indentedMembers indent depth ((key, value) :: next :: later) ++ (newline indent closing ++ '}' :: rest) =
              '"' :: (key.toList.flatMap escapeChar ++ '"' :: ':' :: ' ' :: (dumpsIndented indent depth value ++ ',' ::
                (newline indent depth ++ (indentedMembers indent depth (next :: later) ++
                  (newline indent closing ++ '}' :: rest))))) := by
            simp [indentedMembers, quoted]
          have opens : ∃ tail', indentedMembers indent depth (next :: later) ++ (newline indent closing ++ '}' :: rest) =
              '"' :: tail' := by
            obtain ⟨key', value'⟩ := next
            rw [indentedMembers, quoted]
            exact ⟨_, rfl⟩
          obtain ⟨tail', opens⟩ := opens
          have inner := scanMembers_indented indent depth closing (next :: later) (by simp) distinct.2 fuel (by omega) rest
          rw [opens] at inner
          rw [text, scanMembers, scanString_escaped, Option.bind_some]
          dsimp only
          rw [List.dropWhile_cons_of_neg (by decide)]
          show (scanValue fuel ((' ' :: (dumpsIndented indent depth value ++ ',' :: (newline indent depth ++
            (indentedMembers indent depth (next :: later) ++ (newline indent closing ++ '}' :: rest))))).dropWhile isSpace)).bind _ = _
          rw [spaced, scanValue_dumpsIndented indent depth value distinct.1 fuel (by omega) _
            (stops_of _ _ _ (by decide)), Option.bind_some]
          dsimp only
          rw [List.dropWhile_cons_of_neg (by decide), opens]
          show (scanMembers fuel ((newline indent depth ++ '"' :: tail').dropWhile isSpace)).map
            (fun r => ((String.ofList key.toList, value) :: r.1, r.2)) = _
          rw [dropWhile_newline indent depth (by decide), inner]
          simp

end

/-- The decoder reads back what the indented encoder wrote, with a new line after it. -/
theorem loads_dumpsIndented (indent : Nat) (v : Json F) (distinct : Distinct v) :
    loads (dumpsIndented indent 0 v ++ ['\n']) = some v := by
  obtain ⟨c, rest, text, begins⟩ := dumpsIndented_begins indent 0 v
  have scanned := scanValue_dumpsIndented indent 0 v distinct ((dumpsIndented indent 0 v ++ ['\n']).length + 1)
    (by simp) ['\n'] (stops_of _ _ _ (by decide))
  rw [text, List.cons_append] at scanned ⊢
  unfold loads
  rw [if_neg, dropWhile_begins c _ begins, scanned]
  · rfl
  · rw [List.head?_cons]
    intro same
    injection same with same
    exact begins.2.2.2 same

end AtrexAgent.Json
