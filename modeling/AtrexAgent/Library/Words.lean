import Mathlib.Data.List.TakeWhile

/-! The words of a text: what stands between white space. -/

namespace AtrexAgent.Words

/-- `str.isspace`, for one character -/
def isSpace (c : Char) : Bool :=
  let n := c.toNat
  (9 ≤ n && n ≤ 13) || (28 ≤ n && n ≤ 32) || n = 133 || n = 160 || n = 5760 || (8192 ≤ n && n ≤ 8202) ||
    n = 8232 || n = 8233 || n = 8239 || n = 8287 || n = 12288

/-- `[word for word in re.split(r"\s+", text) if word]` -/
def words (text : List Char) : List (List Char) := (text.splitOnP isSpace).filter (· ≠ [])

/-- The text has no white space in it. -/
def Solid (text : List Char) : Prop := ∀ c ∈ text, isSpace c = false

instance (text : List Char) : Decidable (Solid text) := List.decidableBAll _ _

@[simp] theorem words_nil : words [] = [] := rfl

/-- White space separates words. -/
theorem words_append {space : Char} (blank : isSpace space = true) (text more : List Char) :
    words (text ++ space :: more) = words text ++ words more := by
  rw [words, List.splitOnP_append_cons text more blank, List.filter_append]
  rfl

theorem words_cons {space : Char} (blank : isSpace space = true) (more : List Char) : words (space :: more) = words more :=
  words_append blank [] more

theorem words_solid {text : List Char} (some_char : text ≠ []) (solid : Solid text) : words text = [text] := by
  rw [words, List.splitOnP_eq_singleton solid, List.filter_cons_of_pos (by simpa using some_char), List.filter_nil]

/-- `" ".join(texts)` -/
def joined (texts : List (List Char)) : List Char := [' '].intercalate texts

theorem words_joined (texts : List (List Char)) : words (joined texts) = texts.flatMap words := by
  induction texts with
  | nil => rfl
  | cons text texts ih =>
      cases texts with
      | nil => simp [joined]
      | cons next texts =>
          have step : joined (text :: next :: texts) = text ++ ' ' :: joined (next :: texts) := by simp [joined, List.intercalate]
          rw [step, words_append (by decide), ih]
          rfl

/-- The first word of a text and what follows it. -/
theorem words_split (text : List Char) : words text =
    words (text.takeWhile fun c => !isSpace c) ++ words (text.dropWhile fun c => !isSpace c) := by
  have whole : text = text.takeWhile (fun c => !isSpace c) ++ text.dropWhile fun c => !isSpace c := List.takeWhile_append_dropWhile.symm
  cases rest : text.dropWhile fun c => !isSpace c with
  | nil =>
      rw [rest, List.append_nil] at whole
      rw [← whole, words_nil, List.append_nil]
  | cons c more =>
      have blank : isSpace c = true := by
        have stopped := List.head?_dropWhile_not (fun c => !isSpace c) text
        rw [rest] at stopped
        simpa using stopped
      rw [words_cons blank, ← words_append blank, ← rest, ← whole]

theorem takeWhile_solid (text : List Char) : Solid (text.takeWhile fun c => !isSpace c) := by
  intro c member
  simpa using List.mem_takeWhile_imp member

/-- Characters before a text become part of its first word. -/
theorem words_prefix {start : List Char} (some_char : start ≠ []) (solid : Solid start) (text : List Char) :
    words (start ++ text) = (start ++ text.takeWhile fun c => !isSpace c) :: words (text.dropWhile fun c => !isSpace c) := by
  have plain : ∀ c ∈ start, (!isSpace c) = true := fun c member => by rw [solid c member]; rfl
  have whole : Solid (start ++ text.takeWhile fun c => !isSpace c) := by
    intro c member
    rcases List.mem_append.mp member with first | later
    · exact solid c first
    · exact takeWhile_solid text c later
  rw [words_split, List.takeWhile_append_of_pos plain, List.dropWhile_append_of_pos plain, words_solid (by simp [some_char]) whole]
  rfl

theorem words_start (text : List Char) : words (text.takeWhile fun c => !isSpace c) =
    if (text.takeWhile fun c => !isSpace c) = [] then [] else [text.takeWhile fun c => !isSpace c] := by
  split
  · rename_i none_char
    rw [none_char]
    rfl
  · rename_i some_char
    exact words_solid some_char (takeWhile_solid text)

/-- A text with a character that is no white space has a word. -/
theorem words_pos {text : List Char} {c : Char} (member : c ∈ text) (solid : isSpace c = false) : 0 < (words text).length := by
  obtain ⟨before, after, rfl⟩ := List.append_of_mem member
  induction before with
  | nil =>
      have single : Solid [c] := fun c' member => by rw [List.mem_singleton.mp member, solid]
      have first := words_prefix (List.cons_ne_nil c []) single after
      rw [List.nil_append, ← List.singleton_append, first]
      exact Nat.zero_lt_succ _
  | cons first before ih =>
      by_cases blank : isSpace first = true
      · rw [List.cons_append, words_cons blank]
        exact ih (by simp)
      · have single : Solid [first] := fun c' member => by rw [List.mem_singleton.mp member]; simpa using blank
        rw [List.cons_append, ← List.singleton_append, words_prefix (List.cons_ne_nil first []) single]
        exact Nat.zero_lt_succ _

end AtrexAgent.Words
