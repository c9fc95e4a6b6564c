import Mathlib.Data.List.Infix
import AtrexAgent.Library.JsonText

/-! Text by lines, and rewriting of text: a rewriting keeps parts of a text in their
order and puts marks between them. -/

namespace AtrexAgent

open Json (dropPrefix dropPrefix_eq_some dropPrefix_append)

/-! ### Lines -/

/-- What `str.splitlines` takes for the end of a line. -/
def isBoundary (c : Char) : Bool :=
  c = '\n' || c = '\r' || c = '\x0b' || c = '\x0c' || c = '\x1c' || c = '\x1d' || c = '\x1e' ||
    c = '\u0085' || c = '\u2028' || c = '\u2029'

def consLine (c : Char) : List Text → List Text
  | [] => [[c]]
  | line :: lines => (c :: line) :: lines

/-- `str.splitlines` -/
def splitlines : Text → List Text
  | [] => []
  | '\r' :: '\n' :: rest => [] :: splitlines rest
  | c :: rest => if isBoundary c then [] :: splitlines rest else consLine c (splitlines rest)

/-- The lines, each with its newline. -/
def unlines (lines : List Text) : Text := lines.flatMap fun line => line ++ ['\n']

theorem unlines_single (line : Text) : unlines [line] = line ++ ['\n'] := by simp [unlines]

/-- No character of the text ends a line. -/
def OneLine (text : Text) : Prop := ∀ c ∈ text, isBoundary c = false

theorem splitlines_cons (c : Char) (rest : Text) (plain : isBoundary c = false) :
    splitlines (c :: rest) = consLine c (splitlines rest) := by
  rw [splitlines.eq_def]
  split
  · rename_i same
    cases same
  · rename_i same
    injection same with here _
    subst here
    exact absurd plain (by decide)
  · rename_i same
    injection same with here here'
    subst here here'
    rw [if_neg (by simp [plain])]

theorem splitlines_newline (rest : Text) : splitlines ('\n' :: rest) = [] :: splitlines rest := rfl

theorem splitlines_return (rest : Text) :
    splitlines ('\r' :: '\n' :: rest) = [] :: splitlines rest := rfl

theorem splitlines_line (line rest : Text) (plain : OneLine line) :
    splitlines (line ++ '\n' :: rest) = line :: splitlines rest := by
  induction line with
  | nil =>
      rw [List.nil_append, splitlines_newline]
  | cons c line ih =>
      rw [List.cons_append, splitlines_cons c _ (plain c List.mem_cons_self),
        ih fun d member => plain d (List.mem_cons_of_mem _ member)]
      rfl

/-- Lines read back as they were joined. -/
theorem splitlines_unlines (lines : List Text) (plain : ∀ line ∈ lines, OneLine line) :
    splitlines (unlines lines) = lines := by
  induction lines with
  | nil => rfl
  | cons line lines ih =>
      have text : unlines (line :: lines) = line ++ '\n' :: unlines lines := by simp [unlines]
      rw [text, splitlines_line line _ (plain line List.mem_cons_self),
        ih fun other member => plain other (List.mem_cons_of_mem _ member)]

theorem oneLine_consLine (c : Char) (lines : List Text) (plain : isBoundary c = false)
    (each : ∀ line ∈ lines, OneLine line) : ∀ line ∈ consLine c lines, OneLine line := by
  cases lines with
  | nil =>
      intro line member
      rw [consLine, List.mem_singleton] at member
      subst member
      intro d inside
      rw [List.mem_singleton] at inside
      rw [inside, plain]
  | cons first rest =>
      intro line member
      rcases List.mem_cons.mp member with rfl | later
      · intro d inside
        rcases List.mem_cons.mp inside with rfl | inside
        · exact plain
        · exact each first List.mem_cons_self d inside
      · exact each line (List.mem_cons_of_mem _ later)

theorem oneLine_nil : OneLine [] := fun _ member => absurd member (by simp)

theorem splitlines_oneLine (text : Text) : ∀ line ∈ splitlines text, OneLine line := by
  induction text using splitlines.induct with
  | case1 =>
      intro line member
      cases member
  | case2 rest ih =>
      rw [splitlines_return]
      intro line member
      rcases List.mem_cons.mp member with rfl | later
      · exact oneLine_nil
      · exact ih line later
  | case3 c rest other boundary ih =>
      rw [splitlines.eq_def]
      split
      · rename_i same
        cases same
      · rename_i same
        injection same with here here'
        exact absurd here' (other _ here)
      · rename_i same
        injection same with here here'
        subst here here'
        rw [if_pos boundary]
        intro line member
        rcases List.mem_cons.mp member with rfl | later
        · exact oneLine_nil
        · exact ih line later
  | case4 c rest other boundary ih =>
      have plain : isBoundary c = false := by simpa using boundary
      rw [splitlines_cons c rest plain]
      exact oneLine_consLine c _ plain ih

/-! ### Occurrences -/

/-- A word without a character occurs on one side of it. -/
theorem infix_around (word before after : Text) (c : Char) (missing : c ∉ word) :
    word <:+: before ++ c :: after ↔ word <:+: before ∨ word <:+: after := by
  constructor
  · intro occurs
    induction before with
    | nil =>
        rw [List.nil_append, List.infix_cons_iff] at occurs
        rcases occurs with start | later
        · cases word with
          | nil => exact Or.inl List.nil_infix
          | cons d word =>
              obtain ⟨_, same⟩ := start
              injection same with here _
              exact absurd (here ▸ List.mem_cons_self) missing
        · exact Or.inr later
    | cons d before ih =>
        rw [List.cons_append, List.infix_cons_iff] at occurs
        rcases occurs with start | later
        · left
          have fits : word <+: d :: before := by
            obtain ⟨tail, same⟩ := start
            rw [← List.cons_append, List.append_eq_append_iff] at same
            rcases same with ⟨more, rest, _⟩ | ⟨more, here, rest⟩
            · exact ⟨more, rest.symm⟩
            · cases more with
              | nil => exact ⟨[], by simpa using here⟩
              | cons e more =>
                  injection rest with first _
                  subst first
                  exact absurd (by rw [here]; simp) missing
          exact fits.isInfix
        · rcases ih later with left | right
          · exact Or.inl (left.trans (List.suffix_cons d before).isInfix)
          · exact Or.inr right
  · rintro (left | right)
    · exact left.trans (List.prefix_append before _).isInfix
    · exact right.trans ((List.suffix_cons c after).isInfix.trans
        (List.suffix_append before _).isInfix)

/-- A word without a newline occurs in one of the lines. -/
theorem infix_unlines (word : Text) (some_letter : word ≠ []) (missing : '\n' ∉ word)
    (lines : List Text) (occurs : word <:+: unlines lines) : ∃ line ∈ lines, word <:+: line := by
  induction lines with
  | nil => exact absurd (List.infix_nil.mp occurs) some_letter
  | cons line rest ih =>
      have text : unlines (line :: rest) = line ++ '\n' :: unlines rest := by simp [unlines]
      rw [text, infix_around word line _ '\n' missing] at occurs
      rcases occurs with here | later
      · exact ⟨line, List.mem_cons_self, here⟩
      · obtain ⟨other, member, inside⟩ := ih later
        exact ⟨other, List.mem_cons_of_mem _ member, inside⟩

/-! ### Rewriting -/

/-- Parts of a text, in order, with a mark in place of what lies between them. -/
inductive Rewrites (mark : Text) : Text → Text → Prop where
  | same (text : Text) : Rewrites mark text text
  | cut (kept dropped : Text) {text after : Text} :
      Rewrites mark text after → Rewrites mark (kept ++ (dropped ++ text)) (kept ++ (mark ++ after))

theorem Rewrites.cons {mark text after : Text} (c : Char) (rewrites : Rewrites mark text after) :
    Rewrites mark (c :: text) (c :: after) := by
  cases rewrites with
  | same => exact .same _
  | cut kept dropped later => exact .cut (c :: kept) dropped later

theorem Rewrites.append {mark text after : Text} (front : Text)
    (rewrites : Rewrites mark text after) : Rewrites mark (front ++ text) (front ++ after) := by
  induction front with
  | nil => exact rewrites
  | cons c front ih => exact ih.cons c

/-- No occurrence of the word touches the mark. -/
def Apart (mark word : Text) : Prop :=
  ∀ kept after, word <:+: kept ++ (mark ++ after) → word <:+: kept ∨ word <:+: after

theorem Apart.absent {mark word : Text} (apart : Apart mark word) (some_letter : word ≠ []) :
    ¬ word <:+: mark := by
  intro occurs
  rcases apart [] [] (by simpa using occurs) with left | right
  · exact some_letter (List.infix_nil.mp left)
  · exact some_letter (List.infix_nil.mp right)

/-- At the beginning of a text, the word ends before the mark. -/
theorem Apart.start {mark word kept after : Text} (apart : Apart mark word)
    (some_mark : mark ≠ []) (start : word <+: kept ++ (mark ++ after)) : word <+: kept := by
  rcases List.prefix_or_prefix_of_prefix start (List.prefix_append kept _) with inside | ⟨more, rfl⟩
  · exact inside
  · rw [List.prefix_append_right_inj] at start
    have positive := List.length_pos_of_ne_nil some_mark
    rcases List.prefix_or_prefix_of_prefix start (List.prefix_append mark after) with
      ⟨left, within⟩ | ⟨left, beyond⟩
    · rcases apart kept [] ⟨[], left, by simp [← within]⟩ with occurs | occurs
      · have shorter := occurs.length_le
        rw [List.length_append] at shorter
        have none_left := List.length_eq_zero_iff.mp (by omega : more.length = 0)
        rw [none_left, List.append_nil]
      · have empty := List.infix_nil.mp occurs
        rw [empty]
        exact List.nil_prefix
    · rcases apart kept left ⟨[], [], by simp [← beyond]⟩ with occurs | occurs
      · have shorter := occurs.length_le
        rw [← beyond, List.length_append, List.length_append] at shorter
        omega
      · have shorter := occurs.length_le
        rw [← beyond, List.length_append, List.length_append] at shorter
        omega

/-- A mark between angle brackets. -/
def angled (label : Text) : Text := '<' :: (label ++ ['>'])

theorem angled_ne_nil (label : Text) : angled label ≠ [] := List.cons_ne_nil _ _

/-- A word without angle brackets touches no mark that it is not in. -/
theorem apart_angled (label word : Text) (opening : '<' ∉ word) (closing : '>' ∉ word)
    (absent : ¬ word <:+: label) : Apart (angled label) word := by
  intro kept after occurs
  have text : kept ++ (angled label ++ after) = kept ++ '<' :: (label ++ '>' :: after) := by
    simp [angled]
  rw [text, infix_around word kept _ '<' opening] at occurs
  rcases occurs with left | right
  · exact Or.inl left
  · rw [infix_around word label after '>' closing] at right
    rcases right with inside | later
    · exact absurd inside absent
    · exact Or.inr later

/-- Rewriting makes no word appear. -/
theorem Rewrites.occurs {word mark text after : Text} (apart : Apart mark word)
    (rewrites : Rewrites mark text after) (occurs : word <:+: after) : word <:+: text := by
  induction rewrites with
  | same => exact occurs
  | cut kept dropped _ ih =>
      rcases apart kept _ occurs with left | right
      · exact left.trans (List.prefix_append kept _).isInfix
      · exact (ih right).trans ((List.suffix_append dropped _).isInfix.trans
          (List.suffix_append kept _).isInfix)

/-- Nor at the beginning of the text. -/
theorem Rewrites.start {word mark text after : Text} (apart : Apart mark word)
    (some_mark : mark ≠ []) (rewrites : Rewrites mark text after) (start : word <+: after) :
    word <+: text := by
  cases rewrites with
  | same => exact start
  | cut kept dropped later =>
      exact (apart.start some_mark start).trans (List.prefix_append kept _)

/-- A property of texts that no rewriting with one of the marks takes away. -/
def Kept (marks : List Text) (P : Text → Prop) : Prop :=
  ∀ mark ∈ marks, ∀ text after, Rewrites mark text after → P text → P after

theorem kept_absent {marks : List Text} {word : Text} (apart : ∀ mark ∈ marks, Apart mark word) :
    Kept marks fun text => ¬ word <:+: text :=
  fun mark listed _ _ rewrites absent occurs => absent (rewrites.occurs (apart mark listed) occurs)

theorem kept_start {marks : List Text} {word : Text} (apart : ∀ mark ∈ marks, Apart mark word)
    (some_mark : ∀ mark ∈ marks, mark ≠ []) : Kept marks fun text => ¬ word <+: text :=
  fun mark listed _ _ rewrites absent start =>
    absent (rewrites.start (apart mark listed) (some_mark mark listed) start)

/-- Rewriting brings no characters but those of the marks. -/
theorem kept_each (marks : List Text) (p : Char → Prop)
    (marked : ∀ mark ∈ marks, ∀ c ∈ mark, p c) : Kept marks fun text => ∀ c ∈ text, p c := by
  intro mark listed text after rewrites plain
  induction rewrites with
  | same => exact plain
  | cut kept dropped _ ih =>
      have later := ih fun c member => plain c (by simp [member])
      intro c member
      rw [List.mem_append, List.mem_append] at member
      rcases member with here | inside | there
      · exact plain c (by simp [here])
      · exact marked mark listed c inside
      · exact later c there

/-! ### Replacement -/

def replaceFrom (old new : Text) : Nat → Text → Text
  | 0, text => text
  | _ + 1, [] => []
  | fuel + 1, c :: rest =>
      match dropPrefix old (c :: rest) with
      | some after => new ++ replaceFrom old new fuel after
      | none => c :: replaceFrom old new fuel rest

/-- `text.replace(old, new)`, of an `old` that is not empty. -/
def replace (text old new : Text) : Text := replaceFrom old new text.length text

theorem replaceFrom_rewrites (old new : Text) (fuel : Nat) (text : Text) :
    Rewrites new text (replaceFrom old new fuel text) := by
  induction fuel generalizing text with
  | zero => exact .same _
  | succ fuel ih =>
      cases text with
      | nil => exact .same _
      | cons c rest =>
          rw [replaceFrom]
          split
          · rename_i after found
            rw [dropPrefix_eq_some] at found
            rw [found]
            exact .cut [] old (ih after)
          · exact (ih rest).cons c

theorem replace_rewrites (text old new : Text) : Rewrites new text (replace text old new) :=
  replaceFrom_rewrites old new _ text

/-- What is replaced does not occur afterwards. -/
theorem replaceFrom_gone {word mark : Text} (apart : Apart mark word) (some_mark : mark ≠ [])
    (some_letter : word ≠ []) (fuel : Nat) (text : Text) (enough : text.length ≤ fuel) :
    ¬ word <:+: replaceFrom word mark fuel text := by
  induction fuel generalizing text with
  | zero =>
      have empty : text = [] := List.length_eq_zero_iff.mp (Nat.le_zero.mp enough)
      subst empty
      intro occurs
      exact some_letter (List.infix_nil.mp occurs)
  | succ fuel ih =>
      cases text with
      | nil =>
          intro occurs
          exact some_letter (List.infix_nil.mp occurs)
      | cons c rest =>
          have whole := replaceFrom_rewrites word mark (fuel + 1) (c :: rest)
          rw [replaceFrom] at whole ⊢
          split
          · rename_i after found
            rw [dropPrefix_eq_some] at found
            have shorter : after.length ≤ fuel := by
              have lengths := congrArg List.length found
              have positive := List.length_pos_of_ne_nil some_letter
              simp only [List.length_cons, List.length_append] at lengths enough
              omega
            intro occurs
            rcases apart [] _ occurs with left | right
            · exact some_letter (List.infix_nil.mp left)
            · exact ih after shorter right
          · rename_i absent
            rw [absent] at whole
            intro occurs
            rw [List.infix_cons_iff] at occurs
            rcases occurs with start | later
            · obtain ⟨tail, same⟩ := whole.start apart some_mark start
              rw [← same, dropPrefix_append] at absent
              cases absent
            · exact ih rest (by simpa using enough) later

theorem replace_gone {word mark : Text} (apart : Apart mark word) (some_mark : mark ≠ [])
    (some_letter : word ≠ []) (text : Text) : ¬ word <:+: replace text word mark :=
  replaceFrom_gone apart some_mark some_letter _ text le_rfl

end AtrexAgent
