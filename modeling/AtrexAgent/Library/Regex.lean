import AtrexAgent.Library.Lines

/-! Backtracking regular expressions, and substitution of a mark for what they match.
The matches of an expression are listed in the order in which a matcher tries them. -/

namespace AtrexAgent

inductive Regex where
  | empty
  | char (p : Char → Bool)
  | look (p : Option Char → Option Char → Bool)
  | seq (first second : Regex)
  | alt (first second : Regex)
  | star (inner : Regex)

namespace Regex

/-- The character before what follows `taken`. -/
def lastOr (previous : Option Char) (taken : Text) : Option Char := taken.getLast?.or previous

/-- As many repetitions as can be, none of them empty. -/
def starMatches (step : Option Char → Text → List (Text × Text)) :
    Nat → Option Char → Text → List (Text × Text)
  | 0, _, s => [([], s)]
  | fuel + 1, previous, s =>
      (step previous s).flatMap (fun m =>
        if m.1.isEmpty then []
        else (starMatches step fuel (lastOr previous m.1) m.2).map fun r => (m.1 ++ r.1, r.2)) ++
      [([], s)]

/-- What the expression takes from the beginning of a text, and what it leaves. -/
def results : Regex → Option Char → Text → List (Text × Text)
  | .empty, _, s => [([], s)]
  | .char p, _, s =>
      match s with
      | [] => []
      | c :: rest => if p c then [([c], rest)] else []
  | .look p, previous, s => if p previous s.head? then [([], s)] else []
  | .seq first second, previous, s =>
      (results first previous s).flatMap fun m =>
        (results second (lastOr previous m.1) m.2).map fun r => (m.1 ++ r.1, r.2)
  | .alt first second, previous, s => results first previous s ++ results second previous s
  | .star inner, previous, s => starMatches (results inner) s.length previous s

theorem starMatches_append (step : Option Char → Text → List (Text × Text))
    (splits : ∀ previous s, ∀ m ∈ step previous s, m.1 ++ m.2 = s) (fuel : Nat)
    (previous : Option Char) (s : Text) :
    ∀ m ∈ starMatches step fuel previous s, m.1 ++ m.2 = s := by
  induction fuel generalizing previous s with
  | zero =>
      intro m member
      rw [starMatches, List.mem_singleton] at member
      rw [member, List.nil_append]
  | succ fuel ih =>
      intro m member
      rw [starMatches, List.mem_append, List.mem_flatMap, List.mem_singleton] at member
      rcases member with ⟨first, taken, more⟩ | rfl
      · split at more
        · cases more
        · obtain ⟨later, given, rfl⟩ := List.mem_map.mp more
          rw [List.append_assoc, ih _ _ later given, splits previous s first taken]
      · rfl

/-- A match takes a beginning of the text. -/
theorem results_append (r : Regex) (previous : Option Char) (s : Text) :
    ∀ m ∈ r.results previous s, m.1 ++ m.2 = s := by
  induction r generalizing previous s with
  | empty =>
      intro m member
      rw [results, List.mem_singleton] at member
      rw [member, List.nil_append]
  | char p =>
      intro m member
      cases s with
      | nil => cases member
      | cons c rest =>
          rw [results] at member
          split at member
          · rw [List.mem_singleton] at member
            rw [member]
            rfl
          · cases member
  | look p =>
      intro m member
      rw [results] at member
      split at member
      · rw [List.mem_singleton] at member
        rw [member, List.nil_append]
      · cases member
  | seq first second ih ih' =>
      intro m member
      rw [results, List.mem_flatMap] at member
      obtain ⟨m', taken, more⟩ := member
      obtain ⟨later, given, rfl⟩ := List.mem_map.mp more
      rw [List.append_assoc, ih' _ _ later given, ih _ _ m' taken]
  | alt first second ih ih' =>
      intro m member
      rw [results, List.mem_append] at member
      rcases member with left | right
      · exact ih previous s m left
      · exact ih' previous s m right
  | star inner ih =>
      intro m member
      rw [results] at member
      exact starMatches_append _ ih s.length previous s m member

/-- Whatever the expression takes has the character. -/
def Emits (c : Char) (r : Regex) : Prop := ∀ previous s, ∀ m ∈ r.results previous s, c ∈ m.1

theorem emits_left {c : Char} {first : Regex} (emits : Emits c first) (second : Regex) :
    Emits c (.seq first second) := by
  intro previous s m member
  rw [results, List.mem_flatMap] at member
  obtain ⟨m', taken, more⟩ := member
  obtain ⟨later, _, rfl⟩ := List.mem_map.mp more
  exact List.mem_append_left _ (emits previous s m' taken)

theorem emits_right {c : Char} (first : Regex) {second : Regex} (emits : Emits c second) :
    Emits c (.seq first second) := by
  intro previous s m member
  rw [results, List.mem_flatMap] at member
  obtain ⟨m', _, more⟩ := member
  obtain ⟨later, given, rfl⟩ := List.mem_map.mp more
  exact List.mem_append_right _ (emits _ _ later given)

theorem emits_char (c : Char) (p : Char → Bool) (only : ∀ d, p d = true → d = c) :
    Emits c (.char p) := by
  intro previous s m member
  cases s with
  | nil => cases member
  | cons d rest =>
      rw [results] at member
      split at member
      · rename_i here
        rw [List.mem_singleton] at member
        rw [member, only d here]
        exact List.mem_cons_self
      · cases member

/-! ### Building expressions -/

def literal (text : String) (same : Char → Char → Bool) : Regex :=
  text.toList.foldr (fun c rest => .seq (.char (same c)) rest) .empty

theorem emits_literal (c : Char) (text : String) (same : Char → Char → Bool)
    (only : ∀ d, same c d = true → d = c) (inside : c ∈ text.toList) :
    Emits c (literal text same) := by
  unfold literal
  generalize text.toList = letters at inside
  induction letters with
  | nil => cases inside
  | cons first rest ih =>
      rw [List.foldr_cons]
      rcases List.mem_cons.mp inside with rfl | later
      · exact emits_left (emits_char c (same c) only) _
      · exact emits_right _ (ih later)

def sequence (parts : List Regex) : Regex := parts.foldr .seq .empty

theorem emits_sequence (c : Char) (parts : List Regex) (part : Regex) (listed : part ∈ parts)
    (emits : Emits c part) : Emits c (sequence parts) := by
  induction parts with
  | nil => cases listed
  | cons first rest ih =>
      rcases List.mem_cons.mp listed with rfl | later
      · exact emits_left emits _
      · exact emits_right first (ih later)

def oneOf : List Regex → Regex
  | [] => .char fun _ => false
  | [last] => last
  | first :: rest => .alt first (oneOf rest)

def optional (r : Regex) : Regex := .alt r .empty

def plus (r : Regex) : Regex := .seq r (.star r)

def fullmatch (r : Regex) (s : Text) : Bool := (r.results none s).any fun m => m.2.isEmpty

/-- The expression matches somewhere in what follows `previous`. -/
def search (r : Regex) : Option Char → Text → Bool
  | previous, [] => !(r.results previous []).isEmpty
  | previous, c :: rest => !(r.results previous (c :: rest)).isEmpty || search r (some c) rest

/-! ### Substitution -/

/-- What is kept before a mark, what the mark stands for, and what is kept after it. -/
structure Rule where
  before : Regex
  body : Regex
  after : Regex

/-- A match of a rule: the three parts, and the rest of the text. -/
structure Found where
  before : Text
  body : Text
  after : Text
  rest : Text

def Rule.found (rule : Rule) (previous : Option Char) (s : Text) : List Found :=
  (rule.before.results previous s).flatMap fun b =>
    (rule.body.results (lastOr previous b.1) b.2).flatMap fun m =>
      (rule.after.results (lastOr (lastOr previous b.1) m.1) m.2).map fun a =>
        ⟨b.1, m.1, a.1, a.2⟩

def Found.text (found : Found) : Text := found.before ++ (found.body ++ found.after)

theorem Rule.found_text (rule : Rule) (previous : Option Char) (s : Text) :
    ∀ found ∈ rule.found previous s, found.text ++ found.rest = s := by
  intro found member
  rw [Rule.found, List.mem_flatMap] at member
  obtain ⟨b, first, member⟩ := member
  obtain ⟨m, second, member⟩ := List.mem_flatMap.mp member
  obtain ⟨a, third, rfl⟩ := List.mem_map.mp member
  unfold Found.text
  simp only [List.append_assoc]
  rw [results_append _ _ _ a third, results_append _ _ _ m second, results_append _ _ _ b first]

/-- The first rule with a match that takes something. -/
def firstFound (rules : List Rule) (previous : Option Char) (s : Text) : Option Found :=
  (rules.flatMap fun rule => rule.found previous s).find? fun found => !found.text.isEmpty

def subFrom (rules : List Rule) (mark : Text) : Nat → Option Char → Text → Text
  | 0, _, s => s
  | _ + 1, _, [] => []
  | fuel + 1, previous, c :: rest =>
      match firstFound rules previous (c :: rest) with
      | some found => found.before ++ (mark ++ (found.after ++
          subFrom rules mark fuel (lastOr previous found.text) found.rest))
      | none => c :: subFrom rules mark fuel (some c) rest

/-- `re.sub`, of a mark for the bodies of the rules. -/
def sub (rules : List Rule) (mark s : Text) : Text := subFrom rules mark s.length none s

theorem subFrom_rewrites (rules : List Rule) (mark : Text) (fuel : Nat)
    (previous : Option Char) (s : Text) : Rewrites mark s (subFrom rules mark fuel previous s) := by
  induction fuel generalizing previous s with
  | zero => exact .same _
  | succ fuel ih =>
      cases s with
      | nil => exact .same _
      | cons c rest =>
          rw [subFrom]
          split
          · rename_i found here
            obtain ⟨rule, _, given⟩ := List.mem_flatMap.mp (List.mem_of_find?_eq_some here)
            have text := rule.found_text previous _ found given
            rw [← text, Found.text, List.append_assoc, List.append_assoc]
            exact .cut found.before found.body ((ih _ found.rest).append found.after)
          · exact (ih _ rest).cons c

theorem sub_rewrites (rules : List Rule) (mark s : Text) : Rewrites mark s (sub rules mark s) :=
  subFrom_rewrites rules mark _ none s

end Regex

end AtrexAgent
