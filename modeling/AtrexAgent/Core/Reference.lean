import Mathlib.Data.String.Basic
import Mathlib.Data.List.Sort
import AtrexAgent.Library.Lines

/-! References in the text of a config: `substitute` replaces them in one pass, and refuses a
text that has what looks like one left over. -/

namespace AtrexAgent.Interpolation

inductive Exc where
  | compositionError (source message : String)
  /-- The interpreter's limit of nesting. -/
  | recursionError
  | indexError
  deriving DecidableEq, Repr

/-! ### References in a text -/

inductive Namespace where
  | env | aka
  deriving DecidableEq, Repr

def Namespace.text : Namespace → Text
  | .env => "env".toList
  | .aka => "aka".toList

/-- `[A-Za-z_]` -/
def isStart (c : Char) : Bool := ('A' ≤ c ∧ c ≤ 'Z') ∨ ('a' ≤ c ∧ c ≤ 'z') ∨ c = '_'

/-- `[A-Za-z0-9_]` -/
def isWord (c : Char) : Bool := isStart c || decide ('0' ≤ c ∧ c ≤ '9')

def isKey : Text → Bool
  | [] => false
  | c :: rest => isStart c && rest.all isWord

/-- What `_REFERENCE` matches: the two groups. -/
structure Reference where
  space : Namespace
  key : Text
  valid : isKey key = true
  deriving DecidableEq

def Reference.text (r : Reference) : Text :=
  '$' :: '{' :: (r.space.text ++ ':' :: (r.key ++ ['}']))

def keyed (space : Namespace) (s : Text) : Option (Reference × Text) :=
  match s.dropWhile isWord with
  | '}' :: after =>
      if valid : isKey (s.takeWhile isWord) = true then some (⟨space, s.takeWhile isWord, valid⟩, after)
      else none
  | _ => none

/-- `_REFERENCE.match`: no key has a brace in it, so there is nothing to backtrack to. -/
def reference? : Text → Option (Reference × Text)
  | '$' :: '{' :: 'e' :: 'n' :: 'v' :: ':' :: rest => keyed .env rest
  | '$' :: '{' :: 'a' :: 'k' :: 'a' :: ':' :: rest => keyed .aka rest
  | _ => none

inductive Piece where
  | char (c : Char)
  | reference (r : Reference)

def Piece.text : Piece → Text
  | .char c => [c]
  | .reference r => r.text

def scanFrom : Nat → Text → List Piece
  | 0, _ => []
  | _ + 1, [] => []
  | fuel + 1, c :: s =>
      match reference? (c :: s) with
      | some (r, rest) => .reference r :: scanFrom fuel rest
      | none => .char c :: scanFrom fuel s

/-- What `_REFERENCE.sub` replaces, and what it leaves. -/
def scan (s : Text) : List Piece := scanFrom s.length s

/-- `_REFERENCE.sub("", text)` -/
def leftover (s : Text) : Text :=
  (scan s).flatMap fun piece => match piece with
    | .char c => [c]
    | .reference _ => []

def opens : Text → Bool
  | '$' :: '{' :: _ => true
  | _ => false

/-- `_ANY_REFERENCE in text` -/
def hasReference : Text → Bool
  | [] => false
  | c :: s => opens (c :: s) || hasReference s

/-- What a reference can name. -/
structure Scope where
  vars : List (String × String)
  environ : Text → Option Text
  source : String

def Scope.value (scope : Scope) (r : Reference) : Option Text :=
  match r.space with
  | .env => some ((scope.environ r.key).getD [])
  | .aka => (scope.vars.find? fun entry => entry.1 = String.ofList r.key).map fun entry =>
      entry.2.toList

def Scope.names (scope : Scope) : List String :=
  (scope.vars.map Prod.fst).insertionSort (· ≤ ·)

def replacement (scope : Scope) : Piece → Except Exc Text
  | .char c => .ok [c]
  | .reference r =>
      match scope.value r with
      | some text => .ok text
      | none => .error (.compositionError scope.source
          ("unknown composition variable \"" ++ String.ofList r.key ++ "\"; supported: " ++
            ", ".intercalate scope.names))

def replaceAll (scope : Scope) : List Piece → Except Exc Text
  | [] => .ok []
  | piece :: rest => do
      let text ← replacement scope piece
      let texts ← replaceAll scope rest
      pure (text ++ texts)

def substitute (scope : Scope) (s : Text) : Except Exc Text :=
  if hasReference (leftover s) then
    .error (.compositionError scope.source
      "unsupported reference syntax; use $\x7baka:name\x7d or $\x7benv:NAME\x7d")
  else replaceAll scope (scan s)

/-! ### What a text refers to -/

/-- A well-formed reference is at the beginning. -/
def Starts (s : Text) : Prop := ∃ r rest, s = Reference.text r ++ rest

/-- Somewhere in the text a brace is opened that no reference begins with. -/
def Opening (s : Text) : Prop :=
  ∃ before after, s = before ++ '$' :: '{' :: after ∧ ¬ Starts ('$' :: '{' :: after)

/-- References stand between a dollar and a brace, which meet once they are taken out. -/
def Joined (s : Text) : Prop :=
  ∃ (before : Text) (refs : List Reference) (after : Text), refs ≠ [] ∧
    s = before ++ '$' :: (refs.flatMap Reference.text ++ '{' :: after)

def Names (s : Text) (r : Reference) : Prop := ∃ before after, s = before ++ (r.text ++ after)

/-- Every reference is replaced by its value, once, and nothing else is. -/
inductive Replaced (scope : Scope) : Text → Text → Prop where
  | nil : Replaced scope [] []
  | reference (r : Reference) (text s t : Text) (value : scope.value r = some text)
      (rest : Replaced scope s t) : Replaced scope (r.text ++ s) (text ++ t)
  | char (c : Char) (s t : Text) (none : ¬ Starts (c :: s)) (rest : Replaced scope s t) :
      Replaced scope (c :: s) (c :: t)

theorem isWord_key {key : Text} (valid : isKey key = true) : ∀ c ∈ key, isWord c = true := by
  intro c member
  cases key with
  | nil => cases member
  | cons first rest =>
      rw [isKey, Bool.and_eq_true, List.all_eq_true] at valid
      rcases List.mem_cons.mp member with rfl | later
      · rw [isWord, valid.1]
        rfl
      · exact valid.2 c later

theorem keyed_some {space : Namespace} {s rest : Text} {r : Reference} (found : keyed space s = some (r, rest)) :
    r.space = space ∧ s = r.key ++ '}' :: rest := by
  unfold keyed at found
  split at found
  · rename_i after closed
    split at found
    · cases found
      refine ⟨rfl, ?_⟩
      rw [← closed, List.takeWhile_append_dropWhile]
    · cases found
  · cases found

theorem keyed_text (r : Reference) (rest : Text) : keyed r.space (r.key ++ '}' :: rest) = some (r, rest) := by
  have word := isWord_key r.valid
  have brace : isWord '}' = false := by decide
  have taken : (r.key ++ '}' :: rest).takeWhile isWord = r.key := by
    rw [List.takeWhile_append_of_pos word, List.takeWhile_cons_of_neg (by simp [brace]), List.append_nil]
  have left : (r.key ++ '}' :: rest).dropWhile isWord = '}' :: rest := by
    rw [List.dropWhile_append_of_pos word, List.dropWhile_cons_of_neg (by simp [brace])]
  unfold keyed
  rw [left]
  simp only [taken, r.valid, dite_true]

theorem reference?_text (r : Reference) (rest : Text) : reference? (r.text ++ rest) = some (r, rest) := by
  have keyed := keyed_text r rest
  unfold Reference.text
  cases space : r.space with
  | env =>
      rw [space] at keyed
      simpa [Namespace.text, reference?] using keyed
  | aka =>
      rw [space] at keyed
      simpa [Namespace.text, reference?] using keyed

theorem reference?_some {s rest : Text} {r : Reference} (found : reference? s = some (r, rest)) :
    s = r.text ++ rest := by
  unfold reference? at found
  split at found
  · obtain ⟨space, rfl⟩ := keyed_some found
    simp [Reference.text, space, Namespace.text]
  · obtain ⟨space, rfl⟩ := keyed_some found
    simp [Reference.text, space, Namespace.text]
  · cases found

theorem reference?_none (s : Text) : reference? s = none ↔ ¬ Starts s := by
  constructor
  · rintro missing ⟨r, rest, rfl⟩
    rw [reference?_text] at missing
    cases missing
  · intro apart
    cases found : reference? s with
    | none => rfl
    | some match_ => exact absurd ⟨match_.1, match_.2, reference?_some found⟩ apart

/-- A dollar is nowhere in a reference but at its beginning. -/
theorem reference_text (r : Reference) : ∃ body, r.text = '$' :: body ∧ '$' ∉ body := by
  refine ⟨_, rfl, fun member => ?_⟩
  rcases List.mem_cons.mp member with brace | member
  · cases brace
  rcases List.mem_append.mp member with space | member
  · exact absurd space (by cases r.space <;> decide)
  rcases List.mem_cons.mp member with colon | member
  · cases colon
  rcases List.mem_append.mp member with key | brace
  · have wrong := isWord_key r.valid '$' key
    exact absurd wrong (by decide)
  · cases brace with
    | tail _ later => cases later

/-! ### The scan of a text -/

theorem scanFrom_enough (n m : Nat) (s : Text) (enough : s.length ≤ n) (enough' : s.length ≤ m) :
    scanFrom n s = scanFrom m s := by
  induction n generalizing m s with
  | zero =>
      cases s with
      | nil => cases m <;> rfl
      | cons c s => cases enough
  | succ n ih =>
      cases s with
      | nil => cases m <;> rfl
      | cons c s =>
          obtain ⟨m, rfl⟩ : ∃ less, m = less + 1 := ⟨m - 1, by simp at enough'; omega⟩
          rw [List.length_cons] at enough enough'
          rw [scanFrom, scanFrom]
          cases found : reference? (c :: s) with
          | none =>
              dsimp only
              rw [ih m s (by omega) (by omega)]
          | some match_ =>
              obtain ⟨r, rest⟩ := match_
              obtain ⟨body, starts, -⟩ := reference_text r
              have text := congrArg List.length (reference?_some found)
              rw [starts, List.length_append, List.length_cons, List.length_cons] at text
              dsimp only
              rw [ih m rest (by omega) (by omega)]

theorem scan_reference (r : Reference) (s : Text) : scan (r.text ++ s) = .reference r :: scan s := by
  have found := reference?_text r s
  obtain ⟨body, starts, -⟩ := reference_text r
  unfold scan
  rw [starts, List.cons_append] at found ⊢
  rw [List.length_cons, scanFrom, found]
  dsimp only
  rw [scanFrom_enough _ s.length s (by simp) (Nat.le_refl _)]

theorem scan_char (c : Char) (s : Text) (apart : ¬ Starts (c :: s)) : scan (c :: s) = .char c :: scan s := by
  unfold scan
  rw [List.length_cons, scanFrom, (reference?_none (c :: s)).mpr apart]

/-- A text begins with a reference or with a character that none begins with. -/
theorem scan_cases {motive : Text → Prop} (nil : motive [])
    (reference : ∀ r s, motive s → motive (Reference.text r ++ s))
    (char : ∀ c s, ¬ Starts (c :: s) → motive s → motive (c :: s)) (s : Text) : motive s := by
  generalize size : s.length = n
  induction n using Nat.strong_induction_on generalizing s with
  | _ n ih =>
      cases s with
      | nil => exact nil
      | cons c s =>
          by_cases starts : Starts (c :: s)
          · obtain ⟨r, rest, same⟩ := starts
            obtain ⟨body, begins, -⟩ := reference_text r
            have shorter : rest.length < n := by
              rw [← size, same, begins, List.length_append, List.length_cons]
              omega
            rw [same]
            exact reference r rest (ih _ shorter rest rfl)
          · rw [List.length_cons] at size
            exact char c s starts (ih s.length (by omega) s rfl)

/-- No reference reaches over a dollar. -/
theorem scan_dollar (before s : Text) :
    ∃ pieces, scan (before ++ '$' :: s) = pieces ++ scan ('$' :: s) := by
  generalize size : before.length = n
  induction n using Nat.strong_induction_on generalizing before with
  | _ n ih =>
      cases before with
      | nil => exact ⟨[], rfl⟩
      | cons c before =>
          rw [List.length_cons] at size
          by_cases starts : Starts (c :: before ++ '$' :: s)
          · obtain ⟨r, rest, same⟩ := starts
            obtain ⟨body, begins, single⟩ := reference_text r
            rw [same, scan_reference]
            rw [begins, List.cons_append, List.cons_append, List.cons.injEq] at same
            rcases List.append_eq_append_iff.mp same.2 with ⟨more, longer, later⟩ | ⟨more, shorter, later⟩
            · cases more with
              | nil => exact ⟨[.reference r], by rw [← List.nil_append rest, ← later]; rfl⟩
              | cons d more =>
                  -- the reference would have the dollar in it
                  rw [List.cons_append, List.cons.injEq] at later
                  refine absurd ?_ single
                  rw [longer, later.1]
                  exact List.mem_append_right _ List.mem_cons_self
            · have fewer : more.length < n := by
                rw [← size, shorter, List.length_append]
                omega
              obtain ⟨pieces, scanned⟩ := ih more.length fewer more rfl
              exact ⟨.reference r :: pieces, by rw [later, scanned]; rfl⟩
          · rw [List.cons_append] at starts ⊢
            obtain ⟨pieces, scanned⟩ := ih before.length (by omega) before rfl
            exact ⟨.char c :: pieces, by rw [scan_char c _ starts, scanned]; rfl⟩

/-- Every place where a reference begins is scanned as one. -/
theorem names_scan (s : Text) (r : Reference) : Names s r ↔ .reference r ∈ scan s := by
  constructor
  · rintro ⟨before, after, rfl⟩
    obtain ⟨body, begins, -⟩ := reference_text r
    obtain ⟨pieces, scanned⟩ := scan_dollar before (body ++ after)
    rw [← List.cons_append, ← begins, scan_reference] at scanned
    rw [scanned]
    exact List.mem_append_right _ List.mem_cons_self
  · induction s using scan_cases with
    | nil =>
        intro member
        cases member
    | reference r' s ih =>
        rw [scan_reference]
        intro member
        rcases List.mem_cons.mp member with same | later
        · cases same
          exact ⟨[], s, rfl⟩
        · obtain ⟨before, after, rfl⟩ := ih later
          exact ⟨r'.text ++ before, after, (List.append_assoc _ _ _).symm⟩
    | char c s apart ih =>
        rw [scan_char c s apart]
        intro member
        rcases List.mem_cons.mp member with same | later
        · cases same
        · obtain ⟨before, after, rfl⟩ := ih later
          exact ⟨c :: before, after, rfl⟩

theorem starts_dollar {c : Char} {s : Text} (starts : Starts (c :: s)) : c = '$' ∧ ∃ rest, s = '{' :: rest := by
  obtain ⟨r, rest, same⟩ := starts
  unfold Reference.text at same
  rw [List.cons_append, List.cons_append, List.cons.injEq] at same
  exact ⟨same.1, _, same.2⟩

theorem leftover_reference (r : Reference) (s : Text) : leftover (r.text ++ s) = leftover s := by
  unfold leftover
  rw [scan_reference, List.flatMap_cons, List.nil_append]

theorem leftover_char (c : Char) (s : Text) (apart : ¬ Starts (c :: s)) :
    leftover (c :: s) = c :: leftover s := by
  unfold leftover
  rw [scan_char c s apart, List.flatMap_cons]
  rfl

theorem leftover_references (refs : List Reference) (s : Text) :
    leftover (refs.flatMap Reference.text ++ s) = leftover s := by
  induction refs with
  | nil => rfl
  | cons r rest ih => rw [List.flatMap_cons, List.append_assoc, leftover_reference, ih]

theorem hasReference_iff (s : Text) :
    hasReference s = true ↔ ∃ before after, s = before ++ '$' :: '{' :: after := by
  induction s with
  | nil =>
      constructor
      · intro wrong
        cases wrong
      · rintro ⟨before, after, same⟩
        cases before <;> cases same
  | cons c s ih =>
      rw [hasReference, Bool.or_eq_true, ih]
      constructor
      · rintro (here | ⟨before, after, rfl⟩)
        · unfold opens at here
          split at here
          · rename_i after same
            exact ⟨[], after, same⟩
          · cases here
        · exact ⟨c :: before, after, rfl⟩
      · rintro ⟨before, after, same⟩
        cases before with
        | nil =>
            rw [List.nil_append] at same
            rw [same]
            exact Or.inl rfl
        | cons d before =>
            rw [List.cons_append, List.cons.injEq] at same
            exact Or.inr ⟨before, after, same.2⟩

/-- What is left begins with a brace if references are all that stands before one. -/
theorem leftover_brace {s rest : Text} (left : leftover s = '{' :: rest) :
    ∃ (refs : List Reference) (after : Text), s = refs.flatMap Reference.text ++ '{' :: after := by
  induction s using scan_cases with
  | nil => cases left
  | reference r s ih =>
      rw [leftover_reference] at left
      obtain ⟨refs, after, rfl⟩ := ih left
      exact ⟨r :: refs, after, by rw [List.flatMap_cons, List.append_assoc]⟩
  | char c s apart ih =>
      rw [leftover_char c s apart, List.cons.injEq] at left
      exact ⟨[], s, by rw [left.1]; rfl⟩

/-- A check for `Opening`. -/
def openings : Text → Bool
  | [] => false
  | c :: s => (opens (c :: s) && (reference? (c :: s)).isNone) || openings s

theorem openings_iff (s : Text) : openings s = true ↔ Opening s := by
  induction s with
  | nil =>
      constructor
      · intro wrong
        cases wrong
      · rintro ⟨before, after, same, -⟩
        cases before <;> cases same
  | cons c s ih =>
      rw [openings, Bool.or_eq_true, Bool.and_eq_true, ih, Option.isNone_iff_eq_none, reference?_none]
      constructor
      · rintro (⟨here, apart⟩ | ⟨before, after, rfl, apart⟩)
        · unfold opens at here
          split at here
          · rename_i after same
            exact ⟨[], after, same, same ▸ apart⟩
          · cases here
        · exact ⟨c :: before, after, rfl, apart⟩
      · rintro ⟨before, after, same, apart⟩
        cases before with
        | nil =>
            rw [List.nil_append] at same
            rw [same]
            exact Or.inl ⟨rfl, apart⟩
        | cons d before =>
            rw [List.cons_append, List.cons.injEq] at same
            exact Or.inr ⟨before, after, same.2, apart⟩

instance : DecidablePred Opening := fun s => decidable_of_iff _ (openings_iff s)

/-- What the check for leftovers sees: a brace opened in vain, or two characters that only meet
where references were. -/
theorem leftover_opens (s : Text) : hasReference (leftover s) = true ↔ Opening s ∨ Joined s := by
  constructor
  · intro has
    induction s using scan_cases with
    | nil => cases has
    | reference r s ih =>
        rw [leftover_reference] at has
        rcases ih has with ⟨before, after, rfl, apart⟩ | ⟨before, refs, after, some_, rfl⟩
        · exact Or.inl ⟨r.text ++ before, after, (List.append_assoc _ _ _).symm, apart⟩
        · exact Or.inr ⟨r.text ++ before, refs, after, some_, (List.append_assoc _ _ _).symm⟩
    | char c s apart ih =>
        rw [leftover_char c s apart, hasReference, Bool.or_eq_true] at has
        rcases has with here | later
        · unfold opens at here
          split at here
          · rename_i rest same
            rw [List.cons.injEq] at same
            obtain ⟨refs, after, split⟩ := leftover_brace same.2
            rw [same.1, split] at apart ⊢
            cases refs with
            | nil => exact Or.inl ⟨[], after, rfl, apart⟩
            | cons r refs => exact Or.inr ⟨[], r :: refs, after, nofun, rfl⟩
          · cases here
        · rcases ih later with ⟨before, after, rfl, apart'⟩ | ⟨before, refs, after, some_, rfl⟩
          · exact Or.inl ⟨c :: before, after, rfl, apart'⟩
          · exact Or.inr ⟨c :: before, refs, after, some_, rfl⟩
  · have finish (before s rest : Text) (left : leftover ('$' :: s) = '$' :: '{' :: rest) :
        hasReference (leftover (before ++ '$' :: s)) = true := by
      obtain ⟨pieces, scanned⟩ := scan_dollar before s
      rw [hasReference_iff]
      unfold leftover at left ⊢
      rw [scanned, List.flatMap_append, left]
      exact ⟨_, rest, rfl⟩
    have brace (after : Text) : leftover ('{' :: after) = '{' :: leftover after :=
      leftover_char _ _ fun starts => absurd (starts_dollar starts).1 (by decide)
    rintro (⟨before, after, rfl, apart⟩ | ⟨before, refs, after, some_, rfl⟩)
    · exact finish before _ _ (by rw [leftover_char _ _ apart, brace])
    · refine finish before _ (leftover after) ?_
      rw [leftover_char _ _ ?_, leftover_references, brace]
      intro starts
      obtain ⟨rest, same⟩ := (starts_dollar starts).2
      cases refs with
      | nil => exact some_ rfl
      | cons r refs =>
          rw [List.flatMap_cons, Reference.text] at same
          cases same

theorem replacement_error (scope : Scope) (piece : Piece) :
    (∃ error, replacement scope piece = .error error) ↔
      ∃ r, piece = .reference r ∧ scope.value r = none := by
  cases piece with
  | char c =>
      constructor
      · rintro ⟨_, wrong⟩
        cases wrong
      · rintro ⟨r, wrong, -⟩
        cases wrong
  | reference r =>
      rw [replacement]
      cases value : scope.value r with
      | none => exact ⟨fun _ => ⟨r, rfl, value⟩, fun _ => ⟨_, rfl⟩⟩
      | some text =>
          constructor
          · rintro ⟨_, wrong⟩
            cases wrong
          · rintro ⟨r', same, missing⟩
            cases same
            cases missing.symm.trans value

theorem replaceAll_error (scope : Scope) (pieces : List Piece) :
    (∃ error, replaceAll scope pieces = .error error) ↔
      ∃ r, .reference r ∈ pieces ∧ scope.value r = none := by
  induction pieces with
  | nil =>
      constructor
      · rintro ⟨_, wrong⟩
        cases wrong
      · rintro ⟨r, member, -⟩
        cases member
  | cons piece rest ih =>
      have first : (∃ error, replaceAll scope (piece :: rest) = .error error) ↔
          (∃ error, replacement scope piece = .error error) ∨
            ∃ error, replaceAll scope rest = .error error := by
        rw [replaceAll]
        cases replacement scope piece with
        | error error => exact ⟨fun _ => Or.inl ⟨error, rfl⟩, fun _ => ⟨error, rfl⟩⟩
        | ok text =>
            cases replaceAll scope rest with
            | error error => exact ⟨fun _ => Or.inr ⟨error, rfl⟩, fun _ => ⟨error, rfl⟩⟩
            | ok texts => simp [bind, Except.bind, pure, Except.pure]
      rw [first, replacement_error, ih]
      constructor
      · rintro (⟨r, rfl, missing⟩ | ⟨r, member, missing⟩)
        · exact ⟨r, List.mem_cons_self, missing⟩
        · exact ⟨r, List.mem_cons_of_mem _ member, missing⟩
      · rintro ⟨r, member, missing⟩
        rcases List.mem_cons.mp member with same | member
        · exact Or.inl ⟨r, same.symm, missing⟩
        · exact Or.inr ⟨r, member, missing⟩

theorem replaceAll_replaced (scope : Scope) (s t : Text) (done : replaceAll scope (scan s) = .ok t) :
    Replaced scope s t := by
  induction s using scan_cases generalizing t with
  | nil =>
      cases done
      exact .nil
  | reference r s ih =>
      rw [scan_reference, replaceAll, replacement] at done
      cases value : scope.value r with
      | none =>
          rw [value] at done
          cases done
      | some text =>
          cases later : replaceAll scope (scan s) with
          | error error =>
              rw [value, later] at done
              cases done
          | ok texts =>
              rw [value, later] at done
              cases done
              exact .reference r text s texts value (ih texts later)
  | char c s apart ih =>
      rw [scan_char c s apart, replaceAll, replacement] at done
      cases later : replaceAll scope (scan s) with
      | error error =>
          rw [later] at done
          cases done
      | ok texts =>
          rw [later] at done
          cases done
          exact .char c s texts apart (ih texts later)

theorem substitute_ok {scope : Scope} {s t : Text} (done : substitute scope s = .ok t) :
    Replaced scope s t := by
  unfold substitute at done
  split at done
  · cases done
  · exact replaceAll_replaced scope s t done

/-- What `substitute` refuses. -/
theorem substitute_error (scope : Scope) (s : Text) :
    (∃ error, substitute scope s = .error error) ↔
      Opening s ∨ Joined s ∨ ∃ r, Names s r ∧ scope.value r = none := by
  have missing : (∃ error, replaceAll scope (scan s) = .error error) ↔
      ∃ r, Names s r ∧ scope.value r = none := by
    rw [replaceAll_error]
    simp only [names_scan]
  rw [← or_assoc, ← leftover_opens, ← missing]
  unfold substitute
  by_cases has : hasReference (leftover s) = true
  · rw [if_pos has]
    exact ⟨fun _ => Or.inl has, fun _ => ⟨_, rfl⟩⟩
  · rw [if_neg has]
    exact ⟨Or.inr, fun either => either.resolve_left has⟩

/-- What `substitute` makes of a text that it does not refuse. -/
def substituted (scope : Scope) (s : Text) : Text :=
  match substitute scope s with
  | .ok t => t
  | .error _ => s

def Refused (scope : Scope) (s : Text) : Prop := ∃ error, substitute scope s = .error error

theorem substituted_replaced {scope : Scope} {s : Text} (passes : ¬ Refused scope s) :
    Replaced scope s (substituted scope s) := by
  unfold substituted
  cases done : substitute scope s with
  | ok t => exact substitute_ok done
  | error error => exact absurd ⟨error, done⟩ passes

theorem names_marked {s : Text} {r : Reference} (names : Names s r) : hasReference s = true := by
  obtain ⟨before, after, rfl⟩ := names
  rw [hasReference_iff, Reference.text]
  exact ⟨before, _, rfl⟩

theorem refused_marked {scope : Scope} {s : Text} (refused : Refused scope s) : hasReference s = true := by
  rcases (substitute_error scope s).mp refused with ⟨before, after, same, -⟩ |
    ⟨before, refs, after, some_, rfl⟩ | ⟨r, names, -⟩
  · exact (hasReference_iff s).mpr ⟨before, after, same⟩
  · cases refs with
    | nil => exact absurd rfl some_
    | cons r refs =>
        have names : Names (before ++ '$' :: ((r :: refs).flatMap Reference.text ++ '{' :: after)) r :=
          ⟨before ++ ['$'], refs.flatMap Reference.text ++ '{' :: after, by simp⟩
        exact names_marked names
  · exact names_marked names

theorem replaced_plain {scope : Scope} {s t : Text} (replaced : Replaced scope s t)
    (plain : hasReference s = false) : t = s := by
  induction replaced with
  | nil => rfl
  | reference r text s t value rest ih =>
      have names : Names (r.text ++ s) r := ⟨[], s, rfl⟩
      rw [names_marked names] at plain
      cases plain
  | char c s t apart rest ih =>
      rw [hasReference, Bool.or_eq_false_iff] at plain
      rw [ih plain.2]

theorem substituted_plain {scope : Scope} {s : Text} (plain : hasReference s = false) :
    substituted scope s = s := by
  refine replaced_plain (substituted_replaced fun refused => ?_) plain
  rw [refused_marked refused] at plain
  cases plain

end AtrexAgent.Interpolation
