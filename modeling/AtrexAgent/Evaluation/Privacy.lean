import AtrexAgent.Evaluation.ResultLine

/-! Private paths and credentials in a projected response: in no text line, in no string of
a projected object, and not in `stderr`. -/

namespace AtrexAgent.Evaluation

open AtrexAgent.Json AtrexAgent.Regex

/-! ### Strings of a value -/

section Strings

variable {F : Type}

mutual

/-- A property of every string of a value, at any depth; keys are not strings of it. -/
def EachString (P : Text → Prop) : Json F → Prop
  | .str s => P s.toList
  | .arr items => EachItem P items
  | .obj items => EachMember P items
  | _ => True

def EachItem (P : Text → Prop) : List (Json F) → Prop
  | [] => True
  | item :: rest => EachString P item ∧ EachItem P rest

def EachMember (P : Text → Prop) : List (String × Json F) → Prop
  | [] => True
  | (_, value) :: rest => EachString P value ∧ EachMember P rest

end

variable {P Q : Text → Prop} (constant : String → Option Text) (onText : Text → Text)
  (constants : ∀ key text, constant key = some text → Q text)
  (texts : ∀ text, P text → Q (onText text))

include constants texts

mutual

theorem mapStrings_each (value : Json F) (each : EachString P value) :
    EachString Q (mapStrings constant onText value) := by
  cases value with
  | null => trivial
  | bool b => trivial
  | int n => trivial
  | float x => trivial
  | str s =>
      rw [mapStrings, EachString, String.toList_ofList]
      exact texts s.toList each
  | arr items =>
      rw [mapStrings, EachString]
      exact mapItems_each items each
  | obj items =>
      rw [mapStrings, EachString]
      exact mapMembers_each items each

theorem mapItems_each (items : List (Json F)) (each : EachItem P items) :
    EachItem Q (mapItems constant onText items) := by
  cases items with
  | nil => trivial
  | cons item rest =>
      rw [mapItems, EachItem]
      exact ⟨mapStrings_each item each.1, mapItems_each rest each.2⟩

theorem mapMembers_each (items : List (String × Json F)) (each : EachMember P items) :
    EachMember Q (mapMembers constant onText items) := by
  cases items with
  | nil => trivial
  | cons item rest =>
      obtain ⟨key, value⟩ := item
      rw [mapMembers, EachMember]
      refine ⟨?_, mapMembers_each rest each.2⟩
      split
      · rename_i text here
        rw [EachString, String.toList_ofList]
        exact constants key text here
      · exact mapStrings_each value each.1

end

omit constants texts

mutual

theorem eachString_true (value : Json F) : EachString (fun _ => True) value := by
  cases value with
  | null => trivial
  | bool b => trivial
  | int n => trivial
  | float x => trivial
  | str s => trivial
  | arr items => exact eachItem_true items
  | obj items => exact eachMember_true items

theorem eachItem_true (items : List (Json F)) : EachItem (fun _ => True) items := by
  cases items with
  | nil => trivial
  | cons item rest => exact ⟨eachString_true item, eachItem_true rest⟩

theorem eachMember_true (items : List (String × Json F)) :
    EachMember (fun _ => True) items := by
  cases items with
  | nil => trivial
  | cons item rest => exact ⟨eachString_true item.2, eachMember_true rest⟩

end

mutual

theorem eachString_and (value : Json F) (first : EachString P value) (second : EachString Q value) :
    EachString (fun text => P text ∧ Q text) value := by
  cases value with
  | null => trivial
  | bool b => trivial
  | int n => trivial
  | float x => trivial
  | str s => exact ⟨first, second⟩
  | arr items => exact eachItem_and items first second
  | obj items => exact eachMember_and items first second

theorem eachItem_and (items : List (Json F)) (first : EachItem P items)
    (second : EachItem Q items) : EachItem (fun text => P text ∧ Q text) items := by
  cases items with
  | nil => trivial
  | cons item rest =>
      exact ⟨eachString_and item first.1 second.1, eachItem_and rest first.2 second.2⟩

theorem eachMember_and (items : List (String × Json F)) (first : EachMember P items)
    (second : EachMember Q items) : EachMember (fun text => P text ∧ Q text) items := by
  cases items with
  | nil => trivial
  | cons item rest =>
      exact ⟨eachString_and item.2 first.1 second.1, eachMember_and rest first.2 second.2⟩

end

end Strings

/-! ### Texts -/

/-- A secret that is given to the projection, and that none of its marks touches. -/
structure Secret (request : Request) (secret : Text) : Prop where
  given : secret ∈ request.privateValues ∨ secret ∈ request.privatePaths
  some_letter : secret ≠ []
  apart : ∀ mark ∈ redactionMarks, Apart mark secret

theorem mem_longestFirst (items : List Text) (item : Text) (member : item ∈ items)
    (some_letter : item ≠ []) : item ∈ longestFirst items := by
  unfold longestFirst
  rw [List.mem_mergeSort, List.mem_dedup, List.mem_filter]
  exact ⟨member, by simpa using some_letter⟩

theorem replaceAll_gone (label : Text) (listed : angled label ∈ redactionMarks)
    (secrets : List Text) (secret : Text) (member : secret ∈ secrets) (some_letter : secret ≠ [])
    (apart : ∀ mark ∈ redactionMarks, Apart mark secret) (text : Text) :
    ¬ secret <:+: replaceAll label secrets text := by
  induction secrets generalizing text with
  | nil => cases member
  | cons first rest ih =>
      rcases List.mem_cons.mp member with rfl | later
      · exact replaceAll_keeps (kept_absent apart) label listed rest _
          (replace_gone (apart _ listed) (redactionMarks_nonempty _ listed) some_letter text)
      · exact ih later _

section Requests

variable {F : Type} [FloatText F] (formatters : Formatters F) (request : Request)
  {secret : Text}

theorem redactText_gone (tables : CharTables) (secrecy : Secret request secret) (text : Text) :
    ¬ secret <:+: redactText tables request.privatePaths request.privateValues text := by
  have kept := kept_absent secrecy.apart
  unfold redactText
  apply sub_keeps kept redacted (by simp [redactionMarks])
  rcases secrecy.given with value | path
  · apply replaceAll_keeps kept supervisor (by simp [redactionMarks])
    exact replaceAll_gone redacted (by simp [redactionMarks]) _ secret
      (mem_longestFirst _ _ value secrecy.some_letter) secrecy.some_letter secrecy.apart text
  · exact replaceAll_gone supervisor (by simp [redactionMarks]) _ secret
      (mem_longestFirst _ _ path secrecy.some_letter) secrecy.some_letter secrecy.apart _

/-- The text is the encoding of a value, as a string that is hidden in place may be. -/
def Encoded (F : Type) [FloatText F] (tables : CharTables) (text : Text) : Prop :=
  looksEncoded tables text = true ∧ (loads text : Option (Json F)).isSome = true

theorem hideString_text (tables : CharTables) (lower : Text → Text) (fuel : Nat) (text : Text)
    (unencoded : ¬ Encoded F tables text) :
    hideString tables lower F fuel text = hideText tables text := by
  cases fuel with
  | zero => rfl
  | succ fuel =>
      rw [hideString]
      split
      · rename_i looks
        split
        · rename_i value read
          exact absurd ⟨looks, by rw [read]; rfl⟩ unencoded
        · rfl
      · rfl

/-- Without the secret, in a text or in every string of an object. -/
def Line.Clean (secret : Text) : Line F → Prop
  | .plain text => ¬ secret <:+: text
  | .marked _ value => EachMember (fun text => ¬ secret <:+: text) value

/-- No text of the line that shapes are hidden in is itself the encoding of a value. -/
def Unencoded (line : Text) : Prop :=
  ¬ Encoded F formatters.tables
      (redactText formatters.tables request.privatePaths request.privateValues line) ∧
    ∀ marker raw formatted, markerOf formatters line = some marker →
      loads (line.drop marker.length) = some (.obj raw) →
      formatObject formatters marker (redactObject formatters request raw) = .ok formatted →
      EachMember (fun text => ¬ Encoded F formatters.tables text)
        (redactObject formatters request formatted)

theorem Secret.not_mark (secrecy : Secret request secret) (mark : Text)
    (listed : mark ∈ redactionMarks) : ¬ secret <:+: mark :=
  (secrecy.apart mark listed).absent secrecy.some_letter

theorem redactObject_clean (secrecy : Secret request secret) (d : Json.Dict F) :
    EachMember (fun text => ¬ secret <:+: text) (redactObject formatters request d) := by
  apply mapMembers_each (P := fun _ => True) _ _ _ _ d (eachMember_true d)
  · intro key text constant
    split at constant
    · injection constant with constant
      rw [← constant]
      exact secrecy.not_mark request _ (by simp [redactionMarks])
    · cases constant
  · intro text _
    exact redactText_gone request formatters.tables secrecy text

theorem hideObject_clean (secrecy : Secret request secret) (d : Json.Dict F)
    (clean : EachMember (fun text => ¬ secret <:+: text) d)
    (unencoded : EachMember (fun text => ¬ Encoded F formatters.tables text) d) :
    EachMember (fun text => ¬ secret <:+: text) (hideObject formatters d) := by
  apply mapMembers_each _ _ _ _ d (eachMember_and d clean unencoded)
  · intro key text constant
    split at constant
    · injection constant with constant
      rw [← constant]
      exact secrecy.not_mark request _ (by simp [redactionMarks])
    · cases constant
  · rintro text ⟨absent, plain⟩
    rw [hideString_text _ _ _ _ plain]
    exact hideText_keeps (kept_absent secrecy.apart) _ _ absent

/-- A projected line is without the secret. -/
theorem projectLine_clean (secrecy : Secret request secret) (line : Text)
    (unencoded : request.hideShapes = true → Unencoded formatters request line)
    (projected : Line F) (here : projectLine formatters request line = .ok projected) :
    projected.Clean secret := by
  rcases projectLine_cases formatters request line projected here with
    rfl | ⟨marker, raw, formatted, found, _, read, given, rfl⟩
  · have gone := redactText_gone request formatters.tables secrecy line
    unfold Line.Clean plainText
    dsimp only
    split
    · rename_i hides
      rw [hideString_text _ _ _ _ (unencoded hides).1]
      exact hideText_keeps (kept_absent secrecy.apart) _ _ gone
    · exact gone
  · have clean := redactObject_clean formatters request secrecy formatted
    unfold Line.Clean
    dsimp only
    split
    · rename_i hides
      exact hideObject_clean formatters request secrecy _ clean
        ((unencoded hides).2 marker raw formatted found read given)
    · exact clean

theorem projectedStderr_clean (secrecy : Secret request secret) (process : Process) :
    ¬ secret <:+: projectedStderr formatters request process :=
  redactText_gone request formatters.tables secrecy _

/-! ### The response -/

theorem takeBytes_shorter (limit : Nat) (text : Text) : takeBytes limit text <+: text := by
  induction text generalizing limit with
  | nil => exact List.prefix_refl _
  | cons c rest ih =>
      rw [takeBytes]
      split
      · exact (List.prefix_cons_inj c).mpr (ih _)
      · exact List.nil_prefix

theorem cutText_absent (limit : Nat) (text : Text) (apart : Apart outputTruncated secret)
    (some_letter : secret ≠ []) (absent : ¬ secret <:+: text) :
    ¬ secret <:+: cutText limit text := by
  intro occurs
  rw [cutText, ← List.append_nil outputTruncated] at occurs
  rcases apart _ _ occurs with left | right
  · exact absent (left.trans (takeBytes_shorter limit text).isInfix)
  · exact some_letter (List.infix_nil.mp right)

/-- A word of one line, without angle brackets, touches no note of a cut. -/
theorem apart_outputTruncated (word : Text) (single : '\n' ∉ word) (opening : '<' ∉ word)
    (closing : '>' ∉ word) (absent : ¬ word <:+: "output truncated".toList) :
    Apart outputTruncated word := by
  intro kept after occurs
  have text : kept ++ (outputTruncated ++ after) =
      kept ++ '\n' :: ([] ++ (angled "output truncated".toList ++ '\n' :: after)) := by
    simp [outputTruncated]
  rw [text, infix_around word kept _ '\n' single] at occurs
  rcases occurs with left | right
  · exact Or.inl left
  · rcases apart_angled _ word opening closing absent [] _ right with none_left | beyond
    · rw [List.infix_nil.mp none_left]
      exact Or.inl List.nil_infix
    · rw [← List.nil_append ('\n' :: after), infix_around word [] after '\n' single] at beyond
      rcases beyond with none_left | later
      · rw [List.infix_nil.mp none_left]
        exact Or.inl List.nil_infix
      · exact Or.inr later

/-- What becomes of the text of the projected lines: it stays, it is cut, or an error
stands in its place. -/
theorem limitResponse_cases (process : Process) (lines : List (Line F)) (stderr : Text) :
    (limitResponse request process lines stderr).stdout = unlines (lines.map Line.text) ∨
      (limitResponse request process lines stderr).stdout =
        cutText (stdoutLimit request) (unlines (lines.map Line.text)) ∨
      (limitResponse request process lines stderr).stdout = exceedsLimit (F := F) := by
  unfold limitResponse
  dsimp only
  split
  · split
    · exact Or.inr (Or.inr rfl)
    · exact Or.inr (Or.inl rfl)
  · exact Or.inl rfl

theorem limitResponse_stderr (process : Process) (lines : List (Line F)) (stderr : Text)
    (some_letter : secret ≠ []) (apart : Apart outputTruncated secret)
    (absent : ¬ secret <:+: stderr) :
    ¬ secret <:+: (limitResponse request process lines stderr).stderr := by
  unfold limitResponse
  dsimp only
  split
  · exact cutText_absent _ _ apart some_letter absent
  · exact absent

theorem unlines_plain_absent (some_letter : secret ≠ []) (single : '\n' ∉ secret)
    (lines : List (Line F)) (clean : ∀ line ∈ lines, line.Clean secret)
    (plain : ∀ line ∈ lines, ∃ text, line = .plain text) :
    ¬ secret <:+: unlines (lines.map Line.text) := by
  intro occurs
  obtain ⟨text, member, inside⟩ := infix_unlines secret some_letter single _ occurs
  obtain ⟨line, listed, rfl⟩ := List.mem_map.mp member
  obtain ⟨text, rfl⟩ := plain line listed
  exact clean _ listed inside

end Requests

/-! ### A credential in a line -/

def credential : Text := "hunter2".toList

def credentialRequest : Request := ⟨false, false, false, "env", [], [credential]⟩

def credentialLine : Text := "login hunter2".toList

def credentialProcess : Process := ⟨0, unlines [credentialLine], []⟩

theorem credential_secret : Secret credentialRequest credential where
  given := Or.inl List.mem_cons_self
  some_letter := List.cons_ne_nil _ _
  apart := by
    intro mark listed
    simp only [redactionMarks, List.mem_cons, List.not_mem_nil, or_false] at listed
    rcases listed with rfl | rfl | rfl <;> exact apart_angled _ _ (by decide) (by decide) (by decide)

theorem credential_lines : projectedLines envFormatters credentialRequest credentialProcess =
    .ok [.plain "login <redacted>".toList] := by
  have split : splitlines credentialProcess.stdout = [credentialLine] := by decide +kernel
  have marker : markerOf envFormatters credentialLine = none := by decide +kernel
  have text : plainText envFormatters credentialRequest credentialLine =
      "login <redacted>".toList := by decide +kernel
  have line : projectLine envFormatters credentialRequest credentialLine =
      .ok (.plain "login <redacted>".toList) := by
    unfold projectLine
    rw [marker, text]
  rw [projectedLines, split, List.mapM_cons, line]
  rfl

def plainValue : Json.Dict OnlyNan := [("ok", .bool true), ("log", .str "\nabcd")]

def plainLine : Text := envPrefix ++ dumps (.obj plainValue)

def plainProcess : Process := ⟨0, unlines [plainLine], []⟩

/-- Credentials that are the text of a constant, of a marker and of an escape. -/
def plainSecrets : List Text := ["true".toList, "JSON".toList, "nabc".toList]

def secretRequest (secret : Text) : Request := ⟨false, false, false, "env", [], [secret]⟩

theorem project_plainLine (secret : Text) (listed : secret ∈ plainSecrets) :
    projectLine envFormatters (secretRequest secret) plainLine =
      .ok (.marked envPrefix plainValue) := by
  have marker : markerOf envFormatters plainLine = some envPrefix := by decide +kernel
  have distinct : Distinct (.obj plainValue) := ⟨by decide, trivial, trivial, trivial⟩
  have payload : (loads (plainLine.drop envPrefix.length) : Option (Json OnlyNan)) =
      some (.obj plainValue) := by
    rw [plainLine, List.drop_left, loads_dumps _ distinct]
  have each : ∀ secret ∈ plainSecrets, redactText asciiTables (secretRequest secret).privatePaths
      (secretRequest secret).privateValues "\nabcd".toList = "\nabcd".toList := by decide +kernel
  have first : (secretKeyPattern asciiTables).fullmatch "ok".toList = false := by decide +kernel
  have second : (secretKeyPattern asciiTables).fullmatch "log".toList = false := by decide +kernel
  have same : redactObject envFormatters (secretRequest secret) plainValue = plainValue := by
    have tables : envFormatters.tables = asciiTables := rfl
    unfold redactObject plainValue
    rw [mapMembers, mapMembers, mapMembers, tables, first, second]
    simp only [Bool.false_eq_true, if_false]
    rw [mapStrings, mapStrings, each secret listed, String.ofList_toList]
  have formatted : formatObject envFormatters envPrefix plainValue = .ok plainValue := rfl
  unfold projectLine
  rw [marker]
  dsimp only
  rw [payload]
  dsimp only
  rw [same, formatted]
  dsimp only
  rw [same]
  rfl

end AtrexAgent.Evaluation
