import AtrexAgent.Agent.SessionUsage
import AtrexAgent.Library.Interleaving

/-! The order in which transcripts are read does not matter to the usage that is accumulated. -/

namespace AtrexAgent.SessionUsage

open AtrexAgent.Interleaving
open AtrexAgent.Items
open AtrexAgent.Json (Dict FloatText)
open AtrexAgent.Schema (Floats)
open AtrexAgent.Tokens

/-! ### Keys -/

theorem append_colon {p q s t : List Char} (plain : ':' ∉ s) (plain' : ':' ∉ t) (same : p ++ ':' :: s = q ++ ':' :: t) : p = q ∧ s = t := by
  rcases List.append_eq_append_iff.mp same with ⟨more, rfl, rest⟩ | ⟨more, rfl, rest⟩
  · cases more with
    | nil => exact ⟨(List.append_nil p).symm, (List.cons.inj rest).2⟩
    | cons c more =>
        have inside : ':' ∈ s := by
          rw [(List.cons.inj rest).2]
          simp
        exact absurd inside plain
  · cases more with
    | nil => exact ⟨List.append_nil q, (List.cons.inj rest).2.symm⟩
    | cons c more =>
        have inside : ':' ∈ t := by
          rw [(List.cons.inj rest).2]
          simp
        exact absurd inside plain'

theorem keyOf_toList (path suffix : String) : (keyOf path suffix).toList = path.toList ++ ':' :: suffix.toList := by
  simp [keyOf]

/-- The key of a path that has a suffix without a colon gives away the path. -/
theorem keyOf_inj {p q s t : String} (plain : ':' ∉ s.toList) (plain' : ':' ∉ t.toList) (same : keyOf p s = keyOf q t) : p = q ∧ s = t := by
  have lists := congrArg String.toList same
  rw [keyOf_toList, keyOf_toList] at lists
  obtain ⟨paths, suffixes⟩ := append_colon plain plain' lists
  exact ⟨String.toList_inj.mp paths, String.toList_inj.mp suffixes⟩

theorem colon_keyOf (path suffix : String) : ':' ∈ (keyOf path suffix).toList := by
  rw [keyOf_toList]
  simp

theorem digits_plain (n : Nat) : ':' ∉ (toString n).toList := by
  intro member
  have digits : (toString n).toList = Nat.toDigits 10 n := by simp [toString, Nat.repr]
  rw [digits] at member
  exact absurd (Nat.isDigit_of_mem_toDigits (by decide) (Nat.le_refl 10) member) (by decide)

theorem line_plain (n : Nat) : ':' ∉ ("line-" ++ toString n).toList := by
  rw [String.toList_append, List.mem_append]
  rintro (before | digits)
  · revert before
    decide
  · exact digits_plain n digits

theorem total_plain (n : Int) : ':' ∉ (toString n).toList := by
  cases n with
  | ofNat m => exact digits_plain m
  | negSucc m =>
      show ':' ∉ ("-" ++ toString (m + 1)).toList
      rw [String.toList_append, List.mem_append]
      rintro (before | digits)
      · revert before
        decide
      · exact digits_plain _ digits

/-- A key that events of a path touch: one of the path, or one without a colon. -/
def Touches (path key : String) : Prop := ':' ∉ key.toList ∨ ∃ suffix, ':' ∉ suffix.toList ∧ key = keyOf path suffix

theorem touches_keyOf {path suffix : String} (plain : ':' ∉ suffix.toList) : Touches path (keyOf path suffix) := .inr ⟨suffix, plain, rfl⟩

/-- What events of two paths touch has no colon. -/
theorem touches_both {p q key : String} (apart : p ≠ q) (here : Touches p key) (there : Touches q key) : ':' ∉ key.toList := by
  rcases here with plain | ⟨s, plain, rfl⟩
  · exact plain
  · rcases there with plain' | ⟨t, plain', same⟩
    · exact plain'
    · exact absurd (keyOf_inj plain plain' same).1 apart

/-! ### What is known of an id -/

/-- What is known of an id: whether it is of the history, whether its usage is missing, and its response. -/
@[ext] structure Cell where
  old : Bool
  missing : Bool
  response : Option Response

def oldCell (_ : Cell) : Cell := ⟨true, false, none⟩

/-- A response without a usage. -/
def silentCell (cell : Cell) : Cell := if cell.old || cell.response.isSome then cell else { cell with missing := true }

/-- A response of a main transcript counts more than one of a child, and both more than one of the stream. -/
def rank (native : Bool) (agent : String) : Nat := if native then if agent = "main" then 2 else 1 else 0

def Response.rank (response : Response) : Nat := SessionUsage.rank response.native response.agent

theorem prevails_iff (earlier : Response) (native : Bool) (agent : String) : prevails earlier native agent = true ↔ rank native agent < earlier.rank := by
  unfold prevails Response.rank rank
  cases earlier.native <;> cases native <;> by_cases main : earlier.agent = "main" <;> by_cases main' : agent = "main" <;> simp [main, main']

/-- The response that stays of an earlier one and a later one. -/
def pick (earlier : Option Response) (response : Response) : Response :=
  earlier.elim response fun earlier => if response.rank < earlier.rank then earlier else response

def responseCell (response : Response) (cell : Cell) : Cell := if cell.old then cell else ⟨false, false, some (pick cell.response response)⟩

def countedCell (response : Response) (cell : Cell) : Cell := { cell with response := some response }

theorem old_silent (cell : Cell) : oldCell (silentCell cell) = silentCell (oldCell cell) := rfl

theorem old_response (response : Response) (cell : Cell) : oldCell (responseCell response cell) = responseCell response (oldCell cell) := rfl

theorem silent_response (response : Response) (cell : Cell) :
    silentCell (responseCell response cell) = responseCell response (silentCell cell) := by
  obtain ⟨old, missing, earlier⟩ := cell
  cases old with
  | true => simp [silentCell, responseCell]
  | false => cases earlier <;> simp [silentCell, responseCell]

theorem pick_pick {first second : Response} (apart : first.rank ≠ second.rank) (earlier : Option Response) :
    pick (some (pick earlier second)) first = pick (some (pick earlier first)) second := by
  cases earlier with
  | none =>
      show (if first.rank < second.rank then second else first) = if second.rank < first.rank then first else second
      rcases Nat.lt_or_gt_of_ne apart with less | more
      · rw [if_pos less, if_neg (Nat.lt_asymm less)]
      · rw [if_neg (Nat.lt_asymm more), if_pos more]
  | some earlier =>
      simp only [pick, Option.elim_some]
      by_cases less : second.rank < earlier.rank <;> by_cases less' : first.rank < earlier.rank
      · rw [if_pos less, if_pos less', if_pos less]
      · rw [if_pos less, if_neg less', if_pos (Nat.lt_of_lt_of_le less (Nat.le_of_not_lt less'))]
      · rw [if_neg less, if_pos less', if_neg less, if_pos (Nat.lt_of_lt_of_le less' (Nat.le_of_not_lt less))]
      · rw [if_neg less, if_neg less']
        rcases Nat.lt_or_gt_of_ne apart with lower | higher
        · rw [if_pos lower, if_neg (Nat.lt_asymm lower)]
        · rw [if_neg (Nat.lt_asymm higher), if_pos higher]

/-- Two responses with one id come to the same in both orders, where they do not have one rank. -/
theorem response_response {first second : Response} (apart : first.rank ≠ second.rank) (cell : Cell) :
    responseCell first (responseCell second cell) = responseCell second (responseCell first cell) := by
  obtain ⟨old, missing, earlier⟩ := cell
  cases old with
  | true => rfl
  | false =>
      show (⟨false, false, some (pick (some (pick earlier second)) first)⟩ : Cell) = ⟨false, false, some (pick (some (pick earlier first)) second)⟩
      rw [pick_pick apart]

/-! ### What an event does -/

inductive Item where
  | incomplete
  | event (event : Event)
  deriving DecidableEq

/-- What an item of a path does: notes that it makes, what becomes of an id, and of the counters of the path. -/
structure Move where
  notes : List String
  key : Option String
  onCell : Cell → Cell
  total : Option TokenUsage
  prior : Option (Option TokenUsage)

def Move.at (move : Move) (key : String) (cell : Cell) : Cell :=
  let cell := if move.key = some key then move.onCell cell else cell
  if key ∈ move.notes then { cell with missing := true } else cell

def counterMove (path : String) (total prior : Option TokenUsage) (incomplete : Bool) (current last : TokenUsage) : Move :=
  if incomplete ∧ total = none then ⟨[], none, id, if current.totalTokens.isSome then some current else none, none⟩
  else match current.totalTokens with
    | none => ⟨[], none, id, none, none⟩
    | some count => match subtractTokenUsage current (total.getD (prior.getD .zero)) with
      | none => ⟨[keyOf path "counter-regression"], none, id, none, none⟩
      | some delta =>
          if delta.totalTokens.getD 0 = 0 then ⟨[], none, id, some current, none⟩
          else ⟨if sameUsage delta last then [] else [keyOf path "unreconciled-token-delta"], some (keyOf path (toString count)),
            countedCell ⟨keyOf path (toString count), path, path, delta, true⟩, some current, none⟩

/-- The id of a response, made up where it has none. -/
def messageId (path : String) (index : Nat) (id : Option String) : String := id.getD (keyOf path ("line-" ++ toString index))

def moveOf (path : String) (index : Nat) (total prior : Option TokenUsage) (incomplete : Bool) : Item → Move
  | .incomplete => ⟨[incompleteNote path], none, id, none, some none⟩
  | .event .malformed => ⟨[keyOf path "malformed-json"], none, id, none, none⟩
  | .event (.history old prior) => ⟨[], old, oldCell, none, prior.map some⟩
  | .event (.counter current last) => counterMove path total prior incomplete current last
  | .event (.response given agent usage) =>
      ⟨if given.isSome then [] else [NO_IDENTITY], some (messageId path index given),
        if usage.totalTokens = none then silentCell
        else responseCell ⟨messageId path index given, path, agent, usage, path ≠ STREAM⟩, none, none⟩
  | .event _ => ⟨[], none, id, none, none⟩

/-- The accumulator as it is seen at each key and each path. -/
@[ext] structure View where
  cells : String → Cell
  totals : String → Option TokenUsage
  prior : String → Option TokenUsage
  indices : String → Nat
  terminal : String × TokenUsage
  nativeSeen : Bool

def Item.lines : Item → Nat
  | .incomplete => 0
  | .event _ => 1

def Item.terminal : Item → Option (String × TokenUsage)
  | .event (.terminal line usage) => some (line, usage)
  | _ => none

def Item.isLive : Item → Bool
  | .incomplete => false
  | .event said => said.isLive

def View.move (view : View) (path : String) (item : Item) : Move :=
  moveOf path (view.indices path) (view.totals path) (view.prior path) (view.cells (incompleteNote path)).missing item

def View.step (view : View) (x : String × Item) : View where
  cells key := (view.move x.1 x.2).at key (view.cells key)
  totals path := if path = x.1 then (view.move x.1 x.2).total.or (view.totals path) else view.totals path
  prior path := if path = x.1 then (view.move x.1 x.2).prior.getD (view.prior path) else view.prior path
  indices path := if path = x.1 then view.indices path + x.2.lines else view.indices path
  terminal := x.2.terminal.getD view.terminal
  nativeSeen := view.nativeSeen || (x.2.isLive && decide (x.1 ≠ STREAM))

/-! ### Commuting -/

/-- An id that providers give: it has no colon, and is not a note. -/
def Item.Plain : Item → Prop
  | .event (.history (some id) _) => ':' ∉ id.toList ∧ id ≠ NO_IDENTITY
  | .event (.response (some id) _ _) => ':' ∉ id.toList ∧ id ≠ NO_IDENTITY
  | _ => True

theorem counterMove_touches {path : String} {total prior : Option TokenUsage} {incomplete : Bool} {current last : TokenUsage} {key : String}
    (touched : key ∈ (counterMove path total prior incomplete current last).notes ∨
      (counterMove path total prior incomplete current last).key = some key) : ∃ suffix, ':' ∉ suffix.toList ∧ key = keyOf path suffix := by
  unfold counterMove at touched
  split at touched
  · simp at touched
  · split at touched
    · simp at touched
    · rename_i count _
      split at touched
      · have same : key = keyOf path "counter-regression" := by simpa using touched
        exact ⟨_, by decide, same⟩
      · split at touched
        · simp at touched
        · rcases touched with noted | keyed
          · split at noted
            · cases noted
            · have same : key = keyOf path "unreconciled-token-delta" := by simpa using noted
              exact ⟨_, by decide, same⟩
          · exact ⟨toString count, total_plain count, (Option.some.inj keyed).symm⟩

/-- A note is one of the path, or that an id is missing. -/
theorem note_touches {path : String} {index : Nat} {total prior : Option TokenUsage} {incomplete : Bool} {item : Item} {key : String}
    (noted : key ∈ (moveOf path index total prior incomplete item).notes) :
    key = NO_IDENTITY ∨ ∃ suffix, ':' ∉ suffix.toList ∧ key = keyOf path suffix := by
  cases item with
  | incomplete =>
      have same : key = incompleteNote path := by simpa [moveOf] using noted
      exact .inr ⟨"resume_history_incomplete", by decide, same⟩
  | event event =>
      cases event with
      | malformed =>
          have same : key = keyOf path "malformed-json" := by simpa [moveOf] using noted
          exact .inr ⟨_, by decide, same⟩
      | counter current last => exact .inr (counterMove_touches (.inl noted))
      | response given agent usage =>
          cases given with
          | some id => simp [moveOf] at noted
          | none => exact .inl (by simpa [moveOf] using noted)
      | _ => simp [moveOf] at noted

/-- A key is one of the path, or an id that a provider gave. -/
theorem key_touches {path : String} {index : Nat} {total prior : Option TokenUsage} {incomplete : Bool} {item : Item} {key : String}
    (plain : item.Plain) (keyed : (moveOf path index total prior incomplete item).key = some key) :
    (':' ∉ key.toList ∧ key ≠ NO_IDENTITY) ∨ ∃ suffix, ':' ∉ suffix.toList ∧ key = keyOf path suffix := by
  cases item with
  | incomplete => cases keyed
  | event event =>
      cases event with
      | history old prior =>
          cases keyed
          exact .inl plain
      | counter current last => exact .inr (counterMove_touches (.inr keyed))
      | response given agent usage =>
          cases given with
          | some id =>
              cases keyed
              exact .inl plain
          | none =>
              cases keyed
              exact .inr ⟨"line-" ++ toString index, line_plain index, rfl⟩
      | _ => cases keyed

end AtrexAgent.SessionUsage
