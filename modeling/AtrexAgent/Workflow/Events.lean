import Mathlib.Data.List.DropRight
import AtrexAgent.Library.Traversal
import AtrexAgent.Workflow.Lifecycle
import AtrexAgent.Workflow.Requests

/-! The events that requests record: each can be replayed, and replaying them runs their transitions. -/

namespace AtrexAgent.Journal

open AtrexAgent.Schema AtrexAgent.Words

variable {F : Type} {values : Values F}

/-! ### Texts that have been stripped -/

theorem strip_toList (s : String) : (strip s).toList = (s.toList.dropWhile isSpace).rdropWhile isSpace := String.toList_ofList

theorem strip_strip (s : String) : strip (strip s) = strip s := by
  rw [← String.toList_inj, strip_toList, strip_toList]
  have front : ((s.toList.dropWhile isSpace).rdropWhile isSpace).dropWhile isSpace = (s.toList.dropWhile isSpace).rdropWhile isSpace := by
    rw [List.dropWhile_eq_self_iff]
    intro some_char
    have inside := List.rdropWhile_prefix isSpace (s.toList.dropWhile isSpace)
    have longer : 0 < (s.toList.dropWhile isSpace).length := Nat.lt_of_lt_of_le some_char inside.length_le
    rw [inside.getElem some_char]
    exact List.dropWhile_get_zero_not isSpace s.toList longer
  rw [front, List.rdropWhile_idempotent]

theorem strip_length (s : String) : (strip s).length ≤ s.length := by
  rw [← String.length_toList, ← String.length_toList, strip_toList]
  exact Nat.le_trans (List.rdropWhile_prefix isSpace _).length_le (List.dropWhile_sublist isSpace).length_le

/-- What has been accepted as a text is accepted again. -/
theorem text_again {value : Json F} {label : String} {s : String} (accepted : text value label = .ok s) (label' : String) :
    text (.str s : Json F) label' = .ok s := by
  cases value with
  | str t =>
      rw [text] at accepted
      split at accepted
      · cases accepted
      · rename_i fits
        rw [not_or, Nat.not_lt] at fits
        cases accepted
        have short : ¬ (strip (strip t) = "" ∨ 16000 < (strip t).length) := by
          rw [strip_strip, not_or, Nat.not_lt]
          exact ⟨fits.1, Nat.le_trans (strip_length t) fits.2⟩
        rw [text, if_neg short, strip_strip]
  | _ => cases accepted

theorem shortText_again {item : Json F} {s : String} (short : shortText item = some s) : shortText (.str (strip s) : Json F) = some (strip s) := by
  cases item with
  | str t =>
      rw [shortText] at short
      split at short
      · cases short
      · rename_i fits
        rw [not_or, Nat.not_lt] at fits
        rw [← Option.some.inj short]
        have still : ¬ (strip (strip t) = "" ∨ 4000 < (strip t).length) := by
          rw [strip_strip, not_or, Nat.not_lt]
          exact ⟨fits.1, Nat.le_trans (strip_length t) fits.2⟩
        rw [shortText, if_neg still]
  | null => cases short
  | bool => cases short
  | int => cases short
  | float => cases short
  | arr => cases short
  | obj => cases short

theorem textList_again {value : Json F} {label : String} {list : List String} (accepted : textList value label = .ok list) (label' : String) :
    ∃ list', textList (.arr (list.map .str) : Json F) label' = .ok list' := by
  cases value with
  | arr items =>
      rw [textList] at accepted
      split at accepted
      · cases accepted
      · rename_i fits
        rw [not_or, Nat.not_lt, not_not] at fits
        cases accepted
        have each : ∀ s ∈ (items.filterMap shortText).map strip, shortText (.str s : Json F) = some s := by
          intro s member
          obtain ⟨t, inside, rfl⟩ := List.mem_map.mp member
          obtain ⟨item, _, short⟩ := List.mem_filterMap.mp inside
          exact shortText_again short
        generalize small : (items.filterMap shortText).map strip = list at each
        have few : list.length ≤ 64 := by
          rw [← small, List.length_map]
          exact Nat.le_trans (List.length_filterMap_le _ _) fits.1
        have all : (list.map Json.str).filterMap (shortText (F := F)) = list := by
          rw [List.filterMap_map]
          calc list.filterMap (shortText ∘ Json.str) = list.filterMap some := List.filterMap_congr each
            _ = list := List.filterMap_some
        rw [textList, all, List.length_map, if_neg (by simpa using few)]
        exact ⟨_, rfl⟩
  | _ => cases accepted

theorem textList_nil (label : String) : textList (.arr [] : Json F) label = .ok [] := rfl

/-! ### Events that are replayed -/

/-- The transition that an event records. -/
def moveOf (event : Json F) : Option Move :=
  match event with
  | .obj fields => match Json.get fields "direction_id", Action.parse (Json.get fields "action") with
    | .str id, some action => some (id, action)
    | _, _ => none
  | _ => none

def moves (events : List (Json F)) : List Move := events.filterMap moveOf

theorem moves_append (events more : List (Json F)) : moves (events ++ more) = moves events ++ moves more := List.filterMap_append

/-- An event that a replay refuses for no other reason than its transition. -/
structure Recorded (fields : Json.Dict F) (id : String) (action : Action) : Prop where
  directionId : Json.get fields "direction_id" = .str id
  format : isDirectionId id = true
  parsed : Action.parse (Json.get fields "action") = some action
  proposal : action = .propose → checkProposal fields = .ok ()
  support : ∃ list, textList (supportOf fields) "supporting_experiment_ids" = .ok list

def IsRecorded (event : Json F) : Prop := ∃ fields id action, event = .obj fields ∧ Recorded fields id action

theorem Recorded.move {fields : Json.Dict F} {id : String} {action : Action} (recorded : Recorded fields id action) :
    moveOf (.obj fields) = some (id, action) := by
  simp only [moveOf, recorded.directionId, recorded.parsed]

theorem checkEvent_recorded {fields : Json.Dict F} {id : String} {action : Action} (recorded : Recorded fields id action)
    {statuses : Statuses} {started : List String} (admitted : Admits statuses started id action) :
    checkEvent statuses started fields = .ok (Items.set statuses id (DIRECTION_STATUS action), addStarted started id action) := by
  have advanced : advanceDirection statuses started (Json.get fields "direction_id") (Json.get fields "action") =
      .ok (Items.set statuses id (DIRECTION_STATUS action), addStarted started id action) := by
    rw [recorded.directionId, advanceDirection, if_pos recorded.format, recorded.parsed]
    dsimp only
    rw [admits_iff.mpr admitted]
    rfl
  obtain ⟨list, supported⟩ := recorded.support
  rw [checkEvent, advanced, recorded.parsed]
  dsimp only [bind, Except.bind]
  rw [supported]
  by_cases proposes : action = .propose
  · rw [if_pos (congrArg some proposes), recorded.proposal proposes]
    rfl
  · rw [if_neg fun same => proposes (Option.some.inj same)]
    rfl

/-- The Directions of a view have the statuses that the transitions gave them. -/
structure Views.Agree (views : Views F) : Prop where
  distinct : Distinct views.statuses
  once : (views.directions.map Prod.fst).Nodup
  keyed : ∀ item ∈ views.directions, item.2.directionId = item.1
  status : ∀ id, (Items.get? views.directions id).map Direction.status = Items.get? views.statuses id

theorem Views.Agree.set {views : Views F} (agree : views.Agree) {id : String} {direction : Direction F} (named : direction.directionId = id)
    {status : Status} (same : direction.status = status) : (⟨Items.set views.directions id direction, Items.set views.statuses id status⟩ : Views F).Agree := by
  refine ⟨Items.keys_set_nodup agree.distinct _ _, Items.keys_set_nodup agree.once _ _, fun item member => ?_, fun other => ?_⟩
  · rcases Items.mem_set member with inside | rfl
    · exact agree.keyed item inside
    · exact named
  · rw [Items.get?_set, Items.get?_set]
    split
    · rw [Option.map_some, same]
    · exact agree.status other

variable (values) in
theorem Views.Agree.record {views : Views F} (agree : views.Agree) {fields : Json.Dict F} {id : String} {action : Action}
    (recorded : Recorded fields id action) {started : List String} (admitted : Admits views.statuses started id action) :
    (views.record values (Items.set views.statuses id (DIRECTION_STATUS action)) fields).Agree ∧
      (views.record values (Items.set views.statuses id (DIRECTION_STATUS action)) fields).statuses =
        Items.set views.statuses id (DIRECTION_STATUS action) := by
  have known (status : Status) (here : Items.get? views.statuses id = some status) :
      ∃ direction, Items.get? views.directions id = some direction ∧ direction.directionId = id := by
    have same := agree.status id
    rw [here] at same
    obtain ⟨direction, found, _⟩ := Option.map_eq_some_iff.mp same
    exact ⟨direction, found, agree.keyed _ (Items.mem_of_get? found)⟩
  have updated (other : action ≠ .propose) (status : Status) (here : Items.get? views.statuses id = some status) :
      ∃ direction, direction.directionId = id ∧ direction.status = DIRECTION_STATUS action ∧
        views.record values (Items.set views.statuses id (DIRECTION_STATUS action)) fields =
          ⟨Items.set views.directions id direction, Items.set views.statuses id (DIRECTION_STATUS action)⟩ := by
    obtain ⟨direction, found, named⟩ := known status here
    refine ⟨direction.updated values fields action, named, rfl, ?_⟩
    unfold Views.record
    rw [recorded.directionId, recorded.parsed]
    cases action with
    | propose => exact absurd rfl other
    | _ => simp only [string, found]
  cases admitted with
  | propose =>
      have made : views.record values (Items.set views.statuses id (DIRECTION_STATUS .propose)) fields =
          ⟨Items.set views.directions id (proposed values id fields), Items.set views.statuses id (DIRECTION_STATUS .propose)⟩ := by
        unfold Views.record
        rw [recorded.directionId, recorded.parsed]
        rfl
      rw [made]
      exact ⟨agree.set (show (proposed values id fields).directionId = id from rfl) rfl, rfl⟩
  | start status here =>
      obtain ⟨direction, named, same, made⟩ := updated (by decide) status here
      rw [made]
      exact ⟨agree.set named same, rfl⟩
  | close _ closes status here =>
      have other : action ≠ .propose := by
        rintro rfl
        exact absurd closes (by decide)
      obtain ⟨direction, named, same, made⟩ := updated other status here
      rw [made]
      exact ⟨agree.set named same, rfl⟩

variable (values) in
theorem applyEvents_runs {events : List (Json F)} (recorded : ∀ event ∈ events, IsRecorded event) (episode : Json F) {views : Views F}
    {started : List String} (agree : views.Agree) {ended : Statuses × List String}
    (ran : runMoves views.statuses started (moves events) = some ended) :
    ∃ views', events.foldlM (applyEvent values episode) (views, started) = .ok (views', ended.2) ∧ views'.statuses = ended.1 ∧ views'.Agree := by
  induction events generalizing views started with
  | nil =>
      cases ran
      exact ⟨views, rfl, rfl, agree⟩
  | cons event events ih =>
      obtain ⟨fields, id, action, rfl, here⟩ := recorded event List.mem_cons_self
      rw [moves, List.filterMap_cons_some here.move] at ran
      obtain ⟨admitted, rest⟩ := runMoves_cons ran
      obtain ⟨next, statuses⟩ := agree.record values here admitted
      rw [← statuses] at rest
      obtain ⟨views', applied, ended', agree'⟩ := ih (fun event member => recorded event (List.mem_cons_of_mem _ member)) next rest
      refine ⟨views', ?_, ended', agree'⟩
      rw [List.foldlM_cons, ← applied]
      simp only [applyEvent, checkEvent_recorded here admitted]
      rfl

variable (values) in
theorem applyDirectionEvents_runs {events : List (Json F)} (recorded : ∀ event ∈ events, IsRecorded event) (episode : Json F) {views : Views F}
    (agree : views.Agree) {ended : Statuses × List String} (ran : runMoves views.statuses [] (moves events) = some ended) :
    ∃ views', applyDirectionEvents values episode events views = .ok views' ∧ views'.statuses = ended.1 ∧ views'.Agree := by
  obtain ⟨views', applied, statuses, agree'⟩ := applyEvents_runs values recorded episode agree ran
  refine ⟨views', ?_, statuses, agree'⟩
  rw [applyDirectionEvents, applied]
  rfl

/-! ### Experiments change no status -/

theorem Views.Agree.associate {views : Views F} (agree : views.Agree) (experiment : Json F) :
    (⟨associateExperiment values views.directions experiment, views.statuses⟩ : Views F).Agree := by
  unfold associateExperiment
  split
  · split
    · exact agree
    · rename_i direction found
      split
      · split
        · exact agree
        · have named := agree.keyed _ (Items.mem_of_get? found)
          have status := agree.status direction.directionId
          rw [named] at status ⊢
          rw [found, Option.map_some] at status
          refine ⟨agree.distinct, Items.keys_set_nodup agree.once _ _, fun item member => ?_, fun other => ?_⟩
          · rcases Items.mem_set member with inside | rfl
            · exact agree.keyed item inside
            · rfl
          · rw [Items.get?_set]
            split
            · rename_i same
              rw [same, ← status]
              rfl
            · exact agree.status other
      · exact agree
  · exact agree

theorem Views.Agree.associateAll {views : Views F} (agree : views.Agree) (experiments : List (Json F)) :
    (⟨associateExperiments values views.directions experiments, views.statuses⟩ : Views F).Agree := by
  unfold associateExperiments
  induction experiments generalizing views with
  | nil => exact agree
  | cons experiment experiments ih => exact ih (agree.associate experiment)

variable (values) in
theorem History.addExperiments_agree (history : History F) (agree : history.views.Agree) (experiments : List (Json F)) :
    (experiments.foldl (History.addExperiment values) history).views.Agree ∧
      (experiments.foldl (History.addExperiment values) history).views.statuses = history.views.statuses := by
  induction experiments generalizing history with
  | nil => exact ⟨agree, rfl⟩
  | cons experiment experiments ih =>
      have one : (history.addExperiment values experiment).views.Agree ∧
          (history.addExperiment values experiment).views.statuses = history.views.statuses := by
        unfold History.addExperiment
        split
        · split
          · split
            · exact ⟨agree, rfl⟩
            · exact ⟨agree.associate _, rfl⟩
          · exact ⟨agree, rfl⟩
        · exact ⟨agree, rfl⟩
      obtain ⟨agree', statuses⟩ := ih _ one.1
      exact ⟨agree', statuses.trans one.2⟩

variable (values) in
/-- A finalized journal is replayed where its transitions run. -/
theorem addJournal_runs {history : History F} (episode : Json F) {doc : Json.Dict F}
    (recorded : ∀ event ∈ listAt doc "direction_events", IsRecorded event) (agree : history.views.Agree) {ended : Statuses × List String}
    (ran : runMoves history.views.statuses [] (moves (listAt doc "direction_events")) = some ended) :
    ∃ history', history.addJournal values episode doc = .ok history' ∧ history'.views.statuses = ended.1 ∧ history'.views.Agree := by
  obtain ⟨views, applied, statuses, agree'⟩ := applyDirectionEvents_runs values recorded episode agree ran
  have added := History.addExperiments_agree values { history with views := views } agree' (listAt doc "experiments")
  refine ⟨_, ?_, added.2.trans statuses, added.1⟩
  rw [History.addJournal, applied]
  rfl

end AtrexAgent.Journal
