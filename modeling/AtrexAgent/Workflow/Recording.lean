import AtrexAgent.Workflow.Events

/-! What a request makes of the journal of its Episode: an event or an experiment more, or a report that ends it. -/

namespace AtrexAgent.Journal

open AtrexAgent.Schema

variable {F : Type} {values : Values F}

theorem throw_ne_ok {α : Type} {failure : Failure} {result : α} : (throw failure : Except Failure α) ≠ .ok result := fun same => nomatch same

theorem guard_ok {p : Prop} [Decidable p] {failure : Failure} {α : Type} {rest : Except Failure α} {result : α}
    (ok : (do
      if p then throw failure
      rest) = .ok result) : ¬ p ∧ rest = .ok result := by
  by_cases refused : p
  · rw [if_pos refused] at ok
    cases ok
  · rw [if_neg refused] at ok
    exact ⟨refused, ok⟩

/-- A loop that goes through all of its items. -/
theorem forIn_ok {α : Type} {items : List α} {body : α → PUnit → Except Failure (ForInStep PUnit)}
    (each : ∀ item ∈ items, body item ⟨⟩ = .ok (.yield ⟨⟩)) : forIn items PUnit.unit body = .ok ⟨⟩ := by
  induction items with
  | nil => rfl
  | cons item items ih =>
      rw [List.forIn_cons, each item List.mem_cons_self]
      exact ih fun other member => each other (List.mem_cons_of_mem _ member)

theorem mutableJournal_ok {file : File F} {journal : Json.Dict F} (ok : mutableJournal values file = .ok journal) :
    loadJournal values file = .ok journal ∧ keepsResearch journal = true ∧ isStr "in_progress" (Json.get journal "state") = true := by
  unfold mutableJournal at ok
  obtain ⟨journal', loaded, ok⟩ := (bind_ok_iff _ _ _).mp ok
  obtain ⟨research, ok⟩ := guard_ok ok
  obtain ⟨open_, ok⟩ := guard_ok ok
  cases ok
  exact ⟨loaded, by simpa using research, by simpa using open_⟩

theorem saveJournal_ok {outside : Outside F} {journal journal' : Json.Dict F} (ok : saveJournal outside journal = .ok journal') : journal' = journal := by
  unfold saveJournal at ok
  split at ok
  · exact (Except.ok.inj ok).symm
  · cases ok

theorem Action.parse_iff {value : Json F} {action : Action} : Action.parse value = some action ↔ value = .str action.text := by
  constructor
  · intro parsed
    unfold Action.parse at parsed
    split at parsed
    · have found := List.find?_some parsed
      exact congrArg Json.str (of_decide_eq_true found).symm
    · cases parsed
  · rintro rfl
    cases action <;> rfl

theorem advanceDirection_ok {statuses : Statuses} {started : List String} {id : String} {action : Json F} {result : Statuses × List String}
    (ok : advanceDirection statuses started (.str id) action = .ok result) :
    isDirectionId id = true ∧ ∃ parsed, Action.parse action = some parsed ∧ Admits statuses started id parsed := by
  rw [advanceDirection] at ok
  split at ok
  · rename_i format
    split at ok
    · rename_i parsed named
      refine ⟨format, parsed, named, admits_iff.mp ?_⟩
      cases admitted : admits statuses started id parsed with
      | ok => rfl
      | error failure =>
          rw [admitted] at ok
          cases ok
    · cases ok
  · cases ok

/-! ### Directions -/

/-- What a request relies on from outside: an id of the right form and a time that is a text. -/
structure Outside.Valid (outside : Outside F) : Prop where
  id : isDirectionId ("direction_" ++ outside.uuid) = true
  now : ∃ s, text (.str outside.now : Json F) "" = .ok s
  time : outside.now ≠ ""

theorem text_label {value : Json F} {label : String} {s : String} (accepted : text value label = .ok s) (label' : String) :
    text value label' = .ok s := by
  cases value with
  | str t =>
      rw [text] at accepted ⊢
      split at accepted
      · cases accepted
      · rename_i fits
        rw [if_neg fits]
        exact accepted
  | _ => cases accepted

theorem ancestry_fields {id : String} {value : Json.Dict F} {directions : List (String × Direction F)} {experiment : String → Option (Json.Dict F)}
    {ancestry : Json.Dict F} (ok : validateRelationship values id value directions experiment = .ok ancestry) :
    ∀ item ∈ ancestry, item.1 ∈ RELATIONSHIP_FIELDS := by
  unfold validateRelationship at ok
  cases found : ancestryOf values id value directions experiment with
  | error failure =>
      rw [found] at ok
      cases ok
  | ok derived =>
      rw [found] at ok
      cases derived with
      | none =>
          cases ok
          exact fun item member => absurd member List.not_mem_nil
      | some parents =>
          cases ok
          simp [RELATIONSHIP_FIELDS]

theorem proposalAncestry_fields {id : String} {value : Json.Dict F} {history : VisibleHistory F} {views : Views F} {ancestry : Json.Dict F}
    (ok : proposalAncestry values id value history views = .ok ancestry) : ∀ item ∈ ancestry, item.1 ∈ RELATIONSHIP_FIELDS := by
  unfold proposalAncestry at ok
  split at ok
  · exact ancestry_fields ok
  · cases ok
    exact fun item member => absurd member List.not_mem_nil

theorem find?_ancestry {ancestry : Json.Dict F} (fields : ∀ item ∈ ancestry, item.1 ∈ RELATIONSHIP_FIELDS) {key : String}
    (other : key ∉ RELATIONSHIP_FIELDS) : Json.find? ancestry key = none := by
  rw [Json.find?_eq_none]
  rintro item member rfl
  exact other (fields item member)

/-- The texts of a proposal that has been read are accepted in a replay. -/
theorem readProposal_again {outside : Outside F} (valid : outside.Valid) {value : Json.Dict F} {proposal : Proposal}
    (ok : readProposal value = .ok proposal) (id : String) (more : Json.Dict F) :
    checkProposal (proposal.event outside id ++ more) = .ok () := by
  unfold readProposal at ok
  obtain ⟨name, named, ok⟩ := (bind_ok_iff _ _ _).mp ok
  obtain ⟨hypothesis, supposed, ok⟩ := (bind_ok_iff _ _ _).mp ok
  obtain ⟨rationale, reasoned, ok⟩ := (bind_ok_iff _ _ _).mp ok
  obtain ⟨plan, planned, ok⟩ := (bind_ok_iff _ _ _).mp ok
  obtain ⟨criteria, judged, ok⟩ := (bind_ok_iff _ _ _).mp ok
  obtain ⟨conditions, bounded, ok⟩ := (bind_ok_iff _ _ _).mp ok
  cases ok
  obtain ⟨now, timed⟩ := valid.now
  obtain ⟨plan', planned⟩ := textList_again planned "Direction plan"
  obtain ⟨criteria', judged⟩ := textList_again judged "Direction success_criteria"
  obtain ⟨conditions', bounded⟩ := textList_again bounded "Direction stop_conditions"
  have texts : ∀ field ∈ ["name", "hypothesis", "rationale", "recorded_at"],
      ∃ s, text (Json.get (Proposal.event ⟨name, hypothesis, rationale, plan, criteria, conditions⟩ outside id ++ more) field)
        s!"Direction {field}" = .ok s := by
    intro field member
    simp only [List.mem_cons, List.not_mem_nil, or_false] at member
    rcases member with rfl | rfl | rfl | rfl
    · exact ⟨_, text_again named _⟩
    · exact ⟨_, text_again supposed _⟩
    · exact ⟨_, text_again reasoned _⟩
    · exact ⟨_, text_label timed _⟩
  have lists : ∀ field ∈ ["plan", "success_criteria", "stop_conditions"],
      ∃ list, textList (Json.get (Proposal.event ⟨name, hypothesis, rationale, plan, criteria, conditions⟩ outside id ++ more) field)
        s!"Direction {field}" = .ok list := by
    intro field member
    simp only [List.mem_cons, List.not_mem_nil, or_false] at member
    rcases member with rfl | rfl | rfl
    · exact ⟨_, planned⟩
    · exact ⟨_, judged⟩
    · exact ⟨_, bounded⟩
  unfold checkProposal
  refine (bind_ok_iff _ _ _).mpr ⟨⟨⟩, forIn_ok fun field member => ?_, (bind_ok_iff _ _ _).mpr ⟨⟨⟩, forIn_ok fun field member => ?_, rfl⟩⟩
  · obtain ⟨s, accepted⟩ := texts field member
    rw [accepted]
    rfl
  · obtain ⟨list, accepted⟩ := lists field member
    rw [accepted]
    rfl

/-- A proposal is recorded where it may be made. -/
theorem proposalEvent_recorded {outside : Outside F} (valid : outside.Valid) {value : Json.Dict F} {history : VisibleHistory F} {views : Views F}
    {started : List String} {event : Json.Dict F} (ok : proposalEvent values outside value history views started = .ok event) :
    Recorded event ("direction_" ++ outside.uuid) .propose ∧ Admits views.statuses started ("direction_" ++ outside.uuid) .propose := by
  unfold proposalEvent at ok
  obtain ⟨_, _, ok⟩ := (bind_ok_iff _ _ _).mp ok
  obtain ⟨_, advanced, ok⟩ := (bind_ok_iff _ _ _).mp ok
  obtain ⟨ancestry, derived, ok⟩ := (bind_ok_iff _ _ _).mp ok
  obtain ⟨proposal, read, ok⟩ := (bind_ok_iff _ _ _).mp ok
  cases ok
  obtain ⟨_, action, parsed, admitted⟩ := advanceDirection_ok advanced
  have proposes : action = .propose := (Option.some.inj parsed).symm
  rw [proposes] at admitted
  have absent : Json.find? ancestry "supporting_experiment_ids" = none := find?_ancestry (proposalAncestry_fields derived) (by decide)
  refine ⟨⟨rfl, valid.id, rfl, fun _ => readProposal_again valid read _ _, [], ?_⟩, admitted⟩
  have unsupported : supportOf (proposal.event outside ("direction_" ++ outside.uuid) ++ ancestry) = .arr [] := by
    rw [supportOf, Json.find?_append, absent]
    rfl
  rw [unsupported]
  exact textList_nil _

theorem closureSupport_ok {outside : Outside F} {id : String} {value : Json.Dict F} {history : VisibleHistory F} {selected : List String}
    (ok : closureSupport outside id value history = .ok selected) :
    textList (Json.get value "supporting_experiment_ids") "supporting_experiment_ids" = .ok selected := by
  unfold closureSupport at ok
  split at ok
  · obtain ⟨_, ok⟩ := guard_ok ok
    obtain ⟨listed, accepted, ok⟩ := (bind_ok_iff _ _ _).mp ok
    obtain ⟨_, ok⟩ := guard_ok ok
    obtain ⟨_, _, ok⟩ := (bind_ok_iff _ _ _).mp ok
    cases ok
    exact accepted
  · cases ok

/-- A later transition is recorded where it may be made. -/
theorem transitionEvent_recorded {outside : Outside F} {value : Json.Dict F} {history : VisibleHistory F} {views : Views F}
    {started : List String} {action : Action} (later : action ≠ .propose) {event : Json.Dict F}
    (ok : transitionEvent outside value history views started action = .ok event) :
    ∃ id, Recorded event id action ∧ Admits views.statuses started id action := by
  unfold transitionEvent at ok
  obtain ⟨_, _, ok⟩ := (bind_ok_iff _ _ _).mp ok
  obtain ⟨id, _, ok⟩ := (bind_ok_iff _ _ _).mp ok
  obtain ⟨_, advanced, ok⟩ := (bind_ok_iff _ _ _).mp ok
  obtain ⟨supporting, supported, ok⟩ := (bind_ok_iff _ _ _).mp ok
  obtain ⟨analysis, _, ok⟩ := (bind_ok_iff _ _ _).mp ok
  cases ok
  obtain ⟨format, action', parsed, admitted⟩ := advanceDirection_ok advanced
  have same : Action.parse (.str action.text : Json F) = some action := Action.parse_iff.mpr rfl
  cases Option.some.inj (parsed.symm.trans same)
  refine ⟨id, ⟨rfl, format, same, fun proposes => absurd proposes later, ?_⟩, admitted⟩
  unfold transitionSupport at supported
  split at supported
  · exact textList_again (closureSupport_ok supported) _
  · cases supported
    exact ⟨_, textList_nil _⟩

/-- The event that an update records can be replayed, and moves a Direction as it may be moved. -/
theorem directionEvent_recorded {outside : Outside F} (valid : outside.Valid) {value : Json.Dict F} {history : VisibleHistory F} {views : Views F}
    {started : List String} {event : Json.Dict F} (ok : directionEvent values outside value history views started = .ok event) :
    ∃ id action, Recorded event id action ∧ Admits views.statuses started id action ∧
      (action = .propose → id = "direction_" ++ outside.uuid) := by
  unfold directionEvent at ok
  split at ok
  · obtain ⟨recorded, admitted⟩ := proposalEvent_recorded valid ok
    exact ⟨_, _, recorded, admitted, fun _ => rfl⟩
  · rename_i other
    split at ok
    · cases ok
    · split at ok
      · cases ok
      · rename_i action parsed
        have later : action ≠ .propose := by
          rintro rfl
          exact other ((isStr_iff _ _).mpr (Action.parse_iff.mp parsed))
        obtain ⟨id, recorded, admitted⟩ := transitionEvent_recorded later ok
        exact ⟨id, action, recorded, admitted, fun proposes => absurd proposes later⟩

/-! ### Journals that load -/

/-- What makes a document the journal of an Episode. -/
structure Loads (values : Values F) (doc : Json.Dict F) : Prop where
  schema : equal values.floats (Json.get doc "schema_version") (.int 2) = true
  managed : Json.get doc "runtime_managed" = .bool true
  events : ∃ events, Json.get doc "direction_events" = .arr events
  experiments : ∃ experiments, Json.get doc "experiments" = .arr experiments
  policy : ∃ research, (Json.find? doc "research_records").getD (.bool true) = .bool research ∧
    (research = false → listAt doc "direction_events" = [] ∧ listAt doc "experiments" = [])

theorem items_listed {value : Json F} (listed : items value ≠ none) : ∃ list, value = .arr list := by
  cases value with
  | arr list => exact ⟨list, rfl⟩
  | _ => exact absurd rfl listed

theorem loadJournal_obj {file : File F} {doc : Json.Dict F} (ok : loadJournal values file = .ok doc) : file = some (.obj doc) ∧ Loads values doc := by
  unfold loadJournal at ok
  split at ok
  · cases ok
  · rename_i doc'
    split at ok
    · rename_i schema managed
      split at ok
      · cases ok
      · rename_i collections
        rw [not_or] at collections
        split at ok
        · rename_i research policy
          split at ok
          · cases ok
          · rename_i kept
            cases ok
            refine ⟨rfl, schema, managed, items_listed (by simpa using collections.1), items_listed (by simpa using collections.2), research, policy, ?_⟩
            intro disabled
            simpa [disabled] using kept
        · cases ok
    · cases ok
  · cases ok

theorem Loads.load {doc : Json.Dict F} (loads : Loads values doc) : loadJournal values (some (.obj doc)) = .ok doc := by
  obtain ⟨events, are_events⟩ := loads.events
  obtain ⟨experiments, are_experiments⟩ := loads.experiments
  obtain ⟨research, policy, empty⟩ := loads.policy
  rw [loadJournal, loads.schema, loads.managed]
  dsimp only
  rw [if_neg (by rw [are_events, are_experiments]; simp [items]), policy]
  dsimp only
  refine if_neg fun refused => refused.2 ?_
  obtain ⟨no_events, no_experiments⟩ := empty refused.1
  rw [no_events, no_experiments]
  exact ⟨rfl, rfl⟩

/-- A document is a journal where its managed fields are those of one. -/
theorem Loads.congr {doc doc' : Json.Dict F} (loads : Loads values doc)
    (same : ∀ key ∈ ["schema_version", "runtime_managed", "direction_events", "experiments", "research_records"],
      Json.find? doc' key = Json.find? doc key) : Loads values doc' := by
  have get (key : String) (member : key ∈ ["schema_version", "runtime_managed", "direction_events", "experiments", "research_records"]) :
      Json.get doc' key = Json.get doc key := by
    rw [Json.get, same key member, Json.get]
  refine ⟨?_, ?_, ?_, ?_, ?_⟩
  · rw [get _ (by simp)]
    exact loads.schema
  · rw [get _ (by simp)]
    exact loads.managed
  · rw [get _ (by simp)]
    exact loads.events
  · rw [get _ (by simp)]
    exact loads.experiments
  · rw [same _ (by simp), listAt, listAt, get "direction_events" (by simp), get "experiments" (by simp)]
    exact loads.policy

theorem listAt_appended (doc : Json.Dict F) (key other : String) (item : Json.Dict F) :
    listAt (appended doc key item) other = if other = key then listAt doc key ++ [.obj item] else listAt doc other := by
  rw [listAt, appended, Json.get_set]
  split
  · rfl
  · rfl

/-- A journal that keeps research records stays one with one record more. -/
theorem Loads.appended {doc : Json.Dict F} (loads : Loads values doc) (research : keepsResearch doc = true) {key : String}
    (list : key = "direction_events" ∨ key = "experiments") (item : Json.Dict F) : Loads values (appended doc key item) := by
  have get (other : String) (different : other ≠ key) : Json.get (Journal.appended doc key item) other = Json.get doc other := by
    rw [Journal.appended, Json.get_set, if_neg different]
  have find (other : String) (different : other ≠ key) : Json.find? (Journal.appended doc key item) other = Json.find? doc other := by
    rw [Journal.appended, Json.find?_set, if_neg different]
  have different (other : String) (first : other ≠ "direction_events") (second : other ≠ "experiments") : other ≠ key := by
    rintro rfl
    exact list.elim first second
  have arr (other : String) (before : ∃ list, Json.get doc other = .arr list) :
      ∃ list, Json.get (Journal.appended doc key item) other = .arr list := by
    by_cases same : other = key
    · rw [same, Journal.appended, Json.get_set, if_pos rfl]
      exact ⟨_, rfl⟩
    · rw [get other same]
      exact before
  obtain ⟨policy, is_policy, empty⟩ := loads.policy
  refine ⟨?_, ?_, arr _ loads.events, arr _ loads.experiments, policy, ?_, fun disabled => ?_⟩
  · rw [get _ (different _ (by decide) (by decide))]
    exact loads.schema
  · rw [get _ (different _ (by decide) (by decide))]
    exact loads.managed
  · rw [find _ (different _ (by decide) (by decide))]
    exact is_policy
  · rw [disabled] at is_policy
    have refused : keepsResearch doc = false := by
      unfold keepsResearch Json.get
      cases here : Json.find? doc "research_records" with
      | none =>
          rw [here] at is_policy
          cases is_policy
      | some value =>
          rw [here] at is_policy
          rw [show value = .bool false from is_policy]
          rfl
    rw [refused] at research
    cases research

/-! ### Effects -/

variable (values) in
/-- What a request may make of a journal. -/
inductive Effect (outside : Outside F) (seen : Except Failure (VisibleHistory F)) (doc : Json.Dict F) : Json.Dict F → Prop
  | kept : Effect outside seen doc doc
  | event (research : keepsResearch doc = true) (open_ : Json.get doc "state" = .str "in_progress") (history : VisibleHistory F)
      (saw : seen = .ok history) (views : Views F) (directions : directionState values history = .ok views) (value event : Json.Dict F)
      (made : directionEvent values outside value history views (startedOf (listAt history.current "direction_events")) = .ok event) :
      Effect outside seen doc (appended doc "direction_events" event)
  | experiment (research : keepsResearch doc = true) (open_ : Json.get doc "state" = .str "in_progress") (experiment : Json.Dict F) :
      Effect outside seen doc (appended doc "experiments" experiment)
  | report (open_ : Json.get doc "state" = .str "in_progress") (raw : Json.Dict F) (status : String)
      (named : Json.get raw "status" = .str status) (known : status ∈ REPORT_STATUSES)
      (findings : Findings F) (found : checkReport values outside doc raw status seen = .ok findings) :
      Effect outside seen doc (Json.update doc (findings.changes doc raw status outside.now))

theorem updateDirection_effect {outside : Outside F} {value : Json.Dict F} {file : File F} {seen : Except Failure (VisibleHistory F)}
    {doc doc' : Json.Dict F} (loaded : loadJournal values file = .ok doc) (ok : updateDirection values outside value file seen = .ok doc') :
    Effect values outside seen doc doc' := by
  unfold updateDirection at ok
  obtain ⟨journal, mutable_, ok⟩ := (bind_ok_iff _ _ _).mp ok
  obtain ⟨loaded', research, open_⟩ := mutableJournal_ok mutable_
  cases Except.ok.inj (loaded.symm.trans loaded')
  obtain ⟨history, saw, ok⟩ := (bind_ok_iff _ _ _).mp ok
  obtain ⟨views, directions, ok⟩ := (bind_ok_iff _ _ _).mp ok
  obtain ⟨event, made, ok⟩ := (bind_ok_iff _ _ _).mp ok
  rw [saveJournal_ok ok]
  exact .event research ((isStr_iff _ _).mp open_) history saw views directions value event made

theorem recordExperiment_effect {outside : Outside F} {value : Json.Dict F} {file : File F} {seen : Except Failure (VisibleHistory F)}
    {doc doc' : Json.Dict F} (loaded : loadJournal values file = .ok doc) (ok : recordExperiment values outside value file seen = .ok doc') :
    Effect values outside seen doc doc' := by
  unfold recordExperiment at ok
  obtain ⟨journal, mutable_, ok⟩ := (bind_ok_iff _ _ _).mp ok
  obtain ⟨loaded', research, open_⟩ := mutableJournal_ok mutable_
  cases Except.ok.inj (loaded.symm.trans loaded')
  obtain ⟨_, _, ok⟩ := (bind_ok_iff _ _ _).mp ok
  obtain ⟨_, _, ok⟩ := (bind_ok_iff _ _ _).mp ok
  obtain ⟨experiment, _, ok⟩ := (bind_ok_iff _ _ _).mp ok
  rw [saveJournal_ok ok]
  exact .experiment research ((isStr_iff _ _).mp open_) experiment

theorem submitReport_effect {outside : Outside F} {raw : Json.Dict F} {file : File F} {seen : Except Failure (VisibleHistory F)}
    {doc doc' : Json.Dict F} (loaded : loadJournal values file = .ok doc) (ok : submitReport values outside raw file seen = .ok (.sealed doc')) :
    Effect values outside seen doc doc' := by
  unfold submitReport at ok
  obtain ⟨journal, loaded', ok⟩ := (bind_ok_iff _ _ _).mp ok
  cases Except.ok.inj (loaded.symm.trans loaded')
  obtain ⟨_, _, ok⟩ := (bind_ok_iff _ _ _).mp ok
  split at ok
  · rename_i open_
    unfold acceptReport at ok
    split at ok
    · rename_i status named
      obtain ⟨known, ok⟩ := guard_ok ok
      obtain ⟨findings, found, ok⟩ := (bind_ok_iff _ _ _).mp ok
      obtain ⟨saved, made, ok⟩ := (bind_ok_iff _ _ _).mp ok
      cases ok
      rw [saveJournal_ok made]
      exact .report ((isStr_iff _ _).mp open_) raw status named (not_not.mp known) findings found
    · cases ok
  · unfold repeatReport at ok
    split at ok
    · cases ok
    · cases ok

/-- A request leaves a journal there, and makes of it what it may. -/
theorem execute_effect (outside : Outside F) (published : Except Failure Unit) (request : Request F) {file : File F}
    (seen : Except Failure (VisibleHistory F)) {doc : Json.Dict F} (loaded : loadJournal values file = .ok doc) :
    ∃ doc', (execute values outside published request file seen).2 = some (.obj doc') ∧ Effect values outside seen doc doc' := by
  have unchanged : ∃ doc', file = some (.obj doc') ∧ Effect values outside seen doc doc' := ⟨doc, (loadJournal_obj loaded).1, .kept⟩
  unfold execute
  split
  · exact unchanged
  · cases request with
    | directionUpdate body =>
        dsimp only
        cases updated : updateDirection values outside body file seen with
        | error failure => exact unchanged
        | ok doc' => exact ⟨doc', rfl, updateDirection_effect loaded updated⟩
    | experimentRecord body =>
        dsimp only
        cases recorded : recordExperiment values outside body file seen with
        | error failure => exact unchanged
        | ok doc' => exact ⟨doc', rfl, recordExperiment_effect loaded recorded⟩
    | episodeReport body =>
        dsimp only
        cases reported : submitReport values outside body file seen with
        | error failure => exact unchanged
        | ok result =>
            cases result with
            | repeated => exact unchanged
            | sealed doc' => exact ⟨doc', rfl, submitReport_effect loaded reported⟩

end AtrexAgent.Journal
