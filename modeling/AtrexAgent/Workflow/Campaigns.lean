import AtrexAgent.Workflow.Lifecycle
import AtrexAgent.Workflow.Recording

/-! The journals of a campaign under requests on several Episodes at once: each looks at the history at one moment and writes its
own journal at a later one, and what the Directions of every Episode go through stays legal. -/

namespace AtrexAgent.Journal

open AtrexAgent.Schema

variable {F : Type} (values : Values F)

/-- A campaign with what the requests under way on its Episodes have seen; one that has seen its history holds the lock of
its Episode until it writes. -/
structure Supervisor (F : Type) extends Campaign F where
  looks : ℕ → Option (Except Failure (VisibleHistory F))

/-- The journal of an Episode, where one loads. -/
def journalAt (files : Files F) (n : ℕ) : Option (Json.Dict F) :=
  match loadJournal values (fileAt files n).join with
  | .ok doc => some doc
  | .error _ => none

/-- The transitions that an Episode has recorded. -/
def ownMoves (files : Files F) (n : ℕ) : List Move := (journalAt values files n).elim [] fun doc => moves (listAt doc "direction_events")

def hasEnded (files : Files F) (n : ℕ) : Bool := (journalAt values files n).elim false (finalized values)

/-- How a campaign goes on: Episodes begin, requests look and write, and the process may start anew between the two. -/
inductive SupervisorStep : Supervisor F → Supervisor F → Prop
  | begin (supervisor : Supervisor F) (n : ℕ) (research : Bool) (now : String) (header : Json.Dict F)
      (absent : fileAt supervisor.files n = none) (later : supervisor.asked ≤ n) (named : n < 10 ^ 8) :
      SupervisorStep supervisor
        { supervisor with files := Items.set supervisor.files (dirName n) (some (.obj (initializeJournal n research now header))) }
  | consult (supervisor : Supervisor F) (n : ℕ) :
      SupervisorStep supervisor { supervisor with toCampaign := supervisor.toCampaign.after values (fileAt supervisor.files n).join }
  | look (supervisor : Supervisor F) (n : ℕ) (file : File F) (there : fileAt supervisor.files n = some file) (free : supervisor.looks n = none) :
      SupervisorStep supervisor
        { supervisor with looks := Function.update supervisor.looks n (some (visibleHistory values supervisor.files supervisor.published file).1) }
  | write (supervisor : Supervisor F) (n : ℕ) (file : File F) (there : fileAt supervisor.files n = some file)
      (seen : Except Failure (VisibleHistory F)) (looked : supervisor.looks n = some seen) (outside : Outside F) (valid : outside.Valid)
      (fresh : ∀ m, "direction_" ++ outside.uuid ∉ proposals (ownMoves values supervisor.files m)) (published : Except Failure Unit)
      (request : Request F) :
      SupervisorStep supervisor
        { supervisor with
          files := Items.set supervisor.files (dirName n) (execute values outside published request file seen).2
          looks := Function.update supervisor.looks n none }
  | release (supervisor : Supervisor F) (n : ℕ) :
      SupervisorStep supervisor { supervisor with looks := Function.update supervisor.looks n none }
  | restart (supervisor : Supervisor F) :
      SupervisorStep supervisor { supervisor with toCampaign := { supervisor.toCampaign with published := none }, looks := fun _ => none }

/-- A campaign that has no Episode yet. -/
structure Supervisor.Begun (supervisor : Supervisor F) : Prop where
  files : supervisor.files = []
  unpublished : supervisor.published = none
  free : ∀ n, supervisor.looks n = none

/-! ### Files -/

variable {values} {files : Files F}

theorem dirName_injective {m n : ℕ} : dirName m = dirName n ↔ m = n := by
  constructor
  · intro same
    have numbers := congrArg episodeOf same
    rw [episodeOf_dirName, episodeOf_dirName] at numbers
    exact Option.some.inj numbers
  · exact congrArg dirName

theorem fileAt_set (files : Files F) (n : ℕ) (file : File F) (m : ℕ) :
    fileAt (Items.set files (dirName n) file) m = if m = n then some file else fileAt files m := by
  rw [fileAt, Items.get?_set, fileAt]
  simp only [dirName_injective]

theorem canonical_set (canonical : Canonical files) {n : ℕ} (named : n < 10 ^ 8) (file : File F) :
    Canonical (Items.set files (dirName n) file) := by
  refine ⟨Items.keys_set_nodup canonical.distinct _ _, fun item member k numbered => ?_⟩
  rcases Items.mem_set member with inside | rfl
  · exact canonical.named item inside k numbered
  · rw [episodeOf_dirName] at numbered
    cases numbered
    exact ⟨named, rfl⟩

theorem named_of_fileAt (canonical : Canonical files) {n : ℕ} {file : File F} (there : fileAt files n = some file) : n < 10 ^ 8 :=
  (canonical.named _ (Items.mem_of_get? there) n (episodeOf_dirName n)).1

variable (values) in
/-- The journal of an Episode as requests leave it. -/
structure IsJournal (n : ℕ) (doc : Json.Dict F) : Prop where
  loads : Loads values doc
  episode : Json.find? doc "episode" = some (.int n)
  recorded : ∀ event ∈ listAt doc "direction_events", IsRecorded event
  open_ : finalized values doc = false ↔ Json.get doc "state" = .str "in_progress"
  ended : finalized values doc = true → ∃ raw status, Json.get doc "submitted_report" = .obj raw ∧ Json.get raw "status" = .str status ∧
    Json.get doc "state" = .str status

variable (values) in
def Journals (files : Files F) : Prop := ∀ n file, fileAt files n = some file → ∃ doc, file = some (.obj doc) ∧ IsJournal values n doc

theorem journalAt_set (files : Files F) {n : ℕ} {doc : Json.Dict F} (loads : Loads values doc) (m : ℕ) :
    journalAt values (Items.set files (dirName n) (some (.obj doc))) m = if m = n then some doc else journalAt values files m := by
  by_cases here : m = n
  · rw [journalAt, fileAt_set, if_pos here, if_pos here, Option.join_some, loads.load]
  · rw [journalAt, fileAt_set, if_neg here, if_neg here, journalAt]

theorem ownMoves_set (files : Files F) {n : ℕ} {doc : Json.Dict F} (loads : Loads values doc) :
    ownMoves values (Items.set files (dirName n) (some (.obj doc))) =
      Function.update (ownMoves values files) n (moves (listAt doc "direction_events")) := by
  funext m
  rw [ownMoves, journalAt_set files loads, Function.update_apply]
  split
  · rfl
  · rfl

theorem hasEnded_set (files : Files F) {n : ℕ} {doc : Json.Dict F} (loads : Loads values doc) :
    hasEnded values (Items.set files (dirName n) (some (.obj doc))) = Function.update (hasEnded values files) n (finalized values doc) := by
  funext m
  rw [hasEnded, journalAt_set files loads, Function.update_apply]
  split
  · rfl
  · rfl

theorem journalAt_of_file {n : ℕ} {doc : Json.Dict F} (there : fileAt files n = some (some (.obj doc))) (loads : Loads values doc) :
    journalAt values files n = some doc := by
  rw [journalAt, there, Option.join_some, loads.load]

theorem Journals.set (journals : Journals values files) {n : ℕ} {doc : Json.Dict F} (is_journal : IsJournal values n doc) :
    Journals values (Items.set files (dirName n) (some (.obj doc))) := by
  intro m file there
  rw [fileAt_set] at there
  split at there
  · rename_i same
    cases there
    rw [same]
    exact ⟨doc, rfl, is_journal⟩
  · exact journals m file there

theorem equal_int (floats : Floats F) (n : ℤ) : equal floats (.int n : Json F) (.int n) = true := by
  simp [equal, unbool, sameNumber]

theorem Journals.own (journals : Journals values files) : OwnDirectories values files := by
  intro n doc loaded _
  cases there : fileAt files n with
  | none =>
      rw [there] at loaded
      cases loaded
  | some file =>
      obtain ⟨doc', rfl, is_journal⟩ := journals n file there
      rw [there, Option.join_some, is_journal.loads.load] at loaded
      cases loaded
      exact ⟨_, is_journal.episode, equal_int _ _⟩

/-! ### What a request makes of a journal -/

theorem isJournal_begin (n : ℕ) (research : Bool) (now : String) (header : Json.Dict F) :
    IsJournal values n (initializeJournal n research now header) := by
  refine ⟨⟨equal_int _ 2, rfl, ⟨[], rfl⟩, ⟨[], rfl⟩, research, rfl, fun _ => ⟨rfl, rfl⟩⟩, rfl, fun event member => ?_, ?_, fun ended => ?_⟩
  · exact absurd member List.not_mem_nil
  · exact ⟨fun _ => rfl, fun _ => rfl⟩
  · cases ended

theorem changes_keys (findings : Findings F) (journal raw : Json.Dict F) (status now : String) :
    ∀ item ∈ findings.changes journal raw status now, item.1 ∈ ["acceptance_checks", "candidate_kernel_digest", "state", "outcome",
      "candidate_commit", "finalized_at", "submitted_report"] := by
  have of_item {key : String} {value : Option (Json F)} {item : String × Json F} (member : item ∈ item? key value) : item.1 = key := by
    cases value with
    | none => exact absurd member List.not_mem_nil
    | some value => rw [List.mem_singleton.mp member]
  intro item member
  unfold Findings.changes at member
  rcases List.mem_append.mp member with member | sealed
  · rcases List.mem_append.mp member with checks | digest
    · rw [of_item checks]
      simp
    · rw [of_item digest]
      simp
  · simp only [List.mem_cons, List.not_mem_nil, or_false] at sealed
    rcases sealed with rfl | rfl | rfl | rfl | rfl <;> simp

theorem find?_changes (findings : Findings F) (journal raw : Json.Dict F) (status now : String) {key : String}
    (other : key ∉ ["acceptance_checks", "candidate_kernel_digest", "state", "outcome", "candidate_commit", "finalized_at", "submitted_report"]) :
    Json.find? (Json.update journal (findings.changes journal raw status now)) key = Json.find? journal key := by
  refine Json.find?_update_other journal fun item member => ?_
  rintro rfl
  exact other (changes_keys findings journal raw status now item member)

theorem get_changes (findings : Findings F) (journal raw : Json.Dict F) (status now : String) :
    Json.get (Json.update journal (findings.changes journal raw status now)) "state" = .str status ∧
      Json.get (Json.update journal (findings.changes journal raw status now)) "finalized_at" = .str now ∧
      Json.get (Json.update journal (findings.changes journal raw status now)) "submitted_report" = .obj raw := by
  unfold Findings.changes
  rw [Json.update_append]
  refine ⟨?_, ?_, ?_⟩ <;> simp

theorem finalized_report {outside : Outside F} (valid : outside.Valid) (findings : Findings F) (journal raw : Json.Dict F) (status : String) :
    finalized values (Json.update journal (findings.changes journal raw status outside.now)) = true := by
  rw [finalized, (get_changes findings journal raw status outside.now).2.1]
  simpa [truthy] using valid.time

theorem Effect.isJournal {outside : Outside F} {seen : Except Failure (VisibleHistory F)} {n : ℕ} {doc doc' : Json.Dict F} (valid : outside.Valid)
    (is_journal : IsJournal values n doc) (effect : Effect values outside seen doc doc') : IsJournal values n doc' := by
  have appended_other (key other : String) (item : Json.Dict F) (different : other ≠ key) :
      Json.find? (appended doc key item) other = Json.find? doc other := by
    rw [appended, Json.find?_set, if_neg different]
  have appended_get (key other : String) (item : Json.Dict F) (different : other ≠ key) :
      Json.get (appended doc key item) other = Json.get doc other := by
    rw [Json.get, appended_other key other item different, Json.get]
  cases effect with
  | kept => exact is_journal
  | event research open_ history saw views directions value event made =>
      refine ⟨is_journal.loads.appended research (.inl rfl) event, ?_, fun other member => ?_, ?_, fun ended => ?_⟩
      · rw [appended_other _ _ _ (by decide)]
        exact is_journal.episode
      · rw [listAt_appended, if_pos rfl, List.mem_append, List.mem_singleton] at member
        rcases member with old | rfl
        · exact is_journal.recorded other old
        · obtain ⟨id, action, recorded, _⟩ := directionEvent_recorded valid made
          exact ⟨event, id, action, rfl, recorded⟩
      · rw [finalized, appended_get _ _ _ (by decide), appended_get _ _ _ (by decide)]
        exact is_journal.open_
      · rw [finalized, appended_get _ _ _ (by decide)] at ended
        rw [appended_get _ _ _ (by decide), appended_get _ _ _ (by decide)]
        exact is_journal.ended ended
  | experiment research open_ experiment =>
      refine ⟨is_journal.loads.appended research (.inr rfl) experiment, ?_, fun other member => ?_, ?_, fun ended => ?_⟩
      · rw [appended_other _ _ _ (by decide)]
        exact is_journal.episode
      · rw [listAt_appended, if_neg (by decide)] at member
        exact is_journal.recorded other member
      · rw [finalized, appended_get _ _ _ (by decide), appended_get _ _ _ (by decide)]
        exact is_journal.open_
      · rw [finalized, appended_get _ _ _ (by decide)] at ended
        rw [appended_get _ _ _ (by decide), appended_get _ _ _ (by decide)]
        exact is_journal.ended ended
  | report open_ raw status named known findings found =>
      have same (key : String) (other : key ∉ ["acceptance_checks", "candidate_kernel_digest", "state", "outcome", "candidate_commit",
          "finalized_at", "submitted_report"]) := find?_changes findings doc raw status outside.now other
      refine ⟨is_journal.loads.congr fun key member => ?_, ?_, fun event member => ?_, ?_, fun _ => ?_⟩
      · apply same
        simp only [List.mem_cons, List.not_mem_nil, or_false] at member
        rcases member with rfl | rfl | rfl | rfl | rfl <;> decide
      · rw [same _ (by decide)]
        exact is_journal.episode
      · rw [listAt, Json.get, same _ (by decide)] at member
        exact is_journal.recorded event member
      · rw [finalized_report valid, (get_changes findings doc raw status outside.now).1]
        constructor
        · intro impossible
          cases impossible
        · intro impossible
          cases impossible
          exact absurd known (by decide)
      · obtain ⟨state, _, submitted⟩ := get_changes findings doc raw status outside.now
        exact ⟨raw, status, submitted, named, state⟩

/-! ### What a request sees -/

theorem mem_activeDirections {views : Views F} (agree : views.Agree) {id : String} :
    id ∈ activeDirections views.directions ↔ Items.get? views.statuses id = some .inProgress := by
  rw [activeDirections, List.mem_map, ← agree.status]
  constructor
  · rintro ⟨item, member, rfl⟩
    obtain ⟨inside, active⟩ := List.mem_filter.mp member
    rw [agree.keyed item inside, Items.get?_of_mem agree.once inside, Option.map_some]
    exact congrArg some (of_decide_eq_true active)
  · intro active
    obtain ⟨direction, found, status⟩ := Option.map_eq_some_iff.mp active
    have inside := Items.mem_of_get? found
    exact ⟨(id, direction), List.mem_filter.mpr ⟨inside, decide_eq_true status⟩, agree.keyed _ inside⟩

theorem activeDirections_nil {views : Views F} (agree : views.Agree) : activeDirections views.directions = [] ↔ Idle views.statuses := by
  rw [List.eq_nil_iff_forall_not_mem]
  exact forall_congr' fun id => not_congr (mem_activeDirections agree)

theorem activeDirections_atMostOne {views : Views F} (agree : views.Agree) (one : AtMostOne views.statuses) :
    (activeDirections views.directions).length ≤ 1 := by
  have nodup : (activeDirections views.directions).Nodup := by
    have same : (views.directions.filter fun item => item.2.status = .inProgress).map (fun item => item.2.directionId) =
        (views.directions.filter fun item => item.2.status = .inProgress).map Prod.fst :=
      List.map_congr_left fun item member => agree.keyed item (List.mem_of_mem_filter member)
    rw [activeDirections, same]
    exact agree.once.sublist (List.filter_sublist.map Prod.fst)
  by_contra more
  obtain ⟨first, second, rest, list⟩ : ∃ first second rest, activeDirections views.directions = first :: second :: rest := by
    match activeDirections views.directions, more with
    | [], more => exact absurd (Nat.zero_le 1) more
    | [_], more => exact absurd (Nat.le_refl 1) more
    | first :: second :: rest, _ => exact ⟨first, second, rest, rfl⟩
  have active (id : String) (member : id ∈ activeDirections views.directions) := (mem_activeDirections agree).mp member
  have same := one first second (active first (by rw [list]; simp)) (active second (by rw [list]; simp))
  rw [list, same] at nodup
  simp at nodup

theorem startedOf_recorded {events : List (Json F)} (recorded : ∀ event ∈ events, IsRecorded event) :
    startedOf events = startedBy [] (moves events) := by
  unfold startedOf startedBy
  generalize ([] : List String) = started
  induction events generalizing started with
  | nil => rfl
  | cons event events ih =>
      obtain ⟨fields, id, action, rfl, here⟩ := recorded event List.mem_cons_self
      rw [List.foldl_cons, moves, List.filterMap_cons_some here.move, List.foldl_cons, ← moves,
        ih (fun other member => recorded other (List.mem_cons_of_mem _ member))]
      congr 1
      dsimp only
      rw [here.directionId, string]
      have named : isStr "start" (Json.get fields "action") = true ↔ action = .start := by
        have parsed : Json.get fields "action" = .str Action.start.text ↔ some action = some Action.start := by
          rw [← here.parsed]
          exact Action.parse_iff.symm
        rw [isStr_iff]
        exact parsed.trans (Option.some.injEq _ _).to_iff
      by_cases starts : action = .start
      · rw [if_pos (named.mpr starts), starts]
      · rw [if_neg fun same => starts (named.mp same), addStarted, if_neg fun both => starts both.1]

/-- The journals before an Episode are replayed, and what they end in is what their transitions come to. -/
theorem replay_runs (journals : Journals values files) {numbers : List ℕ} {history : History F} (agree : history.views.Agree) {before : Statuses}
    (begins : runEpisodes history.views.statuses ((numbers.filter (hasEnded values files)).map (ownMoves values files)) = some before) :
    ∃ history', (those (fileAt files) numbers).foldlM (replayJournal values) history = .ok history' ∧ history'.views.Agree ∧
      history'.views.statuses = before := by
  induction numbers generalizing history with
  | nil =>
      cases begins
      exact ⟨history, rfl, agree, rfl⟩
  | cons n numbers ih =>
      cases there : fileAt files n with
      | none =>
          have open_ : hasEnded values files n = false := by
            rw [hasEnded, journalAt, there]
            rfl
          rw [List.filter_cons_of_neg (by rw [open_]; exact Bool.false_ne_true)] at begins
          rw [those, List.filterMap_cons_none (by rw [there]; rfl)]
          exact ih agree begins
      | some file =>
          obtain ⟨doc, rfl, is_journal⟩ := journals n file there
          have here := journalAt_of_file there is_journal.loads
          have found : historical values (n, some (.obj doc)) = .ok (.int n, doc) := by
            rw [historical, is_journal.loads.load]
            dsimp only
            rw [is_journal.episode]
            exact if_pos (equal_int _ _)
          have ended : hasEnded values files n = finalized values doc := by rw [hasEnded, here, Option.elim_some]
          rw [those, List.filterMap_cons_some (by rw [there]; rfl), List.foldlM_cons, replayJournal, found, ← those]
          cases final : finalized values doc with
          | false =>
              rw [List.filter_cons_of_neg (by rw [ended, final]; exact Bool.false_ne_true)] at begins
              dsimp only [bind, Except.bind]
              rw [if_neg (by rw [final]; exact Bool.false_ne_true)]
              exact ih agree begins
          | true =>
              rw [List.filter_cons_of_pos (by rw [ended, final]), List.map_cons] at begins
              obtain ⟨middle, first, rest⟩ := runEpisodes_cons begins
              rw [ownMoves, here, Option.elim_some] at first
              obtain ⟨history', added, statuses, agree'⟩ := addJournal_runs values (.int n) is_journal.recorded agree first
              rw [← statuses] at rest
              obtain ⟨history'', replayed, done⟩ := ih agree' rest
              refine ⟨history'', ?_, done⟩
              rw [← replayed]
              dsimp only [Except.bind]
              rw [if_pos final, added]
              rfl

/-- The history that an Episode is shown. -/
theorem visible_runs {campaign : Campaign F} (kept : campaign.Kept values) (journals : Journals values campaign.files)
    (legal : Legal (ownMoves values campaign.files) (hasEnded values campaign.files)) {n : ℕ} {doc : Json.Dict F}
    (there : fileAt campaign.files n = some (some (.obj doc))) :
    ∃ history : History F, (visibleHistory values campaign.files campaign.published (some (.obj doc))).1 = .ok (history.seen doc) ∧
      history.views.Agree ∧
      runEpisodes [] (endedBelow (ownMoves values campaign.files) (hasEnded values campaign.files) n) = some history.views.statuses := by
  obtain ⟨before, after, begins, _⟩ := legal.runs n
  have empty : (History.empty : History F).views.Agree := ⟨distinct_nil, List.nodup_nil, fun _ member => absurd member List.not_mem_nil, fun _ => rfl⟩
  obtain ⟨history, replayed_, agree, statuses⟩ := replay_runs journals empty begins
  obtain ⟨doc', same, is_journal⟩ := journals n _ there
  cases same
  refine ⟨history, ?_, agree, by rw [statuses, begins]⟩
  have current : currentOf values (some (.obj doc)) = .ok (doc, n) := by
    rw [currentOf, is_journal.loads.load]
    dsimp only
    rw [Json.get, is_journal.episode]
    rfl
  rw [visibleHistory_eq kept.canonical kept.own kept.follows, replayed, current]
  dsimp only [Except.bind]
  rw [replay, replayed_]
  rfl

/-! ### What a request changes of a campaign -/

theorem directionState_runs {history : History F} (agree : history.views.Agree) {n : ℕ} {doc : Json.Dict F} (is_journal : IsJournal values n doc)
    {after : Statuses × List String} (ran : runMoves history.views.statuses [] (moves (listAt doc "direction_events")) = some after) :
    ∃ views, directionState values (history.seen doc) = .ok views ∧ views.statuses = after.1 ∧ views.Agree := by
  obtain ⟨views, applied, statuses, agree'⟩ := applyDirectionEvents_runs values is_journal.recorded (Json.get doc "episode") agree ran
  refine ⟨⟨associateExperiments values views.directions (listAt doc "experiments"), views.statuses⟩, ?_, statuses, agree'.associateAll _⟩
  have seen_views : (⟨(history.seen doc).directions, (history.seen doc).statuses⟩ : Views F) = history.views := rfl
  rw [directionState, seen_views]
  change Except.map _ (applyDirectionEvents values (Json.get doc "episode") (listAt doc "direction_events") history.views) = _
  rw [applied]
  rfl

theorem no_moves_of_disabled {n : ℕ} {doc : Json.Dict F} (is_journal : IsJournal values n doc) (disabled : keepsResearch doc = false) :
    moves (listAt doc "direction_events") = [] := by
  obtain ⟨research, policy, empty⟩ := is_journal.loads.policy
  have found : Json.get doc "research_records" = .bool false := by
    unfold keepsResearch at disabled
    split at disabled
    · assumption
    · cases disabled
  have off : research = false := by
    unfold Json.get at found
    cases here : Json.find? doc "research_records" with
    | none =>
        rw [here] at found
        cases found
    | some value =>
        rw [here] at found policy
        rw [show value = .bool false from found] at policy
        cases policy
        rfl
  rw [(empty off).1]
  rfl

/-- A report is accepted of an Episode without a Direction in progress only. -/
theorem checkReport_idle {outside : Outside F} {history : History F} (agree : history.views.Agree) (idle : Idle history.views.statuses) {n : ℕ}
    {doc raw : Json.Dict F} (is_journal : IsJournal values n doc) {status : String} {findings : Findings F}
    (found : checkReport values outside doc raw status (.ok (history.seen doc)) = .ok findings) {after : Statuses × List String}
    (ran : runMoves history.views.statuses [] (moves (listAt doc "direction_events")) = some after) : Idle after.1 := by
  unfold checkReport at found
  obtain ⟨_, _, found⟩ := (bind_ok_iff _ _ _).mp found
  obtain ⟨_, _, found⟩ := (bind_ok_iff _ _ _).mp found
  obtain ⟨evidence, checked, _⟩ := (bind_ok_iff _ _ _).mp found
  unfold validateReportEvidence at checked
  split at checked
  · obtain ⟨_, checked⟩ := guard_ok checked
    obtain ⟨history', same, checked⟩ := (bind_ok_iff _ _ _).mp checked
    cases same
    obtain ⟨views, state, checked⟩ := (bind_ok_iff _ _ _).mp checked
    obtain ⟨none_active, _⟩ := guard_ok checked
    obtain ⟨views', state', statuses, agree'⟩ := directionState_runs agree is_journal ran
    cases Except.ok.inj (state.symm.trans state')
    rw [← statuses, ← activeDirections_nil agree', ← List.isEmpty_iff]
    exact not_not.mp none_active
  · rename_i disabled
    rw [no_moves_of_disabled is_journal (by simpa using disabled)] at ran
    cases ran
    exact idle

/-- Whatever a request makes of its journal, the campaign stays legal, and so does what others have seen. -/
theorem Effect.legal {outside : Outside F} (valid : outside.Valid) {own : ℕ → List Move} {ended : ℕ → Bool} {n : ℕ} {doc doc' : Json.Dict F}
    (is_journal : IsJournal values n doc) (own_n : own n = moves (listAt doc "direction_events")) (ended_n : ended n = finalized values doc)
    (legal : Legal own ended) {history : History F} (agree : history.views.Agree) (overtaken : Overtaken own ended n history.views.statuses)
    (fresh : ∀ m, "direction_" ++ outside.uuid ∉ proposals (own m)) (effect : Effect values outside (.ok (history.seen doc)) doc doc') :
    Legal (Function.update own n (moves (listAt doc' "direction_events"))) (Function.update ended n (finalized values doc')) ∧
      ∀ m statuses, m ≠ n → Overtaken own ended m statuses →
        Overtaken (Function.update own n (moves (listAt doc' "direction_events"))) (Function.update ended n (finalized values doc')) m statuses := by
  have not_ended (open_ : Json.get doc "state" = .str "in_progress") : ended n = false := by rw [ended_n, is_journal.open_.mpr open_]
  obtain ⟨seen, ran⟩ := overtaken.runs
  have here := ran
  rw [own_n] at here
  cases effect with
  | kept =>
      rw [← own_n, ← ended_n, Function.update_eq_self, Function.update_eq_self]
      exact ⟨legal, fun _ _ _ overtaken => overtaken⟩
  | experiment research open_ experiment =>
      have same_moves : moves (listAt (appended doc "experiments" experiment) "direction_events") = own n := by
        rw [listAt_appended, if_neg (by decide), own_n]
      have same_end : finalized values (appended doc "experiments" experiment) = ended n := by
        rw [finalized, appended, Json.get_set, if_neg (by decide), ended_n, finalized]
      rw [same_moves, same_end, Function.update_eq_self, Function.update_eq_self]
      exact ⟨legal, fun _ _ _ overtaken => overtaken⟩
  | event research open_ history' saw views directions value event made =>
      cases saw
      obtain ⟨views', state, statuses, _⟩ := directionState_runs agree is_journal here
      cases Except.ok.inj (directions.symm.trans state)
      obtain ⟨id, action, recorded, admitted, named⟩ := directionEvent_recorded valid made
      rw [statuses, show listAt (history.seen doc).current "direction_events" = listAt doc "direction_events" from rfl,
        startedOf_recorded is_journal.recorded, ← runMoves_startedBy here] at admitted
      have more : moves (listAt (appended doc "direction_events" event) "direction_events") = own n ++ [(id, action)] := by
        rw [listAt_appended, if_pos rfl, moves_append, own_n, moves, moves, List.filterMap_cons_some recorded.move]
        rfl
      have same_end : finalized values (appended doc "direction_events" event) = ended n := by
        rw [finalized, appended, Json.get_set, if_neg (by decide), ended_n, finalized]
      rw [more, same_end, Function.update_eq_self]
      refine ⟨legal.moveSeen overtaken (not_ended open_) ran admitted fun proposes m => named proposes ▸ fresh m, fun m statuses' different other => ?_⟩
      exact other.move different (not_ended open_)
  | report open_ raw status named known findings found =>
      have same_moves : moves (listAt (Json.update doc (findings.changes doc raw status outside.now)) "direction_events") = own n := by
        rw [listAt, Json.get, find?_changes findings doc raw status outside.now (by decide), own_n]
        rfl
      rw [same_moves, finalized_report valid, Function.update_eq_self]
      have idle : Idle history.views.statuses := by
        obtain ⟨before, begins, below, _⟩ := overtaken.since
        obtain ⟨_, _, begins', idle, _⟩ := legal.runs n
        cases begins.symm.trans begins'
        exact fun id active => idle id ((below.active id).mp active)
      obtain ⟨before, after, begins, now, idle_now⟩ := overtaken.idle legal ran (checkReport_idle agree idle is_journal found here)
      exact ⟨legal.finish begins now idle_now (not_ended open_),
        fun m statuses _ other => other.finish legal begins now idle_now (not_ended open_)⟩

/-- A request changes nothing of a journal that is finalized. -/
theorem Effect.sealed {outside : Outside F} {seen : Except Failure (VisibleHistory F)} {n : ℕ} {doc doc' : Json.Dict F}
    (is_journal : IsJournal values n doc) (ended : finalized values doc = true) (effect : Effect values outside seen doc doc') : doc' = doc := by
  have closed (open_ : Json.get doc "state" = .str "in_progress") : False := by
    rw [is_journal.open_.mpr open_] at ended
    cases ended
  cases effect with
  | kept => rfl
  | event _ open_ => exact (closed open_).elim
  | experiment _ open_ => exact (closed open_).elim
  | report open_ => exact (closed open_).elim

/-! ### Runs -/

variable (values) in
structure Supervisor.Sound (supervisor : Supervisor F) : Prop where
  kept : supervisor.toCampaign.Kept values
  journals : Journals values supervisor.files
  legal : Legal (ownMoves values supervisor.files) (hasEnded values supervisor.files)
  looks : ∀ n seen, supervisor.looks n = some seen → ∃ (doc : Json.Dict F) (history : History F),
    fileAt supervisor.files n = some (some (.obj doc)) ∧ seen = .ok (history.seen doc) ∧ history.views.Agree ∧
      Overtaken (ownMoves values supervisor.files) (hasEnded values supervisor.files) n history.views.statuses

theorem sound_begun {supervisor : Supervisor F} (begun : supervisor.Begun) : supervisor.Sound values := by
  obtain ⟨⟨files, published, asked⟩, looks⟩ := supervisor
  obtain ⟨rfl, rfl, free⟩ := begun
  have no_moves : ownMoves values ([] : Files F) = fun _ => [] := rfl
  have no_end : hasEnded values ([] : Files F) = fun _ => false := rfl
  refine ⟨⟨⟨List.nodup_nil, fun _ member => absurd member List.not_mem_nil⟩, fun n doc loaded => ?_, fun _ here => ?_, fun _ here => ?_⟩,
    fun n file there => ?_, ?_, fun n seen looked => ?_⟩
  · cases loaded
  · cases here
  · cases here
  · cases there
  · exact no_moves ▸ no_end ▸ legal_empty
  · rw [free n] at looked
    cases looked

theorem Supervisor.Sound.look {supervisor : Supervisor F} (sound : supervisor.Sound values) {n : ℕ} {file : File F}
    (there : fileAt supervisor.files n = some file) : ∃ (doc : Json.Dict F) (history : History F),
      file = some (.obj doc) ∧ (visibleHistory values supervisor.files supervisor.published file).1 = .ok (history.seen doc) ∧ history.views.Agree ∧
        Overtaken (ownMoves values supervisor.files) (hasEnded values supervisor.files) n history.views.statuses := by
  obtain ⟨doc, rfl, _⟩ := sound.journals n file there
  obtain ⟨history, shown, agree, begins⟩ := visible_runs sound.kept sound.journals sound.legal there
  exact ⟨doc, history, rfl, shown, agree, sound.legal.look begins⟩

theorem Supervisor.Sound.begin {supervisor : Supervisor F} (sound : supervisor.Sound values) {n : ℕ} (absent : fileAt supervisor.files n = none)
    (later : supervisor.asked ≤ n) (named : n < 10 ^ 8) {doc : Json.Dict F} (is_journal : IsJournal values n doc)
    (no_moves : moves (listAt doc "direction_events") = []) (open_ : finalized values doc = false) :
    Supervisor.Sound values { supervisor with files := Items.set supervisor.files (dirName n) (some (.obj doc)) } := by
  have nothing : journalAt values supervisor.files n = none := by
    rw [journalAt, absent]
    rfl
  have same_moves : ownMoves values (Items.set supervisor.files (dirName n) (some (.obj doc))) = ownMoves values supervisor.files := by
    rw [ownMoves_set _ is_journal.loads, no_moves]
    refine Function.update_eq_self_iff.mpr ?_
    rw [ownMoves, nothing]
    rfl
  have same_end : hasEnded values (Items.set supervisor.files (dirName n) (some (.obj doc))) = hasEnded values supervisor.files := by
    rw [hasEnded_set _ is_journal.loads, open_]
    refine Function.update_eq_self_iff.mpr ?_
    rw [hasEnded, nothing]
    rfl
  have other (m : ℕ) (file : File F) (there : fileAt supervisor.files m = some file) : m ≠ n := by
    rintro rfl
    rw [absent] at there
    cases there
  refine ⟨sound.kept.step (.write ⟨canonical_set sound.kept.canonical named _, (sound.journals.set is_journal).own,
    fun m doc' loaded _ => ?_, fun m less none_there => ?_⟩), sound.journals.set is_journal, ?_, fun m seen looked => ?_⟩
  · rw [fileAt_set, if_neg]
    cases there : fileAt supervisor.files m with
    | none =>
        rw [there] at loaded
        cases loaded
    | some file => exact other m file there
  · rw [fileAt_set, if_neg (Nat.ne_of_lt (Nat.lt_of_lt_of_le less later))]
    exact none_there
  · rw [same_moves, same_end]
    exact sound.legal
  · obtain ⟨doc', history, there, rest⟩ := sound.looks m seen looked
    refine ⟨doc', history, ?_, ?_⟩
    · rw [fileAt_set, if_neg (other m _ there)]
      exact there
    · rw [same_moves, same_end]
      exact rest

theorem Supervisor.Sound.write {supervisor : Supervisor F} (sound : supervisor.Sound values) {n : ℕ} {file : File F}
    (there : fileAt supervisor.files n = some file) {seen : Except Failure (VisibleHistory F)} (looked : supervisor.looks n = some seen)
    {outside : Outside F} (valid : outside.Valid) (fresh : ∀ m, "direction_" ++ outside.uuid ∉ proposals (ownMoves values supervisor.files m))
    (published : Except Failure Unit) (request : Request F) :
    Supervisor.Sound values { supervisor with
      files := Items.set supervisor.files (dirName n) (execute values outside published request file seen).2
      looks := Function.update supervisor.looks n none } := by
  obtain ⟨doc, history, there', rfl, agree, overtaken⟩ := sound.looks n seen looked
  cases there.symm.trans there'
  obtain ⟨_, same, is_journal⟩ := sound.journals n _ there
  cases same
  obtain ⟨doc', written, effect⟩ := execute_effect outside published request (.ok (history.seen doc)) is_journal.loads.load
  have is_journal' := effect.isJournal valid is_journal
  have here := journalAt_of_file there is_journal.loads
  have own_n : ownMoves values supervisor.files n = moves (listAt doc "direction_events") := by rw [ownMoves, here, Option.elim_some]
  have ended_n : hasEnded values supervisor.files n = finalized values doc := by rw [hasEnded, here, Option.elim_some]
  obtain ⟨legal, others⟩ := effect.legal valid is_journal own_n ended_n sound.legal agree overtaken fresh
  rw [written]
  refine ⟨sound.kept.step (.write ⟨canonical_set sound.kept.canonical (named_of_fileAt sound.kept.canonical there) _,
    (sound.journals.set is_journal').own, fun m doc'' loaded ended => ?_, fun m _ none_there => ?_⟩), sound.journals.set is_journal', ?_,
    fun m seen' looked' => ?_⟩
  · rw [fileAt_set]
    split
    · rename_i same
      rw [same, there, Option.join_some, is_journal.loads.load] at loaded
      cases loaded
      rw [same, there, effect.sealed is_journal ended]
    · rfl
  · rw [fileAt_set, if_neg]
    · exact none_there
    · rintro rfl
      rw [there] at none_there
      cases none_there
  · rw [ownMoves_set _ is_journal'.loads, hasEnded_set _ is_journal'.loads]
    exact legal
  · dsimp only at looked'
    have different : m ≠ n := by
      rintro rfl
      rw [Function.update_self] at looked'
      cases looked'
    rw [Function.update_of_ne different] at looked'
    obtain ⟨doc'', history', there'', rfl, agree', overtaken'⟩ := sound.looks m _ looked'
    refine ⟨doc'', history', ?_, rfl, agree', ?_⟩
    · rw [fileAt_set, if_neg different]
      exact there''
    · rw [ownMoves_set _ is_journal'.loads, hasEnded_set _ is_journal'.loads]
      exact others m _ different overtaken'

theorem Supervisor.Sound.step {supervisor supervisor' : Supervisor F} (sound : supervisor.Sound values)
    (taken : SupervisorStep values supervisor supervisor') : supervisor'.Sound values := by
  cases taken with
  | begin n research now header absent later named =>
      exact sound.begin absent later named (isJournal_begin n research now header) rfl rfl
  | consult n => exact ⟨sound.kept.step (.request _ _), sound.journals, sound.legal, sound.looks⟩
  | look n file there free =>
      refine ⟨sound.kept, sound.journals, sound.legal, fun m seen looked => ?_⟩
      dsimp only at looked
      by_cases here : m = n
      · rw [here, Function.update_self] at looked
        obtain ⟨doc, history, rfl, shown, rest⟩ := sound.look there
        rw [here]
        exact ⟨doc, history, there, (Option.some.inj looked).symm.trans shown, rest⟩
      · rw [Function.update_of_ne here] at looked
        exact sound.looks m seen looked
  | write n file there seen looked outside valid fresh published request => exact sound.write there looked valid fresh published request
  | release n =>
      refine ⟨sound.kept, sound.journals, sound.legal, fun m seen looked => sound.looks m seen ?_⟩
      dsimp only at looked
      by_cases here : m = n
      · rw [here, Function.update_self] at looked
        cases looked
      · rwa [Function.update_of_ne here] at looked
  | restart =>
      refine ⟨sound.kept.step (.restart _), sound.journals, sound.legal, fun m seen looked => ?_⟩
      cases looked

/-- However requests on several Episodes interleave, every Episode is shown a history, its events replay on it one after another,
at most one Direction is in progress after each, at most three have been started, and none is in progress once its report is
accepted. -/
theorem directions_lifecycle {supervisor : Supervisor F} (run : Transition.Reachable Supervisor.Begun (SupervisorStep values) supervisor)
    {n : ℕ} {doc : Json.Dict F} (here : journalAt values supervisor.files n = some doc) :
    ∃ history, (visibleHistory values supervisor.files supervisor.published (fileAt supervisor.files n).join).1 = .ok history ∧
      (∀ k, ∃ views, applyDirectionEvents values (Json.get doc "episode") ((listAt doc "direction_events").take k)
          ⟨history.directions, history.statuses⟩ = .ok views ∧ (activeDirections views.directions).length ≤ 1 ∧
        (startedOf ((listAt doc "direction_events").take k)).length ≤ 3) ∧
      ∃ views, directionState values history = .ok views ∧ (activeDirections views.directions).length ≤ 1 ∧
        (finalized values doc = true → activeDirections views.directions = []) := by
  have sound : supervisor.Sound values := run.invariant (fun _ begun => sound_begun begun) fun _ _ sound taken => sound.step taken
  cases there : fileAt supervisor.files n with
  | none =>
      rw [journalAt, there] at here
      cases here
  | some file =>
      obtain ⟨doc', rfl, is_journal⟩ := sound.journals n file there
      cases Option.some.inj (here.symm.trans (journalAt_of_file there is_journal.loads))
      obtain ⟨history, shown, agree, begins⟩ := visible_runs sound.kept sound.journals sound.legal there
      obtain ⟨before, after, begins', idle, ran, ended⟩ := sound.legal.runs n
      cases begins.symm.trans begins'
      rw [ownMoves, here, Option.elim_some] at ran
      rw [hasEnded, here, Option.elim_some] at ended
      refine ⟨history.seen doc, shown, fun k => ?_, ?_⟩
      · have recorded : ∀ event ∈ (listAt doc "direction_events").take k, IsRecorded event :=
          fun event member => is_journal.recorded event (List.mem_of_mem_take member)
        rw [← List.take_append_drop k (listAt doc "direction_events"), moves_append, runMoves_append] at ran
        obtain ⟨middle, first, _⟩ := Option.bind_eq_some_iff.mp ran
        obtain ⟨views, applied, statuses, agree'⟩ := applyDirectionEvents_runs values recorded (Json.get doc "episode") agree first
        refine ⟨views, applied, activeDirections_atMostOne agree' ?_, ?_⟩
        · rw [statuses]
          exact runMoves_atMostOne agree.distinct idle.atMostOne first
        · rw [startedOf_recorded recorded, ← runMoves_startedBy first]
          have few : ([] : List String).length ≤ 3 := Nat.zero_le 3
          exact runMoves_started few first
      · obtain ⟨views, state, statuses, agree'⟩ := directionState_runs agree is_journal ran
        refine ⟨views, state, activeDirections_atMostOne agree' ?_, fun final => ?_⟩
        · rw [statuses]
          exact runMoves_atMostOne agree.distinct idle.atMostOne ran
        · rw [activeDirections_nil agree', statuses]
          exact ended final

/-- A request that asks for nothing outside of the journals. -/
def quiet : Outside Empty where
  legacy := .ok ()
  uuid := "00000000000000000000000000000001"
  eventUuid := "00000000000000000000000000000002"
  now := "2026-01-01T00:00:00Z"
  evidence := fun _ => .error (.value "Gateway Record is not available in this Campaign; use record-read to check its ID")
  attribution := fun _ => .ok []
  diagnostics := fun _ => .ok none
  source := .ok "sha256:0"
  validateCandidate := none
  commitCandidate := .ok ""
  commitViolation := fun _ => none
  supervisorGit := true
  fits := fun _ => true

theorem quiet_valid : quiet.Valid where
  id := by decide +kernel
  now := ⟨"2026-01-01T00:00:00Z", rfl⟩
  time := by decide

/-- A campaign with one Episode, whose first request has looked at the history. -/
def firstJournal : File Empty := some (.obj (initializeJournal 1 true "2026-01-01T00:00:00Z" []))

def firstSeen : Except Failure (VisibleHistory Empty) := (visibleHistory plainValues (Items.set [] (dirName 1) firstJournal) none firstJournal).1

def firstLook : Supervisor Empty := ⟨⟨Items.set [] (dirName 1) firstJournal, none, 0⟩, Function.update (fun _ => none) 1 (some firstSeen)⟩

def afterFirst (request : Request Empty) : Supervisor Empty :=
  { firstLook with
    files := Items.set firstLook.files (dirName 1) (execute plainValues quiet (.ok ()) request firstJournal firstSeen).2
    looks := Function.update firstLook.looks 1 none }

theorem firstJournal_there : fileAt firstLook.files 1 = some firstJournal := (fileAt_set [] 1 firstJournal 1).trans (if_pos rfl)

theorem firstLook_looked : firstLook.looks 1 = some firstSeen := by
  dsimp only [firstLook]
  rw [Function.update_self]

theorem afterFirst_reached (request : Request Empty) :
    Transition.Reachable Supervisor.Begun (SupervisorStep plainValues) (afterFirst request) := by
  have begun : Supervisor.Begun (⟨⟨[], none, 0⟩, fun _ => none⟩ : Supervisor Empty) := ⟨rfl, rfl, fun _ => rfl⟩
  have no_moves (m : ℕ) : ownMoves plainValues firstLook.files m = [] := by
    have nothing : ownMoves plainValues firstLook.files = Function.update (fun _ => []) 1 [] :=
      ownMoves_set [] (isJournal_begin 1 true "2026-01-01T00:00:00Z" []).loads
    rw [nothing, Function.update_apply]
    split
    · rfl
    · rfl
  refine (((Transition.Reachable.initial begun).step (.begin _ 1 true "2026-01-01T00:00:00Z" [] rfl (Nat.zero_le 1) (by decide))).step
    (.look _ 1 firstJournal firstJournal_there rfl)).step
    (.write firstLook 1 firstJournal firstJournal_there firstSeen firstLook_looked quiet quiet_valid (fun m => ?_) (.ok ()) request)
  rw [no_moves]
  exact List.not_mem_nil

def firstProposal : Json.Dict Empty :=
  [("action", .str "propose"), ("name", .str "tiling"), ("hypothesis", .str "smaller tiles"), ("rationale", .str "occupancy"),
    ("plan", .arr [.str "halve the tiles"]), ("success_criteria", .arr [.str "faster"]), ("stop_conditions", .arr [.str "slower"])]

theorem directions_lifecycle_proposed : ∃ doc,
    ownMoves plainValues (afterFirst (.directionUpdate firstProposal)).files 1 = [("direction_00000000000000000000000000000001", .propose)] ∧
    journalAt plainValues (afterFirst (.directionUpdate firstProposal)).files 1 = some doc ∧
    ∃ history, (visibleHistory plainValues (afterFirst (.directionUpdate firstProposal)).files (afterFirst (.directionUpdate firstProposal)).published
        (fileAt (afterFirst (.directionUpdate firstProposal)).files 1).join).1 = .ok history ∧
      (∀ k, ∃ views, applyDirectionEvents plainValues (Json.get doc "episode") ((listAt doc "direction_events").take k)
          ⟨history.directions, history.statuses⟩ = .ok views ∧ (activeDirections views.directions).length ≤ 1 ∧
        (startedOf ((listAt doc "direction_events").take k)).length ≤ 3) ∧
      ∃ views, directionState plainValues history = .ok views ∧ (activeDirections views.directions).length ≤ 1 ∧
        (finalized plainValues doc = true → activeDirections views.directions = []) := by
  have proposed : ownMoves plainValues (afterFirst (.directionUpdate firstProposal)).files 1 =
      [("direction_00000000000000000000000000000001", .propose)] := by decide +kernel
  cases here : journalAt plainValues (afterFirst (.directionUpdate firstProposal)).files 1 with
  | none =>
      rw [ownMoves, here] at proposed
      cases proposed
  | some doc => exact ⟨doc, proposed, rfl, directions_lifecycle (afterFirst_reached _) here⟩

/-! ### Episodes that have ended -/

theorem Supervisor.Sound.sealed {supervisor supervisor' : Supervisor F} (sound : supervisor.Sound values) {n : ℕ}
    (ended : hasEnded values supervisor.files n = true) (taken : SupervisorStep values supervisor supervisor') :
    fileAt supervisor'.files n = fileAt supervisor.files n := by
  cases taken with
  | begin m research now header absent later named =>
      dsimp only
      rw [fileAt_set, if_neg]
      rintro rfl
      rw [hasEnded, journalAt, absent] at ended
      cases ended
  | write m file there seen looked outside valid fresh published request =>
      dsimp only
      rw [fileAt_set]
      split
      · rename_i same
        subst same
        obtain ⟨doc, rfl, is_journal⟩ := sound.journals n file there
        obtain ⟨doc', written, effect⟩ := execute_effect outside published request seen is_journal.loads.load
        rw [hasEnded, journalAt_of_file there is_journal.loads] at ended
        rw [written, there, effect.sealed is_journal ended]
      · rfl
  | consult m => rfl
  | look m => rfl
  | release m => rfl
  | restart => rfl

theorem hasEnded_congr {files' : Files F} {n : ℕ} (same : fileAt files' n = fileAt files n) : hasEnded values files' n = hasEnded values files n := by
  rw [hasEnded, hasEnded, journalAt, journalAt, same]

theorem mutableJournal_sealed {n : ℕ} {doc : Json.Dict F} (is_journal : IsJournal values n doc) (ended : finalized values doc = true) :
    ∃ failure, mutableJournal values (some (.obj doc)) = .error failure := by
  cases mutable_ : mutableJournal values (some (.obj doc)) with
  | error failure => exact ⟨failure, rfl⟩
  | ok journal =>
      obtain ⟨loaded, _, open_⟩ := mutableJournal_ok mutable_
      cases Except.ok.inj (is_journal.loads.load.symm.trans loaded)
      rw [is_journal.open_.mpr ((isStr_iff _ _).mp open_)] at ended
      cases ended

/-- The report that ended an Episode stays in its journal, which nothing changes any more; it is answered as it was when it is
submitted again, and everything else is refused. -/
theorem report_stays {supervisor later : Supervisor F} (run : Transition.Reachable Supervisor.Begun (SupervisorStep values) supervisor)
    {n : ℕ} (ended : hasEnded values supervisor.files n = true) (steps : Relation.ReflTransGen (SupervisorStep values) supervisor later) :
    fileAt later.files n = fileAt supervisor.files n ∧ ∃ doc raw, journalAt values later.files n = some doc ∧
      Json.get doc "submitted_report" = .obj raw ∧ Json.get doc "state" = Json.get raw "status" ∧
      ∀ outside published seen, outside.legacy = .ok () →
        (∀ body, ∃ failure, (execute values outside published (.directionUpdate body) (fileAt later.files n).join seen).1 = .error failure) ∧
        (∀ body, ∃ failure, (execute values outside published (.experimentRecord body) (fileAt later.files n).join seen).1 = .error failure) ∧
        ∀ body, requireFields body ["status", "summary"] (reportFields outside doc) "Episode Report" = .ok () →
          (execute values outside published (.episodeReport body) (fileAt later.files n).join seen).1 =
            if equal values.floats (.obj raw) (.obj body) then published.map fun _ => "accepted"
            else .error (.request "This Episode already accepted a different report" "journal_finalized" "$") := by
  have sound : supervisor.Sound values := run.invariant (fun _ begun => sound_begun begun) fun _ _ sound taken => sound.step taken
  have same : later.Sound values ∧ fileAt later.files n = fileAt supervisor.files n := by
    induction steps with
    | refl => exact ⟨sound, rfl⟩
    | tail _ taken ih =>
        exact ⟨ih.1.step taken, (ih.1.sealed ((hasEnded_congr ih.2).trans ended) taken).trans ih.2⟩
  refine ⟨same.2, ?_⟩
  have still : hasEnded values later.files n = true := (hasEnded_congr same.2).trans ended
  cases there : fileAt later.files n with
  | none =>
      rw [hasEnded, journalAt, there] at still
      cases still
  | some file =>
      obtain ⟨doc, rfl, is_journal⟩ := same.1.journals n file there
      have here := journalAt_of_file there is_journal.loads
      rw [hasEnded, here, Option.elim_some] at still
      obtain ⟨raw, status, submitted, named, state⟩ := is_journal.ended still
      refine ⟨doc, raw, here, submitted, state.trans named.symm, fun outside published seen legacy => ?_⟩
      obtain ⟨failure, refused⟩ := mutableJournal_sealed is_journal still
      refine ⟨fun body => ⟨failure, ?_⟩, fun body => ⟨failure, ?_⟩, fun body fields => ?_⟩
      · rw [execute, legacy]
        dsimp only [Option.join_some]
        rw [updateDirection, refused]
        rfl
      · rw [execute, legacy]
        dsimp only [Option.join_some]
        rw [recordExperiment, refused]
        rfl
      · have closed : ¬ isStr "in_progress" (Json.get doc "state") = true := by
          intro open_
          rw [is_journal.open_.mpr ((isStr_iff _ _).mp open_)] at still
          cases still
        have repeats : submitReport values outside body (some (.obj doc)) seen = repeatReport values doc body := by
          rw [submitReport, is_journal.loads.load]
          change (do
            requireFields body ["status", "summary"] (reportFields outside doc) "Episode Report"
            if isStr "in_progress" (Json.get doc "state") then acceptReport values outside doc body seen else repeatReport values doc body) = _
          rw [fields, if_neg closed]
          rfl
        rw [execute, legacy]
        dsimp only [Option.join_some]
        rw [repeats, repeatReport, submitted]
        by_cases alike : equal values.floats (.obj raw) (.obj body) = true
        · rw [if_pos alike, if_pos alike]
        · rw [if_neg alike, if_neg alike]

def firstReport : Json.Dict Empty := [("status", .str "pivot"), ("summary", .str "nothing left")]

/-- The first Episode ends, and the second one begins. -/
def secondBegun : Supervisor Empty :=
  { afterFirst (.episodeReport firstReport) with
    files := Items.set (afterFirst (.episodeReport firstReport)).files (dirName 2)
      (some (.obj (initializeJournal 2 true "2026-01-02T00:00:00Z" []))) }

theorem report_stays_pivot : hasEnded plainValues (afterFirst (.episodeReport firstReport)).files 1 = true ∧
    fileAt secondBegun.files 1 = fileAt (afterFirst (.episodeReport firstReport)).files 1 ∧
    ∃ doc raw, journalAt plainValues secondBegun.files 1 = some doc ∧
      Json.get doc "submitted_report" = .obj raw ∧ Json.get doc "state" = Json.get raw "status" ∧
      ∀ outside published seen, outside.legacy = .ok () →
        (∀ body, ∃ failure, (execute plainValues outside published (.directionUpdate body) (fileAt secondBegun.files 1).join seen).1 = .error failure) ∧
        (∀ body, ∃ failure, (execute plainValues outside published (.experimentRecord body) (fileAt secondBegun.files 1).join seen).1 = .error failure) ∧
        ∀ body, requireFields body ["status", "summary"] (reportFields outside doc) "Episode Report" = .ok () →
          (execute plainValues outside published (.episodeReport body) (fileAt secondBegun.files 1).join seen).1 =
            if equal plainValues.floats (.obj raw) (.obj body) then published.map fun _ => "accepted"
            else .error (.request "This Episode already accepted a different report" "journal_finalized" "$") := by
  have ended : hasEnded plainValues (afterFirst (.episodeReport firstReport)).files 1 = true := by decide +kernel
  have absent : fileAt (afterFirst (.episodeReport firstReport)).files 2 = none := by
    rw [afterFirst, fileAt_set, firstLook, fileAt_set]
    rfl
  have begins : SupervisorStep plainValues (afterFirst (.episodeReport firstReport)) secondBegun :=
    .begin _ 2 true "2026-01-02T00:00:00Z" [] absent (Nat.zero_le 2) (by decide)
  exact ⟨ended, report_stays (afterFirst_reached _) ended (.single begins)⟩

end AtrexAgent.Journal
