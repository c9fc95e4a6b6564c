import Mathlib.Data.List.Sort
import AtrexAgent.Library.Numerals
import AtrexAgent.Library.Transition
import AtrexAgent.Library.Traversal
import AtrexAgent.Workflow.Directions

/-! The history that a journal sees: what the finalized journals of earlier Episodes record, read through an index that is
kept from one request to the next. -/

namespace AtrexAgent.Journal

open AtrexAgent.Schema AtrexAgent.Numerals

variable {F : Type} (values : Values F)

/-- A journal file, or none where it cannot be read as JSON. -/
abbrev File (F : Type) := Option (Json F)

def items : Json F → Option (List (Json F))
  | .arr items => some items
  | _ => none

def listAt (doc : Json.Dict F) (key : String) : List (Json F) := (items (Json.get doc key)).getD []

/-- `load_journal` -/
def loadJournal (file : File F) : Except Failure (Json.Dict F) :=
  match file with
  | none => .error (.state "The Supervisor-owned Journal is missing or unreadable.")
  | some (.obj doc) =>
      match equal values.floats (Json.get doc "schema_version") (.int 2), Json.get doc "runtime_managed" with
      | true, .bool true =>
          if (items (Json.get doc "direction_events")).isNone ∨ (items (Json.get doc "experiments")).isNone then
            .error (.state "The Supervisor-owned Journal collections are invalid.")
          else match (Json.find? doc "research_records").getD (.bool true) with
            | .bool research =>
                if research = false ∧ ¬ ((listAt doc "direction_events").isEmpty ∧ (listAt doc "experiments").isEmpty) then
                  .error (.state "Research-disabled Journal contains unexpected research records.")
                else .ok doc
            | _ => .error (.state "The Supervisor-owned Journal research policy is invalid.")
      | _, _ => .error (.state "The Supervisor-owned Journal has an unsupported schema.")
  | some _ => .error (.state "The Supervisor-owned Journal has an unsupported schema.")

/-! ### The index -/

/-- What finalized journals record. -/
structure History (F : Type) where
  views : Views F
  experiments : List (Json.Dict F)
  experimentsById : List (String × Json.Dict F)

def History.empty : History F := ⟨⟨[], []⟩, [], []⟩

/-- `_HistoryIndex` -/
structure HistoryIndex (F : Type) where
  history : History F
  pending : List ℕ

/-- An index with the Episode that it has been brought up to. -/
structure Published (F : Type) extends HistoryIndex F where
  nextEpisode : ℕ

def HistoryIndex.initial : HistoryIndex F := ⟨.empty, []⟩

/-- An experiment whose id has not been seen. -/
def History.addExperiment (history : History F) (experiment : Json F) : History F :=
  match experiment with
  | .obj fields => match Json.get fields "experiment_id" with
    | .str id =>
        if (Items.get? history.experimentsById id).isSome then history
        else {
          views := ⟨associateExperiment values history.views.directions experiment, history.views.statuses⟩
          experiments := history.experiments ++ [fields]
          experimentsById := Items.set history.experimentsById id fields }
    | _ => history
  | _ => history

def finalized (doc : Json.Dict F) : Bool := truthy values.floats (Json.get doc "finalized_at")

/-- A journal that has been found to be finalized. -/
def History.addJournal (history : History F) (episode : Json F) (doc : Json.Dict F) : Except Failure (History F) :=
  (applyDirectionEvents values episode (listAt doc "direction_events") history.views).map fun views =>
    (listAt doc "experiments").foldl (History.addExperiment values) { history with views := views }

/-- A journal of earlier times, with the number that it must bear. -/
def historical (journal : ℕ × File F) : Except Failure (Json F × Json.Dict F) :=
  match loadJournal values journal.2 with
  | .error _ => .error (.state "Historical Runtime Journal is unreadable; restore it before continuing.")
  | .ok doc => match Json.find? doc "episode" with
    | none => .error (.missing "episode")
    | some episode =>
        if equal values.floats episode (.int journal.1) then .ok (episode, doc)
        else .error (.state "Historical Runtime Journal has a mismatched Episode identity")

/-- `_index_historical_journal` -/
def indexHistoricalJournal (index : HistoryIndex F) (journal : ℕ × File F) : Except Failure (HistoryIndex F) :=
  (historical values journal).bind fun (episode, doc) =>
    if finalized values doc then (index.history.addJournal values episode doc).map fun history => { index with history := history }
    else .ok { index with pending := if journal.1 ∈ index.pending then index.pending else index.pending ++ [journal.1] }

def indexAll (index : HistoryIndex F) (journals : List (ℕ × File F)) : Except Failure (HistoryIndex F) :=
  journals.foldlM (indexHistoricalJournal values) index

/-! ### Directories -/

/-- The journals of a campaign, by the names of their directories under `episodes`. -/
abbrev Files (F : Type) := List (String × File F)

/-- `f"e{n:08d}"` -/
def dirName (n : ℕ) : String := String.ofList ('e' :: padded 8 n)

/-- `re.fullmatch(r"e([0-9]{8,})", name)` -/
def episodeOf (name : String) : Option ℕ :=
  match name.toList with
  | 'e' :: digits =>
      if 8 ≤ digits.length ∧ digits.all Char.isDigit then some (Nat.ofDigitChars 10 digits 0) else none
  | _ => none

def fileAt (files : Files F) (n : ℕ) : Option (File F) := Items.get? files (dirName n)

/-- `sorted((root / "episodes").glob("e*/journal.json"))` -/
def sortedJournals (files : Files F) : Files F :=
  (files.filter fun file => "e".toList.isPrefixOf file.1.toList).mergeSort fun file other => file.1 ≤ other.1

/-- The journals that are found in a scan, with the numbers of their directories. -/
def numbered (files : Files F) : List (ℕ × File F) :=
  (sortedJournals files).filterMap fun file => (episodeOf file.1).map fun n => (n, file.2)

/-- The journals that there are under some numbers. -/
def those (journals : ℕ → Option (File F)) (numbers : List ℕ) : List (ℕ × File F) :=
  numbers.filterMap fun n => (journals n).map fun file => (n, file)

/-- The numbers from one on and below another. -/
def between (low high : ℕ) : List ℕ := List.range' low (high - low)

/-! ### Requests -/

structure VisibleHistory (F : Type) where
  current : Json.Dict F
  directions : List (String × Direction F)
  statuses : Statuses
  experiments : List (Json.Dict F)
  experimentsById : List (String × Json.Dict F)

def History.seen (history : History F) (current : Json.Dict F) : VisibleHistory F :=
  ⟨current, history.views.directions, history.views.statuses, history.experiments, history.experimentsById⟩

/-- A pending journal is gone, unreadable, or finalized. -/
def settled (files : Files F) (n : ℕ) : Bool :=
  match loadJournal values (fileAt files n).join with
  | .ok doc => finalized values doc
  | .error _ => true

def rebuilt (files : Files F) (episode : ℕ) : Except Failure (Published F) :=
  (indexAll values HistoryIndex.initial ((numbered files).filter fun journal => journal.1 < episode)).map (⟨·, episode⟩)

/-- What an index becomes when it takes in the journals up to an Episode. -/
def extended (files : Files F) (index : Published F) (episode : ℕ) : Except Failure (Published F) :=
  let found := if 4096 < episode - index.nextEpisode then
      (numbered files).filter fun journal => index.nextEpisode ≤ journal.1 ∧ journal.1 < episode
    else those (fileAt files) (between index.nextEpisode episode)
  (indexAll values index.toHistoryIndex found).map (⟨·, episode⟩)

/-- What is published after an index has been made. -/
def publish (cached : Option (Published F)) : Except Failure (Published F) → Option (Published F)
  | .ok index => some index
  | .error _ => cached

/-- The index for an Episode, and the one that is published. -/
def indexFor (files : Files F) (cached : Option (Published F)) (episode : ℕ) :
    Except Failure (Published F) × Option (Published F) :=
  match cached with
  | none => (rebuilt values files episode, publish cached (rebuilt values files episode))
  | some index =>
      if episode < index.nextEpisode then (rebuilt values files episode, cached)
      else if index.pending.any (settled values files) then (rebuilt values files episode, publish cached (rebuilt values files episode))
      else if index.nextEpisode < episode then (extended values files index episode, publish cached (extended values files index episode))
      else (.ok index, cached)

/-- The journal of a request, and the number of its Episode. -/
def currentOf (current : File F) : Except Failure (Json.Dict F × ℕ) :=
  match loadJournal values current with
  | .error failure => .error failure
  | .ok doc => match Json.get doc "episode" with
    | .int (.ofNat episode) => .ok (doc, episode)
    | _ => .error (.state "Runtime Journal has an invalid Episode identity")

/-- `_visible_history` -/
def visibleHistory (files : Files F) (cached : Option (Published F)) (current : File F) :
    Except Failure (VisibleHistory F) × Option (Published F) :=
  match currentOf values current with
  | .error failure => (.error failure, cached)
  | .ok (doc, episode) =>
      ((indexFor values files cached episode).1.map fun index => index.history.seen doc, (indexFor values files cached episode).2)

/-! ### Replay -/

/-- One journal of those that are replayed: what is not finalized records nothing. -/
def replayJournal (history : History F) (journal : ℕ × File F) : Except Failure (History F) :=
  (historical values journal).bind fun (episode, doc) =>
    if finalized values doc then history.addJournal values episode doc else .ok history

/-- The finalized journals below an Episode, one after another from the first one on. -/
def replay (files : Files F) (episode : ℕ) : Except Failure (History F) :=
  (those (fileAt files) (List.range episode)).foldlM (replayJournal values) .empty

def replayed (files : Files F) (current : File F) : Except Failure (VisibleHistory F) :=
  (currentOf values current).bind fun (doc, episode) => (replay values files episode).map fun history => history.seen doc

/-- Indexing is replaying. -/
theorem indexAll_history (index : HistoryIndex F) (journals : List (ℕ × File F)) :
    (indexAll values index journals).map HistoryIndex.history = journals.foldlM (replayJournal values) index.history := by
  induction journals generalizing index with
  | nil => rfl
  | cons journal journals ih =>
      have one : (indexHistoricalJournal values index journal).map HistoryIndex.history = replayJournal values index.history journal := by
        unfold indexHistoricalJournal replayJournal
        cases historical values journal with
        | error failure => rfl
        | ok found =>
            dsimp only [Except.bind]
            split
            · cases index.history.addJournal values found.1 found.2 <;> rfl
            · rfl
      rw [indexAll, List.foldlM_cons, List.foldlM_cons, ← one]
      cases indexHistoricalJournal values index journal with
      | error failure => rfl
      | ok next => exact ih next

/-! ### The order of directories -/

/-- The directories are those of Episodes with at most eight digits, under their own names. -/
structure Canonical (files : Files F) : Prop where
  distinct : (files.map Prod.fst).Nodup
  named : ∀ file ∈ files, ∀ n, episodeOf file.1 = some n → n < 10 ^ 8 ∧ file.1 = dirName n

theorem dirName_toList (n : ℕ) : (dirName n).toList = 'e' :: padded 8 n := String.toList_ofList

theorem episodeOf_dirName (n : ℕ) : episodeOf (dirName n) = some n := by
  have long : 8 ≤ (padded 8 n).length := by
    rw [padded, List.length_append, List.length_replicate]
    omega
  have digits : (padded 8 n).all Char.isDigit = true := by
    rw [List.all_eq_true]
    intro c member
    rcases List.mem_append.mp member with zero | digit
    · rw [List.eq_of_mem_replicate zero]
      rfl
    · exact Nat.isDigit_of_mem_toDigits (by decide) (Nat.le_refl 10) digit
  simp only [episodeOf, dirName_toList]
  rw [if_pos ⟨long, digits⟩, ofDigitChars_padded]

theorem dirName_le {m n : ℕ} (at_most : m ≤ n) (bound : n < 10 ^ 8) : dirName m ≤ dirName n := by
  rw [String.le_iff_toList_le, dirName_toList, dirName_toList]
  exact (append_le_append_iff ['e']).mpr (padded_le at_most bound)

variable {files : Files F}

theorem mem_numbered (canonical : Canonical files) {n : ℕ} {file : File F} :
    (n, file) ∈ numbered files ↔ fileAt files n = some file := by
  simp only [numbered, sortedJournals, List.mem_filterMap, List.mem_mergeSort, List.mem_filter, Option.map_eq_some_iff, Prod.mk.injEq]
  constructor
  · rintro ⟨⟨name, file'⟩, ⟨inside, _⟩, n', numbered, rfl, rfl⟩
    obtain ⟨_, named⟩ := canonical.named _ inside n' numbered
    rw [fileAt, ← named]
    exact Items.get?_of_mem canonical.distinct inside
  · intro here
    refine ⟨(dirName n, file), ⟨Items.mem_of_get? here, ?_⟩, n, episodeOf_dirName n, rfl, rfl⟩
    rw [dirName_toList]
    rfl

theorem numbered_pairwise (canonical : Canonical files) : (numbered files).Pairwise fun journal later => journal.1 < later.1 := by
  have sorted : (sortedJournals files).Pairwise fun file later => file.1 ≤ later.1 := by
    have pairwise : (sortedJournals files).Pairwise fun file later => decide (file.1 ≤ later.1) = true :=
      List.pairwise_mergeSort (fun file later last first second => by simpa using le_trans (of_decide_eq_true first) (of_decide_eq_true second))
        (fun file later => by simpa using le_total file.1 later.1) _
    exact pairwise.imp fun before => of_decide_eq_true before
  have apart : (sortedJournals files).Pairwise fun file later => file.1 ≠ later.1 := by
    have distinct : ((sortedJournals files).map Prod.fst).Nodup := by
      refine ((List.mergeSort_perm _ _).map Prod.fst).nodup_iff.mpr ?_
      exact canonical.distinct.sublist (List.filter_sublist.map Prod.fst)
    exact List.pairwise_map.mp distinct
  have inside {file : String × File F} (member : file ∈ sortedJournals files) : file ∈ files :=
    List.mem_of_mem_filter (List.mem_mergeSort.mp member)
  rw [numbered, List.pairwise_filterMap]
  refine (sorted.and apart).imp_of_mem fun {file later} member member' before journal numbered journal' numbered' => ?_
  obtain ⟨n, at_n, rfl⟩ := Option.map_eq_some_iff.mp numbered
  obtain ⟨n', at_n', rfl⟩ := Option.map_eq_some_iff.mp numbered'
  obtain ⟨bound, named⟩ := canonical.named _ (inside member) n at_n
  obtain ⟨_, named'⟩ := canonical.named _ (inside member') n' at_n'
  by_contra not_before
  have back := dirName_le (Nat.le_of_not_lt not_before) bound
  rw [← named, ← named'] at back
  exact before.2 (le_antisymm before.1 back)

theorem mem_those {journals : ℕ → Option (File F)} {numbers : List ℕ} {n : ℕ} {file : File F} :
    (n, file) ∈ those journals numbers ↔ n ∈ numbers ∧ journals n = some file := by
  simp only [those, List.mem_filterMap, Option.map_eq_some_iff, Prod.mk.injEq]
  constructor
  · rintro ⟨n', inside, file', here, rfl, rfl⟩
    exact ⟨inside, here⟩
  · rintro ⟨inside, here⟩
    exact ⟨n, inside, file, here, rfl, rfl⟩

theorem mem_between {low high n : ℕ} : n ∈ between low high ↔ low ≤ n ∧ n < high := by
  rw [between, List.mem_range'_1]
  omega

/-- A scan finds the journals in the order of their numbers. -/
theorem numbered_between (canonical : Canonical files) (low high : ℕ) :
    ((numbered files).filter fun journal => low ≤ journal.1 ∧ journal.1 < high) = those (fileAt files) (between low high) := by
  have later : (those (fileAt files) (between low high)).Pairwise fun journal later => journal.1 < later.1 := by
    rw [those, List.pairwise_filterMap]
    refine (List.pairwise_lt_range' (s := low) (n := high - low)).imp fun {n n'} less journal here journal' here' => ?_
    obtain ⟨_, _, rfl⟩ := Option.map_eq_some_iff.mp here
    obtain ⟨_, _, rfl⟩ := Option.map_eq_some_iff.mp here'
    exact less
  have irreflexive : Std.Irrefl fun journal later : ℕ × File F => journal.1 < later.1 := ⟨fun journal => Nat.lt_irrefl _⟩
  refine ((numbered_pairwise canonical).filter _).eq_of_mem_iff later fun journal => ?_
  obtain ⟨n, file⟩ := journal
  rw [List.mem_filter, mem_numbered canonical, mem_those, mem_between, decide_eq_true_eq, and_comm]

theorem between_append {low middle high : ℕ} (first : low ≤ middle) (second : middle ≤ high) :
    between low high = between low middle ++ between middle high := by
  unfold between
  have start : middle = low + 1 * (middle - low) := by omega
  have length : high - low = (middle - low) + (high - middle) := by omega
  conv_rhs => rw [start]
  rw [length, ← List.range'_append]
  congr 2 <;> omega

theorem those_append (journals : ℕ → Option (File F)) (numbers more : List ℕ) :
    those journals (numbers ++ more) = those journals numbers ++ those journals more := List.filterMap_append

theorem range_between (n : ℕ) : List.range n = between 0 n := List.range_eq_range'

/-! ### Journals that are not finalized -/

def Own (n : ℕ) (doc : Json.Dict F) : Prop :=
  ∃ episode, Json.find? doc "episode" = some episode ∧ equal values.floats episode (.int n) = true

/-- A journal that waits to be finalized, in the directory of its own Episode. -/
def Waiting (n : ℕ) (file : Option (File F)) : Prop :=
  ∃ doc, loadJournal values file.join = .ok doc ∧ finalized values doc = false ∧ Own values n doc

variable {values}

theorem index_waiting {n : ℕ} {file : File F} (waiting : Waiting values n (some file)) (index : HistoryIndex F) :
    indexHistoricalJournal values index (n, file) =
      .ok { index with pending := if n ∈ index.pending then index.pending else index.pending ++ [n] } := by
  obtain ⟨doc, loaded, open_, episode, own, same⟩ := waiting
  have found : historical values (n, file) = .ok (episode, doc) := by
    unfold historical
    rw [show loadJournal values (n, file).2 = .ok doc from loaded]
    dsimp only
    rw [own]
    dsimp only
    rw [if_pos same]
  rw [indexHistoricalJournal, found]
  dsimp only [Except.bind]
  rw [open_]
  rfl

theorem not_waiting_none {n : ℕ} : ¬ Waiting values n none := by
  rintro ⟨doc, loaded, _⟩
  cases loaded

/-- The same journals are indexed alike, and so are any two that wait. -/
theorem indexAll_congr {earlier later : ℕ → Option (File F)} {numbers : List ℕ}
    (same : ∀ n ∈ numbers, earlier n = later n ∨ Waiting values n (earlier n) ∧ Waiting values n (later n)) (index : HistoryIndex F) :
    indexAll values index (those earlier numbers) = indexAll values index (those later numbers) := by
  induction numbers generalizing index with
  | nil => rfl
  | cons n numbers ih =>
      have rest := ih fun k member => same k (List.mem_cons_of_mem _ member)
      rw [← List.singleton_append, those_append, those_append, indexAll, indexAll, List.foldlM_append, List.foldlM_append]
      have first : indexAll values index (those earlier [n]) = indexAll values index (those later [n]) := by
        rcases same n List.mem_cons_self with equal | ⟨waits, waits'⟩
        · simp only [those, List.filterMap_cons, List.filterMap_nil, equal]
        · cases here : earlier n with
          | none =>
              rw [here] at waits
              exact (not_waiting_none waits).elim
          | some file =>
              cases there : later n with
              | none =>
                  rw [there] at waits'
                  exact (not_waiting_none waits').elim
              | some file' =>
                  rw [here] at waits
                  rw [there] at waits'
                  have one (journals : ℕ → Option (File F)) (file : File F) (is_file : journals n = some file) :
                      those journals [n] = [(n, file)] := by simp [those, is_file]
                  rw [one earlier file here, one later file' there, indexAll, indexAll, List.foldlM_cons, List.foldlM_cons,
                    index_waiting waits, index_waiting waits']
      unfold indexAll at first
      rw [first]
      exact bind_congr fun next => rest next

theorem pending_kept {index next : HistoryIndex F} {journal : ℕ × File F} (indexed : indexHistoricalJournal values index journal = .ok next) :
    index.pending ⊆ next.pending := by
  unfold indexHistoricalJournal at indexed
  cases found : historical values journal with
  | error failure =>
      rw [found] at indexed
      cases indexed
  | ok doc =>
      rw [found] at indexed
      dsimp only [Except.bind] at indexed
      split at indexed
      · cases added : index.history.addJournal values doc.1 doc.2 with
        | error failure =>
            rw [added] at indexed
            cases indexed
        | ok history =>
            rw [added] at indexed
            cases indexed
            exact List.Subset.refl _
      · cases indexed
        dsimp only
        split
        · exact List.Subset.refl _
        · exact List.subset_append_left _ _

theorem pending_kept_all {index next : HistoryIndex F} {journals : List (ℕ × File F)} (indexed : indexAll values index journals = .ok next) :
    index.pending ⊆ next.pending := by
  induction journals generalizing index with
  | nil =>
      cases indexed
      exact List.Subset.refl _
  | cons journal journals ih =>
      rw [indexAll, List.foldlM_cons] at indexed
      cases one : indexHistoricalJournal values index journal with
      | error failure =>
          rw [one] at indexed
          cases indexed
      | ok middle =>
          rw [one] at indexed
          exact List.Subset.trans (pending_kept one) (ih indexed)

/-- What an indexed journal was indexed from. -/
theorem index_each {journals : ℕ → Option (File F)} {numbers : List ℕ} {index next : HistoryIndex F}
    (indexed : indexAll values index (those journals numbers) = .ok next) {n : ℕ} (inside : n ∈ numbers) {file : File F}
    (here : journals n = some file) :
    ∃ before after, indexHistoricalJournal values before (n, file) = .ok after ∧ after.pending ⊆ next.pending := by
  obtain ⟨first, rest, split⟩ := List.append_of_mem (mem_those.mpr ⟨inside, here⟩)
  rw [split, indexAll, List.foldlM_append] at indexed
  obtain ⟨before, _, indexed⟩ := (bind_ok_iff _ _ _).mp indexed
  rw [List.foldlM_cons] at indexed
  obtain ⟨after, one, indexed⟩ := (bind_ok_iff _ _ _).mp indexed
  exact ⟨before, after, one, pending_kept_all indexed⟩

/-- A journal that waited is pending. -/
theorem pending_of_waiting {journals : ℕ → Option (File F)} {numbers : List ℕ} {index next : HistoryIndex F}
    (indexed : indexAll values index (those journals numbers) = .ok next) {n : ℕ} (inside : n ∈ numbers)
    (waiting : Waiting values n (journals n)) : n ∈ next.pending := by
  cases here : journals n with
  | none =>
      rw [here] at waiting
      exact (not_waiting_none waiting).elim
  | some file =>
      rw [here] at waiting
      obtain ⟨before, after, one, kept⟩ := index_each indexed inside here
      rw [index_waiting waiting] at one
      cases one
      apply kept
      dsimp only
      split
      · assumption
      · exact List.mem_append_right _ (List.mem_singleton_self n)

/-- An indexed journal is finalized, or it waits. -/
theorem finalized_or_waiting {journals : ℕ → Option (File F)} {numbers : List ℕ} {index next : HistoryIndex F}
    (indexed : indexAll values index (those journals numbers) = .ok next) {n : ℕ} (inside : n ∈ numbers) {file : File F}
    (here : journals n = some file) :
    (∃ doc, loadJournal values file = .ok doc ∧ finalized values doc = true) ∨ Waiting values n (some file) := by
  obtain ⟨before, after, one, _⟩ := index_each indexed inside here
  obtain ⟨⟨episode, doc⟩, found, _⟩ := (bind_ok_iff _ _ _).mp one
  unfold historical at found
  cases loaded : loadJournal values (n, file).2 with
  | error failure =>
      rw [loaded] at found
      cases found
  | ok doc' =>
      rw [loaded] at found
      dsimp only at found
      cases named : Json.find? doc' "episode" with
      | none =>
          rw [named] at found
          cases found
      | some episode' =>
          rw [named] at found
          dsimp only at found
          split at found
          · rename_i same
            cases ended : finalized values doc' with
            | true => exact .inl ⟨doc', rfl, ended⟩
            | false => exact .inr ⟨doc', loaded, ended, episode', named, same⟩
          · cases found

/-! ### The index that is kept -/

variable (values) in
/-- An index follows the files where it was made of them, or of journals that waited. -/
def Follows (files : Files F) (index : Published F) : Prop :=
  ∃ earlier : ℕ → Option (File F),
    indexAll values HistoryIndex.initial (those earlier (between 0 index.nextEpisode)) = .ok index.toHistoryIndex ∧
      ∀ n < index.nextEpisode, earlier n = fileAt files n ∨ Waiting values n (earlier n)

variable (values) in
/-- A journal that is not finalized lies in the directory of its own Episode. -/
def OwnDirectories (files : Files F) : Prop :=
  ∀ n doc, loadJournal values (fileAt files n).join = .ok doc → finalized values doc = false → Own values n doc

theorem rebuilt_eq (canonical : Canonical files) (episode : ℕ) : rebuilt values files episode =
    (indexAll values HistoryIndex.initial (those (fileAt files) (between 0 episode))).map (⟨·, episode⟩) := by
  rw [rebuilt, ← numbered_between canonical]
  simp only [Nat.zero_le, true_and]

/-- An index without settled journals is the one that its files give. -/
theorem current_of_follows {index : Published F} (follows : Follows values files index) (own : OwnDirectories values files)
    (quiet : index.pending.any (settled values files) = false) :
    indexAll values HistoryIndex.initial (those (fileAt files) (between 0 index.nextEpisode)) = .ok index.toHistoryIndex := by
  obtain ⟨earlier, indexed, same⟩ := follows
  rw [← indexed]
  symm
  apply indexAll_congr
  intro n member
  rcases same n (mem_between.mp member).2 with equal | waits
  · exact .inl equal
  · have pending := pending_of_waiting indexed member waits
    have open_ := List.any_eq_false.mp quiet n pending
    unfold settled at open_
    refine .inr ⟨waits, ?_⟩
    cases loaded : loadJournal values (fileAt files n).join with
    | error failure =>
        rw [loaded] at open_
        exact absurd rfl open_
    | ok doc =>
        rw [loaded] at open_
        have not_final : finalized values doc = false := by simpa using open_
        exact ⟨doc, loaded, not_final, own n doc loaded not_final⟩

theorem extended_eq (canonical : Canonical files) {index : Published F} {episode : ℕ} (later : index.nextEpisode ≤ episode)
    (current : indexAll values HistoryIndex.initial (those (fileAt files) (between 0 index.nextEpisode)) = .ok index.toHistoryIndex) :
    extended values files index episode = rebuilt values files episode := by
  have whole : indexAll values HistoryIndex.initial (those (fileAt files) (between 0 episode)) =
      indexAll values index.toHistoryIndex (those (fileAt files) (between index.nextEpisode episode)) := by
    rw [between_append (Nat.zero_le _) later, those_append, indexAll, List.foldlM_append]
    unfold indexAll at current
    rw [current]
    rfl
  rw [rebuilt_eq canonical, whole, extended]
  split
  · rw [numbered_between canonical]
  · rfl

theorem follows_rebuilt (canonical : Canonical files) {episode : ℕ} {index : Published F} (made : rebuilt values files episode = .ok index) :
    Follows values files index ∧ index.nextEpisode = episode := by
  rw [rebuilt_eq canonical] at made
  cases indexed : indexAll values HistoryIndex.initial (those (fileAt files) (between 0 episode)) with
  | error failure =>
      rw [indexed] at made
      cases made
  | ok projection =>
      rw [indexed] at made
      cases made
      exact ⟨⟨fileAt files, indexed, fun n _ => .inl rfl⟩, rfl⟩

/-- Whatever is cached, the index is the one that is built from the files, and what is published follows them. -/
theorem indexFor_spec (canonical : Canonical files) (own : OwnDirectories values files) {cached : Option (Published F)}
    (follows : ∀ index, cached = some index → Follows values files index) (episode : ℕ) :
    (indexFor values files cached episode).1 = rebuilt values files episode ∧
      ((indexFor values files cached episode).2 = cached ∨
        (indexFor values files cached episode).2 = publish cached (rebuilt values files episode)) := by
  cases cached with
  | none => exact ⟨rfl, .inr rfl⟩
  | some index =>
      unfold indexFor
      dsimp only
      split
      · exact ⟨rfl, .inl rfl⟩
      · split
        · exact ⟨rfl, .inr rfl⟩
        · rename_i not_older quiet
          have current := current_of_follows (follows index rfl) own (by simpa using quiet)
          have later : index.nextEpisode ≤ episode := Nat.le_of_not_lt not_older
          split
          · rw [extended_eq canonical later current]
            exact ⟨rfl, .inr rfl⟩
          · rename_i not_later
            have same : episode = index.nextEpisode := Nat.le_antisymm (Nat.le_of_not_lt not_later) later
            refine ⟨?_, .inl rfl⟩
            rw [same, rebuilt_eq canonical, current]
            rfl

theorem visibleHistory_eq (canonical : Canonical files) (own : OwnDirectories values files) {cached : Option (Published F)}
    (follows : ∀ index, cached = some index → Follows values files index) (current : File F) :
    (visibleHistory values files cached current).1 = replayed values files current := by
  unfold visibleHistory replayed
  cases read : currentOf values current with
  | error failure => rfl
  | ok found =>
      obtain ⟨doc, episode⟩ := found
      dsimp only [Except.bind]
      have history := indexAll_history values HistoryIndex.initial (those (fileAt files) (between 0 episode))
      rw [(indexFor_spec canonical own follows episode).1, rebuilt_eq canonical, replay, range_between]
      change _ = Except.map _ (List.foldlM _ (HistoryIndex.initial : HistoryIndex F).history _)
      rw [← history]
      cases indexAll values HistoryIndex.initial (those (fileAt files) (between 0 episode)) <;> rfl

/-- A request that fails leaves what is published. -/
theorem published_of_failure (canonical : Canonical files) (own : OwnDirectories values files) {cached : Option (Published F)}
    (follows : ∀ index, cached = some index → Follows values files index) {current : File F} {failure : Failure}
    (failed : (visibleHistory values files cached current).1 = .error failure) : (visibleHistory values files cached current).2 = cached := by
  unfold visibleHistory at failed ⊢
  cases read : currentOf values current with
  | error failure => rfl
  | ok found =>
      rw [read] at failed
      dsimp only at failed ⊢
      obtain ⟨same, kept | published⟩ := indexFor_spec canonical own follows found.2
      · exact kept
      · rw [published]
        rw [same] at failed
        cases made : rebuilt values files found.2 with
        | error failure => rfl
        | ok index =>
            rw [made] at failed
            cases failed

/-! ### Runs -/

/-- The journals of a campaign, with the index that a process keeps of them and the latest Episode it was asked about. -/
structure Campaign (F : Type) where
  files : Files F
  published : Option (Published F)
  asked : ℕ

variable (values) in
/-- How files may change: a finalized journal does not, and none appears for an Episode that a later one has looked past. -/
structure Written (asked : ℕ) (files files' : Files F) : Prop where
  canonical : Canonical files'
  own : OwnDirectories values files'
  sealed : ∀ n doc, loadJournal values (fileAt files n).join = .ok doc → finalized values doc = true → fileAt files' n = fileAt files n
  early : ∀ n < asked, fileAt files n = none → fileAt files' n = none

variable (values) in
def Campaign.after (campaign : Campaign F) (current : File F) : Campaign F where
  files := campaign.files
  published := (visibleHistory values campaign.files campaign.published current).2
  asked := match currentOf values current with
    | .ok (_, episode) => max campaign.asked episode
    | .error _ => campaign.asked

variable (values) in
/-- Files are written, an Episode asks for its history, and the process starts anew. -/
inductive Step : Campaign F → Campaign F → Prop
  | write {campaign : Campaign F} {files' : Files F} (written : Written values campaign.asked campaign.files files') :
      Step campaign { campaign with files := files' }
  | request (campaign : Campaign F) (current : File F) : Step campaign (campaign.after values current)
  | restart (campaign : Campaign F) : Step campaign { campaign with published := none }

variable (values) in
structure Campaign.Begun (campaign : Campaign F) : Prop where
  canonical : Canonical campaign.files
  own : OwnDirectories values campaign.files
  unpublished : campaign.published = none

variable (values) in
structure Campaign.Kept (campaign : Campaign F) : Prop where
  canonical : Canonical campaign.files
  own : OwnDirectories values campaign.files
  follows : ∀ index, campaign.published = some index → Follows values campaign.files index
  asked : ∀ index, campaign.published = some index → index.nextEpisode ≤ campaign.asked

theorem follows_written {asked : ℕ} {files' : Files F} {index : Published F} (follows : Follows values files index)
    (within : index.nextEpisode ≤ asked) (written : Written values asked files files') : Follows values files' index := by
  obtain ⟨earlier, indexed, same⟩ := follows
  refine ⟨earlier, indexed, fun n below => ?_⟩
  rcases same n below with equal | waits
  · cases here : earlier n with
    | none =>
        rw [here] at equal
        rw [written.early n (Nat.lt_of_lt_of_le below within) equal.symm]
        exact .inl rfl
    | some file =>
        rcases finalized_or_waiting indexed (mem_between.mpr ⟨Nat.zero_le n, below⟩) here with ⟨doc, loaded, ended⟩ | waits
        · rw [here] at equal
          rw [written.sealed n doc (by rw [← equal]; exact loaded) ended]
          exact .inl equal
        · exact .inr waits
  · exact .inr waits

theorem Campaign.Kept.step {campaign campaign' : Campaign F} (kept : campaign.Kept values) (taken : Step values campaign campaign') :
    campaign'.Kept values := by
  cases taken with
  | write written =>
      exact ⟨written.canonical, written.own, fun index here => follows_written (kept.follows index here) (kept.asked index here) written, kept.asked⟩
  | restart =>
      exact { kept with
        follows := fun index none_published => nomatch none_published
        asked := fun index none_published => nomatch none_published }
  | request current =>
      have each : ∀ index, (visibleHistory values campaign.files campaign.published current).2 = some index →
          Follows values campaign.files index ∧ index.nextEpisode ≤ (campaign.after values current).asked := by
        intro index here
        unfold visibleHistory at here
        unfold Campaign.after
        cases read : currentOf values current with
        | error failure =>
            rw [read] at here
            exact ⟨kept.follows index here, kept.asked index here⟩
        | ok found =>
            rw [read] at here
            dsimp only at here ⊢
            obtain ⟨_, same | published⟩ := indexFor_spec kept.canonical kept.own kept.follows found.2
            · rw [same] at here
              exact ⟨kept.follows index here, le_max_of_le_left (kept.asked index here)⟩
            · rw [published] at here
              cases made : rebuilt values campaign.files found.2 with
              | error failure =>
                  rw [made] at here
                  exact ⟨kept.follows index here, le_max_of_le_left (kept.asked index here)⟩
              | ok index' =>
                  rw [made] at here
                  cases here
                  obtain ⟨follows, same⟩ := follows_rebuilt kept.canonical made
                  exact ⟨follows, same ▸ Nat.le_max_right _ _⟩
      exact ⟨kept.canonical, kept.own, fun index here => (each index here).1, fun index here => (each index here).2⟩

/-- In every run, the history that a request sees is the replay of the finalized journals below its Episode. -/
theorem history_is_replay {campaign : Campaign F} (run : Transition.Reachable (Campaign.Begun values) (Step values) campaign)
    (current : File F) :
    (visibleHistory values campaign.files campaign.published current).1 = replayed values campaign.files current ∧
      ∀ failure, (visibleHistory values campaign.files campaign.published current).1 = .error failure →
        (visibleHistory values campaign.files campaign.published current).2 = campaign.published := by
  have kept : campaign.Kept values := by
    refine run.invariant (fun campaign begun => ?_) fun _ _ kept taken => kept.step taken
    have none_published (index : Published F) : campaign.published ≠ some index := by
      rw [begun.unpublished]
      exact fun same => nomatch same
    exact ⟨begun.canonical, begun.own, fun index here => (none_published index here).elim, fun index here => (none_published index here).elim⟩
  exact ⟨visibleHistory_eq kept.canonical kept.own kept.follows current,
    fun failure failed => published_of_failure kept.canonical kept.own kept.follows failed⟩

def plainValues : Values Empty where
  floats := ⟨fun x => x.elim, fun x => x.elim, fun x => x.elim, fun _ x => x.elim, fun x => x.elim, fun x => x.elim⟩
  str
    | .str text => text
    | _ => "None"

/-- A journal without records. -/
def emptyJournal (episode : ℕ) (finalizedAt : Json Empty) : File Empty :=
  some (.obj [("schema_version", .int 2), ("runtime_managed", .bool true), ("episode", .int episode), ("direction_events", .arr []),
    ("experiments", .arr []), ("finalized_at", finalizedAt)])

def onlyFirst (file : File Empty) : Files Empty := [(dirName 1, file)]

/-- The first Episode ends after the second one has asked for its history. -/
def lateEnd : Campaign Empty :=
  { Campaign.after plainValues ⟨onlyFirst (emptyJournal 1 .null), none, 0⟩ (emptyJournal 2 .null) with
    files := onlyFirst (emptyJournal 1 (.str "2026-01-01")) }

theorem fileAt_onlyFirst (file : File Empty) (n : ℕ) : fileAt (onlyFirst file) n = if n = 1 then some file else none := by
  have same : dirName 1 = dirName n ↔ n = 1 := by
    constructor
    · intro equal
      have numbers := congrArg episodeOf equal
      rw [episodeOf_dirName, episodeOf_dirName] at numbers
      exact (Option.some.inj numbers).symm
    · rintro rfl
      rfl
  simp [fileAt, onlyFirst, same]

theorem canonical_onlyFirst (file : File Empty) : Canonical (onlyFirst file) := by
  refine ⟨List.nodup_singleton _, fun file member n numbered => ?_⟩
  rw [List.mem_singleton.mp member, episodeOf_dirName] at numbered
  rw [← Option.some.inj numbered, List.mem_singleton.mp member]
  exact ⟨by decide, rfl⟩

theorem own_onlyFirst (finalizedAt : Json Empty) : OwnDirectories plainValues (onlyFirst (emptyJournal 1 finalizedAt)) := by
  intro n doc loaded _
  rw [fileAt_onlyFirst] at loaded
  split at loaded
  · rename_i first
    rw [first]
    cases loaded
    exact ⟨.int 1, rfl, rfl⟩
  · cases loaded

theorem history_is_replay_late :
    (visibleHistory plainValues lateEnd.files lateEnd.published (emptyJournal 2 .null)).1 =
        replayed plainValues lateEnd.files (emptyJournal 2 .null) ∧
      ∀ failure, (visibleHistory plainValues lateEnd.files lateEnd.published (emptyJournal 2 .null)).1 = .error failure →
        (visibleHistory plainValues lateEnd.files lateEnd.published (emptyJournal 2 .null)).2 = lateEnd.published := by
  have begun : Campaign.Begun plainValues ⟨onlyFirst (emptyJournal 1 .null), none, 0⟩ := ⟨canonical_onlyFirst _, own_onlyFirst _, rfl⟩
  have written : Written plainValues 2 (onlyFirst (emptyJournal 1 .null)) (onlyFirst (emptyJournal 1 (.str "2026-01-01"))) := by
    refine ⟨canonical_onlyFirst _, own_onlyFirst _, fun n doc loaded ended => ?_, fun n _ absent => ?_⟩
    · rw [fileAt_onlyFirst] at loaded
      split at loaded
      · cases loaded
        cases ended
      · cases loaded
    · rw [fileAt_onlyFirst] at absent ⊢
      split at absent
      · cases absent
      · rename_i other
        rw [if_neg other]
  exact history_is_replay (((Transition.Reachable.initial begun).step (.request _ (emptyJournal 2 .null))).step (.write written)) (emptyJournal 2 .null)

end AtrexAgent.Journal
