import Mathlib.Data.List.Dedup
import AtrexAgent.Workflow.Directions

/-! Runs of transitions between the statuses of Directions, through the journals of several Episodes, and what of a run stays
legal when the run of an earlier Episode is put before it. -/

namespace AtrexAgent.Journal

/-- A transition of a Direction. -/
abbrev Move := String × Action

variable {statuses statuses' : Statuses} {started : List String} {id : String} {action : Action}

/-- The guards of one transition, kind by kind. -/
inductive Admits (statuses : Statuses) (started : List String) (id : String) : Action → Prop
  | propose (unknown : Items.get? statuses id = none) : Admits statuses started id .propose
  | start (status : Status) (known : Items.get? statuses id = some status) (idle : status ≠ .inProgress)
      (alone : activeBut statuses id = []) (room : id ∈ started ∨ started.length < 3) : Admits statuses started id .start
  | close (action : Action) (closes : action ∈ CLOSURES) (status : Status) (known : Items.get? statuses id = some status)
      (begun : status ≠ .proposed) : Admits statuses started id action

theorem admits_iff : admits statuses started id action = .ok () ↔ Admits statuses started id action := by
  have closure (closes : action ∈ CLOSURES) (refused : Items.get? statuses id = none → admits statuses started id action ≠ .ok ())
      (same : ∀ status, Items.get? statuses id = some status → (admits statuses started id action = .ok () ↔ status ≠ .proposed)) :
      admits statuses started id action = .ok () ↔ Admits statuses started id action := by
    constructor
    · intro ok
      cases known : Items.get? statuses id with
      | none => exact absurd ok (refused known)
      | some status => exact .close action closes status known ((same status known).mp ok)
    · intro admitted
      cases admitted with
      | propose => exact absurd closes (by decide)
      | start => exact absurd closes (by decide)
      | close _ _ status known begun => exact (same status known).mpr begun
  cases action with
  | complete => exact closure (by decide) (fun unknown => by simp [admits, unknown]) fun status known => by simp [admits, known]
  | abandon => exact closure (by decide) (fun unknown => by simp [admits, unknown]) fun status known => by simp [admits, known]
  | block => exact closure (by decide) (fun unknown => by simp [admits, unknown]) fun status known => by simp [admits, known]
  | defer => exact closure (by decide) (fun unknown => by simp [admits, unknown]) fun status known => by simp [admits, known]
  | propose =>
      constructor
      · intro ok
        cases known : Items.get? statuses id with
        | none => exact .propose known
        | some status =>
            simp only [admits, known, Option.isSome_some, if_true] at ok
            cases ok
      · intro admitted
        cases admitted with
        | propose unknown => exact if_neg (by simp [unknown])
        | close _ closes => exact absurd closes (by decide)
  | start =>
      constructor
      · intro ok
        unfold admits at ok
        cases known : Items.get? statuses id with
        | none =>
            rw [known] at ok
            cases ok
        | some status =>
            rw [known] at ok
            dsimp only at ok
            split at ok
            · cases ok
            · rename_i alone
              split at ok
              · cases ok
              · rename_i room
                split at ok
                · cases ok
                · rename_i idle
                  refine .start status known idle alone ?_
                  by_cases again : id ∈ started
                  · exact .inl again
                  · exact .inr (Nat.lt_of_not_le fun full => room ⟨again, full⟩)
      · intro admitted
        cases admitted with
        | start status known idle alone room =>
            unfold admits
            rw [known]
            dsimp only
            rw [alone]
            dsimp only
            rw [if_neg fun full => full.1 (room.resolve_right (Nat.not_lt_of_le full.2)), if_neg idle]
        | close _ closes => exact absurd closes (by decide)

instance : Decidable (Admits statuses started id action) :=
  decidable_of_iff (admits statuses started id action).isOk (by
    rw [← admits_iff]
    cases admits statuses started id action <;> simp [Except.isOk, Except.toBool])

/-! ### Runs -/

/-- The transitions of one Episode. -/
def runMoves (statuses : Statuses) (started : List String) : List Move → Option (Statuses × List String)
  | [] => some (statuses, started)
  | (id, action) :: rest =>
      if Admits statuses started id action then
        runMoves (Items.set statuses id (DIRECTION_STATUS action)) (addStarted started id action) rest
      else none

/-- Episodes one after another; each begins with no Direction started. -/
def runEpisodes (statuses : Statuses) : List (List Move) → Option Statuses
  | [] => some statuses
  | moves :: rest => (runMoves statuses [] moves).bind fun ended => runEpisodes ended.1 rest

theorem runMoves_append (statuses : Statuses) (started : List String) (moves more : List Move) :
    runMoves statuses started (moves ++ more) = (runMoves statuses started moves).bind fun middle => runMoves middle.1 middle.2 more := by
  induction moves generalizing statuses started with
  | nil => rfl
  | cons move moves ih =>
      rw [List.cons_append, runMoves, runMoves]
      split
      · exact ih _ _
      · rfl

theorem runEpisodes_append (statuses : Statuses) (episodes more : List (List Move)) :
    runEpisodes statuses (episodes ++ more) = (runEpisodes statuses episodes).bind fun middle => runEpisodes middle more := by
  induction episodes generalizing statuses with
  | nil => rfl
  | cons moves episodes ih =>
      rw [List.cons_append, runEpisodes, runEpisodes]
      cases runMoves statuses [] moves with
      | none => rfl
      | some ended => exact ih ended.1

theorem runMoves_cons {move : Move} {moves : List Move} {ended : Statuses × List String}
    (ran : runMoves statuses started (move :: moves) = some ended) : Admits statuses started move.1 move.2 ∧
      runMoves (Items.set statuses move.1 (DIRECTION_STATUS move.2)) (addStarted started move.1 move.2) moves = some ended := by
  rw [runMoves] at ran
  split at ran
  · exact ⟨‹_›, ran⟩
  · cases ran

/-- What a run has started, whatever it began with. -/
def startedBy (started : List String) (moves : List Move) : List String :=
  moves.foldl (fun started move => addStarted started move.1 move.2) started

theorem runMoves_startedBy {moves : List Move} {ended : Statuses × List String} (ran : runMoves statuses started moves = some ended) :
    ended.2 = startedBy started moves := by
  induction moves generalizing statuses started with
  | nil =>
      cases ran
      rfl
  | cons move moves ih => exact ih (runMoves_cons ran).2

/-- What every transition keeps, a run keeps. -/
theorem runMoves_keeps {I : Statuses → List String → Prop}
    (kept : ∀ statuses started id action, I statuses started → Admits statuses started id action →
      I (Items.set statuses id (DIRECTION_STATUS action)) (addStarted started id action))
    {moves : List Move} {ended : Statuses × List String} (start : I statuses started)
    (ran : runMoves statuses started moves = some ended) : I ended.1 ended.2 := by
  induction moves generalizing statuses started with
  | nil =>
      cases ran
      exact start
  | cons move moves ih =>
      obtain ⟨admitted, rest⟩ := runMoves_cons ran
      exact ih (kept _ _ _ _ start admitted) rest

/-! ### What runs keep -/

def Distinct (statuses : Statuses) : Prop := (statuses.map Prod.fst).Nodup

theorem distinct_nil : Distinct [] := List.nodup_nil

/-- At most one Direction is in progress. -/
def AtMostOne (statuses : Statuses) : Prop :=
  ∀ id other, Items.get? statuses id = some .inProgress → Items.get? statuses other = some .inProgress → id = other

def Idle (statuses : Statuses) : Prop := ∀ id, Items.get? statuses id ≠ some .inProgress

theorem Idle.atMostOne (idle : Idle statuses) : AtMostOne statuses := fun id _ active => (idle id active).elim

theorem alone_iff (distinct : Distinct statuses) :
    activeBut statuses id = [] ↔ ∀ other, Items.get? statuses other = some .inProgress → other = id := by
  rw [activeBut, List.map_eq_nil_iff, List.filter_eq_nil_iff]
  constructor
  · intro none_other other active
    have member := none_other (other, .inProgress) (Items.mem_of_get? active)
    simpa using member
  · intro only item member
    by_cases active : item.2 = .inProgress
    · have here : Items.get? statuses item.1 = some .inProgress := Items.get?_of_mem distinct (active ▸ member)
      simp [active, only item.1 here]
    · simp [active]

theorem runMoves_distinct {moves : List Move} {ended : Statuses × List String} (distinct : Distinct statuses)
    (ran : runMoves statuses started moves = some ended) : Distinct ended.1 :=
  runMoves_keeps (I := fun statuses _ => Distinct statuses) (fun _ _ _ _ distinct _ => Items.keys_set_nodup distinct _ _) distinct ran

theorem AtMostOne.set (one : AtMostOne statuses) (distinct : Distinct statuses) (admitted : Admits statuses started id action) :
    AtMostOne (Items.set statuses id (DIRECTION_STATUS action)) := by
  intro first second active active'
  rw [Items.get?_set] at active active'
  cases admitted with
  | start status known idle alone room =>
      have only := (alone_iff distinct).mp alone
      split at active
      · split at active'
        · rename_i same same'
          rw [same, same']
        · rename_i same _
          rw [same, only second active']
      · rw [only first active]
        split at active'
        · rename_i same
          exact same.symm
        · exact (only second active').symm
  | propose =>
      split at active
      · cases active
      · split at active'
        · cases active'
        · exact one first second active active'
  | close _ closes =>
      have not_active : DIRECTION_STATUS action ≠ .inProgress := by
        intro same
        cases action with
        | start => exact absurd closes (by decide)
        | _ => cases same
      split at active
      · exact (not_active (Option.some.inj active)).elim
      · split at active'
        · exact (not_active (Option.some.inj active')).elim
        · exact one first second active active'

/-- In a run from statuses with at most one Direction in progress, there is never a second one. -/
theorem runMoves_atMostOne {moves : List Move} {ended : Statuses × List String} (distinct : Distinct statuses) (one : AtMostOne statuses)
    (ran : runMoves statuses started moves = some ended) : AtMostOne ended.1 := by
  have both := runMoves_keeps (I := fun statuses _ => Distinct statuses ∧ AtMostOne statuses)
    (fun _ _ _ _ kept admitted => ⟨Items.keys_set_nodup kept.1 _ _, kept.2.set kept.1 admitted⟩) ⟨distinct, one⟩ ran
  exact both.2

/-- An Episode starts three Directions at most. -/
theorem runMoves_started {moves : List Move} {ended : Statuses × List String} (few : started.length ≤ 3)
    (ran : runMoves statuses started moves = some ended) : ended.2.length ≤ 3 := by
  refine runMoves_keeps (I := fun _ started => started.length ≤ 3) (fun statuses started id action few admitted => ?_) few ran
  unfold addStarted
  split
  · rename_i begins
    cases admitted with
    | start _ _ _ _ room =>
        have room := room.resolve_left begins.2
        rw [List.length_append]
        exact room
    | propose => cases begins.1
    | close _ closes =>
        rw [begins.1] at closes
        exact absurd closes (by decide)
  · exact few

/-! ### Earlier Episodes that end late -/

/-- Other statuses of the same Directions, and of more: what is in progress is the same, and some proposed ones have been closed. -/
structure Below (statuses statuses' : Statuses) : Prop where
  active : ∀ id, Items.get? statuses id = some .inProgress ↔ Items.get? statuses' id = some .inProgress
  known : ∀ id, Items.get? statuses id ≠ none → Items.get? statuses' id ≠ none
  begun : ∀ id status, Items.get? statuses id = some status → status ≠ .proposed → Items.get? statuses' id ≠ some .proposed

theorem Below.refl (statuses : Statuses) : Below statuses statuses :=
  ⟨fun _ => Iff.rfl, fun _ known => known, fun _ _ known begun same => begun (Option.some.inj (known.symm.trans same))⟩

theorem Below.trans {statuses'' : Statuses} (below : Below statuses statuses') (below' : Below statuses' statuses'') : Below statuses statuses'' := by
  refine ⟨fun id => (below.active id).trans (below'.active id), fun id known => below'.known id (below.known id known), fun id status known begun => ?_⟩
  obtain ⟨status', known'⟩ := Option.ne_none_iff_exists'.mp (below.known id (by rw [known]; simp))
  refine below'.begun id status' known' ?_
  rintro rfl
  exact below.begun id status known begun known'

theorem Below.idle (below : Below statuses statuses') (idle : Idle statuses) : Idle statuses' :=
  fun id active => idle id ((below.active id).mpr active)

theorem Below.set (below : Below statuses statuses') (id : String) (status : Status) :
    Below (Items.set statuses id status) (Items.set statuses' id status) := by
  refine ⟨fun other => ?_, fun other => ?_, fun other old => ?_⟩ <;> rw [Items.get?_set, Items.get?_set] <;> split
  · exact Iff.rfl
  · exact below.active other
  · exact fun known => known
  · exact below.known other
  · intro same begun same'
    exact begun ((Option.some.inj same).symm.trans (Option.some.inj same'))
  · exact below.begun other old

/-- A transition that is legal stays so, where it proposes nothing that is known by now. -/
theorem Admits.below (admitted : Admits statuses started id action) (below : Below statuses statuses') (distinct : Distinct statuses)
    (distinct' : Distinct statuses') (fresh : action = .propose → Items.get? statuses' id ≠ none → Items.get? statuses id ≠ none) :
    Admits statuses' started id action := by
  cases admitted with
  | propose unknown =>
      refine .propose ?_
      by_contra known
      exact fresh rfl known unknown
  | start status known idle alone room =>
      obtain ⟨status', known'⟩ := Option.ne_none_iff_exists'.mp (below.known id (by rw [known]; simp))
      refine .start status' known' (fun active => ?_) ?_ room
      · rw [active] at known'
        rw [(below.active id).mpr known'] at known
        exact idle (Option.some.inj known).symm
      · exact (alone_iff distinct').mpr fun other active => (alone_iff distinct).mp alone other ((below.active other).mpr active)
  | close _ closes status known begun =>
      obtain ⟨status', known'⟩ := Option.ne_none_iff_exists'.mp (below.known id (by rw [known]; simp))
      refine .close action closes status' known' fun same => ?_
      exact below.begun id status known begun (same ▸ known')

/-- The Directions that an Episode proposes. -/
def proposals (moves : List Move) : List String := moves.filterMap fun move => if move.2 = .propose then some move.1 else none

theorem mem_proposals {moves : List Move} : id ∈ proposals moves ↔ (id, Action.propose) ∈ moves := by
  simp only [proposals, List.mem_filterMap, Option.ite_none_right_eq_some, Option.some.injEq]
  constructor
  · rintro ⟨⟨other, action⟩, member, rfl, rfl⟩
    exact member
  · intro member
    exact ⟨_, member, rfl, rfl⟩

theorem runMoves_below {moves : List Move} {ended : Statuses × List String} (below : Below statuses statuses') (distinct : Distinct statuses)
    (distinct' : Distinct statuses')
    (fresh : ∀ id ∈ proposals moves, Items.get? statuses' id ≠ none → Items.get? statuses id ≠ none)
    (ran : runMoves statuses started moves = some ended) :
    ∃ ended', runMoves statuses' started moves = some ended' ∧ Below ended.1 ended'.1 := by
  induction moves generalizing statuses statuses' started with
  | nil =>
      cases ran
      exact ⟨_, rfl, below⟩
  | cons move moves ih =>
      obtain ⟨admitted, rest⟩ := runMoves_cons ran
      obtain ⟨id, action⟩ := move
      have admitted' := admitted.below below distinct distinct' fun proposes =>
        fresh id (mem_proposals.mpr (by rw [← proposes]; exact List.mem_cons_self))
      rw [runMoves, if_pos admitted']
      refine ih (below.set id _) (Items.keys_set_nodup distinct _ _) (Items.keys_set_nodup distinct' _ _) (fun other member known => ?_) rest
      rw [Items.get?_set] at known ⊢
      split
      · exact Option.some_ne_none _
      · rename_i different
        rw [if_neg different] at known
        exact fresh other (mem_proposals.mpr (List.mem_cons_of_mem _ (mem_proposals.mp member))) known

/-- After a run no Direction is forgotten, and none that was begun is only proposed. -/
structure Grown (statuses statuses' : Statuses) : Prop where
  known : ∀ id, Items.get? statuses id ≠ none → Items.get? statuses' id ≠ none
  begun : ∀ id status, Items.get? statuses id = some status → status ≠ .proposed → Items.get? statuses' id ≠ some .proposed

theorem Grown.set (grown : Grown statuses statuses') (admitted : Admits statuses' started id action) :
    Grown statuses (Items.set statuses' id (DIRECTION_STATUS action)) := by
  refine ⟨fun other known => ?_, fun other status known begun => ?_⟩
  · rw [Items.get?_set]
    split
    · exact Option.some_ne_none _
    · exact grown.known other known
  · rw [Items.get?_set]
    split
    · rename_i same
      intro proposed
      have proposes : action = .propose := by
        cases action <;> first | rfl | cases proposed
      cases admitted with
      | propose unknown => exact grown.known other (by rw [known]; simp) (same ▸ unknown)
      | start => cases proposes
      | close _ closes =>
          rw [proposes] at closes
          exact absurd closes (by decide)
    · exact grown.begun other status known begun

theorem runMoves_grown {moves : List Move} {ended : Statuses × List String} (ran : runMoves statuses started moves = some ended) :
    Grown statuses ended.1 :=
  runMoves_keeps (I := fun now _ => Grown statuses now) (fun _ _ _ _ grown admitted => grown.set admitted)
    ⟨fun _ known => known, fun _ _ known begun same => begun (Option.some.inj (known.symm.trans same))⟩ ran

theorem Grown.below (grown : Grown statuses statuses') (idle : Idle statuses) (idle' : Idle statuses') : Below statuses statuses' :=
  ⟨fun id => ⟨fun active => (idle id active).elim, fun active => (idle' id active).elim⟩, grown.known, grown.begun⟩

/-- A run knows the Directions that were known before it, and those that it proposes. -/
theorem runMoves_known {moves : List Move} {ended : Statuses × List String} (ran : runMoves statuses started moves = some ended)
    (known : Items.get? ended.1 id ≠ none) : Items.get? statuses id ≠ none ∨ id ∈ proposals moves := by
  induction moves generalizing statuses started with
  | nil =>
      cases ran
      exact .inl known
  | cons move moves ih =>
      obtain ⟨moved, action⟩ := move
      obtain ⟨admitted, rest⟩ := runMoves_cons ran
      rcases ih rest with before | later
      · rw [Items.get?_set] at before
        split at before
        · rename_i same
          subst same
          cases admitted with
          | propose => exact .inr (mem_proposals.mpr List.mem_cons_self)
          | start status here => exact .inl (by rw [here]; exact Option.some_ne_none _)
          | close _ _ status here => exact .inl (by rw [here]; exact Option.some_ne_none _)
        · exact .inl before
      · exact .inr (mem_proposals.mpr (List.mem_cons_of_mem _ (mem_proposals.mp later)))

theorem proposals_known {moves : List Move} {ended : Statuses × List String} (ran : runMoves statuses started moves = some ended)
    (proposed : id ∈ proposals moves) : Items.get? ended.1 id ≠ none := by
  induction moves generalizing statuses started with
  | nil => exact absurd proposed List.not_mem_nil
  | cons move moves ih =>
      obtain ⟨_, rest⟩ := runMoves_cons ran
      rcases List.mem_cons.mp (mem_proposals.mp proposed) with rfl | later
      · apply (runMoves_grown rest).known
        rw [Items.get?_set, if_pos rfl]
        exact Option.some_ne_none _
      · exact ih rest (mem_proposals.mpr later)

/-- What is known more than before are Directions of a list. -/
def NewOnly (statuses statuses' : Statuses) (ids : List String) : Prop :=
  ∀ id, Items.get? statuses' id ≠ none → Items.get? statuses id ≠ none ∨ id ∈ ids

theorem NewOnly.run {ids : List String} (only : NewOnly statuses statuses' ids) {moves : List Move} {ended ended' : Statuses × List String}
    (ran : runMoves statuses started moves = some ended) (ran' : runMoves statuses' started moves = some ended') :
    NewOnly ended.1 ended'.1 ids := by
  intro id known
  rcases runMoves_known ran' known with before | proposed
  · exact (only id before).imp_left ((runMoves_grown ran).known id)
  · exact .inl (proposals_known ran proposed)

theorem runEpisodes_cons {moves : List Move} {rest : List (List Move)} {ended : Statuses}
    (ran : runEpisodes statuses (moves :: rest) = some ended) :
    ∃ middle, runMoves statuses [] moves = some middle ∧ runEpisodes middle.1 rest = some ended :=
  Option.bind_eq_some_iff.mp ran

theorem runEpisodes_distinct {episodes : List (List Move)} {ended : Statuses} (distinct : Distinct statuses)
    (ran : runEpisodes statuses episodes = some ended) : Distinct ended := by
  induction episodes generalizing statuses with
  | nil =>
      cases ran
      exact distinct
  | cons moves episodes ih =>
      obtain ⟨middle, first, rest⟩ := runEpisodes_cons ran
      exact ih (runMoves_distinct distinct first) rest

/-- Episodes run on after an earlier one that proposed none of their Directions. -/
theorem runEpisodes_below {episodes : List (List Move)} {ended : Statuses} {ids : List String} (below : Below statuses statuses')
    (distinct : Distinct statuses) (distinct' : Distinct statuses') (only : NewOnly statuses statuses' ids)
    (apart : ∀ moves ∈ episodes, ∀ id ∈ proposals moves, id ∉ ids) (ran : runEpisodes statuses episodes = some ended) :
    ∃ ended', runEpisodes statuses' episodes = some ended' ∧ Below ended ended' ∧ NewOnly ended ended' ids := by
  induction episodes generalizing statuses statuses' with
  | nil =>
      cases ran
      exact ⟨_, rfl, below, only⟩
  | cons moves episodes ih =>
      obtain ⟨middle, first, rest⟩ := runEpisodes_cons ran
      have fresh : ∀ id ∈ proposals moves, Items.get? statuses' id ≠ none → Items.get? statuses id ≠ none := fun id proposed known =>
        (only id known).resolve_right (apart moves List.mem_cons_self id proposed)
      obtain ⟨middle', first', below'⟩ := runMoves_below below distinct distinct' fresh first
      obtain ⟨ended', rest', same⟩ := ih below' (runMoves_distinct distinct first) (runMoves_distinct distinct' first')
        (only.run first first') (fun moves member => apart moves (List.mem_cons_of_mem _ member)) rest
      exact ⟨ended', Option.bind_eq_some_iff.mpr ⟨middle', first', rest'⟩, same⟩

/-! ### Campaigns of Episodes -/

section

variable {own : ℕ → List Move} {ended : ℕ → Bool} {n m : ℕ}

/-- The Episodes below one that have ended, with the transitions of each. -/
def endedBelow (own : ℕ → List Move) (ended : ℕ → Bool) (n : ℕ) : List (List Move) := ((List.range n).filter ended).map own

/-- After the ended Episodes before it, every Episode runs, and where it has ended no Direction is left in progress. -/
structure Legal (own : ℕ → List Move) (ended : ℕ → Bool) : Prop where
  apart : ∀ m n, m ≠ n → ∀ id ∈ proposals (own m), id ∉ proposals (own n)
  runs : ∀ n, ∃ before after, runEpisodes [] (endedBelow own ended n) = some before ∧ Idle before ∧
    runMoves before [] (own n) = some after ∧ (ended n = true → Idle after.1)

theorem legal_empty : Legal (fun _ => []) fun _ => false := by
  refine ⟨fun _ _ _ _ proposed => absurd proposed List.not_mem_nil, fun n => ⟨[], ([], []), ?_, ?_, rfl, ?_⟩⟩
  · rw [endedBelow, List.filter_false]
    rfl
  · intro id active
    cases active
  · intro has_ended
    cases has_ended

theorem endedBelow_congr {own' : ℕ → List Move} {ended' : ℕ → Bool} (same : ∀ m < n, ended' m = ended m ∧ (ended m = true → own' m = own m)) :
    endedBelow own' ended' n = endedBelow own ended n := by
  have filtered : (List.range n).filter ended' = (List.range n).filter ended :=
    List.filter_congr fun m member => (same m (List.mem_range.mp member)).1
  rw [endedBelow, endedBelow, filtered]
  refine List.map_congr_left fun m member => ?_
  obtain ⟨inside, has_ended⟩ := List.mem_filter.mp member
  exact (same m (List.mem_range.mp inside)).2 has_ended

theorem endedBelow_split (before : n < m) : endedBelow own ended m =
    endedBelow own ended n ++ (if ended n then [own n] else []) ++ ((List.range' (n + 1) (m - (n + 1))).filter ended).map own := by
  have numbers : List.range m = List.range n ++ [n] ++ List.range' (n + 1) (m - (n + 1)) := by
    rw [← List.range_succ, List.range_eq_range', List.range_eq_range']
    have length : m = (n + 1) + (m - (n + 1)) := by omega
    conv_lhs => rw [length, ← List.range'_append]
    congr 2
    omega
  rw [endedBelow, numbers, List.filter_append, List.filter_append, List.map_append, List.map_append, endedBelow, List.filter_singleton]
  congr 2
  cases ended n with
  | true => rfl
  | false => rfl

/-- An Episode goes on by one transition that it may take. -/
theorem Legal.move (legal : Legal own ended) (open_ : ended n = false) {before : Statuses} {after : Statuses × List String}
    (begins : runEpisodes [] (endedBelow own ended n) = some before) (ran : runMoves before [] (own n) = some after)
    (admitted : Admits after.1 after.2 id action) (fresh : action = .propose → ∀ m, id ∉ proposals (own m)) :
    Legal (Function.update own n (own n ++ [(id, action)])) ended := by
  have of_update {m : ℕ} {other : String} (proposed : other ∈ proposals (Function.update own n (own n ++ [(id, action)]) m)) :
      other ∈ proposals (own m) ∨ m = n ∧ other = id ∧ action = .propose := by
    by_cases same : m = n
    · subst same
      rw [Function.update_self, mem_proposals, List.mem_append, List.mem_singleton, Prod.mk.injEq] at proposed
      exact proposed.imp mem_proposals.mpr fun ⟨named, proposes⟩ => ⟨rfl, named, proposes.symm⟩
    · rw [Function.update_of_ne same] at proposed
      exact .inl proposed
  refine ⟨fun m k different other proposed proposed' => ?_, fun m => ?_⟩
  · rcases of_update proposed with here | ⟨rfl, rfl, proposes⟩
    · rcases of_update proposed' with there | ⟨rfl, rfl, proposes⟩
      · exact legal.apart m k different other here there
      · exact fresh proposes m here
    · rcases of_update proposed' with there | ⟨rfl, _⟩
      · exact fresh proposes k there
      · exact different rfl
  · obtain ⟨before', after', begins', idle, ran', idle'⟩ := legal.runs m
    have same : endedBelow (Function.update own n (own n ++ [(id, action)])) ended m = endedBelow own ended m := by
      refine endedBelow_congr fun k _ => ⟨rfl, fun has_ended => Function.update_of_ne ?_ _ _⟩
      rintro rfl
      rw [open_] at has_ended
      cases has_ended
    rw [same]
    by_cases here : m = n
    · subst here
      cases begins.symm.trans begins'
      refine ⟨_, (Items.set after.1 id (DIRECTION_STATUS action), addStarted after.2 id action), begins', idle, ?_, fun has_ended => ?_⟩
      · rw [Function.update_self, runMoves_append, ran, Option.bind_some, runMoves, if_pos admitted]
        rfl
      · rw [open_] at has_ended
        cases has_ended
    · exact ⟨before', after', begins', idle, by rwa [Function.update_of_ne here], idle'⟩

/-- The Episodes before one, with one more among them that has ended. -/
theorem Legal.overtaken (legal : Legal own ended) {before : Statuses} {after : Statuses × List String}
    (begins : runEpisodes [] (endedBelow own ended n) = some before) (ran : runMoves before [] (own n) = some after) (idle : Idle after.1)
    (open_ : ended n = false) (later : n < m) {before' : Statuses} (begins' : runEpisodes [] (endedBelow own ended m) = some before') :
    ∃ before'', runEpisodes [] (endedBelow own (Function.update ended n true) m) = some before'' ∧ Below before' before'' ∧
      NewOnly before' before'' (proposals (own n)) := by
  have distinct := runEpisodes_distinct distinct_nil begins
  have idle_before : Idle before := by
    obtain ⟨_, _, begins', idle', _⟩ := legal.runs n
    cases begins.symm.trans begins'
    exact idle'
  rw [endedBelow_split later, if_neg (by rw [open_]; exact Bool.false_ne_true), List.append_nil, runEpisodes_append, begins,
    Option.bind_some] at begins'
  have same : endedBelow own (Function.update ended n true) m =
      endedBelow own ended n ++ [own n] ++ ((List.range' (n + 1) (m - (n + 1))).filter ended).map own := by
    rw [endedBelow_split later, Function.update_self, if_pos rfl]
    congr 1
    · congr 1
      exact endedBelow_congr fun k less => ⟨Function.update_of_ne (Nat.ne_of_lt less) _ _, fun _ => rfl⟩
    · congr 1
      refine List.filter_congr fun k member => Function.update_of_ne (Nat.ne_of_gt ?_) _ _
      exact (List.mem_range'_1.mp member).1
  have only : NewOnly before after.1 (proposals (own n)) := fun id known => runMoves_known ran known
  have apart : ∀ moves ∈ ((List.range' (n + 1) (m - (n + 1))).filter ended).map own, ∀ id ∈ proposals moves, id ∉ proposals (own n) := by
    intro moves member
    obtain ⟨k, inside, rfl⟩ := List.mem_map.mp member
    have above := (List.mem_range'_1.mp (List.mem_of_mem_filter inside)).1
    exact legal.apart k n (Nat.ne_of_gt above)
  obtain ⟨before'', begins'', below, only'⟩ := runEpisodes_below ((runMoves_grown ran).below idle_before idle) distinct
    (runMoves_distinct distinct ran) only apart begins'
  refine ⟨before'', ?_, below, only'⟩
  rw [same, runEpisodes_append, runEpisodes_append, begins, Option.bind_some]
  exact Option.bind_eq_some_iff.mpr ⟨after.1, Option.bind_eq_some_iff.mpr ⟨after, ran, rfl⟩, begins''⟩

theorem endedBelow_earlier (not_later : m ≤ n) : endedBelow own (Function.update ended n true) m = endedBelow own ended m :=
  endedBelow_congr fun _ less => ⟨Function.update_of_ne (Nat.ne_of_lt (Nat.lt_of_lt_of_le less not_later)) _ _, fun _ => rfl⟩

/-- An Episode ends when none of its Directions is in progress; those after it run on, whether they have ended or not. -/
theorem Legal.finish (legal : Legal own ended) {before : Statuses} {after : Statuses × List String}
    (begins : runEpisodes [] (endedBelow own ended n) = some before) (ran : runMoves before [] (own n) = some after) (idle : Idle after.1)
    (open_ : ended n = false) : Legal own (Function.update ended n true) := by
  refine ⟨legal.apart, fun m => ?_⟩
  obtain ⟨before', after', begins', idle_before, ran', idle'⟩ := legal.runs m
  rcases Nat.lt_or_ge n m with later | not_later
  · obtain ⟨before'', begins'', below, only⟩ := legal.overtaken begins ran idle open_ later begins'
    have fresh : ∀ id ∈ proposals (own m), Items.get? before'' id ≠ none → Items.get? before' id ≠ none := fun id proposed known =>
      (only id known).resolve_right (legal.apart m n (Nat.ne_of_gt later) id proposed)
    obtain ⟨after'', ran'', below'⟩ := runMoves_below below (runEpisodes_distinct distinct_nil begins')
      (runEpisodes_distinct distinct_nil begins'') fresh ran'
    refine ⟨before'', after'', begins'', below.idle idle_before, ran'', fun has_ended => ?_⟩
    rw [Function.update_of_ne (Nat.ne_of_gt later)] at has_ended
    exact below'.idle (idle' has_ended)
  · refine ⟨before', after', by rw [endedBelow_earlier not_later, begins'], idle_before, ran', fun has_ended => ?_⟩
    by_cases here : m = n
    · subst here
      cases begins.symm.trans begins'
      cases ran.symm.trans ran'
      exact idle
    · rw [Function.update_of_ne here] at has_ended
      exact idle' has_ended

/-! ### Histories that were looked at earlier -/

/-- Since the statuses before an Episode were looked at, only Directions of other Episodes have come to them. -/
structure Overtaken (own : ℕ → List Move) (ended : ℕ → Bool) (n : ℕ) (statuses : Statuses) : Prop where
  distinct : Distinct statuses
  runs : ∃ after, runMoves statuses [] (own n) = some after
  since : ∃ before, runEpisodes [] (endedBelow own ended n) = some before ∧ Below statuses before ∧
    ∀ id, Items.get? before id ≠ none → Items.get? statuses id ≠ none ∨ ∃ m, m ≠ n ∧ id ∈ proposals (own m)

/-- What was seen to be legal at some moment still is, and what was seen to be idle. -/
theorem Overtaken.now (overtaken : Overtaken own ended n statuses) (legal : Legal own ended) :
    ∃ before seen after, runEpisodes [] (endedBelow own ended n) = some before ∧ runMoves statuses [] (own n) = some seen ∧
      runMoves before [] (own n) = some after ∧ Below seen.1 after.1 ∧ seen.2 = after.2 ∧ Distinct seen.1 ∧ Distinct after.1 ∧
      ∀ id, Items.get? after.1 id ≠ none → Items.get? seen.1 id ≠ none ∨ ∃ m, id ∈ proposals (own m) := by
  obtain ⟨before, begins, below, others⟩ := overtaken.since
  obtain ⟨seen, ran⟩ := overtaken.runs
  have distinct := runEpisodes_distinct distinct_nil begins
  have fresh : ∀ id ∈ proposals (own n), Items.get? before id ≠ none → Items.get? statuses id ≠ none := by
    intro id proposed known
    rcases others id known with old | ⟨m, different, elsewhere⟩
    · exact old
    · exact absurd proposed (legal.apart m n different id elsewhere)
  obtain ⟨after, ran', below'⟩ := runMoves_below below overtaken.distinct distinct fresh ran
  refine ⟨before, seen, after, begins, ran, ran', below', ?_, runMoves_distinct overtaken.distinct ran, runMoves_distinct distinct ran', ?_⟩
  · rw [runMoves_startedBy ran, runMoves_startedBy ran']
  · intro id known
    rcases runMoves_known ran' known with old | proposed
    · rcases others id old with old | ⟨m, _, elsewhere⟩
      · exact .inl ((runMoves_grown ran).known id old)
      · exact .inr ⟨m, elsewhere⟩
    · exact .inr ⟨n, proposed⟩

/-- A transition that was seen to be legal may still be taken. -/
theorem Legal.moveSeen (legal : Legal own ended) (overtaken : Overtaken own ended n statuses) (open_ : ended n = false)
    {seen : Statuses × List String} (ran : runMoves statuses [] (own n) = some seen) (admitted : Admits seen.1 seen.2 id action)
    (fresh : action = .propose → ∀ m, id ∉ proposals (own m)) : Legal (Function.update own n (own n ++ [(id, action)])) ended := by
  obtain ⟨before, seen', after, begins, ran', now, below, started, distinct, distinct', others⟩ := overtaken.now legal
  cases ran.symm.trans ran'
  refine legal.move open_ begins now ?_ fresh
  rw [← started]
  refine admitted.below below distinct distinct' fun proposes known => (others id known).resolve_right ?_
  rintro ⟨m, proposed⟩
  exact fresh proposes m proposed

/-- An Episode that was seen to be idle may still end. -/
theorem Overtaken.idle (overtaken : Overtaken own ended n statuses) (legal : Legal own ended) {seen : Statuses × List String}
    (ran : runMoves statuses [] (own n) = some seen) (idle : Idle seen.1) :
    ∃ before after, runEpisodes [] (endedBelow own ended n) = some before ∧ runMoves before [] (own n) = some after ∧ Idle after.1 := by
  obtain ⟨before, seen', after, begins, ran', now, below, _⟩ := overtaken.now legal
  cases ran.symm.trans ran'
  exact ⟨before, after, begins, now, below.idle idle⟩

theorem Legal.look (legal : Legal own ended) {before : Statuses} (begins : runEpisodes [] (endedBelow own ended n) = some before) :
    Overtaken own ended n before := by
  obtain ⟨_, after, begins', _, ran, _⟩ := legal.runs n
  cases begins.symm.trans begins'
  exact ⟨runEpisodes_distinct distinct_nil begins, ⟨after, ran⟩, before, begins, Below.refl before, fun _ known => .inl known⟩

/-- Transitions of other Episodes leave what one has seen. -/
theorem Overtaken.move (overtaken : Overtaken own ended m statuses) (different : m ≠ n) (open_ : ended n = false) :
    Overtaken (Function.update own n (own n ++ [(id, action)])) ended m statuses := by
  obtain ⟨before, begins, below, others⟩ := overtaken.since
  refine ⟨overtaken.distinct, by rw [Function.update_of_ne different]; exact overtaken.runs, before, ?_, below, fun id known => ?_⟩
  · rw [← begins]
    congr 1
    refine endedBelow_congr fun k _ => ⟨rfl, fun has_ended => Function.update_of_ne ?_ _ _⟩
    rintro rfl
    rw [open_] at has_ended
    cases has_ended
  · refine (others id known).imp_right fun ⟨k, other, proposed⟩ => ⟨k, other, ?_⟩
    by_cases here : k = n
    · rw [here] at proposed ⊢
      rw [Function.update_self, mem_proposals, List.mem_append]
      exact .inl (mem_proposals.mp proposed)
    · rw [Function.update_of_ne here]
      exact proposed

/-- Episodes that end overtake what a later one has seen. -/
theorem Overtaken.finish (overtaken : Overtaken own ended m statuses) (legal : Legal own ended) {before : Statuses} {after : Statuses × List String}
    (begins : runEpisodes [] (endedBelow own ended n) = some before) (ran : runMoves before [] (own n) = some after) (idle : Idle after.1)
    (open_ : ended n = false) : Overtaken own (Function.update ended n true) m statuses := by
  obtain ⟨before', begins', below, others⟩ := overtaken.since
  refine ⟨overtaken.distinct, overtaken.runs, ?_⟩
  rcases Nat.lt_or_ge n m with later | not_later
  · obtain ⟨before'', begins'', below', only⟩ := legal.overtaken begins ran idle open_ later begins'
    refine ⟨before'', begins'', below.trans below', fun id known => ?_⟩
    rcases only id known with old | proposed
    · exact others id old
    · exact .inr ⟨n, Nat.ne_of_lt later, proposed⟩
  · exact ⟨before', by rw [endedBelow_earlier not_later, begins'], below, others⟩

end

end AtrexAgent.Journal
