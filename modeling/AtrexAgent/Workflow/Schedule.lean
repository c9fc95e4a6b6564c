import AtrexAgent.Workflow.Ledger

/-! No operation, failure or crash of the coordinator makes the history break its
law, whatever order the jobs complete in. -/

namespace AtrexAgent.Search

open AtrexAgent.Transition

/-- What an operation may do: where it goes the coordinator stands, what it writes is
in order, what it calls is lawful. -/
def Operation.Fine (search : PooledSearch) (disk : Option State) (log : List Event)
    (tokens : Nat) : Operation → Prop
  | .go next => Fits search disk log next
  | .save next => Lawful search.law (changes disk next.state ++ log) ∧
      Ledger search (changes disk next.state ++ log) next.state ∧
      Fits search (some next.state) (changes disk next.state ++ log) next
  | .call event next => disk ≠ none ∧ search.law log event ∧ event.Plain ∧ event.Within tokens ∧
      Fits search disk (event :: log) next
  | .exit => True
  | .raise => True
  | .block => True

section Operations

variable {search : PooledSearch} {log : List Event} {d : State} {k : Coordinator} {tokens : Nat}

theorem dispatch_fine (pool : Pool search k) (busy : Busy log d k none) (index : Nat)
    (spent : Spent log tokens) :
    (search.dispatch tokens index k).Fine search (some d) log tokens := by
  have moved (point : Point) (stands : Busy log d { k with point := point } none →
      Stands search log d { k with point := point }) :
      Fits search (some d) log { k with point := point } :=
    ⟨pool.at point, stands (busy.at point)⟩
  unfold PooledSearch.dispatch
  cases found : k.state.jobs[index]? with
  | none => exact moved .wait id
  | some job =>
      simp only
      split
      · exact moved .wait id
      · next open_ =>
        have clear : k.failure = none := by
          cases failed : k.failure with
          | none => rfl
          | some error => simp [failed] at open_
        have room : k.running.length < search.options.maxParallelEpisodes := by
          by_contra full
          exact open_ (Or.inr (not_lt.mp full))
        have same := busy.current clear
        split
        · exact moved (.dispatch (index + 1)) id
        · next idle =>
          rw [not_or] at idle
          split
          · exact moved (.dispatch (index + 1)) id
          · next ready =>
            split
            · exact moved (.dispatch (index + 1)) id
            · next allowed =>
              apply moved
              intro stands
              refine ⟨stands, job, clear, room, same ▸ found, idle.1, idle.2, ?_, ?_⟩
              · rw [← same]
                exact Bool.eq_false_iff.mpr ready
              · by_cases running : job.status = .running
                · rw [if_pos running]
                  have inFile : d.jobs[index]? = some job := same ▸ found
                  rcases busy.resumed clear index job inFile running with
                    ⟨worker, member, here⟩ | inherited | impossible
                  · have inBusy : job.trajectory ∈ k.busy := by
                      apply List.mem_filterMap.mpr
                      exact ⟨worker, member, by rw [here, found]; rfl⟩
                    exact (idle.2 inBusy).elim
                  · exact inherited
                  · cases impossible
                · rw [if_neg running]
                  have unread : ¬ search.budgetReached tokens = true := fun reached =>
                    allowed ⟨running, reached⟩
                  exact ⟨Bool.eq_false_iff.mpr unread, spent⟩

theorem admit_fine (pool : Pool search k) (ledger : Ledger search log d)
    (lawful : Lawful search.law log) {index : Nat} {reading : Option Nat}
    (busy : Busy log d k none) {job : Job}
    (admissible : Admissible search log d k index reading job) :
    (Operation.save { k with
      state := k.state.onJob index Job.mark
      point := .submit index reading }).Fine search (some d) log tokens := by
  have same := busy.current admissible.clear
  obtain ⟨active, jobs, file, phase, _, _⟩ := busy.ahead
  have found := admissible.found
  have inFile : d.jobs[index]? = some job := found
  have written := changes_onJob file inFile Job.mark
  have slots (i : Nat) : ((d.onJob index Job.mark).jobs[i]?).map Job.slot =
      (d.jobs[i]?).map Job.slot := by
    rw [jobs_onJob]
    exact slot_getElem?_modify Job.slot_mark i
  have now : (d.onJob index Job.mark).jobs[index]? = some job.mark := by
    rw [jobs_onJob]
    exact getElem?_modify_self inFile
  have other {i : Nat} (away : i ≠ index) :
      (d.onJob index Job.mark).jobs[i]? = d.jobs[i]? := by
    rw [jobs_onJob]
    exact getElem?_modify_other away
  simp only [Operation.Fine]
  rw [same, written]
  refine ⟨?_, ledger.marked file phase inFile admissible.unfinished admissible.ready, ?_, ?_⟩
  · rw [Job.change_mark]
    split
    · exact lawful
    · exact ⟨trivial, lawful⟩
  · refine pool.congr _ rfl ?_
    intro i
    rw [same]
    exact slots i
  · have marked : (d.onJob index Job.mark).active =
        some { active with jobs := active.jobs.modify index Job.mark } := by
      simp [State.onJob, onActive_eq file]
    refine ⟨⟨Ahead.refl marked phase, fun _ => rfl, ?_, ?_, ?_⟩, job.mark, ?_, rfl⟩
    · intro worker member
      obtain ⟨theirs, at_, running, started⟩ := (busy.mono (job.change job.mark)).workers worker member
      rw [same] at at_
      by_cases away : worker.job = index
      · refine ⟨job.mark, away ▸ now, rfl, ?_⟩
        rw [away, inFile] at at_
        cases at_
        exact started
      · exact ⟨theirs, (other away).trans at_, running, started⟩
    · intro done member completed
      rw [jobs_onJob] at member
      rcases mem_modify member with original | ⟨original, _, rfl⟩
      · exact (busy.mono (job.change job.mark)).begun done (same ▸ original) completed
      · cases completed
    · intro clear i done at_ running
      by_cases away : i = index
      · exact Or.inr (Or.inr (congrArg some away.symm))
      · have before : d.jobs[i]? = some done := (other away).symm.trans at_
        rcases (busy.mono (job.change job.mark)).resumed clear i done before running with
          here | inherited | impossible
        · exact Or.inl here
        · exact Or.inr (Or.inl inherited)
        · cases impossible
    · refine ⟨admissible.clear, admissible.room, now, by simp [Job.mark], ?_, ?_, ?_⟩
      · have sameBusy : Coordinator.busy { k with
            state := d.onJob index Job.mark, point := .submit index reading } = k.busy := by
          unfold Coordinator.busy
          apply List.filterMap_congr
          intro worker _
          have via := congrArg (Option.map fun slot : Nat × Nat × Nat × Nat => slot.2.1)
            (slots worker.job)
          rw [Option.map_map, Option.map_map] at via
          rw [same]
          exact via
        rw [sameBusy]
        exact admissible.free
      · rw [jobs_onJob, Job.waits_eq_false]
        have ready := Job.waits_eq_false.mp admissible.ready
        intro previous member sameTrajectory earlier
        rcases mem_modify member with original | ⟨original, at_, rfl⟩
        · exact ready previous original sameTrajectory earlier
        · rw [inFile] at at_
          cases at_
          exact (lt_irrefl _ earlier).elim
      · cases reading with
        | some tokens =>
            obtain ⟨under, spent⟩ : search.budgetReached tokens = false ∧ Spent log tokens :=
              admissible.allowed
            exact ⟨under, spent.append (spent_written (change_written _ _) tokens)⟩
        | none =>
            have inherited : Inherited log job.trajectory job.episode := admissible.allowed
            exact inherited.mono _

/-- A start comes after the results of all earlier Episodes of its trajectory. -/
theorem submit_lawful (ledger : Ledger search log d) {index : Nat} {reading : Option Nat}
    {active : Active} (file : d.active = some active) {job : Job}
    (admissible : Admissible search log d k index reading job) (running : job.status = .running)
    (tokens : Nat) :
    search.law log (.started job.trajectory job.episode reading tokens) := by
  have underway := ledger.underway active file
  have found : active.jobs[index]? = some job := jobs_of_active file ▸ admissible.found
  have member := List.mem_of_getElem? found
  refine ⟨?_, ?_, ledger.unrecorded file member admissible.unfinished, ?_, ?_⟩
  · obtain ⟨_, _, _, first, _, episode⟩ := underway.planned.mem member
    omega
  · intro earlier first less
    obtain ⟨_, low, high, _, last, episode⟩ := underway.planned.mem member
    by_cases early : earlier ≤ d.completedEpochs * search.options.episodesPerTrajectory
    · exact ledger.past job.trajectory earlier low high first early
    · have one : 1 ≤ d.epoch := by have := ledger.epoch; omega
      have before : d.epoch - 1 = d.completedEpochs := by have := ledger.epoch; omega
      have whole : d.epoch * search.options.episodesPerTrajectory =
          d.completedEpochs * search.options.episodesPerTrajectory +
            search.options.episodesPerTrajectory := by
        rw [ledger.epoch, Nat.succ_mul]
      rw [before] at episode
      obtain ⟨previous, within, sameT, rfl⟩ := underway.planned.covers one low high
        (by rw [before]; omega) (by omega : earlier ≤ d.epoch * _)
      have ready := Job.waits_eq_false.mp admissible.ready
      rw [jobs_of_active file] at ready
      have done := ready previous within sameT less
      obtain ⟨result, _, recorded⟩ := underway.completed previous within done
      exact ⟨result, sameT ▸ recorded⟩
  · exact underway.marked job member (by simp [running])
  · exact admissible.allowed

theorem submit_fine (pool : Pool search k) (ledger : Ledger search log d) {index : Nat}
    {reading : Option Nat} (busy : Busy log d k (some index)) {job : Job}
    (admissible : Admissible search log d k index reading job) (running : job.status = .running) :
    (Operation.call (.started job.trajectory job.episode reading tokens)
      { k with running := k.running ++ [⟨index, none⟩], point := .dispatch (index + 1) }).Fine
      search (some d) log tokens := by
  have same := busy.current admissible.clear
  obtain ⟨active, _, file, _, _, _⟩ := busy.ahead
  have found : k.state.jobs[index]? = some job := by rw [same]; exact admissible.found
  have later := busy.mono [.started job.trajectory job.episode reading tokens]
  refine ⟨Option.some_ne_none d, submit_lawful ledger file admissible running tokens, trivial,
    le_refl tokens, ⟨?_, ?_, ?_⟩, ⟨busy.ahead, busy.current, ?_, ?_, ?_⟩⟩
  · have room := admissible.room
    simp only [List.length_append, List.length_singleton]
    omega
  · intro worker member
    rcases List.mem_append.mp member with old | new
    · exact pool.placed worker old
    · rw [List.mem_singleton.mp new]
      exact ⟨job, found⟩
  · have split : Coordinator.busy { k with
        running := k.running ++ [⟨index, none⟩], point := .dispatch (index + 1) } =
        k.busy ++ [job.trajectory] := by
      simp [Coordinator.busy, List.filterMap_append, found]
    rw [split, List.nodup_append]
    refine ⟨pool.apart, List.nodup_singleton _, ?_⟩
    intro a inBusy b inNew
    rw [List.mem_singleton.mp inNew]
    rintro rfl
    exact admissible.free inBusy
  · intro worker member
    rcases List.mem_append.mp member with old | new
    · exact later.workers worker old
    · rw [List.mem_singleton.mp new]
      exact ⟨job, found, running, reading, tokens, List.mem_cons_self⟩
  · exact later.begun
  · intro clear i other at_ runs
    rcases later.resumed clear i other at_ runs with ⟨worker, member, here⟩ | inherited | here
    · exact Or.inl ⟨worker, List.mem_append_left _ member, here⟩
    · exact Or.inr (Or.inl inherited)
    · cases here
      exact Or.inl ⟨⟨index, none⟩, List.mem_append_right _ (List.mem_singleton.mpr rfl), rfl⟩

theorem fail_ne_none (k : Coordinator) (error : SearchError) : (k.fail error).failure ≠ none := by
  cases failed : k.failure <;> simp [Coordinator.fail, failed]

theorem Busy.fail {admitted : Option Nat} (busy : Busy log d k admitted) (error : SearchError) :
    Busy log d (k.fail error) none :=
  ⟨busy.ahead, fun clear => (fail_ne_none k error clear).elim, busy.workers, busy.begun,
    fun clear => (fail_ne_none k error clear).elim⟩

/-- A popped future; what memory makes of its job keeps the view of the file. -/
theorem Busy.popped {admitted : Option Nat} (busy : Busy log d k admitted) (index : Nat)
    {error : SearchError} (point : Point) :
    Busy log d (Coordinator.fail { k with
      running := k.running.filter (·.job ≠ index), point := point } error) none := by
  refine ⟨busy.ahead, fun clear => (fail_ne_none _ _ clear).elim, ?_, busy.begun,
    fun clear => (fail_ne_none _ _ clear).elim⟩
  intro worker member
  exact busy.workers worker (List.mem_filter.mp member).1

theorem Pool.popped (pool : Pool search k) (index : Nat) (point : Point)
    (failure : Option SearchError) :
    Pool search ⟨k.state, point, k.running.filter (·.job ≠ index), failure⟩ := by
  constructor
  · exact (List.length_filter_le _ _).trans pool.bounded
  · intro worker member
    exact pool.placed worker (List.mem_filter.mp member).1
  · exact pool.apart.sublist (List.filter_sublist.filterMap _)

/-- The save of a result, and what stays true if it raises before or after it wrote. -/
theorem collect_save (pool : Pool search k) (ledger : Ledger search log d)
    (lawful : Lawful search.law log) (busy : Busy log d k none) {index : Nat} {rest : List Nat}
    {next : Coordinator} (saves : PooledSearch.collect k index rest = .save next) :
    (Operation.save next).Fine search (some d) log tokens ∧
      (next.point = .collect rest) ∧ Pool search next ∧
      Busy log d (next.fail .raised) none := by
  unfold PooledSearch.collect at saves
  simp only at saves
  split at saves
  · next job ending result found popped =>
    split at saves
    · next ours =>
      cases saves
      obtain ⟨worker, member, here⟩ : ∃ worker ∈ k.running, worker.job = index := by
        refine ⟨_, List.mem_of_find?_eq_some popped, ?_⟩
        simpa using List.find?_some popped
      obtain ⟨own, at_, running, started⟩ := busy.workers worker member
      rw [here, found] at at_
      cases at_
      have ahead := busy.ahead.complete found running ours
      have begun : ∀ done ∈ (k.state.onJob index (Job.complete result)).jobs,
          done.status = .completed → Begun log done.trajectory done.episode := by
        intro done within completed
        rw [jobs_onJob] at within
        rcases mem_modify within with original | ⟨original, at_, rfl⟩
        · exact busy.begun done original completed
        · rw [found] at at_
          cases at_
          exact started
      have workers : ∀ other ∈ k.running.filter (·.job ≠ index), ∃ theirs,
          (k.state.onJob index (Job.complete result)).jobs[other.job]? = some theirs ∧
            theirs.status = .running ∧ Begun log theirs.trajectory theirs.episode := by
        intro other within
        obtain ⟨original, away⟩ := List.mem_filter.mp within
        obtain ⟨theirs, at_, runs, begins⟩ := busy.workers other original
        refine ⟨theirs, ?_, runs, begins⟩
        rw [jobs_onJob, getElem?_modify_other (by simpa using away)]
        exact at_
      have pool' : Pool search { k with
          state := k.state.onJob index (Job.complete result)
          running := k.running.filter (·.job ≠ index), point := .collect rest } := by
        refine (pool.popped index (.collect rest) k.failure).congr _ rfl ?_
        intro i
        rw [jobs_onJob]
        exact slot_getElem?_modify (fun job => Job.slot_complete job result) i
      obtain ⟨lawful', ledger'⟩ := ahead.save ledger lawful begun
      refine ⟨⟨lawful', ledger', pool', ?_⟩, rfl, pool', ?_⟩
      · obtain ⟨active, jobs, file, phase, shape, caught⟩ := ahead
        have later := busy.mono (changes (some d) (k.state.onJob index (Job.complete result)))
        have written : (k.state.onJob index (Job.complete result)).active =
            some { active with jobs := jobs } := by rw [shape]
        refine ⟨Ahead.refl written phase, fun _ => rfl, ?_, ?_, ?_⟩
        · intro other within
          obtain ⟨theirs, at_, runs, reading, tokens, begins⟩ := workers other within
          exact ⟨theirs, at_, runs, reading, tokens, List.mem_append_right _ begins⟩
        · intro done within completed
          obtain ⟨reading, tokens, begins⟩ := begun done within completed
          exact ⟨reading, tokens, List.mem_append_right _ begins⟩
        · intro clear i theirs at_ runs
          rw [jobs_onJob] at at_
          by_cases away : i = index
          · subst away
            rw [getElem?_modify_self found] at at_
            cases at_
            cases runs
          · rw [getElem?_modify_other away] at at_
            have current := later.current clear
            rcases later.resumed clear i theirs (current ▸ at_) runs with
              ⟨other, within, at__⟩ | inherited | impossible
            · refine Or.inl ⟨other, List.mem_filter.mpr ⟨within, ?_⟩, at__⟩
              simpa [at__] using away
            · exact Or.inr (Or.inl inherited)
            · cases impossible
      · refine ⟨ahead, ?_, workers, begun, ?_⟩
        · exact fun clear => (fail_ne_none _ _ clear).elim
        · exact fun clear => (fail_ne_none _ _ clear).elim
    · cases saves
  · cases saves
  · cases saves

theorem collect_fine (pool : Pool search k) (ledger : Ledger search log d)
    (lawful : Lawful search.law log) (busy : Busy log d k none) (index : Nat)
    (rest : List Nat) : (PooledSearch.collect k index rest).Fine search (some d) log tokens := by
  have failing (error : SearchError) : Fits search (some d) log (Coordinator.fail { k with
      running := k.running.filter (·.job ≠ index), point := .collect rest } error) :=
    ⟨pool.popped index _ _, busy.popped index (.collect rest)⟩
  cases saves : PooledSearch.collect k index rest with
  | save next => exact (collect_save pool ledger lawful busy saves).1
  | go next =>
      unfold PooledSearch.collect at saves
      simp only at saves
      split at saves
      · split at saves
        · cases saves
        · cases saves
          exact failing .identity
      · cases saves
        exact failing .raised
      · cases saves
  | call event next =>
      unfold PooledSearch.collect at saves
      simp only at saves
      split at saves
      · split at saves <;> cases saves
      · cases saves
      · cases saves
  | exit => trivial
  | raise => trivial
  | block => trivial

theorem await_fine (pool : Pool search k) (busy : Busy log d k none) (order : List Nat) :
    (PooledSearch.await order k).Fine search (some d) log tokens := by
  unfold PooledSearch.await
  simp only
  split
  · next empty =>
    split
    · trivial
    · next clear =>
      split
      · next all =>
        have clear' : k.failure = none := by
          cases failed : k.failure with
          | none => rfl
          | some error => simp [failed] at clear
        have same := busy.current clear'
        obtain ⟨active, _, file, phase, _, _⟩ := busy.ahead
        have completed : ∀ job ∈ active.jobs, job.status = .completed := by
          rw [same, jobs_of_active file] at all
          simpa using all
        refine ⟨pool.at .select, ⟨same, empty, clear', ?_⟩, active, file, phase, completed⟩
        intro job member running
        rw [jobs_of_active file] at member
        rw [completed job member] at running
        cases running
      · trivial
  · split
    · exact ⟨pool.at (.collect order), busy.at (.collect order)⟩
    · trivial

theorem head_fine (ledger : Ledger search log d) (lawful : Lawful search.law log)
    (idle : Idle log d k) (going : d.stopReason = none) (point : k.point = .head) (order : List Nat) :
    (search.operation tokens order k).Fine search (some d) log tokens := by
  obtain rfl := idle.current
  simp only [PooledSearch.operation, point]
  split
  · next within =>
    cases file : k.state.active with
    | some active => exact ⟨Pool.empty idle.empty, idle.at .prepare⟩
    | none =>
        simp only
        split
        · trivial
        · have written : changes (some k.state) (search.openEpoch k.state) =
              [.opened k.state.epoch k.state.seed] := by
            simp [changes, file, PooledSearch.openEpoch]
          simp only [Operation.Fine]
          rw [written]
          refine ⟨⟨trivial, lawful⟩, ledger.opened file within going, Pool.empty idle.empty,
            ⟨rfl, idle.empty, idle.clear, ?_⟩⟩
          intro job member running
          have pending : job.status = .pending := (mem_plan.mp member).2.2.2.2.2.2.1
          rw [pending] at running
          cases running
  · trivial

theorem prepare_fine (idle : Idle log d k) (point : k.point = .prepare)
    (order : List Nat) (ledger : Ledger search log d) (lawful : Lawful search.law log) :
    (search.operation tokens order k).Fine search (some d) log tokens := by
  obtain rfl := idle.current
  simp only [PooledSearch.operation, point]
  cases file : k.state.active with
  | none => trivial
  | some active =>
      simp only
      cases phase : active.phase with
      | preparing =>
          exact ⟨Option.some_ne_none _, trivial, trivial, trivial, Pool.empty idle.empty,
            (idle.mono [.prepared k.state.epoch active.seed]).at .prepared, active, file, phase⟩
      | publishing => exact ⟨Pool.empty idle.empty, idle.at .publish, active, file, phase⟩
      | running =>
          refine ⟨Pool.empty idle.empty, Ahead.refl file phase, fun _ => rfl, ?_, ?_, ?_⟩
          · intro worker member
            have none_ : worker ∈ ([] : List Worker) := idle.empty ▸ member
            cases none_
          · intro job member completed
            have inJobs : job ∈ active.jobs := jobs_of_active file ▸ member
            obtain ⟨result, _, recorded⟩ :=
              (ledger.underway active file).completed job inJobs completed
            obtain ⟨after, before, rfl, ⟨⟨reading, total, started⟩, _⟩, _⟩ :=
              lawful.of_mem recorded
            exact ⟨reading, total,
              List.mem_append_right _ (List.mem_cons_of_mem _ started)⟩
          · intro _ i job found running
            exact Or.inr (Or.inl (idle.resumed job (List.mem_of_getElem? found) running))

theorem prepared_fine (idle : Idle log d k) (point : k.point = .prepared) {active : Active}
    (file : d.active = some active) (phase : active.phase = .preparing)
    (order : List Nat) (ledger : Ledger search log d) (lawful : Lawful search.law log) :
    (search.operation tokens order k).Fine search (some d) log tokens := by
  obtain rfl := idle.current
  have underway := ledger.underway active file
  have pending := underway.preparing phase
  have shape := onActive_eq file fun active => { active with phase := .running }
  have written : changes (some k.state)
      (k.state.onActive fun active => { active with phase := .running }) = [] :=
    changes_onActive file rfl
  have open_ : (k.state.onActive fun active => { active with phase := .running }).active =
      some { active with phase := .running } := by rw [shape]
  simp only [PooledSearch.operation, point, Operation.Fine]
  rw [written]
  refine ⟨lawful, ledger.onActive file rfl ?_, Pool.empty idle.empty, Ahead.refl open_ rfl,
    fun _ => rfl, ?_, ?_, ?_⟩
  · refine ⟨underway.epoch, underway.within, underway.going, underway.seed, underway.planned,
      underway.completed, underway.marked, underway.ordered, ?_, ?_⟩
    · intro preparing
      cases preparing
    · intro publishing
      cases publishing
  · intro worker member
    have none_ : worker ∈ ([] : List Worker) := idle.empty ▸ member
    cases none_
  · intro job member completed
    have inJobs : job ∈ active.jobs := by rw [shape] at member; exact member
    rw [pending job inJobs] at completed
    cases completed
  · intro _ i job found running
    have inJobs : job ∈ active.jobs := by
      rw [shape] at found
      exact List.mem_of_getElem? found
    rw [pending job inJobs] at running
    cases running

theorem select_fine (idle : Idle log d k) (point : k.point = .select) {active : Active}
    (file : d.active = some active) (all : ∀ job ∈ active.jobs, job.status = .completed)
    (order : List Nat) (ledger : Ledger search log d)
    (lawful : Lawful search.law log) :
    (search.operation tokens order k).Fine search (some d) log tokens := by
  obtain rfl := idle.current
  have underway := ledger.underway active file
  simp only [PooledSearch.operation, point, file]
  cases selected : selectWinner active.seed active.jobs with
  | error error => trivial
  | ok winner =>
      have shape := onActive_eq file fun active =>
        { active with winner := some winner, phase := .publishing }
      have written : changes (some k.state) (k.state.onActive fun active =>
          { active with winner := some winner, phase := .publishing }) = [] :=
        changes_onActive file rfl
      simp only [Operation.Fine]
      rw [written]
      refine ⟨lawful, ledger.onActive file rfl ?_, Pool.empty idle.empty,
        ⟨rfl, idle.empty, idle.clear, ?_⟩,
        { active with winner := some winner, phase := .publishing }, by rw [shape], rfl⟩
      · refine ⟨underway.epoch, underway.within, underway.going, underway.seed, underway.planned,
          underway.completed, underway.marked, underway.ordered, ?_, ?_⟩
        · intro preparing
          cases preparing
        · intro _
          exact ⟨all, winner, rfl, selected⟩
      · intro job member running
        rw [shape] at member
        have completed := all job member
        rw [running] at completed
        cases completed

theorem publish_fine (idle : Idle log d k) (point : k.point = .publish) {active : Active}
    (file : d.active = some active) (phase : active.phase = .publishing)
    (order : List Nat) (ledger : Ledger search log d) :
    (search.operation tokens order k).Fine search (some d) log tokens := by
  obtain rfl := idle.current
  have underway := ledger.underway active file
  obtain ⟨all, winner, have_, selected⟩ := underway.publishing phase
  obtain ⟨epoch, seed, phase', jobs, won⟩ := active
  cases have_
  simp only [PooledSearch.operation, point, file]
  refine ⟨Option.some_ne_none _, ⟨?_, ?_, jobs, underway.planned, ?_, selected⟩, trivial, trivial,
    Pool.empty idle.empty, (idle.mono [_]).at .summarize, _, winner, file, phase, rfl, List.mem_cons_self⟩
  · rw [ledger.incumbent]
    exact congrArg some underway.seed.symm
  · rw [ledger.epochs, ledger.epoch]
  · intro job member
    exact underway.completed job member (all job member)

theorem summarize_fine (idle : Idle log d k) (point : k.point = .summarize) {active : Active}
    {winner : Kernel} (file : d.active = some active) (phase : active.phase = .publishing)
    (won : active.winner = some winner)
    (published : .published d.epoch active.seed winner ∈ log)
    (order : List Nat) : (search.operation tokens order k).Fine search (some d) log tokens := by
  obtain rfl := idle.current
  obtain ⟨epoch, seed, phase', jobs, winner'⟩ := active
  cases won
  simp only [PooledSearch.operation, point, file]
  exact ⟨Option.some_ne_none _, trivial, trivial, trivial, Pool.empty idle.empty, (idle.mono [_]).at .close,
    _, winner, file, phase, rfl, List.mem_cons_of_mem _ published⟩

theorem close_fine (idle : Idle log d k) (point : k.point = .close) {active : Active}
    {winner : Kernel} (file : d.active = some active) (phase : active.phase = .publishing)
    (won : active.winner = some winner)
    (published : .published d.epoch active.seed winner ∈ log) (order : List Nat)
    (ledger : Ledger search log d) (lawful : Lawful search.law log) :
    (search.operation tokens order k).Fine search (some d) log tokens := by
  obtain rfl := idle.current
  have underway := ledger.underway active file
  simp only [PooledSearch.operation, point, file]
  cases closes : search.closeEpoch k.state active with
  | error error => trivial
  | ok next =>
      obtain ⟨winner', won', seed, none_, _, ledger'⟩ := ledger.closed file phase closes
      have same : winner' = winner := Option.some_injective _ (won'.symm.trans won)
      subst same
      have written : changes (some k.state) next =
          [.closed active.epoch active.seed winner'] := by
        simp [changes, file, none_, seed]
      have allowed : search.law log (.closed active.epoch active.seed winner') := by
        refine ⟨?_, ?_, ?_⟩
        · rw [underway.epoch]
          exact published
        · rw [ledger.incumbent, underway.seed]
        · rw [ledger.epochs, underway.epoch, ledger.epoch]
      simp only [Operation.Fine]
      rw [written]
      refine ⟨⟨allowed, lawful⟩, ledger', Pool.empty idle.empty,
        ⟨rfl, idle.empty, idle.clear, ?_⟩⟩
      intro job member
      simp [State.jobs, none_] at member

/-- One case for each point of `_run` and `_run_jobs`. -/
theorem operation_fine (stands : Stands search log d k) (pool : Pool search k)
    (ledger : Ledger search log d) (lawful : Lawful search.law log) (spent : Spent log tokens)
    (order : List Nat) :
    (search.operation tokens order k).Fine search (some d) log tokens := by
  unfold Stands at stands
  cases point : k.point with
  | create =>
      rw [point] at stands
      exact stands.elim
  | check =>
      rw [point] at stands
      have idle : Idle log d k := stands
      simp only [PooledSearch.operation, point]
      split
      · exact ⟨Option.some_ne_none d, trivial, trivial, trivial, Pool.empty idle.empty,
          (idle.mono [_]).at .resume⟩
      · trivial
  | resume =>
      rw [point] at stands
      have idle : Idle log d k := stands
      simp only [PooledSearch.operation, point]
      split
      · trivial
      · next going =>
        refine ⟨Pool.empty idle.empty, idle.at .head, ?_⟩
        rw [idle.current] at going
        simpa using going
  | head =>
      rw [point] at stands
      exact head_fine ledger lawful stands.1 stands.2 point order
  | prepare =>
      rw [point] at stands
      exact prepare_fine stands point order ledger lawful
  | prepared =>
      rw [point] at stands
      obtain ⟨idle, active, file, phase⟩ := stands
      exact prepared_fine idle point file phase order ledger lawful
  | dispatch index =>
      rw [point] at stands
      simp only [PooledSearch.operation, point]
      exact dispatch_fine pool stands index spent
  | admitted index reading =>
      rw [point] at stands
      obtain ⟨busy, job, admissible⟩ := stands
      simp only [PooledSearch.operation, point]
      exact admit_fine pool ledger lawful busy admissible
  | submit index reading =>
      rw [point] at stands
      obtain ⟨busy, job, admissible, running⟩ := stands
      have found : k.state.jobs[index]? = some job := by
        rw [busy.current admissible.clear]
        exact admissible.found
      simp only [PooledSearch.operation, point, found]
      exact submit_fine pool ledger busy admissible running
  | wait =>
      rw [point] at stands
      simp only [PooledSearch.operation, point]
      exact await_fine pool stands order
  | collect done =>
      rw [point] at stands
      have busy : Busy log d k none := stands
      cases done with
      | nil =>
          simp only [PooledSearch.operation, point]
          exact ⟨pool.at (.dispatch 0), busy.at (.dispatch 0)⟩
      | cons index rest =>
          simp only [PooledSearch.operation, point]
          exact collect_fine pool ledger lawful busy index rest
  | select =>
      rw [point] at stands
      obtain ⟨idle, active, file, _, all⟩ := stands
      exact select_fine idle point file all order ledger lawful
  | publish =>
      rw [point] at stands
      obtain ⟨idle, active, file, phase⟩ := stands
      exact publish_fine idle point file phase order ledger
  | summarize =>
      rw [point] at stands
      obtain ⟨idle, active, winner, file, phase, won, published⟩ := stands
      exact summarize_fine idle point file phase won published order
  | close =>
      rw [point] at stands
      obtain ⟨idle, active, winner, file, phase, won, published⟩ := stands
      exact close_fine idle point file phase won published order ledger lawful
  | leave =>
      simp only [PooledSearch.operation, point]
      split
      · trivial
      · trivial

end Operations

section Finishing

variable {search : PooledSearch} {log : List Event} {d : State} {k : Coordinator} (job : Nat)
  (ending : Ending)

/-- A pool thread ends; its future stays where it is. -/
def Coordinator.finish (k : Coordinator) : Coordinator :=
  { k with running := k.running.map (Worker.finish job ending) }

@[simp] theorem job_finish (worker : Worker) : (worker.finish job ending).job = worker.job := by
  unfold Worker.finish
  split <;> rfl

theorem busy_finish : (k.finish job ending).busy = k.busy := by
  unfold Coordinator.busy Coordinator.finish
  rw [List.filterMap_map]
  apply List.filterMap_congr
  intro worker _
  simp

theorem Pool.finish (pool : Pool search k) : Pool search (k.finish job ending) := by
  refine ⟨?_, ?_, ?_⟩
  · rw [Coordinator.finish, List.length_map]
    exact pool.bounded
  · intro worker member
    obtain ⟨original, within, rfl⟩ := List.mem_map.mp member
    rw [job_finish]
    exact pool.placed original within
  · rw [busy_finish]
    exact pool.apart

theorem Idle.finish (idle : Idle log d k) : Idle log d (k.finish job ending) :=
  ⟨idle.current, by simp [Coordinator.finish, idle.empty], idle.clear, idle.resumed⟩

theorem Busy.finish {admitted : Option Nat} (busy : Busy log d k admitted) :
    Busy log d (k.finish job ending) admitted := by
  refine ⟨busy.ahead, busy.current, ?_, busy.begun, ?_⟩
  · intro worker member
    obtain ⟨original, within, rfl⟩ := List.mem_map.mp member
    rw [job_finish]
    exact busy.workers original within
  · intro clear i theirs found running
    rcases busy.resumed clear i theirs found running with ⟨worker, within, here⟩ | other
    · refine Or.inl ⟨_, List.mem_map_of_mem within, ?_⟩
      rw [job_finish]
      exact here
    · exact Or.inr other

theorem Admissible.finish {index : Nat} {reading : Option Nat} {own : Job}
    (admissible : Admissible search log d k index reading own) :
    Admissible search log d (k.finish job ending) index reading own := by
  refine ⟨admissible.clear, ?_, admissible.found, admissible.unfinished, ?_, admissible.ready,
    admissible.allowed⟩
  · rw [Coordinator.finish, List.length_map]
    exact admissible.room
  · rw [busy_finish]
    exact admissible.free

theorem Stands.finish (stands : Stands search log d k) :
    Stands search log d (k.finish job ending) := by
  have point : (k.finish job ending).point = k.point := rfl
  unfold Stands at stands ⊢
  rw [point]
  cases here : k.point with
  | create => rw [here] at stands; exact stands
  | check => rw [here] at stands; exact Idle.finish job ending stands
  | resume => rw [here] at stands; exact Idle.finish job ending stands
  | head => rw [here] at stands; exact ⟨stands.1.finish job ending, stands.2⟩
  | prepare => rw [here] at stands; exact Idle.finish job ending stands
  | prepared => rw [here] at stands; exact ⟨stands.1.finish job ending, stands.2⟩
  | dispatch index => rw [here] at stands; exact Busy.finish job ending stands
  | admitted index reading =>
      rw [here] at stands
      obtain ⟨busy, own, admissible⟩ := stands
      exact ⟨busy.finish job ending, own, admissible.finish job ending⟩
  | submit index reading =>
      rw [here] at stands
      obtain ⟨busy, own, admissible, running⟩ := stands
      exact ⟨busy.finish job ending, own, admissible.finish job ending, running⟩
  | wait => rw [here] at stands; exact Busy.finish job ending stands
  | collect done => rw [here] at stands; exact Busy.finish job ending stands
  | select => rw [here] at stands; exact ⟨stands.1.finish job ending, stands.2⟩
  | publish => rw [here] at stands; exact ⟨stands.1.finish job ending, stands.2⟩
  | summarize => rw [here] at stands; exact ⟨stands.1.finish job ending, stands.2⟩
  | close => rw [here] at stands; exact ⟨stands.1.finish job ending, stands.2⟩
  | leave => trivial

theorem Starting.finish (starting : Starting search k) :
    Starting search (k.finish job ending) := by
  rcases starting with leaves | ⟨point, empty, clear, seed⟩
  · exact Or.inl leaves
  · exact Or.inr ⟨point, by simp [Coordinator.finish, empty], clear, seed⟩

end Finishing

section Steps

variable {search : PooledSearch} {c c' : Config} {k : Coordinator}

theorem Sound.become (sound : Sound search c) {next : Coordinator}
    (fits : Fits search c.disk c.log next) : Sound search (c.become next) :=
  ⟨sound.lawful, sound.spent, sound.ledger, sound.blank, fun other process => by
    cases process
    exact fits⟩

/-- Nothing stands where no process is. -/
theorem Sound.without (sound : Sound search c) {process : Process}
    (none_ : ∀ k, process ≠ .coordinating k) : Sound search { c with process := process } :=
  ⟨sound.lawful, sound.spent, sound.ledger, sound.blank, fun k found => (none_ k found).elim⟩

theorem Sound.leaving (sound : Sound search c) (process : c.process = .coordinating k) :
    Sound search (c.become { k with point := .leave }) := by
  apply sound.become
  obtain ⟨pool, stands⟩ := sound.fits k process
  refine ⟨pool.at .leave, ?_⟩
  cases c.disk with
  | none => exact Or.inl rfl
  | some d => trivial

theorem Sound.saved (sound : Sound search c) {next : Coordinator}
    (fine : (Operation.save next).Fine search c.disk c.log c.tokens) :
    Sound search ((c.write next.state).become next) := by
  obtain ⟨lawful, ledger, fits⟩ := fine
  refine ⟨lawful, sound.spent.append (spent_written (changes_written _ _) _), ?_, ?_, ?_⟩
  · intro d found
    cases found
    exact ledger
  · intro impossible
    cases impossible
  · intro other process
    cases process
    exact fits

theorem perform_sound (sound : Sound search c) (process : c.process = .coordinating k)
    {op : Operation} (fine : op.Fine search c.disk c.log c.tokens)
    (performed : PooledSearch.perform c k op = some c') : Sound search c' := by
  cases op with
  | go next =>
      cases performed
      exact sound.become fine
  | save next =>
      cases performed
      exact sound.saved fine
  | call event next =>
      cases performed
      obtain ⟨some_, allowed, plain, within, fits⟩ := fine
      have spent : Spent (event :: c.log) c.tokens := by
        intro other member
        rcases List.mem_cons.mp member with rfl | old
        · exact within
        · exact sound.spent other old
      refine ⟨⟨allowed, sound.lawful⟩, spent, fun d found => (sound.ledger d found).note plain,
        fun none_ => (some_ none_).elim, ?_⟩
      intro other found
      cases found
      exact fits
  | exit =>
      cases performed
      exact sound.without (by simp)
  | raise =>
      cases performed
      exact sound.leaving process
  | block => cases performed

theorem advance_sound (sound : Sound search c) (process : c.process = .coordinating k)
    (order : List Nat) : (search.operation c.tokens order k).Fine search c.disk c.log c.tokens := by
  obtain ⟨pool, stands⟩ := sound.fits k process
  cases disk : c.disk with
  | some d =>
      rw [disk] at stands
      exact operation_fine stands pool (sound.ledger d disk) sound.lawful sound.spent order
  | none =>
      rw [disk] at stands
      rcases stands with leaves | ⟨point, empty, clear, seed, value, valid, state⟩
      · simp only [PooledSearch.operation, leaves]
        split
        · trivial
        · trivial
      · simp only [PooledSearch.operation, point, Operation.Fine]
        rw [sound.blank disk, state]
        refine ⟨⟨rfl, trivial⟩, ledger_seeded valid, Pool.empty empty,
          ⟨rfl, empty, clear, ?_⟩⟩
        intro job member
        simp [State.jobs, PooledSearch.initialState] at member

theorem boot_sound (sound : Sound search c) (seed : Kernel) : Sound search (search.boot seed c) := by
  unfold PooledSearch.boot
  cases disk : c.disk with
  | some d =>
      have ledger := sound.ledger d disk
      have spent : Spent (.loaded :: c.log) c.tokens := by
        intro other member
        rcases List.mem_cons.mp member with rfl | old
        · trivial
        · exact sound.spent other old
      refine ⟨⟨trivial, sound.lawful⟩, spent, ?_, ?_, ?_⟩
      · intro other found
        cases disk.symm.trans found
        exact ledger.note trivial
      · intro none_
        cases disk.symm.trans none_
      · intro k found
        cases found
        refine ⟨Pool.empty rfl, ?_⟩
        have file : (Config.become (c.note .loaded) ⟨d, .check, [], none⟩).disk = some d := disk
        rw [file]
        refine ⟨rfl, rfl, rfl, ?_⟩
        intro job member running
        cases active : d.active with
        | none => simp [State.jobs, active] at member
        | some active' =>
            rw [jobs_of_active active] at member
            have marked := (ledger.underway active' active).marked job member (by simp [running])
            exact ⟨[], c.log, rfl, marked⟩
  | none =>
      simp only
      split
      · next value valid =>
        apply sound.become
        refine ⟨Pool.empty rfl, ?_⟩
        rw [disk]
        exact Or.inr ⟨rfl, rfl, rfl, seed, value, valid, rfl⟩
      · exact sound.without (by simp)

theorem saveFails_sound (sound : Sound search c) (written : Bool)
    (taken : search.step c (.saveFails written) = some c') : Sound search c' := by
  simp only [PooledSearch.step] at taken
  split at taken
  · next k process =>
    split at taken
    · next index rest next point saves =>
      cases taken
      obtain ⟨pool, stands⟩ := sound.fits k process
      have collects : PooledSearch.collect k index rest = .save next := by
        simpa only [PooledSearch.operation, point] using saves
      cases disk : c.disk with
      | none =>
          rw [disk] at stands
          rcases stands with leaves | ⟨creates, _⟩
          · rw [point] at leaves; cases leaves
          · rw [point] at creates; cases creates
      | some d =>
          rw [disk] at stands
          have busy : Busy c.log d k none := by
            unfold Stands at stands
            rw [point] at stands
            exact stands
          obtain ⟨fine, at_, pool', failed⟩ :=
            collect_save pool (sound.ledger d disk) sound.lawful busy collects
          cases written with
          | true =>
              have saved : Sound search ((c.write next.state).become next) :=
                sound.saved (disk ▸ fine)
              obtain ⟨_, stands'⟩ := saved.fits next rfl
              have busy' : Busy (changes c.disk next.state ++ c.log) next.state next none := by
                have stands'' : Stands search _ next.state next := stands'
                unfold Stands at stands''
                rw [at_] at stands''
                exact stands''
              apply saved.become
              refine ⟨pool'.congr _ rfl fun _ => rfl, ?_⟩
              show Stands search _ next.state (next.fail .raised)
              unfold Stands
              rw [show (next.fail .raised).point = .collect rest from at_]
              exact busy'.fail .raised
          | false =>
              apply sound.become
              refine ⟨pool'.congr _ rfl fun _ => rfl, ?_⟩
              rw [disk]
              unfold Stands
              rw [show (next.fail .raised).point = .collect rest from at_]
              exact failed
    · cases taken
  · cases taken

theorem finish_sound (sound : Sound search c) (process : c.process = .coordinating k) (job : Nat)
    (ending : Ending) : Sound search (c.become (k.finish job ending)) := by
  obtain ⟨pool, stands⟩ := sound.fits k process
  apply sound.become
  refine ⟨pool.finish job ending, ?_⟩
  cases disk : c.disk with
  | none =>
      rw [disk] at stands
      exact Starting.finish job ending stands
  | some d =>
      rw [disk] at stands
      exact Stands.finish job ending stands

theorem step_sound (sound : Sound search c) {action : Action}
    (taken : search.step c action = some c') : Sound search c' := by
  cases action with
  | start =>
      simp only [PooledSearch.step] at taken
      split at taken
      · cases taken
        exact sound.without (by simp)
      · cases taken
  | boot seed =>
      simp only [PooledSearch.step] at taken
      split at taken
      · cases taken
        exact boot_sound sound seed
      · cases taken
  | advance order =>
      simp only [PooledSearch.step] at taken
      split at taken
      · next k process => exact perform_sound sound process (advance_sound sound process order) taken
      · cases taken
  | saveFails written => exact saveFails_sound sound written taken
  | finish job ending =>
      simp only [PooledSearch.step] at taken
      split at taken
      · next k process =>
        cases taken
        exact finish_sound sound process job ending
      · cases taken
  | spend tokens =>
      cases taken
      refine ⟨sound.lawful, ?_, sound.ledger, sound.blank, sound.fits⟩
      intro event member
      have before := sound.spent event member
      cases event with
      | started t e reading total =>
          have low : total ≤ c.tokens := before
          exact low.trans (Nat.le_add_right _ _)
      | _ => trivial
  | interrupt =>
      simp only [PooledSearch.step] at taken
      split at taken
      · next k process =>
        cases taken
        exact sound.leaving process
      · cases taken
        exact sound.without (by simp)
      · cases taken
  | crash =>
      cases taken
      exact sound.without (by simp)

/-- The invariant of every run, with all its failures and crashes. -/
theorem reached_sound (reached : search.Reached c) : Sound search c := by
  apply reached.invariant
  · rintro fresh ⟨disk, process, log⟩
    refine ⟨by simp [log], by simp [log, Spent], ?_, fun _ => log, ?_⟩
    · intro d found
      cases disk.symm.trans found
    · intro k found
      cases process.symm.trans found
  · rintro before after sound ⟨action, taken⟩
    exact step_sound sound taken

end Steps

/-- A start of `_run_jobs` after the history `before`: the earlier Episodes of its
trajectory are recorded, it is not, and it was marked before the restart unless its
admission read a total below the limit. -/
def PooledSearch.Starts (search : PooledSearch) (before : List Event) (trajectory episode : Nat)
    (reading : Option Nat) : Prop :=
  (∀ earlier, 1 ≤ earlier → earlier < episode → Recorded before trajectory earlier) ∧
  (∀ other reading' tokens', .started trajectory other reading' tokens' ∈ before →
    other ≤ episode) ∧
  ¬ Recorded before trajectory episode ∧
  match reading with
  | some tokens => search.budgetReached tokens = false ∧
      ∀ t e n total, .started t e (some n) total ∈ before → search.budgetReached total = false
  | none => Inherited before trajectory episode

/-- What is true of the scheduling in any state a run can reach. -/
structure PooledSearch.Scheduled (search : PooledSearch) (c : Config) : Prop where
  bounded : ∀ k, c.process = .coordinating k →
    k.running.length ≤ search.options.maxParallelEpisodes
  apart : ∀ k, c.process = .coordinating k → ∃ trajectories : List Nat, trajectories.Nodup ∧
    List.Forall₂ (fun worker trajectory => ∃ job, k.state.jobs[worker.job]? = some job ∧
      job.trajectory = trajectory) k.running trajectories
  starts : ∀ after before t e reading tokens,
    c.log = after ++ .started t e reading tokens :: before → search.Starts before t e reading
  once : (c.log.filterMap fun
    | .recorded t e _ => some (t, e)
    | _ => none).Nodup
  publishes : ∀ after before epoch seed winner,
    c.log = after ++ .published epoch seed winner :: before →
    ∀ job ∈ plan search.options epoch, Recorded before job.trajectory job.episode

section Claims

variable {search : PooledSearch} {c : Config}

theorem budgetReached_mono {low high : Nat} (le : low ≤ high)
    (under : search.budgetReached high = false) : search.budgetReached low = false := by
  simp only [PooledSearch.budgetReached, Bool.and_eq_false_iff, decide_eq_false_iff_not] at *
  omega

/-- The trajectories of the pool, in the order of its futures. -/
theorem Pool.trajectories {k : Coordinator} (pool : Pool search k) :
    List.Forall₂ (fun worker trajectory => ∃ job, k.state.jobs[worker.job]? = some job ∧
      job.trajectory = trajectory) k.running k.busy := by
  have all (workers : List Worker) (placed : ∀ worker ∈ workers, ∃ job,
      k.state.jobs[worker.job]? = some job) :
      List.Forall₂ (fun worker trajectory => ∃ job, k.state.jobs[worker.job]? = some job ∧
        job.trajectory = trajectory) workers
        (workers.filterMap fun worker => (k.state.jobs[worker.job]?).map (·.trajectory)) := by
    induction workers with
    | nil => exact .nil
    | cons worker rest ih =>
        obtain ⟨job, found⟩ := placed worker List.mem_cons_self
        have tail := ih fun other member => placed other (List.mem_cons_of_mem _ member)
        rw [List.filterMap_cons_some (by rw [found]; rfl)]
        exact .cons ⟨job, found, rfl⟩ tail
  exact all k.running pool.placed

theorem starts_of_lawful {before after : List Event} {t e : Nat} {reading : Option Nat}
    {tokens : Nat}
    (lawful : Lawful search.law (after ++ .started t e reading tokens :: before)) :
    search.Starts before t e reading := by
  obtain ⟨positive, earlier, fresh, _, allowed⟩ := lawful.at
  have rest : Lawful search.law before := lawful.before.2
  refine ⟨earlier, ?_, fresh, ?_⟩
  · intro other reading' tokens' member
    by_contra less
    obtain ⟨later, old, rfl, ⟨_, previous, _⟩, _⟩ := rest.of_mem member
    obtain ⟨result, recorded⟩ := previous e positive (not_le.mp less)
    exact fresh ⟨result, List.mem_append_right _ (List.mem_cons_of_mem _ recorded)⟩
  · cases reading with
    | none => exact allowed
    | some n =>
        obtain ⟨under, spent⟩ := allowed
        refine ⟨under, ?_⟩
        intro t' e' n' total member
        have low : total ≤ n := spent _ member
        exact budgetReached_mono low under

theorem publishes_of_lawful {before after : List Event} {epoch : Nat} {seed winner : Kernel}
    (lawful : Lawful search.law (after ++ .published epoch seed winner :: before)) :
    ∀ job ∈ plan search.options epoch, Recorded before job.trajectory job.episode := by
  obtain ⟨_, _, jobs, planned, results, _⟩ := lawful.at
  intro job member
  have within : job.key ∈ jobs.map Job.key := by
    rw [planned.keys]
    exact List.mem_map_of_mem member
  obtain ⟨own, inJobs, same⟩ := List.mem_map.mp within
  simp only [Job.key, Prod.mk.injEq] at same
  obtain ⟨result, _, recorded⟩ := results own inJobs
  rw [← same.1, ← same.2]
  exact ⟨result, recorded⟩

/-- Whatever completes, fails, crashes and restarts, and in whatever order. -/
theorem search_scheduling_is_safe (search : PooledSearch) (c : Config)
    (reached : search.Reached c) : search.Scheduled c := by
  have sound := reached_sound reached
  refine ⟨?_, ?_, ?_, ?_, ?_⟩
  · intro k process
    exact (sound.fits k process).1.bounded
  · intro k process
    have pool := (sound.fits k process).1
    exact ⟨k.busy, pool.apart, pool.trajectories⟩
  · intro after before t e reading tokens split
    have lawful := sound.lawful
    rw [split] at lawful
    exact starts_of_lawful lawful
  · apply sound.lawful.nodup_keys
    intro before event key allowed here earlier member same
    cases event with
    | recorded t e result =>
        cases here
        cases earlier with
        | recorded t' e' result' =>
            cases same
            exact allowed.2 ⟨result', member⟩
        | _ => cases same
    | _ => cases here
  · intro after before epoch seed winner split
    have lawful := sound.lawful
    rw [split] at lawful
    exact publishes_of_lawful lawful

end Claims

section Runs

def PooledSearch.run (search : PooledSearch) : List Action → Config → Option Config
  | [], c => some c
  | action :: rest, c => (search.step c action).bind (search.run rest)

theorem reached_run {search : PooledSearch} {actions : List Action} {c c' : Config}
    (reached : search.Reached c) (ran : search.run actions c = some c') : search.Reached c' := by
  induction actions generalizing c with
  | nil =>
      cases ran
      exact reached
  | cons action rest ih =>
      obtain ⟨between, taken, later⟩ := Option.bind_eq_some_iff.mp ran
      exact ih (reached.step ⟨action, taken⟩) later

def blank : Config := ⟨none, .absent, 0, []⟩

theorem reached_blank (search : PooledSearch) : search.Reached blank :=
  .initial ⟨rfl, rfl, rfl⟩

/-- One Epoch of two trajectories with ten tokens to spend. -/
def duet : PooledSearch where
  options := {
    epochs := 1, trajectories := 2, episodesPerTrajectory := 1, maxParallelEpisodes := 2
    epochs_range := by decide
    trajectories_range := by decide
    episodes_range := by decide
    parallel_range := by decide
    parallel_le := by decide }
  identity := "duet"
  tokenBudget := 10
  stopReason := fun _ => ""

def baseline : Kernel := ⟨"campaign", "c0", "s0", "v0", 0, 0, .finite 8⟩

def quicker : Kernel := ⟨"t0001", "c1", "s1", "v1", 1, 1, .finite 5⟩

/-- Up to the first start. -/
def opening : List Action :=
  [.start, .boot baseline] ++ List.replicate 9 (.advance [])

/-- The first trajectory ends, the second is cut off and resumed. -/
def interrupted : List Action :=
  opening ++ [.advance [], .advance [], .advance [], .advance [],
    .finish 0 (.returned ⟨1, 1, 1, some quicker⟩), .spend 10, .advance [0], .advance [0], .crash,
    .start, .boot baseline] ++ List.replicate 9 (.advance []) ++
    [.finish 1 (.returned ⟨1, 2, 1, none⟩), .advance [1]] ++ List.replicate 10 (.advance [])

/-- The first trajectory spends the budget between the admission of the second and
its start. -/
def racing : List Action :=
  opening ++ [.advance [], .spend 10, .advance [], .advance []]

theorem search_scheduling_is_safe_interrupted :
    ∃ c, duet.run interrupted blank = some c ∧ duet.Scheduled c := by
  have runs : (duet.run interrupted blank).isSome = true := by rfl
  obtain ⟨c, ran⟩ := Option.isSome_iff_exists.mp runs
  exact ⟨c, ran, search_scheduling_is_safe duet c (reached_run (reached_blank duet) ran)⟩

/-- The admission and the start are not one step: a job that was not running before
may start when the limit is reached. -/
theorem admitted_job_starts_past_limit :
    ¬ ∀ (search : PooledSearch) (c : Config), search.Reached c →
      ∀ t e n total, .started t e (some n) total ∈ c.log → search.budgetReached total = false := by
  intro always
  have seen : ((duet.run racing blank).map fun c =>
      decide (Event.started 2 1 (some 0) 10 ∈ c.log)) = some true := by rfl
  obtain ⟨c, ran, found⟩ := Option.map_eq_some_iff.mp seen
  have reached := reached_run (reached_blank duet) ran
  have under := always duet c reached 2 1 0 10 (of_decide_eq_true found)
  exact absurd under (by decide)

end Runs

end AtrexAgent.Search
