import AtrexAgent.Workflow.Schedule

/-! What the winner of an Epoch depends on, how the seeds follow each other, and
what a crash between publishing a winner and saving the state changes. -/

namespace AtrexAgent.Search

open AtrexAgent.Transition

section Results

variable {search : PooledSearch}

/-- A job has one result in a history. -/
theorem recorded_unique {log : List Event} (lawful : Lawful search.law log) {t e : Nat}
    {result other : JobResult} (first : .recorded t e result ∈ log)
    (second : .recorded t e other ∈ log) : result = other := by
  induction log with
  | nil => cases first
  | cons event before ih =>
      rcases List.mem_cons.mp first with here | earlier
      · rcases List.mem_cons.mp second with here' | earlier'
        · rw [← here'] at here
          injection here
        · have allowed : search.law before event := lawful.1
          rw [← here] at allowed
          exact (allowed.2 ⟨other, earlier'⟩).elim
      · rcases List.mem_cons.mp second with here' | earlier'
        · have allowed : search.law before event := lawful.1
          rw [← here'] at allowed
          exact (allowed.2 ⟨result, earlier⟩).elim
        · exact ih lawful.2 earlier earlier'

theorem retained_congr {jobs jobs' : List Job} (same : jobs.map (·.result) = jobs'.map (·.result)) :
    retained jobs = retained jobs' := by
  induction jobs generalizing jobs' with
  | nil =>
      have empty : jobs' = [] := by simpa using same.symm
      rw [empty]
  | cons job rest ih =>
      cases jobs' with
      | nil => simp at same
      | cons job' rest' =>
          simp only [List.map_cons, List.cons.injEq] at same
          simp only [retained, same.1, ih same.2]

theorem selectWinner_congr {jobs jobs' : List Job} (seed : Kernel)
    (same : jobs.map (·.result) = jobs'.map (·.result)) :
    selectWinner seed jobs = selectWinner seed jobs' := by
  simp only [selectWinner, retained_congr same]

/-- The options that the winner of an Epoch can depend on. -/
def SearchOptions.SamePlan (options options' : SearchOptions) : Prop :=
  options.trajectories = options'.trajectories ∧
    options.episodesPerTrajectory = options'.episodesPerTrajectory

theorem plan_congr {options options' : SearchOptions} (same : options.SamePlan options')
    (epoch : Nat) : plan options epoch = plan options' epoch := by
  unfold plan
  rw [same.1, same.2]

/-- The results of two complete Epochs with the same plan, read off their histories. -/
theorem results_congr {slots : List (Nat × Nat × Nat × Nat)} {jobs jobs' : List Job}
    (planned : jobs.map Job.slot = slots) (planned' : jobs'.map Job.slot = slots)
    (same : ∀ job ∈ jobs, ∀ job' ∈ jobs', job.slot = job'.slot → job.result = job'.result) :
    jobs.map (·.result) = jobs'.map (·.result) := by
  induction jobs generalizing slots jobs' with
  | nil =>
      rw [← planned] at planned'
      have empty : jobs' = [] := by simpa using planned'
      rw [empty]
  | cons job rest ih =>
      rw [← planned] at planned'
      cases jobs' with
      | nil => simp at planned'
      | cons job' rest' =>
          simp only [List.map_cons, List.cons.injEq] at planned'
          have head := same job List.mem_cons_self job' List.mem_cons_self planned'.1.symm
          have tail := ih rfl planned'.2 fun a inA b inB =>
            same a (List.mem_cons_of_mem _ inA) b (List.mem_cons_of_mem _ inB)
          simp only [List.map_cons, head, tail]

/-- The winner is a function of the seed and of the results. -/
theorem winner_of_results {search' : PooledSearch} (same : search.options.SamePlan search'.options)
    {log log' : List Event} (lawful : Lawful search.law log) (lawful' : Lawful search'.law log')
    {epoch : Nat} {seed winner winner' : Kernel} (published : .published epoch seed winner ∈ log)
    (published' : .published epoch seed winner' ∈ log')
    (agree : ∀ job ∈ plan search.options epoch, ∀ result,
      .recorded job.trajectory job.episode result ∈ log →
      .recorded job.trajectory job.episode result ∈ log') : winner = winner' := by
  obtain ⟨after, before, rfl, ⟨_, _, jobs, planned, results, selected⟩, _⟩ :=
    lawful.of_mem published
  obtain ⟨after', before', rfl, ⟨_, _, jobs', planned', results', selected'⟩, _⟩ :=
    lawful'.of_mem published'
  have plans : jobs'.map Job.slot = (plan search.options epoch).map Job.slot := by
    rw [plan_congr same]
    exact planned'
  have equal : jobs.map (·.result) = jobs'.map (·.result) := by
    apply results_congr planned plans
    intro job member job' member' slots
    obtain ⟨result, has, recorded⟩ := results job member
    obtain ⟨result', has', recorded'⟩ := results' job' member'
    have key := Job.key_of_slot slots
    simp only [Job.key, Prod.mk.injEq] at key
    have inPlan : job.slot ∈ (plan search.options epoch).map Job.slot := by
      rw [← planned]
      exact List.mem_map_of_mem member
    obtain ⟨original, within, sameSlot⟩ := List.mem_map.mp inPlan
    have key' := Job.key_of_slot sameSlot
    simp only [Job.key, Prod.mk.injEq] at key'
    have here : .recorded original.trajectory original.episode result ∈
        after ++ .published epoch seed winner :: before := by
      rw [key'.1, key'.2]
      exact List.mem_append_right _ (List.mem_cons_of_mem _ recorded)
    have there := agree original within result here
    rw [key'.1, key'.2, key.1, key.2] at there
    have other : .recorded job'.trajectory job'.episode result' ∈
        after' ++ .published epoch seed winner' :: before' :=
      List.mem_append_right _ (List.mem_cons_of_mem _ recorded')
    rw [has, has', recorded_unique lawful' there other]
  rw [selectWinner_congr seed equal, selected'] at selected
  exact (Except.ok.inj selected).symm

end Results

section Seeds

variable {search : PooledSearch}

/-- A published winner is the least of its Epoch, and the seed if that is as fast. -/
theorem published_spec {log : List Event} (lawful : Lawful search.law log) {epoch : Nat}
    {seed winner : Kernel} (published : .published epoch seed winner ∈ log) :
    ∃ incumbent value, latency seed = .ok incumbent ∧ latency winner = .ok value ∧
      value ≤ incumbent ∧ (value = incumbent → winner = seed) ∧
      ∀ job ∈ plan search.options epoch, ∀ result candidate,
        .recorded job.trajectory job.episode result ∈ log →
        result.retainedKernel = some candidate →
        ∃ theirs, latency candidate = .ok theirs ∧ value ≤ theirs := by
  obtain ⟨after, before, split, ⟨_, _, jobs, planned, results, selected⟩, _⟩ :=
    lawful.of_mem published
  obtain ⟨incumbent, value, validSeed, valid, low, tie, _, least⟩ := selectWinner_spec selected
  refine ⟨incumbent, value, validSeed, valid, low, ?_, ?_⟩
  · intro equal
    rcases tie with same | faster
    · exact same
    · rw [equal] at faster
      exact (lt_irrefl _ faster).elim
  · intro job member result candidate recorded kept
    have within : job.key ∈ jobs.map Job.key := by
      rw [planned.keys]
      exact List.mem_map_of_mem member
    obtain ⟨own, inJobs, same⟩ := List.mem_map.mp within
    simp only [Job.key, Prod.mk.injEq] at same
    obtain ⟨result', has, recorded'⟩ := results own inJobs
    rw [same.1, same.2] at recorded'
    have earlier : .recorded job.trajectory job.episode result' ∈ log := by
      rw [split]
      exact List.mem_append_right _ (List.mem_cons_of_mem _ recorded')
    have one := recorded_unique lawful recorded earlier
    apply least own inJobs candidate
    rw [has, ← one]
    exact kept

/-- Later seeds are not slower: each Epoch is closed with a winner that its seed does
not beat. -/
theorem seeds_never_slower {log extra : List Event} (lawful : Lawful search.law (extra ++ log))
    {seed later : Kernel} (first : incumbent log = some seed)
    (last : incumbent (extra ++ log) = some later) {slowest : ℚ}
    (valid : latency seed = .ok slowest) :
    ∃ value, latency later = .ok value ∧ value ≤ slowest := by
  induction extra generalizing later with
  | nil =>
      have same : later = seed := Option.some_injective _ (last.symm.trans first)
      exact ⟨slowest, same ▸ valid, le_refl _⟩
  | cons event extra ih =>
      have rest : Lawful search.law (extra ++ log) := lawful.2
      have allowed : search.law (extra ++ log) event := lawful.1
      by_cases plain : event.Plain
      · apply ih rest
        rw [← last]
        exact (incumbent_plain plain _).symm
      · cases event with
        | recorded t e result => exact ih rest last
        | seeded other =>
            have empty : extra ++ log = [] := allowed
            have none_ : log = [] := (List.append_eq_nil_iff.mp empty).2
            rw [none_] at first
            cases first
        | closed epoch incumbent_ winner =>
            cases last
            obtain ⟨published, was, _⟩ := allowed
            obtain ⟨between, before, low⟩ := ih rest was
            obtain ⟨slow, value, validSeed, validWinner, faster, _⟩ :=
              published_spec rest published
            rw [before] at validSeed
            cases validSeed
            exact ⟨value, validWinner, faster.trans low⟩
        | _ => exact (plain trivial).elim

/-- A step only adds to the history. -/
theorem step_log {c c' : Config} {action : Action} (taken : search.step c action = some c') :
    ∃ extra, c'.log = extra ++ c.log := by
  cases action with
  | start =>
      simp only [PooledSearch.step] at taken
      split at taken <;> cases taken
      exact ⟨[], rfl⟩
  | boot seed =>
      simp only [PooledSearch.step] at taken
      split at taken <;> cases taken
      unfold PooledSearch.boot
      split
      · exact ⟨[.loaded], rfl⟩
      · split
        · exact ⟨[], rfl⟩
        · exact ⟨[], rfl⟩
  | advance order =>
      simp only [PooledSearch.step] at taken
      split at taken
      · cases op : search.operation c.tokens order _ with
        | go next => rw [op] at taken; cases taken; exact ⟨[], rfl⟩
        | save next => rw [op] at taken; cases taken; exact ⟨_, rfl⟩
        | call event next => rw [op] at taken; cases taken; exact ⟨[event], rfl⟩
        | exit => rw [op] at taken; cases taken; exact ⟨[], rfl⟩
        | raise => rw [op] at taken; cases taken; exact ⟨[], rfl⟩
        | block => rw [op] at taken; cases taken
      · cases taken
  | saveFails written =>
      simp only [PooledSearch.step] at taken
      split at taken
      · split at taken
        · cases taken
          cases written
          · exact ⟨[], rfl⟩
          · exact ⟨_, rfl⟩
        · cases taken
      · cases taken
  | finish job ending =>
      simp only [PooledSearch.step] at taken
      split at taken <;> cases taken
      exact ⟨[], rfl⟩
  | spend tokens =>
      cases taken
      exact ⟨[], rfl⟩
  | interrupt =>
      simp only [PooledSearch.step] at taken
      split at taken <;> cases taken
      · exact ⟨[], rfl⟩
      · exact ⟨[], rfl⟩
  | crash =>
      cases taken
      exact ⟨[], rfl⟩

/-- A run of the whole system. -/
def PooledSearch.Runs (search : PooledSearch) : Config → Config → Prop :=
  Relation.ReflTransGen fun c c' => ∃ action, search.step c action = some c'

theorem runs_log {c c' : Config} (runs : search.Runs c c') : ∃ extra, c'.log = extra ++ c.log := by
  induction runs with
  | refl => exact ⟨[], rfl⟩
  | tail _ taken ih =>
      obtain ⟨extra, before⟩ := ih
      obtain ⟨action, taken⟩ := taken
      obtain ⟨more, after⟩ := step_log taken
      exact ⟨more ++ extra, by rw [after, before, List.append_assoc]⟩

end Seeds

section Recovery

variable {search : PooledSearch} {log : List Event} {d next : State} {active : Active}
  {k : Coordinator}

/-- What the coordinator may do while the file says that `active` is publishing. -/
def Operation.Republishes (d next : State) (active : Active) : Operation → Prop
  | .save k => k.state = next
  | .call event _ => ∀ epoch seed winner, event = .published epoch seed winner →
      epoch = d.epoch ∧ seed = active.seed ∧ active.winner = some winner
  | _ => True

theorem operation_republishes (stands : Stands search log d k) (file : d.active = some active)
    (phase : active.phase = .publishing) (closes : search.closeEpoch d active = .ok next)
    (tokens : Nat) (order : List Nat) :
    (search.operation tokens order k).Republishes d next active := by
  have busy {admitted : Option Nat} (busy : Busy log d k admitted) : False := by
    obtain ⟨other, _, file', phase', _⟩ := busy.ahead
    cases file.symm.trans file'
    rw [phase] at phase'
    cases phase'
  unfold Stands at stands
  cases point : k.point with
  | create => rw [point] at stands; exact stands.elim
  | check =>
      simp only [PooledSearch.operation, point]
      split
      · intro epoch seed winner same
        cases same
      · trivial
  | resume =>
      simp only [PooledSearch.operation, point]
      split
      · trivial
      · trivial
  | head =>
      rw [point] at stands
      have here : k.state.active = some active := by rw [stands.1.current]; exact file
      simp only [PooledSearch.operation, point, here]
      split
      · trivial
      · trivial
  | prepare =>
      rw [point] at stands
      have idle : Idle log d k := stands
      have here : k.state.active = some active := by rw [idle.current]; exact file
      simp only [PooledSearch.operation, point, here, phase]
      trivial
  | prepared =>
      rw [point] at stands
      obtain ⟨_, other, file', phase'⟩ := stands
      cases file.symm.trans file'
      rw [phase] at phase'
      cases phase'
  | dispatch index => rw [point] at stands; exact (busy stands).elim
  | admitted index reading => rw [point] at stands; exact (busy stands.1).elim
  | submit index reading => rw [point] at stands; exact (busy stands.1).elim
  | wait => rw [point] at stands; exact (busy stands).elim
  | collect done => rw [point] at stands; exact (busy stands).elim
  | select =>
      rw [point] at stands
      obtain ⟨_, other, file', phase', _⟩ := stands
      cases file.symm.trans file'
      rw [phase] at phase'
      cases phase'
  | publish =>
      rw [point] at stands
      obtain ⟨idle, _⟩ := stands
      have here : k.state.active = some active := by rw [idle.current]; exact file
      simp only [PooledSearch.operation, point]
      split
      · next epoch seed phase' jobs winner found =>
        cases here.symm.trans found
        intro epoch' seed' winner' same
        cases same
        exact ⟨by rw [idle.current], rfl, rfl⟩
      · trivial
  | summarize =>
      simp only [PooledSearch.operation, point]
      split
      · intro epoch seed winner same
        cases same
      · trivial
  | close =>
      rw [point] at stands
      obtain ⟨idle, _⟩ := stands
      have here : k.state.active = some active := by rw [idle.current]; exact file
      have same : search.closeEpoch k.state active = .ok next := by rw [idle.current]; exact closes
      simp only [PooledSearch.operation, point, here, same]
      rfl
  | leave =>
      simp only [PooledSearch.operation, point]
      split
      · trivial
      · trivial

/-- While the file says so, a step republishes the same winner or writes the next state. -/
theorem publishing_step {c c' : Config} (sound : Sound search c) (disk : c.disk = some d)
    (file : d.active = some active) (phase : active.phase = .publishing)
    (closes : search.closeEpoch d active = .ok next) {action : Action}
    (taken : search.step c action = some c') :
    (c'.disk = some d ∨ c'.disk = some next) ∧
      ∀ epoch seed winner, .published epoch seed winner ∈ c'.log →
        .published epoch seed winner ∈ c.log ∨
        epoch = d.epoch ∧ seed = active.seed ∧ active.winner = some winner := by
  have unchanged {c' : Config} (disk' : c'.disk = c.disk) (log' : c'.log = c.log) :
      (c'.disk = some d ∨ c'.disk = some next) ∧
        ∀ epoch seed winner, .published epoch seed winner ∈ c'.log →
          .published epoch seed winner ∈ c.log ∨
          epoch = d.epoch ∧ seed = active.seed ∧ active.winner = some winner :=
    ⟨Or.inl (disk'.trans disk), fun _ _ _ member => Or.inl (log' ▸ member)⟩
  cases action with
  | start =>
      simp only [PooledSearch.step] at taken
      split at taken <;> cases taken
      exact unchanged rfl rfl
  | boot seed =>
      simp only [PooledSearch.step] at taken
      split at taken <;> cases taken
      have booted : search.boot seed c = (c.note .loaded).become ⟨d, .check, [], none⟩ := by
        unfold PooledSearch.boot
        rw [disk]
      rw [booted]
      refine ⟨Or.inl disk, ?_⟩
      intro epoch seed winner member
      rcases List.mem_cons.mp member with impossible | old
      · cases impossible
      · exact Or.inl old
  | advance order =>
      simp only [PooledSearch.step] at taken
      split at taken
      · next k process =>
        obtain ⟨_, stands⟩ := sound.fits k process
        rw [disk] at stands
        have allowed := operation_republishes stands file phase closes c.tokens order
        cases op : search.operation c.tokens order k with
        | go after => rw [op] at taken; cases taken; exact unchanged rfl rfl
        | save after =>
            rw [op] at taken allowed
            cases taken
            have same : after.state = next := allowed
            refine ⟨Or.inr (congrArg some same), ?_⟩
            intro epoch seed winner member
            rcases List.mem_append.mp member with new | old
            · exact (changes_written _ _ _ new).elim
            · exact Or.inl old
        | call event after =>
            rw [op] at taken allowed
            cases taken
            refine ⟨Or.inl disk, ?_⟩
            intro epoch seed winner member
            rcases List.mem_cons.mp member with new | old
            · exact Or.inr (allowed epoch seed winner new.symm)
            · exact Or.inl old
        | exit => rw [op] at taken; cases taken; exact unchanged rfl rfl
        | raise => rw [op] at taken; cases taken; exact unchanged rfl rfl
        | block => rw [op] at taken; cases taken
      · cases taken
  | saveFails written =>
      simp only [PooledSearch.step] at taken
      split at taken
      · next k process =>
        split at taken
        · next index rest after point _ =>
          obtain ⟨_, stands⟩ := sound.fits k process
          rw [disk] at stands
          have stands' : Stands search c.log d k := stands
          unfold Stands at stands'
          rw [point] at stands'
          have busy : Busy c.log d k none := stands'
          obtain ⟨other, _, file', phase', _⟩ := busy.ahead
          cases file.symm.trans file'
          rw [phase] at phase'
          cases phase'
        · cases taken
      · cases taken
  | finish job ending =>
      simp only [PooledSearch.step] at taken
      split at taken <;> cases taken
      exact unchanged rfl rfl
  | spend tokens =>
      cases taken
      exact unchanged rfl rfl
  | interrupt =>
      simp only [PooledSearch.step] at taken
      split at taken <;> cases taken
      · exact unchanged rfl rfl
      · exact unchanged rfl rfl
  | crash =>
      cases taken
      exact unchanged rfl rfl

/-- The coordinator at `point` with the file in memory. -/
def idleAt (d : State) (tokens : Nat) (log : List Event) (point : Point) : Config :=
  ⟨some d, .coordinating ⟨d, point, [], none⟩, tokens, log⟩

theorem run_advance {c c' : Config} (process : c.process = .coordinating k)
    (performed : PooledSearch.perform c k (search.operation c.tokens [] k) = some c')
    (rest : List Action) : search.run (.advance [] :: rest) c = search.run rest c' := by
  simp only [PooledSearch.run, PooledSearch.step, process, performed, Option.bind_some]

/-- A crash, and the restart up to the save that ends the Epoch. -/
def recovery (seed : Kernel) : List Action :=
  .crash :: .start :: .boot seed :: List.replicate 7 (.advance [])

theorem recovery_republishes {c : Config} (ledger : Ledger search c.log d) (disk : c.disk = some d)
    (file : d.active = some active) (phase : active.phase = .publishing) {winner : Kernel}
    (won : active.winner = some winner) (closes : search.closeEpoch d active = .ok next)
    (seed : Kernel) : ∃ c', search.run (recovery seed) c = some c' ∧ c'.disk = some next ∧
      ∃ later, c'.log = later ++ .published d.epoch active.seed winner ::
        .initialized d.bootstrap :: .loaded :: c.log := by
  have underway := ledger.underway active file
  have restarted (rest : List Action) : search.run (.crash :: .start :: .boot seed :: rest) c =
      search.run rest (idleAt d c.tokens (.loaded :: c.log) .check) := by
    simp [PooledSearch.run, PooledSearch.step, PooledSearch.boot, Config.leave, Config.note,
      Config.become, disk, idleAt]
  have checks : search.operation c.tokens [] ⟨d, .check, [], none⟩ =
      .call (.initialized d.bootstrap) ⟨d, .resume, [], none⟩ := by
    simp only [PooledSearch.operation, if_pos ledger.configured]
  have resumes : search.operation c.tokens [] ⟨d, .resume, [], none⟩ =
      .go ⟨d, .head, [], none⟩ := by
    simp [PooledSearch.operation, underway.going]
  have heads : search.operation c.tokens [] ⟨d, .head, [], none⟩ =
      .go ⟨d, .prepare, [], none⟩ := by
    simp only [PooledSearch.operation, if_pos underway.within, file]
  have prepares : search.operation c.tokens [] ⟨d, .prepare, [], none⟩ =
      .go ⟨d, .publish, [], none⟩ := by
    simp only [PooledSearch.operation, file, phase]
  obtain ⟨epoch, seed', phase', jobs, winner'⟩ := active
  cases won
  have publishes : search.operation c.tokens [] ⟨d, .publish, [], none⟩ =
      .call (.published d.epoch seed' winner) ⟨d, .summarize, [], none⟩ := by
    simp only [PooledSearch.operation, file]
  have summarizes : search.operation c.tokens [] ⟨d, .summarize, [], none⟩ =
      .call (.archived d.epoch winner c.tokens) ⟨d, .close, [], none⟩ := by
    simp only [PooledSearch.operation, file]
  have closes' : search.operation c.tokens [] ⟨d, .close, [], none⟩ =
      .save ⟨next, .resume, [], none⟩ := by
    simp only [PooledSearch.operation, file, closes]
  refine ⟨⟨some next, .coordinating ⟨next, .resume, [], none⟩, c.tokens, changes (some d) next ++
    .archived d.epoch winner c.tokens :: .published d.epoch seed' winner ::
      .initialized d.bootstrap :: .loaded :: c.log⟩, ?_, rfl,
    changes (some d) next ++ [.archived d.epoch winner c.tokens], by simp⟩
  have steps {point : Point} {log : List Event} {rest : List Action} (c' : Config)
      (performed : PooledSearch.perform (idleAt d c.tokens log point) ⟨d, point, [], none⟩
        (search.operation c.tokens [] ⟨d, point, [], none⟩) = some c') :
      search.run (.advance [] :: rest) (idleAt d c.tokens log point) = search.run rest c' :=
    run_advance rfl performed rest
  rw [recovery, restarted]
  simp only [List.replicate]
  rw [steps (idleAt d c.tokens (.initialized d.bootstrap :: .loaded :: c.log) .resume)
      (by rw [checks]; rfl),
    steps (idleAt d c.tokens _ .head) (by rw [resumes]; rfl),
    steps (idleAt d c.tokens _ .prepare) (by rw [heads]; rfl),
    steps (idleAt d c.tokens _ .publish) (by rw [prepares]; rfl),
    steps (idleAt d c.tokens (.published d.epoch seed' winner :: _) .summarize)
      (by rw [publishes]; rfl),
    steps (idleAt d c.tokens (.archived d.epoch winner c.tokens :: _) .close)
      (by rw [summarizes]; rfl),
    steps _ (by rw [closes']; rfl)]
  rfl

/-- A publishing Epoch can be closed, with its winner as the next seed. -/
theorem closes_of_publishing (ledger : Ledger search log d) (file : d.active = some active)
    (phase : active.phase = .publishing) : ∃ winner next, active.winner = some winner ∧
      search.closeEpoch d active = .ok next ∧ next.seed = winner := by
  obtain ⟨_, winner, won, selected⟩ := (ledger.underway active file).publishing phase
  obtain ⟨incumbent, value, validSeed, valid, _⟩ := selectWinner_spec selected
  cases closes : search.closeEpoch d active with
  | error error =>
      simp only [PooledSearch.closeEpoch, won, valid, validSeed, bind, Except.bind] at closes
      cases closes
  | ok next =>
      obtain ⟨winner', won', seed, _⟩ := ledger.closed file phase closes
      exact ⟨winner', next, won', rfl, seed⟩

end Recovery

/-- What is true of winners and seeds in any state a run can reach. -/
structure PooledSearch.Judged (search : PooledSearch) (c : Config) : Prop where
  independent : ∀ (search' : PooledSearch) (c' : Config), search'.Reached c' → search.options.SamePlan search'.options →
    ∀ epoch seed, (∀ job ∈ plan search.options epoch, ∀ result,
      .recorded job.trajectory job.episode result ∈ c.log ↔
        .recorded job.trajectory job.episode result ∈ c'.log) →
    (∀ winner winner', .published epoch seed winner ∈ c.log →
      .published epoch seed winner' ∈ c'.log → winner = winner') ∧
    ∀ next next', .closed epoch seed next ∈ c.log → .closed epoch seed next' ∈ c'.log →
      next = next'
  least : ∀ epoch seed winner, .published epoch seed winner ∈ c.log →
    ∃ incumbent value, latency seed = .ok incumbent ∧ latency winner = .ok value ∧
      value ≤ incumbent ∧ (value = incumbent → winner = seed) ∧
      ∀ job ∈ plan search.options epoch, ∀ result candidate,
        .recorded job.trajectory job.episode result ∈ c.log →
        result.retainedKernel = some candidate →
        ∃ theirs, latency candidate = .ok theirs ∧ value ≤ theirs
  never_slower : ∀ d c' d', c.disk = some d → search.Runs c c' → c'.disk = some d' →
    ∃ before after, latency d.seed = .ok before ∧ latency d'.seed = .ok after ∧ after ≤ before
  stalls : ∀ d, c.disk = some d → d.consecutiveWithoutImprovement.getD 0 = trailing c.log
  republishes : ∀ d active, c.disk = some d → d.active = some active →
    active.phase = .publishing → ∃ winner next, active.winner = some winner ∧
      search.closeEpoch d active = .ok next ∧ next.seed = winner ∧
      (∀ action c', search.step c action = some c' →
        (c'.disk = some d ∨ c'.disk = some next) ∧
        ∀ epoch seed other, .published epoch seed other ∈ c'.log →
          .published epoch seed other ∈ c.log ∨
          epoch = d.epoch ∧ seed = active.seed ∧ other = winner) ∧
      ∀ seed, ∃ c', search.run (recovery seed) c = some c' ∧ c'.disk = some next ∧
        ∃ later, c'.log = later ++ .published d.epoch active.seed winner ::
          .initialized d.bootstrap :: .loaded :: c.log

section Claims

variable {search : PooledSearch} {c : Config}

theorem published_of_closed {log : List Event} (lawful : Lawful search.law log) {epoch : Nat}
    {seed winner : Kernel} (closed : .closed epoch seed winner ∈ log) :
    .published epoch seed winner ∈ log := by
  obtain ⟨after, before, rfl, ⟨published, _⟩, _⟩ := lawful.of_mem closed
  exact List.mem_append_right _ (List.mem_cons_of_mem _ published)

theorem search_outcome_is_schedule_independent (search : PooledSearch) (c : Config)
    (reached : search.Reached c) : search.Judged c := by
  have sound := reached_sound reached
  refine ⟨?_, ?_, ?_, ?_, ?_⟩
  · intro search' c' reached' same epoch seed agree
    have lawful' := (reached_sound reached').lawful
    have one (winner winner' : Kernel) (published : .published epoch seed winner ∈ c.log)
        (published' : .published epoch seed winner' ∈ c'.log) : winner = winner' :=
      winner_of_results same sound.lawful lawful' published published'
        fun job member result => (agree job member result).mp
    refine ⟨one, ?_⟩
    intro next next' closed closed'
    exact one next next' (published_of_closed sound.lawful closed)
      (published_of_closed lawful' closed')
  · intro epoch seed winner published
    exact published_spec sound.lawful published
  · intro d c' d' disk runs disk'
    have sound' := reached_sound (reached.run runs)
    have ledger := sound.ledger d disk
    obtain ⟨before, valid⟩ := ledger.valid
    obtain ⟨extra, log⟩ := runs_log runs
    have last := (sound'.ledger d' disk').incumbent
    have lawful := sound'.lawful
    rw [log] at last lawful
    obtain ⟨after, valid', low⟩ := seeds_never_slower lawful ledger.incumbent last valid
    exact ⟨before, after, valid, valid', low⟩
  · intro d disk
    exact (sound.ledger d disk).stalls
  · intro d active disk file phase
    have ledger := sound.ledger d disk
    obtain ⟨winner, next, won, closes, seed⟩ := closes_of_publishing ledger file phase
    refine ⟨winner, next, won, closes, seed, ?_, ?_⟩
    · intro action c' taken
      obtain ⟨disks, published⟩ := publishing_step sound disk file phase closes taken
      refine ⟨disks, ?_⟩
      intro epoch seed' other member
      rcases published epoch seed' other member with old | ⟨sameEpoch, sameSeed, sameWinner⟩
      · exact Or.inl old
      · exact Or.inr ⟨sameEpoch, sameSeed, Option.some_injective _ (sameWinner.symm.trans won)⟩
    · intro other
      exact recovery_republishes ledger disk file phase won closes other

theorem search_outcome_is_schedule_independent_interrupted :
    ∃ c, duet.run interrupted blank = some c ∧ duet.Judged c := by
  have runs : (duet.run interrupted blank).isSome = true := by rfl
  obtain ⟨c, ran⟩ := Option.isSome_iff_exists.mp runs
  exact ⟨c, ran,
    search_outcome_is_schedule_independent duet c (reached_run (reached_blank duet) ran)⟩

end Claims

end AtrexAgent.Search
