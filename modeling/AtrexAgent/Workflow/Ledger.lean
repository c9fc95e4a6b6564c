import Mathlib.Data.List.Nodup
import Mathlib.Data.List.Forall2
import AtrexAgent.Workflow.Search

/-! What the file says against the history of the run, what memory may have that the
file does not, and what each write of the file does to both. -/

namespace AtrexAgent.Search

open AtrexAgent.Transition

namespace Job

/-- The identity of a job, which nothing changes. -/
def slot (job : Job) : Nat × Nat × Nat × Nat :=
  (job.epoch, job.trajectory, job.step, job.episode)

def key (job : Job) : Nat × Nat := (job.trajectory, job.episode)

@[simp] theorem slot_mark (job : Job) : job.mark.slot = job.slot := rfl

@[simp] theorem slot_complete (job : Job) (result : JobResult) :
    (job.complete result).slot = job.slot := rfl

theorem key_of_slot {a b : Job} (same : a.slot = b.slot) : a.key = b.key := by
  simp only [slot, Prod.mk.injEq] at same
  simp [key, same.2.1, same.2.2.2]

/-- What memory may have of a job whose last save failed. -/
def Caught (old new : Job) : Prop :=
  new = old ∨ old.status = .running ∧ ∃ result, old.Matches result ∧ new = old.complete result

theorem Caught.slot {old new : Job} (caught : old.Caught new) : new.slot = old.slot := by
  rcases caught with rfl | ⟨_, result, _, rfl⟩
  · rfl
  · rfl

@[simp] theorem change_self (job : Job) : job.change job = [] := by simp [change]

theorem change_complete {job : Job} (running : job.status = .running) (result : JobResult) :
    job.change (job.complete result) = [.recorded job.trajectory job.episode result] := by
  simp [change, complete, running]

theorem change_mark (job : Job) :
    job.change job.mark =
      if job.status = .running then [] else [.marked job.trajectory job.episode] := by
  by_cases running : job.status = .running <;> simp [change, mark, running]

theorem waits_eq_false {job : Job} {jobs : List Job} : job.waits jobs = false ↔
    ∀ previous ∈ jobs, previous.trajectory = job.trajectory → previous.episode < job.episode →
      previous.status = .completed := by
  simp [waits]

end Job

section Plan

variable {options : SearchOptions} {epoch : Nat}

theorem mem_plan {job : Job} : job ∈ plan options epoch ↔
    job.epoch = epoch ∧ 1 ≤ job.trajectory ∧ job.trajectory ≤ options.trajectories ∧
      1 ≤ job.step ∧ job.step ≤ options.episodesPerTrajectory ∧
      job.episode = (epoch - 1) * options.episodesPerTrajectory + job.step ∧
      job.status = .pending ∧ job.result = none := by
  simp only [plan, List.mem_flatMap, List.mem_range, List.mem_map]
  constructor
  · rintro ⟨step, inSteps, trajectory, inTrajectories, rfl⟩
    dsimp only
    exact ⟨rfl, by omega, by omega, by omega, by omega, rfl, rfl, rfl⟩
  · rintro ⟨rfl, low, high, first, last, episode, pending, blank⟩
    refine ⟨job.step - 1, by omega, job.trajectory - 1, by omega, ?_⟩
    have step : job.step - 1 + 1 = job.step := by omega
    have trajectory : job.trajectory - 1 + 1 = job.trajectory := by omega
    obtain ⟨_, _, _, _, _, _⟩ := job
    simp only at *
    subst pending blank episode
    simp [step, trajectory]

theorem nodup_plan : ((plan options epoch).map Job.key).Nodup := by
  unfold plan
  rw [List.map_flatMap, List.nodup_flatMap]
  constructor
  · intro step _
    rw [List.map_map]
    apply List.Nodup.map
    · intro a b same
      simp only [Function.comp, Job.key, Prod.mk.injEq] at same
      omega
    · exact List.nodup_range
  · apply List.Pairwise.imp_of_mem _ List.pairwise_lt_range
    intro a b _ _ less key inA inB
    simp only [List.map_map, List.mem_map, Function.comp, Job.key] at inA inB
    obtain ⟨_, _, rfl⟩ := inA
    obtain ⟨_, _, same⟩ := inB
    simp only [Prod.mk.injEq] at same
    omega

end Plan

/-- `jobs` are those of the Epoch, whatever became of them. -/
def Planned (options : SearchOptions) (epoch : Nat) (jobs : List Job) : Prop :=
  jobs.map Job.slot = (plan options epoch).map Job.slot

namespace Planned

variable {options : SearchOptions} {epoch : Nat} {jobs : List Job}

theorem mem (planned : Planned options epoch jobs) {job : Job} (member : job ∈ jobs) :
    job.epoch = epoch ∧ 1 ≤ job.trajectory ∧ job.trajectory ≤ options.trajectories ∧
      1 ≤ job.step ∧ job.step ≤ options.episodesPerTrajectory ∧
      job.episode = (epoch - 1) * options.episodesPerTrajectory + job.step := by
  have within : job.slot ∈ (plan options epoch).map Job.slot := by
    rw [← planned]
    exact List.mem_map_of_mem member
  obtain ⟨original, inPlan, same⟩ := List.mem_map.mp within
  obtain ⟨e, low, high, first, last, episode, _, _⟩ := mem_plan.mp inPlan
  simp only [Job.slot, Prod.mk.injEq] at same
  obtain ⟨sameEpoch, sameTrajectory, sameStep, sameEpisode⟩ := same
  rw [← sameEpoch, ← sameTrajectory, ← sameStep, ← sameEpisode]
  exact ⟨e, low, high, first, last, episode⟩

theorem keys (planned : Planned options epoch jobs) :
    jobs.map Job.key = (plan options epoch).map Job.key := by
  have via : Job.key = (fun s : Nat × Nat × Nat × Nat => (s.2.1, s.2.2.2)) ∘ Job.slot := rfl
  rw [via, ← List.map_map, ← List.map_map, planned]

theorem nodup (planned : Planned options epoch jobs) : (jobs.map Job.key).Nodup := by
  rw [planned.keys]
  exact nodup_plan

theorem unique (planned : Planned options epoch jobs) {a b : Job} (inA : a ∈ jobs) (inB : b ∈ jobs)
    (same : a.key = b.key) : a = b :=
  List.inj_on_of_nodup_map planned.nodup inA inB same

/-- Every Episode of the Epoch has its job. -/
theorem covers (planned : Planned options epoch jobs) (positive : 1 ≤ epoch) {t e : Nat}
    (low : 1 ≤ t) (high : t ≤ options.trajectories)
    (first : (epoch - 1) * options.episodesPerTrajectory < e)
    (last : e ≤ epoch * options.episodesPerTrajectory) :
    ∃ job ∈ jobs, job.trajectory = t ∧ job.episode = e := by
  obtain ⟨previous, rfl⟩ : ∃ previous, epoch = previous + 1 := ⟨epoch - 1, by omega⟩
  have least : previous * options.episodesPerTrajectory < e := first
  rw [Nat.succ_mul] at last
  have inPlan : (⟨previous + 1, t, e - previous * options.episodesPerTrajectory, e, .pending,
      none⟩ : Job) ∈ plan options (previous + 1) := by
    apply mem_plan.mpr
    refine ⟨rfl, low, high, ?_, ?_, ?_, rfl, rfl⟩
    · show 1 ≤ e - previous * options.episodesPerTrajectory
      omega
    · show e - previous * options.episodesPerTrajectory ≤ options.episodesPerTrajectory
      omega
    · show e = previous * options.episodesPerTrajectory +
        (e - previous * options.episodesPerTrajectory)
      omega
  have within : ((t, e) : Nat × Nat) ∈ jobs.map Job.key := by
    rw [planned.keys]
    exact List.mem_map.mpr ⟨_, inPlan, rfl⟩
  obtain ⟨job, member, same⟩ := List.mem_map.mp within
  simp only [Job.key, Prod.mk.injEq] at same
  exact ⟨job, member, same.1, same.2⟩

end Planned

section Modify

variable {jobs : List Job} {i : Nat} {f : Job → Job}

theorem getElem?_modify_self {job : Job} (found : jobs[i]? = some job) :
    (jobs.modify i f)[i]? = some (f job) := by
  simp [found]

theorem getElem?_modify_other {j : Nat} (other : j ≠ i) : (jobs.modify i f)[j]? = jobs[j]? := by
  rw [List.getElem?_modify]
  cases jobs[j]? <;> simp [other.symm]

theorem slot_getElem?_modify (keep : ∀ job, (f job).slot = job.slot) (j : Nat) :
    (jobs.modify i f)[j]?.map Job.slot = jobs[j]?.map Job.slot := by
  rw [List.getElem?_modify]
  cases jobs[j]? with
  | none => rfl
  | some job =>
      by_cases here : i = j
      · simp [here, keep]
      · simp [here]

theorem slots_modify (keep : ∀ job, (f job).slot = job.slot) :
    (jobs.modify i f).map Job.slot = jobs.map Job.slot := by
  apply List.ext_getElem?
  intro j
  rw [List.getElem?_map, List.getElem?_map]
  exact slot_getElem?_modify keep j

theorem mem_modify {job : Job} (member : job ∈ jobs.modify i f) :
    job ∈ jobs ∨ ∃ original, jobs[i]? = some original ∧ job = f original := by
  obtain ⟨j, found⟩ := List.mem_iff_getElem?.mp member
  by_cases here : j = i
  · subst here
    cases original : jobs[j]? with
    | none => simp [original] at found
    | some old =>
        rw [getElem?_modify_self original] at found
        cases found
        exact Or.inr ⟨old, rfl, rfl⟩
  · rw [getElem?_modify_other here] at found
    exact Or.inl (List.mem_of_getElem? found)

theorem change_refl (jobs : List Job) : (List.zipWith Job.change jobs jobs).flatten = [] := by
  induction jobs with
  | nil => rfl
  | cons head tail ih => simpa using ih

theorem change_modify {job : Job} (found : jobs[i]? = some job) :
    (List.zipWith Job.change jobs (jobs.modify i f)).flatten = job.change (f job) := by
  induction jobs generalizing i with
  | nil => simp at found
  | cons head tail ih =>
      cases i with
      | zero =>
          have eq : head = job := by simpa using found
          subst eq
          simp [change_refl]
      | succ i =>
          have later : tail[i]? = some job := by simpa using found
          simpa using ih later

end Modify

/-- The seed of the next Epoch, as the history has it. -/
def incumbent : List Event → Option Kernel
  | [] => none
  | .seeded seed :: _ => some seed
  | .closed _ _ winner :: _ => some winner
  | _ :: before => incumbent before

def completedEpochs : List Event → Nat
  | [] => 0
  | .closed _ _ _ :: before => completedEpochs before + 1
  | _ :: before => completedEpochs before

/-- The length of the trailing run of Epochs whose winner was the incumbent. -/
def trailing : List Event → Nat
  | [] => 0
  | .closed _ seed winner :: before => if winner = seed then trailing before + 1 else 0
  | _ :: before => trailing before

/-- Events that change neither the results nor the Epochs of a history. -/
def Event.Plain : Event → Prop
  | .recorded _ _ _ => False
  | .seeded _ => False
  | .closed _ _ _ => False
  | _ => True

section Plain

variable {event : Event} (plain : event.Plain) (log : List Event)

include plain

theorem incumbent_plain : incumbent (event :: log) = incumbent log := by
  cases event <;> first | rfl | exact plain.elim

theorem completedEpochs_plain : completedEpochs (event :: log) = completedEpochs log := by
  cases event <;> first | rfl | exact plain.elim

theorem trailing_plain : trailing (event :: log) = trailing log := by
  cases event <;> first | rfl | exact plain.elim

theorem recorded_plain {t e : Nat} {result : JobResult} :
    .recorded t e result ∈ event :: log ↔ .recorded t e result ∈ log := by
  rw [List.mem_cons]
  constructor
  · rintro (rfl | member)
    · exact plain.elim
    · exact member
  · exact Or.inr

end Plain

/-- The job was marked before the coordinator read the file. -/
def Inherited (log : List Event) (trajectory episode : Nat) : Prop :=
  ∃ recent older, log = recent ++ .loaded :: older ∧ .marked trajectory episode ∈ older

theorem Inherited.mono {log : List Event} {t e : Nat} (inherited : Inherited log t e)
    (extra : List Event) : Inherited (extra ++ log) t e := by
  obtain ⟨recent, older, rfl, marked⟩ := inherited
  exact ⟨extra ++ recent, older, by simp, marked⟩

def Begun (log : List Event) (trajectory episode : Nat) : Prop :=
  ∃ reading tokens, .started trajectory episode reading tokens ∈ log

def Recorded (log : List Event) (trajectory episode : Nat) : Prop :=
  ∃ result, .recorded trajectory episode result ∈ log

/-- Events that are writes of the file. -/
def Event.Written : Event → Prop
  | .seeded _ => True
  | .opened _ _ => True
  | .marked _ _ => True
  | .recorded _ _ _ => True
  | .closed _ _ _ => True
  | _ => False

/-- A start saw at most `bound` tokens. -/
def Event.Within (bound : Nat) : Event → Prop
  | .started _ _ _ tokens => tokens ≤ bound
  | _ => True

def Spent (log : List Event) (bound : Nat) : Prop := ∀ event ∈ log, event.Within bound

/-- What each event says of the history before it. -/
def PooledSearch.law (search : PooledSearch) (before : List Event) : Event → Prop
  | .seeded _ => before = []
  | .started t e reading _ =>
      1 ≤ e ∧ (∀ earlier, 1 ≤ earlier → earlier < e → Recorded before t earlier) ∧
      ¬ Recorded before t e ∧ .marked t e ∈ before ∧
      match reading with
      | some tokens => search.budgetReached tokens = false ∧ Spent before tokens
      | none => Inherited before t e
  | .recorded t e _ => Begun before t e ∧ ¬ Recorded before t e
  | .published epoch seed winner =>
      incumbent before = some seed ∧ epoch = completedEpochs before + 1 ∧
      ∃ jobs, Planned search.options epoch jobs ∧
        (∀ job ∈ jobs, ∃ result, job.result = some result ∧
          .recorded job.trajectory job.episode result ∈ before) ∧
        selectWinner seed jobs = .ok winner
  | .closed epoch seed winner =>
      .published epoch seed winner ∈ before ∧ incumbent before = some seed ∧
      epoch = completedEpochs before + 1
  | _ => True

/-- The open Epoch of the file. -/
structure Underway (search : PooledSearch) (log : List Event) (s : State) (active : Active) :
    Prop where
  epoch : active.epoch = s.epoch
  within : s.epoch ≤ search.options.epochs
  going : s.stopReason = none
  seed : active.seed = s.seed
  planned : Planned search.options s.epoch active.jobs
  completed : ∀ job ∈ active.jobs, job.status = .completed → ∃ result,
    job.result = some result ∧ .recorded job.trajectory job.episode result ∈ log
  marked : ∀ job ∈ active.jobs, job.status ≠ .pending →
    .marked job.trajectory job.episode ∈ log
  ordered : ∀ job ∈ active.jobs, job.status ≠ .pending → job.waits active.jobs = false
  preparing : active.phase = .preparing → ∀ job ∈ active.jobs, job.status = .pending
  publishing : active.phase = .publishing → (∀ job ∈ active.jobs, job.status = .completed) ∧
    ∃ winner, active.winner = some winner ∧ selectWinner active.seed active.jobs = .ok winner

/-- What the file says, against the history. -/
structure Ledger (search : PooledSearch) (log : List Event) (s : State) : Prop where
  configured : search.Configured s
  incumbent : incumbent log = some s.seed
  epoch : s.epoch = s.completedEpochs + 1
  epochs : completedEpochs log = s.completedEpochs
  stalls : s.consecutiveWithoutImprovement.getD 0 = trailing log
  valid : ∃ value, latency s.seed = .ok value
  past : ∀ t e, 1 ≤ t → t ≤ search.options.trajectories → 1 ≤ e →
    e ≤ s.completedEpochs * search.options.episodesPerTrajectory → Recorded log t e
  recorded : ∀ t e result, .recorded t e result ∈ log →
    e ≤ s.completedEpochs * search.options.episodesPerTrajectory ∨
    ∃ job ∈ s.jobs, job.trajectory = t ∧ job.episode = e ∧ job.status = .completed ∧
      job.result = some result
  underway : ∀ active, s.active = some active → Underway search log s active

/-- Memory is the file, except for jobs whose last save failed. -/
def Ahead (d s : State) : Prop :=
  ∃ active jobs, d.active = some active ∧ active.phase = .running ∧
    s = { d with active := some { active with jobs := jobs } } ∧
    List.Forall₂ Job.Caught active.jobs jobs

/-- The pool: a bound on the futures, and no two of one trajectory. -/
structure Pool (search : PooledSearch) (k : Coordinator) : Prop where
  bounded : k.running.length ≤ search.options.maxParallelEpisodes
  placed : ∀ worker ∈ k.running, ∃ job, k.state.jobs[worker.job]? = some job
  apart : k.busy.Nodup

/-- The coordinator is outside `_run_jobs`; a job marked as running comes from an
earlier process. -/
structure Idle (log : List Event) (d : State) (k : Coordinator) : Prop where
  current : k.state = d
  empty : k.running = []
  clear : k.failure = none
  resumed : ∀ job ∈ d.jobs, job.status = .running → Inherited log job.trajectory job.episode

/-- The coordinator is inside `_run_jobs`; `admitted` is the job it is about to start. -/
structure Busy (log : List Event) (d : State) (k : Coordinator) (admitted : Option Nat) :
    Prop where
  ahead : Ahead d k.state
  current : k.failure = none → k.state = d
  workers : ∀ worker ∈ k.running, ∃ job, k.state.jobs[worker.job]? = some job ∧
    job.status = .running ∧ Begun log job.trajectory job.episode
  begun : ∀ job ∈ k.state.jobs, job.status = .completed → Begun log job.trajectory job.episode
  resumed : k.failure = none → ∀ i job, d.jobs[i]? = some job → job.status = .running →
    (∃ worker ∈ k.running, worker.job = i) ∨ Inherited log job.trajectory job.episode ∨
      admitted = some i

/-- What the tests of the loop have found of the job at `index`. -/
structure Admissible (search : PooledSearch) (log : List Event) (d : State) (k : Coordinator)
    (index : Nat) (reading : Option Nat) (job : Job) : Prop where
  clear : k.failure = none
  room : k.running.length < search.options.maxParallelEpisodes
  found : d.jobs[index]? = some job
  unfinished : job.status ≠ .completed
  free : job.trajectory ∉ k.busy
  ready : job.waits d.jobs = false
  allowed : match reading with
    | some tokens => search.budgetReached tokens = false ∧ Spent log tokens
    | none => Inherited log job.trajectory job.episode

/-- Where the coordinator stands once there is a file. -/
def Stands (search : PooledSearch) (log : List Event) (d : State) (k : Coordinator) : Prop :=
  match k.point with
  | .create => False
  | .check => Idle log d k
  | .resume => Idle log d k
  | .head => Idle log d k ∧ d.stopReason = none
  | .prepare => Idle log d k
  | .prepared => Idle log d k ∧ ∃ active, d.active = some active ∧ active.phase = .preparing
  | .dispatch _ => Busy log d k none
  | .admitted index reading =>
      Busy log d k none ∧ ∃ job, Admissible search log d k index reading job
  | .submit index reading => Busy log d k (some index) ∧
      ∃ job, Admissible search log d k index reading job ∧ job.status = .running
  | .wait => Busy log d k none
  | .collect _ => Busy log d k none
  | .select => Idle log d k ∧ ∃ active, d.active = some active ∧ active.phase = .running ∧
      ∀ job ∈ active.jobs, job.status = .completed
  | .publish => Idle log d k ∧ ∃ active, d.active = some active ∧ active.phase = .publishing
  | .summarize => Idle log d k ∧ ∃ active winner, d.active = some active ∧
      active.phase = .publishing ∧ active.winner = some winner ∧
      .published d.epoch active.seed winner ∈ log
  | .close => Idle log d k ∧ ∃ active winner, d.active = some active ∧
      active.phase = .publishing ∧ active.winner = some winner ∧
      .published d.epoch active.seed winner ∈ log
  | .leave => True

/-- Before the first save there is nothing but a seed with a valid latency. -/
def Starting (search : PooledSearch) (k : Coordinator) : Prop :=
  k.point = .leave ∨ k.point = .create ∧ k.running = [] ∧ k.failure = none ∧
    ∃ seed value, latency seed = .ok value ∧ k.state = search.initialState seed

def Fits (search : PooledSearch) (disk : Option State) (log : List Event) (k : Coordinator) :
    Prop :=
  Pool search k ∧ match disk with
    | none => Starting search k
    | some d => Stands search log d k

structure Sound (search : PooledSearch) (c : Config) : Prop where
  lawful : Lawful search.law c.log
  spent : Spent c.log c.tokens
  ledger : ∀ d, c.disk = some d → Ledger search c.log d
  blank : c.disk = none → c.log = []
  fits : ∀ k, c.process = .coordinating k → Fits search c.disk c.log k

section Views

variable {search : PooledSearch} {log : List Event} {d s : State} {k : Coordinator}

theorem Idle.mono (idle : Idle log d k) (extra : List Event) : Idle (extra ++ log) d k :=
  ⟨idle.current, idle.empty, idle.clear, fun job member running =>
    (idle.resumed job member running).mono extra⟩

/-- The same view of the file at another point. -/
theorem Idle.at (idle : Idle log d k) (point : Point) : Idle log d { k with point := point } :=
  ⟨idle.current, idle.empty, idle.clear, idle.resumed⟩

theorem Busy.mono {admitted : Option Nat} (busy : Busy log d k admitted) (extra : List Event) :
    Busy (extra ++ log) d k admitted where
  ahead := busy.ahead
  current := busy.current
  workers := by
    intro worker member
    obtain ⟨job, found, running, reading, tokens, started⟩ := busy.workers worker member
    exact ⟨job, found, running, reading, tokens, List.mem_append_right extra started⟩
  begun := by
    intro job member completed
    obtain ⟨reading, tokens, started⟩ := busy.begun job member completed
    exact ⟨reading, tokens, List.mem_append_right extra started⟩
  resumed := by
    intro clear i job found running
    rcases busy.resumed clear i job found running with here | inherited | here
    · exact Or.inl here
    · exact Or.inr (Or.inl (inherited.mono extra))
    · exact Or.inr (Or.inr here)

theorem Busy.at {admitted : Option Nat} (busy : Busy log d k admitted) (point : Point) :
    Busy log d { k with point := point } admitted :=
  ⟨busy.ahead, busy.current, busy.workers, busy.begun, busy.resumed⟩

theorem Pool.empty (empty : k.running = []) : Pool search k := by
  constructor
  · simp [empty]
  · simp [empty]
  · simp [Coordinator.busy, empty]

theorem Pool.congr (pool : Pool search k) (k' : Coordinator) (running : k'.running = k.running)
    (slots : ∀ i : Nat, (k'.state.jobs[i]?).map Job.slot = (k.state.jobs[i]?).map Job.slot) :
    Pool search k' := by
  have trajectories (i : Nat) : (k'.state.jobs[i]?).map (·.trajectory) =
      (k.state.jobs[i]?).map (·.trajectory) := by
    have via := congrArg (Option.map fun slot : Nat × Nat × Nat × Nat => slot.2.1) (slots i)
    rw [Option.map_map, Option.map_map] at via
    exact via
  constructor
  · rw [running]
    exact pool.bounded
  · intro worker member
    rw [running] at member
    obtain ⟨job, found⟩ := pool.placed worker member
    have same := slots worker.job
    rw [found] at same
    cases present : k'.state.jobs[worker.job]? with
    | none => simp [present] at same
    | some job' => exact ⟨job', rfl⟩
  · have same : k'.busy = k.busy := by
      unfold Coordinator.busy
      rw [running]
      exact List.filterMap_congr fun worker _ => trajectories worker.job
    rw [same]
    exact pool.apart

theorem Pool.at (pool : Pool search k) (point : Point) : Pool search { k with point := point } :=
  pool.congr _ rfl fun _ => rfl

@[simp] theorem jobs_onJob (s : State) (i : Nat) (f : Job → Job) :
    (s.onJob i f).jobs = s.jobs.modify i f := by
  unfold State.jobs State.onJob State.onActive
  cases s.active <;> simp

theorem caught_getElem? {olds news : List Job} (caught : List.Forall₂ Job.Caught olds news) {i : Nat}
    {new : Job} (found : news[i]? = some new) : ∃ old, olds[i]? = some old ∧ old.Caught new := by
  induction caught generalizing i with
  | nil => simp at found
  | @cons old memory olds news head _ ih =>
      cases i with
      | zero =>
          have eq : memory = new := by simpa using found
          subst eq
          exact ⟨old, rfl, head⟩
      | succ i => simpa using ih (by simpa using found)

theorem caught_complete {olds news : List Job} (caught : List.Forall₂ Job.Caught olds news) {i : Nat}
    {job : Job} {result : JobResult} (found : news[i]? = some job)
    (running : job.status = .running) (ours : job.Matches result) :
    List.Forall₂ Job.Caught olds (news.modify i (Job.complete result)) := by
  induction caught generalizing i with
  | nil => simp at found
  | @cons old memory olds news head tail ih =>
      cases i with
      | zero =>
          have eq : memory = job := by simpa using found
          subst eq
          rcases head with same | ⟨_, other, _, done⟩
          · subst same
            exact .cons (Or.inr ⟨running, result, ours, rfl⟩) tail
          · rw [done] at running
            cases running
      | succ i => exact .cons head (ih (by simpa using found))

theorem Ahead.refl {active : Active} (found : d.active = some active)
    (running : active.phase = .running) : Ahead d d := by
  refine ⟨active, active.jobs, found, running, ?_, List.forall₂_same.mpr fun _ _ => Or.inl rfl⟩
  obtain ⟨_, _, _, _, _, _, _, _, _, _, _⟩ := d
  cases found
  rfl

theorem jobs_of_active {active : Active} (found : d.active = some active) :
    d.jobs = active.jobs := by
  simp [State.jobs, found]

theorem Ahead.getElem? (ahead : Ahead d s) {i : Nat} {new : Job} (found : s.jobs[i]? = some new) :
    ∃ old, d.jobs[i]? = some old ∧ old.Caught new := by
  obtain ⟨active, jobs, file, _, rfl, caught⟩ := ahead
  rw [jobs_of_active file]
  exact caught_getElem? caught found

/-- A job that memory completes is running in the file too. -/
theorem Ahead.complete (ahead : Ahead d s) {i : Nat} {job : Job} {result : JobResult}
    (found : s.jobs[i]? = some job) (running : job.status = .running)
    (ours : job.Matches result) : Ahead d (s.onJob i (Job.complete result)) := by
  obtain ⟨active, jobs, file, phase, rfl, caught⟩ := ahead
  exact ⟨active, jobs.modify i (Job.complete result), file, phase, rfl,
    caught_complete caught found running ours⟩

end Views

section Winner

theorem fastest_spec {best winner : Kernel} {others : List Kernel} {incumbent : ℚ}
    (valid : latency best = .ok incumbent) (found : fastest best others = .ok winner) :
    ∃ value, latency winner = .ok value ∧ value ≤ incumbent ∧
      (winner = best ∨ value < incumbent) ∧ (winner = best ∨ winner ∈ others) ∧
      ∀ candidate ∈ others, ∃ theirs, latency candidate = .ok theirs ∧ value ≤ theirs := by
  induction others generalizing best incumbent with
  | nil =>
      have same : best = winner := by simpa [fastest] using found
      subst same
      exact ⟨incumbent, valid, le_refl _, Or.inl rfl, Or.inl rfl, by simp⟩
  | cons candidate others ih =>
      cases measured : latency candidate with
      | error error =>
          have impossible : fastest best (candidate :: others) = .error error := by
            simp [fastest, valid, measured, bind, Except.bind]
          rw [impossible] at found
          cases found
      | ok challenger =>
          have step : fastest best (candidate :: others) =
              fastest (if challenger < incumbent then candidate else best) others := by
            simp [fastest, valid, measured, bind, Except.bind]
          rw [step] at found
          by_cases faster : challenger < incumbent
          · rw [if_pos faster] at found
            obtain ⟨value, ok, low, _, from_, all⟩ := ih measured found
            have strict : value < incumbent := lt_of_le_of_lt low faster
            refine ⟨value, ok, strict.le, Or.inr strict, Or.inr ?_, ?_⟩
            · rcases from_ with rfl | member
              · exact List.mem_cons_self
              · exact List.mem_cons_of_mem _ member
            · intro other member
              rcases List.mem_cons.mp member with rfl | member
              · exact ⟨challenger, measured, low⟩
              · exact all other member
          · rw [if_neg faster] at found
            obtain ⟨value, ok, low, tie, from_, all⟩ := ih valid found
            refine ⟨value, ok, low, tie, from_.imp_right (List.mem_cons_of_mem _), ?_⟩
            intro other member
            rcases List.mem_cons.mp member with rfl | member
            · exact ⟨challenger, measured, low.trans (not_lt.mp faster)⟩
            · exact all other member

/-- The candidates are what the results retain, in the order of the jobs. -/
theorem retained_eq {jobs : List Job} {candidates : List Kernel}
    (found : retained jobs = .ok candidates) :
    candidates = jobs.filterMap fun job => job.result.bind (·.retainedKernel) := by
  induction jobs generalizing candidates with
  | nil =>
      have none_ : [] = candidates := by simpa [retained] using found
      simp [← none_]
  | cons job jobs ih =>
      cases result : job.result with
      | none => simp [retained, result] at found
      | some result' =>
          cases kept : result'.retainedKernel with
          | none =>
              have rest : retained jobs = .ok candidates := by
                simpa [retained, result, kept] using found
              simpa [result, kept] using ih rest
          | some candidate =>
              cases measured : latency candidate with
              | error error =>
                  simp [retained, result, kept, measured, bind, Except.bind] at found
              | ok value =>
                  cases rest : retained jobs with
                  | error error =>
                      simp [retained, result, kept, measured, rest, bind, Except.bind] at found
                  | ok others =>
                      have all : candidate :: others = candidates := by
                        simpa [retained, result, kept, measured, rest, bind, Except.bind]
                          using found
                      simp [← all, result, kept, ih rest]

theorem selectWinner_spec {seed winner : Kernel} {jobs : List Job}
    (found : selectWinner seed jobs = .ok winner) :
    ∃ incumbent value, latency seed = .ok incumbent ∧ latency winner = .ok value ∧
      value ≤ incumbent ∧ (winner = seed ∨ value < incumbent) ∧
      (winner = seed ∨ ∃ job ∈ jobs, job.result.bind (·.retainedKernel) = some winner) ∧
      ∀ job ∈ jobs, ∀ candidate, job.result.bind (·.retainedKernel) = some candidate →
        ∃ theirs, latency candidate = .ok theirs ∧ value ≤ theirs := by
  cases collected : retained jobs with
  | error error => simp [selectWinner, collected, bind, Except.bind] at found
  | ok candidates =>
      cases valid : latency seed with
      | error error => simp [selectWinner, collected, valid, bind, Except.bind] at found
      | ok incumbent =>
          have least : fastest seed candidates = .ok winner := by
            simpa [selectWinner, collected, valid, bind, Except.bind] using found
          obtain ⟨value, ok, low, tie, from_, all⟩ := fastest_spec valid least
          rw [retained_eq collected] at from_ all
          refine ⟨incumbent, value, rfl, ok, low, tie, ?_, ?_⟩
          · exact from_.imp_right fun member => List.mem_filterMap.mp member
          · intro job member candidate kept
            exact all candidate (List.mem_filterMap.mpr ⟨job, member, kept⟩)

end Winner

section Writes

variable {search : PooledSearch} {log : List Event} {d s : State}

theorem Underway.mono {active : Active} (underway : Underway search log s active)
    (extra : List Event) : Underway search (extra ++ log) s active where
  epoch := underway.epoch
  within := underway.within
  going := underway.going
  seed := underway.seed
  planned := underway.planned
  completed := by
    intro job member done
    obtain ⟨result, have_, recorded⟩ := underway.completed job member done
    exact ⟨result, have_, List.mem_append_right extra recorded⟩
  marked := fun job member busy => List.mem_append_right extra (underway.marked job member busy)
  ordered := underway.ordered
  preparing := underway.preparing
  publishing := underway.publishing

theorem Ledger.note {event : Event} (ledger : Ledger search log s) (plain : event.Plain) :
    Ledger search (event :: log) s where
  configured := ledger.configured
  incumbent := by rw [incumbent_plain plain]; exact ledger.incumbent
  epoch := ledger.epoch
  epochs := by rw [completedEpochs_plain plain]; exact ledger.epochs
  stalls := by rw [trailing_plain plain]; exact ledger.stalls
  valid := ledger.valid
  past := by
    intro t e low high first last
    obtain ⟨result, recorded⟩ := ledger.past t e low high first last
    exact ⟨result, List.mem_cons_of_mem _ recorded⟩
  recorded := fun t e result member =>
    ledger.recorded t e result ((recorded_plain plain log).mp member)
  underway := fun active found => (ledger.underway active found).mono [event]

theorem ledger_seeded {seed : Kernel} {value : ℚ} (valid : latency seed = .ok value) :
    Ledger search [.seeded seed] (search.initialState seed) where
  configured := ⟨rfl, rfl, rfl, rfl⟩
  incumbent := rfl
  epoch := rfl
  epochs := rfl
  stalls := rfl
  valid := ⟨value, valid⟩
  past := by
    intro t e _ _ first last
    have none_ : e ≤ 0 * search.options.episodesPerTrajectory := last
    omega
  recorded := by simp
  underway := by
    intro active found
    cases found

theorem Ledger.opened (ledger : Ledger search log s) (none_ : s.active = none)
    (within : s.epoch ≤ search.options.epochs) (going : s.stopReason = none) :
    Ledger search (.opened s.epoch s.seed :: log) (search.openEpoch s) := by
  have before : Ledger search (.opened s.epoch s.seed :: log) s := ledger.note trivial
  refine ⟨before.configured, before.incumbent, before.epoch, before.epochs, before.stalls,
    before.valid, before.past, ?_, ?_⟩
  · intro t e result member
    rcases before.recorded t e result member with early | ⟨job, inJobs, _⟩
    · exact Or.inl early
    · simp [State.jobs, none_] at inJobs
  · intro active found
    cases found
    have pending : ∀ job ∈ plan search.options s.epoch, job.status = .pending := fun job member =>
      (mem_plan.mp member).2.2.2.2.2.2.1
    refine ⟨rfl, within, going, rfl, rfl, ?_, ?_, ?_, fun _ => pending, ?_⟩
    · intro job member done
      rw [pending job member] at done
      cases done
    · intro job member busy
      exact (busy (pending job member)).elim
    · intro job member busy
      exact (busy (pending job member)).elim
    · intro phase
      cases phase

theorem Underway.elsewhere {s' : State} {active : Active} (underway : Underway search log s active)
    (epoch : s'.epoch = s.epoch) (seed : s'.seed = s.seed)
    (stopReason : s'.stopReason = s.stopReason) : Underway search log s' active :=
  ⟨underway.epoch.trans epoch.symm, by rw [epoch]; exact underway.within,
    stopReason.trans underway.going, underway.seed.trans seed.symm, by rw [epoch]; exact underway.planned, underway.completed,
    underway.marked, underway.ordered, underway.preparing, underway.publishing⟩

theorem onActive_eq {active : Active} (found : s.active = some active) (f : Active → Active) :
    s.onActive f = { s with active := some (f active) } := by
  simp [State.onActive, found]

/-- The phase moves on with the same jobs. -/
theorem Ledger.onActive (ledger : Ledger search log s) {active : Active}
    (found : s.active = some active) {f : Active → Active} (jobs : (f active).jobs = active.jobs)
    (underway : Underway search log s (f active)) : Ledger search log (s.onActive f) := by
  rw [onActive_eq found]
  refine ⟨ledger.configured, ledger.incumbent, ledger.epoch, ledger.epochs, ledger.stalls,
    ledger.valid, ledger.past, ?_, ?_⟩
  · intro t e result member
    rcases ledger.recorded t e result member with early | ⟨job, inJobs, facts⟩
    · exact Or.inl early
    · rw [jobs_of_active found, ← jobs] at inJobs
      exact Or.inr ⟨job, inJobs, facts⟩
  · intro other same
    cases same
    exact underway.elsewhere rfl rfl rfl

theorem changes_onActive {active : Active} (found : s.active = some active)
    {f : Active → Active} (jobs : (f active).jobs = active.jobs) :
    changes (some s) (s.onActive f) = [] := by
  rw [onActive_eq found]
  simp [changes, found, jobs, change_refl]

theorem changes_onJob {active : Active} (found : s.active = some active) {i : Nat} {job : Job}
    (present : s.jobs[i]? = some job) (f : Job → Job) :
    changes (some s) (s.onJob i f) = job.change (f job) := by
  rw [jobs_of_active found] at present
  simp [State.onJob, onActive_eq found, changes, found, change_modify present]

/-- `admit`: the write-ahead identity of a job whose predecessors are completed. -/
theorem Ledger.marked (ledger : Ledger search log s) {active : Active}
    (found : s.active = some active) (phase : active.phase = .running) {i : Nat} {job : Job}
    (present : s.jobs[i]? = some job) (unfinished : job.status ≠ .completed)
    (ready : job.waits s.jobs = false) :
    Ledger search (job.change job.mark ++ log) (s.onJob i Job.mark) := by
  have before : Ledger search (job.change job.mark ++ log) s := by
    rw [Job.change_mark]
    split
    · exact ledger
    · exact ledger.note trivial
  have underway := before.underway active found
  have inJobs : active.jobs[i]? = some job := by rwa [← jobs_of_active found]
  have still : ∀ j ∈ active.jobs, j.status = .completed → j ∈ active.jobs.modify i Job.mark := by
    intro j member done
    obtain ⟨at_, here⟩ := List.mem_iff_getElem?.mp member
    by_cases same : at_ = i
    · subst same
      rw [inJobs] at here
      cases here
      exact (unfinished done).elim
    · exact List.mem_of_getElem? ((getElem?_modify_other same).trans here)
  have waits : ∀ j : Job, j.waits active.jobs = false →
      j.waits (active.jobs.modify i Job.mark) = false := by
    intro j ready
    rw [Job.waits_eq_false] at ready ⊢
    intro previous member sameTrajectory earlier
    rcases mem_modify member with original | ⟨original, at_, rfl⟩
    · exact ready previous original sameTrajectory earlier
    · rw [inJobs] at at_
      cases at_
      exact (unfinished (ready job (List.mem_of_getElem? inJobs) sameTrajectory earlier)).elim
  have marked : job.status ≠ .running → .marked job.trajectory job.episode ∈
      job.change job.mark ++ log := by
    intro fresh
    rw [Job.change_mark, if_neg fresh]
    exact List.mem_cons_self
  refine ⟨before.configured, before.incumbent, before.epoch, before.epochs, before.stalls,
    before.valid, before.past, ?_, ?_⟩
  · intro t e result member
    rcases before.recorded t e result member with early | ⟨j, within, sameT, sameE, done, has⟩
    · exact Or.inl early
    · rw [jobs_of_active found] at within
      rw [jobs_onJob, jobs_of_active found]
      exact Or.inr ⟨j, still j within done, sameT, sameE, done, has⟩
  · intro other same
    rw [State.onJob, onActive_eq found] at same
    cases same
    refine ⟨underway.epoch, underway.within, underway.going, underway.seed, ?_, ?_, ?_, ?_, ?_, ?_⟩
    · exact (slots_modify Job.slot_mark).trans underway.planned
    · intro j member done
      rcases mem_modify member with original | ⟨original, _, rfl⟩
      · exact underway.completed j original done
      · cases done
    · intro j member busy
      rcases mem_modify member with original | ⟨original, at_, rfl⟩
      · exact underway.marked j original busy
      · rw [inJobs] at at_
        cases at_
        by_cases running : job.status = .running
        · have pending : job.status ≠ .pending := by simp [running]
          exact underway.marked job (List.mem_of_getElem? inJobs) pending
        · exact marked running
    · intro j member busy
      rcases mem_modify member with original | ⟨original, at_, rfl⟩
      · exact waits j (underway.ordered j original busy)
      · rw [inJobs] at at_
        cases at_
        rw [jobs_of_active found] at ready
        exact waits job ready
    · intro preparing
      rw [phase] at preparing
      cases preparing
    · intro publishing
      rw [phase] at publishing
      cases publishing

section Completions

variable {olds news : List Job}

/-- What one save writes of jobs that memory had completed. -/
theorem mem_completions (caught : List.Forall₂ Job.Caught olds news) {event : Event}
    (member : event ∈ (List.zipWith Job.change olds news).flatten) :
    ∃ old ∈ olds, ∃ result, old.status = .running ∧ old.complete result ∈ news ∧
      event = .recorded old.trajectory old.episode result := by
  induction caught with
  | nil => simp at member
  | @cons old new olds news head _ ih =>
      rw [List.zipWith_cons_cons, List.flatten_cons, List.mem_append] at member
      rcases member with here | later
      · rcases head with rfl | ⟨running, result, _, rfl⟩
        · simp at here
        · rw [Job.change_complete running] at here
          exact ⟨old, List.mem_cons_self, result, running, List.mem_cons_self,
            List.mem_singleton.mp here⟩
      · obtain ⟨o, inOlds, result, running, inNews, same⟩ := ih later
        exact ⟨o, List.mem_cons_of_mem _ inOlds, result, running,
          List.mem_cons_of_mem _ inNews, same⟩

theorem mem_news (caught : List.Forall₂ Job.Caught olds news) {new : Job} (member : new ∈ news) :
    ∃ old ∈ olds, old.Caught new ∧ (new = old ∨ ∃ result, new = old.complete result ∧
      .recorded old.trajectory old.episode result ∈
        (List.zipWith Job.change olds news).flatten) := by
  induction caught with
  | nil => simp at member
  | @cons old head olds news caught _ ih =>
      rcases List.mem_cons.mp member with rfl | later
      · refine ⟨old, List.mem_cons_self, caught, ?_⟩
        rcases caught with same | ⟨running, result, _, same⟩
        · exact Or.inl same
        · refine Or.inr ⟨result, same, ?_⟩
          rw [List.zipWith_cons_cons, List.flatten_cons, same, Job.change_complete running]
          exact List.mem_cons_self
      · obtain ⟨o, inOlds, rel, cases_⟩ := ih later
        refine ⟨o, List.mem_cons_of_mem _ inOlds, rel, ?_⟩
        rcases cases_ with same | ⟨result, same, recorded⟩
        · exact Or.inl same
        · refine Or.inr ⟨result, same, ?_⟩
          rw [List.zipWith_cons_cons, List.flatten_cons]
          exact List.mem_append_right _ recorded

theorem mem_olds (caught : List.Forall₂ Job.Caught olds news) {old : Job} (member : old ∈ olds) :
    ∃ new ∈ news, old.Caught new := by
  induction caught with
  | nil => simp at member
  | @cons o new olds news head _ ih =>
      rcases List.mem_cons.mp member with rfl | later
      · exact ⟨new, List.mem_cons_self, head⟩
      · obtain ⟨n, within, rel⟩ := ih later
        exact ⟨n, List.mem_cons_of_mem _ within, rel⟩

theorem slots_caught (caught : List.Forall₂ Job.Caught olds news) :
    news.map Job.slot = olds.map Job.slot := by
  induction caught with
  | nil => rfl
  | cons head _ ih => simp [head.slot, ih]

/-- Results that were not recorded before are recorded by one write, each once. -/
theorem lawful_completions (caught : List.Forall₂ Job.Caught olds news)
    (keys : (olds.map Job.key).Nodup)
    (begun : ∀ new ∈ news, new.status = .completed → Begun log new.trajectory new.episode)
    (fresh : ∀ old ∈ olds, old.status = .running → ¬ Recorded log old.trajectory old.episode)
    (lawful : Lawful search.law log) :
    Lawful search.law ((List.zipWith Job.change olds news).flatten ++ log) := by
  induction caught with
  | nil => exact lawful
  | @cons old new olds news head tail ih =>
      rw [List.map_cons, List.nodup_cons] at keys
      have rest := ih keys.2 (fun n member => begun n (List.mem_cons_of_mem _ member))
        (fun o member => fresh o (List.mem_cons_of_mem _ member))
      rw [List.zipWith_cons_cons, List.flatten_cons, List.append_assoc]
      rcases head with rfl | ⟨running, result, _, rfl⟩
      · simpa using rest
      · rw [Job.change_complete running, List.singleton_append]
        refine ⟨⟨?_, ?_⟩, rest⟩
        · obtain ⟨reading, tokens, started⟩ := begun _ List.mem_cons_self rfl
          exact ⟨reading, tokens, List.mem_append_right _ started⟩
        · rintro ⟨other, recorded⟩
          rcases List.mem_append.mp recorded with here | earlier
          · obtain ⟨o, within, _, _, _, same⟩ := mem_completions tail here
            have sameKey : old.key = o.key := by
              injection same with sameT sameE
              simp [Job.key, sameT, sameE]
            exact keys.1 (sameKey ▸ List.mem_map_of_mem within)
          · exact fresh old List.mem_cons_self running ⟨other, earlier⟩

end Completions

theorem summary_completions {extra : List Event}
    (recorded : ∀ event ∈ extra, ∃ t e result, event = .recorded t e result) (log : List Event) :
    incumbent (extra ++ log) = incumbent log ∧
      completedEpochs (extra ++ log) = completedEpochs log ∧
      trailing (extra ++ log) = trailing log := by
  induction extra with
  | nil => exact ⟨rfl, rfl, rfl⟩
  | cons event extra ih =>
      have rest := ih fun other member => recorded other (List.mem_cons_of_mem _ member)
      obtain ⟨t, e, result, rfl⟩ := recorded event List.mem_cons_self
      exact rest

/-- A job of the file that is not completed has no result in the history. -/
theorem Ledger.unrecorded (ledger : Ledger search log s) {active : Active}
    (found : s.active = some active) {job : Job} (member : job ∈ active.jobs)
    (unfinished : job.status ≠ .completed) : ¬ Recorded log job.trajectory job.episode := by
  rintro ⟨result, recorded⟩
  have underway := ledger.underway active found
  rcases ledger.recorded _ _ _ recorded with early | ⟨other, inJobs, sameT, sameE, done, _⟩
  · obtain ⟨_, _, _, first, _, episode⟩ := underway.planned.mem member
    have positive : s.epoch - 1 = s.completedEpochs := by have := ledger.epoch; omega
    rw [episode, positive] at early
    omega
  · rw [jobs_of_active found] at inJobs
    have same : other = job := underway.planned.unique inJobs member (by
      simp [Job.key, sameT, sameE])
    exact unfinished (same ▸ done)

/-- A save in `for future in done`, which may also write what an earlier one could not. -/
theorem Ahead.save (ahead : Ahead d s) (ledger : Ledger search log d)
    (lawful : Lawful search.law log)
    (begun : ∀ job ∈ s.jobs, job.status = .completed → Begun log job.trajectory job.episode) :
    Lawful search.law (changes (some d) s ++ log) ∧
      Ledger search (changes (some d) s ++ log) s := by
  obtain ⟨active, jobs, found, phase, rfl, caught⟩ := ahead
  have underway := ledger.underway active found
  have written : changes (some d) { d with active := some { active with jobs := jobs } } =
      (List.zipWith Job.change active.jobs jobs).flatten := by
    simp [changes, found]
  rw [written]
  have events : ∀ event ∈ (List.zipWith Job.change active.jobs jobs).flatten,
      ∃ t e result, event = .recorded t e result := by
    intro event member
    obtain ⟨old, _, result, _, _, same⟩ := mem_completions caught member
    exact ⟨old.trajectory, old.episode, result, same⟩
  obtain ⟨sameSeed, sameEpochs, sameTrailing⟩ := summary_completions events log
  constructor
  · apply lawful_completions caught underway.planned.nodup begun _ lawful
    intro old member running
    exact ledger.unrecorded found member (by simp [running])
  · have waits : ∀ old new : Job, old.Caught new → old.waits active.jobs = false →
        new.waits jobs = false := by
      intro old new rel ready
      rw [Job.waits_eq_false] at ready ⊢
      intro previous member sameTrajectory earlier
      obtain ⟨before, within, rel', _⟩ := mem_news caught member
      have slots := rel.slot
      have slots' := rel'.slot
      simp only [Job.slot, Prod.mk.injEq] at slots slots'
      have done := ready before within (by omega) (by omega)
      rcases rel' with same | ⟨running, _⟩
      · rw [same]; exact done
      · rw [running] at done; cases done
    refine ⟨ledger.configured, by rw [sameSeed]; exact ledger.incumbent, ledger.epoch,
      by rw [sameEpochs]; exact ledger.epochs, by rw [sameTrailing]; exact ledger.stalls,
      ledger.valid, ?_, ?_, ?_⟩
    · intro t e low high first last
      obtain ⟨result, recorded⟩ := ledger.past t e low high first last
      exact ⟨result, List.mem_append_right _ recorded⟩
    · intro t e result member
      rcases List.mem_append.mp member with new | old
      · obtain ⟨job, _, result', running, inJobs, same⟩ := mem_completions caught new
        cases same
        exact Or.inr ⟨_, inJobs, rfl, rfl, rfl, rfl⟩
      · rcases ledger.recorded t e result old with early | ⟨job, within, sameT, sameE, done, has⟩
        · exact Or.inl early
        · rw [jobs_of_active found] at within
          obtain ⟨new, inJobs, rel⟩ := mem_olds caught within
          rcases rel with same | ⟨running, _⟩
          · exact Or.inr ⟨job, same ▸ inJobs, sameT, sameE, done, has⟩
          · rw [running] at done; cases done
    · intro other same
      cases same
      refine ⟨underway.epoch, underway.within, underway.going, underway.seed,
        (slots_caught caught).trans underway.planned, ?_, ?_, ?_, ?_, ?_⟩
      · intro job member done
        obtain ⟨old, within, _, same | ⟨result, same, recorded⟩⟩ := mem_news caught member
        · subst same
          obtain ⟨result, has, recorded⟩ := underway.completed job within done
          exact ⟨result, has, List.mem_append_right _ recorded⟩
        · subst same
          exact ⟨result, rfl, List.mem_append_left _ recorded⟩
      · intro job member busy
        obtain ⟨old, within, rel, _⟩ := mem_news caught member
        have key := Job.key_of_slot rel.slot
        simp only [Job.key, Prod.mk.injEq] at key
        rw [key.1, key.2]
        apply List.mem_append_right
        apply underway.marked old within
        rcases rel with same | ⟨running, _⟩
        · exact same ▸ busy
        · simp [running]
      · intro job member busy
        obtain ⟨old, within, rel, _⟩ := mem_news caught member
        apply waits old job rel
        apply underway.ordered old within
        rcases rel with same | ⟨running, _⟩
        · exact same ▸ busy
        · simp [running]
      · intro preparing
        rw [phase] at preparing
        cases preparing
      · intro publishing
        rw [phase] at publishing
        cases publishing

/-- The last save of an Epoch. -/
theorem Ledger.closed (ledger : Ledger search log s) {active : Active}
    (found : s.active = some active) (phase : active.phase = .publishing) {next : State}
    (closes : search.closeEpoch s active = .ok next) :
    ∃ winner, active.winner = some winner ∧ next.seed = winner ∧ next.active = none ∧
      next.epoch = s.epoch + 1 ∧
      Ledger search (.closed active.epoch active.seed winner :: log) next := by
  have underway := ledger.underway active found
  obtain ⟨all, winner, have_, selected⟩ := underway.publishing phase
  obtain ⟨seedLatency, value, validSeed, valid, _, tie, _, _⟩ := selectWinner_spec selected
  have sameSeed := underway.seed
  simp only [PooledSearch.closeEpoch, have_, valid, validSeed, bind, Except.bind] at closes
  have shape : ∃ stop, next = { s with
      consecutiveWithoutImprovement := some (PooledSearch.stalls s value seedLatency), seed := winner,
      completedEpochs := s.epoch, epoch := s.epoch + 1, active := none, stopReason := stop } := by
    split at closes
    · cases closes
      exact ⟨_, rfl⟩
    · cases closes
      exact ⟨_, rfl⟩
  obtain ⟨stop, rfl⟩ := shape
  refine ⟨winner, have_, rfl, rfl, rfl, ledger.configured, rfl, rfl, ?_, ?_, ⟨value, valid⟩, ?_,
    ?_, ?_⟩
  · show completedEpochs log + 1 = s.epoch
    rw [ledger.epochs, ledger.epoch]
  · show PooledSearch.stalls s value seedLatency =
      if winner = active.seed then trailing log + 1 else 0
    unfold PooledSearch.stalls
    rw [ledger.stalls]
    by_cases same : winner = active.seed
    · subst same
      rw [valid] at validSeed
      cases validSeed
      simp
    · have faster : value < seedLatency := tie.resolve_left same
      rw [if_neg same, if_neg (not_le.mpr faster)]
  · intro t e low high first last
    by_cases early : e ≤ s.completedEpochs * search.options.episodesPerTrajectory
    · obtain ⟨result, recorded⟩ := ledger.past t e low high first early
      exact ⟨result, List.mem_cons_of_mem _ recorded⟩
    · have positive : s.epoch - 1 = s.completedEpochs := by have := ledger.epoch; omega
      have later : (s.epoch - 1) * search.options.episodesPerTrajectory < e := by
        rw [positive]
        exact not_le.mp early
      have one : 1 ≤ s.epoch := by have := ledger.epoch; omega
      obtain ⟨job, member, rfl, rfl⟩ := underway.planned.covers one low high later last
      obtain ⟨result, _, recorded⟩ := underway.completed job member (all job member)
      exact ⟨result, List.mem_cons_of_mem _ recorded⟩
  · intro t e result member
    left
    have old : .recorded t e result ∈ log := by simpa using member
    show e ≤ s.epoch * search.options.episodesPerTrajectory
    have more : s.epoch * search.options.episodesPerTrajectory =
        s.completedEpochs * search.options.episodesPerTrajectory +
          search.options.episodesPerTrajectory := by
      rw [ledger.epoch, Nat.succ_mul]
    rcases ledger.recorded t e result old with early | ⟨job, within, _, rfl, _⟩
    · omega
    · rw [jobs_of_active found] at within
      obtain ⟨_, _, _, _, last, episode⟩ := underway.planned.mem within
      have positive : s.epoch - 1 = s.completedEpochs := by have := ledger.epoch; omega
      rw [positive] at episode
      omega
  · intro other none_
    cases none_

theorem change_written (old new : Job) : ∀ event ∈ old.change new, event.Written := by
  intro event member
  unfold Job.change at member
  split at member
  · simp at member
  · split at member
    · rw [List.mem_singleton.mp member]
      trivial
    · rw [List.mem_singleton.mp member]
      trivial
    · simp at member

theorem changes_written (old : Option State) (new : State) :
    ∀ event ∈ changes old new, event.Written := by
  intro event member
  unfold changes at member
  split at member
  · rw [List.mem_singleton.mp member]
    trivial
  · split at member
    · obtain ⟨list, within, here⟩ := List.mem_flatten.mp member
      obtain ⟨i, at_⟩ := List.mem_iff_getElem?.mp within
      obtain ⟨a, b, _, _, rfl⟩ := List.getElem?_zipWith_eq_some.mp at_
      exact change_written a b event here
    · rw [List.mem_singleton.mp member]
      trivial
    · rw [List.mem_singleton.mp member]
      trivial
    · simp at member

theorem spent_written {extra : List Event} (written : ∀ event ∈ extra, event.Written)
    (bound : Nat) : Spent extra bound := by
  intro event member
  have holds := written event member
  cases event with
  | started t e reading tokens => exact holds.elim
  | _ => trivial

theorem Spent.append {extra : List Event} {bound : Nat} (spent : Spent log bound)
    (more : Spent extra bound) : Spent (extra ++ log) bound := by
  intro event member
  rcases List.mem_append.mp member with new | old
  · exact more event new
  · exact spent event old

end Writes

end AtrexAgent.Search
