import AtrexAgent.Execution.JobOutput
import AtrexAgent.Execution.Retries

/-! A job that is saved as terminal is what `execute_job` returns, and a job that is returned has no device
failure that could be retried. -/

namespace AtrexAgent.Gateway

open AtrexAgent.Interaction
open AtrexAgent.Interaction.Program
open AtrexAgent.Json
open AtrexAgent.Evaluation (CharTables)

/-! ### A saved job -/

/-- A checkpoint of the request that holds a terminal job, which none of the two classifiers retries. -/
structure Finished (cfg : Config) (c : Checkpoint) (process : Process) : Prop where
  kept : cfg.directory = true
  identity : c.identity = cfg.identity
  phase : c.phase = .terminal
  saved : c.process = some process
  terminal : ∃ job ∈ process.job, job.terminal = true
  classified : cfg.retryClassifier process.job = none
  undiagnosed : ¬ (cfg.maxDeviceRetries.isSome = true ∧ ∃ job ∈ process.job, job.deviceFailure = true)

/-- How many submissions and polls an operation is. -/
def dispatches : Op → Nat
  | .submit _ => 1
  | .poll _ _ _ => 1
  | _ => 0

/-- Effects with the count of submissions and polls. -/
def Counting : Interaction.Effect (World × Nat) Op Answer := fun s op s' answer =>
  Effect s.1 op s'.1 answer ∧ s'.2 = s.2 + dispatches op

/-- The clock is read before a budget has passed since the reading before. -/
def Prompt (budget : ℚ) : Interaction.Effect (World × Nat) Op Answer := fun s op s' answer =>
  Counting s op s' answer ∧ (op = .monotonic → s'.1.clock < s.1.clock + budget)

section Saved

variable {sha256 : String → String} {cfg : Config} {c : Checkpoint} {process : Process}

/-- What is known of every point of a run that begins with a finished job. -/
def Kept (c : Checkpoint) (s : World × Nat) : Prop := s.1.disk = some c ∧ s.2 = 0

/-- The loop's variables are those of the saved job, and the wait budget is not used up. -/
structure Resumed (cfg : Config) (c : Checkpoint) (v : Variables) (s : World × Nat) : Prop where
  kept : Kept c s
  state : v.state = some c
  rejection : v.rejection = none
  deadline : v.deadline = s.1.clock + cfg.waitBudget

theorem holds_prompt_monotonic {α : Type} {C : World × Nat → Prop} {Q : α → World × Nat → Prop}
    {E : Stop → World × Nat → Prop} {budget : ℚ} {s : World × Nat} (next : ℚ → Prog α) (now : C s)
    (rest : ∀ time, s.1.clock ≤ time → time < s.1.clock + budget →
      Holds (Prompt budget) C Q E (next time) ({ s.1 with clock := time }, s.2)) :
    Holds (Prompt budget) C Q E (monotonic >>= next) s := by
  refine ⟨now, ?_⟩
  rintro ⟨w, n⟩ time ⟨⟨acted, count⟩, soon⟩
  cases acted with
  | monotonic later =>
      have count : n = s.2 := count
      rw [count]
      exact rest _ later (soon rfl)

theorem holds_prompt_read {α : Type} {C : World × Nat → Prop} {Q : α → World × Nat → Prop}
    {E : Stop → World × Nat → Prop} {budget : ℚ} {s : World × Nat} (next : Option Checkpoint → Prog α) (now : C s)
    (rest : Holds (Prompt budget) C Q E (next s.1.disk) s) :
    Holds (Prompt budget) C Q E ((perform Op.read : Prog (Option Checkpoint)) >>= next) s := by
  refine ⟨now, ?_⟩
  rintro ⟨w, n⟩ answer ⟨⟨acted, count⟩, -⟩
  cases acted
  have count : n = s.2 := count
  rw [count]
  exact rest

theorem holds_prompt_uuid {α : Type} {C : World × Nat → Prop} {Q : α → World × Nat → Prop}
    {E : Stop → World × Nat → Prop} {budget : ℚ} {s : World × Nat} (next : String → Prog α) (now : C s)
    (rest : ∀ hex, Holds (Prompt budget) C Q E (next hex) s) :
    Holds (Prompt budget) C Q E ((perform Op.uuid : Prog String) >>= next) s := by
  refine ⟨now, ?_⟩
  rintro ⟨w, n⟩ hex ⟨⟨acted, count⟩, -⟩
  cases acted with
  | uuid =>
      have count : n = s.2 := count
      rw [count]
      exact rest hex

variable (sha256) in
/-- A saved job that is finished is the end of the first turn. -/
theorem turn_kept (finished : Finished cfg c process) {v : Variables} {s : World × Nat} (resumed : Resumed cfg c v s) :
    Holds (Prompt cfg.waitBudget) (Kept c) (fun _ _ => False) (fun reason s => reason = .returned process ∧ Kept c s)
      (turn sha256 cfg v) s := by
  obtain ⟨kept, state, rejection, deadline⟩ := resumed
  unfold turn
  refine holds_prompt_monotonic _ kept fun time later soon => ?_
  have left : ¬ v.deadline - time ≤ 0 := by
    rw [deadline]
    linarith
  rw [if_neg left]
  have phase : v.state.map Checkpoint.phase = some .terminal := by rw [state, Option.map_some, finished.phase]
  have saved : v.state.bind Checkpoint.process = some process := by rw [state, Option.bind_some, finished.saved]
  simp only [rejection, phase, saved]
  have none_left : ¬ (cfg.retryClassifier process.job = none ∧
      (cfg.maxDeviceRetries.isSome = true ∧ ∃ job ∈ process.job, job.deviceFailure = true)) :=
    fun both => finished.undiagnosed both.2
  unfold classify
  rw [if_neg (fun all => finished.undiagnosed all.2.1), if_neg none_left, finished.classified]
  exact ⟨rfl, kept⟩

theorem prepare_kept (finished : Finished cfg c process) {s : World × Nat} (kept : Kept c s) :
    Holds (Prompt cfg.waitBudget) (Kept c) (Resumed cfg c) (fun _ _ => False) (prepare cfg (some c)) s := by
  have phase : (some c).map Checkpoint.phase = some .terminal := by rw [Option.map_some, finished.phase]
  have resumes (v : Variables) (state : v.state = some c) : resume cfg v = pure v := by
    have other : c.phase ≠ .submitting := by simp [finished.phase]
    simp [resume, state, other]
  unfold prepare
  rw [if_neg (by simp [finished.identity])]
  refine holds_prompt_monotonic _ kept fun time later soon => ?_
  dsimp only
  rw [if_neg (by simp [finished.phase])]
  split
  · rw [pure_eq, done_bind, resumes]
    · exact ⟨kept, rfl, rfl, rfl⟩
    · rfl
  · refine holds_prompt_uuid _ kept fun hex => ?_
    rw [resumes]
    · exact ⟨kept, rfl, rfl, rfl⟩
    · rfl

/-- Up to its loop, the program reads the saved job. -/
theorem executeJob_kept (finished : Finished cfg c process) (waits : 0 ≤ cfg.maxWaitRetries)
    (infra : ∀ m ∈ cfg.maxInfraRetries, 0 ≤ m) {s : World × Nat} (kept : Kept c s) :
    Holds (Prompt cfg.waitBudget) (Kept c) (Resumed cfg c) (fun _ _ => False) (executeJob cfg) s := by
  unfold executeJob
  rw [if_neg (not_lt.mpr waits), if_neg (fun ⟨m, member, negative⟩ => absurd (infra m member) (not_le.mpr negative)),
    readState, if_pos finished.kept]
  refine holds_prompt_read _ kept ?_
  rw [kept.1]
  exact prepare_kept finished kept

theorem prompt_total {budget : ℚ} (positive : 0 < budget) (s : World × Nat) (op : Op) :
    ∃ s' answer, Prompt budget s op s' answer := by
  cases op with
  | monotonic => exact ⟨({ s.1 with clock := s.1.clock }, s.2), s.1.clock, ⟨.monotonic le_rfl, rfl⟩, fun _ => by simpa⟩
  | _ =>
      obtain ⟨w', answer, acted⟩ := effect_total s.1 _
      exact ⟨(w', _), answer, ⟨acted, rfl⟩, fun same => by cases same⟩

/-- Every run that begins with a finished job ends, and returns it. -/
theorem kept_runs (finished : Finished cfg c process) (waits : 0 ≤ cfg.maxWaitRetries)
    (infra : ∀ m ∈ cfg.maxInfraRetries, 0 ≤ m) {w : World} (disk : w.disk = some c) :
    Acc (flip (Step (Prompt cfg.waitBudget) (turn sha256 cfg))) ((w, 0), executeJob cfg) ∧
      ∀ s program, Relation.ReflTransGen (Step (Prompt cfg.waitBudget) (turn sha256 cfg)) ((w, 0), executeJob cfg)
          (s, program) →
        Kept c s ∧ (∀ reason, program = stop reason → reason = .returned process) ∧
          (0 < cfg.waitBudget → (∃ reason, program = stop reason) ∨
            ∃ next, Step (Prompt cfg.waitBudget) (turn sha256 cfg) (s, program) next) := by
  have start := executeJob_kept finished waits infra (s := (w, 0)) ⟨disk, rfl⟩
  have turns (v : Variables) (s : World × Nat) (resumed : Resumed cfg c v s) :=
    turn_kept sha256 finished resumed
  constructor
  · refine terminates (C := Kept c) (E := fun reason s => reason = .returned process ∧ Kept c s) (fun _ _ => 0)
      (fun v s resumed => (turns v s resumed).imp (fun _ _ none => none.elim) fun _ _ ended => ended) 1 _ _ ?_
    exact start.imp (fun _ _ resumed => ⟨resumed, Nat.one_pos⟩) fun _ _ none => none.elim
  · intro s program steps
    have holds := holds_steps (C := Kept c) (I := Resumed cfg c)
      (E := fun reason s => reason = .returned process ∧ Kept c s)
      (fun v s resumed => (turns v s resumed).imp (fun _ _ none => none.elim) fun _ _ ended => ended)
      (start.imp (fun _ _ resumed => resumed) fun _ _ none => none.elim) steps
    refine ⟨holds_now holds (fun _ _ resumed => resumed.kept) fun _ _ ended => ended.2, ?_,
      fun positive => step_of_effect (prompt_total positive) program s⟩
    rintro reason rfl
    exact holds.1

end Saved

/-! ### A returned job -/

section Returned

variable {sha256 : String → String} {cfg : Config} {v : Variables} {w : World}

/-- What a transport says of a submission that it rejects: it names no job. -/
def Definitive : (op : Op) → Answer op → Prop
  | .submit _, Submitted.rejected rejection => rejection.process.confirmedId = none
  | _, _ => True

def Transports : Interaction.Effect World Op Answer := fun w op w' answer => Effect w op w' answer ∧ Definitive op answer

/-- A job that has a result, with a device failure in it. -/
def Failing (process : Process) : Prop :=
  process.confirmedId ≠ none ∧ ∃ job ∈ process.job, job.terminal = true ∧ job.deviceFailure = true

/-- The limit of all retries is not reached, and the wait budget has room for the delay of one more. -/
def RetriesRemain (cfg : Config) (v : Variables) (process : Process) (w : World) : Prop :=
  let kind := (cfg.retryClassifier process.job).getD .device
  (∀ m ∈ cfg.maxRetries, (v.retries.total : Int) < m) ∧
    resubmitDelay cfg kind (v.retries.bump kind) < v.deadline - w.clock

/-- A rejection that is kept for the next turn names no job. -/
def Nameless (v : Variables) : Prop := ∀ rejection ∈ v.rejection, rejection.process.confirmedId = none

/-- Where the turn that began with `v` returns a job with a device failure, no retries remain. -/
abbrev Leaves (cfg : Config) (v : Variables) (program : Prog Variables) (w : World) : Prop :=
  Holds Effect (fun _ => True) (fun v' _ => Nameless v')
    (fun reason w => ∀ process, reason = .returned process → Failing process → ¬ RetriesRemain cfg v process w) program w

/-- The variables of a turn that its end reads: the counts of retries and the deadline are those it began with. -/
structure Same (v v' : Variables) : Prop where
  retries : v'.retries = v.retries
  deadline : v'.deadline = v.deadline
  nameless : Nameless v'

variable {v' : Variables}

/-- A process is returned because it is not retried, because a limit is reached, or because time is up. -/
theorem resubmit_leaves (kind : Option RetryKind) (process : Process) (same : Same v v')
    (unlimited : cfg.maxInfraRetries = none)
    (retried : Failing process → kind = some ((cfg.retryClassifier process.job).getD .device)) :
    Leaves cfg v (resubmit cfg v' kind process) w := by
  obtain ⟨retries, deadline, nameless⟩ := same
  unfold resubmit
  cases kind with
  | none =>
      intro process' returned failing
      cases returned
      cases retried failing
  | some kind =>
      dsimp only
      split
      · rename_i limit
        intro process' returned failing remain
        cases returned
        rcases limit with ⟨-, m, member, -⟩ | ⟨m, member, reached⟩
        · rw [unlimited] at member
          cases member
        · rw [retries] at reached
          exact absurd (remain.1 m member) (not_lt.mpr reached)
      rw [Leaves, holds_monotonic]
      refine ⟨trivial, fun time later => ?_⟩
      split
      · rename_i late
        split
        · intro process' returned
          cases returned
        · intro process' returned failing remain
          cases returned
          have chosen := Option.some.inj (retried failing)
          rw [retries, deadline, chosen] at late
          exact absurd remain.2 (not_lt.mpr late)
      · rw [holds_print]
        refine ⟨trivial, ?_⟩
        apply holds_save
        · trivial
        rw [holds_sleep]
        split
        · intro process' returned
          cases returned
        · exact ⟨trivial, fun _ _ => nameless⟩

theorem classify_leaves (unlimited : cfg.maxInfraRetries = none) (limited : cfg.maxDeviceRetries.isSome = true)
    (process : Process) (same : Same v v') : Leaves cfg v (classify sha256 cfg v' process) w := by
  unfold classify
  dsimp only
  split
  · intro process' returned
    cases returned
  split
  · rename_i chosen
    refine resubmit_leaves none process same unlimited fun failing => ?_
    obtain ⟨-, job, here, -, failure⟩ := failing
    split at chosen
    · cases chosen
    · rename_i other
      exact absurd ⟨chosen, limited, job, here, failure⟩ other
  · rename_i kind chosen
    have retried : some kind = some ((cfg.retryClassifier process.job).getD .device) := by
      split at chosen
      · rename_i diagnosed
        rw [diagnosed.1, ← chosen]
        rfl
      · rw [chosen]
        rfl
    split
    · split
      · intro process' returned
        cases returned
      · split
        · intro process' returned
          cases returned
        · exact resubmit_leaves _ process ⟨same.retries, same.deadline, same.nameless⟩ unlimited fun _ => retried
    · exact resubmit_leaves _ process same unlimited fun _ => retried

/-- What is not failing may be returned. -/
theorem returned_leaves {process : Process} (sound : ¬ Failing process) :
    Leaves cfg v (stop (.returned process)) w := by
  intro process' returned failing
  cases returned
  exact absurd failing sound

theorem recover_leaves (previousJobId : Option String) (otherwise : Stop) (same : Same v v')
    (sound : ∀ process, otherwise = .returned process → ¬ Failing process) :
    Leaves cfg v (recover sha256 cfg v' previousJobId otherwise) w := by
  unfold recover retryWait
  split
  · intro process returned failing
    exact absurd failing (sound process returned)
  · rw [Leaves, holds_bind, holds_monotonic]
    refine ⟨trivial, fun time later => ?_⟩
    apply holds_save
    · trivial
    rw [holds_print]
    exact ⟨trivial, same.nameless⟩

theorem rejected_leaves (rejection : Rejection) (same : Same v v') (unlimited : cfg.maxInfraRetries = none)
    (nameless : rejection.process.confirmedId = none) : Leaves cfg v (rejected cfg v' rejection) w := by
  have sound : ¬ Failing rejection.process := fun failing => failing.1 nameless
  unfold rejected
  apply holds_save
  · trivial
  split
  · refine resubmit_leaves _ _ ⟨same.retries, same.deadline, fun _ other => ?_⟩ unlimited fun failing => absurd failing sound
    cases other
  · exact returned_leaves sound

theorem collect_leaves (unlimited : cfg.maxInfraRetries = none) (limited : cfg.maxDeviceRetries.isSome = true)
    (process : Process) (same : Same v v') : Leaves cfg v (collect sha256 cfg v' process) w := by
  unfold collect
  have probed : Same v { v' with probeSavedJob := false } := ⟨same.retries, same.deadline, same.nameless⟩
  rw [Leaves, holds_monotonic]
  refine ⟨trivial, fun time later => ?_⟩
  rw [holds_poll]
  refine ⟨trivial, fun time' answer longer => ?_⟩
  cases answer with
  | raised =>
      intro process returned
      cases returned
  | missing jobId => exact recover_leaves _ _ probed fun _ returned => by cases returned
  | unavailable => exact recover_leaves _ _ probed fun _ returned => by cases returned
  | returned result =>
      dsimp only
      split
      · apply holds_save
        · trivial
        exact classify_leaves unlimited limited result ⟨same.retries, same.deadline, same.nameless⟩
      · rename_i other
        have sound (process : Process) (returned : Stop.returned result = .returned process) : ¬ Failing process := by
          cases returned
          rintro ⟨-, job, here, terminal, -⟩
          exact other ⟨job, here, terminal⟩
        split
        · exact recover_leaves _ _ probed sound
        · exact recover_leaves _ _ probed sound

theorem uncertain_leaves (process : Process) (same : Same v v') (nameless : process.confirmedId = none) :
    Leaves cfg v (uncertain cfg v' process) w := by
  unfold uncertain
  apply holds_save
  · trivial
  split
  · apply holds_save
    · trivial
    rw [holds_monotonic]
    refine ⟨trivial, fun time later => ?_⟩
    split
    · intro process' returned
      cases returned
    · rw [holds_print]
      refine ⟨trivial, ?_⟩
      rw [holds_sleep]
      split
      · intro process' returned
        cases returned
      · exact ⟨trivial, fun _ _ => same.nameless⟩
  · exact returned_leaves fun failing => failing.1 nameless

theorem confirm_leaves (unlimited : cfg.maxInfraRetries = none) (limited : cfg.maxDeviceRetries.isSome = true)
    (process : Process) (same : Same v v') : Leaves cfg v (confirm sha256 cfg v' process) w := by
  unfold confirm
  split
  · apply holds_save
    · trivial
    exact collect_leaves unlimited limited process ⟨same.retries, same.deadline, same.nameless⟩
  · rename_i nameless _
    exact rejected_leaves _ same unlimited nameless
  · rename_i nameless _
    exact uncertain_leaves process same nameless

/-- A submission is where a transport is believed. -/
theorem submitNext_leaves (unlimited : cfg.maxInfraRetries = none) (limited : cfg.maxDeviceRetries.isSome = true)
    (same : Same v v') : Holds Transports (fun _ => True) (fun v' _ => Nameless v')
      (fun reason w => ∀ process, reason = .returned process → Failing process → ¬ RetriesRemain cfg v process w)
      (submitNext sha256 cfg v') w := by
  have numbered : Same v { v' with submission := v'.submission + 1 } := ⟨same.retries, same.deadline, same.nameless⟩
  have believed : ∀ w op w' answer, Transports w op w' answer → Effect w op w' answer := fun _ _ _ _ => And.left
  unfold submitNext
  refine Holds.bind (Q := fun _ _ => True) ?_ fun _ w' _ => ?_
  · unfold save
    split
    · exact ⟨trivial, fun _ _ _ => trivial⟩
    · trivial
  · refine ⟨trivial, fun w'' answer acted => ?_⟩
    cases answer with
    | raised =>
        intro process returned
        cases returned
    | rejected rejection => exact (rejected_leaves rejection numbered unlimited acted.2).fewer believed
    | uncertain process => exact (confirm_leaves unlimited limited process numbered).fewer believed
    | returned process => exact (confirm_leaves unlimited limited process numbered).fewer believed

theorem holds_transports_monotonic {α : Type} {C : World → Prop} {Q : α → World → Prop} {E : Stop → World → Prop}
    (next : ℚ → Prog α) (now : C w)
    (rest : ∀ time, w.clock ≤ time → Holds Transports C Q E (next time) { w with clock := time }) :
    Holds Transports C Q E (monotonic >>= next) w := by
  refine ⟨now, fun w' time acted => ?_⟩
  obtain ⟨acted, -⟩ := acted
  cases acted with
  | monotonic later => exact rest _ later

theorem turn_leaves (unlimited : cfg.maxInfraRetries = none) (limited : cfg.maxDeviceRetries.isSome = true)
    (nameless : Nameless v) : Holds Transports (fun _ => True) (fun v' _ => Nameless v')
      (fun reason w => ∀ process, reason = .returned process → Failing process → ¬ RetriesRemain cfg v process w)
      (turn sha256 cfg v) w := by
  have same : Same v v := ⟨rfl, rfl, nameless⟩
  have believed : ∀ w op w' answer, Transports w op w' answer → Effect w op w' answer := fun _ _ _ _ => And.left
  unfold turn
  refine holds_transports_monotonic _ trivial fun time later => ?_
  split
  · refine (recover_leaves _ _ same fun _ returned => ?_).fewer believed
    cases returned
  split
  · rename_i rejection here
    exact (rejected_leaves rejection same unlimited (nameless rejection here)).fewer believed
  · split
    · exact (collect_leaves unlimited limited _ same).fewer believed
    · exact (classify_leaves unlimited limited _ same).fewer believed
    · intro process returned
      cases returned
    · intro process returned
      cases returned
    · exact submitNext_leaves unlimited limited same

/-- A saved process that is recognized as a rejection names no job. -/
def Recognized (w : World) : Prop := ∀ c ∈ w.disk, ∀ process ∈ c.process, process.rejection ≠ none →
  process.confirmedId = none

theorem resume_leaves (c : Option Checkpoint) (state : v.state = c)
    (recognized : ∀ c' ∈ c, ∀ process ∈ c'.process, process.rejection ≠ none → process.confirmedId = none)
    (rejection : v.rejection = none) : Holds Effect (fun _ => True) (fun v' _ => Nameless v')
      (fun reason _ => ∀ process, reason ≠ .returned process) (resume cfg v) w := by
  have nameless : Nameless v := by simp [Nameless, rejection]
  unfold resume
  rw [state]
  cases c with
  | none => exact nameless
  | some c =>
      dsimp only
      split
      · exact nameless
      split
      · rename_i kept
        obtain ⟨process, here, kept⟩ := Option.bind_eq_some_iff.mp kept
        obtain ⟨status, found, rfl⟩ := Option.map_eq_some_iff.mp kept
        intro other same
        cases same
        exact recognized c rfl process here (by simp [found])
      · split
        · exact nameless
        split
        · intro process returned
          cases returned
        · apply holds_save
          · trivial
          rw [holds_print]
          exact ⟨trivial, nameless⟩

variable (cfg) in
theorem executeJob_leaves (recognized : Recognized w) : Holds Effect (fun _ => True) (fun v' _ => Nameless v')
      (fun reason _ => ∀ process, reason ≠ .returned process) (executeJob cfg) w := by
  unfold executeJob
  split
  · intro process returned
    cases returned
  split
  · intro process returned
    cases returned
  have prepares (c : Option Checkpoint)
      (read : ∀ c' ∈ c, ∀ process ∈ c'.process, process.rejection ≠ none → process.confirmedId = none) :
      Holds Effect (fun _ => True) (fun v' _ => Nameless v') (fun reason _ => ∀ process, reason ≠ .returned process)
        (prepare cfg c) w := by
    unfold prepare
    split
    · intro process returned
      cases returned
    rw [holds_monotonic]
    refine ⟨trivial, fun time later => ?_⟩
    dsimp only
    split
    · intro process returned
      cases returned
    split
    · exact resume_leaves c rfl read rfl
    · rw [holds_uuid]
      exact ⟨trivial, fun hex _ => resume_leaves c rfl read rfl⟩
  unfold readState
  split
  · rw [holds_read]
    exact ⟨trivial, prepares w.disk recognized⟩
  · exact prepares none fun _ other => by cases other

/-- A run that returns a failing job does so in a turn at whose end no retries remain. -/
theorem returned_runs (unlimited : cfg.maxInfraRetries = none) (limited : cfg.maxDeviceRetries.isSome = true)
    (recognized : Recognized w) {w' : World} {process : Process}
    (steps : Relation.ReflTransGen (Step Transports (turn sha256 cfg)) (w, executeJob cfg) (w', stop (.returned process)))
    (failing : Failing process) : ∃ v w₁,
      Relation.ReflTransGen (Step Transports (turn sha256 cfg)) (w, executeJob cfg) (w₁, done v) ∧
      Relation.ReflTransGen (Act Transports) (w₁, turn sha256 cfg v) (w', stop (.returned process)) ∧
      ¬ RetriesRemain cfg v process w' := by
  have believed : ∀ w op w' answer, Transports w op w' answer → Effect w op w' answer := fun _ _ _ _ => And.left
  have start := (executeJob_leaves cfg recognized).fewer believed
  rcases steps_turn steps with acts | ⟨v, w₁, reached, acts⟩
  · exact absurd rfl (holds_acts start acts process)
  · have nameless : Nameless v := holds_steps (C := fun _ => True) (I := fun v _ => Nameless v) (E := fun _ _ => True)
      (fun v w nameless => (turn_leaves unlimited limited nameless).imp (fun _ _ later => later) fun _ _ _ => trivial)
      (start.imp (fun _ _ later => later) fun _ _ _ => trivial) reached
    exact ⟨v, w₁, reached, acts, holds_acts (turn_leaves unlimited limited nameless) acts process rfl failing⟩

end Returned

/-- A device failure is found in a job that has a result. -/
theorem failing_of_embedded {F : Type} {tables : CharTables} {lower : Text → Text} {process : Process} {value : Dict F}
    (job : process.job = some (readJob tables lower value)) (failure : embeddedDeviceFailure tables lower value ≠ none)
    (named : process.confirmedId ≠ none) : Failing process := by
  refine ⟨named, _, job, ?_, Option.isSome_iff_ne_none.mpr failure⟩
  unfold embeddedDeviceFailure at failure
  split at failure
  · rename_i status
    rcases status with succeeded | failed
    · simp [Job.terminal, readJob, succeeded]
    · simp [Job.terminal, readJob, failed]
  · exact absurd rfl failure

/-- A job that is saved as terminal, and is not to be retried, is returned and stays, in every run that reads the
clock before the wait budget has passed. Where infrastructure retries have no limit and device retries have one, a
job is not returned with an embedded device failure while retries remain. -/
theorem finished_job_is_returned {F : Type} (sha256 : String → String) (cfg : Config) (tables : CharTables)
    (lower : Text → Text) (waits : 0 ≤ cfg.maxWaitRetries) (infra : ∀ m ∈ cfg.maxInfraRetries, 0 ≤ m) :
    (∀ (w : World) (c : Checkpoint) (process : Process), w.disk = some c → Finished cfg c process →
      Acc (flip (Step (Prompt cfg.waitBudget) (turn sha256 cfg))) ((w, 0), executeJob cfg) ∧
      ∀ s program, Relation.ReflTransGen (Step (Prompt cfg.waitBudget) (turn sha256 cfg)) ((w, 0), executeJob cfg)
          (s, program) →
        Kept c s ∧ (∀ reason, program = stop reason → reason = .returned process) ∧
          (0 < cfg.waitBudget → (∃ reason, program = stop reason) ∨
            ∃ next, Step (Prompt cfg.waitBudget) (turn sha256 cfg) (s, program) next)) ∧
    (cfg.maxInfraRetries = none → cfg.maxDeviceRetries.isSome = true → ∀ w, Recognized w →
      ∀ (w' : World) (process : Process) (value : Dict F),
        Relation.ReflTransGen (Step Transports (turn sha256 cfg)) (w, executeJob cfg) (w', stop (.returned process)) →
        process.confirmedId ≠ none → process.job = some (readJob tables lower value) →
        embeddedDeviceFailure tables lower value ≠ none → ∃ v w₁,
          Relation.ReflTransGen (Step Transports (turn sha256 cfg)) (w, executeJob cfg) (w₁, done v) ∧
          Relation.ReflTransGen (Act Transports) (w₁, turn sha256 cfg v) (w', stop (.returned process)) ∧
          ¬ RetriesRemain cfg v process w') :=
  ⟨fun _ _ _ disk finished => kept_runs finished waits infra disk,
    fun unlimited limited _ recognized _ _ _ steps named job failure =>
      returned_runs unlimited limited recognized steps (failing_of_embedded job failure named)⟩

/-- The budgets of an evaluation, with no limit of infrastructure retries. -/
def unlimitedConfig : Config := { evaluationConfig with maxInfraRetries := none }

def succeededProcess : Process := ⟨some ⟨some "job", some "succeeded", none, false⟩, none, false⟩

def succeededCheckpoint : Checkpoint := ⟨.terminal, 1, ⟨0, 0, 0, 0⟩, "eval", some "key", some succeededProcess⟩

theorem succeeded_finished : Finished unlimitedConfig succeededCheckpoint succeededProcess :=
  ⟨rfl, rfl, rfl, rfl, ⟨_, rfl, rfl⟩, rfl, by simp [succeededProcess]⟩

theorem finished_job_is_returned_unlimited :
    Acc (flip (Step (Prompt 60) (turn id unlimitedConfig)))
      ((⟨0, some succeededCheckpoint, []⟩, 0), executeJob unlimitedConfig) ∧
    ∀ s program, Relation.ReflTransGen (Step (Prompt 60) (turn id unlimitedConfig))
        ((⟨0, some succeededCheckpoint, []⟩, 0), executeJob unlimitedConfig) (s, program) →
      Kept succeededCheckpoint s ∧ (∀ reason, program = stop reason → reason = .returned succeededProcess) ∧
        ((0 : ℚ) < 60 → (∃ reason, program = stop reason) ∨
          ∃ next, Step (Prompt 60) (turn id unlimitedConfig) (s, program) next) :=
  (finished_job_is_returned (F := Unit) id unlimitedConfig
    ⟨fun _ => false, fun _ => false, fun _ => false, fun a b => a = b⟩ id (by decide) (by simp [unlimitedConfig])).1
    ⟨0, some succeededCheckpoint, []⟩ succeededCheckpoint succeededProcess rfl succeeded_finished

/-- The same without time to wait. -/
def hurriedConfig : Config := { unlimitedConfig with waitBudget := 0 }

theorem succeeded_hurried : Finished hurriedConfig succeededCheckpoint succeededProcess :=
  ⟨rfl, rfl, rfl, rfl, ⟨_, rfl, rfl⟩, rfl, by simp [succeededProcess]⟩

def hurriedVariables : Variables where
  deadline := 0
  waitRetries := 0
  probeSavedJob := false
  submission := 1
  retries := ⟨0, 0, 0, 0⟩
  wireKey := "key"
  state := some succeededCheckpoint
  rejection := none

theorem hurried_start : executeJob hurriedConfig = ask .read (prepare hurriedConfig) := rfl

theorem hurried_prepare : prepare hurriedConfig (some succeededCheckpoint) =
    ask .monotonic fun now => done { hurriedVariables with deadline := now + 0 } := rfl

/-- With no wait budget, the saved job is given up before it is looked at. -/
theorem finished_job_is_lost : ¬ ∀ (sha256 : String → String) (cfg : Config), 0 ≤ cfg.maxWaitRetries →
    (∀ m ∈ cfg.maxInfraRetries, 0 ≤ m) → ∀ (w : World) (c : Checkpoint) (process : Process), w.disk = some c →
      Finished cfg c process → ∀ s program, Relation.ReflTransGen (Step Counting (turn sha256 cfg))
        ((w, 0), executeJob cfg) (s, program) → Kept c s := by
  intro always
  let w : World := ⟨0, some succeededCheckpoint, []⟩
  let next : Checkpoint := ⟨.retryPending, 1, ⟨0, 0, 0, 0⟩, "eval", some (waitRetryKey id "key" (some "job")), none⟩
  have start : Relation.ReflTransGen (Step Counting (turn id hurriedConfig)) ((w, 0), executeJob hurriedConfig)
      ((w, 0), done { hurriedVariables with deadline := 0 + 0 }) := by
    rw [hurried_start]
    have read : Counting (w, 0) .read (w, 0) (some succeededCheckpoint) := ⟨.read, rfl⟩
    refine .head (.act read) ?_
    rw [hurried_prepare]
    exact .single (.act ⟨.monotonic le_rfl, rfl⟩)
  have act {op : Op} {more : Answer op → Prog Variables} {answer : Answer op} {s s' t : World × Nat}
      (acted : Counting s op s' answer)
      (later : ∃ program, Relation.ReflTransGen (Step Counting (turn id hurriedConfig)) (s', more answer) (t, program)) :
      ∃ program, Relation.ReflTransGen (Step Counting (turn id hurriedConfig)) (s, ask op more) (t, program) :=
    later.imp fun _ steps => .head (.act acted) steps
  have late : ∃ program, Relation.ReflTransGen (Step Counting (turn id hurriedConfig))
      ((w, 0), turn id hurriedConfig { hurriedVariables with deadline := 0 + 0 })
      (({ w with disk := some next, log := [.recorded .retryPending next.idempotencyKey] }, 0), program) := by
    have looked : Counting (w, 0) .monotonic (w, 0) (0 : ℚ) := ⟨.monotonic le_rfl, rfl⟩
    refine act looked ?_
    dsimp only [Program.bind]
    rw [if_pos (by norm_num)]
    have written : Counting (w, 0) (.write next) ({ w with disk := some next, log := [.recorded .retryPending next.idempotencyKey] }, 0) () :=
      ⟨.write, rfl⟩
    exact act looked (act written ⟨_, .refl⟩)
  obtain ⟨program, late⟩ := late
  have kept := always id hurriedConfig (by decide) (by simp [hurriedConfig, unlimitedConfig]) w succeededCheckpoint succeededProcess rfl
    succeeded_hurried _ program ((start.tail .again).trans late)
  exact absurd kept.1 (by simp [next, succeededCheckpoint])

end AtrexAgent.Gateway
