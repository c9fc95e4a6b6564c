import AtrexAgent.Library.Transition
import AtrexAgent.Execution.Retries

/-! Idempotency keys over any number of invocations, each of which may die at any
point: a submission without a known outcome is repeated under its own key. -/

namespace AtrexAgent.Gateway

open AtrexAgent.Interaction
open AtrexAgent.Interaction.Program
open AtrexAgent.Transition

/-! ### What the history says of the last submission -/

/-- Its key, unless an accepted job id or a rejection was recorded since. -/
def outstanding : List Event → Option String
  | [] => none
  | .submitted key :: _ => key
  | .recorded .accepted _ :: _ => none
  | .recorded .rejected _ :: _ => none
  | _ :: before => outstanding before

/-- Its key, if its job was accepted and since then neither was seen terminal nor
given up by a wait recovery. -/
def awaited : List Event → Option String
  | [] => none
  | .submitted _ :: _ => none
  | .recorded .accepted key :: _ => key
  | .recorded .rejected _ :: _ => none
  | .recorded .terminal _ :: _ => none
  | .recorded .retryPending _ :: _ => none
  | _ :: before => awaited before

/-- A submission with no known outcome is repeated under its key, and no job that is
still awaited is submitted again. -/
def Reuses (before : List Event) : Event → Prop
  | .submitted key => (∀ k, outstanding before = some k → key = some k) ∧ awaited before = none
  | _ => True

/-- No wait window runs out on a submission with no known outcome. -/
def Timely (before : List Event) : Event → Prop
  | .recorded .retryPending _ => outstanding before = none
  | _ => True

/-! ### Invocations one after another -/

structure Session where
  world : World
  cfg : Config
  program : Prog Variables

/-- Keys are sent, and the checkpoint that holds them is kept. -/
def Config.Keyed (cfg : Config) : Prop := cfg.idempotentSubmission = true ∧ cfg.directory = true

/-- An invocation goes on, or it dies or ends and a later one reads what it saved. -/
inductive Advances (sha256 : String → String) : Session → Session → Prop
  | step {cfg : Config} {w w' : World} {program program' : Prog Variables} :
      Step Effect (turn sha256 cfg) (w, program) (w', program') →
      Advances sha256 ⟨w, cfg, program⟩ ⟨w', cfg, program'⟩
  | restart {s : Session} {cfg : Config} {clock : ℚ} : cfg.Keyed →
      Advances sha256 s ⟨{ s.world with clock := clock }, cfg, executeJob cfg⟩

def Session.Initial (s : Session) : Prop :=
  s.cfg.Keyed ∧ s.world.disk = none ∧ s.world.log = [] ∧ s.program = executeJob s.cfg

/-! ### The invariant -/

/-- What the checkpoint tells of the last submission. -/
def Tells (c : Checkpoint) (key : String) (log : List Event) : Prop :=
  match c.phase with
  | .submitting => (∀ k, outstanding log = some k → k = key) ∧ awaited log = none
  | .accepted => outstanding log = none
  | _ => outstanding log = none ∧ awaited log = none

structure Sound (w : World) : Prop where
  reuses : Lawful Reuses w.log
  blank : w.disk = none → outstanding w.log = none ∧ awaited w.log = none
  saved : ∀ c, w.disk = some c →
    ∃ key, key ≠ "" ∧ c.idempotencyKey = some key ∧ Tells c key w.log

/-- The variables hold the key to submit under. -/
structure Holding (v : Variables) (w : World) : Prop where
  sound : Sound w
  named : v.wireKey ≠ ""
  key : ∀ k, outstanding w.log = some k → v.wireKey = k

/-- The head of the loop. -/
structure Head (v : Variables) (w : World) : Prop extends Holding v w where
  accepted : awaited w.log ≠ none → v.state.map Checkpoint.phase = some .accepted
  known : v.state.map Checkpoint.phase = some .accepted ∨
    v.state.map Checkpoint.phase = some .terminal → outstanding w.log = none

/-- A part of a turn keeps the invariant in a run that is timely so far. -/
abbrev Keeps (program : Prog Variables) (w : World) : Prop :=
  Holds Effect (fun w => Lawful Timely w.log → Sound w)
    (fun v w => Lawful Timely w.log → Head v w) (fun _ w => Lawful Timely w.log → Sound w)
    program w

section Updates

variable {cfg : Config} {v v' : Variables} {w : World}

@[simp] theorem outstanding_printed (notice : Notice) (log : List Event) :
    outstanding (.printed notice :: log) = outstanding log := rfl

@[simp] theorem awaited_printed (notice : Notice) (log : List Event) :
    awaited (.printed notice :: log) = awaited log := rfl

theorem save_keyed (keyed : cfg.Keyed) (phase : Phase) (process : Option Process) :
    w.save cfg (v.checkpoint cfg phase process) =
      { w with
        disk := some (v.checkpoint cfg phase process)
        log := .recorded phase (some v.wireKey) :: w.log } := by
  unfold World.save Variables.checkpoint
  rw [if_pos keyed.2, if_pos keyed.1]

theorem checkpoint_key (keyed : cfg.Keyed) (phase : Phase) (process : Option Process) :
    (v.checkpoint cfg phase process).idempotencyKey = some v.wireKey := if_pos keyed.1

theorem Sound.tick (sound : Sound w) (time : ℚ) : Sound { w with clock := time } :=
  ⟨sound.reuses, sound.blank, sound.saved⟩

theorem Holding.tick (holding : Holding v w) (time : ℚ) : Holding v { w with clock := time } :=
  ⟨holding.sound.tick time, holding.named, holding.key⟩

theorem Sound.print (sound : Sound w) (notice : Notice) :
    Sound { w with log := .printed notice :: w.log } :=
  ⟨⟨trivial, sound.reuses⟩, sound.blank, sound.saved⟩

/-- Saving a checkpoint that tells the truth. -/
theorem Sound.save (sound : Sound w) (keyed : cfg.Keyed) (named : v.wireKey ≠ "") (phase : Phase)
    (process : Option Process)
    (tells : Tells (v.checkpoint cfg phase process) v.wireKey
      (.recorded phase (some v.wireKey) :: w.log)) :
    Sound (w.save cfg (v.checkpoint cfg phase process)) := by
  rw [save_keyed keyed]
  refine ⟨⟨trivial, sound.reuses⟩, fun wrong => absurd wrong (Option.some_ne_none _), fun c same => ?_⟩
  cases same
  exact ⟨v.wireKey, named, checkpoint_key keyed phase process, tells⟩

end Updates

section Turn

variable {sha256 : String → String} {cfg : Config} {v : Variables} {w : World}

/-- Nothing of the last submission is open any more. -/
structure Settled (v : Variables) (w : World) : Prop extends Holding v w where
  closed : outstanding w.log = none
  done : awaited w.log = none

theorem Settled.head (settled : Settled v w) (state : Option Checkpoint)
    (rejection : Option Rejection) :
    Head { v with state := state, rejection := rejection } w :=
  ⟨⟨settled.sound, settled.named, settled.key⟩, fun open' => absurd settled.done open',
    fun _ => settled.closed⟩

/-- A pending retry, once nothing of the submission before it is open. -/
theorem Settled.pend (keyed : cfg.Keyed) (settled : Settled v w) :
    Settled v (w.save cfg (v.checkpoint cfg .retryPending none)) := by
  have sound := settled.sound.save keyed settled.named .retryPending none
    ⟨settled.closed, rfl⟩
  rw [save_keyed keyed] at sound ⊢
  refine ⟨⟨sound, settled.named, fun k last => settled.key k last⟩, settled.closed, rfl⟩

theorem resubmit_keeps (keyed : cfg.Keyed) (kind : Option RetryKind) (process : Process)
    (settled : Lawful Timely w.log → Settled v w) :
    Keeps (resubmit cfg v kind process) w := by
  unfold resubmit
  cases kind with
  | none => exact fun timely => (settled timely).sound
  | some kind =>
      dsimp only
      split
      · exact fun timely => (settled timely).sound
      rw [Keeps, holds_monotonic]
      refine ⟨fun timely => (settled timely).sound, fun time later => ?_⟩
      split
      · split <;> exact fun timely => (settled timely).sound.tick time
      rw [holds_print]
      refine ⟨fun timely => (settled timely).sound.tick time, ?_⟩
      set v' : Variables := { v with retries := v.retries.bump kind }
      have printed (timely : Lawful Timely w.log) :
          Settled v' { w with
            clock := time, log := .printed (.resubmitting kind) :: w.log } := by
        obtain ⟨⟨sound, named, key⟩, closed, done⟩ := settled timely
        exact ⟨⟨(sound.tick time).print _, named, key⟩, closed, done⟩
      apply holds_save
      · exact fun timely => (printed timely.2).sound
      have pending (timely : Lawful Timely w.log) := (printed timely).pend keyed
      rw [save_keyed keyed] at pending ⊢
      rw [holds_sleep]
      split
      · exact fun timely => (pending timely.2.2).sound
      refine ⟨fun timely => (pending timely.2.2).sound, fun time' _ timely => ?_⟩
      obtain ⟨⟨sound, named, key⟩, closed, done⟩ := pending timely.2.2
      exact Settled.head (v := v') ⟨⟨sound.tick time', named, key⟩, closed, done⟩ _ _

theorem waitRetryKey_ne (wireKey : String) (previousJobId : Option String) :
    waitRetryKey sha256 wireKey previousJobId ≠ "" := by
  unfold waitRetryKey
  simp

theorem jobRetryKey_ne (kind : RetryKind) (job : Job) (jobId : String) :
    jobRetryKey sha256 kind job jobId ≠ "" := by
  unfold jobRetryKey
  split
  · simp
  · split <;> simp

/-- A wait recovery is timely only if the submission before it has an outcome. -/
theorem recover_keeps (keyed : cfg.Keyed) (previousJobId : Option String) (otherwise : Stop)
    (sound : Lawful Timely w.log → Sound w) :
    Keeps (recover sha256 cfg v previousJobId otherwise) w := by
  unfold recover retryWait
  split
  · exact sound
  rw [Keeps, holds_bind]
  rw [holds_monotonic]
  refine ⟨sound, fun time later => ?_⟩
  apply holds_save
  · exact fun timely => (sound timely).tick time
  rw [save_keyed keyed, holds_print]
  set v' : Variables := { v with
      waitRetries := v.waitRetries + 1
      deadline := time + cfg.waitBudget
      wireKey := if cfg.idempotentSubmission then waitRetryKey sha256 v.wireKey previousJobId
        else v.wireKey } with fresh
  have named : v'.wireKey ≠ "" := by
    rw [fresh]
    dsimp only
    rw [if_pos keyed.1]
    exact waitRetryKey_ne _ _
  have pending (timely : Lawful Timely (.recorded .retryPending (some v'.wireKey) :: w.log)) :
      Settled v' (World.save { w with clock := time } cfg
        (v'.checkpoint cfg .retryPending none)) := by
    have closed : outstanding w.log = none := timely.1
    have saved := ((sound timely.2).tick time).save keyed named .retryPending none ⟨closed, rfl⟩
    rw [save_keyed keyed] at saved ⊢
    refine ⟨⟨saved, named, fun k last => ?_⟩, closed, rfl⟩
    exact absurd (last.symm.trans closed) (Option.some_ne_none k)
  rw [save_keyed keyed] at pending
  refine ⟨fun timely => (pending timely).sound, fun timely => ?_⟩
  obtain ⟨⟨saved, _, key⟩, closed, done⟩ := pending timely.2
  exact Settled.head (v := v') ⟨⟨saved.print _, named, key⟩, closed, done⟩ _ _

theorem classify_keeps (keyed : cfg.Keyed) (process : Process)
    (settled : Lawful Timely w.log → Settled v w) :
    Keeps (classify sha256 cfg v process) w := by
  unfold classify
  dsimp only
  split
  · exact fun timely => (settled timely).sound
  split
  · exact resubmit_keeps keyed none process settled
  split
  · split
    · exact fun timely => (settled timely).sound
    · split
      · exact fun timely => (settled timely).sound
      · apply resubmit_keeps keyed
        intro timely
        obtain ⟨⟨sound, _, _⟩, closed, done⟩ := settled timely
        refine ⟨⟨sound, jobRetryKey_ne _ _ _, fun k last => ?_⟩, closed, done⟩
        exact absurd (last.symm.trans closed) (Option.some_ne_none k)
  · exact resubmit_keeps keyed _ process settled

theorem rejected_keeps (keyed : cfg.Keyed) (rejection : Rejection)
    (holding : Lawful Timely w.log → Holding v w) :
    Keeps (rejected cfg v rejection) w := by
  unfold rejected
  apply holds_save
  · exact fun timely => (holding timely).sound
  have saved (timely : Lawful Timely w.log) : Settled v
      (w.save cfg (v.checkpoint cfg .rejected (some rejection.process))) := by
    obtain ⟨sound, named, key⟩ := holding timely
    have after := sound.save keyed named .rejected (some rejection.process) ⟨rfl, rfl⟩
    rw [save_keyed keyed] at after ⊢
    exact ⟨⟨after, named, fun k last => absurd last.symm (Option.some_ne_none k)⟩, rfl, rfl⟩
  rw [save_keyed keyed] at saved ⊢
  split
  · apply resubmit_keeps keyed
    intro timely
    obtain ⟨⟨sound, named, key⟩, closed, done⟩ := saved timely.2
    exact ⟨⟨sound, named, key⟩, closed, done⟩
  · exact fun timely => (saved timely.2).sound

/-- Polling an accepted job. -/
theorem collect_keeps (keyed : cfg.Keyed) (process : Process)
    (known : Lawful Timely w.log → Holding v w ∧ outstanding w.log = none) :
    Keeps (collect sha256 cfg v process) w := by
  unfold collect
  have sound (time : ℚ) (timely : Lawful Timely w.log) : Sound { w with clock := time } :=
    (known timely).1.sound.tick time
  rw [Keeps, holds_monotonic]
  refine ⟨fun timely => (known timely).1.sound, fun time later => ?_⟩
  rw [holds_poll]
  refine ⟨sound time, fun time' answer longer => ?_⟩
  cases answer with
  | raised => exact sound time'
  | missing jobId => exact recover_keeps keyed _ _ (sound time')
  | unavailable => exact recover_keeps keyed _ _ (sound time')
  | returned result =>
      dsimp only
      split
      · apply holds_save
        · exact sound time'
        set v' : Variables := { v with probeSavedJob := false }
        have saved (timely : Lawful Timely w.log) : Settled v'
            (World.save { w with clock := time' } cfg
              (v'.checkpoint cfg .terminal (some result))) := by
          obtain ⟨⟨before, named, key⟩, closed⟩ := known timely
          have after := (before.tick time').save (v := v') keyed named .terminal (some result)
            ⟨closed, rfl⟩
          rw [save_keyed keyed] at after ⊢
          exact ⟨⟨after, named, fun k last => key k last⟩, closed, rfl⟩
        rw [save_keyed keyed] at saved ⊢
        apply classify_keeps keyed
        intro timely
        obtain ⟨⟨after, named, key⟩, closed, done⟩ := saved timely.2
        exact ⟨⟨after, named, key⟩, closed, done⟩
      · split <;> exact recover_keeps keyed _ _ (sound time')

/-- The variables under which a submission was made, or is about to be. -/
structure Sending (v : Variables) (w : World) : Prop extends Holding v w where
  done : awaited w.log = none
  idle : v.state.map Checkpoint.phase ≠ some .accepted ∧
    v.state.map Checkpoint.phase ≠ some .terminal

theorem Sending.save (keyed : cfg.Keyed) (sending : Sending v w) (process : Option Process) :
    Sending v (w.save cfg (v.checkpoint cfg .submitting process)) := by
  obtain ⟨⟨sound, named, key⟩, done, idle⟩ := sending
  have tells : Tells (v.checkpoint cfg .submitting process) v.wireKey
      (.recorded .submitting (some v.wireKey) :: w.log) :=
    ⟨fun k last => (key k last).symm, done⟩
  have after := sound.save keyed named .submitting process tells
  rw [save_keyed keyed] at after ⊢
  exact ⟨⟨after, named, fun k last => key k last⟩, done, idle⟩

theorem uncertain_keeps (keyed : cfg.Keyed) (process : Process)
    (sending : Lawful Timely w.log → Sending v w) :
    Keeps (uncertain cfg v process) w := by
  unfold uncertain
  apply holds_save
  · exact fun timely => (sending timely).sound
  rw [if_pos keyed.1]
  set v' : Variables := { v with retries := v.retries.bump .transport }
  have noted (timely : Lawful Timely w.log) := (sending timely).save keyed (some process)
  rw [save_keyed keyed] at noted ⊢
  have bumped (timely : Lawful Timely w.log) : Sending v' _ :=
    ⟨⟨(noted timely).sound, (noted timely).named, (noted timely).key⟩, (noted timely).done,
      (noted timely).idle⟩
  have again (timely : Lawful Timely w.log) := (bumped timely).save keyed (some process)
  apply holds_save
  · exact fun timely => (bumped timely.2).sound
  rw [save_keyed keyed] at again ⊢
  rw [holds_monotonic]
  refine ⟨fun timely => (again timely.2.2).sound, fun time later => ?_⟩
  split
  · exact fun timely => (again timely.2.2).sound.tick time
  rw [holds_print]
  refine ⟨fun timely => (again timely.2.2).sound.tick time, ?_⟩
  rw [holds_sleep]
  split
  · exact fun timely => ((again timely.2.2.2).sound.tick time).print _
  refine ⟨fun timely => ((again timely.2.2.2).sound.tick time).print _, fun time' _ timely => ?_⟩
  obtain ⟨⟨sound, named, key⟩, done, idle⟩ := again timely.2.2.2
  refine ⟨⟨(sound.tick time').print _, named, key⟩, fun open' => absurd done open', ?_⟩
  rintro (accepted | terminal)
  · exact absurd accepted idle.1
  · exact absurd terminal idle.2

theorem confirm_keeps (keyed : cfg.Keyed) (process : Process)
    (sending : Lawful Timely w.log → Sending v w) :
    Keeps (confirm sha256 cfg v process) w := by
  unfold confirm
  split
  · apply holds_save
    · exact fun timely => (sending timely).sound
    have saved (timely : Lawful Timely w.log) :
        Sound (w.save cfg (v.checkpoint cfg .accepted (some process))) :=
      (sending timely).sound.save keyed (sending timely).named .accepted (some process) rfl
    rw [save_keyed keyed] at saved ⊢
    apply collect_keeps keyed
    intro timely
    exact ⟨⟨saved timely.2, (sending timely.2).named,
      fun k last => absurd last.symm (Option.some_ne_none k)⟩, rfl⟩
  · exact rejected_keeps keyed _ fun timely => (sending timely).toHolding
  · exact uncertain_keeps keyed process sending

theorem submitNext_keeps (keyed : cfg.Keyed) (sending : Lawful Timely w.log → Sending v w) :
    Keeps (submitNext sha256 cfg v) w := by
  unfold submitNext
  set v' : Variables := { v with submission := v.submission + 1 }
  have counted (timely : Lawful Timely w.log) : Sending v' w :=
    ⟨⟨(sending timely).sound, (sending timely).named, (sending timely).key⟩,
      (sending timely).done, (sending timely).idle⟩
  apply holds_save
  · exact fun timely => (sending timely).sound
  have saved (timely : Lawful Timely w.log) := (counted timely).save keyed none
  rw [save_keyed keyed] at saved ⊢
  rw [holds_submit]
  refine ⟨fun timely => (saved timely.2).sound, fun time answer later => ?_⟩
  rw [if_pos keyed.1]
  -- The checkpoint was written before the submission, so it tells its key already.
  have sent (timely : Lawful Timely (.submitted (some v'.wireKey) ::
      .recorded .submitting (some v'.wireKey) :: w.log)) : Sending v'
      { w with
        clock := time
        disk := some (v'.checkpoint cfg .submitting none)
        log := .submitted (some v'.wireKey) :: .recorded .submitting (some v'.wireKey) ::
          w.log } := by
    obtain ⟨⟨sound, named, key⟩, done, idle⟩ := saved timely.2.2
    refine ⟨⟨⟨⟨⟨fun k last => congrArg some (key k last), done⟩, sound.reuses⟩, ?_, ?_⟩, named, ?_⟩,
      rfl, idle⟩
    · exact fun wrong => absurd wrong (Option.some_ne_none _)
    · intro c same
      cases same
      exact ⟨v'.wireKey, named, checkpoint_key keyed _ _, fun k last => (Option.some.inj last).symm,
        rfl⟩
    · exact fun k last => Option.some.inj last
  cases answer with
  | raised => exact fun timely => (sent timely).sound
  | rejected rejection => exact rejected_keeps keyed rejection fun timely => (sent timely).toHolding
  | uncertain process => exact confirm_keeps keyed process sent
  | returned process => exact confirm_keeps keyed process sent

theorem turn_keeps (keyed : cfg.Keyed) (head : Lawful Timely w.log → Head v w) :
    Keeps (turn sha256 cfg v) w := by
  unfold turn
  rw [Keeps, holds_monotonic]
  refine ⟨fun timely => (head timely).sound, fun time later => ?_⟩
  split
  · exact recover_keeps keyed _ _ fun timely => (head timely).sound.tick time
  split
  · exact rejected_keeps keyed _ fun timely => (head timely).toHolding.tick time
  split
  · rename_i accepted _
    apply collect_keeps keyed
    exact fun timely => ⟨(head timely).toHolding.tick time, (head timely).known (Or.inl accepted)⟩
  · rename_i terminal _
    apply classify_keeps keyed
    intro timely
    refine ⟨(head timely).toHolding.tick time, (head timely).known (Or.inr terminal), ?_⟩
    by_contra open'
    have accepted := (head timely).accepted open'
    rw [terminal] at accepted
    cases accepted
  · exact fun timely => (head timely).sound.tick time
  · exact fun timely => (head timely).sound.tick time
  · rename_i first second third fourth
    apply submitNext_keeps keyed
    intro timely
    have idle : v.state.map Checkpoint.phase ≠ some .accepted ∧
        v.state.map Checkpoint.phase ≠ some .terminal := by
      cases found : v.state.bind Checkpoint.process with
      | none => exact ⟨fun same => third same found, fun same => fourth same found⟩
      | some process =>
          exact ⟨fun same => first process same found, fun same => second process same found⟩
    refine ⟨(head timely).toHolding.tick time, ?_, idle⟩
    by_contra open'
    exact idle.1 ((head timely).accepted open')

theorem resume_keeps (keyed : cfg.Keyed) (head : Lawful Timely w.log → Head v w) :
    Keeps (resume cfg v) w := by
  unfold resume
  split
  · exact head
  split
  · exact head
  split
  · intro timely
    obtain ⟨⟨sound, named, key⟩, accepted, known⟩ := head timely
    exact ⟨⟨sound, named, key⟩, accepted, known⟩
  · rw [if_pos keyed.1]
    exact head

/-- What the checkpoint tells is enough to go on with. -/
theorem head_of_saved (sound : Sound w) (named : v.wireKey ≠ "") (state : v.state = w.disk)
    (key : ∀ c k, w.disk = some c → c.idempotencyKey = some k → k ≠ "" → v.wireKey = k) :
    Head v w := by
  cases found : w.disk with
  | none =>
      obtain ⟨closed, done⟩ := sound.blank found
      refine ⟨⟨sound, named, fun k last => ?_⟩, fun open' => absurd done open', fun _ => closed⟩
      exact absurd (last.symm.trans closed) (Option.some_ne_none k)
  | some c =>
      obtain ⟨saved, proper, carried, tells⟩ := sound.saved c found
      have same : v.wireKey = saved := key c saved found carried proper
      rw [found] at state
      unfold Tells at tells
      have closed (submitted : c.phase ≠ .submitting) : outstanding w.log = none := by
        cases phase : c.phase with
        | submitting => exact absurd phase submitted
        | accepted => rw [phase] at tells; exact tells
        | rejected => rw [phase] at tells; exact tells.1
        | terminal => rw [phase] at tells; exact tells.1
        | retryPending => rw [phase] at tells; exact tells.1
      refine ⟨⟨sound, named, fun k last => ?_⟩, fun open' => ?_, ?_⟩
      · by_cases submitting : c.phase = .submitting
        · rw [submitting] at tells
          exact same.trans (tells.1 k last).symm
        · exact absurd (last.symm.trans (closed submitting)) (Option.some_ne_none k)
      · rw [state]
        cases phase : c.phase with
        | accepted => exact congrArg some phase
        | submitting => rw [phase] at tells; exact absurd tells.2 open'
        | rejected => rw [phase] at tells; exact absurd tells.2 open'
        | terminal => rw [phase] at tells; exact absurd tells.2 open'
        | retryPending => rw [phase] at tells; exact absurd tells.2 open'
      · rw [state]
        rintro (accepted | terminal)
        · exact closed fun wrong => by simp [wrong] at accepted
        · exact closed fun wrong => by simp [wrong] at terminal

theorem prepare_keeps (keyed : cfg.Keyed) (sound : Lawful Timely w.log → Sound w) :
    Keeps (prepare cfg w.disk) w := by
  unfold prepare
  split
  · exact sound
  rw [Keeps, holds_monotonic]
  refine ⟨sound, fun time later => ?_⟩
  dsimp only
  split
  · exact fun timely => (sound timely).tick time
  split
  · rename_i wireKey chosen
    obtain ⟨carried, proper⟩ := Option.filter_eq_some_iff.mp chosen
    apply resume_keeps keyed
    intro timely
    apply head_of_saved ((sound timely).tick time) (by simpa using proper) rfl
    intro c k found named _
    dsimp only at found
    rw [found] at carried
    exact Option.some.inj (carried.symm.trans named)
  · rename_i missing
    rw [holds_uuid]
    refine ⟨fun timely => (sound timely).tick time, fun hex proper => ?_⟩
    apply resume_keeps keyed
    intro timely
    apply head_of_saved ((sound timely).tick time) proper rfl
    intro c k found carried named
    dsimp only at found
    rw [found, Option.bind_some, carried, Option.filter_some, if_pos (by simpa using named)] at missing
    exact absurd missing (Option.some_ne_none k)

theorem executeJob_keeps (keyed : cfg.Keyed) (sound : Lawful Timely w.log → Sound w) :
    Keeps (executeJob cfg) w := by
  unfold executeJob
  split
  · exact sound
  split
  · exact sound
  unfold readState
  rw [if_pos keyed.2, Keeps, holds_read]
  exact ⟨sound, prepare_keeps keyed sound⟩

end Turn

/-! ### All runs -/

structure Session.Valid (s : Session) : Prop where
  keyed : s.cfg.Keyed
  keeps : Keeps s.program s.world

theorem Session.Valid.sound {s : Session} (valid : s.Valid) (timely : Lawful Timely s.world.log) :
    Sound s.world :=
  holds_now (I := fun v w => Lawful Timely w.log → Head v w)
    (C := fun w => Lawful Timely w.log → Sound w) valid.keeps
    (fun _ _ head timely => (head timely).sound) (fun _ _ sound => sound) timely

theorem initial_valid (s : Session) (initial : s.Initial) : s.Valid := by
  obtain ⟨keyed, disk, log, program⟩ := initial
  refine ⟨keyed, program ▸ executeJob_keeps keyed fun _ => ⟨?_, ?_, ?_⟩⟩
  · rw [log]; trivial
  · rw [log]; exact fun _ => ⟨rfl, rfl⟩
  · rw [disk]; exact fun c wrong => absurd wrong.symm (Option.some_ne_none c)

theorem advance_valid (sha256 : String → String) (s s' : Session) (valid : s.Valid)
    (advance : Advances sha256 s s') : s'.Valid := by
  cases advance with
  | step taken =>
      refine ⟨valid.keyed, holds_step (fun v w head => ?_) valid.keeps taken⟩
      exact turn_keeps valid.keyed head
  | restart keyed =>
      exact ⟨keyed, executeJob_keeps keyed fun timely => (valid.sound timely).tick _⟩

/-- However often invocations die and later ones resume, a submission whose outcome is
unknown is repeated under its own key, and an accepted job is submitted again only when
it was seen terminal or given up by a wait recovery. -/
theorem unknown_submissions_keep_their_key (sha256 : String → String) (s : Session)
    (reach : Reachable Session.Initial (Advances sha256) s) (timely : Lawful Timely s.world.log) :
    Lawful Reuses s.world.log :=
  ((reach.invariant initial_valid (advance_valid sha256)).sound timely).reuses

/-! ### Runs with given answers -/

/-- What the world answers next, whichever operation asks. -/
structure Reply where
  time : ℚ
  submitted : Submitted
  polled : Polled

def later (least time : ℚ) : ℚ := if least ≤ time then time else least

theorem le_later (least time : ℚ) : least ≤ later least time := by
  unfold later
  split
  · assumption
  · exact le_refl least

def respond (reply : Reply) (w : World) : (op : Op) → World × Answer op
  | .monotonic => ({ w with clock := later w.clock reply.time }, later w.clock reply.time)
  | .uuid => (w, "uuid")
  | .read => (w, w.disk)
  | .write c => ({ w with disk := some c, log := .recorded c.phase c.idempotencyKey :: w.log }, ())
  | .submit key => ({ w with
      clock := later w.clock reply.time, log := .submitted key :: w.log }, reply.submitted)
  | .poll _ _ _ => ({ w with clock := later w.clock reply.time }, reply.polled)
  | .sleep seconds => ({ w with clock := later (w.clock + seconds) reply.time }, ())
  | .print notice => ({ w with log := .printed notice :: w.log }, ())

theorem respond_effect (reply : Reply) (w : World) (op : Op) :
    Effect w op (respond reply w op).1 (respond reply w op).2 := by
  cases op with
  | monotonic => exact Effect.monotonic (le_later _ _)
  | uuid => exact Effect.uuid (show "uuid" ≠ "" by decide)
  | read => exact Effect.read
  | write c => exact Effect.write
  | submit key => exact Effect.submit (le_later _ _)
  | poll process seconds probe => exact Effect.poll (le_later _ _)
  | sleep seconds => exact Effect.sleep (le_later _ _)
  | print notice => exact Effect.print

def play (sha256 : String → String) (cfg : Config) :
    List Reply → World × Prog Variables → World × Prog Variables
  | [], point => point
  | _ :: _, (w, stop reason) => (w, stop reason)
  | _ :: rest, (w, done v) => play sha256 cfg rest (w, turn sha256 cfg v)
  | reply :: rest, (w, ask op next) =>
      play sha256 cfg rest ((respond reply w op).1, next (respond reply w op).2)

/-- An invocation with given answers, from any session. -/
def Session.invoke (sha256 : String → String) (s : Session) (cfg : Config) (clock : ℚ)
    (replies : List Reply) : Session :=
  ⟨(play sha256 cfg replies ({ s.world with clock := clock }, executeJob cfg)).1, cfg,
    (play sha256 cfg replies ({ s.world with clock := clock }, executeJob cfg)).2⟩

theorem play_advances (sha256 : String → String) (cfg : Config) (replies : List Reply)
    (w : World) (program : Prog Variables) :
    Relation.ReflTransGen (Advances sha256) ⟨w, cfg, program⟩
      ⟨(play sha256 cfg replies (w, program)).1, cfg, (play sha256 cfg replies (w, program)).2⟩ := by
  induction replies generalizing w program with
  | nil => exact Relation.ReflTransGen.refl
  | cons reply rest ih =>
      cases program with
      | stop reason => exact Relation.ReflTransGen.refl
      | done v => exact (ih w (turn sha256 cfg v)).head (Advances.step Step.again)
      | ask op next =>
          exact (ih _ _).head (Advances.step (Step.act (respond_effect reply w op)))

theorem Session.invoke_reachable {sha256 : String → String} {s : Session} {cfg : Config}
    (reach : Reachable Session.Initial (Advances sha256) s) (keyed : cfg.Keyed) (clock : ℚ)
    (replies : List Reply) :
    Reachable Session.Initial (Advances sha256) (s.invoke sha256 cfg clock replies) :=
  (reach.step (Advances.restart keyed)).run (play_advances sha256 cfg replies _ _)

def firstSession : Session := ⟨⟨0, none, []⟩, evaluationConfig, executeJob evaluationConfig⟩

theorem firstSession_reachable (sha256 : String → String) :
    Reachable Session.Initial (Advances sha256) firstSession :=
  Reachable.initial ⟨⟨rfl, rfl⟩, rfl, rfl, rfl⟩

/-- A job that is queued, and still running when its wait window ends. -/
def slowReply : Reply where
  time := 0
  submitted := .returned ⟨some ⟨some "job", some "queued", none, false⟩, none, false⟩
  polled := .returned ⟨some ⟨some "job", some "running", none, false⟩, none, false⟩

/-- The first invocation dies right after its submission, before any answer is saved. -/
def crashedSession : Session :=
  (firstSession.invoke id evaluationConfig 0 (List.replicate 7 slowReply)).invoke id
    evaluationConfig 0 (List.replicate 16 slowReply)

theorem crashedSession_reachable :
    Reachable Session.Initial (Advances id) crashedSession :=
  Session.invoke_reachable (Session.invoke_reachable (firstSession_reachable id) ⟨rfl, rfl⟩ _ _)
    ⟨rfl, rfl⟩ _ _

theorem crashedSession_log : crashedSession.world.log =
    [.submitted (some "wait-retry:job"), .recorded .submitting (some "wait-retry:job"),
      .printed .waitRecovery, .recorded .retryPending (some "wait-retry:job"),
      .recorded .accepted (some "uuid"), .submitted (some "uuid"),
      .recorded .submitting (some "uuid"), .submitted (some "uuid"),
      .recorded .submitting (some "uuid")] := by decide +kernel

theorem unknown_submissions_keep_their_key_crashed :
    Lawful Reuses crashedSession.world.log :=
  unknown_submissions_keep_their_key id crashedSession crashedSession_reachable
    (by rw [crashedSession_log]; simp [Timely, outstanding])

/-- The key of the last submission, unless it was rejected or its job seen terminal since. -/
def unfinished : List Event → Option String
  | [] => none
  | .submitted key :: _ => key
  | .recorded .rejected _ :: _ => none
  | .recorded .terminal _ :: _ => none
  | _ :: before => unfinished before

def ReusesUnfinished (before : List Event) : Event → Prop
  | .submitted key => ∀ k, unfinished before = some k → key = some k
  | _ => True

/-- A transport failure after which the clock passes the end of the wait window. -/
def lostReply : Reply where
  time := 0
  submitted := .uncertain ⟨none, none, false⟩
  polled := .unavailable

def lateSession : Session :=
  firstSession.invoke id evaluationConfig 0
    (List.replicate 11 lostReply ++ List.replicate 10 { lostReply with time := 100 })

theorem lateSession_log : lateSession.world.log =
    [.submitted (some "wait-retry:uuid"), .recorded .submitting (some "wait-retry:uuid"),
      .printed .waitRecovery, .recorded .retryPending (some "wait-retry:uuid"),
      .printed .sameKey, .recorded .submitting (some "uuid"), .recorded .submitting (some "uuid"),
      .submitted (some "uuid"), .recorded .submitting (some "uuid")] := by decide +kernel

/-- The key changes for an accepted job that outlives its wait window, and for a lost
submission if the window ends before it is repeated. -/
theorem unfinished_submission_changes_key :
    (¬ ∀ (sha256 : String → String) (s : Session),
      Reachable Session.Initial (Advances sha256) s → Lawful ReusesUnfinished s.world.log) ∧
    ¬ ∀ (sha256 : String → String) (s : Session),
      Reachable Session.Initial (Advances sha256) s → Lawful Reuses s.world.log := by
  constructor
  · intro always
    have lawful := always id crashedSession crashedSession_reachable
    rw [crashedSession_log] at lawful
    have same := lawful.1 "uuid" rfl
    exact absurd same (by decide)
  · intro always
    have lawful := always id lateSession
      (Session.invoke_reachable (firstSession_reachable id) ⟨rfl, rfl⟩ _ _)
    rw [lateSession_log] at lawful
    have same := lawful.1.1 "uuid" rfl
    exact absurd same (by decide)

end AtrexAgent.Gateway
