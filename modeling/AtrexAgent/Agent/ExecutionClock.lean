import AtrexAgent.Library.Occupancy
import AtrexAgent.Library.Transition

/-! `SessionControl`: the time of an agent's session, without the time it is stopped for requests. -/

namespace AtrexAgent.Session

open Occupancy Transition

inductive Signal where
  | stop | resume | kill
  deriving DecidableEq, Repr

/-- The state of a session, with the signals that were sent. -/
structure SessionControl where
  attached : Bool
  closed : Bool
  pending : Nat
  started : Option ℚ
  pausedSince : Option ℚ
  waitSeconds : ℚ
  finishedActiveSeconds : Option ℚ
  signals : List Signal

def SessionControl.new : SessionControl := ⟨false, false, 0, none, none, 0, none, []⟩

namespace SessionControl

variable (control : SessionControl) (now : ℚ)

/-- `active_seconds`, when the clock reads `now`. -/
def activeSeconds : ℚ :=
  match control.finishedActiveSeconds with
  | some seconds => seconds
  | none =>
      match control.started with
      | none => 0
      | some started => max 0 (control.pausedSince.getD now - started - control.waitSeconds)

def send (signals : List Signal) : SessionControl := { control with signals := control.signals ++ signals }

/-- `attach`; a session that has closed raises an error. Where the process tree cannot be read, the clock has
started. -/
def attach (fails : Bool) : Option SessionControl :=
  if control.closed then none else some { control with started := some now, attached := !fails }

/-- `poll` -/
def poll : SessionControl :=
  if control.attached && !control.closed && control.pending ≠ 0 then control.send [.stop] else control

/-- The enter of `request`; a session that has closed raises an error. Where a signal fails, the session is
closed and its processes are killed. -/
def enter (fails : Bool) : Option SessionControl :=
  if control.closed then none
  else
    let paused := { control with pausedSince := if control.pending = 0 then some now else control.pausedSince }
    if fails then some ({ paused with closed := true }.send [.stop, .kill])
    else some ({ paused with pending := control.pending + 1 }.send [.stop, .stop])

/-- `close` -/
def close : SessionControl :=
  { control with
    finishedActiveSeconds := some (control.finishedActiveSeconds.getD (control.activeSeconds now))
    closed := true }

/-- `kill` -/
def kill : SessionControl :=
  if control.attached then (control.close now).send [.stop, .stop, .kill] else control.close now

/-- The clock at the exit of `request`. -/
def left : SessionControl :=
  let left := { control with pending := control.pending - 1 }
  if left.pending = 0 then
    { left with waitSeconds := left.waitSeconds + (now - left.pausedSince.getD now), pausedSince := none }
  else left

/-- The exit of `request`. Where the signal to go on fails, the session is killed at a later time. -/
def leave (fails : Option ℚ) : SessionControl :=
  let left := control.left now
  if left.pending = 0 ∧ left.closed = false then
    match fails with
    | none => left.send [.resume]
    | some later => (left.send [.resume]).kill later
  else left

end SessionControl

/-! ### Runs -/

/-- What happens to a session. A request is named by its number; where its exit fails, that is at a later time. -/
inductive Event where
  | attach (fails : Bool)
  | enter (fails : Bool)
  | leave (request : Nat) (fails : Option ℚ)
  | close
  | kill
  | poll
  | read
  deriving DecidableEq, Repr

/-- A session with its history: when its requests were entered and left, and when it closed. -/
structure World where
  control : SessionControl
  requests : List (ℚ × Option ℚ)
  closedAt : Option ℚ
  now : ℚ

def World.new (now : ℚ) : World := ⟨.new, [], none, now⟩

/-- The active seconds that a session reports now. -/
def World.value (w : World) : ℚ := w.control.activeSeconds w.now

/-- The world when the session has changed; the first time it is closed is kept. -/
def World.become (w : World) (control : SessionControl) : World :=
  { w with control, closedAt := if control.closed then some (w.closedAt.getD w.now) else w.closedAt }

/-- What an event does now, where it can happen: one launch is attached, a request waits for it, and only a
request that was entered and not left is left. A refused attach or enter changes nothing. -/
def happen (w : World) : Event → Option World
  | .attach fails =>
      if w.control.started = none then some (w.become ((w.control.attach w.now fails).getD w.control)) else none
  | .enter fails =>
      if w.control.attached ∨ w.control.closed then
        match w.control.enter w.now fails with
        | none => some w
        | some control =>
            some ({ w with requests := if fails then w.requests else w.requests ++ [(w.now, none)] }.become control)
      else none
  | .leave request fails =>
      match w.requests[request]? with
      | some (entered, none) =>
          if w.now ≤ fails.getD w.now then
            some ({ w with
              requests := w.requests.set request (entered, some w.now)
              now := fails.getD w.now }.become (w.control.leave w.now fails))
          else none
      | _ => none
  | .close => some (w.become (w.control.close w.now))
  | .kill => some (w.become (w.control.kill w.now))
  | .poll => some (w.become w.control.poll)
  | .read => some w

/-- An event at a time that the clock reads; the clock never goes back. -/
def step (w : World) (time : ℚ) (event : Event) : Option World :=
  if w.now ≤ time then happen { w with now := time } event else none

/-- One session after another state of it. -/
def Happens (w w' : World) : Prop := ∃ time event, step w time event = some w'

/-- No enter fails while another request is pending. -/
def Orderly (w : World) : Event → Prop
  | .enter fails => fails = true → w.control.pending = 0
  | _ => True

def HappensOrderly (w w' : World) : Prop := ∃ time event, Orderly w event ∧ step w time event = some w'

def Fresh (w : World) : Prop := ∃ now, w = .new now

/-- The time at which the session closed, or now. -/
def World.horizon (w : World) : ℚ := w.closedAt.getD w.now

/-- The active seconds are the elapsed time without the time while a request was pending. -/
def ActiveTime (w : World) : Prop :=
  match w.control.started with
  | none => w.value = 0
  | some started => (w.value : ℝ) = (w.horizon - started : ℝ) - occupied w.requests w.horizon

/-! ### The clock in every state -/

/-- The session is open. -/
structure World.Open (w : World) : Prop where
  opened : w.control.closed = false
  unclosed : w.closedAt = none
  unfinished : w.control.finishedActiveSeconds = none

/-- What the clock has counted. -/
inductive Clock (w : World) : Prop where
  | waiting (isOpen : w.Open) (unattached : w.control.attached = false) (unstarted : w.control.started = none)
      (unpaused : w.control.pausedSince = none) (free : w.control.pending = 0) (unwaited : w.control.waitSeconds = 0)
      (untouched : w.requests = [])
  | idle (isOpen : w.Open) (started : ℚ) (begun : w.control.started = some started)
      (unpaused : w.control.pausedSince = none) (free : w.control.pending = 0)
      (room : started + w.control.waitSeconds ≤ w.now) (counted : occupied w.requests w.now = w.control.waitSeconds)
  | paused (isOpen : w.Open) (started since : ℚ) (begun : w.control.started = some started)
      (paused : w.control.pausedSince = some since) (busy : w.control.pending ≠ 0)
      (room : started + w.control.waitSeconds ≤ since) (past : since ≤ w.now)
      (counted : occupied w.requests w.now = w.control.waitSeconds + (w.now - since))
  | closed (ended : ℚ) (shut : w.control.closed = true) (at_end : w.closedAt = some ended) (past : ended ≤ w.now)
      (fixed : ∀ time, w.control.activeSeconds time = w.value)
      (quiet : w.control.finishedActiveSeconds = none → w.control.pending = 0)
      (accounted : ActiveTime w)

structure Consistent (w : World) : Prop where
  counted : w.control.pending = w.requests.countP (·.2.isNone)
  entered : ∀ request ∈ w.requests, request.1 ≤ w.now
  left : ∀ request ∈ w.requests, ∀ left ∈ request.2, left ≤ w.now
  clock : Clock w

theorem Consistent.new (now : ℚ) : Consistent (.new now) where
  counted := rfl
  entered := by simp [World.new]
  left := by simp [World.new]
  clock := .waiting ⟨rfl, rfl, rfl⟩ rfl rfl rfl rfl rfl rfl

variable {w w' : World}

/-- Without a pending request every request has been left. -/
theorem Consistent.all_left (consistent : Consistent w) (free : w.control.pending = 0) :
    ∀ request ∈ w.requests, ∃ left, request.2 = some left ∧ left ≤ w.now := by
  intro request member
  have none : w.requests.countP (·.2.isNone) = 0 := consistent.counted.symm.trans free
  cases left : request.2 with
  | none => exact absurd (by simp [left]) (List.countP_eq_zero.mp none request member)
  | some time => exact ⟨time, rfl, consistent.left request member time left⟩

/-- With a pending request some request has not been left. -/
theorem Consistent.one_open (consistent : Consistent w) (busy : w.control.pending ≠ 0) :
    ∃ entered, (entered, none) ∈ w.requests ∧ entered ≤ w.now := by
  have positive : 0 < w.requests.countP (·.2.isNone) := by
    rw [← consistent.counted]
    exact Nat.pos_of_ne_zero busy
  obtain ⟨⟨entered, left⟩, member, unended⟩ := List.countP_pos_iff.mp positive
  have unended : left = none := by simpa using unended
  subst unended
  exact ⟨entered, member, consistent.entered _ member⟩

/-- The active seconds that a consistent clock reports. -/
theorem Consistent.active (consistent : Consistent w) : ActiveTime w := by
  cases consistent.clock with
  | waiting isOpen _ unstarted =>
      simp [ActiveTime, World.value, SessionControl.activeSeconds, unstarted, isOpen.unfinished]
  | idle isOpen started begun unpaused _ room counted =>
      have positive : 0 ≤ w.now - started - w.control.waitSeconds := by linarith
      simp only [ActiveTime, begun, World.value, SessionControl.activeSeconds, isOpen.unfinished, unpaused,
        Option.getD_none, max_eq_right positive, World.horizon, isOpen.unclosed, counted]
      push_cast
      ring
  | paused isOpen started since begun paused _ room _ counted =>
      have positive : 0 ≤ since - started - w.control.waitSeconds := by linarith
      simp only [ActiveTime, begun, World.value, SessionControl.activeSeconds, isOpen.unfinished, paused,
        Option.getD_some, max_eq_right positive, World.horizon, isOpen.unclosed, Option.getD_none, counted]
      push_cast
      ring
  | closed _ _ _ _ _ _ accounted => exact accounted

/-- Only time passes. -/
theorem Consistent.tick (consistent : Consistent w) {time : ℚ} (after : w.now ≤ time) :
    Consistent { w with now := time } where
  counted := consistent.counted
  entered := fun request member => (consistent.entered request member).trans after
  left := fun request member left ended => (consistent.left request member left ended).trans after
  clock := by
    cases consistent.clock with
    | waiting isOpen unattached unstarted unpaused free unwaited untouched =>
        exact .waiting ⟨isOpen.1, isOpen.2, isOpen.3⟩ unattached unstarted unpaused free unwaited untouched
    | idle isOpen started begun unpaused free room counted =>
        refine .idle ⟨isOpen.1, isOpen.2, isOpen.3⟩ started begun unpaused free (room.trans after) ?_
        exact (occupied_idle (consistent.all_left free) after).trans counted
    | paused isOpen started since begun paused busy room past counted =>
        obtain ⟨entered, running, before⟩ := consistent.one_open busy
        refine .paused ⟨isOpen.1, isOpen.2, isOpen.3⟩ started since begun paused busy room (past.trans after) ?_
        rw [occupied_busy running before after, counted]
        ring
    | closed ended shut at_end past fixed quiet accounted =>
        have same : World.value { w with now := time } = w.value := fixed time
        refine .closed ended shut at_end (past.trans after) (fun _ => (fixed _).trans same.symm) quiet ?_
        rw [ActiveTime, ← same] at accounted
        simpa [ActiveTime, World.horizon, at_end] using accounted

/-- A consistent state whose value has not gone back, and which is closed with the same value where the session
was. -/
structure Onward (w w' : World) : Prop where
  consistent : Consistent w'
  grows : w.value ≤ w'.value
  frozen : w.control.closed = true → w'.control.closed = true ∧ w'.value = w.value

theorem Onward.refl (consistent : Consistent w) : Onward w w :=
  ⟨consistent, le_rfl, fun closed => ⟨closed, rfl⟩⟩

theorem Onward.trans {w'' : World} (first : Onward w w') (second : Onward w' w'') : Onward w w'' where
  consistent := second.consistent
  grows := first.grows.trans second.grows
  frozen := fun closed =>
    have middle := first.frozen closed
    have last := second.frozen middle.1
    ⟨last.1, last.2.trans middle.2⟩

theorem Onward.at_once (consistent : Consistent w') (same : w'.value = w.value)
    (closed : w.control.closed = true → w'.control.closed = true) : Onward w w' :=
  ⟨consistent, same.ge, fun shut => ⟨closed shut, same⟩⟩

/-- The value grows while time passes, and not in a closed session. -/
theorem Consistent.onward_tick (consistent : Consistent w) {time : ℚ} (after : w.now ≤ time) :
    Onward w { w with now := time } := by
  have value : w.value ≤ World.value { w with now := time } ∧
      (w.control.closed = true → World.value { w with now := time } = w.value) := by
    cases consistent.clock with
    | waiting isOpen _ unstarted =>
        simp [World.value, SessionControl.activeSeconds, unstarted, isOpen.unfinished]
    | idle isOpen started begun unpaused =>
        have later : w.now - started - w.control.waitSeconds ≤ time - started - w.control.waitSeconds := by linarith
        simpa [World.value, SessionControl.activeSeconds, begun, isOpen.unfinished, isOpen.opened, unpaused] using
          max_le_max_left 0 later
    | paused isOpen started since begun paused =>
        simp [World.value, SessionControl.activeSeconds, begun, isOpen.unfinished, paused]
    | closed _ _ _ _ fixed => exact ⟨(fixed time).ge, fun _ => fixed time⟩
  exact ⟨consistent.tick after, value.1, fun closed => ⟨closed, value.2 closed⟩⟩

theorem Consistent.horizon_le (consistent : Consistent w) : w.horizon ≤ w.now := by
  cases consistent.clock with
  | waiting isOpen => simp [World.horizon, isOpen.unclosed]
  | idle isOpen => simp [World.horizon, isOpen.unclosed]
  | paused isOpen => simp [World.horizon, isOpen.unclosed]
  | closed ended _ at_end past => simpa [World.horizon, at_end] using past

theorem Consistent.become_self (consistent : Consistent w) : w.become w.control = w := by
  cases consistent.clock with
  | waiting isOpen => simp [World.become, isOpen.opened]
  | idle isOpen => simp [World.become, isOpen.opened]
  | paused isOpen => simp [World.become, isOpen.opened]
  | closed ended shut at_end => cases w; simp_all [World.become]

/-- Signals do not change the clock. -/
theorem Consistent.send (consistent : Consistent w) (signals : List Signal) :
    Onward w { w with control := w.control.send signals } := by
  refine .at_once ⟨consistent.counted, consistent.entered, consistent.left, ?_⟩ rfl id
  cases consistent.clock with
  | waiting isOpen unattached unstarted unpaused free unwaited untouched =>
      exact .waiting ⟨isOpen.1, isOpen.2, isOpen.3⟩ unattached unstarted unpaused free unwaited untouched
  | idle isOpen started begun unpaused free room counted =>
      exact .idle ⟨isOpen.1, isOpen.2, isOpen.3⟩ started begun unpaused free room counted
  | paused isOpen started since begun paused busy room past counted =>
      exact .paused ⟨isOpen.1, isOpen.2, isOpen.3⟩ started since begun paused busy room past counted
  | closed ended shut at_end past fixed quiet accounted =>
      exact .closed ended shut at_end past fixed quiet accounted

/-- A close keeps the value that the clock reports. -/
theorem Consistent.close (consistent : Consistent w) : Onward w (w.become (w.control.close w.now)) := by
  have same : (w.become (w.control.close w.now)).value = w.value := by
    cases finished : w.control.finishedActiveSeconds <;>
      simp [World.value, World.become, SessionControl.close, SessionControl.activeSeconds, finished]
  refine .at_once ⟨consistent.counted, consistent.entered, consistent.left, ?_⟩ same fun _ => rfl
  refine .closed w.horizon rfl rfl consistent.horizon_le (fun _ => rfl) (fun unfinished => ?_) ?_
  · simp [World.become, SessionControl.close] at unfinished
  · have active := consistent.active
    rw [ActiveTime, ← same] at active
    exact active

theorem Consistent.kill (consistent : Consistent w) : Onward w (w.become (w.control.kill w.now)) := by
  have closed := consistent.close
  rw [SessionControl.kill]
  split
  · exact closed.trans (closed.consistent.send _)
  · exact closed

theorem Consistent.attach (consistent : Consistent w) (unstarted : w.control.started = none) (fails : Bool) :
    Onward w (w.become ((w.control.attach w.now fails).getD w.control)) := by
  cases consistent.clock with
  | waiting isOpen _ _ unpaused free unwaited untouched =>
      have attached : (w.control.attach w.now fails).getD w.control =
          { w.control with started := some w.now, attached := !fails } := by
        simp [SessionControl.attach, isOpen.opened]
      rw [attached]
      refine .at_once ⟨consistent.counted, consistent.entered, consistent.left, ?_⟩ ?_ id
      · refine .idle ⟨isOpen.opened, ?_, isOpen.unfinished⟩ w.now rfl unpaused free ?_ ?_
        · simpa [World.become, isOpen.opened] using isOpen.unclosed
        · simp [World.become, unwaited]
        · simp [World.become, unwaited, untouched]
      · simp [World.value, World.become, SessionControl.activeSeconds, isOpen.unfinished, unstarted, unpaused,
          unwaited]
  | idle _ _ begun => simp [begun] at unstarted
  | paused _ _ _ begun => simp [begun] at unstarted
  | closed _ shut =>
      simp only [SessionControl.attach, shut, ite_true, Option.getD_none, consistent.become_self]
      exact .refl consistent

/-- An enter of an open session is a request that is pending from now on. -/
theorem Consistent.enter (consistent : Consistent w) (attached : w.control.attached = true)
    (opened : w.control.closed = false) :
    Onward w ({ w with requests := w.requests ++ [(w.now, none)] }.become
      ({ w.control with
        pausedSince := if w.control.pending = 0 then some w.now else w.control.pausedSince
        pending := w.control.pending + 1 }.send [.stop, .stop])) := by
  have counted : w.control.pending + 1 = (w.requests ++ [(w.now, (none : Option ℚ))]).countP fun request => request.2.isNone := by
    simp [consistent.counted]
  have entered : ∀ request ∈ w.requests ++ [(w.now, none)], request.1 ≤ w.now := by
    intro request member
    rcases List.mem_append.mp member with old | new
    · exact consistent.entered request old
    · rw [List.mem_singleton.mp new]
  have left : ∀ request ∈ w.requests ++ [(w.now, none)], ∀ left ∈ request.2, left ≤ w.now := by
    intro request member
    rcases List.mem_append.mp member with old | new
    · exact consistent.left request old
    · simp [List.mem_singleton.mp new]
  have spans : occupied (w.requests ++ [(w.now, none)]) w.now = occupied w.requests w.now := occupied_started le_rfl
  cases consistent.clock with
  | waiting _ unattached => simp [unattached] at attached
  | idle isOpen started begun unpaused free room spent =>
      refine .at_once ⟨counted, entered, left, ?_⟩ ?_ id
      · refine .paused ⟨isOpen.opened, ?_, isOpen.unfinished⟩ started w.now begun ?_ (by simp [World.become,
          SessionControl.send]) room le_rfl ?_
        · simpa [World.become, SessionControl.send, isOpen.opened] using isOpen.unclosed
        · simp [World.become, SessionControl.send, free]
        · simpa [World.become, SessionControl.send, spans] using spent
      · simp [World.value, World.become, SessionControl.send, SessionControl.activeSeconds, isOpen.unfinished, begun,
          unpaused, free]
  | paused isOpen started since begun paused busy room past spent =>
      refine .at_once ⟨counted, entered, left, ?_⟩ ?_ id
      · refine .paused ⟨isOpen.opened, ?_, isOpen.unfinished⟩ started since begun ?_ (by simp [World.become,
          SessionControl.send]) room past ?_
        · simpa [World.become, SessionControl.send, isOpen.opened] using isOpen.unclosed
        · simpa [World.become, SessionControl.send, busy] using paused
        · simpa [World.become, SessionControl.send, spans] using spent
      · simp [World.value, World.become, SessionControl.send, SessionControl.activeSeconds, isOpen.unfinished, begun,
          paused, busy]
  | closed _ shut => simp [shut] at opened

/-- The clock stands from an enter that fails without a pending request. -/
theorem Consistent.fail (consistent : Consistent w) (attached : w.control.attached = true)
    (opened : w.control.closed = false) (free : w.control.pending = 0) :
    Onward w (w.become ({ w.control with pausedSince := some w.now, closed := true }.send [.stop, .kill])) := by
  cases consistent.clock with
  | waiting _ unattached => simp [unattached] at attached
  | idle isOpen started begun unpaused free room spent =>
      have positive : 0 ≤ w.now - started - w.control.waitSeconds := by linarith
      refine .at_once ⟨consistent.counted, consistent.entered, consistent.left, ?_⟩ ?_ fun _ => rfl
      · refine .closed w.now rfl ?_ le_rfl (fun time => ?_) (fun _ => free) ?_
        · simp [World.become, SessionControl.send, isOpen.unclosed]
        · simp [World.value, World.become, SessionControl.send, SessionControl.activeSeconds, isOpen.unfinished]
        · simp only [ActiveTime, World.become, SessionControl.send, begun, World.value, SessionControl.activeSeconds,
            isOpen.unfinished, Option.getD_some, max_eq_right positive, World.horizon, isOpen.unclosed, ite_true,
            Option.getD_none, spent]
          push_cast
          ring
      · simp [World.value, World.become, SessionControl.send, SessionControl.activeSeconds, isOpen.unfinished, begun,
          unpaused]
  | paused _ _ _ _ _ busy => exact absurd free busy
  | closed _ shut => simp [shut] at opened

/-- The pause ends with the last request that is left. -/
theorem Consistent.left_now (consistent : Consistent w) {request : Nat} {entered : ℚ}
    (found : w.requests[request]? = some (entered, none)) :
    Onward w ({ w with requests := w.requests.set request (entered, some w.now) }.become (w.control.left w.now)) := by
  obtain ⟨inside, here⟩ := List.getElem?_eq_some_iff.mp found
  have counted : w.control.pending - 1 =
      (w.requests.set request (entered, some w.now)).countP fun request => request.2.isNone := by
    rw [consistent.counted, List.countP_set inside]
    simp [here]
  have entries : ∀ entry ∈ w.requests.set request (entered, some w.now),
      entry ∈ w.requests ∨ entry = (entered, some w.now) := fun _ => List.mem_or_eq_of_mem_set
  have before : ∀ entry ∈ w.requests.set request (entered, some w.now), entry.1 ≤ w.now := by
    intro entry member
    rcases entries entry member with old | rfl
    · exact consistent.entered entry old
    · exact consistent.entered (entered, none) (List.mem_of_getElem? found)
  have ended : ∀ entry ∈ w.requests.set request (entered, some w.now), ∀ left ∈ entry.2, left ≤ w.now := by
    intro entry member
    rcases entries entry member with old | rfl
    · exact consistent.left entry old
    · simp
  have same : (w.control.left w.now).pending = w.control.pending - 1 := by
    simp only [SessionControl.left]
    split <;> rfl
  have pending : w.control.pending ≠ 0 := by
    rw [consistent.counted]
    exact (List.countP_pos_iff.mpr ⟨_, List.mem_of_getElem? found, rfl⟩).ne'
  have spans (horizon : ℚ) (past : horizon ≤ w.now) :
      occupied (w.requests.set request (entered, some w.now)) horizon = occupied w.requests horizon :=
    occupied_ended found past
  cases consistent.clock with
  | waiting _ _ _ _ free => exact absurd free pending
  | idle _ _ _ _ free => exact absurd free pending
  | paused isOpen started since begun paused busy room past spent =>
      have room' : started + (w.control.waitSeconds + (w.now - since)) ≤ w.now := by linarith
      by_cases last : w.control.pending - 1 = 0
      · have resumed : w.control.left w.now = { w.control with
            pending := w.control.pending - 1
            waitSeconds := w.control.waitSeconds + (w.now - since)
            pausedSince := none } := by
          simp [SessionControl.left, last, paused]
        rw [resumed]
        refine .at_once ⟨counted, before, ended, ?_⟩ ?_ id
        · refine .idle ⟨isOpen.opened, ?_, isOpen.unfinished⟩ started begun rfl last room' ?_
          · simpa [World.become, isOpen.opened] using isOpen.unclosed
          · simpa [World.become, spans] using spent
        · have regroup : w.now - started - (w.control.waitSeconds + (w.now - since)) =
              since - started - w.control.waitSeconds := by ring
          simp [World.value, World.become, SessionControl.activeSeconds, isOpen.unfinished, begun, paused, regroup]
      · have waits : w.control.left w.now = { w.control with pending := w.control.pending - 1 } := by
          simp [SessionControl.left, last]
        rw [waits]
        refine .at_once ⟨counted, before, ended, ?_⟩ rfl id
        refine .paused ⟨isOpen.opened, ?_, isOpen.unfinished⟩ started since begun paused last room past ?_
        · simpa [World.become, isOpen.opened] using isOpen.unclosed
        · simpa [World.become, spans] using spent
  | closed horizon shut at_end past fixed quiet accounted =>
      have finished : w.control.finishedActiveSeconds ≠ none := fun unfinished => pending (quiet unfinished)
      have kept : (w.control.left w.now).finishedActiveSeconds = w.control.finishedActiveSeconds ∧
          (w.control.left w.now).closed = w.control.closed ∧
          (w.control.left w.now).started = w.control.started := by
        simp only [SessionControl.left]
        split <;> exact ⟨rfl, rfl, rfl⟩
      obtain ⟨seconds, final⟩ := Option.ne_none_iff_exists'.mp finished
      have value (time : ℚ) : (w.control.left w.now).activeSeconds time = w.value := by
        simp [World.value, SessionControl.activeSeconds, kept.1, final]
      refine .at_once ⟨same.trans counted, before, ended, ?_⟩ (value _) (fun _ => kept.2.1.trans shut)
      refine .closed horizon (kept.2.1.trans shut) ?_ past (fun time => (value time).trans (value _).symm) ?_ ?_
      · simp [World.become, kept.2.1, shut, at_end]
      · intro unfinished
        exact absurd (kept.1.symm.trans unfinished) finished
      · have now : World.value ({ w with
            requests := w.requests.set request (entered, some w.now) }.become (w.control.left w.now)) = w.value :=
          value _
        rw [ActiveTime, ← now] at accounted
        simpa [ActiveTime, World.horizon, World.become, kept.2.1, kept.2.2, shut, at_end, spans horizon past] using
          accounted

theorem Consistent.closed_at (consistent : Consistent w) (closed : w.control.closed = true) :
    ∃ ended, w.closedAt = some ended := by
  cases consistent.clock with
  | waiting isOpen => simp [isOpen.opened] at closed
  | idle isOpen => simp [isOpen.opened] at closed
  | paused isOpen => simp [isOpen.opened] at closed
  | closed ended _ at_end => exact ⟨ended, at_end⟩

theorem Consistent.leave (consistent : Consistent w) {request : Nat} {entered : ℚ}
    (found : w.requests[request]? = some (entered, none)) {fails : Option ℚ} (later : w.now ≤ fails.getD w.now) :
    Onward w ({ w with
      requests := w.requests.set request (entered, some w.now)
      now := fails.getD w.now }.become (w.control.leave w.now fails)) := by
  have left := consistent.left_now found
  simp only [SessionControl.leave]
  by_cases goes : (w.control.left w.now).pending = 0 ∧ (w.control.left w.now).closed = false
  · simp only [goes, and_self, ite_true]
    cases fails with
    | none => exact left.trans (left.consistent.send [.resume])
    | some time =>
        -- the processes are killed after the signal, when the clock reads a later time
        have ticked := left.trans (left.consistent.onward_tick later)
        have signalled := ticked.trans (ticked.consistent.send [.resume])
        have killed := signalled.trans signalled.consistent.kill
        simpa [World.become, goes.2] using killed
  · simp only [goes, ite_false]
    have ticked := left.trans (left.consistent.onward_tick later)
    cases closed : (w.control.left w.now).closed with
    | false => simpa [World.become, closed] using ticked
    | true =>
        have shut : w.control.closed = true := by
          rw [SessionControl.left] at closed
          split at closed <;> exact closed
        obtain ⟨ended, at_end⟩ := consistent.closed_at shut
        simpa [World.become, closed, at_end] using ticked

/-- What one event does, where it is orderly. -/
theorem Consistent.happen (consistent : Consistent w) {event : Event} (orderly : Orderly w event)
    (happened : Session.happen w event = some w') : Onward w w' := by
  cases event with
  | attach fails =>
      simp only [Session.happen, Option.ite_none_right_eq_some, Option.some.injEq] at happened
      obtain ⟨unstarted, rfl⟩ := happened
      exact consistent.attach unstarted fails
  | enter fails =>
      simp only [Session.happen, SessionControl.enter, Option.ite_none_right_eq_some] at happened
      obtain ⟨waited, entered⟩ := happened
      cases closed : w.control.closed with
      | true =>
          simp only [closed, ite_true, Option.some.injEq] at entered
          exact entered ▸ .refl consistent
      | false =>
          have attached : w.control.attached = true := by simpa [closed] using waited
          cases fails with
          | true =>
              have free : w.control.pending = 0 := orderly rfl
              have failed := consistent.fail attached closed free
              simp only [closed, free, ite_true, Bool.false_eq_true, ite_false, Option.some.injEq] at entered
              rw [← free] at entered
              exact entered ▸ failed
          | false =>
              simp only [closed, Bool.false_eq_true, ite_false, Option.some.injEq] at entered
              rw [← closed] at entered
              exact entered ▸ consistent.enter attached closed
  | leave request fails =>
      simp only [Session.happen] at happened
      split at happened
      · rename_i entered found
        simp only [Option.ite_none_right_eq_some, Option.some.injEq] at happened
        obtain ⟨later, rfl⟩ := happened
        exact consistent.leave found later
      · simp at happened
  | close =>
      simp only [Session.happen, Option.some.injEq] at happened
      exact happened ▸ consistent.close
  | kill =>
      simp only [Session.happen, Option.some.injEq] at happened
      exact happened ▸ consistent.kill
  | poll =>
      simp only [Session.happen, Option.some.injEq, SessionControl.poll] at happened
      split at happened
      · have sent := consistent.send [.stop]
        rw [← sent.consistent.become_self] at sent
        exact happened ▸ sent
      · rw [consistent.become_self] at happened
        exact happened ▸ .refl consistent
  | read =>
      simp only [Session.happen, Option.some.injEq] at happened
      exact happened ▸ .refl consistent

theorem Consistent.step (consistent : Consistent w) {time : ℚ} {event : Event} (orderly : Orderly w event)
    (taken : Session.step w time event = some w') : Onward w w' := by
  simp only [Session.step, Option.ite_none_right_eq_some] at taken
  obtain ⟨after, happened⟩ := taken
  have ticked := consistent.onward_tick after
  have orderly : Orderly { w with now := time } event := by cases event <;> exact orderly
  exact ticked.trans (ticked.consistent.happen orderly happened)

theorem Consistent.run (consistent : Consistent w) (runs : Relation.ReflTransGen HappensOrderly w w') :
    Onward w w' := by
  induction runs with
  | refl => exact .refl consistent
  | tail _ taken ih =>
      obtain ⟨time, event, orderly, taken⟩ := taken
      exact ih.trans (ih.consistent.step orderly taken)

theorem consistent_of_reachable (reached : Reachable Fresh HappensOrderly w) : Consistent w := by
  refine reached.invariant (fun _ fresh => ?_) fun s s' consistent taken => ?_
  · obtain ⟨now, rfl⟩ := fresh
    exact .new now
  · obtain ⟨time, event, orderly, taken⟩ := taken
    exact (consistent.step orderly taken).consistent

/-! ### Signals -/

/-- The signals that a step sends. -/
def World.sent (w w' : World) : List Signal := w'.control.signals.drop w.control.signals.length

/-- The signal to go on is sent by the exit of the last request, where the session is open. -/
theorem resume_of_step (consistent : Consistent w) {time : ℚ} {event : Event}
    (taken : Session.step w time event = some w') (resumed : Signal.resume ∈ w.sent w') :
    w.control.closed = false ∧ ∀ request ∈ w'.requests, request.2 ≠ none := by
  simp only [Session.step, Option.ite_none_right_eq_some] at taken
  obtain ⟨after, happened⟩ := taken
  have ticked := (consistent.onward_tick after).consistent
  cases event with
  | attach fails =>
      simp only [happen, Option.ite_none_right_eq_some, Option.some.injEq, SessionControl.attach] at happened
      obtain ⟨-, rfl⟩ := happened
      split at resumed <;> simp [World.sent, World.become] at resumed
  | enter fails =>
      simp only [happen, SessionControl.enter, Option.ite_none_right_eq_some] at happened
      obtain ⟨-, entered⟩ := happened
      cases fails <;> cases closed : w.control.closed <;>
        simp only [closed, ite_true, Bool.false_eq_true, ite_false, Option.some.injEq] at entered <;>
        subst entered <;> simp [World.sent, World.become, SessionControl.send] at resumed
  | leave request fails =>
      simp only [happen] at happened
      split at happened
      · rename_i entered found
        simp only [Option.ite_none_right_eq_some, Option.some.injEq] at happened
        obtain ⟨-, rfl⟩ := happened
        have left := (ticked.left_now found).consistent
        by_cases goes : (w.control.left time).pending = 0 ∧ (w.control.left time).closed = false
        · have opened : w.control.closed = false := by
            have closed := goes.2
            rw [SessionControl.left] at closed
            split at closed <;> exact closed
          refine ⟨opened, fun entry member unended => ?_⟩
          obtain ⟨ended, is, -⟩ := left.all_left goes.1 entry member
          simp [unended] at is
        · have silent : (w.control.left time).signals = w.control.signals := by
            rw [SessionControl.left]
            split <;> rfl
          simp only [SessionControl.leave, goes, ite_false] at resumed
          simp [World.sent, World.become, silent] at resumed
      · simp at happened
  | close =>
      simp only [happen, Option.some.injEq] at happened
      subst happened
      simp [World.sent, World.become, SessionControl.close] at resumed
  | kill =>
      simp only [happen, Option.some.injEq, SessionControl.kill] at happened
      subst happened
      split at resumed <;> simp [World.sent, World.become, SessionControl.close, SessionControl.send] at resumed
  | poll =>
      simp only [happen, Option.some.injEq, SessionControl.poll] at happened
      subst happened
      split at resumed <;> simp [World.sent, World.become, SessionControl.send] at resumed
  | read =>
      simp only [happen, Option.some.injEq] at happened
      subst happened
      simp [World.sent] at resumed

/-! ### Every run -/

/-- In every run in which no enter fails while another request is pending, the active seconds are the elapsed
time without the time while a request was pending; they never go back and stand still after a close; and the
signal to go on is sent only where no request is pending and the session is open. -/
theorem active_seconds_exclude_requests (reached : Reachable Fresh HappensOrderly w) :
    ActiveTime w ∧
    (∀ w', Relation.ReflTransGen HappensOrderly w w' →
      w.value ≤ w'.value ∧ (w.control.closed = true → w'.value = w.value)) ∧
    (∀ time event w', step w time event = some w' → Signal.resume ∈ w.sent w' →
      w.control.closed = false ∧ ∀ request ∈ w'.requests, request.2 ≠ none) := by
  have consistent := consistent_of_reachable reached
  refine ⟨consistent.active, fun w' runs => ?_, fun time event w' taken resumed => ?_⟩
  · have onward := consistent.run runs
    exact ⟨onward.grows, fun closed => (onward.frozen closed).2⟩
  · exact resume_of_step consistent taken resumed

/-- Events at their times, one after the other. -/
def run (w : World) (events : List (ℚ × Event)) : Option World :=
  events.foldlM (fun w event => step w event.1 event.2) w

theorem happens_of_run {events : List (ℚ × Event)} (ran : run w events = some w') :
    Relation.ReflTransGen Happens w w' := by
  induction events generalizing w with
  | nil =>
      simp only [run, List.foldlM_nil, Option.pure_def, Option.some.injEq] at ran
      exact ran ▸ .refl
  | cons event events ih =>
      simp only [run, List.foldlM_cons, Option.bind_eq_bind, Option.bind_eq_some_iff] at ran
      obtain ⟨middle, taken, rest⟩ := ran
      exact .head ⟨_, _, taken⟩ (ih rest)

/-- A run in which no enter fails is orderly. -/
theorem orderly_of_run {events : List (ℚ × Event)} (enters : ∀ event ∈ events, event.2 ≠ .enter true)
    (ran : run w events = some w') : Relation.ReflTransGen HappensOrderly w w' := by
  induction events generalizing w with
  | nil =>
      simp only [run, List.foldlM_nil, Option.pure_def, Option.some.injEq] at ran
      exact ran ▸ .refl
  | cons event events ih =>
      simp only [run, List.foldlM_cons, Option.bind_eq_bind, Option.bind_eq_some_iff] at ran
      obtain ⟨middle, taken, rest⟩ := ran
      have orderly : Orderly w event.2 := by
        have entered := enters event List.mem_cons_self
        cases kind : event.2 with
        | enter fails =>
            intro failed
            rw [kind, failed] at entered
            exact absurd rfl entered
        | _ => trivial
      exact .head ⟨_, _, orderly, taken⟩ (ih (fun later member => enters later (List.mem_cons_of_mem _ member)) rest)

/-- Two requests that overlap, from 1 to 3 and from 2 to 5, in a session from 0 to 6. -/
theorem overlapping_requests : ∃ w, run (.new 0) [(0, .attach false), (1, .enter false), (2, .enter false),
      (3, .leave 0 none), (5, .leave 1 none), (6, .close), (9, .read)] = some w ∧
    w.value = 2 ∧ ActiveTime w := by
  have ran : ∃ w, run (.new 0) [(0, .attach false), (1, .enter false), (2, .enter false),
      (3, .leave 0 none), (5, .leave 1 none), (6, .close), (9, .read)] = some w ∧ w.value = 2 :=
    ⟨_, rfl, by decide +kernel⟩
  obtain ⟨w, ran, value⟩ := ran
  have reached : Reachable Fresh HappensOrderly w := .run (.initial ⟨0, rfl⟩) (orderly_of_run (by decide) ran)
  exact ⟨w, ran, value, (active_seconds_exclude_requests reached).1⟩

/-- A request whose enter fails while another one is pending closes the session, and its clock goes on: from 1 to 2
between the times 2 and 4. -/
theorem failed_enter_keeps_the_clock : ¬ ∀ w, Reachable Fresh Happens w →
    ∀ w', Relation.ReflTransGen Happens w w' → w.control.closed = true → w'.value = w.value := by
  intro claim
  have first : ∃ w, run (.new 0) [(0, .attach false), (1, .enter false), (2, .enter true)] = some w ∧
      w.control.closed = true ∧ w.value = 1 ∧
      ∃ w', run w [(3, .leave 0 none), (4, .read)] = some w' ∧ w'.value = 2 :=
    ⟨_, rfl, rfl, by decide +kernel, _, rfl, by decide +kernel⟩
  obtain ⟨w, before, closed, one, w', after, two⟩ := first
  have same := claim w (.run (.initial ⟨0, rfl⟩) (happens_of_run before)) w' (happens_of_run after) closed
  rw [one, two] at same
  exact absurd same (by decide)

end AtrexAgent.Session
