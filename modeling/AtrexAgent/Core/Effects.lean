import AtrexAgent.Library.Reentry
import AtrexAgent.Library.Transition

/-! The effect stack of one fiber. A dispose callback may call the stack it is disposed by,
so it is a program over the operations of the stack. -/

namespace AtrexAgent.Effects

open AtrexAgent.Computation
open AtrexAgent.Computation.Comp
open AtrexAgent.Interaction
open AtrexAgent.Reentry
open AtrexAgent.Transition

inductive Exc where
  /-- A cleanup that is asynchronous. -/
  | typeError
  | raised (isException : Bool) (tag : Nat)
  | disposalErrors (failures : List (String × Exc))

def Exc.isException : Exc → Bool
  | .raised isException _ => isException
  | _ => true

/-- A `BaseException` that is no `Exception`. -/
def Exc.Bare (error : Exc) : Prop := error.isException = false

instance (error : Exc) : Decidable error.Bare := inferInstanceAs (Decidable (_ = _))

structure Effect where
  dispose : Nat
  label : String
  owner : String
  disposed : Bool
  deriving DecidableEq, Repr

/-- What happened. A filed effect is known by its identity, and each call of `unwind` by its
number. -/
inductive Event where
  | filed (id : Nat)
  /-- The callback of a filed effect starts, called by the loop of an unwind or by its disposer. -/
  | invoked (id : Nat) (loop : Option Nat)
  /-- A callback that is added amid an unwind starts. -/
  | ran (dispose : Nat)
  | threw (error : Exc)
  | began (loop : Nat)
  /-- What a callback of the loop came to. -/
  | came (loop : Nat) (label : String) (outcome : Option Exc)
  | ended (loop : Nat) (left : List Nat) (outcome : Option Exc)

/-- `effects` refers to the effects by identity, the last one filed first. The last three
fields are history variables, and `log` has its last event first. -/
structure Stack where
  owner : String
  heap : Nat → Option Effect
  effects : List Nat
  unwinding : Bool
  made : Nat
  calls : Nat
  unwinds : Nat
  log : List Event

def Stack.new (owner : String) : Stack where
  owner := owner
  heap := fun _ => none
  effects := []
  unwinding := false
  made := 0
  calls := 0
  unwinds := 0
  log := []

abbrev M := Comp Stack Exc

/-- The disposer that `add` returned for the effect `id` is called by `dispose id`. No effect
is known by zero, which stands for `_noop`. -/
inductive Op where
  | add (dispose : Nat) (label : String)
  | dispose (id : Nat)
  | unwind
  deriving DecidableEq, Repr

/-- The callbacks, which may act differently each time. -/
structure Code where
  async : Nat → Bool
  body : Nat → Nat → Callback Op Nat Exc Unit

inductive Call where
  | op (o : Op)
  | unwindLoop (loop : Nat) (failures : List (String × Exc)) (abort : Option Exc)

namespace Stack

def record (s : Stack) (event : Event) : Stack := { s with log := event :: s.log }

def filed (s : Stack) (dispose : Nat) (label : String) : Stack :=
  { s with
    heap := fun u => if u = s.made + 1
      then some ⟨dispose, if label = "" then "effect" else label, s.owner, false⟩ else s.heap u
    effects := (s.made + 1) :: s.effects
    made := s.made + 1
    log := .filed (s.made + 1) :: s.log }

def markDisposed (s : Stack) (id : Nat) : Stack :=
  { s with heap := fun u => if u = id
      then (s.heap u).map fun effect => { effect with disposed := true } else s.heap u }

end Stack

section Procedures

variable (code : Code) (call : Call → M Nat)

def requireSync (dispose : Nat) : M Unit :=
  if code.async dispose then raise .typeError else pure ()

/-- `call_sync`, which notes the start of the callback as `event`. -/
def callSync (dispose : Nat) (event : Event) : M Unit := do
  requireSync code dispose
  let s ← get
  modify fun s => { s.record event with calls := s.calls + 1 }
  match ← attempt (play (fun o => call (.op o)) (code.body dispose s.calls)) with
  | .ok _ => pure ()
  | .error error => do
      modify fun s => s.record (.threw error)
      raise error

def add (dispose : Nat) (label : String) : M Nat := do
  requireSync code dispose
  let s ← get
  if s.unwinding then do
    callSync code call dispose (.ran dispose)
    pure 0
  else do
    modify fun s => s.filed dispose label
    pure (s.made + 1)

/-- The disposer of one effect. -/
def dispose (id : Nat) : M Unit := do
  let s ← get
  match s.heap id with
  | none => pure ()
  | some effect =>
      if effect.disposed then pure ()
      else do
        modify fun s => { s.markDisposed id with effects := s.effects.erase id }
        callSync code call effect.dispose (.invoked id none)

/-- What an unwind raises in the end. -/
def verdict (failures : List (String × Exc)) (abort : Option Exc) : Option Exc :=
  match abort with
  | some error => some error
  | none => if failures = [] then none else some (.disposalErrors failures)

def unwindLoop (loop : Nat) (failures : List (String × Exc)) (abort : Option Exc) : M Unit := do
  let again (failures : List (String × Exc)) (abort : Option Exc) : M Unit := do
    let _ ← call (.unwindLoop loop failures abort)
    pure ()
  let s ← get
  match s.effects with
  | id :: rest => do
      modify fun s => { s with effects := rest }
      match s.heap id with
      | none => again failures abort
      | some effect =>
          if effect.disposed then again failures abort
          else do
            modify fun s => s.markDisposed id
            let label := effect.owner ++ ":" ++ effect.label
            match ← attempt (callSync code call effect.dispose (.invoked id (some loop))) with
            | .ok _ => do
                modify fun s => s.record (.came loop label none)
                again failures abort
            | .error error => do
                modify fun s => s.record (.came loop label (some error))
                if error.isException then again (failures ++ [(label, error)]) abort
                else again failures (abort <|> some error)
  | [] => do
      modify fun s => { s.record (.ended loop s.effects (verdict failures abort)) with
        unwinding := false }
      match verdict failures abort with
      | some error => raise error
      | none => pure ()

def unwind : M Unit := do
  let s ← get
  modify fun s => { s.record (.began (s.unwinds + 1)) with
    unwinding := true, unwinds := s.unwinds + 1 }
  let _ ← call (.unwindLoop (s.unwinds + 1) [] none)
  pure ()

def step : Call → M Nat
  | .op (.add dispose label) => add code call dispose label
  | .op (.dispose id) => do dispose code call id; pure 0
  | .op .unwind => do unwind call; pure 0
  | .unwindLoop loop failures abort => do unwindLoop code call loop failures abort; pure 0

end Procedures

def exec (code : Code) : Nat → Call → M Nat
  | 0, _ => diverge
  | fuel + 1, c => step code (exec code fuel) c

/-- Whoever holds the stack calls its operations in any order. -/
def drive (code : Code) (fuel : Nat) (host : Callback Op Nat Exc Unit) : M Unit :=
  play (fun o => exec code fuel (.op o)) host

/-! ### What the log tells -/

def Event.invokes (id : Nat) : Event → Bool
  | .invoked id' _ => id' = id
  | _ => false

def Event.outcomeIn (loop : Nat) : Event → Option (String × Option Exc)
  | .came loop' label outcome => if loop' = loop then some (label, outcome) else none
  | _ => none

/-- What the callbacks of one loop came to, the first one first. -/
def outcomes (loop : Nat) (log : List Event) : List (String × Option Exc) :=
  (log.filterMap (Event.outcomeIn loop)).reverse

def failuresOf (outcomes : List (String × Option Exc)) : List (String × Exc) :=
  outcomes.filterMap fun (label, outcome) =>
    outcome.bind fun error => if error.isException then some (label, error) else none

/-- The first bare `BaseException`. -/
def abortOf (outcomes : List (String × Option Exc)) : Option Exc :=
  outcomes.findSome? fun (_, outcome) =>
    outcome.bind fun error => if error.isException then none else some error

/-- What was true when an event happened, of the events before it. -/
def law (before : List Event) : Event → Prop
  | .began loop => .began loop ∉ before
  | .invoked id (some _) => ∀ later earlier, before = later ++ .filed id :: earlier →
      ∀ id', .filed id' ∈ later → ∃ loop, .invoked id' loop ∈ before
  | .ended loop left outcome => left = [] ∧
      (∀ id, .filed id ∈ before → before.countP (Event.invokes id) = 1) ∧
      outcome = verdict (failuresOf (outcomes loop before)) (abortOf (outcomes loop before))
  | _ => True

theorem outcomes_cons_other (loop : Nat) (event : Event) (log : List Event)
    (other : event.outcomeIn loop = none) : outcomes loop (event :: log) = outcomes loop log := by
  unfold outcomes
  rw [List.filterMap_cons_none other]

theorem outcomes_came (loop : Nat) (label : String) (outcome : Option Exc) (log : List Event) :
    outcomes loop (.came loop label outcome :: log) = outcomes loop log ++ [(label, outcome)] := by
  unfold outcomes
  rw [List.filterMap_cons_some (b := (label, outcome)) (by simp [Event.outcomeIn]), List.reverse_cons]

theorem failuresOf_append (first second : List (String × Option Exc)) :
    failuresOf (first ++ second) = failuresOf first ++ failuresOf second := List.filterMap_append

theorem abortOf_append (first second : List (String × Option Exc)) :
    abortOf (first ++ second) = (abortOf first).or (abortOf second) := List.findSome?_append

/-! ### The invariant -/

structure Sound (code : Code) (s : Stack) : Prop where
  lawful : Lawful law s.log
  filed : ∀ id, .filed id ∈ s.log ↔ s.heap id ≠ none
  made : ∀ id, s.heap id ≠ none → id ≤ s.made
  ordered : ∀ later id earlier, s.log = later ++ .filed id :: earlier →
    ∀ id', .filed id' ∈ later → id < id'
  sorted : s.effects.Pairwise (· > ·)
  live : ∀ id effect, s.heap id = some effect → (effect.disposed = false ↔ id ∈ s.effects)
  listed : ∀ id ∈ s.effects, s.heap id ≠ none
  sync : ∀ id effect, s.heap id = some effect → code.async effect.dispose = false
  once : ∀ id, s.log.countP (Event.invokes id) = if (s.heap id).any (·.disposed) then 1 else 0
  began : ∀ loop, .began loop ∈ s.log → loop ≤ s.unwinds
  came : ∀ loop label outcome, .came loop label outcome ∈ s.log → loop ≤ s.unwinds

/-- The loops up to `known` are left alone. -/
structure Held (code : Code) (known : Nat) (old : List Event) (s : Stack) : Prop where
  sound : Sound code s
  reached : known ≤ s.unwinds
  kept : ∀ loop ≤ known, outcomes loop s.log = outcomes loop old

/-- A turn of a loop finds what its callbacks came to so far. -/
structure Turn (code : Code) (known : Nat) (old : List Event) (loop : Nat)
    (failures : List (String × Exc)) (abort : Option Exc) (s : Stack) : Prop
    extends Held code known old s where
  later : known < loop
  begun : loop ≤ s.unwinds
  failed : failuresOf (outcomes loop s.log) = failures
  aborted : abortOf (outcomes loop s.log) = abort

/-- The operations called by callbacks, and the next turn of a loop. -/
structure Calls (code : Code) (call : Call → M Nat) : Prop where
  op : ∀ known old o, Keeps (Held code known old) (fun _ => True) (Held code known old) (call (.op o))
  loop : ∀ known old loop failures abort, Triple (Turn code known old loop failures abort)
    (call (.unwindLoop loop failures abort)) (fun _ => Held code known old)
    (fun _ s => Held code known old s ∧ True) (Held code known old)

section Changes

variable {code : Code} {known : Nat} {old : List Event} {s : Stack}

/-- An event that is none of the stack's own. -/
def Event.Plain : Event → Prop
  | .threw _ => True
  | .ran _ => True
  | .came _ _ _ => True
  | .ended _ _ _ => True
  | _ => False

theorem sound_record (sound : Sound code s) (event : Event) (plain : event.Plain)
    (lawful : law s.log event)
    (early : ∀ loop label outcome, event = .came loop label outcome → loop ≤ s.unwinds) :
    Sound code (s.record event) where
  lawful := ⟨lawful, sound.lawful⟩
  filed := fun id => by
    refine Iff.trans ?_ (sound.filed id)
    cases event <;> simp [Stack.record, Event.Plain] at plain ⊢
  made := sound.made
  ordered := fun later id earlier split id' member => by
    cases later with
    | nil =>
        cases member
    | cons first rest =>
        obtain ⟨rfl, tail⟩ : event = first ∧ s.log = rest ++ .filed id :: earlier :=
          List.cons.inj split
        rcases List.mem_cons.mp member with rfl | member
        · exact plain.elim
        · exact sound.ordered rest id earlier tail id' member
  sorted := sound.sorted
  live := sound.live
  listed := sound.listed
  sync := sound.sync
  once := fun id => by
    refine Eq.trans ?_ (sound.once id)
    cases event <;> simp [Stack.record, Event.Plain, Event.invokes] at plain ⊢
  began := fun loop member => by
    rcases List.mem_cons.mp member with rfl | member
    · exact plain.elim
    · exact sound.began loop member
  came := fun loop label outcome member => by
    rcases List.mem_cons.mp member with rfl | member
    · exact early loop label outcome rfl
    · exact sound.came loop label outcome member

theorem held_record (held : Held code known old s) (event : Event) (plain : event.Plain)
    (lawful : law s.log event)
    (early : ∀ loop label outcome, event = .came loop label outcome →
      known < loop ∧ loop ≤ s.unwinds) : Held code known old (s.record event) where
  sound := sound_record held.sound event plain lawful fun loop label outcome same =>
    (early loop label outcome same).2
  reached := held.reached
  kept := fun loop below => by
    refine (outcomes_cons_other loop event s.log ?_).trans (held.kept loop below)
    cases event with
    | came loop' label outcome =>
        have apart := (early loop' label outcome rfl).1
        simp [Event.outcomeIn]
        omega
    | _ => rfl

/-- The callback of a live effect starts: of the last one filed, where a loop calls it. -/
theorem sound_invoke (sound : Sound code s) (id : Nat) (effect : Effect) (loop : Option Nat)
    (found : s.heap id = some effect) (live : effect.disposed = false)
    (last : loop ≠ none → ∃ rest, s.effects = id :: rest) :
    Sound code ({ s.markDisposed id with effects := s.effects.erase id }.record
      (.invoked id loop)) := by
  have member : id ∈ s.effects := (sound.live id effect found).mp live
  have nodup : s.effects.Nodup := sound.sorted.imp fun above => Nat.ne_of_gt above
  have marked (u : Nat) : (s.markDisposed id).heap u =
      if u = id then some { effect with disposed := true } else s.heap u := by
    unfold Stack.markDisposed
    dsimp only
    split
    · rename_i same
      rw [same, found]
      rfl
    · rfl
  have present (u : Nat) : (s.markDisposed id).heap u ≠ none ↔ s.heap u ≠ none := by
    rw [marked]
    split
    · rename_i same
      simp [same, found]
    · rfl
  constructor
  · refine ⟨?_, sound.lawful⟩
    cases loop with
    | none => trivial
    | some loop =>
        obtain ⟨rest, stack⟩ := last (by simp)
        intro later earlier split id' filedLater
        have split : s.log = later ++ .filed id :: earlier := split
        have above : id < id' := sound.ordered later id earlier split id' filedLater
        have known : s.heap id' ≠ none := by
          rw [← sound.filed id', split]
          exact List.mem_append_left _ filedLater
        obtain ⟨effect', found'⟩ := Option.ne_none_iff_exists'.mp known
        have gone : effect'.disposed = true := by
          by_contra still
          have inside := (sound.live id' effect' found').mp (by simpa using still)
          have sorted := sound.sorted
          rw [stack] at inside sorted
          rcases List.mem_cons.mp inside with same | inside
          · omega
          · have := (List.pairwise_cons.mp sorted).1 id' inside
            omega
        have count := sound.once id'
        rw [found'] at count
        simp only [Option.any_some, gone, if_true] at count
        obtain ⟨event, within, invokes⟩ := List.countP_pos_iff.mp (count ▸ Nat.zero_lt_one)
        cases event with
        | invoked u loop' =>
            have same : u = id' := of_decide_eq_true invokes
            exact ⟨loop', same ▸ within⟩
        | _ => cases invokes
  · intro u
    change Event.filed u ∈ Event.invoked id loop :: s.log ↔ (s.markDisposed id).heap u ≠ none
    rw [present, ← sound.filed u]
    simp
  · intro u some
    exact sound.made u ((present u).mp some)
  · intro later u earlier split id' filedLater
    cases later with
    | nil => cases filedLater
    | cons first rest =>
        obtain ⟨rfl, tail⟩ : Event.invoked id loop = first ∧ s.log = rest ++ .filed u :: earlier :=
          List.cons.inj split
        refine sound.ordered rest u earlier tail id' ?_
        simpa using filedLater
  · exact sound.sorted.sublist List.erase_sublist
  · intro u effect' at_
    change (s.markDisposed id).heap u = some effect' at at_
    rw [marked] at at_
    change effect'.disposed = false ↔ u ∈ s.effects.erase id
    rw [nodup.mem_erase_iff]
    split at at_
    · rename_i same
      cases at_
      simp [same]
    · rename_i other
      rw [sound.live u effect' at_]
      simp [other]
  · intro u inside
    exact (present u).mpr (sound.listed u (List.mem_of_mem_erase inside))
  · intro u effect' at_
    change (s.markDisposed id).heap u = some effect' at at_
    rw [marked] at at_
    split at at_
    · cases at_
      exact sound.sync id effect found
    · exact sound.sync u effect' at_
  · intro u
    have before := sound.once u
    change (Event.invoked id loop :: s.log).countP (Event.invokes u) =
      if ((s.markDisposed id).heap u).any (·.disposed) then 1 else 0
    rw [List.countP_cons, before, marked]
    by_cases same : u = id
    · subst same
      simp [found, live, Event.invokes]
    · have other : ¬ id = u := fun eq => same eq.symm
      simp [same, other, Event.invokes]
  · intro loop' within
    exact sound.began loop' (by simpa [Stack.record, Stack.markDisposed] using within)
  · intro loop' label outcome within
    exact sound.came loop' label outcome (by simpa [Stack.record, Stack.markDisposed] using within)

theorem sound_filed (sound : Sound code s) (dispose : Nat) (label : String)
    (sync : code.async dispose = false) : Sound code (s.filed dispose label) := by
  have unused : s.heap (s.made + 1) = none := by
    by_contra used
    have := sound.made _ used
    omega
  have unlisted : s.made + 1 ∉ s.effects := fun listed => sound.listed _ listed unused
  have below (u : Nat) (listed : u ∈ s.effects) : u ≤ s.made := sound.made u (sound.listed u listed)
  constructor
  · exact ⟨trivial, sound.lawful⟩
  · intro u
    change _ ∈ Event.filed (s.made + 1) :: s.log ↔ (if u = s.made + 1 then _ else s.heap u) ≠ none
    rw [List.mem_cons, sound.filed u]
    by_cases new : u = s.made + 1
    · simp [new]
    · simp [new]
  · intro u some
    change (if u = s.made + 1 then _ else s.heap u) ≠ none at some
    change u ≤ s.made + 1
    split at some
    · omega
    · exact Nat.le_succ_of_le (sound.made u some)
  · intro later u earlier split id' member
    cases later with
    | nil => cases member
    | cons first rest =>
        obtain ⟨rfl, tail⟩ : Event.filed (s.made + 1) = first ∧ s.log = rest ++ .filed u :: earlier :=
          List.cons.inj split
        have old : u ≤ s.made := sound.made u ((sound.filed u).mp (by rw [tail]; simp))
        rcases List.mem_cons.mp member with same | member
        · cases same
          omega
        · exact sound.ordered rest u earlier tail id' member
  · exact List.pairwise_cons.mpr ⟨fun u listed => Nat.lt_succ_of_le (below u listed), sound.sorted⟩
  · intro u effect found
    change (if u = s.made + 1 then _ else s.heap u) = some effect at found
    change effect.disposed = false ↔ u ∈ (s.made + 1) :: s.effects
    split at found
    · rename_i same
      cases found
      simp [same]
    · rename_i other
      rw [sound.live u effect found]
      simp [other]
  · intro u listed
    change (if u = s.made + 1 then _ else s.heap u) ≠ none
    rcases List.mem_cons.mp listed with rfl | listed
    · simp
    · split
      · simp
      · exact sound.listed u listed
  · intro u effect found
    change (if u = s.made + 1 then _ else s.heap u) = some effect at found
    split at found
    · cases found
      exact sync
    · exact sound.sync u effect found
  · intro u
    have before := sound.once u
    change (Event.filed (s.made + 1) :: s.log).countP (Event.invokes u) =
      if (if u = s.made + 1 then _ else s.heap u).any (·.disposed) then 1 else 0
    rw [List.countP_cons_of_neg (by simp [Event.invokes]), before]
    by_cases new : u = s.made + 1
    · simp [new, unused]
    · simp [new]
  · intro loop member
    exact sound.began loop (by simpa [Stack.filed] using member)
  · intro loop label outcome member
    exact sound.came loop label outcome (by simpa [Stack.filed] using member)

/-- All that was filed has been invoked once the stack is empty. -/
theorem sound_drained (sound : Sound code s) (empty : s.effects = []) (id : Nat)
    (filed : .filed id ∈ s.log) : s.log.countP (Event.invokes id) = 1 := by
  obtain ⟨effect, found⟩ := Option.ne_none_iff_exists'.mp ((sound.filed id).mp filed)
  have gone : effect.disposed = true := by
    by_contra still
    have inside := (sound.live id effect found).mp (by simpa using still)
    rw [empty] at inside
    cases inside
  rw [sound.once id, found]
  simp [gone]

end Changes

section Procedures

variable {code : Code} {call : Call → M Nat} {known : Nat} {old : List Event}

theorem triple_callSync (h : Calls code call) {P : Stack → Prop} (dispose : Nat) (event : Event)
    (sync : code.async dispose = false) (starts : ∀ s, P s → Held code known old (s.record event)) :
    Triple P (callSync code call dispose event) (fun _ => Held code known old)
      (fun _ s => Held code known old s ∧ True) (Held code known old) := by
  unfold callSync requireSync
  refine triple_bind (Q := fun _ => P) (triple_ite (fun wrong => ?_) fun _ =>
    triple_pure () fun _ given => given) fun _ => triple_get_bind fun s given => ?_
  · rw [sync] at wrong
    cases wrong
  refine triple_bind (Q := fun _ => Held code known old) (triple_modify _ ?_) fun _ => ?_
  · rintro t rfl
    have started := starts t given
    exact { started with sound := { started.sound with } }
  refine keeps_attempt_bind (keeps_play (h.op known old) _) (fun _ => keeps_pure ()) fun error _ => ?_
  refine keeps_bind (keeps_modify fun t held => ?_) fun _ => keeps_raise error trivial
  exact held_record held (.threw error) trivial trivial fun _ _ _ wrong => by cases wrong

theorem keeps_add (h : Calls code call) (dispose : Nat) (label : String) :
    Keeps (Held code known old) (fun _ => True) (Held code known old)
      (add code call dispose label) := by
  unfold add requireSync
  refine triple_bind (Q := fun _ s => Held code known old s ∧ code.async dispose = false)
    (triple_ite (fun _ => triple_raise _ fun s given => ⟨given, trivial⟩) fun sync =>
      triple_pure () fun s given => ?_)
    fun _ => triple_get_bind fun s given => ?_
  · exact ⟨given, Bool.eq_false_of_not_eq_true sync⟩
  refine triple_ite (fun _ => ?_) fun _ => ?_
  · refine triple_bind (triple_pre (fun t same => same ▸ given.1) (triple_callSync h dispose
      (.ran dispose) given.2 fun t held => ?_)) fun _ => triple_pure 0 fun _ held => held
    exact held_record held (.ran dispose) trivial trivial fun _ _ _ wrong => by cases wrong
  · refine triple_bind (Q := fun _ => Held code known old) (triple_modify _ ?_) fun _ =>
      triple_pure _ fun _ held => held
    rintro t rfl
    exact ⟨sound_filed given.1.sound dispose label given.2, given.1.reached, fun loop below =>
      (outcomes_cons_other loop _ t.log rfl).trans (given.1.kept loop below)⟩

theorem keeps_dispose (h : Calls code call) (id : Nat) :
    Keeps (Held code known old) (fun _ => True) (Held code known old) (dispose code call id) := by
  unfold dispose
  refine triple_get_bind fun s given => ?_
  cases found : s.heap id with
  | none => exact triple_pure () fun t same => same ▸ given
  | some effect =>
      refine triple_ite (fun _ => triple_pure () fun t same => same ▸ given) fun live => ?_
      refine triple_bind (Q := fun _ t => t = { s.markDisposed id with effects := s.effects.erase id })
        (triple_modify _ fun t same => by rw [same]) fun _ => ?_
      refine triple_callSync h effect.dispose (.invoked id none) (given.sound.sync id effect found) ?_
      rintro t rfl
      exact ⟨sound_invoke given.sound id effect none found (by simpa using live) fun wrong =>
        absurd rfl wrong, given.reached, fun loop below =>
          (outcomes_cons_other loop _ s.log rfl).trans (given.kept loop below)⟩

theorem verdict_of (loop : Nat) {failures : List (String × Exc)} {abort : Option Exc} {s : Stack}
    (turn : Turn code known old loop failures abort s) : verdict failures abort =
      verdict (failuresOf (outcomes loop s.log)) (abortOf (outcomes loop s.log)) := by
  rw [turn.failed, turn.aborted]

theorem held_outer {loop : Nat} {failures : List (String × Exc)} {abort : Option Exc} {s t : Stack}
    (turn : Turn code known old loop failures abort s) (held : Held code loop s.log t) :
    Held code known old t where
  sound := held.sound
  reached := Nat.le_trans (Nat.le_of_lt turn.later) held.reached
  kept := fun m below => (held.kept m (Nat.le_of_lt (Nat.lt_of_le_of_lt below turn.later))).trans
    (turn.kept m below)

/-- What came of one callback is added to what the next turn is given. -/
theorem turn_came {loop : Nat} {failures : List (String × Exc)} {abort : Option Exc} {s t : Stack}
    (turn : Turn code known old loop failures abort s) (held : Held code loop s.log t)
    (label : String) (outcome : Option Exc) :
    Turn code known old loop (failures ++ failuresOf [(label, outcome)])
      (abort.or (abortOf [(label, outcome)])) (t.record (.came loop label outcome)) := by
  have here : outcomes loop (t.record (.came loop label outcome)).log =
      outcomes loop s.log ++ [(label, outcome)] :=
    (outcomes_came loop label outcome t.log).trans
      (congrArg (· ++ [(label, outcome)]) (held.kept loop (Nat.le_refl loop)))
  refine ⟨held_record (held_outer turn held) _ trivial trivial fun m _ _ same => ?_, turn.later, held.reached, ?_, ?_⟩
  · cases same
    exact ⟨turn.later, held.reached⟩
  · rw [here, failuresOf_append, turn.failed]
  · rw [here, abortOf_append, turn.aborted]

theorem triple_again (h : Calls code call) (loop : Nat) (failures : List (String × Exc))
    (abort : Option Exc) : Triple (Turn code known old loop failures abort)
      (call (.unwindLoop loop failures abort) >>= fun _ => pure ()) (fun _ => Held code known old)
      (fun _ s => Held code known old s ∧ True) (Held code known old) :=
  triple_bind (h.loop known old loop failures abort) fun _ => triple_pure () fun _ held => held

theorem triple_unwindLoop (h : Calls code call) (loop : Nat) (failures : List (String × Exc))
    (abort : Option Exc) : Triple (Turn code known old loop failures abort)
      (unwindLoop code call loop failures abort) (fun _ => Held code known old)
      (fun _ s => Held code known old s ∧ True) (Held code known old) := by
  unfold unwindLoop
  dsimp only
  refine triple_get_bind fun s turn => ?_
  cases stack : s.effects with
  | nil =>
      refine triple_bind (Q := fun _ => Held code known old) (triple_modify _ ?_) fun _ => ?_
      · rintro t rfl
        have ended : Held code known old (t.record (.ended loop t.effects (verdict failures abort))) := by
          refine held_record turn.toHeld _ trivial ⟨stack, fun id filed => ?_, verdict_of loop turn⟩
            fun _ _ _ wrong => by cases wrong
          exact sound_drained turn.sound stack id filed
        exact { ended with sound := { ended.sound with } }
      · cases verdict failures abort with
        | none => exact keeps_pure ()
        | some error => exact keeps_raise error trivial
  | cons id rest =>
      obtain ⟨effect, found⟩ := Option.ne_none_iff_exists'.mp
        (turn.sound.listed id (by rw [stack]; exact List.mem_cons_self))
      have live : effect.disposed = false :=
        (turn.sound.live id effect found).mpr (by rw [stack]; exact List.mem_cons_self)
      have erased : s.effects.erase id = rest := by
        rw [stack, List.erase_cons_head]
      refine triple_bind (Q := fun _ t => t = { s with effects := rest })
        (triple_modify _ fun t same => by rw [same]) fun _ => ?_
      simp only [found, live, Bool.false_eq_true, if_false]
      refine triple_bind (Q := fun _ t => t = { s.markDisposed id with effects := s.effects.erase id })
        (triple_modify _ fun t same => by rw [same, erased]; rfl) fun _ => ?_
      -- the callback may do anything but add to what came of this loop
      refine triple_bind (Q := fun _ => Held code loop s.log) (triple_attempt (triple_stop
        (triple_post (triple_callSync h effect.dispose (.invoked id (some loop))
          (turn.sound.sync id effect found) ?_) (fun _ _ held => held) fun _ _ held => held.1)
        fun t held => held_outer turn held)) fun result => ?_
      · rintro t rfl
        exact ⟨sound_invoke turn.sound id effect (some loop) found live fun _ => ⟨rest, stack⟩,
          turn.begun, fun m _ => outcomes_cons_other m _ s.log rfl⟩
      have came (outcome : Option Exc) {next : M Unit} (rest : Triple (Turn code known old loop
          (failures ++ failuresOf [(effect.owner ++ ":" ++ effect.label, outcome)])
          (abort.or (abortOf [(effect.owner ++ ":" ++ effect.label, outcome)]))) next
          (fun _ => Held code known old) (fun _ s => Held code known old s ∧ True)
          (Held code known old)) : Triple (Held code loop s.log)
          (Comp.modify (fun t => t.record (.came loop (effect.owner ++ ":" ++ effect.label) outcome))
            >>= fun _ => next) (fun _ => Held code known old)
          (fun _ s => Held code known old s ∧ True) (Held code known old) :=
        triple_bind (triple_modify _ fun t held => turn_came turn held _ outcome) fun _ => rest
      cases result with
      | ok _ =>
          refine came none ?_
          simpa [failuresOf, abortOf] using triple_again h loop failures abort
      | error error =>
          refine came (some error) (triple_ite (fun caught => ?_) fun bare => ?_)
          · simpa [failuresOf, abortOf, caught] using triple_again h loop
              (failures ++ [(effect.owner ++ ":" ++ effect.label, error)]) abort
          · simpa [failuresOf, abortOf, bare] using triple_again h loop failures
              (abort.or (some error))

/-- The turn that an unwind starts with. -/
theorem turn_began {s : Stack} (held : Held code known old s) :
    Turn code known old (s.unwinds + 1) [] none { s.record (.began (s.unwinds + 1)) with
      unwinding := true, unwinds := s.unwinds + 1 } := by
  have sound := held.sound
  have silent : outcomes (s.unwinds + 1) s.log = [] := by
    have nothing : s.log.filterMap (Event.outcomeIn (s.unwinds + 1)) = [] := by
      refine List.filterMap_eq_nil_iff.mpr fun event member => ?_
      cases event with
      | came loop label outcome =>
          have := sound.came loop label outcome member
          exact if_neg (by omega)
      | _ => rfl
    rw [outcomes, nothing]
    rfl
  have started : outcomes (s.unwinds + 1) (.began (s.unwinds + 1) :: s.log) = [] :=
    (outcomes_cons_other _ _ s.log rfl).trans silent
  refine ⟨⟨?_, Nat.le_succ_of_le held.reached, fun m below => ?_⟩, Nat.lt_succ_of_le held.reached,
    Nat.le_refl _, congrArg failuresOf started, congrArg abortOf started⟩
  · constructor
    · refine ⟨fun again => ?_, sound.lawful⟩
      have := sound.began _ again
      omega
    · exact fun id => Iff.trans (by simp [Stack.record]) (sound.filed id)
    · exact sound.made
    · intro later id earlier split id' member
      cases later with
      | nil => cases member
      | cons first rest =>
          obtain ⟨rfl, tail⟩ : Event.began (s.unwinds + 1) = first ∧
              s.log = rest ++ .filed id :: earlier := List.cons.inj split
          exact sound.ordered rest id earlier tail id' (by simpa using member)
    · exact sound.sorted
    · exact sound.live
    · exact sound.listed
    · exact sound.sync
    · exact fun id => Eq.trans (by simp [Stack.record, Event.invokes]) (sound.once id)
    · intro loop member
      rcases List.mem_cons.mp member with same | member
      · cases same
        exact Nat.le_refl _
      · exact Nat.le_succ_of_le (sound.began loop member)
    · intro loop label outcome member
      exact Nat.le_succ_of_le (sound.came loop label outcome (by simpa [Stack.record] using member))
  · exact (outcomes_cons_other m _ s.log rfl).trans (held.kept m below)

theorem keeps_unwind (h : Calls code call) :
    Keeps (Held code known old) (fun _ => True) (Held code known old) (unwind call) := by
  unfold unwind
  refine triple_get_bind fun s held => triple_bind
    (Q := fun _ => Turn code known old (s.unwinds + 1) [] none) (triple_modify _ ?_) fun _ =>
      triple_again h (s.unwinds + 1) [] none
  rintro t rfl
  exact turn_began held

theorem calls_step (h : Calls code call) : Calls code (step code call) where
  op := fun known old o => by
    cases o with
    | add dispose label => exact keeps_add h dispose label
    | dispose id => exact keeps_bind (keeps_dispose h id) fun _ => keeps_pure 0
    | unwind => exact keeps_bind (keeps_unwind h) fun _ => keeps_pure 0
  loop := fun known old loop failures abort =>
    triple_bind (triple_unwindLoop h loop failures abort) fun _ => triple_pure 0 fun _ held => held

end Procedures

theorem exec_calls (code : Code) (fuel : Nat) : Calls code (exec code fuel) := by
  induction fuel with
  | zero => exact ⟨fun _ _ _ _ held => held, fun _ _ _ _ _ _ turn => turn.toHeld⟩
  | succ fuel ih => exact calls_step ih

theorem sound_new (code : Code) (owner : String) : Sound code (Stack.new owner) where
  lawful := trivial
  filed := fun id => by simp [Stack.new]
  made := fun id wrong => absurd rfl wrong
  ordered := fun later id earlier split => by simp [Stack.new] at split
  sorted := List.Pairwise.nil
  live := fun id effect found => by cases found
  listed := fun id member => by cases member
  sync := fun id effect found => by cases found
  once := fun id => rfl
  began := fun loop member => by cases member
  came := fun loop label outcome member => by cases member

/-- Whatever the callbacks do, the log is one the stack's laws allow, also where a run was cut
short. -/
theorem drive_lawful (code : Code) (owner : String) (host : Callback Op Nat Exc Unit) (fuel : Nat) :
    Lawful law (drive code fuel host (Stack.new owner)).2.log := by
  have kept := keeps_play (fun o => (exec_calls code fuel).op 0 [] o) host (Stack.new owner)
    ⟨sound_new code owner, Nat.le_refl 0, fun _ _ => rfl⟩
  unfold drive
  cases run : play (fun o => exec code fuel (.op o)) host (Stack.new owner) with
  | mk outcome s =>
      rw [run] at kept
      cases outcome with
      | ret value => exact kept.sound.lawful
      | raised error => exact kept.1.sound.lawful
      | diverged => exact kept.sound.lawful

/-! ### Callbacks that let a bare `BaseException` pass -/

def Event.bare : Event → Option Exc
  | .threw error => if error.isException then none else some error
  | _ => none

/-- The first bare `BaseException` a callback raised in a stretch of the log. -/
def firstBare (stretch : List Event) : Option Exc := (stretch.filterMap Event.bare).getLast?

theorem firstBare_bare (stretch : List Event) (error : Exc) (first : firstBare stretch = some error) :
    ¬ error.isException = true := by
  obtain ⟨event, member, bare⟩ := List.mem_filterMap.mp (List.mem_of_getLast? first)
  cases event with
  | threw raised =>
      unfold Event.bare at bare
      dsimp only at bare
      split at bare
      · cases bare
      · cases bare
        assumption
  | _ => cases bare

theorem firstBare_append (later earlier : List Event) :
    firstBare (later ++ earlier) = (firstBare earlier).or (firstBare later) := by
  unfold firstBare
  rw [List.filterMap_append, List.getLast?_append]

def passLaw (before : List Event) : Event → Prop
  | .began loop => .began loop ∉ before
  | .ended loop _ outcome => ∀ amid earlier, before = amid ++ .began loop :: earlier →
      ∀ error, firstBare amid = some error → outcome = some error
  | _ => True

/-- A call of `unwind` begins once. -/
theorem began_unique {loop : Nat} {amid amid' earlier earlier' : List Event}
    (lawful : Lawful passLaw (amid ++ .began loop :: earlier))
    (same : amid ++ .began loop :: earlier = amid' ++ .began loop :: earlier') : amid = amid' := by
  have fresh : Event.began loop ∉ earlier := lawful.at
  have fresh' : Event.began loop ∉ earlier' := (same ▸ lawful).at
  rcases List.append_eq_append_iff.mp same with ⟨extra, rfl, split⟩ | ⟨extra, rfl, split⟩
  · cases extra with
    | nil => simp
    | cons first rest =>
        obtain ⟨-, tail⟩ := List.cons.inj split
        exact absurd (tail ▸ List.mem_append_right _ List.mem_cons_self) fresh
  · cases extra with
    | nil => simp
    | cons first rest =>
        obtain ⟨-, tail⟩ := List.cons.inj split
        exact absurd (tail ▸ List.mem_append_right _ List.mem_cons_self) fresh'

/-- Since `old`, the first bare `BaseException` raised by a callback is `first`. -/
structure Blamed (old : List Event) (first : Option Exc) (s : Stack) : Prop where
  lawful : Lawful passLaw s.log
  began : ∀ loop, .began loop ∈ s.log → loop ≤ s.unwinds
  since : ∃ amid, s.log = amid ++ old ∧ firstBare amid = first

def bareOf (error : Exc) : Option Exc := if error.isException then none else some error

def Allowed (s : Stack) : Prop := Lawful passLaw s.log

structure Passing (call : Call → M Nat) : Prop where
  op : ∀ old o, Triple (Blamed old none) (call (.op o)) (fun _ => Blamed old none)
    (fun error => Blamed old (bareOf error)) Allowed
  loop : ∀ earlier loop failures abort, Triple (Blamed (.began loop :: earlier) abort)
    (call (.unwindLoop loop failures abort)) (fun _ => Blamed (.began loop :: earlier) none)
    (fun error => Blamed (.began loop :: earlier) (bareOf error)) Allowed

section Passing

variable {code : Code} {call : Call → M Nat} {old : List Event} {first second : Option Exc}
  {s t : Stack}

theorem blamed_trans (before : Blamed old first s) (after : Blamed s.log second t) :
    Blamed old (first.or second) t := by
  obtain ⟨amid, split, rfl⟩ := before.since
  obtain ⟨later, split', rfl⟩ := after.since
  refine ⟨after.lawful, after.began, later ++ amid, ?_, firstBare_append later amid⟩
  rw [split', split, List.append_assoc]

theorem blamed_here (given : Blamed old first s) : Blamed s.log none s :=
  ⟨given.lawful, given.began, [], rfl, rfl⟩

theorem blamed_record (given : Blamed old first s) (event : Event) (lawful : passLaw s.log event)
    (known : ∀ loop, event = .began loop → loop ≤ s.unwinds) :
    Blamed old (first.or event.bare) (s.record event) := by
  obtain ⟨amid, split, rfl⟩ := given.since
  refine ⟨⟨lawful, given.lawful⟩, fun loop member => ?_, event :: amid, ?_, ?_⟩
  · rcases List.mem_cons.mp member with same | member
    · exact known loop same.symm
    · exact given.began loop member
  · exact congrArg (event :: ·) split
  · refine (firstBare_append [event] amid).trans (congrArg _ ?_)
    unfold firstBare
    cases bare : event.bare <;> simp [bare]

theorem passing_callSync (h : Passing call) (dispose : Nat) (event : Event)
    (passes : ∀ n, Passes Exc.Bare (code.body dispose n)) (silent : event.bare = none)
    (lawful : ∀ before, passLaw before event) (old' : ∀ loop, event ≠ .began loop) :
    Triple (Blamed old none) (callSync code call dispose event) (fun _ => Blamed old none)
      (fun error => Blamed old (bareOf error)) Allowed := by
  unfold callSync requireSync
  refine triple_bind (Q := fun _ => Blamed old none) (triple_ite (fun _ => ?_) fun _ =>
    triple_pure () fun _ given => given) fun _ => triple_get_bind fun s given => ?_
  · exact triple_raise _ fun s given => given
  refine triple_bind (Q := fun _ => Blamed old none) (triple_modify _ ?_) fun _ => ?_
  · rintro t rfl
    have started := blamed_record given event (lawful t.log) fun loop same => absurd same (old' loop)
    rw [silent] at started
    exact { started with }
  have played := triple_play_passes (P := Exc.Bare)
    (E := fun error s => Blamed old none s ∨ Blamed old (bareOf error) s)
    (h.op old) (fun error s _ raised => Or.inr raised) (fun error s caught raised => by
      unfold bareOf at raised
      rwa [if_pos (by simpa [Exc.Bare] using caught)] at raised)
    (fun error s given => Or.inl given) _ (passes s.calls)
  refine triple_bind (Q := fun result t => match result with
    | .ok _ => Blamed old none t
    | .error error => Blamed old none t ∨ Blamed old (bareOf error) t) (triple_attempt played) ?_
  intro result
  cases result with
  | ok _ => exact triple_pure () fun _ given => given
  | error error =>
      refine triple_bind (Q := fun _ => Blamed old (bareOf error)) (triple_modify _ fun t raised => ?_)
        fun _ => triple_raise error fun _ given => given
      have thrown {first : Option Exc} (given : Blamed old first t) :
          Blamed old (first.or (bareOf error)) (t.record (.threw error)) :=
        blamed_record given (.threw error) trivial fun _ wrong => by cases wrong
      rcases raised with quiet | passed
      · simpa using thrown quiet
      · have both := thrown passed
        rwa [Option.or_self] at both

theorem passing_add (h : Passing call) (passes : ∀ cb n, Passes Exc.Bare (code.body cb n))
    (dispose : Nat) (label : String) : Triple (Blamed old none) (add code call dispose label)
      (fun _ => Blamed old none) (fun error => Blamed old (bareOf error)) Allowed := by
  unfold add requireSync
  refine triple_bind (Q := fun _ => Blamed old none) (triple_ite (fun _ => ?_) fun _ =>
    triple_pure () fun _ given => given) fun _ => triple_get_bind fun s given => ?_
  · exact triple_raise _ fun s given => given
  refine triple_ite (fun _ => ?_) fun _ => ?_
  · exact triple_bind (triple_pre (fun t same => same ▸ given) (passing_callSync h dispose
      (.ran dispose) (passes dispose) rfl (fun _ => trivial) fun _ wrong => by cases wrong)) fun _ =>
        triple_pure 0 fun _ given => given
  · refine triple_bind (Q := fun _ => Blamed old none) (triple_modify _ ?_) fun _ =>
      triple_pure _ fun _ given => given
    rintro t rfl
    have noted := blamed_record given (.filed (t.made + 1)) trivial fun _ wrong => by cases wrong
    exact { noted with }

theorem passing_dispose (h : Passing call) (passes : ∀ cb n, Passes Exc.Bare (code.body cb n))
    (id : Nat) : Triple (Blamed old none) (dispose code call id)
      (fun _ => Blamed old none) (fun error => Blamed old (bareOf error)) Allowed := by
  unfold dispose
  refine triple_get_bind fun s given => ?_
  cases s.heap id with
  | none => exact triple_pure () fun t same => same ▸ given
  | some effect =>
      refine triple_ite (fun _ => triple_pure () fun t same => same ▸ given) fun _ => ?_
      refine triple_bind (Q := fun _ => Blamed old none) (triple_modify _ ?_) fun _ =>
        passing_callSync h effect.dispose _ (passes _) rfl (fun _ => trivial) fun _ wrong => by
          cases wrong
      rintro t rfl
      exact { given with }

theorem passing_unwindLoop (h : Passing call) (passes : ∀ cb n, Passes Exc.Bare (code.body cb n))
    {earlier : List Event} (loop : Nat) (failures : List (String × Exc)) (abort : Option Exc) :
    Triple (Blamed (.began loop :: earlier) abort) (unwindLoop code call loop failures abort)
      (fun _ => Blamed (.began loop :: earlier) none)
      (fun error => Blamed (.began loop :: earlier) (bareOf error)) Allowed := by
  have again (failures : List (String × Exc)) (abort : Option Exc) :
      Triple (Blamed (.began loop :: earlier) abort)
        (call (.unwindLoop loop failures abort) >>= fun _ => pure ())
        (fun _ => Blamed (.began loop :: earlier) none)
        (fun error => Blamed (.began loop :: earlier) (bareOf error)) Allowed :=
    triple_bind (h.loop earlier loop failures abort) fun _ => triple_pure () fun _ given => given
  unfold unwindLoop
  dsimp only
  refine triple_get_bind fun s given => ?_
  cases s.effects with
  | nil =>
      refine triple_bind (Q := fun _ => Blamed (.began loop :: earlier) abort) (triple_modify _ ?_)
        fun _ => triple_state fun t ended => ?_
      · rintro t rfl
        have noted := blamed_record given (.ended loop t.effects (verdict failures abort)) ?_
          fun _ wrong => by cases wrong
        · rw [show Event.bare (.ended loop t.effects (verdict failures abort)) = none from rfl,
            Option.or_none] at noted
          exact { noted with }
        · intro amid earlier' split error first
          obtain ⟨amid', split', same⟩ := given.since
          have lawful := given.lawful
          rw [split'] at lawful split
          rw [began_unique lawful split, first] at same
          rw [← same]
          rfl
      · cases abort with
        | some error =>
            obtain ⟨amid, split, first⟩ := ended.since
            refine triple_raise error fun u same => ?_
            rw [same, bareOf, if_neg (firstBare_bare amid error first)]
            exact ended
        | none =>
            unfold verdict
            dsimp only
            by_cases clean : failures = []
            · rw [if_pos clean]
              exact triple_pure () fun u same => same ▸ ended
            · rw [if_neg clean]
              exact triple_raise _ fun u same => same ▸ ended
  | cons id rest =>
      refine triple_bind (Q := fun _ => Blamed (.began loop :: earlier) abort) (triple_modify _ ?_)
        fun _ => ?_
      · rintro t rfl
        exact { given with }
      cases s.heap id with
      | none => exact again failures abort
      | some effect =>
          refine triple_ite (fun _ => again failures abort) fun _ => ?_
          refine triple_bind (Q := fun _ => Blamed (.began loop :: earlier) abort) (triple_modify _ ?_)
            fun _ => triple_state fun t before => ?_
          · exact fun t given => { given with }
          refine triple_bind (Q := fun result u => match result with
            | .ok _ => Blamed t.log none u
            | .error error => Blamed t.log (bareOf error) u) (triple_attempt (triple_pre
              (fun u same => by rw [same]; exact blamed_here before) (passing_callSync h effect.dispose
                (.invoked id (some loop)) (passes _) rfl (fun _ => trivial) fun _ wrong => by
                  cases wrong))) fun result => ?_
          have came (outcome : Option Exc) {first : Option Exc} {u : Stack}
              (after : Blamed t.log first u) : Blamed (.began loop :: earlier) (abort.or first)
                (u.record (.came loop (effect.owner ++ ":" ++ effect.label) outcome)) := by
            have noted := blamed_record (blamed_trans before after)
              (.came loop (effect.owner ++ ":" ++ effect.label) outcome) trivial fun _ wrong => by
                cases wrong
            rwa [show Event.bare (.came loop (effect.owner ++ ":" ++ effect.label) outcome) = none
              from rfl, Option.or_none] at noted
          cases result with
          | ok _ =>
              refine triple_bind (Q := fun _ => Blamed (.began loop :: earlier) (abort.or none))
                (triple_modify _ fun u after => came none after) fun _ => ?_
              rw [Option.or_none]
              exact again failures abort
          | error error =>
              refine triple_bind
                (Q := fun _ => Blamed (.began loop :: earlier) (abort.or (bareOf error)))
                (triple_modify _ fun u after => came (some error) after) fun _ =>
                  triple_ite (fun caught => ?_) fun bare => ?_
              · rw [bareOf, if_pos caught, Option.or_none]
                exact again _ abort
              · rw [bareOf, if_neg bare]
                simpa using again failures (abort.or (some error))

theorem passing_unwind (h : Passing call) : Triple (Blamed old none) (unwind call)
    (fun _ => Blamed old none) (fun error => Blamed old (bareOf error)) Allowed := by
  unfold unwind
  refine triple_get_bind fun s given => triple_bind
    (Q := fun _ => Blamed (.began (s.unwinds + 1) :: s.log) none) (triple_modify _ ?_) fun _ => ?_
  · rintro t rfl
    refine ⟨⟨fun again => ?_, given.lawful⟩, fun loop member => ?_, [], rfl, rfl⟩
    · have := given.began _ again
      omega
    · rcases List.mem_cons.mp member with same | member
      · cases same
        exact Nat.le_refl _
      · exact Nat.le_succ_of_le (given.began loop member)
  · have outer {first : Option Exc} {t : Stack} (after : Blamed (.began (s.unwinds + 1) :: s.log) first t) :
        Blamed old first t := by
      obtain ⟨amid, split, first⟩ := given.since
      obtain ⟨later, split', rfl⟩ := after.since
      refine ⟨after.lawful, after.began, later ++ .began (s.unwinds + 1) :: amid, ?_, ?_⟩
      · rw [split', split, List.append_assoc]
        rfl
      · rw [firstBare_append]
        have quiet : firstBare (.began (s.unwinds + 1) :: amid) = none := first
        rw [quiet, Option.none_or]
    exact triple_bind (triple_post (h.loop s.log (s.unwinds + 1) [] none) (fun _ _ after => outer after)
      fun _ _ after => outer after) fun _ => triple_pure () fun _ given => given

theorem passing_step (h : Passing call) (passes : ∀ cb n, Passes Exc.Bare (code.body cb n)) :
    Passing (step code call) where
  op := fun old o => by
    cases o with
    | add dispose label => exact passing_add h passes dispose label
    | dispose id =>
        exact triple_bind (passing_dispose h passes id) fun _ => triple_pure 0 fun _ given => given
    | unwind => exact triple_bind (passing_unwind h) fun _ => triple_pure 0 fun _ given => given
  loop := fun earlier loop failures abort =>
    triple_bind (passing_unwindLoop h passes loop failures abort) fun _ =>
      triple_pure 0 fun _ given => given

end Passing

theorem exec_passing (code : Code) (passes : ∀ cb n, Passes Exc.Bare (code.body cb n)) (fuel : Nat) :
    Passing (exec code fuel) := by
  induction fuel with
  | zero => exact ⟨fun _ _ _ given => given.lawful, fun _ _ _ _ _ given => given.lawful⟩
  | succ fuel ih => exact passing_step ih passes

theorem drive_allowed (code : Code) (passes : ∀ cb n, Passes Exc.Bare (code.body cb n)) (owner : String)
    (host : Callback Op Nat Exc Unit) (fuel : Nat) :
    Allowed (drive code fuel host (Stack.new owner)).2 := by
  let known (s : Stack) : Prop := Allowed s ∧ ∀ loop, .began loop ∈ s.log → loop ≤ s.unwinds
  have calls (o : Op) : Keeps known (fun _ => True) Allowed (exec code fuel (.op o)) := by
    refine triple_state fun s given => triple_conseq ((exec_passing code passes fuel).op s.log o) ?_ ?_ ?_
    · rintro t rfl
      exact ⟨given.1, given.2, [], rfl, rfl⟩
    · exact fun _ t after => ⟨after.lawful, after.began⟩
    · exact fun _ t after => ⟨⟨after.lawful, after.began⟩, trivial⟩
  have kept := keeps_play calls host (Stack.new owner) ⟨trivial, fun loop member => by cases member⟩
  unfold drive
  cases run : play (fun o => exec code fuel (.op o)) host (Stack.new owner) with
  | mk outcome s =>
      rw [run] at kept
      cases outcome with
      | ret value => exact kept.1
      | raised error => exact kept.1.1
      | diverged => exact kept

end AtrexAgent.Effects
