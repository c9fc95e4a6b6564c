import AtrexAgent.Core.Stable

/-! `settle()` reaches a fixed point. The invariant: a fiber whose epoch is out
of date is still queued, and a fiber in the middle of no transition has the state
its epoch calls for. -/

namespace AtrexAgent.Core

open AtrexAgent.Computation
open AtrexAgent.Computation.Comp

/-- A settled fiber, seen while the fibers in `disposing` are being disposed. -/
structure FiberView.AtRest (disposing : List Nat) (v : FiberView) : Prop where
  state : v.state = .pending ∨ v.state = .active ∨ v.state = .failed ∨
    (v.state = .unloading ∧ v.uid ∈ disposing)
  active : v.state = .active → v.epoch = v.computed ∧
    ∃ found : List Impl, v.required = found.map some ∧
      v.epoch = some (found.map Impl.serial ++
        v.optional.map fun impl => (impl.map Impl.serial).getD 0)
  pending : v.state = .pending → v.computed = none

def Settled.AtRest (entry : Settled) : Prop := ∀ v ∈ entry.fibers, v.AtRest entry.disposing

/-- The state of a fiber no transition is in the middle of, by its epoch. -/
def Fiber.Agrees (x : Fiber) : Prop :=
  (x.state = .pending ∧ x.epoch = none) ∨ (x.state = .active ∧ x.epoch ≠ none) ∨ x.state = .failed

/-- If the epoch of `u` is out of date, `u` is queued or in the current batch. -/
def Tracked (batch : Nat → Prop) (r : Root) (u : Nat) : Prop :=
  u ∈ r.pending ∨ batch u ∨ (r.fiber u).epoch = r.computeEpoch u ∨ (r.fiber u).state = .failed

def Standing (loose batch : Nat → Prop) (r : Root) (u : Nat) : Prop :=
  loose u ∨ ((r.fiber u).state = .unloading ∧ u ∈ r.disposeStack) ∨
    ((r.fiber u).Agrees ∧ Tracked batch r u)

/-- `loose` are the fibers a transition is in the middle of, `batch` those that
`settle` has taken from the queue and not refreshed yet. -/
structure Coherent (loose batch : Nat → Prop) (running : Bool) (enclosing : List Nat) (r : Root) :
    Prop where
  deaf : r.listeners = []
  watching : r.watching = true
  settling : r.settling = running
  stack : r.disposeStack = enclosing
  log : ∀ entry ∈ r.settledLog, entry.AtRest
  allocated : ∀ u ∈ r.fibers, u ≤ r.uid
  unmade : ∀ u, r.uid < u → (r.fiber u).state = .disposed
  located : ∀ u, loose u ∨ u ∈ enclosing → u ≤ r.uid
  rows : ∀ u ∈ r.fibers, Standing loose batch r u

/-- What is known of a fiber while it loads or unloads inside the settle loop. -/
structure Held (g : Nat) (expected : Option (List Nat)) (r : Root) : Prop where
  deaf : r.listeners = []
  watching : r.watching = true
  settling : r.settling = true
  allocated : g ≤ r.uid
  epoch : (r.fiber g).epoch = expected
  fresh : g ∈ r.fibers → g ∈ r.pending ∨ expected = r.computeEpoch g

section Changes

variable {loose batch : Nat → Prop} {running : Bool} {enclosing : List Nat} {r r' : Root}

theorem row_weaken {loose' batch' : Nat → Prop} {u : Nat} (row : Standing loose batch r u)
    (wider : ∀ u, loose u → loose' u) (more : batch u → batch' u ∨ loose' u) :
    Standing loose' batch' r u := by
  rcases row with held | unloading | ⟨agrees, queued | waiting | current⟩
  · exact Or.inl (wider u held)
  · exact Or.inr (Or.inl unloading)
  · exact Or.inr (Or.inr ⟨agrees, Or.inl queued⟩)
  · rcases more waiting with waits | held
    · exact Or.inr (Or.inr ⟨agrees, Or.inr (Or.inl waits)⟩)
    · exact Or.inl held
  · exact Or.inr (Or.inr ⟨agrees, Or.inr (Or.inr current)⟩)

theorem row_congr {u : Nat} (row : Standing loose batch r u)
    (state : (r'.fiber u).state = (r.fiber u).state)
    (epoch : (r'.fiber u).epoch = (r.fiber u).epoch)
    (stack : u ∈ r.disposeStack → u ∈ r'.disposeStack) (pending : u ∈ r.pending → u ∈ r'.pending)
    (computed : u ∈ r'.pending ∨ r'.computeEpoch u = r.computeEpoch u) :
    Standing loose batch r' u := by
  unfold Standing Fiber.Agrees Tracked at row ⊢
  rw [state, epoch]
  rcases row with held | ⟨unloading, member⟩ | ⟨agrees, tracked⟩
  · exact Or.inl held
  · exact Or.inr (Or.inl ⟨unloading, stack member⟩)
  · refine Or.inr (Or.inr ⟨agrees, ?_⟩)
    rcases computed with queued | computed
    · exact Or.inl queued
    · rcases tracked with queued | waiting | current | failed
      · exact Or.inl (pending queued)
      · exact Or.inr (Or.inl waiting)
      · exact Or.inr (Or.inr (Or.inl (current.trans computed.symm)))
      · exact Or.inr (Or.inr (Or.inr failed))

theorem coherent_quiet (quiet : Quiet r r') (given : Coherent loose batch running enclosing r) :
    Coherent loose batch running enclosing r' where
  deaf := quiet.listeners given.deaf
  watching := quiet.watching.trans given.watching
  settling := quiet.settling.trans given.settling
  stack := quiet.disposeStack.trans given.stack
  log := by rw [quiet.settledLog]; exact given.log
  allocated := by rw [quiet.fibers, quiet.uid]; exact given.allocated
  unmade := fun u above => by
    rw [quiet.state]; exact given.unmade u (quiet.uid ▸ above)
  located := by rw [quiet.uid]; exact given.located
  rows := fun u member => by
    rw [quiet.fibers] at member
    refine row_congr (given.rows u member) (quiet.state u) (quiet.epoch u) ?_
      (quiet.pending u) (Or.inr ?_)
    · rw [quiet.disposeStack]; exact id
    · exact Root.computeEpoch_impls (quiet.declaration u) (quiet.realm u) quiet.impls

/-- A change of the services published under `name` wakes whoever depends on it. -/
theorem computeEpoch_wake (watching : r.watching = true) (name : String) (serial : Nat)
    (impls : Realm → String → Option Impl)
    (other : ∀ realm key, key ≠ name → impls realm key = r.impls realm key) (u : Nat)
    (member : u ∈ r.fibers) :
    u ∈ ((r.republish serial impls).wake name).pending ∨
      ((r.republish serial impls).wake name).computeEpoch u = r.computeEpoch u := by
  have woken : (r.republish serial impls).wake name =
      { r.republish serial impls with
        pending := r.pending ++ r.fibers.filter (r.depends name) } := if_pos watching
  rw [woken]
  by_cases depends : r.depends name u = true
  · exact Or.inl (List.mem_append_right _ (List.mem_filter.mpr ⟨member, depends⟩))
  · refine Or.inr (Root.computeEpoch_congr rfl rfl fun key needed => other _ key ?_)
    rintro rfl
    exact depends needed

theorem wake_fields (r : Root) (name : String) (serial : Nat)
    (impls : Realm → String → Option Impl) :
    ((r.republish serial impls).wake name).fiber = r.fiber ∧
    ((r.republish serial impls).wake name).fibers = r.fibers ∧
    ((r.republish serial impls).wake name).uid = r.uid ∧
    ((r.republish serial impls).wake name).listeners = r.listeners ∧
    ((r.republish serial impls).wake name).watching = r.watching ∧
    ((r.republish serial impls).wake name).settling = r.settling ∧
    ((r.republish serial impls).wake name).disposeStack = r.disposeStack ∧
    ((r.republish serial impls).wake name).settledLog = r.settledLog ∧
    ∀ u ∈ r.pending, u ∈ ((r.republish serial impls).wake name).pending := by
  unfold Root.wake
  split
  · exact ⟨rfl, rfl, rfl, rfl, rfl, rfl, rfl, rfl, fun u h => List.mem_append_left _ h⟩
  · exact ⟨rfl, rfl, rfl, rfl, rfl, rfl, rfl, rfl, fun u h => h⟩

theorem coherent_wake (given : Coherent loose batch running enclosing r) (name : String) (serial : Nat)
    (impls : Realm → String → Option Impl)
    (other : ∀ realm key, key ≠ name → impls realm key = r.impls realm key) :
    Coherent loose batch running enclosing ((r.republish serial impls).wake name) := by
  have computed := computeEpoch_wake given.watching name serial impls other
  obtain ⟨fiber, fibers, uid, listeners, watching, settles, disposing, log, pending⟩ :=
    wake_fields r name serial impls
  constructor
  · exact listeners.trans given.deaf
  · exact watching.trans given.watching
  · exact settles.trans given.settling
  · exact disposing.trans given.stack
  · rw [log]; exact given.log
  · rw [fibers, uid]; exact given.allocated
  · rw [fiber, uid]; exact given.unmade
  · rw [uid]; exact given.located
  · intro u member
    rw [fibers] at member
    refine row_congr (given.rows u member) (by rw [fiber]) (by rw [fiber]) ?_ (pending u)
      (computed u member)
    rw [disposing]
    exact id

theorem held_wake {g : Nat} {expected : Option (List Nat)} (given : Held g expected r) (name : String)
    (serial : Nat) (impls : Realm → String → Option Impl)
    (other : ∀ realm key, key ≠ name → impls realm key = r.impls realm key) :
    Held g expected ((r.republish serial impls).wake name) := by
  have computed := computeEpoch_wake given.watching name serial impls other
  obtain ⟨fiber, fibers, uid, listeners, watching, settles, -, -, pending⟩ :=
    wake_fields r name serial impls
  constructor
  · exact listeners.trans given.deaf
  · exact watching.trans given.watching
  · exact settles.trans given.settling
  · rw [uid]; exact given.allocated
  · rw [fiber]; exact given.epoch
  · intro member
    rw [fibers] at member
    rcases given.fresh member with queued | current
    · exact Or.inl (pending g queued)
    · rcases computed g member with queued | same
      · exact Or.inl queued
      · exact Or.inr (current.trans same.symm)

theorem held_quiet {g : Nat} {expected : Option (List Nat)} (quiet : Quiet r r')
    (given : Held g expected r) : Held g expected r' where
  deaf := quiet.listeners given.deaf
  watching := quiet.watching.trans given.watching
  settling := quiet.settling.trans given.settling
  allocated := by rw [quiet.uid]; exact given.allocated
  epoch := (quiet.epoch g).trans given.epoch
  fresh := fun member => by
    rw [quiet.fibers] at member
    rw [Root.computeEpoch_impls (quiet.declaration g) (quiet.realm g) quiet.impls]
    exact (given.fresh member).imp (quiet.pending g) id

theorem coherent_mounted (declaration : Declaration) (entryId : String) (isolated : List String)
    (parent : Option Nat) (realm : Option Realm)
    (given : Coherent loose batch running enclosing r) :
    Coherent loose batch running enclosing
      (r.mounted declaration entryId isolated parent realm) := by
  obtain ⟨fibers, pending, uid, impls, -, watching, settles, listeners, disposing, log, -⟩ :=
    Root.mounted_fields r declaration entryId isolated parent realm
  constructor
  · exact listeners.trans given.deaf
  · exact watching.trans given.watching
  · exact settles.trans given.settling
  · exact disposing.trans given.stack
  · rw [log]; exact given.log
  · intro u member
    rw [fibers, List.mem_append, List.mem_singleton] at member
    rw [uid]
    rcases member with old | rfl
    · exact Nat.le_succ_of_le (given.allocated u old)
    · exact Nat.le_refl _
  · intro u above
    rw [uid] at above
    obtain ⟨children, same⟩ :=
      Root.mounted_other r declaration entryId isolated parent realm u (by omega)
    rw [same]
    exact given.unmade u (by omega)
  · intro u held
    rw [uid]
    exact Nat.le_succ_of_le (given.located u held)
  · intro u member
    rw [fibers, List.mem_append, List.mem_singleton] at member
    rcases member with old | rfl
    · have below := given.allocated u old
      obtain ⟨children, same⟩ :=
        Root.mounted_other r declaration entryId isolated parent realm u (by omega)
      refine row_congr (given.rows u old) (by rw [same]) (by rw [same]) ?_ ?_ (Or.inr ?_)
      · rw [disposing]; exact id
      · rw [pending]; exact fun h => List.mem_append_left _ h
      · exact Root.computeEpoch_impls (by rw [same]) (by rw [same]) impls
    · obtain ⟨state, epoch⟩ := Root.mounted_self r declaration entryId isolated parent realm
      refine Or.inr (Or.inr ⟨Or.inl ⟨state, epoch⟩, Or.inl ?_⟩)
      rw [pending]
      exact List.mem_append_right _ (List.mem_singleton_self _)

theorem held_mounted {g : Nat} {expected : Option (List Nat)} (declaration : Declaration)
    (entryId : String) (isolated : List String) (parent : Option Nat) (realm : Option Realm)
    (given : Held g expected r) :
    Held g expected (r.mounted declaration entryId isolated parent realm) := by
  obtain ⟨fibers, pending, uid, impls, -, watching, settles, listeners, -⟩ :=
    Root.mounted_fields r declaration entryId isolated parent realm
  have below := given.allocated
  obtain ⟨children, same⟩ :=
    Root.mounted_other r declaration entryId isolated parent realm g (by omega)
  constructor
  · exact listeners.trans given.deaf
  · exact watching.trans given.watching
  · exact settles.trans given.settling
  · rw [uid]; exact Nat.le_succ_of_le below
  · rw [same]; exact given.epoch
  · intro member
    rw [fibers, List.mem_append, List.mem_singleton] at member
    rcases member with old | new
    · rw [Root.computeEpoch_impls (by rw [same]) (by rw [same]) impls, pending]
      exact (given.fresh old).imp (fun h => List.mem_append_left _ h) id
    · omega

theorem coherent_transition {f : Nat} (state : FiberState)
    (given : Coherent loose batch running enclosing r)
    (free : loose f ∨ (state = .unloading ∧ f ∈ enclosing)) :
    Coherent loose batch running enclosing (r.recordTransition f state) where
  deaf := given.deaf
  watching := given.watching
  settling := given.settling
  stack := given.stack
  log := given.log
  allocated := given.allocated
  unmade := fun u above => by
    have below := given.located f (free.imp id And.right)
    have above : r.uid < u := above
    rw [Root.recordTransition_other r f u state (by omega)]
    exact given.unmade u above
  located := given.located
  rows := fun u member => by
    by_cases self : u = f
    · subst self
      rcases free with held | ⟨unloading, disposing⟩
      · exact Or.inl held
      · refine Or.inr (Or.inl ⟨?_, ?_⟩)
        · rw [Root.recordTransition_self]; exact unloading
        · exact given.stack ▸ disposing
    · have same := Root.recordTransition_other r f u state self
      exact row_congr (given.rows u member) (by rw [same]) (by rw [same]) id id
        (Or.inr (Root.computeEpoch_recordTransition r f u state))

theorem held_transition {g : Nat} {expected : Option (List Nat)} (f : Nat) (state : FiberState)
    (given : Held g expected r) : Held g expected (r.recordTransition f state) where
  deaf := given.deaf
  watching := given.watching
  settling := given.settling
  allocated := given.allocated
  epoch := (Root.recordTransition_epoch r f g state).trans given.epoch
  fresh := fun member => by
    rw [Root.computeEpoch_recordTransition]
    exact given.fresh member

theorem coherent_stable (P : Op → Prop) : Stable P (Coherent loose batch running enclosing) where
  deaf := fun _ given => given.deaf
  quiet := fun _ _ quiet given => coherent_quiet quiet given
  register := fun _ _ name _ _ given =>
    coherent_wake given name _ _ fun _ _ other => if_neg fun same => other same.2
  unregister := fun _ _ name given =>
    coherent_wake given name _ _ fun _ _ other => if_neg fun same => other same.2
  mounted := fun _ declaration entryId isolated parent realm _ given =>
    coherent_mounted declaration entryId isolated parent realm given

theorem held_stable (P : Op → Prop) (g : Nat) (expected : Option (List Nat)) :
    Stable P (Held g expected) where
  deaf := fun _ given => given.deaf
  quiet := fun _ _ quiet given => held_quiet quiet given
  register := fun _ _ name _ _ given =>
    held_wake given name _ _ fun _ _ other => if_neg fun same => other same.2
  unregister := fun _ _ name given =>
    held_wake given name _ _ fun _ _ other => if_neg fun same => other same.2
  mounted := fun _ declaration entryId isolated parent realm _ given =>
    held_mounted declaration entryId isolated parent realm given

theorem held_frozen (P : Op → Prop) (g : Nat) (expected : Option (List Nat)) :
    Frozen P (Held g expected) fun _ _ => Held g expected where
  toTidy := stable_tidy (held_stable P g expected)
  settling := fun _ given => given.settling
  busy := fun _ _ _ given => given.settling
  transits := fun _ f state _ given => held_transition f state given
  orphaned := fun r p _ given => by
    refine held_quiet (quiet_update r p _ ?_) given
    exact ⟨fun _ => rfl, fun _ => rfl, fun _ => rfl, fun _ => rfl, fun _ => rfl, fun _ => rfl,
      fun _ => rfl, fun _ _ member => List.mem_of_mem_erase member⟩
  forget := fun _ _ given =>
    ⟨given.deaf, given.watching, given.settling, given.allocated, given.epoch,
      fun member => given.fresh (List.mem_of_mem_filter member)⟩
  stack := fun _ _ given =>
    ⟨given.deaf, given.watching, given.settling, given.allocated, given.epoch, given.fresh⟩

theorem coherent_loosen {loose' batch' : Nat → Prop}
    (given : Coherent loose batch running enclosing r) (wider : ∀ u, loose u → loose' u)
    (located : ∀ u, loose' u → u ≤ r.uid) (more : ∀ u, batch u → batch' u ∨ loose' u) :
    Coherent loose' batch' running enclosing r :=
  { given with
    located := fun u held => held.elim (located u) fun disposing => given.located u (Or.inr disposing)
    rows := fun u member => row_weaken (given.rows u member) wider (more u) }

/-- The end of a transition of `g`. -/
theorem coherent_close {g : Nat}
    (given : Coherent (fun u => u = g ∨ loose u) batch running enclosing r)
    (row : g ∈ r.fibers → Standing loose batch r g) : Coherent loose batch running enclosing r :=
  { given with
    located := fun u held => given.located u (held.imp Or.inr id)
    rows := fun u member => by
      rcases given.rows u member with (rfl | held) | rest
      · exact row member
      · exact Or.inl held
      · exact Or.inr rest }

theorem coherent_update {f : Nat} (change : Fiber → Fiber) (held : loose f)
    (given : Coherent loose batch running enclosing r) :
    Coherent loose batch running enclosing (r.update f change) :=
  { given with
    unmade := fun u above => by
      have below := given.located f (Or.inl held)
      have above : r.uid < u := above
      rw [Root.update_other r f u change (by omega)]
      exact given.unmade u above
    rows := fun u member => by
      by_cases self : u = f
      · exact Or.inl (self ▸ held)
      · have same := Root.update_other r f u change self
        exact row_congr (given.rows u member) (by rw [same]) (by rw [same]) id id
          (Or.inr (Root.computeEpoch_impls (by rw [same]) (by rw [same]) rfl)) }

theorem coherent_push {f : Nat} (known : f ≤ r.uid)
    (given : Coherent loose batch running enclosing r) :
    Coherent loose batch running (f :: enclosing)
      { r with disposeStack := f :: r.disposeStack } :=
  { given with
    stack := congrArg (f :: ·) given.stack
    located := fun u held => by
      rcases held with held | disposing
      · exact given.located u (Or.inl held)
      · rcases List.mem_cons.mp disposing with rfl | disposing
        · exact known
        · exact given.located u (Or.inr disposing)
    rows := fun u member => row_congr (given.rows u member) rfl rfl
      (fun disposing => List.mem_cons_of_mem f disposing) id (Or.inr rfl) }

theorem coherent_forget {f : Nat}
    (given : Coherent (fun u => u = f ∨ loose u) batch running (f :: enclosing) r) :
    Coherent loose batch running enclosing
      { r.forget f with disposeStack := r.disposeStack.tail } :=
  { given with
    stack := by
      change r.disposeStack.tail = enclosing
      rw [given.stack, List.tail_cons]
    allocated := fun u member => given.allocated u (List.mem_of_mem_filter member)
    located := fun u held => given.located u (held.imp Or.inr fun h => List.mem_cons_of_mem f h)
    rows := fun u member => by
      have other : u ≠ f := by simpa using (List.mem_filter.mp member).2
      have row := given.rows u (List.mem_of_mem_filter member)
      rcases row with (self | held) | ⟨unloading, disposing⟩ | tracked
      · exact absurd self other
      · exact Or.inl held
      · refine Or.inr (Or.inl ⟨unloading, ?_⟩)
        rw [given.stack] at disposing
        change u ∈ r.disposeStack.tail
        rw [given.stack]
        exact (List.mem_cons.mp disposing).resolve_left other
      · exact Or.inr (Or.inr tracked) }

end Changes

/-- Every outermost `settle()` so far left the rows at rest. -/
def Logged (r : Root) : Prop := ∀ entry ∈ r.settledLog, entry.AtRest

def nobody (_ : Nat) : Prop := False

/-- What is known of the calls while a run is `fuel` deep. -/
structure Settles (code : Code) (call : Call → M Nat) (P : Op → Prop) : Prop where
  applies : ∀ cb f n, (code.apply cb f n).All P (Ordinary False)
  configs : ∀ cb f n, (code.resolveConfig cb f n).All P (Ordinary False)
  files : ∀ f disposer, P (.effect f disposer)
  coherent : ∀ loose batch running enclosing,
    (running = false → loose = nobody ∧ batch = nobody) →
    Closed code call P False (Coherent loose batch running enclosing)
      (fun _ _ => Coherent loose batch running enclosing) Logged
  held : ∀ g expected,
    Closed code call P False (Held g expected) (fun _ _ => Held g expected) fun _ => True
  loop : ∀ enclosing rounds,
    Triple (Coherent nobody nobody true enclosing) (call (.settleLoop rounds))
      (fun _ r => Coherent nobody nobody true enclosing r ∧ r.pending = [])
      (fun error r => Coherent nobody nobody true enclosing r ∧ Ordinary False error) Logged

theorem bare_false {error : Exc} (bare : Bare False error) : False := bare.2

section Procedures

variable {code : Code} {call : Call → M Nat} {P : Op → Prop} {loose batch : Nat → Prop}
  {running : Bool} {enclosing : List Nat}

/-- Inside the settle loop, with the fiber that is being refreshed. -/
def Turning (loose batch : Nat → Prop) (enclosing : List Nat) (g : Nat)
    (expected : Option (List Nat)) (r : Root) : Prop :=
  Coherent (fun u => u = g ∨ loose u) batch true enclosing r ∧ Held g expected r

theorem closed_turning (h : Settles code call P) (g : Nat) (expected : Option (List Nat)) :
    Closed code call P False (Turning loose batch enclosing g expected)
      (fun _ _ => Turning loose batch enclosing g expected) Logged :=
  closed_and (h.coherent _ _ true enclosing fun wrong => by cases wrong) (h.held g expected)

theorem turning_transition {g : Nat} {expected : Option (List Nat)} (r : Root)
    (state : FiberState) (given : Turning loose batch enclosing g expected r) :
    Turning loose batch enclosing g expected (r.recordTransition g state) :=
  ⟨coherent_transition state given.1 (Or.inl (Or.inl rfl)), held_transition g state given.2⟩

theorem coherent_disposed {f : Nat} (E : Exc → Root → Prop) :
    Triple (Coherent (fun u => u = f ∨ loose u) batch running (f :: enclosing))
      (disposed code call f) (fun _ => Coherent loose batch running enclosing) E Logged := by
  unfold disposed
  refine triple_bind (Q := fun _ => Coherent (fun u => u = f ∨ loose u) batch running
    (f :: enclosing)) (triple_modify _ fun r given => ?_) fun _ => ?_
  · cases (r.fiber f).parent with
    | none => exact given
    | some p =>
        refine coherent_quiet (quiet_update r p _ ?_) given
        exact ⟨fun _ => rfl, fun _ => rfl, fun _ => rfl, fun _ => rfl, fun _ => rfl, fun _ => rfl,
          fun _ => rfl, fun _ _ member => List.mem_of_mem_erase member⟩
  refine triple_bind (Q := fun _ => Coherent (fun u => u = f ∨ loose u) batch running
    (f :: enclosing)) (triple_run fun r given => ?_) fun _ => ?_
  · exact ⟨(), _, transition_deaf code call f _ r given.deaf,
      coherent_transition _ given (Or.inl (Or.inl rfl))⟩
  · exact triple_modify _ fun r given => coherent_forget given

theorem coherent_dispose (h : Settles code call P)
    (idle : running = false → loose = nobody ∧ batch = nobody) (f : Nat) :
    Keeps (Coherent loose batch running enclosing) (Bare False) Logged (dispose code call f) := by
  have closed := h.coherent loose batch running (f :: enclosing) idle
  have loosen (r : Root) (given : Coherent loose batch running (f :: enclosing) r) :
      Coherent (fun u => u = f ∨ loose u) batch running (f :: enclosing) r := by
    refine coherent_loosen given (fun u held => Or.inr held) ?_ fun u waits => Or.inl waits
    rintro u (rfl | held)
    · exact given.located u (Or.inr List.mem_cons_self)
    · exact given.located u (Or.inl held)
  unfold dispose
  refine triple_get_bind fun r given => triple_ite (fun _ => ?_) fun alive => ?_
  · exact triple_pure () fun s same => same ▸ given
  have known : f ≤ r.uid := by
    by_contra above
    exact alive (given.unmade f (by omega))
  refine triple_bind (Q := fun _ => Coherent loose batch running (f :: enclosing))
    (triple_modify _ fun s same => ?_) fun _ => ?_
  · subst same
    exact coherent_push known given
  refine triple_andFinally (Q := fun _ => Coherent (fun u => u = f ∨ loose u) batch running
    (f :: enclosing)) (E := fun error _ => Bare False error) (triple_ite (fun _ => ?_) fun _ => ?_)
    (fun _ => coherent_disposed _) fun error s bare => absurd bare bare_false
  · refine triple_post (unload_run closed f closed.tidy.deaf ?_ ?_) (fun _ _ h => h)
      fun error s raised => raised.2
    · exact fun r given => coherent_transition _ given (Or.inr ⟨rfl, List.mem_cons_self⟩)
    · exact fun r given _ => coherent_transition _ (loosen r given) (Or.inl (Or.inl rfl))
  · exact triple_post (keeps_discardEffects closed f) (fun _ s given => loosen s given.1)
      fun error s raised => raised.2

/-- Nothing is raised by what only raises bare exceptions, when there are none. -/
theorem triple_contained {α : Type} {J : Root → Prop} {body : M α} {Q : α → Root → Prop}
    {I : Root → Prop} {D : Root → Prop} {E : Exc → Root → Prop}
    (run : Triple J body Q (fun error r => I r ∧ Bare False error) D) : Triple J body Q E D :=
  triple_post run (fun _ _ h => h) fun _ _ raised => absurd raised.2 bare_false

theorem turning_fail {g : Nat} (error : Exc) (E : Exc → Root → Prop) :
    Triple (Coherent (fun u => u = g ∨ loose u) batch true enclosing) (fail code call g error)
      (fun _ => Coherent loose batch true enclosing) E Logged := by
  unfold fail
  refine triple_bind (Q := fun _ r => Coherent (fun u => u = g ∨ loose u) batch true enclosing r ∧
    (r.fiber g).epoch = none) (triple_modify _ fun r given => ?_) fun _ => ?_
  · exact ⟨coherent_update _ (Or.inl rfl) given, by rw [Root.update_self]⟩
  refine triple_bind (Q := fun _ => Coherent loose batch true enclosing)
    (triple_run fun r given => ?_) fun _ => ?_
  · refine ⟨(), _, transition_deaf code call g _ r given.1.deaf, ?_⟩
    refine coherent_close (coherent_transition .failed given.1 (Or.inl (Or.inl rfl))) fun _ => ?_
    have failed : ((r.recordTransition g .failed).fiber g).state = .failed := by
      rw [Root.recordTransition_self]
    exact Or.inr (Or.inr ⟨Or.inr (Or.inr failed), Or.inr (Or.inr (Or.inr failed))⟩)
  · exact triple_contained (keeps_report (fun _ given => given.deaf) (fun r errors reporting given =>
      coherent_quiet (quiet_fields r r.calls r.effectIds r.realms errors reporting r.undoLog) given)
      error (Bare False))

/-- A load leaves the fiber active with the epoch it was started for, or failed. -/
theorem turning_load (h : Settles code call P) {g : Nat} {expected : Option (List Nat)}
    (live : expected ≠ none) (E : Exc → Root → Prop) :
    Triple (Turning loose batch enclosing g expected) (load code call g)
      (fun _ => Coherent loose batch true enclosing) E Logged := by
  have closed : Closed code call P False (Turning loose batch enclosing g expected)
      (fun _ _ => Turning loose batch enclosing g expected) Logged := closed_turning h g expected
  have fails (error : Exc) (E : Exc → Root → Prop) :
      Triple (Turning loose batch enclosing g expected) (fail code call g error)
        (fun _ => Coherent loose batch true enclosing) E Logged :=
    triple_pre (fun r given => given.1) (turning_fail error E)
  have discards (error : Exc) (E : Exc → Root → Prop) :
      Triple (Turning loose batch enclosing g expected)
        (discardEffects code call g >>= fun _ => fail code call g error)
        (fun _ => Coherent loose batch true enclosing) E Logged :=
    triple_bind (triple_contained (keeps_discardEffects closed g)) fun _ =>
      triple_pre (fun _ given => given.1) (fails error E)
  unfold load
  refine triple_bind (Q := fun _ => Turning loose batch enclosing g expected)
    (triple_modify _ fun r given => ?_) fun _ => ?_
  · have row := Root.update_self r g fun fiber => { fiber with loadedWith := r.resolved g }
    have computed : (r.update g fun fiber => { fiber with loadedWith := r.resolved g }).computeEpoch
        g = r.computeEpoch g := Root.computeEpoch_impls (by rw [row]) (by rw [row]) rfl
    exact ⟨coherent_update _ (Or.inl rfl) given.1, given.2.deaf, given.2.watching, given.2.settling,
      given.2.allocated, by rw [row]; exact given.2.epoch, by rw [computed]; exact given.2.fresh⟩
  refine triple_bind (Q := fun _ => Turning loose batch enclosing g expected)
    (triple_run fun r given => ?_) fun _ => triple_get_bind fun r given => ?_
  · exact ⟨(), _, transition_deaf code call g _ r given.1.deaf, turning_transition r _ given⟩
  refine triple_pre (fun s same => same ▸ given) ?_
  refine triple_bind (Q := fun result s => Turning loose batch enclosing g expected s ∧
    ∀ error, result = .error error → Ordinary False error) (attempt_raises
      (keeps_callback closed _ (h.configs _ g))) fun result => ?_
  cases result with
  | error error =>
      refine triple_state fun r given => triple_ite (fun _ => ?_) fun aborts => ?_
      · exact triple_pre (fun s same => same ▸ given.1) (fails error E)
      · exact absurd ((given.2 error rfl).resolve_right id) aborts
  | ok _ =>
      refine triple_bind (Q := fun result s => Turning loose batch enclosing g expected s ∧
        ∀ error, result = .error error → Ordinary False error)
        (triple_pre (fun s given => given.1) (attempt_raises (keeps_applyPlugin closed g (fun cb => h.applies cb g) (h.files g))))
        fun result => ?_
      cases result with
      | error error =>
          refine triple_state fun r given => triple_ite (fun _ => ?_) fun aborts => ?_
          · exact triple_pre (fun s same => same ▸ given.1) (discards error E)
          · exact absurd ((given.2 error rfl).resolve_right id) aborts
      | ok _ =>
          refine triple_pre (fun s given => given.1) ?_
          unfold finishLoad
          refine triple_get_bind fun r given => triple_pre (fun s same => same ▸ given) ?_
          refine triple_ite (fun _ => triple_run fun r given => ?_) fun _ => discards _ E
          refine ⟨(), _, transition_deaf code call g _ r given.1.deaf, ?_⟩
          have turned := turning_transition r .active given
          refine coherent_close turned.1 fun member => Or.inr (Or.inr ⟨Or.inr (Or.inl ?_), ?_⟩)
          · refine ⟨by rw [Root.recordTransition_self], ?_⟩
            rw [turned.2.epoch]
            exact live
          · refine (turned.2.fresh member).imp id fun current => Or.inr (Or.inl ?_)
            exact turned.2.epoch.trans current

/-- Between the two parts of a refresh the row may only be out of date. -/
def Between (loose batch : Nat → Prop) (enclosing : List Nat) (g : Nat) (r : Root) : Prop :=
  Coherent (fun u => u = g ∨ loose u) batch true enclosing r ∧
    (g ∈ r.fibers → loose g ∨ ((r.fiber g).state = .unloading ∧ g ∈ r.disposeStack) ∨
      (r.fiber g).Agrees)

/-- A row that is up to date again. -/
theorem between_close {g : Nat} {r : Root}
    (given : Between loose batch enclosing g r)
    (current : (r.fiber g).Agrees → Tracked batch r g) :
    Coherent loose batch true enclosing r :=
  coherent_close given.1 fun member =>
    (given.2 member).imp id (Or.imp id fun agrees => ⟨agrees, current agrees⟩)

theorem between_restart (h : Settles code call P) {g : Nat} (E : Exc → Root → Prop) :
    Triple (Between loose batch enclosing g) (refreshRestart code call g)
      (fun _ => Between loose batch enclosing g) E Logged := by
  have closed := h.coherent (fun u => u = g ∨ loose u) batch true enclosing
    fun wrong => by cases wrong
  -- Stopped means that no load is left; an enclosing `dispose` may still be unloading.
  have stops : Triple (Between loose batch enclosing g) (stopForRestart code call g)
      (fun _ r => Coherent (fun u => u = g ∨ loose u) batch true enclosing r ∧
        (g ∈ r.fibers → loose g ∨ ((r.fiber g).state = .unloading ∧ g ∈ r.disposeStack) ∨
          (r.fiber g).state = .pending)) E Logged := by
    have rests (r : Root) (given : Coherent (fun u => u = g ∨ loose u) batch true enclosing r) :
        Coherent (fun u => u = g ∨ loose u) batch true enclosing (r.recordTransition g .pending) ∧
        (g ∈ r.fibers → loose g ∨ (((r.recordTransition g .pending).fiber g).state = .unloading ∧
          g ∈ r.disposeStack) ∨ ((r.recordTransition g .pending).fiber g).state = .pending) :=
      ⟨coherent_transition .pending given (Or.inl (Or.inl rfl)), fun _ => Or.inr (Or.inr
        (by rw [Root.recordTransition_self]))⟩
    unfold stopForRestart
    refine triple_get_bind fun r given => triple_ite (fun _ => ?_) fun working => ?_
    · refine triple_bind (Q := fun _ => Coherent (fun u => u = g ∨ loose u) batch true enclosing)
        (triple_modify _ ?_) fun _ => triple_run fun r given => ?_
      · rintro s rfl
        exact coherent_update _ (Or.inl rfl) given.1
      · exact ⟨(), _, transition_deaf code call g _ r given.deaf, rests r given⟩
    refine triple_ite (fun _ => ?_) fun idle => ?_
    · refine triple_pre (fun s same => same ▸ given.1) (triple_contained
        (unload_run closed g closed.tidy.deaf (fun r given => ?_) fun r given _ => rests r given))
      exact coherent_transition _ given (Or.inl (Or.inl rfl))
    · refine triple_pure () ?_
      rintro s rfl
      refine ⟨given.1, fun member => ?_⟩
      rcases given.2 member with held | unloading | pending | active | failed
      · exact Or.inl held
      · exact Or.inr (Or.inl unloading)
      · exact Or.inr (Or.inr pending.1)
      · exact absurd (Or.inr (Or.inr active.1)) idle
      · exact absurd failed working
  unfold refreshRestart
  refine triple_get_bind fun r given => triple_ite (fun _ => ?_) fun _ => ?_
  · refine triple_bind (Q := fun _ => Between loose batch enclosing g) (triple_modify _ ?_) fun _ =>
      triple_bind stops fun _ => triple_modify _ fun r given => ?_
    · rintro s rfl
      refine ⟨coherent_update _ (Or.inl rfl) given.1, fun member => ?_⟩
      have before := given.2 member
      unfold Fiber.Agrees at before ⊢
      rw [Root.update_self]
      exact before
    · refine ⟨coherent_update _ (Or.inl rfl) given.1, fun member => ?_⟩
      rcases given.2 member with held | unloading | pending
      · exact Or.inl held
      · exact Or.inr (Or.inl (by rw [Root.update_self]; exact unloading))
      · exact Or.inr (Or.inr (Or.inl (by rw [Root.update_self]; exact ⟨pending, rfl⟩)))
  · exact triple_pure () fun s same => same ▸ given

theorem computeEpoch_epoch (r : Root) (g : Nat) (epoch : Option (List Nat)) :
    (r.update g fun fiber => { fiber with epoch := epoch }).computeEpoch g = r.computeEpoch g :=
  Root.computeEpoch_impls (by rw [Root.update_self]) (by rw [Root.update_self]) rfl

theorem between_refreshEpoch (h : Settles code call P) {g : Nat} (E : Exc → Root → Prop) :
    Triple (fun r => Between loose batch enclosing g r ∧ (r.fiber g).state ≠ .failed)
      (refreshEpoch code call g) (fun _ => Coherent loose batch true enclosing) E Logged := by
  unfold refreshEpoch
  refine triple_get_bind fun r given => triple_ite (fun current => ?_) fun stale => ?_
  · refine triple_pure () ?_
    rintro s rfl
    exact between_close given.1 fun _ => Or.inr (Or.inr (Or.inl current.symm))
  -- From here on the fiber has the epoch it is refreshed to.
  have starts : Turning loose batch enclosing g (r.computeEpoch g)
      (r.update g fun fiber => { fiber with epoch := r.computeEpoch g }) := by
    have coherent := given.1.1
    refine ⟨coherent_update _ (Or.inl rfl) coherent, ?_⟩
    refine ⟨coherent.deaf, coherent.watching, coherent.settling,
      coherent.located g (Or.inl (Or.inl rfl)), by rw [Root.update_self], fun _ => Or.inr ?_⟩
    exact (computeEpoch_epoch r g _).symm
  refine triple_bind (Q := fun _ s =>
    s = r.update g fun fiber => { fiber with epoch := r.computeEpoch g })
    (triple_modify _ fun s same => by subst same; rfl) fun _ => ?_
  have closed : Closed code call P False (Turning loose batch enclosing g (r.computeEpoch g))
      (fun _ _ => Turning loose batch enclosing g (r.computeEpoch g)) Logged :=
    closed_turning h g (r.computeEpoch g)
  refine triple_ite (fun inactive => triple_ite (fun _ => ?_) fun idle => ?_) fun ready => ?_
  · refine triple_pre (fun s same => same ▸ starts) (triple_contained (unload_run closed g
      closed.tidy.deaf (fun r given => turning_transition r _ given) fun s turning _ => ?_))
    have turned := turning_transition s .pending turning
    refine coherent_close turned.1 fun member => Or.inr (Or.inr ⟨Or.inl ⟨?_, ?_⟩, ?_⟩)
    · rw [Root.recordTransition_self]
    · rw [turned.2.epoch]; exact inactive
    · refine (turned.2.fresh member).imp id fun current => Or.inr (Or.inl ?_)
      exact turned.2.epoch.trans current
  · refine triple_pure () ?_
    rintro s rfl
    refine coherent_close starts.1 fun member => ?_
    rcases given.1.2 member with held | unloading | pending | active | failed
    · exact Or.inl held
    · exact Or.inr (Or.inl (by rw [Root.update_self]; exact unloading))
    · exact absurd (inactive.trans pending.2.symm) stale
    · exact absurd active.1 idle
    · exact absurd failed given.2
  · refine triple_ite (fun _ => ?_) fun _ => ?_
    · exact triple_pre (fun s same => same ▸ starts) (turning_load h ready E)
    · refine triple_bind (triple_pre (fun s same => same ▸ starts) (triple_contained
        (keeps_unload closed g fun r state _ given => turning_transition r state given)))
        fun _ => turning_load h ready E

/-- Refreshing a fiber of the batch takes it out of the batch. -/
theorem coherent_refresh (h : Settles code call P) (g : Nat) (E : Exc → Root → Prop) :
    Triple (Coherent loose (fun u => u = g ∨ batch u) true enclosing) (refresh code call g)
      (fun _ => Coherent loose batch true enclosing) E Logged := by
  unfold refresh
  refine triple_get_bind fun r given => triple_ite (fun disposed => ?_) fun alive => ?_
  · refine triple_pure () ?_
    rintro s rfl
    refine { given with rows := fun u member => ?_ }
    by_cases self : u = g
    · subst self
      rcases given.rows u member with held | unloading | ⟨agrees, -⟩
      · exact Or.inl held
      · exact Or.inr (Or.inl unloading)
      · unfold Fiber.Agrees at agrees
        rw [disposed] at agrees
        simp at agrees
    · exact row_weaken (given.rows u member) (fun _ held => held) fun waits =>
        Or.inl (waits.resolve_left self)
  have known : g ≤ r.uid := by
    by_contra above
    exact alive (given.unmade g (by omega))
  have between : Between loose batch enclosing g r := by
    refine ⟨coherent_loosen given (fun u held => Or.inr held) ?_ ?_, fun member => ?_⟩
    · rintro u (rfl | held)
      · exact known
      · exact given.located u (Or.inl held)
    · rintro u (rfl | waits)
      · exact Or.inr (Or.inl rfl)
      · exact Or.inl waits
    · exact (given.rows g member).imp id (Or.imp id And.left)
  refine triple_bind (triple_pre (fun s same => same ▸ between) (between_restart h E)) fun _ => ?_
  refine triple_get_bind fun r given => triple_ite (fun failed => ?_) fun working => ?_
  · refine triple_pure () ?_
    rintro s rfl
    exact between_close given fun _ => Or.inr (Or.inr (Or.inr failed))
  · exact triple_pre (fun s same => same ▸ ⟨given, working⟩) (between_refreshEpoch h E)

theorem coherent_runBatch (h : Settles code call P) (rest : List Nat) (E : Exc → Root → Prop) :
    Triple (Coherent loose (· ∈ rest) true enclosing) (runBatch code call rest)
      (fun _ => Coherent loose nobody true enclosing) E Logged := by
  induction rest with
  | nil =>
      refine triple_pure () fun r given => coherent_loosen given (fun _ held => held)
        (fun u held => given.located u (Or.inl held)) fun u waits => ?_
      cases waits
  | cons f rest ih =>
      have refreshed : Triple (Coherent loose (· ∈ f :: rest) true enclosing) (refresh code call f)
          (fun _ => Coherent loose (· ∈ rest) true enclosing) (fun _ _ => False) Logged := by
        refine triple_pre (fun r given => coherent_loosen given (fun _ held => held)
          (fun u held => given.located u (Or.inl held)) fun u waits => ?_) (coherent_refresh h f _)
        exact Or.inl (List.mem_cons.mp waits)
      unfold runBatch
      refine triple_bind (Q := fun result r => Coherent loose (· ∈ rest) true enclosing r ∧
        ∀ error, result = .error error → False) ?_ fun result => ?_
      · refine triple_attempt (triple_post refreshed ?_ fun _ _ wrong => wrong.elim)
        exact fun value r given => ⟨given, fun error wrong => by cases wrong⟩
      · cases result with
        | ok _ => exact triple_pre (fun r given => given.1) ih
        | error error => exact fun r given => (given.2 error rfl).elim

theorem coherent_settleLoop (h : Settles code call P) (rounds : Nat) :
    Triple (Coherent nobody nobody true enclosing) (settleLoop code call rounds)
      (fun _ r => Coherent nobody nobody true enclosing r ∧ r.pending = [])
      (fun error r => Coherent nobody nobody true enclosing r ∧ Ordinary False error) Logged := by
  unfold settleLoop
  refine triple_get_bind fun r given => triple_ite (fun empty => ?_) fun _ => ?_
  · refine triple_pure () ?_
    rintro s rfl
    exact ⟨given, empty⟩
  refine triple_ite (fun _ => triple_raise _ fun s same => ⟨same ▸ given, Or.inl rfl⟩) fun _ => ?_
  refine triple_bind (Q := fun _ => Coherent nobody (· ∈ r.pending.eraseDups) true enclosing)
    (triple_modify _ ?_) fun _ => triple_bind (coherent_runBatch h _ _) fun _ =>
    triple_bind (h.loop enclosing (rounds + 1)) fun _ => triple_pure () fun r given => given
  rintro s rfl
  refine { given with rows := fun u member => ?_ }
  rcases given.rows u member with held | unloading | ⟨agrees, queued | waits | current⟩
  · exact Or.inl held
  · exact Or.inr (Or.inl unloading)
  · exact Or.inr (Or.inr ⟨agrees, Or.inr (Or.inl (List.mem_eraseDups.mpr queued))⟩)
  · exact waits.elim
  · exact Or.inr (Or.inr ⟨agrees, Or.inr (Or.inr current)⟩)

/-- With nothing queued, what the invariant says of a row is what it is at rest. -/
theorem view_atRest {r : Root} {u : Nat} (row : Standing nobody nobody r u) (drained : r.pending = []) :
    (r.view u).AtRest r.disposeStack := by
  rcases row with held | ⟨unloading, disposing⟩ | ⟨agrees, queued | waits | current⟩
  · exact held.elim
  · have state : (r.view u).state = .unloading := unloading
    refine ⟨Or.inr (Or.inr (Or.inr ⟨state, disposing⟩)), fun active => ?_, fun pending => ?_⟩
    · rw [state] at active; cases active
    · rw [state] at pending; cases pending
  · rw [drained] at queued; cases queued
  · exact waits.elim
  · rcases agrees with ⟨pending, none⟩ | ⟨active, live⟩ | failed
    · have state : (r.view u).state = .pending := pending
      refine ⟨Or.inl state, fun active => ?_, fun _ => ?_⟩
      · rw [state] at active; cases active
      · rcases current with current | failed
        · exact current.symm.trans none
        · rw [pending] at failed; cases failed
    · have state : (r.view u).state = .active := active
      refine ⟨Or.inr (Or.inl state), fun _ => ?_, fun pending => ?_⟩
      · rcases current with current | failed
        · obtain ⟨serials, epoch⟩ := Option.ne_none_iff_exists'.mp live
          obtain ⟨found, required, listed⟩ :=
            Root.computeEpoch_some r u serials (current.symm.trans epoch)
          exact ⟨current, found, required, epoch.trans (congrArg some listed)⟩
        · rw [active] at failed; cases failed
      · rw [state] at pending; cases pending
    · have state : (r.view u).state = .failed := failed
      refine ⟨Or.inr (Or.inr (Or.inl state)), fun active => ?_, fun pending => ?_⟩
      · rw [state] at active; cases active
      · rw [state] at pending; cases pending

theorem coherent_settle (h : Settles code call P)
    (idle : running = false → loose = nobody ∧ batch = nobody) :
    Keeps (Coherent loose batch running enclosing) (Ordinary False) Logged (settle call) := by
  unfold settle
  refine triple_get_bind fun r given => triple_ite (fun _ => ?_) fun outermost => ?_
  · exact triple_pure () fun s same => same ▸ given
  have resting : running = false := by
    rw [← given.settling]
    simpa using outermost
  obtain ⟨rfl, rfl⟩ := idle resting
  subst resting
  refine triple_bind (Q := fun _ => Coherent nobody nobody true enclosing)
    (triple_modify _ ?_) fun _ => ?_
  · rintro s rfl
    exact { given with settling := rfl }
  refine triple_bind
    (Q := fun _ r => Coherent nobody nobody false enclosing r ∧ r.pending = []) ?_ fun _ => ?_
  · refine triple_andFinally (Q := fun _ r =>
      Coherent nobody nobody true enclosing r ∧ r.pending = []) (E := fun error r =>
      Coherent nobody nobody true enclosing r ∧ Ordinary False error)
      (triple_bind (h.loop enclosing 0) fun _ => triple_pure () fun r given => given) ?_ ?_
    · exact fun _ => triple_modify _ fun r given =>
        ⟨{ given.1 with settling := rfl }, given.2⟩
    · exact fun error => triple_modify _ fun r given =>
        ⟨{ given.1 with settling := rfl }, given.2⟩
  · refine triple_modify _ fun r given => { given.1 with log := fun entry member => ?_ }
    rcases List.mem_append.mp member with before | last
    · exact given.1.log entry before
    · obtain rfl := List.mem_singleton.mp last
      intro v shown
      obtain ⟨u, inside, rfl⟩ := List.mem_map.mp shown
      exact view_atRest (given.1.rows u inside) given.2

end Procedures

/-- What a plugin's callbacks keep to: operations in `P`, and what they raise. -/
structure Code.All (code : Code) (P : Op → Prop) (R : Exc → Prop) : Prop where
  apply : ∀ cb f calls, (code.apply cb f calls).All P R
  resolveConfig : ∀ cb f calls, (code.resolveConfig cb f calls).All P R
  disposer : ∀ cb f calls, (code.disposer cb f calls).All P R

/-- The calls of every run keep what `Settles` says, by induction on the fuel. -/
theorem exec_settles {code : Code} {P : Op → Prop} (plugins : code.All P (Ordinary False))
    (files : ∀ f disposer, P (.effect f disposer)) (settle : P .settle)
    (dispose : ∀ f, P (.dispose f))
    (silent : ∀ f event listener order, ¬ P (.on f event listener order)) (fuel : Nat) :
    Settles code (exec code fuel) P := by
  have held (fuel : Nat) (g : Nat) (expected : Option (List Nat)) :
      Closed code (exec code fuel) P False (Held g expected) (fun _ _ => Held g expected)
        fun _ => True :=
    frozen_exec (held_frozen P g expected) plugins.disposer settle dispose silent
      (fun _ _ => trivial) (fun _ _ _ _ => trivial) fuel
  induction fuel with
  | zero =>
      refine ⟨plugins.apply, plugins.resolveConfig, files, fun loose batch running enclosing _ => ?_,
        held 0, fun _ _ r given => given.log⟩
      exact ⟨stable_tidy (coherent_stable P), fun _ _ r given => given.log,
        fun _ _ _ _ r given => given.log, plugins.disposer, settle, dispose, silent⟩
  | succ fuel ih =>
      refine ⟨plugins.apply, plugins.resolveConfig, files,
        fun loose batch running enclosing idle => ?_, held (fuel + 1), fun enclosing rounds => ?_⟩
      · have closed := ih.coherent loose batch running enclosing idle
        have calls := keeps_step closed (coherent_dispose ih idle) (coherent_settle ih idle)
        exact ⟨stable_tidy (coherent_stable P), calls, fun _ _ _ _ => calls (.op .settle) settle,
          plugins.disposer, settle, dispose, silent⟩
      · exact triple_bind (coherent_settleLoop ih rounds) fun _ => triple_pure 0 fun r given => given

/-! ### The runs of a host -/

/-- Everything but subscribing to the event bus. -/
def Op.Driving (o : Op) : Prop := ∀ f event listener order, o ≠ .on f event listener order

theorem coherent_new (rounds : Nat) : Coherent nobody nobody false [] (Root.new rounds) where
  deaf := rfl
  watching := rfl
  settling := rfl
  stack := rfl
  log := fun entry member => by cases member
  allocated := fun u member => by cases member
  unmade := fun u _ => rfl
  located := fun u held => held.elim False.elim fun member => by cases member
  rows := fun u member => by cases member

/-- Whenever an outermost `settle()` returned, every row was at rest. -/
theorem settle_reaches_fixed_point (code : Code) (host : Prog) (fuel rounds : Nat)
    (plugins : code.All Op.Driving fun error => error.isException = true)
    (driven : host.All Op.Driving fun _ => True) :
    Logged (drive code fuel host (Root.new rounds)).2 := by
  have ordinary : code.All Op.Driving (Ordinary False) :=
    ⟨fun cb f n => all_weaken _ (plugins.apply cb f n) fun _ => Or.inl,
      fun cb f n => all_weaken _ (plugins.resolveConfig cb f n) fun _ => Or.inl,
      fun cb f n => all_weaken _ (plugins.disposer cb f n) fun _ => Or.inl⟩
  have settles : Settles code (exec code fuel) Op.Driving :=
    exec_settles ordinary (fun _ _ _ _ _ _ same => by cases same)
      (fun _ _ _ _ same => by cases same) (fun _ _ _ _ _ same => by cases same)
      (fun f event listener order driving => driving f event listener order rfl) fuel
  have closed := settles.coherent nobody nobody false [] fun _ => ⟨rfl, rfl⟩
  have kept := keeps_runProg (keeps_op closed) host (fun _ => True) driven (Root.new rounds)
    (coherent_new rounds)
  unfold drive
  cases run : runProg (exec code fuel) host (Root.new rounds) with
  | mk outcome r =>
      rw [run] at kept
      cases outcome with
      | ret value => exact kept.log
      | raised error => exact kept.1.log
      | diverged => exact kept

/-! A row that publishes a service, one that injects it, and a host that disposes
of the first. -/

def swapCode : Code where
  apply := fun cb f _ =>
    match cb with
    | 0 => .sequence [.provide f "store" none true]
    | _ => .ret none
  resolveConfig := fun _ _ _ => .ret none
  disposer := fun _ _ _ => .ret none
  listener := fun _ _ _ => .ret none

def swapHost : Prog := .sequence [
  .mount ⟨[], [], ["store"], 0, 1⟩ "provider" [] none none,
  .mount ⟨["store"], [], [], 1, 1⟩ "consumer" [] none none,
  .settle,
  .dispose 1]

theorem settle_reaches_fixed_point_swap :
    Logged (drive swapCode 20 swapHost (Root.new 64)).2 := by
  apply settle_reaches_fixed_point swapCode swapHost 20 64
  · refine ⟨fun cb f n => ?_, fun _ _ _ => trivial, fun _ _ _ => trivial⟩
    unfold swapCode
    dsimp only
    split
    · refine Prog.all_sequence _ fun o member => ?_
      obtain rfl := List.mem_singleton.mp member
      exact fun _ _ _ _ same => by cases same
    · trivial
  · refine Prog.all_sequence _ fun o member f event listener order same => ?_
    subst same
    simp at member

set_option maxRecDepth 10000 in
/-- Inside `dispose` the withdrawal settles the tree while the row that is being
disposed is still there, and unloading. -/
theorem settle_leaves_unloading_row :
    (drive swapCode 20 swapHost (Root.new 64)).1 = .ret none ∧
    ((drive swapCode 20 swapHost (Root.new 64)).2.settledLog.map fun entry =>
      (entry.disposing, entry.fibers.map fun v => (v.uid, v.state))) =
      [([], [(1, .active), (2, .active)]), ([1], [(1, .unloading), (2, .pending)])] := by
  decide

end AtrexAgent.Core
