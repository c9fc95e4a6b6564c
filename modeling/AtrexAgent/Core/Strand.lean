import AtrexAgent.Core.Conduct

/-! An abort strands no fiber. What is mounted is followed by its state and epoch: code that
is called changes those of a fiber only by disposing it, so a refresh knows where its own
fiber stands whatever its callbacks do. -/

namespace AtrexAgent.Core

open AtrexAgent.Computation
open AtrexAgent.Computation.Comp

/-- Neither loading nor unloading, and with a live epoch only if it is active. -/
def Fiber.Retryable (x : Fiber) : Prop :=
  x.state ≠ .loading ∧ x.state ≠ .unloading ∧ (x.epoch ≠ none → x.state = .active)

def Fiber.Moving (x : Fiber) : Bool := x.state = .loading ∨ x.state = .unloading

/-- A disposer is aborted only while what loads or unloads is being disposed. -/
def mildAborts : Condition := fun c r _ _ =>
  match c with
  | .unwindLoop _ _ (some _) => r.fibers.all fun u => u ∈ r.disposeStack ∨ ¬ (r.fiber u).Moving
  | _ => true

/-- What `mildAborts` asks of a call. -/
def Mild : Call → Root → Prop
  | .unwindLoop _ _ (some _), r => ∀ u ∈ r.fibers, u ∉ r.disposeStack → (r.fiber u).Moving = false
  | _, _ => True

theorem mild_of_mildAborts (c : Call) (r : Root) (outcome : Outcome Exc Nat) (r' : Root)
    (meets : mildAborts c r outcome r' = true) : Mild c r := by
  cases c with
  | op o => trivial
  | settleLoop rounds => trivial
  | unwindLoop f failures abort =>
      cases abort with
      | none => trivial
      | some error =>
          intro u member outside
          have each := List.all_eq_true.mp meets u member
          rcases of_decide_eq_true each with inside | still
          · exact absurd inside outside
          · exact Bool.eq_false_of_not_eq_true still

/-- What is asked of each mounted fiber's state and epoch. -/
abbrev Places := Nat → FiberState → Option (List Nat) → Prop

/-- The mounted fibers that are not being disposed are where `places` says. -/
structure Placed (places : Places) (least : Nat) (running : Bool) (enclosing : List Nat) (r : Root) :
    Prop where
  settling : r.settling = running
  stack : r.disposeStack = enclosing
  known : least ≤ r.uid
  allocated : ∀ u ∈ r.fibers, u ≤ r.uid
  located : ∀ u ∈ enclosing, u ≤ r.uid
  unmade : ∀ u, r.uid < u → (r.fiber u).state = .disposed
  fresh : ∀ u, r.uid < u → places u .pending none
  rows : ∀ u ∈ r.fibers, u ∉ enclosing → places u (r.fiber u).state (r.fiber u).epoch

/-- Those places in which a fiber neither loads nor unloads. -/
def Places.still (places : Places) : Places := fun u state epoch =>
  places u state epoch ∧ state ≠ .loading ∧ state ≠ .unloading

theorem still_still (places : Places) : places.still.still = places.still := by
  funext u state epoch
  exact propext ⟨fun given => given.1, fun given => ⟨given, given.2⟩⟩

def retryable : Places := fun _ state epoch =>
  state ≠ .loading ∧ state ≠ .unloading ∧ (epoch ≠ none → state = .active)

theorem retryable_still : retryable.still = retryable := by
  funext u state epoch
  exact propext ⟨fun given => given.1, fun given => ⟨given, given.1, given.2.1⟩⟩

/-- Where `g` is, while the other fibers are retryable. -/
def pinned (g : Nat) (place : FiberState → Option (List Nat) → Prop) : Places := fun u state epoch =>
  if u = g then place state epoch else retryable u state epoch

section Changes

variable {places places' : Places} {least : Nat} {running : Bool} {enclosing : List Nat}
  {r r' : Root}

/-- A change that leaves alone what `Placed` speaks of. -/
theorem placed_same (given : Placed places least running enclosing r)
    (fibers : r'.fibers = r.fibers) (uid : r'.uid = r.uid) (settling : r'.settling = r.settling)
    (stack : r'.disposeStack = r.disposeStack)
    (state : ∀ u, (r'.fiber u).state = (r.fiber u).state)
    (epoch : ∀ u, (r'.fiber u).epoch = (r.fiber u).epoch) :
    Placed places least running enclosing r' where
  settling := settling.trans given.settling
  stack := stack.trans given.stack
  known := by rw [uid]; exact given.known
  allocated := by rw [fibers, uid]; exact given.allocated
  located := by rw [uid]; exact given.located
  unmade := fun u above => by rw [state]; exact given.unmade u (uid ▸ above)
  fresh := by rw [uid]; exact given.fresh
  rows := fun u member outside => by
    rw [state, epoch]
    exact given.rows u (fibers ▸ member) outside

theorem placed_update (given : Placed places least running enclosing r) (f : Nat)
    (change : Fiber → Fiber) (state : ∀ x, (change x).state = x.state)
    (epoch : ∀ x, (change x).epoch = x.epoch) :
    Placed places least running enclosing (r.update f change) := by
  refine placed_same given rfl rfl rfl rfl ?_ ?_
  · intro u
    rw [Root.update_fiber]
    split
    · exact state _
    · rfl
  · intro u
    rw [Root.update_fiber]
    split
    · exact epoch _
    · rfl

theorem placed_wake (given : Placed places least running enclosing r) (name : String)
    (serial : Nat) (impls : Realm → String → Option Impl) :
    Placed places least running enclosing ((r.republish serial impls).wake name) := by
  unfold Root.wake
  split
  · exact placed_same given rfl rfl rfl rfl (fun _ => rfl) fun _ => rfl
  · exact placed_same given rfl rfl rfl rfl (fun _ => rfl) fun _ => rfl

theorem placed_mounted (given : Placed places least running enclosing r) (declaration : Declaration)
    (entryId : String) (isolated : List String) (parent : Option Nat) (realm : Option Realm) :
    Placed places least running enclosing
      (r.mounted declaration entryId isolated parent realm) := by
  obtain ⟨fibers, -, uid, -, -, -, settling, -, stack, -⟩ :=
    Root.mounted_fields r declaration entryId isolated parent realm
  have old (u : Nat) (below : u ≤ r.uid) :
      ((r.mounted declaration entryId isolated parent realm).fiber u).state = (r.fiber u).state ∧
      ((r.mounted declaration entryId isolated parent realm).fiber u).epoch = (r.fiber u).epoch := by
    obtain ⟨children, same⟩ :=
      Root.mounted_other r declaration entryId isolated parent realm u (by omega)
    rw [same]
    exact ⟨rfl, rfl⟩
  constructor
  · exact settling.trans given.settling
  · exact stack.trans given.stack
  · rw [uid]; exact Nat.le_succ_of_le given.known
  · intro u member
    rw [fibers, List.mem_append, List.mem_singleton] at member
    rw [uid]
    rcases member with inside | rfl
    · exact Nat.le_succ_of_le (given.allocated u inside)
    · exact Nat.le_refl _
  · intro u member
    rw [uid]
    exact Nat.le_succ_of_le (given.located u member)
  · intro u above
    rw [uid] at above
    obtain ⟨children, same⟩ :=
      Root.mounted_other r declaration entryId isolated parent realm u (by omega)
    rw [same]
    exact given.unmade u (by omega)
  · intro u above
    rw [uid] at above
    exact given.fresh u (by omega)
  · intro u member outside
    rw [fibers, List.mem_append, List.mem_singleton] at member
    rcases member with inside | rfl
    · obtain ⟨state, epoch⟩ := old u (given.allocated u inside)
      rw [state, epoch]
      exact given.rows u inside outside
    · obtain ⟨state, epoch⟩ := Root.mounted_self r declaration entryId isolated parent realm
      rw [state, epoch]
      exact given.fresh _ (Nat.lt_succ_self _)

theorem placed_weaken (given : Placed places least running enclosing r)
    (wider : ∀ u state epoch, places u state epoch → places' u state epoch) :
    Placed places' least running enclosing r :=
  { given with
    fresh := fun u above => wider u _ _ (given.fresh u above)
    rows := fun u member outside => wider u _ _ (given.rows u member outside) }

/-- A transition, of a fiber that has a place after it. -/
theorem placed_transition (given : Placed places least running enclosing r) (f : Nat)
    (state : FiberState) (below : f ≤ r.uid)
    (others : ∀ u st epoch, u ≠ f → places u st epoch → places' u st epoch)
    (here : f ∈ r.fibers → f ∉ enclosing → places f (r.fiber f).state (r.fiber f).epoch →
      places' f state (r.fiber f).epoch) :
    Placed places' least running enclosing (r.recordTransition f state) where
  settling := given.settling
  stack := given.stack
  known := given.known
  allocated := given.allocated
  located := given.located
  unmade := fun u above => by
    have above : r.uid < u := above
    rw [Root.recordTransition_other r f u state (by omega)]
    exact given.unmade u above
  fresh := fun u above => by
    have above : r.uid < u := above
    exact others u _ _ (by omega) (given.fresh u above)
  rows := fun u member outside => by
    by_cases self : u = f
    · subst self
      rw [Root.recordTransition_self]
      exact here member outside (given.rows u member outside)
    · rw [Root.recordTransition_other r f u state self]
      exact others u _ _ self (given.rows u member outside)

/-- A new epoch, of a fiber that has a place with it. -/
theorem placed_epoch (given : Placed places least running enclosing r) (f : Nat)
    (epoch : Option (List Nat)) (below : f ≤ r.uid)
    (others : ∀ u st epoch, u ≠ f → places u st epoch → places' u st epoch)
    (here : f ∈ r.fibers → f ∉ enclosing → places f (r.fiber f).state (r.fiber f).epoch →
      places' f (r.fiber f).state epoch) :
    Placed places' least running enclosing (r.update f fun fiber => { fiber with epoch }) where
  settling := given.settling
  stack := given.stack
  known := given.known
  allocated := given.allocated
  located := given.located
  unmade := fun u above => by
    have above : r.uid < u := above
    rw [Root.update_other r f u _ (by omega)]
    exact given.unmade u above
  fresh := fun u above => by
    have above : r.uid < u := above
    exact others u _ _ (by omega) (given.fresh u above)
  rows := fun u member outside => by
    by_cases self : u = f
    · subst self
      rw [Root.update_self]
      exact here member outside (given.rows u member outside)
    · rw [Root.update_other r f u _ self]
      exact others u _ _ self (given.rows u member outside)

theorem placed_upkeep (G : Call → Root → Prop) : Upkeep G (Placed places least running enclosing)
    fun _ _ => Placed places least running enclosing where
  recorded := fun _ _ _ _ _ _ given => placed_same given rfl rfl rfl rfl (fun _ => rfl) fun _ => rfl
  enqueued := fun r f given => by
    have requested := placed_update given f (fun fiber => { fiber with restartRequested := true })
      (fun _ => rfl) fun _ => rfl
    exact placed_same requested rfl rfl rfl rfl (fun _ => rfl) fun _ => rfl
  flagged := fun r f _ given => placed_update given f _ (fun _ => rfl) fun _ => rfl
  cleared := fun r f given => placed_update given f _ (fun _ => rfl) fun _ => rfl
  noted := fun r f _ _ given => placed_update given f _ (fun _ => rfl) fun _ => rfl
  offered := fun _ _ _ _ given => given
  muted := fun _ _ _ _ _ _ given => given
  listened := fun _ _ _ _ _ _ given => placed_same given rfl rfl rfl rfl (fun _ => rfl) fun _ => rfl
  filed := fun r f undo given _ => by
    have pushed := placed_update given f
      (fun fiber => { fiber with effects := ⟨r.effectIds + 1, undo⟩ :: fiber.effects })
      (fun _ => rfl) fun _ => rfl
    exact placed_same pushed rfl rfl rfl rfl (fun _ => rfl) fun _ => rfl
  popped := fun r f _ _ _ given _ => placed_update given f _ (fun _ => rfl) fun _ => rfl
  called := fun _ _ _ given => given
  gone := fun _ _ _ _ _ given _ => given
  withdrawn := fun _ _ _ name _ given _ => placed_wake given name _ _
  unlistened := fun _ _ _ given => placed_same given rfl rfl rfl rfl (fun _ => rfl) fun _ => rfl
  registered := fun _ _ name _ _ _ given _ _ => placed_wake given name _ _
  mounted := fun _ declaration entryId isolated parent realm given _ _ =>
    placed_mounted given declaration entryId isolated parent realm

end Changes

/-! ### Refreshing -/

/-- The calls of a run keep every fiber that is not being disposed in its place. Outside of
a settle, that is to be retryable. -/
structure Keeping (code : Code) (call : Call → M Nat) : Prop where
  conduct : ∀ places least running enclosing, (running = false → places = retryable ∧ least = 0) →
    Conduct code call Mild (Placed places least running enclosing)
      (Placed places.still least running enclosing) fun _ _ => Placed places least running enclosing
  loop : ∀ enclosing rounds, Triple (Placed retryable 0 true enclosing) (call (.settleLoop rounds))
    (fun _ => Placed retryable 0 true enclosing) (fun _ => Placed retryable 0 true enclosing) Anywhere

section Procedures

variable {code : Code} {call : Call → M Nat} {places : Places} {least : Nat} {running : Bool}
  {enclosing : List Nat} {g : Nat}

theorem keeping_late (h : Keeping code call)
    (idle : running = false → places = retryable ∧ least = 0) :
    Conduct code call Mild (Placed places.still least running enclosing)
      (Placed places.still least running enclosing)
      fun _ _ => Placed places.still least running enclosing := by
  have late := h.conduct places.still least running enclosing fun resting => by
    obtain ⟨same, zero⟩ := idle resting
    rw [same, retryable_still]
    exact ⟨rfl, zero⟩
  rw [still_still] at late
  exact late

theorem placed_of_still {r : Root} (given : Placed places.still least running enclosing r) :
    Placed places least running enclosing r :=
  placed_weaken given fun _ _ _ still => still.1

theorem keeping_discardEffects (h : Keeping code call)
    (idle : running = false → places = retryable ∧ least = 0) (f : Nat) :
    Triple (Placed places least running enclosing) (discardEffects code call f)
      (fun _ => Placed places least running enclosing)
      (fun error r => Placed places least running enclosing r ∧ error.Bare ∧
        Placed places.still least running enclosing r) Anywhere :=
  conduct_discardEffects (h.conduct _ _ _ _ idle) (keeping_late h idle) (h.conduct _ _ _ _ idle)
    (keeping_late h idle) f (fun _ => placed_of_still) (fun _ given _ => given)
    (fun _ given _ => given) fun _ => placed_of_still

/-- After an abort amid its own transition, `g` is not mounted any more, or being disposed. -/
theorem placed_torn {place : FiberState → Option (List Nat) → Prop} {r : Root}
    (moving : ∀ state epoch, place state epoch → state = .loading ∨ state = .unloading)
    (torn : Placed (pinned g place).still g true enclosing r) : Placed retryable g true enclosing r :=
  { torn with
    fresh := fun _ _ => ⟨by decide, by decide, fun live => absurd rfl live⟩
    rows := fun u member outside => by
      obtain ⟨here, quiet⟩ := torn.rows u member outside
      unfold pinned at here
      split at here
      · rcases moving _ _ here with loading | unloading
        · exact absurd loading quiet.1
        · exact absurd unloading quiet.2
      · exact here }

theorem placed_pin {place : FiberState → Option (List Nat) → Prop} {r : Root}
    (given : Placed retryable least true enclosing r) (below : g ≤ r.uid)
    (here : retryable g (r.fiber g).state (r.fiber g).epoch →
      place (r.fiber g).state (r.fiber g).epoch) : Placed (pinned g place) g true enclosing r :=
  { given with
    known := below
    fresh := fun u above => by
      unfold pinned
      rw [if_neg (by omega)]
      exact given.fresh u above
    rows := fun u member outside => by
      unfold pinned
      split
      · rename_i self
        subst self
        exact here (given.rows u member outside)
      · exact given.rows u member outside }

theorem placed_unpin {place : FiberState → Option (List Nat) → Prop} {r : Root}
    (given : Placed (pinned g place) g true enclosing r)
    (here : ∀ state epoch, place state epoch → retryable g state epoch) :
    Placed retryable g true enclosing r :=
  { given with
    fresh := fun _ _ => ⟨by decide, by decide, fun live => absurd rfl live⟩
    rows := fun u member outside => by
      have holds := given.rows u member outside
      unfold pinned at holds
      split at holds
      · rename_i self
        subst self
        exact here _ _ holds
      · exact holds }

theorem pinned_others {place place' : FiberState → Option (List Nat) → Prop} (u : Nat)
    (state : FiberState) (epoch : Option (List Nat)) (other : u ≠ g)
    (given : pinned g place u state epoch) : pinned g place' u state epoch := by
  unfold pinned at given ⊢
  rw [if_neg other] at given ⊢
  exact given

theorem pinned_self {place : FiberState → Option (List Nat) → Prop} (state : FiberState)
    (epoch : Option (List Nat)) : pinned g place g state epoch ↔ place state epoch := by
  unfold pinned
  rw [if_pos rfl]

/-- The place of `g` changes with a transition of its own. -/
theorem pin_transition {place place' : FiberState → Option (List Nat) → Prop} {r : Root}
    (state : FiberState) (given : Placed (pinned g place) g true enclosing r)
    (here : ∀ st epoch, place st epoch → place' state epoch) :
    Placed (pinned g place') g true enclosing (r.recordTransition g state) :=
  placed_transition given g state given.known (fun u st epoch => pinned_others u st epoch)
    fun _ _ holds => (pinned_self _ _).mpr (here _ _ ((pinned_self _ _).mp holds))

theorem pin_epoch {place place' : FiberState → Option (List Nat) → Prop} {r : Root}
    (epoch : Option (List Nat)) (given : Placed (pinned g place) g true enclosing r)
    (here : ∀ st old, place st old → place' st epoch) :
    Placed (pinned g place') g true enclosing (r.update g fun fiber => { fiber with epoch }) :=
  placed_epoch given g epoch given.known (fun u st epoch => pinned_others u st epoch)
    fun _ _ holds => (pinned_self _ _).mpr (here _ _ ((pinned_self _ _).mp holds))

abbrev At (g : Nat) (enclosing : List Nat) (place : FiberState → Option (List Nat) → Prop) :
    Root → Prop := Placed (pinned g place) g true enclosing

theorem strand_conduct (g : Nat) (enclosing : List Nat) (h : Keeping code call) (place : FiberState → Option (List Nat) → Prop) :
    Conduct code call Mild (At g enclosing place)
      (Placed (pinned g place).still g true enclosing) fun _ _ => At g enclosing place :=
  h.conduct _ _ _ _ fun wrong => by cases wrong

theorem strand_unload (h : Keeping code call) (e : Option (List Nat))
    {place : FiberState → Option (List Nat) → Prop} (same : ∀ st epoch, place st epoch → epoch = e) :
    Triple (At g enclosing place) (unload code call g)
      (fun _ => At g enclosing fun st epoch => st = .pending ∧ epoch = e)
      (fun _ => Placed retryable g true enclosing) Anywhere := by
  have inner := strand_conduct g enclosing h
    fun st epoch => st = .unloading ∧ epoch = e
  have outer := strand_conduct g enclosing h
    fun st epoch => st = .pending ∧ epoch = e
  unfold unload
  refine triple_bind (triple_post (conduct_transition inner g .unloading fun r given =>
    pin_transition .unloading given fun st epoch holds => ⟨rfl, same st epoch holds⟩)
    (fun _ _ given => given) fun _ _ wrong => wrong.elim) fun _ => ?_
  refine triple_bind (triple_post (keeping_discardEffects h (fun wrong => by cases wrong) g) (fun _ _ given => given)
    fun _ _ raised => placed_torn (fun st epoch holds => Or.inr holds.1) raised.2.2) fun _ => ?_
  exact triple_post (conduct_transition outer g .pending fun r given =>
    pin_transition .pending given fun st epoch holds => ⟨rfl, holds.2⟩)
    (fun _ _ given => given) fun _ _ wrong => wrong.elim

theorem strand_fail (h : Keeping code call) {place : FiberState → Option (List Nat) → Prop}
    (error : Exc) : Triple (At g enclosing place) (fail code call g error)
      (fun _ => Placed retryable g true enclosing) (fun _ => Placed retryable g true enclosing)
      Anywhere := by
  have after := strand_conduct g enclosing h
    fun st epoch => st = .failed ∧ epoch = none
  refine triple_post (conduct_fail after g error fun r given => ?_) ?_ fun _ _ wrong => wrong.elim
  · have noted := placed_update given g (fun fiber => { fiber with error := some error })
      (fun _ => rfl) fun _ => rfl
    have halted : Placed (pinned g fun _ epoch => epoch = none) g true enclosing _ :=
      pin_epoch none noted fun _ _ _ => rfl
    have failed : Placed (pinned g fun st epoch => st = .failed ∧ epoch = none) g true enclosing _ :=
      pin_transition .failed halted fun _ _ none => ⟨rfl, none⟩
    refine placed_same failed rfl rfl rfl rfl ?_ ?_
    · intro u
      simp only [Root.recordTransition_fiber, Root.update_fiber]
      split <;> rfl
    · intro u
      simp only [Root.recordTransition_fiber, Root.update_fiber]
      split <;> rfl
  · exact fun _ r given => placed_unpin given fun st epoch holds => by
      obtain ⟨rfl, rfl⟩ := holds
      exact ⟨by decide, by decide, fun live => absurd rfl live⟩

theorem moving_loading {e : Option (List Nat)} (state : FiberState) (epoch : Option (List Nat))
    (place : state = .loading ∧ epoch = e) : state = .loading ∨ state = .unloading := Or.inl place.1

/-- Whatever is to be done after it, discarding amid a load only ends in an abort where the
fiber is gone. -/
theorem strand_discard (h : Keeping code call) (e : Option (List Nat)) {next : M Unit}
    (after : Triple (At g enclosing fun st epoch => st = .loading ∧ epoch = e) next
      (fun _ => Placed retryable g true enclosing) (fun _ => Placed retryable g true enclosing)
      Anywhere) :
    Triple (At g enclosing fun st epoch => st = .loading ∧ epoch = e)
      (discardEffects code call g >>= fun _ => next)
      (fun _ => Placed retryable g true enclosing) (fun _ => Placed retryable g true enclosing)
      Anywhere := by
  refine triple_bind (triple_post (keeping_discardEffects h (fun wrong => by cases wrong) g)
    (fun _ _ given => given) ?_) fun _ => after
  exact fun _ _ raised => placed_torn moving_loading raised.2.2

theorem strand_abandon (h : Keeping code call) (e : Option (List Nat)) (error : Exc) :
    Triple (At g enclosing fun st epoch => st = .loading ∧ epoch = e) (abandon code call g error)
      (fun _ => Placed retryable g true enclosing) (fun _ => Placed retryable g true enclosing)
      Anywhere := by
  have after := strand_conduct g enclosing h
    fun st epoch => st = .pending ∧ epoch = none
  unfold abandon
  refine strand_discard h e (triple_bind (Q := fun _ => At g enclosing fun st epoch =>
    st = .loading ∧ epoch = none) (triple_modify _ fun r given =>
      pin_epoch none given fun _ _ holds => ⟨holds.1, rfl⟩) fun _ => ?_)
  refine triple_bind (triple_post (conduct_transition after g .pending fun r given =>
    pin_transition .pending given fun _ _ holds => ⟨rfl, holds.2⟩) (fun _ _ given => given)
    fun _ _ wrong => wrong.elim) fun _ => triple_raise error fun r given => ?_
  refine placed_unpin given fun st epoch holds => ?_
  obtain ⟨rfl, rfl⟩ := holds
  exact ⟨by decide, by decide, fun live => absurd rfl live⟩

theorem strand_finishLoad (h : Keeping code call) (e : Option (List Nat)) :
    Triple (At g enclosing fun st epoch => st = .loading ∧ epoch = e) (finishLoad code call g)
      (fun _ => Placed retryable g true enclosing) (fun _ => Placed retryable g true enclosing)
      Anywhere := by
  have after := strand_conduct g enclosing h
    fun st epoch => st = .active ∧ epoch = e
  unfold finishLoad
  refine triple_get_bind fun r given => triple_ite (fun _ => ?_) fun _ => ?_
  · refine triple_pre (fun s same => same ▸ given) (triple_post (conduct_transition after g .active
      fun r given => pin_transition .active given fun _ _ holds => ⟨rfl, holds.2⟩) ?_
      fun _ _ wrong => wrong.elim)
    exact fun _ r given => placed_unpin given fun st epoch holds => by
      obtain ⟨rfl, rfl⟩ := holds
      exact ⟨by decide, by decide, fun _ => rfl⟩
  · exact triple_pre (fun s same => same ▸ given) (strand_discard h e (strand_fail h _))

/-- A load ends with its fiber active, failed, or pending with no epoch. -/
theorem strand_load (h : Keeping code call) (e : Option (List Nat))
    {place : FiberState → Option (List Nat) → Prop} (same : ∀ st epoch, place st epoch → epoch = e) :
    Triple (At g enclosing place) (load code call g)
      (fun _ => Placed retryable g true enclosing) (fun _ => Placed retryable g true enclosing)
      Anywhere := by
  have inner := strand_conduct g enclosing h
    fun st epoch => st = .loading ∧ epoch = e
  have called (body : Nat → Prog) : Triple (At g enclosing fun st epoch => st = .loading ∧ epoch = e)
      (callback call body) (fun _ => At g enclosing fun st epoch => st = .loading ∧ epoch = e)
      (fun _ => At g enclosing fun st epoch => st = .loading ∧ epoch = e) Anywhere :=
    triple_post (conduct_callback inner body _ fun n => all_true _) (fun _ _ given => given)
      fun _ _ given => given.1
  have applied : Triple (At g enclosing fun st epoch => st = .loading ∧ epoch = e)
      (applyPlugin code call g) (fun _ => At g enclosing fun st epoch => st = .loading ∧ epoch = e)
      (fun _ => At g enclosing fun st epoch => st = .loading ∧ epoch = e) Anywhere := by
    unfold applyPlugin
    refine triple_get_bind fun r given => triple_pre (fun s same => same ▸ given)
      (triple_bind (called _) fun result => ?_)
    cases result with
    | none => exact triple_pure () fun _ given => given
    | some disposer =>
        exact triple_bind (conduct_addEffect inner g (.callback disposer)) fun _ =>
          triple_pure () fun _ given => given
  unfold load
  refine triple_bind (Q := fun _ => At g enclosing place) (triple_modify _ fun r given =>
    placed_update given g (fun fiber => { fiber with loadedWith := r.resolved g }) (fun _ => rfl)
      fun _ => rfl) fun _ => ?_
  refine triple_bind (triple_post (conduct_transition inner g .loading fun r given =>
    pin_transition .loading given fun st epoch holds => ⟨rfl, same st epoch holds⟩)
    (fun _ _ given => given) fun _ _ wrong => wrong.elim) fun _ => ?_
  refine triple_get_bind fun r given => triple_pre (fun s same => same ▸ given) ?_
  refine triple_bind (Q := fun _ => At g enclosing fun st epoch => st = .loading ∧ epoch = e)
    (triple_attempt (called _)) fun result => ?_
  cases result with
  | error error => exact triple_ite (fun _ => strand_fail h error) fun _ => strand_abandon h e error
  | ok _ =>
      refine triple_bind (Q := fun _ => At g enclosing fun st epoch => st = .loading ∧ epoch = e)
        (triple_attempt applied) fun result => ?_
      cases result with
      | error error =>
          exact triple_ite (fun _ => strand_discard h e (strand_fail h error)) fun _ =>
            strand_abandon h e error
      | ok _ => exact strand_finishLoad h e

theorem strand_pending {state : FiberState} {e : Option (List Nat)} (epoch : Option (List Nat))
    (none : e = none) (holds : state = .pending ∧ epoch = e) : retryable g state epoch := by
  obtain ⟨rfl, rfl⟩ := holds
  exact ⟨by decide, by decide, fun live => absurd none live⟩

theorem strand_stopForRestart (h : Keeping code call) (e : Option (List Nat)) :
    Triple (At g enclosing fun st epoch => retryable g st epoch ∧ epoch = e)
      (stopForRestart code call g)
      (fun _ => At g enclosing fun st epoch => (st ≠ .loading ∧ st ≠ .unloading) ∧ epoch = e)
      (fun _ => Placed retryable g true enclosing) Anywhere := by
  have after := strand_conduct g enclosing h
    fun st epoch => st = .pending ∧ epoch = e
  have stopped {r : Root} (given : At g enclosing (fun st epoch => st = .pending ∧ epoch = e) r) :
      At g enclosing (fun st epoch => (st ≠ .loading ∧ st ≠ .unloading) ∧ epoch = e) r := by
    refine placed_weaken given fun u st epoch holds => ?_
    by_cases self : u = g
    · subst self
      rw [pinned_self] at holds ⊢
      obtain ⟨rfl, same⟩ := holds
      exact ⟨⟨by decide, by decide⟩, same⟩
    · exact pinned_others u st epoch self holds
  unfold stopForRestart
  refine triple_get_bind fun r given => triple_ite (fun _ => ?_) fun _ => triple_ite (fun _ => ?_) ?_
  · refine triple_bind (Q := fun _ => At g enclosing fun st epoch => retryable g st epoch ∧ epoch = e)
      (triple_modify _ ?_) fun _ => ?_
    · rintro s rfl
      exact placed_update given g _ (fun _ => rfl) fun _ => rfl
    · exact triple_post (conduct_transition after g .pending fun r given =>
        pin_transition .pending given fun _ _ holds => ⟨rfl, holds.2⟩)
        (fun _ _ given => stopped given) fun _ _ wrong => wrong.elim
  · exact triple_pre (fun s same => same ▸ given) (triple_post
      (strand_unload h e fun _ _ holds => holds.2) (fun _ _ given => stopped given)
      fun _ _ given => given)
  · refine fun _ => triple_pure () fun s same => ?_
    subst same
    refine placed_weaken given fun u st epoch holds => ?_
    by_cases self : u = g
    · subst self
      rw [pinned_self] at holds ⊢
      exact ⟨⟨holds.1.1, holds.1.2.1⟩, holds.2⟩
    · exact pinned_others u st epoch self holds

theorem strand_refreshRestart (h : Keeping code call) :
    Keeps (Placed retryable g true enclosing) (fun _ => True) Anywhere
      (refreshRestart code call g) := by
  unfold refreshRestart
  refine triple_get_bind fun r given => triple_ite (fun _ => ?_) fun _ => ?_
  · refine triple_bind (Q := fun _ => At g enclosing fun st epoch =>
      retryable g st epoch ∧ epoch = (r.fiber g).epoch) (triple_modify _ ?_) fun _ => ?_
    · rintro s rfl
      refine placed_update (placed_pin given given.known fun here => ⟨here, rfl⟩) g _
        (fun _ => rfl) fun _ => rfl
    refine triple_bind (triple_post (strand_stopForRestart h _) (fun _ _ given => given)
      fun _ _ given => ⟨given, trivial⟩) fun _ => triple_modify _ fun s given => ?_
    have halted : Placed (pinned g fun st epoch => (st ≠ .loading ∧ st ≠ .unloading) ∧ epoch = none)
        g true enclosing _ := pin_epoch none given fun _ _ holds => ⟨holds.1, rfl⟩
    refine placed_unpin halted ?_
    exact fun st epoch holds => ⟨holds.1.1, holds.1.2, fun live => absurd holds.2 live⟩
  · exact triple_pure () fun s same => same ▸ given

theorem strand_refreshEpoch (h : Keeping code call) :
    Keeps (Placed retryable g true enclosing) (fun _ => True) Anywhere (refreshEpoch code call g) := by
  have whole {P : Root → Prop} {body : M Unit} (run : Triple P body
      (fun _ => Placed retryable g true enclosing) (fun _ => Placed retryable g true enclosing)
      Anywhere) : Triple P body (fun _ => Placed retryable g true enclosing)
      (fun _ r => Placed retryable g true enclosing r ∧ True) Anywhere :=
    triple_post run (fun _ _ given => given) fun _ _ given => ⟨given, trivial⟩
  unfold refreshEpoch
  refine triple_get_bind fun r given => triple_ite (fun _ => ?_) fun _ => ?_
  · exact triple_pure () fun s same => same ▸ given
  refine triple_bind (Q := fun _ => At g enclosing fun st epoch =>
    (st ≠ .loading ∧ st ≠ .unloading) ∧ epoch = r.computeEpoch g) (triple_modify _ ?_) fun _ => ?_
  · rintro s rfl
    have moved : Placed (pinned g fun st _ => st ≠ .loading ∧ st ≠ .unloading) g true enclosing s :=
      placed_pin given given.known fun here => ⟨here.1, here.2.1⟩
    refine pin_epoch _ moved ?_
    exact fun _ _ holds => ⟨holds, rfl⟩
  refine triple_ite (fun inactive => triple_get_bind fun s held => triple_ite (fun _ => ?_) ?_)
    fun _ => triple_ite (fun _ => ?_) fun _ => ?_
  · refine whole (triple_pre (fun t same => same ▸ held) (triple_post
      (strand_unload h (r.computeEpoch g) fun _ _ holds => holds.2) ?_ fun _ _ given => given))
    exact fun _ t given => placed_unpin given fun _ epoch holds =>
      strand_pending epoch inactive holds
  · refine fun _ => triple_pure () fun t same => ?_
    subst same
    exact placed_unpin held fun st epoch holds =>
      ⟨holds.1.1, holds.1.2, fun live => absurd (holds.2.trans inactive) live⟩
  · exact whole (strand_load h (r.computeEpoch g) fun _ _ holds => holds.2)
  · refine whole (triple_bind (strand_unload h (r.computeEpoch g) fun _ _ holds => holds.2) fun _ => ?_)
    exact strand_load h (r.computeEpoch g) fun _ _ holds => holds.2

/-- A refresh leaves its fiber where a later one can go on. -/
theorem strand_refresh (h : Keeping code call) :
    Keeps (Placed retryable 0 true enclosing) (fun _ => True) Anywhere (refresh code call g) := by
  have home {r : Root} (given : Placed retryable g true enclosing r) :
      Placed retryable 0 true enclosing r := { given with known := Nat.zero_le _ }
  unfold refresh
  refine triple_get_bind fun r given => triple_ite (fun _ => ?_) fun mounted => ?_
  · exact triple_pure () fun s same => same ▸ given
  have below : g ≤ r.uid := by
    by_contra above
    exact mounted (given.unmade g (by omega))
  have known : Placed retryable g true enclosing r := { given with known := below }
  refine triple_pre (fun s same => same ▸ known) (triple_bind
    (triple_post (strand_refreshRestart h) (fun _ _ given => given)
      fun _ _ raised => ⟨home raised.1, trivial⟩) fun _ => ?_)
  refine triple_get_bind fun s held => triple_ite (fun _ => ?_) fun _ => ?_
  · exact triple_pure () fun t same => same ▸ home held
  · exact triple_pre (fun t same => same ▸ held) (triple_post (strand_refreshEpoch h)
      (fun _ _ given => home given) fun _ _ raised => ⟨home raised.1, trivial⟩)

theorem strand_runBatch (h : Keeping code call) (batch : List Nat) :
    Keeps (Placed retryable 0 true enclosing) (fun _ => True) Anywhere (runBatch code call batch) := by
  induction batch with
  | nil => exact keeps_pure ()
  | cons f rest ih =>
      refine keeps_attempt_bind (strand_refresh h) (fun _ => ih) fun error _ => ?_
      refine keeps_bind (keeps_modify fun r given => ?_) fun _ => keeps_raise error trivial
      exact placed_same given rfl rfl rfl rfl (fun _ => rfl) fun _ => rfl

theorem strand_settleLoop (h : Keeping code call) (rounds : Nat) :
    Keeps (Placed retryable 0 true enclosing) (fun _ => True) Anywhere
      (settleLoop code call rounds) := by
  unfold settleLoop
  refine keeps_bind keeps_get fun r => keeps_ite (fun _ => keeps_pure ()) fun _ =>
    keeps_ite (fun _ => keeps_raise _ trivial) fun _ => ?_
  refine keeps_bind (keeps_modify fun r given => ?_) fun _ =>
    keeps_bind (strand_runBatch h _) fun _ => keeps_bind ?_ fun _ => keeps_pure ()
  · exact placed_same given rfl rfl rfl rfl (fun _ => rfl) fun _ => rfl
  · exact triple_post (h.loop enclosing (rounds + 1)) (fun _ _ given => given)
      fun _ _ given => ⟨given, trivial⟩

/-! ### Settling and disposing -/

theorem strand_settle (h : Keeping code call) (idle : running = false → places = retryable ∧ least = 0) :
    Keeps (Placed places least running enclosing) (fun _ => True) Anywhere (settle call) := by
  unfold settle
  refine triple_get_bind fun r given => triple_ite (fun _ => ?_) fun resting => ?_
  · exact triple_pure () fun s same => same ▸ given
  have rest : running = false := given.settling ▸ Bool.eq_false_of_not_eq_true resting
  obtain ⟨rfl, rfl⟩ := idle rest
  subst rest
  have on (r : Root) (given : Placed retryable 0 false enclosing r) :
      Placed retryable 0 true enclosing { r with settling := true } := { given with settling := rfl }
  have off (r : Root) (given : Placed retryable 0 true enclosing r) :
      Placed retryable 0 false enclosing { r with settling := false } := { given with settling := rfl }
  refine triple_bind (Q := fun _ => Placed retryable 0 true enclosing)
    (triple_modify _ fun s same => on s (same ▸ given)) fun _ => ?_
  refine triple_bind (Q := fun _ => Placed retryable 0 false enclosing) ?_ fun _ => ?_
  · refine triple_andFinally (Q := fun _ => Placed retryable 0 true enclosing)
      (E := fun _ => Placed retryable 0 true enclosing) ?_ (fun _ => triple_modify _ off)
      fun _ => triple_modify _ fun s given => ⟨off s given, trivial⟩
    exact triple_bind (h.loop enclosing 0) fun _ => triple_pure () fun _ given => given
  · exact triple_modify _ fun s given =>
      placed_same given rfl rfl rfl rfl (fun _ => rfl) fun _ => rfl

/-- What ends a disposal unmounts the fiber, which needs no place any more. -/
theorem strand_disposed (h : Keeping code call) (idle : running = false → places = retryable ∧ least = 0)
    (f : Nat) : Triple (Placed places least running (f :: enclosing)) (disposed code call f)
      (fun _ => Placed places least running enclosing) (fun _ _ => False) Anywhere := by
  unfold disposed
  refine triple_bind (Q := fun _ => Placed places least running (f :: enclosing))
    (triple_modify _ fun r given => ?_) fun _ => ?_
  · cases (r.fiber f).parent with
    | none => exact given
    | some p =>
        exact placed_update given p (fun fiber => { fiber with children := fiber.children.erase f })
          (fun _ => rfl) fun _ => rfl
  refine triple_bind (conduct_transition (h.conduct places least running (f :: enclosing) idle) f
    .disposed fun r given => ?_) fun _ => triple_modify _ fun r given => ?_
  · exact placed_transition given f .disposed (given.located f List.mem_cons_self)
      (fun _ _ _ _ holds => holds) fun _ outside => absurd List.mem_cons_self outside
  · have member (u : Nat) (inside : u ∈ r.fibers.filter (· ≠ f)) : u ∈ r.fibers ∧ u ≠ f := by
      simpa using inside
    exact { settling := given.settling
            stack := by
              change r.disposeStack.tail = enclosing
              rw [given.stack]
              rfl
            known := given.known
            allocated := fun u inside => given.allocated u (member u inside).1
            located := fun u inside => given.located u (List.mem_cons_of_mem f inside)
            unmade := given.unmade
            fresh := given.fresh
            rows := fun u inside outside => given.rows u (member u inside).1 fun listed =>
              (List.mem_cons.mp listed).elim (member u inside).2 outside }

theorem strand_dispose (h : Keeping code call) (idle : running = false → places = retryable ∧ least = 0)
    (f : Nat) : Triple (Placed places least running enclosing) (dispose code call f)
      (fun _ => Placed places least running enclosing)
      (Raised (Placed places least running enclosing) (Placed places.still least running enclosing)
        (.op (.dispose f))) Anywhere := by
  have late : running = false → places.still = retryable ∧ least = 0 := fun resting => by
    obtain ⟨rfl, zero⟩ := idle resting
    exact ⟨retryable_still, zero⟩
  have inner := h.conduct places least running (f :: enclosing) idle
  have last := @keeping_late code call places least running (f :: enclosing) h idle
  have leaves (state : FiberState) (r : Root) (given : Placed places least running (f :: enclosing) r) :
      Placed places least running (f :: enclosing) (r.recordTransition f state) :=
    placed_transition given f state (given.located f List.mem_cons_self)
      (fun _ _ _ _ holds => holds) fun _ outside => absurd List.mem_cons_self outside
  unfold dispose
  refine triple_get_bind fun r given => triple_ite (fun _ => ?_) fun mounted => ?_
  · exact triple_pure () fun s same => same ▸ given
  refine triple_bind (Q := fun _ => Placed places least running (f :: enclosing))
    (triple_modify _ ?_) fun _ => ?_
  · rintro s rfl
    exact { given with
      stack := congrArg (f :: ·) given.stack
      located := fun u inside => by
        rcases List.mem_cons.mp inside with rfl | inside
        · by_contra above
          exact mounted (given.unmade u (Nat.lt_of_not_le above))
        · exact given.located u inside
      rows := fun u member outside => given.rows u member fun inside =>
        outside (List.mem_cons_of_mem f inside) }
  refine triple_andFinally (Q := fun _ => Placed places least running (f :: enclosing))
    (E := fun error r => error.Bare ∧ Placed places.still least running (f :: enclosing) r) ?_ ?_ ?_
  · refine triple_ite (fun _ => ?_) fun _ => ?_
    · exact triple_post (conduct_unload inner last inner last inner f (fun _ => placed_of_still)
        (fun _ given _ => given) (fun _ given _ => given) (fun _ => placed_of_still)
        (leaves .unloading) (leaves .pending)) (fun _ _ given => given) fun _ _ raised => raised.2
    · exact triple_post (keeping_discardEffects h idle f) (fun _ _ given => given)
        fun _ _ raised => raised.2
  · exact fun _ => triple_post (strand_disposed h idle f) (fun _ _ given => given)
      fun _ _ wrong => wrong.elim
  · refine fun error => triple_state fun s raised => triple_pre (fun t same => same ▸ raised.2)
      (triple_post (strand_disposed h late f) ?_ fun _ _ wrong => wrong.elim)
    exact fun _ t given => ⟨placed_of_still given, raised.1, fun _ _ => given⟩

end Procedures

theorem mild_still {places : Places} {least : Nat} {running : Bool} {enclosing : List Nat}
    (f failures : Nat) (error : Exc) (r : Root) (mild : Mild (.unwindLoop f failures (some error)) r)
    (given : Placed places least running enclosing r) :
    Placed places.still least running enclosing r :=
  { given with
    fresh := fun u above => ⟨given.fresh u above, by decide, by decide⟩
    rows := fun u member outside => by
      have quiet := mild u member (given.stack ▸ outside)
      have quiet : ¬ ((r.fiber u).state = .loading ∨ (r.fiber u).state = .unloading) :=
        of_decide_eq_false quiet
      exact ⟨given.rows u member outside, fun loading => quiet (Or.inl loading),
        fun unloading => quiet (Or.inr unloading)⟩ }

theorem keeping_diverge (code : Code)
    (listeners : ∀ cb f n, (code.listener cb f n).All (fun _ => True) fun error =>
      error.isException = true) : Keeping code fun _ => diverge where
  conduct := fun _ _ _ _ _ => {
    upkeep := placed_upkeep _
    calls := fun _ _ _ _ => trivial
    settles := fun _ _ _ _ => trivial
    listeners := listeners }
  loop := fun _ _ _ _ => trivial

/-- However deeply calls nest. -/
theorem keeping_watched (code : Code)
    (listeners : ∀ cb f n, (code.listener cb f n).All (fun _ => True) fun error =>
      error.isException = true) (fuel : Nat) : Keeping code (execWatched code mildAborts fuel) := by
  induction fuel with
  | zero => exact keeping_diverge code listeners
  | succ fuel ih =>
      have calls (places : Places) (least : Nat) (running : Bool) (enclosing : List Nat)
          (idle : running = false → places = retryable ∧ least = 0) (c : Call) (reached : Reached c) :
          Triple (Placed places least running enclosing) (execWatched code mildAborts (fuel + 1) c)
            (fun _ => After (Placed places least running enclosing) c)
            (Raised (Placed places least running enclosing)
              (Placed places.still least running enclosing) c) Anywhere := by
        refine triple_watched Mild (mild_of_mildAborts c) ?_
        refine conduct_step (ih.conduct places least running enclosing idle) (keeping_late ih idle)
          (fun _ => placed_of_still) (fun f failures error r => mild_still f failures error r)
          (fun f => triple_pre (fun r given => given.1) (strand_dispose ih idle f)) ?_ c reached
        exact triple_pre (fun r given => given.1) (triple_post (strand_settle ih idle)
          (fun _ _ given => given) fun _ _ given => given.1)
      refine ⟨fun places least running enclosing idle => ?_, fun enclosing rounds => ?_⟩
      · exact {
          upkeep := placed_upkeep _
          calls := calls places least running enclosing idle
          settles := fun _ _ => triple_post (calls places least running enclosing idle (.op .settle)
            trivial) (fun _ _ given => given) fun _ _ given => given.1
          listeners := listeners }
      · refine triple_watched Mild (mild_of_mildAborts _) (triple_pre (fun r given => given.1) ?_)
        exact triple_bind (triple_post (strand_settleLoop ih rounds) (fun _ _ given => given)
          fun _ _ given => given.1) fun _ => triple_pure 0 fun _ given => given

theorem placed_new (rounds : Nat) : Placed retryable 0 false [] (Root.new rounds) where
  settling := rfl
  stack := rfl
  known := Nat.zero_le _
  allocated := fun u member => by cases member
  located := fun u member => by cases member
  unmade := fun _ _ => rfl
  fresh := fun _ _ => ⟨by decide, by decide, fun live => absurd rfl live⟩
  rows := fun u member => by cases member

/-- Every run in which no disposer is aborted amid a load or an unload that no disposal
encloses leaves every mounted fiber where a later settle can load it again. -/
theorem abort_strands_no_fiber (code : Code) (host : Prog) (rounds fuel : Nat)
    (listeners : ∀ cb f n, (code.listener cb f n).All (fun _ => True) fun error =>
      error.isException = true)
    (whole : (watch code mildAborts fuel host (Root.new rounds)).1 ≠ .diverged) :
    ∀ u ∈ (drive code fuel host (Root.new rounds)).2.fibers,
      ((drive code fuel host (Root.new rounds)).2.fiber u).Retryable := by
  have conduct := (keeping_watched code listeners fuel).conduct retryable 0 false [] fun _ => ⟨rfl, rfl⟩
  have after := conduct_runProg conduct host _ (all_true host) (Root.new rounds) (placed_new rounds)
  rw [watch_eq_drive code mildAborts fuel host (Root.new rounds) whole]
  unfold watch at whole ⊢
  cases run : runProg (execWatched code mildAborts fuel) host (Root.new rounds) with
  | mk outcome r =>
      rw [run] at after whole
      cases outcome with
      | ret value => exact fun u member => after.rows u member (List.not_mem_nil)
      | raised error => exact fun u member => after.1.rows u member (List.not_mem_nil)
      | diverged => exact absurd rfl whole

/-! The second row files an effect and then publishes a service that the first injects if it
is there. -/

def abortCode (apply disposer : Prog) : Code where
  apply := fun cb f _ =>
    match cb with
    | 0 => .sequence [.effect f 0]
    | 1 => .sequence [.effect f 1, .provide f "store" none true]
    | _ => apply
  resolveConfig := fun _ _ _ => .ret none
  disposer := fun cb _ _ =>
    match cb with
    | 0 => disposer
    | _ => .ret none
  listener := fun _ _ _ => .ret none

def abortHost : Prog := .sequence [
  .mount ⟨[], ["store"], [], 0, 0⟩ "consumer" [] none none,
  .settle,
  .mount ⟨[], [], ["store"], 1, 0⟩ "provider" [] none none,
  .mount ⟨[], [], [], 2, 0⟩ "guest" [] none none,
  .settle]

set_option maxRecDepth 10000 in
/-- An apply that is aborted is put back. -/
theorem apply_abort_strands_no_fiber :
    1 ∈ (drive (abortCode (.raise (.abort 0)) (.ret none)) 20 abortHost (Root.new 64)).2.fibers ∧
      ((drive (abortCode (.raise (.abort 0)) (.ret none)) 20 abortHost
        (Root.new 64)).2.fiber 1).Retryable := by
  have mounted : 1 ∈ (drive (abortCode (.raise (.abort 0)) (.ret none)) 20 abortHost
      (Root.new 64)).2.fibers := by decide
  refine ⟨mounted, ?_⟩
  apply abort_strands_no_fiber
  · exact fun _ _ _ => trivial
  · decide
  · exact mounted

set_option maxRecDepth 10000 in
/-- A disposer that is aborted while its fiber reloads leaves the fiber unloading, with the
epoch it was to load with. -/
theorem disposer_abort_strands_fiber :
    ¬ ∀ u ∈ (drive (abortCode (.ret none) (.raise (.abort 0))) 20 abortHost (Root.new 64)).2.fibers,
      ((drive (abortCode (.ret none) (.raise (.abort 0))) 20 abortHost
        (Root.new 64)).2.fiber u).Retryable := by
  intro retryable
  have mounted : 1 ∈ (drive (abortCode (.ret none) (.raise (.abort 0))) 20 abortHost
      (Root.new 64)).2.fibers := by decide
  have unloading : ((drive (abortCode (.ret none) (.raise (.abort 0))) 20 abortHost
      (Root.new 64)).2.fiber 1).state = .unloading := by decide
  exact (retryable 1 mounted).2.1 unloading

end AtrexAgent.Core
