import AtrexAgent.Core.Events

/-! What becomes of decisions in a monotonic waterfall. Its listeners call `next` or not,
forward what they like, and may catch what `next` raises. -/

namespace AtrexAgent.Events

open AtrexAgent.Computation
open AtrexAgent.Computation.Comp
open AtrexAgent.Reentry

variable {V : Type}

/-- The listener returned although its first `next()` did not. -/
def Delegate.Swallowed (delegate : Delegate V) : Prop :=
  delegate.calls ≠ 0 ∧ delegate.captured = none ∧ delegate.returned ≠ none

/-- The outer value does not shrink the inner one. -/
def Kept (check : V → V → Except Exc (Option String)) (outer inner : V) : Prop :=
  ∃ detail, check outer inner = .ok detail ∧ truthy detail = false

/-- A listener that was invoked did not call `next()` and is remembered for it, or forwarded a
value that does not shrink the one it received and returned one that does not shrink the
result of the rest of the chain. -/
def Decided (event : Event V) (check : V → V → Except Exc (Option String)) (s : Bus V)
    (delegate : Delegate V) : Prop :=
  (delegate.calls = 0 ∧ (event.name, delegate.listener.describe) ∈ s.shortCircuits) ∨
  ∃ forwarded captured returned, delegate.calls ≠ 0 ∧ delegate.forwarded = some forwarded ∧
    delegate.captured = some captured ∧ delegate.returned = some returned ∧
    Kept check forwarded delegate.value ∧ Kept check returned captured

/-- `P` holds of the closures of the dispatch that are newer than `least`: one for each listener
that was invoked. -/
def Newer (dispatch least : Nat) (s : Bus V) (P : Delegate V → Prop) : Prop :=
  ∀ i delegate, least < i → s.delegates i = some delegate → delegate.dispatch = dispatch → P delegate

def Decides (event : Event V) (check : V → V → Except Exc (Option String)) (dispatch least : Nat)
    (s : Bus V) : Prop :=
  Newer dispatch least s (¬ ·.Swallowed) → Newer dispatch least s (Decided event check s)

/-- The older closures of the dispatch have only been called. -/
def Framed (dispatch : Nat) (s t : Bus V) : Prop :=
  ∀ i delegate, i ≤ s.made → s.delegates i = some delegate → delegate.dispatch = dispatch →
    ∃ calls, calls ≠ 0 ∧ t.delegates i = some { delegate with calls }

/-- All that a listener does is to call the `next` it was given. -/
def OwnNext (code : Code V) (listener : Listener) : Prop :=
  ∀ value i n, Within (fun o => ∃ forward, o = .next i forward)
    (code.listener listener.callback value (some i) n)

section Chain

variable {code : Code V} {event : Event V} {check : V → V → Except Exc (Option String)}
  {dispatch : Nat} {s t u : Bus V}

theorem shrink_check (monotonic : event.monotonic = true) (checks : event.shrinkCheck = some check)
    (outer inner : V) : shrink event outer inner = check outer inner := by
  unfold shrink
  rw [monotonic, checks]

/-- A change of one closure that shows in none of the others. -/
theorem change_other (i j : Nat) (change : Delegate V → Delegate V) (other : j ≠ i) :
    (s.change i change).delegates j = s.delegates j := if_neg other

theorem change_self (i : Nat) (change : Delegate V → Delegate V) {delegate : Delegate V}
    (found : s.delegates i = some delegate) :
    (s.change i change).delegates i = some (change delegate) := by
  refine (if_pos rfl).trans ?_
  rw [found]
  rfl

theorem framed_change (framed : Framed dispatch s t) (i : Nat) (newer : s.made < i)
    (change : Delegate V → Delegate V) : Framed dispatch s (t.change i change) := by
  intro j delegate older found mine
  obtain ⟨calls, called, at_⟩ := framed j delegate older found mine
  exact ⟨calls, called, (change_other i j change (by omega)).trans at_⟩

theorem framed_trans (first : Framed dispatch s t) (second : Framed dispatch t u)
    (made : s.made ≤ t.made) : Framed dispatch s u := by
  intro i delegate older found mine
  obtain ⟨calls, -, at_⟩ := first i delegate older found mine
  obtain ⟨calls', called, at'⟩ := second i { delegate with calls } (Nat.le_trans older made) at_ mine
  exact ⟨calls', called, at'⟩

theorem newer_change {least i : Nat} {P : Delegate V → Prop} (older : i ≤ least)
    (change : Delegate V → Delegate V) :
    Newer dispatch least (s.change i change) P ↔ Newer dispatch least s P := by
  constructor
  · intro given j delegate above found
    exact given j delegate above ((change_other i j change (by omega)).trans found)
  · intro given j delegate above found
    exact given j delegate above ((change_other i j change (by omega)).symm.trans found)

theorem decides_change {least i : Nat} (older : i ≤ least) (change : Delegate V → Delegate V)
    (decides : Decides event check dispatch least s) :
    Decides event check dispatch least (s.change i change) := by
  intro kept
  exact (newer_change older change).mpr (decides ((newer_change older change).mp kept))

/-- What a callback may do leaves the closures of a pinned dispatch but for their calls, and makes
no new ones. -/
theorem held_framed {old : Bus V} (held : Held code (· = dispatch) old s)
    (sound : Sound code old) : Framed dispatch old s ∧ Newer dispatch old.made s fun _ => False := by
  have pinned := held.pinned dispatch rfl
  constructor
  · intro i delegate _ found mine
    have same := congrFun pinned.frozen i
    unfold frozen at same
    rw [found, Option.bind_some, if_pos mine] at same
    obtain ⟨delegate', found', rest⟩ := Option.bind_eq_some_iff.mp same
    split at rest
    · rename_i mine'
      refine ⟨delegate'.calls, pinned.quiet i delegate' found' mine', found'.trans ?_⟩
      have rest := Option.some.inj rest
      cases delegate
      cases delegate'
      simp only [Delegate.mk.injEq] at rest ⊢
      simp_all
    · cases rest
  · intro i delegate above found mine
    have same := congrFun pinned.frozen i
    unfold frozen at same
    rw [found, Option.bind_some, if_pos mine] at same
    obtain ⟨delegate', found', -⟩ := Option.bind_eq_some_iff.mp same.symm
    have := (sound.owned i delegate' found').1
    omega

end Chain

/-! ### One listener -/

section Activation

variable {code : Code V} {event : Event V} {check : V → V → Except Exc (Option String)}
  {dispatch terminal : Nat} {listener : Listener} {rest : List Listener} {value : V} {s t u : Bus V}

/-- Where the first call of `next` has led, if it was called: to nothing, or to a result, of a
chain that decided. -/
structure Called (event : Event V) (check : V → V → Except Exc (Option String)) (dispatch : Nat)
    (listener : Listener) (value : V) (i : Nat) (u : Bus V) (delegate : Delegate V) : Prop where
  found : u.delegates i = some delegate
  called : delegate.calls ≠ 0
  mine : delegate.dispatch = dispatch
  received : delegate.value = value
  of : delegate.listener = listener
  result : ∀ captured, delegate.captured = some captured → ∃ forwarded,
    delegate.forwarded = some forwarded ∧ Kept check forwarded value ∧
    Decides event check dispatch i u

/-- While a listener runs, its closure is as it was made and is the newest, or has been called. -/
structure Active (code : Code V) (event : Event V) (check : V → V → Except Exc (Option String))
    (dispatch terminal : Nat) (listener : Listener) (rest : List Listener) (value : V)
    (s u : Bus V) : Prop where
  held : Held code (fun _ => False) s u
  framed : Framed dispatch s u
  phase : (u.delegates (s.made + 1) = some ⟨dispatch, event, terminal, listener, rest, value, 0, none,
      false, none, none⟩ ∧ u.made = s.made + 1) ∨
    ∃ delegate, Called event check dispatch listener value (s.made + 1) u delegate

/-- What is to be shown of a chain, however deeply its calls may nest. -/
def Runs (code : Code V) (event : Event V) (check : V → V → Except Exc (Option String))
    (dispatch terminal : Nat) (rest : List Listener) : Prop :=
  ∀ fuel value (s : Bus V), Going code (fun _ => False) s dispatch rest s →
    Triple (fun t => t = s) (walk code (exec code fuel) event dispatch terminal rest value)
      (fun _ t => Held code (fun _ => False) s t ∧ Framed dispatch s t ∧
        Decides event check dispatch s.made t)
      (fun _ t => Held code (fun _ => False) s t ∧ Framed dispatch s t) fun _ => True

theorem called_bumped {i : Nat} {delegate : Delegate V}
    (called : Called event check dispatch listener value i u delegate) :
    Called event check dispatch listener value i
      (u.change i fun delegate => { delegate with calls := delegate.calls + 1 })
      { delegate with calls := delegate.calls + 1 } where
  found := change_self i _ called.found
  called := Nat.succ_ne_zero _
  mine := called.mine
  received := called.received
  of := called.of
  result := fun captured got => by
    obtain ⟨forwarded, sent, kept, decides⟩ := called.result captured got
    exact ⟨forwarded, sent, kept, decides_change (Nat.le_refl i) _ decides⟩

theorem active_next (monotonic : event.monotonic = true) (checks : event.shrinkCheck = some check)
    (runs : Runs code event check dispatch terminal rest) (fuel : Nat) (forward : Option V) :
    Keeps (Active code event check dispatch terminal listener rest value s) (fun _ => True)
      (fun _ => True) (exec code fuel (.next (s.made + 1) forward)) := by
  cases fuel with
  | zero => exact fun _ _ => trivial
  | succ fuel =>
      refine triple_bind (Q := fun _ => Active code event check dispatch terminal listener rest value s)
        ?_ fun _ => triple_pure _ fun _ active => active
      unfold next
      refine triple_get_bind fun u active => ?_
      have raises {α : Type} (error : Exc) {P : Bus V → Prop}
          (given : ∀ t, P t → Active code event check dispatch terminal listener rest value s t) :
          Triple P (raise error : M V α)
            (fun _ => Active code event check dispatch terminal listener rest value s)
            (fun _ t => Active code event check dispatch terminal listener rest value s t ∧ True)
            (fun _ => True) := triple_raise error fun t at_ => ⟨given t at_, trivial⟩
      rcases active.phase with ⟨found, newest⟩ | ⟨delegate, called⟩
      · have going := going_next active.held _ _ found rfl
        let called := u.change (s.made + 1) fun delegate => { delegate with calls := delegate.calls + 1 }
        have here : called.delegates (s.made + 1) = some ⟨dispatch, event, terminal, listener, rest,
            value, 1, none, false, none, none⟩ := change_self _ _ found
        have quiet : Active code event check dispatch terminal listener rest value s called :=
          ⟨going.held, framed_change active.framed _ (Nat.lt_succ_self _) _, Or.inr ⟨_, here,
            by simp, rfl, rfl, rfl, fun captured got => by cases got⟩⟩
        simp only [found, Bool.false_eq_true, if_false]
        refine triple_bind (Q := fun _ t => t = called) (triple_modify _ (by rintro t rfl; rfl))
          fun _ => ?_
        rw [if_neg (by omega)]
        cases shrunk : shrink event (forward.getD value) value with
        | error error => exact raises _ fun t same => same ▸ quiet
        | ok detail =>
            refine triple_ite (fun _ => raises _ fun t same => same ▸ quiet) fun kept => ?_
            -- the value is forwarded, and the rest of the chain runs
            let sent := called.change (s.made + 1) fun delegate =>
              { delegate with forwarded := some (forward.getD value) }
            have there : sent.delegates (s.made + 1) = some ⟨dispatch, event, terminal, listener, rest,
                value, 1, none, false, some (forward.getD value), none⟩ := change_self _ _ here
            have newest' : sent.made = s.made + 1 := newest
            have onward : Going code (fun _ => False) sent dispatch rest sent := by
              have held := held_change (held_refl going.held) (s.made + 1)
                (fun delegate => { delegate with forwarded := some (forward.getD value) })
                (fun _ _ pin => pin.elim) (fun _ => rfl) (fun _ => rfl) fun _ => id
              exact ⟨held_refl held, going.known, going.frontier,
                quiet_change _ _ _ _ (fun _ => rfl) (fun _ => id) going.quiet⟩
            have outer : Held code (fun _ => False) s sent :=
              held_change going.held _ _ (fun _ _ pin => pin.elim) (fun _ => rfl) (fun _ => rfl) fun _ => id
            have framed : Framed dispatch s sent :=
              framed_change quiet.framed _ (Nat.lt_succ_self _) _
            have after {t : Bus V} (held : Held code (fun _ => False) sent t)
                (inner : Framed dispatch sent t) : Held code (fun _ => False) s t ∧ Framed dispatch s t ∧
                  ∃ calls, calls ≠ 0 ∧ t.delegates (s.made + 1) = some ⟨dispatch, event, terminal,
                    listener, rest, value, calls, none, false, some (forward.getD value), none⟩ :=
              ⟨held_trans outer held fun _ => id, framed_trans framed inner (by omega),
                inner _ _ (Nat.le_of_eq newest'.symm) there rfl⟩
            refine triple_bind (Q := fun _ t => t = sent) (triple_modify _ (by rintro t rfl; rfl))
              fun _ => triple_bind (triple_post (runs fuel (forward.getD value) sent onward)
                (fun _ _ given => given) ?_) fun captured => ?_
            · rintro error t ⟨held, inner⟩
              obtain ⟨held, framed, calls, positive, at_⟩ := after held inner
              exact ⟨⟨held, framed, Or.inr ⟨_, at_, positive, rfl, rfl, rfl, fun captured got => by
                cases got⟩⟩, trivial⟩
            · refine triple_bind (Q := fun _ =>
                Active code event check dispatch terminal listener rest value s)
                (triple_modify _ ?_) fun _ => triple_pure _ fun _ active => active
              rintro t ⟨held, inner, decides⟩
              obtain ⟨held, framed, calls, positive, at_⟩ := after held inner
              refine ⟨held_change held _ _ (fun _ _ pin => pin.elim) (fun _ => rfl) (fun _ => rfl)
                fun _ => id, framed_change framed _ (Nat.lt_succ_self _) _, Or.inr ⟨_,
                change_self _ _ at_, positive, rfl, rfl, rfl, fun _ _ => ⟨_, rfl, ?_, ?_⟩⟩⟩
              · exact ⟨detail, (shrink_check monotonic checks _ _).symm.trans shrunk,
                  Bool.eq_false_of_not_eq_true kept⟩
              · rw [newest'] at decides
                exact decides_change (Nat.le_refl _) _ decides
      · simp only [called.found]
        refine triple_ite (fun _ => raises _ fun t same => same ▸ active) fun _ => ?_
        refine triple_bind (Q := fun _ => Active code event check dispatch terminal listener rest value s)
          (triple_modify _ ?_) fun _ => ?_
        · rintro t rfl
          exact ⟨held_change active.held _ _ (fun _ _ _ => rfl) (fun _ => rfl) (fun _ => rfl)
            fun _ wrong => absurd wrong (Nat.succ_ne_zero _), framed_change active.framed _ (Nat.lt_succ_self _) _,
            Or.inr ⟨_, called_bumped called⟩⟩
        · have again := called.called
          rw [if_pos (by omega)]
          exact raises _ fun _ active => active

/-- A listener that is called has a closure that is not yet called. -/
theorem active_called (monotonic : event.monotonic = true) (checks : event.shrinkCheck = some check)
    (runs : Runs code event check dispatch terminal rest) (own : OwnNext code listener) (fuel : Nat)
    (going : Going code (fun _ => False) s dispatch (listener :: rest) s)
    (live : s.live listener = true) :
    Triple (fun t => t = s.allocate ⟨dispatch, event, terminal, listener, rest, value, 0, none, false,
        none, none⟩)
      (callListener code (exec code fuel) dispatch listener value (some (s.made + 1)))
      (fun _ => Active code event check dispatch terminal listener rest value s)
      (fun _ t => Active code event check dispatch terminal listener rest value s t ∧ True)
      (fun _ => True) := by
  have invoked := going_invoked id going live
  have sync := going.held.sound.sync listener (frontier_registered going.held.sound going.frontier)
  generalize made : (⟨dispatch, event, terminal, listener, rest, value, 0, none, false, none,
    none⟩ : Delegate V) = delegate
  have mine : delegate.dispatch = dispatch := by rw [← made]
  have later : delegate.rest = rest := by rw [← made]
  have sound : Sound code ((s.record (.invoked dispatch listener)).allocate delegate) :=
    sound_allocate invoked.held.sound delegate (mine ▸ invoked.known)
      (by rw [mine, later]; exact invoked.frontier) (mine ▸ invoked.quiet)
  have entered := held_allocate invoked.held delegate id sound
  unfold callListener requireSync
  refine triple_bind (Q := fun _ t => t = s.allocate delegate) (triple_ite (fun wrong => ?_) fun _ =>
    triple_pure () fun _ given => given) fun _ => triple_get_bind fun u given => ?_
  · rw [sync] at wrong
    cases wrong
  refine triple_bind
    (Q := fun _ => Active code event check dispatch terminal listener rest value s)
    (triple_modify _ ?_) fun _ => keeps_play_within ?_ _ (own value (s.made + 1) u.calls)
  · rintro t rfl
    rw [given]
    refine ⟨held_called entered _, fun j delegate' older found _ => ?_, Or.inl ⟨?_, rfl⟩⟩
    · have uncalled := going.quiet j delegate' found (by assumption)
      exact ⟨delegate'.calls, uncalled, (if_neg (by omega)).trans found⟩
    · rw [made]
      exact if_pos rfl
  · rintro o ⟨forward, rfl⟩
    exact active_next monotonic checks runs fuel forward

theorem triple_checkResult {P D : Bus V → Prop} (result : V) :
    Triple P (checkResult code event result) (fun _ => P) (fun _ => P) D := by
  unfold checkResult
  cases event.result with
  | none => exact triple_pure () fun _ given => given
  | some isinstance_ =>
      exact triple_ite (fun _ => triple_raise _ fun _ given => given) fun _ =>
        triple_ite (fun _ => triple_pure () fun _ given => given) fun _ =>
          triple_raise _ fun _ given => given

/-- The newest pair is never the one that a bounded history forgets. -/
theorem shortCircuit_mem (s : Bus V) (event listener : String) :
    (event, listener) ∈ (s.shortCircuit event listener).shortCircuits := by
  unfold Bus.shortCircuit SHORT_CIRCUIT_HISTORY
  dsimp only
  rw [List.drop_append_of_le_length (by simp)]
  exact List.mem_append_right _ List.mem_cons_self

theorem triple_checkStep_uncalled {E : Exc → Bus V → Prop} {D : Bus V → Prop} {delegate : Delegate V}
    (uncalled : delegate.calls = 0) (t : Bus V) (result : V) :
    Triple (fun u => u = t) (checkStep event listener delegate result)
      (fun _ u => u = t.shortCircuit event.name listener.describe) E D := by
  unfold checkStep
  rw [if_pos uncalled]
  refine triple_modify _ ?_
  rintro u rfl
  rfl

theorem triple_checkStep_called {D : Bus V → Prop} {delegate : Delegate V}
    (monotonic : event.monotonic = true) (checks : event.shrinkCheck = some check)
    (called : delegate.calls ≠ 0) (t : Bus V) (result : V) :
    Triple (fun u => u = t) (checkStep event listener delegate result)
      (fun _ u => u = t ∧ ∀ captured, delegate.captured = some captured → Kept check result captured)
      (fun _ u => u = t) D := by
  unfold checkStep
  rw [if_neg called]
  cases delegate.captured with
  | none => exact triple_pure () fun u same => ⟨same, fun captured got => by cases got⟩
  | some captured =>
      dsimp only
      cases shrunk : shrink event result captured with
      | error error => exact triple_raise error fun _ same => same
      | ok detail =>
          refine triple_ite (fun _ => triple_raise _ fun _ same => same) fun kept =>
            triple_pure () fun u same => ⟨same, ?_⟩
          rintro captured' ⟨⟩
          exact ⟨detail, (shrink_check monotonic checks _ _).symm.trans shrunk,
            Bool.eq_false_of_not_eq_true kept⟩

/-- The listener has returned, and its result is checked. -/
theorem active_settle (monotonic : event.monotonic = true) (checks : event.shrinkCheck = some check)
    (active : Active code event check dispatch terminal listener rest value s u) (result : V) :
    Triple (fun t => t = u.change (s.made + 1) fun delegate => { delegate with spent := true })
      (settleStep code event listener (s.made + 1) result)
      (fun _ t => Held code (fun _ => False) s t ∧ Framed dispatch s t ∧
        Decides event check dispatch s.made t)
      (fun _ t => Held code (fun _ => False) s t ∧ Framed dispatch s t) fun _ => True := by
  let spend : Delegate V → Delegate V := fun delegate => { delegate with spent := true }
  let return_ : Delegate V → Delegate V := fun delegate => { delegate with returned := some result }
  let settled := (u.change (s.made + 1) spend).change (s.made + 1) return_
  have held : Held code (fun _ => False) s settled :=
    held_change (held_change active.held _ spend (fun _ _ pin => pin.elim) (fun _ => rfl) (fun _ => rfl)
      fun _ => id) _ return_ (fun _ _ pin => pin.elim) (fun _ => rfl) (fun _ => rfl) fun _ => id
  have framed : Framed dispatch s settled :=
    framed_change (framed_change active.framed _ (Nat.lt_succ_self _) _) _ (Nat.lt_succ_self _) _
  have at_ {delegate : Delegate V} (found : u.delegates (s.made + 1) = some delegate) :
      settled.delegates (s.made + 1) = some (return_ (spend delegate)) :=
    change_self _ _ (change_self _ _ found)
  have checked {P : Bus V → Prop} (kept : ∀ t, P t → Held code (fun _ => False) s t ∧
      Framed dispatch s t ∧ Decides event check dispatch s.made t) :
      Triple P (do checkResult code event result; pure result)
        (fun _ t => Held code (fun _ => False) s t ∧ Framed dispatch s t ∧
          Decides event check dispatch s.made t)
        (fun _ t => Held code (fun _ => False) s t ∧ Framed dispatch s t) fun _ => True :=
    triple_bind (triple_post (triple_checkResult result) (fun _ _ given => given)
      fun _ t given => ⟨(kept t given).1, (kept t given).2.1⟩) fun _ => triple_pure result kept
  unfold settleStep
  refine triple_bind (Q := fun _ t => t = settled) (triple_modify _ (by rintro t rfl; rfl)) fun _ =>
    triple_get_bind fun t same => ?_
  rw [same]
  rcases active.phase with ⟨found, newest⟩ | ⟨delegate, called⟩
  · -- it did not call its `next`
    have here := at_ found
    simp only [here]
    refine triple_bind (triple_checkStep_uncalled rfl settled result) fun _ => checked ?_
    rintro t rfl
    refine ⟨held_remembered held _, fun k older => framed k older, fun _ j delegate above found' _ => ?_⟩
    have bound := (held.sound.owned j delegate found').1
    have newest' : settled.made = s.made + 1 := newest
    obtain rfl : j = s.made + 1 := by omega
    have member := shortCircuit_mem settled event.name listener.describe
    cases here.symm.trans found'
    exact Or.inl ⟨rfl, member⟩
  · have here := at_ called.found
    simp only [here]
    refine triple_bind (triple_post (triple_checkStep_called monotonic checks called.called settled
      result) (fun _ _ given => given) fun _ t same => same ▸ ⟨held, framed⟩) fun _ => checked ?_
    rintro t ⟨rfl, grown⟩
    refine ⟨held, framed, fun unswallowed j other above found mine => ?_⟩
    cases got : delegate.captured with
    | none =>
        have swallowed : (return_ (spend delegate)).Swallowed := ⟨called.called, got, nofun⟩
        exact absurd swallowed (unswallowed _ _ (Nat.lt_succ_self _) here called.mine)
    | some captured =>
        obtain ⟨forwarded, sent, kept, decides⟩ := called.result captured got
        by_cases first : j = s.made + 1
        · subst first
          cases here.symm.trans found
          exact Or.inr ⟨forwarded, captured, result, called.called, sent, got, rfl,
            called.received.symm ▸ kept, grown captured got⟩
        · have inner := decides_change (Nat.le_refl _) return_ (decides_change (Nat.le_refl _) spend decides)
          exact inner (fun k found above => unswallowed k found (by omega)) j other (by omega) found mine

theorem runs_walk (monotonic : event.monotonic = true) (checks : event.shrinkCheck = some check)
    (own : ∀ listener ∈ rest, OwnNext code listener) : Runs code event check dispatch terminal rest := by
  induction rest with
  | nil =>
      intro fuel value s going
      have sound := going.held.sound
      have start : Held code (· = dispatch) s s :=
        ⟨sound, fun _ same => same ▸ ⟨going.known, going.quiet, rfl, rfl⟩, fun _ delegate found =>
          ⟨delegate, found, rfl⟩, Nat.le_refl _, List.suffix_refl _⟩
      have weaker {t : Bus V} (held : Held code (· = dispatch) s t) :
          Held code (fun _ => False) s t ∧ Framed dispatch s t :=
        ⟨{ held with pinned := fun _ pin => pin.elim }, (held_framed held sound).1⟩
      unfold walk
      refine triple_stop (triple_post (triple_pre (fun t same => same ▸ start)
        (leaves_callTerminal (exec_calls code fuel) terminal value)) (fun _ t held => ?_)
          fun _ t raised => weaker raised.1) fun _ _ => trivial
      refine ⟨(weaker held).1, (weaker held).2, fun _ j delegate above found mine => ?_⟩
      exact ((held_framed held sound).2 j delegate above found mine).elim
  | cons listener rest ih =>
      intro fuel value s going
      have runs := ih fun other member => own other (List.mem_cons_of_mem _ member)
      unfold walk
      refine triple_get_bind fun t same => ?_
      rw [same]
      refine triple_ite (fun live => ?_) fun dead => ?_
      · refine triple_bind (Q := fun _ t => t = s.allocate ⟨dispatch, event, terminal, listener, rest,
          value, 0, none, false, none, none⟩) (triple_modify _ (by rintro t rfl; rfl)) fun _ => ?_
        let spend : Delegate V → Delegate V := fun delegate => { delegate with spent := true }
        refine triple_bind (Q := fun _ t => ∃ u,
          Active code event check dispatch terminal listener rest value s u ∧
            t = u.change (s.made + 1) spend) (triple_andFinally
          (active_called monotonic checks runs (own listener List.mem_cons_self) fuel going live)
          (fun _ => triple_modify _ fun u active => ⟨u, active, rfl⟩) fun _ => triple_modify _ ?_)
          fun result => ?_
        · rintro u ⟨active, -⟩
          exact ⟨held_change active.held _ spend (fun _ _ pin => pin.elim) (fun _ => rfl) (fun _ => rfl)
            fun _ => id, framed_change active.framed _ (Nat.lt_succ_self _) _⟩
        · rintro t ⟨u, active, rfl⟩
          exact active_settle monotonic checks active result _ rfl
      · have passed := going_passed id going dead
        refine triple_bind (Q := fun _ t => t = s.record (.passed dispatch listener))
          (triple_modify _ (by rintro t rfl; rfl)) fun _ => ?_
        refine triple_post (runs fuel value _ ⟨held_refl passed.held, passed.known, passed.frontier,
          passed.quiet⟩) (fun _ t after => ?_) fun _ t after => ?_
        · exact ⟨held_trans passed.held after.1 fun _ => id, after.2.1, after.2.2⟩
        · exact ⟨held_trans passed.held after.1 fun _ => id, after.2⟩

theorem triple_require {P E : Bus V → Prop} {D : Bus V → Prop} (passes : Prop) [Decidable passes]
    (error : Exc) (given : ∀ t, P t → E t) :
    Triple P (if passes then pure () else raise error : M V Unit) (fun _ => P) (fun _ => E) D :=
  triple_ite (fun _ => triple_pure () fun _ at_ => at_) fun _ => triple_raise _ given

theorem decides_waterfall (value : V) (terminal : Nat) (monotonic : event.monotonic = true) (checks : event.shrinkCheck = some check)
    (sound : Sound code s) (opened : s.closed = false)
    (own : ∀ listener ∈ s.listeners event.name, OwnNext code listener) (fuel : Nat) :
    Triple (fun t => t = s) (waterfall code (exec code fuel) event value terminal)
      (fun _ t => Decides event check (s.dispatches + 1) s.made t) (fun _ _ => True) fun _ => True := by
  have start : Held code (fun _ => False) s s :=
    ⟨sound, fun _ pin => pin.elim, fun _ delegate found => ⟨delegate, found, rfl⟩, Nat.le_refl _,
      List.suffix_refl _⟩
  have going := going_begin start event.name
  have runs : Runs code event check (s.dispatches + 1) terminal (s.snapshot event.name) :=
    runs_walk monotonic checks fun listener member =>
      own listener ((List.perm_insertionSort Bus.before _).mem_iff.mp member)
  unfold waterfall require checkPayload
  refine triple_bind (triple_require _ _ fun _ _ => trivial) fun _ =>
    triple_bind (triple_require _ _ fun _ _ => trivial) fun _ => triple_get_bind fun t same => ?_
  rw [same, opened, if_neg Bool.false_ne_true]
  refine triple_bind (Q := fun _ t => t = s.begin_ event.name) (triple_modify _ (by rintro t rfl; rfl))
    fun _ => triple_bind (triple_post (runs fuel value _ ⟨held_refl going.held, going.known,
      going.frontier, going.quiet⟩) (fun _ _ after => after.2.2) fun _ _ _ => trivial) fun result => ?_
  exact triple_bind (triple_post (triple_checkResult result) (fun _ _ given => given)
    fun _ _ _ => trivial) fun _ => triple_pure result fun _ decides => decides

/-- A waterfall of a monotonic event that returns has lost no decision, if and only if no listener
that was invoked returned although its first `next()` had raised: such a listener may have forwarded
less than it received, or hidden the failure of another, and its result is compared with nothing.
Every run keeps `Sound`. -/
theorem waterfall_decides_iff {payload result : V} (monotonic : event.monotonic = true)
    (checks : event.shrinkCheck = some check) (sound : Sound code s) (opened : s.closed = false)
    (own : ∀ listener ∈ s.listeners event.name, OwnNext code listener) (fuel : Nat)
    (run : exec code fuel (.waterfall event payload terminal) s = (.ret (.value result), t)) :
    Newer (s.dispatches + 1) s.made t (Decided event check t) ↔
      Newer (s.dispatches + 1) s.made t (¬ ·.Swallowed) := by
  constructor
  · rintro decided i delegate above found mine ⟨called, nothing, -⟩
    rcases decided i delegate above found mine with ⟨uncalled, -⟩ | ⟨_, captured, _, -, -, got, -⟩
    · exact called uncalled
    · cases nothing.symm.trans got
  · cases fuel with
    | zero => cases run
    | succ fuel =>
        have decides := decides_waterfall payload terminal monotonic checks sound opened own fuel s rfl
        have run : (waterfall code (exec code fuel) event payload terminal >>= fun result =>
          pure (Answer.value result)) s = (.ret (Answer.value result), t) := run
        rw [run_bind] at run
        cases ended : waterfall code (exec code fuel) event payload terminal s with
        | mk outcome u =>
            rw [ended] at run decides
            cases outcome with
            | ret value =>
                cases run
                exact decides
            | raised error => cases run
            | diverged => cases run

end Activation

/-! ### A listener that hides what `next` raised -/

/-- The first listener forwards nothing of what it received, and returns all of it. -/
def forgetful : Code Nat where
  callable := fun _ => true
  async := fun _ => false
  listener := fun callback value next _ => match callback, next with
    | 1, some i => .ask (.next i (some 0)) fun _ => .done value
    | _, _ => .done value
  asyncTerminal := fun _ => false
  terminal := fun _ value _ => .done value
  sink := none
  isNone := fun _ => false

def lost (outer inner : Nat) : Except Exc (Option String) :=
  .ok (if outer < inner then some "lost" else none)

def permission : Event Nat where
  name := "permission"
  mode := .waterfall
  payload := fun _ => true
  result := none
  monotonic := true
  shrinkCheck := some lost

def subscribed : Bus Nat :=
  reached forgetful 1 (.ask (.on permission 1 0 "" "first") fun _ =>
    .ask (.on permission 2 0 "" "second") fun _ => .done ())

def forgot : Bus Nat := (exec forgetful 2 (.waterfall permission 3 0) subscribed).2

theorem forgetful_own (listener : Listener) : OwnNext forgetful listener := by
  intro value i n
  unfold forgetful
  dsimp only
  split
  · rename_i same
    cases same
    exact ⟨⟨_, rfl⟩, fun _ => trivial⟩
  · trivial

theorem waterfall_decides_forgetful :
    Newer 1 0 forgot (Decided permission lost forgot) ↔ Newer 1 0 forgot (¬ ·.Swallowed) :=
  waterfall_decides_iff rfl rfl (reached_sound _ _ _) rfl
    (fun listener _ => forgetful_own listener) 2
    (show exec forgetful 2 (.waterfall permission 3 0) subscribed = (.ret (.value 3), forgot) from rfl)

theorem forgot_swallowed : ∃ delegate, forgot.delegates 1 = some delegate ∧ delegate.dispatch = 1 ∧
    delegate.Swallowed := ⟨_, rfl, rfl, by decide, rfl, nofun⟩

theorem lost_kept (outer inner : Nat) : Kept lost outer inner ↔ inner ≤ outer := by
  unfold Kept lost
  by_cases fewer : outer < inner
  · simp [fewer, truthy]
  · simp [fewer, truthy, Nat.le_of_not_lt fewer]

/-- A chain can return, although a listener has dropped what it received and the next one was never
asked. -/
theorem waterfall_loses_decision : ¬ ∀ (code : Code Nat) (event : Event Nat)
    (check : Nat → Nat → Except Exc (Option String)) (s t : Bus Nat) (payload result terminal fuel : Nat),
    event.monotonic = true → event.shrinkCheck = some check → (∀ a, Kept check a a) →
    (∀ a b c, Kept check a b → Kept check b c → Kept check a c) → Sound code s → s.closed = false →
    (∀ listener ∈ s.listeners event.name, OwnNext code listener) →
    exec code fuel (.waterfall event payload terminal) s = (.ret (.value result), t) →
    Newer (s.dispatches + 1) s.made t (Decided event check t) := by
  intro always
  have decided := always forgetful permission lost subscribed forgot 3 3 0 2 rfl rfl
    (fun a => (lost_kept a a).mpr (Nat.le_refl a))
    (fun a b c first second => (lost_kept a c).mpr
      (Nat.le_trans ((lost_kept b c).mp second) ((lost_kept a b).mp first)))
    (reached_sound _ _ _) rfl (fun listener _ => forgetful_own listener) rfl
  obtain ⟨delegate, found, mine, called, nothing, -⟩ := forgot_swallowed
  rcases decided 1 delegate (by decide) found mine with ⟨uncalled, -⟩ | ⟨_, captured, _, -, -, got, -⟩
  · exact called uncalled
  · cases nothing.symm.trans got

end AtrexAgent.Events
