import AtrexAgent.Core.Reload
import AtrexAgent.Library.Rank

/-! Row order carries no load semantics. A round of `settle` makes one more rank
of rows final, so `n` rows need at most `n + 1` rounds, and where the rounds end
only depends on the rows. -/

namespace AtrexAgent.Core

open AtrexAgent.Computation
open AtrexAgent.Computation.Comp

section Rounds

variable {code : Code} {scene : Scene code} {r r' : Root} {g u : Nat}

/-- The epoch `u` loaded with lists the services its load resolved. -/
def Saw (scene : Scene code) (r : Root) (u : Nat) : Prop :=
  ∃ look : String → Option Impl,
    (r.fiber u).loadedWith = (Root.sorted (scene.declaration u).inject ++
      Root.sorted (scene.declaration u).optionalInject).map look ∧
    (r.fiber u).epoch = some ((r.fiber u).loadedWith.map Root.serialOf) ∧
    ∀ name impl, look name = some impl → 0 < impl.serial ∧ impl.fiber ∈ scene.rows ∧
      scene.Key impl.fiber ((scene.realm u).ownerOf name) name

structure Asleep (r : Root) (u : Nat) : Prop where
  state : (r.fiber u).state = .pending
  epoch : (r.fiber u).epoch = none
  effects : (r.fiber u).effects = []

structure Awake (scene : Scene code) (r : Root) (u : Nat) : Prop where
  state : (r.fiber u).state = .active
  saw : Saw scene r u
  own : ∀ effect ∈ (r.fiber u).effects, OwnUndo scene u effect.undo
  published : ∀ name ∈ (scene.declaration u).provide, Published scene u name r

/-- The fields of the row of `u` that stay as they were mounted. -/
structure Seated (scene : Scene code) (r : Root) (u : Nat) : Prop where
  declaration : (r.fiber u).declaration = scene.declaration u
  realm : (r.fiber u).realm = scene.realm u
  entryId : (r.fiber u).entryId = scene.entryId u
  children : (r.fiber u).children = []
  restartRequested : (r.fiber u).restartRequested = false

/-- The tree between two refreshes. -/
structure Board (scene : Scene code) (r : Root) : Prop where
  ready : Ready r
  fibers : r.fibers = scene.rows
  queued : ∀ u ∈ r.pending, u ∈ scene.rows
  seated : ∀ u ∈ scene.rows, Seated scene r u
  still : ∀ u ∈ scene.rows, (r.fiber u).unwinding = false
  rows : ∀ u ∈ scene.rows, Asleep r u ∨ Awake scene r u
  impls : ∀ owner name impl, r.impls owner name = some impl → 0 < impl.serial ∧
    impl.fiber ∈ scene.rows ∧ (r.fiber impl.fiber).state = .active ∧
    scene.Key impl.fiber owner name

def Fresh (r : Root) (u : Nat) : Prop := (r.fiber u).epoch = r.computeEpoch u

/-! ### One refresh -/

theorem seated_moved (moved : Moved scene g r r') (seated : Seated scene r u) :
    Seated scene r' u := by
  by_cases self : u = g
  · subst self
    exact ⟨moved.same.declaration.trans seated.declaration, moved.same.realm.trans seated.realm,
      moved.same.entryId.trans seated.entryId, moved.same.children.trans seated.children,
      moved.same.restartRequested.trans seated.restartRequested⟩
  · have same := moved.others u self
    exact ⟨by rw [same]; exact seated.declaration, by rw [same]; exact seated.realm,
      by rw [same]; exact seated.entryId, by rw [same]; exact seated.children, by rw [same]; exact seated.restartRequested⟩

/-- Loading and unloading `g` only changes services of rows of higher rank. -/
theorem moved_resolve (moved : Moved scene g r r') (rowG : g ∈ scene.rows)
    (rowU : u ∈ scene.rows) (seated : Seated scene r u) (below : scene.rank u ≤ scene.rank g)
    (name : String) (needed : r.depends name u = true) :
    r'.resolve (r.fiber u).realm name = r.resolve (r.fiber u).realm name := by
  apply moved.impls
  rintro ⟨provided, owner⟩
  rw [seated.realm] at owner
  rw [Root.depends_iff, seated.declaration] at needed
  have above := scene.ranked g rowG u rowU name provided needed owner.symm
  omega

theorem moved_computeEpoch (moved : Moved scene g r r') (rowG : g ∈ scene.rows)
    (rowU : u ∈ scene.rows) (seated : Seated scene r u) (below : scene.rank u ≤ scene.rank g) :
    r'.computeEpoch u = r.computeEpoch u := by
  have after := seated_moved moved seated
  apply Root.computeEpoch_congr
  · rw [after.declaration, seated.declaration]
  · rw [after.realm, seated.realm]
  · exact moved_resolve moved rowG rowU seated below

theorem moved_resolved (moved : Moved scene g r r') (rowG : g ∈ scene.rows)
    (seated : Seated scene r g) : r'.resolved g = r.resolved g := by
  have after := seated_moved moved seated
  obtain ⟨required, optional⟩ := Root.services_congr
    (by rw [after.declaration, seated.declaration]) (by rw [after.realm, seated.realm])
    (moved_resolve moved rowG rowG seated (Nat.le_refl _))
  unfold Root.resolved
  rw [required, optional]

theorem awake_moved (moved : Moved scene g r r') (rowG : g ∈ scene.rows) (rowU : u ∈ scene.rows)
    (other : u ≠ g) (awake : Awake scene r u) : Awake scene r' u := by
  have same := moved.others u other
  obtain ⟨look, loaded, epoch, known⟩ := awake.saw
  constructor
  · rw [same]; exact awake.state
  · exact ⟨look, by rw [same]; exact loaded, by rw [same]; exact epoch, known⟩
  · rw [same]; exact awake.own
  · intro name provided
    obtain ⟨impl, found, rest⟩ := awake.published name provided
    refine ⟨impl, ?_, by rw [same]; exact rest⟩
    rw [moved.impls _ name]
    · exact found
    · rintro ⟨shared, owner⟩
      exact other (scene.single u rowU g rowG name provided shared owner)

/-- What is left to show of `g` after a transition of it. -/
theorem board_moved (board : Board scene r) (moved : Moved scene g r r') (rowG : g ∈ scene.rows)
    (still : (r'.fiber g).unwinding = false)
    (row : Awake scene r' g ∨ (Asleep r' g ∧ ∀ name ∈ (scene.declaration g).provide,
      r'.impls ((scene.realm g).ownerOf name) name = none)) : Board scene r' := by
  constructor
  · exact ready_moved board.ready moved
  · exact moved.fibers.trans board.fibers
  · intro u member
    rcases moved.woken u member with before | listed
    · exact board.queued u before
    · exact board.fibers ▸ listed
  · exact fun u rowU => seated_moved moved (board.seated u rowU)
  · intro u rowU
    by_cases self : u = g
    · exact self ▸ still
    · rw [moved.others u self]; exact board.still u rowU
  · intro u rowU
    by_cases self : u = g
    · subst self
      exact row.elim Or.inr fun asleep => Or.inl asleep.1
    · rcases board.rows u rowU with asleep | awake
      · have same := moved.others u self
        exact Or.inl ⟨by rw [same]; exact asleep.state, by rw [same]; exact asleep.epoch,
          by rw [same]; exact asleep.effects⟩
      · exact Or.inr (awake_moved moved rowG rowU self awake)
  · intro owner name impl found
    by_cases key : scene.Key g owner name
    · obtain ⟨provided, rfl⟩ := key
      rcases row with awake | ⟨-, gone⟩
      · obtain ⟨impl', found', mine, -⟩ := awake.published name provided
        rw [found] at found'
        cases found'
        have positive : 0 < impl.serial := by
          rcases moved.published _ _ _ found with before | new
          · exact (board.impls _ _ _ before).1
          · exact new.2
        exact ⟨positive, mine ▸ rowG, by rw [mine]; exact awake.state,
          by rw [mine]; exact ⟨provided, rfl⟩⟩
      · rw [gone name provided] at found
        cases found
    · rw [moved.impls owner name key] at found
      obtain ⟨positive, rowV, state, key'⟩ := board.impls owner name impl found
      have other : impl.fiber ≠ g := by
        intro self
        exact key (self ▸ key')
      exact ⟨positive, rowV, by rw [moved.others _ other]; exact state, key'⟩

theorem unloaded_gone (published : ∀ name ∈ (scene.declaration g).provide,
    Published scene g name r) (unloaded : Unloaded scene g r r') :
    ∀ name ∈ (scene.declaration g).provide,
      r'.impls ((scene.realm g).ownerOf name) name = none := by
  intro name provided
  obtain ⟨impl, found, -, effect, member, withdraws⟩ := published name provided
  cases left : r'.impls ((scene.realm g).ownerOf name) name with
  | none => rfl
  | some impl' =>
      have before := unloaded.fewer _ _ _ left
      rw [found] at before
      cases before
      exact absurd rfl (unloaded.withdrawn effect member _ _ _ withdraws impl left)

theorem loaded_awake (board : Board scene r) (rowG : g ∈ scene.rows) (moved : Moved scene g r r')
    {serials : List Nat} (epoch : r.computeEpoch g = some serials) {last : Root}
    (current : (r'.fiber g).epoch = some serials) (loaded : Loaded scene g r' last) :
    Awake scene last g := by
  have seated := board.seated g rowG
  have listed : (last.fiber g).loadedWith = r.resolved g :=
    loaded.loadedWith.trans (moved_resolved moved rowG seated)
  refine ⟨loaded.state, ⟨r.resolve (scene.realm g), ?_, ?_, ?_⟩, loaded.own, loaded.published⟩
  · rw [listed, Root.resolved, Root.required, Root.optional, seated.declaration, seated.realm,
      List.map_append]
  · rw [loaded.epoch, current, listed, Root.computeEpoch_serials r g serials epoch]
  · intro name impl found
    obtain ⟨positive, rowV, -, key⟩ := board.impls _ _ _ found
    exact ⟨positive, rowV, key⟩

/-- Refreshing `g` makes it fresh, and is nothing at all if it was fresh. -/
theorem refresh_results (board : Board scene r) (rowG : g ∈ scene.rows) :
    ∃ r', Results (fun fuel => refresh code (exec code fuel) g) r (.ret ()) r' ∧
      Board scene r' ∧ Moved scene g r r' ∧ Fresh r' g ∧ (Fresh r g → r' = r) := by
  have seated := board.seated g rowG
  have alive : (r.fiber g).state ≠ .disposed ∧ (r.fiber g).state ≠ .failed := by
    rcases board.rows g rowG with asleep | awake
    · rw [asleep.state]; decide
    · rw [awake.state]; decide
  have begins (call : Call → M Nat) : refresh code call g r = refreshEpoch code call g r := by
    unfold refresh
    rw [run_get_bind, if_neg alive.1]
    have skipped : refreshRestart code call g r = (.ret (), r) := by
      unfold refreshRestart
      rw [run_get_bind, if_neg (by simp [seated.restartRequested])]
      rfl
    rw [run_bind_ret skipped, run_get_bind, if_neg alive.2]
  by_cases fresh : Fresh r g
  · have stays : Moved scene g r r :=
      moved_fields r.fiber (fun _ _ => rfl) (sameRow_refl _) _ _ _ _ _ _ _ _
    refine ⟨r, results_same fun fuel => ?_, board, stays, fresh, fun _ => rfl⟩
    rw [begins, refreshEpoch, run_get_bind, if_pos fresh.symm]
    rfl
  have stale : r.computeEpoch g ≠ (r.fiber g).epoch := fun same => fresh same.symm
  let dated := r.update g fun fiber => { fiber with epoch := r.computeEpoch g }
  have dates : Moved scene g r dated := moved_update _ fun x => ⟨rfl, rfl, rfl, rfl, rfl⟩
  have row : dated.fiber g = { r.fiber g with epoch := r.computeEpoch g } := Root.update_self r g _
  have ready := ready_moved board.ready dates
  have seated' := seated_moved dates seated
  have finish {last : Root} (moved : Moved scene g r last)
      (epoch : (last.fiber g).epoch = r.computeEpoch g) : Fresh last g :=
    epoch.trans (moved_computeEpoch moved rowG rowG seated (Nat.le_refl _)).symm
  rcases board.rows g rowG with asleep | awake
  · -- The row was pending, so its epoch was inactive and it loads now.
    obtain ⟨serials, epoch⟩ := Option.ne_none_iff_exists'.mp (asleep.epoch ▸ stale)
    have free : ∀ name ∈ (scene.declaration g).provide,
        dated.impls ((scene.realm g).ownerOf name) name = none := by
      intro name provided
      cases found : r.impls ((scene.realm g).ownerOf name) name with
      | none => exact found
      | some impl =>
          obtain ⟨-, rowV, active, shared, owner⟩ := board.impls _ _ _ found
          have self := scene.single g rowG impl.fiber rowV name provided shared owner
          rw [← self, asleep.state] at active
          cases active
    obtain ⟨last, loads, loaded⟩ := load_results ready rowG seated'.declaration seated'.realm
      (by rw [row]; exact asleep.effects) (by rw [row]; exact board.still g rowG) free
    have moved := moved_trans dates loaded.moved
    have current : (dated.fiber g).epoch = some serials := by rw [row]; exact epoch
    refine ⟨last, results_step (fun fuel => ?_) loads, board_moved board moved rowG
      loaded.unwinding (Or.inl (loaded_awake board rowG dates epoch current loaded)), moved,
      finish moved (loaded.epoch.trans (by rw [row])), fun same => absurd same fresh⟩
    rw [begins, refreshEpoch, run_get_bind, if_neg stale, run_modify_bind,
      if_neg (by rw [epoch]; simp), if_pos asleep.epoch]
  · obtain ⟨look, -, old, -⟩ := awake.saw
    obtain ⟨middle, unloads, unloaded⟩ := unload_results ready seated'.children
      (by rw [row]; exact awake.own)
    have published : ∀ name ∈ (scene.declaration g).provide, Published scene g name dated := by
      intro name provided
      obtain ⟨impl, found, mine, effect, member, withdraws⟩ := awake.published name provided
      exact ⟨impl, found, mine, effect, by rw [row]; exact member, withdraws⟩
    have gone := unloaded_gone published unloaded
    have moved := moved_trans dates unloaded.moved
    have dropped : (middle.fiber g).epoch = r.computeEpoch g := unloaded.epoch.trans (by rw [row])
    by_cases inactive : r.computeEpoch g = none
    · have asleep : Asleep middle g := ⟨unloaded.state, dropped.trans inactive, unloaded.effects⟩
      refine ⟨middle, results_step (fun fuel => ?_) unloads, board_moved board moved rowG
        unloaded.unwinding (Or.inr ⟨asleep, gone⟩), moved, finish moved dropped,
        fun same => absurd same fresh⟩
      rw [begins, refreshEpoch, run_get_bind, if_neg stale, run_modify_bind, if_pos inactive,
        if_pos awake.state]
    · obtain ⟨serials, epoch⟩ := Option.ne_none_iff_exists'.mp inactive
      have seated'' := seated_moved moved seated
      obtain ⟨last, loads, loaded⟩ := load_results (ready_moved board.ready moved) rowG
        seated''.declaration seated''.realm unloaded.effects unloaded.unwinding gone
      have moved' := moved_trans moved loaded.moved
      have reloads : Results (fun fuel => unload code (exec code fuel) g >>= fun _ =>
          load code (exec code fuel) g) dated (.ret ()) last := results_bind unloads loads
      refine ⟨last, results_step (fun fuel => ?_) reloads,
        board_moved board moved' rowG loaded.unwinding
          (Or.inl (loaded_awake board rowG moved epoch (dropped.trans epoch) loaded)), moved',
        finish moved' (loaded.epoch.trans dropped), fun same => absurd same fresh⟩
      rw [begins, refreshEpoch, run_get_bind, if_neg stale, run_modify_bind, if_neg inactive,
        if_neg (by rw [old]; simp)]

/-! ### The rounds -/

/-- In the round that makes rank `k` final, with `rest` of its batch to refresh. -/
structure Turn (scene : Scene code) (k : Nat) (rest : List Nat) (r : Root) : Prop where
  board : Board scene r
  rounds : scene.rows.length + 1 ≤ r.settleRounds
  listed : ∀ u ∈ rest, u ∈ scene.rows
  final : ∀ u ∈ scene.rows, scene.rank u < k → Fresh r u
  next : ∀ u ∈ scene.rows, scene.rank u = k → u ∈ rest ∨ Fresh r u
  tracked : ∀ u ∈ scene.rows, u ∈ r.pending ∨ u ∈ rest ∨ Fresh r u

theorem fresh_moved (moved : Moved scene g r r') (rowG : g ∈ scene.rows) (rowU : u ∈ scene.rows)
    (board : Board scene r) (other : u ≠ g) (below : scene.rank u ≤ scene.rank g)
    (fresh : Fresh r u) : Fresh r' u := by
  unfold Fresh
  rw [moved.others u other, moved_computeEpoch moved rowG rowU (board.seated u rowU) below]
  exact fresh

theorem turn_refresh {k : Nat} {rest : List Nat} (turn : Turn scene k (g :: rest) r) :
    ∃ r', Results (fun fuel => refresh code (exec code fuel) g) r (.ret ()) r' ∧
      Turn scene k rest r' := by
  have rowG := turn.listed g List.mem_cons_self
  obtain ⟨r', runs, board, moved, fresh, idle⟩ := refresh_results turn.board rowG
  refine ⟨r', runs, board, ?_, fun u member => turn.listed u (List.mem_cons_of_mem g member),
    ?_, ?_, ?_⟩
  · rw [moved.settleRounds]; exact turn.rounds
  · intro u rowU below
    have before := turn.final u rowU below
    by_cases final : scene.rank g < k
    · rw [idle (turn.final g rowG final)]; exact before
    · have other : u ≠ g := by
        rintro rfl
        exact final below
      exact fresh_moved moved rowG rowU turn.board other (by omega) before
  · intro u rowU same
    by_cases self : u = g
    · exact Or.inr (self ▸ fresh)
    rcases turn.next u rowU same with waits | before
    · exact Or.inl ((List.mem_cons.mp waits).resolve_left self)
    · by_cases final : scene.rank g < k
      · rw [idle (turn.final g rowG final)]; exact Or.inr before
      · exact Or.inr (fresh_moved moved rowG rowU turn.board self (by omega) before)
  · intro u rowU
    by_cases self : u = g
    · exact Or.inr (Or.inr (self ▸ fresh))
    rcases turn.tracked u rowU with queued | waits | before
    · exact Or.inl (moved.pending u queued)
    · exact Or.inr (Or.inl ((List.mem_cons.mp waits).resolve_left self))
    · rcases moved.notified u (turn.board.fibers.symm ▸ rowU) with queued | same
      · exact Or.inl queued
      · apply Or.inr (Or.inr _)
        unfold Fresh
        rw [moved.others u self, same]
        exact before

theorem runBatch_results {k : Nat} (rest : List Nat) (turn : Turn scene k rest r) :
    ∃ r', Results (fun fuel => runBatch code (exec code fuel) rest) r (.ret ()) r' ∧
      Turn scene k [] r' := by
  induction rest generalizing r with
  | nil => exact ⟨r, results_same fun fuel => rfl, turn⟩
  | cons g rest ih =>
      obtain ⟨s, refreshes, turn'⟩ := turn_refresh turn
      obtain ⟨r', batch, done⟩ := ih turn'
      exact ⟨r', results_bind (results_attempt refreshes) batch, done⟩

/-- A batch of fresh rows changes nothing. -/
theorem runBatch_idle (rest : List Nat) (board : Board scene r)
    (fresh : ∀ u ∈ rest, u ∈ scene.rows ∧ Fresh r u) :
    Results (fun fuel => runBatch code (exec code fuel) rest) r (.ret ()) r := by
  induction rest with
  | nil => exact results_same fun fuel => rfl
  | cons g rest ih =>
      obtain ⟨rowG, current⟩ := fresh g List.mem_cons_self
      obtain ⟨r', runs, -, -, -, idle⟩ := refresh_results board rowG
      rw [idle current] at runs
      have batch := ih fun u member => fresh u (List.mem_cons_of_mem g member)
      exact results_bind (results_attempt runs) batch

/-- Between two rounds: `k` rounds are over, and the rows below rank `k` are final. -/
structure Rounds (scene : Scene code) (k : Nat) (r : Root) : Prop where
  board : Board scene r
  rounds : scene.rows.length + 1 ≤ r.settleRounds
  final : ∀ u ∈ scene.rows, scene.rank u < k → Fresh r u
  tracked : ∀ u ∈ scene.rows, u ∈ r.pending ∨ Fresh r u
  last : scene.rows.length < k → r.pending = []

theorem board_pending (board : Board scene r) : Board scene { r with pending := [] } where
  ready := ⟨board.ready.deaf, board.ready.watching, board.ready.settling⟩
  fibers := board.fibers
  queued := fun u member => absurd member List.not_mem_nil
  seated := fun u rowU =>
    have seated := board.seated u rowU
    ⟨seated.declaration, seated.realm, seated.entryId, seated.children, seated.restartRequested⟩
  still := board.still
  rows := fun u rowU => (board.rows u rowU).imp
    (fun asleep => ⟨asleep.state, asleep.epoch, asleep.effects⟩)
    fun awake => ⟨awake.state, awake.saw, awake.own, awake.published⟩
  impls := board.impls

theorem rounds_step {k : Nat} (state : Rounds scene k r) (busy : r.pending ≠ []) :
    ∃ r', Results (fun fuel => runBatch code (exec code fuel) r.pending.eraseDups)
      { r with pending := [] } (.ret ()) r' ∧ Rounds scene (k + 1) r' := by
  have early : k ≤ scene.rows.length := by
    by_contra late
    exact busy (state.last (by omega))
  have listed : ∀ u ∈ r.pending.eraseDups, u ∈ scene.rows :=
    fun u member => state.board.queued u (List.mem_eraseDups.mp member)
  by_cases all : k = scene.rows.length
  · have fresh : ∀ u ∈ scene.rows, Fresh { r with pending := [] } u :=
      fun u rowU => state.final u rowU (all ▸ scene.bounded u rowU)
    refine ⟨{ r with pending := [] }, runBatch_idle _ (board_pending state.board)
      fun u member => ⟨listed u member, fresh u (listed u member)⟩, ?_⟩
    exact ⟨board_pending state.board, state.rounds, fun u rowU _ => fresh u rowU,
      fun u rowU => Or.inr (fresh u rowU), fun _ => rfl⟩
  · have turn : Turn scene k r.pending.eraseDups { r with pending := [] } := by
      refine ⟨board_pending state.board, state.rounds, listed, state.final, ?_, ?_⟩
      · intro u rowU _
        exact (state.tracked u rowU).imp (fun queued => List.mem_eraseDups.mpr queued) id
      · intro u rowU
        exact Or.inr ((state.tracked u rowU).imp (fun queued => List.mem_eraseDups.mpr queued) id)
    obtain ⟨r', batch, done⟩ := runBatch_results _ turn
    refine ⟨r', batch, done.board, done.rounds, ?_, ?_, fun late => by omega⟩
    · intro u rowU below
      rcases Nat.lt_succ_iff_lt_or_eq.mp below with lower | same
      · exact done.final u rowU lower
      · exact (done.next u rowU same).resolve_left List.not_mem_nil
    · intro u rowU
      rcases done.tracked u rowU with queued | waits | fresh
      · exact Or.inl queued
      · cases waits
      · exact Or.inr fresh

theorem rounds_fresh {k : Nat} (state : Rounds scene k r) (empty : r.pending = []) :
    ∀ u ∈ scene.rows, Fresh r u := by
  intro u rowU
  have tracked := state.tracked u rowU
  rw [empty] at tracked
  exact tracked.resolve_left List.not_mem_nil

theorem settleLoop_empty {k : Nat} (empty : r.pending = []) :
    Results (fun fuel => settleLoop code (exec code fuel) k) r (.ret ()) r := by
  apply results_same
  intro fuel
  rw [settleLoop, run_get_bind, if_pos empty]
  rfl

/-- The loop ends with nothing queued, by induction on the rounds that are left. -/
theorem settleLoop_results (left k : Nat) (count : left + k = scene.rows.length + 1)
    (state : Rounds scene k r) :
    ∃ r', Results (fun fuel => settleLoop code (exec code fuel) k) r (.ret ()) r' ∧
      Board scene r' ∧ r'.pending = [] ∧ ∀ u ∈ scene.rows, Fresh r' u := by
  induction left generalizing r k with
  | zero =>
      have empty := state.last (by omega)
      exact ⟨r, settleLoop_empty empty, state.board, empty, rounds_fresh state empty⟩
  | succ left ih =>
      by_cases empty : r.pending = []
      · exact ⟨r, settleLoop_empty empty, state.board, empty, rounds_fresh state empty⟩
      have early : k ≤ scene.rows.length := by
        by_contra late
        exact empty (state.last (by omega))
      obtain ⟨s, batch, after⟩ := rounds_step state empty
      obtain ⟨r', loop, board, drained, fresh⟩ := ih (k + 1) (by omega) after
      have turn : Results (fun fuel => exec code fuel (.settleLoop (k + 1))) s (.ret 0) r' := by
        apply results_succ (fun fuel => rfl)
        exact results_bind loop (results_same fun fuel => rfl)
      have again : Results (fun fuel => runBatch code (exec code fuel) r.pending.eraseDups >>=
          fun _ => exec code fuel (.settleLoop (k + 1)) >>= fun _ => pure ())
          { r with pending := [] } (.ret ()) r' :=
        results_bind batch (results_bind turn (results_same fun fuel => rfl))
      refine ⟨r', results_step (fun fuel => ?_) again, board, drained, fresh⟩
      have affordable : ¬ r.settleRounds < k + 1 := by
        have := state.rounds
        omega
      rw [settleLoop, run_get_bind, if_neg empty, if_neg affordable, run_modify_bind]

/-! ### Where the rounds end -/

theorem resolve_provider (board : Board scene r) (owner : Realm) (name : String) (v : Nat) :
    (∃ serial, r.impls owner name = some ⟨v, serial⟩) ↔
      v ∈ scene.rows ∧ (r.fiber v).state = .active ∧ scene.Key v owner name := by
  constructor
  · rintro ⟨serial, found⟩
    obtain ⟨-, rowV, active, key⟩ := board.impls owner name _ found
    exact ⟨rowV, active, key⟩
  · rintro ⟨rowV, active, provided, rfl⟩
    rcases board.rows v rowV with asleep | awake
    · rw [asleep.state] at active
      cases active
    · obtain ⟨⟨fiber, serial⟩, found, mine, -⟩ := awake.published name provided
      exact ⟨serial, mine ▸ found⟩

/-- A row at rest is active exactly when its required services have active providers. -/
theorem active_iff (board : Board scene r) (rowU : u ∈ scene.rows) (fresh : Fresh r u) :
    (r.fiber u).state = .active ↔ ∀ name ∈ (scene.declaration u).inject, ∃ v ∈ scene.rows,
      (r.fiber v).state = .active ∧ scene.Key v ((scene.realm u).ownerOf name) name := by
  have seated := board.seated u rowU
  have live : (r.fiber u).epoch ≠ none ↔ ∀ name ∈ (scene.declaration u).inject,
      r.resolve (scene.realm u) name ≠ none := by
    rw [fresh, Root.computeEpoch_ne_none_iff, seated.declaration, seated.realm]
  have provider (name : String) : r.resolve (scene.realm u) name ≠ none ↔ ∃ v ∈ scene.rows,
      (r.fiber v).state = .active ∧ scene.Key v ((scene.realm u).ownerOf name) name := by
    rw [Option.ne_none_iff_exists']
    constructor
    · rintro ⟨⟨v, serial⟩, found⟩
      exact ⟨v, (resolve_provider board _ name v).mp ⟨serial, found⟩⟩
    · rintro ⟨v, provides⟩
      obtain ⟨serial, found⟩ := (resolve_provider board _ name v).mpr provides
      exact ⟨_, found⟩
  have state : (r.fiber u).state = .active ↔ (r.fiber u).epoch ≠ none := by
    rcases board.rows u rowU with asleep | awake
    · simp [asleep.state, asleep.epoch]
    · obtain ⟨look, -, epoch, -⟩ := awake.saw
      simp [awake.state, epoch]
  rw [state, live]
  exact forall_congr' fun name => imp_congr_right fun _ => provider name

/-- An active row at rest last loaded with the providers that are active now. -/
theorem saw_current (board : Board scene r) (rowU : u ∈ scene.rows) (fresh : Fresh r u)
    (active : (r.fiber u).state = .active) :
    ∃ look : String → Option Impl,
      (r.fiber u).loadedWith = (Root.sorted (scene.declaration u).inject ++
        Root.sorted (scene.declaration u).optionalInject).map look ∧
      ∀ name ∈ (scene.declaration u).optionalInject,
        look name = r.resolve (scene.realm u) name := by
  have seated := board.seated u rowU
  rcases board.rows u rowU with asleep | awake
  · rw [asleep.state] at active
    cases active
  obtain ⟨look, loaded, epoch, known⟩ := awake.saw
  refine ⟨look, loaded, fun name optional => ?_⟩
  have serials := Root.computeEpoch_serials r u _ (fresh.symm.trans epoch)
  rw [loaded, Root.resolved, Root.required, Root.optional, seated.declaration, seated.realm,
    ← List.map_append, List.map_map, List.map_map] at serials
  have same := (List.map_inj_left.mp serials) name
    (List.mem_append_right _ ((Root.mem_sorted _ _).mpr optional))
  have same : Root.serialOf (look name) = Root.serialOf (r.resolve (scene.realm u) name) := same
  cases saw : look name with
  | none =>
      cases now : r.resolve (scene.realm u) name with
      | none => rfl
      | some impl =>
          obtain ⟨positive, -⟩ := board.impls _ _ _ now
          rw [saw, now] at same
          change 0 = impl.serial at same
          omega
  | some impl =>
      obtain ⟨positive, rowV, shared, owner⟩ := known name impl saw
      cases now : r.resolve (scene.realm u) name with
      | none =>
          rw [saw, now] at same
          change impl.serial = 0 at same
          omega
      | some impl' =>
          obtain ⟨-, rowW, -, shared', owner'⟩ := board.impls _ _ _ now
          have fiber := scene.single _ rowV _ rowW name shared shared' (owner.symm.trans owner')
          rw [saw, now] at same
          have serial : impl.serial = impl'.serial := same
          cases impl
          cases impl'
          simp_all

end Rounds

end AtrexAgent.Core
