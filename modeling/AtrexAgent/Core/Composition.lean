import AtrexAgent.Core.Convergence

/-! The rows of a composition, mounted in some order and settled. What the tree
ends as is a least set of rows, which no order enters. -/

namespace AtrexAgent.Core

open AtrexAgent.Computation
open AtrexAgent.Computation.Comp

structure Row where
  declaration : Declaration
  id : String
  isolate : List String
  deriving DecidableEq, Repr

namespace Row

/-- Where a row looks a service up and publishes it: its own realm under an
isolated name, the shared one otherwise. -/
def slot (row : Row) (name : String) : Option String × String :=
  (if name ∈ row.isolate then some row.id else none, name)

def Provides (row : Row) (slot : Option String × String) : Prop :=
  ∃ name ∈ row.declaration.provide, row.slot name = slot

def Requires (row : Row) (slot : Option String × String) : Prop :=
  ∃ name ∈ row.declaration.inject, row.slot name = slot

def Wants (row : Row) (slot : Option String × String) : Prop :=
  ∃ name ∈ row.declaration.optionalInject, row.slot name = slot

/-- The mount of `loader._mount`. -/
def mount (row : Row) : Op := .mount row.declaration row.id row.isolate none none

def realm (row : Row) (k : Nat) : Realm :=
  if row.isolate = [] then .root else .child k .root row.isolate

end Row

/-- The edge from a provider to whoever injects its service, in the same realm. -/
def Feeds (rows : List Row) (provider consumer : Row) : Prop :=
  provider ∈ rows ∧ consumer ∈ rows ∧
    ∃ slot, provider.Provides slot ∧ (consumer.Requires slot ∨ consumer.Wants slot)

def Acyclic (rows : List Row) : Prop := ∀ row, ¬ Relation.TransGen (Feeds rows) row row

def SingleProviders (rows : List Row) : Prop :=
  ∀ a ∈ rows, ∀ b ∈ rows, ∀ slot, a.Provides slot → b.Provides slot → a = b

/-- `apply` and the config check succeed, and `apply` publishes what is declared. -/
def Publishers (code : Code) (rows : List Row) : Prop :=
  ∀ row ∈ rows, ∀ f calls,
    (∃ result, code.resolveConfig row.declaration.resolveConfig f calls = .ret result) ∧
    Publishes code f row.declaration.provide (code.apply row.declaration.apply f calls)

/-- `S` has every row all of whose required services are provided by rows of `S`. -/
def ClosedUnder (rows : List Row) (S : Set Row) : Prop :=
  ∀ row ∈ rows, (∀ slot, row.Requires slot → ∃ provider ∈ rows, provider ∈ S ∧
    provider.Provides slot) → row ∈ S

/-- The least such set. -/
def supported (rows : List Row) : Set Row := { row | row ∈ rows ∧ ∀ S, ClosedUnder rows S → row ∈ S }

def bootHost (order : List Row) : Prog := Prog.strict (order.map Row.mount ++ [.settle])

/-- The ids of the active rows, `Root.active`. -/
def Root.active (r : Root) : Set String :=
  { id | ∃ u ∈ r.fibers, (r.fiber u).entryId = id ∧ (r.fiber u).state = .active }

/-- The optional service `name` of `u` is published by `v`, which is active. -/
def Root.ActiveProvider (r : Root) (u : Nat) (name : String) (v : Nat) : Prop :=
  v ∈ r.fibers ∧ (r.fiber v).state = .active ∧ name ∈ (r.fiber v).declaration.provide ∧
    (r.fiber u).realm.ownerOf name = (r.fiber v).realm.ownerOf name

/-- Every active row last loaded with exactly the optional providers active now. -/
def Root.SawOptional (r : Root) : Prop :=
  ∀ u ∈ r.fibers, (r.fiber u).state = .active → ∃ look : String → Option Impl,
    (r.fiber u).loadedWith = (Root.sorted (r.fiber u).declaration.inject ++
      Root.sorted (r.fiber u).declaration.optionalInject).map look ∧
    ∀ name ∈ (r.fiber u).declaration.optionalInject, ∀ v,
      (∃ serial, look name = some ⟨v, serial⟩) ↔ r.ActiveProvider u name v

/-! ### Mounting -/

/-- The root after the rows of `order` have been mounted; `kid` numbers the realms. -/
structure Laid (order : List Row) (rounds : Nat) (kid : Nat → Nat) (r : Root) : Prop where
  uid : r.uid = order.length
  fibers : r.fibers = (List.range order.length).map (· + 1)
  pending : r.pending = r.fibers
  listeners : r.listeners = []
  watching : r.watching = true
  settling : r.settling = false
  settleRounds : r.settleRounds = rounds
  impls : ∀ owner name, r.impls owner name = none
  fiber : ∀ i (inside : i < order.length), r.fiber (i + 1) = { Fiber.blank with
    declaration := order[i].declaration, entryId := order[i].id,
    realm := order[i].realm (kid i), state := .pending }
  kids : ∀ i (inside : i < order.length), order[i].isolate ≠ [] → kid i ≤ r.realms
  apart : ∀ i (insideI : i < order.length), ∀ j (insideJ : j < order.length),
    order[i].isolate ≠ [] → order[j].isolate ≠ [] → kid i = kid j → i = j

theorem laid_new (rounds : Nat) : Laid [] rounds (fun _ => 0) (Root.new rounds) where
  uid := rfl
  fibers := rfl
  pending := rfl
  listeners := rfl
  watching := rfl
  settling := rfl
  settleRounds := rfl
  impls := fun _ _ => rfl
  fiber := fun i inside => absurd inside (Nat.not_lt_zero i)
  kids := fun i inside => absurd inside (Nat.not_lt_zero i)
  apart := fun i inside => absurd inside (Nat.not_lt_zero i)

section Mounting

variable {code : Code} {order : List Row} {rounds : Nat} {kid : Nat → Nat} {r : Root}

theorem laid_mounted (laid : Laid order rounds kid r) (row : Row) :
    Laid (order ++ [row]) rounds
      (fun i => if i = order.length then r.realms + 1 else kid i)
      (r.mounted row.declaration row.id row.isolate none none) := by
  have uid := laid.uid
  have fiber (u : Nat) : (r.mounted row.declaration row.id row.isolate none none).fiber u =
      if u = r.uid + 1 then { Fiber.blank with
        declaration := row.declaration, entryId := row.id, realm := row.realm (r.realms + 1),
        state := .pending } else r.fiber u := by
    simp only [Root.mounted, Row.realm]
    rfl
  constructor
  · simp [Root.mounted, uid]
  · simp [Root.mounted, laid.fibers, uid, List.range_succ]
  · simp [Root.mounted, laid.pending]
  · exact laid.listeners
  · exact laid.watching
  · exact laid.settling
  · exact laid.settleRounds
  · exact laid.impls
  · intro i inside
    rw [fiber]
    by_cases last : i = order.length
    · subst last
      simp [uid]
    · have before : i < order.length := by
        simp at inside
        omega
      rw [if_neg (by omega), laid.fiber i before]
      simp [last, List.getElem_append_left before]
  · intro i inside isolates
    have realms : (r.mounted row.declaration row.id row.isolate none none).realms =
        if row.isolate = [] then r.realms else r.realms + 1 := rfl
    rw [realms]
    by_cases last : i = order.length
    · subst last
      have isolates : row.isolate ≠ [] := by simpa using isolates
      simp [isolates]
    · have before : i < order.length := by
        simp at inside
        omega
      rw [List.getElem_append_left before] at isolates
      have bound := laid.kids i before isolates
      rw [if_neg last]
      split <;> omega
  · intro i insideI j insideJ isolatesI isolatesJ same
    have old (k : Nat) (inside : k < (order ++ [row]).length) (other : k ≠ order.length)
        (isolates : (order ++ [row])[k].isolate ≠ []) :
        ∃ before : k < order.length, order[k].isolate ≠ [] ∧ kid k ≤ r.realms := by
      have before : k < order.length := by
        simp at inside
        omega
      rw [List.getElem_append_left before] at isolates
      exact ⟨before, isolates, laid.kids k before isolates⟩
    by_cases lastI : i = order.length
    · by_cases lastJ : j = order.length
      · exact lastI.trans lastJ.symm
      · obtain ⟨-, -, bound⟩ := old j insideJ lastJ isolatesJ
        rw [if_pos lastI, if_neg lastJ] at same
        omega
    · obtain ⟨beforeI, isolatesI, boundI⟩ := old i insideI lastI isolatesI
      by_cases lastJ : j = order.length
      · rw [if_neg lastI, if_pos lastJ] at same
        omega
      · obtain ⟨beforeJ, isolatesJ, -⟩ := old j insideJ lastJ isolatesJ
        rw [if_neg lastI, if_neg lastJ] at same
        exact laid.apart i beforeI j beforeJ isolatesI isolatesJ same

theorem laid_ids (laid : Laid order rounds kid r) (id : String) (fresh : id ∉ order.map Row.id) :
    ∀ u ∈ r.fibers, (r.fiber u).entryId ≠ id := by
  intro u member same
  rw [laid.fibers] at member
  obtain ⟨i, inside, rfl⟩ := List.mem_map.mp member
  have inside := List.mem_range.mp inside
  rw [laid.fiber i inside] at same
  exact fresh (List.mem_map.mpr ⟨order[i], List.getElem_mem inside, same⟩)

/-- The mounts of a host, with what it does after them. -/
theorem strict_mounts (rest : List Row) (tail : List Op) (laid : Laid order rounds kid r)
    (distinct : ((order ++ rest).map Row.id).Nodup) :
    ∃ kid' r', Laid (order ++ rest) rounds kid' r' ∧ ∀ outcome last,
      Results (fun fuel => runProg (exec code fuel) (Prog.strict tail)) r' outcome last →
      Results (fun fuel => runProg (exec code fuel) (Prog.strict (rest.map Row.mount ++ tail))) r
        outcome last := by
  induction rest generalizing order kid r with
  | nil =>
      rw [List.append_nil]
      exact ⟨kid, r, laid, fun _ _ runs => runs⟩
  | cons row rest ih =>
      have fresh : row.id ∉ order.map Row.id := by
        rw [List.map_append, List.nodup_append] at distinct
        intro member
        exact distinct.2.2 _ member _ List.mem_cons_self rfl
      have split : order ++ row :: rest = order ++ [row] ++ rest := by simp
      obtain ⟨kid', r', laid', after⟩ := ih (laid_mounted laid row) (by rw [← split]; exact distinct)
      refine ⟨kid', r', split ▸ laid', fun outcome last runs => ?_⟩
      have free : r.fibers.any (fun u => (r.fiber u).entryId = row.id) = false := by
        rw [List.any_eq_false]
        intro u member
        simpa using laid_ids laid row.id fresh u member
      have mounts : Results (fun fuel => exec code fuel (.op row.mount)) r (.ret (r.uid + 1))
          (r.mounted row.declaration row.id row.isolate none none) := by
        apply results_succ (fun fuel => rfl)
        apply results_same
        intro fuel
        change mount row.declaration row.id row.isolate none none r = _
        rw [mount, run_get_bind, if_neg (by simp [free])]
        rfl
      exact results_bind (results_attempt mounts) (after outcome last runs)

/-! ### Slots and realms -/

theorem ownerOf_slot (laid : Laid order rounds kid r) (distinct : (order.map Row.id).Nodup)
    {i j : Nat} (insideI : i < order.length) (insideJ : j < order.length) (name : String) :
    (r.fiber (i + 1)).realm.ownerOf name = (r.fiber (j + 1)).realm.ownerOf name ↔
      order[i].slot name = order[j].slot name := by
  have owner (k : Nat) (inside : k < order.length) : (r.fiber (k + 1)).realm.ownerOf name =
      if name ∈ order[k].isolate then .child (kid k) .root order[k].isolate else .root := by
    rw [laid.fiber k inside]
    simp only [Row.realm]
    by_cases shared : order[k].isolate = []
    · simp [shared, Realm.ownerOf]
    · simp [shared, Realm.ownerOf]
  rw [owner i insideI, owner j insideJ]
  unfold Row.slot
  by_cases ownI : name ∈ order[i].isolate
  · by_cases ownJ : name ∈ order[j].isolate
    · rw [if_pos ownI, if_pos ownJ, if_pos ownI, if_pos ownJ]
      constructor
      · intro same
        have index := laid.apart i insideI j insideJ (List.ne_nil_of_mem ownI)
          (List.ne_nil_of_mem ownJ) (Realm.child.inj same).1
        subst index
        rfl
      · intro same
        have ids : order[i].id = order[j].id := by simpa using same
        have index : i = j := by
          have boundI : i < (order.map Row.id).length := by simpa using insideI
          have boundJ : j < (order.map Row.id).length := by simpa using insideJ
          have ids : (order.map Row.id)[i] = (order.map Row.id)[j] := by simpa using ids
          exact (List.Nodup.getElem_inj_iff distinct).mp ids
        subst index
        rfl
    · simp [ownI, ownJ]
  · by_cases ownJ : name ∈ order[j].isolate
    · simp [ownI, ownJ]
    · simp [ownI, ownJ]

/-! ### The settled tree -/

theorem mem_fibers (laid : Laid order rounds kid r) (u : Nat) :
    u ∈ r.fibers ↔ ∃ i, i < order.length ∧ u = i + 1 := by
  rw [laid.fibers, List.mem_map]
  constructor
  · rintro ⟨i, inside, rfl⟩
    exact ⟨i, List.mem_range.mp inside, rfl⟩
  · rintro ⟨i, inside, rfl⟩
    exact ⟨i, List.mem_range.mpr inside, rfl⟩

theorem exists_rowRank (acyclic : Acyclic order) :
    ∃ rank : Row → Nat, (∀ row ∈ order, rank row < order.length) ∧
      ∀ a b, Feeds order a b → rank a < rank b := by
  obtain ⟨rank, bounded, rises⟩ := Rank.exists_rank order.toFinset (Feeds order) acyclic
  refine ⟨rank, fun row member => ?_, fun a b feeds => ?_⟩
  · exact lt_of_lt_of_le (bounded row (List.mem_toFinset.mpr member)) (List.toFinset_card_le order)
  · exact rises a (List.mem_toFinset.mpr feeds.1) b feeds

/-- What the rows are to the settle loop. -/
theorem exists_scene (laid : Laid order rounds kid r) (distinct : (order.map Row.id).Nodup)
    (acyclic : Acyclic order) (single : SingleProviders order) (plugins : Publishers code order) :
    ∃ scene : Scene code, scene.rows = r.fibers ∧
      (∀ u, scene.declaration u = (r.fiber u).declaration) ∧
      (∀ u, scene.realm u = (r.fiber u).realm) ∧ ∀ u, scene.entryId u = (r.fiber u).entryId := by
  obtain ⟨rank, bounded, rises⟩ := exists_rowRank acyclic
  have declared (i : Nat) (inside : i < order.length) :
      (r.fiber (i + 1)).declaration = order[i].declaration := by rw [laid.fiber i inside]
  refine ⟨{
    rows := r.fibers
    declaration := fun u => (r.fiber u).declaration
    realm := fun u => (r.fiber u).realm
    entryId := fun u => (r.fiber u).entryId
    rank := fun u => (order[u - 1]?.map rank).getD 0
    single := ?_
    ranked := ?_
    bounded := ?_
    config := ?_
    publishes := ?_ }, rfl, fun _ => rfl, fun _ => rfl, fun _ => rfl⟩
  · intro u rowU v rowV name providedU providedV owner
    obtain ⟨i, insideI, rfl⟩ := (mem_fibers laid u).mp rowU
    obtain ⟨j, insideJ, rfl⟩ := (mem_fibers laid v).mp rowV
    rw [declared i insideI] at providedU
    rw [declared j insideJ] at providedV
    have slot := (ownerOf_slot laid distinct insideI insideJ name).mp owner
    have same := single _ (List.getElem_mem insideI) _ (List.getElem_mem insideJ) _
      ⟨name, providedU, rfl⟩ ⟨name, providedV, slot.symm⟩
    have boundI : i < (order.map Row.id).length := by simpa using insideI
    have boundJ : j < (order.map Row.id).length := by simpa using insideJ
    have ids : (order.map Row.id)[i] = (order.map Row.id)[j] := by simp [same]
    rw [(List.Nodup.getElem_inj_iff distinct).mp ids]
  · intro u rowU v rowV name provided needed owner
    obtain ⟨i, insideI, rfl⟩ := (mem_fibers laid u).mp rowU
    obtain ⟨j, insideJ, rfl⟩ := (mem_fibers laid v).mp rowV
    rw [declared i insideI] at provided
    rw [declared j insideJ] at needed
    have slot := (ownerOf_slot laid distinct insideI insideJ name).mp owner
    have feeds : Feeds order order[i] order[j] :=
      ⟨List.getElem_mem insideI, List.getElem_mem insideJ, order[i].slot name,
        ⟨name, provided, rfl⟩, needed.imp (fun required => ⟨name, required, slot.symm⟩)
          fun optional => ⟨name, optional, slot.symm⟩⟩
    simpa [insideI, insideJ] using rises _ _ feeds
  · intro u rowU
    obtain ⟨i, inside, rfl⟩ := (mem_fibers laid u).mp rowU
    simpa [inside, laid.fibers] using bounded _ (List.getElem_mem inside)
  · intro u rowU calls
    obtain ⟨i, inside, rfl⟩ := (mem_fibers laid u).mp rowU
    rw [declared i inside]
    exact (plugins _ (List.getElem_mem inside) (i + 1) calls).1
  · intro u rowU calls
    obtain ⟨i, inside, rfl⟩ := (mem_fibers laid u).mp rowU
    rw [declared i inside]
    exact (plugins _ (List.getElem_mem inside) (i + 1) calls).2

/-- The scene of a mounted tree. -/
structure Casts (scene : Scene code) (r : Root) : Prop where
  rows : scene.rows = r.fibers
  declaration : ∀ u, scene.declaration u = (r.fiber u).declaration
  realm : ∀ u, scene.realm u = (r.fiber u).realm
  entryId : ∀ u, scene.entryId u = (r.fiber u).entryId

theorem laid_rounds (laid : Laid order rounds kid r) {scene : Scene code} (casts : Casts scene r)
    (budget : order.length + 1 ≤ rounds) : Rounds scene 0 { r with settling := true } := by
  have count : scene.rows.length = order.length := by simp [casts.rows, laid.fibers]
  have row (u : Nat) (member : u ∈ scene.rows) : ∃ i, ∃ inside : i < order.length,
      r.fiber u = { Fiber.blank with
        declaration := order[i].declaration, entryId := order[i].id,
        realm := order[i].realm (kid i), state := .pending } := by
    obtain ⟨i, inside, rfl⟩ := (mem_fibers laid u).mp (casts.rows ▸ member)
    exact ⟨i, inside, laid.fiber i inside⟩
  refine ⟨⟨⟨laid.listeners, laid.watching, rfl⟩, casts.rows.symm, ?_, ?_, ?_, ?_, ?_⟩, ?_,
    fun u _ below => absurd below (Nat.not_lt_zero _), ?_, fun late => absurd late (Nat.not_lt_zero _)⟩
  · intro u member
    have member : u ∈ r.pending := member
    rw [casts.rows, ← laid.pending]
    exact member
  · intro u member
    obtain ⟨i, inside, same⟩ := row u member
    exact ⟨(casts.declaration u).symm, (casts.realm u).symm, (casts.entryId u).symm,
      by rw [same]; rfl, by rw [same]; rfl⟩
  · intro u member
    obtain ⟨i, inside, same⟩ := row u member
    rw [same]
    rfl
  · intro u member
    obtain ⟨i, inside, same⟩ := row u member
    exact Or.inl ⟨by rw [same], by rw [same]; rfl, by rw [same]; rfl⟩
  · intro owner name impl found
    rw [laid.impls] at found
    cases found
  · change scene.rows.length + 1 ≤ r.settleRounds
    rw [laid.settleRounds, count]
    exact budget
  · intro u member
    apply Or.inl
    change u ∈ r.pending
    rw [laid.pending, ← casts.rows]
    exact member

/-- The tree a composition ends as. -/
structure Booted (order : List Row) (r : Root) : Prop where
  active : r.active = { id | ∃ row ∈ supported order, row.id = id }
  saw : r.SawOptional

theorem settled_active (laid : Laid order rounds kid r) (distinct : (order.map Row.id).Nodup)
    {scene : Scene code} (casts : Casts scene r) {last : Root} (board : Board scene last)
    (fresh : ∀ u ∈ scene.rows, Fresh last u) (i : Nat) (inside : i < order.length) :
    (last.fiber (i + 1)).state = .active ↔ order[i] ∈ supported order := by
  have row (i : Nat) (inside : i < order.length) : i + 1 ∈ scene.rows := by
    rw [casts.rows]
    exact (mem_fibers laid _).mpr ⟨i, inside, rfl⟩
  have declared (i : Nat) (inside : i < order.length) :
      scene.declaration (i + 1) = order[i].declaration := by
    rw [casts.declaration, laid.fiber i inside]
  -- An active provider of a slot of row `i`, in terms of rows.
  have provider (i : Nat) (inside : i < order.length) (name : String) (v : Nat) (rowV : v ∈ scene.rows)
      (key : scene.Key v ((scene.realm (i + 1)).ownerOf name) name) :
      ∃ j, ∃ insideJ : j < order.length, v = j + 1 ∧ order[j].Provides (order[i].slot name) := by
    obtain ⟨j, insideJ, rfl⟩ := (mem_fibers laid v).mp (casts.rows ▸ rowV)
    obtain ⟨provided, owner⟩ := key
    rw [declared j insideJ] at provided
    rw [casts.realm, casts.realm] at owner
    have slot := (ownerOf_slot laid distinct inside insideJ name).mp owner
    exact ⟨j, insideJ, rfl, name, provided, slot.symm⟩
  constructor
  · intro active
    refine ⟨List.getElem_mem inside, fun S closed => ?_⟩
    -- By induction on the rank: providers come before whoever needs them.
    induction rank : scene.rank (i + 1) using Nat.strong_induction_on generalizing i with
    | _ k ih =>
        apply closed _ (List.getElem_mem inside)
        rintro slot ⟨name, required, rfl⟩
        have needs := (active_iff board (row i inside) (fresh _ (row i inside))).mp active
        rw [declared i inside] at needs
        obtain ⟨v, rowV, activeV, key⟩ := needs name required
        obtain ⟨j, insideJ, rfl, provides⟩ := provider i inside name v rowV key
        have lower := scene.ranked _ rowV _ (row i inside) name key.1
          (Or.inl (by rw [declared i inside]; exact required)) key.2.symm
        exact ⟨order[j], List.getElem_mem insideJ,
          ih _ (by omega) j insideJ activeV rfl, provides⟩
  · rintro ⟨-, least⟩
    let S : Set Row := { row | ∀ j (insideJ : j < order.length), order[j] = row →
      (last.fiber (j + 1)).state = .active }
    have closed : ClosedUnder order S := by
      intro consumer member needs j insideJ same
      subst same
      apply (active_iff board (row j insideJ) (fresh _ (row j insideJ))).mpr
      rw [declared j insideJ]
      intro name required
      obtain ⟨supplier, memberS, insideS, name', provided, slot⟩ := needs _ ⟨name, required, rfl⟩
      obtain ⟨k, insideK, rfl⟩ := List.getElem_of_mem memberS
      have equal : name' = name := congrArg Prod.snd slot
      subst equal
      refine ⟨k + 1, row k insideK, insideS k insideK rfl, ?_, ?_⟩
      · rw [declared k insideK]
        exact provided
      · rw [casts.realm, casts.realm]
        exact (ownerOf_slot laid distinct insideJ insideK name').mpr slot.symm
    exact least S closed i inside rfl

theorem settled_booted (laid : Laid order rounds kid r) (distinct : (order.map Row.id).Nodup)
    {scene : Scene code} (casts : Casts scene r) {last : Root} (board : Board scene last)
    (fresh : ∀ u ∈ scene.rows, Fresh last u) : Booted order last := by
  have active := settled_active laid distinct casts board fresh
  have rows (u : Nat) : u ∈ last.fibers ↔ ∃ i, i < order.length ∧ u = i + 1 := by
    rw [board.fibers, casts.rows]
    exact mem_fibers laid u
  have seated (u : Nat) (member : u ∈ last.fibers) := board.seated u (board.fibers ▸ member)
  have entryId (i : Nat) (inside : i < order.length) :
      (last.fiber (i + 1)).entryId = order[i].id := by
    rw [(seated _ ((rows _).mpr ⟨i, inside, rfl⟩)).entryId, casts.entryId, laid.fiber i inside]
  constructor
  · ext id
    constructor
    · rintro ⟨u, member, same, state⟩
      obtain ⟨i, inside, rfl⟩ := (rows u).mp member
      exact ⟨order[i], (active i inside).mp state, (entryId i inside).symm.trans same⟩
    · rintro ⟨row, supports, same⟩
      obtain ⟨i, inside, rfl⟩ := List.getElem_of_mem supports.1
      exact ⟨i + 1, (rows _).mpr ⟨i, inside, rfl⟩, (entryId i inside).trans same,
        (active i inside).mpr supports⟩
  · intro u member state
    have rowU : u ∈ scene.rows := board.fibers ▸ member
    obtain ⟨look, loaded, current⟩ := saw_current board rowU (fresh u rowU) state
    have self := seated u member
    refine ⟨look, by rw [self.declaration]; exact loaded, fun name optional v => ?_⟩
    rw [self.declaration] at optional
    rw [current name optional]
    have provider := resolve_provider board ((scene.realm u).ownerOf name) name v
    constructor
    · intro found
      obtain ⟨rowV, activeV, provided, owner⟩ := provider.mp found
      have other := board.seated v rowV
      exact ⟨board.fibers.symm ▸ rowV, activeV, by rw [other.declaration]; exact provided,
        by rw [self.realm, other.realm]; exact owner⟩
    · rintro ⟨memberV, activeV, provided, owner⟩
      have other := seated v memberV
      rw [self.realm, other.realm] at owner
      rw [other.declaration] at provided
      exact provider.mpr ⟨board.fibers ▸ memberV, activeV, provided, owner⟩

/-- Mounting the rows in one order and settling them. -/
theorem boot_results (distinct : (order.map Row.id).Nodup) (acyclic : Acyclic order)
    (single : SingleProviders order) (plugins : Publishers code order)
    (budget : order.length + 1 ≤ rounds) :
    ∃ r, Results (fun fuel => drive code fuel (bootHost order)) (Root.new rounds) (.ret none) r ∧
      Booted order r := by
  obtain ⟨kid, mounted, laid, after⟩ : ∃ kid' r', Laid order rounds kid' r' ∧ ∀ outcome last,
      Results (fun fuel => runProg (exec code fuel) (Prog.strict [Op.settle])) r' outcome last →
      Results (fun fuel => runProg (exec code fuel)
        (Prog.strict (order.map Row.mount ++ [Op.settle]))) (Root.new rounds) outcome last :=
    strict_mounts order [.settle] (laid_new rounds) distinct
  obtain ⟨scene, rows, declaration, realm, entryId⟩ :=
    exists_scene laid distinct acyclic single plugins
  have casts : Casts scene mounted := ⟨rows, declaration, realm, entryId⟩
  have count : scene.rows.length = order.length := by simp [rows, laid.fibers]
  obtain ⟨last, loop, board, drained, fresh⟩ :=
    settleLoop_results (order.length + 1) 0 (by omega) (laid_rounds laid casts budget)
  have booted := settled_booted laid distinct casts board fresh
  let final : Root := { last with
    settling := false
    settledLog := last.settledLog ++ [⟨last.disposeStack, last.fibers.map last.view⟩] }
  have looped : Results (fun fuel => exec code fuel (.settleLoop 0) >>= fun _ => pure ())
      { mounted with settling := true } (.ret ()) last := by
    have turn : Results (fun fuel => exec code fuel (.settleLoop 0))
        { mounted with settling := true } (.ret 0) last := by
      apply results_succ (fun fuel => rfl)
      exact results_bind loop (results_same fun fuel => rfl)
    exact results_bind turn (results_same fun fuel => rfl)
  have ends : Results (fun fuel => andFinally
      (exec code fuel (.settleLoop 0) >>= fun _ => pure ())
      (modify fun r => { r with settling := false } : M Unit))
      { mounted with settling := true } (.ret ()) { last with settling := false } :=
    results_andFinally looped (results_same fun fuel => rfl)
  obtain ⟨bound, ends⟩ := ends
  have settles : Results (fun fuel => exec code fuel (.op .settle)) mounted (.ret 0) final := by
    apply results_succ (fun fuel => rfl)
    use bound
    intro fuel enough
    have loop := ends fuel enough
    have opened : settle (exec code fuel) mounted = (.ret (), final) := by
      rw [settle, run_get_bind, if_neg (by simp [laid.settling]), run_modify_bind]
      exact run_bind_ret loop _
    exact run_bind_ret opened _
  have tail : Results (fun fuel => runProg (exec code fuel) (Prog.strict [.settle])) mounted
      (.ret none) final :=
    results_bind (results_attempt settles) (results_same fun fuel => rfl)
  exact ⟨final, after _ _ tail, booted.active, booted.saw⟩

end Mounting

theorem supported_perm {rows order : List Row} (permuted : order.Perm rows) :
    supported order = supported rows := by
  have member (row : Row) : row ∈ order ↔ row ∈ rows := permuted.mem_iff
  unfold supported ClosedUnder
  simp only [member]

/-- Row order carries no load semantics: in whichever of two orders the rows are
mounted, `settle()` returns, the same rows are active (the least set of rows whose
required services rows of the set provide), and each of them has last loaded with
exactly the optional providers that are active. -/
theorem row_order_carries_no_load_semantics (code : Code) (rows first second : List Row)
    (rounds : Nat) (left : first.Perm rows) (right : second.Perm rows)
    (distinct : (rows.map Row.id).Nodup) (acyclic : Acyclic rows) (single : SingleProviders rows)
    (plugins : Publishers code rows) (budget : rows.length + 1 ≤ rounds) :
    ∃ bound r s, (∀ fuel, bound ≤ fuel →
        drive code fuel (bootHost first) (Root.new rounds) = (.ret none, r) ∧
        drive code fuel (bootHost second) (Root.new rounds) = (.ret none, s)) ∧
      r.active = s.active ∧ r.active = { id | ∃ row ∈ supported rows, row.id = id } ∧
      r.SawOptional ∧ s.SawOptional := by
  have boot (order : List Row) (permuted : order.Perm rows) :
      ∃ r, Results (fun fuel => drive code fuel (bootHost order)) (Root.new rounds) (.ret none) r ∧
        Booted order r := by
    have member (row : Row) : row ∈ order ↔ row ∈ rows := permuted.mem_iff
    apply boot_results
    · exact (permuted.map Row.id).nodup_iff.mpr distinct
    · unfold Acyclic Feeds
      simp only [member]
      exact acyclic
    · unfold SingleProviders
      simp only [member]
      exact single
    · unfold Publishers
      simp only [member]
      exact plugins
    · rw [permuted.length_eq]
      exact budget
  obtain ⟨r, ⟨boundR, runsR⟩, bootedR⟩ := boot first left
  obtain ⟨s, ⟨boundS, runsS⟩, bootedS⟩ := boot second right
  have activeR := bootedR.active
  have activeS := bootedS.active
  rw [supported_perm left] at activeR
  rw [supported_perm right] at activeS
  refine ⟨max boundR boundS, r, s, fun fuel enough => ⟨?_, ?_⟩, activeR.trans activeS.symm, activeR,
    bootedR.saw, bootedS.saw⟩
  · exact runsR fuel (le_trans (le_max_left _ _) enough)
  · exact runsS fuel (le_trans (le_max_right _ _) enough)

def providerRow : Row := ⟨⟨[], [], ["store"], 0, 1⟩, "provider", []⟩

def consumerRow : Row := ⟨⟨["store"], [], [], 1, 1⟩, "consumer", []⟩

theorem feeds_swap {a b : Row} (feeds : Feeds [consumerRow, providerRow] a b) :
    a = providerRow ∧ b = consumerRow := by
  obtain ⟨memberA, memberB, slot, ⟨name, provided, rfl⟩, needed⟩ := feeds
  rcases List.mem_pair.mp memberA with rfl | rfl
  · simp [consumerRow] at provided
  · rcases List.mem_pair.mp memberB with rfl | rfl
    · exact ⟨rfl, rfl⟩
    · simp [Row.Requires, Row.Wants, providerRow] at needed

theorem row_order_carries_no_load_semantics_swap :
    ∃ bound r s, (∀ fuel, bound ≤ fuel →
        drive swapCode fuel (bootHost [consumerRow, providerRow]) (Root.new 3) = (.ret none, r) ∧
        drive swapCode fuel (bootHost [providerRow, consumerRow]) (Root.new 3) = (.ret none, s)) ∧
      r.active = s.active ∧
      r.active = { id | ∃ row ∈ supported [consumerRow, providerRow], row.id = id } ∧
      r.SawOptional ∧ s.SawOptional := by
  apply row_order_carries_no_load_semantics swapCode [consumerRow, providerRow]
    [consumerRow, providerRow] [providerRow, consumerRow] 3
  · exact List.Perm.refl _
  · exact List.Perm.swap _ _ _
  · decide
  · intro row cycle
    have first : row = providerRow := by
      obtain ⟨next, step, -⟩ := Relation.TransGen.head'_iff.mp cycle
      exact (feeds_swap step).1
    have last : row = consumerRow := by
      obtain ⟨previous, -, step⟩ := Relation.TransGen.tail'_iff.mp cycle
      exact (feeds_swap step).2
    rw [first] at last
    simp [providerRow, consumerRow] at last
  · intro a memberA b memberB slot providesA providesB
    have only (row : Row) (member : row ∈ [consumerRow, providerRow])
        (provides : row.Provides slot) : row = providerRow := by
      rcases List.mem_pair.mp member with rfl | rfl
      · obtain ⟨name, provided, -⟩ := provides
        simp [consumerRow] at provided
      · rfl
    rw [only a memberA providesA, only b memberB providesB]
  · intro row member f calls
    rcases List.mem_pair.mp member with rfl | rfl
    · exact ⟨⟨none, rfl⟩, Publishes.ret none fun cb wrong => by cases wrong⟩
    · refine ⟨⟨none, rfl⟩, Publishes.provide "store" _ _ (by simp [providerRow]) fun id => ?_⟩
      exact Publishes.ret none fun cb wrong => by cases wrong
  · decide

end AtrexAgent.Core
