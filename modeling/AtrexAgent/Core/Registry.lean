import AtrexAgent.Core.Model
import AtrexAgent.Library.Items

/-! The service store over a tree of realms: what is published where, and what each realm sees. -/

namespace AtrexAgent.Core.Registry

open AtrexAgent

variable {V : Type}

inductive Cardinality where
  | single | registry
  deriving DecidableEq, Repr

structure ServiceKey where
  name : String
  cardinality : Cardinality
  deriving DecidableEq, Repr

/-- A live implementation and the entry of its fiber; the serial tells registrations apart. -/
structure Impl (V : Type) where
  key : ServiceKey
  value : V
  entryId : String
  serial : Nat
  deriving DecidableEq, Repr

/-- The `_impls` of every realm, the `_serial` of the root, and how many realms `isolate` made. -/
structure Store (V : Type) where
  made : Nat
  impls : Realm → List (String × Impl V)
  serial : Nat

/-- What the disposer of a registration holds. -/
structure Disposer (V : Type) where
  owner : Realm
  impl : Impl V

def empty : Store V := ⟨0, fun _ => [], 0⟩

/-! ### Reads -/

def resolve (store : Store V) (realm : Realm) (name : String) : Option (Impl V) :=
  Items.get? (store.impls (realm.ownerOf name)) name

/-- Every service visible from a realm; isolated names are dropped from the inherited set. -/
def entries (store : Store V) : Realm → List (String × Impl V)
  | .root => Items.update [] (store.impls .root)
  | .child id parent isolated =>
      Items.update ((entries store parent).filter fun item => decide (item.1 ∉ isolated))
        (store.impls (.child id parent isolated))

/-- `Fiber.compute_epoch`; `none` stands for `INACTIVE`. -/
def epoch (store : Store V) (realm : Realm) (inject optionalInject : List String) : Option (List Nat) := do
  let ids ← (inject.insertionSort (· ≤ ·)).mapM fun name => (resolve store realm name).map Impl.serial
  return ids ++ (optionalInject.insertionSort (· ≤ ·)).map fun name => ((resolve store realm name).map Impl.serial).getD 0

/-! ### Writes -/

def Store.write (store : Store V) (owner : Realm) (items : List (String × Impl V)) : Store V :=
  { store with impls := Function.update store.impls owner items }

/-- `provide`; `shaped` says that a value has what a registry needs. -/
def provide (shaped : V → Bool) (store : Store V) (realm : Realm) (key : ServiceKey) (value : V) (entryId : String) :
    Except Exc (Store V × Disposer V) :=
  let owner := realm.ownerOf key.name
  match Items.get? (store.impls owner) key.name with
  | some existing => .error (.duplicateProvide key.name existing.entryId entryId)
  | none =>
      if key.cardinality = .registry ∧ shaped value = false then .error (.registryShape key.name entryId)
      else
        let impl : Impl V := ⟨key, value, entryId, store.serial + 1⟩
        .ok ({ store with serial := store.serial + 1 }.write owner (Items.set (store.impls owner) key.name impl), ⟨owner, impl⟩)

/-- The disposer: it withdraws the implementation, where it is still the one that is published. -/
def dispose (store : Store V) (disposer : Disposer V) : Store V :=
  let name := disposer.impl.key.name
  if (Items.get? (store.impls disposer.owner) name).map Impl.serial = some disposer.impl.serial then
    store.write disposer.owner (Items.remove (store.impls disposer.owner) name)
  else store

/-- `isolate`: a new realm, which owns these names. -/
def isolate (store : Store V) (realm : Realm) (names : List String) : Store V × Realm :=
  ({ store with made := store.made + 1 }, .child store.made realm names)

/-! ### Histories -/

/-- What was done; a registration carries where it went. -/
inductive Call (V : Type) where
  | isolated (realm : Realm)
  | provided (disposer : Disposer V)
  | refused (error : Exc)
  | disposed (disposer : Disposer V)

/-- A call on a realm of the tree, or on a disposer that a call gave out. -/
inductive Step (shaped : V → Bool) (log : List (Call V)) : Store V → Call V → Store V → Prop
  | isolate (store : Store V) (realm : Realm) (names : List String) :
      Step shaped log store (.isolated (isolate store realm names).2) (isolate store realm names).1
  | provide (store store' : Store V) (realm : Realm) (key : ServiceKey) (value : V) (entryId : String)
      (disposer : Disposer V) (done : provide shaped store realm key value entryId = .ok (store', disposer)) :
      Step shaped log store (.provided disposer) store'
  | refuse (store : Store V) (realm : Realm) (key : ServiceKey) (value : V) (entryId : String) (error : Exc)
      (refused : provide shaped store realm key value entryId = .error error) : Step shaped log store (.refused error) store
  | dispose (store : Store V) (disposer : Disposer V) (given : .provided disposer ∈ log) :
      Step shaped log store (.disposed disposer) (dispose store disposer)

/-- What follows on a history, newest first. -/
inductive Run (shaped : V → Bool) (before : List (Call V)) (start : Store V) : List (Call V) → Store V → Prop
  | nil : Run shaped before start [] start
  | step {log : List (Call V)} {call : Call V} {store store' : Store V} (run : Run shaped before start log store)
      (step : Step shaped (log ++ before) store call store') : Run shaped before start (call :: log) store'

/-- The registrations of a history. -/
def registrations (log : List (Call V)) : List (Disposer V) := log.filterMap fun
  | .provided disposer => some disposer
  | _ => none

variable {shaped : V → Bool} {log : List (Call V)} {store store' : Store V} {call : Call V}

@[simp] theorem mem_registrations {disposer : Disposer V} : disposer ∈ registrations log ↔ .provided disposer ∈ log := by
  rw [registrations, List.mem_filterMap]
  constructor
  · intro ⟨call, member, same⟩
    cases call with
    | provided other =>
        cases same
        exact member
    | _ => cases same
  · intro member
    exact ⟨_, member, rfl⟩

/-! ### One call -/

/-- What a call does to the tables: nothing, one registration with a new serial, or one withdrawal. -/
inductive Change (store : Store V) : Call V → Store V → Prop
  | same {call : Call V} {store' : Store V} (impls : store'.impls = store.impls) (serial : store'.serial = store.serial)
      (other : ∀ disposer, call ≠ .provided disposer) : Change store call store'
  | published (realm : Realm) (impl : Impl V) (serial : impl.serial = store.serial + 1)
      (free : Items.get? (store.impls (realm.ownerOf impl.key.name)) impl.key.name = none) :
      Change store (.provided ⟨realm.ownerOf impl.key.name, impl⟩)
        ({ store with serial := store.serial + 1 }.write (realm.ownerOf impl.key.name)
          (Items.set (store.impls (realm.ownerOf impl.key.name)) impl.key.name impl))
  | withdrawn (disposer : Disposer V) : Change store (.disposed disposer)
      (store.write disposer.owner (Items.remove (store.impls disposer.owner) disposer.impl.key.name))

theorem step_change (step : Step shaped log store call store') : Change store call store' := by
  cases step with
  | isolate realm names => exact .same rfl rfl (by simp)
  | refuse => exact .same rfl rfl (by simp)
  | provide _ realm key value entryId disposer done =>
      unfold provide at done
      dsimp only at done
      split at done
      · cases done
      · rename_i free
        split at done
        · cases done
        · cases done
          exact .published realm ⟨key, value, entryId, store.serial + 1⟩ rfl free
  | dispose disposer given =>
      unfold dispose
      dsimp only
      split
      · exact .withdrawn disposer
      · exact .same rfl rfl (by simp)

theorem ownerOf_idem (realm : Realm) (name : String) : (realm.ownerOf name).ownerOf name = realm.ownerOf name := by
  induction realm with
  | root => rfl
  | child id parent isolated ih =>
      rw [Realm.ownerOf]
      split
      · rename_i inside
        rw [Realm.ownerOf, if_pos inside]
      · exact ih

/-- The owner of a name below the root isolates it. -/
theorem owner_isolates {realm parent : Realm} {id : Nat} {isolated : List String} {name : String}
    (owner : realm.ownerOf name = .child id parent isolated) : name ∈ isolated := by
  induction realm with
  | root => cases owner
  | child id' parent' isolated' ih =>
      rw [Realm.ownerOf] at owner
      split at owner
      · rename_i inside
        cases owner
        exact inside
      · exact ih owner

/-! ### What holds in every history -/

structure Inv (log : List (Call V)) (store : Store V) : Prop where
  distinct : ∀ realm, ((store.impls realm).map Prod.fst).Nodup
  isolated : ∀ id parent isolated, ∀ item ∈ store.impls (.child id parent isolated), item.1 ∈ isolated
  bounded : ∀ realm, ∀ item ∈ store.impls realm, 0 < item.2.serial ∧ item.2.serial ≤ store.serial
  registered : ∀ disposer ∈ registrations log, disposer.impl.serial ≤ store.serial
  ordered : ((registrations log).map fun disposer => disposer.impl.serial).Pairwise (· > ·)

@[simp] theorem write_impls (store : Store V) (owner realm : Realm) (items : List (String × Impl V)) :
    (store.write owner items).impls realm = if realm = owner then items else store.impls realm := by
  rw [Store.write]
  exact Function.update_apply store.impls owner items realm

@[simp] theorem write_serial (store : Store V) (owner : Realm) (items : List (String × Impl V)) :
    (store.write owner items).serial = store.serial := rfl

theorem inv_empty : Inv ([] : List (Call V)) empty :=
  ⟨by simp [empty], by simp [empty], by simp [empty], by simp [registrations], by simp [registrations]⟩

theorem registrations_other (other : ∀ disposer, call ≠ .provided disposer) :
    registrations (call :: log) = registrations log := by
  cases call with
  | provided disposer => exact absurd rfl (other disposer)
  | _ => rfl

theorem inv_same (impls : store'.impls = store.impls) (serial : store'.serial = store.serial)
    (other : ∀ disposer, call ≠ .provided disposer) (inv : Inv log store) : Inv (call :: log) store' := by
  refine ⟨?_, ?_, ?_, ?_, ?_⟩
  · rw [impls]
    exact inv.distinct
  · rw [impls]
    exact inv.isolated
  · rw [impls, serial]
    exact inv.bounded
  · rw [registrations_other other, serial]
    exact inv.registered
  · rw [registrations_other other]
    exact inv.ordered

theorem inv_published {realm : Realm} {impl : Impl V} (serial : impl.serial = store.serial + 1)
    (free : Items.get? (store.impls (realm.ownerOf impl.key.name)) impl.key.name = none) (inv : Inv log store) :
    Inv (.provided ⟨realm.ownerOf impl.key.name, impl⟩ :: log)
      ({ store with serial := store.serial + 1 }.write (realm.ownerOf impl.key.name)
        (Items.set (store.impls (realm.ownerOf impl.key.name)) impl.key.name impl)) := by
  generalize here : realm.ownerOf impl.key.name = owner at free ⊢
  rw [Items.keys_set_absent free]
  refine ⟨fun other => ?_, fun id parent isolated item member => ?_, fun other item member => ?_, fun disposer member => ?_, ?_⟩
  · rw [write_impls]
    split
    · have fresh : impl.key.name ∉ (store.impls owner).map Prod.fst := by
        intro inside
        obtain ⟨item, member, same⟩ := List.mem_map.mp inside
        exact Items.get?_eq_none.mp free item member same
      rw [List.map_append, List.nodup_append]
      refine ⟨inv.distinct owner, by simp, fun key old key' new same => fresh ?_⟩
      rw [List.map_singleton, List.mem_singleton] at new
      rw [same, new] at old
      exact old
    · exact inv.distinct other
  · rw [write_impls] at member
    split at member
    · rename_i same
      rcases List.mem_append.mp member with old | new
      · exact inv.isolated id parent isolated item (same ▸ old)
      · rw [List.mem_singleton.mp new]
        exact owner_isolates (here.trans same.symm)
    · exact inv.isolated id parent isolated item member
  · rw [write_impls] at member
    rw [write_serial]
    split at member
    · rcases List.mem_append.mp member with old | new
      · have bounds := inv.bounded owner item old
        exact ⟨bounds.1, bounds.2.trans (Nat.le_succ _)⟩
      · rw [List.mem_singleton.mp new, serial]
        exact ⟨Nat.succ_pos _, le_rfl⟩
    · have bounds := inv.bounded other item member
      exact ⟨bounds.1, bounds.2.trans (Nat.le_succ _)⟩
  · rw [write_serial]
    rcases List.mem_cons.mp (mem_registrations.mp member) with new | old
    · cases new
      exact serial.le
    · exact (inv.registered disposer (mem_registrations.mpr old)).trans (Nat.le_succ _)
  · have first : registrations (.provided ⟨owner, impl⟩ :: log) = ⟨owner, impl⟩ :: registrations log := rfl
    rw [first, List.map_cons, List.pairwise_cons]
    refine ⟨fun older member => ?_, inv.ordered⟩
    obtain ⟨disposer, given, rfl⟩ := List.mem_map.mp member
    have before := inv.registered disposer given
    dsimp only
    omega

theorem inv_withdrawn (disposer : Disposer V) (inv : Inv log store) : Inv (.disposed disposer :: log)
    (store.write disposer.owner (Items.remove (store.impls disposer.owner) disposer.impl.key.name)) := by
  have kept {realm : Realm} {item : String × Impl V} (member : item ∈
      (store.write disposer.owner (Items.remove (store.impls disposer.owner) disposer.impl.key.name)).impls realm) :
      item ∈ store.impls realm := by
    rw [write_impls] at member
    split at member
    · rename_i same
      rw [same]
      exact List.mem_of_mem_filter member
    · exact member
  refine ⟨fun other => ?_, fun id parent isolated item member => inv.isolated id parent isolated item (kept member),
    fun other item member => inv.bounded other item (kept member), inv.registered, inv.ordered⟩
  rw [write_impls]
  split
  · rw [Items.keys_remove]
    exact (inv.distinct _).filter _
  · exact inv.distinct other

theorem inv_step (inv : Inv log store) (step : Step shaped log store call store') : Inv (call :: log) store' := by
  cases step_change step with
  | same impls serial other => exact inv_same impls serial other inv
  | published realm impl serial free => exact inv_published serial free inv
  | withdrawn disposer => exact inv_withdrawn disposer inv

theorem run_inv {before : List (Call V)} {start : Store V} (inv : Inv before start) (run : Run shaped before start log store) :
    Inv (log ++ before) store := by
  induction run with
  | nil => exact inv
  | step _ taken ih => exact inv_step ih taken

/-! ### What a realm sees -/

theorem resolve_child (store : Store V) (id : Nat) (parent : Realm) (isolated : List String) (name : String) :
    resolve store (.child id parent isolated) name =
      if name ∈ isolated then Items.get? (store.impls (.child id parent isolated)) name else resolve store parent name := by
  unfold resolve
  rw [Realm.ownerOf]
  split <;> rfl

/-- What is listed under a name is what the name resolves to. -/
theorem entries_resolve (inv : Inv log store) (realm : Realm) (name : String) :
    Items.get? (entries store realm) name = resolve store realm name := by
  induction realm with
  | root =>
      rw [entries, Items.get?_update, Items.get?_reverse (inv.distinct _), Items.get?_nil, Option.or_none]
      rfl
  | child id parent isolated ih =>
      rw [entries, Items.get?_update, Items.get?_reverse (inv.distinct _),
        Items.get?_filter _ (fun name => decide (name ∉ isolated)), ih, resolve_child]
      by_cases inside : name ∈ isolated
      · simp [inside]
      · have absent : Items.get? (store.impls (.child id parent isolated)) name = none := by
          apply Items.get?_eq_none.mpr
          intro item member same
          exact inside (same ▸ inv.isolated id parent isolated item member)
        simp [inside, absent]

/-! ### Registering anew -/

/-- After a call a slot holds what it held, nothing, or what the call published there. -/
theorem slot_step (step : Step shaped log store call store') (owner : Realm) (name : String) :
    Items.get? (store'.impls owner) name = Items.get? (store.impls owner) name ∨
    Items.get? (store'.impls owner) name = none ∨
      ∃ impl, call = .provided ⟨owner, impl⟩ ∧ Items.get? (store'.impls owner) name = some impl ∧ impl.serial = store.serial + 1 := by
  cases step_change step with
  | same impls => exact .inl (by rw [impls])
  | published realm impl serial free =>
      rw [write_impls]
      split
      · rename_i at_owner
        rw [Items.get?_set]
        split
        · exact .inr (.inr ⟨impl, by rw [at_owner], rfl, serial⟩)
        · exact .inl (by rw [at_owner])
      · exact .inl rfl
  | withdrawn disposer =>
      rw [write_impls]
      split
      · rename_i at_owner
        rw [Items.get?_remove]
        split
        · exact .inr (.inl rfl)
        · exact .inl (by rw [at_owner])
      · exact .inl rfl

/-- No call takes a serial back. -/
theorem step_serial (step : Step shaped log store call store') : store.serial ≤ store'.serial := by
  cases step_change step with
  | same _ serial _ => exact serial.ge
  | published => exact Nat.le_succ _
  | withdrawn => exact le_rfl

theorem run_serial {before : List (Call V)} {start : Store V} (run : Run shaped before start log store) :
    start.serial ≤ store.serial := by
  induction run with
  | nil => exact le_rfl
  | step _ taken ih => exact ih.trans (step_serial taken)

/-- What is published is there, with the next serial. -/
theorem provided_spec {disposer : Disposer V} (step : Step shaped log store (.provided disposer) store') :
    Items.get? (store'.impls disposer.owner) disposer.impl.key.name = some disposer.impl ∧
      disposer.impl.serial = store.serial + 1 := by
  cases step_change step with
  | same _ _ other => exact absurd rfl (other disposer)
  | published realm impl serial free => simp [serial]

/-- Once a name is registered anew, what it resolves to is newer than what it resolved to before. -/
theorem renewed {before : List (Call V)} {start : Store V} (run : Run shaped before start log store) {owner : Realm} {name : String}
    (renews : ∃ impl, impl.key.name = name ∧ .provided ⟨owner, impl⟩ ∈ log) {impl : Impl V}
    (here : Items.get? (store.impls owner) name = some impl) : start.serial < impl.serial := by
  induction run generalizing impl with
  | nil =>
      obtain ⟨again, named, inside⟩ := renews
      cases inside
  | step earlier taken ih =>
      have more := run_serial earlier
      obtain ⟨again, named, inside⟩ := renews
      rcases List.mem_cons.mp inside with rfl | rest
      · obtain ⟨now, serial⟩ := provided_spec taken
        dsimp only at now serial
        rw [named, here, Option.some_inj] at now
        rw [now, serial]
        omega
      rcases slot_step taken owner name with kept | gone | ⟨published, -, now, serial⟩
      · rw [kept] at here
        exact ih ⟨again, named, rest⟩ here
      · cases gone.symm.trans here
      · cases now.symm.trans here
        omega

/-- The serial under a name; 0 where nothing is published. -/
def serialOf (store : Store V) (realm : Realm) (name : String) : Nat := ((resolve store realm name).map Impl.serial).getD 0

theorem mapM_serials (store : Store V) (realm : Realm) {names : List String} {ids : List Nat}
    (here : (names.mapM fun name => (resolve store realm name).map Impl.serial) = some ids) :
    ids = names.map (serialOf store realm) := by
  induction names generalizing ids with
  | nil =>
      cases here
      rfl
  | cons name names ih =>
      rw [List.mapM_cons] at here
      obtain ⟨serial, first, here⟩ := Option.bind_eq_some_iff.mp here
      obtain ⟨rest, later, here⟩ := Option.bind_eq_some_iff.mp here
      cases here
      rw [List.map_cons, serialOf, first, Option.getD_some, ih later]

/-- The names of an epoch, in its order: the required ones, then the optional ones. -/
def epochNames (inject optionalInject : List String) : List String :=
  inject.insertionSort (· ≤ ·) ++ optionalInject.insertionSort (· ≤ ·)

theorem epoch_serials {realm : Realm} {inject optionalInject : List String} {ids : List Nat}
    (here : epoch store realm inject optionalInject = some ids) :
    ids = (epochNames inject optionalInject).map (serialOf store realm) := by
  obtain ⟨required, listed, here⟩ := Option.bind_eq_some_iff.mp here
  cases here
  rw [mapM_serials store realm listed, epochNames, List.map_append]
  rfl

/-- An epoch is not that of a time before one of its live services was registered anew. -/
theorem epoch_renewed {before : List (Call V)} {start : Store V} (inv : Inv before start)
    (run : Run shaped before start log store) {realm : Realm} {inject optionalInject : List String} {name : String}
    (injected : name ∈ inject ++ optionalInject) (live : (resolve start realm name).isSome = true)
    (renews : ∃ impl, impl.key.name = name ∧ .provided ⟨realm.ownerOf name, impl⟩ ∈ log)
    {ids : List Nat} (here : epoch start realm inject optionalInject = some ids) :
    epoch store realm inject optionalInject ≠ some ids := by
  intro again
  obtain ⟨impl, resolved⟩ := Option.isSome_iff_exists.mp live
  have bounds := inv.bounded (realm.ownerOf name) (name, impl) (Items.mem_of_get? resolved)
  have listed : name ∈ epochNames inject optionalInject := by simpa [epochNames] using injected
  have serials : serialOf start realm name = serialOf store realm name :=
    List.map_inj_left.mp ((epoch_serials here).symm.trans (epoch_serials again)) name listed
  rw [serialOf, resolved, Option.map_some, Option.getD_some, serialOf] at serials
  dsimp only at bounds
  cases now : resolve store realm name with
  | none =>
      rw [now] at serials
      simp only [Option.map_none, Option.getD_none] at serials
      omega
  | some newer =>
      have later := renewed run renews now
      rw [now, Option.map_some, Option.getD_some] at serials
      omega

/-! ### Every tree and history -/

/-- In every history: what a realm lists is what it resolves; a realm below the root stores names that it isolates; serials
strictly increase; and an epoch does not come back once a service that was live in it was registered anew. -/
theorem registry_consistent (shaped : V → Bool) (log : List (Call V)) (store : Store V) (run : Run shaped [] empty log store) :
    (∀ realm name, Items.get? (entries store realm) name = resolve store realm name) ∧
    (∀ id parent isolated, ∀ item ∈ store.impls (.child id parent isolated), item.1 ∈ isolated) ∧
    ((registrations log).map fun disposer => disposer.impl.serial).Pairwise (· > ·) ∧
    ∀ later store', Run shaped log store later store' → ∀ realm inject optionalInject name, name ∈ inject ++ optionalInject →
      (resolve store realm name).isSome = true → (∃ impl, impl.key.name = name ∧ .provided ⟨realm.ownerOf name, impl⟩ ∈ later) →
        ∀ ids, epoch store realm inject optionalInject = some ids → epoch store' realm inject optionalInject ≠ some ids := by
  have inv : Inv log store := by simpa using run_inv inv_empty run
  refine ⟨entries_resolve inv, inv.isolated, inv.ordered, ?_⟩
  intro later store' run' realm inject optionalInject name injected live renews ids here
  exact epoch_renewed inv run' injected live renews here

/-! ### An optional service that is not there -/

def seam : ServiceKey := ⟨"numerics", .single⟩

def first : Disposer Unit := ⟨.root, ⟨seam, (), "row", 1⟩⟩

def second : Disposer Unit := ⟨.root, ⟨seam, (), "row", 2⟩⟩

def publish (store : Store Unit) (disposer : Disposer Unit) : Store Unit :=
  { store with serial := store.serial + 1 }.write .root [("numerics", disposer.impl)]

def once : Store Unit := dispose (publish empty first) first

def twice : Store Unit := dispose (publish once second) second

theorem run_once : Run (fun _ => true) [] empty [.disposed first, .provided first] once := by
  apply Run.step _ (.dispose _ _ List.mem_cons_self)
  exact .step .nil (.provide _ _ .root seam () "row" _ rfl)

theorem run_twice : Run (fun _ => true) [.disposed first, .provided first] once [.disposed second, .provided second] twice := by
  apply Run.step _ (.dispose _ _ List.mem_cons_self)
  exact .step .nil (.provide _ _ .root seam () "row" _ rfl)

theorem registry_consistent_once : ((registrations [.disposed first, .provided first]).map fun disposer => disposer.impl.serial).Pairwise (· > ·) :=
  (registry_consistent (fun _ => true) _ once run_once).2.2.1

/-- An optional service that was withdrawn both times counts as 0 both times. -/
theorem epoch_comes_back : ¬ ∀ (shaped : Unit → Bool) (log : List (Call Unit)) (store : Store Unit),
    Run shaped [] empty log store → ∀ later store', Run shaped log store later store' →
      ∀ realm inject optionalInject name, name ∈ inject ++ optionalInject →
        (∃ impl, impl.key.name = name ∧ .provided ⟨realm.ownerOf name, impl⟩ ∈ log) →
        (∃ impl, impl.key.name = name ∧ .provided ⟨realm.ownerOf name, impl⟩ ∈ later) →
          ∀ ids, epoch store realm inject optionalInject = some ids → epoch store' realm inject optionalInject ≠ some ids := by
  intro always
  have named (impl : Impl Unit) (log : List (Call Unit)) (given : .provided ⟨.root, impl⟩ ∈ log) (key : impl.key.name = "numerics") :
      ∃ impl, impl.key.name = "numerics" ∧ .provided ⟨Realm.root.ownerOf "numerics", impl⟩ ∈ log := ⟨impl, key, given⟩
  apply always _ _ once run_once _ twice run_twice .root [] ["numerics"] "numerics" (by decide)
    (named first.impl _ (List.mem_cons_of_mem _ List.mem_cons_self) rfl)
    (named second.impl _ (List.mem_cons_of_mem _ List.mem_cons_self) rfl) [0]
  · rfl
  · rfl

end AtrexAgent.Core.Registry
