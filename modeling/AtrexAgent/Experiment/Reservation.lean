import AtrexAgent.Experiment.Store

/-! One owner at a time, and a measurement that could be reused is never measured or
written again. -/

namespace AtrexAgent.Measurement

open AtrexAgent.Transition

variable {Id Request Response Kernels : Type} [DecidableEq Id]

section Acceptance

variable (e : Evidence Id Request Response Kernels) (request : Request)

/-- `_cached` would return the record of this directory. -/
def Accepted (id : Id) (files : Files Id Request Response Kernels) : Prop :=
  cached e id (e.digestRequest request) files ≠ none

/-- It would, were it not for a device failure in the sealed jobs. -/
def Reusable (id : Id) (files : Files Id Request Response Kernels) : Prop :=
  Accepted e request id { files with jobs := [] }

variable {e request} {id : Id} {files : Files Id Request Response Kernels}

theorem cached_some {record : Record Id Request Response Kernels} {key : String}
    (found : cached e id key files = some record) :
    files.record = some record ∧ record.gatewayRecordId = id ∧ record.taskDigest = key ∧
      record.cacheable = true ∧
      ∃ negative, e.verdict record.response = some negative ∧
        (negative = true → files.jobs.any (·.deviceFailure) = false) := by
  unfold cached read at found
  split at found
  · cases found
  · next record' readBack =>
    split at readBack
    · cases readBack
    · next stored present =>
      split at readBack
      · cases readBack
      · next identity =>
        split at readBack
        · cases readBack
        · split at readBack
          · cases readBack
          · split at readBack
            · cases readBack
            · cases readBack
              split at found
              · cases found
              · next flags =>
                split at found
                · cases found
                · split at found
                  · cases found
                  · next negative verdict =>
                    split at found
                    · cases found
                    · next jobs =>
                      cases found
                      rw [not_or, not_not, not_not] at identity
                      rw [not_or, not_not, Bool.not_eq_false] at flags
                      refine ⟨present, identity.1, flags.1, flags.2, negative, verdict, ?_⟩
                      intro bad
                      rw [not_and, Bool.not_eq_true] at jobs
                      exact jobs bad

/-- Only the test of the jobs separates the two. -/
theorem accepted_or_failed (reusable : Reusable e request id files)
    (clean : files.jobs.any (·.deviceFailure) = false) : Accepted e request id files := by
  unfold Reusable Accepted cached at *
  rw [show read e id { files with jobs := [] } = read e id files from rfl] at reusable
  split at reusable
  · exact absurd rfl reusable
  · next record stored =>
    split at reusable
    · exact absurd rfl reusable
    · next flags =>
      rw [if_neg flags]
      split at reusable
      · exact absurd rfl reusable
      · next evaluation =>
        rw [if_neg evaluation]
        split at reusable
        · exact absurd rfl reusable
        · next negative verdict =>
          simp [clean]

theorem Accepted.reusable (accepted : Accepted e request id files) :
    Reusable e request id files := by
  unfold Reusable Accepted cached at *
  rw [show read e id { files with jobs := [] } = read e id files from rfl]
  split at accepted
  · exact absurd rfl accepted
  · next record stored =>
    split at accepted
    · exact absurd rfl accepted
    · next flags =>
      rw [if_neg flags]
      split at accepted
      · exact absurd rfl accepted
      · next evaluation =>
        rw [if_neg evaluation]
        split at accepted
        · exact absurd rfl accepted
        · simp

theorem Reusable.record (reusable : Reusable e request id files) : ∃ record,
    files.record = some record ∧ record.cacheable = true := by
  obtain ⟨record, found⟩ := Option.ne_none_iff_exists'.mp reusable
  obtain ⟨stored, _, _, cacheable, _⟩ := cached_some found
  exact ⟨record, stored, cacheable⟩

theorem reusable_congr {other : Files Id Request Response Kernels}
    (same : other.record = files.record) :
    Reusable e request id other ↔ Reusable e request id files := by
  unfold Reusable Accepted cached read
  rw [same]

end Acceptance

section Invariant

variable (e : Evidence Id Request Response Kernels) (request : Request)

/-- No record could be reused. -/
def Clear (w : World Id Request Response Kernels) : Prop :=
  ∀ id, ¬ Reusable e request id (w.files id)

/-- What a process knows at its stage. -/
def Stands (w : World Id Request Response Kernels) : Stage Id Request Response Kernels → Prop
  | .located _ marker => w.marker = marker
  | .missed _ marker => w.marker = marker ∧ Clear e request w
  | .allocating _ => Clear e request w
  | .marking _ id resumed => Clear e request w ∧ (w.files id).request = some request ∧
      if resumed = true then ∃ status, (status = .running ∨ status = .validationPending) ∧
        w.marker = some ⟨status, some id⟩
      else (w.files id).record = none ∧ ∀ p r, .reserved p id r ∉ w.log
  | .active _ id => Clear e request w ∧ w.marker = some ⟨.running, some id⟩ ∧
      (w.files id).request = some request
  | .recorded id _ _ => w.marker = some ⟨.running, some id⟩
  | .validating id _ _ => w.marker = some ⟨.validationPending, some id⟩
  | .validated id cacheable _ => w.marker = some ⟨.validationPending, some id⟩ ∧
      (cacheable = true → Accepted e request id (w.files id))
  | _ => True

structure Sound (w : World Id Request Response Kernels) : Prop where
  owner : ∀ p, (w.stage p).Holds ↔ w.lock = some p
  stands : ∀ p, Stands e request w (w.stage p)
  accepted : ∀ id, Reusable e request id (w.files id) → Accepted e request id (w.files id)
  pointed : ∀ id, Reusable e request id (w.files id) →
    ∃ status, w.marker = some ⟨status, some id⟩
  ours : ∀ id record, (w.files id).record = some record → record.request = request
  listed : ∀ p id resumed, .reserved p id resumed ∈ w.log → (w.files id).request ≠ none

variable {e request} {w : World Id Request Response Kernels} {p : Nat}

theorem stands_of_not_holds {stage : Stage Id Request Response Kernels} (free : ¬ stage.Holds) :
    Stands e request w stage := by
  cases stage <;> first | trivial | exact (free trivial).elim

theorem fresh_sound (fresh : Fresh w) : Sound e request w := by
  obtain ⟨lock, marker, files, stages, log⟩ := fresh
  refine ⟨?_, ?_, ?_, ?_, ?_, ?_⟩
  · intro p
    rw [stages, lock]
    simp [Stage.Holds]
  · intro p
    rw [stages]
    trivial
  · intro id reusable
    obtain ⟨record, stored, _⟩ := reusable.record
    rw [files] at stored
    cases stored
  · intro id reusable
    obtain ⟨record, stored, _⟩ := reusable.record
    rw [files] at stored
    cases stored
  · intro id record stored
    rw [files] at stored
    cases stored
  · intro p id resumed member
    rw [log] at member
    cases member

@[simp] theorem stage_moved (stage : Stage Id Request Response Kernels) :
    (w.moved p stage).stage p = stage := by
  simp [World.moved]

theorem stage_moved_other {q : Nat} (stage : Stage Id Request Response Kernels) (other : q ≠ p) :
    (w.moved p stage).stage q = w.stage q := by
  simp [World.moved, Function.update_of_ne other]

/-- A process that has the lock goes on: the others know nothing that could change. -/
theorem Sound.holder (sound : Sound e request w) (holds : (w.stage p).Holds)
    (w' : World Id Request Response Kernels) (stages : w'.stage = w.stage)
    (lock : w'.lock = w.lock) (stage : Stage Id Request Response Kernels)
    (still : stage.Holds) (stands : Stands e request (w'.moved p stage) stage)
    (accepted : ∀ id, Reusable e request id (w'.files id) → Accepted e request id (w'.files id))
    (pointed : ∀ id, Reusable e request id (w'.files id) →
      ∃ status, w'.marker = some ⟨status, some id⟩)
    (ours : ∀ id record, (w'.files id).record = some record → record.request = request)
    (listed : ∀ p id resumed, .reserved p id resumed ∈ w'.log → (w'.files id).request ≠ none) :
    Sound e request (w'.moved p stage) := by
  have held : w.lock = some p := (sound.owner p).mp holds
  refine ⟨?_, ?_, accepted, pointed, ours, listed⟩
  · intro q
    by_cases same : q = p
    · subst same
      rw [stage_moved]
      exact ⟨fun _ => lock.trans held, fun _ => still⟩
    · rw [stage_moved_other stage same, stages]
      exact (sound.owner q).trans (by rw [show (w'.moved p stage).lock = w.lock from lock])
  · intro q
    by_cases same : q = p
    · subst same
      rw [stage_moved]
      exact stands
    · rw [stage_moved_other stage same, stages]
      apply stands_of_not_holds
      intro other
      have theirs := (sound.owner q).mp other
      rw [held] at theirs
      exact same (Option.some.inj theirs).symm

/-- The same, for a step that leaves all files as they are. -/
theorem Sound.moves (sound : Sound e request w) (holds : (w.stage p).Holds)
    (w' : World Id Request Response Kernels) (stages : w'.stage = w.stage)
    (lock : w'.lock = w.lock) (files : w'.files = w.files) (marker : w'.marker = w.marker)
    (log : ∀ q id resumed, .reserved q id resumed ∈ w'.log → .reserved q id resumed ∈ w.log)
    (stage : Stage Id Request Response Kernels) (still : stage.Holds)
    (stands : Stands e request (w'.moved p stage) stage) :
    Sound e request (w'.moved p stage) := by
  apply sound.holder holds w' stages lock stage still stands
  · rw [files]
    exact sound.accepted
  · rw [files, marker]
    exact sound.pointed
  · rw [files]
    exact sound.ours
  · intro q id resumed member
    rw [files]
    exact sound.listed q id resumed (log q id resumed member)

/-- The same, for a write of the marker that keeps its id. -/
theorem Sound.marks (sound : Sound e request w) (holds : (w.stage p).Holds) {id : Id}
    (w' : World Id Request Response Kernels) (stages : w'.stage = w.stage)
    (lock : w'.lock = w.lock) (files : w'.files = w.files) {status : Status}
    (marker : w'.marker = some ⟨status, some id⟩)
    (before : Clear e request w ∨ ∃ old, w.marker = some ⟨old, some id⟩)
    (log : ∀ q other resumed, .reserved q other resumed ∈ w'.log →
      .reserved q other resumed ∈ w.log ∨ (w.files other).request ≠ none)
    (stage : Stage Id Request Response Kernels) (still : stage.Holds)
    (stands : Stands e request (w'.moved p stage) stage) :
    Sound e request (w'.moved p stage) := by
  apply sound.holder holds w' stages lock stage still stands
  · rw [files]
    exact sound.accepted
  · intro other reusable
    rw [files] at reusable
    rcases before with clear | ⟨old, here⟩
    · exact (clear other reusable).elim
    · obtain ⟨theirs, there⟩ := sound.pointed other reusable
      rw [here] at there
      cases there
      exact ⟨status, marker⟩
  · rw [files]
    exact sound.ours
  · intro q other resumed member
    rw [files]
    rcases log q other resumed member with old | present
    · exact sound.listed q other resumed old
    · exact present

/-- A write into the directory of one record that leaves the marker as it is. -/
theorem Sound.files (sound : Sound e request w) (holds : (w.stage p).Holds) {id : Id}
    {f : Files Id Request Response Kernels → Files Id Request Response Kernels}
    (accepted : Reusable e request id (f (w.files id)) → Accepted e request id (f (w.files id)))
    (pointed : Reusable e request id (f (w.files id)) →
      ∃ status, w.marker = some ⟨status, some id⟩)
    (ours : ∀ record, (f (w.files id)).record = some record → record.request = request)
    (listed : (w.files id).request ≠ none → (f (w.files id)).request ≠ none)
    (stage : Stage Id Request Response Kernels) (still : stage.Holds)
    (stands : Stands e request ((w.filed id f).moved p stage) stage) :
    Sound e request ((w.filed id f).moved p stage) := by
  have here : (w.filed id f).files id = f (w.files id) := by simp [World.filed]
  have there {other : Id} (away : other ≠ id) : (w.filed id f).files other = w.files other := by
    simp [World.filed, Function.update_of_ne away]
  apply sound.holder holds (w.filed id f) rfl rfl stage still stands
  · intro other
    by_cases same : other = id
    · subst same
      rw [here]
      exact accepted
    · rw [there same]
      exact sound.accepted other
  · intro other
    by_cases same : other = id
    · subst same
      rw [here]
      exact pointed
    · rw [there same]
      exact sound.pointed other
  · intro other
    by_cases same : other = id
    · subst same
      rw [here]
      exact ours
    · rw [there same]
      exact sound.ours other
  · intro q other resumed member
    have before := sound.listed q other resumed member
    by_cases same : other = id
    · subst same
      rw [here]
      exact listed before
    · rw [there same]
      exact before

theorem Stands.congr {w' : World Id Request Response Kernels} (files : w'.files = w.files)
    (marker : w'.marker = w.marker)
    (log : ∀ q id resumed, .reserved q id resumed ∈ w'.log → .reserved q id resumed ∈ w.log)
    {stage : Stage Id Request Response Kernels} (known : Stands e request w stage) :
    Stands e request w' stage := by
  have clear : Clear e request w → Clear e request w' := by
    unfold Clear
    rw [files]
    exact id
  cases stage with
  | located call seen => exact marker.trans known
  | missed call seen => exact ⟨marker.trans known.1, clear known.2⟩
  | allocating call => exact clear known
  | marking call id resumed =>
      obtain ⟨none_, present, how⟩ := known
      refine ⟨clear none_, by rw [files]; exact present, ?_⟩
      split at how
      · next resumes =>
        rw [if_pos resumes, marker]
        exact how
      · next allocated =>
        rw [if_neg allocated, files]
        exact ⟨how.1, fun q r member => how.2 q r (log q id r member)⟩
  | active call id =>
      exact ⟨clear known.1, marker.trans known.2.1, by rw [files]; exact known.2.2⟩
  | recorded id cacheable pending => exact marker.trans known
  | validating id cacheable pending => exact marker.trans known
  | validated id cacheable pending =>
      exact ⟨marker.trans known.1, fun good => by rw [files]; exact known.2 good⟩
  | _ => trivial

/-- A step of a process that ends up without the lock and writes no file. -/
theorem Sound.aside (sound : Sound e request w) (w' : World Id Request Response Kernels)
    (stages : w'.stage = w.stage) (files : w'.files = w.files) (marker : w'.marker = w.marker)
    (log : ∀ q id resumed, .reserved q id resumed ∈ w'.log → .reserved q id resumed ∈ w.log)
    (lock : w'.lock = if w.lock = some p then none else w.lock)
    (stage : Stage Id Request Response Kernels) (free : ¬ stage.Holds) :
    Sound e request (w'.moved p stage) := by
  have still {q : Nat} (other : q ≠ p) : (w'.moved p stage).stage q = w.stage q := by
    rw [stage_moved_other _ other, stages]
  refine ⟨?_, ?_, ?_, ?_, ?_, ?_⟩
  · intro q
    rw [show (w'.moved p stage).lock = _ from lock]
    by_cases same : q = p
    · subst same
      rw [stage_moved]
      by_cases held : w.lock = some q
      · simp [held, free]
      · rw [if_neg held]
        exact ⟨fun impossible => (free impossible).elim, fun impossible => (held impossible).elim⟩
    · rw [still same, sound.owner q]
      by_cases held : w.lock = some p
      · rw [if_pos held, held]
        simp [Ne.symm same]
      · rw [if_neg held]
  · intro q
    by_cases same : q = p
    · subst same
      rw [stage_moved]
      exact stands_of_not_holds free
    · rw [still same]
      exact Stands.congr files marker log (sound.stands q)
  · rw [show (w'.moved p stage).files = w.files from files]
    exact sound.accepted
  · rw [show (w'.moved p stage).files = w.files from files,
      show (w'.moved p stage).marker = w.marker from marker]
    exact sound.pointed
  · rw [show (w'.moved p stage).files = w.files from files]
    exact sound.ours
  · intro q id resumed member
    rw [show (w'.moved p stage).files = w.files from files]
    exact sound.listed q id resumed (log q id resumed member)

end Invariant

section Steps

variable [DecidableEq Request] {e : Evidence Id Request Response Kernels} {request : Request}
  {w w' : World Id Request Response Kernels} {p : Nat}

theorem resumable_spec {marker : Option (Marker Id)} {id : Id}
    (found : resumable request w marker = some id) :
    (w.files id).request = some request ∧ ∃ status,
      (status = .running ∨ status = .validationPending) ∧ marker = some ⟨status, some id⟩ := by
  unfold resumable at found
  split at found
  · split at found
    · next present =>
      cases found
      exact ⟨present, .running, Or.inl rfl, rfl⟩
    · cases found
  · split at found
    · next present =>
      cases found
      exact ⟨present, .validationPending, Or.inr rfl, rfl⟩
    · cases found
  · cases found

theorem proceed_sound (sound : Sound e request w) (taken : proceed e request w p = some w') :
    Sound e request w' := by
  have known := sound.stands p
  unfold proceed at taken
  cases at_ : w.stage p with
  | idle => rw [at_] at taken; cases taken
  | opened call => rw [at_] at taken; cases taken
  | allocating call => rw [at_] at taken; cases taken
  | active call id => rw [at_] at taken; cases taken
  | acquired call =>
      rw [at_] at taken
      cases taken
      exact sound.moves (by rw [at_]; trivial) { w with lockText := none } rfl rfl rfl rfl
        (fun _ _ _ member => member) _ trivial trivial
  | truncated call =>
      rw [at_] at taken
      cases taken
      exact sound.moves (by rw [at_]; trivial) { w with lockText := some call.description } rfl rfl
        rfl rfl (fun _ _ _ member => member) _ trivial trivial
  | described call =>
      rw [at_] at taken
      cases taken
      exact sound.moves (by rw [at_]; trivial) w rfl rfl rfl rfl (fun _ _ _ member => member) _
        trivial rfl
  | located call marker =>
      rw [at_] at taken known
      have holds : (w.stage p).Holds := by rw [at_]; trivial
      have same : w.marker = marker := known
      have misses (clear : Clear e request w) :
          Sound e request (w.moved p (.missed call marker)) :=
        sound.moves holds w rfl rfl rfl rfl (fun _ _ _ member => member) _ trivial ⟨same, clear⟩
      simp only at taken
      split at taken
      · next absent =>
        cases taken
        apply misses
        intro id reusable
        obtain ⟨status, here⟩ := sound.pointed id reusable
        rw [same] at here
        rw [here] at absent
        cases absent
      · next id found =>
        split at taken
        · cases taken
          exact sound.moves holds (w.noted (.duplicate p id)) rfl rfl rfl rfl
            (fun _ _ _ member => by simpa [World.noted] using member) _ trivial trivial
        · next missed =>
          cases taken
          apply misses
          intro other reusable
          obtain ⟨status, here⟩ := sound.pointed other reusable
          rw [same] at here
          rw [here] at found
          cases found
          exact sound.accepted id reusable missed
  | missed call marker =>
      rw [at_] at taken known
      obtain ⟨same, clear⟩ := known
      have holds : (w.stage p).Holds := by rw [at_]; trivial
      simp only at taken
      split at taken
      · next id found =>
        cases taken
        obtain ⟨present, status, resumes, here⟩ := resumable_spec found
        refine sound.moves holds w rfl rfl rfl rfl (fun _ _ _ member => member) _ trivial
          ⟨clear, present, ?_⟩
        rw [if_pos rfl]
        exact ⟨status, resumes, same.trans here⟩
      · cases taken
        exact sound.moves holds w rfl rfl rfl rfl (fun _ _ _ member => member) _ trivial clear
  | marking call id resumed =>
      rw [at_] at taken known
      obtain ⟨clear, present, _⟩ := known
      cases taken
      refine sound.marks (by rw [at_]; trivial)
        ((w.marked .running id).noted (.reserved p id resumed)) rfl rfl rfl rfl (Or.inl clear) ?_
        (.active call id) trivial ⟨clear, rfl, present⟩
      intro q other r member
      rcases List.mem_cons.mp member with new | old
      · cases new
        exact Or.inr (by rw [present]; simp)
      · exact Or.inl old
  | recorded id cacheable pending =>
      rw [at_] at taken known
      cases taken
      exact sound.marks (by rw [at_]; trivial) (w.marked .validationPending id) rfl rfl rfl rfl
        (Or.inr ⟨_, known⟩) (fun _ _ _ member => Or.inl member)
        (.validating id cacheable pending) trivial rfl
  | validating id cacheable pending =>
      rw [at_] at taken known
      have holds : (w.stage p).Holds := by rw [at_]; trivial
      simp only at taken
      split at taken
      · cases taken
        exact sound.moves holds w rfl rfl rfl rfl (fun _ _ _ member => member) _ trivial trivial
      · next valid =>
        cases taken
        refine sound.moves holds w rfl rfl rfl rfl (fun _ _ _ member => member) _ trivial
          ⟨known, ?_⟩
        intro good missed
        exact valid ⟨good, missed⟩
  | validated id cacheable pending =>
      rw [at_] at taken known
      cases taken
      let status := if pending then Status.running
        else if cacheable then .completed else .notCacheable
      exact sound.marks (by rw [at_]; trivial)
        ((w.marked status id).noted (.finished p id status)) rfl rfl rfl rfl (Or.inr ⟨_, known.1⟩)
        (fun _ _ _ member => Or.inl (by simpa [World.noted, World.marked] using member))
        .releasing trivial trivial
  | releasing =>
      rw [at_] at taken
      cases taken
      exact sound.moves (by rw [at_]; trivial) { w with lockText := none } rfl rfl rfl rfl
        (fun _ _ _ member => member) _ trivial trivial
  | closing =>
      rw [at_] at taken
      cases taken
      have held : w.lock = some p := (sound.owner p).mp (by rw [at_]; trivial)
      exact sound.aside { w with lock := none } rfl rfl rfl (fun _ _ _ member => member)
        (by rw [if_pos held]) _ id

theorem lock_sound (sound : Sound e request w) {call : Reservation Kernels}
    (at_ : w.stage p = .opened call) (free : w.lock = none) :
    Sound e request (World.moved { w with lock := some p } p (.acquired call)) := by
  have nobody (q : Nat) : ¬ (w.stage q).Holds := fun holds => by
    have theirs := (sound.owner q).mp holds
    rw [free] at theirs
    cases theirs
  refine ⟨?_, ?_, sound.accepted, sound.pointed, sound.ours, sound.listed⟩
  · intro q
    by_cases same : q = p
    · subst same
      rw [stage_moved]
      exact ⟨fun _ => rfl, fun _ => trivial⟩
    · rw [stage_moved_other _ same]
      constructor
      · exact fun holds => (nobody q holds).elim
      · intro theirs
        cases theirs
        exact (same rfl).elim
  · intro q
    by_cases same : q = p
    · subst same
      rw [stage_moved]
      trivial
    · rw [stage_moved_other _ same]
      exact stands_of_not_holds (nobody q)

/-- `finish` writes what will be accepted, or what no later test of the jobs makes so. -/
theorem finish_sound (sound : Sound e request w) {call : Reservation Kernels} {id : Id}
    (at_ : w.stage p = .active call id) (response : Response) {cacheable : Bool} (pending : Bool)
    (clean : ¬ (cacheable = true ∧ (w.files id).jobs.any (·.deviceFailure) = true)) :
    Sound e request ((w.filed id fun files =>
      { files with record := some (outcome e request id call.kernels response cacheable) }).moved p
        (.recorded id (outcome e request id call.kernels response cacheable).cacheable
          pending)) := by
  have known := sound.stands p
  rw [at_] at known
  obtain ⟨clear, marker, present⟩ := known
  have holds : (w.stage p).Holds := by rw [at_]; trivial
  apply sound.files holds
  · intro reusable
    apply accepted_or_failed reusable
    obtain ⟨record, stored, flag⟩ := reusable.record
    cases stored
    have asked : cacheable = true := by
      unfold outcome at flag
      simp only at flag
      split at flag
      · exact (Bool.and_eq_true_iff.mp flag).1
      · exact flag
    rw [not_and, Bool.not_eq_true] at clean
    exact clean asked
  · exact fun _ => ⟨.running, marker⟩
  · intro record stored
    cases stored
    rfl
  · exact fun present => present
  · trivial
  · exact marker

theorem step_sound (sound : Sound e request w) {action : Action Id Response Kernels}
    (taken : step e request w action = some w') : Sound e request w' := by
  cases action with
  | enter p call =>
      simp only [step] at taken
      split at taken
      · next at_ =>
        cases taken
        apply sound.aside w rfl rfl rfl (fun _ _ _ member => member) _ _ id
        rw [if_neg]
        intro held
        have holds := (sound.owner p).mpr held
        rw [at_] at holds
        exact holds
      · cases taken
  | lock p =>
      simp only [step] at taken
      split at taken
      · next call at_ =>
        split at taken
        · next free =>
          cases taken
          exact lock_sound sound at_ free
        · next owner held =>
          cases taken
          apply sound.aside (w.noted (.running p w.lockText)) rfl rfl rfl _ _ _ id
          · intro q id resumed member
            simpa [World.noted] using member
          · rw [if_neg]
            · rfl
            · intro mine
              have holds := (sound.owner p).mpr mine
              rw [at_] at holds
              exact holds
      · cases taken
  | proceed p => exact proceed_sound sound taken
  | allocate p id =>
      simp only [step] at taken
      split at taken
      · next call at_ blank =>
        cases taken
        have known := sound.stands p
        rw [at_] at known
        have clear : Clear e request w := known
        have holds : (w.stage p).Holds := by rw [at_]; trivial
        have none_ : (w.files id).record = none := by rw [blank]
        have impossible (files : Files Id Request Response Kernels)
            (empty : files.record = none) : ¬ Reusable e request id files := fun reusable => by
          obtain ⟨record, stored, _⟩ := reusable.record
          rw [empty] at stored
          cases stored
        apply sound.files holds
        · exact fun reusable => (impossible _ none_ reusable).elim
        · exact fun reusable => (impossible _ none_ reusable).elim
        · intro record stored
          rw [show ({ (w.files id) with request := some request } :
            Files Id Request Response Kernels).record = none from none_] at stored
          cases stored
        · simp
        · trivial
        · refine ⟨?_, by simp [World.filed, World.moved], ?_⟩
          · intro other reusable
            by_cases same : other = id
            · subst same
              simp only [World.filed, World.moved, Function.update_self] at reusable
              exact impossible _ none_ reusable
            · simp only [World.filed, World.moved, Function.update_of_ne same] at reusable
              exact clear other reusable
          · rw [if_neg (by simp)]
            refine ⟨by simp [World.filed, World.moved, none_], ?_⟩
            intro q r member
            have present := sound.listed q id r member
            rw [blank] at present
            exact present rfl
      · cases taken
  | outage p =>
      simp only [step] at taken
      split at taken
      · next id at_ =>
        cases taken
        exact sound.moves (by rw [at_]; trivial) (w.noted (.unavailable p _)) rfl rfl rfl rfl
          (fun _ _ _ member => by simpa [World.noted] using member) _ trivial trivial
      · next id pending at_ =>
        cases taken
        exact sound.moves (by rw [at_]; trivial) (w.noted (.unavailable p _)) rfl rfl rfl rfl
          (fun _ _ _ member => by simpa [World.noted] using member) _ trivial trivial
      · cases taken
  | work p jobs =>
      simp only [step] at taken
      split at taken
      · next call id at_ =>
        cases taken
        have known := sound.stands p
        rw [at_] at known
        obtain ⟨clear, marker, present⟩ := known
        have unusable : ¬ Reusable e request id { (w.files id) with jobs := jobs } :=
          fun reusable => clear id ((reusable_congr rfl).mp reusable)
        have holds : (w.stage p).Holds := by rw [at_]; trivial
        have moved : (w.filed id fun files => { files with jobs := jobs }) =
            (w.filed id fun files => { files with jobs := jobs }).moved p (.active call id) := by
          simp [World.moved, World.filed, ← at_]
        rw [moved]
        apply sound.files holds
        · exact fun reusable => (unusable reusable).elim
        · exact fun reusable => (unusable reusable).elim
        · exact sound.ours id
        · exact fun present => present
        · trivial
        · refine ⟨?_, marker, by simp [World.filed, World.moved, present]⟩
          intro other reusable
          by_cases same : other = id
          · subst same
            simp only [World.filed, World.moved, Function.update_self] at reusable
            exact unusable reusable
          · simp only [World.filed, World.moved, Function.update_of_ne same] at reusable
            exact clear other reusable
      · cases taken
  | finish p response cacheable pending =>
      simp only [step] at taken
      split at taken
      · next call id at_ =>
        split at taken
        · cases taken
          exact sound.moves (by rw [at_]; trivial) w rfl rfl rfl rfl (fun _ _ _ member => member) _
            trivial trivial
        · split at taken
          · cases taken
          · next clean =>
            cases taken
            exact finish_sound sound at_ response pending clean
      · cases taken
  | abandon p =>
      simp only [step] at taken
      split at taken
      · cases taken
      · next call at_ =>
        cases taken
        apply sound.aside w rfl rfl rfl (fun _ _ _ member => member) _ _ id
        rw [if_neg]
        intro held
        have holds := (sound.owner p).mpr held
        rw [at_] at holds
        exact holds
      · cases taken
      · next idle opened closing =>
        cases taken
        have holds : (w.stage p).Holds := by
          cases at_ : w.stage p with
          | idle => exact (idle at_).elim
          | opened call => exact (opened call at_).elim
          | _ => trivial
        exact sound.moves holds w rfl rfl rfl rfl (fun _ _ _ member => member) _ trivial trivial
  | crash p =>
      cases taken
      exact sound.aside { w with lock := if w.lock = some p then none else w.lock } rfl rfl rfl
        (fun _ _ _ member => member) rfl _ id

theorem reached_sound (reached : Reached e request w) : Sound e request w := by
  apply reached.invariant
  · exact fun fresh => fresh_sound
  · rintro before after sound ⟨action, taken⟩
    exact step_sound sound taken

/-- What `e` and `w` say of an outcome that the next step reports. -/
def Lands (e : Evidence Id Request Response Kernels) (request : Request)
    (w : World Id Request Response Kernels) : Event Id → Prop
  | .running _ _ => ∃ owner, (w.stage owner).Holds
  | .duplicate _ id => (∃ status, w.marker = some ⟨status, some id⟩) ∧ ∃ record,
      cached e id (e.digestRequest request) (w.files id) = some record ∧
      (w.files id).record = some record ∧ record.cacheable = true ∧ record.request = request
  | .unavailable _ _ => True
  | .reserved _ id true => (w.files id).request = some request ∧ ∃ status,
      (status = .running ∨ status = .validationPending) ∧ w.marker = some ⟨status, some id⟩
  | .reserved _ id false => (w.files id).record = none ∧
      ∀ p resumed, .reserved p id resumed ∉ w.log
  | .finished _ id status => status = .completed → Accepted e request id (w.files id)

theorem step_lands (sound : Sound e request w) {action : Action Id Response Kernels}
    (taken : step e request w action = some w') {event : Event Id}
    (reported : w'.log = event :: w.log) : Lands e request w event := by
  have silent (same : w'.log = w.log) : Lands e request w event := by
    rw [same] at reported
    exact (List.cons_ne_self event w.log reported.symm).elim
  cases action with
  | enter p call =>
      simp only [step] at taken
      split at taken <;> cases taken
      exact silent rfl
  | lock p =>
      simp only [step] at taken
      split at taken
      · split at taken
        · cases taken
          exact silent rfl
        · next owner held =>
          cases taken
          cases reported
          exact ⟨owner, (sound.owner owner).mpr held⟩
      · cases taken
  | proceed p =>
      have known := sound.stands p
      simp only [step, proceed] at taken
      cases at_ : w.stage p with
      | idle => rw [at_] at taken; cases taken
      | opened call => rw [at_] at taken; cases taken
      | allocating call => rw [at_] at taken; cases taken
      | active call id => rw [at_] at taken; cases taken
      | acquired call => rw [at_] at taken; cases taken; exact silent rfl
      | truncated call => rw [at_] at taken; cases taken; exact silent rfl
      | described call => rw [at_] at taken; cases taken; exact silent rfl
      | releasing => rw [at_] at taken; cases taken; exact silent rfl
      | closing => rw [at_] at taken; cases taken; exact silent rfl
      | recorded id cacheable pending => rw [at_] at taken; cases taken; exact silent rfl
      | located call marker =>
          rw [at_] at taken known
          have same : w.marker = marker := known
          simp only at taken
          split at taken
          · cases taken
            exact silent rfl
          · next id named =>
            split at taken
            · next record found =>
              cases taken
              cases reported
              obtain ⟨stored, _, _, cacheable, _⟩ := cached_some found
              obtain ⟨old, rfl, here⟩ := Option.bind_eq_some_iff.mp named
              obtain ⟨status, id'⟩ := old
              cases here
              exact ⟨⟨status, same⟩, record, found, stored, cacheable, sound.ours _ record stored⟩
            · cases taken
              exact silent rfl
      | missed call marker =>
          rw [at_] at taken
          simp only at taken
          split at taken
          · cases taken
            exact silent rfl
          · cases taken
            exact silent rfl
      | marking call id resumed =>
          rw [at_] at taken known
          obtain ⟨_, present, how⟩ := known
          cases taken
          cases reported
          cases resumed with
          | true =>
              rw [if_pos rfl] at how
              exact ⟨present, how⟩
          | false =>
              rw [if_neg (by simp)] at how
              exact how
      | validating id cacheable pending =>
          rw [at_] at taken
          simp only at taken
          split at taken
          · cases taken
            exact silent rfl
          · cases taken
            exact silent rfl
      | validated id cacheable pending =>
          rw [at_] at taken known
          cases taken
          cases reported
          intro completed
          apply known.2
          cases cacheable with
          | true => rfl
          | false => cases pending <;> cases completed
  | allocate p id =>
      simp only [step] at taken
      split at taken
      · cases taken
        exact silent rfl
      · cases taken
  | outage p =>
      simp only [step] at taken
      split at taken
      · cases taken
        cases reported
        trivial
      · cases taken
        cases reported
        trivial
      · cases taken
  | work p jobs =>
      simp only [step] at taken
      split at taken
      · cases taken
        exact silent rfl
      · cases taken
  | finish p response cacheable pending =>
      simp only [step] at taken
      split at taken
      · split at taken
        · cases taken
          exact silent rfl
        · split at taken
          · cases taken
          · cases taken
            exact silent rfl
      · cases taken
  | abandon p =>
      simp only [step] at taken
      split at taken <;> cases taken
      · exact silent rfl
      · exact silent rfl
  | crash p =>
      cases taken
      exact silent rfl

/-- The files of a record change only where none could be reused. -/
theorem step_files (sound : Sound e request w) {action : Action Id Response Kernels}
    (taken : step e request w action = some w') (id : Id) :
    w'.files id = w.files id ∨ ¬ Accepted e request id (w.files id) := by
  have written {p : Nat} {call : Reservation Kernels} {own : Id}
      (at_ : w.stage p = .active call own) : ¬ Accepted e request id (w.files id) := by
    have known := sound.stands p
    rw [at_] at known
    exact fun accepted => known.1 id accepted.reusable
  cases action with
  | enter p call =>
      simp only [step] at taken
      split at taken <;> cases taken
      exact Or.inl rfl
  | lock p =>
      simp only [step] at taken
      split at taken
      · split at taken <;> cases taken
        · exact Or.inl rfl
        · exact Or.inl rfl
      · cases taken
  | proceed p =>
      left
      simp only [step, proceed] at taken
      cases at_ : w.stage p with
      | located call marker =>
          rw [at_] at taken
          simp only at taken
          split at taken
          · cases taken; rfl
          · split at taken <;> cases taken <;> rfl
      | missed call marker =>
          rw [at_] at taken
          simp only at taken
          split at taken <;> cases taken <;> rfl
      | validating id cacheable pending =>
          rw [at_] at taken
          simp only at taken
          split at taken <;> cases taken <;> rfl
      | _ => rw [at_] at taken; cases taken <;> rfl
  | allocate p own =>
      simp only [step] at taken
      split at taken
      · next call at_ blank =>
        right
        have known := sound.stands p
        rw [at_] at known
        exact fun accepted => known id accepted.reusable
      · cases taken
  | outage p =>
      simp only [step] at taken
      split at taken <;> cases taken
      · exact Or.inl rfl
      · exact Or.inl rfl
  | work p jobs =>
      simp only [step] at taken
      split at taken
      · next call own at_ => exact Or.inr (written at_)
      · cases taken
  | finish p response cacheable pending =>
      simp only [step] at taken
      split at taken
      · next call own at_ => exact Or.inr (written at_)
      · cases taken
  | abandon p =>
      simp only [step] at taken
      split at taken <;> cases taken
      · exact Or.inl rfl
      · exact Or.inl rfl
  | crash p =>
      cases taken
      exact Or.inl rfl

end Steps

section Example

/-- Requests, responses and kernels are numbers; zero is a negative result. -/
def plain : Evidence Nat Nat Nat Nat where
  digestRequest := fun request => toString request
  digestResponse := fun response => toString response
  operation := fun _ => .evaluate
  sealResponse := fun response _ _ _ => response
  kernelsMatch := fun _ _ => true
  cacheableEvaluation := fun _ _ => true
  verdict := fun response => some (response == 0)
  withinLimit := fun _ => true

def nothing : World Nat Nat Nat Nat := ⟨none, none, none, fun _ => .blank, fun _ => .idle, []⟩

def run (actions : List (Action Nat Nat Nat)) (w : World Nat Nat Nat Nat) :
    Option (World Nat Nat Nat Nat) :=
  actions.foldlM (step plain 7) w

theorem reached_run {actions : List (Action Nat Nat Nat)} {w w' : World Nat Nat Nat Nat}
    (reached : Reached plain 7 w) (ran : run actions w = some w') : Reached plain 7 w' := by
  induction actions generalizing w with
  | nil =>
      cases ran
      exact reached
  | cons action rest ih =>
      obtain ⟨between, taken, later⟩ := Option.bind_eq_some_iff.mp ran
      exact ih (reached.step ⟨action, taken⟩) later

/-- The owner crashes after its first write of the record; a second process finds the
record while a third is refused. -/
def takeover : List (Action Nat Nat Nat) :=
  let call : Reservation Nat := ⟨⟨some 60, "first"⟩, 1⟩
  [.enter 0 call, .lock 0] ++ List.replicate 5 (.proceed 0) ++
    [.allocate 0 40, .proceed 0, .work 0 [⟨false, true⟩], .finish 0 3 true false, .crash 0,
      .enter 1 call, .enter 2 call, .lock 1, .lock 2] ++ List.replicate 4 (.proceed 1)

end Example

end AtrexAgent.Measurement
