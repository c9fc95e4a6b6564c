import AtrexAgent.Wiki.OperatorScope

/-! Does an answer of the resolver depend on earlier calls? Where the corpus loads, no; where it does not, the first call that
votes is refused and leaves a part of the corpus that later calls vote on. -/

namespace AtrexAgent.ScopeResolver

open AtrexAgent.Warmup

variable {resolver : Resolver} {corpus : Corpus} {state : State} {term : String} {role : Role}

/-! ### Loading -/

/-- How the load ends. -/
def Corpus.result (corpus : Corpus) : Except String Unit := (ensureDocuments corpus State.initial).1

/-- What is in the tables after a load, whether it ends well or not. -/
def Corpus.loaded (corpus : Corpus) : State := (ensureDocuments corpus State.initial).2

/-- The corpus is within the budget and can be read to its end. -/
def Corpus.Loads (corpus : Corpus) : Prop :=
  corpus.failure = none ∧ corpus.documents.length ≤ MAX_CORPUS_DOCUMENTS ∧
    (corpus.documents.map fun document => document.2.utf8ByteSize).sum ≤ MAX_CORPUS_TEXT_BYTES

theorem loadDocuments_documents {failure : Option String} {documents : List (String × String)} (some_ : state.documents.isSome = true) :
    (loadDocuments failure state documents).2.documents.isSome = true := by
  induction documents generalizing state with
  | nil => cases failure <;> exact some_
  | cons document documents ih =>
      rw [loadDocuments]
      split
      · exact some_
      · exact ih rfl

theorem loadDocuments_ok {failure : Option String} {documents : List (String × String)}
    (few : (state.documents.getD []).length ≤ MAX_CORPUS_DOCUMENTS) (small : state.documentTextBytes ≤ MAX_CORPUS_TEXT_BYTES) :
    (loadDocuments failure state documents).1 = .ok () ↔ failure = none ∧
      (state.documents.getD []).length + documents.length ≤ MAX_CORPUS_DOCUMENTS ∧
      state.documentTextBytes + (documents.map fun document => document.2.utf8ByteSize).sum ≤ MAX_CORPUS_TEXT_BYTES := by
  induction documents generalizing state with
  | nil => cases failure <;> simp [loadDocuments, few, small]
  | cons document documents ih =>
      rw [loadDocuments, List.length_cons, List.map_cons, List.sum_cons]
      by_cases beyond : state.exceeds document.2
      · rw [if_pos beyond]
        unfold State.exceeds at beyond
        constructor
        · intro done
          cases done
        · intro within
          omega
      · rw [if_neg beyond]
        unfold State.exceeds at beyond
        have counted : ((state.count document.1 document.2).documents.getD []).length = (state.documents.getD []).length + 1 := by
          simp [State.count]
        have sized : (state.count document.1 document.2).documentTextBytes = state.documentTextBytes + document.2.utf8ByteSize := rfl
        rw [ih (by omega) (by omega), counted, sized]
        apply and_congr_right
        intro _
        omega

theorem result_ok_iff : corpus.result = .ok () ↔ corpus.Loads := by
  have few : ((⟨some [], 0, [], []⟩ : State).documents.getD []).length ≤ MAX_CORPUS_DOCUMENTS := by decide
  have loaded : corpus.result = .ok () ↔ _ := loadDocuments_ok few (Nat.zero_le _)
  rw [loaded, Corpus.Loads]
  simp [State.initial]

theorem ensureDocuments_loaded (corpus : Corpus) : ensureDocuments corpus corpus.loaded = (.ok (), corpus.loaded) := by
  have known : corpus.loaded.documents.isSome = true := loadDocuments_documents rfl
  rw [ensureDocuments, if_pos known]

/-! ### Resolving -/

/-- The vocabulary does not answer, and there is a term to vote on. -/
def Resolver.asks (resolver : Resolver) (term : String) (role : Role) : Bool :=
  (resolver.named term role).isNone && decide (voteTerms (tokensOf resolver.builtins term) ≠ [])

theorem resolve_idle (idle : resolver.asks term role = false) (corpus : Corpus) :
    ∃ found, ∀ state, resolver.resolve corpus state term role = (.ok found, state) := by
  unfold Resolver.resolve
  cases known : resolver.named term role with
  | some found => exact ⟨found, fun _ => rfl⟩
  | none =>
      have none_to_vote : voteTerms (tokensOf resolver.builtins term) = [] := by
        unfold Resolver.asks at idle
        rw [known] at idle
        simpa using idle
      refine ⟨none, fun state => ?_⟩
      simp only [vote, none_to_vote, if_true]
      rfl

/-- What a term resolves to on loaded tables. -/
def Resolver.voted (resolver : Resolver) (corpus : Corpus) (term : String) (role : Role) : Option OperatorScope :=
  (match corpus.loaded.documents.getD [] with
  | [] => none
  | documents => ballot resolver.builtins corpus.loaded documents (tokensOf resolver.builtins term)).map fun family =>
    ⟨role, .family, family, .voted, term⟩

theorem resolve_asked (asked : resolver.asks term role = true) (corpus : Corpus) :
    resolver.resolve corpus State.initial term role =
      (corpus.result.map fun _ => resolver.voted corpus term role, corpus.loaded) ∧
    resolver.resolve corpus corpus.loaded term role = (.ok (resolver.voted corpus term role), corpus.loaded) := by
  unfold Resolver.asks at asked
  rw [Bool.and_eq_true, Option.isNone_iff_eq_none, decide_eq_true_eq] at asked
  have cold : ensureDocuments corpus State.initial = (corpus.result, corpus.loaded) := rfl
  unfold Resolver.resolve vote Resolver.voted
  rw [asked.1, if_neg asked.2, if_neg asked.2, cold, ensureDocuments_loaded]
  constructor
  · cases corpus.result with
    | error message => rfl
    | ok =>
        dsimp only
        cases corpus.loaded.documents.getD [] <;> rfl
  · dsimp only
    cases corpus.loaded.documents.getD [] <;> rfl

/-! ### Many terms -/

/-- Some term is voted on. -/
def Resolver.asksAny (resolver : Resolver) (terms : List (Role × String)) : Bool :=
  terms.any fun (role, raw) => decide (resolver.builtins.strip raw ≠ "") && resolver.asks (resolver.builtins.strip raw) role

theorem asksAny_cons (resolver : Resolver) (role : Role) (raw : String) (terms : List (Role × String)) :
    resolver.asksAny ((role, raw) :: terms) =
      (decide (resolver.builtins.strip raw ≠ "") && resolver.asks (resolver.builtins.strip raw) role || resolver.asksAny terms) := rfl

theorem gather_idle {limit : ℤ} {terms : List (Role × String)} (idle : resolver.asksAny terms = false) (corpus : Corpus)
    (gathered : Gathered) : ∃ result, ∀ state, resolver.gather corpus limit terms gathered state = (.ok result, state) := by
  induction terms generalizing gathered with
  | nil => exact ⟨gathered, fun _ => rfl⟩
  | cons item terms ih =>
      obtain ⟨role, raw⟩ := item
      rw [asksAny_cons, Bool.or_eq_false_iff] at idle
      by_cases empty : resolver.builtins.strip raw = ""
      · obtain ⟨result, here⟩ := ih idle.2 gathered
        refine ⟨result, fun state => ?_⟩
        rw [Resolver.gather]
        rw [if_pos empty, here]
      · have not_asked : resolver.asks (resolver.builtins.strip raw) role = false := by simpa [empty] using idle.1
        obtain ⟨found, answered⟩ := resolve_idle not_asked corpus
        obtain ⟨result, here⟩ := ih idle.2 (resolver.collect limit (resolver.builtins.strip raw) found gathered)
        refine ⟨result, fun state => ?_⟩
        rw [Resolver.gather]
        rw [if_neg empty, answered]
        exact here state

/-- On loaded tables no call is refused. -/
theorem gather_loaded (resolver : Resolver) (corpus : Corpus) (limit : ℤ) (terms : List (Role × String)) (gathered : Gathered) :
    ∃ result, resolver.gather corpus limit terms gathered corpus.loaded = (.ok result, corpus.loaded) := by
  induction terms generalizing gathered with
  | nil => exact ⟨gathered, rfl⟩
  | cons item terms ih =>
      obtain ⟨role, raw⟩ := item
      rw [Resolver.gather]
      by_cases empty : resolver.builtins.strip raw = ""
      · rw [if_pos empty]
        exact ih gathered
      · rw [if_neg empty]
        cases asked : resolver.asks (resolver.builtins.strip raw) role with
        | false =>
            obtain ⟨found, answered⟩ := resolve_idle asked corpus
            rw [answered]
            exact ih _
        | true =>
            rw [(resolve_asked asked corpus).2]
            exact ih _

/-- A fresh resolver is refused where the load fails, and otherwise goes on as on loaded tables. -/
theorem gather_asked {limit : ℤ} {terms : List (Role × String)} (asked : resolver.asksAny terms = true) (corpus : Corpus)
    (gathered : Gathered) : resolver.gather corpus limit terms gathered State.initial =
      (corpus.result.bind fun _ => (resolver.gather corpus limit terms gathered corpus.loaded).1, corpus.loaded) := by
  induction terms generalizing gathered with
  | nil => cases asked
  | cons item terms ih =>
      obtain ⟨role, raw⟩ := item
      rw [asksAny_cons] at asked
      rw [Resolver.gather, Resolver.gather]
      by_cases empty : resolver.builtins.strip raw = ""
      · rw [if_pos empty, if_pos empty]
        exact ih (by simpa [empty] using asked) gathered
      · rw [if_neg empty, if_neg empty]
        cases here : resolver.asks (resolver.builtins.strip raw) role with
        | false =>
            obtain ⟨found, answered⟩ := resolve_idle here corpus
            rw [answered, answered]
            exact ih (by simpa [empty, here] using asked) _
        | true =>
            obtain ⟨cold, warm⟩ := resolve_asked here corpus
            rw [cold, warm]
            cases corpus.result with
            | error message => rfl
            | ok =>
                obtain ⟨result, loaded⟩ := gather_loaded resolver corpus limit terms
                  (resolver.collect limit (resolver.builtins.strip raw) (resolver.voted corpus (resolver.builtins.strip raw) role) gathered)
                dsimp only [Except.map, Except.bind]
                rw [loaded]

/-! ### Calls -/

/-- The call comes to a vote. -/
def Resolver.votes (resolver : Resolver) : Call → Bool
  | .resolve term role => resolver.asks term role
  | .resolveMany primaryTerms componentTerms _ => resolver.asksAny (roleTerms primaryTerms componentTerms)

theorem call_idle {call : Call} (idle : resolver.votes call = false) (corpus : Corpus) :
    ∃ outcome, ∀ state, resolver.call corpus state call = (outcome, state) := by
  cases call with
  | resolve term role =>
      obtain ⟨found, answered⟩ := resolve_idle idle corpus
      exact ⟨.scope found, fun state => by rw [Resolver.call, answered]⟩
  | resolveMany primaryTerms componentTerms limit =>
      obtain ⟨result, answered⟩ := gather_idle idle corpus ⟨[], [], []⟩
      exact ⟨.scopes result.scopes result.unresolved, fun state => by rw [Resolver.call, answered]⟩

/-- The outcome of a call that votes, on loaded tables and on fresh ones. -/
theorem call_asked {call : Call} (asked : resolver.votes call = true) (corpus : Corpus) :
    ∃ outcome, (∀ message, outcome ≠ .error message) ∧ resolver.call corpus corpus.loaded call = (outcome, corpus.loaded) ∧
      resolver.call corpus State.initial call = (match corpus.result with
        | .error message => .error message
        | .ok () => outcome, corpus.loaded) := by
  cases call with
  | resolve term role =>
      obtain ⟨cold, warm⟩ := resolve_asked asked corpus
      have never (message : String) : Outcome.scope (resolver.voted corpus term role) ≠ .error message := by
        intro same
        cases same
      refine ⟨.scope (resolver.voted corpus term role), never, by rw [Resolver.call, warm], ?_⟩
      rw [Resolver.call, cold]
      cases corpus.result <;> rfl
  | resolveMany primaryTerms componentTerms limit =>
      obtain ⟨result, warm⟩ := gather_loaded resolver corpus limit (roleTerms primaryTerms componentTerms) ⟨[], [], []⟩
      have never (message : String) : Outcome.scopes result.scopes result.unresolved ≠ .error message := by
        intro same
        cases same
      refine ⟨.scopes result.scopes result.unresolved, never, by rw [Resolver.call, warm], ?_⟩
      rw [Resolver.call, gather_asked asked, warm]
      cases corpus.result <;> rfl

theorem fills (resolver : Resolver) (corpus : Corpus) :
    Fills (resolver.call corpus) resolver.votes State.initial corpus.loaded where
  idle := by
    intro call idle
    obtain ⟨outcome, answered⟩ := call_idle idle corpus
    rw [answered]
  asked := by
    intro call asked
    obtain ⟨outcome, -, -, cold⟩ := call_asked asked corpus
    rw [cold]
  stays := by
    intro call
    cases asked : resolver.votes call with
    | false =>
        obtain ⟨outcome, answered⟩ := call_idle asked corpus
        rw [answered]
    | true =>
        obtain ⟨outcome, -, warm, -⟩ := call_asked asked corpus
        rw [warm]
  blind := by
    intro call idle
    obtain ⟨outcome, answered⟩ := call_idle idle corpus
    rw [answered, answered]

theorem loaded_run (loads : corpus.Loads) (calls : List Call) : resolver.run corpus calls = calls.map (resolver.fresh corpus) := by
  apply (fills resolver corpus).answers_of_agree
  intro call asked
  obtain ⟨outcome, -, warm, cold⟩ := call_asked asked corpus
  rw [warm, cold, result_ok_iff.mpr loads]

theorem refused_run_iff (refused : ¬ corpus.Loads) (calls : List Call) :
    resolver.run corpus calls = calls.map (resolver.fresh corpus) ↔ calls.countP resolver.votes ≤ 1 := by
  apply (fills resolver corpus).answers_iff_of_differ
  intro call asked
  obtain ⟨outcome, not_error, warm, cold⟩ := call_asked asked corpus
  rw [warm, cold]
  cases ends : corpus.result with
  | error message => exact not_error message
  | ok => exact absurd (result_ok_iff.mp ends) refused

/-- The calls on one resolver are answered as fresh ones where the corpus loads or one of them votes at most. -/
theorem history_independent_iff (resolver : Resolver) (corpus : Corpus) (calls : List Call) :
    resolver.run corpus calls = calls.map (resolver.fresh corpus) ↔ corpus.Loads ∨ calls.countP resolver.votes ≤ 1 := by
  by_cases loads : corpus.Loads
  · simp [loads, loaded_run]
  · rw [refused_run_iff loads]
    simp [loads]

def plainBuiltins : Builtins := ⟨id, id, id, id⟩

/-- A corpus of one document too many. -/
def largeCorpus : Corpus := ⟨List.replicate 10001 ("attention", "flash attention"), none⟩

/-- The second vote is not refused. -/
theorem second_vote_answered : ¬ ∀ (operators families : List String) (corpus : Corpus) (calls : List Call),
    (resolverOf plainBuiltins operators families).run corpus calls =
      calls.map ((resolverOf plainBuiltins operators families).fresh corpus) := by
  intro same
  have refused : ¬ largeCorpus.Loads := by
    intro loads
    have few := loads.2.1
    rw [largeCorpus, List.length_replicate] at few
    exact absurd few (by decide)
  have once := (refused_run_iff refused _).mp (same [] ["attention"] largeCorpus [.resolve "flash" .primary, .resolve "flash" .primary])
  exact absurd once (by decide +kernel)

end AtrexAgent.ScopeResolver
