import SpannerClient.Client
import SpannerClient.Internal.CommitRefusal
import SpannerClient.Internal.TransactionUse
import SpannerClient.Library.Handler

namespace SpannerClient

open Protobuf Program

namespace Client

variable {ς μ ξ : Type}

/-- Where the loop stands.  `free` has the number of the next transaction, `taken` a transaction
that the mutator is done with, `won` one that has been committed. -/
inductive Stage (ς μ : Type)
  | free (next : Nat)
  | taken (txn : Transaction ς) (mutations : Option μ)
  | won (object : Nat) (mutations : μ)
  | spent

namespace Stage

def failed (object : Nat) (e : Failure) (otherwise : Stage ς μ) : Stage ς μ :=
  if SafeTransactionRerun.isTransientFailure e.status then .free (object + 1) else otherwise

def mutated (object : Nat) (impl : TransactionImpl ς) : Mutated μ ξ → Stage ς μ
  | .returned (.ok mutations) => .taken ⟨object, impl⟩ (some mutations)
  | .returned (.error e) => failed object e (.taken ⟨object, impl⟩ none)
  | .threwStatus status => failed object (caught status) (.taken ⟨object, impl⟩ none)
  | .threw _ => .taken ⟨object, impl⟩ none

def next (g : Stage ς μ) : (c : Call ς μ) → Reply ξ c → Stage ς μ
  | .mutator txn, (result, impl) => mutated txn.object impl result
  | .commit txn mutations, (.ok _, _) => .won txn.object mutations
  | .commit txn _, (.error e, _) => failed txn.object e .spent
  | .rollback _, _ => .spent
  | .onFailure _, _ | .setBad _, _ | .onCompletion, _ | .sleepFor _, _ | .log _, _ => g

structure Offers (g : Stage ς μ) (txn : Transaction ς) : Prop where
  object : g = .free txn.object
  impl : txn.impl = .make txn.impl.session (.begin .readWrite)

end Stage

def contract : Contract (ε := Call ς μ) (Reply ξ) (Stage ς μ) where
  allows g
    | .mutator txn => g.Offers txn
    | .commit txn mutations => g = .taken txn (some mutations)
    | .rollback txn => ∃ mutations, g = .taken txn mutations
    | .onFailure _ | .setBad _ | .onCompletion | .sleepFor _ | .log _ => True
  next := Stage.next

variable {txn : Transaction ς} {g : Stage ς μ}

theorem keeps_rollback {mutations : Option μ} (h : g = .taken txn mutations) :
    (rollback : Body ς μ ξ Unit).Keeps contract (fun _ _ _ => True) txn g := by
  rw [rollback, keeps_get_bind]
  refine (keeps_perform_bind (e := Call.rollback txn)).mpr ⟨⟨mutations, h⟩, fun status => ?_⟩
  split
  · trivial
  · exact (keeps_perform (e := Call.log _)).mpr ⟨trivial, fun _ => trivial⟩

def Passed : Except ξ (Option (StatusOr CommitResult)) → Transaction ς → Stage ς μ → Prop
  | .ok none, txn, g => g.Offers txn
  | .ok (some (.ok _)), _, g => ∃ object mutations, g = .won object mutations
  | .ok (some (.error _)), _, _ | .error _, _, _ => True

theorem keeps_considerRerun {e : Failure} (h : g = .free (txn.object + 1)) :
    (considerRerun e : Body ς μ ξ _).Keeps contract Passed txn g := by
  refine (keeps_perform_bind (e := Call.onFailure e.status)).mpr ⟨trivial, fun rerun => ?_⟩
  have hrest {txn : Transaction ς} (hoffers : g.Offers txn) : (do
      let delay ← perform Call.onCompletion
      perform (Call.sleepFor delay)
      return none : Body ς μ ξ (Option (StatusOr CommitResult))).Keeps contract Passed txn g := by
    refine (keeps_perform_bind (e := Call.onCompletion)).mpr ⟨trivial, fun delay => ?_⟩
    exact (keeps_perform_bind (e := Call.sleepFor delay)).mpr ⟨trivial, fun _ => hoffers⟩
  cases rerun with
  | false => trivial
  | true =>
    simp only [Bool.not_true, Bool.false_eq_true, if_false]
    rw [keeps_get_bind]
    split
    · split
      · next session _ =>
        exact (keeps_perform_bind (e := Call.setBad session)).mpr
          ⟨trivial, fun _ => keeps_modify_bind.mpr (hrest ⟨h, rfl⟩)⟩
      · exact keeps_modify_bind.mpr (hrest ⟨h, rfl⟩)
    · exact keeps_modify_bind.mpr (hrest ⟨h, rfl⟩)

def MutatorLeaves (object : Nat) :
    Except ξ (StatusOr μ) → Transaction ς → Stage ς μ → Prop
  | .ok (.ok mutations), txn, g => txn.object = object ∧ g = .taken txn (some mutations)
  | .ok (.error e), txn, g => txn.object = object ∧ g = .failed object e (.taken txn none)
  | .error _, _, _ => True

theorem keeps_mutate (h : g.Offers txn) :
    (mutate : Body ς μ ξ _).Keeps contract (MutatorLeaves txn.object) txn g := by
  rw [mutate, keeps_get_bind]
  refine (keeps_perform_bind (e := Call.mutator txn)).mpr ⟨h, fun reply => ?_⟩
  obtain ⟨mutated, impl⟩ := reply
  refine keeps_modify_bind.mpr ?_
  match mutated with
  | .returned (.ok mutations) => exact ⟨rfl, rfl⟩
  | .returned (.error e) => exact ⟨rfl, rfl⟩
  | .threwStatus status => exact ⟨rfl, rfl⟩
  | .threw exception =>
    exact (keeps_rollback rfl).bind (fun _ _ _ _ => trivial) fun _ _ _ _ => trivial

theorem keeps_attempt (h : g.Offers txn) :
    (attempt : Body ς μ ξ _).Keeps contract Passed txn g := by
  refine (keeps_mutate h).bind ?_ fun _ _ _ _ => trivial
  rintro (e | mutations) txn' g' ⟨hobject, rfl⟩
  · dsimp only
    split
    · next htransient =>
      refine keeps_considerRerun ?_
      rw [Stage.failed, if_pos htransient, hobject]
    · next htransient =>
      rw [Stage.failed, if_neg htransient]
      exact (keeps_rollback rfl).bind (fun _ _ _ _ => trivial) fun _ _ _ _ => trivial
  · rw [keeps_get_bind]
    refine (keeps_perform_bind (e := Call.commit txn' mutations)).mpr ⟨rfl, fun reply => ?_⟩
    obtain ⟨result, impl⟩ := reply
    rw [keeps_modify_bind]
    cases result with
    | ok result => exact ⟨txn'.object, mutations, rfl⟩
    | error e =>
      dsimp only
      split
      · next htransient =>
        refine keeps_considerRerun ?_
        show Stage.failed txn'.object e .spent = _
        rw [Stage.failed, if_pos htransient]
      · trivial

theorem keeps_commit {fuel : Nat} (h : g.Offers txn) :
    (commit fuel : Body ς μ ξ _).Keeps contract (fun result _ g => ∀ value,
      result = .ok (some (.ok value)) → ∃ object mutations, g = .won object mutations) txn g := by
  induction fuel generalizing txn g with
  | zero => exact fun _ hvalue => by cases hvalue
  | succ fuel ih =>
    refine (keeps_attempt h).bind ?_ fun _ _ _ _ _ hvalue => by cases hvalue
    rintro (_ | result) txn' g' hpassed
    · exact ih hpassed
    · rintro value hvalue
      cases hvalue
      exact hpassed

end Client

/-- The operations that a mutator runs: it leaves the commit to `Client::Commit()`. -/
structure MutatorOperation extends GivenOperation where
  left : ∀ mutations, op ≠ .commit mutations

namespace ClientCommit

open ConnectionImpl TransactionUse

variable {σ χ ξ : Type}

/-- What is called for a transaction has its number; the choices are the mutator's. -/
inductive Call (χ : Type)
  | mutator (n : Nat) (session : Option (SessionHolder χ))
  | choose (n : Nat) (told : Told)
  | returns (n : Nat)
  | commit (n : Nat) (mutations : List Mutation)
  | rollback (n : Nat)
  | op (n : Nat) (call : ConnectionImpl.Call)
  | onFailure (status : Status)
  | setBad (holder : SessionHolder χ)
  | onCompletion
  | sleepFor (delay : Nat)
  | log (message : String)

@[reducible] def Reply (σ ξ : Type) : Call χ → Type
  | .choose _ _ => Option MutatorOperation
  | .returns _ => Client.Mutated (List Mutation) ξ
  | .op _ call => ConnectionImpl.Reply σ χ call
  | .onFailure _ => Bool
  | .onCompletion => Nat
  | .mutator _ _ | .commit _ _ | .rollback _ | .setBad _ | .sleepFor _ | .log _ => Unit

def mutatorOperations (n : Nat) :
    @Embedding TransactionUse.Call (Call χ) (TransactionUse.Reply σ χ) (Reply σ ξ) where
  call
    | .choose told => .choose n told
    | .op call => .op n call
  reply
    | .choose _, choice => choice.map MutatorOperation.toGivenOperation
    | .op _, r => r

def operations (n : Nat) :
    @Embedding ConnectionImpl.Call (Call χ) (ConnectionImpl.Reply σ χ) (Reply σ ξ) where
  call := .op n
  reply _ r := r

abbrev Handled (σ χ ξ α : Type) := Program (ε := Call χ) (Reply σ ξ) Unit Abort α

def handler (conn : ConnectionImpl σ) (fuel : Nat) :
    (c : Client.Call (SessionHolder χ) (List Mutation)) → Handled σ χ ξ (Client.Reply ξ c)
  | .mutator txn => do
    perform (Call.mutator txn.object txn.impl.session)
    let (_, impl) ← within txn.impl
      ((use conn fuel .nothing).embed (mutatorOperations txn.object))
    let mutated ← perform (Call.returns txn.object)
    return (mutated, impl)
  | .commit txn mutations => do
    perform (Call.commit txn.object mutations)
    within txn.impl
      ((TransactionImpl.visit fun _ => conn.commitImpl mutations).embed (operations txn.object))
  | .rollback txn => do
    perform (Call.rollback txn.object)
    let (status, _) ← within txn.impl
      ((TransactionImpl.visit fun _ => conn.rollbackImpl).embed (operations txn.object))
    return status
  | .onFailure status => perform (Call.onFailure status)
  | .setBad holder => perform (Call.setBad holder)
  | .onCompletion => perform Call.onCompletion
  | .sleepFor delay => perform (Call.sleepFor delay)
  | .log message => perform (Call.log message)

def commit (conn : ConnectionImpl σ) (fuel reruns : Nat) :
    Handled σ χ ξ (Except ξ (Option (StatusOr CommitResult)) × Transaction (SessionHolder χ)) :=
  Interaction.handle (handler conn fuel) (Client.commit reruns (.readWrite 0))

structure Course (χ : Type) where
  next : Nat
  session : Nat → Option (SessionHolder χ)
  progress : Nat → Progress
  /-- What the mutator has returned for the last transaction. -/
  returned : Option (List Mutation)
  /-- The last transaction is being committed or rolled back. -/
  closing : Bool
  verdict : Verdict

def committing (mutations : List Mutation) : GivenOperation :=
  ⟨.commit mutations, fun _ h => by cases h⟩

def rollingBack : GivenOperation := ⟨.rollback, fun _ h => by cases h⟩

namespace Course

def start : Course χ where
  next := 0
  session _ := none
  progress _ := initial (none : Option (SessionHolder χ)) none
  returned := none
  closing := false
  verdict := ⟨false, false⟩

def begin (g : Course χ) (n : Nat) (session : Option (SessionHolder χ)) : Course χ where
  next := n + 1
  session := Function.update g.session n session
  progress := Function.update g.progress n (initial session none)
  returned := none
  closing := false
  verdict := ⟨false, false⟩

def advance (conn : ConnectionImpl σ) (g : Course χ) (n : Nat) (c : TransactionUse.Call)
    (r : TransactionUse.Reply σ χ c) : Course χ :=
  { g with progress := Function.update g.progress n (TransactionUse.next conn (g.progress n) c r) }

def step (conn : ConnectionImpl σ) (g : Course χ) : (c : Call χ) → Reply σ ξ c → Course χ
  | .mutator n session, _ => g.begin n session
  | .choose n told, choice =>
    g.advance (σ := σ) conn n (.choose told) (choice.map MutatorOperation.toGivenOperation)
  | .returns _, .returned (.ok mutations) => { g with returned := some mutations }
  | .commit n mutations, _ =>
    { g.advance (σ := σ) conn n (.choose .nothing) (some (committing mutations)) with
      closing := true }
  | .rollback n, _ =>
    { g.advance (σ := σ) conn n (.choose .nothing) (some rollingBack) with closing := true }
  | .op n call, r =>
    { g.advance conn n (.op call) r with verdict := g.verdict.next call r }
  | _, _ => g

end Course

def contract (conn : ConnectionImpl σ) : Contract (ε := Call χ) (Reply σ ξ) (Course χ) where
  allows g
    | .mutator n _ => g.next = n ∧ g.verdict.Void
    | .choose n told => g.next = n + 1 ∧ g.closing = false ∧ told.Holds (g.progress n)
    | .returns n => g.next = n + 1
    | .commit n mutations => g.next = n + 1 ∧ g.closing = false ∧ g.returned = some mutations
    | .rollback n => g.next = n + 1 ∧ g.closing = false
    | .op n call => g.next = n + 1 ∧ Allows .readWrite (g.progress n) call ∧
      ∀ request, call = .rpc (.commit request) → g.closing = true
    | .onFailure _ | .setBad _ | .onCompletion | .sleepFor _ | .log _ => True
  next := Course.step conn

variable {conn : ConnectionImpl σ} {g : Course χ} {n : Nat} {txn : Transaction (SessionHolder χ)}
  {mutations : List Mutation}

structure Mutating (n : Nat) (g : Course χ) : Prop where
  next : g.next = n + 1
  closing : g.closing = false
  asked : g.verdict.asked = false
  ops : ∀ mutations, .commit mutations ∉ (g.progress n).ops

theorem Mutating.ne_commit (h : Mutating n g) {call : ConnectionImpl.Call}
    (hallows : Allows .readWrite (g.progress n) call) (request : CommitRequest) :
    call ≠ .rpc (.commit request) := by
  rintro rfl
  exact h.ops _ (List.mem_of_getLast? hallows.2.2)

theorem progress_mutator (g : Course χ) (n : Nat) (c : TransactionUse.Call)
    (r : Reply σ ξ ((mutatorOperations (σ := σ) (χ := χ) (ξ := ξ) n).call c)) :
    ((contract conn).next g ((mutatorOperations (σ := σ) (χ := χ) (ξ := ξ) n).call c) r).progress
        n = TransactionUse.next conn (g.progress n) c ((mutatorOperations n).reply c r) := by
  cases c with
  | choose told => exact Function.update_self ..
  | op call => exact Function.update_self ..

theorem extends_mutating (n : Nat) : (contract (χ := χ) (ξ := ξ) conn).Extends (mutatorOperations n)
    (TransactionUse.contract conn .readWrite) (fun g => g.progress n) (Mutating n) where
  allows {g c} hinv hallows := by
    cases c with
    | choose told => exact ⟨hinv.next, hinv.closing, hallows⟩
    | op call =>
      exact ⟨hinv.next, hallows, fun request hrequest =>
        absurd hrequest (hinv.ne_commit hallows request)⟩
  inv {g c} r hinv hallows := by
    cases c with
    | choose told =>
      refine ⟨hinv.next, hinv.closing, hinv.asked, fun mutations hmem => ?_⟩
      rw [progress_mutator] at hmem
      cases r with
      | none => exact hinv.ops mutations hmem
      | some choice =>
        rcases List.mem_append.mp hmem with hearlier | hlast
        · exact hinv.ops mutations hearlier
        · exact choice.left mutations (List.mem_singleton.mp hlast).symm
    | op call =>
      refine ⟨hinv.next, hinv.closing, ?_, fun mutations hmem => ?_⟩
      · have hsame : g.verdict.next call r = g.verdict :=
          Verdict.next_of_ne r (hinv.ne_commit hallows)
        show (g.verdict.next call r).asked = false
        rw [hsame]
        exact hinv.asked
      · rw [progress_mutator] at hmem
        have hops : (TransactionUse.next conn (g.progress n) (.op call) r).ops =
          (g.progress n).ops := ops_next _ _ _
        exact hinv.ops mutations (hops ▸ hmem)
  next r _ _ := progress_mutator _ n _ r

structure Closing (n : Nat) (returned : Option (List Mutation)) (g : Course χ) : Prop where
  next : g.next = n + 1
  closing : g.closing = true
  returned : g.returned = returned

theorem extends_closing (n : Nat) (returned : Option (List Mutation)) :
    (contract (χ := χ) (ξ := ξ) conn).Extends (operations n)
      ((ConnectionImpl.contract conn .readWrite).prod Verdict.contract)
      (fun g => (g.progress n, g.verdict)) (Closing n returned) where
  allows hinv hallows := ⟨hinv.next, hallows.1, fun _ _ => hinv.closing⟩
  inv _ hinv _ := ⟨hinv.next, hinv.closing, hinv.returned⟩
  next {g c} r _ _ := by
    have hprogress : ((contract (χ := χ) (ξ := ξ) conn).next g (.op n c) r).progress n =
        (g.progress n).next conn c r := Function.update_self ..
    exact Prod.ext hprogress rfl

inductive Agrees : Client.Stage (SessionHolder χ) (List Mutation) → Unit → Course χ → Prop
  | free {g : Course χ} {n : Nat} : g.next = n → g.verdict.Void → Agrees (.free n) () g
  | taken {g : Course χ} {txn : Transaction (SessionHolder χ)}
      {mutations : Option (List Mutation)} :
    g.next = txn.object + 1 → g.closing = false → g.verdict.asked = false →
      Stands .readWrite (g.progress txn.object).ops txn.impl (g.progress txn.object) →
      (∀ m, mutations = some m → g.returned = some m) → Agrees (.taken txn mutations) () g
  | won {g : Course χ} {n : Nat} {mutations : List Mutation} :
    g.next = n + 1 → g.returned = some mutations →
      (g.progress n).ops.getLast? = some (.commit mutations) → (g.progress n).answered = true →
      Agrees (.won n mutations) () g
  | spent {g : Course χ} : Agrees .spent () g

theorem Agrees.failed {stage : Client.Stage (SessionHolder χ) (List Mutation)} {e : Failure}
    (hnext : g.next = n + 1)
    (hvoid : SafeTransactionRerun.isTransientFailure e.status = true → g.verdict.Void)
    (h : Agrees stage () g) : Agrees (.failed n e stage) () g := by
  rw [Client.Stage.failed]
  split
  · next htransient => exact .free hnext (hvoid htransient)
  · exact h

theorem keeps_mutator {fuel : Nat} {stage : Client.Stage (SessionHolder χ) (List Mutation)}
    (hoffers : stage.Offers txn) (h : Agrees stage () g) :
    (handler conn fuel (.mutator txn) : Handled σ χ ξ _).Keeps (contract conn)
      (fun result s g => ∀ r, result = .ok r → Agrees (stage.next (.mutator txn) r) s g) () g := by
  rw [hoffers.object] at h
  cases h with
  | free hnext hvoid =>
    refine (keeps_perform_bind (e := Call.mutator _ _)).mpr ⟨⟨hnext, hvoid⟩, fun _ => ?_⟩
    have hbegun : (g.begin txn.object txn.impl.session).progress txn.object =
        initial txn.impl.session none := Function.update_self ..
    have hinv : Mutating txn.object (g.begin txn.object txn.impl.session) := by
      refine ⟨rfl, rfl, rfl, fun mutations => ?_⟩
      rw [hbegun]
      exact List.not_mem_nil
    have huse : (use conn fuel .nothing : Use σ χ Unit).Keeps
        (TransactionUse.contract conn .readWrite) (Stood .readWrite) txn.impl
        ((g.begin txn.object txn.impl.session).progress txn.object) := by
      rw [hbegun, hoffers.impl]
      exact keeps_use (stands_start txn.impl.session none) trivial
    have hwithin : (within txn.impl ((use conn fuel .nothing).embed
        (mutatorOperations txn.object)) : Handled σ χ ξ _).Keeps (contract conn)
        (fun result _ g => ∀ r, result = .ok r → Mutating txn.object g ∧
          Stands .readWrite (g.progress txn.object).ops r.2 (g.progress txn.object)) ()
        (g.begin txn.object txn.impl.session) := by
      refine (huse.embed (extends_mutating txn.object) hinv).within ?_ ?_
      · rintro ⟨⟩ t g ⟨hinv, hstood⟩ r hr
        cases hr
        exact ⟨hinv, hstood rfl⟩
      · intro x t g _ r hr
        cases hr
    refine hwithin.bind ?_ ?_
    · rintro ⟨⟨⟩, impl⟩ ⟨⟩ g hmid
      obtain ⟨hinv, hstands⟩ := hmid _ rfl
      refine (keeps_perform_bind (e := Call.returns _)).mpr ⟨hinv.next, fun mutated => ?_⟩
      rintro r hr
      cases hr
      have htaken {mutated : Option (List Mutation)} {returned : Option (List Mutation)}
          (hreturned : ∀ m, mutated = some m → returned = some m) :
          Agrees (.taken ⟨txn.object, impl⟩ mutated) () { g with returned } :=
        .taken hinv.next hinv.closing hinv.asked hstands hreturned
      match mutated with
      | .returned (.ok mutations) => exact htaken fun m hm => hm
      | .returned (.error e) =>
        exact .failed hinv.next (fun _ => .inl hinv.asked) (htaken fun m hm => by cases hm)
      | .threwStatus status =>
        exact .failed hinv.next (fun _ => .inl hinv.asked) (htaken fun m hm => by cases hm)
      | .threw exception => exact htaken fun m hm => by cases hm
    · intro x s g _ r hr
      cases hr

theorem closes_commit {ops : List Operation} {t : TransactionImpl (SessionHolder χ)}
    {progress : Progress} {v : Verdict}
    (h : Stands .readWrite ops { t with seqno := t.seqno + 1 } progress)
    (hop : ops.getLast? = some (.commit mutations)) (hasked : v.asked = false) :
    (TransactionImpl.visit fun _ => conn.commitImpl mutations : Op σ χ _).Keeps
      ((ConnectionImpl.contract conn .readWrite).prod Verdict.contract)
      (fun result t g => Leaves .readWrite ops (fun _ => True) result t g.1 ∧
        RetryLoop.Carries Excuses result t g.2) t (progress, v) := by
  refine TransactionImpl.keeps_visit (fun state => ?_) ?_ ?_
  · exact (keeps_commitImpl (stands_state h state) hop).prod (commitImpl_excused hasked)
  · rintro result t g state ⟨⟨hstands, hanswered⟩, hcarries⟩
    exact ⟨⟨stands_state hstands state, hanswered⟩, hcarries⟩
  · exact ⟨h.leaves_throw _, RetryLoop.carries_throw⟩

theorem keeps_commitHandler {fuel : Nat}
    (h : Agrees (.taken txn (some mutations)) () g) :
    (handler conn fuel (.commit txn mutations) : Handled σ χ ξ _).Keeps (contract conn)
      (fun result s g => ∀ r, result = .ok r →
        Agrees (Client.Stage.next (.taken txn (some mutations)) (.commit txn mutations) r) s g)
      () g := by
  cases h with
  | taken hnext hclosing hasked hstands hreturned =>
    refine (keeps_perform_bind (e := Call.commit _ _)).mpr
      ⟨⟨hnext, hclosing, hreturned _ rfl⟩, fun _ => ?_⟩
    let begun := Course.step (ξ := ξ) conn g (.commit txn.object mutations) ()
    have hprogress : begun.progress txn.object =
        { g.progress txn.object with
          ops := (g.progress txn.object).ops ++ [.commit mutations], answered := false } :=
      Function.update_self ..
    have hcloses : (TransactionImpl.visit fun _ => conn.commitImpl mutations : Op σ χ _).Keeps
        ((ConnectionImpl.contract conn .readWrite).prod Verdict.contract)
        (fun result t g' => Leaves .readWrite
            ((g.progress txn.object).ops ++ [.commit mutations]) (fun _ => True) result t g'.1 ∧
          RetryLoop.Carries Excuses result t g'.2)
        txn.impl (begun.progress txn.object, begun.verdict) := by
      rw [hprogress]
      exact closes_commit (stands_chosen hstands _) List.getLast?_concat hasked
    have hinv : Closing txn.object (some mutations) begun := ⟨hnext, rfl, hreturned _ rfl⟩
    refine (Keeps.embed (g := begun) (extends_closing ..) hinv hcloses).within ?_ ?_
    · rintro (e | value) t g' ⟨hclosed, ⟨hleft, hanswered⟩, hcarries⟩ r hr
      · cases hr
        refine .failed hclosed.next (fun htransient => ?_) .spent
        exact hcarries e rfl (isRerunnable_of_transient htransient)
      · cases hr
        refine .won hclosed.next hclosed.returned ?_ (hanswered value rfl trivial)
        rw [hleft.ops]
        exact List.getLast?_concat
    · intro x t g' _ r hr
      cases hr

theorem keeps_rollbackHandler {fuel : Nat} {mutated : Option (List Mutation)}
    (h : Agrees (.taken txn mutated) () g) :
    (handler conn fuel (.rollback txn) : Handled σ χ ξ _).Keeps (contract conn)
      (fun _ _ _ => True) () g := by
  cases h with
  | taken hnext hclosing hasked hstands hreturned =>
    refine (keeps_perform_bind (e := Call.rollback _)).mpr ⟨⟨hnext, hclosing⟩, fun _ => ?_⟩
    let begun := Course.step (ξ := ξ) conn g (.rollback txn.object) ()
    have hprogress : begun.progress txn.object =
        { g.progress txn.object with
          ops := (g.progress txn.object).ops ++ [.rollback], answered := false } :=
      Function.update_self ..
    have hrolls : (TransactionImpl.visit fun _ => conn.rollbackImpl : Op σ χ _).Keeps
        (ConnectionImpl.contract conn .readWrite) (fun _ _ _ => True) txn.impl
        (begun.progress txn.object) := by
      rw [hprogress]
      refine TransactionImpl.keeps_visit (fun state => ?_) (fun _ _ _ _ _ => trivial) trivial
      exact (keeps_rollbackImpl (stands_state (stands_chosen hstands _) state)
        List.getLast?_concat).mono fun _ _ _ _ => trivial
    have hrolls : (TransactionImpl.visit fun _ => conn.rollbackImpl : Op σ χ _).Keeps
        ((ConnectionImpl.contract conn .readWrite).prod Verdict.contract)
        (fun _ _ _ => True ∧ True) txn.impl (begun.progress txn.object, begun.verdict) :=
      hrolls.prod (keeps_of_allows (fun _ _ => trivial) _ _ _)
    have hinv : Closing txn.object g.returned begun := ⟨hnext, rfl, rfl⟩
    have hwithin : (within txn.impl ((TransactionImpl.visit fun _ => conn.rollbackImpl).embed
        (operations txn.object)) : Handled σ χ ξ _).Keeps (contract conn) (fun _ _ _ => True) ()
        begun :=
      (Keeps.embed (g := begun) (extends_closing ..) hinv hrolls).within (fun _ _ _ _ => trivial)
        fun _ _ _ _ => trivial
    exact hwithin.bind (fun _ _ _ _ => trivial) fun _ _ _ _ => trivial

theorem keeps_handler {fuel : Nat} {stage : Client.Stage (SessionHolder χ) (List Mutation)}
    {c : Client.Call (SessionHolder χ) (List Mutation)} {s : Unit}
    (hallows : (Client.contract (ξ := ξ)).allows stage c) (h : Agrees stage s g) :
    (handler conn fuel c : Handled σ χ ξ _).Keeps (contract conn)
      (fun result s g => ∀ r, result = .ok r → Agrees (stage.next c r) s g) s g := by
  cases c with
  | mutator txn => exact keeps_mutator hallows h
  | commit txn mutations =>
    subst hallows
    exact keeps_commitHandler h
  | rollback txn =>
    obtain ⟨mutated, rfl⟩ := hallows
    exact (keeps_rollbackHandler h).mono fun _ _ _ _ _ _ => .spent
  | onFailure | setBad | onCompletion | sleepFor | log =>
    exact ⟨trivial, fun _ r hr => by cases hr; exact h⟩

structure Won (n : Nat) (mutations : List Mutation) (g : Course χ) : Prop where
  next : g.next = n + 1
  returned : g.returned = some mutations
  ops : (g.progress n).ops.getLast? = some (.commit mutations)
  answered : (g.progress n).answered = true

theorem keeps_program (conn : ConnectionImpl σ) (fuel reruns : Nat) :
    (commit conn fuel reruns : Handled σ χ ξ _).Keeps (contract conn)
      (fun result _ g => ∀ value txn, result = .ok (.ok (some (.ok value)), txn) →
        ∃ n mutations, Won n mutations g) () Course.start := by
  have hloop : Interaction.Keeps Client.contract (fun result g => ∀ value,
      result.1 = .ok (some (.ok value)) → ∃ object mutations, g = .won object mutations)
      ((Client.commit reruns : Client.Body (SessionHolder χ) (List Mutation) ξ _) (.readWrite 0))
      (.free 0) := Client.keeps_commit ⟨rfl, rfl⟩
  refine Interaction.Keeps.mono (Interaction.Keeps.handle (R := Agrees) keeps_handler hloop
    (.free rfl (.inl rfl))) ?_
  rintro ⟨result, s⟩ g hpost value txn rfl
  obtain ⟨stage, hagrees, hwon⟩ := hpost _ rfl
  obtain ⟨n, mutations, rfl⟩ := hwon value rfl
  cases hagrees with
  | won hnext hreturned hops hanswered => exact ⟨n, mutations, hnext, hreturned, hops, hanswered⟩

end ClientCommit

end SpannerClient
