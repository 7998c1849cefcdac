import SpannerClient.Internal.BeginSelector
import SpannerClient.Internal.SessionUse

namespace SpannerClient.ConnectionImpl

open Protobuf Program

variable {σ χ : Type} {conn : ConnectionImpl σ} {tr : List (Exchange σ χ)}
  {outcome : Except Abort Status} {t t' : TransactionImpl (SessionHolder χ)}

def Moves (selector selector' : TransactionSelector) : Prop :=
  selector' = selector ∨ selector.hasBegin = true ∧ ∃ id, selector' = .id id

def Begins (tr : List (Exchange σ χ)) (transaction : Protobuf.Transaction) : Prop :=
  ∃ request, ⟨.rpc (.beginTransaction request), .ok transaction⟩ ∈ tr

def BeginsOwn : Operation → TransactionSelector → Prop
  | .commit _, selector => selector.hasBegin = false ∧ ∀ id, selector ≠ .id id
  | .executePartitionedDml _, selector => selector.hasBegin = false
  | .read _, _ | .partitionRead _, _ | .executeQuery _, _ | .profileQuery _, _ | .executeDml _, _
  | .profileDml _, _ | .analyzeSql _, _ | .partitionQuery _, _ | .executeBatchDml _, _
  | .rollback, _ => False

def BeginsAnew (op : Operation) (selector : TransactionSelector) (tr : List (Exchange σ χ)) :
    Prop :=
  BeginsOwn op selector ∧ ∃ transaction, Begins tr transaction ∧ selector ≠ .id transaction.id

theorem Passes.moves {selector selector' : TransactionSelector}
    (h : Passes conn selector tr outcome selector') : Moves selector selector' := by
  cases h with
  | kept | refused | ignored => exact .inl rfl
  | left id hbegin => exact .inr ⟨hbegin, id, rfl⟩

theorem selector_of_rollbackImpl {result : Except Abort Status}
    (h : (conn.rollbackImpl : Op σ χ _).Runs t tr result t') : t'.selector = t.selector := by
  rcases runs_prepared h with ⟨e, -, hprepares⟩ | ⟨holder, t₁, tr₁, tr₂, rfl, hprepares, h⟩
  · exact hprepares.selector_eq
  · rw [← hprepares.selector_eq]
    rw [runs_get_bind] at h
    cases hselector : t₁.selector with
    | singleUse _ | begin _ =>
      simp only [hselector] at h
      obtain ⟨-, -, rfl⟩ := runs_pure.mp h
      exact hselector
    | id _ | notSet =>
      simp only [hselector] at h
      rw [runs_bind] at h
      rcases h with ⟨s, tr₃, tr₄, t₂, rfl, hloop, h⟩ | ⟨x, rfl, hloop⟩
      · obtain ⟨rfl, -⟩ := runs_rollback hloop
        obtain ⟨-, -, rfl⟩ := runs_checkSession_then h
        exact hselector
      · obtain ⟨rfl, -⟩ := runs_rollback hloop
        exact hselector

theorem begins_append {tr tr' : List (Exchange σ χ)} {transaction : Protobuf.Transaction} :
    Begins (tr ++ tr') transaction ↔ Begins tr transaction ∨ Begins tr' transaction := by
  simp only [Begins, List.mem_append, exists_or]

theorem Prepares.not_begins {dissociate : Bool} {prepared : StatusOr (SessionHolder χ)}
    (h : Prepares dissociate t tr prepared t') (transaction : Protobuf.Transaction) :
    ¬ Begins tr transaction := by
  cases h <;> simp [Begins]

theorem Marks.not_begins {holder : SessionHolder χ} {status : Status} (h : Marks holder status tr)
    (transaction : Protobuf.Transaction) : ¬ Begins tr transaction := by
  rw [Marks] at h
  split at h <;> simp [h, Begins]

theorem begins_of_call {request : BeginTransactionRequest} {location : String}
    {result : Except Abort (StatusOr Protobuf.Transaction)} (transaction : Protobuf.Transaction)
    (h : (conn.call (.beginTransaction request) location : Op σ χ _).Runs t tr result t') :
    Begins tr transaction ↔ result = .ok (.ok transaction) := by
  obtain ⟨-, hcalls, hresult⟩ := runs_call h
  constructor
  · rintro ⟨request', hmem⟩
    rcases hcalls _ hmem with hpolicy | hrpc
    · cases hpolicy
    · cases hrpc
      exact (hresult transaction).mp hmem
  · intro hr
    exact ⟨request, (hresult transaction).mpr hr⟩

theorem not_begins_of_call {rpc : Rpc} {location : String}
    {result : Except Abort (StatusOr rpc.Response)} (transaction : Protobuf.Transaction)
    (hrpc : ∀ request, rpc ≠ .beginTransaction request)
    (h : (conn.call rpc location : Op σ χ _).Runs t tr result t') : ¬ Begins tr transaction := by
  rintro ⟨request, hmem⟩
  obtain ⟨-, hcalls, -⟩ := runs_call h
  rcases hcalls _ hmem with hpolicy | hsame
  · cases hpolicy
  · cases hsame
    exact hrpc request rfl

theorem not_begins_of_checked {α : Type} {rpc : Rpc} {location : String}
    {holder : SessionHolder χ} {onError : Failure → α} {next : rpc.Response → Op σ χ α}
    {result : Except Abort α} (hrpc : ∀ request, rpc ≠ .beginTransaction request)
    (h : Checked holder (conn.call rpc location) onError next t tr result t')
    (hnext : ∀ response, ∃ a, next response = pure a) :
    t' = t ∧ ∀ transaction, ¬ Begins tr transaction := by
  cases h with
  | aborted hcall => exact ⟨(runs_call hcall).1, fun x => not_begins_of_call x hrpc hcall⟩
  | failed hcall hmarks =>
    refine ⟨(runs_call hcall).1, fun x => ?_⟩
    simp [begins_append, not_begins_of_call x hrpc hcall, hmarks.not_begins x]
  | @answered response _ _ _ _ _ hcall h =>
    obtain ⟨a, ha⟩ := hnext response
    rw [ha] at h
    obtain ⟨rfl, rfl, rfl⟩ := runs_pure.mp h
    refine ⟨(runs_call hcall).1, fun x => ?_⟩
    simp [not_begins_of_call x hrpc hcall]

inductive Replaces (selector : TransactionSelector) (tr : List (Exchange σ χ)) :
    TransactionSelector → Prop
  | unbegun : (∀ transaction, ¬ Begins tr transaction) → Replaces selector tr selector
  | begun (transaction : Protobuf.Transaction) :
    (∀ transaction', Begins tr transaction' ↔ transaction' = transaction) →
      Replaces selector tr (.id transaction.id)

theorem Replaces.moves_iff {selector selector' : TransactionSelector}
    (h : Replaces selector tr selector') (hbegin : selector.hasBegin = false) :
    Moves selector selector' ↔
      ¬ ∃ transaction, Begins tr transaction ∧ selector ≠ .id transaction.id := by
  cases h with
  | unbegun hnot => simp [Moves, hnot]
  | begun transaction hbegins => simp [Moves, hbegins, hbegin, eq_comm]

theorem Replaces.prepend {selector selector' : TransactionSelector} {tr₁ : List (Exchange σ χ)}
    (h : Replaces selector tr selector') (hnot : ∀ transaction, ¬ Begins tr₁ transaction) :
    Replaces selector (tr₁ ++ tr) selector' := by
  cases h with
  | unbegun hunbegun => exact .unbegun fun x => by simp [begins_append, hnot, hunbegun]
  | begun transaction hbegins =>
    exact .begun transaction fun x => by simp [begins_append, hnot, hbegins]

theorem replaces_of_checked {α : Type} {request : BeginTransactionRequest} {location : String}
    {holder : SessionHolder χ} {onError : Failure → α}
    {next : Protobuf.Transaction → Op σ χ α} {result : Except Abort α}
    (h : Checked holder (conn.call (.beginTransaction request) location) onError next t tr result
      t')
    (hnext : ∀ {response tr₁}, (next response).Runs t tr₁ result t' →
      t'.selector = .id response.id ∧ ∀ transaction, ¬ Begins tr₁ transaction) :
    Replaces t.selector tr t'.selector := by
  cases h with
  | aborted hcall =>
    rw [(runs_call hcall).1]
    exact .unbegun fun x => by simp [begins_of_call x hcall]
  | failed hcall hmarks =>
    rw [(runs_call hcall).1]
    exact .unbegun fun x => by simp [begins_append, begins_of_call x hcall, hmarks.not_begins x]
  | @answered response _ _ _ _ _ hcall h =>
    obtain ⟨rfl, -⟩ := runs_call hcall
    obtain ⟨hselector, hnot⟩ := hnext h
    rw [hselector]
    exact .begun response fun x => by simp [begins_append, begins_of_call x hcall, hnot, eq_comm]

theorem replaces_commitImpl {mutations : List Mutation}
    {result : Except Abort (StatusOr CommitResult)}
    (hown : BeginsOwn (.commit mutations) t.selector)
    (h : (conn.commitImpl mutations : Op σ χ _).Runs t tr result t') :
    Replaces t.selector tr t'.selector := by
  rcases runs_prepared h with ⟨e, -, hprepares⟩ | ⟨holder, t₁, tr₁, tr₂, rfl, hprepares, h⟩
  · rw [hprepares.selector_eq]
    exact .unbegun hprepares.not_begins
  · rw [← hprepares.selector_eq] at hown ⊢
    refine Replaces.prepend ?_ hprepares.not_begins
    rw [runs_get_bind] at h
    cases hselector : t₁.selector with
    | id id => exact absurd hselector (hown.2 id)
    | begin options =>
      rw [hselector] at hown
      cases hown.1
    | singleUse _ | notSet =>
      simp only [hselector] at h
      rw [← hselector]
      refine replaces_of_checked (runs_checked h fun _ => rfl) ?_
      intro response tr₃ h
      simp only [setId, runs_modify_bind] at h
      obtain ⟨rfl, hnot⟩ :=
        not_begins_of_checked (by simp) (runs_checked h fun _ => rfl) fun _ => ⟨_, rfl⟩
      exact ⟨rfl, hnot⟩

theorem replaces_executePartitionedDmlImpl {seqno : Nat} {statement : SqlStatement}
    {result : Except Abort (StatusOr PartitionedDmlResult)}
    (h : (conn.executePartitionedDmlImpl seqno statement : Op σ χ _).Runs t tr result t') :
    Replaces t.selector tr t'.selector := by
  rcases runs_prepared h with ⟨e, -, hprepares⟩ | ⟨holder, t₁, tr₁, tr₂, rfl, hprepares, h⟩
  · rw [hprepares.selector_eq]
    exact .unbegun hprepares.not_begins
  · rw [← hprepares.selector_eq]
    refine Replaces.prepend ?_ hprepares.not_begins
    refine replaces_of_checked (runs_checked h fun _ => rfl) ?_
    intro response tr₃ h
    simp only [setId, runs_modify_bind] at h
    obtain ⟨rfl, hnot⟩ :=
      not_begins_of_checked (by simp) (runs_checked h fun _ => rfl) fun _ => ⟨_, rfl⟩
    exact ⟨rfl, hnot⟩

theorem reporter_of_functor {op : Operation} {seqno : Nat}
    (h : (conn.functor op seqno : Op σ χ _).Runs t tr outcome t') :
    ∃ report, (conn.reporter op seqno).Runs t tr report t' := by
  cases op with
  | rollback => exact ⟨_, runs_bind_pure h⟩
  | executeBatchDml statements =>
    obtain ⟨result, hrun⟩ := runs_of_bind_pure (fun result => by
      cases result with
      | error e => exact ⟨e.status, rfl⟩
      | ok batch => exact ⟨batch.status, rfl⟩) h
    exact ⟨_, runs_bind_pure hrun⟩
  | read _ | partitionRead _ | executeQuery _ | profileQuery _ | executeDml _ | profileDml _
  | analyzeSql _ | partitionQuery _ | executePartitionedDml _ | commit _ =>
    obtain ⟨result, hrun⟩ := runs_of_bind_pure (fun result => ⟨_, rfl⟩) h
    exact ⟨_, runs_bind_pure hrun⟩

theorem UsesSession.session_eq {dissociate : Bool} {status : Except Abort Status}
    (h : UsesSession dissociate t tr status t') : t'.session = t.session ∨ t.session = none := by
  cases h with
  | failed => exact .inl rfl
  | served hprepares hserves =>
    rw [hserves.session]
    cases hprepares with
    | held => exact .inl rfl
    | allocated _ hnone => exact .inr hnone

theorem moves_of_commitImpl {mutations : List Mutation}
    {result : Except Abort (StatusOr CommitResult)}
    (h : (conn.commitImpl mutations : Op σ χ _).Runs t tr result t') :
    Moves t.selector t'.selector ↔ ¬ BeginsAnew (.commit mutations) t.selector tr := by
  have hpasses : (∃ options, t.selector = .begin options) ∨ (∃ id, t.selector = .id id) →
      Moves t.selector t'.selector := by
    intro hselector
    have hpasses : Passes conn t.selector tr (.error .outOfFuel) t'.selector :=
      passes_commitImpl hselector h
    exact hpasses.moves
  cases hselector : t.selector with
  | begin options =>
    rw [hselector] at hpasses
    simpa [BeginsAnew, BeginsOwn] using hpasses (.inl ⟨options, rfl⟩)
  | id id =>
    rw [hselector] at hpasses
    simpa [BeginsAnew, BeginsOwn] using hpasses (.inr ⟨id, rfl⟩)
  | singleUse _ | notSet =>
    have hown : BeginsOwn (.commit mutations) t.selector := by
      rw [hselector]
      exact ⟨rfl, by simp⟩
    rw [← hselector, BeginsAnew, and_iff_right hown]
    exact (replaces_commitImpl hown h).moves_iff hown.1

theorem moves_of_executePartitionedDmlImpl {seqno : Nat} {statement : SqlStatement}
    {result : Except Abort (StatusOr PartitionedDmlResult)}
    (h : (conn.executePartitionedDmlImpl seqno statement : Op σ χ _).Runs t tr result t') :
    Moves t.selector t'.selector ↔
      ¬ BeginsAnew (.executePartitionedDml statement) t.selector tr := by
  rw [BeginsAnew, BeginsOwn]
  cases hbegin : t.selector.hasBegin with
  | false => simpa using (replaces_executePartitionedDmlImpl h).moves_iff hbegin
  | true =>
    have hpasses : Passes conn t.selector tr (.error .outOfFuel) t'.selector :=
      passes_executePartitionedDmlImpl hbegin h
    simpa using hpasses.moves

theorem moves_of_functor {op : Operation} {seqno : Nat}
    (h : (conn.functor op seqno : Op σ χ _).Runs t tr outcome t') :
    Moves t.selector t'.selector ↔ ¬ BeginsAnew op t.selector tr := by
  cases op with
  | rollback => simp [Moves, BeginsAnew, BeginsOwn, selector_of_rollbackImpl h]
  | commit mutations =>
    obtain ⟨result, hrun⟩ := runs_of_bind_pure (fun result => ⟨_, rfl⟩) h
    exact moves_of_commitImpl hrun
  | executePartitionedDml statement =>
    obtain ⟨result, hrun⟩ := runs_of_bind_pure (fun result => ⟨_, rfl⟩) h
    exact moves_of_executePartitionedDmlImpl hrun
  | read _ | partitionRead _ | executeQuery _ | profileQuery _ | executeDml _ | profileDml _
  | analyzeSql _ | partitionQuery _ | executeBatchDml _ =>
    have hmoves := (passes_functor (by simp) (by simp [Visitable]) h).moves
    simpa [BeginsAnew, BeginsOwn] using hmoves

/-- The contract that `Visit()` states for its functor; in `kDone` functors run concurrently. -/
structure KeepsContract (t t' : TransactionImpl (SessionHolder χ)) : Prop where
  selector : Moves t.selector t'.selector
  session : t'.session = t.session ∨ t.session = none
  done : TransactionImpl.stateOf t.selector = .done → t'.selector = t.selector

theorem keeps_contract_iff {op : Operation} {seqno : Nat}
    (h : (conn.functor op seqno : Op σ χ _).Runs t tr outcome t') :
    KeepsContract t t' ↔ ¬ BeginsAnew op t.selector tr := by
  constructor
  · intro hkeeps
    exact (moves_of_functor h).mp hkeeps.selector
  · intro hanew
    have hmoves := (moves_of_functor h).mpr hanew
    obtain ⟨report, hreport⟩ := reporter_of_functor h
    refine ⟨hmoves, (uses_reporter hreport).session_eq, fun hdone => ?_⟩
    rcases hmoves with hsame | ⟨hbegin, -⟩
    · exact hsame
    · simp [TransactionImpl.stateOf, hbegin] at hdone

def commitTrace (options : TransactionOptions) : List (Exchange ServerStream Unit) :=
  [⟨.allocate false, .ok session⟩, ⟨.isExhausted, false⟩,
    ⟨.rpc (.beginTransaction ⟨"session", options⟩), .ok ⟨"txn", none⟩⟩, ⟨.isExhausted, false⟩,
    ⟨.rpc (.commit ⟨"session", "txn", []⟩), .ok ⟨⟨0, 0⟩⟩⟩]

def committed (t : TransactionImpl (SessionHolder Unit)) : TransactionImpl (SessionHolder Unit) :=
  { t with session := some ⟨session, false⟩, selector := .id "txn" }

theorem commit_keeps_contract :
    (serverConn.functor (.commit []) 1).Runs newTransaction (commitTrace .readWrite)
      (.ok .success) (committed newTransaction) ∧
    (KeepsContract newTransaction (committed newTransaction) ↔
      ¬ BeginsAnew (.commit []) newTransaction.selector (commitTrace .readWrite)) := by
  have h : (serverConn.functor (.commit []) 1).Runs newTransaction (commitTrace .readWrite)
      (.ok .success) (committed newTransaction) := .call (.call (.call (.call (.call .ret))))
  exact ⟨h, keeps_contract_iff h⟩

def singleUse : TransactionImpl (SessionHolder Unit) :=
  .make none (.singleUse (.readOnly ⟨.strong true, true⟩))

theorem commit_breaks_contract :
    singleUse.state = .done ∧
    (serverConn.functor (.commit []) 1).Runs singleUse
      (commitTrace (.readOnly ⟨.strong true, true⟩)) (.ok .success) (committed singleUse) ∧
    ¬ KeepsContract singleUse (committed singleUse) := by
  refine ⟨rfl, .call (.call (.call (.call (.call .ret)))), fun h => ?_⟩
  cases h.done rfl

end SpannerClient.ConnectionImpl
