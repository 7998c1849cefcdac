import SpannerClient.Internal.ConnectionImpl

namespace SpannerClient

open Program

def PartitionReadParams.toRequest (params : PartitionReadParams) (session : String)
    (selector : Protobuf.TransactionSelector) : Protobuf.PartitionReadRequest where
  session := session
  transaction := selector
  table := params.readParams.table
  index := params.readParams.readOptions.indexName
  columns := params.readParams.columns
  keySet := params.readParams.keys
  partitionOptions := params.partitionOptions.toProto

def PartitionQueryParams.toRequest (params : PartitionQueryParams) (session : String)
    (selector : Protobuf.TransactionSelector) : Protobuf.PartitionQueryRequest where
  session := session
  transaction := selector
  statement := params.statement.toProto
  partitionOptions := params.partitionOptions.toProto

namespace ConnectionImpl

variable {σ χ : Type}

abbrev Exchange (σ χ : Type) := (c : Call) × Reply σ χ c

def Call.isPolicy : Call → Bool
  | .isExhausted | .onFailure _ | .onCompletion | .sleepFor _ => true
  | .allocate _ | .setBad _ | .streamingRead _ | .executeStreamingSql _ | .rpc _
  | .rollback _ => false

/-- The first response of a stream, which begins with it, carries no transaction id. -/
def StreamLacksId (conn : ConnectionImpl σ) (rpc : σ) : Prop :=
  ∃ source, PartialResultSetSource.create conn.reader conn.fuel rpc = some (.ok source) ∧
    (ResultSource.partialResultSet source).transactionId = ""

def executeSqlRequest (holder : SessionHolder χ) (t : TransactionImpl (SessionHolder χ))
    (seqno : Nat) (params : SqlParams) (queryMode : Protobuf.QueryMode) :
    Protobuf.ExecuteSqlRequest where
  session := holder.session.name
  transaction := t.selector
  statement := params.statement.toProto
  seqno := seqno
  queryMode := queryMode
  partitionToken := params.partitionToken.getD ""
  optimizerVersion := params.queryOptions.optimizerVersion

variable {conn : ConnectionImpl σ} {tr : List (Exchange σ χ)}
  {t t' : TransactionImpl (SessionHolder χ)}

theorem policies_within :
    (policies : LoopPolicies (Reply σ χ) (TransactionImpl (SessionHolder χ))).Within
      fun c => c.1.isPolicy = true where
  isExhausted h := by
    obtain ⟨b, rfl, rfl, rfl⟩ := runs_perform.mp h
    exact ⟨⟨b, rfl⟩, rfl, by simp [Call.isPolicy]⟩
  onFailure h := by
    obtain ⟨b, rfl, rfl, rfl⟩ := runs_perform.mp h
    exact ⟨⟨b, rfl⟩, rfl, by simp [Call.isPolicy]⟩
  backoff h := by
    simp only [policies, runs_perform_bind, runs_perform] at h
    obtain ⟨delay, _, rfl, _, rfl, rfl, rfl⟩ := h
    exact ⟨rfl, rfl, by simp [Call.isPolicy]⟩

theorem runs_call {rpc : Rpc} {location : String} {result : Except Abort (StatusOr rpc.Response)}
    (h : (conn.call rpc location : Op σ χ _).Runs t tr result t') :
    t' = t ∧ (∀ c ∈ tr, c.1.isPolicy = true ∨ c.1 = .rpc rpc) ∧
      ∀ response, ⟨.rpc rpc, .ok response⟩ ∈ tr ↔ result = .ok (.ok response) := by
  have hquiet : ∀ r : Reply σ χ (.rpc rpc), ¬ Call.isPolicy (.rpc rpc) = true := nofun
  obtain ⟨ht, hreports⟩ := RetryLoop.runs_loop (e := Call.rpc rpc) hquiet policies_within h
  refine ⟨ht, hreports.calls, fun response => ⟨fun hr => hreports.answer _ hr rfl, fun hr => ?_⟩⟩
  rcases hreports.success _ hr rfl with hmem | ⟨status, hstatus⟩
  · exact hmem
  · -- the constructor from a status never makes a value
    simp only [RetryResult.ofStatus] at hstatus
    split at hstatus <;> cases hstatus

theorem runs_rollback {request : Protobuf.RollbackRequest} {location : String} {fuel : Nat}
    {result : Except Abort Status}
    (h : (RetryLoop.retryLoop policies conn.print true (perform (Call.rollback request))
      location fuel : Op σ χ _).Runs t tr result t') :
    t' = t ∧ ∀ c ∈ tr, c.1.isPolicy = true ∨ c.1 = .rollback request := by
  have hquiet : ∀ r : Reply σ χ (.rollback request),
      ¬ Call.isPolicy (.rollback request) = true := nofun
  obtain ⟨ht, hreports⟩ := RetryLoop.runs_loop (e := Call.rollback request) hquiet policies_within h
  exact ⟨ht, hreports.calls⟩

inductive Prepares (dissociate : Bool) (t : TransactionImpl (SessionHolder χ)) :
    List (Exchange σ χ) → StatusOr (SessionHolder χ) → TransactionImpl (SessionHolder χ) → Prop
  | held {holder : SessionHolder χ} : t.session = some holder →
    Prepares dissociate t [] (.ok holder) t
  | allocated (session : Session χ) : t.session = none →
    Prepares dissociate t [⟨.allocate dissociate, .ok session⟩] (.ok ⟨session, dissociate⟩)
      { t with session := some ⟨session, dissociate⟩ }
  | failed (e : Failure) : t.session = none →
    Prepares dissociate t [⟨.allocate dissociate, .error e⟩] (.error e) t

theorem Prepares.selector_eq {dissociate : Bool} {prepared : StatusOr (SessionHolder χ)}
    (h : Prepares dissociate t tr prepared t') : t'.selector = t.selector := by
  cases h <;> rfl

theorem Prepares.session_of_ok {dissociate : Bool} {holder : SessionHolder χ}
    (h : Prepares dissociate t tr (.ok holder) t') : t'.session = some holder := by
  cases h with
  | held hsession => exact hsession
  | allocated _ _ => rfl

theorem runs_prepareSession {dissociate : Bool} {result : Except Abort (StatusOr (SessionHolder χ))}
    (h : (prepareSession dissociate : Op σ χ _).Runs t tr result t') :
    ∃ prepared, result = .ok prepared ∧ Prepares dissociate t tr prepared t' := by
  simp only [prepareSession, runs_get_bind] at h
  split at h
  · next hsession =>
    obtain ⟨rfl, rfl, rfl⟩ := runs_pure.mp h
    exact ⟨_, rfl, .held hsession⟩
  · next hsession =>
    rw [runs_perform_bind] at h
    obtain ⟨session, rest, rfl, h⟩ := h
    cases session with
    | ok session =>
      simp only [runs_modify_bind, runs_pure] at h
      obtain ⟨rfl, rfl, rfl⟩ := h
      exact ⟨_, rfl, .allocated session hsession⟩
    | error e =>
      obtain ⟨rfl, rfl, rfl⟩ := runs_pure.mp h
      exact ⟨_, rfl, .failed e hsession⟩

theorem runs_prepared {α : Type} {dissociate : Bool} {onError : Failure → α}
    {body : SessionHolder χ → Op σ χ α} {result : Except Abort α}
    (h : (do
      match ← prepareSession dissociate with
      | .error e => return onError e
      | .ok holder => body holder : Op σ χ α).Runs t tr result t') :
    (∃ e, result = .ok (onError e) ∧ Prepares dissociate t tr (.error e) t') ∨
      ∃ holder t₁ tr₁ tr₂, tr = tr₁ ++ tr₂ ∧ Prepares dissociate t tr₁ (.ok holder) t₁ ∧
        (body holder).Runs t₁ tr₂ result t' := by
  rw [runs_bind] at h
  rcases h with ⟨prepared, tr₁, tr₂, t₁, rfl, hprepare, h⟩ | ⟨x, rfl, hprepare⟩
  · obtain ⟨_, hresult, hprepares⟩ := runs_prepareSession hprepare
    cases hresult
    cases prepared with
    | ok holder => exact .inr ⟨holder, t₁, tr₁, tr₂, rfl, hprepares, h⟩
    | error e =>
      obtain ⟨rfl, rfl, rfl⟩ := runs_pure.mp h
      rw [List.append_nil]
      exact .inl ⟨e, rfl, hprepares⟩
  · obtain ⟨_, hresult, -⟩ := runs_prepareSession hprepare
    cases hresult

def Marks (holder : SessionHolder χ) (status : Status) (tr : List (Exchange σ χ)) : Prop :=
  if isSessionNotFound status = true then tr = [⟨.setBad holder.session.object, ()⟩] else tr = []

theorem runs_checkSession {holder : SessionHolder χ} {status : Status}
    {result : Except Abort Unit} (h : (checkSession holder status : Op σ χ _).Runs t tr result t') :
    Marks holder status tr ∧ result = .ok () ∧ t' = t := by
  rw [checkSession] at h
  split at h
  · next hnotFound =>
    obtain ⟨_, rfl, rfl, rfl⟩ := runs_perform.mp h
    exact ⟨by simp [Marks, hnotFound], rfl, rfl⟩
  · next hnotFound =>
    obtain ⟨rfl, rfl, rfl⟩ := runs_pure.mp h
    exact ⟨by simp [Marks, hnotFound], rfl, rfl⟩

theorem runs_checkSession_then {α : Type} {holder : SessionHolder χ} {status : Status} {a : α}
    {result : Except Abort α}
    (h : (do checkSession holder status; return a : Op σ χ α).Runs t tr result t') :
    Marks holder status tr ∧ result = .ok a ∧ t' = t := by
  rw [runs_bind] at h
  rcases h with ⟨_, tr₁, tr₂, t₁, rfl, hcheck, h⟩ | ⟨x, rfl, hcheck⟩
  · obtain ⟨hmarks, -, rfl⟩ := runs_checkSession hcheck
    obtain ⟨rfl, rfl, rfl⟩ := runs_pure.mp h
    rw [List.append_nil]
    exact ⟨hmarks, rfl, rfl⟩
  · cases (runs_checkSession hcheck).2.1

inductive Checked {α β : Type} (holder : SessionHolder χ) (op : Op σ χ (StatusOr β))
    (onError : Failure → α) (next : β → Op σ χ α) (t : TransactionImpl (SessionHolder χ)) :
    List (Exchange σ χ) → Except Abort α → TransactionImpl (SessionHolder χ) → Prop
  | aborted {x : Abort} {tr : List (Exchange σ χ)} {t₁ : TransactionImpl (SessionHolder χ)} :
    op.Runs t tr (.error x) t₁ → Checked holder op onError next t tr (.error x) t₁
  | failed {e : Failure} {tr₁ tr₂ : List (Exchange σ χ)}
      {t₁ : TransactionImpl (SessionHolder χ)} :
    op.Runs t tr₁ (.ok (.error e)) t₁ → Marks holder e.status tr₂ →
      Checked holder op onError next t (tr₁ ++ tr₂) (.ok (onError e)) t₁
  | answered {b : β} {result : Except Abort α} {tr₁ tr₂ : List (Exchange σ χ)}
      {t₁ t₂ : TransactionImpl (SessionHolder χ)} :
    op.Runs t tr₁ (.ok (.ok b)) t₁ → (next b).Runs t₁ tr₂ result t₂ →
      Checked holder op onError next t (tr₁ ++ tr₂) result t₂

theorem runs_checked {α β : Type} {holder : SessionHolder χ} {op : Op σ χ (StatusOr β)}
    {onError : Failure → α} {next : StatusOr β → Op σ χ α} {result : Except Abort α}
    (h : (op >>= next).Runs t tr result t')
    (herror : ∀ e, next (.error e) = do checkSession holder e.status; return onError e) :
    Checked holder op onError (fun b => next (.ok b)) t tr result t' := by
  rw [runs_bind] at h
  rcases h with ⟨response, tr₁, tr₂, t₁, rfl, hop, h⟩ | ⟨x, rfl, hop⟩
  · cases response with
    | error e =>
      rw [herror] at h
      obtain ⟨hmarks, rfl, rfl⟩ := runs_checkSession_then h
      exact .failed hop hmarks
    | ok b => exact .answered hop h
  · exact .aborted hop

theorem runs_createSource {rpc : σ} {result : Except Abort (StatusOr (ResultSource σ))}
    (h : (conn.createSource rpc : Op σ χ _).Runs t tr result t') :
    tr = [] ∧ t' = t ∧ ((∃ reader, result = .ok (.ok reader) ∧ reader.transactionId = "") ↔
      conn.StreamLacksId rpc) := by
  rw [createSource] at h
  split at h
  · next hcreate =>
    obtain ⟨rfl, rfl, rfl⟩ := runs_throw.mp h
    simp [StreamLacksId, hcreate]
  · next hcreate =>
    obtain ⟨rfl, rfl, rfl⟩ := runs_pure.mp h
    simp [StreamLacksId, hcreate]
  · next hcreate =>
    obtain ⟨rfl, rfl, rfl⟩ := runs_pure.mp h
    simp [StreamLacksId, hcreate]

theorem status_of_createSource {rpc : σ} {reader : ResultSource σ}
    (h : (conn.createSource rpc : Op σ χ _).Runs t tr (.ok (.ok reader)) t') :
    reader.status = .success := by
  rw [createSource] at h
  split at h
  · cases (runs_throw.mp h).2.1
  · cases (runs_pure.mp h).2.1
  · cases (runs_pure.mp h).2.1
    rfl

inductive Accepts (t : TransactionImpl (SessionHolder χ)) (reader : ResultSource σ) {α : Type}
    (good bad : α) : α → TransactionImpl (SessionHolder χ) → Prop
  | kept : t.selector.hasBegin = false → Accepts t reader good bad good t
  | refused : t.selector.hasBegin = true → reader.transactionId = "" →
    Accepts t reader good bad bad t
  | left : t.selector.hasBegin = true → reader.transactionId ≠ "" →
    Accepts t reader good bad good { t with selector := .id reader.transactionId }

theorem runs_accept {α : Type} {reader : ResultSource σ} {good bad : α} {result : Except Abort α}
    (h : (if t.selector.hasBegin = true then
        if reader.transactionId = "" then return bad
        else do
          setId reader.transactionId
          return good
      else return good : Op σ χ α).Runs t tr result t') :
    tr = [] ∧ ∃ a, result = .ok a ∧ Accepts t reader good bad a t' := by
  split at h
  · next hbegin =>
    split at h
    · next hid =>
      obtain ⟨rfl, rfl, rfl⟩ := runs_pure.mp h
      exact ⟨rfl, _, rfl, .refused hbegin hid⟩
    · next hid =>
      rw [setId, runs_modify_bind] at h
      obtain ⟨rfl, rfl, rfl⟩ := runs_pure.mp h
      exact ⟨rfl, _, rfl, .left hbegin hid⟩
  · next hbegin =>
    obtain ⟨rfl, rfl, rfl⟩ := runs_pure.mp h
    exact ⟨rfl, _, rfl, .kept (Bool.not_eq_true _ ▸ hbegin)⟩

def missingTransaction : Failure :=
  .of .internal "Begin transaction requested but no transaction returned." StatusCode.internal_ne_ok

inductive ExecutesSql (holder : SessionHolder χ) (seqno : Nat) (params : SqlParams)
    (queryMode : Protobuf.QueryMode)
    (retryResumeFn : Protobuf.ExecuteSqlRequest → Op σ χ (StatusOr (ResultSource σ)))
    (t : TransactionImpl (SessionHolder χ)) (tr : List (Exchange σ χ)) :
    Except Abort (StatusOr (ResultSource σ)) → TransactionImpl (SessionHolder χ) → Prop
  | aborted {x : Abort} :
    (retryResumeFn (executeSqlRequest holder t seqno params queryMode)).Runs t tr (.error x) t →
      ExecutesSql holder seqno params queryMode retryResumeFn t tr (.error x) t
  | failed {e : Failure} :
    (retryResumeFn (executeSqlRequest holder t seqno params queryMode)).Runs t tr
      (.ok (.error e)) t →
      ExecutesSql holder seqno params queryMode retryResumeFn t tr (.ok (.error e)) t
  | fetched {reader : ResultSource σ} {result : StatusOr (ResultSource σ)}
      {t' : TransactionImpl (SessionHolder χ)} :
    (retryResumeFn (executeSqlRequest holder t seqno params queryMode)).Runs t tr
      (.ok (.ok reader)) t →
      Accepts t reader (.ok reader) (.error missingTransaction) result t' →
        ExecutesSql holder seqno params queryMode retryResumeFn t tr (.ok result) t'

theorem runs_executeSqlImpl {holder : SessionHolder χ} {seqno : Nat} {params : SqlParams}
    {queryMode : Protobuf.QueryMode}
    {retryResumeFn : Protobuf.ExecuteSqlRequest → Op σ χ (StatusOr (ResultSource σ))}
    {result : Except Abort (StatusOr (ResultSource σ))}
    (hfn : ∀ {tr response t'}, (retryResumeFn (executeSqlRequest holder t seqno params
      queryMode)).Runs t tr response t' → t' = t)
    (h : (executeSqlImpl holder seqno params queryMode retryResumeFn).Runs t tr result t') :
    ExecutesSql holder seqno params queryMode retryResumeFn t tr result t' := by
  simp only [executeSqlImpl, runs_get_bind] at h
  rw [runs_bind] at h
  rcases h with ⟨response, tr₁, tr₂, t₁, rfl, hrun, h⟩ | ⟨x, rfl, hrun⟩
  · cases hfn hrun
    cases response with
    | error e =>
      obtain ⟨rfl, rfl, rfl⟩ := runs_pure.mp h
      rw [List.append_nil]
      exact .failed hrun
    | ok reader =>
      obtain ⟨rfl, _, rfl, haccepts⟩ := runs_accept h
      rw [List.append_nil]
      exact .fetched hrun haccepts
  · cases hfn hrun
    exact .aborted hrun

theorem runs_record {α : Type} {id : String} {good : α} {result : Except Abort α}
    (h : (if t.selector.hasBegin = true then do
        setId id
        return good
      else return good : Op σ χ α).Runs t tr result t') :
    tr = [] ∧ result = .ok good ∧
      t' = if t.selector.hasBegin = true then { t with selector := .id id } else t := by
  split at h
  · next hbegin =>
    rw [setId, runs_modify_bind] at h
    rw [if_pos hbegin]
    exact runs_pure.mp h
  · next hbegin =>
    rw [if_neg hbegin]
    exact runs_pure.mp h

theorem session_of_record {id : String} :
    (if t.selector.hasBegin = true then { t with selector := .id id } else t).session =
      t.session := by
  split <;> rfl

theorem runs_of_bind_pure {α β : Type} {op : Op σ χ α} {f : α → Op σ χ β} {result : Except Abort β}
    (hf : ∀ a, ∃ b, f a = pure b) (h : (op >>= f).Runs t tr result t') :
    ∃ result', op.Runs t tr result' t' := by
  rcases runs_bind.mp h with ⟨a, tr₁, tr₂, t₁, rfl, hrun, hrest⟩ | ⟨x, rfl, hrun⟩
  · obtain ⟨b, hb⟩ := hf a
    rw [hb] at hrest
    obtain ⟨rfl, rfl, rfl⟩ := runs_pure.mp hrest
    rw [List.append_nil]
    exact ⟨_, hrun⟩
  · exact ⟨_, hrun⟩

theorem runs_bind_pure {α β : Type} {op : Op σ χ α} {f : α → β} {result : Except Abort α}
    (h : op.Runs t tr result t') : (do return f (← op) : Op σ χ β).Runs t tr (result.map f) t' := by
  cases result with
  | ok a => exact runs_bind.mpr (.inl ⟨a, tr, [], t', by simp, h, runs_pure.mpr ⟨rfl, rfl, rfl⟩⟩)
  | error x => exact runs_bind.mpr (.inr ⟨x, rfl, h⟩)

section

variable {α : Type} (rpc : String → Protobuf.TransactionSelector → Rpc) (location : String)
  (id : ∀ session selector, (rpc session selector).Response → String)
  (make : ∀ session selector, (rpc session selector).Response → α)

def partitioning (conn : ConnectionImpl σ) : Op σ χ (StatusOr α) := do
  match ← prepareSession true with
  | .error e => return .error e
  | .ok holder =>
    let t ← get
    match ← conn.call (rpc holder.session.name t.selector) location with
    | .error e =>
      checkSession holder e.status
      return .error e
    | .ok response =>
      if t.selector.hasBegin then setId (id holder.session.name t.selector response)
      return .ok (make holder.session.name t.selector response)

end

theorem bind_statusOr_congr {α β : Type} {op : Op σ χ (StatusOr β)} {f g : StatusOr β → Op σ χ α}
    (herror : ∀ e, f (.error e) = g (.error e)) (hok : ∀ b, f (.ok b) = g (.ok b)) :
    op >>= f = op >>= g := by
  have hfg : f = g := by
    funext response
    cases response with
    | error e => exact herror e
    | ok b => exact hok b
  rw [hfg]

theorem partitionReadImpl_eq (params : PartitionReadParams) :
    (conn.partitionReadImpl params : Op σ χ _) =
      conn.partitioning (fun session selector => .partitionRead (params.toRequest session selector))
        "PartitionReadImpl" (fun _ _ response => response.transactionId)
        fun session _ response => response.partitions.map fun partitionToken =>
          makeReadPartition response.transactionId session partitionToken params.readParams.table
            params.readParams.keys params.readParams.columns params.readParams.readOptions := by
  rw [partitionReadImpl, partitioning]
  refine bind_statusOr_congr (fun _ => rfl) fun holder => ?_
  exact congrArg (get >>= ·) (funext fun t => bind_statusOr_congr (fun _ => rfl) fun _ => rfl)

theorem partitionQueryImpl_eq (params : PartitionQueryParams) :
    (conn.partitionQueryImpl params : Op σ χ _) =
      conn.partitioning
        (fun session selector => .partitionQuery (params.toRequest session selector))
        "PartitionQueryImpl" (fun _ _ response => response.transactionId)
        fun session _ response => response.partitions.map fun partitionToken =>
          ⟨response.transactionId, session, partitionToken, params.statement⟩ := by
  rw [partitionQueryImpl, partitioning]
  refine bind_statusOr_congr (fun _ => rfl) fun holder => ?_
  exact congrArg (get >>= ·) (funext fun t => bind_statusOr_congr (fun _ => rfl) fun _ => rfl)

theorem Marks.no_rpc {holder : SessionHolder χ} {status : Status} (h : Marks holder status tr)
    (rpc : Rpc) (response : StatusOr rpc.Response) : ⟨.rpc rpc, response⟩ ∉ tr := by
  rw [Marks] at h
  split at h <;> simp [h]

theorem mem_of_prepared {dissociate : Bool} {holder : SessionHolder χ} {rpc rpc' : Rpc}
    {location : String} {response' : StatusOr rpc'.Response}
    {result : Except Abort (StatusOr rpc.Response)} {t₁ t₂ : TransactionImpl (SessionHolder χ)}
    {tr₁ tr₂ tr₃ : List (Exchange σ χ)} (hprepares : Prepares dissociate t tr₁ (.ok holder) t₁)
    (hcall : (conn.call rpc location : Op σ χ _).Runs t₁ tr₂ result t₂)
    (hrest : ⟨.rpc rpc', response'⟩ ∉ tr₃)
    (h : ⟨.rpc rpc', response'⟩ ∈ tr₁ ++ (tr₂ ++ tr₃)) :
    rpc' = rpc ∧ ⟨.rpc rpc', response'⟩ ∈ tr₂ := by
  obtain ⟨-, hcalls, -⟩ := runs_call hcall
  rcases List.mem_append.mp h with h | h
  · cases hprepares <;> simp at h
  · rcases List.mem_append.mp h with h | h
    · rcases hcalls _ h with hpolicy | hrpc
      · cases hpolicy
      · cases hrpc
        exact ⟨rfl, h⟩
    · exact absurd h hrest

section

variable {α : Type} {rpc : String → Protobuf.TransactionSelector → Rpc} {location : String}
  {id : ∀ session selector, (rpc session selector).Response → String}
  {make : ∀ session selector, (rpc session selector).Response → α}

theorem runs_partitioning {result : StatusOr α}
    (h : (conn.partitioning rpc location id make : Op σ χ _).Runs t tr (.ok result) t') :
    (∃ e, result = .error e ∧ ∀ rpc' response', ⟨.rpc rpc', .ok response'⟩ ∉ tr) ∨
      ∃ holder response, t'.session = some holder ∧
        result = .ok (make holder.session.name t.selector response) ∧
        ⟨.rpc (rpc holder.session.name t.selector), .ok response⟩ ∈ tr ∧
        (∀ rpc' response', ⟨.rpc rpc', .ok response'⟩ ∈ tr →
          (⟨.rpc rpc', .ok response'⟩ : Exchange σ χ) =
            ⟨.rpc (rpc holder.session.name t.selector), .ok response⟩) ∧
        t'.selector = if t.selector.hasBegin then
          .id (id holder.session.name t.selector response) else t.selector := by
  rcases runs_prepared h with ⟨e, he, hprepares⟩ | ⟨holder, t₁, tr₁, tr₂, rfl, hprepares, h⟩
  · cases he
    exact .inl ⟨e, rfl, fun rpc' response' => by cases hprepares; simp⟩
  · rw [runs_get_bind, runs_bind] at h
    rw [← hprepares.selector_eq]
    rcases h with ⟨response, tr₃, tr₄, t₂, rfl, hcall, h⟩ | ⟨x, hx, -⟩
    · obtain ⟨rfl, -, hresult⟩ := runs_call hcall
      cases response with
      | error e =>
        obtain ⟨hmarks, hpartitions, -⟩ := runs_checkSession_then h
        cases hpartitions
        refine .inl ⟨e, rfl, fun rpc' response' hmem => ?_⟩
        obtain ⟨rfl, hmem⟩ := mem_of_prepared hprepares hcall (hmarks.no_rpc _ _) hmem
        cases (hresult response').mp hmem
      | ok response =>
        obtain ⟨rfl, hpartitions, ht⟩ := runs_record h
        cases hpartitions
        refine .inr ⟨holder, response, ?_, rfl, ?_, fun rpc' response' hmem => ?_, ?_⟩
        · rw [ht, session_of_record]
          exact hprepares.session_of_ok
        · exact List.mem_append_right _ (List.mem_append_left _ ((hresult response).mpr rfl))
        · obtain ⟨rfl, hmem⟩ := mem_of_prepared hprepares hcall (by simp) hmem
          cases (hresult response').mp hmem
          rfl
        · rw [ht]
          exact apply_ite TransactionImpl.selector _ _ _
    · cases hx

end

end ConnectionImpl

end SpannerClient
