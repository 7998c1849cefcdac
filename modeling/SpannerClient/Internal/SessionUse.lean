import SpannerClient.Internal.ConnectionParts

namespace SpannerClient.ConnectionImpl

open Protobuf Program

variable {σ χ : Type} {conn : ConnectionImpl σ} {holder : SessionHolder χ}
  {tr tr₁ tr₂ : List (Exchange σ χ)} {status : Except Abort Status}
  {t t' t'' : TransactionImpl (SessionHolder χ)}

def Call.Keeps (holder : SessionHolder χ) : Call → Prop
  | .allocate _ => False
  | .setBad object => object = holder.session.object
  | .streamingRead _ | .executeStreamingSql _ | .rpc _ | .rollback _ | .isExhausted | .onFailure _
  | .onCompletion | .sleepFor _ => True

structure Serves (holder : SessionHolder χ) (t : TransactionImpl (SessionHolder χ))
    (tr : List (Exchange σ χ)) (status : Except Abort Status)
    (t' : TransactionImpl (SessionHolder χ)) : Prop where
  session : t'.session = t.session
  calls : ∀ c ∈ tr, c.1.Keeps holder
  marked : ∀ s, status = .ok s → isSessionNotFound s = true →
    ⟨.setBad holder.session.object, ()⟩ ∈ tr

inductive UsesSession (dissociate : Bool) (t : TransactionImpl (SessionHolder χ)) :
    List (Exchange σ χ) → Except Abort Status → TransactionImpl (SessionHolder χ) → Prop
  | failed {tr : List (Exchange σ χ)} {e : Failure} {status : Except Abort Status} :
    Prepares dissociate t tr (.error e) t → UsesSession dissociate t tr status t
  | served {tr₁ tr₂ : List (Exchange σ χ)} {status : Except Abort Status}
      {t₁ t' : TransactionImpl (SessionHolder χ)} {holder : SessionHolder χ} :
    Prepares dissociate t tr₁ (.ok holder) t₁ → Serves holder t₁ tr₂ status t' →
      UsesSession dissociate t (tr₁ ++ tr₂) status t'

theorem Call.keeps_of_isPolicy {c : Call} (h : c.isPolicy = true) : c.Keeps holder := by
  cases c <;> simp_all [isPolicy, Keeps]

theorem Marks.keeps {s : Status} (h : Marks holder s tr) : ∀ c ∈ tr, c.1.Keeps holder := by
  rw [Marks] at h
  split at h <;> simp [h, Call.Keeps]

theorem Marks.mem {s : Status} (h : Marks holder s tr) (hs : isSessionNotFound s = true) :
    ⟨.setBad holder.session.object, ()⟩ ∈ tr := by
  rw [Marks, if_pos hs] at h
  simp [h]

namespace Serves

theorem of_found (hsession : t'.session = t.session) (hcalls : ∀ c ∈ tr, c.1.Keeps holder)
    (hfound : ∀ s, status = .ok s → isSessionNotFound s = false) :
    Serves holder t tr status t' where
  session := hsession
  calls := hcalls
  marked s hs hnotFound := by cases (hfound s hs).symm.trans hnotFound

theorem of_marks {s : Status} (h : Marks holder s tr) : Serves holder t tr (.ok s) t where
  session := rfl
  calls := h.keeps
  marked s' hs' hnotFound := by
    cases hs'
    exact h.mem hnotFound

theorem prepend (h : Serves holder t tr status t') (hcalls : ∀ c ∈ tr₁, c.1.Keeps holder) :
    Serves holder t (tr₁ ++ tr) status t' where
  session := h.session
  calls c hc := (List.mem_append.mp hc).elim (hcalls c) (h.calls c)
  marked s hs hnotFound := List.mem_append_right _ (h.marked s hs hnotFound)

theorem cons {c : Exchange σ χ} (h : Serves holder t tr status t') (hcall : c.1.Keeps holder) :
    Serves holder t (c :: tr) status t' := by
  have hcalls : ∀ c' ∈ [c], c'.1.Keeps holder := by simpa using hcall
  exact h.prepend hcalls

end Serves

theorem keeps_of_call (holder : SessionHolder χ) {rpc : Rpc} {location : String}
    {result : Except Abort (StatusOr rpc.Response)}
    (h : (conn.call rpc location : Op σ χ _).Runs t tr result t') :
    t' = t ∧ ∀ c ∈ tr, c.1.Keeps holder := by
  obtain ⟨ht, hcalls, -⟩ := runs_call h
  refine ⟨ht, fun c hc => ?_⟩
  rcases hcalls c hc with hpolicy | hrpc
  · exact Call.keeps_of_isPolicy hpolicy
  · rw [hrpc]
    trivial

theorem uses_of_prepared {α : Type} {dissociate : Bool} {onError : Failure → α}
    {body : SessionHolder χ → Op σ χ α} {result : Except Abort α}
    (h : (do
      match ← prepareSession dissociate with
      | .error e => return onError e
      | .ok holder => body holder : Op σ χ α).Runs t tr result t')
    (hbody : ∀ holder t₁ tr₁, (body holder).Runs t₁ tr₁ result t' →
      Serves holder t₁ tr₁ status t') : UsesSession dissociate t tr status t' := by
  rcases runs_prepared h with ⟨e, -, hprepares⟩ | ⟨holder, t₁, tr₁, tr₂, rfl, hprepares, h⟩
  · cases hprepares with
    | failed _ hnone => exact .failed (.failed e hnone)
  · exact .served hprepares (hbody holder t₁ tr₂ h)

theorem Accepts.session {α : Type} {reader : ResultSource σ} {good bad a : α}
    (h : Accepts t reader good bad a t') : t'.session = t.session := by
  cases h <;> rfl

theorem Serves.of_accepts {α : Type} {reader : ResultSource σ} {good bad a : α} {f : α → Status}
    (hgood : isSessionNotFound (f good) = false) (hbad : isSessionNotFound (f bad) = false)
    (hcalls : ∀ c ∈ tr, c.1.Keeps holder) (h : Accepts t reader good bad a t') :
    Serves holder t tr (.ok (f a)) t' := by
  refine .of_found h.session hcalls ?_
  rintro s hs
  cases h <;> cases hs <;> assumption

theorem Serves.of_throw {x : Abort} (hcalls : ∀ c ∈ tr, c.1.Keeps holder) :
    Serves holder t tr (.error x) t :=
  .of_found rfl hcalls nofun

theorem Serves.of_error {s : Status} (hcalls : ∀ c ∈ tr, c.1.Keeps holder)
    (hmarks : Marks holder s tr₁) : Serves holder t (tr ++ tr₁) (.ok s) t :=
  (Serves.of_marks hmarks).prepend hcalls

theorem Serves.of_session (h : Serves holder t tr status t') (ht : t.session = t''.session) :
    Serves holder t'' tr status t' where
  session := h.session.trans ht
  calls := h.calls
  marked := h.marked

theorem Serves.of_success (hsession : t'.session = t.session)
    (hcalls : ∀ c ∈ tr, c.1.Keeps holder) : Serves holder t tr (.ok .success) t' := by
  refine .of_found hsession hcalls ?_
  rintro s hs
  cases hs
  rfl

theorem Serves.of_checked {α β : Type} {op : Op σ χ (StatusOr β)} {onError : Failure → α}
    {next : β → Op σ χ α} {f : α → Status} {result : Except Abort α}
    (h : Checked holder op onError next t tr result t')
    (hop : ∀ {tr response t₁}, op.Runs t tr response t₁ → t₁ = t ∧ ∀ c ∈ tr, c.1.Keeps holder)
    (herror : ∀ e, f (onError e) = e.status)
    (hnext : ∀ {b tr₁}, (next b).Runs t tr₁ result t' →
      Serves holder t tr₁ (result.map f) t') : Serves holder t tr (result.map f) t' := by
  cases h with
  | aborted hrun =>
    obtain ⟨rfl, hcalls⟩ := hop hrun
    exact .of_throw hcalls
  | failed hrun hmarks =>
    obtain ⟨rfl, hcalls⟩ := hop hrun
    rw [Except.map, herror]
    exact .of_error hcalls hmarks
  | answered hrun hrest =>
    obtain ⟨rfl, hcalls⟩ := hop hrun
    exact (hnext hrest).prepend hcalls

theorem uses_readImpl {params : ReadParams} {result : Except Abort (ResultSource σ)}
    (h : (conn.readImpl params : Op σ χ _).Runs t tr result t') :
    UsesSession false t tr (result.map ResultSource.status) t' := by
  apply uses_of_prepared h
  intro holder t₁ tr₁ h
  simp only [runs_get_bind, runs_perform_bind] at h
  obtain ⟨rpc, tr₂, rfl, h⟩ := h
  refine Serves.cons ?_ trivial
  rw [runs_bind] at h
  rcases h with ⟨response, tr₃, tr₄, t₂, rfl, hcreate, h⟩ | ⟨x, rfl, hcreate⟩
  · obtain ⟨rfl, rfl, -⟩ := runs_createSource hcreate
    rw [List.nil_append]
    cases response with
    | error e =>
      obtain ⟨hmarks, rfl, rfl⟩ := runs_checkSession_then h
      exact .of_marks hmarks
    | ok reader =>
      obtain ⟨rfl, _, rfl, haccepts⟩ := runs_accept h
      refine Serves.of_accepts ?_ rfl (by simp) haccepts
      rw [status_of_createSource hcreate]
      rfl
  · obtain ⟨rfl, rfl, -⟩ := runs_createSource hcreate
    exact .of_throw (by simp)

theorem runs_executeStreamingSql {request : ExecuteSqlRequest}
    {response : Except Abort (StatusOr (ResultSource σ))}
    (h : (do
      let rpc ← perform (Call.executeStreamingSql request)
      conn.createSource rpc : Op σ χ _).Runs t tr response t') :
    t' = t ∧ (∃ rpc, tr = [⟨.executeStreamingSql request, rpc⟩]) ∧
      ∀ reader, response = .ok (.ok reader) → reader.status = .success := by
  obtain ⟨rpc, tr', rfl, hcreate⟩ := runs_perform_bind.mp h
  obtain ⟨rfl, rfl, -⟩ := runs_createSource hcreate
  refine ⟨rfl, ⟨rpc, rfl⟩, ?_⟩
  rintro reader rfl
  exact status_of_createSource hcreate

theorem uses_commonQueryImpl {seqno : Nat} {params : SqlParams} {queryMode : QueryMode}
    {result : Except Abort (ResultSource σ)}
    (h : (conn.commonQueryImpl seqno params queryMode : Op σ χ _).Runs t tr result t') :
    UsesSession false t tr (result.map ResultSource.status) t' := by
  apply uses_of_prepared h
  intro holder t₁ tr₁ h
  have hexecutes : ∀ {tr response t'},
      (executeSqlImpl holder seqno params queryMode fun request => do
        let rpc ← perform (Call.executeStreamingSql request)
        conn.createSource rpc : Op σ χ _).Runs t₁ tr response t' →
      (∀ c ∈ tr, c.1.Keeps holder) ∧ ExecutesSql holder seqno params queryMode (fun request => do
        let rpc ← perform (Call.executeStreamingSql request)
        conn.createSource rpc) t₁ tr response t' := by
    intro tr response t' h
    have hexecutes := runs_executeSqlImpl (fun h => (runs_executeStreamingSql h).1) h
    refine ⟨?_, hexecutes⟩
    cases hexecutes with
    | aborted hfn | failed hfn | fetched hfn _ =>
      obtain ⟨-, ⟨rpc, rfl⟩, -⟩ := runs_executeStreamingSql hfn
      simp [Call.Keeps]
  rw [runs_bind] at h
  rcases h with ⟨response, tr₂, tr₃, t₂, rfl, hsql, h⟩ | ⟨x, rfl, hsql⟩
  · obtain ⟨hcalls, hexecutes⟩ := hexecutes hsql
    cases response with
    | error e =>
      obtain ⟨hmarks, rfl, rfl⟩ := runs_checkSession_then h
      cases hexecutes with
      | failed _ => exact .of_error hcalls hmarks
      | fetched _ haccepts =>
        cases haccepts
        exact .of_error hcalls hmarks
    | ok reader =>
      obtain ⟨rfl, rfl, rfl⟩ := runs_pure.mp h
      rw [List.append_nil]
      cases hexecutes with
      | fetched hfn haccepts =>
        have hstatus := (runs_executeStreamingSql hfn).2.2 _ rfl
        cases haccepts with
        | kept _ | left _ _ =>
          simp only [Except.map, hstatus]
          exact .of_success rfl hcalls
  · obtain ⟨hcalls, hexecutes⟩ := hexecutes hsql
    cases hexecutes with
    | aborted _ => exact .of_throw hcalls

theorem serves_executeSql {request : ExecuteSqlRequest}
    {response : Except Abort (StatusOr (ResultSource σ))}
    (h : (do
      match ← conn.call (.executeSql request) "CommonDmlImpl" with
      | .error e => do
        checkSession holder e.status
        return .error e
      | .ok response => return .ok (.dml response) :
        Op σ χ (StatusOr (ResultSource σ))).Runs t tr response t') :
    t' = t ∧ Serves holder t tr (response.map StatusOr.status) t := by
  rw [runs_bind] at h
  rcases h with ⟨response, tr₁, tr₂, t₁, rfl, hcall, h⟩ | ⟨x, rfl, hcall⟩
  · obtain ⟨rfl, hcalls⟩ := keeps_of_call holder hcall
    cases response with
    | error e =>
      obtain ⟨hmarks, rfl, rfl⟩ := runs_checkSession_then h
      exact ⟨rfl, .of_error hcalls hmarks⟩
    | ok response =>
      obtain ⟨rfl, rfl, rfl⟩ := runs_pure.mp h
      rw [List.append_nil]
      exact ⟨rfl, .of_success rfl hcalls⟩
  · obtain ⟨rfl, hcalls⟩ := keeps_of_call holder hcall
    exact ⟨rfl, .of_throw hcalls⟩

theorem uses_commonDmlImpl {seqno : Nat} {params : SqlParams} {queryMode : QueryMode}
    {result : Except Abort (StatusOr (ResultSource σ))}
    (h : (conn.commonDmlImpl seqno params queryMode : Op σ χ _).Runs t tr result t') :
    UsesSession false t tr (result.map StatusOr.status) t' := by
  apply uses_of_prepared h
  intro holder t₁ tr₁ h
  cases runs_executeSqlImpl (fun h => (serves_executeSql h).1) h with
  | aborted hfn | failed hfn => exact (serves_executeSql hfn).2
  | fetched hfn haccepts => exact .of_accepts rfl rfl (serves_executeSql hfn).2.calls haccepts

theorem uses_analyzeSqlImpl {seqno : Nat} {params : SqlParams}
    {result : Except Abort (StatusOr (Option QueryPlan))}
    (h : (conn.analyzeSqlImpl seqno params : Op σ χ _).Runs t tr result t') :
    UsesSession false t tr (result.map StatusOr.status) t' := by
  rw [analyzeSqlImpl, runs_bind] at h
  rcases h with ⟨dml, tr₁, tr₂, t₁, rfl, hdml, h⟩ | ⟨x, rfl, hdml⟩
  · cases dml with
    | error e | ok dml =>
      obtain ⟨rfl, rfl, rfl⟩ := runs_pure.mp h
      rw [List.append_nil]
      exact uses_commonDmlImpl hdml
  · exact uses_commonDmlImpl hdml

theorem uses_partitioning {α : Type} {rpc : String → TransactionSelector → Rpc} {location : String}
    {id : ∀ session selector, (rpc session selector).Response → String}
    {make : ∀ session selector, (rpc session selector).Response → α}
    {result : Except Abort (StatusOr α)}
    (h : (conn.partitioning rpc location id make : Op σ χ _).Runs t tr result t') :
    UsesSession true t tr (result.map StatusOr.status) t' := by
  apply uses_of_prepared h
  intro holder t₁ tr₁ h
  simp only [runs_get_bind] at h
  refine .of_checked (runs_checked h fun _ => rfl) (keeps_of_call holder) (fun _ => rfl) ?_
  intro response tr₂ h
  obtain ⟨rfl, rfl, rfl⟩ := runs_record h
  exact .of_success session_of_record (by simp)

theorem uses_partitionReadImpl {params : PartitionReadParams}
    {result : Except Abort (StatusOr (List ReadPartition))}
    (h : (conn.partitionReadImpl params : Op σ χ _).Runs t tr result t') :
    UsesSession true t tr (result.map StatusOr.status) t' := by
  rw [partitionReadImpl_eq] at h
  exact uses_partitioning h

theorem uses_partitionQueryImpl {params : PartitionQueryParams}
    {result : Except Abort (StatusOr (List QueryPartition))}
    (h : (conn.partitionQueryImpl params : Op σ χ _).Runs t tr result t') :
    UsesSession true t tr (result.map StatusOr.status) t' := by
  rw [partitionQueryImpl_eq] at h
  exact uses_partitioning h

theorem uses_executeBatchDmlImpl {seqno : Nat} {statements : List SqlStatement}
    {result : Except Abort (StatusOr BatchDmlResult)}
    (h : (conn.executeBatchDmlImpl seqno statements : Op σ χ _).Runs t tr result t') :
    UsesSession false t tr (result.map StatusOr.status) t' := by
  apply uses_of_prepared h
  intro holder t₁ tr₁ h
  simp only [runs_get_bind] at h
  refine .of_checked (runs_checked h fun _ => rfl) (keeps_of_call holder) (fun _ => rfl) ?_
  intro response tr₂ h
  simp only at h
  split at h
  · rcases hsets : response.resultSets with - | ⟨resultSet, rest⟩
    · simp only [hsets] at h
      obtain ⟨rfl, rfl, rfl⟩ := runs_pure.mp h
      exact .of_success rfl (by simp)
    · simp only [hsets] at h
      rw [setId, runs_modify_bind] at h
      obtain ⟨rfl, rfl, rfl⟩ := runs_pure.mp h
      exact .of_success rfl (by simp)
  · obtain ⟨rfl, rfl, rfl⟩ := runs_pure.mp h
    exact .of_success rfl (by simp)

theorem uses_executePartitionedDmlImpl {seqno : Nat} {statement : SqlStatement}
    {result : Except Abort (StatusOr PartitionedDmlResult)}
    (h : (conn.executePartitionedDmlImpl seqno statement : Op σ χ _).Runs t tr result t') :
    UsesSession false t tr (result.map StatusOr.status) t' := by
  apply uses_of_prepared h
  intro holder t₁ tr₁ h
  refine .of_checked (runs_checked h fun _ => rfl) (keeps_of_call holder) (fun _ => rfl) ?_
  intro beginResponse tr₂ h
  simp only [setId, runs_modify_bind] at h
  have hserves : Serves holder { t₁ with selector := .id beginResponse.id } tr₂
      (result.map StatusOr.status) t' := by
    refine .of_checked (runs_checked h fun _ => rfl) (keeps_of_call holder) (fun _ => rfl) ?_
    intro response tr₃ h
    obtain ⟨rfl, rfl, rfl⟩ := runs_pure.mp h
    exact .of_success rfl (by simp)
  exact hserves.of_session rfl

theorem serves_commitWithId {mutations : List Mutation} {id : String}
    {result : Except Abort (StatusOr CommitResult)}
    (h : (conn.commitWithId holder mutations id : Op σ χ _).Runs t tr result t') :
    Serves holder t tr (result.map StatusOr.status) t' := by
  refine .of_checked (runs_checked h fun _ => rfl) (keeps_of_call holder) (fun _ => rfl) ?_
  intro response tr₁ h
  obtain ⟨rfl, rfl, rfl⟩ := runs_pure.mp h
  exact .of_success rfl (by simp)

theorem uses_commitImpl {mutations : List Mutation}
    {result : Except Abort (StatusOr CommitResult)}
    (h : (conn.commitImpl mutations : Op σ χ _).Runs t tr result t') :
    UsesSession false t tr (result.map StatusOr.status) t' := by
  apply uses_of_prepared h
  intro holder t₁ tr₁ h
  rw [runs_get_bind] at h
  cases hselector : t₁.selector with
  | id id =>
    simp only [hselector] at h
    exact serves_commitWithId h
  | notSet | singleUse _ | begin _ =>
    simp only [hselector] at h
    refine .of_checked (runs_checked h fun _ => rfl) (keeps_of_call holder) (fun _ => rfl) ?_
    intro response tr₂ h
    simp only [setId, runs_modify_bind] at h
    exact (serves_commitWithId h).of_session rfl

theorem uses_rollbackImpl {result : Except Abort Status}
    (h : (conn.rollbackImpl : Op σ χ _).Runs t tr result t') :
    UsesSession false t tr result t' := by
  apply uses_of_prepared h
  intro holder t₁ tr₁ h
  rw [runs_get_bind] at h
  have hrolls : ∀ {tr s t'}, (RetryLoop.retryLoop policies conn.print true
        (perform (Call.rollback ⟨holder.session.name, t₁.selector.getId⟩)) "RollbackImpl"
        conn.fuel : Op σ χ Status).Runs t₁ tr s t' → t' = t₁ ∧ ∀ c ∈ tr, c.1.Keeps holder := by
    intro tr s t' h
    obtain ⟨ht, hcalls⟩ := runs_rollback h
    refine ⟨ht, fun c hc => ?_⟩
    rcases hcalls c hc with hpolicy | hrollback
    · exact Call.keeps_of_isPolicy hpolicy
    · rw [hrollback]
      trivial
  cases hselector : t₁.selector with
  | singleUse _ =>
    simp only [hselector] at h
    obtain ⟨rfl, rfl, rfl⟩ := runs_pure.mp h
    refine .of_found rfl (by simp) ?_
    rintro s hs
    cases hs
    rfl
  | begin _ =>
    simp only [hselector] at h
    obtain ⟨rfl, rfl, rfl⟩ := runs_pure.mp h
    exact .of_success rfl (by simp)
  | id _ | notSet =>
    simp only [hselector] at h hrolls
    rw [runs_bind] at h
    rcases h with ⟨s, tr₂, tr₃, t₂, rfl, hloop, h⟩ | ⟨x, rfl, hloop⟩
    · obtain ⟨rfl, hcalls⟩ := hrolls hloop
      obtain ⟨hmarks, rfl, rfl⟩ := runs_checkSession_then h
      exact .of_error hcalls hmarks
    · obtain ⟨rfl, hcalls⟩ := hrolls hloop
      exact .of_throw hcalls

theorem uses_of_report {α : Type} {dissociate : Bool} {op : Op σ χ α} {f : α → Status}
    {partitions : α → List Partition} {report : Except Abort Report}
    (hop : ∀ {tr result t'}, op.Runs t tr result t' →
      UsesSession dissociate t tr (result.map f) t')
    (h : (do
      let a ← op
      return ⟨f a, partitions a⟩ : Op σ χ Report).Runs t tr report t') :
    UsesSession dissociate t tr (report.map Report.status) t' := by
  rw [runs_bind] at h
  rcases h with ⟨a, tr₁, tr₂, t₁, rfl, hrun, h⟩ | ⟨x, rfl, hrun⟩
  · obtain ⟨rfl, rfl, rfl⟩ := runs_pure.mp h
    rw [List.append_nil]
    exact hop hrun
  · exact hop hrun

theorem uses_reporter {op : Operation} {seqno : Nat} {report : Except Abort Report}
    (h : (conn.reporter op seqno : Op σ χ _).Runs t tr report t') :
    UsesSession op.dissociates t tr (report.map Report.status) t' := by
  cases op with
  | read _ => exact uses_of_report uses_readImpl h
  | partitionRead _ => exact uses_of_report uses_partitionReadImpl h
  | executeQuery _ | profileQuery _ => exact uses_of_report uses_commonQueryImpl h
  | executeDml _ | profileDml _ => exact uses_of_report uses_commonDmlImpl h
  | analyzeSql _ => exact uses_of_report uses_analyzeSqlImpl h
  | partitionQuery _ => exact uses_of_report uses_partitionQueryImpl h
  | executeBatchDml _ => exact uses_of_report uses_executeBatchDmlImpl h
  | executePartitionedDml _ => exact uses_of_report uses_executePartitionedDmlImpl h
  | commit _ => exact uses_of_report uses_commitImpl h
  | rollback =>
    have hop : ∀ {tr result t'}, (conn.rollbackImpl : Op σ χ _).Runs t tr result t' →
        UsesSession false t tr (result.map id) t' := by
      rintro tr (x | s) t' h
      · exact uses_rollbackImpl h
      · exact uses_rollbackImpl h
    exact uses_of_report hop h

end SpannerClient.ConnectionImpl
