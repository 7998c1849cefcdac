import SpannerClient.Internal.SelectorPasses

namespace SpannerClient.ConnectionImpl

open Protobuf Program

variable {σ χ : Type} {conn : ConnectionImpl σ} {tr tr₁ : List (Exchange σ χ)}
  {selector : TransactionSelector} {outcome : Except Abort Status}
  {t t' : TransactionImpl (SessionHolder χ)}

theorem passes_of_prepared {α : Type} {dissociate : Bool} {onError : Failure → α}
    {body : SessionHolder χ → Op σ χ α} {result : Except Abort α}
    (h : (do
      match ← prepareSession dissociate with
      | .error e => return onError e
      | .ok holder => body holder : Op σ χ α).Runs t tr result t')
    (hbody : ∀ holder t₁ tr₁, t₁.selector = t.selector → (body holder).Runs t₁ tr₁ result t' →
      Passes conn t₁.selector tr₁ outcome t'.selector) :
    Passes conn t.selector tr outcome t'.selector := by
  rcases runs_prepared h with ⟨e, -, hprepares⟩ | ⟨holder, t₁, tr₁, tr₂, rfl, hprepares, h⟩
  · rw [hprepares.selector_eq]
    exact hprepares.quiet.passes
  · rw [← hprepares.selector_eq]
    exact (hbody holder t₁ tr₂ hprepares.selector_eq h).after hprepares.quiet

theorem passes_of_checked {α β : Type} {holder : SessionHolder χ} {op : Op σ χ (StatusOr β)}
    {onError : Failure → α} {next : β → Op σ χ α} {result : Except Abort α} {begun : β → String}
    {Refused : β → Prop} (h : Checked holder op onError next t tr result t')
    (hop : ∀ {tr response t₁}, op.Runs t tr response t₁ →
      t₁ = t ∧ Fetches conn t.selector begun Refused tr response)
    (hnext : ∀ {b tr₁ tr₂}, op.Runs t tr₁ (.ok (.ok b)) t → (next b).Runs t tr₂ result t' →
      Passes conn t.selector (tr₁ ++ tr₂) outcome t'.selector) :
    Passes conn t.selector tr outcome t'.selector := by
  cases h with
  | aborted hrun =>
    obtain ⟨rfl, hfetches⟩ := hop hrun
    exact hfetches.passes_of_failure trivial
  | failed hrun hmarks =>
    obtain ⟨rfl, hfetches⟩ := hop hrun
    exact (hfetches.passes_of_failure trivial).before hmarks.quiet
  | answered hrun hrest =>
    obtain ⟨rfl, -⟩ := hop hrun
    exact hnext hrun hrest

theorem neutral_of_checked {α β : Type} {holder : SessionHolder χ} {op : Op σ χ (StatusOr β)}
    {onError : Failure → α} {next : β → Op σ χ α} {result : Except Abort α}
    (h : Checked holder op onError next t tr result t') (hnext : ∀ b, ∃ a, next b = pure a)
    (hop : ∀ {tr response t₁}, op.Runs t tr response t₁ → t₁ = t ∧ Neutral conn selector tr) :
    t' = t ∧ Neutral conn selector tr := by
  cases h with
  | aborted hrun => exact hop hrun
  | failed hrun hmarks =>
    obtain ⟨rfl, hneutral⟩ := hop hrun
    exact ⟨rfl, hneutral.append hmarks.quiet.neutral⟩
  | @answered b _ _ _ _ _ hrun hrest =>
    obtain ⟨rfl, hneutral⟩ := hop hrun
    obtain ⟨a, ha⟩ := hnext b
    rw [ha] at hrest
    obtain ⟨rfl, rfl, rfl⟩ := runs_pure.mp hrest
    exact ⟨rfl, hneutral.append Quiet.nil.neutral⟩

theorem fetches_of_stream {c : Call} {rpc : Reply σ χ c} {stream : σ}
    {response : Except Abort (StatusOr (ResultSource σ))} (hnamed : c.named = selector.named)
    (hlacks : conn.LacksId ⟨c, rpc⟩ ↔ selector.hasBegin = true ∧ conn.StreamLacksId stream)
    (hunchecked : ¬ Unchecked ⟨c, rpc⟩)
    (h : (conn.createSource stream : Op σ χ _).Runs t tr response t') :
    t' = t ∧ Fetches conn selector ResultSource.transactionId (fun _ => True) (⟨c, rpc⟩ :: tr)
      response := by
  obtain ⟨rfl, ht, hsource⟩ := runs_createSource h
  refine ⟨ht, ?_, ?_, ?_⟩
  · simpa using .inr hnamed
  · simpa [hsource] using hlacks
  · simpa using hunchecked

theorem passes_of_accepts {α : Type} {reader : ResultSource σ} {good bad a : α}
    (hfetches : Fetches conn t.selector ResultSource.transactionId (fun _ => True) tr
      (.ok (.ok reader)))
    (hbad : a = bad → ∀ status, outcome = .ok status → status.ok = false)
    (h : Accepts t reader good bad a t') : Passes conn t.selector tr outcome t'.selector := by
  cases h with
  | kept hbegin => exact hfetches.passes_of_not_begin hbegin
  | refused hbegin hid => exact hfetches.passes_refused hbegin trivial (hbad rfl)
  | left hbegin hid => exact hfetches.passes_left hbegin fun h => absurd h hid

theorem passes_readImpl {params : ReadParams} {result : Except Abort (ResultSource σ)}
    (h : (conn.readImpl params : Op σ χ _).Runs t tr result t') :
    Passes conn t.selector tr (result.map ResultSource.status) t'.selector := by
  apply passes_of_prepared h
  intro holder t₁ tr₁ _ h
  simp only [runs_get_bind, runs_perform_bind] at h
  obtain ⟨rpc, tr₂, rfl, h⟩ := h
  rw [runs_bind] at h
  rcases h with ⟨response, tr₃, tr₄, t₂, rfl, hcreate, h⟩ | ⟨x, rfl, hcreate⟩
  · obtain ⟨rfl, hfetches⟩ := fetches_of_stream (c := .streamingRead _) rfl .rfl id hcreate
    rw [← List.cons_append]
    cases response with
    | error e =>
      obtain ⟨hmarks, rfl, rfl⟩ := runs_checkSession_then h
      exact (hfetches.passes_of_failure trivial).before hmarks.quiet
    | ok reader =>
      obtain ⟨rfl, _, rfl, haccepts⟩ := runs_accept h
      rw [List.append_nil]
      refine passes_of_accepts hfetches ?_ haccepts
      rintro rfl status hstatus
      cases hstatus
      rfl
  · obtain ⟨rfl, hfetches⟩ := fetches_of_stream (c := .streamingRead _) rfl .rfl id hcreate
    exact hfetches.passes_of_failure trivial

theorem passes_executeSqlImpl {holder : SessionHolder χ} {seqno : Nat} {params : SqlParams}
    {queryMode : QueryMode} {retryResumeFn : ExecuteSqlRequest → Op σ χ (StatusOr (ResultSource σ))}
    {result : Except Abort (StatusOr (ResultSource σ))}
    (hfetch : ∀ request tr response t', request.transaction = t.selector →
      (retryResumeFn request).Runs t tr response t' →
        t' = t ∧ Fetches conn t.selector ResultSource.transactionId (fun _ => True) tr response)
    (herror : Failed result → ∀ status, outcome = .ok status → status.ok = false)
    (h : (executeSqlImpl holder seqno params queryMode retryResumeFn).Runs t tr result t') :
    Passes conn t.selector tr outcome t'.selector := by
  cases runs_executeSqlImpl (fun h => (hfetch _ _ _ _ rfl h).1) h with
  | aborted hfn | failed hfn =>
    exact (hfetch _ _ _ _ rfl hfn).2.passes_of_failure trivial
  | fetched hfn haccepts =>
    obtain ⟨-, hfetches⟩ := hfetch _ _ _ _ rfl hfn
    refine passes_of_accepts hfetches ?_ haccepts
    rintro rfl
    exact herror trivial

theorem passes_commonQueryImpl {seqno : Nat} {params : SqlParams} {queryMode : QueryMode}
    {result : Except Abort (ResultSource σ)}
    (h : (conn.commonQueryImpl seqno params queryMode : Op σ χ _).Runs t tr result t') :
    Passes conn t.selector tr (result.map ResultSource.status) t'.selector := by
  apply passes_of_prepared h
  intro holder t₁ tr₁ _ h
  have hfetch : ∀ (request : ExecuteSqlRequest) tr response t',
      request.transaction = t₁.selector →
        (do
          let rpc ← perform (Call.executeStreamingSql request)
          conn.createSource rpc : Op σ χ _).Runs t₁ tr response t' →
        t' = t₁ ∧ Fetches conn t₁.selector ResultSource.transactionId (fun _ => True) tr
          response := by
    intro request tr response t' hselector h
    obtain ⟨rpc, tr', rfl, hcreate⟩ := runs_perform_bind.mp h
    rw [← hselector]
    exact fetches_of_stream (c := .executeStreamingSql request) rfl .rfl id hcreate
  rw [runs_bind] at h
  rcases h with ⟨response, tr₂, tr₃, t₂, rfl, hsql, h⟩ | ⟨x, rfl, hsql⟩
  · cases response with
    | error e =>
      obtain ⟨hmarks, rfl, rfl⟩ := runs_checkSession_then h
      refine (passes_executeSqlImpl hfetch ?_ hsql).before hmarks.quiet
      rintro - status hstatus
      cases hstatus
      exact e.not_ok
    | ok reader =>
      obtain ⟨rfl, rfl, rfl⟩ := runs_pure.mp h
      exact (passes_executeSqlImpl hfetch False.elim hsql).before .nil
  · exact passes_executeSqlImpl hfetch (fun _ => nofun) hsql

theorem passes_commonDmlImpl {seqno : Nat} {params : SqlParams} {queryMode : QueryMode}
    {result : Except Abort (StatusOr (ResultSource σ))}
    (herror : Failed result → ∀ status, outcome = .ok status → status.ok = false)
    (h : (conn.commonDmlImpl seqno params queryMode : Op σ χ _).Runs t tr result t') :
    Passes conn t.selector tr outcome t'.selector := by
  apply passes_of_prepared h
  intro holder t₁ tr₁ _ h
  refine passes_executeSqlImpl ?_ herror h
  intro request tr response t' hselector h
  rw [← hselector]
  rw [runs_bind] at h
  rcases h with ⟨resultSet, tr₂, tr₃, t₂, rfl, hcall, h⟩ | ⟨x, rfl, hcall⟩
  · obtain ⟨rfl, hfetches⟩ := fetches_of_call rfl rfl hcall
    cases resultSet with
    | error e =>
      obtain ⟨hmarks, rfl, rfl⟩ := runs_checkSession_then h
      exact ⟨rfl, hfetches.failed hmarks.quiet trivial trivial⟩
    | ok resultSet =>
      obtain ⟨rfl, rfl, rfl⟩ := runs_pure.mp h
      rw [List.append_nil]
      exact ⟨rfl, hfetches.answered rfl .rfl⟩
  · obtain ⟨rfl, hfetches⟩ := fetches_of_call rfl rfl hcall
    rw [← List.append_nil tr]
    exact ⟨rfl, hfetches.failed .nil trivial trivial⟩

theorem passes_of_record {α : Type} {rpc : Rpc} {response : rpc.Response} {good : α}
    {result : Except Abort α}
    (hfetches : Fetches conn t.selector rpc.begun rpc.Refused tr (.ok (.ok response)))
    (hrefused : ¬ rpc.Refused response)
    (h : (if t.selector.hasBegin = true then do
        setId (rpc.begun response)
        return good
      else return good : Op σ χ α).Runs t tr₁ result t') :
    Passes conn t.selector (tr ++ tr₁) outcome t'.selector := by
  obtain ⟨rfl, rfl, rfl⟩ := runs_record h
  refine Passes.before ?_ .nil
  cases hbegin : t.selector.hasBegin with
  | true => exact hfetches.passes_left hbegin fun _ => hrefused
  | false => exact hfetches.passes_of_not_begin hbegin

theorem passes_partitioning {α : Type} {rpc : String → TransactionSelector → Rpc}
    {location : String} {make : ∀ session selector, (rpc session selector).Response → α}
    {result : Except Abort (StatusOr α)}
    (hnamed : ∀ session selector, (rpc session selector).named = selector.named)
    (hbegins : ∀ session selector, (rpc session selector).begins = selector.hasBegin)
    (hrefused : ∀ session selector response, ¬ (rpc session selector).Refused response)
    (h : (conn.partitioning rpc location (fun session selector => (rpc session selector).begun)
      make : Op σ χ _).Runs t tr result t') :
    Passes conn t.selector tr outcome t'.selector := by
  apply passes_of_prepared h
  intro holder t₁ tr₁ _ h
  simp only [runs_get_bind] at h
  refine passes_of_checked (runs_checked h fun _ => rfl)
    (fetches_of_call (hnamed _ _) (hbegins _ _)) ?_
  intro response tr₂ tr₃ hcall h
  exact passes_of_record (fetches_of_call (hnamed _ _) (hbegins _ _) hcall).2
    (hrefused _ _ _) h

theorem passes_partitionReadImpl {params : PartitionReadParams}
    {result : Except Abort (StatusOr (List ReadPartition))}
    (h : (conn.partitionReadImpl params : Op σ χ _).Runs t tr result t') :
    Passes conn t.selector tr outcome t'.selector := by
  rw [partitionReadImpl_eq] at h
  exact passes_partitioning (fun _ _ => rfl) (fun _ _ => rfl) (fun _ _ _ => id) h

theorem passes_partitionQueryImpl {params : PartitionQueryParams}
    {result : Except Abort (StatusOr (List QueryPartition))}
    (h : (conn.partitionQueryImpl params : Op σ χ _).Runs t tr result t') :
    Passes conn t.selector tr outcome t'.selector := by
  rw [partitionQueryImpl_eq] at h
  exact passes_partitioning (fun _ _ => rfl) (fun _ _ => rfl) (fun _ _ _ => id) h

def batchStatus : StatusOr BatchDmlResult → Status
  | .error e => e.status
  | .ok result => result.status

theorem passes_executeBatchDmlImpl {seqno : Nat} {statements : List SqlStatement}
    {result : Except Abort (StatusOr BatchDmlResult)}
    (h : (conn.executeBatchDmlImpl seqno statements : Op σ χ _).Runs t tr result t') :
    Passes conn t.selector tr (result.map batchStatus) t'.selector := by
  apply passes_of_prepared h
  intro holder t₁ tr₁ _ h
  simp only [runs_get_bind] at h
  refine passes_of_checked (runs_checked h fun _ => rfl) (fetches_of_call rfl rfl) ?_
  intro response tr₂ tr₃ hcall h
  obtain ⟨-, hfetches⟩ := fetches_of_call rfl rfl hcall
  simp only at h
  split at h
  · next hbegin =>
    rcases hsets : response.resultSets with - | ⟨resultSet, rest⟩
    · simp only [hsets] at h
      obtain ⟨rfl, rfl, rfl⟩ := runs_pure.mp h
      refine Passes.before ?_ .nil
      cases hok : response.status.ok with
      | true =>
        refine hfetches.passes_ignored hbegin ?_ ?_ ⟨_, rfl, hok⟩
        · simp [Rpc.begun, hsets]
        · simp [Rpc.Refused, hok]
      | false =>
        refine hfetches.passes_refused hbegin ⟨hsets, hok⟩ ?_
        rintro status hstatus
        cases hstatus
        exact hok
    · simp only [hsets] at h
      rw [setId, runs_modify_bind] at h
      obtain ⟨rfl, rfl, rfl⟩ := runs_pure.mp h
      have hbegun : Rpc.begun (.executeBatchDml _) response = resultSet.transactionId := by
        simp [Rpc.begun, hsets]
      rw [← hbegun]
      refine (hfetches.passes_left hbegin fun _ hrefused => ?_).before .nil
      simp [Rpc.Refused, hsets] at hrefused
  · next hbegin =>
    obtain ⟨rfl, rfl, rfl⟩ := runs_pure.mp h
    exact (hfetches.passes_of_not_begin (Bool.not_eq_true _ ▸ hbegin)).before .nil

theorem neutral_commitWithId {holder : SessionHolder χ} {mutations : List Mutation} {id : String}
    {result : Except Abort (StatusOr CommitResult)}
    (h : (conn.commitWithId holder mutations id : Op σ χ _).Runs t tr result t') :
    t' = t ∧ Neutral conn (.id id) tr := by
  exact neutral_of_checked (runs_checked h fun _ => rfl) (fun _ => ⟨_, rfl⟩)
    (neutral_of_named rfl rfl)

theorem passes_of_beginTransaction (outcome : Except Abort Status)
    {request : BeginTransactionRequest} {location : String} {response : Protobuf.Transaction}
    (hbegin : selector.hasBegin = true)
    (h : (conn.call (.beginTransaction request) location : Op σ χ _).Runs t tr (.ok (.ok response))
      t') : t' = t ∧ Passes conn selector tr outcome (.id response.id) := by
  obtain ⟨rfl, hfetches⟩ := fetches_of_beginTransaction hbegin h
  exact ⟨rfl, hfetches.passes_left hbegin fun _ => id⟩

theorem passes_executePartitionedDmlImpl {seqno : Nat} {statement : SqlStatement}
    {result : Except Abort (StatusOr PartitionedDmlResult)} (hbegin : t.selector.hasBegin = true)
    (h : (conn.executePartitionedDmlImpl seqno statement : Op σ χ _).Runs t tr result t') :
    Passes conn t.selector tr outcome t'.selector := by
  apply passes_of_prepared h
  intro holder t₁ tr₁ hselector h
  rw [← hselector] at hbegin
  refine passes_of_checked (runs_checked h fun _ => rfl) (fetches_of_beginTransaction hbegin) ?_
  intro beginResponse tr₂ tr₃ hcall h
  obtain ⟨-, hpasses⟩ := passes_of_beginTransaction outcome hbegin hcall
  simp only [setId, runs_modify_bind] at h
  obtain ⟨rfl, hneutral⟩ :=
    neutral_of_checked (runs_checked h fun _ => rfl) (fun _ => ⟨_, rfl⟩) (neutral_of_named rfl rfl)
  exact hpasses.andThen hbegin hneutral

theorem passes_commitImpl {mutations : List Mutation}
    {result : Except Abort (StatusOr CommitResult)}
    (hselector : (∃ options, t.selector = .begin options) ∨ ∃ id, t.selector = .id id)
    (h : (conn.commitImpl mutations : Op σ χ _).Runs t tr result t') :
    Passes conn t.selector tr outcome t'.selector := by
  apply passes_of_prepared h
  intro holder t₁ tr₁ hprepared h
  rw [← hprepared] at hselector
  rw [runs_get_bind] at h
  rcases hselector with ⟨options, hoptions⟩ | ⟨id, hid⟩
  · have hbegin : t₁.selector.hasBegin = true := by rw [hoptions]; rfl
    simp only [hoptions] at h
    refine passes_of_checked (runs_checked h fun _ => rfl) (fetches_of_beginTransaction hbegin) ?_
    intro response tr₂ tr₃ hcall h
    obtain ⟨-, hpasses⟩ := passes_of_beginTransaction outcome hbegin hcall
    simp only [setId, runs_modify_bind] at h
    obtain ⟨rfl, hneutral⟩ := neutral_commitWithId h
    exact hpasses.andThen hbegin hneutral
  · simp only [hid] at h
    obtain ⟨rfl, hneutral⟩ := neutral_commitWithId h
    rw [hid]
    exact .kept hneutral

theorem neutral_of_rollback {session id location : String} {fuel : Nat}
    {result : Except Abort Status} (hid : t.selector = .id id)
    (h : (RetryLoop.retryLoop policies conn.print true
      (perform (Call.rollback ⟨session, t.selector.getId⟩)) location fuel : Op σ χ _).Runs
        t tr result t') : t' = t ∧ Neutral conn t.selector tr := by
  obtain ⟨rfl, hcalls⟩ := runs_rollback h
  refine ⟨rfl, fun c hc => ?_⟩
  rcases hcalls c hc with hc | hc
  · exact neutral_of_not_isRequest (Call.isRequest_of_isPolicy hc)
  · obtain ⟨_, status⟩ := c
    cases hc
    refine ⟨nofun, nofun, .inr ?_⟩
    rw [hid]
    rfl

theorem passes_rollbackImpl {result : Except Abort Status}
    (hselector : (∃ options, t.selector = .begin options) ∨ ∃ id, t.selector = .id id)
    (h : (conn.rollbackImpl : Op σ χ _).Runs t tr result t') :
    Passes conn t.selector tr outcome t'.selector := by
  apply passes_of_prepared h
  intro holder t₁ tr₁ hprepared h
  rw [← hprepared] at hselector
  rw [runs_get_bind] at h
  rcases hselector with ⟨options, hoptions⟩ | ⟨id, hid⟩
  · simp only [hoptions] at h
    obtain ⟨rfl, rfl, rfl⟩ := runs_pure.mp h
    exact Quiet.nil.passes
  · simp only [hid] at h
    rw [runs_bind] at h
    rcases h with ⟨status, tr₂, tr₃, t₂, rfl, hloop, h⟩ | ⟨x, rfl, hloop⟩
    · obtain ⟨rfl, hneutral⟩ := neutral_of_rollback hid hloop
      obtain ⟨hmarks, rfl, rfl⟩ := runs_checkSession_then h
      exact .kept (hneutral.append hmarks.quiet.neutral)
    · obtain ⟨rfl, hneutral⟩ := neutral_of_rollback hid hloop
      exact .kept hneutral

end SpannerClient.ConnectionImpl
