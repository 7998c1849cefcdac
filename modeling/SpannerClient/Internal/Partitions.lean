import SpannerClient.Internal.SessionUse

namespace SpannerClient

open Protobuf Program

def Operation.partitions (session : String) (response : PartitionResponse) :
    Operation → List Partition
  | .partitionRead params => response.partitions.map fun partitionToken =>
    .read (makeReadPartition response.transactionId session partitionToken params.readParams.table
      params.readParams.keys params.readParams.columns params.readParams.readOptions)
  | .partitionQuery params => response.partitions.map fun partitionToken =>
    .query ⟨response.transactionId, session, partitionToken, params.statement⟩
  | .read _ | .executeQuery _ | .profileQuery _ | .executeDml _ | .profileDml _ | .analyzeSql _
  | .executeBatchDml _ | .executePartitionedDml _ | .commit _ | .rollback => []

theorem Operation.of_mem_partitions {session : String} {response : PartitionResponse}
    {op : Operation} {partition : Partition} (h : partition ∈ op.partitions session response) :
    partition.sessionId = session ∧ partition.transactionId = response.transactionId := by
  cases op with
  | partitionRead _ | partitionQuery _ =>
    obtain ⟨partitionToken, -, rfl⟩ := List.mem_map.mp h
    exact ⟨rfl, rfl⟩
  | read _ | executeQuery _ | profileQuery _ | executeDml _ | profileDml _ | analyzeSql _
  | executeBatchDml _ | executePartitionedDml _ | commit _ | rollback =>
    cases h

namespace ConnectionImpl

variable {σ χ : Type} {conn : ConnectionImpl σ} {tr : List (Exchange σ χ)}
  {t t' : TransactionImpl (SessionHolder χ)}

def Answers (session : String) (selector : TransactionSelector) (response : PartitionResponse)
    (tr : List (Exchange σ χ)) : Operation → Prop
  | .partitionRead params =>
    ⟨.rpc (.partitionRead (params.toRequest session selector)), .ok response⟩ ∈ tr
  | .partitionQuery params =>
    ⟨.rpc (.partitionQuery (params.toRequest session selector)), .ok response⟩ ∈ tr
  | .read _ | .executeQuery _ | .profileQuery _ | .executeDml _ | .profileDml _ | .analyzeSql _
  | .executeBatchDml _ | .executePartitionedDml _ | .commit _ | .rollback => False

def Answered (tr : List (Exchange σ χ)) (response : PartitionResponse) : Operation → Prop
  | .partitionRead _ => ∃ request, ⟨.rpc (.partitionRead request), .ok response⟩ ∈ tr
  | .partitionQuery _ => ∃ request, ⟨.rpc (.partitionQuery request), .ok response⟩ ∈ tr
  | .read _ | .executeQuery _ | .profileQuery _ | .executeDml _ | .profileDml _ | .analyzeSql _
  | .executeBatchDml _ | .executePartitionedDml _ | .commit _ | .rollback => False

theorem Answers.answered {session : String} {selector : TransactionSelector}
    {response : PartitionResponse} {op : Operation} (h : Answers session selector response tr op) :
    Answered tr response op := by
  cases op with
  | partitionRead _ | partitionQuery _ => exact ⟨_, h⟩
  | read _ | executeQuery _ | profileQuery _ | executeDml _ | profileDml _ | analyzeSql _
  | executeBatchDml _ | executePartitionedDml _ | commit _ | rollback => exact h.elim

theorem Answered.partitions_eq_nil_iff {response response' : PartitionResponse} {op : Operation}
    (h : Answered tr response' op) {session : String} :
    op.partitions session response = [] ↔ response.partitions = [] := by
  cases op with
  | partitionRead _ | partitionQuery _ => exact List.map_eq_nil_iff
  | read _ | executeQuery _ | profileQuery _ | executeDml _ | profileDml _ | analyzeSql _
  | executeBatchDml _ | executePartitionedDml _ | commit _ | rollback => exact h.elim

inductive Partitioned (op : Operation) (t : TransactionImpl (SessionHolder χ))
    (tr : List (Exchange σ χ)) (t' : TransactionImpl (SessionHolder χ)) : List Partition → Prop
  | none : (∀ response, ¬ Answered tr response op) → Partitioned op t tr t' []
  | made (holder : SessionHolder χ) (response : PartitionResponse) : t'.session = some holder →
    Answers holder.session.name t.selector response tr op →
    (∀ response', Answered tr response' op → response' = response) →
    t'.selector = (if t.selector.hasBegin then .id response.transactionId else t.selector) →
      Partitioned op t tr t' (op.partitions holder.session.name response)

theorem no_partitions {α : Type} {op : Op σ χ α} {f : α → Status} {report : Report}
    (h : (do return ⟨f (← op), []⟩ : Op σ χ Report).Runs t tr (.ok report) t') :
    report.partitions = [] := by
  rcases runs_bind.mp h with ⟨a, tr₁, tr₂, t₁, rfl, -, hrest⟩ | ⟨x, hx, -⟩
  · cases (runs_pure.mp hrest).2.1
    rfl
  · cases hx

theorem partitioned_of_reporter {op : Operation} {seqno : Nat} {report : Report}
    (h : (conn.reporter op seqno : Op σ χ _).Runs t tr (.ok report) t') :
    Partitioned op t tr t' report.partitions := by
  cases op with
  | partitionRead params | partitionQuery params =>
    rcases runs_bind.mp h with ⟨result, tr₁, tr₂, t₁, rfl, hrun, hrest⟩ | ⟨x, hx, -⟩
    · obtain ⟨rfl, hreport, rfl⟩ := runs_pure.mp hrest
      cases hreport
      simp only [partitionReadImpl_eq, partitionQueryImpl_eq] at hrun
      rw [List.append_nil]
      rcases runs_partitioning hrun with ⟨e, rfl, hnone⟩ |
        ⟨holder, response, hsession, rfl, hmem, honly, hselector⟩
      · refine .none fun response hanswered => ?_
        obtain ⟨_, hmem⟩ := hanswered
        exact hnone _ _ hmem
      · simp only [Except.toOption, Option.getD_some, List.map_map]
        refine .made holder response hsession hmem (fun response' hanswered => ?_) hselector
        obtain ⟨_, hmem'⟩ := hanswered
        cases honly _ _ hmem'
        rfl
    · cases hx
  | read _ | executeQuery _ | profileQuery _ | executeDml _ | profileDml _ | analyzeSql _
  | executeBatchDml _ | executePartitionedDml _ | commit _ | rollback =>
    rw [no_partitions h]
    exact .none fun _ => id

end ConnectionImpl

end SpannerClient
