import SpannerClient.Internal.Partitions
import SpannerClient.Internal.VisitContract

namespace SpannerClient

open Protobuf Program

def Operation.reads : Operation → Bool
  | .read _ | .executeQuery _ | .partitionRead _ | .partitionQuery _ => true
  | .profileQuery _ | .executeDml _ | .profileDml _ | .analyzeSql _ | .executeBatchDml _
  | .executePartitionedDml _ | .commit _ | .rollback => false

namespace ConnectionImpl

variable {σ χ : Type} {conn : ConnectionImpl σ} {tr : List (Exchange σ χ)}
  {t t' : TransactionImpl (SessionHolder χ)}

structure Reported (σ χ : Type) where
  op : Operation
  before : TransactionImpl (SessionHolder χ)
  trace : List (Exchange σ χ)
  report : Report
  after : TransactionImpl (SessionHolder χ)

structure Reports (conn : ConnectionImpl σ) (t : TransactionImpl (SessionHolder χ))
    (v : Reported σ χ) (t' : TransactionImpl (SessionHolder χ)) : Prop where
  before : v.before = t
  runs : (TransactionImpl.visit (conn.reporter v.op)).Runs t v.trace (.ok v.report) t'
  after : v.after = t'

/-- A `PartitionResponse` has a transaction if, and only if, one was to be begun. -/
def Documented : Exchange σ χ → Prop
  | ⟨.rpc (.partitionRead request), .ok response⟩ =>
    if request.transaction.hasBegin then response.transactionId ≠ ""
    else response.transaction = none
  | ⟨.rpc (.partitionQuery request), .ok response⟩ =>
    if request.transaction.hasBegin then response.transactionId ≠ ""
    else response.transaction = none
  | _ => True

theorem Answers.documented {session : String} {selector : TransactionSelector}
    {response : PartitionResponse} {op : Operation} (h : Answers session selector response tr op)
    (hdocumented : ∀ c ∈ tr, Documented c) :
    if selector.hasBegin then response.transactionId ≠ "" else response.transactionId = "" := by
  suffices hresponse : if selector.hasBegin then response.transactionId ≠ ""
      else response.transaction = none by
    by_cases hbegin : selector.hasBegin = true
    · simpa only [hbegin, if_true] using hresponse
    · rw [if_neg hbegin] at hresponse ⊢
      simp [PartitionResponse.transactionId, hresponse]
  cases op with
  | partitionRead _ | partitionQuery _ => exact hdocumented _ h
  | read _ | executeQuery _ | profileQuery _ | executeDml _ | profileDml _ | analyzeSql _
  | executeBatchDml _ | executePartitionedDml _ | commit _ | rollback => exact h.elim

theorem moves_of_reporter {op : Operation} {seqno : Nat} {report : Except Abort Report}
    (hreads : op.reads = true) (h : (conn.reporter op seqno : Op σ χ _).Runs t tr report t') :
    Moves t.selector t'.selector := by
  cases op with
  | read _ =>
    obtain ⟨result, hrun⟩ := runs_of_bind_pure (fun result => ⟨_, rfl⟩) h
    exact (passes_readImpl hrun).moves
  | executeQuery _ =>
    obtain ⟨result, hrun⟩ := runs_of_bind_pure (fun result => ⟨_, rfl⟩) h
    exact (passes_commonQueryImpl hrun).moves
  | partitionRead _ =>
    obtain ⟨result, hrun⟩ := runs_of_bind_pure (fun result => ⟨_, rfl⟩) h
    have hpasses : Passes conn t.selector tr (.error .outOfFuel) t'.selector :=
      passes_partitionReadImpl hrun
    exact hpasses.moves
  | partitionQuery _ =>
    obtain ⟨result, hrun⟩ := runs_of_bind_pure (fun result => ⟨_, rfl⟩) h
    have hpasses : Passes conn t.selector tr (.error .outOfFuel) t'.selector :=
      passes_partitionQueryImpl hrun
    exact hpasses.moves
  | profileQuery _ | executeDml _ | profileDml _ | analyzeSql _ | executeBatchDml _
  | executePartitionedDml _ | commit _ | rollback => cases hreads

variable {v : Reported σ χ}

theorem Reports.partitions (h : conn.Reports t v t') (hdocumented : ∀ c ∈ v.trace, Documented c)
    {partition : Partition} (hpartition : partition ∈ v.report.partitions) :
    if t.selector.hasBegin then
      partition.transactionId ≠ "" ∧
        ∀ p ∈ v.report.partitions, t'.selector = .id p.transactionId
    else partition.transactionId = "" := by
  cases TransactionImpl.runs_visit h.runs with
  | blocked _ hblocked => cases hblocked
  | @ran t₁ t₂ hrun hbefore _ hafter _ =>
    have hpartitioned := partitioned_of_reporter hrun
    generalize v.report.partitions = partitions at hpartitioned hpartition ⊢
    cases hpartitioned with
    | none => cases hpartition
    | made holder response _ hanswers _ hselector =>
      have hid := hanswers.documented hdocumented
      have hsame : ∀ p ∈ v.op.partitions holder.session.name response,
          p.transactionId = response.transactionId :=
        fun p hp => (Operation.of_mem_partitions hp).2
      rw [hbefore] at hid hselector
      rw [hafter, hselector, hsame _ hpartition]
      by_cases hbegin : t.selector.hasBegin = true
      · simp only [hbegin, if_true] at hid ⊢
        exact ⟨hid, fun p hp => by rw [hsame p hp]⟩
      · simpa [hbegin] using hid

def Reported.Partitions (v : Reported σ χ) : Prop :=
  ∃ response, Answered v.trace response v.op ∧ response.partitions ≠ []

theorem Reports.partitions_iff (h : conn.Reports t v t') :
    v.Partitions ↔ v.report.partitions ≠ [] := by
  cases TransactionImpl.runs_visit h.runs with
  | blocked _ hblocked => cases hblocked
  | ran hrun =>
    have hpartitioned := partitioned_of_reporter hrun
    rw [Reported.Partitions]
    generalize v.report.partitions = partitions at hpartitioned ⊢
    cases hpartitioned with
    | none hnone => simpa using fun response hanswered => absurd hanswered (hnone response)
    | made holder response _ hanswers honly _ =>
      rw [Ne, hanswers.answered.partitions_eq_nil_iff]
      constructor
      · rintro ⟨response', hanswered, hsome⟩
        rwa [honly response' hanswered] at hsome
      · intro hsome
        exact ⟨response, hanswers.answered, hsome⟩

def Coherent (visits : List (Reported σ χ)) (t : TransactionImpl (SessionHolder χ)) : Prop :=
  (∀ v ∈ visits, v.report.partitions = []) ∨
    ∃ id, id ≠ "" ∧ t.selector = .id id ∧
      ∀ v ∈ visits, ∀ p ∈ v.report.partitions, p.transactionId = id ∧ v.after.selector = .id id

theorem Reports.moves (h : conn.Reports t v t') (hreads : v.op.reads = true) :
    Moves t.selector t'.selector := by
  cases TransactionImpl.runs_visit h.runs with
  | blocked _ hblocked => cases hblocked
  | ran hrun hbefore _ hafter _ =>
    rw [← hbefore, hafter]
    exact moves_of_reporter hreads hrun

theorem Coherent.step {visits : List (Reported σ χ)} (hcoherent : Coherent visits t)
    (h : conn.Reports t v t') (hreads : v.op.reads = true)
    (hdocumented : ∀ c ∈ v.trace, Documented c)
    (hbegin : v.report.partitions ≠ [] → t.selector.hasBegin = true) :
    Coherent (visits ++ [v]) t' := by
  rcases hcoherent with hnone | ⟨id, hid, hselector, hnamed⟩
  · cases hpartitions : v.report.partitions with
    | nil =>
      left
      simpa [or_imp, forall_and, hpartitions] using hnone
    | cons p partitions =>
      have hmem : p ∈ v.report.partitions := by simp [hpartitions]
      have hp := h.partitions hdocumented hmem
      rw [if_pos (hbegin (List.ne_nil_of_mem hmem))] at hp
      refine .inr ⟨p.transactionId, hp.1, hp.2 p hmem, fun w hw q hq => ?_⟩
      rcases List.mem_append.mp hw with hw | hw
      · rw [hnone w hw] at hq
        cases hq
      · cases List.mem_singleton.mp hw
        have hsame : TransactionSelector.id q.transactionId = .id p.transactionId := by
          rw [← hp.2 q hq, hp.2 p hmem]
        rw [h.after]
        exact ⟨TransactionSelector.id.inj hsame, hp.2 p hmem⟩
  · have hkept : t'.selector = .id id := by
      rcases h.moves hreads with hsame | ⟨habsurd, -⟩
      · rw [hsame, hselector]
      · rw [hselector] at habsurd
        cases habsurd
    refine .inr ⟨id, hid, hkept, fun w hw q hq => ?_⟩
    rcases List.mem_append.mp hw with hw | hw
    · exact hnamed w hw q hq
    · cases List.mem_singleton.mp hw
      have habsurd := hbegin (List.ne_nil_of_mem hq)
      rw [hselector] at habsurd
      cases habsurd

theorem reports_of_mem {t₀ : TransactionImpl (SessionHolder χ)} {visits : List (Reported σ χ)}
    (h : Run conn.Reports t₀ visits t) : ∀ v ∈ visits, conn.Reports v.before v v.after := by
  refine h.history (P := fun visits _ => ∀ v ∈ visits, conn.Reports v.before v v.after) (by simp) ?_
  intro visits t v t' hvisits hv w hw
  rcases List.mem_append.mp hw with hw | hw
  · exact hvisits w hw
  · cases List.mem_singleton.mp hw
    rwa [hv.before, hv.after]

/-- The partitions of a transaction name the one that it holds, and so each other's, if and only if
they are all made while the transaction is still to be begun. -/
theorem partitions_coherent_iff {t₀ : TransactionImpl (SessionHolder χ)}
    {visits : List (Reported σ χ)} (h : Run conn.Reports t₀ visits t)
    (hreads : ∀ v ∈ visits, v.op.reads = true ∧ v.report.status.ok = true)
    (hdocumented : ∀ v ∈ visits, ∀ c ∈ v.trace, Documented c) :
    (∃ id, id ≠ "" ∧ ∀ v ∈ visits, ∀ p ∈ v.report.partitions,
        p.transactionId = id ∧ v.after.selector = .id id) ↔
      ∀ v ∈ visits, v.Partitions → v.before.selector.hasBegin = true := by
  have hvisits := reports_of_mem h
  constructor
  · rintro ⟨id, hid, hnamed⟩ v hv hpartitions
    obtain ⟨p, hp⟩ := List.exists_mem_of_ne_nil _ ((hvisits v hv).partitions_iff.mp hpartitions)
    have hpartition := (hvisits v hv).partitions (hdocumented v hv) hp
    by_contra hbegin
    rw [if_neg hbegin, (hnamed v hv p hp).1] at hpartition
    exact hid hpartition
  · intro hbegin
    have hcoherent : (∀ v ∈ visits, v.op.reads = true ∧ (∀ c ∈ v.trace, Documented c) ∧
        (v.report.partitions ≠ [] → v.before.selector.hasBegin = true)) → Coherent visits t := by
      refine h.history (P := fun visits t => (∀ v ∈ visits, v.op.reads = true ∧
        (∀ c ∈ v.trace, Documented c) ∧
        (v.report.partitions ≠ [] → v.before.selector.hasBegin = true)) → Coherent visits t)
        (fun _ => .inl (by simp)) ?_
      intro visits t v t' hcoherent hv hgood
      obtain ⟨hreads, hdocumented, hbegin⟩ := hgood v (by simp)
      rw [hv.before] at hbegin
      exact (hcoherent fun w hw => hgood w (by simp [hw])).step hv hreads hdocumented hbegin
    have hgood := hcoherent fun v hv =>
      ⟨(hreads v hv).1, hdocumented v hv,
        fun hp => hbegin v hv ((hvisits v hv).partitions_iff.mpr hp)⟩
    rcases hgood with hnone | ⟨id, hid, -, hnamed⟩
    · refine ⟨"txn", by simp, fun v hv p hp => ?_⟩
      rw [hnone v hv] at hp
      cases hp
    · exact ⟨id, hid, hnamed⟩

def partition (transactionId : String) : Partition :=
  .read (makeReadPartition transactionId "session" "token" "Singers" ⟨[], [], true⟩ ["SingerId"]
    ⟨"", 0⟩)

def firstPartitionRead : Reported ServerStream Unit where
  op := .partitionRead partitionReadParams
  before := newTransaction
  trace := [⟨.allocate true, .ok session⟩, ⟨.isExhausted, false⟩,
    ⟨.rpc (.partitionRead partitionReadRequest), .ok ⟨["token"], some ⟨"txn", none⟩⟩⟩]
  report := ⟨.success, [partition "txn"]⟩
  after := ⟨.done, some ⟨session, true⟩, .id "txn", 1⟩

def secondPartitionRead : Reported ServerStream Unit where
  op := .partitionRead partitionReadParams
  before := firstPartitionRead.after
  trace := [⟨.isExhausted, false⟩,
    ⟨.rpc (.partitionRead { partitionReadRequest with transaction := .id "txn" }),
      .ok ⟨["token"], none⟩⟩]
  report := ⟨.success, [partition ""]⟩
  after := ⟨.done, some ⟨session, true⟩, .id "txn", 2⟩

theorem firstPartitionRead_reports :
    serverConn.Reports newTransaction firstPartitionRead firstPartitionRead.after :=
  ⟨rfl, .call (.call (.call .ret)), rfl⟩

theorem partitions_coherent :
    (∃ id, id ≠ "" ∧ ∀ v ∈ [firstPartitionRead], ∀ p ∈ v.report.partitions,
        p.transactionId = id ∧ v.after.selector = .id id) ↔
      ∀ v ∈ [firstPartitionRead], v.Partitions → v.before.selector.hasBegin = true :=
  partitions_coherent_iff (.single firstPartitionRead_reports)
    (by simp [firstPartitionRead, Operation.reads]) (by simp [firstPartitionRead, Documented,
      partitionReadRequest, PartitionResponse.transactionId])

/-- The second response has no transaction, since none was to be begun. -/
theorem partitions_incoherent :
    Run serverConn.Reports newTransaction [firstPartitionRead, secondPartitionRead]
        secondPartitionRead.after ∧
      (∀ v ∈ [firstPartitionRead, secondPartitionRead], v.op.reads = true ∧
        v.report.status.ok = true ∧ ∀ c ∈ v.trace, Documented c) ∧
      ¬ ∃ id, id ≠ "" ∧ ∀ v ∈ [firstPartitionRead, secondPartitionRead],
        ∀ p ∈ v.report.partitions, p.transactionId = id ∧ v.after.selector = .id id := by
  refine ⟨?_, ?_, ?_⟩
  · exact .cons firstPartitionRead_reports (.single ⟨rfl, .call (.call .ret), rfl⟩)
  · simp [firstPartitionRead, secondPartitionRead, Operation.reads, Documented,
      partitionReadRequest, PartitionResponse.transactionId]
  · rintro ⟨id, hid, hnamed⟩
    have hsecond :=
      hnamed secondPartitionRead (by simp) (partition "") (by simp [secondPartitionRead])
    exact hid hsecond.1.symm

end ConnectionImpl

end SpannerClient
