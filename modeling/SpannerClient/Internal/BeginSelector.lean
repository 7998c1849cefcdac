import SpannerClient.Internal.OperationPasses
import SpannerClient.Library.Transition

namespace SpannerClient.ConnectionImpl

open Protobuf Program

variable {σ χ : Type} {conn : ConnectionImpl σ} {tr tr₁ : List (Exchange σ χ)}
  {selector : TransactionSelector} {outcome : Except Abort Status}
  {t t' : TransactionImpl (SessionHolder χ)}

/-- `ExecutePartitionedDml()` visits a transaction of its own. -/
def Visitable : Operation → TransactionSelector → Prop
  | .executePartitionedDml _, selector => selector.hasBegin = true
  | _, _ => True

theorem passes_of_status {α : Type} {op : Op σ χ α} {status : α → Status}
    (h : (do return status (← op) : Op σ χ Status).Runs t tr outcome t')
    (hop : ∀ result, outcome = result.map status → op.Runs t tr result t' →
      Passes conn t.selector tr outcome t'.selector) :
    Passes conn t.selector tr outcome t'.selector := by
  rw [runs_bind] at h
  rcases h with ⟨a, tr₁, tr₂, t₁, rfl, hrun, h⟩ | ⟨x, rfl, hrun⟩
  · obtain ⟨rfl, rfl, rfl⟩ := runs_pure.mp h
    rw [List.append_nil] at hop ⊢
    exact hop _ rfl hrun
  · exact hop _ rfl hrun

theorem passes_functor {op : Operation} {seqno : Nat}
    (hselector : (∃ mutations, op = .commit mutations) ∨ op = .rollback →
      (∃ options, t.selector = .begin options) ∨ ∃ id, t.selector = .id id)
    (hvisitable : Visitable op t.selector)
    (h : (conn.functor op seqno : Op σ χ _).Runs t tr outcome t') :
    Passes conn t.selector tr outcome t'.selector := by
  have hstatus : ∀ {α : Type} {result : Except Abort (StatusOr α)}, Failed result →
      ∀ status, result.map StatusOr.status = .ok status → status.ok = false := by
    rintro α (x | e | a) hfailed status hstatus
    · cases hstatus
    · cases hstatus
      exact e.not_ok
    · exact hfailed.elim
  cases op with
  | read params =>
    apply passes_of_status h
    rintro result rfl h
    exact passes_readImpl h
  | executeQuery params | profileQuery params =>
    apply passes_of_status h
    rintro result rfl h
    exact passes_commonQueryImpl h
  | partitionRead params => exact passes_of_status h fun _ _ => passes_partitionReadImpl
  | partitionQuery params => exact passes_of_status h fun _ _ => passes_partitionQueryImpl
  | executeDml params | profileDml params =>
    apply passes_of_status h
    rintro result rfl h
    exact passes_commonDmlImpl hstatus h
  | analyzeSql params =>
    apply passes_of_status h
    rintro result rfl h
    rw [analyzeSqlImpl, runs_bind] at h
    rcases h with ⟨dml, tr₁, tr₂, t₁, rfl, hdml, h⟩ | ⟨x, rfl, hdml⟩
    · cases dml with
      | error e =>
        obtain ⟨rfl, rfl, rfl⟩ := runs_pure.mp h
        refine (passes_commonDmlImpl ?_ hdml).before .nil
        rintro - status hstatus
        cases hstatus
        exact e.not_ok
      | ok dml =>
        obtain ⟨rfl, rfl, rfl⟩ := runs_pure.mp h
        exact (passes_commonDmlImpl False.elim hdml).before .nil
    · exact passes_commonDmlImpl (fun _ => nofun) hdml
  | executeBatchDml statements =>
    rw [functor, runs_bind] at h
    rcases h with ⟨batch, tr₁, tr₂, t₁, rfl, hbatch, h⟩ | ⟨x, rfl, hbatch⟩
    · cases batch with
      | error e | ok batch =>
        obtain ⟨rfl, rfl, rfl⟩ := runs_pure.mp h
        exact (passes_executeBatchDmlImpl hbatch).before .nil
    · exact passes_executeBatchDmlImpl hbatch
  | executePartitionedDml statement =>
    exact passes_of_status h fun _ _ => passes_executePartitionedDmlImpl hvisitable
  | commit mutations =>
    exact passes_of_status h fun _ _ => passes_commitImpl (hselector (.inl ⟨mutations, rfl⟩))
  | rollback => exact passes_rollbackImpl (hselector (.inr rfl)) h

theorem passes_operate {op : Operation}
    (hselector : (∃ options, t.selector = .begin options) ∨ ∃ id, t.selector = .id id)
    (hvisitable : Visitable op t.selector)
    (h : (conn.operate op : Op σ χ _).Runs t tr outcome t') :
    Passes conn t.selector tr outcome t'.selector := by
  cases TransactionImpl.runs_visit h with
  | blocked htrace _ hselector _ =>
    rw [htrace, hselector]
    exact Quiet.nil.passes
  | ran hrun hbefore _ hafter _ =>
    rw [← hbefore] at hselector hvisitable ⊢
    rw [hafter]
    exact passes_functor (fun _ => hselector) hvisitable hrun

structure Visited (σ χ : Type) where
  op : Operation
  before : TransactionImpl (SessionHolder χ)
  trace : List (Exchange σ χ)
  outcome : Except Abort Status
  after : TransactionImpl (SessionHolder χ)

structure Visits (conn : ConnectionImpl σ) (t : TransactionImpl (SessionHolder χ))
    (v : Visited σ χ) (t' : TransactionImpl (SessionHolder χ)) : Prop where
  before : v.before = t
  visitable : Visitable v.op t.selector
  runs : (conn.operate v.op : Op σ χ _).Runs t v.trace v.outcome t'
  after : v.after = t'

/-- The selector is unchanged or an id of a transaction, and a missing id is an error. -/
structure LeavesForId (conn : ConnectionImpl σ) (v : Visited σ χ) : Prop where
  selector : v.after.selector = v.before.selector ∨ ∃ id, id ≠ "" ∧ v.after.selector = .id id
  reported : (∃ c ∈ v.trace, conn.LacksId c) → ∀ status, v.outcome = .ok status → status.ok = false

def Begun (options : TransactionOptions) (selector : TransactionSelector) : Prop :=
  selector = .begin options ∨ ∃ id, id ≠ "" ∧ selector = .id id

theorem Begun.beginOrId {options : TransactionOptions} (h : Begun options selector) :
    (∃ options, selector = .begin options) ∨ ∃ id, selector = .id id :=
  h.imp (fun h => ⟨options, h⟩) fun ⟨id, _, h⟩ => ⟨id, h⟩

theorem Begun.named_ne {options : TransactionOptions} (h : Begun options selector) :
    selector.named ≠ some "" := by
  rcases h with rfl | ⟨id, hid, rfl⟩
  · nofun
  · simpa [TransactionSelector.named] using hid

variable {options : TransactionOptions} {v : Visited σ χ}

theorem Visits.passes (h : conn.Visits t v t') (hbegun : Begun options t.selector) :
    Passes conn t.selector v.trace v.outcome t'.selector :=
  passes_operate hbegun.beginOrId h.visitable h.runs

theorem Visits.leavesForId (h : conn.Visits t v t') (hbegun : Begun options t.selector)
    (hchecked : ∀ c ∈ v.trace, ¬ Unchecked c) :
    LeavesForId conn v ∧ Begun options t'.selector ∧ ∀ c ∈ v.trace, c.1.named ≠ some "" := by
  have hpasses := h.passes hbegun
  obtain ⟨rfl, -, -, rfl⟩ := h
  generalize hselector : v.after.selector = selector' at hpasses
  have hnamed : ∀ c ∈ v.trace, c.1.named = none → c.1.named ≠ some "" := by simp +contextual
  cases hpasses with
  | kept hneutral =>
    refine ⟨⟨.inl hselector, ?_⟩, hbegun, fun c hc => ?_⟩
    · rintro ⟨c, hc, hlacks⟩
      exact absurd hlacks (hneutral c hc).1
    · rcases (hneutral c hc).2.2 with hnone | hsame
      · exact hnamed c hc hnone
      · exact hsame ▸ hbegun.named_ne
  | refused _ hnone herror =>
    exact ⟨⟨.inl hselector, fun _ => herror⟩, hbegun, fun c hc => hnamed c hc (hnone c hc).2⟩
  | ignored _ _ hunchecked _ =>
    obtain ⟨c, hc, h⟩ := hunchecked
    exact absurd h (hchecked c hc)
  | left id _ hlacks hunchecked hsame =>
    have hid : id ≠ "" := by
      intro hid
      obtain ⟨c, hc, h⟩ := hunchecked.mpr hid
      exact hchecked c hc h
    refine ⟨⟨.inr ⟨id, hid, hselector⟩, fun h => absurd (hlacks h) hid⟩, .inr ⟨id, hid, rfl⟩, ?_⟩
    intro c hc
    rcases hsame c hc with hnone | hsame
    · exact hnamed c hc hnone
    · rw [hsame]
      simpa using hid

theorem Visits.checked (h : conn.Visits t v t') (hbegun : Begun options t.selector)
    (hleaves : t.selector.hasBegin = true → LeavesForId conn v) :
    (∀ c ∈ v.trace, ¬ Unchecked c) ∧ Begun options t'.selector := by
  have hpasses := h.passes hbegun
  obtain ⟨rfl, -, -, rfl⟩ := h
  generalize hselector : v.after.selector = selector' at hpasses
  cases hpasses with
  | kept hneutral => exact ⟨fun c hc => (hneutral c hc).2.1, hbegun⟩
  | refused _ hnone _ => exact ⟨fun c hc => (hnone c hc).1, hbegun⟩
  | ignored hbegin hlacks _ hok =>
    obtain ⟨status, hstatus, hok⟩ := hok
    cases hok.symm.trans ((hleaves hbegin).reported hlacks status hstatus)
  | left id hbegin _ hunchecked _ =>
    have hid : id ≠ "" := by
      rcases (hleaves hbegin).selector with hsame | ⟨id', hid', hsame⟩
      · rw [hselector] at hsame
        rw [← hsame] at hbegin
        cases hbegin
      · cases hselector.symm.trans hsame
        exact hid'
    exact ⟨fun c hc h => hid (hunchecked.mp ⟨c, hc, h⟩), .inr ⟨id, hid, rfl⟩⟩

/-- As long as no missing id is overlooked, and only then, the selector of a transaction leaves
`begin` for an id alone, and no request names a transaction by an empty id. -/
theorem begin_left_for_id_iff {t₀ t : TransactionImpl (SessionHolder χ)}
    {visits : List (Visited σ χ)} (h : Run conn.Visits t₀ visits t)
    (hbegin : t₀.selector = .begin options) :
    ((∀ v ∈ visits, v.before.selector.hasBegin = true → LeavesForId conn v) ∧
      ∀ v ∈ visits, ∀ c ∈ v.trace, c.1.named ≠ some "") ↔
    ∀ v ∈ visits, ∀ c ∈ v.trace, ¬ Unchecked c := by
  constructor
  · rintro ⟨hleaves, -⟩
    have hhistory : (∀ v ∈ visits, v.before.selector.hasBegin = true → LeavesForId conn v) →
        (∀ v ∈ visits, ∀ c ∈ v.trace, ¬ Unchecked c) ∧ Begun options t.selector := by
      refine h.history (P := fun visits t =>
        (∀ v ∈ visits, v.before.selector.hasBegin = true → LeavesForId conn v) →
          (∀ v ∈ visits, ∀ c ∈ v.trace, ¬ Unchecked c) ∧ Begun options t.selector) ?_ ?_
      · exact fun _ => ⟨by simp, .inl hbegin⟩
      · intro visits t v t' ih hvisit hleaves
        simp only [List.forall_mem_append, List.forall_mem_singleton] at hleaves ⊢
        obtain ⟨hchecked, hbegun⟩ := ih hleaves.1
        obtain ⟨hlast, hbegun'⟩ := hvisit.checked hbegun (hvisit.before ▸ hleaves.2)
        exact ⟨⟨hchecked, hlast⟩, hbegun'⟩
    exact (hhistory hleaves).1
  · intro hchecked
    have hhistory : (∀ v ∈ visits, ∀ c ∈ v.trace, ¬ Unchecked c) →
        (∀ v ∈ visits, LeavesForId conn v ∧ ∀ c ∈ v.trace, c.1.named ≠ some "") ∧
          Begun options t.selector := by
      refine h.history (P := fun visits t => (∀ v ∈ visits, ∀ c ∈ v.trace, ¬ Unchecked c) →
        (∀ v ∈ visits, LeavesForId conn v ∧ ∀ c ∈ v.trace, c.1.named ≠ some "") ∧
          Begun options t.selector) ?_ ?_
      · exact fun _ => ⟨by simp, .inl hbegin⟩
      · intro visits t v t' ih hvisit hchecked
        simp only [List.forall_mem_append, List.forall_mem_singleton] at hchecked ⊢
        obtain ⟨hleaves, hbegun⟩ := ih hchecked.1
        obtain ⟨hlast, hbegun', hnamed⟩ := hvisit.leavesForId hbegun hchecked.2
        exact ⟨⟨hleaves, hlast, hnamed⟩, hbegun'⟩
    obtain ⟨hleaves, -⟩ := hhistory hchecked
    exact ⟨fun v hv _ => (hleaves v hv).1, fun v hv => (hleaves v hv).2⟩

def serverConn : ConnectionImpl ServerStream := ⟨ServerStream.reader, Status.message, 2⟩

def newTransaction : TransactionImpl (SessionHolder Unit) := .make none (.begin .readWrite)

def session : Session Unit := ⟨0, "session", some (), false, 0⟩

def partitionReadParams : PartitionReadParams :=
  ⟨⟨"Singers", ⟨[], [], true⟩, ["SingerId"], ⟨"", 0⟩, none⟩, ⟨none, none⟩⟩

def partitionReadRequest : PartitionReadRequest :=
  ⟨"session", .begin .readWrite, "Singers", "", ["SingerId"], ⟨[], [], true⟩, ⟨0, 0⟩⟩

def partitionRead (response : PartitionResponse) : Visited ServerStream Unit where
  op := .partitionRead partitionReadParams
  before := newTransaction
  trace := [⟨.allocate true, .ok session⟩, ⟨.isExhausted, false⟩,
    ⟨.rpc (.partitionRead partitionReadRequest), .ok response⟩]
  outcome := .ok .success
  after := ⟨.done, some ⟨session, true⟩, .id response.transactionId, 1⟩

theorem partitionRead_visits (response : PartitionResponse) :
    serverConn.Visits newTransaction (partitionRead response) (partitionRead response).after :=
  ⟨rfl, trivial, .call (.call (.call .ret)), rfl⟩

theorem begin_left_for_id :
    ((∀ v ∈ [partitionRead ⟨[], some ⟨"txn", none⟩⟩], v.before.selector.hasBegin = true →
        LeavesForId serverConn v) ∧
      ∀ v ∈ [partitionRead ⟨[], some ⟨"txn", none⟩⟩], ∀ c ∈ v.trace, c.1.named ≠ some "") ↔
    ∀ v ∈ [partitionRead ⟨[], some ⟨"txn", none⟩⟩], ∀ c ∈ v.trace, ¬ Unchecked c :=
  begin_left_for_id_iff (.single (partitionRead_visits _)) rfl

def rollback : Visited ServerStream Unit where
  op := .rollback
  before := (partitionRead ⟨[], none⟩).after
  trace := [⟨.isExhausted, false⟩, ⟨.rollback ⟨"session", ""⟩, .success⟩]
  outcome := .ok .success
  after := ⟨.done, some ⟨session, true⟩, .id "", 2⟩

/-- The response has no transaction, which is not reported, and then the id is empty. -/
theorem begin_left_for_empty_id :
    Run serverConn.Visits newTransaction [partitionRead ⟨[], none⟩, rollback] rollback.after ∧
      ¬ LeavesForId serverConn (partitionRead ⟨[], none⟩) ∧
      ∃ c ∈ rollback.trace, c.1.named = some "" := by
  refine ⟨?_, ?_, ?_⟩
  · exact .cons (partitionRead_visits _) (.single ⟨rfl, trivial, .call (.call .ret), rfl⟩)
  · intro h
    have hlacks : ∃ c ∈ (partitionRead ⟨[], none⟩).trace, serverConn.LacksId c :=
      ⟨_, List.mem_cons_of_mem _ (List.mem_cons_of_mem _ (List.mem_singleton_self _)), rfl, rfl⟩
    cases h.reported hlacks .success rfl
  · exact ⟨_, List.mem_cons_of_mem _ (List.mem_singleton_self _), rfl⟩

end SpannerClient.ConnectionImpl
