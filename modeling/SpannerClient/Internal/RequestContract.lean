import SpannerClient.Internal.RetryContract
import SpannerClient.Internal.SelectorPasses

namespace SpannerClient

open Protobuf Program

inductive Work
  | sql (statement : Statement) (queryMode : QueryMode)
  | batch (statements : List Statement)

def Operation.work : Operation → Option Work
  | .executeDml params => some (.sql params.statement.toProto .normal)
  | .profileDml params => some (.sql params.statement.toProto .profile)
  | .analyzeSql params => some (.sql params.statement.toProto .plan)
  | .executeBatchDml statements => some (.batch (statements.map SqlStatement.toProto))
  | .read _ | .partitionRead _ | .executeQuery _ | .profileQuery _ | .partitionQuery _
  | .executePartitionedDml _ | .commit _ | .rollback => none

/-- The work of a query, which the server answers with a stream. -/
def Operation.query : Operation → Option Work
  | .executeQuery params => some (.sql params.statement.toProto .normal)
  | .profileQuery params => some (.sql params.statement.toProto .profile)
  | .read _ | .partitionRead _ | .executeDml _ | .profileDml _ | .analyzeSql _ | .partitionQuery _
  | .executeBatchDml _ | .executePartitionedDml _ | .commit _ | .rollback => none

def Operation.hasAnswer : Operation → Bool
  | .executeDml _ | .profileDml _ | .analyzeSql _ | .executeBatchDml _ | .commit _ => true
  | .read _ | .partitionRead _ | .executeQuery _ | .profileQuery _ | .partitionQuery _
  | .executePartitionedDml _ | .rollback => false

namespace Rpc

def session : Rpc → String
  | .partitionRead request => request.session
  | .partitionQuery request => request.session
  | .executeSql request => request.session
  | .executeBatchDml request => request.session
  | .beginTransaction request => request.session
  | .commit request => request.session

def work : Rpc → Option (Nat × Work)
  | .executeSql request => some (request.seqno, .sql request.statement request.queryMode)
  | .executeBatchDml request => some (request.seqno, .batch request.statements)
  | .partitionRead _ | .partitionQuery _ | .beginTransaction _ | .commit _ => none

def learned : (rpc : Rpc) → rpc.Response → Option String
  | .partitionRead _, response => some response.transactionId
  | .partitionQuery _, response => some response.transactionId
  | .executeSql _, response =>
    if response.transactionId = "" then none else some response.transactionId
  | .executeBatchDml _, response => response.resultSets.head?.map ResultSet.transactionId
  | .beginTransaction _, response => some response.id
  | .commit _, _ => none

end Rpc

namespace ConnectionImpl

variable {σ χ : Type}

namespace Call

def session : Call → Option String
  | .streamingRead request => some request.session
  | .executeStreamingSql request => some request.session
  | .rpc request => some request.session
  | .rollback request => some request.session
  | .allocate _ | .setBad _ | .isExhausted | .onFailure _ | .onCompletion | .sleepFor _ => none

def begins : Call → Bool
  | .streamingRead request => request.transaction.hasBegin
  | .executeStreamingSql request => request.transaction.hasBegin
  | .rpc request => request.begins
  | .rollback _ | .allocate _ | .setBad _ | .isExhausted | .onFailure _ | .onCompletion
  | .sleepFor _ => false

def work : Call → Option (Nat × Work)
  | .rpc request => request.work
  | .streamingRead _ | .executeStreamingSql _ | .rollback _ | .allocate _ | .setBad _
  | .isExhausted | .onFailure _ | .onCompletion | .sleepFor _ => none

def query : Call → Option Work
  | .executeStreamingSql request => some (.sql request.statement request.queryMode)
  | .rpc _ | .streamingRead _ | .rollback _ | .allocate _ | .setBad _ | .isExhausted
  | .onFailure _ | .onCompletion | .sleepFor _ => none

def seqno : Call → Option Nat
  | .executeStreamingSql request => some request.seqno
  | .rpc request => request.work.map Prod.fst
  | .streamingRead _ | .rollback _ | .allocate _ | .setBad _ | .isExhausted | .onFailure _
  | .onCompletion | .sleepFor _ => none

end Call

def streamId (conn : ConnectionImpl σ) (rpc : σ) : Option String :=
  match PartialResultSetSource.create conn.reader conn.fuel rpc with
  | some (.ok source) =>
    let id := (ResultSource.partialResultSet source).transactionId
    if id = "" then none else some id
  | none | some (.error _) => none

structure Progress where
  session : Option String
  id : Option String
  ops : List Operation
  /-- The last operation has been answered, and not without an id. -/
  answered : Bool

namespace Progress

def selector (options : TransactionOptions) (g : Progress) : TransactionSelector :=
  match g.id with
  | some id => .id id
  | none => .begin options

def learn (g : Progress) (id : Option String) : Progress := { g with id := g.id.or id }

@[simp] theorem learn_none (g : Progress) : g.learn none = g := by
  simp [learn]

structure Names (options : TransactionOptions) (g : Progress) (session : String)
    (transaction : TransactionSelector) : Prop where
  session : g.session = some session
  transaction : transaction = g.selector options

structure Does (g : Progress) (seqno : Nat) (work : Work) : Prop where
  seqno : seqno = g.ops.length
  work : g.ops.getLast?.bind Operation.work = some work

end Progress

def Allows (options : TransactionOptions) (g : Progress) : Call → Prop
  | .allocate _ => g.session = none
  | .streamingRead request => g.Names options request.session request.transaction
  | .executeStreamingSql request =>
    g.Names options request.session request.transaction ∧ request.seqno = g.ops.length ∧
      g.ops.getLast?.bind Operation.query = some (.sql request.statement request.queryMode)
  | .rpc (.partitionRead request) => g.Names options request.session request.transaction
  | .rpc (.partitionQuery request) => g.Names options request.session request.transaction
  | .rpc (.executeSql request) => g.Names options request.session request.transaction ∧
    g.Does request.seqno (.sql request.statement request.queryMode)
  | .rpc (.executeBatchDml request) => g.Names options request.session request.transaction ∧
    g.Does request.seqno (.batch request.statements)
  | .rpc (.beginTransaction request) =>
    g.session = some request.session ∧ g.id = none ∧ request.options = options
  | .rpc (.commit request) => g.session = some request.session ∧
    g.id = some request.transactionId ∧ g.ops.getLast? = some (.commit request.mutations)
  | .rollback request => g.session = some request.session ∧
    g.id = some request.transactionId ∧ g.ops.getLast? = some .rollback
  | .setBad _ | .isExhausted | .onFailure _ | .onCompletion | .sleepFor _ => True

def Progress.next (conn : ConnectionImpl σ) (g : Progress) : (c : Call) → Reply σ χ c → Progress
  | .allocate _, .ok session => { g with session := some session.name }
  | .streamingRead _, rpc => g.learn (conn.streamId rpc)
  | .executeStreamingSql _, rpc => g.learn (conn.streamId rpc)
  | .rpc (.executeSql request), .ok response =>
    let g := g.learn ((Rpc.executeSql request).learned response)
    { g with answered := g.id.isSome }
  | .rpc (.executeBatchDml request), .ok response =>
    let g := g.learn ((Rpc.executeBatchDml request).learned response)
    { g with answered := g.id.isSome || response.status.ok }
  | .rpc (.commit _), .ok _ => { g with answered := true }
  | .rpc rpc, .ok response => g.learn (rpc.learned response)
  | _, _ => g

theorem Progress.next_failure {conn : ConnectionImpl σ} {g : Progress} {rpc : Rpc} {e : Failure} :
    g.next (χ := χ) conn (.rpc rpc) (.error e) = g := by
  cases rpc <;> rfl

structure Progress.Permits (g : Progress) (c : Call) : Prop where
  session {name : String} : c.session = some name → g.session = some name
  named {id : String} : c.named = some id → g.id = some id
  begins : c.begins = true → g.id = none
  seqno {n : Nat} : c.seqno = some n → n = g.ops.length
  work {n : Nat} {work : Work} : c.work = some (n, work) → g.Does n work
  query {work : Work} : c.query = some work → g.ops.getLast?.bind Operation.query = some work

theorem Progress.Names.hasBegin {options : TransactionOptions} {g : Progress} {session : String}
    {transaction : TransactionSelector} (h : g.Names options session transaction) :
    (∀ id, transaction.named = some id → g.id = some id) ∧
      (transaction.hasBegin = true → g.id = none) := by
  rw [h.transaction, Progress.selector]
  cases g.id <;> simp [TransactionSelector.named]

theorem Progress.Names.permits {options : TransactionOptions} {g : Progress} {session : String}
    {transaction : TransactionSelector} {c : Call} (h : g.Names options session transaction)
    (hsession : c.session = some session) (hnamed : c.named = transaction.named)
    (hbegins : c.begins = transaction.hasBegin) (hseqno : ∀ n, c.seqno = some n → n = g.ops.length)
    (hwork : ∀ n work, c.work = some (n, work) → g.Does n work)
    (hquery : ∀ work, c.query = some work → g.ops.getLast?.bind Operation.query = some work) :
    g.Permits c where
  session hname := by
    rw [h.session, ← hsession, hname]
  named hid := h.hasBegin.1 _ (hnamed ▸ hid)
  begins hbegin := h.hasBegin.2 (hbegins ▸ hbegin)
  seqno := hseqno _
  work := hwork _ _
  query := hquery _

theorem permits_of_allows {options : TransactionOptions} {g : Progress} {c : Call}
    (h : Allows options g c) : g.Permits c := by
  cases c with
  | streamingRead request =>
    exact h.permits rfl rfl rfl (fun _ => nofun) (fun _ _ => nofun) fun _ => nofun
  | executeStreamingSql request =>
    refine h.1.permits rfl rfl rfl (fun n hn => ?_) (fun _ _ => nofun) fun work hquery => ?_
    · cases hn
      exact h.2.1
    · cases hquery
      exact h.2.2
  | rpc rpc =>
    cases rpc with
    | partitionRead request | partitionQuery request =>
      exact Progress.Names.permits h rfl rfl rfl (fun _ => nofun) (fun _ _ => nofun) fun _ => nofun
    | executeSql request | executeBatchDml request =>
      refine h.1.permits rfl rfl rfl (fun n hn => ?_) (fun n work hwork => ?_) fun _ => nofun
      · cases hn
        exact h.2.seqno
      · cases hwork
        exact h.2
    | beginTransaction request =>
      refine ⟨fun hname => ?_, nofun, fun _ => h.2.1, nofun, nofun, nofun⟩
      cases hname
      exact h.1
    | commit request =>
      refine ⟨fun hname => ?_, fun hid => ?_, nofun, nofun, nofun, nofun⟩
      · cases hname
        exact h.1
      · cases hid
        exact h.2.1
  | rollback request =>
    refine ⟨fun hname => ?_, fun hid => ?_, nofun, nofun, nofun, nofun⟩
    · cases hname
      exact h.1
    · cases hid
      exact h.2.1
  | allocate | setBad | isExhausted | onFailure | onCompletion | sleepFor =>
    exact ⟨nofun, nofun, nofun, nofun, nofun, nofun⟩

def contract (conn : ConnectionImpl σ) (options : TransactionOptions) :
    Contract (Reply σ χ) Progress where
  allows := Allows options
  next := Progress.next conn

structure Stands (options : TransactionOptions) (ops : List Operation)
    (t : TransactionImpl (SessionHolder χ)) (g : Progress) : Prop where
  session : g.session = t.session.map fun holder => holder.session.name
  selector : t.selector = g.selector options
  ops : g.ops = ops
  seqno : t.seqno = g.ops.length

variable {conn : ConnectionImpl σ} {options : TransactionOptions} {ops : List Operation}
  {seqno : Nat} {t t' : TransactionImpl (SessionHolder χ)} {g g' : Progress}
  {holder : SessionHolder χ}

namespace Stands

theorem names (h : Stands options ops t g) (hsession : t.session = some holder) :
    g.Names options holder.session.name t.selector where
  session := by rw [h.session, hsession]; rfl
  transaction := h.selector

theorem hasBegin_iff (h : Stands options ops t g) :
    t.selector.hasBegin = true ↔ g.id = none := by
  rw [h.selector, Progress.selector]
  cases g.id <;> simp

theorem selects (h : Stands options ops t g) :
    (t.selector = .begin options ∧ g.id = none) ∨ ∃ id, t.selector = .id id ∧ g.id = some id := by
  rw [h.selector, Progress.selector]
  cases g.id with
  | none => exact .inl ⟨rfl, rfl⟩
  | some id => exact .inr ⟨id, rfl, rfl⟩

theorem learn (h : Stands options ops t g) (hbegin : t.selector.hasBegin = false)
    (id : Option String) : Stands options ops t (g.learn id) := by
  cases hid : g.id with
  | none => rw [h.hasBegin_iff.mpr hid] at hbegin; cases hbegin
  | some known =>
    have hsame : g.learn id = g := by rw [Progress.learn, hid, Option.some_or, ← hid]
    rw [hsame]
    exact h

theorem setId (h : Stands options ops t g) (hbegin : t.selector.hasBegin = true)
    (id : String) : Stands options ops { t with selector := .id id } (g.learn (some id)) where
  session := h.session
  selector := by rw [Progress.selector, Progress.learn, h.hasBegin_iff.mp hbegin]; rfl
  ops := h.ops
  seqno := h.seqno

theorem answered (h : Stands options ops t g) (answered : Bool) :
    Stands options ops t { g with answered } := ⟨h.session, h.selector, h.ops, h.seqno⟩

end Stands

theorem keeps_policies (I : TransactionImpl (SessionHolder χ) → Progress → Prop) :
    (policies (σ := σ)).Keeps (contract conn options) I where
  isExhausted h := ⟨trivial, fun _ => h⟩
  onFailure _ h := ⟨trivial, fun _ => h⟩
  backoff h := ⟨trivial, fun _ => ⟨trivial, fun _ => h⟩⟩

def Progress.responded (χ : Type) (conn : ConnectionImpl σ) (g : Progress) (rpc : Rpc) :
    Except Abort (StatusOr rpc.Response) → Progress
  | .ok (.ok response) => Progress.next (χ := χ) conn g (.rpc rpc) (.ok response)
  | .ok (.error _) | .error _ => g

theorem keeps_call {rpc : Rpc} {location : String} (h : Allows options g (.rpc rpc)) :
    (conn.call rpc location : Op σ χ _).Keeps (contract conn options)
      (fun result t' g' => t' = t ∧ g' = g.responded χ conn rpc result) t g := by
  have hloop : (conn.call rpc location : Op σ χ _).Keeps (contract conn options)
      (RetryLoop.Settles (fun t' g' => t' = t ∧ g' = g)
        fun result t' g' => t' = t ∧ g' = g.responded χ conn rpc (.ok result)) t g := by
    refine RetryLoop.settles_loop (keeps_policies _) ?_ ?_ ⟨rfl, rfl⟩
    · rintro status a t' g' hstatus ⟨rfl, rfl⟩
      simp only [RetryResult.ofStatus] at hstatus
      split at hstatus <;> cases hstatus
      exact RetryLoop.settles_failure.mpr ⟨rfl, rfl⟩
    · rintro t' g' ⟨rfl, rfl⟩
      refine (keeps_perform (e := Call.rpc rpc)).mpr ⟨h, fun r => ?_⟩
      cases r with
      | error e => exact RetryLoop.settles_failure.mpr ⟨rfl, Progress.next_failure⟩
      | ok response => exact ⟨rfl, rfl⟩
  refine hloop.mono fun result t' g' hsettles => ?_
  match result with
  | .error _ => exact hsettles
  | .ok (.error e) =>
    exact (RetryLoop.settles_failure (I := fun t' g' => t' = t ∧ g' = g)).mp hsettles
  | .ok (.ok response) => exact hsettles

theorem keeps_rollback {request : RollbackRequest} {location : String}
    (h : Allows options g (.rollback request)) :
    (RetryLoop.retryLoop policies conn.print true (perform (Call.rollback request)) location
      conn.fuel : Op σ χ Status).Keeps (contract conn options)
      (fun _ t' g' => t' = t ∧ g' = g) t g := by
  have hloop : (RetryLoop.retryLoop policies conn.print true (perform (Call.rollback request))
      location conn.fuel : Op σ χ Status).Keeps (contract conn options)
      (RetryLoop.Settles (fun t' g' => t' = t ∧ g' = g) fun _ t' g' => t' = t ∧ g' = g) t g := by
    refine RetryLoop.settles_loop (keeps_policies _) ?_ ?_ ⟨rfl, rfl⟩
    · rintro status a t' g' - hkept
      simpa [RetryLoop.Settles] using hkept
    · rintro t' g' ⟨rfl, rfl⟩
      refine (keeps_perform (e := Call.rollback request)).mpr ⟨h, fun r => ?_⟩
      simp only [RetryLoop.Settles, contract, Progress.next, and_self, ite_self]
  refine hloop.mono fun result t' g' hsettles => ?_
  cases result with
  | error x => exact hsettles
  | ok status => simpa [RetryLoop.Settles] using hsettles

def Prepared (options : TransactionOptions) (ops : List Operation)
    (t : TransactionImpl (SessionHolder χ)) (g : Progress) :
    Except Abort (StatusOr (SessionHolder χ)) → TransactionImpl (SessionHolder χ) → Progress → Prop
  | .ok (.ok holder), t', g' =>
    Stands options ops t' g' ∧ g'.answered = g.answered ∧ t'.session = some holder
  | .ok (.error _), t', g' => t' = t ∧ g' = g
  | .error _, _, _ => False

theorem keeps_prepareSession {dissociate : Bool} (h : Stands options ops t g) :
    (prepareSession dissociate : Op σ χ _).Keeps (contract conn options)
      (Prepared options ops t g) t g := by
  rw [prepareSession, keeps_get_bind]
  split
  · next hsession => exact ⟨h, rfl, hsession⟩
  · next hsession =>
    refine (keeps_perform_bind (e := Call.allocate dissociate)).mpr ⟨?_, fun reply => ?_⟩
    · show g.session = none
      rw [h.session, hsession]
      rfl
    · cases reply with
      | error e => exact ⟨rfl, rfl⟩
      | ok session => exact ⟨⟨rfl, h.selector, h.ops, h.seqno⟩, rfl, rfl⟩

section

variable {α : Type} {post : Except Abort α → TransactionImpl (SessionHolder χ) → Progress → Prop}

theorem keeps_checkSession_then {status : Status} {a : α} (h : post (.ok a) t g) :
    (do checkSession holder status; return a : Op σ χ α).Keeps (contract conn options) post t
      g := by
  rw [checkSession]
  split
  · exact keeps_perform_bind.mpr ⟨trivial, fun _ => h⟩
  · exact h

theorem keeps_prepared {dissociate : Bool} {onError : Failure → α}
    {body : SessionHolder χ → Op σ χ α} (h : Stands options ops t g)
    (herror : ∀ e, post (.ok (onError e)) t g)
    (hbody : ∀ holder t' g', Stands options ops t' g' → g'.answered = g.answered →
      t'.session = some holder → (body holder).Keeps (contract conn options) post t' g') :
    (do
      match ← prepareSession dissociate with
      | .error e => return onError e
      | .ok holder => body holder : Op σ χ α).Keeps (contract conn options) post t g := by
  refine (keeps_prepareSession h).bind ?_ fun _ _ _ => False.elim
  rintro (e | holder) t' g' hprepared
  · obtain ⟨rfl, rfl⟩ := hprepared
    exact herror e
  · exact hbody holder t' g' hprepared.1 hprepared.2.1 hprepared.2.2

theorem keeps_checked {rpc : Rpc} {location : String} {onError : Failure → α}
    {next : StatusOr rpc.Response → Op σ χ α} (hallows : Allows options g (.rpc rpc))
    (herror : ∀ e, next (.error e) = do checkSession holder e.status; return onError e)
    (hfailed : ∀ e, post (.ok (onError e)) t g) (hthrown : ∀ x, post (.error x) t g)
    (hnext : ∀ response, (next (.ok response)).Keeps (contract conn options) post t
      (g.next (χ := χ) conn (.rpc rpc) (.ok response))) :
    (conn.call rpc location >>= next).Keeps (contract conn options) post t g := by
  refine (keeps_call hallows).bind ?_ ?_
  · rintro (e | response) t' g' ⟨rfl, rfl⟩
    · rw [herror]
      exact keeps_checkSession_then (hfailed e)
    · exact hnext response
  · rintro x t' g' ⟨rfl, rfl⟩
    exact hthrown x

end

def sourceId : Except Abort (StatusOr (ResultSource σ)) → Option String
  | .ok (.ok reader) => if reader.transactionId = "" then none else some reader.transactionId
  | .ok (.error _) | .error _ => none

def Fetched (hasWork : Prop) (t : TransactionImpl (SessionHolder χ)) (g : Progress)
    (result : Except Abort (StatusOr (ResultSource σ))) (t' : TransactionImpl (SessionHolder χ))
    (g' : Progress) : Prop :=
  t' = t ∧ ∃ answered, g' = { g.learn (sourceId result) with answered } ∧
    ∀ reader, result = .ok (.ok reader) → hasWork → answered = (g.learn (sourceId result)).id.isSome

theorem keeps_createSource {rpc : σ} : (conn.createSource rpc : Op σ χ _).Keeps
    (contract conn options) (Fetched False t g) t (g.learn (conn.streamId rpc)) := by
  have hfetched {result : Except Abort (StatusOr (ResultSource σ))}
      (hid : conn.streamId rpc = sourceId result) :
      Fetched False t g result t (g.learn (conn.streamId rpc)) :=
    ⟨rfl, g.answered, by rw [hid]; rfl, fun _ _ => False.elim⟩
  rw [createSource]
  split
  · next hcreate => exact hfetched (by simp [streamId, hcreate, sourceId])
  · next hcreate => exact hfetched (by simp [streamId, hcreate, sourceId])
  · next hcreate => exact hfetched (by simp [streamId, hcreate, sourceId])

def Leaves {α : Type} (options : TransactionOptions) (ops : List Operation) (good : α → Prop)
    (result : Except Abort (StatusOr α)) (t : TransactionImpl (SessionHolder χ))
    (g : Progress) : Prop :=
  Stands options ops t g ∧ ∀ a, result = .ok (.ok a) → good a → g.answered = true

theorem Stands.leaves {α : Type} {good : α → Prop} {result : Except Abort (StatusOr α)}
    (h : Stands options ops t g) (hfailed : ∀ a, result ≠ .ok (.ok a)) :
    Leaves options ops good result t g :=
  ⟨h, fun a ha => absurd ha (hfailed a)⟩

theorem Stands.leaves_error {α : Type} {good : α → Prop} (h : Stands options ops t g)
    (e : Failure) : Leaves options ops good (.ok (.error e)) t g :=
  h.leaves fun _ ha => by cases ha

theorem Stands.leaves_throw {α : Type} {good : α → Prop} (h : Stands options ops t g)
    (x : Abort) : Leaves options ops good (.error x) t g :=
  h.leaves fun _ ha => by cases ha

theorem keeps_accept {α : Type} {good bad : α} {reader : ResultSource σ} {answered : Bool}
    {post : Except Abort α → TransactionImpl (SessionHolder χ) → Progress → Prop}
    (h : Stands options ops t g)
    (hgood : ∀ t', (g.learn (sourceId (.ok (.ok reader)))).id.isSome = true →
      Stands options ops t' { g.learn (sourceId (.ok (.ok reader))) with answered } →
        post (.ok good) t' { g.learn (sourceId (.ok (.ok reader))) with answered })
    (hbad : Stands options ops t { g.learn (sourceId (.ok (.ok reader))) with answered } →
      post (.ok bad) t { g.learn (sourceId (.ok (.ok reader))) with answered }) :
    (if t.selector.hasBegin = true then
        if reader.transactionId = "" then return bad
        else do
          ConnectionImpl.setId reader.transactionId
          return good
      else return good : Op σ χ α).Keeps (contract conn options) post t
        { g.learn (sourceId (.ok (.ok reader))) with answered } := by
  split
  · next hbegin =>
    split
    · next hid =>
      refine hbad (Stands.answered ?_ _)
      rw [sourceId, if_pos hid, Progress.learn_none]
      exact h
    · next hid =>
      refine hgood _ ?_ (Stands.answered ?_ _)
      · rw [sourceId, if_neg hid, Progress.learn, h.hasBegin_iff.mp hbegin]
        rfl
      · rw [sourceId, if_neg hid]
        exact h.setId hbegin _
  · next hbegin =>
    rw [Bool.not_eq_true] at hbegin
    refine hgood t ?_ ((h.learn hbegin _).answered _)
    rcases h.selects with ⟨hselector, -⟩ | ⟨id, -, hid⟩
    · rw [hselector] at hbegin
      cases hbegin
    · rw [Progress.learn, hid]
      rfl

theorem keeps_readImpl {params : ReadParams} (h : Stands options ops t g) :
    (conn.readImpl params : Op σ χ _).Keeps (contract conn options)
      (fun _ => Stands options ops) t g := by
  refine keeps_prepared h (fun _ => h) fun holder t g h _ hsession => ?_
  refine keeps_get_bind.mpr ((keeps_perform_bind (e := Call.streamingRead _)).mpr
    ⟨h.names hsession, fun rpc => ?_⟩)
  refine keeps_createSource.bind ?_ ?_
  · rintro (e | reader) t' g' ⟨rfl, answered, rfl, -⟩
    · rw [sourceId, Progress.learn_none]
      exact keeps_checkSession_then (h.answered _)
    · exact keeps_accept h (fun _ _ hstands => hstands) fun hstands => hstands
  · rintro x t' g' ⟨rfl, answered, rfl, -⟩
    rw [sourceId, Progress.learn_none]
    exact h.answered _

theorem keeps_executeSqlImpl {params : SqlParams} {queryMode : QueryMode} {hasWork : Prop}
    {retryResumeFn : ExecuteSqlRequest → Op σ χ (StatusOr (ResultSource σ))}
    (h : Stands options ops t g)
    (hfn : (retryResumeFn (executeSqlRequest holder t seqno params queryMode)).Keeps
      (contract conn options) (Fetched hasWork t g) t g) :
    (executeSqlImpl holder seqno params queryMode retryResumeFn).Keeps (contract conn options)
      (Leaves options ops fun _ => hasWork) t g := by
  rw [executeSqlImpl, keeps_get_bind]
  refine hfn.bind ?_ ?_
  · rintro (e | reader) t' g' ⟨rfl, answered, rfl, hanswered⟩
    · rw [sourceId, Progress.learn_none]
      exact (h.answered _).leaves_error e
    · refine keeps_accept h (fun t' hid hstands => ⟨hstands, fun _ _ hwork => ?_⟩) fun hstands =>
        hstands.leaves_error _
      exact (hanswered reader rfl hwork).trans hid
  · rintro x t' g' ⟨rfl, answered, rfl, -⟩
    rw [sourceId, Progress.learn_none]
    exact (h.answered _).leaves_throw x

theorem keeps_commonQueryImpl {params : SqlParams} {queryMode : QueryMode}
    (h : Stands options ops t g) (hseqno : seqno = ops.length)
    (hquery : ops.getLast?.bind Operation.query = some (.sql params.statement.toProto queryMode)) :
    (conn.commonQueryImpl seqno params queryMode : Op σ χ _).Keeps (contract conn options)
      (fun _ => Stands options ops) t g := by
  refine keeps_prepared h (fun _ => h) fun holder t g h _ hsession => ?_
  have hsql : (executeSqlImpl holder seqno params queryMode fun request => do
      let rpc ← perform (Call.executeStreamingSql request)
      conn.createSource rpc : Op σ χ _).Keeps (contract conn options)
      (Leaves options ops fun _ => False) t g :=
    keeps_executeSqlImpl h ((keeps_perform_bind (e := Call.executeStreamingSql _)).mpr
      ⟨⟨h.names hsession, by rw [h.ops]; exact hseqno, by rw [h.ops]; exact hquery⟩,
        fun rpc => keeps_createSource⟩)
  refine hsql.bind ?_ fun _ _ _ h => h.1
  rintro (e | reader) t' g' ⟨h, -⟩
  · exact keeps_checkSession_then h
  · exact h

theorem keeps_commonDmlImpl {params : SqlParams} {queryMode : QueryMode}
    (h : Stands options ops t g) (hseqno : seqno = ops.length)
    (hwork : ops.getLast?.bind Operation.work = some (.sql params.statement.toProto queryMode)) :
    (conn.commonDmlImpl seqno params queryMode : Op σ χ _).Keeps (contract conn options)
      (Leaves options ops fun _ => True) t g := by
  refine keeps_prepared h h.leaves_error fun holder t g h _ hsession => ?_
  refine keeps_executeSqlImpl h ?_
  refine keeps_checked ⟨h.names hsession, ?_, ?_⟩ (fun _ => rfl) ?_ ?_ ?_
  · rw [h.ops]
    exact hseqno
  · rw [h.ops]
    exact hwork
  · rintro e
    exact ⟨rfl, g.answered, by rw [sourceId, Progress.learn_none], nofun⟩
  · rintro x
    exact ⟨rfl, g.answered, by rw [sourceId, Progress.learn_none], nofun⟩
  · rintro response
    exact ⟨rfl, _, rfl, fun _ _ _ => rfl⟩

theorem keeps_analyzeSqlImpl {params : SqlParams} (h : Stands options ops t g)
    (hseqno : seqno = ops.length)
    (hwork : ops.getLast?.bind Operation.work = some (.sql params.statement.toProto .plan)) :
    (conn.analyzeSqlImpl seqno params : Op σ χ _).Keeps (contract conn options)
      (Leaves options ops fun _ => True) t g := by
  refine (keeps_commonDmlImpl h hseqno hwork).bind ?_ fun x _ _ h => h.1.leaves_throw x
  rintro (e | result) t' g' ⟨h, hanswered⟩
  · exact h.leaves_error e
  · exact ⟨h, fun _ _ => hanswered result rfl⟩

theorem keeps_record {α : Type} {good : StatusOr α} {id : String}
    (h : Stands options ops t g) :
    (if t.selector.hasBegin = true then do
        ConnectionImpl.setId id
        return good
      else return good : Op σ χ (StatusOr α)).Keeps (contract conn options)
        (fun _ => Stands options ops) t (g.learn (some id)) := by
  split
  · next hbegin => exact h.setId hbegin id
  · next hbegin => exact h.learn (Bool.not_eq_true _ ▸ hbegin) _

theorem keeps_partitioning {α : Type} {rpc : String → TransactionSelector → Rpc}
    {location : String} {id : ∀ session selector, (rpc session selector).Response → String}
    {make : ∀ session selector, (rpc session selector).Response → α}
    (hallows : ∀ g session selector, g.Names options session selector →
      Allows options g (.rpc (rpc session selector)))
    (hnext : ∀ g session selector response,
      Progress.next (χ := χ) conn g (.rpc (rpc session selector)) (.ok response) =
        g.learn (some (id session selector response)))
    (h : Stands options ops t g) :
    (conn.partitioning rpc location id make : Op σ χ _).Keeps (contract conn options)
      (fun _ => Stands options ops) t g := by
  refine keeps_prepared h (fun _ => h) fun holder t g h _ hsession => ?_
  rw [keeps_get_bind]
  refine keeps_checked (hallows _ _ _ (h.names hsession)) (fun _ => rfl) (fun _ => h) (fun _ => h)
    fun response => ?_
  rw [hnext]
  exact keeps_record h

theorem keeps_partitionReadImpl {params : PartitionReadParams} (h : Stands options ops t g) :
    (conn.partitionReadImpl params : Op σ χ _).Keeps (contract conn options)
      (fun _ => Stands options ops) t g := by
  rw [partitionReadImpl_eq]
  exact keeps_partitioning (fun _ _ _ hnames => hnames) (fun _ _ _ _ => rfl) h

theorem keeps_partitionQueryImpl {params : PartitionQueryParams} (h : Stands options ops t g) :
    (conn.partitionQueryImpl params : Op σ χ _).Keeps (contract conn options)
      (fun _ => Stands options ops) t g := by
  rw [partitionQueryImpl_eq]
  exact keeps_partitioning (fun _ _ _ hnames => hnames) (fun _ _ _ _ => rfl) h

theorem keeps_executeBatchDmlImpl {statements : List SqlStatement}
    (h : Stands options ops t g) (hseqno : seqno = ops.length)
    (hwork : ops.getLast?.bind Operation.work =
      some (.batch (statements.map SqlStatement.toProto))) :
    (conn.executeBatchDmlImpl seqno statements : Op σ χ _).Keeps (contract conn options)
      (Leaves options ops fun result => result.status.ok = true) t g := by
  refine keeps_prepared h h.leaves_error fun holder t g h _ hsession => ?_
  rw [keeps_get_bind]
  refine keeps_checked ⟨h.names hsession, ?_, ?_⟩ (fun _ => rfl) h.leaves_error
    h.leaves_throw fun response => ?_
  · rw [h.ops]
    exact hseqno
  · rw [h.ops]
    exact hwork
  · have hlearned : g.next (χ := χ) conn (.rpc (.executeBatchDml _)) (.ok response) =
        { g.learn (response.resultSets.head?.map ResultSet.transactionId) with
          answered := (g.learn (response.resultSets.head?.map ResultSet.transactionId)).id.isSome ||
            response.status.ok } := rfl
    have hanswered {id : Option String} (a : BatchDmlResult)
        (ha : (.ok (.ok ⟨response.resultSets.map fun resultSet =>
          (resultSet.stats.map ResultSetStats.rowCountExact).getD 0, response.status⟩) :
            Except Abort (StatusOr BatchDmlResult)) = .ok (.ok a))
        (hok : a.status.ok = true) : ((g.learn id).id.isSome || response.status.ok) = true := by
      cases ha
      rw [hok, Bool.or_true]
    simp only [hlearned]
    split
    · next hbegin =>
      cases hsets : response.resultSets with
      | nil =>
        rw [hsets] at hanswered
        rw [List.head?_nil, Option.map_none]
        refine ⟨Stands.answered ?_ _, hanswered⟩
        rw [Progress.learn_none]
        exact h
      | cons resultSet rest =>
        rw [hsets] at hanswered
        exact ⟨(h.setId hbegin resultSet.transactionId).answered _, hanswered⟩
    · next hbegin =>
      exact ⟨(h.learn (Bool.not_eq_true _ ▸ hbegin) _).answered _, hanswered⟩

theorem keeps_commitWithId {mutations : List Mutation} {id : String} (h : Stands options ops t g)
    (hsession : t.session = some holder) (hid : g.id = some id)
    (hop : ops.getLast? = some (.commit mutations)) :
    (conn.commitWithId holder mutations id : Op σ χ _).Keeps (contract conn options)
      (Leaves options ops fun _ => True) t g := by
  have hallows : Allows options g (.rpc (.commit ⟨holder.session.name, id, mutations⟩)) := by
    refine ⟨(h.names hsession).session, hid, ?_⟩
    rw [h.ops]
    exact hop
  exact keeps_checked hallows (fun _ => rfl) h.leaves_error h.leaves_throw fun _ =>
    ⟨h.answered true, fun _ _ _ => rfl⟩

theorem keeps_commitImpl {mutations : List Mutation} (h : Stands options ops t g)
    (hop : ops.getLast? = some (.commit mutations)) :
    (conn.commitImpl mutations : Op σ χ _).Keeps (contract conn options)
      (Leaves options ops fun _ => True) t g := by
  refine keeps_prepared h h.leaves_error fun holder t g h _ hsession => ?_
  rw [keeps_get_bind]
  rcases h.selects with ⟨hbegin, hnone⟩ | ⟨id, hid, hsome⟩
  · have hallows : Allows options g
        (.rpc (.beginTransaction ⟨holder.session.name, t.selector.options⟩)) :=
      ⟨(h.names hsession).session, hnone, by rw [hbegin]; rfl⟩
    rw [hbegin] at hallows ⊢
    refine keeps_checked hallows (fun _ => rfl) h.leaves_error h.leaves_throw fun response => ?_
    have hset := h.setId (by rw [hbegin]; rfl) response.id
    have hlearned : (g.learn (some response.id)).id = some response.id := by
      rw [Progress.learn, hnone]
      rfl
    exact keeps_modify_bind.mpr (keeps_commitWithId hset hsession hlearned hop)
  · rw [hid]
    exact keeps_commitWithId h hsession hsome hop

theorem keeps_rollbackImpl (h : Stands options ops t g) (hop : ops.getLast? = some .rollback) :
    (conn.rollbackImpl : Op σ χ _).Keeps (contract conn options)
      (fun _ => Stands options ops) t g := by
  refine keeps_prepared h (fun _ => h) fun holder t g h _ hsession => ?_
  rw [keeps_get_bind]
  rcases h.selects with ⟨hbegin, -⟩ | ⟨id, hid, hsome⟩
  · rw [hbegin]
    exact h
  · have hallows : Allows options g (.rollback ⟨holder.session.name, t.selector.getId⟩) := by
      refine ⟨(h.names hsession).session, by rw [hid]; exact hsome, ?_⟩
      rw [h.ops]
      exact hop
    rw [hid] at hallows ⊢
    refine (keeps_rollback hallows).bind ?_ ?_
    · rintro status t' g' ⟨rfl, rfl⟩
      exact keeps_checkSession_then h
    · rintro x t' g' ⟨rfl, rfl⟩
      exact h

def Done (options : TransactionOptions) (ops : List Operation) (op : Operation)
    (status : Except Abort Status) (t : TransactionImpl (SessionHolder χ)) (g : Progress) : Prop :=
  Stands options ops t g ∧
    ∀ s, status = .ok s → s.ok = true → op.hasAnswer = true → g.answered = true

theorem Stands.done_throw {op : Operation} (h : Stands options ops t g) (x : Abort) :
    Done options ops op (.error x) t g :=
  ⟨h, fun _ hs => by cases hs⟩

theorem keeps_report {α : Type} {op : Operation} {impl : Op σ χ α} {f : α → Status}
    (h : impl.Keeps (contract conn options) (fun _ => Stands options ops) t g)
    (hnone : op.hasAnswer = false) :
    (do return f (← impl) : Op σ χ Status).Keeps (contract conn options)
      (Done options ops op) t g := by
  have hdone {status : Except Abort Status} {t : TransactionImpl (SessionHolder χ)} {g : Progress}
      (h : Stands options ops t g) : Done options ops op status t g := by
    refine ⟨h, fun _ _ _ hanswer => ?_⟩
    rw [hnone] at hanswer
    cases hanswer
  exact h.bind (fun _ _ _ => hdone) fun _ _ _ => hdone

theorem keeps_report_answer {α : Type} {op : Operation} {impl : Op σ χ (StatusOr α)}
    {next : StatusOr α → Op σ χ Status} {f : α → Status}
    (h : impl.Keeps (contract conn options) (Leaves options ops fun a => (f a).ok = true) t g)
    (hfailed : ∀ e, next (.error e) = pure e.status) (hanswer : ∀ a, next (.ok a) = pure (f a)) :
    (impl >>= next).Keeps (contract conn options) (Done options ops op) t g := by
  refine h.bind ?_ fun x _ _ h => h.1.done_throw x
  rintro (e | a) t' g' ⟨h, hanswered⟩
  · rw [hfailed]
    refine ⟨h, fun s hs hok => ?_⟩
    cases hs
    cases e.not_ok.symm.trans hok
  · rw [hanswer]
    refine ⟨h, fun s hs hok _ => ?_⟩
    cases hs
    exact hanswered a rfl hok

theorem Leaves.of_trivial {α : Type} {good : α → Prop} {result : Except Abort (StatusOr α)}
    (h : Leaves options ops (fun _ => True) result t g) : Leaves options ops good result t g :=
  ⟨h.1, fun a ha _ => h.2 a ha trivial⟩

theorem keeps_functor {op : Operation} (h : Stands options ops t g) (hop : ops.getLast? = some op)
    (hgiven : ∀ statement, op ≠ .executePartitionedDml statement) :
    (conn.functor op ops.length : Op σ χ _).Keeps (contract conn options) (Done options ops op) t
      g := by
  have hwork {work : Work} (h : op.work = some work) :
      ops.getLast?.bind Operation.work = some work := by
    rw [hop]
    exact h
  cases op with
  | read params => exact keeps_report (keeps_readImpl h) rfl
  | partitionRead params => exact keeps_report (keeps_partitionReadImpl h) rfl
  | executeQuery params | profileQuery params =>
    exact keeps_report (keeps_commonQueryImpl h rfl (by rw [hop]; rfl)) rfl
  | partitionQuery params => exact keeps_report (keeps_partitionQueryImpl h) rfl
  | commit mutations =>
    exact keeps_report_answer (f := fun _ => .success)
      ((keeps_commitImpl h hop).mono fun _ _ _ => Leaves.of_trivial) (fun _ => rfl) fun _ => rfl
  | rollback => exact (keeps_rollbackImpl h hop).mono fun _ _ _ h => ⟨h, fun _ _ _ => nofun⟩
  | executeDml params | profileDml params =>
    exact keeps_report_answer (f := fun _ => .success)
      ((keeps_commonDmlImpl h rfl (hwork rfl)).mono fun _ _ _ => Leaves.of_trivial)
      (fun _ => rfl) fun _ => rfl
  | analyzeSql params =>
    exact keeps_report_answer (f := fun _ => .success)
      ((keeps_analyzeSqlImpl h rfl (hwork rfl)).mono fun _ _ _ => Leaves.of_trivial)
      (fun _ => rfl) fun _ => rfl
  | executeBatchDml statements =>
    exact keeps_report_answer (keeps_executeBatchDmlImpl h rfl (hwork rfl)) (fun _ => rfl)
      fun _ => rfl
  | executePartitionedDml statement => exact absurd rfl (hgiven statement)

end ConnectionImpl

end SpannerClient
