import SpannerClient.Internal.BeginSelector
import SpannerClient.Internal.RequestContract
import SpannerClient.Library.Embedding

namespace SpannerClient

open Protobuf Program

theorem TransactionImpl.keeps_visit {ε ς γ α : Type} {ρ : ε → Type} {c : Contract ρ γ}
    {functor : Nat → Program ρ (TransactionImpl ς) Abort α}
    {post : Except Abort α → TransactionImpl ς → γ → Prop} {t : TransactionImpl ς} {g : γ}
    (hfunctor : ∀ state, (functor (t.seqno + 1)).Keeps c post
      { t with seqno := t.seqno + 1, state } g)
    (hstate : ∀ result t g state, post result t g → post result { t with state } g)
    (hblocked : post (.error .outOfFuel) { t with seqno := t.seqno + 1 } g) :
    (visit functor).Keeps c post t g := by
  rw [visit, keeps_modify_bind, keeps_get_bind]
  split
  · exact hblocked
  · exact hfunctor t.state
  · rw [keeps_modify_bind]
    have hbody : (do
        let result ← functor (t.seqno + 1)
        modify TransactionImpl.settle
        return result : Program ρ (TransactionImpl ς) Abort α).Keeps c post
        { t with seqno := t.seqno + 1, state := .pending } g :=
      (hfunctor .pending).bind
        (fun _ _ _ h => keeps_modify_bind.mpr (hstate _ _ _ _ h)) fun _ _ _ h => h
    refine hbody.recover (fun _ _ _ h => h) fun x t' g' h => ?_
    cases x with
    | invalidArgument => exact keeps_modify_bind.mpr (hstate _ _ _ _ h)
    | outOfFuel => exact h

/-- The operations that are given a transaction: `ExecutePartitionedDml()` makes one of its own. -/
structure GivenOperation where
  op : Operation
  given : ∀ statement, op ≠ .executePartitionedDml statement

namespace TransactionUse

open ConnectionImpl

inductive Told
  | nothing
  | threw
  | reported (status : Status)

inductive Call
  | choose (told : Told)
  | op (call : ConnectionImpl.Call)

@[reducible] def Reply (σ χ : Type) : Call → Type
  | .choose _ => Option GivenOperation
  | .op call => ConnectionImpl.Reply σ χ call

variable {σ χ : Type}

def operations : @Embedding ConnectionImpl.Call Call (ConnectionImpl.Reply σ χ) (Reply σ χ) where
  call := .op
  reply _ r := r

abbrev Use (σ χ α : Type) :=
  Program (ε := Call) (Reply σ χ) (TransactionImpl (SessionHolder χ)) Abort α

def tell (op : Use σ χ Status) : Use σ χ Told :=
  recover (do return .reported (← op)) fun
    | .invalidArgument => return .threw
    | .outOfFuel => throw .outOfFuel

def use (conn : ConnectionImpl σ) : Nat → Told → Use σ χ Unit
  | 0, _ => throw .outOfFuel
  | fuel + 1, told => do
    match ← perform (Call.choose told) with
    | none => return ()
    | some given =>
      let told ← tell ((conn.operate given.op).embed operations)
      use conn fuel told

namespace Told

def Holds (g : Progress) : Told → Prop
  | .reported status => status.ok = true →
    ∀ op, g.ops.getLast? = some op → op.hasAnswer = true → g.answered = true
  | .nothing | .threw => True

end Told

def next (conn : ConnectionImpl σ) (g : Progress) : (c : Call) → Reply σ χ c → Progress
  | .choose _, some given => { g with ops := g.ops ++ [given.op], answered := false }
  | .choose _, none => g
  | .op call, r => g.next conn call r

def contract (conn : ConnectionImpl σ) (options : TransactionOptions) :
    Contract (ε := Call) (Reply σ χ) Progress where
  allows g
    | .choose told => told.Holds g
    | .op call => Allows options g call
  next := next conn

theorem contract_extends (conn : ConnectionImpl σ) (options : TransactionOptions) :
    (contract (χ := χ) conn options).Extends operations (ConnectionImpl.contract conn options)
      (fun g => g) fun _ => True where
  allows _ h := h
  inv _ _ _ := trivial
  next _ _ _ := rfl

variable {conn : ConnectionImpl σ} {options : TransactionOptions} {ops : List Operation}
  {t : TransactionImpl (SessionHolder χ)} {g : Progress}

theorem stands_state (h : Stands options ops t g) (state : TransactionImpl.State) :
    Stands options ops { t with state } g := ⟨h.session, h.selector, h.ops, h.seqno⟩

theorem keeps_operate {op : Operation} (h : Stands options ops { t with seqno := t.seqno + 1 } g)
    (hop : ops.getLast? = some op) (hgiven : ∀ statement, op ≠ .executePartitionedDml statement) :
    (conn.operate op : Op σ χ _).Keeps (ConnectionImpl.contract conn options)
      (Done options ops op) t g := by
  have hseqno : t.seqno + 1 = ops.length := by
    rw [← h.ops]
    exact h.seqno
  refine TransactionImpl.keeps_visit (fun state => ?_)
    (fun _ _ _ state h => ⟨stands_state h.1 state, h.2⟩) (h.done_throw _)
  have hstands := stands_state h state
  rw [hseqno] at hstands ⊢
  exact keeps_functor hstands hop hgiven

theorem stands_chosen (h : Stands options ops t g) (op : Operation) :
    Stands options (ops ++ [op]) { t with seqno := t.seqno + 1 }
      { g with ops := g.ops ++ [op], answered := false } where
  session := h.session
  selector := h.selector
  ops := by rw [h.ops]
  seqno := by simp [h.seqno]

theorem keeps_tell {op : Operation} (h : Stands options ops { t with seqno := t.seqno + 1 } g)
    (hop : ops.getLast? = some op) (hgiven : ∀ statement, op ≠ .executePartitionedDml statement) :
    (tell ((conn.operate op).embed operations) : Use σ χ Told).Keeps (contract conn options)
      (fun result t' g' => Stands options ops t' g' ∧
        ∀ told, result = .ok told → told.Holds g') t g := by
  have hoperate : ((conn.operate op).embed operations : Use σ χ Status).Keeps
      (contract conn options) (fun result t' g' => True ∧ Done options ops op result t' g') t g :=
    (keeps_operate h hop hgiven).embed (contract_extends conn options) trivial
  have hreport : (do return .reported (← (conn.operate op).embed operations) :
      Use σ χ Told).Keeps (contract conn options) (fun result t' g' => Stands options ops t' g' ∧
        ∀ told, result = .ok told → told.Holds g') t g := by
    refine hoperate.bind ?_ fun _ _ _ h => ⟨h.2.1, fun _ htold => by cases htold⟩
    rintro status t' g' ⟨-, h, hanswered⟩
    refine ⟨h, fun told htold => ?_⟩
    cases htold
    intro hok op' hop' hanswer
    rw [h.ops, hop] at hop'
    cases hop'
    exact hanswered status rfl hok hanswer
  refine hreport.recover (fun _ _ _ h => h) fun x t' g' h => ?_
  cases x with
  | invalidArgument =>
    refine ⟨h.1, fun told htold => ?_⟩
    cases htold
    trivial
  | outOfFuel => exact ⟨h.1, fun _ htold => by cases htold⟩

def Stood (options : TransactionOptions) (result : Except Abort Unit)
    (t : TransactionImpl (SessionHolder χ)) (g : Progress) : Prop :=
  result = .ok () → Stands options g.ops t g

theorem keeps_use {fuel : Nat} {told : Told} (h : Stands options g.ops t g) (htold : told.Holds g) :
    (use conn fuel told : Use σ χ Unit).Keeps (contract conn options) (Stood options) t g := by
  have hthrow (x : Abort) (t : TransactionImpl (SessionHolder χ)) (g : Progress) :
      Stood options (.error x) t g := fun hok => by cases hok
  induction fuel generalizing t g told with
  | zero => exact hthrow _ t g
  | succ fuel ih =>
    refine (keeps_perform_bind (e := Call.choose told)).mpr ⟨htold, fun choice => ?_⟩
    cases choice with
    | none => exact fun _ => h
    | some given =>
      refine (keeps_tell (stands_chosen h given.op) (by simp) given.given).bind ?_
        fun x t g _ => hthrow x t g
      rintro told t' g' ⟨h, htold⟩
      refine ih ?_ (htold told rfl)
      rw [h.ops]
      exact h

abbrev Trace (σ χ : Type) := List (Sigma (Reply σ χ))

def chosen (tr : Trace σ χ) : List Operation :=
  tr.filterMap fun
    | ⟨.choose _, some given⟩ => some given.op
    | ⟨.choose _, none⟩ | ⟨.op _, _⟩ => none

variable {tr tr' : Trace σ χ}

theorem chosen_append : chosen (tr ++ tr') = chosen tr ++ chosen tr' := List.filterMap_append

theorem ops_next (g : Progress) (call : ConnectionImpl.Call) (r : ConnectionImpl.Reply σ χ call) :
    (g.next conn call r).ops = g.ops := by
  cases call with
  | allocate => cases r <;> rfl
  | rpc rpc => cases rpc <;> cases r <;> rfl
  | streamingRead | executeStreamingSql | rollback | setBad | isExhausted | onFailure | onCompletion
  | sleepFor => rfl

theorem ops_after (g : Progress) :
    ((contract conn options).after g tr).ops = g.ops ++ chosen tr := by
  induction tr generalizing g with
  | nil => simp [Contract.after, chosen]
  | cons exchange tr ih =>
    obtain ⟨call, r⟩ := exchange
    rw [← List.singleton_append, Contract.after_append, ih, chosen_append, ← List.append_assoc]
    congr 1
    cases call with
    | choose told => cases r <;> simp [Contract.after, contract, next, chosen]
    | op call => simp [Contract.after, contract, next, chosen, ops_next]

structure Leads (g g' : Progress) : Prop where
  session {name : String} : g.session = some name → g'.session = some name
  id {id : String} : g.id = some id → g'.id = some id
  ops : g.ops <+: g'.ops

theorem Leads.refl (g : Progress) : Leads g g := ⟨fun h => h, fun h => h, List.prefix_refl _⟩

theorem Leads.trans {g₁ g₂ g₃ : Progress} (h : Leads g₁ g₂) (h' : Leads g₂ g₃) : Leads g₁ g₃ :=
  ⟨fun hname => h'.session (h.session hname), fun hid => h'.id (h.id hid), h.ops.trans h'.ops⟩

theorem leads_learn (g : Progress) (id : Option String) : Leads g (g.learn id) := by
  refine ⟨fun h => h, fun hid => ?_, List.prefix_refl _⟩
  rw [Progress.learn, hid]
  rfl

theorem leads_answered (g : Progress) (answered : Bool) : Leads g { g with answered } :=
  ⟨fun h => h, fun h => h, List.prefix_refl _⟩

theorem leads_next {c : Call} (h : (contract (χ := χ) conn options).allows g c) (r : Reply σ χ c) :
    Leads g (next conn g c r) := by
  cases c with
  | choose told =>
    cases r with
    | none => exact .refl g
    | some given => exact ⟨fun h => h, fun h => h, List.prefix_append _ _⟩
  | op call =>
    cases call with
    | allocate dissociate =>
      cases r with
      | error e => exact .refl g
      | ok session =>
        refine ⟨fun hname => ?_, fun h => h, List.prefix_refl _⟩
        have hnone : g.session = none := h
        rw [hnone] at hname
        cases hname
    | streamingRead request | executeStreamingSql request => exact leads_learn g _
    | rpc rpc =>
      cases r with
      | error e =>
        show Leads g (g.next (χ := χ) conn (.rpc rpc) (.error e))
        rw [Progress.next_failure]
        exact .refl g
      | ok response =>
        cases rpc with
        | executeSql request | executeBatchDml request =>
          exact (leads_learn g _).trans (leads_answered _ _)
        | commit request => exact leads_answered g true
        | partitionRead | partitionQuery | beginTransaction => exact leads_learn g _
    | rollback | setBad | isExhausted | onFailure | onCompletion | sleepFor => exact .refl g

def Asks (tr before : Trace σ χ) (call : ConnectionImpl.Call) : Prop :=
  ∃ r after, tr = before ++ ⟨.op call, r⟩ :: after

/-- The requests of a run name one session and one transaction, which is not begun once it has been
named, and their sequence numbers and work are those of the operations. -/
structure Coherent (session id : Option String) (tr : Trace σ χ) : Prop where
  session {before : Trace σ χ} {call : ConnectionImpl.Call} {name : String} :
    Asks tr before call → call.session = some name → session = some name
  named {before : Trace σ χ} {call : ConnectionImpl.Call} {x : String} :
    Asks tr before call → call.named = some x → id = some x
  begins {before earlier : Trace σ χ} {call call' : ConnectionImpl.Call} :
    Asks tr before call → call.begins = true → Asks before earlier call' → call'.named = none
  seqno {before : Trace σ χ} {call : ConnectionImpl.Call} {n : Nat} :
    Asks tr before call → call.seqno = some n → n = (chosen before).length
  work {before : Trace σ χ} {call : ConnectionImpl.Call} {n : Nat} {work : Work} :
    Asks tr before call → call.work = some (n, work) →
      (chosen before).getLast?.bind Operation.work = some work
  query {before : Trace σ χ} {call : ConnectionImpl.Call} {work : Work} :
    Asks tr before call → call.query = some work →
      (chosen before).getLast?.bind Operation.query = some work

theorem leads_after (h : (contract conn options).Obeys g tr) :
    Leads g ((contract conn options).after g tr) :=
  h.carries Leads.refl Leads.trans fun r hallows => leads_next hallows r

theorem exists_permits {before : Trace σ χ} {call : ConnectionImpl.Call}
    (h : (contract conn options).Obeys g tr) (hasks : Asks tr before call) :
    ((contract conn options).after g before).Permits call ∧
      Leads ((contract conn options).after g before) ((contract conn options).after g tr) := by
  obtain ⟨r, after, rfl⟩ := hasks
  obtain ⟨-, hobeys⟩ := Contract.obeys_append.mp h
  refine ⟨permits_of_allows hobeys.1, ?_⟩
  rw [Contract.after_append]
  exact leads_after hobeys

theorem coherent_of_obeys (h : (contract conn options).Obeys g tr) (hops : g.ops = []) :
    Coherent ((contract conn options).after g tr).session ((contract conn options).after g tr).id
      tr where
  session hasks hname := by
    obtain ⟨hpermits, hleads⟩ := exists_permits h hasks
    exact hleads.session (hpermits.session hname)
  named hasks hid := by
    obtain ⟨hpermits, hleads⟩ := exists_permits h hasks
    exact hleads.id (hpermits.named hid)
  begins {before earlier call call'} hasks hbegins hearlier := by
    have hnone := (exists_permits h hasks).1.begins hbegins
    obtain ⟨r, after, rfl⟩ := hasks
    obtain ⟨hpermits, hleads⟩ := exists_permits (Contract.obeys_append.mp h).1 hearlier
    by_contra hnamed
    obtain ⟨x, hx⟩ := Option.ne_none_iff_exists'.mp hnamed
    have hknown := hleads.id (hpermits.named hx)
    rw [hnone] at hknown
    cases hknown
  seqno hasks hseqno := by
    have hn := (exists_permits h hasks).1.seqno hseqno
    rwa [ops_after, hops, List.nil_append] at hn
  work hasks hwork := by
    have hlast := ((exists_permits h hasks).1.work hwork).work
    rwa [ops_after, hops, List.nil_append] at hlast
  query hasks hquery := by
    have hlast := (exists_permits h hasks).1.query hquery
    rwa [ops_after, hops, List.nil_append] at hlast

def initial (session? : Option (SessionHolder χ)) (id? : Option String) : Progress :=
  ⟨session?.map fun holder => holder.session.name, id?, [], true⟩

def start (options : TransactionOptions) (session? : Option (SessionHolder χ))
    (id? : Option String) : TransactionImpl (SessionHolder χ) :=
  .make session? ((initial session? id?).selector options)

theorem stands_start (session? : Option (SessionHolder χ)) (id? : Option String) :
    Stands options [] (start options session? id?) (initial session? id?) := ⟨rfl, rfl, rfl, rfl⟩

/-- However an application goes about one transaction, and whatever comes back, its requests are
those of one transaction in one session. -/
theorem requests_coherent {fuel : Nat} {session? : Option (SessionHolder χ)} {id? : Option String}
    {result : Except Abort Unit} {t' : TransactionImpl (SessionHolder χ)}
    (hrun : (use conn fuel .nothing).Runs (start options session? id?) tr result t') :
    ∃ session id, Coherent session id tr ∧
      (∀ holder, session? = some holder → session = some holder.session.name) ∧
      ∀ x, id? = some x → id = some x := by
  have hkeeps : (use conn fuel .nothing : Use σ χ Unit).Keeps (contract conn options)
      (Stood options) (start options session? id?) (initial session? id?) :=
    keeps_use (stands_start session? id?) trivial
  have hobeys := Interaction.Keeps.obeys_of_runs hkeeps hrun
  have hleads := leads_after hobeys
  refine ⟨_, _, coherent_of_obeys hobeys rfl, fun holder hholder => ?_, fun x hx => ?_⟩
  · exact hleads.session (by rw [hholder]; rfl)
  · exact hleads.id hx

def insertion : SqlParams :=
  ⟨⟨"INSERT INTO Singers (SingerId) VALUES (1)", [], List.nodup_nil⟩, ⟨none⟩, none⟩

def inserts : GivenOperation := ⟨.executeDml insertion, fun _ h => by cases h⟩

def commits : GivenOperation := ⟨.commit [], fun _ h => by cases h⟩

def insertRequest : ExecuteSqlRequest :=
  ⟨"session", .begin .readWrite, insertion.statement.toProto, 1, .normal, "", none⟩

def inserted (id : String) : ResultSet :=
  ⟨some ⟨[], some ⟨id, none⟩⟩, some ⟨none, none, .exact 1⟩⟩

def tryAgain : Failure := .of .unavailable "try again" StatusCode.unavailable_ne_ok

def selection : SqlParams :=
  ⟨⟨"SELECT SingerId FROM Singers", [], List.nodup_nil⟩, ⟨none⟩, none⟩

def queries : GivenOperation := ⟨.executeQuery selection, fun _ h => by cases h⟩

def selected : ServerStream :=
  ⟨[⟨some ⟨[⟨"SingerId", .mk .int64 none []⟩], some ⟨"txn", none⟩⟩, [.stringValue "1"], false, "",
    none⟩], .success⟩

def queryingTrace : Trace ServerStream Unit :=
  [⟨.choose .nothing, some queries⟩, ⟨.op (.allocate false), .ok session⟩,
    ⟨.op (.executeStreamingSql
      ⟨"session", .begin .readWrite, selection.statement.toProto, 1, .normal, "", none⟩), selected⟩,
    ⟨.choose (.reported .success), some inserts⟩, ⟨.op .isExhausted, false⟩,
    ⟨.op (.rpc (.executeSql { insertRequest with transaction := .id "txn", seqno := 2 })),
      .error tryAgain⟩,
    ⟨.op (.onFailure ⟨.unavailable, "try again"⟩), true⟩, ⟨.op .onCompletion, (10 : Nat)⟩,
    ⟨.op (.sleepFor 10), ()⟩, ⟨.op .isExhausted, false⟩,
    ⟨.op (.rpc (.executeSql { insertRequest with transaction := .id "txn", seqno := 2 })),
      .ok (inserted "txn")⟩,
    ⟨.choose (.reported .success), some commits⟩, ⟨.op .isExhausted, false⟩,
    ⟨.op (.rpc (.commit ⟨"session", "txn", []⟩)), .ok ⟨⟨0, 0⟩⟩⟩,
    ⟨.choose (.reported .success), none⟩]

theorem requests_coherent_querying :
    ∃ session id, Coherent session id queryingTrace ∧
      (∀ holder, (none : Option (SessionHolder Unit)) = some holder →
        session = some holder.session.name) ∧ ∀ x, none = some x → id = some x := by
  have hrun : ∃ t', (use serverConn 4 .nothing).Runs (start .readWrite none none) queryingTrace
      (.ok ()) t' := by
    refine ⟨⟨.done, some ⟨session, false⟩, .id "txn", 3⟩, ?_⟩
    exact .call (.call (.call (.call (.call (.call (.call (.call (.call (.call (.call (.call
      (.call (.call (.call .ret))))))))))))))
  obtain ⟨_, hrun⟩ := hrun
  exact requests_coherent hrun

end TransactionUse

end SpannerClient
