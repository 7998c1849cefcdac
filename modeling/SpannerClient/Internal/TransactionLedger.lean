import SpannerClient.Internal.TransactionUse
import SpannerClient.Library.Network

namespace SpannerClient

open Protobuf Program

namespace TransactionUse

open ConnectionImpl

variable {σ χ : Type}

namespace Call

def isRemote : Call → Bool
  | .op (.streamingRead _) | .op (.executeStreamingSql _) | .op (.rpc _) | .op (.rollback _) => true
  | .choose _ | .op (.allocate _) | .op (.setBad _) | .op .isExhausted | .op (.onFailure _)
  | .op .onCompletion | .op (.sleepFor _) => false

def named : Call → Option String
  | .op call => call.named
  | .choose _ => none

def begins : Call → Bool
  | .op call => call.begins
  | .choose _ => false

def work : Call → Option (Nat × Work)
  | .op call => call.work
  | .choose _ => none

def reads : Call → Bool
  | .op (.streamingRead _) | .op (.executeStreamingSql _) | .op (.rpc (.partitionRead _))
  | .op (.rpc (.partitionQuery _)) => true
  | .choose _ | .op _ => false

theorem isRemote_of_begins {c : Call} (h : c.begins = true) : c.isRemote = true := by
  cases c with
  | choose told => cases h
  | op call =>
    cases call with
    | streamingRead | executeStreamingSql | rpc | rollback => rfl
    | allocate | setBad | isExhausted | onFailure | onCompletion | sleepFor => cases h

end Call

theorem Call.not_begins_of_named {c : Call} {id : String} (h : c.named = some id) :
    c.begins = false := by
  have hselector {transaction : TransactionSelector} (h : transaction.named = some id) :
      transaction.hasBegin = false := by
    cases transaction with
    | notSet | singleUse | id => rfl
    | begin => cases h
  cases c with
  | choose told => rfl
  | op call =>
    cases call with
    | streamingRead request | executeStreamingSql request => exact hselector h
    | rpc rpc =>
      cases rpc with
      | partitionRead request | partitionQuery request | executeSql request
      | executeBatchDml request => exact hselector h
      | beginTransaction => cases h
      | commit => rfl
    | allocate | rollback | setBad | isExhausted | onFailure | onCompletion | sleepFor => rfl

theorem Call.work_of_reads {c : Call} (h : c.reads = true) : c.work = none := by
  cases c with
  | choose told => rfl
  | op call =>
    cases call with
    | rpc rpc =>
      cases rpc with
      | partitionRead | partitionQuery | beginTransaction | commit => rfl
      | executeSql | executeBatchDml => cases h
    | allocate | streamingRead | executeStreamingSql | rollback | setBad | isExhausted | onFailure
    | onCompletion | sleepFor => rfl

def learned (conn : ConnectionImpl σ) : (c : Call) → Reply σ χ c → Option String
  | .op (.streamingRead _), r => conn.streamId r
  | .op (.executeStreamingSql _), r => conn.streamId r
  | .op (.rpc rpc), .ok response => rpc.learned response
  | _, _ => none

variable {conn : ConnectionImpl σ} {options : TransactionOptions} {g : Progress} {tr : Trace σ χ}

theorem id_next (g : Progress) (c : Call) (r : Reply σ χ c) :
    (next conn g c r).id = g.id.or (learned conn c r) := by
  cases c with
  | choose told => cases r <;> exact (Option.or_none ..).symm
  | op call =>
    cases call with
    | streamingRead request | executeStreamingSql request => rfl
    | allocate => cases r <;> exact (Option.or_none ..).symm
    | rpc rpc =>
      cases r with
      | error e => cases rpc <;> exact (Option.or_none ..).symm
      | ok response =>
        cases rpc with
        | commit request => exact (Option.or_none ..).symm
        | partitionRead | partitionQuery | executeSql | executeBatchDml | beginTransaction => rfl
    | rollback | setBad | isExhausted | onFailure | onCompletion | sleepFor =>
      exact (Option.or_none ..).symm

theorem begins_of_learned {c : Call} {r : Reply σ χ c} {id : String}
    (h : (contract (χ := χ) conn options).allows g c) (hnone : g.id = none)
    (hlearned : learned conn c r = some id) : c.begins = true := by
  have hbegin {session : String} {transaction : TransactionSelector}
      (h : g.Names options session transaction) : transaction.hasBegin = true := by
    rw [h.transaction, Progress.selector, hnone]
    rfl
  cases c with
  | choose told => cases hlearned
  | op call =>
    cases call with
    | streamingRead request => exact hbegin h
    | executeStreamingSql request => exact hbegin h.1
    | rpc rpc =>
      cases r with
      | error e => cases hlearned
      | ok response =>
        cases rpc with
        | partitionRead request | partitionQuery request => exact hbegin h
        | executeSql request | executeBatchDml request => exact hbegin h.1
        | beginTransaction request => rfl
        | commit request => cases hlearned
    | allocate | rollback | setBad | isExhausted | onFailure | onCompletion | sleepFor =>
      cases hlearned

theorem exists_learned {id : String} (h : (contract conn options).Obeys g tr) (hnone : g.id = none)
    (hid : ((contract conn options).after g tr).id = some id) :
    ∃ c ∈ tr, c.1.begins = true ∧ learned conn c.1 c.2 = some id := by
  induction tr generalizing g with
  | nil =>
    rw [Contract.after, List.foldl_nil, hnone] at hid
    cases hid
  | cons exchange tr ih =>
    have hnext : (next conn g exchange.1 exchange.2).id = learned conn exchange.1 exchange.2 := by
      rw [id_next, hnone, Option.none_or]
    cases hlearned : learned conn exchange.1 exchange.2 with
    | none =>
      rw [hlearned] at hnext
      obtain ⟨c, hc, hlearned⟩ := ih h.2 hnext hid
      exact ⟨c, List.mem_cons_of_mem _ hc, hlearned⟩
    | some id' =>
      have hkept := (leads_after h.2).id (hnext.trans hlearned)
      cases hkept.symm.trans hid
      exact ⟨exchange, List.mem_cons_self, begins_of_learned h.1 hnone hlearned, hlearned⟩

inductive RequestFor (n : Nat) (op : Operation) : Rpc → Prop
  | work {rpc : Rpc} {work : Work} : rpc.work = some (n, work) → op.work = some work →
    RequestFor n op rpc
  | commit {request : CommitRequest} : op = .commit request.mutations →
    RequestFor n op (.commit request)

/-- The first statement has failed, and so nothing has been begun. -/
def Refuses : (rpc : Rpc) → rpc.Response → Prop
  | .executeBatchDml request, response =>
    request.transaction.hasBegin = true ∧ response.resultSets = [] ∧ response.status.ok = false
  | .partitionRead _, _ | .partitionQuery _, _ | .executeSql _, _ | .beginTransaction _, _
  | .commit _, _ => False

def Answered (g : Progress) (tr : Trace σ χ) : Prop :=
  ∀ op, g.ops.getLast? = some op → op.hasAnswer = true → ∃ rpc response,
    ⟨.op (.rpc rpc), .ok response⟩ ∈ tr ∧ RequestFor g.ops.length op rpc ∧ ¬ Refuses rpc response

theorem Answered.snoc {g' : Progress} {c : Sigma (Reply σ χ)} (h : Answered g tr)
    (hops : g'.ops = g.ops) : Answered g' (tr ++ [c]) := by
  intro op hop hanswer
  rw [hops] at hop ⊢
  obtain ⟨rpc, response, hmem, hrest⟩ := h op hop hanswer
  exact ⟨rpc, response, List.mem_append_left _ hmem, hrest⟩

theorem answered_of_work {rpc : Rpc} {response : rpc.Response} {n : Nat} {work : Work}
    (hdoes : g.Does n work) (hwork : rpc.work = some (n, work))
    (hrefuses : ¬ Refuses rpc response) :
    Answered (g.next (χ := χ) conn (.rpc rpc) (.ok response))
      (tr ++ [⟨.op (.rpc rpc), .ok response⟩]) := by
  intro op hop hanswer
  rw [ops_next] at hop ⊢
  refine ⟨rpc, response, by simp, .work (hdoes.seqno ▸ hwork) ?_, hrefuses⟩
  have hlast := hdoes.work
  rw [hop] at hlast
  exact hlast

theorem answered_next {c : Call} {r : Reply σ χ c}
    (h : (contract (χ := χ) conn options).allows g c)
    (hanswered : g.answered = true → Answered g tr)
    (hnext : (next conn g c r).answered = true) : Answered (next conn g c r) (tr ++ [⟨c, r⟩]) := by
  cases c with
  | choose told =>
    cases r with
    | none => exact (hanswered hnext).snoc rfl
    | some given => cases hnext
  | op call =>
    cases call with
    | rpc rpc =>
      cases r with
      | error e =>
        have hsame : next conn g (.op (.rpc rpc)) (.error e) = g :=
          Progress.next_failure (χ := χ)
        rw [hsame] at hnext ⊢
        exact (hanswered hnext).snoc rfl
      | ok response =>
        cases rpc with
        | executeSql request => exact answered_of_work h.2 rfl id
        | executeBatchDml request =>
          refine answered_of_work h.2 rfl fun ⟨hbegin, hsets, hfailed⟩ => ?_
          have hnone : g.id = none := h.1.hasBegin.2 hbegin
          simp [next, Progress.next, Progress.learn, Rpc.learned, hsets, hnone, hfailed] at hnext
        | commit request =>
          intro op hop hanswer
          have hlast : g.ops.getLast? = some (.commit request.mutations) := h.2.2
          cases hlast.symm.trans hop
          exact ⟨_, response, List.mem_append_right _ (List.mem_singleton_self _), .commit rfl, id⟩
        | partitionRead | partitionQuery | beginTransaction => exact (hanswered hnext).snoc rfl
    | allocate => cases r <;> exact (hanswered hnext).snoc rfl
    | streamingRead | executeStreamingSql | rollback | setBad | isExhausted | onFailure
    | onCompletion | sleepFor => exact (hanswered hnext).snoc rfl

theorem answered_after (h : (contract conn options).Obeys g tr)
    (hstart : g.answered = true → Answered g ([] : Trace σ χ)) :
    ((contract conn options).after g tr).answered = true →
      Answered ((contract conn options).after g tr) tr := by
  induction tr using List.reverseRecOn with
  | nil => exact hstart
  | append_singleton tr exchange ih =>
    obtain ⟨hobeys, hlast⟩ := Contract.obeys_append.mp h
    rw [Contract.after_append]
    exact answered_next hlast.1 (ih hobeys)

inductive Ledger.State
  | active
  | committed (mutations : List Mutation)
  | rolledBack

structure Ledger where
  work : List (Nat × Work)
  state : Ledger.State

structure Server where
  ledger : String → Option Ledger

namespace Server

def set (server : Server) (id : String) (ledger : Ledger) : Server :=
  ⟨Function.update server.ledger id (some ledger)⟩

theorem ledger_set_self {server : Server} {id : String} {ledger : Ledger} :
    (server.set id ledger).ledger id = some ledger := Function.update_self ..

theorem ledger_set_of_ne {server : Server} {id id' : String} {ledger : Ledger} (h : id' ≠ id) :
    (server.set id ledger).ledger id' = server.ledger id' := Function.update_of_ne h ..

/-- Work is done once in a transaction, and not after work with a later sequence number.  A begin
is never recognised as one that has been served before. -/
inductive Serves (conn : ConnectionImpl σ) (server : Server) :
    (c : Call) → Reply σ χ c → Server → Prop
  | failed {rpc : Rpc} {e : Failure} : Serves conn server (.op (.rpc rpc)) (.error e) server
  | refused {rpc : Rpc} {response : rpc.Response} :
    Refuses rpc response → Serves conn server (.op (.rpc rpc)) (.ok response) server
  | read {c : Call} {r : Reply σ χ c} :
    c.reads = true → (c.begins = true → learned conn c r = none) → Serves conn server c r server
  | begun {c : Call} {r : Reply σ χ c} {id : String} :
    c.begins = true → learned conn c r = some id → server.ledger id = none →
      Serves conn server c r (server.set id ⟨c.work.toList, .active⟩)
  | worked {rpc : Rpc} {response : rpc.Response} {id : String} {p : Nat × Work} {ledger : Ledger} :
    rpc.named = some id → rpc.work = some p → server.ledger id = some ledger →
      ledger.state = .active → (∀ q ∈ ledger.work, q.1 < p.1) →
      Serves conn server (.op (.rpc rpc)) (.ok response)
        (server.set id { ledger with work := ledger.work ++ [p] })
  | replayed {rpc : Rpc} {response : rpc.Response} {id : String} {p : Nat × Work}
      {ledger : Ledger} :
    rpc.named = some id → rpc.work = some p → server.ledger id = some ledger →
      p.1 ∈ ledger.work.map Prod.fst → Serves conn server (.op (.rpc rpc)) (.ok response) server
  | committed {request : CommitRequest} {response : CommitResponse} {ledger : Ledger} :
    server.ledger request.transactionId = some ledger → ledger.state = .active →
      Serves conn server (.op (.rpc (.commit request))) (.ok response)
        (server.set request.transactionId { ledger with state := .committed request.mutations })
  | recommitted {request : CommitRequest} {response : CommitResponse} {ledger : Ledger} :
    server.ledger request.transactionId = some ledger →
      ledger.state = .committed request.mutations →
      Serves conn server (.op (.rpc (.commit request))) (.ok response) server
  | rolledBack {request : RollbackRequest} {status : Status} {ledger : Ledger} :
    server.ledger request.transactionId = some ledger → ledger.state = .active →
      Serves conn server (.op (.rollback request)) status
        (server.set request.transactionId { ledger with state := .rolledBack })
  | notRolledBack {request : RollbackRequest} {status : Status} :
    Serves conn server (.op (.rollback request)) status server

/-- A transaction may be aborted at any time before it is committed. -/
inductive Acts (server : Server) : Server → Prop
  | aborted {id : String} {ledger : Ledger} :
    server.ledger id = some ledger → ledger.state = .active →
      Acts server (server.set id { ledger with state := .rolledBack })

end Server

inductive Loses (conn : ConnectionImpl σ) : (c : Call) → Reply σ χ c → Prop
  | rpc {rpc : Rpc} {e : Failure} : Loses conn (.op (.rpc rpc)) (.error e)
  | streamingRead {request : ReadRequest} {r : σ} :
    conn.streamId r = none → Loses conn (.op (.streamingRead request)) r
  | executeStreamingSql {request : ExecuteSqlRequest} {r : σ} :
    conn.streamId r = none → Loses conn (.op (.executeStreamingSql request)) r
  | rollback {request : RollbackRequest} {status : Status} :
    status.ok = false → Loses conn (.op (.rollback request)) status

theorem Loses.learned {c : Call} {r : Reply σ χ c} (h : Loses conn c r) :
    learned conn c r = none := by
  cases h with
  | rpc | rollback => rfl
  | streamingRead hid | executeStreamingSql hid => exact hid

def service (conn : ConnectionImpl σ) : Service (ε := Call) (Reply σ χ) Server where
  isRemote := Call.isRemote
  Serves := Server.Serves conn
  Acts := Server.Acts
  Loses := Loses conn

section

open Network

variable {ι : Type} {server server' : Server}

def gives (conn : ConnectionImpl σ) (c : Call) (r : Reply σ χ c) : Option String :=
  if c.begins then learned conn c r else none

def given (conn : ConnectionImpl σ) : Option (Answer ι (Reply σ χ)) → Option String
  | some a => gives conn a.message.call a.reply
  | none => none

inductive Becomes (conn : ConnectionImpl σ) (deed : Option (Answer ι (Reply σ χ))) (id : String) :
    Option Ledger → Option Ledger → Prop
  | kept {ledger : Option Ledger} :
    given conn deed ≠ some id → Becomes conn deed id ledger ledger
  | begun {a : Answer ι (Reply σ χ)} :
    deed = some a → given conn deed = some id →
      Becomes conn deed id none (some ⟨a.message.call.work.toList, .active⟩)
  | worked {a : Answer ι (Reply σ χ)} {p : Nat × Work} {ledger : Ledger} :
    deed = some a → a.message.call.named = some id → a.message.call.work = some p →
      ledger.state = .active → (∀ q ∈ ledger.work, q.1 < p.1) →
      Becomes conn deed id (some ledger) (some { ledger with work := ledger.work ++ [p] })
  | committed {a : Answer ι (Reply σ χ)} {request : CommitRequest} {ledger : Ledger} :
    deed = some a → a.message.call = .op (.rpc (.commit request)) → request.transactionId = id →
      ledger.state = .active →
      Becomes conn deed id (some ledger)
        (some { ledger with state := .committed request.mutations })
  | rolledBack {ledger : Ledger} :
    given conn deed = none → ledger.state = .active →
      Becomes conn deed id (some ledger) (some { ledger with state := .rolledBack })

variable {deed : Option (Answer ι (Reply σ χ))} {id : String}

theorem becomes_set {ledger : Ledger}
    (h : Becomes conn deed id (server.ledger id) (some ledger))
    (hgiven : ∀ id', given conn deed = some id' → id' = id) (id' : String) :
    Becomes conn deed id' (server.ledger id') ((server.set id ledger).ledger id') := by
  by_cases hid : id' = id
  · subst hid
    rw [Server.ledger_set_self]
    exact h
  · rw [Server.ledger_set_of_ne hid]
    exact .kept fun hid' => hid (hgiven id' hid')

theorem gives_of_not_begins {c : Call} {r : Reply σ χ c} (h : c.begins = false) :
    gives conn c r = none := by
  simp [gives, h]

theorem gives_of_learned_none {c : Call} {r : Reply σ χ c}
    (h : c.begins = true → learned conn c r = none) : gives conn c r = none := by
  simp only [gives, ite_eq_right_iff]
  exact h

theorem Refuses.learned {rpc : Rpc} {response : rpc.Response} (h : Refuses rpc response) :
    rpc.learned response = none := by
  cases rpc with
  | executeBatchDml request =>
    obtain ⟨-, hsets, -⟩ := h
    simp [Rpc.learned, hsets]
  | partitionRead | partitionQuery | executeSql | beginTransaction | commit => cases h

theorem Refuses.begins {rpc : Rpc} {response : rpc.Response} (h : Refuses rpc response) :
    rpc.begins = true := by
  cases rpc with
  | executeBatchDml request => exact h.1
  | partitionRead | partitionQuery | executeSql | beginTransaction | commit => cases h

theorem Server.Serves.becomes {a : Answer ι (Reply σ χ)}
    (h : Server.Serves conn server a.message.call a.reply server') :
    Becomes conn (some a) id (server.ledger id) (server'.ledger id) := by
  obtain ⟨⟨i, number, call⟩, reply⟩ := a
  have hkept (hnone : gives conn call reply = none) :
      Becomes conn (some (⟨⟨i, number, call⟩, reply⟩ : Answer ι (Reply σ χ))) id
        (server.ledger id) (server.ledger id) := by
    refine .kept fun hgiven => ?_
    cases hnone.symm.trans hgiven
  have hset {id' : String} (hbegins : call.begins = false) (id : String)
      (hid : given conn (some (⟨⟨i, number, call⟩, reply⟩ : Answer ι (Reply σ χ))) = some id) :
      id = id' := by
    cases (gives_of_not_begins hbegins).symm.trans hid
  cases h with
  | failed => exact hkept (gives_of_learned_none fun _ => rfl)
  | refused hrefuses => exact hkept (gives_of_learned_none fun _ => hrefuses.learned)
  | read _ hlearned => exact hkept (gives_of_learned_none hlearned)
  | begun hbegins hlearned hnew =>
    have hgives : gives conn call reply = some _ := (if_pos hbegins).trans hlearned
    refine becomes_set ?_ (fun id' hid' => ?_) id
    · rw [hnew]
      exact .begun rfl hgives
    · cases hgives.symm.trans hid'
      rfl
  | worked hnamed hwork hledger hactive hlater =>
    refine becomes_set ?_ (hset (Call.not_begins_of_named hnamed)) id
    rw [hledger]
    exact .worked rfl hnamed hwork hactive hlater
  | replayed hnamed => exact hkept (gives_of_not_begins (Call.not_begins_of_named hnamed))
  | committed hledger hactive =>
    refine becomes_set ?_ (hset rfl) id
    rw [hledger]
    exact .committed rfl rfl rfl hactive
  | recommitted => exact hkept (gives_of_not_begins rfl)
  | rolledBack hledger hactive =>
    refine becomes_set ?_ (hset rfl) id
    rw [hledger]
    exact .rolledBack (gives_of_not_begins rfl) hactive
  | notRolledBack => exact hkept (gives_of_not_begins rfl)

theorem becomes_of_step (h : ServerStep (service conn) server deed server') :
    Becomes conn deed id (server.ledger id) (server'.ledger id) := by
  cases h with
  | serves hserves => exact Server.Serves.becomes hserves
  | acts hacts =>
    cases hacts with
    | aborted hledger hactive =>
      refine becomes_set ?_ (fun _ hid => by cases hid) id
      rw [hledger]
      exact .rolledBack rfl hactive

structure Ledger.Extends (ledger ledger' : Ledger) : Prop where
  work : ledger.work <+: ledger'.work
  ended : ledger.state ≠ .active → ledger' = ledger

theorem Ledger.Extends.refl (ledger : Ledger) : ledger.Extends ledger :=
  ⟨List.prefix_refl _, fun _ => rfl⟩

theorem Becomes.extends {ledger : Ledger} {after : Option Ledger}
    (h : Becomes conn deed id (some ledger) after) :
    ∃ ledger', after = some ledger' ∧ ledger.Extends ledger' := by
  cases h with
  | kept => exact ⟨ledger, rfl, .refl ledger⟩
  | worked _ _ _ hactive =>
    exact ⟨_, rfl, List.prefix_append _ _, fun hended => absurd hactive hended⟩
  | committed _ _ _ hactive | rolledBack _ hactive =>
    exact ⟨_, rfl, List.prefix_refl _, fun hended => absurd hactive hended⟩

theorem Becomes.new {before after : Option Ledger} (h : Becomes conn deed id before after)
    (hgiven : given conn deed = some id) : before = none := by
  cases h with
  | kept hother => exact absurd hgiven hother
  | begun => rfl
  | worked hdeed hnamed =>
    subst hdeed
    cases (gives_of_not_begins (Call.not_begins_of_named hnamed)).symm.trans hgiven
  | @committed a request _ hdeed hcall =>
    subst hdeed
    have hbegins : a.message.call.begins = false := by rw [hcall]; rfl
    cases (gives_of_not_begins hbegins).symm.trans hgiven
  | rolledBack hnone =>
    rw [hnone] at hgiven
    cases hgiven

def Succeeds : (c : Call) → Reply σ χ c → Prop
  | .op (.rpc rpc), .ok response => ¬ Refuses rpc response
  | _, _ => False

structure Server.Knows (conn : ConnectionImpl σ) (server : Server) (c : Call) (r : Reply σ χ c) :
    Prop where
  given {id : String} : gives conn c r = some id → server.ledger id ≠ none
  worked {p : Nat × Work} : Succeeds c r → c.work = some p →
    ∃ id ledger, (c.named = some id ∨ gives conn c r = some id) ∧
      server.ledger id = some ledger ∧ p.1 ∈ ledger.work.map Prod.fst
  committed {request : CommitRequest} : Succeeds c r → c = .op (.rpc (.commit request)) →
    ∃ ledger, server.ledger request.transactionId = some ledger ∧
      ledger.state = .committed request.mutations

namespace Server

variable {c : Call} {r : Reply σ χ c}

theorem Knows.step (h : Knows conn server c r)
    (hstep : ServerStep (service conn) server deed server') : Knows conn server' c r := by
  have hextends {id : String} {ledger : Ledger} (hledger : server.ledger id = some ledger) :
      ∃ ledger', server'.ledger id = some ledger' ∧ ledger.Extends ledger' := by
    have hbecomes : Becomes conn deed id (server.ledger id) (server'.ledger id) :=
      becomes_of_step hstep
    rw [hledger] at hbecomes
    exact hbecomes.extends
  refine ⟨fun hgiven => ?_, fun hok hwork => ?_, fun hok hcall => ?_⟩
  · obtain ⟨ledger, hledger⟩ := Option.ne_none_iff_exists'.mp (h.given hgiven)
    obtain ⟨ledger', hledger', -⟩ := hextends hledger
    rw [hledger']
    exact Option.some_ne_none ledger'
  · obtain ⟨id, ledger, hid, hledger, hmem⟩ := h.worked hok hwork
    obtain ⟨ledger', hledger', hextended⟩ := hextends hledger
    exact ⟨id, ledger', hid, hledger', List.map_subset _ hextended.work.subset hmem⟩
  · obtain ⟨ledger, hledger, hcommitted⟩ := h.committed hok hcall
    obtain ⟨ledger', hledger', hextended⟩ := hextends hledger
    have hsame := hextended.ended (by simp [hcommitted])
    exact ⟨ledger', hledger', by rw [hsame, hcommitted]⟩

theorem knows_of_quiet (hgives : gives conn c r = none) (hwork : c.work = none)
    (hcommit : ∀ request, c ≠ .op (.rpc (.commit request))) : Knows conn server c r where
  given hgiven := by cases hgives.symm.trans hgiven
  worked _ hp := by cases hwork.symm.trans hp
  committed _ hcall := absurd hcall (hcommit _)

theorem knows_of_work {id : String} {p : Nat × Work} {ledger : Ledger} (hnamed : c.named = some id)
    (hwork : c.work = some p) (hledger : server.ledger id = some ledger)
    (hmem : p.1 ∈ ledger.work.map Prod.fst) : Knows conn server c r where
  given hgiven := by
    cases (gives_of_not_begins (Call.not_begins_of_named hnamed)).symm.trans hgiven
  worked _ hp := by
    cases hwork.symm.trans hp
    exact ⟨id, ledger, .inl hnamed, hledger, hmem⟩
  committed _ hcall := by
    rw [hcall] at hwork
    cases hwork

theorem Serves.knows (h : Serves conn server c r server') : Knows conn server' c r := by
  cases h with
  | @failed rpc e =>
    have hgives : gives (χ := χ) conn (.op (.rpc rpc)) (.error e) = none :=
      gives_of_learned_none fun _ => rfl
    exact ⟨fun hgiven => (by cases hgives.symm.trans hgiven), False.elim, False.elim⟩
  | @refused rpc response hrefuses =>
    have hgives : gives (χ := χ) conn (.op (.rpc rpc)) (.ok response) = none :=
      gives_of_learned_none fun _ => hrefuses.learned
    exact ⟨fun hgiven => (by cases hgives.symm.trans hgiven), fun hok => absurd hrefuses hok,
      fun hok => absurd hrefuses hok⟩
  | read hreads hlearned =>
    refine knows_of_quiet (gives_of_learned_none hlearned) (Call.work_of_reads hreads) ?_
    rintro request rfl
    cases hreads
  | @begun _ _ id hbegins hlearned hnew =>
    have hgives : gives conn c r = some id := (if_pos hbegins).trans hlearned
    refine ⟨fun hid => ?_, fun _ hwork => ?_, fun _ hcall => ?_⟩
    · cases hgives.symm.trans hid
      rw [ledger_set_self]
      exact Option.some_ne_none _
    · refine ⟨id, _, .inr hgives, ledger_set_self, ?_⟩
      rw [hwork]
      exact List.mem_singleton_self _
    · rw [hcall] at hbegins
      cases hbegins
  | worked hnamed hwork hledger hactive hlater =>
    exact knows_of_work hnamed hwork ledger_set_self (by simp)
  | replayed hnamed hwork hledger hmem => exact knows_of_work hnamed hwork hledger hmem
  | @committed request response ledger hledger hactive =>
    have hgives : gives (χ := χ) conn (.op (.rpc (.commit request))) (.ok response) = none := rfl
    refine ⟨fun hgiven => ?_, fun _ hwork => ?_, fun _ hcall => ?_⟩
    · cases hgives.symm.trans hgiven
    · cases hwork
    cases hcall
    exact ⟨_, ledger_set_self, rfl⟩
  | @recommitted request response ledger hledger hcommitted =>
    have hgives : gives (χ := χ) conn (.op (.rpc (.commit request))) (.ok response) = none := rfl
    refine ⟨fun hgiven => ?_, fun _ hwork => ?_, fun _ hcall => ?_⟩
    · cases hgives.symm.trans hgiven
    · cases hwork
    cases hcall
    exact ⟨_, hledger, hcommitted⟩
  | rolledBack | notRolledBack => exact knows_of_quiet rfl rfl fun _ => by simp

theorem memory (conn : ConnectionImpl σ) :
    Memory (ι := ι) (service (χ := χ) conn) (Knows conn) (given conn) where
  answers := Serves.knows
  keeps hstep hknows := hknows.step hstep
  acted := rfl
  fresh hserves hgiven hknows hgiven' :=
    hknows.given hgiven' ((becomes_of_step (.serves hserves)).new hgiven)

variable {deeds : List (Option (Answer ι (Reply σ χ)))}

structure Remembers (conn : ConnectionImpl σ) (deeds : List (Option (Answer ι (Reply σ χ))))
    (server : Server) : Prop where
  knows (a : Answer ι (Reply σ χ)) : some a ∈ deeds → Knows conn server a.message.call a.reply
  distinct : deeds.Pairwise fun d d' => ∀ id, given conn d = some id → given conn d' ≠ some id
  ordered {id : String} {ledger : Ledger} : server.ledger id = some ledger →
    ledger.work.Pairwise fun p q => p.1 < q.1
  work {id : String} {ledger : Ledger} {p : Nat × Work} : server.ledger id = some ledger →
    p ∈ ledger.work → ∃ a, some a ∈ deeds ∧ a.message.call.work = some p ∧
      (a.message.call.named = some id ∨ given conn (some a) = some id)
  commit {id : String} {ledger : Ledger} {mutations : List Mutation} :
    server.ledger id = some ledger → ledger.state = .committed mutations →
      ∃ a request, some a ∈ deeds ∧ a.message.call = .op (.rpc (.commit request)) ∧
        request.transactionId = id ∧ request.mutations = mutations

namespace Remembers

theorem step (h : Remembers conn deeds server)
    (hstep : ServerStep (service conn) server deed server') :
    Remembers conn (deeds ++ [deed]) server' where
  knows := ((memory conn).step ⟨h.knows, h.distinct⟩ hstep).knows
  distinct := ((memory conn).step ⟨h.knows, h.distinct⟩ hstep).distinct
  ordered {id ledger'} hledger' := by
    have hbecomes : Becomes conn deed id (server.ledger id) (server'.ledger id) :=
      becomes_of_step hstep
    generalize hledger : server.ledger id = before at hbecomes
    rw [hledger'] at hbecomes
    cases hbecomes with
    | kept => exact h.ordered hledger
    | committed | rolledBack =>
      have hordered := h.ordered hledger
      exact hordered
    | @begun a =>
      cases a.message.call.work with
      | none => exact .nil
      | some p => exact List.pairwise_singleton ..
    | worked _ _ _ _ hlater =>
      refine List.pairwise_append.mpr ⟨h.ordered hledger, List.pairwise_singleton .., ?_⟩
      intro q hq p hp
      cases List.mem_singleton.mp hp
      exact hlater q hq
  work {id ledger' p} hledger' hp := by
    have hbecomes : Becomes conn deed id (server.ledger id) (server'.ledger id) :=
      becomes_of_step hstep
    have hearlier {ledger : Ledger} (hledger : server.ledger id = some ledger)
        (hp : p ∈ ledger.work) : ∃ a, some a ∈ deeds ++ [deed] ∧ a.message.call.work = some p ∧
          (a.message.call.named = some id ∨ given conn (some a) = some id) := by
      obtain ⟨a, ha, hrest⟩ := h.work hledger hp
      exact ⟨a, List.mem_append_left _ ha, hrest⟩
    generalize hledger : server.ledger id = before at hbecomes
    rw [hledger'] at hbecomes
    cases hbecomes with
    | kept | committed | rolledBack => exact hearlier hledger hp
    | begun hdeed hgiven =>
      subst hdeed
      exact ⟨_, List.mem_append_right _ (List.mem_singleton_self _), by simpa using hp, .inr hgiven⟩
    | worked hdeed hnamed hwork =>
      subst hdeed
      rcases List.mem_append.mp hp with hp | hp
      · exact hearlier hledger hp
      · cases List.mem_singleton.mp hp
        exact ⟨_, List.mem_append_right _ (List.mem_singleton_self _), hwork, .inl hnamed⟩
  commit {id ledger' mutations} hledger' hcommitted := by
    have hbecomes : Becomes conn deed id (server.ledger id) (server'.ledger id) :=
      becomes_of_step hstep
    have hearlier {ledger : Ledger} (hledger : server.ledger id = some ledger)
        (hcommitted : ledger.state = .committed mutations) : ∃ a request,
          some a ∈ deeds ++ [deed] ∧ a.message.call = .op (.rpc (.commit request)) ∧
            request.transactionId = id ∧ request.mutations = mutations := by
      obtain ⟨a, request, ha, hrest⟩ := h.commit hledger hcommitted
      exact ⟨a, request, List.mem_append_left _ ha, hrest⟩
    generalize hledger : server.ledger id = before at hbecomes
    rw [hledger'] at hbecomes
    cases hbecomes with
    | kept => exact hearlier hledger hcommitted
    | worked _ _ _ hactive => cases hactive.symm.trans hcommitted
    | begun => cases hcommitted
    | rolledBack => cases hcommitted
    | @committed a request _ hdeed hcall hid =>
      subst hdeed
      cases hcommitted
      exact ⟨a, request, List.mem_append_right _ (List.mem_singleton_self _), hcall, hid, rfl⟩

end Remembers

def empty : Server := ⟨fun _ => none⟩

theorem remembers_run (h : Run (ServerStep (service conn)) empty deeds server) :
    Remembers conn deeds server :=
  h.history (P := Remembers conn)
    { knows := fun _ ha => (List.not_mem_nil ha).elim
      distinct := .nil
      ordered := fun h => by cases h
      work := fun h => by cases h
      commit := fun h => by cases h }
    fun _ _ _ _ hremembers hstep => hremembers.step hstep

end Server

end

end TransactionUse

end SpannerClient
