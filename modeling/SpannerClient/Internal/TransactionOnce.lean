import SpannerClient.Internal.TransactionLedger

/-! Applications that each use a transaction of one server, over a network that loses messages: what
is committed is the work of one application, each piece of it once. -/

namespace SpannerClient

open Protobuf Program

namespace TransactionUse

open ConnectionImpl

variable {σ χ : Type} {conn : ConnectionImpl σ} {options : TransactionOptions} {g : Progress}
  {tr : Trace σ χ}

/-- The ledger is that of an application: it holds work that the application has chosen, each once
and in that order, and all that the application was told of. -/
structure Ledger.Of (ledger : Ledger) (exchanges : Trace σ χ) : Prop where
  ordered : ledger.work.Pairwise fun p q => p.1 < q.1
  asked {n : Nat} {work : Work} : (n, work) ∈ ledger.work →
    1 ≤ n ∧ ∃ op, (chosen exchanges)[n - 1]? = some op ∧ op.work = some work
  told {before after : Trace σ χ} {status : Status} {reply : Option GivenOperation}
    {op : Operation} {work : Work} :
    exchanges = before ++ ⟨.choose (.reported status), reply⟩ :: after → status.ok = true →
      (chosen before).getLast? = some op → op.work = some work →
        ((chosen before).length, work) ∈ ledger.work

section

variable {before after : Trace σ χ} {id : String}

theorem leads_of_append (h : (contract conn options).Obeys g (before ++ after)) :
    Leads ((contract conn options).after g before)
      ((contract conn options).after g (before ++ after)) := by
  rw [Contract.after_append]
  exact leads_after (Contract.obeys_append.mp h).2

theorem id_of_mem {exchange : Sigma (Reply σ χ)} (h : (contract conn options).Obeys g tr)
    (hmem : exchange ∈ tr)
    (hid : exchange.1.named = some id ∨ gives conn exchange.1 exchange.2 = some id) :
    ((contract conn options).after g tr).id = some id := by
  obtain ⟨before, after, rfl⟩ := List.append_of_mem hmem
  obtain ⟨-, hallows, -⟩ := Contract.obeys_append.mp h
  obtain ⟨c, r⟩ := exchange
  cases c with
  | choose told =>
    rcases hid with hid | hid
    · cases hid
    · cases (gives_of_not_begins rfl).symm.trans hid
  | op call =>
    have hpermits := permits_of_allows hallows
    rcases hid with hnamed | hgives
    · exact (leads_of_append h).id (hpermits.named hnamed)
    · have hbegins : Call.begins (.op call) = true := by
        by_contra hnot
        cases (gives_of_not_begins (Bool.not_eq_true _ ▸ hnot)).symm.trans hgives
      have hlearned : learned conn (.op call) r = some id := (if_pos hbegins).symm.trans hgives
      have hnext : (next conn ((contract conn options).after g before) (.op call) r).id =
          some id := by
        rw [id_next, hpermits.begins hbegins, hlearned]
        rfl
      rw [List.append_cons] at h ⊢
      refine (leads_of_append h).id ?_
      rw [Contract.after_append]
      exact hnext

end

section

open Network

variable {π : Type} {options : π → TransactionOptions} {start : π → Progress}
  {exchanges : π → Trace σ χ} {deeds : List (Option (Answer π (Reply σ χ)))} {server : Server}
  {a : Answer π (Reply σ χ)} {p : π} {id : String} {ledger : Ledger}

structure Known (conn : ConnectionImpl σ) (options : π → TransactionOptions) (start : π → Progress)
    (exchanges : π → Trace σ χ) (deeds : List (Option (Answer π (Reply σ χ)))) (server : Server) :
    Prop where
  id (p : π) : (start p).id = none
  ops (p : π) : (start p).ops = []
  obeys (p : π) : (contract conn (options p)).Obeys (start p) (exchanges p)
  /-- What is served was allowed when it was called. -/
  allows (a : Answer π (Reply σ χ)) : some a ∈ deeds →
    ∃ before after, exchanges a.message.client = before ++ after ∧
      (contract (χ := χ) conn (options a.message.client)).allows
        ((contract conn (options a.message.client)).after (start a.message.client) before)
        a.message.call
  served (p : π) (exchange : Sigma (Reply σ χ)) : exchange ∈ exchanges p →
    exchange.1.isRemote = true → ¬ Loses conn exchange.1 exchange.2 →
      ∃ number, some (⟨⟨p, number, exchange.1⟩, exchange.2⟩ : Answer π (Reply σ χ)) ∈ deeds
  remembers : Server.Remembers conn deeds server

namespace Known

variable (h : Known conn options start exchanges deeds server)

include h

theorem ops_after (p : π) (before : Trace σ χ) :
    ((contract conn (options p)).after (start p) before).ops = chosen before := by
  rw [TransactionUse.ops_after, h.ops, List.nil_append]

theorem exists_gave
    (hid : ((contract conn (options p)).after (start p) (exchanges p)).id = some id) :
    ∃ a, some a ∈ deeds ∧ a.message.client = p ∧ given conn (some a) = some id := by
  obtain ⟨c, hc, hbegins, hlearned⟩ := exists_learned (h.obeys p) (h.id p) hid
  obtain ⟨number, ha⟩ := h.served p c hc (Call.isRemote_of_begins hbegins) fun hloses => by
    cases hloses.learned.symm.trans hlearned
  exact ⟨_, ha, rfl, (if_pos hbegins).trans hlearned⟩

theorem id_of_named (ha : some a ∈ deeds) (hnamed : a.message.call.named = some id) :
    ((contract conn (options a.message.client)).after (start a.message.client)
      (exchanges a.message.client)).id = some id := by
  obtain ⟨before, after, hexchanges, hallows⟩ := h.allows a ha
  have hobeys := h.obeys a.message.client
  rw [hexchanges] at hobeys ⊢
  refine (leads_of_append hobeys).id ?_
  generalize a.message.call = c at hallows hnamed
  cases c with
  | choose told => cases hnamed
  | op call => exact (permits_of_allows hallows).named hnamed

theorem client_eq (hid : ((contract conn (options p)).after (start p) (exchanges p)).id = some id)
    (ha : some a ∈ deeds)
    (hasked : a.message.call.named = some id ∨ given conn (some a) = some id) :
    a.message.client = p := by
  obtain ⟨a', ha', hclient, hgave⟩ := h.exists_gave hid
  rcases hasked with hnamed | hgiven
  · obtain ⟨a'', ha'', hclient', hgave'⟩ := h.exists_gave (h.id_of_named ha hnamed)
    cases eq_of_given h.remembers.distinct ha' ha'' hgave hgave'
    rw [← hclient', hclient]
  · cases eq_of_given h.remembers.distinct ha ha' hgiven hgave
    exact hclient

theorem asked (hid : ((contract conn (options p)).after (start p) (exchanges p)).id = some id)
    (hledger : server.ledger id = some ledger) {n : Nat} {work : Work}
    (hmem : (n, work) ∈ ledger.work) :
    1 ≤ n ∧ ∃ op, (chosen (exchanges p))[n - 1]? = some op ∧ op.work = some work := by
  obtain ⟨a, ha, hwork, hasked⟩ := h.remembers.work hledger hmem
  obtain ⟨before, after, hexchanges, hallows⟩ := h.allows a ha
  rw [h.client_eq hid ha hasked] at hexchanges hallows
  have hdoes : ((contract conn (options p)).after (start p) before).Does n work := by
    generalize a.message.call = c at hallows hwork
    cases c with
    | choose told => cases hwork
    | op call => exact (permits_of_allows hallows).work hwork
  have hn := hdoes.seqno
  have hlast := hdoes.work
  rw [h.ops_after] at hn hlast
  obtain ⟨op, hop, hopwork⟩ := Option.bind_eq_some_iff.mp hlast
  rw [List.getLast?_eq_getElem?] at hop
  have hlt := (List.getElem?_eq_some_iff.mp hop).1
  refine ⟨by omega, op, ?_, hopwork⟩
  rw [hexchanges, chosen_append, hn, List.getElem?_append_left hlt]
  exact hop

theorem exists_answer {before after : Trace σ χ} {op : Operation}
    (hexchanges : exchanges p = before ++ after)
    (hanswered : ((contract conn (options p)).after (start p) before).answered = true)
    (hop : (chosen before).getLast? = some op) (hanswer : op.hasAnswer = true) :
    ∃ rpc response number, ⟨.op (.rpc rpc), .ok response⟩ ∈ exchanges p ∧
      RequestFor (chosen before).length op rpc ∧ ¬ Refuses rpc response ∧
      some (⟨⟨p, number, .op (.rpc rpc)⟩, .ok response⟩ : Answer π (Reply σ χ)) ∈ deeds := by
  have hbefore := h.obeys p
  rw [hexchanges] at hbefore
  have hops := h.ops_after p before
  have hop' : ((contract conn (options p)).after (start p) before).ops.getLast? = some op := by
    rw [hops]
    exact hop
  have hstart : Answered (start p) ([] : Trace σ χ) := by
    intro op hlast
    rw [h.ops] at hlast
    cases hlast
  obtain ⟨rpc, response, hmem, hfor, hrefuses⟩ := answered_after
    (Contract.obeys_append.mp hbefore).1 (fun _ => hstart) hanswered op hop' hanswer
  have hmem' : ⟨.op (.rpc rpc), .ok response⟩ ∈ exchanges p := by
    rw [hexchanges]
    exact List.mem_append_left _ hmem
  obtain ⟨number, hserved⟩ := h.served p _ hmem' rfl fun hloses => by cases hloses
  rw [← hops]
  exact ⟨rpc, response, number, hmem', hfor, hrefuses, hserved⟩

theorem answered_of_told {before after : Trace σ χ} {status : Status}
    {reply : Option GivenOperation} {op : Operation}
    (hexchanges : exchanges p = before ++ ⟨.choose (.reported status), reply⟩ :: after)
    (hok : status.ok = true) (hop : (chosen before).getLast? = some op)
    (hanswer : op.hasAnswer = true) :
    ((contract conn (options p)).after (start p) before).answered = true := by
  have hobeys := h.obeys p
  rw [hexchanges] at hobeys
  refine (Contract.obeys_append.mp hobeys).2.1 hok op ?_ hanswer
  rw [h.ops_after]
  exact hop

theorem ledger_of (hid : ((contract conn (options p)).after (start p) (exchanges p)).id = some id)
    (hledger : server.ledger id = some ledger) : ledger.Of (exchanges p) where
  ordered := h.remembers.ordered hledger
  asked := h.asked hid hledger
  told {before after status reply op work} hexchanges hok hop hwork := by
    have hanswer : op.hasAnswer = true := by
      cases op with
      | executeDml | profileDml | analyzeSql | executeBatchDml | commit => rfl
      | read | partitionRead | executeQuery | profileQuery | partitionQuery
      | executePartitionedDml | rollback => cases hwork
    obtain ⟨rpc, response, number, hmem, hfor, hrefuses, hserved⟩ :=
      h.exists_answer hexchanges (h.answered_of_told hexchanges hok hop hanswer) hop hanswer
    cases hfor with
    | commit hcommit =>
      rw [hcommit] at hwork
      cases hwork
    | work hrpc =>
      obtain ⟨id', ledger', hnamed, hledger', hdone⟩ :=
        (h.remembers.knows _ hserved).worked hrefuses hrpc
      cases (id_of_mem (h.obeys p) hmem hnamed).symm.trans hid
      cases hledger.symm.trans hledger'
      obtain ⟨⟨n, work'⟩, hdone, hn⟩ := List.mem_map.mp hdone
      obtain rfl : n = (chosen before).length := hn
      -- the sequence number says which operation it was
      obtain ⟨-, op', hop', hwork'⟩ := h.asked hid hledger hdone
      rw [hexchanges, chosen_append] at hop'
      rw [List.getLast?_eq_getElem?] at hop
      rw [List.getElem?_append_left (List.getElem?_eq_some_iff.mp hop).1] at hop'
      cases hop.symm.trans hop'
      cases hwork.symm.trans hwork'
      exact hdone

theorem exists_commit {mutations : List Mutation} (hledger : server.ledger id = some ledger)
    (hcommitted : ledger.state = .committed mutations) :
    ∃ a request, some a ∈ deeds ∧ a.message.call = .op (.rpc (.commit request)) ∧
      request.transactionId = id ∧ .commit mutations ∈ chosen (exchanges a.message.client) ∧
      ((contract conn (options a.message.client)).after (start a.message.client)
        (exchanges a.message.client)).id = some id := by
  obtain ⟨a, request, ha, hcall, rfl, rfl⟩ := h.remembers.commit hledger hcommitted
  refine ⟨a, request, ha, hcall, rfl, ?_, h.id_of_named ha (by rw [hcall]; rfl)⟩
  obtain ⟨before, after, hexchanges, hallows⟩ := h.allows a ha
  rw [hcall] at hallows
  have hlast := hallows.2.2
  rw [h.ops_after] at hlast
  rw [hexchanges, chosen_append]
  exact List.mem_append_left _ (List.mem_of_getLast? hlast)

theorem exists_committed {mutations : List Mutation} {before after : Trace σ χ}
    (hexchanges : exchanges p = before ++ after)
    (hanswered : ((contract conn (options p)).after (start p) before).answered = true)
    (hop : (chosen before).getLast? = some (.commit mutations)) :
    ∃ id ledger, ((contract conn (options p)).after (start p) (exchanges p)).id = some id ∧
      server.ledger id = some ledger ∧ ledger.state = .committed mutations := by
  obtain ⟨rpc, response, number, hmem, hfor, hrefuses, hserved⟩ :=
    h.exists_answer hexchanges hanswered hop rfl
  cases hfor with
  | work _ hwork => cases hwork
  | @commit request hrequest =>
    obtain rfl : mutations = request.mutations := by simpa using hrequest
    obtain ⟨ledger, hledger, hcommitted⟩ :=
      (h.remembers.knows _ hserved).committed hrefuses rfl
    exact ⟨_, ledger, id_of_mem (h.obeys p) hmem (.inl rfl), hledger, hcommitted⟩

end Known

end

structure Application (χ : Type) where
  options : TransactionOptions
  session? : Option (SessionHolder χ)
  fuel : Nat

namespace Application

def program (conn : ConnectionImpl σ) (app : Application χ) :
    Interaction Call (Reply σ χ) (Except Abort Unit × TransactionImpl (SessionHolder χ)) :=
  use conn app.fuel .nothing (start app.options app.session? none)

theorem keeps_program (app : Application χ) : (app.program conn).Keeps (contract conn app.options)
    (fun result => Stood app.options result.1 result.2) (initial app.session? none) :=
  keeps_use (stands_start app.session? none) trivial

end Application

section

open Network

variable {ι : Type} [DecidableEq ι] {apps : ι → Application χ} {tr : Network.Trace ι (Reply σ χ)}
  {w : World ι (Reply σ χ) (Except Abort Unit × TransactionImpl (SessionHolder χ)) Server}
  {i : ι} {id : String} {ledger : Ledger}

theorem known_of_run (h : Run (Step (service conn))
    (World.start (fun i => (apps i).program conn) Server.empty) tr w) :
    Known conn (fun i => (apps i).options) (fun i => initial (apps i).session? none)
      (fun i => tr.exchanges i) tr.deeds w.server where
  id _ := rfl
  ops _ := rfl
  obeys i := ((Sound.run h).client i).obeys (apps i).keeps_program
  allows a ha := by
    have hserved : a.message ∈ tr.served :=
      List.mem_filterMap.mpr ⟨_, Trace.mem_deeds.mp ha, rfl⟩
    exact ((Sound.run h).client _).exists_allows (apps _).keeps_program
      ((Sound.run h).mem_sentBy hserved)
  served i exchange hmem hremote hloses := by
    obtain ⟨number, hserved⟩ := ((Sound.run h).done i exchange.1 exchange.2
      (Trace.mem_exchanges.mp hmem) hremote).resolve_left hloses
    exact ⟨number, Trace.mem_deeds.mpr hserved⟩
  remembers := Server.remembers_run (Sound.run h).server

/-- What is committed is what one application has asked for: its mutations and its statements, each
of them once and in their order, and none that it was told of is missing. -/
theorem committed_once {mutations : List Mutation}
    (h : Run (Step (service conn)) (World.start (fun i => (apps i).program conn) Server.empty) tr w)
    (hledger : w.server.ledger id = some ledger)
    (hcommitted : ledger.state = .committed mutations) :
    ∃ i, .commit mutations ∈ chosen (tr.exchanges i) ∧ ledger.Of (tr.exchanges i) := by
  have hknown := known_of_run h
  obtain ⟨a, -, -, -, -, hchosen, hid⟩ := hknown.exists_commit hledger hcommitted
  exact ⟨a.message.client, hchosen, hknown.ledger_of hid hledger⟩

/-- A commit that an application was told of has been made, with all that it was told of before. -/
theorem committed_of_told {mutations : List Mutation} {before after : Trace σ χ} {status : Status}
    {reply : Option GivenOperation}
    (h : Run (Step (service conn)) (World.start (fun i => (apps i).program conn) Server.empty) tr w)
    (hexchanges : tr.exchanges i = before ++ ⟨.choose (.reported status), reply⟩ :: after)
    (hok : status.ok = true) (hop : (chosen before).getLast? = some (.commit mutations)) :
    ∃ id ledger, w.server.ledger id = some ledger ∧ ledger.state = .committed mutations ∧
      ledger.Of (tr.exchanges i) := by
  have hknown := known_of_run h
  obtain ⟨id, ledger, hid, hledger, hcommitted⟩ := hknown.exists_committed hexchanges
    (hknown.answered_of_told hexchanges hok hop rfl) hop
  exact ⟨id, ledger, hledger, hcommitted, hknown.ledger_of hid hledger⟩

end

def insertingApp (_ : Unit) : Application Unit := ⟨.readWrite, none, 3⟩

def commitRequest : CommitRequest := ⟨"session", "txn", []⟩

def insertingEvents : Network.Trace Unit (Reply ServerStream Unit) :=
  [.done () ⟨.choose .nothing, some inserts⟩,
    .done () ⟨.op (.allocate false), .ok session⟩, .done () ⟨.op .isExhausted, false⟩,
    .sent ⟨(), 1, .op (.rpc (.executeSql insertRequest))⟩,
    .served ⟨⟨(), 1, .op (.rpc (.executeSql insertRequest))⟩, .ok (inserted "lost")⟩,
    .done () ⟨.op (.rpc (.executeSql insertRequest)), .error tryAgain⟩,
    .done () ⟨.op (.onFailure ⟨.unavailable, "try again"⟩), true⟩,
    .done () ⟨.op .onCompletion, (10 : Nat)⟩, .done () ⟨.op (.sleepFor 10), ()⟩,
    .done () ⟨.op .isExhausted, false⟩,
    .sent ⟨(), 2, .op (.rpc (.executeSql insertRequest))⟩,
    .served ⟨⟨(), 2, .op (.rpc (.executeSql insertRequest))⟩, .ok (inserted "txn")⟩,
    .done () ⟨.op (.rpc (.executeSql insertRequest)), .ok (inserted "txn")⟩,
    .done () ⟨.choose (.reported .success), some commits⟩,
    .done () ⟨.op .isExhausted, false⟩,
    .sent ⟨(), 3, .op (.rpc (.commit commitRequest))⟩,
    .served ⟨⟨(), 3, .op (.rpc (.commit commitRequest))⟩, .ok ⟨⟨0, 0⟩⟩⟩,
    .done () ⟨.op (.rpc (.commit commitRequest)), .ok ⟨⟨0, 0⟩⟩⟩,
    .done () ⟨.choose (.reported .success), none⟩]

def insertedLedger : Ledger := ⟨[(1, .sql insertion.statement.toProto .normal)], .active⟩

def insertedServer : Server := (Server.empty.set "lost" insertedLedger).set "txn" insertedLedger

theorem inserting_run : ∃ w, Run (Network.Step (service serverConn))
    (Network.World.start (fun i => (insertingApp i).program serverConn) Server.empty)
    insertingEvents w ∧
    w.server.ledger "txn" = some { insertedLedger with state := .committed [] } := by
  apply Exists.intro
  constructor
  · apply Run.cons (Network.Step.call _ rfl rfl)
    apply Run.cons (Network.Step.call _ rfl rfl)
    apply Run.cons (Network.Step.call _ rfl rfl)
    apply Run.cons (Network.Step.send rfl rfl rfl)
    apply Run.cons (Network.Step.serve (show _ = [] ++ _ :: [] from rfl)
      (Server.Serves.begun rfl rfl rfl))
    apply Run.cons (Network.Step.lose rfl rfl Loses.rpc)
    apply Run.cons (Network.Step.call _ rfl rfl)
    apply Run.cons (Network.Step.call _ rfl rfl)
    apply Run.cons (Network.Step.call _ rfl rfl)
    apply Run.cons (Network.Step.call _ rfl rfl)
    apply Run.cons (Network.Step.send rfl rfl rfl)
    apply Run.cons (Network.Step.serve (show _ = [] ++ _ :: [] from rfl)
      (Server.Serves.begun rfl rfl (Server.ledger_set_of_ne (by decide))))
    apply Run.cons (Network.Step.receive rfl rfl List.mem_cons_self)
    apply Run.cons (Network.Step.call _ rfl rfl)
    apply Run.cons (Network.Step.call _ rfl rfl)
    apply Run.cons (Network.Step.send rfl rfl rfl)
    apply Run.cons (Network.Step.serve (show _ = [] ++ _ :: [] from rfl)
      (@Server.Serves.committed _ _ serverConn insertedServer commitRequest ⟨⟨0, 0⟩⟩
        insertedLedger Server.ledger_set_self rfl))
    apply Run.cons (Network.Step.receive rfl rfl List.mem_cons_self)
    exact .single (Network.Step.call _ rfl rfl)
  · exact @Server.ledger_set_self insertedServer "txn" _

theorem committed_once_inserting : ∃ ledger : Ledger, ∃ i,
    .commit [] ∈ chosen (insertingEvents.exchanges i) ∧
      ledger.Of (insertingEvents.exchanges i) := by
  obtain ⟨w, hrun, hledger⟩ := inserting_run
  exact ⟨_, committed_once hrun hledger rfl⟩

theorem committed_of_told_inserting : ∃ ledger : Ledger,
    ledger.state = .committed [] ∧ ledger.Of (insertingEvents.exchanges ()) := by
  obtain ⟨w, hrun, -⟩ := inserting_run
  have hexchanges : insertingEvents.exchanges () =
      (insertingEvents.exchanges ()).take 12 ++ ⟨.choose (.reported .success), none⟩ :: [] := rfl
  obtain ⟨id, ledger, -, hcommitted, hof⟩ := committed_of_told hrun hexchanges rfl rfl
  exact ⟨ledger, hcommitted, hof⟩

end TransactionUse

end SpannerClient
