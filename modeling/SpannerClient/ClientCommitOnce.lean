import SpannerClient.ClientCommitParties
import SpannerClient.Internal.TransactionOnce

/-! Any number of clients that call `Client::Commit()` on one server: a call commits one
transaction, if any, however often it is run again. -/

namespace SpannerClient

open Protobuf Program

namespace TransactionUse

open ConnectionImpl Network

variable {π σ χ : Type} {conn : ConnectionImpl σ} {server server' : Server} {id : String}
  {deed : Option (Answer π (Reply σ χ))}

def Server.Ended (server : Server) (id : String) : Prop :=
  ∃ ledger, server.ledger id = some ledger ∧ ledger.state = .rolledBack

theorem Server.Ended.step (h : server.Ended id)
    (hstep : ServerStep (service conn) server deed server') : server'.Ended id := by
  obtain ⟨ledger, hledger, hended⟩ := h
  have hbecomes : Becomes conn deed id (server.ledger id) (server'.ledger id) :=
    becomes_of_step hstep
  rw [hledger] at hbecomes
  obtain ⟨ledger', hledger', hextends⟩ := hbecomes.extends
  have hsame := hextends.ended (by simp [hended])
  exact ⟨ledger', hledger', by rw [hsame, hended]⟩

end TransactionUse

namespace ClientCommit

open ConnectionImpl TransactionUse Network

variable {σ χ ξ ι : Type} {conn : ConnectionImpl σ}

def Call.isRemote : Call χ → Bool
  | .op _ call => TransactionUse.Call.isRemote (.op call)
  | .mutator _ _ | .choose _ _ | .returns _ | .commit _ _ | .rollback _ | .onFailure _ | .setBad _
  | .onCompletion | .sleepFor _ | .log _ => false

/-- A commit is only refused when the transaction has been rolled back. -/
inductive Serves (conn : ConnectionImpl σ) (server : Server) :
    (c : Call χ) → Reply σ ξ c → Server → Prop
  | op {n : Nat} {call : ConnectionImpl.Call} {r : ConnectionImpl.Reply σ χ call}
      {server' : Server} :
    server.Serves conn (.op call) r server' →
      (∀ id, denied (.op call) r = some id → server.Ended id) →
      Serves conn server (.op n call) r server'

/-- A reply that is lost does not look like a refusal. -/
inductive Loses (conn : ConnectionImpl σ) : (c : Call χ) → Reply σ ξ c → Prop
  | op {n : Nat} {call : ConnectionImpl.Call} {r : ConnectionImpl.Reply σ χ call} :
    TransactionUse.Loses conn (.op call) r → denied (.op call) r = none →
      Loses conn (.op n call) r

def service (conn : ConnectionImpl σ) : Service (ε := Call χ) (Reply σ ξ) Server where
  isRemote := Call.isRemote
  Serves := Serves conn
  Acts := Server.Acts
  Loses := Loses conn

abbrev Party (ι : Type) := ι × Nat

def narrowAnswer : Answer ι (Reply (χ := χ) σ ξ) →
    Option (Answer (Party ι) (TransactionUse.Reply σ χ))
  | ⟨⟨i, number, .op n call⟩, r⟩ => some ⟨⟨(i, n), number, .op call⟩, r⟩
  | ⟨⟨_, _, .mutator _ _⟩, _⟩ | ⟨⟨_, _, .choose _ _⟩, _⟩ | ⟨⟨_, _, .returns _⟩, _⟩
  | ⟨⟨_, _, .commit _ _⟩, _⟩ | ⟨⟨_, _, .rollback _⟩, _⟩ | ⟨⟨_, _, .onFailure _⟩, _⟩
  | ⟨⟨_, _, .setBad _⟩, _⟩ | ⟨⟨_, _, .onCompletion⟩, _⟩ | ⟨⟨_, _, .sleepFor _⟩, _⟩
  | ⟨⟨_, _, .log _⟩, _⟩ => none

def narrowDeed : Option (Answer ι (Reply (χ := χ) σ ξ)) →
    Option (Option (Answer (Party ι) (TransactionUse.Reply σ χ)))
  | some a => (narrowAnswer a).map some
  | none => some none

variable {deeds : List (Option (Answer ι (Reply (χ := χ) σ ξ)))} {server server' : Server}
  {i : ι} {n number : Nat} {call : ConnectionImpl.Call} {r : ConnectionImpl.Reply σ χ call}

theorem mem_narrow {a : Answer (Party ι) (TransactionUse.Reply σ χ)} :
    some a ∈ deeds.filterMap narrowDeed ↔ ∃ i n number call r,
      a = ⟨⟨(i, n), number, .op call⟩, r⟩ ∧
        some (⟨⟨i, number, .op n call⟩, r⟩ : Answer ι (Reply σ ξ)) ∈ deeds := by
  constructor
  · intro ha
    obtain ⟨deed, hdeed, hnarrow⟩ := List.mem_filterMap.mp ha
    match deed with
    | none => cases hnarrow
    | some ⟨⟨i, number, call⟩, r⟩ =>
      cases call with
      | op n call =>
        cases hnarrow
        exact ⟨i, n, number, call, r, rfl, hdeed⟩
      | mutator | choose | returns | commit | rollback | onFailure | setBad | onCompletion
      | sleepFor | log => cases hnarrow
  · rintro ⟨i, n, number, call, r, rfl, hdeed⟩
    exact List.mem_filterMap.mpr ⟨_, hdeed, rfl⟩

structure Seen (conn : ConnectionImpl σ) (deeds : List (Option (Answer ι (Reply (χ := χ) σ ξ))))
    (server : Server) : Prop where
  run : Run (ServerStep (TransactionUse.service (χ := χ) conn)) Server.empty
    (deeds.filterMap narrowDeed) server
  ended {id : String} {a : Answer (Party ι) (TransactionUse.Reply σ χ)} :
    some a ∈ deeds.filterMap narrowDeed → denied a.message.call a.reply = some id → server.Ended id

theorem Seen.snoc {deed : Option (Answer ι (Reply (χ := χ) σ ξ))}
    {deed' : Option (Answer (Party ι) (TransactionUse.Reply σ χ))} (h : Seen conn deeds server)
    (hdeed : narrowDeed deed = some deed')
    (hstep : ServerStep (TransactionUse.service conn) server deed' server')
    (hended : ∀ id a, deed' = some a → denied a.message.call a.reply = some id →
      server.Ended id) : Seen conn (deeds ++ [deed]) server' := by
  have hdeeds : (deeds ++ [deed]).filterMap narrowDeed = deeds.filterMap narrowDeed ++ [deed'] := by
    simp [hdeed]
  refine ⟨?_, fun {id a} ha hdenied => ?_⟩
  · rw [hdeeds]
    exact h.run.snoc hstep
  · rw [hdeeds] at ha
    rcases List.mem_append.mp ha with hearlier | hlast
    · exact (h.ended hearlier hdenied).step hstep
    · exact (hended id a (List.mem_singleton.mp hlast).symm hdenied).step hstep

theorem seen_step {deed : Option (Answer ι (Reply (χ := χ) σ ξ))} (h : Seen conn deeds server)
    (hstep : ServerStep (service conn) server deed server') :
    Seen conn (deeds ++ [deed]) server' := by
  cases hstep with
  | acts hacts => exact h.snoc rfl (.acts hacts) fun _ _ ha => by cases ha
  | @serves _ a hserves =>
    obtain ⟨⟨i, number, call⟩, r⟩ := a
    cases hserves with
    | op hserves hended =>
      refine h.snoc rfl (.serves hserves) fun id a ha hdenied => ?_
      cases ha
      exact hended id hdenied

theorem seen_of_run (h : Run (ServerStep (service conn)) Server.empty deeds server) :
    Seen conn deeds server :=
  h.history (P := Seen conn) ⟨.nil, fun ha => by cases ha⟩ fun _ _ _ _ hseen hstep =>
    seen_step hseen hstep

structure Caller where
  fuel : Nat
  reruns : Nat

abbrev Ending (χ ξ : Type) :=
  Except Abort (Except ξ (Option (StatusOr CommitResult)) × Transaction (SessionHolder χ)) × Unit

namespace Caller

def program (conn : ConnectionImpl σ) (caller : Caller) :
    Interaction (Call χ) (Reply σ ξ) (Ending χ ξ) :=
  commit conn caller.fuel caller.reruns ()

theorem keeps_program (caller : Caller) : (caller.program conn).Keeps (contract (χ := χ) conn)
    (fun (result : Ending χ ξ) g => ∀ value txn, result.1 = .ok (.ok (some (.ok value)), txn) →
      ∃ n mutations, Won n mutations g) Course.start :=
  ClientCommit.keeps_program conn caller.fuel caller.reruns

end Caller

abbrev System (ι σ χ ξ : Type) := World ι (Reply (χ := χ) σ ξ) (Ending χ ξ) Server

section

variable [DecidableEq ι]

def System.make (conn : ConnectionImpl σ) (callers : ι → Caller) : System ι σ χ ξ :=
  World.start (fun i => (callers i).program conn) Server.empty

def course (conn : ConnectionImpl σ) (tr : Network.Trace ι (Reply (χ := χ) σ ξ)) (i : ι) :
    Course χ :=
  (contract conn).after Course.start (tr.exchanges i)

def use (tr : Network.Trace ι (Reply (χ := χ) σ ξ)) (p : Party ι) : TransactionUse.Trace σ χ :=
  party p.2 (tr.exchanges p.1)

variable {callers : ι → Caller} {tr : Network.Trace ι (Reply (χ := χ) σ ξ)}
  {w : System ι σ χ ξ} {id id' : String}

theorem sent_op (h : Run (Step (service conn)) (System.make conn callers) tr w)
    (hserved : .served ⟨⟨i, number, .op n call⟩, r⟩ ∈ tr) :
    (∃ r, ⟨.op call, r⟩ ∈ use tr (i, n)) ∨ (course conn tr i).next = n + 1 := by
  have hsound := Network.Sound.run h
  have hmem : ⟨i, number, .op n call⟩ ∈ tr.served := List.mem_filterMap.mpr ⟨_, hserved, rfl⟩
  have hsent := hsound.mem_sentBy hmem
  rcases (hsound.client i).exchanged_or_allowed (callers _).keeps_program hsent with
    ⟨r, hexchanged⟩ | hallowed
  · exact .inl ⟨r, mem_party.mpr ⟨_, hexchanged, rfl⟩⟩
  · exact .inr hallowed.1

theorem tracks_of_run (h : Run (Step (service conn)) (System.make conn callers) tr w) (i : ι) :
    Tracks conn (tr.exchanges i) (course conn tr i) :=
  tracks_of_obeys (((Network.Sound.run h).client i).obeys (callers _).keeps_program)

theorem known_of_run (h : Run (Step (service conn)) (System.make conn callers) tr w) :
    Known conn (fun _ => .readWrite)
      (fun p : Party ι => initial ((course conn tr p.1).session p.2) none) (use tr)
      (tr.deeds.filterMap narrowDeed) w.server where
  id _ := rfl
  ops _ := rfl
  obeys p := (tracks_of_run h p.1).obeys p.2
  allows a ha := by
    obtain ⟨i, n, number, call, r, rfl, hdeed⟩ := mem_narrow.mp ha
    have hsound := Network.Sound.run h
    have hserved : ⟨i, number, .op n call⟩ ∈ tr.served :=
      List.mem_filterMap.mpr ⟨_, Trace.mem_deeds.mp hdeed, rfl⟩
    obtain ⟨before, after, hexchanges, hnext, hallows, -⟩ :=
      (hsound.client i).exists_allows (callers _).keeps_program (hsound.mem_sentBy hserved)
    have hobeys := (hsound.client i).obeys (callers _).keeps_program
    rw [hexchanges] at hobeys
    obtain ⟨hbefore, hafter⟩ := Contract.obeys_append.mp hobeys
    have hsession : (course conn tr i).session n =
        ((contract (ξ := ξ) conn).after Course.start before).session n := by
      rw [course, hexchanges, Contract.after_append]
      exact (session_after hafter).2 n (by rw [hnext]; exact Nat.lt_succ_self n)
    refine ⟨party n before, party n after, ?_, ?_⟩
    · show party n (tr.exchanges i) = _
      rw [hexchanges, party_append]
    · show Allows .readWrite (Contract.after _ (initial ((course conn tr i).session n) none) _) call
      rw [hsession, ← (tracks_of_obeys hbefore).progress]
      exact hallows
  served p c hmem hremote hloses := by
    obtain ⟨exchange, hexchange, hnarrow⟩ := mem_party.mp hmem
    obtain ⟨call, r⟩ := exchange
    cases call with
    | op n call =>
      cases hnarrow
      obtain ⟨number, hserved⟩ := ((Network.Sound.run h).done p.1 _ _
        (Trace.mem_exchanges.mp hexchange) hremote).resolve_left fun hwide => by
          cases hwide with
          | op hnarrow => exact hloses hnarrow
      exact ⟨number, mem_narrow.mpr ⟨p.1, p.2, number, call, r, rfl, Trace.mem_deeds.mpr hserved⟩⟩
    | choose | commit | rollback =>
      cases hnarrow
      cases hremote
    | mutator | returns | onFailure | setBad | onCompletion | sleepFor | log => cases hnarrow
  remembers := Server.remembers_run (seen_of_run (Network.Sound.run h).server).run

structure Committed (tr : Network.Trace ι (Reply (χ := χ) σ ξ)) (server : Server) (i : ι) (n : Nat)
    (id : String) : Prop where
  asked : ∃ number request r,
    .served ⟨⟨i, number, .op n (.rpc (.commit request))⟩, r⟩ ∈ tr ∧ request.transactionId = id
  done : ∃ ledger mutations, server.ledger id = some ledger ∧ ledger.state = .committed mutations

theorem named_of_denied {c : TransactionUse.Call} {r : TransactionUse.Reply σ χ c}
    (h : denied c r = some id) : c.named = some id := by
  unfold denied at h
  split at h
  · split at h
    · exact h
    · cases h
  · cases h

section

variable {n' : Nat}

theorem Committed.id_eq (h : Run (Step (service conn)) (System.make conn callers) tr w)
    (hcommitted : Committed tr w.server i n id) :
    ((TransactionUse.contract conn .readWrite).after (initial ((course conn tr i).session n) none)
      (use tr (i, n))).id = some id := by
  obtain ⟨number, request, r, hserved, rfl⟩ := hcommitted.asked
  have hdeed := mem_narrow.mpr ⟨i, n, number, _, r, rfl, Trace.mem_deeds.mpr hserved⟩
  exact (known_of_run h).id_of_named hdeed rfl

theorem Committed.not_void (h : Run (Step (service conn)) (System.make conn callers) tr w)
    (hcommitted : Committed tr w.server i n id) (hlt : n + 1 < (course conn tr i).next) :
    ¬ Void (use tr (i, n)) := by
  obtain ⟨number, request, r, hserved, rfl⟩ := hcommitted.asked
  rintro (hnone | ⟨c, hc, id', hdenied⟩)
  · rcases sent_op h hserved with ⟨r, hmem⟩ | hlast
    · exact hnone request r hmem
    · omega
  · have hid := id_of_mem ((known_of_run h).obeys (i, n)) hc (.inl (named_of_denied hdenied))
    cases hid.symm.trans (hcommitted.id_eq h)
    obtain ⟨⟨call, r⟩, hexchange, hnarrow⟩ := mem_party.mp hc
    cases call with
    | op m call =>
      cases hnarrow
      have hremote : Call.isRemote (.op n call : Call χ) = true := by
        cases call with
        | rpc => rfl
        | allocate | streamingRead | executeStreamingSql | rollback | setBad | isExhausted
        | onFailure | onCompletion | sleepFor => cases hdenied
      -- a reply that is lost is not a denial
      obtain ⟨number, hserved⟩ := ((Network.Sound.run h).done i _ _
        (Trace.mem_exchanges.mp hexchange) hremote).resolve_left fun hloses => by
          cases hloses with
          | op _ hnone => cases hnone.symm.trans hdenied
      have hdeed := mem_narrow.mpr ⟨i, n, number, call, r, rfl, Trace.mem_deeds.mpr hserved⟩
      obtain ⟨ledger, hledger, hended⟩ :=
        (seen_of_run (Network.Sound.run h).server).ended hdeed hdenied
      obtain ⟨ledger', mutations, hledger', hdone⟩ := hcommitted.done
      cases hledger.symm.trans hledger'
      cases hended.symm.trans hdone
    | choose | commit | rollback =>
      cases hnarrow
      cases hdenied
    | mutator | returns | onFailure | setBad | onCompletion | sleepFor | log => cases hnarrow

theorem Committed.not_lt (h : Run (Step (service conn)) (System.make conn callers) tr w)
    (hcommitted : Committed tr w.server i n id) (hcommitted' : Committed tr w.server i n' id') :
    ¬ n < n' := by
  intro hlt
  have hnext : n' < (course conn tr i).next := by
    obtain ⟨number, request, r, hserved, -⟩ := hcommitted'.asked
    rcases sent_op h hserved with ⟨r, hmem⟩ | hlast
    · by_contra hle
      have hfresh : party n' (tr.exchanges i) = [] :=
        (tracks_of_run h i).fresh (Nat.le_of_not_lt hle)
      rw [use, hfresh] at hmem
      cases hmem
    · omega
  exact hcommitted.not_void h (by omega) ((tracks_of_run h i).past (by omega))

theorem Committed.unique (h : Run (Step (service conn)) (System.make conn callers) tr w)
    (hcommitted : Committed tr w.server i n id) (hcommitted' : Committed tr w.server i n' id') :
    n = n' ∧ id = id' := by
  obtain rfl : n = n' :=
    Nat.le_antisymm (Nat.le_of_not_lt (hcommitted'.not_lt h hcommitted))
      (Nat.le_of_not_lt (hcommitted.not_lt h hcommitted'))
  cases (hcommitted.id_eq h).symm.trans (hcommitted'.id_eq h)
  exact ⟨rfl, rfl⟩

/-- The transaction holds what the mutator did with it, and its mutations.  It is the only one of
this call that has been committed, and the mutator has not been run again after it. -/
structure Carried (tr : Network.Trace ι (Reply (χ := χ) σ ξ)) (server : Server) (i : ι) (n : Nat)
    (id : String) (ledger : Ledger) (mutations : List Mutation) : Prop where
  returned : ⟨.returns n, .returned (.ok mutations)⟩ ∈ tr.exchanges i
  ledger : ledger.Of (use tr (i, n))
  committed : Committed tr server i n id
  only {n' : Nat} {id' : String} : Committed tr server i n' id' → n' = n ∧ id' = id
  last {n' : Nat} {session : Option (SessionHolder χ)} :
    ⟨.mutator n' session, ()⟩ ∈ tr.exchanges i → n' ≤ n

theorem carried_of_id {ledger : Ledger} {mutations : List Mutation}
    (h : Run (Step (service conn)) (System.make conn callers) tr w)
    (hid : ((TransactionUse.contract conn .readWrite).after
      (initial ((course conn tr i).session n) none) (use tr (i, n))).id = some id)
    (hledger : w.server.ledger id = some ledger) (hdone : ledger.state = .committed mutations) :
    Carried tr w.server i n id ledger mutations := by
  have hknown := known_of_run h
  have htracks := tracks_of_run h i
  obtain ⟨a, request, ha, hcall, hrequest, hchosen, -⟩ := hknown.exists_commit hledger hdone
  have hclient : a.message.client = (i, n) :=
    hknown.client_eq hid ha (.inl (by rw [hcall, ← hrequest]; rfl))
  obtain ⟨i', n', number, call, r, rfl, hdeed⟩ := mem_narrow.mp ha
  cases hclient
  cases hcall
  have hcommitted : Committed tr w.server i n id :=
    ⟨⟨number, request, r, Trace.mem_deeds.mp hdeed, hrequest⟩, ledger, mutations, hledger, hdone⟩
  refine ⟨htracks.commits hchosen, hknown.ledger_of hid hledger, hcommitted, ?_, ?_⟩
  · intro n' id' hother
    exact hother.unique h hcommitted
  · intro n' session hbegun
    by_contra hlt
    have hnext : n' < (course conn tr i).next := htracks.begun hbegun
    exact hcommitted.not_void h (by omega) (htracks.past (by omega))

/-- Whatever is lost on the way and however often mutators are run again, a transaction that is
committed is what the last run of one mutator has made of it, and the call commits no other. -/
theorem committed_by_call {ledger : Ledger} {mutations : List Mutation}
    (h : Run (Step (service conn)) (System.make conn callers) tr w)
    (hledger : w.server.ledger id = some ledger) (hdone : ledger.state = .committed mutations) :
    ∃ i n, Carried tr w.server i n id ledger mutations := by
  obtain ⟨a, request, ha, -, -, -, hid⟩ := (known_of_run h).exists_commit hledger hdone
  obtain ⟨i, n, number, call, r, rfl, -⟩ := mem_narrow.mp ha
  exact ⟨i, n, carried_of_id h hid hledger hdone⟩

/-- A call that succeeds has committed a transaction. -/
theorem committed_of_success {value : CommitResult} {txn : Transaction (SessionHolder χ)}
    (h : Run (Step (service conn)) (System.make conn callers) tr w)
    (hret : (w.client i).rest = .ret (.ok (.ok (some (.ok value)), txn), ())) :
    ∃ n id ledger mutations, w.server.ledger id = some ledger ∧
      ledger.state = .committed mutations ∧ Carried tr w.server i n id ledger mutations := by
  have hsound := Network.Sound.run h
  obtain ⟨n, mutations, hwon⟩ := ((callers i).keeps_program.post_of_runs
    (hsound.runs_of_ret hret)) value txn rfl
  have hwon : Won n mutations (course conn tr i) := hwon
  have hknown := known_of_run h
  have hprogress := (tracks_of_run h i).progress n
  have hanswered := hwon.answered
  have hops := hwon.ops
  rw [hprogress] at hanswered hops
  have hlast : (chosen (use tr (i, n))).getLast? = some (.commit mutations) := by
    rw [← hknown.ops_after (i, n)]
    exact hops
  obtain ⟨id, ledger, hid, hledger, hdone⟩ :=
    hknown.exists_committed (List.append_nil _).symm hanswered hlast
  exact ⟨n, id, ledger, mutations, hledger, hdone, carried_of_id h hid hledger hdone⟩

end

end

def oneCaller (_ : Unit) : Caller := ⟨2, 2⟩

def insertsFirst : MutatorOperation := ⟨inserts, fun _ h => by cases h⟩

def insertRow : Mutation := .insert ⟨"Singers", ["SingerId"], [[.stringValue "2"]]⟩

def requestFor (id : String) : CommitRequest := ⟨"session", id, [insertRow]⟩

def aborted : Failure := .of .aborted "aborted" StatusCode.aborted_ne_ok

def callEvents : Network.Trace Unit (Reply (χ := Unit) ServerStream Unit) :=
  [.done () ⟨.mutator 0 none, ()⟩, .done () ⟨.choose 0 .nothing, some insertsFirst⟩,
    .done () ⟨.op 0 (.allocate false), .ok session⟩, .done () ⟨.op 0 .isExhausted, false⟩,
    .sent ⟨(), 1, .op 0 (.rpc (.executeSql insertRequest))⟩,
    .served ⟨⟨(), 1, .op 0 (.rpc (.executeSql insertRequest))⟩, .ok (inserted "first")⟩,
    .done () ⟨.op 0 (.rpc (.executeSql insertRequest)), .ok (inserted "first")⟩,
    .done () ⟨.choose 0 (.reported .success), none⟩,
    .done () ⟨.returns 0, .returned (.ok [insertRow])⟩, .done () ⟨.commit 0 [insertRow], ()⟩,
    .done () ⟨.op 0 .isExhausted, false⟩,
    .sent ⟨(), 2, .op 0 (.rpc (.commit (requestFor "first")))⟩, .acted,
    .served ⟨⟨(), 2, .op 0 (.rpc (.commit (requestFor "first")))⟩, .error aborted⟩,
    .done () ⟨.op 0 (.rpc (.commit (requestFor "first"))), .error aborted⟩,
    .done () ⟨.op 0 (.onFailure ⟨.aborted, "aborted"⟩), false⟩,
    .done () ⟨.op 0 .isExhausted, false⟩,
    .done () ⟨.onFailure (RetryLoop.retryLoopError Status.message "Permanent error in" "CommitImpl"
      ⟨.aborted, "aborted"⟩), true⟩,
    .done () ⟨.onCompletion, (10 : Nat)⟩, .done () ⟨.sleepFor 10, ()⟩,
    .done () ⟨.mutator 1 (some ⟨session, false⟩), ()⟩,
    .done () ⟨.choose 1 .nothing, some insertsFirst⟩, .done () ⟨.op 1 .isExhausted, false⟩,
    .sent ⟨(), 3, .op 1 (.rpc (.executeSql insertRequest))⟩,
    .served ⟨⟨(), 3, .op 1 (.rpc (.executeSql insertRequest))⟩, .ok (inserted "second")⟩,
    .done () ⟨.op 1 (.rpc (.executeSql insertRequest)), .ok (inserted "second")⟩,
    .done () ⟨.choose 1 (.reported .success), none⟩,
    .done () ⟨.returns 1, .returned (.ok [insertRow])⟩, .done () ⟨.commit 1 [insertRow], ()⟩,
    .done () ⟨.op 1 .isExhausted, false⟩,
    .sent ⟨(), 4, .op 1 (.rpc (.commit (requestFor "second")))⟩,
    .served ⟨⟨(), 4, .op 1 (.rpc (.commit (requestFor "second")))⟩, .ok ⟨⟨0, 0⟩⟩⟩,
    .done () ⟨.op 1 (.rpc (.commit (requestFor "second"))), .error tryAgain⟩,
    .done () ⟨.op 1 (.onFailure ⟨.unavailable, "try again"⟩), true⟩,
    .done () ⟨.op 1 .onCompletion, (10 : Nat)⟩, .done () ⟨.op 1 (.sleepFor 10), ()⟩,
    .done () ⟨.op 1 .isExhausted, false⟩,
    .sent ⟨(), 5, .op 1 (.rpc (.commit (requestFor "second")))⟩,
    .served ⟨⟨(), 5, .op 1 (.rpc (.commit (requestFor "second")))⟩, .ok ⟨⟨0, 0⟩⟩⟩,
    .done () ⟨.op 1 (.rpc (.commit (requestFor "second"))), .ok ⟨⟨0, 0⟩⟩⟩]

def firstLedger : Server := Server.empty.set "first" insertedLedger

def secondLedger : Server :=
  (firstLedger.set "first" { insertedLedger with state := .rolledBack }).set "second" insertedLedger

def committedLedger : Ledger := { insertedLedger with state := .committed [insertRow] }

def lastLedger : Server := secondLedger.set "second" committedLedger

theorem call_run : ∃ w value txn, Run (Network.Step (service serverConn))
    (System.make serverConn oneCaller) callEvents w ∧
    (w.client ()).rest = .ret (.ok (.ok (some (.ok value)), txn), ()) ∧
    w.server = lastLedger := by
  apply Exists.intro
  apply Exists.intro
  apply Exists.intro
  constructor
  · apply Run.cons (Network.Step.call _ rfl rfl)
    apply Run.cons (Network.Step.call _ rfl rfl)
    apply Run.cons (Network.Step.call _ rfl rfl)
    apply Run.cons (Network.Step.call _ rfl rfl)
    apply Run.cons (Network.Step.send rfl rfl rfl)
    apply Run.cons (Network.Step.serve (show _ = [] ++ _ :: [] from rfl)
      (Serves.op (Server.Serves.begun rfl rfl rfl) fun _ h => by cases h))
    apply Run.cons (Network.Step.receive rfl rfl List.mem_cons_self)
    apply Run.cons (Network.Step.call _ rfl rfl)
    apply Run.cons (Network.Step.call _ rfl rfl)
    apply Run.cons (Network.Step.call _ rfl rfl)
    apply Run.cons (Network.Step.call _ rfl rfl)
    apply Run.cons (Network.Step.send rfl rfl rfl)
    apply Run.cons (Network.Step.act (@Server.Acts.aborted firstLedger "first" insertedLedger
      Server.ledger_set_self rfl))
    apply Run.cons (Network.Step.serve (show _ = [] ++ _ :: [] from rfl)
      (Serves.op Server.Serves.failed fun _ h => by
        cases h
        exact ⟨_, Server.ledger_set_self, rfl⟩))
    apply Run.cons (Network.Step.receive rfl rfl List.mem_cons_self)
    apply Run.cons (Network.Step.call _ rfl rfl)
    apply Run.cons (Network.Step.call _ rfl rfl)
    apply Run.cons (Network.Step.call _ rfl rfl)
    apply Run.cons (Network.Step.call _ rfl rfl)
    apply Run.cons (Network.Step.call _ rfl rfl)
    apply Run.cons (Network.Step.call _ rfl rfl)
    apply Run.cons (Network.Step.call _ rfl rfl)
    apply Run.cons (Network.Step.call _ rfl rfl)
    apply Run.cons (Network.Step.send rfl rfl rfl)
    apply Run.cons (Network.Step.serve (show _ = [] ++ _ :: [] from rfl)
      (Serves.op (Server.Serves.begun rfl rfl (Server.ledger_set_of_ne (by decide)))
        fun _ h => by cases h))
    apply Run.cons (Network.Step.receive rfl rfl List.mem_cons_self)
    apply Run.cons (Network.Step.call _ rfl rfl)
    apply Run.cons (Network.Step.call _ rfl rfl)
    apply Run.cons (Network.Step.call _ rfl rfl)
    apply Run.cons (Network.Step.call _ rfl rfl)
    apply Run.cons (Network.Step.send rfl rfl rfl)
    apply Run.cons (Network.Step.serve (show _ = [] ++ _ :: [] from rfl)
      (Serves.op (@Server.Serves.committed _ _ serverConn secondLedger (requestFor "second")
        ⟨⟨0, 0⟩⟩ insertedLedger Server.ledger_set_self rfl) fun _ h => by cases h))
    apply Run.cons (Network.Step.lose rfl rfl (Loses.op .rpc rfl))
    apply Run.cons (Network.Step.call _ rfl rfl)
    apply Run.cons (Network.Step.call _ rfl rfl)
    apply Run.cons (Network.Step.call _ rfl rfl)
    apply Run.cons (Network.Step.call _ rfl rfl)
    apply Run.cons (Network.Step.send rfl rfl rfl)
    apply Run.cons (Network.Step.serve (show _ = [] ++ _ :: [] from rfl)
      (Serves.op (@Server.Serves.recommitted _ _ serverConn lastLedger (requestFor "second")
        ⟨⟨0, 0⟩⟩ committedLedger Server.ledger_set_self rfl) fun _ h => by cases h))
    exact .single (Network.Step.receive rfl rfl List.mem_cons_self)
  · exact ⟨rfl, rfl⟩

theorem committed_by_call_aborted : ∃ i n,
    Carried callEvents lastLedger i n "second" committedLedger [insertRow] := by
  obtain ⟨w, value, txn, hrun, -, hserver⟩ := call_run
  have hledger : w.server.ledger "second" = some committedLedger := by
    rw [hserver]
    exact Server.ledger_set_self
  rw [← hserver]
  exact committed_by_call hrun hledger rfl

theorem committed_of_success_aborted : ∃ n id ledger mutations,
    Carried callEvents lastLedger () n id ledger mutations := by
  obtain ⟨w, value, txn, hrun, hret, hserver⟩ := call_run
  obtain ⟨n, id, ledger, mutations, -, -, hcarried⟩ := committed_of_success hrun hret
  rw [← hserver]
  exact ⟨n, id, ledger, mutations, hcarried⟩

end ClientCommit

end SpannerClient
