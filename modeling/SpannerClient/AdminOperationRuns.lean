import SpannerClient.AdminOperations
import SpannerClient.Library.Network

namespace SpannerClient

open Program

namespace RetryLoop

section

variable {ε : Type} {ρ : ε → Type} {σ : Type} {policies : LoopPolicies ρ σ}
  {print : Status → String} {location : String} {Q : Sigma ρ → Prop} {e : ε} [RetryResult (ρ e)]
  {s s' : σ} {tr : List (Sigma ρ)} {result : Except Abort (ρ e)}

theorem calls_giveUp (hpolicies : policies.Within Q) {lastStatus : Status}
    (h : (giveUp policies print location lastStatus : Program ρ σ Abort (ρ e)).Runs
      s tr result s') : ∀ c ∈ tr, Q c := by
  rw [giveUp, runs_bind] at h
  rcases h with ⟨exhausted, tr₁, tr₂, s₁, rfl, hexhausted, h⟩ | ⟨x, rfl, hexhausted⟩
  · have htr₂ : tr₂ = [] := by
      cases exhausted with
      | true | false => exact (runs_returnStatus h).2.1
    rw [htr₂, List.append_nil]
    exact (hpolicies.isExhausted hexhausted).2.2
  · exact (hpolicies.isExhausted hexhausted).2.2

theorem countP_le_one (hpolicies : policies.Within Q) {p : ε → Bool}
    (hquiet : ∀ c, Q c → p c.1 = false) {fuel : Nat} {lastStatus : Status}
    (h : (loop policies print false (perform e) location fuel lastStatus).Runs s tr result s') :
    (tr.map Sigma.fst).countP p ≤ 1 := by
  have hzero {tr : List (Sigma ρ)} (hcalls : ∀ c ∈ tr, Q c) : (tr.map Sigma.fst).countP p = 0 := by
    rw [List.countP_eq_zero]
    intro e' he'
    obtain ⟨c, hc, rfl⟩ := List.mem_map.mp he'
    rw [hquiet c (hcalls c hc)]
    exact Bool.false_ne_true
  cases fuel with
  | zero =>
    rw [loop, runs_throw] at h
    rw [h.1]
    exact Nat.zero_le 1
  | succ fuel =>
    rw [loop, runs_bind] at h
    rcases h with ⟨exhausted, tr₁, tr₂, s₁, rfl, hexhausted, h⟩ | ⟨x, rfl, hexhausted⟩
    · rw [List.map_append, List.countP_append, hzero (hpolicies.isExhausted hexhausted).2.2,
        Nat.zero_add]
      cases exhausted with
      | true => exact (hzero (calls_giveUp hpolicies h)).trans_le (Nat.zero_le 1)
      | false =>
        simp only [Bool.false_eq_true, if_false, runs_perform_bind] at h
        obtain ⟨r, tr₃, rfl, h⟩ := h
        have htr₃ : tr₃ = [] := by
          cases hok : (getResultStatus r).ok with
          | true =>
            simp only [hok, if_true, runs_pure] at h
            exact h.1
          | false =>
            simp only [hok, Bool.false_eq_true, if_false, Bool.not_false, if_true] at h
            exact (runs_returnStatus h).2.1
        rw [htr₃]
        exact List.countP_le_length
    · exact (hzero (hpolicies.isExhausted hexhausted).2.2).trans_le (Nat.zero_le 1)

end

end RetryLoop

namespace PollingLoop

open Protobuf

variable {α : Type} {makeStatusFromRpcError : RpcStatus → Status}
  {extract : Protobuf.Operation → String → StatusOr α} {location : String} {tr : Trace}
  {result : Except Abort (StatusOr α)}

structure Completed (extract : Protobuf.Operation → String → StatusOr α) (location : String) (a : α)
    (final : Protobuf.Operation) : Prop where
  done : final.done = true
  noError : final.getError = none
  extracted : extract final location = .ok a

theorem own_of_runs {fuel : Nat} {operation : Protobuf.Operation}
    (h : (pollingLoop makeStatusFromRpcError extract location fuel operation).Runs () tr result ())
    (hnames : ∀ name update, ⟨.getOperation name, .ok update⟩ ∈ tr → update.name = name) :
    (∀ name reply, ⟨.getOperation name, reply⟩ ∈ tr → name = operation.name) ∧
      ∀ a, result = .ok (.ok a) → ∃ final, Completed extract location a final ∧
        (final = operation ∨ ⟨.getOperation operation.name, .ok final⟩ ∈ tr) := by
  induction fuel generalizing operation tr with
  | zero =>
    rw [pollingLoop, runs_throw] at h
    obtain ⟨rfl, rfl, -⟩ := h
    simp
  | succ fuel ih =>
    rcases runs_pollingLoop_succ.mp h with ⟨hdone, rfl, rfl⟩ | ⟨-, period, reply, tr, rfl, hround⟩
    · refine ⟨by simp, fun a ha => ?_⟩
      obtain ⟨herror, hextract⟩ := outcome_value ha
      exact ⟨operation, ⟨hdone, herror, hextract⟩, .inl rfl⟩
    · rcases hround with ⟨hreply, rfl, rfl⟩ | ⟨-, ⟨rfl, rfl⟩ | ⟨tail, rfl, hrun⟩⟩
      · refine ⟨by simp [poll], fun a ha => ?_⟩
        obtain ⟨herror, hextract⟩ := outcome_value ha
        cases reply with
        | ok final => exact ⟨final, ⟨hreply, herror, hextract⟩, .inr (by simp [poll])⟩
        | error e => cases hreply
      · exact ⟨by simp [poll], fun a ha => by cases ha⟩
      · have hname : (after operation reply).name = operation.name := by
          cases reply with
          | ok update => exact hnames operation.name update (by simp [poll])
          | error e => rfl
        have hrest := ih hrun fun name update hmem => hnames name update (by simp [hmem])
        rw [hname] at hrest
        refine ⟨fun name reply' hmem => ?_, fun a ha => ?_⟩
        · simp only [poll, List.cons_append, List.nil_append, List.mem_cons, Sigma.mk.injEq,
            reduceCtorEq, false_and, false_or, PollCall.getOperation.injEq] at hmem
          rcases hmem with ⟨rfl, -⟩ | hmem
          · rfl
          · exact hrest.1 name reply' hmem
        · obtain ⟨final, hcompleted, hfinal⟩ := hrest.2 a ha
          refine ⟨final, hcompleted, ?_⟩
          rcases hfinal with rfl | hmem
          · cases reply with
            | ok update => exact .inr (by simp [poll, after])
            | error e => exact .inl rfl
          · exact .inr (by simp [hmem])

end PollingLoop

namespace Admin

instance (e : Call) : Nonempty (Reply e) := by
  cases e with
  | start => exact ⟨.error PollingLoop.exhausted⟩
  | isExhausted | onFailure => exact ⟨true⟩
  | onCompletion => exact ⟨0⟩
  | sleepFor => exact ⟨()⟩
  | poll call =>
    cases call with
    | waitPeriod => exact ⟨(0 : Nat)⟩
    | sleep => exact ⟨()⟩
    | getOperation => exact ⟨.error PollingLoop.exhausted⟩
    | onFailure => exact ⟨true⟩

namespace Call

def isStart : Call → Bool
  | .start _ => true
  | .isExhausted | .onFailure _ | .onCompletion | .sleepFor _ | .poll _ => false

def isRemote : Call → Bool
  | .start _ | .poll (.getOperation _) => true
  | .isExhausted | .onFailure _ | .onCompletion | .sleepFor _ | .poll .waitPeriod
  | .poll (.sleep _) | .poll (.onFailure _) => false

theorem not_isStart {e : Call} (h : e.isRemote = false) : e.isStart = false := by
  cases e with
  | start => cases h
  | isExhausted | onFailure | onCompletion | sleepFor | poll => rfl

end Call

structure Record where
  request : Request
  operation : Protobuf.Operation

structure Server where
  record : String → Option Record
  named {name : String} {r : Record} : record name = some r → r.operation.name = name

namespace Server

def set (server : Server) (r : Record) : Server where
  record := Function.update server.record r.operation.name (some r)
  named {name r'} h := by
    by_cases hname : name = r.operation.name
    · subst hname
      rw [Function.update_self] at h
      cases h
      rfl
    · rw [Function.update_of_ne hname] at h
      exact server.named h

/-- An operation is started under a new name; what fails changes nothing. -/
inductive Serves (server : Server) : (e : Call) → Reply e → Server → Prop
  | started {request : Request} {operation : Protobuf.Operation} :
    server.record operation.name = none →
      Serves server (.start request) (.ok operation) (server.set ⟨request, operation⟩)
  | refused {request : Request} {e : Failure} : Serves server (.start request) (.error e) server
  | found {name : String} {r : Record} :
    server.record name = some r →
      Serves server (.poll (.getOperation name)) (.ok r.operation) server
  | failed {name : String} {e : Failure} :
    Serves server (.poll (.getOperation name)) (.error e) server

inductive Acts (server : Server) : Server → Prop
  | proceeds {r : Record} {operation : Protobuf.Operation} :
    server.record operation.name = some r → r.operation.done = false →
      Acts server (server.set { r with operation })

end Server

inductive Loses : (e : Call) → Reply e → Prop
  | start {request : Request} {e : Failure} : Loses (.start request) (.error e)
  | getOperation {name : String} {e : Failure} :
    Loses (.poll (.getOperation name)) (.error e)

def service : Service (ε := Call) Reply Server where
  isRemote := Call.isRemote
  Serves := Server.Serves
  Acts := Server.Acts
  Loses := Loses

inductive Method (α : Type)
  | createDatabase (packing : Packing α) (database : Database) (extraStatements : List String)
  | updateDatabase (packing : Packing α) (database : Database) (statements : List String)
  | restoreDatabase (packing : Packing α) (database : Database) (backupFullName : String)
  | createBackup (packing : Packing α) (database : Database) (backupId : String) {p : Period}
    (expireTime : SysTime p)
  | createInstance (packing : Packing α) (request : CreateInstanceRequest)
  | updateInstance (packing : Packing α) (request : Protobuf.UpdateInstanceRequest)

def Method.invocation {α : Type} : Method α → Invocation α
  | .createDatabase packing database extraStatements =>
    DatabaseAdminConnectionImpl.createDatabase packing database extraStatements
  | .updateDatabase packing database statements =>
    DatabaseAdminConnectionImpl.updateDatabase packing database statements
  | .restoreDatabase packing database backupFullName =>
    DatabaseAdminConnectionImpl.restoreDatabase packing database backupFullName
  | .createBackup packing database backupId expireTime =>
    DatabaseAdminConnectionImpl.createBackup packing database backupId expireTime
  | .createInstance packing request => InstanceAdminConnectionImpl.createInstance packing request
  | .updateInstance packing request => InstanceAdminConnectionImpl.updateInstance packing request

structure Client (α : Type) where
  conn : Connection
  method : Method α

namespace Client

variable {α : Type} (c : Client α)

def invocation : Invocation α := c.method.invocation

def program : Interaction Call Reply (Except Abort (StatusOr α) × Unit) :=
  c.conn.run c.invocation ()

theorem isIdempotent_eq_false {c : Client α}
    (h : ∀ packing request, c.method ≠ .updateInstance packing request) :
    c.invocation.isIdempotent = false := by
  rw [invocation]
  cases hmethod : c.method with
  | updateInstance packing request => exact absurd hmethod (h packing request)
  | createDatabase | updateDatabase | restoreDatabase | createBackup | createInstance => rfl

end Client

section

variable {α : Type} {conn : Connection} {m : Invocation α} {tr : List (Sigma Reply)}

theorem policies_within : policies.Within fun c => c.1.isRemote = false where
  isExhausted h := by
    obtain ⟨b, rfl, rfl, rfl⟩ := runs_perform.mp h
    exact ⟨⟨b, rfl⟩, rfl, by simp [Call.isRemote]⟩
  onFailure h := by
    obtain ⟨b, rfl, rfl, rfl⟩ := runs_perform.mp h
    exact ⟨⟨b, rfl⟩, rfl, by simp [Call.isRemote]⟩
  backoff h := by
    simp only [policies, runs_perform_bind, runs_perform] at h
    obtain ⟨delay, _, rfl, r, rfl, rfl, -⟩ := h
    exact ⟨rfl, rfl, by simp [Call.isRemote]⟩

theorem runs_start {isIdempotent : Bool} {location : String} {request : Request}
    {result : Except Abort (StatusOr Protobuf.Operation)}
    (h : (conn.start isIdempotent location request).Runs () tr result ()) :
    RetryLoop.Reports (ρ := Reply) (fun c => c.1.isRemote = false) (.start request) tr result :=
  (RetryLoop.runs_loop (e := Call.start request) (fun _ h => by simp [Call.isRemote] at h)
    policies_within h).2

theorem not_isStart_of_polling {narrow : PollingLoop.Trace}
    (h : List.Forall₂ polling.Exchanges tr narrow) :
    (tr.map Sigma.fst).countP Call.isStart = 0 := by
  induction h with
  | nil => rfl
  | cons hexchange _ ih =>
    obtain ⟨e, r, rfl, -⟩ := hexchange
    simpa [polling, Call.isStart] using ih

theorem runs_run {result : Except Abort (StatusOr α)}
    (h : (conn.run m).Runs () tr result ()) :
    (tr = [] ∧ ∃ e, result = .ok (.error e)) ∨
      ∃ request started tr₁ tr₂, tr = tr₁ ++ tr₂ ∧ m.request = .ok request ∧
        (conn.start m.isIdempotent m.location request).Runs () tr₁ started () ∧
        ((tr₂ = [] ∧ ∀ a, result ≠ .ok (.ok a)) ∨ ∃ operation narrow,
          started = .ok (.ok operation) ∧ List.Forall₂ polling.Exchanges tr₂ narrow ∧
          (PollingLoop.pollingLoop conn.makeStatusFromRpcError m.extract m.awaitLocation conn.fuel
            operation).Runs () narrow result ()) := by
  rw [Connection.run] at h
  cases hrequest : m.request with
  | error e =>
    rw [hrequest] at h
    obtain ⟨rfl, rfl, -⟩ := runs_pure.mp h
    exact .inl ⟨rfl, e, rfl⟩
  | ok request =>
    simp only [hrequest, runs_bind] at h
    refine .inr ?_
    rcases h with ⟨reply, tr₁, tr₂, _, rfl, hstart, h⟩ | ⟨x, rfl, hstart⟩
    · refine ⟨request, _, tr₁, tr₂, rfl, rfl, hstart, ?_⟩
      cases reply with
      | error e =>
        obtain ⟨rfl, rfl, -⟩ := runs_pure.mp h
        exact .inl ⟨rfl, fun a ha => by cases ha⟩
      | ok operation =>
        obtain ⟨narrow, hexchanges, hpolling⟩ := runs_embed.mp h
        exact .inr ⟨operation, narrow, rfl, hexchanges, hpolling⟩
    · exact ⟨request, _, tr, [], (List.append_nil _).symm, rfl, hstart,
        .inl ⟨rfl, fun a ha => by cases ha⟩⟩

theorem countP_isStart_le_one {result : Except Abort (StatusOr α)}
    (hidempotent : m.isIdempotent = false) (h : (conn.run m).Runs () tr result ()) :
    (tr.map Sigma.fst).countP Call.isStart ≤ 1 := by
  rcases runs_run h with ⟨rfl, -⟩ | ⟨request, started, tr₁, tr₂, rfl, -, hstart, hrest⟩
  · exact Nat.zero_le 1
  · rw [hidempotent] at hstart
    have hfirst : (tr₁.map Sigma.fst).countP Call.isStart ≤ 1 :=
      RetryLoop.countP_le_one (e := Call.start request) policies_within
        (fun c => Call.not_isStart) hstart
    have hsecond : (tr₂.map Sigma.fst).countP Call.isStart = 0 := by
      rcases hrest with ⟨rfl, -⟩ | ⟨_, _, -, hexchanges, -⟩
      · rfl
      · exact not_isStart_of_polling hexchanges
    rw [List.map_append, List.countP_append, hsecond]
    exact hfirst

theorem value_of_runs {a : α} (h : (conn.run m).Runs () tr (.ok (.ok a)) ())
    (hnames : ∀ name update, ⟨.poll (.getOperation name), .ok update⟩ ∈ tr → update.name = name) :
    ∃ request operation final, m.request = .ok request ∧ ⟨.start request, .ok operation⟩ ∈ tr ∧
      PollingLoop.Completed m.extract m.awaitLocation a final ∧
      (final = operation ∨ ⟨.poll (.getOperation operation.name), .ok final⟩ ∈ tr) := by
  rcases runs_run h with ⟨-, e, hresult⟩ | ⟨request, _, tr₁, tr₂, rfl, hrequest, hstart, hrest⟩
  · cases hresult
  · rcases hrest with ⟨-, hvalue⟩ | ⟨operation, narrow, rfl, hexchanges, hpolling⟩
    · exact absurd rfl (hvalue a)
    · have hstarted : ⟨.start request, .ok operation⟩ ∈ tr₁ := by
        rcases (runs_start hstart).success _ rfl rfl with hmem | ⟨status, hstatus⟩
        · exact hmem
        · simp only [RetryResult.ofStatus] at hstatus
          split at hstatus <;> cases hstatus
      have hmem {name : String} {reply : StatusOr Protobuf.Operation}
          (h : ⟨.getOperation name, reply⟩ ∈ narrow) :
          ⟨.poll (.getOperation name), reply⟩ ∈ tr₂ := by
        obtain ⟨c, hc, e, r, rfl, heq⟩ := Embedding.exists_wide hexchanges h
        cases heq
        exact hc
      obtain ⟨final, hcompleted, hfinal⟩ := (PollingLoop.own_of_runs hpolling
        fun name update hupdate => hnames name update (by simp [hmem hupdate])).2 a rfl
      exact ⟨request, operation, final, hrequest, by simp [hstarted], hcompleted,
        hfinal.imp_right fun hpolled => by simp [hmem hpolled]⟩

end

namespace Server

variable {server server' : Server}

theorem record_set_self (r : Record) : (server.set r).record r.operation.name = some r :=
  Function.update_self ..

theorem record_set_of_ne {r : Record} {name : String} (h : name ≠ r.operation.name) :
    (server.set r).record name = server.record name :=
  Function.update_of_ne h ..

def Extends (server server' : Server) : Prop :=
  ∀ name r, server.record name = some r → ∃ r', server'.record name = some r' ∧
    r'.request = r.request ∧ (r.operation.done = true → r' = r)

theorem Extends.refl (server : Server) : server.Extends server :=
  fun _ r hr => ⟨r, hr, rfl, fun _ => rfl⟩

theorem extends_set {r : Record}
    (h : ∀ current, server.record r.operation.name = some current →
      r.request = current.request ∧ current.operation.done = false) :
    server.Extends (server.set r) := by
  intro name current hcurrent
  by_cases hname : name = r.operation.name
  · subst hname
    obtain ⟨hrequest, hdone⟩ := h current hcurrent
    refine ⟨r, record_set_self r, hrequest, fun hdone' => ?_⟩
    rw [hdone] at hdone'
    cases hdone'
  · exact ⟨current, (record_set_of_ne hname).trans hcurrent, rfl, fun _ => rfl⟩

theorem Serves.extends {e : Call} {r : Reply e} (h : Serves server e r server') :
    server.Extends server' := by
  cases h with
  | started hnew =>
    refine extends_set fun current hcurrent => ?_
    rw [hnew] at hcurrent
    cases hcurrent
  | refused | found | failed => exact .refl server

theorem Acts.extends (h : Acts server server') : server.Extends server' := by
  cases h with
  | @proceeds r operation hr hdone =>
    refine extends_set fun current hcurrent => ?_
    cases hr.symm.trans hcurrent
    exact ⟨rfl, hdone⟩

def Knows (server : Server) : (e : Call) → Reply e → Prop
  | .start request, .ok operation =>
    ∃ r, server.record operation.name = some r ∧ r.request = request ∧
      (operation.done = true → r.operation = operation)
  | .poll (.getOperation name), .ok operation =>
    operation.name = name ∧ ∃ r, server.record name = some r ∧
      (operation.done = true → r.operation = operation)
  | _, _ => True

theorem Knows.mono (hextends : server.Extends server') {e : Call} {r : Reply e}
    (h : server.Knows e r) : server'.Knows e r := by
  have hkeep {name : String} {r : Record} {operation : Protobuf.Operation}
      (hr : server.record name = some r) (hdone : operation.done = true → r.operation = operation) :
      ∃ r', server'.record name = some r' ∧ r'.request = r.request ∧
        (operation.done = true → r'.operation = operation) := by
    obtain ⟨r', hr', hrequest, hsame⟩ := hextends name r hr
    refine ⟨r', hr', hrequest, fun hdone' => ?_⟩
    have hoperation := hdone hdone'
    rw [hsame (by rw [hoperation, hdone']), hoperation]
  cases e with
  | start request =>
    cases r with
    | error => trivial
    | ok operation =>
      obtain ⟨r, hr, rfl, hdone⟩ := h
      exact hkeep hr hdone
  | poll call =>
    cases call with
    | getOperation name =>
      cases r with
      | error => trivial
      | ok operation =>
        obtain ⟨hname, r, hr, hdone⟩ := h
        obtain ⟨r', hr', -, hdone'⟩ := hkeep hr hdone
        exact ⟨hname, r', hr', hdone'⟩
    | waitPeriod | sleep | onFailure => trivial
  | isExhausted | onFailure | onCompletion | sleepFor => trivial

theorem Serves.knows {e : Call} {r : Reply e} (h : Serves server e r server') :
    server'.Knows e r := by
  cases h with
  | started => exact ⟨_, record_set_self _, rfl, fun _ => rfl⟩
  | found hr => exact ⟨server.named hr, _, hr, fun _ => rfl⟩
  | refused | failed => trivial

section

open Network

variable {ι : Type}

def given : Option (Answer ι Reply) → Option String
  | some ⟨⟨_, _, .start _⟩, .ok operation⟩ => some operation.name
  | _ => none

theorem Serves.new {a : Answer ι Reply} {name : String}
    (h : Serves server a.message.call a.reply server') (hgiven : given (some a) = some name) :
    server.record name = none := by
  obtain ⟨⟨i, number, call⟩, reply⟩ := a
  cases h with
  | started hnew =>
    cases hgiven
    exact hnew
  | refused | found | failed => cases hgiven

theorem Knows.record_ne {a : Answer ι Reply} {name : String}
    (h : server.Knows a.message.call a.reply) (hgiven : given (some a) = some name) :
    server.record name ≠ none := by
  obtain ⟨⟨i, number, call⟩, reply⟩ := a
  cases call with
  | start request =>
    cases reply with
    | error => cases hgiven
    | ok operation =>
      cases hgiven
      obtain ⟨r, hr, -⟩ := h
      rw [hr]
      exact Option.some_ne_none r
  | isExhausted | onFailure | onCompletion | sleepFor | poll => cases hgiven

theorem memory : Memory (ι := ι) service Knows given where
  answers := Serves.knows
  keeps hstep hknows := by
    cases hstep with
    | serves hserves => exact hknows.mono (Serves.extends hserves)
    | acts hacts => exact hknows.mono (Acts.extends hacts)
  acted := rfl
  fresh hserves hgiven hknows hgiven' := hknows.record_ne hgiven' (Serves.new hserves hgiven)

end

end Server

section

open Network

variable {ι α : Type} [DecidableEq ι] {clients : ι → Client α} {server : Server}
  {tr : Trace ι Reply} {w : World ι Reply (Except Abort (StatusOr α) × Unit) Server}

/-- What a method other than `UpdateInstance()` starts is started once, whatever is lost. -/
theorem started_at_most_once
    (h : Run (Step service) (World.start (fun i => (clients i).program) server) tr w) {i : ι}
    (hmethod : ∀ packing request, (clients i).method ≠ .updateInstance packing request) :
    tr.served.countP (fun m => m.client = i && m.call.isStart) ≤ 1 := by
  refine (Sound.run h).countP_served_le_of_runs fun exchanges a hrun => ?_
  refine (List.Sublist.countP_le List.filter_sublist).trans ?_
  obtain ⟨result, ⟨⟩⟩ := a
  exact countP_isStart_le_one (Client.isIdempotent_eq_false hmethod) hrun

/-- A value is extracted from an operation that the server keeps for the request of that client,
and which was started for no other client. -/
theorem value_of_own_operation
    (h : Run (Step service) (World.start (fun i => (clients i).program) server) tr w)
    {i : ι} {a : α} (hvalue : (w.client i).rest = .ret (.ok (.ok a), ())) :
    ∃ request number operation r, (clients i).invocation.request = .ok request ∧
      .served ⟨⟨i, number, .start request⟩, .ok operation⟩ ∈ tr ∧
      w.server.record operation.name = some r ∧ r.request = request ∧
      PollingLoop.Completed (clients i).invocation.extract (clients i).invocation.awaitLocation a
        r.operation ∧
      ∀ j ≠ i, ∀ number' request' operation',
        .served ⟨⟨j, number', .start request'⟩, .ok operation'⟩ ∈ tr →
          operation'.name ≠ operation.name := by
  have hsound := Sound.run h
  have hremembers := Server.memory.run hsound.server
  have hknows {a : Answer ι Reply} (ha : .served a ∈ tr) :
      w.server.Knows a.message.call a.reply := hremembers.knows a (Trace.mem_deeds.mpr ha)
  have hserved {e : Call} {r : Reply e} (hmem : ⟨e, r⟩ ∈ tr.exchanges i) (he : e.isRemote = true)
      (hr : ¬ Loses e r) : ∃ number, .served ⟨⟨i, number, e⟩, r⟩ ∈ tr :=
    (hsound.done i e r (Trace.mem_exchanges.mp hmem) he).resolve_left hr
  obtain ⟨request, operation, final, hrequest, hstarted, hcompleted, hfinal⟩ :=
    value_of_runs (hsound.runs_of_ret hvalue) fun name update hmem => by
      obtain ⟨number, hpolled⟩ := hserved hmem rfl (fun hloses => by cases hloses)
      exact (hknows hpolled).1
  obtain ⟨number, hstart⟩ := hserved hstarted rfl (fun hloses => by cases hloses)
  obtain ⟨r, hr, hrequest', hsame⟩ := hknows hstart
  have hoperation : r.operation = final := by
    rcases hfinal with rfl | hpolled
    · exact hsame hcompleted.done
    · obtain ⟨number', hpoll⟩ := hserved hpolled rfl (fun hloses => by cases hloses)
      obtain ⟨-, r', hr', hsame'⟩ := hknows hpoll
      cases hr.symm.trans hr'
      exact hsame' hcompleted.done
  refine ⟨request, number, operation, r, hrequest, hstart, hr, hrequest', ?_, ?_⟩
  · rw [hoperation]
    exact hcompleted
  · intro j hj number' request' operation' hother hname
    have hgiven : Server.given (some (⟨⟨j, number', .start request'⟩, .ok operation'⟩ :
        Answer ι Reply)) = some operation.name := by rw [← hname]; rfl
    cases eq_of_given hremembers.distinct (Trace.mem_deeds.mpr hother) (Trace.mem_deeds.mpr hstart)
      hgiven rfl
    exact hj rfl

end

def creating (_ : Unit) : Client String where
  conn := ⟨⟨Status.message, 2⟩, fun error => ⟨.unknown, error.message⟩⟩
  method := .createDatabase textPacking ⟨⟨"p", "i"⟩, "d"⟩ []

def createRequest : Request :=
  .createDatabase "projects/p/instances/i" "CREATE DATABASE `d`" []

def noOperations : Server := ⟨fun _ => none, nofun⟩

def creatingTrace : Network.Trace Unit Reply :=
  [.done () ⟨.isExhausted, false⟩,
    .sent ⟨(), 1, .start createRequest⟩,
    .served ⟨⟨(), 1, .start createRequest⟩, .ok pendingOperation⟩,
    .done () ⟨.start createRequest, .ok pendingOperation⟩,
    .done () ⟨.poll .waitPeriod, (10 : Nat)⟩,
    .done () ⟨.poll (.sleep 10), ()⟩,
    .acted,
    .sent ⟨(), 2, .poll (.getOperation "test-operation")⟩,
    .served ⟨⟨(), 2, .poll (.getOperation "test-operation")⟩, .ok finishedOperation⟩,
    .done () ⟨.poll (.getOperation "test-operation"), .ok finishedOperation⟩]

theorem creating_run : ∃ w, Run (Network.Step service)
    (Network.World.start (fun i => (creating i).program) noOperations) creatingTrace w ∧
    (w.client ()).rest = .ret (.ok (.ok "42"), ()) := by
  apply Exists.intro
  constructor
  · apply Run.cons (Network.Step.call _ rfl rfl)
    apply Run.cons (Network.Step.send rfl rfl rfl)
    apply Run.cons (Network.Step.serve (show _ = [] ++ _ :: [] from rfl)
      (Server.Serves.started rfl))
    apply Run.cons (Network.Step.receive rfl rfl List.mem_cons_self)
    apply Run.cons (Network.Step.call _ rfl rfl)
    apply Run.cons (Network.Step.call _ rfl rfl)
    apply Run.cons (Network.Step.act (@Server.Acts.proceeds _ ⟨createRequest, pendingOperation⟩
      finishedOperation rfl rfl))
    apply Run.cons (Network.Step.send rfl rfl rfl)
    apply Run.cons (Network.Step.serve (show _ = [] ++ _ :: [] from rfl)
      (@Server.Serves.found _ "test-operation" ⟨createRequest, finishedOperation⟩ rfl))
    exact .single (Network.Step.receive rfl rfl List.mem_cons_self)
  · rfl

def lostStartTrace : Network.Trace Unit Reply :=
  [.done () ⟨.isExhausted, false⟩,
    .sent ⟨(), 1, .start createRequest⟩,
    .served ⟨⟨(), 1, .start createRequest⟩, .ok pendingOperation⟩,
    .done () ⟨.start createRequest, .error (.of .unavailable "try again" StatusCode.unavailable_ne_ok)⟩]

theorem started_at_most_once_lost : ∃ w, Run (Network.Step service)
    (Network.World.start (fun i => (creating i).program) noOperations) lostStartTrace w ∧
    (∃ e, (w.client ()).rest = .ret (.ok (.error e), ())) ∧
    lostStartTrace.served.countP (fun m => m.client = () && m.call.isStart) ≤ 1 := by
  have hrun : ∃ w, Run (Network.Step service)
      (Network.World.start (fun i => (creating i).program) noOperations) lostStartTrace w ∧
      ∃ e, (w.client ()).rest = .ret (.ok (.error e), ()) := by
    apply Exists.intro
    constructor
    · apply Run.cons (Network.Step.call _ rfl rfl)
      apply Run.cons (Network.Step.send rfl rfl rfl)
      apply Run.cons (Network.Step.serve (show _ = [] ++ _ :: [] from rfl)
        (Server.Serves.started rfl))
      exact .single (Network.Step.lose rfl rfl .start)
    · exact ⟨_, rfl⟩
  obtain ⟨w, hrun, hend⟩ := hrun
  exact ⟨w, hrun, hend, started_at_most_once hrun fun _ _ hmethod => by cases hmethod⟩

theorem value_of_own_operation_creating :
    ∃ (w : Network.World Unit Reply (Except Abort (StatusOr String) × Unit) Server)
      (number : Nat) (operation : Protobuf.Operation) (r : Record),
      .served ⟨⟨(), number, .start createRequest⟩, .ok operation⟩ ∈ creatingTrace ∧
      w.server.record operation.name = some r ∧
      PollingLoop.Completed (extractResponse textPacking) "AwaitDatabase" "42" r.operation := by
  obtain ⟨w, hrun, hvalue⟩ := creating_run
  obtain ⟨_, number, operation, r, hrequest, hserved, hr, -, hcompleted, -⟩ :=
    value_of_own_operation hrun hvalue
  cases hrequest
  exact ⟨w, number, operation, r, hserved, hr, hcompleted⟩

end Admin

end SpannerClient
