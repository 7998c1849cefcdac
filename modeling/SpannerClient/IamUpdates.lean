import SpannerClient.AdminClient
import SpannerClient.Internal.RetryContract
import SpannerClient.Library.Network
import Mathlib.Data.List.Nodup

/-! The clients that update IAM policies, and a server that keeps every version of a policy. -/

namespace SpannerClient.Iam

open Program

variable {ι β : Type}

/-- The policy that a client has read last, its last call of the updater with what that returned, and
the last write since then that the server has accepted. -/
structure Progress (β : Type) where
  read : Option (Policy β)
  update : Option (Policy β × Option (Policy β))
  written : Option (Request β × Policy β)

namespace Progress

def start : Progress β := ⟨none, none, none⟩

def next (g : Progress β) : (e : Call β) → Reply e → Progress β
  | .rpc (.getIamPolicy _), .ok policy => { g with read := some policy }
  | .rpc (.setIamPolicy resource policy), .ok written =>
    { g with written := some (.setIamPolicy resource policy, written) }
  | .updater current, reply => { g with update := some (current, reply), written := none }
  | _, _ => g

def Gives (resource : String) (g : Progress β) (policy : Policy β) : Prop :=
  ∃ current reply, g.update = some (current, reply) ∧
    match reply with
    | none => policy = current
    | some desired =>
      g.written = some (.setIamPolicy resource { desired with etag := current.etag }, policy)

end Progress

def IsUpdate (update : Option (Policy β × Option (Policy β))) (policy : Policy β) : Prop :=
  ∃ current desired, update = some (current, some desired) ∧
    policy = { desired with etag := current.etag }

def contract (resource : String) : Contract (Reply (β := β)) (Progress β) where
  allows g
    | .rpc (.getIamPolicy resource') => resource' = resource
    | .rpc (.setIamPolicy resource' policy) => resource' = resource ∧ IsUpdate g.update policy
    | .updater current => g.read = some current
    | .isExhausted _ | .onFailure _ _ | .onCompletion _ | .sleepFor _ => True
  next := Progress.next

variable {name : String} {g : Progress β} {conn : AdminConnection}

theorem keeps_policies (I : Unit → Progress β → Prop) :
    policies.Keeps (contract name) I where
  isExhausted h := ⟨trivial, fun _ => h⟩
  onFailure _ h := ⟨trivial, fun _ => h⟩
  backoff h := ⟨trivial, fun _ => ⟨trivial, fun _ => h⟩⟩

theorem keeps_getIamPolicy : (conn.getIamPolicy name).Keeps (contract name)
    (RetryLoop.Succeeds fun policy _ g => g.read = some policy) () g := by
  refine RetryLoop.keeps_loop (I := fun _ _ => True) (keeps_policies _) ?_ trivial
  rintro s g -
  refine (keeps_perform (e := Call.rpc (.getIamPolicy name))).mpr
    ⟨rfl, fun r => ⟨trivial, ?_⟩⟩
  rintro policy hr
  cases hr
  rfl

theorem keeps_setIamPolicy {current desired : Policy β}
    (h : g.update = some (current, some desired)) :
    (conn.setIamPolicy name { desired with etag := current.etag }).Keeps (contract name)
      (RetryLoop.Succeeds fun policy _ g => g.Gives name policy) () g := by
  refine RetryLoop.keeps_loop (I := fun _ g => g.update = some (current, some desired))
    (keeps_policies _) ?_ h
  intro s g hupdate
  refine (keeps_perform (e := Call.rpc (.setIamPolicy name _))).mpr
    ⟨⟨rfl, current, desired, hupdate, rfl⟩, fun r => ?_⟩
  cases r with
  | error e => exact ⟨hupdate, fun _ hr => nomatch hr⟩
  | ok written =>
    refine ⟨hupdate, fun policy hr => ?_⟩
    cases hr
    exact ⟨current, some desired, hupdate, rfl⟩

theorem keeps_attempt : (attempt (conn.getIamPolicy name) (conn.setIamPolicy name)).Keeps
    (contract name) (fun result _ g => ∀ policy, result = .ok (.inl (.ok policy)) →
      g.Gives name policy) () g := by
  refine keeps_getIamPolicy.bind ?_ fun _ _ _ _ _ h => nomatch h
  rintro (e | current) ⟨⟩ g hread
  · exact fun _ h => nomatch h
  · refine keeps_perform_bind.mpr ⟨hread current rfl, fun reply => ?_⟩
    cases reply with
    | none =>
      rintro policy ⟨⟩
      exact ⟨current, none, rfl, rfl⟩
    | some desired =>
      refine (keeps_setIamPolicy rfl).bind ?_ fun _ _ _ _ _ h => nomatch h
      intro result _ g hgives
      split
      · rintro policy ⟨⟩
        exact hgives policy rfl
      · exact fun _ h => nomatch h

theorem keeps_setWithUpdater {fuel : Nat} :
    (setWithUpdater (conn.getIamPolicy name) (conn.setIamPolicy name) fuel).Keeps
      (contract name) (RetryLoop.Succeeds fun policy _ g => g.Gives name policy) () g := by
  induction fuel generalizing g with
  | zero => exact keeps_throw.mpr RetryLoop.succeeds_error
  | succ fuel ih =>
    refine keeps_attempt.bind ?_ fun _ _ _ _ => RetryLoop.succeeds_error
    rintro (result | lastStatus) ⟨⟩ g hgives
    · rintro policy ⟨⟩
      exact hgives policy rfl
    · refine keeps_perform_bind.mpr ⟨trivial, fun again => ?_⟩
      cases again with
      | false => exact RetryLoop.keeps_returnStatus
      | true =>
        refine keeps_perform_bind.mpr ⟨trivial, fun delay => keeps_perform_bind.mpr
          ⟨trivial, fun _ => keeps_perform_bind.mpr ⟨trivial, fun exhausted => ?_⟩⟩⟩
        cases exhausted with
        | true => exact RetryLoop.keeps_returnStatus
        | false => exact ih

inductive Invocation
  | ofInstance (conn : AdminConnection) (i : Instance) (fuel : Nat)
  | ofDatabase (conn : AdminConnection) (db : Database) (fuel : Nat)

namespace Invocation

def program : Invocation → Op β (StatusOr (Policy β))
  | .ofInstance conn i fuel => InstanceAdminClient.setIamPolicyWithUpdater conn i fuel
  | .ofDatabase conn db fuel => DatabaseAdminClient.setIamPolicyWithUpdater conn db fuel

def resource : Invocation → String
  | .ofInstance _ i _ => i.fullName
  | .ofDatabase _ db _ => db.fullName

theorem keeps_program (v : Invocation) : (v.program : Op β _).Keeps (contract v.resource)
    (RetryLoop.Succeeds fun policy _ g => g.Gives v.resource policy) () g := by
  cases v with
  | ofInstance | ofDatabase => exact keeps_setWithUpdater

end Invocation

section

variable {tr : List (Sigma (Reply (β := β)))}

theorem mem_of_update {update : Policy β × Option (Policy β)}
    (h : ((contract name).after .start tr).update = some update) :
    ⟨.updater update.1, update.2⟩ ∈ tr := by
  induction tr using List.reverseRecOn with
  | nil => cases h
  | append_singleton tr exchange ih =>
    obtain ⟨e, r⟩ := exchange
    rw [Contract.after_append] at h
    rw [List.mem_append]
    cases e with
    | updater current =>
      cases h
      exact .inr (List.mem_singleton_self _)
    | rpc request => cases request <;> cases r <;> exact .inl (ih h)
    | isExhausted | onFailure | onCompletion | sleepFor => exact .inl (ih h)

theorem mem_of_written {request : Request β} {written : Policy β}
    (h : ((contract name).after .start tr).written = some (request, written)) :
    ⟨.rpc request, .ok written⟩ ∈ tr := by
  induction tr using List.reverseRecOn with
  | nil => cases h
  | append_singleton tr exchange ih =>
    obtain ⟨e, r⟩ := exchange
    rw [Contract.after_append] at h
    rw [List.mem_append]
    cases e with
    | rpc request' =>
      cases request' with
      | getIamPolicy => cases r <;> exact .inl (ih h)
      | setIamPolicy =>
        cases r with
        | error => exact .inl (ih h)
        | ok =>
          cases h
          exact .inr (List.mem_singleton_self _)
    | updater => cases h
    | isExhausted | onFailure | onCompletion | sleepFor => exact .inl (ih h)

theorem mem_of_read {current : Policy β} (h : (contract name).Obeys .start tr)
    (hread : ((contract name).after .start tr).read = some current) :
    ⟨.rpc (.getIamPolicy name), .ok current⟩ ∈ tr := by
  induction tr using List.reverseRecOn with
  | nil => cases hread
  | append_singleton tr exchange ih =>
    obtain ⟨e, r⟩ := exchange
    obtain ⟨hobeys, hallows, -⟩ := Contract.obeys_append.mp h
    rw [Contract.after_append] at hread
    rw [List.mem_append]
    cases e with
    | rpc request =>
      cases request with
      | setIamPolicy => cases r <;> exact .inl (ih hobeys hread)
      | getIamPolicy =>
        cases r with
        | error => exact .inl (ih hobeys hread)
        | ok =>
          cases hread
          cases hallows
          exact .inr (List.mem_singleton_self _)
    | updater | isExhausted | onFailure | onCompletion | sleepFor => exact .inl (ih hobeys hread)

theorem read_of_updater {current : Policy β} {reply : Option (Policy β)}
    (h : (contract name).Obeys .start tr) (hmem : ⟨.updater current, reply⟩ ∈ tr) :
    ⟨.rpc (.getIamPolicy name), .ok current⟩ ∈ tr := by
  obtain ⟨before, after, rfl⟩ := List.append_of_mem hmem
  obtain ⟨hobeys, hread, -⟩ := Contract.obeys_append.mp h
  exact List.mem_append_left _ (mem_of_read hobeys hread)

end

/-- The versions of a policy that a server has kept; no two of them have one etag. -/
structure History (β : Type) where
  current : Policy β
  past : List (Policy β)
  etag_ne : ∀ policy ∈ current :: past, policy.etag ≠ ""
  nodup : ((current :: past).map Policy.etag).Nodup

namespace History

def versions (h : History β) : List (Policy β) := h.current :: h.past

/-- A request with an empty etag is not checked. -/
def Accepts (h : History β) (policy : Policy β) : Prop :=
  policy.etag = "" ∨ policy.etag = h.current.etag

def write (h : History β) (policy : Policy β) (etag : String) (hne : etag ≠ "")
    (hfresh : etag ∉ h.versions.map Policy.etag) : History β where
  current := { policy with etag }
  past := h.versions
  etag_ne policy hpolicy := by
    rcases List.mem_cons.mp hpolicy with rfl | hpast
    · exact hne
    · exact h.etag_ne policy hpast
  nodup := List.nodup_cons.mpr ⟨hfresh, h.nodup⟩

theorem current_mem (h : History β) : h.current ∈ h.versions := List.mem_cons_self

end History

def Call.isRpc : Call β → Bool
  | .rpc _ => true
  | _ => false

/-- What is written gets a new etag; a write with the etag of an earlier version is rejected. -/
inductive Serves (server : String → History β) :
    (e : Call β) → Reply e → (String → History β) → Prop
  | read {resource : String} :
    Serves server (.rpc (.getIamPolicy resource)) (.ok (server resource).current) server
  | accepted {resource : String} {policy : Policy β} {etag : String} :
    (server resource).Accepts policy → (hne : etag ≠ "") →
      (hfresh : etag ∉ (server resource).versions.map Policy.etag) →
      Serves server (.rpc (.setIamPolicy resource policy)) (.ok { policy with etag })
        (Function.update server resource ((server resource).write policy etag hne hfresh))
  | rejected {resource : String} {policy : Policy β} {e : Failure} :
    ¬ (server resource).Accepts policy → e.status.code = .aborted →
      Serves server (.rpc (.setIamPolicy resource policy)) (.error e) server

inductive Acts (server : String → History β) : (String → History β) → Prop
  | written {resource : String} {policy : Policy β} {etag : String} (hne : etag ≠ "")
    (hfresh : etag ∉ (server resource).versions.map Policy.etag) :
    Acts server
      (Function.update server resource ((server resource).write policy etag hne hfresh))

inductive Loses : (e : Call β) → Reply e → Prop
  | rpc {request : Request β} {e : Failure} : Loses (.rpc request) (.error e)

def service : Service (ε := Call β) Reply (String → History β) where
  isRemote := Call.isRpc
  Serves := Serves
  Acts := Acts
  Loses := Loses

open Network (ServerStep Memory)

def replaced : Option (Network.Answer ι (Reply (β := β))) → Option (String × String)
  | some ⟨⟨_, _, .rpc (.setIamPolicy resource policy)⟩, .ok _⟩ =>
    if policy.etag = "" then none else some (resource, policy.etag)
  | _ => none

def History.Wrote (h : History β) (written : Policy β) (etag : String) : Prop :=
  ∃ newer version older, h.versions = newer ++ written :: version :: older ∧
    (etag ≠ "" → version.etag = etag)

theorem History.Wrote.over {h : History β} {written current : Policy β} {etag : String}
    (hwrote : h.Wrote written etag) (hcurrent : current ∈ h.versions) (hetag : current.etag = etag) :
    ∃ newer older, h.versions = newer ++ written :: current :: older := by
  obtain ⟨newer, version, older, hversions, hversion⟩ := hwrote
  have hmem : version ∈ h.versions := by simp [hversions]
  subst hetag
  obtain rfl : version = current :=
    List.inj_on_of_nodup_map h.nodup hmem hcurrent (hversion (h.etag_ne current hcurrent))
  exact ⟨newer, older, hversions⟩

def Knows (server : String → History β) : (e : Call β) → Reply e → Prop
  | .rpc (.getIamPolicy resource), .ok policy => policy ∈ (server resource).versions
  | .rpc (.setIamPolicy resource policy), .ok written =>
    written.bindings = policy.bindings ∧ (server resource).Wrote written policy.etag
  | _, _ => True

variable {server server' : String → History β}

def Extends (server server' : String → History β) : Prop :=
  ∀ resource, (server resource).versions <:+ (server' resource).versions

theorem extends_write {resource : String} {policy : Policy β} {etag : String} {hne : etag ≠ ""}
    {hfresh : etag ∉ (server resource).versions.map Policy.etag} :
    Extends server
      (Function.update server resource ((server resource).write policy etag hne hfresh)) := by
  intro name
  by_cases hname : name = resource
  · subst hname
    rw [Function.update_self]
    exact List.suffix_cons _ _
  · rw [Function.update_of_ne hname]

theorem extends_of_step {deed : Option (Network.Answer ι (Reply (β := β)))}
    (h : ServerStep service server deed server') : Extends server server' := by
  have hrefl : Extends server server := fun _ => List.suffix_rfl
  cases h with
  | @serves _ a hserves =>
    obtain ⟨⟨i, number, call⟩, reply⟩ := a
    cases hserves with
    | read | rejected => exact hrefl
    | accepted => exact extends_write
  | acts hacts =>
    cases hacts with
    | written => exact extends_write

theorem Knows.mono (hextends : Extends server server') {e : Call β} {r : Reply e}
    (h : Knows server e r) : Knows server' e r := by
  cases e with
  | rpc request =>
    cases request with
    | getIamPolicy resource =>
      cases r with
      | error => trivial
      | ok policy => exact (hextends resource).subset h
    | setIamPolicy resource policy =>
      cases r with
      | error => trivial
      | ok written =>
        obtain ⟨hbindings, newer, version, older, hversions, hetag⟩ := h
        obtain ⟨newest, hnewest⟩ := hextends resource
        refine ⟨hbindings, newest ++ newer, version, older, ?_, hetag⟩
        rw [← hnewest, hversions, List.append_assoc]
  | updater | isExhausted | onFailure | onCompletion | sleepFor => trivial

theorem Serves.knows {e : Call β} {r : Reply e} (h : Serves server e r server') :
    Knows server' e r := by
  cases h with
  | read => exact History.current_mem _
  | rejected => trivial
  | @accepted resource policy etag haccepts hne hfresh =>
    refine ⟨rfl, [], (server resource).current, (server resource).past, ?_, fun hetag => ?_⟩
    · rw [Function.update_self]
      rfl
    · exact (haccepts.resolve_left hetag).symm

theorem Serves.not_past {a : Network.Answer ι (Reply (β := β))} {resource etag : String}
    (h : Serves server a.message.call a.reply server')
    (hreplaced : replaced (some a) = some (resource, etag)) :
    etag ∉ (server resource).past.map Policy.etag := by
  obtain ⟨⟨i, number, call⟩, reply⟩ := a
  cases h with
  | read | rejected => cases hreplaced
  | @accepted resource policy _ haccepts =>
    rw [replaced] at hreplaced
    split at hreplaced
    · cases hreplaced
    · next hetag =>
      cases hreplaced
      rw [haccepts.resolve_left hetag]
      exact (List.nodup_cons.mp (server resource).nodup).1

theorem Knows.past {a : Network.Answer ι (Reply (β := β))} {resource etag : String}
    (h : Knows server a.message.call a.reply)
    (hreplaced : replaced (some a) = some (resource, etag)) :
    etag ∈ (server resource).past.map Policy.etag := by
  obtain ⟨⟨i, number, call⟩, reply⟩ := a
  cases call with
  | rpc request =>
    cases request with
    | getIamPolicy => cases reply <;> cases hreplaced
    | setIamPolicy resource policy =>
      cases reply with
      | error => cases hreplaced
      | ok written =>
        rw [replaced] at hreplaced
        split at hreplaced
        · cases hreplaced
        · next hetag =>
          cases hreplaced
          obtain ⟨-, newer, version, older, hversions, hversion⟩ := h
          have hpast : version ∈ (server resource).versions.tail := by
            rw [hversions]
            cases newer <;> simp
          rw [← hversion hetag]
          exact List.mem_map_of_mem hpast
  | updater | isExhausted | onFailure | onCompletion | sleepFor => cases hreplaced

theorem memory : Memory (ι := ι) (service (β := β)) Knows replaced where
  answers := Serves.knows
  keeps hstep hknows := hknows.mono (extends_of_step hstep)
  acted := rfl
  fresh hserves hreplaced hknows hreplaced' := hserves.not_past hreplaced (hknows.past hreplaced')

end SpannerClient.Iam
