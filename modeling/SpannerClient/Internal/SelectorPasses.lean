import SpannerClient.Internal.ConnectionParts

namespace SpannerClient

open Protobuf Program

namespace Protobuf.TransactionSelector

def named : TransactionSelector → Option String
  | .id transactionId => some transactionId
  | .notSet | .singleUse _ | .begin _ => none

end Protobuf.TransactionSelector

namespace Rpc

def named : Rpc → Option String
  | .partitionRead request => request.transaction.named
  | .partitionQuery request => request.transaction.named
  | .executeSql request => request.transaction.named
  | .executeBatchDml request => request.transaction.named
  | .beginTransaction _ => none
  | .commit request => some request.transactionId

def begins : Rpc → Bool
  | .partitionRead request => request.transaction.hasBegin
  | .partitionQuery request => request.transaction.hasBegin
  | .executeSql request => request.transaction.hasBegin
  | .executeBatchDml request => request.transaction.hasBegin
  | .beginTransaction _ => true
  | .commit _ => false

def begun : (rpc : Rpc) → rpc.Response → String
  | .partitionRead _, response => response.transactionId
  | .partitionQuery _, response => response.transactionId
  | .executeSql _, response => response.transactionId
  | .executeBatchDml _, response => (response.resultSets.head?.map ResultSet.transactionId).getD ""
  | .beginTransaction _, response => response.id
  | .commit _, _ => ""

def Refused : (rpc : Rpc) → rpc.Response → Prop
  | .executeSql _, _ => True
  | .executeBatchDml _, response => response.resultSets = [] ∧ response.status.ok = false
  | .partitionRead _, _ | .partitionQuery _, _ | .beginTransaction _, _ | .commit _, _ => False

end Rpc

namespace ConnectionImpl

variable {σ χ : Type}

namespace Call

def isRequest : Call → Bool
  | .streamingRead _ | .executeStreamingSql _ | .rpc _ | .rollback _ => true
  | .allocate _ | .setBad _ | .isExhausted | .onFailure _ | .onCompletion | .sleepFor _ => false

def named : Call → Option String
  | .streamingRead request => request.transaction.named
  | .executeStreamingSql request => request.transaction.named
  | .rpc request => request.named
  | .rollback request => some request.transactionId
  | .allocate _ | .setBad _ | .isExhausted | .onFailure _ | .onCompletion | .sleepFor _ => none

end Call

def LacksId (conn : ConnectionImpl σ) : Exchange σ χ → Prop
  | ⟨.streamingRead request, rpc⟩ => request.transaction.hasBegin = true ∧ conn.StreamLacksId rpc
  | ⟨.executeStreamingSql request, rpc⟩ =>
    request.transaction.hasBegin = true ∧ conn.StreamLacksId rpc
  | ⟨.rpc rpc, .ok response⟩ => rpc.begins = true ∧ rpc.begun response = ""
  | _ => False

/-- A response without an id that the operation takes no notice of. -/
def Unchecked : Exchange σ χ → Prop
  | ⟨.rpc rpc, .ok response⟩ =>
    rpc.begins = true ∧ rpc.begun response = "" ∧ ¬ rpc.Refused response
  | _ => False

/-- No call is answered without an id, and none names a transaction but that of the selector. -/
def Neutral (conn : ConnectionImpl σ) (selector : TransactionSelector)
    (tr : List (Exchange σ χ)) : Prop :=
  ∀ c ∈ tr, ¬ conn.LacksId c ∧ ¬ Unchecked c ∧
    (c.1.named = none ∨ c.1.named = selector.named)

inductive Passes (conn : ConnectionImpl σ) (selector : TransactionSelector)
    (tr : List (Exchange σ χ)) (outcome : Except Abort Status) : TransactionSelector → Prop
  | kept : Neutral conn selector tr → Passes conn selector tr outcome selector
  | refused : selector.hasBegin = true → (∀ c ∈ tr, ¬ Unchecked c ∧ c.1.named = none) →
      (∀ status, outcome = .ok status → status.ok = false) →
        Passes conn selector tr outcome selector
  | ignored : selector.hasBegin = true → (∃ c ∈ tr, conn.LacksId c) → (∃ c ∈ tr, Unchecked c) →
      (∃ status, outcome = .ok status ∧ status.ok = true) → Passes conn selector tr outcome selector
  | left (id : String) : selector.hasBegin = true → ((∃ c ∈ tr, conn.LacksId c) → id = "") →
      ((∃ c ∈ tr, Unchecked c) ↔ id = "") →
      (∀ c ∈ tr, c.1.named = none ∨ c.1.named = some id) →
        Passes conn selector tr outcome (.id id)

def Failed {α : Type} : Except Abort (StatusOr α) → Prop
  | .ok (.ok _) => False
  | .ok (.error _) | .error _ => True

def Quiet (tr : List (Exchange σ χ)) : Prop := ∀ c ∈ tr, c.1.isRequest = false

variable {conn : ConnectionImpl σ} {c : Exchange σ χ} {tr tr₁ tr₂ : List (Exchange σ χ)}
  {selector selector' : TransactionSelector} {outcome : Except Abort Status}
  {t t' : TransactionImpl (SessionHolder χ)}

theorem Call.isRequest_of_isPolicy {c : Call} (h : c.isPolicy = true) : c.isRequest = false := by
  cases c <;> simp_all [isPolicy, isRequest]

theorem named_of_not_isRequest (h : c.1.isRequest = false) : c.1.named = none := by
  obtain ⟨c, r⟩ := c
  cases c <;> simp_all [Call.isRequest, Call.named]

theorem LacksId.isRequest (h : conn.LacksId c) : c.1.isRequest = true := by
  obtain ⟨c, r⟩ := c
  cases c <;> simp_all [Call.isRequest, LacksId]

theorem Unchecked.isRequest (h : Unchecked c) : c.1.isRequest = true := by
  obtain ⟨c, r⟩ := c
  cases c <;> simp_all [Call.isRequest, Unchecked]

theorem Unchecked.lacksId (h : Unchecked c) : conn.LacksId c := by
  obtain ⟨⟨⟩, r⟩ := c <;> try exact h.elim
  cases r with
  | ok response => exact ⟨h.1, h.2.1⟩
  | error e => exact h.elim

theorem neutral_of_not_isRequest (h : c.1.isRequest = false) :
    ¬ conn.LacksId c ∧ ¬ Unchecked c ∧ (c.1.named = none ∨ c.1.named = selector.named) := by
  refine ⟨fun hlacks => ?_, fun hunchecked => ?_, .inl (named_of_not_isRequest h)⟩
  · cases h.symm.trans hlacks.isRequest
  · cases h.symm.trans hunchecked.isRequest

namespace Quiet

theorem nil : Quiet ([] : List (Exchange σ χ)) := by simp [Quiet]

theorem neutral (h : Quiet tr) : Neutral conn selector tr := fun c hc =>
  neutral_of_not_isRequest (h c hc)

theorem passes (h : Quiet tr) : Passes conn selector tr outcome selector := .kept h.neutral

end Quiet

theorem Prepares.quiet {dissociate : Bool} {prepared : StatusOr (SessionHolder χ)}
    (h : Prepares dissociate t tr prepared t') : Quiet tr := by
  cases h <;> simp [Quiet, Call.isRequest]

theorem Marks.quiet {holder : SessionHolder χ} {status : Status} (h : Marks holder status tr) :
    Quiet tr := by
  rw [Marks] at h
  split at h <;> simp [h, Quiet, Call.isRequest]

theorem Neutral.append (h₁ : Neutral conn selector tr₁) (h₂ : Neutral conn selector tr₂) :
    Neutral conn selector (tr₁ ++ tr₂) := fun c hc =>
  (List.mem_append.mp hc).elim (h₁ c) (h₂ c)

namespace Passes

theorem of_subset (h : Passes conn selector tr outcome selector')
    (hrest : ∀ c ∈ tr₁, c ∈ tr ∨ c.1.isRequest = false) (hsub : tr ⊆ tr₁) :
    Passes conn selector tr₁ outcome selector' := by
  have hrequest : ∀ c ∈ tr₁, c.1.isRequest = true → c ∈ tr := fun c hc h =>
    (hrest c hc).resolve_right (ne_of_eq_of_ne h nofun)
  cases h with
  | kept hkept =>
    refine .kept fun c hc => ?_
    exact (hrest c hc).elim (hkept c) neutral_of_not_isRequest
  | refused hbegin hnone herror =>
    refine .refused hbegin (fun c hc => ⟨fun hunchecked => ?_, ?_⟩) herror
    · exact (hnone c (hrequest c hc hunchecked.isRequest)).1 hunchecked
    · exact (hrest c hc).elim (fun hc => (hnone c hc).2) named_of_not_isRequest
  | ignored hbegin hlacks hunchecked hok =>
    obtain ⟨c, hc, hlacks⟩ := hlacks
    obtain ⟨c', hc', hunchecked⟩ := hunchecked
    exact .ignored hbegin ⟨c, hsub hc, hlacks⟩ ⟨c', hsub hc', hunchecked⟩ hok
  | left id hbegin hlacks hunchecked hnamed =>
    refine .left id hbegin ?_ ⟨?_, ?_⟩ fun c hc => ?_
    · rintro ⟨c, hc, h⟩
      exact hlacks ⟨c, hrequest c hc h.isRequest, h⟩
    · rintro ⟨c, hc, h⟩
      exact hunchecked.mp ⟨c, hrequest c hc h.isRequest, h⟩
    · intro hid
      obtain ⟨c, hc, h⟩ := hunchecked.mpr hid
      exact ⟨c, hsub hc, h⟩
    · exact (hrest c hc).elim (hnamed c) fun hc => .inl (named_of_not_isRequest hc)

theorem after (h : Passes conn selector tr outcome selector') (hquiet : Quiet tr₁) :
    Passes conn selector (tr₁ ++ tr) outcome selector' :=
  h.of_subset (fun c hc => (List.mem_append.mp hc).symm.imp_right (hquiet c))
    (List.subset_append_right tr₁ tr)

theorem before (h : Passes conn selector tr outcome selector') (hquiet : Quiet tr₁) :
    Passes conn selector (tr ++ tr₁) outcome selector' :=
  h.of_subset (fun c hc => (List.mem_append.mp hc).imp_right (hquiet c))
    (List.subset_append_left tr tr₁)

theorem andThen {id : String} (h : Passes conn selector tr outcome (.id id))
    (hbegin : selector.hasBegin = true) (hrest : Neutral conn (.id id) tr₁) :
    Passes conn selector (tr ++ tr₁) outcome (.id id) := by
  cases h with
  | kept | refused | ignored => cases hbegin
  | left _ _ hlacks hunchecked hnamed =>
    refine .left id hbegin ?_ ⟨?_, ?_⟩ fun c hc => ?_
    · rintro ⟨c, hc, h⟩
      exact hlacks ⟨c, (List.mem_append.mp hc).resolve_right fun hc => (hrest c hc).1 h, h⟩
    · rintro ⟨c, hc, h⟩
      exact hunchecked.mp
        ⟨c, (List.mem_append.mp hc).resolve_right fun hc => (hrest c hc).2.1 h, h⟩
    · intro hid
      obtain ⟨c, hc, h⟩ := hunchecked.mpr hid
      exact ⟨c, List.mem_append_left _ hc, h⟩
    · exact (List.mem_append.mp hc).elim (hnamed c) fun hc => (hrest c hc).2.2

end Passes

structure Fetches {α : Type} (conn : ConnectionImpl σ) (selector : TransactionSelector)
    (begun : α → String) (Refused : α → Prop) (tr : List (Exchange σ χ))
    (response : Except Abort (StatusOr α)) : Prop where
  named : ∀ c ∈ tr, c.1.named = none ∨ c.1.named = selector.named
  lacksId : (∃ c ∈ tr, conn.LacksId c) ↔
    selector.hasBegin = true ∧ ∃ a, response = .ok (.ok a) ∧ begun a = ""
  unchecked : (∃ c ∈ tr, Unchecked c) ↔
    selector.hasBegin = true ∧ ∃ a, response = .ok (.ok a) ∧ begun a = "" ∧ ¬ Refused a

theorem fetches_of_call {rpc : Rpc} {location : String}
    {result : Except Abort (StatusOr rpc.Response)} (hnamed : rpc.named = selector.named)
    (hbegins : rpc.begins = selector.hasBegin)
    (h : (conn.call rpc location : Op σ χ _).Runs t tr result t') :
    t' = t ∧ Fetches conn selector rpc.begun rpc.Refused tr result := by
  obtain ⟨ht, hcalls, hresult⟩ := runs_call h
  -- only a successful response can lack the id
  have hanswer : ∀ c ∈ tr, conn.LacksId c → ∃ response, c = ⟨.rpc rpc, .ok response⟩ := by
    rintro ⟨c, r⟩ hc hlacks
    rcases hcalls _ hc with hquiet | heq
    · cases (Call.isRequest_of_isPolicy hquiet).symm.trans hlacks.isRequest
    · cases heq
      cases r with
      | ok response => exact ⟨response, rfl⟩
      | error e => exact hlacks.elim
  refine ⟨ht, ?_, ?_, ?_⟩
  · intro c hc
    rcases hcalls c hc with hquiet | heq
    · exact .inl (named_of_not_isRequest (Call.isRequest_of_isPolicy hquiet))
    · rw [heq]
      exact .inr hnamed
  · rw [← hbegins]
    constructor
    · rintro ⟨c, hc, hlacks⟩
      obtain ⟨response, rfl⟩ := hanswer c hc hlacks
      exact ⟨hlacks.1, response, (hresult response).mp hc, hlacks.2⟩
    · rintro ⟨hbegin, response, hr, hid⟩
      exact ⟨_, (hresult response).mpr hr, hbegin, hid⟩
  · rw [← hbegins]
    constructor
    · rintro ⟨c, hc, hunchecked⟩
      obtain ⟨response, rfl⟩ := hanswer c hc hunchecked.lacksId
      exact ⟨hunchecked.1, response, (hresult response).mp hc, hunchecked.2⟩
    · rintro ⟨hbegin, response, hr, hid⟩
      exact ⟨_, (hresult response).mpr hr, hbegin, hid⟩

namespace Fetches

variable {α β : Type} {begun : α → String} {Refused : α → Prop} {a : α}
  {response : Except Abort (StatusOr α)}

theorem answered {begun' : β → String} {Refused' : β → Prop} {b : β}
    (h : Fetches conn selector begun Refused tr (.ok (.ok a))) (hbegun : begun' b = begun a)
    (hrefused : Refused' b ↔ Refused a) :
    Fetches conn selector begun' Refused' tr (.ok (.ok b)) where
  named := h.named
  lacksId := by simp [h.lacksId, hbegun]
  unchecked := by simp [h.unchecked, hbegun, hrefused]

theorem neutral_of_failure (h : Fetches conn selector begun Refused tr response)
    (hfailure : Failed response) : Neutral conn selector tr := by
  refine fun c hc => ⟨fun hlacks => ?_, fun hunchecked => ?_, h.named c hc⟩
  · obtain ⟨-, a, rfl, -⟩ := h.lacksId.mp ⟨c, hc, hlacks⟩
    exact hfailure
  · obtain ⟨-, a, rfl, -⟩ := h.unchecked.mp ⟨c, hc, hunchecked⟩
    exact hfailure

theorem failed {begun' : β → String} {Refused' : β → Prop} {response' : Except Abort (StatusOr β)}
    (h : Fetches conn selector begun Refused tr response) (hquiet : Quiet tr₁)
    (hfailure : Failed response) (hfailure' : Failed response') :
    Fetches conn selector begun' Refused' (tr ++ tr₁) response' := by
  have hneutral := (h.neutral_of_failure hfailure).append hquiet.neutral
  refine ⟨fun c hc => (hneutral c hc).2.2, ⟨?_, ?_⟩, ⟨?_, ?_⟩⟩
  · rintro ⟨c, hc, hlacks⟩
    exact absurd hlacks (hneutral c hc).1
  · rintro ⟨-, b, rfl, -⟩
    exact hfailure'.elim
  · rintro ⟨c, hc, hunchecked⟩
    exact absurd hunchecked (hneutral c hc).2.1
  · rintro ⟨-, b, rfl, -⟩
    exact hfailure'.elim

theorem passes_of_failure (h : Fetches conn selector begun Refused tr response)
    (hfailure : Failed response) : Passes conn selector tr outcome selector :=
  .kept (h.neutral_of_failure hfailure)

theorem neutral_of_not_begin (h : Fetches conn selector begun Refused tr response)
    (hbegin : selector.hasBegin = false) : Neutral conn selector tr := by
  refine fun c hc => ⟨fun hlacks => ?_, fun hunchecked => ?_, h.named c hc⟩
  · cases hbegin.symm.trans (h.lacksId.mp ⟨c, hc, hlacks⟩).1
  · cases hbegin.symm.trans (h.unchecked.mp ⟨c, hc, hunchecked⟩).1

theorem passes_of_not_begin (h : Fetches conn selector begun Refused tr response)
    (hbegin : selector.hasBegin = false) : Passes conn selector tr outcome selector :=
  .kept (h.neutral_of_not_begin hbegin)

theorem named_eq_none (h : Fetches conn selector begun Refused tr response)
    (hbegin : selector.hasBegin = true) : ∀ c ∈ tr, c.1.named = none := by
  intro c hc
  rcases h.named c hc with hnamed | hnamed
  · exact hnamed
  · rw [hnamed]
    cases selector <;> simp_all [TransactionSelector.hasBegin, TransactionSelector.named]

theorem passes_left (h : Fetches conn selector begun Refused tr (.ok (.ok a)))
    (hbegin : selector.hasBegin = true) (hrefused : begun a = "" → ¬ Refused a) :
    Passes conn selector tr outcome (.id (begun a)) := by
  refine .left (begun a) hbegin (fun hlacks => ?_) ⟨fun hunchecked => ?_, fun hid => ?_⟩
    fun c hc => .inl (h.named_eq_none hbegin c hc)
  · obtain ⟨-, a', ha, hid⟩ := h.lacksId.mp hlacks
    cases ha
    exact hid
  · obtain ⟨-, a', ha, hid, -⟩ := h.unchecked.mp hunchecked
    cases ha
    exact hid
  · exact h.unchecked.mpr ⟨hbegin, a, rfl, hid, hrefused hid⟩

theorem passes_refused (h : Fetches conn selector begun Refused tr (.ok (.ok a)))
    (hbegin : selector.hasBegin = true) (hrefused : Refused a)
    (herror : ∀ status, outcome = .ok status → status.ok = false) :
    Passes conn selector tr outcome selector := by
  refine .refused hbegin (fun c hc => ⟨fun hunchecked => ?_, h.named_eq_none hbegin c hc⟩) herror
  obtain ⟨-, a', ha, -, hnot⟩ := h.unchecked.mp ⟨c, hc, hunchecked⟩
  cases ha
  exact hnot hrefused

theorem passes_ignored (h : Fetches conn selector begun Refused tr (.ok (.ok a)))
    (hbegin : selector.hasBegin = true) (hid : begun a = "") (hrefused : ¬ Refused a)
    (hok : ∃ status, outcome = .ok status ∧ status.ok = true) :
    Passes conn selector tr outcome selector :=
  .ignored hbegin (h.lacksId.mpr ⟨hbegin, a, rfl, hid⟩)
    (h.unchecked.mpr ⟨hbegin, a, rfl, hid, hrefused⟩) hok

end Fetches

theorem fetches_of_beginTransaction {request : BeginTransactionRequest} {location : String}
    {result : Except Abort (StatusOr Protobuf.Transaction)} (hbegin : selector.hasBegin = true)
    (h : (conn.call (.beginTransaction request) location : Op σ χ _).Runs t tr result t') :
    t' = t ∧ Fetches conn selector Protobuf.Transaction.id (fun _ => False) tr result := by
  have hnamed : (Rpc.beginTransaction request).named = selector.named := by
    cases selector <;>
      simp_all [TransactionSelector.hasBegin, TransactionSelector.named, Rpc.named]
  exact fetches_of_call hnamed hbegin.symm h

theorem neutral_of_named {rpc : Rpc} {id location : String}
    {result : Except Abort (StatusOr rpc.Response)} (hnamed : rpc.named = some id)
    (hbegins : rpc.begins = false)
    (h : (conn.call rpc location : Op σ χ _).Runs t tr result t') :
    t' = t ∧ Neutral conn (.id id) tr := by
  have hfetched : t' = t ∧ Fetches conn (.id id) rpc.begun rpc.Refused tr result :=
    fetches_of_call hnamed hbegins h
  exact ⟨hfetched.1, hfetched.2.neutral_of_not_begin rfl⟩

end ConnectionImpl

end SpannerClient
