import SpannerClient.Internal.RequestContract

namespace SpannerClient

open Protobuf Program

def StatusCode.isRerunnable : StatusCode → Bool
  | .aborted | .notFound => true
  | .ok | .cancelled | .unknown | .invalidArgument | .deadlineExceeded | .alreadyExists
  | .permissionDenied | .unauthenticated | .resourceExhausted | .failedPrecondition | .outOfRange
  | .unimplemented | .internal | .unavailable | .dataLoss => false

theorem isRerunnable_of_transient {status : Status}
    (h : SafeTransactionRerun.isTransientFailure status = true) :
    status.code.isRerunnable = true := by
  simp only [SafeTransactionRerun.isTransientFailure, isSessionNotFound, Bool.or_eq_true,
    Bool.and_eq_true, beq_iff_eq, decide_eq_true_eq] at h
  rcases h with hcode | ⟨hcode, -⟩ <;> rw [hcode] <;> rfl

structure Verdict where
  asked : Bool
  refused : Bool

namespace Verdict

variable {σ χ : Type}

def next (v : Verdict) : (c : ConnectionImpl.Call) → ConnectionImpl.Reply σ χ c → Verdict
  | .rpc (.commit _), .ok _ => { v with asked := true }
  | .rpc (.commit _), .error e => ⟨true, v.refused || e.status.code.isRerunnable⟩
  | _, _ => v

def contract : Contract (ConnectionImpl.Reply σ χ) Verdict := ⟨fun _ _ => True, next⟩

def Void (v : Verdict) : Prop := v.asked = false ∨ v.refused = true

theorem next_of_ne {v : Verdict} {c : ConnectionImpl.Call} (r : ConnectionImpl.Reply σ χ c)
    (h : ∀ request, c ≠ .rpc (.commit request)) : v.next c r = v := by
  cases c with
  | rpc rpc =>
    cases rpc with
    | commit request => exact absurd rfl (h request)
    | partitionRead | partitionQuery | executeSql | executeBatchDml | beginTransaction =>
      cases r <;> rfl
  | allocate | setBad | streamingRead | executeStreamingSql | rollback | isExhausted | onFailure
  | onCompletion | sleepFor => rfl

end Verdict

namespace ConnectionImpl

variable {σ χ α : Type} {conn : ConnectionImpl σ} {t : TransactionImpl (SessionHolder χ)}
  {v : Verdict} {holder : SessionHolder χ}

def Excuses (code : StatusCode) (_ : TransactionImpl (SessionHolder χ)) (v : Verdict) : Prop :=
  code.isRerunnable = true → v.Void

theorem policies_keep_verdict (I : TransactionImpl (SessionHolder χ) → Verdict → Prop) :
    (policies (σ := σ)).Keeps Verdict.contract I where
  isExhausted h := ⟨trivial, fun _ => h⟩
  onFailure _ h := ⟨trivial, fun _ => h⟩
  backoff h := ⟨trivial, fun _ => ⟨trivial, fun _ => h⟩⟩

theorem checkSession_keeps_verdict {status : Status} {a : α}
    {post : Except Abort α → TransactionImpl (SessionHolder χ) → Verdict → Prop}
    (h : post (.ok a) t v) :
    (do checkSession holder status; return a : Op σ χ α).Keeps Verdict.contract post t v := by
  rw [checkSession]
  split
  · exact keeps_perform_bind.mpr ⟨trivial, fun _ => h⟩
  · exact h

theorem prepareSession_keeps_verdict {dissociate : Bool} :
    (prepareSession dissociate : Op σ χ _).Keeps Verdict.contract (fun _ _ v' => v' = v) t v := by
  rw [prepareSession, keeps_get_bind]
  split
  · rfl
  · refine (keeps_perform_bind (e := Call.allocate dissociate)).mpr ⟨trivial, fun reply => ?_⟩
    cases reply with
    | error e => rfl
    | ok session => rfl

theorem call_keeps_verdict {rpc : Rpc} {location : String} (h : ∀ request, rpc ≠ .commit request) :
    (conn.call rpc location : Op σ χ _).Keeps Verdict.contract (fun _ _ v' => v' = v) t v := by
  have hloop : (conn.call rpc location : Op σ χ _).Keeps Verdict.contract
      (RetryLoop.Settles (fun _ v' => v' = v) fun _ _ v' => v' = v) t v := by
    refine RetryLoop.settles_loop (policies_keep_verdict _) ?_ ?_ rfl
    · rintro status a t v hstatus rfl
      simp [RetryLoop.Settles]
    · rintro t v rfl
      refine (keeps_perform (e := Call.rpc rpc)).mpr ⟨trivial, fun r => ?_⟩
      have hsame : v.next (.rpc rpc) r = v :=
        Verdict.next_of_ne r fun request hrequest => h request (by cases hrequest; rfl)
      simp [RetryLoop.Settles, Verdict.contract, hsame]
  refine hloop.mono fun result t' v' hsettles => ?_
  cases result with
  | error x => exact hsettles
  | ok a => simpa [RetryLoop.Settles] using hsettles

theorem commitWithId_excused {mutations : List Mutation} {id : String} (h : v.asked = false) :
    (conn.commitWithId holder mutations id : Op σ χ _).Keeps Verdict.contract
      (RetryLoop.Carries Excuses) t v := by
  have hcall : (conn.call (.commit ⟨holder.session.name, id, mutations⟩) "CommitImpl" :
      Op σ χ _).Keeps Verdict.contract (RetryLoop.Carries Excuses) t v := by
    refine RetryLoop.carries_loop (fun _ => policies_keep_verdict _) (fun code t v _ => ?_)
      fun _ => .inl h
    refine (keeps_perform (e := Call.rpc (.commit _))).mpr ⟨trivial, fun r => ?_⟩
    rintro e he
    cases he
    intro hcode
    exact .inr (by simp [Verdict.contract, Verdict.next, hcode])
  refine hcall.bind ?_ fun _ _ _ _ => RetryLoop.carries_throw
  rintro (e | response) t v hcarries
  · refine checkSession_keeps_verdict fun e' he => ?_
    cases he
    exact hcarries e rfl
  · exact fun e he => by cases he

theorem checked_excused {rpc : Rpc} {location : String}
    {next : StatusOr rpc.Response → Op σ χ (StatusOr α)} (h : v.asked = false)
    (hother : ∀ request, rpc ≠ .commit request)
    (herror : ∀ e, next (.error e) = do checkSession holder e.status; return .error e)
    (hnext : ∀ response t,
      (next (.ok response)).Keeps Verdict.contract (RetryLoop.Carries Excuses) t v) :
    (conn.call rpc location >>= next).Keeps Verdict.contract (RetryLoop.Carries Excuses) t v := by
  refine (call_keeps_verdict hother).bind ?_ fun _ _ _ _ => RetryLoop.carries_throw
  rintro (e | response) t v rfl
  · rw [herror]
    exact checkSession_keeps_verdict fun _ _ _ => .inl h
  · exact hnext response t

theorem commitImpl_excused {mutations : List Mutation} (h : v.asked = false) :
    (conn.commitImpl mutations : Op σ χ _).Keeps Verdict.contract (RetryLoop.Carries Excuses) t
      v := by
  refine prepareSession_keeps_verdict.bind ?_ fun _ _ _ _ => RetryLoop.carries_throw
  rintro (e | holder) t v rfl
  · exact fun _ _ _ => .inl h
  rw [keeps_get_bind]
  split
  · exact commitWithId_excused h
  all_goals
    exact checked_excused h (fun _ => by simp) (fun _ => rfl) fun _ _ =>
      keeps_modify_bind.mpr (commitWithId_excused h)

end ConnectionImpl

end SpannerClient
