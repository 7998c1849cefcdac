import SpannerClient.Internal.Resumption
import Mathlib.Data.List.Basic
import Mathlib.Order.Lattice.Nat

namespace SpannerClient.ExactlyOnce

open Protobuf PartialResultSetReader Resumption Resumption.Server

def DistinctTokens (rs : List PartialResultSet) : Prop :=
  rs.Pairwise fun a b => a.resumeToken = "" ∨ a.resumeToken ≠ b.resumeToken

def suffixAfter (rs : List PartialResultSet) (token : String) : List PartialResultSet :=
  if token = "" then rs else (rs.dropWhile fun r => r.resumeToken ≠ token).tail

def replay (rs : List PartialResultSet) : Server := fun _ token => suffixAfter rs token

/-- Nothing has been sent, or the last of the first `p` responses carries a token. -/
def CanResumeAt (rs : List PartialResultSet) (p : Nat) : Prop :=
  ∀ r ∈ (rs.take p).getLast?, r.resumeToken ≠ ""

/-- Every interruption, counted from where the previous one struck, strikes a place at which the
stream can be resumed. -/
def StrikesAtTokens (rs : List PartialResultSet) : Nat → List Interruption → Prop
  | _, [] => True
  | p, i :: rest =>
    CanResumeAt rs (min (p + i.after) rs.length) ∧
      StrikesAtTokens rs (min (p + i.after) rs.length) rest

structure Holds (rs : List PartialResultSet) (p : Nat) (token : String) : Prop where
  le : p ≤ rs.length
  suffix : suffixAfter rs token = rs.drop p
  resumable : CanResumeAt rs p

theorem holds_start (rs : List PartialResultSet) : Holds rs 0 "" where
  le := Nat.zero_le _
  suffix := rfl
  resumable := by simp [CanResumeAt]

theorem suffixAfter_append {before after : List PartialResultSet} {r : PartialResultSet}
    (h : DistinctTokens (before ++ r :: after)) (hr : r.resumeToken ≠ "") :
    suffixAfter (before ++ r :: after) r.resumeToken = after := by
  have hne : ∀ b ∈ before, b.resumeToken ≠ r.resumeToken := by
    intro b hb he
    obtain ⟨-, -, hcross⟩ := List.pairwise_append.mp h
    rcases hcross b hb r List.mem_cons_self with h | h
    · exact hr (he ▸ h)
    · exact h he
  rw [suffixAfter, if_neg hr, List.dropWhile_append_of_pos (by simpa using hne)]
  simp

theorem lastToken_of_getLast? {rs : List PartialResultSet} {r : PartialResultSet} (token : String)
    (h : rs.getLast? = some r) : lastToken token rs = r.resumeToken := by
  obtain ⟨before, rfl⟩ := List.getLast?_eq_some_iff.mp h
  simp [lastToken]

theorem take_append_sent {rs : List PartialResultSet} {p : Nat} {token : String}
    (h : Holds rs p token) (k : Nat) :
    rs.take p ++ (suffixAfter rs token).take k = rs.take (min (p + k) rs.length) := by
  rw [h.suffix, ← List.take_add, ← List.take_eq_take_min]

theorem Holds.advance {rs : List PartialResultSet} {p : Nat} {token : String}
    (hd : DistinctTokens rs) (h : Holds rs p token) (k : Nat)
    (hq : CanResumeAt rs (min (p + k) rs.length)) :
    Holds rs (min (p + k) rs.length) (lastToken token ((suffixAfter rs token).take k)) := by
  have htake := take_append_sent h k
  cases hlast : ((suffixAfter rs token).take k).getLast? with
  | none =>
    rw [List.getLast?_eq_none_iff] at hlast
    rw [hlast, List.append_nil] at htake
    have hp : min (p + k) rs.length = p := by
      have hlen := congrArg List.length htake
      simp only [List.length_take] at hlen
      have := h.le
      omega
    rw [hlast, hp]
    exact h
  | some r =>
    obtain ⟨before, hsent⟩ := List.getLast?_eq_some_iff.mp hlast
    rw [hsent, ← List.append_assoc] at htake
    have hsplit : rs = (rs.take p ++ before) ++ r :: rs.drop (min (p + k) rs.length) := by
      calc
        rs = rs.take (min (p + k) rs.length) ++ rs.drop (min (p + k) rs.length) :=
          (List.take_append_drop _ rs).symm
        _ = _ := by rw [← htake, List.append_assoc, List.singleton_append]
    have hr : r.resumeToken ≠ "" := by
      apply hq
      rw [← htake]
      simp
    refine ⟨Nat.min_le_right _ _, ?_, hq⟩
    rw [lastToken_of_getLast? token hlast]
    generalize rs.drop (min (p + k) rs.length) = after at hsplit ⊢
    generalize rs.take p ++ before = front at hsplit
    subst hsplit
    exact suffixAfter_append hd hr

theorem Holds.strand {rs : List PartialResultSet} {p : Nat} {token : String}
    (h : Holds rs p token) (k : Nat) (hq : ¬ CanResumeAt rs (min (p + k) rs.length)) :
    0 < min (p + k) rs.length ∧ lastToken token ((suffixAfter rs token).take k) = "" := by
  have htake := take_append_sent h k
  simp only [CanResumeAt, not_forall, not_not] at hq
  obtain ⟨r, hmem, hr⟩ := hq
  cases hlast : ((suffixAfter rs token).take k).getLast? with
  | none =>
    rw [List.getLast?_eq_none_iff] at hlast
    rw [hlast, List.append_nil] at htake
    rw [← htake] at hmem
    exact absurd hr (h.resumable r hmem)
  | some r' =>
    have hr' : r = r' := by
      rw [← htake, List.getLast?_append, hlast] at hmem
      simpa using hmem.symm
    rw [lastToken_of_getLast? token hlast, ← hr']
    refine ⟨Nat.pos_of_ne_zero ?_, hr⟩
    intro hzero
    simp [hzero] at hmem

theorem length_le_delivered {rs : List PartialResultSet} (hd : DistinctTokens rs) (n p : Nat)
    (token : String) (interruptions : List Interruption) (h : Holds rs p token) :
    rs.length ≤ (rs.take p ++ (replay rs).delivered n token interruptions).length := by
  induction interruptions generalizing n p token with
  | nil => simp [delivered, replay, h.suffix]
  | cons i rest ih =>
    rw [delivered, ← List.append_assoc]
    rw [show replay rs n token = suffixAfter rs token from rfl, take_append_sent h]
    by_cases hq : CanResumeAt rs (min (p + i.after) rs.length)
    · exact ih _ _ _ (h.advance hd i.after hq)
    · rw [(h.strand i.after hq).2]
      have hall := ih (n + 1) 0 "" (holds_start rs)
      rw [List.take_zero, List.nil_append] at hall
      rw [List.length_append]
      omega

theorem take_append_delivered_iff {rs : List PartialResultSet} (hd : DistinctTokens rs)
    (n p : Nat) (token : String) (interruptions : List Interruption) (h : Holds rs p token) :
    rs.take p ++ (replay rs).delivered n token interruptions = rs ↔
      StrikesAtTokens rs p interruptions := by
  induction interruptions generalizing n p token with
  | nil => simp [delivered, replay, h.suffix, StrikesAtTokens]
  | cons i rest ih =>
    rw [delivered, ← List.append_assoc, StrikesAtTokens]
    rw [show replay rs n token = suffixAfter rs token from rfl, take_append_sent h]
    by_cases hq : CanResumeAt rs (min (p + i.after) rs.length)
    · rw [ih _ _ _ (h.advance hd i.after hq)]
      exact (and_iff_right hq).symm
    · obtain ⟨hpos, htoken⟩ := h.strand i.after hq
      refine iff_of_false ?_ (fun hstrikes => hq hstrikes.1)
      intro heq
      rw [htoken] at heq
      have hall := length_le_delivered hd (n + 1) 0 "" rest (holds_start rs)
      have hlen := congrArg List.length heq
      rw [List.take_zero, List.nil_append] at hall
      rw [List.length_append, List.length_take, Nat.min_eq_left (Nat.min_le_right _ _)] at hlen
      omega

/-- `PartialResultSetResume` returns every response of an interrupted stream once, in order, and
then finishes OK, exactly when no interruption strikes after a response without a token: such a
response empties `last_resume_token_`, and the stream is sent again from its start. -/
theorem resume_delivers_once_iff (rs : List PartialResultSet) (hd : DistinctTokens rs)
    (interruptions : List Interruption) (retryPolicy : RetryPolicy π)
    (backoffPolicy : BackoffPolicy β) (retryState : π) (backoffState : β)
    (htol : retryPolicy.Tolerates retryState (interruptions.map (·.failure.status))) :
    (∃ status s', ((replay rs).resume retryPolicy backoffPolicy).reader.Delivers
      (((replay rs).resume retryPolicy backoffPolicy).make ⟨0, interruptions⟩ retryState
        backoffState) rs status s' ∧ status.ok = true) ↔ StrikesAtTokens rs 0 interruptions := by
  rw [← take_append_delivered_iff hd 0 0 "" interruptions (holds_start rs)]
  rw [List.take_zero, List.nil_append]
  obtain ⟨s', hs'⟩ := delivers_make (replay rs) retryPolicy backoffPolicy interruptions retryState
    backoffState htol
  constructor
  · rintro ⟨status, s'', h, -⟩
    exact (hs'.unique h).1
  · intro heq
    rw [heq] at hs'
    exact ⟨.success, s', hs', rfl⟩

def response (value token : String) : PartialResultSet :=
  ⟨none, [.stringValue value], false, token, none⟩

def unavailable : Failure := .of .unavailable "try-again" StatusCode.unavailable_ne_ok

theorem resume_after_token :
    ∃ status s', ((replay [response "a" "t", response "b" ""]).resume (limitedErrorCount 3)
      (exponentialBackoff 60000)).reader.Delivers
      (((replay [response "a" "t", response "b" ""]).resume (limitedErrorCount 3)
        (exponentialBackoff 60000)).make ⟨0, [⟨1, unavailable⟩]⟩ 0 100)
      [response "a" "t", response "b" ""] status s' ∧ status.ok = true := by
  apply (resume_delivers_once_iff _ _ [⟨1, unavailable⟩] (limitedErrorCount 3)
    (exponentialBackoff 60000) 0 100 _).mpr
  · simp [StrikesAtTokens, CanResumeAt, response]
  · simp [DistinctTokens, response]
  · exact ⟨rfl, rfl, trivial⟩

/-- The stream breaks after a response that carries no token: it is returned twice. -/
theorem resume_after_tokenless_response :
    (∃ s', ((replay [response "a" "", response "b" ""]).resume (limitedErrorCount 3)
      (exponentialBackoff 60000)).reader.Delivers
      (((replay [response "a" "", response "b" ""]).resume (limitedErrorCount 3)
        (exponentialBackoff 60000)).make ⟨0, [⟨1, unavailable⟩]⟩ 0 100)
      [response "a" "", response "a" "", response "b" ""] .success s') ∧
    ¬ ∃ status s', ((replay [response "a" "", response "b" ""]).resume (limitedErrorCount 3)
      (exponentialBackoff 60000)).reader.Delivers
      (((replay [response "a" "", response "b" ""]).resume (limitedErrorCount 3)
        (exponentialBackoff 60000)).make ⟨0, [⟨1, unavailable⟩]⟩ 0 100)
      [response "a" "", response "b" ""] status s' ∧ status.ok = true := by
  have h := delivers_make (replay [response "a" "", response "b" ""]) (limitedErrorCount 3)
    (exponentialBackoff 60000) [⟨1, unavailable⟩] 0 100 ⟨rfl, rfl, trivial⟩
  refine ⟨h, ?_⟩
  rintro ⟨status, s'', h', -⟩
  obtain ⟨s', hs'⟩ := h
  have hlen := congrArg List.length (hs'.unique h').1
  simp [delivered, replay, suffixAfter, lastToken, response] at hlen

end SpannerClient.ExactlyOnce
