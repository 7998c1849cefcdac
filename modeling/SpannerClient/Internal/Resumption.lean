import SpannerClient.Internal.PartialResultSetResume

namespace SpannerClient.Resumption

open Protobuf Fuel PartialResultSetReader

/-- The stream fails with `failure` once it has sent `after` responses. -/
structure Interruption where
  after : Nat
  failure : Failure

structure Schedule where
  attempt : Nat
  interruptions : List Interruption

/-- The full stream with which the server answers the `n`-th (re)start with a resume token. -/
abbrev Server := Nat → String → List PartialResultSet

namespace Server

def connect (server : Server) (token : String) (w : Schedule) : ServerStream × Schedule :=
  match w.interruptions with
  | [] => (⟨server w.attempt token, .success⟩, ⟨w.attempt + 1, []⟩)
  | i :: rest =>
    (⟨(server w.attempt token).take i.after, i.failure.status⟩, ⟨w.attempt + 1, rest⟩)

/-- The reader that `ReadImpl` and `CommonQueryImpl` set up over such a server. -/
def resume (server : Server) (retryPolicy : RetryPolicy π) (backoffPolicy : BackoffPolicy β) :
    PartialResultSetResume ServerStream Schedule π β where
  childReader := ServerStream.reader
  factory := server.connect
  isIdempotent := .idempotent
  retryPolicy := retryPolicy
  backoffPolicy := backoffPolicy

def lastToken (token : String) (rs : List PartialResultSet) : String :=
  rs.foldl (fun _ r => r.resumeToken) token

def delivered (server : Server) : Nat → String → List Interruption → List PartialResultSet
  | n, token, [] => server n token
  | n, token, i :: rest =>
    let sent := (server n token).take i.after
    sent ++ server.delivered (n + 1) (lastToken token sent) rest

end Server

open Server

variable {π β : Type} {server : Server} {retryPolicy : RetryPolicy π}
  {backoffPolicy : BackoffPolicy β}

abbrev State (π β : Type) := PartialResultSetResume.State ServerStream Schedule π β

theorem delivers_child {s s' : State π β} {sent rs : List PartialResultSet}
    {status final : Status} (hchild : s.child = ⟨sent, status⟩)
    (hrest : (server.resume retryPolicy backoffPolicy).reader.Delivers
      { s with child := ⟨[], status⟩, lastResumeToken := lastToken s.lastResumeToken sent }
      rs final s') :
    (server.resume retryPolicy backoffPolicy).reader.Delivers s (sent ++ rs) final s' := by
  induction sent generalizing s with
  | nil =>
    rw [← hchild] at hrest
    exact hrest
  | cons r sent ih =>
    have hread : (server.resume retryPolicy backoffPolicy).childReader.Reads s.child (some r)
        ⟨sent, status⟩ := by
      rw [hchild]
      exact ServerStream.reads_cons r sent status
    apply Delivers.next (PartialResultSetResume.read_value hread)
    apply ih
    · rfl
    · exact hrest

theorem delivers_schedule (server : Server) (retryPolicy : RetryPolicy π)
    (backoffPolicy : BackoffPolicy β) (n : Nat) (token : String)
    (interruptions : List Interruption) (retryState : π) (backoffState : β)
    (htol : retryPolicy.Tolerates retryState (interruptions.map (·.failure.status))) :
    ∃ s', (server.resume retryPolicy backoffPolicy).reader.Delivers
      ⟨token, (server.connect token ⟨n, interruptions⟩).1, none,
        (server.connect token ⟨n, interruptions⟩).2, retryState, backoffState⟩
      (server.delivered n token interruptions) .success s' := by
  induction interruptions generalizing n token retryState backoffState with
  | nil =>
    let t : State π β := ⟨lastToken token (server n token), ⟨[], .success⟩, none, ⟨n + 1, []⟩,
      retryState, backoffState⟩
    have hend : (server.resume retryPolicy backoffPolicy).reader.Delivers t [] .success
        { t with lastStatus := some .success } :=
      .eof (PartialResultSetResume.read_end (ServerStream.reads_nil .success) rfl) rfl
    refine ⟨{ t with lastStatus := some .success }, ?_⟩
    rw [delivered, ← List.append_nil (server n token)]
    exact delivers_child rfl hend
  | cons i rest ih =>
    obtain ⟨hretry, hexh, htol⟩ := htol
    obtain ⟨s', hs'⟩ := ih (n + 1) (lastToken token ((server n token).take i.after)) _
      (backoffPolicy.onCompletion backoffState).2 htol
    refine ⟨s', ?_⟩
    rw [delivered]
    apply delivers_child rfl
    apply Delivers.of_reads _ hs'
    intro result t' hread
    apply PartialResultSetResume.read_restart
    · exact ServerStream.reads_nil i.failure.status
    · rfl
    · exact i.failure.not_ok
    · rfl
    · exact hretry
    · rfl
    · exact hexh
    · exact hread

theorem delivers_make (server : Server) (retryPolicy : RetryPolicy π)
    (backoffPolicy : BackoffPolicy β) (interruptions : List Interruption)
    (retryState : π) (backoffState : β)
    (htol : retryPolicy.Tolerates retryState (interruptions.map (·.failure.status))) :
    ∃ s', (server.resume retryPolicy backoffPolicy).reader.Delivers
      ((server.resume retryPolicy backoffPolicy).make ⟨0, interruptions⟩ retryState backoffState)
      (server.delivered 0 "" interruptions) .success s' :=
  delivers_schedule server retryPolicy backoffPolicy 0 "" interruptions retryState backoffState htol

end SpannerClient.Resumption
