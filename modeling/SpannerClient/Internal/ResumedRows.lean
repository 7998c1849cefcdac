import SpannerClient.Internal.Resumption
import SpannerClient.Internal.Transmission

namespace SpannerClient.ResumedRows

open Protobuf Fuel MergeChunk PartialResultSetSource PartialResultSetReader Assembly
  RowAssembly Transmission Resumption Resumption.Server

variable {σ : Type} {R : PartialResultSetReader σ}

/-- The responses are a chunking of these values; `pending` says that the first of them is the
remainder of a value of which a piece has been sent. -/
def Serves (pending : Bool) (rest : List Protobuf.Value) (rs : List PartialResultSet) : Prop :=
  ∃ pieces, List.Forall₂ Pieces rest pieces ∧ Transmits pending pieces rs

/-- What was not yet sent when the server issued a token, in a stream that it itself resumed from
an issued token or started from nothing. -/
inductive Unsent (server : Server) (vs : List Protobuf.Value) :
    String → Bool → List Protobuf.Value → Prop
  | start : Unsent server vs "" false vs
  | issued {n : Nat} {token : String} {pending : Bool} {rest rest' : List Protobuf.Value}
      {pre post : List PartialResultSet} {r : PartialResultSet} :
    Unsent server vs token pending rest → server n token = pre ++ r :: post →
      Serves r.chunkedValue rest' post → Unsent server vs r.resumeToken r.chunkedValue rest'

/-- Every stream sends what was not yet sent when its token was issued, cut in any way, and a
stream from the start begins with the metadata. -/
structure Resumable (server : Server) (fields : List Field) (vs : List Protobuf.Value) :
    Prop where
  serves : ∀ token pending rest, Unsent server vs token pending rest →
    ∀ n, Serves pending rest (server n token)
  metadata : ∀ n, ∃ r rs m, server n "" = r :: rs ∧ r.metadata = some m ∧ m.rowType = fields

def Awaits : Option Protobuf.Value → List Protobuf.Value → List Protobuf.Value → Prop
  | none, rest, ws => rest = ws
  | some chunk, rest, ws => ∃ b v us, rest = b :: us ∧ ws = v :: us ∧ mergeChunk chunk b = .ok v

theorem completes_of_awaits {c : Option Protobuf.Value} {rest ws : List Protobuf.Value}
    {pieces : List (List Protobuf.Value)} (h : Awaits c rest ws)
    (hpieces : List.Forall₂ Pieces rest pieces) : Completes c pieces ws := by
  cases c with
  | none =>
    cases h
    exact hpieces
  | some chunk =>
    obtain ⟨b, v, us, rfl, rfl, hmerge⟩ := h
    cases hpieces with
    | @cons _ ps _ pieces hb hus =>
    cases ps with
    | nil => cases hb
    | cons p ps =>
      exact ⟨p :: ps, pieces, v, us, rfl, rfl, List.cons_ne_nil _ _,
        mergePieces_cons_ok.mpr ⟨b, hb, hmerge⟩, hus⟩

theorem awaits_of_completes {c : Option Protobuf.Value} {ws : List Protobuf.Value}
    {pieces : List (List Protobuf.Value)} (h : Completes c pieces ws) :
    ∃ rest, Awaits c rest ws ∧ List.Forall₂ Pieces rest pieces := by
  cases c with
  | none => exact ⟨ws, rfl, h⟩
  | some chunk =>
    obtain ⟨ps, pieces, v, us, rfl, rfl, hne, hmerge, hus⟩ := h
    cases ps with
    | nil => exact absurd rfl hne
    | cons p ps =>
      obtain ⟨b, hb, hv⟩ := mergePieces_cons_ok.mp hmerge
      exact ⟨b :: us, ⟨b, v, us, rfl, rfl, hv⟩, .cons hb hus⟩

theorem Serves.split {c : Option Protobuf.Value} {rest ws : List Protobuf.Value}
    {pre post : List PartialResultSet} (h : Serves c.isSome rest (pre ++ post))
    (hc : Awaits c rest ws) :
    ∃ c' us rest' ws', Assembles c pre us c' ∧ ws = us ++ ws' ∧ Serves c'.isSome rest' post ∧
      Awaits c' rest' ws' := by
  induction pre generalizing c rest ws with
  | nil => exact ⟨c, [], rest, ws, .nil, rfl, h, hc⟩
  | cons r pre ih =>
    obtain ⟨pieces, hpieces, ht⟩ := h
    obtain ⟨c₁, us, ws₁, pieces₁, hr, rfl, ht₁, hws₁⟩ := ht.step (completes_of_awaits hc hpieces)
    obtain ⟨rest₁, hc₁, hpieces₁⟩ := awaits_of_completes hws₁
    obtain ⟨c', us', rest', ws', hpre, rfl, hserves, hc'⟩ := ih ⟨pieces₁, hpieces₁, ht₁⟩ hc₁
    exact ⟨c', us ++ us', rest', ws', .cons hr hpre, (List.append_assoc ..).symm, hserves, hc'⟩

theorem Serves.assembles {c : Option Protobuf.Value} {rest ws : List Protobuf.Value}
    {rs : List PartialResultSet} (h : Serves c.isSome rest rs) (hc : Awaits c rest ws) :
    Assembles c rs ws none := by
  obtain ⟨pieces, hpieces, ht⟩ := h
  exact ht.assembles (completes_of_awaits hc hpieces)

theorem assembles_last {c c' : Option Protobuf.Value} {pre : List PartialResultSet}
    {r : PartialResultSet} {us : List Protobuf.Value} (h : Assembles c (pre ++ [r]) us c') :
    c'.isSome = r.chunkedValue := by
  obtain ⟨_, c₂, _, _, -, -, hlast, hend⟩ := h.not_offends
  cases hend
  exact hlast

theorem delivered_assembles {server : Server} {fields : List Field} {vs : List Protobuf.Value}
    (h : Resumable server fields vs) (interruptions : List Interruption) (n : Nat)
    (token : String) (c : Option Protobuf.Value) (rest ws : List Protobuf.Value)
    (hunsent : Unsent server vs token c.isSome rest) (hc : Awaits c rest ws) :
    Assembles c (server.delivered n token interruptions) ws none := by
  induction interruptions generalizing n token c rest ws with
  | nil => exact (h.serves token c.isSome rest hunsent n).assembles hc
  | cons i interruptions ih =>
    rw [delivered]
    rcases List.eq_nil_or_concat' ((server n token).take i.after) with hnil | ⟨pre, r, hsent⟩
    · -- nothing new has arrived, and the same token is sent again
      rw [hnil]
      exact ih (n + 1) token c rest ws hunsent hc
    · have hserves := h.serves token c.isSome rest hunsent n
      have hstream := (List.take_append_drop i.after (server n token)).symm
      rw [hsent] at hstream
      rw [hstream] at hserves
      obtain ⟨c', us, rest', ws', hpre, rfl, hpost, hc'⟩ := hserves.split hc
      have hlast : c'.isSome = r.chunkedValue := assembles_last hpre
      rw [hsent, lastToken, List.foldl_append]
      apply hpre.append
      apply ih (n + 1) r.resumeToken c' rest' ws' _ hc'
      rw [hlast] at hpost ⊢
      rw [List.append_assoc] at hstream
      exact .issued hunsent hstream hpost

theorem delivered_head {server : Server} {fields : List Field} {vs : List Protobuf.Value}
    (h : Resumable server fields vs) (interruptions : List Interruption) (n : Nat) :
    ∃ r rs m, server.delivered n "" interruptions = r :: rs ∧ r.metadata = some m ∧
      m.rowType = fields := by
  induction interruptions generalizing n with
  | nil => exact h.metadata n
  | cons i interruptions ih =>
    obtain ⟨r, rs, m, hstream, hm⟩ := h.metadata n
    rw [delivered, hstream]
    cases i.after with
    | zero => exact ih (n + 1)
    | succ k => exact ⟨r, _, m, rfl, hm⟩

def resultsOf (fields : List Field) (vs : List Protobuf.Value) (count : Nat) :
    List (StatusOr Row) :=
  if fields = [] ∧ vs ≠ [] then List.replicate count (.error missingRowType)
  else ((completeRows fields vs).map Except.ok ++
    endOfStream none (vs.drop (vs.length / fields.length * fields.length)) ::
      List.replicate count (.ok Row.empty)).take count

theorem resultsOf_length (fields : List Field) (vs : List Protobuf.Value) (count : Nat) :
    (resultsOf fields vs count).length = count := by
  rw [resultsOf]
  split
  · exact List.length_replicate
  · rw [List.length_take, List.length_append, List.length_cons, List.length_replicate]
    omega

theorem lastResult_ok {status : Status} (h : status.ok = true) (chunk : Option Protobuf.Value)
    (buffer : List Protobuf.Value) : lastResult status chunk buffer = endOfStream chunk buffer := by
  rw [lastResult, check_ok h]
  rfl

theorem returns_resultsOf {reader reader' : σ} {r : PartialResultSet}
    {rs : List PartialResultSet} {status : Status} (hd : R.Delivers reader (r :: rs) status reader')
    (hok : status.ok = true) {m : ResultSetMetadata} (hm : r.metadata = some m)
    {vs : List Protobuf.Value} (ha : Assembles none (r :: rs) vs none) :
    ∃ s, Converges (fun fuel => create R fuel reader) (.ok s) ∧
      ∀ count, ∃ s', Returns R s (resultsOf m.rowType vs count) s' := by
  obtain ⟨s, ws, hcreate, hopen, hdrest, hrest, rfl⟩ := create_of_assembles hd hm ha
  refine ⟨s, hcreate, fun count => ?_⟩
  rw [resultsOf]
  cases hfields : m.rowType with
  | cons field fields =>
    have hpos : 0 < m.rowType.length := by simp [hfields]
    obtain ⟨blocks, rest, hb, hreturns⟩ := hopen.returns_stream hpos hdrest hrest
    obtain ⟨s', hs'⟩ := hreturns count
    rw [← hfields, if_neg (by simp [hfields]), ← hb.rest_eq_drop, ← completeRows_of_blocks hb,
      List.map_map, ← lastResult_ok hok]
    exact hs'.take count
  | nil =>
    rw [← List.append_nil rs] at hdrest
    obtain ⟨reader'', hreads, hend⟩ := hdrest.split
    split
    · next h => exact hopen.returns_values_without_columns hfields hreads hrest h.2 count
    · next h =>
      have hnil : s.buffer ++ ws = [] := by simpa using h
      obtain ⟨t, ht, rfl, htc, htb, hnext⟩ := hopen.returns_skip hreads hrest hnil
      obtain ⟨s', hs'⟩ := ht.returns_end (.inl htb) hend
      have hall := hnext _ s' (List.cons_ne_nil _ _) (hs' count)
      rw [lastResult_ok hok, htc, htb] at hall
      rw [hnil, completeRows_nil_columns]
      exact hall.take count

theorem returns_iff {τ : Type} {Q : PartialResultSetReader τ} {s : PartialResultSetSource σ}
    {t : PartialResultSetSource τ} (f : Nat → List (StatusOr Row)) (hf : ∀ n, (f n).length = n)
    (hs : ∀ n, ∃ s', Returns R s (f n) s') (ht : ∀ n, ∃ t', Returns Q t (f n) t')
    (results : List (StatusOr Row)) :
    (∃ s', Returns R s results s') ↔ ∃ t', Returns Q t results t' := by
  constructor
  · rintro ⟨s', h⟩
    obtain ⟨s'', h'⟩ := hs results.length
    rw [h.unique h' (hf _).symm]
    exact ht results.length
  · rintro ⟨t', h⟩
    obtain ⟨t'', h'⟩ := ht results.length
    rw [h.unique h' (hf _).symm]
    exact hs results.length

/-- Through any tolerated interruptions, with the streams cut in any way, the rows are those of
one uninterrupted stream of the same values. -/
theorem resumed_rows_agree (server : Server) (fields : List Field) (vs : List Protobuf.Value)
    (h : Resumable server fields vs) (interruptions : List Interruption)
    (retryPolicy : RetryPolicy π) (backoffPolicy : BackoffPolicy β) (retryState : π)
    (backoffState : β)
    (htol : retryPolicy.Tolerates retryState (interruptions.map (·.failure.status)))
    (r : PartialResultSet) (rs : List PartialResultSet) (hserves : Serves false vs (r :: rs))
    (m : ResultSetMetadata) (hm : r.metadata = some m) (hfields : m.rowType = fields)
    (reader reader' : σ) (hd : R.Delivers reader (r :: rs) .success reader') :
    ∃ s t, Converges (fun fuel => create (server.resume retryPolicy backoffPolicy).reader fuel
        ((server.resume retryPolicy backoffPolicy).make ⟨0, interruptions⟩ retryState
          backoffState)) (.ok s) ∧
      Converges (fun fuel => create R fuel reader) (.ok t) ∧
      ∀ results, (∃ s', Returns (server.resume retryPolicy backoffPolicy).reader s results s') ↔
        ∃ t', Returns R t results t' := by
  subst hfields
  obtain ⟨s', hs'⟩ := delivers_make server retryPolicy backoffPolicy interruptions retryState
    backoffState htol
  have ha := delivered_assembles h interruptions 0 "" none vs vs .start rfl
  obtain ⟨q, qs, mq, hdelivered, hmq, hrow⟩ := delivered_head h interruptions 0
  rw [hdelivered] at hs' ha
  obtain ⟨s, hcreate, hs⟩ := returns_resultsOf hs' rfl hmq ha
  obtain ⟨t, hcreate', ht⟩ := returns_resultsOf hd rfl hm (hserves.assembles (c := none) rfl)
  rw [hrow] at hs
  exact ⟨s, t, hcreate, hcreate', returns_iff _ (resultsOf_length m.rowType vs) hs ht⟩

def cutRowServer : Server := fun _ token =>
  if token = "" then [cutRow, restOfRow] else if token = "t" then [restOfRow] else []

theorem serves_cutRow : Serves false [.stringValue "a", .stringValue "bc"] [cutRow, restOfRow] := by
  refine ⟨_, ?_, transmits_cutRow⟩
  exact .cons rfl (.cons rfl .nil)

theorem unsent_cutRowServer {token : String} {pending : Bool} {rest : List Protobuf.Value}
    (h : Unsent cutRowServer [.stringValue "a", .stringValue "bc"] token pending rest) (n : Nat) :
    Serves pending rest (cutRowServer n token) ∧ token ∈ ["", "t", "u"] := by
  induction h with
  | start => exact ⟨serves_cutRow, by simp⟩
  | @issued n token pending rest rest' pre post r _ hstream hpost ih =>
    obtain ⟨-, htoken⟩ := ih
    have hcases : r = cutRow ∧ post = [restOfRow] ∨ r = restOfRow ∧ post = [] := by
      simp only [List.mem_cons, List.not_mem_nil, or_false] at htoken
      rcases htoken with rfl | rfl | rfl <;> cases pre with
      | nil => simp_all [cutRowServer]
      | cons q pre => cases pre <;> simp_all [cutRowServer]
    rcases hcases with ⟨rfl, rfl⟩ | ⟨rfl, rfl⟩
    · exact ⟨hpost, by simp [cutRow]⟩
    · exact ⟨hpost, by simp [restOfRow]⟩

theorem cutRow_agrees :
    ∃ s t, Converges (fun fuel => create
        (cutRowServer.resume (limitedErrorCount 3) (exponentialBackoff 60000)).reader fuel
        ((cutRowServer.resume (limitedErrorCount 3) (exponentialBackoff 60000)).make
          ⟨0, [⟨1, .of .unavailable "try-again" StatusCode.unavailable_ne_ok⟩]⟩ 0 100)) (.ok s) ∧
      Converges (fun fuel =>
        create ServerStream.reader fuel ⟨[cutRow, restOfRow], .success⟩) (.ok t) ∧
      ∀ results, (∃ s', Returns
        (cutRowServer.resume (limitedErrorCount 3) (exponentialBackoff 60000)).reader
          s results s') ↔
        ∃ t', Returns ServerStream.reader t results t' := by
  apply resumed_rows_agree cutRowServer twoColumns.rowType [.stringValue "a", .stringValue "bc"]
  · exact ⟨fun token pending rest h n => (unsent_cutRowServer h n).1,
      fun _ => ⟨cutRow, [restOfRow], twoColumns, rfl, rfl, rfl⟩⟩
  · exact ⟨rfl, rfl, trivial⟩
  · exact serves_cutRow
  · rfl
  · rfl
  · exact ServerStream.delivers [cutRow, restOfRow] .success

end SpannerClient.ResumedRows
