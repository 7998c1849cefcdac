import SpannerClient.TypedRows

namespace SpannerClient

open Protobuf Fuel Iteration PartialResultSetSource PartialResultSetReader RowAssembly Resumption
  Resumption.Server

def noRows : Failure := .of .invalidArgument "no rows" StatusCode.invalidArgument_ne_ok

def tooManyRows : Failure := .of .invalidArgument "too many rows" StatusCode.invalidArgument_ne_ok

/-- `GetSingularRow()` of the range that begins at `first`.  Moving the row out of the iterator
leaves there what the increment looks at, whether it is OK. -/
def getSingularRow {σ τ : Type} (current : σ → Option (StatusOr τ)) (increment : σ → Option σ)
    (first : σ) : Bounded (StatusOr τ) :=
  match current first with
  | none => some (.error noRows)
  | some row =>
    (increment first).map fun it => if (current it).isSome then .error tooManyRows else row

def singularOf {τ : Type} (place : Nat → Bounded (Option (StatusOr τ))) : Bounded (StatusOr τ) :=
  (place 0).bind fun
    | none => some (.error noRows)
    | some (.error e) => some (.error e)
    | some (.ok t) => (place 1).map fun b => if b.isSome then .error tooManyRows else .ok t

theorem getSingularRow_eq {σ τ : Type} {place : Nat → Bounded (Option (StatusOr τ))}
    {current : σ → Option (StatusOr τ)} {increment : σ → Option σ} {first : σ}
    (hfirst : place 0 = some (current first))
    (herror : ∀ e, current first = some (.error e) → (increment first).map current = some none)
    (hok : ∀ t, current first = some (.ok t) → (increment first).map current = place 1) :
    getSingularRow current increment first = singularOf place := by
  rw [getSingularRow, singularOf, hfirst, Option.bind_some]
  cases hcurrent : current first with
  | none => rfl
  | some r =>
    cases r with
    | error e =>
      obtain ⟨it, hit, hend⟩ := Option.map_eq_some_iff.mp (herror e hcurrent)
      simp [hit, hend]
    | ok t =>
      simp only [← hok t hcurrent, Option.map_map]
      rfl

variable {source : RowSource}

theorem singular_rows (source : RowSource) :
    (RowStreamIterator.ofSource (some source) 0).bind
        (getSingularRow (fun s => s.1.current) fun s => s.1.increment s.2) =
      singularOf fun n => some (rowAt source n) := by
  rw [RowStreamIterator.ofSource_eq, Option.bind_some]
  refine getSingularRow_eq ?_ ?_ ?_
  · rw [RowStreamIterator.standing_current]
  · intro e hcurrent
    rw [RowStreamIterator.standing_current] at hcurrent
    rw [RowStreamIterator.standing_of_some hcurrent]
    rfl
  · intro row hcurrent
    rw [RowStreamIterator.standing_current] at hcurrent
    rw [RowStreamIterator.standing_of_some hcurrent, RowStreamIterator.increment_of_row,
      Option.map_some, RowStreamIterator.standing_current]

theorem singular_tuples {τ : Type} (get : Row → Bounded (StatusOr τ)) (source : RowSource) :
    (streamOf get source).bind
        (getSingularRow (fun s => s.1.current) fun s => s.1.increment get s.2) =
      singularOf (tupleAt get source) := by
  have hcurrent := current_of_streamOf get source
  cases hstream : streamOf get source with
  | none =>
    rw [hstream] at hcurrent
    rw [singularOf, ← hcurrent]
    rfl
  | some first =>
    have hfirst := standing_of_streamOf hstream
    rw [Option.bind_some]
    refine getSingularRow_eq hfirst.tup ?_ ?_
    · intro e he
      rw [TupleStreamIterator.increment, TupleStreamIterator.tup_of_current he, Option.map_some,
        TupleStreamIterator.current_eq, hfirst.pastEnd]
      rfl
    · intro t ht
      rw [TupleStreamIterator.increment_of_ok hfirst ht, Option.map_map]
      exact TupleStreamIterator.current_of_parseTuple (.ok t)

def incompleteRow : Failure :=
  .of .internal "incomplete row at end of stream" StatusCode.internal_ne_ok

def resultAt (fields : List Field) (vs : List Protobuf.Value) : RowSource := fun n =>
  if fields = [] ∧ vs ≠ [] then .error missingRowType
  else if n < vs.length / fields.length then
    .ok (rowOf fields ((vs.drop (n * fields.length)).take fields.length))
  else if n = vs.length / fields.length then
    endOfStream none (vs.drop (vs.length / fields.length * fields.length))
  else .ok .empty

theorem resultsOf_eq (fields : List Field) (vs : List Protobuf.Value) (count : Nat) :
    ResumedRows.resultsOf fields vs count = (List.range count).map (resultAt fields vs) := by
  have hrows : ((completeRows fields vs).map (Except.ok (ε := Failure))).length =
      vs.length / fields.length := by
    simp [completeRows]
  rw [ResumedRows.resultsOf]
  apply List.ext_getElem?
  intro n
  split
  · next h =>
    rw [List.getElem?_replicate, List.getElem?_map]
    split
    · next hn => rw [List.getElem?_range hn, Option.map_some, resultAt, if_pos h]
    · next hn => simp [hn]
  · next h =>
    rw [List.getElem?_take, List.getElem?_map]
    split
    · next hn =>
      rw [List.getElem?_range hn, Option.map_some, resultAt, if_neg h]
      rcases Nat.lt_trichotomy n (vs.length / fields.length) with hlt | rfl | hgt
      · rw [List.getElem?_append_left (hrows ▸ hlt), if_pos hlt]
        simp [completeRows, hlt]
      · rw [List.getElem?_append_right (Nat.le_of_eq hrows), hrows]
        simp
      · rw [List.getElem?_append_right (by omega), hrows, if_neg (by omega), if_neg (by omega),
          List.getElem?_cons, if_neg (by omega), List.getElem?_replicate, if_pos (by omega)]
    · next hn => simp [hn]

def singularValues {τ : Type} (get : Row → Bounded (StatusOr τ)) (fields : List Field)
    (vs : List Protobuf.Value) : Bounded (StatusOr τ) :=
  if vs = [] then some (.error noRows)
  else if fields = [] then some (.error missingRowType)
  else if vs.length < fields.length then some (.error incompleteRow)
  else
    (get (rowOf fields (vs.take fields.length))).bind fun
      | .error e => some (.error e)
      | .ok t =>
        if vs.length = fields.length then some (.ok t)
        else if vs.length < 2 * fields.length then some (.error tooManyRows)
        else (get (rowOf fields ((vs.drop fields.length).take fields.length))).map
          fun _ => .error tooManyRows

theorem rowAt_resultAt {fields : List Field} {vs : List Protobuf.Value} {n : Nat}
    (hfields : fields ≠ []) :
    rowAt (resultAt fields vs) n =
      if (n + 1) * fields.length ≤ vs.length then
        some (.ok (rowOf fields ((vs.drop (n * fields.length)).take fields.length)))
      else if n * fields.length < vs.length then some (.error incompleteRow)
      else none := by
  have hpos : 0 < fields.length := List.length_pos_of_ne_nil hfields
  have hrow : n < vs.length / fields.length ↔ (n + 1) * fields.length ≤ vs.length :=
    Nat.le_div_iff_mul_le hpos
  have hplace : n ≤ vs.length / fields.length ↔ n * fields.length ≤ vs.length :=
    Nat.le_div_iff_mul_le hpos
  rw [rowAt, resultAt, if_neg fun h => hfields h.1]
  by_cases hfull : (n + 1) * fields.length ≤ vs.length
  · have hlen : ((vs.drop (n * fields.length)).take fields.length).length = fields.length := by
      rw [List.length_take, List.length_drop]
      rw [Nat.succ_mul] at hfull
      omega
    have hsize : (rowOf fields ((vs.drop (n * fields.length)).take fields.length)).size ≠ 0 := by
      rw [Row.size, rowOf_columns hlen, List.length_map]
      exact Nat.ne_of_gt hpos
    simp only [hrow.mpr hfull, hfull, if_true, hsize, if_false]
  · rw [if_neg fun hlt => hfull (hrow.mp hlt), if_neg hfull]
    by_cases hpart : n * fields.length < vs.length
    · have heq : n = vs.length / fields.length :=
        Nat.le_antisymm (hplace.mpr (Nat.le_of_lt hpart))
          (Nat.le_of_not_lt fun hlt => hfull (hrow.mp hlt))
      have hrest : vs.drop (n * fields.length) ≠ [] := fun hnil =>
        Nat.not_lt.mpr (List.drop_eq_nil_iff.mp hnil) hpart
      rw [if_pos heq, if_pos hpart, ← heq, endOfStream]
      simp [hrest, incompleteRow]
    · have hend : (if n = vs.length / fields.length then
          endOfStream none (vs.drop (vs.length / fields.length * fields.length))
          else .ok Row.empty) = .ok Row.empty := by
        split
        · next heq =>
          rw [← heq, List.drop_eq_nil_of_le (Nat.le_of_not_lt hpart)]
          rfl
        · rfl
      rw [hend, if_neg hpart]
      rfl

theorem tupleAt_rows (source : RowSource) (n : Nat) :
    tupleAt (fun row => some (.ok row)) source n = some (rowAt source n) := by
  rw [tupleAt]
  cases rowAt source n with
  | none => rfl
  | some r => cases r <;> rfl

theorem tupleAt_resultAt {τ : Type} {get : Row → Bounded (StatusOr τ)} {fields : List Field}
    {vs : List Protobuf.Value} {n : Nat} (hfields : fields ≠ []) :
    tupleAt get (resultAt fields vs) n =
      if (n + 1) * fields.length ≤ vs.length then
        (get (rowOf fields ((vs.drop (n * fields.length)).take fields.length))).map some
      else if n * fields.length < vs.length then some (some (.error incompleteRow))
      else some none := by
  rw [tupleAt, rowAt_resultAt hfields]
  by_cases hfull : (n + 1) * fields.length ≤ vs.length
  · simp only [hfull, if_true]
  · by_cases hpart : n * fields.length < vs.length <;> simp only [hfull, hpart, if_true, if_false]

theorem singularOf_resultAt {τ : Type} (get : Row → Bounded (StatusOr τ)) (fields : List Field)
    (vs : List Protobuf.Value) :
    singularOf (tupleAt get (resultAt fields vs)) = singularValues get fields vs := by
  rw [singularValues, singularOf]
  by_cases hvs : vs = []
  · have hfirst : tupleAt get (resultAt fields vs) 0 = some none := by
      subst hvs
      by_cases hfields : fields = []
      · subst hfields
        rfl
      · rw [tupleAt_resultAt hfields, if_neg (by simpa using hfields), if_neg (by simp)]
    rw [hfirst, if_pos hvs]
    rfl
  rw [if_neg hvs]
  by_cases hfields : fields = []
  · have hfirst : tupleAt get (resultAt fields vs) 0 = some (some (.error missingRowType)) := by
      rw [tupleAt, rowAt, resultAt, if_pos ⟨hfields, hvs⟩]
    rw [hfirst, if_pos hfields]
    rfl
  rw [if_neg hfields, tupleAt_resultAt hfields, tupleAt_resultAt hfields]
  simp only [Nat.zero_add, Nat.zero_mul, Nat.one_mul, List.drop_zero]
  by_cases hshort : vs.length < fields.length
  · rw [if_pos hshort, if_neg (by omega), if_pos (List.length_pos_of_ne_nil hvs)]
    rfl
  rw [if_neg hshort, if_pos (by omega)]
  cases hget : get (rowOf fields (vs.take fields.length)) with
  | none => rfl
  | some r =>
    cases r with
    | error e => rfl
    | ok t =>
      simp only [Option.map_some, Option.bind_some]
      by_cases hone : vs.length = fields.length
      · rw [if_neg (by have := List.length_pos_of_ne_nil hfields; omega), if_neg (by omega),
          if_pos hone]
        rfl
      rw [if_neg hone]
      by_cases htwo : vs.length < 2 * fields.length
      · rw [if_neg (by omega), if_pos (by omega), if_pos htwo]
        rfl
      · rw [if_pos (by omega), if_neg htwo, Option.map_map]
        rfl

/-- What `GetSingularRow()` returns of the rows of a resumable stream, and of the tuples in them,
is decided by the values that the stream carries. -/
theorem singular_of_stream {server : Server} {fields : List Field} {vs : List Protobuf.Value}
    (h : ResumedRows.Resumable server fields vs) (interruptions : List Interruption) {π β : Type}
    (retryPolicy : RetryPolicy π) (backoffPolicy : BackoffPolicy β) (retryState : π)
    (backoffState : β)
    (htol : retryPolicy.Tolerates retryState (interruptions.map (·.failure.status))) :
    ∃ s source,
      Converges (fun fuel => create (server.resume retryPolicy backoffPolicy).reader fuel
        ((server.resume retryPolicy backoffPolicy).make ⟨0, interruptions⟩ retryState
          backoffState)) (.ok s) ∧
      (∀ count, ∃ s', Returns (server.resume retryPolicy backoffPolicy).reader s
        ((List.range count).map source) s') ∧
      (RowStreamIterator.ofSource (some source) 0).bind
          (getSingularRow (fun s => s.1.current) fun s => s.1.increment s.2) =
        singularValues (fun row => some (.ok row)) fields vs ∧
      ∀ Ts, (streamOf (Row.getTuple Ts) source).bind
          (getSingularRow (fun s => s.1.current) fun s => s.1.increment (Row.getTuple Ts) s.2) =
        singularValues (Row.getTuple Ts) fields vs := by
  obtain ⟨s, hcreate, hs⟩ := returns_of_resumable h interruptions retryPolicy backoffPolicy
    retryState backoffState htol
  refine ⟨s, resultAt fields vs, hcreate, fun count => ?_, ?_, fun Ts => ?_⟩
  · rw [← resultsOf_eq]
    exact hs count
  · rw [singular_rows, ← singularOf_resultAt]
    exact congrArg singularOf (funext fun n => (tupleAt_rows _ n).symm)
  · rw [singular_tuples, singularOf_resultAt]

theorem singularValues_twoTexts :
    singularValues (Row.getTuple [.scalar .string, .scalar .string])
      Transmission.twoColumns.rowType [.stringValue "a", .stringValue "bc"] =
      some (.ok twoTexts) := by
  have hstored : Row.Stored [.scalar .string, .scalar .string] twoTexts
      Transmission.twoColumns.rowType :=
    ⟨stored_text "a", stored_text "bc", trivial⟩
  have hget : Row.getTuple [.scalar .string, .scalar .string]
      (rowOf Transmission.twoColumns.rowType (([.stringValue "a", .stringValue "bc"] :
        List Protobuf.Value).take Transmission.twoColumns.rowType.length)) = some (.ok twoTexts) :=
    hstored.getTuple
  rw [singularValues, if_neg (by simp), if_neg (by decide), if_neg (by decide), hget]
  rfl

theorem singular_of_stream_cut :
    ∃ s source,
      Converges (fun fuel => create
        (ResumedRows.cutRowServer.resume (limitedErrorCount 3) (exponentialBackoff 60000)).reader
        fuel
        ((ResumedRows.cutRowServer.resume (limitedErrorCount 3) (exponentialBackoff 60000)).make
          ⟨0, [⟨1, .of .unavailable "try-again" StatusCode.unavailable_ne_ok⟩]⟩ 0 100)) (.ok s) ∧
      (∀ count, ∃ s', Returns
        (ResumedRows.cutRowServer.resume (limitedErrorCount 3) (exponentialBackoff 60000)).reader
        s ((List.range count).map source) s') ∧
      (streamOf (Row.getTuple [.scalar .string, .scalar .string]) source).bind
        (getSingularRow (fun s => s.1.current)
          fun s => s.1.increment (Row.getTuple [.scalar .string, .scalar .string]) s.2) =
        some (.ok twoTexts) := by
  obtain ⟨s, source, hcreate, hreturns, -, htuple⟩ := singular_of_stream resumable_cutRowServer
    [⟨1, .of .unavailable "try-again" StatusCode.unavailable_ne_ok⟩] (limitedErrorCount 3)
    (exponentialBackoff 60000) 0 100 ⟨rfl, rfl, trivial⟩
  exact ⟨s, source, hcreate, hreturns, (htuple _).trans singularValues_twoTexts⟩

end SpannerClient
