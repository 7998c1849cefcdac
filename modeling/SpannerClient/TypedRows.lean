import SpannerClient.Internal.ResumedRows
import SpannerClient.Mutations
import SpannerClient.RowIteration
import SpannerClient.ValueRoundTrip

namespace SpannerClient

open Protobuf Fuel Iteration PartialResultSetSource PartialResultSetReader RowAssembly Resumption
  Resumption.Server

/-- A value that is made from `t` fits into a column of this type, and its names come back. -/
structure CppType.Stored (T : CppType) (t : T.Val) (type : SpannerType) : Prop where
  supported : T.Supported
  encodable : T.All Scalar.Encodable t
  type : T.makeTypeProto t = .ok type
  names : T.KeepsNames t

namespace CppType.Stored

variable {T : CppType} {t : T.Val} {type : SpannerType}

theorem value (h : T.Stored t type) : Value.of T t = .ok (fromProto type (T.makeValueProto t)) := by
  rw [Value.of, h.type]
  rfl

theorem get (h : T.Stored t type) :
    (fromProto type (T.makeValueProto t)).get T = some (.ok t) := by
  have hread := (getValue_constructed h.supported h.encodable h.type).mpr h.names
  rw [Value.get, fromProto, T.typeProtoIs_makeTypeProto h.type]
  by_cases hnull : (T.makeValueProto t).kindCase = .nullValue
  · -- only an empty optional is written as a null
    cases T with
    | optional T =>
      cases t with
      | none => simp [hnull, isOptional, default]
      | some t =>
        cases T with
        | scalar s => exact absurd hnull (s.kindCase_makeValueProto t)
        | _ => exact absurd h.supported (by simp [Supported, isScalar])
    | scalar s => exact absurd hnull (kindCase_makeValueProto (T := .scalar s) rfl t)
    | vector T => exact absurd hnull (kindCase_makeValueProto (T := .vector T) rfl t)
    | tuple Ts => exact absurd hnull (kindCase_makeValueProto (T := .tuple Ts) rfl t)
  · simp only [hnull, if_false]
    exact hread

end CppType.Stored

namespace Row

def Stored : (Ts : List CppType) → TupleVal Ts → List Field → Prop
  | [], _, [] => True
  | T :: Ts, (t, ts), field :: fields => T.Stored t field.type ∧ Stored Ts ts fields
  | [], _, _ :: _ | _ :: _, _, [] => False

theorem Stored.length_eq : {Ts : List CppType} → {row : TupleVal Ts} → {fields : List Field} →
    Stored Ts row fields → fields.length = Ts.length
  | [], _, [], _ => rfl
  | _ :: _, (_, _), _ :: _, h => congrArg (· + 1) h.2.length_eq

theorem Stored.valuesOf : {Ts : List CppType} → {row : TupleVal Ts} → {fields : List Field} →
    Stored Ts row fields → valuesOf Ts row = .ok (rowOf fields (rowProto Ts row)).values
  | [], _, [], _ => rfl
  | T :: Ts, (t, row), field :: fields, h => by
    rw [SpannerClient.valuesOf, h.1.value, h.2.valuesOf]
    rfl

theorem Stored.extractValues : {Ts : List CppType} → {row : TupleVal Ts} → {fields : List Field} →
    Stored Ts row fields →
    extractValues Ts (rowOf fields (rowProto Ts row)).values none = some (row, none)
  | [], _, [], _ => rfl
  | T :: Ts, (t, row), field :: fields, h => by
    have hlater := h.2.extractValues
    rw [rowOf_values] at hlater
    rw [rowOf_values, rowProto, List.zipWith_cons_cons, Row.extractValues, h.1.get]
    simp only [Option.bind_eq_bind, Option.bind_some, hlater]

theorem Stored.getTuple {Ts : List CppType} {row : TupleVal Ts} {fields : List Field}
    (h : Stored Ts row fields) : (rowOf fields (rowProto Ts row)).getTuple Ts = some (.ok row) := by
  have hlen : (rowOf fields (rowProto Ts row)).size = Ts.length := by
    rw [size, rowOf_columns (by rw [length_rowProto, h.length_eq]), List.length_map, h.length_eq]
  rw [Row.getTuple, if_neg (not_not_intro hlen), h.extractValues]
  rfl

end Row

variable {Ts : List CppType} {rows : List (Row.TupleVal Ts)} {fields : List Field}

def rowsOf (fields : List Field) (rows : List (Row.TupleVal Ts)) : RowSource := fun n =>
  .ok ((rows[n]?.map fun row => rowOf fields (rowProto Ts row)).getD .empty)

theorem tupleAt_rowsOf (hTs : Ts ≠ []) (h : ∀ row ∈ rows, Row.Stored Ts row fields) (n : Nat) :
    tupleAt (Row.getTuple Ts) (rowsOf fields rows) n = some (rows[n]?.map .ok) := by
  rw [tupleAt, rowAt, rowsOf]
  cases hn : rows[n]? with
  | none => rfl
  | some row =>
    have hrow := h row (List.mem_of_getElem? hn)
    have hsize : (rowOf fields (rowProto Ts row)).size ≠ 0 := by
      rw [Row.size, rowOf_columns (by rw [length_rowProto, hrow.length_eq]), List.length_map,
        hrow.length_eq]
      exact fun hnil => hTs (List.length_eq_zero_iff.mp hnil)
    simp only [Option.map_some, Option.getD_some, hsize, if_false, hrow.getTuple]

theorem blocks_rowProto (hTs : Ts ≠ []) :
    Blocks Ts.length (rows.map (rowProto Ts)).flatten (rows.map (rowProto Ts)) [] := by
  refine ⟨List.append_nil _, fun b hb => ?_, List.length_pos_of_ne_nil hTs⟩
  obtain ⟨row, -, rfl⟩ := List.mem_map.mp hb
  exact length_rowProto Ts row

theorem completeRows_rowProto (hTs : Ts ≠ []) (h : ∀ row ∈ rows, Row.Stored Ts row fields) :
    completeRows fields (rows.map (rowProto Ts)).flatten =
      rows.map fun row => rowOf fields (rowProto Ts row) := by
  cases rows with
  | nil => simp [completeRows]
  | cons row rows =>
    have hlen := (h row List.mem_cons_self).length_eq
    rw [← completeRows_of_blocks (hlen ▸ blocks_rowProto hTs), List.map_map]
    rfl

theorem resultsOf_rowProto (hTs : Ts ≠ []) (h : ∀ row ∈ rows, Row.Stored Ts row fields)
    (count : Nat) :
    ResumedRows.resultsOf fields (rows.map (rowProto Ts)).flatten count =
      (List.range count).map (rowsOf fields rows) := by
  have hcolumns : ¬(fields = [] ∧ (rows.map (rowProto Ts)).flatten ≠ []) := by
    rintro ⟨rfl, hne⟩
    cases rows with
    | nil => exact hne rfl
    | cons row rows =>
      have hlen := (h row List.mem_cons_self).length_eq
      exact hTs (List.length_eq_zero_iff.mp hlen.symm)
  have hrest : (rows.map (rowProto Ts)).flatten.drop
      ((rows.map (rowProto Ts)).flatten.length / fields.length * fields.length) = [] := by
    cases rows with
    | nil => simp
    | cons row rows =>
      have hlen := (h row List.mem_cons_self).length_eq
      exact (Blocks.rest_eq_drop (hlen ▸ blocks_rowProto hTs)).symm
  rw [ResumedRows.resultsOf, if_neg hcolumns, hrest, completeRows_rowProto hTs h]
  have hends : endOfStream none [] :: List.replicate count (.ok Row.empty) =
      List.replicate (count + 1) (.ok Row.empty) := rfl
  rw [hends]
  apply List.ext_getElem?
  intro n
  rw [List.getElem?_take, List.getElem?_map]
  split
  · next hn =>
    rw [List.getElem?_range hn, Option.map_some, rowsOf]
    rcases Nat.lt_or_ge n rows.length with hlt | hge
    · rw [List.getElem?_append_left (by simpa using hlt)]
      simp [hlt]
    · rw [List.getElem?_append_right (by simpa using hge), List.getElem?_replicate,
        if_pos (by omega), List.getElem?_eq_none hge]
      rfl
  · next hn => simp [hn]

theorem returns_of_resumable {server : Server} {vs : List Protobuf.Value}
    (h : ResumedRows.Resumable server fields vs) (interruptions : List Interruption) {π β : Type}
    (retryPolicy : RetryPolicy π) (backoffPolicy : BackoffPolicy β) (retryState : π)
    (backoffState : β)
    (htol : retryPolicy.Tolerates retryState (interruptions.map (·.failure.status))) :
    ∃ s, Converges (fun fuel => create (server.resume retryPolicy backoffPolicy).reader fuel
        ((server.resume retryPolicy backoffPolicy).make ⟨0, interruptions⟩ retryState
          backoffState)) (.ok s) ∧
      ∀ count, ∃ s', Returns (server.resume retryPolicy backoffPolicy).reader s
        (ResumedRows.resultsOf fields vs count) s' := by
  obtain ⟨reader', hdelivers⟩ := delivers_make server retryPolicy backoffPolicy interruptions
    retryState backoffState htol
  have hassembles := ResumedRows.delivered_assembles h interruptions 0 "" none vs vs .start rfl
  obtain ⟨r, rs, m, hdelivered, hm, rfl⟩ := ResumedRows.delivered_head h interruptions 0
  rw [hdelivered] at hdelivers hassembles
  exact ResumedRows.returns_resultsOf hdelivers rfl hm hassembles

theorem visits_rowsOf (hTs : Ts ≠ []) (h : ∀ row ∈ rows, Row.Stored Ts row fields) :
    ∃ first last, streamOf (Row.getTuple Ts) (rowsOf fields rows) = some first ∧
      Visits (fun s => s.1.current) (fun s => s.1.increment (Row.getTuple Ts) s.2) first
        (rows.map .ok) (last, rows.length + 1) ∧ last.current = none := by
  have hplace := tupleAt_rowsOf hTs h
  have hparse (n : Nat) (tup : StatusOr (Row.TupleVal Ts)) :
      ∃ it, TupleStreamIterator.parseTuple (Row.getTuple Ts)
        ⟨tup, .standing (rowsOf fields rows) n, .pastEnd⟩ = some it := by
    rw [TupleStreamIterator.parseTuple_standing, hplace]
    exact ⟨_, rfl⟩
  obtain ⟨first, hfirst⟩ := hparse 0 (defaultStatusOr _)
  have hstream : streamOf (Row.getTuple Ts) (rowsOf fields rows) = some (first, 1) := by
    simp only [streamOf, RowStreamIterator.ofSource_eq, TupleStreamIterator.ofRange,
      Option.bind_eq_bind, Option.bind_some, hfirst]
  obtain ⟨⟨last, calls⟩, hvisits, hcurrent, rfl⟩ :=
    (TupleStreamIterator.follows (Row.getTuple Ts) (rowsOf fields rows)).reaches
      (fun n b b' hb hb' => Option.some.inj (hb.symm.trans hb'))
      (fun n s a b hs hcurrent _ => by
        obtain ⟨it, hit⟩ := hparse (n + 1) (.ok a)
        exact ⟨_, by rw [TupleStreamIterator.increment_of_ok hs hcurrent, hit, Option.map_some]⟩)
      (standing_of_streamOf hstream)
      (fun n row hrow => by rw [hplace, hrow]; rfl)
      (by rw [hplace, List.getElem?_eq_none (Nat.le_refl _)]; rfl)
  exact ⟨(first, 1), last, hstream, hvisits, hcurrent⟩

/-- What is written comes back: the tuples that `EmplaceRow()` put into a mutation, sent by the
server as any resumable stream of their values, are those that `StreamOf()` visits. -/
theorem streamed_of_written (hTs : Ts ≠ []) (op : WriteOp) (tableName : String)
    (columnNames : List String) (rows : List (Row.TupleVal Ts)) (fields : List Field)
    (h : ∀ row ∈ rows, Row.Stored Ts row fields) :
    ∃ write, emplaceRows op tableName columnNames rows = .ok (op.mutation write) ∧
      ∀ server, ResumedRows.Resumable server fields write.values.flatten →
      ∀ (interruptions : List Interruption) {π β : Type} (retryPolicy : RetryPolicy π)
        (backoffPolicy : BackoffPolicy β) (retryState : π) (backoffState : β),
      retryPolicy.Tolerates retryState (interruptions.map (·.failure.status)) →
      ∃ s source first last,
        Converges (fun fuel => create (server.resume retryPolicy backoffPolicy).reader fuel
          ((server.resume retryPolicy backoffPolicy).make ⟨0, interruptions⟩ retryState
            backoffState)) (.ok s) ∧
        (∀ count, ∃ s', Returns (server.resume retryPolicy backoffPolicy).reader s
          ((List.range count).map source) s') ∧
        streamOf (Row.getTuple Ts) source = some first ∧
        Visits (fun s => s.1.current) (fun s => s.1.increment (Row.getTuple Ts) s.2) first
          (rows.map .ok) (last, rows.length + 1) ∧ last.current = none := by
  refine ⟨⟨tableName, columnNames, rows.map (rowProto Ts)⟩,
    emplaceRows_eq fun row hrow => ⟨_, (h row hrow).valuesOf⟩, ?_⟩
  intro server hserver interruptions π β retryPolicy backoffPolicy retryState backoffState htol
  obtain ⟨first, last, hstream, hvisits, hcurrent⟩ := visits_rowsOf hTs h
  obtain ⟨s, hcreate, hs⟩ := returns_of_resumable hserver interruptions retryPolicy
    backoffPolicy retryState backoffState htol
  refine ⟨s, rowsOf fields rows, first, last, hcreate, fun count => ?_, hstream, hvisits, hcurrent⟩
  rw [← resultsOf_rowProto hTs h]
  exact hs count

theorem resumable_cutRowServer : ResumedRows.Resumable ResumedRows.cutRowServer
    Transmission.twoColumns.rowType [.stringValue "a", .stringValue "bc"] :=
  ⟨fun _ _ _ h n => (ResumedRows.unsent_cutRowServer h n).1,
    fun _ => ⟨Transmission.cutRow, [Transmission.restOfRow], Transmission.twoColumns, rfl, rfl,
      rfl⟩⟩

theorem stored_text (text : String) : (CppType.scalar .string).Stored text (.mk .string none []) :=
  ⟨trivial, trivial, rfl, trivial⟩

def twoTexts : Row.TupleVal [.scalar .string, .scalar .string] := ("a", "bc", ())

theorem streamed_of_written_cut :
    ∃ write, emplaceRows .insert "Singers" ["a", "b"] [twoTexts] = .ok (.insert write) ∧
      ∃ s source first last,
        Converges (fun fuel => create
          (ResumedRows.cutRowServer.resume (limitedErrorCount 3) (exponentialBackoff 60000)).reader
          fuel
          ((ResumedRows.cutRowServer.resume (limitedErrorCount 3) (exponentialBackoff 60000)).make
            ⟨0, [⟨1, .of .unavailable "try-again" StatusCode.unavailable_ne_ok⟩]⟩ 0 100)) (.ok s) ∧
        (∀ count, ∃ s', Returns
          (ResumedRows.cutRowServer.resume (limitedErrorCount 3) (exponentialBackoff 60000)).reader
          s ((List.range count).map source) s') ∧
        streamOf (Row.getTuple [.scalar .string, .scalar .string]) source = some first ∧
        Visits (fun s => s.1.current)
          (fun s => s.1.increment (Row.getTuple [.scalar .string, .scalar .string]) s.2) first
          [.ok twoTexts] (last, 2) ∧ last.current = none := by
  obtain ⟨write, hwrite, hread⟩ := streamed_of_written (by simp) .insert "Singers" ["a", "b"]
    [twoTexts] Transmission.twoColumns.rowType (by
      intro row hrow
      rw [List.mem_singleton.mp hrow]
      exact ⟨stored_text "a", stored_text "bc", trivial⟩)
  refine ⟨write, hwrite, hread _ ?_ _ _ _ _ _ ?_⟩
  · cases hwrite
    exact resumable_cutRowServer
  · exact ⟨rfl, rfl, trivial⟩

end SpannerClient
