import SpannerClient.RowStream
import SpannerClient.ValueEncoding
import SpannerClient.Protobuf.Spanner

namespace SpannerClient

open Protobuf (Write Mutation)

inductive WriteOp
  | insert | update | insertOrUpdate | replace

namespace WriteOp

def mutation : WriteOp → Write → Mutation
  | .insert => .insert
  | .update => .update
  | .insertOrUpdate => .insertOrUpdate
  | .replace => .replace

/-- `mutable_field()`, which makes an empty write of a mutation of any other kind. -/
def field : WriteOp → Mutation → Write
  | .insert, .insert write => write
  | .update, .update write => write
  | .insertOrUpdate, .insertOrUpdate write => write
  | .replace, .replace write => write
  | _, _ => ⟨"", [], []⟩

@[simp] theorem field_mutation (op : WriteOp) (write : Write) :
    op.field (op.mutation write) = write := by
  cases op <;> rfl

@[simp] theorem field_notSet (op : WriteOp) : op.field .notSet = ⟨"", [], []⟩ := by
  cases op <;> rfl

end WriteOp

def valuesOf : (Ts : List CppType) → Row.TupleVal Ts → Except InvalidArgument (List Value)
  | [], _ => .ok []
  | T :: Ts, (t, ts) => return (← Value.of T t) :: (← valuesOf Ts ts)

structure WriteMutationBuilder (op : WriteOp) where
  m : Mutation

namespace WriteMutationBuilder

variable {op : WriteOp}

def make (op : WriteOp) (tableName : String) (columnNames : List String) :
    WriteMutationBuilder op where
  m := op.mutation { op.field .notSet with table := tableName, columns := columnNames }

def build (builder : WriteMutationBuilder op) : Mutation := builder.m

def addRow (builder : WriteMutationBuilder op) (values : List Value) :
    WriteMutationBuilder op where
  m :=
    let field := op.field builder.m
    op.mutation { field with values := field.values ++ [values.map fun v => (toProto v).2] }

def emplaceRow (builder : WriteMutationBuilder op) (Ts : List CppType)
    (values : Row.TupleVal Ts) : Except InvalidArgument (WriteMutationBuilder op) :=
  return builder.addRow (← valuesOf Ts values)

end WriteMutationBuilder

def makeMutation (op : WriteOp) (tableName : String) (columns : List String) (Ts : List CppType)
    (values : Row.TupleVal Ts) : Except InvalidArgument Mutation :=
  return (← (WriteMutationBuilder.make op tableName columns).emplaceRow Ts values).build

def rowProto : (Ts : List CppType) → Row.TupleVal Ts → List Protobuf.Value
  | [], _ => []
  | T :: Ts, (t, ts) => T.makeValueProto t :: rowProto Ts ts

variable {Ts : List CppType}

@[simp] theorem length_rowProto : (Ts : List CppType) → (row : Row.TupleVal Ts) →
    (rowProto Ts row).length = Ts.length
  | [], _ => rfl
  | _ :: Ts, (_, row) => congrArg (· + 1) (length_rowProto Ts row)

theorem map_toProto_of_valuesOf : (Ts : List CppType) → {row : Row.TupleVal Ts} →
    {values : List Value} → valuesOf Ts row = .ok values →
    values.map (fun v => (toProto v).2) = rowProto Ts row
  | [], _, _, h => by
    cases h
    rfl
  | T :: Ts, (t, row), values, h => by
    rw [valuesOf, Value.of] at h
    cases htype : T.makeTypeProto t with
    | error e =>
      rw [htype] at h
      cases h
    | ok type =>
      cases hvalues : valuesOf Ts row with
      | error e =>
        rw [htype, hvalues] at h
        cases h
      | ok later =>
        rw [htype, hvalues] at h
        cases h
        rw [List.map_cons, map_toProto_of_valuesOf Ts hvalues, rowProto]
        rfl

def emplaceRows (op : WriteOp) (tableName : String) (columnNames : List String)
    (rows : List (Row.TupleVal Ts)) : Except InvalidArgument Mutation :=
  return (← rows.foldlM (fun builder row => builder.emplaceRow Ts row)
    (WriteMutationBuilder.make op tableName columnNames)).build

theorem emplaceRow_mutation {op : WriteOp} {write : Write} {row : Row.TupleVal Ts}
    {values : List Value} (h : valuesOf Ts row = .ok values) :
    (⟨op.mutation write⟩ : WriteMutationBuilder op).emplaceRow Ts row =
      .ok ⟨op.mutation { write with values := write.values ++ [rowProto Ts row] }⟩ := by
  rw [WriteMutationBuilder.emplaceRow, h, ← map_toProto_of_valuesOf Ts h]
  simp only [WriteMutationBuilder.addRow, WriteOp.field_mutation]
  rfl

theorem foldlM_emplaceRow {op : WriteOp} {rows : List (Row.TupleVal Ts)} {write : Write}
    (h : ∀ row ∈ rows, ∃ values, valuesOf Ts row = .ok values) :
    rows.foldlM (fun builder row => builder.emplaceRow Ts row)
        (⟨op.mutation write⟩ : WriteMutationBuilder op) =
      .ok ⟨op.mutation { write with values := write.values ++ rows.map (rowProto Ts) }⟩ := by
  induction rows generalizing write with
  | nil => simp [pure, Except.pure]
  | cons row rows ih =>
    obtain ⟨values, hvalues⟩ := h row List.mem_cons_self
    rw [List.foldlM_cons, emplaceRow_mutation hvalues]
    refine (ih fun row hrow => h row (List.mem_cons_of_mem _ hrow)).trans ?_
    simp

theorem emplaceRows_eq {op : WriteOp} {tableName : String} {columnNames : List String}
    {rows : List (Row.TupleVal Ts)} (h : ∀ row ∈ rows, ∃ values, valuesOf Ts row = .ok values) :
    emplaceRows op tableName columnNames rows =
      .ok (op.mutation ⟨tableName, columnNames, rows.map (rowProto Ts)⟩) := by
  rw [emplaceRows, WriteMutationBuilder.make, foldlM_emplaceRow h, WriteOp.field_notSet]
  rfl

end SpannerClient
