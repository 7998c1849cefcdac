import SpannerClient.Row
import SpannerClient.Internal.MergeChunk
import SpannerClient.Internal.PartialResultSetReader

namespace SpannerClient

open Protobuf Fuel MergeChunk

def Status.check (s : Status) : StatusOr Unit :=
  if h : s.ok = false then .error ⟨s, h⟩ else .ok ()

structure PartialResultSetSource (σ : Type) where
  reader : σ
  metadata : Option ResultSetMetadata
  stats : Option ResultSetStats
  buffer : List Protobuf.Value
  chunk : Option Protobuf.Value
  finished : Bool

namespace PartialResultSetSource

variable {σ : Type}

def ofReader (reader : σ) : PartialResultSetSource σ := ⟨reader, none, none, [], none, false⟩

def fields (s : PartialResultSetSource σ) : List Field :=
  (s.metadata.map ResultSetMetadata.rowType).getD []

def columns (s : PartialResultSetSource σ) : List String := s.fields.map Field.name

/-- The first metadata is kept. -/
def setMetadata (s : PartialResultSetSource σ) (r : PartialResultSet) :
    PartialResultSetSource σ :=
  match s.metadata with
  | some _ => s
  | none => { s with metadata := r.metadata }

def setStats (s : PartialResultSetSource σ) (r : PartialResultSet) : PartialResultSetSource σ :=
  match r.stats with
  | some stats => { s with stats := some stats }
  | none => s

def mergePending : Option Protobuf.Value → List Protobuf.Value → StatusOr (List Protobuf.Value)
  | none, newValues => .ok newValues
  | some _, [] => .error (.of .internal
      "PartialResultSet contained no values to merge with prior chunked_value"
      StatusCode.internal_ne_ok)
  | some chunk, front :: rest => return (← mergeChunk chunk front) :: rest

def splitChunk (chunkedValue : Bool) (newValues : List Protobuf.Value) :
    StatusOr (List Protobuf.Value × Option Protobuf.Value) :=
  if chunkedValue then
    match newValues.getLast? with
    | none => .error (.of .internal
        "PartialResultSet had chunked_value set true but contained no values"
        StatusCode.internal_ne_ok)
    | some last => .ok (newValues.dropLast, some last)
  else .ok (newValues, none)

def unchunk (chunk : Option Protobuf.Value) (r : PartialResultSet) :
    StatusOr (List Protobuf.Value × Option Protobuf.Value) := do
  let newValues ← mergePending chunk r.values
  splitChunk r.chunkedValue newValues

def absorb (s : PartialResultSetSource σ) (r : PartialResultSet) :
    StatusOr Unit × PartialResultSetSource σ :=
  let s := (s.setMetadata r).setStats r
  match unchunk s.chunk r with
  | .error e => (.error e, s)
  | .ok (values, chunk) => (.ok (), { s with chunk, buffer := s.buffer ++ values })

variable (R : PartialResultSetReader σ)

def readFromStream (fuel : Nat) (s : PartialResultSetSource σ) :
    Option (StatusOr Unit × PartialResultSetSource σ) := do
  let (result, reader) ← R.read fuel s.reader
  match result with
  | none =>
    let (status, reader) := R.finish reader
    return (status.check, { s with reader, finished := true })
  | some r => return { s with reader }.absorb r

def destroy (s : PartialResultSetSource σ) : σ :=
  if s.finished then s.reader else (R.finish (R.tryCancel s.reader)).2

def create (fuel : Nat) (reader : σ) : Option (StatusOr (PartialResultSetSource σ)) := do
  let (status, s) ← (ofReader reader).readFromStream R fuel
  match status with
  | .error e => return .error e
  | .ok () =>
    if s.metadata.isNone then
      return .error (.of .internal "response contained no metadata" StatusCode.internal_ne_ok)
    return .ok s

def takeRow (s : PartialResultSetSource σ) (h : s.fields.length ≤ s.buffer.length) :
    Row × PartialResultSetSource σ :=
  let values := List.zipWith (fun field value => fromProto field.type value) s.fields s.buffer
  (makeRow values s.columns (by simp [values, columns, Nat.min_eq_left h]),
    { s with buffer := s.buffer.drop s.fields.length })

def endOfStream (chunk : Option Protobuf.Value) (buffer : List Protobuf.Value) : StatusOr Row :=
  if chunk.isSome then .error (.of .internal "incomplete chunked_value at end of stream"
    StatusCode.internal_ne_ok)
  else if !buffer.isEmpty then .error (.of .internal "incomplete row at end of stream"
    StatusCode.internal_ne_ok)
  else .ok Row.empty

def missingRowType : Failure :=
  .of .internal "response metadata is missing row type information" StatusCode.internal_ne_ok

def NeedsRead (s : PartialResultSetSource σ) : Prop :=
  s.buffer = [] ∨ s.buffer.length < s.columns.length

instance (s : PartialResultSetSource σ) : Decidable s.NeedsRead :=
  inferInstanceAs (Decidable (_ ∨ _))

/-- `NextRow()` from its `while` on. -/
def nextRowLoop : Nat → PartialResultSetSource σ →
    Option (StatusOr Row × PartialResultSetSource σ)
  | 0, _ => none
  | fuel + 1, s =>
    if h : s.NeedsRead then do
      let (status, s) ← s.readFromStream R fuel
      match status with
      | .error e => return (.error e, s)
      | .ok () =>
        if s.finished then return (endOfStream s.chunk s.buffer, s)
        nextRowLoop fuel s
    else if s.fields.isEmpty then
      return (.error missingRowType, s)
    else
      let (row, s) := s.takeRow (by simpa [columns, NeedsRead] using (not_or.mp h).2)
      return (.ok row, s)

def nextRow (fuel : Nat) (s : PartialResultSetSource σ) :
    Option (StatusOr Row × PartialResultSetSource σ) :=
  if s.finished then return (.ok Row.empty, s) else s.nextRowLoop R fuel

variable {R}

theorem nextRow_of_not_finished {s : PartialResultSetSource σ} (h : s.finished = false)
    (fuel : Nat) : s.nextRow R fuel = s.nextRowLoop R fuel := by
  simp [nextRow, h]

theorem nextRowLoop_read {s : PartialResultSetSource σ} (h : s.NeedsRead) (fuel : Nat) :
    s.nextRowLoop R (fuel + 1) = (s.readFromStream R fuel).bind fun (status, s) =>
      match status with
      | .error e => some (.error e, s)
      | .ok () =>
        if s.finished then some (endOfStream s.chunk s.buffer, s) else s.nextRowLoop R fuel := by
  rw [nextRowLoop, dif_pos h]
  rfl

theorem readFromStream_response {s : PartialResultSetSource σ} {r : PartialResultSet} {reader : σ}
    (h : R.Reads s.reader (some r) reader) :
    Converges (fun fuel => s.readFromStream R fuel) ({ s with reader }.absorb r) :=
  Converges.bind h (Converges.const _)

theorem readFromStream_end {s : PartialResultSetSource σ} {status : Status} {reader reader' : σ}
    (h : R.Reads s.reader none reader) (hfinish : R.finish reader = (status, reader')) :
    Converges (fun fuel => s.readFromStream R fuel)
      (status.check, { s with reader := reader', finished := true }) := by
  apply Converges.bind h
  simp only [hfinish]
  exact Converges.const _

theorem nextRow_finished {s : PartialResultSetSource σ} (h : s.finished = true) :
    Converges (fun fuel => s.nextRow R fuel) (.ok Row.empty, s) := by
  simp only [nextRow, h]
  exact Converges.const _

theorem nextRow_read {s s₁ s' : PartialResultSetSource σ} {result : StatusOr Row}
    (hs : s.finished = false) (hneed : s.NeedsRead)
    (h : Converges (fun fuel => s.readFromStream R fuel) (.ok (), s₁)) (hs₁ : s₁.finished = false)
    (hnext : Converges (fun fuel => s₁.nextRow R fuel) (result, s')) :
    Converges (fun fuel => s.nextRow R fuel) (result, s') := by
  simp only [nextRow_of_not_finished hs, nextRow_of_not_finished hs₁] at hnext ⊢
  apply Converges.of_succ (nextRowLoop_read hneed)
  apply Converges.bind h
  simpa [hs₁] using hnext

theorem nextRow_fail {s s₁ : PartialResultSetSource σ} {e : Failure} (hs : s.finished = false)
    (hneed : s.NeedsRead) (h : Converges (fun fuel => s.readFromStream R fuel) (.error e, s₁)) :
    Converges (fun fuel => s.nextRow R fuel) (.error e, s₁) := by
  simp only [nextRow_of_not_finished hs]
  apply Converges.of_succ (nextRowLoop_read hneed)
  exact Converges.bind h (Converges.const _)

theorem nextRow_end {s s₁ : PartialResultSetSource σ} (hs : s.finished = false)
    (hneed : s.NeedsRead) (h : Converges (fun fuel => s.readFromStream R fuel) (.ok (), s₁))
    (hs₁ : s₁.finished = true) :
    Converges (fun fuel => s.nextRow R fuel) (endOfStream s₁.chunk s₁.buffer, s₁) := by
  simp only [nextRow_of_not_finished hs]
  apply Converges.of_succ (nextRowLoop_read hneed)
  apply Converges.bind h
  simp only [hs₁]
  exact Converges.const _

theorem nextRow_row {s : PartialResultSetSource σ} (hs : s.finished = false)
    (hpos : 0 < s.fields.length) (h : s.fields.length ≤ s.buffer.length) :
    Converges (fun fuel => s.nextRow R fuel) (.ok (s.takeRow h).1, (s.takeRow h).2) := by
  have hneed : ¬ s.NeedsRead := by
    simp only [NeedsRead, columns, List.length_map, not_or, ← List.length_eq_zero_iff]
    omega
  have hfields : s.fields.isEmpty = false := by
    simpa [← List.length_eq_zero_iff] using Nat.ne_of_gt hpos
  simp only [nextRow_of_not_finished hs]
  apply Converges.of_succ (fun n => ?_) (Converges.const _)
  rw [nextRowLoop, dif_neg hneed, hfields]
  rfl

theorem nextRow_no_columns {s : PartialResultSetSource σ} (hs : s.finished = false)
    (hfields : s.fields = []) (hbuffer : s.buffer ≠ []) :
    Converges (fun fuel => s.nextRow R fuel) (.error missingRowType, s) := by
  have hneed : ¬ s.NeedsRead := by simp [NeedsRead, columns, hfields, hbuffer]
  simp only [nextRow_of_not_finished hs]
  apply Converges.of_succ (fun n => ?_) (Converges.const _)
  rw [nextRowLoop, dif_neg hneed, hfields]
  rfl

theorem create_ok {reader : σ} {s : PartialResultSetSource σ} {m : ResultSetMetadata}
    (h : Converges (fun fuel => (ofReader reader).readFromStream R fuel) (.ok (), s))
    (hm : s.metadata = some m) : Converges (fun fuel => create R fuel reader) (.ok s) := by
  apply Converges.bind h
  simp only [hm]
  exact Converges.const _

theorem check_ok {s : Status} (h : s.ok = true) : s.check = .ok () := by
  simp [Status.check, h]

theorem check_error {s : Status} (h : s.ok = false) : s.check = .error ⟨s, h⟩ := by
  simp [Status.check, h]

end PartialResultSetSource

end SpannerClient
