import SpannerClient.Row
import SpannerClient.ValueDecoding
import Mathlib.Data.List.Range

namespace SpannerClient

namespace Row

def size (row : Row) : Nat := row.columns.length

def TupleVal : List CppType → Type
  | [] => Unit
  | T :: Ts => T.Val × TupleVal Ts

/-- `ForEach(tup, ExtractValue{status}, it)`: an error replaces the status and leaves the member as
it was. -/
def extractValues :
    (Ts : List CppType) → List Value → (status : Option Failure) →
      Bounded (TupleVal Ts × Option Failure)
  | [], _, status => some ((), status)
  | _ :: _, [], _ => none
  | T :: Ts, value :: values, status => do
    let x ← value.get T
    let (t, status) := match x with
      | .ok t => (t, status)
      | .error failure => (T.default, some failure)
    let (tup, status) ← extractValues Ts values status
    some ((t, tup), status)

def getTuple (Ts : List CppType) (row : Row) : Bounded (StatusOr (TupleVal Ts)) :=
  if row.size ≠ Ts.length then
    some (.error (.of .invalidArgument "Tuple has the wrong number of elements"
      StatusCode.invalidArgument_ne_ok))
  else
    (extractValues Ts row.values none).map fun (tup, status) =>
      match status with
      | some failure => .error failure
      | none => .ok tup

end Row

def defaultStatusOr (α : Type) : StatusOr α :=
  .error (.of .unknown "default" StatusCode.unknown_ne_ok)

abbrev RowSource := Nat → StatusOr Row

structure RowStreamIterator where
  row : StatusOr Row
  source : Option RowSource

namespace RowStreamIterator

def pastEnd : RowStreamIterator := ⟨defaultStatusOr Row, none⟩

def equal (a b : RowStreamIterator) : Bool := a.source.isNone == b.source.isNone

/-- `operator++`, where `calls` counts the calls of the source. None when it calls a source that is
null. -/
def increment (it : RowStreamIterator) (calls : Nat) : Option (RowStreamIterator × Nat) :=
  match it.row with
  | .error _ => some ({ it with source := none }, calls)
  | .ok _ =>
    it.source.map fun source =>
      match source calls with
      | .error e => (⟨.error e, source⟩, calls + 1)
      | .ok row => (⟨.ok row, if row.size = 0 then none else source⟩, calls + 1)

def postIncrement (it : RowStreamIterator) (calls : Nat) :
    Option (RowStreamIterator × RowStreamIterator × Nat) :=
  (it.increment calls).map fun next => (it, next)

def ofSource (source : Option RowSource) (calls : Nat) : Option (RowStreamIterator × Nat) :=
  increment ⟨.ok .empty, source⟩ calls

end RowStreamIterator

structure TupleStreamIterator (τ : Type) where
  tup : StatusOr τ
  it : RowStreamIterator
  pastEnd : RowStreamIterator

namespace TupleStreamIterator

variable {τ : Type} (get : Row → Bounded (StatusOr τ))

def equal (a b : TupleStreamIterator τ) : Bool := a.it.equal b.it

def parseTuple (it : TupleStreamIterator τ) : Bounded (TupleStreamIterator τ) :=
  if it.it.equal it.pastEnd then some it
  else
    match it.it.row with
    | .ok row => (get row).map fun tup => { it with tup }
    | .error e => some { it with tup := .error e }

def default : TupleStreamIterator τ := ⟨defaultStatusOr τ, .pastEnd, .pastEnd⟩

def ofRange (first last : RowStreamIterator) : Bounded (TupleStreamIterator τ) :=
  parseTuple get ⟨defaultStatusOr τ, first, last⟩

def increment (it : TupleStreamIterator τ) (calls : Nat) :
    Option (TupleStreamIterator τ × Nat) :=
  match it.tup with
  | .error _ => some ({ it with it := it.pastEnd }, calls)
  | .ok _ => do
    let (next, calls) ← it.it.increment calls
    let it ← parseTuple get { it with it := next }
    some (it, calls)

end TupleStreamIterator

def streamOf {τ : Type} (get : Row → Bounded (StatusOr τ)) (source : RowSource) :
    Option (TupleStreamIterator τ × Nat) := do
  let (first, calls) ← RowStreamIterator.ofSource (some source) 0
  let it ← TupleStreamIterator.ofRange get first .pastEnd
  some (it, calls)

end SpannerClient
