import SpannerClient.Protobuf.ResultSet

namespace SpannerClient

/-- `spanner::Value`: a type proto with a value proto, which need not agree. -/
structure Value where
  type : Protobuf.SpannerType
  value : Protobuf.Value

def fromProto (type : Protobuf.SpannerType) (value : Protobuf.Value) : Value := ⟨type, value⟩

/-- The constructor of `Row` aborts the program unless there is a value for each column. -/
structure Row where
  values : List Value
  columns : List String
  size_eq : values.length = columns.length

namespace Row

def empty : Row := ⟨[], [], rfl⟩

@[ext] theorem ext {r r' : Row} (hv : r.values = r'.values) (hc : r.columns = r'.columns) :
    r = r' := by
  cases r
  cases r'
  simp_all

end Row

def makeRow (values : List Value) (columns : List String)
    (h : values.length = columns.length) : Row :=
  ⟨values, columns, h⟩

end SpannerClient
