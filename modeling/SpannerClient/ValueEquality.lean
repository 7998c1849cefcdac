import SpannerClient.ValueEncoding

namespace SpannerClient

open Protobuf (SpannerType TypeCode)

def equalDouble (pv1 pv2 : Protobuf.Value) : Bool :=
  if pv1.stringField = "NaN" ∨ pv2.stringField = "NaN" then false
  else pv1.stringField == pv2.stringField && pv1.numberField.eq pv2.numberField

mutual

/-- `Equal`. The elements of both arrays are compared by the element type of the first. -/
def equal (pt1 : SpannerType) (pv1 : Protobuf.Value) (pt2 : SpannerType) (pv2 : Protobuf.Value) :
    Bool :=
  if pt1.code ≠ pt2.code then false
  else if pv1.kindCase ≠ pv2.kindCase then false
  else
    match pt1.code with
    | .bool => pv1.boolField == pv2.boolField
    | .float64 => equalDouble pv1 pv2
    | .int64 | .string | .bytes | .date | .timestamp => pv1.stringField == pv2.stringField
    | .array =>
      if pt1.arrayElementType.code ≠ pt2.arrayElementType.code then false
      else
        match pv1 with
        | .listValue v1 =>
          v1.length == pv2.listField.length
            && equalElements pt1.arrayElementType v1 pv2.listField
        | _ => pv2.listField.isEmpty
    | .struct =>
      if pt1.fields.length ≠ pt2.fields.length then false
      else
        match pv1 with
        | .listValue v1 =>
          pt1.fields.length == v1.length && v1.length == pv2.listField.length
            && equalFields pt1.fields v1 pt2.fields pv2.listField
        | _ => pt1.fields.isEmpty && pv2.listField.isEmpty
    | .unspecified | .unrecognized _ => true

def equalElements (etype1 : SpannerType) : List Protobuf.Value → List Protobuf.Value → Bool
  | v :: v1, w :: v2 => equal etype1 v etype1 w && equalElements etype1 v1 v2
  | _, _ => true

def equalFields (fields1 : List (String × SpannerType)) (v1 : List Protobuf.Value)
    (fields2 : List (String × SpannerType)) (v2 : List Protobuf.Value) : Bool :=
  match v1, fields1, fields2, v2 with
  | v :: v1, f1 :: fields1, f2 :: fields2, w :: v2 =>
    f1.1 == f2.1 && equal f1.2 v f2.2 w && equalFields fields1 v1 fields2 v2
  | _, _, _, _ => true

end

def Value.eq (a b : Value) : Bool := equal a.type a.value b.type b.value

def Value.copy (v : Value) : Value := ⟨v.type, v.value⟩

end SpannerClient
