import SpannerClient.Status
import SpannerClient.Library.Decimal

namespace SpannerClient

namespace Base64

def kPadding : Char := '='

def indexToChar (i : Nat) : Char :=
  if i < 26 then Char.ofNat ('A'.toNat + i)
  else if i < 52 then Char.ofNat ('a'.toNat + (i - 26))
  else if i < 62 then Char.ofNat ('0'.toNat + (i - 52))
  else if i = 62 then '+' else '/'

/-- `kCharToIndexExcessOne`: zero outside the alphabet. -/
def charToIndexExcessOne (c : Char) : Nat :=
  if 'A' ≤ c ∧ c ≤ 'Z' then c.toNat - 'A'.toNat + 1
  else if 'a' ≤ c ∧ c ≤ 'z' then c.toNat - 'a'.toNat + 27
  else if '0' ≤ c ∧ c ≤ '9' then c.toNat - '0'.toNat + 53
  else if c = '+' then 63
  else if c = '/' then 64 else 0

theorem charToIndex_indexToChar {i : Nat} (h : i < 64) :
    charToIndexExcessOne (indexToChar i) = i + 1 := by
  have hall : ∀ i < 64, charToIndexExcessOne (indexToChar i) = i + 1 := by decide
  exact hall i h

theorem indexToChar_ne_kPadding {i : Nat} (h : i < 64) : indexToChar i ≠ kPadding := by
  have hall : ∀ i < 64, indexToChar i ≠ kPadding := by decide
  exact hall i h

def unread : List Char → List Char
  | p0 :: p1 :: p2 :: p3 :: rest =>
    let i0 := charToIndexExcessOne p0
    let i1 := charToIndexExcessOne p1
    let i2 := charToIndexExcessOne p2
    let i3 := charToIndexExcessOne p3
    if i0 = 0 ∨ i1 = 0 then p0 :: p1 :: p2 :: p3 :: rest
    else if p3 = kPadding then
      if p2 = kPadding then
        if (i1 - 1) % 16 ≠ 0 then p0 :: p1 :: p2 :: p3 :: rest else rest
      else if i2 = 0 ∨ (i2 - 1) % 4 ≠ 0 then p0 :: p1 :: p2 :: p3 :: rest
      else rest
    else if i2 = 0 ∨ i3 = 0 then p0 :: p1 :: p2 :: p3 :: rest
    else unread rest
  | short => short

def flush (b0 b1 b2 : UInt8) : List Char :=
  let v := b0.toNat * 2 ^ 16 + b1.toNat * 2 ^ 8 + b2.toNat
  [indexToChar (v / 2 ^ 18), indexToChar (v / 2 ^ 12 % 64), indexToChar (v / 2 ^ 6 % 64),
    indexToChar (v % 64)]

def flushAndPadTwo (b0 b1 : UInt8) : List Char :=
  let v := b0.toNat * 2 ^ 16 + b1.toNat * 2 ^ 8
  [indexToChar (v / 2 ^ 18), indexToChar (v / 2 ^ 12 % 64), indexToChar (v / 2 ^ 6 % 64),
    kPadding]

def flushAndPadOne (b0 : UInt8) : List Char :=
  let v := b0.toNat * 2 ^ 16
  [indexToChar (v / 2 ^ 18), indexToChar (v / 2 ^ 12 % 64), kPadding, kPadding]

def encode : List UInt8 → List Char
  | b0 :: b1 :: b2 :: rest => flush b0 b1 b2 ++ encode rest
  | [b0, b1] => flushAndPadTwo b0 b1
  | [b0] => flushAndPadOne b0
  | [] => []

theorem unread_encode (octets : List UInt8) : unread (encode octets) = [] := by
  induction octets using encode.induct with
  | case1 b0 b1 b2 rest ih =>
    have h0 := b0.toNat_lt
    have h1 := b1.toNat_lt
    have h2 := b2.toNat_lt
    have hlast := Nat.mod_lt (b0.toNat * 2 ^ 16 + b1.toNat * 2 ^ 8 + b2.toNat)
      (show 0 < 64 by decide)
    simp only [encode, flush, List.cons_append, List.nil_append, unread]
    rw [charToIndex_indexToChar (by omega), charToIndex_indexToChar (by omega),
      charToIndex_indexToChar (by omega), charToIndex_indexToChar hlast,
      if_neg (by omega), if_neg (indexToChar_ne_kPadding hlast), if_neg (by omega), ih]
  | case2 b0 b1 =>
    have h0 := b0.toNat_lt
    have h1 := b1.toNat_lt
    simp only [encode, flushAndPadTwo, unread]
    rw [charToIndex_indexToChar (by omega), charToIndex_indexToChar (by omega),
      charToIndex_indexToChar (by omega), if_neg (by omega), if_pos trivial,
      if_neg (indexToChar_ne_kPadding (by omega)), if_neg (by omega)]
  | case3 b0 =>
    have h0 := b0.toNat_lt
    simp only [encode, flushAndPadOne, unread]
    rw [charToIndex_indexToChar (by omega), charToIndex_indexToChar (by omega),
      if_neg (by omega), if_pos trivial, if_pos trivial, if_neg (by omega)]
  | case4 => rfl

end Base64

structure Bytes where
  base64Rep : String
  canonical : Base64.unread base64Rep.toList = []
  deriving DecidableEq

namespace Bytes

def empty : Bytes := ⟨"", rfl⟩

def ofOctets (octets : List UInt8) : Bytes :=
  ⟨String.ofList (Base64.encode octets), by simpa using Base64.unread_encode octets⟩

/-- `Encoder`, with `buf_[0 .. len_-1]`. -/
structure Encoder where
  rep : List Char
  buf : List UInt8

namespace Encoder

def put (encoder : Encoder) (octet : UInt8) : Encoder :=
  match encoder.buf ++ [octet] with
  | [b0, b1, b2] => ⟨encoder.rep ++ Base64.flush b0 b1 b2, []⟩
  | buf => { encoder with buf }

def flushAndPad (encoder : Encoder) : List Char :=
  match encoder.buf with
  | [b0, b1] => encoder.rep ++ Base64.flushAndPadTwo b0 b1
  | [b0] => encoder.rep ++ Base64.flushAndPadOne b0
  | _ => encoder.rep

theorem flushAndPad_put (rep : List Char) (octets : List UInt8) :
    (octets.foldl put ⟨rep, []⟩).flushAndPad = rep ++ Base64.encode octets := by
  induction octets using Base64.encode.induct generalizing rep with
  | case1 b0 b1 b2 rest ih =>
    have hput : [b0, b1, b2].foldl put ⟨rep, []⟩ = ⟨rep ++ Base64.flush b0 b1 b2, []⟩ := rfl
    rw [show b0 :: b1 :: b2 :: rest = [b0, b1, b2] ++ rest from rfl, List.foldl_append, hput, ih,
      List.append_assoc]
    rfl
  | case2 b0 b1 => rfl
  | case3 b0 => rfl
  | case4 => simp [flushAndPad, Base64.encode]

end Encoder

/-- `Decoder::Iterator`, with the text from `pos_` on and the octets `buf_[len_ .. 1]`. -/
structure Decoder where
  pos : List Char
  buf : List UInt8

namespace Decoder

open Base64

def fill (iterator : Decoder) : Decoder :=
  match iterator.pos with
  | p0 :: p1 :: p2 :: p3 :: rest =>
    let i0 := charToIndexExcessOne p0 - 1
    let i1 := charToIndexExcessOne p1 - 1
    if p3 = kPadding then
      if p2 = kPadding then ⟨rest, UInt8.ofNat (i0 <<< 2 ||| i1 >>> 4) :: iterator.buf⟩
      else
        let i2 := charToIndexExcessOne p2 - 1
        ⟨rest, UInt8.ofNat (i0 <<< 2 ||| i1 >>> 4) :: UInt8.ofNat (i1 <<< 4 ||| i2 >>> 2)
          :: iterator.buf⟩
    else
      let i2 := charToIndexExcessOne p2 - 1
      let i3 := charToIndexExcessOne p3 - 1
      ⟨rest, UInt8.ofNat (i0 <<< 2 ||| i1 >>> 4) :: UInt8.ofNat (i1 <<< 4 ||| i2 >>> 2)
        :: UInt8.ofNat (i2 <<< 6 ||| i3) :: iterator.buf⟩
  | _ => iterator

def begin (rep : List Char) : Decoder := fill ⟨rep, []⟩

def increment (iterator : Decoder) : Decoder :=
  match iterator.buf.tail with
  | [] => fill ⟨iterator.pos, []⟩
  | buf => { iterator with buf }

theorem length_fill (pos : List Char) :
    (fill ⟨pos, []⟩).pos.length + (fill ⟨pos, []⟩).buf.length ≤ pos.length := by
  rw [fill]
  split
  · next hpos =>
    simp only at hpos
    subst hpos
    split_ifs <;> simp
  · simp

theorem length_increment (iterator : Decoder) (h : iterator.buf ≠ []) :
    iterator.increment.pos.length + iterator.increment.buf.length <
      iterator.pos.length + iterator.buf.length := by
  have hpositive := List.length_pos_iff.mpr h
  rw [increment]
  split
  · exact Nat.lt_of_le_of_lt (length_fill iterator.pos) (by omega)
  · next hbuf =>
    have htail := List.length_tail (l := iterator.buf)
    simp only
    omega

/-- The octets from an iterator on: as long as there are some it is not `end()`. -/
def collect (iterator : Decoder) : List UInt8 :=
  if h : iterator.buf = [] then [] else iterator.buf.head h :: collect iterator.increment
termination_by iterator.pos.length + iterator.buf.length
decreasing_by exact length_increment iterator h

end Decoder

def get (b : Bytes) : List UInt8 := (Decoder.begin b.base64Rep.toList).collect

def equal (a b : Bytes) : Bool := a.base64Rep == b.base64Rep

end Bytes

def bytesFromBase64 (input : String) : StatusOr Bytes :=
  let left := Base64.unread input.toList
  if h : left = [] then .ok ⟨input, h⟩
  else
    let offset := input.toList.length - left.length
    let badChunk := String.ofList ((input.toList.drop offset).take 4)
    .error <| .of .invalidArgument
      ("Invalid base64 chunk \"" ++ badChunk ++ "\" at offset "
        ++ String.ofList (Decimal.digits offset)) StatusCode.invalidArgument_ne_ok

def bytesToBase64 (b : Bytes) : String := b.base64Rep

@[simp] theorem bytesFromBase64_toBase64 (b : Bytes) :
    bytesFromBase64 (bytesToBase64 b) = .ok b := by
  simp [bytesFromBase64, bytesToBase64, b.canonical]

end SpannerClient
