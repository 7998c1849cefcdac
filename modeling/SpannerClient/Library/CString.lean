import SpannerClient.Library.Decimal
import Mathlib.Data.List.TakeWhile

/-! The reading of numbers by the C library, over texts whose characters are bytes. -/

namespace SpannerClient.CString

def ofString (s : String) : List Char := s.toList.takeWhile (· ≠ '\x00')

def isSpace (c : Char) : Bool := c == ' ' || decide (9 ≤ c.toNat ∧ c.toNat ≤ 13)

def scanSign : List Char → Bool × List Char
  | '-' :: rest => (true, rest)
  | '+' :: rest => (false, rest)
  | rest => (false, rest)

def scanInteger (text : List Char) : Option (Int × List Char) :=
  let (negative, body) := scanSign (text.dropWhile isSpace)
  let ds := body.takeWhile Char.isDigit
  if ds = [] then none
  else some (if negative then -Decimal.value ds else Decimal.value ds,
    body.dropWhile Char.isDigit)

def clamp (min max n : Int) : Int := if n < min then min else if max < n then max else n

theorem clamp_of_mem {min max n : Int} (h : min ≤ n ∧ n ≤ max) : clamp min max n = n := by
  simp [clamp, not_lt.mpr h.1, not_lt.mpr h.2]

theorem takeWhile_nul {text : List Char} (h : '\x00' ∉ text) :
    text.takeWhile (· ≠ '\x00') = text := by
  rw [List.takeWhile_eq_self_iff]
  intro c hc
  have hne : c ≠ '\x00' := fun hnul => h (hnul ▸ hc)
  simpa using hne

theorem ofString_ofList {text : List Char} (h : '\x00' ∉ text) :
    ofString (String.ofList text) = text := by
  rw [ofString, String.toList_ofList, takeWhile_nul h]

theorem nul_not_mem_of_digits {ds : List Char} (h : ∀ c ∈ ds, c.isDigit) : '\x00' ∉ ds :=
  fun hnul => absurd (h _ hnul) (by decide)

theorem not_isSpace_of_isDigit {c : Char} (h : c.isDigit) : isSpace c = false := by
  simp only [Char.isDigit, Bool.and_eq_true, decide_eq_true_eq] at h
  have h48 : 48 ≤ c.toNat := h.1
  have hne : c ≠ ' ' := by
    rintro rfl
    exact absurd h48 (by decide)
  simp only [isSpace, beq_eq_false_iff_ne.mpr hne, Bool.false_or, decide_eq_false_iff_not]
  omega

theorem scanSign_of_isDigit {ds : List Char} (h : ∀ c ∈ ds.head?, c.isDigit) :
    scanSign ds = (false, ds) := by
  unfold scanSign
  split
  · exact absurd (h '-' rfl) (by decide)
  · exact absurd (h '+' rfl) (by decide)
  · rfl

theorem scanInteger_padded (w n : Nat) {rest : List Char} (hrest : Decimal.Ends rest) :
    scanInteger (Decimal.padded w n ++ rest) = some ((n : Int), rest) := by
  have hdigit : ∀ c ∈ Decimal.padded w n, c.isDigit := fun c => Decimal.isDigit_of_mem_padded
  have hhead : ∀ c ∈ (Decimal.padded w n ++ rest).head?, c.isDigit := by
    rw [List.head?_append_of_ne_nil _ (Decimal.padded_ne_nil w n)]
    exact fun c hc => hdigit c (List.mem_of_mem_head? hc)
  have hspace : (Decimal.padded w n ++ rest).dropWhile isSpace = Decimal.padded w n ++ rest := by
    cases htext : Decimal.padded w n ++ rest with
    | nil => rfl
    | cons c cs =>
      rw [htext] at hhead
      simp [not_isSpace_of_isDigit (hhead c rfl)]
  simp only [scanInteger, hspace, scanSign_of_isDigit hhead,
    Decimal.takeWhile_isDigit hdigit hrest, Decimal.dropWhile_isDigit hdigit hrest]
  simp [Decimal.padded_ne_nil]

theorem scanInteger_neg_padded (w n : Nat) {rest : List Char} (hrest : Decimal.Ends rest) :
    scanInteger ('-' :: (Decimal.padded w n ++ rest)) = some (-(n : Int), rest) := by
  have hdigit : ∀ c ∈ Decimal.padded w n, c.isDigit := fun c => Decimal.isDigit_of_mem_padded
  have hspace : ('-' :: (Decimal.padded w n ++ rest)).dropWhile isSpace =
      '-' :: (Decimal.padded w n ++ rest) := by
    simp [isSpace]
  simp only [scanInteger, hspace, scanSign, Decimal.takeWhile_isDigit hdigit hrest,
    Decimal.dropWhile_isDigit hdigit hrest]
  simp [Decimal.padded_ne_nil]

theorem scanInteger_signed (n : Int) : scanInteger (Decimal.signed n) = some (n, []) := by
  have hdigits : Decimal.digits n.natAbs = Decimal.padded 0 n.natAbs ++ [] := by
    rw [Decimal.padded_of_le (Nat.zero_le _), List.append_nil]
  rw [Decimal.signed, hdigits]
  split
  case isTrue hneg =>
    rw [scanInteger_neg_padded _ _ Decimal.ends_nil]
    congr 2
    omega
  case isFalse hpos =>
    rw [scanInteger_padded _ _ Decimal.ends_nil]
    congr 2
    omega

theorem nul_not_mem_signed (n : Int) : '\x00' ∉ Decimal.signed n := by
  have hdigits : '\x00' ∉ Decimal.digits n.natAbs :=
    nul_not_mem_of_digits fun _ => Decimal.isDigit_of_mem_digits
  rw [Decimal.signed]
  split <;> simp [hdigits]

end SpannerClient.CString
