import SpannerClient.Date
import SpannerClient.Library.CString

namespace SpannerClient.Internal

open Decimal CString

/-- `%04d`, where a sign takes one of the four places. -/
def formatYear (year : Int) : List Char :=
  if year < 0 then '-' :: padded 3 year.natAbs else padded 4 year.natAbs

def dateText (d : Date) : List Char :=
  formatYear d.year ++ '-' :: padded 2 d.month.toNat ++ '-' :: padded 2 d.day.toNat

def dateToString (d : Date) : String := String.ofList (dateText d)

/-- What `sscanf` stores for `%lld-%d-%d%c`, when it gets as far as the day, and whether
there is a character for the `%c`. Integers too large for their variables are clamped to 64
bits and then cut to the size of the variable. -/
def scanDate (text : List Char) : Option (Int × Int × Int × Bool) := do
  let (year, rest) ← scanInteger text
  let rest ← if rest.head? = some '-' then some rest.tail else none
  let (month, rest) ← scanInteger rest
  let rest ← if rest.head? = some '-' then some rest.tail else none
  let (day, rest) ← scanInteger rest
  let stored := clamp int64Min int64Max
  some (stored year, toInt32 (stored month), toInt32 (stored day), !rest.isEmpty)

def dateFromString (s : String) : StatusOr Date :=
  match scanDate (CString.ofString s) with
  | none =>
    .error (.of .invalidArgument (s ++ ": Failed to match RFC3339 full-date")
      StatusCode.invalidArgument_ne_ok)
  | some (_, _, _, true) =>
    .error (.of .invalidArgument (s ++ ": Extra data after RFC3339 full-date")
      StatusCode.invalidArgument_ne_ok)
  | some (year, month, day, false) =>
    let date := Date.ofFields year month day
    if date.month ≠ month ∨ date.day ≠ day then
      .error (.of .invalidArgument (s ++ ": RFC3339 full-date field out of range")
        StatusCode.invalidArgument_ne_ok)
    else .ok date

theorem scanInteger_formatYear (year : Int) {rest : List Char} (h : Ends rest) :
    scanInteger (formatYear year ++ rest) = some (year, rest) := by
  rw [formatYear]
  split
  · rw [List.cons_append, scanInteger_neg_padded _ _ h]
    congr 2
    omega
  · rw [scanInteger_padded _ _ h]
    congr 2
    omega

theorem nul_not_mem_padded (w n : Nat) : '\x00' ∉ padded w n :=
  nul_not_mem_of_digits fun _ => isDigit_of_mem_padded

theorem nul_not_mem_dateText (d : Date) : '\x00' ∉ dateText d := by
  have hyear : '\x00' ∉ formatYear d.year := by
    rw [formatYear]
    split <;> simp [nul_not_mem_padded]
  simp [dateText, hyear, nul_not_mem_padded]

theorem scanDate_dateText (d : Date) :
    scanDate (dateText d) = some (d.year, d.month, d.day, false) := by
  have hday := d.day_mem
  have hle := daysPerMonth_le d.year d.month
  have hmonth := d.month_mem
  have hd : ((d.day.toNat : Nat) : Int) = d.day := Int.toNat_of_nonneg (by omega)
  have hm : ((d.month.toNat : Nat) : Int) = d.month := Int.toNat_of_nonneg (by omega)
  have hlast := scanInteger_padded 2 d.day.toNat ends_nil
  rw [List.append_nil] at hlast
  have hclamp : ∀ {n : Int}, 1 ≤ n → n ≤ 31 → toInt32 (clamp int64Min int64Max n) = n := by
    intro n h1 h31
    rw [clamp_of_mem (by simp only [int64Min, int64Max]; omega), toInt32_of_mem (by omega)]
  simp only [scanDate, dateText, List.append_assoc, List.cons_append]
  rw [scanInteger_formatYear _ (by simp)]
  simp only [Option.bind_eq_bind, Option.bind_some, List.head?_cons, if_true, List.tail_cons]
  rw [scanInteger_padded _ _ (by simp)]
  simp only [Option.bind_some, List.head?_cons, if_true, List.tail_cons, hlast, hd, hm,
    clamp_of_mem d.year_mem, hclamp hmonth.1 (by omega), hclamp hday.1 (by omega)]
  rfl

theorem dateFromString_toString (d : Date) : dateFromString (dateToString d) = .ok d := by
  rw [dateFromString, dateToString, ofString_ofList (nul_not_mem_dateText d),
    scanDate_dateText]
  simp [d.ofFields_self]

end SpannerClient.Internal
