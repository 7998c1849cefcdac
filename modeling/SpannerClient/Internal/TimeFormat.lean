import SpannerClient.Date
import SpannerClient.Library.CString

namespace SpannerClient.Internal

open Decimal

def intMin : Int := -2147483648

def intMax : Int := 2147483647

/-- The fields of `std::tm` that are used; the year counts from 1900, the month from 0. -/
structure Tm where
  year : Int
  mon : Int
  mday : Int
  hour : Int
  min : Int
  sec : Int
  deriving DecidableEq, Repr

def kYearMin : Int := intMin + 1900

def kYearMax : Int := intMax + 1900

def kDigits (n : Nat) : Char := Nat.digitChar n

def format02d (v : Nat) : List Char := [kDigits (v / 10 % 10), kDigits (v % 10)]

def formatRest (n : Nat) : List Char := if n = 0 then [] else digits n

def formatTmYear (year : Int) : List Char :=
  let n := year.natAbs
  let low := format02d (n % 100)
  if year < 0 then '-' :: (formatRest (n / 1000) ++ kDigits (n / 100 % 10) :: low)
  else formatRest (n / 10000) ++ (format02d (n / 100 % 100) ++ low)

def formatTime (tm : Tm) : List Char :=
  formatTmYear (tm.year + 1900) ++ '-' :: (format02d (tm.mon + 1).toNat ++
    '-' :: (format02d tm.mday.toNat ++ 'T' :: (format02d tm.hour.toNat ++
      ':' :: (format02d tm.min.toNat ++ ':' :: format02d tm.sec.toNat))))

/-- The loop of `ParseInt`, which counts down from zero so as to reach `kMin` itself. -/
def parseDigits (kMin value : Int) : List Char → Option (Int × List Char)
  | [] => some (value, [])
  | c :: cs =>
    if c.isDigit then
      let d : Int := (c.toNat - '0'.toNat : Nat)
      if value < kMin.tdiv 10 then none
      else if value * 10 < kMin + d then none
      else parseDigits kMin (value * 10 - d) cs
    else some (value, c :: cs)

def isNegative (text : List Char) : Bool := text.head? == some '-'

def magnitude (text : List Char) : List Char := if isNegative text then text.tail else text

/-- What `ParseInt` stores, and the text after it. `kMin` is the least value of its type. -/
def parseInt (kMin min max : Int) (text : List Char) : Option (Int × List Char) := do
  let (value, rest) ← parseDigits kMin 0 (magnitude text)
  if rest.length = (magnitude text).length then none
  else if !isNegative text ∧ value = kMin then none
  else
    let value := if isNegative text then value else -value
    if value < min ∨ max < value then none else some (value, rest)

def leapYear (y : Int) : Bool := y.tmod 4 = 0 ∧ (y.tmod 100 ≠ 0 ∨ y.tmod 400 = 0)

def kMonthDays (mon : Int) : Int :=
  if mon = 2 then 28 else if mon = 4 ∨ mon = 6 ∨ mon = 9 ∨ mon = 11 then 30 else 31

def validDay (tm : Tm) : Bool :=
  if tm.mon = 2 ∧ leapYear tm.year then tm.mday ≤ 29 else tm.mday ≤ kMonthDays tm.mon

def expect (cs : List Char) : List Char → Option (List Char)
  | [] => none
  | c :: text => if c ∈ cs then some text else none

/-- The fields at the front of a text, and the text after them. The year is stored last: until
then the `tm_year` that `ValidDay` reads is zero. -/
def parseFields (text : List Char) : Option (Tm × List Char) := do
  let (year, rest) ← parseInt int64Min kYearMin kYearMax text
  let rest ← expect ['-'] rest
  let (mon, rest) ← parseInt intMin 1 12 rest
  let rest ← expect ['-'] rest
  let (mday, rest) ← parseInt intMin 1 31 rest
  let rest ← if validDay ⟨0, mon, mday, 0, 0, 0⟩ then expect ['T', 't'] rest else none
  let (hour, rest) ← parseInt intMin 0 23 rest
  let rest ← expect [':'] rest
  let (min, rest) ← parseInt intMin 0 59 rest
  let rest ← expect [':'] rest
  let (sec, rest) ← parseInt intMin 0 60 rest
  some (⟨year - 1900, mon - 1, mday, hour, min, sec⟩, rest)

def parseTime (s : String) : Option (Tm × Nat) :=
  let text := CString.ofString s
  (parseFields text).map fun (tm, rest) => (tm, text.length - rest.length)

structure Denotes (ds : List Char) (n : Nat) : Prop where
  digit : ∀ c ∈ ds, c.isDigit
  ne_nil : ds ≠ []
  value_eq : value ds = n

inductive Numeral : List Char → Int → Prop
  | positive {ds : List Char} {n : Nat} : Denotes ds n → Numeral ds n
  | negative {ds : List Char} {n : Nat} : Denotes ds n → Numeral ('-' :: ds) (-n)

theorem parseDigits_append {kMin : Int} {ds rest : List Char} (hds : ∀ c ∈ ds, c.isDigit)
    (hrest : Ends rest) (n : Nat) (hmin : kMin ≤ -(Nat.ofDigitChars 10 ds n : Int)) :
    parseDigits kMin (-(n : Int)) (ds ++ rest) =
      some (-(Nat.ofDigitChars 10 ds n : Int), rest) := by
  induction ds generalizing n with
  | nil =>
    cases rest with
    | nil => simp [parseDigits]
    | cons c cs => simp [parseDigits, ends_cons.mp hrest]
  | cons d ds ih =>
    rw [Nat.ofDigitChars_cons] at hmin ⊢
    have hle := le_ofDigitChars ds (10 * n + (d.toNat - '0'.toNat))
    have hnext := ih (fun c hc => hds c (List.mem_cons_of_mem _ hc)) _ hmin
    have hten : kMin.tdiv 10 ≤ -(n : Int) := by
      have hneg : kMin = -((-kMin).toNat : Int) := by omega
      rw [hneg, Int.neg_tdiv, Int.tdiv_eq_ediv_of_nonneg (by omega)]
      omega
    rw [List.cons_append, parseDigits, if_pos (hds d List.mem_cons_self), if_neg (by omega),
      if_neg (by omega), ← hnext]
    congr 1
    omega

theorem isNegative_append {ds : List Char} {n : Nat} (h : Denotes ds n) (rest : List Char) :
    isNegative (ds ++ rest) = false := by
  rw [isNegative, List.head?_append_of_ne_nil _ h.ne_nil, beq_eq_false_iff_ne]
  intro hhead
  exact absurd (h.digit '-' (List.mem_of_mem_head? hhead)) (by decide)

theorem parseDigits_denotes {kMin : Int} {ds rest : List Char} {n : Nat} (hds : Denotes ds n)
    (hrest : Ends rest) (hmin : kMin ≤ -(n : Int)) :
    parseDigits kMin 0 (ds ++ rest) = some (-(n : Int), rest) := by
  have hvalue : Nat.ofDigitChars 10 ds 0 = n := hds.value_eq
  have hdigits := parseDigits_append hds.digit hrest 0 (show kMin ≤ _ by rwa [hvalue])
  rwa [hvalue, Nat.cast_zero, Int.neg_zero] at hdigits

theorem Denotes.length_ne {ds : List Char} {n : Nat} (h : Denotes ds n) (rest : List Char) :
    rest.length ≠ (ds ++ rest).length := by
  have := List.length_pos_iff.mpr h.ne_nil
  rw [List.length_append]
  omega

theorem parseDigits_overflow {kMin : Int} {ds rest : List Char} (hds : ∀ c ∈ ds, c.isDigit)
    {n : Nat} (hn : kMin ≤ -(n : Int)) (hmin : -(Nat.ofDigitChars 10 ds n : Int) < kMin) :
    parseDigits kMin (-(n : Int)) (ds ++ rest) = none := by
  induction ds generalizing n with
  | nil =>
    rw [Nat.ofDigitChars_nil] at hmin
    omega
  | cons d ds ih =>
    rw [Nat.ofDigitChars_cons] at hmin
    rw [List.cons_append, parseDigits, if_pos (hds d List.mem_cons_self)]
    split
    · rfl
    · dsimp only
      split
      · rfl
      · have hnext : -(n : Int) * 10 - (d.toNat - '0'.toNat : Nat) =
            -((10 * n + (d.toNat - '0'.toNat) : Nat) : Int) := by omega
        rw [hnext]
        exact ih (fun c hc => hds c (List.mem_cons_of_mem _ hc)) (by omega) hmin

theorem parseDigits_eq {kMin : Int} {ds rest : List Char} {n : Nat} (hds : Denotes ds n)
    (hrest : Ends rest) (hzero : kMin ≤ 0) :
    parseDigits kMin 0 (ds ++ rest) =
      if kMin ≤ -(n : Int) then some (-(n : Int), rest) else none := by
  split
  · next hfits => exact parseDigits_denotes hds hrest hfits
  · next hlarge =>
    have hvalue : Nat.ofDigitChars 10 ds 0 = n := hds.value_eq
    exact parseDigits_overflow hds.digit (n := 0) (by simpa using hzero) (by rw [hvalue]; omega)

theorem parseInt_text {kMin min max n : Int} {text rest : List Char} (htext : Numeral text n)
    (hrest : Ends rest) (hmin : kMin ≤ min) (hmax : max < -kMin) (hzero : kMin ≤ 0) :
    parseInt kMin min max (text ++ rest) =
      if min ≤ n ∧ n ≤ max then some (n, rest) else none := by
  cases htext with
  | @positive _ n hds =>
    have hneg := isNegative_append hds rest
    simp only [parseInt, magnitude, hneg, Bool.false_eq_true, if_false,
      parseDigits_eq hds hrest hzero, Option.bind_eq_bind]
    by_cases hfits : kMin ≤ -(n : Int)
    · simp only [if_pos hfits, Option.bind_some, if_neg (hds.length_ne rest), Bool.not_false,
        true_and, Int.neg_neg]
      split_ifs <;> first | rfl | omega
    · rw [if_neg hfits, Option.bind_none, if_neg (by omega)]
  | @negative ds n hds =>
    have hneg : isNegative ('-' :: (ds ++ rest)) = true := rfl
    rw [List.cons_append]
    simp only [parseInt, magnitude, hneg, if_true, List.tail_cons,
      parseDigits_eq hds hrest hzero, Option.bind_eq_bind]
    by_cases hfits : kMin ≤ -(n : Int)
    · simp only [if_pos hfits, Option.bind_some, if_neg (hds.length_ne rest), Bool.not_true,
        Bool.false_eq_true, false_and, if_false]
      split_ifs <;> first | rfl | omega
    · rw [if_neg hfits, Option.bind_none, if_neg (by omega)]

theorem parseInt_of_mem {kMin min max n : Int} {text rest : List Char} (htext : Numeral text n)
    (hrest : Ends rest) (hn : min ≤ n ∧ n ≤ max) (hmin : kMin ≤ min) (hmax : max < -kMin) :
    parseInt kMin min max (text ++ rest) = some (n, rest) :=
  (parseInt_text htext hrest hmin hmax (by omega)).trans (if_pos hn)

theorem Numeral.nul_not_mem {text : List Char} {n : Int} (h : Numeral text n) :
    '\x00' ∉ text := by
  cases h with
  | positive hds => exact CString.nul_not_mem_of_digits hds.digit
  | negative hds =>
    rw [List.mem_cons, not_or]
    exact ⟨by decide, CString.nul_not_mem_of_digits hds.digit⟩

theorem isDigit_kDigits {n : Nat} (h : n < 10) : (kDigits n).isDigit := by
  have hall : ∀ n < 10, (kDigits n).isDigit := by decide
  exact hall n h

@[simp] theorem ofDigitChars_kDigits {n : Nat} (h : n < 10) (ds : List Char) (init : Nat) :
    Nat.ofDigitChars 10 (kDigits n :: ds) init = Nat.ofDigitChars 10 ds (10 * init + n) :=
  Nat.ofDigitChars_cons_digitChar_of_lt_ten h

theorem isDigit_of_mem_format02d {v : Nat} : ∀ c ∈ format02d v, c.isDigit := by
  simp only [format02d, List.mem_cons, List.not_mem_nil, or_false, forall_eq_or_imp, forall_eq]
  exact ⟨isDigit_kDigits (by omega), isDigit_kDigits (by omega)⟩

theorem ofDigitChars_format02d {v : Nat} (h : v < 100) (ds : List Char) (init : Nat) :
    Nat.ofDigitChars 10 (format02d v ++ ds) init = Nat.ofDigitChars 10 ds (100 * init + v) := by
  rw [format02d, List.cons_append, List.cons_append, List.nil_append,
    ofDigitChars_kDigits (by omega), ofDigitChars_kDigits (by omega)]
  congr 1
  omega

theorem denotes_format02d {v : Nat} (h : v < 100) : Denotes (format02d v) v := by
  refine ⟨isDigit_of_mem_format02d, by simp [format02d], ?_⟩
  have hvalue := ofDigitChars_format02d h [] 0
  simpa [value] using hvalue

theorem isDigit_of_mem_formatRest {n : Nat} : ∀ c ∈ formatRest n, c.isDigit := by
  intro c hc
  rw [formatRest] at hc
  split at hc
  · exact absurd hc List.not_mem_nil
  · exact isDigit_of_mem_digits hc

@[simp] theorem value_formatRest (n : Nat) : Nat.ofDigitChars 10 (formatRest n) 0 = n := by
  rw [formatRest]
  split
  · simp [*]
  · exact value_digits n

theorem numeral_formatTmYear (year : Int) : Numeral (formatTmYear year) year := by
  have hlow := ofDigitChars_format02d (show year.natAbs % 100 < 100 by omega) []
  rw [List.append_nil] at hlow
  by_cases hneg : year < 0
  · have hyear : -(year.natAbs : Int) = year := by omega
    rw [formatTmYear, if_pos hneg]
    suffices hdigits : Denotes _ year.natAbs from
      hyear.subst (motive := Numeral _) (.negative hdigits)
    refine ⟨?_, by simp, ?_⟩
    · simp only [List.mem_append, List.mem_cons]
      rintro c (hc | rfl | hc)
      · exact isDigit_of_mem_formatRest c hc
      · exact isDigit_kDigits (by omega)
      · exact isDigit_of_mem_format02d c hc
    · rw [value, Nat.ofDigitChars_append, value_formatRest, ofDigitChars_kDigits (by omega), hlow,
        Nat.ofDigitChars_nil]
      omega
  · have hyear : (year.natAbs : Int) = year := by omega
    rw [formatTmYear, if_neg hneg]
    suffices hdigits : Denotes _ year.natAbs from
      hyear.subst (motive := Numeral _) (.positive hdigits)
    refine ⟨?_, by simp [format02d], ?_⟩
    · simp only [List.mem_append]
      rintro c (hc | hc | hc)
      · exact isDigit_of_mem_formatRest c hc
      · exact isDigit_of_mem_format02d c hc
      · exact isDigit_of_mem_format02d c hc
    · rw [value, Nat.ofDigitChars_append, value_formatRest, ofDigitChars_format02d (by omega),
        hlow, Nat.ofDigitChars_nil]
      omega

structure Tm.Printable (tm : Tm) : Prop where
  year : intMin ≤ tm.year ∧ tm.year ≤ intMax
  mon : 0 ≤ tm.mon ∧ tm.mon ≤ 11
  mday : 1 ≤ tm.mday ∧ tm.mday ≤ kMonthDays (tm.mon + 1) + if tm.mon + 1 = 2 then 1 else 0
  hour : 0 ≤ tm.hour ∧ tm.hour ≤ 23
  min : 0 ≤ tm.min ∧ tm.min ≤ 59
  sec : 0 ≤ tm.sec ∧ tm.sec ≤ 59

theorem parseInt_format02d {min max v : Int} {rest : List Char} (hrest : Ends rest)
    (hv : min ≤ v ∧ v ≤ max) (hmin : 0 ≤ min) (hmax : max ≤ 99) :
    parseInt intMin min max (format02d v.toNat ++ rest) = some (v, rest) := by
  have hnumeral : Numeral (format02d v.toNat) v.toNat := .positive (denotes_format02d (by omega))
  rw [Int.toNat_of_nonneg (by omega)] at hnumeral
  have hbounds : intMin ≤ min ∧ max < -intMin := by
    rw [intMin]
    omega
  exact parseInt_of_mem hnumeral hrest hv hbounds.1 hbounds.2

theorem parseInt_formatTmYear {year : Int} {rest : List Char} (hrest : Ends rest)
    (h : kYearMin ≤ year ∧ year ≤ kYearMax) :
    parseInt int64Min kYearMin kYearMax (formatTmYear year ++ rest) = some (year, rest) :=
  parseInt_of_mem (numeral_formatTmYear year) hrest h (by decide) (by decide)

theorem expect_dash (text : List Char) : expect ['-'] ('-' :: text) = some text := by
  simp [expect]

theorem expect_T (text : List Char) : expect ['T', 't'] ('T' :: text) = some text := by
  simp [expect]

theorem expect_colon (text : List Char) : expect [':'] (':' :: text) = some text := by
  simp [expect]

theorem kMonthDays_le (mon : Int) : kMonthDays mon + (if mon = 2 then 1 else 0) ≤ 31 := by
  rw [kMonthDays]
  split_ifs <;> omega

theorem validDay_of_printable {tm : Tm} (h : tm.Printable) :
    validDay ⟨0, tm.mon + 1, tm.mday, 0, 0, 0⟩ = true := by
  have hmday := h.mday.2
  rw [validDay]
  by_cases hmon : tm.mon + 1 = 2
  · simp only [hmon, kMonthDays] at hmday ⊢
    simpa [leapYear] using hmday
  · simpa [hmon] using hmday

theorem parseFields_formatTime {tm : Tm} (h : tm.Printable) {rest : List Char}
    (hrest : Ends rest) : parseFields (formatTime tm ++ rest) = some (tm, rest) := by
  have hyear : kYearMin ≤ tm.year + 1900 ∧ tm.year + 1900 ≤ kYearMax := by
    simpa [kYearMin, kYearMax] using h.year
  have hmon : 1 ≤ tm.mon + 1 ∧ tm.mon + 1 ≤ 12 := by
    have := h.mon
    omega
  have hmday : 1 ≤ tm.mday ∧ tm.mday ≤ 31 := ⟨h.mday.1, h.mday.2.trans (kMonthDays_le _)⟩
  have hsec : 0 ≤ tm.sec ∧ tm.sec ≤ 60 := ⟨h.sec.1, h.sec.2.trans (by decide)⟩
  have dash (text : List Char) : Ends ('-' :: text) := by simp
  have tee (text : List Char) : Ends ('T' :: text) := by simp
  have colon (text : List Char) : Ends (':' :: text) := by simp
  have year (text : List Char) := parseInt_formatTmYear (dash text) hyear
  have mon (text : List Char) := parseInt_format02d (dash text) hmon (by decide) (by decide)
  have mday (text : List Char) := parseInt_format02d (tee text) hmday (by decide) (by decide)
  have hour (text : List Char) := parseInt_format02d (colon text) h.hour (by decide) (by decide)
  have min (text : List Char) := parseInt_format02d (colon text) h.min (by decide) (by decide)
  have sec := parseInt_format02d hrest hsec (by decide) (by decide)
  rw [parseFields, formatTime]
  simp only [List.append_assoc, List.cons_append, Option.bind_eq_bind]
  rw [year, Option.bind_some, expect_dash, Option.bind_some, mon, Option.bind_some, expect_dash,
    Option.bind_some, mday, Option.bind_some, if_pos (validDay_of_printable h), expect_T,
    Option.bind_some, hour, Option.bind_some, expect_colon, Option.bind_some, min,
    Option.bind_some, expect_colon, Option.bind_some, sec, Option.bind_some, Int.add_sub_cancel,
    Int.add_sub_cancel]

end SpannerClient.Internal
