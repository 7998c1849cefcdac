import SpannerClient.Internal.TimeFormat

namespace SpannerClient.Timestamp

open Internal Decimal

def kSecsPerMinute : Int := 60

def kSecsPerHour : Int := 60 * kSecsPerMinute

def kSecsPerDay : Int := 24 * kSecsPerHour

def yearOfEra (doe : Int) : Int := (doe - doe / 1460 + doe / 36524 - doe / 146096) / 365

def dayOfYear (doe : Int) : Int :=
  doe - (365 * yearOfEra doe + yearOfEra doe / 4 - yearOfEra doe / 100)

def zTime (s : Int) : Tm :=
  let borrow := s.tmod kSecsPerDay < 0
  let sec := if borrow then s.tmod kSecsPerDay + kSecsPerDay else s.tmod kSecsPerDay
  let day := if borrow then s.tdiv kSecsPerDay - 1 else s.tdiv kSecsPerDay
  let hour := sec.tdiv kSecsPerHour
  let sec := sec - hour * kSecsPerHour
  let min := sec.tdiv kSecsPerMinute
  let sec := sec - min * kSecsPerMinute
  let aday := day + 719468
  let era := (if 0 ≤ aday then aday else aday - 146096).tdiv 146097
  let doe := aday - era * 146097
  let yoe := (doe - doe.tdiv 1460 + doe.tdiv 36524 - doe.tdiv 146096).tdiv 365
  let y := yoe + era * 400
  let doy := doe - (365 * yoe + yoe.tdiv 4 - yoe.tdiv 100)
  let mp := (5 * doy + 2).tdiv 153
  let d := doy - (153 * mp + 2).tdiv 5 + 1
  let m := mp + if mp < 10 then 3 else -9
  ⟨toInt32 (y - (1900 - if m ≤ 2 then 1 else 0)), m - 1, d, hour, min, sec⟩

def timeZ (tm : Tm) : Int :=
  let y := tm.year + 1900
  let m := tm.mon + 1
  let d := tm.mday
  let eyear := if m ≤ 2 then y - 1 else y
  let era := (if 0 ≤ eyear then eyear else eyear - 399).tdiv 400
  let yoe := eyear - era * 400
  let doy := (153 * (m + if 2 < m then -3 else 9) + 2).tdiv 5 + d - 1
  let doe := yoe * 365 + yoe.tdiv 4 - yoe.tdiv 100 + doy
  let aday := era * 146097 + doe - 719468
  aday * kSecsPerDay + tm.hour * kSecsPerHour + tm.min * kSecsPerMinute + tm.sec

def digitValue (c : Char) : Int := (c.toNat - '0'.toNat : Nat)

/-- The digits of the fraction: their value, what a unit of it is in nanoseconds, and the text
after them. Digits below a nanosecond are dropped. -/
def parseFraction (v scale : Int) : List Char → Int × Int × List Char
  | [] => (v, scale, [])
  | c :: cs =>
    if c.isDigit then
      if scale = 1 then parseFraction v scale cs
      else parseFraction (v * 10 + digitValue c) (scale.tdiv 10) cs
    else (v, scale, c :: cs)

def parseSecfrac : List Char → Option (Int × List Char)
  | '.' :: text =>
    let (v, scale, rest) := parseFraction 0 nanosPerSecond text
    if rest.length = text.length then none else some (scale * v, rest)
  | text => some (0, text)

/-- Where the loop over `HH:MM` stops: the field that `it` points to, both fields, whether no
digit of the last one has been read, and the text that is left. -/
structure OffsetFields where
  it : Nat
  hours : Int
  minutes : Int
  fresh : Bool
  rest : List Char
  deriving DecidableEq, Repr

def parseOffsetFields (it : Nat) (hours minutes : Int) (fresh : Bool) :
    List Char → OffsetFields
  | [] => ⟨it, hours, minutes, fresh, []⟩
  | c :: cs =>
    if c = ':' then
      if it + 1 = 2 ∨ fresh then ⟨it + 1, hours, minutes, fresh, c :: cs⟩
      else parseOffsetFields (it + 1) hours minutes true cs
    else if c.isDigit then
      let hours := if it = 0 then hours * 10 + digitValue c else hours
      let minutes := if it = 0 then minutes else minutes * 10 + digitValue c
      if 100 ≤ (if it = 0 then hours else minutes) then ⟨it, hours, minutes, fresh, c :: cs⟩
      else parseOffsetFields it hours minutes false cs
    else ⟨it, hours, minutes, fresh, c :: cs⟩

def parseOffset : List Char → Option (Int × List Char)
  | [] => none
  | c :: text =>
    if c = 'Z' ∨ c = 'z' then some (0, text)
    else if c = '+' ∨ c = '-' then
      let fields := parseOffsetFields 0 0 0 true text
      if fields.fresh ∨ fields.it < 1 ∨ 24 ≤ fields.hours ∨ 60 ≤ fields.minutes then none
      else
        let secs := fields.hours * kSecsPerHour + fields.minutes * kSecsPerMinute
        some (if c = '-' then -secs else secs, fields.rest)
    else none

def invalidArgument (message : String) : Failure :=
  .of .invalidArgument message StatusCode.invalidArgument_ne_ok

def outOfRange (message : String) : Failure := .of .outOfRange message StatusCode.outOfRange_ne_ok

def fromRFC3339 (s : String) : StatusOr Timestamp :=
  match parseTime s with
  | none => .error (invalidArgument (s ++ ": Failed to match RFC3339 date-time"))
  | some (tm, pos) =>
    match parseSecfrac (s.toList.drop pos) with
    | none => .error (invalidArgument (s ++ ": RFC3339 time-secfrac must include a digit"))
    | some (nanos, text) =>
      match parseOffset text with
      | none => .error (invalidArgument (s ++ ": Failed to match RFC3339 time-offset"))
      | some (utcOffsetSecs, rest) =>
        let sec := timeZ tm
        if rest ≠ [] then
          .error (invalidArgument (s ++ ": Extra data after RFC3339 date-time"))
        else if 0 ≤ utcOffsetSecs ∧ int64Max - utcOffsetSecs < sec then
          .error (outOfRange "UTC offset positive overflow")
        else if utcOffsetSecs < 0 ∧ sec < int64Min - utcOffsetSecs then
          .error (outOfRange "UTC offset negative overflow")
        else fromCounts (sec + utcOffsetSecs) nanos

def stripZeros : Nat → Nat → Nat × Nat
  | 0, ss => (0, ss)
  | width + 1, ss => if ss % 10 = 0 then stripZeros width (ss / 10) else (width + 1, ss)

def fractionText (nsec : Int) : List Char :=
  if nsec = 0 then []
  else
    let (width, ss) := stripZeros 9 nsec.toNat
    '.' :: padded width ss

/-- The offset that is written is always zero. -/
def toRFC3339 (ts : Timestamp) : String :=
  String.ofList (formatTime (zTime ts.sec) ++ (fractionText ts.nsec ++ ['Z']))

end SpannerClient.Timestamp

namespace SpannerClient.Internal

def timestampFromRFC3339 (s : String) : StatusOr Timestamp := Timestamp.fromRFC3339 s

def timestampToRFC3339 (ts : Timestamp) : String := ts.toRFC3339

end SpannerClient.Internal
