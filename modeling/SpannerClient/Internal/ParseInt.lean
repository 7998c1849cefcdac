import SpannerClient.Internal.TimeFormat
import SpannerClient.Library.IntegerText
import SpannerClient.TimestampChrono

namespace SpannerClient.Internal

open Decimal NumericLimits

inductive ParsedType
  | int
  | intmax

def ParsedType.limits : ParsedType → NumericLimits
  | .int => int32
  | .intmax => int64

theorem ParsedType.max_eq (T : ParsedType) : T.limits.max = -T.limits.min - 1 := by
  cases T <;> rfl

theorem ParsedType.nine_le (T : ParsedType) : 9 ≤ T.limits.max := by cases T <;> decide

def bounded (min max value : Int) (rest : List Char) : Option (Int × List Char) :=
  if value < min ∨ max < value then none else some (value, rest)

def parseDigitsOf (t : NumericLimits) (value : Int) :
    List Char → Option (Option (Int × List Char))
  | [] => some (some (value, []))
  | c :: cs =>
    if c.isDigit then do
      let d : Int := (c.toNat - '0'.toNat : Nat)
      let tenth ← t.div t.min 10
      if value < tenth then some none
      else do
        let shifted ← t.mul value 10
        let least ← t.add t.min d
        if shifted < least then some none
        else do
          let next ← t.sub shifted d
          parseDigitsOf t next cs
    else some (some (value, c :: cs))

def parseIntOf (t : NumericLimits) (min max : Int) (text : List Char) :
    Option (Option (Int × List Char)) := do
  match ← parseDigitsOf t 0 (magnitude text) with
  | none => some none
  | some (value, rest) =>
    if rest.length = (magnitude text).length then some none
    else if isNegative text then some (bounded min max value rest)
    else if value = t.min then some none
    else do
      let positive ← t.sub 0 value
      some (bounded min max positive rest)

theorem digit_le {c : Char} (h : c.isDigit) : c.toNat - '0'.toNat ≤ 9 := by
  simp only [Char.isDigit, Bool.and_eq_true, decide_eq_true_eq] at h
  have h57 : c.toNat ≤ 57 := h.2
  have h48 : '0'.toNat = 48 := rfl
  omega

theorem parseDigitsOf_eq (T : ParsedType) {value : Int}
    (hvalue : T.limits.min ≤ value ∧ value ≤ 0) (text : List Char) :
    parseDigitsOf T.limits value text = some (parseDigits T.limits.min value text) := by
  have hmin := T.limits.zero_mem.1
  have hmax := T.nine_le
  induction text generalizing value with
  | nil => rfl
  | cons c cs ih =>
    rw [parseDigitsOf, parseDigits]
    by_cases hdigit : c.isDigit
    · have hd := digit_le hdigit
      generalize c.toNat - '0'.toNat = d at hd
      have htenth : T.limits.div T.limits.min 10 = some (T.limits.min.tdiv 10) :=
        div_eq ⟨le_refl _, by omega⟩ (by decide)
      have hleast : T.limits.add T.limits.min d = some (T.limits.min + d) :=
        add_eq ⟨by omega, by omega⟩
      simp only [hdigit, if_true, htenth, hleast, Option.bind_eq_bind, Option.bind_some]
      by_cases hlarge : value < T.limits.min.tdiv 10
      · simp [hlarge]
      · have hfits : ¬ value * 10 < T.limits.min :=
          fun h => hlarge ((lt_min_tdiv (by decide)).mpr h)
        have hshifted : T.limits.mul value 10 = some (value * 10) :=
          mul_eq ⟨by omega, by omega⟩
        simp only [if_neg hlarge, hshifted, Option.bind_some]
        by_cases hless : value * 10 < T.limits.min + d
        · simp [hless]
        · have hnext : T.limits.sub (value * 10) d = some (value * 10 - d) :=
            sub_eq ⟨by omega, by omega⟩
          simp only [if_neg hless, hnext, Option.bind_some]
          exact ih ⟨by omega, by omega⟩
    · simp [hdigit]

theorem parseDigits_holds {kMin value least : Int} {text rest : List Char}
    (hvalue : kMin ≤ value ∧ value ≤ 0)
    (h : parseDigits kMin value text = some (least, rest)) : kMin ≤ least ∧ least ≤ 0 := by
  induction text generalizing value with
  | nil =>
    cases h
    exact hvalue
  | cons c cs ih =>
    rw [parseDigits] at h
    split at h
    case isFalse =>
      cases h
      exact hvalue
    case isTrue =>
      dsimp only at h
      split at h
      case isTrue => cases h
      case isFalse =>
        split at h
        case isTrue => cases h
        case isFalse => exact ih ⟨by omega, by omega⟩ h

theorem parseIntOf_eq (T : ParsedType) (min max : Int) (text : List Char) :
    parseIntOf T.limits min max text = some (parseInt T.limits.min min max text) := by
  have hzero := T.limits.zero_mem.1
  have hmax := T.max_eq
  rw [parseIntOf, parseInt, parseDigitsOf_eq T ⟨hzero, le_refl _⟩]
  simp only [Option.bind_eq_bind, Option.bind_some]
  cases hparsed : parseDigits T.limits.min 0 (magnitude text) with
  | none => rfl
  | some parsed =>
    obtain ⟨value, rest⟩ := parsed
    have hvalue := parseDigits_holds ⟨hzero, le_refl _⟩ hparsed
    simp only [Option.bind_some]
    by_cases hempty : rest.length = (magnitude text).length
    · simp [hempty]
    · cases hneg : isNegative text with
      | true => simp [hempty, bounded]
      | false =>
        by_cases hleast : value = T.limits.min
        · simp [hempty, hleast]
        · have hpositive : T.limits.sub 0 value = some (-value) :=
            sub_eq_of_eq (by omega) ⟨by omega, by omega⟩
          simp [hempty, hleast, hpositive, bounded]

def digitRun (text : List Char) : List Char := (magnitude text).takeWhile Char.isDigit

def afterDigits (text : List Char) : List Char := (magnitude text).dropWhile Char.isDigit

def denoted (text : List Char) : Int :=
  if isNegative text then -value (digitRun text) else value (digitRun text)

theorem digitRun_append (text : List Char) : digitRun text ++ afterDigits text = magnitude text :=
  List.takeWhile_append_dropWhile

theorem denotes_digitRun {text : List Char} (h : digitRun text ≠ []) :
    Denotes (digitRun text) (value (digitRun text)) :=
  ⟨fun _ => List.mem_takeWhile_imp, h, rfl⟩

theorem ends_afterDigits (text : List Char) : Ends (afterDigits text) :=
  CString.ends_dropWhile (magnitude text)

theorem parseDigits_of_ends (kMin : Int) {rest : List Char} (h : Ends rest) :
    parseDigits kMin 0 rest = some (0, rest) := by
  cases rest with
  | nil => rfl
  | cons c cs => simp [parseDigits, ends_cons.mp h]

theorem ParsedType.holds_iff (T : ParsedType) {n : Int} :
    T.limits.Holds n ↔ T.limits.min ≤ n ∧ n < -T.limits.min := by
  have hmax := T.max_eq
  constructor
  · rintro ⟨hlow, hhigh⟩
    omega
  · intro h
    exact ⟨h.1, by omega⟩

theorem parseInt_eq (T : ParsedType) (min max : Int) (text : List Char) :
    parseInt T.limits.min min max text =
      if digitRun text = [] ∨ ¬ T.limits.Holds (denoted text) ∨ denoted text < min ∨
          max < denoted text then none
      else some (denoted text, afterDigits text) := by
  have hends := ends_afterDigits text
  have hzero := T.limits.zero_mem
  have hmax := T.max_eq
  rw [parseInt, ← digitRun_append text]
  by_cases hrun : digitRun text = []
  · simp [hrun, parseDigits_of_ends _ hends]
  · have hdenotes := denotes_digitRun hrun
    have hdigits := parseDigits_eq hdenotes hends hzero.1
    have hlength := hdenotes.length_ne (afterDigits text)
    simp only [denoted, T.holds_iff]
    generalize value (digitRun text) = n at hdigits
    by_cases hfits : T.limits.min ≤ -(n : Int)
    · rw [if_pos hfits] at hdigits
      cases hneg : isNegative text with
      | true =>
        simp only [hdigits, if_neg hlength, hrun, Option.bind_eq_bind, Option.bind_some,
          Bool.not_true, Bool.false_eq_true, false_and, if_false, if_true, false_or]
        split_ifs <;> first | rfl | omega
      | false =>
        simp only [hdigits, if_neg hlength, hrun, Option.bind_eq_bind, Option.bind_some,
          Bool.not_false, true_and, Bool.false_eq_true, if_false, false_or, Int.neg_neg]
        split_ifs <;> first | rfl | omega
    · rw [if_neg hfits] at hdigits
      have hlarge : ¬ (T.limits.min ≤ (if isNegative text then -(n : Int) else n) ∧
          (if isNegative text then -(n : Int) else n) < -T.limits.min) := by
        split <;> omega
      rw [hdigits, Option.bind_eq_bind, Option.bind_none, if_pos (.inr (.inl hlarge))]

/-- `ParseInt` stores the integer of a text, without an overflow on the way, unless there is none or
it is not in the type or not in the bounds. -/
theorem parseInt_exact (T : ParsedType) (min max : Int) (text : List Char) :
    parseIntOf T.limits min max text = some
      (if digitRun text = [] ∨ ¬ T.limits.Holds (denoted text) ∨ denoted text < min ∨
          max < denoted text then none
        else some (denoted text, afterDigits text)) := by
  rw [parseIntOf_eq, parseInt_eq]

end SpannerClient.Internal
