import Mathlib.Data.List.Basic
import Mathlib.Tactic.Linarith

/-! Decimal text: its digits, the runs of digits in a text, and the integer a run denotes. -/

namespace SpannerClient.Decimal

def padded (w n : Nat) : List Char := (Nat.toDigits 10 n).leftpad w '0'

def value (ds : List Char) : Nat := Nat.ofDigitChars 10 ds 0

def digits (n : Nat) : List Char := Nat.toDigits 10 n

def signed (n : Int) : List Char :=
  if n < 0 then '-' :: digits n.natAbs else digits n.natAbs

def Ends (rest : List Char) : Prop := ∀ c ∈ rest.head?, c.isDigit = false

@[simp] theorem ends_nil : Ends [] := by simp [Ends]

@[simp] theorem ends_cons {c : Char} {rest : List Char} :
    Ends (c :: rest) ↔ c.isDigit = false := by simp [Ends]

theorem isDigit_of_mem_digits {n : Nat} {c : Char} (h : c ∈ digits n) : c.isDigit :=
  Nat.isDigit_of_mem_toDigits (by decide) (by decide) h

theorem isDigit_of_mem_padded {w n : Nat} {c : Char} (h : c ∈ padded w n) : c.isDigit := by
  simp only [padded, List.leftpad, List.mem_append, List.mem_replicate] at h
  obtain ⟨-, rfl⟩ | h := h
  · rfl
  · exact isDigit_of_mem_digits h

theorem padded_ne_nil (w n : Nat) : padded w n ≠ [] := by
  simp [padded, List.leftpad, Nat.toDigits_ne_nil]

@[simp] theorem value_digits (n : Nat) : value (digits n) = n := Nat.ofDigitChars_ten_toDigits

@[simp] theorem value_padded (w n : Nat) : value (padded w n) = n := by
  simp [value, padded, List.leftpad, Nat.ofDigitChars_append, Nat.ofDigitChars_ten_toDigits]

theorem padded_of_le {w n : Nat} (h : w ≤ (digits n).length) : padded w n = digits n := by
  simp only [digits] at h
  simp [padded, digits, List.leftpad, Nat.sub_eq_zero_of_le h]

theorem takeWhile_isDigit {ds rest : List Char} (hds : ∀ c ∈ ds, c.isDigit) (hrest : Ends rest) :
    (ds ++ rest).takeWhile Char.isDigit = ds := by
  rw [List.takeWhile_append_of_pos hds]
  cases rest with
  | nil => simp
  | cons c rest => simp [ends_cons.mp hrest]

theorem dropWhile_isDigit {ds rest : List Char} (hds : ∀ c ∈ ds, c.isDigit) (hrest : Ends rest) :
    (ds ++ rest).dropWhile Char.isDigit = rest := by
  rw [List.dropWhile_append_of_pos hds]
  cases rest with
  | nil => rfl
  | cons c rest => simp [ends_cons.mp hrest]

theorem le_ofDigitChars (ds : List Char) (n : Nat) : n ≤ Nat.ofDigitChars 10 ds n := by
  induction ds generalizing n with
  | nil => simp
  | cons d ds ih =>
    rw [Nat.ofDigitChars_cons]
    calc n ≤ 10 * n + (d.toNat - '0'.toNat) := by omega
      _ ≤ _ := ih _

end SpannerClient.Decimal
