import SpannerClient.Library.CString

/-! The texts that the scanners of the C library take for an integer. -/

namespace SpannerClient.CString

open Decimal

inductive Sign
  | absent
  | plus
  | minus

def Sign.text : Sign → List Char
  | .absent => []
  | .plus => ['+']
  | .minus => ['-']

def Sign.apply : Sign → Nat → Int
  | .absent, n => n
  | .plus, n => n
  | .minus, n => -n

inductive IntegerText : List Char → Int → Prop
  | mk {blanks ds : List Char} (sign : Sign) (hblanks : ∀ c ∈ blanks, isSpace c)
      (hdigits : ∀ c ∈ ds, c.isDigit) (hne : ds ≠ []) :
      IntegerText (blanks ++ (sign.text ++ ds)) (sign.apply (value ds))

theorem IntegerText.of_all {ds : List Char} (hdigits : ds.all Char.isDigit) (hne : ds ≠ []) :
    IntegerText ds (value ds) :=
  @IntegerText.mk [] ds .absent (by simp) (List.all_eq_true.mp hdigits) hne

def StartsSolid (text : List Char) : Prop := ∀ c ∈ text.head?, isSpace c = false

theorem dropWhile_isSpace {blanks text : List Char} (hblanks : ∀ c ∈ blanks, isSpace c)
    (htext : StartsSolid text) : (blanks ++ text).dropWhile isSpace = text := by
  rw [List.dropWhile_append_of_pos hblanks]
  cases text with
  | nil => rfl
  | cons c text => simp [htext c rfl]

theorem head?_isDigit {ds rest : List Char} (hdigits : ∀ c ∈ ds, c.isDigit) (hne : ds ≠ []) :
    ∀ c ∈ (ds ++ rest).head?, c.isDigit := by
  rw [List.head?_append_of_ne_nil _ hne]
  exact fun c hc => hdigits c (List.mem_of_mem_head? hc)

theorem startsSolid_sign (sign : Sign) {ds : List Char} (rest : List Char)
    (hdigits : ∀ c ∈ ds, c.isDigit) (hne : ds ≠ []) :
    StartsSolid (sign.text ++ (ds ++ rest)) := by
  intro c hc
  cases sign with
  | absent =>
    have hdigit : ∀ c ∈ (ds ++ rest).head?, c.isDigit := head?_isDigit hdigits hne
    exact not_isSpace_of_isDigit (hdigit c hc)
  | plus =>
    cases hc
    rfl
  | minus =>
    cases hc
    rfl

theorem scanSign_text (sign : Sign) {ds : List Char} (rest : List Char)
    (hdigits : ∀ c ∈ ds, c.isDigit) (hne : ds ≠ []) :
    ∃ negative, scanSign (sign.text ++ (ds ++ rest)) = (negative, ds ++ rest) ∧
      ∀ n : Nat, (if negative then -(n : Int) else n) = sign.apply n := by
  cases sign with
  | absent =>
    have hdigit : ∀ c ∈ (ds ++ rest).head?, c.isDigit := head?_isDigit hdigits hne
    exact ⟨false, scanSign_of_isDigit hdigit, fun _ => rfl⟩
  | plus => exact ⟨false, rfl, fun _ => rfl⟩
  | minus => exact ⟨true, rfl, fun _ => rfl⟩

theorem scanInteger_text {text rest : List Char} {n : Int} (htext : IntegerText text n)
    (hrest : Ends rest) : scanInteger (text ++ rest) = some (n, rest) := by
  obtain ⟨sign, hblanks, hdigits, hne⟩ := htext
  obtain ⟨negative, hsign, happly⟩ := scanSign_text sign rest hdigits hne
  have hspace := dropWhile_isSpace hblanks (startsSolid_sign sign rest hdigits hne)
  simp only [scanInteger, List.append_assoc, hspace, hsign, takeWhile_isDigit hdigits hrest,
    dropWhile_isDigit hdigits hrest, if_neg hne, happly]

theorem ends_dropWhile (text : List Char) : Ends (text.dropWhile Char.isDigit) := by
  intro c hc
  have hnot := List.head?_dropWhile_not Char.isDigit text
  rw [Option.mem_def.mp hc] at hnot
  exact hnot

theorem exists_sign (text : List Char) :
    ∃ sign : Sign, text = sign.text ++ (scanSign text).2 ∧
      ∀ n : Nat, (if (scanSign text).1 then -(n : Int) else n) = sign.apply n := by
  unfold scanSign
  split
  · exact ⟨.minus, rfl, fun _ => rfl⟩
  · exact ⟨.plus, rfl, fun _ => rfl⟩
  · exact ⟨.absent, rfl, fun _ => rfl⟩

theorem scanInteger_sound {text rest : List Char} {n : Int}
    (h : scanInteger text = some (n, rest)) :
    Ends rest ∧ ∃ front, IntegerText front n ∧ text = front ++ rest := by
  obtain ⟨sign, hbody, happly⟩ := exists_sign (text.dropWhile isSpace)
  simp only [scanInteger, happly] at h
  generalize (scanSign (text.dropWhile isSpace)).2 = body at hbody h
  split at h
  case isTrue => cases h
  case isFalse hne =>
    cases h
    have hblanks : ∀ c ∈ text.takeWhile isSpace, isSpace c := fun _ => List.mem_takeWhile_imp
    have hdigits : ∀ c ∈ body.takeWhile Char.isDigit, c.isDigit := fun _ => List.mem_takeWhile_imp
    refine ⟨ends_dropWhile body, _, .mk sign hblanks hdigits hne, ?_⟩
    rw [List.append_assoc, List.append_assoc, List.takeWhile_append_dropWhile, ← hbody,
      List.takeWhile_append_dropWhile]

theorem nul_not_mem_of_blanks {blanks : List Char} (h : ∀ c ∈ blanks, isSpace c) :
    '\x00' ∉ blanks :=
  fun hnul => absurd (h _ hnul) (by decide)

theorem IntegerText.nul_not_mem {text : List Char} {n : Int} (h : IntegerText text n) :
    '\x00' ∉ text := by
  obtain ⟨sign, hblanks, hdigits, -⟩ := h
  have hsign : '\x00' ∉ sign.text := by cases sign <;> decide
  simp [nul_not_mem_of_blanks hblanks, hsign, nul_not_mem_of_digits hdigits]

end SpannerClient.CString
