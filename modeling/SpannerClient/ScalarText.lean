import SpannerClient.Internal.FullDate
import SpannerClient.ValueDecoding

namespace SpannerClient

open CString

def received (s : Scalar) (text : String) : Value := fromProto s.makeTypeProto (.stringValue text)

@[simp] theorem get_received (s : Scalar) (text : String) :
    (received s text).get (.scalar s) = some (s.getValue (.stringValue text)) := by
  have htype : s.typeProtoIs s.makeTypeProto = true := by cases s <;> rfl
  simp [Value.get, received, fromProto, CppType.typeProtoIs, CppType.getValue, htype,
    Protobuf.Value.kindCase]

def Int64Text (text : List Char) (i : Int64) : Prop := IntegerText text i.toInt

theorem parseInt64_ok_iff {s : String} {i : Int64} :
    Scalar.parseInt64 s = .ok i ↔ Int64Text (CString.ofString s) i := by
  have hi := i.le_toInt
  have hi' := i.toInt_lt
  constructor
  · intro h
    rw [Scalar.parseInt64] at h
    cases hscan : scanInteger (CString.ofString s) with
    | none =>
      rw [hscan] at h
      cases h
    | some scanned =>
      obtain ⟨x, rest⟩ := scanned
      simp only [hscan] at h
      split at h
      case isTrue => cases h
      case isFalse hrange =>
        split at h
        case isTrue => cases h
        case isFalse hnil =>
          obtain ⟨-, front, htext, hfront⟩ := scanInteger_sound hscan
          cases h
          rw [not_not] at hnil
          rw [hnil, List.append_nil] at hfront
          simp only [int64Min, int64Max] at hrange
          rw [Int64Text, Int64.toInt_ofInt_of_le (by omega) (by omega), hfront]
          exact htext
  · intro h
    have hscan := scanInteger_text h Decimal.ends_nil
    rw [List.append_nil] at hscan
    have hrange : ¬ (i.toInt < int64Min ∨ int64Max < i.toInt) := by
      simp only [int64Min, int64Max]
      omega
    simp [Scalar.parseInt64, hscan, hrange]

/-- A text is only taken as a whole: it is a text of the value that it is taken for. -/
def TakenWhole (s : Scalar) (IsText : List Char → s.Val → Prop) (text : String) : Prop :=
  ∀ value, (received s text).get (.scalar s) = some (.ok value) → IsText text.toList value

theorem takenWhole_iff {s : Scalar} {IsText : List Char → s.Val → Prop}
    (hget : ∀ text value, s.getValue (.stringValue text) = .ok value ↔
      IsText (CString.ofString text) value)
    (hnul : ∀ text value, IsText text value → '\x00' ∉ text) (text : String) :
    TakenWhole s IsText text ↔
      '\x00' ∉ text.toList ∨ ¬ ∃ value, IsText (CString.ofString text) value := by
  simp only [TakenWhole, get_received, Option.some.injEq, hget]
  constructor
  · intro hwhole
    by_cases hread : ∃ value, IsText (CString.ofString text) value
    · obtain ⟨value, hvalue⟩ := hread
      exact .inl (hnul _ value (hwhole value hvalue))
    · exact .inr hread
  · rintro (hclean | hunread) value hvalue
    · rwa [CString.ofString, takeWhile_nul hclean] at hvalue
    · exact absurd ⟨value, hvalue⟩ hunread

/-- Texts of integers and of dates are taken as a whole unless C sees such a text before a NUL. -/
theorem takenWhole_iff_nul (text : String) :
    (TakenWhole .int64 Int64Text text ↔
      '\x00' ∉ text.toList ∨ ¬ ∃ i, Int64Text (CString.ofString text) i) ∧
    (TakenWhole .date Internal.ReadsAs text ↔
      '\x00' ∉ text.toList ∨ ¬ ∃ date, Internal.ReadsAs (CString.ofString text) date) := by
  have int64 : ∀ text value, Scalar.int64.getValue (.stringValue text) = .ok value ↔
      Int64Text (CString.ofString text) value := fun _ _ => parseInt64_ok_iff
  have date : ∀ text value, Scalar.date.getValue (.stringValue text) = .ok value ↔
      Internal.ReadsAs (CString.ofString text) value := fun _ _ => Internal.dateFromString_ok_iff
  exact ⟨takenWhole_iff int64 (fun _ _ => IntegerText.nul_not_mem) text,
    takenWhole_iff date (fun _ _ => Internal.ReadsAs.nul_not_mem) text⟩

/-- A NUL and a letter after an integer, and after a date, go unnoticed. -/
theorem nul_and_letter_taken :
    (received .int64 "12").get (.scalar .int64) = some (.ok (12 : Int64)) ∧
    (received .int64 "12\x00x").get (.scalar .int64) = some (.ok (12 : Int64)) ∧
    ¬ TakenWhole .int64 Int64Text "12\x00x" ∧
    (∃ date : Date, (received .date "2019-06-21").get (.scalar .date) = some (.ok date) ∧
      (received .date "2019-06-21\x00x").get (.scalar .date) = some (.ok date)) ∧
    ¬ TakenWhole .date Internal.ReadsAs "2019-06-21\x00x" := by
  have hint : Int64Text "12".toList 12 := .of_all (by decide) (by decide)
  have hfull : Internal.FullDate "2019-06-21".toList 2019 6 21 :=
    .mk (.of_all (by decide : "2019".toList.all Char.isDigit) (by decide))
      (.of_all (by decide : "06".toList.all Char.isDigit) (by decide))
      (.of_all (by decide : "21".toList.all Char.isDigit) (by decide))
  have hdate : Internal.ReadsAs "2019-06-21".toList
      (.ofDay 2019 6 21 (by decide) (by decide)) :=
    ⟨2019, 6, 21, hfull, rfl, rfl, rfl⟩
  have hgetInt : ∀ text, CString.ofString text = "12".toList →
      (received .int64 text).get (.scalar .int64) = some (.ok (12 : Int64)) :=
    fun text hc => (get_received _ _).trans (congrArg some (parseInt64_ok_iff.mpr (hc ▸ hint)))
  have hgetDate : ∀ text, CString.ofString text = "2019-06-21".toList →
      (received .date text).get (.scalar .date) = some (.ok (.ofDay 2019 6 21 _ _)) :=
    fun text hc =>
      (get_received _ _).trans (congrArg some (Internal.dateFromString_ok_iff.mpr (hc ▸ hdate)))
  refine ⟨hgetInt _ (by decide), hgetInt _ (by decide), ?_,
    ⟨_, hgetDate _ (by decide), hgetDate _ (by decide)⟩, ?_⟩
  · intro hwhole
    exact absurd (hwhole 12 (hgetInt _ (by decide))).nul_not_mem (by decide)
  · intro hwhole
    exact absurd (hwhole _ (hgetDate _ (by decide))).nul_not_mem (by decide)

end SpannerClient
