import SpannerClient.ValueEquality
import Mathlib.Data.List.Forall2

namespace SpannerClient

open Protobuf (SpannerType TypeCode)

theorem Protobuf.Value.list_induction {P : Protobuf.Value → Prop}
    (h : ∀ v : Protobuf.Value, (∀ w ∈ v.listField, P w) → P v) (v : Protobuf.Value) : P v := by
  apply h
  intro w hw
  have hlt : sizeOf w < sizeOf v := by
    cases v with
    | listValue vs =>
      have := List.sizeOf_lt_of_mem hw
      simp only [listField] at this
      simp only [listValue.sizeOf_spec]
      omega
    | _ => cases hw
  exact list_induction h w
termination_by sizeOf v

def ContentAgrees (pt1 : SpannerType) (pv1 : Protobuf.Value) (pt2 : SpannerType)
    (pv2 : Protobuf.Value) : Prop :=
  match pt1.code with
  | .bool => pv1.boolField = pv2.boolField
  | .float64 => equalDouble pv1 pv2 = true
  | .int64 | .string | .bytes | .date | .timestamp => pv1.stringField = pv2.stringField
  | .array =>
    pt1.arrayElementType.code = pt2.arrayElementType.code ∧
      pv1.listField.length = pv2.listField.length ∧
      equalElements pt1.arrayElementType pv1.listField pv2.listField = true
  | .struct =>
    pt1.fields.length = pt2.fields.length ∧ pt1.fields.length = pv1.listField.length ∧
      pv1.listField.length = pv2.listField.length ∧
      equalFields pt1.fields pv1.listField pt2.fields pv2.listField = true
  | .unspecified | .unrecognized _ => True

theorem equal_iff {pt1 pt2 : SpannerType} {pv1 pv2 : Protobuf.Value} :
    equal pt1 pv1 pt2 pv2 = true ↔
      pt1.code = pt2.code ∧ pv1.kindCase = pv2.kindCase ∧ ContentAgrees pt1 pv1 pt2 pv2 := by
  rw [equal.eq_def, ContentAgrees]
  by_cases hcode : pt1.code = pt2.code
  · by_cases hkind : pv1.kindCase = pv2.kindCase
    · simp only [hcode, hkind, ne_eq, not_true_eq_false, if_false, true_and]
      generalize pv2.listField = v2
      cases pt2.code with
      | array =>
        cases pv1 <;> cases v2 <;> simp [Protobuf.Value.listField, equalElements]
      | struct =>
        cases pv1 <;> cases v2 <;> cases pt1.fields <;>
          simp [Protobuf.Value.listField, equalFields, and_assoc]
      | _ => simp
    · simp [hkind]
  · simp [hcode]

inductive Protobuf.SpannerType.Same : SpannerType → SpannerType → Prop
  | mk : t.code = u.code →
    (t.code = .array → Same t.arrayElementType u.arrayElementType) →
    (t.code = .struct → t.fields.map Prod.fst = u.fields.map Prod.fst) →
    (∀ (i : Nat) (f g : String × SpannerType), t.code = .struct → t.fields[i]? = some f →
      u.fields[i]? = some g → Same f.2 g.2) →
    Same t u

theorem Protobuf.SpannerType.sizeOf_lt_of_getElem? {fields : List (String × SpannerType)} {i : Nat}
    {f : String × SpannerType} (h : fields[i]? = some f) : sizeOf f.2 < sizeOf fields := by
  have hlt := List.sizeOf_lt_of_mem (List.mem_of_getElem? h)
  obtain ⟨name, t⟩ := f
  simp only [Prod.mk.sizeOf_spec] at hlt ⊢
  omega

theorem Protobuf.SpannerType.Same.refl : (t : SpannerType) → t.Same t
  | .mk code element fields => by
    refine .mk rfl (fun _ => ?_) (fun _ => rfl) fun i f g _ hf hg => ?_
    · cases element with
      | none => exact .mk rfl nofun nofun nofun
      | some element => exact refl element
    · obtain rfl := Option.some.inj (hf.symm.trans hg)
      have hlt := sizeOf_lt_of_getElem? hf
      exact refl f.2
termination_by t => sizeOf t
decreasing_by
  all_goals simp_wf
  · omega
  · simp only [SpannerType.fields] at hlt
    omega

theorem Protobuf.SpannerType.Same.symm (h : SpannerType.Same t u) : u.Same t := by
  induction h with
  | mk hcode _ hnames _ ihelement ihfields =>
    rw [hcode] at ihelement hnames ihfields
    exact .mk hcode.symm ihelement (fun hstruct => (hnames hstruct).symm)
      fun i f g hstruct hf hg => ihfields i g f hstruct hg hf

theorem Protobuf.SpannerType.Same.element (h : SpannerType.Same t u) (hcode : t.code = .array) :
    t.arrayElementType.Same u.arrayElementType := by
  cases h with
  | mk _ helement _ _ => exact helement hcode

theorem Protobuf.SpannerType.Same.length_fields (h : SpannerType.Same t u)
    (hcode : t.code = .struct) : t.fields.length = u.fields.length := by
  cases h with
  | mk _ _ hnames _ => simpa using congrArg List.length (hnames hcode)

theorem Protobuf.SpannerType.Same.field (h : SpannerType.Same t u) (hcode : t.code = .struct)
    {i : Nat} {g : String × SpannerType} (hg : u.fields[i]? = some g) :
    ∃ f, t.fields[i]? = some f ∧ f.1 = g.1 ∧ f.2.Same g.2 := by
  have hlength := h.length_fields hcode
  obtain ⟨hlt, -⟩ := List.getElem?_eq_some_iff.mp hg
  rw [← hlength] at hlt
  have hf := List.getElem?_eq_getElem hlt
  cases h with
  | mk _ _ hnames hfields =>
    have hname := congrArg (fun names => names[i]?) (hnames hcode)
    simp only [List.getElem?_map, hf, hg, Option.map_some, Option.some.injEq] at hname
    exact ⟨_, hf, hname, hfields i _ g hcode hf hg⟩

inductive Protobuf.Value.Same : Protobuf.Value → Protobuf.Value → Prop
  | kindNotSet : Same .kindNotSet .kindNotSet
  | nullValue : Same .nullValue .nullValue
  | numberValue : a = b ∨ a.isZero ∧ b.isZero → Same (.numberValue a) (.numberValue b)
  | stringValue : Same (.stringValue s) (.stringValue s)
  | boolValue : Same (.boolValue b) (.boolValue b)
  | structValue : Same (.structValue fields) (.structValue fields)
  | listValue : List.Forall₂ Same vs ws → Same (.listValue vs) (.listValue ws)

theorem Protobuf.Value.Same.symm (v : Protobuf.Value) {w : Protobuf.Value} (h : v.Same w) :
    w.Same v := by
  induction v using Protobuf.Value.list_induction generalizing w with
  | h v ih =>
    cases h with
    | kindNotSet => exact .kindNotSet
    | nullValue => exact .nullValue
    | numberValue h => exact .numberValue (h.imp Eq.symm And.symm)
    | stringValue => exact .stringValue
    | boolValue => exact .boolValue
    | structValue => exact .structValue
    | @listValue vs ws h =>
      obtain ⟨hsize, hall⟩ := List.forall₂_iff_get.mp h
      refine .listValue (List.forall₂_iff_get.mpr ⟨hsize.symm, fun i hi hi' => ?_⟩)
      exact ih _ (List.getElem_mem hi') (hall i hi' hi)

namespace Value

def Same (a b : Value) : Prop := a.type.Same b.type ∧ a.value.Same b.value

end Value

/-- Wherever the comparison gets to and something may differ, content is of the kind that its type
code reads, and two arrays have one element type. It gets no further where codes or kinds, lengths,
or the names of the fields differ. -/
inductive Comparable : SpannerType → Protobuf.Value → SpannerType → Protobuf.Value → Prop
  | same : pt1.Same pt2 → pv1.Same pv2 → Comparable pt1 pv1 pt2 pv2
  | code : pt1.code ≠ pt2.code → Comparable pt1 pv1 pt2 pv2
  | kind : pv1.kindCase ≠ pv2.kindCase → Comparable pt1 pv1 pt2 pv2
  | empty : pv = .nullValue ∨ pv = .kindNotSet →
    (pt1.code = .array → pt1.arrayElementType.code = pt2.arrayElementType.code →
      pt1.arrayElementType.Same pt2.arrayElementType) →
    Comparable pt1 pv pt2 pv
  | bool : pt1.code = .bool → Comparable pt1 (.boolValue a) pt2 (.boolValue b)
  | number : pt1.code = .float64 → Comparable pt1 (.numberValue a) pt2 (.numberValue b)
  | text {pt1 pt2 : SpannerType} {a b : String} :
      pt1.code ∈ [.int64, .float64, .string, .bytes, .date, .timestamp] →
    Comparable pt1 (.stringValue a) pt2 (.stringValue b)
  | array {pt1 pt2 : SpannerType} {vs ws : List Protobuf.Value} : pt1.code = .array →
    (pt1.arrayElementType.code = pt2.arrayElementType.code → vs.length = ws.length →
      pt1.arrayElementType.Same pt2.arrayElementType) →
    (∀ (i : Nat) (v w : Protobuf.Value), vs.length = ws.length → vs[i]? = some v →
      ws[i]? = some w → Comparable pt1.arrayElementType v pt2.arrayElementType w) →
    Comparable pt1 (.listValue vs) pt2 (.listValue ws)
  | struct {pt1 pt2 : SpannerType} {vs ws : List Protobuf.Value} : pt1.code = .struct →
    (∀ (i : Nat) (f g : String × SpannerType) (v w : Protobuf.Value),
      pt1.fields.map Prod.fst = pt2.fields.map Prod.fst → vs.length = ws.length →
      pt1.fields[i]? = some f → pt2.fields[i]? = some g → vs[i]? = some v → ws[i]? = some w →
        Comparable f.2 v g.2 w) →
    Comparable pt1 (.listValue vs) pt2 (.listValue ws)

theorem Comparable.symm (h : Comparable pt1 pv1 pt2 pv2) : Comparable pt2 pv2 pt1 pv1 := by
  by_cases hcode : pt2.code = pt1.code
  · induction h with
    | same htype hvalue => exact .same htype.symm (hvalue.symm _)
    | code hne => exact absurd hcode.symm hne
    | kind hne => exact .kind hne.symm
    | empty hempty helement =>
      exact .empty hempty fun harray helements =>
        (helement (hcode ▸ harray) helements.symm).symm
    | bool hbool => exact .bool (hcode.trans hbool)
    | number hnumber => exact .number (hcode.trans hnumber)
    | text htext => exact .text (hcode ▸ htext)
    | @array pt1 pt2 vs ws harray helement _ ih =>
      refine .array (hcode.trans harray)
        (fun helements hsize => (helement helements.symm hsize.symm).symm)
        fun i w v hsize hw hv => ?_
      by_cases hcodes : pt2.arrayElementType.code = pt1.arrayElementType.code
      · exact ih i v w hsize.symm hv hw hcodes
      · exact .code hcodes
    | struct hstruct _ ih =>
      refine .struct (hcode.trans hstruct) fun i g f w v hnames hsize hg hf hw hv => ?_
      by_cases hcodes : g.2.code = f.2.code
      · exact ih i f g v w hnames.symm hsize.symm hf hg hv hw hcodes
      · exact .code hcodes
  · exact .code hcode

namespace Value

end Value

end SpannerClient
