import SpannerClient.Internal.RowAssembly
import Mathlib.Data.List.Forall2

namespace SpannerClient.Transmission

open Protobuf Fuel MergeChunk PartialResultSetSource PartialResultSetReader Assembly
  RowAssembly

variable {σ : Type} {R : PartialResultSetReader σ}

def Pieces (v : Protobuf.Value) : List Protobuf.Value → Prop
  | [] => False
  | p :: ps => mergePieces p ps = .ok v

/-- The responses carry these pieces, one list for each value; `pending` says that the first list
is what remains of a value of which a piece has been sent. -/
inductive Transmits : Bool → List (List Protobuf.Value) → List PartialResultSet → Prop
  | done : Transmits false [] []
  | whole {pending : Bool} {pieces : List (List Protobuf.Value)} {r : PartialResultSet}
      {rs : List PartialResultSet} :
    r.chunkedValue = false → (pending = true → r.values ≠ []) → Transmits false pieces rs →
      Transmits pending (r.values.map ([·]) ++ pieces) (r :: rs)
  | cut {pending : Bool} {pieces : List (List Protobuf.Value)} {r : PartialResultSet}
      {rs : List PartialResultSet} {whole : List Protobuf.Value} {p : Protobuf.Value}
      {ps : List Protobuf.Value} :
    r.chunkedValue = true → r.values = whole ++ [p] → ps ≠ [] → Transmits true (ps :: pieces) rs →
      Transmits pending (whole.map ([·]) ++ (p :: ps) :: pieces) (r :: rs)

def Completes : Option Protobuf.Value → List (List Protobuf.Value) → List Protobuf.Value → Prop
  | none, pieces, vs => List.Forall₂ Pieces vs pieces
  | some chunk, pieces, vs => ∃ ps rest v ws, pieces = ps :: rest ∧ vs = v :: ws ∧ ps ≠ [] ∧
      mergePieces chunk ps = .ok v ∧ List.Forall₂ Pieces ws rest

theorem forall₂_whole {whole vs : List Protobuf.Value} {pieces : List (List Protobuf.Value)}
    (h : List.Forall₂ Pieces vs (whole.map ([·]) ++ pieces)) :
    ∃ ws, vs = whole ++ ws ∧ List.Forall₂ Pieces ws pieces := by
  induction whole generalizing vs with
  | nil => exact ⟨vs, rfl, h⟩
  | cons w whole ih =>
    cases h with
    | cons hw hrest =>
      obtain ⟨ws, rfl, hws⟩ := ih hrest
      cases hw
      exact ⟨ws, rfl, hws⟩

theorem Transmits.step {c : Option Protobuf.Value} {pieces : List (List Protobuf.Value)}
    {r : PartialResultSet} {rs : List PartialResultSet} {vs : List Protobuf.Value}
    (h : Transmits c.isSome pieces (r :: rs)) (hv : Completes c pieces vs) :
    ∃ c' us ws pieces', unchunk c r = .ok (us, c') ∧ vs = us ++ ws ∧
      Transmits c'.isSome pieces' rs ∧ Completes c' pieces' ws := by
  generalize hp : c.isSome = pending at h
  cases h with
  | @whole _ pieces _ _ hr hne hrs =>
    cases c with
    | none =>
      obtain ⟨ws, rfl, hws⟩ := forall₂_whole hv
      refine ⟨none, r.values, ws, pieces, ?_, rfl, hrs, hws⟩
      rw [unchunk, hr]
      rfl
    | some chunk =>
      obtain ⟨ps, rest, v, us, hpieces, rfl, -, hmerge, hus⟩ := hv
      cases hvalues : r.values with
      | nil => exact absurd hvalues (hne hp.symm)
      | cons x xs =>
        rw [hvalues] at hpieces
        obtain ⟨rfl, rfl⟩ := List.cons.inj hpieces
        obtain ⟨ws, rfl, hws⟩ := forall₂_whole hus
        obtain ⟨w, hx, hw⟩ := mergePieces_cons_inv hmerge
        cases hw
        refine ⟨none, v :: xs, ws, pieces, ?_, rfl, hrs, hws⟩
        rw [unchunk_merge hvalues hx, hr]
        rfl
  | @cut _ pieces _ _ whole p ps hr hvalues hps hrs =>
    cases c with
    | none =>
      obtain ⟨us, rfl, hus⟩ := forall₂_whole hv
      cases hus with
      | @cons v _ ws _ hmerge hws =>
      refine ⟨some p, whole, v :: ws, ps :: pieces, ?_, rfl, hrs,
        ⟨ps, pieces, v, ws, rfl, rfl, hps, hmerge, hws⟩⟩
      rw [unchunk, hvalues, hr]
      exact splitChunk_cut whole p
    | some chunk =>
      obtain ⟨qs, rest, v, us, hpieces, rfl, -, hmerge, hus⟩ := hv
      cases whole with
      | nil =>
        -- a middle piece, alone in its response
        obtain ⟨rfl, rfl⟩ := List.cons.inj hpieces
        obtain ⟨w, hw, hmerge⟩ := mergePieces_cons_inv hmerge
        refine ⟨some w, [], v :: us, ps :: pieces, ?_, rfl, hrs,
          ⟨ps, pieces, v, us, rfl, rfl, hps, hmerge, hus⟩⟩
        rw [unchunk_merge hvalues hw, hr]
        exact splitChunk_cut [] w
      | cons x xs =>
        obtain ⟨rfl, rfl⟩ := List.cons.inj hpieces
        obtain ⟨w, hx, hw⟩ := mergePieces_cons_inv hmerge
        cases hw
        obtain ⟨ws', rfl, hws'⟩ := forall₂_whole hus
        cases hws' with
        | @cons u _ ws _ hmerge hws =>
        refine ⟨some p, v :: xs, u :: ws, ps :: pieces, ?_, rfl, hrs,
          ⟨ps, pieces, u, ws, rfl, rfl, hps, hmerge, hws⟩⟩
        rw [unchunk_merge hvalues hx, hr]
        exact splitChunk_cut (v :: xs) p

theorem Transmits.assembles {c : Option Protobuf.Value} {pieces : List (List Protobuf.Value)}
    {rs : List PartialResultSet} (h : Transmits c.isSome pieces rs) {vs : List Protobuf.Value}
    (hv : Completes c pieces vs) : Assembles c rs vs none := by
  induction rs generalizing c pieces vs with
  | nil =>
    cases c with
    | none =>
      cases h
      cases hv
      exact .nil
    | some chunk => cases h
  | cons r rs ih =>
    obtain ⟨c', us, ws, pieces', hr, rfl, hrest, hws⟩ := h.step hv
    exact .cons hr (ih hrest hws)

theorem create_of_assembles {reader reader' : σ} {r : PartialResultSet}
    {rs : List PartialResultSet} {status : Status} {m : ResultSetMetadata}
    (hd : R.Delivers reader (r :: rs) status reader') (hm : r.metadata = some m)
    {vs : List Protobuf.Value} {c : Option Protobuf.Value} (ha : Assembles none (r :: rs) vs c) :
    ∃ s ws, Converges (fun fuel => create R fuel reader) (.ok s) ∧ Open s m ∧
      R.Delivers s.reader rs status reader' ∧ Assembles s.chunk rs ws c ∧ s.buffer ++ ws = vs := by
  cases ha with
  | cons hr hrest =>
  cases hd with
  | next hread hdrest =>
  obtain ⟨s, hcreate, hopen, rfl, rfl, rfl⟩ := create_of_response hread hm hr
  exact ⟨s, _, hcreate, hopen, hdrest, hrest, rfl⟩

def twoColumns : ResultSetMetadata :=
  ⟨[⟨"c0", .mk .string none []⟩, ⟨"c1", .mk .string none []⟩], none⟩

def cutRow : PartialResultSet :=
  ⟨some twoColumns, [.stringValue "a", .stringValue "b"], true, "t", none⟩

def restOfRow : PartialResultSet := ⟨none, [.stringValue "c"], false, "u", none⟩

theorem transmits_restOfRow : Transmits true [[.stringValue "c"]] [restOfRow] := by
  apply Transmits.whole (r := restOfRow) rfl _ .done
  simp [restOfRow]

theorem transmits_cutRow :
    Transmits false [[.stringValue "a"], [.stringValue "b", .stringValue "c"]]
      [cutRow, restOfRow] := by
  have hvalues : cutRow.values = [.stringValue "a"] ++ [.stringValue "b"] := rfl
  exact .cut rfl hvalues (by simp) transmits_restOfRow

end SpannerClient.Transmission
