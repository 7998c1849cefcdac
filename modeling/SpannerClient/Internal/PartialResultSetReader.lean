import SpannerClient.Library.Fuel
import SpannerClient.Status
import SpannerClient.Protobuf.ResultSet

namespace SpannerClient

open Protobuf Fuel

/-- The interface `PartialResultSetReader`.  `σ` is the reader with all that its calls may change;
`read` takes fuel because an implementation may loop. -/
structure PartialResultSetReader (σ : Type) where
  tryCancel : σ → σ
  read : Nat → σ → Option (Option PartialResultSet × σ)
  finish : σ → Status × σ

namespace PartialResultSetReader

variable {σ : Type} (R : PartialResultSetReader σ)

def Reads (s : σ) (result : Option PartialResultSet) (s' : σ) : Prop :=
  Converges (fun fuel => R.read fuel s) (result, s')

/-- Successive calls to `Read()` return `rs` and then no value, and `Finish()` then returns
`status`. -/
inductive Delivers : σ → List PartialResultSet → Status → σ → Prop
  | eof {s s' s'' : σ} {status : Status} :
    R.Reads s none s' → R.finish s' = (status, s'') → Delivers s [] status s''
  | next {s s' s'' : σ} {r : PartialResultSet} {rs : List PartialResultSet} {status : Status} :
    R.Reads s (some r) s' → Delivers s' rs status s'' → Delivers s (r :: rs) status s''

inductive Receives : σ → List PartialResultSet → σ → Prop
  | nil {s : σ} : Receives s [] s
  | cons {s s' s'' : σ} {r : PartialResultSet} {rs : List PartialResultSet} :
    R.Reads s (some r) s' → Receives s' rs s'' → Receives s (r :: rs) s''

variable {R}

theorem Delivers.split {s s'' : σ} {pre post : List PartialResultSet} {st : Status}
    (h : R.Delivers s (pre ++ post) st s'') :
    ∃ s', R.Receives s pre s' ∧ R.Delivers s' post st s'' := by
  induction pre generalizing s with
  | nil => exact ⟨s, .nil, h⟩
  | cons r pre ih =>
    cases h with
    | next hread hrest =>
      obtain ⟨s', hpre, hpost⟩ := ih hrest
      exact ⟨s', .cons hread hpre, hpost⟩

theorem Reads.unique {s s₁ s₂ : σ} {a b : Option PartialResultSet}
    (ha : R.Reads s a s₁) (hb : R.Reads s b s₂) : a = b ∧ s₁ = s₂ := by
  have h := Converges.unique ha hb
  exact Prod.mk.inj h

theorem Delivers.unique {s s₁ s₂ : σ} {rs rs' : List PartialResultSet} {st st' : Status}
    (h : R.Delivers s rs st s₁) (h' : R.Delivers s rs' st' s₂) : rs = rs' ∧ st = st' := by
  induction h generalizing rs' st' s₂ with
  | eof hread hfinish =>
    cases h' with
    | eof hread' hfinish' =>
      obtain ⟨-, rfl⟩ := hread.unique hread'
      rw [hfinish] at hfinish'
      exact ⟨rfl, (Prod.mk.inj hfinish').1⟩
    | next hread' _ => cases (hread.unique hread').1
  | next hread _ ih =>
    cases h' with
    | eof hread' _ => cases (hread.unique hread').1
    | next hread' hrest =>
      obtain ⟨hr, rfl⟩ := hread.unique hread'
      cases hr
      obtain ⟨rfl, rfl⟩ := ih hrest
      exact ⟨rfl, rfl⟩

theorem Delivers.of_reads {s t s' : σ} {rs : List PartialResultSet} {st : Status}
    (h : ∀ result t', R.Reads t result t' → R.Reads s result t') (ht : R.Delivers t rs st s') :
    R.Delivers s rs st s' := by
  cases ht with
  | eof hread hfinish => exact .eof (h _ _ hread) hfinish
  | next hread hrest => exact .next (h _ _ hread) hrest

end PartialResultSetReader

structure ServerStream where
  responses : List PartialResultSet
  status : Status

namespace ServerStream

def reader : PartialResultSetReader ServerStream where
  tryCancel _ := ⟨[], ⟨.cancelled, ""⟩⟩
  read _ s := match s.responses with
    | [] => some (none, s)
    | r :: rs => some (some r, { s with responses := rs })
  finish s := (s.status, s)

theorem reads_nil (status : Status) : reader.Reads ⟨[], status⟩ none ⟨[], status⟩ :=
  Converges.const _

theorem reads_cons (r : PartialResultSet) (rs : List PartialResultSet) (status : Status) :
    reader.Reads ⟨r :: rs, status⟩ (some r) ⟨rs, status⟩ :=
  Converges.const _

theorem delivers (rs : List PartialResultSet) (status : Status) :
    reader.Delivers ⟨rs, status⟩ rs status ⟨[], status⟩ := by
  induction rs with
  | nil => exact .eof (reads_nil status) rfl
  | cons r rs ih => exact .next (reads_cons r rs status) ih

end ServerStream

end SpannerClient
