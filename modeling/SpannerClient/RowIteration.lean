import SpannerClient.RowStream
import SpannerClient.Library.Iteration

namespace SpannerClient

open Iteration

def rowAt (source : RowSource) (n : Nat) : Option (StatusOr Row) :=
  match source n with
  | .error e => some (.error e)
  | .ok row => if row.size = 0 then none else some (.ok row)

def tupleAt {τ : Type} (get : Row → Bounded (StatusOr τ)) (source : RowSource) (n : Nat) :
    Bounded (Option (StatusOr τ)) :=
  match rowAt source n with
  | none => some none
  | some (.error e) => some (some (.error e))
  | some (.ok row) => (get row).map some

variable {source : RowSource} {n calls : Nat}

theorem eq_of_rowAt {r : StatusOr Row} (h : rowAt source n = some r) : source n = r := by
  rw [rowAt] at h
  split at h
  · next hsource => exact hsource.trans (Option.some.inj h)
  · next hsource =>
    split at h
    · cases h
    · exact hsource.trans (Option.some.inj h)

namespace RowStreamIterator

def current (it : RowStreamIterator) : Option (StatusOr Row) :=
  if it.equal pastEnd then none else some it.row

@[simp] theorem current_of_source (row : StatusOr Row) (source : RowSource) :
    current ⟨row, some source⟩ = some row := rfl

@[simp] theorem current_of_null (row : StatusOr Row) : current ⟨row, none⟩ = none := rfl

def standing (source : RowSource) (n : Nat) : RowStreamIterator :=
  ⟨source n, (rowAt source n).map fun _ => source⟩

theorem standing_of_some {r : StatusOr Row} (h : rowAt source n = some r) :
    standing source n = ⟨r, some source⟩ := by
  rw [standing, h, eq_of_rowAt h]
  rfl

@[simp] theorem standing_current : (standing source n).current = rowAt source n := by
  cases h : rowAt source n with
  | none => rw [standing, h, Option.map_none, current_of_null]
  | some r => rw [standing_of_some h, current_of_source]

theorem increment_of_row {row : Row} :
    increment ⟨.ok row, some source⟩ calls = some (standing source calls, calls + 1) := by
  simp only [increment, standing, rowAt, Option.map_some]
  cases source calls with
  | error e => rfl
  | ok row => by_cases h : row.size = 0 <;> simp [h]

theorem increment_of_error {e : Failure} {source : Option RowSource} :
    increment ⟨.error e, source⟩ calls = some (⟨.error e, none⟩, calls) := rfl

theorem ofSource_eq : ofSource (some source) calls = some (standing source calls, calls + 1) :=
  increment_of_row

theorem increment_defined {it : RowStreamIterator} (h : it.current ≠ none) :
    ∃ s, it.increment calls = some s := by
  obtain ⟨row, source⟩ := it
  cases source with
  | none => exact absurd (current_of_null row) h
  | some source =>
    cases row with
    | error e => exact ⟨_, increment_of_error⟩
    | ok row => exact ⟨_, increment_of_row⟩

theorem follows (source : RowSource) :
    Follows (fun n b => b = rowAt source n) (fun s : RowStreamIterator × Nat => s.1.current)
      (fun s => s.1.increment s.2) Prod.snd (fun n s => s = (standing source n, n + 1)) where
  place h := by rw [h, standing_current]
  count h := by rw [h]
  ok h hcurrent hnext := by
    subst h
    rw [standing_current] at hcurrent
    rw [standing_of_some hcurrent, increment_of_row] at hnext
    exact (Option.some.inj hnext).symm
  error h hcurrent hnext := by
    subst h
    rw [standing_current] at hcurrent
    rw [standing_of_some hcurrent, increment_of_error] at hnext
    cases hnext
    exact ⟨rfl, rfl⟩

end RowStreamIterator

namespace TupleStreamIterator

variable {τ : Type} {get : Row → Bounded (StatusOr τ)}

def current (it : TupleStreamIterator τ) : Option (StatusOr τ) :=
  if it.equal default then none else some it.tup

structure Standing (get : Row → Bounded (StatusOr τ)) (source : RowSource) (n : Nat)
    (s : TupleStreamIterator τ × Nat) : Prop where
  it : s.1.it = .standing source n
  pastEnd : s.1.pastEnd = .pastEnd
  calls : s.2 = n + 1
  tup : tupleAt get source n = some s.1.current

theorem current_eq (it : TupleStreamIterator τ) :
    it.current = it.it.current.map fun _ => it.tup := by
  obtain ⟨tup, ⟨row, source⟩, last⟩ := it
  cases source <;> rfl

theorem tup_of_current {it : TupleStreamIterator τ} {t : StatusOr τ} (h : it.current = some t) :
    it.tup = t := by
  rw [current_eq] at h
  obtain ⟨_, -, htup⟩ := Option.map_eq_some_iff.mp h
  exact htup

theorem parseTuple_standing (tup : StatusOr τ) :
    parseTuple get ⟨tup, .standing source n, .pastEnd⟩ =
      (tupleAt get source n).map fun b => ⟨b.getD tup, .standing source n, .pastEnd⟩ := by
  rw [tupleAt]
  cases hrow : rowAt source n with
  | none =>
    rw [RowStreamIterator.standing, hrow]
    rfl
  | some r =>
    rw [RowStreamIterator.standing_of_some hrow]
    cases r with
    | error e => rfl
    | ok row =>
      simp only [Option.map_map]
      rfl

theorem isSome_of_tupleAt {b : Option (StatusOr τ)} (h : tupleAt get source n = some b) :
    b.isSome = (rowAt source n).isSome := by
  rw [tupleAt] at h
  split at h
  · next hrow =>
    cases h
    rw [hrow]
    rfl
  · next hrow =>
    cases h
    rw [hrow]
    rfl
  · next hrow =>
    obtain ⟨tup, -, rfl⟩ := Option.map_eq_some_iff.mp h
    rw [hrow]
    rfl

theorem standing_of_parseTuple {tup : StatusOr τ} {it : TupleStreamIterator τ}
    (h : parseTuple get ⟨tup, .standing source n, .pastEnd⟩ = some it) :
    Standing get source n (it, n + 1) := by
  rw [parseTuple_standing] at h
  obtain ⟨b, hb, rfl⟩ := Option.map_eq_some_iff.mp h
  refine ⟨rfl, rfl, rfl, hb.trans (congrArg some ?_)⟩
  have hsome := isSome_of_tupleAt hb
  rw [current_eq, RowStreamIterator.standing_current]
  cases hrow : rowAt source n with
  | none => simpa [hrow] using hsome
  | some r =>
    obtain ⟨tup, rfl⟩ := Option.isSome_iff_exists.mp (hsome.trans (by rw [hrow]; rfl))
    rfl

theorem rowAt_of_tupleAt {t : τ} (h : tupleAt get source n = some (some (.ok t))) :
    ∃ row, rowAt source n = some (.ok row) := by
  rw [tupleAt] at h
  split at h
  · cases h
  · cases h
  · next row hrow => exact ⟨row, hrow⟩

theorem increment_of_ok {it : TupleStreamIterator τ} {t : τ} (h : Standing get source n (it, calls))
    (hcurrent : it.current = some (.ok t)) :
    it.increment get calls =
      (parseTuple get ⟨.ok t, .standing source (n + 1), .pastEnd⟩).map fun it => (it, n + 2) := by
  obtain ⟨row, hrow⟩ := rowAt_of_tupleAt (h.tup.trans (congrArg some hcurrent))
  have htup : it.tup = .ok t := tup_of_current hcurrent
  obtain ⟨tup, it, last⟩ := it
  obtain rfl : it = .standing source n := h.it
  obtain rfl : last = .pastEnd := h.pastEnd
  obtain rfl : calls = n + 1 := h.calls
  obtain rfl : tup = .ok t := htup
  rw [increment]
  simp only [RowStreamIterator.standing_of_some hrow, RowStreamIterator.increment_of_row]
  simp only [Option.bind_eq_bind, Option.bind_some, Option.map_eq_bind]
  rfl

theorem follows (get : Row → Bounded (StatusOr τ)) (source : RowSource) :
    Follows (fun n b => tupleAt get source n = some b)
      (fun s : TupleStreamIterator τ × Nat => s.1.current) (fun s => s.1.increment get s.2) Prod.snd
      (Standing get source) where
  place h := h.tup
  count h := h.calls
  ok h hcurrent hnext := by
    rw [increment_of_ok h hcurrent] at hnext
    obtain ⟨it, hparse, rfl⟩ := Option.map_eq_some_iff.mp hnext
    exact standing_of_parseTuple hparse
  error h hcurrent hnext := by
    rw [increment, tup_of_current hcurrent] at hnext
    cases hnext
    refine ⟨?_, rfl⟩
    rw [current_eq, h.pastEnd]
    rfl

theorem undefined_of_increment {first : TupleStreamIterator τ × Nat}
    (hfirst : Standing get source 0 first) {visited : List (StatusOr τ)}
    {it : TupleStreamIterator τ}
    (h : Visits (fun s => s.1.current) (fun s => s.1.increment get s.2) first visited (it, calls))
    (hcurrent : it.current ≠ none) (hnone : it.increment get calls = none) :
    tupleAt get source calls = none := by
  obtain ⟨n, hn⟩ := (follows get source).on_place hfirst h hcurrent
  obtain ⟨b, hb⟩ := Option.ne_none_iff_exists'.mp hcurrent
  cases b with
  | error e =>
    rw [increment, tup_of_current hb] at hnone
    cases hnone
  | ok t =>
    rw [increment_of_ok hn hb, parseTuple_standing] at hnone
    obtain rfl : calls = n + 1 := hn.calls
    simpa using hnone

theorem current_of_parseTuple (tup : StatusOr τ) :
    (parseTuple get ⟨tup, .standing source n, .pastEnd⟩).map current = tupleAt get source n := by
  cases hparse : parseTuple get ⟨tup, .standing source n, .pastEnd⟩ with
  | none =>
    rw [parseTuple_standing] at hparse
    exact (Option.map_eq_none_iff.mp hparse).symm
  | some it => exact (standing_of_parseTuple hparse).tup.symm

end TupleStreamIterator

theorem current_of_streamOf {τ : Type} (get : Row → Bounded (StatusOr τ)) (source : RowSource) :
    (streamOf get source).map (fun s => s.1.current) = tupleAt get source 0 := by
  rw [← TupleStreamIterator.current_of_parseTuple (defaultStatusOr τ)]
  simp only [streamOf, RowStreamIterator.ofSource_eq, TupleStreamIterator.ofRange,
    Option.bind_eq_bind, Option.bind_some, Option.map_bind]
  rw [Option.map_eq_bind]
  rfl

theorem standing_of_streamOf {τ : Type} {get : Row → Bounded (StatusOr τ)}
    {first : TupleStreamIterator τ × Nat} (h : streamOf get source = some first) :
    TupleStreamIterator.Standing get source 0 first := by
  simp only [streamOf, RowStreamIterator.ofSource_eq, TupleStreamIterator.ofRange,
    Option.bind_eq_bind, Option.bind_some] at h
  obtain ⟨it, hparse, hfirst⟩ := Option.bind_eq_some_iff.mp h
  cases hfirst
  exact TupleStreamIterator.standing_of_parseTuple hparse

/-- The iterators deliver the rows of a source, and their conversions, up to the first error or the
end, and call it no more than that takes. -/
theorem row_iteration (source : RowSource) :
    (∃ first, RowStreamIterator.ofSource (some source) 0 = some first ∧
      ∀ visited it calls,
        Visits (fun s => s.1.current) (fun s => s.1.increment s.2) first visited (it, calls) →
          Delivers (fun n b => b = rowAt source n) visited it.current calls ∧
          (it.current ≠ none → ∃ next, it.increment calls = some next)) ∧
    ∀ Ts : List CppType,
      (streamOf (Row.getTuple Ts) source = none → tupleAt (Row.getTuple Ts) source 0 = none) ∧
      ∀ first, streamOf (Row.getTuple Ts) source = some first →
        ∀ visited it calls,
          Visits (fun s => s.1.current) (fun s => s.1.increment (Row.getTuple Ts) s.2) first
              visited (it, calls) →
            Delivers (fun n b => tupleAt (Row.getTuple Ts) source n = some b) visited it.current
              calls ∧
            (it.current ≠ none → it.increment (Row.getTuple Ts) calls = none →
              tupleAt (Row.getTuple Ts) source calls = none) := by
  refine ⟨⟨_, RowStreamIterator.ofSource_eq, fun visited it calls h => ⟨?_, ?_⟩⟩,
    fun Ts => ⟨fun hnone => ?_, fun first hfirst visited it calls h =>
      ⟨?_, fun hcurrent hnone => ?_⟩⟩⟩
  · exact (RowStreamIterator.follows source).delivers rfl h
  · exact RowStreamIterator.increment_defined
  · rw [← current_of_streamOf, hnone]
    rfl
  · exact (TupleStreamIterator.follows _ source).delivers (standing_of_streamOf hfirst) h
  · exact TupleStreamIterator.undefined_of_increment (standing_of_streamOf hfirst) h hcurrent hnone

def misfitSource : RowSource
  | 1 => .ok ⟨[⟨.mk .int64 none [], .stringValue "1"⟩], ["c0"], rfl⟩
  | _ => .ok ⟨[⟨.mk .string none [], .stringValue "a"⟩], ["c0"], rfl⟩

theorem row_iteration_misfit :
    ∃ first last e, streamOf (Row.getTuple [.scalar .string]) misfitSource = some first ∧
      Visits (fun s => s.1.current) (fun s => s.1.increment (Row.getTuple [.scalar .string]) s.2)
        first [.ok ("a", ()), .error e] (last, 2) ∧
      last.current = none ∧
      Delivers (fun n b => tupleAt (Row.getTuple [.scalar .string]) misfitSource n = some b)
        [.ok ("a", ()), .error e] none 2 := by
  let first : TupleStreamIterator (Row.TupleVal [.scalar .string]) × Nat :=
    (⟨.ok ("a", ()), .standing misfitSource 0, .pastEnd⟩, 1)
  have hfirst : streamOf (Row.getTuple [.scalar .string]) misfitSource = some first := rfl
  have hstart : Visits (fun s => s.1.current)
      (fun s => s.1.increment (Row.getTuple [.scalar .string]) s.2) first [] first := .start
  have hvisits := (hstart.advance rfl rfl).advance rfl rfl
  have hdelivers := (((row_iteration misfitSource).2 [.scalar .string]).2 _ hfirst _ _ _ hvisits).1
  exact ⟨_, _, _, hfirst, hvisits, rfl, hdelivers⟩

end SpannerClient
