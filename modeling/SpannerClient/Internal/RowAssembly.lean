import SpannerClient.Library.Blocks
import SpannerClient.Internal.Assembly

/-! What successive calls to `NextRow()` return, as a function of the values that the responses
carry and of the final status alone. -/

namespace SpannerClient.RowAssembly

open Protobuf Fuel MergeChunk PartialResultSetSource PartialResultSetReader Assembly

variable {σ : Type} {R : PartialResultSetReader σ}

def rowOf (fields : List Field) (vs : List Protobuf.Value) : Row where
  values := List.zipWith (fun field value => fromProto field.type value) fields vs
  columns := (fields.map Field.name).take vs.length
  size_eq := by simp [Nat.min_comm]

@[simp] theorem rowOf_values (fields : List Field) (vs : List Protobuf.Value) :
    (rowOf fields vs).values =
      List.zipWith (fun field value => fromProto field.type value) fields vs := rfl

theorem rowOf_columns {fields : List Field} {vs : List Protobuf.Value}
    (h : vs.length = fields.length) : (rowOf fields vs).columns = fields.map Field.name := by
  rw [← List.length_map (f := Field.name)] at h
  simp [rowOf, h]

theorem rowOf_append {fields : List Field} {vs : List Protobuf.Value}
    (h : vs.length = fields.length) (ws : List Protobuf.Value) :
    rowOf fields (vs ++ ws) = rowOf fields vs := by
  apply Row.ext
  · simp only [rowOf]
    rw [← List.append_nil fields, List.zipWith_append h.symm, List.zipWith_nil_left,
      List.append_nil, List.append_nil]
  · simp [rowOf, h]

def completeRows (fields : List Field) (vs : List Protobuf.Value) : List Row :=
  (List.range (vs.length / fields.length)).map fun i =>
    rowOf fields ((vs.drop (i * fields.length)).take fields.length)

theorem completeRows_of_blocks {fields : List Field} {vs rest : List Protobuf.Value}
    {blocks : List (List Protobuf.Value)} (h : Blocks fields.length vs blocks rest) :
    blocks.map (rowOf fields) = completeRows fields vs := by
  apply List.ext_getElem
  · simp [completeRows, h.length_blocks_eq_div]
  · intro i hi hi'
    rw [List.length_map] at hi
    simp [completeRows, h.getElem_eq i hi]

theorem completeRows_nil_columns (vs : List Protobuf.Value) : completeRows [] vs = [] := by
  simp [completeRows]

inductive Returns (R : PartialResultSetReader σ) :
    PartialResultSetSource σ → List (StatusOr Row) → PartialResultSetSource σ → Prop
  | nil {s : PartialResultSetSource σ} : Returns R s [] s
  | cons {s s' s'' : PartialResultSetSource σ} {result : StatusOr Row}
      {results : List (StatusOr Row)} :
    Converges (fun fuel => s.nextRow R fuel) (result, s') → Returns R s' results s'' →
      Returns R s (result :: results) s''

theorem Returns.unique {s s₁ s₂ : PartialResultSetSource σ} {xs ys : List (StatusOr Row)}
    (h : Returns R s xs s₁) (h' : Returns R s ys s₂) (hlen : xs.length = ys.length) :
    xs = ys := by
  induction h generalizing ys with
  | nil => exact (List.length_eq_zero_iff.mp hlen.symm).symm
  | cons hnext _ ih =>
    cases h' with
    | nil => simp at hlen
    | cons hnext' hrest' =>
      obtain ⟨rfl, rfl⟩ := Prod.mk.inj (hnext.unique hnext')
      rw [ih hrest' (by simpa using hlen)]

theorem Returns.append {s s' s'' : PartialResultSetSource σ} {xs ys : List (StatusOr Row)}
    (h : Returns R s xs s') (h' : Returns R s' ys s'') : Returns R s (xs ++ ys) s'' := by
  induction h with
  | nil => exact h'
  | cons hnext _ ih => exact .cons hnext (ih h')

theorem Returns.take {s s' : PartialResultSetSource σ} {xs : List (StatusOr Row)}
    (h : Returns R s xs s') (n : Nat) : ∃ s'', Returns R s (xs.take n) s'' := by
  induction h generalizing n with
  | nil => exact ⟨_, by simpa using Returns.nil⟩
  | cons hnext _ ih =>
    cases n with
    | zero => exact ⟨_, .nil⟩
    | succ n =>
      obtain ⟨s'', hs''⟩ := ih n
      exact ⟨s'', .cons hnext hs''⟩

theorem Returns.of_next {s t s' : PartialResultSetSource σ} {xs : List (StatusOr Row)}
    (h : ∀ result t', Converges (fun fuel => t.nextRow R fuel) (result, t') →
      Converges (fun fuel => s.nextRow R fuel) (result, t'))
    (hxs : xs ≠ []) (ht : Returns R t xs s') : Returns R s xs s' := by
  cases ht with
  | nil => exact absurd rfl hxs
  | cons hnext hrest => exact .cons (h _ _ hnext) hrest

structure Open (s : PartialResultSetSource σ) (m : ResultSetMetadata) : Prop where
  metadata : s.metadata = some m
  not_finished : s.finished = false

theorem Open.fields_eq {s : PartialResultSetSource σ} {m : ResultSetMetadata} (h : Open s m) :
    s.fields = m.rowType := by
  simp [PartialResultSetSource.fields, h.metadata]

theorem setMetadata_of_some {s : PartialResultSetSource σ} {m : ResultSetMetadata}
    (h : s.metadata = some m) (r : PartialResultSet) : s.setMetadata r = s := by
  simp [setMetadata, h]

theorem setStats_eq (s : PartialResultSetSource σ) (r : PartialResultSet) :
    ∃ stats, s.setStats r = { s with stats } := by
  cases h : r.stats with
  | none => exact ⟨s.stats, by simp [setStats, h]⟩
  | some stats => exact ⟨some stats, by simp [setStats, h]⟩

theorem absorb_eq {s : PartialResultSetSource σ} {m : ResultSetMetadata}
    (h : s.metadata = some m) (r : PartialResultSet) :
    ∃ stats, s.absorb r = match unchunk s.chunk r with
      | .error e => (.error e, { s with stats })
      | .ok (vs, chunk) => (.ok (), { s with stats, chunk, buffer := s.buffer ++ vs }) := by
  obtain ⟨stats, hstats⟩ := setStats_eq s r
  refine ⟨stats, ?_⟩
  cases hunchunk : unchunk s.chunk r <;>
    simp only [absorb, setMetadata_of_some h, hstats, hunchunk]

theorem Open.advance {s : PartialResultSetSource σ} {m : ResultSetMetadata} (h : Open s m)
    (hneed : s.NeedsRead) {r : PartialResultSet} {reader : σ}
    (hread : R.Reads s.reader (some r) reader) {vs : List Protobuf.Value}
    {c : Option Protobuf.Value} (hr : unchunk s.chunk r = .ok (vs, c)) :
    ∃ t, Open t m ∧ t.reader = reader ∧ t.chunk = c ∧ t.buffer = s.buffer ++ vs ∧
      ∀ result t', Converges (fun fuel => t.nextRow R fuel) (result, t') →
        Converges (fun fuel => s.nextRow R fuel) (result, t') := by
  obtain ⟨stats, habsorb⟩ := absorb_eq (s := { s with reader }) h.metadata r
  simp only [hr] at habsorb
  refine ⟨{ s with reader, stats, chunk := c, buffer := s.buffer ++ vs }, ⟨h.metadata,
    h.not_finished⟩, rfl, rfl, rfl, ?_⟩
  intro result t' ht
  apply nextRow_read h.not_finished hneed _ _ ht
  · rw [← habsorb]
    exact readFromStream_response hread
  · exact h.not_finished

theorem Open.returns_buffered {s : PartialResultSetSource σ} {m : ResultSetMetadata}
    (h : Open s m) {blocks : List (List Protobuf.Value)} {rest : List Protobuf.Value}
    (hb : Blocks m.rowType.length s.buffer blocks rest) :
    Returns R s (blocks.map fun b => .ok (rowOf m.rowType b)) { s with buffer := rest } := by
  induction blocks generalizing s with
  | nil =>
    have hrest : rest = s.buffer := by simpa using hb.join
    rw [hrest]
    exact .nil
  | cons b blocks ih =>
    have hlen := hb.each b List.mem_cons_self
    have hbuffer : s.buffer = b ++ (blocks.flatten ++ rest) := by
      rw [← hb.join, List.flatten_cons, List.append_assoc]
    have hpos : 0 < s.fields.length := by
      rw [h.fields_eq]
      exact Nat.zero_lt_of_lt hb.short
    have hle : s.fields.length ≤ s.buffer.length := by
      rw [h.fields_eq, hbuffer, List.length_append]
      omega
    have hrow : (s.takeRow hle).1 = rowOf m.rowType b := by
      rw [← rowOf_append hlen (blocks.flatten ++ rest), ← hbuffer]
      apply Row.ext
      · simp [takeRow, makeRow, rowOf, h.fields_eq]
      · rw [h.fields_eq] at hle
        simp [takeRow, makeRow, rowOf, columns, h.fields_eq, List.take_of_length_le, hle]
    have hnext : (s.takeRow hle).2 = { s with buffer := blocks.flatten ++ rest } := by
      simp [takeRow, h.fields_eq, hbuffer, ← hlen]
    have hcall := nextRow_row (R := R) h.not_finished hpos hle
    rw [hrow, hnext] at hcall
    apply Returns.cons hcall
    apply ih (s := { s with buffer := blocks.flatten ++ rest }) ⟨h.metadata, h.not_finished⟩
    exact ⟨rfl, fun c hc => hb.each c (List.mem_cons_of_mem b hc), hb.short⟩

theorem Open.returns_prefix {s : PartialResultSetSource σ} {m : ResultSetMetadata} (h : Open s m)
    (hpos : 0 < m.rowType.length) {pre : List PartialResultSet} {reader : σ}
    (hread : R.Receives s.reader pre reader) {ws : List Protobuf.Value}
    {c : Option Protobuf.Value} (hpre : Assembles s.chunk pre ws c) :
    ∃ blocks rest t, Blocks m.rowType.length (s.buffer ++ ws) blocks rest ∧ Open t m ∧
      t.reader = reader ∧ t.chunk = c ∧ t.buffer = rest ∧
      ∀ results t', results ≠ [] → Returns R t results t' →
        Returns R s (blocks.map (fun b => .ok (rowOf m.rowType b)) ++ results) t' := by
  induction pre generalizing s ws with
  | nil =>
    cases hread
    cases hpre
    obtain ⟨blocks, rest, hb⟩ := Blocks.exists_of_pos hpos s.buffer
    refine ⟨blocks, rest, { s with buffer := rest }, ?_, ⟨h.metadata, h.not_finished⟩, rfl, rfl,
      rfl, ?_⟩
    · rwa [List.append_nil]
    · intro results t' _ ht
      exact (h.returns_buffered hb).append ht
  | cons r pre ih =>
    cases hread with
    | cons hread hreads =>
    cases hpre with
    | @cons _ c' _ _ _ vs ws hr hpre =>
    obtain ⟨blocks₀, rest₀, hb₀⟩ := Blocks.exists_of_pos hpos s.buffer
    have hopen : Open { s with buffer := rest₀ } m := ⟨h.metadata, h.not_finished⟩
    have hneed : NeedsRead { s with buffer := rest₀ } := by
      right
      simpa [columns, hopen.fields_eq] using hb₀.short
    obtain ⟨t, ht, rfl, rfl, htb, htnext⟩ := hopen.advance hneed hread hr
    obtain ⟨blocks, rest, u, hb, hu, hur, huc, hub, hunext⟩ := ih ht hreads hpre
    rw [htb, List.append_assoc] at hb
    refine ⟨blocks₀ ++ blocks, rest, u, hb₀.append hb, hu, hur, huc, hub, ?_⟩
    intro results t' hne hresults
    rw [List.map_append, List.append_assoc]
    apply (h.returns_buffered hb₀).append
    apply Returns.of_next htnext
    · simp [hne]
    · exact hunext results t' hne hresults

theorem returns_finished {s : PartialResultSetSource σ} (h : s.finished = true) (count : Nat) :
    Returns R s (List.replicate count (.ok Row.empty)) s := by
  induction count with
  | zero => exact .nil
  | succ count ih => exact .cons (nextRow_finished h) ih

def lastResult (status : Status) (chunk : Option Protobuf.Value)
    (buffer : List Protobuf.Value) : StatusOr Row := do
  status.check
  endOfStream chunk buffer

theorem Open.returns_end {s : PartialResultSetSource σ} {m : ResultSetMetadata} (h : Open s m)
    (hneed : s.NeedsRead) {status : Status} {reader : σ}
    (hd : R.Delivers s.reader [] status reader) :
    ∃ s', ∀ count, Returns R s
      (lastResult status s.chunk s.buffer :: List.replicate count (.ok Row.empty)) s' := by
  cases hd with
  | eof hread hfinish =>
    have hstream := readFromStream_end (s := s) hread hfinish
    refine ⟨{ s with reader, finished := true }, fun count => ?_⟩
    refine Returns.cons ?_ (returns_finished rfl count)
    cases hok : status.ok with
    | true =>
      rw [check_ok hok] at hstream
      rw [lastResult, check_ok hok]
      exact nextRow_end h.not_finished hneed hstream rfl
    | false =>
      rw [check_error hok] at hstream
      rw [lastResult, check_error hok]
      exact nextRow_fail h.not_finished hneed hstream

theorem Open.needsRead {s : PartialResultSetSource σ} {m : ResultSetMetadata}
    (h : Open s m) (hshort : s.buffer.length < m.rowType.length) : s.NeedsRead := by
  right
  simpa [columns, h.fields_eq] using hshort

theorem Open.returns_stream {s : PartialResultSetSource σ} {m : ResultSetMetadata} (h : Open s m)
    (hpos : 0 < m.rowType.length) {rs : List PartialResultSet} {status : Status} {reader : σ}
    (hd : R.Delivers s.reader rs status reader) {ws : List Protobuf.Value}
    {c : Option Protobuf.Value} (ha : Assembles s.chunk rs ws c) :
    ∃ blocks rest, Blocks m.rowType.length (s.buffer ++ ws) blocks rest ∧
      ∀ count, ∃ s', Returns R s (blocks.map (fun b => .ok (rowOf m.rowType b)) ++
        lastResult status c rest :: List.replicate count (.ok Row.empty)) s' := by
  rw [← List.append_nil rs] at hd
  obtain ⟨reader', hreads, hend⟩ := hd.split
  obtain ⟨blocks, rest, t, hb, ht, rfl, rfl, rfl, hnext⟩ := h.returns_prefix hpos hreads ha
  obtain ⟨s', hs'⟩ := ht.returns_end (ht.needsRead hb.short) hend
  refine ⟨blocks, t.buffer, hb, fun count => ⟨s', ?_⟩⟩
  exact hnext _ s' (List.cons_ne_nil _ _) (hs' count)

theorem Open.returns_missingRowType {s : PartialResultSetSource σ} {m : ResultSetMetadata}
    (h : Open s m) (hm : m.rowType = []) (hbuffer : s.buffer ≠ []) (count : Nat) :
    Returns R s (List.replicate count (.error missingRowType)) s := by
  induction count with
  | zero => exact .nil
  | succ count ih =>
    exact .cons (nextRow_no_columns h.not_finished (h.fields_eq.trans hm) hbuffer) ih

theorem Open.returns_values_without_columns {s : PartialResultSetSource σ}
    {m : ResultSetMetadata} (h : Open s m) (hm : m.rowType = []) {pre : List PartialResultSet}
    {reader : σ} (hread : R.Receives s.reader pre reader) {ws : List Protobuf.Value}
    {c : Option Protobuf.Value} (hpre : Assembles s.chunk pre ws c) (hne : s.buffer ++ ws ≠ [])
    (count : Nat) : ∃ s', Returns R s (List.replicate count (.error missingRowType)) s' := by
  induction pre generalizing s ws with
  | nil =>
    cases hpre
    rw [List.append_nil] at hne
    exact ⟨s, h.returns_missingRowType hm hne count⟩
  | cons r pre ih =>
    cases count with
    | zero => exact ⟨s, .nil⟩
    | succ count =>
    by_cases hbuffer : s.buffer = []
    · cases hread with
      | cons hread hreads =>
      cases hpre with
      | cons hr hpre =>
      obtain ⟨t, ht, rfl, rfl, htb, hnext⟩ := h.advance (.inl hbuffer) hread hr
      rw [← List.append_assoc, ← htb] at hne
      obtain ⟨s', hs'⟩ := ih ht hreads hpre hne
      exact ⟨s', hs'.of_next hnext (List.cons_ne_nil _ _)⟩
    · exact ⟨s, h.returns_missingRowType hm hbuffer (count + 1)⟩

theorem Open.returns_skip {s : PartialResultSetSource σ} {m : ResultSetMetadata} (h : Open s m)
    {pre : List PartialResultSet} {reader : σ} (hread : R.Receives s.reader pre reader)
    {ws : List Protobuf.Value} {c : Option Protobuf.Value} (hpre : Assembles s.chunk pre ws c)
    (hnil : s.buffer ++ ws = []) :
    ∃ t, Open t m ∧ t.reader = reader ∧ t.chunk = c ∧ t.buffer = [] ∧
      ∀ results t', results ≠ [] → Returns R t results t' → Returns R s results t' := by
  induction pre generalizing s ws with
  | nil =>
    cases hread
    cases hpre
    exact ⟨s, h, rfl, rfl, by simpa using hnil, fun _ _ _ ht => ht⟩
  | cons r pre ih =>
    cases hread with
    | cons hread hreads =>
    cases hpre with
    | cons hr hpre =>
    obtain ⟨hbuffer, -⟩ := List.append_eq_nil_iff.mp hnil
    obtain ⟨t, ht, rfl, rfl, htb, hnext⟩ := h.advance (.inl hbuffer) hread hr
    rw [← List.append_assoc, ← htb] at hnil
    obtain ⟨u, hu, hur, huc, hub, hunext⟩ := ih ht hreads hpre hnil
    refine ⟨u, hu, hur, huc, hub, ?_⟩
    intro results t' hne hresults
    exact (hunext results t' hne hresults).of_next hnext hne

theorem absorb_first (reader : σ) {r : PartialResultSet} {m : Option ResultSetMetadata}
    (hm : r.metadata = m) :
    ∃ stats, (ofReader reader).absorb r = match unchunk none r with
      | .error e => (.error e, ⟨reader, m, stats, [], none, false⟩)
      | .ok (vs, chunk) => (.ok (), ⟨reader, m, stats, vs, chunk, false⟩) := by
  obtain ⟨stats, hstats⟩ := setStats_eq ((ofReader reader).setMetadata r) r
  refine ⟨stats, ?_⟩
  rw [absorb, hstats]
  simp only [setMetadata, ofReader, hm]
  cases unchunk none r <;> rfl

theorem create_of_response {reader reader' : σ} {r : PartialResultSet}
    (hread : R.Reads reader (some r) reader') {m : ResultSetMetadata} (hm : r.metadata = some m)
    {vs : List Protobuf.Value} {c : Option Protobuf.Value} (hr : unchunk none r = .ok (vs, c)) :
    ∃ s, Converges (fun fuel => create R fuel reader) (.ok s) ∧ Open s m ∧ s.reader = reader' ∧
      s.chunk = c ∧ s.buffer = vs := by
  obtain ⟨stats, habsorb⟩ := absorb_first reader' hm
  simp only [hr] at habsorb
  have hstream := readFromStream_response (s := ofReader reader) hread
  change Converges _ ((ofReader reader').absorb r) at hstream
  rw [habsorb] at hstream
  exact ⟨_, create_ok hstream rfl, ⟨rfl, rfl⟩, rfl, rfl, rfl⟩

end SpannerClient.RowAssembly
