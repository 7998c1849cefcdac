import SpannerClient.RowStream

namespace SpannerClient.Row

def getAt (row : Row) (pos : Nat) : StatusOr Value :=
  match row.values[pos]? with
  | some value => .ok value
  | none => .error (.of .invalidArgument "position out of range" StatusCode.invalidArgument_ne_ok)

def getNamed (row : Row) (name : String) : StatusOr Value :=
  match row.columns.findIdx? (· = name) with
  | some pos => row.getAt pos
  | none => .error (.of .invalidArgument "column name not found" StatusCode.invalidArgument_ne_ok)

def getAs (T : CppType) : StatusOr Value → Bounded (StatusOr T.Val)
  | .ok value => value.get T
  | .error e => some (.error e)

def TupleVal.get : {Ts : List CppType} → TupleVal Ts → (i : Fin Ts.length) → (Ts.get i).Val
  | _ :: _, (t, _), ⟨0, _⟩ => t
  | _ :: _, (_, tup), ⟨i + 1, h⟩ => TupleVal.get tup ⟨i, Nat.lt_of_succ_lt_succ h⟩

variable {Ts : List CppType} {T : CppType} {values : List Value} {value : Value}
  {status : Option Failure} {tup : TupleVal Ts} {e : Failure}

theorem getNamed_eq {row : Row} {name : String} {pos : Nat} (h : row.columns[pos]? = some name)
    (hfirst : ∀ pos' < pos, row.columns[pos']? ≠ some name) :
    row.getNamed name = row.getAt pos := by
  have hfound : row.columns.findIdx? (· = name) = some pos := by
    obtain ⟨hlt, hname⟩ := List.getElem?_eq_some_iff.mp h
    rw [List.findIdx?_eq_some_iff_getElem]
    refine ⟨hlt, by simpa using hname, fun j hj => ?_⟩
    have hne := hfirst j hj
    rw [List.getElem?_eq_getElem (Nat.lt_trans hj hlt)] at hne
    simpa using hne
  rw [getNamed, hfound]

def Reads : (Ts : List CppType) → List Value → TupleVal Ts → Prop
  | [], _, _ => True
  | T :: Ts, value :: values, (t, tup) => value.get T = some (.ok t) ∧ Reads Ts values tup
  | _ :: _, [], _ => False

def FailsLast : (Ts : List CppType) → List Value → Failure → Prop
  | T :: Ts, value :: values, e =>
    (value.get T = some (.error e) ∧ ∃ tup, Reads Ts values tup) ∨
      (value.get T ≠ none ∧ FailsLast Ts values e)
  | [], _, _ | _ :: _, [], _ => False

theorem extractValues_cons {row : TupleVal (T :: Ts)} {final : Option Failure} :
    extractValues (T :: Ts) (value :: values) status = some (row, final) ↔
      (value.get T = some (.ok row.1) ∧ extractValues Ts values status = some (row.2, final)) ∨
        ∃ e, value.get T = some (.error e) ∧ row.1 = T.default ∧
          extractValues Ts values (some e) = some (row.2, final) := by
  obtain ⟨t, tup⟩ := row
  have hrest (u : T.Val) (rest : Bounded (TupleVal Ts × Option Failure)) :
      (rest.bind fun x => some ((u, x.1), x.2)) = some ((t, tup), final) ↔
        t = u ∧ rest = some (tup, final) := by
    cases rest with
    | none => simp
    | some rest => simp [Prod.ext_iff, and_assoc, eq_comm]
  rw [extractValues]
  cases value.get T with
  | none => simp
  | some x =>
    cases x with
    | ok u => exact (hrest u _).trans (by simp [eq_comm])
    | error e => exact (hrest T.default _).trans (by simp)

theorem extractValues_ok : (Ts : List CppType) → {values : List Value} →
    {status : Option Failure} → {row : TupleVal Ts} →
    (extractValues Ts values status = some (row, none) ↔ status = none ∧ Reads Ts values row)
  | [], _, status, row => by
    constructor
    · rintro ⟨⟩
      exact ⟨rfl, trivial⟩
    · rintro ⟨rfl, -⟩
      rfl
  | _ :: _, [], _, _ => by simp [extractValues, Reads]
  | T :: Ts, value :: values, status, row => by
    refine extractValues_cons.trans ?_
    constructor
    · rintro (⟨hvalue, hrest⟩ | ⟨e, -, -, hrest⟩)
      · obtain ⟨hstatus, hreads⟩ := (extractValues_ok Ts).mp hrest
        exact ⟨hstatus, hvalue, hreads⟩
      · cases ((extractValues_ok Ts).mp hrest).1
    · rintro ⟨hstatus, hvalue, hreads⟩
      exact .inl ⟨hvalue, (extractValues_ok Ts).mpr ⟨hstatus, hreads⟩⟩

theorem extractValues_error : (Ts : List CppType) → {values : List Value} →
    {status : Option Failure} → {e : Failure} →
    ((∃ row, extractValues Ts values status = some (row, some e)) ↔
      (status = some e ∧ ∃ row, Reads Ts values row) ∨ FailsLast Ts values e)
  | [], _, status, e => by
    constructor
    · rintro ⟨row, hrow⟩
      cases hrow
      exact .inl ⟨rfl, (), trivial⟩
    · rintro (⟨rfl, -⟩ | hfails)
      · exact ⟨(), rfl⟩
      · exact False.elim hfails
  | _ :: _, [], _, _ => by simp [extractValues, Reads, FailsLast]
  | T :: Ts, value :: values, status, e => by
    have ih (status : Option Failure) :
        (∃ row, extractValues Ts values status = some (row, some e)) ↔
          (status = some e ∧ ∃ row, Reads Ts values row) ∨ FailsLast Ts values e :=
      extractValues_error Ts
    constructor
    · rintro ⟨row, hrow⟩
      rcases extractValues_cons.mp hrow with ⟨hvalue, hrest⟩ | ⟨e', hvalue, -, hrest⟩
      · rcases (ih status).mp ⟨_, hrest⟩ with ⟨hstatus, tup, hreads⟩ | hfails
        · exact .inl ⟨hstatus, (row.1, tup), hvalue, hreads⟩
        · exact .inr (.inr ⟨by simp [hvalue], hfails⟩)
      · rcases (ih (some e')).mp ⟨_, hrest⟩ with ⟨⟨⟩, hreads⟩ | hfails
        · exact .inr (.inl ⟨hvalue, hreads⟩)
        · exact .inr (.inr ⟨by simp [hvalue], hfails⟩)
    · rintro (⟨hstatus, row, hvalue, hreads⟩ | ⟨hvalue, hreads⟩ | ⟨hvalue, hfails⟩)
      · obtain ⟨tup, hrest⟩ := (ih status).mpr (.inl ⟨hstatus, row.2, hreads⟩)
        exact ⟨(row.1, tup), extractValues_cons.mpr (.inl ⟨hvalue, hrest⟩)⟩
      · obtain ⟨tup, hrest⟩ := (ih (some e)).mpr (.inl ⟨rfl, hreads⟩)
        exact ⟨(T.default, tup), extractValues_cons.mpr (.inr ⟨e, hvalue, rfl, hrest⟩)⟩
      · obtain ⟨x, hx⟩ := Option.ne_none_iff_exists'.mp hvalue
        cases x with
        | ok t =>
          obtain ⟨tup, hrest⟩ := (ih status).mpr (.inr hfails)
          exact ⟨(t, tup), extractValues_cons.mpr (.inl ⟨hx, hrest⟩)⟩
        | error e' =>
          obtain ⟨tup, hrest⟩ := (ih (some e')).mpr (.inr hfails)
          exact ⟨(T.default, tup), extractValues_cons.mpr (.inr ⟨e', hx, rfl, hrest⟩)⟩

def columnAt (Ts : List CppType) (values : List Value) (i : Fin Ts.length) :
    Bounded (StatusOr (Ts.get i).Val) :=
  values[i.val]?.bind (·.get (Ts.get i))

theorem reads_iff : (Ts : List CppType) → {values : List Value} → {row : TupleVal Ts} →
    (Reads Ts values row ↔ ∀ i, columnAt Ts values i = some (.ok (row.get i)))
  | [], _, _ => ⟨fun _ i => i.elim0, fun _ => trivial⟩
  | _ :: _, [], _ => ⟨False.elim, fun h => nomatch h ⟨0, Nat.zero_lt_succ _⟩⟩
  | T :: Ts, value :: values, row =>
    (and_congr_right fun _ => reads_iff Ts).trans (Fin.forall_fin_succ (P := fun i =>
      columnAt (T :: Ts) (value :: values) i = some (.ok (row.get i)))).symm

theorem exists_reads_iff : (Ts : List CppType) → {values : List Value} →
    ((∃ row, Reads Ts values row) ↔ ∀ i, ∃ t, columnAt Ts values i = some (.ok t))
  | [], _ => ⟨fun _ i => i.elim0, fun _ => ⟨(), trivial⟩⟩
  | T :: Ts, [] => by
    refine ⟨fun ⟨_, h⟩ => h.elim, fun h => ?_⟩
    obtain ⟨t, ht⟩ := h ⟨0, Nat.zero_lt_succ _⟩
    cases ht
  | T :: Ts, value :: values => by
    refine Iff.trans ?_ Fin.forall_fin_succ.symm
    refine Iff.trans ?_ (and_congr_right fun _ => exists_reads_iff Ts)
    exact ⟨fun ⟨row, hvalue, hreads⟩ => ⟨⟨row.1, hvalue⟩, row.2, hreads⟩,
      fun ⟨⟨t, hvalue⟩, tup, hreads⟩ => ⟨(t, tup), hvalue, hreads⟩⟩

def FailsLastAt (Ts : List CppType) (values : List Value) (e : Failure) (i : Fin Ts.length) :
    Prop :=
  columnAt Ts values i = some (.error e) ∧ (∀ j < i, columnAt Ts values j ≠ none) ∧
    ∀ j > i, ∃ t, columnAt Ts values j = some (.ok t)

theorem failsLastAt_zero :
    FailsLastAt (T :: Ts) (value :: values) e ⟨0, Nat.zero_lt_succ _⟩ ↔
      value.get T = some (.error e) ∧ ∃ row, Reads Ts values row := by
  refine and_congr_right fun _ => Iff.trans ?_ (exists_reads_iff Ts).symm
  constructor
  · rintro ⟨-, hlater⟩ i
    exact hlater i.succ (Nat.zero_lt_succ _)
  · intro hreads
    refine ⟨fun j hj => absurd hj (Nat.not_lt_zero _), ?_⟩
    rintro ⟨_ | j, hj⟩ hlater
    · exact absurd hlater (Nat.lt_irrefl 0)
    · exact hreads ⟨j, Nat.lt_of_succ_lt_succ hj⟩

theorem failsLastAt_succ {i : Fin Ts.length} :
    FailsLastAt (T :: Ts) (value :: values) e i.succ ↔
      value.get T ≠ none ∧ FailsLastAt Ts values e i := by
  constructor
  · rintro ⟨hfails, hbefore, hlater⟩
    refine ⟨hbefore ⟨0, Nat.zero_lt_succ _⟩ (Nat.zero_lt_succ _), hfails, fun j hj => ?_,
      fun j hj => ?_⟩
    · exact hbefore j.succ (Nat.succ_lt_succ hj)
    · exact hlater j.succ (Nat.succ_lt_succ hj)
  · rintro ⟨hvalue, hfails, hbefore, hlater⟩
    refine ⟨hfails, ?_, ?_⟩
    · rintro ⟨_ | j, hj⟩ hlt
      · exact hvalue
      · exact hbefore ⟨j, Nat.lt_of_succ_lt_succ hj⟩ (Nat.lt_of_succ_lt_succ hlt)
    · rintro ⟨_ | j, hj⟩ hlt
      · exact absurd hlt (Nat.not_lt_zero _)
      · exact hlater ⟨j, Nat.lt_of_succ_lt_succ hj⟩ (Nat.lt_of_succ_lt_succ hlt)

theorem failsLast_iff : (Ts : List CppType) → {values : List Value} → {e : Failure} →
    (FailsLast Ts values e ↔ ∃ i, FailsLastAt Ts values e i)
  | [], _, _ => ⟨False.elim, fun ⟨i, _⟩ => i.elim0⟩
  | T :: Ts, [], _ => ⟨False.elim, fun ⟨_, h, _⟩ => nomatch h⟩
  | T :: Ts, value :: values, e => by
    constructor
    · rintro (hfirst | ⟨hvalue, hlater⟩)
      · exact ⟨_, failsLastAt_zero.mpr hfirst⟩
      · obtain ⟨i, hi⟩ := (failsLast_iff Ts).mp hlater
        exact ⟨i.succ, failsLastAt_succ.mpr ⟨hvalue, hi⟩⟩
    · rintro ⟨⟨_ | i, hlt⟩, hi⟩
      · exact .inl (failsLastAt_zero.mp hi)
      · have hi := (failsLastAt_succ (i := ⟨i, Nat.lt_of_succ_lt_succ hlt⟩)).mp hi
        exact .inr ⟨hi.1, (failsLast_iff Ts).mpr ⟨_, hi.2⟩⟩

theorem map_extractValues_iff (Ts : List CppType) {values : List Value}
    {result : StatusOr (TupleVal Ts)} :
    ((extractValues Ts values none).map fun (tup, status) =>
        match status with
        | some failure => .error failure
        | none => .ok tup) = some result ↔
      match result with
      | .ok tup => ∀ i, columnAt Ts values i = some (.ok (tup.get i))
      | .error e => ∃ i, FailsLastAt Ts values e i := by
  cases result with
  | ok tup =>
    refine Iff.trans ?_ (reads_iff Ts)
    refine Iff.trans ?_ ((extractValues_ok Ts).trans (and_iff_right rfl))
    constructor
    · intro hresult
      obtain ⟨⟨tup', _ | e⟩, hextract, heq⟩ := Option.map_eq_some_iff.mp hresult
      · cases heq
        exact hextract
      · cases heq
    · intro hextract
      rw [hextract]
      rfl
  | error e =>
    have hnone : ¬((none : Option Failure) = some e ∧ ∃ row, Reads Ts values row) := by
      rintro ⟨⟨⟩, -⟩
    refine Iff.trans ?_ (failsLast_iff Ts)
    refine Iff.trans ?_ ((extractValues_error Ts).trans (or_iff_right hnone))
    constructor
    · intro hresult
      obtain ⟨⟨tup, _ | e'⟩, hextract, heq⟩ := Option.map_eq_some_iff.mp hresult
      · cases heq
      · cases heq
        exact ⟨tup, hextract⟩
    · rintro ⟨tup, hextract⟩
      rw [hextract]
      rfl

def column (Ts : List CppType) (row : Row) (i : Fin Ts.length) :
    Bounded (StatusOr (Ts.get i).Val) :=
  getAs (Ts.get i) (row.getAt i)

theorem column_eq {row : Row} (h : row.size = Ts.length) (i : Fin Ts.length) :
    column Ts row i = columnAt Ts row.values i := by
  have hlt : i.val < row.values.length := by
    rw [row.size_eq]
    exact Nat.lt_of_lt_of_eq i.isLt h.symm
  rw [column, columnAt, getAt, List.getElem?_eq_getElem hlt]
  rfl

/-- A row of the right size is a tuple when each of its columns is read at its position, with what
is read there.  Otherwise it fails as the last one of them that fails. -/
theorem getTuple_iff (Ts : List CppType) (row : Row) (result : StatusOr (TupleVal Ts)) :
    row.getTuple Ts = some result ↔
      if row.size = Ts.length then
        match result with
        | .ok tup => ∀ i, column Ts row i = some (.ok (tup.get i))
        | .error e => ∃ i, column Ts row i = some (.error e) ∧ (∀ j < i, column Ts row j ≠ none) ∧
          ∀ j > i, ∃ t, column Ts row j = some (.ok t)
      else result = .error (.of .invalidArgument "Tuple has the wrong number of elements"
        StatusCode.invalidArgument_ne_ok) := by
  rw [getTuple]
  by_cases h : row.size = Ts.length
  · rw [if_neg (not_not_intro h), if_pos h]
    simp only [column_eq h]
    exact map_extractValues_iff Ts
  · rw [if_pos h, if_neg h, Option.some_inj]
    exact eq_comm

end SpannerClient.Row
