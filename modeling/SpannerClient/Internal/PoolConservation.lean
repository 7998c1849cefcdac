import SpannerClient.Internal.PoolAccounting
import SpannerClient.Internal.PoolTransfers

namespace SpannerClient.SessionPool

variable {ι χ : Type}

def Session.place (session : Session χ) : String × Option χ := (session.name, session.channel)

def Event.arrived : Event ι χ → List (String × Option χ)
  | .created _ completed (.ok names) => names.map fun name => (name, some completed.channel)
  | _ => []

def Event.departed : Event ι χ → List (String × Option χ)
  | .allocate _ true (.allocated session) => [Session.place session]
  | .release _ session => if session.isBad then [Session.place session] else []
  | _ => []

def arrivals (tr : List (Event ι χ)) : List (String × Option χ) := tr.flatMap Event.arrived

def departures (tr : List (Event ι χ)) : List (String × Option χ) := tr.flatMap Event.departed

@[simp] theorem arrivals_snoc (tr : List (Event ι χ)) (e : Event ι χ) :
    arrivals (tr ++ [e]) = arrivals tr ++ e.arrived := by
  simp [arrivals]

@[simp] theorem departures_snoc (tr : List (Event ι χ)) (e : Event ι χ) :
    departures (tr ++ [e]) = departures tr ++ e.departed := by
  simp [departures]

theorem Event.arrived_of_isQuiet {e : Event ι χ} (h : e.isQuiet = true) : e.arrived = [] := by
  unfold arrived
  split
  · cases h
  · rfl

theorem Event.departed_of_isQuiet {e : Event ι χ} (h : e.isQuiet = true) : e.departed = [] := by
  unfold departed
  split
  · cases h
  · cases h
  · rfl

theorem newSessions_place (object : Nat) (channel : χ) (now : Int) (names : List String) :
    (newSessions object channel now names).map Session.place =
      names.map fun name => (name, some channel) := by
  calc (newSessions object channel now names).map Session.place
      = ((newSessions object channel now names).map Session.name).map
          fun name => (name, some channel) := by
        rw [List.map_map]
        refine List.map_congr_left fun session hsession => ?_
        obtain ⟨_, -, rfl⟩ := List.mem_map.mp hsession
        rfl
    _ = names.map fun name => (name, some channel) := by rw [newSessions_name]

variable [DecidableEq χ] {s s' : System ι χ} {e : Event ι χ}

theorem Transfers.conserve (h : Transfers s e s') :
    (s'.sessions.map Session.place ++ e.departed).Perm
      (s.sessions.map Session.place ++ e.arrived) := by
  cases h with
  | kept time hquiet hsessions hchecked =>
    rw [Event.departed_of_isQuiet hquiet, Event.arrived_of_isQuiet hquiet, System.sessions,
      System.sessions, hsessions, hchecked, List.map_append, List.map_append, List.map_map]
    exact .refl _
  | @handedOut _ dissociate session _ hsessions hchecked =>
    simp only [System.sessions, hsessions, hchecked]
    cases dissociate with
    | true =>
      simp only [Event.departed, Event.arrived, if_true, List.map_append, List.map_cons,
        List.map_nil, List.append_nil, List.append_assoc]
      exact List.perm_append_comm.append_left _
    | false => simp [Event.departed, Event.arrived]
  | created hperm hchecked =>
    simp only [System.sessions, hchecked, Event.departed, Event.arrived, List.append_nil,
      ← newSessions_place s.objects _ s.clock, ← List.map_append]
    refine List.Perm.map _ ((hperm.append_right _).trans ?_)
    simp only [List.append_assoc]
    exact List.perm_append_comm.append_left _
  | @released _ session _ hmem hchecked hsessions =>
    have herase := (List.perm_cons_erase hmem).map Session.place
    simp only [System.sessions, hsessions, hchecked, Event.departed, Event.arrived,
      List.append_nil, List.map_append, List.append_assoc]
    split
    · exact (List.perm_append_comm.trans herase.symm).append_left _
    · simp only [List.map_append, List.map_cons, List.map_nil, List.append_assoc, List.append_nil]
      exact herase.symm.append_left _
  | @marked session _ hmem hchecked hsessions =>
    have herase := (List.perm_cons_erase hmem).map Session.place
    simp only [System.sessions, hsessions, hchecked, Event.departed, Event.arrived,
      List.append_nil, List.map_append, List.map_cons]
    exact herase.symm.append_left _

variable [DecidableEq ι] [Fintype χ] {options : SessionPoolOptions} {spurious : Prop}
  {tr : List (Event ι χ)}

theorem conserved_run {now : Int} (h : Run (Step options spurious) (System.make now) tr s) :
    (s.sessions.map Session.place ++ departures tr).Perm (arrivals tr) := by
  refine h.history (P := fun tr s =>
    (s.sessions.map Session.place ++ departures tr).Perm (arrivals tr)) (.refl _) ?_
  intro tr s e s' ih hstep
  rw [arrivals_snoc, departures_snoc]
  calc (s'.sessions.map Session.place ++ (departures tr ++ e.departed)).Perm
        ((s'.sessions.map Session.place ++ e.departed) ++ departures tr) := by
        rw [List.append_assoc]
        exact List.perm_append_comm.append_left _
    _ |>.Perm ((s.sessions.map Session.place ++ e.arrived) ++ departures tr) :=
        hstep.transfers.conserve.append_right _
    _ |>.Perm ((s.sessions.map Session.place ++ departures tr) ++ e.arrived) := by
        rw [List.append_assoc, List.append_assoc]
        exact List.perm_append_comm.append_left _
    _ |>.Perm (arrivals tr ++ e.arrived) := ih.append_right _

/-- The sessions that the service created are those that are idle, those that are checked out, and
those that have left the pool, and the pool counts the ones it has. -/
theorem sessions_conserved [Fintype ι] {now : Int}
    (h : Run (Step options spurious) (System.make now) tr s) :
    ((s.pool.sessions ++ s.checkedOut).map Session.place ++ departures tr).Perm (arrivals tr) ∧
      s.pool.totalSessions + (departures tr).length = (arrivals tr).length := by
  have hperm := conserved_run h
  have htotal := ((System.balanced_make now).run h).accounts.total
  rw [System.held, List.length_map] at htotal
  have hlength := hperm.length_eq
  rw [List.length_append, List.length_map] at hlength
  refine ⟨hperm, ?_⟩
  rw [htotal, ← hlength]
  exact (Int.natCast_add _ _).symm

def badSession : Session Unit := { theSession with isBad := true }

def badTrace : List (Event Bool Unit) :=
  checkOutTrace ++ [.setBad theSession, .release true badSession]

theorem run_bad : ∃ s, Run (Step oneSession False) (System.make 0) badTrace s ∧
    s.pool.sessions = [] ∧ s.checkedOut = [] := by
  refine ⟨_, .cons (.call rfl) (.cons (.allocate (.call rfl) (sortedByCount_unit _) rfl)
    (.cons (.created (.sync rfl) (.refl _)) (.cons (.notifyAll rfl)
      (.cons (.allocate (.grown rfl rfl) (sortedByCount_unit _) rfl)
        (.cons (.setBad (List.mem_singleton_self _))
          (.single (.release rfl List.mem_cons_self rfl))))))), ?_, ?_⟩
  · rfl
  · rfl

theorem sessions_conserved_bad : (departures badTrace).Perm (arrivals badTrace) := by
  obtain ⟨s, h, hidle, hout⟩ := run_bad
  have hperm := (sessions_conserved h).1
  rw [hidle, hout] at hperm
  exact hperm

end SpannerClient.SessionPool
