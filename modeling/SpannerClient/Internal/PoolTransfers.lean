import SpannerClient.Internal.PoolSystem

namespace SpannerClient.SessionPool

variable {ι χ : Type}

def Event.handedOut : Event ι χ → Option (Session χ)
  | .allocate _ _ (.allocated session) => some session
  | _ => none

def Event.namesCreated : Event ι χ → List String
  | .created _ _ (.ok names) => names
  | _ => []

def Event.isQuiet : Event ι χ → Bool
  | .allocate _ _ (.allocated _) | .created _ _ (.ok _) | .release _ _ | .setBad _ => false
  | .allocate _ _ _ | .created _ _ (.error _) | .tick _ | .call _ _ | .recheck _
  | .initializePool _ _ | .maintain _ _ | .finishGrow _ _ | .notify _ | .readClock _ | .refresh _ _
  | .wake _ => true

theorem Event.handedOut_of_isQuiet {e : Event ι χ} (h : e.isQuiet = true) : e.handedOut = none := by
  unfold handedOut
  split
  · cases h
  · rfl

theorem Event.namesCreated_of_isQuiet {e : Event ι χ} (h : e.isQuiet = true) :
    e.namesCreated = [] := by
  unfold namesCreated
  split
  · cases h
  · rfl

theorem System.Arrives.sessions [Fintype χ] {options : SessionPoolOptions} {s : System ι χ} {v : ι}
    {dissociate : Bool} {pool : SessionPool χ} (h : s.Arrives options v dissociate pool) :
    pool.sessions = s.pool.sessions := by
  cases h <;> rfl

def Event.sessionsCreated (s : System ι χ) : Event ι χ → List (Session χ)
  | .created _ completed (.ok names) => newSessions s.objects completed.channel s.clock names
  | _ => []

theorem newSessions_object (object : Nat) (channel : χ) (now : Int) (names : List String) :
    (newSessions object channel now names).map Session.object =
      List.range' object names.length := by
  simp [newSessions, Function.comp_def, List.zipIdx_map_snd]

theorem newSessions_name (object : Nat) (channel : χ) (now : Int) (names : List String) :
    (newSessions object channel now names).map Session.name = names := by
  simp [newSessions, Function.comp_def, List.zipIdx_map_fst]

theorem Event.map_object_sessionsCreated (s : System ι χ) (e : Event ι χ) :
    (e.sessionsCreated s).map Session.object = List.range' s.objects e.namesCreated.length := by
  unfold sessionsCreated namesCreated
  split
  · exact newSessions_object _ _ _ _
  · rfl

theorem Event.map_name_sessionsCreated (s : System ι χ) (e : Event ι χ) :
    (e.sessionsCreated s).map Session.name = e.namesCreated := by
  unfold sessionsCreated namesCreated
  split
  · exact newSessions_name _ _ _ _
  · rfl

theorem Event.sessionsCreated_eq_nil {s : System ι χ} {e : Event ι χ} (h : e.namesCreated = []) :
    e.sessionsCreated s = [] := by
  rw [← List.map_eq_nil_iff (f := Session.name), e.map_name_sessionsCreated, h]

namespace System

def sessions (s : System ι χ) : List (Session χ) := s.pool.sessions ++ s.checkedOut

structure Distinct (s : System ι χ) : Prop where
  nodup : (s.sessions.map Session.object).Nodup
  lt : ∀ session ∈ s.sessions, session.object < s.objects

structure Absent (s : System ι χ) (object : Nat) : Prop where
  lt : object < s.objects
  absent : ∀ session ∈ s.sessions, session.object ≠ object

def HasOut (s : System ι χ) (object : Nat) : Prop :=
  ∃ session ∈ s.checkedOut, session.object = object

structure Retired (s : System ι χ) (object : Nat) : Prop where
  lt : object < s.objects
  idle : ∀ session ∈ s.pool.sessions, session.object ≠ object
  bad : ∀ session ∈ s.checkedOut, session.object = object → session.isBad = true

theorem Absent.retired {object : Nat} {s : System ι χ} (h : s.Absent object) :
    s.Retired object where
  lt := h.lt
  idle session hsession := h.absent session (List.mem_append_left _ hsession)
  bad session hsession hobject :=
    absurd hobject (h.absent session (List.mem_append_right _ hsession))

end System

variable [DecidableEq χ]

inductive Transfers (s : System ι χ) : Event ι χ → System ι χ → Prop
  | kept {e : Event ι χ} {s' : System ι χ} (time : Session χ → Int) :
    e.isQuiet = true → s'.pool.sessions = s.pool.sessions.map (fun session =>
      { session with lastUseTime := time session }) →
    s'.checkedOut = s.checkedOut → s.objects ≤ s'.objects → Transfers s e s'
  | handedOut {v : ι} {dissociate : Bool} {session : Session χ} {s' : System ι χ} :
    s.pool.sessions = s'.pool.sessions ++ [session] →
    s'.checkedOut = (if dissociate then s.checkedOut else session :: s.checkedOut) →
    s'.objects = s.objects → Transfers s (.allocate v dissociate (.allocated session)) s'
  | created {v : ι} {call : CreateCount χ} {names : List String} {s' : System ι χ} :
    s'.pool.sessions.Perm
      (s.pool.sessions ++ newSessions s.objects call.channel s.clock names) →
    s'.checkedOut = s.checkedOut → s'.objects = s.objects + names.length →
      Transfers s (.created v call (.ok names)) s'
  | released {v : ι} {session : Session χ} {s' : System ι χ} :
    session ∈ s.checkedOut → s'.checkedOut = s.checkedOut.erase session →
    s'.pool.sessions = (if session.isBad then s.pool.sessions
      else s.pool.sessions ++ [{ session with lastUseTime := s.clock }]) →
    s'.objects = s.objects → Transfers s (.release v session) s'
  | marked {session : Session χ} {s' : System ι χ} :
    session ∈ s.checkedOut →
    s'.checkedOut = { session with isBad := true } :: s.checkedOut.erase session →
    s'.pool.sessions = s.pool.sessions → s'.objects = s.objects →
      Transfers s (.setBad session) s'

theorem Transfers.of_eq {s s' : System ι χ} {e : Event ι χ} (hquiet : e.isQuiet = true)
    (hsessions : s'.pool.sessions = s.pool.sessions)
    (hchecked : s'.checkedOut = s.checkedOut) (hobjects : s.objects ≤ s'.objects) :
    Transfers s e s' :=
  .kept Session.lastUseTime hquiet (by simpa using hsessions) hchecked hobjects

theorem Transfers.objects {s s' : System ι χ} {e : Event ι χ} (h : Transfers s e s') :
    s.objects + e.namesCreated.length ≤ s'.objects := by
  cases h with
  | kept _ hquiet _ _ hobjects => simpa [Event.namesCreated_of_isQuiet hquiet] using hobjects
  | handedOut _ _ hobjects | released _ _ _ hobjects | marked _ _ _ hobjects => exact hobjects.ge
  | created _ _ hobjects => exact hobjects.ge

variable {s s' : System ι χ} {e : Event ι χ}

theorem Step.transfers [DecidableEq ι] [Fintype χ] {options : SessionPoolOptions}
    {spurious : Prop} (h : Step options spurious s e s') : Transfers s e s' := by
  cases h with
  | tick | call | recheck | createFailed | finishGrow | notifyAll | notifyOne | readClock | wake =>
    exact .of_eq rfl rfl rfl le_rfl
  | allocate harrives _ halloc =>
    have hsessions := harrives.sessions
    cases allocates halloc with
    | checkOut hlast =>
      rw [hsessions] at hlast
      exact .handedOut hlast rfl rfl
    | dissociate hlast =>
      rw [hsessions] at hlast
      exact .handedOut hlast rfl rfl
    | fail _ | wait _ _ => exact .of_eq rfl hsessions rfl le_rfl
    | create _ _ _ hgrow =>
      obtain ⟨-, -, rfl⟩ := grow_eq_ok hgrow
      exact .of_eq rfl hsessions rfl le_rfl
  | initializePool _ _ _ hgrow | maintain _ _ _ _ hgrow =>
    obtain ⟨-, -, rfl⟩ := grow_eq_ok hgrow
    exact .of_eq rfl rfl rfl le_rfl
  | created _ hperm => exact .created hperm rfl rfl
  | release _ hmem hrelease =>
    rw [SessionPool.release] at hrelease
    split at hrelease
    · next hbad =>
      cases hrelease
      exact .released hmem rfl (by simp [hbad, discount]) rfl
    · next hbad =>
      cases hrelease
      exact .released hmem rfl (by simp [hbad]) rfl
  | setBad hmem => exact .marked hmem rfl rfl rfl
  | @refresh _ now _ _ _ hrefresh =>
    obtain ⟨bound, time, hpool⟩ := refreshExpiringSessions_pool options now s.clock s.pool
    rw [hrefresh] at hpool
    subst hpool
    exact .kept time rfl rfl rfl le_rfl

theorem Transfers.perm {α : Type} {f : Session χ → α}
    (htime : ∀ session time, f { session with lastUseTime := time } = f session)
    (hbad : ∀ session, f { session with isBad := true } = f session) (h : Transfers s e s') :
    ∃ gone, (s'.sessions.map f ++ gone).Perm (s.sessions.map f ++ (e.sessionsCreated s).map f) := by
  cases h with
  | kept time hquiet hsessions hchecked =>
    refine ⟨[], ?_⟩
    have hnames := Event.namesCreated_of_isQuiet hquiet
    simp [System.sessions, hsessions, hchecked, htime, Event.sessionsCreated_eq_nil hnames,
      Function.comp_def]
  | @handedOut _ dissociate session _ hsessions hchecked =>
    cases dissociate with
    | true =>
      refine ⟨[f session], ?_⟩
      simp only [System.sessions, hsessions, hchecked, Event.sessionsCreated, List.map_append,
        List.map_cons, List.map_nil, List.append_nil, List.append_assoc, if_true]
      exact List.perm_append_comm.append_left _
    | false => exact ⟨[], by simp [System.sessions, hsessions, hchecked, Event.sessionsCreated]⟩
  | created hperm hchecked =>
    refine ⟨[], ?_⟩
    simp only [System.sessions, hchecked, Event.sessionsCreated, List.append_nil,
      ← List.map_append]
    refine List.Perm.map f ((hperm.append_right _).trans ?_)
    simp only [List.append_assoc]
    exact List.perm_append_comm.append_left _
  | @released _ session _ hmem hchecked hsessions =>
    have herase := (List.perm_cons_erase hmem).map f
    by_cases hisBad : session.isBad
    · refine ⟨[f session], ?_⟩
      simp only [System.sessions, hsessions, hchecked, hisBad, if_true, Event.sessionsCreated,
        List.map_append, List.map_nil, List.append_nil, List.append_assoc]
      exact (List.perm_append_comm.trans herase.symm).append_left _
    · rw [if_neg hisBad] at hsessions
      refine ⟨[], ?_⟩
      simp only [System.sessions, hsessions, hchecked, Event.sessionsCreated,
        List.map_append, List.map_cons, List.map_nil, List.append_nil, List.append_assoc, htime]
      exact herase.symm.append_left _
  | @marked session _ hmem hchecked hsessions =>
    refine ⟨[], ?_⟩
    simp only [System.sessions, hsessions, hchecked, Event.sessionsCreated, List.map_append,
      List.map_cons, List.map_nil, List.append_nil, hbad]
    exact ((List.perm_cons_erase hmem).map f).symm.append_left _

namespace System

theorem Distinct.step (hdistinct : s.Distinct) (h : Transfers s e s') : s'.Distinct := by
  obtain ⟨gone, hperm⟩ := h.perm (f := Session.object) (fun _ _ => rfl) fun _ => rfl
  rw [e.map_object_sessionsCreated] at hperm
  have hlt : ∀ object ∈ s.sessions.map Session.object, object < s.objects := by
    simpa using hdistinct.lt
  constructor
  · have hnodup : (s.sessions.map Session.object ++
        List.range' s.objects e.namesCreated.length).Nodup := by
      refine List.nodup_append.mpr ⟨hdistinct.nodup, List.nodup_range', ?_⟩
      rintro object hold _ hnew rfl
      have hge := (List.mem_range'_1.mp hnew).1
      have := hlt object hold
      omega
    exact (List.nodup_append.mp (hperm.symm.nodup hnodup)).1
  · intro session hsession
    have hmem := hperm.subset (List.mem_append_left _ (List.mem_map_of_mem hsession))
    refine lt_of_lt_of_le ?_ h.objects
    rcases List.mem_append.mp hmem with hold | hnew
    · exact (hlt _ hold).trans_le (Nat.le_add_right _ _)
    · exact (List.mem_range'_1.mp hnew).2

theorem Absent.step {object : Nat} (habsent : s.Absent object) (h : Transfers s e s') :
    s'.Absent object := by
  obtain ⟨gone, hperm⟩ := h.perm (f := Session.object) (fun _ _ => rfl) fun _ => rfl
  rw [e.map_object_sessionsCreated] at hperm
  have hlt := habsent.lt
  have hobjects := h.objects
  refine ⟨by omega, fun session hsession hobject => ?_⟩
  have hmem := hperm.subset (List.mem_append_left _ (List.mem_map_of_mem hsession))
  rcases List.mem_append.mp hmem with hold | hnew
  · obtain ⟨session', hsession', hsame⟩ := List.mem_map.mp hold
    exact habsent.absent session' hsession' (hsame.trans hobject)
  · have hge := (List.mem_range'_1.mp hnew).1
    omega

theorem Retired.step {object : Nat} (hretired : s.Retired object) (h : Transfers s e s') :
    s'.Retired object := by
  obtain ⟨hlt, hidle, hbad⟩ := hretired
  have hobjects := h.objects
  refine ⟨by omega, ?_, ?_⟩
  · cases h with
    | kept time _ hsessions => simpa [hsessions] using hidle
    | handedOut hsessions =>
      intro session hsession
      exact hidle session (hsessions ▸ List.mem_append_left _ hsession)
    | created hperm =>
      intro session hsession hobject
      rcases List.mem_append.mp (hperm.subset hsession) with hold | hnew
      · exact hidle session hold hobject
      · have hmem := List.mem_map_of_mem (f := Session.object) hnew
        rw [newSessions_object] at hmem
        have := (List.mem_range'_1.mp hmem).1
        omega
    | @released _ session _ hmem _ hsessions =>
      rw [hsessions]
      split
      · exact hidle
      · next hisBad =>
        have hne : session.object ≠ object := fun hobject => hisBad (hbad session hmem hobject)
        simpa [or_imp, forall_and, hne] using hidle
    | marked _ _ hsessions => rwa [hsessions]
  · cases h with
    | kept _ _ _ hchecked | created _ hchecked => rwa [hchecked]
    | @handedOut _ dissociate session _ hsessions hchecked =>
      have hne : session.object ≠ object :=
        hidle session (hsessions ▸ List.mem_append_right _ (List.mem_singleton_self _))
      cases dissociate with
      | true => simpa [hchecked] using hbad
      | false => simpa [hchecked, hne] using hbad
    | released _ hchecked =>
      intro session hsession
      rw [hchecked] at hsession
      exact hbad session (List.mem_of_mem_erase hsession)
    | marked _ hchecked =>
      intro session hsession
      rw [hchecked] at hsession
      rcases List.mem_cons.mp hsession with rfl | hsession
      · exact fun _ => rfl
      · exact hbad session (List.mem_of_mem_erase hsession)

theorem Retired.not_handedOut {object : Nat} (hretired : s.Retired object) (h : Transfers s e s')
    {session : Session χ} (hsession : e.handedOut = some session) : session.object ≠ object := by
  cases h with
  | kept _ hquiet => cases (Event.handedOut_of_isQuiet hquiet).symm.trans hsession
  | handedOut hsessions =>
    cases hsession
    exact hretired.idle _ (hsessions ▸ List.mem_append_right _ (List.mem_singleton_self _))
  | created | released | marked => cases hsession

theorem Distinct.retired {session : Session χ} (hdistinct : s.Distinct)
    (h : Transfers s (.setBad session) s') : s'.Retired session.object := by
  cases h with
  | kept _ hquiet => cases hquiet
  | marked hmem hchecked hsessions hobjects =>
    have hnodup := hdistinct.nodup
    rw [sessions, List.map_append, List.nodup_append] at hnodup
    refine ⟨?_, fun other hother => ?_, fun other hother hobject => ?_⟩
    · rw [hobjects]
      exact hdistinct.lt session (List.mem_append_right _ hmem)
    · rw [hsessions] at hother
      exact hnodup.2.2 _ (List.mem_map_of_mem hother) _ (List.mem_map_of_mem hmem)
    · rw [hchecked] at hother
      rcases List.mem_cons.mp hother with rfl | hother
      · rfl
      · have herase := (List.perm_cons_erase hmem).map Session.object
        have hnew := (herase.nodup_iff.mp hnodup.2.1)
        rw [List.map_cons, List.nodup_cons] at hnew
        exact absurd (hobject ▸ List.mem_map_of_mem hother) hnew.1

theorem perm_of_dissociated {v : ι} {session : Session χ}
    (h : Transfers s (.allocate v true (.allocated session)) s') :
    (session :: s'.sessions).Perm s.sessions := by
  cases h with
  | kept _ hquiet => cases hquiet
  | handedOut hsessions hchecked =>
    rw [sessions, sessions, hsessions, hchecked, if_pos rfl, List.append_assoc]
    exact List.perm_middle.symm

theorem not_mem_of_dissociated {α : Type} {f : Session χ → α} {v : ι} {session : Session χ}
    (hnodup : (s.sessions.map f).Nodup)
    (h : Transfers s (.allocate v true (.allocated session)) s') :
    f session ∉ s'.sessions.map f := by
  rw [← ((perm_of_dissociated h).map f).nodup_iff, List.map_cons, List.nodup_cons] at hnodup
  exact hnodup.1

theorem Distinct.absent {v : ι} {session : Session χ} (hdistinct : s.Distinct)
    (h : Transfers s (.allocate v true (.allocated session)) s') : s'.Absent session.object where
  lt := by
    have hlt := hdistinct.lt session ((perm_of_dissociated h).subset List.mem_cons_self)
    have hobjects := h.objects
    omega
  absent other hother hobject :=
    not_mem_of_dissociated hdistinct.nodup h (hobject ▸ List.mem_map_of_mem hother)

theorem hasOut_of_transfers {v : ι} {session : Session χ}
    (h : Transfers s (.allocate v false (.allocated session)) s') : s'.HasOut session.object := by
  cases h with
  | kept _ hquiet => cases hquiet
  | handedOut _ hchecked => exact ⟨session, by simp [hchecked], rfl⟩

theorem HasOut.step {object : Nat} (hout : s.HasOut object) (h : Transfers s e s')
    (hheld : ∀ v session, e = .release v session → session.object ≠ object) :
    s'.HasOut object := by
  obtain ⟨session, hsession, hobject⟩ := hout
  cases h with
  | kept _ _ _ hchecked | created _ hchecked => exact ⟨session, by rwa [hchecked], hobject⟩
  | @handedOut _ dissociate _ _ _ hchecked =>
    refine ⟨session, ?_, hobject⟩
    rw [hchecked]
    split
    · exact hsession
    · exact List.mem_cons_of_mem _ hsession
  | @released _ other _ _ hchecked =>
    have hne : session ≠ other := by
      rintro rfl
      exact hheld _ _ rfl hobject
    refine ⟨session, ?_, hobject⟩
    rw [hchecked]
    exact (List.mem_erase_of_ne hne).mpr hsession
  | @marked marked _ _ hchecked =>
    rw [HasOut, hchecked]
    by_cases hsame : session = marked
    · exact ⟨_, List.mem_cons_self, hsame ▸ hobject⟩
    · exact ⟨session, List.mem_cons_of_mem _ ((List.mem_erase_of_ne hsame).mpr hsession), hobject⟩

end System

end SpannerClient.SessionPool
