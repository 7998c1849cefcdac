import SpannerClient.Internal.DeadSession

namespace SpannerClient

namespace SessionPool

variable {ι χ : Type}

def namesCreated (tr : List (Event ι χ)) : List String := tr.flatMap Event.namesCreated

def Event.returned : Event ι χ → Option String
  | .release _ session => if session.isBad then none else some session.name
  | _ => none

variable [DecidableEq χ] {s s' : System ι χ} {e : Event ι χ} {name : String}

namespace System

/-- The pool tells its sessions apart by their names, of which there are no others. -/
structure Named (names : List String) (s : System ι χ) : Prop where
  nodup : (s.sessions.map Session.name).Nodup
  created : ∀ name ∈ s.sessions.map Session.name, name ∈ names

theorem Named.step {names : List String} (h : Named names s) (htransfers : Transfers s e s')
    (hfresh : (names ++ e.namesCreated).Nodup) : Named (names ++ e.namesCreated) s' := by
  obtain ⟨gone, hperm⟩ := htransfers.perm (f := Session.name) (fun _ _ => rfl) fun _ => rfl
  rw [e.map_name_sessionsCreated] at hperm
  obtain ⟨-, hnames, hdisjoint⟩ := List.nodup_append.mp hfresh
  constructor
  · have hall : (s.sessions.map Session.name ++ e.namesCreated).Nodup :=
      List.nodup_append.mpr ⟨h.nodup, hnames, fun name hname =>
        hdisjoint name (h.created name hname)⟩
    exact (List.nodup_append.mp (hperm.symm.nodup hall)).1
  · intro name hname
    rcases List.mem_append.mp (hperm.subset (List.mem_append_left _ hname)) with hold | hnew
    · exact List.mem_append_left _ (h.created name hold)
    · exact List.mem_append_right _ hnew

def Lacks (s : System ι χ) (name : String) : Prop := name ∉ s.pool.sessions.map Session.name

theorem Lacks.step (h : s.Lacks name) (htransfers : Transfers s e s')
    (hcreated : name ∉ e.namesCreated) (hreturned : e.returned ≠ some name) : s'.Lacks name := by
  rw [Lacks] at h ⊢
  cases htransfers with
  | kept time _ hsessions =>
    rw [hsessions]
    simpa using h
  | handedOut hsessions =>
    rw [hsessions, List.map_append] at h
    exact fun hname => h (List.mem_append_left _ hname)
  | created hperm =>
    intro hname
    have hmem := (hperm.map Session.name).subset hname
    rw [List.map_append] at hmem
    rcases List.mem_append.mp hmem with hold | hnew
    · exact h hold
    · rw [newSessions_name] at hnew
      exact hcreated hnew
  | @released _ session _ _ _ hsessions =>
    rw [hsessions]
    split
    · exact h
    · next hbad =>
      have hne : session.name ≠ name := fun hname => hreturned (by
        rw [Event.returned, if_neg hbad, hname])
      simpa [Ne.symm hne] using h
  | marked _ _ hsessions => rwa [hsessions]

def Without (s : System ι χ) (name : String) : Prop := name ∉ s.sessions.map Session.name

theorem Without.step (h : s.Without name) (htransfers : Transfers s e s')
    (hcreated : name ∉ e.namesCreated) : s'.Without name := by
  obtain ⟨gone, hperm⟩ := htransfers.perm (f := Session.name) (fun _ _ => rfl) fun _ => rfl
  rw [e.map_name_sessionsCreated] at hperm
  intro hname
  rcases List.mem_append.mp (hperm.subset (List.mem_append_left _ hname)) with hold | hnew
  · exact h hold
  · exact hcreated hnew

omit [DecidableEq χ] in
theorem Without.lacks (h : s.Without name) : s.Lacks name := fun hname =>
  h (by rw [sessions, List.map_append]; exact List.mem_append_left _ hname)

end System

theorem lacks_of_handedOut {v : ι} {dissociate : Bool} {session : Session χ}
    (hnodup : (s.sessions.map Session.name).Nodup)
    (h : Transfers s (.allocate v dissociate (.allocated session)) s') :
    session.name ∈ s.pool.sessions.map Session.name ∧ s'.Lacks session.name := by
  cases h with
  | kept _ hquiet => cases hquiet
  | handedOut hsessions =>
    rw [System.sessions, List.map_append] at hnodup
    have hidle := (List.nodup_append.mp hnodup).1
    rw [hsessions, List.map_append] at hidle ⊢
    refine ⟨List.mem_append_right _ (List.mem_singleton_self _), fun hname => ?_⟩
    exact (List.nodup_append.mp hidle).2.2 _ hname _ (List.mem_singleton_self _) rfl

theorem without_of_dissociated {v : ι} {session : Session χ}
    (hnodup : (s.sessions.map Session.name).Nodup)
    (h : Transfers s (.allocate v true (.allocated session)) s') : s'.Without session.name :=
  System.not_mem_of_dissociated hnodup h

section

variable [DecidableEq ι] [Fintype χ] {options : SessionPoolOptions} {spurious : Prop}
  {tr tr₁ tr₂ : List (Event ι χ)} {s₁ s₂ s₃ s₄ : System ι χ}

theorem named_run {now : Int} (h : Run (Step options spurious) (System.make now) tr s)
    (hfresh : (namesCreated tr).Nodup) : s.Named (namesCreated tr) := by
  refine h.history (P := fun tr s => (namesCreated tr).Nodup → s.Named (namesCreated tr)) ?_ ?_
    hfresh
  · exact fun _ => ⟨List.nodup_nil, fun _ hname => (List.not_mem_nil hname).elim⟩
  · intro tr s e s' ih hstep hfresh
    rw [namesCreated, List.flatMap_append, List.flatMap_singleton] at hfresh ⊢
    exact (ih (List.nodup_append.mp hfresh).1).step hstep.transfers hfresh

theorem lacks_run (h : Run (Step options spurious) s tr s') (hlacks : s.Lacks name)
    (hcreated : name ∉ namesCreated tr) (hreturned : ∀ e ∈ tr, e.returned ≠ some name) :
    s'.Lacks name := by
  refine h.history (P := fun tr s' => name ∉ namesCreated tr →
    (∀ e ∈ tr, e.returned ≠ some name) → s'.Lacks name) (fun _ _ => hlacks) ?_ hcreated hreturned
  intro tr s e s' ih hstep hcreated hreturned
  rw [namesCreated, List.flatMap_append, List.flatMap_singleton, List.mem_append,
    not_or] at hcreated
  exact (ih hcreated.1 fun e he => hreturned e (List.mem_append_left _ he)).step hstep.transfers
    hcreated.2 (hreturned e (List.mem_append_right _ (List.mem_singleton_self _)))

theorem without_run (h : Run (Step options spurious) s tr s') (hwithout : s.Without name)
    (hcreated : name ∉ namesCreated tr) : s'.Without name := by
  refine h.history (P := fun tr s' => name ∉ namesCreated tr → s'.Without name)
    (fun _ => hwithout) ?_ hcreated
  intro tr s e s' ih hstep hcreated
  rw [namesCreated, List.flatMap_append, List.flatMap_singleton, List.mem_append,
    not_or] at hcreated
  exact (ih hcreated.1).step hstep.transfers hcreated.2

/-- Between two times that a session is handed out it has been returned, and the first time was not
for good. -/
theorem returned_between {now : Int} {v v' : ι} {dissociate dissociate' : Bool} {a b : Session χ}
    (h₁ : Run (Step options spurious) (System.make now) tr₁ s₁)
    (ha : Step options spurious s₁ (.allocate v dissociate (.allocated a)) s₂)
    (h₂ : Run (Step options spurious) s₂ tr₂ s₃)
    (hb : Step options spurious s₃ (.allocate v' dissociate' (.allocated b)) s₄)
    (hfresh : (namesCreated tr₁ ++ namesCreated tr₂).Nodup) (hname : a.name = b.name) :
    dissociate = false ∧ ∃ e ∈ tr₂, e.returned = some a.name := by
  obtain ⟨hfresh₁, -, hdisjoint⟩ := List.nodup_append.mp hfresh
  have hnamed := named_run h₁ hfresh₁
  obtain ⟨hidle, hlacks⟩ := lacks_of_handedOut hnamed.nodup ha.transfers
  have hcreated : a.name ∉ namesCreated tr₂ := fun hmem => by
    refine hdisjoint _ (hnamed.created _ ?_) _ hmem rfl
    rw [System.sessions, List.map_append]
    exact List.mem_append_left _ hidle
  have hback : ¬ s₃.Lacks a.name := by
    intro hlacks
    cases hb.transfers with
    | kept _ hquiet => cases hquiet
    | handedOut hsessions =>
      rw [System.Lacks, hsessions, List.map_append, hname] at hlacks
      exact hlacks (List.mem_append_right _ (List.mem_singleton_self _))
  constructor
  · by_contra hdissociate
    rw [Bool.not_eq_false] at hdissociate
    subst hdissociate
    exact hback (without_run h₂ (without_of_dissociated hnamed.nodup ha.transfers) hcreated).lacks
  · by_contra hnone
    push Not at hnone
    exact hback (lacks_run h₂ hlacks hcreated hnone)

end

def handedBack : List (Event Bool Unit) := [.release true theSession, .call false true]

theorem run_again : ∃ s₁ s₂ s₃ s₄,
    Run (Step oneSession False) (System.make 0) (checkOutTrace.take 4) s₁ ∧
    Step oneSession False s₁ (.allocate true false (.allocated theSession)) s₂ ∧
    Run (Step oneSession False) s₂ handedBack s₃ ∧
    Step oneSession False s₃ (.allocate false true (.allocated theSession)) s₄ :=
  ⟨_, _, _, _, .cons (.call rfl) (.cons (.allocate (.call rfl) (sortedByCount_unit _) rfl)
      (.cons (.created (.sync rfl) (.refl _)) (.single (.notifyAll rfl)))),
    .allocate (.grown rfl rfl) (sortedByCount_unit _) rfl,
    .cons (.release rfl (List.mem_singleton_self _) rfl) (.single (.call rfl)),
    .allocate (.call rfl) (sortedByCount_unit _) rfl⟩

theorem returned_between_again :
    ∃ e ∈ handedBack, e.returned = some "session" := by
  obtain ⟨s₁, s₂, s₃, s₄, h₁, ha, h₂, hb⟩ := run_again
  exact (returned_between h₁ ha h₂ hb (by decide) rfl).2

end SessionPool

namespace Lifetime

open SessionPool ConnectionImpl

variable {ι σ χ : Type}

theorem Holds.ne_idle {s : System ι χ} {holder : SessionHolder χ} {session : Session χ}
    (h : Holds s holder) (hdistinct : s.Distinct) (hidle : session ∈ s.pool.sessions) :
    session.object ≠ holder.session.object := by
  rw [Holds] at h
  split at h
  · exact h.absent session (List.mem_append_left _ hidle)
  · obtain ⟨held, hheld, hobject⟩ := h
    have hnodup := hdistinct.nodup
    rw [System.sessions, List.map_append] at hnodup
    rw [← hobject]
    exact (List.nodup_append.mp hnodup).2.2 _ (List.mem_map_of_mem hidle) _
      (List.mem_map_of_mem hheld)

variable [DecidableEq ι] [Fintype χ] [DecidableEq χ] {conn : ConnectionImpl σ}
  {options : SessionPoolOptions} {spurious : Prop} {l l' : Lifetime ι σ χ}
  {tr : List (Event ι σ χ)} {e : Event ι σ χ}

theorem idle_of_handedOut {session : Session χ} (h : Step conn options spurious l e l')
    (hout : e.handedOut = some session) : session ∈ l.system.pool.sessions := by
  obtain ⟨e', htransfers, hsame, -⟩ := h.transfers
  rw [← hsame] at hout
  cases htransfers with
  | kept _ hquiet => cases (SessionPool.Event.handedOut_of_isQuiet hquiet).symm.trans hout
  | handedOut hsessions =>
    cases hout
    rw [hsessions]
    exact List.mem_append_right _ (List.mem_singleton_self _)
  | created | released | marked => cases hout

/-- While a transaction has a session, no other transaction is given it. -/
theorem held_alone {now : Int} {holder : SessionHolder χ} {session : Session χ}
    (h : Run (Step conn options spurious) (make now) tr l) (hheld : l.phase.held = some holder)
    (hstep : Step conn options spurious l e l') (hout : e.handedOut = some session) :
    session.object ≠ holder.session.object := by
  have hinv : Inv conn l := h.invariant (inv_make now) fun _ _ _ hinv hstep => hinv.step hstep
  exact (hinv.held holder hheld).ne_idle hinv.distinct (idle_of_handedOut hstep hout)

def twoSessions : SessionPoolOptions := ⟨1, 2, 1, .block, 3300⟩

def otherSession : Session Unit := ⟨1, "other", some (), false, 0⟩

def sharing : List (Event Bool ServerStream Unit) :=
  [.pool (.call true false), .pool (.allocate true false (.create [⟨(), 2⟩])),
    .pool (.created true ⟨(), 2⟩ (.ok ["session", "other"])), .pool (.notify true),
    .begin (.begin .readWrite), .visit failedCommit, .call ⟨.allocate false, .ok theSession⟩,
    .pool (.call false false)]

theorem run_sharing : ∃ l l', Run (Step serverConn twoSessions False) (make 0) sharing l ∧
    l.phase.held = some ⟨theSession, false⟩ ∧
    Step serverConn twoSessions False l
      (.pool (.allocate false false (.allocated otherSession))) l' :=
  ⟨_, _, .cons (.other (.call rfl) nofun)
    (.cons (.other (.allocate (.call rfl) (sortedByCount_unit _) rfl) nofun)
    (.cons (.other (.created (.sync rfl) (.swap _ _ _)) nofun)
    (.cons (.other (.notifyAll rfl) nofun)
    (.cons (.begin rfl) (.cons (.visit rfl failedCommit_runs)
    (.cons (.call rfl
      (.allocated (v := true) (.allocate (.grown rfl rfl) (sortedByCount_unit _) rfl)))
    (.single (.other (.call rfl) nofun)))))))), rfl,
    .other (.allocate (.call rfl) (sortedByCount_unit _) rfl) nofun⟩

theorem held_alone_sharing : otherSession.object ≠ theSession.object := by
  obtain ⟨l, l', hrun, hheld, hstep⟩ := run_sharing
  exact held_alone hrun hheld hstep rfl

end Lifetime

end SpannerClient
