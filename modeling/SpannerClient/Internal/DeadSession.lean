import SpannerClient.Internal.SessionLifetime

namespace SpannerClient.Lifetime

open SessionPool ConnectionImpl Protobuf

variable {ι σ χ : Type} {conn : ConnectionImpl σ} {v : Visiting σ χ} {object : Nat}

def NotFound (conn : ConnectionImpl σ) (v : Visiting σ χ) : Prop :=
  ∃ report status, v.report = .ok report ∧ isSessionNotFound status = true ∧
    (report.status = status ∨ ∃ loopMessage location,
      report.status = RetryLoop.retryLoopError conn.print loopMessage location status)

def Condemns (v : Visiting σ χ) (object : Nat) : Prop :=
  (∃ report, v.report = .ok report ∧ isSessionNotFound report.status = true) ∧
    ∃ holder, v.after.session = some holder ∧ holder.session.object = object

theorem NotFound.condemns {holder : SessionHolder χ}
    (hprint : ∀ status, status.message.toList <:+: (conn.print status).toList)
    (h : NotFound conn v) (hsession : v.after.session = some holder) :
    Condemns v holder.session.object := by
  obtain ⟨report, status, hreport, hnotFound, hstatus⟩ := h
  refine ⟨⟨report, hreport, ?_⟩, holder, hsession, rfl⟩
  rcases hstatus with rfl | ⟨loopMessage, location, hstatus⟩
  · exact hnotFound
  · rw [hstatus]
    exact RetryLoop.isSessionNotFound_retryLoopError (hprint status) _ _ hnotFound

theorem Condemns.marked (h : Condemns v object) (hruns : v.Runs conn) :
    ⟨.setBad object, ()⟩ ∈ v.trace := by
  obtain ⟨⟨report, hreport, hnotFound⟩, holder, hholder, rfl⟩ := h
  rcases Visiting.uses hruns with ⟨-, hfuel, -⟩ | ⟨t, t', huses, -, hafter⟩
  · cases hreport.symm.trans hfuel
  · rw [hreport] at huses
    rw [hholder] at hafter
    generalize v.trace = tr at huses ⊢
    cases huses with
    | failed hprepares =>
      cases hprepares with
      | failed e hnone => cases hafter.trans hnone
    | served hprepares hserves =>
      have hkept := hprepares.session_of_ok
      rw [← hserves.session, ← hafter] at hkept
      cases hkept
      exact List.mem_append_right _ (hserves.marked _ rfl hnotFound)

structure Buried (object : Nat) (tr : List (Event ι σ χ)) (l : Lifetime ι σ χ) : Prop where
  finished : ∀ v, .finish v ∈ tr → Condemns v object → l.system.Retired object
  visiting : ∀ v left held, l.phase = .visiting v left held → Condemns v object →
    ⟨.setBad object, ()⟩ ∈ left ∨ l.system.Retired object

variable [DecidableEq ι] [Fintype χ] [DecidableEq χ] {options : SessionPoolOptions}
  {spurious : Prop} {l l' l₁ l₂ : Lifetime ι σ χ} {e : Event ι σ χ}
  {tr tr₁ tr₂ : List (Event ι σ χ)}

theorem retired_step (hretired : l.system.Retired object)
    (h : Step conn options spurious l e l') : l'.system.Retired object := by
  obtain ⟨_, htransfers, -⟩ := h.transfers
  exact hretired.step htransfers

theorem retired_of_call (hinv : Inv conn l) {left : List (Exchange σ χ)}
    {held held' : Option (SessionHolder χ)} {s : System ι χ}
    (hphase : l.phase = .visiting v (⟨.setBad object, ()⟩ :: left) held)
    (heffect : Effect options spurious l.system held (⟨.setBad object, ()⟩ : Exchange σ χ) s
      held') : s.Retired object := by
  cases heffect with
  | marked _ _ hstep => exact hinv.distinct.retired hstep.transfers
  | @markedApart holder _ hheld hdissociated =>
    have hholds := hinv.held holder (by rw [hphase]; exact hheld)
    rw [Holds, if_pos hdissociated] at hholds
    cases (hinv.visiting _ _ _ hphase).2 with
    | unserved _ _ => cases hheld
    | served _ hleft =>
      cases hheld
      have hobject : object = holder.session.object := hleft _ List.mem_cons_self
      exact hobject ▸ hholds.retired
  | service _ hsetBad => exact absurd rfl (hsetBad object)

theorem Buried.step (hinv : Inv conn l) (hburied : Buried object tr l)
    (h : Step conn options spurious l e l') : Buried object (tr ++ [e]) l' where
  finished := by
    intro v hv hcondemns
    rcases List.mem_append.mp hv with hv | hv
    · exact retired_step (hburied.finished v hv hcondemns) h
    · cases List.mem_singleton.mp hv
      cases h with
      | finish hphase =>
        rcases hburied.visiting _ _ _ hphase hcondemns with hleft | hretired
        · cases hleft
        · exact hretired
  visiting := by
    intro v left held hvisiting hcondemns
    have hkept := hburied.visiting v
    have hretire : l.system.Retired object → l'.system.Retired object :=
      fun hretired => retired_step hretired h
    cases h with
    | pool hstep => exact (hkept left held hvisiting hcondemns).imp_right hretire
    | begin | beginFromIds | renew | finish | destroy => cases hvisiting
    | visit _ hruns =>
      cases hvisiting
      exact .inl (hcondemns.marked hruns)
    | call hphase heffect =>
      cases hvisiting
      rcases hkept _ _ hphase hcondemns with hleft | hretired
      · rcases List.mem_cons.mp hleft with rfl | hleft
        · exact .inr (retired_of_call hinv hphase heffect)
        · exact .inl hleft
      · exact .inr (hretire hretired)

theorem buried_run (now : Int) (h : Run (Step conn options spurious) (make now) tr l) :
    Inv conn l ∧ Buried object tr l := by
  refine h.history (P := fun tr l => Inv conn l ∧ Buried object tr l) ?_ ?_
  · exact ⟨inv_make now, by simp, fun v left held hphase => by cases hphase⟩
  · rintro tr l e l' ⟨hinv, hburied⟩ hstep
    exact ⟨hinv.step hstep, hburied.step hinv hstep⟩

theorem retired_run (hretired : l₁.system.Retired object)
    (h : Run (Step conn options spurious) l₁ tr l₂) :
    l₂.system.Retired object ∧
      ∀ e ∈ tr, ∀ session, e.handedOut = some session → session.object ≠ object := by
  refine h.history (P := fun tr l => l.system.Retired object ∧ ∀ e ∈ tr, ∀ session,
    e.handedOut = some session → session.object ≠ object) ⟨hretired, by simp⟩ ?_
  rintro tr l e l' ⟨hretired, htr⟩ hstep
  refine ⟨retired_step hretired hstep, fun e' he' session hsession => ?_⟩
  rcases List.mem_append.mp he' with he' | he'
  · exact htr e' he' session hsession
  · cases List.mem_singleton.mp he'
    obtain ⟨_, htransfers, hout, -⟩ := hstep.transfers
    exact hretired.not_handedOut htransfers (hout.trans hsession)

/-- After an operation has failed for want of its session, that session has been marked, and it is
never again idle or handed out. -/
theorem dead_session_not_reused
    (hprint : ∀ status, status.message.toList <:+: (conn.print status).toList) (now : Int)
    (h₁ : Run (Step conn options spurious) (make now) tr₁ l₁) (hv : .finish v ∈ tr₁)
    (hnotFound : NotFound conn v) {holder : SessionHolder χ}
    (hsession : v.after.session = some holder)
    (h₂ : Run (Step conn options spurious) l₁ tr₂ l₂) :
    ⟨.setBad holder.session.object, ()⟩ ∈ v.trace ∧
      (∀ session ∈ l₂.system.pool.sessions, session.object ≠ holder.session.object) ∧
      ∀ e ∈ tr₂, ∀ session, e.handedOut = some session →
        session.object ≠ holder.session.object := by
  have hcondemns := hnotFound.condemns hprint hsession
  have hburied : Buried holder.session.object tr₁ l₁ := (buried_run now h₁).2
  obtain ⟨hretired, hout⟩ := retired_run (hburied.finished v hv hcondemns) h₂
  exact ⟨hcondemns.marked (runs_of_finish (inv_make now) h₁ v hv), hretired.idle, hout⟩

def sessionNotFound : Failure := .of .notFound "Session not found" StatusCode.notFound_ne_ok

def permanentError : Status :=
  RetryLoop.retryLoopError Status.message "Permanent error in" "CommitImpl" sessionNotFound.status

def failedCommit : Visiting ServerStream Unit where
  op := .commit []
  before := newTransaction
  trace := [⟨.allocate false, .ok theSession⟩, ⟨.isExhausted, false⟩,
    ⟨.rpc (.beginTransaction ⟨"session", .readWrite⟩), .error sessionNotFound⟩,
    ⟨.onFailure sessionNotFound.status, false⟩, ⟨.isExhausted, false⟩, ⟨.setBad 0, ()⟩]
  report := .ok ⟨permanentError, []⟩
  after := ⟨.begin, some ⟨theSession, false⟩, .begin .readWrite, 1⟩

theorem failedCommit_runs : failedCommit.Runs serverConn :=
  .call (.call (.call (.call (.call (.call .ret)))))

def failing : List (Event Bool ServerStream Unit) :=
  .begin (.begin .readWrite) :: .visit failedCommit ::
    failedCommit.trace.map .call ++ [.finish failedCommit]

def burying : List (Event Bool ServerStream Unit) :=
  [.destroy, .pool (.release true { theSession with isBad := true })]

theorem run_failing :
    ∃ l₁ l₂, Run (Step serverConn oneSession False) (make 0) (growing false ++ failing) l₁ ∧
      Run (Step serverConn oneSession False) l₁ burying l₂ :=
  ⟨_, _, .cons (.other (.call rfl) nofun)
    (.cons (.other (.allocate (.call rfl) (sortedByCount_unit _) rfl) nofun)
    (.cons (.other (.created (.sync rfl) (.refl _)) nofun)
    (.cons (.other (.notifyAll rfl) nofun)
    (.cons (.begin rfl) (.cons (.visit rfl failedCommit_runs)
    (.cons (.call rfl
      (.allocated (v := true) (.allocate (.grown rfl rfl) (sortedByCount_unit _) rfl)))
    (.cons (.call rfl (.service nofun nofun)) (.cons (.call rfl (.service nofun nofun))
    (.cons (.call rfl (.service nofun nofun)) (.cons (.call rfl (.service nofun nofun))
    (.cons (.call rfl (@Effect.marked _ _ _ _ _ _ _ _ _ _ _ theSession _ rfl rfl
      (.setBad (List.mem_singleton_self _)))) (.single (.finish rfl))))))))))))),
    .cons (.destroy rfl) (.single (.pool (.release rfl List.mem_cons_self rfl) nofun))⟩

theorem dead_session_not_reused_commit :
    ∃ l₁ l₂ : Lifetime Bool ServerStream Unit,
      Run (Step serverConn oneSession False) (make 0) (growing false ++ failing) l₁ ∧
      Run (Step serverConn oneSession False) l₁ burying l₂ ∧
      ⟨.setBad 0, ()⟩ ∈ failedCommit.trace ∧
      (∀ session ∈ l₂.system.pool.sessions, session.object ≠ 0) ∧
      ∀ e ∈ burying, ∀ session, e.handedOut = some session → session.object ≠ 0 := by
  obtain ⟨l₁, l₂, h₁, h₂⟩ := run_failing
  have hsession : failedCommit.after.session = some ⟨theSession, false⟩ := rfl
  refine ⟨l₁, l₂, h₁, h₂, dead_session_not_reused ?_ 0 h₁ ?_ ?_ hsession h₂⟩
  · exact fun status => List.infix_refl _
  · simp [growing, failing]
  · exact ⟨_, _, rfl, by decide, .inr ⟨_, _, rfl⟩⟩

end SpannerClient.Lifetime
