import SpannerClient.Internal.PartitionTransaction
import SpannerClient.Internal.SessionLifetime

namespace SpannerClient.Lifetime

open SessionPool ConnectionImpl Protobuf

variable {ι σ χ : Type} {conn : ConnectionImpl σ} {v : Visiting σ χ} {name : String}

def createdNames (tr : List (Event ι σ χ)) : List String := tr.flatMap Event.namesCreated

theorem createdNames_concat {tr : List (Event ι σ χ)} {e : Event ι σ χ} :
    createdNames (tr ++ [e]) = createdNames tr ++ e.namesCreated := by
  simp [createdNames]

structure Away (tr : List (Event ι σ χ)) (s : System ι χ) (name : String) : Prop where
  created : name ∈ createdNames tr
  absent : ∀ session ∈ s.sessions, session.name ≠ name

def FromPool (holder : SessionHolder χ) : Prop :=
  holder.dissociated = true ∧ holder.session.channel ≠ none

structure Named (tr : List (Event ι σ χ)) (l : Lifetime ι σ χ) : Prop where
  nodup : (l.system.sessions.map Session.name).Nodup
  created : ∀ session ∈ l.system.sessions, session.name ∈ createdNames tr
  channel : ∀ session ∈ l.system.sessions, session.channel ≠ none
  held : ∀ holder, l.phase.held = some holder → FromPool holder →
    Away tr l.system holder.session.name
  visiting : ∀ v left held, l.phase = .visiting v left held → ∀ holder, held = some holder →
    v.before.session = some holder ∨ holder.session.channel ≠ none

theorem named_make (now : Int) : Named [] (make now : Lifetime ι σ χ) where
  nodup := List.nodup_nil
  created := by simp [make, System.make, System.sessions, SessionPool.make]
  channel := by simp [make, System.make, System.sessions, SessionPool.make]
  held holder hholder := by cases hholder
  visiting v left held hphase := by cases hphase

theorem channel_of_sessionsCreated {s : System ι χ} {e : SessionPool.Event ι χ}
    {session : Session χ} (h : session ∈ e.sessionsCreated s) : session.channel ≠ none := by
  unfold SessionPool.Event.sessionsCreated at h
  split at h
  · obtain ⟨_, _, rfl⟩ := List.mem_map.mp h
    exact Option.some_ne_none _
  · cases h

def GivenPartitions (v : Visiting σ χ) : Prop :=
  ∃ response, Answered v.trace response v.op ∧ response.partitions ≠ []

def Partitionable (t : TransactionImpl (SessionHolder χ)) : Prop :=
  ∀ holder, t.session = some holder → FromPool holder

theorem dissociates_of_answers {tr : List (Exchange σ χ)} {session : String}
    {selector : TransactionSelector} {response : PartitionResponse} {op : Operation}
    (h : Answers session selector response tr op) : op.dissociates = true := by
  cases op with
  | partitionRead _ | partitionQuery _ => rfl
  | read _ | executeQuery _ | profileQuery _ | executeDml _ | profileDml _ | analyzeSql _
  | executeBatchDml _ | executePartitionedDml _ | commit _ | rollback => exact h.elim

theorem holder_of_partition (h : v.Runs conn) {report : Report} (hreport : v.report = .ok report)
    {partition : Partition} (hpartition : partition ∈ report.partitions) :
    GivenPartitions v ∧ ∃ holder, v.after.session = some holder ∧
      partition.sessionId = holder.session.name ∧
      (v.before.session = some holder ∨ v.before.session = none ∧ holder.dissociated = true) := by
  cases TransactionImpl.runs_visit h with
  | blocked _ hblocked => cases hreport.symm.trans hblocked
  | @ran t₁ t₂ hrun _ hbefore _ hafter =>
    rw [hreport] at hrun
    have hpartitioned := partitioned_of_reporter hrun
    generalize report.partitions = partitions at hpartitioned hpartition
    cases hpartitioned with
    | none => cases hpartition
    | made holder response hsession hanswers _ _ =>
      have hanswered := hanswers.answered
      refine ⟨⟨response, hanswered, ?_⟩, holder, hafter.trans hsession,
        (Operation.of_mem_partitions hpartition).1, ?_⟩
      · exact fun hnil => List.ne_nil_of_mem hpartition (hanswered.partitions_eq_nil_iff.mpr hnil)
      · rw [← hbefore]
        have hdissociates := dissociates_of_answers hanswers
        have huses := uses_reporter hrun
        generalize v.trace = tr at huses
        cases huses with
        | failed hprepares =>
          cases hprepares with
          | failed e hnone => cases hsession.symm.trans hnone
        | served hprepares hserves =>
          rw [hserves.session] at hsession
          cases hprepares with
          | held => exact .inl hsession
          | allocated session hnone =>
            cases hsession
            exact .inr ⟨hnone, hdissociates⟩

variable [DecidableEq ι] [Fintype χ] [DecidableEq χ] {options : SessionPoolOptions}
  {spurious : Prop} {l l' l₁ l₂ : Lifetime ι σ χ} {e : Event ι σ χ}
  {tr tr₁ tr₂ : List (Event ι σ χ)}

theorem perm_names (h : Step conn options spurious l e l') :
    ∃ gone, (l'.system.sessions.map Session.name ++ gone).Perm
      (l.system.sessions.map Session.name ++ e.namesCreated) := by
  obtain ⟨e', htransfers, -, hnames, -⟩ := h.transfers
  obtain ⟨gone, hperm⟩ := htransfers.perm (f := Session.name) (fun _ _ => rfl) fun _ => rfl
  rw [e'.map_name_sessionsCreated, hnames] at hperm
  exact ⟨gone, hperm⟩

theorem Away.step (haway : Away tr l.system name) (h : Step conn options spurious l e l')
    (hfresh : (createdNames (tr ++ [e])).Nodup) : Away (tr ++ [e]) l'.system name := by
  obtain ⟨gone, hperm⟩ := perm_names h
  rw [createdNames_concat, List.nodup_append] at hfresh
  constructor
  · rw [createdNames_concat]
    exact List.mem_append_left _ haway.created
  · intro session hsession hname
    have hmem := hperm.subset (List.mem_append_left _ (List.mem_map_of_mem hsession))
    rw [hname] at hmem
    rcases List.mem_append.mp hmem with hold | hnew
    · obtain ⟨other, hother, hsame⟩ := List.mem_map.mp hold
      exact haway.absent other hother hsame
    · exact hfresh.2.2 _ haway.created _ hnew rfl

theorem not_mem_of_away (haway : Away tr l.system name) (h : Step conn options spurious l e l')
    {session : Session χ} (hsession : e.handedOut = some session) : session.name ≠ name := by
  obtain ⟨e', htransfers, hout, -⟩ := h.transfers
  rw [← hout] at hsession
  cases htransfers with
  | kept _ hquiet => cases (Event.handedOut_of_isQuiet hquiet).symm.trans hsession
  | handedOut hsessions =>
    cases hsession
    refine haway.absent _ (List.mem_append_left _ ?_)
    rw [hsessions]
    exact List.mem_append_right _ (List.mem_singleton_self _)
  | created | released | marked => cases hsession

namespace Named

variable (hnamed : Named tr l) (h : Step conn options spurious l e l')

include hnamed h

theorem channel_step : ∀ session ∈ l'.system.sessions, session.channel ≠ none := by
  obtain ⟨e', htransfers, -⟩ := h.transfers
  obtain ⟨gone, hperm⟩ := htransfers.perm (f := Session.channel) (fun _ _ => rfl) fun _ => rfl
  intro session hsession
  have hmem := hperm.subset (List.mem_append_left _ (List.mem_map_of_mem hsession))
  rcases List.mem_append.mp hmem with hold | hnew
  · obtain ⟨other, hother, hsame⟩ := List.mem_map.mp hold
    exact hsame ▸ hnamed.channel other hother
  · obtain ⟨other, hother, hsame⟩ := List.mem_map.mp hnew
    exact hsame ▸ channel_of_sessionsCreated hother

theorem visiting_step : ∀ v left held, l'.phase = .visiting v left held → ∀ holder,
    held = some holder → v.before.session = some holder ∨ holder.session.channel ≠ none := by
  cases h with
  | pool => exact hnamed.visiting
  | begin | beginFromIds | renew | finish | destroy =>
    intro v left held hphase
    cases hphase
  | visit _ _ =>
    intro v left held hvisiting holder hholder
    cases hvisiting
    exact .inl hholder
  | call hphase heffect =>
    intro v left held hvisiting holder hholder
    cases hvisiting
    have hkept := hnamed.visiting _ _ _ hphase holder
    cases heffect with
    | allocated hstep =>
      cases hholder
      cases hstep.transfers with
      | kept _ hquiet => cases hquiet
      | handedOut hsessions =>
        refine .inr (hnamed.channel _ (List.mem_append_left _ ?_))
        rw [hsessions]
        exact List.mem_append_right _ (List.mem_singleton_self _)
    | failed | marked _ _ _ | markedApart _ _ | service _ _ => exact hkept hholder

variable (hfresh : (createdNames (tr ++ [e])).Nodup)

include hfresh

theorem held_step (hinv : Inv conn l) : ∀ holder, l'.phase.held = some holder →
    FromPool holder → Away (tr ++ [e]) l'.system holder.session.name := by
  have hkept : ∀ holder, l.phase.held = some holder → FromPool holder →
      Away (tr ++ [e]) l'.system holder.session.name :=
    fun holder hholder hpool => (hnamed.held holder hholder hpool).step h hfresh
  cases h with
  | pool => exact hkept
  | begin | destroy =>
    intro holder hholder
    cases hholder
  | beginFromIds =>
    intro holder hholder hpool
    cases hholder
    exact absurd rfl hpool.2
  | renew hphase | visit hphase =>
    rw [hphase] at hkept
    exact hkept
  | call hphase heffect =>
    rw [hphase] at hkept
    cases heffect with
    | @allocated _ dissociate session _ hstep =>
      intro holder hholder hpool
      cases hholder
      cases hpool.1
      have hperm := System.perm_of_dissociated hstep.transfers
      constructor
      · rw [createdNames_concat]
        exact List.mem_append_left _ (hnamed.created _ (hperm.subset List.mem_cons_self))
      · intro other hother hname
        exact System.not_mem_of_dissociated hnamed.nodup hstep.transfers
          (hname ▸ List.mem_map_of_mem hother)
    | failed | marked _ _ _ | markedApart _ _ | service _ _ => exact hkept
  | finish hphase =>
    rw [hphase] at hkept
    intro holder hholder
    exact hkept holder ((hinv.visiting _ _ _ hphase).2.held_of_nil ▸ hholder)

theorem step (hinv : Inv conn l) : Named (tr ++ [e]) l' := by
  obtain ⟨gone, hperm⟩ := perm_names h
  have hfresh' := hfresh
  rw [createdNames_concat, List.nodup_append] at hfresh'
  have hold : ∀ name ∈ l.system.sessions.map Session.name, name ∈ createdNames tr := by
    simpa using hnamed.created
  refine ⟨?_, ?_, hnamed.channel_step h, hnamed.held_step h hfresh hinv, hnamed.visiting_step h⟩
  · have hnodup : (l.system.sessions.map Session.name ++ e.namesCreated).Nodup :=
      List.nodup_append.mpr ⟨hnamed.nodup, hfresh'.2.1,
        fun name hname => hfresh'.2.2 name (hold name hname)⟩
    exact (List.nodup_append.mp (hperm.symm.nodup hnodup)).1
  · intro session hsession
    have hmem := hperm.subset (List.mem_append_left _ (List.mem_map_of_mem hsession))
    rw [createdNames_concat]
    exact (List.mem_append.mp hmem).elim (fun hmem => List.mem_append_left _ (hold _ hmem))
      (List.mem_append_right _)

end Named

def KeptOut (tr : List (Event ι σ χ)) (s : System ι χ) : Prop :=
  ∀ v, .finish v ∈ tr → ∀ report, v.report = .ok report → ∀ partition ∈ report.partitions,
    Away tr s partition.sessionId

theorem KeptOut.step (hinv : Inv conn l) (hnamed : Named tr l) (hkept : KeptOut tr l.system)
    (h : Step conn options spurious l e l') (hfresh : (createdNames (tr ++ [e])).Nodup)
    (hpartitionable : ∀ v, e = .finish v → GivenPartitions v → Partitionable v.before) :
    KeptOut (tr ++ [e]) l'.system := by
  intro v hv report hreport partition hpartition
  rcases List.mem_append.mp hv with hv | hv
  · exact (hkept v hv report hreport partition hpartition).step h hfresh
  · have hstep := h
    cases List.mem_singleton.mp hv
    cases h with
    | @finish _ held hphase =>
      obtain ⟨hruns, hfollows⟩ := hinv.visiting _ _ _ hphase
      obtain ⟨hgiven, holder, hafter, hname, hbefore⟩ :=
        holder_of_partition hruns hreport hpartition
      have hheld : held = some holder := hfollows.held_of_nil.symm.trans hafter
      have hpool : FromPool holder := by
        rcases hbefore with hbefore | ⟨hnone, hdissociated⟩
        · exact hpartitionable v rfl hgiven holder hbefore
        · refine ⟨hdissociated, ?_⟩
          rcases hnamed.visiting _ _ _ hphase holder hheld with hbefore | hchannel
          · cases hnone.symm.trans hbefore
          · exact hchannel
      rw [hname]
      exact (hnamed.held holder (by rw [hphase]; exact hheld) hpool).step hstep hfresh

theorem keptOut_run (now : Int) (h : Run (Step conn options spurious) (make now) tr l) :
    (createdNames tr).Nodup →
      (∀ v, .finish v ∈ tr → GivenPartitions v → Partitionable v.before) →
        Inv conn l ∧ Named tr l ∧ KeptOut tr l.system := by
  refine h.history (P := fun tr l => (createdNames tr).Nodup →
    (∀ v, .finish v ∈ tr → GivenPartitions v → Partitionable v.before) →
      Inv conn l ∧ Named tr l ∧ KeptOut tr l.system) ?_ ?_
  · exact fun _ _ => ⟨inv_make now, named_make now, fun v hv => by cases hv⟩
  · intro tr l e l' ih hstep hfresh hpartitionable
    have hfresh' := hfresh
    rw [createdNames_concat, List.nodup_append] at hfresh'
    obtain ⟨hinv, hnamed, hkept⟩ :=
      ih hfresh'.1 fun v hv => hpartitionable v (List.mem_append_left _ hv)
    refine ⟨hinv.step hstep, hnamed.step hstep hfresh hinv, ?_⟩
    refine hkept.step hinv hnamed hstep hfresh fun v hv => hpartitionable v ?_
    exact hv ▸ List.mem_append_right _ (List.mem_singleton_self _)

theorem away_run (haway : Away tr₁ l₁.system name)
    (h : Run (Step conn options spurious) l₁ tr₂ l₂) : (createdNames (tr₁ ++ tr₂)).Nodup →
      Away (tr₁ ++ tr₂) l₂.system name ∧
        ∀ e ∈ tr₂, ∀ session, e.handedOut = some session → session.name ≠ name := by
  refine h.history (P := fun tr l => (createdNames (tr₁ ++ tr)).Nodup →
    Away (tr₁ ++ tr) l.system name ∧
      ∀ e ∈ tr, ∀ session, e.handedOut = some session → session.name ≠ name) ?_ ?_
  · intro _
    rw [List.append_nil]
    exact ⟨haway, by simp⟩
  · intro tr l e l' ih hstep hfresh
    rw [← List.append_assoc] at hfresh ⊢
    have hfresh' := hfresh
    rw [createdNames_concat, List.nodup_append] at hfresh'
    obtain ⟨haway, hout⟩ := ih hfresh'.1
    refine ⟨haway.step hstep hfresh, fun e' he' session hsession => ?_⟩
    rcases List.mem_append.mp he' with he' | he'
    · exact hout e' he' session hsession
    · cases List.mem_singleton.mp he'
      exact not_mem_of_away haway hstep hsession

/-- If partitions are made only where the pool will not get the session back, no session that a
partition names is idle or handed out again. -/
theorem partitioned_session_kept_out (now : Int)
    (h₁ : Run (Step conn options spurious) (make now) tr₁ l₁)
    (h₂ : Run (Step conn options spurious) l₁ tr₂ l₂)
    (hfresh : (createdNames (tr₁ ++ tr₂)).Nodup)
    (hpartitionable : ∀ v, .finish v ∈ tr₁ → GivenPartitions v → Partitionable v.before)
    {report : Report} (hv : .finish v ∈ tr₁) (hreport : v.report = .ok report)
    {partition : Partition} (hpartition : partition ∈ report.partitions) :
    (∀ session ∈ l₂.system.pool.sessions, session.name ≠ partition.sessionId) ∧
      ∀ e ∈ tr₂, ∀ session, e.handedOut = some session →
        session.name ≠ partition.sessionId := by
  have hfresh₁ : (createdNames tr₁).Nodup := by
    rw [createdNames, List.flatMap_append, List.nodup_append] at hfresh
    exact hfresh.1
  obtain ⟨-, -, hkept⟩ := keptOut_run now h₁ hfresh₁ hpartitionable
  obtain ⟨haway, hout⟩ := away_run (hkept v hv report hreport partition hpartition) h₂ hfresh
  exact ⟨fun session hsession => haway.absent session (List.mem_append_left _ hsession), hout⟩

def partitioningFirst : Visiting ServerStream Unit where
  op := firstPartitionRead.op
  before := newTransaction
  trace := firstPartitionRead.trace
  report := .ok firstPartitionRead.report
  after := firstPartitionRead.after

def partitioning : List (Event Bool ServerStream Unit) :=
  .begin (.begin .readWrite) :: .visit partitioningFirst ::
    partitioningFirst.trace.map .call ++ [.finish partitioningFirst]

theorem run_partitioning :
    ∃ l₁ l₂, Run (Step serverConn oneSession False) (make 0) (growing true ++ partitioning) l₁ ∧
      Run (Step serverConn oneSession False) l₁ [.destroy] l₂ :=
  ⟨_, _, .cons (.other (.call rfl) nofun)
    (.cons (.other (.allocate (.call rfl) (sortedByCount_unit _) rfl) nofun)
    (.cons (.other (.created (.sync rfl) (.refl _)) nofun)
    (.cons (.other (.notifyAll rfl) nofun)
    (.cons (.begin rfl) (.cons (.visit rfl firstPartitionRead_reports.runs)
    (.cons (.call rfl
      (.allocated (v := true) (.allocate (.grown rfl rfl) (sortedByCount_unit _) rfl)))
    (.cons (.call rfl (.service nofun nofun)) (.cons (.call rfl (.service nofun nofun))
    (.single (.finish rfl)))))))))), .single (.destroy rfl)⟩

theorem partitioned_session_kept_out_first :
    ∃ l₁ l₂ : Lifetime Bool ServerStream Unit,
      Run (Step serverConn oneSession False) (make 0) (growing true ++ partitioning) l₁ ∧
      Run (Step serverConn oneSession False) l₁ [.destroy] l₂ ∧
      (∀ session ∈ l₂.system.pool.sessions, session.name ≠ (partition "txn").sessionId) ∧
      ∀ e ∈ [(.destroy : Event Bool ServerStream Unit)], ∀ session, e.handedOut = some session →
        session.name ≠ (partition "txn").sessionId := by
  obtain ⟨l₁, l₂, h₁, h₂⟩ := run_partitioning
  have hfinish : .finish partitioningFirst ∈ growing true ++ partitioning := by
    simp [growing, partitioning]
  have hpartition : partition "txn" ∈ firstPartitionRead.report.partitions :=
    List.mem_singleton_self _
  refine ⟨l₁, l₂, h₁, h₂,
    partitioned_session_kept_out 0 h₁ h₂ (by decide) ?_ hfinish rfl hpartition⟩
  intro v hv _ holder hholder
  obtain rfl : v = partitioningFirst := by simpa [growing, partitioning] using hv
  cases hholder

def executingDml : Visiting ServerStream Unit where
  op := .executeDml ⟨⟨"DELETE FROM Singers WHERE true", [], List.nodup_nil⟩, ⟨none⟩, none⟩
  before := newTransaction
  trace := [⟨.allocate false, .ok theSession⟩, ⟨.isExhausted, false⟩,
    ⟨.rpc (.executeSql ⟨"session", .begin .readWrite, ⟨"DELETE FROM Singers WHERE true", [], []⟩,
      1, .normal, "", none⟩), .ok ⟨some ⟨[], some ⟨"txn", none⟩⟩, none⟩⟩]
  report := .ok ⟨.success, []⟩
  after := ⟨.done, some ⟨theSession, false⟩, .id "txn", 1⟩

def partitioningAfter : Visiting ServerStream Unit where
  op := .partitionRead partitionReadParams
  before := executingDml.after
  trace := [⟨.isExhausted, false⟩,
    ⟨.rpc (.partitionRead { partitionReadRequest with transaction := .id "txn" }),
      .ok ⟨["token"], none⟩⟩]
  report := .ok ⟨.success, [partition ""]⟩
  after := ⟨.done, some ⟨theSession, false⟩, .id "txn", 2⟩

def executing : List (Event Bool ServerStream Unit) :=
  [.begin (.begin .readWrite), .visit executingDml] ++ executingDml.trace.map .call ++
    [.finish executingDml, .visit partitioningAfter] ++ partitioningAfter.trace.map .call ++
    [.finish partitioningAfter, .destroy, .pool (.release true theSession)]

/-- The session that the partition names is idle again. -/
theorem partitioned_session_returned :
    ∃ l : Lifetime Bool ServerStream Unit,
      Run (Step serverConn oneSession False) (make 0) (growing false ++ executing) l ∧
      (createdNames (growing false ++ executing)).Nodup ∧
      .finish partitioningAfter ∈ growing false ++ executing ∧
      partitioningAfter.report = .ok ⟨.success, [partition ""]⟩ ∧
      ∃ session ∈ l.system.pool.sessions, session.name = (partition "").sessionId := by
  refine ⟨_, .cons (.other (.call rfl) nofun)
    (.cons (.other (.allocate (.call rfl) (sortedByCount_unit _) rfl) nofun)
    (.cons (.other (.created (.sync rfl) (.refl _)) nofun)
    (.cons (.other (.notifyAll rfl) nofun)
    (.cons (.begin rfl) (.cons (.visit rfl (.call (.call (.call .ret))))
    (.cons (.call rfl
      (.allocated (v := true) (.allocate (.grown rfl rfl) (sortedByCount_unit _) rfl)))
    (.cons (.call rfl (.service nofun nofun)) (.cons (.call rfl (.service nofun nofun))
    (.cons (.finish rfl) (.cons (.visit rfl (.call (.call .ret)))
    (.cons (.call rfl (.service nofun nofun)) (.cons (.call rfl (.service nofun nofun))
    (.cons (.finish rfl) (.cons (.destroy rfl)
    (.single (.pool (.release rfl List.mem_cons_self rfl) nofun)))))))))))))))), by decide,
    by simp [executing], rfl, theSession, List.mem_singleton_self _, rfl⟩

end SpannerClient.Lifetime
