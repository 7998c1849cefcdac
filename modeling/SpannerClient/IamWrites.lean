import SpannerClient.IamUpdates

/-! Clients that update the IAM policies of one server at the same time: no update is lost. -/

namespace SpannerClient.Iam

open Network (Trace)

variable {ι β : Type} [DecidableEq ι] {clients : ι → Invocation} {server : String → History β}
  {tr : Trace ι (Reply (β := β))}
  {w : Network.World ι Reply (Except Abort (StatusOr (Policy β)) × Unit) (String → History β)}
  {i : ι}

/-- The last call of the updater by a client: what it was passed, and what it returned. -/
def lastUpdate (i : ι) (tr : Trace ι (Reply (β := β))) : Option (Policy β × Option (Policy β)) :=
  ((tr.exchanges i).foldl (fun g exchange => g.next exchange.1 exchange.2) Progress.start).update

/-- The message was sent after the updater had made `desired` of `current`, and not been called
again. -/
def MadeFrom (tr : Trace ι (Reply (β := β))) (m : Network.Message ι (Call β))
    (current desired : Policy β) : Prop :=
  ∃ before after, tr = before ++ .sent m :: after ∧
    lastUpdate m.client before = some (current, some desired)

section

variable (h : Run (Network.Step service) (.start (fun i => (clients i).program ()) server) tr w)

include h

theorem served_of_mem {request : Request β} {policy : Policy β}
    (hmem : ⟨.rpc request, .ok policy⟩ ∈ tr.exchanges i) :
    ∃ number, some ⟨⟨i, number, .rpc request⟩, .ok policy⟩ ∈ tr.deeds := by
  have hdone := (Network.Sound.run h).done i _ _ (Trace.mem_exchanges.mp hmem) rfl
  obtain ⟨number, hserved⟩ := hdone.resolve_left fun hloses => by cases hloses
  exact ⟨number, Trace.mem_deeds.mpr hserved⟩

theorem obeys_of_run : (contract (clients i).resource).Obeys .start (tr.exchanges i) :=
  ((Network.Sound.run h).client i).obeys (clients i).keeps_program

/-- What an updater is passed is a version of the server. -/
theorem version_of_updater {current : Policy β} {reply : Option (Policy β)}
    (hmem : ⟨.updater current, reply⟩ ∈ tr.exchanges i) :
    current ∈ (w.server (clients i).resource).versions := by
  obtain ⟨number, hread⟩ := served_of_mem h (read_of_updater (obeys_of_run h) hmem)
  exact (memory.run (Network.Sound.run h).server).knows _ hread

end

/-- Whatever the updaters return, whichever replies are lost and however often requests are made
again: what an accepted write replaces is what the updater was passed to make it. -/
theorem accepted_replaces_read
    (h : Run (Network.Step service) (.start (fun i => (clients i).program ()) server) tr w)
    {number : Nat} {resource : String} {policy written : Policy β}
    (haccepted : .served ⟨⟨i, number, .rpc (.setIamPolicy resource policy)⟩, .ok written⟩ ∈ tr) :
    ∃ replaced desired newer older,
      (w.server resource).versions = newer ++ written :: replaced :: older ∧
      MadeFrom tr ⟨i, number, .rpc (.setIamPolicy resource policy)⟩ replaced desired ∧
      policy = { desired with etag := replaced.etag } ∧ written.bindings = desired.bindings := by
  have hsound := Network.Sound.run h
  obtain ⟨hbindings, hwrote⟩ :=
    (memory.run hsound.server).knows _ (Trace.mem_deeds.mpr haccepted)
  obtain ⟨before, after, rfl⟩ := List.append_of_mem
    (hsound.mem_sent (List.mem_filterMap.mpr ⟨_, haccepted, rfl⟩))
  obtain ⟨rfl, current, desired, hupdate, rfl⟩ :=
    Network.Sound.allows_of_sent h (clients i).keeps_program
  have hexchange := Trace.mem_exchanges.mp (mem_of_update hupdate)
  have hcurrent : current ∈ (w.server (clients i).resource).versions :=
    version_of_updater h (Trace.mem_exchanges.mpr (List.mem_append_left _ hexchange))
  obtain ⟨newer, older, hversions⟩ := hwrote.over hcurrent rfl
  exact ⟨current, desired, newer, older, hversions, ⟨before, after, rfl, hupdate⟩, rfl, hbindings⟩

/-- A call that succeeds returns what its updater left as it was, or what it made of a version: then
this has been written over that very version, and no other write of a client has, not even the same
one again. -/
theorem updated_once {policy : Policy β}
    (h : Run (Network.Step service) (.start (fun i => (clients i).program ()) server) tr w)
    (hret : (w.client i).rest = .ret (.ok (.ok policy), ())) :
    ∃ current reply, lastUpdate i tr = some (current, reply) ∧
      match reply with
      | none => policy = current ∧ current ∈ (w.server (clients i).resource).versions
      | some desired => policy.bindings = desired.bindings ∧
        (∃ newer older,
          (w.server (clients i).resource).versions = newer ++ policy :: current :: older) ∧
        ∃ number, tr.deeds.filter (replaced · = some ((clients i).resource, current.etag)) =
          [some ⟨⟨i, number, .rpc (.setIamPolicy (clients i).resource
            { desired with etag := current.etag })⟩, .ok policy⟩] := by
  have hsound := Network.Sound.run h
  have hrecalls := memory.run hsound.server
  obtain ⟨current, reply, hupdate, hgives⟩ := (Interaction.Keeps.post_of_runs
    (clients i).keeps_program (hsound.runs_of_ret hret)) policy rfl
  have hcurrent : current ∈ (w.server (clients i).resource).versions :=
    version_of_updater h (mem_of_update hupdate)
  refine ⟨current, reply, hupdate, ?_⟩
  cases reply with
  | none => exact ⟨hgives, hcurrent⟩
  | some desired =>
    obtain ⟨number, hwrite⟩ := served_of_mem h (mem_of_written hgives)
    have hetag : current.etag ≠ "" := (w.server (clients i).resource).etag_ne _ hcurrent
    obtain ⟨hbindings, hwrote⟩ := hrecalls.knows _ hwrite
    exact ⟨hbindings, History.Wrote.over hwrote hcurrent rfl, number,
      Network.filter_of_given hrecalls.distinct hwrite (if_neg hetag)⟩

def againClient (_ : Unit) : Invocation := .ofInstance ⟨Status.message, 2⟩ ⟨"p", "i"⟩ 2

def getRequest : Request String := .getIamPolicy "projects/p/instances/i"

def setRequest (etag : String) : Request String :=
  .setIamPolicy "projects/p/instances/i" ⟨"readers and writers", etag⟩

def lostReply : Failure := .of .unavailable "try again" StatusCode.unavailable_ne_ok

def staleEtag : Failure := .of .aborted "stale etag" StatusCode.aborted_ne_ok

def readers : History String := ⟨⟨"readers", "v1"⟩, [], by simp, by simp⟩

theorem write_accepted : readers.Accepts ⟨"readers and writers", "v1"⟩ ∧ "v2" ≠ "" ∧
    "v2" ∉ readers.versions.map Policy.etag :=
  ⟨.inr rfl, by decide, by decide⟩

def againEvents : Trace Unit (Reply (β := String)) :=
  [.done () ⟨.isExhausted .retry, false⟩, .sent ⟨(), 1, .rpc getRequest⟩,
    .served ⟨⟨(), 1, .rpc getRequest⟩, .ok ⟨"readers", "v1"⟩⟩,
    .done () ⟨.rpc getRequest, .ok ⟨"readers", "v1"⟩⟩,
    .done () ⟨.updater ⟨"readers", "v1"⟩, some ⟨"readers and writers", ""⟩⟩,
    .done () ⟨.isExhausted .retry, false⟩, .sent ⟨(), 2, .rpc (setRequest "v1")⟩,
    .served ⟨⟨(), 2, .rpc (setRequest "v1")⟩, .ok ⟨"readers and writers", "v2"⟩⟩,
    .done () ⟨.rpc (setRequest "v1"), .error lostReply⟩,
    .done () ⟨.onFailure .retry lostReply.status, true⟩,
    .done () ⟨.onCompletion .retry, (10 : Nat)⟩, .done () ⟨.sleepFor 10, ()⟩,
    .done () ⟨.isExhausted .retry, false⟩, .sent ⟨(), 3, .rpc (setRequest "v1")⟩,
    .served ⟨⟨(), 3, .rpc (setRequest "v1")⟩, .error staleEtag⟩,
    .done () ⟨.rpc (setRequest "v1"), .error staleEtag⟩,
    .done () ⟨.onFailure .retry staleEtag.status, false⟩,
    .done () ⟨.isExhausted .retry, false⟩,
    .done () ⟨.onFailure .rerun (RetryLoop.retryLoopError Status.message "Permanent error in"
      "SetIamPolicy" staleEtag.status), true⟩,
    .done () ⟨.onCompletion .rerun, (10 : Nat)⟩, .done () ⟨.sleepFor 10, ()⟩,
    .done () ⟨.isExhausted .rerun, false⟩,
    .done () ⟨.isExhausted .retry, false⟩, .sent ⟨(), 4, .rpc getRequest⟩,
    .served ⟨⟨(), 4, .rpc getRequest⟩, .ok ⟨"readers and writers", "v2"⟩⟩,
    .done () ⟨.rpc getRequest, .ok ⟨"readers and writers", "v2"⟩⟩,
    .done () ⟨.updater ⟨"readers and writers", "v2"⟩, some ⟨"readers and writers", ""⟩⟩,
    .done () ⟨.isExhausted .retry, false⟩, .sent ⟨(), 5, .rpc (setRequest "v2")⟩,
    .served ⟨⟨(), 5, .rpc (setRequest "v2")⟩, .ok ⟨"readers and writers", "v3"⟩⟩,
    .done () ⟨.rpc (setRequest "v2"), .ok ⟨"readers and writers", "v3"⟩⟩]

def rewritten : String → History String :=
  Function.update (fun _ => readers) "projects/p/instances/i"
    (readers.write ⟨"readers and writers", "v1"⟩ "v2" write_accepted.2.1 write_accepted.2.2)

theorem rewritten_versions : (rewritten "projects/p/instances/i").versions =
    [⟨"readers and writers", "v2"⟩, ⟨"readers", "v1"⟩] := by
  rw [rewritten, Function.update_self]
  rfl

theorem rewritten_accepts (etag : String) (hne : etag ≠ "") :
    (rewritten "projects/p/instances/i").Accepts ⟨"readers and writers", etag⟩ ↔ etag = "v2" := by
  rw [rewritten, Function.update_self]
  simp [History.Accepts, History.write, hne]

theorem rewritten_accepts_v2 : (rewritten "projects/p/instances/i").Accepts
    ⟨"readers and writers", "v2"⟩ ∧ "v3" ≠ "" ∧
    "v3" ∉ (rewritten "projects/p/instances/i").versions.map Policy.etag := by
  refine ⟨(rewritten_accepts _ (by decide)).mpr rfl, by decide, ?_⟩
  rw [rewritten_versions]
  decide

def writtenTwice : String → History String :=
  Function.update rewritten "projects/p/instances/i"
    ((rewritten "projects/p/instances/i").write ⟨"readers and writers", "v2"⟩ "v3"
      rewritten_accepts_v2.2.1 rewritten_accepts_v2.2.2)

theorem writtenTwice_versions : (writtenTwice "projects/p/instances/i").versions =
    [⟨"readers and writers", "v3"⟩, ⟨"readers and writers", "v2"⟩, ⟨"readers", "v1"⟩] := by
  rw [writtenTwice, Function.update_self]
  exact congrArg _ rewritten_versions

theorem again_run : ∃ w, Run (Network.Step service)
    (.start (fun i => (againClient i).program ()) fun _ => readers) againEvents w ∧
    (w.client ()).rest = .ret (.ok (.ok ⟨"readers and writers", "v3"⟩), ()) ∧
    w.server = writtenTwice := by
  apply Exists.intro
  constructor
  · apply Run.cons (Network.Step.call _ rfl rfl)
    apply Run.cons (Network.Step.send rfl rfl rfl)
    apply Run.cons (Network.Step.serve (show _ = [] ++ _ :: [] from rfl) Serves.read)
    apply Run.cons (Network.Step.receive rfl rfl List.mem_cons_self)
    apply Run.cons (Network.Step.call _ rfl rfl)
    apply Run.cons (Network.Step.call _ rfl rfl)
    apply Run.cons (Network.Step.send rfl rfl rfl)
    apply Run.cons (Network.Step.serve (show _ = [] ++ _ :: [] from rfl)
      (@Serves.accepted _ _ _ ⟨"readers and writers", "v1"⟩ "v2" write_accepted.1 write_accepted.2.1
        write_accepted.2.2))
    apply Run.cons (Network.Step.lose rfl rfl Loses.rpc)
    apply Run.cons (Network.Step.call _ rfl rfl)
    apply Run.cons (Network.Step.call _ rfl rfl)
    apply Run.cons (Network.Step.call _ rfl rfl)
    apply Run.cons (Network.Step.call _ rfl rfl)
    apply Run.cons (Network.Step.send rfl rfl rfl)
    apply Run.cons (Network.Step.serve (show _ = [] ++ _ :: [] from rfl)
      (@Serves.rejected _ rewritten _ _ staleEtag (by
        rw [rewritten_accepts _ (by decide)]
        decide) rfl))
    apply Run.cons (Network.Step.receive rfl rfl List.mem_cons_self)
    apply Run.cons (Network.Step.call _ rfl rfl)
    apply Run.cons (Network.Step.call _ rfl rfl)
    apply Run.cons (Network.Step.call _ rfl rfl)
    apply Run.cons (Network.Step.call _ rfl rfl)
    apply Run.cons (Network.Step.call _ rfl rfl)
    apply Run.cons (Network.Step.call _ rfl rfl)
    apply Run.cons (Network.Step.call _ rfl rfl)
    apply Run.cons (Network.Step.send rfl rfl rfl)
    apply Run.cons (Network.Step.serve (show _ = [] ++ _ :: [] from rfl) Serves.read)
    apply Run.cons (Network.Step.receive rfl rfl List.mem_cons_self)
    apply Run.cons (Network.Step.call _ rfl rfl)
    apply Run.cons (Network.Step.call _ rfl rfl)
    apply Run.cons (Network.Step.send rfl rfl rfl)
    apply Run.cons (Network.Step.serve (show _ = [] ++ _ :: [] from rfl)
      (@Serves.accepted _ rewritten _ ⟨"readers and writers", "v2"⟩ "v3"
        rewritten_accepts_v2.1 rewritten_accepts_v2.2.1 rewritten_accepts_v2.2.2))
    exact .single (Network.Step.receive rfl rfl List.mem_cons_self)
  · exact ⟨rfl, rfl⟩

theorem accepted_replaces_read_again : ∃ desired : Policy String,
    MadeFrom againEvents ⟨(), 5, .rpc (setRequest "v2")⟩ ⟨"readers and writers", "v2"⟩ desired ∧
      desired.bindings = "readers and writers" := by
  obtain ⟨w, hrun, -, hserver⟩ := again_run
  have haccepted : .served ⟨⟨(), 5, .rpc (setRequest "v2")⟩,
      .ok ⟨"readers and writers", "v3"⟩⟩ ∈ againEvents := by simp [againEvents]
  obtain ⟨replaced, desired, newer, older, hwritten, hmade, -, hbindings⟩ :=
    accepted_replaces_read hrun haccepted
  rw [hserver] at hwritten
  have hversions := writtenTwice_versions.symm.trans hwritten
  cases newer with
  | nil =>
    cases hversions
    exact ⟨desired, hmade, hbindings.symm⟩
  | cons version newer =>
    -- no later version has the last etag
    have hlater : (⟨"readers and writers", "v3"⟩ : Policy String) ∈
        [⟨"readers and writers", "v2"⟩, ⟨"readers", "v1"⟩] := by
      rw [(List.cons.inj hversions).2]
      simp
    exact absurd hlater (by decide)

theorem updated_once_again : ∃ (server : String → History String),
    (∃ newer older, (server "projects/p/instances/i").versions =
      newer ++ ⟨"readers and writers", "v3"⟩ :: ⟨"readers and writers", "v2"⟩ :: older) ∧
    ∃ number, againEvents.deeds.filter (replaced · = some ("projects/p/instances/i", "v2")) =
      [some ⟨⟨(), number, .rpc (setRequest "v2")⟩, .ok ⟨"readers and writers", "v3"⟩⟩] := by
  obtain ⟨w, hrun, hret, -⟩ := again_run
  obtain ⟨_, _, hupdate, hwritten⟩ := updated_once hrun hret
  cases hupdate
  exact ⟨w.server, hwritten.2⟩

end SpannerClient.Iam
