import SpannerClient.Library.Contract
import SpannerClient.Library.Transition
import Mathlib.Data.List.Pairwise
import Mathlib.Data.List.Perm.Subperm
import Mathlib.Logic.Function.Basic

/-! Programs that call a server over a network, which may delay their messages and lose them. -/

namespace SpannerClient

variable {ι ε : Type} {ρ : ε → Type} {α γ S : Type}

/-- A server, as far as its clients can tell: a call is served with a reply, and the server may also
act of its own accord. -/
structure Service (ρ : ε → Type) (S : Type) where
  isRemote : ε → Bool
  Serves : S → (e : ε) → ρ e → S → Prop
  Acts : S → S → Prop
  /-- The replies that stand for one that is lost. -/
  Loses : (e : ε) → ρ e → Prop

theorem Interaction.exists_runs [∀ e, Nonempty (ρ e)] (m : Interaction ε ρ α) :
    ∃ tr a, m.Runs tr a := by
  induction m with
  | ret a => exact ⟨[], a, .ret⟩
  | call e k ih =>
    obtain ⟨r⟩ := (inferInstance : Nonempty (ρ e))
    obtain ⟨tr, a, h⟩ := ih r
    exact ⟨⟨e, r⟩ :: tr, a, .call h⟩

inductive Interaction.Reaches : Interaction ε ρ α → List (Sigma ρ) → Interaction ε ρ α → Prop
  | refl {m : Interaction ε ρ α} : Reaches m [] m
  | call {e : ε} {k : ρ e → Interaction ε ρ α} {r : ρ e} {tr : List (Sigma ρ)}
    {m : Interaction ε ρ α} : Reaches (k r) tr m → Reaches (.call e k) (⟨e, r⟩ :: tr) m

namespace Interaction.Reaches

variable {m : Interaction ε ρ α} {tr : List (Sigma ρ)}

theorem snoc {e : ε} {k : ρ e → Interaction ε ρ α} (h : m.Reaches tr (.call e k)) (r : ρ e) :
    m.Reaches (tr ++ [⟨e, r⟩]) (k r) := by
  generalize hlast : Interaction.call e k = last at h
  induction h with
  | refl =>
    subst hlast
    exact .call .refl
  | call _ ih => exact .call (ih hlast)

theorem runs {m' : Interaction ε ρ α} {rest : List (Sigma ρ)} {a : α} (h : m.Reaches tr m')
    (hrun : m'.Runs rest a) : m.Runs (tr ++ rest) a := by
  induction h with
  | refl => exact hrun
  | call _ ih => exact .call (ih hrun)

theorem keeps {m' : Interaction ε ρ α} {c : Contract ρ γ} {post : α → γ → Prop} {g : γ}
    (h : m.Reaches tr m') (hkeeps : m.Keeps c post g) :
    c.Obeys g tr ∧ m'.Keeps c post (c.after g tr) := by
  induction h generalizing g with
  | refl => exact ⟨trivial, hkeeps⟩
  | call _ ih =>
    obtain ⟨hobeys, hlast⟩ := ih (hkeeps.2 _)
    exact ⟨⟨hkeeps.1, hobeys⟩, hlast⟩

end Interaction.Reaches

namespace Network

structure Message (ι ε : Type) where
  client : ι
  number : Nat
  call : ε

structure Answer (ι : Type) (ρ : ε → Type) where
  message : Message ι ε
  reply : ρ message.call

structure Client (ρ : ε → Type) (α : Type) where
  rest : Interaction ε ρ α
  sent : Nat
  waiting : Bool

structure World (ι : Type) (ρ : ε → Type) (α S : Type) where
  client : ι → Client ρ α
  server : S
  requests : List (Message ι ε)
  answers : List (Answer ι ρ)

inductive Event (ι : Type) (ρ : ε → Type)
  | done (i : ι) (exchange : Sigma ρ)
  | sent (m : Message ι ε)
  | served (a : Answer ι ρ)
  | acted

def World.start (programs : ι → Interaction ε ρ α) (s : S) : World ι ρ α S :=
  ⟨fun i => ⟨programs i, 0, false⟩, s, [], []⟩

abbrev Trace (ι : Type) (ρ : ε → Type) := List (Event ι ρ)

namespace Trace

def sent (tr : Trace ι ρ) : List (Message ι ε) :=
  tr.filterMap fun
    | .sent m => some m
    | .done _ _ | .served _ | .acted => none

def served (tr : Trace ι ρ) : List (Message ι ε) :=
  tr.filterMap fun
    | .served a => some a.message
    | .done _ _ | .sent _ | .acted => none

def deeds (tr : Trace ι ρ) : List (Option (Answer ι ρ)) :=
  tr.filterMap fun
    | .served a => some (some a)
    | .acted => some none
    | .done _ _ | .sent _ => none

variable [DecidableEq ι]

def exchanges (i : ι) (tr : Trace ι ρ) : List (Sigma ρ) :=
  tr.filterMap fun
    | .done j exchange => if j = i then some exchange else none
    | .sent _ | .served _ | .acted => none

def sentBy (i : ι) (tr : Trace ι ρ) : List ε :=
  (tr.sent.filter fun m => m.client = i).map Message.call

end Trace

variable [DecidableEq ι]

def World.setClient (w : World ι ρ α S) (i : ι) (c : Client ρ α) : World ι ρ α S :=
  { w with client := Function.update w.client i c }

def World.resume (w : World ι ρ α S) (i : ι) (rest : Interaction ε ρ α) : World ι ρ α S :=
  w.setClient i { w.client i with rest, waiting := false }

/-- A message is served at any time later, or never; so is its answer received. -/
inductive Step (service : Service ρ S) : World ι ρ α S → Event ι ρ → World ι ρ α S → Prop
  | call {w : World ι ρ α S} {i : ι} {e : ε} {k : ρ e → Interaction ε ρ α} (r : ρ e) :
    (w.client i).rest = .call e k → service.isRemote e = false →
      Step service w (.done i ⟨e, r⟩) (w.resume i (k r))
  | send {w : World ι ρ α S} {i : ι} {e : ε} {k : ρ e → Interaction ε ρ α} :
    (w.client i).rest = .call e k → service.isRemote e = true → (w.client i).waiting = false →
      Step service w (.sent ⟨i, (w.client i).sent + 1, e⟩)
        { w.setClient i { w.client i with sent := (w.client i).sent + 1, waiting := true } with
          requests := ⟨i, (w.client i).sent + 1, e⟩ :: w.requests }
  | serve {w : World ι ρ α S} {m : Message ι ε} {before after : List (Message ι ε)} {r : ρ m.call}
      {s : S} :
    w.requests = before ++ m :: after → service.Serves w.server m.call r s →
      Step service w (.served ⟨m, r⟩)
        { w with server := s, requests := before ++ after, answers := ⟨m, r⟩ :: w.answers }
  | receive {w : World ι ρ α S} {i : ι} {e : ε} {k : ρ e → Interaction ε ρ α} {r : ρ e} :
    (w.client i).rest = .call e k → (w.client i).waiting = true →
      ⟨⟨i, (w.client i).sent, e⟩, r⟩ ∈ w.answers →
      Step service w (.done i ⟨e, r⟩) (w.resume i (k r))
  | lose {w : World ι ρ α S} {i : ι} {e : ε} {k : ρ e → Interaction ε ρ α} {r : ρ e} :
    (w.client i).rest = .call e k → (w.client i).waiting = true → service.Loses e r →
      Step service w (.done i ⟨e, r⟩) (w.resume i (k r))
  | act {w : World ι ρ α S} {s : S} :
    service.Acts w.server s → Step service w .acted { w with server := s }

inductive ServerStep (service : Service ρ S) : S → Option (Answer ι ρ) → S → Prop
  | serves {s s' : S} {a : Answer ι ρ} : service.Serves s a.message.call a.reply s' →
    ServerStep service s (some a) s'
  | acts {s s' : S} : service.Acts s s' → ServerStep service s none s'

theorem eq_of_given {δ κ : Type} {given : δ → Option κ} {deeds : List δ}
    (h : deeds.Pairwise fun d d' => ∀ k, given d = some k → given d' ≠ some k) {d d' : δ} {k : κ}
    (hd : d ∈ deeds) (hd' : d' ∈ deeds) (hk : given d = some k) (hk' : given d' = some k) :
    d = d' := by
  have : Std.Symm fun d d' => ∀ k, given d = some k → given d' ≠ some k :=
    ⟨fun _ _ hne k hd hd' => hne k hd' hd⟩
  by_contra hne
  exact h.forall hd hd' hne k hk hk'

theorem filter_of_given {δ κ : Type} [DecidableEq κ] {given : δ → Option κ} {deeds : List δ}
    (h : deeds.Pairwise fun d d' => ∀ k, given d = some k → given d' ≠ some k) {d : δ} {k : κ}
    (hd : d ∈ deeds) (hk : given d = some k) : deeds.filter (given · = some k) = [d] := by
  induction deeds with
  | nil => cases hd
  | cons d' deeds ih =>
    obtain ⟨hfirst, hrest⟩ := List.pairwise_cons.mp h
    rcases List.mem_cons.mp hd with rfl | hd
    · have hnone : deeds.filter (given · = some k) = [] := by
        rw [List.filter_eq_nil_iff]
        exact fun d' hd' => by simpa using hfirst d' hd' k hk
      rw [List.filter_cons_of_pos (by simpa using hk), hnone]
    · have hne : given d' ≠ some k := fun hk' => hfirst d hd k hk' hk
      rw [List.filter_cons_of_neg (by simpa using hne), ih hrest hd]

structure Recalls {κ : Type} (knows : S → (e : ε) → ρ e → Prop)
    (given : Option (Answer ι ρ) → Option κ) (deeds : List (Option (Answer ι ρ))) (s : S) :
    Prop where
  knows (a : Answer ι ρ) : some a ∈ deeds → knows s a.message.call a.reply
  distinct : deeds.Pairwise fun d d' => ∀ k, given d = some k → given d' ≠ some k

structure Memory {κ : Type} (service : Service ρ S) (knows : S → (e : ε) → ρ e → Prop)
    (given : Option (Answer ι ρ) → Option κ) : Prop where
  answers {s s' : S} {e : ε} {r : ρ e} : service.Serves s e r s' → knows s' e r
  keeps {s s' : S} {deed : Option (Answer ι ρ)} {e : ε} {r : ρ e} :
    ServerStep service s deed s' → knows s e r → knows s' e r
  acted : given none = none
  fresh {s s' : S} {a a' : Answer ι ρ} {k : κ} :
    service.Serves s a.message.call a.reply s' → given (some a) = some k →
      knows s a'.message.call a'.reply → given (some a') ≠ some k

namespace Memory

variable {κ : Type} {service : Service ρ S} {knows : S → (e : ε) → ρ e → Prop}
  {given : Option (Answer ι ρ) → Option κ} {deeds : List (Option (Answer ι ρ))}
  {deed : Option (Answer ι ρ)} {s s' : S}

omit [DecidableEq ι] in
theorem step (h : Memory service knows given) (hrecalls : Recalls knows given deeds s)
    (hstep : ServerStep service s deed s') : Recalls knows given (deeds ++ [deed]) s' where
  knows a ha := by
    rcases List.mem_append.mp ha with hearlier | hlast
    · exact h.keeps hstep (hrecalls.knows a hearlier)
    · cases List.mem_singleton.mp hlast
      cases hstep with
      | serves hserves => exact h.answers hserves
  distinct := by
    refine List.pairwise_append.mpr ⟨hrecalls.distinct, List.pairwise_singleton .., ?_⟩
    intro d hd d' hd' k hgiven hgiven'
    cases List.mem_singleton.mp hd'
    cases hstep with
    | acts => cases h.acted.symm.trans hgiven'
    | serves hserves =>
      cases d with
      | none => cases h.acted.symm.trans hgiven
      | some a => exact h.fresh hserves hgiven' (hrecalls.knows a hd) hgiven

omit [DecidableEq ι] in
theorem run (h : Memory service knows given) (hrun : Run (ServerStep service) s deeds s') :
    Recalls knows given deeds s' :=
  hrun.history (P := Recalls knows given) ⟨fun _ ha => (List.not_mem_nil ha).elim, .nil⟩
    fun _ _ _ _ hrecalls hstep => h.step hrecalls hstep

end Memory

def remotes (service : Service ρ S) (exchanges : List (Sigma ρ)) : List ε :=
  (exchanges.map Sigma.fst).filter service.isRemote

theorem remotes_append {exchanges rest : List (Sigma ρ)} {service : Service ρ S} :
    remotes service (exchanges ++ rest) = remotes service exchanges ++ remotes service rest := by
  simp [remotes]

namespace Client

def pending (c : Client ρ α) : List ε :=
  match c.rest, c.waiting with
  | .call e _, true => [e]
  | .call _ _, false | .ret _, _ => []

/-- The client is where its program gets with these exchanges, of which the server has been sent its
part. -/
structure Sound (service : Service ρ S) (program : Interaction ε ρ α) (exchanges : List (Sigma ρ))
    (sent : List ε) (c : Client ρ α) : Prop where
  reaches : program.Reaches exchanges c.rest
  remote {e : ε} : e ∈ c.pending → service.isRemote e = true
  sent : sent = remotes service exchanges ++ c.pending

variable {service : Service ρ S} {program : Interaction ε ρ α} {exchanges : List (Sigma ρ)}
  {sent : List ε} {c : Client ρ α} {e : ε} {k : ρ e → Interaction ε ρ α}

theorem pending_of_waiting (hrest : c.rest = .call e k) (hwaiting : c.waiting = true) :
    c.pending = [e] := by
  simp [pending, hrest, hwaiting]

theorem pending_of_not_waiting (hwaiting : c.waiting = false) : c.pending = [] := by
  cases hrest : c.rest <;> simp [pending, hrest, hwaiting]

theorem sound_start : Sound service program [] [] ⟨program, 0, false⟩ where
  reaches := .refl
  remote he := by
    rw [pending_of_not_waiting rfl] at he
    cases he
  sent := by
    rw [pending_of_not_waiting rfl]
    rfl

namespace Sound

theorem isRemote (h : Sound service program exchanges sent c) (hrest : c.rest = .call e k)
    (hwaiting : c.waiting = true) : service.isRemote e = true :=
  h.remote (by rw [pending_of_waiting hrest hwaiting]; exact List.mem_singleton_self _)

theorem done (h : Sound service program exchanges sent c) (hrest : c.rest = .call e k) (r : ρ e)
    (hremote : service.isRemote e = c.waiting) :
    Sound service program (exchanges ++ [⟨e, r⟩]) sent
      { c with rest := k r, waiting := false } where
  reaches := by
    have hreaches := h.reaches
    rw [hrest] at hreaches
    exact hreaches.snoc r
  remote he := by
    rw [pending_of_not_waiting rfl] at he
    cases he
  sent := by
    rw [pending_of_not_waiting rfl, List.append_nil, h.sent]
    cases hwaiting : c.waiting with
    | false =>
      rw [pending_of_not_waiting hwaiting]
      simp [remotes, hremote, hwaiting]
    | true =>
      rw [pending_of_waiting hrest hwaiting]
      simp [remotes, hremote, hwaiting]

theorem send (h : Sound service program exchanges sent c) (hrest : c.rest = .call e k)
    (hremote : service.isRemote e = true) (hwaiting : c.waiting = false) :
    Sound service program exchanges (sent ++ [e])
      { c with sent := c.sent + 1, waiting := true } := by
  have hpending : ({ c with sent := c.sent + 1, waiting := true } : Client ρ α).pending = [e] :=
    pending_of_waiting hrest rfl
  refine ⟨h.reaches, fun he => ?_, ?_⟩
  · rw [hpending] at he
    rwa [List.mem_singleton.mp he]
  · rw [hpending, h.sent, pending_of_not_waiting hwaiting, List.append_nil]

theorem exists_runs [∀ e, Nonempty (ρ e)] (h : Sound service program exchanges sent c) :
    ∃ rest a, program.Runs (exchanges ++ rest) a ∧
      sent <+: remotes service (exchanges ++ rest) := by
  obtain ⟨rest, a, hrun⟩ := c.rest.exists_runs
  refine ⟨rest, a, h.reaches.runs hrun, ?_⟩
  rw [h.sent, remotes_append, List.prefix_append_right_inj]
  cases hwaiting : c.waiting with
  | false =>
    rw [pending_of_not_waiting hwaiting]
    exact List.nil_prefix
  | true =>
    cases hrest : c.rest with
    | ret => simp [pending, hrest]
    | call e k =>
      have hremote := h.isRemote hrest hwaiting
      rw [hrest] at hrun
      obtain ⟨r, tr, rfl, -⟩ := Interaction.runs_call.mp hrun
      rw [pending_of_waiting hrest hwaiting]
      simp [remotes, hremote]

variable {contract : Contract ρ γ} {post : α → γ → Prop} {g : γ}

theorem obeys (h : Sound service program exchanges sent c)
    (hkeeps : program.Keeps contract post g) : contract.Obeys g exchanges :=
  (h.reaches.keeps hkeeps).1

theorem allows_pending (h : Sound service program exchanges sent c)
    (hkeeps : program.Keeps contract post g) (he : e ∈ c.pending) :
    contract.allows (contract.after g exchanges) e := by
  have hrest := (h.reaches.keeps hkeeps).2
  cases hlast : c.rest with
  | ret => simp [pending, hlast] at he
  | call e' k =>
    rw [hlast] at hrest
    cases hwaiting : c.waiting with
    | false => simp [pending, hlast, hwaiting] at he
    | true =>
      rw [pending_of_waiting hlast hwaiting, List.mem_singleton] at he
      rw [he]
      exact hrest.1

theorem exists_allows (h : Sound service program exchanges sent c)
    (hkeeps : program.Keeps contract post g) (he : e ∈ sent) :
    ∃ before after, exchanges = before ++ after ∧
      contract.allows (contract.after g before) e := by
  rw [h.sent, List.mem_append] at he
  rcases he with hdone | hpending
  · obtain ⟨exchange, hmem, rfl⟩ := List.mem_map.mp (List.mem_of_mem_filter hdone)
    obtain ⟨before, after, rfl⟩ := List.append_of_mem hmem
    exact ⟨before, _, rfl, (Contract.obeys_append.mp (h.obeys hkeeps)).2.1⟩
  · exact ⟨exchanges, [], (List.append_nil _).symm, h.allows_pending hkeeps hpending⟩

theorem exchanged_or_allowed (h : Sound service program exchanges sent c)
    (hkeeps : program.Keeps contract post g) (he : e ∈ sent) :
    (∃ r, ⟨e, r⟩ ∈ exchanges) ∨ contract.allows (contract.after g exchanges) e := by
  rw [h.sent, List.mem_append] at he
  rcases he with hdone | hpending
  · obtain ⟨⟨e, r⟩, hmem, rfl⟩ := List.mem_map.mp (List.mem_of_mem_filter hdone)
    exact .inl ⟨r, hmem⟩
  · exact .inr (h.allows_pending hkeeps hpending)

end Sound

end Client

structure Sound (service : Service ρ S) (programs : ι → Interaction ε ρ α) (s : S)
    (tr : Trace ι ρ) (w : World ι ρ α S) : Prop where
  client (i : ι) : (w.client i).Sound service (programs i) (tr.exchanges i) (tr.sentBy i)
  messages : (tr.served ++ w.requests).Perm tr.sent
  answers (a : Answer ι ρ) : a ∈ w.answers → .served a ∈ tr
  done (i : ι) (e : ε) (r : ρ e) : .done i ⟨e, r⟩ ∈ tr → service.isRemote e = true →
    service.Loses e r ∨ ∃ number, .served ⟨⟨i, number, e⟩, r⟩ ∈ tr
  server : Run (ServerStep (ι := ι) service) s tr.deeds w.server

variable {service : Service ρ S} {programs : ι → Interaction ε ρ α} {s : S} {tr : Trace ι ρ}
  {w w' : World ι ρ α S} {event : Event ι ρ}

namespace Trace

theorem mem_exchanges {i : ι} {exchange : Sigma ρ} :
    exchange ∈ exchanges i tr ↔ .done i exchange ∈ tr := by
  simp only [exchanges, List.mem_filterMap]
  constructor
  · rintro ⟨event, hevent, h⟩
    cases event with
    | done j exchange' =>
      simp only [Option.ite_none_right_eq_some, Option.some_inj] at h
      obtain ⟨rfl, rfl⟩ := h
      exact hevent
    | sent | served | acted => cases h
  · exact fun h => ⟨_, h, if_pos rfl⟩

omit [DecidableEq ι] in
theorem mem_deeds {a : Answer ι ρ} : some a ∈ deeds tr ↔ .served a ∈ tr := by
  simp only [deeds, List.mem_filterMap]
  constructor
  · rintro ⟨event, hevent, h⟩
    cases event with
    | served a' =>
      cases h
      exact hevent
    | done | sent | acted => cases h
  · exact fun h => ⟨_, h, rfl⟩

omit [DecidableEq ι] in
@[simp] theorem sent_snoc : sent (tr ++ [event]) = tr.sent ++ sent [event] :=
  List.filterMap_append

omit [DecidableEq ι] in
@[simp] theorem served_snoc : served (tr ++ [event]) = tr.served ++ served [event] :=
  List.filterMap_append

omit [DecidableEq ι] in
@[simp] theorem deeds_snoc : deeds (tr ++ [event]) = tr.deeds ++ deeds [event] :=
  List.filterMap_append

@[simp] theorem exchanges_snoc {i : ι} :
    exchanges i (tr ++ [event]) = tr.exchanges i ++ exchanges i [event] :=
  List.filterMap_append

@[simp] theorem sentBy_snoc {i : ι} :
    sentBy i (tr ++ [event]) = tr.sentBy i ++ sentBy i [event] := by
  simp [sentBy]

theorem exchanges_done_ne {i j : ι} {exchange : Sigma ρ} (h : j ≠ i) :
    exchanges j [.done i exchange] = [] :=
  List.filterMap_cons_none (if_neg h.symm)

theorem exchanges_done_self {i : ι} {exchange : Sigma ρ} :
    exchanges i [.done i exchange] = [exchange] :=
  List.filterMap_cons_some (if_pos rfl)

end Trace

namespace Sound

theorem start : Sound service programs s [] (World.start programs s) where
  client _ := Client.sound_start
  messages := .refl _
  answers _ ha := nomatch ha
  done _ _ _ h := nomatch h
  server := .nil

theorem done_snoc (h : Sound service programs s tr w)
    (hevent : ∀ i e (r : ρ e), event = .done i ⟨e, r⟩ → service.isRemote e = true →
      service.Loses e r ∨ ∃ number, .served ⟨⟨i, number, e⟩, r⟩ ∈ tr) (i : ι) (e : ε) (r : ρ e)
    (hdone : .done i ⟨e, r⟩ ∈ tr ++ [event]) (hremote : service.isRemote e = true) :
    service.Loses e r ∨ ∃ number, .served ⟨⟨i, number, e⟩, r⟩ ∈ tr ++ [event] := by
  suffices hreply : service.Loses e r ∨ ∃ number, .served ⟨⟨i, number, e⟩, r⟩ ∈ tr from
    hreply.imp_right fun ⟨number, hserved⟩ => ⟨number, List.mem_append_left _ hserved⟩
  rcases List.mem_append.mp hdone with hearlier | hlast
  · exact h.done i e r hearlier hremote
  · exact hevent i e r (List.mem_singleton.mp hlast).symm hremote

theorem resume {i : ι} {e : ε} {k : ρ e → Interaction ε ρ α} {r : ρ e}
    (h : Sound service programs s tr w) (hrest : (w.client i).rest = .call e k)
    (hremote : service.isRemote e = (w.client i).waiting)
    (hreply : service.isRemote e = true →
      service.Loses e r ∨ ∃ number, .served ⟨⟨i, number, e⟩, r⟩ ∈ tr) :
    Sound service programs s (tr ++ [.done i ⟨e, r⟩]) (w.resume i (k r)) where
  client j := by
    by_cases hj : j = i
    · subst hj
      have hdone := (h.client j).done hrest r hremote
      simpa [World.resume, World.setClient, Trace.exchanges_done_self, Trace.sentBy, Trace.sent]
        using hdone
    · have hclient := h.client j
      simpa [World.resume, World.setClient, Function.update_of_ne hj, Trace.exchanges_done_ne hj,
        Trace.sentBy, Trace.sent] using hclient
  messages := by simpa [World.resume, World.setClient, Trace.served, Trace.sent] using h.messages
  answers a ha := List.mem_append_left _ (h.answers a ha)
  done := h.done_snoc fun i' e' r' heq => by
    cases heq
    exact hreply
  server := by simpa [World.resume, World.setClient, Trace.deeds] using h.server

theorem send {i : ι} {e : ε} {k : ρ e → Interaction ε ρ α} (h : Sound service programs s tr w)
    (hrest : (w.client i).rest = .call e k) (hremote : service.isRemote e = true)
    (hwaiting : (w.client i).waiting = false) :
    Sound service programs s (tr ++ [.sent ⟨i, (w.client i).sent + 1, e⟩])
      { w.setClient i { w.client i with sent := (w.client i).sent + 1, waiting := true } with
        requests := ⟨i, (w.client i).sent + 1, e⟩ :: w.requests } where
  client j := by
    by_cases hj : j = i
    · subst hj
      have hsend := (h.client j).send hrest hremote hwaiting
      simpa [World.setClient, Trace.exchanges, Trace.sentBy, Trace.sent] using hsend
    · have hclient := h.client j
      simpa [World.setClient, Function.update_of_ne hj, Trace.exchanges, Trace.sentBy, Trace.sent,
        Ne.symm hj] using hclient
  messages := by
    have hmessages := (h.messages.cons ⟨i, (w.client i).sent + 1, e⟩).trans
      (List.perm_append_singleton _ _).symm
    simpa [Trace.served, Trace.sent] using List.perm_middle.trans hmessages
  answers a ha := List.mem_append_left _ (h.answers a ha)
  done := h.done_snoc fun _ _ _ heq => by cases heq
  server := by simpa [World.setClient, Trace.deeds] using h.server

theorem serve {m : Message ι ε} {before after : List (Message ι ε)} {r : ρ m.call} {t : S}
    (h : Sound service programs s tr w) (hrequests : w.requests = before ++ m :: after)
    (hserves : service.Serves w.server m.call r t) :
    Sound service programs s (tr ++ [.served ⟨m, r⟩])
      { w with server := t, requests := before ++ after, answers := ⟨m, r⟩ :: w.answers } where
  client j := by simpa [Trace.exchanges, Trace.sentBy, Trace.sent] using h.client j
  messages := by
    have hmessages := h.messages
    rw [hrequests] at hmessages
    have hmoved : (tr.served ++ [m] ++ (before ++ after)).Perm
        (tr.served ++ (before ++ m :: after)) := by
      rw [List.append_assoc, List.singleton_append]
      exact List.perm_middle.symm.append_left _
    simpa [Trace.sent, Trace.served] using hmoved.trans hmessages
  answers a ha := by
    rcases List.mem_cons.mp ha with rfl | ha
    · exact List.mem_append_right _ (List.mem_singleton_self _)
    · exact List.mem_append_left _ (h.answers a ha)
  done := h.done_snoc fun _ _ _ heq => by cases heq
  server := by
    rw [Trace.deeds_snoc]
    exact h.server.snoc (.serves hserves)

theorem act {t : S} (h : Sound service programs s tr w) (hacts : service.Acts w.server t) :
    Sound service programs s (tr ++ [.acted]) { w with server := t } where
  client j := by simpa [Trace.exchanges, Trace.sentBy, Trace.sent] using h.client j
  messages := by simpa [Trace.sent, Trace.served] using h.messages
  answers a ha := List.mem_append_left _ (h.answers a ha)
  done := h.done_snoc fun _ _ _ heq => by cases heq
  server := by
    rw [Trace.deeds_snoc]
    exact h.server.snoc (.acts hacts)

theorem step (h : Sound service programs s tr w) (hstep : Step service w event w') :
    Sound service programs s (tr ++ [event]) w' := by
  cases hstep with
  | @call i e k r hrest hlocal =>
    cases hwaiting : (w.client i).waiting with
    | false => exact h.resume hrest (hlocal.trans hwaiting.symm) fun hremote => by simp_all
    | true =>
      have hremote := (h.client i).isRemote hrest hwaiting
      rw [hlocal] at hremote
      cases hremote
  | send hrest hremote hwaiting => exact h.send hrest hremote hwaiting
  | serve hrequests hserves => exact h.serve hrequests hserves
  | @receive i _ _ _ hrest hwaiting hanswer =>
    exact h.resume hrest (((h.client i).isRemote hrest hwaiting).trans hwaiting.symm) fun _ =>
      .inr ⟨_, h.answers _ hanswer⟩
  | @lose i _ _ _ hrest hwaiting hloses =>
    exact h.resume hrest (((h.client i).isRemote hrest hwaiting).trans hwaiting.symm) fun _ =>
      .inl hloses
  | act hacts => exact h.act hacts

theorem run (h : Run (Step service) (World.start programs s) tr w) :
    Sound service programs s tr w :=
  h.history (P := Sound service programs s) start fun _ _ _ _ hsound hstep => hsound.step hstep

theorem runs_of_ret {i : ι} {a : α} (h : Sound service programs s tr w)
    (hret : (w.client i).rest = .ret a) : (programs i).Runs (tr.exchanges i) a := by
  have hrest : (w.client i).rest.Runs [] a := by
    rw [hret]
    exact .ret
  have hrun := (h.client i).reaches.runs hrest
  rwa [List.append_nil] at hrun

theorem mem_sentBy {m : Message ι ε} (h : Sound service programs s tr w) (hm : m ∈ tr.served) :
    m.call ∈ tr.sentBy m.client := by
  have hsent : m ∈ tr.sent := h.messages.mem_iff.mp (List.mem_append_left _ hm)
  exact List.mem_map_of_mem (List.mem_filter.mpr ⟨hsent, decide_eq_true rfl⟩)

theorem mem_sent {m : Message ι ε} (h : Sound service programs s tr w) (hm : m ∈ tr.served) :
    .sent m ∈ tr := by
  have hsent : m ∈ tr.sent := h.messages.mem_iff.mp (List.mem_append_left _ hm)
  obtain ⟨event, hevent, heq⟩ := List.mem_filterMap.mp hsent
  cases event with
  | sent m' =>
    cases heq
    exact hevent
  | done | served | acted => cases heq

/-- What is sent was allowed after the exchanges before it. -/
theorem allows_of_sent {contract : Contract ρ γ} {post : α → γ → Prop} {g : γ} {m : Message ι ε}
    {before after : Trace ι ρ}
    (h : Run (Step service) (World.start programs s) (before ++ .sent m :: after) w)
    (hkeeps : (programs m.client).Keeps contract post g) :
    contract.allows (contract.after g (before.exchanges m.client)) m.call := by
  obtain ⟨_, _, hbefore, hstep⟩ := h.exists_step
  cases hstep with
  | @send i _ _ hrest =>
    have hkept := (((run hbefore).client i).reaches.keeps hkeeps).2
    rw [hrest] at hkept
    exact hkept.1

theorem countP_served_le (h : Sound service programs s tr w) (i : ι) (p : ε → Bool) :
    tr.served.countP (fun m => m.client = i && p m.call) ≤ (tr.sentBy i).countP p := by
  have hsent : (tr.sentBy i).countP p = tr.sent.countP (fun m => m.client = i && p m.call) := by
    rw [Trace.sentBy, List.countP_map, List.countP_filter]
    refine List.countP_congr fun m _ => ?_
    simp [and_comm]
  rw [hsent, ← h.messages.countP_eq, List.countP_append]
  exact Nat.le_add_right _ _

theorem countP_served_le_of_runs [∀ e, Nonempty (ρ e)] (h : Sound service programs s tr w) {i : ι}
    {p : ε → Bool} {n : Nat}
    (hruns : ∀ exchanges a, (programs i).Runs exchanges a →
      (remotes service exchanges).countP p ≤ n) :
    tr.served.countP (fun m => m.client = i && p m.call) ≤ n := by
  obtain ⟨rest, a, hrun, hprefix⟩ := (h.client i).exists_runs
  calc tr.served.countP (fun m => m.client = i && p m.call)
    _ ≤ (tr.sentBy i).countP p := h.countP_served_le i p
    _ ≤ (remotes service (tr.exchanges i ++ rest)).countP p := hprefix.sublist.countP_le
    _ ≤ n := hruns _ a hrun

end Sound

end Network

end SpannerClient
