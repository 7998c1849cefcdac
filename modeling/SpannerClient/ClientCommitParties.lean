import SpannerClient.ClientCommit
import SpannerClient.Internal.TransactionLedger

namespace SpannerClient

open Protobuf Program

namespace TransactionUse

open ConnectionImpl

variable {σ χ : Type} {tr : Trace σ χ} {v : Verdict}

def denied : (c : Call) → Reply σ χ c → Option String
  | .op (.rpc (.commit request)), .error e =>
    if e.status.code.isRerunnable then some request.transactionId else none
  | _, _ => none

def Void (tr : Trace σ χ) : Prop :=
  (∀ request r, ⟨.op (.rpc (.commit request)), r⟩ ∉ tr) ∨
    ∃ exchange ∈ tr, ∃ id, denied exchange.1 exchange.2 = some id

structure Judges (v : Verdict) (tr : Trace σ χ) : Prop where
  asked : v.asked = false → ∀ request r, ⟨.op (.rpc (.commit request)), r⟩ ∉ tr
  refused : v.refused = true → ∃ exchange ∈ tr, ∃ id, denied exchange.1 exchange.2 = some id

theorem judges_nil : Judges ⟨false, false⟩ ([] : Trace σ χ) where
  asked _ _ _ := List.not_mem_nil
  refused h := by cases h

namespace Judges

theorem void (h : Judges v tr) (hvoid : v.Void) : Void tr :=
  hvoid.imp h.asked h.refused

theorem snoc {exchange : Sigma (Reply σ χ)} (h : Judges v tr)
    (hcommit : ∀ request r, exchange ≠ ⟨.op (.rpc (.commit request)), r⟩) :
    Judges v (tr ++ [exchange]) where
  asked hasked request r hmem := by
    rcases List.mem_append.mp hmem with hearlier | hlast
    · exact h.asked hasked request r hearlier
    · exact hcommit request r (List.mem_singleton.mp hlast).symm
  refused hrefused := by
    obtain ⟨c, hc, hdenied⟩ := h.refused hrefused
    exact ⟨c, List.mem_append_left _ hc, hdenied⟩

theorem op (h : Judges v tr) (call : ConnectionImpl.Call) (r : ConnectionImpl.Reply σ χ call) :
    Judges (v.next call r) (tr ++ [⟨.op call, r⟩]) := by
  by_cases hcommit : ∃ request, call = .rpc (.commit request)
  · obtain ⟨request, rfl⟩ := hcommit
    refine ⟨fun hasked => (by cases r <;> cases hasked), fun hrefused => ?_⟩
    have hearlier (hrefused : v.refused = true) :
        ∃ exchange ∈ tr ++ [⟨.op (.rpc (.commit request)), r⟩],
          ∃ id, denied exchange.1 exchange.2 = some id := by
      obtain ⟨c, hc, hdenied⟩ := h.refused hrefused
      exact ⟨c, List.mem_append_left _ hc, hdenied⟩
    cases r with
    | ok response => exact hearlier hrefused
    | error e =>
      rcases Bool.or_eq_true_iff.mp hrefused with hrefused | hcode
      · exact hearlier hrefused
      · exact ⟨_, List.mem_append_right _ (List.mem_singleton_self _), request.transactionId,
          if_pos hcode⟩
  · have hother (request : CommitRequest) : call ≠ .rpc (.commit request) := fun hcall =>
      hcommit ⟨request, hcall⟩
    rw [Verdict.next_of_ne r hother]
    refine h.snoc fun request r' heq => ?_
    cases heq
    exact hother request rfl

end Judges

end TransactionUse

namespace ClientCommit

open ConnectionImpl TransactionUse

variable {σ χ ξ : Type}

abbrev Exchange (σ χ ξ : Type) := Sigma (Reply (χ := χ) σ ξ)

abbrev Trace (σ χ ξ : Type) := List (Exchange σ χ ξ)

def narrow : Exchange σ χ ξ → Option (Nat × Sigma (TransactionUse.Reply σ χ))
  | ⟨.choose n told, choice⟩ =>
    some (n, ⟨.choose told, choice.map MutatorOperation.toGivenOperation⟩)
  | ⟨.commit n mutations, _⟩ => some (n, ⟨.choose .nothing, some (committing mutations)⟩)
  | ⟨.rollback n, _⟩ => some (n, ⟨.choose .nothing, some rollingBack⟩)
  | ⟨.op n call, r⟩ => some (n, ⟨.op call, r⟩)
  | ⟨.mutator _ _, _⟩ | ⟨.returns _, _⟩ | ⟨.onFailure _, _⟩ | ⟨.setBad _, _⟩ | ⟨.onCompletion, _⟩
  | ⟨.sleepFor _, _⟩ | ⟨.log _, _⟩ => none

def party (n : Nat) (tr : Trace σ χ ξ) : TransactionUse.Trace σ χ :=
  tr.filterMap fun exchange => match narrow exchange with
    | some (m, c) => if m = n then some c else none
    | none => none

section

variable {conn : ConnectionImpl σ} {g g' : Course χ} {tr : Trace σ χ ξ} {exchange : Exchange σ χ ξ}
  {n m : Nat} {c : Sigma (TransactionUse.Reply σ χ)}

theorem party_append {tr' : Trace σ χ ξ} : party n (tr ++ tr') = party n tr ++ party n tr' :=
  List.filterMap_append

theorem party_snoc_self (h : narrow exchange = some (n, c)) :
    party n (tr ++ [exchange]) = party n tr ++ [c] := by
  simp [party, h]

theorem party_snoc_of_ne (h : ∀ c, narrow exchange ≠ some (n, c)) :
    party n (tr ++ [exchange]) = party n tr := by
  cases hnarrow : narrow exchange with
  | none => simp [party, hnarrow]
  | some p =>
    obtain ⟨m, c⟩ := p
    have hne : m ≠ n := fun hm => h c (hm ▸ hnarrow)
    simp [party, hnarrow, hne]

theorem mem_party : c ∈ party n tr ↔ ∃ exchange ∈ tr, narrow exchange = some (n, c) := by
  simp only [party, List.mem_filterMap]
  refine exists_congr fun exchange => and_congr_right fun _ => ?_
  cases narrow exchange with
  | none => simp
  | some p => simp [Prod.ext_iff, eq_comm]

structure Moves (conn : ConnectionImpl σ) (g : Course χ) (n : Nat)
    (c : Sigma (TransactionUse.Reply σ χ)) (g' : Course χ) : Prop where
  next : g.next = n + 1
  allows : (TransactionUse.contract (χ := χ) conn .readWrite).allows (g.progress n) c.1
  next_eq : g'.next = g.next
  session : g'.session = g.session
  returned : g'.returned = g.returned
  progress : g'.progress =
    Function.update g.progress n (TransactionUse.next conn (g.progress n) c.1 c.2)
  judges {tr : TransactionUse.Trace σ χ} : Judges g.verdict tr → Judges g'.verdict (tr ++ [c])
  commits {mutations : List Mutation} : .commit mutations ∈ chosen [c] → g.returned = some mutations

inductive Advances (conn : ConnectionImpl σ) (g : Course χ) (exchange : Exchange σ χ ξ) :
    Course χ → Prop
  | begins {n : Nat} {session : Option (SessionHolder χ)} :
    exchange = ⟨.mutator n session, ()⟩ → g.next = n → g.verdict.Void →
      Advances conn g exchange (g.begin n session)
  | moves {n : Nat} {c : Sigma (TransactionUse.Reply σ χ)} {g' : Course χ} :
    narrow exchange = some (n, c) → Moves conn g n c g' → Advances conn g exchange g'
  | returns {n : Nat} {mutations : List Mutation} :
    exchange = ⟨.returns n, .returned (.ok mutations)⟩ → g.next = n + 1 →
      Advances conn g exchange { g with returned := some mutations }
  | stays : narrow exchange = none → (∀ n session, exchange ≠ ⟨.mutator n session, ()⟩) →
    Advances conn g exchange g

theorem advances (h : (contract (ξ := ξ) conn).allows g exchange.1) :
    Advances conn g exchange ((contract conn).next g exchange.1 exchange.2) := by
  obtain ⟨call, r⟩ := exchange
  have hchoice {told : Told} {given : GivenOperation} {mutations : List Mutation}
      (hmem : .commit mutations ∈ chosen (σ := σ) (χ := χ) [⟨.choose told, some given⟩]) :
      given.op = .commit mutations := (List.mem_singleton.mp hmem).symm
  cases call with
  | mutator n session => exact .begins rfl h.1 h.2
  | choose n told =>
    refine .moves rfl ⟨h.1, h.2.2, rfl, rfl, rfl, rfl, fun hjudges => hjudges.snoc ?_, ?_⟩
    · rintro request r' heq
      cases heq
    · intro mutations hmem
      cases r with
      | none => cases hmem
      | some choice => exact absurd (hchoice hmem) (choice.left mutations)
  | commit n mutations =>
    refine .moves rfl ⟨h.1, trivial, rfl, rfl, rfl, rfl, fun hjudges => hjudges.snoc ?_, ?_⟩
    · rintro request r' heq
      cases heq
    · intro mutations' hmem
      cases hchoice hmem
      exact h.2.2
  | rollback n =>
    refine .moves rfl ⟨h.1, trivial, rfl, rfl, rfl, rfl, fun hjudges => hjudges.snoc ?_, ?_⟩
    · rintro request r' heq
      cases heq
    · intro mutations' hmem
      cases hchoice hmem
  | op n call =>
    refine .moves rfl ⟨h.1, h.2.1, rfl, rfl, rfl, rfl, fun hjudges => hjudges.op call r, ?_⟩
    intro mutations hmem
    cases hmem
  | returns n =>
    match r with
    | .returned (.ok mutations) => exact .returns rfl h
    | .returned (.error e) | .threwStatus status | .threw exception =>
      exact .stays rfl fun _ _ heq => by cases heq
  | onFailure | setBad | onCompletion | sleepFor | log =>
    exact .stays rfl fun _ _ heq => by cases heq

structure Tracks (conn : ConnectionImpl σ) (tr : Trace σ χ ξ) (g : Course χ) : Prop where
  begun {n : Nat} {session : Option (SessionHolder χ)} : ⟨.mutator n session, ()⟩ ∈ tr → n < g.next
  fresh {n : Nat} : g.next ≤ n → party n tr = []
  progress (n : Nat) : g.progress n =
    (TransactionUse.contract conn .readWrite).after (initial (g.session n) none) (party n tr)
  obeys (n : Nat) :
    (TransactionUse.contract conn .readWrite).Obeys (initial (g.session n) none) (party n tr)
  judges {n : Nat} : g.next = n + 1 → Judges g.verdict (party n tr)
  past {n : Nat} : n + 1 < g.next → Void (party n tr)
  returned {n : Nat} {mutations : List Mutation} : g.next = n + 1 → g.returned = some mutations →
    ⟨.returns n, .returned (.ok mutations)⟩ ∈ tr
  commits {n : Nat} {mutations : List Mutation} : .commit mutations ∈ chosen (party n tr) →
    ⟨.returns n, .returned (.ok mutations)⟩ ∈ tr

theorem tracks_start : Tracks conn ([] : Trace σ χ ξ) Course.start where
  begun h := by cases h
  fresh _ := rfl
  progress _ := rfl
  obeys _ := trivial
  judges h := by cases h
  past h := by cases h
  returned h := by cases h
  commits h := by cases h

namespace Tracks

theorem party_eq (hnarrow : narrow exchange = none) (n : Nat) :
    party n (tr ++ [exchange]) = party n tr :=
  party_snoc_of_ne fun c hc => by cases hnarrow.symm.trans hc

theorem begun_snoc {session : Option (SessionHolder χ)} {k : Nat} (h : Tracks conn tr g)
    (hle : g.next ≤ k) (hexchange : exchange = ⟨.mutator n session, ()⟩ → n < k)
    (hmem : ⟨.mutator n session, ()⟩ ∈ tr ++ [exchange]) : n < k := by
  rcases List.mem_append.mp hmem with hearlier | hlast
  · exact Nat.lt_of_lt_of_le (h.begun hearlier) hle
  · exact hexchange (List.mem_singleton.mp hlast).symm

theorem begins {session : Option (SessionHolder χ)} (h : Tracks conn tr g)
    (hexchange : exchange = ⟨.mutator g.next session, ()⟩) (hnarrow : narrow exchange = none)
    (hvoid : g.verdict.Void) : Tracks conn (tr ++ [exchange]) (g.begin g.next session) where
  begun := h.begun_snoc (Nat.le_succ _) fun heq => by
    cases hexchange.symm.trans heq
    exact Nat.lt_succ_self _
  fresh hle := by
    rw [party_eq hnarrow]
    exact h.fresh (Nat.le_of_succ_le hle)
  progress n := by
    rw [party_eq hnarrow]
    by_cases hn : n = g.next
    · subst hn
      simp [Course.begin, h.fresh (le_refl _), Contract.after]
    · simpa [Course.begin, Function.update_of_ne hn] using h.progress n
  obeys n := by
    rw [party_eq hnarrow]
    by_cases hn : n = g.next
    · subst hn
      rw [h.fresh (le_refl _)]
      trivial
    · simpa [Course.begin, Function.update_of_ne hn] using h.obeys n
  judges {n} hnext := by
    obtain rfl : g.next = n := Nat.succ.inj hnext
    rw [party_eq hnarrow, h.fresh (le_refl _)]
    exact judges_nil
  past {n} hlt := by
    rw [party_eq hnarrow]
    rcases Nat.lt_or_eq_of_le (Nat.le_of_lt_succ hlt) with hearlier | hlast
    · exact h.past hearlier
    · exact (h.judges hlast.symm).void hvoid
  returned _ hreturned := by cases hreturned
  commits hcommit := by
    rw [party_eq hnarrow] at hcommit
    exact List.mem_append_left _ (h.commits hcommit)

theorem moves (h : Tracks conn tr g) (hnarrow : narrow exchange = some (m, c))
    (hmoves : Moves conn g m c g') : Tracks conn (tr ++ [exchange]) g' := by
  have hother {n : Nat} (hn : n ≠ m) : party n (tr ++ [exchange]) = party n tr :=
    party_snoc_of_ne fun c' hc => by
      cases hnarrow.symm.trans hc
      exact hn rfl
  refine ⟨h.begun_snoc hmoves.next_eq.ge fun heq => ?_, fun {n} hle => ?_, fun n => ?_, fun n => ?_,
    fun {n} hnext => ?_, fun {n} hlt => ?_, fun {n mutations} hnext hreturned => ?_,
    fun {n mutations} hcommit => ?_⟩
  · rw [heq] at hnarrow
    cases hnarrow
  · rw [hmoves.next_eq, hmoves.next] at hle
    rw [hother (by omega)]
    exact h.fresh (by rw [hmoves.next]; exact hle)
  · rw [hmoves.progress, hmoves.session]
    by_cases hn : n = m
    · subst hn
      rw [Function.update_self, party_snoc_self hnarrow, Contract.after_append, ← h.progress]
      rfl
    · rw [Function.update_of_ne hn, hother hn]
      exact h.progress n
  · rw [hmoves.session]
    by_cases hn : n = m
    · subst hn
      rw [party_snoc_self hnarrow, Contract.obeys_append, ← h.progress]
      exact ⟨h.obeys n, hmoves.allows, trivial⟩
    · rw [hother hn]
      exact h.obeys n
  · rw [hmoves.next_eq] at hnext
    obtain rfl : m = n := Nat.succ.inj (hmoves.next.symm.trans hnext)
    rw [party_snoc_self hnarrow]
    exact hmoves.judges (h.judges hnext)
  · rw [hmoves.next_eq] at hlt
    rw [hother (by rw [hmoves.next] at hlt; omega)]
    exact h.past hlt
  · rw [hmoves.next_eq] at hnext
    rw [hmoves.returned] at hreturned
    exact List.mem_append_left _ (h.returned hnext hreturned)
  · by_cases hn : n = m
    · subst hn
      rw [party_snoc_self hnarrow, chosen_append] at hcommit
      refine List.mem_append_left _ ?_
      rcases List.mem_append.mp hcommit with hearlier | hlast
      · exact h.commits hearlier
      · exact h.returned hmoves.next (hmoves.commits hlast)
    · rw [hother hn] at hcommit
      exact List.mem_append_left _ (h.commits hcommit)

theorem stays (h : Tracks conn tr g) (hnarrow : narrow exchange = none)
    (hbegun : ∀ n session, exchange ≠ ⟨.mutator n session, ()⟩) :
    Tracks conn (tr ++ [exchange]) g where
  begun := h.begun_snoc (le_refl _) fun heq => absurd heq (hbegun _ _)
  fresh hle := by
    rw [party_eq hnarrow]
    exact h.fresh hle
  progress n := by
    rw [party_eq hnarrow]
    exact h.progress n
  obeys n := by
    rw [party_eq hnarrow]
    exact h.obeys n
  judges hnext := by
    rw [party_eq hnarrow]
    exact h.judges hnext
  past hlt := by
    rw [party_eq hnarrow]
    exact h.past hlt
  returned hnext hreturned := List.mem_append_left _ (h.returned hnext hreturned)
  commits hcommit := by
    rw [party_eq hnarrow] at hcommit
    exact List.mem_append_left _ (h.commits hcommit)

theorem step (h : Tracks conn tr g) (hadvances : Advances conn g exchange g') :
    Tracks conn (tr ++ [exchange]) g' := by
  cases hadvances with
  | begins hexchange hnext hvoid =>
    subst hnext
    exact h.begins hexchange (by rw [hexchange]; rfl) hvoid
  | moves hnarrow hmoves => exact h.moves hnarrow hmoves
  | @returns n mutations hexchange hnext =>
    have hnarrow : narrow exchange = none := by rw [hexchange]; rfl
    have hstays := h.stays hnarrow fun n session heq => by cases hexchange.symm.trans heq
    refine { hstays with returned := fun {n' m} hnext' hreturned => ?_ }
    obtain rfl : n = n' := Nat.succ.inj (hnext.symm.trans hnext')
    cases hreturned
    rw [hexchange]
    exact List.mem_append_right _ (List.mem_singleton_self _)
  | stays hnarrow hbegun => exact h.stays hnarrow hbegun

end Tracks

theorem tracks_of_obeys (h : (contract conn).Obeys Course.start tr) :
    Tracks conn tr ((contract conn).after Course.start tr) := by
  induction tr using List.reverseRecOn with
  | nil => exact tracks_start
  | append_singleton tr exchange ih =>
    obtain ⟨hobeys, hlast⟩ := Contract.obeys_append.mp h
    rw [Contract.after_append]
    exact (ih hobeys).step (advances hlast.1)

theorem session_after (h : (contract conn).Obeys g tr) :
    g.next ≤ ((contract conn).after g tr).next ∧
      ∀ n < g.next, ((contract conn).after g tr).session n = g.session n := by
  refine h.carries (R := fun g g' : Course χ =>
    g.next ≤ g'.next ∧ ∀ n < g.next, g'.session n = g.session n) ?_ ?_ ?_
  · exact fun g => ⟨le_refl _, fun _ _ => rfl⟩
  · rintro g₁ g₂ g₃ ⟨hle, hsame⟩ ⟨hle', hsame'⟩
    exact ⟨hle.trans hle', fun n hn =>
      (hsame' n (Nat.lt_of_lt_of_le hn hle)).trans (hsame n hn)⟩
  · intro g call r hallows
    have hadvances : Advances conn g (⟨call, r⟩ : Exchange σ χ ξ) ((contract conn).next g call r) :=
      advances hallows
    generalize (contract conn).next g call r = g' at hadvances
    cases hadvances with
    | begins _ hnext =>
      subst hnext
      exact ⟨Nat.le_succ _, fun n hn => Function.update_of_ne hn.ne ..⟩
    | moves _ hmoves => exact ⟨hmoves.next_eq.ge, fun _ _ => by rw [hmoves.session]⟩
    | returns | stays => exact ⟨le_refl _, fun _ _ => rfl⟩

end

end ClientCommit

end SpannerClient
