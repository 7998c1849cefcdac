import SpannerClient.Library.Contract
import Mathlib.Data.List.Forall2

/-! Programs that are run as part of programs which make calls of more kinds. -/

namespace SpannerClient

variable {ε ε' : Type} {ρ : ε → Type} {ρ' : ε' → Type} {α γ γ' σ χ : Type}

structure Embedding (ρ : ε → Type) (ρ' : ε' → Type) where
  call : ε → ε'
  reply : (e : ε) → ρ' (call e) → ρ e

namespace Embedding

variable (f : Embedding ρ ρ')

def Exchanges (wide : Sigma ρ') (narrow : Sigma ρ) : Prop :=
  ∃ e r, wide = ⟨f.call e, r⟩ ∧ narrow = ⟨e, f.reply e r⟩

theorem exchanges_mk (e : ε) (r : ρ' (f.call e)) :
    f.Exchanges ⟨f.call e, r⟩ ⟨e, f.reply e r⟩ := ⟨e, r, rfl, rfl⟩

theorem exists_wide {f : Embedding ρ ρ'} {wide : List (Sigma ρ')} {narrow : List (Sigma ρ)}
    (h : List.Forall₂ f.Exchanges wide narrow) {c : Sigma ρ} (hc : c ∈ narrow) :
    ∃ c' ∈ wide, f.Exchanges c' c := by
  induction h with
  | nil => cases hc
  | cons hexchange _ ih =>
    rcases List.mem_cons.mp hc with rfl | hc
    · exact ⟨_, List.mem_cons_self, hexchange⟩
    · obtain ⟨c', hc', hexchange'⟩ := ih hc
      exact ⟨c', List.mem_cons_of_mem _ hc', hexchange'⟩

end Embedding

def Interaction.embed (f : Embedding ρ ρ') : Interaction ε ρ α → Interaction ε' ρ' α
  | .ret a => .ret a
  | .call e k => .call (f.call e) fun r => (k (f.reply e r)).embed f

theorem Interaction.runs_embed {f : Embedding ρ ρ'} {m : Interaction ε ρ α} {wide : List (Sigma ρ')}
    {a : α} : (m.embed f).Runs wide a ↔
      ∃ narrow, List.Forall₂ f.Exchanges wide narrow ∧ m.Runs narrow a := by
  induction m generalizing wide with
  | ret b => simp [embed, runs_ret, List.forall₂_nil_right_iff]
  | call e k ih =>
    simp only [embed, runs_call, ih]
    constructor
    · rintro ⟨r, _, rfl, narrow, hnarrow, hrun⟩
      exact ⟨_, .cons (f.exchanges_mk e r) hnarrow, _, narrow, rfl, hrun⟩
    · rintro ⟨_, hexchanges, r, narrow, rfl, hrun⟩
      obtain ⟨_, wide, ⟨_, r', rfl, heq⟩, hnarrow, rfl⟩ := List.forall₂_cons_right_iff.mp hexchanges
      cases heq
      exact ⟨r', wide, rfl, narrow, hnarrow, hrun⟩

/-- A contract for all calls that allows the embedded ones which a contract for them alone allows:
`view` is what the latter keeps, and `Inv` holds while they are made. -/
structure Contract.Extends (c' : Contract ρ' γ') (f : Embedding ρ ρ') (c : Contract ρ γ)
    (view : γ' → γ) (Inv : γ' → Prop) : Prop where
  allows {g : γ'} {e : ε} : Inv g → c.allows (view g) e → c'.allows g (f.call e)
  inv {g : γ'} {e : ε} (r : ρ' (f.call e)) : Inv g → c.allows (view g) e →
    Inv (c'.next g (f.call e) r)
  next {g : γ'} {e : ε} (r : ρ' (f.call e)) : Inv g → c.allows (view g) e →
    view (c'.next g (f.call e) r) = c.next (view g) e (f.reply e r)

theorem Interaction.Keeps.embed {f : Embedding ρ ρ'} {c : Contract ρ γ} {c' : Contract ρ' γ'}
    {view : γ' → γ} {Inv : γ' → Prop} {post : α → γ → Prop} {m : Interaction ε ρ α} {g : γ'}
    (hc : c'.Extends f c view Inv) (hinv : Inv g) (h : m.Keeps c post (view g)) :
    (m.embed f).Keeps c' (fun a g => Inv g ∧ post a (view g)) g := by
  induction m generalizing g with
  | ret a => exact ⟨hinv, h⟩
  | call e k ih =>
    refine ⟨hc.allows hinv h.1, fun r => ih _ (hc.inv r hinv h.1) ?_⟩
    rw [hc.next r hinv h.1]
    exact h.2 _

namespace Program

def embed (f : Embedding ρ ρ') (m : Program ρ σ χ α) : Program ρ' σ χ α := fun s => (m s).embed f

theorem runs_embed {f : Embedding ρ ρ'} {m : Program ρ σ χ α} {s s' : σ} {wide : List (Sigma ρ')}
    {result : Except χ α} : (m.embed f).Runs s wide result s' ↔
      ∃ narrow, List.Forall₂ f.Exchanges wide narrow ∧ m.Runs s narrow result s' :=
  Interaction.runs_embed

theorem Keeps.embed {f : Embedding ρ ρ'} {c : Contract ρ γ} {c' : Contract ρ' γ'} {view : γ' → γ}
    {Inv : γ' → Prop} {post : Except χ α → σ → γ → Prop} {m : Program ρ σ χ α} {s : σ} {g : γ'}
    (hc : c'.Extends f c view Inv) (hinv : Inv g) (h : m.Keeps c post s (view g)) :
    (m.embed f).Keeps c' (fun result s g => Inv g ∧ post result s (view g)) s g :=
  Interaction.Keeps.embed hc hinv h

end Program

end SpannerClient
