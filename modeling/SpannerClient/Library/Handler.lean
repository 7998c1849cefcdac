import SpannerClient.Library.Contract

/-! Programs whose calls are handled by other programs. -/

namespace SpannerClient

variable {ε ε' : Type} {ρ : ε → Type} {ρ' : ε' → Type} {α γ γ' σ τ χ : Type}

def Interaction.handle (handler : (e : ε) → Program ρ' σ χ (ρ e)) :
    Interaction ε ρ α → Program ρ' σ χ α
  | .ret a => pure a
  | .call e k => handler e >>= fun r => (k r).handle handler

theorem Interaction.Keeps.handle {handler : (e : ε) → Program ρ' σ χ (ρ e)} {c : Contract ρ γ}
    {c' : Contract ρ' γ'} {R : γ → σ → γ' → Prop} {post : α → γ → Prop} {m : Interaction ε ρ α}
    {g : γ} {s : σ} {g' : γ'}
    (hhandler : ∀ {g e s g'}, c.allows g e → R g s g' → (handler e).Keeps c'
      (fun result s' g'' => ∀ r, result = .ok r → R (c.next g e r) s' g'') s g')
    (h : m.Keeps c post g) (hR : R g s g') :
    (m.handle handler).Keeps c'
      (fun result s' g'' => ∀ a, result = .ok a → ∃ g, R g s' g'' ∧ post a g) s g' := by
  induction m generalizing g s g' with
  | ret b =>
    rintro a ha
    cases ha
    exact ⟨g, hR, h⟩
  | call e k ih =>
    refine (hhandler h.1 hR).bind (fun r s' g'' hR' => ih r (h.2 r) (hR' r rfl)) ?_
    intro x s' g'' _ a ha
    cases ha

namespace Program

def within (t : τ) (m : Program ρ τ χ α) : Program ρ σ χ (α × τ) := fun s =>
  (m t).bind fun
    | (.ok a, t) => .ret (.ok (a, t), s)
    | (.error x, _) => .ret (.error x, s)

theorem Keeps.within {c : Contract ρ γ} {t : τ} {m : Program ρ τ χ α} {s : σ} {g : γ}
    {mid : Except χ α → τ → γ → Prop} {post : Except χ (α × τ) → σ → γ → Prop}
    (h : m.Keeps c mid t g) (hok : ∀ a t g, mid (.ok a) t g → post (.ok (a, t)) s g)
    (herror : ∀ x t g, mid (.error x) t g → post (.error x) s g) :
    (m.within t).Keeps c post s g := by
  refine Interaction.keeps_bind.mpr (Interaction.Keeps.mono h ?_)
  rintro ⟨first, t'⟩ g' hmid
  cases first with
  | ok a => exact hok a t' g' hmid
  | error x => exact herror x t' g' hmid

end Program

end SpannerClient
