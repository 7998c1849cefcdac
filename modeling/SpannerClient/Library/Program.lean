import Mathlib.Data.List.Basic

/-! Programs that make calls, keep a state and may throw, and the traces of their calls. -/

namespace SpannerClient

variable {ε : Type} {ρ : ε → Type} {α β : Type}

/-- A computation that makes calls of type `ε`; the reply to `e` is of type `ρ e`. -/
inductive Interaction (ε : Type) (ρ : ε → Type) (α : Type)
  | ret (a : α)
  | call (e : ε) (k : ρ e → Interaction ε ρ α)

namespace Interaction

def bind : Interaction ε ρ α → (α → Interaction ε ρ β) → Interaction ε ρ β
  | .ret a, f => f a
  | .call e k, f => .call e fun r => (k r).bind f

inductive Runs : Interaction ε ρ α → List (Sigma ρ) → α → Prop
  | ret {a : α} : Runs (.ret a) [] a
  | call {e : ε} {k : ρ e → Interaction ε ρ α} {r : ρ e} {tr : List (Sigma ρ)} {a : α} :
    Runs (k r) tr a → Runs (.call e k) (⟨e, r⟩ :: tr) a

theorem runs_ret {a b : α} {tr : List (Sigma ρ)} :
    (ret a : Interaction ε ρ α).Runs tr b ↔ tr = [] ∧ b = a := by
  constructor
  · intro h
    cases h
    exact ⟨rfl, rfl⟩
  · rintro ⟨rfl, rfl⟩
    exact .ret

theorem runs_call {e : ε} {k : ρ e → Interaction ε ρ α} {tr : List (Sigma ρ)} {a : α} :
    (call e k).Runs tr a ↔ ∃ r tr', tr = ⟨e, r⟩ :: tr' ∧ (k r).Runs tr' a := by
  constructor
  · intro h
    cases h with
    | @call _ _ r tr' _ h => exact ⟨r, tr', rfl, h⟩
  · rintro ⟨r, tr', rfl, h⟩
    exact .call h

theorem runs_bind {m : Interaction ε ρ α} {f : α → Interaction ε ρ β} {tr : List (Sigma ρ)}
    {b : β} :
    (m.bind f).Runs tr b ↔ ∃ tr₁ a tr₂, tr = tr₁ ++ tr₂ ∧ m.Runs tr₁ a ∧ (f a).Runs tr₂ b := by
  induction m generalizing tr with
  | ret a => simp [bind, runs_ret]
  | call e k ih =>
    simp only [bind, runs_call, ih]
    constructor
    · rintro ⟨r, _, rfl, tr₁, a, tr₂, rfl, h₁, h₂⟩
      exact ⟨⟨e, r⟩ :: tr₁, a, tr₂, rfl, ⟨r, tr₁, rfl, h₁⟩, h₂⟩
    · rintro ⟨_, a, tr₂, rfl, ⟨r, tr₁, rfl, h₁⟩, h₂⟩
      exact ⟨r, tr₁ ++ tr₂, rfl, tr₁, a, tr₂, rfl, h₁, h₂⟩

end Interaction

/-- A program over a state `σ`, which it keeps when it throws a `χ`. -/
def Program (ρ : ε → Type) (σ χ α : Type) : Type := σ → Interaction ε ρ (Except χ α × σ)

namespace Program

variable {σ χ : Type}

instance : Monad (Program ρ σ χ) where
  pure a s := .ret (.ok a, s)
  bind m f s := (m s).bind fun
    | (.ok a, s) => f a s
    | (.error x, s) => .ret (.error x, s)

def throw (x : χ) : Program ρ σ χ α := fun s => .ret (.error x, s)

def get : Program ρ σ χ σ := fun s => .ret (.ok s, s)

def modify (f : σ → σ) : Program ρ σ χ Unit := fun s => .ret (.ok (), f s)

def perform (e : ε) : Program ρ σ χ (ρ e) := fun s => .call e fun r => .ret (.ok r, s)

def recover (m : Program ρ σ χ α) (handler : χ → Program ρ σ χ α) : Program ρ σ χ α :=
  fun s => (m s).bind fun
    | (.ok a, s) => .ret (.ok a, s)
    | (.error x, s) => handler x s

def Runs (m : Program ρ σ χ α) (s : σ) (tr : List (Sigma ρ)) (result : Except χ α) (s' : σ) :
    Prop :=
  (m s).Runs tr (result, s')

variable {s s' : σ} {tr : List (Sigma ρ)} {result : Except χ α}

@[simp] theorem runs_pure {a : α} :
    (pure a : Program ρ σ χ α).Runs s tr result s' ↔ tr = [] ∧ result = .ok a ∧ s' = s := by
  simp [Runs, pure, Interaction.runs_ret]

@[simp] theorem runs_throw {x : χ} :
    (throw x : Program ρ σ χ α).Runs s tr result s' ↔
      tr = [] ∧ result = .error x ∧ s' = s := by
  simp [Runs, throw, Interaction.runs_ret]

@[simp] theorem runs_get {result : Except χ σ} :
    (get : Program ρ σ χ σ).Runs s tr result s' ↔ tr = [] ∧ result = .ok s ∧ s' = s := by
  simp [Runs, get, Interaction.runs_ret]

@[simp] theorem runs_modify {f : σ → σ} {result : Except χ Unit} :
    (modify f : Program ρ σ χ Unit).Runs s tr result s' ↔
      tr = [] ∧ result = .ok () ∧ s' = f s := by
  simp [Runs, modify, Interaction.runs_ret]

@[simp] theorem runs_perform {e : ε} {result : Except χ (ρ e)} :
    (perform e : Program ρ σ χ (ρ e)).Runs s tr result s' ↔
      ∃ r, tr = [⟨e, r⟩] ∧ result = .ok r ∧ s' = s := by
  simp only [Runs, perform, Interaction.runs_call, Interaction.runs_ret, Prod.mk.injEq]
  constructor
  · rintro ⟨r, _, rfl, rfl, rfl, rfl⟩
    exact ⟨r, rfl, rfl, rfl⟩
  · rintro ⟨r, rfl, rfl, rfl⟩
    exact ⟨r, [], rfl, rfl, rfl, rfl⟩

theorem runs_bind {m : Program ρ σ χ α} {f : α → Program ρ σ χ β} {result : Except χ β} :
    (m >>= f).Runs s tr result s' ↔
      (∃ a tr₁ tr₂ s₁, tr = tr₁ ++ tr₂ ∧ m.Runs s tr₁ (.ok a) s₁ ∧
        (f a).Runs s₁ tr₂ result s') ∨
      ∃ x, result = .error x ∧ m.Runs s tr (.error x) s' := by
  simp only [Runs, bind, Interaction.runs_bind]
  constructor
  · rintro ⟨tr₁, ⟨first, s₁⟩, tr₂, rfl, h₁, h₂⟩
    cases first with
    | ok a => exact .inl ⟨a, tr₁, tr₂, s₁, rfl, h₁, h₂⟩
    | error x =>
      simp only [Interaction.runs_ret, Prod.mk.injEq] at h₂
      obtain ⟨rfl, rfl, rfl⟩ := h₂
      exact .inr ⟨x, rfl, by simpa using h₁⟩
  · rintro (⟨a, tr₁, tr₂, s₁, rfl, h₁, h₂⟩ | ⟨x, rfl, h⟩)
    · exact ⟨tr₁, (.ok a, s₁), tr₂, rfl, h₁, h₂⟩
    · exact ⟨tr, (.error x, s'), [], by simp, h, .ret⟩

theorem runs_recover {m : Program ρ σ χ α} {handler : χ → Program ρ σ χ α} :
    (recover m handler).Runs s tr result s' ↔
      (∃ a, result = .ok a ∧ m.Runs s tr (.ok a) s') ∨
      ∃ x tr₁ tr₂ s₁, tr = tr₁ ++ tr₂ ∧ m.Runs s tr₁ (.error x) s₁ ∧
        (handler x).Runs s₁ tr₂ result s' := by
  simp only [Runs, recover, Interaction.runs_bind]
  constructor
  · rintro ⟨tr₁, ⟨first, s₁⟩, tr₂, rfl, h₁, h₂⟩
    cases first with
    | ok a =>
      simp only [Interaction.runs_ret, Prod.mk.injEq] at h₂
      obtain ⟨rfl, rfl, rfl⟩ := h₂
      exact .inl ⟨a, rfl, by simpa using h₁⟩
    | error x => exact .inr ⟨x, tr₁, tr₂, s₁, rfl, h₁, h₂⟩
  · rintro (⟨a, rfl, h⟩ | ⟨x, tr₁, tr₂, s₁, rfl, h₁, h₂⟩)
    · exact ⟨tr, (.ok a, s'), [], by simp, h, .ret⟩
    · exact ⟨tr₁, (.error x, s₁), tr₂, rfl, h₁, h₂⟩

@[simp] theorem runs_pure_bind {a : α} {f : α → Program ρ σ χ β} {result : Except χ β} :
    (pure a >>= f).Runs s tr result s' ↔ (f a).Runs s tr result s' := Iff.rfl

@[simp] theorem runs_throw_bind {x : χ} {f : α → Program ρ σ χ β} {result : Except χ β} :
    (throw x >>= f).Runs s tr result s' ↔ tr = [] ∧ result = .error x ∧ s' = s :=
  runs_throw

@[simp] theorem runs_get_bind {f : σ → Program ρ σ χ β} {result : Except χ β} :
    (get >>= f).Runs s tr result s' ↔ (f s).Runs s tr result s' := Iff.rfl

@[simp] theorem runs_modify_bind {g : σ → σ} {f : Unit → Program ρ σ χ β}
    {result : Except χ β} :
    (modify g >>= f).Runs s tr result s' ↔ (f ()).Runs (g s) tr result s' := Iff.rfl

@[simp] theorem runs_perform_bind {e : ε} {f : ρ e → Program ρ σ χ β} {result : Except χ β} :
    (perform e >>= f).Runs s tr result s' ↔
      ∃ r tr', tr = ⟨e, r⟩ :: tr' ∧ (f r).Runs s tr' result s' :=
  Interaction.runs_call

end Program

end SpannerClient
