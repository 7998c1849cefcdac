import SpannerClient.Library.Program

/-! Contracts: which calls a program may make, after the calls and the replies so far. -/

namespace SpannerClient

variable {ε : Type} {ρ : ε → Type} {γ α β : Type}

/-- A `γ` is what is kept of the calls so far. -/
structure Contract (ρ : ε → Type) (γ : Type) where
  allows : γ → ε → Prop
  next : γ → (e : ε) → ρ e → γ

def Contract.after (c : Contract ρ γ) (g : γ) (tr : List (Sigma ρ)) : γ :=
  tr.foldl (fun g exchange => c.next g exchange.1 exchange.2) g

theorem Contract.after_append (c : Contract ρ γ) (g : γ) (tr tr' : List (Sigma ρ)) :
    c.after g (tr ++ tr') = c.after (c.after g tr) tr' :=
  List.foldl_append

def Contract.Obeys (c : Contract ρ γ) (g : γ) : List (Sigma ρ) → Prop
  | [] => True
  | ⟨e, r⟩ :: tr => c.allows g e ∧ c.Obeys (c.next g e r) tr

namespace Contract

variable {c : Contract ρ γ} {g : γ} {tr tr' : List (Sigma ρ)}

theorem obeys_append : c.Obeys g (tr ++ tr') ↔ c.Obeys g tr ∧ c.Obeys (c.after g tr) tr' := by
  induction tr generalizing g with
  | nil => simp [Obeys, after]
  | cons exchange tr ih =>
    rw [List.cons_append, Obeys, Obeys, ih, and_assoc]
    rfl

theorem Obeys.carries {R : γ → γ → Prop} (h : c.Obeys g tr) (hrefl : ∀ g, R g g)
    (htrans : ∀ {g₁ g₂ g₃}, R g₁ g₂ → R g₂ g₃ → R g₁ g₃)
    (hstep : ∀ {g e} (r : ρ e), c.allows g e → R g (c.next g e r)) : R g (c.after g tr) := by
  induction tr generalizing g with
  | nil => exact hrefl g
  | cons exchange tr ih => exact htrans (hstep exchange.2 h.1) (ih h.2)

def prod {γ' : Type} (c : Contract ρ γ) (c' : Contract ρ γ') : Contract ρ (γ × γ') where
  allows g e := c.allows g.1 e ∧ c'.allows g.2 e
  next g e r := (c.next g.1 e r, c'.next g.2 e r)

end Contract

namespace Interaction

variable {c : Contract ρ γ}

/-- Each call is allowed, whatever the replies are, and `post` holds at the end. -/
def Keeps (c : Contract ρ γ) (post : α → γ → Prop) : Interaction ε ρ α → γ → Prop
  | .ret a, g => post a g
  | .call e k, g => c.allows g e ∧ ∀ r, (k r).Keeps c post (c.next g e r)

theorem Keeps.mono {post post' : α → γ → Prop} {m : Interaction ε ρ α} {g : γ}
    (h : m.Keeps c post g) (hpost : ∀ a g, post a g → post' a g) : m.Keeps c post' g := by
  induction m generalizing g with
  | ret a => exact hpost a g h
  | call e k ih => exact ⟨h.1, fun r => ih r (h.2 r)⟩

theorem Keeps.post_of_runs {post : α → γ → Prop} {m : Interaction ε ρ α} {g : γ}
    (h : m.Keeps c post g) {tr : List (Sigma ρ)} {a : α} (hrun : m.Runs tr a) :
    post a (c.after g tr) := by
  induction hrun generalizing g with
  | ret => exact h
  | call _ ih => exact ih (h.2 _)

theorem Keeps.obeys_of_runs {post : α → γ → Prop} {m : Interaction ε ρ α} {g : γ}
    (h : m.Keeps c post g) {tr : List (Sigma ρ)} {a : α} (hrun : m.Runs tr a) : c.Obeys g tr := by
  induction hrun generalizing g with
  | ret => trivial
  | call _ ih => exact ⟨h.1, ih (h.2 _)⟩

theorem Keeps.prod {γ' : Type} {c' : Contract ρ γ'} {post : α → γ → Prop} {post' : α → γ' → Prop}
    {m : Interaction ε ρ α} {g : γ} {g' : γ'} (h : m.Keeps c post g) (h' : m.Keeps c' post' g') :
    m.Keeps (c.prod c') (fun a g => post a g.1 ∧ post' a g.2) (g, g') := by
  induction m generalizing g g' with
  | ret a => exact ⟨h, h'⟩
  | call e k ih => exact ⟨⟨h.1, h'.1⟩, fun r => ih r (h.2 r) (h'.2 r)⟩

theorem keeps_of_allows (h : ∀ g e, c.allows g e) (m : Interaction ε ρ α) (g : γ) :
    m.Keeps c (fun _ _ => True) g := by
  induction m generalizing g with
  | ret a => trivial
  | call e k ih => exact ⟨h g e, fun r => ih r _⟩

theorem keeps_bind {post : β → γ → Prop} {m : Interaction ε ρ α} {f : α → Interaction ε ρ β}
    {g : γ} : (m.bind f).Keeps c post g ↔ m.Keeps c (fun a => (f a).Keeps c post) g := by
  induction m generalizing g with
  | ret a => rfl
  | call e k ih => simp only [bind, Keeps, ih]

end Interaction

namespace Program

variable {σ χ : Type} {c : Contract ρ γ} {s : σ} {g : γ} {post : Except χ α → σ → γ → Prop}

def Keeps (c : Contract ρ γ) (post : Except χ α → σ → γ → Prop) (m : Program ρ σ χ α) (s : σ)
    (g : γ) : Prop :=
  (m s).Keeps c (fun result => post result.1 result.2) g

theorem Keeps.mono {post' : Except χ α → σ → γ → Prop} {m : Program ρ σ χ α}
    (h : m.Keeps c post s g) (hpost : ∀ result s g, post result s g → post' result s g) :
    m.Keeps c post' s g :=
  Interaction.Keeps.mono h fun _ => hpost _ _

theorem Keeps.prod {γ' : Type} {c' : Contract ρ γ'} {post' : Except χ α → σ → γ' → Prop}
    {m : Program ρ σ χ α} {g' : γ'} (h : m.Keeps c post s g) (h' : m.Keeps c' post' s g') :
    m.Keeps (c.prod c') (fun result s g => post result s g.1 ∧ post' result s g.2) s (g, g') :=
  Interaction.Keeps.prod h h'

theorem keeps_of_allows (h : ∀ g e, c.allows g e) (m : Program ρ σ χ α) (s : σ) (g : γ) :
    m.Keeps c (fun _ _ _ => True) s g := Interaction.keeps_of_allows h (m s) g

@[simp] theorem keeps_pure {a : α} :
    (pure a : Program ρ σ χ α).Keeps c post s g ↔ post (.ok a) s g := Iff.rfl

@[simp] theorem keeps_throw {x : χ} :
    (throw x : Program ρ σ χ α).Keeps c post s g ↔ post (.error x) s g := Iff.rfl

@[simp] theorem keeps_perform {e : ε} {post : Except χ (ρ e) → σ → γ → Prop} :
    (perform e : Program ρ σ χ (ρ e)).Keeps c post s g ↔
      c.allows g e ∧ ∀ r, post (.ok r) s (c.next g e r) := Iff.rfl

@[simp] theorem keeps_perform_bind {e : ε} {f : ρ e → Program ρ σ χ α} :
    (perform e >>= f).Keeps c post s g ↔
      c.allows g e ∧ ∀ r, (f r).Keeps c post s (c.next g e r) := Iff.rfl

@[simp] theorem keeps_get_bind {f : σ → Program ρ σ χ α} :
    (get >>= f).Keeps c post s g ↔ (f s).Keeps c post s g := Iff.rfl

@[simp] theorem keeps_modify_bind {update : σ → σ} {f : Unit → Program ρ σ χ α} :
    (modify update >>= f).Keeps c post s g ↔ (f ()).Keeps c post (update s) g := Iff.rfl

theorem Keeps.recover {mid : Except χ α → σ → γ → Prop} {m : Program ρ σ χ α}
    {handler : χ → Program ρ σ χ α} (h : m.Keeps c mid s g)
    (hok : ∀ a s g, mid (.ok a) s g → post (.ok a) s g)
    (herror : ∀ x s g, mid (.error x) s g → (handler x).Keeps c post s g) :
    (m.recover handler).Keeps c post s g := by
  refine Interaction.keeps_bind.mpr (Interaction.Keeps.mono h ?_)
  rintro ⟨first, s'⟩ g' hmid
  cases first with
  | ok a => exact hok a s' g' hmid
  | error x => exact herror x s' g' hmid

theorem Keeps.bind {mid : Except χ β → σ → γ → Prop} {m : Program ρ σ χ β}
    {f : β → Program ρ σ χ α} (h : m.Keeps c mid s g)
    (hok : ∀ b s g, mid (.ok b) s g → (f b).Keeps c post s g)
    (herror : ∀ x s g, mid (.error x) s g → post (.error x) s g) :
    (m >>= f).Keeps c post s g := by
  refine Interaction.keeps_bind.mpr (Interaction.Keeps.mono h ?_)
  rintro ⟨first, s'⟩ g' hmid
  cases first with
  | ok b => exact hok b s' g' hmid
  | error x => exact herror x s' g' hmid

end Program

end SpannerClient
