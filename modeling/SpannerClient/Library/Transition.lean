import Mathlib.Data.List.Basic

/-! Runs of a labelled transition relation, each with the list of its labels. -/

namespace SpannerClient

variable {σ ε : Type} {step : σ → ε → σ → Prop}

inductive Run (step : σ → ε → σ → Prop) : σ → List ε → σ → Prop
  | nil {s : σ} : Run step s [] s
  | snoc {s s' s'' : σ} {trace : List ε} {e : ε} :
    Run step s trace s' → step s' e s'' → Run step s (trace ++ [e]) s''

namespace Run

theorem append {s s' s'' : σ} {tr tr' : List ε} (h : Run step s tr s')
    (h' : Run step s' tr' s'') : Run step s (tr ++ tr') s'' := by
  induction h' with
  | nil => simpa using h
  | snoc _ hstep ih =>
    rw [← List.append_assoc]
    exact .snoc ih hstep

theorem single {s s' : σ} {e : ε} (h : step s e s') : Run step s [e] s' :=
  .snoc .nil h

theorem cons {s s' s'' : σ} {tr : List ε} {e : ε} (h : step s e s') (h' : Run step s' tr s'') :
    Run step s (e :: tr) s'' :=
  (single h).append h'

theorem history {P : List ε → σ → Prop} {s s' : σ} {tr : List ε} (h : Run step s tr s')
    (hs : P [] s) (hstep : ∀ tr s e s', P tr s → step s e s' → P (tr ++ [e]) s') : P tr s' := by
  induction h with
  | nil => exact hs
  | snoc _ he ih => exact hstep _ _ _ _ ih he

theorem exists_step {s s' : σ} {before after : List ε} {e : ε}
    (h : Run step s (before ++ e :: after) s') : ∃ t t', Run step s before t ∧ step t e t' := by
  generalize htr : before ++ e :: after = tr at h
  induction h generalizing after with
  | nil => simp at htr
  | @snoc t t' tr e' hrun hstep ih =>
    rcases List.eq_nil_or_concat after with rfl | ⟨after, last, rfl⟩
    · obtain ⟨rfl, rfl⟩ := List.append_singleton_inj.mp htr
      exact ⟨t, t', hrun, hstep⟩
    · rw [List.concat_eq_append, ← List.cons_append, ← List.append_assoc] at htr
      exact ih (List.append_singleton_inj.mp htr).1

theorem mono {step' : σ → ε → σ → Prop} {s s' : σ} {tr : List ε} (h : Run step s tr s')
    (hstep : ∀ s e s', step s e s' → step' s e s') : Run step' s tr s' := by
  induction h with
  | nil => exact .nil
  | snoc _ hlast ih => exact .snoc ih (hstep _ _ _ hlast)

theorem invariant {P : σ → Prop} {s s' : σ} {tr : List ε} (h : Run step s tr s') (hs : P s)
    (hstep : ∀ s e s', P s → step s e s' → P s') : P s' :=
  h.history (P := fun _ => P) hs fun _ => hstep

end Run

end SpannerClient
