/-
# `Dass.Lib.Run` — runs of a labelled transition relation

A component that takes one step after another is a relation
`Step : σ → ℓ → σ → Prop`: from a state, under a label, to a state.  A run is
a finite chain of such steps, and most of what is said about a component is
said about the runs whose steps meet a condition, so the condition is a
parameter of the run itself:

    Run Step C s t      every step of the chain from `s` to `t` starts in a
                        state and carries a label that `C` admits

Where the steps are computed by a function, a run is computed too (`exec`).  `Any`
admits every step.  An invariant is proved once for one step and lifted
by `Run.invariant`; a relation between the two ends of a run, once for one step
and lifted by `Run.lift`.  The module knows nothing of any particular system.
-/
import Mathlib.Tactic.TypeStar

namespace Lts

variable {σ ℓ : Type*}

/-- A chain of steps from `s` to `t`, each admitted by `C`. -/
inductive Run (Step : σ → ℓ → σ → Prop) (C : σ → ℓ → Prop) (s : σ) : σ → Prop
  | refl : Run Step C s s
  | snoc {t u : σ} {l : ℓ} : Run Step C s t → C t l → Step t l u → Run Step C s u

/-- The condition every step meets. -/
def Any : σ → ℓ → Prop := fun _ _ => True

instance (s : σ) (l : ℓ) : Decidable (Any s l) := isTrue trivial

variable {Step : σ → ℓ → σ → Prop} {C D : σ → ℓ → Prop} {s t u : σ} {l : ℓ}

theorem Run.single (hC : C s l) (h : Step s l t) : Run Step C s t :=
  .snoc .refl hC h

/-- Start again where a run ended, under another condition. -/
theorem Run.here (_ : Run Step C s t) : Run Step D t t := .refl

theorem Run.trans (h₁ : Run Step C s t) (h₂ : Run Step C t u) : Run Step C s u := by
  induction h₂ with
  | refl => exact h₁
  | snoc _ hC hs ih => exact .snoc ih hC hs

/-- A weaker condition admits more runs. -/
theorem Run.mono (hCD : ∀ s l, C s l → D s l) (h : Run Step C s t) : Run Step D s t := by
  induction h with
  | refl => exact .refl
  | snoc _ hC hs ih => exact .snoc ih (hCD _ _ hC) hs

/-- What one admitted step preserves, a run preserves. -/
theorem Run.invariant {I : σ → Prop}
    (step : ∀ {s t : σ} {l : ℓ}, I s → C s l → Step s l t → I t)
    (h : Run Step C s t) (hs : I s) : I t := by
  induction h with
  | refl => exact hs
  | snoc _ hC hst ih => exact step ih hC hst

/-- A reflexive, transitive relation that each admitted step respects holds
between the ends of a run.  `I` is an invariant the steps may use. -/
theorem Run.lift {I : σ → Prop} {R : σ → σ → Prop}
    (step : ∀ {s t : σ} {l : ℓ}, I s → C s l → Step s l t → I t ∧ R s t)
    (refl : ∀ s, R s s) (trans : ∀ {s t u}, R s t → R t u → R s u)
    (h : Run Step C s t) (hs : I s) : R s t := by
  have key : I t ∧ R s t := by
    induction h with
    | refl => exact ⟨hs, refl s⟩
    | snoc _ hC hst ih =>
        obtain ⟨hi, hr⟩ := step ih.1 hC hst
        exact ⟨hi, trans ih.2 hr⟩
  exact key.2

/-! ## Running a function -/

/-- The state a list of labels leads to, if `step` takes every one of them and `C` admits
it. -/
def exec (step : σ → ℓ → Option σ) (C : σ → ℓ → Prop) [∀ s l, Decidable (C s l)] :
    σ → List ℓ → Option σ
  | s, [] => some s
  | s, l :: ls => if C s l then (step s l).bind fun t => exec step C t ls else none

/-- Steps that a function computes make up a run. -/
theorem Run.of_exec {step : σ → ℓ → Option σ} [∀ s l, Decidable (C s l)]
    (hstep : ∀ {s l t}, step s l = some t → Step s l t) {ls : List ℓ}
    (h : exec step C s ls = some t) : Run Step C s t := by
  induction ls generalizing s with
  | nil =>
      cases h
      exact .refl
  | cons l ls ih =>
      unfold exec at h
      split at h
      · next hC =>
          obtain ⟨mid, hmid, hrest⟩ := Option.bind_eq_some_iff.mp h
          exact (Run.single hC (hstep hmid)).trans (ih hrest)
      · cases h

end Lts
