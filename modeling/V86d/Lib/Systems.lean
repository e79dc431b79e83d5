import Mathlib.Tactic.Lemma
import Mathlib.Tactic.TypeStar

/-!
# Transition systems, refinement and pairs of runs

A system takes an input, gives an output and moves to a new state. An invariant of one step
is an invariant of every run, and a forward simulation of one step carries every run of the
concrete system over to the abstract one.
-/

namespace V86d.Lib

/-- A labelled transition system. -/
structure System (σ ι ο : Type*) where
  init : σ → Prop
  step : σ → ι → ο → σ → Prop

namespace System

variable {σ τ ι ο : Type*}

/-- The runs of a system, with the inputs and outputs of their steps in order. -/
inductive Run (S : System σ ι ο) : σ → List (ι × ο) → σ → Prop
  | nil (s : σ) : Run S s [] s
  | cons {s t u : σ} {i : ι} {o : ο} {l : List (ι × ο)} :
      S.step s i o t → Run S t l u → Run S s ((i, o) :: l) u

/-- The states that some run from an initial state ends in. -/
def Reachable (S : System σ ι ο) (s : σ) : Prop := ∃ s₀ l, S.init s₀ ∧ S.Run s₀ l s

lemma Run.keeps {S : System σ ι ο} {I : σ → Prop}
    (hstep : ∀ s i o t, I s → S.step s i o t → I t) {s t : σ} {l : List (ι × ο)}
    (hrun : S.Run s l t) (hs : I s) : I t := by
  induction hrun with
  | nil => exact hs
  | cons h _ ih => exact ih (hstep _ _ _ _ hs h)

lemma Run.snoc {S : System σ ι ο} {s t u : σ} {i : ι} {o : ο} {l : List (ι × ο)}
    (hrun : S.Run s l t) (h : S.step t i o u) : S.Run s (l ++ [(i, o)]) u := by
  induction hrun with
  | nil s => exact .cons h (.nil u)
  | cons h' _ ih => exact .cons h' (ih h)

lemma Reachable.step {S : System σ ι ο} {s t : σ} {i : ι} {o : ο} (hs : S.Reachable s)
    (h : S.step s i o t) : S.Reachable t := by
  obtain ⟨s₀, l, h₀, hrun⟩ := hs
  exact ⟨s₀, _, h₀, hrun.snoc h⟩

/-- `abs` maps the steps of `C` from states with the invariant `I` to steps of `A`. -/
structure Refines (C : System σ ι ο) (A : System τ ι ο) (abs : σ → τ) (I : σ → Prop) :
    Prop where
  init : ∀ s, C.init s → I s ∧ A.init (abs s)
  step : ∀ s i o t, I s → C.step s i o t → I t ∧ A.step (abs s) i o (abs t)

/-- Forward simulation: every run of the concrete system is a run of the abstract one, with
the same inputs and outputs. -/
theorem Refines.run {C : System σ ι ο} {A : System τ ι ο} {abs : σ → τ} {I : σ → Prop}
    (h : Refines C A abs I) {s t : σ} {l : List (ι × ο)} (hs : I s) (hrun : C.Run s l t) :
    A.Run (abs s) l (abs t) := by
  induction hrun with
  | nil s => exact .nil _
  | cons hstep _ ih =>
    obtain ⟨hI, hA⟩ := h.step _ _ _ _ hs hstep
    exact .cons hA (ih hI)

end System

/-- Two runs of a step function, one of which skips the inputs outside `p`: a relation that
survives a common step and a skipped step relates the two results. -/
theorem foldl_filter_related {σ ι : Type*} {R : σ → σ → Prop} {f : σ → ι → σ} {p : ι → Bool}
    (hboth : ∀ s t i, p i = true → R s t → R (f s i) (f t i)) (l : List ι)
    (hskip : ∀ i ∈ l, p i = false → ∀ s t, R s t → R (f s i) t) {s t : σ} (h : R s t) :
    R (l.foldl f s) ((l.filter p).foldl f t) := by
  induction l generalizing s t with
  | nil => exact h
  | cons i l ih =>
    have hl : ∀ j ∈ l, p j = false → ∀ s t, R s t → R (f s j) t :=
      fun j hj => hskip j (List.mem_cons_of_mem i hj)
    rw [List.foldl_cons]
    cases hp : p i with
    | true =>
      rw [List.filter_cons_of_pos hp, List.foldl_cons]
      exact ih hl (hboth s t i hp h)
    | false =>
      rw [List.filter_cons_of_neg (by simp [hp])]
      exact ih hl (hskip i List.mem_cons_self hp s t h)

end V86d.Lib
