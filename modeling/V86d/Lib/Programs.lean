import Mathlib.Data.Option.Basic
import Mathlib.Tactic.Lemma

/-!
# Programs over an interface

A program is a tree of calls of an interface: a call is followed by a program for each answer it
may get. A handler gives the calls a meaning on a state, which may be missing. What one call
preserves, and what one call keeps related between two states, every program does.
-/

namespace V86d.Lib

lemma optionRel_refl {α : Type*} {R : α → α → Prop} (h : ∀ a, R a a) :
    ∀ o : Option α, Option.Rel R o o
  | none => .none
  | some a => .some (h a)

/-- The calls of an interface and the types of their answers. -/
structure Interface where
  Call : Type
  Answer : Call → Type

/-- The programs with a result in `α`. -/
inductive Prog (I : Interface) (α : Type) : Type
  | pure (a : α)
  | call (c : I.Call) (k : I.Answer c → Prog I α)

/-- The meaning of the calls on the state `σ`; a call without a meaning ends everything. -/
abbrev Handler (I : Interface) (σ : Type*) := (c : I.Call) → σ → Option (I.Answer c × σ)

namespace Prog

variable {I : Interface} {α β : Type}

def bind : Prog I α → (α → Prog I β) → Prog I β
  | .pure a, f => f a
  | .call c k, f => .call c fun r => (k r).bind f

instance : Monad (Prog I) where
  pure := .pure
  bind := bind

def perform (c : I.Call) : Prog I (I.Answer c) := .call c .pure

section Run

variable {σ τ : Type*} (h : Handler I σ)

def run : Prog I α → σ → Option (α × σ)
  | .pure a, s => some (a, s)
  | .call c k, s =>
    match h c s with
    | none => none
    | some (r, t) => (k r).run t

@[simp] lemma run_pure (a : α) (s : σ) : (Pure.pure a : Prog I α).run h s = some (a, s) := rfl

@[simp] lemma run_perform (c : I.Call) (s : σ) : (perform c).run h s = h c s := by
  rw [perform, run]
  cases h c s <;> rfl

@[simp] lemma run_bind (p : Prog I α) (f : α → Prog I β) (s : σ) :
    (p >>= f).run h s = (p.run h s).bind fun x => (f x.1).run h x.2 := by
  change (p.bind f).run h s = _
  induction p generalizing s with
  | pure a => rfl
  | call c k ih =>
    rw [bind, run, run]
    cases h c s with
    | none => rfl
    | some x => exact ih x.1 x.2

variable {h}

/-- A preorder that every call goes up in is one that every program goes up in. -/
theorem run_le {R : σ → σ → Prop} (hrefl : ∀ s, R s s) (htrans : ∀ s t u, R s t → R t u → R s u)
    (hcall : ∀ c s r t, h c s = some (r, t) → R s t) {p : Prog I α} {s t : σ} {a : α}
    (hrun : p.run h s = some (a, t)) : R s t := by
  induction p generalizing s with
  | pure b =>
    obtain ⟨-, rfl⟩ := Prod.mk.inj (Option.some.inj hrun)
    exact hrefl s
  | call c k ih =>
    rw [run] at hrun
    split at hrun
    · exact nomatch hrun
    · next r u hc => exact htrans _ _ _ (hcall c s r u hc) (ih r hrun)

/-- Results of two runs with the same value and related states. -/
abbrev SameResult (R : σ → τ → Prop) : Option (α × σ) → Option (α × τ) → Prop :=
  Option.Rel fun x y => x.1 = y.1 ∧ R x.2 y.2

lemma SameResult.intro {R : σ → τ → Prop} {a b : α} {s : σ} {t : τ} (hab : a = b) (hst : R s t) :
    SameResult R (some (a, s)) (some (b, t)) := .some ⟨hab, hst⟩

lemma SameResult.bind {υ φ : Type*} {R : σ → τ → Prop} {S : υ → φ → Prop}
    {x : Option (α × σ)} {y : Option (α × τ)} (hxy : SameResult R x y)
    {f : α × σ → Option (β × υ)} {g : α × τ → Option (β × φ)}
    (hfg : ∀ a s t, R s t → SameResult S (f (a, s)) (g (a, t))) :
    SameResult S (x.bind f) (y.bind g) := by
  cases hxy with
  | none => exact .none
  | @some x y hxy =>
    obtain ⟨a, s⟩ := x
    obtain ⟨b, t⟩ := y
    obtain ⟨rfl, hst⟩ : a = b ∧ R s t := hxy
    exact hfg a s t hst

/-- Two handlers that give related states the same answers give every program the same value. -/
theorem run_related {h' : Handler I τ} {R : σ → τ → Prop}
    (hcall : ∀ c s t, R s t → SameResult R (h c s) (h' c t)) (p : Prog I α) {s : σ} {t : τ}
    (hst : R s t) : SameResult R (p.run h s) (p.run h' t) := by
  induction p generalizing s t with
  | pure a => exact .some ⟨rfl, hst⟩
  | call c k ih =>
    have hc := hcall c s t hst
    rw [run, run]
    generalize h c s = x at hc ⊢
    generalize h' c t = y at hc ⊢
    cases hc with
    | none => exact .none
    | @some x y hxy =>
      obtain ⟨r, u⟩ := x
      obtain ⟨r', v⟩ := y
      obtain ⟨rfl, huv⟩ : r = r' ∧ R u v := hxy
      exact ih r huv

end Run

section Yields

variable {σ : Type*} {h : Handler I σ}

/-- `p` runs from `s` to its end, and ends with `Q`. -/
def Yields (h : Handler I σ) (p : Prog I α) (s : σ) (Q : α → σ → Prop) : Prop :=
  ∃ a t, p.run h s = some (a, t) ∧ Q a t

lemma yields_of_run {p : Prog I α} {s t : σ} {a : α} {Q : α → σ → Prop}
    (hrun : p.run h s = some (a, t)) (hQ : Q a t) : Yields h p s Q := ⟨a, t, hrun, hQ⟩

lemma yields_of_run_bind {p : Prog I α} {f : α → Prog I β} {s t : σ} {a : α} {Q : β → σ → Prop}
    (hrun : p.run h s = some (a, t)) (hf : Yields h (f a) t Q) : Yields h (p >>= f) s Q := by
  obtain ⟨b, u, hrest, hQ⟩ := hf
  refine ⟨b, u, ?_, hQ⟩
  rw [run_bind, hrun, Option.bind_some]
  exact hrest

/-- The rule for sequences: the second part starts from what the first one ends with. -/
theorem Yields.bind {p : Prog I α} {f : α → Prog I β} {s : σ} {R : α → σ → Prop}
    {Q : β → σ → Prop} (hp : Yields h p s R)
    (hf : ∀ a t, p.run h s = some (a, t) → R a t → Yields h (f a) t Q) :
    Yields h (p >>= f) s Q := by
  obtain ⟨a, t, hrun, hR⟩ := hp
  exact yields_of_run_bind hrun (hf a t hrun hR)

lemma Yields.mono {p : Prog I α} {s : σ} {Q Q' : α → σ → Prop} (hp : Yields h p s Q)
    (hQ : ∀ a t, Q a t → Q' a t) : Yields h p s Q' := by
  obtain ⟨a, t, hrun, hend⟩ := hp
  exact ⟨a, t, hrun, hQ a t hend⟩

end Yields

section Outcomes

variable {σ : Type*} (step : (c : I.Call) → σ → I.Answer c → σ → Prop)

/-- The runs of a program when a call may have any outcome that `step` allows. -/
inductive Exec : Prog I α → σ → α → σ → Prop
  | pure (a : α) (s : σ) : Exec (.pure a) s a s
  | call {c : I.Call} {k : I.Answer c → Prog I α} {s t u : σ} {r : I.Answer c} {a : α} :
      step c s r t → Exec (k r) t a u → Exec (.call c k) s a u

/-- Every run of `p` from `s` ends with `Q`. -/
structure Ensures (p : Prog I α) (s : σ) (Q : α → σ → Prop) : Prop where
  runs : ∀ a t, Exec step p s a t → Q a t

variable {step} {s : σ} {Q : α → σ → Prop}

lemma ensures_pure {a : α} (h : Q a s) : Ensures step (Pure.pure a) s Q := by
  constructor
  intro b t hrun
  cases hrun
  exact h

lemma ensures_perform {c : I.Call} {Q : I.Answer c → σ → Prop}
    (h : ∀ r t, step c s r t → Q r t) : Ensures step (perform c) s Q := by
  constructor
  intro r t hrun
  cases hrun with
  | call hstep hrest =>
    cases hrest
    exact h _ _ hstep

lemma Exec.of_bind {p : Prog I α} {f : α → Prog I β} {b : β} {u : σ}
    (h : Exec step (p >>= f) s b u) : ∃ a t, Exec step p s a t ∧ Exec step (f a) t b u := by
  change Exec step (p.bind f) s b u at h
  induction p generalizing s with
  | pure a => exact ⟨a, s, .pure a s, h⟩
  | call c k ih =>
    cases h with
    | call hstep hrest =>
      obtain ⟨a, t, hp, hf⟩ := ih _ hrest
      exact ⟨a, t, .call hstep hp, hf⟩

/-- The rule for sequences: what the first part ensures is what the second starts from. -/
theorem Ensures.bind {p : Prog I α} {f : α → Prog I β} {R : α → σ → Prop} {Q : β → σ → Prop}
    (hp : Ensures step p s R) (hf : ∀ a t, R a t → Ensures step (f a) t Q) :
    Ensures step (p >>= f) s Q := by
  constructor
  intro b u hrun
  obtain ⟨a, t, hrun₁, hrun₂⟩ := hrun.of_bind
  exact (hf a t (hp.runs a t hrun₁)).runs b u hrun₂

lemma Ensures.mono {p : Prog I α} {Q' : α → σ → Prop} (h : Ensures step p s Q)
    (hQ : ∀ a t, Q a t → Q' a t) : Ensures step p s Q' :=
  ⟨fun a t hrun => hQ a t (h.runs a t hrun)⟩

/-- A handler that keeps to the outcomes gives one of the runs. -/
theorem exec_of_run {h : Handler I σ} (hstep : ∀ c s r t, h c s = some (r, t) → step c s r t)
    {p : Prog I α} {a : α} {t : σ} (hrun : p.run h s = some (a, t)) : Exec step p s a t := by
  induction p generalizing s with
  | pure b =>
    obtain ⟨rfl, rfl⟩ := Prod.mk.inj (Option.some.inj hrun)
    exact .pure b s
  | call c k ih =>
    rw [run] at hrun
    split at hrun
    · cases hrun
    · next r u hc => exact .call (hstep c s r u hc) (ih r hrun)

end Outcomes

end Prog

end V86d.Lib
