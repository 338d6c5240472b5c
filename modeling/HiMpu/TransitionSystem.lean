import Mathlib.Tactic

/-!
# Labelled transition systems

A system has initial states and labelled steps.  An invariant that holds
initially and survives every step holds in every reachable state; it may lean
on reachability itself.  `restrict` keeps the steps that meet a condition, so
that a statement about the runs with that condition is a statement about
another system.
-/

namespace HiMpu

structure TransitionSystem (σ ι : Type*) where
  init : σ → Prop
  step : σ → ι → σ → Prop

namespace TransitionSystem

variable {σ ι : Type*} {T : TransitionSystem σ ι} {s s' : σ}

inductive Reachable (T : TransitionSystem σ ι) : σ → Prop
  | init {s : σ} (hinit : T.init s) : Reachable T s
  | step {s s' : σ} {a : ι} (hreach : Reachable T s) (hstep : T.step s a s') : Reachable T s'

theorem Reachable.invariant {P : σ → Prop} (hreach : T.Reachable s)
    (hinit : ∀ s, T.init s → P s)
    (hstep : ∀ s a s', T.Reachable s → P s → T.step s a s' → P s') : P s := by
  induction hreach with
  | init h => exact hinit _ h
  | step hprev h ih => exact hstep _ _ _ hprev ih h

/-- The system whose steps all meet a condition on the state before them. -/
def restrict (T : TransitionSystem σ ι) (allowed : σ → ι → Prop) : TransitionSystem σ ι where
  init := T.init
  step s a s' := allowed s a ∧ T.step s a s'

theorem Reachable.of_restrict {allowed : σ → ι → Prop}
    (hreach : (T.restrict allowed).Reachable s) : T.Reachable s := by
  induction hreach with
  | init h => exact Reachable.init h
  | step _ h ih => exact Reachable.step ih h.2

theorem Reachable.restrict_of_forall {allowed : σ → ι → Prop} (hreach : T.Reachable s)
    (hall : ∀ s a, allowed s a) : (T.restrict allowed).Reachable s := by
  induction hreach with
  | init h => exact Reachable.init h
  | step _ h ih => exact Reachable.step ih ⟨hall _ _, h⟩

theorem Reachable.restrict_and {p q : σ → ι → Prop}
    (hreach : (T.restrict fun s a => p s a ∧ q s a).Reachable s) :
    ((T.restrict p).restrict q).Reachable s := by
  induction hreach with
  | init h => exact Reachable.init h
  | step _ h ih => exact Reachable.step ih ⟨h.1.2, h.1.1, h.2⟩

section Family

variable {κ : Type*} [DecidableEq κ]

/-- Members of a family take their steps one at a time. -/
def family (κ : Type*) [DecidableEq κ] (T : TransitionSystem σ ι) :
    TransitionSystem (κ → σ) (κ × ι) where
  init s := ∀ k, T.init (s k)
  step s a s' := ∃ t, T.step (s a.1) a.2 t ∧ s' = Function.update s a.1 t

theorem Reachable.of_family {s : κ → σ} (hreach : (family κ T).Reachable s) (k : κ) :
    T.Reachable (s k) := by
  induction hreach with
  | init h => exact Reachable.init (h k)
  | @step s s' a _ h ih =>
    obtain ⟨t, hstep, rfl⟩ := h
    by_cases hk : k = a.1
    · subst hk
      rw [Function.update_self]
      exact Reachable.step ih hstep
    · rwa [Function.update_of_ne hk]

theorem Reachable.exists_family (hreach : T.Reachable s) (k : κ) :
    ∃ t : κ → σ, (family κ T).Reachable t ∧ t k = s := by
  induction hreach with
  | init h => exact ⟨fun _ => _, Reachable.init fun _ => h, rfl⟩
  | @step s s' a _ h ih =>
    obtain ⟨t, ht, rfl⟩ := ih
    refine ⟨Function.update t k s', ?_, Function.update_self ..⟩
    exact Reachable.step (a := (k, a)) ht ⟨s', h, rfl⟩

end Family

section StepFunction

variable {init : σ → Prop} {next : σ → ι → Option σ}

/-- The system of a step function that fails where a step is not enabled. -/
def ofStep (init : σ → Prop) (next : σ → ι → Option σ) : TransitionSystem σ ι where
  init := init
  step s a s' := next s a = some s'

def runSteps (next : σ → ι → Option σ) : σ → List ι → Option σ
  | s, [] => some s
  | s, a :: as => (next s a).bind fun s' => runSteps next s' as

theorem Reachable.runSteps {l : List ι} (hreach : (ofStep init next).Reachable s)
    (hrun : TransitionSystem.runSteps next s l = some s') : (ofStep init next).Reachable s' := by
  induction l generalizing s with
  | nil =>
    cases hrun
    exact hreach
  | cons a l ih =>
    obtain ⟨t, ht, hrest⟩ := Option.bind_eq_some_iff.mp hrun
    exact ih (hreach.step (a := a) ht) hrest

def guarded (allowed : σ → ι → Prop) [∀ s a, Decidable (allowed s a)]
    (next : σ → ι → Option σ) (s : σ) (a : ι) : Option σ :=
  if allowed s a then next s a else none

theorem Reachable.runGuarded {allowed : σ → ι → Prop} [∀ s a, Decidable (allowed s a)]
    {l : List ι} (hreach : ((ofStep init next).restrict allowed).Reachable s)
    (hrun : TransitionSystem.runSteps (guarded allowed next) s l = some s') :
    ((ofStep init next).restrict allowed).Reachable s' := by
  induction l generalizing s with
  | nil =>
    cases hrun
    exact hreach
  | cons a l ih =>
    obtain ⟨t, ht, hrest⟩ := Option.bind_eq_some_iff.mp hrun
    unfold guarded at ht
    split at ht
    next hallowed => exact ih (hreach.step (a := a) ⟨hallowed, ht⟩) hrest
    next => cases ht

end StepFunction

end TransitionSystem

end HiMpu
