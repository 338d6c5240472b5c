import Mathlib.Tactic

/-!
# Programs of calls

A program makes calls and goes on with what they return.  A specification of the calls
says which ones may be made in a state of the caller, what they may return there and
which state follows.  The weakest precondition of a program says that each of its calls
is allowed and that its result meets a postcondition.
-/

namespace HiMpu

inductive CallProgram (κ ρ α : Type) where
  | done (a : α)
  | call (c : κ) (k : ρ → CallProgram κ ρ α)

namespace CallProgram

variable {κ ρ τ α β : Type}

def bind : CallProgram κ ρ α → (α → CallProgram κ ρ β) → CallProgram κ ρ β
  | done a, f => f a
  | call c k, f => call c fun r => (k r).bind f

def andThen (p : CallProgram κ ρ (Option α)) (f : α → CallProgram κ ρ (Option β)) :
    CallProgram κ ρ (Option β) :=
  p.bind fun
    | none => done none
    | some a => f a

def void (p : CallProgram κ ρ α) : CallProgram κ ρ Unit := p.bind fun _ => done ()

structure Spec (κ ρ τ : Type) where
  allowed : τ → κ → Prop
  returns : τ → κ → ρ → Prop
  next : τ → κ → ρ → τ

variable {S : Spec κ ρ τ} {Q R : α → τ → Prop} {t : τ}

def wp (S : Spec κ ρ τ) (Q : α → τ → Prop) : CallProgram κ ρ α → τ → Prop
  | done a, t => Q a t
  | call c k, t => S.allowed t c ∧ ∀ r, S.returns t c r → (k r).wp S Q (S.next t c r)

theorem wp_mono (hQR : ∀ a t, Q a t → R a t) {p : CallProgram κ ρ α} (h : p.wp S Q t) :
    p.wp S R t := by
  induction p generalizing t with
  | done a => exact hQR a t h
  | call c k ih => exact ⟨h.1, fun r hr => ih r (h.2 r hr)⟩

theorem wp_bind {Q : β → τ → Prop} {p : CallProgram κ ρ α} {f : α → CallProgram κ ρ β}
    (h : p.wp S (fun a t => (f a).wp S Q t) t) : (p.bind f).wp S Q t := by
  induction p generalizing t with
  | done a => exact h
  | call c k ih => exact ⟨h.1, fun r hr => ih r (h.2 r hr)⟩

theorem wp_andThen {Q : Option β → τ → Prop} {p : CallProgram κ ρ (Option α)}
    {f : α → CallProgram κ ρ (Option β)}
    (h : p.wp S (fun
      | none, t => Q none t
      | some a, t => (f a).wp S Q t) t) : (p.andThen f).wp S Q t := by
  refine wp_bind (wp_mono (fun a t ha => ?_) h)
  cases a with
  | none => exact ha
  | some a => exact ha

theorem wp_void {Q : Unit → τ → Prop} {p : CallProgram κ ρ α} (h : p.wp S (fun _ t => Q () t) t) :
    p.void.wp S Q t := wp_bind h

end CallProgram

end HiMpu
