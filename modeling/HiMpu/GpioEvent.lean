import HiMpu.TransitionSystem

/-!
# External interrupts for user space

`gpio_get_int_event` against `irq_handler` of `drivers/gpio/gpio_ker.c`, for one external
interrupt.  Any number of calls wait, one at a time under `access_sem`.  The stores to
`int_event`, the tests of it and the wake-up are steps of their own.
-/

namespace HiMpu.GpioEvent

def gpioIntStateIdle : ℕ := 0
def gpioIntStateReady : ℕ := 1
def waitAllTime : ℕ := 0xffffffff

inductive Pc
  | idle
  | down
  | test
  | asleep
  | last
  | check
  | clear
  | upTimedOut
  | upInterrupted
  deriving DecidableEq

structure Call where
  pc : Pc
  timeout : ℕ
  woken : Bool

inductive Event
  | raise
  | happen (call : ℕ)
  | timedOut (call : ℕ)
  | interrupted (call : ℕ)

structure State where
  intEvent : ℕ
  accessSem : Bool
  calls : ℕ → Call
  waking : Bool
  history : List Event

def initial : State where
  intEvent := gpioIntStateIdle
  accessSem := true
  calls := fun _ => ⟨.idle, 0, false⟩
  waking := false
  history := []

def State.setPc (s : State) (c : ℕ) (pc : Pc) : State :=
  { s with calls := Function.update s.calls c { s.calls c with pc := pc } }

/-- `irq_handler` stores the event, and wakes the waiter; a call begins, goes on, gets a
signal, or runs out of time. -/
inductive Action
  | raise
  | wake
  | call (c timeout : ℕ)
  | step (c : ℕ)
  | signal (c : ℕ)
  | expire (c : ℕ)

def step (s : State) (c : ℕ) : Option State :=
  match (s.calls c).pc with
  | .idle => none
  | .down =>
    if s.accessSem then
      some { s with
        accessSem := false
        calls := Function.update s.calls c { s.calls c with pc := .test, woken := false } }
    else none
  | .test => some (s.setPc c (if s.intEvent = gpioIntStateReady then .clear else .asleep))
  | .asleep =>
    if (s.calls c).woken then
      some { s with
        calls := Function.update s.calls c { s.calls c with pc := .test, woken := false } }
    else none
  | .last => some (s.setPc c (if s.intEvent = gpioIntStateReady then .clear else .check))
  | .check => some (s.setPc c (if s.intEvent ≠ gpioIntStateReady then .upTimedOut else .clear))
  -- the call has its result when the event is cleared
  | .clear =>
    some { s.setPc c .idle with
      intEvent := gpioIntStateIdle, accessSem := true, history := s.history ++ [.happen c] }
  | .upTimedOut =>
    some { s.setPc c .idle with accessSem := true, history := s.history ++ [.timedOut c] }
  | .upInterrupted =>
    some { s.setPc c .idle with accessSem := true, history := s.history ++ [.interrupted c] }

def signal (s : State) (c : ℕ) : Option State :=
  match (s.calls c).pc with
  | .down => some { s.setPc c .idle with history := s.history ++ [.interrupted c] }
  | .asleep => some (s.setPc c .upInterrupted)
  | _ => none

def next (s : State) : Action → Option State
  | .raise =>
    if s.waking then none
    else some { s with
      intEvent := gpioIntStateReady, waking := true, history := s.history ++ [.raise] }
  | .wake =>
    if s.waking then
      some { s with
        waking := false
        calls := fun c => { s.calls c with woken := true } }
    else none
  | .call c timeout =>
    if (s.calls c).pc = .idle then
      some { s with calls := Function.update s.calls c ⟨.down, timeout, false⟩ }
    else none
  | .step c => step s c
  | .signal c => signal s c
  | .expire c =>
    if (s.calls c).pc = .asleep ∧ (s.calls c).timeout ≠ waitAllTime then some (s.setPc c .last)
    else none

def system : TransitionSystem State Action := TransitionSystem.ofStep (· = initial) next

def RaiseSince (h : List Event) : Prop :=
  ∃ before after, h = before ++ .raise :: after ∧ ∀ c, .happen c ∉ after

def Pc.tests : Pc → Bool
  | .test | .last | .check => true
  | _ => false

/-- A call reports an event only after a raise that none has reported.  Such a raise stays
pending, a test of the event finds it, and the call that has found it reports it; and a
call that sleeps has been, or is about to be, woken. -/
structure EventsOk (s : State) : Prop where
  honest : ∀ before c after, s.history = before ++ .happen c :: after → RaiseSince before
  kept : RaiseSince s.history → s.intEvent = gpioIntStateReady
  found : RaiseSince s.history → ∀ c, (s.calls c).pc.tests = true →
    ∃ s', next s (.step c) = some s' ∧ (s'.calls c).pc = .clear ∧ s'.history = s.history
  reported : ∀ c, (s.calls c).pc = .clear →
    ∃ s', next s (.step c) = some s' ∧ s'.history = s.history ++ [.happen c]
  awake : RaiseSince s.history → ∀ c, (s.calls c).pc = .asleep →
    (s.calls c).woken = true ∨ s.waking = true

section History

variable {h : List Event} {e : Event}

theorem raiseSince_concat :
    RaiseSince (h ++ [e]) ↔ e = .raise ∨ RaiseSince h ∧ ∀ c, e ≠ .happen c := by
  constructor
  · rintro ⟨before, after, heq, hnone⟩
    rcases List.eq_nil_or_concat after with rfl | ⟨after, e', rfl⟩
    · exact Or.inl (List.append_inj' heq rfl).2 |>.imp (fun h => by simpa using h) id
    · have hsplit : h ++ [e] = (before ++ .raise :: after) ++ [e'] := by
        rw [heq]
        simp
      obtain ⟨rfl, he⟩ := List.append_inj' hsplit rfl
      obtain rfl : e = e' := by simpa using he
      refine Or.inr ⟨⟨before, after, rfl, fun c hc => ?_⟩, fun c hc => ?_⟩
      · exact hnone c (by simp [hc])
      · exact hnone c (by simp [hc])
  · rintro (rfl | ⟨⟨before, after, rfl, hnone⟩, he⟩)
    · exact ⟨h, [], rfl, fun _ hc => by cases hc⟩
    · refine ⟨before, after ++ [e], by simp, fun c hc => ?_⟩
      rcases List.mem_append.mp hc with hc | hc
      · exact hnone c hc
      · exact he c (List.mem_singleton.mp hc).symm

def Honest (h : List Event) : Prop :=
  ∀ before c after, h = before ++ .happen c :: after → RaiseSince before

theorem Honest.concat (hhonest : Honest h) (he : ∀ c, e = .happen c → RaiseSince h) :
    Honest (h ++ [e]) := by
  intro before c after heq
  rcases List.eq_nil_or_concat after with rfl | ⟨after, e', rfl⟩
  · obtain ⟨rfl, hlast⟩ := List.append_inj' heq rfl
    exact he c (by simpa using hlast)
  · have hsplit : h ++ [e] = (before ++ .happen c :: after) ++ [e'] := by
      rw [heq]
      simp
    exact hhonest before c after (List.append_inj' hsplit rfl).1

end History

def Pc.holds : Pc → Bool
  | .idle | .down => false
  | _ => true

structure Inv (s : State) : Prop where
  ready : s.intEvent = gpioIntStateReady ↔ RaiseSince s.history
  sem : ∀ c, (s.calls c).pc.holds = true →
    s.accessSem = false ∧ ∀ d, (s.calls d).pc.holds = true → d = c
  clear : ∀ c, (s.calls c).pc = .clear → s.intEvent = gpioIntStateReady
  honest : Honest s.history
  awake : s.intEvent = gpioIntStateReady → ∀ c, (s.calls c).pc = .asleep →
    (s.calls c).woken = true ∨ s.waking = true

theorem inv_initial : Inv initial where
  ready := by
    refine iff_of_false (by decide) ?_
    rintro ⟨before, after, h, -⟩
    simp [initial] at h
  sem c hc := by cases hc
  clear c hc := by cases hc
  honest before c after h := by simp [initial] at h
  awake h := absurd h (by decide)

section Steps

variable {s s' : State}

theorem Inv.goes {c : ℕ} {call : Call} (hinv : Inv s) (hold : (s.calls c).pc.holds = true)
    (hclear : call.pc = .clear → s.intEvent = gpioIntStateReady)
    (hasleep : call.pc = .asleep → s.intEvent ≠ gpioIntStateReady) :
    Inv { s with calls := Function.update s.calls c call } where
  ready := hinv.ready
  sem d hd := by
    have hholds : ∀ d, (Function.update s.calls c call d).pc.holds = true → d = c := by
      intro d hd
      by_contra hne
      rw [Function.update_of_ne hne] at hd
      exact hne ((hinv.sem c hold).2 d hd)
    exact ⟨(hinv.sem c hold).1, fun e he => (hholds e he).trans (hholds d hd).symm⟩
  clear d hd := by
    by_cases hdc : d = c
    · subst hdc
      simp only [Function.update_self] at hd
      exact hclear hd
    · simp only [Function.update_of_ne hdc] at hd
      exact hinv.clear d hd
  honest := hinv.honest
  awake hready d hd := by
    by_cases hdc : d = c
    · subst hdc
      simp only [Function.update_self] at hd
      exact absurd hready (hasleep hd)
    · simp only [Function.update_of_ne hdc] at hd ⊢
      exact hinv.awake hready d hd

theorem Inv.returns {c : ℕ} {call : Call} {sem : Bool} {event : ℕ} {e : Event} (hinv : Inv s)
    (hpc : call.pc = .idle)
    (hsem : ∀ d ≠ c, (s.calls d).pc.holds = true → sem = s.accessSem)
    (he : e ≠ .raise) (hhappen : ∀ c, e = .happen c → RaiseSince s.history)
    (hkept : (∀ c, e ≠ .happen c) → event = s.intEvent)
    (hcleared : ∀ c, e = .happen c → event = gpioIntStateIdle)
    (hclear : event ≠ s.intEvent → ∀ d ≠ c, (s.calls d).pc ≠ .clear) :
    Inv { s with
      calls := Function.update s.calls c call, accessSem := sem, intEvent := event
      history := s.history ++ [e] } where
  ready := by
    rw [raiseSince_concat]
    by_cases hreport : ∀ c, e ≠ .happen c
    · simp only [hkept hreport, hinv.ready, he, false_or]
      exact (and_iff_left hreport).symm
    · obtain ⟨d, hd⟩ := not_forall_not.mp hreport
      refine iff_of_false ?_ ?_
      · simp only [hcleared d hd]
        decide
      · rintro (h | h)
        · exact he h
        · exact h.2 d hd
  sem d hd := by
    have hne : ∀ d, (Function.update s.calls c call d).pc.holds = true → d ≠ c := by
      rintro d hd rfl
      rw [Function.update_self, hpc] at hd
      cases hd
    have hd' := hd
    simp only [Function.update_of_ne (hne d hd)] at hd'
    refine ⟨(hsem d (hne d hd) hd').trans (hinv.sem d hd').1, fun f hf => ?_⟩
    have hf' := hf
    simp only [Function.update_of_ne (hne f hf)] at hf'
    exact (hinv.sem d hd').2 f hf'
  clear d hd := by
    have hne : d ≠ c := by
      rintro rfl
      simp [hpc] at hd
    simp only [Function.update_of_ne hne] at hd
    by_cases hevent : event = s.intEvent
    · exact hevent.trans (hinv.clear d hd)
    · exact absurd hd (hclear hevent d hne)
  honest := hinv.honest.concat hhappen
  awake hready d hd := by
    have hne : d ≠ c := by
      rintro rfl
      simp [hpc] at hd
    simp only [Function.update_of_ne hne] at hd ⊢
    by_cases hreport : ∀ c, e ≠ .happen c
    · exact hinv.awake ((hkept hreport).symm.trans hready) d hd
    · obtain ⟨f, hf⟩ := not_forall_not.mp hreport
      exact absurd ((hcleared f hf).symm.trans hready) (by decide)

theorem Inv.holder {c d : ℕ} (hinv : Inv s) (hc : (s.calls c).pc.holds = true) (hne : d ≠ c) :
    (s.calls d).pc.holds = false := by
  cases hd : (s.calls d).pc.holds with
  | false => rfl
  | true => exact absurd ((hinv.sem c hc).2 d hd) hne

theorem Inv.up {c : ℕ} {e : Event} (hinv : Inv s) (hold : (s.calls c).pc.holds = true)
    (he : e ≠ .raise) (hhappen : ∀ c, e ≠ .happen c) :
    Inv { s.setPc c .idle with accessSem := true, history := s.history ++ [e] } :=
  hinv.returns rfl (fun d hd h => by rw [hinv.holder hold hd] at h; cases h) he
    (fun d h => absurd h (hhappen d)) (fun _ => rfl) (fun d h => absurd h (hhappen d))
    (fun h => absurd rfl h)

theorem Inv.step {c : ℕ} (hinv : Inv s) (hstep : step s c = some s') : Inv s' := by
  unfold GpioEvent.step at hstep
  split at hstep
  case h_1 => cases hstep
  case h_2 hpc =>
    split at hstep
    next hsem =>
      cases hstep
      have hfree : ∀ d, (s.calls d).pc.holds = false := by
        intro d
        cases hd : (s.calls d).pc.holds with
        | false => rfl
        | true =>
          have htaken := (hinv.sem d hd).1
          rw [hsem] at htaken
          cases htaken
      have hholds : ∀ d, (Function.update s.calls c { s.calls c with pc := .test, woken := false }
          d).pc.holds = true → d = c := by
        intro d hd
        by_contra hne
        rw [Function.update_of_ne hne, hfree d] at hd
        cases hd
      refine ⟨hinv.ready, ?_, ?_, hinv.honest, ?_⟩
      · exact fun d hd => ⟨rfl, fun e he => (hholds e he).trans (hholds d hd).symm⟩
      · intro d hd
        have hdc : d = c := by
          apply hholds
          simp only at hd ⊢
          rw [hd]
          rfl
        simp [hdc] at hd
      · intro _ d hd
        have hdc : d = c := by
          apply hholds
          simp only at hd ⊢
          rw [hd]
          rfl
        simp [hdc] at hd
    next => cases hstep
  case h_3 hpc =>
    cases hstep
    have hold : (s.calls c).pc.holds = true := by rw [hpc]; rfl
    refine hinv.goes hold ?_ ?_
    · intro h
      by_contra hready
      rw [if_neg hready] at h
      cases h
    · intro h hready
      rw [if_pos hready] at h
      cases h
  case h_4 hpc =>
    have hold : (s.calls c).pc.holds = true := by rw [hpc]; rfl
    split at hstep
    next =>
      cases hstep
      exact hinv.goes hold (fun h => by cases h) (fun h => by cases h)
    next => cases hstep
  case h_5 hpc =>
    cases hstep
    have hold : (s.calls c).pc.holds = true := by rw [hpc]; rfl
    refine hinv.goes hold ?_ ?_
    · intro h
      by_contra hready
      rw [if_neg hready] at h
      cases h
    · intro h hready
      rw [if_pos hready] at h
      cases h
  case h_6 hpc =>
    cases hstep
    have hold : (s.calls c).pc.holds = true := by rw [hpc]; rfl
    refine hinv.goes hold ?_ ?_
    · intro h
      by_contra hready
      rw [if_pos hready] at h
      cases h
    · intro h hready
      rw [if_neg (not_not.mpr hready)] at h
      cases h
  case h_7 hpc =>
    cases hstep
    have hold : (s.calls c).pc.holds = true := by rw [hpc]; rfl
    refine hinv.returns rfl ?_ ?_ ?_ ?_ (fun _ _ => rfl) ?_
    · intro d hd h
      rw [hinv.holder hold hd] at h
      cases h
    · exact fun h => by cases h
    · exact fun _ _ => hinv.ready.mp (hinv.clear c hpc)
    · exact fun h => absurd rfl (h c)
    · intro _ d hd h
      have hother := hinv.holder hold hd
      rw [h] at hother
      cases hother
  case h_8 hpc =>
    cases hstep
    exact hinv.up (by rw [hpc]; rfl) (fun h => by cases h) (fun _ h => by cases h)
  case h_9 hpc =>
    cases hstep
    exact hinv.up (by rw [hpc]; rfl) (fun h => by cases h) (fun _ h => by cases h)

theorem Inv.signal {c : ℕ} (hinv : Inv s) (hstep : signal s c = some s') : Inv s' := by
  unfold GpioEvent.signal at hstep
  split at hstep
  case h_1 hpc =>
    cases hstep
    exact hinv.returns rfl (fun _ _ _ => rfl) (fun h => by cases h) (fun _ h => by cases h)
      (fun _ => rfl) (fun _ h => by cases h) (fun h => absurd rfl h)
  case h_2 hpc =>
    cases hstep
    exact hinv.goes (by rw [hpc]; rfl) (fun h => by cases h) (fun h => by cases h)
  case h_3 => cases hstep

theorem Inv.next {a : Action} (hinv : Inv s) (hstep : next s a = some s') : Inv s' := by
  cases a with
  | raise =>
    simp only [GpioEvent.next] at hstep
    split at hstep
    next => cases hstep
    next =>
      cases hstep
      refine ⟨iff_of_true rfl (raiseSince_concat.mpr (Or.inl rfl)), hinv.sem, fun _ _ => rfl,
        hinv.honest.concat (fun c h => by cases h), fun _ _ _ => Or.inr rfl⟩
  | wake =>
    simp only [GpioEvent.next] at hstep
    split at hstep
    next =>
      cases hstep
      exact ⟨hinv.ready, hinv.sem, hinv.clear, hinv.honest, fun _ _ _ => Or.inl rfl⟩
    next => cases hstep
  | call c timeout =>
    simp only [GpioEvent.next] at hstep
    split at hstep
    next hpc =>
      cases hstep
      have hne : ∀ d, (Function.update s.calls c ⟨.down, timeout, false⟩ d).pc ≠ .down →
          d ≠ c := by
        rintro d hd rfl
        rw [Function.update_self] at hd
        exact hd rfl
      refine ⟨hinv.ready, ?_, ?_, hinv.honest, ?_⟩
      · have hholds : ∀ d, (Function.update s.calls c ⟨.down, timeout, false⟩ d).pc.holds = true →
            (s.calls d).pc.holds = true := by
          intro d hd
          rwa [Function.update_of_ne (hne d fun h => by rw [h] at hd; cases hd)] at hd
        intro d hd
        obtain ⟨hsem, honly⟩ := hinv.sem d (hholds d hd)
        exact ⟨hsem, fun e he => honly e (hholds e he)⟩
      · intro d hd
        simp only [Function.update_of_ne (hne d fun h => by rw [h] at hd; cases hd)] at hd
        exact hinv.clear d hd
      · intro hready d hd
        have hd' := hd
        simp only [Function.update_of_ne (hne d fun h => by rw [h] at hd; cases hd)] at hd' ⊢
        exact hinv.awake hready d hd'
    next => cases hstep
  | step c => exact hinv.step hstep
  | signal c => exact hinv.signal hstep
  | expire c =>
    simp only [GpioEvent.next] at hstep
    split at hstep
    next h =>
      cases hstep
      exact hinv.goes (by rw [h.1]; rfl) (fun h => by cases h) (fun h => by cases h)
    next => cases hstep

end Steps

end HiMpu.GpioEvent
