import HiMpu.Watchdog

/-!
# A stopped watchdog resets

Once a stop or timeout request has completed nothing may reload the watchdog or
disable it.  Four paths can: `watchdog_clr`, `watchdog_enable_set`, another
`watchdog_stop` and the handler of the feed timer.  None of them looks at
`stop_feed` where it decides, so the property holds in the runs where none of them
is past its decision when the flag is set, and none is decided upon afterwards.
-/

namespace HiMpu.Watchdog

variable {κ : Type*} [DecidableEq κ]

/-- After a completed stop request no step writes the INTCLR register or clears
an enable bit. -/
def StaysArmed (feedTimer : Bool) (s : State κ) : Prop :=
  s.stopped = true → ∀ a s', next feedTimer s a = some s' →
    s'.intClrs = s.intClrs ∧ (s.inten = true → s'.inten = true) ∧
      (s.resen = true → s'.resen = true)

def Pc.decides : Pc → Bool
  | .clrDown | .enDown _ | .stopDown => true
  | _ => false

def Pc.setsStopFeed : Pc → Bool
  | .stopFeed | .toFeed => true
  | _ => false

def Isr.feeds : Isr → Bool
  | .unlock | .intclr => true
  | _ => false

/-- The section of a clear, an enable or a stop is entered while `stop_feed` is
clear, and the handler is not feeding when the flag is set. -/
def Punctual (s : State κ) : Action κ → Prop
  | .run k interrupted =>
    ∀ pc, s.call k = some pc →
      (pc.decides = true → interrupted = false → s.stopFeed = false) ∧
      (pc.setsStopFeed = true → ∀ i, s.isr = some i → i.feeds = false)
  | _ => True

def Pc.inside : Pc → Bool
  | .feedDown _ | .clrTest | .clrDown | .stopDown | .enDown _ | .waitFast | .waitPrepare
  | .waitCheck | .waitSleep | .toDown => false
  | _ => true

def Pc.feeding : Pc → Bool
  | .clrUnlock | .clrIntclr | .clrLock | .clrCounter | .clrUp | .enUnlock _ | .enControl _
  | .enIntclr _ | .enLock _ | .enTimer _ | .enUp => true
  | _ => false

def Pc.stopping : Pc → Bool
  | .stopTimer | .stopFeed | .stopCounter | .stopUnlock | .stopDisable | .stopEnable | .stopLock
  | .stopUp => true
  | _ => false

def Pc.hasSet : Pc → Bool
  | .stopCounter | .stopUnlock | .stopDisable | .stopEnable | .stopLock | .stopUp | .toCounter
  | .toWake | .toUp => true
  | _ => false

structure Effect (s s' : State κ) (k : κ) (interrupted : Bool) (pc : Pc) : Prop where
  others : ∀ j ≠ k, s'.call j = s.call j
  isr : s'.isr = s.isr
  sem : s'.cmdAccessSem = s.cmdAccessSem ∨ s.cmdAccessSem = none ∨ pc.inside = true
  inside : (pc.inside = true → s.cmdAccessSem = some k) → ∀ pc', s'.call k = some pc' →
    pc'.inside = true → s'.cmdAccessSem = some k
  stopFeed : s'.stopFeed = s.stopFeed ∨ pc.setsStopFeed = true ∧ s'.stopFeed = true
  stopped : s'.stopped = s.stopped ∨ pc.hasSet = true ∧ s'.call k = none
  feeding : ∀ pc', s'.call k = some pc' → pc'.feeding = true →
    pc.feeding = true ∨ pc.decides = true ∧ interrupted = false
  stopping : ∀ pc', s'.call k = some pc' → pc'.stopping = true →
    pc.stopping = true ∨ pc.decides = true ∧ interrupted = false
  hasSet : ∀ pc', s'.call k = some pc' → pc'.hasSet = true →
    pc.hasSet = true ∨ s'.stopFeed = true
  intClrs : s'.intClrs = s.intClrs ∨ pc.feeding = true
  enabled : s'.inten = s.inten ∧ s'.resen = s.resen ∨ s'.inten = true ∧ s'.resen = true ∨
    pc.feeding = true ∨ pc.stopping = true

section Effects

variable {s t : State κ} {k : κ} {interrupted : Bool} {pc pc' : Pc}

theorem Effect.goto (hcall : t.call = s.call) (hisr : t.isr = s.isr)
    (hsem : t.cmdAccessSem = s.cmdAccessSem ∧ (pc'.inside = true → pc.inside = true) ∨
      s.cmdAccessSem = none ∧ t.cmdAccessSem = some k)
    (hstopFeed : t.stopFeed = s.stopFeed ∨ pc.setsStopFeed = true ∧ t.stopFeed = true)
    (hstopped : t.stopped = s.stopped)
    (hfeeding : pc'.feeding = true → pc.feeding = true ∨ pc.decides = true ∧ interrupted = false)
    (hstopping : pc'.stopping = true → pc.stopping = true ∨ pc.decides = true ∧ interrupted = false)
    (hhasSet : pc'.hasSet = true → pc.hasSet = true ∨ t.stopFeed = true)
    (hclrs : t.intClrs = s.intClrs ∨ pc.feeding = true)
    (henabled : t.inten = s.inten ∧ t.resen = s.resen ∨ t.inten = true ∧ t.resen = true ∨
      pc.feeding = true ∨ pc.stopping = true) : Effect s (t.goto k pc') k interrupted pc := by
  have hself : ∀ p, (t.goto k pc').call k = some p → p = pc' := by
    intro p hp
    have hsome : (t.goto k pc').call k = some pc' := by simp only [State.goto, Function.update_self]
    rw [hsome] at hp
    exact (Option.some.inj hp).symm
  refine ⟨fun j hj => ?_, hisr, ?_, fun hin p hp hpin => ?_, hstopFeed, Or.inl hstopped,
    fun p hp hf => ?_, fun p hp hf => ?_, fun p hp hf => ?_, hclrs, henabled⟩
  · rw [← hcall]
    exact Function.update_of_ne hj ..
  · rcases hsem with ⟨hsame, -⟩ | ⟨hnone, -⟩
    · exact Or.inl hsame
    · exact Or.inr (Or.inl hnone)
  · rw [hself p hp] at hpin
    rcases hsem with ⟨hsame, hinside⟩ | ⟨-, hself⟩
    · exact hsame.trans (hin (hinside hpin))
    · exact hself
  · rw [hself p hp] at hf
    exact hfeeding hf
  · rw [hself p hp] at hf
    exact hstopping hf
  · rw [hself p hp] at hf
    exact hhasSet hf

theorem Effect.finish (hcall : t.call = s.call) (hisr : t.isr = s.isr)
    (hsem : t.cmdAccessSem = s.cmdAccessSem ∨ pc.inside = true)
    (hstopFeed : t.stopFeed = s.stopFeed) (hstopped : t.stopped = s.stopped ∨ pc.hasSet = true)
    (hclrs : t.intClrs = s.intClrs) (henabled : t.inten = s.inten ∧ t.resen = s.resen) :
    Effect s (t.finish k) k interrupted pc := by
  have hself : (t.finish k).call k = none := by simp only [State.finish, Function.update_self]
  refine ⟨fun j hj => ?_, hisr, hsem.imp_right Or.inr, fun _ p hp => ?_, Or.inl hstopFeed,
    hstopped.imp_right fun hset => ⟨hset, hself⟩, fun p hp => ?_, fun p hp => ?_, fun p hp => ?_,
    Or.inl hclrs, Or.inl henabled⟩
  · rw [← hcall]
    exact Function.update_of_ne hj ..
  all_goals
    rw [hself] at hp
    cases hp

structure Follows (pc pc' : Pc) : Prop where
  inside : pc'.inside = true → pc.inside = true
  feeding : pc'.feeding = true → pc.feeding = true
  stopping : pc'.stopping = true → pc.stopping = true
  hasSet : pc'.hasSet = true → pc.hasSet = true

theorem Effect.pass (hfollows : Follows pc pc') (hcall : t.call = s.call) (hisr : t.isr = s.isr)
    (hsem : t.cmdAccessSem = s.cmdAccessSem) (hstopFeed : t.stopFeed = s.stopFeed)
    (hstopped : t.stopped = s.stopped) (hclrs : t.intClrs = s.intClrs ∨ pc.feeding = true)
    (henabled : t.inten = s.inten ∧ t.resen = s.resen ∨ t.inten = true ∧ t.resen = true ∨
      pc.feeding = true ∨ pc.stopping = true) : Effect s (t.goto k pc') k interrupted pc := by
  refine Effect.goto hcall hisr (Or.inl ⟨hsem, hfollows.inside⟩) (Or.inl hstopFeed) hstopped
    ?_ ?_ ?_ hclrs henabled
  · exact fun h => Or.inl (hfollows.feeding h)
  · exact fun h => Or.inl (hfollows.stopping h)
  · exact fun h => Or.inl (hfollows.hasSet h)

theorem Effect.down {s' : State κ} (hstep : Watchdog.down s k interrupted pc' = some s')
    (hsection : pc'.feeding = true ∨ pc'.stopping = true → pc.decides = true)
    (hset : pc'.hasSet = false) : Effect s s' k interrupted pc := by
  unfold Watchdog.down at hstep
  split at hstep
  · cases hstep
    exact Effect.finish rfl rfl (Or.inl rfl) rfl (Or.inl rfl) rfl ⟨rfl, rfl⟩
  next hinterrupted =>
    have hnot : interrupted = false := Bool.not_eq_true _ ▸ hinterrupted
    split at hstep
    next hfree =>
      cases hstep
      refine Effect.goto rfl rfl (Or.inr ⟨hfree, rfl⟩) (Or.inl rfl) rfl ?_ ?_ ?_ (Or.inl rfl)
        (Or.inl ⟨rfl, rfl⟩)
      · exact fun h => Or.inr ⟨hsection (Or.inl h), hnot⟩
      · exact fun h => Or.inr ⟨hsection (Or.inr h), hnot⟩
      · rw [hset]
        exact fun h => absurd h Bool.false_ne_true
    · cases hstep

end Effects

omit [DecidableEq κ] in
theorem writeControl_same (s : State κ) (inten resen : Bool) :
    (writeControl s inten resen).call = s.call ∧ (writeControl s inten resen).isr = s.isr ∧
      (writeControl s inten resen).cmdAccessSem = s.cmdAccessSem ∧
      (writeControl s inten resen).stopFeed = s.stopFeed ∧
      (writeControl s inten resen).stopped = s.stopped ∧
      (writeControl s inten resen).intClrs = s.intClrs := by
  unfold writeControl
  split
  · exact ⟨rfl, rfl, rfl, rfl, rfl, rfl⟩
  · exact ⟨rfl, rfl, rfl, rfl, rfl, rfl⟩

theorem stmt_effect {s s' : State κ} {k : κ} {interrupted : Bool} {pc : Pc}
    (hstep : stmt s k interrupted pc = some s') : Effect s s' k interrupted pc := by
  cases pc with
  | clrDown | stopDown | enDown =>
    exact Effect.down hstep (fun _ => rfl) rfl
  | feedDown | toDown =>
    exact Effect.down hstep (fun h => by rcases h with h | h <;> cases h) rfl
  | feedTest =>
    simp only [stmt] at hstep
    split at hstep
    · cases hstep
      exact Effect.pass ⟨fun _ => rfl, nofun, nofun, nofun⟩ rfl rfl rfl rfl rfl (Or.inl rfl)
        (Or.inl ⟨rfl, rfl⟩)
    · cases hstep
      exact Effect.pass ⟨fun _ => rfl, nofun, nofun, nofun⟩ rfl rfl rfl rfl rfl (Or.inl rfl)
        (Or.inl ⟨rfl, rfl⟩)
  | feedMode | feedCounter =>
    cases hstep
    exact Effect.pass ⟨fun _ => rfl, nofun, nofun, nofun⟩ rfl rfl rfl rfl rfl (Or.inl rfl)
      (Or.inl ⟨rfl, rfl⟩)
  | clrUnlock | clrIntclr | clrLock | clrCounter | enUnlock | enLock | enTimer =>
    cases hstep
    exact Effect.pass ⟨fun _ => rfl, fun _ => rfl, nofun, nofun⟩ rfl rfl rfl rfl rfl (Or.inr rfl)
      (Or.inl ⟨rfl, rfl⟩)
  | enIntclr enable =>
    cases hstep
    cases enable with
    | false =>
      exact Effect.pass ⟨fun _ => rfl, fun _ => rfl, nofun, nofun⟩ rfl rfl rfl rfl rfl
        (Or.inr rfl) (Or.inl ⟨rfl, rfl⟩)
    | true =>
      exact Effect.pass ⟨fun _ => rfl, fun _ => rfl, nofun, nofun⟩ rfl rfl rfl rfl rfl
        (Or.inr rfl) (Or.inl ⟨rfl, rfl⟩)
  | enControl enable =>
    cases hstep
    obtain ⟨hcall, hisr, hsem, hstopFeed, hstopped, hclrs⟩ := writeControl_same s enable s.resen
    exact Effect.pass ⟨fun _ => rfl, fun _ => rfl, nofun, nofun⟩ hcall hisr hsem hstopFeed hstopped
      (Or.inl hclrs) (Or.inr (Or.inr (Or.inl rfl)))
  | stopTimer =>
    cases hstep
    exact Effect.pass ⟨fun _ => rfl, nofun, fun _ => rfl, nofun⟩ rfl rfl rfl rfl rfl (Or.inl rfl)
      (Or.inl ⟨rfl, rfl⟩)
  | stopFeed =>
    cases hstep
    exact Effect.goto rfl rfl (Or.inl ⟨rfl, fun _ => rfl⟩) (Or.inr ⟨rfl, rfl⟩) rfl nofun
      (fun _ => Or.inl rfl) (fun _ => Or.inr rfl) (Or.inl rfl) (Or.inl ⟨rfl, rfl⟩)
  | toFeed =>
    cases hstep
    exact Effect.goto rfl rfl (Or.inl ⟨rfl, fun _ => rfl⟩) (Or.inr ⟨rfl, rfl⟩) rfl nofun nofun
      (fun _ => Or.inr rfl) (Or.inl rfl) (Or.inl ⟨rfl, rfl⟩)
  | stopCounter | stopUnlock | stopLock =>
    cases hstep
    exact Effect.pass ⟨fun _ => rfl, nofun, fun _ => rfl, fun _ => rfl⟩ rfl rfl rfl rfl rfl
      (Or.inl rfl) (Or.inl ⟨rfl, rfl⟩)
  | stopDisable =>
    cases hstep
    obtain ⟨hcall, hisr, hsem, hstopFeed, hstopped, hclrs⟩ := writeControl_same s false false
    exact Effect.pass ⟨fun _ => rfl, nofun, fun _ => rfl, fun _ => rfl⟩ hcall hisr hsem hstopFeed
      hstopped (Or.inl hclrs) (Or.inr (Or.inr (Or.inr rfl)))
  | stopEnable =>
    cases hstep
    obtain ⟨hcall, hisr, hsem, hstopFeed, hstopped, hclrs⟩ := writeControl_same s true true
    exact Effect.pass ⟨fun _ => rfl, nofun, fun _ => rfl, fun _ => rfl⟩ hcall hisr hsem hstopFeed
      hstopped (Or.inl hclrs) (Or.inr (Or.inr (Or.inr rfl)))
  | toCounter | toWake =>
    cases hstep
    exact Effect.pass ⟨fun _ => rfl, nofun, nofun, fun _ => rfl⟩ rfl rfl rfl rfl rfl (Or.inl rfl)
      (Or.inl ⟨rfl, rfl⟩)
  | feedUp | clrUp | enUp =>
    cases hstep
    exact Effect.finish rfl rfl (Or.inr rfl) rfl (Or.inl rfl) rfl ⟨rfl, rfl⟩
  | stopUp | toUp =>
    cases hstep
    exact Effect.finish (t := { s with cmdAccessSem := none, stopped := true }) rfl rfl
      (Or.inr rfl) rfl (Or.inr rfl) rfl ⟨rfl, rfl⟩
  | clrTest | waitFast =>
    simp only [stmt] at hstep
    split at hstep
    · cases hstep
      exact Effect.finish rfl rfl (Or.inl rfl) rfl (Or.inl rfl) rfl ⟨rfl, rfl⟩
    · cases hstep
      exact Effect.pass ⟨nofun, nofun, nofun, nofun⟩ rfl rfl rfl rfl rfl (Or.inl rfl)
        (Or.inl ⟨rfl, rfl⟩)
  | waitPrepare =>
    cases hstep
    exact Effect.pass ⟨nofun, nofun, nofun, nofun⟩ rfl rfl rfl rfl rfl (Or.inl rfl)
      (Or.inl ⟨rfl, rfl⟩)
  | waitCheck =>
    simp only [stmt] at hstep
    split at hstep
    · cases hstep
      exact Effect.finish rfl rfl (Or.inl rfl) rfl (Or.inl rfl) rfl ⟨rfl, rfl⟩
    · cases hstep
      exact Effect.pass ⟨nofun, nofun, nofun, nofun⟩ rfl rfl rfl rfl rfl (Or.inl rfl)
        (Or.inl ⟨rfl, rfl⟩)
  | waitSleep =>
    simp only [stmt] at hstep
    split at hstep
    · cases hstep
      exact Effect.finish rfl rfl (Or.inl rfl) rfl (Or.inl rfl) rfl ⟨rfl, rfl⟩
    · split at hstep
      · cases hstep
      · cases hstep
        exact Effect.pass ⟨nofun, nofun, nofun, nofun⟩ rfl rfl rfl rfl rfl (Or.inl rfl)
          (Or.inl ⟨rfl, rfl⟩)

structure StopInv (s : State κ) : Prop where
  mutex : ∀ k pc, s.call k = some pc → pc.inside = true → s.cmdAccessSem = some k
  feeding : ∀ k pc, s.call k = some pc → pc.feeding = true → s.stopFeed = false
  stopping : ∀ k pc, s.call k = some pc → pc.stopping = true → s.stopped = false
  hasSet : ∀ k pc, s.call k = some pc → pc.hasSet = true → s.stopFeed = true
  handler : ∀ i, s.isr = some i → i.feeds = true → s.stopFeed = false
  done : s.stopped = true → s.stopFeed = true

theorem Pc.inside_of_feeding {pc : Pc} (h : pc.feeding = true) : pc.inside = true := by
  cases pc <;> first | rfl | cases h

theorem Pc.inside_of_stopping {pc : Pc} (h : pc.stopping = true) : pc.inside = true := by
  cases pc <;> first | rfl | cases h

theorem Pc.inside_of_hasSet {pc : Pc} (h : pc.hasSet = true) : pc.inside = true := by
  cases pc <;> first | rfl | cases h

theorem Pc.inside_of_setsStopFeed {pc : Pc} (h : pc.setsStopFeed = true) : pc.inside = true := by
  cases pc <;> first | rfl | cases h

section Invariant

variable {s s' : State κ} {k : κ} {pc : Pc} {interrupted : Bool}

omit [DecidableEq κ] in
theorem Init.stopInv (hinit : Init s) : StopInv s := by
  have hidle : ∀ k pc, s.call k ≠ some pc := by
    intro k pc hk
    rw [hinit.call] at hk
    cases hk
  refine ⟨fun k pc h => absurd h (hidle k pc), fun k pc h => absurd h (hidle k pc),
    fun k pc h => absurd h (hidle k pc), fun k pc h => absurd h (hidle k pc), ?_, ?_⟩
  · intro i hi
    rw [hinit.isr] at hi
    cases hi
  · intro hdone
    rw [hinit.stopped] at hdone
    cases hdone

omit [DecidableEq κ] in
theorem StopInv.alone (hinv : StopInv s) {j : κ} {pc' : Pc} (hk : s.call k = some pc)
    (hpc : pc.inside = true) (hj : s.call j = some pc') (hpc' : pc'.inside = true) : j = k := by
  have h := hinv.mutex j pc' hj hpc'
  rw [hinv.mutex k pc hk hpc] at h
  exact (Option.some.inj h).symm

theorem StopInv.enter (hinv : StopInv s) (hout : pc.inside = false) :
    StopInv (s.goto k pc) := by
  have hcase : ∀ j pc', (s.goto k pc).call j = some pc' → pc' = pc ∨ s.call j = some pc' := by
    intro j pc' hj
    simp only [State.goto, Function.update_apply] at hj
    split at hj
    next =>
      cases hj
      exact Or.inl rfl
    next => exact Or.inr hj
  have hclash : ∀ pc' : Pc, pc' = pc → pc'.inside ≠ true := by
    rintro _ rfl
    rw [hout]
    exact Bool.false_ne_true
  refine ⟨?_, ?_, ?_, ?_, hinv.handler, hinv.done⟩
  · intro j pc' hj hin
    rcases hcase j pc' hj with heq | hj
    · exact absurd hin (hclash pc' heq)
    · exact hinv.mutex j pc' hj hin
  · intro j pc' hj hfeeding
    rcases hcase j pc' hj with heq | hj
    · exact absurd (Pc.inside_of_feeding hfeeding) (hclash pc' heq)
    · exact hinv.feeding j pc' hj hfeeding
  · intro j pc' hj hstopping
    rcases hcase j pc' hj with heq | hj
    · exact absurd (Pc.inside_of_stopping hstopping) (hclash pc' heq)
    · exact hinv.stopping j pc' hj hstopping
  · intro j pc' hj hset
    rcases hcase j pc' hj with heq | hj
    · exact absurd (Pc.inside_of_hasSet hset) (hclash pc' heq)
    · exact hinv.hasSet j pc' hj hset

theorem StopInv.run (hinv : StopInv s) (hcall : s.call k = some pc)
    (hpunctual : Punctual s (.run k interrupted))
    (hstep : stmt s k interrupted pc = some s') : StopInv s' := by
  have heff := stmt_effect hstep
  obtain ⟨hdecides, hsets⟩ := hpunctual pc hcall
  -- another caller inside the section keeps `k` out of it
  have hout : ∀ j ≠ k, ∀ pc', s.call j = some pc' → pc'.inside = true → pc.inside = false := by
    intro j hj pc' hpc' hin
    by_contra hpc
    exact hj (hinv.alone hcall (by simpa using hpc) hpc' hin)
  have hflag : pc.inside = false → s'.stopFeed = s.stopFeed ∧ s'.stopped = s.stopped := by
    intro hpc
    constructor
    · rcases heff.stopFeed with hsame | ⟨hset, -⟩
      · exact hsame
      · rw [Pc.inside_of_setsStopFeed hset] at hpc
        cases hpc
    · rcases heff.stopped with hsame | ⟨hset, -⟩
      · exact hsame
      · rw [Pc.inside_of_hasSet hset] at hpc
        cases hpc
  have hraised : s.stopFeed = true → s'.stopFeed = true := by
    intro hflag
    rcases heff.stopFeed with hsame | ⟨-, hset⟩
    · rw [hsame, hflag]
    · exact hset
  refine ⟨?_, ?_, ?_, ?_, ?_, ?_⟩
  · intro j pc' hj hin
    by_cases hjk : j = k
    · subst hjk
      exact heff.inside (hinv.mutex j pc hcall) pc' hj hin
    · rw [heff.others j hjk] at hj
      have hsem := hinv.mutex j pc' hj hin
      have hpc := hout j hjk pc' hj hin
      rcases heff.sem with hsame | hnone | hself
      · rw [hsame, hsem]
      · rw [hnone] at hsem
        cases hsem
      · rw [hpc] at hself
        cases hself
  · intro j pc' hj hfeeding
    by_cases hjk : j = k
    · subst hjk
      have hclear : s.stopFeed = false ∧ pc.setsStopFeed = false := by
        rcases heff.feeding pc' hj hfeeding with hfed | ⟨hdecide, hcalm⟩
        · refine ⟨hinv.feeding j pc hcall hfed, ?_⟩
          cases pc <;> first | rfl | cases hfed
        · refine ⟨hdecides hdecide hcalm, ?_⟩
          cases pc <;> first | rfl | cases hdecide
      rcases heff.stopFeed with hsame | ⟨hset, -⟩
      · rw [hsame, hclear.1]
      · rw [hclear.2] at hset
        cases hset
    · rw [heff.others j hjk] at hj
      rw [(hflag (hout j hjk pc' hj (Pc.inside_of_feeding hfeeding))).1]
      exact hinv.feeding j pc' hj hfeeding
  · intro j pc' hj hstopping
    by_cases hjk : j = k
    · subst hjk
      rcases heff.stopped with hsame | ⟨-, hnone⟩
      · rw [hsame]
        rcases heff.stopping pc' hj hstopping with hstop | ⟨hdecide, hcalm⟩
        · exact hinv.stopping j pc hcall hstop
        · by_contra hdone
          have hset := hinv.done (by simpa using hdone)
          rw [hdecides hdecide hcalm] at hset
          cases hset
      · rw [hnone] at hj
        cases hj
    · rw [heff.others j hjk] at hj
      rw [(hflag (hout j hjk pc' hj (Pc.inside_of_stopping hstopping))).2]
      exact hinv.stopping j pc' hj hstopping
  · intro j pc' hj hset
    by_cases hjk : j = k
    · subst hjk
      rcases heff.hasSet pc' hj hset with hbefore | hnow
      · exact hraised (hinv.hasSet j pc hcall hbefore)
      · exact hnow
    · rw [heff.others j hjk] at hj
      exact hraised (hinv.hasSet j pc' hj hset)
  · intro i hi hfeeds
    rw [heff.isr] at hi
    rcases heff.stopFeed with hsame | ⟨hset, -⟩
    · rw [hsame]
      exact hinv.handler i hi hfeeds
    · rw [hsets hset i hi] at hfeeds
      cases hfeeds
  · intro hdone
    rcases heff.stopped with hsame | ⟨hset, -⟩
    · exact hraised (hinv.done (hsame ▸ hdone))
    · exact hraised (hinv.hasSet k pc hcall hset)

omit [DecidableEq κ] in
theorem StopInv.isr (hinv : StopInv s) {i : Isr} (hi : s.isr = some i) :
    StopInv (isrStmt s i) := by
  have hflags : (isrStmt s i).stopFeed = s.stopFeed ∧ (isrStmt s i).stopped = s.stopped ∧
      (isrStmt s i).call = s.call ∧ (isrStmt s i).cmdAccessSem = s.cmdAccessSem := by
    unfold isrStmt
    split <;> [split; skip; skip; skip; split; skip; skip; skip] <;> exact ⟨rfl, rfl, rfl, rfl⟩
  obtain ⟨hfeed, hstopped, hcall, hsem⟩ := hflags
  refine ⟨?_, ?_, ?_, ?_, ?_, ?_⟩
  · rw [hcall, hsem]
    exact hinv.mutex
  · rw [hcall, hfeed]
    exact hinv.feeding
  · rw [hcall, hstopped]
    exact hinv.stopping
  · rw [hcall, hfeed]
    exact hinv.hasSet
  · rw [hfeed]
    intro i' hi' hfeeds
    cases i with
    | test =>
      simp only [isrStmt] at hi'
      split at hi'
      next =>
        cases hi'
        cases hfeeds
      next htest =>
        have hboth : s.feedByKernel = true ∧ s.stopFeed = false := by simpa using htest
        exact hboth.2
    | unlock => exact hinv.handler .unlock hi rfl
    | mode =>
      simp only [isrStmt] at hi'
      split at hi' <;> cases hi'
      cases hfeeds
    | _ =>
      cases hi'
      try cases hfeeds
  · rw [hstopped, hfeed]
    exact hinv.done

theorem StopInv.next (hinv : StopInv s) {feedTimer : Bool} {a : Action κ}
    (hpunctual : Punctual s a) (hstep : Watchdog.next feedTimer s a = some s') : StopInv s' := by
  cases a with
  | start k cmd =>
    rcases next_start hstep with rfl | ⟨-, rfl⟩
    · exact hinv
    · exact hinv.enter (by cases cmd <;> rfl)
  | run k interrupted =>
    obtain ⟨pc, hcall, hstmt⟩ := Option.bind_eq_some_iff.mp hstep
    exact hinv.run hcall hpunctual hstmt
  | expire =>
    simp only [Watchdog.next] at hstep
    split at hstep
    next =>
      cases hstep
      exact ⟨hinv.mutex, hinv.feeding, hinv.stopping, hinv.hasSet, hinv.handler, hinv.done⟩
    next => cases hstep
  | interrupt =>
    simp only [Watchdog.next] at hstep
    split at hstep
    next =>
      cases hstep
      refine ⟨hinv.mutex, hinv.feeding, hinv.stopping, hinv.hasSet, ?_, hinv.done⟩
      intro i hi hfeeds
      cases hi
      cases hfeeds
    next => cases hstep
  | isr =>
    obtain ⟨i, hi, rfl⟩ := Option.map_eq_some_iff.mp hstep
    exact hinv.isr hi

theorem StopInv.staysArmed (hinv : StopInv s) (feedTimer : Bool) : StaysArmed feedTimer s := by
  intro hstopped a s' hstep
  have hset := hinv.done hstopped
  cases a with
  | start k cmd =>
    rcases next_start hstep with rfl | ⟨-, rfl⟩ <;> exact ⟨rfl, id, id⟩
  | run k interrupted =>
    obtain ⟨pc, hcall, hstmt⟩ := Option.bind_eq_some_iff.mp hstep
    have heff := stmt_effect hstmt
    have hfeeding : pc.feeding ≠ true := by
      intro hfeeding
      rw [hinv.feeding k pc hcall hfeeding] at hset
      cases hset
    have hstopping : pc.stopping ≠ true := by
      intro hstopping
      rw [hinv.stopping k pc hcall hstopping] at hstopped
      cases hstopped
    refine ⟨heff.intClrs.resolve_right hfeeding, ?_⟩
    rcases heff.enabled with ⟨hinten, hresen⟩ | ⟨hinten, hresen⟩ | h | h
    · exact ⟨fun h => hinten.trans h, fun h => hresen.trans h⟩
    · exact ⟨fun _ => hinten, fun _ => hresen⟩
    · exact absurd h hfeeding
    · exact absurd h hstopping
  | expire =>
    simp only [Watchdog.next] at hstep
    split at hstep <;> cases hstep
    exact ⟨rfl, id, id⟩
  | interrupt =>
    simp only [Watchdog.next] at hstep
    split at hstep <;> cases hstep
    exact ⟨rfl, id, id⟩
  | isr =>
    obtain ⟨i, hi, rfl⟩ := Option.map_eq_some_iff.mp hstep
    cases i with
    | intclr =>
      rw [hinv.handler .intclr hi rfl] at hset
      cases hset
    | test =>
      simp only [isrStmt]
      split <;> exact ⟨rfl, id, id⟩
    | mode =>
      simp only [isrStmt]
      split <;> exact ⟨rfl, id, id⟩
    | _ => exact ⟨rfl, id, id⟩

/-- In a run whose requests and handlers are punctual a stopped watchdog is neither
reloaded nor disabled. -/
theorem stopped_stays_armed (feedTimer : Bool) (s : State κ)
    (hreach : ((watchdog κ feedTimer).restrict Punctual).Reachable s) :
    StaysArmed feedTimer s := by
  have hinv : StopInv s := by
    refine hreach.invariant (fun _ hinit => hinit.stopInv) ?_
    exact fun _ _ _ _ hinv hstep => hinv.next hstep.1 hstep.2
  exact hinv.staysArmed feedTimer

end Invariant

/-! ## Runs of two callers -/

instance (s : State Caller) (a : Action Caller) : Decidable (Punctual s a) :=
  match a with
  | .run k interrupted =>
    decidable_of_iff (∀ pc ∈ s.call k,
      (pc.decides = true → interrupted = false → s.stopFeed = false) ∧
      (pc.setsStopFeed = true → ∀ i ∈ s.isr, i.feeds = false)) Iff.rfl
  | .start _ _ | .expire | .interrupt | .isr => isTrue trivial

def punctualRun : List (Action Caller) :=
  List.flatten [request .app .clr 7, request .app (.feed true) 5, timerIrq 5, [.expire],
    request .guard .stop 9, [.interrupt], List.replicate 2 .isr, request .app .clr 1,
    request .app .timeout 5]

def afterPunctual : State Caller :=
  (TransitionSystem.runSteps (TransitionSystem.guarded Punctual (next true)) probed
    punctualRun).get (by decide +kernel)

theorem stopped_stays_armed_punctual :
    StaysArmed true afterPunctual ∧ afterPunctual.stopped = true ∧ afterPunctual.intClrs = 2 := by
  have hstart : ((watchdog Caller true).restrict Punctual).Reachable probed :=
    TransitionSystem.Reachable.init init_probed
  refine ⟨stopped_stays_armed true afterPunctual ?_, by decide +kernel⟩
  exact hstart.runGuarded (l := punctualRun) (Option.some_get _).symm

def lateClearRun : List (Action Caller) :=
  List.flatten [request .app .clr 1, request .guard .stop 9, statements .app 2]

def beforeLateClear : State Caller :=
  (TransitionSystem.runSteps (next true) probed lateClearRun).get (by decide +kernel)

def disableRun : List (Action Caller) :=
  List.flatten [request .guard .timeout 5, request .app (.enable false) 2]

def beforeDisable : State Caller :=
  (TransitionSystem.runSteps (next true) probed disableRun).get (by decide +kernel)

/-- A clear that waited for the stop reloads the watchdog, and a disable after a
timeout request disarms it. -/
theorem stopped_watchdog_reloaded :
    ((watchdog Caller true).Reachable beforeLateClear ∧ ¬ StaysArmed true beforeLateClear) ∧
    ((watchdog Caller true).Reachable beforeDisable ∧ ¬ StaysArmed true beforeDisable) := by
  have hstart : (watchdog Caller true).Reachable probed :=
    TransitionSystem.Reachable.init init_probed
  refine ⟨⟨hstart.runSteps (l := lateClearRun) (Option.some_get _).symm, ?_⟩,
    ⟨hstart.runSteps (l := disableRun) (Option.some_get _).symm, ?_⟩⟩
  · intro harmed
    have hcleared : (next true beforeLateClear (.run .app false)).map State.intClrs = some 1 := by
      decide +kernel
    obtain ⟨s', hs', hone⟩ := Option.map_eq_some_iff.mp hcleared
    have hkept := (harmed (by decide +kernel) _ s' hs').1
    rw [hone] at hkept
    revert hkept
    decide +kernel
  · intro harmed
    have hdisabled : (next true beforeDisable (.run .app false)).map State.inten = some false := by
      decide +kernel
    obtain ⟨s', hs', hoff⟩ := Option.map_eq_some_iff.mp hdisabled
    have hkept := (harmed (by decide +kernel) _ s' hs').2.1 (by decide +kernel)
    rw [hoff] at hkept
    cases hkept

end HiMpu.Watchdog
