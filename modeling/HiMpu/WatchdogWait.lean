import HiMpu.Watchdog

/-!
# The waiters of the watchdog

`watchdog_timeout_wait` waits for the counter that the handler of the feed timer
raises.  Feeds and mode changes set it to zero, a stop or timeout request to its
bound.  The handler loads and stores the counter without a lock, an enable does
not touch it, and a stop does not wake the waiters.
-/

namespace HiMpu.Watchdog

variable {κ : Type*} [DecidableEq κ]

def Asleep (s : State κ) (k : κ) : Prop :=
  s.call k = some .waitSleep ∧ s.queued k = true

def WakePending (s : State κ) : Prop :=
  s.isr = some .wake ∨ ∃ k, s.call k = some .toWake

structure WaitersServed (s : State κ) : Prop where
  /-- A wait that is about to return 0 has seen the missed feeds or a request. -/
  returned : ∀ k, s.call k = some .waitFast ∨ s.call k = some .waitCheck → timedOut s →
    wdgAppWaitCounter ≤ s.missed ∨ s.stopFeed = true
  notLost : ∀ k, Asleep s k → timedOut s → s.woken = true ∨ WakePending s

def Pc.restarts : Pc → Bool
  | .feedCounter | .clrCounter | .enIntclr true => true
  | _ => false

def Pc.jumps : Pc → Bool
  | .stopCounter | .toCounter => true
  | _ => false

def Isr.counting : Isr → Bool
  | .wake => false
  | _ => true

/-- Before a stop is requested the count does not begin anew while a handler has
not stored its own, nor by an enable that leaves a counter behind; and a stop sets
the counter while nobody sleeps. -/
def Whole (s : State κ) : Action κ → Prop
  | .run k _ =>
    ∀ pc, s.call k = some pc →
      (pc.restarts = true → s.stopFeed = false →
        (∀ i, s.isr = some i → i.counting = false) ∧
        (pc = .enIntclr true → s.waitCounter = 0)) ∧
      (pc = .stopCounter → ∀ j, ¬ Asleep s j)
  | _ => True

structure Tally (s s' : State κ) (k : κ) (pc : Pc) : Prop where
  others : ∀ j ≠ k, s'.call j = s.call j
  isr : s'.isr = s.isr
  raised : s.stopFeed = true → s'.stopFeed = true
  count : s'.waitCounter = s.waitCounter ∧ s'.missed = s.missed ∧ s'.isrFresh = s.isrFresh ∨
    pc.restarts = true ∧ s'.missed = 0 ∧
      (s'.waitCounter = 0 ∨ pc = .enIntclr true ∧ s'.waitCounter = s.waitCounter) ∨
    pc.jumps = true
  flagged : ∀ pc', s'.call k = some pc' → pc'.jumps = true → s'.stopFeed = true
  queued : ∀ j ≠ k, s'.queued j = true → s.queued j = true
  sleeps : s'.call k = some .waitSleep → ¬ timedOut s ∧ s'.waitCounter = s.waitCounter
  woken : pc = .toWake → ∀ j, s'.queued j = false
  wake : pc = .toCounter → s'.call k = some .toWake

section Tallies

variable {s t : State κ} {k : κ} {pc pc' : Pc}

theorem Tally.goto (hcall : t.call = s.call) (hisr : t.isr = s.isr)
    (hraised : s.stopFeed = true → t.stopFeed = true)
    (hcount : t.waitCounter = s.waitCounter ∧ t.missed = s.missed ∧ t.isrFresh = s.isrFresh ∨
      pc.restarts = true ∧ t.missed = 0 ∧
        (t.waitCounter = 0 ∨ pc = .enIntclr true ∧ t.waitCounter = s.waitCounter) ∨
      pc.jumps = true)
    (hflagged : pc'.jumps = true → t.stopFeed = true)
    (hqueued : ∀ j ≠ k, t.queued j = true → s.queued j = true)
    (hsleeps : pc' = .waitSleep → ¬ timedOut s ∧ t.waitCounter = s.waitCounter)
    (hwoken : pc = .toWake → ∀ j, t.queued j = false) (hwake : pc = .toCounter → pc' = .toWake) :
    Tally s (t.goto k pc') k pc := by
  have hself : (t.goto k pc').call k = some pc' := by
    simp only [State.goto, Function.update_self]
  refine ⟨fun j hj => ?_, hisr, hraised, hcount, fun p hp hjumps => ?_, hqueued, fun hp => ?_,
    hwoken, fun hpc => ?_⟩
  · rw [← hcall]
    exact Function.update_of_ne hj ..
  · rw [hself] at hp
    cases hp
    exact hflagged hjumps
  · rw [hself] at hp
    exact hsleeps (Option.some.inj hp)
  · rw [hself, hwake hpc]

structure Unseen (s t : State κ) : Prop where
  call : t.call = s.call
  isr : t.isr = s.isr
  stopFeed : t.stopFeed = s.stopFeed
  count : t.waitCounter = s.waitCounter ∧ t.missed = s.missed ∧ t.isrFresh = s.isrFresh
  queued : t.queued = s.queued

theorem Tally.pass (hseen : Unseen s t) (hnext : pc'.jumps = false ∧ pc' ≠ .waitSleep)
    (hpc : pc ≠ .toWake ∧ pc ≠ .toCounter) : Tally s (t.goto k pc') k pc := by
  refine Tally.goto hseen.call hseen.isr ?_ (Or.inl hseen.count) ?_ ?_ ?_ ?_ ?_
  · rw [hseen.stopFeed]
    exact id
  · rw [hnext.1]
    exact fun h => absurd h Bool.false_ne_true
  · rw [hseen.queued]
    exact fun _ _ => id
  · exact fun h => absurd h hnext.2
  · exact fun h => absurd h hpc.1
  · exact fun h => absurd h hpc.2

theorem Tally.finish (hcall : t.call = s.call) (hisr : t.isr = s.isr)
    (hraised : t.stopFeed = s.stopFeed)
    (hcount : t.waitCounter = s.waitCounter ∧ t.missed = s.missed ∧ t.isrFresh = s.isrFresh)
    (hqueued : ∀ j ≠ k, t.queued j = s.queued j) (hwake : pc ≠ .toWake ∧ pc ≠ .toCounter) :
    Tally s (t.finish k) k pc := by
  have hself : (t.finish k).call k = none := by
    simp only [State.finish, Function.update_self]
  refine ⟨fun j hj => ?_, hisr, fun hset => hraised.trans hset, Or.inl hcount, fun p hp => ?_,
    fun j hj hq => (hqueued j hj).symm.trans hq, fun hp => ?_, fun hpc => absurd hpc hwake.1,
    fun hpc => absurd hpc hwake.2⟩
  · rw [← hcall]
    exact Function.update_of_ne hj ..
  · rw [hself] at hp
    cases hp
  · rw [hself] at hp
    cases hp

omit [DecidableEq κ] in
theorem writeControl_unseen (s : State κ) (inten resen : Bool) :
    Unseen s (writeControl s inten resen) := by
  unfold writeControl
  split
  · exact ⟨rfl, rfl, rfl, ⟨rfl, rfl, rfl⟩, rfl⟩
  · exact ⟨rfl, rfl, rfl, ⟨rfl, rfl, rfl⟩, rfl⟩

theorem Tally.down {s' : State κ} {interrupted : Bool}
    (hstep : Watchdog.down s k interrupted pc' = some s')
    (hnext : pc'.jumps = false ∧ pc' ≠ .waitSleep) (hpc : pc ≠ .toWake ∧ pc ≠ .toCounter) :
    Tally s s' k pc := by
  unfold Watchdog.down at hstep
  split at hstep
  · cases hstep
    exact Tally.finish rfl rfl rfl ⟨rfl, rfl, rfl⟩ (fun _ _ => rfl) hpc
  · split at hstep
    · cases hstep
      exact Tally.pass ⟨rfl, rfl, rfl, ⟨rfl, rfl, rfl⟩, rfl⟩ hnext hpc
    · cases hstep

theorem Tally.restart (hrestarts : pc.restarts = true)
    (hnext : pc'.jumps = false ∧ pc' ≠ .waitSleep) :
    Tally s ((Watchdog.restart (setCounter s 0)).goto k pc') k pc := by
  refine Tally.goto rfl rfl id (Or.inr (Or.inl ⟨hrestarts, rfl, Or.inl rfl⟩)) ?_
    (fun _ _ => id) ?_ ?_ ?_
  · rw [hnext.1]
    exact fun h => absurd h Bool.false_ne_true
  · exact fun h => absurd h hnext.2
  · rintro rfl
    cases hrestarts
  · rintro rfl
    cases hrestarts

end Tallies

theorem stmt_tally {s s' : State κ} {k : κ} {interrupted : Bool} {pc : Pc}
    (hstep : stmt s k interrupted pc = some s') : Tally s s' k pc := by
  cases pc with
  | feedDown | clrDown | stopDown | enDown | toDown =>
    exact Tally.down hstep ⟨rfl, nofun⟩ ⟨nofun, nofun⟩
  | feedTest =>
    simp only [stmt] at hstep
    split at hstep
    · cases hstep
      exact Tally.pass ⟨rfl, rfl, rfl, ⟨rfl, rfl, rfl⟩, rfl⟩ ⟨rfl, nofun⟩ ⟨nofun, nofun⟩
    · cases hstep
      exact Tally.pass ⟨rfl, rfl, rfl, ⟨rfl, rfl, rfl⟩, rfl⟩ ⟨rfl, nofun⟩ ⟨nofun, nofun⟩
  | feedMode | clrUnlock | clrIntclr | clrLock | stopTimer | stopUnlock | stopLock | enUnlock
  | enLock | enTimer =>
    cases hstep
    exact Tally.pass ⟨rfl, rfl, rfl, ⟨rfl, rfl, rfl⟩, rfl⟩ ⟨rfl, nofun⟩ ⟨nofun, nofun⟩
  | stopDisable | stopEnable | enControl =>
    cases hstep
    exact Tally.pass (writeControl_unseen s _ _) ⟨rfl, nofun⟩ ⟨nofun, nofun⟩
  | feedCounter | clrCounter =>
    cases hstep
    exact Tally.restart rfl ⟨rfl, nofun⟩
  | feedUp | clrUp | enUp =>
    cases hstep
    exact Tally.finish rfl rfl rfl ⟨rfl, rfl, rfl⟩ (fun _ _ => rfl) ⟨nofun, nofun⟩
  | stopUp | toUp =>
    cases hstep
    exact Tally.finish (t := { s with cmdAccessSem := none, stopped := true }) rfl rfl rfl
      ⟨rfl, rfl, rfl⟩ (fun _ _ => rfl) ⟨nofun, nofun⟩
  | clrTest =>
    simp only [stmt] at hstep
    split at hstep
    · cases hstep
      exact Tally.finish rfl rfl rfl ⟨rfl, rfl, rfl⟩ (fun _ _ => rfl) ⟨nofun, nofun⟩
    · cases hstep
      exact Tally.pass ⟨rfl, rfl, rfl, ⟨rfl, rfl, rfl⟩, rfl⟩ ⟨rfl, nofun⟩ ⟨nofun, nofun⟩
  | stopFeed | toFeed =>
    -- the flag is set before the counter jumps
    cases hstep
    exact Tally.goto rfl rfl (fun _ => rfl) (Or.inl ⟨rfl, rfl, rfl⟩) (fun _ => rfl)
      (fun _ _ => id) nofun nofun nofun
  | stopCounter =>
    cases hstep
    exact Tally.goto rfl rfl id (Or.inr (Or.inr rfl)) nofun (fun _ _ => id) nofun nofun nofun
  | toCounter =>
    cases hstep
    exact Tally.goto rfl rfl id (Or.inr (Or.inr rfl)) nofun (fun _ _ => id) nofun nofun
      fun _ => rfl
  | toWake =>
    cases hstep
    exact Tally.goto rfl rfl id (Or.inl ⟨rfl, rfl, rfl⟩) nofun (fun _ _ h => nomatch h) nofun
      (fun _ _ => rfl) nofun
  | enIntclr enable =>
    cases hstep
    cases enable with
    | false => exact Tally.pass ⟨rfl, rfl, rfl, ⟨rfl, rfl, rfl⟩, rfl⟩ ⟨rfl, nofun⟩ ⟨nofun, nofun⟩
    | true =>
      exact Tally.goto rfl rfl id (Or.inr (Or.inl ⟨rfl, rfl, Or.inr ⟨rfl, rfl⟩⟩)) nofun
        (fun _ _ => id) nofun nofun nofun
  | waitFast =>
    simp only [stmt] at hstep
    split at hstep
    · cases hstep
      exact Tally.finish rfl rfl rfl ⟨rfl, rfl, rfl⟩ (fun _ _ => rfl) ⟨nofun, nofun⟩
    · cases hstep
      exact Tally.pass ⟨rfl, rfl, rfl, ⟨rfl, rfl, rfl⟩, rfl⟩ ⟨rfl, nofun⟩ ⟨nofun, nofun⟩
  | waitPrepare =>
    cases hstep
    refine Tally.goto rfl rfl id (Or.inl ⟨rfl, rfl, rfl⟩) nofun ?_ nofun nofun nofun
    intro j hj hqueued
    simpa only [Function.update_of_ne hj] using hqueued
  | waitCheck =>
    simp only [stmt] at hstep
    split at hstep
    · cases hstep
      exact Tally.finish rfl rfl rfl ⟨rfl, rfl, rfl⟩ (fun _ hj => Function.update_of_ne hj ..)
        ⟨nofun, nofun⟩
    next hwaits =>
      cases hstep
      exact Tally.goto rfl rfl id (Or.inl ⟨rfl, rfl, rfl⟩) nofun (fun _ _ => id)
        (fun _ => ⟨(not_or.mp hwaits).1, rfl⟩) nofun nofun
  | waitSleep =>
    simp only [stmt] at hstep
    split at hstep
    · cases hstep
      exact Tally.finish rfl rfl rfl ⟨rfl, rfl, rfl⟩ (fun _ hj => Function.update_of_ne hj ..)
        ⟨nofun, nofun⟩
    · split at hstep
      · cases hstep
      · cases hstep
        exact Tally.pass ⟨rfl, rfl, rfl, ⟨rfl, rfl, rfl⟩, rfl⟩ ⟨rfl, nofun⟩ ⟨nofun, nofun⟩

def Isr.early : Isr → Bool
  | .test | .unlock | .intclr | .lock | .mode => true
  | _ => false

structure WaitInv (s : State κ) : Prop where
  counted : s.stopFeed = false → s.waitCounter.toNat ≤ s.missed
  loading : s.stopFeed = false → s.isr = some .load → s.waitCounter.toNat + 1 ≤ s.missed
  storing : s.stopFeed = false → ∀ c, s.isr = some (.store c) → c.toNat + 1 ≤ s.missed
  fresh : s.stopFeed = false → ∀ i, s.isr = some i → i.early = true → s.isrFresh = true
  flagged : ∀ k pc, s.call k = some pc → pc.jumps = true → s.stopFeed = true
  asleep : ∀ k, Asleep s k → timedOut s → WakePending s

section Invariant

variable {s s' : State κ} {k : κ} {pc : Pc} {interrupted : Bool}

omit [DecidableEq κ] in
theorem Init.waitInv (hinit : Init s) : WaitInv s where
  counted _ := by
    rw [hinit.waitCounter]
    exact Nat.zero_le _
  loading _ h := by
    rw [hinit.isr] at h
    cases h
  storing _ c h := by
    rw [hinit.isr] at h
    cases h
  fresh _ i h := by
    rw [hinit.isr] at h
    cases h
  flagged k pc h := by
    rw [hinit.call] at h
    cases h
  asleep k h := by
    have hcall := h.1
    rw [hinit.call] at hcall
    cases hcall

omit [DecidableEq κ] in
theorem timedOut_congr (h : s'.waitCounter = s.waitCounter) : timedOut s' ↔ timedOut s := by
  unfold timedOut
  rw [h]

theorem WaitInv.run (hinv : WaitInv s) (hcall : s.call k = some pc)
    (hwhole : Whole s (.run k interrupted))
    (hstep : stmt s k interrupted pc = some s') : WaitInv s' := by
  have htally := stmt_tally hstep
  obtain ⟨hrestarts, hstop⟩ := hwhole pc hcall
  have hlower : s'.stopFeed = false → s.stopFeed = false := by
    intro hclear
    by_contra hset
    rw [htally.raised (by simpa using hset)] at hclear
    cases hclear
  have hjumps : pc.jumps = true → s'.stopFeed = true :=
    fun h => htally.raised (hinv.flagged k pc hcall h)
  refine ⟨?_, ?_, ?_, ?_, ?_, ?_⟩
  · intro hclear
    rcases htally.count with ⟨hcount, hmissed, -⟩ | ⟨hre, hmissed, hcount⟩ | hj
    · rw [hcount, hmissed]
      exact hinv.counted (hlower hclear)
    · rcases hcount with hzero | ⟨hen, hsame⟩
      · rw [hzero]
        exact Nat.zero_le _
      · rw [hsame, (hrestarts hre (hlower hclear)).2 hen]
        exact Nat.zero_le _
    · rw [hjumps hj] at hclear
      cases hclear
  · intro hclear hi
    rw [htally.isr] at hi
    rcases htally.count with ⟨hcount, hmissed, -⟩ | ⟨hre, -, -⟩ | hj
    · rw [hcount, hmissed]
      exact hinv.loading (hlower hclear) hi
    · have hidle := (hrestarts hre (hlower hclear)).1 _ hi
      cases hidle
    · rw [hjumps hj] at hclear
      cases hclear
  · intro hclear c hi
    rw [htally.isr] at hi
    rcases htally.count with ⟨-, hmissed, -⟩ | ⟨hre, -, -⟩ | hj
    · rw [hmissed]
      exact hinv.storing (hlower hclear) c hi
    · have hidle := (hrestarts hre (hlower hclear)).1 _ hi
      cases hidle
    · rw [hjumps hj] at hclear
      cases hclear
  · intro hclear i hi hearly
    rw [htally.isr] at hi
    rcases htally.count with ⟨-, -, hfresh⟩ | ⟨hre, -, -⟩ | hj
    · rw [hfresh]
      exact hinv.fresh (hlower hclear) i hi hearly
    · have hidle := (hrestarts hre (hlower hclear)).1 i hi
      cases i <;> simp [Isr.counting, Isr.early] at hidle hearly
    · rw [hjumps hj] at hclear
      cases hclear
  · intro j pc' hj hpc'
    by_cases hjk : j = k
    · subst hjk
      exact htally.flagged pc' hj hpc'
    · rw [htally.others j hjk] at hj
      exact htally.raised (hinv.flagged j pc' hj hpc')
  · intro j hasleep hout
    -- a caller goes to sleep only where the counter is below its bound
    have hbefore : Asleep s j ∨ ¬ timedOut s ∧ s'.waitCounter = s.waitCounter := by
      by_cases hjk : j = k
      · subst hjk
        exact Or.inr (htally.sleeps hasleep.1)
      · exact Or.inl ⟨htally.others j hjk ▸ hasleep.1, htally.queued j hjk hasleep.2⟩
    rcases hbefore with hbefore | ⟨hbelow, hsame⟩
    · have hpending : timedOut s → WakePending s' := by
        intro hreached
        rcases hinv.asleep j hbefore hreached with hi | ⟨m, hm⟩
        · exact Or.inl (htally.isr.trans hi)
        · by_cases hmk : m = k
          · subst hmk
            rw [hcall] at hm
            have hawake := htally.woken (Option.some.inj hm) j
            rw [hasleep.2] at hawake
            cases hawake
          · exact Or.inr ⟨m, (htally.others m hmk).trans hm⟩
      rcases htally.count with ⟨hcount, -, -⟩ | ⟨-, -, hcount⟩ | hj
      · exact hpending ((timedOut_congr hcount).mp hout)
      · rcases hcount with hzero | ⟨-, hsame⟩
        · unfold timedOut at hout
          rw [hzero] at hout
          exact absurd hout (by decide)
        · exact hpending ((timedOut_congr hsame).mp hout)
      · cases pc with
        | stopCounter => exact absurd hbefore (hstop rfl j)
        | toCounter => exact Or.inr ⟨k, htally.wake rfl⟩
        | _ => cases hj
    · exact absurd ((timedOut_congr hsame).mp hout) hbelow

theorem WaitInv.enter (hinv : WaitInv s) (hidle : s.call k = none) (hjumps : pc.jumps = false)
    (hsleep : pc ≠ .waitSleep) : WaitInv (s.goto k pc) := by
  refine ⟨hinv.counted, hinv.loading, hinv.storing, hinv.fresh, ?_, ?_⟩
  · intro j pc' hj hpc'
    simp only [State.goto, Function.update_apply] at hj
    split at hj
    next =>
      cases hj
      rw [hjumps] at hpc'
      cases hpc'
    next => exact hinv.flagged j pc' hj hpc'
  · intro j hasleep hout
    have hcalls := hasleep.1
    simp only [State.goto, Function.update_apply] at hcalls
    split at hcalls
    next => exact absurd (Option.some.inj hcalls) hsleep
    next =>
      rcases hinv.asleep j ⟨hcalls, hasleep.2⟩ hout with hi | ⟨m, hm⟩
      · exact Or.inl hi
      · refine Or.inr ⟨m, ?_⟩
        have hmk : m ≠ k := by
          rintro rfl
          rw [hidle] at hm
          cases hm
        exact (Function.update_of_ne hmk _ _).trans hm

omit [DecidableEq κ] in
theorem WaitInv.passes (hinv : WaitInv s) {i : Isr} (hi : s.isr = some i) (hearly : i.early = true)
    {i' : Option Isr} (hnext : ∀ j, i' = some j → j.early = true)
    (hstop : s'.stopFeed = s.stopFeed) (hcounter : s'.waitCounter = s.waitCounter)
    (hmissed : s'.missed = s.missed) (hfresh : s'.isrFresh = s.isrFresh)
    (hcall : s'.call = s.call) (hqueued : s'.queued = s.queued) (hisr : s'.isr = i') :
    WaitInv s' where
  counted h := by
    rw [hcounter, hmissed]
    exact hinv.counted (hstop ▸ h)
  loading _ h := by
    have hload := hnext .load (hisr ▸ h)
    cases hload
  storing _ c h := by
    have hstore := hnext (.store c) (hisr ▸ h)
    cases hstore
  fresh h _ _ _ := by
    rw [hfresh]
    exact hinv.fresh (hstop ▸ h) i hi hearly
  flagged := by
    rw [hcall, hstop]
    exact hinv.flagged
  asleep j hasleep hout := by
    have hbefore : Asleep s j := ⟨hcall ▸ hasleep.1, hqueued ▸ hasleep.2⟩
    rcases hinv.asleep j hbefore ((timedOut_congr hcounter).mp hout) with hwake | ⟨m, hm⟩
    · rw [hi] at hwake
      cases hwake
      cases hearly
    · exact Or.inr ⟨m, by rw [hcall, hm]⟩

omit [DecidableEq κ] in
theorem WaitInv.isr (hinv : WaitInv s) {i : Isr} (hi : s.isr = some i) :
    WaitInv (isrStmt s i) := by
  have hawake : i ≠ .wake → ∀ j, Asleep s j → timedOut s → ∃ k, s.call k = some .toWake := by
    intro hne j hasleep hout
    rcases hinv.asleep j hasleep hout with hwake | hcall
    · rw [hi] at hwake
      exact absurd (Option.some.inj hwake) hne
    · exact hcall
  cases i with
  | test =>
    simp only [isrStmt]
    split
    · exact hinv.passes hi rfl (fun j h => by cases h; rfl) rfl rfl rfl rfl rfl rfl rfl
    · exact hinv.passes hi rfl (fun j h => by cases h; rfl) rfl rfl rfl rfl rfl rfl rfl
  | unlock => exact hinv.passes hi rfl (fun j h => by cases h; rfl) rfl rfl rfl rfl rfl rfl rfl
  | intclr => exact hinv.passes hi rfl (fun j h => by cases h; rfl) rfl rfl rfl rfl rfl rfl rfl
  | lock => exact hinv.passes hi rfl (fun j h => by cases h; rfl) rfl rfl rfl rfl rfl rfl rfl
  | mode =>
    simp only [isrStmt]
    split
    next => exact hinv.passes hi rfl (fun j h => by cases h) rfl rfl rfl rfl rfl rfl rfl
    next =>
      have hcount : s.stopFeed = false →
          (if s.isrFresh = true then s.missed + 1 else s.missed) = s.missed + 1 :=
        fun h => if_pos (hinv.fresh h .mode hi rfl)
      refine ⟨?_, ?_, ?_, ?_, hinv.flagged, ?_⟩
      · intro hclear
        exact (hinv.counted hclear).trans ((Nat.le_succ _).trans (hcount hclear).ge)
      · intro hclear _
        exact (Nat.succ_le_succ (hinv.counted hclear)).trans (hcount hclear).ge
      · intro _ c hc
        cases hc
      · intro _ i' hi' hearly
        cases hi'
        cases hearly
      · exact fun j hasleep hout => Or.inr (hawake (by decide) j hasleep hout)
  | load =>
    refine ⟨hinv.counted, ?_, ?_, ?_, hinv.flagged, ?_⟩
    · intro _ h
      cases h
    · intro hclear c hc
      cases hc
      exact hinv.loading hclear hi
    · intro _ i' hi' hearly
      cases hi'
      cases hearly
    · exact fun j hasleep hout => Or.inr (hawake (by decide) j hasleep hout)
  | store c =>
    refine ⟨?_, ?_, ?_, ?_, hinv.flagged, ?_⟩
    · intro hclear
      have hstored := hinv.storing hclear c hi
      calc (c + 1).toNat ≤ c.toNat + 1 := by
            rw [BitVec.toNat_add]
            exact Nat.mod_le _ _
        _ ≤ s.missed := hstored
    · intro _ h
      cases h
    · intro _ c' hc'
      cases hc'
    · intro _ i' hi' hearly
      cases hi'
      cases hearly
    · exact fun _ _ _ => Or.inl rfl
  | wake =>
    refine ⟨hinv.counted, ?_, ?_, ?_, hinv.flagged, ?_⟩
    · intro _ h
      cases h
    · intro _ c' hc'
      cases hc'
    · intro _ i' hi'
      cases hi'
    · intro j hasleep
      cases hasleep.2

theorem WaitInv.next (hinv : WaitInv s) {feedTimer : Bool} {a : Action κ}
    (hwhole : Whole s a) (hstep : Watchdog.next feedTimer s a = some s') : WaitInv s' := by
  cases a with
  | start k cmd =>
    rcases next_start hstep with rfl | ⟨hidle, rfl⟩
    · exact hinv
    · exact hinv.enter hidle (by cases cmd <;> rfl) (by cases cmd <;> exact fun h => nomatch h)
  | run k interrupted =>
    obtain ⟨pc, hcall, hstmt⟩ := Option.bind_eq_some_iff.mp hstep
    exact hinv.run hcall hwhole hstmt
  | expire =>
    simp only [Watchdog.next] at hstep
    split at hstep
    next =>
      cases hstep
      exact ⟨hinv.counted, hinv.loading, hinv.storing, hinv.fresh, hinv.flagged, hinv.asleep⟩
    next => cases hstep
  | interrupt =>
    simp only [Watchdog.next] at hstep
    split at hstep
    next hready =>
      cases hstep
      refine ⟨hinv.counted, ?_, ?_, fun _ _ _ _ => rfl, hinv.flagged, ?_⟩
      · intro _ h
        cases h
      · intro _ c h
        cases h
      · intro j hasleep hout
        rcases hinv.asleep j hasleep hout with hwake | hcall
        · rw [hready.2] at hwake
          cases hwake
        · exact Or.inr hcall
    next => cases hstep
  | isr =>
    obtain ⟨i, hi, rfl⟩ := Option.map_eq_some_iff.mp hstep
    exact hinv.isr hi

omit [DecidableEq κ] in
theorem WaitInv.served (hinv : WaitInv s) : WaitersServed s where
  returned k _ hout := by
    cases hset : s.stopFeed with
    | true => exact Or.inr rfl
    | false => exact Or.inl (hout.trans (hinv.counted hset))
  notLost k hasleep hout := Or.inr (hinv.asleep k hasleep hout)

/-- In a run whose counts stay whole and whose stops find no sleeper the waiters
return for a reason and are woken. -/
theorem waiters_served (feedTimer : Bool) (s : State κ)
    (hreach : ((watchdog κ feedTimer).restrict Whole).Reachable s) : WaitersServed s := by
  have hinv : WaitInv s := by
    refine hreach.invariant (fun _ hinit => hinit.waitInv) ?_
    exact fun _ _ _ _ hinv hstep => hinv.next hstep.1 hstep.2
  exact hinv.served

end Invariant

instance (s : State Caller) (j : Caller) : Decidable (Asleep s j) :=
  inferInstanceAs (Decidable (_ ∧ _))

instance (s : State Caller) : Decidable (WakePending s) :=
  inferInstanceAs (Decidable (_ ∨ _))

instance (s : State Caller) (a : Action Caller) : Decidable (Whole s a) :=
  match a with
  | .run k _ =>
    decidable_of_iff (∀ pc ∈ s.call k,
      (pc.restarts = true → s.stopFeed = false →
        (∀ i ∈ s.isr, i.counting = false) ∧ (pc = .enIntclr true → s.waitCounter = 0)) ∧
      (pc = .stopCounter → ∀ j, ¬ Asleep s j)) Iff.rfl
  | .start _ _ | .expire | .interrupt | .isr => isTrue trivial

def wholeRun : List (Action Caller) :=
  List.flatten [timerIrq 5, request .guard .clr 7, request .guard (.enable true) 7, timerIrq 5,
    request .app .wait 3, timerIrq 5, statements .app 3, timerIrq 5, statements .app 3, timerIrq 5,
    statements .app 2]

def afterWhole : State Caller :=
  (TransitionSystem.runSteps (TransitionSystem.guarded Whole (next true)) probed wholeRun).get
    (by decide +kernel)

theorem waiters_served_whole :
    WaitersServed afterWhole ∧ afterWhole.call .app = some .waitCheck ∧ timedOut afterWhole ∧
      afterWhole.missed = 4 := by
  have hstart : ((watchdog Caller true).restrict Whole).Reachable probed :=
    TransitionSystem.Reachable.init init_probed
  refine ⟨waiters_served true afterWhole ?_, by decide +kernel⟩
  exact hstart.runGuarded (l := wholeRun) (Option.some_get _).symm

def lostWakeRun : List (Action Caller) :=
  List.flatten [request .app .wait 3, request .guard .stop 9]

def afterLostWake : State Caller :=
  (TransitionSystem.runSteps (next true) probed lostWakeRun).get (by decide +kernel)

def enableRun : List (Action Caller) :=
  List.flatten [timerIrq 5, timerIrq 5, timerIrq 5, request .guard (.enable true) 7, timerIrq 5,
    request .app .wait 0]

def afterEnable : State Caller :=
  (TransitionSystem.runSteps (next true) probed enableRun).get (by decide +kernel)

/-- The stop leaves the waiter asleep, and after the enable a wait returns with one
missed feed. -/
theorem waiter_forgotten :
    ((watchdog Caller true).Reachable afterLostWake ∧ ¬ WaitersServed afterLostWake) ∧
    ((watchdog Caller true).Reachable afterEnable ∧ ¬ WaitersServed afterEnable) := by
  have hstart : (watchdog Caller true).Reachable probed :=
    TransitionSystem.Reachable.init init_probed
  refine ⟨⟨hstart.runSteps (l := lostWakeRun) (Option.some_get _).symm, ?_⟩,
    ⟨hstart.runSteps (l := enableRun) (Option.some_get _).symm, ?_⟩⟩
  · intro hserved
    have hwoken := hserved.notLost .app (by decide +kernel) (by decide +kernel)
    revert hwoken
    decide +kernel
  · intro hserved
    have hreturned := hserved.returned .app (by decide +kernel) (by decide +kernel)
    revert hreturned
    decide +kernel

end HiMpu.Watchdog
