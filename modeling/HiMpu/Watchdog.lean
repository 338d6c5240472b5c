import HiMpu.TransitionSystem

/-!
# The watchdog driver

The ioctls of `drivers/watchdog/watchdog.c` and the handler of its feed timer,
for one watchdog.  The callers exclude each other by a semaphore; the handler
takes no lock and runs between any two of their statements.  Only the watchdog
whose feed timer exists takes other requests than `WDG_CMD_CLR`.
-/

namespace HiMpu.Watchdog

def wdgAppWaitCounter : ℕ := 120000 / 30000

inductive Cmd
  | feed (byKernel : Bool)
  | clr
  | stop
  | enable (enable : Bool)
  | wait
  | timeout

inductive Pc
  -- `watchdog_feed`
  | feedDown (byKernel : Bool)
  | feedTest (byKernel : Bool)
  | feedMode (byKernel : Bool)
  | feedCounter
  | feedUp
  -- `watchdog_clr`
  | clrTest
  | clrDown
  | clrUnlock
  | clrIntclr
  | clrLock
  | clrCounter
  | clrUp
  -- `watchdog_stop`
  | stopDown
  | stopTimer
  | stopFeed
  | stopCounter
  | stopUnlock
  | stopDisable
  | stopEnable
  | stopLock
  | stopUp
  -- `watchdog_enable_set`
  | enDown (enable : Bool)
  | enUnlock (enable : Bool)
  | enControl (enable : Bool)
  | enIntclr (enable : Bool)
  | enLock (enable : Bool)
  | enTimer (enable : Bool)
  | enUp
  -- `watchdog_timeout_wait`
  | waitFast
  | waitPrepare
  | waitCheck
  | waitSleep
  -- `watchdog_timeout`
  | toDown
  | toFeed
  | toCounter
  | toWake
  | toUp
  deriving DecidableEq

inductive Isr
  | test
  | unlock
  | intclr
  | lock
  | mode
  | load
  | store (counter : BitVec 32)
  | wake
  deriving DecidableEq

variable {κ : Type*} [DecidableEq κ]

structure State (κ : Type*) where
  feedByKernel : Bool
  stopFeed : Bool
  waitCounter : BitVec 32
  cmdAccessSem : Option κ
  unlocked : Bool
  inten : Bool
  resen : Bool
  intClrs : ℕ
  timerOn : Bool
  irqPending : Bool
  isr : Option Isr
  call : κ → Option Pc
  /-- The callers on the wait queue that no wake-up has reached. -/
  queued : κ → Bool
  /-- The handlers that began since the last feed, mode change or enable and found
  the watchdog fed by the user, and whether the present one began since. -/
  missed : ℕ
  isrFresh : Bool
  /-- A wake-up was issued since the counter reached its bound. -/
  woken : Bool
  /-- A stop or timeout request has completed. -/
  stopped : Bool

inductive Action (κ : Type*)
  | start (k : κ) (cmd : Cmd)
  | run (k : κ) (interrupted : Bool)
  | expire
  | interrupt
  | isr

def watchdogLock (s : State κ) (lock : Bool) : State κ :=
  { s with unlocked := !lock }

def writeIntclr (s : State κ) : State κ :=
  { s with intClrs := s.intClrs + 1 }

/-- A write of the CONTROL register; it is ignored while the registers are locked. -/
def writeControl (s : State κ) (inten resen : Bool) : State κ :=
  if s.unlocked then { s with inten := inten, resen := resen } else s

def setCounter (s : State κ) (counter : BitVec 32) : State κ :=
  { s with
    waitCounter := counter
    woken := s.woken &&
      !(s.waitCounter.toNat < wdgAppWaitCounter && wdgAppWaitCounter ≤ counter.toNat) }

def wakeUpInterruptible (s : State κ) : State κ :=
  { s with queued := fun _ => false, woken := true }

def restart (s : State κ) : State κ :=
  { s with missed := 0, isrFresh := false }

def State.goto (s : State κ) (k : κ) (pc : Pc) : State κ :=
  { s with call := Function.update s.call k (some pc) }

def State.finish (s : State κ) (k : κ) : State κ :=
  { s with call := Function.update s.call k none }

def down (s : State κ) (k : κ) (interrupted : Bool) (pc : Pc) : Option (State κ) :=
  if interrupted then some (s.finish k)
  else if s.cmdAccessSem = none then some ({ s with cmdAccessSem := some k }.goto k pc)
  else none

def up (s : State κ) (k : κ) : State κ :=
  { s with cmdAccessSem := none }.finish k

def timedOut (s : State κ) : Prop := wdgAppWaitCounter ≤ s.waitCounter.toNat

instance (s : State κ) : Decidable (timedOut s) :=
  inferInstanceAs (Decidable (_ ≤ _))

def stmt (s : State κ) (k : κ) (interrupted : Bool) : Pc → Option (State κ)
  | .feedDown byKernel => down s k interrupted (.feedTest byKernel)
  | .feedTest byKernel =>
    if byKernel ≠ s.feedByKernel then some (s.goto k (.feedMode byKernel))
    else some (s.goto k .feedUp)
  | .feedMode byKernel => some ({ s with feedByKernel := byKernel }.goto k .feedCounter)
  | .feedCounter => some ((restart (setCounter s 0)).goto k .feedUp)
  | .feedUp => some (up s k)
  | .clrTest => if s.stopFeed then some (s.finish k) else some (s.goto k .clrDown)
  | .clrDown => down s k interrupted .clrUnlock
  | .clrUnlock => some ((watchdogLock s false).goto k .clrIntclr)
  | .clrIntclr => some ((writeIntclr s).goto k .clrLock)
  | .clrLock => some ((watchdogLock s true).goto k .clrCounter)
  | .clrCounter => some ((restart (setCounter s 0)).goto k .clrUp)
  | .clrUp => some (up s k)
  | .stopDown => down s k interrupted .stopTimer
  | .stopTimer => some ({ s with timerOn := false }.goto k .stopFeed)
  | .stopFeed => some ({ s with stopFeed := true }.goto k .stopCounter)
  | .stopCounter => some ((setCounter s (BitVec.ofNat 32 wdgAppWaitCounter)).goto k .stopUnlock)
  | .stopUnlock => some ((watchdogLock s false).goto k .stopDisable)
  | .stopDisable => some ((writeControl s false false).goto k .stopEnable)
  | .stopEnable => some ((writeControl s true true).goto k .stopLock)
  | .stopLock => some ((watchdogLock s true).goto k .stopUp)
  | .stopUp => some { up s k with stopped := true }
  | .enDown enable => down s k interrupted (.enUnlock enable)
  | .enUnlock enable => some ((watchdogLock s false).goto k (.enControl enable))
  | .enControl enable => some ((writeControl s enable s.resen).goto k (.enIntclr enable))
  | .enIntclr enable =>
    let s₁ := writeIntclr s
    some ((if enable then restart s₁ else s₁).goto k (.enLock enable))
  | .enLock enable => some ((watchdogLock s true).goto k (.enTimer enable))
  | .enTimer enable => some ({ s with timerOn := enable }.goto k .enUp)
  | .enUp => some (up s k)
  -- `wait_event_interruptible`
  | .waitFast => if timedOut s then some (s.finish k) else some (s.goto k .waitPrepare)
  | .waitPrepare =>
    some ({ s with queued := Function.update s.queued k true }.goto k .waitCheck)
  | .waitCheck =>
    if timedOut s ∨ interrupted = true then
      some ({ s with queued := Function.update s.queued k false }.finish k)
    else some (s.goto k .waitSleep)
  | .waitSleep =>
    if interrupted then some ({ s with queued := Function.update s.queued k false }.finish k)
    else if s.queued k then none
    else some (s.goto k .waitPrepare)
  | .toDown => down s k interrupted .toFeed
  | .toFeed => some ({ s with stopFeed := true }.goto k .toCounter)
  | .toCounter => some ((setCounter s (BitVec.ofNat 32 wdgAppWaitCounter)).goto k .toWake)
  | .toWake => some ((wakeUpInterruptible s).goto k .toUp)
  | .toUp => some { up s k with stopped := true }

def isrStmt (s : State κ) : Isr → State κ
  | .test =>
    if !s.feedByKernel || s.stopFeed then { s with isr := some .mode }
    else { s with isr := some .unlock }
  | .unlock => { watchdogLock s false with isr := some .intclr }
  | .intclr => { writeIntclr s with isr := some .lock }
  | .lock => { watchdogLock s true with isr := some .mode }
  | .mode =>
    if s.feedByKernel then { s with isr := none }
    else { s with
      isr := some .load
      missed := if s.isrFresh then s.missed + 1 else s.missed }
  | .load => { s with isr := some (.store s.waitCounter) }
  | .store counter => { setCounter s (counter + 1) with isr := some .wake }
  | .wake => { wakeUpInterruptible s with isr := none }

def Cmd.pc : Cmd → Pc
  | .feed byKernel => .feedDown byKernel
  | .clr => .clrTest
  | .stop => .stopDown
  | .enable en => .enDown en
  | .wait => .waitFast
  | .timeout => .toDown

def next (feedTimer : Bool) (s : State κ) : Action κ → Option (State κ)
  | .start k cmd =>
    if s.call k ≠ none then none
    else
      match cmd with
      | .clr => some (s.goto k cmd.pc)
      | _ => if feedTimer then some (s.goto k cmd.pc) else some s
  | .run k interrupted => (s.call k).bind (stmt s k interrupted)
  | .expire => if s.timerOn then some { s with irqPending := true } else none
  | .interrupt =>
    if s.irqPending = true ∧ s.isr = none then
      some { s with irqPending := false, isr := some .test, isrFresh := true }
    else none
  | .isr => s.isr.map (isrStmt s)

structure Init (s : State κ) : Prop where
  feedByKernel : s.feedByKernel = false
  stopFeed : s.stopFeed = false
  waitCounter : s.waitCounter = 0
  cmdAccessSem : s.cmdAccessSem = none
  isr : s.isr = none
  call : ∀ k, s.call k = none
  missed : s.missed = 0
  stopped : s.stopped = false

def watchdog (κ : Type*) [DecidableEq κ] (feedTimer : Bool) :
    TransitionSystem (State κ) (Action κ) :=
  TransitionSystem.ofStep Init (next feedTimer)

inductive Caller
  | app
  | guard
  deriving DecidableEq

instance : Fintype Caller where
  elems := {.app, .guard}
  complete c := by cases c <;> decide

def probed : State Caller where
  feedByKernel := false
  stopFeed := false
  waitCounter := 0
  cmdAccessSem := none
  unlocked := false
  inten := true
  resen := true
  intClrs := 0
  timerOn := true
  irqPending := false
  isr := none
  call _ := none
  queued _ := false
  missed := 0
  isrFresh := false
  woken := false
  stopped := false

theorem init_probed : Init probed :=
  ⟨rfl, rfl, rfl, rfl, rfl, fun _ => rfl, rfl, rfl⟩

def statements (k : Caller) (n : ℕ) : List (Action Caller) :=
  List.replicate n (.run k false)

def request (k : Caller) (cmd : Cmd) (n : ℕ) : List (Action Caller) :=
  .start k cmd :: statements k n

def timerIrq (n : ℕ) : List (Action Caller) :=
  .expire :: .interrupt :: List.replicate n .isr

theorem next_start {feedTimer : Bool} {s s' : State κ} {k : κ} {cmd : Cmd}
    (hstep : next feedTimer s (.start k cmd) = some s') :
    s' = s ∨ s.call k = none ∧ s' = s.goto k cmd.pc := by
  simp only [next] at hstep
  split at hstep
  next => cases hstep
  next hidle =>
    have hnone : s.call k = none := not_not.mp hidle
    split at hstep
    next =>
      cases hstep
      exact Or.inr ⟨hnone, rfl⟩
    next =>
      split at hstep
      next =>
        cases hstep
        exact Or.inr ⟨hnone, rfl⟩
      next =>
        cases hstep
        exact Or.inl rfl

end HiMpu.Watchdog
