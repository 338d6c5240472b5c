import HiMpu.TransitionSystem

/-!
# The interrupt mask of a GMAC port

`PCU_CSR_CF_INTRPT_MSK` is read, changed and written back by the interrupt handler, by the
end of a NAPI poll, by the tasklet that frees transmit descriptors and by the timer of the
timer mode, all under `mac_lock`.  Only the first write of the handler uses a value that it
read before it took the lock.  The steps here are the single accesses to the register and
to the lock, in any order between the contexts.
-/

namespace HiMpu.GmacIntr

open TransitionSystem

def bitMask (bit : ℕ) : BitVec 32 := BitVec.twoPow 32 bit

/-- `cf_txcfg_avl_msk`. -/
def txBit : ℕ := 24

/-- `cf_pkg_intrpt_msk`. -/
def rxBit : ℕ := 27

def eth0 : ℕ := 0
def eth1 : ℕ := 1
def eth2 : ℕ := 2
def eth3 : ℕ := 3

inductive IrqReturn where
  | none
  | handled
deriving DecidableEq

/-- The handlers of the single sources.  Those without a case of their own in
`IntrProc.run` write to the log; `macFifoErr` also resets the MAC core. -/
inductive IntrProc where
  | txAhbErr
  | bufAvl
  | txReleaseErr
  | txBd
  | txDropErr
  | rxDropErr
  | rxIntrpt
  | rxAhbErr
  | macFifoErr
  | rbreqErr
  | weErr
deriving DecidableEq

structure IntrDispInfo where
  intrMask : BitVec 32
  intrRet : IrqReturn
  intrProc : Option IntrProc
deriving DecidableEq

def gGmacErrSrc : List IntrDispInfo :=
  [⟨bitMask 20, .none, none⟩,
   ⟨bitMask 21, .handled, some .txAhbErr⟩,
   ⟨bitMask 22, .handled, some .bufAvl⟩,
   ⟨bitMask 23, .handled, some .txReleaseErr⟩,
   ⟨bitMask 24, .handled, some .txBd⟩,
   ⟨bitMask 25, .handled, some .txDropErr⟩,
   ⟨bitMask 26, .handled, some .rxDropErr⟩,
   ⟨bitMask 27, .handled, some .rxIntrpt⟩,
   ⟨bitMask 28, .handled, some .rxAhbErr⟩,
   ⟨bitMask 29, .handled, some .macFifoErr⟩,
   ⟨bitMask 30, .handled, some .rbreqErr⟩,
   ⟨bitMask 31, .handled, some .weErr⟩]

inductive Context where
  | irq
  | poll (cpu : ℕ)
  | tasklet
  | timer
deriving DecidableEq

inductive RmwPc where
  | lock
  | read
  | write (val : BitVec 32)
  | unlock
deriving DecidableEq

/-- Where `gmac_interrupt_handle` stands. -/
inductive IrqPc where
  | idle
  | entry
  | test
  | lock
  | mask
  | unlock
  | clear
  | proc
  | relock
  | reread
  | rewrite
  | reunlock
deriving DecidableEq

structure IrqFrame where
  i : ℕ
  status : BitVec 32
  mask : BitVec 32
  ret : IrqReturn

/-- A scheduled poll waits for a CPU, or is being run by one. -/
inductive Napi where
  | idle
  | queued
  | polling (cpu : ℕ)
deriving DecidableEq

inductive PollPc where
  | idle
  | receiving
  /-- Behind `napi_complete`, with the interrupt left to the timer. -/
  | deferred
  | completed
  | enable (pc : RmwPc)
deriving DecidableEq

inductive TaskletPc where
  | idle
  | freeing
  | enable (pc : RmwPc)
deriving DecidableEq

def PollPc.ofRmw : Option RmwPc → PollPc
  | some pc => .enable pc
  | none => .idle

def TaskletPc.ofRmw : Option RmwPc → TaskletPc
  | some pc => .enable pc
  | none => .idle

structure Host where
  intrMsk : BitVec 32
  macLock : Option Context
  irq : IrqPc
  frame : IrqFrame
  napi : Napi
  /-- `napi_schedule` found the poll scheduled. -/
  napiMissed : Bool
  poll : ℕ → PollPc
  taskletSched : Bool
  tasklet : TaskletPc
  timerArmed : Bool
  timer : Option RmwPc
  gRxMode : BitVec 32
  rxFifoErrors : BitVec 64

/-! ## Scheduling -/

def napiSchedule (s : Host) : Host :=
  match s.napi with
  | .idle => { s with napi := .queued }
  | _ => { s with napiMissed := true }

def napiComplete (s : Host) : Host :=
  if s.napiMissed then { s with napi := .queued, napiMissed := false }
  else { s with napi := .idle }

def taskletSchedule (s : Host) : Host := { s with taskletSched := true }

def IntrProc.run (s : Host) : IntrProc → Host
  | .rxIntrpt => napiSchedule s
  | .txBd => taskletSchedule s
  | .bufAvl => { s with rxFifoErrors := s.rxFifoErrors + 1 }
  | _ => s

def intrProc (s : Host) (src : IntrDispInfo) : Host :=
  match src.intrProc with
  | some proc => proc.run s
  | none => s

def Host.irqGoto (s : Host) (pc : IrqPc) : Host := { s with irq := pc }

def Host.nextSource (s : Host) (ret : IrqReturn) : Host :=
  { s with irq := .test, frame := { s.frame with i := s.frame.i + 1, ret := ret } }

def Host.endSource (s : Host) (src : IntrDispInfo) : Host :=
  s.nextSource (if src.intrRet ≠ .none then src.intrRet else s.frame.ret)

def handleSource (s : Host) (src : IntrDispInfo) : Option Host :=
  match s.irq with
  | .idle | .entry => none
  | .test =>
    if s.frame.mask &&& src.intrMask ≠ 0 ∧ s.frame.status &&& src.intrMask ≠ 0 then
      some (s.irqGoto .lock)
    else some (s.endSource src)
  | .lock =>
    if s.macLock = none then some { s with macLock := some .irq, irq := .mask } else none
  | .mask =>
    let mask := s.frame.mask &&& ~~~src.intrMask
    some { s with intrMsk := mask, frame := { s.frame with mask := mask }, irq := .unlock }
  | .unlock => some { s with macLock := none, irq := .clear }
  | .clear => some (s.irqGoto .proc)
  | .proc =>
    if src.intrMask = bitMask rxBit ∨ src.intrMask = bitMask txBit then
      some ((intrProc s src).nextSource s.frame.ret)
    else some ((intrProc s src).irqGoto .relock)
  | .relock =>
    if s.macLock = none then some { s with macLock := some .irq, irq := .reread } else none
  | .reread => some { s with frame := { s.frame with mask := s.intrMsk }, irq := .rewrite }
  | .rewrite =>
    let mask := s.frame.mask ||| src.intrMask
    some { s with intrMsk := mask, frame := { s.frame with mask := mask }, irq := .reunlock }
  | .reunlock => some ({ s with macLock := none }.endSource src)

def gmacInterruptHandle (s : Host) : Option Host :=
  match s.irq with
  | .idle => none
  | .entry =>
    some { s with irq := .test, frame := { s.frame with i := 0, mask := s.intrMsk, ret := .none } }
  | _ =>
    match gGmacErrSrc[s.frame.i]? with
    | none => some (s.irqGoto .idle)
    | some src => handleSource s src

/-! ## The other contexts -/

def enableBit (s : Host) (c : Context) (bit : ℕ) : RmwPc → Option (Host × Option RmwPc)
  | .lock => if s.macLock = none then some ({ s with macLock := some c }, some .read) else none
  | .read => some (s, some (.write s.intrMsk))
  | .write val => some ({ s with intrMsk := val ||| bitMask bit }, some .unlock)
  | .unlock => some ({ s with macLock := none }, none)

def Host.setPoll (s : Host) (cpu : ℕ) (pc : PollPc) : Host :=
  { s with poll := Function.update s.poll cpu pc }

def pollTail (s : Host) (cpu : ℕ) : Option Host :=
  match s.poll cpu with
  | .idle | .receiving => none
  | .deferred => some (s.setPoll cpu .idle)
  | .completed => some (s.setPoll cpu (.enable .lock))
  | .enable pc =>
    (enableBit s (.poll cpu) rxBit pc).map fun r =>
      r.1.setPoll cpu (.ofRmw r.2)

def gmacTxFreeBd (s : Host) : Option Host :=
  match s.tasklet with
  | .idle => none
  | .freeing => some { s with tasklet := .enable .lock }
  | .enable pc =>
    (enableBit s .tasklet txBit pc).map fun r =>
      { r.1 with tasklet := .ofRmw r.2 }

def gmacTxrxTimerHandle (s : Host) : Option Host :=
  s.timer.bind fun pc =>
    (enableBit s .timer rxBit pc).map fun r => { r.1 with timer := r.2 }

def timerMode (s : Host) (port : Option ℕ) : Prop :=
  s.gRxMode ≠ 0 ∧ (port = some eth2 ∨ port = some eth3)

instance (s : Host) (port : Option ℕ) : Decidable (timerMode s port) :=
  inferInstanceAs (Decidable (_ ∧ _))

inductive Action where
  | interrupt (status : BitVec 32)
  | handler
  | poll (cpu : ℕ)
  | drained (cpu : ℕ)
  /-- The poll could not refill a slot, and returns its budget. -/
  | unfilled (cpu : ℕ)
  /-- The poll has reached its budget, with a packet of this port as its last one. -/
  | full (cpu : ℕ) (port : Option ℕ)
  | pollTail (cpu : ℕ)
  | runTasklet
  | tasklet
  | expire
  | timer
  | setRxMode (mode : BitVec 32)

def next (s : Host) : Action → Option Host
  | .interrupt status =>
    if s.irq = .idle then
      some { s with irq := .entry, frame := { s.frame with status := status } }
    else none
  | .handler => gmacInterruptHandle s
  | .poll cpu =>
    if s.napi = .queued ∧ s.poll cpu = .idle then
      some ({ s with napi := .polling cpu }.setPoll cpu .receiving)
    else none
  | .drained cpu =>
    if s.napi = .polling cpu ∧ s.poll cpu = .receiving then
      some ((napiComplete s).setPoll cpu .completed)
    else none
  | .unfilled cpu =>
    if s.napi = .polling cpu ∧ s.poll cpu = .receiving then
      some ({ s with napi := .queued }.setPoll cpu .idle)
    else none
  | .full cpu port =>
    if s.napi = .polling cpu ∧ s.poll cpu = .receiving then
      if timerMode s port then some ((napiComplete s).setPoll cpu .deferred)
      else some ({ s with napi := .queued }.setPoll cpu .idle)
    else none
  | .pollTail cpu => pollTail s cpu
  | .runTasklet =>
    if s.taskletSched ∧ s.tasklet = .idle then
      some { s with taskletSched := false, tasklet := .freeing }
    else none
  | .tasklet => gmacTxFreeBd s
  | .expire =>
    if s.timerArmed ∧ s.timer = none then some { s with timer := some .lock } else none
  | .timer => gmacTxrxTimerHandle s
  | .setRxMode mode => some { s with gRxMode := mode }

/-- `gmac_hw_enable_interrupt`: the bits 12 to 20, 22 and 26 are cleared, the others from
bit 21 on are set, and the two lowest fields are written. -/
def gmacHwEnableInterrupt (macNum : ℕ) : BitVec 32 :=
  let pkt : BitVec 32 := if macNum = eth0 ∨ macNum = eth1 then 0xf else 0x3f
  0xfba00000 ||| (pkt <<< 6) ||| 0x1

def initial (macNum : ℕ) (s : Host) : Prop :=
  s.intrMsk = gmacHwEnableInterrupt macNum ∧ s.macLock = none ∧ s.irq = .idle ∧
    s.napi = .idle ∧ s.napiMissed = false ∧ (∀ cpu, s.poll cpu = .idle) ∧
    s.taskletSched = false ∧ s.tasklet = .idle ∧ s.timer = none

def system (macNum : ℕ) : TransitionSystem Host Action := ofStep (initial macNum) next

def Host.dispatching (s : Host) (bit : ℕ) : Prop :=
  (s.irq = .unlock ∨ s.irq = .clear ∨ s.irq = .proc) ∧
    (gGmacErrSrc[s.frame.i]?).map IntrDispInfo.intrMask = some (bitMask bit)

def Host.pollIdle (s : Host) : Prop := s.napi = .idle ∧ ∀ cpu, s.poll cpu = .idle

def Host.taskletIdle (s : Host) : Prop := s.taskletSched = false ∧ s.tasklet = .idle

/-- While its work is neither scheduled nor running, nor about to be scheduled by the
handler, an interrupt is enabled. -/
def Intact (s : Host) : Prop :=
  (s.pollIdle → ¬ s.dispatching rxBit → s.intrMsk.getLsbD rxBit = true) ∧
    (s.taskletIdle → ¬ s.dispatching txBit → s.intrMsk.getLsbD txBit = true)

/-- The handler does not write back a value that lacks a bit which was enabled after it
read the register, and no poll leaves its interrupt to the timer. -/
def Fresh (s : Host) : Action → Prop
  | .handler => s.irq = .mask →
      (s.intrMsk.getLsbD rxBit = true → s.frame.mask.getLsbD rxBit = true) ∧
        (s.intrMsk.getLsbD txBit = true → s.frame.mask.getLsbD txBit = true)
  | .full _ port => ¬ timerMode s port
  | _ => True

/-! ## What a context holds -/

variable {s s' : Host} {c d : Context} {bit macNum cpu : ℕ} {src : IntrDispInfo}
  {v : BitVec 32}

def RmwPc.locked : RmwPc → Prop
  | .lock => False
  | _ => True

def IrqPc.locked : IrqPc → Prop
  | .mask | .unlock | .reread | .rewrite | .reunlock => True
  | _ => False

def Host.rmw (s : Host) : Context → Option RmwPc
  | .irq => none
  | .poll cpu => match s.poll cpu with | .enable pc => some pc | _ => none
  | .tasklet => match s.tasklet with | .enable pc => some pc | _ => none
  | .timer => s.timer

def Host.locked (s : Host) (c : Context) : Prop :=
  (c = .irq ∧ s.irq.locked) ∨ ∃ pc, s.rmw c = some pc ∧ pc.locked

def Host.holdsCopy (s : Host) (c : Context) (v : BitVec 32) : Prop :=
  (c = .irq ∧ s.irq = .rewrite ∧ s.frame.mask = v) ∨ s.rmw c = some (.write v)

theorem Host.holdsCopy.locked (hcopy : s.holdsCopy c v) : s.locked c := by
  rcases hcopy with ⟨hc, hpc, _⟩ | hpc
  · left
    rw [hpc]
    exact ⟨hc, trivial⟩
  · exact Or.inr ⟨_, hpc, trivial⟩

def PollPc.enables : PollPc → Prop
  | .completed => True
  | .enable pc => pc ≠ .unlock
  | _ => False

def TaskletPc.enables : TaskletPc → Prop
  | .freeing => True
  | .enable pc => pc ≠ .unlock
  | .idle => False

def Host.rxPending (s : Host) : Prop :=
  s.napi ≠ .idle ∨ (∃ cpu, (s.poll cpu).enables) ∨ s.dispatching rxBit

def Host.txPending (s : Host) : Prop :=
  s.taskletSched = true ∨ s.tasklet.enables ∨ s.dispatching txBit

/-- The lock excludes, a value read under it is still the one in the register, and an
interrupt that is masked has somebody who will enable it. -/
structure Inv (s : Host) : Prop where
  lock : ∀ c, s.locked c → s.macLock = some c
  copy : ∀ c v, s.holdsCopy c v → v = s.intrMsk
  rx : s.intrMsk.getLsbD rxBit = false → s.rxPending
  tx : s.intrMsk.getLsbD txBit = false → s.txPending

structure Own (s s' : Host) (c : Context) : Prop where
  others : ∀ d ≠ c, s'.locked d → s.locked d
  copies : ∀ d ≠ c, ∀ v, s'.holdsCopy d v → s.holdsCopy d v
  lock : s'.macLock = s.macLock ∨ s.macLock = none ∨ s.locked c
  mine : s'.locked c → s'.macLock = some c
  write : s'.intrMsk = s.intrMsk ∨ s.locked c
  copy : ∀ v, s'.holdsCopy c v → v = s'.intrMsk

theorem Inv.step (hinv : Inv s) (hown : Own s s' c)
    (hrx : s'.intrMsk.getLsbD rxBit = false → s'.rxPending)
    (htx : s'.intrMsk.getLsbD txBit = false → s'.txPending) : Inv s' := by
  refine ⟨?_, ?_, hrx, htx⟩
  · intro d hlocked
    by_cases hd : d = c
    · subst hd
      exact hown.mine hlocked
    · have hold := hinv.lock d (hown.others d hd hlocked)
      rcases hown.lock with hsame | hfree | hmine
      · rw [hsame]
        exact hold
      · rw [hfree] at hold
        cases hold
      · rw [hinv.lock c hmine] at hold
        cases hold
        exact absurd rfl hd
  · intro d v hcopy
    by_cases hd : d = c
    · subst hd
      exact hown.copy v hcopy
    · have hbefore := hown.copies d hd v hcopy
      rcases hown.write with hsame | hmine
      · rw [hsame]
        exact hinv.copy d v hbefore
      · have hold := hinv.lock d hbefore.locked
        rw [hinv.lock c hmine] at hold
        cases hold
        exact absurd rfl hd

/-! ## Steps of the handler -/

theorem Own.irq (hrmw : s'.rmw = s.rmw)
    (hlock : s'.macLock = s.macLock ∨ s.macLock = none ∨ s.irq.locked)
    (hmine : s'.irq.locked → s'.macLock = some .irq)
    (hwrite : s'.intrMsk = s.intrMsk ∨ s.irq.locked)
    (hcopy : s'.irq = .rewrite → s'.frame.mask = s'.intrMsk) : Own s s' .irq where
  others d hd hlocked := by
    rcases hlocked with ⟨hirq, _⟩ | hpc
    · exact absurd hirq hd
    · rw [hrmw] at hpc
      exact Or.inr hpc
  copies d hd v hv := by
    rcases hv with ⟨hirq, _⟩ | hpc
    · exact absurd hirq hd
    · rw [hrmw] at hpc
      exact Or.inr hpc
  lock := hlock.imp_right (Or.imp_right fun h => Or.inl ⟨rfl, h⟩)
  mine hlocked := by
    rcases hlocked with ⟨_, hpc⟩ | ⟨pc, hpc, _⟩
    · exact hmine hpc
    · cases hpc
  write := hwrite.imp_right fun h => Or.inl ⟨rfl, h⟩
  copy v hv := by
    rcases hv with ⟨_, hpc, hmask⟩ | hpc
    · rw [← hmask]
      exact hcopy hpc
    · cases hpc

theorem Inv.locked_irq (hinv : Inv s) (hpc : s.irq.locked) : s.macLock = some .irq :=
  hinv.lock .irq (Or.inl ⟨rfl, hpc⟩)

theorem Inv.irqStep (hinv : Inv s) (hown : Own s s' .irq) (hmask : s'.intrMsk = s.intrMsk)
    (hpoll : s'.napi = s.napi ∧ s'.poll = s.poll)
    (htasklet : s'.taskletSched = s.taskletSched ∧ s'.tasklet = s.tasklet)
    (hdisp : ∀ bit, s.dispatching bit → s'.dispatching bit) : Inv s' := by
  refine hinv.step hown ?_ ?_
  · rw [hmask]
    intro hbit
    unfold Host.rxPending
    rw [hpoll.1, hpoll.2]
    exact (hinv.rx hbit).imp_right (Or.imp_right (hdisp rxBit))
  · rw [hmask]
    intro hbit
    unfold Host.txPending
    rw [htasklet.1, htasklet.2]
    exact (hinv.tx hbit).imp_right (Or.imp_right (hdisp txBit))

theorem not_dispatching_of_irq {pc : IrqPc} (hpc : s.irq = pc)
    (hne : pc ≠ .unlock ∧ pc ≠ .clear ∧ pc ≠ .proc) : ¬ s.dispatching bit := by
  rintro ⟨h, _⟩
  rw [hpc] at h
  rcases h with h | h | h
  · exact hne.1 h
  · exact hne.2.1 h
  · exact hne.2.2 h

theorem dispatching_kept {pc : IrqPc} (hpc : s.irq = pc)
    (hne : pc ≠ .unlock ∧ pc ≠ .clear ∧ pc ≠ .proc) (bit : ℕ) (h : s.dispatching bit) :
    s'.dispatching bit :=
  absurd h (not_dispatching_of_irq hpc hne)

theorem getLsbD_bitMask (i : ℕ) (hi : i < 32) : (bitMask bit).getLsbD i = decide (bit = i) := by
  unfold bitMask
  rw [BitVec.getLsbD_twoPow]
  by_cases heq : bit = i
  · simp [heq, hi]
  · simp [heq]

theorem gGmacErrSrc_bit : ∀ src ∈ gGmacErrSrc, ∀ bit ∈ [rxBit, txBit],
    src.intrMask.getLsbD bit = true → src.intrMask = bitMask bit := by
  decide

theorem gGmacErrSrc_proc : ∀ src ∈ gGmacErrSrc,
    (src.intrMask = bitMask rxBit → src.intrProc = some .rxIntrpt) ∧
      (src.intrMask = bitMask txBit → src.intrProc = some .txBd) := by
  decide

theorem napi_napiSchedule : (napiSchedule s).napi ≠ .idle := by
  unfold napiSchedule
  split
  · simp
  · assumption

structure Scheduled (s s' : Host) : Prop where
  intrMsk : s'.intrMsk = s.intrMsk
  macLock : s'.macLock = s.macLock
  rmw : s'.rmw = s.rmw
  poll : s'.poll = s.poll
  tasklet : s'.tasklet = s.tasklet
  napi : s.napi ≠ .idle → s'.napi ≠ .idle
  taskletSched : s.taskletSched = true → s'.taskletSched = true

theorem scheduled_napiSchedule : Scheduled s (napiSchedule s) := by
  refine ⟨?_, ?_, ?_, ?_, ?_, fun _ => napi_napiSchedule, ?_⟩ <;> unfold napiSchedule <;>
    split <;> first | rfl | exact id

theorem scheduled_intrProc : Scheduled s (intrProc s src) := by
  unfold intrProc
  split
  next proc hproc =>
    cases proc with
    | rxIntrpt => exact scheduled_napiSchedule
    | txBd => exact ⟨rfl, rfl, rfl, rfl, rfl, id, fun _ => rfl⟩
    | _ => exact ⟨rfl, rfl, rfl, rfl, rfl, id, id⟩
  next => exact ⟨rfl, rfl, rfl, rfl, rfl, id, id⟩

theorem Inv.proc (hinv : Inv s) (hsrc : gGmacErrSrc[s.frame.i]? = some src)
    (hsched : Scheduled s s') (hpc : s'.irq = .test ∨ s'.irq = .relock)
    (hrx : src.intrMask = bitMask rxBit → s'.napi ≠ .idle)
    (htx : src.intrMask = bitMask txBit → s'.taskletSched = true) : Inv s' := by
  have hunlocked : ¬ s'.irq.locked := by
    rcases hpc with h | h <;> rw [h] <;> exact id
  have hmask : ∀ bit, s.dispatching bit → src.intrMask = bitMask bit := by
    rintro bit ⟨_, h⟩
    rw [hsrc] at h
    exact Option.some_inj.mp h
  refine hinv.step (c := .irq) (Own.irq hsched.rmw (Or.inl hsched.macLock)
    (fun h => absurd h hunlocked) (Or.inl hsched.intrMsk) ?_) ?_ ?_
  · intro h
    rcases hpc with h' | h' <;> rw [h'] at h <;> cases h
  · rw [hsched.intrMsk]
    intro hbit
    unfold Host.rxPending
    rw [hsched.poll]
    rcases hinv.rx hbit with h | h | h
    · exact Or.inl (hsched.napi h)
    · exact Or.inr (Or.inl h)
    · exact Or.inl (hrx (hmask _ h))
  · rw [hsched.intrMsk]
    intro hbit
    unfold Host.txPending
    rw [hsched.tasklet]
    rcases hinv.tx hbit with h | h | h
    · exact Or.inl (hsched.taskletSched h)
    · exact Or.inr (Or.inl h)
    · exact Or.inl (htx (hmask _ h))

theorem Inv.lockIrq {pc : IrqPc} (hinv : Inv s) (hfree : s.macLock = none)
    (hs' : s' = { s with macLock := some .irq, irq := pc }) (hpc : pc ≠ .rewrite)
    (hdisp : ∀ bit, s.dispatching bit → s'.dispatching bit) : Inv s' := by
  subst hs'
  have hown : Own s { s with macLock := some .irq, irq := pc } .irq :=
    Own.irq rfl (Or.inr (Or.inl hfree)) (fun _ => rfl) (Or.inl rfl) fun h => absurd h hpc
  exact hinv.irqStep hown rfl ⟨rfl, rfl⟩ ⟨rfl, rfl⟩ hdisp

theorem Inv.maskSource (hinv : Inv s) (hsrc : gGmacErrSrc[s.frame.i]? = some src)
    (hpc : s.irq = .mask)
    (hfresh : (s.intrMsk.getLsbD rxBit = true → s.frame.mask.getLsbD rxBit = true) ∧
      (s.intrMsk.getLsbD txBit = true → s.frame.mask.getLsbD txBit = true)) :
    Inv { s with
      intrMsk := s.frame.mask &&& ~~~src.intrMask
      frame := { s.frame with mask := s.frame.mask &&& ~~~src.intrMask }
      irq := .unlock } := by
  have hmem : src ∈ gGmacErrSrc := List.mem_of_getElem? hsrc
  have hlocked : s.irq.locked := by
    rw [hpc]
    trivial
  have hnot : ∀ bit, ¬ s.dispatching bit := fun bit =>
    not_dispatching_of_irq hpc (by decide)
  -- a bit that is clear now was clear before, unless it is that of the source
  have hclear : ∀ bit ∈ [rxBit, txBit],
      (s.intrMsk.getLsbD bit = true → s.frame.mask.getLsbD bit = true) →
      (s.frame.mask &&& ~~~src.intrMask).getLsbD bit = false →
      src.intrMask = bitMask bit ∨ s.intrMsk.getLsbD bit = false := by
    intro bit hbit hkeep hfalse
    have hlt : bit < 32 := by
      simp only [rxBit, txBit, List.mem_cons, List.not_mem_nil, or_false] at hbit
      omega
    by_cases hone : src.intrMask.getLsbD bit = true
    · exact Or.inl (gGmacErrSrc_bit src hmem bit hbit hone)
    · right
      rw [Bool.not_eq_true] at hone
      rw [BitVec.getLsbD_and, BitVec.getLsbD_not, hone] at hfalse
      simp only [hlt, decide_true, Bool.not_false, Bool.and_true] at hfalse
      cases hset : s.intrMsk.getLsbD bit with
      | false => rfl
      | true =>
        rw [hkeep hset] at hfalse
        cases hfalse
  refine hinv.step (c := .irq) (Own.irq rfl (Or.inl rfl) (fun _ => hinv.locked_irq hlocked)
    (Or.inr hlocked) fun h => by cases h) ?_ ?_
  · intro hbit
    rcases hclear rxBit (by simp) hfresh.1 hbit with hown | hold
    · refine Or.inr (Or.inr ⟨Or.inl rfl, ?_⟩)
      rw [hsrc, ← hown]
      rfl
    · rcases hinv.rx hold with h | h | h
      · exact Or.inl h
      · exact Or.inr (Or.inl h)
      · exact absurd h (hnot _)
  · intro hbit
    rcases hclear txBit (by simp) hfresh.2 hbit with hown | hold
    · refine Or.inr (Or.inr ⟨Or.inl rfl, ?_⟩)
      rw [hsrc, ← hown]
      rfl
    · rcases hinv.tx hold with h | h | h
      · exact Or.inl h
      · exact Or.inr (Or.inl h)
      · exact absurd h (hnot _)

theorem Inv.unmaskSource (hinv : Inv s) (hpc : s.irq = .rewrite) :
    Inv { s with
      intrMsk := s.frame.mask ||| src.intrMask
      frame := { s.frame with mask := s.frame.mask ||| src.intrMask }
      irq := .reunlock } := by
  have hlocked : s.irq.locked := by
    rw [hpc]
    trivial
  have hnot : ∀ bit, ¬ s.dispatching bit := fun bit =>
    not_dispatching_of_irq hpc (by decide)
  have hcopy : s.frame.mask = s.intrMsk := hinv.copy .irq _ (Or.inl ⟨rfl, hpc, rfl⟩)
  have hclear : ∀ bit, (s.frame.mask ||| src.intrMask).getLsbD bit = false →
      s.intrMsk.getLsbD bit = false := by
    intro bit hfalse
    rw [BitVec.getLsbD_or, hcopy, Bool.or_eq_false_iff] at hfalse
    exact hfalse.1
  refine hinv.step (c := .irq) (Own.irq rfl (Or.inl rfl) (fun _ => hinv.locked_irq hlocked)
    (Or.inr hlocked) fun h => by cases h) ?_ ?_
  · intro hbit
    rcases hinv.rx (hclear _ hbit) with h | h | h
    · exact Or.inl h
    · exact Or.inr (Or.inl h)
    · exact absurd h (hnot _)
  · intro hbit
    rcases hinv.tx (hclear _ hbit) with h | h | h
    · exact Or.inl h
    · exact Or.inr (Or.inl h)
    · exact absurd h (hnot _)

theorem Inv.handleSource (hinv : Inv s) (hsrc : gGmacErrSrc[s.frame.i]? = some src)
    (hfresh : Fresh s .handler) (hstep : handleSource s src = some s') : Inv s' := by
  have hmem : src ∈ gGmacErrSrc := List.mem_of_getElem? hsrc
  cases hpc : s.irq with
  | idle | entry =>
    simp only [GmacIntr.handleSource, hpc] at hstep
    cases hstep
  | test =>
    simp only [GmacIntr.handleSource, hpc] at hstep
    split at hstep <;> cases hstep
    · have hown : Own s (s.irqGoto .lock) .irq :=
        Own.irq rfl (Or.inl rfl) False.elim (Or.inl rfl) fun h => by cases h
      exact hinv.irqStep hown rfl ⟨rfl, rfl⟩ ⟨rfl, rfl⟩ (dispatching_kept hpc (by decide))
    · have hown : Own s (s.endSource src) .irq :=
        Own.irq rfl (Or.inl rfl) False.elim (Or.inl rfl) fun h => by cases h
      exact hinv.irqStep hown rfl ⟨rfl, rfl⟩ ⟨rfl, rfl⟩ (dispatching_kept hpc (by decide))
  | lock =>
    simp only [GmacIntr.handleSource, hpc] at hstep
    split at hstep
    next hfree =>
      cases hstep
      exact hinv.lockIrq hfree rfl (by simp) (dispatching_kept hpc (by decide))
    next => cases hstep
  | mask =>
    simp only [GmacIntr.handleSource, hpc, Option.some.injEq] at hstep
    subst hstep
    exact hinv.maskSource hsrc hpc (hfresh hpc)
  | unlock =>
    simp only [GmacIntr.handleSource, hpc, Option.some.injEq] at hstep
    subst hstep
    have hown : Own s { s with macLock := none, irq := .clear } .irq := by
      refine Own.irq rfl (Or.inr (Or.inr ?_)) False.elim (Or.inl rfl) fun h => by cases h
      rw [hpc]
      trivial
    refine hinv.irqStep hown rfl ⟨rfl, rfl⟩ ⟨rfl, rfl⟩ fun bit h => ⟨?_, h.2⟩
    exact Or.inr (Or.inl rfl)
  | clear =>
    simp only [GmacIntr.handleSource, hpc, Option.some.injEq] at hstep
    subst hstep
    have hown : Own s (s.irqGoto .proc) .irq :=
      Own.irq rfl (Or.inl rfl) False.elim (Or.inl rfl) fun h => by cases h
    refine hinv.irqStep hown rfl ⟨rfl, rfl⟩ ⟨rfl, rfl⟩ fun bit h => ⟨?_, h.2⟩
    exact Or.inr (Or.inr rfl)
  | proc =>
    simp only [GmacIntr.handleSource, hpc] at hstep
    split at hstep
    next =>
      cases hstep
      have hsched : Scheduled s ((intrProc s src).nextSource s.frame.ret) :=
        { scheduled_intrProc with }
      refine hinv.proc hsrc hsched (Or.inl rfl) ?_ ?_
      · intro hrx
        simp only [intrProc, (gGmacErrSrc_proc src hmem).1 hrx]
        exact napi_napiSchedule
      · intro htx
        simp only [intrProc, (gGmacErrSrc_proc src hmem).2 htx]
        rfl
    next hother =>
      cases hstep
      rw [not_or] at hother
      have hsched : Scheduled s ((intrProc s src).irqGoto .relock) :=
        { scheduled_intrProc with }
      exact hinv.proc hsrc hsched (Or.inr rfl) (fun h => absurd h hother.1)
        fun h => absurd h hother.2
  | relock =>
    simp only [GmacIntr.handleSource, hpc] at hstep
    split at hstep
    next hfree =>
      cases hstep
      exact hinv.lockIrq hfree rfl (by simp) (dispatching_kept hpc (by decide))
    next => cases hstep
  | reread =>
    have hlocked : s.irq.locked := by
      rw [hpc]
      trivial
    simp only [GmacIntr.handleSource, hpc, Option.some.injEq] at hstep
    subst hstep
    exact hinv.irqStep (Own.irq rfl (Or.inl rfl) (fun _ => hinv.locked_irq hlocked)
      (Or.inl rfl) fun _ => rfl) rfl ⟨rfl, rfl⟩ ⟨rfl, rfl⟩
      (dispatching_kept hpc (by decide))
  | rewrite =>
    simp only [GmacIntr.handleSource, hpc, Option.some.injEq] at hstep
    subst hstep
    exact hinv.unmaskSource hpc
  | reunlock =>
    simp only [GmacIntr.handleSource, hpc, Option.some.injEq] at hstep
    subst hstep
    have hown : Own s ({ s with macLock := none }.endSource src) .irq := by
      refine Own.irq rfl (Or.inr (Or.inr ?_)) False.elim (Or.inl rfl) fun h => by cases h
      rw [hpc]
      trivial
    exact hinv.irqStep hown rfl ⟨rfl, rfl⟩ ⟨rfl, rfl⟩ (dispatching_kept hpc (by decide))

theorem Inv.handler (hinv : Inv s) (hfresh : Fresh s .handler)
    (hstep : gmacInterruptHandle s = some s') : Inv s' := by
  unfold gmacInterruptHandle at hstep
  split at hstep
  next => cases hstep
  next hpc =>
    cases hstep
    exact hinv.irqStep (Own.irq rfl (Or.inl rfl) False.elim (Or.inl rfl) fun h => by cases h)
      rfl ⟨rfl, rfl⟩ ⟨rfl, rfl⟩ fun bit h => absurd h (not_dispatching_of_irq hpc (by decide))
  next =>
    split at hstep
    next hnone =>
      cases hstep
      refine hinv.irqStep (Own.irq rfl (Or.inl rfl) False.elim (Or.inl rfl) fun h => by cases h)
        rfl ⟨rfl, rfl⟩ ⟨rfl, rfl⟩ fun bit h => ?_
      have hsrc := h.2
      rw [hnone] at hsrc
      cases hsrc
    next src hsrc => exact hinv.handleSource hsrc hfresh hstep

/-! ## Steps of the other contexts -/

structure Alone (s s' : Host) (c : Context) : Prop where
  irq : s'.irq = s.irq
  frame : s'.frame = s.frame
  rmw : ∀ d ≠ c, s'.rmw d = s.rmw d

theorem Alone.locked (halone : Alone s s' c) (hd : d ≠ c) (hlocked : s'.locked d) :
    s.locked d := by
  unfold Host.locked at hlocked ⊢
  rw [halone.irq, halone.rmw d hd] at hlocked
  exact hlocked

theorem Alone.holdsCopy (halone : Alone s s' c) (hd : d ≠ c) (hcopy : s'.holdsCopy d v) :
    s.holdsCopy d v := by
  unfold Host.holdsCopy at hcopy ⊢
  rw [halone.irq, halone.frame, halone.rmw d hd] at hcopy
  exact hcopy

theorem Alone.dispatching (halone : Alone s s' c) (hdisp : s.dispatching bit) :
    s'.dispatching bit := by
  unfold Host.dispatching at hdisp ⊢
  rw [halone.irq, halone.frame]
  exact hdisp

theorem Own.outside (hc : c ≠ .irq) (halone : Alone s s' c) (hlock : s'.macLock = s.macLock)
    (hmask : s'.intrMsk = s.intrMsk) (hrmw : s'.rmw c = none ∨ s'.rmw c = some .lock) :
    Own s s' c where
  others d hd := halone.locked hd
  copies d hd v := halone.holdsCopy hd
  lock := Or.inl hlock
  mine hlocked := by
    rcases hlocked with ⟨hirq, _⟩ | ⟨pc, hpc, hlocked⟩
    · exact absurd hirq hc
    · rcases hrmw with h | h <;> rw [h] at hpc <;> cases hpc
      exact hlocked.elim
  write := Or.inl hmask
  copy v hv := by
    rcases hv with ⟨hirq, _⟩ | hpc
    · exact absurd hirq hc
    · rcases hrmw with h | h <;> rw [h] at hpc <;> cases hpc

theorem Own.enableBit {pc : RmwPc} {t : Host} {pc' : Option RmwPc} (hinv : Inv s)
    (hc : c ≠ .irq) (halone : Alone s s' c) (hpc : s.rmw c = some pc) (hpc' : s'.rmw c = pc')
    (hstep : enableBit s c bit pc = some (t, pc')) (hlock : s'.macLock = t.macLock)
    (hmask : s'.intrMsk = t.intrMsk) (hbit : bit < 32) :
    Own s s' c ∧ (∀ i, s'.intrMsk.getLsbD i = false → s.intrMsk.getLsbD i = false) ∧
      (s'.intrMsk.getLsbD bit = false → pc' ≠ some .unlock) := by
  have hmine : pc.locked → s.locked c := fun h => Or.inr ⟨pc, hpc, h⟩
  have hlocks : s'.locked c → ∃ pc, pc' = some pc ∧ pc.locked := by
    rintro (⟨hirq, _⟩ | ⟨pc, h, hlocked⟩)
    · exact absurd hirq hc
    · exact ⟨pc, hpc'.symm.trans h, hlocked⟩
  have hcopies : ∀ v, s'.holdsCopy c v → pc' = some (.write v) := by
    rintro v (⟨hirq, _⟩ | h)
    · exact absurd hirq hc
    · exact hpc'.symm.trans h
  cases pc with
  | lock =>
    simp only [GmacIntr.enableBit] at hstep
    split at hstep
    next hfree =>
      cases hstep
      refine ⟨⟨fun d hd => halone.locked hd, fun d hd v => halone.holdsCopy hd,
        Or.inr (Or.inl hfree), fun _ => hlock, Or.inl hmask, ?_⟩, ?_, ?_⟩
      · intro v hv
        cases hcopies v hv
      · intro i hi
        rw [← hmask]
        exact hi
      · intro _ h
        cases h
    next => cases hstep
  | read =>
    cases hstep
    refine ⟨⟨fun d hd => halone.locked hd, fun d hd v => halone.holdsCopy hd,
      Or.inl hlock, fun _ => hlock.trans (hinv.lock c (hmine trivial)), Or.inl hmask, ?_⟩,
      ?_, ?_⟩
    · intro v hv
      cases hcopies v hv
      exact hmask.symm
    · intro i hi
      rw [← hmask]
      exact hi
    · intro _ h
      cases h
  | write val =>
    cases hstep
    have hval : val = s.intrMsk := hinv.copy c val (Or.inr hpc)
    have hbits : ∀ i, s'.intrMsk.getLsbD i = false →
        s.intrMsk.getLsbD i = false ∧ (bitMask bit).getLsbD i = false := by
      intro i hi
      rw [hmask, BitVec.getLsbD_or, hval, Bool.or_eq_false_iff] at hi
      exact hi
    refine ⟨⟨fun d hd => halone.locked hd, fun d hd v => halone.holdsCopy hd,
      Or.inl hlock, fun _ => hlock.trans (hinv.lock c (hmine trivial)),
      Or.inr (hmine trivial), ?_⟩, fun i hi => (hbits i hi).1, ?_⟩
    · intro v hv
      cases hcopies v hv
    · intro hclear
      have hset := (hbits bit hclear).2
      rw [getLsbD_bitMask bit hbit] at hset
      simp at hset
  | unlock =>
    cases hstep
    refine ⟨⟨fun d hd => halone.locked hd, fun d hd v => halone.holdsCopy hd,
      Or.inr (Or.inr (hmine trivial)), ?_, Or.inl hmask, ?_⟩, ?_, ?_⟩
    · intro h
      obtain ⟨pc, hnone, _⟩ := hlocks h
      cases hnone
    · intro v hv
      cases hcopies v hv
    · intro i hi
      rw [← hmask]
      exact hi
    · intro _ h
      cases h

theorem rmw_setPoll (t : Host) (pc : PollPc) :
    (t.setPoll cpu pc).rmw (.poll cpu) = match pc with | .enable pc => some pc | _ => none := by
  simp only [Host.rmw, Host.setPoll, Function.update_self]

structure SameControl (s t : Host) : Prop where
  irq : t.irq = s.irq
  frame : t.frame = s.frame
  poll : t.poll = s.poll
  tasklet : t.tasklet = s.tasklet
  timer : t.timer = s.timer

theorem SameControl.setPoll {t : Host} (hsame : SameControl s t) (pc : PollPc) :
    Alone s (t.setPoll cpu pc) (.poll cpu) := by
  refine ⟨hsame.irq, hsame.frame, ?_⟩
  intro d hd
  cases d with
  | irq => rfl
  | poll cpu' =>
    have hne : cpu' ≠ cpu := fun h => hd (by rw [h])
    simp only [Host.rmw, Host.setPoll, Function.update_of_ne hne, hsame.poll]
  | tasklet => simp only [Host.rmw, Host.setPoll, hsame.tasklet]
  | timer => simp only [Host.rmw, Host.setPoll, hsame.timer]

theorem Inv.pollStep {t : Host} {pc : PollPc} (hinv : Inv s) (hsame : SameControl s t)
    (hown : Own s (t.setPoll cpu pc) (.poll cpu))
    (hbits : ∀ i, t.intrMsk.getLsbD i = false → s.intrMsk.getLsbD i = false)
    (htasklet : t.taskletSched = s.taskletSched)
    (hrx : t.intrMsk.getLsbD rxBit = false →
      t.napi ≠ .idle ∨ pc.enables ∨ (¬ (s.poll cpu).enables ∧ t.napi = s.napi)) :
    Inv (t.setPoll cpu pc) := by
  have halone : Alone s (t.setPoll cpu pc) (.poll cpu) := hsame.setPoll pc
  refine hinv.step hown ?_ ?_
  · intro hclear
    rcases hrx hclear with h | h | ⟨hold, hnapi⟩
    · exact Or.inl h
    · refine Or.inr (Or.inl ⟨cpu, ?_⟩)
      simp only [Host.setPoll, Function.update_self]
      exact h
    · rcases hinv.rx (hbits _ hclear) with h | ⟨cpu', h⟩ | h
      · left
        rw [← hnapi] at h
        exact h
      · have hne : cpu' ≠ cpu := by
          rintro rfl
          exact hold h
        refine Or.inr (Or.inl ⟨cpu', ?_⟩)
        simp only [Host.setPoll, Function.update_of_ne hne, hsame.poll]
        exact h
      · exact Or.inr (Or.inr (halone.dispatching h))
  · intro hclear
    rcases hinv.tx (hbits _ hclear) with h | h | h
    · exact Or.inl (htasklet.trans h)
    · refine Or.inr (Or.inl ?_)
      simp only [Host.setPoll, hsame.tasklet]
      exact h
    · exact Or.inr (Or.inr (halone.dispatching h))

theorem Inv.pollOutside {t : Host} {pc : PollPc} (hinv : Inv s) (hsame : SameControl s t)
    (hlock : t.macLock = s.macLock) (hmask : t.intrMsk = s.intrMsk)
    (htasklet : t.taskletSched = s.taskletSched) (hpc : ∀ rmw, pc = .enable rmw → rmw = .lock)
    (hrx : t.napi ≠ .idle ∨ pc.enables ∨ (¬ (s.poll cpu).enables ∧ t.napi = s.napi)) :
    Inv (t.setPoll cpu pc) := by
  have hrmw : (t.setPoll cpu pc).rmw (.poll cpu) = none ∨
      (t.setPoll cpu pc).rmw (.poll cpu) = some .lock := by
    rw [rmw_setPoll]
    cases pc with
    | enable rmw => exact Or.inr (by rw [hpc rmw rfl])
    | _ => exact Or.inl rfl
  refine hinv.pollStep hsame (Own.outside (by simp) (hsame.setPoll pc) hlock hmask hrmw) ?_
    htasklet fun _ => hrx
  intro i hi
  rw [← hmask]
  exact hi

theorem sameControl_napiComplete : SameControl s (napiComplete s) := by
  unfold napiComplete
  split <;> exact ⟨rfl, rfl, rfl, rfl, rfl⟩

theorem sameControl_enableBit {pc : RmwPc} {t : Host} {pc' : Option RmwPc}
    (hstep : enableBit s c bit pc = some (t, pc')) :
    SameControl s t ∧ t.napi = s.napi ∧ t.taskletSched = s.taskletSched := by
  cases pc with
  | lock =>
    simp only [GmacIntr.enableBit] at hstep
    split at hstep <;> cases hstep
    exact ⟨⟨rfl, rfl, rfl, rfl, rfl⟩, rfl, rfl⟩
  | read | write | unlock =>
    cases hstep
    exact ⟨⟨rfl, rfl, rfl, rfl, rfl⟩, rfl, rfl⟩

theorem enableBit_done {pc : RmwPc} {t : Host} (hstep : enableBit s c bit pc = some (t, none)) :
    pc = .unlock := by
  cases pc with
  | lock =>
    simp only [GmacIntr.enableBit] at hstep
    split at hstep <;> cases hstep
  | read | write => cases hstep
  | unlock => rfl

theorem Inv.pollTail (hinv : Inv s) (hstep : pollTail s cpu = some s') : Inv s' := by
  have hsame : SameControl s s := ⟨rfl, rfl, rfl, rfl, rfl⟩
  cases hpc : s.poll cpu with
  | idle | receiving =>
    simp only [GmacIntr.pollTail, hpc] at hstep
    cases hstep
  | deferred =>
    simp only [GmacIntr.pollTail, hpc, Option.some.injEq] at hstep
    subst hstep
    refine hinv.pollOutside hsame rfl rfl rfl (fun _ h => by cases h) (Or.inr (Or.inr ⟨?_, rfl⟩))
    rw [hpc]
    exact id
  | completed =>
    simp only [GmacIntr.pollTail, hpc, Option.some.injEq] at hstep
    subst hstep
    refine hinv.pollOutside hsame rfl rfl rfl (fun _ h => by cases h; rfl) (Or.inr (Or.inl ?_))
    intro h
    cases h
  | enable pc =>
    simp only [GmacIntr.pollTail, hpc, Option.map_eq_some_iff] at hstep
    obtain ⟨⟨t, pc'⟩, henable, rfl⟩ := hstep
    obtain ⟨hcontrol, hnapi, htasklet⟩ := sameControl_enableBit henable
    have hold : s.rmw (.poll cpu) = some pc := by
      simp only [Host.rmw, hpc]
    have hnew : (t.setPoll cpu (.ofRmw pc')).rmw (.poll cpu) = pc' := by
      rw [rmw_setPoll]
      cases pc' <;> rfl
    obtain ⟨hown, hbits, hset⟩ := Own.enableBit hinv (by simp) (hcontrol.setPoll _) hold hnew
      henable rfl rfl (by decide)
    refine hinv.pollStep hcontrol hown hbits htasklet ?_
    intro hclear
    cases pc' with
    | none =>
      refine Or.inr (Or.inr ⟨?_, hnapi⟩)
      rw [hpc, enableBit_done henable]
      exact fun h => h rfl
    | some pc' =>
      refine Or.inr (Or.inl ?_)
      rintro rfl
      exact hset hclear rfl

theorem Inv.taskletStep (hinv : Inv s) (hown : Own s s' .tasklet)
    (halone : Alone s s' .tasklet) (hpoll : s'.napi = s.napi ∧ s'.poll = s.poll)
    (hbits : ∀ i, s'.intrMsk.getLsbD i = false → s.intrMsk.getLsbD i = false)
    (htx : s'.intrMsk.getLsbD txBit = false → s'.tasklet.enables ∨
      (¬ s.tasklet.enables ∧ s'.taskletSched = s.taskletSched)) : Inv s' := by
  refine hinv.step hown ?_ ?_
  · intro hclear
    unfold Host.rxPending
    rw [hpoll.1, hpoll.2]
    exact (hinv.rx (hbits _ hclear)).imp_right (Or.imp_right halone.dispatching)
  · intro hclear
    rcases htx hclear with h | ⟨hold, hsched⟩
    · exact Or.inr (Or.inl h)
    · rcases hinv.tx (hbits _ hclear) with h | h | h
      · exact Or.inl (hsched.trans h)
      · exact absurd h hold
      · exact Or.inr (Or.inr (halone.dispatching h))

theorem Inv.tasklet (hinv : Inv s) (hstep : gmacTxFreeBd s = some s') : Inv s' := by
  cases hpc : s.tasklet with
  | idle =>
    simp only [gmacTxFreeBd, hpc] at hstep
    cases hstep
  | freeing =>
    simp only [gmacTxFreeBd, hpc, Option.some.injEq] at hstep
    subst hstep
    have halone : Alone s { s with tasklet := .enable .lock } .tasklet :=
      ⟨rfl, rfl, fun d hd => by cases d <;> first | rfl | exact absurd rfl hd⟩
    refine hinv.taskletStep (Own.outside (by simp) halone rfl rfl (Or.inr rfl)) halone
      ⟨rfl, rfl⟩ (fun _ => id) fun _ => Or.inl ?_
    intro h
    cases h
  | enable pc =>
    simp only [gmacTxFreeBd, hpc, Option.map_eq_some_iff] at hstep
    obtain ⟨⟨t, pc'⟩, henable, rfl⟩ := hstep
    obtain ⟨hsame, hnapi, hsched⟩ := sameControl_enableBit henable
    have halone : Alone s { t with tasklet := .ofRmw pc' } .tasklet := by
      refine ⟨hsame.irq, hsame.frame, fun d hd => ?_⟩
      cases d with
      | irq => rfl
      | poll cpu => simp only [Host.rmw, hsame.poll]
      | tasklet => exact absurd rfl hd
      | timer => exact hsame.timer
    have hold : s.rmw .tasklet = some pc := by
      simp only [Host.rmw, hpc]
    have hnew : ({ t with tasklet := .ofRmw pc' } : Host).rmw .tasklet = pc' := by
      cases pc' <;> rfl
    obtain ⟨hown, hbits, hset⟩ := Own.enableBit hinv (by simp) halone hold hnew henable
      rfl rfl (by decide)
    refine hinv.taskletStep hown halone ⟨hnapi, hsame.poll⟩ hbits fun hclear => ?_
    cases pc' with
    | none =>
      refine Or.inr ⟨?_, hsched⟩
      rw [hpc, enableBit_done henable]
      exact fun h => h rfl
    | some pc' =>
      left
      rintro rfl
      exact hset hclear rfl

theorem Inv.timerStep (hinv : Inv s) (hown : Own s s' .timer) (halone : Alone s s' .timer)
    (hpoll : s'.napi = s.napi ∧ s'.poll = s.poll)
    (htasklet : s'.taskletSched = s.taskletSched ∧ s'.tasklet = s.tasklet)
    (hbits : ∀ i, s'.intrMsk.getLsbD i = false → s.intrMsk.getLsbD i = false) : Inv s' := by
  refine hinv.step hown ?_ ?_
  · intro hclear
    unfold Host.rxPending
    rw [hpoll.1, hpoll.2]
    exact (hinv.rx (hbits _ hclear)).imp_right (Or.imp_right halone.dispatching)
  · intro hclear
    unfold Host.txPending
    rw [htasklet.1, htasklet.2]
    exact (hinv.tx (hbits _ hclear)).imp_right (Or.imp_right halone.dispatching)

theorem Inv.timer (hinv : Inv s) (hstep : gmacTxrxTimerHandle s = some s') : Inv s' := by
  obtain ⟨pc, hpc, hstep⟩ := Option.bind_eq_some_iff.mp hstep
  obtain ⟨⟨t, pc'⟩, henable, rfl⟩ := Option.map_eq_some_iff.mp hstep
  obtain ⟨hsame, hnapi, hsched⟩ := sameControl_enableBit henable
  have halone : Alone s { t with timer := pc' } .timer := by
    refine ⟨hsame.irq, hsame.frame, fun d hd => ?_⟩
    cases d with
    | irq => rfl
    | poll cpu => simp only [Host.rmw, hsame.poll]
    | tasklet => simp only [Host.rmw, hsame.tasklet]
    | timer => exact absurd rfl hd
  obtain ⟨hown, hbits, _⟩ := Own.enableBit hinv (by simp) halone hpc rfl henable rfl rfl
    (by decide)
  exact hinv.timerStep hown halone ⟨hnapi, hsame.poll⟩ ⟨hsched, hsame.tasklet⟩ hbits

theorem Inv.next {a : Action} (hinv : Inv s) (hfresh : Fresh s a)
    (hstep : next s a = some s') : Inv s' := by
  have hsame : SameControl s s := ⟨rfl, rfl, rfl, rfl, rfl⟩
  cases a with
  | interrupt status =>
    simp only [GmacIntr.next] at hstep
    split at hstep
    next hidle =>
      cases hstep
      exact hinv.irqStep (Own.irq rfl (Or.inl rfl) False.elim (Or.inl rfl) fun h => by cases h)
        rfl ⟨rfl, rfl⟩ ⟨rfl, rfl⟩ fun bit h =>
          absurd h (not_dispatching_of_irq hidle (by decide))
    next => cases hstep
  | handler => exact hinv.handler hfresh hstep
  | poll cpu =>
    simp only [GmacIntr.next] at hstep
    split at hstep
    · cases hstep
      exact hinv.pollOutside ⟨rfl, rfl, rfl, rfl, rfl⟩ rfl rfl rfl (fun _ h => by cases h)
        (Or.inl (by simp))
    · cases hstep
  | drained cpu =>
    simp only [GmacIntr.next] at hstep
    split at hstep
    · cases hstep
      refine hinv.pollOutside sameControl_napiComplete ?_ ?_ ?_ (fun _ h => by cases h)
        (Or.inr (Or.inl trivial))
      all_goals
        unfold napiComplete
        split <;> rfl
    · cases hstep
  | unfilled cpu =>
    simp only [GmacIntr.next] at hstep
    split at hstep
    · cases hstep
      exact hinv.pollOutside ⟨rfl, rfl, rfl, rfl, rfl⟩ rfl rfl rfl (fun _ h => by cases h)
        (Or.inl (by simp))
    · cases hstep
  | full cpu port =>
    simp only [GmacIntr.next, if_neg hfresh] at hstep
    split at hstep
    · cases hstep
      exact hinv.pollOutside ⟨rfl, rfl, rfl, rfl, rfl⟩ rfl rfl rfl (fun _ h => by cases h)
        (Or.inl (by simp))
    · cases hstep
  | pollTail cpu => exact hinv.pollTail hstep
  | runTasklet =>
    simp only [GmacIntr.next] at hstep
    split at hstep
    · cases hstep
      have halone : Alone s { s with taskletSched := false, tasklet := .freeing } .tasklet :=
        ⟨rfl, rfl, fun d hd => by cases d <;> first | rfl | exact absurd rfl hd⟩
      exact hinv.taskletStep (Own.outside (by simp) halone rfl rfl (Or.inl rfl)) halone
        ⟨rfl, rfl⟩ (fun _ => id) fun _ => Or.inl trivial
    · cases hstep
  | tasklet => exact hinv.tasklet hstep
  | expire =>
    simp only [GmacIntr.next] at hstep
    split at hstep
    · cases hstep
      have halone : Alone s { s with timer := some .lock } .timer :=
        ⟨rfl, rfl, fun d hd => by cases d <;> first | rfl | exact absurd rfl hd⟩
      exact hinv.timerStep (Own.outside (by simp) halone rfl rfl (Or.inr rfl)) halone
        ⟨rfl, rfl⟩ ⟨rfl, rfl⟩ fun _ => id
    · cases hstep
  | timer => exact hinv.timer hstep
  | setRxMode mode =>
    cases hstep
    exact ⟨hinv.lock, hinv.copy, hinv.rx, hinv.tx⟩

theorem Inv.initial (hinit : initial macNum s) : Inv s := by
  obtain ⟨hmask, _, hirq, _, _, hpoll, _, htasklet, htimer⟩ := hinit
  have hbits : ∀ bit ∈ [rxBit, txBit], s.intrMsk.getLsbD bit = true := by
    rw [hmask]
    unfold gmacHwEnableInterrupt
    split <;> decide
  have hrmw : ∀ c, s.rmw c = none := by
    intro c
    cases c with
    | irq => rfl
    | poll cpu => simp only [Host.rmw, hpoll cpu]
    | tasklet => simp only [Host.rmw, htasklet]
    | timer => exact htimer
  have hunlocked : ∀ c, ¬ s.locked c := by
    rintro c (⟨_, h⟩ | ⟨pc, h, _⟩)
    · rw [hirq] at h
      exact h
    · rw [hrmw c] at h
      cases h
  refine ⟨fun c h => absurd h (hunlocked c), fun c v h => absurd h.locked (hunlocked c), ?_, ?_⟩
  · intro h
    rw [hbits rxBit (by simp)] at h
    cases h
  · intro h
    rw [hbits txBit (by simp)] at h
    cases h

theorem Inv.intact (hinv : Inv s) : Intact s := by
  constructor
  · rintro ⟨hnapi, hpoll⟩ hdisp
    rw [← Bool.not_eq_false]
    intro hclear
    rcases hinv.rx hclear with h | ⟨cpu, h⟩ | h
    · exact h hnapi
    · rw [hpoll cpu] at h
      exact h
    · exact hdisp h
  · rintro ⟨hsched, htasklet⟩ hdisp
    rw [← Bool.not_eq_false]
    intro hclear
    rcases hinv.tx hclear with h | h | h
    · rw [hsched] at h
      cases h
    · rw [htasklet] at h
      exact h
    · exact hdisp h

/-- While the handler loses no enable by a value it read too early, and no poll leaves its
interrupt to the timer, both interrupts come back after their work. -/
theorem fresh_masks_intact (hreach : ((system macNum).restrict Fresh).Reachable s) :
    Intact s := by
  suffices hinv : Inv s from hinv.intact
  refine hreach.invariant (P := Inv) (fun _ => Inv.initial) ?_
  rintro s a s' - hinv ⟨hfresh, hstep⟩
  exact hinv.next hfresh hstep

instance (s : Host) (a : Action) : Decidable (Fresh s a) :=
  match a with
  | .handler => inferInstanceAs (Decidable (_ → _))
  | .full .. => inferInstanceAs (Decidable (¬ _))
  | .interrupt _ | .poll _ | .drained _ | .unfilled _ | .pollTail _ | .runTasklet | .tasklet
  | .expire | .timer | .setRxMode _ => isTrue trivial

def opened : Host where
  intrMsk := gmacHwEnableInterrupt eth0
  macLock := none
  irq := .idle
  frame := ⟨0, 0, 0, .none⟩
  napi := .idle
  napiMissed := false
  poll := fun _ => .idle
  taskletSched := false
  tasklet := .idle
  timerArmed := false
  timer := none
  gRxMode := 0
  rxFifoErrors := 0

theorem opened_initial : initial eth0 opened :=
  ⟨rfl, rfl, rfl, rfl, rfl, fun _ => rfl, rfl, rfl, rfl⟩

def rxInterrupt : List Action :=
  .interrupt (bitMask rxBit) :: List.replicate 19 .handler

def drain : List Action :=
  .drained 0 :: List.replicate 5 (.pollTail 0)

def freeDescriptors : List Action :=
  .runTasklet :: List.replicate 5 .tasklet

def freshRun : List Action :=
  rxInterrupt ++ [Action.poll 0] ++ drain ++
    Action.interrupt (bitMask txBit) :: List.replicate 19 Action.handler ++ freeDescriptors

def afterFresh : Host :=
  (runSteps (guarded Fresh next) opened freshRun).get (by decide +kernel)

theorem afterFresh_reachable : ((system eth0).restrict Fresh).Reachable afterFresh := by
  have hstart : ((system eth0).restrict Fresh).Reachable opened := Reachable.init opened_initial
  exact hstart.runGuarded (l := freshRun) (Option.some_get _).symm

theorem fresh_masks_intact_again :
    Intact afterFresh ∧ afterFresh.irq = .idle ∧ afterFresh.intrMsk = opened.intrMsk := by
  refine ⟨fresh_masks_intact afterFresh_reachable, ?_⟩
  decide +kernel

def staleRun : List Action :=
  rxInterrupt ++ [Action.poll 0, .interrupt (bitMask txBit)] ++ List.replicate 6 Action.handler ++
    drain ++ List.replicate 13 Action.handler ++ freeDescriptors

def afterStale : Host :=
  (runSteps next opened staleRun).get (by decide +kernel)

/-- Nothing is scheduled or running any more, and no packet will raise an interrupt. -/
theorem stale_write_masks_packets :
    (system eth0).Reachable afterStale ∧ ¬ Intact afterStale ∧ afterStale.irq = .idle ∧
      afterStale.pollIdle ∧ afterStale.taskletIdle ∧
      afterStale.intrMsk.getLsbD rxBit = false := by
  have hstart : (system eth0).Reachable opened := Reachable.init opened_initial
  have hirq : afterStale.irq = .idle := by decide +kernel
  have hclear : afterStale.intrMsk.getLsbD rxBit = false := by decide +kernel
  have hidle : afterStale.pollIdle := by
    refine ⟨by decide +kernel, fun cpu => ?_⟩
    cases cpu with
    | zero => decide +kernel
    | succ cpu => rfl
  refine ⟨hstart.runSteps (l := staleRun) (Option.some_get _).symm, ?_, hirq, hidle, ?_, hclear⟩
  · intro hintact
    have hset := hintact.1 hidle (not_dispatching_of_irq hirq (by decide))
    rw [hclear] at hset
    cases hset
  · exact ⟨by decide +kernel, by decide +kernel⟩

end HiMpu.GmacIntr
