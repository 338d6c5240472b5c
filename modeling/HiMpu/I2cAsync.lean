import HiMpu.ByteMemory
import HiMpu.I2cDma

/-!
# Transfers of the I2C driver under interrupts

`bm_i2c_write`, `bm_i2c_read`, `bm_i2c_write_async` and `bm_i2c_read_async` of
`drivers/i2c/i2c.c` on one adapter.  All requests share one message, one callback
slot and one semaphore; an asynchronous request gives the semaphore back when its
transfer starts.  A call is a sequence of steps, and the interrupt handler may run
between any two of them while the interrupt line is enabled.  The handler is bound
to the core of the caller, so it is one step.
-/

namespace HiMpu.I2cAsync

open I2cDma (I2cBoard I2cXferInfo i2cCheckXferInfo I2cTransmit i2c7bitMaxAddr)

def i2cKmsgWe : BitVec 16 := 0x0000
def i2cKmsgRd : BitVec 16 := 0x0001
def i2cKmsgTen : BitVec 16 := 0x0010
def i2c10bitMaxAddr : ℕ := 0x3FF
def i2cXferTimeout : ℤ := -10
def i2cUsecPerMsec : ℕ := 1000
def i2cUsecPerSec : ℕ := 1000000

def icIntrRxUnder : BitVec 32 := 0x1
def icIntrRxOver : BitVec 32 := 0x2
def icIntrRxFull : BitVec 32 := 0x4
def icIntrTxOver : BitVec 32 := 0x8
def icIntrTxEmpty : BitVec 32 := 0x10
def icIntrTxAbrt : BitVec 32 := 0x40
def icIntrActivity : BitVec 32 := 0x100
def icIntrStopDet : BitVec 32 := 0x200
def icIntrSclStuckLow : BitVec 32 := 0x4000

def icIntrMasterMask : BitVec 32 :=
  icIntrRxFull ||| icIntrTxAbrt ||| icIntrStopDet ||| icIntrRxUnder ||| icIntrRxOver |||
    icIntrTxOver ||| icIntrTxEmpty ||| icIntrSclStuckLow

structure Adapter where
  i2cId : ℕ
  txFifoDepth : ℕ
  rxFifoDepth : ℕ

structure Kmsg where
  addr : ℕ
  flags : BitVec 16
  timeout : ℕ
  rcnt : ℕ
  wcnt : ℕ
  wlen : ℕ
  wbuf : ℕ
  rlen : ℕ
  rbuf : ℕ
deriving DecidableEq

def Kmsg.isRd (msg : Kmsg) : Bool :=
  msg.flags &&& i2cKmsgRd != 0

structure Driver where
  msg : Kmsg
  /-- `adap->msg` points to the message. -/
  msgptr : Bool
  cmdLen : ℕ
  callback : Option ℕ
deriving DecidableEq

inductive Mode where
  | sync
  | async (callback : Option ℕ)
deriving DecidableEq

structure Request where
  info : I2cXferInfo
  timeout : ℕ
  isRead : Bool
  mode : Mode

inductive Event where
  | moved (isRead : Bool) (addr : ℕ) (byte : UInt8)
  | invoked (owner f : ℕ) (status : I2cTransmit)
  /-- Call `k` has changed the shared state while request `j` was in flight. -/
  | overwritten (k j : ℕ)
deriving DecidableEq

def Event.invokedBy (k : ℕ) : Event → Bool
  | .invoked owner _ _ => owner == k
  | _ => false

def Event.move? : Event → Option (Bool × ℕ)
  | .moved isRead addr _ => some (isRead, addr)
  | _ => none

inductive Stage where
  | callback
  | message
  | msgptr
  | waitIdle
  | xferInit
  | irqEnable
  | commands
  | poll (cnt : ℕ)
  | finish (timeOut : ℕ)
deriving DecidableEq

/-- The message is about to be replaced, and the controller may still run the
transfer before it. -/
def Stage.replacing : Stage → Bool
  | .callback | .message | .msgptr | .waitIdle => true
  | _ => false

inductive Pc where
  | idle
  | busy (stage : Stage) (k : ℕ) (r : Request)

structure State where
  drv : Driver
  mem : Mem
  enabled : Bool
  intrMask : BitVec 32
  irq : Bool
  rxFifo : List UInt8
  pending : ℕ
  pc : Pc
  count : ℕ
  requests : ℕ → Option Request
  /-- The length of the trace when a request was made. -/
  started : ℕ → ℕ
  results : ℕ → Option ℤ
  slotOwner : ℕ
  events : List Event

def Mode.isAsync : Mode → Bool
  | .sync => false
  | .async _ => true

def State.inFlight (s : State) (k : ℕ) : Bool :=
  match s.requests k with
  | some r => r.mode.isAsync && s.results k == some bmOk && !s.events.any (Event.invokedBy k)
  | none => false

def State.setMsg (s : State) (msg : Kmsg) : State :=
  { s with drv := { s.drv with msg := msg } }

def State.storeByte (s : State) (val : UInt8) : State :=
  let msg := s.drv.msg
  { s.setMsg { msg with rcnt := msg.rcnt + 1 } with
    mem := Function.update s.mem (msg.rbuf + msg.rcnt) val
    events := s.events ++ [.moved true (msg.rbuf + msg.rcnt) val] }

def State.pushByte (s : State) : State :=
  let msg := s.drv.msg
  { s.setMsg { msg with wcnt := msg.wcnt + 1 } with
    events := s.events ++ [.moved false (msg.wbuf + msg.wcnt) (s.mem (msg.wbuf + msg.wcnt))] }

def State.invoke (s : State) (status : I2cTransmit) : State :=
  match s.drv.callback with
  | some f =>
    { s with
      drv := { s.drv with callback := none }
      events := s.events ++ [.invoked s.slotOwner f status] }
  | none => s

def State.complete (s : State) (status : I2cTransmit) : State :=
  match s.drv.callback with
  | some _ => { s.invoke status with irq := false }
  | none => s

def i2cIrqRead : ℕ → State → State
  | 0, s => s
  | n + 1, s =>
    match s.rxFifo with
    | [] => s
    | val :: rest =>
      let s := { s with rxFifo := rest }
      if s.drv.msg.rlen ≤ s.drv.msg.rcnt then s
      else i2cIrqRead n (s.storeByte val)

def i2cIrqXferWriteByte (s : State) : Option State :=
  if s.drv.msg.wlen ≤ s.drv.msg.wcnt ∨ s.drv.msg.wbuf = 0 then none
  else some s.pushByte

inductive Master where
  | continue
  | break
  | next

def i2cIrqXferMsgByte (s : State) : State × Master :=
  match i2cIrqXferWriteByte s with
  | some s => (s, .continue)
  | none =>
    if !s.drv.msg.isRd then (s, .break)
    else ({ s with pending := s.pending + 1 }, .next)

def i2cIrqXferLoop : ℕ → ℕ → State → State
  | 0, _, s => s
  | _ + 1, 0, s => s
  | wlimit + 1, rlimit + 1, s =>
    match i2cIrqXferMsgByte s with
    | (s, .break) =>
      if s.drv.msg.wlen ≤ s.drv.msg.wcnt then s.complete .writeOk
      else i2cIrqXferLoop wlimit (rlimit + 1) s
    | (s, .next) =>
      let s := { s with drv := { s.drv with cmdLen := s.drv.cmdLen + 1 } }
      if s.drv.msg.rlen ≤ s.drv.cmdLen then s else i2cIrqXferLoop wlimit rlimit s
    | (s, .continue) => i2cIrqXferLoop wlimit (rlimit + 1) s

def i2cIrqXferMsg (A : Adapter) (s : State) (txflr : ℕ) : State :=
  if s.drv.msgptr then
    let s := i2cIrqXferLoop (A.txFifoDepth - txflr) (A.rxFifoDepth - s.rxFifo.length) s
    let done :=
      if s.drv.msg.isRd then s.drv.msg.rlen ≤ s.drv.cmdLen
      else s.drv.msg.wlen ≤ s.drv.msg.wcnt
    let mask := if done then icIntrMasterMask &&& ~~~icIntrTxEmpty else icIntrMasterMask
    { s with intrMask := mask }
  else s

/-- The first thing it does is to follow `adap->msg`. -/
def i2cHandleError (s : State) : Option State :=
  if s.drv.msgptr then
    some (s.invoke (if s.drv.msg.isRd then .readFail else .writeFail))
  else none

/-- The `RX_FULL` branch of the handler.  With a callback in the slot it follows
`adap->msg`. -/
def i2cHandleRxFull (s : State) : Option State :=
  if s.drv.msgptr then
    let s := i2cIrqRead s.rxFifo.length s
    if s.drv.msg.rlen ≤ s.drv.msg.rcnt then some (s.complete .readOk) else some s
  else if s.drv.callback.isSome then none
  else some s

/-- `none` is an access through a null pointer. -/
def i2cInterruptHandle (A : Adapter) (s : State) (raw : BitVec 32) (txflr : ℕ) : Option State :=
  if !s.enabled then i2cHandleError s
  else if raw &&& ~~~icIntrActivity = 0 then i2cHandleError s
  else
    let status := raw &&& s.intrMask
    (if status &&& icIntrRxFull ≠ 0 then i2cHandleRxFull s else some s).map fun s =>
      let s := if status &&& icIntrTxEmpty ≠ 0 then i2cIrqXferMsg A s txflr else s
      if status &&& icIntrStopDet ≠ 0 then
        { s with intrMask := icIntrTxAbrt ||| icIntrSclStuckLow }
      else s

def syncTimeout (timeout : ℕ) : ℕ :=
  let usec := timeout * i2cUsecPerMsec % 2 ^ 32
  if usec = 0 then 3 * i2cUsecPerSec else usec

def fillMessage (r : Request) (msg : Kmsg) : Kmsg :=
  match r.isRead, r.mode with
  | false, .async _ =>
    { msg with
      addr := r.info.addr, wbuf := r.info.buffer, wlen := r.info.length, wcnt := 0,
      rbuf := 0, flags := i2cKmsgWe }
  | true, .async _ =>
    { msg with
      addr := r.info.addr, wbuf := 0, rbuf := r.info.buffer, rlen := r.info.length,
      flags := i2cKmsgRd }
  | false, .sync =>
    { msg with
      addr := r.info.addr, wbuf := r.info.buffer, wlen := r.info.length, rbuf := 0,
      flags := i2cKmsgWe, timeout := syncTimeout r.timeout }
  | true, .sync =>
    { msg with
      addr := r.info.addr, wbuf := 0, rbuf := r.info.buffer, rlen := r.info.length,
      flags := i2cKmsgRd, timeout := syncTimeout r.timeout }

def State.goto (s : State) (stage : Stage) (k : ℕ) (r : Request) : State :=
  { s with pc := .busy stage k r }

def State.ret (s : State) (k : ℕ) (value : ℤ) : State :=
  { s with pc := .idle, results := Function.update s.results k (some value) }

def State.setMsgptr (s : State) (set : Bool) : State :=
  { s with drv := { s.drv with msgptr := set } }

/-- One round of the loop of `i2c_dw_master_write` (`ready`: the transmit FIFO is
empty) or of `i2c_dw_master_read`. -/
def pollRound (s : State) (cnt : ℕ) (ready : Bool) : State × ℕ :=
  if s.drv.msg.isRd then
    match s.rxFifo with
    | [] => (s, cnt)
    | val :: rest =>
      let s := { s with rxFifo := rest }.storeByte val
      if cnt < s.drv.msg.rlen then ({ s with pending := s.pending + 1 }, cnt + 1) else (s, cnt)
  else if ready then (s.pushByte, cnt)
  else (s, cnt)

def pollDone (msg : Kmsg) : Bool :=
  if msg.isRd then msg.rlen ≤ msg.rcnt else msg.wlen ≤ msg.wcnt

def advance (A : Adapter) (s : State) (k : ℕ) (r : Request) (hw hw' : Bool) : Stage → State
  | .callback =>
    match r.mode with
    | .async callback =>
      { s with drv := { s.drv with callback := callback }, slotOwner := k }.goto .message k r
    | .sync => s.goto .message k r
  | .message => (s.setMsg (fillMessage r s.drv.msg)).goto .msgptr k r
  | .msgptr =>
    let maxAddress :=
      if s.drv.msg.flags &&& i2cKmsgTen ≠ 0 then i2c10bitMaxAddr else i2c7bitMaxAddr
    if !r.mode.isAsync ∧ maxAddress < s.drv.msg.addr then s.ret k bmFail
    else (s.setMsgptr true).goto .waitIdle k r
  | .waitIdle =>
    if hw then
      if r.mode.isAsync then s.ret k bmFail else (s.setMsgptr false).ret k bmFail
    else { s with enabled := false, rxFifo := [], pending := 0 }.goto .xferInit k r
  | .xferInit =>
    let msg := { s.drv.msg with rcnt := 0, wcnt := 0 }
    let stage :=
      if r.mode.isAsync then .irqEnable else if s.drv.msg.isRd then .commands else .poll 0
    { s with
      drv := { s.drv with msg := msg, cmdLen := 0 }
      intrMask := 0
      enabled := true }.goto stage k r
  | .irqEnable =>
    { s with
      intrMask := icIntrRxFull ||| icIntrTxEmpty ||| icIntrStopDet
      irq := true }.ret k bmOk
  | .commands =>
    let cnt := min s.drv.msg.rlen (A.rxFifoDepth - s.rxFifo.length)
    { s with pending := s.pending + cnt }.goto (.poll cnt) k r
  | .poll cnt =>
    if pollDone s.drv.msg then s.goto (.finish (s.drv.msg.timeout % 2 ^ 32)) k r
    else
      let (s, cnt) := pollRound s cnt hw
      if s.drv.msg.timeout = 0 then s.goto (.finish 0) k r
      else (s.setMsg { s.drv.msg with timeout := s.drv.msg.timeout - 1 }).goto (.poll cnt) k r
  | .finish timeOut =>
    let leave := if s.drv.msg.isRd then !hw' else hw'
    if !hw ∧ 0 < timeOut ∧ !leave then s.goto (.finish (timeOut - 1)) k r
    else (s.setMsgptr false).ret k (if timeOut = 0 then i2cXferTimeout else bmOk)

def State.noting (s : State) (k : ℕ) (t : State) : State :=
  if t.drv = s.drv then t
  else
    { t with
      events := t.events ++ ((List.range s.count).filter s.inFlight).map (.overwritten k) }

def admitted (B : I2cBoard) (r : Request) : Bool :=
  i2cCheckXferInfo B (some r.info) = bmOk && r.mode != .async none && B.initFlag r.info.i2cId

def State.reject (s : State) (r : Option Request) : State :=
  { s with
    count := s.count + 1
    requests := Function.update s.requests s.count r
    results := Function.update s.results s.count (some bmFail) }

def State.enter (s : State) (r : Request) : State :=
  { s with
    pc := .busy (if r.mode.isAsync then .callback else .message) s.count r
    count := s.count + 1
    requests := Function.update s.requests s.count (some r)
    started := Function.update s.started s.count s.events.length }

inductive Label where
  | call (r : Option Request) (sem : Bool)
  | advance (hw hw' : Bool)
  | interrupt (raw : BitVec 32) (txflr : ℕ)
  | arrive (byte : UInt8)
  | abort
  | store (addr : ℕ) (byte : UInt8)

/-- The receive threshold is zero: `RX_FULL` says that the receive FIFO is not
empty. -/
def next (B : I2cBoard) (A : Adapter) (s : State) : Label → Option State
  | .call none _ => some (s.reject none)
  | .call (some r) sem =>
    if r.info.i2cId ≠ A.i2cId then none
    else if admitted B r && sem then
      match s.pc with
      | .idle => some (s.enter r)
      | .busy _ _ _ => none
    else some (s.reject (some r))
  | .advance hw hw' =>
    match s.pc with
    | .idle => none
    | .busy stage k r => some (s.noting k (advance A s k r hw hw' stage))
  | .interrupt raw txflr =>
    if s.irq ∧ (raw &&& icIntrRxFull ≠ 0 → s.rxFifo ≠ []) then
      i2cInterruptHandle A s raw txflr
    else none
  | .arrive byte =>
    if s.enabled ∧ 0 < s.pending then
      some { s with rxFifo := s.rxFifo ++ [byte], pending := s.pending - 1 }
    else none
  | .abort => some { s with pending := 0 }
  | .store addr byte => some { s with mem := Function.update s.mem addr byte }

def initial (mem : Mem) : State where
  drv := ⟨⟨0, 0, 0, 0, 0, 0, 0, 0, 0⟩, false, 0, none⟩
  mem := mem
  enabled := false
  intrMask := 0
  irq := false
  rxFifo := []
  pending := 0
  pc := .idle
  count := 0
  requests := fun _ => none
  started := fun _ => 0
  results := fun _ => none
  slotOwner := 0
  events := []

def i2cSystem (B : I2cBoard) (A : Adapter) : TransitionSystem State Label :=
  TransitionSystem.ofStep (fun s => ∃ mem, s = initial mem) (next B A)

end HiMpu.I2cAsync
