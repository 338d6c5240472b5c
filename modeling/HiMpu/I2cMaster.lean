import HiMpu.I2cPec
import HiMpu.TransitionSystem

/-!
# The I2C master

`i2c_dw_master.c` between a message and the two FIFOs of the controller.  The interrupt
handler is cut into its accesses to the FIFO registers, and the controller works between
them.
-/

namespace HiMpu.I2cMaster

open I2c TransitionSystem

def eio : ℤ := 5
def ebusy : ℤ := 16
def etime : ℤ := 62
def erestartsys : ℤ := 512

abbrev DataCmd := BitVec 16

def icDataCmdWrite : DataCmd := 0x100
def icDataCmdRecv : DataCmd := 0x200
def icDataCmdResatrt : DataCmd := 0x400

def isRead (word : DataCmd) : Bool := word.getLsbD 8
def hasStop (word : DataCmd) : Bool := word.getLsbD 9

def icConMaster : BitVec 16 := 0x1
def icConRestartEn : BitVec 16 := 0x20
def icConSlaveDisable : BitVec 16 := 0x40

structure IrqStatus where
  rxUnder : Bool
  rxOver : Bool
  rxFull : Bool
  txOver : Bool
  txEmpty : Bool
  txAbrt : Bool
  stopDet : Bool
  sclStuckLow : Bool
  other : Bool
deriving DecidableEq

def IrqStatus.active (irq : IrqStatus) : Bool :=
  irq.rxUnder || irq.rxOver || irq.rxFull || irq.txOver || irq.txEmpty || irq.txAbrt ||
    irq.stopDet || irq.sclStuckLow || irq.other

inductive CmdError where
  | notEnable
  | noMsgPtr
  | noActivityInt
  | txAbrt
  | rxUnder
  | rxOver
  | txOver
  | sclStuckLow
  | noMsgRbuf
  | txUnfinished
  | rxUnfinished1
  | rxUnfinished2
  | timeout
  | controllerBusy
deriving DecidableEq

structure Config where
  txFifoDepth : ℕ
  rxFifoDepth : ℕ
  quirks : Quirks
  speed : BitVec 16
  txFifoDepth_pos : 0 < txFifoDepth

def Config.control (cfg : Config) : BitVec 16 :=
  icConMaster ||| icConSlaveDisable ||| icConRestartEn ||| cfg.speed

/-- The fields of `i2c_adapter` that a transfer works on, and its message; `cmdError`
lists the bits that are set, and the next three fields are the bits of `status`. -/
structure Adapter where
  msg : Kmsg
  msgFlags : KmsgFlags
  restartSent : Bool
  msgError : Bool
  cmdError : List CmdError
  writeInProgress : Bool
  readInProgress : Bool
  wait4Completion : Bool
  arbLost : Bool

def Adapter.reinit (a : Adapter) : Adapter :=
  { a with
    cmdError := []
    msgError := false
    restartSent := false
    writeInProgress := false
    readInProgress := false
    wait4Completion := true
    arbLost := false
    msg := { a.msg with rcnt := 0, wcnt := 0, outstanding := 0, flags := a.msgFlags } }

/-- What a step of the loop over a message tells the loop. -/
inductive MasterCode where
  | masterContinue
  | masterBreak
  | masterNext
deriving DecidableEq

def i2cDwMasterIrqXferWriteByte (a : Adapter) : Option (Adapter × DataCmd) :=
  if a.msg.wlen ≤ a.msg.wcnt ∨ a.msg.wbuf.isNone then none
  else
    let cmd := if a.msg.wcnt + 1 = a.msg.wlen ∧ !a.msg.flags.rd then icDataCmdRecv else 0
    let val := a.msg.w a.msg.wcnt
    some ({ a with msg := { a.msg with wcnt := a.msg.wcnt + 1 } }, cmd ||| val.setWidth 16)

def restartCmd (cfg : Config) (a : Adapter) : DataCmd :=
  if a.msg.wcnt ≠ 0 ∧ !a.restartSent then
    if cfg.control &&& icConRestartEn ≠ 0 then icDataCmdResatrt else 0
  else 0

def Adapter.sendRestart (a : Adapter) : Adapter :=
  if a.msg.wcnt ≠ 0 ∧ !a.restartSent then { a with restartSent := true } else a

def i2cDwMasterIrqXferReadByte (cfg : Config) (a : Adapter) : Adapter × DataCmd :=
  let cmd := if a.msg.cmdLen = 1 ∧ !a.msg.flags.recvLen then icDataCmdRecv else 0
  let cmd := cmd ||| restartCmd cfg a
  let a := a.sendRestart
  ({ a with msg := { a.msg with outstanding := a.msg.outstanding + 1 } }, cmd ||| icDataCmdWrite)

def i2cDwMasterIrqXferMsgByte (cfg : Config) (a : Adapter) :
    MasterCode × Adapter × List DataCmd :=
  match i2cDwMasterIrqXferWriteByte a with
  | some (a, word) => (.masterContinue, a, [word])
  | none =>
    if !a.msg.flags.rd then (.masterBreak, a, [])
    else if cfg.rxFifoDepth ≤ a.msg.outstanding then (.masterBreak, a, [])
    else
      let (a, word) := i2cDwMasterIrqXferReadByte cfg a
      (.masterNext, a, [word])

def Adapter.decCmdLen (a : Adapter) : Adapter :=
  { a with msg := { a.msg with cmdLen := a.msg.cmdLen - 1 } }

def i2cDwMasterDmaPrepareWriteByte (a : Adapter) : Option (Adapter × DataCmd) :=
  if a.msg.wlen ≤ a.msg.wcnt then none
  else
    let cmd := if a.msg.wcnt + 1 = a.msg.wlen ∧ !a.msg.flags.rd then icDataCmdRecv else 0
    let val := a.msg.w a.msg.wcnt
    some ({ a with msg := { a.msg with wcnt := a.msg.wcnt + 1 } }, cmd ||| val.setWidth 16)

def i2cDwMasterDmaPrepareReadByte (cfg : Config) (a : Adapter) : Adapter × DataCmd :=
  let cmd := if a.msg.cmdLen = 1 then icDataCmdRecv else 0
  let cmd := cmd ||| restartCmd cfg a
  let a := a.sendRestart
  ({ a with msg := { a.msg with rcnt := a.msg.rcnt + 1 } }, cmd ||| icDataCmdWrite)

def i2cDwMasterDmaPrepareByte (cfg : Config) (a : Adapter) :
    MasterCode × Adapter × List DataCmd :=
  match i2cDwMasterDmaPrepareWriteByte a with
  | some (a, word) => (.masterContinue, a, [word])
  | none =>
    if !a.msg.flags.rd then (.masterBreak, a, [])
    else
      let (a, word) := i2cDwMasterDmaPrepareReadByte cfg a
      (.masterNext, a, [word])

def dmaPrepareLoop (cfg : Config) : ℕ → Adapter → List DataCmd → List DataCmd
  | 0, _, wdata => wdata
  | n + 1, a, wdata =>
    match i2cDwMasterDmaPrepareByte cfg a with
    | (.masterBreak, _, _) => wdata
    | (_, a, words) => dmaPrepareLoop cfg n a.decCmdLen (wdata ++ words)

def i2cDwMasterDmaPrepare (cfg : Config) (a : Adapter) : List DataCmd :=
  dmaPrepareLoop cfg a.msg.cmdLen a []

def i2cDwMasterRecvLength (cfg : Config) (a : Adapter) (len : ℕ) : Adapter :=
  let val := min a.msg.rlen cfg.quirks.maxReadLen
  let tempLen := len + if a.msg.flags.pec then 1 else 0
  { a with
    msgError := a.msgError || decide (val < tempLen)
    msg := { a.msg with
      cmdLen := tempLen - min tempLen a.msg.outstanding
      flags := { a.msg.flags with recvLen := false } } }

def irqReadByte (cfg : Config) (a : Adapter) (val : Byte) : Bool × Adapter :=
  let msg := { a.msg with outstanding := a.msg.outstanding - 1 }
  if msg.rlen ≤ msg.rcnt then (false, { a with msg := msg })
  else
    let msg :=
      { msg with rbuf := some (Function.update msg.r msg.rcnt val), rcnt := msg.rcnt + 1 }
    if !msg.flags.recvLen then (true, { a with msg := msg })
    else (true, i2cDwMasterRecvLength cfg { a with msg := msg } val.toNat)

/-- Where the transfer stands: before the controller is enabled, outside the handler, or
before the named access of the handler. -/
inductive Pc where
  | start
  | idle
  | read (irq : IrqStatus) (left : ℕ)
  | txflr (irq : IrqStatus)
  | rxflr (irq : IrqStatus) (wlimit : ℤ)
  | loop (irq : IrqStatus) (wlimit rlimit : ℤ)
  | complete (irq : IrqStatus)
deriving DecidableEq

/-- The transfer of a message by `i2c_xfer`.  `shift` is the word that the controller is
executing, `quick` the pending word of a quick command, `stopDet`, `txAbrt` and `arbLost`
are raw interrupt bits and the abort source; `written` are the words that the handler has
written in this try, and `answered` the bytes that the slave has sent in it. -/
structure Master where
  adap : Adapter
  txFifo : List DataCmd
  shift : Option DataCmd
  quick : Bool
  rxFifo : List Byte
  stopDet : Bool
  txAbrt : Bool
  arbLost : Bool
  pc : Pc
  written : List DataCmd
  answered : List Byte
  cmdRlen : ℕ
  tries : ℕ
  result : Option ℤ

def i2cDwMasterIrqErrors (enable msg : Bool) (irq : IrqStatus) : List CmdError :=
  if !enable then [.notEnable]
  else if !msg then [.noMsgPtr]
  else if !irq.active then [.noActivityInt]
  else if irq.txAbrt then [.txAbrt]
  else if irq.rxUnder then [.rxUnder]
  else if irq.rxOver then [.rxOver]
  else if irq.txOver then [.txOver]
  else if irq.sclStuckLow then [.sclStuckLow]
  else []

def Master.addError (s : Master) (errors : List CmdError) : Master :=
  { s with adap := { s.adap with cmdError := s.adap.cmdError ++ errors } }

def Master.afterRead (s : Master) (irq : IrqStatus) : Master :=
  if !s.adap.msgError ∧ irq.txEmpty then { s with pc := .txflr irq }
  else { s with pc := .complete irq }

def Master.rcIntrbits (s : Master) (irq : IrqStatus) : Master :=
  { s with
    stopDet := s.stopDet && !irq.stopDet
    txAbrt := s.txAbrt && !irq.txAbrt
    adap := { s.adap with arbLost := if irq.txAbrt then s.arbLost else s.adap.arbLost } }

def Master.irqHandler (s : Master) (irq : IrqStatus) : Master :=
  let cmdErrors := i2cDwMasterIrqErrors true true irq
  if cmdErrors ≠ [] then { s.addError cmdErrors with pc := .complete irq }
  else if irq.rxFull then
    if s.adap.msg.rbuf.isNone then { s.addError [.noMsgRbuf] with pc := .complete irq }
    else { s with pc := .read irq s.rxFifo.length }
  else s.afterRead irq

def Master.readEnd (s : Master) (irq : IrqStatus) : Master :=
  { s with adap := { s.adap with readInProgress := 0 < s.adap.msg.cmdLen } }.afterRead irq

def Master.xferMsgEnd (s : Master) (irq : IrqStatus) : Master :=
  { s with
    adap := { s.adap with
      writeInProgress := decide (0 < s.adap.msg.cmdLen) || s.adap.msg.flags.recvLen }
    pc := .complete irq }

/-- Words that are written while the FIFO is held flushed are lost. -/
def Master.write (s : Master) (words : List DataCmd) : Master :=
  { s with
    txFifo := s.txFifo ++ if s.txAbrt then [] else words
    written := s.written ++ words }

def Master.txflr (s : Master) : ℕ := s.txFifo.length + if s.quick then 1 else 0

def Master.xferMsgStep (cfg : Config) (s : Master) (irq : IrqStatus) (wlimit rlimit : ℤ) : Master :=
  if 0 < s.adap.msg.cmdLen ∧ 0 < wlimit ∧ 0 < rlimit then
    match i2cDwMasterIrqXferMsgByte cfg s.adap with
    | (.masterBreak, a, _) => { s with adap := a }.xferMsgEnd irq
    | (.masterContinue, a, words) =>
      { s.write words with adap := a.decCmdLen, pc := .loop irq (wlimit - 1) rlimit }
    | (.masterNext, a, words) =>
      { s.write words with adap := a.decCmdLen, pc := .loop irq (wlimit - 1) (rlimit - 1) }
  else s.xferMsgEnd irq

def Master.irqXferComplete (s : Master) (irq : IrqStatus) : Master :=
  if irq.stopDet ∨ s.adap.cmdError ≠ [] ∨ s.adap.msgError then
    let s := if s.txflr ≠ 0 then s.addError [.txUnfinished] else s
    let s := if s.rxFifo.length ≠ 0 then s.addError [.rxUnfinished1] else s
    let s := if s.adap.msg.outstanding ≠ 0 then s.addError [.rxUnfinished2] else s
    { s with adap := { s.adap with wait4Completion := false }, pc := .idle }
  else { s with pc := .idle }

def Master.cpu (cfg : Config) (s : Master) : Option Master :=
  match s.pc with
  | .start | .idle => none
  | .read irq 0 => some (s.readEnd irq)
  | .read irq (left + 1) =>
    match s.rxFifo with
    | [] => none
    | val :: rest =>
      let (more, a) := irqReadByte cfg s.adap val
      some { s with
        adap := a
        rxFifo := rest
        pc := .read irq (if more then left else 0) }
  | .txflr irq => some { s with pc := .rxflr irq ((cfg.txFifoDepth : ℤ) - s.txflr) }
  | .rxflr irq wlimit =>
    some { s with pc := .loop irq wlimit ((cfg.rxFifoDepth : ℤ) - s.rxFifo.length) }
  | .loop irq wlimit rlimit => some (s.xferMsgStep cfg irq wlimit rlimit)
  | .complete irq => some (s.irqXferComplete irq)

def i2cDwMasterXferResult (a : Adapter) (waitRet : ℤ) : ℤ :=
  if a.msgError then -eio
  else if a.cmdError ≠ [] then
    if .timeout ∈ a.cmdError then -etime
    else if .txAbrt ∈ a.cmdError ∧ a.arbLost then -eagain
    else -eio
  else if a.writeInProgress ∨ a.readInProgress ∨ a.wait4Completion then -eio
  else if waitRet < 0 then waitRet
  else 0

def quickCmd (msg : Kmsg) : Bool := msg.flags.smbus && decide (msg.protocol < 2)

def Master.tryXfer (s : Master) : Master :=
  { s with
    adap := { s.adap with msg := { s.adap.msg with cmdLen := s.adap.msg.wlen + s.cmdRlen } }.reinit
    txFifo := []
    shift := none
    quick := false
    rxFifo := []
    stopDet := false
    txAbrt := false
    pc := .start
    written := []
    answered := []
    tries := s.tries + 1
    result := none }

def i2cXfer (msg : Kmsg) : Master :=
  Master.tryXfer
    { adap :=
        { msg := i2cXferInit msg
          msgFlags := msg.flags
          restartSent := false
          msgError := false
          cmdError := []
          writeInProgress := false
          readInProgress := false
          wait4Completion := false
          arbLost := false }
      txFifo := []
      shift := none
      quick := false
      rxFifo := []
      stopDet := false
      txAbrt := false
      arbLost := false
      pc := .start
      written := []
      answered := []
      cmdRlen := i2cXferRlen msg
      tries := 0
      result := none }

inductive Action where
  | disable (ok : Bool)
  | irq (irq : IrqStatus)
  | cpu
  | fetch
  | execute (val : Byte)
  | quick
  | abort (arbLost stop : Bool)
  | finish (waitRet : ℤ)
  | retry

def next (cfg : Config) (s : Master) : Action → Option Master
  | .disable ok =>
    if s.pc = .start ∧ s.result = none then
      if ok then some { s with quick := quickCmd s.adap.msg, pc := .idle }
      else some { s.addError [.controllerBusy] with result := some (-ebusy), pc := .idle }
    else none
  | .irq irq =>
    if s.pc = .idle ∧ s.result = none ∧ irq.txAbrt = s.txAbrt ∧ (irq.stopDet → s.stopDet) then
      some ((s.rcIntrbits irq).irqHandler irq)
    else none
  | .cpu => s.cpu cfg
  | .fetch =>
    match s.shift, s.txFifo with
    | none, word :: rest => some { s with shift := some word, txFifo := rest }
    | _, _ => none
  | .execute val =>
    match s.shift with
    | none => none
    | some word =>
      let read := if isRead word then [val] else []
      some { s with
        shift := none
        rxFifo := s.rxFifo ++ read
        answered := s.answered ++ read
        stopDet := s.stopDet || hasStop word }
  | .quick => if s.quick then some { s with quick := false, stopDet := true } else none
  | .abort arbLost stop =>
    if s.shift.isSome ∨ s.quick then
      some { s with
        txFifo := []
        shift := none
        quick := false
        txAbrt := true
        arbLost := arbLost
        stopDet := s.stopDet || stop }
    else none
  | .finish waitRet =>
    if s.pc ≠ .start ∧ s.result = none ∧ waitRet ≠ -eagain then
      let s := if s.adap.wait4Completion then s.addError [.timeout] else s
      some { s with result := some (i2cDwMasterXferResult s.adap waitRet) }
    else none
  | .retry =>
    if s.pc = .idle ∧ s.result = some (-eagain) ∧ s.tries < s.adap.msg.retries then
      some s.tryXfer
    else none

def system (cfg : Config) (msg : Kmsg) : TransitionSystem Master Action :=
  ofStep (fun s => s = i2cXfer msg) (next cfg)

end HiMpu.I2cMaster
