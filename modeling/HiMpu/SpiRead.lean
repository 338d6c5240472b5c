import HiMpu.SpiSettings

/-!
# What a read of the SPI character driver returns

`kernspi_read_data` of `drivers/spi/hi_spi.c`, one call from start to end.  While a device is
selected the controller clocks the frames of its transmit FIFO; it puts the frame that comes
back into the receive FIFO in duplex mode, and in EEPROM mode it clocks and keeps CTRLR1 + 1 more
frames after them.  A received frame is known by its place among the frames clocked in the call.
-/

namespace HiMpu.SpiRead

open Hispi (spiChipSelectTotalNum hisiSpiMaxCtl txDataSize rxDataSize spiNonEepromRd txEmpty rxOver
  rxFull spiTrasModeDuplex spiTrasModeEepromRd einval eintr etime etimedout setField
  getLsbD_setField hispiEnableIntr hispiDisableIntr hispiDataLenCheck)

def txFifoSize : ℕ := 32
def rxFifoSize : ℕ := 32
def spiStartReceive : BitVec 16 := 0x5a5a
def sendLineVal : BitVec 32 := 0
def serRegValueNonSlave : BitVec 32 := 0

/-- A frame in the receive FIFO; one from before the call, or read from the empty FIFO, has no
place. -/
structure Frame where
  clock : Option ℕ
  value : BitVec 16

/-- A byte stored in the data buffer, with the place of its frame. -/
structure Cell where
  clock : Option ℕ
  byte : BitVec 8

structure Controller where
  ctrlr0 : BitVec 32
  ctrlr1 : BitVec 32
  rxftlr : BitVec 32
  txftlr : BitVec 32
  imr : BitVec 32
  ser : BitVec 32
  txFifo : List (BitVec 16)
  rxFifo : List Frame
  overflow : Bool
  wWaitFlags : ℕ
  rWaitFlags : ℕ
  rxTextLen : ℕ
  /-- The bytes stored from `rx_text_pos` on. -/
  data : List Cell
  sent : List (BitVec 16)
  clocks : ℕ
  /-- A frame found the receive FIFO full, or was read from it empty. -/
  lost : Bool
  underrun : Bool

def frameLen (c : Controller) : BitVec 32 := c.ctrlr0 &&& 0xf

def wide (c : Controller) : Bool := frameLen c = 0xf

def transMode (c : Controller) : BitVec 32 := c.ctrlr0 >>> 8 &&& 3

def frameValue (slave : ℕ → BitVec 16) (frameLen : BitVec 32) (k : ℕ) : BitVec 16 :=
  BitVec.ofNat 16 ((slave k).toNat % 2 ^ (frameLen.toNat + 1))

def receive (slave : ℕ → BitVec 16) (c : Controller) : Controller :=
  if c.rxFifo.length < rxFifoSize then
    { c with
      rxFifo := c.rxFifo ++ [⟨some c.clocks, frameValue slave (frameLen c) c.clocks⟩]
      clocks := c.clocks + 1 }
  else
    { c with
      overflow := true
      lost := true
      clocks := c.clocks + 1 }

def receiveFrames (slave : ℕ → BitVec 16) : ℕ → Controller → Controller
  | 0, c => c
  | n + 1, c => receiveFrames slave n (receive slave c)

def transmit (f : BitVec 16) (c : Controller) : Controller :=
  { c with sent := c.sent ++ [f] }

def shiftFrames (slave : ℕ → BitVec 16) (duplex : Bool) : List (BitVec 16) → Controller → Controller
  | [], c => c
  | f :: fs, c =>
    let c := transmit f c
    shiftFrames slave duplex fs
      (if duplex then receive slave c else { c with clocks := c.clocks + 1 })

def transfer (slave : ℕ → BitVec 16) (c : Controller) : Controller :=
  if c.ser = 0 then c
  else
    let mode := transMode c
    let c := shiftFrames slave (mode = spiTrasModeDuplex) c.txFifo { c with txFifo := [] }
    if mode = spiTrasModeEepromRd then receiveFrames slave (c.ctrlr1.toNat + 1) c else c

def isr (c : Controller) : BitVec 32 :=
  ((if c.txFifo.length ≤ c.txftlr.toNat then txEmpty else 0) |||
    (if c.overflow then rxOver else 0) |||
    (if c.rxFifo.length > c.rxftlr.toNat then rxFull else 0)) &&& c.imr

def popFrame (c : Controller) : Frame × Controller :=
  match c.rxFifo with
  | [] => (⟨none, 0⟩, { c with underrun := true })
  | f :: rest => (f, { c with rxFifo := rest })

def hispiGetFrameNum (c : Controller) (len : ℕ) : ℕ := if wide c then len / 2 else len

def frameCells (wide : Bool) (f : Frame) : List Cell :=
  if wide then [⟨f.clock, f.value.setWidth 8⟩, ⟨f.clock, (f.value >>> 8).setWidth 8⟩]
  else [⟨f.clock, f.value.setWidth 8⟩]

def readFrames (wide : Bool) : ℕ → Controller → Controller
  | 0, c => c
  | n + 1, c =>
    let (f, c) := popFrame c
    readFrames wide n { c with data := c.data ++ frameCells wide f }

def hispiIrqHandler (c : Controller) : Controller :=
  let irqEnTmp := isr c
  if irqEnTmp &&& txEmpty = txEmpty then
    { c with
      imr := hispiDisableIntr c.imr txEmpty
      wWaitFlags := 0 }
  else if irqEnTmp &&& rxFull = rxFull ∨ irqEnTmp &&& rxOver = rxOver then
    -- with frames of 16 bits the index goes up by two
    let c := readFrames (wide c) (if wide c then (c.rxTextLen + 1) / 2 else c.rxTextLen) c
    { c with
      rxTextLen := 0
      imr := hispiDisableIntr c.imr (rxFull ||| rxOver)
      rWaitFlags := 0 }
  else { c with imr := hispiDisableIntr c.imr irqEnTmp }

inductive WaitEnd
  | woken
  | timeout
  | signal

/-- What a call meets: the frames of the device, what the FIFOs have after the controller was
disabled and enabled again, and how its waits end, of which the second write has its own. -/
structure Env where
  slave : ℕ → BitVec 16
  down : ℤ
  txLeft : List (BitVec 16)
  rxLeft : List (BitVec 16)
  overflowLeft : Bool
  writeWait : Bool → WaitEnd
  idle : Bool → Bool
  readWait : WaitEnd

def restart (env : Env) (c : Controller) : Controller :=
  { c with
    txFifo := env.txLeft
    rxFifo := env.rxLeft.map fun value => ⟨none, value⟩
    overflow := env.overflowLeft }

def hispiReadConfig (env : Env) (readMode : ℤ) (frameNum : ℕ) (c : Controller) : Controller :=
  let mode := if readMode = spiNonEepromRd then spiTrasModeDuplex else spiTrasModeEepromRd
  restart env
    { c with
      ctrlr0 := setField c.ctrlr0 8 9 mode
      ctrlr1 := BitVec.ofNat 32 frameNum - 1
      rxftlr := BitVec.ofNat 32 frameNum - 1
      txftlr := sendLineVal
      imr := hispiDisableIntr c.imr (txEmpty ||| rxFull ||| rxOver) }

def txValue (wide : Bool) (txBuf : Option (ℕ → BitVec 8)) (i : ℕ) : BitVec 16 :=
  match txBuf with
  | none => spiStartReceive
  | some buf => if wide then buf (2 * i + 1) ++ buf (2 * i) else (buf i).setWidth 16

def txValues (wide : Bool) (txBuf : Option (ℕ → BitVec 8)) (len : ℕ) : List (BitVec 16) :=
  (List.range len).map (txValue wide txBuf)

def fillTxFifo (csId : ℕ) (txBuf : Option (ℕ → BitVec 8)) (txLen : ℕ) (c : Controller) :
    Controller :=
  let c := { c with ser := serRegValueNonSlave, wWaitFlags := 1 }
  let txNum := c.txFifo.length
  let len := if txFifoSize - txNum > txLen then txLen else txFifoSize - txNum
  { c with
    txFifo := c.txFifo ++ txValues (wide c) txBuf len
    imr := hispiEnableIntr c.imr txEmpty
    ser := 1#32 <<< csId }

def hispiWrite (env : Env) (dummy : Bool) (csId : ℕ) (txBuf : Option (ℕ → BitVec 8)) (txLen : ℕ)
    (c : Controller) : ℤ × Controller :=
  let c := fillTxFifo csId txBuf txLen c
  match env.writeWait dummy with
  | .signal => (-eintr, c)
  | .timeout => (-etimedout, c)
  | .woken =>
    let c := hispiIrqHandler (transfer env.slave c)
    if c.wWaitFlags ≠ 0 then (-etimedout, c)
    else if env.idle dummy then (0, c)
    else (-etime, c)

def hispiRead (env : Env) (rxLen : ℕ) (c : Controller) : ℤ × Controller :=
  let c := { c with
    data := []
    rxTextLen := rxLen
    rWaitFlags := 1
    imr := hispiEnableIntr c.imr (rxFull ||| rxOver) }
  match env.readWait with
  | .signal => (-eintr, c)
  | .timeout => (-etimedout, c)
  | .woken =>
    let c := if isr c ≠ 0 then hispiIrqHandler c else c
    if c.rWaitFlags ≠ 0 then (-etimedout, c) else (0, c)

def clearLoop : ℕ → ℕ → Controller → Controller
  | 0, _, c => c
  | rounds + 1, rxNum, c =>
    if rxNum = 0 then c else clearLoop rounds c.rxFifo.length (popFrame c).2

def hispiClearRxfifo (c : Controller) : Controller := clearLoop 100 c.rxFifo.length c

structure ReadCall where
  idNull : Bool
  ctrlId : ℕ
  csId : ℕ
  cmd : Option (ℕ → BitVec 8)
  cmdLen : ℕ
  dataNull : Bool
  dataLen : ℕ

def hispiDataRead (gTransmode : ℤ) (env : Env) (call : ReadCall) (c : Controller) :
    ℤ × Controller :=
  let rxFrameNum := hispiGetFrameNum c call.dataLen
  let txFrameNum := hispiGetFrameNum c call.cmdLen
  let c := hispiReadConfig env gTransmode rxFrameNum c
  let (ret, c) := hispiWrite env false call.csId call.cmd txFrameNum c
  if ret ≠ 0 then (ret, c)
  else
    let (ret, c) :=
      if gTransmode = spiNonEepromRd then hispiWrite env true call.csId none rxFrameNum c
      else (0, c)
    if ret ≠ 0 then (ret, c)
    else
      let (ret, c) := hispiRead env call.dataLen c
      (ret, hispiClearRxfifo c)

def hispiReadParaCheck (c : Controller) (call : ReadCall) : ℤ :=
  if call.csId ≥ spiChipSelectTotalNum ∨ call.ctrlId ≥ hisiSpiMaxCtl then -einval
  else if call.cmd.isNone then -einval
  else if call.dataNull then -einval
  else if !hispiDataLenCheck (frameLen c).toNat call.cmdLen txDataSize then -einval
  else if !hispiDataLenCheck (frameLen c).toNat call.dataLen rxDataSize then -einval
  else 0

def Controller.start (c : Controller) : Controller :=
  { c with
    data := []
    sent := []
    clocks := 0
    lost := false
    underrun := false }

def kernspiReadData (gTransmode : ℤ) (env : Env) (call : ReadCall) (c : Controller) :
    ℤ × Controller :=
  let c := c.start
  if call.idNull then (-einval, c)
  else if hispiReadParaCheck c call ≠ 0 then (hispiReadParaCheck c call, c)
  else if env.down ≠ 0 then (env.down, c)
  else hispiDataRead gTransmode env call c

def frameAt (slave : ℕ → BitVec 16) (frameLen : BitVec 32) (k : ℕ) : Frame :=
  ⟨some k, frameValue slave frameLen k⟩

def framesFrom (slave : ℕ → BitVec 16) (frameLen : BitVec 32) (first n : ℕ) : List Frame :=
  (List.range' first n).map (frameAt slave frameLen)

def answer (env : Env) (call : ReadCall) (c : Controller) : List Frame :=
  framesFrom env.slave (frameLen c) (hispiGetFrameNum c call.cmdLen)
    (hispiGetFrameNum c call.dataLen)

def ofCells (cells : List Cell) : ℕ :=
  cells.foldr (fun cell n => cell.byte.toNat + 256 * n) 0

structure Answered (gTransmode : ℤ) (env : Env) (call : ReadCall) (c c' : Controller) : Prop where
  transmitted : c'.sent = txValues (wide c) call.cmd (hispiGetFrameNum c call.cmdLen) ++
    if gTransmode = spiNonEepromRd then
      txValues (wide c) none (hispiGetFrameNum c call.dataLen)
    else []
  filled : c'.data = (answer env call c).flatMap (frameCells (wide c))
  complete : c'.data.length = call.dataLen
  whole : ∀ f ∈ answer env call c, ofCells (frameCells (wide c) f) = f.value.toNat
  noLoss : c'.lost = false
  noUnderrun : c'.underrun = false

section Controller

variable {slave : ℕ → BitVec 16} {c c' : Controller}

structure Clocked (c c' : Controller) : Prop where
  ctrlr0 : c'.ctrlr0 = c.ctrlr0
  wWaitFlags : c'.wWaitFlags = c.wWaitFlags
  received : c.rxFifo <+: c'.rxFifo

theorem Clocked.refl (c : Controller) : Clocked c c :=
  ⟨rfl, rfl, List.prefix_refl _⟩

theorem Clocked.trans {c'' : Controller}
    (h : Clocked c c')
    (h' : Clocked c' c'') :
    Clocked c c'' := by
  constructor
  · exact h'.ctrlr0.trans h.ctrlr0
  · exact h'.wWaitFlags.trans h.wWaitFlags
  · exact h.received.trans h'.received

theorem receive_clocked (slave : ℕ → BitVec 16) (c : Controller) :
    Clocked c (receive slave c) := by
  unfold receive
  split
  · exact ⟨rfl, rfl, List.prefix_append _ _⟩
  · exact ⟨rfl, rfl, List.prefix_refl _⟩

theorem receive_sent (slave : ℕ → BitVec 16) (c : Controller) :
    (receive slave c).sent = c.sent := by
  unfold receive
  split
  · rfl
  · rfl

theorem receiveFrames_clocked (slave : ℕ → BitVec 16) (n : ℕ) (c : Controller) :
    Clocked c (receiveFrames slave n c) := by
  induction n generalizing c with
  | zero => exact Clocked.refl c
  | succ n ih => exact (receive_clocked slave c).trans (ih _)

theorem receiveFrames_sent (slave : ℕ → BitVec 16) (n : ℕ) (c : Controller) :
    (receiveFrames slave n c).sent = c.sent := by
  induction n generalizing c with
  | zero => rfl
  | succ n ih => exact (ih _).trans (receive_sent slave c)

theorem shiftFrames_clocked (slave : ℕ → BitVec 16) (duplex : Bool) (fs : List (BitVec 16))
    (c : Controller) :
    Clocked c (shiftFrames slave duplex fs c) := by
  induction fs generalizing c with
  | nil => exact Clocked.refl c
  | cons f fs ih =>
    refine Clocked.trans ?_ (ih _)
    cases duplex with
    | false => exact ⟨rfl, rfl, List.prefix_refl _⟩
    | true =>
      have hsent : Clocked c (transmit f c) := ⟨rfl, rfl, List.prefix_refl _⟩
      exact hsent.trans (receive_clocked slave _)

theorem shiftFrames_sent (slave : ℕ → BitVec 16) (duplex : Bool) (fs : List (BitVec 16))
    (c : Controller) :
    (shiftFrames slave duplex fs c).sent = c.sent ++ fs := by
  induction fs generalizing c with
  | nil => exact (List.append_nil _).symm
  | cons f fs ih =>
    have hstep : (if duplex then receive slave (transmit f c)
        else { transmit f c with clocks := (transmit f c).clocks + 1 }).sent = c.sent ++ [f] := by
      split
      · exact receive_sent slave _
      · rfl
    unfold shiftFrames
    rw [ih, hstep, List.append_assoc]
    rfl

theorem transfer_clocked (slave : ℕ → BitVec 16) (c : Controller) :
    Clocked c (transfer slave c) := by
  unfold transfer
  have hshift := shiftFrames_clocked slave (transMode c = spiTrasModeDuplex) c.txFifo
    { c with txFifo := [] }
  have hout : Clocked c (shiftFrames slave (transMode c = spiTrasModeDuplex) c.txFifo
      { c with txFifo := [] }) := ⟨hshift.ctrlr0, hshift.wWaitFlags, hshift.received⟩
  split
  · exact Clocked.refl c
  · dsimp only
    split
    · exact hout.trans (receiveFrames_clocked slave _ _)
    · exact hout

theorem transfer_sent (slave : ℕ → BitVec 16)
    (hser : c.ser ≠ 0) :
    (transfer slave c).sent = c.sent ++ c.txFifo := by
  unfold transfer
  rw [if_neg hser]
  dsimp only
  split
  · rw [receiveFrames_sent, shiftFrames_sent]
  · rw [shiftFrames_sent]

theorem transfer_duplex
    (hser : c.ser ≠ 0)
    (hmode : transMode c = spiTrasModeDuplex)
    (htx : c.txFifo ≠ [])
    (hrx : c.rxFifo = []) :
    [frameAt slave (frameLen c) c.clocks] <+: (transfer slave c).rxFifo := by
  have hfirst : ∀ f, (receive slave (transmit f { c with txFifo := [] })).rxFifo =
      [frameAt slave (frameLen c) c.clocks] := by
    intro f
    unfold receive
    rw [if_pos (by simp [transmit, hrx, rxFifoSize])]
    simp [transmit, hrx, frameAt, frameLen]
  obtain ⟨f, fs, hfs⟩ := List.exists_cons_of_ne_nil htx
  unfold transfer
  rw [if_neg hser, hfs]
  have hmodes : ¬ spiTrasModeDuplex = spiTrasModeEepromRd := by decide
  simp only [hmode, if_neg hmodes, decide_true, shiftFrames, if_true]
  rw [← hfirst f]
  exact (shiftFrames_clocked slave true fs _).received

theorem shiftFrames_eeprom (slave : ℕ → BitVec 16) (fs : List (BitVec 16)) (c : Controller) :
    shiftFrames slave false fs c =
      { c with
        sent := c.sent ++ fs
        clocks := c.clocks + fs.length } := by
  induction fs generalizing c with
  | nil => simp [shiftFrames]
  | cons f fs ih =>
    unfold shiftFrames
    rw [ih]
    simp [transmit]
    omega

theorem receiveFrames_room {n : ℕ}
    (hroom : c.rxFifo.length + n ≤ rxFifoSize) :
    receiveFrames slave n c =
      { c with
        rxFifo := c.rxFifo ++ framesFrom slave (frameLen c) c.clocks n
        clocks := c.clocks + n } := by
  induction n generalizing c with
  | zero => simp [receiveFrames, framesFrom]
  | succ n ih =>
    have hone : receive slave c =
        { c with
          rxFifo := c.rxFifo ++ [frameAt slave (frameLen c) c.clocks]
          clocks := c.clocks + 1 } := by
      unfold receive
      rw [if_pos (by omega)]
      rfl
    unfold receiveFrames
    rw [hone, ih (by simp; omega)]
    simp [framesFrom, List.range'_succ, frameLen]
    omega

theorem transfer_eeprom (slave : ℕ → BitVec 16)
    (hser : c.ser ≠ 0)
    (hmode : transMode c = spiTrasModeEepromRd)
    (hrx : c.rxFifo = [])
    (hroom : c.ctrlr1.toNat + 1 ≤ rxFifoSize) :
    transfer slave c =
      { c with
        txFifo := []
        rxFifo := framesFrom slave (frameLen c) (c.clocks + c.txFifo.length) (c.ctrlr1.toNat + 1)
        sent := c.sent ++ c.txFifo
        clocks := c.clocks + c.txFifo.length + (c.ctrlr1.toNat + 1) } := by
  have hmodes : ¬ spiTrasModeEepromRd = spiTrasModeDuplex := by decide
  unfold transfer
  rw [if_neg hser]
  simp only [hmode, if_true, hmodes, decide_false]
  rw [shiftFrames_eeprom, receiveFrames_room (by simpa [hrx] using hroom)]
  simp [hrx, frameLen]

structure Kept (c c' : Controller) : Prop where
  wWaitFlags : c'.wWaitFlags = c.wWaitFlags
  sent : c'.sent = c.sent
  data : c.data <+: c'.data

theorem Kept.trans {c'' : Controller}
    (h : Kept c c')
    (h' : Kept c' c'') :
    Kept c c'' := by
  constructor
  · exact h'.wWaitFlags.trans h.wWaitFlags
  · exact h'.sent.trans h.sent
  · exact h.data.trans h'.data

theorem popFrame_kept (c : Controller) : Kept c (popFrame c).2 := by
  unfold popFrame
  split
  · exact ⟨rfl, rfl, List.prefix_refl _⟩
  · exact ⟨rfl, rfl, List.prefix_refl _⟩

theorem popFrame_data (c : Controller) : (popFrame c).2.data = c.data := by
  unfold popFrame
  split
  · rfl
  · rfl

theorem readFrames_succ (wide : Bool) (n : ℕ) (c : Controller) :
    readFrames wide (n + 1) c =
      readFrames wide n { (popFrame c).2 with
        data := c.data ++ frameCells wide (popFrame c).1 } := by
  rw [← popFrame_data c]
  rfl

theorem readFrames_kept (wide : Bool) (n : ℕ) (c : Controller) :
    Kept c (readFrames wide n c) := by
  induction n generalizing c with
  | zero => exact ⟨rfl, rfl, List.prefix_refl _⟩
  | succ n ih =>
    have hpop := popFrame_kept c
    have hstored : Kept c { (popFrame c).2 with
        data := c.data ++ frameCells wide (popFrame c).1 } :=
      ⟨hpop.wWaitFlags, hpop.sent, List.prefix_append _ _⟩
    rw [readFrames_succ]
    exact hstored.trans (ih _)

theorem readFrames_head (wide : Bool) (n : ℕ)
    (hdata : c.data = []) :
    (readFrames wide (n + 1) c).data.head?.map Cell.clock = some (popFrame c).1.clock := by
  have hfirst := (readFrames_kept wide n { (popFrame c).2 with
    data := c.data ++ frameCells wide (popFrame c).1 }).data
  rw [readFrames_succ]
  obtain ⟨rest, hrest⟩ := hfirst
  rw [← hrest, hdata]
  cases wide with
  | false => rfl
  | true => rfl

theorem readFrames_enough (wide : Bool) {fs rest : List Frame}
    (hrx : c.rxFifo = fs ++ rest) :
    readFrames wide fs.length c =
      { c with
        rxFifo := rest
        data := c.data ++ fs.flatMap (frameCells wide) } := by
  induction fs generalizing c with
  | nil =>
    have hrest : c.rxFifo = rest := hrx
    subst hrest
    simp [readFrames]
  | cons f fs ih =>
    have hpop : popFrame c = (f, { c with rxFifo := fs ++ rest }) := by
      unfold popFrame
      rw [hrx]
      rfl
    simp only [List.length_cons, readFrames, hpop]
    rw [ih rfl]
    simp

end Controller

def written (env : Env) (csId : ℕ) (txBuf : Option (ℕ → BitVec 8)) (txLen : ℕ) (c : Controller) :
    Controller :=
  let c := transfer env.slave (fillTxFifo csId txBuf txLen c)
  { c with
    imr := hispiDisableIntr c.imr txEmpty
    wWaitFlags := 0 }

def receiving (rxLen : ℕ) (c : Controller) : Controller :=
  { c with
    data := []
    rxTextLen := rxLen
    rWaitFlags := 1
    imr := hispiEnableIntr c.imr (rxFull ||| rxOver) }

def stored (rxLen : ℕ) (c : Controller) : Controller :=
  let c := readFrames (wide c) (if wide c then (rxLen + 1) / 2 else rxLen) (receiving rxLen c)
  { c with
    rxTextLen := 0
    imr := hispiDisableIntr c.imr (rxFull ||| rxOver)
    rWaitFlags := 0 }

section Driver

variable {env : Env} {gTransmode : ℤ} {call : ReadCall} {c : Controller}

theorem clearLoop_kept (rounds rxNum : ℕ) (c : Controller) :
    Kept c (clearLoop rounds rxNum c) := by
  induction rounds generalizing rxNum c with
  | zero => exact ⟨rfl, rfl, List.prefix_refl _⟩
  | succ rounds ih =>
    unfold clearLoop
    split
    · exact ⟨rfl, rfl, List.prefix_refl _⟩
    · exact (popFrame_kept c).trans (ih _ _)

theorem clearLoop_data (rounds rxNum : ℕ) (c : Controller) :
    (clearLoop rounds rxNum c).data = c.data := by
  induction rounds generalizing rxNum c with
  | zero => rfl
  | succ rounds ih =>
    unfold clearLoop
    split
    · rfl
    · rw [ih, popFrame_data]

theorem hispiClearRxfifo_empty
    (hrx : c.rxFifo = []) :
    hispiClearRxfifo c = c := by
  simp [hispiClearRxfifo, clearLoop, hrx]

theorem hispiIrqHandler_written
    (hflag : c.wWaitFlags ≠ 0)
    (h : (hispiIrqHandler c).wWaitFlags = 0) :
    hispiIrqHandler c =
      { c with
        imr := hispiDisableIntr c.imr txEmpty
        wWaitFlags := 0 } := by
  unfold hispiIrqHandler at h ⊢
  by_cases hempty : isr c &&& txEmpty = txEmpty
  · simp only [hempty, if_true]
  · simp only [hempty, if_false] at h
    split at h
    · exact absurd ((readFrames_kept _ _ c).wWaitFlags.symm.trans h) hflag
    · exact absurd h hflag

theorem hispiIrqHandler_read
    (hflag : c.rWaitFlags ≠ 0)
    (h : (hispiIrqHandler c).rWaitFlags = 0) :
    hispiIrqHandler c =
      { readFrames (wide c) (if wide c then (c.rxTextLen + 1) / 2 else c.rxTextLen) c with
        rxTextLen := 0
        imr := hispiDisableIntr (readFrames (wide c)
          (if wide c then (c.rxTextLen + 1) / 2 else c.rxTextLen) c).imr (rxFull ||| rxOver)
        rWaitFlags := 0 } := by
  unfold hispiIrqHandler at h ⊢
  by_cases hempty : isr c &&& txEmpty = txEmpty
  · simp only [hempty, if_true] at h
    exact absurd h hflag
  · simp only [hempty, if_false] at h ⊢
    split at h
    next hfull => rw [if_pos hfull]
    next => exact absurd h hflag

theorem hispiWrite_done {dummy : Bool} {csId : ℕ} {txBuf : Option (ℕ → BitVec 8)} {txLen : ℕ}
    (h : (hispiWrite env dummy csId txBuf txLen c).1 = 0) :
    (hispiWrite env dummy csId txBuf txLen c).2 = written env csId txBuf txLen c := by
  have hflag : (transfer env.slave (fillTxFifo csId txBuf txLen c)).wWaitFlags ≠ 0 := by
    rw [(transfer_clocked env.slave _).wWaitFlags]
    exact one_ne_zero
  unfold hispiWrite at h ⊢
  cases hwait : env.writeWait dummy with
  | signal => simp [hwait, eintr] at h
  | timeout => simp [hwait, etimedout] at h
  | woken =>
    simp only [hwait] at h ⊢
    by_cases hhandled :
        (hispiIrqHandler (transfer env.slave (fillTxFifo csId txBuf txLen c))).wWaitFlags = 0
    · have hacked := hispiIrqHandler_written hflag hhandled
      simp only [hhandled, ne_eq, not_true, if_false] at h ⊢
      split
      · exact hacked
      · exact hacked
    · simp [hhandled, etimedout] at h

theorem hispiRead_done {rxLen : ℕ}
    (h : (hispiRead env rxLen c).1 = 0) :
    (hispiRead env rxLen c).2 = stored rxLen c := by
  have hbegin : hispiRead env rxLen c =
      match env.readWait with
      | .signal => (-eintr, receiving rxLen c)
      | .timeout => (-etimedout, receiving rxLen c)
      | .woken =>
        let c := if isr (receiving rxLen c) ≠ 0 then hispiIrqHandler (receiving rxLen c)
          else receiving rxLen c
        if c.rWaitFlags ≠ 0 then (-etimedout, c) else (0, c) := rfl
  have hflag : (receiving rxLen c).rWaitFlags ≠ 0 := one_ne_zero
  rw [hbegin] at h ⊢
  cases hwait : env.readWait with
  | signal => simp [hwait, eintr] at h
  | timeout => simp [hwait, etimedout] at h
  | woken =>
    simp only [hwait] at h ⊢
    by_cases hisr : isr (receiving rxLen c) = 0
    · simp [hisr, hflag, etimedout] at h
    · simp only [ne_eq, hisr, not_false_eq_true, if_true] at h ⊢
      by_cases hstored : (hispiIrqHandler (receiving rxLen c)).rWaitFlags = 0
      · simp only [hstored, not_true, if_false]
        exact hispiIrqHandler_read hflag hstored
      · simp [hstored, etimedout] at h

def answered (gTransmode : ℤ) (env : Env) (call : ReadCall) (c : Controller) : Controller :=
  let commanded := written env call.csId call.cmd (hispiGetFrameNum c call.cmdLen)
    (hispiReadConfig env gTransmode (hispiGetFrameNum c call.dataLen) c)
  if gTransmode = spiNonEepromRd then
    written env call.csId none (hispiGetFrameNum c call.dataLen) commanded
  else commanded

theorem hispiDataRead_done
    (h : (hispiDataRead gTransmode env call c).1 = 0) :
    (hispiDataRead gTransmode env call c).2 =
      hispiClearRxfifo (stored call.dataLen (answered gTransmode env call c)) := by
  unfold hispiDataRead at h ⊢
  unfold answered
  dsimp only at h ⊢
  by_cases hwrite : (hispiWrite env false call.csId call.cmd (hispiGetFrameNum c call.cmdLen)
      (hispiReadConfig env gTransmode (hispiGetFrameNum c call.dataLen) c)).1 = 0
  · rw [if_neg (not_not.mpr hwrite)] at h ⊢
    rw [hispiWrite_done hwrite] at h ⊢
    by_cases hmode : gTransmode = spiNonEepromRd
    · simp only [hmode, if_true] at h ⊢
      split at h
      next hdummy => exact absurd h hdummy
      next hdummy =>
        rw [if_neg hdummy]
        rw [hispiWrite_done (not_not.mp hdummy)] at h ⊢
        rw [hispiRead_done h]
    · simp only [hmode, if_false, ne_eq, not_true] at h ⊢
      rw [hispiRead_done h]
  · rw [if_pos hwrite] at h
    exact absurd h hwrite

theorem kernspiReadData_done
    (h : (kernspiReadData gTransmode env call c).1 = 0) :
    (kernspiReadData gTransmode env call c).2 =
      hispiClearRxfifo (stored call.dataLen (answered gTransmode env call c.start)) := by
  unfold kernspiReadData at h ⊢
  dsimp only at h ⊢
  split at h
  next => simp [einval] at h
  next hid =>
    rw [if_neg hid]
    split at h
    next hcheck => exact absurd h hcheck
    next hcheck =>
      rw [if_neg hcheck]
      split at h
      next hdown => exact absurd h hdown
      next hdown =>
        rw [if_neg hdown]
        exact hispiDataRead_done h

theorem kernspiReadData_checked
    (h : (kernspiReadData gTransmode env call c).1 = 0) :
    call.csId < spiChipSelectTotalNum ∧
      hispiDataLenCheck (frameLen c).toNat call.cmdLen txDataSize = true ∧
      hispiDataLenCheck (frameLen c).toNat call.dataLen rxDataSize = true := by
  have hcheck : hispiReadParaCheck c.start call = 0 := by
    unfold kernspiReadData at h
    dsimp only at h
    split at h
    next => simp [einval] at h
    next =>
      by_contra hcheck
      rw [if_pos hcheck] at h
      exact hcheck h
  have hnum : -einval ≠ 0 := by decide
  unfold hispiReadParaCheck at hcheck
  split at hcheck
  next => exact absurd hcheck hnum
  next hid =>
    split at hcheck
    next => exact absurd hcheck hnum
    next =>
      split at hcheck
      next => exact absurd hcheck hnum
      next =>
        split at hcheck
        next => exact absurd hcheck hnum
        next htx =>
          split at hcheck
          next => exact absurd hcheck hnum
          next hrx =>
            simp only [Bool.not_eq_true, Bool.not_eq_false'] at htx hrx
            exact ⟨not_le.mp fun hcs => hid (Or.inl hcs), htx, hrx⟩

theorem hispiGetFrameNum_checked {len max : ℕ}
    (h : hispiDataLenCheck (frameLen c).toNat len max = true) :
    0 < hispiGetFrameNum c len ∧ hispiGetFrameNum c len ≤ max ∧
      (if wide c then (len + 1) / 2 else len) = hispiGetFrameNum c len ∧
      len = hispiGetFrameNum c len * if wide c then 2 else 1 := by
  have heven : wide c = true → len % 2 = 0 := by
    intro hwide
    have hframe : frameLen c = 0xf := of_decide_eq_true hwide
    exact Hispi.hispiDataLenCheck_even h (by rw [hframe]; rfl)
  have hbounds : len ≠ 0 ∧ len ≤ max := by
    simp only [hispiDataLenCheck, Bool.and_eq_true, Bool.not_eq_true', Bool.or_eq_false_iff,
      decide_eq_false_iff_not] at h
    exact ⟨h.1.1, not_lt.mp h.1.2⟩
  unfold hispiGetFrameNum
  cases hwide : wide c with
  | false => exact ⟨Nat.pos_of_ne_zero hbounds.1, hbounds.2, rfl, (Nat.mul_one len).symm⟩
  | true =>
    have hmod := heven hwide
    simp only [if_true]
    omega

theorem hispiReadConfig_frameLen (frameNum : ℕ) :
    frameLen (hispiReadConfig env gTransmode frameNum c) = frameLen c :=
  SpiSettings.size_setField_of_lt (by decide) (by decide) (by decide) _ _

theorem mode_setField (v x : BitVec 32) : setField v 8 9 x >>> 8 &&& 3 = x &&& 3 := by
  apply BitVec.eq_of_getLsbD_eq
  intro i _
  rw [BitVec.getLsbD_and, BitVec.getLsbD_and, BitVec.getLsbD_ushiftRight,
    getLsbD_setField (by decide) (by decide)]
  by_cases hi : i < 2
  · rw [if_pos (by omega), Nat.add_sub_cancel_left]
  · have hmask : (3 : BitVec 32).getLsbD i = false := by
      rw [show (3 : BitVec 32) = BitVec.ofNat 32 (2 ^ 2 - 1) from rfl, BitVec.getLsbD_ofNat,
        Nat.testBit_two_pow_sub_one, decide_eq_false hi, Bool.and_false]
    rw [hmask, Bool.and_false, Bool.and_false]

theorem hispiReadConfig_transMode (env : Env) (frameNum : ℕ) :
    transMode (hispiReadConfig env gTransmode frameNum c) =
      if gTransmode = spiNonEepromRd then spiTrasModeDuplex else spiTrasModeEepromRd := by
  have hmode := mode_setField c.ctrlr0
    (if gTransmode = spiNonEepromRd then spiTrasModeDuplex else spiTrasModeEepromRd)
  refine Eq.trans hmode ?_
  split
  · rfl
  · rfl

theorem fillTxFifo_ser {csId : ℕ} (txBuf : Option (ℕ → BitVec 8)) (txLen : ℕ)
    (hcs : csId < spiChipSelectTotalNum) :
    (fillTxFifo csId txBuf txLen c).ser ≠ 0 := by
  have hbit : 1#32 <<< csId ≠ 0 := by
    have hcs' : csId < 2 := hcs
    interval_cases csId
    · decide
    · decide
  exact hbit

theorem written_ctrlr0 (csId : ℕ) (txBuf : Option (ℕ → BitVec 8)) (txLen : ℕ) :
    (written env csId txBuf txLen c).ctrlr0 = c.ctrlr0 :=
  (transfer_clocked env.slave (fillTxFifo csId txBuf txLen c)).ctrlr0

theorem written_received (csId : ℕ) (txBuf : Option (ℕ → BitVec 8)) (txLen : ℕ) :
    c.rxFifo <+: (written env csId txBuf txLen c).rxFifo :=
  (transfer_clocked env.slave (fillTxFifo csId txBuf txLen c)).received

theorem fillTxFifo_txFifo (csId : ℕ) (txBuf : Option (ℕ → BitVec 8)) (txLen : ℕ) :
    (fillTxFifo csId txBuf txLen c).txFifo =
      c.txFifo ++ txValues (wide c) txBuf (min txLen (txFifoSize - c.txFifo.length)) := by
  have hlen : (if txFifoSize - c.txFifo.length > txLen then txLen
      else txFifoSize - c.txFifo.length) = min txLen (txFifoSize - c.txFifo.length) := by
    split
    · omega
    · omega
  rw [← hlen]
  rfl

theorem written_sent {csId : ℕ} (txBuf : Option (ℕ → BitVec 8)) (txLen : ℕ)
    (hcs : csId < spiChipSelectTotalNum) :
    (written env csId txBuf txLen c).sent =
      c.sent ++ (c.txFifo ++
        txValues (wide c) txBuf (min txLen (txFifoSize - c.txFifo.length))) := by
  rw [← fillTxFifo_txFifo csId]
  exact transfer_sent env.slave (fillTxFifo_ser txBuf txLen hcs)

theorem answered_frameLen :
    frameLen (answered gTransmode env call c) = frameLen c := by
  unfold answered frameLen
  dsimp only
  split
  · rw [written_ctrlr0, written_ctrlr0]
    exact hispiReadConfig_frameLen _
  · rw [written_ctrlr0]
    exact hispiReadConfig_frameLen _

theorem answered_wide : wide (answered gTransmode env call c) = wide c := by
  unfold wide
  rw [answered_frameLen]

theorem answered_received {fs : List Frame}
    (h : fs <+: (written env call.csId call.cmd (hispiGetFrameNum c call.cmdLen)
      (hispiReadConfig env gTransmode (hispiGetFrameNum c call.dataLen) c)).rxFifo) :
    fs <+: (answered gTransmode env call c).rxFifo := by
  unfold answered
  dsimp only
  split
  · exact h.trans (written_received _ _ _)
  · exact h

theorem fillTxFifo_ne_nil (csId : ℕ) (txBuf : Option (ℕ → BitVec 8)) {txLen : ℕ}
    (hlen : 0 < txLen) :
    (fillTxFifo csId txBuf txLen c).txFifo ≠ [] := by
  intro hnil
  have hlength := congrArg List.length hnil
  rw [fillTxFifo_txFifo] at hlength
  simp only [txValues, txFifoSize, List.length_append, List.length_map, List.length_range,
    List.length_nil] at hlength
  omega

theorem fillTxFifo_clean (csId : ℕ) (txBuf : Option (ℕ → BitVec 8)) {txLen : ℕ}
    (htxFifo : c.txFifo = [])
    (hlen : txLen ≤ txDataSize) :
    fillTxFifo csId txBuf txLen c =
      { c with
        wWaitFlags := 1
        txFifo := txValues (wide c) txBuf txLen
        imr := hispiEnableIntr c.imr txEmpty
        ser := 1#32 <<< csId } := by
  have hmin : min txLen (txFifoSize - ([] : List (BitVec 16)).length) = txLen :=
    Nat.min_eq_left (hlen.trans (by decide))
  have hfifo := fillTxFifo_txFifo (c := c) csId txBuf txLen
  rw [htxFifo, hmin] at hfifo
  rw [← List.nil_append (txValues (wide c) txBuf txLen), ← hfifo]
  rfl

theorem written_eeprom (env : Env) {csId : ℕ} (txBuf : Option (ℕ → BitVec 8)) {txLen : ℕ}
    (hcs : csId < spiChipSelectTotalNum)
    (hmode : transMode c = spiTrasModeEepromRd)
    (htxFifo : c.txFifo = [])
    (hrxFifo : c.rxFifo = [])
    (hlen : txLen ≤ txDataSize)
    (hroom : c.ctrlr1.toNat + 1 ≤ rxFifoSize) :
    ∃ imr, written env csId txBuf txLen c =
      { c with
        imr := imr
        ser := 1#32 <<< csId
        txFifo := []
        rxFifo := framesFrom env.slave (frameLen c) (c.clocks + txLen) (c.ctrlr1.toNat + 1)
        wWaitFlags := 0
        sent := c.sent ++ txValues (wide c) txBuf txLen
        clocks := c.clocks + txLen + (c.ctrlr1.toNat + 1) } := by
  have hfill := fillTxFifo_clean csId txBuf htxFifo hlen
  have hvalues : (txValues (wide c) txBuf txLen).length = txLen := by
    simp [txValues]
  have htransfer := transfer_eeprom env.slave (fillTxFifo_ser txBuf txLen hcs)
    hmode hrxFifo hroom
  unfold written
  rw [htransfer, hfill]
  simp only [hvalues]
  exact ⟨_, rfl⟩

theorem answered_eeprom
    (hmode : gTransmode ≠ spiNonEepromRd)
    (hleft : env.txLeft = [] ∧ env.rxLeft = [])
    (hcs : call.csId < spiChipSelectTotalNum)
    (htx : hispiGetFrameNum c call.cmdLen ≤ txDataSize)
    (hrx : 0 < hispiGetFrameNum c call.dataLen ∧ hispiGetFrameNum c call.dataLen ≤ rxDataSize)
    (hclocks : c.clocks = 0) :
    (answered gTransmode env call c).rxFifo = answer env call c ∧
      (answered gTransmode env call c).sent =
        c.sent ++ txValues (wide c) call.cmd (hispiGetFrameNum c call.cmdLen) ∧
      (answered gTransmode env call c).lost = c.lost ∧
      (answered gTransmode env call c).underrun = c.underrun := by
  let configured := hispiReadConfig env gTransmode (hispiGetFrameNum c call.dataLen) c
  have hframeLen : frameLen configured = frameLen c := hispiReadConfig_frameLen _
  have hwide : wide configured = wide c := by
    unfold wide
    rw [hframeLen]
  have hrx' : hispiGetFrameNum c call.dataLen ≤ 24 := hrx.2
  have hcount : configured.ctrlr1.toNat + 1 = hispiGetFrameNum c call.dataLen := by
    have hctrlr1 : configured.ctrlr1 = BitVec.ofNat 32 (hispiGetFrameNum c call.dataLen) - 1 := rfl
    rw [hctrlr1]
    bv_omega
  have hclean : configured.rxFifo = [] := by
    have hrestart : configured.rxFifo = env.rxLeft.map fun value => ⟨none, value⟩ := rfl
    rw [hrestart, hleft.2]
    rfl
  have htransMode : transMode configured = spiTrasModeEepromRd :=
    (hispiReadConfig_transMode env _).trans (if_neg hmode)
  have hroom : configured.ctrlr1.toNat + 1 ≤ rxFifoSize := by
    rw [hcount]
    exact hrx'.trans (by decide)
  obtain ⟨imr, hwritten⟩ := written_eeprom env call.cmd hcs htransMode hleft.1 hclean htx
    hroom
  have hfirst : configured.clocks = 0 := hclocks
  unfold answered
  dsimp only
  rw [if_neg hmode, hwritten, hframeLen, hwide, hcount, hfirst, Nat.zero_add]
  exact ⟨rfl, rfl, rfl, rfl⟩

theorem stored_all {rxLen : ℕ}
    (hlen : (if wide c then (rxLen + 1) / 2 else rxLen) = c.rxFifo.length) :
    ∃ imr, stored rxLen c =
      { c with
        rxTextLen := 0
        imr := imr
        rWaitFlags := 0
        rxFifo := []
        data := c.rxFifo.flatMap (frameCells (wide c)) } := by
  have hall : (receiving rxLen c).rxFifo = c.rxFifo ++ [] := (List.append_nil _).symm
  have hread := readFrames_enough (wide c) hall
  unfold stored
  rw [hlen, hread]
  exact ⟨_, rfl⟩

theorem stored_sent (rxLen : ℕ) (c : Controller) : (stored rxLen c).sent = c.sent :=
  (readFrames_kept (wide c) _ (receiving rxLen c)).sent

theorem popFrame_fst (c : Controller) : (popFrame c).1 = c.rxFifo.headD ⟨none, 0⟩ := by
  unfold popFrame
  cases c.rxFifo with
  | nil => rfl
  | cons f fs => rfl

theorem popFrame_of_prefix {f : Frame} {fs : List Frame}
    (h : f :: fs <+: c.rxFifo) :
    (popFrame c).1 = f := by
  obtain ⟨rest, hrest⟩ := h
  rw [popFrame_fst, ← hrest]
  rfl

theorem stored_head {rxLen : ℕ}
    (hlen : 0 < if wide c then (rxLen + 1) / 2 else rxLen) :
    (stored rxLen c).data.head?.map Cell.clock = some (popFrame c).1.clock := by
  obtain ⟨n, hn⟩ := Nat.exists_eq_succ_of_ne_zero hlen.ne'
  have hhead := readFrames_head (wide c) n (c := receiving rxLen c) rfl
  unfold stored
  rw [hn]
  refine hhead.trans ?_
  rw [popFrame_fst, popFrame_fst]
  rfl

end Driver

section Answer

variable {env : Env} {gTransmode : ℤ} {call : ReadCall} {c : Controller}

theorem ofCells_frameCells (wide : Bool) (f : Frame) :
    ofCells (frameCells wide f) = f.value.toNat ↔ wide = true ∨ f.value.toNat < 256 := by
  have hvalue : f.value.toNat < 2 ^ 16 := f.value.isLt
  cases wide with
  | false =>
    have hbyte : ofCells (frameCells false f) = f.value.toNat % 256 := by
      simp [ofCells, frameCells]
    rw [hbyte]
    constructor
    · intro h
      right
      omega
    · intro h
      have hlt := h.resolve_left Bool.false_ne_true
      omega
  | true =>
    have hbytes : ofCells (frameCells true f) =
        f.value.toNat % 256 + 256 * (f.value.toNat / 256 % 256) := by
      simp [ofCells, frameCells, Nat.shiftRight_eq_div_pow]
    rw [hbytes]
    constructor
    · intro _
      exact Or.inl rfl
    · intro _
      omega

theorem answer_head (env : Env)
    (h : 0 < hispiGetFrameNum c call.dataLen) :
    (((answer env call c).flatMap (frameCells (wide c))).head?).map Cell.clock =
      some (some (hispiGetFrameNum c call.cmdLen)) := by
  obtain ⟨n, hn⟩ := Nat.exists_eq_succ_of_ne_zero h.ne'
  unfold answer framesFrom
  rw [hn, List.range'_succ, List.map_cons, List.flatMap_cons]
  cases wide c with
  | false => rfl
  | true => rfl

theorem answer_length :
    (answer env call c).length = hispiGetFrameNum c call.dataLen := by
  simp [answer, framesFrom]

theorem cells_length (wide : Bool) (fs : List Frame) :
    (fs.flatMap (frameCells wide)).length = fs.length * if wide then 2 else 1 := by
  induction fs with
  | nil => simp
  | cons f fs ih =>
    have hcells : (frameCells wide f).length = if wide then 2 else 1 := by
      cases wide with
      | false => rfl
      | true => rfl
    rw [List.flatMap_cons, List.length_append, ih, hcells, List.length_cons, Nat.succ_mul,
      Nat.add_comm]

theorem Answered.head
    (h : Answered gTransmode env call c (kernspiReadData gTransmode env call c).2)
    (hret : (kernspiReadData gTransmode env call c).1 = 0) :
    (popFrame (answered gTransmode env call c.start)).1.clock =
      some (hispiGetFrameNum c call.cmdLen) := by
  have hwide : wide (answered gTransmode env call c.start) = wide c := answered_wide
  obtain ⟨hpos, -, hlen, -⟩ := hispiGetFrameNum_checked (kernspiReadData_checked hret).2.2
  have hcount : 0 < if wide (answered gTransmode env call c.start) then (call.dataLen + 1) / 2
      else call.dataLen := by
    rw [hwide, hlen]
    exact hpos
  have hdata := answer_head env hpos
  rw [← h.filled, kernspiReadData_done hret, hispiClearRxfifo, clearLoop_data,
    stored_head hcount] at hdata
  exact Option.some_injective _ hdata

theorem Answered.rxLeft
    (h : Answered gTransmode env call c (kernspiReadData gTransmode env call c).2)
    (hret : (kernspiReadData gTransmode env call c).1 = 0) :
    env.rxLeft = [] := by
  cases hrx : env.rxLeft with
  | nil => rfl
  | cons value values =>
    have hold : [(⟨none, value⟩ : Frame)] <+: (hispiReadConfig env gTransmode
        (hispiGetFrameNum c.start call.dataLen) c.start).rxFifo := by
      have hrestart : (hispiReadConfig env gTransmode (hispiGetFrameNum c.start call.dataLen)
          c.start).rxFifo = env.rxLeft.map fun value => ⟨none, value⟩ := rfl
      rw [hrestart, hrx]
      exact ⟨_, rfl⟩
    have hfirst := popFrame_of_prefix (answered_received (hold.trans (written_received _ _ _)))
    have hhead := h.head hret
    rw [hfirst] at hhead
    cases hhead

theorem Answered.mode
    (h : Answered gTransmode env call c (kernspiReadData gTransmode env call c).2)
    (hret : (kernspiReadData gTransmode env call c).1 = 0) :
    gTransmode ≠ spiNonEepromRd := by
  intro hmode
  obtain ⟨hcs, htx, -⟩ := kernspiReadData_checked hret
  have hpos := (hispiGetFrameNum_checked htx).1
  let configured := hispiReadConfig env gTransmode (hispiGetFrameNum c.start call.dataLen) c.start
  let filled := fillTxFifo call.csId call.cmd (hispiGetFrameNum c.start call.cmdLen) configured
  have htransMode : transMode filled = spiTrasModeDuplex :=
    (hispiReadConfig_transMode env (hispiGetFrameNum c.start call.dataLen)).trans (if_pos hmode)
  have hclean : filled.rxFifo = [] := by
    have hrestart : filled.rxFifo = env.rxLeft.map fun value => ⟨none, value⟩ := rfl
    rw [hrestart, h.rxLeft hret]
    rfl
  have hfirst : [frameAt env.slave (frameLen filled) 0] <+: (transfer env.slave filled).rxFifo :=
    transfer_duplex (fillTxFifo_ser call.cmd _ hcs) htransMode
      (fillTxFifo_ne_nil call.csId call.cmd hpos) hclean
  have hread := popFrame_of_prefix (answered_received hfirst)
  have hhead := h.head hret
  rw [hread] at hhead
  exact hpos.ne (Option.some_injective _ hhead)

theorem Answered.txLeft
    (h : Answered gTransmode env call c (kernspiReadData gTransmode env call c).2)
    (hret : (kernspiReadData gTransmode env call c).1 = 0) :
    env.txLeft = [] := by
  obtain ⟨hcs, htx, -⟩ := kernspiReadData_checked hret
  obtain ⟨hpos, hle, -⟩ := hispiGetFrameNum_checked htx
  have hstart : hispiGetFrameNum c.start call.cmdLen = hispiGetFrameNum c call.cmdLen := rfl
  have hempty : (hispiReadConfig env gTransmode (hispiGetFrameNum c.start call.dataLen)
      c.start).sent = [] := rfl
  have hleft : (hispiReadConfig env gTransmode (hispiGetFrameNum c.start call.dataLen)
      c.start).txFifo = env.txLeft := rfl
  have hsent := h.transmitted
  rw [kernspiReadData_done hret, hispiClearRxfifo, (clearLoop_kept _ _ _).sent, stored_sent,
    answered, if_neg (h.mode hret), if_neg (h.mode hret), written_sent _ _ hcs, hempty, hleft,
    hstart, List.append_nil] at hsent
  have hlength := congrArg List.length hsent
  simp only [txValues, txFifoSize, List.nil_append, List.length_append, List.length_map,
    List.length_range] at hlength
  have hbound : hispiGetFrameNum c call.cmdLen ≤ 24 := hle
  apply List.length_eq_zero_iff.mp
  omega

theorem spiRead_correct_iff
    (hret : (kernspiReadData gTransmode env call c).1 = 0) :
    Answered gTransmode env call c (kernspiReadData gTransmode env call c).2 ↔
      gTransmode ≠ spiNonEepromRd ∧ env.txLeft = [] ∧ env.rxLeft = [] ∧
        (wide c = true ∨ ∀ f ∈ answer env call c, f.value.toNat < 256) := by
  constructor
  · intro h
    refine ⟨h.mode hret, h.txLeft hret, h.rxLeft hret, ?_⟩
    by_cases hwide : wide c = true
    · exact Or.inl hwide
    · right
      intro f hf
      exact ((ofCells_frameCells (wide c) f).mp (h.whole f hf)).resolve_left hwide
  · intro h
    obtain ⟨hmode, htxLeft, hrxLeft, hvalues⟩ := h
    obtain ⟨hcs, htx, hrx⟩ := kernspiReadData_checked hret
    obtain ⟨-, htxNum, -⟩ := hispiGetFrameNum_checked htx
    obtain ⟨hpos, hrxNum, hcount, hbytes⟩ := hispiGetFrameNum_checked hrx
    obtain ⟨hrxFifo, hsent, hlost, hunderrun⟩ := answered_eeprom (c := c.start) hmode
      ⟨htxLeft, hrxLeft⟩ hcs htxNum ⟨hpos, hrxNum⟩ rfl
    have hwide : wide (answered gTransmode env call c.start) = wide c := answered_wide
    have hstored : ∃ imr, stored call.dataLen (answered gTransmode env call c.start) = _ :=
      stored_all (by rw [hwide, hcount, hrxFifo]; exact answer_length.symm)
    obtain ⟨imr, hstored⟩ := hstored
    have hdata : (kernspiReadData gTransmode env call c).2.data =
        (answer env call c).flatMap (frameCells (wide c)) := by
      rw [kernspiReadData_done hret, hstored, hispiClearRxfifo_empty rfl]
      dsimp only
      rw [hrxFifo, hwide]
      rfl
    constructor
    · rw [kernspiReadData_done hret, hstored, hispiClearRxfifo_empty rfl, if_neg hmode,
        List.append_nil]
      exact hsent
    · exact hdata
    · rw [hdata, cells_length, answer_length]
      exact hbytes.symm
    · intro f hf
      exact (ofCells_frameCells (wide c) f).mpr (hvalues.imp id fun h => h f hf)
    · rw [kernspiReadData_done hret, hstored, hispiClearRxfifo_empty rfl]
      exact hlost
    · rw [kernspiReadData_done hret, hstored, hispiClearRxfifo_empty rfl]
      exact hunderrun

end Answer

def readByte : ReadCall where
  idNull := false
  ctrlId := 0
  csId := 0
  cmd := some fun _ => 0x9f
  cmdLen := 1
  dataNull := false
  dataLen := 1

def prompt (slave : ℕ → BitVec 16) : Env where
  slave := slave
  down := 0
  txLeft := []
  rxLeft := []
  overflowLeft := false
  writeWait := fun _ => .woken
  idle := fun _ => true
  readWait := .woken

def idleController (ctrlr0 : BitVec 32) : Controller where
  ctrlr0 := ctrlr0
  ctrlr1 := 0
  rxftlr := 0
  txftlr := 0
  imr := 0
  ser := 1
  txFifo := []
  rxFifo := []
  overflow := false
  wWaitFlags := 0
  rWaitFlags := 0
  rxTextLen := 0
  data := []
  sent := []
  clocks := 0
  lost := false
  underrun := false

theorem spiRead_correct_byte :
    (kernspiReadData 1 (prompt fun k => BitVec.ofNat 16 k) readByte (idleController 7)).1 = 0 ∧
      Answered 1 (prompt fun k => BitVec.ofNat 16 k) readByte (idleController 7)
        (kernspiReadData 1 (prompt fun k => BitVec.ofNat 16 k) readByte (idleController 7)).2 := by
  have hret : (kernspiReadData 1 (prompt fun k => BitVec.ofNat 16 k) readByte
      (idleController 7)).1 = 0 := by
    decide
  have hvalues : ∀ f ∈ answer (prompt fun k => BitVec.ofNat 16 k) readByte (idleController 7),
      f.value.toNat < 256 := by
    decide
  exact ⟨hret, (spiRead_correct_iff hret).mpr ⟨by decide, rfl, rfl, Or.inr hvalues⟩⟩

/-- In duplex mode the byte is of the frame that came with the command, and of a frame of 12
bits it is the low part. -/
theorem spiRead_missed :
    ((kernspiReadData 0 (prompt fun k => BitVec.ofNat 16 k) readByte (idleController 7)).1 = 0 ∧
      ¬ Answered 0 (prompt fun k => BitVec.ofNat 16 k) readByte (idleController 7)
        (kernspiReadData 0 (prompt fun k => BitVec.ofNat 16 k) readByte (idleController 7)).2) ∧
    ((kernspiReadData 1 (prompt fun _ => 0xabc) readByte (idleController 11)).1 = 0 ∧
      ¬ Answered 1 (prompt fun _ => 0xabc) readByte (idleController 11)
        (kernspiReadData 1 (prompt fun _ => 0xabc) readByte (idleController 11)).2) := by
  constructor
  · constructor
    · decide
    · intro h
      have hclocks := congrArg (List.map Cell.clock) h.filled
      revert hclocks
      decide
  · constructor
    · decide
    · intro h
      have hwhole := h.whole (frameAt (fun _ => 0xabc) 11 1) (List.mem_singleton.mpr rfl)
      revert hwhole
      decide

end HiMpu.SpiRead
