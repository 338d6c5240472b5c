import HiMpu.SpiDma

/-!
# SPI transfers by interrupt

`bm_spi_write_async`, `bm_spi_read_async`, `bm_spi_write_read_async` and `spi_irq` of
`drivers/spi/spi.c`, on a controller that no other call uses.  The interrupt may come between
any two statements of a call.  A frame that reaches the FIFO while the handler drains it is
lost, as if it had not come.
-/

namespace HiMpu.SpiAsync

open SpiBlocking (Board Byte Call bmSpiTransferParaCheck serRegValueNonSlave)
open SpiDma (SpiTransmit)

def spiTxFifoSize : ℕ := 32
def spiRxFifoSize : ℕ := 32
def intMaskTxEmpty : BitVec 32 := 0x01
/-- `INT_MASK_RX_FULL | INT_MASK_RX_OVER`. -/
def intMaskRx : BitVec 32 := 0x18

def reads (c : Call) : Prop := c.mode ≠ .tx
def writes (c : Call) : Prop := c.mode ≠ .rx
instance (c : Call) : Decidable (reads c) := inferInstanceAs (Decidable (_ ≠ _))
instance (c : Call) : Decidable (writes c) := inferInstanceAs (Decidable (_ ≠ _))
def wBuf (c : Call) : ℕ := (c.data.map SpiBlocking.Data.wBuf).getD 0
def rBuf (c : Call) : ℕ := (c.data.map SpiBlocking.Data.rBuf).getD 0

/-- An element of `g_spi_ops_array`. -/
structure Ops where
  txTextPos : ℕ
  txTextLen : ℕ
  txCount : ℕ
  intTxCallback : Option ℕ
  rxTextPos : ℕ
  rxTextLen : ℕ
  rxCount : ℕ
  intRxCallback : Option ℕ

inductive Pc where
  | idle
  | register (rest : List (Ops → Ops))
  | loadRx
  | storeRx (temp : BitVec 32)
  | busy
  | deselect
  | fill
  | loadTx
  | storeTx (temp : BitVec 32)
  | select

inductive Event where
  | returned (ret : ℤ)
  | told (f : ℕ) (stat : SpiTransmit)
deriving DecidableEq

structure State where
  /-- The call in progress, or the last one. -/
  call : Call
  callback : Option ℕ
  pc : Pc
  ops : Ops
  imr : BitVec 32
  ser : ℕ
  rxftlr : ℕ
  /-- Frames that wait to be sent, with their addresses. -/
  txFifo : List (ℕ × ℕ)
  rxFifo : List (BitVec 32)
  rxOverflow : Bool
  mem : ℕ → Byte
  events : List Event
  /-- Frames sent, with `SER` and their addresses. -/
  sent : List (ℕ × ℕ × ℕ)
  /-- How many frames had been sent at the call. -/
  mark : ℕ
  /-- The reception of the call has been told. -/
  told : Bool

def assigns (c : Call) (callback : Option ℕ) : List (Ops → Ops) :=
  let tx :=
    [fun o : Ops => { o with txTextPos := wBuf c }, fun o => { o with txTextLen := c.wLen },
      fun o => { o with txCount := 0 }]
  let rx :=
    [fun o : Ops => { o with rxTextPos := rBuf c }, fun o => { o with rxTextLen := c.rLen },
      fun o => { o with rxCount := 0 }]
  match c.mode with
  | .tx => tx ++ [fun o : Ops => { o with intTxCallback := callback }]
  | .rx => rx ++ [fun o : Ops => { o with intRxCallback := callback }]
  | .txRx =>
    tx ++ rx ++
      [fun o : Ops => { o with intTxCallback := none },
        fun o => { o with intRxCallback := callback }]

def submit (B : Board) (s : State) (c : Call) (callback : Option ℕ) : State :=
  if bmSpiTransferParaCheck B c = bmFail ∨ (writes c ∧ spiTxFifoSize < c.wLen) ∨
      (reads c ∧ spiRxFifoSize < c.rLen) then
    { s with events := s.events ++ [.returned bmFail] }
  else
    { s with
      call := c
      callback := callback
      pc := .register (assigns c callback)
      mark := s.sent.length
      told := false }

def State.ret (s : State) (ret : ℤ) : State :=
  { s with pc := .idle, events := s.events ++ [.returned ret] }

/-- A round of the loop of `write_data`. -/
def State.push (s : State) : State :=
  let c := { s.call with wBytes := s.mem }
  { s with
    txFifo := s.txFifo ++ [(s.ops.txTextPos, c.writeFrame s.ops.txTextPos)]
    ops := { s.ops with
      txCount := s.ops.txCount + c.unit
      txTextPos := s.ops.txTextPos + c.unit } }

/-- The next statement of the call; those from `busy` on are `write_data`. -/
def exec (s : State) (busy : Bool) : Option State :=
  match s.pc with
  | .idle => none
  | .register (f :: rest) => some { s with ops := f s.ops, pc := .register rest }
  | .register [] => some { s with pc := if reads s.call then .loadRx else .busy }
  | .loadRx => some { s with pc := .storeRx s.imr }
  | .storeRx temp =>
    some { s with imr := temp ||| intMaskRx, pc := if writes s.call then .busy else .select }
  | .busy => some (if busy then s.ret bmFail else { s with pc := .deselect })
  | .deselect => some { s with ser := serRegValueNonSlave, pc := .fill }
  | .fill =>
    some (
      if s.ops.txCount < s.ops.txTextLen ∧ s.txFifo.length < spiTxFifoSize then s.push
      else { s with pc := .loadTx })
  | .loadTx => some { s with pc := .storeTx s.imr }
  | .storeTx temp => some { s with imr := temp ||| intMaskTxEmpty, pc := .select }
  | .select => some ({ s with ser := 1 <<< s.call.csId }.ret bmOk)

/-- The loop of `read_data`. -/
def readLoop (c : Call) : List (BitVec 32) → Ops → (ℕ → Byte) → Ops × (ℕ → Byte)
  | [], o, mem => (o, mem)
  | v :: fifo, o, mem =>
    if o.rxCount < o.rxTextLen ∧ o.rxTextPos ≠ 0 then
      readLoop c fifo
        { o with rxTextPos := o.rxTextPos + c.unit, rxCount := o.rxCount + c.unit }
        (c.readFrame mem o.rxTextPos v)
    else (o, mem)

def isrTxEmpty (s : State) : Bool := s.imr.getLsbD 0 && s.txFifo.isEmpty

def isrRx (s : State) : Bool :=
  s.imr.getLsbD 4 && decide (s.rxftlr < s.rxFifo.length) || s.imr.getLsbD 3 && s.rxOverflow

def tell (callback : Option ℕ) (stat : SpiTransmit) : List Event :=
  match callback with
  | some f => [.told f stat]
  | none => []

def txServed (s : State) : State :=
  { s with
    events := s.events ++ tell s.ops.intTxCallback .writeOk
    imr := s.imr &&& ~~~intMaskTxEmpty }

def rxServed (s : State) : State :=
  let r := readLoop s.call s.rxFifo s.ops s.mem
  let stat := if r.1.rxCount < r.1.rxTextLen then SpiTransmit.readFail else .readOk
  { s with
    mem := r.2
    rxFifo := []
    ops := { r.1 with rxTextLen := 0, rxCount := 0 }
    events := s.events ++ tell s.ops.intRxCallback stat
    imr := s.imr &&& ~~~intMaskRx
    told := true }

def spiIrq (s : State) : State :=
  if isrTxEmpty s then txServed s else if isrRx s then rxServed s else s

inductive Label where
  | submit (c : Call) (callback : Option ℕ)
  /-- A statement of the call; `busy` is what it reads from `SR`. -/
  | exec (busy : Bool)
  | shift
  | frame (v : BitVec 32)
  | interrupt

/-- Calls take turns under the semaphore, and all read the same `CTRLR0`. -/
def next (B : Board) (s : State) : Label → Option State
  | .submit c callback =>
    match s.pc with
    | .idle => if c.ctrlr0 = s.call.ctrlr0 then some (submit B s c callback) else none
    | _ => none
  | .exec busy => exec s busy
  | .shift =>
    match s.txFifo with
    | e :: rest =>
      if s.ser ≠ 0 then some { s with txFifo := rest, sent := s.sent ++ [(s.ser, e)] } else none
    | [] => none
  | .frame v =>
    some (
      if s.rxFifo.length < spiRxFifoSize then { s with rxFifo := s.rxFifo ++ [v] }
      else { s with rxOverflow := true })
  | .interrupt => some (spiIrq s)

def initial (ctrlr0 : BitVec 32) (rxftlr : ℕ) (mem : ℕ → Byte) : State where
  call := ⟨.tx, none, none, fun _ => 0, fun _ => 0, ctrlr0⟩
  callback := none
  pc := .idle
  ops := ⟨0, 0, 0, none, 0, 0, 0, none⟩
  imr := 0
  ser := serRegValueNonSlave
  rxftlr := rxftlr
  txFifo := []
  rxFifo := []
  rxOverflow := false
  mem := mem
  events := []
  sent := []
  mark := 0
  told := false

/-- A call starts only when no interrupt of an earlier one can come any more. -/
def Calm (s : State) : Label → Prop
  | .submit _ _ => s.imr = 0
  | _ => True

instance (s : State) : (a : Label) → Decidable (Calm s a)
  | .submit _ _ => inferInstanceAs (Decidable (s.imr = 0))
  | .exec _ | .shift | .frame _ | .interrupt => inferInstanceAs (Decidable True)

def calmSystem (B : Board) : TransitionSystem State Label :=
  (TransitionSystem.ofStep (fun s => ∃ ctrlr0 rxftlr mem, s = initial ctrlr0 rxftlr mem)
    (next B)).restrict Calm

def frames (c : Call) (n : ℕ) : List (ℕ × ℕ) :=
  (List.range n).map fun k => (1 <<< c.csId, wBuf c + k * c.unit)

/-- Where the frames of the call have gone and will go, with their addresses. -/
def out (s : State) : List (ℕ × ℕ) :=
  (s.sent.drop s.mark).map (fun e => (e.1, e.2.1)) ++
    s.txFifo.map fun e => (1 <<< s.call.csId, e.1)

def rxEnabled (imr : BitVec 32) : Prop := imr.getLsbD 4 ∨ imr.getLsbD 3

def TxReady (c : Call) (callback : Option ℕ) (o : Ops) : Prop :=
  o.txTextPos = wBuf c ∧ o.txTextLen = c.wLen ∧ o.txCount = 0 ∧
    o.intTxCallback = if c.mode = .tx then callback else none

def RxReady (c : Call) (callback : Option ℕ) (o : Ops) : Prop :=
  o.rxTextPos = rBuf c ∧ o.rxTextLen = c.rLen ∧ o.rxCount = 0 ∧ o.intRxCallback = callback

def Ready (c : Call) (callback : Option ℕ) (o : Ops) : Prop :=
  (writes c → TxReady c callback o) ∧ (reads c → RxReady c callback o)

def Sane (s : State) : Prop :=
  (writes s.call → s.call.unit ∣ s.call.wLen ∧ s.call.wLen ≤ spiTxFifoSize) ∧
    (reads s.call → s.call.unit ∣ s.call.rLen ∧ rBuf s.call ≠ 0) ∧ s.mark ≤ s.sent.length

def Early (s : State) : Prop :=
  s.imr = 0 ∧ s.told = false ∧ s.txFifo = [] ∧ s.sent.length = s.mark

/-- While the reception is not told it is as registered; then nothing is left to store. -/
def Rx (s : State) : Prop :=
  (rxEnabled s.imr → reads s.call) ∧ (s.told → rxEnabled s.imr → s.call.mode = .txRx) ∧
    (reads s.call →
      if s.told then s.ops.rxTextLen = 0 ∧ s.ops.rxCount = 0 ∧ s.ops.intRxCallback = s.callback
      else RxReady s.call s.callback s.ops)

/-- The first `n` frames of the buffer are in the FIFO or sent. -/
def Filling (s : State) (n : ℕ) : Prop :=
  writes s.call ∧ out s = frames s.call n ∧
    s.ops.intTxCallback = if s.call.mode = .tx then s.callback else none

def Filled (s : State) : Prop := Filling s (s.call.wLen / s.call.unit)

def Masked (s : State) : Prop := Rx s ∧ s.imr.getLsbD 0 = false

def Running (s : State) (ser : ℕ) : Prop :=
  Rx s ∧ (s.imr.getLsbD 0 = false → s.txFifo = []) ∧
    (s.imr.getLsbD 0 = true → s.ser = ser ∧ Filled s)

def Loop (s : State) (n : ℕ) : Prop :=
  s.ops.txTextPos = wBuf s.call + n * s.call.unit ∧ s.ops.txCount = n * s.call.unit ∧
    s.ops.txTextLen = s.call.wLen ∧ n * s.call.unit ≤ s.call.wLen ∧ s.txFifo.length = n ∧
    Filling s n

/-- What holds in front of each statement, and between the calls. -/
def Inv (s : State) : Prop :=
  Sane s ∧
  match s.pc with
  | .register rest => Early s ∧ Ready s.call s.callback (rest.foldl (fun o f => f o) s.ops)
  | .loadRx => Early s ∧ Ready s.call s.callback s.ops ∧ reads s.call
  | .storeRx temp => Early s ∧ Ready s.call s.callback s.ops ∧ reads s.call ∧ temp = 0
  | .busy | .deselect =>
    Masked s ∧ s.txFifo = [] ∧ s.sent.length = s.mark ∧ writes s.call ∧
      TxReady s.call s.callback s.ops
  | .fill => Masked s ∧ s.ser = 0 ∧ ∃ n, Loop s n
  | .loadTx => Masked s ∧ s.ser = 0 ∧ Filled s
  | .storeTx temp => Masked s ∧ s.ser = 0 ∧ Filled s ∧ (rxEnabled temp → s.call.mode = .txRx)
  | .select => Running s 0
  | .idle => Running s (1 <<< s.call.csId)

variable {B : Board} {s t : State}

theorem ready_assigns (c : Call) (callback : Option ℕ) (o : Ops) :
    Ready c callback ((assigns c callback).foldl (fun o f => f o) o) := by
  cases hmode : c.mode <;>
    simp [Ready, TxReady, RxReady, reads, writes, assigns, hmode]

theorem not_rxEnabled_zero : ¬rxEnabled 0 := by
  simp [rxEnabled]

theorem txRx_of_reads_writes {c : Call} (hreads : reads c) (hwrites : writes c) :
    c.mode = .txRx := by
  cases hmode : c.mode with
  | tx => exact absurd hmode hreads
  | rx => exact absurd hmode hwrites
  | txRx => rfl

theorem Early.masked (h : Early s) (hready : Ready s.call s.callback s.ops) : Masked s := by
  obtain ⟨himr, htold, -, -⟩ := h
  have hoff : ¬rxEnabled s.imr := himr ▸ not_rxEnabled_zero
  refine ⟨⟨fun hon => absurd hon hoff, fun _ hon => absurd hon hoff, fun hreads => ?_⟩, ?_⟩
  · rw [htold]
    exact hready.2 hreads
  · rw [himr]
    rfl

theorem rBuf_ne_zero {c : Call} (hpass : bmSpiTransferParaCheck B c ≠ bmFail)
    (hreads : reads c) : rBuf c ≠ 0 := by
  intro hzero
  refine hpass ?_
  unfold bmSpiTransferParaCheck
  split
  · rfl
  · cases hdata : c.data with
    | none => rfl
    | some data =>
      have hbuf : data.rBuf = 0 := by simpa [rBuf, hdata] using hzero
      cases hmode : c.mode with
      | tx => exact absurd hmode hreads
      | rx => simp [SpiBlocking.Call.bufRefused, hbuf]
      | txRx => simp [SpiBlocking.Call.bufRefused, hbuf]

theorem Inv.submit {c : Call} {callback : Option ℕ} (h : Inv s) (hpc : s.pc = .idle)
    (hcalm : s.imr = 0) : Inv (submit B s c callback) := by
  unfold SpiAsync.submit
  split
  · exact h
  next hpass =>
    obtain ⟨hpara, hw, hr⟩ : bmSpiTransferParaCheck B c ≠ bmFail ∧
        (writes c → c.wLen ≤ spiTxFifoSize) ∧ (reads c → c.rLen ≤ spiRxFifoSize) := by
      simpa only [not_or, not_and, not_lt] using hpass
    have hchecked := SpiBlocking.checked_of_para hpara
    have hrun : Running s (1 <<< s.call.csId) := by
      simpa only [Inv, hpc] using h.2
    have hempty : s.txFifo = [] := hrun.2.1 (by rw [hcalm]; rfl)
    refine ⟨⟨fun hmode => ⟨hchecked.wLen hmode, hw hmode⟩,
      fun hmode => ⟨hchecked.rLen hmode, rBuf_ne_zero hpara hmode⟩, le_refl _⟩, ?_⟩
    exact ⟨⟨hcalm, rfl, hempty, rfl⟩, ready_assigns c callback s.ops⟩

theorem Loop.push {n : ℕ} (h : Loop s n) (hsane : Sane s)
    (hmore : s.ops.txCount < s.ops.txTextLen) : Loop s.push (n + 1) := by
  obtain ⟨hpos, hcount, hlen, -, hfifo, hwrites, hout, hcallback⟩ := h
  have hunit : n * s.call.unit + s.call.unit ≤ s.call.wLen := by
    obtain ⟨m, hm⟩ := (hsane.1 hwrites).1
    rw [hcount, hlen, hm, mul_comm] at hmore
    rw [hm, ← Nat.succ_mul, mul_comm]
    exact Nat.mul_le_mul_left _ (Nat.lt_of_mul_lt_mul_left hmore)
  have hsucc : (n + 1) * s.call.unit = n * s.call.unit + s.call.unit := Nat.succ_mul ..
  refine ⟨?_, ?_, hlen, hsucc ▸ hunit, ?_, hwrites, ?_, hcallback⟩
  · change s.ops.txTextPos + s.call.unit = wBuf s.call + (n + 1) * s.call.unit
    rw [hpos, hsucc, add_assoc]
  · change s.ops.txCount + s.call.unit = (n + 1) * s.call.unit
    rw [hcount, hsucc]
  · change (s.txFifo ++ [_]).length = n + 1
    rw [List.length_append, hfifo, List.length_singleton]
  · change (s.sent.drop s.mark).map _ ++ (s.txFifo ++ [_]).map _ = frames s.call (n + 1)
    rw [List.map_append, ← List.append_assoc]
    change out s ++ [(1 <<< s.call.csId, s.ops.txTextPos)] = _
    rw [hout, hpos, frames, frames, List.range_succ, List.map_append]
    rfl

theorem Loop.filled {n : ℕ} (h : Loop s n) (hsane : Sane s)
    (hdone : ¬(s.ops.txCount < s.ops.txTextLen ∧ s.txFifo.length < spiTxFifoSize)) :
    Filled s := by
  obtain ⟨-, hcount, hlen, hle, hfifo, hfilling⟩ := h
  obtain ⟨-, hfit⟩ := hsane.1 hfilling.1
  have hpos := s.call.unit_pos
  have hn : n ≤ n * s.call.unit := Nat.le_mul_of_pos_right n hpos
  have hall : s.call.wLen = n * s.call.unit := by omega
  unfold Filled
  rwa [hall, Nat.mul_div_cancel _ hpos]

theorem Inv.exec {busy : Bool} (h : Inv s) (hstep : exec s busy = some t) : Inv t := by
  obtain ⟨hsane, hinv⟩ := h
  unfold SpiAsync.exec at hstep
  cases hpc : s.pc <;> simp only [hpc] at hinv hstep
  case idle => cases hstep
  case register rest =>
    obtain ⟨hearly, hready⟩ := hinv
    cases rest with
    | cons f rest =>
      cases hstep
      exact ⟨hsane, hearly, hready⟩
    | nil =>
      cases hstep
      refine ⟨hsane, ?_⟩
      by_cases hreads : reads s.call
      · simp only [if_pos hreads]
        exact ⟨hearly, hready, hreads⟩
      · have hwrites : writes s.call := fun hmode => hreads (by simp [reads, hmode])
        simp only [if_neg hreads]
        exact ⟨hearly.masked hready, hearly.2.2.1, hearly.2.2.2, hwrites, hready.1 hwrites⟩
  case loadRx =>
    cases hstep
    exact ⟨hsane, hinv.1, hinv.2.1, hinv.2.2, hinv.1.1⟩
  case storeRx temp =>
    obtain ⟨⟨himr, htold, hfifo, hmark⟩, hready, hreads, rfl⟩ := hinv
    cases hstep
    have hmasked : Masked { s with imr := 0 ||| intMaskRx } := by
      refine ⟨⟨fun _ => hreads, fun hon => absurd hon (by simp [htold]), fun _ => ?_⟩,
        by simp [intMaskRx]⟩
      simp only [htold]
      exact hready.2 hreads
    refine ⟨hsane, ?_⟩
    by_cases hwrites : writes s.call
    · simp only [if_pos hwrites]
      exact ⟨hmasked, hfifo, hmark, hwrites, hready.1 hwrites⟩
    · simp only [if_neg hwrites]
      exact ⟨hmasked.1, fun _ => hfifo, fun hon => absurd hon (by simp [intMaskRx])⟩
  case busy =>
    obtain ⟨hmasked, hrest⟩ := hinv
    cases hstep
    split
    · refine ⟨hsane, hmasked.1, fun _ => hrest.1, fun hon => ?_⟩
      exact absurd (hmasked.2.symm.trans hon) (by decide)
    · exact ⟨hsane, hmasked, hrest⟩
  case deselect =>
    obtain ⟨hmasked, hfifo, hmark, hwrites, hpos, hlen, hcount, hcallback⟩ := hinv
    cases hstep
    refine ⟨hsane, hmasked, rfl, 0, ?_, ?_, hlen, ?_, ?_, hwrites, ?_, hcallback⟩
    · simp [hpos]
    · simp [hcount]
    · simp
    · simp [hfifo]
    · simp [out, frames, hfifo, hmark]
  case fill =>
    obtain ⟨hmasked, hser, n, hloop⟩ := hinv
    cases hstep
    split
    next hmore =>
      have hpush := hloop.push hsane hmore.1
      refine ⟨hsane, ?_⟩
      simp only [State.push, hpc]
      exact ⟨hmasked, hser, n + 1, hpush⟩
    next hdone => exact ⟨hsane, hmasked, hser, hloop.filled hsane hdone⟩
  case loadTx =>
    obtain ⟨hmasked, hser, hfilled⟩ := hinv
    cases hstep
    exact ⟨hsane, hmasked, hser, hfilled,
      fun hon => txRx_of_reads_writes (hmasked.1.1 hon) hfilled.1⟩
  case storeTx temp =>
    obtain ⟨hmasked, hser, hfilled, htemp⟩ := hinv
    cases hstep
    -- the value read before may still enable a reception that has been told since
    have hrx : rxEnabled (temp ||| intMaskTxEmpty) → s.call.mode = .txRx := by
      intro hon
      refine htemp ?_
      simpa [rxEnabled, intMaskTxEmpty] using hon
    refine ⟨hsane, ⟨fun hon => ?_, fun _ => hrx, hmasked.1.2.2⟩, fun hoff => ?_,
      fun _ => ⟨hser, hfilled⟩⟩
    · simp [reads, hrx hon]
    · simp [intMaskTxEmpty] at hoff
  case select =>
    obtain ⟨hrx, hempty, hfilled⟩ := hinv
    cases hstep
    exact ⟨hsane, hrx, hempty, fun hon => ⟨rfl, (hfilled hon).2⟩⟩

theorem Running.shift {e : ℕ × ℕ} {rest : List (ℕ × ℕ)} (h : Running s (1 <<< s.call.csId))
    (hsane : Sane s) (hfifo : s.txFifo = e :: rest) :
    Running { s with txFifo := rest, sent := s.sent ++ [(s.ser, e)] }
      (1 <<< s.call.csId) := by
  obtain ⟨hrx, hempty, hfilled⟩ := h
  refine ⟨hrx, fun hoff => absurd (hfifo ▸ hempty hoff) (by simp), fun hon => ?_⟩
  obtain ⟨hser, hwrites, hout, hcallback⟩ := hfilled hon
  refine ⟨hser, hwrites, ?_, hcallback⟩
  have hmove : out { s with txFifo := rest, sent := s.sent ++ [(s.ser, e)] } = out s := by
    simp [out, hfifo, hser, List.drop_append_of_le_length hsane.2.2]
  rw [hmove]
  exact hout

theorem Inv.shift {e : ℕ × ℕ} {rest : List (ℕ × ℕ)} (h : Inv s) (hfifo : s.txFifo = e :: rest)
    (hser : s.ser ≠ 0) : Inv { s with txFifo := rest, sent := s.sent ++ [(s.ser, e)] } := by
  obtain ⟨hsane, hinv⟩ := h
  have hsome : s.txFifo ≠ [] := by simp [hfifo]
  refine ⟨⟨hsane.1, hsane.2.1, ?_⟩, ?_⟩
  · exact le_trans hsane.2.2 (by simp)
  · cases hpc : s.pc <;> simp only [hpc] at hinv ⊢
    case idle => exact hinv.shift hsane hfifo
    case register | loadRx | storeRx => exact absurd hinv.1.2.2.1 hsome
    case busy | deselect => exact absurd hinv.2.1 hsome
    case fill | loadTx | storeTx => exact absurd hinv.2.1 hser
    case select =>
      cases hon : s.imr.getLsbD 0 with
      | false => exact absurd (hinv.2.1 hon) hsome
      | true => exact absurd (hinv.2.2 hon).1 hser

theorem readLoop_ops (c : Call) (fifo : List (BitVec 32)) (o : Ops) (mem : ℕ → Byte) :
    ∃ pos count,
      (readLoop c fifo o mem).1 = { o with rxTextPos := pos, rxCount := count } := by
  induction fifo generalizing o mem with
  | nil => exact ⟨_, _, rfl⟩
  | cons v fifo ih =>
    unfold readLoop
    split
    · exact ih _ _
    · exact ⟨_, _, rfl⟩

theorem rxServed_eq (s : State) :
    ∃ pos, rxServed s =
      { s with
        mem := (rxServed s).mem
        rxFifo := []
        ops := { s.ops with rxTextPos := pos, rxTextLen := 0, rxCount := 0 }
        events := (rxServed s).events
        imr := s.imr &&& ~~~intMaskRx
        told := true } := by
  obtain ⟨pos, count, hops⟩ := readLoop_ops s.call s.rxFifo s.ops s.mem
  exact ⟨pos, by simp only [rxServed, hops]⟩

theorem readFrame_apply (c : Call) (mem : ℕ → Byte) (pos : ℕ) (v : BitVec 32) (a : ℕ) :
    c.readFrame mem pos v a =
      if pos ≤ a ∧ a < pos + c.unit then c.poppedByte [v] (a - pos) else mem a := by
  unfold SpiBlocking.Call.readFrame SpiBlocking.Call.poppedByte SpiBlocking.Call.unit
  by_cases hwide : c.frameLen = 0xf
  · simp only [if_pos hwide, Function.update_apply]
    by_cases hlow : a = pos
    · subst hlow
      simp
    · by_cases hhigh : a = pos + 1
      · subst hhigh
        simp
      · rw [if_neg hhigh, if_neg hlow, if_neg (by omega)]
  · simp only [if_neg hwide, Function.update_apply]
    by_cases hlow : a = pos
    · subst hlow
      simp
    · rw [if_neg hlow, if_neg (by omega)]

theorem poppedByte_cons (c : Call) (v : BitVec 32) (fifo : List (BitVec 32)) (j : ℕ) :
    c.poppedByte (v :: fifo) j =
      if j < c.unit then c.poppedByte [v] j else c.poppedByte fifo (j - c.unit) := by
  have hpos := c.unit_pos
  unfold SpiBlocking.Call.poppedByte
  split
  next hfirst => rw [Nat.div_eq_of_lt hfirst, List.getD_cons_zero, List.getD_cons_zero]
  next hlater =>
    have hle : c.unit ≤ j := not_lt.mp hlater
    rw [Nat.mod_eq_sub_mod hle, Nat.div_eq_sub_div hpos hle, List.getD_cons_succ]

/-- The loop stores the frames that are there, as many as are still wanted. -/
theorem readLoop_spec (c : Call) (fifo : List (BitVec 32)) (o : Ops) (mem : ℕ → Byte) (n : ℕ)
    (hlen : o.rxTextLen = o.rxCount + n * c.unit) (hpos : 0 < n → o.rxTextPos ≠ 0) :
    let r := readLoop c fifo o mem
    (r.1.rxCount < r.1.rxTextLen ↔ fifo.length < n) ∧
      ∀ a, r.2 a =
        if o.rxTextPos ≤ a ∧ a < o.rxTextPos + min n fifo.length * c.unit then
          c.poppedByte fifo (a - o.rxTextPos)
        else mem a := by
  have hunit := c.unit_pos
  induction fifo generalizing o mem n with
  | nil =>
    refine ⟨?_, fun a => ?_⟩
    · simp [readLoop, hlen, hunit]
    · rw [if_neg (by simp)]
      rfl
  | cons v fifo ih =>
    cases n with
    | zero =>
      have hstop : ¬(o.rxCount < o.rxTextLen ∧ o.rxTextPos ≠ 0) := by omega
      simp only [readLoop, if_neg hstop]
      exact ⟨by simp [hlen], fun a => by rw [if_neg (by simp)]⟩
    | succ n =>
      have hsucc : (n + 1) * c.unit = n * c.unit + c.unit := Nat.succ_mul ..
      have hgo : o.rxCount < o.rxTextLen ∧ o.rxTextPos ≠ 0 := ⟨by omega, hpos (by omega)⟩
      simp only [readLoop, if_pos hgo]
      obtain ⟨hcount, hmem⟩ := ih
        { o with rxTextPos := o.rxTextPos + c.unit, rxCount := o.rxCount + c.unit }
        (c.readFrame mem o.rxTextPos v) n (by simp only; omega) (fun _ => by simp only; omega)
      dsimp only at hmem
      refine ⟨hcount.trans (by simp), fun a => (hmem a).trans ?_⟩
      have hmin : min (n + 1) (v :: fifo).length * c.unit =
          min n fifo.length * c.unit + c.unit := by
        rw [List.length_cons, Nat.add_min_add_right, Nat.succ_mul]
      rw [readFrame_apply, poppedByte_cons c v fifo, hmin, ← Nat.sub_sub]
      by_cases hlater : o.rxTextPos + c.unit ≤ a
      · have hbehind : ¬(o.rxTextPos ≤ a ∧ a < o.rxTextPos + c.unit) := by omega
        have hoffset : ¬a - o.rxTextPos < c.unit := by omega
        rw [if_neg hbehind, if_neg hoffset]
        exact if_congr (by omega) rfl rfl
      · have hoffset : a - o.rxTextPos < c.unit := by omega
        rw [if_pos hoffset, if_neg (by omega)]
        exact if_congr (by omega) rfl rfl

theorem rxEnabled_of_isrRx (hirq : isrRx s) : rxEnabled s.imr := by
  simp only [isrRx, Bool.or_eq_true, Bool.and_eq_true] at hirq
  exact hirq.imp And.left And.left

theorem Inv.cases_txOn (h : Inv s) (hon : s.imr.getLsbD 0 = true) :
    s.pc = .select ∧ Running s 0 ∨ s.pc = .idle ∧ Running s (1 <<< s.call.csId) := by
  obtain ⟨-, hinv⟩ := h
  cases hpc : s.pc <;> simp only [hpc] at hinv
  case idle => exact .inr ⟨rfl, hinv⟩
  case select => exact .inl ⟨rfl, hinv⟩
  case register | loadRx | storeRx => exact absurd hon (by simp [hinv.1.1])
  all_goals exact absurd (hinv.1.2.symm.trans hon) (by decide)

theorem Inv.rx (h : Inv s) (hon : rxEnabled s.imr) : Rx s := by
  obtain ⟨-, hinv⟩ := h
  cases hpc : s.pc <;> simp only [hpc] at hinv
  case idle | select => exact hinv.1
  case register | loadRx | storeRx => exact absurd (hinv.1.1 ▸ hon) not_rxEnabled_zero
  all_goals exact hinv.1.1

theorem Running.told {ser : ℕ} (h : Running s ser) (hempty : s.txFifo = []) :
    Running (txServed s) ser := by
  have hsame : rxEnabled (txServed s).imr ↔ rxEnabled s.imr := by
    simp [txServed, rxEnabled, intMaskTxEmpty]
  refine ⟨⟨fun hon => h.1.1 (hsame.mp hon), fun htold hon => h.1.2.1 htold (hsame.mp hon),
    h.1.2.2⟩, fun _ => hempty, fun hon => ?_⟩
  simp [txServed, intMaskTxEmpty] at hon

theorem Rx.told (h : Rx s) (hreads : reads s.call) : Rx (rxServed s) := by
  obtain ⟨pos, heq⟩ := rxServed_eq s
  rw [heq]
  have hoff : ¬rxEnabled (s.imr &&& ~~~intMaskRx) := by simp [rxEnabled, intMaskRx]
  refine ⟨fun hon => absurd hon hoff, fun _ hon => absurd hon hoff, fun _ => ⟨rfl, rfl, ?_⟩⟩
  have hold := h.2.2 hreads
  split at hold
  · exact hold.2.2
  · exact hold.2.2.2

theorem Inv.interrupt (h : Inv s) : Inv (spiIrq s) := by
  unfold spiIrq
  split
  next hirq =>
    obtain ⟨hon, hempty⟩ : s.imr.getLsbD 0 = true ∧ s.txFifo = [] := by
      simpa [isrTxEmpty] using hirq
    refine ⟨h.1, ?_⟩
    obtain ⟨hpc, hrun⟩ | ⟨hpc, hrun⟩ := h.cases_txOn hon
    · simp only [txServed, hpc]
      exact hrun.told hempty
    · simp only [txServed, hpc]
      exact hrun.told hempty
  next =>
    split
    next hirq =>
      have hon := rxEnabled_of_isrRx hirq
      have hrx := h.rx hon
      -- the fields of the transmission stay as they are
      have hserved := hrx.told (hrx.1 hon)
      have hkeep : (s.imr &&& ~~~intMaskRx).getLsbD 0 = s.imr.getLsbD 0 := by simp [intMaskRx]
      obtain ⟨pos, heq⟩ := rxServed_eq s
      rw [heq] at hserved ⊢
      obtain ⟨hsane, hinv⟩ := h
      refine ⟨hsane, ?_⟩
      cases hpc : s.pc <;> simp only [hpc] at hinv ⊢
      case register | loadRx | storeRx => exact absurd (hinv.1.1 ▸ hon) not_rxEnabled_zero
      case busy | deselect | fill | loadTx | storeTx =>
        exact ⟨⟨hserved, hkeep.trans hinv.1.2⟩, hinv.2⟩
      case select | idle =>
        exact ⟨hserved, fun hoff => hinv.2.1 (hkeep.symm.trans hoff),
          fun hset => hinv.2.2 (hkeep.symm.trans hset)⟩
    next => exact h

theorem Inv.step {a : Label} (h : Inv s) (hcalm : Calm s a) (hstep : next B s a = some t) :
    Inv t := by
  cases a with
  | submit c callback =>
    simp only [next] at hstep
    split at hstep
    next hpc =>
      split at hstep <;> cases hstep
      exact h.submit hpc hcalm
    next => cases hstep
  | exec busy => exact h.exec hstep
  | shift =>
    simp only [next] at hstep
    split at hstep
    next hfifo =>
      split at hstep <;> cases hstep
      next hser => exact h.shift hfifo hser
    next => cases hstep
  | frame v =>
    simp only [next] at hstep
    cases hstep
    split <;> exact h
  | interrupt =>
    cases hstep
    exact h.interrupt

theorem inv_of_reachable (hreach : (calmSystem B).Reachable s) : Inv s := by
  refine hreach.invariant (fun s hinit => ?_) (fun s a t _ h hstep => h.step hstep.1 hstep.2)
  obtain ⟨ctrlr0, rxftlr, mem, rfl⟩ := hinit
  have hoff : ¬rxEnabled 0 := not_rxEnabled_zero
  refine ⟨⟨fun _ => by simp [initial, SpiBlocking.Call.wLen], fun h => absurd rfl h, le_refl _⟩,
    ⟨fun hon => absurd hon hoff, fun _ hon => absurd hon hoff, fun h => absurd rfl h⟩,
    fun _ => rfl, fun hon => absurd hon (by simp [initial])⟩

/-- When the interrupt tells a reception, the buffer of the call holds the frames that were in
the FIFO, in their order and as many as were wanted, and nothing else is written; success is
told if all came.  Only a call that also writes can be told twice, and nothing is stored the
second time. -/
theorem read_when_told (hreach : (calmSystem B).Reachable s) (hno : ¬isrTxEmpty s)
    (hirq : isrRx s) :
    reads s.call ∧ (s.told → s.call.mode = .txRx) ∧ (spiIrq s).rxFifo = [] ∧
      let n := if s.told then 0 else s.call.rLen / s.call.unit
      (∀ a, (spiIrq s).mem a =
        if rBuf s.call ≤ a ∧ a < rBuf s.call + min n s.rxFifo.length * s.call.unit then
          s.call.poppedByte s.rxFifo (a - rBuf s.call)
        else s.mem a) ∧
      (spiIrq s).events = s.events ++
        tell s.callback (if s.rxFifo.length < n then .readFail else .readOk) := by
  have hon := rxEnabled_of_isrRx hirq
  have hinv := inv_of_reachable hreach
  obtain ⟨hmode, honce, hready⟩ := hinv.rx hon
  have hreads := hmode hon
  obtain ⟨hdvd, hbuf⟩ := hinv.1.2.1 hreads
  refine ⟨hreads, fun htold => honce htold hon, ?_⟩
  rw [spiIrq, if_neg hno, if_pos hirq]
  refine ⟨rfl, ?_⟩
  replace hready := hready hreads
  cases htold : s.told with
  | true =>
    rw [htold, if_pos rfl] at hready
    obtain ⟨hlen, hcount, hcallback⟩ := hready
    obtain ⟨hshort, hmem⟩ := readLoop_spec s.call s.rxFifo s.ops s.mem 0 (by omega)
      (fun h => absurd h (lt_irrefl 0))
    refine ⟨fun a => ?_, ?_⟩
    · have hnone : ∀ b, ¬(b ≤ a ∧ a < b + min 0 s.rxFifo.length * s.call.unit) := by simp
      exact ((hmem a).trans (if_neg (hnone _))).trans (if_neg (hnone _)).symm
    · simp only [rxServed, hshort, hcallback, if_true]
  | false =>
    rw [htold, if_neg (by decide)] at hready
    obtain ⟨hpos, hlen, hcount, hcallback⟩ := hready
    obtain ⟨hshort, hmem⟩ := readLoop_spec s.call s.rxFifo s.ops s.mem
      (s.call.rLen / s.call.unit) (by rw [hlen, hcount, Nat.div_mul_cancel hdvd, zero_add])
      (fun _ => hpos ▸ hbuf)
    rw [hpos] at hmem
    refine ⟨hmem, ?_⟩
    simp only [rxServed, hshort, hcallback, Bool.false_eq_true, if_false]

def exchange : Call where
  mode := .txRx
  handle := some ⟨0, 1⟩
  data := some ⟨0x200, 2, 0x100, 2, 0⟩
  wBytes := fun _ => 0
  rBytes := fun _ => 0
  ctrlr0 := 7

/-- A transfer in both directions up to its first interrupt. -/
def exchangeLabels : List Label :=
  .submit exchange (some 9) :: List.replicate 19 (.exec false) ++
    [.shift, .frame 0x35, .shift, .frame 0x36]

def runCalm (labels : List Label) : Option State :=
  TransitionSystem.runSteps (TransitionSystem.guarded Calm (next SpiBlocking.board))
    (initial 7 0 fun _ => 0) labels

theorem reachable_of_runCalm {labels : List Label} (hrun : runCalm labels = some s) :
    (calmSystem SpiBlocking.board).Reachable s :=
  TransitionSystem.Reachable.runGuarded (TransitionSystem.Reachable.init ⟨7, 0, _, rfl⟩) hrun

def afterSend : State := (runCalm exchangeLabels).get (by decide +kernel)

def afterWritten : State := (runCalm (exchangeLabels ++ [.interrupt])).get (by decide +kernel)

theorem read_when_told_exchange :
    (spiIrq afterWritten).events = [.returned 0, .told 9 .readOk] ∧
      (spiIrq afterWritten).mem 0x201 = 0x36 ∧ (spiIrq afterWritten).rxFifo = [] := by
  have hreach := reachable_of_runCalm (s := afterWritten) (Option.some_get _).symm
  have h := read_when_told hreach (by decide +kernel) (by decide +kernel)
  exact ⟨by decide +kernel, by decide +kernel, h.2.2.1⟩

end HiMpu.SpiAsync
