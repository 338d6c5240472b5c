import HiMpu.RingQueue
import HiMpu.UartReceive

/-!
# Transmission of the UART

`uart_start_tx`, `uart_stop_tx`, `uart_stop_rx`, `uart_set_termios` and the transmit path of
`uart_intr_server` of `drivers/uart/uart_ker.c`, with the circular buffer of the serial core.
They run under the lock of the port, the handler one access to IIR, LSR or THR a step.  The divisor
latch shares its offsets with THR and IER.
-/

namespace HiMpu.UartTransmit

open UartReceive (bit dwReceiverr dwReceiveava dwRectimeout dwTransemp dwNointerrupt dwIsrPassLimit)

def dwUartThr : ℕ := 0x00
def dwUartDll : ℕ := 0x00
def dwUartDlh : ℕ := 0x04
def dwUartIer : ℕ := 0x04
def dwUartFcr : ℕ := 0x08
def dwUartLcr : ℕ := 0x0c

def dwUartDlab : BitVec 32 := bit 7

def ptime : BitVec 32 := bit 7
def elsi : BitVec 32 := bit 2
def etbei : BitVec 32 := bit 1
def erbfi : BitVec 32 := bit 0

structure Regs where
  ier : BitVec 32
  lcr : BitVec 32
  dlh : BitVec 32
  dll : BitVec 32
  fcr : BitVec 32
  thr : List (BitVec 8)

def Regs.writel (r : Regs) (val : BitVec 32) (off : ℕ) : Regs :=
  if off = 0x00 then
    if r.lcr &&& dwUartDlab ≠ 0 then { r with dll := val }
    else { r with thr := r.thr ++ [val.setWidth 8] }
  else if off = 0x04 then
    if r.lcr &&& dwUartDlab ≠ 0 then { r with dlh := val } else { r with ier := val }
  else if off = 0x08 then { r with fcr := val }
  else if off = 0x0c then { r with lcr := val }
  else r

def uartFifoReset (r : Regs) : Regs :=
  let r := r.writel (r.lcr ||| dwUartDlab) dwUartLcr
  let r := r.writel 0 dwUartFcr
  let r := r.writel 0xd7 dwUartFcr
  r.writel (r.lcr &&& ~~~dwUartDlab) dwUartLcr

def uartRestart (im : BitVec 32) (r : Regs) : Regs :=
  let r := r.writel 0 dwUartIer
  let r := uartFifoReset r
  r.writel im dwUartIer

def startupIm : BitVec 32 := erbfi ||| elsi

def uartStartup (r : Regs) : Regs :=
  let r := r.writel 0 dwUartIer
  let r := uartFifoReset r
  r.writel startupIm dwUartIer

inductive Csize
  | cs5
  | cs6
  | cs7
  | cs8
  deriving DecidableEq

structure Cflag where
  csize : Csize
  cstopb : Bool
  parenb : Bool
  cmspar : Bool
  parodd : Bool

def uartGetTermiosLcrh (c : Cflag) : BitVec 32 :=
  let lcrH : BitVec 32 :=
    match c.csize with
    | .cs5 => 0x0
    | .cs6 => 0x1
    | .cs7 => 0x2
    | .cs8 => 0x3
  let lcrH := if c.cstopb then lcrH ||| bit 2 else lcrH
  if c.parenb then
    let lcrH := lcrH ||| bit 3
    let lcrH := if c.cmspar then lcrH ||| bit 5 else lcrH
    if c.parodd then lcrH else lcrH ||| bit 4
  else lcrH

/-- The soft reset of `uart_set_termios`, after which the registers are those of `reset`, and the
writes of the divisor and of the line control. -/
def setBaudRate (quot : BitVec 32) (c : Cflag) (reset r : Regs) : Regs :=
  let r := { reset with thr := r.thr }
  let oldCr := r.lcr ||| dwUartDlab
  let r := r.writel oldCr dwUartLcr
  let r := r.writel ((quot &&& 0xff00) >>> 8) dwUartDlh
  let r := r.writel (quot &&& 0xff) dwUartDll
  let oldCr := oldCr &&& ~~~dwUartDlab
  let r := r.writel oldCr dwUartLcr
  r.writel (uartGetTermiosLcrh c) dwUartLcr

def uartSetTermios (im quot : BitVec 32) (c : Cflag) (reset r : Regs) : Regs :=
  uartRestart im (setBaudRate quot c reset r)

inductive Source
  | buffer (b : BitVec 8)
  | xchar (b : BitVec 8)
  deriving DecidableEq

def Source.byte : Source → BitVec 8
  | .buffer b | .xchar b => b

def Source.fromBuffer : Source → Option (BitVec 8)
  | .buffer b => some b
  | .xchar _ => none

def Source.fromXchar : Source → Option (BitVec 8)
  | .buffer _ => none
  | .xchar b => some b

/-- Where the handler stands; the lock is free in `idle` only.  `pass` counts the passes that
are left, and `count` the bytes. -/
inductive Pc
  | idle
  | iir (pass : ℕ)
  | xWait (pass : ℕ)
  | byteWait (count : ℤ) (pass : ℕ)
  deriving DecidableEq

structure State where
  regs : Regs
  im : BitVec 32
  buf : ℕ → BitVec 8
  head : ℕ
  tail : ℕ
  xChar : BitVec 8
  stopped : Bool
  fifosize : ℕ
  icountTx : ℕ
  pc : Pc
  /-- What was put into the buffer, what was requested as `x_char`, and what was sent. -/
  added : List (BitVec 8)
  requested : List (BitVec 8)
  sources : List Source
  /-- `uart_start_tx` was called since `uart_stop_tx` was, where a call of the handler counts if
  there was nothing to send. -/
  started : Bool

def State.work (s : State) : Bool := (s.head != s.tail && !s.stopped) || s.xChar != 0

def State.writeIm (s : State) (im : BitVec 32) : State :=
  { s with im := im, regs := s.regs.writel im dwUartIer }

def uartStopTx (s : State) : State :=
  { s.writeIm (s.im &&& ~~~(ptime ||| etbei)) with started := false }

def uartStartTx (s : State) : State :=
  { s.writeIm (s.im ||| etbei) with started := true }

def uartStopRx (s : State) : State :=
  s.writeIm (s.im &&& ~~~(elsi ||| erbfi))

def quiesce (s : State) : State :=
  { uartStopTx s with started := s.started && s.work }

def State.send (s : State) (src : Source) : State :=
  { s with
    regs := s.regs.writel (src.byte.setWidth 32) dwUartThr
    icountTx := s.icountTx + 1
    sources := s.sources ++ [src] }

def endPass (pass : ℕ) (s : State) : State :=
  { s with pc := if pass = 0 then .idle else .iir (pass - 1) }

def uartTxChars (pass : ℕ) (s : State) : State :=
  if s.xChar ≠ 0 then { s with pc := .xWait pass }
  else if s.head = s.tail ∨ s.stopped = true then endPass pass (quiesce s)
  else { s with pc := .byteWait ((s.fifosize : ℤ) - 2) pass }

def drained (pass : ℕ) (s : State) : State :=
  endPass pass (if s.head = s.tail then quiesce s else s)

structure Input where
  iir : BitVec 32
  leaves : Bool
  thre : Bool

section Size

-- UART_XMIT_SIZE is 2 ^ k
variable (k : ℕ)

def circNext (i : ℕ) : ℕ := (i + 1) &&& (2 ^ k - 1)

def step (s : State) (i : Input) : Option State :=
  match s.pc with
  | .idle => none
  | .iir pass =>
    let id := 0x0f &&& i.iir
    some (if id = dwNointerrupt then { s with pc := .idle }
      else if id = dwReceiveava ∨ id = dwRectimeout then
        if i.leaves then { s with pc := .idle } else endPass pass s
      else if id = dwTransemp then uartTxChars pass s
      else if id = dwReceiverr then { s with pc := .idle }
      else endPass pass s)
  | .xWait pass =>
    some (if i.thre then endPass pass { s.send (.xchar s.xChar) with xChar := 0 } else s)
  | .byteWait count pass =>
    if i.thre then
      let s := { s.send (.buffer (s.buf s.tail)) with tail := circNext k s.tail }
      some (if s.head = s.tail then drained pass s
        else if 0 < count - 1 then { s with pc := .byteWait (count - 1) pass }
        else drained pass s)
    else some s

/-- What happens under the lock.  An `x_char` takes the place of one that still waits. -/
inductive Action
  | startTx
  | stopTx
  | stopRx
  | setTermios (quot : BitVec 32) (c : Cflag) (reset : Regs)
  | interrupt
  | step (i : Input)
  | add (b : BitVec 8)
  | xchar (b : BitVec 8)
  | stopped (b : Bool)

def locked (s t : State) : Option State := if s.pc = .idle then some t else none

def next (s : State) : Action → Option State
  | .startTx => locked s (uartStartTx s)
  | .stopTx => locked s (uartStopTx s)
  | .stopRx => locked s (uartStopRx s)
  | .setTermios quot c reset =>
    locked s { s with regs := uartSetTermios s.im quot c reset s.regs }
  | .interrupt => locked s { s with pc := .iir dwIsrPassLimit }
  | .step i => step k s i
  | .add b =>
    if circNext k s.head = s.tail then none
    else
      locked s { s with
        buf := Function.update s.buf s.head b, head := circNext k s.head, added := s.added ++ [b] }
  | .xchar b =>
    if b = 0 then none
    else
      locked s { s with
        xChar := b
        requested := (if s.xChar = 0 then s.requested else s.requested.dropLast) ++ [b] }
  | .stopped b => locked s { s with stopped := b }

def system : TransitionSystem State Action :=
  TransitionSystem.ofStep
    (fun s => (∃ r, r.thr = [] ∧ s.regs = uartStartup r) ∧ s.im = startupIm ∧ s.head = 0 ∧
      s.tail = 0 ∧ s.xChar = 0 ∧ s.icountTx = 0 ∧ s.pc = .idle ∧ s.added = [] ∧
      s.requested = [] ∧ s.sources = [] ∧ s.started = false)
    (next k)

/-! ## What transmission is promised -/

def State.pending (s : State) : List (BitVec 8) :=
  (List.range ((s.head + 2 ^ k - s.tail) % 2 ^ k)).map fun i => s.buf ((s.tail + i) % 2 ^ k)

structure TxOk (s : State) : Prop where
  written : s.regs.thr = s.sources.map Source.byte
  buffer : s.sources.filterMap Source.fromBuffer ++ s.pending k = s.added
  xchars : s.sources.filterMap Source.fromXchar ++ (if s.xChar = 0 then [] else [s.xChar]) =
    s.requested
  count : s.icountTx = s.regs.thr.length
  ier : s.pc = .idle → s.regs.ier = s.im
  etbei : s.pc = .idle → s.started = true → s.work = true → s.regs.ier &&& etbei ≠ 0

end Size

/-! ## The registers under the lock -/

section Registers

@[simp] theorem dlab_set (x : BitVec 32) : ¬ (x ||| dwUartDlab) &&& dwUartDlab = 0#32 := by
  have hbit := UartReceive.and_bit_eq_zero (x := x ||| dwUartDlab) (n := 7) (by decide)
  refine fun hzero => absurd (hbit.mp hzero) ?_
  simp [dwUartDlab, bit]

@[simp] theorem dlab_clear (x : BitVec 32) : x &&& ~~~dwUartDlab &&& dwUartDlab = 0#32 := by
  refine (UartReceive.and_bit_eq_zero (n := 7) (by decide)).mpr ?_
  simp [dwUartDlab, bit]

theorem lcrh_dlab (c : Cflag) : uartGetTermiosLcrh c &&& dwUartDlab = 0 := by
  obtain ⟨csize, cstopb, parenb, cmspar, parodd⟩ := c
  cases csize <;> cases cstopb <;> cases parenb <;> cases cmspar <;> cases parodd <;> decide

theorem uartFifoReset_spec (r : Regs) :
    (uartFifoReset r).lcr &&& dwUartDlab = 0 ∧ (uartFifoReset r).thr = r.thr := by
  unfold uartFifoReset Regs.writel
  simp [dwUartLcr, dwUartFcr]

theorem writel_ier {r : Regs} (hdlab : r.lcr &&& dwUartDlab = 0) (v : BitVec 32) :
    r.writel v dwUartIer = { r with ier := v } := by
  simp only [Regs.writel, dwUartIer]
  rw [if_neg (by decide), if_pos trivial, if_neg (fun h => h hdlab)]

theorem writel_thr {r : Regs} (hdlab : r.lcr &&& dwUartDlab = 0) (b : BitVec 8) :
    r.writel (b.setWidth 32) dwUartThr = { r with thr := r.thr ++ [b] } := by
  simp only [Regs.writel, dwUartThr]
  rw [if_pos trivial, if_neg (fun h => h hdlab), BitVec.setWidth_setWidth_of_le b (by decide),
    BitVec.setWidth_eq]

theorem uartRestart_spec {r : Regs} (hdlab : r.lcr &&& dwUartDlab = 0) (im : BitVec 32) :
    (uartRestart im r).ier = im ∧ (uartRestart im r).lcr &&& dwUartDlab = 0 ∧
      (uartRestart im r).thr = r.thr := by
  have hreset := uartFifoReset_spec { r with ier := 0 }
  unfold uartRestart
  rw [writel_ier hdlab]
  simp only
  rw [writel_ier hreset.1]
  exact ⟨rfl, hreset⟩

theorem uartStartup_spec (r : Regs) :
    (uartStartup r).ier = startupIm ∧ (uartStartup r).lcr &&& dwUartDlab = 0 ∧
      (uartStartup r).thr = r.thr := by
  have hreset := uartFifoReset_spec (r.writel 0 dwUartIer)
  have hthr : (r.writel 0 dwUartIer).thr = r.thr := by
    simp only [Regs.writel, dwUartIer]
    rw [if_neg (by decide), if_pos trivial]
    split <;> rfl
  unfold uartStartup
  simp only
  rw [writel_ier hreset.1]
  exact ⟨rfl, hreset.1, hreset.2.trans hthr⟩

theorem setBaudRate_spec (quot : BitVec 32) (c : Cflag) (reset r : Regs) :
    (setBaudRate quot c reset r).lcr = uartGetTermiosLcrh c ∧
      (setBaudRate quot c reset r).thr = r.thr := by
  unfold setBaudRate Regs.writel
  simp [dwUartLcr, dwUartDlh, dwUartDll]

theorem uartSetTermios_spec (im quot : BitVec 32) (c : Cflag) (reset r : Regs) :
    (uartSetTermios im quot c reset r).ier = im ∧
      (uartSetTermios im quot c reset r).lcr &&& dwUartDlab = 0 ∧
      (uartSetTermios im quot c reset r).thr = r.thr := by
  obtain ⟨hlcr, hthr⟩ := setBaudRate_spec quot c reset r
  have hdlab : (setBaudRate quot c reset r).lcr &&& dwUartDlab = 0 := by
    rw [hlcr]
    exact lcrh_dlab c
  obtain ⟨hier, hclear, hkept⟩ := uartRestart_spec hdlab im
  exact ⟨hier, hclear, hkept.trans hthr⟩

end Registers

structure Inv (k : ℕ) (s : State) : Prop where
  written : s.regs.thr = s.sources.map Source.byte
  ring : ∃ q, RingContents (2 ^ k) s.buf (s.sources.filterMap Source.fromBuffer).length q ∧
    s.sources.filterMap Source.fromBuffer ++ q = s.added ∧
    s.head = ((s.sources.filterMap Source.fromBuffer).length + q.length) % 2 ^ k ∧
    s.tail = (s.sources.filterMap Source.fromBuffer).length % 2 ^ k
  xchars : s.sources.filterMap Source.fromXchar ++ (if s.xChar = 0 then [] else [s.xChar]) =
    s.requested
  count : s.icountTx = s.regs.thr.length
  ier : s.regs.ier = s.im
  dlab : s.regs.lcr &&& dwUartDlab = 0
  started : s.started = true → s.im &&& etbei ≠ 0
  xWait : ∀ pass, s.pc = .xWait pass → s.xChar ≠ 0
  byteWait : ∀ count pass, s.pc = .byteWait count pass → s.xChar = 0 ∧ s.head ≠ s.tail

section Steps

variable {k : ℕ} {s s' : State}

theorem Inv.txOk (h : Inv k s) : TxOk k s := by
  obtain ⟨q, hring, hadded, hhead, htail⟩ := h.ring
  refine ⟨h.written, ?_, h.xchars, h.count, fun _ => h.ier, fun _ hstarted _ => ?_⟩
  · unfold State.pending
    rw [hhead, htail, hring.eq_map]
    exact hadded
  · rw [h.ier]
    exact h.started hstarted

theorem circNext_eq (k i : ℕ) : circNext k i = (i + 1) % 2 ^ k :=
  Nat.and_two_pow_sub_one_eq_mod _ _

theorem Inv.goto (h : Inv k s) {pc : Pc} {stopped : Bool}
    (hx : ∀ pass, pc = .xWait pass → s.xChar ≠ 0)
    (hbyte : ∀ count pass, pc = .byteWait count pass → s.xChar = 0 ∧ s.head ≠ s.tail) :
    Inv k { s with pc := pc, stopped := stopped } :=
  ⟨h.written, h.ring, h.xchars, h.count, h.ier, h.dlab, h.started, hx, hbyte⟩

theorem Inv.endPass (h : Inv k s) (pass : ℕ) : Inv k (endPass pass s) := by
  unfold UartTransmit.endPass
  split
  · exact h.goto nofun nofun
  · exact h.goto nofun nofun

theorem Inv.writeIm (h : Inv k s) {im : BitVec 32} {started : Bool}
    (hstarted : started = true → im &&& etbei ≠ 0) :
    Inv k { s.writeIm im with started := started } := by
  unfold State.writeIm
  rw [writel_ier h.dlab]
  exact ⟨h.written, h.ring, h.xchars, h.count, rfl, h.dlab, hstarted, h.xWait, h.byteWait⟩

theorem Inv.quiesce (h : Inv k s) (hwork : s.work = false) : Inv k (quiesce s) := by
  refine h.writeIm fun hstarted => ?_
  rw [hwork, Bool.and_false] at hstarted
  cases hstarted

theorem Inv.uartTxChars (h : Inv k s) (pass : ℕ) : Inv k (uartTxChars pass s) := by
  unfold UartTransmit.uartTxChars
  split
  next hx => exact h.goto (fun _ _ => hx) nofun
  next hx =>
    have hzero : s.xChar = 0 := not_not.mp hx
    split
    next hnone =>
      refine (h.quiesce ?_).endPass pass
      rcases hnone with hempty | hstopped
      · simp [State.work, hzero, hempty]
      · simp [State.work, hzero, hstopped]
    next hsome => exact h.goto nofun fun _ _ _ => ⟨hzero, fun hempty => hsome (Or.inl hempty)⟩

theorem Inv.drained (h : Inv k { s with pc := .idle }) (hx : s.xChar = 0) (pass : ℕ) :
    Inv k (drained pass s) := by
  unfold UartTransmit.drained
  split
  next hempty =>
    refine Inv.endPass (h.quiesce ?_) pass
    simp [State.work, hx, hempty]
  next => exact h.endPass pass

theorem filterMap_concat {α β : Type*} (f : α → Option β) (l : List α) (x : α) :
    (l ++ [x]).filterMap f = l.filterMap f ++ (f x).toList := by
  rw [List.filterMap_append]
  congr 1

theorem Inv.sendXchar (h : Inv k s) {pass : ℕ} (hpc : s.pc = .xWait pass) :
    Inv k { s.send (.xchar s.xChar) with xChar := 0, pc := .idle } := by
  have hx := h.xWait pass hpc
  have hxchars := h.xchars
  rw [if_neg hx] at hxchars
  unfold State.send
  rw [writel_thr h.dlab]
  refine ⟨?_, ?_, ?_, ?_, h.ier, h.dlab, h.started, nofun, nofun⟩
  · simp only [List.map_append, List.map_singleton, h.written]
  · simp only [filterMap_concat, Source.fromBuffer, Option.toList_none, List.append_nil]
    exact h.ring
  · simp only [filterMap_concat, Source.fromXchar, Option.toList_some, if_true, List.append_nil]
    exact hxchars
  · simp only [List.length_append, List.length_singleton, h.count]

theorem Inv.sendByte (h : Inv k s) {count : ℤ} {pass : ℕ} (hpc : s.pc = .byteWait count pass) :
    Inv k { s.send (.buffer (s.buf s.tail)) with tail := circNext k s.tail, pc := .idle } := by
  obtain ⟨-, hne⟩ := h.byteWait count pass hpc
  obtain ⟨q, hring, hadded, hhead, htail⟩ := h.ring
  unfold State.send
  rw [writel_thr h.dlab]
  refine ⟨?_, ?_, ?_, ?_, h.ier, h.dlab, h.started, nofun, nofun⟩
  · simp only [List.map_append, List.map_singleton, h.written]
  · cases hq : q with
    | nil =>
      rw [hq, List.length_nil, Nat.add_zero, ← htail] at hhead
      exact absurd hhead hne
    | cons b rest =>
      rw [hq] at hring hadded hhead
      have hbyte : s.buf s.tail = b := by
        rw [htail]
        exact hring.head
      simp only [filterMap_concat, Source.fromBuffer, Option.toList_some, List.length_append,
        List.length_singleton, hbyte]
      refine ⟨rest, hring.pop, ?_, ?_, ?_⟩
      · rw [List.append_assoc, List.singleton_append]
        exact hadded
      · rw [hhead, List.length_cons, Nat.add_assoc, Nat.add_comm 1]
      · rw [circNext_eq, htail, Nat.mod_add_mod]
  · simp only [filterMap_concat, Source.fromXchar, Option.toList_none, List.append_nil]
    exact h.xchars
  · simp only [List.length_append, List.length_singleton, h.count]

theorem Inv.step {i : Input} (h : Inv k s) (hstep : step k s i = some s') : Inv k s' := by
  unfold UartTransmit.step at hstep
  cases hpc : s.pc with
  | idle =>
    simp only [hpc] at hstep
    cases hstep
  | iir pass =>
    simp only [hpc] at hstep
    cases hstep
    split
    · exact h.goto nofun nofun
    · split
      · split
        · exact h.goto nofun nofun
        · exact h.endPass pass
      · split
        · exact h.uartTxChars pass
        · split
          · exact h.goto nofun nofun
          · exact h.endPass pass
  | xWait pass =>
    simp only [hpc] at hstep
    cases hstep
    split
    · exact (h.sendXchar hpc).endPass pass
    · exact h
  | byteWait count pass =>
    obtain ⟨hx, -⟩ := h.byteWait count pass hpc
    have hsent := h.sendByte hpc
    simp only [hpc] at hstep
    split at hstep
    · have hdrained := Inv.drained
        (s := { s.send (.buffer (s.buf s.tail)) with tail := circNext k s.tail }) hsent hx pass
      cases hstep
      split
      next => exact hdrained
      next hmore =>
        split
        · exact hsent.goto nofun fun _ _ _ => ⟨hx, hmore⟩
        · exact hdrained
    · cases hstep
      exact h

theorem Inv.add (h : Inv k s) (hpc : s.pc = .idle) {b : BitVec 8}
    (hroom : circNext k s.head ≠ s.tail) :
    Inv k { s with
      buf := Function.update s.buf s.head b, head := circNext k s.head, added := s.added ++ [b] } := by
  obtain ⟨q, hring, hadded, hhead, htail⟩ := h.ring
  refine ⟨h.written, ⟨q ++ [b], ?_, ?_, ?_, htail⟩, h.xchars, h.count, h.ier, h.dlab, h.started,
    fun pass hwait => ?_, fun count pass hwait => ?_⟩
  · rw [circNext_eq, hhead, htail, Nat.mod_add_mod] at hroom
    simp only
    rw [hhead]
    exact hring.push hroom b
  · rw [← List.append_assoc, hadded]
  · simp only
    rw [circNext_eq, hhead, Nat.mod_add_mod, List.length_append, List.length_singleton,
      Nat.add_assoc]
  · simp only [hpc] at hwait
    cases hwait
  · simp only [hpc] at hwait
    cases hwait

theorem Inv.xchar (h : Inv k s) (hpc : s.pc = .idle) {b : BitVec 8} (hb : b ≠ 0) :
    Inv k { s with
      xChar := b
      requested := (if s.xChar = 0 then s.requested else s.requested.dropLast) ++ [b] } := by
  refine ⟨h.written, h.ring, ?_, h.count, h.ier, h.dlab, h.started, fun pass hwait => ?_,
    fun count pass hwait => ?_⟩
  · have hxchars := h.xchars
    simp only
    rw [if_neg hb]
    congr 1
    split
    next hzero => rwa [if_pos hzero, List.append_nil] at hxchars
    next hne => rw [← hxchars, if_neg hne, List.dropLast_concat]
  · simp only [hpc] at hwait
    cases hwait
  · simp only [hpc] at hwait
    cases hwait

theorem etbei_set (x : BitVec 32) : (x ||| etbei) &&& etbei ≠ 0 := by
  have hbit := UartReceive.and_bit_eq_zero (x := x ||| etbei) (n := 1) (by decide)
  refine fun hzero => absurd (hbit.mp hzero) ?_
  simp [etbei, bit]

theorem etbei_kept (x : BitVec 32) : x &&& ~~~(elsi ||| erbfi) &&& etbei = x &&& etbei := by
  have hother : ~~~(elsi ||| erbfi) &&& etbei = etbei := by decide
  rw [BitVec.and_assoc, hother]

theorem Inv.next {a : Action} (h : Inv k s) (hstep : next k s a = some s') : Inv k s' := by
  cases a with
  | startTx =>
    simp only [UartTransmit.next, locked] at hstep
    split at hstep
    · cases hstep
      exact h.writeIm fun _ => etbei_set s.im
    · cases hstep
  | stopTx =>
    simp only [UartTransmit.next, locked] at hstep
    split at hstep
    · cases hstep
      exact h.writeIm nofun
    · cases hstep
  | stopRx =>
    simp only [UartTransmit.next, locked] at hstep
    split at hstep
    · cases hstep
      refine h.writeIm fun hstarted => ?_
      rw [etbei_kept]
      exact h.started hstarted
    · cases hstep
  | setTermios quot c reset =>
    simp only [UartTransmit.next, locked] at hstep
    split at hstep
    · cases hstep
      obtain ⟨hier, hdlab, hthr⟩ := uartSetTermios_spec s.im quot c reset s.regs
      exact ⟨hthr.trans h.written, h.ring, h.xchars, h.count.trans (congrArg _ hthr.symm), hier,
        hdlab, h.started, h.xWait, h.byteWait⟩
    · cases hstep
  | interrupt =>
    simp only [UartTransmit.next, locked] at hstep
    split at hstep
    · cases hstep
      exact h.goto nofun nofun
    · cases hstep
  | step i => exact h.step hstep
  | add b =>
    simp only [UartTransmit.next, locked] at hstep
    split at hstep
    · cases hstep
    next hroom =>
      split at hstep
      next hpc =>
        cases hstep
        exact h.add hpc hroom
      next => cases hstep
  | xchar b =>
    simp only [UartTransmit.next, locked] at hstep
    split at hstep
    · cases hstep
    next hb =>
      split at hstep
      next hpc =>
        cases hstep
        exact h.xchar hpc hb
      next => cases hstep
  | stopped b =>
    simp only [UartTransmit.next, locked] at hstep
    split at hstep
    · cases hstep
      exact h.goto h.xWait h.byteWait
    · cases hstep

end Steps

/-- THR is written with what is taken from the buffer and with each `x_char`, and the interrupt of
the transmitter is enabled while a started transmission has something to send. -/
theorem txOk_of_reachable {k : ℕ} {s : State} (hreach : (system k).Reachable s) : TxOk k s := by
  have h : Inv k s := by
    apply hreach.invariant
    · rintro s ⟨⟨r, hr, hregs⟩, him, hhead, htail, hx, hcount, hpc, hadded, hrequested, hsources,
        hstarted⟩
      obtain ⟨hier, hdlab, hthr⟩ := uartStartup_spec r
      refine ⟨?_, ⟨[], ⟨?_, nofun⟩, ?_, ?_, ?_⟩, ?_, ?_, ?_, ?_, ?_, ?_, ?_⟩
      · rw [hregs, hthr, hr, hsources]
        rfl
      · exact Nat.two_pow_pos k
      · rw [hsources, hadded]
        rfl
      · rw [hhead, hsources]
        exact (Nat.zero_mod _).symm
      · rw [htail, hsources]
        exact (Nat.zero_mod _).symm
      · rw [hsources, hrequested, hx]
        rfl
      · rw [hcount, hregs, hthr, hr]
        rfl
      · rw [hregs, hier, him]
      · rw [hregs]
        exact hdlab
      · rw [hstarted]
        nofun
      · rw [hpc]
        nofun
      · rw [hpc]
        nofun
    · rintro s a s' - h hstep
      exact h.next hstep
  exact h.txOk

def startedUp : State where
  regs := uartStartup ⟨0, 0, 0, 0, 0, []⟩
  im := startupIm
  buf := fun _ => 0
  head := 0
  tail := 0
  xChar := 0
  stopped := false
  fifosize := 2
  icountTx := 0
  pc := .idle
  added := []
  requested := []
  sources := []
  started := false

def served : List Action := [.step ⟨dwTransemp, false, true⟩, .step ⟨0, false, true⟩]

def sending : List Action :=
  List.flatten [[.add 0x41, .add 0x42, .startTx, .xchar 0x11, .startTx, .interrupt], served, served,
    served, [.step ⟨dwNointerrupt, false, true⟩]]

theorem txOk_of_reachable_sending :
    ∃ s, TransitionSystem.runSteps (next 2) startedUp sending = some s ∧ s.pc = .idle ∧
      s.regs.thr = [0x11, 0x41, 0x42] ∧ s.regs.ier &&& etbei = 0 ∧ TxOk 2 s := by
  refine ⟨_, rfl, rfl, by decide, by decide, txOk_of_reachable ?_⟩
  refine TransitionSystem.Reachable.runSteps (s := startedUp) (l := sending) (.init ?_) rfl
  exact ⟨⟨⟨0, 0, 0, 0, 0, []⟩, rfl, rfl⟩, rfl, rfl, rfl, rfl, rfl, rfl, rfl, rfl, rfl, rfl⟩

end HiMpu.UartTransmit
