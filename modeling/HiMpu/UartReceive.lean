import HiMpu.TransitionSystem

/-!
# Reception of the UART

`uart_intr_server` of `drivers/uart/uart_ker.c` against the receiver of a 16550: a FIFO that
does not overflow, whose bytes have the errors they came with.  A read of LSR shows the errors
of the byte at the head and clears them.  The steps are the reads of IIR, LSR and RBR; what the
kernel makes of a character is `insert`, with the status, the ignore mask and the overrun bit.
-/

namespace HiMpu.UartReceive

def bit (n : ℕ) : BitVec 32 := BitVec.twoPow 32 n

def dwDr : BitVec 32 := bit 0
def uartDwDrOe : BitVec 32 := bit 1
def uartDwDrPe : BitVec 32 := bit 2
def uartDwDrFe : BitVec 32 := bit 3
def uartDwDrBe : BitVec 32 := bit 4
def uartDummyDrRx : BitVec 32 := bit 16
def uartDrError : BitVec 32 := uartDwDrOe ||| uartDwDrBe ||| uartDwDrPe ||| uartDwDrFe
def dwIsrPassLimit : ℕ := 256

def dwReceiverr : BitVec 32 := 0x06
def dwReceiveava : BitVec 32 := 0x04
def dwRectimeout : BitVec 32 := 0x0c
def dwTransemp : BitVec 32 := 0x02
def dwNointerrupt : BitVec 32 := 0x01

structure Tag where
  brk : Bool
  parity : Bool
  frame : Bool
  deriving DecidableEq

def Tag.clean : Tag := ⟨false, false, false⟩

def Tag.bits (t : Tag) : BitVec 32 :=
  (if t.brk then uartDwDrBe else 0) ||| (if t.parity then uartDwDrPe else 0) |||
    (if t.frame then uartDwDrFe else 0)

structure Received where
  byte : BitVec 8
  tag : Tag
  /-- LSR was read while the byte was at the head. -/
  cleared : Bool

inductive TtyFlag
  | normal
  | brk
  | frame
  | parity
  deriving DecidableEq

structure Termios where
  inpck : Bool
  brkint : Bool
  parmrk : Bool
  ignpar : Bool
  ignbrk : Bool
  cread : Bool

def Termios.readMask (t : Termios) : BitVec 32 :=
  uartDwDrOe ||| (if t.inpck then uartDwDrFe ||| uartDwDrPe else 0) |||
    (if t.brkint || t.parmrk then uartDwDrBe else 0)

def Termios.ignoreMask (t : Termios) : BitVec 32 :=
  (if t.ignpar then uartDwDrFe ||| uartDwDrPe else 0) |||
    (if t.ignbrk then uartDwDrBe ||| (if t.ignpar then uartDwDrOe else 0) else 0) |||
    (if t.cread then 0 else uartDummyDrRx)

structure Icount where
  rx : ℕ
  brk : ℕ
  parity : ℕ
  frame : ℕ
  overrun : ℕ

/-- A byte that was passed to `insert` with a flag, or consumed by the handling of a break. -/
structure Passed where
  byte : BitVec 8
  tag : Tag
  flag : Option TtyFlag
  delivered : Bool

inductive Pc
  | idle
  | start
  /-- The first read of LSR, with the interrupt that was identified. -/
  | first (id : BitVec 32)
  | stale
  | rxFirst
  | rxDummy
  | rxChar
  | rxNext
  | tx
  | err
  | iir
  deriving DecidableEq

structure State where
  termios : Termios
  fifo : List Received
  pc : Pc
  lsr : BitVec 32
  status : BitVec 32
  maxCount : ℕ
  passCounter : ℕ
  icount : Icount
  arrived : List (BitVec 8 × Tag)
  log : List Passed

/-- `other` are the bits of LSR for the transmitter and for the FIFO as a whole. -/
def State.lsrValue (s : State) (other : BitVec 32) : BitVec 32 :=
  match s.fifo with
  | [] => other &&& 0xe0
  | r :: _ => dwDr ||| (if r.cleared then 0 else r.tag.bits) ||| (other &&& 0xe0)

def State.readLsr (s : State) : State :=
  { s with
    fifo := match s.fifo with
      | [] => []
      | r :: rest => { r with cleared := true } :: rest }

/-- The counters, and the status and flag with which the character goes on; `none` where
`uart_handle_break` has consumed it. -/
def uartProcRxErr (mask : BitVec 32) (handleBreak : Bool) (icount : Icount) (status : BitVec 32) :
    Icount × Option (BitVec 32 × TtyFlag) :=
  let icount :=
    if status &&& uartDwDrBe ≠ 0 then { icount with brk := icount.brk + 1 }
    else if status &&& uartDwDrPe ≠ 0 then { icount with parity := icount.parity + 1 }
    else if status &&& uartDwDrFe ≠ 0 then { icount with frame := icount.frame + 1 }
    else icount
  let rawStatus :=
    if status &&& uartDwDrBe ≠ 0 then status &&& ~~~(uartDwDrFe ||| uartDwDrPe) else status
  if status &&& uartDwDrBe ≠ 0 ∧ handleBreak = true then (icount, none)
  else
    let icount :=
      if rawStatus &&& uartDwDrOe ≠ 0 then { icount with overrun := icount.overrun + 1 }
      else icount
    let rawStatus := rawStatus &&& mask
    let flag :=
      if rawStatus &&& uartDwDrBe ≠ 0 then TtyFlag.brk
      else if rawStatus &&& uartDwDrPe ≠ 0 then .parity
      else if rawStatus &&& uartDwDrFe ≠ 0 then .frame
      else .normal
    (icount, some (rawStatus, flag))

def procStatus (mask : BitVec 32) (handleBreak : Bool) (icount : Icount) (status : BitVec 32) :
    Icount × Option (BitVec 32 × TtyFlag) :=
  if status &&& uartDrError ≠ 0 then uartProcRxErr mask handleBreak icount status
  else (icount, some (status, .normal))

def endPass (s : State) : State :=
  if s.passCounter = 0 then { s with pc := .idle }
  else { s with passCounter := s.passCounter - 1, pc := .iir }

/-- A pass of the loop of `uart_intr_server`; the interrupts that are not listed do nothing to
the receiver. -/
def identified (s : State) (id : BitVec 32) : State :=
  if id = dwNointerrupt then { s with pc := .idle }
  else if id = dwReceiveava ∨ id = dwRectimeout then
    { s with pc := if s.lsr &&& 0x01 = 0 then .stale else .rxFirst }
  else if id = dwTransemp then { s with pc := .tx }
  else if id = dwReceiverr then { s with pc := .err }
  else endPass s

def rxLoop (s : State) : State :=
  if s.status &&& dwDr ≠ 0 ∧ s.maxCount ≠ 0 then
    { s with maxCount := s.maxCount - 1, pc := .rxChar }
  else endPass s

/-- What else decides a step: the value of IIR and the other bits of LSR, what
`uart_handle_break` returns, and whether `uart_tx_chars` reads LSR once more. -/
structure Input where
  iir : BitVec 32
  other : BitVec 32
  handleBreak : Bool
  more : Bool

section Insert

variable (insert : BitVec 32 → BitVec 32 → BitVec 32 → Bool)

def passOn (t : Termios) (r : Received) : Option (BitVec 32 × TtyFlag) → Passed
  | none => ⟨r.byte, r.tag, none, false⟩
  | some (status, flag) => ⟨r.byte, r.tag, some flag, insert status t.ignoreMask uartDwDrOe⟩

/-- A character is read; its marker bit is put into `ch`, of which eight bits are passed on. -/
def rxChar (s : State) (handleBreak : Bool) : State :=
  let r := s.fifo.headD ⟨0, .clean, true⟩
  let icount := { s.icount with rx := s.icount.rx + 1 }
  let p := procStatus s.termios.readMask handleBreak icount s.status
  { s with
    fifo := s.fifo.tail
    icount := p.1
    log := s.log ++ [passOn insert s.termios r p.2]
    pc := .rxNext }

def step (s : State) (i : Input) : Option State :=
  match s.pc with
  | .idle => none
  | .start => some { s with passCounter := dwIsrPassLimit, pc := .first (0x0f &&& i.iir) }
  | .first id => some (identified { s.readLsr with lsr := s.lsrValue i.other } id)
  | .stale => some { s with fifo := s.fifo.tail, pc := .idle }
  | .rxFirst =>
    let status := s.lsrValue i.other
    let s := { s.readLsr with status := status, maxCount := dwIsrPassLimit }
    some (if status &&& dwDr = 0 then { s with pc := .rxDummy } else rxLoop s)
  -- the loop is not entered without data
  | .rxDummy => some (endPass { s with fifo := s.fifo.tail })
  | .rxChar => some (rxChar insert s i.handleBreak)
  | .rxNext => some (rxLoop { s.readLsr with status := s.lsrValue i.other })
  | .tx => some (if i.more then s.readLsr else endPass s)
  | .err => some { s.readLsr with pc := .idle }
  | .iir => some (identified s (0x0f &&& i.iir))

inductive Action
  | interrupt
  | step (i : Input)
  | arrive (byte : BitVec 8) (tag : Tag)

def next (s : State) : Action → Option State
  | .interrupt => if s.pc = .idle then some { s with pc := .start } else none
  | .step i => step insert s i
  | .arrive byte tag =>
    some { s with
      fifo := s.fifo ++ [Received.mk byte tag false]
      arrived := s.arrived ++ [(byte, tag)] }

def system : TransitionSystem State Action :=
  TransitionSystem.ofStep
    (fun s => s.pc = .idle ∧ s.fifo = [] ∧ s.icount = ⟨0, 0, 0, 0, 0⟩ ∧ s.arrived = [] ∧ s.log = [])
    (next insert)

end Insert

/-! ## What reception is promised -/

def Tag.ttyFlag (mask : BitVec 32) (t : Tag) : TtyFlag :=
  if t.brk then (if mask &&& uartDwDrBe ≠ 0 then .brk else .normal)
  else if t.parity ∧ mask &&& uartDwDrPe ≠ 0 then .parity
  else if t.frame ∧ mask &&& uartDwDrFe ≠ 0 then .frame
  else .normal

def Tag.isBrk (t : Tag) : Bool := t.brk
def Tag.isParity (t : Tag) : Bool := !t.brk && t.parity
def Tag.isFrame (t : Tag) : Bool := !t.brk && !t.parity && t.frame

structure Passed.Ok (mask : BitVec 32) (p : Passed) : Prop where
  flag : ∀ f, p.flag = some f → f = p.tag.ttyFlag mask
  consumed : p.flag = none → p.tag.brk = true

structure RxOk (s : State) : Prop where
  order : s.log.map (fun p => (p.byte, p.tag)) ++ s.fifo.map (fun r => (r.byte, r.tag)) = s.arrived
  passed : ∀ p ∈ s.log, p.Ok s.termios.readMask
  brk : s.icount.brk = s.log.countP fun p => p.tag.isBrk
  parity : s.icount.parity = s.log.countP fun p => p.tag.isParity
  frame : s.icount.frame = s.log.countP fun p => p.tag.isFrame
  cread : s.termios.cread = false → ∀ p ∈ s.log, p.delivered = false

def Tag.dropped (t : Termios) (g : Tag) : Bool :=
  if g.brk then t.ignbrk && (t.brkint || t.parmrk) else (g.parity || g.frame) && t.inpck && t.ignpar

def HeadClean (l : List Received) : Prop := ∀ r ∈ l.head?, r.tag = .clean

instance (l : List Received) : Decidable (HeadClean l) :=
  inferInstanceAs (Decidable (∀ _ ∈ _, _))

/-- No error is at the head when LSR is read for something else than the byte there, no byte is
in the FIFO when RBR is read for nothing, and where CREAD is not set the byte is dropped for its
own errors. -/
def Allowed (s : State) : Action → Prop
  | .step i =>
    match s.pc with
    | .first _ | .err => HeadClean s.fifo
    | .tx => i.more = true → HeadClean s.fifo
    | .rxNext => s.maxCount = 0 → HeadClean s.fifo
    | .stale | .rxDummy => s.fifo = []
    | .rxChar =>
      s.termios.cread = true ∨
        ∀ r ∈ s.fifo.head?, r.tag.brk = true ∧ i.handleBreak = true ∨
          r.tag.dropped s.termios = true
    | _ => True
  | _ => True

/-! ## The status of a character -/

theorem and_bit_eq_zero {x : BitVec 32} {n : ℕ} (hn : n < 32) :
    x &&& bit n = 0 ↔ x.getLsbD n = false := by
  unfold bit
  rw [BitVec.and_twoPow]
  split
  next hbit =>
    refine iff_of_false (fun hzero => ?_) (fun hfalse => ?_)
    · have h := congrArg (fun y : BitVec 32 => y.getLsbD n) hzero
      simp [hn] at h
    · rw [hbit] at hfalse
      cases hfalse
  next hbit => exact iff_of_true rfl (Bool.eq_false_of_not_eq_true hbit)

@[simp] theorem and_be {x : BitVec 32} : x &&& uartDwDrBe = 0#32 ↔ x[4] = false :=
  and_bit_eq_zero (by decide)

@[simp] theorem and_pe {x : BitVec 32} : x &&& uartDwDrPe = 0#32 ↔ x[2] = false :=
  and_bit_eq_zero (by decide)

@[simp] theorem and_fe {x : BitVec 32} : x &&& uartDwDrFe = 0#32 ↔ x[3] = false :=
  and_bit_eq_zero (by decide)

@[simp] theorem and_oe {x : BitVec 32} : x &&& uartDwDrOe = 0#32 ↔ x[1] = false :=
  and_bit_eq_zero (by decide)

@[simp] theorem and_dr {x : BitVec 32} : x &&& dwDr = 0#32 ↔ x[0] = false :=
  and_bit_eq_zero (by decide)

@[simp] theorem and_error {x : BitVec 32} :
    x &&& uartDrError = 0#32 ↔ ((x[1] = false ∧ x[4] = false) ∧ x[2] = false) ∧ x[3] = false := by
  unfold uartDrError
  rw [BitVec.and_or_distrib_left, BitVec.and_or_distrib_left, BitVec.and_or_distrib_left,
    BitVec.or_eq_zero_iff, BitVec.or_eq_zero_iff, BitVec.or_eq_zero_iff, and_oe, and_be, and_pe,
    and_fe]

theorem getElem_breakMask (x : BitVec 32) :
    (x &&& ~~~(uartDwDrFe ||| uartDwDrPe))[1] = x[1] ∧
      (x &&& ~~~(uartDwDrFe ||| uartDwDrPe))[4] = x[4] ∧
      (x &&& ~~~(uartDwDrFe ||| uartDwDrPe))[2] = false ∧
      (x &&& ~~~(uartDwDrFe ||| uartDwDrPe))[3] = false := by
  simp [uartDwDrFe, uartDwDrPe, bit]

structure Shows (status : BitVec 32) (t : Tag) : Prop where
  oe : status[1] = false
  be : status[4] = t.brk
  pe : status[2] = t.parity
  fe : status[3] = t.frame

section Status

variable {status : BitVec 32} {t : Tag}

theorem procStatus_counts (h : Shows status t) (mask : BitVec 32) (handleBreak : Bool)
    (icount : Icount) :
    (procStatus mask handleBreak icount status).1 =
      { icount with
        brk := icount.brk + (if t.isBrk then 1 else 0)
        parity := icount.parity + (if t.isParity then 1 else 0)
        frame := icount.frame + (if t.isFrame then 1 else 0) } := by
  obtain ⟨brk, parity, frame⟩ := t
  have hkept := getElem_breakMask status
  obtain ⟨hoe, hbe, hpe, hfe⟩ := h
  simp only at hbe hpe hfe
  unfold procStatus uartProcRxErr Tag.isBrk Tag.isParity Tag.isFrame
  cases brk <;> cases parity <;> cases frame <;> cases handleBreak <;>
    simp [hoe, hbe, hpe, hfe, hkept]

theorem procStatus_char (h : Shows status t) (mask : BitVec 32) (handleBreak : Bool)
    (icount : Icount) :
    (procStatus mask handleBreak icount status).2 = none ∧ t.brk = true ∧ handleBreak = true ∨
      ¬ (t.brk = true ∧ handleBreak = true) ∧
      ∃ passed, (procStatus mask handleBreak icount status).2 = some (passed, t.ttyFlag mask) ∧
        (t ≠ .clean → passed[4] = (t.brk && mask[4]) ∧
          passed[2] = (!t.brk && t.parity && mask[2]) ∧
          passed[3] = (!t.brk && t.frame && mask[3])) := by
  obtain ⟨brk, parity, frame⟩ := t
  have hkept := getElem_breakMask status
  obtain ⟨hoe, hbe, hpe, hfe⟩ := h
  simp only at hbe hpe hfe
  unfold procStatus uartProcRxErr Tag.ttyFlag
  cases brk <;> cases parity <;> cases frame <;> cases handleBreak <;>
    simp [hoe, hbe, hpe, hfe, hkept, Tag.clean]

theorem Tag.getElem_bits (t : Tag) :
    t.bits[1] = false ∧ t.bits[4] = t.brk ∧ t.bits[2] = t.parity ∧ t.bits[3] = t.frame := by
  obtain ⟨brk, parity, frame⟩ := t
  cases brk <;> cases parity <;> cases frame <;> decide

theorem lsrValue_dr (s : State) (other : BitVec 32) :
    s.lsrValue other &&& dwDr = 0 ↔ s.fifo = [] := by
  unfold State.lsrValue
  cases s.fifo with
  | nil => simp
  | cons r rest =>
    refine Iff.trans and_dr ?_
    simp [dwDr, bit]

theorem lsrValue_shows {s : State} {r : Received} {rest : List Received} (hfifo : s.fifo = r :: rest)
    (hlive : r.cleared = true → r.tag = .clean) (other : BitVec 32) :
    Shows (s.lsrValue other) r.tag := by
  have hbits := r.tag.getElem_bits
  unfold State.lsrValue
  rw [hfifo]
  cases hcleared : r.cleared with
  | false => constructor <;> simp [dwDr, bit, hbits, hcleared]
  | true =>
    rw [hlive hcleared]
    constructor <;> simp [dwDr, bit, hcleared, Tag.clean]

end Status

def Live (l : List Received) : Prop := ∀ r ∈ l, r.cleared = true → r.tag = .clean

structure Inv (s : State) : Prop where
  rx : RxOk s
  live : s.pc ≠ .rxChar → Live s.fifo
  shown : s.pc = .rxChar → ∃ r rest, s.fifo = r :: rest ∧ Live rest ∧ Shows s.status r.tag

section Steps

variable {s s' : State}

theorem RxOk.goto (h : RxOk s) {pc : Pc} {lsr status : BitVec 32} {maxCount passCounter : ℕ} :
    RxOk { s with
      pc := pc, lsr := lsr, status := status, maxCount := maxCount, passCounter := passCounter } :=
  ⟨h.order, h.passed, h.brk, h.parity, h.frame, h.cread⟩

theorem Inv.goto (h : RxOk s) (hlive : Live s.fifo) {pc : Pc} {lsr status : BitVec 32}
    {maxCount passCounter : ℕ} (hpc : pc ≠ .rxChar) :
    Inv { s with
      pc := pc, lsr := lsr, status := status, maxCount := maxCount, passCounter := passCounter } :=
  ⟨h.goto, fun _ => hlive, fun hchar => absurd hchar hpc⟩

theorem RxOk.readLsr (h : RxOk s) : RxOk s.readLsr := by
  refine ⟨?_, h.passed, h.brk, h.parity, h.frame, h.cread⟩
  refine Eq.trans ?_ h.order
  unfold State.readLsr
  cases s.fifo with
  | nil => rfl
  | cons r rest => rfl

theorem Live.readLsr (h : Live s.fifo) (hclean : HeadClean s.fifo) : Live s.readLsr.fifo := by
  unfold State.readLsr
  cases hfifo : s.fifo with
  | nil =>
    intro r hr
    cases hr
  | cons r rest =>
    rw [hfifo] at h hclean
    intro x hx hcleared
    rcases List.mem_cons.mp hx with rfl | hx
    · exact hclean r rfl
    · exact h x (List.mem_cons_of_mem r hx) hcleared

theorem Inv.endPass (h : RxOk s) (hlive : Live s.fifo) : Inv (endPass s) := by
  unfold UartReceive.endPass
  split
  · exact Inv.goto h hlive nofun
  · exact Inv.goto h hlive nofun

theorem Inv.identified (h : RxOk s) (hlive : Live s.fifo) (id : BitVec 32) :
    Inv (identified s id) := by
  unfold UartReceive.identified
  split
  · exact Inv.goto h hlive nofun
  · split
    · refine Inv.goto h hlive ?_
      split
      · nofun
      · nofun
    · split
      · exact Inv.goto h hlive nofun
      · split
        · exact Inv.goto h hlive nofun
        · exact Inv.endPass h hlive

theorem Inv.rxLoop (h : RxOk s) (hlive : Live s.fifo) {other : BitVec 32} {n : ℕ}
    (hclean : n = 0 → HeadClean s.fifo) :
    Inv (rxLoop { s.readLsr with status := s.lsrValue other, maxCount := n }) := by
  unfold UartReceive.rxLoop
  dsimp only
  split
  next hgo =>
    refine ⟨h.readLsr.goto, fun hchar => absurd rfl hchar, fun _ => ?_⟩
    cases hfifo : s.fifo with
    | nil => exact absurd ((lsrValue_dr s other).mpr hfifo) hgo.1
    | cons r rest =>
      rw [hfifo] at hlive
      refine ⟨{ r with cleared := true }, rest, ?_, fun x hx => ?_, ?_⟩
      · simp only [State.readLsr, hfifo]
      · exact hlive x (List.mem_cons_of_mem r hx)
      · exact lsrValue_shows hfifo (hlive r List.mem_cons_self) other
  next hend =>
    refine Inv.endPass h.readLsr.goto (hlive.readLsr ?_)
    by_cases hzero : n = 0
    · exact hclean hzero
    · have hempty : s.fifo = [] := by
        by_contra hne
        exact hend ⟨fun hdr => hne ((lsrValue_dr s other).mp hdr), hzero⟩
      rw [hempty]
      nofun

section Insert

variable {insert : BitVec 32 → BitVec 32 → BitVec 32 → Bool}

def Ignores (insert : BitVec 32 → BitVec 32 → BitVec 32 → Bool) : Prop :=
  ∀ status ignore overrun, status &&& ignore &&& ~~~overrun ≠ 0 → insert status ignore overrun = false

theorem Termios.getElem_readMask (t : Termios) :
    t.readMask[4] = (t.brkint || t.parmrk) ∧ t.readMask[2] = t.inpck ∧ t.readMask[3] = t.inpck := by
  unfold Termios.readMask
  cases t.inpck <;> cases (t.brkint || t.parmrk) <;> decide

theorem Termios.getElem_ignoreMask (t : Termios) :
    t.ignoreMask[4] = t.ignbrk ∧ t.ignoreMask[2] = t.ignpar ∧ t.ignoreMask[3] = t.ignpar := by
  unfold Termios.ignoreMask
  cases t.ignpar <;> cases t.ignbrk <;> cases t.cread <;> decide

theorem ignored_of_dropped {t : Termios} {g : Tag} {status : BitVec 32}
    (hdropped : g.dropped t = true)
    (hstatus : g ≠ .clean → status[4] = (g.brk && t.readMask[4]) ∧
      status[2] = (!g.brk && g.parity && t.readMask[2]) ∧
      status[3] = (!g.brk && g.frame && t.readMask[3])) :
    status &&& t.ignoreMask &&& ~~~uartDwDrOe ≠ 0 := by
  have hread := t.getElem_readMask
  have hignore := t.getElem_ignoreMask
  obtain ⟨brk, parity, frame⟩ := g
  intro hzero
  have hbit : ∀ n : ℕ, ∀ hn : n < 32, (status &&& t.ignoreMask &&& ~~~uartDwDrOe)[n] = false := by
    intro n hn
    rw [hzero]
    exact BitVec.getElem_zero hn
  have hbe := hbit 4 (by decide)
  have hpe := hbit 2 (by decide)
  have hfe := hbit 3 (by decide)
  simp only [BitVec.getElem_and, BitVec.getElem_not, hignore, uartDwDrOe, bit,
    BitVec.getElem_twoPow] at hbe hpe hfe
  unfold Tag.dropped at hdropped
  cases brk <;> cases parity <;> cases frame <;> simp_all [Tag.clean]

theorem passOn_ok (hinsert : Ignores insert) {t : Termios} {r : Received} {status : BitVec 32}
    (hshows : Shows status r.tag) (handleBreak : Bool) (icount : Icount) :
    (passOn insert t r (procStatus t.readMask handleBreak icount status).2).Ok t.readMask ∧
      (r.tag.brk = true ∧ handleBreak = true ∨ r.tag.dropped t = true →
        (passOn insert t r (procStatus t.readMask handleBreak icount status).2).delivered = false) := by
  rcases procStatus_char hshows t.readMask handleBreak icount with
    ⟨hnone, hbrk, -⟩ | ⟨hgoes, passed, hsome, hbits⟩
  · rw [hnone]
    exact ⟨⟨nofun, fun _ => hbrk⟩, fun _ => rfl⟩
  · rw [hsome]
    refine ⟨⟨?_, nofun⟩, fun hdropped => ?_⟩
    · rintro f ⟨⟩
      rfl
    · exact hinsert _ _ _ (ignored_of_dropped (hdropped.resolve_left hgoes) hbits)

theorem passOn_byte (t : Termios) (r : Received) (c : Option (BitVec 32 × TtyFlag)) :
    ((passOn insert t r c).byte, (passOn insert t r c).tag) = (r.byte, r.tag) := by
  cases c with
  | none => rfl
  | some c => rfl

theorem RxOk.pass (h : RxOk s) {r : Received} {rest : List Received} (hfifo : s.fifo = r :: rest)
    {p : Passed} (hbyte : (p.byte, p.tag) = (r.byte, r.tag)) (hok : p.Ok s.termios.readMask)
    (hcread : s.termios.cread = false → p.delivered = false) {icount : Icount} {pc : Pc}
    (hbrk : icount.brk = s.icount.brk + if r.tag.isBrk then 1 else 0)
    (hparity : icount.parity = s.icount.parity + if r.tag.isParity then 1 else 0)
    (hframe : icount.frame = s.icount.frame + if r.tag.isFrame then 1 else 0) :
    RxOk { s with fifo := rest, icount := icount, log := s.log ++ [p], pc := pc } := by
  have htag : p.tag = r.tag := (Prod.ext_iff.mp hbyte).2
  refine ⟨?_, fun x hx => ?_, ?_, ?_, ?_, fun hoff x hx => ?_⟩
  · have horder := h.order
    rw [hfifo, List.map_cons] at horder
    rw [← horder, List.map_append, List.map_singleton, hbyte, List.append_assoc,
      List.singleton_append]
  · rcases List.mem_append.mp hx with hx | hx
    · exact h.passed x hx
    · rw [List.mem_singleton.mp hx]
      exact hok
  · rw [List.countP_append, List.countP_singleton, htag, ← h.brk, hbrk]
  · rw [List.countP_append, List.countP_singleton, htag, ← h.parity, hparity]
  · rw [List.countP_append, List.countP_singleton, htag, ← h.frame, hframe]
  · rcases List.mem_append.mp hx with hx | hx
    · exact h.cread hoff x hx
    · rw [List.mem_singleton.mp hx]
      exact hcread hoff

theorem Inv.rxChar (hinsert : Ignores insert) (h : RxOk s) {r : Received} {rest : List Received}
    (hfifo : s.fifo = r :: rest) (hlive : Live rest) (hshows : Shows s.status r.tag)
    {handleBreak : Bool}
    (hcread : s.termios.cread = true ∨
      (r.tag.brk = true ∧ handleBreak = true ∨ r.tag.dropped s.termios = true)) :
    Inv (rxChar insert s handleBreak) := by
  have hpassed := passOn_ok (t := s.termios) hinsert hshows handleBreak
    { s.icount with rx := s.icount.rx + 1 }
  have hcounts := procStatus_counts hshows s.termios.readMask handleBreak
    { s.icount with rx := s.icount.rx + 1 }
  have hhead : s.fifo.headD ⟨0, .clean, true⟩ = r := by
    rw [hfifo]
    rfl
  have htail : s.fifo.tail = rest := by
    rw [hfifo]
    rfl
  unfold UartReceive.rxChar
  dsimp only
  rw [hhead, htail]
  refine ⟨h.pass hfifo (passOn_byte _ _ _) hpassed.1 (fun hoff => hpassed.2 ?_) ?_ ?_ ?_,
    fun _ => hlive, nofun⟩
  · rcases hcread with hon | hdropped
    · rw [hoff] at hon
      cases hon
    · exact hdropped
  · rw [hcounts]
  · rw [hcounts]
  · rw [hcounts]

theorem Inv.step (hinsert : Ignores insert) {i : Input} (h : Inv s)
    (hallowed : Allowed s (.step i)) (hstep : step insert s i = some s') : Inv s' := by
  unfold UartReceive.step at hstep
  cases hpc : s.pc with
  | idle =>
    simp only [hpc] at hstep
    cases hstep
  | start =>
    have hlive := h.live (by rw [hpc]; nofun)
    simp only [hpc] at hstep
    cases hstep
    exact Inv.goto h.rx hlive nofun
  | first id =>
    have hlive := h.live (by rw [hpc]; nofun)
    simp only [hpc] at hstep
    cases hstep
    simp only [Allowed, hpc] at hallowed
    exact Inv.identified (s := { s.readLsr with lsr := s.lsrValue i.other }) h.rx.readLsr.goto
      (hlive.readLsr hallowed) id
  | stale =>
    simp only [hpc] at hstep
    cases hstep
    simp only [Allowed, hpc] at hallowed
    have hrx := h.rx
    have hlive := h.live (by rw [hpc]; nofun)
    have htail : s.fifo.tail = s.fifo := by
      rw [hallowed]
      rfl
    rw [htail]
    exact Inv.goto hrx hlive nofun
  | rxFirst =>
    have hlive := h.live (by rw [hpc]; nofun)
    simp only [hpc] at hstep
    cases hstep
    split
    next hdr =>
      have hempty : s.fifo = [] := (lsrValue_dr s i.other).mp hdr
      refine Inv.goto h.rx.readLsr (hlive.readLsr ?_) nofun
      rw [hempty]
      nofun
    next => exact Inv.rxLoop h.rx hlive fun hzero => absurd hzero (by decide)
  | rxDummy =>
    simp only [hpc] at hstep
    cases hstep
    simp only [Allowed, hpc] at hallowed
    have hlive := h.live (by rw [hpc]; nofun)
    have htail : s.fifo.tail = s.fifo := by
      rw [hallowed]
      rfl
    rw [htail]
    exact Inv.endPass h.rx.goto hlive
  | rxChar =>
    obtain ⟨r, rest, hfifo, hlive, hshows⟩ := h.shown hpc
    simp only [hpc] at hstep
    cases hstep
    simp only [Allowed, hpc] at hallowed
    refine Inv.rxChar hinsert h.rx hfifo hlive hshows (hallowed.imp_right fun hall => hall r ?_)
    rw [hfifo]
    rfl
  | rxNext =>
    have hlive := h.live (by rw [hpc]; nofun)
    simp only [hpc] at hstep
    cases hstep
    simp only [Allowed, hpc] at hallowed
    exact Inv.rxLoop h.rx hlive hallowed
  | tx =>
    have hlive := h.live (by rw [hpc]; nofun)
    simp only [hpc] at hstep
    cases hstep
    simp only [Allowed, hpc] at hallowed
    split
    next hmore =>
      refine ⟨h.rx.readLsr, fun _ => hlive.readLsr (hallowed hmore), fun hchar => ?_⟩
      rw [show s.readLsr.pc = .tx from hpc] at hchar
      cases hchar
    next => exact Inv.endPass h.rx hlive
  | err =>
    have hlive := h.live (by rw [hpc]; nofun)
    simp only [hpc] at hstep
    cases hstep
    simp only [Allowed, hpc] at hallowed
    exact Inv.goto h.rx.readLsr (hlive.readLsr hallowed) nofun
  | iir =>
    have hlive := h.live (by rw [hpc]; nofun)
    simp only [hpc] at hstep
    cases hstep
    exact Inv.identified h.rx hlive _

theorem Inv.arrive (h : Inv s) (byte : BitVec 8) (tag : Tag) :
    Inv { s with
      fifo := s.fifo ++ [Received.mk byte tag false]
      arrived := s.arrived ++ [(byte, tag)] } := by
  have happend : ∀ l : List Received, Live l → Live (l ++ [Received.mk byte tag false]) := by
    intro l hl r hr hcleared
    rcases List.mem_append.mp hr with hr | hr
    · exact hl r hr hcleared
    · rw [List.mem_singleton.mp hr] at hcleared
      cases hcleared
  refine ⟨⟨?_, h.rx.passed, h.rx.brk, h.rx.parity, h.rx.frame, h.rx.cread⟩,
    fun hpc => happend _ (h.live hpc), fun hpc => ?_⟩
  · simp only
    rw [← h.rx.order, List.map_append, List.map_singleton, List.append_assoc]
  · obtain ⟨r, rest, hfifo, hlive, hshows⟩ := h.shown hpc
    refine ⟨r, rest ++ [Received.mk byte tag false], ?_, happend rest hlive, hshows⟩
    simp only
    rw [hfifo, List.cons_append]

theorem Inv.next (hinsert : Ignores insert) {a : Action} (h : Inv s) (hallowed : Allowed s a)
    (hstep : next insert s a = some s') : Inv s' := by
  cases a with
  | interrupt =>
    simp only [UartReceive.next] at hstep
    split at hstep
    next hpc =>
      cases hstep
      exact Inv.goto h.rx (h.live (by rw [hpc]; nofun)) nofun
    next => cases hstep
  | step i => exact h.step hinsert hallowed hstep
  | arrive byte tag =>
    cases hstep
    exact h.arrive byte tag

end Insert

end Steps

/-- In a run of allowed steps every byte that came in is passed on with its own flag, in order and
counted, or is still in the FIFO; and none is delivered where CREAD is not set. -/
theorem rxOk_of_allowed {insert : BitVec 32 → BitVec 32 → BitVec 32 → Bool}
    (hinsert : Ignores insert) {s : State}
    (hreach : ((system insert).restrict Allowed).Reachable s) : RxOk s := by
  have h : Inv s := by
    apply hreach.invariant
    · rintro s ⟨hpc, hfifo, hicount, harrived, hlog⟩
      refine ⟨⟨?_, ?_, ?_, ?_, ?_, ?_⟩, fun _ => ?_, fun hchar => ?_⟩
      · rw [hlog, hfifo, harrived]
        rfl
      · rw [hlog]
        nofun
      · rw [hlog, hicount]
        rfl
      · rw [hlog, hicount]
        rfl
      · rw [hlog, hicount]
        rfl
      · rw [hlog]
        nofun
      · rw [hfifo]
        nofun
      · rw [hpc] at hchar
        cases hchar
    · rintro s a s' - h ⟨hallowed, hstep⟩
      exact h.next hinsert hallowed hstep
  exact h.rx

instance decidableAllowed (s : State) : (a : Action) → Decidable (Allowed s a)
  | .step i =>
    match hpc : s.pc with
    | .first _ | .err => decidable_of_iff (HeadClean s.fifo) (by simp only [Allowed, hpc])
    | .tx =>
      decidable_of_iff (i.more = true → HeadClean s.fifo) (by simp only [Allowed, hpc])
    | .rxNext =>
      decidable_of_iff (s.maxCount = 0 → HeadClean s.fifo) (by simp only [Allowed, hpc])
    | .stale | .rxDummy =>
      decidable_of_iff (s.fifo.isEmpty = true)
        (by simp only [Allowed, hpc, List.isEmpty_iff])
    | .rxChar =>
      decidable_of_iff (s.termios.cread = true ∨
        ∀ r ∈ s.fifo.head?, r.tag.brk = true ∧ i.handleBreak = true ∨
          r.tag.dropped s.termios = true) (by simp only [Allowed, hpc])
    | .idle | .start | .rxFirst | .iir => .isTrue (by simp only [Allowed, hpc])
  | .interrupt | .arrive _ _ => .isTrue trivial

def uartInsertChar (status ignore overrun : BitVec 32) : Bool :=
  status &&& ignore &&& ~~~overrun = 0

theorem uartInsertChar_ignores : Ignores uartInsertChar :=
  fun _ _ _ hne => decide_eq_false hne

def opened (cread : Bool) : State where
  termios := ⟨true, true, false, false, false, cread⟩
  fifo := []
  pc := .idle
  lsr := 0
  status := 0
  maxCount := 0
  passCounter := 0
  icount := ⟨0, 0, 0, 0, 0⟩
  arrived := []
  log := []

def go (iir : BitVec 32) : Action := .step ⟨iir, 0x60, false, false⟩

def parityError : Tag := ⟨false, true, false⟩

def receiving : List Action :=
  [.arrive 0x41 .clean, .arrive 0x42 parityError, .interrupt, go dwReceiveava, go 0, go 0, go 0,
    go 0, go 0, go 0, go dwNointerrupt]

theorem rxOk_of_allowed_receiving :
    ∃ s, TransitionSystem.runSteps (TransitionSystem.guarded Allowed (next uartInsertChar))
        (opened true) receiving = some s ∧
      s.log.map Passed.flag = [some .normal, some .parity] ∧ s.icount.parity = 1 ∧ RxOk s := by
  refine ⟨_, rfl, by decide, by decide, rxOk_of_allowed uartInsertChar_ignores ?_⟩
  exact TransitionSystem.Reachable.runGuarded (l := receiving)
    (TransitionSystem.Reachable.init (s := opened true) ⟨rfl, rfl, rfl, rfl, rfl⟩) rfl

def marking : List Action :=
  [.arrive 0x42 parityError, .interrupt, go dwReceiverr, go 0, go 0, .interrupt, go dwReceiveava,
    go 0, go 0, go 0, go 0, go dwNointerrupt]

def serving : List Action :=
  [.interrupt, go dwTransemp, go 0, .arrive 0x41 .clean, go 0, go dwReceiveava, go 0]

def ignoring : List Action :=
  [.arrive 0x41 .clean, .interrupt, go dwReceiveava, go 0, go 0, go 0, go 0, go dwNointerrupt]

/-- A parity error is neither counted nor marked; a byte is lost; and one is delivered although CREAD
is not set. -/
theorem reception_breaks :
    (∃ s, TransitionSystem.runSteps (next uartInsertChar) (opened true) marking = some s ∧
      (system uartInsertChar).Reachable s ∧ s.log.map Passed.flag = [some .normal] ∧
      s.icount.parity = 0 ∧ ¬ RxOk s) ∧
    (∃ s, TransitionSystem.runSteps (next uartInsertChar) (opened true) serving = some s ∧
      (system uartInsertChar).Reachable s ∧ s.arrived.length = 1 ∧ s.log.length = 0 ∧
      s.fifo.length = 0 ∧ ¬ RxOk s) ∧
    ∃ s, TransitionSystem.runSteps (next uartInsertChar) (opened false) ignoring = some s ∧
      (system uartInsertChar).Reachable s ∧ s.log.map Passed.delivered = [true] ∧ ¬ RxOk s := by
  have hopened : ∀ cread, (system uartInsertChar).Reachable (opened cread) :=
    fun _ => .init ⟨rfl, rfl, rfl, rfl, rfl⟩
  refine ⟨⟨_, rfl, ?_, by decide, by decide, fun h => ?_⟩,
    ⟨_, rfl, ?_, by decide, by decide, by decide, fun h => ?_⟩, ⟨_, rfl, ?_, by decide, fun h => ?_⟩⟩
  · exact TransitionSystem.Reachable.runSteps (l := marking) (hopened true) rfl
  · exact absurd h.parity (by decide)
  · exact TransitionSystem.Reachable.runSteps (l := serving) (hopened true) rfl
  · have hlength := congrArg List.length h.order
    exact absurd hlength (by decide)
  · exact TransitionSystem.Reachable.runSteps (l := ignoring) (hopened false) rfl
  · have hdelivered := h.cread rfl _ (List.mem_singleton.mpr rfl)
    exact absurd hdelivered (by decide)

end HiMpu.UartReceive
