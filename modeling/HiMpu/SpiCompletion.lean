import HiMpu.HispiBuffer

/-!
# Completions of the Linux SPI controller

`hi309x_spi_transfer_one` of `drivers/spi/spi_hi309x.c` against `h309x_spi_irq`.  The
controller has a FIFO of 32 frames for each direction.  It shifts a frame out and one in while
a device is selected; it raises TX_EMPTY while the transmit FIFO is empty, RX_FULL while the
receive FIFO is above its line, and RX_OVERFLOW once a frame has found it full.  What the FIFOs
have after the controller was disabled and enabled again is left open.
-/

namespace HiMpu.SpiCompletion

open Hispi (txEmpty rxOver rxFull einval eintr etime etimedout hispiEnableIntr hispiDisableIntr)

abbrev Frame := BitVec 16

def txFifoSize : ℕ := 32
def rxFifoSize : ℕ := 32
def spiStartReceive : Frame := 0x5a5a

structure Transfer where
  txBuf : Option (ℕ → BitVec 8)
  rxBuf : Bool
  len : ℕ
  wide : Bool

def getFrameNum (xfer : Transfer) : ℕ := if xfer.wide then xfer.len / 2 else xfer.len

def frameAt (wide : Bool) (buf : Option (ℕ → BitVec 8)) (i : ℕ) : Frame :=
  match buf with
  | none => spiStartReceive
  | some b => if wide then b (2 * i + 1) ++ b (2 * i) else (b i).setWidth 16

def frames (xfer : Transfer) (buf : Option (ℕ → BitVec 8)) : List Frame :=
  (List.range (getFrameNum xfer)).map (frameAt xfer.wide buf)

def frameBytes (wide : Bool) (f : Frame) : List (BitVec 8) :=
  if wide then [f.setWidth 8, (f >>> 8).setWidth 8] else [f.setWidth 8]

def readNum (xfer : Transfer) : ℕ := if xfer.wide then (xfer.len + 1) / 2 else xfer.len

/-- Where a transfer stands; `dummy` is for the write of the receive path. -/
inductive Pc
  | idle
  | config
  | wConfig
  | rConfig
  | rClear
  | wStart (dummy : Bool)
  | wLoad (dummy : Bool)
  | wEnable (dummy : Bool)
  | wActivate (dummy : Bool)
  | wTest (dummy : Bool)
  | wAsleep (dummy : Bool)
  | wLast (dummy : Bool)
  | wIdle (dummy : Bool)
  | rArm
  | rEnable
  | rTest
  | rAsleep
  | rLast
  | rRead
  | reset (ret : ℤ)
  deriving DecidableEq

structure Clocked where
  out : Frame
  inn : Frame

structure Result where
  xfer : Transfer
  ret : ℤ
  line : List Clocked
  rx : List (BitVec 8)

structure State where
  imr : BitVec 32
  duplex : Bool
  rxftlr : BitVec 32
  selected : Bool
  txFifo : List Frame
  rxFifo : List Frame
  overflow : Bool
  wWaitFlag : ℕ
  rWaitFlag : ℕ
  /-- The queue of the waiter has been woken since its last test. -/
  woken : Bool
  pc : Pc
  xfer : Transfer
  /-- What was clocked since the transfer began, and what its receive buffer has. -/
  line : List Clocked
  rx : List (BitVec 8)
  result : Option Result

structure Residue where
  tx : List Frame
  rx : List Frame
  overflow : Bool

def State.restart (s : State) (r : Residue) : State :=
  { s with txFifo := r.tx, rxFifo := r.rx, overflow := r.overflow }

inductive Input
  | go
  | fails
  | timeout
  | signal
  | residue (r : Residue)
  | junk (f : Frame)

def Input.res : Input → Residue
  | .residue r => r
  | _ => ⟨[], [], false⟩

def Input.frame : Input → Frame
  | .junk f => f
  | _ => 0

def written (s : State) (dummy : Bool) (ret : ℤ) : State :=
  -- the receive path does not look at the result
  if dummy then { s with pc := .rArm }
  else if s.xfer.rxBuf then
    -- the transfer returns without its reset
    if ret ≠ 0 then
      { s with pc := .idle, result := some ⟨s.xfer, ret, s.line, s.rx⟩ }
    else { s with pc := .rConfig }
  else { s with pc := .reset ret }

def step (s : State) (i : Input) : Option State :=
  match s.pc with
  | .idle => none
  | .config =>
    match i with
    | .fails => some { s with pc := .reset (-einval) }
    | _ =>
      let s := s.restart i.res
      some (if s.xfer.txBuf.isSome then { s with pc := .wConfig }
        else if s.xfer.rxBuf then { s with pc := .rConfig }
        else { s with pc := .reset (-einval) })
  | .wConfig => some { s.restart i.res with duplex := false, pc := .wStart false }
  | .rConfig =>
    some { s.restart i.res with
      duplex := true
      rxftlr := BitVec.ofNat 32 (getFrameNum s.xfer) - 1
      imr := hispiDisableIntr s.imr (txEmpty ||| rxFull ||| rxOver)
      pc := .rClear }
  | .rClear => some { s with rxFifo := [], pc := .wStart true }
  | .wStart dummy => some { s with selected := false, wWaitFlag := 1, pc := .wLoad dummy }
  | .wLoad dummy =>
    let buf := if dummy then none else s.xfer.txBuf
    some { s with
      txFifo := s.txFifo ++ (frames s.xfer buf).take (txFifoSize - s.txFifo.length)
      pc := .wEnable dummy }
  | .wEnable dummy =>
    some { s with imr := hispiEnableIntr s.imr txEmpty, pc := .wActivate dummy }
  | .wActivate dummy => some { s with selected := true, woken := false, pc := .wTest dummy }
  | .wTest dummy => some { s with pc := if s.wWaitFlag = 0 then .wIdle dummy else .wAsleep dummy }
  | .wAsleep dummy =>
    match i with
    | .signal => some (written s dummy (-eintr))
    | .timeout => some { s with pc := .wLast dummy }
    | _ => if s.woken then some { s with woken := false, pc := .wTest dummy } else none
  | .wLast dummy =>
    some (if s.wWaitFlag ≠ 0 then written s dummy (-etimedout) else { s with pc := .wIdle dummy })
  | .wIdle dummy =>
    if s.txFifo = [] then some (written s dummy 0)
    else
      match i with
      | .timeout => some (written s dummy (-etime))
      | _ => none
  | .rArm => some { s with rWaitFlag := 1, pc := .rEnable }
  | .rEnable =>
    some { s with imr := hispiEnableIntr s.imr (rxFull ||| rxOver), woken := false, pc := .rTest }
  | .rTest => some { s with pc := if s.rWaitFlag = 0 then .rRead else .rAsleep }
  | .rAsleep =>
    match i with
    | .signal => some { s with pc := .reset (-eintr) }
    | .timeout => some { s with pc := .rLast }
    | _ => if s.woken then some { s with woken := false, pc := .rTest } else none
  | .rLast =>
    some { s with pc := if s.rWaitFlag ≠ 0 then .reset (-etimedout) else .rRead }
  | .rRead =>
    let read := (s.rxFifo ++ List.replicate (readNum s.xfer) i.frame).take (readNum s.xfer)
    some { s with
      rx := read.flatMap (frameBytes s.xfer.wide), rxFifo := [], pc := .reset 0 }
  | .reset ret =>
    some { s.restart i.res with
      pc := .idle, result := some ⟨s.xfer, ret, s.line, s.rx⟩ }

/-- The conditions of the controller; `other` are those that the driver does not know. -/
def State.raw (s : State) (other : BitVec 32) : BitVec 32 :=
  (if s.txFifo = [] then txEmpty else 0) |||
    (if s.rxftlr.toNat + 1 ≤ s.rxFifo.length then rxFull else 0) |||
    (if s.overflow then rxOver else 0) |||
    (other &&& ~~~(txEmpty ||| rxFull ||| rxOver))

def State.isr (s : State) (other : BitVec 32) : BitVec 32 := s.raw other &&& s.imr

/-- The handler takes its transmit branch, or its receive branch. -/
def State.txBranch (s : State) (other : BitVec 32) : Prop := s.isr other &&& txEmpty = txEmpty
def State.rxBranch (s : State) (other : BitVec 32) : Prop :=
  s.isr other &&& rxFull = rxFull ∨ s.isr other &&& rxOver = rxOver

instance (s : State) (other : BitVec 32) : Decidable (s.txBranch other) :=
  inferInstanceAs (Decidable (_ = _))

instance (s : State) (other : BitVec 32) : Decidable (s.rxBranch other) :=
  inferInstanceAs (Decidable (_ ∨ _))

def wakeW (s : State) : State :=
  match s.pc with
  | .wTest _ | .wAsleep _ => { s with woken := true }
  | _ => s

def h309xSpiIrq (s : State) (other : BitVec 32) : Option State :=
  if s.isr other = 0 then none
  else if s.txBranch other then
    some (wakeW { s with imr := hispiDisableIntr s.imr txEmpty, wWaitFlag := 0 })
  else if s.rxBranch other then
    some (wakeW { s with imr := hispiDisableIntr s.imr (rxFull ||| rxOver), rWaitFlag := 0 })
  else some { s with imr := hispiDisableIntr s.imr (s.isr other) }

def shift (s : State) (f : Frame) : Option State :=
  match s.txFifo with
  | [] => none
  | out :: rest =>
    if s.selected then
      let s := { s with txFifo := rest, line := s.line ++ [Clocked.mk out f] }
      some (if s.duplex then
          if s.rxFifo.length < rxFifoSize then { s with rxFifo := s.rxFifo ++ [f] }
          else { s with overflow := true }
        else s)
    else none

inductive Action
  | begin (xfer : Transfer) (selected : Bool)
  | step (i : Input)
  | irq (other : BitVec 32)
  | shift (f : Frame)

def next (s : State) : Action → Option State
  | .begin xfer selected =>
    if s.pc = .idle then
      some { s with pc := .config, xfer := xfer, selected := selected, line := [], rx := [] }
    else none
  | .step i => step s i
  | .irq other => h309xSpiIrq s other
  | .shift f => shift s f

def system : TransitionSystem State Action :=
  TransitionSystem.ofStep
    (fun s => s.pc = .idle ∧ s.wWaitFlag = 0 ∧ s.rWaitFlag = 0 ∧ s.result = none) next

/-! ## What a transfer is promised -/

/-- Nobody sleeps whose flag is cleared and whose queue is not woken. -/
structure WakeOk (s : State) : Prop where
  write : ∀ dummy, s.pc = .wAsleep dummy → s.wWaitFlag = 0 → s.woken = true
  read : s.pc = .rAsleep → s.rWaitFlag = 0 → s.woken = true

/-- The frames of the transfer were clocked, once if it is in both directions, and the receive
buffer has what came in. -/
structure TransferOk (xfer : Transfer) (line : List Clocked) (rx : List (BitVec 8)) : Prop where
  sent : xfer.txBuf.isSome → ∃ before, line.map Clocked.out = before ++ frames xfer xfer.txBuf
  once : xfer.txBuf.isSome → xfer.rxBuf = true →
    line.map Clocked.out = frames xfer xfer.txBuf
  received : xfer.rxBuf = true → rx = (line.map Clocked.inn).flatMap (frameBytes xfer.wide)

def ResultOk (s : State) : Prop :=
  ∀ r, s.result = some r → r.ret = 0 → TransferOk r.xfer r.line r.rx

/-- The receive branch does not come while a transfer sleeps for it.  A transfer that only
sends finds room for its frames.  And one that reads out what it received has not sent before,
has clocked as many frames as it wants and no more, all of them are in the receive FIFO, and
none is left to send. -/
def Allowed (s : State) : Action → Prop
  | .irq other => s.pc = .rAsleep → ¬ s.txBranch other → ¬ s.rxBranch other
  | .step _ =>
    match s.pc with
    | .wLoad false =>
      s.xfer.rxBuf = false → s.txFifo.length + getFrameNum s.xfer ≤ txFifoSize
    | .rRead =>
      (s.xfer.txBuf.isSome → getFrameNum s.xfer = 0) ∧ s.txFifo = [] ∧
        s.line.length = getFrameNum s.xfer ∧ s.rxFifo.length = getFrameNum s.xfer ∧
        readNum s.xfer = getFrameNum s.xfer
    | _ => True
  | _ => True

def Pc.sends : Pc → Bool
  | .wEnable dummy | .wActivate dummy | .wTest dummy | .wAsleep dummy | .wLast dummy
  | .wIdle dummy => !dummy
  | _ => false

def Pc.receives : Pc → Bool
  | .wStart dummy | .wLoad dummy | .wEnable dummy | .wActivate dummy | .wTest dummy
  | .wAsleep dummy | .wLast dummy | .wIdle dummy => dummy
  | .rArm | .rEnable | .rTest | .rAsleep | .rLast | .rRead => true
  | _ => false

def Pc.asleep : Pc → Bool
  | .wAsleep _ | .rAsleep => true
  | _ => false

structure Inv (s : State) : Prop where
  wake : WakeOk s
  sends : s.pc.sends = true → s.xfer.rxBuf = false →
    ∃ before, s.line.map Clocked.out ++ s.txFifo =
      before ++ frames s.xfer s.xfer.txBuf
  receives : s.pc.receives = true → s.rxFifo.Sublist (s.line.map Clocked.inn)
  reset : s.pc = .reset 0 → s.txFifo = [] ∧ TransferOk s.xfer s.line s.rx
  result : ResultOk s

section Steps

variable {s s' : State}

theorem Inv.goto (h : Inv s) {imr rxftlr : BitVec 32} {duplex selected woken : Bool}
    {w r : ℕ} {pc : Pc}
    (hwake : WakeOk { s with
      imr := imr, rxftlr := rxftlr, duplex := duplex, selected := selected, wWaitFlag := w
      rWaitFlag := r, woken := woken, pc := pc })
    (hsends : pc.sends = true → s.pc.sends = true)
    (hreceives : pc.receives = true → s.pc.receives = true) (hreset : pc ≠ .reset 0) :
    Inv { s with
      imr := imr, rxftlr := rxftlr, duplex := duplex, selected := selected, wWaitFlag := w
      rWaitFlag := r, woken := woken, pc := pc } where
  wake := hwake
  sends hpc := h.sends (hsends hpc)
  receives hpc := h.receives (hreceives hpc)
  reset hpc := absurd hpc hreset
  result := h.result

theorem WakeOk.of_pc (h : s.pc.asleep = false) : WakeOk s where
  write dummy hpc := by
    rw [hpc] at h
    cases h
  read hpc := by
    rw [hpc] at h
    cases h

theorem Inv.awake (h : Inv s) {imr rxftlr : BitVec 32} {duplex selected woken : Bool}
    {w r : ℕ} {pc₀ pc : Pc} (hpc : s.pc = pc₀) (hasleep : pc.asleep = false)
    (hgoes : (pc.sends = true → pc₀.sends = true) ∧ (pc.receives = true → pc₀.receives = true))
    (hreset : pc ≠ .reset 0) :
    Inv { s with
      imr := imr, rxftlr := rxftlr, duplex := duplex, selected := selected, wWaitFlag := w
      rWaitFlag := r, woken := woken, pc := pc } := by
  subst hpc
  exact h.goto (.of_pc hasleep) hgoes.1 hgoes.2 hreset

theorem Inv.restart (h : Inv s) {imr rxftlr : BitVec 32} {duplex : Bool} {pc : Pc} {r : Residue}
    (hpc : pc.sends = false ∧ pc.receives = false) (hreset : pc ≠ .reset 0)
    (hasleep : pc.asleep = false) :
    Inv { s.restart r with imr := imr, rxftlr := rxftlr, duplex := duplex, pc := pc } where
  wake := .of_pc hasleep
  sends hs := by rw [hpc.1] at hs; cases hs
  receives hs := by rw [hpc.2] at hs; cases hs
  reset hs := absurd hs hreset
  result := h.result

theorem frames_length (xfer : Transfer) (buf : Option (ℕ → BitVec 8)) :
    (frames xfer buf).length = getFrameNum xfer := by
  simp [frames]

/-- The end of `hi309x_spi_write`; where it succeeds the transmit FIFO is empty. -/
theorem Inv.written (h : Inv s) {dummy : Bool} {ret : ℤ}
    (hpc : s.pc.sends = !dummy ∧ s.pc.receives = dummy) (hret : ret = 0 → s.txFifo = []) :
    Inv (written s dummy ret) := by
  unfold SpiCompletion.written
  cases dummy with
  | true =>
    rw [if_pos rfl]
    exact h.goto (.of_pc rfl) nofun (fun _ => hpc.2) nofun
  | false =>
    rw [if_neg Bool.false_ne_true]
    cases hrx : s.xfer.rxBuf with
    | true =>
      rw [if_pos rfl]
      split
      next hfail =>
        refine ⟨.of_pc rfl, nofun, nofun, nofun, ?_⟩
        rintro r ⟨⟩ hzero
        exact absurd hzero hfail
      next =>
        exact h.goto (.of_pc rfl) nofun nofun nofun
    | false =>
      rw [if_neg Bool.false_ne_true]
      refine ⟨.of_pc rfl, nofun, nofun, ?_, h.result⟩
      intro hreset
      have hzero : ret = 0 := by simpa using hreset
      have hempty := hret hzero
      refine ⟨hempty, fun _ => ?_, fun _ hboth => ?_, fun hboth => ?_⟩
      · obtain ⟨before, hbefore⟩ := h.sends hpc.1 hrx
        rw [hempty, List.append_nil] at hbefore
        exact ⟨before, hbefore⟩
      · rw [hrx] at hboth
        cases hboth
      · rw [hrx] at hboth
        cases hboth

theorem Inv.load (h : Inv s) {dummy : Bool} (hpc : s.pc = .wLoad dummy)
    (hroom : dummy = false → s.xfer.rxBuf = false →
      s.txFifo.length + getFrameNum s.xfer ≤ txFifoSize) {buf : Option (ℕ → BitVec 8)}
    (hbuf : dummy = false → buf = s.xfer.txBuf) :
    Inv { s with
      txFifo := s.txFifo ++ (frames s.xfer buf).take (txFifoSize - s.txFifo.length)
      pc := .wEnable dummy } where
  wake := .of_pc rfl
  sends hs hrx := by
    have hdummy : dummy = false := by simpa [Pc.sends] using hs
    have hfits := hroom hdummy hrx
    refine ⟨s.line.map Clocked.out ++ s.txFifo, ?_⟩
    simp only
    rw [hbuf hdummy, List.take_of_length_le (by rw [frames_length]; omega), List.append_assoc]
  receives hs := by
    have hdummy : dummy = true := hs
    exact h.receives (by rw [hpc]; exact hdummy)
  reset hs := by cases hs
  result := h.result

theorem Inv.read (h : Inv s) (hpc : s.pc = .rRead) {f : Frame}
    (hnone : s.xfer.txBuf.isSome → getFrameNum s.xfer = 0) (hempty : s.txFifo = [])
    (hline : s.line.length = getFrameNum s.xfer) (hfifo : s.rxFifo.length = getFrameNum s.xfer)
    (hread : readNum s.xfer = getFrameNum s.xfer) :
    Inv { s with
      rx := ((s.rxFifo ++ List.replicate (readNum s.xfer) f).take (readNum s.xfer)).flatMap
        (frameBytes s.xfer.wide)
      rxFifo := []
      pc := .reset 0 } where
  wake := .of_pc rfl
  sends hs := by cases hs
  receives hs := by cases hs
  reset _ := by
    -- all that was clocked in is in the FIFO, because as much was clocked in
    have hall : s.rxFifo = s.line.map Clocked.inn :=
      (h.receives (by rw [hpc]; rfl)).eq_of_length (by rw [List.length_map, hfifo, hline])
    have hnothing : s.xfer.txBuf.isSome → s.line.map Clocked.out = frames s.xfer s.xfer.txBuf := by
      intro hbuf
      have hzero := hnone hbuf
      have hline0 : s.line = [] := List.length_eq_zero_iff.mp (hline.trans hzero)
      have hframes : frames s.xfer s.xfer.txBuf = [] :=
        List.length_eq_zero_iff.mp ((frames_length _ _).trans hzero)
      rw [hline0, hframes, List.map_nil]
    refine ⟨hempty, fun hbuf => ⟨[], hnothing hbuf⟩, fun hbuf _ => hnothing hbuf, fun _ => ?_⟩
    simp only
    rw [hread, ← hfifo, List.take_left, hall]
  result := h.result

theorem Inv.step {i : Input} (h : Inv s) (hallowed : Allowed s (.step i))
    (hstep : step s i = some s') : Inv s' := by
  unfold SpiCompletion.step at hstep
  cases hpc : s.pc with
  | idle =>
    simp only [hpc] at hstep
    cases hstep
  | config =>
    simp only [hpc] at hstep
    split at hstep
    · cases hstep
      exact h.awake hpc rfl ⟨nofun, nofun⟩ nofun
    · cases hstep
      split
      · exact h.restart ⟨rfl, rfl⟩ nofun rfl
      · split
        · exact h.restart ⟨rfl, rfl⟩ nofun rfl
        · exact h.restart ⟨rfl, rfl⟩ nofun rfl
  | wConfig | rConfig =>
    simp only [hpc] at hstep
    cases hstep
    exact h.restart ⟨rfl, rfl⟩ nofun rfl
  | rClear =>
    simp only [hpc] at hstep
    cases hstep
    exact ⟨.of_pc rfl, nofun, fun _ => List.nil_sublist _, nofun, h.result⟩
  | wStart dummy =>
    simp only [hpc] at hstep
    cases hstep
    exact h.awake hpc rfl ⟨nofun, id⟩ nofun
  | wLoad dummy =>
    simp only [hpc] at hstep
    cases hstep
    refine h.load hpc (fun hdummy => ?_) (fun hdummy => by rw [hdummy]; rfl)
    subst hdummy
    simpa only [Allowed, hpc] using hallowed
  | wEnable dummy =>
    simp only [hpc] at hstep
    cases hstep
    exact h.awake hpc rfl ⟨id, id⟩ nofun
  | wActivate dummy =>
    simp only [hpc] at hstep
    cases hstep
    exact h.awake hpc rfl ⟨id, id⟩ nofun
  | wTest dummy =>
    simp only [hpc] at hstep
    cases hstep
    split
    next =>
      exact h.awake hpc rfl ⟨id, id⟩ nofun
    next hflag =>
      exact h.goto ⟨fun _ _ hzero => absurd hzero hflag, nofun⟩
        (fun hs => by rw [hpc]; exact hs) (fun hr => by rw [hpc]; exact hr) nofun
  | wAsleep dummy =>
    have hhalf : s.pc.sends = !dummy ∧ s.pc.receives = dummy := by
      rw [hpc]
      exact ⟨rfl, rfl⟩
    simp only [hpc] at hstep
    split at hstep
    · cases hstep
      exact h.written hhalf fun hzero => absurd hzero (by decide)
    · cases hstep
      exact h.awake hpc rfl ⟨id, id⟩ nofun
    · split at hstep
      · cases hstep
        exact h.awake hpc rfl ⟨id, id⟩ nofun
      · cases hstep
  | wLast dummy =>
    have hhalf : s.pc.sends = !dummy ∧ s.pc.receives = dummy := by
      rw [hpc]
      exact ⟨rfl, rfl⟩
    simp only [hpc] at hstep
    cases hstep
    split
    · exact h.written hhalf fun hzero => absurd hzero (by decide)
    · exact h.awake hpc rfl ⟨id, id⟩ nofun
  | wIdle dummy =>
    have hhalf : s.pc.sends = !dummy ∧ s.pc.receives = dummy := by
      rw [hpc]
      exact ⟨rfl, rfl⟩
    simp only [hpc] at hstep
    split at hstep
    next hempty =>
      cases hstep
      exact h.written hhalf fun _ => hempty
    next =>
      split at hstep
      · cases hstep
        exact h.written hhalf fun hzero => absurd hzero (by decide)
      · cases hstep
  | rArm | rEnable =>
    simp only [hpc] at hstep
    cases hstep
    exact h.awake hpc rfl ⟨nofun, fun _ => rfl⟩ nofun
  | rTest =>
    simp only [hpc] at hstep
    cases hstep
    split
    next =>
      exact h.awake hpc rfl ⟨nofun, fun _ => rfl⟩ nofun
    next hflag =>
      exact h.goto ⟨nofun, fun _ hzero => absurd hzero hflag⟩ nofun (fun _ => by rw [hpc]; rfl)
        nofun
  | rAsleep =>
    simp only [hpc] at hstep
    split at hstep
    · cases hstep
      exact h.awake hpc rfl ⟨nofun, nofun⟩ nofun
    · cases hstep
      exact h.awake hpc rfl ⟨nofun, fun _ => rfl⟩ nofun
    · split at hstep
      · cases hstep
        exact h.awake hpc rfl ⟨nofun, fun _ => rfl⟩ nofun
      · cases hstep
  | rLast =>
    simp only [hpc] at hstep
    cases hstep
    split
    · exact h.awake hpc rfl ⟨nofun, nofun⟩ nofun
    · exact h.awake hpc rfl ⟨nofun, fun _ => rfl⟩ nofun
  | rRead =>
    simp only [hpc] at hstep
    cases hstep
    simp only [Allowed, hpc] at hallowed
    obtain ⟨hnone, hempty, hline, hfifo, hread⟩ := hallowed
    exact h.read hpc hnone hempty hline hfifo hread
  | reset ret =>
    simp only [hpc] at hstep
    cases hstep
    refine ⟨.of_pc rfl, nofun, nofun, nofun, ?_⟩
    rintro r ⟨⟩ hzero
    exact (h.reset (by rw [hpc]; exact congrArg Pc.reset hzero)).2

/-! ## The handler and the line -/

theorem Inv.wakes (h : Inv s) {imr : BitVec 32} {w r : ℕ}
    (hr : s.pc = .rAsleep → r = s.rWaitFlag) :
    Inv (wakeW { s with imr := imr, wWaitFlag := w, rWaitFlag := r }) := by
  unfold wakeW
  split
  next hpc =>
    exact h.goto ⟨fun _ _ _ => rfl, fun _ _ => rfl⟩ id id fun hreset => by
      simp only at hpc
      rw [hpc] at hreset
      cases hreset
  next hpc =>
    exact h.goto ⟨fun _ _ _ => rfl, fun _ _ => rfl⟩ id id fun hreset => by
      simp only at hpc
      rw [hpc] at hreset
      cases hreset
  next hnotest hnosleep =>
    refine ⟨⟨fun dummy hpc => absurd hpc (hnosleep dummy), fun hpc hzero => ?_⟩, h.sends, h.receives,
      h.reset, h.result⟩
    exact h.wake.read hpc ((hr hpc).symm.trans hzero)

theorem Inv.irq {other : BitVec 32} (h : Inv s) (hallowed : Allowed s (.irq other))
    (hstep : h309xSpiIrq s other = some s') : Inv s' := by
  unfold h309xSpiIrq at hstep
  split at hstep
  · cases hstep
  · split at hstep
    · cases hstep
      exact h.wakes fun _ => rfl
    next htx =>
      split at hstep
      next hrx =>
        cases hstep
        exact h.wakes fun hpc => absurd hrx (hallowed hpc htx)
      next =>
        cases hstep
        exact ⟨⟨h.wake.write, h.wake.read⟩, h.sends, h.receives, h.reset, h.result⟩

theorem Inv.shift {f : Frame} (h : Inv s) (hstep : shift s f = some s') : Inv s' := by
  unfold SpiCompletion.shift at hstep
  cases hfifo : s.txFifo with
  | nil =>
    simp only [hfifo] at hstep
    cases hstep
  | cons out rest =>
    simp only [hfifo] at hstep
    have hsends : s.pc.sends = true → s.xfer.rxBuf = false →
        ∃ before, (s.line ++ [Clocked.mk out f]).map Clocked.out ++ rest =
          before ++ frames s.xfer s.xfer.txBuf := by
      intro hs hrx
      obtain ⟨before, hbefore⟩ := h.sends hs hrx
      refine ⟨before, ?_⟩
      rw [← hbefore, hfifo]
      simp
    have hreset : s.pc ≠ .reset 0 := by
      intro hpc
      have hempty := (h.reset hpc).1
      rw [hfifo] at hempty
      cases hempty
    have hline : (s.line ++ [Clocked.mk out f]).map Clocked.inn =
        s.line.map Clocked.inn ++ [f] := by simp
    have hkept : s.pc.receives = true →
        s.rxFifo.Sublist ((s.line ++ [Clocked.mk out f]).map Clocked.inn) := by
      intro hr
      rw [hline]
      exact (h.receives hr).trans (List.sublist_append_left _ _)
    split at hstep
    · cases hstep
      split
      · split
        · refine ⟨⟨h.wake.write, h.wake.read⟩, hsends, fun hr => ?_, fun hpc => absurd hpc hreset,
            h.result⟩
          simp only
          rw [hline]
          exact (h.receives hr).append_right [f]
        · exact ⟨⟨h.wake.write, h.wake.read⟩, hsends, hkept, fun hpc => absurd hpc hreset,
            h.result⟩
      · exact ⟨⟨h.wake.write, h.wake.read⟩, hsends, hkept, fun hpc => absurd hpc hreset,
          h.result⟩
    · cases hstep

theorem Inv.next {a : Action} (h : Inv s) (hallowed : Allowed s a)
    (hstep : next s a = some s') : Inv s' := by
  cases a with
  | begin xfer selected =>
    simp only [SpiCompletion.next] at hstep
    split at hstep
    · cases hstep
      exact ⟨.of_pc rfl, nofun, nofun, nofun, h.result⟩
    · cases hstep
  | step i => exact h.step hallowed hstep
  | irq other => exact h.irq hallowed hstep
  | shift f => exact h.shift hstep

end Steps

/-- In a run of allowed steps no wake-up is lost, and what has succeeded has been transferred. -/
theorem completed_of_allowed {s : State} (hreach : (system.restrict Allowed).Reachable s) :
    WakeOk s ∧ ResultOk s := by
  have h : Inv s := by
    apply hreach.invariant
    · rintro s ⟨hpc, -, -, hresult⟩
      refine ⟨.of_pc (by rw [hpc]; rfl), fun hs => ?_, fun hs => ?_, fun hs => ?_, fun r hr => ?_⟩
      · rw [hpc] at hs
        cases hs
      · rw [hpc] at hs
        cases hs
      · rw [hpc] at hs
        cases hs
      · rw [hresult] at hr
        cases hr
    · rintro s a s' - h ⟨hallowed, hstep⟩
      exact h.next hallowed hstep
  exact ⟨h.wake, h.result⟩

instance decidableAllowed (s : State) : (a : Action) → Decidable (Allowed s a)
  | .irq other =>
    inferInstanceAs (Decidable (s.pc = .rAsleep → ¬ s.txBranch other → ¬ s.rxBranch other))
  | .step _ =>
    match hpc : s.pc with
    | .wLoad false =>
      decidable_of_iff (s.xfer.rxBuf = false →
        s.txFifo.length + getFrameNum s.xfer ≤ txFifoSize) (by simp only [Allowed, hpc])
    | .rRead =>
      decidable_of_iff ((s.xfer.txBuf.isSome → getFrameNum s.xfer = 0) ∧ s.txFifo = [] ∧
        s.line.length = getFrameNum s.xfer ∧ s.rxFifo.length = getFrameNum s.xfer ∧
        readNum s.xfer = getFrameNum s.xfer) (by simp only [Allowed, hpc])
    | .wLoad true | .idle | .config | .wConfig | .rConfig | .rClear | .wStart _ | .wEnable _
    | .wActivate _ | .wTest _ | .wAsleep _ | .wLast _ | .wIdle _ | .rArm | .rEnable | .rTest
    | .rAsleep | .rLast | .reset _ => .isTrue (by simp only [Allowed, hpc])
  | .begin _ _ | .shift _ => .isTrue trivial

def probed : State where
  imr := 0
  duplex := false
  rxftlr := 0
  selected := false
  txFifo := []
  rxFifo := []
  overflow := false
  wWaitFlag := 0
  rWaitFlag := 0
  woken := false
  pc := .idle
  xfer := ⟨none, false, 0, false⟩
  line := []
  rx := []
  result := none

theorem probed_reachable : system.Reachable probed := .init ⟨rfl, rfl, rfl, rfl⟩

def writeSteps (f g : Frame) : List Action :=
  [.step .go, .step .go, .step .go, .step .go, .shift f, .shift g, .irq 0, .step .go, .step .go]

def receiving : List Action :=
  ([.begin ⟨none, true, 2, false⟩ false, .step .go, .step .go, .step .go] : List Action) ++
    writeSteps 0x41 0x42 ++
    ([.step .go, .step .go, .irq 0, .step .go, .step .go, .step .go] : List Action)

theorem completed_of_allowed_receive :
    ∃ s, TransitionSystem.runSteps (TransitionSystem.guarded Allowed next) probed receiving =
        some s ∧ (s.result.map fun r => (r.ret, r.rx)) = some (0, [0x41, 0x42]) ∧
      WakeOk s ∧ ResultOk s := by
  refine ⟨_, rfl, by decide, completed_of_allowed ?_⟩
  exact TransitionSystem.Reachable.runGuarded (l := receiving)
    (TransitionSystem.Reachable.init (s := probed) ⟨rfl, rfl, rfl, rfl⟩) rfl

def sleeping : List Action :=
  [Action.begin ⟨none, true, 2, false⟩ false, .step .go, .step .go, .step .go] ++
    writeSteps 0x41 0x42 ++ [Action.step .go, .step .go, .step .go, .irq 0]

def bothWays : List Action :=
  [.begin ⟨some fun _ => 0x9f, true, 1, false⟩ false, .step .go, .step .go, .step .go, .step .go,
    .step .go, .step .go, .shift 0x41, .irq 0, .step .go, .step .go, .step .go, .step .go,
    .step .go, .step .go, .step .go, .step .go, .shift 0x42, .irq 0, .step .go, .step .go,
    .step .go, .step .go, .irq 0, .step .go, .step .go, .step .go]

def overflowing : List Action :=
  [.begin ⟨none, true, 2, false⟩ false, .step .go, .step (.residue ⟨[], [], true⟩), .step .go,
    .step .go, .step .go, .step .go, .step .go, .step .go, .step .timeout, .step .go, .step .go,
    .step .go, .irq 0, .step .go, .step (.junk 0xff), .step .go]

/-- A sleep without a wake-up; frames that are clocked twice; and success without a frame. -/
theorem completion_breaks :
    (∃ s, TransitionSystem.runSteps next probed sleeping = some s ∧ system.Reachable s ∧
      ¬ WakeOk s) ∧
    (∃ s, TransitionSystem.runSteps next probed bothWays = some s ∧ system.Reachable s ∧
      (s.result.map fun r => (r.ret, r.line.map Clocked.out)) = some (0, [0x9f, 0x5a5a]) ∧
      ¬ ResultOk s) ∧
    ∃ s, TransitionSystem.runSteps next probed overflowing = some s ∧ system.Reachable s ∧
      (s.result.map fun r => (r.ret, r.line.map Clocked.out, r.rx)) = some (0, [], [0xff, 0xff]) ∧
      ¬ ResultOk s := by
  refine ⟨⟨_, rfl, ?_, fun h => ?_⟩, ⟨_, rfl, ?_, by decide, fun h => ?_⟩,
    ⟨_, rfl, ?_, by decide, fun h => ?_⟩⟩
  · exact TransitionSystem.Reachable.runSteps (l := sleeping) probed_reachable rfl
  · exact absurd (h.read rfl rfl) (by decide)
  · exact TransitionSystem.Reachable.runSteps (l := bothWays) probed_reachable rfl
  · have honce := (h _ rfl rfl).once rfl rfl
    exact absurd honce (by decide)
  · exact TransitionSystem.Reachable.runSteps (l := overflowing) probed_reachable rfl
  · have hreceived := (h _ rfl rfl).received rfl
    exact absurd hreceived (by decide)

end HiMpu.SpiCompletion
