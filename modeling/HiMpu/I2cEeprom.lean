import HiMpu.TransitionSystem

/-!
# The EEPROM slave of the I2C driver

The master's bytes gather in the RX FIFO, and the interrupts of the controller are handled
some time later, all that are pending at once.  Whenever they have been handled, the buffer
of the slave is the memory of an EEPROM that sees the bus itself.
-/

namespace HiMpu.I2cEeprom

open TransitionSystem

abbrev Byte := BitVec 8

structure EepromControl where
  firstWrite : ℕ
  offset : BitVec 32
  bufferLen : BitVec 32
  buffer : ℕ → Byte

def bankwidth8 : ℕ := 1
def bankwidth16 : ℕ := 2

def bankwidth (value : BitVec 32) : ℕ := if value ≤ 256#32 then bankwidth8 else bankwidth16

def EepromControl.offsetInc (e : EepromControl) : EepromControl :=
  { e with offset := (e.offset + 1) % e.bufferLen }

def EepromControl.index (e : EepromControl) : ℕ := (e.offset % e.bufferLen).toNat

def EepromControl.init (e : EepromControl) : EepromControl :=
  { e with offset := 0, firstWrite := bankwidth e.bufferLen }

def EepromControl.writeByte (e : EepromControl) (val : Byte) : EepromControl :=
  if e.firstWrite ≠ 0 then
    let firstWrite := min (bankwidth e.bufferLen) e.firstWrite
    let shift := (firstWrite - 1) % 4 * 8
    { e with
      offset := (e.offset &&& ~~~(0xFF#32 <<< shift)) ||| (val.setWidth 32 <<< shift)
      firstWrite := firstWrite - 1 }
  else
    { e with buffer := Function.update e.buffer e.index val }.offsetInc

structure SlaveStatus where
  writeRequested : Bool
  readRequested : Bool

def SlaveStatus.idle : SlaveStatus := ⟨false, false⟩

inductive SlaveEvent where
  | readRequested
  | writeRequested
  | readProcessed
  | writeReceived
  | stop
  | abort

structure Slave where
  eeprom : EepromControl
  status : SlaveStatus
  rxFifo : List Byte
  sent : List Byte

def Slave.eepromWrite (s : Slave) : Slave :=
  { s with rxFifo := [], eeprom := s.rxFifo.foldl EepromControl.writeByte s.eeprom }

def Slave.eepromHandle (s : Slave) : SlaveEvent → Slave
  | .writeReceived => s.eepromWrite
  | .readProcessed =>
    let e := s.eeprom.offsetInc
    { s with eeprom := e, sent := s.sent ++ [e.buffer e.index] }
  | .readRequested => { s with sent := s.sent ++ [s.eeprom.buffer s.eeprom.index] }
  | .stop =>
    let s := if s.rxFifo.length ≠ 0 then s.eepromWrite else s
    { s with eeprom := s.eeprom.init }
  | .abort | .writeRequested => { s with eeprom := s.eeprom.init }

structure IrqStatus where
  abrt : Bool
  rxDone : Bool
  stopDet : Bool
  rxFull : Bool
  rdReq : Bool
deriving DecidableEq

def IrqStatus.none : IrqStatus := ⟨false, false, false, false, false⟩

def Slave.handleStop (s : Slave) : Slave := { s.eepromHandle .stop with status := .idle }

def Slave.handleRxFull (s : Slave) : Slave :=
  let s := if !s.status.writeRequested then
      { s with status := { s.status with writeRequested := true } }.eepromHandle .writeRequested
    else s
  s.eepromHandle .writeReceived

def Slave.handleRdReq (s : Slave) : Slave :=
  if !s.status.readRequested then
    { s with status := { s.status with readRequested := true } }.eepromHandle .readRequested
  else s.eepromHandle .readProcessed

def Slave.irqHandler (s : Slave) (irq : IrqStatus) : Slave :=
  if irq.abrt then s.eepromHandle .abort
  else
    let s := if irq.rxDone || irq.stopDet then s.handleStop else s
    let s := if irq.rxFull then s.handleRxFull else s
    if irq.rdReq then s.handleRdReq else s

inductive BusItem where
  | start
  | byte (b : Byte)
  | read
  | stop
  | abort

inductive Phase where
  | idle
  | writing
  | reading
  | nacked
  | aborted
deriving DecidableEq

structure Bus where
  slave : Slave
  irq : IrqStatus
  phase : Phase
  items : List BusItem
  /-- An abort broke off a read, and no STOP has been handled since. -/
  interrupted : Bool

def Bus.Settled (s : Bus) : Prop := s.irq = .none ∧ s.slave.rxFifo = []

instance : DecidablePred Bus.Settled :=
  fun s => inferInstanceAs (Decidable (s.irq = .none ∧ s.slave.rxFifo = []))

inductive Action where
  | start
  | byte (b : Byte)
  | read
  | nack
  | stop
  | abort
  | irq

def Bus.irqStatus (s : Bus) : IrqStatus := { s.irq with rxFull := !s.slave.rxFifo.isEmpty }

def next (s : Bus) : Action → Option Bus
  | .start =>
    if (s.phase = .idle ∨ s.phase = .aborted) ∧ s.Settled then
      some { s with phase := .writing, items := s.items ++ [.start] }
    else none
  | .byte b =>
    if s.phase = .writing then
      some { s with
        slave := { s.slave with rxFifo := s.slave.rxFifo ++ [b] }
        items := s.items ++ [.byte b] }
    else none
  | .read =>
    if (s.phase = .writing ∨ s.phase = .reading) ∧ s.irq.rdReq = false then
      some { s with phase := .reading, irq := { s.irq with rdReq := true } }
    else none
  | .nack =>
    if s.phase = .reading ∧ s.irq.rdReq = false then
      some { s with phase := .nacked, irq := { s.irq with rxDone := true } }
    else none
  | .stop =>
    if s.phase = .writing ∨ s.phase = .nacked ∨ s.phase = .aborted then
      some { s with
        phase := .idle, irq := { s.irq with stopDet := true }, items := s.items ++ [.stop] }
    else none
  | .abort =>
    if s.phase = .writing ∨ s.phase = .reading ∨ s.phase = .nacked then
      some { s with
        phase := .aborted, irq := { s.irq with abrt := true }, items := s.items ++ [.abort] }
    else none
  | .irq =>
    if s.Settled then none
    else
      some { s with
        slave := s.slave.irqHandler s.irqStatus
        irq := .none
        items := if s.irq.rdReq && !s.irq.abrt then s.items ++ [.read] else s.items
        interrupted :=
          if s.irq.abrt then s.interrupted || s.slave.status.readRequested
          else !(s.irq.rxDone || s.irq.stopDet) && s.interrupted }

def initial (len : ℕ) (memory : ℕ → Byte) (s : Bus) : Prop :=
  (0 < len ∧ len % 8 = 0 ∧ len < 2 ^ 31) ∧
    s.slave = ⟨⟨bankwidth (BitVec.ofNat 32 len), 0, BitVec.ofNat 32 len, memory⟩, .idle, [], []⟩ ∧
    s.irq = .none ∧ s.phase = .idle ∧ s.items = [] ∧ s.interrupted = false

def system (len : ℕ) (memory : ℕ → Byte) : TransitionSystem Bus Action :=
  ofStep (initial len memory) next

/-! ## The reference -/

/-- An EEPROM: the address bytes of the transaction, and how many bytes were written or
read after them. -/
structure Reference where
  memory : ℕ → Byte
  address : List Byte
  count : ℕ
  out : List Byte

def addressWidth (len : ℕ) : ℕ := if len ≤ 256 then 1 else 2

def base : ℕ → List Byte → ℕ
  | width + 1, b :: rest => b.toNat * 256 ^ width + base width rest
  | _, _ => 0

def Reference.location (len : ℕ) (r : Reference) : ℕ :=
  (base (addressWidth len) r.address + r.count) % len

def Reference.step (len : ℕ) (r : Reference) : BusItem → Reference
  | .start | .stop | .abort => { r with address := [], count := 0 }
  | .byte b =>
    if r.address.length < addressWidth len then { r with address := r.address ++ [b] }
    else { r with memory := Function.update r.memory (r.location len) b, count := r.count + 1 }
  | .read => { r with out := r.out ++ [r.memory (r.location len)], count := r.count + 1 }

def Reference.run (len : ℕ) (memory : ℕ → Byte) (items : List BusItem) : Reference :=
  items.foldl (Reference.step len) ⟨memory, [], 0, []⟩

/-- The slave has sent what the reference gives, and has the same memory whenever it has
handled its interrupts. -/
structure Refines (len : ℕ) (memory : ℕ → Byte) (s : Bus) : Prop where
  reads : s.slave.sent = (Reference.run len memory s.items).out
  memory : s.Settled → s.slave.eeprom.buffer = (Reference.run len memory s.items).memory

/-- At an abort no byte is unread; and after an abort in a read, a STOP is handled before
the next read request is. -/
def Orderly (s : Bus) : Action → Prop
  | .irq => (s.irq.abrt = true → s.slave.rxFifo = []) ∧
      (s.irq.rdReq = true → s.irq.abrt = false → s.interrupted = false)
  | _ => True

/-! ## The address register -/

variable {e : EepromControl} {r : Reference} {len : ℕ} {memory : ℕ → Byte} {s s' : Bus}

theorem addressWidth_cases (len : ℕ) : addressWidth len = 1 ∨ addressWidth len = 2 := by
  unfold addressWidth
  split
  · exact Or.inl rfl
  · exact Or.inr rfl

theorem bankwidth_eq (hlen : e.bufferLen.toNat = len) : bankwidth e.bufferLen = addressWidth len := by
  unfold bankwidth addressWidth
  have h : e.bufferLen ≤ 256#32 ↔ len ≤ 256 := by
    rw [BitVec.le_def, hlen]
    rfl
  simp only [h]
  rfl

theorem assemble_low {o : BitVec 32} {a : ℕ} (b : Byte) (ho : o.toNat = a * 256) :
    ((o &&& ~~~(0xFF#32 <<< 0)) ||| (b.setWidth 32 <<< 0)).toNat = a * 256 + b.toNat := by
  have hkeep : o &&& ~~~(0xFF#32 <<< 0) = o := by
    refine BitVec.eq_of_getLsbD_eq fun i hi => ?_
    have hmask : (0xFF#32).getLsbD i = decide (i < 8) := by
      have hall : ∀ j : Fin 32, (0xFF#32).getLsbD j = decide (j.val < 8) := by decide
      exact hall ⟨i, hi⟩
    have hlow : i < 8 → o.getLsbD i = false := by
      intro hi8
      have ha : a * 256 = 2 ^ 8 * a := Nat.mul_comm a 256
      rw [BitVec.getLsbD, ho, ha, Nat.testBit_two_pow_mul]
      simp [Nat.not_le.mpr hi8]
    rw [BitVec.shiftLeft_zero, BitVec.getLsbD_and, BitVec.getLsbD_not, hmask]
    by_cases hi8 : i < 8
    · simp [hlow hi8]
    · simp [hi8, hi]
  rw [hkeep, BitVec.toNat_or, ho, BitVec.shiftLeft_zero, BitVec.toNat_setWidth,
    Nat.mod_eq_of_lt (by have := b.isLt; omega)]
  have hshift : a * 256 = a <<< 8 := (Nat.shiftLeft_eq a 8).symm
  rw [hshift, Nat.shiftLeft_add_eq_or_of_lt b.isLt]

theorem assemble_high {o : BitVec 32} (b : Byte) (ho : o.toNat = 0) :
    ((o &&& ~~~(0xFF#32 <<< 8)) ||| (b.setWidth 32 <<< 8)).toNat = b.toNat * 256 := by
  have hzero : o = 0#32 := BitVec.eq_of_toNat_eq ho
  have hlt := b.isLt
  subst hzero
  rw [BitVec.zero_and, BitVec.zero_or, BitVec.toNat_shiftLeft, BitVec.toNat_setWidth,
    Nat.mod_eq_of_lt (by omega), Nat.shiftLeft_eq, Nat.mod_eq_of_lt (by omega)]

/-- The registers of the slave stand for the reference; once a read has been requested, the
offset is that of the last byte read. -/
structure Matches (len : ℕ) (e : EepromControl) (requested : Bool) (r : Reference) : Prop where
  bound : 0 < len ∧ len < 2 ^ 31
  bufferLen : e.bufferLen.toNat = len
  buffer : e.buffer = r.memory
  firstWrite : e.firstWrite + r.address.length = addressWidth len
  location : (e.offset.toNat + (if requested then 1 else 0)) % len = r.location len
  small : e.offset.toNat < 2 ^ 31
  exact : e.firstWrite ≠ 0 → requested = false →
    e.offset.toNat = base (addressWidth len) r.address ∧ r.count = 0

theorem Matches.toNat_mod {requested : Bool} (hmatch : Matches len e requested r) :
    (e.offset % e.bufferLen).toNat = e.offset.toNat % len := by
  rw [BitVec.toNat_umod, hmatch.bufferLen]

theorem Matches.index (hmatch : Matches len e false r) : e.index = r.location len := by
  unfold EepromControl.index
  rw [hmatch.toNat_mod]
  exact hmatch.location

theorem Matches.toNat_succ {requested : Bool} (hmatch : Matches len e requested r) :
    ((e.offset + 1) % e.bufferLen).toNat = (e.offset.toNat + 1) % len := by
  have hsmall := hmatch.small
  rw [BitVec.toNat_umod, hmatch.bufferLen, BitVec.toNat_add]
  congr 1
  exact Nat.mod_eq_of_lt (by simp; omega)

theorem init_matches (hbound : 0 < len ∧ len < 2 ^ 31) (hlen : e.bufferLen.toNat = len)
    (hbuffer : e.buffer = r.memory) (haddress : r.address = []) (hcount : r.count = 0) :
    Matches len e.init false r := by
  have hbase : base (addressWidth len) [] = 0 := by
    cases addressWidth len <;> rfl
  refine ⟨hbound, hlen, hbuffer, ?_, ?_, Nat.two_pow_pos 31, ?_⟩
  · show bankwidth e.bufferLen + r.address.length = _
    rw [haddress, bankwidth_eq hlen]
    rfl
  · unfold Reference.location
    rw [haddress, hcount, hbase]
    rfl
  · intro _ _
    rw [haddress, hbase]
    exact ⟨rfl, hcount⟩

theorem step_address {b : Byte} (hshort : r.address.length < addressWidth len) :
    r.step len (.byte b) = { r with address := r.address ++ [b] } :=
  if_pos hshort

theorem step_data {b : Byte} (hfull : ¬ r.address.length < addressWidth len) :
    r.step len (.byte b) =
      { r with memory := Function.update r.memory (r.location len) b, count := r.count + 1 } :=
  if_neg hfull

theorem Matches.writeByte (hmatch : Matches len e false r) (b : Byte) :
    Matches len (e.writeByte b) false (r.step len (.byte b)) := by
  have hfirst := hmatch.firstWrite
  have hlt := b.isLt
  unfold EepromControl.writeByte
  by_cases hzero : e.firstWrite = 0
  · -- the address is complete
    rw [if_neg (not_not.mpr hzero), step_data (by omega)]
    have hnext : (e.offset.toNat + 1) % len = (r.location len + 1) % len := by
      have hloc : e.offset.toNat % len = r.location len := hmatch.location
      rw [Nat.add_mod, hloc, Nat.add_mod (r.location len) 1 len]
      congr 2
      exact (Nat.mod_eq_of_lt (Nat.mod_lt _ hmatch.bound.1)).symm
    have hsucc : (({ e with buffer := Function.update e.buffer e.index b } :
        EepromControl).offsetInc.offset).toNat = (e.offset.toNat + 1) % len := hmatch.toNat_succ
    have hmod := Nat.mod_lt (e.offset.toNat + 1) hmatch.bound.1
    have hbound := hmatch.bound
    refine ⟨hbound, hmatch.bufferLen, ?_, ?_, ?_, ?_, ?_⟩
    · show Function.update e.buffer e.index b = Function.update r.memory (r.location len) b
      rw [hmatch.index, hmatch.buffer]
    · show e.firstWrite + r.address.length = _
      exact hfirst
    · rw [hsucc, hnext]
      show ((r.location len + 1) % len + 0) % len = (_ + (r.count + 1)) % len
      unfold Reference.location
      rw [Nat.add_zero, Nat.mod_mod, Nat.mod_add_mod, Nat.add_assoc]
    · rw [hsucc]
      omega
    · intro h
      exact absurd hzero h
  · rw [if_pos hzero, step_address (by omega), bankwidth_eq hmatch.bufferLen]
    obtain ⟨hoffset, hcount⟩ := hmatch.exact hzero rfl
    simp only
    have hmin : min (addressWidth len) e.firstWrite = e.firstWrite :=
      Nat.min_eq_right (by omega)
    rw [hmin]
    -- what the assembled offset is, for each place of the byte in the address
    have hnew : ((e.offset &&& ~~~(0xFF#32 <<< ((e.firstWrite - 1) % 4 * 8))) |||
        (b.setWidth 32 <<< ((e.firstWrite - 1) % 4 * 8))).toNat =
          base (addressWidth len) (r.address ++ [b]) ∧
        base (addressWidth len) (r.address ++ [b]) < 2 ^ 16 := by
      rcases addressWidth_cases len with hwidth | hwidth
      · have hnil : r.address = [] := List.eq_nil_of_length_eq_zero (by omega)
        have hone : e.firstWrite = 1 := by
          rw [hnil, hwidth] at hfirst
          exact hfirst
        rw [hone, hnil, hwidth]
        rw [hnil, hwidth] at hoffset
        have hlow := assemble_low (a := 0) b (hoffset.trans rfl)
        refine ⟨hlow.trans ?_, ?_⟩
        · simp [base]
        · simp only [List.nil_append, base]
          omega
      · cases haddr : r.address with
        | nil =>
          have htwo : e.firstWrite = 2 := by
            rw [haddr, hwidth] at hfirst
            exact hfirst
          rw [htwo, hwidth]
          rw [haddr, hwidth] at hoffset
          refine ⟨(assemble_high b hoffset).trans ?_, ?_⟩
          · simp [base]
          · simp only [List.nil_append, base]
            omega
        | cons h rest =>
          have hrest : rest = [] := by
            rw [haddr, List.length_cons, hwidth] at hfirst
            exact List.eq_nil_of_length_eq_zero (by omega)
          subst hrest
          have hone : e.firstWrite = 1 := by
            rw [haddr, hwidth] at hfirst
            exact Nat.succ_injective hfirst
          rw [hone, hwidth]
          rw [haddr, hwidth] at hoffset
          have hh := h.isLt
          have hlow := assemble_low (a := h.toNat) b (hoffset.trans (by simp [base]))
          refine ⟨hlow.trans ?_, ?_⟩
          · simp [base]
          · simp only [List.cons_append, List.nil_append, base]
            omega
    refine ⟨hmatch.bound, hmatch.bufferLen, hmatch.buffer, ?_, ?_, ?_, ?_⟩
    · show e.firstWrite - 1 + (r.address ++ [b]).length = _
      rw [List.length_append, List.length_singleton]
      omega
    · show (_ + 0) % len = (base (addressWidth len) (r.address ++ [b]) + r.count) % len
      rw [hnew.1, hcount]
    · show BitVec.toNat _ < 2 ^ 31
      rw [hnew.1]
      exact hnew.2.trans (by norm_num)
    · intro _ _
      exact ⟨hnew.1, hcount⟩

theorem Matches.foldl {l : List Byte} (hmatch : Matches len e false r) :
    Matches len (l.foldl EepromControl.writeByte e) false
      (l.foldl (fun r b => r.step len (.byte b)) r) := by
  induction l generalizing e r with
  | nil => exact hmatch
  | cons b l ih => exact ih (hmatch.writeByte b)

theorem Matches.readRequested (hmatch : Matches len e false r) :
    (r.step len .read).out = r.out ++ [e.buffer e.index] ∧
      Matches len e true (r.step len .read) := by
  refine ⟨?_, hmatch.bound, hmatch.bufferLen, hmatch.buffer, hmatch.firstWrite, ?_, hmatch.small,
    fun _ h => by cases h⟩
  · rw [hmatch.index, hmatch.buffer]
    rfl
  · have hloc : e.offset.toNat % len = r.location len := hmatch.location
    show (e.offset.toNat + 1) % len = (base (addressWidth len) r.address + (r.count + 1)) % len
    unfold Reference.location at hloc
    rw [Nat.add_mod, hloc, ← Nat.add_mod, Nat.add_assoc]

theorem Matches.readProcessed (hmatch : Matches len e true r) :
    (r.step len .read).out = r.out ++ [e.offsetInc.buffer e.offsetInc.index] ∧
      Matches len e.offsetInc true (r.step len .read) := by
  have hloc : (e.offset.toNat + 1) % len = r.location len := hmatch.location
  have hsucc : e.offsetInc.offset.toNat = r.location len := by
    rw [← hloc]
    exact hmatch.toNat_succ
  have hlt : r.location len < len := Nat.mod_lt _ hmatch.bound.1
  have hindex : e.offsetInc.index = r.location len := by
    unfold EepromControl.index
    rw [BitVec.toNat_umod, hsucc]
    show r.location len % e.bufferLen.toNat = _
    rw [hmatch.bufferLen, Nat.mod_eq_of_lt hlt]
  have hbound := hmatch.bound
  refine ⟨?_, hbound, hmatch.bufferLen, hmatch.buffer, hmatch.firstWrite, ?_, ?_,
    fun _ h => by cases h⟩
  · rw [hindex]
    show _ = r.out ++ [e.buffer (r.location len)]
    rw [hmatch.buffer]
    rfl
  · rw [hsucc]
    show (r.location len + 1) % len = (base (addressWidth len) r.address + (r.count + 1)) % len
    unfold Reference.location
    rw [Nat.mod_add_mod, Nat.add_assoc]
  · rw [hsucc]
    omega

def takeBytes (len : ℕ) (l : List Byte) (r : Reference) : Reference :=
  l.foldl (fun r b => r.step len (.byte b)) r

def Unread (len : ℕ) (s : Slave) (r : Reference) : Prop :=
  ∃ r₀, Matches len s.eeprom false r₀ ∧ r = takeBytes len s.rxFifo r₀ ∧
    (s.status.writeRequested = false → r₀.address = [] ∧ r₀.count = 0)

def Drains (len : ℕ) (s : Slave) (r : Reference) : Prop :=
  (s.rxFifo = [] ∧ s.eeprom.buffer = r.memory) ∨
    ∃ r₀, Matches len s.eeprom false r₀ ∧ r.memory = (takeBytes len s.rxFifo r₀).memory

def Between (len : ℕ) (s : Bus) (r : Reference) : Prop :=
  r.address = [] ∧ r.count = 0 ∧
    (((s.irq.abrt = true ∨ s.irq.stopDet = true ∧ s.irq.rdReq = false) ∧ Drains len s.slave r) ∨
      (s.irq = .none ∧ s.slave.rxFifo = [] ∧ Matches len s.slave.eeprom false r ∧
        (s.slave.status.readRequested = true → s.interrupted = true)))

def PhaseOk (len : ℕ) (s : Bus) (r : Reference) : Prop :=
  match s.phase with
  | .writing => s.irq = .none ∧ Unread len s.slave r ∧
      (s.slave.status.readRequested = true → s.interrupted = true)
  | .reading => (s.irq.abrt = false ∧ s.irq.rxDone = false ∧ s.irq.stopDet = false) ∧
      ((s.irq.rdReq = true ∧ Unread len s.slave r ∧
          (s.slave.status.readRequested = true → s.interrupted = true)) ∨
        (s.slave.rxFifo = [] ∧ Matches len s.slave.eeprom true r ∧
          s.slave.status.readRequested = true ∧ s.interrupted = false))
  | .nacked => (s.irq.abrt = false ∧ s.irq.stopDet = false ∧ s.irq.rdReq = false) ∧
      s.slave.rxFifo = [] ∧ s.slave.eeprom.buffer = r.memory
  | .idle | .aborted => Between len s r

structure Inv (len : ℕ) (memory : ℕ → Byte) (s : Bus) : Prop where
  bound : 0 < len ∧ len < 2 ^ 31
  bufferLen : s.slave.eeprom.bufferLen.toNat = len
  reads : s.slave.sent = (Reference.run len memory s.items).out
  phase : PhaseOk len s (Reference.run len memory s.items)

theorem run_append (items : List BusItem) (item : BusItem) :
    Reference.run len memory (items ++ [item]) = (Reference.run len memory items).step len item := by
  unfold Reference.run
  rw [List.foldl_append]
  rfl

theorem step_rest {item : BusItem} (hitem : item = .start ∨ item = .stop ∨ item = .abort)
    (r : Reference) : r.step len item = { r with address := [], count := 0 } := by
  rcases hitem with rfl | rfl | rfl <;> rfl

theorem Unread.drains {s : Slave} {r' : Reference} (hunread : Unread len s r)
    (hmemory : r'.memory = r.memory) : Drains len s r' := by
  obtain ⟨r₀, hmatch, rfl, _⟩ := hunread
  exact Or.inr ⟨r₀, hmatch, hmemory⟩

theorem Unread.matches {s : Slave} (hunread : Unread len s r) (hrx : s.rxFifo = []) :
    Matches len s.eeprom false r := by
  obtain ⟨r₀, hmatch, rfl, _⟩ := hunread
  rw [hrx]
  exact hmatch

theorem Drains.buffer {s : Slave} (hdrains : Drains len s r) (hrx : s.rxFifo = []) :
    s.eeprom.buffer = r.memory := by
  rcases hdrains with ⟨_, h⟩ | ⟨r₀, hmatch, h⟩
  · exact h
  · rw [hrx] at h
    exact hmatch.buffer.trans h.symm

theorem Drains.congr {s : Slave} {r' : Reference} (hdrains : Drains len s r)
    (hmemory : r'.memory = r.memory) : Drains len s r' := by
  rcases hdrains with ⟨hrx, h⟩ | ⟨r₀, hmatch, h⟩
  · exact Or.inl ⟨hrx, h.trans hmemory.symm⟩
  · exact Or.inr ⟨r₀, hmatch, hmemory.trans h⟩

theorem handleRxFull_unread {s : Slave} (hunread : Unread len s r) :
    Matches len s.handleRxFull.eeprom false r ∧ s.handleRxFull.rxFifo = [] ∧
      s.handleRxFull.sent = s.sent ∧ s.handleRxFull.status = { s.status with writeRequested := true } := by
  obtain ⟨r₀, hmatch, rfl, hfirst⟩ := hunread
  unfold Slave.handleRxFull
  cases hstatus : s.status.writeRequested with
  | false =>
    obtain ⟨haddress, hcount⟩ := hfirst hstatus
    refine ⟨?_, rfl, rfl, rfl⟩
    exact (init_matches hmatch.bound hmatch.bufferLen hmatch.buffer haddress hcount).foldl
  | true =>
    refine ⟨hmatch.foldl, rfl, rfl, ?_⟩
    show s.status = _
    rw [← hstatus]

theorem handleStop_drains {s : Slave} (hdrains : Drains len s r)
    (hlen : s.eeprom.bufferLen.toNat = len) :
    (∃ e : EepromControl, s.handleStop.eeprom = e.init ∧ e.buffer = r.memory ∧
      e.bufferLen.toNat = len) ∧ s.handleStop.rxFifo = [] ∧ s.handleStop.sent = s.sent ∧
      s.handleStop.status = .idle := by
  unfold Slave.handleStop Slave.eepromHandle
  by_cases hrx : s.rxFifo.length ≠ 0
  · simp only
    rw [if_pos hrx]
    rcases hdrains with ⟨h, _⟩ | ⟨r₀, hmatch, h⟩
    · rw [h] at hrx
      exact absurd rfl hrx
    · refine ⟨⟨_, rfl, ?_, ?_⟩, rfl, rfl, trivial⟩
      · rw [h]
        exact hmatch.foldl.buffer
      · exact hmatch.foldl.bufferLen
  · have hnil : s.rxFifo = [] := List.eq_nil_of_length_eq_zero (not_not.mp hrx)
    simp only
    rw [if_neg hrx]
    exact ⟨⟨s.eeprom, rfl, hdrains.buffer hnil, hlen⟩, hnil, rfl, trivial⟩

theorem Between.settled (hbetween : Between len s r) (hsettled : s.Settled) :
    s.slave.rxFifo = [] ∧ Matches len s.slave.eeprom false r ∧
      (s.slave.status.readRequested = true → s.interrupted = true) := by
  obtain ⟨_, _, ⟨hirq, _⟩ | ⟨_, h⟩⟩ := hbetween
  · rw [hsettled.1] at hirq
    rcases hirq with h | ⟨h, _⟩
    · cases h
    · cases h
  · exact h

theorem phaseOk_writing (hphase : s.phase = .writing) (hirq : s.irq = .none)
    (hunread : Unread len s.slave r)
    (hread : s.slave.status.readRequested = true → s.interrupted = true) : PhaseOk len s r := by
  unfold PhaseOk
  rw [hphase]
  exact ⟨hirq, hunread, hread⟩

theorem phaseOk_reading (hphase : s.phase = .reading)
    (hirq : s.irq.abrt = false ∧ s.irq.rxDone = false ∧ s.irq.stopDet = false)
    (hcases : (s.irq.rdReq = true ∧ Unread len s.slave r ∧
        (s.slave.status.readRequested = true → s.interrupted = true)) ∨
      (s.slave.rxFifo = [] ∧ Matches len s.slave.eeprom true r ∧
        s.slave.status.readRequested = true ∧ s.interrupted = false)) : PhaseOk len s r := by
  unfold PhaseOk
  rw [hphase]
  exact ⟨hirq, hcases⟩

theorem phaseOk_nacked (hphase : s.phase = .nacked)
    (hirq : s.irq.abrt = false ∧ s.irq.stopDet = false ∧ s.irq.rdReq = false)
    (hrx : s.slave.rxFifo = []) (hbuffer : s.slave.eeprom.buffer = r.memory) :
    PhaseOk len s r := by
  unfold PhaseOk
  rw [hphase]
  exact ⟨hirq, hrx, hbuffer⟩

theorem phaseOk_between (hphase : s.phase = .idle ∨ s.phase = .aborted)
    (hbetween : Between len s r) : PhaseOk len s r := by
  unfold PhaseOk
  rcases hphase with h | h
  · rw [h]
    exact hbetween
  · rw [h]
    exact hbetween

theorem Inv.irq_reading (hinv : Inv len memory s) (hphase : s.phase = .reading)
    (hallowed : Orderly s .irq) (hstep : next s .irq = some s') : Inv len memory s' := by
  unfold next at hstep
  simp only at hstep
  split at hstep
  next => cases hstep
  next hsettled =>
    cases hstep
    obtain ⟨hbound, hlen, hreads, hok⟩ := hinv
    unfold PhaseOk at hok
    rw [hphase] at hok
    obtain ⟨⟨habrt, hrxDone, hstop⟩, hcases⟩ := hok
    have hhandler : s.slave.irqHandler s.irqStatus =
        (let t := if !s.slave.rxFifo.isEmpty then s.slave.handleRxFull else s.slave
          if s.irq.rdReq then t.handleRdReq else t) := by
      unfold Slave.irqHandler Bus.irqStatus
      simp only [habrt, hrxDone, hstop, Bool.or_self, Bool.false_eq_true, if_false]
    cases hreq : s.irq.rdReq with
    | false =>
      -- the request is answered, and nothing else is pending
      rcases hcases with ⟨h, _⟩ | ⟨hrx, hmatch, hread, hint⟩
      · rw [hreq] at h
        cases h
      · have hsame : s.slave.irqHandler s.irqStatus = s.slave := by
          rw [hhandler, hrx, hreq]
          rfl
        rw [hsame]
        simp only [Bool.false_and, Bool.false_eq_true, if_false]
        refine ⟨hbound, hlen, hreads, ?_⟩
        refine phaseOk_reading hphase ⟨rfl, rfl, rfl⟩ (Or.inr ⟨hrx, hmatch, hread, ?_⟩)
        simp [habrt, hint]
    | true =>
      have hint : s.interrupted = false := hallowed.2 hreq habrt
      simp only [habrt, hrxDone, hstop, Bool.not_false, Bool.and_true, if_true,
        Bool.false_eq_true, if_false, Bool.or_self, Bool.true_and]
      rw [hhandler, hreq]
      simp only [if_true]
      rcases hcases with ⟨_, hunread, hread⟩ | ⟨hrx, hmatch, hread, _⟩
      · -- the first request: the bytes before it are taken first
        have hread' : s.slave.status.readRequested = false := by
          cases h : s.slave.status.readRequested with
          | false => rfl
          | true =>
            rw [hread h] at hint
            cases hint
        have htaken : ∃ t : Slave,
            (if !s.slave.rxFifo.isEmpty then s.slave.handleRxFull else s.slave) = t ∧
              Matches len t.eeprom false (Reference.run len memory s.items) ∧ t.rxFifo = [] ∧
              t.sent = s.slave.sent ∧ t.status.readRequested = false := by
          cases hrx : s.slave.rxFifo with
          | nil => exact ⟨s.slave, rfl, hunread.matches hrx, hrx, rfl, hread'⟩
          | cons b l =>
            obtain ⟨hmatch, hnil, hsent, hstatus⟩ := handleRxFull_unread hunread
            refine ⟨_, rfl, hmatch, hnil, hsent, ?_⟩
            show s.slave.handleRxFull.status.readRequested = false
            rw [hstatus]
            exact hread'
        obtain ⟨t, ht, hmatch, hnil, hsent, htread⟩ := htaken
        rw [ht]
        have hreq' : t.handleRdReq = { t with
            status := { t.status with readRequested := true }
            sent := t.sent ++ [t.eeprom.buffer t.eeprom.index] } := by
          unfold Slave.handleRdReq
          rw [htread]
          rfl
        rw [hreq']
        obtain ⟨hout, hmatch'⟩ := hmatch.readRequested
        refine ⟨hbound, hmatch.bufferLen, ?_, ?_⟩
        · rw [run_append, hout, hsent, hreads]
        · rw [run_append]
          exact phaseOk_reading hphase ⟨rfl, rfl, rfl⟩ (Or.inr ⟨hnil, hmatch', rfl, hint⟩)
      · have hnone : (!s.slave.rxFifo.isEmpty) = false := by rw [hrx]; rfl
        have hreq' : s.slave.handleRdReq = { s.slave with
            eeprom := s.slave.eeprom.offsetInc
            sent := s.slave.sent ++
              [s.slave.eeprom.offsetInc.buffer s.slave.eeprom.offsetInc.index] } := by
          unfold Slave.handleRdReq
          rw [hread]
          rfl
        rw [hnone]
        simp only [Bool.false_eq_true, if_false]
        rw [hreq']
        obtain ⟨hout, hmatch'⟩ := hmatch.readProcessed
        refine ⟨hbound, hmatch'.bufferLen, ?_, ?_⟩
        · rw [run_append, hout, hreads]
        · rw [run_append]
          exact phaseOk_reading hphase ⟨rfl, rfl, rfl⟩ (Or.inr ⟨hrx, hmatch', hread, hint⟩)

theorem Inv.irq_writing (hinv : Inv len memory s) (hphase : s.phase = .writing)
    (hstep : next s .irq = some s') : Inv len memory s' := by
  unfold next at hstep
  simp only at hstep
  split at hstep
  next => cases hstep
  next hsettled =>
    cases hstep
    obtain ⟨hbound, hlen, hreads, hok⟩ := hinv
    unfold PhaseOk at hok
    rw [hphase] at hok
    obtain ⟨hirq, hunread, hread⟩ := hok
    have hrx : (!s.slave.rxFifo.isEmpty) = true := by
      cases h : s.slave.rxFifo with
      | nil => exact absurd ⟨hirq, h⟩ hsettled
      | cons b l => rfl
    have hhandler : s.slave.irqHandler s.irqStatus = s.slave.handleRxFull := by
      unfold Slave.irqHandler Bus.irqStatus
      rw [hirq]
      simp only [IrqStatus.none, hrx, if_true, Bool.or_self, Bool.false_eq_true, if_false]
    obtain ⟨hmatch, hnil, hsent, hstatus⟩ := handleRxFull_unread hunread
    rw [hhandler, hirq]
    refine ⟨hbound, hmatch.bufferLen, hsent.trans hreads, ?_⟩
    refine phaseOk_writing hphase rfl ⟨_, hmatch, ?_, ?_⟩ ?_
    · show _ = takeBytes len s.slave.handleRxFull.rxFifo _
      rw [hnil]
      rfl
    · show s.slave.handleRxFull.status.writeRequested = false → _
      rw [hstatus]
      exact fun h => by cases h
    · show s.slave.handleRxFull.status.readRequested = true → _
      rw [hstatus]
      exact hread

theorem Inv.irq_nacked (hinv : Inv len memory s) (hphase : s.phase = .nacked)
    (hstep : next s .irq = some s') : Inv len memory s' := by
  unfold next at hstep
  simp only at hstep
  split at hstep
  next => cases hstep
  next =>
    cases hstep
    obtain ⟨hbound, hlen, hreads, hok⟩ := hinv
    unfold PhaseOk at hok
    rw [hphase] at hok
    obtain ⟨⟨habrt, hstop, hreq⟩, hrx, hbuffer⟩ := hok
    have hnone : (!s.slave.rxFifo.isEmpty) = false := by rw [hrx]; rfl
    have hhandler : s.slave.irqHandler s.irqStatus =
        if s.irq.rxDone then s.slave.handleStop else s.slave := by
      unfold Slave.irqHandler Bus.irqStatus
      simp only [habrt, hstop, hreq, hnone, Bool.or_false, Bool.false_eq_true, if_false]
    simp only [hreq, Bool.false_and, Bool.false_eq_true, if_false]
    rw [hhandler]
    cases s.irq.rxDone with
    | false => exact ⟨hbound, hlen, hreads, phaseOk_nacked hphase ⟨rfl, rfl, rfl⟩ hrx hbuffer⟩
    | true =>
      obtain ⟨⟨e, he, hebuffer, helen⟩, hnil, hsent, _⟩ :=
        handleStop_drains (Or.inl ⟨hrx, hbuffer⟩) hlen
      simp only [if_true]
      refine ⟨hbound, ?_, hsent.trans hreads, phaseOk_nacked hphase ⟨rfl, rfl, rfl⟩ hnil ?_⟩
      · show s.slave.handleStop.eeprom.bufferLen.toNat = len
        rw [he]
        exact helen
      · show s.slave.handleStop.eeprom.buffer = _
        rw [he]
        exact hebuffer

theorem Inv.irq_between (hinv : Inv len memory s) (hphase : s.phase = .idle ∨ s.phase = .aborted)
    (hallowed : Orderly s .irq) (hstep : next s .irq = some s') : Inv len memory s' := by
  unfold next at hstep
  simp only at hstep
  split at hstep
  next => cases hstep
  next hsettled =>
    cases hstep
    obtain ⟨hbound, hlen, hreads, hok⟩ := hinv
    have hbetween : Between len s (Reference.run len memory s.items) := by
      unfold PhaseOk at hok
      rcases hphase with h | h
      · rw [h] at hok
        exact hok
      · rw [h] at hok
        exact hok
    obtain ⟨haddress, hcount, ⟨hirq, hdrains⟩ | ⟨hirq, hrx, _⟩⟩ := hbetween
    · cases habrt : s.irq.abrt with
      | true =>
        have hrx := hallowed.1 habrt
        have hbuffer := hdrains.buffer hrx
        have hhandler : s.slave.irqHandler s.irqStatus =
            { s.slave with eeprom := s.slave.eeprom.init } := by
          unfold Slave.irqHandler Bus.irqStatus
          simp only [habrt, if_true]
          rfl
        simp only [Bool.not_true, Bool.and_false, Bool.false_eq_true, if_false, if_true]
        rw [hhandler]
        have hmatch := init_matches hbound hlen hbuffer haddress hcount
        refine ⟨hbound, hmatch.bufferLen, hreads, phaseOk_between hphase ?_⟩
        refine ⟨haddress, hcount, Or.inr ⟨rfl, hrx, hmatch, fun h => ?_⟩⟩
        rw [Bool.or_eq_true]
        exact Or.inr h
      | false =>
        rcases hirq with h | ⟨hstop, hreq⟩
        · rw [habrt] at h
          cases h
        obtain ⟨⟨e, he, hebuffer, helen⟩, hnil, hsent, hidle⟩ := handleStop_drains hdrains hlen
        have hhandler : s.slave.irqHandler s.irqStatus =
            if !s.slave.rxFifo.isEmpty then s.slave.handleStop.handleRxFull
            else s.slave.handleStop := by
          unfold Slave.irqHandler Bus.irqStatus
          simp only [habrt, hstop, hreq, Bool.or_true, if_true, Bool.false_eq_true, if_false]
        have hmatch : Matches len s.slave.handleStop.eeprom false
            (Reference.run len memory s.items) := by
          rw [he]
          exact init_matches hbound helen hebuffer haddress hcount
        -- after the STOP, a stale RX_FULL finds nothing to read
        have hfinal : ∃ t : Slave, s.slave.irqHandler s.irqStatus = t ∧
            Matches len t.eeprom false (Reference.run len memory s.items) ∧ t.rxFifo = [] ∧
            t.sent = s.slave.sent ∧ t.status.readRequested = false := by
          rw [hhandler]
          cases s.slave.rxFifo.isEmpty with
          | true =>
            refine ⟨_, rfl, hmatch, hnil, hsent, ?_⟩
            show s.slave.handleStop.status.readRequested = false
            rw [hidle]
            rfl
          | false =>
            have hunread : Unread len s.slave.handleStop (Reference.run len memory s.items) := by
              refine ⟨_, hmatch, ?_, fun _ => ⟨haddress, hcount⟩⟩
              rw [hnil]
              rfl
            obtain ⟨hmatch', hnil', hsent', hstatus'⟩ := handleRxFull_unread hunread
            refine ⟨_, rfl, hmatch', hnil', hsent'.trans hsent, ?_⟩
            show s.slave.handleStop.handleRxFull.status.readRequested = false
            rw [hstatus', hidle]
            rfl
        obtain ⟨t, ht, hmatch', hnil', hsent', hread'⟩ := hfinal
        rw [ht, hreq]
        simp only [Bool.false_and, Bool.false_eq_true, if_false]
        refine ⟨hbound, hmatch'.bufferLen, hsent'.trans hreads, phaseOk_between hphase ?_⟩
        refine ⟨haddress, hcount, Or.inr ⟨rfl, hnil', hmatch', fun h => ?_⟩⟩
        have hread : t.status.readRequested = true := h
        rw [hread'] at hread
        cases hread
    · exact absurd ⟨hirq, hrx⟩ hsettled

theorem Inv.between (hinv : Inv len memory s) (hphase : s.phase = .idle ∨ s.phase = .aborted) :
    Between len s (Reference.run len memory s.items) := by
  have hok := hinv.phase
  unfold PhaseOk at hok
  rcases hphase with h | h
  · rw [h] at hok
    exact hok
  · rw [h] at hok
    exact hok

theorem Matches.congr {requested : Bool} {r' : Reference} (hmatch : Matches len e requested r)
    (hmemory : r'.memory = r.memory) (haddress : r'.address = r.address)
    (hcount : r'.count = r.count) : Matches len e requested r' := by
  obtain ⟨hbound, hlen, hbuffer, hfirst, hloc, hsmall, hexact⟩ := hmatch
  refine ⟨hbound, hlen, hbuffer.trans hmemory.symm, ?_, ?_, hsmall, ?_⟩
  · rw [haddress]
    exact hfirst
  · unfold Reference.location at hloc ⊢
    rw [haddress, hcount]
    exact hloc
  · rw [haddress, hcount]
    exact hexact

theorem Inv.next {a : Action} (hinv : Inv len memory s) (hallowed : Orderly s a)
    (hstep : I2cEeprom.next s a = some s') : Inv len memory s' := by
  have hok := hinv.phase
  unfold PhaseOk at hok
  cases a with
  | irq =>
    cases hphase : s.phase with
    | writing => exact hinv.irq_writing hphase hstep
    | reading => exact hinv.irq_reading hphase hallowed hstep
    | nacked => exact hinv.irq_nacked hphase hstep
    | idle => exact hinv.irq_between (Or.inl hphase) hallowed hstep
    | aborted => exact hinv.irq_between (Or.inr hphase) hallowed hstep
  | start =>
    unfold I2cEeprom.next at hstep
    simp only at hstep
    split at hstep
    next henabled =>
      cases hstep
      obtain ⟨hphase, hsettled⟩ := henabled
      have hbetween := hinv.between hphase
      obtain ⟨hrx, hmatch, hread⟩ := hbetween.settled hsettled
      refine ⟨hinv.bound, hinv.bufferLen, ?_, ?_⟩
      · rw [run_append]
        exact hinv.reads
      · rw [run_append, step_rest (Or.inl rfl)]
        refine phaseOk_writing rfl hsettled.1
          ⟨{ Reference.run len memory s.items with address := [], count := 0 }, ?_, ?_,
            fun _ => ⟨rfl, rfl⟩⟩ hread
        · exact hmatch.congr rfl hbetween.1.symm hbetween.2.1.symm
        · show _ = takeBytes len s.slave.rxFifo _
          rw [hrx]
          rfl
    next => cases hstep
  | byte b =>
    unfold I2cEeprom.next at hstep
    simp only at hstep
    split at hstep
    next hphase =>
      cases hstep
      rw [hphase] at hok
      obtain ⟨hirq, ⟨r₀, hmatch, hr, hfirst⟩, hread⟩ := hok
      refine ⟨hinv.bound, hinv.bufferLen, ?_, ?_⟩
      · rw [run_append]
        show s.slave.sent = ((Reference.run len memory s.items).step len (.byte b)).out
        rw [hinv.reads]
        unfold Reference.step
        simp only
        split <;> rfl
      · rw [run_append]
        refine phaseOk_writing hphase hirq ⟨r₀, hmatch, ?_, hfirst⟩ hread
        show _ = takeBytes len (s.slave.rxFifo ++ [b]) r₀
        unfold takeBytes at hr ⊢
        rw [List.foldl_append, ← hr]
        rfl
    next => cases hstep
  | read =>
    unfold I2cEeprom.next at hstep
    simp only at hstep
    split at hstep
    next henabled =>
      cases hstep
      refine ⟨hinv.bound, hinv.bufferLen, hinv.reads, ?_⟩
      rcases henabled with ⟨hphase | hphase, hreq⟩
      · rw [hphase] at hok
        obtain ⟨hirq, hunread, hread⟩ := hok
        refine phaseOk_reading rfl ?_ (Or.inl ⟨rfl, hunread, hread⟩)
        rw [hirq]
        exact ⟨rfl, rfl, rfl⟩
      · rw [hphase] at hok
        obtain ⟨hirq, ⟨h, _⟩ | hanswered⟩ := hok
        · rw [hreq] at h
          cases h
        · exact phaseOk_reading rfl hirq (Or.inr hanswered)
    next => cases hstep
  | nack =>
    unfold I2cEeprom.next at hstep
    simp only at hstep
    split at hstep
    next henabled =>
      cases hstep
      obtain ⟨hphase, hreq⟩ := henabled
      rw [hphase] at hok
      obtain ⟨⟨habrt, _, hstop⟩, ⟨h, _⟩ | ⟨hrx, hmatch, _⟩⟩ := hok
      · rw [hreq] at h
        cases h
      · exact ⟨hinv.bound, hinv.bufferLen, hinv.reads,
          phaseOk_nacked rfl ⟨habrt, hstop, hreq⟩ hrx hmatch.buffer⟩
    next => cases hstep
  | stop =>
    unfold I2cEeprom.next at hstep
    simp only at hstep
    split at hstep
    next henabled =>
      cases hstep
      refine ⟨hinv.bound, hinv.bufferLen, ?_, ?_⟩
      · rw [run_append]
        exact hinv.reads
      · rw [run_append, step_rest (Or.inr (Or.inl rfl))]
        refine phaseOk_between (Or.inl rfl) ⟨rfl, rfl, Or.inl ?_⟩
        rcases henabled with hphase | hphase | hphase
        · rw [hphase] at hok
          obtain ⟨hirq, hunread, _⟩ := hok
          refine ⟨Or.inr ⟨rfl, ?_⟩, hunread.drains rfl⟩
          rw [hirq]
          rfl
        · rw [hphase] at hok
          obtain ⟨⟨_, _, hreq⟩, hrx, hbuffer⟩ := hok
          exact ⟨Or.inr ⟨rfl, hreq⟩, Or.inl ⟨hrx, hbuffer⟩⟩
        · obtain ⟨_, _, ⟨hirq, hdrains⟩ | ⟨hirq, hrx, hmatch, _⟩⟩ := hinv.between (Or.inr hphase)
          · exact ⟨hirq.imp_right fun h => ⟨rfl, h.2⟩, hdrains.congr rfl⟩
          · refine ⟨Or.inr ⟨rfl, ?_⟩, Or.inl ⟨hrx, hmatch.buffer⟩⟩
            rw [hirq]
            rfl
    next => cases hstep
  | abort =>
    unfold I2cEeprom.next at hstep
    simp only at hstep
    split at hstep
    next henabled =>
      cases hstep
      refine ⟨hinv.bound, hinv.bufferLen, ?_, ?_⟩
      · rw [run_append]
        exact hinv.reads
      · rw [run_append, step_rest (Or.inr (Or.inr rfl))]
        refine phaseOk_between (Or.inr rfl) ⟨rfl, rfl, Or.inl ⟨Or.inl rfl, ?_⟩⟩
        rcases henabled with hphase | hphase | hphase
        · rw [hphase] at hok
          exact hok.2.1.drains rfl
        · rw [hphase] at hok
          obtain ⟨_, ⟨_, hunread, _⟩ | ⟨hrx, hmatch, _⟩⟩ := hok
          · exact hunread.drains rfl
          · exact Or.inl ⟨hrx, hmatch.buffer⟩
        · rw [hphase] at hok
          exact Or.inl hok.2
    next => cases hstep

theorem Inv.initial (hinit : I2cEeprom.initial len memory s) : Inv len memory s := by
  obtain ⟨⟨hpos, _, hlt⟩, hslave, hirq, hphase, hitems, hint⟩ := hinit
  have hlen : (BitVec.ofNat 32 len).toNat = len := by
    rw [BitVec.toNat_ofNat]
    exact Nat.mod_eq_of_lt (hlt.trans (by norm_num))
  have hmatch : Matches len s.slave.eeprom false (Reference.run len memory s.items) := by
    rw [hslave, hitems]
    exact init_matches (e := ⟨0, 0, BitVec.ofNat 32 len, memory⟩) ⟨hpos, hlt⟩ hlen rfl rfl rfl
  refine ⟨⟨hpos, hlt⟩, hmatch.bufferLen, ?_, ?_⟩
  · rw [hslave, hitems]
    rfl
  · refine phaseOk_between (Or.inl hphase) ⟨?_, ?_, Or.inr ⟨hirq, ?_, hmatch, ?_⟩⟩
    · rw [hitems]
      rfl
    · rw [hitems]
      rfl
    · rw [hslave]
    · rw [hslave]
      exact fun h => by cases h

theorem Inv.refines (hinv : Inv len memory s) : Refines len memory s := by
  refine ⟨hinv.reads, fun hsettled => ?_⟩
  have hok := hinv.phase
  unfold PhaseOk at hok
  cases hphase : s.phase with
  | writing =>
    rw [hphase] at hok
    exact (hok.2.1.matches hsettled.2).buffer
  | reading =>
    rw [hphase] at hok
    obtain ⟨_, ⟨h, _⟩ | ⟨_, hmatch, _⟩⟩ := hok
    · rw [hsettled.1] at h
      cases h
    · exact hmatch.buffer
  | nacked =>
    rw [hphase] at hok
    exact hok.2.2
  | idle => exact ((hinv.between (Or.inl hphase)).settled hsettled).2.1.buffer
  | aborted => exact ((hinv.between (Or.inr hphase)).settled hsettled).2.1.buffer

/-- For every length and content of the buffer, and every run in which no byte is unread at
an abort and no read request follows an abort in a read without a STOP, the slave is the
reference EEPROM. -/
theorem eeprom_refines (hreach : ((system len memory).restrict Orderly).Reachable s) :
    Refines len memory s := by
  have hinv : Inv len memory s := hreach.invariant (fun _ h => Inv.initial h)
    fun _ _ _ _ hinv hstep => hinv.next hstep.1 hstep.2
  exact hinv.refines

instance (s : Bus) (a : Action) : Decidable (Orderly s a) :=
  match a with
  | .irq => inferInstanceAs (Decidable ((s.irq.abrt = true → s.slave.rxFifo = []) ∧
      (s.irq.rdReq = true → s.irq.abrt = false → s.interrupted = false)))
  | .start | .byte _ | .read | .nack | .stop | .abort => isTrue trivial

def deployed : Bus where
  slave := ⟨⟨1, 0, 16, fun i => BitVec.ofNat 8 i⟩, .idle, [], []⟩
  irq := .none
  phase := .idle
  items := []
  interrupted := false

theorem deployed_initial : initial 16 (fun i => BitVec.ofNat 8 i) deployed :=
  ⟨by decide, rfl, rfl, rfl, rfl, rfl⟩

def writeRead : List Action :=
  [.start, .byte 15, .irq, .byte 0xA0, .byte 0xA1, .irq, .byte 0xA2, .stop, .irq,
    .start, .byte 15, .read, .irq, .read, .irq, .nack, .irq, .stop, .irq]

def afterRead : Bus :=
  (runSteps (guarded Orderly next) deployed writeRead).get (by decide +kernel)

theorem afterRead_run : runSteps (guarded Orderly next) deployed writeRead = some afterRead :=
  (Option.some_get _).symm

theorem eeprom_refines_once :
    Refines 16 (fun i => BitVec.ofNat 8 i) afterRead ∧ afterRead.slave.sent = [0xA0, 0xA1] ∧
      afterRead.Settled ∧
      (List.range 4).map afterRead.slave.eeprom.buffer = [0xA1, 0xA2, 2, 3] := by
  refine ⟨eeprom_refines ((Reachable.init deployed_initial).runGuarded afterRead_run), ?_⟩
  decide +kernel

def brokenRead : List Action :=
  [.start, .read, .irq, .abort, .stop, .irq, .start, .read, .irq]

def afterBroken : Bus := (runSteps next deployed brokenRead).get (by decide +kernel)

theorem afterBroken_run : runSteps next deployed brokenRead = some afterBroken :=
  (Option.some_get _).symm

/-- The next transaction reads address 1 first. -/
theorem aborted_read_skips_byte :
    (system 16 fun i => BitVec.ofNat 8 i).Reachable afterBroken ∧
      ¬ Refines 16 (fun i => BitVec.ofNat 8 i) afterBroken ∧ afterBroken.slave.sent = [0, 1] ∧
      (Reference.run 16 (fun i => BitVec.ofNat 8 i) afterBroken.items).out = [0, 0] := by
  have hsent : afterBroken.slave.sent = [0, 1] := by decide +kernel
  have hout : (Reference.run 16 (fun i => BitVec.ofNat 8 i) afterBroken.items).out = [0, 0] := by
    decide +kernel
  refine ⟨(Reachable.init deployed_initial).runSteps afterBroken_run, ?_, hsent, hout⟩
  intro hrefines
  have heq := hrefines.reads
  rw [hsent, hout] at heq
  exact absurd heq (by decide)

end HiMpu.I2cEeprom
