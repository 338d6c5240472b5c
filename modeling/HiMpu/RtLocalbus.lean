import HiMpu.BmTypes
import HiMpu.TransitionSystem
import Mathlib.Data.List.GetD

/-!
# The local bus of the real-time cores

`real_time/drivers/local_bus/localbus.c`.  A device registers its operations for
a chip select together with a data width, which stands in the chip select's
control register and, for the driver, in `width` of its `localbus_csi`.  The
registration writes the control register of chip select 1, whatever the chip
select is, and with a value that is not shifted to the field.
-/

namespace HiMpu.RtLocalbus

def localbusCsNum : ℕ := 4
def localbusWidth8 : ℕ := 0
def localbusWidth16 : ℕ := 1
def lbBaseAddr : ℕ := 0x8712000
def lbCs1CtrlOffsetAddr : ℕ := 0x24
def lbRegCfDataWidBits : BitVec 32 := 3
def lbRegCfDataWidPos : ℕ := 5

def csControl (cs : ℕ) : ℕ := [0x20, 0x24, 0x28, 0x2C].getD cs 0

def csSize (cs width : ℕ) : ℕ :=
  ([[0x10000000, 0x8000000, 0, 0], [0x10000000, 0x8000000, 0, 0], [0x8000000, 0x4000000, 0, 0],
    [0x8000000, 0x4000000, 0, 0]].getD cs []).getD width 0

def localbusIocfg (cs : ℕ) : List ℕ :=
  [[0x876e000, 0x876e004, 0x876e00c, 0x876e010, 0x876e014, 0x876e018, 0x876e044, 0x876e048,
    0x876e04c, 0x876e050, 0x876e054, 0x876e074, 0x876e078, 0x876e07c, 0x876e080, 0x876e084,
    0x876e088, 0x876e08c, 0x876e090, 0x876e098],
   [0x876e000, 0x876e008, 0x876e00c, 0x876e010, 0x876e014, 0x876e018, 0x876e044, 0x876e048,
    0x876e04c, 0x876e050, 0x876e054, 0x876e074, 0x876e078, 0x876e07c, 0x876e080, 0x876e084,
    0x876e088, 0x876e08c, 0x876e090, 0x876e098],
   [0x876e000, 0x876e00c, 0x876e010, 0x876e014, 0x876e018, 0x876e044, 0x876e048, 0x876e04c,
    0x876e050, 0x876e054, 0x876e074, 0x876e078, 0x876e07c, 0x876e080, 0x876e084, 0x876e088,
    0x876e08c, 0x876e090, 0x876e094, 0x876e098],
   [0x876e000, 0x876e00c, 0x876e010, 0x876e014, 0x876e018, 0x876e044, 0x876e048, 0x876e04c,
    0x876e050, 0x876e054, 0x876e070, 0x876e074, 0x876e078, 0x876e07c, 0x876e080, 0x876e084,
    0x876e088, 0x876e08c, 0x876e090, 0x876e098]].getD cs []

abbrev Regs := ℕ → BitVec 32

def ctrlAddr (cs : ℕ) : ℕ := lbBaseAddr + csControl cs

/-- The operations of a device, as far as they are there.  What `probe` does to the registers is
the device's affair; the control registers are the driver's. -/
structure Ops where
  read : Bool
  write : Bool
  erase : Bool
  probe : Option (Regs → Regs)
  probe_ctrl : ∀ p ∈ probe, ∀ regs, ∀ cs < localbusCsNum, p regs (ctrlAddr cs) = regs (ctrlAddr cs)

structure CsOps where
  cs : ℕ
  ops : Option Ops

structure State where
  exist : Bool
  regs : Regs
  width : ℕ → ℕ
  csOps : ℕ → Option CsOps

def State.ctrl (s : State) (cs : ℕ) : BitVec 32 := s.regs (ctrlAddr cs)

def dataWid (ctrl : BitVec 32) : ℕ := ((ctrl >>> lbRegCfDataWidPos) &&& 3#32).toNat

def localbusInitCsi (s : State) : State :=
  { s with width := fun cs => if cs < localbusCsNum then dataWid (s.ctrl cs) else s.width cs }

def localbusInit (s : State) : State := if s.exist then localbusInitCsi s else s

def localbusWritel (s : State) (value : BitVec 32) (addr : ℕ) : State :=
  { s with regs := Function.update s.regs addr value }

def localbusSetIoCfg (s : State) (cs : ℕ) : State :=
  (localbusIocfg cs).foldl (fun s addr => localbusWritel s 0 addr) s

def localbusRegReadWrite (s : State) (offset : ℕ) (mask val : BitVec 32) : State :=
  localbusWritel s (regReadWrite (s.regs (lbBaseAddr + offset)) mask val) (lbBaseAddr + offset)

/-- The part of the registration that brings the width to the chip select. -/
def setWidth (s : State) (cs csWidth : ℕ) : State :=
  if s.width cs ≠ csWidth then
    let s := localbusRegReadWrite s lbCs1CtrlOffsetAddr (lbRegCfDataWidBits <<< lbRegCfDataWidPos)
      (BitVec.ofNat 32 csWidth)
    { s with width := Function.update s.width cs csWidth }
  else s

def localbusOpsRegister (s : State) (ops : Option CsOps) (csWidth : ℕ) : State × ℤ :=
  if s.exist = false then (s, bmFail)
  else
    match ops with
    | none => (s, bmFail)
    | some o =>
      if localbusCsNum ≤ o.cs then (s, bmFail)
      else if csWidth ≠ localbusWidth8 ∧ csWidth ≠ localbusWidth16 then (s, bmFail)
      else
        let s := localbusSetIoCfg s o.cs
        match o.ops with
        | none => (s, bmFail)
        | some dev =>
          let s := { s with csOps := Function.update s.csOps o.cs (some o) }
          let s := setWidth s o.cs csWidth
          match dev.probe with
          | none => (s, bmOk)
          | some probe => ({ s with regs := probe s.regs }, bmOk)

def localbusOpsUnregister (s : State) (ops : Option CsOps) : State × ℤ :=
  if s.exist = false then (s, bmFail)
  else
    match ops with
    | none => (s, bmFail)
    | some o =>
      if localbusCsNum ≤ o.cs then (s, bmFail)
      else if o.ops.isSome then
        ({ s with csOps := Function.update s.csOps o.cs none }, bmOk)
      else (s, bmFail)

inductive OpKind
  | read
  | write
  | erase
  deriving DecidableEq

def Ops.has (o : Ops) : OpKind → Bool
  | .read => o.read
  | .write => o.write
  | .erase => o.erase

structure DeviceCall where
  kind : OpKind
  cs : ℕ
  offset : ℤ
  length : ℕ

/-- `to` and the sum are signed and of 64 bits, and the sum does not overflow once `to` has
passed. -/
def localbusParaCheck (csOps : Option CsOps) (cs : ℕ) (to_ : ℤ) (length : ℕ) : ℤ :=
  if (csSize cs 0 : ℤ) < to_ then bmFail
  else if (csSize cs 0 : ℤ) < length + to_ then bmFail
  else
    match csOps with
    | none => bmFail
    | some o => if o.ops.isNone then bmFail else bmOk

def localbusTransmitCheck (s : State) (cs buffer : ℕ) : ℤ :=
  if s.exist = false then bmFail
  else if localbusCsNum ≤ cs ∨ buffer = 0 then bmFail
  else bmOk

/-- The common end of the transfers: the check, and the operation if the device has one. -/
def callOp (s : State) (kind : OpKind) (cs : ℕ) (offset : ℤ) (length : ℕ) :
    Except ℤ DeviceCall :=
  if localbusParaCheck (s.csOps cs) cs offset length ≠ 0 then
    .error (localbusParaCheck (s.csOps cs) cs offset length)
  else
    match (s.csOps cs).bind CsOps.ops with
    | none => .error bmFail
    | some dev => if dev.has kind = false then .error bmFail else .ok ⟨kind, cs, offset, length⟩

/-- `localbus_read` and `localbus_write`; `invalid` is `is_invalid_addr_len`. -/
def bufferTransfer (invalid : ℕ → ℕ → Bool) (s : State) (kind : OpKind) (cs : ℕ) (offset : ℤ)
    (length buffer : ℕ) : Except ℤ DeviceCall :=
  if localbusTransmitCheck s cs buffer ≠ 0 then .error bmFail
  else if invalid (buffer % 2 ^ 32) length then .error bmFail
  else callOp s kind cs offset length

def localbusRead (invalid : ℕ → ℕ → Bool) (s : State) (cs : ℕ) (from_ : ℤ) (length buffer : ℕ) :
    Except ℤ DeviceCall :=
  bufferTransfer invalid s .read cs from_ length buffer

def localbusWrite (invalid : ℕ → ℕ → Bool) (s : State) (cs : ℕ) (to_ : ℤ) (length buffer : ℕ) :
    Except ℤ DeviceCall :=
  bufferTransfer invalid s .write cs to_ length buffer

def localbusErase (s : State) (cs : ℕ) (start : ℤ) (length : ℕ) : Except ℤ DeviceCall :=
  if s.exist = false then .error bmFail
  else if localbusCsNum ≤ cs then .error bmFail
  else callOp s .erase cs start length

def Agrees (s : State) : Prop := ∀ cs < localbusCsNum, s.width cs = dataWid (s.ctrl cs)

/-- The chip select has the width, all records are right, and the others are untouched. -/
structure Isolated (s s' : State) (cs csWidth : ℕ) : Prop where
  own : dataWid (s'.ctrl cs) = csWidth
  agrees : Agrees s'
  others : ∀ c < localbusCsNum, c ≠ cs → s'.ctrl c = s.ctrl c

/-- The arguments with which a registration succeeds. -/
structure Registers (s : State) (ops : Option CsOps) (csWidth : ℕ) (o : CsOps) : Prop where
  exist : s.exist = true
  ops_eq : ops = some o
  cs_lt : o.cs < localbusCsNum
  width : csWidth = localbusWidth8 ∨ csWidth = localbusWidth16
  dev : o.ops.isSome

/-- The recorded width is the requested one already, or chip select 1 is set to 8 bits. -/
def KeepsWidth (s : State) (ops : Option CsOps) (csWidth : ℕ) : Prop :=
  ∀ o, Registers s ops csWidth o → s.width o.cs = csWidth ∨ o.cs = 1 ∧ csWidth = localbusWidth8

section Registration

variable {s : State} {ops : Option CsOps} {o : CsOps} {csWidth cs : ℕ}

theorem ctrlAddr_inj {c c' : ℕ} (hc : c < localbusCsNum) (hc' : c' < localbusCsNum)
    (heq : ctrlAddr c = ctrlAddr c') : c = c' := by
  unfold localbusCsNum at hc hc'
  interval_cases c <;> interval_cases c' <;> first | rfl | exact absurd heq (by decide)

theorem ctrl_localbusWritel (s : State) (value : BitVec 32) (c : ℕ) :
    (localbusWritel s value (ctrlAddr c)).ctrl c = value := by
  simp [localbusWritel, State.ctrl]

theorem setIoCfg_frame (s : State) (cs : ℕ) :
    (localbusSetIoCfg s cs).width = s.width ∧ (localbusSetIoCfg s cs).exist = s.exist ∧
      ∀ c < localbusCsNum, (localbusSetIoCfg s cs).ctrl c = s.ctrl c := by
  have hfar : ∀ addr ∈ localbusIocfg cs, 0x876e000 ≤ addr := by
    by_cases hcs : cs < 4
    · interval_cases cs <;> decide
    · have hnil : localbusIocfg cs = [] := List.getD_eq_default _ _ (Nat.not_lt.mp hcs)
      rw [hnil]
      exact fun addr h => absurd h List.not_mem_nil
  unfold localbusSetIoCfg
  generalize localbusIocfg cs = addrs at hfar
  induction addrs generalizing s with
  | nil => exact ⟨rfl, rfl, fun _ _ => rfl⟩
  | cons addr addrs ih =>
    obtain ⟨hwidth, hexist, hctrl⟩ := ih (localbusWritel s 0 addr)
      fun a ha => hfar a (List.mem_cons_of_mem _ ha)
    refine ⟨hwidth, hexist, fun c hc => (hctrl c hc).trans ?_⟩
    have hne : ctrlAddr c ≠ addr := by
      have hle := hfar addr List.mem_cons_self
      have hlt : ctrlAddr c < 0x876e000 := by
        unfold localbusCsNum at hc
        interval_cases c <;> decide
      omega
    exact Function.update_of_ne hne ..

theorem dataWid_written (value : BitVec 32)
    (hwidth : csWidth = localbusWidth8 ∨ csWidth = localbusWidth16) :
    dataWid (regReadWrite value (lbRegCfDataWidBits <<< lbRegCfDataWidPos)
      (BitVec.ofNat 32 csWidth)) = 0 := by
  have hval : BitVec.ofNat 32 csWidth &&& (lbRegCfDataWidBits <<< lbRegCfDataWidPos) = 0 := by
    rcases hwidth with rfl | rfl <;> decide
  have hfield : ((value &&& ~~~(lbRegCfDataWidBits <<< lbRegCfDataWidPos)) >>>
      lbRegCfDataWidPos) &&& 3#32 = 0 := by
    refine BitVec.eq_of_getLsbD_eq fun i hi => ?_
    by_cases hlow : i < 2
    · interval_cases i <;> simp [lbRegCfDataWidBits, lbRegCfDataWidPos]
    · have hthree : (3#32).getLsbD i = false := by
        interval_cases i <;> first | omega | rfl
      rw [BitVec.getLsbD_and, hthree, Bool.and_false]
      exact BitVec.getLsbD_zero.symm
  unfold dataWid regReadWrite
  rw [hval, show (0 : BitVec 32) = 0#32 from rfl, BitVec.or_zero, hfield]
  rfl

theorem setWidth_same (heq : s.width cs = csWidth) : setWidth s cs csWidth = s := by
  unfold setWidth
  rw [if_neg (not_not_intro heq)]

theorem setWidth_changed (hne : s.width cs ≠ csWidth)
    (hwidth : csWidth = localbusWidth8 ∨ csWidth = localbusWidth16) :
    (setWidth s cs csWidth).width = Function.update s.width cs csWidth ∧
      dataWid ((setWidth s cs csWidth).ctrl 1) = 0 ∧
      ∀ c < localbusCsNum, c ≠ 1 → (setWidth s cs csWidth).ctrl c = s.ctrl c := by
  unfold setWidth
  rw [if_pos hne]
  refine ⟨rfl, ?_, fun c hc hc1 => ?_⟩
  · have hword : (localbusRegReadWrite s lbCs1CtrlOffsetAddr
        (lbRegCfDataWidBits <<< lbRegCfDataWidPos) (BitVec.ofNat 32 csWidth)).ctrl 1 =
          regReadWrite (s.ctrl 1) (lbRegCfDataWidBits <<< lbRegCfDataWidPos)
            (BitVec.ofNat 32 csWidth) := by
      have haddr : lbBaseAddr + lbCs1CtrlOffsetAddr = ctrlAddr 1 := rfl
      unfold localbusRegReadWrite
      rw [haddr, ctrl_localbusWritel]
      rfl
    exact (congrArg dataWid hword).trans (dataWid_written _ hwidth)
  · have haddr : ctrlAddr c ≠ ctrlAddr 1 := fun h => hc1 (ctrlAddr_inj hc (by decide) h)
    exact Function.update_of_ne haddr ..

theorem register_of_registers (h : Registers s ops csWidth o) :
    ∃ t, (localbusOpsRegister s ops csWidth).2 = bmOk ∧ t.width = s.width ∧
      (∀ c < localbusCsNum, t.ctrl c = s.ctrl c) ∧
      (localbusOpsRegister s ops csWidth).1.width = (setWidth t o.cs csWidth).width ∧
      (localbusOpsRegister s ops csWidth).1.exist = s.exist ∧
      ∀ c < localbusCsNum, (localbusOpsRegister s ops csWidth).1.ctrl c =
        (setWidth t o.cs csWidth).ctrl c := by
  obtain ⟨hexist, rfl, hcs, hwidth, hdev⟩ := h
  obtain ⟨dev, hdev⟩ := Option.isSome_iff_exists.mp hdev
  obtain ⟨hw, he, hctrl⟩ := setIoCfg_frame s o.cs
  have hbad : ¬ (csWidth ≠ localbusWidth8 ∧ csWidth ≠ localbusWidth16) := by tauto
  have hset : ∀ t : State, (setWidth t o.cs csWidth).exist = t.exist := by
    intro t
    unfold setWidth
    split <;> rfl
  refine ⟨{ localbusSetIoCfg s o.cs with
    csOps := Function.update (localbusSetIoCfg s o.cs).csOps o.cs (some o) }, ?_⟩
  generalize ht : ({ localbusSetIoCfg s o.cs with
    csOps := Function.update (localbusSetIoCfg s o.cs).csOps o.cs (some o) } : State) = t
  have hcall : localbusOpsRegister s (some o) csWidth =
      match dev.probe with
      | none => (setWidth t o.cs csWidth, bmOk)
      | some probe =>
        ({ setWidth t o.cs csWidth with regs := probe (setWidth t o.cs csWidth).regs }, bmOk) := by
    rw [← ht]
    unfold localbusOpsRegister
    simp only [hexist, hdev, if_neg (Nat.not_le.mpr hcs), if_neg hbad, Bool.true_eq_false,
      if_false]
  rw [hcall]
  subst ht
  cases hprobe : dev.probe with
  | none => exact ⟨rfl, hw, hctrl, rfl, (hset _).trans he, fun _ _ => rfl⟩
  | some probe =>
    exact ⟨rfl, hw, hctrl, rfl, (hset _).trans he,
      fun c hc => dev.probe_ctrl probe hprobe _ c hc⟩

theorem register_of_not_registers (h : ∀ o, ¬ Registers s ops csWidth o) :
    (localbusOpsRegister s ops csWidth).2 ≠ bmOk ∧
      (localbusOpsRegister s ops csWidth).1.width = s.width ∧
      (localbusOpsRegister s ops csWidth).1.exist = s.exist ∧
      ∀ c < localbusCsNum, (localbusOpsRegister s ops csWidth).1.ctrl c = s.ctrl c := by
  have hfail : bmFail ≠ bmOk := by decide
  cases hexist : s.exist with
  | false =>
    have hcall : localbusOpsRegister s ops csWidth = (s, bmFail) := if_pos hexist
    rw [hcall]
    exact ⟨hfail, rfl, hexist, fun _ _ => rfl⟩
  | true =>
    cases ops with
    | none =>
      have hcall : localbusOpsRegister s none csWidth = (s, bmFail) := by
        unfold localbusOpsRegister
        simp only [hexist, Bool.true_eq_false, if_false]
      rw [hcall]
      exact ⟨hfail, rfl, hexist, fun _ _ => rfl⟩
    | some o =>
      by_cases hcs : localbusCsNum ≤ o.cs
      · have hcall : localbusOpsRegister s (some o) csWidth = (s, bmFail) := by
          unfold localbusOpsRegister
          simp only [hexist, Bool.true_eq_false, if_false, if_pos hcs]
        rw [hcall]
        exact ⟨hfail, rfl, hexist, fun _ _ => rfl⟩
      · by_cases hwidth : csWidth ≠ localbusWidth8 ∧ csWidth ≠ localbusWidth16
        · have hcall : localbusOpsRegister s (some o) csWidth = (s, bmFail) := by
            unfold localbusOpsRegister
            simp only [hexist, Bool.true_eq_false, if_false, if_neg hcs, if_pos hwidth]
          rw [hcall]
          exact ⟨hfail, rfl, hexist, fun _ _ => rfl⟩
        · cases hdev : o.ops with
          | none =>
            obtain ⟨hw, he, hctrl⟩ := setIoCfg_frame s o.cs
            have hcall : localbusOpsRegister s (some o) csWidth =
                (localbusSetIoCfg s o.cs, bmFail) := by
              unfold localbusOpsRegister
              simp only [hexist, Bool.true_eq_false, if_false, if_neg hcs, if_neg hwidth, hdev]
            rw [hcall]
            exact ⟨hfail, hw, he.trans hexist, hctrl⟩
          | some dev =>
            refine absurd ⟨hexist, rfl, Nat.lt_of_not_le hcs, ?_, by rw [hdev]; rfl⟩ (h o)
            tauto

theorem isolated_iff (hagrees : Agrees s) (h : Registers s ops csWidth o) :
    Isolated s (localbusOpsRegister s ops csWidth).1 o.cs csWidth ↔
      s.width o.cs = csWidth ∨ o.cs = 1 ∧ csWidth = localbusWidth8 := by
  obtain ⟨t, -, hw, hctrl, hwidth, -, hregs⟩ := register_of_registers h
  have hcs := h.cs_lt
  have hone : 1 < localbusCsNum := by decide
  by_cases hsame : s.width o.cs = csWidth
  · have htsame : t.width o.cs = csWidth := by rw [hw, hsame]
    rw [setWidth_same htsame] at hwidth hregs
    have hall : ∀ c < localbusCsNum,
        (localbusOpsRegister s ops csWidth).1.ctrl c = s.ctrl c :=
      fun c hc => (hregs c hc).trans (hctrl c hc)
    refine iff_of_true ⟨?_, ?_, fun c hc _ => hall c hc⟩ (Or.inl hsame)
    · rw [hall _ hcs, ← hagrees _ hcs, hsame]
    · intro c hc
      rw [hwidth, hw, hall c hc, hagrees c hc]
  · have htne : t.width o.cs ≠ csWidth := by
      rw [hw]
      exact hsame
    obtain ⟨hupdate, hzero, hkept⟩ := setWidth_changed htne h.width
    constructor
    · intro hisolated
      have hown := hisolated.own
      by_cases h1 : o.cs = 1
      · rw [h1, hregs 1 hone, hzero] at hown
        exact Or.inr ⟨h1, hown.symm⟩
      · rw [hregs _ hcs, hkept _ hcs h1, hctrl _ hcs, ← hagrees _ hcs] at hown
        exact absurd hown hsame
    · rintro (heq | ⟨h1, rfl⟩)
      · exact absurd heq hsame
      · constructor
        case own =>
          rw [h1, hregs 1 hone]
          exact hzero
        case agrees =>
          intro c hc
          rw [hwidth, hupdate, hregs c hc]
          by_cases hc1 : c = 1
          · subst hc1
            rw [hzero, ← h1, Function.update_self]
            rfl
          · rw [Function.update_of_ne (h1 ▸ hc1), hkept c hc hc1, hctrl c hc, hw, hagrees c hc]
        case others =>
          intro c hc hne
          rw [hregs c hc, hkept c hc (h1 ▸ hne), hctrl c hc]

end Registration

inductive Action
  | register (ops : Option CsOps) (csWidth : ℕ)
  | unregister (ops : Option CsOps)

def next (s : State) : Action → State
  | .register ops csWidth => (localbusOpsRegister s ops csWidth).1
  | .unregister ops => (localbusOpsUnregister s ops).1

def localbus : TransitionSystem State Action where
  init s := ∃ s₀, s = localbusInit s₀
  step s a s' := s' = next s a

def Keeps (s : State) : Action → Prop
  | .register ops csWidth => KeepsWidth s ops csWidth
  | .unregister _ => True

theorem unregister_frame (s : State) (ops : Option CsOps) :
    (localbusOpsUnregister s ops).1.width = s.width ∧
      (localbusOpsUnregister s ops).1.exist = s.exist ∧
      (localbusOpsUnregister s ops).1.regs = s.regs := by
  unfold localbusOpsUnregister
  split
  · exact ⟨rfl, rfl, rfl⟩
  · split
    · exact ⟨rfl, rfl, rfl⟩
    · split
      · exact ⟨rfl, rfl, rfl⟩
      · split <;> exact ⟨rfl, rfl, rfl⟩

def Recorded (s : State) : Prop := s.exist = true → Agrees s

theorem recorded_init (s₀ : State) : Recorded (localbusInit s₀) := by
  intro hexist cs hcs
  cases h : s₀.exist with
  | false =>
    unfold localbusInit at hexist
    rw [if_neg (by rw [h]; exact Bool.false_ne_true), h] at hexist
    cases hexist
  | true =>
    have hinit : localbusInit s₀ = localbusInitCsi s₀ := if_pos h
    rw [hinit]
    exact if_pos hcs

theorem recorded_next {s : State} {a : Action} (hrec : Recorded s) (hkeeps : Keeps s a) :
    Recorded (next s a) := by
  cases a with
  | unregister ops =>
    obtain ⟨hwidth, hexist, hregs⟩ := unregister_frame s ops
    intro hon cs hcs
    have hold := hrec (hexist.symm.trans hon) cs hcs
    unfold State.ctrl at hold ⊢
    exact (congrFun hwidth cs).trans (hold.trans (congrArg (fun r : Regs => dataWid (r (ctrlAddr cs)))
      hregs.symm))
  | register ops csWidth =>
    by_cases hreg : ∃ o, Registers s ops csWidth o
    · obtain ⟨o, ho⟩ := hreg
      exact fun _ => ((isolated_iff (hrec ho.exist) ho).mpr (hkeeps o ho)).agrees
    · obtain ⟨-, hwidth, hexist, hctrl⟩ := register_of_not_registers fun o ho => hreg ⟨o, ho⟩
      intro hon cs hcs
      have hold := hrec (hexist.symm.trans hon) cs hcs
      show (localbusOpsRegister s ops csWidth).1.width cs = _
      rw [hwidth, hold]
      exact congrArg dataWid (hctrl cs hcs).symm

/-- In every run whose registrations keep the width, the records agree with the hardware, and a
further registration that succeeds is isolated exactly when it keeps the width. -/
theorem isolated_of_reachable {s : State} (hreach : (localbus.restrict Keeps).Reachable s) :
    (s.exist = true → Agrees s) ∧
      ∀ (o : CsOps) (csWidth : ℕ),
        ((localbusOpsRegister s (some o) csWidth).2 = bmOk →
          Isolated s (localbusOpsRegister s (some o) csWidth).1 o.cs csWidth) ↔
            KeepsWidth s (some o) csWidth := by
  have hrec : Recorded s := by
    apply hreach.invariant
    · rintro s ⟨s₀, rfl⟩
      exact recorded_init s₀
    · rintro s a s' - hrec ⟨hkeeps, rfl⟩
      exact recorded_next hrec hkeeps
  refine ⟨hrec, fun o csWidth => ?_⟩
  by_cases hreg : Registers s (some o) csWidth o
  · have hiff := isolated_iff (hrec hreg.exist) hreg
    have hok : (localbusOpsRegister s (some o) csWidth).2 = bmOk := by
      obtain ⟨t, hok, -⟩ := register_of_registers hreg
      exact hok
    constructor
    · intro hisolated o' ho'
      obtain rfl : o = o' := Option.some.inj ho'.ops_eq
      exact hiff.mp (hisolated hok)
    · exact fun hkeeps _ => hiff.mpr (hkeeps o hreg)
  · have hnone : ∀ o', ¬ Registers s (some o) csWidth o' := by
      intro o' ho'
      obtain rfl : o = o' := Option.some.inj ho'.ops_eq
      exact hreg ho'
    exact iff_of_true (fun hok => absurd hok (register_of_not_registers hnone).1)
      fun o' ho' => absurd ho' (hnone o')

def plainDevice : Ops where
  read := true
  write := true
  erase := true
  probe := none
  probe_ctrl := fun _ hp => nomatch hp

def plainOps (cs : ℕ) : CsOps := ⟨cs, some plainDevice⟩

def mixedBus : State where
  exist := true
  regs addr := if addr = ctrlAddr 1 then 0x20 else 0
  width _ := 0
  csOps _ := none

theorem isolated_eight :
    Isolated (localbusInit mixedBus) (localbusOpsRegister (localbusInit mixedBus)
      (some (plainOps 1)) localbusWidth8).1 1 localbusWidth8 := by
  have hstart : (localbus.restrict Keeps).Reachable (localbusInit mixedBus) :=
    TransitionSystem.Reachable.init ⟨mixedBus, rfl⟩
  refine ((isolated_of_reachable hstart).2 (plainOps 1) localbusWidth8).mpr ?_ (by decide +kernel)
  intro o ho
  obtain rfl : plainOps 1 = o := Option.some.inj ho.ops_eq
  exact Or.inr ⟨rfl, rfl⟩

/-- Registering 16 bits for chip select 0 records 16 bits, leaves its control register at 8 and
takes chip select 1 from 16 bits to 8. -/
theorem sixteen_misdirected :
    localbus.Reachable (localbusInit mixedBus) ∧
      (localbusOpsRegister (localbusInit mixedBus) (some (plainOps 0)) localbusWidth16).2 = bmOk ∧
      (localbusOpsRegister (localbusInit mixedBus) (some (plainOps 0)) localbusWidth16).1.width 0 =
        1 ∧
      dataWid ((localbusOpsRegister (localbusInit mixedBus) (some (plainOps 0))
        localbusWidth16).1.ctrl 0) = 0 ∧
      (localbusInit mixedBus).ctrl 1 = 0x20 ∧
      (localbusOpsRegister (localbusInit mixedBus) (some (plainOps 0)) localbusWidth16).1.ctrl 1 =
        0 ∧
      ¬ Isolated (localbusInit mixedBus) (localbusOpsRegister (localbusInit mixedBus)
        (some (plainOps 0)) localbusWidth16).1 0 localbusWidth16 := by
  have hwid : dataWid ((localbusOpsRegister (localbusInit mixedBus) (some (plainOps 0))
      localbusWidth16).1.ctrl 0) = 0 := by decide +kernel
  refine ⟨TransitionSystem.Reachable.init ⟨mixedBus, rfl⟩, by decide +kernel, by decide +kernel,
    hwid, by decide +kernel, by decide +kernel, fun hisolated => ?_⟩
  have hown := hisolated.own
  rw [hwid] at hown
  cases hown

def InWindow (s : State) (cs : ℕ) (offset : ℤ) (length : ℕ) : Prop :=
  0 ≤ offset ∧ offset + length ≤ csSize cs (s.width cs)

def Offers (s : State) (kind : OpKind) (cs : ℕ) : Prop :=
  ∃ o dev, s.csOps cs = some o ∧ o.ops = some dev ∧ dev.has kind = true

/-- What passes the check without being in the window: it ends inside the largest window, but
starts below zero or ends behind the window of the width. -/
def Escapes (s : State) (cs : ℕ) (offset : ℤ) (length : ℕ) : Prop :=
  offset + length ≤ csSize cs 0 ∧
    (offset < 0 ∨ (csSize cs (s.width cs) : ℤ) < offset + length)

section Window

variable {s : State} {kind : OpKind} {cs length : ℕ} {offset : ℤ}

theorem paraCheck_iff (csOps : Option CsOps) :
    localbusParaCheck csOps cs offset length = 0 ↔
      offset + length ≤ csSize cs 0 ∧ ∃ o, csOps = some o ∧ o.ops.isSome := by
  have hfail : bmFail ≠ 0 := by decide
  unfold localbusParaCheck
  by_cases hstart : (csSize cs 0 : ℤ) < offset
  · rw [if_pos hstart]
    exact iff_of_false hfail fun h => by omega
  · by_cases hend : (csSize cs 0 : ℤ) < length + offset
    · rw [if_neg hstart, if_pos hend]
      exact iff_of_false hfail fun h => by omega
    · rw [if_neg hstart, if_neg hend]
      cases csOps with
      | none => exact iff_of_false hfail (by rintro ⟨-, o, ho, -⟩; cases ho)
      | some o =>
        change (if o.ops.isNone then bmFail else bmOk) = 0 ↔ _
        cases hops : o.ops with
        | none =>
          refine iff_of_false hfail ?_
          rintro ⟨-, o', ho, hsome⟩
          cases ho
          rw [hops] at hsome
          cases hsome
        | some dev => exact iff_of_true rfl ⟨by omega, o, rfl, by rw [hops]; rfl⟩

theorem callOp_ok_iff (call : DeviceCall) :
    callOp s kind cs offset length = .ok call ↔
      (offset + length ≤ csSize cs 0 ∧ Offers s kind cs) ∧ call = ⟨kind, cs, offset, length⟩ := by
  unfold callOp
  by_cases hcheck : localbusParaCheck (s.csOps cs) cs offset length = 0
  · obtain ⟨hend, o, ho, hsome⟩ := (paraCheck_iff _).mp hcheck
    obtain ⟨dev, hdev⟩ := Option.isSome_iff_exists.mp hsome
    have hbind : (s.csOps cs).bind CsOps.ops = some dev := by rw [ho]; exact hdev
    have hoffers : Offers s kind cs ↔ dev.has kind = true := by
      constructor
      · rintro ⟨o', dev', ho', hdev', hhas⟩
        rw [ho] at ho'
        cases ho'
        rw [hdev] at hdev'
        cases hdev'
        exact hhas
      · exact fun hhas => ⟨o, dev, ho, hdev, hhas⟩
    rw [if_neg (not_not_intro hcheck), hbind, hoffers]
    cases hhas : dev.has kind with
    | false => simp [hhas]
    | true => simp [hhas, hend, eq_comm]
  · rw [if_pos hcheck]
    refine iff_of_false (fun h => nomatch h) ?_
    rintro ⟨⟨hend, o, dev, ho, hdev, -⟩, -⟩
    exact hcheck ((paraCheck_iff _).mpr ⟨hend, o, ho, by rw [hdev]; rfl⟩)

/-- Every call that a transfer makes stays in the window, exactly when nothing escapes that the
other checks let through. -/
theorem inWindow_iff {r : Except ℤ DeviceCall} {passes : Prop}
    (hcalls : ∀ call, r = .ok call ↔ passes ∧ callOp s kind cs offset length = .ok call) :
    (∀ call, r = .ok call → InWindow s call.cs call.offset call.length) ↔
      (passes → Offers s kind cs → ¬ Escapes s cs offset length) := by
  constructor
  · rintro hall hpass hoffers ⟨hend, hout⟩
    have hcall : callOp s kind cs offset length = .ok ⟨kind, cs, offset, length⟩ :=
      (callOp_ok_iff _).mpr ⟨⟨hend, hoffers⟩, rfl⟩
    obtain ⟨hlow, hhigh⟩ := hall _ ((hcalls _).mpr ⟨hpass, hcall⟩)
    change 0 ≤ offset at hlow
    change offset + length ≤ csSize cs (s.width cs) at hhigh
    omega
  · intro hno call hcall
    obtain ⟨hpass, hop⟩ := (hcalls call).mp hcall
    obtain ⟨⟨hend, hoffers⟩, rfl⟩ := (callOp_ok_iff call).mp hop
    have hin := hno hpass hoffers
    unfold Escapes at hin
    show 0 ≤ offset ∧ offset + length ≤ csSize cs (s.width cs)
    omega

theorem bufferTransfer_ok_iff (invalid : ℕ → ℕ → Bool) (buffer : ℕ) (call : DeviceCall) :
    bufferTransfer invalid s kind cs offset length buffer = .ok call ↔
      (localbusTransmitCheck s cs buffer = 0 ∧ invalid (buffer % 2 ^ 32) length = false) ∧
        callOp s kind cs offset length = .ok call := by
  unfold bufferTransfer
  by_cases hcheck : localbusTransmitCheck s cs buffer = 0
  · cases hinvalid : invalid (buffer % 2 ^ 32) length <;> simp [hcheck]
  · rw [if_pos hcheck]
    exact iff_of_false (fun h => nomatch h) fun h => hcheck h.1.1

theorem erase_ok_iff (call : DeviceCall) :
    localbusErase s cs offset length = .ok call ↔
      (s.exist = true ∧ cs < localbusCsNum) ∧ callOp s .erase cs offset length = .ok call := by
  unfold localbusErase
  cases hexist : s.exist with
  | false => simp
  | true =>
    by_cases hcs : localbusCsNum ≤ cs
    · simp only [Bool.true_eq_false, if_false, if_pos hcs]
      exact iff_of_false (fun h => nomatch h) fun h => absurd h.1.2 (Nat.not_lt.mpr hcs)
    · simp only [Bool.true_eq_false, if_false, if_neg hcs]
      exact ⟨fun h => ⟨⟨trivial, Nat.lt_of_not_le hcs⟩, h⟩, fun h => h.2⟩

end Window

/-- Reads, writes and erases stay in the window exactly when nothing escapes that a device would
be asked for. -/
theorem transfers_inWindow_iff (invalid : ℕ → ℕ → Bool) (s : State) (cs length buffer : ℕ)
    (offset : ℤ) :
    ((∀ call, localbusRead invalid s cs offset length buffer = .ok call →
        InWindow s call.cs call.offset call.length) ↔
      (localbusTransmitCheck s cs buffer = 0 ∧ invalid (buffer % 2 ^ 32) length = false →
        Offers s .read cs → ¬ Escapes s cs offset length)) ∧
    ((∀ call, localbusWrite invalid s cs offset length buffer = .ok call →
        InWindow s call.cs call.offset call.length) ↔
      (localbusTransmitCheck s cs buffer = 0 ∧ invalid (buffer % 2 ^ 32) length = false →
        Offers s .write cs → ¬ Escapes s cs offset length)) ∧
    ((∀ call, localbusErase s cs offset length = .ok call →
        InWindow s call.cs call.offset call.length) ↔
      (s.exist = true ∧ cs < localbusCsNum →
        Offers s .erase cs → ¬ Escapes s cs offset length)) :=
  ⟨inWindow_iff fun call => bufferTransfer_ok_iff invalid buffer call,
    inWindow_iff fun call => bufferTransfer_ok_iff invalid buffer call,
    inWindow_iff fun call => erase_ok_iff call⟩

def wideBus : State where
  exist := true
  regs _ := 0x20
  width _ := 1
  csOps cs := some (plainOps cs)

/-- An erase from below the window, and a read from behind the window of 16 bits, reach the
device. -/
theorem wideBus_escapes :
    localbusErase wideBus 0 (-4096) 4096 = .ok ⟨.erase, 0, -4096, 4096⟩ ∧
      ¬ InWindow wideBus 0 (-4096) 4096 ∧
      localbusRead (fun _ _ => false) wideBus 0 0x8000000 4 0x1000 =
        .ok ⟨.read, 0, 0x8000000, 4⟩ ∧
      ¬ InWindow wideBus 0 0x8000000 4 := by
  refine ⟨rfl, ?_, rfl, ?_⟩
  · rintro ⟨hlow, -⟩
    omega
  · rintro ⟨-, hhigh⟩
    have hsize : csSize 0 (wideBus.width 0) = 0x8000000 := rfl
    rw [hsize] at hhigh
    omega

end HiMpu.RtLocalbus
