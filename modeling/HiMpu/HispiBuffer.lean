import HiMpu.TransitionSystem

/-!
# The receive buffer of the SPI character driver

`kernspi_init`, `kernspi_read_data` and `kernspi_write_data` of `drivers/spi/hi_spi.c` against
`hispi_irq_handler`, for one controller and then for both.  Every call runs once, under a
number of its own, which also names the data buffer of a read.  Whatever a call does between
two tests or waits is a step; the handler stores one frame with each of its steps.
-/

namespace HiMpu.Hispi

def spiChipSelectTotalNum : ℕ := 2
abbrev hisiSpiMaxCtl : ℕ := 2
def spiMinDiv : ℕ := 6
def spiMaxDiv : ℕ := 65534
def sysAhbClockFreq : ℕ := 200000000
def txCmdSize : ℕ := 3
def txDataSize : ℕ := 24
def rxDataSize : ℕ := 24
def hispiFrameLength4Bit : ℕ := 3
def hispiFrameLength16Bit : ℕ := 15
def hispiTypeSspi : ℕ := 0
def hispiTypeAdspi : ℕ := 1
def hispiClockEdgeErr : ℕ := 2
def hispiIdleClockPolarityErr : ℕ := 2
def spiNonEepromRd : ℕ := 0

def txEmpty : BitVec 32 := 0x01
def rxOver : BitVec 32 := 0x08
def rxFull : BitVec 32 := 0x10

def spiTrasModeDuplex : BitVec 32 := 0
def spiTrasModeSend : BitVec 32 := 1
def spiTrasModeEepromRd : BitVec 32 := 3

def einval : ℤ := 22
def eintr : ℤ := 4
def enodev : ℤ := 19
def etime : ℤ := 62
def etimedout : ℤ := 110

def setField (v : BitVec 32) (n1 n2 : ℕ) (x : BitVec 32) : BitVec 32 :=
  let mask := 1#32 <<< (n2 + 1) - 1#32 <<< n1
  (v &&& ~~~mask) ||| ((x <<< n1) &&& mask)

theorem getLsbD_fieldMask {n1 n2 i : ℕ} (h12 : n1 ≤ n2) (h2 : n2 < 31) :
    (1#32 <<< (n2 + 1) - 1#32 <<< n1).getLsbD i = decide (n1 ≤ i ∧ i ≤ n2) := by
  have hpow : ∀ k < 32, (1#32 <<< k).toNat = 2 ^ k := by
    intro k hk
    rw [BitVec.toNat_shiftLeft, Nat.shiftLeft_eq]
    exact (Nat.mod_eq_of_lt (by simpa using Nat.pow_lt_pow_right one_lt_two hk)).trans
      (by simp)
  have hle : 1#32 <<< n1 ≤ 1#32 <<< (n2 + 1) := by
    rw [BitVec.le_def, hpow n1 (by omega), hpow (n2 + 1) (by omega)]
    exact Nat.pow_le_pow_right two_pos (by omega)
  have hmask : (1#32 <<< (n2 + 1) - 1#32 <<< n1).toNat = (2 ^ (n2 + 1 - n1) - 1) * 2 ^ n1 := by
    rw [BitVec.toNat_sub_of_le hle, hpow n1 (by omega), hpow (n2 + 1) (by omega), Nat.sub_mul,
      one_mul, ← pow_add, Nat.sub_add_cancel (by omega)]
  rw [BitVec.getLsbD, hmask, Nat.testBit_mul_two_pow, Nat.testBit_two_pow_sub_one]
  rw [← Bool.decide_and]
  apply decide_eq_decide.mpr
  omega

theorem getLsbD_setField {n1 n2 : ℕ} (h12 : n1 ≤ n2) (h2 : n2 < 31) (v x : BitVec 32) (i : ℕ) :
    (setField v n1 n2 x).getLsbD i =
      if n1 ≤ i ∧ i ≤ n2 then x.getLsbD (i - n1) else v.getLsbD i := by
  unfold setField
  simp only [BitVec.getLsbD_or, BitVec.getLsbD_and, BitVec.getLsbD_not, BitVec.getLsbD_shiftLeft,
    getLsbD_fieldMask h12 h2]
  by_cases hi : n1 ≤ i ∧ i ≤ n2
  · have hi32 : i < 32 := by omega
    simp [hi, hi32]
  · by_cases hi32 : i < 32
    · simp [hi, hi32]
    · have hout : v.getLsbD i = false := BitVec.getLsbD_of_ge v i (by omega)
      simp [hi, hi32, hout]

structure InitArg where
  csId : ℕ
  proType : ℕ
  baud : ℕ
  frameLen : ℕ
  clkEdge : ℕ
  clkPol : ℕ

structure ReadArg where
  csId : ℕ
  cmdNull : Bool
  cmdLen : ℕ
  dataNull : Bool
  dataLen : ℕ

structure WriteArg where
  csId : ℕ
  cmdNull : Bool
  cmdLen : ℕ

inductive Kind
  | init (arg : InitArg)
  | read (arg : ReadArg)
  | write (arg : WriteArg)

def Kind.dataLen : Kind → ℕ
  | .read arg => arg.dataLen
  | _ => 0

/-- Where a call stands.  `dummy` is for the second write of a read. -/
inductive Pc
  | idle
  | param
  | checkCmd
  | checkData
  | down
  | initCtrl
  | initMask
  | config
  | write (dummy : Bool)
  | writeEnable (dummy : Bool)
  | writeWait (dummy : Bool)
  | writeLast (dummy : Bool)
  | writeIdle (dummy : Bool)
  | arm
  | flag
  | readEnable
  | readWait
  | readLast
  | clear
  | up
  | done
  deriving DecidableEq

structure Call where
  kind : Kind
  pc : Pc
  checked : ℕ
  ret : ℤ

structure Rx where
  frameLen : ℕ
  i : ℕ

structure State where
  ctrlr0 : BitVec 32
  imr : BitVec 32
  gTransmode : ℕ
  spiBusSem : Bool
  wWaitFlags : ℕ
  rWaitFlags : ℕ
  rxTextPos : Option (ℕ × ℕ)
  rxTextLen : ℕ
  calls : ℕ → Call
  rx : Option Rx
  mem : ℕ → ℕ → BitVec 8

def State.frameLen (s : State) : ℕ := (s.ctrlr0 &&& 0xf#32).toNat

def State.setCall (s : State) (c : ℕ) (call : Call) : State :=
  { s with calls := Function.update s.calls c call }

def State.goto (s : State) (c : ℕ) (pc : Pc) : State :=
  s.setCall c { s.calls c with pc := pc }

def State.exit (s : State) (c : ℕ) (pc : Pc) (ret : ℤ) : State :=
  s.setCall c { s.calls c with pc := pc, ret := ret }

def hispiEnableIntr (imr mask : BitVec 32) : BitVec 32 := imr ||| mask
def hispiDisableIntr (imr mask : BitVec 32) : BitVec 32 := imr &&& ~~~mask

/-! ## The checks -/

def hispiDataLenCheck (frameLen length maxSize : ℕ) : Bool :=
  !(length = 0 || length > maxSize) && !(frameLen = 0xf && length % 2 ≠ 0)

def hispiInitParamCheck (arg : InitArg) : Bool :=
  arg.csId < spiChipSelectTotalNum &&
    (arg.proType = hispiTypeAdspi || arg.proType = hispiTypeSspi) &&
    (hispiFrameLength4Bit ≤ arg.frameLen && arg.frameLen ≤ hispiFrameLength16Bit) &&
    arg.clkEdge < hispiClockEdgeErr && arg.clkPol < hispiIdleClockPolarityErr

def hispiBaudrateCfg (baudRate : ℕ) : Option ℕ :=
  if baudRate = 0 then none
  else
    let freqDiv := sysAhbClockFreq / baudRate
    let freqDiv := if freqDiv % 2 ≠ 0 then freqDiv + 1 else freqDiv
    let freqDiv := freqDiv % 2 ^ 16
    if freqDiv < spiMinDiv ∨ freqDiv > spiMaxDiv then none else some freqDiv

def InitArg.ctrlr0 (arg : InitArg) (v : BitVec 32) : BitVec 32 :=
  let v := setField v 11 11 0
  let v := setField v 4 5 0
  let v := setField v 0 3 (BitVec.ofNat 32 arg.frameLen)
  let v := setField v 7 7 (BitVec.ofNat 32 arg.clkPol)
  setField v 6 6 (BitVec.ofNat 32 arg.clkEdge)

inductive Outcome
  | go
  | timeout
  | signal
  | fail

def checkParam (s : State) (c : ℕ) : State :=
  match (s.calls c).kind with
  | .init arg =>
    if hispiInitParamCheck arg then s.goto c .down else s.exit c .done (-einval)
  | .read arg =>
    if arg.csId < spiChipSelectTotalNum ∧ !arg.cmdNull ∧ !arg.dataNull then s.goto c .checkCmd
    else s.exit c .done (-einval)
  | .write arg =>
    if arg.csId < spiChipSelectTotalNum ∧ !arg.cmdNull then s.goto c .checkCmd
    else s.exit c .done (-einval)

def checkCmd (s : State) (c : ℕ) : State :=
  match (s.calls c).kind with
  | .init _ => s
  | .read arg =>
    if hispiDataLenCheck s.frameLen arg.cmdLen txDataSize then s.goto c .checkData
    else s.exit c .done (-einval)
  | .write arg =>
    if hispiDataLenCheck s.frameLen arg.cmdLen (txDataSize + txCmdSize) then s.goto c .down
    else s.exit c .done (-einval)

def checkData (s : State) (c : ℕ) : State :=
  if hispiDataLenCheck s.frameLen (s.calls c).kind.dataLen rxDataSize then
    s.setCall c { s.calls c with pc := .down, checked := s.frameLen }
  else s.exit c .done (-einval)

def down (s : State) (c : ℕ) : Outcome → Option State
  | .signal => some (s.exit c .done (-eintr))
  | _ =>
    if s.spiBusSem then
      some { s.goto c (match (s.calls c).kind with | .init _ => .initCtrl | _ => .config) with
        spiBusSem := false }
    else none

def initCtrl (s : State) (c : ℕ) : State :=
  match (s.calls c).kind with
  | .init arg =>
    let s := { s with ctrlr0 := arg.ctrlr0 s.ctrlr0 }
    match hispiBaudrateCfg arg.baud with
    | none => s.exit c .up (-einval)
    | some _ => s.goto c .initMask
  | _ => s

def config (s : State) (c : ℕ) : State :=
  match (s.calls c).kind with
  | .read _ =>
    { s.goto c (.write false) with
      ctrlr0 := setField s.ctrlr0 8 9
        (if s.gTransmode = spiNonEepromRd then spiTrasModeDuplex else spiTrasModeEepromRd)
      imr := hispiDisableIntr s.imr (txEmpty ||| rxFull ||| rxOver) }
  | _ => { s.goto c (.write false) with ctrlr0 := setField s.ctrlr0 8 9 spiTrasModeSend }

def written (s : State) (c : ℕ) (dummy : Bool) : State :=
  match (s.calls c).kind with
  | .read _ =>
    if !dummy ∧ s.gTransmode = spiNonEepromRd then s.goto c (.write true) else s.goto c .arm
  | _ => s.exit c .up 0

def step (s : State) (c : ℕ) (o : Outcome) : Option State :=
  match (s.calls c).pc with
  | .idle | .done => none
  | .param => some (checkParam s c)
  | .checkCmd => some (checkCmd s c)
  | .checkData => some (checkData s c)
  | .down => down s c o
  | .initCtrl => some (initCtrl s c)
  | .initMask =>
    let s := { s with imr := hispiDisableIntr s.imr 0xffffffff }
    some (match o with
      | .fail => s.exit c .up (-enodev)
      | _ => s.exit c .up 0)
  | .config => some (config s c)
  | .write dummy => some { s.goto c (.writeEnable dummy) with wWaitFlags := 1 }
  | .writeEnable dummy =>
    some { s.goto c (.writeWait dummy) with imr := hispiEnableIntr s.imr txEmpty }
  | .writeWait dummy =>
    if s.wWaitFlags = 0 then some (s.goto c (.writeIdle dummy))
    else
      match o with
      | .timeout => some (s.goto c (.writeLast dummy))
      | .signal => some (s.exit c .up (-eintr))
      | _ => none
  | .writeLast dummy =>
    if s.wWaitFlags ≠ 0 then some (s.exit c .up (-etimedout))
    else some (s.goto c (.writeIdle dummy))
  | .writeIdle dummy =>
    match o with
    | .timeout => some (s.exit c .up (-etime))
    | _ => some (written s c dummy)
  | .arm =>
    some { s.goto c .flag with
      rxTextPos := some (c, 0), rxTextLen := (s.calls c).kind.dataLen }
  | .flag => some { s.goto c .readEnable with rWaitFlags := 1 }
  | .readEnable =>
    some { s.goto c .readWait with imr := hispiEnableIntr s.imr (rxFull ||| rxOver) }
  | .readWait =>
    if s.rWaitFlags = 0 then some (s.exit c .clear 0)
    else
      match o with
      | .timeout => some (s.goto c .readLast)
      | .signal => some (s.exit c .clear (-eintr))
      | _ => none
  | .readLast =>
    if s.rWaitFlags ≠ 0 then some (s.exit c .clear (-etimedout)) else some (s.exit c .clear 0)
  | .clear => some (s.goto c .up)
  | .up => some { s.goto c .done with spiBusSem := true }

/-- The handler comes when the device has a condition that is not masked. -/
def hispiIrqHandler (s : State) (raw : BitVec 32) : Option State :=
  let isr := raw &&& s.imr
  if s.rx.isNone ∧ isr ≠ 0 then
    if isr &&& txEmpty = txEmpty then
      some { s with imr := hispiDisableIntr s.imr txEmpty, wWaitFlags := 0 }
    else if isr &&& rxFull = rxFull ∨ isr &&& rxOver = rxOver then
      some { s with rx := some ⟨s.frameLen, 0⟩ }
    else some { s with imr := hispiDisableIntr s.imr isr }
  else none

structure Store where
  call : ℕ
  offset : ℕ
  value : BitVec 8

/-- What the handler stores next, with the frame from the FIFO. -/
def State.rxStores (s : State) (frame : BitVec 32) : List Store :=
  match s.rx, s.rxTextPos with
  | some h, some (c, offset) =>
    if h.i < s.rxTextLen then
      if h.frameLen = 0xf then
        [⟨c, offset + h.i, frame.setWidth 8⟩, ⟨c, offset + (h.i + 1), (frame >>> 8).setWidth 8⟩]
      else [⟨c, offset + h.i, frame.setWidth 8⟩]
    else []
  | _, _ => []

def storeAll (mem : ℕ → ℕ → BitVec 8) (stores : List Store) : ℕ → ℕ → BitVec 8 :=
  stores.foldl (fun mem st =>
    Function.update mem st.call (Function.update (mem st.call) st.offset st.value)) mem

def rxStep (s : State) (frame : BitVec 32) : Option State :=
  match s.rx with
  | none => none
  | some h =>
    if h.i < s.rxTextLen then
      some { s with
        mem := storeAll s.mem (s.rxStores frame)
        rx := some ⟨h.frameLen, h.i + if h.frameLen = 0xf then 2 else 1⟩ }
    else
      some { s with
        rxTextPos := s.rxTextPos.map fun p => (p.1, p.2 + s.rxTextLen)
        rxTextLen := 0
        imr := hispiDisableIntr s.imr (rxFull ||| rxOver)
        rWaitFlags := 0
        rx := none }

inductive Action
  | call (c : ℕ) (kind : Kind)
  | step (c : ℕ) (o : Outcome)
  | irq (raw : BitVec 32)
  | rx (frame : BitVec 32)

def next (s : State) : Action → Option State
  | .call c kind =>
    if (s.calls c).pc = .idle then some (s.setCall c ⟨kind, .param, 0, 0⟩) else none
  | .step c o => step s c o
  | .irq raw => hispiIrqHandler s raw
  | .rx frame => rxStep s frame

def controller : TransitionSystem State Action :=
  TransitionSystem.ofStep
    (fun s => s.spiBusSem = true ∧ s.wWaitFlags = 0 ∧ s.rWaitFlags = 0 ∧ s.rxTextPos = none ∧
      s.rxTextLen = 0 ∧ (∀ c, (s.calls c).pc = .idle) ∧ s.rx = none) next

def system : TransitionSystem (Fin hisiSpiMaxCtl → State) (Fin hisiSpiMaxCtl × Action) :=
  TransitionSystem.family (Fin hisiSpiMaxCtl) controller

/-! ## What a caller is promised -/

def Pc.executing : Pc → Bool
  | .idle | .done => false
  | _ => true

/-- The store goes into the buffer of a read that is still executing, and the frame is unpacked
with the frame length for which the length of the buffer was accepted. -/
structure StoreOk (s : State) (h : Rx) (st : Store) : Prop where
  executing : (s.calls st.call).pc.executing = true
  inside : st.offset < (s.calls st.call).kind.dataLen
  frame : h.frameLen = (s.calls st.call).checked

def StepOk (s : State) : Action → Prop
  | .rx frame =>
    ∀ h, s.rx = some h → (h.i < s.rxTextLen → s.rxTextPos ≠ none) ∧
      ∀ st ∈ s.rxStores frame, StoreOk s h st
  | _ => True

def Call.abandoned (call : Call) : Prop :=
  call.pc = .done ∧ (call.ret = -etimedout ∨ call.ret = -eintr)

def Allowed (s : State) : Action → Prop
  | .rx _ =>
    ∀ h c offset, s.rx = some h → h.i < s.rxTextLen → s.rxTextPos = some (c, offset) →
      ¬ (s.calls c).abandoned ∧ h.frameLen = (s.calls c).checked
  | _ => True

def Pc.holds : Pc → Bool
  | .idle | .param | .checkCmd | .checkData | .down | .done => false
  | _ => true

def Pc.armed : Pc → Bool
  | .flag | .readEnable | .readWait | .readLast | .clear | .up | .done => true
  | _ => false

def Pc.waited : Pc → Bool
  | .clear | .up | .done => true
  | _ => false

def Pc.waits : Pc → Bool
  | .readEnable | .readWait | .readLast => true
  | _ => false

def Pc.checked : Pc → Bool
  | .idle | .param | .checkCmd | .checkData | .done => false
  | _ => true

structure Armed (s : State) (c : ℕ) : Prop where
  pos : s.rxTextPos = some (c, 0)
  len : s.rxTextLen = (s.calls c).kind.dataLen
  armed : (s.calls c).pc.armed = true
  failed : (s.calls c).pc.waited = true →
    (s.calls c).ret = -etimedout ∨ (s.calls c).ret = -eintr

structure Inv (s : State) : Prop where
  sem : ∀ c, (s.calls c).pc.holds = true →
    s.spiBusSem = false ∧ ∀ d, (s.calls d).pc.holds = true → d = c
  armed : s.rxTextLen ≠ 0 → ∃ c, Armed s c
  served : ∀ c, (s.calls c).pc.waits = true → s.rWaitFlags = 0 → s.rxTextLen = 0
  even : ∀ c, (s.calls c).pc.checked = true → (s.calls c).checked = 0xf →
    (s.calls c).kind.dataLen % 2 = 0
  aligned : ∀ h, s.rx = some h → h.frameLen = 0xf → h.i % 2 = 0

structure SameBuffer (s s' : State) : Prop where
  pos : s'.rxTextPos = s.rxTextPos
  len : s'.rxTextLen = s.rxTextLen
  rx : s'.rx = s.rx

structure SameRx (s s' : State) : Prop extends SameBuffer s s' where
  flags : s'.rWaitFlags = s.rWaitFlags

section Moves

variable {s s' : State} {c : ℕ} {call : Call}

structure SemOk (s s' : State) (c : ℕ) (call : Call) : Prop where
  own : call.pc.holds = true →
    s'.spiBusSem = false ∧ ((s.calls c).pc.holds = true ∨ s.spiBusSem = true)
  other : s'.spiBusSem = s.spiBusSem ∨ (s.calls c).pc.holds = true ∨ s.spiBusSem = true

theorem Inv.sem_update (h : Inv s) (hsem : SemOk s s' c call)
    (hcalls : s'.calls = Function.update s.calls c call) :
    ∀ d, (s'.calls d).pc.holds = true →
      s'.spiBusSem = false ∧ ∀ e, (s'.calls e).pc.holds = true → e = d := by
  -- nobody else holds it when the call has or takes it
  have halone : (s.calls c).pc.holds = true ∨ s.spiBusSem = true →
      ∀ d, (s.calls d).pc.holds = true → d = c := by
    rintro (hc | hfree) d hd
    · exact (h.sem c hc).2 d hd
    · have htaken := (h.sem d hd).1
      rw [hfree] at htaken
      cases htaken
  intro d hd
  rw [hcalls] at hd
  by_cases hdc : d = c
  · subst hdc
    rw [Function.update_self] at hd
    obtain ⟨htaken, hown⟩ := hsem.own hd
    refine ⟨htaken, fun e he => ?_⟩
    by_contra hne
    rw [hcalls, Function.update_of_ne hne] at he
    exact hne (halone hown e he)
  · rw [Function.update_of_ne hdc] at hd
    have hkeep : ¬ ((s.calls c).pc.holds = true ∨ s.spiBusSem = true) :=
      fun hown => hdc (halone hown d hd)
    have hsame : s'.spiBusSem = s.spiBusSem := hsem.other.resolve_right hkeep
    refine ⟨hsame.trans (h.sem d hd).1, fun e he => ?_⟩
    rw [hcalls] at he
    by_cases hec : e = c
    · subst hec
      rw [Function.update_self] at he
      exact absurd (hsem.own he).2 hkeep
    · rw [Function.update_of_ne hec] at he
      exact (h.sem d hd).2 e he

theorem Inv.move (h : Inv s) (hcalls : s'.calls = Function.update s.calls c call)
    (hrx : SameBuffer s s') (hsem : SemOk s s' c call)
    (harmed : s.rxTextLen ≠ 0 → Armed s c → call.kind = (s.calls c).kind ∧
      call.pc.armed = true ∧
      (call.pc.waited = true → call.ret = -etimedout ∨ call.ret = -eintr))
    (hserved : ∀ d, (Function.update s.calls c call d).pc.waits = true → s'.rWaitFlags = 0 →
      s.rxTextLen = 0)
    (heven : call.pc.checked = true → call.checked = 0xf → call.kind.dataLen % 2 = 0) :
    Inv s' where
  sem := h.sem_update hsem hcalls
  armed hlen := by
    rw [hrx.len] at hlen
    obtain ⟨d, hd⟩ := h.armed hlen
    refine ⟨d, ?_⟩
    by_cases hdc : d = c
    · subst hdc
      obtain ⟨hkind, hpc, hfailed⟩ := harmed hlen hd
      have hself : s'.calls d = call := by rw [hcalls, Function.update_self]
      exact ⟨hrx.pos.trans hd.pos, by rw [hrx.len, hself, hkind]; exact hd.len,
        by rw [hself]; exact hpc, by rw [hself]; exact hfailed⟩
    · have hother : s'.calls d = s.calls d := by rw [hcalls, Function.update_of_ne hdc]
      exact ⟨hrx.pos.trans hd.pos, by rw [hrx.len, hother]; exact hd.len,
        by rw [hother]; exact hd.armed, by rw [hother]; exact hd.failed⟩
  served d hd hflags := by
    rw [hcalls] at hd
    exact hrx.len.trans (hserved d hd hflags)
  even d hd hchecked := by
    rw [hcalls] at hd hchecked ⊢
    by_cases hdc : d = c
    · subst hdc
      rw [Function.update_self] at hd hchecked ⊢
      exact heven hd hchecked
    · rw [Function.update_of_ne hdc] at hd hchecked ⊢
      exact h.even d hd hchecked
  aligned hd := by
    rw [hrx.rx]
    exact h.aligned hd

theorem Inv.served_update (h : Inv s) (hflags : s'.rWaitFlags = s.rWaitFlags)
    (hwaits : call.pc.waits = true → (s.calls c).pc.waits = true) (d : ℕ)
    (hd : (Function.update s.calls c call d).pc.waits = true) (hzero : s'.rWaitFlags = 0) :
    s.rxTextLen = 0 := by
  rw [hflags] at hzero
  by_cases hdc : d = c
  · subst hdc
    rw [Function.update_self] at hd
    exact h.served d (hwaits hd) hzero
  · rw [Function.update_of_ne hdc] at hd
    exact h.served d hd hzero

theorem Inv.early (h : Inv s) (hcalls : s'.calls = Function.update s.calls c call)
    (hrx : SameRx s s') (hsem : SemOk s s' c call) (hpc : (s.calls c).pc.armed = false)
    (hwaits : call.pc.waits = false)
    (heven : call.pc.checked = true → call.checked = 0xf → call.kind.dataLen % 2 = 0) :
    Inv s' :=
  h.move hcalls hrx.toSameBuffer hsem (fun _ harmed => by rw [harmed.armed] at hpc; cases hpc)
    (h.served_update hrx.flags fun hw => by rw [hw] at hwaits; cases hwaits) heven

theorem SemOk.outside (hs : s'.spiBusSem = s.spiBusSem) (hpc : call.pc.holds = false) :
    SemOk s s' c call where
  own hcall := by rw [hpc] at hcall; cases hcall
  other := Or.inl hs

theorem SemOk.inside (h : Inv s) (hs : s'.spiBusSem = s.spiBusSem)
    (hpc : (s.calls c).pc.holds = true) : SemOk s s' c call where
  own _ := ⟨hs.trans (h.sem c hpc).1, Or.inl hpc⟩
  other := Or.inl hs

theorem Pc.checked_of_holds {pc : Pc} (h : pc.holds = true) : pc.checked = true := by
  cases pc <;> first | rfl | cases h

theorem Pc.checked_of_armed {pc : Pc} (h : pc.armed = true) (hdone : pc ≠ .done) :
    pc.checked = true := by
  cases pc <;> first | rfl | exact absurd rfl hdone | cases h

theorem held_unarmed {pc : Pc} (hpc : (s.calls c).pc = pc)
    (hplace : pc.holds = true ∧ pc.armed = false) :
    (s.calls c).pc.holds = true ∧ (s.calls c).pc.armed = false := by
  rw [hpc]
  exact hplace

theorem Inv.outside (h : Inv s) (hcalls : s'.calls = Function.update s.calls c call)
    (hrx : SameRx s s') (hs : s'.spiBusSem = s.spiBusSem) (hpc : (s.calls c).pc.armed = false)
    (hcall : call.pc.holds = false ∧ call.pc.waits = false)
    (heven : call.pc.checked = true → call.checked = 0xf → call.kind.dataLen % 2 = 0) : Inv s' :=
  h.early hcalls hrx (.outside hs hcall.1) hpc hcall.2 heven

theorem Inv.inside (h : Inv s) (hcalls : s'.calls = Function.update s.calls c call)
    (hrx : SameRx s s') (hs : s'.spiBusSem = s.spiBusSem)
    (hpc : (s.calls c).pc.holds = true ∧ (s.calls c).pc.armed = false)
    (hwaits : call.pc.waits = false)
    (hcall : call.kind = (s.calls c).kind ∧ call.checked = (s.calls c).checked) : Inv s' := by
  refine h.early hcalls hrx (.inside h hs hpc.1) hpc.2 hwaits fun _ hchecked => ?_
  rw [hcall.1]
  rw [hcall.2] at hchecked
  exact h.even c (Pc.checked_of_holds hpc.1) hchecked

theorem Inv.late (h : Inv s) (hcalls : s'.calls = Function.update s.calls c call)
    (hrx : SameBuffer s s') (hsem : SemOk s s' c call) (hpc : (s.calls c).pc.holds = true)
    (hcall : call.kind = (s.calls c).kind ∧ call.checked = (s.calls c).checked)
    (harmed : call.pc.armed = true)
    (hwaited : call.pc.waited = true → s.rxTextLen ≠ 0 → Armed s c →
      call.ret = -etimedout ∨ call.ret = -eintr)
    (hserved : ∀ d, (Function.update s.calls c call d).pc.waits = true → s'.rWaitFlags = 0 →
      s.rxTextLen = 0) : Inv s' := by
  refine h.move hcalls hrx hsem ?_ hserved fun _ hchecked => ?_
  · exact fun hlen hc => ⟨hcall.1, harmed, fun hw => hwaited hw hlen hc⟩
  · rw [hcall.1]
    rw [hcall.2] at hchecked
    exact h.even c (Pc.checked_of_holds hpc) hchecked

end Moves

section Steps

variable {s s' : State} {c : ℕ}

theorem hispiDataLenCheck_even {frameLen length maxSize : ℕ}
    (h : hispiDataLenCheck frameLen length maxSize = true) (hframe : frameLen = 0xf) :
    length % 2 = 0 := by
  simp only [hispiDataLenCheck, Bool.and_eq_true, Bool.not_eq_true', decide_eq_false_iff_not,
    Bool.and_eq_false_imp, decide_eq_true_eq] at h
  simpa using h.2 hframe

theorem Inv.goto (h : Inv s) (hpc : (s.calls c).pc.armed = false) {pc : Pc}
    (hholds : pc.holds = false ∧ pc.waits = false)
    (hlen : pc.checked = true → (s.calls c).kind.dataLen = 0) : Inv (s.goto c pc) := by
  refine h.outside rfl ⟨⟨rfl, rfl, rfl⟩, rfl⟩ rfl hpc hholds fun hchecked _ => ?_
  rw [show (Call.kind { s.calls c with pc := pc }).dataLen = 0 from hlen hchecked]

theorem Inv.fails (h : Inv s) (hpc : (s.calls c).pc.armed = false) (ret : ℤ) :
    Inv (s.exit c .done ret) :=
  h.outside rfl ⟨⟨rfl, rfl, rfl⟩, rfl⟩ rfl hpc ⟨rfl, rfl⟩ fun hc => by cases hc

theorem Inv.checkParam (h : Inv s) (hpc : (s.calls c).pc.armed = false) :
    Inv (checkParam s c) := by
  unfold Hispi.checkParam
  cases hkind : (s.calls c).kind with
  | init arg =>
    simp only
    split
    · exact h.goto hpc ⟨rfl, rfl⟩ fun _ => by rw [hkind]; rfl
    · exact h.fails hpc _
  | read arg =>
    simp only
    split
    · exact h.goto hpc ⟨rfl, rfl⟩ fun hc => by cases hc
    · exact h.fails hpc _
  | write arg =>
    simp only
    split
    · exact h.goto hpc ⟨rfl, rfl⟩ fun hc => by cases hc
    · exact h.fails hpc _

theorem Inv.checkCmd (h : Inv s) (hpc : (s.calls c).pc.armed = false) : Inv (checkCmd s c) := by
  unfold Hispi.checkCmd
  cases hkind : (s.calls c).kind with
  | init arg => exact h
  | read arg =>
    simp only
    split
    · exact h.goto hpc ⟨rfl, rfl⟩ fun hc => by cases hc
    · exact h.fails hpc _
  | write arg =>
    simp only
    split
    · exact h.goto hpc ⟨rfl, rfl⟩ fun _ => by rw [hkind]; rfl
    · exact h.fails hpc _

theorem Inv.checkData (h : Inv s) (hpc : (s.calls c).pc.armed = false) :
    Inv (checkData s c) := by
  unfold Hispi.checkData
  split
  next hcheck =>
    exact h.outside rfl ⟨⟨rfl, rfl, rfl⟩, rfl⟩ rfl hpc ⟨rfl, rfl⟩ fun _ hframe =>
      hispiDataLenCheck_even hcheck hframe
  next => exact h.fails hpc _

theorem Inv.down {o : Outcome} (h : Inv s) (hpc : (s.calls c).pc = .down)
    (hstep : down s c o = some s') : Inv s' := by
  have harmed : (s.calls c).pc.armed = false := by rw [hpc]; rfl
  have htake : ∀ pc, pc.waits = false → s.spiBusSem = true →
      Inv { s.goto c pc with spiBusSem := false } := by
    intro pc hwaits hfree
    refine h.early rfl ⟨⟨rfl, rfl, rfl⟩, rfl⟩ ⟨fun _ => ⟨rfl, Or.inr hfree⟩, Or.inr (Or.inr hfree)⟩
      harmed hwaits fun _ hchecked => ?_
    exact h.even c (by rw [hpc]; rfl) hchecked
  unfold Hispi.down at hstep
  split at hstep
  · cases hstep
    exact h.fails harmed _
  · split at hstep
    next hfree =>
      cases hstep
      cases (s.calls c).kind with
      | init _ => exact htake _ rfl hfree
      | read _ => exact htake _ rfl hfree
      | write _ => exact htake _ rfl hfree
    next => cases hstep

theorem Inv.initCtrl (h : Inv s) (hpc : (s.calls c).pc = .initCtrl) : Inv (initCtrl s c) := by
  have hin := held_unarmed hpc ⟨rfl, rfl⟩
  unfold Hispi.initCtrl
  split
  · simp only
    split
    · exact h.inside rfl ⟨⟨rfl, rfl, rfl⟩, rfl⟩ rfl hin rfl ⟨rfl, rfl⟩
    · exact h.inside rfl ⟨⟨rfl, rfl, rfl⟩, rfl⟩ rfl hin rfl ⟨rfl, rfl⟩
  · exact h

theorem Inv.config (h : Inv s) (hpc : (s.calls c).pc = .config) : Inv (config s c) := by
  have hin := held_unarmed hpc ⟨rfl, rfl⟩
  unfold Hispi.config
  split
  · exact h.inside rfl ⟨⟨rfl, rfl, rfl⟩, rfl⟩ rfl hin rfl ⟨rfl, rfl⟩
  · exact h.inside rfl ⟨⟨rfl, rfl, rfl⟩, rfl⟩ rfl hin rfl ⟨rfl, rfl⟩

theorem Inv.written {dummy : Bool} (h : Inv s) (hpc : (s.calls c).pc = .writeIdle dummy) :
    Inv (written s c dummy) := by
  have hin := held_unarmed hpc ⟨rfl, rfl⟩
  unfold Hispi.written
  split
  · split
    · exact h.inside rfl ⟨⟨rfl, rfl, rfl⟩, rfl⟩ rfl hin rfl ⟨rfl, rfl⟩
    · exact h.inside rfl ⟨⟨rfl, rfl, rfl⟩, rfl⟩ rfl hin rfl ⟨rfl, rfl⟩
  · exact h.inside rfl ⟨⟨rfl, rfl, rfl⟩, rfl⟩ rfl hin rfl ⟨rfl, rfl⟩

theorem Pc.holds_of_waits {pc : Pc} (h : pc.waits = true) : pc.holds = true := by
  cases pc <;> first | rfl | cases h

theorem Inv.arm (h : Inv s) (hpc : (s.calls c).pc = .arm) :
    Inv { s.goto c .flag with
      rxTextPos := some (c, 0), rxTextLen := (s.calls c).kind.dataLen } where
  sem := h.sem_update (c := c) (.inside h rfl (by rw [hpc]; rfl)) rfl
  armed _ := by
    have hself : (Function.update s.calls c { s.calls c with pc := .flag } c) =
        { s.calls c with pc := .flag } := Function.update_self ..
    refine ⟨c, rfl, ?_, ?_, ?_⟩
    · simp only [State.goto, State.setCall, hself]
    · simp only [State.goto, State.setCall, hself]
      rfl
    · simp only [State.goto, State.setCall, hself]
      exact fun hw => by cases hw
  served d hd _ := by
    -- nobody waits while another call has the semaphore
    simp only [State.goto, State.setCall] at hd
    by_cases hdc : d = c
    · rw [hdc, Function.update_self] at hd
      cases hd
    · rw [Function.update_of_ne hdc] at hd
      exact absurd ((h.sem c (by rw [hpc]; rfl)).2 d (Pc.holds_of_waits hd)) hdc
  even d hd hchecked := by
    simp only [State.goto, State.setCall] at hd hchecked ⊢
    by_cases hdc : d = c
    · subst hdc
      rw [Function.update_self] at hchecked ⊢
      exact h.even d (by rw [hpc]; rfl) hchecked
    · rw [Function.update_of_ne hdc] at hd hchecked ⊢
      exact h.even d hd hchecked
  aligned := h.aligned

theorem Inv.ends {ret : ℤ} (h : Inv s) (hpc : (s.calls c).pc.waits = true)
    (hret : s.rWaitFlags = 0 ∨ ret = -etimedout ∨ ret = -eintr) :
    Inv (s.exit c .clear ret) := by
  have hold := Pc.holds_of_waits hpc
  refine h.late rfl ⟨rfl, rfl, rfl⟩ (.inside h rfl hold) hold ⟨rfl, rfl⟩ rfl ?_
    (h.served_update rfl fun hw => by cases hw)
  intro _ hlen _
  rcases hret with hflags | hret
  · exact absurd (h.served c hpc hflags) hlen
  · exact hret

theorem Inv.step {o : Outcome} (h : Inv s) (hstep : step s c o = some s') : Inv s' := by
  unfold Hispi.step at hstep
  cases hpc : (s.calls c).pc with
  | idle | done =>
    rw [hpc] at hstep
    cases hstep
  | param =>
    rw [hpc] at hstep
    cases hstep
    exact h.checkParam (by rw [hpc]; rfl)
  | checkCmd =>
    rw [hpc] at hstep
    cases hstep
    exact h.checkCmd (by rw [hpc]; rfl)
  | checkData =>
    rw [hpc] at hstep
    cases hstep
    exact h.checkData (by rw [hpc]; rfl)
  | down =>
    rw [hpc] at hstep
    exact h.down hpc hstep
  | initCtrl =>
    rw [hpc] at hstep
    cases hstep
    exact h.initCtrl hpc
  | initMask =>
    have hin := held_unarmed hpc ⟨rfl, rfl⟩
    rw [hpc] at hstep
    cases hstep
    cases o <;> exact h.inside rfl ⟨⟨rfl, rfl, rfl⟩, rfl⟩ rfl hin rfl ⟨rfl, rfl⟩
  | config =>
    rw [hpc] at hstep
    cases hstep
    exact h.config hpc
  | write dummy | writeEnable dummy =>
    have hin := held_unarmed hpc ⟨rfl, rfl⟩
    rw [hpc] at hstep
    cases hstep
    exact h.inside rfl ⟨⟨rfl, rfl, rfl⟩, rfl⟩ rfl hin rfl ⟨rfl, rfl⟩
  | writeWait dummy =>
    have hin := held_unarmed hpc ⟨rfl, rfl⟩
    simp only [hpc] at hstep
    split at hstep
    · cases hstep
      exact h.inside rfl ⟨⟨rfl, rfl, rfl⟩, rfl⟩ rfl hin rfl ⟨rfl, rfl⟩
    · split at hstep
      · cases hstep
        exact h.inside rfl ⟨⟨rfl, rfl, rfl⟩, rfl⟩ rfl hin rfl ⟨rfl, rfl⟩
      · cases hstep
        exact h.inside rfl ⟨⟨rfl, rfl, rfl⟩, rfl⟩ rfl hin rfl ⟨rfl, rfl⟩
      · cases hstep
  | writeLast dummy =>
    have hin := held_unarmed hpc ⟨rfl, rfl⟩
    simp only [hpc] at hstep
    split at hstep
    · cases hstep
      exact h.inside rfl ⟨⟨rfl, rfl, rfl⟩, rfl⟩ rfl hin rfl ⟨rfl, rfl⟩
    · cases hstep
      exact h.inside rfl ⟨⟨rfl, rfl, rfl⟩, rfl⟩ rfl hin rfl ⟨rfl, rfl⟩
  | writeIdle dummy =>
    have hin := held_unarmed hpc ⟨rfl, rfl⟩
    simp only [hpc] at hstep
    split at hstep
    · cases hstep
      exact h.inside rfl ⟨⟨rfl, rfl, rfl⟩, rfl⟩ rfl hin rfl ⟨rfl, rfl⟩
    · cases hstep
      exact h.written hpc
  | arm =>
    rw [hpc] at hstep
    cases hstep
    exact h.arm hpc
  | flag =>
    rw [hpc] at hstep
    cases hstep
    have hold : (s.calls c).pc.holds = true := by rw [hpc]; rfl
    exact h.late rfl ⟨rfl, rfl, rfl⟩ (.inside h rfl hold) hold ⟨rfl, rfl⟩ rfl
      (fun hw => by cases hw) (fun _ _ hzero => absurd hzero one_ne_zero)
  | readEnable =>
    have hwaits : (s.calls c).pc.waits = true := by rw [hpc]; rfl
    have hold := Pc.holds_of_waits hwaits
    rw [hpc] at hstep
    cases hstep
    exact h.late rfl ⟨rfl, rfl, rfl⟩ (.inside h rfl hold) hold ⟨rfl, rfl⟩ rfl
      (fun hw => by cases hw) (h.served_update rfl fun _ => hwaits)
  | readWait =>
    have hwaits : (s.calls c).pc.waits = true := by rw [hpc]; rfl
    have hold := Pc.holds_of_waits hwaits
    simp only [hpc] at hstep
    split at hstep
    next hflags =>
      cases hstep
      exact h.ends hwaits (Or.inl hflags)
    next =>
      split at hstep
      · cases hstep
        exact h.late rfl ⟨rfl, rfl, rfl⟩ (.inside h rfl hold) hold ⟨rfl, rfl⟩ rfl
          (fun hw => by cases hw) (h.served_update rfl fun _ => hwaits)
      · cases hstep
        exact h.ends hwaits (Or.inr (Or.inr rfl))
      · cases hstep
  | readLast =>
    have hwaits : (s.calls c).pc.waits = true := by rw [hpc]; rfl
    simp only [hpc] at hstep
    split at hstep
    next =>
      cases hstep
      exact h.ends hwaits (Or.inr (Or.inl rfl))
    next hflags =>
      cases hstep
      exact h.ends hwaits (Or.inl (not_not.mp hflags))
  | clear =>
    have hold : (s.calls c).pc.holds = true := by rw [hpc]; rfl
    rw [hpc] at hstep
    cases hstep
    exact h.late rfl ⟨rfl, rfl, rfl⟩ (.inside h rfl hold) hold ⟨rfl, rfl⟩ rfl
      (fun _ _ harmed => harmed.failed (by rw [hpc]; rfl))
      (h.served_update rfl fun hw => by cases hw)
  | up =>
    have hold : (s.calls c).pc.holds = true := by rw [hpc]; rfl
    rw [hpc] at hstep
    cases hstep
    exact h.late rfl ⟨rfl, rfl, rfl⟩ ⟨(fun hh => by cases hh), Or.inr (Or.inl hold)⟩ hold
      ⟨rfl, rfl⟩ rfl (fun _ _ harmed => harmed.failed (by rw [hpc]; rfl))
      (h.served_update rfl fun hw => by cases hw)

theorem Inv.hispiIrqHandler {raw : BitVec 32} (h : Inv s)
    (hstep : hispiIrqHandler s raw = some s') : Inv s' := by
  unfold Hispi.hispiIrqHandler at hstep
  simp only at hstep
  split at hstep
  · split at hstep
    · cases hstep
      exact ⟨h.sem, fun hlen => (h.armed hlen).imp fun _ hc => ⟨hc.pos, hc.len, hc.armed, hc.failed⟩,
        h.served, h.even, h.aligned⟩
    · split at hstep
      · cases hstep
        refine ⟨h.sem, fun hlen => (h.armed hlen).imp fun _ hc => ⟨hc.pos, hc.len, hc.armed, hc.failed⟩,
          h.served, h.even, ?_⟩
        rintro _ ⟨⟩ _
        rfl
      · cases hstep
        exact ⟨h.sem, fun hlen => (h.armed hlen).imp fun _ hc => ⟨hc.pos, hc.len, hc.armed, hc.failed⟩,
          h.served, h.even, h.aligned⟩
  · cases hstep

theorem Inv.rxStep {frame : BitVec 32} (h : Inv s) (hstep : rxStep s frame = some s') :
    Inv s' := by
  unfold Hispi.rxStep at hstep
  cases hrx : s.rx with
  | none =>
    simp only [hrx] at hstep
    cases hstep
  | some r =>
    simp only [hrx] at hstep
    split at hstep
    · cases hstep
      refine ⟨h.sem, fun hlen => (h.armed hlen).imp fun _ hc => ⟨hc.pos, hc.len, hc.armed, hc.failed⟩,
        h.served, h.even, ?_⟩
      rintro _ ⟨⟩ hframe
      simp only at hframe ⊢
      rw [if_pos hframe, Nat.add_mod_right]
      exact h.aligned r hrx hframe
    · cases hstep
      exact ⟨h.sem, fun hlen => absurd rfl hlen, fun _ _ _ => rfl, h.even,
        fun _ hnone => by cases hnone⟩

theorem Inv.next {a : Action} (h : Inv s) (hstep : next s a = some s') : Inv s' := by
  cases a with
  | call c kind =>
    simp only [Hispi.next] at hstep
    split at hstep
    next hpc =>
      cases hstep
      exact h.outside rfl ⟨⟨rfl, rfl, rfl⟩, rfl⟩ rfl (by rw [hpc]; rfl) ⟨rfl, rfl⟩
        fun hc => by cases hc
    next => cases hstep
  | step c o => exact h.step hstep
  | irq raw => exact h.hispiIrqHandler hstep
  | rx frame => exact h.rxStep hstep

theorem inv_of_reachable (hreach : controller.Reachable s) : Inv s := by
  apply hreach.invariant
  · rintro s ⟨-, -, -, -, hlen, hcalls, hrx⟩
    refine ⟨fun c hc => ?_, fun h => absurd hlen h, fun c hc => ?_, fun c hc => ?_, fun r hr => ?_⟩
    · rw [hcalls] at hc
      cases hc
    · rw [hcalls] at hc
      cases hc
    · rw [hcalls] at hc
      cases hc
    · rw [hrx] at hr
      cases hr
  · intro s a s' _ h hstep
    exact h.next hstep

theorem Inv.storeOk {r : Rx} {offset : ℕ} {frame : BitVec 32} (h : Inv s) (hrx : s.rx = some r)
    (hpos : s.rxTextPos = some (c, offset)) (hi : r.i < s.rxTextLen)
    (hgoes : ¬ (s.calls c).abandoned) (hframe : r.frameLen = (s.calls c).checked) :
    ∀ st ∈ s.rxStores frame, StoreOk s r st := by
  obtain ⟨d, hd⟩ := h.armed (Nat.ne_zero_of_lt hi)
  have hsame : d = c ∧ 0 = offset := by simpa [hd.pos] using hpos
  obtain ⟨rfl, rfl⟩ := hsame
  have hdone : (s.calls d).pc ≠ .done := fun hdone =>
    hgoes ⟨hdone, hd.failed (by rw [hdone]; rfl)⟩
  have hexecuting : (s.calls d).pc.executing = true := by
    have harmed := hd.armed
    cases hpc : (s.calls d).pc <;> first | rfl | exact absurd hpc hdone | (rw [hpc] at harmed; cases harmed)
  have hlen := hd.len
  intro st hst
  simp only [State.rxStores, hrx, hpos, if_pos hi] at hst
  split at hst
  next h16 =>
    -- an even place in a buffer of even length
    have hbuf := h.even d (Pc.checked_of_armed hd.armed hdone) (hframe.symm.trans h16)
    have hplace := h.aligned r hrx h16
    simp only [List.mem_cons, List.not_mem_nil, or_false] at hst
    rcases hst with rfl | rfl
    · exact ⟨hexecuting, by simp only; omega, hframe⟩
    · exact ⟨hexecuting, by simp only; omega, hframe⟩
  next =>
    obtain rfl := List.mem_singleton.mp hst
    exact ⟨hexecuting, by simp only; omega, hframe⟩

theorem Inv.stepOk_iff (h : Inv s) (a : Action) : StepOk s a ↔ Allowed s a := by
  cases a with
  | call c kind => exact Iff.rfl
  | step c o => exact Iff.rfl
  | irq raw => exact Iff.rfl
  | rx frame =>
    constructor
    · intro hok r c offset hrx hi hpos
      have hst := (hok r hrx).2 ⟨c, offset + r.i, frame.setWidth 8⟩ (by
        simp only [State.rxStores, hrx, hpos, if_pos hi]
        split <;> exact List.mem_cons_self)
      refine ⟨fun hgone => ?_, hst.frame⟩
      have hexecuting := hst.executing
      simp only [hgone.1] at hexecuting
      cases hexecuting
    · intro hallowed r hrx
      refine ⟨fun hi hnone => ?_, fun st hst => ?_⟩
      · obtain ⟨c, hc⟩ := h.armed (Nat.ne_zero_of_lt hi)
        rw [hc.pos] at hnone
        cases hnone
      · cases hpos : s.rxTextPos with
        | none => simp [State.rxStores, hrx, hpos] at hst
        | some p =>
          by_cases hi : r.i < s.rxTextLen
          · obtain ⟨hgoes, hframe⟩ := hallowed r p.1 p.2 hrx hi hpos
            exact h.storeOk hrx hpos hi hgoes hframe st hst
          · simp [State.rxStores, hrx, hpos, hi] at hst

end Steps

/-- On both controllers, and in every run, a step of the handler stores as it should exactly
when it is allowed. -/
theorem stepOk_iff_allowed {s : Fin hisiSpiMaxCtl → State} (hreach : system.Reachable s) :
    ∀ k a, StepOk (s k) a ↔ Allowed (s k) a :=
  fun k a => (inv_of_reachable (TransitionSystem.Reachable.of_family hreach k)).stepOk_iff a

def probed : State where
  ctrlr0 := 7
  imr := 0
  gTransmode := 1
  spiBusSem := true
  wWaitFlags := 0
  rWaitFlags := 0
  rxTextPos := none
  rxTextLen := 0
  calls := fun _ => ⟨.init ⟨0, 0, 0, 0, 0, 0⟩, .idle, 0, 0⟩
  rx := none
  mem := fun _ _ => 0

theorem probed_reachable : controller.Reachable probed :=
  .init ⟨rfl, rfl, rfl, rfl, rfl, fun _ => rfl, rfl⟩

def readSteps (c : ℕ) : List Action :=
  [.step c .go, .step c .go, .step c .go, .step c .go, .irq 0x1, .step c .go, .step c .go,
    .step c .go, .step c .go, .step c .go]

def readChecks : List Action :=
  [.call 0 (.read ⟨0, false, 1, false, 3⟩), .step 0 .go, .step 0 .go, .step 0 .go]

def storing : List Action := readChecks ++ readSteps 0 ++ [Action.irq 0x10, .rx 0x41]

def timingOut : List Action :=
  readChecks ++ readSteps 0 ++
    [Action.step 0 .timeout, .step 0 .go, .step 0 .go, .step 0 .go, .irq 0x10]

def reconfiguring : List Action :=
  readChecks ++
    [Action.call 1 (.init ⟨0, 0, 1000000, 15, 0, 0⟩), .step 1 .go, .step 1 .go, .step 1 .go,
      .step 1 .go, .step 1 .go] ++
    readSteps 0 ++ [Action.irq 0x10, .rx 0x4241]

theorem stepOk_iff_allowed_read :
    ∃ s : Fin hisiSpiMaxCtl → State, system.Reachable s ∧ (s 0).mem 0 0 = 0x41 ∧
      StepOk (s 0) (.rx 0x42) := by
  have hrun : controller.Reachable _ :=
    TransitionSystem.Reachable.runSteps (l := storing) probed_reachable rfl
  obtain ⟨s, hs, hs0⟩ := hrun.exists_family (0 : Fin hisiSpiMaxCtl)
  refine ⟨s, hs, by rw [hs0]; rfl, (stepOk_iff_allowed hs 0 _).mpr ?_⟩
  rw [hs0]
  rintro r c offset ⟨⟩ - ⟨⟩
  exact ⟨(fun h => by cases h.1), rfl⟩

/-- The buffer of a read that has returned; and a place after the end of a buffer. -/
theorem buffer_breaks :
    (∃ s, TransitionSystem.runSteps next probed timingOut = some s ∧ controller.Reachable s ∧
      (s.calls 0).pc = .done ∧ ¬ StepOk s (.rx 0x41)) ∧
    (∃ s, TransitionSystem.runSteps next probed reconfiguring = some s ∧
      controller.Reachable s ∧ (s.calls 0).kind.dataLen = 3 ∧
      (s.rxStores 0x4443).map Store.offset = [2, 3] ∧ ¬ StepOk s (.rx 0x4443)) := by
  refine ⟨⟨_, rfl, ?_, rfl, fun h => ?_⟩, ⟨_, rfl, ?_, rfl, rfl, fun h => ?_⟩⟩
  · exact TransitionSystem.Reachable.runSteps (l := timingOut) probed_reachable rfl
  · have hst := ((h _ rfl).2 _ List.mem_cons_self).executing
    cases hst
  · exact TransitionSystem.Reachable.runSteps (l := reconfiguring) probed_reachable rfl
  · have hst := ((h _ rfl).2 _ List.mem_cons_self).frame
    exact absurd hst (by decide)

end HiMpu.Hispi
