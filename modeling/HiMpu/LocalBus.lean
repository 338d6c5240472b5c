import HiMpu.BmTypes
import HiMpu.TransitionSystem

/-!
# The local bus

`drivers/local_bus/local_bus_ker.c`.  The data width of a chip select stands in its control
register and, since the probe, in `width` of the driver.  The control and timing registers
are counted from CS0; requests and the cache are counted from CS1, except for the request
that sets the width.
-/

namespace HiMpu.LocalBus

def csNum : ℕ := 3
def csWidth8 : ℕ := 0
def csWidth16 : ℕ := 1
def csWidth32 : ℕ := 2
def cfAddrOffset0 : ℕ := 0
def cfAddrOffset1 : ℕ := 1
def csMapLen : ℕ := 0x2000000
def csMaxDataLen : ℕ := 0x1000
def opTypeBits : ℕ := 1
def lBusLale : ℕ := 0
def lBusAddr2dataNum : ℕ := 1
def aleBit : ℕ := 25
def addr2dataBit : ℕ := 29

def einval : ℤ := 22
def eintr : ℤ := 4
def enomem : ℤ := 12
def efault : ℤ := 14
def eagain : ℤ := 11

def lbCsBaseAddr (cs : ℕ) : ℕ := cs * 4
def lbCsCtrl (cs : ℕ) : ℕ := 0x20 + cs * 4
def lbCsTSet0 (cs : ℕ) : ℕ := 0x40 + cs * 12
def lbCsTSet1 (cs : ℕ) : ℕ := 0x44 + cs * 12
def lbCsTSet2 (cs : ℕ) : ℕ := 0x48 + cs * 12
def lbCfgTUpdateEn : ℕ := 0x154

structure State where
  regs : ℕ → BitVec 32
  width : ℕ → ℕ

def State.write (s : State) (offset : ℕ) (value : BitVec 32) : State :=
  { s with regs := Function.update s.regs offset value }

def dataWid (ctrl : BitVec 32) : ℕ := ((ctrl >>> 5) &&& 3#32).toNat

def localbusSetCsWidthOffset (s : State) (cs width addrOffset : ℕ) : State × ℤ :=
  if cs > csNum then (s, -einval)
  else if width > csWidth32 then (s, -einval)
  else if addrOffset ≠ cfAddrOffset0 ∧ addrOffset ≠ cfAddrOffset1 then (s, -einval)
  else
    let ctrl := regReadWrite (s.regs (lbCsCtrl cs)) 0x60#32 (BitVec.ofNat 32 width <<< 5)
    (s.write (lbCsCtrl cs) (regReadWrite ctrl 0x800#32 (BitVec.ofNat 32 addrOffset <<< 11)), 0)

structure RegWr where
  offset : ℕ
  mask : BitVec 32
  value : BitVec 32

def localbusAnalysisTimingPara (cs type value : ℕ) : Option RegWr :=
  if cs ≥ csNum then none
  else if type = lBusLale then
    if value > 0x1f then none
    else some ⟨lbCsTSet1 0 + cs * 12, 0x1f#32 <<< aleBit, BitVec.ofNat 32 value <<< aleBit⟩
  else if type = lBusAddr2dataNum then
    if value > 0x7 then none
    else some ⟨lbCsTSet2 0 + cs * 12, 0x7#32 <<< addr2dataBit,
      BitVec.ofNat 32 value <<< addr2dataBit⟩
  else none

def localbusSetTiming (s : State) (wr : RegWr) (debug2 : BitVec 32) : State × ℤ :=
  if wr.offset > lbCsTSet2 3 ∨ wr.offset < lbCsTSet0 0 then (s, -einval)
  else
    let s := s.write lbCfgTUpdateEn 0
    let s := s.write wr.offset (regReadWrite (s.regs wr.offset) wr.mask wr.value)
    if debug2 = 0 then (s.write lbCfgTUpdateEn 1, 0) else (s, -eagain)

def localbusCmdSetTiming (s : State) (cs type value : ℕ) (debug2 : BitVec 32) : State × ℤ :=
  match localbusAnalysisTimingPara cs type value with
  | none => (s, -einval)
  | some wr => localbusSetTiming s wr debug2

def accessBytes (width : ℕ) : ℕ :=
  if width = csWidth8 then 1 else if width = csWidth16 then 2 else 4

theorem accessBytes_pos (width : ℕ) : 0 < accessBytes width := by
  unfold accessBytes
  split
  · omega
  · split <;> omega

structure Access where
  cs : ℕ
  addr : ℕ
  bytes : ℕ
  value : Option ℕ

structure Opt where
  cs : ℕ
  type : ℕ
  offset : ℕ
  len : ℕ
  mask : ℕ
  data : ℕ → ℕ

def localbusTypeMaskCheck (width : ℕ) (opt : Opt) : Bool :=
  opt.type ≠ opTypeBits ||
    (opt.mask % 2 ^ (8 * accessBytes width) ≠ 0 && opt.len = accessBytes width)

def localbusAddrLenAlignmentCheck (width : ℕ) (opt : Opt) : Bool :=
  if width = csWidth16 ∨ width = csWidth32 then
    opt.len % (width * 2) = 0 && opt.offset % (width * 2) = 0
  else true

def localbusParaCheck (width : ℕ → ℕ) (opt : Opt) : Bool :=
  opt.cs < csNum && opt.type ≤ opTypeBits &&
    (opt.len ≠ 0 && opt.len ≤ csMaxDataLen && opt.offset ≤ csMapLen) &&
    opt.len + opt.offset ≤ csMapLen &&
    localbusAddrLenAlignmentCheck (width opt.cs) opt &&
    localbusTypeMaskCheck (width opt.cs) opt

def localbusGetOffsetBit (mask : ℕ) : ℕ :=
  ((List.range 32).find? fun i => mask.testBit i).getD 0

def localbusReadWrite (width count : ℕ) (access : ℕ → Access) (i : ℕ) : List Access :=
  if i < count then
    access i :: localbusReadWrite width count access (i + accessBytes width)
  else []
termination_by count - i
decreasing_by
  have hpos := accessBytes_pos width
  omega

def bufUnit (data : ℕ → ℕ) (bytes i : ℕ) : ℕ :=
  ((List.range bytes).map fun j => data (i + j) * 256 ^ j).sum

/-- What else decides a call: a signal at the semaphore, the allocation, the copy, and what
the device answers at an address. -/
structure Env where
  interrupted : Bool
  nomem : Bool
  fault : Bool
  answer : ℕ → ℕ

structure Outcome where
  accesses : List Access
  data : List ℕ
  ret : ℤ

def localbusGetData (width : ℕ → ℕ) (opt : Opt) (env : Env) : Outcome :=
  if !localbusParaCheck width opt then ⟨[], [], -einval⟩
  else if env.interrupted then ⟨[], [], -eintr⟩
  else if env.nomem then ⟨[], [], -enomem⟩
  else
    let bytes := accessBytes (width opt.cs)
    let accesses := localbusReadWrite (width opt.cs) opt.len
      (fun i => ⟨opt.cs, opt.offset + i, bytes, none⟩) 0
    let data := accesses.map fun a => env.answer a.addr % 2 ^ (8 * bytes)
    let data :=
      if opt.type = opTypeBits then
        data.modifyHead fun v =>
          (v &&& opt.mask % 2 ^ (8 * bytes)) >>> localbusGetOffsetBit opt.mask
      else data
    ⟨accesses, data, if env.fault then -efault else 0⟩

def localbusPrepareData (bytes mask old new : ℕ) : ℕ :=
  let mask' := mask % 2 ^ (8 * bytes)
  ((new <<< localbusGetOffsetBit mask) &&& mask') ||| (old &&& (2 ^ (8 * bytes) - 1 - mask'))

def localbusWriteData (width : ℕ → ℕ) (opt : Opt) (env : Env) : Outcome :=
  if !localbusParaCheck width opt then ⟨[], [], -einval⟩
  else if env.interrupted then ⟨[], [], -eintr⟩
  else if env.nomem then ⟨[], [], -enomem⟩
  else if env.fault then ⟨[], [], -efault⟩
  else
    let bytes := accessBytes (width opt.cs)
    let old := env.answer opt.offset % 2 ^ (8 * bytes)
    let value := fun i =>
      if opt.type = opTypeBits ∧ i = 0 then
        localbusPrepareData bytes opt.mask old (bufUnit opt.data bytes 0)
      else bufUnit opt.data bytes i
    let before := if opt.type = opTypeBits then [⟨opt.cs, opt.offset, bytes, none⟩] else []
    ⟨before ++ localbusReadWrite (width opt.cs) opt.len
      (fun i => ⟨opt.cs, opt.offset + i, bytes, some (value i)⟩) 0, [], 0⟩

def localbusBoardAdapter (s : State) (pangeaV6 : Bool) (debug2 : BitVec 32) : State :=
  if pangeaV6 then
    let s := s.write lbCfgTUpdateEn 0
    let s := s.write (lbCsTSet1 1)
      (regReadWrite (s.regs (lbCsTSet1 1)) (0x1f#32 <<< 25) (0x14#32 <<< 25))
    if debug2 = 0 then s.write lbCfgTUpdateEn 1 else s
  else s

def localbusMgrWidthBaseSet (s : State) : State :=
  { s with
    width := fun c => if c < csNum then dataWid (s.regs (lbCsCtrl (c + 1))) else s.width c }

def localbusProbe (regs : ℕ → BitVec 32) (pangeaV6 : Bool) (debug2 : BitVec 32) : State :=
  let s := (localbusSetCsWidthOffset ⟨regs, fun _ => 0⟩ 1 csWidth8 cfAddrOffset0).1
  localbusMgrWidthBaseSet (localbusBoardAdapter s pangeaV6 debug2)

/-- The ioctls and the exported function; the last has the same effect as its ioctl. -/
inductive Action
  | setWidthOffset (cs width addrOffset : ℕ)
  | setTiming (cs type value : ℕ) (debug2 : BitVec 32)
  | read (opt : Opt) (env : Env)
  | write (opt : Opt) (env : Env)

def next (s : State) : Action → State
  | .setWidthOffset cs width addrOffset => (localbusSetCsWidthOffset s cs width addrOffset).1
  | .setTiming cs type value debug2 => (localbusCmdSetTiming s cs type value debug2).1
  | .read _ _ | .write _ _ => s

def system : TransitionSystem State Action where
  init s := ∃ regs pangeaV6 debug2, s = localbusProbe regs pangeaV6 debug2
  step s a s' := s' = next s a

def State.programmed (s : State) (c : ℕ) : ℕ := dataWid (s.regs (lbCsCtrl (c + 1)))

def Synced (s : State) : Prop :=
  ∀ c < csNum, s.width c = s.programmed c

def csRegisters (k : ℕ) : List ℕ :=
  [lbCsBaseAddr k, lbCsCtrl k, lbCsTSet0 k, lbCsTSet1 k, lbCsTSet2 k]

def OnlyCs (k : ℕ) (s s' : State) : Prop :=
  ∀ j ≤ 3, j ≠ k → ∀ offset ∈ csRegisters j, s'.regs offset = s.regs offset

def TimingKept (s s' : State) : Prop :=
  ∀ j ≤ 3, ∀ offset ∈ [lbCsTSet0 j, lbCsTSet1 j, lbCsTSet2 j], s'.regs offset = s.regs offset

/-- The request is served as the programmed width wants it, and every access has that width
and is aligned to it. -/
structure WidthOk (s : State) (opt : Opt) (out programmed : Outcome) : Prop where
  served : out = programmed
  bytes : ∀ a ∈ out.accesses, a.cs = opt.cs ∧ a.bytes = accessBytes (s.programmed opt.cs)
  aligned : s.programmed opt.cs ≤ csWidth32 →
    ∀ a ∈ out.accesses, a.addr % accessBytes (s.programmed opt.cs) = 0

def StepOk (s : State) : Action → Prop
  | .setWidthOffset cs width addrOffset =>
    OnlyCs cs s (next s (.setWidthOffset cs width addrOffset))
  | .setTiming cs type value debug2 =>
    let s' := next s (.setTiming cs type value debug2)
    OnlyCs (cs + 1) s s' ∧ (s'.regs lbCfgTUpdateEn = 1 ∨ TimingKept s s')
  | .read opt env =>
    WidthOk s opt (localbusGetData s.width opt env) (localbusGetData s.programmed opt env)
  | .write opt env =>
    WidthOk s opt (localbusWriteData s.width opt env) (localbusWriteData s.programmed opt env)

def State.timing (s : State) (type k : ℕ) : BitVec 32 :=
  if type = lBusLale then s.regs (lbCsTSet1 k) >>> aleBit &&& 0x1f#32
  else s.regs (lbCsTSet2 k) >>> addr2dataBit &&& 0x7#32

/-- A width request leaves the cached width as it is, or is for CS0; and a timing request
finds its value in the chip select before the one that it names. -/
def Allowed (s : State) : Action → Prop
  | .setWidthOffset cs width addrOffset =>
    0 < cs → cs ≤ csNum → width ≤ csWidth32 →
      addrOffset = cfAddrOffset0 ∨ addrOffset = cfAddrOffset1 → width = s.width (cs - 1)
  | .setTiming cs type value _ =>
    cs < csNum →
      type = lBusLale ∧ value ≤ 0x1f ∨ type = lBusAddr2dataNum ∧ value ≤ 0x7 →
        s.timing type cs = BitVec.ofNat 32 value
  | .read _ _ | .write _ _ => True

theorem regReadWrite_eq_iff {v m x : BitVec 32} {k : ℕ} (hm : ∀ i, m.getLsbD i = true → k + i < 32)
    (hx : x &&& m = x) : regReadWrite v (m <<< k) (x <<< k) = v ↔ v >>> k &&& m = x := by
  constructor
  · intro h
    rw [← hx]
    apply BitVec.eq_of_getLsbD_eq
    intro i hi
    simp only [BitVec.getLsbD_and, BitVec.getLsbD_ushiftRight]
    cases hmi : m.getLsbD i with
    | false => simp
    | true =>
      have hbit := congrArg (fun w => w.getLsbD (k + i)) h
      simp only [getLsbD_regReadWrite, BitVec.getLsbD_shiftLeft] at hbit
      have hk := hm i hmi
      simp [hk, hmi] at hbit
      simp [hbit, BitVec.getLsbD_eq_getElem hk]
  · rintro rfl
    apply BitVec.eq_of_getLsbD_eq
    intro i hi
    rw [getLsbD_regReadWrite]
    simp only [BitVec.getLsbD_shiftLeft, BitVec.getLsbD_and, BitVec.getLsbD_ushiftRight]
    split
    next h =>
      simp only [Bool.and_eq_true, Bool.not_eq_true', decide_eq_false_iff_not,
        decide_eq_true_eq] at h
      obtain ⟨⟨hi', hk⟩, hmi⟩ := h
      simp [hi', hk, hmi, Nat.add_sub_cancel' (not_lt.mp hk)]
    next => rfl

theorem regReadWrite_field_eq_iff {v : BitVec 32} {n k value : ℕ} (hk : k + n ≤ 32)
    (hvalue : value < 2 ^ n) :
    regReadWrite v (BitVec.ofNat 32 (2 ^ n - 1) <<< k) (BitVec.ofNat 32 value <<< k) = v ↔
      v >>> k &&& BitVec.ofNat 32 (2 ^ n - 1) = BitVec.ofNat 32 value := by
  apply regReadWrite_eq_iff
  · intro i hi
    simp only [BitVec.getLsbD_ofNat, Nat.testBit_two_pow_sub_one, Bool.and_eq_true,
      decide_eq_true_eq] at hi
    omega
  · apply BitVec.eq_of_getLsbD_eq
    intro i hi32
    simp only [BitVec.getLsbD_and, BitVec.getLsbD_ofNat, Nat.testBit_two_pow_sub_one]
    by_cases hi : i < n
    · simp [hi, hi32]
    · have hlt : value < 2 ^ i := hvalue.trans_le (Nat.pow_le_pow_right two_pos (not_lt.mp hi))
      simp [Nat.testBit_lt_two_pow hlt]

theorem dataWid_regReadWrite {v : BitVec 32} {width : ℕ} (x : BitVec 32) (hw : width ≤ csWidth32) :
    dataWid (regReadWrite (regReadWrite v 0x60#32 (BitVec.ofNat 32 width <<< 5)) 0x800#32 x) =
      width := by
  have hfield : (regReadWrite (regReadWrite v 0x60#32 (BitVec.ofNat 32 width <<< 5)) 0x800#32 x) >>>
      5 &&& 3#32 = BitVec.ofNat 32 width := by
    apply BitVec.eq_of_getLsbD_eq
    intro i hi
    simp only [BitVec.getLsbD_and, BitVec.getLsbD_ushiftRight, getLsbD_regReadWrite]
    unfold csWidth32 at hw
    interval_cases width <;> interval_cases i <;> simp
  unfold dataWid
  rw [hfield, BitVec.toNat_ofNat]
  unfold csWidth32 at hw
  omega

section Accesses

variable {s : State} {width width' : ℕ → ℕ} {opt : Opt} {env : Env}

theorem localbusParaCheck_congr (h : opt.cs < csNum → width opt.cs = width' opt.cs) :
    localbusParaCheck width opt = localbusParaCheck width' opt := by
  unfold localbusParaCheck
  by_cases hcs : opt.cs < csNum
  · rw [h hcs]
  · simp [hcs]

theorem localbusParaCheck_cs (h : localbusParaCheck width opt = true) : opt.cs < csNum := by
  simp only [localbusParaCheck, Bool.and_eq_true, decide_eq_true_eq] at h
  exact h.1.1.1.1.1

theorem localbusParaCheck_aligned (h : localbusParaCheck width opt = true)
    (hwidth : width opt.cs ≤ csWidth32) : opt.offset % accessBytes (width opt.cs) = 0 := by
  simp only [localbusParaCheck, Bool.and_eq_true, decide_eq_true_eq] at h
  have halign := h.1.2
  generalize width opt.cs = w at hwidth halign ⊢
  unfold csWidth32 at hwidth
  interval_cases w
  · exact Nat.mod_one _
  · simp [localbusAddrLenAlignmentCheck, csWidth16] at halign
    simpa [accessBytes, csWidth8, csWidth16] using halign.2
  · simp [localbusAddrLenAlignmentCheck, csWidth32] at halign
    simpa [accessBytes, csWidth8, csWidth16] using halign.2

theorem mem_localbusReadWrite {w count i : ℕ} {access : ℕ → Access} {a : Access}
    (h : a ∈ localbusReadWrite w count access i) :
    ∃ k, a = access (i + k * accessBytes w) := by
  induction i using localbusReadWrite.induct w count with
  | case1 i hi ih =>
    rw [localbusReadWrite, if_pos hi] at h
    rcases List.mem_cons.mp h with rfl | h
    · exact ⟨0, by rw [Nat.zero_mul, Nat.add_zero]⟩
    · obtain ⟨k, rfl⟩ := ih h
      exact ⟨k + 1, by rw [Nat.succ_mul, Nat.add_right_comm, Nat.add_assoc]⟩
  | case2 i hi =>
    rw [localbusReadWrite, if_neg hi] at h
    cases h

theorem access_ok {a : Access} {value : ℕ → Option ℕ} (hcheck : localbusParaCheck width opt = true)
    (ha : a ∈ localbusReadWrite (width opt.cs) opt.len
      (fun i => ⟨opt.cs, opt.offset + i, accessBytes (width opt.cs), value i⟩) 0) :
    (a.cs = opt.cs ∧ a.bytes = accessBytes (width opt.cs)) ∧
      (width opt.cs ≤ csWidth32 → a.addr % accessBytes (width opt.cs) = 0) := by
  obtain ⟨k, rfl⟩ := mem_localbusReadWrite ha
  refine ⟨⟨rfl, rfl⟩, fun hwidth => ?_⟩
  rw [Nat.zero_add, Nat.add_mul_mod_self_right]
  exact localbusParaCheck_aligned hcheck hwidth

theorem localbusGetData_widthOk (hsync : Synced s) :
    WidthOk s opt (localbusGetData s.width opt env) (localbusGetData s.programmed opt env) := by
  have hsame : localbusGetData s.width opt env = localbusGetData s.programmed opt env := by
    unfold localbusGetData
    rw [localbusParaCheck_congr (hsync opt.cs)]
    cases hcheck : localbusParaCheck s.programmed opt with
    | false => rfl
    | true => rw [hsync opt.cs (localbusParaCheck_cs hcheck)]
  have hall : ∀ a ∈ (localbusGetData s.programmed opt env).accesses,
      (a.cs = opt.cs ∧ a.bytes = accessBytes (s.programmed opt.cs)) ∧
        (s.programmed opt.cs ≤ csWidth32 → a.addr % accessBytes (s.programmed opt.cs) = 0) := by
    intro a ha
    unfold localbusGetData at ha
    split at ha
    · cases ha
    next hcheck =>
      split at ha
      · cases ha
      · split at ha
        · cases ha
        · exact access_ok (by simpa using hcheck) ha
  rw [← hsame] at hall
  exact ⟨hsame, fun a ha => (hall a ha).1, fun hwidth a ha => (hall a ha).2 hwidth⟩

theorem localbusWriteData_widthOk (hsync : Synced s) :
    WidthOk s opt (localbusWriteData s.width opt env) (localbusWriteData s.programmed opt env) := by
  have hsame : localbusWriteData s.width opt env = localbusWriteData s.programmed opt env := by
    unfold localbusWriteData
    rw [localbusParaCheck_congr (hsync opt.cs)]
    cases hcheck : localbusParaCheck s.programmed opt with
    | false => rfl
    | true => rw [hsync opt.cs (localbusParaCheck_cs hcheck)]
  have hall : ∀ a ∈ (localbusWriteData s.programmed opt env).accesses,
      (a.cs = opt.cs ∧ a.bytes = accessBytes (s.programmed opt.cs)) ∧
        (s.programmed opt.cs ≤ csWidth32 → a.addr % accessBytes (s.programmed opt.cs) = 0) := by
    intro a ha
    unfold localbusWriteData at ha
    split at ha
    · cases ha
    next hcheck =>
      have hcheck : localbusParaCheck s.programmed opt = true := by simpa using hcheck
      split at ha
      · cases ha
      · split at ha
        · cases ha
        · split at ha
          · cases ha
          · rcases List.mem_append.mp ha with ha | ha
            · -- the read before a write of some bits
              split at ha
              · obtain rfl := List.mem_singleton.mp ha
                exact ⟨⟨rfl, rfl⟩, localbusParaCheck_aligned hcheck⟩
              · cases ha
            · exact access_ok hcheck ha
  rw [← hsame] at hall
  exact ⟨hsame, fun a ha => (hall a ha).1, fun hwidth a ha => (hall a ha).2 hwidth⟩

end Accesses

section Requests

variable {s : State}

theorem not_csRegister_updateEn {j offset : ℕ} (hj : j ≤ 3) (h : offset ∈ csRegisters j) :
    offset ≠ lbCfgTUpdateEn := by
  simp only [csRegisters, List.mem_cons, List.not_mem_nil, or_false, lbCsBaseAddr, lbCsCtrl,
    lbCsTSet0, lbCsTSet1, lbCsTSet2] at h
  unfold lbCfgTUpdateEn
  omega

def WidthRequest (cs width addrOffset : ℕ) : Prop :=
  cs ≤ csNum ∧ width ≤ csWidth32 ∧ (addrOffset = cfAddrOffset0 ∨ addrOffset = cfAddrOffset1)

def TimingRequest (cs type value : ℕ) : Prop :=
  cs < csNum ∧ (type = lBusLale ∧ value ≤ 0x1f ∨ type = lBusAddr2dataNum ∧ value ≤ 0x7)

theorem localbusSetCsWidthOffset_cases (s : State) (cs width addrOffset : ℕ) :
    (localbusSetCsWidthOffset s cs width addrOffset).1 = s ∧ ¬ WidthRequest cs width addrOffset ∨
      WidthRequest cs width addrOffset ∧ ∃ x,
        (localbusSetCsWidthOffset s cs width addrOffset).1 =
          s.write (lbCsCtrl cs) (regReadWrite (regReadWrite (s.regs (lbCsCtrl cs)) 0x60#32
            (BitVec.ofNat 32 width <<< 5)) 0x800#32 x) := by
  unfold localbusSetCsWidthOffset
  split
  next hcs => exact Or.inl ⟨rfl, fun h => absurd h.1 (not_le.mpr hcs)⟩
  next hcs =>
    split
    next hw => exact Or.inl ⟨rfl, fun h => absurd h.2.1 (not_le.mpr hw)⟩
    next hw =>
      split
      next ho => exact Or.inl ⟨rfl, fun h => h.2.2.elim ho.1 ho.2⟩
      next ho => exact Or.inr ⟨⟨not_lt.mp hcs, not_lt.mp hw, by tauto⟩, _, rfl⟩

theorem setWidthOffset_stepOk (cs width addrOffset : ℕ) :
    StepOk s (.setWidthOffset cs width addrOffset) := by
  intro j hj hne offset hmem
  simp only [next]
  obtain ⟨hs, -⟩ | ⟨hreq, x, hs⟩ := localbusSetCsWidthOffset_cases s cs width addrOffset
  · rw [hs]
  · rw [hs]
    refine Function.update_of_ne ?_ _ _
    have hcs := hreq.1
    simp only [csRegisters, List.mem_cons, List.not_mem_nil, or_false, lbCsBaseAddr, lbCsCtrl,
      lbCsTSet0, lbCsTSet1, lbCsTSet2, csNum] at hmem hcs ⊢
    omega

theorem setWidthOffset_synced (hsync : Synced s) (cs width addrOffset : ℕ) :
    Synced (next s (.setWidthOffset cs width addrOffset)) ↔
      Allowed s (.setWidthOffset cs width addrOffset) := by
  simp only [next]
  obtain ⟨hs, hreq⟩ | ⟨hreq, x, hs⟩ := localbusSetCsWidthOffset_cases s cs width addrOffset
  · rw [hs]
    exact iff_of_true hsync fun _ hcs hw ho => absurd ⟨hcs, hw, ho⟩ hreq
  · rw [hs]
    obtain ⟨hcs, hw, ho⟩ := hreq
    constructor
    · intro h hpos _ _ _
      have hc := h (cs - 1) (by omega)
      simp only [State.programmed, State.write, Nat.sub_add_cancel hpos,
        Function.update_self, dataWid_regReadWrite _ hw] at hc
      exact hc.symm
    · intro h c hc
      simp only [State.programmed, State.write]
      by_cases hnamed : c + 1 = cs
      · have hkeep := h (by omega) hcs hw ho
        rw [← hnamed, Nat.add_sub_cancel] at hkeep
        rw [hnamed, Function.update_self, dataWid_regReadWrite _ hw]
        exact hkeep.symm
      · rw [Function.update_of_ne (by simp only [lbCsCtrl]; omega)]
        exact hsync c hc

theorem localbusAnalysisTimingPara_cases (cs type value : ℕ) :
    localbusAnalysisTimingPara cs type value = none ∧ ¬ TimingRequest cs type value ∨
      TimingRequest cs type value ∧ ∃ wr, localbusAnalysisTimingPara cs type value = some wr ∧
        wr.offset ∈ [lbCsTSet0 cs, lbCsTSet1 cs, lbCsTSet2 cs] ∧
        ∀ s : State, regReadWrite (s.regs wr.offset) wr.mask wr.value = s.regs wr.offset ↔
          s.timing type cs = BitVec.ofNat 32 value := by
  unfold localbusAnalysisTimingPara
  split
  next hcs => exact Or.inl ⟨rfl, fun h => absurd h.1 (not_lt.mpr hcs)⟩
  next hcs =>
    have hcs := not_le.mp hcs
    split
    next htype =>
      subst htype
      split
      next hv =>
        refine Or.inl ⟨rfl, fun h => ?_⟩
        rcases h.2 with ⟨-, h⟩ | ⟨h, -⟩
        · omega
        · cases h
      next hv =>
        refine Or.inr ⟨⟨hcs, Or.inl ⟨rfl, not_lt.mp hv⟩⟩, _, rfl, ?_, fun s => ?_⟩
        · simp [lbCsTSet1]
        · have hoff : lbCsTSet1 0 + cs * 12 = lbCsTSet1 cs := by simp [lbCsTSet1]
          simp only [hoff, State.timing, if_pos]
          exact regReadWrite_field_eq_iff (n := 5) (by decide) (by omega)
    next hlale =>
      split
      next htype =>
        subst htype
        split
        next hv =>
          refine Or.inl ⟨rfl, fun h => ?_⟩
          rcases h.2 with ⟨h, -⟩ | ⟨-, h⟩
          · cases h
          · omega
        next hv =>
          refine Or.inr ⟨⟨hcs, Or.inr ⟨rfl, not_lt.mp hv⟩⟩, _, rfl, ?_, fun s => ?_⟩
          · simp [lbCsTSet2]
          · have hoff : lbCsTSet2 0 + cs * 12 = lbCsTSet2 cs := by simp [lbCsTSet2]
            simp only [hoff, State.timing, if_neg hlale]
            exact regReadWrite_field_eq_iff (n := 3) (by decide) (by omega)
      next htype =>
        refine Or.inl ⟨rfl, fun h => ?_⟩
        exact h.2.elim (fun h => hlale h.1) fun h => htype h.1

theorem localbusSetTiming_cases (s : State) {wr : RegWr} {cs : ℕ} (debug2 : BitVec 32)
    (hcs : cs < csNum) (hmem : wr.offset ∈ [lbCsTSet0 cs, lbCsTSet1 cs, lbCsTSet2 cs]) :
    (localbusSetTiming s wr debug2).1.width = s.width ∧
      (localbusSetTiming s wr debug2).1.regs wr.offset =
        regReadWrite (s.regs wr.offset) wr.mask wr.value ∧
      ∀ offset, offset ≠ wr.offset → offset ≠ lbCfgTUpdateEn →
        (localbusSetTiming s wr debug2).1.regs offset = s.regs offset := by
  have hoff : wr.offset = lbCsTSet0 cs ∨ wr.offset = lbCsTSet1 cs ∨ wr.offset = lbCsTSet2 cs := by
    simpa using hmem
  have hrange : ¬ (wr.offset > lbCsTSet2 3 ∨ wr.offset < lbCsTSet0 0) := by
    simp only [lbCsTSet0, lbCsTSet1, lbCsTSet2, csNum] at hoff hcs ⊢
    omega
  have hne : wr.offset ≠ lbCfgTUpdateEn := by
    simp only [lbCsTSet0, lbCsTSet1, lbCsTSet2, csNum, lbCfgTUpdateEn] at hoff hcs ⊢
    omega
  unfold localbusSetTiming
  rw [if_neg hrange]
  by_cases hdebug : debug2 = 0
  · rw [if_pos hdebug]
    refine ⟨rfl, by simp [State.write, hne], fun offset h hup => ?_⟩
    simp [State.write, h, hup]
  · rw [if_neg hdebug]
    refine ⟨rfl, by simp [State.write, hne], fun offset h hup => ?_⟩
    simp [State.write, h, hup]

theorem setTiming_synced (hsync : Synced s) (cs type value : ℕ) (debug2 : BitVec 32) :
    Synced (next s (.setTiming cs type value debug2)) := by
  simp only [next, localbusCmdSetTiming]
  obtain ⟨hnone, -⟩ | ⟨hreq, wr, hsome, hmem, -⟩ := localbusAnalysisTimingPara_cases cs type value
  · rwa [hnone]
  · rw [hsome]
    obtain ⟨hwidth, -, hother⟩ := localbusSetTiming_cases s debug2 hreq.1 hmem
    have hcs := hreq.1
    simp only [List.mem_cons, List.not_mem_nil, or_false, lbCsTSet0, lbCsTSet1, lbCsTSet2,
      csNum] at hmem hcs
    intro c hc
    simp only [State.programmed]
    rw [hwidth, hother _ (by simp only [lbCsCtrl, csNum] at hc ⊢; omega)
      (by simp only [lbCsCtrl, lbCfgTUpdateEn, csNum] at hc ⊢; omega)]
    exact hsync c hc

theorem setTiming_stepOk (cs type value : ℕ) (debug2 : BitVec 32) :
    StepOk s (.setTiming cs type value debug2) ↔ Allowed s (.setTiming cs type value debug2) := by
  simp only [StepOk, Allowed, next, localbusCmdSetTiming]
  obtain ⟨hnone, hreq⟩ | ⟨hreq, wr, hsome, hmem, hkeep⟩ :=
    localbusAnalysisTimingPara_cases cs type value
  · rw [hnone]
    refine iff_of_true ⟨fun _ _ _ _ _ => rfl, Or.inr fun _ _ _ _ => rfl⟩ fun hcs h => ?_
    exact absurd ⟨hcs, h⟩ hreq
  · rw [hsome]
    obtain ⟨-, hwr, hother⟩ := localbusSetTiming_cases s debug2 hreq.1 hmem
    have hkept : (localbusSetTiming s wr debug2).1.regs wr.offset = s.regs wr.offset ↔
        s.timing type cs = BitVec.ofNat 32 value := by
      rw [hwr]
      exact hkeep s
    have hcs3 : cs < 3 := hreq.1
    constructor
    · rintro ⟨honly, -⟩ - -
      refine hkept.mp (honly cs (by omega) (by omega) wr.offset ?_)
      exact List.mem_cons_of_mem _ (List.mem_cons_of_mem _ hmem)
    · intro h
      have hsame := hkept.mpr (h hreq.1 hreq.2)
      have hall : ∀ offset, offset ≠ lbCfgTUpdateEn →
          (localbusSetTiming s wr debug2).1.regs offset = s.regs offset := by
        intro offset hup
        by_cases hoff : offset = wr.offset
        · rw [hoff, hsame]
        · exact hother offset hoff hup
      refine ⟨fun j hj _ offset hj' => hall offset (not_csRegister_updateEn hj hj'), Or.inr ?_⟩
      intro j hj offset hj'
      exact hall offset (not_csRegister_updateEn hj
        (List.mem_cons_of_mem _ (List.mem_cons_of_mem _ hj')))

end Requests

theorem localbusProbe_synced (regs : ℕ → BitVec 32) (pangeaV6 : Bool) (debug2 : BitVec 32) :
    Synced (localbusProbe regs pangeaV6 debug2) := by
  intro c hc
  simp only [localbusProbe, localbusMgrWidthBaseSet, if_pos hc, State.programmed]

theorem step_ok_iff {s : State} (hsync : Synced s) (a : Action) :
    StepOk s a ∧ Synced (next s a) ↔ Allowed s a := by
  cases a with
  | setWidthOffset cs width addrOffset =>
    rw [and_iff_right (setWidthOffset_stepOk cs width addrOffset)]
    exact setWidthOffset_synced hsync cs width addrOffset
  | setTiming cs type value debug2 =>
    rw [and_iff_left (setTiming_synced hsync cs type value debug2)]
    exact setTiming_stepOk cs type value debug2
  | read opt env => exact iff_of_true ⟨localbusGetData_widthOk hsync, hsync⟩ trivial
  | write opt env => exact iff_of_true ⟨localbusWriteData_widthOk hsync, hsync⟩ trivial

/-- While every request is of the kind that does no harm, the cache is right and every
further request is served as it should exactly when it is of that kind too. -/
theorem synced_of_allowed {s : State} (hreach : (system.restrict Allowed).Reachable s) :
    Synced s ∧ ∀ a, StepOk s a ∧ Synced (next s a) ↔ Allowed s a := by
  have hsync : Synced s := by
    apply hreach.invariant
    · rintro s ⟨regs, pangeaV6, debug2, rfl⟩
      exact localbusProbe_synced regs pangeaV6 debug2
    · rintro s a s' - hsync ⟨hallowed, rfl⟩
      exact ((step_ok_iff hsync a).mpr hallowed).2
  exact ⟨hsync, step_ok_iff hsync⟩

theorem synced_of_allowed_run :
    let s := next (next (localbusProbe (fun _ => 0) true 0)
      (.setWidthOffset 2 csWidth8 cfAddrOffset1)) (.setTiming 1 lBusLale 0x14 0)
    Synced s ∧ ∀ a, StepOk s a ∧ Synced (next s a) ↔ Allowed s a := by
  intro s
  apply synced_of_allowed
  refine .step (a := .setTiming 1 lBusLale 0x14 0) (.step (a := .setWidthOffset 2 csWidth8
    cfAddrOffset1) (.init ⟨_, _, _, rfl⟩) ⟨?_, rfl⟩) ⟨?_, rfl⟩
  · exact fun _ _ _ _ => rfl
  · exact fun _ _ => by decide

/-- A new width stays out of the cache.  A value for CS1 goes to CS0, and stays there with
the update disabled when the controller reports an error. -/
theorem sync_breaks :
    let s := localbusProbe (fun _ => 0) false 0
    system.Reachable s ∧
      (next s (.setWidthOffset 2 csWidth16 cfAddrOffset0)).width 1 = csWidth8 ∧
      (next s (.setWidthOffset 2 csWidth16 cfAddrOffset0)).programmed 1 = csWidth16 ∧
      (next s (.setTiming 0 lBusLale 5 1)).regs (lbCsTSet1 0) ≠ s.regs (lbCsTSet1 0) ∧
      (next s (.setTiming 0 lBusLale 5 1)).regs lbCfgTUpdateEn = 0 ∧
      ¬ ∀ s, system.Reachable s → Synced s ∧ ∀ a, StepOk s a := by
  refine ⟨.init ⟨_, _, _, rfl⟩, by decide, by decide, by decide, by decide, fun h => ?_⟩
  have hsync := (h _ (.step (a := .setWidthOffset 2 csWidth16 cfAddrOffset0)
    (.init ⟨fun _ => 0, false, 0, rfl⟩) rfl)).1
  exact absurd (hsync 1 (by decide)) (by decide)

end HiMpu.LocalBus
