import HiMpu.BitSpace
import HiMpu.BmTypes

/-!
# The interrupt controller

The configuration calls of `hwi_init.c`, on the bits of the distributor's registers and of
the redistributors' of the four cores.  An interrupt up to 31 has its fields in the
redistributor of each core, any other in the distributor; within a block the field of
an interrupt is in the register that its whole number gives.
-/

namespace HiMpu.Gic

open BitSpace

def bmMaxCoreNum : ℕ := 4
def maxNnspiId : ℕ := 31
def minGicSpiNum : ℕ := 32
def maxIntNum : ℕ := 288
def maxIntPriority : BitVec 32 := 13
def bmWordBitNum : ℕ := 32
def gicIenableIntNum : ℕ := 32
def sicdIgroupIntNum : ℕ := 32
def sicdRegSize : ℕ := 4
def gicIpriorityIntNum : ℕ := 4
def gicIpriorityHighBit : ℕ := 4
def gicRegBaseAddr : ℕ := 0x24000000
def gicrBase1 : ℕ := gicRegBaseAddr + 0x50000
def gicrIgroupr0Addr : ℕ := gicrBase1 + 0x80
def gicrIsenabler0Addr : ℕ := gicrBase1 + 0x100
def gicrIcenabler0Addr : ℕ := gicrBase1 + 0x180
def gicrIprioritySgiSAddr : ℕ := gicrBase1 + 0x400
def gicrIgrpmodr0Addr : ℕ := gicrBase1 + 0xd00
def gicrAddrOffsetPerCore : ℕ := 0x20000
def gicdIgroupnAddr : ℕ := gicRegBaseAddr + 0x80
def gicdIsenabler0Addr : ℕ := gicRegBaseAddr + 0x100
def gicdIcenabler0Addr : ℕ := gicRegBaseAddr + 0x180
def gicdIpriorityrnAddr : ℕ := gicRegBaseAddr + 0x400
def gicdIgrpmodrnAddr : ℕ := gicRegBaseAddr + 0xd00

abbrev Core := Fin bmMaxCoreNum

def IsEnabler (addr : ℕ) : Prop :=
  (gicdIsenabler0Addr ≤ addr ∧ addr < gicdIcenabler0Addr) ∨
    ∃ core : Core, addr = gicrIsenabler0Addr + core * gicrAddrOffsetPerCore

instance (addr : ℕ) : Decidable (IsEnabler addr) :=
  inferInstanceAs (Decidable (_ ∨ _))

def gicRegRead (g : Bits) (addr : ℕ) : BitVec 32 :=
  readWord g (8 * addr) 32

/-- `ISENABLER` sets and `ICENABLER`, 0x80 above it, clears the bits that are written with
one.  Any other register takes the word. -/
def gicRegWrite (g : Bits) (addr : ℕ) (data : BitVec 32) : Bits :=
  if IsEnabler addr then
    writeWord g (8 * addr) (gicRegRead g addr ||| data)
  else if 0x80 ≤ addr ∧ IsEnabler (addr - 0x80) then
    writeWord g (8 * (addr - 0x80)) (gicRegRead g (addr - 0x80) &&& ~~~data)
  else
    writeWord g (8 * addr) data

def bmGicGetReg (g : Bits) (base id : ℕ) : BitVec 32 :=
  let bitWidth := bmWordBitNum / gicIenableIntNum
  let bitMask : BitVec 32 := 1#32 <<< bitWidth - 1#32
  let regAddr := base + id / gicIenableIntNum * 4
  let offset := id % gicIenableIntNum * bitWidth
  let regVal := gicRegRead g regAddr
  (regVal &&& (bitMask <<< offset)) >>> offset

def bmGicSetReg (g : Bits) (base intId : ℕ) (val : BitVec 32) : Bits :=
  let bitWidth := bmWordBitNum / gicIenableIntNum
  let bitMask : BitVec 32 := 1#32 <<< bitWidth - 1#32
  let regAddr := base + intId / gicIenableIntNum * 4
  let offset := intId % gicIenableIntNum * bitWidth
  gicRegWrite g regAddr ((val &&& bitMask) <<< offset)

def bmGicRmwReg (g : Bits) (base intNum intId : ℕ) (val : BitVec 32) : Bits :=
  let bitWidth := bmWordBitNum / intNum
  let bitMask : BitVec 32 := 1#32 <<< bitWidth - 1#32
  let regAddr := base + intId / intNum * 4
  let offset := intId % intNum * bitWidth
  let regVal := gicRegRead g regAddr
  let regVal := regVal &&& ~~~(bitMask <<< offset)
  let regVal := regVal ||| ((val &&& bitMask) <<< offset)
  gicRegWrite g regAddr regVal

/-! ## Enabling

`GIC_ENABLE` is one.  The waits for the register write, which end each call, read the
control register until the controller is done and change nothing. -/

def gicEnable : BitVec 32 := 1

def bmGicrGetIntState (g : Bits) (coreId : Core) (intId : ℕ) : BitVec 32 :=
  bmGicGetReg g (gicrIsenabler0Addr + coreId * gicrAddrOffsetPerCore) intId

def bmGicdGetIntState (g : Bits) (intId : ℕ) : BitVec 32 :=
  bmGicGetReg g gicdIsenabler0Addr intId

def bmGicrDisableInt (g : Bits) (coreId : Core) (intId : ℕ) : Bits :=
  bmGicSetReg g (gicrIcenabler0Addr + coreId * gicrAddrOffsetPerCore) intId 1

def bmGicrEnableInt (g : Bits) (coreId : Core) (intId : ℕ) : Bits :=
  bmGicSetReg g (gicrIsenabler0Addr + coreId * gicrAddrOffsetPerCore) intId 1

def bmGicdDisableInt (g : Bits) (intId : ℕ) : Bits :=
  bmGicSetReg g gicdIcenabler0Addr intId 1

def bmGicdEnableInt (g : Bits) (intId : ℕ) : Bits :=
  bmGicSetReg g gicdIsenabler0Addr intId 1

/-! ## Groups -/

inductive SicGroupType where
  | g0s
  | g1ns
  | g1s
  | butt
  deriving DecidableEq

def bmSicrSetIntGroup (g : Bits) (core : Core) (intId : ℕ) (groupId : SicGroupType) : Bits :=
  let group0RegAddr := gicrIgroupr0Addr + core * gicrAddrOffsetPerCore
  let group0RegTmp := gicRegRead g group0RegAddr
  let group0RegTmp :=
    if groupId = .g0s ∨ groupId = .g1s then group0RegTmp &&& ~~~(1#32 <<< intId)
    else group0RegTmp ||| 1#32 <<< intId
  let g := gicRegWrite g group0RegAddr group0RegTmp
  let modRegAddr := gicrIgrpmodr0Addr + core * gicrAddrOffsetPerCore
  let modRegTmp := gicRegRead g modRegAddr
  let modRegTmp :=
    if groupId = .g1s then modRegTmp ||| 1#32 <<< intId
    else modRegTmp &&& ~~~(1#32 <<< intId)
  gicRegWrite g modRegAddr modRegTmp

def bmSicdSetIntGroup (g : Bits) (intId : ℕ) (groupId : SicGroupType) : Bits :=
  let sicdM := (intId - minGicSpiNum) / sicdIgroupIntNum
  let group0RegAddr := gicdIgroupnAddr + sicdRegSize * sicdM
  let modRegAddr := gicdIgrpmodrnAddr + sicdRegSize * sicdM
  let bitOffset := (intId - minGicSpiNum) % sicdIgroupIntNum
  let group0RegTmp := gicRegRead g group0RegAddr
  let group0RegTmp :=
    if groupId = .g0s ∨ groupId = .g1s then group0RegTmp &&& ~~~(1#32 <<< bitOffset)
    else group0RegTmp ||| 1#32 <<< bitOffset
  let g := gicRegWrite g group0RegAddr group0RegTmp
  let modRegTmp := gicRegRead g modRegAddr
  let modRegTmp :=
    if groupId = .g1s then modRegTmp ||| 1#32 <<< bitOffset
    else modRegTmp &&& ~~~(1#32 <<< bitOffset)
  gicRegWrite g modRegAddr modRegTmp

def bmSicSetGroup (g : Bits) (core : Core) (intId : ℕ) (groupId : SicGroupType) : Bits :=
  if intId < minGicSpiNum then
    let state := bmGicrGetIntState g core intId
    let g := bmGicrDisableInt g core intId
    let g := bmSicrSetIntGroup g core intId groupId
    if state = gicEnable then bmGicrEnableInt g core intId else g
  else
    let state := bmGicdGetIntState g intId
    let g := bmGicdDisableInt g intId
    let g := bmSicdSetIntGroup g intId groupId
    if state = gicEnable then bmGicdEnableInt g intId else g

/-! ## Priorities -/

def bmGicrSetPriority (g : Bits) (coreId : Core) (intId : ℕ) (priority : BitVec 32) : Bits :=
  bmGicRmwReg g (gicrIprioritySgiSAddr + coreId * gicrAddrOffsetPerCore) gicIpriorityIntNum
    intId (priority <<< gicIpriorityHighBit)

def bmGicdSetPriority (g : Bits) (intId : ℕ) (priority : BitVec 32) : Bits :=
  bmGicRmwReg g gicdIpriorityrnAddr gicIpriorityIntNum intId (priority <<< gicIpriorityHighBit)

def bmIrqSetPriorityOnCore (intId : ℕ) (priority : BitVec 32) (g : Bits) (coreId : Core) :
    Bits :=
  let state := bmGicrGetIntState g coreId intId
  let g := bmGicrDisableInt g coreId intId
  let g := bmGicrSetPriority g coreId intId priority
  if state = gicEnable then bmGicrEnableInt g coreId intId else g

def bmIrqSetPriority (g : Bits) (intId : ℕ) (priority : BitVec 32) : ℤ × Bits :=
  if intId > maxIntNum ∨ priority > maxIntPriority then
    (bmFail, g)
  else if intId ≤ maxNnspiId then
    (bmOk, (List.finRange bmMaxCoreNum).foldl (bmIrqSetPriorityOnCore intId priority) g)
  else
    let state := bmGicdGetIntState g intId
    let g := bmGicdDisableInt g intId
    let g := bmGicdSetPriority g intId priority
    (bmOk, if state = gicEnable then bmGicdEnableInt g intId else g)

inductive Place where
  | distributor
  | redistributor (core : Core)

inductive Field where
  | enable
  | priority (bit : Fin 8)
  | group
  | modifier

def Field.priorityLow : Field :=
  .priority ⟨0, Nat.succ_pos 7⟩

namespace Place

def base : Place → ℕ
  | distributor => gicRegBaseAddr
  | redistributor core => gicrBase1 + core * gicrAddrOffsetPerCore

def Holds : Place → ℕ → Prop
  | distributor, id => 32 ≤ id ∧ id < 1024
  | redistributor _, id => id < 32

def pos (p : Place) (id : ℕ) : Field → ℕ
  | .enable => 8 * (p.base + 0x100 + 4 * (id / 32)) + id % 32
  | .priority bit => 8 * (p.base + 0x400 + 4 * (id / 4)) + 8 * (id % 4) + bit
  | .group => 8 * (p.base + 0x80 + 4 * (id / 32)) + id % 32
  | .modifier => 8 * (p.base + 0xd00 + 4 * (id / 32)) + id % 32

end Place

structure Interrupt where
  place : Place
  id : ℕ
  inPlace : place.Holds id

def Interrupt.pos (i : Interrupt) (f : Field) : ℕ :=
  i.place.pos i.id f

/-- No bit of a field changes but those of the named fields of the interrupt `id`. -/
def ChangesOnly (g g' : Bits) (id : ℕ) (fields : Set Field) : Prop :=
  ∀ (i : Interrupt) (f : Field), g' (i.pos f) ≠ g (i.pos f) → i.id = id ∧ f ∈ fields

theorem ChangesOnly.refl (g : Bits) (id : ℕ) (fields : Set Field) : ChangesOnly g g id fields :=
  fun _ _ h => absurd rfl h

theorem ChangesOnly.trans {g₁ g₂ g₃ : Bits} {id : ℕ} {fields : Set Field}
    (h₁ : ChangesOnly g₁ g₂ id fields) (h₂ : ChangesOnly g₂ g₃ id fields) :
    ChangesOnly g₁ g₃ id fields := by
  intro i f hne
  by_cases hlast : g₃ (i.pos f) = g₂ (i.pos f)
  · exact h₁ i f (hlast ▸ hne)
  · exact h₂ i f hlast

namespace Field

def offset : Field → ℕ → ℕ
  | enable, id => 0x800 + id
  | priority bit, id => 0x2000 + 8 * id + bit
  | group, id => 0x400 + id
  | modifier, id => 0x6800 + id

theorem offset_lt (f : Field) {id : ℕ} (hid : id < 1024) : f.offset id < 0x8000 := by
  cases f <;> simp only [offset] <;> omega

theorem offset_inj {f f' : Field} {id id' : ℕ} (hid : id < 1024) (hid' : id' < 1024)
    (h : f.offset id = f'.offset id') : id = id' ∧ f = f' := by
  cases f with
  | priority bit =>
    cases f' with
    | priority bit' =>
      simp only [offset] at h
      have hbit : bit = bit' := Fin.ext (by omega)
      exact ⟨by omega, by rw [hbit]⟩
    | enable | group | modifier =>
      simp only [offset] at h
      omega
  | enable | group | modifier =>
    cases f' <;> simp only [offset] at h <;> first | omega | exact ⟨by omega, rfl⟩

end Field

namespace Place

theorem base_aligned (p : Place) : ∃ block, p.base = 0x1000 * block := by
  cases p with
  | distributor => exact ⟨0x24000, by unfold base gicRegBaseAddr; norm_num⟩
  | redistributor core =>
    refine ⟨0x24050 + 0x20 * core, ?_⟩
    unfold base gicrBase1 gicRegBaseAddr gicrAddrOffsetPerCore
    simp only
    omega

theorem Holds.lt {p : Place} {id : ℕ} (h : p.Holds id) : id < 1024 := by
  cases p with
  | distributor => exact h.2
  | redistributor core =>
    have hlt : id < 32 := h
    omega

theorem pos_eq (p : Place) (id : ℕ) (f : Field) : p.pos id f = 8 * p.base + f.offset id := by
  cases f <;> simp only [pos, Field.offset] <;> omega

theorem base_inj {p q : Place} (h : p.base = q.base) : p = q := by
  cases p with
  | distributor =>
    cases q with
    | distributor => rfl
    | redistributor core =>
      unfold base gicrBase1 at h
      simp only at h
      omega
  | redistributor core =>
    cases q with
    | distributor =>
      unfold base gicrBase1 at h
      simp only at h
      omega
    | redistributor core' =>
      unfold base gicrAddrOffsetPerCore at h
      simp only at h
      have hcore : core = core' := Fin.ext (by omega)
      rw [hcore]

theorem pos_inj {p q : Place} {id id' : ℕ} {f f' : Field} (hid : id < 1024) (hid' : id' < 1024)
    (h : p.pos id f = q.pos id' f') : p = q ∧ id = id' ∧ f = f' := by
  obtain ⟨block, hp⟩ := p.base_aligned
  obtain ⟨block', hq⟩ := q.base_aligned
  rw [pos_eq, pos_eq] at h
  have hoff := f.offset_lt hid
  have hoff' := f'.offset_lt hid'
  have hbase : p.base = q.base := by
    omega
  rw [hbase] at h
  exact ⟨base_inj hbase, Field.offset_inj hid hid' (Nat.add_left_cancel h)⟩

end Place

/-! ## One field written -/

theorem IsEnabler.low {addr : ℕ} (h : IsEnabler addr) : addr % 0x1000 / 0x80 = 2 := by
  unfold IsEnabler gicdIsenabler0Addr gicdIcenabler0Addr gicrIsenabler0Addr gicrBase1
    gicRegBaseAddr gicrAddrOffsetPerCore at h
  rcases h with ⟨hlo, hhi⟩ | ⟨core, rfl⟩ <;> omega

theorem isEnabler_place {p : Place} {id : ℕ} (h : p.Holds id) :
    IsEnabler (p.base + 0x100 + id / 32 * 4) := by
  cases p with
  | distributor =>
    left
    have hlt := h.2
    unfold gicdIsenabler0Addr gicdIcenabler0Addr Place.base gicRegBaseAddr
    simp only
    omega
  | redistributor core =>
    right
    refine ⟨core, ?_⟩
    have hlt : id < 32 := h
    unfold Place.base gicrIsenabler0Addr
    simp only
    omega

theorem gicRegWrite_plain (g : Bits) {addr : ℕ} (data : BitVec 32)
    (hset : addr % 0x1000 / 0x80 ≠ 2) (hclear : addr % 0x1000 / 0x80 ≠ 3) :
    gicRegWrite g addr data = writeWord g (8 * addr) data := by
  have hnotSet : ¬IsEnabler addr := fun h => hset h.low
  have hnotClear : ¬(0x80 ≤ addr ∧ IsEnabler (addr - 0x80)) := by
    rintro ⟨hle, h⟩
    have hlow := h.low
    omega
  rw [gicRegWrite, if_neg hnotSet, if_neg hnotClear]

theorem bmGicGetReg_enabler (g : Bits) (p : Place) (id : ℕ) :
    bmGicGetReg g (p.base + 0x100) id = gicEnable ↔ g (p.pos id .enable) = true := by
  have hbit : (gicRegRead g (p.base + 0x100 + id / 32 * 4)).getLsbD (id % 32) =
      g (p.pos id .enable) := by
    rw [gicRegRead, readWord_getLsbD (Nat.mod_lt _ (by omega)), Place.pos, Nat.mul_comm 4]
  have hlt : id % 32 < 32 := Nat.mod_lt _ (by omega)
  simp only [bmGicGetReg, bmWordBitNum, gicIenableIntNum, gicEnable, ← hbit]
  generalize gicRegRead g (p.base + 0x100 + id / 32 * 4) = v
  constructor
  · intro h
    have hzero := congrArg (BitVec.getLsbD · 0) h
    simpa [getLsbD_oneAt hlt] using hzero
  · intro h
    apply BitVec.eq_of_getLsbD_eq
    intro j hj
    have hone : (1#32 <<< (32 / 32) - 1#32) = 1#32 := by decide
    rw [hone, BitVec.getLsbD_ushiftRight, BitVec.getLsbD_and, Nat.div_self (by omega), Nat.mul_one,
      getLsbD_oneAt hlt]
    by_cases hj0 : j = 0
    · subst hj0
      simp [h]
    · simp [hj0]

theorem bmGicSetReg_one (g : Bits) (base id : ℕ) :
    bmGicSetReg g base id 1 = gicRegWrite g (base + id / 32 * 4) (1#32 <<< (id % 32)) := by
  have hone : (1#32 &&& (1#32 <<< (32 / 32) - 1#32)) = 1#32 := by decide
  have hmul : id % 32 * (32 / 32) = id % 32 := Nat.mul_one _
  simp only [bmGicSetReg, bmWordBitNum, gicIenableIntNum]
  rw [hmul]
  exact congrArg (fun d : BitVec 32 => gicRegWrite g _ (d <<< _)) hone

theorem bmGicSetReg_enabler (g : Bits) {p : Place} {id : ℕ} (h : p.Holds id) :
    bmGicSetReg g (p.base + 0x100) id 1 = Function.update g (p.pos id .enable) true := by
  have hpos : p.pos id .enable = 8 * (p.base + 0x100 + id / 32 * 4) + id % 32 := by
    rw [Place.pos, Nat.mul_comm 4]
  rw [bmGicSetReg_one, gicRegWrite, if_pos (isEnabler_place h), hpos,
    ← writeWord_setBit (Nat.mod_lt _ (by omega))]
  rfl

theorem bmGicSetReg_icenabler (g : Bits) {p : Place} {id : ℕ} (h : p.Holds id) :
    bmGicSetReg g (p.base + 0x180) id 1 = Function.update g (p.pos id .enable) false := by
  have hpos : p.pos id .enable = 8 * (p.base + 0x100 + id / 32 * 4) + id % 32 := by
    rw [Place.pos, Nat.mul_comm 4]
  have haddr : p.base + 0x180 + id / 32 * 4 - 0x80 = p.base + 0x100 + id / 32 * 4 := by
    omega
  have hnotSet : ¬IsEnabler (p.base + 0x180 + id / 32 * 4) := by
    intro hset
    obtain ⟨block, hbase⟩ := p.base_aligned
    have hlow := hset.low
    have hlt := h.lt
    omega
  have hclear : 0x80 ≤ p.base + 0x180 + id / 32 * 4 ∧
      IsEnabler (p.base + 0x180 + id / 32 * 4 - 0x80) :=
    ⟨by omega, haddr ▸ isEnabler_place h⟩
  rw [bmGicSetReg_one, gicRegWrite, if_neg hnotSet, if_pos hclear, haddr, hpos,
    ← writeWord_clearBit (Nat.mod_lt _ (by omega))]
  rfl

theorem gicdEnable_eq (g : Bits) {id : ℕ} (h : Place.distributor.Holds id) :
    bmGicdEnableInt g id = Function.update g (Place.distributor.pos id .enable) true :=
  bmGicSetReg_enabler g h

theorem gicdDisable_eq (g : Bits) {id : ℕ} (h : Place.distributor.Holds id) :
    bmGicdDisableInt g id = Function.update g (Place.distributor.pos id .enable) false :=
  bmGicSetReg_icenabler g h

theorem gicdState_eq (g : Bits) (id : ℕ) :
    bmGicdGetIntState g id = gicEnable ↔ g (Place.distributor.pos id .enable) = true :=
  bmGicGetReg_enabler g .distributor id

theorem redistributor_base (core : Core) (k : ℕ) :
    gicrBase1 + k + core * gicrAddrOffsetPerCore = (Place.redistributor core).base + k :=
  Nat.add_right_comm ..

theorem gicrEnable_eq (g : Bits) (core : Core) {id : ℕ} (h : id < 32) :
    bmGicrEnableInt g core id =
      Function.update g ((Place.redistributor core).pos id .enable) true := by
  have hplace : (Place.redistributor core).Holds id := h
  unfold bmGicrEnableInt gicrIsenabler0Addr
  rw [redistributor_base, bmGicSetReg_enabler g hplace]

theorem gicrDisable_eq (g : Bits) (core : Core) {id : ℕ} (h : id < 32) :
    bmGicrDisableInt g core id =
      Function.update g ((Place.redistributor core).pos id .enable) false := by
  have hplace : (Place.redistributor core).Holds id := h
  unfold bmGicrDisableInt gicrIcenabler0Addr
  rw [redistributor_base, bmGicSetReg_icenabler g hplace]

theorem gicrState_eq (g : Bits) (core : Core) (id : ℕ) :
    bmGicrGetIntState g core id = gicEnable ↔
      g ((Place.redistributor core).pos id .enable) = true := by
  unfold bmGicrGetIntState gicrIsenabler0Addr
  rw [redistributor_base, bmGicGetReg_enabler]

/-! ## Priorities and groups -/

def Place.setPriority (p : Place) (id : ℕ) (val : BitVec 32) (g : Bits) : Bits := fun n =>
  if p.pos id .priorityLow ≤ n ∧ n < p.pos id .priorityLow + 8 then
    val.getLsbD (n - p.pos id .priorityLow)
  else g n

theorem getLsbD_byteMask (j : ℕ) : (1#32 <<< 8 - 1#32).getLsbD j = decide (j < 8) := by
  have hmask : (1#32 <<< 8 - 1#32) = BitVec.ofNat 32 (2 ^ 8 - 1) := by decide
  rw [hmask, BitVec.getLsbD_ofNat, Nat.testBit_two_pow_sub_one]
  by_cases hj : j < 8
  · have hw : j < 32 := by omega
    simp [hj, hw]
  · simp [hj]

theorem bmGicRmwReg_priority (g : Bits) {p : Place} {id : ℕ} (h : p.Holds id)
    (val : BitVec 32) :
    bmGicRmwReg g (p.base + 0x400) gicIpriorityIntNum id val = p.setPriority id val g := by
  obtain ⟨block, hbase⟩ := p.base_aligned
  have hlt := h.lt
  have hpos : p.pos id .priorityLow = 8 * (p.base + 0x400 + id / 4 * 4) + id % 4 * 8 := by
    simp only [Place.pos, Field.priorityLow]
    omega
  simp only [bmGicRmwReg, bmWordBitNum, gicIpriorityIntNum]
  rw [gicRegWrite_plain _ _ (by omega) (by omega)]
  unfold gicRegRead Place.setPriority
  rw [hpos]
  exact writeWord_field (by omega) getLsbD_byteMask

theorem reconfigure {change : Bits → Bits} {pos : ℕ} (g : Bits)
    (hframe : change g pos = g pos)
    (hlocal : ∀ b, change (Function.update g pos b) = Function.update (change g) pos b) :
    (if g pos = true then Function.update (change (Function.update g pos false)) pos true
      else change (Function.update g pos false)) = change g := by
  rw [hlocal, Function.update_idem]
  by_cases hon : g pos = true
  · rw [if_pos hon, ← hon, ← hframe, Function.update_eq_self]
  · have hoff : g pos = false := by simpa using hon
    rw [if_neg hon, ← hoff, ← hframe, Function.update_eq_self]

namespace SicGroupType

def groupBit (t : SicGroupType) : Bool :=
  !decide (t = .g0s ∨ t = .g1s)

def modifierBit (t : SicGroupType) : Bool :=
  decide (t = .g1s)

end SicGroupType

def Place.regroup (p : Place) (id : ℕ) (t : SicGroupType) (g : Bits) : Bits :=
  Function.update (Function.update g (p.pos id .group) t.groupBit) (p.pos id .modifier)
    t.modifierBit

theorem gicRegWrite_group (g : Bits) (p : Place) {id addr k : ℕ} (hid : id < 1024)
    (haddr : addr = p.base + 0x80 + 4 * (id / 32)) (hk : k = id % 32) (t : SicGroupType) :
    gicRegWrite g addr
        (if t = .g0s ∨ t = .g1s then gicRegRead g addr &&& ~~~(1#32 <<< k)
          else gicRegRead g addr ||| 1#32 <<< k) =
      Function.update g (p.pos id .group) t.groupBit := by
  obtain ⟨block, hbase⟩ := p.base_aligned
  have hpos : p.pos id .group = 8 * addr + k := by rw [haddr, hk, Place.pos]
  rw [gicRegWrite_plain _ _ (by omega) (by omega), hpos]
  unfold gicRegRead SicGroupType.groupBit
  by_cases hsecure : t = .g0s ∨ t = .g1s
  · rw [if_pos hsecure, writeWord_clearBit (by omega), decide_eq_true hsecure, Bool.not_true]
  · rw [if_neg hsecure, writeWord_setBit (by omega), decide_eq_false hsecure, Bool.not_false]

theorem gicRegWrite_modifier (g : Bits) (p : Place) {id addr k : ℕ} (hid : id < 1024)
    (haddr : addr = p.base + 0xd00 + 4 * (id / 32)) (hk : k = id % 32) (t : SicGroupType) :
    gicRegWrite g addr
        (if t = .g1s then gicRegRead g addr ||| 1#32 <<< k
          else gicRegRead g addr &&& ~~~(1#32 <<< k)) =
      Function.update g (p.pos id .modifier) t.modifierBit := by
  obtain ⟨block, hbase⟩ := p.base_aligned
  have hpos : p.pos id .modifier = 8 * addr + k := by rw [haddr, hk, Place.pos]
  rw [gicRegWrite_plain _ _ (by omega) (by omega), hpos]
  unfold gicRegRead SicGroupType.modifierBit
  by_cases hg1s : t = .g1s
  · rw [if_pos hg1s, writeWord_setBit (by omega), decide_eq_true hg1s]
  · rw [if_neg hg1s, writeWord_clearBit (by omega), decide_eq_false hg1s]

theorem bmSicrSetIntGroup_eq (g : Bits) (core : Core) {id : ℕ} (h : id < 32)
    (t : SicGroupType) :
    bmSicrSetIntGroup g core id t = (Place.redistributor core).regroup id t g := by
  have hid : id < 1024 := by omega
  have hzero : 4 * (id / 32) = 0 := by omega
  unfold bmSicrSetIntGroup gicrIgroupr0Addr gicrIgrpmodr0Addr Place.regroup
  simp only [redistributor_base]
  rw [gicRegWrite_group g (.redistributor core) hid (by omega) (by omega),
    gicRegWrite_modifier _ (.redistributor core) hid (by omega) (by omega)]

/-- The registers of the distributor's groups are counted from those of interrupt 0, but
`bm_sicd_set_int_group` counts from interrupt 32. -/
theorem bmSicdSetIntGroup_eq (g : Bits) {id : ℕ} (h : id < 1024) (t : SicGroupType) :
    bmSicdSetIntGroup g id t = Place.distributor.regroup (id - 32) t g := by
  have hid : id - 32 < 1024 := by omega
  unfold bmSicdSetIntGroup Place.regroup
  simp only [minGicSpiNum, sicdIgroupIntNum, sicdRegSize]
  rw [gicRegWrite_group g .distributor hid (by rfl) rfl,
    gicRegWrite_modifier _ .distributor hid (by rfl) rfl]

theorem Place.regroup_reconfigure (g : Bits) {p : Place} {id id' : ℕ} (hid : id < 1024)
    (hid' : id' < 1024) (t : SicGroupType) :
    (if g (p.pos id .enable) = true then
        Function.update (p.regroup id' t (Function.update g (p.pos id .enable) false))
          (p.pos id .enable) true
      else p.regroup id' t (Function.update g (p.pos id .enable) false)) =
      p.regroup id' t g := by
  have hgroup : p.pos id .enable ≠ p.pos id' .group := fun h =>
    Field.noConfusion (pos_inj hid hid' h).2.2
  have hmodifier : p.pos id .enable ≠ p.pos id' .modifier := fun h =>
    Field.noConfusion (pos_inj hid hid' h).2.2
  apply reconfigure
  · rw [Place.regroup, Function.update_of_ne hmodifier, Function.update_of_ne hgroup]
  · intro b
    rw [Place.regroup, Place.regroup, Function.update_comm hgroup,
      Function.update_comm hmodifier]

theorem bmSicSetGroup_eq (g : Bits) (core : Core) {id : ℕ} (h : id < 1024)
    (t : SicGroupType) :
    bmSicSetGroup g core id t =
      if id < 32 then (Place.redistributor core).regroup id t g
      else Place.distributor.regroup (id - 32) t g := by
  by_cases hlow : id < 32
  · simp only [bmSicSetGroup, minGicSpiNum, if_pos hlow, gicrState_eq, gicrDisable_eq _ _ hlow,
      gicrEnable_eq _ _ hlow, bmSicrSetIntGroup_eq _ _ hlow]
    exact Place.regroup_reconfigure g h h t
  · have hplace : Place.distributor.Holds id := ⟨by omega, h⟩
    simp only [bmSicSetGroup, minGicSpiNum, if_neg hlow, gicdState_eq, gicdDisable_eq _ hplace,
      gicdEnable_eq _ hplace, bmSicdSetIntGroup_eq _ h]
    exact Place.regroup_reconfigure g h (by omega) t

theorem Place.mem_priority {p : Place} {id n : ℕ}
    (h : p.pos id .priorityLow ≤ n ∧ n < p.pos id .priorityLow + 8) :
    ∃ bit, n = p.pos id (.priority bit) := by
  refine ⟨⟨n - p.pos id .priorityLow, by omega⟩, ?_⟩
  simp only [pos, Field.priorityLow] at h ⊢
  omega

theorem Place.setPriority_reconfigure (g : Bits) {p : Place} {id : ℕ} (hid : id < 1024)
    (val : BitVec 32) :
    (if g (p.pos id .enable) = true then
        Function.update (p.setPriority id val (Function.update g (p.pos id .enable) false))
          (p.pos id .enable) true
      else p.setPriority id val (Function.update g (p.pos id .enable) false)) =
      p.setPriority id val g := by
  have hout : ¬(p.pos id .priorityLow ≤ p.pos id .enable ∧
      p.pos id .enable < p.pos id .priorityLow + 8) := by
    intro hin
    obtain ⟨bit, hbit⟩ := mem_priority hin
    exact Field.noConfusion (pos_inj hid hid hbit).2.2
  apply reconfigure
  · rw [Place.setPriority, if_neg hout]
  · intro b
    funext n
    by_cases hn : n = p.pos id .enable
    · rw [hn, Function.update_self, Place.setPriority, if_neg hout, Function.update_self]
    · rw [Function.update_of_ne hn, Place.setPriority, Place.setPriority,
        Function.update_of_ne hn]

theorem Place.setPriority_changesOnly (g : Bits) (p : Place) {id : ℕ} (hid : id < 1024)
    (val : BitVec 32) :
    ChangesOnly g (p.setPriority id val g) id {f | ∃ bit, f = .priority bit} := by
  intro i f hne
  have hin : p.pos id .priorityLow ≤ i.pos f ∧ i.pos f < p.pos id .priorityLow + 8 := by
    by_contra hout
    exact hne (by rw [Place.setPriority, if_neg hout])
  obtain ⟨bit, hbit⟩ := mem_priority hin
  obtain ⟨-, hsame, hfield⟩ := pos_inj i.inPlace.lt hid hbit
  exact ⟨hsame, bit, hfield⟩

theorem Place.regroup_changesOnly (g : Bits) (p : Place) {id : ℕ} (hid : id < 1024)
    (t : SicGroupType) : ChangesOnly g (p.regroup id t g) id {.group, .modifier} := by
  intro i f hne
  by_cases hmodifier : i.pos f = p.pos id .modifier
  · obtain ⟨-, hsame, hfield⟩ := pos_inj i.inPlace.lt hid hmodifier
    exact ⟨hsame, .inr hfield⟩
  · by_cases hgroup : i.pos f = p.pos id .group
    · obtain ⟨-, hsame, hfield⟩ := pos_inj i.inPlace.lt hid hgroup
      exact ⟨hsame, .inl hfield⟩
    · exact absurd
        (by rw [Place.regroup, Function.update_of_ne hmodifier, Function.update_of_ne hgroup])
        hne

theorem bmIrqSetPriorityOnCore_eq (g : Bits) (core : Core) {id : ℕ} (h : id < 32)
    (priority : BitVec 32) :
    bmIrqSetPriorityOnCore id priority g core =
      (Place.redistributor core).setPriority id (priority <<< 4) g := by
  have hplace : (Place.redistributor core).Holds id := h
  have hset : ∀ g, bmGicrSetPriority g core id priority =
      (Place.redistributor core).setPriority id (priority <<< 4) g := by
    intro g
    unfold bmGicrSetPriority gicrIprioritySgiSAddr
    rw [redistributor_base, bmGicRmwReg_priority g hplace, gicIpriorityHighBit]
  simp only [bmIrqSetPriorityOnCore, gicrState_eq, gicrDisable_eq _ _ h, gicrEnable_eq _ _ h,
    hset]
  exact Place.setPriority_reconfigure g hplace.lt _

theorem bmIrqSetPriority_changesOnly (g : Bits) (id : ℕ) (priority : BitVec 32) :
    ChangesOnly g (bmIrqSetPriority g id priority).2 id {f | ∃ bit, f = .priority bit} := by
  unfold bmIrqSetPriority
  split
  · exact ChangesOnly.refl g id _
  · rename_i haccept
    have hid : id < 1024 := by
      simp only [maxIntNum, not_or] at haccept
      omega
    split
    · rename_i hlow
      have hlt : id < 32 := Nat.lt_succ_of_le hlow
      -- the loop over the cores: each turn is one change of the field in one redistributor
      generalize List.finRange bmMaxCoreNum = cores
      induction cores generalizing g with
      | nil => exact ChangesOnly.refl g id _
      | cons core cores ih =>
        have hturn : ChangesOnly g (bmIrqSetPriorityOnCore id priority g core) id
            {f | ∃ bit, f = .priority bit} := by
          rw [bmIrqSetPriorityOnCore_eq g core hlt]
          exact Place.setPriority_changesOnly g _ hid _
        exact hturn.trans (ih _)
    · rename_i hhigh
      have hplace : Place.distributor.Holds id := ⟨Nat.lt_of_not_le hhigh, hid⟩
      have hset : ∀ g, bmGicdSetPriority g id priority =
          Place.distributor.setPriority id (priority <<< 4) g := fun g =>
        bmGicRmwReg_priority g hplace _
      simp only [gicdState_eq, gicdDisable_eq _ hplace, gicdEnable_eq _ hplace, hset,
        Place.setPriority_reconfigure g hid]
      exact Place.setPriority_changesOnly g _ hid _

/-- The two calls touch nothing but the fields they are about, except that the group goes
to the interrupt 32 below, which is not harmed where it is none or in the group already. -/
theorem configuration_frame (g : Bits) (core : Core) {id : ℕ} (hid : id < 1024)
    (priority : BitVec 32) (t : SicGroupType) :
    (ChangesOnly g (bmIrqSetPriority g id priority).2 id {f | ∃ bit, f = .priority bit} ∧
        ChangesOnly g (bmSicSetGroup g core id t) id {.group, .modifier}) ↔
      id < 64 ∨
        (g (Place.distributor.pos (id - 32) .group) = t.groupBit ∧
          g (Place.distributor.pos (id - 32) .modifier) = t.modifierBit) := by
  have hother : id - 32 < 1024 := by omega
  rw [and_iff_right (bmIrqSetPriority_changesOnly g id priority), bmSicSetGroup_eq g core hid]
  constructor
  · intro hframe
    by_cases hlow : id < 64
    · exact .inl hlow
    · right
      rw [if_neg (by omega)] at hframe
      -- the interrupt whose bits were written
      let victim : Interrupt := ⟨.distributor, id - 32, by omega, hother⟩
      have hkept : ∀ f, Place.distributor.regroup (id - 32) t g (victim.pos f) =
          g (victim.pos f) := by
        intro f
        by_contra hne
        have hsame : id - 32 = id := (hframe victim f hne).1
        omega
      have hdistinct : Place.distributor.pos (id - 32) .group ≠
          Place.distributor.pos (id - 32) .modifier := fun h =>
        Field.noConfusion (Place.pos_inj hother hother h).2.2
      constructor
      · have hgroup := hkept .group
        rw [Interrupt.pos, Place.regroup, Function.update_of_ne hdistinct,
          Function.update_self] at hgroup
        exact hgroup.symm
      · have hmodifier := hkept .modifier
        rw [Interrupt.pos, Place.regroup, Function.update_self] at hmodifier
        exact hmodifier.symm
  · rintro (hlow | ⟨hgroup, hmodifier⟩)
    · by_cases hprivate : id < 32
      · rw [if_pos hprivate]
        exact Place.regroup_changesOnly g _ hid t
      · rw [if_neg hprivate]
        -- the registers of interrupts 0 to 31 in the distributor hold no field
        intro i f hne
        have hreserved : ∀ f', i.pos f ≠ Place.distributor.pos (id - 32) f' := by
          intro f' hpos
          obtain ⟨hplace, hsame, -⟩ := Place.pos_inj i.inPlace.lt hother hpos
          have hin := i.inPlace
          rw [hplace] at hin
          have hge := hin.1
          omega
        refine absurd ?_ hne
        rw [Place.regroup, Function.update_of_ne (hreserved _),
          Function.update_of_ne (hreserved _)]
    · by_cases hprivate : id < 32
      · rw [if_pos hprivate]
        exact Place.regroup_changesOnly g _ hid t
      · rw [if_neg hprivate, Place.regroup, ← hgroup, Function.update_eq_self, ← hmodifier,
          Function.update_eq_self]
        exact ChangesOnly.refl g id _

theorem configuration_frame_unset :
    (ChangesOnly (fun _ => false) (bmIrqSetPriority (fun _ => false) 40 3).2 40
        {f | ∃ bit, f = .priority bit} ∧
      ChangesOnly (fun _ => false) (bmSicSetGroup (fun _ => false) ⟨0, by decide⟩ 40 .g1ns) 40
        {.group, .modifier}) :=
  (configuration_frame (fun _ => false) ⟨0, by decide⟩ (by omega) 3 .g1ns).mpr (.inl (by omega))

/-- Interrupt 64 made non-secure takes interrupt 32 with it. -/
theorem bmSicSetGroup_neighbour :
    ¬∀ (g : Bits) (core : Core) (id : ℕ) (t : SicGroupType), id ≤ maxIntNum →
      ChangesOnly g (bmSicSetGroup g core id t) id {.group, .modifier} := by
  intro hall
  have hframe := hall (fun _ => false) ⟨0, by decide⟩ 64 .g1ns (by decide)
  rw [bmSicSetGroup_eq _ _ (by omega)] at hframe
  have hsame : 32 = 64 := (hframe ⟨.distributor, 32, by omega, by omega⟩ .group (by decide)).1
  omega

end HiMpu.Gic
