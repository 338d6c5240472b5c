import HiMpu.IntervalTiling

/-!
# The memory of an I2C slave

`i2c_dw_slave_initialize` allocates the control block of the slave with its data behind it.
The SMBus slave divides its data into twelve buffers.  The size is an `unsigned long`, and
the allocator takes an `int`.
-/

namespace HiMpu.I2cSlaveDeploy

def icMsgMaxNum : ℕ := 10
def icSDataLenMulti : BitVec 64 := 2 + 10
def kdeploySlave : BitVec 64 := 1 <<< 0
def kdeployMaster : BitVec 64 := 1 <<< 1
def kdeploySmMask : BitVec 64 := kdeploySlave ||| kdeployMaster
def kdeploySpeedModeStd : BitVec 64 := 1 <<< 2
def kdeploySpeedModeFast : BitVec 64 := 1 <<< 3
def kdeploySpeedModeHigh : BitVec 64 := 1 <<< 4
def kdeploySpeedModeMask : BitVec 64 :=
  kdeploySpeedModeStd ||| kdeploySpeedModeFast ||| kdeploySpeedModeHigh
def kdeploySlvTypeEeprom : BitVec 64 := 1 <<< 7
def kdeploySlvTypeSmbus : BitVec 64 := 1 <<< 8
def kdeploySlvTypeMask : BitVec 64 := kdeploySlvTypeEeprom ||| kdeploySlvTypeSmbus
def ebusy : ℤ := 16
def enomem : ℤ := 12
def einval : ℤ := 22
def eslavescope : ℤ := 1008
def enotsupspeed : ℤ := 1018
def enoslavetype : ℤ := 1023
def enoslave : ℤ := 1024

structure Kdepl where
  flags : BitVec 64
  slaveDlen : BitVec 64

structure Slave where
  name : String
  controlMemlen : BitVec 32
  deriving DecidableEq

structure Platform where
  slaveList : List Slave
  busy : Bool
  platformInit : ℤ
  kzalloc : ℕ → Bool
  isrRegister : ℤ

def slaveLookupByname (slaveList : List Slave) (slaveName : Option String) : Option Slave :=
  slaveName.bind fun name => slaveList.find? fun slave => slave.name == name

def platdrvMemCalloc (pl : Platform) (len : ℤ) : Option ℕ :=
  if len ≤ 0 then none
  else if pl.kzalloc len.toNat then some len.toNat
  else none

def mcalloc (pl : Platform) (len : BitVec 32) : Option ℕ :=
  if len.toInt ≤ 0 then none else platdrvMemCalloc pl len.toInt

def slaveCheckForDeploy (deploy : Kdepl) : ℤ :=
  if deploy.slaveDlen = 0 ∨ deploy.slaveDlen % 8 ≠ 0 then -eslavescope
  else if deploy.flags &&& kdeploySmMask ≠ kdeploySlave then -einval
  else if deploy.flags &&& kdeploySlvTypeMask = 0 then -enoslavetype
  else 0

def slaveLookup (pl : Platform) (deploy : Kdepl) : Option Slave :=
  let slaveName := none
  let slaveName :=
    if deploy.flags &&& kdeploySlvTypeEeprom ≠ 0 then some "eeprom" else slaveName
  let slaveName :=
    if deploy.flags &&& kdeploySlvTypeSmbus ≠ 0 then some "smbus" else slaveName
  slaveLookupByname pl.slaveList slaveName

def slaveInitController (deploy : Kdepl) : ℤ :=
  if deploy.flags &&& kdeploySpeedModeMask = kdeploySpeedModeHigh ∨
      deploy.flags &&& kdeploySpeedModeMask = kdeploySpeedModeFast ∨
      deploy.flags &&& kdeploySpeedModeMask = kdeploySpeedModeStd then 0
  else -enotsupspeed

/-- What the adapter knows about the memory: addresses count from the start of the allocated
bytes, which are `size`. -/
structure Adapter where
  slave : Slave
  size : ℕ
  slaveData : ℕ
  slaveDlen : BitVec 64
  deriving DecidableEq

def fillAdaptWithSlave (deploy : Kdepl) (slave : Slave) (size : ℕ) : Adapter where
  slave := slave
  size := size
  slaveData := slave.controlMemlen.toNat
  slaveDlen := deploy.slaveDlen

/-- The adapter has the memory where the result is zero; else it has been freed again. -/
def slaveInitialize (pl : Platform) (deploy : Kdepl) : ℤ × Option Adapter :=
  let ret := slaveCheckForDeploy deploy
  if ret ≠ 0 then (ret, none)
  else
    let dlenMulti : BitVec 64 :=
      if deploy.flags &&& kdeploySlvTypeSmbus ≠ 0 then icSDataLenMulti else 1
    match slaveLookup pl deploy with
    | none => (-enoslave, none)
    | some slave =>
      if pl.busy then (-ebusy, none)
      else if pl.platformInit ≠ 0 then (pl.platformInit, none)
      else
        let len := deploy.slaveDlen * dlenMulti + slave.controlMemlen.setWidth 64
        match mcalloc pl (len.setWidth 32) with
        | none => (-enomem, none)
        | some size =>
          let adap := fillAdaptWithSlave deploy slave size
          let ret := slaveInitController deploy
          if ret ≠ 0 then (ret, none)
          else if pl.isrRegister ≠ 0 then (pl.isrRegister, none)
          else (0, some adap)

/-- The buffers that `i2c_slave_smbus_control_init` sets up. -/
structure SmbusControl where
  bufLen : BitVec 32
  bufRequest : ℕ
  bufResponse : ℕ
  i2cMsgBuf : ℕ → ℕ

def slaveSmbusControlInit (adap : Adapter) : SmbusControl :=
  let bufLen := adap.slaveDlen.setWidth 32
  let bufResponse := adap.slaveData + bufLen.toNat
  { bufLen := bufLen
    bufRequest := adap.slaveData
    bufResponse := bufResponse
    i2cMsgBuf := fun i => bufResponse + (bufLen * BitVec.ofNat 32 (i + 1)).toNat }

def SmbusControl.buffers (c : SmbusControl) : List (ℕ × ℕ) :=
  (c.bufRequest, c.bufLen.toNat) :: (c.bufResponse, c.bufLen.toNat) ::
    (List.range icMsgMaxNum).map fun i => (c.i2cMsgBuf i, c.bufLen.toNat)

def Kdepl.smbus (deploy : Kdepl) : Prop :=
  deploy.flags &&& kdeploySlvTypeSmbus ≠ 0

instance (deploy : Kdepl) : Decidable deploy.smbus :=
  inferInstanceAs (Decidable (_ ≠ _))

def needed (deploy : Kdepl) (slave : Slave) : ℕ :=
  slave.controlMemlen.toNat + (if deploy.smbus then 12 else 1) * deploy.slaveDlen.toNat

structure MemoryOk (deploy : Kdepl) (adap : Adapter) : Prop where
  enough : needed deploy adap.slave ≤ adap.size
  inside : deploy.smbus → ∀ b ∈ (slaveSmbusControlInit adap).buffers,
    adap.slave.controlMemlen.toNat ≤ b.1 ∧ b.1 + b.2 ≤ adap.size
  disjoint : deploy.smbus →
    (slaveSmbusControlInit adap).buffers.Pairwise fun a b => a.1 + a.2 ≤ b.1 ∨ b.1 + b.2 ≤ a.1

theorem len_eq (deploy : Kdepl) (slave : Slave) :
    (deploy.slaveDlen *
          (if deploy.flags &&& kdeploySlvTypeSmbus ≠ 0 then icSDataLenMulti else 1) +
        slave.controlMemlen.setWidth 64).setWidth 32 =
      BitVec.ofNat 32 (needed deploy slave) := by
  have hmulti : (if deploy.flags &&& kdeploySlvTypeSmbus ≠ 0 then icSDataLenMulti else 1).toNat =
      if deploy.smbus then 12 else 1 := by
    by_cases h : deploy.flags &&& kdeploySlvTypeSmbus ≠ 0
    · have hsmbus : deploy.smbus := h
      rw [if_pos h, if_pos hsmbus]
      rfl
    · have hnot : ¬deploy.smbus := h
      rw [if_neg h, if_neg hnot]
      rfl
  apply BitVec.eq_of_toNat_eq
  rw [BitVec.toNat_setWidth, BitVec.toNat_add, BitVec.toNat_mul, hmulti, BitVec.toNat_ofNat,
    BitVec.toNat_setWidth_of_le (by omega), Nat.mod_mod_of_dvd _ (by norm_num), needed,
    Nat.add_comm, Nat.mul_comm]
  omega

theorem mcalloc_some {pl : Platform} {len : BitVec 32} {size : ℕ}
    (h : mcalloc pl len = some size) : 0 < len.toInt ∧ (size : ℤ) = len.toInt := by
  unfold mcalloc platdrvMemCalloc at h
  split_ifs at h with hle hle'
  cases h
  omega

theorem slaveInitialize_accepted {pl : Platform} {deploy : Kdepl} {adap : Adapter}
    (h : slaveInitialize pl deploy = (0, some adap)) :
    deploy.slaveDlen ≠ 0 ∧ adap.slaveDlen = deploy.slaveDlen ∧
      adap.slaveData = adap.slave.controlMemlen.toNat ∧
      slaveLookup pl deploy = some adap.slave ∧
      (adap.size : ℤ) = (BitVec.ofNat 32 (needed deploy adap.slave)).toInt := by
  unfold slaveInitialize at h
  simp only at h
  split at h
  · cases (Prod.mk.inj h).2
  rename_i hcheck
  have hdlen : deploy.slaveDlen ≠ 0 := by
    intro hzero
    exact hcheck (by simp [slaveCheckForDeploy, hzero, eslavescope])
  cases hlookup : slaveLookup pl deploy with
  | none => simp [hlookup] at h
  | some slave =>
    simp only [hlookup] at h
    split at h
    · cases (Prod.mk.inj h).2
    split at h
    · cases (Prod.mk.inj h).2
    rw [len_eq deploy slave] at h
    cases halloc : mcalloc pl (BitVec.ofNat 32 (needed deploy slave)) with
    | none => simp [halloc] at h
    | some size =>
      simp only [halloc] at h
      split at h
      · cases (Prod.mk.inj h).2
      split at h
      · cases (Prod.mk.inj h).2
      cases h
      exact ⟨hdlen, rfl, rfl, rfl, (mcalloc_some halloc).2⟩

theorem buffers_eq {adap : Adapter} (hlt : 12 * adap.slaveDlen.toNat < 2 ^ 32) :
    (slaveSmbusControlInit adap).buffers =
      (List.range 12).map fun i =>
        (adap.slaveData + adap.slaveDlen.toNat * i, adap.slaveDlen.toNat) := by
  have hlen : (adap.slaveDlen.setWidth 32).toNat = adap.slaveDlen.toNat := by
    rw [BitVec.toNat_setWidth]
    exact Nat.mod_eq_of_lt (by omega)
  have hnode : ∀ i < 10, (adap.slaveDlen.setWidth 32 * BitVec.ofNat 32 (i + 1)).toNat =
      adap.slaveDlen.toNat * (i + 1) := by
    intro i hi
    have hle : adap.slaveDlen.toNat * (i + 1) ≤ adap.slaveDlen.toNat * 12 :=
      Nat.mul_le_mul_left _ (by omega)
    rw [BitVec.toNat_mul, hlen, BitVec.toNat_ofNat, Nat.mod_eq_of_lt (by omega : i + 1 < 2 ^ 32)]
    exact Nat.mod_eq_of_lt (by omega)
  have hrange : List.range 12 = 0 :: 1 :: (List.range 10).map (· + 2) := by decide
  rw [hrange]
  simp only [SmbusControl.buffers, slaveSmbusControlInit, icMsgMaxNum, hlen, List.map_cons,
    List.map_map, Nat.mul_zero, Nat.add_zero, Nat.mul_one]
  congr 2
  apply List.map_congr_left
  intro i hi
  rw [hnode i (List.mem_range.mp hi)]
  simp only [Function.comp_apply, Prod.mk.injEq, and_true]
  ring

/-- The memory of a deployment that is accepted is what the slave needs exactly when the
number of its bytes is one of an `int`. -/
theorem deploy_memory (pl : Platform) {deploy : Kdepl} {adap : Adapter} {slave : Slave}
    (h : slaveInitialize pl deploy = (0, some adap)) (hslave : slaveLookup pl deploy = some slave) :
    MemoryOk deploy adap ↔ needed deploy slave < 2 ^ 31 := by
  obtain ⟨hdlen, hadapDlen, hdata, hlookup, hsize⟩ := slaveInitialize_accepted h
  cases hslave.symm.trans hlookup
  constructor
  · intro hok
    have henough := hok.enough
    have hmax := BitVec.toInt_lt (x := BitVec.ofNat 32 (needed deploy adap.slave))
    omega
  · intro hlt
    have hexact : adap.size = needed deploy adap.slave := by
      rw [BitVec.toInt_eq_toNat_of_lt (by rw [BitVec.toNat_ofNat]; omega), BitVec.toNat_ofNat,
        Nat.mod_eq_of_lt (by omega)] at hsize
      omega
    have hpos : 0 < adap.slaveDlen.toNat := by
      rw [hadapDlen]
      bv_omega
    have htiles : deploy.smbus → Tiles Prod.fst Prod.snd adap.slave.controlMemlen.toNat
        (slaveSmbusControlInit adap).buffers adap.size := by
      intro hsmbus
      rw [needed, if_pos hsmbus] at hlt hexact
      rw [buffers_eq (by rw [hadapDlen]; omega), hdata, hexact, Nat.mul_comm 12, ← hadapDlen]
      exact Tiles.equal _ 12 hpos
    refine ⟨hexact.ge, fun hsmbus b hb => ?_, fun hsmbus => ?_⟩
    · obtain ⟨hlow, hhigh, -⟩ := (htiles hsmbus).bounds hb
      exact ⟨hlow, hhigh⟩
    · exact (htiles hsmbus).pairwise.imp fun hab => .inl hab

def idle : Platform where
  slaveList := [⟨"eeprom", 64⟩, ⟨"smbus", 1024⟩]
  busy := false
  platformInit := 0
  kzalloc := fun _ => true
  isrRegister := 0

theorem deploy_memory_smbus :
    MemoryOk ⟨0x105, 256⟩ (fillAdaptWithSlave ⟨0x105, 256⟩ ⟨"smbus", 1024⟩ 4096) ↔
      needed ⟨0x105, 256⟩ ⟨"smbus", 1024⟩ < 2 ^ 31 :=
  deploy_memory idle (by decide) (by decide)

/-- A length of eight bytes more than 32 bits count is accepted and gets eight bytes. -/
theorem deploy_memory_wraps :
    ¬∀ (pl : Platform) (deploy : Kdepl) (adap : Adapter),
      slaveInitialize pl deploy = (0, some adap) → MemoryOk deploy adap := by
  intro hall
  have hok := hall idle ⟨0x85, 0x100000008⟩
    (fillAdaptWithSlave ⟨0x85, 0x100000008⟩ ⟨"eeprom", 64⟩ 72) (by decide)
  have henough := hok.enough
  revert henough
  decide

end HiMpu.I2cSlaveDeploy
