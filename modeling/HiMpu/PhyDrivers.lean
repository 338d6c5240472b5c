import HiMpu.MotorCommPhy

/-!
# The operations of the PHY drivers

`marvel_phy.c`, `reltek_phy.c` and `motor_comm_phy.c`.  The driver of the 88E1512 selects
its pages under a semaphore, the others have none.  Each of them reads a register that it
updates by one call and writes it by another.
-/

namespace HiMpu

def regPhyPage0 : ℕ := 0
def regPhyCtrl : ℕ := 0
def miiCtrlReg : ℕ := 0x00
def miiPhyId0Reg : ℕ := 0x02
def miiPhyId1Reg : ℕ := 0x03
def miiPageAddrReg : ℕ := 0x16
def sgmiiRtlPageReg : ℕ := 0x1f
def maskStatusLink : ℕ := 0x04
def reg1512SpeedDuplex : ℕ := 17
def mask1512Speed : ℕ := 0xc000
def mask1512Duplex : ℕ := 0x2000
def reg1512Status : ℕ := 1
def reg8201Status : ℕ := 1
def fiber1512Page : ℕ := 1
def select8201RmiiMode : ℕ := 2 ^ 3
def disableBroadcastFun : ℕ := 2 ^ 32 - 1 - 2 ^ 13
def mask8211Duplex : ℕ := 2 ^ 3
def phyReset : ℕ := 2 ^ 15
def maskPhyCtrlRestartAutoneg : ℕ := 2 ^ 9
def autoNegotiationEnable : ℕ := 2 ^ 12
def rtl8211LedonValue : ℕ := 0xc00b
def bypassModeStepValue : ℕ := 0xdc88
def phySpeed1000mMode : ℕ := 0x8000
def phySpeed100mMode : ℕ := 0x4000
def phySpeed10mMode : ℕ := 0x0
def identifierYt8521 : ℕ := 0x0000011a
def identifierLowMask : ℕ := 0xFFFF
def phyLinkDown : ℕ := 0
def phyLinkUp : ℕ := 1
def mac10mMii : ℕ := 0
def mac100mMii : ℕ := 1
def mac1000mGmii : ℕ := 2
def mac10mSgmii : ℕ := 6
def mac100mSgmii : ℕ := 7
def mac1000mSgmii : ℕ := 8
def gmacDuplexHalf : ℕ := 0x00
def gmacDuplexFull : ℕ := 0x01

namespace PagedPhy

def ask (c : Call) : Program (Option ℕ) := .call c .done

def update (regNum page : ℕ) (f : ℕ → ℕ) : Program (Option ℕ) :=
  (ask (.read regNum page true)).andThen fun value => ask (.write regNum page (f value) true)

def status {α : Type} (regNum page : ℕ) (f : ℕ → α) : Program (Option α) :=
  (ask (.read regNum page false)).andThen fun value =>
    .done (if value &&& 0xffff = 0xffff then none else some (f value))

def phyResetMar1512 : Program (Option ℕ) := update 20 18 (· ||| 0x8000)

def phy1512CopperSet : Program (Option ℕ) := update miiCtrlReg 0 (· ||| autoNegotiationEnable)

def phy1512FiberSet : Program (Option ℕ) :=
  update miiCtrlReg fiber1512Page (· ||| autoNegotiationEnable)

def phy1512SgmiiModeSet : Program (Option ℕ) := update 20 18 fun value => value &&& 0xFFF8 ||| 1

def phy1512LedctrlSet : Program (Option ℕ) :=
  update 16 3 fun value => value &&& 0xff00 ||| 0x0040

def phy1512Init : Program (Option ℕ) :=
  phyResetMar1512.andThen fun _ => phy1512CopperSet.andThen fun _ =>
    phy1512FiberSet.andThen fun _ => phy1512SgmiiModeSet.andThen fun _ =>
      phyResetMar1512.andThen fun _ => phy1512LedctrlSet

def phy1512Link : Program (Option ℕ) :=
  status reg1512Status regPhyPage0 fun value =>
    if value &&& maskStatusLink = maskStatusLink then phyLinkUp else phyLinkDown

def phy1512GetSpeedDuplex : Program (Option (ℕ × ℕ)) :=
  status reg1512SpeedDuplex regPhyPage0 fun value =>
    (if value &&& mask1512Speed = phySpeed1000mMode then mac1000mSgmii
      else if value &&& mask1512Speed = phySpeed100mMode then mac100mSgmii
      else if value &&& mask1512Speed = phySpeed10mMode then mac10mSgmii
      else mac1000mSgmii,
     if value &&& mask1512Duplex ≠ 0 then gmacDuplexFull else gmacDuplexHalf)

def phy1512RestartAutoneg : Program (Option ℕ) :=
  update regPhyCtrl regPhyPage0 (· ||| maskPhyCtrlRestartAutoneg)

def phy1512Program : Op → Program Unit
  | .init => phy1512Init.void
  | .read regNum page => (ask (.read regNum page false)).void
  | .write regNum page value => (ask (.write regNum page value false)).void
  | .link => phy1512Link.void
  | .getSpeedDuplex => phy1512GetSpeedDuplex.void
  | .restartAutoneg => phy1512RestartAutoneg.void

def phy8211DisableBroadcast : Program Unit := (update 0x18 0xa43 (· &&& disableBroadcastFun)).void

def phyRtl8211BypassMode : Program (Option ℕ) :=
  (ask (.write 0x1b 0xa43 bypassModeStepValue false)).andThen fun _ =>
    (ask (.read 0x1c 0xa43 true)).andThen fun value =>
      (ask (.write 0x1b 0xa43 bypassModeStepValue false)).andThen fun _ =>
        ask (.write 0x1c 0xa43 (value ||| 2 ^ 1) true)

def phyRtl8211LedOn : Program (Option ℕ) :=
  (ask (.write 0x11 0xd04 0x0 false)).andThen fun _ =>
    (ask (.write 0x10 0xd04 rtl8211LedonValue false)).andThen fun _ =>
      ask (.read 0x10 0xd04 false)

def phy8211Init : Program (Option ℕ) :=
  phyRtl8211BypassMode.andThen fun _ =>
    (ask (.write miiCtrlReg 0x0 phyReset false)).andThen fun _ =>
      phy8211DisableBroadcast.bind fun _ =>
        (update miiCtrlReg 0x0 (· ||| autoNegotiationEnable)).andThen fun _ => phyRtl8211LedOn

def phy8211Link : Program (Option ℕ) :=
  status 0x1A 0xa43 fun value =>
    if value &&& maskStatusLink = maskStatusLink then phyLinkUp else phyLinkDown

def phy8211GetSpeedDuplex : Program (Option (ℕ × ℕ)) :=
  status 0x1a 0xa43 fun value =>
    (match value / 2 ^ 4 &&& 0x3 with
      | 0 => mac10mSgmii
      | 1 => mac100mSgmii
      | 2 => mac1000mSgmii
      | _ => mac1000mSgmii,
     if value &&& mask8211Duplex ≠ 0 then gmacDuplexFull else gmacDuplexHalf)

def phyRtl82xxRestartAutoneg : Program (Option ℕ) :=
  update regPhyCtrl regPhyPage0 (· ||| maskPhyCtrlRestartAutoneg)

def phy8211Program : Op → Program Unit
  | .init => phy8211Init.void
  | .read regNum page => (ask (.read regNum page false)).void
  | .write regNum page value => (ask (.write regNum page value false)).void
  | .link => phy8211Link.void
  | .getSpeedDuplex => phy8211GetSpeedDuplex.void
  | .restartAutoneg => phyRtl82xxRestartAutoneg.void

def phy8201Init : Program (Option ℕ) :=
  (ask (.write miiCtrlReg 0x0 phyReset false)).andThen fun _ =>
    (update 16 0x7 (· ||| select8201RmiiMode)).andThen fun _ =>
      (update 20 0x7 (· &&& disableBroadcastFun)).andThen fun _ =>
        update miiCtrlReg 0x0 (· ||| autoNegotiationEnable)

def phy8201Link : Program (Option ℕ) :=
  status reg8201Status 0x0 fun value =>
    if value &&& maskStatusLink = maskStatusLink then phyLinkUp else phyLinkDown

def phy8201GetSpeedDuplex : Program (Option (ℕ × ℕ)) :=
  status 0 0 fun value =>
    (if value.testBit 13 then mac100mMii else mac10mMii,
     if value.testBit 8 then gmacDuplexFull else gmacDuplexHalf)

def phy8201Program : Op → Program Unit
  | .init => phy8201Init.void
  | .read regNum page => (ask (.read regNum page false)).void
  | .write regNum page value => (ask (.write regNum page value false)).void
  | .link => phy8201Link.void
  | .getSpeedDuplex => phy8201GetSpeedDuplex.void
  | .restartAutoneg => phyRtl82xxRestartAutoneg.void

def Updates {α : Type} (b : Bus) (p : Program (Option α)) : Prop :=
  p.wp b.spec (fun r held => r.isSome = true → held = none) none

variable {b : Bus} {α β : Type}

theorem Updates.andThen {p : Program (Option α)} {f : α → Program (Option β)} (hp : Updates b p)
    (hf : ∀ a, Updates b (f a)) : Updates b (p.andThen f) := by
  refine CallProgram.wp_andThen (CallProgram.wp_mono (fun r held hr => ?_) hp)
  cases r with
  | none => exact nofun
  | some a =>
    rw [hr rfl]
    exact hf a

theorem Updates.void {p : Program (Option α)} (hp : Updates b p) :
    p.void.wp b.spec (fun _ _ => True) none :=
  CallProgram.wp_void (CallProgram.wp_mono (fun _ _ _ => trivial) hp)

theorem ask_read (regNum page : ℕ) : Updates b (ask (.read regNum page false)) :=
  ⟨fun hfalse => absurd hfalse Bool.false_ne_true, fun _ _ _ => rfl⟩

theorem ask_write (regNum page value : ℕ) : Updates b (ask (.write regNum page value false)) :=
  ⟨nofun, fun _ _ _ => rfl⟩

theorem status_updates (regNum page : ℕ) (f : ℕ → α) : Updates b (status regNum page f) :=
  (ask_read regNum page).andThen fun _ _ => rfl

theorem update_wp {regNum : ℕ} (hreg : regNum &&& 0x1F ≠ b.pageReg) (page : ℕ) (f : ℕ → ℕ) :
    (update regNum page f).wp b.spec (fun _ held => held = none) none := by
  refine CallProgram.wp_andThen ⟨fun _ => hreg, fun r _ => ?_⟩
  cases r with
  | none => rfl
  | some value => exact ⟨⟨value, rfl⟩, fun _ _ => rfl⟩

theorem update_updates {regNum : ℕ} (hreg : regNum &&& 0x1F ≠ b.pageReg) (page : ℕ) (f : ℕ → ℕ) :
    Updates b (update regNum page f) := by
  refine CallProgram.wp_mono (fun r held hnone => ?_) (update_wp hreg page f)
  exact fun _ => hnone

def phy1512Bus : Bus := ⟨miiPageAddrReg, 0xFF, true⟩

def phyRtl82xxBus : Bus := ⟨sgmiiRtlPageReg, 0xFFFF, false⟩

theorem phy1512_updates (op : Op) :
    (phy1512Program op).wp phy1512Bus.spec (fun _ _ => True) none := by
  have hreset : Updates phy1512Bus phyResetMar1512 := update_updates (by decide) _ _
  cases op with
  | init =>
    exact (hreset.andThen fun _ => (update_updates (by decide) _ _).andThen fun _ =>
      (update_updates (by decide) _ _).andThen fun _ =>
        (update_updates (by decide) _ _).andThen fun _ =>
          hreset.andThen fun _ => update_updates (by decide) _ _).void
  | read regNum page => exact (ask_read regNum page).void
  | write regNum page value => exact (ask_write regNum page value).void
  | link => exact (status_updates _ _ _).void
  | getSpeedDuplex => exact (status_updates _ _ _).void
  | restartAutoneg => exact (update_updates (by decide) _ _).void

theorem phyRtl8211BypassMode_updates : Updates phyRtl82xxBus phyRtl8211BypassMode := by
  refine (ask_write _ _ _).andThen fun _ => CallProgram.wp_andThen ⟨fun _ => ?_, fun r _ => ?_⟩
  · decide
  · cases r with
    | none => exact nofun
    | some value =>
      refine CallProgram.wp_andThen ⟨fun cell v hcell => ?_, fun r _ => ?_⟩
      · cases hcell
        decide
      · cases r with
        | none => exact nofun
        | some _ => exact ⟨⟨value, rfl⟩, fun _ _ _ => rfl⟩

theorem phyRtl8211LedOn_updates : Updates phyRtl82xxBus phyRtl8211LedOn :=
  (ask_write _ _ _).andThen fun _ => (ask_write _ _ _).andThen fun _ => ask_read _ _

theorem phy8211_updates (op : Op) :
    (phy8211Program op).wp phyRtl82xxBus.spec (fun _ _ => True) none := by
  cases op with
  | init =>
    refine (phyRtl8211BypassMode_updates.andThen fun _ => (ask_write _ _ _).andThen fun _ =>
      ?_).void
    refine CallProgram.wp_bind (CallProgram.wp_void
      (CallProgram.wp_mono (fun _ held hnone => ?_) (update_wp (by decide) _ _)))
    rw [hnone]
    exact (update_updates (by decide) _ _).andThen fun _ => phyRtl8211LedOn_updates
  | read regNum page => exact (ask_read regNum page).void
  | write regNum page value => exact (ask_write regNum page value).void
  | link => exact (status_updates _ _ _).void
  | getSpeedDuplex => exact (status_updates _ _ _).void
  | restartAutoneg => exact (update_updates (by decide) _ _).void

theorem phy8201_updates (op : Op) :
    (phy8201Program op).wp phyRtl82xxBus.spec (fun _ _ => True) none := by
  cases op with
  | init =>
    exact ((ask_write _ _ _).andThen fun _ => (update_updates (by decide) _ _).andThen fun _ =>
      (update_updates (by decide) _ _).andThen fun _ => update_updates (by decide) _ _).void
  | read regNum page => exact (ask_read regNum page).void
  | write regNum page value => exact (ask_write regNum page value).void
  | link => exact (status_updates _ _ _).void
  | getSpeedDuplex => exact (status_updates _ _ _).void
  | restartAutoneg => exact (update_updates (by decide) _ _).void

def phy1512Ops : Driver := ⟨phy1512Bus, phy1512Program, phy1512_updates⟩

def phy8211Ops : Driver := ⟨phyRtl82xxBus, phy8211Program, phy8211_updates⟩

def phy8201Ops : Driver := ⟨phyRtl82xxBus, phy8201Program, phy8201_updates⟩

end PagedPhy

namespace MotorCommPhy

open PagedPhy (Op)

def phySpecStatus : ℕ := 0x11
def maskYt85xxSpeed : ℕ := 0xc000
def broadCfgAddr : ℕ := 0xa005
def led0CfgAddr : ℕ := 0xa00c
def led2CfgAddr : ℕ := 0xa00e
def sdsLinkTimerAddr : ℕ := 0xa5
def sdsResetAddr : ℕ := 0x0
def sdsStatusAddr : ℕ := 0x11
def sdsResetBit : ℕ := 2 ^ 15
def sdsRxLpiActiveBit : ℕ := 2 ^ 9

def clearBit6 : ℕ := 2 ^ 32 - 1 - 2 ^ 6

def ask (c : Call) : Program (Option ℕ) := .call c .done

def update (regNum : ℕ) (sds : Bool) (f : ℕ → ℕ) : Program (Option ℕ) :=
  (ask (.read regNum sds true)).andThen fun value => ask (.write regNum sds (f value) true)

/-- An old chip is left in its SDS part. -/
def phyYt8512FixOldVersion : Program (Option ℕ) :=
  (ask (.readExt 0xf false)).andThen fun value =>
    if value = 0x10 ∨ value = 0x12 ∨ value = 0x14 then
      (ask (.writeExt smiSdsPhyAddr sdsAccessMode false)).andThen fun _ =>
        ask (.writeExt 0x3 0x400 false)
    else .done (some 0)

def phyYt8521RecoverExtReg0Val : Program (Option ℕ) :=
  (ask (.readExt 0 false)).andThen fun value =>
    if value = 0x1c8d then .done (some 0)
    else (ask (.writeExt 0 0x1c8d false)).andThen fun _ => update 0 false (· ||| phyReset)

def phyYt8521InitCommon : Program (Option ℕ) :=
  (ask (.readExt broadCfgAddr true)).bind fun value =>
    (ask (.writeExt broadCfgAddr (value.getD 0 &&& clearBit6) value.isSome)).bind fun written =>
      if value = none ∨ written = none then .done none
      else (ask (.writeExt led0CfgAddr 0x1870 false)).andThen fun _ =>
        (ask (.writeExt led2CfgAddr 0x2600 false)).andThen fun _ => phyYt8521RecoverExtReg0Val

def phyYt8521Init : Program (Option ℕ) :=
  phyYt8512FixOldVersion.andThen fun _ =>
    (ask (.writeExt smiSdsPhyAddr sdsAccessMode false)).bind fun first =>
      (ask (.writeExt sdsLinkTimerAddr 0x1f false)).bind fun second =>
        if first = none ∨ second = none then .done none
        else (ask (.writeExt smiSdsPhyAddr phyAccessMode false)).andThen fun _ =>
          phyYt8521InitCommon

def phyYt85xxGetId : Program (Option ℕ) :=
  (ask (.read miiPhyId0Reg false false)).andThen fun high =>
    (ask (.read miiPhyId1Reg false false)).andThen fun low =>
      .done (some (high <<< 16 ||| (low &&& identifierLowMask)))

def checkYt8521PhyId : Program Bool :=
  phyYt85xxGetId.bind fun id => .done (id = some identifierYt8521)

def phyYt8521FixSds : Program (Option ℕ) :=
  (ask (.read sdsStatusAddr true false)).andThen fun value =>
    if value &&& sdsRxLpiActiveBit = 0 then .done (some 0)
    else update sdsResetAddr true (· ||| sdsResetBit)

def phyYt8521FixChipBuf : Program Unit :=
  (ask (.writeExt smiSdsPhyAddr sdsAccessMode false)).bind fun
    | none => .done ()
    | some _ => phyYt8521FixSds.bind fun _ =>
      (ask (.writeExt smiSdsPhyAddr phyAccessMode false)).void

def phyYt85xxLink : Program (Option ℕ) :=
  (ask (.read phySpecStatus false false)).andThen fun value =>
    if value &&& 0xffff = 0xffff then .done none
    else if value.testBit 10 = false then .done (some phyLinkDown)
    else checkYt8521PhyId.bind fun
      | false => .done (some phyLinkUp)
      | true => phyYt8521FixChipBuf.bind fun _ => .done (some phyLinkUp)

def phyYt8521GetSpeedDuplex : Program (Option (ℕ × ℕ)) :=
  (ask (.read phySpecStatus false false)).andThen fun value =>
    .done (if value &&& 0xffff = 0xffff then none else some
      (if value &&& maskYt85xxSpeed = phySpeed1000mMode then mac1000mSgmii
        else if value &&& maskYt85xxSpeed = phySpeed100mMode then mac100mSgmii
        else if value &&& maskYt85xxSpeed = phySpeed10mMode then mac10mSgmii
        else mac1000mSgmii,
       if value.testBit 13 then gmacDuplexFull else gmacDuplexHalf))

def phyYt8512GetSpeedDuplex : Program (Option (ℕ × ℕ)) :=
  (ask (.read phySpecStatus false false)).andThen fun value =>
    .done (some
      (if value &&& maskYt85xxSpeed = phySpeed1000mMode then mac1000mGmii
        else if value &&& maskYt85xxSpeed = phySpeed100mMode then mac100mMii
        else if value &&& maskYt85xxSpeed = phySpeed10mMode then mac10mMii
        else mac100mMii,
       if value.testBit 13 then gmacDuplexFull else gmacDuplexHalf))

def phyYt85xxRestartAutoneg : Program (Option ℕ) :=
  update regPhyCtrl false (· ||| maskPhyCtrlRestartAutoneg)

def phyYt8512Init : Program (Option ℕ) :=
  phyYt85xxRestartAutoneg.andThen fun _ =>
    (ask (.readExt 0 true)).andThen fun value => ask (.writeExt 0 (value &&& clearBit6) true)

def phyYt8521Program : Op → Program Unit
  | .init => phyYt8521Init.void
  | .read regNum _ => (ask (.read regNum false false)).void
  | .write regNum _ value => (ask (.write regNum false value false)).void
  | .link => phyYt85xxLink.void
  | .getSpeedDuplex => phyYt8521GetSpeedDuplex.void
  | .restartAutoneg => phyYt85xxRestartAutoneg.void

def phyYt8512Program : Op → Program Unit
  | .init => phyYt8512Init.void
  | .read regNum _ => (ask (.read regNum false false)).void
  | .write regNum _ value => (ask (.write regNum false value false)).void
  | .link => phyYt85xxLink.void
  | .getSpeedDuplex => phyYt8512GetSpeedDuplex.void
  | .restartAutoneg => phyYt85xxRestartAutoneg.void

def Balanced {α : Type} (inside : Bool) (p : Program α) : Prop :=
  p.wp spec (fun _ t => t = ⟨none, inside⟩) ⟨none, inside⟩

variable {α β : Type} {inside : Bool}

theorem Balanced.bind {p : Program α} {f : α → Program β} (hp : Balanced inside p)
    (hf : ∀ a, Balanced inside (f a)) : Balanced inside (p.bind f) := by
  refine CallProgram.wp_bind (CallProgram.wp_mono (fun a t ht => ?_) hp)
  rw [ht]
  exact hf a

theorem Balanced.andThen {p : Program (Option α)} {f : α → Program (Option β)}
    (hp : Balanced inside p) (hf : ∀ a, Balanced inside (f a)) : Balanced inside (p.andThen f) := by
  refine hp.bind fun r => ?_
  cases r with
  | none => exact rfl
  | some a => exact hf a

theorem Balanced.void {p : Program α} (hp : Balanced inside p) : Balanced inside p.void :=
  hp.bind fun _ => rfl

theorem Balanced.leaves {p : Program α} (hp : Balanced false p) :
    p.wp spec (fun _ t => t.inside = false) ⟨none, false⟩ :=
  CallProgram.wp_mono (fun _ _ ht => congrArg Local.inside ht) hp

theorem done_balanced (a : α) : Balanced inside (.done a) := rfl

theorem ask_read (regNum : ℕ) : Balanced inside (ask (.read regNum inside false)) := by
  refine ⟨⟨fun sds hcell _ => ?_, fun hfalse => absurd hfalse Bool.false_ne_true⟩, fun _ _ => rfl⟩
  cases hcell
  rfl

theorem ask_write (regNum value : ℕ) :
    Balanced inside (ask (.write regNum inside value false)) := by
  refine ⟨⟨fun sds hcell _ => ?_, rfl⟩, fun _ _ => rfl⟩
  cases hcell
  rfl

theorem ask_readExt (regNum : ℕ) : Balanced inside (ask (.readExt regNum false)) :=
  ⟨⟨nofun, fun hfalse => absurd hfalse Bool.false_ne_true⟩, fun _ _ => rfl⟩

theorem ask_writeExt {regNum : ℕ} (hreg : regNum ≠ smiSdsPhyAddr) (value : ℕ) :
    Balanced inside (ask (.writeExt regNum value false)) := by
  refine ⟨⟨nofun, rfl⟩, fun r _ => ?_⟩
  cases r with
  | none => exact rfl
  | some _ =>
    change Local.mk none (if regNum = smiSdsPhyAddr then _ else inside) = ⟨none, inside⟩
    rw [if_neg hreg]

theorem update_balanced {regNum : ℕ} (hreg : Ordinary regNum) (f : ℕ → ℕ) :
    Balanced inside (update regNum inside f) := by
  refine CallProgram.wp_andThen ⟨⟨fun sds hcell _ => ?_, fun _ => hreg⟩, fun r _ => ?_⟩
  · cases hcell
    rfl
  · cases r with
    | none => exact rfl
    | some value =>
      refine ⟨⟨fun sds hcell _ => ?_, value, rfl⟩, fun _ _ => rfl⟩
      cases hcell
      rfl

theorem ask_switch {Q : Option ℕ → Local → Prop} (value : ℕ)
    (hnone : inside = false → Q none ⟨none, inside⟩) (hsome : ∀ v, Q (some v) ⟨none, value.testBit 1⟩) :
    (ask (.writeExt smiSdsPhyAddr value false)).wp spec Q ⟨none, inside⟩ := by
  refine ⟨⟨nofun, rfl⟩, fun r hr => ?_⟩
  cases r with
  | none =>
    refine hnone ?_
    by_contra hin
    rw [Bool.not_eq_false] at hin
    cases hr rfl hin
  | some v => exact hsome v

theorem ordinary_zero : Ordinary 0 := ⟨by decide, by decide⟩

theorem phyYt8521RecoverExtReg0Val_balanced : Balanced false phyYt8521RecoverExtReg0Val := by
  refine (ask_readExt _).andThen fun value => ?_
  split
  · exact rfl
  · exact (ask_writeExt (by decide) _).andThen fun _ => update_balanced ordinary_zero _

theorem phyYt8521InitCommon_balanced : Balanced false phyYt8521InitCommon := by
  have hrest : Balanced false ((ask (.writeExt led0CfgAddr 0x1870 false)).andThen fun _ =>
      (ask (.writeExt led2CfgAddr 0x2600 false)).andThen fun _ => phyYt8521RecoverExtReg0Val) :=
    (ask_writeExt (by decide) _).andThen fun _ => (ask_writeExt (by decide) _).andThen fun _ =>
      phyYt8521RecoverExtReg0Val_balanced
  refine CallProgram.wp_bind ⟨⟨nofun, fun _ => trivial⟩, fun r _ => ?_⟩
  cases r with
  | none => exact CallProgram.wp_bind (CallProgram.wp_mono (fun w t ht => ht) (ask_writeExt (by decide) _))
  | some value =>
    refine CallProgram.wp_bind ⟨⟨nofun, value, rfl⟩, fun r _ => ?_⟩
    cases r with
    | none => exact rfl
    | some _ => exact hrest

theorem phyYt8512FixOldVersion_wp : phyYt8512FixOldVersion.wp spec (fun r t =>
    t.held = none ∧ (r = none → t.inside = false)) ⟨none, false⟩ := by
  refine CallProgram.wp_andThen (CallProgram.wp_mono (fun r t ht => ?_) (ask_readExt 0xf))
  rw [ht]
  cases r with
  | none => exact ⟨rfl, fun _ => rfl⟩
  | some value =>
    change (if _ then _ else _ : Program (Option ℕ)).wp spec _ _
    split
    · refine CallProgram.wp_andThen (ask_switch _ (fun _ => ⟨rfl, fun _ => rfl⟩) fun _ => ?_)
      refine ⟨⟨nofun, rfl⟩, fun r hr => ⟨rfl, fun hnone => ?_⟩⟩
      rw [hnone] at hr
      cases hr rfl rfl
    · exact ⟨rfl, nofun⟩

theorem phyYt8521Init_leaves :
    phyYt8521Init.wp spec (fun _ t => t.inside = false) ⟨none, false⟩ := by
  refine CallProgram.wp_andThen (CallProgram.wp_mono (fun r t ht => ?_) phyYt8512FixOldVersion_wp)
  obtain ⟨held, inside⟩ := t
  obtain ⟨hheld, hinside⟩ := ht
  cases hheld
  cases r with
  | none => exact hinside rfl
  | some _ =>
    refine CallProgram.wp_bind (ask_switch _ (fun hout => ?_) fun _ => ?_)
    · rw [hout]
      exact CallProgram.wp_bind (CallProgram.wp_mono (fun _ t ht => congrArg Local.inside ht)
        (ask_writeExt (by decide) _))
    · have hin : sdsAccessMode.testBit 1 = true := rfl
      rw [hin]
      refine CallProgram.wp_bind ⟨⟨nofun, rfl⟩, fun r hr => ?_⟩
      cases r with
      | none => cases hr rfl rfl
      | some _ =>
        refine CallProgram.wp_andThen (ask_switch _ (fun hout => ?_) fun _ => ?_)
        · cases hout
        · exact phyYt8521InitCommon_balanced.leaves

theorem phyYt85xxGetId_balanced : Balanced false phyYt85xxGetId :=
  (ask_read _).andThen fun _ => (ask_read _).andThen fun _ => done_balanced _

theorem phyYt8521FixSds_balanced : Balanced true phyYt8521FixSds := by
  refine (ask_read _).andThen fun value => ?_
  split
  · exact rfl
  · exact update_balanced ordinary_zero _

theorem phyYt8521FixChipBuf_balanced : Balanced false phyYt8521FixChipBuf := by
  refine CallProgram.wp_bind (ask_switch _ (fun _ => rfl) fun _ => ?_)
  refine CallProgram.wp_bind (CallProgram.wp_mono (fun r t ht => ?_) phyYt8521FixSds_balanced)
  rw [ht]
  refine CallProgram.wp_void (ask_switch _ (fun hout => ?_) fun _ => rfl)
  cases hout

theorem phyYt85xxLink_balanced : Balanced false phyYt85xxLink := by
  refine (ask_read _).andThen fun value => ?_
  split
  · exact rfl
  · split
    · exact rfl
    · refine (phyYt85xxGetId_balanced.bind fun _ => done_balanced _).bind fun same => ?_
      cases same with
      | false => exact rfl
      | true => exact phyYt8521FixChipBuf_balanced.bind fun _ => done_balanced _

theorem phyYt8512Init_balanced : Balanced false phyYt8512Init := by
  refine (update_balanced ordinary_zero _).andThen fun _ =>
    CallProgram.wp_andThen ⟨⟨nofun, fun _ => trivial⟩, fun r _ => ?_⟩
  cases r with
  | none => exact rfl
  | some value =>
    refine ⟨⟨nofun, value, rfl⟩, fun r _ => ?_⟩
    cases r with
    | none => exact rfl
    | some _ => exact rfl

theorem phyYt8521_updates (op : Op) :
    (phyYt8521Program op).wp spec (fun _ t => t.inside = false) ⟨none, false⟩ := by
  cases op with
  | init => exact CallProgram.wp_void phyYt8521Init_leaves
  | read regNum page => exact (ask_read regNum).void.leaves
  | write regNum page value => exact (ask_write regNum value).void.leaves
  | link => exact phyYt85xxLink_balanced.void.leaves
  | getSpeedDuplex => exact ((ask_read _).andThen fun _ => done_balanced _).void.leaves
  | restartAutoneg => exact (update_balanced ordinary_zero _).void.leaves

theorem phyYt8512_updates (op : Op) :
    (phyYt8512Program op).wp spec (fun _ t => t.inside = false) ⟨none, false⟩ := by
  cases op with
  | init => exact phyYt8512Init_balanced.void.leaves
  | read regNum page => exact (ask_read regNum).void.leaves
  | write regNum page value => exact (ask_write regNum value).void.leaves
  | link => exact phyYt85xxLink_balanced.void.leaves
  | getSpeedDuplex => exact ((ask_read _).andThen fun _ => done_balanced _).void.leaves
  | restartAutoneg => exact (update_balanced ordinary_zero _).void.leaves

def phyYt8521Ops : Driver := ⟨phyYt8521Program, phyYt8521_updates⟩

def phyYt8512Ops : Driver := ⟨phyYt8512Program, phyYt8512_updates⟩

end MotorCommPhy

inductive PagedChip where
  | phy1512
  | phy8211
  | phy8201

def PagedChip.ops : PagedChip → PagedPhy.Driver
  | phy1512 => PagedPhy.phy1512Ops
  | phy8211 => PagedPhy.phy8211Ops
  | phy8201 => PagedPhy.phy8201Ops

inductive ExtendedChip where
  | phyYt8521
  | phyYt8512

def ExtendedChip.ops : ExtendedChip → MotorCommPhy.Driver
  | phyYt8521 => MotorCommPhy.phyYt8521Ops
  | phyYt8512 => MotorCommPhy.phyYt8512Ops

/-- With the semaphore of the 88E1512 every access reaches the register that it names.  Without
one, and for the updates of all drivers, this is so as long as no MDIO access of one caller
disturbs another. -/
theorem phyAccesses_exact (paged : PagedChip) (extended : ExtendedChip) :
    (paged.ops.lock = true → ∀ s, paged.ops.system.Reachable s →
      PagedPhy.OnPage paged.ops.toBus s) ∧
    (∀ s, (paged.ops.system.restrict (PagedPhy.Undisturbed paged.ops.toBus)).Reachable s →
      PagedPhy.OnPage paged.ops.toBus s ∧ PagedPhy.NoLostUpdate paged.ops.toBus s) ∧
    ∀ s n s', (extended.ops.system.restrict MotorCommPhy.Undisturbed).Reachable s →
      (extended.ops.system.restrict MotorCommPhy.Undisturbed).step s (.access n) s' →
        MotorCommPhy.Exact s n := by
  refine ⟨fun hlock s hreach => PagedPhy.onPage_of_lock hlock hreach,
    fun s hreach => PagedPhy.onPage_of_undisturbed hreach, fun s n s' hreach hstep => ?_⟩
  exact MotorCommPhy.exact_of_undisturbed hreach hstep.1

/-! One caller alone disturbs nobody, and two of the RTL8211 do. -/

namespace PagedPhy

def fresh : State := ⟨⟨0, fun _ => 0⟩, none, fun _ => .idle⟩

theorem access_caller {s : State} {n m : ℕ} (hm : m ≠ n) :
    (s.access b n).caller m = s.caller m := by
  unfold State.access
  split
  · rfl
  · rfl
  · rfl
  · exact Function.update_of_ne hm _ _
  · exact Function.update_of_ne hm _ _
  · exact Function.update_of_ne hm _ _
  · exact Function.update_of_ne hm _ _

def Alone (n : ℕ) (s : State) : Prop := ∀ m, m ≠ n → s.caller m = .idle

theorem alone_undisturbed {s : State} {n : ℕ} (h : Alone n s) : Undisturbed b s (.access n) := by
  intro m hm
  rw [h m hm]
  exact ⟨fun _ _ _ _ heq => (nomatch heq), fun _ _ _ heq => (nomatch heq)⟩

theorem alone_access {d : Driver} {s : State} {n : ℕ}
    (h : (d.system.restrict (Undisturbed d.toBus)).Reachable s ∧ Alone n s)
    (hvalue : ∀ held regNum page value upd k,
      s.caller n = .busy held (.write regNum page value upd) .access k →
        value ≤ Mdio.mdioMaxWriteValue) :
    (d.system.restrict (Undisturbed d.toBus)).Reachable (s.access d.toBus n) ∧
      Alone n (s.access d.toBus n) := by
  refine ⟨TransitionSystem.Reachable.step (a := .access n) h.1
    ⟨alone_undisturbed h.2, Step.access hvalue⟩, fun m hm => ?_⟩
  rw [access_caller hm]
  exact h.2 m hm

theorem alone_start (d : Driver) (op : Op) :
    (d.system.restrict (Undisturbed d.toBus)).Reachable
        (fresh.move 0 (d.resume none (d.program op))) ∧
      Alone 0 (fresh.move 0 (d.resume none (d.program op))) := by
  have hinit : (d.system.restrict (Undisturbed d.toBus)).Reachable fresh :=
    TransitionSystem.Reachable.init ⟨rfl, fun _ => rfl⟩
  refine ⟨TransitionSystem.Reachable.step (a := .start 0 op) hinit ⟨trivial, Step.start op rfl⟩,
    fun m hm => ?_⟩
  exact Function.update_of_ne hm _ _

def updating : State :=
  (((fresh.move 0 (phy8211Ops.resume none (phy8211Program .restartAutoneg))).access
    phyRtl82xxBus 0).access phyRtl82xxBus 0).access phyRtl82xxBus 0

theorem updating_reachable :
    (phy8211Ops.system.restrict (Undisturbed phy8211Ops.toBus)).Reachable updating := by
  have hchecked := alone_access (alone_start phy8211Ops .restartAutoneg)
    fun _ _ _ _ _ _ heq => (nomatch heq)
  have hread := alone_access hchecked fun _ _ _ _ _ _ heq => (nomatch heq)
  exact (alone_access hread fun _ _ _ _ _ _ heq => (nomatch heq)).1

def State.downed (s : State) (n : ℕ) : State :=
  match s.caller n with
  | .busy held c .enter k => { s with sem := some n }.move n (.busy held c c.first k)
  | _ => s

def lockedWrite : State :=
  ((fresh.move 0 (phy1512Ops.resume none (phy1512Program (.write 3 2 7)))).downed 0).access
    phy1512Bus 0

theorem lockedWrite_reachable : phy1512Ops.system.Reachable lockedWrite := by
  have hstart := (alone_start phy1512Ops (.write 3 2 7)).1.of_restrict
  have hdown := TransitionSystem.Reachable.step hstart (Step.down (n := 0) rfl rfl)
  exact TransitionSystem.Reachable.step hdown
    (Step.access (n := 0) fun _ _ _ _ _ _ heq => (nomatch heq))

def strayWrite : State :=
  ((((fresh.move 1 (phy8211Ops.resume none (phy8211Program (.write 0 0 5)))).move 0
    (phy8211Ops.resume none (phy8211Program .link))).access phyRtl82xxBus 1).access
      phyRtl82xxBus 0).access phyRtl82xxBus 0

theorem strayWrite_reachable : phy8211Ops.system.Reachable strayWrite := by
  have hinit : phy8211Ops.system.Reachable fresh :=
    TransitionSystem.Reachable.init ⟨rfl, fun _ => rfl⟩
  have hwrite := TransitionSystem.Reachable.step hinit (Step.start (n := 1) (.write 0 0 5) rfl)
  have hlink := TransitionSystem.Reachable.step hwrite (Step.start (n := 0) .link rfl)
  have hselected := TransitionSystem.Reachable.step hlink
    (Step.access (n := 1) fun _ _ _ _ _ _ heq => (nomatch heq))
  have hchecked := TransitionSystem.Reachable.step hselected
    (Step.access (n := 0) fun _ _ _ _ _ _ heq => (nomatch heq))
  exact TransitionSystem.Reachable.step hchecked
    (Step.access (n := 0) fun _ _ _ _ _ _ heq => (nomatch heq))

end PagedPhy

namespace MotorCommPhy

def fresh : State := ⟨⟨0, fun _ => 0, fun _ => 0⟩, fun _ => .idle⟩

def linking : State := fresh.move 0 fresh.phy (resume ⟨none, false⟩ (phyYt8521Ops.program .link))

theorem linking_reachable : (phyYt8521Ops.system.restrict Undisturbed).Reachable linking := by
  have hinit : (phyYt8521Ops.system.restrict Undisturbed).Reachable fresh :=
    TransitionSystem.Reachable.init ⟨rfl, fun _ => rfl⟩
  have hstep : (phyYt8521Ops.system.restrict Undisturbed).step fresh (.start 0 .link) linking :=
    ⟨trivial, Step.start .link rfl⟩
  exact TransitionSystem.Reachable.step hinit hstep

theorem linking_step :
    (phyYt8521Ops.system.restrict Undisturbed).step linking (.access 0) (linking.access 0) := by
  have hidle : ∀ m, m ≠ 0 → linking.caller m = .idle := fun m hm => Function.update_of_ne hm _ _
  refine ⟨⟨fun m hm hold => hold, fun t c k _ _ => ⟨rfl, fun _ _ m hm => ?_⟩⟩,
    Step.access fun t c stage k heq => ?_⟩
  · rw [hidle m hm]
    rfl
  · cases heq
    exact (by decide : phySpecStatus ≤ Mdio.mdioCluse22MaxPhyRegAddr)

end MotorCommPhy

theorem phyAccesses_exact_restart :
    PagedPhy.OnPage PagedPhy.phy1512Ops.toBus PagedPhy.lockedWrite ∧
      PagedPhy.NoLostUpdate PagedPhy.phy8211Ops.toBus PagedPhy.updating ∧
      MotorCommPhy.Exact MotorCommPhy.linking 0 := by
  have hlocked := phyAccesses_exact .phy1512 .phyYt8521
  have hfree := phyAccesses_exact .phy8211 .phyYt8521
  exact ⟨hlocked.1 rfl _ PagedPhy.lockedWrite_reachable,
    (hfree.2.1 _ PagedPhy.updating_reachable).2,
    hlocked.2.2 _ _ _ MotorCommPhy.linking_reachable MotorCommPhy.linking_step⟩

/-- The link poll selects its page between the two accesses of a write to page 0. -/
theorem strayWrite_wrong : ¬ ∀ (chip : PagedChip) (s : PagedPhy.State),
    chip.ops.system.Reachable s →
      PagedPhy.OnPage chip.ops.toBus s ∧ PagedPhy.NoLostUpdate chip.ops.toBus s := by
  intro hall
  have honPage := (hall .phy8211 _ PagedPhy.strayWrite_reachable).1
  have hwrite := honPage.write 1 none (.write 0 0 5 false) _ rfl 5
  have hcell := congrArg (fun phy => PagedPhy.Phy.cells phy (0, 0)) hwrite
  exact absurd hcell (by decide)

end HiMpu
