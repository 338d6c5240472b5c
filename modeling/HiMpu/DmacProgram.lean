import HiMpu.BitFields
import HiMpu.Dmac

/-!
# What a channel of the DMA controller is told to do

`bm_dmac_transmit_config` and `bm_dmac_channel_config`: the registers of a channel as the
request of a caller is put into them, and the transfer that the controller reads out of
them.  The length goes through a field of nineteen bits, and the addresses of memory are
made relative to the base that `LPSC_ADDR_EXTEND1` and `LPSC_ADDR_SEL` select.
-/

namespace HiMpu.Dmac

open BitFields

/-- The registers of the controller and of the subsystem around it, by their offsets. -/
structure Regs where
  dmac : ℕ → ℕ
  lpSubsys : ℕ → ℕ

def dmacItcMaskInt1 : ℕ := 0x4
def dmacIeMaskInt1 : ℕ := 0x8
def dmacIntTcClr : ℕ := 0x3C
def dmacIntErrClr : ℕ := 0x40
def dmacSrcAddrL (channelId : ℕ) : ℕ := 0x100 + channelId * 0x10
def dmacDestAddrL (channelId : ℕ) : ℕ := 0x104 + channelId * 0x10
def dmacLliAddr (channelId : ℕ) : ℕ := 0x108 + channelId * 0x10
def dmacControlAddr (channelId : ℕ) : ℕ := 0x10C + channelId * 0x10
def dmacConfigAddr (channelId : ℕ) : ℕ := 0x300 + channelId * 0x4
def lpscAddrSel : ℕ := 0x0
def lpscAddrExtend1 : ℕ := 0x25C
def dmacReqSel0Addr (dmaId : ℕ) : ℕ := 0x6C + dmaId * 0x4

def dmacPeripheralId (id : ℕ) : ℕ := if 31 < id then id % 32 else id

def dmacWritel (r : Regs) (val addr : ℕ) : Regs :=
  { r with dmac := Function.update r.dmac addr val }

def bmLpSubsysRegWrite (r : Regs) (offset val : ℕ) : Regs :=
  { r with lpSubsys := Function.update r.lpSubsys offset val }

structure CmLli where
  nextllien : ℕ
  lli : ℕ

def CmLli.value (c : CmLli) : ℕ :=
  pack [(1, 0), (1, c.nextllien), (30, c.lli)]

structure CmControl where
  transfersize : ℕ
  sburstLength : ℕ
  dburstLength : ℕ
  si : ℕ
  di : ℕ
  protectionPri : ℕ
  protectionBuf : ℕ
  protectionCache : ℕ

def CmControl.value (c : CmControl) : ℕ :=
  pack [(19, c.transfersize), (4, c.sburstLength), (4, c.dburstLength), (1, c.si), (1, c.di),
    (1, c.protectionPri), (1, c.protectionBuf), (1, c.protectionCache)]

structure CmConfig where
  ce : ℕ
  srcperipheral : ℕ
  destperipheral : ℕ
  flowctrl : ℕ
  swidth : ℕ
  dwidth : ℕ
  destinationEndianness : ℕ
  sourceEndianness : ℕ
  itcInten : ℕ

/-- The fields that the driver never assigns are zero. -/
def CmConfig.value (c : CmConfig) : ℕ :=
  pack [(1, c.ce), (6, c.srcperipheral), (6, c.destperipheral), (3, c.flowctrl), (2, c.swidth),
    (1, 0), (2, c.dwidth), (1, 0), (1, 0), (1, 0), (1, 0), (1, c.destinationEndianness),
    (1, c.sourceEndianness), (1, 0), (3, 0), (1, c.itcInten)]

structure LocalChannelCfg where
  srcReq : ℕ
  destReq : ℕ
  srcAddr : ℕ
  destAddr : ℕ

structure RegInfo where
  cmlli : CmLli
  cmcontrol : CmControl
  cmconfig : CmConfig
  localCfg : LocalChannelCfg

def bmDmacCommonTemplate (cfg : ChannelCfg) : CmControl × CmConfig × CmLli :=
  (⟨cfg.dataLen, 0, 0, 0, 0, 0, 0, 0⟩, ⟨0, 0, 0, 0, 0, 0, 0, 0, 0⟩, ⟨0, 0⟩)

def bmDmacTransmitConfig (cfg : ChannelCfg) : RegInfo :=
  let (control, config, lli) := bmDmacCommonTemplate cfg
  match cfg.transType with
  | .m2m =>
    ⟨lli, { control with si := 1, di := 1 },
      { config with
        srcperipheral := 0, destperipheral := 0, flowctrl := 0, swidth := 0, dwidth := 0 },
      ⟨0, 0, cfg.srcAddr, cfg.destAddr⟩⟩
  | .m2p =>
    ⟨lli, { control with si := 1, di := 0 },
      { config with
        srcperipheral := 0, destperipheral := dmacPeripheralId cfg.req, flowctrl := 1
        swidth := 0, dwidth := 0 },
      ⟨0, cfg.req, cfg.srcAddr, cfg.destAddr⟩⟩
  | .p2m =>
    ⟨lli, { control with si := 0, di := 1 },
      { config with
        srcperipheral := dmacPeripheralId cfg.req, destperipheral := 0, flowctrl := 2
        swidth := 0, dwidth := 0 },
      ⟨cfg.req, 0, cfg.srcAddr, cfg.destAddr⟩⟩
  | .butt => ⟨lli, control, config, ⟨0, 0, cfg.srcAddr, cfg.destAddr⟩⟩

inductive Direction where
  | read
  | write
deriving DecidableEq

def Regs.remapMode (r : Regs) : ℕ :=
  get (r.lpSubsys lpscAddrExtend1) 8 2

def Regs.addrOffset (r : Regs) : Direction → ℕ
  | .read => get (r.lpSubsys lpscAddrExtend1) 4 4
  | .write => get (r.lpSubsys lpscAddrExtend1) 0 4

def Regs.addrSel (r : Regs) : Direction → ℕ
  | .read => get (r.lpSubsys lpscAddrSel) 28 2
  | .write => get (r.lpSubsys lpscAddrSel) 26 2

def bmDmacGetDdrRelativeAddr (r : Regs) (phyAddr : ℕ) (type : Direction) : ℕ :=
  -- both shifts are of 64 bits and are assigned to an unsigned int
  let dmacAddr :=
    match r.remapMode with
    | 1 => (r.addrOffset type <<< 28) % 2 ^ 32
    | 2 => (r.addrSel type <<< 32) % 2 ^ 32
    | _ => 0
  if phyAddr < dmacAddr then phyAddr else phyAddr - dmacAddr

def bmDmacCmaddrConfig (r : Regs) (channel : ℕ) (info : RegInfo) : Regs :=
  let cfg := info.localCfg
  let r := bmLpSubsysRegWrite r (dmacReqSel0Addr (dmacPeripheralId cfg.srcReq)) cfg.srcReq
  let r := bmLpSubsysRegWrite r (dmacReqSel0Addr (dmacPeripheralId cfg.destReq)) cfg.destReq
  let srcDmaAddr :=
    if info.cmconfig.flowctrl = 0 ∨ info.cmconfig.flowctrl = 1 then
      bmDmacGetDdrRelativeAddr r cfg.srcAddr .read
    else cfg.srcAddr
  let destDmaAddr :=
    if info.cmconfig.flowctrl = 0 ∨ info.cmconfig.flowctrl = 2 then
      bmDmacGetDdrRelativeAddr r cfg.destAddr .write
    else cfg.destAddr
  dmacWritel (dmacWritel r srcDmaAddr (dmacSrcAddrL channel)) destDmaAddr (dmacDestAddrL channel)

/-- The lower half of either word is replaced by the bit of the channel. -/
def bmDmacTransmissionIntClean (r : Regs) (channel : ℕ) : Regs :=
  let r := dmacWritel r (pack [(16, 2 ^ channel), (16, get (r.dmac dmacIntTcClr) 16 16)])
    dmacIntTcClr
  dmacWritel r (pack [(16, 2 ^ channel), (16, get (r.dmac dmacIntErrClr) 16 16)]) dmacIntErrClr

def bmDmacChannelIntEnable (r : Regs) (channel : ℕ) : Regs :=
  let itc := r.dmac dmacItcMaskInt1 ||| 1 <<< channel
  let ie := r.dmac dmacIeMaskInt1 ||| 1 <<< channel
  dmacWritel (dmacWritel r itc dmacItcMaskInt1) ie dmacIeMaskInt1

def bmDmacChannelConfig (r : Regs) (idle : Option (Fin dmacChannelCnt)) (info : RegInfo) :
    Regs × ℤ :=
  match idle with
  | none => (r, bmFail)
  | some channel =>
    let r := bmDmacTransmissionIntClean r channel
    let r := bmDmacCmaddrConfig r channel info
    let r := bmDmacChannelIntEnable r channel
    let r := dmacWritel r info.cmlli.value (dmacLliAddr channel)
    let r := dmacWritel r info.cmcontrol.value (dmacControlAddr channel)
    let r := dmacWritel r info.cmconfig.value (dmacConfigAddr channel)
    (r, channel)

def Regs.remapBase (r : Regs) (type : Direction) : ℕ :=
  match r.remapMode with
  | 1 => r.addrOffset type * 2 ^ 28
  | 2 => r.addrSel type * 2 ^ 32
  | _ => 0

def Regs.transfersize (r : Regs) (channel : ℕ) : ℕ :=
  get (r.dmac (dmacControlAddr channel)) 0 19

def ChannelCfg.fromMemory (cfg : ChannelCfg) : Prop := cfg.transType ≠ .p2m
def ChannelCfg.toMemory (cfg : ChannelCfg) : Prop := cfg.transType ≠ .m2p

instance (cfg : ChannelCfg) : Decidable cfg.fromMemory := inferInstanceAs (Decidable (¬ _))
instance (cfg : ChannelCfg) : Decidable cfg.toMemory := inferInstanceAs (Decidable (¬ _))

/-- Where the controller goes for what an address register holds.  Whether the base is
added for a peripheral as well is not said; `always` is that it is. -/
def Regs.hardwareAddr (r : Regs) (always : Bool) (type : Direction) (memory : Prop)
    [Decidable memory] (reg : ℕ) : ℕ :=
  reg + if memory ∨ always = true then r.remapBase type else 0

/-- The channel is told to move the bytes that were asked for, from where and to where
they were asked for. -/
structure Faithful (always : Bool) (cfg : ChannelCfg) (r : Regs) (channel : ℕ) : Prop where
  length : r.transfersize channel = cfg.dataLen
  widths : get (r.dmac (dmacConfigAddr channel)) 16 2 = 0 ∧
    get (r.dmac (dmacConfigAddr channel)) 19 2 = 0
  steps : get (r.dmac (dmacControlAddr channel)) 27 1 = (if cfg.fromMemory then 1 else 0) ∧
    get (r.dmac (dmacControlAddr channel)) 28 1 = (if cfg.toMemory then 1 else 0)
  source : r.hardwareAddr always .read cfg.fromMemory (r.dmac (dmacSrcAddrL channel)) =
    cfg.srcAddr
  destination : r.hardwareAddr always .write cfg.toMemory (r.dmac (dmacDestAddrL channel)) =
    cfg.destAddr

def Regs.Reaches (r : Regs) (always : Bool) (type : Direction) (memory : Prop)
    [Decidable memory] (addr : ℕ) : Prop :=
  if memory then r.remapBase type ≤ addr ∧ r.remapBase type < 2 ^ 32
  else always = true → r.remapBase type = 0

variable {r : Regs} {cfg : ChannelCfg} {type : Direction} {always : Bool} {addr : ℕ} {memory : Prop}
  [Decidable memory]

theorem bmDmacGetDdrRelativeAddr_eq :
    bmDmacGetDdrRelativeAddr r addr type =
      if addr < r.remapBase type % 2 ^ 32 then addr else addr - r.remapBase type % 2 ^ 32 := by
  unfold bmDmacGetDdrRelativeAddr Regs.remapBase
  simp only [Nat.shiftLeft_eq]
  split <;> rfl

theorem relativeAddr_reaches_iff :
    bmDmacGetDdrRelativeAddr r addr type + r.remapBase type = addr ↔
      r.remapBase type ≤ addr ∧ r.remapBase type < 2 ^ 32 := by
  rw [bmDmacGetDdrRelativeAddr_eq]
  -- a base of 32 bits or more is a multiple of 2^32, and none is left of it
  by_cases hlow : r.remapBase type < 2 ^ 32
  · rw [Nat.mod_eq_of_lt hlow]
    split <;> omega
  · split <;> omega

theorem hardwareAddr_eq_iff :
    r.hardwareAddr always type memory
        (if memory then bmDmacGetDdrRelativeAddr r addr type else addr) = addr ↔
      r.Reaches always type memory addr := by
  unfold Regs.hardwareAddr Regs.Reaches
  by_cases hmem : memory
  · simp only [hmem, if_true, true_or]
    exact relativeAddr_reaches_iff
  · simp only [hmem, if_false, false_or]
    split
    next halways => simp [halways]
    next halways => simp [halways]

theorem dmacPeripheralId_lt (id : ℕ) : dmacPeripheralId id < 32 := by
  unfold dmacPeripheralId
  split <;> omega

theorem lpSubsys_reqSel {id val offset : ℕ}
    (hoffset : offset = lpscAddrSel ∨ offset = lpscAddrExtend1) :
    (bmLpSubsysRegWrite r (dmacReqSel0Addr (dmacPeripheralId id)) val).lpSubsys offset =
      r.lpSubsys offset := by
  have hid := dmacPeripheralId_lt id
  apply Function.update_of_ne
  simp only [lpscAddrSel, lpscAddrExtend1, dmacReqSel0Addr] at *
  omega

structure SameRemap (r r' : Regs) : Prop where
  sel : r'.lpSubsys lpscAddrSel = r.lpSubsys lpscAddrSel
  extend1 : r'.lpSubsys lpscAddrExtend1 = r.lpSubsys lpscAddrExtend1

theorem SameRemap.remapBase {r' : Regs} (h : SameRemap r r') (type : Direction) :
    r'.remapBase type = r.remapBase type := by
  cases type <;>
    simp only [Regs.remapBase, Regs.remapMode, Regs.addrOffset, Regs.addrSel, h.sel, h.extend1]

theorem SameRemap.relativeAddr {r' : Regs} (h : SameRemap r r') (addr : ℕ) (type : Direction) :
    bmDmacGetDdrRelativeAddr r' addr type = bmDmacGetDdrRelativeAddr r addr type := by
  rw [bmDmacGetDdrRelativeAddr_eq, bmDmacGetDdrRelativeAddr_eq, h.remapBase]

theorem SameRemap.reaches {r' : Regs} (h : SameRemap r r') :
    r'.Reaches always type memory addr ↔ r.Reaches always type memory addr := by
  simp only [Regs.Reaches, h.remapBase]

structure Configured (r r' : Regs) (channel : ℕ) (info : RegInfo) : Prop where
  control : r'.dmac (dmacControlAddr channel) = info.cmcontrol.value
  config : r'.dmac (dmacConfigAddr channel) = info.cmconfig.value
  source : r'.dmac (dmacSrcAddrL channel) =
    if info.cmconfig.flowctrl = 0 ∨ info.cmconfig.flowctrl = 1 then
      bmDmacGetDdrRelativeAddr r info.localCfg.srcAddr .read
    else info.localCfg.srcAddr
  destination : r'.dmac (dmacDestAddrL channel) =
    if info.cmconfig.flowctrl = 0 ∨ info.cmconfig.flowctrl = 2 then
      bmDmacGetDdrRelativeAddr r info.localCfg.destAddr .write
    else info.localCfg.destAddr
  remap : SameRemap r r'

theorem bmDmacChannelConfig_configured (r : Regs) (channel : Fin dmacChannelCnt)
    (info : RegInfo) :
    Configured r (bmDmacChannelConfig r (some channel) info).1 channel info := by
  have hchannel : channel.val < 16 := channel.isLt
  have hreq : SameRemap r (bmLpSubsysRegWrite
      (bmLpSubsysRegWrite (bmDmacTransmissionIntClean r channel)
        (dmacReqSel0Addr (dmacPeripheralId info.localCfg.srcReq)) info.localCfg.srcReq)
      (dmacReqSel0Addr (dmacPeripheralId info.localCfg.destReq)) info.localCfg.destReq) := by
    refine ⟨?_, ?_⟩
    · rw [lpSubsys_reqSel (Or.inl rfl), lpSubsys_reqSel (Or.inl rfl)]
      rfl
    · rw [lpSubsys_reqSel (Or.inr rfl), lpSubsys_reqSel (Or.inr rfl)]
      rfl
  refine ⟨?_, ?_, ?_, ?_, hreq.sel, hreq.extend1⟩
  · have hne : dmacControlAddr channel ≠ dmacConfigAddr channel := by
      unfold dmacControlAddr dmacConfigAddr
      omega
    exact (Function.update_of_ne hne _ _).trans (Function.update_self _ _ _)
  · exact Function.update_self _ _ _
  · rw [← hreq.relativeAddr info.localCfg.srcAddr .read]
    have hothers : ∀ x ∈ [dmacConfigAddr channel, dmacControlAddr channel, dmacLliAddr channel,
        dmacIeMaskInt1, dmacItcMaskInt1, dmacDestAddrL channel], dmacSrcAddrL channel ≠ x := by
      simp only [List.forall_mem_cons, dmacConfigAddr, dmacControlAddr, dmacLliAddr,
        dmacIeMaskInt1, dmacItcMaskInt1, dmacDestAddrL, dmacSrcAddrL]
      refine ⟨by omega, by omega, by omega, by omega, by omega, by omega, by simp⟩
    simp only [List.forall_mem_cons] at hothers
    obtain ⟨h1, h2, h3, h4, h5, h6, -⟩ := hothers
    simp only [bmDmacChannelConfig, bmDmacChannelIntEnable, bmDmacCmaddrConfig, dmacWritel,
      Function.update_of_ne h1, Function.update_of_ne h2, Function.update_of_ne h3,
      Function.update_of_ne h4, Function.update_of_ne h5, Function.update_of_ne h6,
      Function.update_self]
  · rw [← hreq.relativeAddr info.localCfg.destAddr .write]
    have hothers : ∀ x ∈ [dmacConfigAddr channel, dmacControlAddr channel, dmacLliAddr channel,
        dmacIeMaskInt1, dmacItcMaskInt1], dmacDestAddrL channel ≠ x := by
      simp only [List.forall_mem_cons, dmacConfigAddr, dmacControlAddr, dmacLliAddr,
        dmacIeMaskInt1, dmacItcMaskInt1, dmacDestAddrL]
      refine ⟨by omega, by omega, by omega, by omega, by omega, by simp⟩
    simp only [List.forall_mem_cons] at hothers
    obtain ⟨h1, h2, h3, h4, h5, -⟩ := hothers
    simp only [bmDmacChannelConfig, bmDmacChannelIntEnable, bmDmacCmaddrConfig, dmacWritel,
      Function.update_of_ne h1, Function.update_of_ne h2, Function.update_of_ne h3,
      Function.update_of_ne h4, Function.update_of_ne h5, Function.update_self]

theorem transType_of_accepted {B : Board} (hok : bmDmacChannelCfgCheck B (some cfg) = bmOk) :
    cfg.transType ≠ .butt := by
  intro hbutt
  have hne : bmFail ≠ bmOk := by decide
  unfold bmDmacChannelCfgCheck at hok
  simp only [hbutt, ite_self] at hok
  exact hne hok

structure Carries (cfg : ChannelCfg) (info : RegInfo) : Prop where
  size : get info.cmcontrol.value 0 19 = cfg.dataLen % 2 ^ 19
  widths : get info.cmconfig.value 16 2 = 0 ∧ get info.cmconfig.value 19 2 = 0
  steps : get info.cmcontrol.value 27 1 = (if cfg.fromMemory then 1 else 0) ∧
    get info.cmcontrol.value 28 1 = (if cfg.toMemory then 1 else 0)
  fromMemory : (info.cmconfig.flowctrl = 0 ∨ info.cmconfig.flowctrl = 1) ↔ cfg.fromMemory
  toMemory : (info.cmconfig.flowctrl = 0 ∨ info.cmconfig.flowctrl = 2) ↔ cfg.toMemory
  addrs : info.localCfg.srcAddr = cfg.srcAddr ∧ info.localCfg.destAddr = cfg.destAddr

theorem CmControl.get_value (c : CmControl) :
    get c.value 0 19 = c.transfersize % 2 ^ 19 ∧ get c.value 27 1 = c.si % 2 ∧
      get c.value 28 1 = c.di % 2 :=
  ⟨get_pack [] _ 19 _, get_pack [(19, _), (4, _), (4, _)] _ 1 _,
    get_pack [(19, _), (4, _), (4, _), (1, _)] _ 1 _⟩

theorem CmConfig.get_value (c : CmConfig) :
    get c.value 16 2 = c.swidth % 4 ∧ get c.value 19 2 = c.dwidth % 4 :=
  ⟨get_pack [(1, _), (6, _), (6, _), (3, _)] _ 2 _,
    get_pack [(1, _), (6, _), (6, _), (3, _), (2, _), (1, _)] _ 2 _⟩

theorem bmDmacTransmitConfig_carries (htype : cfg.transType ≠ .butt) :
    Carries cfg (bmDmacTransmitConfig cfg) := by
  obtain ⟨hsize, hsi, hdi⟩ := (bmDmacTransmitConfig cfg).cmcontrol.get_value
  obtain ⟨hswidth, hdwidth⟩ := (bmDmacTransmitConfig cfg).cmconfig.get_value
  cases hcase : cfg.transType with
  | butt => exact absurd hcase htype
  | m2m | m2p | p2m =>
    simp only [bmDmacTransmitConfig, bmDmacCommonTemplate, hcase]
      at hsize hsi hdi hswidth hdwidth ⊢
    refine ⟨hsize, ⟨hswidth, hdwidth⟩, ⟨hsi.trans ?_, hdi.trans ?_⟩, ?_, ?_, rfl, rfl⟩ <;>
      simp [ChannelCfg.fromMemory, ChannelCfg.toMemory, hcase]

/-- An accepted request is programmed as it was made, if and only if its length fits in
the field and the selected bases let the controller reach its addresses. -/
theorem bmDmacChannelConfig_faithful_iff (B : Board) (cfg : ChannelCfg) (always : Bool)
    (r : Regs) (channel : Fin dmacChannelCnt)
    (hok : bmDmacChannelCfgCheck B (some cfg) = bmOk) :
    Faithful always cfg (bmDmacChannelConfig r (some channel) (bmDmacTransmitConfig cfg)).1
        channel ↔
      cfg.dataLen < 2 ^ 19 ∧ r.Reaches always .read cfg.fromMemory cfg.srcAddr ∧
        r.Reaches always .write cfg.toMemory cfg.destAddr := by
  have hcarries := bmDmacTransmitConfig_carries (transType_of_accepted hok)
  have hregs := bmDmacChannelConfig_configured r channel (bmDmacTransmitConfig cfg)
  generalize (bmDmacChannelConfig r (some channel) (bmDmacTransmitConfig cfg)).1 = r' at *
  generalize bmDmacTransmitConfig cfg = info at *
  obtain ⟨hsrc, hdest⟩ := hcarries.addrs
  have hlength : r'.transfersize channel = cfg.dataLen ↔ cfg.dataLen < 2 ^ 19 := by
    rw [Regs.transfersize, hregs.control, hcarries.size]
    omega
  have hsource : r'.dmac (dmacSrcAddrL channel) =
      if cfg.fromMemory then bmDmacGetDdrRelativeAddr r' cfg.srcAddr .read
      else cfg.srcAddr := by
    rw [hregs.source, hsrc, hregs.remap.relativeAddr]
    simp only [hcarries.fromMemory]
  have hdestination : r'.dmac (dmacDestAddrL channel) =
      if cfg.toMemory then bmDmacGetDdrRelativeAddr r' cfg.destAddr .write
      else cfg.destAddr := by
    rw [hregs.destination, hdest, hregs.remap.relativeAddr]
    simp only [hcarries.toMemory]
  constructor
  · intro hfaithful
    have hread := hfaithful.source
    have hwrite := hfaithful.destination
    rw [hsource, hardwareAddr_eq_iff, hregs.remap.reaches] at hread
    rw [hdestination, hardwareAddr_eq_iff, hregs.remap.reaches] at hwrite
    exact ⟨hlength.mp hfaithful.length, hread, hwrite⟩
  · rintro ⟨hfits, hread, hwrite⟩
    refine ⟨hlength.mpr hfits, ?_, ?_, ?_, ?_⟩
    · rw [hregs.config]
      exact hcarries.widths
    · rw [hregs.control]
      exact hcarries.steps
    · rw [hsource, hardwareAddr_eq_iff, hregs.remap.reaches]
      exact hread
    · rw [hdestination, hardwareAddr_eq_iff, hregs.remap.reaches]
      exact hwrite

def unprotected : Board where
  exist := fun _ => true
  invalidAddrLen := fun _ _ => false

def shortMessage : ChannelCfg :=
  ⟨6, 0x90000000, 0x08710000, 64, .m2p⟩

def readsRemapped : Regs where
  dmac := fun _ => 0
  lpSubsys := Function.update (fun _ => 0) lpscAddrExtend1 0x180

theorem bmDmacChannelConfig_faithful_short :
    bmDmacChannelCfgCheck unprotected (some shortMessage) = bmOk ∧
      Faithful false shortMessage
        (bmDmacChannelConfig readsRemapped (some ⟨3, by decide⟩)
          (bmDmacTransmitConfig shortMessage)).1 3 := by
  have hok : bmDmacChannelCfgCheck unprotected (some shortMessage) = bmOk := by decide
  refine ⟨hok, (bmDmacChannelConfig_faithful_iff unprotected shortMessage false readsRemapped
    ⟨3, by decide⟩ hok).mpr ⟨by decide, ?_, ?_⟩⟩
  · have hbase : readsRemapped.remapBase .read = 0x80000000 := by decide
    have hmemory : shortMessage.fromMemory := by decide
    rw [Regs.Reaches, if_pos hmemory, hbase]
    decide
  · have hmemory : ¬ shortMessage.toMemory := by decide
    rw [Regs.Reaches, if_neg hmemory]
    decide

def longMessage : ChannelCfg :=
  ⟨6, 0x90000000, 0x08710000, 2 ^ 19, .m2p⟩

/-- The request is accepted, and the channel is told to move no byte at all. -/
theorem longMessage_unfaithful :
    bmDmacChannelCfgCheck unprotected (some longMessage) = bmOk ∧
      ¬ Faithful false longMessage
        (bmDmacChannelConfig readsRemapped (some ⟨3, by decide⟩)
          (bmDmacTransmitConfig longMessage)).1 3 := by
  refine ⟨by decide, fun hfaithful => ?_⟩
  have hlength := hfaithful.length
  have hcontrol := (bmDmacChannelConfig_configured readsRemapped ⟨3, by decide⟩
    (bmDmacTransmitConfig longMessage)).control
  rw [Regs.transfersize, hcontrol, (CmControl.get_value _).1] at hlength
  exact absurd hlength (by decide)

end HiMpu.Dmac
