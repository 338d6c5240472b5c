import HiMpu.StatusBytes

/-!
# The PCIe host controller

Registers and configuration accesses of `pcie_host/pcie_hisi02.c` and
`pcie_host/pcie_framework.c`.  The controller shows its own configuration
space, the root port, through the slave interface while that interface is in
DBI mode; with DBI mode off, the configuration windows lead through outbound
region 1 to the functions below the root port.
-/

namespace HiMpu.Pcie

structure AtuRegion where
  lowerBase : ℕ
  upperBase : ℕ
  limit : ℕ
  lowerTarget : ℕ
  upperTarget : ℕ
  cr1 : ℕ
  cr2 : ℕ
  deriving DecidableEq, Repr

structure Bdf where
  bus : ℕ
  dev : ℕ
  func : ℕ
  deriving DecidableEq, Repr

structure Hw where
  /-- `PCIE_CTRL0` and `PCIE_CTRL1`, the write and the read side of the slave interface. -/
  ctrl0 : BitVec 32
  ctrl1 : BitVec 32
  rc : Mem
  viewport : ℕ
  atu : ℕ → AtuRegion
  fn : Bdf → Mem

/-- What the devices are: their write-one-to-clear bits, and the bus numbers that lie directly
below the root port. -/
structure Fabric where
  rcStatus : ℕ → UInt8
  fnStatus : Bdf → ℕ → UInt8
  direct : ℕ → Bool

def pcieScSlvDbiEnable : BitVec 32 := 1#32 <<< 21

def hip02PcieAtuViewport : ℕ := 0x900
def hip02PcieAtuCr1 : ℕ := 0x904
def hip02PcieAtuCr2 : ℕ := 0x908
def hip02PcieAtuLowerBase : ℕ := 0x90C
def hip02PcieAtuUpperBase : ℕ := 0x910
def hip02PcieAtuLimit : ℕ := 0x914
def hip02PcieAtuLowerTarget : ℕ := 0x918
def hip02PcieAtuUpperTarget : ℕ := 0x91C

def hip02PcieAtuTypeMem : ℕ := 0
def hip02PcieAtuTypeIo : ℕ := 2
def hip02PcieAtuTypeCfg0 : ℕ := 4
def hip02PcieAtuTypeCfg1 : ℕ := 5
def hip02PcieAtuEnable : ℕ := 1 <<< 31

def AtuRegion.set (r : AtuRegion) (reg val : ℕ) : AtuRegion :=
  if reg = hip02PcieAtuCr1 then { r with cr1 := val }
  else if reg = hip02PcieAtuCr2 then { r with cr2 := val }
  else if reg = hip02PcieAtuLowerBase then { r with lowerBase := val }
  else if reg = hip02PcieAtuUpperBase then { r with upperBase := val }
  else if reg = hip02PcieAtuLimit then { r with limit := val }
  else if reg = hip02PcieAtuLowerTarget then { r with lowerTarget := val }
  else if reg = hip02PcieAtuUpperTarget then { r with upperTarget := val }
  else r

/-- A 32-bit write to the root port's registers; the viewport selects the region that the
registers behind it belong to. -/
def Hw.writeRc (F : Fabric) (c : Hw) (reg val : ℕ) : Hw :=
  { c with
    rc := c.rc.storeStatus F.rcStatus reg 4 val
    viewport := if reg = hip02PcieAtuViewport then val else c.viewport
    atu := Function.update c.atu c.viewport ((c.atu c.viewport).set reg val) }

/-- The slave interface is in DBI mode for neither direction. -/
def Hw.NonDbi (c : Hw) : Prop :=
  c.ctrl0.getLsbD 21 = false ∧ c.ctrl1.getLsbD 21 = false

instance (c : Hw) : Decidable c.NonDbi := by
  unfold Hw.NonDbi
  infer_instance

def Hw.dmStore (F : Fabric) (c : Hw) (reg val : ℕ) : Hw :=
  if c.ctrl0.getLsbD 21 then c.writeRc F reg val else c

def Hw.dmLoad (c : Hw) (reg : ℕ) : ℕ :=
  if c.ctrl1.getLsbD 21 then c.rc.load reg 4 else 0xffffffff

def AtuRegion.base (r : AtuRegion) : ℕ := r.lowerBase + 2 ^ 32 * r.upperBase

def AtuRegion.target (r : AtuRegion) : ℕ := r.lowerTarget + 2 ^ 32 * r.upperTarget

/-- An enabled region translates from its base to the address with the same upper word and the
programmed limit. -/
def AtuRegion.Translates (r : AtuRegion) (addr : ℕ) : Prop :=
  r.cr2.testBit 31 = true ∧ r.base ≤ addr ∧ addr ≤ r.limit + 2 ^ 32 * r.upperBase

instance (r : AtuRegion) (addr : ℕ) : Decidable (r.Translates addr) := by
  unfold AtuRegion.Translates
  infer_instance

def AtuRegion.translate (r : AtuRegion) (addr : ℕ) : ℕ :=
  (r.target + (addr - r.base)) % 2 ^ 64

def cfgTarget (request : ℕ) : Bdf × ℕ :=
  (⟨request / 2 ^ 24 % 2 ^ 8, request / 2 ^ 19 % 2 ^ 5, request / 2 ^ 16 % 2 ^ 3⟩,
    request % 2 ^ 16)

/-- Where an access in a configuration window goes: through region 1, as a request that the bus
of the function takes. -/
def Hw.route (F : Fabric) (c : Hw) (addr : ℕ) : Option (Bdf × ℕ) :=
  let r := c.atu 1
  if r.Translates addr then
    let target := cfgTarget (r.translate addr)
    if (r.cr1 = hip02PcieAtuTypeCfg0 ∧ F.direct target.1.bus = true) ∨
        (r.cr1 = hip02PcieAtuTypeCfg1 ∧ F.direct target.1.bus = false) then some target
    else none
  else none

/-- `readl` in a configuration window; what nobody takes reads as all ones. -/
def Hw.cfgLoad (F : Fabric) (c : Hw) (addr : ℕ) : ℕ :=
  if c.ctrl1.getLsbD 21 then 0xffffffff
  else
    match c.route F addr with
    | some (f, reg) => (c.fn f).load reg 4
    | none => 0xffffffff

def Hw.cfgStore (F : Fabric) (c : Hw) (addr n val : ℕ) : Hw :=
  if c.ctrl0.getLsbD 21 then c
  else
    match c.route F addr with
    | some (f, reg) =>
      { c with fn := Function.update c.fn f ((c.fn f).storeStatus (F.fnStatus f) reg n val) }
    | none => c

def hisiPcieChangeDbiMode (c : Hw) (dbi : Bool) : Hw :=
  if dbi then
    { c with ctrl0 := c.ctrl0 ||| pcieScSlvDbiEnable, ctrl1 := c.ctrl1 ||| pcieScSlvDbiEnable }
  else
    { c with
      ctrl0 := c.ctrl0 &&& ~~~pcieScSlvDbiEnable
      ctrl1 := c.ctrl1 &&& ~~~pcieScSlvDbiEnable }

def hisiPcieDmWritel (F : Fabric) (c : Hw) (val reg : ℕ) : Hw :=
  let c := hisiPcieChangeDbiMode c true
  let c := c.dmStore F reg val
  hisiPcieChangeDbiMode c false

/-- The mode is changed for the read and left that way. -/
def hisiPcieDmReadl (c : Hw) (reg : ℕ) : Hw × ℕ :=
  let c := hisiPcieChangeDbiMode c true
  (c, c.dmLoad reg)

def pcibiosSuccessful : ℕ := 0x00
def pcibiosDeviceNotFound : ℕ := 0x86
def pcibiosBadRegisterNumber : ℕ := 0x87

/-- `reg_val` after `size` bytes of it were overwritten through `walker`. -/
def patch (regVal offset size val : ℕ) : ℕ :=
  let cell := Mem.store (fun _ => 0) 0 4 regVal
  (cell.store offset size val).load 0 4

/-- `hisi_pcie_cfg_write_local`; the controller at hand has no `hisi_pcie_clr_extra_aer`. -/
def hisiPcieCfgWriteLocal (F : Fabric) (c : Hw) (where_ size val : ℕ) : Hw × ℕ :=
  let reg := where_ - where_ % 4
  if size = 4 then (hisiPcieDmWritel F c val reg, pcibiosSuccessful)
  else if size = 2 then
    let r := hisiPcieDmReadl c reg
    (hisiPcieDmWritel F r.1 (patch r.2 (where_ % 4) 2 val) reg, pcibiosSuccessful)
  else if size = 1 then
    let r := hisiPcieDmReadl c reg
    (hisiPcieDmWritel F r.1 (patch r.2 (where_ % 4) 1 val) reg, pcibiosSuccessful)
  else (c, pcibiosBadRegisterNumber)

def selectBytes (word where_ size : ℕ) : ℕ × ℕ :=
  if size = 1 then (word >>> (8 * (where_ % 4)) &&& 0xff, pcibiosSuccessful)
  else if size = 2 then (word >>> (8 * (where_ % 4)) &&& 0xffff, pcibiosSuccessful)
  else if size ≠ 4 then (word, pcibiosBadRegisterNumber)
  else (word, pcibiosSuccessful)

/-- `hisi_pcie_cfg_read_local`: controller, value and return code. -/
def hisiPcieCfgReadLocal (c : Hw) (where_ size : ℕ) : Hw × ℕ × ℕ :=
  let r := hisiPcieDmReadl c (where_ - where_ % 4)
  (r.1, selectBytes r.2 where_ size)

structure Port where
  rootBusNr : ℕ
  cfg0Base : ℕ
  cfg0Size : ℕ
  cfg1Base : ℕ
  cfg1Size : ℕ
  memBase : ℕ
  memSize : ℕ
  memBusAddr : ℕ
  ioBase : ℕ
  ioSize : ℕ
  ioBusAddr : ℕ
  numViewport : ℕ

structure PcieAtuInfo where
  cpuAddr : ℕ
  pciAddr : ℕ
  size : ℕ

structure PciBus where
  number : ℕ
  primary : ℕ
  parent : ℕ

/-- The registers and values of `hisi_pcie_prog_outbound_atu`, in the order of the writes. -/
def atuWrites (index type : ℕ) (a : PcieAtuInfo) : List (ℕ × ℕ) :=
  [(hip02PcieAtuViewport, index),
    (hip02PcieAtuLowerBase, a.cpuAddr % 2 ^ 32),
    (hip02PcieAtuUpperBase, a.cpuAddr / 2 ^ 32),
    (hip02PcieAtuLimit, (a.cpuAddr + a.size + 2 ^ 64 - 1) % 2 ^ 64 % 2 ^ 32),
    (hip02PcieAtuLowerTarget, a.pciAddr % 2 ^ 32),
    (hip02PcieAtuUpperTarget, a.pciAddr / 2 ^ 32),
    (hip02PcieAtuCr1, type),
    (hip02PcieAtuCr2, hip02PcieAtuEnable)]

def hisiPcieProgOutboundAtu (F : Fabric) (c : Hw) (index type : ℕ) (a : PcieAtuInfo) : Hw :=
  (atuWrites index type a).foldl (fun c w => hisiPcieDmWritel F c w.2 w.1) c

def pciSlot (devfn : ℕ) : ℕ := devfn / 8 % 32
def pciFunc (devfn : ℕ) : ℕ := devfn % 8

def busDevFunc (bus devfn : ℕ) : ℕ :=
  (bus % 2 ^ 8) * 2 ^ 24 ||| (pciSlot devfn % 2 ^ 5) * 2 ^ 19 ||| (pciFunc devfn % 2 ^ 3) * 2 ^ 16

def viewPortCount : ℕ := 2

/-- `hisi_pcie_rw_other_conf_prepare`; the result names the window to access. -/
def hisiPcieRwOtherConfPrepare (F : Fabric) (pp : Port) (c : Hw) (bus : PciBus) (devfn : ℕ) :
    Hw × ℕ :=
  let target := busDevFunc bus.number devfn
  if bus.parent = pp.rootBusNr then
    (hisiPcieProgOutboundAtu F c 1 hip02PcieAtuTypeCfg0 ⟨pp.cfg0Base, target, pp.cfg0Size⟩,
      pp.cfg0Base)
  else
    (hisiPcieProgOutboundAtu F c 1 hip02PcieAtuTypeCfg1 ⟨pp.cfg1Base, target, pp.cfg1Size⟩,
      pp.cfg1Base)

def hisiPcieRwOtherConfEnd (F : Fabric) (pp : Port) (c : Hw) : Hw :=
  if pp.numViewport ≤ viewPortCount then
    hisiPcieProgOutboundAtu F c 1 hip02PcieAtuTypeIo ⟨pp.ioBase, pp.ioBusAddr, pp.ioSize⟩
  else c

def hisiPcieRdOtherConf (F : Fabric) (pp : Port) (c : Hw) (bus : PciBus)
    (devfn where_ size : ℕ) : Hw × ℕ × ℕ :=
  let prepared := hisiPcieRwOtherConfPrepare F pp c bus devfn
  let word := prepared.1.cfgLoad F (prepared.2 + (where_ - where_ % 4))
  (hisiPcieRwOtherConfEnd F pp prepared.1, selectBytes word where_ size)

def hisiPcieCfgWrite (F : Fabric) (c : Hw) (addr where_ size val : ℕ) : Hw × ℕ :=
  if size = 4 then (c.cfgStore F addr 4 val, pcibiosSuccessful)
  else if size = 2 then (c.cfgStore F (addr + (where_ &&& 2)) 2 val, pcibiosSuccessful)
  else if size = 1 then (c.cfgStore F (addr + where_ % 4) 1 val, pcibiosSuccessful)
  else (c, pcibiosBadRegisterNumber)

def hisiPcieWrOtherConf (F : Fabric) (pp : Port) (c : Hw) (bus : PciBus)
    (devfn where_ size val : ℕ) : Hw × ℕ :=
  let prepared := hisiPcieRwOtherConfPrepare F pp c bus devfn
  let written := hisiPcieCfgWrite F prepared.1 (prepared.2 + (where_ - where_ % 4)) where_ size val
  (hisiPcieRwOtherConfEnd F pp written.1, written.2)

/-- `hip_pcie_valid_config`; `linkUp` is what `hip_pcie_link_up` found. -/
def hipPcieValidConfig (pp : Port) (bus : PciBus) (device : ℕ) (linkUp : Bool) : Bool :=
  if bus.number ≠ pp.rootBusNr ∧ linkUp = false then false
  else if bus.number = pp.rootBusNr ∧ 0 < device then false
  else if bus.primary = pp.rootBusNr ∧ 0 < device then false
  else true

def hipPcieRdConf (F : Fabric) (pp : Port) (c : Hw) (bus : PciBus) (devfn where_ size : ℕ)
    (linkUp : Bool) : Hw × ℕ × ℕ :=
  if hipPcieValidConfig pp bus (pciSlot devfn) linkUp = false then
    (c, 0xffffffff, pcibiosDeviceNotFound)
  else if bus.number ≠ pp.rootBusNr then hisiPcieRdOtherConf F pp c bus devfn where_ size
  else hisiPcieCfgReadLocal c where_ size

def hipPcieWrConf (F : Fabric) (pp : Port) (c : Hw) (bus : PciBus) (devfn where_ size val : ℕ)
    (linkUp : Bool) : Hw × ℕ :=
  if hipPcieValidConfig pp bus (pciSlot devfn) linkUp = false then (c, pcibiosDeviceNotFound)
  else if bus.number ≠ pp.rootBusNr then hisiPcieWrOtherConf F pp c bus devfn where_ size val
  else hisiPcieCfgWriteLocal F c where_ size val

end HiMpu.Pcie
