import HiMpu.PcieConfig

/-!
# The outbound windows of the host bridge

What `hisi_pcie_host_init` and the configuration accesses after it leave in the
address translation unit and in the memory base and limit register.  The limit is
computed without the `- 1` that the regions have, so that the register never covers
the memory window; region 0 is right for a window that the bus sees at its own
address, and region 1 is left with an I/O window that was never filled in.
-/

namespace HiMpu.Pcie

variable {F : Fabric} {pp : Port} {c : Hw}

structure Window where
  start : ℕ
  size : ℕ

def Window.Holds (w : Window) (addr : ℕ) : Prop := w.start ≤ addr ∧ addr < w.start + w.size

structure DeviceTree where
  mem : Window
  offset : ℕ
  io : Option Window
  cfg : Window
  numViewport : ℕ

structure DeviceTree.Ok (dt : DeviceTree) : Prop where
  startAligned : 2 ^ 20 ∣ dt.mem.start
  sizeAligned : 2 ^ 20 ∣ dt.mem.size
  pos : 0 < dt.mem.size
  inside : dt.mem.start % 2 ^ 32 + dt.mem.size ≤ 2 ^ 32
  fits : dt.mem.start < 2 ^ 64
  disjoint : ∀ addr, dt.mem.Holds addr → ¬ dt.cfg.Holds addr

def DeviceTree.busAddr (dt : DeviceTree) (addr : ℕ) : ℕ :=
  (addr + (2 ^ 64 - dt.offset % 2 ^ 64)) % 2 ^ 64

/-- `get_range_from_dts` and `init_iomap_addr` on a zeroed port; the range of the I/O window is
looked at by neither.  Before Linux 5.10 its base comes from the kernel. -/
def getRangeFromDts (dt : DeviceTree) (rootBusNr ioBase : ℕ) : Port where
  rootBusNr := rootBusNr
  cfg0Base := dt.cfg.start
  cfg0Size := dt.cfg.size / 2 % 2 ^ 32
  cfg1Base := (dt.cfg.start + dt.cfg.size / 2 % 2 ^ 32) % 2 ^ 64
  cfg1Size := dt.cfg.size / 2 % 2 ^ 32
  memBase := dt.mem.start
  memSize := dt.mem.size % 2 ^ 32
  memBusAddr := dt.busAddr dt.mem.start
  ioBase := ioBase
  ioSize := 0
  ioBusAddr := 0
  numViewport := dt.numViewport

def pciCommand : ℕ := 0x04
def pciClassDevice : ℕ := 0x0a
def pciBaseAddress0 : ℕ := 0x10
def pciBaseAddress1 : ℕ := 0x14
def pciMemoryBase : ℕ := 0x20
def pciInterruptLine : ℕ := 0x3c
def pciClassBridgePci : ℕ := 0x0604
def pciCommandBits : ℕ := 0x107

def hisiPcieReadRc (c : Hw) (reg : ℕ) : Hw × ℕ :=
  let r := hisiPcieDmReadl c reg
  (hisiPcieChangeDbiMode r.1 false, r.2)

def memoryWindow (pp : Port) : ℕ :=
  let membase := (pp.memBase % 2 ^ 32 &&& 0xfff00000) >>> 16
  let memlimit := (pp.memSize + pp.memBase % 2 ^ 32) % 2 ^ 32 &&& 0xfff00000
  memlimit ||| membase

def setupRcPins (F : Fabric) (c : Hw) : Hw :=
  let c := hisiPcieDmWritel F c 0x00000004 pciBaseAddress0
  let c := hisiPcieDmWritel F c 0x00000000 pciBaseAddress1
  let r := hisiPcieReadRc c pciInterruptLine
  hisiPcieDmWritel F r.1 ((r.2 &&& 0xffff00ff) ||| 0x00000100) pciInterruptLine

def setupRcCommand (F : Fabric) (c : Hw) : Hw :=
  let r := hisiPcieReadRc c pciCommand
  hisiPcieDmWritel F r.1 ((r.2 &&& 0xffff0000) ||| pciCommandBits) pciCommand

/-- The regions that `hip_pcie_setup_rc_base` programs when there is no `rd_other_conf`. -/
def setupRcRegions (F : Fabric) (pp : Port) (c : Hw) : Hw :=
  let c := hisiPcieProgOutboundAtu F c 0 hip02PcieAtuTypeMem ⟨pp.memBase, pp.memBusAddr, pp.memSize⟩
  if viewPortCount < pp.numViewport then
    hisiPcieProgOutboundAtu F c 2 hip02PcieAtuTypeIo ⟨pp.ioBase, pp.ioBusAddr, pp.ioSize⟩
  else c

def hipPcieSetupRcBase (F : Fabric) (pp : Port) (rdOtherConf : Bool) (c : Hw) : Hw :=
  let c := setupRcPins F c
  let c := hisiPcieDmWritel F c (memoryWindow pp) pciMemoryBase
  let c := setupRcCommand F c
  let c := if rdOtherConf then c else setupRcRegions F pp c
  let c := (hisiPcieCfgWriteLocal F c pciBaseAddress0 4 0).1
  (hisiPcieCfgWriteLocal F c pciClassDevice 2 pciClassBridgePci).1

/-- `hisi_pcie_host_init` after the link is established; the masks of the base addresses, which
it writes last, are no registers of the configuration space. -/
def hisiPcieHostInit (F : Fabric) (pp : Port) (c : Hw) : Hw :=
  let c := hipPcieSetupRcBase F pp false c
  hisiPcieProgOutboundAtu F c 0 hip02PcieAtuTypeMem ⟨pp.memBase, pp.memBase, pp.memSize⟩

def Hw.accesses (F : Fabric) (pp : Port) (c : Hw) (l : List Access) : Hw :=
  l.foldl (fun c a => (c.access F pp a).1) c

def Hw.Covers (c : Hw) (granule : ℕ) : Prop :=
  c.rc.load pciMemoryBase 4 % 2 ^ 16 / 2 ^ 4 ≤ granule ∧
    granule ≤ c.rc.load pciMemoryBase 4 / 2 ^ 20

/-- The windows are right, where `extra` is open besides them. -/
structure Outbound (dt : DeviceTree) (extra : Option Window) (c : Hw) : Prop where
  memory : ∀ addr, dt.mem.Holds addr → ∃ index, (c.atu index).Translates addr ∧
    (c.atu index).cr1 = hip02PcieAtuTypeMem ∧
    (c.atu index).translate addr = dt.busAddr addr ∧
    ∀ other, (c.atu other).Translates addr → other = index
  opened : ∀ w, extra = some w → ∀ addr, w.Holds addr → ∃ index,
    (c.atu index).Translates addr ∧ ∀ other, (c.atu other).Translates addr → other = index
  outside : ∀ addr < 2 ^ 64, ¬ dt.mem.Holds addr → (∀ w, dt.io = some w → ¬ w.Holds addr) →
    (∀ w, extra = some w → ¬ w.Holds addr) → ∀ index, ¬ (c.atu index).Translates addr
  bridge : ∀ granule < 2 ^ 12, c.Covers granule ↔
    dt.mem.start % 2 ^ 32 / 2 ^ 20 ≤ granule ∧
      granule < dt.mem.start % 2 ^ 32 / 2 ^ 20 + dt.mem.size / 2 ^ 20

def cfgWindow (pp : Port) (bus : PciBus) : Window :=
  if bus.parent = pp.rootBusNr then ⟨pp.cfg0Base, pp.cfg0Size⟩ else ⟨pp.cfg1Base, pp.cfg1Size⟩

/-- Between the accesses the windows are right, and during an access to a function below the root
port its configuration window is open too. -/
structure Promised (F : Fabric) (dt : DeviceTree) (pp : Port) (c : Hw) (l : List Access) : Prop where
  between : ∀ done, done <+: l → Outbound dt none (c.accesses F pp done)
  during : ∀ done a, done ++ [a] <+: l → ¬ a.Refused pp → ¬ a.Root pp →
    Outbound dt (some (cfgWindow pp a.bus))
      (hisiPcieRwOtherConfPrepare F pp (c.accesses F pp done) a.bus a.devfn).1

def InBridge (y : ℕ) : Prop := pciMemoryBase ≤ y ∧ y < pciMemoryBase + 4

theorem InBridge.notAtu {y : ℕ} (h : InBridge y) : ¬ InAtuWindow y := by
  unfold InBridge pciMemoryBase at h
  unfold InAtuWindow
  omega

theorem dmWritel_bridge (val : ℕ) {reg y : ℕ} (hy : InBridge y)
    (hreg : reg + 4 ≤ pciMemoryBase ∨ pciMemoryBase + 4 ≤ reg) :
    (hisiPcieDmWritel F c val reg).rc y = c.rc y := by
  rw [(dmWritel_fields val reg).1]
  unfold InBridge at hy
  exact Mem.storeStatus_outside (by omega)

theorem readRc_rc (reg : ℕ) : (hisiPcieReadRc c reg).1.rc = c.rc :=
  (changeDbiMode_rc false).trans (dmReadl_fields reg).2.1

theorem cfgWriteLocal_bridge (where_ size val : ℕ) {y : ℕ} (hy : InBridge y)
    (hword : where_ - where_ % 4 ≠ pciMemoryBase) :
    (hisiPcieCfgWriteLocal F c where_ size val).1.rc y = c.rc y := by
  have hapart : where_ - where_ % 4 + 4 ≤ pciMemoryBase ∨
      pciMemoryBase + 4 ≤ where_ - where_ % 4 := by
    unfold pciMemoryBase at hword ⊢
    omega
  have hread := (dmReadl_fields (c := c) (where_ - where_ % 4)).2.1
  unfold hisiPcieCfgWriteLocal
  simp only []
  split
  · exact dmWritel_bridge _ hy hapart
  · split
    · exact (dmWritel_bridge _ hy hapart).trans (congrFun hread y)
    · split
      · exact (dmWritel_bridge _ hy hapart).trans (congrFun hread y)
      · rfl

theorem progOutboundAtu_bridge (index type : ℕ) (a : PcieAtuInfo) {y : ℕ} (hy : InBridge y) :
    (hisiPcieProgOutboundAtu F c index type a).rc y = c.rc y :=
  (progOutboundAtu_frame index type a).2.2 y hy.notAtu

theorem setupRcRegions_bridge {y : ℕ} (hy : InBridge y) :
    (setupRcRegions F pp c).rc y = c.rc y := by
  unfold setupRcRegions
  simp only []
  split
  · exact (progOutboundAtu_bridge _ _ _ hy).trans (progOutboundAtu_bridge _ _ _ hy)
  · exact progOutboundAtu_bridge _ _ _ hy

theorem hostInit_bridge (hordinary : ∀ y, InBridge y → F.rcStatus y = 0) :
    (hisiPcieHostInit F pp c).rc.load pciMemoryBase 4 = memoryWindow pp % 2 ^ 32 := by
  have hwritten := (dmWritel_fields (F := F) (c := setupRcPins F c) (memoryWindow pp)
    pciMemoryBase).1
  have hload : Mem.load (Mem.storeStatus F.rcStatus (setupRcPins F c).rc pciMemoryBase 4
      (memoryWindow pp)) pciMemoryBase 4 = memoryWindow pp % 2 ^ 32 :=
    Mem.load_storeStatus fun x hlow hhigh => hordinary x ⟨hlow, hhigh⟩
  rw [← hwritten] at hload
  refine (Mem.load_congr fun y hlow hhigh => ?_).trans hload
  have hy : InBridge y := ⟨hlow, hhigh⟩
  have hcommand : ∀ c : Hw, (setupRcCommand F c).rc y = c.rc y := fun c =>
    (dmWritel_bridge _ hy (Or.inl (by decide))).trans (congrFun (readRc_rc pciCommand) y)
  unfold hisiPcieHostInit hipPcieSetupRcBase
  simp only []
  rw [progOutboundAtu_bridge _ _ _ hy, cfgWriteLocal_bridge _ _ _ hy (by decide),
    cfgWriteLocal_bridge _ _ _ hy (by decide)]
  exact (setupRcRegions_bridge hy).trans (hcommand _)

theorem granules_and {k : ℕ} (hk : k < 2 ^ 12) : (2 ^ 20 * k) &&& 0xfff00000 = 2 ^ 20 * k := by
  have hshift : ∀ n, 2 ^ 20 * n = n <<< 20 := fun n => by rw [Nat.shiftLeft_eq, Nat.mul_comm]
  have hmask : 0xfff00000 = (2 ^ 12 - 1) <<< 20 := by decide
  rw [hshift, hmask, ← Nat.shiftLeft_and_distrib, Nat.and_two_pow_sub_one_eq_mod,
    Nat.mod_eq_of_lt hk]

section Tree

variable {dt : DeviceTree} {rootBusNr ioBase : ℕ}

theorem memoryWindow_eq (hdt : dt.Ok) :
    memoryWindow (getRangeFromDts dt rootBusNr ioBase) =
      2 ^ 20 * ((dt.mem.start % 2 ^ 32 / 2 ^ 20 + dt.mem.size / 2 ^ 20) % 2 ^ 12) +
        2 ^ 4 * (dt.mem.start % 2 ^ 32 / 2 ^ 20) := by
  obtain ⟨first, hfirst⟩ := hdt.startAligned
  obtain ⟨count, hcount⟩ := hdt.sizeAligned
  have hlow : dt.mem.start % 2 ^ 32 = 2 ^ 20 * (first % 2 ^ 12) := by omega
  have hbase : dt.mem.start % 2 ^ 32 / 2 ^ 20 = first % 2 ^ 12 := by omega
  have hsize : dt.mem.size / 2 ^ 20 = count := by omega
  have hlimit : (dt.mem.size % 2 ^ 32 + dt.mem.start % 2 ^ 32) % 2 ^ 32 =
      2 ^ 20 * ((first % 2 ^ 12 + count) % 2 ^ 12) := by omega
  have hshift : (2 ^ 20 * (first % 2 ^ 12)) >>> 16 = 2 ^ 4 * (first % 2 ^ 12) := by
    rw [Nat.shiftRight_eq_div_pow]
    omega
  rw [hbase, hsize]
  unfold memoryWindow getRangeFromDts
  simp only []
  rw [hlimit, hlow, granules_and (Nat.mod_lt _ (by decide)),
    granules_and (Nat.mod_lt _ (by decide)), hshift]
  exact (Nat.two_pow_add_eq_or_of_lt (by omega) _).symm

/-- The register covers a granule too many, or none when the window ends at 4 GB. -/
theorem covers_iff (hdt : dt.Ok) {granule : ℕ} (hgranule : granule < 2 ^ 12)
    (hbridge : c.rc.load pciMemoryBase 4 =
      memoryWindow (getRangeFromDts dt rootBusNr ioBase) % 2 ^ 32) :
    c.Covers granule ↔ dt.mem.start % 2 ^ 32 / 2 ^ 20 ≤ granule ∧
      granule ≤ (dt.mem.start % 2 ^ 32 / 2 ^ 20 + dt.mem.size / 2 ^ 20) % 2 ^ 12 := by
  have hfirst : dt.mem.start % 2 ^ 32 / 2 ^ 20 < 2 ^ 12 := by omega
  rw [memoryWindow_eq hdt] at hbridge
  unfold Hw.Covers
  rw [hbridge]
  generalize dt.mem.start % 2 ^ 32 / 2 ^ 20 = first at hfirst ⊢
  have hlast : (first + dt.mem.size / 2 ^ 20) % 2 ^ 12 < 2 ^ 12 := Nat.mod_lt _ (by decide)
  generalize (first + dt.mem.size / 2 ^ 20) % 2 ^ 12 = last at hlast ⊢
  omega

theorem Outbound.bridge_ne {extra : Option Window} (hdt : dt.Ok)
    (hbridge : c.rc.load pciMemoryBase 4 =
      memoryWindow (getRangeFromDts dt rootBusNr ioBase) % 2 ^ 32) :
    ¬ Outbound dt extra c := by
  intro hout
  have hinside := hdt.inside
  have hpos := hdt.pos
  obtain ⟨count, hcount⟩ := hdt.sizeAligned
  obtain ⟨first, hfirst⟩ := hdt.startAligned
  have hfit : dt.mem.start % 2 ^ 32 / 2 ^ 20 + dt.mem.size / 2 ^ 20 ≤ 2 ^ 12 := by omega
  by_cases hend : dt.mem.start % 2 ^ 32 / 2 ^ 20 + dt.mem.size / 2 ^ 20 = 2 ^ 12
  · -- the last granule of the 4 GB is not covered
    have hlast := hout.bridge (2 ^ 12 - 1) (by decide)
    rw [covers_iff hdt (by decide) hbridge, hend] at hlast
    omega
  · have hafter := hout.bridge (dt.mem.start % 2 ^ 32 / 2 ^ 20 + dt.mem.size / 2 ^ 20) (by omega)
    rw [covers_iff hdt (by omega) hbridge] at hafter
    omega

end Tree

/-- Only a write to the root port reaches the register. -/
def Access.WritesBridge (pp : Port) (a : Access) : Prop :=
  a.Root pp ∧ a.value ≠ none ∧ a.where_ - a.where_ % 4 = pciMemoryBase

theorem rwOtherConfPrepare_bridge (bus : PciBus) (devfn : ℕ) {y : ℕ} (hy : InBridge y) :
    (hisiPcieRwOtherConfPrepare F pp c bus devfn).1.rc y = c.rc y := by
  unfold hisiPcieRwOtherConfPrepare
  simp only []
  split
  · exact progOutboundAtu_bridge _ _ _ hy
  · exact progOutboundAtu_bridge _ _ _ hy

theorem rwOtherConfEnd_bridge {y : ℕ} (hy : InBridge y) :
    (hisiPcieRwOtherConfEnd F pp c).rc y = c.rc y := by
  unfold hisiPcieRwOtherConfEnd
  split
  · exact progOutboundAtu_bridge _ _ _ hy
  · rfl

theorem cfgWrite_rc (addr where_ size val : ℕ) :
    (hisiPcieCfgWrite F c addr where_ size val).1.rc = c.rc := by
  have hstore : ∀ addr n, (c.cfgStore F addr n val).rc = c.rc := by
    intro addr n
    unfold Hw.cfgStore
    split
    · rfl
    · split <;> rfl
  unfold hisiPcieCfgWrite
  split
  · exact hstore _ _
  · split
    · exact hstore _ _
    · split
      · exact hstore _ _
      · rfl

theorem access_bridge {a : Access} (ha : ¬ a.WritesBridge pp) {y : ℕ} (hy : InBridge y) :
    (c.access F pp a).1.rc y = c.rc y := by
  by_cases hrefused : a.Refused pp
  · rw [(access_refused hrefused).1]
  have hvalid : ¬ hipPcieValidConfig pp a.bus (pciSlot a.devfn) a.linkUp = false := hrefused
  unfold Hw.access
  cases hvalue : a.value with
  | none =>
    simp only [hipPcieRdConf, if_neg hvalid]
    split
    · exact (rwOtherConfEnd_bridge hy).trans (rwOtherConfPrepare_bridge _ _ hy)
    · exact congrFun (dmReadl_fields (a.where_ - a.where_ % 4)).2.1 y
  | some val =>
    simp only [hipPcieWrConf, if_neg hvalid]
    split
    · refine (rwOtherConfEnd_bridge hy).trans ?_
      rw [cfgWrite_rc]
      exact rwOtherConfPrepare_bridge _ _ hy
    next hroot =>
      refine cfgWriteLocal_bridge _ _ _ hy fun hword => ha ⟨not_not.mp hroot, ?_, hword⟩
      rw [hvalue]
      exact Option.some_ne_none val

theorem accesses_bridge (l : List Access) (hl : ∀ a ∈ l, ¬ a.WritesBridge pp) :
    (c.accesses F pp l).rc.load pciMemoryBase 4 = c.rc.load pciMemoryBase 4 := by
  induction l generalizing c with
  | nil => rfl
  | cons a l ih =>
    refine (ih fun b hb => hl b (List.mem_cons_of_mem _ hb)).trans ?_
    exact Mem.load_congr fun y hlow hhigh =>
      access_bridge (hl a (List.mem_cons_self ..)) ⟨hlow, hhigh⟩

/-- A write to the root port's registers for the translation of addresses. -/
def Access.WritesAtu (pp : Port) (a : Access) : Prop :=
  a.Root pp ∧ a.value ≠ none ∧ InAtuWindow (a.where_ - a.where_ % 4)

theorem dmWritel_atu {reg : ℕ} (val : ℕ) (hreg : ¬ InAtuWindow reg) :
    (hisiPcieDmWritel F c val reg).atu = c.atu := by
  have hset : ∀ r : AtuRegion, r.set reg val = r := by
    intro r
    unfold AtuRegion.set
    split_ifs with h h h h h h h
    all_goals first | rfl | exact absurd (h ▸ by decide) hreg
  rw [(dmWritel_fields val reg).2.2.2, hset, Function.update_eq_self]

theorem cfgWriteLocal_atu {where_ : ℕ} (size val : ℕ) (hreg : ¬ InAtuWindow (where_ - where_ % 4)) :
    (hisiPcieCfgWriteLocal F c where_ size val).1.atu = c.atu := by
  have hread : (hisiPcieDmReadl c (where_ - where_ % 4)).1.atu = c.atu := changeDbiMode_atu true
  unfold hisiPcieCfgWriteLocal
  simp only []
  split
  · exact dmWritel_atu _ hreg
  · split
    · exact (dmWritel_atu _ hreg).trans hread
    · split
      · exact (dmWritel_atu _ hreg).trans hread
      · rfl

theorem progOutboundAtu_memory (type : ℕ) (a : PcieAtuInfo) :
    (hisiPcieProgOutboundAtu F c 1 type a).atu 0 = c.atu 0 := by
  rw [progOutboundAtu_atu, Function.update_of_ne (by decide)]

theorem rwOtherConfPrepare_memory (bus : PciBus) (devfn : ℕ) :
    (hisiPcieRwOtherConfPrepare F pp c bus devfn).1.atu 0 = c.atu 0 := by
  unfold hisiPcieRwOtherConfPrepare
  simp only []
  split <;> exact progOutboundAtu_memory _ _

theorem rwOtherConfEnd_memory : (hisiPcieRwOtherConfEnd F pp c).atu 0 = c.atu 0 := by
  unfold hisiPcieRwOtherConfEnd
  split
  · exact progOutboundAtu_memory _ _
  · rfl

theorem cfgWrite_atu (addr where_ size val : ℕ) :
    (hisiPcieCfgWrite F c addr where_ size val).1.atu = c.atu := by
  unfold hisiPcieCfgWrite Hw.cfgStore
  split_ifs <;> first | rfl | (split <;> rfl)

theorem access_memory {a : Access} (ha : ¬ a.WritesAtu pp) :
    (c.access F pp a).1.atu 0 = c.atu 0 := by
  by_cases hrefused : a.Refused pp
  · rw [(access_refused hrefused).1]
  have hvalid : ¬ hipPcieValidConfig pp a.bus (pciSlot a.devfn) a.linkUp = false := hrefused
  unfold Hw.access
  cases hvalue : a.value with
  | none =>
    simp only [hipPcieRdConf, if_neg hvalid]
    split
    · exact rwOtherConfEnd_memory.trans (rwOtherConfPrepare_memory _ _)
    · exact congrFun (changeDbiMode_atu true) 0
  | some val =>
    simp only [hipPcieWrConf, if_neg hvalid]
    split
    · refine rwOtherConfEnd_memory.trans ?_
      rw [cfgWrite_atu]
      exact rwOtherConfPrepare_memory _ _
    next hroot =>
      refine congrFun (cfgWriteLocal_atu _ _ fun hreg => ha ⟨not_not.mp hroot, ?_, hreg⟩) 0
      rw [hvalue]
      exact Option.some_ne_none val

theorem accesses_memory (l : List Access) (hl : ∀ a ∈ l, ¬ a.WritesAtu pp) :
    (c.accesses F pp l).atu 0 = c.atu 0 := by
  induction l generalizing c with
  | nil => rfl
  | cons a l ih =>
    exact (ih fun b hb => hl b (List.mem_cons_of_mem _ hb)).trans
      (access_memory (hl a (List.mem_cons_self ..)))

section Regions

variable {dt : DeviceTree} {rootBusNr ioBase : ℕ}

theorem region_translates_iff (type target addr : ℕ) (hdt : dt.Ok) :
    (atuRegion type ⟨dt.mem.start, target, dt.mem.size % 2 ^ 32⟩).Translates addr ↔
      dt.mem.Holds addr := by
  have henable : hip02PcieAtuEnable.testBit 31 = true := by decide
  have hinside := hdt.inside
  have hfits := hdt.fits
  have hpos := hdt.pos
  have hlimit : (dt.mem.start + dt.mem.size % 2 ^ 32 + 2 ^ 64 - 1) % 2 ^ 64 % 2 ^ 32 =
      dt.mem.start % 2 ^ 32 + dt.mem.size - 1 := by omega
  simp only [AtuRegion.Translates, AtuRegion.base, atuRegion, henable, true_and, hlimit,
    Window.Holds]
  omega

theorem hostInit_region :
    (hisiPcieHostInit F pp c).atu 0 =
      atuRegion hip02PcieAtuTypeMem ⟨pp.memBase, pp.memBase, pp.memSize⟩ := by
  unfold hisiPcieHostInit
  rw [progOutboundAtu_atu, Function.update_self]

theorem hostInit_memory_iff (hdt : dt.Ok) :
    (∀ addr, dt.mem.Holds addr →
        ((hisiPcieHostInit F (getRangeFromDts dt rootBusNr ioBase) c).atu 0).Translates addr ∧
        ((hisiPcieHostInit F (getRangeFromDts dt rootBusNr ioBase) c).atu 0).translate addr =
          dt.busAddr addr) ↔
      dt.offset % 2 ^ 64 = 0 := by
  have hinside := hdt.inside
  have hfits := hdt.fits
  have hpos := hdt.pos
  have htranslate : ∀ addr, dt.mem.Holds addr → (atuRegion hip02PcieAtuTypeMem
      ⟨dt.mem.start, dt.mem.start, dt.mem.size % 2 ^ 32⟩).translate addr = addr := by
    rintro addr ⟨hlow, hhigh⟩
    simp only [AtuRegion.translate, AtuRegion.base, AtuRegion.target, atuRegion]
    omega
  rw [hostInit_region]
  constructor
  · intro hall
    have hfirst : dt.mem.Holds dt.mem.start := ⟨le_rfl, Nat.lt_add_of_pos_right hpos⟩
    have hbus := (hall _ hfirst).2
    have hsame : dt.mem.start = dt.busAddr dt.mem.start := (htranslate _ hfirst).symm.trans hbus
    unfold DeviceTree.busAddr at hsame
    omega
  · intro hzero addr haddr
    refine ⟨(region_translates_iff _ _ addr hdt).mpr haddr, (htranslate addr haddr).trans ?_⟩
    obtain ⟨hlow, hhigh⟩ := haddr
    unfold DeviceTree.busAddr
    omega

/-- After a run of configuration accesses that leave these registers alone the memory window is
right exactly when nothing has to be translated. -/
theorem memoryWindow_right_iff (hdt : dt.Ok) (l : List Access)
    (hl : ∀ a ∈ l, ¬ a.WritesAtu (getRangeFromDts dt rootBusNr ioBase)) :
    let region := ((hisiPcieHostInit F (getRangeFromDts dt rootBusNr ioBase) c).accesses F
      (getRangeFromDts dt rootBusNr ioBase) l).atu 0
    (∀ addr, dt.mem.Holds addr →
      region.Translates addr ∧ region.translate addr = dt.busAddr addr) ↔
        dt.offset % 2 ^ 64 = 0 := by
  intro region
  have hregion : region = (hisiPcieHostInit F (getRangeFromDts dt rootBusNr ioBase) c).atu 0 :=
    accesses_memory l hl
  rw [hregion]
  exact hostInit_memory_iff hdt

theorem rwOtherConfEnd_stray (hview : dt.numViewport ≤ viewPortCount) (addr : ℕ)
    (haddr : addr < 2 ^ 32) :
    ((hisiPcieRwOtherConfEnd F (getRangeFromDts dt rootBusNr 0) c).atu 1).Translates addr := by
  have henable : hip02PcieAtuEnable.testBit 31 = true := by decide
  have hprog : hisiPcieRwOtherConfEnd F (getRangeFromDts dt rootBusNr 0) c =
      hisiPcieProgOutboundAtu F c 1 hip02PcieAtuTypeIo ⟨0, 0, 0⟩ := if_pos hview
  rw [hprog, progOutboundAtu_atu, Function.update_self]
  simp only [AtuRegion.Translates, AtuRegion.base, atuRegion, henable, true_and]
  omega

theorem accesses_not_outbound (hdt : dt.Ok) (hordinary : ∀ y, InBridge y → F.rcStatus y = 0)
    (l : List Access)
    (hl : ∀ a ∈ l, ¬ a.WritesBridge (getRangeFromDts dt rootBusNr ioBase)) :
    ¬ Outbound dt none ((hisiPcieHostInit F (getRangeFromDts dt rootBusNr ioBase) c).accesses F
      (getRangeFromDts dt rootBusNr ioBase) l) :=
  Outbound.bridge_ne hdt ((accesses_bridge l hl).trans (hostInit_bridge hordinary))

theorem outboundWindows_wrong (hdt : dt.Ok) (hordinary : ∀ y, InBridge y → F.rcStatus y = 0)
    (c : Hw) (l : List Access) :
    ¬ Promised F dt (getRangeFromDts dt rootBusNr ioBase)
      (hisiPcieHostInit F (getRangeFromDts dt rootBusNr ioBase) c) l := by
  intro hpromised
  exact accesses_not_outbound hdt hordinary [] (fun a ha => absurd ha List.not_mem_nil)
    (hpromised.between [] List.nil_prefix)

end Regions

def plainTree : DeviceTree where
  mem := ⟨0xe0000000, 0x10000000⟩
  offset := 0
  io := none
  cfg := ⟨0xd0000000, 0x200000⟩
  numViewport := 2

theorem plainTree_ok : plainTree.Ok where
  startAligned := by decide
  sizeAligned := by decide
  pos := by decide
  inside := by decide
  fits := by decide
  disjoint addr hmem hcfg := by
    have hlow : 0xe0000000 ≤ addr := hmem.1
    have hhigh : addr < 0xd0000000 + 0x200000 := hcfg.2
    omega

def plainFabric : Fabric where
  rcStatus _ := 0
  fnStatus _ _ := 0
  direct bus := bus == 1

def plainHw : Hw where
  ctrl0 := 0
  ctrl1 := 0
  rc _ := 0
  viewport := 0
  atu _ := ⟨0, 0, 0, 0, 0, 0, 0⟩
  fn _ _ := 0

theorem memoryWindow_right_plain :
    (((hisiPcieHostInit plainFabric (getRangeFromDts plainTree 0 0) plainHw).accesses plainFabric
      (getRangeFromDts plainTree 0 0) [⟨⟨1, 0, 0⟩, 0, 0x10, 4, true, none⟩]).atu 0).translate
        0xe0000010 = plainTree.busAddr 0xe0000010 :=
  ((memoryWindow_right_iff plainTree_ok _ fun a ha h =>
    h.2.1 (by rw [List.mem_singleton.mp ha])).mpr rfl _ ⟨by decide, by decide⟩).2

theorem outboundWindows_wrong_plain :
    ¬ Promised plainFabric plainTree (getRangeFromDts plainTree 0 0)
      (hisiPcieHostInit plainFabric (getRangeFromDts plainTree 0 0) plainHw) [] :=
  outboundWindows_wrong plainTree_ok (fun _ _ => rfl) plainHw []

theorem plainWindow_wrong :
    ¬ ∀ (F : Fabric) (dt : DeviceTree) (c : Hw) (l : List Access), dt.Ok →
      Promised F dt (getRangeFromDts dt 0 0) (hisiPcieHostInit F (getRangeFromDts dt 0 0) c) l := by
  intro hall
  have hpromised := hall plainFabric plainTree plainHw [] plainTree_ok
  exact accesses_not_outbound plainTree_ok (fun _ _ => rfl) []
    (fun a ha => absurd ha List.not_mem_nil) (hpromised.between [] List.nil_prefix)

end HiMpu.Pcie
