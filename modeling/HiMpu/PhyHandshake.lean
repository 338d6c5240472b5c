import Mathlib.Tactic

/-!
# Accesses to the control registers of a PHY

`pcie_cr_read` and `pcie_cr_write` of `drivers/pcie_fix/pci_fix_ker.c`, `gmac_hw_serdes_read` and
`gmac_hw_serdes_write` of `drivers/gmac/gmac_hw.c`, `usb_phy_cr_read` and `usb_phy_cr_write` of
`drivers/usb/usb_drv.c`.  The driver raises a strobe of the control register and reads the
acknowledge in the status register; the PHY returns anything to a read of the status.
-/

namespace HiMpu.PhyHandshake

inductive Strobe where
  | capAddr
  | capData
  | write
  | read
  deriving DecidableEq

structure Ctrl where
  data : BitVec 16
  up : Strobe → Bool
  rest : BitVec 12

def Ctrl.raise (c : Ctrl) (s : Strobe) : Ctrl := { c with up := Function.update c.up s true }

def Ctrl.drop (c : Ctrl) (s : Strobe) : Ctrl := { c with up := Function.update c.up s false }

def Ctrl.setData (c : Ctrl) (data : BitVec 32) : Ctrl := { c with data := data.setWidth 16 }

structure Status where
  ack : Bool
  data : BitVec 16

inductive Event where
  | write (c : Ctrl)
  | read (c : Ctrl) (v : Status)

structure Phy where
  ctrl : Ctrl
  status : ℕ → Status
  reads : ℕ
  log : List Event

def Phy.writeCtrl (p : Phy) (c : Ctrl) : Phy :=
  { p with
    ctrl := c
    log := .write c :: p.log }

def Phy.readStatus (p : Phy) : Status × Phy :=
  (p.status p.reads,
    { p with
      reads := p.reads + 1
      log := .read p.ctrl (p.status p.reads) :: p.log })

def writeAddrLock (crAddrPhy : BitVec 32) (p : Phy) : ℤ × Phy :=
  let p := p.writeCtrl (p.ctrl.setData crAddrPhy)
  let p := p.writeCtrl (p.ctrl.raise .capAddr)
  let (stat, p) := p.readStatus
  if stat.ack then
    let p := p.writeCtrl (p.ctrl.drop .capAddr)
    let (stat, p) := p.readStatus
    if stat.ack then (-1, p) else (0, p)
  else (-1, p)

def readDataLock (p : Phy) : ℤ × Phy :=
  let p := p.writeCtrl (p.ctrl.raise .read)
  let (stat, p) := p.readStatus
  if stat.ack then
    -- the status is read once more for the data
    let (stat, p) := p.readStatus
    let dataOut := stat.data.toNat
    let p := p.writeCtrl (p.ctrl.drop .read)
    let (stat, p) := p.readStatus
    if stat.ack then (-1, p) else (dataOut, p)
  else (-1, p)

def writeDataLock (data : BitVec 32) (p : Phy) : ℤ × Phy :=
  let p := p.writeCtrl (p.ctrl.setData data)
  let p := p.writeCtrl (p.ctrl.raise .capData)
  let (stat, p) := p.readStatus
  if stat.ack then
    let p := p.writeCtrl (p.ctrl.drop .capData)
    let (stat, p) := p.readStatus
    if stat.ack then (-1, p)
    else
      let p := p.writeCtrl (p.ctrl.raise .write)
      let (stat, p) := p.readStatus
      if stat.ack then
        let p := p.writeCtrl (p.ctrl.drop .write)
        let (stat, p) := p.readStatus
        if stat.ack then (-1, p) else (0, p)
      else (-1, p)
  else (-1, p)

def pcieCrWrite (crAddrPhy crData : BitVec 32) (p : Phy) : ℤ × Phy :=
  let (ret, p) := writeAddrLock crAddrPhy p
  if ret ≠ 0 then (-1, p)
  else
    let (ret, p) := writeDataLock crData p
    if ret ≠ 0 then (-1, p) else (0, p)

def pcieCrRead (crAddrPhy : BitVec 32) (p : Phy) : ℤ × Phy :=
  let (val, p) := writeAddrLock crAddrPhy p
  if val ≠ 0 then (-1, p)
  else
    let (val, p) := readDataLock p
    if val = -1 then (-1, p) else (val, p)

def eth2 : ℕ := 2
def eth3 : ℕ := 3

/-- The bits of `phy_cr_cap_en` and of `reserved_0`. -/
def phyCrCapEn : BitVec 12 := 1

def gmacHwSerdesAddrLock (serdesAddr : BitVec 32) (p : Phy) : ℤ × Phy :=
  let p := p.writeCtrl (p.ctrl.setData serdesAddr)
  let p := p.writeCtrl (p.ctrl.raise .capAddr)
  let (out, p) := p.readStatus
  if out.ack then
    let p := p.writeCtrl (p.ctrl.drop .capAddr)
    let (out, p) := p.readStatus
    if out.ack then (-1, p) else (0, p)
  else (-1, p)

/-- Without the HP subsystem no register is accessed, and the acknowledge stays 0. -/
def gmacHwSerdesPrepare (hpSubsys : Bool) (id : ℕ) (addr : BitVec 32) (p : Phy) : ℤ × Phy :=
  if id ≠ eth2 ∧ id ≠ eth3 then (-1, p)
  else if !hpSubsys then (-1, p)
  else gmacHwSerdesAddrLock addr (p.writeCtrl ⟨0, fun _ => false, phyCrCapEn⟩)

def gmacHwSerdesRead (hpSubsys : Bool) (id : ℕ) (addr : BitVec 32) (p : Phy) : ℤ × Phy :=
  let (ret, p) := gmacHwSerdesPrepare hpSubsys id addr p
  if ret ≠ 0 then (-1, p)
  else
    let p := p.writeCtrl (p.ctrl.raise .read)
    let (out, p) := p.readStatus
    if out.ack then
      let readValue := out.data.toNat
      let p := p.writeCtrl (p.ctrl.drop .read)
      let (out, p) := p.readStatus
      if out.ack then (-1, p) else (readValue, p)
    else (-1, p)

def gmacHwSerdesWrite (hpSubsys : Bool) (id : ℕ) (addr data : BitVec 32) (p : Phy) : ℤ × Phy :=
  let (ret, p) := gmacHwSerdesPrepare hpSubsys id addr p
  if ret ≠ 0 then (-1, p)
  else
    let p := p.writeCtrl (p.ctrl.setData data)
    let p := p.writeCtrl (p.ctrl.raise .capData)
    let (out, p) := p.readStatus
    if out.ack then
      let p := p.writeCtrl (p.ctrl.drop .capData)
      let (out, p) := p.readStatus
      if out.ack then (-1, p)
      else
        let p := p.writeCtrl (p.ctrl.raise .write)
        let (out, p) := p.readStatus
        if out.ack then
          let p := p.writeCtrl (p.ctrl.drop .write)
          let (out, p) := p.readStatus
          if out.ack then (-1, p) else (0, p)
        else (-1, p)
    else (-1, p)

def usbCapture (data : BitVec 32) (s : Strobe) : Ctrl :=
  Ctrl.raise ⟨data.setWidth 16, fun _ => false, 0⟩ s

def usbPhyCheckError (p : Phy) : Phy := p.readStatus.2

def usbPhyCrWrite (addr data : BitVec 32) (p : Phy) : Phy :=
  let p := p.writeCtrl (usbCapture addr .capAddr)
  let p := usbPhyCheckError p
  let p := p.writeCtrl (p.ctrl.drop .capAddr)
  let p := usbPhyCheckError p
  let p := p.writeCtrl (usbCapture data .capData)
  let p := usbPhyCheckError p
  let p := p.writeCtrl (p.ctrl.drop .capData)
  let p := usbPhyCheckError p
  let p := p.writeCtrl (p.ctrl.raise .write)
  let p := usbPhyCheckError p
  let p := p.writeCtrl (p.ctrl.drop .write)
  usbPhyCheckError p

def usbPhyCrRead (addr : BitVec 32) (p : Phy) : BitVec 32 × Phy :=
  let p := p.writeCtrl (usbCapture addr .capAddr)
  let p := usbPhyCheckError p
  let p := p.writeCtrl (p.ctrl.drop .capAddr)
  let p := usbPhyCheckError p
  let p := p.writeCtrl (p.ctrl.raise .read)
  let p := usbPhyCheckError p
  let (stat, p) := p.readStatus
  let retVal := stat.data.setWidth 32
  let p := p.writeCtrl (p.ctrl.drop .read)
  (retVal, usbPhyCheckError p)

inductive Access where
  | pcieCrRead (crAddrPhy : BitVec 32)
  | pcieCrWrite (crAddrPhy crData : BitVec 32)
  | gmacHwSerdesRead (hpSubsys : Bool) (id : ℕ) (addr : BitVec 32)
  | gmacHwSerdesWrite (hpSubsys : Bool) (id : ℕ) (addr data : BitVec 32)
  | usbPhyCrRead (addr : BitVec 32)
  | usbPhyCrWrite (addr data : BitVec 32)

namespace Access

def reads : Access → Bool
  | .pcieCrRead .. | .gmacHwSerdesRead .. | .usbPhyCrRead .. => true
  | .pcieCrWrite .. | .gmacHwSerdesWrite .. | .usbPhyCrWrite .. => false

def phases (a : Access) : List Strobe :=
  if a.reads then [.capAddr, .read] else [.capAddr, .capData, .write]

/-- `usb_phy_cr_write` returns nothing, as if it was done. -/
def run : Access → Phy → ℤ × Phy
  | .pcieCrRead crAddrPhy, p => PhyHandshake.pcieCrRead crAddrPhy p
  | .pcieCrWrite crAddrPhy crData, p => PhyHandshake.pcieCrWrite crAddrPhy crData p
  | .gmacHwSerdesRead hpSubsys id addr, p => PhyHandshake.gmacHwSerdesRead hpSubsys id addr p
  | .gmacHwSerdesWrite hpSubsys id addr data, p =>
    PhyHandshake.gmacHwSerdesWrite hpSubsys id addr data p
  | .usbPhyCrRead addr, p =>
    ((PhyHandshake.usbPhyCrRead addr p).1.toNat, (PhyHandshake.usbPhyCrRead addr p).2)
  | .usbPhyCrWrite addr data, p => (0, PhyHandshake.usbPhyCrWrite addr data p)

end Access

def high (s : Strobe) : List Event → Bool
  | [] => false
  | .write _ :: l => high s l
  | .read c v :: l => high s l || (c.up s && v.ack)

def saw (s : Strobe) : List Event → Bool
  | [] => false
  | .write _ :: l => saw s l
  | .read c v :: l => saw s l || (high s l && !c.up s && !v.ack)

/-- The PHY presented the value with the acknowledge, while the strobe of a read was up. -/
def Presented (ret : ℤ) : List Event → Prop
  | [] => False
  | .write _ :: l => Presented ret l
  | .read c v :: l => Presented ret l ∨ c.up .read = true ∧ v.ack = true ∧ ret = v.data.toNat

/-- No strobe goes up before the phases in front of it saw both levels. -/
def Ordered (phases : List Strobe) : List Event → Prop
  | [] => True
  | .write c :: l => Ordered phases l ∧
      phases.Pairwise fun s s' => c.up s' = true → saw s l = true
  | .read _ _ :: l => Ordered phases l

def lastCtrl : List Event → Option Ctrl
  | [] => none
  | .write c :: _ => some c
  | .read _ _ :: l => lastCtrl l

structure Handshake (phases : List Strobe) (reads : Bool) (ret : ℤ) (log : List Event) : Prop where
  complete : ret ≠ -1 → ∀ s ∈ phases, saw s log = true
  value : reads = true → ret ≠ -1 → Presented ret log
  ordered : Ordered phases log
  clean : ∀ c, lastCtrl log = some c → ∀ s, c.up s = false

def Quiet (c : Ctrl) : Prop := ∀ s, s ≠ .capAddr → c.up s = false

/-- What the PHY returns to the reads, in their order, leads to a return without a strobe, and to
an error if an acknowledge is missing. -/
def Access.Allowed (c : Ctrl) (st : ℕ → Status) : Access → Prop
  | .pcieCrRead _ => Quiet c ∧ (st 0).ack = true ∧ ((st 1).ack = true ∨
      (st 2).ack = true ∧
        ((st 4).ack = true ∨ (st 3).ack = true ∨ (st 3).data = (st 2).data))
  | .pcieCrWrite .. => Quiet c ∧ (st 0).ack = true ∧ ((st 1).ack = true ∨
      (st 2).ack = true ∧ ((st 3).ack = true ∨ (st 4).ack = true))
  | .gmacHwSerdesRead hpSubsys id _ => (id ≠ eth2 ∧ id ≠ eth3) ∨ hpSubsys = false ∨
      (st 0).ack = true ∧ ((st 1).ack = true ∨ (st 2).ack = true)
  | .gmacHwSerdesWrite hpSubsys id _ _ => (id ≠ eth2 ∧ id ≠ eth3) ∨ hpSubsys = false ∨
      (st 0).ack = true ∧ ((st 1).ack = true ∨
        (st 2).ack = true ∧ ((st 3).ack = true ∨ (st 4).ack = true))
  | .usbPhyCrRead _ => (st 0).ack = true ∧ (st 1).ack = false ∧
      ((st 3).ack = true ∨ (st 2).ack = true ∧ (st 3).data = (st 2).data) ∧ (st 4).ack = false
  | .usbPhyCrWrite .. => (st 0).ack = true ∧ (st 1).ack = false ∧ (st 2).ack = true ∧
      (st 3).ack = false ∧ (st 4).ack = true ∧ (st 5).ack = false

section Runs

def Phy.strobe (p : Phy) (c : Ctrl) : Phy := (p.writeCtrl c).readStatus.2

variable {p : Phy} {c : Ctrl} {s s' : Strobe}

@[simp] theorem strobe_ctrl : (p.strobe c).ctrl = c := rfl

@[simp] theorem strobe_status : (p.strobe c).status = p.status := rfl

@[simp] theorem strobe_reads : (p.strobe c).reads = p.reads + 1 := rfl

@[simp] theorem strobe_log :
    (p.strobe c).log = .read c (p.status p.reads) :: .write c :: p.log := rfl

@[simp] theorem writeCtrl_ctrl : (p.writeCtrl c).ctrl = c := rfl

@[simp] theorem writeCtrl_status : (p.writeCtrl c).status = p.status := rfl

@[simp] theorem writeCtrl_reads : (p.writeCtrl c).reads = p.reads := rfl

@[simp] theorem writeCtrl_log : (p.writeCtrl c).log = .write c :: p.log := rfl

@[simp] theorem raise_up : (c.raise s).up s' = if s' = s then true else c.up s' :=
  Function.update_apply ..

@[simp] theorem drop_up : (c.drop s).up s' = if s' = s then false else c.up s' :=
  Function.update_apply ..

@[simp] theorem setData_up {data : BitVec 32} : (c.setData data).up = c.up := rfl

def addrUp (a : BitVec 32) (p : Phy) : Phy :=
  (p.writeCtrl (p.ctrl.setData a)).strobe ((p.ctrl.setData a).raise .capAddr)

def addrDown (a : BitVec 32) (p : Phy) : Phy :=
  (addrUp a p).strobe ((addrUp a p).ctrl.drop .capAddr)

theorem writeAddrLock_eq (a : BitVec 32) (p : Phy) :
    writeAddrLock a p =
      if (p.status p.reads).ack then
        if (p.status (p.reads + 1)).ack then (-1, addrDown a p) else (0, addrDown a p)
      else (-1, addrUp a p) := rfl

def readUp (p : Phy) : Phy := p.strobe (p.ctrl.raise .read)

def readDown (again : Bool) (p : Phy) : Phy :=
  (if again then (readUp p).readStatus.2 else readUp p).strobe ((readUp p).ctrl.drop .read)

theorem readDataLock_eq (p : Phy) :
    readDataLock p =
      if (p.status p.reads).ack then
        if (p.status (p.reads + 1 + 1)).ack then (-1, readDown true p)
        else (((p.status (p.reads + 1)).data.toNat : ℤ), readDown true p)
      else (-1, readUp p) := rfl

def dataUp (data : BitVec 32) (p : Phy) : Phy :=
  (p.writeCtrl (p.ctrl.setData data)).strobe ((p.ctrl.setData data).raise .capData)

def dataDown (data : BitVec 32) (p : Phy) : Phy :=
  (dataUp data p).strobe ((dataUp data p).ctrl.drop .capData)

def writeUp (data : BitVec 32) (p : Phy) : Phy :=
  (dataDown data p).strobe ((dataDown data p).ctrl.raise .write)

def writeDown (data : BitVec 32) (p : Phy) : Phy :=
  (writeUp data p).strobe ((writeUp data p).ctrl.drop .write)

theorem writeDataLock_eq (data : BitVec 32) (p : Phy) :
    writeDataLock data p =
      if (p.status p.reads).ack then
        if (p.status (p.reads + 1)).ack then (-1, dataDown data p)
        else if (p.status (p.reads + 1 + 1)).ack then
          if (p.status (p.reads + 1 + 1 + 1)).ack then (-1, writeDown data p)
          else (0, writeDown data p)
        else (-1, writeUp data p)
      else (-1, dataUp data p) := rfl

theorem pcieCrRead_eq (a : BitVec 32) (hreads : p.reads = 0) :
    pcieCrRead a p =
      if (p.status 0).ack then
        if (p.status 1).ack then (-1, addrDown a p)
        else if (p.status 2).ack then
          if (p.status 4).ack then (-1, readDown true (addrDown a p))
          else (((p.status 3).data.toNat : ℤ), readDown true (addrDown a p))
        else (-1, readUp (addrDown a p))
      else (-1, addrUp a p) := by
  have hstatus : (addrDown a p).status = p.status := rfl
  have hdone : (addrDown a p).reads = 2 := congrArg (· + 2) hreads
  have hvalue : ((p.status 3).data.toNat : ℤ) ≠ -1 := by omega
  unfold pcieCrRead
  rw [writeAddrLock_eq, hreads]
  by_cases h0 : (p.status 0).ack = true
  · by_cases h1 : (p.status 1).ack = true
    · simp [h0, h1]
    · by_cases h2 : (p.status 2).ack = true
      · by_cases h4 : (p.status 4).ack = true
        · simp [h0, h1, h2, h4, readDataLock_eq, hstatus, hdone]
        · simp [h0, h1, h2, h4, readDataLock_eq, hstatus, hdone, hvalue]
      · simp [h0, h1, h2, readDataLock_eq, hstatus, hdone]
  · simp [h0]

theorem pcieCrWrite_eq (a data : BitVec 32) (hreads : p.reads = 0) :
    pcieCrWrite a data p =
      if (p.status 0).ack then
        if (p.status 1).ack then (-1, addrDown a p)
        else if (p.status 2).ack then
          if (p.status 3).ack then (-1, dataDown data (addrDown a p))
          else if (p.status 4).ack then
            if (p.status 5).ack then (-1, writeDown data (addrDown a p))
            else (0, writeDown data (addrDown a p))
          else (-1, writeUp data (addrDown a p))
        else (-1, dataUp data (addrDown a p))
      else (-1, addrUp a p) := by
  have hstatus : (addrDown a p).status = p.status := rfl
  have hdone : (addrDown a p).reads = 2 := congrArg (· + 2) hreads
  unfold pcieCrWrite
  rw [writeAddrLock_eq, hreads]
  by_cases h0 : (p.status 0).ack = true
  · by_cases h1 : (p.status 1).ack = true
    · simp [h0, h1]
    · by_cases h2 : (p.status 2).ack = true
      · by_cases h3 : (p.status 3).ack = true
        · simp [h0, h1, h2, h3, writeDataLock_eq, hstatus, hdone]
        · by_cases h4 : (p.status 4).ack = true
          · by_cases h5 : (p.status 5).ack = true
            · simp [h0, h1, h2, h3, h4, h5, writeDataLock_eq, hstatus, hdone]
            · simp [h0, h1, h2, h3, h4, h5, writeDataLock_eq, hstatus, hdone]
          · simp [h0, h1, h2, h3, h4, writeDataLock_eq, hstatus, hdone]
      · simp [h0, h1, h2, writeDataLock_eq, hstatus, hdone]
  · simp [h0]

structure Fresh (p : Phy) : Prop where
  reads : p.reads = 0
  high : ∀ s, high s p.log = false
  saw : ∀ s, saw s p.log = false
  ordered : ∀ phases, Ordered phases p.log
  noValue : ∀ ret, ¬ Presented ret p.log

theorem not_handshake_of_up {phases : List Strobe} {reads : Bool} {ret : ℤ} {log : List Event}
    (s : Strobe) (hlast : lastCtrl log = some c) (hup : c.up s = true) :
    ¬ Handshake phases reads ret log := by
  intro h
  rw [h.clean c hlast s] at hup
  cases hup

theorem up_eq_false {phases : List Strobe} (a : BitVec 32) (hfresh : Fresh p)
    (h : Ordered (.capAddr :: phases) (addrUp a p).log) (hs : s ∈ phases) :
    p.ctrl.up s = false := by
  have hup := List.rel_of_pairwise_cons h.1.2 hs
  rw [setData_up, hfresh.saw] at hup
  exact Bool.eq_false_of_not_eq_true fun htrue => Bool.false_ne_true (hup htrue)

theorem addrDown_iff (a : BitVec 32) (hfresh : Fresh p) (reads : Bool) :
    Handshake (if reads then [.capAddr, .read] else [.capAddr, .capData, .write]) reads (-1)
      (addrDown a p).log ↔ Quiet p.ctrl := by
  obtain ⟨hreads, hhigh, hsaw, hordered, -⟩ := hfresh
  constructor
  · intro h s hs
    have hclean := h.clean _ rfl s
    simpa [addrDown, addrUp, hs] using hclean
  · intro hq
    have hdata := hq .capData nofun
    have hwrite := hq .write nofun
    have hread := hq .read nofun
    constructor
    · intro hret
      exact absurd rfl hret
    · intro _ hret
      exact absurd rfl hret
    · cases reads <;> simp [addrDown, addrUp, Ordered, hordered, hdata, hwrite, hread]
    · intro c hc s
      cases hc
      cases s <;> simp [addrUp, hdata, hwrite, hread]

theorem readDown_quiet {ret : ℤ} {again : Bool} (a : BitVec 32) (hfresh : Fresh p)
    (h : Handshake [.capAddr, .read] true ret (readDown again (addrDown a p)).log) :
    Quiet p.ctrl := by
  intro s hs
  cases s with
  | capAddr => exact absurd rfl hs
  | capData =>
    have hclean := h.clean _ rfl .capData
    simpa [readUp, addrDown, addrUp] using hclean
  | write =>
    have hclean := h.clean _ rfl .write
    simpa [readUp, addrDown, addrUp] using hclean
  | read =>
    have hordered : Ordered [.capAddr, .read] (addrUp a p).log := by
      cases again with
      | false => exact h.ordered.1.1.1
      | true => exact h.ordered.1.1.1
    exact up_eq_false a hfresh hordered (List.mem_singleton_self _)

theorem readDown_ordered (again : Bool) (a : BitVec 32) (hfresh : Fresh p) (hq : Quiet p.ctrl)
    (h0 : (p.status 0).ack = true) (h1 : (p.status 1).ack = false) :
    Ordered [.capAddr, .read] (readDown again (addrDown a p)).log ∧
      ∀ c, lastCtrl (readDown again (addrDown a p)).log = some c → ∀ s, c.up s = false := by
  obtain ⟨hreads, hhigh, hsaw, hordered, -⟩ := hfresh
  have hdata := hq .capData nofun
  have hwrite := hq .write nofun
  have hread := hq .read nofun
  constructor
  · cases again <;> simp [readDown, readUp, addrDown, addrUp, Ordered, saw, high, hordered, hread,
      Phy.readStatus, hreads, h0, h1]
  · intro c hc s
    cases again <;> cases hc <;> cases s <;> simp [readUp, addrDown, addrUp, hdata, hwrite]

theorem readDown_saw {again : Bool} (a : BitVec 32) (hreads : p.reads = 0)
    (h0 : (p.status 0).ack = true) (h1 : (p.status 1).ack = false) (h2 : (p.status 2).ack = true)
    (hlow : (p.status (if again then 4 else 3)).ack = false) :
    ∀ s ∈ [Strobe.capAddr, .read], saw s (readDown again (addrDown a p)).log = true := by
  intro s hs
  cases again <;> cases s <;>
    simp_all [readDown, readUp, addrDown, addrUp, saw, high, Phy.readStatus]

theorem readDown_value {again : Bool} {ret : ℤ} (a : BitVec 32) (hfresh : Fresh p)
    (hread : p.ctrl.up .read = false) :
    Presented ret (readDown again (addrDown a p)).log ↔
      (p.status 2).ack = true ∧ ret = (p.status 2).data.toNat ∨
        again = true ∧ (p.status 3).ack = true ∧ ret = (p.status 3).data.toNat := by
  have hreads := hfresh.reads
  have hnone := hfresh.noValue ret
  cases again with
  | false => simp [readDown, readUp, addrDown, addrUp, Presented, hnone, hreads, hread]
  | true =>
    simp [readDown, readUp, addrDown, addrUp, Presented, hnone, hreads, hread, Phy.readStatus]

theorem pcieCrRead_iff (a : BitVec 32) (hfresh : Fresh p) :
    Handshake [.capAddr, .read] true (pcieCrRead a p).1 (pcieCrRead a p).2.log ↔
      Quiet p.ctrl ∧ (p.status 0).ack = true ∧ ((p.status 1).ack = true ∨
        (p.status 2).ack = true ∧ ((p.status 4).ack = true ∨ (p.status 3).ack = true ∨
          (p.status 3).data = (p.status 2).data)) := by
  have hreads := hfresh.reads
  rw [pcieCrRead_eq a hreads]
  by_cases h0 : (p.status 0).ack = true
  · by_cases h1 : (p.status 1).ack = true
    · simp only [h0, h1, if_true, true_or, and_true]
      exact addrDown_iff a hfresh true
    · rw [Bool.not_eq_true] at h1
      by_cases h2 : (p.status 2).ack = true
      · by_cases h4 : (p.status 4).ack = true
        · simp only [h0, h1, h2, h4, if_true, Bool.false_eq_true, if_false, true_or, or_true,
            and_true]
          constructor
          · intro h
            exact readDown_quiet a hfresh h
          · intro hq
            obtain ⟨hordered, hclean⟩ := readDown_ordered true a hfresh hq h0 h1
            exact ⟨fun hret => absurd rfl hret, fun _ hret => absurd rfl hret, hordered, hclean⟩
        · rw [Bool.not_eq_true] at h4
          simp only [h0, h1, h2, h4, if_true, Bool.false_eq_true, if_false, false_or, true_and]
          constructor
          · intro h
            refine ⟨readDown_quiet a hfresh h, ?_⟩
            have hq := readDown_quiet a hfresh h
            have hvalue := (readDown_value a hfresh (hq .read nofun)).mp (h.value rfl (by omega))
            simpa [h2, Nat.cast_inj, BitVec.toNat_inj, or_comm] using hvalue
          · rintro ⟨hq, hdata⟩
            obtain ⟨hordered, hclean⟩ := readDown_ordered true a hfresh hq h0 h1
            refine ⟨fun _ => readDown_saw a hreads h0 h1 h2 h4, fun _ _ => ?_, hordered, hclean⟩
            refine (readDown_value a hfresh (hq .read nofun)).mpr ?_
            simpa [h2, Nat.cast_inj, BitVec.toNat_inj, or_comm] using hdata
      · simp only [h0, h1, h2]
        refine iff_of_false (not_handshake_of_up .read rfl ?_) (by simp)
        simp
  · simp only [h0]
    refine iff_of_false (not_handshake_of_up .capAddr rfl ?_) (by simp)
    simp

theorem dataDown_quiet (a data : BitVec 32) (hfresh : Fresh p)
    (hread : p.ctrl.up .read = false)
    (h : Ordered [.capAddr, .capData, .write] (dataDown data (addrDown a p)).log) :
    Quiet p.ctrl := by
  intro s hs
  cases s with
  | capAddr => exact absurd rfl hs
  | capData => exact up_eq_false a hfresh h.1.1.1.1 List.mem_cons_self
  | write => exact up_eq_false a hfresh h.1.1.1.1 (List.mem_cons_of_mem _ List.mem_cons_self)
  | read => exact hread

theorem dataDown_ordered (a data : BitVec 32) (hfresh : Fresh p) (hq : Quiet p.ctrl)
    (h0 : (p.status 0).ack = true) (h1 : (p.status 1).ack = false) :
    Ordered [.capAddr, .capData, .write] (dataDown data (addrDown a p)).log ∧
      ∀ s, (dataDown data (addrDown a p)).ctrl.up s = false := by
  obtain ⟨hreads, hhigh, hsaw, hordered, -⟩ := hfresh
  have hdata := hq .capData nofun
  have hwrite := hq .write nofun
  have hread := hq .read nofun
  constructor
  · simp [dataDown, dataUp, addrDown, addrUp, Ordered, saw, high, hordered, hdata, hwrite, hreads,
      h0, h1]
  · intro s
    cases s <;> simp [dataDown, dataUp, addrDown, addrUp, hwrite, hread]

theorem writeDown_ordered (a data : BitVec 32) (hfresh : Fresh p) (hq : Quiet p.ctrl)
    (h0 : (p.status 0).ack = true) (h1 : (p.status 1).ack = false) (h2 : (p.status 2).ack = true)
    (h3 : (p.status 3).ack = false) :
    Ordered [.capAddr, .capData, .write] (writeDown data (addrDown a p)).log ∧
      ∀ s, (writeDown data (addrDown a p)).ctrl.up s = false := by
  obtain ⟨hordered, hdown⟩ := dataDown_ordered a data hfresh hq h0 h1
  have hreads := hfresh.reads
  constructor
  · unfold writeDown writeUp
    simp [Ordered, hordered, hdown]
    simp [dataDown, dataUp, addrDown, addrUp, saw, high, hreads, h0, h1, h2, h3, hq .capData nofun]
  · intro s
    unfold writeDown writeUp
    simp [hdown]

theorem writeDown_saw (a data : BitVec 32) (hreads : p.reads = 0)
    (h0 : (p.status 0).ack = true) (h1 : (p.status 1).ack = false) (h2 : (p.status 2).ack = true)
    (h3 : (p.status 3).ack = false) (h4 : (p.status 4).ack = true)
    (h5 : (p.status 5).ack = false) :
    ∀ s ∈ [Strobe.capAddr, .capData, .write],
      saw s (writeDown data (addrDown a p)).log = true := by
  intro s hs
  cases s with
  | capAddr => simp [writeDown, writeUp, dataDown, dataUp, addrDown, addrUp, saw, high, *]
  | capData => simp [writeDown, writeUp, dataDown, dataUp, addrDown, addrUp, saw, high, *]
  | write => simp [writeDown, writeUp, dataDown, dataUp, addrDown, addrUp, saw, high, *]
  | read => simp at hs

theorem handshake_write {ret : ℤ} {q : Phy} (hlast : lastCtrl q.log = some q.ctrl)
    (hcomplete : ret ≠ -1 → ∀ s ∈ [Strobe.capAddr, .capData, .write], saw s q.log = true)
    (h : Ordered [.capAddr, .capData, .write] q.log ∧ ∀ s, q.ctrl.up s = false) :
    Handshake [.capAddr, .capData, .write] false ret q.log := by
  refine ⟨hcomplete, nofun, h.1, fun c hc s => ?_⟩
  rw [hlast] at hc
  cases hc
  exact h.2 s

theorem pcieCrWrite_iff (a data : BitVec 32) (hfresh : Fresh p) :
    Handshake [.capAddr, .capData, .write] false (pcieCrWrite a data p).1
        (pcieCrWrite a data p).2.log ↔
      Quiet p.ctrl ∧ (p.status 0).ack = true ∧ ((p.status 1).ack = true ∨
        (p.status 2).ack = true ∧ ((p.status 3).ack = true ∨ (p.status 4).ack = true)) := by
  have hreads := hfresh.reads
  have hkeepDown : (dataDown data (addrDown a p)).ctrl.up .read = p.ctrl.up .read := by
    simp [dataDown, dataUp, addrDown, addrUp]
  have hkeep : (writeDown data (addrDown a p)).ctrl.up .read = p.ctrl.up .read := by
    simp [writeDown, writeUp, dataDown, dataUp, addrDown, addrUp]
  rw [pcieCrWrite_eq a data hreads]
  by_cases h0 : (p.status 0).ack = true
  · by_cases h1 : (p.status 1).ack = true
    · simp only [h0, h1, if_true, true_or, and_true]
      exact addrDown_iff a hfresh false
    · rw [Bool.not_eq_true] at h1
      by_cases h2 : (p.status 2).ack = true
      · by_cases h3 : (p.status 3).ack = true
        · simp only [h0, h1, h2, h3, if_true, Bool.false_eq_true, if_false, true_or, or_true,
            and_true]
          constructor
          · intro h
            exact dataDown_quiet a data hfresh (hkeepDown.symm.trans (h.clean _ rfl .read))
              h.ordered
          · intro hq
            exact handshake_write rfl (fun hret => absurd rfl hret)
              (dataDown_ordered a data hfresh hq h0 h1)
        · rw [Bool.not_eq_true] at h3
          by_cases h4 : (p.status 4).ack = true
          · by_cases h5 : (p.status 5).ack = true
            · simp only [h0, h1, h2, h3, h4, h5, if_true, Bool.false_eq_true, if_false, or_true,
                and_true]
              constructor
              · intro h
                exact dataDown_quiet a data hfresh (hkeep.symm.trans (h.clean _ rfl .read))
                  h.ordered.1.1
              · intro hq
                exact handshake_write rfl (fun hret => absurd rfl hret)
                  (writeDown_ordered a data hfresh hq h0 h1 h2 h3)
            · rw [Bool.not_eq_true] at h5
              simp only [h0, h1, h2, h3, h4, h5, if_true, Bool.false_eq_true, if_false, or_true,
                and_true]
              constructor
              · intro h
                exact dataDown_quiet a data hfresh (hkeep.symm.trans (h.clean _ rfl .read))
                  h.ordered.1.1
              · intro hq
                exact handshake_write rfl (fun _ => writeDown_saw a data hreads h0 h1 h2 h3 h4 h5)
                  (writeDown_ordered a data hfresh hq h0 h1 h2 h3)
          · simp only [h0, h1, h2, h3, h4]
            refine iff_of_false (not_handshake_of_up .write rfl ?_) (by simp)
            simp
      · simp only [h0, h1, h2]
        refine iff_of_false (not_handshake_of_up .capData rfl ?_) (by simp)
        simp
  · simp only [h0]
    refine iff_of_false (not_handshake_of_up .capAddr rfl ?_) (by simp)
    simp

theorem writeDataLock_result (data : BitVec 32) (p : Phy) :
    (if (writeDataLock data p).1 ≠ 0 then (-1, (writeDataLock data p).2)
      else (0, (writeDataLock data p).2)) = writeDataLock data p := by
  have hcases : ∃ q, writeDataLock data p = (0, q) ∨ writeDataLock data p = (-1, q) := by
    rw [writeDataLock_eq]
    split_ifs <;> first | exact ⟨_, Or.inl rfl⟩ | exact ⟨_, Or.inr rfl⟩
  obtain ⟨q, hdone | hfailed⟩ := hcases
  · rw [hdone]
    rfl
  · rw [hfailed]
    rfl

theorem gmacHwSerdesWrite_eq (hpSubsys : Bool) (id : ℕ) (a data : BitVec 32) (p : Phy) :
    gmacHwSerdesWrite hpSubsys id a data p =
      if id ≠ eth2 ∧ id ≠ eth3 ∨ hpSubsys = false then (-1, p)
      else pcieCrWrite a data (p.writeCtrl ⟨0, fun _ => false, phyCrCapEn⟩) := by
  unfold gmacHwSerdesWrite gmacHwSerdesPrepare
  by_cases hid : id ≠ eth2 ∧ id ≠ eth3
  · simp [hid]
  · cases hpSubsys with
    | false => simp [hid]
    | true =>
      rw [if_neg hid, if_neg (by simp), if_neg (by simp [hid])]
      change (if _ then _ else writeDataLock data
        (writeAddrLock a (p.writeCtrl ⟨0, fun _ => false, phyCrCapEn⟩)).2) = _
      rw [← writeDataLock_result]
      rfl

def readPhase (p : Phy) : ℤ × Phy :=
  if (p.status p.reads).ack then
    if (p.status (p.reads + 1)).ack then (-1, readDown false p)
    else (((p.status p.reads).data.toNat : ℤ), readDown false p)
  else (-1, readUp p)

theorem gmacHwSerdesRead_eq (hpSubsys : Bool) (id : ℕ) (a : BitVec 32) (p : Phy) :
    gmacHwSerdesRead hpSubsys id a p =
      if id ≠ eth2 ∧ id ≠ eth3 ∨ hpSubsys = false then (-1, p)
      else if (writeAddrLock a (p.writeCtrl ⟨0, fun _ => false, phyCrCapEn⟩)).1 ≠ 0 then
        (-1, (writeAddrLock a (p.writeCtrl ⟨0, fun _ => false, phyCrCapEn⟩)).2)
      else readPhase (writeAddrLock a (p.writeCtrl ⟨0, fun _ => false, phyCrCapEn⟩)).2 := by
  unfold gmacHwSerdesRead gmacHwSerdesPrepare
  by_cases hid : id ≠ eth2 ∧ id ≠ eth3
  · simp [hid]
  · cases hpSubsys with
    | false => simp [hid]
    | true =>
      rw [if_neg hid, if_neg (by simp), if_neg (by simp [hid])]
      rfl

theorem readPhase_iff (a : BitVec 32) (hfresh : Fresh p) (hq : Quiet p.ctrl) :
    Handshake [.capAddr, .read] true
        (if (writeAddrLock a p).1 ≠ 0 then (-1, (writeAddrLock a p).2)
          else readPhase (writeAddrLock a p).2).1
        (if (writeAddrLock a p).1 ≠ 0 then (-1, (writeAddrLock a p).2)
          else readPhase (writeAddrLock a p).2).2.log ↔
      (p.status 0).ack = true ∧ ((p.status 1).ack = true ∨ (p.status 2).ack = true) := by
  have hreads := hfresh.reads
  have hstatus : (addrDown a p).status = p.status := rfl
  have hdone : (addrDown a p).reads = 2 := congrArg (· + 2) hreads
  have hread := hq .read nofun
  rw [writeAddrLock_eq, hreads]
  by_cases h0 : (p.status 0).ack = true
  · by_cases h1 : (p.status 1).ack = true
    · simp only [h0, h1, if_true, true_or, and_true]
      exact iff_of_true ((addrDown_iff a hfresh true).mpr hq) trivial
    · rw [Bool.not_eq_true] at h1
      obtain ⟨hordered, hclean⟩ := readDown_ordered false a hfresh hq h0 h1
      by_cases h2 : (p.status 2).ack = true
      · by_cases h3 : (p.status 3).ack = true
        · simp [h0, h1, h2, h3, readPhase, hstatus, hdone]
          exact ⟨fun hret => absurd rfl hret, fun _ hret => absurd rfl hret, hordered, hclean⟩
        · rw [Bool.not_eq_true] at h3
          simp [h0, h1, h2, h3, readPhase, hstatus, hdone]
          refine ⟨fun _ => readDown_saw a hreads h0 h1 h2 h3, fun _ _ => ?_, hordered, hclean⟩
          exact (readDown_value a hfresh hread).mpr (Or.inl ⟨h2, rfl⟩)
      · simp [h0, h1, h2, readPhase, hstatus, hdone]
        refine not_handshake_of_up .read rfl ?_
        simp
  · simp [h0]
    refine not_handshake_of_up .capAddr rfl ?_
    simp

theorem fresh_start (c : Ctrl) (st : ℕ → Status) : Fresh ⟨c, st, 0, []⟩ :=
  ⟨rfl, fun _ => rfl, fun _ => rfl, fun _ => trivial, fun _ => id⟩

theorem fresh_prepared (c : Ctrl) (st : ℕ → Status) :
    Fresh (Phy.writeCtrl ⟨c, st, 0, []⟩ ⟨0, fun _ => false, phyCrCapEn⟩) := by
  refine ⟨rfl, fun _ => rfl, fun _ => rfl, fun phases => ⟨trivial, ?_⟩, fun _ => id⟩
  exact List.pairwise_of_forall fun _ _ hup => absurd hup Bool.false_ne_true

@[simp] theorem usbCapture_up {data : BitVec 32} :
    (usbCapture data s).up s' = if s' = s then true else false := raise_up

theorem usbPhyCrWrite_eq (a data : BitVec 32) (p : Phy) :
    usbPhyCrWrite a data p =
      ((((((p.strobe (usbCapture a .capAddr)).strobe ((usbCapture a .capAddr).drop .capAddr)).strobe
        (usbCapture data .capData)).strobe ((usbCapture data .capData).drop .capData)).strobe
        (((usbCapture data .capData).drop .capData).raise .write)).strobe
        ((((usbCapture data .capData).drop .capData).raise .write).drop .write)) := rfl

theorem usbPhyCrWrite_iff (a data : BitVec 32) (c : Ctrl) (st : ℕ → Status) :
    Handshake [.capAddr, .capData, .write] false 0 (usbPhyCrWrite a data ⟨c, st, 0, []⟩).log ↔
      (st 0).ack = true ∧ (st 1).ack = false ∧ (st 2).ack = true ∧
        (st 3).ack = false ∧ (st 4).ack = true ∧ (st 5).ack = false := by
  rw [usbPhyCrWrite_eq]
  constructor
  · intro h
    have hordered := h.ordered
    have hwrite := h.complete (by decide) .write (by decide)
    simp [Ordered, saw, high] at hordered hwrite
    obtain ⟨⟨h0, h1⟩, -, h2, h3⟩ := hordered
    exact ⟨h0, h1, h2, h3, hwrite⟩
  · rintro ⟨h0, h1, h2, h3, h4, h5⟩
    constructor
    · simp [saw, high, *]
    · simp
    · simp [Ordered, saw, high, *]
    · intro c hc s
      cases hc
      cases s <;> simp

theorem usbPhyCrRead_eq (a : BitVec 32) (p : Phy) :
    usbPhyCrRead a p =
      ((p.status (p.reads + 3)).data.setWidth 32,
        ((((p.strobe (usbCapture a .capAddr)).strobe ((usbCapture a .capAddr).drop .capAddr)).strobe
          (((usbCapture a .capAddr).drop .capAddr).raise .read)).readStatus.2.strobe
          ((((usbCapture a .capAddr).drop .capAddr).raise .read).drop .read))) := rfl

theorem usbPhyCrRead_iff (a : BitVec 32) (c : Ctrl) (st : ℕ → Status) :
    Handshake [.capAddr, .read] true (usbPhyCrRead a ⟨c, st, 0, []⟩).1.toNat
        (usbPhyCrRead a ⟨c, st, 0, []⟩).2.log ↔
      (st 0).ack = true ∧ (st 1).ack = false ∧
        ((st 3).ack = true ∨ (st 2).ack = true ∧ (st 3).data = (st 2).data) ∧
        (st 4).ack = false := by
  have hret : (((st 3).data.setWidth 32).toNat : ℤ) = (st 3).data.toNat := by
    rw [BitVec.toNat_setWidth_of_le (by decide)]
  rw [usbPhyCrRead_eq]
  change Handshake _ _ (((st 3).data.setWidth 32).toNat : ℤ) _ ↔ _
  rw [hret]
  constructor
  · intro h
    have hordered := h.ordered
    have hread := h.complete (by omega) .read (by decide)
    have hvalue := h.value rfl (by omega)
    simp [Ordered, saw, high, Presented, Phy.readStatus, BitVec.toNat_inj] at hordered hread hvalue
    exact ⟨hordered.1, hordered.2, hvalue.symm, hread.2⟩
  · rintro ⟨h0, h1, hdata, h4⟩
    have hhigh : (st 2).ack = true ∨ (st 3).ack = true := by
      obtain h3 | ⟨h2, -⟩ := hdata
      · exact Or.inr h3
      · exact Or.inl h2
    constructor
    · simp [saw, high, Phy.readStatus, *]
    · simp [Presented, Phy.readStatus, BitVec.toNat_inj, hdata.symm]
    · simp [Ordered, saw, high, Phy.readStatus, *]
    · intro c hc s
      cases hc
      cases s <;> simp

theorem handshake_refused (phases : List Strobe) (reads : Bool) : Handshake phases reads (-1) [] :=
  ⟨fun hret => absurd rfl hret, fun _ hret => absurd rfl hret, trivial, nofun⟩

theorem gmacHwSerdesRead_iff (hpSubsys : Bool) (id : ℕ) (a : BitVec 32) (c : Ctrl)
    (st : ℕ → Status) :
    Handshake [.capAddr, .read] true (gmacHwSerdesRead hpSubsys id a ⟨c, st, 0, []⟩).1
        (gmacHwSerdesRead hpSubsys id a ⟨c, st, 0, []⟩).2.log ↔
      (id ≠ eth2 ∧ id ≠ eth3) ∨ hpSubsys = false ∨
        (st 0).ack = true ∧ ((st 1).ack = true ∨ (st 2).ack = true) := by
  rw [gmacHwSerdesRead_eq, ← or_assoc]
  by_cases hrefused : id ≠ eth2 ∧ id ≠ eth3 ∨ hpSubsys = false
  · rw [if_pos hrefused]
    exact iff_of_true (handshake_refused _ _) (Or.inl hrefused)
  · rw [if_neg hrefused, readPhase_iff a (fresh_prepared c st) fun _ _ => rfl]
    exact (or_iff_right hrefused).symm

theorem gmacHwSerdesWrite_iff (hpSubsys : Bool) (id : ℕ) (a data : BitVec 32) (c : Ctrl)
    (st : ℕ → Status) :
    Handshake [.capAddr, .capData, .write] false
        (gmacHwSerdesWrite hpSubsys id a data ⟨c, st, 0, []⟩).1
        (gmacHwSerdesWrite hpSubsys id a data ⟨c, st, 0, []⟩).2.log ↔
      (id ≠ eth2 ∧ id ≠ eth3) ∨ hpSubsys = false ∨
        (st 0).ack = true ∧ ((st 1).ack = true ∨
          (st 2).ack = true ∧ ((st 3).ack = true ∨ (st 4).ack = true)) := by
  rw [gmacHwSerdesWrite_eq, ← or_assoc]
  by_cases hrefused : id ≠ eth2 ∧ id ≠ eth3 ∨ hpSubsys = false
  · rw [if_pos hrefused]
    exact iff_of_true (handshake_refused _ _) (Or.inl hrefused)
  · have hquiet : Quiet ⟨0, fun _ => false, phyCrCapEn⟩ := fun _ _ => rfl
    rw [if_neg hrefused, pcieCrWrite_iff a data (fresh_prepared c st)]
    exact (and_iff_right hquiet).trans (or_iff_right hrefused).symm

end Runs

theorem handshake_iff (a : Access) (c : Ctrl) (st : ℕ → Status) :
    Handshake a.phases a.reads (a.run ⟨c, st, 0, []⟩).1 (a.run ⟨c, st, 0, []⟩).2.log ↔
      a.Allowed c st := by
  cases a with
  | pcieCrRead crAddrPhy => exact pcieCrRead_iff crAddrPhy (fresh_start c st)
  | pcieCrWrite crAddrPhy crData => exact pcieCrWrite_iff crAddrPhy crData (fresh_start c st)
  | gmacHwSerdesRead hpSubsys id addr => exact gmacHwSerdesRead_iff hpSubsys id addr c st
  | gmacHwSerdesWrite hpSubsys id addr data =>
    exact gmacHwSerdesWrite_iff hpSubsys id addr data c st
  | usbPhyCrRead addr => exact usbPhyCrRead_iff addr c st
  | usbPhyCrWrite addr data => exact usbPhyCrWrite_iff addr data c st

/-- Nothing is acknowledged: PCIe leaves the strobe of the address up, and USB returns a value. -/
theorem handshake_not_all :
    ¬ Handshake [.capAddr, .read] true
        (pcieCrRead 0 ⟨⟨0, fun _ => false, 0⟩, fun _ => ⟨false, 0⟩, 0, []⟩).1
        (pcieCrRead 0 ⟨⟨0, fun _ => false, 0⟩, fun _ => ⟨false, 0⟩, 0, []⟩).2.log ∧
      ¬ Handshake [.capAddr, .read] true
        (usbPhyCrRead 0 ⟨⟨0, fun _ => false, 0⟩, fun _ => ⟨false, 0⟩, 0, []⟩).1.toNat
        (usbPhyCrRead 0 ⟨⟨0, fun _ => false, 0⟩, fun _ => ⟨false, 0⟩, 0, []⟩).2.log := by
  constructor
  · intro h
    have hup := h.clean _ rfl .capAddr
    exact absurd hup (by decide)
  · intro h
    have hsaw := h.complete (by decide) .capAddr (by decide)
    exact absurd hsaw (by decide)

end HiMpu.PhyHandshake
