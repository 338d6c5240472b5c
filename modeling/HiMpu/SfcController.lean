import HiMpu.BmTypes

/-!
# The address mode of the SPI flash controller

The controller of `sfccom` with two chip selects.  One bit of its global
configuration says how many address bytes it sends, for both chip selects; each
flash remembers on its own how many it expects.  The `entry_4addr` functions of
`spi_flash_devices_ops.c` switch the two, each in its own order and with the
instructions that its flash understands.
-/

namespace HiMpu.SfcController

inductive ChipSelect
  | cs0
  | cs1
  deriving DecidableEq

def ChipSelect.toNat : ChipSelect → ℕ
  | cs0 => 0
  | cs1 => 1

def chipSelects : List ChipSelect := [.cs0, .cs1]

inductive Addrcycle
  | three
  | four
  deriving DecidableEq

/-- The `entry_4addr` of a flash driver. -/
inductive Driver
  | general
  | issi
  | s25fl256s
  | fs01gs
  | fs512s
  | n25q256a
  deriving DecidableEq

inductive Instruction
  | plain (ins : BitVec 8)
  | brwr (bank : BitVec 8)
  | wrarCr2v (cr2v : BitVec 8)
  deriving DecidableEq

def spiCmdWren : BitVec 8 := 0x06
def spiCmdEn4b : BitVec 8 := 0xB7
def spiCmdEx4b : BitVec 8 := 0xE9
def spiIssiCmdEx4b : BitVec 8 := 0x29
def spiEn4b : BitVec 8 := 0x80
def spiEx4b : BitVec 8 := 0x00
def globalConfigAddrMode4b : BitVec 32 := 1 <<< 2

structure Spi where
  chipselect : ChipSelect
  chipsize : BitVec 64
  addrcycle : Addrcycle
  originalAddrcycle : Addrcycle
  iobase : BitVec 64
  driver : Driver

structure Flash where
  fourByte : Bool
  wel : Bool
  cr2v : BitVec 8

structure Controller where
  globalConfig : BitVec 32
  busFlashSize : BitVec 32
  busBaseAddr : ChipSelect → BitVec 32
  flash : ChipSelect → Flash
  waited : List ChipSelect

/-- What a flash that is driven by this driver does with an instruction.  The write
of a register has an address: with the wrong number of address bytes it misses
the register. -/
def Flash.execute (f : Flash) (driver : Driver) (hostFourByte : Bool) : Instruction → Flash
  | .plain ins =>
    if ins = spiCmdWren then { f with wel := true }
    else
      match driver with
      | .general =>
        if ins = spiCmdEn4b then { f with fourByte := true }
        else if ins = spiCmdEx4b then { f with fourByte := false }
        else f
      | .issi =>
        if ins = spiCmdEn4b then { f with fourByte := true }
        else if ins = spiIssiCmdEx4b then { f with fourByte := false }
        else f
      | .n25q256a =>
        if ins = spiCmdEn4b ∧ f.wel then { f with fourByte := true, wel := false }
        else if ins = spiCmdEx4b ∧ f.wel then { f with fourByte := false, wel := false }
        else f
      | .fs01gs | .fs512s =>
        if ins = spiCmdEn4b then { f with fourByte := true, cr2v := f.cr2v ||| 0x80 } else f
      | .s25fl256s => f
  | .brwr bank =>
    match driver with
    | .s25fl256s => { f with fourByte := bank.getLsbD 7 }
    | _ => f
  | .wrarCr2v cr2v =>
    match driver with
    | .fs01gs | .fs512s =>
      if f.wel ∧ f.fourByte = hostFourByte then
        { f with fourByte := cr2v.getLsbD 7, cr2v := cr2v, wel := false }
      else f
    | _ => f

def Controller.hostFourByte (c : Controller) : Bool := c.globalConfig.getLsbD 2

def setHostAddrMode (c : Controller) (enable : Bool) : Controller :=
  { c with
    globalConfig :=
      if enable then c.globalConfig ||| globalConfigAddrMode4b
      else c.globalConfig &&& ~~~globalConfigAddrMode4b }

def send (c : Controller) (spi : Spi) (ins : Instruction) : Controller :=
  { c with
    flash := Function.update c.flash spi.chipselect
      ((c.flash spi.chipselect).execute spi.driver c.hostFourByte ins) }

def writeEnable (c : Controller) (spi : Spi) : Controller :=
  send c spi (.plain spiCmdWren)

def waitReady (c : Controller) (spi : Spi) : Controller :=
  { c with waited := c.waited ++ [spi.chipselect] }

/-- Read configuration register 2, change the bits of the mask, write it back. -/
def modifyCr2v (c : Controller) (spi : Spi) (mask val : BitVec 8) : Controller :=
  let regVal := (c.flash spi.chipselect).cr2v &&& ~~~mask ||| mask &&& val
  send (writeEnable c spi) spi (.wrarCr2v regVal)

def spiGeneralEnex4addr (c : Controller) (spi : Spi) (enable : Bool) (en4bCmd ex4bCmd : BitVec 8) :
    Controller :=
  if spi.addrcycle ≠ .four then setHostAddrMode c false
  else
    send (setHostAddrMode c enable) spi (.plain (if enable then en4bCmd else ex4bCmd))

def spiGeneralEntry4addr (c : Controller) (spi : Spi) (enable : Bool) : Controller :=
  spiGeneralEnex4addr c spi enable spiCmdEn4b spiCmdEx4b

def spiIssiEntry4addr (c : Controller) (spi : Spi) (enable : Bool) : Controller :=
  spiGeneralEnex4addr c spi enable spiCmdEn4b spiIssiCmdEx4b

def spiS25fl256sEntry4addr (c : Controller) (spi : Spi) (enable : Bool) : Controller :=
  if spi.addrcycle ≠ .four then setHostAddrMode c false
  else setHostAddrMode (send c spi (.brwr (if enable then spiEn4b else spiEx4b))) enable

/-- The two dies of the flash are one here, written twice. -/
def spiFs01gsEntry4addr (c : Controller) (spi : Spi) (enable : Bool) : Controller :=
  if spi.addrcycle ≠ .four then setHostAddrMode c false
  else if enable then
    setHostAddrMode (send (writeEnable c spi) spi (.plain spiCmdEn4b)) enable
  else setHostAddrMode (modifyCr2v (modifyCr2v c spi 0x80 0) spi 0x80 0) enable

def spiFs512sEntry4addr (c : Controller) (spi : Spi) (enable : Bool) : Controller :=
  if spi.addrcycle ≠ .four then setHostAddrMode c false
  else if enable then
    setHostAddrMode (send (writeEnable c spi) spi (.plain spiCmdEn4b)) enable
  else setHostAddrMode (modifyCr2v c spi 0x80 0) enable

def spiN25q256aEntry4addr (c : Controller) (spi : Spi) (enable : Bool) : Controller :=
  if spi.addrcycle ≠ .four then setHostAddrMode c false
  else
    setHostAddrMode
      (send (writeEnable c spi) spi (.plain (if enable then spiCmdEn4b else spiCmdEx4b))) enable

def entry4addr (c : Controller) (spi : Spi) (enable : Bool) : Controller :=
  match spi.driver with
  | .general => spiGeneralEntry4addr c spi enable
  | .issi => spiIssiEntry4addr c spi enable
  | .s25fl256s => spiS25fl256sEntry4addr c spi enable
  | .fs01gs => spiFs01gsEntry4addr c spi enable
  | .fs512s => spiFs512sEntry4addr c spi enable
  | .n25q256a => spiN25q256aEntry4addr c spi enable

def coreAddrModeSet (c : Controller) (spi : Spi) : Controller :=
  entry4addr c spi (spi.addrcycle = .four)

def Driver.exitsByRegister : Driver → Bool
  | .fs01gs | .fs512s => true
  | _ => false

section Effect

variable {c : Controller} {spi : Spi} {enable : Bool} {cs : ChipSelect}

@[simp] theorem setHostAddrMode_hostFourByte :
    (setHostAddrMode c enable).hostFourByte = enable := by
  cases enable <;> simp [setHostAddrMode, Controller.hostFourByte, globalConfigAddrMode4b]

structure SameBus (c c' : Controller) : Prop where
  busFlashSize : c'.busFlashSize = c.busFlashSize
  busBaseAddr : c'.busBaseAddr = c.busBaseAddr
  waited : c'.waited = c.waited

theorem entry4addr_sameBus (c : Controller) (spi : Spi) (enable : Bool) :
    SameBus c (entry4addr c spi enable) := by
  unfold entry4addr
  cases spi.driver <;> simp only [spiGeneralEntry4addr, spiIssiEntry4addr, spiGeneralEnex4addr,
    spiS25fl256sEntry4addr, spiFs01gsEntry4addr, spiFs512sEntry4addr, spiN25q256aEntry4addr] <;>
    repeat' split
  all_goals exact ⟨rfl, rfl, rfl⟩

theorem entry4addr_hostFourByte (c : Controller) (spi : Spi) (enable : Bool) :
    (entry4addr c spi enable).hostFourByte = (decide (spi.addrcycle = .four) && enable) := by
  have hsend : ∀ (c : Controller) (ins : Instruction),
      (send c spi ins).hostFourByte = c.hostFourByte := fun _ _ => rfl
  unfold entry4addr
  cases spi.driver <;> simp only [spiGeneralEntry4addr, spiIssiEntry4addr, spiGeneralEnex4addr,
    spiS25fl256sEntry4addr, spiFs01gsEntry4addr, spiFs512sEntry4addr, spiN25q256aEntry4addr] <;>
    repeat' split
  all_goals simp_all

theorem entry4addr_flash_of_ne (hcs : cs ≠ spi.chipselect) :
    (entry4addr c spi enable).flash cs = c.flash cs := by
  have hsend : ∀ (c : Controller) (ins : Instruction), (send c spi ins).flash cs = c.flash cs :=
    fun _ _ => Function.update_of_ne hcs _ _
  have hmode : ∀ (c : Controller) (enable : Bool), (setHostAddrMode c enable).flash = c.flash :=
    fun _ _ => rfl
  unfold entry4addr
  cases spi.driver <;> simp only [spiGeneralEntry4addr, spiIssiEntry4addr, spiGeneralEnex4addr,
    spiS25fl256sEntry4addr, spiFs01gsEntry4addr, spiFs512sEntry4addr, spiN25q256aEntry4addr,
    modifyCr2v, writeEnable] <;>
    repeat' split
  all_goals simp only [hsend, hmode]

@[simp] theorem send_flash_self (c : Controller) (spi : Spi) (ins : Instruction) :
    (send c spi ins).flash spi.chipselect =
      (c.flash spi.chipselect).execute spi.driver c.hostFourByte ins :=
  Function.update_self _ _ _

@[simp] theorem send_hostFourByte (c : Controller) (spi : Spi) (ins : Instruction) :
    (send c spi ins).hostFourByte = c.hostFourByte :=
  rfl

@[simp] theorem setHostAddrMode_flash (c : Controller) (enable : Bool) :
    (setHostAddrMode c enable).flash = c.flash :=
  rfl

theorem entry4addr_fourByte (c : Controller) (spi : Spi) (enable : Bool)
    (hfour : spi.addrcycle = .four) :
    ((entry4addr c spi enable).flash spi.chipselect).fourByte =
      (enable || spi.driver.exitsByRegister && !c.hostFourByte &&
        (c.flash spi.chipselect).fourByte) := by
  unfold entry4addr
  cases hdriver : spi.driver with
  | general | issi | s25fl256s | n25q256a =>
    cases enable <;>
      simp [spiGeneralEntry4addr, spiIssiEntry4addr, spiGeneralEnex4addr, spiS25fl256sEntry4addr,
        spiN25q256aEntry4addr, writeEnable, Flash.execute, hfour, hdriver, spiCmdEn4b,
        spiCmdEx4b, spiIssiCmdEx4b, spiCmdWren, spiEn4b, spiEx4b, Driver.exitsByRegister]
  | fs01gs | fs512s =>
    cases enable <;> cases hmode : c.hostFourByte <;>
      cases hflash : (c.flash spi.chipselect).fourByte <;>
      simp [spiFs01gsEntry4addr, spiFs512sEntry4addr, modifyCr2v, writeEnable, Flash.execute,
        hfour, hdriver, hmode, hflash, spiCmdEn4b, spiCmdWren, Driver.exitsByRegister]

theorem entry4addr_flash_of_three (hthree : spi.addrcycle ≠ .four) :
    (entry4addr c spi enable).flash = c.flash := by
  unfold entry4addr
  cases spi.driver <;>
    simp [spiGeneralEntry4addr, spiIssiEntry4addr, spiGeneralEnex4addr, spiS25fl256sEntry4addr,
      spiFs01gsEntry4addr, spiFs512sEntry4addr, spiN25q256aEntry4addr, hthree]

@[ext] structure View where
  host : Bool
  latch : ChipSelect → Bool
  size : BitVec 32
  base : ChipSelect → BitVec 32
  waited : List ChipSelect

def Controller.view (c : Controller) : View where
  host := c.hostFourByte
  latch := fun cs => (c.flash cs).fourByte
  size := c.busFlashSize
  base := c.busBaseAddr
  waited := c.waited

def View.switch (v : View) (spi : Spi) (enable : Bool) : View where
  host := decide (spi.addrcycle = .four) && enable
  latch :=
    if spi.addrcycle = .four then
      Function.update v.latch spi.chipselect
        (enable || spi.driver.exitsByRegister && !v.host && v.latch spi.chipselect)
    else v.latch
  size := v.size
  base := v.base
  waited := v.waited

theorem entry4addr_view (c : Controller) (spi : Spi) (enable : Bool) :
    (entry4addr c spi enable).view = c.view.switch spi enable := by
  have hbus := entry4addr_sameBus c spi enable
  ext1
  case host => exact entry4addr_hostFourByte c spi enable
  case latch =>
    by_cases hfour : spi.addrcycle = .four
    · simp only [Controller.view, View.switch, hfour, if_true]
      funext cs
      by_cases hcs : cs = spi.chipselect
      · subst hcs
        rw [Function.update_self]
        exact entry4addr_fourByte c spi enable hfour
      · rw [Function.update_of_ne hcs, entry4addr_flash_of_ne hcs]
    · simp only [Controller.view, View.switch, hfour, if_false, entry4addr_flash_of_three hfour]
  case size => exact hbus.busFlashSize
  case base => exact hbus.busBaseAddr
  case waited => exact hbus.waited

end Effect

end HiMpu.SfcController
