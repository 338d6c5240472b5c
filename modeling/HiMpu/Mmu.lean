import HiMpu.BmTypes
import HiMpu.ByteMemory

/-!
# The page tables of the real-time cores

`drivers/mmu/mmu.c`: a pool of memory is cut into tables one after the other,
and each region of a list is entered block by block.  Pointers are numbers, and
zero is `NULL`.  The loop over the blocks of a region carries fuel; the result
is `none` where the fuel runs out.
-/

namespace HiMpu.Mmu

inductive Granule
  | g4K
  | g64K
  deriving DecidableEq

structure MapRegion where
  virt : ℕ
  phys : ℕ
  size : ℕ
  maxLevel : ℕ
  attrs : ℕ

structure Board where
  /-- `g_mem_map_info`, which decides the translation control word. -/
  memMapInfo : List MapRegion
  cpuReleaseMmuTcr : ℕ

structure Ctrl where
  tlbAddr : ℕ
  tlbSize : ℕ
  tlbFillptr : ℕ
  granule : Granule
  startLevel : ℕ
  vaBits : ℕ

inductive Store
  | word (addr value : ℕ)
  | zero (table len : ℕ)
  | table (pte table : ℕ)
  | leaf (pte value : ℕ)
  deriving DecidableEq

structure State where
  ctrl : Ctrl
  mem : Mem
  tcr : ℕ
  stores : List Store

def reset (mem : Mem) : State where
  ctrl :=
    { tlbAddr := 0, tlbSize := 0, tlbFillptr := 0, granule := .g4K, startLevel := 0, vaBits := 0 }
  mem := mem
  tcr := 0
  stores := []

def mmuAttrDeviceNgnrne : ℕ := 0 <<< 2
def mmuAttrUncacheUnshare : ℕ := 3 <<< 2
def mmuAttrCacheShare : ℕ := 4 <<< 2 ||| 3 <<< 8
def mmuAccessRw : ℕ := 1 <<< 10 ||| 1 <<< 54 ||| 1 <<< 53
def mmuAccessRwx : ℕ := 1 <<< 10

/-- `g_mem_map_info` with the addresses of `libck/include/hi309x_memmap.h`. -/
def gMemMapInfo : List MapRegion :=
  [{ virt := 0x24000000, phys := 0x24000000, size := 0x1000000, maxLevel := 2,
     attrs := mmuAttrDeviceNgnrne ||| mmuAccessRwx },
   { virt := 0x08600000, phys := 0x08600000, size := 0x17FFFF, maxLevel := 2,
     attrs := mmuAttrDeviceNgnrne ||| mmuAccessRwx },
   { virt := 0x0c000000, phys := 0x0c000000, size := 0x00ffffff, maxLevel := 2,
     attrs := mmuAttrDeviceNgnrne ||| mmuAccessRwx },
   { virt := 0x30000000, phys := 0x30000000, size := 0x2FFFFFFF, maxLevel := 2,
     attrs := mmuAttrDeviceNgnrne ||| mmuAccessRwx },
   { virt := 0x93000000, phys := 0x93000000, size := 0x01000000, maxLevel := 2,
     attrs := mmuAttrCacheShare ||| mmuAccessRwx },
   { virt := 0x90000000, phys := 0x90000000, size := 0x30000, maxLevel := 2,
     attrs := mmuAttrUncacheUnshare ||| mmuAccessRw }]

def oneBlock : List MapRegion :=
  [{ virt := 0, phys := 0, size := 1, maxLevel := 2, attrs := 0 }]

def mmuPageBegin : ℕ := 0x93800000
def mmuPageEnd : ℕ := mmuPageBegin + 0x8000

def libckBoard : Board where
  memMapInfo := gMemMapInfo
  cpuReleaseMmuTcr := mmuPageEnd + 0x60 + 0x20 - 0x60 + 0x20

@[irreducible] def add64 (a b : ℕ) : ℕ := (a + b) % 2 ^ 64

@[irreducible] def sub64 (a b : ℕ) : ℕ := (a + 2 ^ 64 - b) % 2 ^ 64

theorem add64_of_lt {a b : ℕ} (hlt : a + b < 2 ^ 64) : add64 a b = a + b := by
  unfold add64
  exact Nat.mod_eq_of_lt hlt

theorem add64_mod_four {a b : ℕ} (hfour : 4 ∣ b) : add64 a b % 4 = a % 4 := by
  unfold add64
  omega

theorem sub64_of_le {a b : ℕ} (hle : b ≤ a) (hlt : a < 2 ^ 64) : sub64 a b = a - b := by
  unfold sub64
  omega

def pteTypeMask : ℕ := 3
def pteTypeFault : ℕ := 0
def pteTypeTable : ℕ := 3
def pteTypePage : ℕ := 3
def pteTypeBlock : ℕ := 1

def mmuAttrMask : ℕ := 0x31C
def mmuAccessMask : ℕ := 0x600000000004C0

def Granule.pageBits : Granule → ℕ
  | .g4K => 12
  | .g64K => 16

def Granule.levelBits : Granule → ℕ
  | .g4K => 9
  | .g64K => 13

def Granule.indexMask : Granule → ℕ
  | .g4K => 0x1FF
  | .g64K => 0x1FFF

def Granule.tableAddrMark : Granule → ℕ
  | .g4K => 0x0000FFFFFFFFF000
  | .g64K => 0x0000FFFFFFFF0000

def Granule.maxPteEntries : Granule → ℕ
  | .g4K => 512
  | .g64K => 8192

def bmMmuLevel2shift (g : Granule) (level : ℕ) : ℕ := g.pageBits + g.levelBits * (3 - level)

def Store.apply : Store → Mem → Mem
  | .word addr value, m => m.store addr 4 value
  | .zero start len, m => m.fill start len 0
  | .table pte target, m => m.store pte 8 (pteTypeTable ||| target)
  | .leaf pte value, m => m.store pte 8 value

def State.store (s : State) (e : Store) : State :=
  { s with mem := e.apply s.mem, stores := e :: s.stores }

def State.pte (s : State) (p : ℕ) : ℕ := s.mem.load p 8

def bmMmuGetPteType (s : State) (pte : ℕ) : ℕ := s.pte pte &&& pteTypeMask

def findPteLoop (s : State) (addr level : ℕ) : ℕ → ℕ → ℕ → ℕ
  | 0, _, _ => 0
  | n + 1, i, table =>
    let idx := addr >>> bmMmuLevel2shift s.ctrl.granule i &&& s.ctrl.granule.indexMask
    let pte := add64 table (8 * idx)
    if i = level then pte
    else if bmMmuGetPteType s pte ≠ pteTypeTable then 0
    else findPteLoop s addr level n (i + 1) (s.pte pte &&& s.ctrl.granule.tableAddrMark)

def bmMmuFindPte (s : State) (addr level : ℕ) : ℕ :=
  if level < s.ctrl.startLevel then 0
  else findPteLoop s addr level (4 - s.ctrl.startLevel) s.ctrl.startLevel s.ctrl.tlbAddr

def bmMmuCreateTable (s : State) : State × ℕ :=
  let newTable := s.ctrl.tlbFillptr
  let ptLen := s.ctrl.granule.maxPteEntries * 8
  let fillptr := add64 s.ctrl.tlbFillptr ptLen
  let s := { s with ctrl := { s.ctrl with tlbFillptr := fillptr } }
  if s.ctrl.tlbSize < sub64 fillptr s.ctrl.tlbAddr then (s, 0)
  else (s.store (.zero newTable ptLen), newTable)

def bmMmuSetPteTable (s : State) (pte table : ℕ) : State := s.store (.table pte table)

def bmMmuAddMapPteProcess (s : State) (map : MapRegion) (pte phys level : ℕ) : State × ℤ :=
  if level < map.maxLevel then
    if bmMmuGetPteType s pte = pteTypeFault then
      match bmMmuCreateTable s with
      | (s, newTable) =>
        if newTable = 0 then (s, bmFail) else (bmMmuSetPteTable s pte newTable, bmOk)
    else (s, bmOk)
  else if level = 3 then
    (s.store (.leaf pte (phys ||| map.attrs ||| pteTypePage)), bmOk)
  else
    (s.store (.leaf pte (phys ||| map.attrs ||| pteTypeBlock)), bmOk)

def levelLoop (map : MapRegion) (virt phys : ℕ) : ℕ → ℕ → State → ℕ → State × ℤ × ℕ
  | 0, _, s, blocksize => (s, bmOk, blocksize)
  | n + 1, level, s, blocksize =>
    let pte := bmMmuFindPte s virt level
    if pte = 0 then (s, bmFail, blocksize)
    else
      match bmMmuAddMapPteProcess s map pte phys level with
      | (s, ret) =>
        if ret ≠ 0 then (s, ret, blocksize)
        else
          levelLoop map virt phys n (level + 1) s
            (if level ≠ s.ctrl.startLevel then 1 <<< bmMmuLevel2shift s.ctrl.granule level
              else blocksize)

def mapLoop (map : MapRegion) : ℕ → State → ℕ → ℕ → ℕ → ℕ → State × Option ℤ
  | 0, s, _, _, _, _ => (s, none)
  | fuel + 1, s, virt, phys, mapSize, blocksize =>
    if mapSize < map.size then
      match levelLoop map virt phys (map.maxLevel + 1 - s.ctrl.startLevel) s.ctrl.startLevel s
          blocksize with
      | (s, ret, blocksize) =>
        if ret ≠ 0 then (s, some ret)
        else
          mapLoop map fuel s (add64 virt blocksize) (add64 phys blocksize)
            (add64 mapSize blocksize) blocksize
    else (s, some bmOk)

def bmMmuAddMap (fuel : ℕ) (s : State) (map : MapRegion) : State × Option ℤ :=
  if map.maxLevel ≤ s.ctrl.startLevel then (s, some bmFail)
  else mapLoop map fuel s map.virt map.phys 0 0

def tcrEl1Rsvd : ℕ := 1 <<< 31
def tcrIps (x : ℕ) : ℕ := x <<< 32
def tcrT0sz (x : ℕ) : ℕ := 64 - x
def tcrTg0 : Granule → ℕ
  | .g4K => 0 <<< 14
  | .g64K => 1 <<< 14
def tcrSharedInner : ℕ := 3 <<< 12
def tcrOrgnWbwa : ℕ := 1 <<< 10
def tcrIrgnWbwa : ℕ := 1 <<< 8

def maxAddr (info : List MapRegion) : ℕ :=
  info.foldl (fun maxAddr r =>
    if r.virt ≤ 2 ^ 64 - 1 - r.size then max maxAddr (r.virt + r.size) else maxAddr) 0

def addressBits (maxAddr : ℕ) : ℕ × ℕ :=
  if 1 <<< 44 < maxAddr then (5, 48)
  else if 1 <<< 42 < maxAddr then (4, 44)
  else if 1 <<< 40 < maxAddr then (3, 42)
  else if 1 <<< 36 < maxAddr then (2, 40)
  else if 1 <<< 32 < maxAddr then (1, 36)
  else (0, 32)

def bmMmuGetTcr (info : List MapRegion) (g : Granule) : ℕ × ℕ :=
  match addressBits (maxAddr info) with
  | (ips, vaBits) =>
    (tcrEl1Rsvd ||| tcrIps ips ||| (tcrTg0 g ||| tcrSharedInner ||| tcrOrgnWbwa ||| tcrIrgnWbwa) |||
      tcrT0sz vaBits, vaBits)

def addMaps (fuel : ℕ) : State → List MapRegion → State × Option ℤ
  | s, [] => (s, some bmOk)
  | s, map :: rest =>
    match bmMmuAddMap fuel s map with
    | (s, ret) => if ret = some bmOk then addMaps fuel s rest else (s, ret)

def startLevelOf : Granule → ℕ → Option ℕ
  | .g4K, vaBits => if vaBits < 39 then some 1 else some 0
  | .g64K, vaBits => if vaBits ≤ 36 then some 2 else none

def State.startAt (s : State) (level : ℕ) : State :=
  { s with ctrl := { s.ctrl with startLevel := level } }

def setupControl (b : Board) (s : State) (tlbAddr tlbLen : ℕ) (granule : Granule) : State :=
  let control := bmMmuGetTcr b.memMapInfo granule
  let s := { s with
    ctrl :=
      { tlbAddr := tlbAddr, tlbSize := tlbLen, tlbFillptr := tlbAddr, granule := granule,
        startLevel := 0, vaBits := control.2 }
    tcr := control.1
    stores := [] }
  s.store (.word b.cpuReleaseMmuTcr control.1)

def setupTables (fuel : ℕ) (s : State) (memMap : List MapRegion) : State × Option ℤ :=
  let created := bmMmuCreateTable s
  if created.2 = 0 then (created.1, some bmFail) else addMaps fuel created.1 memMap

def bmMmuSetupPgtables (b : Board) (fuel : ℕ) (s : State) (memMap : List MapRegion)
    (tlbAddr tlbLen : ℕ) (granule : Granule) : State × Option ℤ :=
  let s := setupControl b s tlbAddr tlbLen granule
  match startLevelOf granule s.ctrl.vaBits with
  | none => (s.startAt 1, some bmFail)
  | some startLevel => setupTables fuel (s.startAt startLevel) memMap

end HiMpu.Mmu
