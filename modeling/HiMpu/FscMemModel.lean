import HiMpu.Securec

/-!
# The FSC heap of the bare-metal runtime

`baremetal/memory/bm_fscmem.c` manages one region with boundary tags and
thirty-one size bins.  Control blocks live in the region itself and the bin
heads in the array `g_memory_node_list`; both are read and written here
through the same byte memory, since the code follows pointers between them.

The loops over a bin and over the bitmap carry fuel.  `none` means that the
fuel ran out; the run lemmas prove that this does not happen.
-/

namespace HiMpu.FscMem

def fscMemLastIdx : ℕ := 31
def fscMemMagicUsed : ℕ := 0x5a5aa5a5
def fscMemTailMagic : ℕ := 0xABCDDCBA
def fscMemSizeAlign : ℕ := 8
def fscMemUsedHeadSize : ℕ := 32
def fscMemTailSize : ℕ := 4
def fscMemMaxval : ℕ := 2 ^ 31 - fscMemSizeAlign
def fscMemMinSize : ℕ := fscMemUsedHeadSize + fscMemSizeAlign

def hwFail : ℕ := 1
def errnoBuildError (mid errno : ℕ) : ℕ := (0x02 <<< 24) ||| (mid <<< 8) ||| errno
def errnoMemOverwrite : ℕ := errnoBuildError 1 0x01
def errnoMemFreeAddrInvalid : ℕ := errnoBuildError 1 0x02
def errnoMemInitaddrIsinvalid : ℕ := errnoBuildError 1 0x03
def errnoMemInitsizeInvalid : ℕ := errnoBuildError 1 0x05
def errnoMemInitaddrInvalid : ℕ := errnoBuildError 1 0x06
def errnoMemPtcreateSizeIstohwmall : ℕ := errnoBuildError 1 0x07
def errnoMemPtcreateSizeIstoobig : ℕ := errnoBuildError 1 0x08
def errnoMemFreeShDamaged : ℕ := errnoBuildError 1 0x0b

inductive MemAlign where
  | align004 | align008 | align016 | align032 | align064 | align128 | align256
  | align512 | align1K | align2K | align4K | align8K | align16K
  | butt
  deriving DecidableEq, Repr

def MemAlign.pow : MemAlign → ℕ
  | .align004 => 2
  | .align008 => 3
  | .align016 => 4
  | .align032 => 5
  | .align064 => 6
  | .align128 => 7
  | .align256 => 8
  | .align512 => 9
  | .align1K => 10
  | .align2K => 11
  | .align4K => 12
  | .align8K => 13
  | .align16K => 14
  | .butt => 15

inductive Field where
  | next | size | prevSize | prev
  deriving DecidableEq, Repr

def Field.offset : Field → ℕ
  | .next => 0
  | .size => 8
  | .prevSize => 16
  | .prev => 24

def field (m : Mem) (block : ℕ) (f : Field) : ℕ :=
  m.load (block + f.offset) 8

def setField (m : Mem) (block : ℕ) (f : Field) (value : ℕ) : Mem :=
  m.store (block + f.offset) 8 value

/-- Where the linker placed `g_memory_node_list`. -/
structure Linkage where
  nodeList : ℕ
  aligned : nodeList % 8 = 0
  nonnull : 0 < nodeList
  fits : nodeList + fscMemLastIdx * fscMemUsedHeadSize ≤ 2 ^ 64

def Linkage.head (L : Linkage) (idx : ℕ) : ℕ :=
  L.nodeList + fscMemUsedHeadSize * idx

structure FscState where
  mem : Mem
  bitAmp : ℕ

def highestSetBit (value : ℕ) : ℕ → ℕ
  | 0 => 0
  | i + 1 => if value.testBit i then i else highestSetBit value i

def bmGetBits (value : ℕ) : ℕ := 31 - highestSetBit value 32

def fscMemIdx2bit (idx : ℕ) : ℕ := 0x80000000 >>> idx

def fscMemSz2idx (size : ℕ) : ℕ := 31 - bmGetBits (size % 2 ^ 32)

def alignUp (addr boundary : ℕ) : ℕ := (addr + (boundary - 1)) / boundary * boundary

def bmMemoryDeleteFsc (m : Mem) (current : ℕ) : Mem :=
  let m := setField m (field m current .next) .prev (field m current .prev)
  setField m (field m current .prev) .next (field m current .next)

def linkBehind (m : Mem) (head current : ℕ) : Mem :=
  let m := setField m current .prev head
  let m := setField m current .next (field m head .next)
  let m := setField m (field m head .next) .prev current
  setField m head .next current

def bmMemoryInsertFsc (L : Linkage) (s : FscState) (current : ℕ) : FscState :=
  let idx := fscMemSz2idx (field s.mem current .size)
  { mem := linkBehind s.mem (L.head idx) current
    bitAmp := s.bitAmp ||| fscMemIdx2bit idx }

def bmMemorySetHeadAddr (m : Mem) (useAddr ctrlAddr : ℕ) : Mem :=
  m.store (useAddr - 2) 2 ((useAddr - ctrlAddr) % 2 ^ 16)

def bmMemoryGetHeadAddr (m : Mem) (useAddr : ℕ) : ℕ :=
  useAddr - m.load (useAddr - 2) 2 - fscMemUsedHeadSize

def searchUseableLoop (m : Mem) (head size : ℕ) : ℕ → ℕ → Option ℕ
  | 0, _ => none
  | fuel + 1, current =>
    if current = head then some 0
    else if size ≤ field m current .size then some current
    else searchUseableLoop m head size fuel (field m current .next)

def searchUseableFsc (L : Linkage) (fuel : ℕ) (m : Mem) (size idx : ℕ) : Option ℕ :=
  searchUseableLoop m (L.head idx) size fuel (field m (L.head idx) .next)

/-- Drop the bits of the bins below `idx`, as the two shifts of a 32-bit
value do. -/
def dropBelow (bitAmp idx : ℕ) : ℕ := ((bitAmp <<< idx) % 2 ^ 32) >>> idx

/-- The loop of `bm_memory_search_fsc`.  The result is the state with the
cleaned bitmap, the block (or `0`) and the bin it was taken from. -/
def bmMemorySearchLoop (L : Linkage) (size stateIdx walkFuel : ℕ) :
    ℕ → FscState → ℕ → Option (FscState × ℕ × ℕ)
  | 0, _, _ => none
  | fuel + 1, s, idx =>
    let idx := bmGetBits (dropBelow s.bitAmp idx)
    if fscMemLastIdx ≤ idx then
      (searchUseableFsc L walkFuel s.mem size stateIdx).map fun block =>
        (s, block, stateIdx)
    else if field s.mem (L.head idx) .next = L.head idx then
      bmMemorySearchLoop L size stateIdx walkFuel fuel
        { s with bitAmp := s.bitAmp &&& (2 ^ 32 - 1 - fscMemIdx2bit idx) } idx
    else some (s, field s.mem (L.head idx) .next, idx)

def bmMemorySearchFsc (L : Linkage) (fuel : ℕ) (s : FscState) (size : ℕ) :
    Option (FscState × ℕ × ℕ) :=
  let stateIdx := fscMemSz2idx size
  bmMemorySearchLoop L size stateIdx fuel fuel s (stateIdx + 1)

/-- `alloc_size`: 64-bit arithmetic cut to `unsigned int`.  With four-byte
alignment the padding term `align - FSC_MEM_SIZE_ALIGN` wraps to `-4`. -/
def allocSize (size align : ℕ) : ℕ :=
  (alignUp size fscMemSizeAlign + (align + 2 ^ 64 - fscMemSizeAlign) +
    fscMemUsedHeadSize + fscMemTailSize) % 2 ^ 32

/-- Cut `asize` bytes off the end of a free block; the remainder changes its
bin when its size class does.  Returns the block that was cut off. -/
def splitBlock (L : Linkage) (s : FscState) (current idx asize : ℕ) : FscState × ℕ :=
  let rest := field s.mem current .size - asize
  let s := { s with mem := setField s.mem current .size rest }
  let s :=
    if idx ≠ fscMemSz2idx (field s.mem current .size) then
      bmMemoryInsertFsc L { s with mem := bmMemoryDeleteFsc s.mem current } current
    else s
  let plot := current + field s.mem current .size
  let m := setField s.mem plot .prevSize (field s.mem current .size)
  let m := setField m plot .size asize
  ({ s with mem := m }, plot)

/-- Split the free block that was found, or take it whole when the remainder
could not be a block. -/
def takeBlock (L : Linkage) (s : FscState) (current idx asize : ℕ) : FscState × ℕ :=
  if asize + fscMemMinSize ≤ field s.mem current .size then splitBlock L s current idx asize
  else ({ s with mem := bmMemoryDeleteFsc s.mem current }, current)

def markUsed (m : Mem) (current useAddr : ℕ) : Mem :=
  let m := setField m (current + field m current .size) .prevSize 0
  let m := setField m current .next fscMemMagicUsed
  let m := m.store (current + (field m current .size - fscMemTailSize)) 4 fscMemTailMagic
  let m := setField m current .prev 0
  bmMemorySetHeadAddr m useAddr (current + fscMemUsedHeadSize)

/-- `bm_memory_alloc_inner_fs`, which also names the block taken: `some
(current_block, use_addrr)` on success and `none` for the null pointer. -/
def allocInner (L : Linkage) (fuel : ℕ) (s : FscState) (size align : ℕ) :
    Option (FscState × Option (ℕ × ℕ)) :=
  if size = 0 then some (s, none)
  else
    let asize := allocSize size align
    if asize < size ∨ fscMemMaxval - fscMemUsedHeadSize - fscMemTailSize ≤ asize then
      some (s, none)
    else
      match bmMemorySearchFsc L fuel s asize with
      | none => none
      | some (s, current, idx) =>
        if current = 0 then some (s, none)
        else
          let taken := takeBlock L s current idx asize
          let useAddr := alignUp (taken.2 + fscMemUsedHeadSize) align
          some ({ taken.1 with mem := markUsed taken.1.mem taken.2 useAddr },
            some (taken.2, useAddr))

def usePointer : Option (ℕ × ℕ) → ℕ
  | none => 0
  | some (_, useAddr) => useAddr

def bmMemoryAllocInnerFs (L : Linkage) (fuel : ℕ) (s : FscState) (size align : ℕ) :
    Option (FscState × ℕ) :=
  (allocInner L fuel s size align).map fun result => (result.1, usePointer result.2)

/-- Merge the released block with a free successor.  The second component is
the result of `memset_s`. -/
def mergeNext (m : Mem) (current : ℕ) : Mem × ℕ :=
  let nextBlock := current + field m current .size
  if field m nextBlock .next ≠ fscMemMagicUsed then
    let m := bmMemoryDeleteFsc m nextBlock
    let m := setField m current .size (field m current .size + field m nextBlock .size)
    Securec.memsetS m nextBlock fscMemUsedHeadSize 0 fscMemUsedHeadSize
  else (m, Securec.eok)

/-- Merge the released block into a free predecessor; the last component is
the block that now holds the memory. -/
def mergePrev (m : Mem) (current : ℕ) : (Mem × ℕ) × ℕ :=
  if field m current .prevSize ≠ 0 then
    let prevBlock := current - field m current .prevSize
    let m := setField m prevBlock .size (field m prevBlock .size + field m current .size)
    let m := bmMemoryDeleteFsc m prevBlock
    (Securec.memsetS m current fscMemUsedHeadSize 0 fscMemUsedHeadSize, prevBlock)
  else ((m, Securec.eok), current)

def releaseBlock (L : Linkage) (s : FscState) (current : ℕ) : FscState :=
  let s := bmMemoryInsertFsc L s current
  let nextBlock := current + field s.mem current .size
  { s with mem := setField s.mem nextBlock .prevSize (field s.mem current .size) }

def bmMemoryFreeFsc (L : Linkage) (s : FscState) (addr : ℕ) : FscState × ℕ :=
  if addr = 0 then (s, errnoMemFreeAddrInvalid)
  else
    let current := bmMemoryGetHeadAddr s.mem addr
    let blockSize := field s.mem current .size
    if field s.mem current .next ≠ fscMemMagicUsed ∨ blockSize = 0 then
      (s, errnoMemFreeShDamaged)
    else if s.mem.load (current + blockSize - fscMemTailSize) 4 ≠ fscMemTailMagic then
      (s, errnoMemOverwrite)
    else
      let joined := mergeNext s.mem current
      if joined.2 ≠ Securec.eok then ({ s with mem := joined.1 }, hwFail)
      else
        let merged := mergePrev joined.1 current
        if merged.1.2 ≠ Securec.eok then ({ s with mem := merged.1.1 }, hwFail)
        else (releaseBlock L { s with mem := merged.1.1 } merged.2, Securec.eok)

def bmMemoryAllocOs (L : Linkage) (fuel : ℕ) (s : FscState) (size : ℕ) :
    Option (FscState × ℕ) :=
  bmMemoryAllocInnerFs L fuel s size fscMemSizeAlign

def bmMemoryAllocOsAlign (L : Linkage) (fuel : ℕ) (s : FscState) (size : ℕ)
    (alignPow : MemAlign) : Option (FscState × ℕ) :=
  if MemAlign.butt.pow ≤ alignPow.pow ∨ alignPow.pow < MemAlign.align004.pow then some (s, 0)
  else bmMemoryAllocInnerFs L fuel s size (2 ^ alignPow.pow)

def resetHeads (L : Linkage) (m : Mem) : ℕ → Mem
  | 0 => m
  | idx + 1 =>
    let m := resetHeads L m idx
    setField (setField m (L.head idx) .prev (L.head idx)) (L.head idx) .next (L.head idx)

/-- `bm_memory_init_fsc`; it also installs the three functions above in
`g_memory_arith_api`. -/
def bmMemoryInitFsc (L : Linkage) (s : FscState) (addr size : ℕ) : FscState × ℕ :=
  if addr = 0 then (s, errnoMemInitaddrIsinvalid)
  else if addr % 4 ≠ 0 then (s, errnoMemInitaddrInvalid)
  else if size % 4 ≠ 0 then (s, errnoMemInitsizeInvalid)
  else if size < fscMemUsedHeadSize then (s, errnoMemPtcreateSizeIstohwmall)
  else if fscMemMaxval < size then (s, errnoMemPtcreateSizeIstoobig)
  else
    let cleared := Securec.memsetS s.mem addr size 0 size
    if cleared.2 ≠ Securec.eok then ({ s with mem := cleared.1 }, hwFail)
    else
      let m := resetHeads L cleared.1 fscMemLastIdx
      let size := size - fscMemUsedHeadSize
      let bitAmp := s.bitAmp ||| 1 <<< (31 - fscMemLastIdx)
      let idx := fscMemSz2idx size
      let bitAmp := bitAmp ||| fscMemIdx2bit idx
      let head := L.head idx
      let m := setField m addr .next head
      let m := setField m addr .prevSize 0
      let m := setField m addr .size size
      let m := setField m addr .prev head
      let m := setField m head .next addr
      let m := setField m head .prev addr
      let nextBlock := addr + field m addr .size
      let m := setField m nextBlock .next fscMemMagicUsed
      let m := setField m nextBlock .size 0
      (⟨m, bitAmp⟩, Securec.eok)

end HiMpu.FscMem
