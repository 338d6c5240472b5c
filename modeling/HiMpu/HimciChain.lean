import HiMpu.Himci
import HiMpu.SharedRegs

/-!
# The descriptor chain of the eMMC and SD host

`hi_mci_setup_data` cuts the mapped segments into descriptors of at most a page.  The
controller sees the memory through a window of 4 GB, and an address outside of it is cut
to its low word.  The size check counts the bytes and not the descriptors.
-/

namespace HiMpu.HimciChain

def enodev : ℤ := 19
def dmaDesOwn : BitVec 32 := 1 <<< 31
def dmaDesNextDes : BitVec 32 := 1 <<< 4
def dmaDesFirstDes : BitVec 32 := 1 <<< 3
def dmaDesLastDes : BitVec 32 := 1 <<< 2
def mmcMaxPageCount : ℕ := 16
def sizeofHimciDes : ℕ := 16
def desBytes : ℕ := 0x1000

def addrRemapMode : BitVec 32 := 0x1
def haddrOffset : BitVec 32 := 0x8
def emmcExtendAddrBitMask : BitVec 32 := 0x3f000
def sdioExtendAddrBitMask : BitVec 32 := 0xfc0000

structure LpSubsys where
  initFlag : Bool
  addrExtend0 : BitVec 32
  addrSel : BitVec 32

structure Segment where
  addr : ℕ
  len : ℕ
  addr_lt : addr < 2 ^ 34
  len_pos : 0 < len
  len_lt : len < 2 ^ 32

structure Des where
  ctrl : BitVec 32
  bufSize : BitVec 32
  bufAddr : BitVec 32
  nextAddr : BitVec 32

/-- The buffer of the descriptors, as far as it reaches and beyond, and `desc_cnt`.  The
count stays far below a word. -/
structure Chain where
  des : ℕ → Des
  cnt : ℕ

def haddrShift (emmc : Bool) : ℕ := if emmc then 12 else 18

def addrSelShift (emmc : Bool) : ℕ := if emmc then 8 else 10

def haddrField (emmc : Bool) (extend0 : BitVec 32) : ℕ :=
  (extend0.extractLsb' (haddrShift emmc) 4).toNat

def modeField (emmc : Bool) (extend0 : BitVec 32) : ℕ :=
  (extend0.extractLsb' (haddrShift emmc + 4) 2).toNat

def selField (emmc : Bool) (sel : BitVec 32) : ℕ :=
  (sel.extractLsb' (addrSelShift emmc) 2).toNat

def extendVal (emmc : Bool) (stack : BitVec 32) : BitVec 32 :=
  SharedRegs.regReadWrite (0x3f <<< haddrShift emmc)
    ((addrRemapMode <<< (haddrShift emmc + 4)) ||| (haddrOffset <<< haddrShift emmc)) stack

def hiMciHaddrExtendConfig (emmc : Bool) (stack : BitVec 32) (lp : LpSubsys) : ℤ × LpSubsys :=
  let mask := if emmc then emmcExtendAddrBitMask else sdioExtendAddrBitMask
  if lp.initFlag then
    (0, { lp with
      addrExtend0 := SharedRegs.regReadWrite mask (extendVal emmc stack) lp.addrExtend0 })
  else (-enodev, lp)

/-- The address as the controller has to give it.  When the registers cannot be read and
outside of the window it is cut to a word. -/
def hiMciGetRelativeAddr (emmc : Bool) (lp : LpSubsys) (phyAddr : ℕ) : BitVec 32 :=
  if lp.initFlag then
    let dmacHaddr :=
      if modeField emmc lp.addrExtend0 = 1 then haddrField emmc lp.addrExtend0 * 2 ^ 28
      else if modeField emmc lp.addrExtend0 = 2 then selField emmc lp.addrSel * 2 ^ 32
      else 0
    if phyAddr < dmacHaddr then BitVec.ofNat 32 phyAddr
    else
      let relativeAddr := phyAddr - dmacHaddr
      if relativeAddr / 2 ^ 32 ≠ 0 then BitVec.ofNat 32 phyAddr
      else BitVec.ofNat 32 relativeAddr
  else BitVec.ofNat 32 phyAddr

def desAddr (dmaPaddr i : ℕ) : ℕ := (dmaPaddr + i * sizeofHimciDes) % 2 ^ 64

section Setup

variable (emmc : Bool) (lp : LpSubsys) (dmaPaddr : ℕ)

def fillDes (chain : Chain) (sgPhyaddr size : ℕ) : Chain where
  des := Function.update chain.des chain.cnt
    { ctrl := dmaDesOwn ||| dmaDesNextDes
      bufSize := BitVec.ofNat 32 size
      bufAddr := hiMciGetRelativeAddr emmc lp sgPhyaddr
      nextAddr := hiMciGetRelativeAddr emmc lp (desAddr dmaPaddr (chain.cnt + 1)) }
  cnt := chain.cnt + 1

def fillSegment : ℕ → Chain → ℕ → ℕ → Chain
  | 0, chain, _, _ => chain
  | fuel + 1, chain, sgPhyaddr, sgLength =>
    if sgLength ≠ 0 then
      if desBytes ≤ sgLength then
        fillSegment fuel (fillDes emmc lp dmaPaddr chain sgPhyaddr desBytes)
          ((sgPhyaddr + desBytes) % 2 ^ 64) (sgLength - desBytes)
      else fillSegment fuel (fillDes emmc lp dmaPaddr chain sgPhyaddr sgLength) sgPhyaddr 0
    else chain

def fillSegments (sgs : List Segment) (chain : Chain) : Chain :=
  sgs.foldl (fun chain sg => fillSegment emmc lp dmaPaddr sg.len chain sg.addr sg.len) chain

def markFirst (chain : Chain) : Chain where
  des := Function.update chain.des 0
    { chain.des 0 with ctrl := (chain.des 0).ctrl ||| dmaDesFirstDes }
  cnt := chain.cnt

def markLast (chain : Chain) : Chain where
  des := Function.update chain.des (chain.cnt - 1)
    { chain.des (chain.cnt - 1) with
      ctrl := (chain.des (chain.cnt - 1)).ctrl ||| dmaDesLastDes
      nextAddr := 0 }
  cnt := chain.cnt

def maxDes (pageSize : ℕ) : BitVec 32 :=
  BitVec.ofNat 32 (mmcMaxPageCount * pageSize / sizeofHimciDes)

def hiMciSetupData (pageSize : ℕ) (des : ℕ → Des) (blksz blocks : BitVec 32)
    (sgs : List Segment) : ℤ × Chain :=
  if Himci.dmaBuffer * maxDes pageSize < blksz * blocks then (-Himci.enomem, ⟨des, 0⟩)
  else if sgs.length = 0 then (-Himci.eio, ⟨des, 0⟩)
  else (0, markLast (markFirst (fillSegments emmc lp dmaPaddr sgs ⟨des, 0⟩)))

end Setup

def windowStart : ℕ := haddrOffset.toNat * 2 ^ 28

def InWindow (a : ℕ) : Prop := windowStart ≤ a ∧ a < windowStart + 2 ^ 32

instance (a : ℕ) : Decidable (InWindow a) := inferInstanceAs (Decidable (_ ∧ _))

section Window

variable {emmc : Bool} {stack : BitVec 32} {lp : LpSubsys} {a : ℕ}

theorem extend0_fields (emmc : Bool) (stack reg : BitVec 32) :
    haddrField emmc (SharedRegs.regReadWrite
        (if emmc then emmcExtendAddrBitMask else sdioExtendAddrBitMask) (extendVal emmc stack) reg) =
      8 ∧
    modeField emmc (SharedRegs.regReadWrite
        (if emmc then emmcExtendAddrBitMask else sdioExtendAddrBitMask) (extendVal emmc stack) reg) =
      1 := by
  have hoffset : BitVec.extractLsb' (haddrShift emmc) 4 (SharedRegs.regReadWrite
      (if emmc then emmcExtendAddrBitMask else sdioExtendAddrBitMask) (extendVal emmc stack) reg) =
      (8 : BitVec 4) := by
    apply BitVec.eq_of_getLsbD_eq
    intro i hi
    rw [BitVec.getLsbD_extractLsb', SharedRegs.regReadWrite_getLsbD, extendVal,
      SharedRegs.regReadWrite_getLsbD]
    cases emmc <;> interval_cases i <;> rfl
  have hmode : BitVec.extractLsb' (haddrShift emmc + 4) 2 (SharedRegs.regReadWrite
      (if emmc then emmcExtendAddrBitMask else sdioExtendAddrBitMask) (extendVal emmc stack) reg) =
      (1 : BitVec 2) := by
    apply BitVec.eq_of_getLsbD_eq
    intro i hi
    rw [BitVec.getLsbD_extractLsb', SharedRegs.regReadWrite_getLsbD, extendVal,
      SharedRegs.regReadWrite_getLsbD]
    cases emmc <;> interval_cases i <;> rfl
  exact ⟨congrArg BitVec.toNat hoffset, congrArg BitVec.toNat hmode⟩

theorem hiMciGetRelativeAddr_eq (hconfig : (hiMciHaddrExtendConfig emmc stack lp).1 = 0) (a : ℕ) :
    hiMciGetRelativeAddr emmc (hiMciHaddrExtendConfig emmc stack lp).2 a =
      BitVec.ofNat 32 (if InWindow a then a - windowStart else a) := by
  have hinit : lp.initFlag = true := by
    by_contra hoff
    rw [hiMciHaddrExtendConfig, if_neg hoff] at hconfig
    exact absurd hconfig (show -enodev ≠ 0 by decide)
  obtain ⟨hoffset, hmode⟩ := extend0_fields emmc stack lp.addrExtend0
  have hstart : 8 * 2 ^ 28 = windowStart := rfl
  simp only [hiMciHaddrExtendConfig, hinit, if_true, hiMciGetRelativeAddr, hmode, hoffset, hstart]
  by_cases hin : InWindow a
  · obtain ⟨hlow, hhigh⟩ := id hin
    rw [if_pos hin, if_neg (by omega), if_neg (by omega)]
  · rw [if_neg hin]
    have hout : a < windowStart ∨ windowStart + 2 ^ 32 ≤ a := by
      unfold InWindow at hin
      omega
    split
    next => rfl
    next => rw [if_pos (by omega)]

theorem relative_add_iff (hconfig : (hiMciHaddrExtendConfig emmc stack lp).1 = 0) (a : ℕ) :
    (hiMciGetRelativeAddr emmc (hiMciHaddrExtendConfig emmc stack lp).2 a).toNat + windowStart = a ↔
      InWindow a := by
  have hstart : windowStart = 0x80000000 := rfl
  rw [hiMciGetRelativeAddr_eq hconfig, BitVec.toNat_ofNat]
  by_cases hin : InWindow a
  · obtain ⟨hlow, hhigh⟩ := id hin
    rw [if_pos hin, Nat.mod_eq_of_lt (by omega)]
    exact ⟨fun _ => hin, fun _ => by omega⟩
  · rw [if_neg hin]
    refine ⟨fun h => ?_, fun h => absurd h hin⟩
    unfold InWindow at hin ⊢
    omega

end Window

def pieceCount (len : ℕ) : ℕ := (len + desBytes - 1) / desBytes

def pieces (addr len : ℕ) : List (ℕ × ℕ) :=
  (List.range (pieceCount len)).map fun j => (addr + desBytes * j, min desBytes (len - desBytes * j))

def allPieces (sgs : List Segment) : List (ℕ × ℕ) := sgs.flatMap fun sg => pieces sg.addr sg.len

def bytes (l : List (ℕ × ℕ)) : List ℕ := l.flatMap fun p => List.range' p.1 p.2

section Pieces

variable {addr len : ℕ} {l : List (ℕ × ℕ)} {p : ℕ × ℕ}

theorem pieces_zero (addr : ℕ) : pieces addr 0 = [] := rfl

theorem pieces_small (addr : ℕ) (hpos : 0 < len) (hlt : len < desBytes) :
    pieces addr len = [(addr, len)] := by
  have hsize : desBytes = 4096 := rfl
  have hcount : pieceCount len = 1 := by
    rw [pieceCount, hsize]
    omega
  rw [pieces, hcount]
  simp only [List.range_one, List.map_cons, List.map_nil, Nat.mul_zero, Nat.add_zero, Nat.sub_zero,
    min_eq_right hlt.le]

theorem pieces_page (addr : ℕ) (hle : desBytes ≤ len) :
    pieces addr len = (addr, desBytes) :: pieces (addr + desBytes) (len - desBytes) := by
  have hsize : desBytes = 4096 := rfl
  have hcount : pieceCount len = pieceCount (len - desBytes) + 1 := by
    simp only [pieceCount, hsize] at hle ⊢
    omega
  rw [pieces, hcount, List.range_succ_eq_map, List.map_cons, List.map_map, pieces]
  refine List.cons_eq_cons.mpr ⟨?_, List.map_congr_left fun j _ => ?_⟩
  · rw [Nat.mul_zero, Nat.add_zero, Nat.sub_zero, min_eq_left hle]
  · refine Prod.ext ?_ ?_
    · simp only [Function.comp_apply, Nat.mul_succ]
      omega
    · have hrest : len - (desBytes * j + desBytes) = len - desBytes - desBytes * j := by omega
      simp only [Function.comp_apply, Nat.mul_succ, hrest]

theorem length_pieces (addr len : ℕ) : (pieces addr len).length = pieceCount len := by
  rw [pieces, List.length_map, List.length_range]

theorem pieces_size (hmem : p ∈ pieces addr len) : 1 ≤ p.2 ∧ p.2 ≤ desBytes := by
  have hsize : desBytes = 4096 := rfl
  obtain ⟨j, hj, rfl⟩ := List.mem_map.mp hmem
  have hlt : j < pieceCount len := List.mem_range.mp hj
  refine ⟨?_, min_le_left _ _⟩
  simp only [pieceCount, hsize] at hlt ⊢
  omega

theorem bytes_pieces (addr len : ℕ) : bytes (pieces addr len) = List.range' addr len := by
  induction len using Nat.strong_induction_on generalizing addr with
  | _ len ih =>
    have hsize : desBytes = 4096 := rfl
    by_cases hpage : desBytes ≤ len
    · rw [pieces_page addr hpage, bytes, List.flatMap_cons]
      have hrest := ih (len - desBytes) (by omega) (addr + desBytes)
      rw [bytes] at hrest
      rw [hrest, List.range'_append_1, Nat.add_sub_cancel' hpage]
    · by_cases hzero : len = 0
      · rw [hzero, pieces_zero]
        rfl
      · rw [pieces_small addr (Nat.pos_of_ne_zero hzero) (by omega), bytes, List.flatMap_cons,
          List.flatMap_nil, List.append_nil]

theorem bytes_allPieces (sgs : List Segment) :
    bytes (allPieces sgs) = sgs.flatMap fun sg => List.range' sg.addr sg.len := by
  induction sgs with
  | nil => rfl
  | cons sg sgs ih =>
    rw [allPieces, List.flatMap_cons, bytes, List.flatMap_append, List.flatMap_cons]
    exact congrArg₂ (· ++ ·) (bytes_pieces sg.addr sg.len) ih

theorem length_allPieces (sgs : List Segment) :
    (allPieces sgs).length = (sgs.map fun sg => pieceCount sg.len).sum := by
  rw [allPieces, List.length_flatMap]
  exact congrArg List.sum (List.map_congr_left fun sg _ => length_pieces _ _)

theorem bytes_map_iff (f : ℕ → ℕ) (hpos : ∀ p ∈ l, 0 < p.2) :
    bytes (l.map fun p => (f p.1, p.2)) = bytes l ↔ ∀ p ∈ l, f p.1 = p.1 := by
  induction l with
  | nil => simp
  | cons p l ih =>
    have hrest := ih fun q hq => hpos q (List.mem_cons_of_mem _ hq)
    have hp := hpos p List.mem_cons_self
    simp only [bytes, List.map_cons, List.flatMap_cons] at hrest ⊢
    rw [List.forall_mem_cons, ← hrest]
    constructor
    · intro heq
      obtain ⟨hfirst, htail⟩ := List.append_inj heq (by simp)
      refine ⟨?_, htail⟩
      obtain ⟨n, hn⟩ : ∃ n, p.2 = n + 1 := ⟨p.2 - 1, by omega⟩
      rw [hn, List.range'_succ, List.range'_succ] at hfirst
      exact (List.cons_eq_cons.mp hfirst).1
    · rintro ⟨hfirst, htail⟩
      rw [hfirst, htail]

end Pieces

section Fill

variable {emmc : Bool} {lp : LpSubsys} {dmaPaddr : ℕ} {chain : Chain} {l : List (ℕ × ℕ)}

def desOf (emmc : Bool) (lp : LpSubsys) (dmaPaddr i : ℕ) (p : ℕ × ℕ) : Des where
  ctrl := dmaDesOwn ||| dmaDesNextDes
  bufSize := BitVec.ofNat 32 p.2
  bufAddr := hiMciGetRelativeAddr emmc lp p.1
  nextAddr := hiMciGetRelativeAddr emmc lp (desAddr dmaPaddr (i + 1))

structure Filled (emmc : Bool) (lp : LpSubsys) (dmaPaddr : ℕ) (chain : Chain) (l : List (ℕ × ℕ)) :
    Prop where
  cnt : chain.cnt = l.length
  des : ∀ i (hi : i < l.length), chain.des i = desOf emmc lp dmaPaddr i l[i]

theorem Filled.fillDes (hfilled : Filled emmc lp dmaPaddr chain l) (addr size : ℕ) :
    Filled emmc lp dmaPaddr (fillDes emmc lp dmaPaddr chain addr size) (l ++ [(addr, size)]) := by
  have hcnt := hfilled.cnt
  refine ⟨by simp [HimciChain.fillDes, hcnt], fun i hi => ?_⟩
  rw [List.length_append, List.length_singleton] at hi
  by_cases hlast : i = chain.cnt
  · subst hlast
    rw [List.getElem_append_right (by omega)]
    simp [HimciChain.fillDes, desOf, hcnt]
  · rw [List.getElem_append_left (by omega), ← hfilled.des i (by omega)]
    exact Function.update_of_ne hlast _ _

theorem Filled.fillSegment (fuel : ℕ) (hfilled : Filled emmc lp dmaPaddr chain l) (addr len : ℕ)
    (hfuel : len ≤ fuel) (hend : addr + len ≤ 2 ^ 63) :
    Filled emmc lp dmaPaddr (fillSegment emmc lp dmaPaddr fuel chain addr len)
      (l ++ pieces addr len) := by
  have hsize : desBytes = 4096 := rfl
  induction fuel generalizing chain l addr len with
  | zero =>
    obtain rfl : len = 0 := Nat.le_zero.mp hfuel
    rw [pieces_zero, List.append_nil]
    exact hfilled
  | succ fuel ih =>
    unfold HimciChain.fillSegment
    split
    next hlen =>
      split
      next hpage =>
        have hnext : (addr + desBytes) % 2 ^ 64 = addr + desBytes := Nat.mod_eq_of_lt (by omega)
        have hrest := ih (hfilled.fillDes addr desBytes) (addr + desBytes) (len - desBytes)
          (by omega) (by omega)
        rw [hnext, pieces_page addr hpage, List.append_cons]
        exact hrest
      next hpage =>
        have hrest := ih (hfilled.fillDes addr len) addr 0 (Nat.zero_le _) (by omega)
        rw [pieces_zero, List.append_nil] at hrest
        rw [pieces_small addr (Nat.pos_of_ne_zero hlen) (by omega)]
        exact hrest
    next hlen =>
      obtain rfl : len = 0 := not_not.mp hlen
      rw [pieces_zero, List.append_nil]
      exact hfilled

theorem Filled.fillSegments (sgs : List Segment) (hfilled : Filled emmc lp dmaPaddr chain l) :
    Filled emmc lp dmaPaddr (fillSegments emmc lp dmaPaddr sgs chain) (l ++ allPieces sgs) := by
  induction sgs generalizing chain l with
  | nil =>
    rw [allPieces, List.flatMap_nil, List.append_nil]
    exact hfilled
  | cons sg sgs ih =>
    have haddr := sg.addr_lt
    have hlen := sg.len_lt
    have hfirst := hfilled.fillSegment sg.len sg.addr sg.len le_rfl (by omega)
    have hrest := ih hfirst
    rw [List.append_assoc] at hrest
    exact hrest

theorem Filled.marked (hfilled : Filled emmc lp dmaPaddr chain l) (i : ℕ) (hi : i < l.length) :
    (markLast (markFirst chain)).des i =
      { desOf emmc lp dmaPaddr i l[i] with
        ctrl := dmaDesOwn ||| dmaDesNextDes ||| (if i = 0 then dmaDesFirstDes else 0) |||
          (if i + 1 = l.length then dmaDesLastDes else 0)
        nextAddr := if i + 1 = l.length then 0
          else hiMciGetRelativeAddr emmc lp (desAddr dmaPaddr (i + 1)) } := by
  have hcnt := hfilled.cnt
  have hfirst : (markFirst chain).des i =
      { desOf emmc lp dmaPaddr i l[i] with
        ctrl := dmaDesOwn ||| dmaDesNextDes ||| (if i = 0 then dmaDesFirstDes else 0) } := by
    have hdes := hfilled.des i hi
    unfold markFirst
    by_cases hzero : i = 0
    · subst hzero
      simp only [Function.update_self, hdes, if_true]
      rfl
    · simp only [Function.update_of_ne hzero, hdes, hzero, if_false]
      simp [desOf]
  have hcnt' : (markFirst chain).cnt = l.length := hcnt
  unfold markLast
  by_cases hlast : i + 1 = l.length
  · have hindex : (markFirst chain).cnt - 1 = i := by omega
    simp only [hindex, Function.update_self, hfirst, hlast, if_true]
  · have hindex : i ≠ (markFirst chain).cnt - 1 := by omega
    simp only [Function.update_of_ne hindex, hfirst, hlast, if_false]
    simp [desOf]

end Fill

structure ChainExact (pageSize dmaPaddr : ℕ) (sgs : List Segment) (out : ℤ × Chain) : Prop where
  ret : out.1 = 0
  nonempty : 0 < out.2.cnt
  first : ∀ i < out.2.cnt, (out.2.des i).ctrl &&& dmaDesFirstDes ≠ 0 ↔ i = 0
  last : ∀ i < out.2.cnt, (out.2.des i).ctrl &&& dmaDesLastDes ≠ 0 ↔ i + 1 = out.2.cnt
  linked : ∀ i, i + 1 < out.2.cnt →
    (out.2.des i).nextAddr.toNat + windowStart = desAddr dmaPaddr (i + 1)
  ended : (out.2.des (out.2.cnt - 1)).nextAddr = 0
  fits : out.2.cnt ≤ mmcMaxPageCount * pageSize / sizeofHimciDes
  size : ∀ i < out.2.cnt,
    1 ≤ (out.2.des i).bufSize.toNat ∧ (out.2.des i).bufSize.toNat ≤ desBytes
  bytes : bytes ((List.range out.2.cnt).map fun i =>
      ((out.2.des i).bufAddr.toNat + windowStart, (out.2.des i).bufSize.toNat)) =
    sgs.flatMap fun sg => List.range' sg.addr sg.len

def desCount (sgs : List Segment) : ℕ := (sgs.map fun sg => pieceCount sg.len).sum

structure Allowed (pageSize dmaPaddr : ℕ) (sgs : List Segment) : Prop where
  fits : desCount sgs ≤ mmcMaxPageCount * pageSize / sizeofHimciDes
  segments : ∀ sg ∈ sgs, ∀ j < pieceCount sg.len, InWindow (sg.addr + desBytes * j)
  links : ∀ i, i + 1 < desCount sgs → InWindow (desAddr dmaPaddr (i + 1))

section Exact

variable {emmc : Bool} {stack : BitVec 32} {lp : LpSubsys} {dmaPaddr pageSize : ℕ}
  {des : ℕ → Des} {blksz blocks : BitVec 32} {sgs : List Segment}

theorem allPieces_pos (hsgs : sgs ≠ []) : 0 < (allPieces sgs).length := by
  obtain ⟨sg, rest, rfl⟩ := List.exists_cons_of_ne_nil hsgs
  have hlen := sg.len_pos
  have hcount : 0 < pieceCount sg.len := by
    have hsize : desBytes = 4096 := rfl
    rw [pieceCount, hsize]
    omega
  rw [length_allPieces, List.map_cons, List.sum_cons]
  omega

theorem allPieces_size {p : ℕ × ℕ} (hmem : p ∈ allPieces sgs) : 1 ≤ p.2 ∧ p.2 ≤ desBytes := by
  obtain ⟨sg, -, hp⟩ := List.mem_flatMap.mp hmem
  exact pieces_size hp

theorem allPieces_forall {P : ℕ → Prop} :
    (∀ p ∈ allPieces sgs, P p.1) ↔
      ∀ sg ∈ sgs, ∀ j < pieceCount sg.len, P (sg.addr + desBytes * j) := by
  constructor
  · intro hall sg hsg j hj
    exact hall _ (List.mem_flatMap.mpr ⟨sg, hsg, List.mem_map.mpr ⟨j, List.mem_range.mpr hj, rfl⟩⟩)
  · intro hall p hmem
    obtain ⟨sg, hsg, hp⟩ := List.mem_flatMap.mp hmem
    obtain ⟨j, hj, rfl⟩ := List.mem_map.mp hp
    exact hall sg hsg j (List.mem_range.mp hj)

theorem flags_first : ∀ first last : Bool,
    ((dmaDesOwn ||| dmaDesNextDes ||| (if first then dmaDesFirstDes else 0) |||
      (if last then dmaDesLastDes else 0)) &&& dmaDesFirstDes ≠ 0 ↔ first = true) ∧
    ((dmaDesOwn ||| dmaDesNextDes ||| (if first then dmaDesFirstDes else 0) |||
      (if last then dmaDesLastDes else 0)) &&& dmaDesLastDes ≠ 0 ↔ last = true) := by
  decide

theorem hiMciSetupData_filled (emmc : Bool) (lp : LpSubsys) (dmaPaddr : ℕ) (des : ℕ → Des)
    (hsgs : sgs ≠ []) (hcheck : ¬Himci.dmaBuffer * maxDes pageSize < blksz * blocks) :
    ∃ chain, Filled emmc lp dmaPaddr chain (allPieces sgs) ∧
      hiMciSetupData emmc lp dmaPaddr pageSize des blksz blocks sgs =
        (0, markLast (markFirst chain)) := by
  have hempty : Filled emmc lp dmaPaddr ⟨des, 0⟩ [] := ⟨rfl, fun i hi => absurd hi (by simp)⟩
  have hlength : sgs.length ≠ 0 := fun h => hsgs (List.eq_nil_of_length_eq_zero h)
  refine ⟨_, hempty.fillSegments sgs, ?_⟩
  rw [hiMciSetupData, if_neg hcheck, if_neg hlength]

theorem Filled.bytes_iff {lp : LpSubsys} {chain : Chain}
    (hfilled : Filled emmc lp dmaPaddr chain (allPieces sgs)) :
    bytes ((List.range (allPieces sgs).length).map fun i =>
        (((markLast (markFirst chain)).des i).bufAddr.toNat + windowStart,
          ((markLast (markFirst chain)).des i).bufSize.toNat)) =
      (sgs.flatMap fun sg => List.range' sg.addr sg.len) ↔
      ∀ p ∈ allPieces sgs, (hiMciGetRelativeAddr emmc lp p.1).toNat + windowStart = p.1 := by
  have hsize : desBytes = 4096 := rfl
  have hpieces : (List.range (allPieces sgs).length).map (fun i =>
        (((markLast (markFirst chain)).des i).bufAddr.toNat + windowStart,
          ((markLast (markFirst chain)).des i).bufSize.toNat)) =
      (allPieces sgs).map fun p => ((hiMciGetRelativeAddr emmc lp p.1).toNat + windowStart, p.2) := by
    apply List.ext_getElem
    · simp
    · intro i hi _
      have hlt : i < (allPieces sgs).length := by simpa using hi
      obtain ⟨-, hle⟩ := allPieces_size (List.getElem_mem hlt)
      simp only [List.getElem_map, List.getElem_range, hfilled.marked i hlt, desOf,
        BitVec.toNat_ofNat]
      rw [Nat.mod_eq_of_lt (by omega)]
  rw [hpieces, ← bytes_allPieces]
  exact bytes_map_iff (fun a => (hiMciGetRelativeAddr emmc lp a).toNat + windowStart)
    fun p hmem => (allPieces_size hmem).1

theorem Filled.segments_iff (hconfig : (hiMciHaddrExtendConfig emmc stack lp).1 = 0) {chain : Chain}
    (hfilled : Filled emmc (hiMciHaddrExtendConfig emmc stack lp).2 dmaPaddr chain
      (allPieces sgs)) :
    bytes ((List.range (allPieces sgs).length).map fun i =>
        (((markLast (markFirst chain)).des i).bufAddr.toNat + windowStart,
          ((markLast (markFirst chain)).des i).bufSize.toNat)) =
      (sgs.flatMap fun sg => List.range' sg.addr sg.len) ↔
      ∀ sg ∈ sgs, ∀ j < pieceCount sg.len, InWindow (sg.addr + desBytes * j) := by
  have hpieces : (∀ p ∈ allPieces sgs, (hiMciGetRelativeAddr emmc
      (hiMciHaddrExtendConfig emmc stack lp).2 p.1).toNat + windowStart = p.1) ↔
        ∀ p ∈ allPieces sgs, InWindow p.1 :=
    forall₂_congr fun (p : ℕ × ℕ) _ => relative_add_iff hconfig p.1
  exact (hfilled.bytes_iff.trans hpieces).trans allPieces_forall

theorem Filled.link_iff (hconfig : (hiMciHaddrExtendConfig emmc stack lp).1 = 0) {chain : Chain}
    {l : List (ℕ × ℕ)} {i : ℕ}
    (hfilled : Filled emmc (hiMciHaddrExtendConfig emmc stack lp).2 dmaPaddr chain l)
    (hi : i + 1 < l.length) :
    ((markLast (markFirst chain)).des i).nextAddr.toNat + windowStart = desAddr dmaPaddr (i + 1) ↔
      InWindow (desAddr dmaPaddr (i + 1)) := by
  rw [hfilled.marked i (by omega)]
  simp only [show ¬i + 1 = l.length by omega, if_false]
  exact relative_add_iff hconfig _

theorem ChainExact.allowed (hconfig : (hiMciHaddrExtendConfig emmc stack lp).1 = 0)
    (hsgs : sgs ≠ []) (hcheck : ¬Himci.dmaBuffer * maxDes pageSize < blksz * blocks)
    (hexact : ChainExact pageSize dmaPaddr sgs
      (hiMciSetupData emmc (hiMciHaddrExtendConfig emmc stack lp).2 dmaPaddr pageSize des
        blksz blocks sgs)) : Allowed pageSize dmaPaddr sgs := by
  obtain ⟨chain, hfilled, hout⟩ := hiMciSetupData_filled emmc
    (hiMciHaddrExtendConfig emmc stack lp).2 dmaPaddr des hsgs hcheck
  rw [hout] at hexact
  have hcnt : (markLast (markFirst chain)).cnt = (allPieces sgs).length := hfilled.cnt
  have hcount : desCount sgs = (allPieces sgs).length := (length_allPieces sgs).symm
  refine ⟨?_, ?_, fun i hi => ?_⟩
  · rw [hcount, ← hcnt]
    exact hexact.fits
  · have hsame := hexact.bytes
    simp only [hcnt] at hsame
    exact (hfilled.segments_iff hconfig).mp hsame
  · have hlt : i + 1 < (allPieces sgs).length := by omega
    exact (hfilled.link_iff hconfig hlt).mp (hexact.linked i (by simp only [hcnt]; exact hlt))

/-- The chain is exact where the descriptors fit into their buffer and every address that
is written into one lies in the window. -/
theorem hiMciSetupData_exact (hconfig : (hiMciHaddrExtendConfig emmc stack lp).1 = 0)
    (hsgs : sgs ≠ []) (hcheck : ¬Himci.dmaBuffer * maxDes pageSize < blksz * blocks) :
    ChainExact pageSize dmaPaddr sgs
        (hiMciSetupData emmc (hiMciHaddrExtendConfig emmc stack lp).2 dmaPaddr pageSize des
          blksz blocks sgs) ↔
      Allowed pageSize dmaPaddr sgs := by
  refine ⟨ChainExact.allowed hconfig hsgs hcheck, ?_⟩
  rintro ⟨hfits, hsegments, hlinks⟩
  obtain ⟨chain, hfilled, hout⟩ := hiMciSetupData_filled emmc
    (hiMciHaddrExtendConfig emmc stack lp).2 dmaPaddr des hsgs hcheck
  have hsize : desBytes = 4096 := rfl
  have hpos := allPieces_pos hsgs
  have hcount : desCount sgs = (allPieces sgs).length := (length_allPieces sgs).symm
  have hcnt : (markLast (markFirst chain)).cnt = (allPieces sgs).length := hfilled.cnt
  rw [hout]
  constructor
  case ret => rfl
  case nonempty => exact hcnt ▸ hpos
  case first =>
    intro i hi
    simp only [hcnt] at hi
    rw [hfilled.marked i hi]
    simpa using (flags_first (decide (i = 0)) (decide (i + 1 = (allPieces sgs).length))).1
  case last =>
    intro i hi
    simp only [hcnt] at hi ⊢
    rw [hfilled.marked i hi]
    simpa using (flags_first (decide (i = 0)) (decide (i + 1 = (allPieces sgs).length))).2
  case linked =>
    intro i hi
    simp only [hcnt] at hi
    exact (hfilled.link_iff hconfig hi).mpr (hlinks i (by omega))
  case ended =>
    have hlast : (allPieces sgs).length - 1 + 1 = (allPieces sgs).length := by omega
    simp only [hcnt]
    rw [hfilled.marked _ (by omega)]
    simp only [hlast, if_true]
  case fits =>
    simp only [hcnt]
    rw [← hcount]
    exact hfits
  case size =>
    intro i hi
    simp only [hcnt] at hi
    obtain ⟨hlow, hhigh⟩ := allPieces_size (List.getElem_mem hi)
    rw [hfilled.marked i hi]
    simp only [desOf, BitVec.toNat_ofNat]
    rw [Nat.mod_eq_of_lt (by omega)]
    exact ⟨hlow, hhigh⟩
  case bytes =>
    simp only [hcnt]
    exact (hfilled.segments_iff hconfig).mpr hsegments

end Exact

def lpSubsys0 : LpSubsys := ⟨true, 0, 0⟩

def des0 : ℕ → Des := fun _ => ⟨0, 0, 0, 0⟩

def lowBlock : Segment := ⟨0x80000000, 512, by decide, by decide, by decide⟩

theorem hiMciSetupData_exact_block :
    ChainExact 4096 0x90000000 [lowBlock]
      (hiMciSetupData true (hiMciHaddrExtendConfig true 0 lpSubsys0).2 0x90000000 4096 des0
        512 1 [lowBlock]) := by
  have hcount : desCount [lowBlock] = 1 := by decide
  refine (hiMciSetupData_exact (by decide) (by decide) (by decide)).mpr ⟨by decide, ?_, ?_⟩
  · intro sg hsg
    rw [List.mem_singleton] at hsg
    subst hsg
    decide
  · intro i hi
    omega

def highBlock : Segment := ⟨0x180000000, 512, by decide, by decide, by decide⟩

def longRest : Segment := ⟨0x90000000, 0xFFFE00, by decide, by decide, by decide⟩

/-- The address of a block above the window is cut, and a request of 16 MB in two segments
takes one descriptor more than there are. -/
theorem hiMciSetupData_not_exact :
    ¬ChainExact 4096 0x90000000 [highBlock]
        (hiMciSetupData true (hiMciHaddrExtendConfig true 0 lpSubsys0).2 0x90000000 4096 des0
          512 1 [highBlock]) ∧
      ¬ChainExact 4096 0x90000000 [lowBlock, longRest]
        (hiMciSetupData true (hiMciHaddrExtendConfig true 0 lpSubsys0).2 0x90000000 4096 des0
          512 32768 [lowBlock, longRest]) := by
  constructor
  · intro hexact
    have hallowed := hexact.allowed (by decide) (by decide) (by decide)
    have hin := hallowed.segments highBlock List.mem_cons_self 0 (by decide)
    exact absurd hin (by decide)
  · intro hexact
    have hallowed := hexact.allowed (by decide) (by decide) (by decide)
    exact absurd hallowed.fits (by decide)

end HiMpu.HimciChain
