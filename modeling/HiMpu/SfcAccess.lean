import HiMpu.SfcDma
import HiMpu.SfcSuspend

/-!
# The commands of an access to the SPI flash

What the register, DMA and bus paths and the erase put into the address register for
one call, in the order of their loops.  Each command names a place of the flash; the
register may hold less than that.
-/

namespace HiMpu.SfcController

def sectorCount4K : ℕ := 8
def size4K : ℕ := 4096
def busAddrAlign : ℕ := 8

structure Geometry where
  twoDies : Bool
  hybrid : Bool
  erasesize : ℕ
  eraseOpSize : ℕ
  erasesize_pow : ∃ k, erasesize = 2 ^ k
  /-- The erase operation is searched by the size of the sector. -/
  eraseOpSize_eq : eraseOpSize = erasesize ∨ eraseOpSize = 0
  hybrid_le : hybrid = true → sectorCount4K * size4K ≤ erasesize

/-- One command: what the address register holds, and the place that is meant. -/
structure Piece where
  field : ℕ
  addr : ℕ
  len : ℕ

def coreRegReadNum : ℕ → ℕ → ℕ → List Piece
  | 0, _, _ => []
  | fuel + 1, addr, num =>
    if Sfc.hisfc350RegBufSize ≤ num then
      ⟨addr % 2 ^ 32 &&& Sfc.hisfc350CmdAddrMask, addr, Sfc.hisfc350RegBufSize⟩ ::
        coreRegReadNum fuel (addr + Sfc.hisfc350RegBufSize) (num - Sfc.hisfc350RegBufSize)
    else if num ≠ 0 then [⟨addr % 2 ^ 32 &&& Sfc.hisfc350CmdAddrMask, addr, num⟩]
    else []

/-- `num` is a signed word.  When it is negative there is no command, and after the first
round it is zero. -/
def coreRegReadLoop (addr len : ℕ) : List Piece :=
  let num := len % 2 ^ 32
  if num < 2 ^ 31 then coreRegReadNum (num + 1) addr num else []

def coreRegRead (chipsize addr len : ℕ) : ℤ × List Piece :=
  let ret := Sfc.sfcCoreCheckAddrLen chipsize addr len
  if ret ≠ 0 then (if ret = Sfc.sfcRwLenZero then 0 else ret, [])
  else (0, coreRegReadLoop addr len)

def coreS70fs01gsRegRead (chipsize addr len : ℕ) : ℤ × List Piece :=
  if addr % 2 ^ 32 < Sfc.s70fs01gsBoundAddr ∧ Sfc.s70fs01gsBoundAddr < (addr + len) % 2 ^ 32 then
    let (ret, first) := coreRegRead chipsize addr (Sfc.s70fs01gsBoundAddr - addr)
    if ret ≠ 0 then (ret, first)
    else
      let (ret, second) := coreRegRead chipsize Sfc.s70fs01gsBoundAddr
        (addr + len - Sfc.s70fs01gsBoundAddr)
      (ret, first ++ second)
  else coreRegRead chipsize addr len

def coreRegReadForAll (chipsize : ℕ) (g : Geometry) (addr len : ℕ) : ℤ × List Piece :=
  if g.twoDies then coreS70fs01gsRegRead chipsize addr len else coreRegRead chipsize addr len

def coreRegWrite (chipsize addr len : ℕ) : ℤ × List Piece :=
  let ret := Sfc.sfcCoreCheckAddrLen chipsize addr len
  if ret ≠ 0 then (if ret = Sfc.sfcRwLenZero then 0 else ret, [])
  else (0, (Sfc.chunks addr len).map fun c => ⟨(addr + c.off) % 2 ^ 32, addr + c.off, c.n⟩)

def regRwForDma (isRead : Bool) (chipsize : ℕ) (g : Geometry) (addr len : ℕ) : List Piece :=
  if isRead then (coreRegReadForAll chipsize g addr len).2 else (coreRegWrite chipsize addr len).2

def dmaBursts : ℕ → ℕ → ℕ → List Piece
  | 0, _, _ => []
  | fuel + 1, addr, len =>
    if Sfc.hisfc350DmaMinSize ≤ len then
      ⟨addr % 2 ^ 32, addr, Sfc.dmaNum len⟩ ::
        dmaBursts fuel (addr + Sfc.dmaNum len) (len - Sfc.dmaNum len)
    else []

/-- The head up to the boundary, the bursts and the last one to three bytes. -/
def baseDmaRwXferData (isRead : Bool) (chipsize : ℕ) (g : Geometry) (addr len : ℕ) : List Piece :=
  let head := Sfc.dmaHead addr len
  let rest := len - head
  let tail := rest % Sfc.hisfc350DmaMinSize
  (if head ≠ 0 then regRwForDma isRead chipsize g addr head else []) ++
    dmaBursts rest (addr + head) rest ++
    if tail ≠ 0 then regRwForDma isRead chipsize g (addr + len - tail) tail else []

/-- The copy over the bus, byte by byte.  What lies beyond the window of the chip select
comes out in the next one. -/
def busCopy (addr len : ℕ) : List Piece :=
  (List.range len).map fun i => ⟨(addr + i) % sfcCsSize.toNat, addr + i, 1⟩

def coreCheckAddrLenErase (chipsize : ℕ) (g : Geometry) (addr len : ℕ) : ℤ :=
  let ret := Sfc.sfcCoreCheckAddrLen chipsize addr len
  if ret ≠ 0 then ret
  else if addr % 2 ^ 32 &&& (g.erasesize - 1) ≠ 0 then -Sfc.einval
  else if len % 2 ^ 32 &&& (g.erasesize - 1) ≠ 0 then -Sfc.einval
  else 0

/-- The loop of the erase: with an operation of size zero it does not end. -/
def eraseBlocks (g : Geometry) : ℕ → ℕ → ℕ → List Piece
  | 0, _, _ => []
  | fuel + 1, addr, len =>
    if len ≠ 0 then
      ⟨addr % 2 ^ 32 &&& Sfc.hisfc350CmdAddrMask, addr, g.erasesize⟩ ::
        eraseBlocks g fuel (addr + g.eraseOpSize) (len - g.eraseOpSize)
    else []

def coreRegErase (fuel chipsize : ℕ) (g : Geometry) (addr len : ℕ) : List Piece :=
  if coreCheckAddrLenErase chipsize g addr len ≠ 0 then [] else eraseBlocks g fuel addr len

def subsectors : List Piece :=
  (List.range sectorCount4K).map fun i => ⟨size4K * i &&& Sfc.hisfc350CmdAddrMask, size4K * i, size4K⟩

def coreSpansionfsxxErase (fuel chipsize : ℕ) (g : Geometry) (uniform : Bool) (addr len : ℕ) :
    List Piece :=
  if addr = 0 ∧ g.erasesize ≤ len ∧ uniform = false then
    if chipsize < sectorCount4K * size4K then []
    else subsectors ++ coreRegErase fuel chipsize g addr len
  else coreRegErase fuel chipsize g addr len

def regErase (fuel chipsize : ℕ) (g : Geometry) (uniform : Bool) (addr len : ℕ) : List Piece :=
  if g.hybrid then coreSpansionfsxxErase fuel chipsize g uniform addr len
  else coreRegErase fuel chipsize g addr len

structure Piece.Within (p : Piece) (lo hi : ℕ) : Prop where
  field : p.field = p.addr
  low : lo ≤ p.addr
  high : p.addr + p.len ≤ hi

section Within

variable {p : Piece} {g : Geometry} {isRead uniform : Bool} {chipsize addr len num lo hi : ℕ}

theorem Piece.Within.mono {lo' hi' : ℕ} (hp : p.Within lo hi) (hlo : lo' ≤ lo) (hhi : hi ≤ hi') :
    p.Within lo' hi' :=
  ⟨hp.field, hlo.trans hp.low, hp.high.trans hhi⟩

theorem coreRegReadNum_within (fuel addr num : ℕ) (hend : addr + num ≤ 2 ^ 30)
    (hmem : p ∈ coreRegReadNum fuel addr num) : p.Within addr (addr + num) := by
  induction fuel generalizing addr num with
  | zero => cases hmem
  | succ fuel ih =>
    have hbuf : Sfc.hisfc350RegBufSize = 128 := rfl
    unfold coreRegReadNum at hmem
    split at hmem
    next hfull =>
      rcases List.mem_cons.mp hmem with rfl | hmem
      · exact ⟨Sfc.cmdAddr_eq (by omega), le_rfl, by simp only; omega⟩
      · exact (ih _ _ (by omega) hmem).mono (Nat.le_add_right _ _) (by omega)
    next =>
      split at hmem
      next hnum =>
        obtain rfl := List.mem_singleton.mp hmem
        exact ⟨Sfc.cmdAddr_eq (by omega), le_rfl, le_rfl⟩
      next => cases hmem

theorem coreRegRead_within (hend : addr + len ≤ 2 ^ 30)
    (hmem : p ∈ (coreRegRead chipsize addr len).2) : p.Within addr (addr + len) := by
  simp only [coreRegRead, coreRegReadLoop] at hmem
  split at hmem
  next => cases hmem
  next =>
    rw [Nat.mod_eq_of_lt (by omega), if_pos (by omega)] at hmem
    exact coreRegReadNum_within _ _ _ hend hmem

theorem coreRegRead_refused (hcheck : Sfc.sfcCoreCheckAddrLen chipsize addr len ≠ 0)
    (hmem : p ∈ (coreRegRead chipsize addr len).2) : False := by
  simp only [coreRegRead, if_pos hcheck] at hmem
  cases hmem

theorem coreRegReadForAll_within (hdies : g.twoDies = true → chipsize ≤ 0x8000000)
    (haccept : Sfc.sfcCoreCheckAddrLen chipsize addr len = 0 → addr + len ≤ 2 ^ 30)
    (hmem : p ∈ (coreRegReadForAll chipsize g addr len).2) :
    p.Within addr (addr + len) ∧
      (Sfc.sfcCoreCheckAddrLen chipsize addr len ≠ 0 →
        g.twoDies = true ∧ p.addr + p.len ≤ Sfc.s70fs01gsBoundAddr) := by
  have hbound : Sfc.s70fs01gsBoundAddr = 0x4000000 := rfl
  have hwhole (hmem : p ∈ (coreRegRead chipsize addr len).2) : p.Within addr (addr + len) ∧
      (Sfc.sfcCoreCheckAddrLen chipsize addr len ≠ 0 →
        g.twoDies = true ∧ p.addr + p.len ≤ Sfc.s70fs01gsBoundAddr) := by
    have hcheck : Sfc.sfcCoreCheckAddrLen chipsize addr len = 0 := by
      by_contra hrefused
      exact coreRegRead_refused hrefused hmem
    exact ⟨coreRegRead_within (haccept hcheck) hmem, fun h => absurd hcheck h⟩
  unfold coreRegReadForAll at hmem
  split at hmem
  next htwo =>
    have hsize := hdies htwo
    unfold coreS70fs01gsRegRead at hmem
    split at hmem
    next hcross =>
      -- an address beyond the chip is refused in the first half
      have haddr : addr ≤ chipsize := by
        by_contra hout
        have hrefused : Sfc.sfcCoreCheckAddrLen chipsize addr (Sfc.s70fs01gsBoundAddr - addr) ≠ 0 := by
          rw [Sfc.sfcCoreCheckAddrLen, if_pos (Or.inl (by omega))]
          decide
        have hempty : Sfc.sfcCoreCheckAddrLen chipsize addr (Sfc.s70fs01gsBoundAddr - addr) ≠
            Sfc.sfcRwLenZero := by
          rw [Sfc.sfcCoreCheckAddrLen, if_pos (Or.inl (by omega))]
          decide
        simp only [coreRegRead, if_pos hrefused, if_neg hempty] at hmem
        cases hmem
      have hlow : addr < Sfc.s70fs01gsBoundAddr := by omega
      have hhigh : Sfc.s70fs01gsBoundAddr < addr + len := by omega
      have hfirst (hmem : p ∈ (coreRegRead chipsize addr (Sfc.s70fs01gsBoundAddr - addr)).2) :
          p.Within addr Sfc.s70fs01gsBoundAddr :=
        (coreRegRead_within (by omega) hmem).mono le_rfl (by omega)
      have hkeep (hp : p.Within addr Sfc.s70fs01gsBoundAddr) : p.Within addr (addr + len) ∧
          (Sfc.sfcCoreCheckAddrLen chipsize addr len ≠ 0 →
            g.twoDies = true ∧ p.addr + p.len ≤ Sfc.s70fs01gsBoundAddr) :=
        ⟨hp.mono le_rfl hhigh.le, fun _ => ⟨htwo, hp.high⟩⟩
      simp only at hmem
      split at hmem
      next => exact hkeep (hfirst hmem)
      next =>
        rcases List.mem_append.mp hmem with hmem | hmem
        · exact hkeep (hfirst hmem)
        · have hcheck₂ : Sfc.sfcCoreCheckAddrLen chipsize Sfc.s70fs01gsBoundAddr
              (addr + len - Sfc.s70fs01gsBoundAddr) = 0 := by
            by_contra hrefused
            exact coreRegRead_refused hrefused hmem
          obtain ⟨_, hend⟩ := Sfc.sfcCoreCheckAddrLen_accepts hcheck₂ (by omega)
          have hcheck : Sfc.sfcCoreCheckAddrLen chipsize addr len = 0 :=
            Sfc.sfcCoreCheckAddrLen_of_le (by omega) (by omega) (by omega)
          have hp := coreRegRead_within (by omega) hmem
          exact ⟨hp.mono hlow.le (by omega), fun h => absurd hcheck h⟩
    next => exact hwhole hmem
  next => exact hwhole hmem

theorem coreRegWrite_within (hend : addr + len ≤ 2 ^ 32)
    (hmem : p ∈ (coreRegWrite chipsize addr len).2) : p.Within addr (addr + len) := by
  unfold coreRegWrite at hmem
  simp only at hmem
  split at hmem
  next => cases hmem
  next =>
    obtain ⟨c, hc, rfl⟩ := List.mem_map.mp hmem
    obtain ⟨_, hhigh, hpos⟩ := (Sfc.tiles_chunks addr len).bounds hc
    refine ⟨Nat.mod_eq_of_lt (by omega), Nat.le_add_right _ _, ?_⟩
    simp only
    omega

theorem dmaBursts_within (fuel addr len : ℕ) (hend : addr + len ≤ 2 ^ 32)
    (hmem : p ∈ dmaBursts fuel addr len) : p.Within addr (addr + len) := by
  induction fuel generalizing addr len with
  | zero => cases hmem
  | succ fuel ih =>
    unfold dmaBursts at hmem
    split at hmem
    next hlen =>
      obtain ⟨hpos, hle, _, _, _⟩ := Sfc.dmaNum_bounds hlen
      rcases List.mem_cons.mp hmem with rfl | hmem
      · exact ⟨Nat.mod_eq_of_lt (by omega), le_rfl, by simp only; omega⟩
      · exact (ih _ _ (by omega) hmem).mono (Nat.le_add_right _ _) (by omega)
    next => cases hmem

theorem busCopy_within (hend : addr + len ≤ 2 ^ 27) (hmem : p ∈ busCopy addr len) :
    p.Within addr (addr + len) := by
  obtain ⟨i, hi, rfl⟩ := List.mem_map.mp hmem
  have hlt : i < len := List.mem_range.mp hi
  have hwindow : sfcCsSize.toNat = 2 ^ 27 := by decide
  refine ⟨?_, Nat.le_add_right _ _, by simp only; omega⟩
  simp only [hwindow]
  exact Nat.mod_eq_of_lt (by omega)

theorem coreCheckAddrLenErase_accepts (hcheck : coreCheckAddrLenErase chipsize g addr len = 0)
    (hlen : len < 2 ^ 32) : g.erasesize ∣ len := by
  obtain ⟨k, hk⟩ := g.erasesize_pow
  unfold coreCheckAddrLenErase at hcheck
  simp only at hcheck
  split at hcheck
  next hrefused => exact absurd hcheck hrefused
  next =>
    split at hcheck
    next => exact absurd hcheck (by decide)
    next =>
      split at hcheck
      next => exact absurd hcheck (by decide)
      next halign =>
        rw [hk, Nat.and_two_pow_sub_one_eq_mod, Nat.mod_eq_of_lt hlen] at halign
        rw [hk]
        exact Nat.dvd_of_mod_eq_zero (not_not.mp halign)

theorem eraseBlocks_within (fuel addr len : ℕ) (hend : addr + len ≤ 2 ^ 30)
    (hdvd : g.erasesize ∣ len) (hmem : p ∈ eraseBlocks g fuel addr len) :
    p.Within addr (addr + len) := by
  induction fuel generalizing addr len with
  | zero => cases hmem
  | succ fuel ih =>
    unfold eraseBlocks at hmem
    split at hmem
    next hlen =>
      have hle : g.erasesize ≤ len := Nat.le_of_dvd (Nat.pos_of_ne_zero hlen) hdvd
      rcases List.mem_cons.mp hmem with rfl | hmem
      · exact ⟨Sfc.cmdAddr_eq (by omega), le_rfl, by simp only; omega⟩
      · rcases g.eraseOpSize_eq with hop | hop
        · rw [hop] at hmem
          have hp := ih (addr + g.erasesize) (len - g.erasesize) (by omega)
            (Nat.dvd_sub hdvd dvd_rfl) hmem
          exact hp.mono (Nat.le_add_right _ _) (by omega)
        · rw [hop] at hmem
          exact ih addr len hend hdvd hmem
    next => cases hmem

theorem subsectors_within (hmem : p ∈ subsectors) : p.Within 0 (sectorCount4K * size4K) := by
  obtain ⟨i, hi, rfl⟩ := List.mem_map.mp hmem
  have hlt : i < 8 := List.mem_range.mp hi
  have hmask := Sfc.cmdAddr_eq (show 4096 * i < 2 ^ 30 by omega)
  rw [Nat.mod_eq_of_lt (by omega)] at hmask
  refine ⟨hmask, Nat.zero_le _, ?_⟩
  simp only [size4K, sectorCount4K]
  omega

theorem coreRegErase_within {fuel : ℕ}
    (haccept : Sfc.sfcCoreCheckAddrLen chipsize addr len = 0 → addr + len ≤ 2 ^ 30)
    (hmem : p ∈ coreRegErase fuel chipsize g addr len) :
    p.Within addr (addr + len) ∧ Sfc.sfcCoreCheckAddrLen chipsize addr len = 0 := by
  unfold coreRegErase at hmem
  split at hmem
  next => cases hmem
  next hchecked =>
    have hchecked : coreCheckAddrLenErase chipsize g addr len = 0 := not_not.mp hchecked
    have hcheck : Sfc.sfcCoreCheckAddrLen chipsize addr len = 0 := by
      by_contra hrefused
      simp only [coreCheckAddrLenErase, if_pos hrefused] at hchecked
      exact hrefused hchecked
    have hend := haccept hcheck
    exact ⟨eraseBlocks_within _ _ _ hend
      (coreCheckAddrLenErase_accepts hchecked (by omega)) hmem, hcheck⟩

theorem regErase_within {fuel : ℕ}
    (haccept : Sfc.sfcCoreCheckAddrLen chipsize addr len = 0 → addr + len ≤ 2 ^ 30)
    (hmem : p ∈ regErase fuel chipsize g uniform addr len) :
    p.Within addr (addr + len) ∧ (Sfc.sfcCoreCheckAddrLen chipsize addr len ≠ 0 →
      p.addr + p.len ≤ sectorCount4K * size4K) := by
  have hblocks (hmem : p ∈ coreRegErase fuel chipsize g addr len) :
      p.Within addr (addr + len) ∧ (Sfc.sfcCoreCheckAddrLen chipsize addr len ≠ 0 →
        p.addr + p.len ≤ sectorCount4K * size4K) := by
    obtain ⟨hp, hcheck⟩ := coreRegErase_within haccept hmem
    exact ⟨hp, fun h => absurd hcheck h⟩
  unfold regErase at hmem
  split at hmem
  next hhybrid =>
    unfold coreSpansionfsxxErase at hmem
    split at hmem
    next hbottom =>
      obtain ⟨rfl, hlen, _⟩ := hbottom
      split at hmem
      next => cases hmem
      next =>
        rcases List.mem_append.mp hmem with hmem | hmem
        · have hp := subsectors_within hmem
          have hle := g.hybrid_le hhybrid
          exact ⟨hp.mono le_rfl (by omega), fun _ => hp.high⟩
        · exact hblocks hmem
    next => exact hblocks hmem
  next => exact hblocks hmem

theorem regRwForDma_within {start : ℕ} (hdies : g.twoDies = true → chipsize ≤ 0x8000000)
    (hend : start + len ≤ if isRead then 2 ^ 30 else 2 ^ 32)
    (hmem : p ∈ regRwForDma isRead chipsize g start len) : p.Within start (start + len) := by
  cases isRead with
  | true => exact (coreRegReadForAll_within hdies (fun _ => hend) hmem).1
  | false => exact coreRegWrite_within hend hmem

theorem baseDmaRwXferData_within (hdies : g.twoDies = true → chipsize ≤ 0x8000000)
    (hend : addr + len ≤ if isRead then 2 ^ 30 else 2 ^ 32)
    (hmem : p ∈ baseDmaRwXferData isRead chipsize g addr len) : p.Within addr (addr + len) := by
  have hle := Sfc.dmaHead_le addr len
  have htail := Nat.mod_le (len - Sfc.dmaHead addr len) Sfc.hisfc350DmaMinSize
  have hbits : addr + len ≤ 2 ^ 32 := by
    cases isRead
    · exact hend
    · exact hend.trans (by decide)
  simp only [baseDmaRwXferData, List.mem_append] at hmem
  rcases hmem with (hmem | hmem) | hmem
  · split at hmem
    next =>
      exact (regRwForDma_within hdies ((by omega : _ ≤ addr + len).trans hend) hmem).mono le_rfl
        (by omega)
    next => cases hmem
  · exact (dmaBursts_within _ _ _ (by omega) hmem).mono (Nat.le_add_right _ _) (by omega)
  · split at hmem
    next =>
      exact (regRwForDma_within hdies ((by omega : _ ≤ addr + len).trans hend) hmem).mono
        (by omega) (by omega)
    next => cases hmem

end Within

end HiMpu.SfcController
