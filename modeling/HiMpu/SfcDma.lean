import HiMpu.SfcRegRead

/-!
# Reading and writing the SPI flash by DMA

`hisfc_dma_read` and `hisfc_dma_write` of `sfccom`.  What lies before the first boundary
of 256 bytes and the last one to three bytes go through the command registers, the rest
in bursts between the flash and the bounce buffer of the controller.
-/

namespace HiMpu.Sfc

def hisfc350DmaAlignSize : ℕ := 256
def hisfc350DmaMinSize : ℕ := 4
def hisfc350DmaMaxSize : ℕ := 4096

inductive Burst where
  | done
  | failed (left : Mem)

structure RegAnswers where
  read : ReadAnswers
  write : Answers

structure DmaAnswers where
  sfcCheckPermission : ℤ
  waitReady : ℤ
  writeEnable : ℤ
  head : RegAnswers
  tail : RegAnswers
  burst : ℕ → Burst

structure Xfer where
  buf : Mem
  host : Host
  bounce : Mem
  /-- What has really been transferred, as parts of the caller's buffer. -/
  moved : List Chunk

def Xfer.Transferred (x : Xfer) (i : ℕ) : Prop := ∃ c ∈ x.moved, c.off ≤ i ∧ i < c.off + c.n

def hisfcDmaTransfer (burst : Burst) (isRead : Bool) (x : Xfer) (spiStartAddr size : ℕ) : Xfer :=
  let n := (size - 1) % 0x10000000 + 1
  if isRead then
    let data := match burst with
      | .done => x.host.flash.bytes spiStartAddr n
      | .failed left => left.bytes 0 n
    { x with bounce := x.bounce.write 0 data }
  else
    let data := match burst with
      | .done => x.bounce.bytes 0 n
      | .failed left => left.bytes 0 n
    { x with host := { x.host with flash := x.host.flash.write spiStartAddr data } }

def hisfcDmaBufferWrite (x : Xfer) (off num : ℕ) : Xfer :=
  { x with bounce := x.bounce.write 0 (x.buf.bytes off num) }

def hisfcDmaBufferRead (x : Xfer) (off num : ℕ) : Xfer :=
  { x with buf := x.buf.write off (x.bounce.bytes 0 num) }

def hisfcRegRwForDma (ans : RegAnswers) (isRead : Bool) (chip : Chip) (x : Xfer)
    (addr off len : ℕ) : ℤ × ℕ × Xfer :=
  if isRead then
    let (ret, retlen, buf, host) := sfcCoreRegReadForAll ans.read.waitReady ans.read.waitReadySecond
      x.host chip addr x.buf off len
    (ret, retlen, { x with buf := buf, host := host, moved := x.moved ++ [⟨off, retlen⟩] })
  else
    let (ret, retlen, host) := sfcCoreRegWrite ans.write x.host chip.chipsize addr
      (fun i => x.buf (off + i)) len
    (ret, retlen, { x with host := host, moved := x.moved ++ [⟨off, retlen⟩] })

def hisfcDmaBurst (burst : Burst) (isRead : Bool) (x : Xfer) (addr off num : ℕ) : Xfer :=
  let x := if isRead then x else hisfcDmaBufferWrite x off num
  let x := hisfcDmaTransfer burst isRead x (addr % 2 ^ 32) num
  let x := if isRead then hisfcDmaBufferRead x off num else x
  match burst with
  | .done => { x with moved := x.moved ++ [⟨off, num⟩] }
  | .failed _ => x

def hisfcDmaBursts (burst : ℕ → Burst) (isRead : Bool) : ℕ → ℕ → Xfer → ℕ → ℕ → ℕ →
    Xfer × ℕ × ℕ × ℕ
  | 0, _, x, addr, off, len => (x, addr, off, len)
  | fuel + 1, k, x, addr, off, len =>
    if hisfc350DmaMinSize ≤ len then
      let num := if hisfc350DmaMaxSize ≤ len then hisfc350DmaMaxSize else len
      let num := num - num % hisfc350DmaMinSize
      hisfcDmaBursts burst isRead fuel (k + 1) (hisfcDmaBurst (burst k) isRead x addr off num)
        (addr + num) (off + num) (len - num)
    else (x, addr, off, len)

def hisfcBaseDmaRwXferRest (ans : DmaAnswers) (isRead : Bool) (chip : Chip) (x : Xfer)
    (addr off len : ℕ) : ℤ × ℕ × Xfer :=
  let (x, addr, off, len) := hisfcDmaBursts ans.burst isRead len 0 x addr off len
  if 0 < len then
    let (ret, retlenTmp, x) := hisfcRegRwForDma ans.tail isRead chip x addr off len
    if ret ≠ 0 then (ret, off + retlenTmp, x) else (ret, off + len, x)
  else (0, off, x)

def hisfcBaseDmaRwXferData (ans : DmaAnswers) (isRead : Bool) (chip : Chip) (x : Xfer)
    (addr len : ℕ) : ℤ × ℕ × Xfer :=
  if addr % hisfc350DmaAlignSize ≠ 0 then
    let num := hisfc350DmaAlignSize - addr % hisfc350DmaAlignSize
    let num := if len < num then len else num
    let (ret, retlen, x) := hisfcRegRwForDma ans.head isRead chip x addr 0 num
    if ret ≠ 0 then (ret, retlen, x)
    else hisfcBaseDmaRwXferRest ans isRead chip x (addr + num) num (len - num)
  else hisfcBaseDmaRwXferRest ans isRead chip x addr 0 len

def hisfcBaseDmaRwXfer (ans : DmaAnswers) (isRead : Bool) (chip : Chip) (x : Xfer)
    (addr len retlen : ℕ) : ℤ × ℕ × Xfer :=
  if ans.sfcCheckPermission ≠ 0 then (ans.sfcCheckPermission, retlen, x)
  else if sfcCoreCheckAddrLen chip.chipsize addr len ≠ 0 then (-einval, retlen, x)
  -- the length of zero has been refused before it is tested
  else if len = 0 then (0, 0, x)
  -- the answer of `wait_ready` does not get into the result
  else if ans.waitReady ≠ 0 then (0, 0, x)
  else
    let x := if isRead then x else
      { x with host := { x.host with
        wel := decide (ans.writeEnable = 0) || x.host.wel
        commands := x.host.commands ++ [.writeEnable]
        count := x.host.count + 1 } }
    hisfcBaseDmaRwXferData ans isRead chip x addr len

def hisfcDmaRead (ans : DmaAnswers) (h : Host) (chip : Chip) (bounce : Mem) (addr : ℕ) (buf : Mem)
    (len retlen : ℕ) : ℤ × ℕ × Xfer :=
  hisfcBaseDmaRwXfer ans true chip ⟨buf, h, bounce, []⟩ addr len retlen

def hisfcDmaWrite (ans : DmaAnswers) (h : Host) (chip : Chip) (bounce : Mem) (addr : ℕ) (buf : Mem)
    (len retlen : ℕ) : ℤ × ℕ × Xfer :=
  hisfcBaseDmaRwXfer ans false chip ⟨buf, h, bounce, []⟩ addr len retlen

def Copied (isRead : Bool) (x x' : Xfer) (addr off n : ℕ) : Prop :=
  if isRead then
    x'.buf = x.buf.write off (x.host.flash.bytes addr n) ∧ x'.host.flash = x.host.flash
  else x'.host.flash = x.host.flash.write addr (x.buf.bytes off n) ∧ x'.buf = x.buf

/-- The flash is ready, and for a write every command of it succeeds, counted from `count`
on. -/
def RegAnswers.Ready (ans : RegAnswers) (isRead : Bool) (chip : Chip) (count addr n : ℕ) : Prop :=
  if isRead then ans.read.Ready chip addr n
  else ans.write.waitReady = 0 ∧ ∀ i < (chunks addr n).length, Succeeds ans.write (count + i)

def Xfer.Before (x : Xfer) (off : ℕ) : Prop := ∀ c ∈ x.moved, c.off + c.n ≤ off

def dmaBurstCount (len : ℕ) : ℕ := (len / hisfc350DmaMinSize + 1023) / 1024

section Parts

variable {isRead : Bool} {x x' x'' : Xfer} {chip : Chip} {addr off len n k p : ℕ}

theorem write_nothing (m m' : Mem) (addr addr' : ℕ) : m.write addr (m'.bytes addr' 0) = m := by
  funext i
  rw [Mem.write_bytes, if_neg (by omega)]

theorem Copied.nothing (isRead : Bool) (x : Xfer) (addr off : ℕ) : Copied isRead x x addr off 0 := by
  cases isRead
  · exact ⟨(write_nothing _ _ _ _).symm, rfl⟩
  · exact ⟨(write_nothing _ _ _ _).symm, rfl⟩

theorem Copied.append (hfirst : Copied isRead x x' addr off n)
    (hsecond : Copied isRead x' x'' (addr + n) (off + n) k) :
    Copied isRead x x'' addr off (n + k) := by
  cases isRead with
  | true =>
    obtain ⟨hbuf, hflash⟩ := hfirst
    obtain ⟨hbuf', hflash'⟩ := hsecond
    refine ⟨?_, hflash'.trans hflash⟩
    rw [hbuf', hbuf, hflash, Mem.write_write]
  | false =>
    obtain ⟨hflash, hbuf⟩ := hfirst
    obtain ⟨hflash', hbuf'⟩ := hsecond
    refine ⟨?_, hbuf'.trans hbuf⟩
    rw [hflash', hflash, hbuf, Mem.write_write]

theorem bytes_from (m : Mem) (off n : ℕ) : Mem.bytes (fun i => m (off + i)) 0 n = m.bytes off n := by
  unfold Mem.bytes
  apply List.map_congr_left
  intro i _
  rw [Nat.zero_add]

theorem sfcCoreRegWrite_succeeds (ans : Answers) (h : Host) (chip : Chip) (data : Mem)
    (hcheck : sfcCoreCheckAddrLen chip.chipsize addr len = 0) (hwait : ans.waitReady = 0)
    (hok : ∀ i < (chunks addr len).length, Succeeds ans (h.count + i)) :
    let out := sfcCoreRegWrite ans h chip.chipsize addr data len
    out.1 = 0 ∧ out.2.1 = len ∧ out.2.2.flash = h.flash.write addr (data.bytes 0 len) ∧
      out.2.2.count = h.count + (chunks addr len).length := by
  have hsize : chip.chipsize ≤ 2 ^ 32 := chip.le_128M.trans (by norm_num)
  obtain ⟨_, hend⟩ := sfcCoreCheckAddrLen_accepts hcheck hsize
  obtain ⟨hret, hflash, _, hcount⟩ := writeChunks_succeeds ans h data (tiles_chunks addr len)
    (fun c => safe_chunks) (hend.trans hsize) h.flash (write_nothing _ _ _ _).symm hok
  simp only [sfcCoreRegWrite, hcheck, hwait, sfcCoreRegWriteData_eq, outcome]
  rw [if_neg (by simp), if_neg (by simp), if_neg (by rw [hret]; simp)]
  exact ⟨rfl, rfl, hflash, hcount⟩

theorem sfcCoreRegWrite_fails (ans : Answers) (h : Host) (chip : Chip) (data : Mem)
    (hcheck : sfcCoreCheckAddrLen chip.chipsize addr len = 0)
    (hfail : ¬ (ans.waitReady = 0 ∧
      ∀ i < (chunks addr len).length, Succeeds ans (h.count + i))) :
    (sfcCoreRegWrite ans h chip.chipsize addr data len).1 ≠ 0 := by
  have hsize : chip.chipsize ≤ 2 ^ 32 := chip.le_128M.trans (by norm_num)
  obtain ⟨_, hend⟩ := sfcCoreCheckAddrLen_accepts hcheck hsize
  rw [sfcCoreRegWrite, hcheck]
  by_cases hwait : ans.waitReady = 0
  · have hexists : ∃ i, i < (chunks addr len).length ∧ ¬ Succeeds ans (h.count + i) := by
      by_contra hnone
      simp only [not_exists, not_and, not_not] at hnone
      exact hfail ⟨hwait, hnone⟩
    classical
    -- the first command that fails
    have hmin : ∀ i < Nat.find hexists, Succeeds ans (h.count + i) := by
      intro i hi
      have hlt := (Nat.find_spec hexists).1
      by_contra hbad
      exact Nat.find_min hexists hi ⟨hi.trans hlt, hbad⟩
    obtain ⟨_, hnonzero, _⟩ := writeChunks_fails ans h data (tiles_chunks addr len)
      (fun c => safe_chunks) (hend.trans hsize) (Nat.find_spec hexists).1 hmin
      (Nat.find_spec hexists).2
    simp only [sfcCoreRegWriteData_eq, outcome, hwait]
    rw [if_neg (by simp), if_neg (by simp), if_pos hnonzero]
    exact hnonzero
  · rw [if_neg (by simp), if_pos hwait]
    exact hwait

theorem hisfcRegRwForDma_succeeds (ans : RegAnswers) (x : Xfer) (off : ℕ)
    (hcheck : sfcCoreCheckAddrLen chip.chipsize addr n = 0)
    (hready : ans.Ready isRead chip x.host.count addr n) :
    let out := hisfcRegRwForDma ans isRead chip x addr off n
    out.1 = 0 ∧ out.2.1 = n ∧ Copied isRead x out.2.2 addr off n ∧
      out.2.2.moved = x.moved ++ [⟨off, n⟩] ∧
      (isRead = false → out.2.2.host.count = x.host.count + (chunks addr n).length) := by
  cases isRead with
  | true =>
    obtain ⟨hret, hlen, hbuf, hflash⟩ :=
      sfcCoreRegReadForAll_succeeds ans.read x.host chip x.buf off hcheck hready
    refine ⟨hret, hlen, ⟨hbuf, hflash⟩, ?_, fun h => by cases h⟩
    simp only [hisfcRegRwForDma, if_true, hlen]
  | false =>
    obtain ⟨hret, hlen, hflash, hcount⟩ :=
      sfcCoreRegWrite_succeeds ans.write x.host chip (fun i => x.buf (off + i)) hcheck hready.1
        hready.2
    rw [bytes_from] at hflash
    refine ⟨hret, hlen, ⟨hflash, rfl⟩, ?_, fun _ => hcount⟩
    simp only [hisfcRegRwForDma, Bool.false_eq_true, if_false, hlen]

theorem hisfcRegRwForDma_fails (ans : RegAnswers) (x : Xfer) (off : ℕ)
    (hcheck : sfcCoreCheckAddrLen chip.chipsize addr n = 0)
    (hready : ¬ ans.Ready isRead chip x.host.count addr n) :
    (hisfcRegRwForDma ans isRead chip x addr off n).1 ≠ 0 := by
  cases isRead with
  | true => exact sfcCoreRegReadForAll_fails ans.read x.host chip x.buf off hcheck hready
  | false => exact sfcCoreRegWrite_fails ans.write x.host chip _ hcheck hready

def dmaNum (len : ℕ) : ℕ :=
  let num := if hisfc350DmaMaxSize ≤ len then hisfc350DmaMaxSize else len
  num - num % hisfc350DmaMinSize

theorem dmaNum_bounds (hlen : hisfc350DmaMinSize ≤ len) :
    0 < dmaNum len ∧ dmaNum len ≤ len - len % hisfc350DmaMinSize ∧
      dmaNum len ≤ hisfc350DmaMaxSize ∧
      (len - dmaNum len) % hisfc350DmaMinSize = len % hisfc350DmaMinSize ∧
      dmaBurstCount len = dmaBurstCount (len - dmaNum len) + 1 := by
  by_cases hmax : hisfc350DmaMaxSize ≤ len
  · simp only [dmaNum, if_pos hmax]
    simp only [dmaBurstCount, hisfc350DmaMinSize, hisfc350DmaMaxSize] at hmax ⊢
    omega
  · simp only [dmaNum, if_neg hmax]
    simp only [dmaBurstCount, hisfc350DmaMinSize, hisfc350DmaMaxSize] at hlen hmax ⊢
    omega

theorem hisfcDmaBursts_step (burst : ℕ → Burst) (fuel k : ℕ) (x : Xfer) (addr off : ℕ)
    (hlen : hisfc350DmaMinSize ≤ len) :
    hisfcDmaBursts burst isRead (fuel + 1) k x addr off len =
      hisfcDmaBursts burst isRead fuel (k + 1)
        (hisfcDmaBurst (burst k) isRead x addr off (dmaNum len))
        (addr + dmaNum len) (off + dmaNum len) (len - dmaNum len) := by
  rw [hisfcDmaBursts, if_pos hlen]
  rfl

theorem hisfcDmaBursts_end (burst : ℕ → Burst) (fuel k : ℕ) (x : Xfer) (addr off : ℕ)
    (hlen : ¬ hisfc350DmaMinSize ≤ len) :
    hisfcDmaBursts burst isRead fuel k x addr off len = (x, addr, off, len) := by
  cases fuel with
  | zero => rfl
  | succ fuel => rw [hisfcDmaBursts, if_neg hlen]

theorem hisfcDmaBurst_count (burst : Burst) (x : Xfer) (addr off num : ℕ) :
    (hisfcDmaBurst burst isRead x addr off num).host.count = x.host.count := by
  cases isRead <;> cases burst <;> rfl

theorem hisfcDmaBurst_copied (isRead : Bool) (x : Xfer) (off : ℕ) (hpos : 0 < n) (hmax : n ≤ hisfc350DmaMaxSize)
    (hrange : addr < 2 ^ 32) :
    Copied isRead x (hisfcDmaBurst .done isRead x addr off n) addr off n ∧
      (hisfcDmaBurst .done isRead x addr off n).moved = x.moved ++ [⟨off, n⟩] := by
  have hcount : (n - 1) % 0x10000000 + 1 = n := by
    rw [hisfc350DmaMaxSize] at hmax
    omega
  have hsame (m m' : Mem) (a : ℕ) : (m.write 0 (m'.bytes a n)).bytes 0 n = m'.bytes a n := by
    have hlen := Mem.bytes_write_same m 0 (m'.bytes a n)
    rwa [Mem.length_bytes] at hlen
  cases isRead with
  | true =>
    refine ⟨⟨?_, rfl⟩, rfl⟩
    simp only [hisfcDmaBurst, hisfcDmaTransfer, hisfcDmaBufferRead, if_true, hcount,
      Nat.mod_eq_of_lt hrange, hsame]
  | false =>
    refine ⟨⟨?_, rfl⟩, rfl⟩
    simp only [hisfcDmaBurst, hisfcDmaTransfer, hisfcDmaBufferWrite, Bool.false_eq_true,
      if_false, hcount, Nat.mod_eq_of_lt hrange, hsame]

theorem hisfcDmaBurst_failed {burst : Burst} (hfail : burst ≠ .done) (x : Xfer) (addr off n : ℕ) :
    (hisfcDmaBurst burst isRead x addr off n).moved = x.moved := by
  cases burst with
  | done => exact absurd rfl hfail
  | failed left => cases isRead <;> rfl

theorem hisfcDmaBursts_place (isRead : Bool) (burst : ℕ → Burst) (fuel k : ℕ) (x : Xfer) (addr off len : ℕ)
    (hfuel : len ≤ fuel) :
    let whole := len - len % hisfc350DmaMinSize
    let out := hisfcDmaBursts burst isRead fuel k x addr off len
    out.2 = (addr + whole, off + whole, len % hisfc350DmaMinSize) ∧
      out.1.host.count = x.host.count := by
  induction fuel generalizing k x addr off len with
  | zero =>
    obtain rfl : len = 0 := Nat.le_zero.mp hfuel
    exact ⟨rfl, rfl⟩
  | succ fuel ih =>
    by_cases hlen : hisfc350DmaMinSize ≤ len
    · obtain ⟨hpos, hle, _, hmod, _⟩ := dmaNum_bounds hlen
      obtain ⟨hplace, hcount⟩ := ih (k + 1)
        (hisfcDmaBurst (burst k) isRead x addr off (dmaNum len)) (addr + dmaNum len)
        (off + dmaNum len) (len - dmaNum len) (by omega)
      simp only [hisfcDmaBursts_step _ _ _ _ _ _ hlen]
      refine ⟨hplace.trans ?_, hcount.trans (hisfcDmaBurst_count _ _ _ _ _)⟩
      rw [hmod]
      refine Prod.ext ?_ (Prod.ext ?_ rfl) <;> simp only <;> omega
    · have hmod : len % hisfc350DmaMinSize = len := Nat.mod_eq_of_lt (not_le.mp hlen)
      simp only [hisfcDmaBursts_end _ _ _ _ _ _ hlen, hmod, Nat.sub_self, Nat.add_zero]
      exact ⟨trivial, trivial⟩

theorem hisfcDmaBursts_copied (isRead : Bool) (burst : ℕ → Burst) (fuel k : ℕ) (x : Xfer) (addr off len : ℕ)
    (hfuel : len ≤ fuel) (hrange : addr + len ≤ 2 ^ 32)
    (hdone : ∀ i < dmaBurstCount len, burst (k + i) = .done) :
    let whole := len - len % hisfc350DmaMinSize
    let out := hisfcDmaBursts burst isRead fuel k x addr off len
    Copied isRead x out.1 addr off whole ∧
      ∃ new, out.1.moved = x.moved ++ new ∧ Tiles Chunk.off Chunk.n off new (off + whole) := by
  induction fuel generalizing k x addr off len with
  | zero =>
    obtain rfl : len = 0 := Nat.le_zero.mp hfuel
    exact ⟨Copied.nothing _ _ _ _, [], (List.append_nil _).symm, rfl⟩
  | succ fuel ih =>
    by_cases hlen : hisfc350DmaMinSize ≤ len
    · obtain ⟨hpos, hle, hmax, hmod, hnumber⟩ := dmaNum_bounds hlen
      have hsub := Nat.sub_le len (len % hisfc350DmaMinSize)
      have hfirst : burst k = .done := by
        have hzero := hdone 0 (by omega)
        rwa [Nat.add_zero] at hzero
      obtain ⟨hcopied, hmoved⟩ := hisfcDmaBurst_copied isRead x off hpos hmax
        (show addr < 2 ^ 32 by omega)
      obtain ⟨hrest, new, hnew, htiles⟩ := ih (k + 1)
        (hisfcDmaBurst .done isRead x addr off (dmaNum len)) (addr + dmaNum len)
        (off + dmaNum len) (len - dmaNum len) (by omega) (by omega) (by
          intro i hi
          have hsucc := hdone (i + 1) (by omega)
          rwa [Nat.add_comm i 1, ← Nat.add_assoc] at hsucc)
      have hwhole : dmaNum len + (len - dmaNum len - (len - dmaNum len) % hisfc350DmaMinSize) =
          len - len % hisfc350DmaMinSize := by omega
      simp only [hisfcDmaBursts_step _ _ _ _ _ _ hlen, hfirst]
      have hjoined := hcopied.append hrest
      rw [hwhole] at hjoined
      refine ⟨hjoined, ⟨off, dmaNum len⟩ :: new, ?_, rfl, hpos, ?_⟩
      · rw [hnew, hmoved, List.append_assoc, List.singleton_append]
      · rw [← hwhole, ← Nat.add_assoc]
        exact htiles
    · have hmod : len % hisfc350DmaMinSize = len := Nat.mod_eq_of_lt (not_le.mp hlen)
      simp only [hisfcDmaBursts_end _ _ _ _ _ _ hlen, hmod, Nat.sub_self, Nat.add_zero]
      exact ⟨Copied.nothing _ _ _ _, [], (List.append_nil _).symm, rfl⟩

theorem Xfer.Before.missing (hbefore : x.Before off) (hle : off ≤ p) : ¬ x.Transferred p := by
  rintro ⟨c, hmem, hlow, hhigh⟩
  have hend := hbefore c hmem
  omega

theorem missing_append {c : Chunk} (hmissing : ¬ x.Transferred p)
    (hmoved : x'.moved = x.moved ++ [c]) (hlt : p < c.off) : ¬ x'.Transferred p := by
  rintro ⟨d, hmem, hin⟩
  rw [hmoved] at hmem
  rcases List.mem_append.mp hmem with hmem | hmem
  · exact hmissing ⟨d, hmem, hin⟩
  · obtain rfl := List.mem_singleton.mp hmem
    omega

theorem hisfcDmaBurst_moved (isRead : Bool) (burst : Burst) (x : Xfer) (addr off n : ℕ) :
    (hisfcDmaBurst burst isRead x addr off n).moved = x.moved ∨
      (hisfcDmaBurst burst isRead x addr off n).moved = x.moved ++ [⟨off, n⟩] := by
  cases isRead <;> cases burst <;> simp [hisfcDmaBurst, hisfcDmaTransfer, hisfcDmaBufferRead,
    hisfcDmaBufferWrite]

theorem hisfcDmaBursts_missing (burst : ℕ → Burst) (fuel k : ℕ) (x : Xfer) (addr off len : ℕ)
    (hmissing : ¬ x.Transferred p) (hlt : p < off) :
    ¬ (hisfcDmaBursts burst isRead fuel k x addr off len).1.Transferred p := by
  induction fuel generalizing k x addr off len with
  | zero => exact hmissing
  | succ fuel ih =>
    by_cases hlen : hisfc350DmaMinSize ≤ len
    · rw [hisfcDmaBursts_step _ _ _ _ _ _ hlen]
      apply ih
      · rcases hisfcDmaBurst_moved isRead (burst k) x addr off (dmaNum len)
          with hmoved | hmoved
        · unfold Xfer.Transferred
          rw [hmoved]
          exact hmissing
        · exact missing_append hmissing hmoved hlt
      · omega
    · rw [hisfcDmaBursts_end _ _ _ _ _ _ hlen]
      exact hmissing

theorem hisfcDmaBursts_failed (isRead : Bool) (burst : ℕ → Burst) (fuel k : ℕ) (x : Xfer) (addr off len : ℕ)
    (hfuel : len ≤ fuel) (hbefore : x.Before off)
    (hfail : ¬ ∀ i < dmaBurstCount len, burst (k + i) = .done) :
    ∃ p, off ≤ p ∧ p < off + (len - len % hisfc350DmaMinSize) ∧
      ¬ (hisfcDmaBursts burst isRead fuel k x addr off len).1.Transferred p := by
  induction fuel generalizing k x addr off len with
  | zero =>
    obtain rfl : len = 0 := Nat.le_zero.mp hfuel
    exact absurd (fun i hi => absurd hi (by simp [dmaBurstCount])) hfail
  | succ fuel ih =>
    by_cases hlen : hisfc350DmaMinSize ≤ len
    · obtain ⟨hpos, hle, hmax, hmod, hnumber⟩ := dmaNum_bounds hlen
      rw [hisfcDmaBursts_step _ _ _ _ _ _ hlen]
      by_cases hfirst : burst k = .done
      · obtain ⟨p, hlow, hhigh, hmissing⟩ := ih (k + 1)
          (hisfcDmaBurst (burst k) isRead x addr off (dmaNum len)) (addr + dmaNum len)
          (off + dmaNum len) (len - dmaNum len) (by omega) (by
            intro c hmem
            rcases hisfcDmaBurst_moved isRead (burst k) x addr off (dmaNum len)
              with hmoved | hmoved
            · rw [hmoved] at hmem
              exact (hbefore c hmem).trans (Nat.le_add_right _ _)
            · rw [hmoved] at hmem
              rcases List.mem_append.mp hmem with hmem | hmem
              · exact (hbefore c hmem).trans (Nat.le_add_right _ _)
              · obtain rfl := List.mem_singleton.mp hmem
                exact le_rfl) (by
            intro hall
            apply hfail
            intro i hi
            cases i with
            | zero => exact hfirst
            | succ i =>
              have hi' := hall i (by omega)
              rwa [Nat.add_assoc, Nat.add_comm 1 i] at hi')
        exact ⟨p, by omega, by omega, hmissing⟩
      · refine ⟨off, le_rfl, by omega, ?_⟩
        apply hisfcDmaBursts_missing
        · unfold Xfer.Transferred
          rw [hisfcDmaBurst_failed hfirst]
          exact hbefore.missing le_rfl
        · omega
    · have hnone : dmaBurstCount len = 0 := by
        simp only [dmaBurstCount, hisfc350DmaMinSize] at hlen ⊢
        omega
      exact absurd (fun i hi => absurd hi (by omega)) hfail

def DmaAnswers.TailReady (ans : DmaAnswers) (isRead : Bool) (chip : Chip) (count addr len : ℕ) :
    Prop :=
  len % hisfc350DmaMinSize ≠ 0 →
    ans.tail.Ready isRead chip count (addr + (len - len % hisfc350DmaMinSize))
      (len % hisfc350DmaMinSize)

def dmaHead (addr len : ℕ) : ℕ :=
  if addr % hisfc350DmaAlignSize ≠ 0 then
    let num := hisfc350DmaAlignSize - addr % hisfc350DmaAlignSize
    if len < num then len else num
  else 0

theorem dmaHead_le (addr len : ℕ) : dmaHead addr len ≤ len := by
  simp only [dmaHead]
  split
  next => split <;> omega
  next => exact Nat.zero_le _

def DmaAnswers.PartsReady (ans : DmaAnswers) (isRead : Bool) (chip : Chip)
    (count addr len : ℕ) : Prop :=
  (dmaHead addr len ≠ 0 → ans.head.Ready isRead chip count addr (dmaHead addr len)) ∧
    ans.TailReady isRead chip (count + (chunks addr (dmaHead addr len)).length)
      (addr + dmaHead addr len) (len - dmaHead addr len)

theorem Ready.iff_count (ans : RegAnswers) {count count' : ℕ}
    (hcount : isRead = false → count = count') :
    ans.Ready isRead chip count addr n ↔ ans.Ready isRead chip count' addr n := by
  cases isRead with
  | true => exact Iff.rfl
  | false => rw [hcount rfl]

section Rest

variable (ans : DmaAnswers) (x : Xfer) (off : ℕ)

theorem whole_add_tail (len : ℕ) :
    len - len % hisfc350DmaMinSize + len % hisfc350DmaMinSize = len :=
  Nat.sub_add_cancel (Nat.mod_le _ _)

theorem rest_eq (isRead : Bool) (chip : Chip) (addr len : ℕ) :
    hisfcBaseDmaRwXferRest ans isRead chip x addr off len =
      let whole := len - len % hisfc350DmaMinSize
      let x := (hisfcDmaBursts ans.burst isRead len 0 x addr off len).1
      if len % hisfc350DmaMinSize ≠ 0 then
        let out := hisfcRegRwForDma ans.tail isRead chip x (addr + whole) (off + whole)
          (len % hisfc350DmaMinSize)
        if out.1 ≠ 0 then (out.1, off + whole + out.2.1, out.2.2) else (0, off + len, out.2.2)
      else (0, off + len, x) := by
  obtain ⟨hplace, _⟩ := hisfcDmaBursts_place isRead ans.burst len 0 x addr off len
    le_rfl
  have hwhole := whole_add_tail len
  unfold hisfcBaseDmaRwXferRest
  generalize hisfcDmaBursts ans.burst isRead len 0 x addr off len = out at hplace
  obtain ⟨x', addr', off', len'⟩ := out
  obtain ⟨rfl, rfl, rfl⟩ : addr' = _ ∧ off' = _ ∧ len' = _ := by simpa using hplace
  by_cases htail : len % hisfc350DmaMinSize = 0
  · simp only [htail, Nat.lt_irrefl, if_false, ne_eq, not_true_eq_false]
    rw [htail, Nat.add_zero] at hwhole
    simp only [Nat.sub_zero]
  · simp only [Nat.pos_of_ne_zero htail, if_true, ne_eq, htail, not_false_eq_true]
    split
    next => rfl
    next hok =>
      rw [not_not.mp hok, Nat.add_assoc off, hwhole]

variable {ans : DmaAnswers} {x : Xfer} {off : ℕ}

theorem rest_check (hrange : addr + len ≤ chip.chipsize) (htail : len % hisfc350DmaMinSize ≠ 0) :
    sfcCoreCheckAddrLen chip.chipsize (addr + (len - len % hisfc350DmaMinSize))
      (len % hisfc350DmaMinSize) = 0 := by
  have hsize : chip.chipsize ≤ 2 ^ 32 := chip.le_128M.trans (by norm_num)
  have hwhole := whole_add_tail len
  exact sfcCoreCheckAddrLen_of_le (Nat.pos_of_ne_zero htail) (by omega) hsize

theorem rest_ready (hready : ans.TailReady isRead chip x.host.count addr len)
    (htail : len % hisfc350DmaMinSize ≠ 0) :
    ans.tail.Ready isRead chip
      (hisfcDmaBursts ans.burst isRead len 0 x addr off len).1.host.count
      (addr + (len - len % hisfc350DmaMinSize)) (len % hisfc350DmaMinSize) := by
  obtain ⟨_, hcount⟩ := hisfcDmaBursts_place isRead ans.burst len 0 x addr off len le_rfl
  rw [hcount]
  exact hready htail

theorem rest_succeeds (x : Xfer) (off : ℕ) (hrange : addr + len ≤ chip.chipsize)
    (hready : ans.TailReady isRead chip x.host.count addr len)
    (hdone : ∀ i < dmaBurstCount len, ans.burst i = .done) :
    let out := hisfcBaseDmaRwXferRest ans isRead chip x addr off len
    out.1 = 0 ∧ out.2.1 = off + len ∧ Copied isRead x out.2.2 addr off len ∧
      ∃ new, out.2.2.moved = x.moved ++ new ∧ Tiles Chunk.off Chunk.n off new (off + len) := by
  have hsize : addr + len ≤ 2 ^ 32 := hrange.trans (chip.le_128M.trans (by norm_num))
  have hwhole := whole_add_tail len
  obtain ⟨hcopied, new, hmoved, htiles⟩ := hisfcDmaBursts_copied isRead ans.burst len 0
    x addr off len le_rfl hsize (by simpa only [Nat.zero_add] using hdone)
  simp only [rest_eq]
  by_cases htail : len % hisfc350DmaMinSize = 0
  · have hall : len - len % hisfc350DmaMinSize = len := by omega
    rw [hall] at hcopied htiles
    rw [if_neg (not_not.mpr htail)]
    exact ⟨rfl, rfl, hcopied, new, hmoved, htiles⟩
  · obtain ⟨hret, hlen, hrest, hmoved', _⟩ := hisfcRegRwForDma_succeeds ans.tail
      (hisfcDmaBursts ans.burst isRead len 0 x addr off len).1
      (off + (len - len % hisfc350DmaMinSize)) (rest_check hrange htail) (rest_ready hready htail)
    have hjoined := hcopied.append hrest
    rw [hwhole] at hjoined
    rw [if_pos htail, if_neg (by rw [hret]; simp)]
    refine ⟨rfl, rfl, hjoined, new ++ [⟨off + (len - len % hisfc350DmaMinSize),
      len % hisfc350DmaMinSize⟩], ?_, ?_⟩
    · rw [hmoved', hmoved, List.append_assoc]
    · rw [Tiles.append_iff]
      refine ⟨_, htiles, rfl, Nat.pos_of_ne_zero htail, ?_⟩
      rw [Tiles.nil_iff, Nat.add_assoc, hwhole]

theorem rest_fails (x : Xfer) (off : ℕ) (hrange : addr + len ≤ chip.chipsize)
    (hready : ¬ ans.TailReady isRead chip x.host.count addr len) :
    (hisfcBaseDmaRwXferRest ans isRead chip x addr off len).1 ≠ 0 := by
  obtain ⟨htail, hfail⟩ : len % hisfc350DmaMinSize ≠ 0 ∧ ¬ ans.tail.Ready isRead chip
      x.host.count (addr + (len - len % hisfc350DmaMinSize)) (len % hisfc350DmaMinSize) := by
    simpa [DmaAnswers.TailReady] using hready
  obtain ⟨_, hcount⟩ := hisfcDmaBursts_place isRead ans.burst len 0 x addr off len
    le_rfl
  rw [← hcount] at hfail
  have hnonzero := hisfcRegRwForDma_fails ans.tail
    (hisfcDmaBursts ans.burst isRead len 0 x addr off len).1
    (off + (len - len % hisfc350DmaMinSize)) (rest_check hrange htail) hfail
  simp only [rest_eq]
  rw [if_pos htail, if_pos hnonzero]
  exact hnonzero

theorem rest_misses (x : Xfer) (off : ℕ) (hrange : addr + len ≤ chip.chipsize) (hbefore : x.Before off)
    (hready : ans.TailReady isRead chip x.host.count addr len)
    (hfail : ¬ ∀ i < dmaBurstCount len, ans.burst i = .done) :
    let out := hisfcBaseDmaRwXferRest ans isRead chip x addr off len
    out.1 = 0 ∧ ∃ p, p < off + len ∧ ¬ out.2.2.Transferred p := by
  have hwhole := whole_add_tail len
  obtain ⟨p, hlow, hhigh, hmissing⟩ := hisfcDmaBursts_failed isRead ans.burst len 0 x
    addr off len le_rfl hbefore (by simpa only [Nat.zero_add] using hfail)
  simp only [rest_eq]
  by_cases htail : len % hisfc350DmaMinSize = 0
  · rw [if_neg (not_not.mpr htail)]
    exact ⟨rfl, p, by omega, hmissing⟩
  · obtain ⟨hret, hlen, _, hmoved', _⟩ := hisfcRegRwForDma_succeeds ans.tail
      (hisfcDmaBursts ans.burst isRead len 0 x addr off len).1
      (off + (len - len % hisfc350DmaMinSize)) (rest_check hrange htail) (rest_ready hready htail)
    rw [if_pos htail, if_neg (by rw [hret]; simp)]
    exact ⟨rfl, p, by omega, missing_append hmissing hmoved' hhigh⟩

end Rest

end Parts

end HiMpu.Sfc
