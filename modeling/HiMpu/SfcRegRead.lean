import HiMpu.SfcRegWrite

/-!
# Reading the SPI flash through the command registers

`hisfc_reg_read` of `sfccom`.  A read is cut into commands of at most one data
buffer, and the flash that consists of two dies is read in two halves.
-/

namespace HiMpu.Sfc

def hisfc350CmdAddrMask : ℕ := 0x3FFFFFFF
def s70fs01gsBoundAddr : ℕ := 0x4000000

structure Chip where
  chipsize : ℕ
  twoDies : Bool
  le_128M : chipsize ≤ 0x8000000
  size_twoDies : twoDies = true → chipsize = 0x8000000

structure ReadAnswers where
  sfcCheckPermission : ℤ
  waitReady : ℤ
  waitReadySecond : ℤ

def Chip.Crosses (chip : Chip) (addr len : ℕ) : Prop :=
  chip.twoDies = true ∧ addr % 2 ^ 32 < s70fs01gsBoundAddr ∧
    s70fs01gsBoundAddr < (addr + len) % 2 ^ 32

def ReadAnswers.Ready (ans : ReadAnswers) (chip : Chip) (addr len : ℕ) : Prop :=
  ans.waitReady = 0 ∧ (chip.Crosses addr len → ans.waitReadySecond = 0)

def sfcCoreRegReadBuf (h : Host) (addr : ℕ) (buf : Mem) (off size : ℕ) : Mem × Host :=
  if hisfc350RegBufSize < size then (buf, h)
  else
    let cmdAddr := addr % 2 ^ 32 &&& hisfc350CmdAddrMask
    let databuf := h.databuf.write 0 (h.flash.bytes cmdAddr ((size - 1) % 0x100 + 1))
    let copied := (List.range (size / 4)).foldl
      (fun buf i => buf.store (off + 4 * i) 4 (databuf.load (4 * i) 4)) buf
    (copied.write (off + 4 * (size / 4)) (databuf.bytes (4 * (size / 4)) (size % 4)),
      { h with cmdAddr := cmdAddr, databuf := databuf })

def sfcCoreRegReadNum : ℕ → Host → ℕ → Mem → ℕ → ℕ → Mem × Host
  | 0, h, _, buf, _, _ => (buf, h)
  | fuel + 1, h, addr, buf, off, num =>
    if hisfc350RegBufSize ≤ num then
      let (buf, h) := sfcCoreRegReadBuf h addr buf off hisfc350RegBufSize
      sfcCoreRegReadNum fuel h (addr + hisfc350RegBufSize) buf (off + hisfc350RegBufSize)
        (num - hisfc350RegBufSize)
    else if num ≠ 0 then sfcCoreRegReadBuf h addr buf off num
    else (buf, h)

def sfcCoreRegReadLoop (chipsize : ℕ) : ℕ → Host → ℕ → Mem → ℕ → ℕ → ℕ × Mem × Host
  | 0, h, _, buf, off, _ => (off, buf, h)
  | fuel + 1, h, addr, buf, off, len =>
    if 0 < len then
      let num := if chipsize ≤ addr + len then chipsize - addr else len
      let (buf, h) := sfcCoreRegReadNum (num + 1) h addr buf off num
      sfcCoreRegReadLoop chipsize fuel h (addr + num) buf (off + num) (len - num)
    else (off, buf, h)

def sfcCoreRegRead (waitReady : ℤ) (h : Host) (chipsize addr : ℕ) (buf : Mem) (off len : ℕ) :
    ℤ × ℕ × Mem × Host :=
  let ret := sfcCoreCheckAddrLen chipsize addr len
  if ret ≠ 0 then (if ret = sfcRwLenZero then 0 else ret, 0, buf, h)
  else if waitReady ≠ 0 then (waitReady, 0, buf, h)
  else
    let (off', buf, h) := sfcCoreRegReadLoop chipsize (len + 1) h addr buf off len
    (0, off' - off, buf, h)

def sfcCoreS70fs01gsRegRead (waitReady waitReadySecond : ℤ) (h : Host) (chipsize addr : ℕ)
    (buf : Mem) (off len : ℕ) : ℤ × ℕ × Mem × Host :=
  if addr % 2 ^ 32 < s70fs01gsBoundAddr ∧ s70fs01gsBoundAddr < (addr + len) % 2 ^ 32 then
    let (ret, retlen, buf, h) :=
      sfcCoreRegRead waitReady h chipsize addr buf off (s70fs01gsBoundAddr - addr)
    if ret ≠ 0 then (ret, retlen, buf, h)
    else
      let (ret, retlen', buf, h) :=
        sfcCoreRegRead waitReadySecond h chipsize s70fs01gsBoundAddr buf
          (off + s70fs01gsBoundAddr - addr) (addr + len - s70fs01gsBoundAddr)
      (ret, retlen + retlen', buf, h)
  else sfcCoreRegRead waitReady h chipsize addr buf off len

def sfcCoreRegReadForAll (waitReady waitReadySecond : ℤ) (h : Host) (chip : Chip) (addr : ℕ)
    (buf : Mem) (off len : ℕ) : ℤ × ℕ × Mem × Host :=
  if chip.twoDies then
    sfcCoreS70fs01gsRegRead waitReady waitReadySecond h chip.chipsize addr buf off len
  else sfcCoreRegRead waitReady h chip.chipsize addr buf off len

def hisfcRegRead (ans : ReadAnswers) (h : Host) (chip : Chip) (addr : ℕ) (buf : Mem) (len : ℕ) :
    ℤ × ℕ × Mem × Host :=
  if ans.sfcCheckPermission ≠ 0 then (ans.sfcCheckPermission, 0, buf, h)
  else sfcCoreRegReadForAll ans.waitReady ans.waitReadySecond h chip addr buf 0 len

section Read

variable {h : Host} {buf : Mem} {chip : Chip} {addr off len size num chipsize : ℕ}

theorem cmdAddr_eq (haddr : addr < 2 ^ 30) : addr % 2 ^ 32 &&& hisfc350CmdAddrMask = addr := by
  have hmask : hisfc350CmdAddrMask = 2 ^ 30 - 1 := by decide
  rw [hmask, Nat.and_two_pow_sub_one_eq_mod]
  omega

theorem foldl_store_words_at (databuf buf : Mem) (off count x : ℕ) :
    (List.range count).foldl
        (fun buf i => buf.store (off + 4 * i) 4 (databuf.load (4 * i) 4)) buf x =
      if off ≤ x ∧ x < off + 4 * count then databuf (x - off) else buf x := by
  induction count with
  | zero => rw [if_neg (by omega)]; rfl
  | succ count ih =>
    rw [List.range_succ, List.foldl_append, List.foldl_cons, List.foldl_nil, store_load, ih]
    by_cases hlast : off + 4 * count ≤ x ∧ x < off + 4 * count + 4
    · rw [if_pos hlast, if_pos (by omega)]
      congr 1
      omega
    · rw [if_neg hlast]
      by_cases hlow : off ≤ x ∧ x < off + 4 * count
      · rw [if_pos hlow, if_pos (by omega)]
      · rw [if_neg hlow, if_neg (by omega)]

theorem copy_words (databuf buf : Mem) (off size : ℕ) :
    ((List.range (size / 4)).foldl
        (fun buf i => buf.store (off + 4 * i) 4 (databuf.load (4 * i) 4)) buf).write
        (off + 4 * (size / 4)) (databuf.bytes (4 * (size / 4)) (size % 4)) =
      buf.write off (databuf.bytes 0 size) := by
  have hjoin := Mem.write_write buf databuf off 0 (4 * (size / 4)) (size % 4)
  rw [Nat.zero_add, Nat.div_add_mod] at hjoin
  rw [← hjoin]
  congr 1
  funext x
  rw [foldl_store_words_at, Mem.write_bytes]
  simp only [Nat.zero_add]

theorem sfcCoreRegReadBuf_spec (h : Host) (buf : Mem) (off : ℕ) (hpos : 0 < size)
    (hsize : size ≤ hisfc350RegBufSize) (haddr : addr + size ≤ 2 ^ 30) :
    (sfcCoreRegReadBuf h addr buf off size).1 = buf.write off (h.flash.bytes addr size) ∧
      (sfcCoreRegReadBuf h addr buf off size).2.flash = h.flash := by
  have hcount : (size - 1) % 0x100 + 1 = size := by
    rw [regBufSize_eq] at hsize
    omega
  have hdata : (h.databuf.write 0 (h.flash.bytes addr size)).bytes 0 size =
      h.flash.bytes addr size := by
    have hsame := Mem.bytes_write_same h.databuf 0 (h.flash.bytes addr size)
    rwa [Mem.length_bytes] at hsame
  simp only [sfcCoreRegReadBuf, if_neg (Nat.not_lt.mpr hsize), hcount,
    cmdAddr_eq (show addr < 2 ^ 30 by omega)]
  rw [copy_words, hdata]
  exact ⟨rfl, trivial⟩

theorem sfcCoreRegReadNum_spec (fuel : ℕ) (h : Host) (buf : Mem) (addr off num : ℕ)
    (hfuel : num < fuel) (haddr : addr + num ≤ 2 ^ 30) :
    (sfcCoreRegReadNum fuel h addr buf off num).1 = buf.write off (h.flash.bytes addr num) ∧
      (sfcCoreRegReadNum fuel h addr buf off num).2.flash = h.flash := by
  induction fuel generalizing h buf addr off num with
  | zero => omega
  | succ fuel ih =>
    unfold sfcCoreRegReadNum
    split
    next hfull =>
      have hsize : hisfc350RegBufSize = 128 := rfl
      obtain ⟨hbuf, hflash⟩ := sfcCoreRegReadBuf_spec h buf off regBufSize_pos le_rfl
        (show addr + hisfc350RegBufSize ≤ 2 ^ 30 by omega)
      obtain ⟨hbuf', hflash'⟩ := ih (sfcCoreRegReadBuf h addr buf off hisfc350RegBufSize).2
        (sfcCoreRegReadBuf h addr buf off hisfc350RegBufSize).1 (addr + hisfc350RegBufSize)
        (off + hisfc350RegBufSize) (num - hisfc350RegBufSize) (by omega) (by omega)
      simp only
      rw [hbuf', hflash', hbuf, hflash, Mem.write_write, Nat.add_sub_cancel' hfull]
      exact ⟨rfl, rfl⟩
    next hrest =>
      split
      next hnum =>
        exact sfcCoreRegReadBuf_spec h buf off (Nat.pos_of_ne_zero hnum) (by omega) haddr
      next hnum =>
        have hzero : num = 0 := not_not.mp hnum
        subst hzero
        refine ⟨?_, rfl⟩
        funext x
        rw [Mem.write_bytes, if_neg (by omega)]

theorem sfcCoreRegReadLoop_spec (h : Host) (buf : Mem) (off : ℕ) (hpos : 0 < len)
    (hend : addr + len ≤ chipsize) (hchip : chipsize ≤ 2 ^ 30) :
    let out := sfcCoreRegReadLoop chipsize (len + 1) h addr buf off len
    out.1 = off + len ∧ out.2.1 = buf.write off (h.flash.bytes addr len) ∧
      out.2.2.flash = h.flash := by
  have hnum : (if chipsize ≤ addr + len then chipsize - addr else len) = len := by
    split <;> omega
  obtain ⟨n, rfl⟩ : ∃ n, len = n + 1 := ⟨len - 1, by omega⟩
  obtain ⟨hbuf, hflash⟩ := sfcCoreRegReadNum_spec (n + 1 + 1) h buf addr off (n + 1) (by omega)
    (by omega)
  simp only [sfcCoreRegReadLoop, hnum, if_pos hpos, Nat.sub_self, Nat.lt_irrefl, if_false]
  exact ⟨trivial, hbuf, hflash⟩

theorem sfcCoreRegRead_of_fails {waitReady : ℤ} (hcheck : sfcCoreCheckAddrLen chipsize addr len = 0)
    (hwait : waitReady ≠ 0) :
    sfcCoreRegRead waitReady h chipsize addr buf off len = (waitReady, 0, buf, h) := by
  simp [sfcCoreRegRead, hcheck, hwait]

theorem sfcCoreRegRead_spec (h : Host) (buf : Mem) (off : ℕ)
    (hcheck : sfcCoreCheckAddrLen chipsize addr len = 0) (hchip : chipsize ≤ 2 ^ 30) :
    let out := sfcCoreRegRead 0 h chipsize addr buf off len
    out.1 = 0 ∧ out.2.1 = len ∧ out.2.2.1 = buf.write off (h.flash.bytes addr len) ∧
      out.2.2.2.flash = h.flash := by
  obtain ⟨hpos, hend⟩ := sfcCoreCheckAddrLen_accepts hcheck (hchip.trans (by norm_num))
  obtain ⟨hoff, hbuf, hflash⟩ := sfcCoreRegReadLoop_spec h buf off hpos hend hchip
  simp only [sfcCoreRegRead, hcheck]
  refine ⟨rfl, ?_, hbuf, hflash⟩
  rw [if_neg (by simp), if_neg (by simp)]
  simp only
  omega

theorem sfcCoreCheckAddrLen_of_le (hpos : 0 < len) (hend : addr + len ≤ chipsize)
    (hchip : chipsize ≤ 2 ^ 32) : sfcCoreCheckAddrLen chipsize addr len = 0 := by
  unfold sfcCoreCheckAddrLen
  rw [if_neg (by omega), if_neg (by omega)]

theorem sfcCoreRegRead_twice (h : Host) (buf : Mem) (off : ℕ) {bound : ℕ} (hlow : addr < bound)
    (hhigh : bound < addr + len) (hend : addr + len ≤ chipsize) (hchip : chipsize ≤ 2 ^ 30) :
    let first := sfcCoreRegRead 0 h chipsize addr buf off (bound - addr)
    let second := sfcCoreRegRead 0 first.2.2.2 chipsize bound first.2.2.1 (off + bound - addr)
      (addr + len - bound)
    first.1 = 0 ∧ second.1 = 0 ∧ first.2.1 + second.2.1 = len ∧
      second.2.2.1 = buf.write off (h.flash.bytes addr len) ∧
      second.2.2.2.flash = h.flash := by
  intro first second
  have hchip32 : chipsize ≤ 2 ^ 32 := hchip.trans (by norm_num)
  have hcheck₁ : sfcCoreCheckAddrLen chipsize addr (bound - addr) = 0 :=
    sfcCoreCheckAddrLen_of_le (by omega) (by omega) hchip32
  have hcheck₂ : sfcCoreCheckAddrLen chipsize bound (addr + len - bound) = 0 :=
    sfcCoreCheckAddrLen_of_le (by omega) (by omega) hchip32
  obtain ⟨hret₁, hlen₁, hbuf₁, hflash₁⟩ := sfcCoreRegRead_spec h buf off hcheck₁ hchip
  obtain ⟨hret₂, hlen₂, hbuf₂, hflash₂⟩ := sfcCoreRegRead_spec first.2.2.2 first.2.2.1
    (off + bound - addr) hcheck₂ hchip
  have hjoin := Mem.write_write buf h.flash off addr (bound - addr) (addr + len - bound)
  have hoff : off + (bound - addr) = off + bound - addr := by omega
  have haddr : addr + (bound - addr) = bound := by omega
  have hwhole : bound - addr + (addr + len - bound) = len := by omega
  rw [hoff, haddr, hwhole] at hjoin
  refine ⟨hret₁, hret₂, ?_, ?_, hflash₂.trans hflash₁⟩
  · exact (congrArg₂ (· + ·) hlen₁ hlen₂).trans hwhole
  · rw [hbuf₂, hflash₁, hbuf₁, hjoin]

theorem sfcCoreRegReadForAll_crosses {waitReady waitReadySecond : ℤ}
    (hcross : chip.Crosses addr len) :
    sfcCoreRegReadForAll waitReady waitReadySecond h chip addr buf off len =
      let first := sfcCoreRegRead waitReady h chip.chipsize addr buf off (s70fs01gsBoundAddr - addr)
      if first.1 ≠ 0 then first
      else
        let second := sfcCoreRegRead waitReadySecond first.2.2.2 chip.chipsize s70fs01gsBoundAddr
          first.2.2.1 (off + s70fs01gsBoundAddr - addr) (addr + len - s70fs01gsBoundAddr)
        (second.1, first.2.1 + second.2.1, second.2.2) := by
  obtain ⟨htwo, hbetween⟩ := hcross
  unfold sfcCoreRegReadForAll sfcCoreS70fs01gsRegRead
  rw [if_pos htwo]
  refine (if_pos hbetween).trans ?_
  generalize sfcCoreRegRead waitReady h chip.chipsize addr buf off (s70fs01gsBoundAddr - addr) =
    first
  obtain ⟨ret, retlen, buf', h'⟩ := first
  dsimp only

theorem sfcCoreRegReadForAll_whole {waitReady waitReadySecond : ℤ}
    (hcross : ¬ chip.Crosses addr len) :
    sfcCoreRegReadForAll waitReady waitReadySecond h chip addr buf off len =
      sfcCoreRegRead waitReady h chip.chipsize addr buf off len := by
  unfold sfcCoreRegReadForAll
  split
  next htwo => rw [sfcCoreS70fs01gsRegRead, if_neg (fun h => hcross ⟨htwo, h⟩)]
  next => rfl

theorem Chip.Crosses.between (hcross : chip.Crosses addr len) (hend : addr + len ≤ chip.chipsize) :
    addr < s70fs01gsBoundAddr ∧ s70fs01gsBoundAddr < addr + len := by
  obtain ⟨_, hlow, hhigh⟩ := hcross
  have hsize := chip.le_128M
  omega

theorem sfcCoreRegReadForAll_succeeds (ans : ReadAnswers) (h : Host) (chip : Chip) (buf : Mem)
    (off : ℕ) (hcheck : sfcCoreCheckAddrLen chip.chipsize addr len = 0)
    (hready : ans.Ready chip addr len) :
    let out := sfcCoreRegReadForAll ans.waitReady ans.waitReadySecond h chip addr buf off len
    out.1 = 0 ∧ out.2.1 = len ∧ out.2.2.1 = buf.write off (h.flash.bytes addr len) ∧
      out.2.2.2.flash = h.flash := by
  have hsize : chip.chipsize ≤ 2 ^ 30 := chip.le_128M.trans (by norm_num)
  obtain ⟨hpos, hend⟩ := sfcCoreCheckAddrLen_accepts hcheck (hsize.trans (by norm_num))
  obtain ⟨hfirst, hsecond⟩ := hready
  by_cases hcross : chip.Crosses addr len
  · obtain ⟨hlow, hhigh⟩ := hcross.between hend
    obtain ⟨hret₁, hrest⟩ := sfcCoreRegRead_twice h buf off hlow hhigh hend hsize
    simp only [sfcCoreRegReadForAll_crosses hcross, hfirst, hsecond hcross]
    rw [if_neg (by rw [hret₁]; simp)]
    exact hrest
  · simp only [sfcCoreRegReadForAll_whole hcross, hfirst]
    exact sfcCoreRegRead_spec h buf off hcheck hsize

theorem sfcCoreRegReadForAll_fails (ans : ReadAnswers) (h : Host) (chip : Chip) (buf : Mem)
    (off : ℕ) (hcheck : sfcCoreCheckAddrLen chip.chipsize addr len = 0)
    (hready : ¬ ans.Ready chip addr len) :
    (sfcCoreRegReadForAll ans.waitReady ans.waitReadySecond h chip addr buf off len).1 ≠ 0 := by
  have hsize : chip.chipsize ≤ 2 ^ 30 := chip.le_128M.trans (by norm_num)
  have hsize32 : chip.chipsize ≤ 2 ^ 32 := hsize.trans (by norm_num)
  obtain ⟨hpos, hend⟩ := sfcCoreCheckAddrLen_accepts hcheck hsize32
  by_cases hcross : chip.Crosses addr len
  · obtain ⟨hlow, hhigh⟩ := hcross.between hend
    rw [sfcCoreRegReadForAll_crosses hcross]
    by_cases hfirst : ans.waitReady = 0
    · obtain ⟨hret, _⟩ := sfcCoreRegRead_twice h buf off hlow hhigh hend hsize
      have hsecond : ans.waitReadySecond ≠ 0 := fun h => hready ⟨hfirst, fun _ => h⟩
      have hcheck₂ : sfcCoreCheckAddrLen chip.chipsize s70fs01gsBoundAddr
          (addr + len - s70fs01gsBoundAddr) = 0 :=
        sfcCoreCheckAddrLen_of_le (by omega) (by omega) hsize32
      simp only [hfirst]
      rw [if_neg (by rw [hret]; simp), sfcCoreRegRead_of_fails hcheck₂ hsecond]
      exact hsecond
    · have hcheck₁ : sfcCoreCheckAddrLen chip.chipsize addr (s70fs01gsBoundAddr - addr) = 0 :=
        sfcCoreCheckAddrLen_of_le (by omega) (by omega) hsize32
      simp only [sfcCoreRegRead_of_fails hcheck₁ hfirst]
      rw [if_pos hfirst]
      exact hfirst
  · have hfirst : ans.waitReady ≠ 0 := fun h => hready ⟨h, fun hc => absurd hc hcross⟩
    rw [sfcCoreRegReadForAll_whole hcross, sfcCoreRegRead_of_fails hcheck hfirst]
    exact hfirst

end Read

end HiMpu.Sfc
