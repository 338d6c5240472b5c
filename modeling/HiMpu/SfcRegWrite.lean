import HiMpu.ByteMemory
import HiMpu.IntervalTiling

/-!
# Programming the SPI flash through the command registers

`hisfc_reg_write` of `sfccom`.  A write is cut into program commands that fit into the
data buffer registers and do not run over the end of a page, where the flash would go on
at the start of the same page.
-/

namespace HiMpu.Sfc

def einval : ℤ := 22
def sfcRwLenZero : ℤ := 1000
def spiFlashPageSize : ℕ := 256
def hisfc350RegBufSize : ℕ := 0x47C - 0x400 + 0x04

/-- One program command.  What runs past the end of the page of `addr` comes back at its
start. -/
def program (flash : Mem) (addr : ℕ) (bytes : List UInt8) : Mem := fun x =>
  if x / spiFlashPageSize = addr / spiFlashPageSize then
    (bytes[(x + spiFlashPageSize - addr % spiFlashPageSize) % spiFlashPageSize]?).getD (flash x)
  else flash x

inductive Command where
  | writeEnable
  | program (addr : ℕ) (bytes : List UInt8)
deriving DecidableEq

structure Answers where
  sfcCheckPermission : ℤ
  waitReady : ℤ
  writeEnable : ℕ → ℤ
  /-- `sfc_core_wait_wip_finish`: a program command that fails has programmed nothing. -/
  waitWipFinish : ℕ → ℤ
  tmp : ℕ → Mem

structure Host where
  flash : Mem
  wel : Bool
  databuf : Mem
  cmdAddr : ℕ
  commands : List Command
  count : ℕ

/-- The controller starts a program command: the count field holds one less than the
number of bytes. -/
def Host.start (h : Host) (dataCnt : ℕ) (done : Bool) : Host :=
  let bytes := h.databuf.bytes 0 (dataCnt + 1)
  { h with
    flash := if h.wel && done then program h.flash h.cmdAddr bytes else h.flash
    wel := false
    commands := h.commands ++ [.program h.cmdAddr bytes] }

def sfcCoreCheckAddrLen (chipsize addr len : ℕ) : ℤ :=
  if chipsize < addr ∨ chipsize < len ∨ chipsize < (addr + len) % 2 ^ 64 then -einval
  else if len = 0 then sfcRwLenZero
  else 0

/-- The whole words, and the rest in one more word over what `tmp` held. -/
def sfcCoreMemcpyU8ToU32 (databuf data : Mem) (off len : ℕ) (tmp : Mem) : Mem :=
  let copied := (List.range (len / 4)).foldl
    (fun buf i => buf.store (4 * i) 4 (data.load (off + 4 * i) 4)) databuf
  if len % 4 ≠ 0 then
    copied.store (4 * (len / 4)) 4
      ((tmp.write 0 (data.bytes (off + 4 * (len / 4)) (len % 4))).load 0 4)
  else copied

def sfcCoreRegWriteBuf (ans : Answers) (h : Host) (addr : ℕ) (data : Mem) (off len : ℕ) :
    ℤ × Host :=
  if hisfc350RegBufSize < len ∨ len = 0 then (-einval, h)
  else
    let ret := ans.writeEnable h.count
    let h' := { h with
      wel := decide (ret = 0) || h.wel
      commands := h.commands ++ [.writeEnable]
      count := h.count + 1 }
    if ret ≠ 0 then (ret, h')
    else
      let loaded := { h' with
        databuf := sfcCoreMemcpyU8ToU32 h.databuf data off len (ans.tmp h.count)
        cmdAddr := addr % 2 ^ 32 }
      let ret := ans.waitWipFinish h.count
      (ret, loaded.start ((len - 1) % 0x100) (decide (ret = 0)))

def sfcCoreRegWriteFull (ans : Answers) (data : Mem) :
    ℕ → Host → ℕ → ℕ → ℕ → ℤ × Host × ℕ × ℕ × ℕ
  | 0, h, addr, off, len => (0, h, addr, off, len)
  | fuel + 1, h, addr, off, len =>
    if hisfc350RegBufSize ≤ len then
      let (ret, h) := sfcCoreRegWriteBuf ans h addr data off hisfc350RegBufSize
      if ret ≠ 0 then (ret, h, addr, off, len)
      else
        sfcCoreRegWriteFull ans data fuel h (addr + hisfc350RegBufSize)
          (off + hisfc350RegBufSize) (len - hisfc350RegBufSize)
    else (0, h, addr, off, len)

def sfcCoreRegWriteRest (ans : Answers) (h : Host) (addr : ℕ) (data : Mem) (off len : ℕ) :
    ℤ × ℕ × Host :=
  match sfcCoreRegWriteFull ans data len h addr off len with
  | (ret, h, addr, off, len) =>
    if ret ≠ 0 then (ret, 0, h)
    else if len ≠ 0 then
      let (ret, h) := sfcCoreRegWriteBuf ans h addr data off len
      if ret ≠ 0 then (ret, 0, h) else (0, off + len, h)
    else (0, off, h)

/-- The result, `*retlen` and what is left behind.  A pointer into the data is its
distance from the start. -/
def sfcCoreRegWriteData (ans : Answers) (h : Host) (addr : ℕ) (data : Mem) (len : ℕ) :
    ℤ × ℕ × Host :=
  let pageBottom := spiFlashPageSize - addr % spiFlashPageSize
  let beyondRemain := pageBottom % hisfc350RegBufSize
  if beyondRemain ≤ len ∧ beyondRemain ≠ 0 then
    let (ret, h) := sfcCoreRegWriteBuf ans h addr data 0 beyondRemain
    if ret ≠ 0 then (ret, 0, h)
    else
      sfcCoreRegWriteRest ans h (addr + beyondRemain) data beyondRemain (len - beyondRemain)
  else sfcCoreRegWriteRest ans h addr data 0 len

def sfcCoreRegWrite (ans : Answers) (h : Host) (chipsize addr : ℕ) (data : Mem) (len : ℕ) :
    ℤ × ℕ × Host :=
  let ret := sfcCoreCheckAddrLen chipsize addr len
  if ret ≠ 0 then (if ret = sfcRwLenZero then 0 else ret, 0, h)
  else if ans.waitReady ≠ 0 then (ans.waitReady, 0, h)
  else sfcCoreRegWriteData ans h addr data len

def hisfcRegWrite (ans : Answers) (h : Host) (chipsize addr : ℕ) (data : Mem) (len : ℕ) :
    ℤ × ℕ × Host :=
  if ans.sfcCheckPermission ≠ 0 then (ans.sfcCheckPermission, 0, h)
  else sfcCoreRegWrite ans h chipsize addr data len

structure Chunk where
  off : ℕ
  n : ℕ

def fullChunks (off count : ℕ) : List Chunk :=
  (List.range count).map fun i => ⟨off + hisfc350RegBufSize * i, hisfc350RegBufSize⟩

def restChunks (off len : ℕ) : List Chunk :=
  let full := len / hisfc350RegBufSize
  let last := len % hisfc350RegBufSize
  fullChunks off full ++
    if last ≠ 0 then [⟨off + hisfc350RegBufSize * full, last⟩] else []

def chunks (addr len : ℕ) : List Chunk :=
  let first := (spiFlashPageSize - addr % spiFlashPageSize) % hisfc350RegBufSize
  if first ≤ len ∧ first ≠ 0 then ⟨0, first⟩ :: restChunks first (len - first)
  else restChunks 0 len

def Chunk.commands (addr : ℕ) (data : Mem) (c : Chunk) : List Command :=
  [.writeEnable, .program (addr + c.off) (data.bytes c.off c.n)]

structure Chunk.Safe (addr : ℕ) (c : Chunk) : Prop where
  pos : 0 < c.n
  fits : c.n ≤ hisfc350RegBufSize
  page : (addr + c.off) % spiFlashPageSize + c.n ≤ spiFlashPageSize

variable {ans : Answers} {h : Host} {data : Mem} {addr off len k : ℕ} {c : Chunk}
  {plan : List Chunk}

def writeChunks (ans : Answers) (data : Mem) (addr : ℕ) : List Chunk → Host → ℤ × Host
  | [], h => (0, h)
  | c :: plan, h =>
    let (ret, h) := sfcCoreRegWriteBuf ans h (addr + c.off) data c.off c.n
    if ret ≠ 0 then (ret, h) else writeChunks ans data addr plan h

theorem fullChunks_succ (off count : ℕ) :
    fullChunks off (count + 1) =
      ⟨off, hisfc350RegBufSize⟩ :: fullChunks (off + hisfc350RegBufSize) count := by
  simp only [fullChunks, List.range_succ_eq_map, List.map_cons, List.map_map, Nat.mul_zero,
    Nat.add_zero, List.cons.injEq, true_and]
  apply List.map_congr_left
  intro i _
  simp only [Function.comp, Nat.succ_eq_add_one, Nat.mul_add, Nat.mul_one]
  congr 1
  omega

theorem writeChunks_append (plan plan' : List Chunk) (h : Host) :
    writeChunks ans data addr (plan ++ plan') h =
      if (writeChunks ans data addr plan h).1 ≠ 0 then writeChunks ans data addr plan h
      else writeChunks ans data addr plan' (writeChunks ans data addr plan h).2 := by
  induction plan generalizing h with
  | nil => simp [writeChunks]
  | cons c plan ih =>
    simp only [List.cons_append, writeChunks]
    split
    next => simp
    next => exact ih _

theorem regBufSize_eq : hisfc350RegBufSize = 128 := rfl

theorem regBufSize_pos : 0 < hisfc350RegBufSize := by decide

theorem sfcCoreRegWriteFull_eq (ans : Answers) (data : Mem) (addr fuel : ℕ) (h : Host) (off len : ℕ)
    (hfuel : len / hisfc350RegBufSize ≤ fuel) :
    let out := sfcCoreRegWriteFull ans data fuel h (addr + off) off len
    let written := writeChunks ans data addr (fullChunks off (len / hisfc350RegBufSize)) h
    out.1 = written.1 ∧ out.2.1 = written.2 ∧
      (out.1 = 0 → out.2.2 =
        (addr + (off + hisfc350RegBufSize * (len / hisfc350RegBufSize)),
          off + hisfc350RegBufSize * (len / hisfc350RegBufSize), len % hisfc350RegBufSize)) := by
  induction fuel generalizing h off len with
  | zero =>
    have hzero : len / hisfc350RegBufSize = 0 := Nat.le_zero.mp hfuel
    have hlast : len % hisfc350RegBufSize = len := by
      apply Nat.mod_eq_of_lt
      exact (Nat.div_eq_zero_iff.mp hzero).resolve_left (by decide)
    simp [sfcCoreRegWriteFull, hzero, hlast, fullChunks, writeChunks]
  | succ fuel ih =>
    by_cases hle : hisfc350RegBufSize ≤ len
    · have hdiv : len / hisfc350RegBufSize =
          (len - hisfc350RegBufSize) / hisfc350RegBufSize + 1 :=
        Nat.div_eq_sub_div (by decide) hle
      have hmod : len % hisfc350RegBufSize =
          (len - hisfc350RegBufSize) % hisfc350RegBufSize := Nat.mod_eq_sub_mod hle
      simp only [sfcCoreRegWriteFull, if_pos hle]
      rw [hdiv, fullChunks_succ]
      simp only [writeChunks]
      split
      next hfail =>
        refine ⟨rfl, rfl, ?_⟩
        exact fun hzero => absurd hzero hfail
      next hok =>
        obtain ⟨hret, hhost, hend⟩ := ih
          (sfcCoreRegWriteBuf ans h (addr + off) data off hisfc350RegBufSize).2
          (off + hisfc350RegBufSize) (len - hisfc350RegBufSize) (by omega)
        rw [← Nat.add_assoc] at hret hhost hend
        refine ⟨hret, hhost, ?_⟩
        intro hzero
        have hoff : off + hisfc350RegBufSize * ((len - hisfc350RegBufSize) /
              hisfc350RegBufSize + 1) =
            off + hisfc350RegBufSize +
              hisfc350RegBufSize * ((len - hisfc350RegBufSize) / hisfc350RegBufSize) := by
          rw [Nat.mul_add, Nat.mul_one]
          omega
        rw [hend hzero, hoff, hmod]
    · have hzero : len / hisfc350RegBufSize = 0 := Nat.div_eq_of_lt (by omega)
      have hlast : len % hisfc350RegBufSize = len := Nat.mod_eq_of_lt (by omega)
      simp [sfcCoreRegWriteFull, hle, hzero, hlast, fullChunks, writeChunks]

def outcome (len : ℕ) (written : ℤ × Host) : ℤ × ℕ × Host :=
  if written.1 ≠ 0 then (written.1, 0, written.2) else (0, len, written.2)

theorem sfcCoreRegWriteRest_eq (h : Host) (addr off len : ℕ) :
    sfcCoreRegWriteRest ans h (addr + off) data off len =
      outcome (off + len) (writeChunks ans data addr (restChunks off len) h) := by
  have hloop := sfcCoreRegWriteFull_eq ans data addr len h off len (Nat.div_le_self _ _)
  have hlen : hisfc350RegBufSize * (len / hisfc350RegBufSize) + len % hisfc350RegBufSize = len :=
    Nat.div_add_mod _ _
  simp only [sfcCoreRegWriteRest, restChunks]
  generalize sfcCoreRegWriteFull ans data len h (addr + off) off len = out at hloop
  generalize hw : writeChunks ans data addr (fullChunks off (len / hisfc350RegBufSize)) h = w
    at hloop
  obtain ⟨ret, host, addr', off', last⟩ := out
  obtain ⟨hret, hhost, hend⟩ := hloop
  simp only at hret hhost hend
  rw [writeChunks_append, hw]
  subst hret hhost
  by_cases hfail : w.1 ≠ 0
  · simp only [if_pos hfail, outcome]
  · rw [if_neg hfail, if_neg hfail]
    obtain ⟨rfl, rfl, rfl⟩ : addr' = _ ∧ off' = _ ∧ last = _ := by
      simpa using hend (not_not.mp hfail)
    by_cases hlast : len % hisfc350RegBufSize ≠ 0
    · simp only [if_pos hlast, writeChunks, outcome]
      split
      next => rfl
      next =>
        rw [if_neg (by simp)]
        congr 2
        omega
    · simp only [if_neg hlast, writeChunks, outcome]
      rw [if_neg (by simp)]
      congr 2
      omega

theorem sfcCoreRegWriteData_eq (ans : Answers) (h : Host) (addr : ℕ) (data : Mem) (len : ℕ) :
    sfcCoreRegWriteData ans h addr data len =
      outcome len (writeChunks ans data addr (chunks addr len) h) := by
  simp only [sfcCoreRegWriteData, chunks]
  generalize (spiFlashPageSize - addr % spiFlashPageSize) % hisfc350RegBufSize = first
  split
  next hfirst =>
    simp only [writeChunks, Nat.add_zero]
    split
    next hfail => simp only [outcome, if_pos hfail]
    next =>
      rw [sfcCoreRegWriteRest_eq]
      congr 1
      omega
  next =>
    have hrest : sfcCoreRegWriteRest ans h (addr + 0) data 0 len =
        outcome (0 + len) (writeChunks ans data addr (restChunks 0 len) h) :=
      sfcCoreRegWriteRest_eq h addr 0 len
    rw [Nat.add_zero, Nat.zero_add] at hrest
    exact hrest

theorem tiles_fullChunks (off count : ℕ) :
    Tiles Chunk.off Chunk.n off (fullChunks off count) (off + hisfc350RegBufSize * count) := by
  induction count generalizing off with
  | zero => rfl
  | succ count ih =>
    rw [fullChunks_succ]
    refine ⟨rfl, regBufSize_pos, ?_⟩
    have hrest := ih (off + hisfc350RegBufSize)
    rw [Nat.mul_succ, Nat.add_comm (hisfc350RegBufSize * count), ← Nat.add_assoc]
    exact hrest

theorem tiles_restChunks (off len : ℕ) :
    Tiles Chunk.off Chunk.n off (restChunks off len) (off + len) := by
  have hlen : hisfc350RegBufSize * (len / hisfc350RegBufSize) + len % hisfc350RegBufSize = len :=
    Nat.div_add_mod _ _
  rw [restChunks, Tiles.append_iff]
  refine ⟨_, tiles_fullChunks off _, ?_⟩
  split
  next hlast =>
    refine ⟨rfl, Nat.pos_of_ne_zero hlast, ?_⟩
    rw [Tiles.nil_iff]
    change off + hisfc350RegBufSize * (len / hisfc350RegBufSize) + len % hisfc350RegBufSize = _
    omega
  next hlast =>
    rw [Tiles.nil_iff]
    omega

theorem tiles_chunks (addr len : ℕ) : Tiles Chunk.off Chunk.n 0 (chunks addr len) len := by
  simp only [chunks]
  split
  next hfirst =>
    refine ⟨rfl, Nat.pos_of_ne_zero hfirst.2, ?_⟩
    have hrest := tiles_restChunks ((spiFlashPageSize - addr % spiFlashPageSize) %
      hisfc350RegBufSize) (len - (spiFlashPageSize - addr % spiFlashPageSize) % hisfc350RegBufSize)
    rw [Nat.add_sub_cancel' hfirst.1] at hrest
    rw [Nat.zero_add]
    exact hrest
  next =>
    have hrest := tiles_restChunks 0 len
    rw [Nat.zero_add] at hrest
    exact hrest

theorem safe_restChunks
    (halign : (addr + off) % hisfc350RegBufSize = 0 ∨
      (addr + off) % spiFlashPageSize + len ≤ spiFlashPageSize ∧ len < hisfc350RegBufSize)
    (hmem : c ∈ restChunks off len) : c.Safe addr := by
  simp only [restChunks, List.mem_append] at hmem
  rcases hmem with hmem | hmem
  · obtain ⟨i, hi, rfl⟩ := List.mem_map.mp hmem
    have hfull : i < len / hisfc350RegBufSize := List.mem_range.mp hi
    refine ⟨regBufSize_pos, le_rfl, ?_⟩
    simp only [regBufSize_eq, spiFlashPageSize] at halign hfull ⊢
    omega
  · split at hmem
    next hlast =>
      obtain rfl := List.mem_singleton.mp hmem
      refine ⟨Nat.pos_of_ne_zero hlast, ?_, ?_⟩
      · exact (Nat.mod_lt _ (by decide)).le
      · simp only [regBufSize_eq, spiFlashPageSize] at halign ⊢
        omega
    next => cases hmem

theorem safe_chunks (hmem : c ∈ chunks addr len) : c.Safe addr := by
  simp only [chunks] at hmem
  split at hmem
  next hfirst =>
    rcases List.mem_cons.mp hmem with rfl | hmem
    · refine ⟨Nat.pos_of_ne_zero hfirst.2, ?_, ?_⟩
      · exact (Nat.mod_lt _ (by decide)).le
      · simp only [regBufSize_eq, spiFlashPageSize]
        omega
    · apply safe_restChunks _ hmem
      left
      simp only [regBufSize_eq, spiFlashPageSize]
      omega
  next hfirst =>
    apply safe_restChunks _ hmem
    simp only [regBufSize_eq, spiFlashPageSize] at hfirst ⊢
    omega

theorem ofNat_load_div (m : Mem) (p n i : ℕ) (hi : i < n) :
    UInt8.ofNat (m.load p n / 256 ^ i) = m (p + i) := by
  induction n generalizing p i with
  | zero => omega
  | succ n ih =>
    have hbyte : (m p).toNat < 256 := UInt8.toNat_lt _
    cases i with
    | zero =>
      apply UInt8.toNat_inj.mp
      simp only [Mem.load, pow_zero, Nat.div_one, UInt8.toNat_ofNat', Nat.add_zero]
      omega
    | succ i =>
      have hrest := ih (p + 1) i (by omega)
      have hdiv : m.load p (n + 1) / 256 ^ (i + 1) = m.load (p + 1) n / 256 ^ i := by
        rw [pow_succ', ← Nat.div_div_eq_div_mul]
        congr 1
        simp only [Mem.load]
        omega
      rw [hdiv, hrest]
      congr 1
      omega

theorem store_load (m m' : Mem) (a p n x : ℕ) :
    m.store a n (m'.load p n) x = if a ≤ x ∧ x < a + n then m' (p + (x - a)) else m x := by
  simp only [Mem.store]
  split
  next hin => exact ofNat_load_div m' p n (x - a) (by omega)
  next => rfl

theorem foldl_store_words (databuf data : Mem) (off count x : ℕ) :
    (List.range count).foldl
        (fun buf i => buf.store (4 * i) 4 (data.load (off + 4 * i) 4)) databuf x =
      if x < 4 * count then data (off + x) else databuf x := by
  induction count with
  | zero => rfl
  | succ count ih =>
    rw [List.range_succ, List.foldl_append, List.foldl_cons, List.foldl_nil, store_load, ih]
    by_cases hlast : 4 * count ≤ x ∧ x < 4 * count + 4
    · rw [if_pos hlast, if_pos (by omega)]
      congr 1
      omega
    · rw [if_neg hlast]
      by_cases hlow : x < 4 * count
      · rw [if_pos hlow, if_pos (by omega)]
      · rw [if_neg hlow, if_neg (by omega)]

/-- The first `len` bytes of the registers are the data, whatever `tmp` has held. -/
theorem bytes_sfcCoreMemcpyU8ToU32 (databuf data : Mem) (off len : ℕ) (tmp : Mem) :
    (sfcCoreMemcpyU8ToU32 databuf data off len tmp).bytes 0 len = data.bytes off len := by
  unfold Mem.bytes
  apply List.map_congr_left
  intro i hi
  have hlt : i < len := List.mem_range.mp hi
  rw [Nat.zero_add]
  simp only [sfcCoreMemcpyU8ToU32]
  split
  next hrest =>
    rw [store_load, foldl_store_words]
    by_cases hlast : 4 * (len / 4) ≤ i
    · have hinside : tmp.write 0 (data.bytes (off + 4 * (len / 4)) (len % 4))
          (0 + (i - 4 * (len / 4))) = data (off + i) := by
        rw [Mem.write_inside (by simp only [Mem.bytes, List.length_map, List.length_range]; omega)]
        simp only [Mem.bytes, List.getElem_map, List.getElem_range]
        congr 1
        omega
      rw [if_pos (by omega), hinside]
    · rw [if_neg (by omega), if_pos (by omega)]
  next hrest => rw [foldl_store_words, if_pos (by omega)]

def Succeeds (ans : Answers) (k : ℕ) : Prop :=
  ans.writeEnable k = 0 ∧ ans.waitWipFinish k = 0

def errorOf (ans : Answers) (k : ℕ) : ℤ :=
  if ans.writeEnable k ≠ 0 then ans.writeEnable k else ans.waitWipFinish k

def Chunk.attempted (ans : Answers) (k addr : ℕ) (data : Mem) (c : Chunk) : List Command :=
  if ans.writeEnable k ≠ 0 then [.writeEnable] else c.commands addr data

theorem program_page (flash : Mem) {addr : ℕ} {bytes : List UInt8}
    (hpage : addr % spiFlashPageSize + bytes.length ≤ spiFlashPageSize) :
    program flash addr bytes = flash.write addr bytes := by
  have hsize : spiFlashPageSize = 256 := rfl
  funext x
  simp only [program, hsize] at hpage ⊢
  split
  next hsame =>
    by_cases hle : addr ≤ x
    · have hindex : (x + 256 - addr % 256) % 256 = x - addr := by omega
      rw [hindex, Mem.write, if_pos hle]
    · -- the rest of the page is out of the reach of the bytes
      rw [List.getElem?_eq_none (by omega), Mem.write_outside (Or.inl (by omega))]
      rfl
  next hother => rw [Mem.write_outside (by omega)]

theorem sfcCoreRegWriteBuf_succeeds (ans : Answers) (h : Host) (data : Mem)
    (hsafe : c.Safe addr) (hrange : addr + c.off < 2 ^ 32) (hok : Succeeds ans h.count) :
    let out := sfcCoreRegWriteBuf ans h (addr + c.off) data c.off c.n
    out.1 = 0 ∧ out.2.flash = h.flash.write (addr + c.off) (data.bytes c.off c.n) ∧
      out.2.commands = h.commands ++ c.commands addr data ∧ out.2.count = h.count + 1 := by
  obtain ⟨hpos, hfits, hpage⟩ := hsafe
  have haccept : ¬ (hisfc350RegBufSize < c.n ∨ c.n = 0) := by omega
  have hcount : (c.n - 1) % 0x100 + 1 = c.n := by
    rw [regBufSize_eq] at hfits
    omega
  have hlen : (data.bytes c.off c.n).length = c.n := by simp [Mem.bytes]
  simp only [sfcCoreRegWriteBuf, if_neg haccept, hok.1, hok.2, Host.start, hcount,
    bytes_sfcCoreMemcpyU8ToU32, Nat.mod_eq_of_lt hrange]
  rw [program_page h.flash (by rw [hlen]; exact hpage)]
  simp [Chunk.commands]

theorem sfcCoreRegWriteBuf_fails (ans : Answers) (h : Host) (data : Mem)
    (hsafe : c.Safe addr) (hrange : addr + c.off < 2 ^ 32) (hfail : ¬ Succeeds ans h.count) :
    let out := sfcCoreRegWriteBuf ans h (addr + c.off) data c.off c.n
    out.1 = errorOf ans h.count ∧ out.1 ≠ 0 ∧ out.2.flash = h.flash ∧
      out.2.commands = h.commands ++ c.attempted ans h.count addr data := by
  obtain ⟨hpos, hfits, hpage⟩ := hsafe
  have haccept : ¬ (hisfc350RegBufSize < c.n ∨ c.n = 0) := by omega
  have hcount : (c.n - 1) % 0x100 + 1 = c.n := by
    rw [regBufSize_eq] at hfits
    omega
  by_cases henable : ans.writeEnable h.count ≠ 0
  · simp only [sfcCoreRegWriteBuf, if_neg haccept, if_pos henable, errorOf, Chunk.attempted]
    exact ⟨trivial, henable, trivial, trivial⟩
  · have hwait : ans.waitWipFinish h.count ≠ 0 := fun hzero => hfail ⟨not_not.mp henable, hzero⟩
    simp only [sfcCoreRegWriteBuf, if_neg haccept, if_neg henable, errorOf, Chunk.attempted,
      Host.start, hcount, bytes_sfcCoreMemcpyU8ToU32, Nat.mod_eq_of_lt hrange]
    refine ⟨trivial, hwait, ?_, ?_⟩
    · simp [hwait]
    · simp [Chunk.commands]

theorem writeChunks_succeeds (ans : Answers) (h : Host) (data : Mem) {stop : ℕ}
    (htiles : Tiles Chunk.off Chunk.n off plan stop)
    (hsafe : ∀ c ∈ plan, c.Safe addr) (hrange : addr + stop ≤ 2 ^ 32) (flash : Mem)
    (hflash : h.flash = flash.write addr (data.bytes 0 off))
    (hok : ∀ i < plan.length, Succeeds ans (h.count + i)) :
    let out := writeChunks ans data addr plan h
    out.1 = 0 ∧ out.2.flash = flash.write addr (data.bytes 0 stop) ∧
      out.2.commands = h.commands ++ plan.flatMap (Chunk.commands addr data) ∧
      out.2.count = h.count + plan.length := by
  induction plan generalizing h off with
  | nil =>
    rw [Tiles.nil_iff] at htiles
    subst htiles
    simp [writeChunks, hflash]
  | cons c plan ih =>
    have hbounds := htiles.bounds List.mem_cons_self
    obtain ⟨rfl, hpos, hrest⟩ := htiles
    obtain ⟨hret, hprog, hcmds, hcount⟩ := sfcCoreRegWriteBuf_succeeds ans h data
      (hsafe c List.mem_cons_self) (by omega) (hok 0 (by simp))
    have hflash' : (sfcCoreRegWriteBuf ans h (addr + c.off) data c.off c.n).2.flash =
        flash.write addr (data.bytes 0 (c.off + c.n)) := by
      have hjoin := Mem.write_write flash data addr 0 c.off c.n
      rw [Nat.zero_add] at hjoin
      rw [hprog, hflash, hjoin]
    simp only [writeChunks, hret]
    obtain ⟨hret', hprog', hcmds', hcount'⟩ := ih _ hrest
      (fun d hd => hsafe d (List.mem_cons_of_mem _ hd)) hflash' (by
        intro i hi
        rw [hcount, Nat.add_assoc, Nat.add_comm 1 i]
        exact hok (i + 1) (by rw [List.length_cons]; omega))
    refine ⟨hret', hprog', ?_, ?_⟩
    · rw [if_neg (by simp), hcmds', hcmds, List.flatMap_cons, List.append_assoc]
    · rw [if_neg (by simp), hcount', hcount, List.length_cons]
      omega

theorem writeChunks_fails (ans : Answers) (h : Host) (data : Mem) {stop : ℕ}
    (htiles : Tiles Chunk.off Chunk.n 0 plan stop)
    (hsafe : ∀ c ∈ plan, c.Safe addr) (hrange : addr + stop ≤ 2 ^ 32) (hk : k < plan.length)
    (hok : ∀ i < k, Succeeds ans (h.count + i)) (hfail : ¬ Succeeds ans (h.count + k)) :
    let out := writeChunks ans data addr plan h
    out.1 = errorOf ans (h.count + k) ∧ out.1 ≠ 0 ∧
      out.2.flash = h.flash.write addr (data.bytes 0 plan[k].off) ∧
      out.2.commands = h.commands ++ (plan.take k).flatMap (Chunk.commands addr data) ++
        plan[k].attempted ans (h.count + k) addr data := by
  have hsplit : plan = plan.take k ++ plan[k] :: plan.drop (k + 1) := by
    rw [List.getElem_cons_drop, List.take_append_drop]
  have hbounds := htiles.bounds (List.getElem_mem hk)
  have hlen : (plan.take k).length = k := List.length_take_of_le hk.le
  have htiles' := htiles
  rw [hsplit, Tiles.append_iff] at htiles'
  obtain ⟨middle, hbefore, hmiddle, _⟩ := htiles'
  subst hmiddle
  have hempty : h.flash = h.flash.write addr (data.bytes 0 0) := by
    funext x
    rw [Mem.write_bytes, if_neg (by omega)]
  obtain ⟨hret, hprog, hcmds, hcount⟩ := writeChunks_succeeds ans h data
    hbefore (fun d hd => hsafe d (List.mem_of_mem_take hd)) (by omega) h.flash hempty
    (fun i hi => hok i (by omega))
  rw [hlen] at hcount
  rw [← hcount] at hfail
  obtain ⟨hret', hnonzero, hprog', hcmds'⟩ := sfcCoreRegWriteBuf_fails ans _ data
    (hsafe plan[k] (List.getElem_mem hk)) (by omega) hfail
  have hwhole : writeChunks ans data addr plan h = sfcCoreRegWriteBuf ans
      (writeChunks ans data addr (plan.take k) h).2 (addr + plan[k].off) data plan[k].off
      plan[k].n := by
    conv_lhs => rw [hsplit]
    rw [writeChunks_append, if_neg (by rw [hret]; simp)]
    simp only [writeChunks, if_pos hnonzero]
  rw [hcount] at hret' hcmds'
  simp only [hwhole]
  exact ⟨hret', hnonzero, hprog'.trans hprog, by rw [hcmds', hcmds]⟩

theorem sfcCoreCheckAddrLen_accepts {chipsize : ℕ}
    (haccept : sfcCoreCheckAddrLen chipsize addr len = 0) (hchip : chipsize ≤ 2 ^ 32) :
    0 < len ∧ addr + len ≤ chipsize := by
  unfold sfcCoreCheckAddrLen at haccept
  split at haccept
  next => exact absurd haccept (by decide)
  next hin =>
    split at haccept
    next => exact absurd haccept (by decide)
    next hlen =>
      simp only [not_or, not_lt] at hin
      omega

/-- A write that is accepted, on a chip that 32 address bits reach, is cut into chunks
that are safe and carry every byte once; each comes after a write-enable of its own, and
the first one that fails ends the write with its error. -/
theorem hisfcRegWrite_exact (ans : Answers) (h : Host) (chipsize addr : ℕ) (data : Mem) (len : ℕ)
    (hchip : chipsize ≤ 2 ^ 32) (haccept : sfcCoreCheckAddrLen chipsize addr len = 0)
    (hpermission : ans.sfcCheckPermission = 0) (hready : ans.waitReady = 0) :
    let plan := chunks addr len
    let out := hisfcRegWrite ans h chipsize addr data len
    Tiles Chunk.off Chunk.n 0 plan len ∧ (∀ c ∈ plan, c.Safe addr) ∧
      ((∀ i < plan.length, Succeeds ans (h.count + i)) →
        out.1 = 0 ∧ out.2.1 = len ∧ out.2.2.flash = h.flash.write addr (data.bytes 0 len) ∧
          out.2.2.commands = h.commands ++ plan.flatMap (Chunk.commands addr data)) ∧
      ∀ k (hk : k < plan.length), (∀ i < k, Succeeds ans (h.count + i)) →
        ¬ Succeeds ans (h.count + k) →
        out.1 = errorOf ans (h.count + k) ∧ out.1 ≠ 0 ∧
          out.2.2.flash = h.flash.write addr (data.bytes 0 (plan.get ⟨k, hk⟩).off) ∧
          out.2.2.commands = h.commands ++ (plan.take k).flatMap (Chunk.commands addr data) ++
            (plan.get ⟨k, hk⟩).attempted ans (h.count + k) addr data := by
  intro plan out
  obtain ⟨hpos, hend⟩ := sfcCoreCheckAddrLen_accepts haccept hchip
  have hrange : addr + len ≤ 2 ^ 32 := hend.trans hchip
  have htiles : Tiles Chunk.off Chunk.n 0 plan len := tiles_chunks addr len
  have hsafe : ∀ c ∈ plan, c.Safe addr := fun c => safe_chunks
  have hout : out = outcome len (writeChunks ans data addr plan h) := by
    change hisfcRegWrite ans h chipsize addr data len = _
    rw [hisfcRegWrite, if_neg (by simp [hpermission]), sfcCoreRegWrite]
    simp only [haccept, hready, sfcCoreRegWriteData_eq]
    rfl
  refine ⟨htiles, hsafe, ?_, ?_⟩
  · intro hok
    have hempty : h.flash = h.flash.write addr (data.bytes 0 0) := by
      funext x
      rw [Mem.write_bytes, if_neg (by omega)]
    obtain ⟨hret, hflash, hcommands, _⟩ :=
      writeChunks_succeeds ans h data htiles hsafe hrange h.flash hempty hok
    rw [hout, outcome, if_neg (by rw [hret]; simp)]
    exact ⟨rfl, rfl, hflash, hcommands⟩
  · intro k hk hok hfail
    obtain ⟨hret, hnonzero, hflash, hcommands⟩ :=
      writeChunks_fails ans h data htiles hsafe hrange hk hok hfail
    rw [hout, outcome, if_pos hnonzero]
    exact ⟨hret, hnonzero, hflash, hcommands⟩

def answers0 : Answers where
  sfcCheckPermission := 0
  waitReady := 0
  writeEnable := fun _ => 0
  waitWipFinish := fun k => if k = 1 then -1 else 0
  tmp := fun _ _ => 0xEE

def host0 : Host where
  flash := fun _ => 0xFF
  wel := false
  databuf := fun _ => 0
  cmdAddr := 0
  commands := []
  count := 0

/-- Two bytes at the end of a page; and nine bytes across a data buffer boundary, where
the second command fails. -/
theorem hisfcRegWrite_exact_runs :
    ((hisfcRegWrite answers0 host0 0x1000000 0x1FE (fun i => UInt8.ofNat i) 2).1 = 0 ∧
      (hisfcRegWrite answers0 host0 0x1000000 0x1FE (fun i => UInt8.ofNat i) 2).2.2.flash =
        host0.flash.write 0x1FE (Mem.bytes (fun i => UInt8.ofNat i) 0 2)) ∧
    (hisfcRegWrite answers0 host0 0x1000000 0x17D (fun i => UInt8.ofNat i) 9).1 = -1 ∧
      (hisfcRegWrite answers0 host0 0x1000000 0x17D (fun i => UInt8.ofNat i) 9).2.2.flash =
        host0.flash.write 0x17D (Mem.bytes (fun i => UInt8.ofNat i) 0 3) := by
  have hshort := hisfcRegWrite_exact answers0 host0 0x1000000 0x1FE (fun i => UInt8.ofNat i) 2
    (by decide) (by decide) rfl rfl
  have hcut := hisfcRegWrite_exact answers0 host0 0x1000000 0x17D (fun i => UInt8.ofNat i) 9
    (by decide) (by decide) rfl rfl
  have hone : ∀ i < (chunks 0x1FE 2).length, Succeeds answers0 (host0.count + i) := by
    intro i hi
    have hzero : i = 0 := Nat.lt_one_iff.mp hi
    subst hzero
    exact ⟨rfl, rfl⟩
  obtain ⟨hret, _, hflash, _⟩ := hshort.2.2.1 hone
  have hfirst : ∀ i < 1, Succeeds answers0 (host0.count + i) := by
    intro i hi
    have hzero : i = 0 := Nat.lt_one_iff.mp hi
    subst hzero
    exact ⟨rfl, rfl⟩
  have hsecond : ¬ Succeeds answers0 (host0.count + 1) := fun h => absurd h.2 (by decide)
  obtain ⟨hret', _, hflash', _⟩ := hcut.2.2.2 1 (by decide) hfirst hsecond
  exact ⟨⟨hret, hflash⟩, hret', hflash'⟩

/-- On a chip of 8 GiB the check accepts an address that the address register cuts off:
the byte goes to address 0. -/
theorem hisfcRegWrite_cuts_address :
    sfcCoreCheckAddrLen (2 ^ 33) (2 ^ 32) 1 = 0 ∧
      (hisfcRegWrite answers0 host0 (2 ^ 33) (2 ^ 32) (fun _ => 0xAB) 1).1 = 0 ∧
      (hisfcRegWrite answers0 host0 (2 ^ 33) (2 ^ 32) (fun _ => 0xAB) 1).2.2.commands =
        [.writeEnable, .program 0 [0xAB]] ∧
      (hisfcRegWrite answers0 host0 (2 ^ 33) (2 ^ 32) (fun _ => 0xAB) 1).2.2.flash 0 = 0xAB := by
  decide +kernel

end HiMpu.Sfc
