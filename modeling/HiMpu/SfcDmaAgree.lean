import HiMpu.SfcDma

/-!
# DMA against the command registers

When nothing fails, a DMA transfer inside the flash does what the same transfer through
the command registers does.  What fails on the way is not always reported: the driver
drops the answer of the first wait for the flash, and the way a burst ends.
-/

namespace HiMpu.Sfc

def ReadAnswers.Clean (ans : ReadAnswers) : Prop := ans.waitReady = 0 ∧ ans.waitReadySecond = 0

def Answers.Clean (ans : Answers) : Prop := ans.waitReady = 0 ∧ ∀ k, Succeeds ans k

def RegAnswers.Clean (ans : RegAnswers) (isRead : Bool) : Prop :=
  if isRead then ans.read.Clean else ans.write.Clean

structure DmaAnswers.Clean (ans : DmaAnswers) (isRead : Bool) : Prop where
  permission : ans.sfcCheckPermission = 0
  ready : ans.waitReady = 0
  head : ans.head.Clean isRead
  tail : ans.tail.Clean isRead
  done : ∀ k, ans.burst k = .done

/-- A DMA read and the register read agree when nothing fails; and the result is 0 only
when every byte has been transferred. -/
def ReadMeets (ans : DmaAnswers) (h : Host) (chip : Chip) (bounce : Mem) (addr : ℕ) (buf : Mem)
    (len retlen : ℕ) : Prop :=
  let out := hisfcDmaRead ans h chip bounce addr buf len retlen
  (ans.Clean true → ∀ reg : ReadAnswers, reg.sfcCheckPermission = 0 → reg.Clean →
    let out' := hisfcRegRead reg h chip addr buf len
    out.1 = out'.1 ∧ out.2.1 = out'.2.1 ∧ out.2.2.buf = out'.2.2.1) ∧
  (out.1 = 0 → out.2.1 = len ∧ (∀ i < len, out.2.2.Transferred i) ∧
    out.2.2.buf = buf.write 0 (h.flash.bytes addr len))

def WriteMeets (ans : DmaAnswers) (h : Host) (chip : Chip) (bounce : Mem) (addr : ℕ) (buf : Mem)
    (len retlen : ℕ) : Prop :=
  let out := hisfcDmaWrite ans h chip bounce addr buf len retlen
  (ans.Clean false → ∀ reg : Answers, reg.sfcCheckPermission = 0 → reg.Clean →
    let out' := hisfcRegWrite reg h chip.chipsize addr buf len
    out.1 = out'.1 ∧ out.2.1 = out'.2.1 ∧ out.2.2.host.flash = out'.2.2.flash) ∧
  (out.1 = 0 → out.2.1 = len ∧ (∀ i < len, out.2.2.Transferred i) ∧
    out.2.2.host.flash = h.flash.write addr (buf.bytes 0 len))

def firstCount (isRead : Bool) (h : Host) : ℕ := if isRead then h.count else h.count + 1

/-- Of a read that runs over the end of the flash with two dies the register path still
reads what lies in the first die. -/
def readAnyway (isRead : Bool) (chip : Chip) (addr len : ℕ) : ℕ :=
  if isRead = true ∧ chip.twoDies = true ∧ addr < s70fs01gsBoundAddr ∧
      s70fs01gsBoundAddr < (addr + len) % 2 ^ 32 then s70fs01gsBoundAddr - addr
  else 0

/-- A transfer that is refused is not an empty one, and leaves what the register path would
have left; the flash is ready for one that is not refused; and every burst succeeds unless
something else fails. -/
structure Covered (isRead : Bool) (ans : DmaAnswers) (h : Host) (chip : Chip) (addr : ℕ)
    (buf : Mem) (len retlen : ℕ) : Prop where
  check : ans.Clean isRead → sfcCoreCheckAddrLen chip.chipsize addr len = 0 ∨
    sfcCoreCheckAddrLen chip.chipsize addr len ≠ sfcRwLenZero ∧
      retlen = readAnyway isRead chip addr len ∧
      ∀ i < readAnyway isRead chip addr len, buf i = h.flash (addr + i)
  ready : ans.sfcCheckPermission = 0 → sfcCoreCheckAddrLen chip.chipsize addr len = 0 →
    ans.waitReady = 0
  bursts : ans.sfcCheckPermission = 0 → sfcCoreCheckAddrLen chip.chipsize addr len = 0 →
    ans.waitReady = 0 → ans.PartsReady isRead chip (firstCount isRead h) addr len →
    ∀ i < dmaBurstCount (len - dmaHead addr len), ans.burst i = .done

section Data

variable {isRead : Bool} {ans : DmaAnswers} {x : Xfer} {chip : Chip} {addr len : ℕ}

theorem dmaHead_eq_zero (halign : ¬ addr % hisfc350DmaAlignSize ≠ 0) (len : ℕ) :
    dmaHead addr len = 0 := by
  rw [dmaHead, if_neg halign]

theorem dmaHead_pos (halign : addr % hisfc350DmaAlignSize ≠ 0) (hlen : 0 < len) :
    0 < dmaHead addr len := by
  have hlt : addr % hisfc350DmaAlignSize < hisfc350DmaAlignSize := Nat.mod_lt _ (by decide)
  simp only [dmaHead, if_pos halign]
  split <;> omega

theorem data_eq (halign : addr % hisfc350DmaAlignSize ≠ 0) :
    hisfcBaseDmaRwXferData ans isRead chip x addr len =
      let head := dmaHead addr len
      let out := hisfcRegRwForDma ans.head isRead chip x addr 0 head
      if out.1 ≠ 0 then out
      else hisfcBaseDmaRwXferRest ans isRead chip out.2.2 (addr + head) head (len - head) := by
  rw [hisfcBaseDmaRwXferData, if_pos halign, dmaHead, if_pos halign]

theorem data_aligned (halign : ¬ addr % hisfc350DmaAlignSize ≠ 0) :
    hisfcBaseDmaRwXferData ans isRead chip x addr len =
      hisfcBaseDmaRwXferRest ans isRead chip x addr 0 len := by
  rw [hisfcBaseDmaRwXferData, if_neg halign]

theorem chunks_nothing (addr : ℕ) : chunks addr 0 = [] := by
  simp only [chunks]
  rw [if_neg (by omega)]
  rfl

theorem head_check (hlen : 0 < len) (hrange : addr + len ≤ chip.chipsize)
    (halign : addr % hisfc350DmaAlignSize ≠ 0) :
    sfcCoreCheckAddrLen chip.chipsize addr (dmaHead addr len) = 0 := by
  have hle := dmaHead_le addr len
  exact sfcCoreCheckAddrLen_of_le (dmaHead_pos halign hlen) (by omega)
    (chip.le_128M.trans (by norm_num))

theorem tail_ready (off : ℕ)
    (hcheck : sfcCoreCheckAddrLen chip.chipsize addr (dmaHead addr len) = 0)
    (hhead : ans.head.Ready isRead chip x.host.count addr (dmaHead addr len)) :
    ans.TailReady isRead chip (x.host.count + (chunks addr (dmaHead addr len)).length)
        (addr + dmaHead addr len) (len - dmaHead addr len) ↔
      ans.TailReady isRead chip
        (hisfcRegRwForDma ans.head isRead chip x addr off (dmaHead addr len)).2.2.host.count
        (addr + dmaHead addr len) (len - dmaHead addr len) := by
  obtain ⟨_, _, _, _, hcount⟩ := hisfcRegRwForDma_succeeds ans.head x off hcheck hhead
  apply imp_congr_right
  intro _
  exact Ready.iff_count ans.tail fun h => (hcount h).symm

theorem data_succeeds (hlen : 0 < len) (hrange : addr + len ≤ chip.chipsize)
    (hmoved : x.moved = []) (hready : ans.PartsReady isRead chip x.host.count addr len)
    (hdone : ∀ i < dmaBurstCount (len - dmaHead addr len), ans.burst i = .done) :
    let out := hisfcBaseDmaRwXferData ans isRead chip x addr len
    out.1 = 0 ∧ out.2.1 = len ∧ Copied isRead x out.2.2 addr 0 len ∧
      ∀ i < len, out.2.2.Transferred i := by
  have hle := dmaHead_le addr len
  obtain ⟨hhead, htail⟩ := hready
  by_cases halign : addr % hisfc350DmaAlignSize ≠ 0
  · have hcheck := head_check hlen hrange halign
    have hhead := hhead (dmaHead_pos halign hlen).ne'
    rw [tail_ready 0 hcheck hhead] at htail
    obtain ⟨hret, _, hcopied, hfirst, _⟩ := hisfcRegRwForDma_succeeds ans.head x 0 hcheck hhead
    obtain ⟨hret', hlen', hrest, new, hnew, htiles⟩ := rest_succeeds
      (hisfcRegRwForDma ans.head isRead chip x addr 0 (dmaHead addr len)).2.2 (dmaHead addr len)
      (by omega) htail hdone
    have hjoined := hcopied.append (by rw [Nat.zero_add]; exact hrest)
    rw [Nat.add_sub_cancel' hle] at hjoined hlen' htiles
    simp only [data_eq halign]
    rw [if_neg (by rw [hret]; simp)]
    refine ⟨hret', hlen', hjoined, ?_⟩
    intro i hi
    have hall : Tiles Chunk.off Chunk.n 0 (⟨0, dmaHead addr len⟩ :: new) len :=
      ⟨rfl, dmaHead_pos halign hlen, by rw [Nat.zero_add]; exact htiles⟩
    obtain ⟨c, hmem, hin⟩ := hall.exists_mem (Nat.zero_le i) hi
    refine ⟨c, ?_, hin⟩
    rw [hnew, hfirst, hmoved]
    exact hmem
  · have hzero := dmaHead_eq_zero halign len
    rw [hzero, chunks_nothing] at htail
    rw [hzero] at hdone
    obtain ⟨hret, hlen', hrest, new, hnew, htiles⟩ := rest_succeeds x 0 hrange htail hdone
    rw [Nat.zero_add] at hlen' htiles
    simp only [data_aligned halign]
    refine ⟨hret, hlen', hrest, ?_⟩
    intro i hi
    obtain ⟨c, hmem, hin⟩ := htiles.exists_mem (Nat.zero_le i) hi
    refine ⟨c, ?_, hin⟩
    rw [hnew, hmoved]
    exact hmem

theorem data_fails (hlen : 0 < len) (hrange : addr + len ≤ chip.chipsize)
    (hready : ¬ ans.PartsReady isRead chip x.host.count addr len) :
    (hisfcBaseDmaRwXferData ans isRead chip x addr len).1 ≠ 0 := by
  have hle := dmaHead_le addr len
  by_cases halign : addr % hisfc350DmaAlignSize ≠ 0
  · have hcheck := head_check hlen hrange halign
    rw [data_eq halign]
    by_cases hhead : ans.head.Ready isRead chip x.host.count addr (dmaHead addr len)
    · obtain ⟨hret, _⟩ := hisfcRegRwForDma_succeeds ans.head x 0 hcheck hhead
      have htail : ¬ ans.TailReady isRead chip
          (hisfcRegRwForDma ans.head isRead chip x addr 0 (dmaHead addr len)).2.2.host.count
          (addr + dmaHead addr len) (len - dmaHead addr len) := by
        rw [← tail_ready 0 hcheck hhead]
        exact fun h => hready ⟨fun _ => hhead, h⟩
      simp only
      rw [if_neg (by rw [hret]; simp)]
      exact rest_fails _ _ (by omega) htail
    · have hnonzero := hisfcRegRwForDma_fails ans.head x 0 hcheck hhead
      simp only [if_pos hnonzero]
      exact hnonzero
  · have hzero := dmaHead_eq_zero halign len
    rw [data_aligned halign]
    apply rest_fails x 0 hrange
    intro htail
    apply hready
    rw [DmaAnswers.PartsReady, hzero, chunks_nothing]
    exact ⟨fun h => absurd rfl h, htail⟩

theorem data_misses (hlen : 0 < len) (hrange : addr + len ≤ chip.chipsize)
    (hmoved : x.moved = []) (hready : ans.PartsReady isRead chip x.host.count addr len)
    (hfail : ¬ ∀ i < dmaBurstCount (len - dmaHead addr len), ans.burst i = .done) :
    let out := hisfcBaseDmaRwXferData ans isRead chip x addr len
    out.1 = 0 ∧ ∃ p < len, ¬ out.2.2.Transferred p := by
  have hle := dmaHead_le addr len
  obtain ⟨hhead, htail⟩ := hready
  by_cases halign : addr % hisfc350DmaAlignSize ≠ 0
  · have hcheck := head_check hlen hrange halign
    have hhead := hhead (dmaHead_pos halign hlen).ne'
    rw [tail_ready 0 hcheck hhead] at htail
    obtain ⟨hret, _, _, hfirst, _⟩ := hisfcRegRwForDma_succeeds ans.head x 0 hcheck hhead
    have hbefore : (hisfcRegRwForDma ans.head isRead chip x addr 0
        (dmaHead addr len)).2.2.Before (dmaHead addr len) := by
      intro c hmem
      rw [hfirst, hmoved] at hmem
      obtain rfl := List.mem_singleton.mp hmem
      exact (Nat.zero_add _).le
    obtain ⟨hret', p, hlt, hmissing⟩ := rest_misses _ _ (by omega) hbefore htail hfail
    simp only [data_eq halign]
    rw [if_neg (by rw [hret]; simp)]
    exact ⟨hret', p, by omega, hmissing⟩
  · have hzero := dmaHead_eq_zero halign len
    rw [hzero, chunks_nothing] at htail
    rw [hzero] at hfail
    have hbefore : x.Before 0 := by
      intro c hmem
      rw [hmoved] at hmem
      cases hmem
    obtain ⟨hret, p, hlt, hmissing⟩ := rest_misses x 0 hrange hbefore htail hfail
    simp only [data_aligned halign]
    exact ⟨hret, p, by omega, hmissing⟩

end Data

section Both

variable {isRead : Bool} {ans : DmaAnswers} {x : Xfer} {chip : Chip} {addr len retlen : ℕ}

def Xfer.dest (isRead : Bool) (x : Xfer) : Mem := if isRead then x.buf else x.host.flash

def Xfer.full (isRead : Bool) (x : Xfer) (addr len : ℕ) : Mem :=
  if isRead then x.buf.write 0 (x.host.flash.bytes addr len)
  else x.host.flash.write addr (x.buf.bytes 0 len)

def Xfer.started (ans : DmaAnswers) (isRead : Bool) (x : Xfer) : Xfer :=
  if isRead then x else
    { x with host := { x.host with
      wel := decide (ans.writeEnable = 0) || x.host.wel
      commands := x.host.commands ++ [.writeEnable]
      count := x.host.count + 1 } }

theorem Xfer.started_moved (ans : DmaAnswers) (isRead : Bool) (x : Xfer) :
    (x.started ans isRead).moved = x.moved := by
  cases isRead <;> rfl

theorem Xfer.started_count (ans : DmaAnswers) (isRead : Bool) (x : Xfer) :
    (x.started ans isRead).host.count = firstCount isRead x.host := by
  cases isRead <;> rfl

theorem Copied.dest_eq {x' : Xfer} (hcopied : Copied isRead (x.started ans isRead) x' addr 0 len) :
    x'.dest isRead = x.full isRead addr len := by
  cases isRead with
  | true => exact hcopied.1
  | false => exact hcopied.1

theorem xfer_refused (hpermission : ans.sfcCheckPermission = 0)
    (hcheck : sfcCoreCheckAddrLen chip.chipsize addr len ≠ 0) :
    hisfcBaseDmaRwXfer ans isRead chip x addr len retlen = (-einval, retlen, x) := by
  rw [hisfcBaseDmaRwXfer, if_neg (not_not.mpr hpermission), if_pos hcheck]

theorem xfer_notReady (hpermission : ans.sfcCheckPermission = 0)
    (hcheck : sfcCoreCheckAddrLen chip.chipsize addr len = 0) (hlen : 0 < len)
    (hready : ans.waitReady ≠ 0) :
    hisfcBaseDmaRwXfer ans isRead chip x addr len retlen = (0, 0, x) := by
  rw [hisfcBaseDmaRwXfer, if_neg (not_not.mpr hpermission), if_neg (not_not.mpr hcheck),
    if_neg hlen.ne', if_pos hready]

theorem xfer_data (hpermission : ans.sfcCheckPermission = 0)
    (hcheck : sfcCoreCheckAddrLen chip.chipsize addr len = 0) (hlen : 0 < len)
    (hready : ans.waitReady = 0) :
    hisfcBaseDmaRwXfer ans isRead chip x addr len retlen =
      hisfcBaseDmaRwXferData ans isRead chip (x.started ans isRead) addr len := by
  rw [hisfcBaseDmaRwXfer, if_neg (not_not.mpr hpermission), if_neg (not_not.mpr hcheck),
    if_neg hlen.ne', if_neg (not_not.mpr hready)]
  rfl

theorem Ready.of_clean {ans : RegAnswers} (hclean : ans.Clean isRead) (count addr n : ℕ) :
    ans.Ready isRead chip count addr n := by
  cases isRead with
  | true => exact ⟨hclean.1, fun _ => hclean.2⟩
  | false => exact ⟨hclean.1, fun i _ => hclean.2 _⟩

theorem DmaAnswers.Clean.partsReady (hclean : ans.Clean isRead) (count addr len : ℕ) :
    ans.PartsReady isRead chip count addr len :=
  ⟨fun _ => Ready.of_clean hclean.head _ _ _, fun _ => Ready.of_clean hclean.tail _ _ _⟩

/-- What the register path returns and leaves behind when nothing fails. -/
def regOutcome (isRead : Bool) (chip : Chip) (x : Xfer) (addr len : ℕ) : ℤ × ℕ × Mem :=
  let check := sfcCoreCheckAddrLen chip.chipsize addr len
  let n := readAnyway isRead chip addr len
  if check = 0 then (0, len, x.full isRead addr len)
  else if check = sfcRwLenZero then (0, 0, x.dest isRead)
  else (check, n, if isRead then x.buf.write 0 (x.host.flash.bytes addr n) else x.host.flash)

theorem write_same_iff (buf flash : Mem) (addr n : ℕ) :
    buf = buf.write 0 (flash.bytes addr n) ↔ ∀ i < n, buf i = flash (addr + i) := by
  constructor
  · intro hsame i hi
    have hbyte := congrFun hsame i
    rwa [Mem.write_bytes, if_pos (by omega), Nat.sub_zero] at hbyte
  · intro hsame
    funext i
    rw [Mem.write_bytes]
    split
    next hin => rw [Nat.sub_zero]; exact hsame i (by omega)
    next => rfl

theorem readAnyway_write (chip : Chip) (addr len : ℕ) : readAnyway false chip addr len = 0 := by
  simp [readAnyway]

theorem check_invalid {chipsize : ℕ} (hcheck : sfcCoreCheckAddrLen chipsize addr len ≠ 0)
    (hinvalid : sfcCoreCheckAddrLen chipsize addr len ≠ sfcRwLenZero) :
    sfcCoreCheckAddrLen chipsize addr len = -einval := by
  unfold sfcCoreCheckAddrLen at hcheck hinvalid ⊢
  split
  next => rfl
  next hin =>
    rw [if_neg hin] at hcheck hinvalid
    split at hcheck
    next hzero =>
      rw [if_pos hzero] at hinvalid
      exact absurd rfl hinvalid
    next => exact absurd rfl hcheck

theorem xfer_meets_iff (hmoved : x.moved = []) :
    let out := hisfcBaseDmaRwXfer ans isRead chip x addr len retlen
    ((ans.Clean isRead → (out.1, out.2.1, out.2.2.dest isRead) = regOutcome isRead chip x addr len) ∧
      (out.1 = 0 → out.2.1 = len ∧ (∀ i < len, out.2.2.Transferred i) ∧
        out.2.2.dest isRead = x.full isRead addr len)) ↔
      Covered isRead ans x.host chip addr x.buf len retlen := by
  intro out
  have hsize : chip.chipsize ≤ 2 ^ 32 := chip.le_128M.trans (by norm_num)
  have hdata (hcheck : sfcCoreCheckAddrLen chip.chipsize addr len = 0)
      (hpermission : ans.sfcCheckPermission = 0) (hready : ans.waitReady = 0)
      (hparts : ans.PartsReady isRead chip (firstCount isRead x.host) addr len)
      (hdone : ∀ i < dmaBurstCount (len - dmaHead addr len), ans.burst i = .done) :
      out.1 = 0 ∧ out.2.1 = len ∧ (∀ i < len, out.2.2.Transferred i) ∧
        out.2.2.dest isRead = x.full isRead addr len := by
    obtain ⟨hlen, hrange⟩ := sfcCoreCheckAddrLen_accepts hcheck hsize
    rw [← Xfer.started_count ans] at hparts
    obtain ⟨hret, hretlen, hcopied, hall⟩ := data_succeeds hlen hrange
      ((Xfer.started_moved ans isRead x).trans hmoved) hparts hdone
    have hout : out = _ := xfer_data hpermission hcheck hlen hready
    rw [hout]
    exact ⟨hret, hretlen, hall, hcopied.dest_eq⟩
  constructor
  · rintro ⟨hagree, hhonest⟩
    refine ⟨?_, ?_, ?_⟩
    · intro hclean
      by_cases hcheck : sfcCoreCheckAddrLen chip.chipsize addr len = 0
      · exact Or.inl hcheck
      · right
        have hsame := hagree hclean
        have hout : out = _ := xfer_refused hclean.permission hcheck
        simp only [hout, regOutcome, if_neg hcheck] at hsame
        split at hsame
        next hempty =>
          have hret : -einval = 0 := (Prod.mk.inj hsame).1
          exact absurd hret (by decide)
        next hinvalid =>
          obtain ⟨hretlen, hdest⟩ := Prod.mk.inj (Prod.mk.inj hsame).2
          refine ⟨hinvalid, hretlen, ?_⟩
          cases isRead with
          | true => exact (write_same_iff _ _ _ _).mp hdest
          | false =>
            intro i hi
            rw [readAnyway_write] at hi
            omega
    · intro hpermission hcheck
      by_contra hready
      obtain ⟨hlen, _⟩ := sfcCoreCheckAddrLen_accepts hcheck hsize
      have hout : out = _ := xfer_notReady hpermission hcheck hlen hready
      rw [hout] at hhonest
      exact hlen.ne (hhonest rfl).1
    · intro hpermission hcheck hready hparts
      by_contra hfail
      obtain ⟨hlen, hrange⟩ := sfcCoreCheckAddrLen_accepts hcheck hsize
      rw [← Xfer.started_count ans] at hparts
      obtain ⟨hret, p, hlt, hmissing⟩ := data_misses hlen hrange
        ((Xfer.started_moved ans isRead x).trans hmoved) hparts hfail
      have hout : out = _ := xfer_data hpermission hcheck hlen hready
      rw [hout] at hhonest
      exact hmissing ((hhonest hret).2.1 p hlt)
  · intro hcovered
    refine ⟨?_, ?_⟩
    · intro hclean
      by_cases hcheck : sfcCoreCheckAddrLen chip.chipsize addr len = 0
      · obtain ⟨hret, hretlen, _, hdest⟩ := hdata hcheck hclean.permission hclean.ready
          (hclean.partsReady _ _ _) (fun i _ => hclean.done i)
        rw [hret, hretlen, hdest, regOutcome, if_pos hcheck]
      · have hout : out = _ := xfer_refused hclean.permission hcheck
        obtain ⟨hinvalid, hretlen, hsame⟩ := (hcovered.check hclean).resolve_left hcheck
        simp only [hout, regOutcome, if_neg hcheck, if_neg hinvalid]
        rw [check_invalid hcheck hinvalid, ← hretlen]
        cases isRead with
        | true =>
          rw [hretlen]
          exact congrArg _ (congrArg _ ((write_same_iff _ _ _ _).mpr hsame))
        | false => rfl
    · intro hzero
      have hpermission : ans.sfcCheckPermission = 0 := by
        by_contra hdenied
        have hout : out = (ans.sfcCheckPermission, retlen, x) := if_pos hdenied
        rw [hout] at hzero
        exact hdenied hzero
      have hcheck : sfcCoreCheckAddrLen chip.chipsize addr len = 0 := by
        by_contra hrefused
        have hout : out = _ := xfer_refused hpermission hrefused
        rw [hout] at hzero
        have hret : -einval = 0 := hzero
        exact absurd hret (by decide)
      have hready := hcovered.ready hpermission hcheck
      obtain ⟨hlen, hrange⟩ := sfcCoreCheckAddrLen_accepts hcheck hsize
      have hparts : ans.PartsReady isRead chip (firstCount isRead x.host) addr len := by
        by_contra hfail
        rw [← Xfer.started_count ans] at hfail
        have hout : out = _ := xfer_data hpermission hcheck hlen hready
        rw [hout] at hzero
        exact data_fails hlen hrange hfail hzero
      exact (hdata hcheck hpermission hready hparts
        (hcovered.bursts hpermission hcheck hready hparts)).2

end Both

section Registers

variable {h : Host} {chip : Chip} {buf bounce : Mem} {addr len : ℕ}

theorem sfcCoreRegRead_refuses {waitReady : ℤ} {chipsize off : ℕ}
    (hcheck : sfcCoreCheckAddrLen chipsize addr len ≠ 0) :
    sfcCoreRegRead waitReady h chipsize addr buf off len =
      (if sfcCoreCheckAddrLen chipsize addr len = sfcRwLenZero then 0
        else sfcCoreCheckAddrLen chipsize addr len, 0, buf, h) := by
  simp only [sfcCoreRegRead, if_pos hcheck]

theorem check_of_outside {chipsize : ℕ}
    (hout : chipsize < addr ∨ chipsize < len ∨ chipsize < (addr + len) % 2 ^ 64) :
    sfcCoreCheckAddrLen chipsize addr len = -einval := by
  rw [sfcCoreCheckAddrLen, if_pos hout]

theorem readAnyway_whole (hcross : ¬ chip.Crosses addr len) : readAnyway true chip addr len = 0 := by
  apply if_neg
  rintro ⟨_, htwo, hlow, hhigh⟩
  apply hcross
  refine ⟨htwo, ?_, hhigh⟩
  rwa [Nat.mod_eq_of_lt (hlow.trans (by decide))]

theorem sfcCoreRegReadForAll_over {waitReady waitReadySecond : ℤ} (hready : waitReady = 0)
    (hcross : chip.Crosses addr len)
    (hcheck : sfcCoreCheckAddrLen chip.chipsize addr len ≠ 0) :
    let out := sfcCoreRegReadForAll waitReady waitReadySecond h chip addr buf 0 len
    let n := readAnyway true chip addr len
    sfcCoreCheckAddrLen chip.chipsize addr len = -einval ∧ out.1 = -einval ∧ out.2.1 = n ∧
      out.2.2.1 = buf.write 0 (h.flash.bytes addr n) := by
  have hsize := chip.size_twoDies hcross.1
  obtain ⟨htwo, hlow, hhigh⟩ := id hcross
  have hbound : s70fs01gsBoundAddr = 0x4000000 := rfl
  have hnonempty : sfcCoreCheckAddrLen chip.chipsize addr len ≠ sfcRwLenZero := by
    intro hempty
    unfold sfcCoreCheckAddrLen at hempty
    split at hempty
    next => exact absurd hempty (by decide)
    next =>
      split at hempty
      next hzero =>
        rw [hzero, Nat.add_zero] at hhigh
        omega
      next => exact absurd hempty (by decide)
  have hinvalid := check_invalid hcheck hnonempty
  simp only [sfcCoreRegReadForAll_crosses hcross]
  by_cases haddr : addr < s70fs01gsBoundAddr
  · have hn : readAnyway true chip addr len = s70fs01gsBoundAddr - addr :=
      if_pos ⟨rfl, htwo, haddr, hhigh⟩
    have hcheck₁ : sfcCoreCheckAddrLen chip.chipsize addr (s70fs01gsBoundAddr - addr) = 0 :=
      sfcCoreCheckAddrLen_of_le (by omega) (by omega) (by omega)
    have hcheck₂ : sfcCoreCheckAddrLen chip.chipsize s70fs01gsBoundAddr
        (addr + len - s70fs01gsBoundAddr) = -einval := by
      apply check_of_outside
      have hout : chip.chipsize < addr ∨ chip.chipsize < len ∨
          chip.chipsize < (addr + len) % 2 ^ 64 := by
        by_contra hin
        rw [sfcCoreCheckAddrLen, if_neg hin] at hinvalid
        split at hinvalid <;> exact absurd hinvalid (by decide)
      omega
    obtain ⟨hret, hlen, hbuf, _⟩ := sfcCoreRegRead_spec h buf 0 hcheck₁ (by omega)
    rw [hready, if_neg (by rw [hret]; simp), sfcCoreRegRead_refuses (by rw [hcheck₂]; decide),
      hcheck₂, if_neg (by decide), hn]
    exact ⟨hinvalid, rfl, hlen, hbuf⟩
  · have hn : readAnyway true chip addr len = 0 := if_neg fun h => haddr h.2.2.1
    have hcheck₁ : sfcCoreCheckAddrLen chip.chipsize addr (s70fs01gsBoundAddr - addr) = -einval :=
      check_of_outside (by omega)
    have hempty : -einval ≠ sfcRwLenZero := by decide
    have hfirst : sfcCoreRegRead waitReady h chip.chipsize addr buf 0
        (s70fs01gsBoundAddr - addr) = (-einval, 0, buf, h) := by
      rw [sfcCoreRegRead_refuses (by rw [hcheck₁]; decide), hcheck₁, if_neg hempty]
    rw [hfirst, hn, write_nothing]
    exact ⟨hinvalid, rfl, rfl, rfl⟩

theorem hisfcRegRead_clean {reg : ReadAnswers} (hpermission : reg.sfcCheckPermission = 0)
    (hclean : reg.Clean) :
    ((hisfcRegRead reg h chip addr buf len).1, (hisfcRegRead reg h chip addr buf len).2.1,
        (hisfcRegRead reg h chip addr buf len).2.2.1) =
      regOutcome true chip ⟨buf, h, bounce, []⟩ addr len := by
  have hread : hisfcRegRead reg h chip addr buf len =
      sfcCoreRegReadForAll reg.waitReady reg.waitReadySecond h chip addr buf 0 len :=
    if_neg (not_not.mpr hpermission)
  rw [hread]
  by_cases hcheck : sfcCoreCheckAddrLen chip.chipsize addr len = 0
  · obtain ⟨hret, hlen, hbuf, _⟩ := sfcCoreRegReadForAll_succeeds reg h chip buf 0 hcheck
      ⟨hclean.1, fun _ => hclean.2⟩
    rw [hret, hlen, hbuf, regOutcome, if_pos hcheck]
    rfl
  · rw [regOutcome, if_neg hcheck]
    by_cases hcross : chip.Crosses addr len
    · obtain ⟨hinvalid, hret, hlen, hbuf⟩ := sfcCoreRegReadForAll_over hclean.1 hcross hcheck
      rw [hret, hlen, hbuf, hinvalid, if_neg (by decide)]
      rfl
    · rw [sfcCoreRegReadForAll_whole hcross, sfcCoreRegRead_refuses hcheck,
        readAnyway_whole hcross, write_nothing]
      split
      next => rfl
      next => rfl

theorem hisfcRegWrite_clean {reg : Answers} (hpermission : reg.sfcCheckPermission = 0)
    (hclean : reg.Clean) :
    ((hisfcRegWrite reg h chip.chipsize addr buf len).1,
        (hisfcRegWrite reg h chip.chipsize addr buf len).2.1,
        (hisfcRegWrite reg h chip.chipsize addr buf len).2.2.flash) =
      regOutcome false chip ⟨buf, h, bounce, []⟩ addr len := by
  have hwrite : hisfcRegWrite reg h chip.chipsize addr buf len =
      sfcCoreRegWrite reg h chip.chipsize addr buf len := if_neg (not_not.mpr hpermission)
  rw [hwrite]
  by_cases hcheck : sfcCoreCheckAddrLen chip.chipsize addr len = 0
  · obtain ⟨hret, hlen, hflash, _⟩ := sfcCoreRegWrite_succeeds reg h chip buf hcheck hclean.1
      (fun i _ => hclean.2 _)
    rw [hret, hlen, hflash, regOutcome, if_pos hcheck]
    rfl
  · rw [regOutcome, if_neg hcheck, readAnyway_write]
    simp only [sfcCoreRegWrite, if_pos hcheck]
    split
    next => rfl
    next => rfl

end Registers

/-- A DMA read, and a DMA write, does what it promises exactly when it is covered. -/
theorem hisfcDma_meets_iff (ans : DmaAnswers) (h : Host) (chip : Chip) (bounce : Mem) (addr : ℕ)
    (buf : Mem) (len retlen : ℕ) :
    (ReadMeets ans h chip bounce addr buf len retlen ↔
        Covered true ans h chip addr buf len retlen) ∧
      (WriteMeets ans h chip bounce addr buf len retlen ↔
        Covered false ans h chip addr buf len retlen) := by
  have hmoved : Xfer.moved ⟨buf, h, bounce, []⟩ = [] := rfl
  have hzero : ReadAnswers.Clean ⟨0, 0, 0⟩ := ⟨rfl, rfl⟩
  have hzero' : Answers.Clean ⟨0, 0, fun _ => 0, fun _ => 0, fun _ => h.flash⟩ :=
    ⟨rfl, fun _ => ⟨rfl, rfl⟩⟩
  constructor
  · refine Iff.trans (and_congr_left' ?_) (xfer_meets_iff hmoved)
    constructor
    · intro hagree hclean
      rw [← hisfcRegRead_clean rfl hzero]
      obtain ⟨hret, hlen, hbuf⟩ := hagree hclean _ rfl hzero
      exact Prod.ext hret (Prod.ext hlen hbuf)
    · intro hagree hclean reg hpermission hreg
      have hsame := hagree hclean
      rw [← hisfcRegRead_clean hpermission hreg] at hsame
      obtain ⟨hret, hrest⟩ := Prod.mk.inj hsame
      exact ⟨hret, Prod.mk.inj hrest⟩
  · refine Iff.trans (and_congr_left' ?_) (xfer_meets_iff hmoved)
    constructor
    · intro hagree hclean
      rw [← hisfcRegWrite_clean rfl hzero']
      obtain ⟨hret, hlen, hflash⟩ := hagree hclean _ rfl hzero'
      exact Prod.ext hret (Prod.ext hlen hflash)
    · intro hagree hclean reg hpermission hreg
      have hsame := hagree hclean
      rw [← hisfcRegWrite_clean hpermission hreg] at hsame
      obtain ⟨hret, hrest⟩ := Prod.mk.inj hsame
      exact ⟨hret, Prod.mk.inj hrest⟩

def chip16M : Chip := ⟨0x1000000, false, by decide, fun h => by cases h⟩

def timedOut : DmaAnswers where
  sfcCheckPermission := 0
  waitReady := 0
  writeEnable := 0
  head := ⟨⟨0, 0, 0⟩, answers0⟩
  tail := ⟨⟨0, 0, 0⟩, answers0⟩
  burst := fun _ => .failed fun _ => 0

/-- Four bytes by one burst that times out: the result is 0 and `*retlen` is 4, with none
of the flash in the buffer; and a flash that does not get ready gives 0 as well. -/
theorem timedOut_not_meets :
    ¬ ReadMeets timedOut host0 chip16M (fun _ => 0) 0 (fun _ => 0) 4 0 ∧
      ¬ ReadMeets { timedOut with waitReady := -1 } host0 chip16M (fun _ => 0) 0 (fun _ => 0) 4 0 := by
  constructor
  · intro hmeets
    have hbuf := (hmeets.2 (by decide +kernel)).2.2
    have hbyte := congrFun hbuf 0
    revert hbyte
    decide +kernel
  · intro hmeets
    have hlen := (hmeets.2 (by decide +kernel)).1
    revert hlen
    decide +kernel

end HiMpu.Sfc
