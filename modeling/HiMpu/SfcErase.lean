import HiMpu.SfcAccess
import HiMpu.SfcSpiIds

/-!
# The erase of the SPI flash

The commands of one call with everything the flash can answer.  The range and the
alignment are checked before the loop, but for the flashes with small sectors at the
bottom these sectors are erased first.  The loop goes on by the size of the operation, and
the alignment is that of the table.
-/

namespace HiMpu.SfcErase

open SfcSpiIds
open SfcController (size4K sectorCount4K)

def ebusy : ℤ := 16
def spiCmdSe4K : ℕ := 0x20
def sectorArchMask : ℕ := 0x8

structure Answers where
  permission : ℤ
  waitReady : ℕ → Bool
  waitWipFinish : ℤ
  cr3v : ℕ

structure Spi where
  chipsize : ℕ
  erasesize : ℕ
  erase : SpiOperation
  driver : SpiDriver

def probe (info : SpiInfo) (spiop : SpiOperation) : Spi :=
  ⟨info.chipsize, info.erasesize, sfcSpiGetErase info spiop, info.driver⟩

/-- An erase command, the place in the address register and the size of its sector. -/
structure EraseCmd where
  ins : ℕ
  addr : ℕ
  size : ℕ
  deriving DecidableEq

def EraseCmd.Covers (c : EraseCmd) (b : ℕ) : Prop := c.addr ≤ b ∧ b < c.addr + c.size

def sfcCoreCheckAddrLen (spi : Spi) (addr len : ℕ) : ℤ :=
  let ret := Sfc.sfcCoreCheckAddrLen spi.chipsize addr len
  if ret ≠ 0 then ret
  else if addr % 2 ^ 32 &&& (spi.erasesize - 1) ≠ 0 then -Sfc.einval
  else if len % 2 ^ 32 &&& (spi.erasesize - 1) ≠ 0 then -Sfc.einval
  else 0

def sfcCoreRegEraseOneBlock (ans : Answers) (spi : Spi) (log : List EraseCmd) (offset : ℕ)
    (sector4Kb : Bool) : ℤ × List EraseCmd :=
  if ans.waitReady log.length then
    let addr := offset &&& Sfc.hisfc350CmdAddrMask
    (0, log ++ [if sector4Kb then ⟨spiCmdSe4K, addr, size4K⟩
      else ⟨spi.erase.cmd, addr, spi.erase.size⟩])
  else (-ebusy, log)

/-- The loop with its long words.  Without fuel it has not ended. -/
def regEraseLoop (ans : Answers) (spi : Spi) :
    ℕ → List EraseCmd → ℕ → ℕ → Option (ℤ × List EraseCmd)
  | 0, _, _, _ => none
  | fuel + 1, log, addr, len =>
    if len = 0 then some (ans.waitWipFinish, log)
    else
      let (ret, log) := sfcCoreRegEraseOneBlock ans spi log (addr % 2 ^ 32) false
      if ret ≠ 0 then some (ret, log)
      else
        regEraseLoop ans spi fuel log ((addr + spi.erase.size) % 2 ^ 64)
          ((len + 2 ^ 64 - spi.erase.size) % 2 ^ 64)

def sfcCoreRegErase (fuel : ℕ) (ans : Answers) (spi : Spi) (log : List EraseCmd) (addr len : ℕ) :
    Option (ℤ × List EraseCmd) :=
  let ret := sfcCoreCheckAddrLen spi addr len
  if ret ≠ 0 then some (if ret = Sfc.sfcRwLenZero then 0 else ret, log)
  else regEraseLoop ans spi fuel log addr len

def subsectorLoop (ans : Answers) (spi : Spi) :
    ℕ → List EraseCmd → ℕ → ℤ × List EraseCmd
  | 0, log, _ => (0, log)
  | rounds + 1, log, addr =>
    let (ret, log) := sfcCoreRegEraseOneBlock ans spi log addr true
    if ret ≠ 0 then (ret, log)
    else subsectorLoop ans spi rounds log ((addr + size4K) % 2 ^ 32)

def sfcCore4KbSubsectorErase (ans : Answers) (spi : Spi) (log : List EraseCmd) (addr len : ℕ) :
    ℤ × List EraseCmd :=
  if spi.chipsize < (addr + len) % 2 ^ 32 then (-Sfc.einval, log)
  else if addr &&& (size4K - 1) ≠ 0 ∨ len &&& (size4K - 1) ≠ 0 then (-Sfc.einval, log)
  else subsectorLoop ans spi (len / size4K) log addr

/-- The registers of the flash are read without a failure.  A sector position at the top
is only logged. -/
def sfcCoreSpansionfsxxBottom4KErase (ans : Answers) (spi : Spi) : ℤ × List EraseCmd :=
  if ans.cr3v &&& sectorArchMask = 0 then
    sfcCore4KbSubsectorErase ans spi [] 0 (sectorCount4K * size4K)
  else (0, [])

def sfcCoreSpansionfsxxErase (fuel : ℕ) (ans : Answers) (spi : Spi) (addr len : ℕ) :
    Option (ℤ × List EraseCmd) :=
  let (ret, log) :=
    if addr = 0 ∧ spi.erasesize ≤ len then sfcCoreSpansionfsxxBottom4KErase ans spi else (0, [])
  if ret ≠ 0 then some (ret, log) else sfcCoreRegErase fuel ans spi log addr len

def hisfcRegErase (fuel : ℕ) (ans : Answers) (spi : Spi) (addr len : ℕ) :
    Option (ℤ × List EraseCmd) :=
  if ans.permission ≠ 0 then some (ans.permission, [])
  else if spi.driver.eraseProcess then sfcCoreSpansionfsxxErase fuel ans spi addr len
  else sfcCoreRegErase fuel ans spi [] addr len

/-! ## The geometry

Where nothing goes wrong with the flash, the addresses of the commands are those of the
model in which only the flash's geometry decides.
-/

def AlwaysReady (ans : Answers) : Prop := ∀ n, ans.waitReady n = true

def geometry (info : SpiInfo) (spiop : SpiOperation) (hwell : info.WellFormed) :
    SfcController.Geometry where
  twoDies := decide (info.driver = .s70fs01gs)
  hybrid := info.driver.eraseProcess
  erasesize := info.erasesize
  eraseOpSize := (sfcSpiGetErase info spiop).size
  erasesize_pow := hwell.erasesize_pow
  eraseOpSize_eq := by
    by_cases hop : info.HasErase
    · exact .inl (sfcSpiGetErase_size hop)
    · exact .inr (sfcSpiGetErase_none hop)
  hybrid_le := by
    intro _
    rcases hwell.erasesize with h | h <;> rw [h] <;> decide

theorem check_geometry {info : SpiInfo} {spiop : SpiOperation} {addr len : ℕ}
    (hwell : info.WellFormed) :
    sfcCoreCheckAddrLen (probe info spiop) addr len =
      SfcController.coreCheckAddrLenErase info.chipsize (geometry info spiop hwell) addr len :=
  rfl

section Loops

variable {ans : Answers} {spi : Spi} {log : List EraseCmd} {addr len offset rounds : ℕ}

theorem one_block_busy {sector4Kb : Bool} (hready : ans.waitReady log.length = false) :
    sfcCoreRegEraseOneBlock ans spi log offset sector4Kb = (-ebusy, log) := by
  simp [sfcCoreRegEraseOneBlock, hready]

theorem one_block_ready (hready : ans.waitReady log.length = true) (hoffset : offset < 2 ^ 30) :
    sfcCoreRegEraseOneBlock ans spi log (offset % 2 ^ 32) false =
      (0, log ++ [⟨spi.erase.cmd, offset, spi.erase.size⟩]) := by
  simp only [sfcCoreRegEraseOneBlock, hready, if_true, Sfc.cmdAddr_eq hoffset]
  rfl

theorem one_block_small (hready : ans.waitReady log.length = true) (hoffset : offset < 2 ^ 30) :
    sfcCoreRegEraseOneBlock ans spi log offset true =
      (0, log ++ [⟨spiCmdSe4K, offset, size4K⟩]) := by
  have hmask := Sfc.cmdAddr_eq hoffset
  rw [Nat.mod_eq_of_lt (by omega)] at hmask
  simp only [sfcCoreRegEraseOneBlock, hready, if_true, hmask]

theorem regEraseLoop_returns (spi : Spi) (ans : Answers) (log : List EraseCmd) (addr rounds : ℕ)
    (hsize : 0 < spi.erase.size) (hend : addr + spi.erase.size * rounds ≤ 2 ^ 30) :
    ∃ ret new, regEraseLoop ans spi (rounds + 1) log addr (spi.erase.size * rounds) =
        some (ret, log ++ new) ∧
      (ret = 0 → Tiles EraseCmd.addr EraseCmd.size addr new (addr + spi.erase.size * rounds)) ∧
      (AlwaysReady ans → ∀ g : SfcController.Geometry, g.eraseOpSize = spi.erase.size →
        new.map EraseCmd.addr =
          (SfcController.eraseBlocks g (rounds + 1) addr (spi.erase.size * rounds)).map
            SfcController.Piece.field) := by
  induction rounds generalizing log addr with
  | zero =>
    exact ⟨ans.waitWipFinish, [], by simp [regEraseLoop], fun _ => rfl, fun _ _ _ => rfl⟩
  | succ rounds ih =>
    have hsplit : spi.erase.size * (rounds + 1) = spi.erase.size * rounds + spi.erase.size :=
      Nat.mul_succ _ _
    rw [regEraseLoop, if_neg (by omega)]
    cases hready : ans.waitReady log.length with
    | false =>
      rw [one_block_busy hready]
      exact ⟨-ebusy, [], by simp [ebusy], fun h => absurd h (by decide), fun h => by
        simp [h log.length] at hready⟩
    | true =>
      rw [one_block_ready hready (by omega)]
      have haddr : (addr + spi.erase.size) % 2 ^ 64 = addr + spi.erase.size :=
        Nat.mod_eq_of_lt (by omega)
      have hlen : (spi.erase.size * (rounds + 1) + 2 ^ 64 - spi.erase.size) % 2 ^ 64 =
          spi.erase.size * rounds := by omega
      obtain ⟨ret, new, hrun, htiles, hpieces⟩ :=
        ih (log ++ [⟨spi.erase.cmd, addr, spi.erase.size⟩]) (addr + spi.erase.size) (by omega)
      simp only [haddr, hlen, ne_eq, not_true_eq_false, if_false, hrun]
      refine ⟨ret, ⟨spi.erase.cmd, addr, spi.erase.size⟩ :: new, by simp, fun h => ?_,
        fun h g hg => ?_⟩
      · rw [hsplit, Nat.add_comm (spi.erase.size * rounds), ← Nat.add_assoc]
        exact ⟨rfl, hsize, htiles h⟩
      · have hless : spi.erase.size * (rounds + 1) - spi.erase.size = spi.erase.size * rounds := by
          omega
        rw [SfcController.eraseBlocks, if_pos (by omega), hg, hless, List.map_cons, List.map_cons,
          hpieces h g hg, Sfc.cmdAddr_eq (by omega)]

theorem subsectorLoop_returns (ans : Answers) (spi : Spi) (log : List EraseCmd) (addr rounds : ℕ)
    (hend : addr + size4K * rounds ≤ 2 ^ 30) :
    ∃ ret new, subsectorLoop ans spi rounds log addr = (ret, log ++ new) ∧
      (ret = 0 → Tiles EraseCmd.addr EraseCmd.size addr new (addr + size4K * rounds)) ∧
      (0 < rounds → (new ≠ [] ↔ ans.waitReady log.length = true)) ∧
      (AlwaysReady ans → ret = 0 ∧
        new.map EraseCmd.addr = (List.range rounds).map fun i => addr + size4K * i) := by
  have hsize : size4K = 4096 := rfl
  induction rounds generalizing log addr with
  | zero =>
    exact ⟨0, [], by simp [subsectorLoop], fun _ => rfl, fun h => absurd h (by decide),
      fun _ => ⟨rfl, rfl⟩⟩
  | succ rounds ih =>
    have hsplit : size4K * (rounds + 1) = size4K * rounds + size4K := Nat.mul_succ _ _
    rw [subsectorLoop]
    cases hready : ans.waitReady log.length with
    | false =>
      rw [one_block_busy hready]
      exact ⟨-ebusy, [], by simp [ebusy], fun h => absurd h (by decide), by simp, fun h => by
        simp [h log.length] at hready⟩
    | true =>
      rw [one_block_small hready (by omega)]
      have haddr : (addr + size4K) % 2 ^ 32 = addr + size4K := Nat.mod_eq_of_lt (by omega)
      obtain ⟨ret, new, hrun, htiles, -, hall⟩ :=
        ih (log ++ [⟨spiCmdSe4K, addr, size4K⟩]) (addr + size4K) (by omega)
      simp only [haddr, ne_eq, not_true_eq_false, if_false, hrun]
      refine ⟨ret, ⟨spiCmdSe4K, addr, size4K⟩ :: new, by simp, fun h => ?_, by simp, fun h => ?_⟩
      · rw [hsplit, Nat.add_comm (size4K * rounds), ← Nat.add_assoc]
        exact ⟨rfl, hsize.symm ▸ Nat.succ_pos _, htiles h⟩
      · have hshift : (fun i => addr + size4K * i) ∘ Nat.succ =
            fun i => addr + size4K + size4K * i := by
          funext i
          simp only [Function.comp_apply, Nat.mul_succ]
          omega
        refine ⟨(hall h).1, ?_⟩
        rw [List.range_succ_eq_map, List.map_cons, List.map_cons, List.map_map, hshift, (hall h).2,
          Nat.mul_zero, Nat.add_zero]

theorem covers_iff {new : List EraseCmd} {lo hi : ℕ}
    (htiles : Tiles EraseCmd.addr EraseCmd.size lo new hi) (b : ℕ) :
    (∃ c ∈ new, c.Covers b) ↔ lo ≤ b ∧ b < hi := by
  constructor
  · rintro ⟨c, hmem, hlow, hhigh⟩
    obtain ⟨hstart, hstop, -⟩ := htiles.bounds hmem
    omega
  · rintro ⟨hlow, hhigh⟩
    obtain ⟨c, hmem, hin⟩ := htiles.exists_mem hlow hhigh
    exact ⟨c, hmem, hin⟩

end Loops

section Call

variable {ans : Answers} {spi : Spi} {info : SpiInfo} {spiop : SpiOperation}
  {log : List EraseCmd} {addr len : ℕ}

/-- The range and the alignment are refused, which a length of zero is not. -/
def Refused (spi : Spi) (addr len : ℕ) : Prop :=
  sfcCoreCheckAddrLen spi addr len ≠ 0 ∧ sfcCoreCheckAddrLen spi addr len ≠ Sfc.sfcRwLenZero

/-- The small sectors at the bottom are erased before the range is checked. -/
def ErasesFirst (ans : Answers) (spi : Spi) (addr len : ℕ) : Prop :=
  ans.permission = 0 ∧ spi.driver.eraseProcess = true ∧ ans.cr3v &&& sectorArchMask = 0 ∧
    ans.waitReady 0 = true ∧ addr = 0 ∧ spi.erasesize ≤ len

structure EraseCorrect (ans : Answers) (spi : Spi) (addr len : ℕ) : Prop where
  returns : ∃ fuel ret log, hisfcRegErase fuel ans spi addr len = some (ret, log) ∧
    (Refused spi addr len → log = []) ∧
    (ret = 0 → 0 < len → ∀ b, (∃ c ∈ log, c.Covers b) ↔ addr ≤ b ∧ b < addr + len)
  step : sfcCoreCheckAddrLen spi addr len = 0 → spi.erase.size ∣ len

theorem check_accepts (hchip : spi.chipsize ≤ 2 ^ 27) (hpow : ∃ k, spi.erasesize = 2 ^ k)
    (hcheck : sfcCoreCheckAddrLen spi addr len = 0) :
    0 < len ∧ addr + len ≤ spi.chipsize ∧ spi.erasesize ∣ len := by
  obtain ⟨k, hk⟩ := hpow
  unfold sfcCoreCheckAddrLen at hcheck
  simp only at hcheck
  split at hcheck
  next hrefused => exact absurd hcheck hrefused
  next hrange =>
    obtain ⟨hpos, hend⟩ := Sfc.sfcCoreCheckAddrLen_accepts (not_not.mp hrange) (by omega)
    split at hcheck
    next => exact absurd hcheck (by decide)
    next =>
      split at hcheck
      next => exact absurd hcheck (by decide)
      next halign =>
        refine ⟨hpos, hend, ?_⟩
        have hmod : len % 2 ^ 32 &&& (spi.erasesize - 1) = 0 := not_not.mp halign
        rw [Nat.mod_eq_of_lt (by omega), hk, Nat.and_two_pow_sub_one_eq_mod] at hmod
        exact hk ▸ Nat.dvd_of_mod_eq_zero hmod

theorem check_empty (hcheck : sfcCoreCheckAddrLen spi addr len = Sfc.sfcRwLenZero) : len = 0 := by
  have hzero : Sfc.sfcRwLenZero ≠ 0 := by decide
  have hinval : -Sfc.einval ≠ Sfc.sfcRwLenZero := by decide
  unfold sfcCoreCheckAddrLen at hcheck
  simp only at hcheck
  split at hcheck
  next =>
    unfold Sfc.sfcCoreCheckAddrLen at hcheck
    split at hcheck
    next => exact absurd hcheck hinval
    next =>
      split at hcheck
      next hlen => exact hlen
      next => exact absurd hcheck.symm hzero
  next =>
    split at hcheck
    next => exact absurd hcheck hinval
    next =>
      split at hcheck
      next => exact absurd hcheck hinval
      next => exact absurd hcheck.symm hzero

/-- The generic path: a request that is refused has no command, and after a return of zero
the blocks are those of the range. -/
theorem sfcCoreRegErase_returns (ans : Answers) (log : List EraseCmd) (hwell : info.WellFormed)
    (hop : sfcCoreCheckAddrLen (probe info spiop) addr len = 0 → info.HasErase) :
    ∃ fuel ret new, sfcCoreRegErase fuel ans (probe info spiop) log addr len =
        some (ret, log ++ new) ∧
      (Refused (probe info spiop) addr len → ret ≠ 0 ∧ new = []) ∧
      (ret = 0 → 0 < len → Tiles EraseCmd.addr EraseCmd.size addr new (addr + len)) ∧
      (AlwaysReady ans → new.map EraseCmd.addr =
        (SfcController.coreRegErase fuel info.chipsize (geometry info spiop hwell) addr len).map
          SfcController.Piece.field) := by
  have hchip : (probe info spiop).chipsize ≤ 2 ^ 27 := hwell.chipsize_high
  by_cases hcheck : sfcCoreCheckAddrLen (probe info spiop) addr len = 0
  · obtain ⟨hpos, hend, rounds, hlen⟩ := check_accepts hchip hwell.erasesize_pow hcheck
    have hsize : (probe info spiop).erase.size = info.erasesize :=
      sfcSpiGetErase_size (hop hcheck)
    have hlen : len = (probe info spiop).erase.size * rounds := hsize ▸ hlen
    obtain ⟨ret, new, hrun, htiles, hpieces⟩ :=
      regEraseLoop_returns (probe info spiop) ans log addr rounds
        (Nat.pos_of_mul_pos_right (hlen ▸ hpos)) (by omega)
    refine ⟨rounds + 1, ret, new, ?_, fun h => absurd hcheck h.1, fun h _ => hlen ▸ htiles h,
      fun h => ?_⟩
    · simp only [sfcCoreRegErase, hcheck, ne_eq, not_true_eq_false, if_false]
      rw [hlen]
      exact hrun
    · rw [SfcController.coreRegErase, ← check_geometry, if_neg (not_not.mpr hcheck), hlen]
      exact hpieces h (geometry info spiop hwell) rfl
  · refine ⟨0, if sfcCoreCheckAddrLen (probe info spiop) addr len = Sfc.sfcRwLenZero then 0
      else sfcCoreCheckAddrLen (probe info spiop) addr len, [], ?_, fun h => ⟨?_, rfl⟩, ?_,
      fun _ => ?_⟩
    · simp only [sfcCoreRegErase, ne_eq, hcheck, not_false_eq_true, if_true, List.append_nil]
    · rw [if_neg h.2]
      exact h.1
    · intro hret hpos
      split at hret
      next hempty =>
        have hlen := check_empty hempty
        omega
      next => exact absurd hret hcheck
    · rw [SfcController.coreRegErase, ← check_geometry, if_pos hcheck]
      rfl

theorem bottom_returns (ans : Answers) (spiop : SpiOperation) (hwell : info.WellFormed) :
    ∃ ret log, sfcCoreSpansionfsxxBottom4KErase ans (probe info spiop) = (ret, log) ∧
      (ret = 0 → ∃ stop ≤ info.erasesize, Tiles EraseCmd.addr EraseCmd.size 0 log stop) ∧
      (log ≠ [] ↔ ans.cr3v &&& sectorArchMask = 0 ∧ ans.waitReady 0 = true) ∧
      (AlwaysReady ans → ans.cr3v &&& sectorArchMask = 0 → ret = 0 ∧
        log.map EraseCmd.addr = SfcController.subsectors.map SfcController.Piece.field) := by
  unfold sfcCoreSpansionfsxxBottom4KErase
  split
  next hhybrid =>
    have hlow : 2 ^ 24 ≤ info.chipsize := hwell.chipsize_low
    obtain ⟨ret, new, hrun, htiles, hnew, hall⟩ :=
      subsectorLoop_returns ans (probe info spiop) [] 0 sectorCount4K (by decide)
    refine ⟨ret, new, ?_, fun h => ⟨size4K * sectorCount4K, ?_, ?_⟩, ?_,
      fun h _ => ⟨(hall h).1, (hall h).2⟩⟩
    · rw [sfcCore4KbSubsectorErase, if_neg, if_neg (by decide)]
      · exact hrun
      · have hbytes : (0 + sectorCount4K * size4K) % 2 ^ 32 = 32768 := by decide
        rw [hbytes]
        exact Nat.not_lt.mpr (le_trans (by decide) hlow)
    · rcases hwell.erasesize with h | h <;> rw [h] <;> decide
    · simpa using htiles h
    · rw [hnew (by decide)]
      simp [hhybrid]
  next hhybrid =>
    exact ⟨0, [], rfl, fun _ => ⟨0, Nat.zero_le _, rfl⟩, by simp [hhybrid],
      fun _ h => absurd h hhybrid⟩

theorem hisfcRegErase_refused (fuel : ℕ) (hfirst : ErasesFirst ans (probe info spiop) addr len)
    (hwell : info.WellFormed) (hrefused : Refused (probe info spiop) addr len) :
    ∃ ret log, log ≠ [] ∧
      hisfcRegErase fuel ans (probe info spiop) addr len = some (ret, log) := by
  obtain ⟨hpermission, hprocess, hhybrid, hready, haddr, hlen⟩ := hfirst
  obtain ⟨ret, log, hbottom, -, hlog, -⟩ := bottom_returns ans spiop hwell
  have hnonempty : log ≠ [] := hlog.mpr ⟨hhybrid, hready⟩
  simp only [hisfcRegErase, hpermission, ne_eq, not_true_eq_false, if_false, hprocess, if_true,
    sfcCoreSpansionfsxxErase, if_pos (And.intro haddr hlen), hbottom]
  split
  next => exact ⟨ret, log, hnonempty, rfl⟩
  next => exact ⟨_, log, hnonempty, by rw [sfcCoreRegErase, if_pos hrefused.1]⟩

theorem hisfcRegErase_returns (hwell : info.WellFormed)
    (hop : sfcCoreCheckAddrLen (probe info spiop) addr len = 0 → info.HasErase)
    (hfirst : ¬(ErasesFirst ans (probe info spiop) addr len ∧
      Refused (probe info spiop) addr len)) :
    ∃ fuel ret log, hisfcRegErase fuel ans (probe info spiop) addr len = some (ret, log) ∧
      (Refused (probe info spiop) addr len → log = []) ∧
      (ret = 0 → 0 < len → ∀ b, (∃ c ∈ log, c.Covers b) ↔ addr ≤ b ∧ b < addr + len) := by
  unfold hisfcRegErase
  split
  next hpermission =>
    exact ⟨0, ans.permission, [], rfl, fun _ => rfl, fun h => absurd h hpermission⟩
  next hpermission =>
    have hgeneric : ∃ fuel ret log,
        sfcCoreRegErase fuel ans (probe info spiop) [] addr len = some (ret, log) ∧
          (Refused (probe info spiop) addr len → log = []) ∧
          (ret = 0 → 0 < len → ∀ b, (∃ c ∈ log, c.Covers b) ↔ addr ≤ b ∧ b < addr + len) := by
      obtain ⟨fuel, ret, new, hrun, hnone, htiles, -⟩ :=
        sfcCoreRegErase_returns ans [] hwell hop
      exact ⟨fuel, ret, new, hrun, fun h => (hnone h).2, fun h hpos => covers_iff (htiles h hpos)⟩
    split
    next hprocess =>
      unfold sfcCoreSpansionfsxxErase
      by_cases hbottom : addr = 0 ∧ (probe info spiop).erasesize ≤ len
      · rw [if_pos hbottom]
        obtain ⟨haddr, hlen⟩ := hbottom
        obtain ⟨ret₁, log, hbottom, htiles₁, hlog, -⟩ :=
          bottom_returns ans spiop hwell
        have hempty : Refused (probe info spiop) addr len → log = [] := by
          intro hrefused
          by_contra hnonempty
          obtain ⟨hhybrid, hready⟩ := hlog.mp hnonempty
          exact hfirst ⟨⟨not_not.mp hpermission, hprocess, hhybrid, hready, haddr, hlen⟩, hrefused⟩
        rw [hbottom]
        simp only
        split
        next hret => exact ⟨0, ret₁, log, rfl, hempty, fun h => absurd h hret⟩
        next hret =>
          obtain ⟨fuel, ret, new, hrun, hnone, htiles, -⟩ :=
            sfcCoreRegErase_returns ans log hwell hop
          refine ⟨fuel, ret, log ++ new, hrun, fun h => ?_, fun h hpos b => ?_⟩
          · rw [hempty h, (hnone h).2, List.append_nil]
          · -- the small sectors lie in the first block, which is erased as well
            obtain ⟨stop, hstop, hsmall⟩ := htiles₁ (not_not.mp hret)
            have hblocks := covers_iff (htiles h hpos) b
            have hwithin := covers_iff hsmall b
            have hle : info.erasesize ≤ len := hlen
            constructor
            · rintro ⟨c, hmem, hin⟩
              rcases List.mem_append.mp hmem with hmem | hmem
              · have hbound := hwithin.mp ⟨c, hmem, hin⟩
                omega
              · exact hblocks.mp ⟨c, hmem, hin⟩
            · intro hin
              obtain ⟨c, hmem, hin⟩ := hblocks.mpr hin
              exact ⟨c, List.mem_append_right _ hmem, hin⟩
      · rw [if_neg hbottom]
        exact hgeneric
    next => exact hgeneric

/-- An erase does what it is asked for, unless the table has no operation for the sectors of
the flash or the small sectors are gone before a request is refused. -/
theorem eraseCorrect_iff (hwell : info.WellFormed) :
    EraseCorrect ans (probe info spiop) addr len ↔
      (sfcCoreCheckAddrLen (probe info spiop) addr len = 0 → info.HasErase) ∧
      ¬(ErasesFirst ans (probe info spiop) addr len ∧ Refused (probe info spiop) addr len) := by
  constructor
  · rintro ⟨⟨fuel, ret, log, hrun, hnone, -⟩, hstep⟩
    refine ⟨fun hcheck => ?_, fun ⟨hfirst, hrefused⟩ => ?_⟩
    · by_contra hop
      have hdvd := hstep hcheck
      have hsize : (probe info spiop).erase.size = 0 := sfcSpiGetErase_none hop
      rw [hsize, zero_dvd_iff] at hdvd
      obtain ⟨hpos, -⟩ := check_accepts hwell.chipsize_high hwell.erasesize_pow hcheck
      omega
    · obtain ⟨ret', log', hnonempty, hrun'⟩ :=
        hisfcRegErase_refused fuel hfirst hwell hrefused
      rw [hrun, Option.some.injEq, Prod.mk.injEq] at hrun'
      exact hnonempty (hrun'.2 ▸ hnone hrefused)
  · rintro ⟨hop, hfirst⟩
    refine ⟨hisfcRegErase_returns hwell hop hfirst, fun hcheck => ?_⟩
    obtain ⟨-, -, hdvd⟩ := check_accepts hwell.chipsize_high hwell.erasesize_pow hcheck
    have hsize : (probe info spiop).erase.size = info.erasesize :=
      sfcSpiGetErase_size (hop hcheck)
    rw [hsize]
    exact hdvd

theorem regEraseLoop_endless (log : List EraseCmd) (addr : ℕ) (hsize : spi.erase.size = 0)
    (hready : ∀ n, ans.waitReady n = true) (hpos : 0 < len) (hlen : len < 2 ^ 64) (fuel : ℕ) :
    regEraseLoop ans spi fuel log addr len = none := by
  induction fuel generalizing log addr with
  | zero => rfl
  | succ fuel ih =>
    have hkeep : (len + 2 ^ 64 - spi.erase.size) % 2 ^ 64 = len := by omega
    rw [regEraseLoop, if_neg (by omega)]
    simp only [sfcCoreRegEraseOneBlock, hready, if_true, ne_eq, not_true_eq_false, if_false,
      hkeep]
    exact ih _ _

theorem hisfcRegErase_pieces (hwell : info.WellFormed)
    (hop : sfcCoreCheckAddrLen (probe info spiop) addr len = 0 → info.HasErase)
    (hpermission : ans.permission = 0) (hready : AlwaysReady ans) :
    ∃ fuel ret log, hisfcRegErase fuel ans (probe info spiop) addr len = some (ret, log) ∧
      log.map EraseCmd.addr =
        (SfcController.regErase fuel info.chipsize (geometry info spiop hwell)
          (decide (ans.cr3v &&& sectorArchMask ≠ 0)) addr len).map
            SfcController.Piece.field := by
  have hallowed : ¬ans.permission ≠ 0 := not_not.mpr hpermission
  obtain ⟨fuel, ret, new, hrun, -, -, hmap⟩ := sfcCoreRegErase_returns ans [] hwell hop
  by_cases hprocess : info.driver.eraseProcess = true
  · have hprobe : (probe info spiop).driver.eraseProcess = true := hprocess
    have hgeometry : (geometry info spiop hwell).hybrid = true := hprocess
    by_cases hfirst : addr = 0 ∧ info.erasesize ≤ len
    · have hrange : addr = 0 ∧ (probe info spiop).erasesize ≤ len := hfirst
      by_cases hhybrid : ans.cr3v &&& sectorArchMask = 0
      · have hlow : 2 ^ 24 ≤ info.chipsize := hwell.chipsize_low
        have hfits : ¬info.chipsize < sectorCount4K * size4K :=
          Nat.not_lt.mpr (le_trans (by decide) hlow)
        have huniform : decide (ans.cr3v &&& sectorArchMask ≠ 0) = false := by simp [hhybrid]
        obtain ⟨ret₁, small, hbottom, -, -, hsmall⟩ := bottom_returns ans spiop hwell
        obtain ⟨rfl, hfields⟩ := hsmall hready hhybrid
        obtain ⟨fuel, ret, new, hrun, -, -, hmap⟩ := sfcCoreRegErase_returns ans small hwell hop
        refine ⟨fuel, ret, small ++ new, ?_, ?_⟩
        · rw [hisfcRegErase, if_neg hallowed, if_pos hprobe, sfcCoreSpansionfsxxErase,
            if_pos hrange, hbottom]
          exact hrun
        · rw [SfcController.regErase, if_pos hgeometry, SfcController.coreSpansionfsxxErase,
            if_pos ⟨hfirst.1, hfirst.2, huniform⟩, if_neg hfits, List.map_append, List.map_append,
            hmap hready, hfields]
      · refine ⟨fuel, ret, new, ?_, ?_⟩
        · rw [hisfcRegErase, if_neg hallowed, if_pos hprobe, sfcCoreSpansionfsxxErase,
            if_pos hrange, sfcCoreSpansionfsxxBottom4KErase, if_neg hhybrid]
          exact hrun
        · rw [SfcController.regErase, if_pos hgeometry, SfcController.coreSpansionfsxxErase,
            if_neg (by simp [hhybrid])]
          exact hmap hready
    · refine ⟨fuel, ret, new, ?_, ?_⟩
      · have hrange : ¬(addr = 0 ∧ (probe info spiop).erasesize ≤ len) := hfirst
        rw [hisfcRegErase, if_neg hallowed, if_pos hprobe, sfcCoreSpansionfsxxErase,
          if_neg hrange]
        exact hrun
      · rw [SfcController.regErase, if_pos hgeometry, SfcController.coreSpansionfsxxErase,
          if_neg fun h => hfirst ⟨h.1, h.2.1⟩]
        exact hmap hready
  · refine ⟨fuel, ret, new, ?_, ?_⟩
    · have hprobe : ¬(probe info spiop).driver.eraseProcess = true := hprocess
      rw [hisfcRegErase, if_neg hallowed, if_neg hprobe]
      exact hrun
    · have hgeometry : ¬(geometry info spiop hwell).hybrid = true := hprocess
      rw [SfcController.regErase, if_neg hgeometry]
      exact hmap hready

end Call

/-- The erase of a flash of the table. -/
theorem hisfcRegErase_exact {info : SpiInfo} (hinfo : info ∈ hisfcSpiInfoTable) (ans : Answers)
    (spiop : SpiOperation) (addr len : ℕ) :
    EraseCorrect ans (probe info spiop) addr len ↔
      (sfcCoreCheckAddrLen (probe info spiop) addr len = 0 → info.HasErase) ∧
      ¬(ErasesFirst ans (probe info spiop) addr len ∧ Refused (probe info spiop) addr len) :=
  eraseCorrect_iff (hisfcSpiInfoTable_wellFormed info hinfo)

def emptySpiOperation : SpiOperation := ⟨0, 0, 0, 0, 0⟩

def hybridAnswers : Answers := ⟨0, fun _ => true, 0, 0⟩

def s25fs512s : SpiInfo :=
  ⟨"S25FS512S", [0x01, 0x02, 0x20, 0x4d, 0x00, 0x81], size64M, size256K,
    [eraseSectorS25256K 133], .s25fs512s⟩

def s25fl129p0 : SpiInfo :=
  ⟨"S25FL129P0", [0x01, 0x20, 0x18, 0x4d, 0x00], size16M, size256K, [eraseSector64K 104], .general⟩

theorem hisfcRegErase_exact_fs512s :
    s25fs512s ∈ hisfcSpiInfoTable ∧
      EraseCorrect hybridAnswers (probe s25fs512s emptySpiOperation) 0 size256K := by
  have hmem : s25fs512s ∈ hisfcSpiInfoTable := by decide
  refine ⟨hmem, (hisfcRegErase_exact hmem _ _ _ _).mpr ⟨fun _ => by decide, fun h => ?_⟩⟩
  exact h.2.1 (by decide)

/-- A length that is not a multiple of the sector is refused after eight small sectors were
erased, and for one flash of the table an erase of one sector does not end. -/
theorem hisfcRegErase_refused_erases :
    sfcSpiSerachIds hisfcSpiInfoTable [0x01, 0x02, 0x20, 0x4d, 0x00, 0x81, 0, 0] =
        some s25fs512s ∧
      hisfcRegErase 1 hybridAnswers (probe s25fs512s emptySpiOperation) 0 0x50000 =
        some (-Sfc.einval,
          (List.range sectorCount4K).map fun i => ⟨spiCmdSe4K, size4K * i, size4K⟩) ∧
      ¬EraseCorrect hybridAnswers (probe s25fs512s emptySpiOperation) 0 0x50000 ∧
      sfcSpiSerachIds hisfcSpiInfoTable [0x01, 0x20, 0x18, 0x4d, 0x00, 0, 0, 0] =
        some s25fl129p0 ∧
      (∀ fuel, hisfcRegErase fuel hybridAnswers (probe s25fl129p0 emptySpiOperation) 0
        size256K = none) ∧
      ¬EraseCorrect hybridAnswers (probe s25fl129p0 emptySpiOperation) 0 size256K := by
  have hfs : s25fs512s.WellFormed := by decide
  have hfl : s25fl129p0.WellFormed := by decide
  refine ⟨by decide, by decide, fun h => ?_, by decide, fun fuel => ?_, fun h => ?_⟩
  · obtain ⟨-, hfirst⟩ := (eraseCorrect_iff hfs).mp h
    exact hfirst ⟨⟨rfl, rfl, by decide, rfl, rfl, by decide⟩, by decide, by decide⟩
  · have hcheck : sfcCoreCheckAddrLen (probe s25fl129p0 emptySpiOperation) 0 size256K = 0 := by
      decide
    have hsize : (probe s25fl129p0 emptySpiOperation).erase.size = 0 := by decide
    have hready (n : ℕ) : hybridAnswers.waitReady n = true := rfl
    have hrun :=
      regEraseLoop_endless [] 0 hsize hready (show 0 < size256K by decide) (by decide) fuel
    rw [hisfcRegErase, if_neg (by decide), if_neg (by decide), sfcCoreRegErase,
      if_neg (not_not.mpr hcheck)]
    exact hrun
  · obtain ⟨hop, -⟩ := (eraseCorrect_iff hfl).mp h
    exact absurd (hop (by decide)) (by decide)

end HiMpu.SfcErase
