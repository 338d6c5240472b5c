import Mathlib.Tactic

/-!
# The block protection of the MT25QU

`sfc_spi_mt25qu_block_lock` protects the first sectors of the chip, as many as a power of
two.  Four bits of the status register hold the power plus one.  The driver means to set
the highest of them, bit 6, but shifts it to bit 9 of the word, of which a byte is written.
-/

namespace HiMpu.SfcBlockLock

def einval : ℤ := 22
def size64K : ℕ := 0x10000
def maxSecPow : ℕ := 0xf
def mt25quBpMask : BitVec 32 := 0x5c
def mtSrBp0 : BitVec 32 := 1 <<< 2
def mtSrBp1 : BitVec 32 := 1 <<< 3
def mtSrBp2 : BitVec 32 := 1 <<< 4
def mtSrBp3 : BitVec 32 := 1 <<< 6
def mtSrTb : BitVec 32 := 1 <<< 5
def mtSrBp : BitVec 32 := mtSrBp3 ||| mtSrBp2 ||| mtSrBp1 ||| mtSrBp0

def statusNew (statusOld : BitVec 32) (objPow : ℕ) : BitVec 32 :=
  let bp4val := BitVec.ofNat 32 (objPow + 1)
  let statusNew := statusOld &&& ~~~mt25quBpMask
  let statusNew := statusNew ||| (bp4val &&& 0x7) <<< 2
  let statusNew := statusNew ||| (bp4val &&& 0x8) <<< 6
  statusNew ||| mtSrTb

/-- The result and the status register of the flash after the call.  `wret` is the result of
`sfc_core_write_reg_by_cmd`, which writes the lowest byte; the read before it succeeds. -/
def mt25quBlockStaPro (wret : ℤ) (status : BitVec 8) (objPow : ℕ) : ℤ × BitVec 8 :=
  let statusOld := status.setWidth 32
  let new := statusNew statusOld objPow
  if new &&& mtSrBp > statusOld &&& mtSrBp then
    if wret ≠ 0 then (wret, status) else (0, new.setWidth 8)
  else
    (0, status)

/-- The search for the power, `remaining` turns before its end: the power, 0 where the count
is larger than all that were tried, or nothing for a count that is no power. -/
def searchPow (secCnt : ℕ) : ℕ → ℕ → Option ℕ
  | 0, _ => some 0
  | remaining + 1, pow =>
    if 2 ^ pow = secCnt then some pow
    else if 2 ^ pow > secCnt then none
    else searchPow secCnt remaining (pow + 1)

def maxSec (chipsize : BitVec 64) : ℕ :=
  chipsize.toNat / size64K % 2 ^ 32

def mt25quBlockLock (wret : ℤ) (chipsize : BitVec 64) (status : BitVec 8)
    (proSecCnt : BitVec 32) : ℤ × BitVec 8 :=
  if proSecCnt.toNat > maxSec chipsize then
    (-einval, status)
  else
    match searchPow proSecCnt.toNat maxSecPow 0 with
    | none => (-einval, status)
    | some objPow => mt25quBlockStaPro wret status objPow

def sectors (chipsize : BitVec 64) : ℕ :=
  chipsize.toNat / size64K

/-- The number in BP3 (bit 6) and BP2 to BP0 (bits 4 to 2). -/
def level (status : BitVec 8) : ℕ :=
  status.toNat / 64 % 2 * 8 + status.toNat / 4 % 8

/-- The number of sectors, from the bottom of a chip of `n`, that a level protects. -/
def region (n level : ℕ) : ℕ :=
  if level = 0 then 0 else min (2 ^ (level - 1)) n

def protectedSectors (chipsize : BitVec 64) (status : BitVec 8) : ℕ :=
  region (sectors chipsize) (level status)

def Allowed (chipsize : BitVec 64) (proSecCnt : BitVec 32) : Prop :=
  (∃ k, proSecCnt.toNat = 2 ^ k) ∧ proSecCnt.toNat ≤ sectors chipsize

/-- A count that is not allowed is rejected and changes nothing; otherwise, and with the
write done, the count and what was protected before are protected. -/
def Exact (chipsize : BitVec 64) (status : BitVec 8) (proSecCnt : BitVec 32) : Prop :=
  ∀ wret, (¬Allowed chipsize proSecCnt →
      mt25quBlockLock wret chipsize status proSecCnt = (-einval, status)) ∧
    (wret = 0 → (mt25quBlockLock wret chipsize status proSecCnt).1 = 0 →
      proSecCnt.toNat ≤
          protectedSectors chipsize (mt25quBlockLock wret chipsize status proSecCnt).2 ∧
        protectedSectors chipsize status ≤
          protectedSectors chipsize (mt25quBlockLock wret chipsize status proSecCnt).2)

theorem region_mono {n a b : ℕ} (h : a ≤ b) : region n a ≤ region n b := by
  unfold region
  by_cases ha : a = 0
  · rw [if_pos ha]
    exact Nat.zero_le _
  · have hb : b ≠ 0 := by omega
    rw [if_neg ha, if_neg hb]
    exact min_le_min_right n (Nat.pow_le_pow_right (by omega) (by omega))

theorem level_lt (status : BitVec 8) : level status < 16 := by
  unfold level
  omega

theorem level_statusNew : ∀ (status : BitVec 8) (objPow : Fin 15),
    level ((statusNew (status.setWidth 32) objPow).setWidth 8) = (objPow + 1) % 8 := by
  decide +kernel

theorem bp_gt_iff : ∀ (status : BitVec 8) (objPow : Fin 15),
    statusNew (status.setWidth 32) objPow &&& mtSrBp > status.setWidth 32 &&& mtSrBp ↔
      level status < (objPow + 1) % 8 := by
  decide +kernel

theorem searchPow_pow {k remaining pow : ℕ} (hle : pow ≤ k) (hlt : k < pow + remaining) :
    searchPow (2 ^ k) remaining pow = some k := by
  induction remaining generalizing pow with
  | zero => omega
  | succ remaining ih =>
    rw [searchPow]
    rcases Nat.eq_or_lt_of_le hle with rfl | hbelow
    · rw [if_pos rfl]
    · have hpow : 2 ^ pow < 2 ^ k := Nat.pow_lt_pow_right (by omega) hbelow
      rw [if_neg hpow.ne, if_neg hpow.not_gt]
      exact ih hbelow (by omega)

theorem searchPow_none {secCnt remaining pow : ℕ} (hpow : ∀ k, secCnt ≠ 2 ^ k)
    (hlt : secCnt < 2 ^ (pow + remaining)) : searchPow secCnt (remaining + 1) pow = none := by
  induction remaining generalizing pow with
  | zero =>
    have habove : 2 ^ pow > secCnt := hlt
    rw [searchPow, if_neg (hpow pow).symm, if_pos habove]
  | succ remaining ih =>
    rw [searchPow, if_neg (hpow pow).symm]
    split
    · rfl
    · exact ih (by rwa [Nat.add_right_comm, Nat.add_assoc])

theorem searchPow_above {secCnt remaining pow : ℕ}
    (h : ∀ k < pow + remaining, 2 ^ k < secCnt) : searchPow secCnt remaining pow = some 0 := by
  induction remaining generalizing pow with
  | zero => rfl
  | succ remaining ih =>
    have hpow := h pow (by omega)
    rw [searchPow, if_neg hpow.ne, if_neg hpow.not_gt]
    exact ih fun k hk => h k (by omega)

theorem searchPow_lt {secCnt remaining pow k : ℕ}
    (h : searchPow secCnt remaining pow = some k) (hpos : 0 < pow + remaining) :
    k < pow + remaining := by
  induction remaining generalizing pow with
  | zero =>
    cases h
    exact hpos
  | succ remaining ih =>
    rw [searchPow] at h
    split at h
    · cases h
      omega
    · split at h
      · cases h
      · have hk := ih h (by omega)
        omega

theorem staPro_cases (wret : ℤ) (status : BitVec 8) {objPow : ℕ} (h : objPow < 15) :
    mt25quBlockStaPro wret status objPow = (0, status) ∧ (objPow + 1) % 8 ≤ level status ∨
      level status < (objPow + 1) % 8 ∧
        (wret ≠ 0 ∧ mt25quBlockStaPro wret status objPow = (wret, status) ∨
          ∃ new, wret = 0 ∧ mt25quBlockStaPro wret status objPow = (0, new) ∧
            level new = (objPow + 1) % 8) := by
  have hgt := bp_gt_iff status ⟨objPow, h⟩
  have hnew := level_statusNew status ⟨objPow, h⟩
  simp only at hgt hnew
  by_cases hlevel : level status < (objPow + 1) % 8
  · right
    refine ⟨hlevel, ?_⟩
    have hwrite := hgt.mpr hlevel
    by_cases hret : wret = 0
    · right
      refine ⟨(statusNew (status.setWidth 32) objPow).setWidth 8, hret, ?_, hnew⟩
      simp only [mt25quBlockStaPro, if_pos hwrite, if_neg (not_not.mpr hret)]
    · left
      refine ⟨hret, ?_⟩
      simp only [mt25quBlockStaPro, if_pos hwrite, if_pos hret]
  · left
    refine ⟨?_, Nat.le_of_not_lt hlevel⟩
    simp only [mt25quBlockStaPro, if_neg (mt hgt.mp hlevel)]

theorem level_le_blockLock (wret : ℤ) (chipsize : BitVec 64) (status : BitVec 8)
    (proSecCnt : BitVec 32) :
    level status ≤ level (mt25quBlockLock wret chipsize status proSecCnt).2 := by
  unfold mt25quBlockLock
  split
  · exact le_rfl
  · cases hsearch : searchPow proSecCnt.toNat maxSecPow 0 with
    | none => exact le_rfl
    | some objPow =>
      have hlt := searchPow_lt hsearch (by decide)
      rcases staPro_cases wret status hlt with
        ⟨hsame, -⟩ | ⟨hlevel, ⟨-, hsame⟩ | ⟨new, -, hsame, hnew⟩⟩
      · simp only [hsame, le_rfl]
      · simp only [hsame, le_rfl]
      · simp only [hsame, hnew]
        exact hlevel.le

def run (chipsize : BitVec 64) (status : BitVec 8) (calls : List (ℤ × BitVec 32)) : BitVec 8 :=
  calls.foldl (fun status call => (mt25quBlockLock call.1 chipsize status call.2).2) status

theorem level_le_run (chipsize : BitVec 64) (status : BitVec 8)
    (calls : List (ℤ × BitVec 32)) : level status ≤ level (run chipsize status calls) := by
  induction calls generalizing status with
  | nil => exact le_rfl
  | cons call calls ih =>
    calc level status
        ≤ level (mt25quBlockLock call.1 chipsize status call.2).2 :=
          level_le_blockLock call.1 chipsize status call.2
      _ ≤ level (run chipsize status (call :: calls)) := ih _

theorem protectedSectors_mono {chipsize : BitVec 64} {status status' : BitVec 8}
    (h : level status ≤ level status') :
    protectedSectors chipsize status ≤ protectedSectors chipsize status' :=
  region_mono h

theorem protectedSectors_ge_iff {chipsize : BitVec 64} {status : BitVec 8} {k : ℕ}
    (h : 2 ^ k ≤ sectors chipsize) :
    2 ^ k ≤ protectedSectors chipsize status ↔ k < level status := by
  unfold protectedSectors region
  have hpos : 0 < 2 ^ k := Nat.two_pow_pos k
  by_cases hzero : level status = 0
  · rw [if_pos hzero]
    omega
  · rw [if_neg hzero, le_min_iff, and_iff_left h, Nat.pow_le_pow_iff_right (by omega)]
    omega

theorem maxSec_le_sectors (chipsize : BitVec 64) : maxSec chipsize ≤ sectors chipsize :=
  Nat.mod_le _ _

theorem blockLock_of_search {wret : ℤ} {chipsize : BitVec 64} {status : BitVec 8}
    {proSecCnt : BitVec 32} {objPow : ℕ} (hle : proSecCnt.toNat ≤ maxSec chipsize)
    (h : searchPow proSecCnt.toNat maxSecPow 0 = some objPow) :
    mt25quBlockLock wret chipsize status proSecCnt = mt25quBlockStaPro wret status objPow := by
  rw [mt25quBlockLock, if_neg (not_lt.mpr hle), h]

theorem blockLock_rejects {chipsize : BitVec 64} {proSecCnt : BitVec 32}
    (h : maxSec chipsize < proSecCnt.toNat ∨
      proSecCnt.toNat ≤ 2 ^ 14 ∧ ∀ k, proSecCnt.toNat ≠ 2 ^ k)
    (wret : ℤ) (status : BitVec 8) :
    mt25quBlockLock wret chipsize status proSecCnt = (-einval, status) := by
  rcases h with hlarge | ⟨hle, hpow⟩
  · rw [mt25quBlockLock, if_pos hlarge]
  · have hlt : proSecCnt.toNat < 2 ^ (0 + 14) := by
      have hne := hpow 14
      omega
    rw [mt25quBlockLock]
    split
    · rfl
    · rw [maxSecPow, searchPow_none hpow hlt]

theorem Exact.of_rejects {chipsize : BitVec 64} {status : BitVec 8} {proSecCnt : BitVec 32}
    (h : maxSec chipsize < proSecCnt.toNat ∨
      proSecCnt.toNat ≤ 2 ^ 14 ∧ ∀ k, proSecCnt.toNat ≠ 2 ^ k) :
    Exact chipsize status proSecCnt := by
  intro wret
  rw [blockLock_rejects h]
  exact ⟨fun _ => rfl, fun _ hzero => absurd hzero (by simp [einval])⟩

theorem Exact.of_pow {chipsize : BitVec 64} {status : BitVec 8} {proSecCnt : BitVec 32} {k : ℕ}
    (hpow : proSecCnt.toNat = 2 ^ k) (hk : k < 15) (hle : proSecCnt.toNat ≤ maxSec chipsize)
    (henough : k < 7 ∨ k < level status) : Exact chipsize status proSecCnt := by
  have hsectors : 2 ^ k ≤ sectors chipsize := by
    rw [← hpow]
    exact hle.trans (maxSec_le_sectors chipsize)
  have hsearch : searchPow proSecCnt.toNat maxSecPow 0 = some k := by
    rw [hpow]
    exact searchPow_pow (Nat.zero_le k) (by simpa [maxSecPow] using hk)
  intro wret
  refine ⟨fun hnot => absurd ⟨⟨k, hpow⟩, hpow ▸ hsectors⟩ hnot, fun hwret _ => ?_⟩
  refine ⟨?_, protectedSectors_mono (level_le_blockLock wret chipsize status proSecCnt)⟩
  rw [hpow, protectedSectors_ge_iff hsectors, blockLock_of_search hle hsearch]
  rcases staPro_cases wret status hk with
    ⟨hsame, hge⟩ | ⟨hlevel, ⟨hne, -⟩ | ⟨new, -, hsame, hnew⟩⟩
  · simp only [hsame]
    omega
  · exact absurd hwret hne
  · simp only [hsame, hnew]
    omega

/-- The call does what it should when it rejects the count, when the level fits in three
bits and when all was protected before, and then only.  No run of calls takes protection
away. -/
theorem blockLock_exact (chipsize : BitVec 64) (status : BitVec 8) (proSecCnt : BitVec 32) :
    (Exact chipsize status proSecCnt ↔
      (maxSec chipsize < proSecCnt.toNat ∨
          proSecCnt.toNat ≤ 2 ^ 14 ∧ ∀ k, proSecCnt.toNat ≠ 2 ^ k) ∨
        proSecCnt.toNat ≤ 64 ∨ proSecCnt.toNat ≤ protectedSectors chipsize status) ∧
      ∀ calls, protectedSectors chipsize status ≤
        protectedSectors chipsize (run chipsize status calls) := by
  refine ⟨?_, fun calls => protectedSectors_mono (level_le_run chipsize status calls)⟩
  have hmost : ∀ status, protectedSectors chipsize status ≤ 2 ^ 14 := by
    intro status
    have hlt := level_lt status
    unfold protectedSectors region
    split
    · exact Nat.zero_le _
    · exact (min_le_left _ _).trans (Nat.pow_le_pow_right (by omega) (by omega))
  by_cases hrejects : maxSec chipsize < proSecCnt.toNat ∨
      proSecCnt.toNat ≤ 2 ^ 14 ∧ ∀ k, proSecCnt.toNat ≠ 2 ^ k
  · exact ⟨fun _ => .inl hrejects, fun _ => .of_rejects hrejects⟩
  · rw [or_iff_right hrejects]
    push Not at hrejects
    obtain ⟨hle, hpow⟩ := hrejects
    have hsectors := hle.trans (maxSec_le_sectors chipsize)
    constructor
    · intro hexact
      by_contra hnot
      push Not at hnot
      obtain ⟨hsmall, huncovered⟩ := hnot
      by_cases hlarge : proSecCnt.toNat ≤ 2 ^ 14
      · obtain ⟨k, hk⟩ := hpow hlarge
        have hk7 : 6 < k := (Nat.pow_lt_pow_iff_right (by omega : 1 < 2)).mp (hk ▸ hsmall)
        have hk14 : k ≤ 14 := (Nat.pow_le_pow_iff_right (by omega : 1 < 2)).mp (hk ▸ hlarge)
        have hsearch : searchPow proSecCnt.toNat maxSecPow 0 = some k := by
          rw [hk]
          exact searchPow_pow (Nat.zero_le k) (by simp only [maxSecPow]; omega)
        have hcovers := (hexact 0).2 rfl
        rw [blockLock_of_search hle hsearch] at hcovers
        rcases staPro_cases 0 status (by omega : k < 15) with
          ⟨hsame, -⟩ | ⟨-, ⟨hne, -⟩ | ⟨new, -, hsame, hnew⟩⟩
        · rw [hsame] at hcovers
          exact absurd (hcovers rfl).1 (not_le.mpr huncovered)
        · exact hne rfl
        · rw [hsame] at hcovers
          have hge := (hcovers rfl).1
          rw [hk, protectedSectors_ge_iff (hk ▸ hsectors), hnew] at hge
          omega
      · -- the count is beyond the search and is taken for one sector
        have hsearch : searchPow proSecCnt.toNat maxSecPow 0 = some 0 := by
          refine searchPow_above fun j hj => ?_
          simp only [maxSecPow] at hj
          have hj14 : 2 ^ j ≤ 2 ^ 14 := Nat.pow_le_pow_right (by omega) (by omega)
          omega
        have hret : (mt25quBlockLock 0 chipsize status proSecCnt).1 = 0 := by
          rw [blockLock_of_search hle hsearch]
          rcases staPro_cases 0 status (by omega : 0 < 15) with
            ⟨hsame, -⟩ | ⟨-, ⟨hne, -⟩ | ⟨new, -, hsame, -⟩⟩
          · rw [hsame]
          · exact absurd rfl hne
          · rw [hsame]
        have hcovers := ((hexact 0).2 rfl hret).1
        exact hlarge (hcovers.trans (hmost _))
    · intro hok
      rcases Nat.lt_or_ge (2 ^ 14) proSecCnt.toNat with hlarge | hlarge
      · have hcovered := hmost status
        omega
      · obtain ⟨k, hk⟩ := hpow hlarge
        have hk14 : k ≤ 14 := (Nat.pow_le_pow_iff_right (by omega : 1 < 2)).mp (hk ▸ hlarge)
        refine .of_pow hk (by omega) hle ?_
        rcases hok with hsmall | hcovered
        · left
          have hk6 : k ≤ 6 := (Nat.pow_le_pow_iff_right (by omega : 1 < 2)).mp (hk ▸ hsmall)
          omega
        · right
          rw [hk] at hcovered
          exact (protectedSectors_ge_iff (hk ▸ hsectors)).mp hcovered

/-- 128 sectors of a chip of 256: the call succeeds and nothing is protected. -/
theorem blockLock_misses :
    ¬∀ (chipsize : BitVec 64) (status : BitVec 8) (proSecCnt : BitVec 32),
      Exact chipsize status proSecCnt := by
  intro hall
  have hcovers := ((hall 0x1000000 0 128 0).2 rfl (by decide)).1
  revert hcovers
  decide

end HiMpu.SfcBlockLock
