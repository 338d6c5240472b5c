import HiMpu.FscMemModel

/-!
# Size classes and the bin bitmap

`FSC_MEM_SZ2IDX` is the integer logarithm, and the masked `bm_get_bits` of the
search finds the lowest bin at or above an index whose bitmap bit is set.
-/

namespace HiMpu.FscMem

theorem highestSetBit_eq_log (value n : ℕ) :
    highestSetBit value n = Nat.log 2 (value % 2 ^ n) := by
  induction n with
  | zero => simp [highestSetBit, Nat.mod_one]
  | succ n ih =>
    rw [highestSetBit, Nat.mod_pow_succ, ← Nat.toNat_testBit]
    have hlow : value % 2 ^ n < 2 ^ n := Nat.mod_lt _ (by positivity)
    cases hbit : value.testBit n with
    | false => simp [ih]
    | true =>
      simp only [if_true, Bool.toNat_true, mul_one]
      symm
      apply Nat.log_eq_of_pow_le_of_lt_pow
      · omega
      · rw [pow_succ]
        omega

theorem fscMemSz2idx_eq_log {size : ℕ} (hsize : size < 2 ^ 32) :
    fscMemSz2idx size = Nat.log 2 size := by
  have hlog : Nat.log 2 size < 32 := by
    rcases Nat.eq_zero_or_pos size with rfl | hpos
    · simp
    · exact Nat.log_lt_of_lt_pow (by omega) hsize
  unfold fscMemSz2idx bmGetBits
  rw [highestSetBit_eq_log, Nat.mod_mod, Nat.mod_eq_of_lt hsize]
  omega

theorem highestSetBit_above {value n k : ℕ}
    (hlow : highestSetBit value n < k) (hhigh : k < n) : value.testBit k = false := by
  induction n with
  | zero => omega
  | succ n ih =>
    rw [highestSetBit] at hlow
    cases hbit : value.testBit n with
    | false =>
      rw [hbit] at hlow
      rcases Nat.lt_succ_iff_lt_or_eq.mp hhigh with hlt | rfl
      · exact ih (by simpa using hlow) hlt
      · exact hbit
    | true =>
      rw [hbit] at hlow
      simp only [if_true] at hlow
      omega

theorem highestSetBit_le (value n : ℕ) : highestSetBit value n ≤ n - 1 := by
  induction n with
  | zero => simp [highestSetBit]
  | succ n ih =>
    rw [highestSetBit]
    split <;> omega

theorem testBit_highestSetBit {value n : ℕ} (hpos : highestSetBit value n ≠ 0) :
    value.testBit (highestSetBit value n) = true := by
  induction n with
  | zero => simp [highestSetBit] at hpos
  | succ n ih =>
    rw [highestSetBit] at hpos ⊢
    cases hbit : value.testBit n with
    | false =>
      rw [hbit] at hpos
      simpa [hbit] using ih (by simpa using hpos)
    | true => simp [hbit]

theorem testBit_dropBelow (bitAmp idx k : ℕ) :
    (dropBelow bitAmp idx).testBit k = (decide (k + idx < 32) && bitAmp.testBit k) := by
  unfold dropBelow
  rw [Nat.testBit_shiftRight, Nat.testBit_mod_two_pow, Nat.testBit_shiftLeft]
  simp [Nat.add_comm]

theorem bmGetBits_dropBelow {bitAmp idx bin : ℕ}
    (hbin : bmGetBits (dropBelow bitAmp idx) = bin) (hlt : bin < 31) :
    idx ≤ bin ∧ bitAmp.testBit (31 - bin) = true := by
  unfold bmGetBits at hbin
  have hle := highestSetBit_le (dropBelow bitAmp idx) 32
  have hpos : highestSetBit (dropBelow bitAmp idx) 32 ≠ 0 := by omega
  have hset := testBit_highestSetBit hpos
  have heq : highestSetBit (dropBelow bitAmp idx) 32 = 31 - bin := by omega
  rw [heq, testBit_dropBelow] at hset
  simp only [Bool.and_eq_true, decide_eq_true_eq] at hset
  exact ⟨by omega, hset.2⟩

theorem fscMemIdx2bit_eq {idx : ℕ} (hidx : idx ≤ 31) : fscMemIdx2bit idx = 2 ^ (31 - idx) := by
  unfold fscMemIdx2bit
  rw [Nat.shiftRight_eq_div_pow, show 0x80000000 = 2 ^ 31 by norm_num, Nat.pow_div hidx (by omega)]

theorem testBit_setBin (bitAmp : ℕ) {idx : ℕ} (hidx : idx ≤ 31) (k : ℕ) :
    (bitAmp ||| fscMemIdx2bit idx).testBit k = (bitAmp.testBit k || decide (k = 31 - idx)) := by
  rw [Nat.testBit_or, fscMemIdx2bit_eq hidx, Nat.testBit_two_pow]
  simp [eq_comm]

theorem testBit_clearBin (bitAmp : ℕ) {idx : ℕ} (hidx : idx ≤ 31) (k : ℕ) :
    (bitAmp &&& (2 ^ 32 - 1 - fscMemIdx2bit idx)).testBit k =
      (bitAmp.testBit k && (decide (k < 32) && decide (k ≠ 31 - idx))) := by
  have hlt : (2 : ℕ) ^ (31 - idx) < 2 ^ 32 := Nat.pow_lt_pow_right (by omega) (by omega)
  rw [Nat.testBit_and, fscMemIdx2bit_eq hidx,
    show 2 ^ 32 - 1 - 2 ^ (31 - idx) = 2 ^ 32 - (2 ^ (31 - idx) + 1) by omega,
    Nat.testBit_two_pow_sub_succ hlt, Nat.testBit_two_pow]
  congr 2
  simp [eq_comm]

end HiMpu.FscMem
