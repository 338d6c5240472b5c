import HiMpu.ByteMemory

/-!
# Registers with write-one-to-clear bits

A register space is a memory together with a mask of status bits.  A write
replaces the ordinary bits and clears the status bits that are written as one.
Writing a byte back as it was read therefore changes nothing exactly when no
status bit of it is pending.
-/

namespace HiMpu

/-- One byte of a register space, `status` being its write-one-to-clear bits. -/
def clearByte (status old new : UInt8) : UInt8 :=
  (new &&& ~~~status) ||| (old &&& status &&& ~~~new)

theorem clearByte_ordinary (old new : UInt8) : clearByte 0 old new = new := by
  apply UInt8.toBitVec_inj.mp
  ext i hi
  simp [clearByte]

theorem clearByte_self_iff (status old : UInt8) :
    clearByte status old old = old ↔ old &&& status = 0 := by
  rw [← UInt8.toBitVec_inj, ← UInt8.toBitVec_inj]
  constructor
  · intro heq
    ext i hi
    have hbit := congrArg (fun x : BitVec 8 => x[i]) heq
    simp only [clearByte, UInt8.toBitVec_or, UInt8.toBitVec_and, UInt8.toBitVec_not,
      BitVec.getElem_or, BitVec.getElem_and, BitVec.getElem_not] at hbit
    simp only [UInt8.toBitVec_and, BitVec.getElem_and]
    cases hold : old.toBitVec[i] <;> cases hstatus : status.toBitVec[i] <;>
      simp [hold, hstatus] at hbit ⊢
  · intro hzero
    ext i hi
    have hbit := congrArg (fun x : BitVec 8 => x[i]) hzero
    simp only [UInt8.toBitVec_and, BitVec.getElem_and] at hbit
    simp only [clearByte, UInt8.toBitVec_or, UInt8.toBitVec_and, UInt8.toBitVec_not,
      BitVec.getElem_or, BitVec.getElem_and, BitVec.getElem_not]
    cases hold : old.toBitVec[i] <;> cases hstatus : status.toBitVec[i] <;>
      simp [hold, hstatus] at hbit ⊢

namespace Mem

/-- Write the low `n` bytes of `value` to the registers from `addr` on. -/
def storeStatus (status : ℕ → UInt8) (m : Mem) (addr n value : ℕ) : Mem := fun x =>
  if addr ≤ x ∧ x < addr + n then
    clearByte (status x) (m x) (UInt8.ofNat (value / 256 ^ (x - addr)))
  else m x

variable {status : ℕ → UInt8} {m : Mem} {addr n value x : ℕ}

theorem storeStatus_outside (hout : x < addr ∨ addr + n ≤ x) :
    storeStatus status m addr n value x = m x := by
  have hnot : ¬ (addr ≤ x ∧ x < addr + n) := by omega
  simp only [storeStatus, if_neg hnot]

theorem storeStatus_inside (hlow : addr ≤ x) (hhigh : x < addr + n) :
    storeStatus status m addr n value x =
      clearByte (status x) (m x) (UInt8.ofNat (value / 256 ^ (x - addr))) := by
  have hin : addr ≤ x ∧ x < addr + n := ⟨hlow, hhigh⟩
  simp only [storeStatus, if_pos hin]

theorem load_storeStatus (hordinary : ∀ x, addr ≤ x → x < addr + n → status x = 0) :
    load (storeStatus status m addr n value) addr n = value % 256 ^ n := by
  rw [← load_store_same m addr n value]
  apply load_congr
  intro x hlow hhigh
  have hin : addr ≤ x ∧ x < addr + n := ⟨hlow, hhigh⟩
  rw [storeStatus_inside hlow hhigh, hordinary x hlow hhigh, clearByte_ordinary]
  simp only [store, if_pos hin]

theorem ofNat_load_div {i : ℕ} (hi : i < n) :
    UInt8.ofNat (load m addr n / 256 ^ i) = m (addr + i) := by
  have hsplit := load_add m addr i (n - i)
  have hlow := load_lt m addr i
  have hlen : i + (n - i) = n := by omega
  rw [hlen] at hsplit
  have hdiv : load m addr n / 256 ^ i = load m (addr + i) (n - i) := by
    rw [hsplit, Nat.add_mul_div_left _ _ (by positivity), Nat.div_eq_of_lt hlow, Nat.zero_add]
  obtain ⟨k, hk⟩ : ∃ k, n - i = k + 1 := ⟨n - i - 1, by omega⟩
  rw [hdiv, hk]
  apply UInt8.toNat_inj.mp
  simp only [load, UInt8.toNat_ofNat']
  have hbyte := UInt8.toNat_lt (m (addr + i))
  omega

theorem load_div_mod (m : Mem) (addr i k n : ℕ) (hfit : i + k ≤ n) :
    load m addr n / 256 ^ i % 256 ^ k = load m (addr + i) k := by
  obtain ⟨rest, rfl⟩ : ∃ rest, n = i + (k + rest) := ⟨n - i - k, by omega⟩
  have hlow := load_lt m addr i
  have hmid := load_lt m (addr + i) k
  rw [load_add, Nat.add_mul_div_left _ _ (by positivity), Nat.div_eq_of_lt hlow, Nat.zero_add,
    load_add, Nat.add_mul_mod_self_left, Nat.mod_eq_of_lt hmid]

end Mem

end HiMpu
