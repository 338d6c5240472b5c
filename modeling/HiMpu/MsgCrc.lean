import HiMpu.Crc
import HiMpu.MsgScm3

/-!
# The checksum of the messages

`dal_cal_crc16` takes a byte at a time through two tables of half words.  The
tables hold eight shifts of the register, so that the loop is the division by
`x^16 + x^12 + x^5 + 1`, and an error in at most 16 consecutive bits changes the
checksum.
-/

namespace HiMpu.MsgScm3

open Polynomial

def crcLoop (pData : ℕ → UInt8) : ℕ → ℕ → UInt8 × UInt8 → UInt8 × UInt8
  | _, 0, crc => crc
  | i, length + 1, crc => crcLoop pData (i + 1) length (crcStep crc (pData i))

/-- `dal_cal_crc16` with its check: the pointers are `none` where they are `NULL`, and the result is
what `crc` points to afterwards. -/
def dalCalCrc16Into (pData : Option (ℕ → UInt8)) (length : UInt16) (crc : Option ℕ) : Option ℕ :=
  match pData, crc with
  | some pData, some crc =>
    if length = 0 then some crc else some (crcValue (crcLoop pData 0 length.toNat crcInit))
  | _, crc => crc

def message (pData : ℕ → UInt8) (length : UInt16) : List UInt8 :=
  (List.range length.toNat).map pData

theorem crcLoop_eq (pData : ℕ → UInt8) (i length : ℕ) (crc : UInt8 × UInt8) :
    crcLoop pData i length crc = ((List.range' i length).map pData).foldl crcStep crc := by
  induction length generalizing i crc with
  | zero => rfl
  | succ length ih =>
    rw [List.range'_succ, List.map_cons, List.foldl_cons]
    exact ih (i + 1) _

theorem dalCalCrc16Into_eq {pData : ℕ → UInt8} {length : UInt16} (hlen : length ≠ 0) (crc : ℕ) :
    dalCalCrc16Into (some pData) length (some crc) = some (dalCalCrc16 (message pData length)) := by
  unfold dalCalCrc16Into dalCalCrc16 message
  simp only [if_neg hlen, crcLoop_eq, List.range_eq_range']

/-- `x^12 + x^5 + 1` below `x^16`. -/
def crc16Generator : BitVec 16 := 0x1021

def byteBits (byte : UInt8) : List Bool := Crc.bitsOf byte.toBitVec

/-- The checksum bit by bit, high bit first, from `0xFFFF` and with no final inversion. -/
def crc16 (bits : List Bool) : BitVec 16 := Crc.run crc16Generator 0xFFFF bits

def crcWord (crc : UInt8 × UInt8) : BitVec 16 := crc.1.toBitVec ++ crc.2.toBitVec

theorem crcWord_toNat (crc : UInt8 × UInt8) : (crcWord crc).toNat = crcValue crc := by
  have hlow : crc.2.toBitVec.toNat < 2 ^ 8 := crc.2.toBitVec.isLt
  unfold crcWord crcValue
  rw [BitVec.toNat_append, Nat.shiftLeft_eq, ← Nat.mul_comm (2 ^ 8),
    ← Nat.two_pow_add_eq_or_of_lt hlow]
  simp only [UInt8.toNat_toBitVec]
  omega

theorem tables_eq : ∀ i : BitVec 8,
    Crc.run crc16Generator (i ++ (0 : BitVec 8)) (List.replicate 8 false) =
      (crcTableLo.getD i.toNat 0).toBitVec ++ (crcTableHi.getD i.toNat 0).toBitVec := by
  decide +kernel

theorem length_byteBits (byte : UInt8) : (byteBits byte).length = 8 := Crc.length_bitsOf _

theorem shiftLeft_append (a b : BitVec 8) : (a ++ b) <<< 8 = b ++ (0 : BitVec 8) := by
  refine BitVec.eq_of_getLsbD_eq fun i hi => ?_
  rw [BitVec.getLsbD_shiftLeft, BitVec.getLsbD_append, BitVec.getLsbD_append]
  by_cases hlow : i < 8
  · simp [hlow]
  · have hsub : i - 8 < 8 := by omega
    simp [hi, hlow, hsub]

theorem append_xor (a b c d : BitVec 8) : (a ++ b) ^^^ (c ++ d) = (a ^^^ c) ++ (b ^^^ d) :=
  BitVec.xor_append

theorem run_byteBits (byte : UInt8) (b : BitVec 8) :
    Crc.run crc16Generator (byte.toBitVec ++ b) (byteBits byte) = b ++ (0 : BitVec 8) := by
  rw [Crc.run_same, length_byteBits, shiftLeft_append]
  · rw [length_byteBits]
    decide
  · intro i hi
    rw [length_byteBits] at hi
    have hget : (byteBits byte).getD i false = byte.toBitVec.getMsbD i := Crc.getD_bitsOf _ hi
    rw [hget, BitVec.getMsbD_append]
    simp [hi]

theorem crcWord_crcStep (crc : UInt8 × UInt8) (byte : UInt8) :
    crcWord (crcStep crc byte) = Crc.run crc16Generator (crcWord crc) (byteBits byte) := by
  have hword : crcWord crc = (crc.1 ^^^ byte).toBitVec ++ (0 : BitVec 8) ^^^
      (byte.toBitVec ++ crc.2.toBitVec) := by
    rw [append_xor, UInt8.toBitVec_xor, BitVec.xor_assoc, BitVec.xor_self]
    unfold crcWord
    simp
  rw [hword, Crc.run_xor, length_byteBits, run_byteBits, tables_eq, append_xor,
    BitVec.xor_comm _ crc.2.toBitVec, show (0 : BitVec 8) = 0#8 from rfl, BitVec.xor_zero]
  rfl

theorem dalCalCrc16_eq (data : List UInt8) :
    dalCalCrc16 data = (crc16 (data.flatMap byteBits)).toNat := by
  have hrun : ∀ crc, crcWord (data.foldl crcStep crc) =
      Crc.run crc16Generator (crcWord crc) (data.flatMap byteBits) := by
    induction data with
    | nil => exact fun _ => rfl
    | cons byte data ih =>
      intro crc
      rw [List.foldl_cons, ih, crcWord_crcStep, List.flatMap_cons, Crc.run_append]
  unfold dalCalCrc16 crc16
  rw [← crcWord_toNat, hrun]
  rfl

theorem generator_crc16 : Crc.generator crc16Generator = X ^ 16 + X ^ 12 + X ^ 5 + 1 := by
  have hbits : ∀ i < 16, crc16Generator.getLsbD i = decide (i = 0 ∨ i = 5 ∨ i = 12) := by decide
  have hsum : Crc.ofBits crc16Generator = X ^ 12 + X ^ 5 + 1 := by
    unfold Crc.ofBits
    have hterm : ∀ i ∈ Finset.range 16, Crc.ofBool (crc16Generator.getLsbD i) * X ^ i =
        if i = 0 ∨ i = 5 ∨ i = 12 then X ^ i else 0 := by
      intro i hi
      rw [hbits i (Finset.mem_range.mp hi)]
      by_cases h : i = 0 ∨ i = 5 ∨ i = 12 <;> simp [Crc.ofBool, h]
    rw [Finset.sum_congr rfl hterm]
    simp [Finset.sum_range_succ]
    ring
  unfold Crc.generator
  rw [hsum]
  ring

def Burst (data data' : List UInt8) : Prop :=
  ∃ start, ∀ i, (data.flatMap byteBits).getD i false ≠ (data'.flatMap byteBits).getD i false →
    start ≤ i ∧ i < start + 16

theorem length_flatMap_byteBits (data : List UInt8) :
    (data.flatMap byteBits).length = 8 * data.length := by
  induction data with
  | nil => rfl
  | cons byte data ih =>
    rw [List.flatMap_cons, List.length_append, ih, length_byteBits, List.length_cons]
    ring

theorem byteBits_injective : Function.Injective byteBits := by
  intro a b hab
  apply UInt8.toBitVec_inj.mp
  refine BitVec.eq_of_getMsbD_eq fun i hi => ?_
  have hget := congrArg (fun l => l.getD i false) hab
  simpa [byteBits, Crc.bitsOf, hi] using hget

theorem flatMap_byteBits_injective : Function.Injective (List.flatMap byteBits) := by
  intro data
  induction data with
  | nil =>
    intro data' h
    have hlen := congrArg List.length h
    rw [length_flatMap_byteBits, length_flatMap_byteBits] at hlen
    exact (List.length_eq_zero_iff.mp (by simpa using hlen.symm)).symm
  | cons byte data ih =>
    intro data' h
    cases data' with
    | nil =>
      have hlen := congrArg List.length h
      rw [length_flatMap_byteBits, length_flatMap_byteBits] at hlen
      simp at hlen
    | cons byte' data' =>
      rw [List.flatMap_cons, List.flatMap_cons] at h
      obtain ⟨hfirst, hrest⟩ := List.append_inj h
        ((length_byteBits byte).trans (length_byteBits byte').symm)
      rw [byteBits_injective hfirst, ih hrest]

theorem dalCalCrc16_ne_of_burst {data data' : List UInt8} (hlen : data.length = data'.length)
    (hne : data ≠ data') (hburst : Burst data data') : dalCalCrc16 data ≠ dalCalCrc16 data' := by
  obtain ⟨start, hstart⟩ := hburst
  have hbits : (data.flatMap byteBits).length = (data'.flatMap byteBits).length := by
    rw [length_flatMap_byteBits, length_flatMap_byteBits, hlen]
  have hrun := Crc.run_ne_of_burst (g := crc16Generator) (v := 0xFFFF) (by decide) hbits
    (fun h => hne (flatMap_byteBits_injective h)) hstart
  rw [dalCalCrc16_eq, dalCalCrc16_eq]
  exact fun h => hrun (BitVec.eq_of_toNat_eq h)

/-- The checksum of a non-empty string is the remainder bit by bit, and two strings of one length
that differ in at most 16 consecutive bits have different ones. -/
theorem dalCalCrc16_bitwise (pData : ℕ → UInt8) (length : UInt16) (crc : ℕ) (hlen : length ≠ 0) :
    dalCalCrc16Into (some pData) length (some crc) =
        some (crc16 ((message pData length).flatMap byteBits)).toNat ∧
      Crc.ofBits (crc16 ((message pData length).flatMap byteBits)) =
        (Crc.message ((message pData length).flatMap byteBits) * X ^ 16 +
          Crc.ofBits (0xFFFF : BitVec 16) * X ^ (8 * length.toNat)) %ₘ
            (X ^ 16 + X ^ 12 + X ^ 5 + 1) ∧
      ∀ pData', message pData' length ≠ message pData length →
        Burst (message pData' length) (message pData length) →
        dalCalCrc16Into (some pData') length (some crc) ≠
          dalCalCrc16Into (some pData) length (some crc) := by
  have hlength : ∀ p, (message p length).length = length.toNat := by
    intro p
    unfold message
    rw [List.length_map, List.length_range]
  refine ⟨?_, ?_, ?_⟩
  · rw [dalCalCrc16Into_eq hlen, dalCalCrc16_eq]
  · have hrem := Crc.run_remainder (g := crc16Generator) (by norm_num) 0xFFFF
      ((message pData length).flatMap byteBits)
    rw [length_flatMap_byteBits, hlength, generator_crc16] at hrem
    exact hrem
  · intro pData' hne hburst
    rw [dalCalCrc16Into_eq hlen, dalCalCrc16Into_eq hlen]
    intro hsame
    exact dalCalCrc16_ne_of_burst ((hlength _).trans (hlength _).symm) hne hburst
      (Option.some.inj hsame)

theorem dalCalCrc16_bitwise_one :
    dalCalCrc16Into (some fun _ => 0x31) 1 (some 0) =
        some (crc16 ((message (fun _ => 0x31) 1).flatMap byteBits)).toNat ∧
      (crc16 ((message (fun _ => 0x31) 1).flatMap byteBits)).toNat = 0xC782 ∧
      dalCalCrc16Into (some fun _ => 0x30) 1 (some 0) ≠
        dalCalCrc16Into (some fun _ => 0x31) 1 (some 0) := by
  obtain ⟨hvalue, -, herror⟩ := dalCalCrc16_bitwise (fun _ => 0x31) 1 0 (by decide)
  refine ⟨hvalue, by decide, herror (fun _ => 0x30) (by decide) ⟨0, ?_⟩⟩
  intro i hi
  refine ⟨Nat.zero_le i, ?_⟩
  by_contra hge
  have hlen : ∀ p, ((message p 1).flatMap byteBits).length ≤ i := by
    intro p
    rw [length_flatMap_byteBits]
    simp [message]
    omega
  exact hi ((List.getD_eq_default _ _ (hlen _)).trans (List.getD_eq_default _ _ (hlen _)).symm)

end HiMpu.MsgScm3
