import Mathlib.Tactic

/-!
# Words in a space of bits

A space of bits that is read and written in words of `w` bits at any position.  A
write that keeps the bits outside a mask changes the bits of the mask and no others.
-/

namespace HiMpu.BitSpace

abbrev Bits := ℕ → Bool

variable {w : ℕ} {m : Bits} {pos i k : ℕ} {v mask : BitVec w}

def readWord (m : Bits) (pos w : ℕ) : BitVec w :=
  (BitVec.ofBoolListLE ((List.range w).map fun k => m (pos + k))).setWidth w

def writeWord (m : Bits) (pos : ℕ) (v : BitVec w) : Bits := fun i =>
  if pos ≤ i ∧ i < pos + w then v.getLsbD (i - pos) else m i

/-- A bit of the mask of the word at `pos`. -/
def InMask (pos : ℕ) (mask : BitVec w) (i : ℕ) : Prop :=
  pos ≤ i ∧ mask.getLsbD (i - pos) = true

instance (pos : ℕ) (mask : BitVec w) (i : ℕ) : Decidable (InMask pos mask i) :=
  inferInstanceAs (Decidable (_ ∧ _))

theorem InMask.lt (h : InMask pos mask i) : i - pos < w :=
  BitVec.lt_of_getLsbD h.2

theorem readWord_getLsbD (hk : k < w) : (readWord m pos w).getLsbD k = m (pos + k) := by
  have hget : ((List.range w).map fun k => m (pos + k)).getD k false = m (pos + k) := by
    simp [hk]
  rw [readWord, BitVec.getLsbD_setWidth, BitVec.getLsbD_ofBoolListLE, hget, decide_eq_true hk,
    Bool.true_and]

theorem writeWord_merge (hkeep : ∀ k < w, mask.getLsbD k = false → v.getLsbD k = m (pos + k))
    (i : ℕ) :
    writeWord m pos v i = if InMask pos mask i then v.getLsbD (i - pos) else m i := by
  unfold writeWord
  by_cases hin : InMask pos mask i
  · have hlt := hin.lt
    have hword : pos ≤ i ∧ i < pos + w := ⟨hin.1, by omega⟩
    rw [if_pos hin, if_pos hword]
  · rw [if_neg hin]
    by_cases hword : pos ≤ i ∧ i < pos + w
    · have hclear : mask.getLsbD (i - pos) = false := by
        by_contra hset
        exact hin ⟨hword.1, by simpa using hset⟩
      have hsub : pos + (i - pos) = i := by omega
      rw [if_pos hword, hkeep _ (by omega) hclear, hsub]
    · rw [if_neg hword]

theorem writeWord_same (h : readWord m pos w = v) : writeWord m pos v = m := by
  funext i
  unfold writeWord
  by_cases hword : pos ≤ i ∧ i < pos + w
  · have hsub : pos + (i - pos) = i := by omega
    rw [if_pos hword, ← h, readWord_getLsbD (by omega), hsub]
  · rw [if_neg hword]

theorem getLsbD_oneAt (hk : k < w) (i : ℕ) : (1#w <<< k).getLsbD i = decide (i = k) := by
  rw [← BitVec.twoPow_eq, BitVec.getLsbD_twoPow]
  have hcomm : (k = i) = (i = k) := propext eq_comm
  simp only [hk, decide_true, Bool.true_and, hcomm]

theorem writeWord_oneBit {b : Bool} (hk : k < w) (hv : v.getLsbD k = b)
    (hkeep : ∀ j < w, j ≠ k → v.getLsbD j = m (pos + j)) :
    writeWord m pos v = Function.update m (pos + k) b := by
  funext i
  unfold writeWord
  by_cases hword : pos ≤ i ∧ i < pos + w
  · rw [if_pos hword]
    by_cases hi : i = pos + k
    · have hsub : i - pos = k := by omega
      rw [hsub, hv, hi, Function.update_self]
    · have hsub : pos + (i - pos) = i := by omega
      rw [hkeep _ (by omega) (by omega), hsub, Function.update_of_ne hi]
  · rw [if_neg hword, Function.update_of_ne (by omega)]

theorem writeWord_setBit (hk : k < w) :
    writeWord m pos (readWord m pos w ||| 1#w <<< k) = Function.update m (pos + k) true := by
  apply writeWord_oneBit hk
  · rw [BitVec.getLsbD_or, getLsbD_oneAt hk]
    simp
  · intro j hj hne
    rw [BitVec.getLsbD_or, getLsbD_oneAt hk, readWord_getLsbD hj]
    simp [hne]

theorem writeWord_clearBit (hk : k < w) :
    writeWord m pos (readWord m pos w &&& ~~~(1#w <<< k)) =
      Function.update m (pos + k) false := by
  apply writeWord_oneBit hk
  · rw [BitVec.getLsbD_and, BitVec.getLsbD_not, getLsbD_oneAt hk]
    simp
  · intro j hj hne
    rw [BitVec.getLsbD_and, BitVec.getLsbD_not, getLsbD_oneAt hk, readWord_getLsbD hj]
    simp [hj, hne]

theorem writeWord_field {val : BitVec w} {off width : ℕ} (hfit : off + width ≤ w)
    (hmask : ∀ j, mask.getLsbD j = decide (j < width)) :
    writeWord m pos
        ((readWord m pos w &&& ~~~(mask <<< off)) ||| ((val &&& mask) <<< off)) =
      fun i => if pos + off ≤ i ∧ i < pos + off + width then val.getLsbD (i - (pos + off))
        else m i := by
  funext i
  unfold writeWord
  by_cases hword : pos ≤ i ∧ i < pos + w
  · have hlt : i - pos < w := by omega
    have hsub : pos + (i - pos) = i := by omega
    rw [if_pos hword, BitVec.getLsbD_or, BitVec.getLsbD_and, BitVec.getLsbD_not,
      BitVec.getLsbD_shiftLeft, BitVec.getLsbD_shiftLeft, BitVec.getLsbD_and, hmask,
      readWord_getLsbD hlt, hsub]
    by_cases hfield : pos + off ≤ i ∧ i < pos + off + width
    · have hge : ¬i - pos < off := by omega
      have hin : i - (pos + off) < width := by omega
      rw [if_pos hfield, Nat.sub_sub]
      simp [hlt, hge, hin]
    · rw [if_neg hfield]
      by_cases hlow : i - pos < off
      · simp [hlt, hlow]
      · have hout : ¬i - pos - off < width := by omega
        simp [hlt, hlow, hout]
  · have hnot : ¬(pos + off ≤ i ∧ i < pos + off + width) := by omega
    rw [if_neg hword, if_neg hnot]

end HiMpu.BitSpace
