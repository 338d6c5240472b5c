import Mathlib.Tactic

/-!
# Return codes and register access of the real-time drivers

`bm_types.h` and the read-modify-write helper that the register drivers share.
-/

namespace HiMpu

def bmOk : ℤ := 0
def bmFail : ℤ := -1
def bmTimeout : ℤ := -2

/-- The masked write of `bm_lp_subsys_reg_read_write` and
`bm_io_config_read_write`, on the value that was read. -/
def regReadWrite (value mask val : BitVec 32) : BitVec 32 :=
  (value &&& ~~~mask) ||| (val &&& mask)

theorem getLsbD_regReadWrite (value mask val : BitVec 32) (i : ℕ) :
    (regReadWrite value mask val).getLsbD i =
      if mask.getLsbD i then val.getLsbD i else value.getLsbD i := by
  unfold regReadWrite
  rw [BitVec.getLsbD_or, BitVec.getLsbD_and, BitVec.getLsbD_and, BitVec.getLsbD_not]
  by_cases hi : i < 32
  · cases mask.getLsbD i <;> simp [hi]
  · have hout : ∀ x : BitVec 32, x.getLsbD i = false := fun x =>
      BitVec.getLsbD_of_ge x i (by omega)
    simp [hout]

end HiMpu
