import Mathlib.Tactic

/-!
# Aligned regions of a bitmap

A bitmap hands out blocks of bits: a block has a power of two of bits and begins at a
multiple of its length.  The lowest block whose bits are all free is taken.
-/

namespace HiMpu.BitmapRegion

def block (pos order : ℕ) : Finset ℕ := Finset.Ico pos (pos + 2 ^ order)

def Fits (used : Finset ℕ) (bits order pos : ℕ) : Prop :=
  pos + 2 ^ order ≤ bits ∧ Disjoint (block pos order) used

instance (used : Finset ℕ) (bits order pos : ℕ) : Decidable (Fits used bits order pos) :=
  inferInstanceAs (Decidable (_ ∧ _))

def findFreeRegion (used : Finset ℕ) (bits order : ℕ) : Option ℕ :=
  ((List.range bits).filter fun pos => pos % 2 ^ order = 0).find? fun pos =>
    Fits used bits order pos

def releaseRegion (used : Finset ℕ) (pos order : ℕ) : Finset ℕ := used \ block pos order

theorem findFreeRegion_some {used : Finset ℕ} {bits order pos : ℕ}
    (h : findFreeRegion used bits order = some pos) :
    2 ^ order ∣ pos ∧ Fits used bits order pos := by
  have hmem := List.mem_of_find?_eq_some h
  have hfits := List.find?_some h
  rw [List.mem_filter, decide_eq_true_eq] at hmem
  exact ⟨Nat.dvd_of_mod_eq_zero hmem.2, of_decide_eq_true hfits⟩

def orderBase2 (n : ℕ) : ℕ := Nat.clog 2 n

theorem le_two_pow_orderBase2 (n : ℕ) : n ≤ 2 ^ orderBase2 n :=
  Nat.le_pow_clog Nat.one_lt_two n

end HiMpu.BitmapRegion
