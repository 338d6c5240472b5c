import Mathlib.Tactic

/-!
# Words made of bit-fields

A register is declared as a row of unsigned bit-fields, the lowest first.  An assignment
to a field keeps the low bits of the value; the device reads a field back by its place.
-/

namespace HiMpu.BitFields

def pack : List (ℕ × ℕ) → ℕ
  | [] => 0
  | (w, v) :: fields => v % 2 ^ w + 2 ^ w * pack fields

def width (fields : List (ℕ × ℕ)) : ℕ :=
  (fields.map Prod.fst).sum

def get (word low w : ℕ) : ℕ :=
  word / 2 ^ low % 2 ^ w

theorem pack_append_div (lower upper : List (ℕ × ℕ)) :
    pack (lower ++ upper) / 2 ^ width lower = pack upper := by
  induction lower with
  | nil => simp [width]
  | cons field lower ih =>
    obtain ⟨w, v⟩ := field
    have hhead : pack ((w, v) :: (lower ++ upper)) / 2 ^ w = pack (lower ++ upper) := by
      have hlow : v % 2 ^ w < 2 ^ w := Nat.mod_lt _ (by positivity)
      rw [pack, Nat.add_mul_div_left _ _ (by positivity), Nat.div_eq_of_lt hlow, zero_add]
    have hwidth : width ((w, v) :: lower) = w + width lower := by simp [width]
    rw [List.cons_append, hwidth, pow_add, ← Nat.div_div_eq_div_mul, hhead, ih]

theorem get_pack (lower upper : List (ℕ × ℕ)) (w v : ℕ) :
    get (pack (lower ++ (w, v) :: upper)) (width lower) w = v % 2 ^ w := by
  rw [get, pack_append_div, pack, Nat.add_mul_mod_self_left, Nat.mod_mod]

end HiMpu.BitFields
