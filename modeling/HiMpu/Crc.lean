import Mathlib.Tactic
import Mathlib.Algebra.Polynomial.Div
import Mathlib.Data.ZMod.Basic
import Mathlib.Data.List.GetD

/-!
# Cyclic redundancy checks

A register of `n` bits takes a message bit by bit.  Started with 0 it ends with the
remainder of the message, times `X ^ n`, by the generator `X ^ n + g`, as polynomials over
the field of two elements.
-/

namespace HiMpu.Crc

open Polynomial

variable {n : ℕ} {g v w : BitVec n}

def step (g v : BitVec n) (b : Bool) : BitVec n :=
  (v <<< 1) ^^^ (if (v.msb ^^ b) = true then g else 0)

def run (g v : BitVec n) (bits : List Bool) : BitVec n := bits.foldl (step g) v

def bitsOf (v : BitVec n) : List Bool := (List.range n).map fun i => v.getMsbD i

def runWords {m : ℕ} (g v : BitVec n) (words : List (BitVec m)) : BitVec n :=
  run g v (words.flatMap bitsOf)

theorem run_append (l l' : List Bool) : run g v (l ++ l') = run g (run g v l) l' :=
  List.foldl_append

theorem runWords_cons {m : ℕ} (a : BitVec m) (l : List (BitVec m)) :
    runWords g v (a :: l) = runWords g (run g v (bitsOf a)) l := by
  unfold runWords
  rw [List.flatMap_cons, run_append]

theorem step_xor (a b : Bool) : step g (v ^^^ w) (a ^^ b) = step g v a ^^^ step g w b := by
  unfold step
  refine BitVec.eq_of_getLsbD_eq fun i hi => ?_
  have hbit : ((v ^^^ w).msb ^^ (a ^^ b)) = ((v.msb ^^ a) ^^ (w.msb ^^ b)) := by
    rw [BitVec.msb_xor]
    cases v.msb <;> cases w.msb <;> cases a <;> cases b <;> rfl
  rw [hbit]
  cases v.msb ^^ a <;> cases w.msb ^^ b <;>
    simp [BitVec.getLsbD_xor, BitVec.shiftLeft_xor_distrib, Bool.xor_comm, Bool.xor_left_comm]

theorem run_xor (l : List Bool) :
    run g (v ^^^ w) l = run g v (List.replicate l.length false) ^^^ run g w l := by
  induction l generalizing v w with
  | nil => rfl
  | cons b l ih =>
    have hstep := step_xor (g := g) (v := v) (w := w) false b
    rw [Bool.false_xor] at hstep
    show run g (step g (v ^^^ w) b) l = _
    rw [hstep, ih]
    rfl

theorem run_xor_run {l l' : List Bool} (hlen : l.length = l'.length) :
    run g (v ^^^ w) (List.zipWith xor l l') = run g v l ^^^ run g w l' := by
  induction l generalizing v w l' with
  | nil =>
    obtain rfl := List.length_eq_zero_iff.mp hlen.symm
    rfl
  | cons a l ih =>
    cases l' with
    | nil => cases hlen
    | cons b l' =>
      show run g (step g (v ^^^ w) (a ^^ b)) (List.zipWith xor l l') = _
      rw [step_xor, ih (Nat.succ.inj hlen)]
      rfl

theorem step_same {b : Bool} (hmsb : v.msb = b) : step g v b = v <<< 1 := by
  have hclear : (v.msb ^^ b) = false := by rw [hmsb, Bool.xor_self]
  unfold step
  rw [hclear]
  exact BitVec.xor_zero

theorem getMsbD_shiftLeft_one (v : BitVec n) (i : ℕ) :
    (v <<< 1).getMsbD i = v.getMsbD (i + 1) := by
  rw [BitVec.getMsbD_shiftLeft, Nat.add_comm]

theorem run_same {l : List Bool} (hlen : l.length ≤ n)
    (hsame : ∀ i < l.length, v.getMsbD i = l.getD i false) : run g v l = v <<< l.length := by
  induction l generalizing v with
  | nil => exact (BitVec.shiftLeft_zero v).symm
  | cons b l ih =>
    have hfirst : step g v b = v <<< 1 := step_same (hsame 0 (Nat.succ_pos _))
    have hrest : ∀ i < l.length, (v <<< 1).getMsbD i = l.getD i false := by
      intro i hi
      rw [getMsbD_shiftLeft_one]
      exact hsame (i + 1) (Nat.succ_lt_succ hi)
    show run g (step g v b) l = _
    rw [hfirst, ih (by simp only [List.length_cons] at hlen; omega) hrest,
      ← BitVec.shiftLeft_add, List.length_cons, Nat.add_comm]

theorem length_bitsOf (v : BitVec n) : (bitsOf v).length = n := by
  rw [bitsOf, List.length_map, List.length_range]

theorem getD_bitsOf (v : BitVec n) {i : ℕ} (hi : i < n) :
    (bitsOf v).getD i false = v.getMsbD i := by
  unfold bitsOf
  rw [List.getD_eq_getElem _ _ (by simpa using hi), List.getElem_map, List.getElem_range]

theorem run_bitsOf (v : BitVec n) :
    run g 0 (bitsOf v) = run g v (List.replicate n false) := by
  have hsame : run g v (bitsOf v) = 0 := by
    rw [run_same (length_bitsOf v).le, length_bitsOf]
    · exact BitVec.shiftLeft_eq_zero le_rfl
    · intro i hi
      rw [length_bitsOf] at hi
      exact (getD_bitsOf v hi).symm
  have hsum := run_xor (g := g) (v := v) (w := 0) (bitsOf v)
  rw [show v ^^^ 0 = v from BitVec.xor_zero, hsame, length_bitsOf] at hsum
  exact (BitVec.xor_eq_zero_iff.mp hsum.symm).symm

theorem getMsbD_of_run_eq_zero (hg : g.getLsbD 0 = true) {l : List Bool} (hlen : l.length ≤ n)
    (hzero : run g v l = 0) : ∀ i < n, v.getMsbD i = l.getD i false := by
  induction l generalizing v with
  | nil =>
    intro i _
    have hv : v = 0 := hzero
    rw [hv]
    simp
  | cons b l ih =>
    have hlt : l.length < n := hlen
    have hnext := ih (v := step g v b) hlt.le hzero
    have hlast : (step g v b).getLsbD 0 = (v.msb ^^ b) := by
      unfold step
      rw [BitVec.getLsbD_xor, BitVec.getLsbD_shiftLeft]
      cases v.msb ^^ b <;> simp [hg]
    have hmsb : v.msb = b := by
      have hend := hnext (n - 1) (by omega)
      have hsub : n - 1 - (n - 1) = 0 := Nat.sub_self _
      rw [BitVec.getMsbD, hsub, hlast, List.getD_eq_default _ _ (by omega)] at hend
      have hxor : (v.msb ^^ b) = false := by
        have hpos : n - 1 < n := by omega
        simpa [hpos] using hend
      exact bne_eq_false_iff_eq.mp hxor
    rw [step_same hmsb] at hnext
    intro i hi
    cases i with
    | zero => exact hmsb
    | succ i =>
      rw [← getMsbD_shiftLeft_one]
      exact hnext i (by omega)

theorem run_zeros (k : ℕ) : run g 0 (List.replicate k false) = 0 := by
  have hlen : (List.replicate k false).length = (List.replicate k false).length := rfl
  have hself := run_xor_run (g := g) (v := 0) (w := 0) hlen
  rwa [BitVec.xor_self, BitVec.xor_self, List.zipWith_replicate, Bool.xor_self, Nat.min_self]
    at hself

theorem eq_zero_of_run_zeros (hg : g.getLsbD 0 = true) {k : ℕ}
    (hzero : run g v (List.replicate k false) = 0) : v = 0 := by
  induction k generalizing v with
  | zero => exact hzero
  | succ k ih =>
    have hstep : run g v [false] = 0 := ih hzero
    have hn : 0 < n := by
      by_contra hnot
      obtain rfl := Nat.eq_zero_of_not_pos hnot
      rw [BitVec.getLsbD_of_ge _ _ (Nat.zero_le _)] at hg
      cases hg
    have hbits := getMsbD_of_run_eq_zero hg (l := [false]) hn hstep
    refine BitVec.eq_of_getMsbD_eq fun i hi => ?_
    rw [hbits i hi]
    cases i <;> simp

theorem eq_replicate_of_clear {l : List Bool} (hclear : ∀ i, l.getD i false = false) :
    l = List.replicate l.length false := by
  refine List.eq_replicate_iff.mpr ⟨rfl, fun b hb => ?_⟩
  obtain ⟨i, hi, rfl⟩ := List.mem_iff_getElem.mp hb
  have := hclear i
  rwa [List.getD_eq_getElem _ _ hi] at this

theorem run_ne_zero_of_burst (hg : g.getLsbD 0 = true) {l : List Bool} {start : ℕ}
    (hburst : ∀ i, l.getD i false = true → start ≤ i ∧ i < start + n) (hzero : run g 0 l = 0) :
    ∀ i, l.getD i false = false := by
  have hsplit : l = l.take start ++ ((l.drop start).take n ++ l.drop (start + n)) := by
    rw [← List.drop_drop, List.take_append_drop, List.take_append_drop]
  have hget : ∀ i, l.getD i false = false ∨ start ≤ i ∧ i < start + n := by
    intro i
    cases hbit : l.getD i false with
    | false => exact Or.inl rfl
    | true => exact Or.inr (hburst i hbit)
  have hbefore : l.take start = List.replicate (l.take start).length false := by
    refine eq_replicate_of_clear fun i => ?_
    by_cases hi : i < start
    · rw [List.getD_eq_getElem?_getD, List.getElem?_take_of_lt hi, ← List.getD_eq_getElem?_getD]
      exact (hget i).resolve_right fun h => absurd h.1 (Nat.not_le.mpr hi)
    · exact List.getD_eq_default _ _ ((List.length_take_le _ _).trans (Nat.not_lt.mp hi))
  have hafter : l.drop (start + n) = List.replicate (l.drop (start + n)).length false := by
    refine eq_replicate_of_clear fun i => ?_
    rw [List.getD_eq_getElem?_getD, List.getElem?_drop, ← List.getD_eq_getElem?_getD]
    exact (hget _).resolve_right fun h => absurd h.2 (Nat.not_lt.mpr (Nat.le_add_right _ _))
  have hwindow : run g 0 ((l.drop start).take n) = 0 := by
    rw [hsplit, run_append, run_append, hbefore, run_zeros, hafter] at hzero
    exact eq_zero_of_run_zeros hg hzero
  have hbits := getMsbD_of_run_eq_zero hg (List.length_take_le _ _) hwindow
  intro i
  by_cases hin : start ≤ i ∧ i < start + n
  · have hbit := hbits (i - start) (by omega)
    have hsub : start + (i - start) = i := by omega
    rw [show (0 : BitVec n).getMsbD (i - start) = false from BitVec.getMsbD_zero,
      List.getD_eq_getElem?_getD, List.getElem?_take_of_lt (by omega), List.getElem?_drop, hsub,
      ← List.getD_eq_getElem?_getD] at hbit
    exact hbit.symm
  · exact (hget i).resolve_right hin

theorem run_ne_of_burst (hg : g.getLsbD 0 = true) {l l' : List Bool} {start : ℕ}
    (hlen : l.length = l'.length) (hne : l ≠ l')
    (hburst : ∀ i, l.getD i false ≠ l'.getD i false → start ≤ i ∧ i < start + n) :
    run g v l ≠ run g v l' := by
  intro heq
  have hzero := run_xor_run (g := g) (v := v) (w := v) hlen
  rw [heq, BitVec.xor_self, BitVec.xor_self] at hzero
  have hget : ∀ i, (List.zipWith xor l l').getD i false =
      (l.getD i false ^^ l'.getD i false) := by
    intro i
    by_cases hi : i < l.length
    · have hi' : i < l'.length := hlen ▸ hi
      have hz : i < (List.zipWith xor l l').length := by
        rw [List.length_zipWith, ← hlen, Nat.min_self]
        exact hi
      rw [List.getD_eq_getElem _ _ hz, List.getD_eq_getElem _ _ hi, List.getD_eq_getElem _ _ hi',
        List.getElem_zipWith]
    · have hi' : l'.length ≤ i := hlen ▸ Nat.not_lt.mp hi
      have hz : (List.zipWith xor l l').length ≤ i := by
        rw [List.length_zipWith, ← hlen, Nat.min_self]
        exact Nat.not_lt.mp hi
      rw [List.getD_eq_default _ _ hz, List.getD_eq_default _ _ (Nat.not_lt.mp hi),
        List.getD_eq_default _ _ hi']
      rfl
  have hinside : ∀ i, (List.zipWith xor l l').getD i false = true →
      start ≤ i ∧ i < start + n := by
    intro i hi
    refine hburst i fun hsame => ?_
    rw [hget, hsame, Bool.xor_self] at hi
    cases hi
  have hclear := run_ne_zero_of_burst hg hinside hzero
  refine hne (List.ext_getElem hlen fun i hi hi' => ?_)
  have hbit := hclear i
  rw [hget, List.getD_eq_getElem _ _ hi, List.getD_eq_getElem _ _ hi'] at hbit
  exact bne_eq_false_iff_eq.mp hbit

noncomputable section

def ofBool (b : Bool) : (ZMod 2)[X] := if b then 1 else 0

def ofBits (v : BitVec n) : (ZMod 2)[X] :=
  ∑ i ∈ Finset.range n, ofBool (v.getLsbD i) * X ^ i

def generator (g : BitVec n) : (ZMod 2)[X] := X ^ n + ofBits g

def message (bits : List Bool) : (ZMod 2)[X] := bits.foldl (fun p b => p * X + ofBool b) 0

theorem two_eq_zero : (2 : (ZMod 2)[X]) = 0 := CharTwo.two_eq_zero

theorem ofBool_xor (a b : Bool) : ofBool (a ^^ b) = ofBool a + ofBool b := by
  cases a <;> cases b
  · exact (add_zero _).symm
  · exact (zero_add _).symm
  · exact (add_zero _).symm
  · exact (one_add_one_eq_two.trans two_eq_zero).symm

theorem ofBits_xor (v w : BitVec n) : ofBits (v ^^^ w) = ofBits v + ofBits w := by
  unfold ofBits
  rw [← Finset.sum_add_distrib]
  refine Finset.sum_congr rfl fun i _ => ?_
  rw [BitVec.getLsbD_xor, ofBool_xor, add_mul]

theorem ofBits_zero : ofBits (0 : BitVec n) = 0 := by
  refine Finset.sum_eq_zero fun i _ => ?_
  rw [show (0 : BitVec n).getLsbD i = false from BitVec.getLsbD_zero]
  exact zero_mul _

theorem ofBits_shift (hn : 0 < n) (v : BitVec n) :
    ofBits v * X = ofBits (v <<< 1) + ofBool v.msb * X ^ n := by
  obtain ⟨m, rfl⟩ := Nat.exists_eq_succ_of_ne_zero hn.ne'
  unfold ofBits
  rw [Finset.sum_range_succ' (fun i => ofBool ((v <<< 1).getLsbD i) * X ^ i) m, Finset.sum_mul,
    Finset.sum_range_succ]
  have hlow : ∀ i ∈ Finset.range m,
      ofBool (v.getLsbD i) * X ^ i * X = ofBool ((v <<< 1).getLsbD (i + 1)) * X ^ (i + 1) := by
    intro i hi
    have hlt : i + 1 < m + 1 := Nat.succ_lt_succ (Finset.mem_range.mp hi)
    rw [BitVec.getLsbD_shiftLeft]
    simp [hlt, pow_succ, mul_assoc]
  have hzero : ofBool ((v <<< 1).getLsbD 0) = 0 := by
    rw [BitVec.getLsbD_shiftLeft]
    simp [ofBool]
  rw [Finset.sum_congr rfl hlow, hzero, zero_mul, add_zero, BitVec.msb_eq_getLsbD_last,
    Nat.succ_sub_one, mul_assoc, ← pow_succ]

theorem step_poly (hn : 0 < n) (b : Bool) :
    ofBits v * X + ofBool b * X ^ n =
      ofBits (step g v b) + generator g * ofBool (v.msb ^^ b) := by
  have hif : ofBits (if (v.msb ^^ b) = true then g else 0) = ofBits g * ofBool (v.msb ^^ b) := by
    cases v.msb ^^ b
    · exact ofBits_zero.trans (mul_zero _).symm
    · exact (mul_one _).symm
  unfold step generator
  rw [ofBits_xor, hif, ofBits_shift hn, ofBool_xor]
  linear_combination (-(ofBits g * (ofBool v.msb + ofBool b))) * two_eq_zero

theorem run_poly (hn : 0 < n) (bits : List Bool) (p : (ZMod 2)[X]) :
    ∃ q, bits.foldl (fun p b => p * X + ofBool b) p * X ^ n + generator g * q =
      ofBits (run g v bits) + (p * X ^ n - ofBits v) * X ^ bits.length := by
  induction bits generalizing v p with
  | nil =>
    refine ⟨0, ?_⟩
    show p * X ^ n + generator g * 0 = ofBits v + (p * X ^ n - ofBits v) * X ^ 0
    ring
  | cons b bits ih =>
    obtain ⟨q, hq⟩ := ih (v := step g v b) (p * X + ofBool b)
    have hstep := step_poly (g := g) (v := v) hn b
    refine ⟨q - ofBool (v.msb ^^ b) * X ^ bits.length, ?_⟩
    show (bits.foldl (fun p b => p * X + ofBool b) (p * X + ofBool b)) * X ^ n + _ =
      ofBits (run g (step g v b) bits) + (p * X ^ n - ofBits v) * X ^ (bits.length + 1)
    linear_combination hq + X ^ bits.length * hstep

theorem degree_ofBits (v : BitVec n) : (ofBits v).degree < n := by
  unfold ofBits
  refine (Polynomial.degree_sum_le _ _).trans_lt ?_
  refine (Finset.sup_lt_iff (by exact WithBot.bot_lt_coe n)).mpr fun i hi => ?_
  have hlt : i < n := Finset.mem_range.mp hi
  unfold ofBool
  split
  · rw [one_mul, Polynomial.degree_X_pow]
    exact_mod_cast hlt
  · rw [zero_mul, Polynomial.degree_zero]
    exact WithBot.bot_lt_coe n

theorem generator_monic (g : BitVec n) : (generator g).Monic :=
  Polynomial.monic_X_pow_add (degree_ofBits g)

theorem degree_generator (g : BitVec n) : (generator g).degree = n := by
  unfold generator
  rw [Polynomial.degree_add_eq_left_of_degree_lt]
  · exact Polynomial.degree_X_pow n
  · rw [Polynomial.degree_X_pow]
    exact degree_ofBits g

theorem run_remainder (hn : 0 < n) (v : BitVec n) (bits : List Bool) :
    ofBits (run g v bits) =
      (message bits * X ^ n + ofBits v * X ^ bits.length) %ₘ generator g := by
  obtain ⟨q, hq⟩ := run_poly (g := g) (v := v) hn bits 0
  refine ((Polynomial.div_modByMonic_unique (-q) _ (generator_monic g) ⟨?_, ?_⟩).2).symm
  · unfold message
    linear_combination -hq
  · rw [degree_generator]
    exact degree_ofBits _

theorem run_eq_remainder (hn : 0 < n) (bits : List Bool) :
    ofBits (run g 0 bits) = (message bits * X ^ n) %ₘ generator g := by
  rw [run_remainder hn, ofBits_zero, zero_mul, add_zero]

theorem ofBits_injective : Function.Injective (ofBits (n := n)) := by
  intro v w h
  refine BitVec.eq_of_getLsbD_eq fun i hi => ?_
  have hcoeff : ∀ u : BitVec n, (ofBits u).coeff i = if u.getLsbD i then 1 else 0 := by
    intro u
    unfold ofBits
    rw [Polynomial.finsetSum_coeff, Finset.sum_eq_single i]
    · unfold ofBool
      split <;> simp
    · intro j _ hj
      rw [Polynomial.coeff_mul_X_pow']
      unfold ofBool
      split
      · split
        · rw [Polynomial.coeff_one, if_neg (by omega)]
        · exact Polynomial.coeff_zero _
      · rfl
    · intro hi'
      exact absurd (Finset.mem_range.mpr hi) hi'
  have heq := congrArg (fun p => Polynomial.coeff p i) h
  simp only [hcoeff] at heq
  cases hv : v.getLsbD i <;> cases hw : w.getLsbD i <;> simp [hv, hw] at heq ⊢

end

end HiMpu.Crc
