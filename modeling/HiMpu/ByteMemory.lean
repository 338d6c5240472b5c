import Mathlib.Tactic

/-!
# Byte-addressed memory

A flat memory maps every address to one byte.  Words are read and written
little-endian.  The lemmas state what a store does to a later load: the same
range gives the stored value back, a disjoint range is untouched.
-/

namespace HiMpu

abbrev Mem := ℕ → UInt8

namespace Mem

def load (m : Mem) (addr : ℕ) : ℕ → ℕ
  | 0 => 0
  | n + 1 => (m addr).toNat + 256 * load m (addr + 1) n

def store (m : Mem) (addr n value : ℕ) : Mem := fun x =>
  if addr ≤ x ∧ x < addr + n then
    UInt8.ofNat (value / 256 ^ (x - addr))
  else m x

def fill (m : Mem) (addr n : ℕ) (byte : UInt8) : Mem := fun x =>
  if addr ≤ x ∧ x < addr + n then byte else m x

theorem load_lt (m : Mem) (addr n : ℕ) : load m addr n < 256 ^ n := by
  induction n generalizing addr with
  | zero => simp [load]
  | succ n ih =>
    have hbyte : (m addr).toNat < 256 := UInt8.toNat_lt (m addr)
    have htail := ih (addr + 1)
    simp only [load, pow_succ]
    omega

theorem load_add (m : Mem) (addr j k : ℕ) :
    load m addr (j + k) = load m addr j + 256 ^ j * load m (addr + j) k := by
  induction j generalizing addr with
  | zero => simp [load]
  | succ j ih =>
    have hsplit : j + 1 + k = (j + k) + 1 := by omega
    have hnext : addr + 1 + j = addr + (j + 1) := by omega
    rw [hsplit]
    simp only [load]
    rw [ih (addr + 1), hnext, pow_succ]
    ring

theorem load_congr {m m' : Mem} {addr n : ℕ}
    (hsame : ∀ x, addr ≤ x → x < addr + n → m' x = m x) :
    load m' addr n = load m addr n := by
  induction n generalizing addr with
  | zero => rfl
  | succ n ih =>
    have hhead : m' addr = m addr :=
      hsame addr le_rfl (by omega)
    have htail : load m' (addr + 1) n = load m (addr + 1) n := by
      apply ih
      intro x hlow hhigh
      exact hsame x (by omega) (by omega)
    simp only [load, hhead, htail]

theorem store_outside {m : Mem} {addr n value x : ℕ}
    (hout : x < addr ∨ addr + n ≤ x) :
    store m addr n value x = m x := by
  have hnot : ¬ (addr ≤ x ∧ x < addr + n) := by omega
  simp only [store, if_neg hnot]

theorem fill_outside {m : Mem} {addr n x : ℕ} {byte : UInt8}
    (hout : x < addr ∨ addr + n ≤ x) :
    fill m addr n byte x = m x := by
  have hnot : ¬ (addr ≤ x ∧ x < addr + n) := by omega
  simp only [fill, if_neg hnot]

theorem load_store_disjoint {m : Mem} {addr n value addr' n' : ℕ}
    (hapart : addr' + n' ≤ addr ∨ addr + n ≤ addr') :
    load (store m addr n value) addr' n' = load m addr' n' := by
  apply load_congr
  intro x hlow hhigh
  exact store_outside (by omega)

theorem load_fill_disjoint {m : Mem} {addr n addr' n' : ℕ} {byte : UInt8}
    (hapart : addr' + n' ≤ addr ∨ addr + n ≤ addr') :
    load (fill m addr n byte) addr' n' = load m addr' n' := by
  apply load_congr
  intro x hlow hhigh
  exact fill_outside (by omega)

theorem load_fill_zero {m : Mem} {addr n addr' n' : ℕ}
    (hlow : addr ≤ addr') (hhigh : addr' + n' ≤ addr + n) :
    load (fill m addr n 0) addr' n' = 0 := by
  induction n' generalizing addr' with
  | zero => rfl
  | succ n' ih =>
    have hin : addr ≤ addr' ∧ addr' < addr + n := by omega
    have hhead : fill m addr n 0 addr' = 0 := by simp only [fill, if_pos hin]
    have htail : load (fill m addr n 0) (addr' + 1) n' = 0 := ih (by omega) (by omega)
    simp [load, hhead, htail]

theorem load_store_offset (m : Mem) (addr n value i k : ℕ) (hfit : i + k ≤ n) :
    load (store m addr n value) (addr + i) k = value / 256 ^ i % 256 ^ k := by
  induction k generalizing i with
  | zero => simp [load, Nat.mod_one]
  | succ k ih =>
    have hbyte : (store m addr n value (addr + i)).toNat = value / 256 ^ i % 256 := by
      have hin : addr ≤ addr + i ∧ addr + i < addr + n := by omega
      simp only [store, if_pos hin, Nat.add_sub_cancel_left, UInt8.toNat_ofNat']
    have htail := ih (i + 1) (by omega)
    have hassoc : addr + i + 1 = addr + (i + 1) := by omega
    simp only [load, hbyte, hassoc, htail]
    rw [pow_succ 256 i, ← Nat.div_div_eq_div_mul, pow_succ 256 k, mul_comm (256 ^ k) 256,
      Nat.mod_mul]

theorem load_store_same (m : Mem) (addr n value : ℕ) :
    load (store m addr n value) addr n = value % 256 ^ n := by
  simpa using load_store_offset m addr n value 0 n (by omega)

theorem load_store_same_of_lt {m : Mem} {addr n value : ℕ}
    (hlt : value < 256 ^ n) :
    load (store m addr n value) addr n = value := by
  rw [load_store_same, Nat.mod_eq_of_lt hlt]

theorem digit_load (m : Mem) {addr n k : ℕ} (hk : k < n) :
    load m addr n / 256 ^ k % 256 = (m (addr + k)).toNat := by
  obtain ⟨j, rfl⟩ : ∃ j, n = k + (j + 1) := ⟨n - k - 1, by omega⟩
  have hbyte : (m (addr + k)).toNat < 256 := UInt8.toNat_lt _
  have hlow := load_lt m addr k
  rw [load_add, Nat.add_mul_div_left _ _ (by positivity), Nat.div_eq_of_lt hlow, zero_add, load,
    Nat.add_mul_mod_self_left, Nat.mod_eq_of_lt hbyte]

theorem store_load {m m' : Mem} {addr addr' n x : ℕ} (hlow : addr ≤ x) (hhigh : x < addr + n) :
    store m addr n (load m' addr' n) x = m' (addr' + (x - addr)) := by
  have hin : addr ≤ x ∧ x < addr + n := ⟨hlow, hhigh⟩
  simp only [store, if_pos hin]
  apply UInt8.toNat_inj.mp
  rw [UInt8.toNat_ofNat']
  exact digit_load m' (by omega)

def bytes (m : Mem) (addr n : ℕ) : List UInt8 :=
  (List.range n).map fun i => m (addr + i)

def write (m : Mem) (addr : ℕ) (block : List UInt8) : Mem := fun x =>
  if addr ≤ x then (block[x - addr]?).getD (m x) else m x

theorem bytes_succ (m : Mem) (addr n : ℕ) :
    m.bytes addr (n + 1) = m.bytes addr n ++ [m (addr + n)] := by
  simp [bytes, List.range_succ]

theorem bytes_add (m : Mem) (addr j k : ℕ) :
    m.bytes addr (j + k) = m.bytes addr j ++ m.bytes (addr + j) k := by
  unfold bytes
  rw [List.range_add, List.map_append, List.map_map]
  simp only [Function.comp_def, Nat.add_assoc]

theorem bytes_congr {m m' : Mem} {addr n : ℕ}
    (hsame : ∀ x, addr ≤ x → x < addr + n → m' x = m x) :
    m'.bytes addr n = m.bytes addr n := by
  unfold bytes
  apply List.map_congr_left
  intro i hi
  exact hsame _ (by omega) (by have := List.mem_range.mp hi; omega)

theorem write_outside {m : Mem} {addr x : ℕ} {block : List UInt8}
    (hout : x < addr ∨ addr + block.length ≤ x) : m.write addr block x = m x := by
  unfold write
  split
  · rw [List.getElem?_eq_none (by omega)]
    rfl
  · rfl

theorem write_inside {m : Mem} {a i : ℕ} {l : List UInt8} (hi : i < l.length) :
    m.write a l (a + i) = l[i] := by
  unfold write
  rw [if_pos (by omega), Nat.add_sub_cancel_left, List.getElem?_eq_getElem hi]
  rfl

theorem bytes_write_same (m : Mem) (addr : ℕ) (block : List UInt8) :
    (m.write addr block).bytes addr block.length = block := by
  apply List.ext_getElem
  · simp [bytes]
  · intro i _ hi
    simp only [bytes, List.getElem_map, List.getElem_range]
    exact write_inside hi

@[simp] theorem length_bytes (m : Mem) (addr n : ℕ) : (m.bytes addr n).length = n := by
  simp [bytes]

theorem write_bytes (m m' : Mem) (addr addr' n x : ℕ) :
    m.write addr (m'.bytes addr' n) x =
      if addr ≤ x ∧ x < addr + n then m' (addr' + (x - addr)) else m x := by
  split
  next hin =>
    have hx : addr + (x - addr) = x := by omega
    have hinside := write_inside (m := m) (a := addr) (l := m'.bytes addr' n) (i := x - addr)
      (by rw [length_bytes]; omega)
    rw [hx] at hinside
    rw [hinside]
    simp only [bytes, List.getElem_map, List.getElem_range]
  next hout =>
    apply write_outside
    rw [length_bytes]
    omega

theorem write_write (m m' : Mem) (addr addr' n k : ℕ) :
    (m.write addr (m'.bytes addr' n)).write (addr + n) (m'.bytes (addr' + n) k) =
      m.write addr (m'.bytes addr' (n + k)) := by
  funext x
  simp only [write_bytes]
  by_cases hsecond : addr + n ≤ x ∧ x < addr + n + k
  · rw [if_pos hsecond, if_pos (by omega)]
    congr 1
    omega
  · rw [if_neg hsecond]
    by_cases hfirst : addr ≤ x ∧ x < addr + n
    · rw [if_pos hfirst, if_pos (by omega)]
    · rw [if_neg hfirst, if_neg (by omega)]

end Mem

end HiMpu
