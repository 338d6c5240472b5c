import Mathlib.Tactic

/-!
# Bounded queues and ring indices

A bounded queue is a list that grows at its end and shrinks at its head.  A ring
of `n` slots with a producer index and a consumer index, both counted modulo `n`,
implements one: the two counters behind the indices never differ by `n`, so the
indices tell an empty ring from a full one.
-/

namespace HiMpu

/-- What one step may do to a queue of the given capacity. -/
inductive FifoStep {α : Type*} (cap : ℕ) : List α → List α → Prop
  | stay (q : List α) : FifoStep cap q q
  | push (q : List α) (x : α) (hroom : q.length < cap) : FifoStep cap q (q ++ [x])
  | pop (x : α) (q : List α) : FifoStep cap (x :: q) q

structure RingCounters (n a b : ℕ) : Prop where
  le : b ≤ a
  lt : a < b + n

namespace RingCounters

variable {n a b : ℕ}

theorem eq_of_mod_eq {x y : ℕ} (hle : x ≤ y) (hlt : y < x + n) (hmod : x % n = y % n) : x = y := by
  obtain ⟨k, hk⟩ := (Nat.modEq_iff_dvd' hle).mp hmod
  have hzero : k = 0 := by
    by_contra hne
    have hpos : 1 ≤ k := Nat.pos_of_ne_zero hne
    have : n * 1 ≤ n * k := Nat.mul_le_mul_left n hpos
    omega
  rw [hzero] at hk
  omega

theorem full_iff (hring : RingCounters n a b) : (a % n + 1) % n = b % n ↔ a + 1 = b + n := by
  rw [Nat.mod_add_mod]
  obtain ⟨hle, hlt⟩ := hring
  constructor
  · intro hmod
    have hmod' : (a + 1) % n = (b + n) % n := by rw [hmod, Nat.add_mod_right]
    exact eq_of_mod_eq (by omega) (by omega) hmod'
  · intro heq
    rw [heq, Nat.add_mod_right]

theorem slot_ne (hring : RingCounters n a b) {i : ℕ} (hlow : b ≤ i) (hhigh : i < a) :
    i % n ≠ a % n := by
  intro hmod
  have heq := eq_of_mod_eq hhigh.le (by have := hring.lt; omega) hmod
  omega

theorem mono {c : ℕ} (hring : RingCounters n a b) (hbc : b ≤ c) (hca : c ≤ a) :
    RingCounters n a c :=
  ⟨hca, by have := hring.lt; omega⟩

end RingCounters

structure RingContents {α : Type*} (n : ℕ) (buf : ℕ → α) (b : ℕ) (q : List α) : Prop where
  lt : q.length < n
  slot : ∀ i, ∀ hi : i < q.length, buf ((b + i) % n) = q.get ⟨i, hi⟩

namespace RingContents

variable {α : Type*} {n b : ℕ} {buf : ℕ → α} {q : List α} {x : α}

theorem counters (h : RingContents n buf b q) : RingCounters n (b + q.length) b :=
  ⟨Nat.le_add_right _ _, Nat.add_lt_add_left h.lt b⟩

theorem push (h : RingContents n buf b q) (hroom : (b + q.length + 1) % n ≠ b % n) (x : α) :
    RingContents n (Function.update buf ((b + q.length) % n) x) b (q ++ [x]) := by
  have hlt : q.length + 1 < n := by
    by_contra hge
    have hfull : b + q.length + 1 = b + n := by
      have := h.lt
      omega
    rw [hfull, Nat.add_mod_right] at hroom
    exact hroom rfl
  refine ⟨by rwa [List.length_append, List.length_singleton], fun i hi => ?_⟩
  rw [List.length_append, List.length_singleton] at hi
  rcases Nat.lt_succ_iff_lt_or_eq.mp hi with hold | rfl
  · rw [Function.update_of_ne, h.slot i hold, List.get_eq_getElem, List.get_eq_getElem,
      List.getElem_append_left hold]
    exact h.counters.slot_ne (Nat.le_add_right b i) (Nat.add_lt_add_left hold b)
  · rw [Function.update_self, List.get_eq_getElem, List.getElem_concat_length rfl]

theorem head (h : RingContents n buf b (x :: q)) : buf (b % n) = x :=
  h.slot 0 (Nat.succ_pos _)

theorem pop (h : RingContents n buf b (x :: q)) : RingContents n buf (b + 1) q := by
  refine ⟨Nat.lt_of_succ_lt h.lt, fun i hi => ?_⟩
  rw [Nat.add_assoc, Nat.add_comm 1 i]
  exact h.slot (i + 1) (Nat.succ_lt_succ hi)

theorem eq_map (h : RingContents n buf b q) :
    (List.range (((b + q.length) % n + n - b % n) % n)).map (fun i => buf ((b % n + i) % n)) =
      q := by
  have hn : b % n < n := Nat.mod_lt b (Nat.zero_lt_of_lt h.lt)
  have hcount : ((b + q.length) % n + n - b % n) % n = q.length := by
    rw [← Nat.mod_add_mod b n q.length]
    have hlt := h.lt
    rcases Nat.lt_or_ge (b % n + q.length) n with hin | hover
    · rw [Nat.mod_eq_of_lt hin, show b % n + q.length + n - b % n = q.length + n by omega,
        Nat.add_mod_right, Nat.mod_eq_of_lt hlt]
    · have hwrapped : (b % n + q.length) % n = b % n + q.length - n := by
        rw [Nat.mod_eq_sub_mod hover]
        exact Nat.mod_eq_of_lt (by omega)
      rw [hwrapped, show b % n + q.length - n + n - b % n = q.length by omega,
        Nat.mod_eq_of_lt hlt]
  rw [hcount]
  apply List.ext_getElem
  · rw [List.length_map, List.length_range]
  · intro i hleft hright
    rw [List.getElem_map, List.getElem_range, Nat.mod_add_mod]
    exact h.slot i hright

end RingContents

theorem rotate_range_cons {n c : ℕ} (hc : c < n) :
    (List.range n).rotate c = c :: ((List.range n).rotate c).tail := by
  have hlen : c < (List.range n).length := by
    rw [List.length_range]
    exact hc
  have hhead := List.head?_rotate hlen
  rw [List.getElem?_range hc] at hhead
  exact (List.cons_head?_tail hhead).symm

theorem rotate_range_succ {n c : ℕ} {rest : List ℕ} (horder : c :: rest = (List.range n).rotate c) :
    rest ++ [c] = (List.range n).rotate ((c + 1) % n) := by
  have hmod := List.rotate_mod (List.range n) (c + 1)
  rw [List.length_range] at hmod
  rw [hmod, ← List.rotate_rotate, ← horder, List.rotate_cons_succ, List.rotate_zero]

theorem filter_key_head {α β : Type*} [DecidableEq α] {a : α} {b : β} {rest : List (α × β)}
    (hfresh : a ∉ rest.map Prod.fst) :
    ((a, b) :: rest).filter (fun e => e.1 ≠ a) = rest ∧
      ((a, b) :: rest).filter (fun e => e.1 = a) = [(a, b)] := by
  have hne : ∀ e ∈ rest, e.1 ≠ a := by
    rintro e he rfl
    exact hfresh (List.mem_map_of_mem he)
  refine ⟨?_, ?_⟩
  · rw [List.filter_cons_of_neg (by simp), List.filter_eq_self]
    intro e he
    simpa using hne e he
  · rw [List.filter_cons_of_pos (by simp), List.filter_eq_nil_iff.mpr]
    intro e he
    simpa using hne e he

end HiMpu
