import Mathlib.Tactic

/-!
# Tilings of an interval

A list of segments tiles `[start, stop)` when the segments have positive
length and follow each other without gap.  `pos` and `len` read the two ends
of a segment off an arbitrary type.

The main result is that a coalesced tiling, one in which no two neighbours are
both free, is determined by its segments that are not free.
-/

namespace HiMpu

variable {α : Type*}

def Tiles (pos len : α → ℕ) : ℕ → List α → ℕ → Prop
  | start, [], stop => start = stop
  | start, x :: xs, stop => pos x = start ∧ 0 < len x ∧ Tiles pos len (start + len x) xs stop

namespace Tiles

variable {pos len : α → ℕ} {start stop : ℕ} {xs ys : List α} {x : α}

@[simp] theorem nil_iff : Tiles pos len start [] stop ↔ start = stop := Iff.rfl

@[simp] theorem cons_iff :
    Tiles pos len start (x :: xs) stop ↔
      pos x = start ∧ 0 < len x ∧ Tiles pos len (start + len x) xs stop := Iff.rfl

theorem append_iff :
    Tiles pos len start (xs ++ ys) stop ↔
      ∃ middle, Tiles pos len start xs middle ∧ Tiles pos len middle ys stop := by
  induction xs generalizing start with
  | nil => simp
  | cons x xs ih => simp [ih, and_assoc]

theorem start_le_stop (htiles : Tiles pos len start xs stop) : start ≤ stop := by
  induction xs generalizing start with
  | nil => exact le_of_eq htiles
  | cons x xs ih =>
    have hrest := ih htiles.2.2
    omega

theorem bounds (htiles : Tiles pos len start xs stop) (hmem : x ∈ xs) :
    start ≤ pos x ∧ pos x + len x ≤ stop ∧ 0 < len x := by
  induction xs generalizing start with
  | nil => simp at hmem
  | cons y xs ih =>
    obtain ⟨hpos, hlen, hrest⟩ := htiles
    rcases List.mem_cons.mp hmem with rfl | hmem
    · have hle := hrest.start_le_stop
      omega
    · have htail := ih hrest hmem
      omega

theorem exists_mem {i : ℕ} (htiles : Tiles pos len start xs stop) (hlow : start ≤ i)
    (hhigh : i < stop) : ∃ x ∈ xs, pos x ≤ i ∧ i < pos x + len x := by
  induction xs generalizing start with
  | nil =>
    have heq : start = stop := htiles
    omega
  | cons x xs ih =>
    obtain ⟨hpos, hlen, hrest⟩ := htiles
    by_cases hfirst : i < start + len x
    · exact ⟨x, List.mem_cons_self, by omega, by omega⟩
    · obtain ⟨y, hmem, hin⟩ := ih hrest (by omega)
      exact ⟨y, List.mem_cons_of_mem _ hmem, hin⟩

theorem equal {d : ℕ} (start n : ℕ) (hd : 0 < d) :
    Tiles Prod.fst Prod.snd start ((List.range n).map fun i => (start + d * i, d))
      (start + d * n) := by
  induction n with
  | zero => rfl
  | succ n ih =>
    rw [List.range_succ, List.map_append]
    have hend : start + d * n + d = start + d * (n + 1) := by ring
    exact append_iff.mpr ⟨start + d * n, ih, rfl, hd, hend⟩

theorem pairwise (htiles : Tiles pos len start xs stop) :
    xs.Pairwise fun x y => pos x + len x ≤ pos y := by
  induction xs generalizing start with
  | nil => exact .nil
  | cons x xs ih =>
    obtain ⟨hpos, -, hrest⟩ := htiles
    refine .cons (fun y hy => ?_) (ih hrest)
    have hbound := hrest.bounds hy
    omega

theorem exists_cons (htiles : Tiles pos len start xs stop) (hlt : start < stop) :
    ∃ x rest, xs = x :: rest := by
  cases xs with
  | nil =>
    have heq : start = stop := htiles
    omega
  | cons x rest => exact ⟨x, rest, rfl⟩

theorem eq_nil (htiles : Tiles pos len start xs stop) (heq : start = stop) : xs = [] := by
  cases xs with
  | nil => rfl
  | cons x rest =>
    have hbound := htiles.bounds (List.mem_cons_self (a := x))
    omega

theorem length_mul_le {k : ℕ} (htiles : Tiles pos len start xs stop)
    (hmin : ∀ x ∈ xs, k ≤ len x) : xs.length * k + start ≤ stop := by
  induction xs generalizing start with
  | nil =>
    have heq : start = stop := htiles
    simp [heq]
  | cons x xs ih =>
    have hrest := ih htiles.2.2 fun y hy => hmin y (List.mem_cons_of_mem _ hy)
    have hx := hmin x List.mem_cons_self
    rw [List.length_cons, Nat.succ_mul]
    omega

end Tiles

def Coalesced (free : α → Bool) (xs : List α) : Prop :=
  xs.IsChain fun x y => free x = true → free y = false

section Unique

variable {pos len : α → ℕ} {free : α → Bool} {start stop : ℕ} {x : α} {xs ys : List α}

theorem Coalesced.end_of_free
    (htiles : Tiles pos len start (x :: xs) stop) (hco : Coalesced free (x :: xs))
    (hfree : free x = true) :
    match xs.filter fun y => !free y with
    | [] => start + len x = stop
    | used :: _ => pos used = start + len x := by
  cases xs with
  | nil => simpa using htiles.2.2
  | cons y rest =>
    have hused : free y = false := (List.isChain_cons_cons.mp hco).1 hfree
    simpa [hused] using htiles.2.2.1

theorem Coalesced.extents_unique
    (hxs : Tiles pos len start xs stop) (hys : Tiles pos len start ys stop)
    (hcox : Coalesced free xs) (hcoy : Coalesced free ys)
    (hused : (xs.filter fun z => !free z) = ys.filter fun z => !free z) :
    (xs.map fun z => (pos z, len z, free z)) = ys.map fun z => (pos z, len z, free z) := by
  induction xs generalizing start ys with
  | nil =>
    have heq : start = stop := hxs
    rw [hys.eq_nil heq]
  | cons x xs ih =>
    have hlt : start < stop := by
      have hbound := hxs.bounds List.mem_cons_self
      omega
    obtain ⟨y, ys, rfl⟩ := hys.exists_cons hlt
    have hcox' : Coalesced free xs := hcox.tail
    have hcoy' : Coalesced free ys := hcoy.tail
    cases hx : free x with
    | false =>
      cases hy : free y with
      | false =>
        simp only [List.filter_cons, hx, hy, Bool.not_false, if_true,
          List.cons.injEq] at hused
        obtain ⟨rfl, htail⟩ := hused
        simp only [List.map_cons, ih hxs.2.2 hys.2.2 hcox' hcoy' htail]
      | true =>
        -- The first used segment of `ys` starts behind `y`, that of `xs` at `start`.
        have hend := hcoy.end_of_free hys hy
        simp only [List.filter_cons, hx, hy, Bool.not_false, Bool.not_true, if_true,
          Bool.false_eq_true, if_false] at hused
        rw [← hused] at hend
        have hposx : pos x = start := hxs.1
        have hleny : 0 < len y := hys.2.1
        simp only at hend
        omega
    | true =>
      cases hy : free y with
      | false =>
        have hend := hcox.end_of_free hxs hx
        simp only [List.filter_cons, hx, hy, Bool.not_false, Bool.not_true, if_true,
          Bool.false_eq_true, if_false] at hused
        rw [hused] at hend
        have hposy : pos y = start := hys.1
        have hlenx : 0 < len x := hxs.2.1
        simp only at hend
        omega
      | true =>
        have hendx := hcox.end_of_free hxs hx
        have hendy := hcoy.end_of_free hys hy
        simp only [List.filter_cons, hx, hy, Bool.not_true, Bool.false_eq_true,
          if_false] at hused
        have hlen : len x = len y := by
          rw [hused] at hendx
          cases hfirst : ys.filter fun z => !free z with
          | nil =>
            simp only [hfirst] at hendx hendy
            omega
          | cons used rest =>
            simp only [hfirst] at hendx hendy
            omega
        have hposx : pos x = start := hxs.1
        have hposy : pos y = start := hys.1
        have hys' : Tiles pos len (start + len x) ys stop := by
          rw [hlen]
          exact hys.2.2
        simp only [List.map_cons, hposx, hposy, hlen, hx, hy,
          ih hxs.2.2 hys' hcox' hcoy' hused]

end Unique

end HiMpu
