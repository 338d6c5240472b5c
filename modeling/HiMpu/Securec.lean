import HiMpu.ByteMemory

/-!
# The bounds-checked memory functions

`memset_s` and `memcpy_s` as `platform/securec` implements them: the fast path
when every parameter is in order, otherwise the error function, which may
reset the whole destination before it reports the violation.
-/

namespace HiMpu.Securec

def eok : ℕ := 0
def einval : ℕ := 22
def erange : ℕ := 34
def einvalAndReset : ℕ := 150
def erangeAndReset : ℕ := 162
def eoverlapAndReset : ℕ := 182

def securecMemMaxLen : ℕ := 0x7fffffff

def memsetS (m : Mem) (dest destMax : ℕ) (c : UInt8) (count : ℕ) : Mem × ℕ :=
  if destMax ≤ securecMemMaxLen ∧ dest ≠ 0 ∧ count ≤ destMax then
    (m.fill dest count c, eok)
  else if destMax = 0 ∨ securecMemMaxLen < destMax then (m, erange)
  else if dest = 0 then (m, einval)
  else (m.fill dest destMax c, erangeAndReset)

theorem memsetS_whole {m : Mem} {d n : ℕ} {c : UInt8}
    (hdest : d ≠ 0) (hcount : n ≤ securecMemMaxLen) :
    memsetS m d n c n = (m.fill d n c, eok) := by
  have hok : n ≤ securecMemMaxLen ∧ d ≠ 0 ∧ n ≤ n := ⟨hcount, hdest, le_rfl⟩
  simp only [memsetS, if_pos hok]

/-- `memcpy_s` into an object from the bytes of another one: neither pointer is
null and the two do not overlap. -/
def memcpySObject (dest : Mem) (destMax : ℕ) (src : List UInt8) : Mem × ℕ :=
  if src.length ≤ destMax ∧ destMax ≤ securecMemMaxLen ∧ 0 < src.length then
    (dest.write 0 src, eok)
  else if destMax = 0 ∨ securecMemMaxLen < destMax then (dest, erange)
  else if destMax < src.length then (dest.fill 0 destMax 0, erangeAndReset)
  else (dest, eok)

theorem memcpySObject_fits {d : Mem} {destMax : ℕ} {src : List UInt8}
    (hsrc : 0 < src.length) (hfits : src.length ≤ destMax) (hmax : destMax ≤ securecMemMaxLen) :
    memcpySObject d destMax src = (d.write 0 src, eok) := by
  simp only [memcpySObject, if_pos (And.intro hfits (And.intro hmax hsrc))]

/-- What a call of `memcpy_s` does to the destination: it moves or clears `count`
bytes, in an order of its own, and returns `ret`. -/
structure CopyPlan where
  clears : Bool
  count : ℕ
  ret : ℕ
deriving DecidableEq

def memoryNoOverlap (dest src count : ℕ) : Prop :=
  src < dest ∧ src + count ≤ dest ∨ dest < src ∧ dest + count ≤ src

def memoryIsOverlap (dest src count : ℕ) : Prop :=
  src < dest ∧ dest < src + count ∨ dest < src ∧ src < dest + count

instance (dest src count : ℕ) : Decidable (memoryNoOverlap dest src count) :=
  inferInstanceAs (Decidable (_ ∨ _))

instance (dest src count : ℕ) : Decidable (memoryIsOverlap dest src count) :=
  inferInstanceAs (Decidable (_ ∨ _))

def memcpyS (dest destMax src count : ℕ) : CopyPlan :=
  if count ≤ destMax ∧ dest ≠ 0 ∧ src ≠ 0 ∧ destMax ≤ securecMemMaxLen ∧ 0 < count ∧
      memoryNoOverlap dest src count then ⟨false, count, eok⟩
  else if destMax = 0 ∨ securecMemMaxLen < destMax then ⟨false, 0, erange⟩
  else if dest = 0 ∨ src = 0 then
    if dest ≠ 0 then ⟨true, destMax, einvalAndReset⟩ else ⟨false, 0, einval⟩
  else if destMax < count then ⟨true, destMax, erangeAndReset⟩
  else if memoryIsOverlap dest src count then ⟨true, destMax, eoverlapAndReset⟩
  else ⟨false, 0, eok⟩

def CopyPlan.run (plan : CopyPlan) (m : Mem) (dest src : ℕ) : Mem :=
  if plan.clears then m.fill dest plan.count 0 else m.write dest (m.bytes src plan.count)

theorem memcpyS_apart {dest destMax src count : ℕ} (hdest : dest ≠ 0) (hsrc : src ≠ 0)
    (hcount : count ≤ destMax) (hpos : 0 < destMax) (hmax : destMax ≤ securecMemMaxLen)
    (hapart : memoryNoOverlap dest src count) :
    memcpyS dest destMax src count = ⟨false, count, eok⟩ := by
  by_cases hzero : count = 0
  · subst hzero
    have hover : ¬ memoryIsOverlap dest src 0 := by
      unfold memoryIsOverlap
      omega
    have hrange : ¬ (destMax = 0 ∨ securecMemMaxLen < destMax) := by omega
    simp [memcpyS, hdest, hsrc, hover, hrange]
  · have hok : count ≤ destMax ∧ dest ≠ 0 ∧ src ≠ 0 ∧ destMax ≤ securecMemMaxLen ∧ 0 < count ∧
        memoryNoOverlap dest src count :=
      ⟨hcount, hdest, hsrc, hmax, Nat.pos_of_ne_zero hzero, hapart⟩
    simp only [memcpyS, if_pos hok]

/-- A call that fits clears the destination and fails, or copies and succeeds, as the
ranges overlap or not.  A range copied onto itself does not count as an overlap. -/
theorem memcpyS_fits {m : Mem} {dest destMax src count : ℕ} (hdest : dest ≠ 0) (hsrc : src ≠ 0)
    (hcount : count ≤ destMax) (hpos : 0 < destMax) (hmax : destMax ≤ securecMemMaxLen) :
    (memoryIsOverlap dest src count ∧
        memcpyS dest destMax src count = ⟨true, destMax, eoverlapAndReset⟩) ∨
      (¬ memoryIsOverlap dest src count ∧ (memcpyS dest destMax src count).ret = eok ∧
        ∀ x, (memcpyS dest destMax src count).run m dest src x =
          if dest ≤ x ∧ x < dest + count then m (src + (x - dest)) else m x) := by
  have hrange : ¬ (destMax = 0 ∨ securecMemMaxLen < destMax) := by omega
  have hnull : ¬ (dest = 0 ∨ src = 0) := by omega
  have hlen : ¬ destMax < count := by omega
  by_cases hover : memoryIsOverlap dest src count
  · have hno : ¬ memoryNoOverlap dest src count := by
      unfold memoryIsOverlap memoryNoOverlap at *
      omega
    exact Or.inl ⟨hover, by simp [memcpyS, hno, hrange, hnull, hlen, hover]⟩
  · refine Or.inr ⟨hover, ?_⟩
    by_cases hapart : memoryNoOverlap dest src count
    · rw [memcpyS_apart hdest hsrc hcount hpos hmax hapart]
      refine ⟨rfl, fun x => ?_⟩
      exact Mem.write_bytes m m dest src count x
    · have hplan : memcpyS dest destMax src count = ⟨false, 0, eok⟩ := by
        simp [memcpyS, hapart, hrange, hnull, hlen, hover]
      rw [hplan]
      refine ⟨rfl, fun x => ?_⟩
      have hnone : CopyPlan.run ⟨false, 0, eok⟩ m dest src x = m x := by
        refine (Mem.write_bytes m m dest src 0 x).trans (if_neg ?_)
        omega
      rw [hnone]
      split
      next hin =>
        -- neither apart nor overlapping, the two ranges are the same
        have hsame : src = dest := by
          unfold memoryIsOverlap memoryNoOverlap at *
          omega
        rw [hsame, Nat.add_sub_cancel' hin.1]
      next => rfl

end HiMpu.Securec
