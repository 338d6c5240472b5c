import Mathlib.Tactic

/-!
# The 64-bit values of the timer

The load values and the count of `drivers/timer/timer_core.c`.  Each is kept in two
registers that are checked, written and read one after the other, while the counter goes
on.  Between two reloads it runs down through every value, so what it holds during a call
is a sequence of descents.
-/

namespace HiMpu.HiTimerValue

def einval : ℤ := 22
def enodev : ℤ := 19

def timerLoadLReg : ℕ := 0x0
def timerLoadHReg : ℕ := 0x4
def timerBgloadLReg : ℕ := 0x20
def timerBgloadHReg : ℕ := 0x24

def low (v : BitVec 64) : BitVec 32 := v.setWidth 32
def high (v : BitVec 64) : BitVec 32 := (v >>> 32).setWidth 32

/-- `struct hisi_timer`; `ready` is for the right `init_magic`. -/
structure Timer where
  ready : Bool
  regs : ℕ → BitVec 32

def Timer.writel (timer : Timer) (value : BitVec 32) (reg : ℕ) : Timer :=
  { timer with regs := Function.update timer.regs reg value }

def getPair (hitimer : Option Timer) (lNull hNull : Bool) (regL regH : ℕ) :
    Except ℤ (BitVec 32 × BitVec 32) :=
  match hitimer with
  | none => .error (-einval)
  | some timer =>
    if lNull ∨ hNull then .error (-einval)
    else if !timer.ready then .error (-enodev)
    else .ok (timer.regs regL, timer.regs regH)

def setPair (timer : Timer) (l h : BitVec 32) (regL regH : ℕ) : Except ℤ Timer :=
  if !timer.ready then .error (-enodev)
  else .ok ((timer.writel h regH).writel l regL)

def hitimerGetBgloadValue (hitimer : Option Timer) (lNull hNull : Bool) :
    Except ℤ (BitVec 32 × BitVec 32) :=
  getPair hitimer lNull hNull timerBgloadLReg timerBgloadHReg

def hitimerSetBgloadValue (hitimer : Option Timer) (bgloadL bgloadH : BitVec 32) :
    Except ℤ Timer :=
  match hitimer with
  | none => .error (-einval)
  | some timer =>
    if bgloadL = 0 ∨ bgloadH = 0 then .error (-einval)
    else setPair timer bgloadL bgloadH timerBgloadLReg timerBgloadHReg

def hitimerGetLoadValue (hitimer : Option Timer) (lNull hNull : Bool) :
    Except ℤ (BitVec 32 × BitVec 32) :=
  getPair hitimer lNull hNull timerLoadLReg timerLoadHReg

def hitimerSetLoadValue (hitimer : Option Timer) (loadL loadH : BitVec 32) : Except ℤ Timer :=
  match hitimer with
  | none => .error (-einval)
  | some timer => setPair timer loadL loadH timerLoadLReg timerLoadHReg

/-- The counter is `atL` when `TIMER_VALUE_L_REG` is read and `atH` at the other read. -/
def hitimerGetCntValue (hitimer : Option Timer) (lNull hNull : Bool) (atL atH : BitVec 64) :
    Except ℤ (BitVec 32 × BitVec 32) :=
  match hitimer with
  | none => .error (-einval)
  | some timer =>
    if lNull ∨ hNull then .error (-einval)
    else if !timer.ready then .error (-enodev)
    else .ok (low atL, high atH)

structure Descent where
  start : BitVec 64
  stop : BitVec 64
  le : stop ≤ start

def Descent.values (d : Descent) : List (BitVec 64) :=
  (List.range (d.start.toNat - d.stop.toNat + 1)).map fun n => d.start - BitVec.ofNat 64 n

def trajectory (descents : List Descent) : List (BitVec 64) := descents.flatMap Descent.values

/-- The counter during a call, and the instants of the two reads. -/
structure Call where
  descents : List Descent
  i : ℕ
  j : ℕ
  le : i ≤ j
  lt : j < (trajectory descents).length

def Call.atL (call : Call) : BitVec 64 :=
  (trajectory call.descents).get ⟨call.i, lt_of_le_of_lt call.le call.lt⟩

def Call.atH (call : Call) : BitVec 64 := (trajectory call.descents).get ⟨call.j, call.lt⟩

structure BgloadCorrect (timer : Timer) (v : BitVec 64) : Prop where
  roundTrip : 1 ≤ v → ∃ timer', hitimerSetBgloadValue (some timer) (low v) (high v) = .ok timer' ∧
    hitimerGetBgloadValue (some timer') false false = .ok (low v, high v)
  zero : v = 0 → hitimerSetBgloadValue (some timer) (low v) (high v) = .error (-einval)

def LoadCorrect (timer : Timer) (v : BitVec 64) : Prop :=
  ∃ timer', hitimerSetLoadValue (some timer) (low v) (high v) = .ok timer' ∧
    hitimerGetLoadValue (some timer') false false = .ok (low v, high v)

def CntCorrect (timer : Timer) (call : Call) : Prop :=
  ∃ v ∈ trajectory call.descents,
    hitimerGetCntValue (some timer) false false call.atL call.atH = .ok (low v, high v)

structure Coherent (timer : Timer) (v : BitVec 64) (call : Call) : Prop where
  bgload : BgloadCorrect timer v
  load : LoadCorrect timer v
  cnt : CntCorrect timer call

section Halves

variable (v w : BitVec 64)

theorem toNat_low : (low v).toNat = v.toNat % 2 ^ 32 := by
  unfold low
  rw [BitVec.toNat_setWidth]

theorem toNat_high : (high v).toNat = v.toNat / 2 ^ 32 := by
  have hlt := v.isLt
  unfold high
  rw [BitVec.toNat_setWidth, BitVec.toNat_ushiftRight, Nat.shiftRight_eq_div_pow]
  omega

theorem le_iff_halves : v ≤ w ↔ high v < high w ∨ high v = high w ∧ low v ≤ low w := by
  have hhigh : high v = high w ↔ (high v).toNat = (high w).toNat := BitVec.toNat_eq
  rw [BitVec.le_def, BitVec.le_def, BitVec.lt_def, hhigh, toNat_low, toNat_low, toNat_high,
    toNat_high]
  omega

end Halves

theorem exists_halves (h l : BitVec 32) : ∃ v, high v = h ∧ low v = l := by
  have hh := h.isLt
  have hl := l.isLt
  have hvalue : (BitVec.ofNat 64 (h.toNat * 2 ^ 32 + l.toNat)).toNat =
      h.toNat * 2 ^ 32 + l.toNat := by
    rw [BitVec.toNat_ofNat]
    exact Nat.mod_eq_of_lt (by omega)
  refine ⟨BitVec.ofNat 64 (h.toNat * 2 ^ 32 + l.toNat), ?_, ?_⟩
  · apply BitVec.eq_of_toNat_eq
    rw [toNat_high, hvalue]
    omega
  · apply BitVec.eq_of_toNat_eq
    rw [toNat_low, hvalue]
    omega

def Descent.Spans (d : Descent) (h l : BitVec 32) : Prop :=
  (high d.stop < h ∨ high d.stop = h ∧ low d.stop ≤ l) ∧
    (h < high d.start ∨ h = high d.start ∧ l ≤ low d.start)

theorem Descent.length_values (d : Descent) :
    d.values.length = d.start.toNat - d.stop.toNat + 1 := by
  unfold Descent.values
  rw [List.length_map, List.length_range]

theorem Descent.getElem_values (d : Descent) {n : ℕ} (hn : n < d.values.length) :
    d.values[n].toNat = d.start.toNat - n := by
  have hlt := d.start.isLt
  have hlength := d.length_values
  have hword : (BitVec.ofNat 64 n).toNat = n := by
    rw [BitVec.toNat_ofNat]
    exact Nat.mod_eq_of_lt (by omega)
  simp only [Descent.values, List.getElem_map, List.getElem_range]
  rw [BitVec.toNat_sub_of_le, hword]
  rw [BitVec.le_def, hword]
  omega

theorem Descent.mem_values (d : Descent) (v : BitVec 64) :
    v ∈ d.values ↔ d.stop ≤ v ∧ v ≤ d.start := by
  have hle : d.stop.toNat ≤ d.start.toNat := d.le
  rw [List.mem_iff_getElem, BitVec.le_def, BitVec.le_def]
  constructor
  · rintro ⟨n, hn, rfl⟩
    have hvalue := d.getElem_values hn
    have hlength := d.length_values
    omega
  · rintro ⟨hstop, hstart⟩
    have hn : d.start.toNat - v.toNat < d.values.length := by
      rw [d.length_values]
      omega
    refine ⟨d.start.toNat - v.toNat, hn, ?_⟩
    apply BitVec.eq_of_toNat_eq
    rw [d.getElem_values hn]
    omega

theorem Descent.spans_iff (d : Descent) (v : BitVec 64) :
    d.Spans (high v) (low v) ↔ v ∈ d.values := by
  unfold Descent.Spans
  rw [d.mem_values, le_iff_halves d.stop v, le_iff_halves v d.start]

theorem mem_trajectory {descents : List Descent} {v : BitVec 64} :
    v ∈ trajectory descents ↔ ∃ d ∈ descents, v ∈ d.values :=
  List.mem_flatMap

section Loads

variable {timer : Timer} {v : BitVec 64}

theorem getPair_setPair {l h : BitVec 32} {regL regH : ℕ} (hready : timer.ready = true)
    (hne : regH ≠ regL) :
    ∃ timer', setPair timer l h regL regH = .ok timer' ∧
      getPair (some timer') false false regL regH = .ok (l, h) := by
  refine ⟨(timer.writel h regH).writel l regL, ?_, ?_⟩
  · unfold setPair
    rw [if_neg (by simp [hready])]
  · have hready' : ((timer.writel h regH).writel l regL).ready = true := hready
    have hl : ((timer.writel h regH).writel l regL).regs regL = l := Function.update_self _ _ _
    have hh : ((timer.writel h regH).writel l regL).regs regH = h :=
      (Function.update_of_ne hne _ _).trans (Function.update_self _ _ _)
    simp [getPair, hready', hl, hh]

theorem load_correct (hready : timer.ready = true) (v : BitVec 64) : LoadCorrect timer v :=
  getPair_setPair hready (by decide)

theorem bgload_correct_iff (hready : timer.ready = true) :
    BgloadCorrect timer v ↔ v = 0 ∨ low v ≠ 0 ∧ high v ≠ 0 := by
  constructor
  · intro hcorrect
    by_contra hhalf
    obtain ⟨hne, hzero⟩ := not_or.mp hhalf
    have hpos : 1 ≤ v := by
      rw [BitVec.le_def]
      exact Nat.one_le_iff_ne_zero.mpr fun h => hne (BitVec.eq_of_toNat_eq h)
    obtain ⟨timer', hset, _⟩ := hcorrect.roundTrip hpos
    have hrejected : low v = 0 ∨ high v = 0 := by
      by_contra hboth
      exact hzero (not_or.mp hboth)
    unfold hitimerSetBgloadValue at hset
    simp only [if_pos hrejected, reduceCtorEq] at hset
  · intro hhalves
    constructor
    · intro hpos
      have hne : v ≠ 0 := by
        rintro rfl
        exact absurd hpos (by decide)
      have hboth : ¬ (low v = 0 ∨ high v = 0) := by
        obtain hzero | ⟨hlow, hhigh⟩ := hhalves
        · exact absurd hzero hne
        · rintro (h | h)
          · exact hlow h
          · exact hhigh h
      unfold hitimerSetBgloadValue
      simp only [if_neg hboth]
      exact getPair_setPair hready (by decide)
    · rintro rfl
      rfl

end Loads

theorem cnt_correct_iff {timer : Timer} (hready : timer.ready = true) (call : Call) :
    CntCorrect timer call ↔ ∃ d ∈ call.descents, d.Spans (high call.atH) (low call.atL) := by
  have hget : hitimerGetCntValue (some timer) false false call.atL call.atH =
      .ok (low call.atL, high call.atH) := by
    simp [hitimerGetCntValue, hready]
  unfold CntCorrect
  rw [hget]
  constructor
  · rintro ⟨v, hmem, hpair⟩
    obtain ⟨d, hd, hv⟩ := mem_trajectory.mp hmem
    have hhalves : (low call.atL, high call.atH) = (low v, high v) := Except.ok.inj hpair
    obtain ⟨hlow, hhigh⟩ := Prod.mk.inj hhalves
    refine ⟨d, hd, ?_⟩
    rw [hlow, hhigh]
    exact (d.spans_iff v).mpr hv
  · rintro ⟨d, hd, hspans⟩
    obtain ⟨v, hhigh, hlow⟩ := exists_halves (high call.atH) (low call.atL)
    rw [← hhigh, ← hlow] at hspans
    refine ⟨v, mem_trajectory.mpr ⟨d, hd, (d.spans_iff v).mp hspans⟩, ?_⟩
    rw [hhigh, hlow]

def borrow : Call where
  descents := [⟨0x100000000, 0xffffffff, by decide⟩]
  i := 0
  j := 1
  le := by decide
  lt := by decide

def noBorrow : Call where
  descents := [⟨0x100000000, 0xffffffff, by decide⟩]
  i := 0
  j := 0
  le := by decide
  lt := by decide

end HiMpu.HiTimerValue
