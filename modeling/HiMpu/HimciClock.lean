import Mathlib.Algebra.Order.Floor.Div
import Mathlib.Tactic

/-!
# The card clock of the eMMC and SD host

`hi_mci_set_cclk` of `drivers/sdio/himci.c` and what `hi_mci_set_ios` does with a
requested clock.  The card gets the base clock over twice the divider, and the
base clock itself for the divider 0.
-/

namespace HiMpu.HimciClock

inductive Build
  | emmc
  | sdio
  deriving DecidableEq

def emmcClkBase : BitVec 32 := 100000000
def sdioClkBase : BitVec 32 := 25000000
def emmcCclkMax : BitVec 32 := 100000000
def sdioCclkMax : BitVec 32 := 25000000
def mmcCclkMin : BitVec 32 := 60000

def Build.clkBase : Build → BitVec 32
  | .emmc => emmcClkBase
  | .sdio => sdioClkBase

def Build.fMax : Build → BitVec 32
  | .emmc => emmcCclkMax
  | .sdio => sdioCclkMax

inductive Reg
  | clkdiv
  | clkena
  | cmdarg
  | cmd

def cclkEnable : BitVec 32 := 1
def cclkDisable : BitVec 32 := 0xfffffffe
def updClk : BitVec 32 := 1#32 <<< 21 ||| 1#32 <<< 13 ||| 1#32 <<< 31

def divider (clkBase cclk : BitVec 32) : Option (BitVec 32) :=
  if cclk < clkBase then
    if cclk * 2 = 0 then none
    else
      let regValue := clkBase / (cclk * 2)
      let regValue := if clkBase % (cclk * 2) ≠ 0 then regValue + 1 else regValue
      some (if regValue > 0xff then 0xff else regValue)
  else some 0

def hiMciSetCclk (build : Build) (cclk : BitVec 32) : Option (List (Reg × BitVec 32)) :=
  (divider build.clkBase cclk).map fun regValue =>
    [(.clkdiv, regValue), (.cmdarg, 0), (.cmd, updClk)]

def hiMciControlCclk (clkena : BitVec 32) (enable : Bool) : List (Reg × BitVec 32) :=
  [(.clkena, if enable then clkena ||| cclkEnable else clkena &&& cclkDisable), (.cmdarg, 0),
    (.cmd, updClk)]

/-- The clock in `hi_mci_set_ios`; `CLKENA` is read back after each write. -/
def hiMciSetIosClock (build : Build) (clkena clock : BitVec 32) :
    Option (List (Reg × BitVec 32)) :=
  if clock ≠ 0 then
    (hiMciSetCclk build clock).map fun writes =>
      hiMciControlCclk clkena false ++ writes ++ hiMciControlCclk (clkena &&& cclkDisable) true
  else some (hiMciControlCclk clkena false)

def cardClock (clkBase n : ℕ) : ℚ :=
  if n = 0 then clkBase else clkBase / (2 * n)

def Slow (clkBase cclk : ℕ) : Set ℕ :=
  {n | n ≤ 255 ∧ cardClock clkBase n ≤ cclk}

theorem cardClock_le_iff {clkBase n cclk : ℕ} (hn : 0 < n) :
    cardClock clkBase n ≤ cclk ↔ clkBase ≤ n * (cclk * 2) := by
  have hn2 : (0 : ℚ) < 2 * n := by positivity
  unfold cardClock
  rw [if_neg (by omega), div_le_iff₀ hn2]
  have hcast : ((cclk : ℚ) * (2 * n)) = ((n * (cclk * 2) : ℕ) : ℚ) := by
    push_cast
    ring
  rw [hcast, Nat.cast_le]

theorem cardClock_zero_le_iff {clkBase cclk : ℕ} : cardClock clkBase 0 ≤ cclk ↔ clkBase ≤ cclk := by
  unfold cardClock
  rw [if_pos rfl, Nat.cast_le]

theorem mem_slow_iff {clkBase cclk n : ℕ} (hpos : 0 < cclk) (hlt : cclk < clkBase) :
    n ∈ Slow clkBase cclk ↔ n ≤ 255 ∧ clkBase ⌈/⌉ (cclk * 2) ≤ n := by
  unfold Slow
  rw [Set.mem_ofPred_eq, and_congr_right_iff, ceilDiv_le_iff_le_mul (by omega : 0 < cclk * 2)]
  intro _
  cases n with
  | zero =>
    rw [cardClock_zero_le_iff, mul_zero]
    omega
  | succ n => rw [cardClock_le_iff n.succ_pos, mul_comm]

theorem isLeast_zero {clkBase cclk : ℕ} (hle : clkBase ≤ cclk) : IsLeast (Slow clkBase cclk) 0 := by
  constructor
  · exact ⟨by omega, cardClock_zero_le_iff.mpr hle⟩
  · intro n _
    exact n.zero_le

theorem isLeast_min_iff {clkBase cclk : ℕ} (hpos : 0 < cclk) (hlt : cclk < clkBase) :
    IsLeast (Slow clkBase cclk) (min 255 (clkBase ⌈/⌉ (cclk * 2))) ↔
      clkBase ≤ 510 * cclk := by
  have hfits : clkBase ⌈/⌉ (cclk * 2) ≤ 255 ↔ clkBase ≤ 510 * cclk := by
    rw [ceilDiv_le_iff_le_mul (by omega)]
    omega
  rw [← hfits]
  constructor
  · intro hleast
    have hmem := (mem_slow_iff hpos hlt).mp hleast.1
    omega
  · intro hle
    rw [min_eq_right hle]
    constructor
    · exact (mem_slow_iff hpos hlt).mpr ⟨hle, le_rfl⟩
    · intro n hn
      exact ((mem_slow_iff hpos hlt).mp hn).2

theorem Build.clkBase_lt (build : Build) : build.clkBase.toNat < 2 ^ 30 := by
  cases build <;> decide

section Product

variable {build : Build} {cclk : BitVec 32}

theorem toNat_product (hlt : cclk < build.clkBase) : (cclk * 2).toNat = cclk.toNat * 2 := by
  have hbase := build.clkBase_lt
  have hnat : cclk.toNat < build.clkBase.toNat := hlt
  rw [BitVec.toNat_mul]
  exact Nat.mod_eq_of_lt (by simp; omega)

theorem product_ne_zero (hne : cclk ≠ 0) (hlt : cclk < build.clkBase) : cclk * 2 ≠ 0 := by
  intro hzero
  have hnat := congrArg BitVec.toNat hzero
  rw [toNat_product hlt] at hnat
  apply hne
  apply BitVec.eq_of_toNat_eq
  simp at hnat ⊢
  omega

end Product

theorem ceilDiv_eq (a b : ℕ) (hb : 0 < b) :
    a ⌈/⌉ b = a / b + if a % b ≠ 0 then 1 else 0 := by
  have hdiv := Nat.div_add_mod a b
  have hmod := Nat.mod_lt a hb
  apply le_antisymm
  · rw [ceilDiv_le_iff_le_mul hb, mul_add]
    split
    · omega
    · omega
  · split
    next hrem =>
      by_contra hlt
      have hle : a ⌈/⌉ b ≤ a / b := by omega
      rw [ceilDiv_le_iff_le_mul hb] at hle
      omega
    next => simpa using (floorDiv_le_ceilDiv : a ⌊/⌋ b ≤ a ⌈/⌉ b)

theorem toNat_rounded {a b : BitVec 32} (hb : b ≠ 0) (ha : a.toNat < 2 ^ 30) :
    (if a % b ≠ 0 then a / b + 1 else a / b).toNat = a.toNat ⌈/⌉ b.toNat := by
  have hpos : 0 < b.toNat :=
    Nat.pos_of_ne_zero fun h => hb (BitVec.eq_of_toNat_eq (by simpa using h))
  have hquot : a.toNat / b.toNat < 2 ^ 30 := lt_of_le_of_lt (Nat.div_le_self _ _) ha
  have hrem : a % b ≠ 0 ↔ a.toNat % b.toNat ≠ 0 := by
    rw [← BitVec.toNat_umod, not_iff_not]
    constructor
    · intro h
      rw [h]
      rfl
    · intro h
      exact BitVec.eq_of_toNat_eq (by simpa using h)
  rw [ceilDiv_eq _ _ hpos]
  by_cases h : a.toNat % b.toNat ≠ 0
  · rw [if_pos (hrem.mpr h), if_pos h, BitVec.toNat_add, BitVec.toNat_udiv]
    exact Nat.mod_eq_of_lt (by simp; omega)
  · rw [if_neg (mt hrem.mp h), if_neg h, BitVec.toNat_udiv, add_zero]

theorem toNat_cut (regValue : BitVec 32) :
    (if regValue > 0xff then 0xff else regValue).toNat = min 255 regValue.toNat := by
  split
  next hcut =>
    have hnat : 255 < regValue.toNat := hcut
    rw [min_eq_left hnat.le]
    rfl
  next hcut =>
    have hnat : regValue.toNat ≤ 255 := Nat.le_of_not_lt hcut
    rw [min_eq_right hnat]

theorem divider_below {build : Build} {cclk : BitVec 32} (hne : cclk ≠ 0)
    (hlt : cclk < build.clkBase) :
    ∃ n, divider build.clkBase cclk = some n ∧
      n.toNat = min 255 (build.clkBase.toNat ⌈/⌉ (cclk.toNat * 2)) := by
  have hnonzero := product_ne_zero hne hlt
  have hround := toNat_rounded hnonzero build.clkBase_lt
  unfold divider
  rw [if_pos hlt, if_neg hnonzero]
  constructor
  · constructor
    · rfl
    · rw [toNat_cut, hround, toNat_product hlt]

theorem divider_above {build : Build} {cclk : BitVec 32} (hge : build.clkBase ≤ cclk) :
    divider build.clkBase cclk = some 0 :=
  if_neg (BitVec.not_lt.mpr hge)

theorem divider_isSome {build : Build} {cclk : BitVec 32} (hne : cclk ≠ 0) :
    (divider build.clkBase cclk).isSome := by
  by_cases hlt : cclk < build.clkBase
  · obtain ⟨n, hn, _⟩ := divider_below hne hlt
    rw [hn]
    rfl
  · rw [divider_above (BitVec.not_lt.mp hlt)]
    rfl

structure CclkCorrect (build : Build) (cclk : BitVec 32) : Prop where
  defined : (hiMciSetCclk build cclk).isSome
  exact : cclk < build.clkBase → (cclk * 2).toNat = cclk.toNat * 2
  least : mmcCclkMin ≤ cclk → cclk ≤ build.fMax →
    ∃ n, hiMciSetCclk build cclk = some [(.clkdiv, n), (.cmdarg, 0), (.cmd, updClk)] ∧
      IsLeast (Slow build.clkBase.toNat cclk.toNat) n.toNat

theorem least_iff {build : Build} {cclk : BitVec 32} (hne : cclk ≠ 0) :
    (∃ n, hiMciSetCclk build cclk = some [(.clkdiv, n), (.cmdarg, 0), (.cmd, updClk)] ∧
      IsLeast (Slow build.clkBase.toNat cclk.toNat) n.toNat) ↔
      build.clkBase.toNat ≤ 510 * cclk.toNat := by
  have hpos : 0 < cclk.toNat :=
    Nat.pos_of_ne_zero fun h => hne (BitVec.eq_of_toNat_eq (by simpa using h))
  unfold hiMciSetCclk
  by_cases hlt : cclk < build.clkBase
  · obtain ⟨n, hn, hvalue⟩ := divider_below hne hlt
    rw [hn, ← isLeast_min_iff hpos hlt, ← hvalue]
    simp
  · have hge : build.clkBase ≤ cclk := BitVec.not_lt.mp hlt
    have hnat : build.clkBase.toNat ≤ cclk.toNat := hge
    rw [divider_above hge]
    have hleast := isLeast_zero hnat
    constructor
    · intro _
      omega
    · intro _
      exact ⟨0, rfl, hleast⟩

theorem hiMciSetCclk_correct_iff (build : Build) (cclk : BitVec 32) (hne : cclk ≠ 0) :
    CclkCorrect build cclk ↔
      ¬ (build = .emmc ∧ mmcCclkMin ≤ cclk ∧ cclk < 196079) := by
  constructor
  · rintro hcorrect ⟨rfl, hmin, hlt⟩
    have hlow : cclk.toNat < 196079 := hlt
    have hmax : cclk ≤ Build.emmc.fMax := by
      have hnat : cclk.toNat ≤ 100000000 := by omega
      exact hnat
    have hnat : Build.emmc.clkBase.toNat ≤ 510 * cclk.toNat :=
      (least_iff hne).mp (hcorrect.least hmin hmax)
    have hbase : Build.emmc.clkBase.toNat = 100000000 := rfl
    omega
  · intro hother
    constructor
    · unfold hiMciSetCclk
      simpa using divider_isSome hne
    · exact toNat_product
    · intro hmin _
      apply (least_iff hne).mpr
      have hlow : 60000 ≤ cclk.toNat := hmin
      cases build with
      | emmc =>
        have hbase : Build.emmc.clkBase.toNat = 100000000 := rfl
        have hfast : ¬ cclk < 196079 := fun hlt => hother ⟨rfl, hmin, hlt⟩
        have hge : 196079 ≤ cclk.toNat := BitVec.not_lt.mp hfast
        omega
      | sdio =>
        have hbase : Build.sdio.clkBase.toNat = 25000000 := rfl
        omega

theorem hiMciSetCclk_correct_iff_identification :
    ¬ CclkCorrect .emmc 100000 ∧ CclkCorrect .emmc 400000 :=
  ⟨fun h => (hiMciSetCclk_correct_iff .emmc 100000 (by decide)).mp h (by decide),
    (hiMciSetCclk_correct_iff .emmc 400000 (by decide)).mpr (by decide)⟩

/-- The last of the identification clocks: the card gets nearly twice of it. -/
theorem hiMciSetCclk_not_correct :
    hiMciSetCclk .emmc 100000 = some [(.clkdiv, 255), (.cmdarg, 0), (.cmd, updClk)] ∧
      (100000 : ℚ) < cardClock 100000000 255 ∧ ¬ CclkCorrect .emmc 100000 := by
  have hwrites : hiMciSetCclk .emmc 100000 =
      some [(.clkdiv, 255), (.cmdarg, 0), (.cmd, updClk)] := by rfl
  have hfast : (100000 : ℚ) < cardClock 100000000 255 := by norm_num [cardClock]
  constructor
  · exact hwrites
  constructor
  · exact hfast
  · intro hcorrect
    obtain ⟨n, hn, hleast⟩ := hcorrect.least (by decide) (by decide)
    rw [hwrites] at hn
    simp only [Option.some.injEq, List.cons.injEq, Prod.mk.injEq, true_and, and_true] at hn
    subst hn
    have hslow : cardClock 100000000 255 ≤ (100000 : ℕ) := hleast.1.2
    push_cast at hslow
    exact absurd hslow (not_le.mpr hfast)

end HiMpu.HimciClock
