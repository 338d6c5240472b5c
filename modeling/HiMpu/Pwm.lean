import Mathlib.Tactic

/-!
# The duty cycles of the fan outputs

`pwm_set_duty_ratio`, `pwm_get_duty_ratio` and `pwm_all_prd_init` of
`drivers/pwm/pwm_ker.c`.  A channel has a period, a low time and the start of its high
time; the low time is the complement of the duty, and all products are 32-bit words.
-/

namespace HiMpu.Pwm

def einval : ℤ := 22

def pwmFirstHalf : ℕ := 5
def fanFirstHalf : ℕ := 7
def pwmMaxChannel : ℕ := 12
def fanPwmSecondBaseOffset : ℕ := 0x800
def pwmCsrPrd0OffsetAddr : ℕ := 0x8
def pwmChOffset : ℕ := 12
def pwmPwlOffset : ℕ := 4
def pwmPwhOffset : ℕ := 8

def pwmClkFrz : BitVec 32 := 50000000
def fanNeedHz : BitVec 32 := 1000
def cycleNum : BitVec 32 := pwmClkFrz / fanNeedHz
def highRatio : BitVec 32 := 1000
def lowRatio : BitVec 32 := 100
def pwm3 : ℕ := 3

def boardPlatmPangeaV6 : BitVec 32 := 0xd
def pangeaV6BoardIdManageboard : BitVec 32 := 0x81
def pangeaV6BoardIdStl6mgtd10 : BitVec 32 := 0x82

structure Board where
  platId : BitVec 32
  boardId : BitVec 32

structure PwmInfo where
  channelId : ℕ
  ratio : BitVec 32

abbrev Regs := ℕ → BitVec 32

inductive Kind
  | pwm
  | fan

def Kind.firstHalf : Kind → ℕ
  | .pwm => pwmFirstHalf
  | .fan => fanFirstHalf

def pwmFanBaseoffsetConvert (type : Kind) (chan : ℕ) : ℕ :=
  if chan > type.firstHalf then fanPwmSecondBaseOffset else 0

def pwmFanChanConvert (type : Kind) (oriChan : ℕ) : ℕ :=
  if oriChan > type.firstHalf then oriChan - type.firstHalf - 1 else oriChan

def chanAddr (chan : ℕ) : ℕ :=
  pwmFanBaseoffsetConvert .pwm chan +
    (pwmCsrPrd0OffsetAddr + pwmFanChanConvert .pwm chan * pwmChOffset)

def pwmGetPrd (regs : Regs) (oriChan : ℕ) : BitVec 32 :=
  regs (chanAddr oriChan) + 1

def pwmSetPrd (regs : Regs) (chan : ℕ) (prd : BitVec 32) : Regs :=
  Function.update regs (chanAddr chan) ((prd - 1) &&& 0x0fffffff)

def pwmSetDutyRatio (regs : Regs) (info : PwmInfo) (precision : BitVec 32) : Regs × ℤ :=
  if info.channelId ≥ pwmMaxChannel then (regs, -einval)
  else if info.ratio > precision then (regs, -einval)
  else if precision ≠ lowRatio ∧ precision ≠ highRatio then (regs, -einval)
  else
    let offset := chanAddr info.channelId
    let prd := pwmGetPrd regs info.channelId
    let regs := Function.update regs (offset + pwmPwhOffset) 0
    (Function.update regs (offset + pwmPwlOffset) (prd - prd * info.ratio / precision), 0)

def pwmGetDutyRatio (regs : Regs) (info : PwmInfo) (precision : BitVec 32) : PwmInfo × ℤ :=
  if info.channelId ≥ pwmMaxChannel then (info, -einval)
  else
    let highLevelTime := regs (chanAddr info.channelId + pwmPwlOffset)
    let prd := pwmGetPrd regs info.channelId
    if prd = 0 then (info, -einval)
    else ({ info with ratio := (prd - highLevelTime) * precision / prd }, 0)

def Board.Slow (board : Board) : Prop :=
  board.platId = boardPlatmPangeaV6 ∧
    (board.boardId = pangeaV6BoardIdManageboard ∨ board.boardId = pangeaV6BoardIdStl6mgtd10)

instance (board : Board) : Decidable board.Slow :=
  inferInstanceAs (Decidable (_ ∧ _))

def pwmAllPrdInit (board : Board) (regs : Regs) : Regs :=
  let regs := (List.range pwmMaxChannel).foldl (fun regs i => pwmSetPrd regs i cycleNum) regs
  if board.Slow then pwmSetPrd regs pwm3 pwmClkFrz else regs

def afterRequests (board : Board) (regs : Regs) (requests : List (PwmInfo × BitVec 32)) : Regs :=
  requests.foldl (fun regs r => (pwmSetDutyRatio regs r.1 r.2).1) (pwmAllPrdInit board regs)

def Board.prd (board : Board) (chan : ℕ) : ℕ :=
  if board.Slow ∧ chan = 3 then 50000000 else 50000

inductive ChanReg
  | prd
  | pwl
  | pwh

def ChanReg.offset : ChanReg → ℕ
  | .prd => 0
  | .pwl => pwmPwlOffset
  | .pwh => pwmPwhOffset

def regAddr (chan : ℕ) (reg : ChanReg) : ℕ := chanAddr chan + reg.offset

def highTime (board : Board) (regs : Regs) (chan : ℕ) : ℤ :=
  board.prd chan - (regs (regAddr chan .pwl)).toNat

structure RatioCorrect (board : Board) (regs : Regs) (info : PwmInfo) (precision : BitVec 32) :
    Prop where
  accepted : (pwmSetDutyRatio regs info precision).2 = 0
  readBack : ∀ ratio, pwmGetDutyRatio (pwmSetDutyRatio regs info precision).1
    ⟨info.channelId, ratio⟩ precision = (info, 0)
  low : ((pwmSetDutyRatio regs info precision).1 (regAddr info.channelId .pwl)).toNat =
    board.prd info.channelId -
      board.prd info.channelId * info.ratio.toNat / precision.toNat
  lowLe : ((pwmSetDutyRatio regs info precision).1 (regAddr info.channelId .pwl)).toNat ≤
    board.prd info.channelId
  mono : ∀ ratio ≤ info.ratio,
    highTime board (pwmSetDutyRatio regs ⟨info.channelId, ratio⟩ precision).1 info.channelId ≤
      highTime board (pwmSetDutyRatio regs info precision).1 info.channelId
  frame : ∀ chan < pwmMaxChannel, chan ≠ info.channelId → ∀ reg,
    (pwmSetDutyRatio regs info precision).1 (regAddr chan reg) = regs (regAddr chan reg)

section Scaling

variable {prd ratio precision : ℕ}

theorem scaled_mul (hdvd : precision ∣ prd) :
    prd * ratio / precision * precision = prd * ratio :=
  Nat.div_mul_cancel (hdvd.mul_right ratio)

theorem scaled_le (hpos : 0 < precision) (hle : ratio ≤ precision) :
    prd * ratio / precision ≤ prd := by
  calc prd * ratio / precision ≤ prd * precision / precision :=
        Nat.div_le_div_right (Nat.mul_le_mul_left prd hle)
    _ = prd := Nat.mul_div_cancel prd hpos

theorem scaled_mono {ratio' : ℕ} (hle : ratio' ≤ ratio) :
    prd * ratio' / precision ≤ prd * ratio / precision :=
  Nat.div_le_div_right (Nat.mul_le_mul_left prd hle)

end Scaling

theorem toNat_low {prd ratio precision : BitVec 32} (hpos : 0 < precision.toNat)
    (hle : ratio ≤ precision) (hfits : prd.toNat * ratio.toNat < 2 ^ 32) :
    (prd - prd * ratio / precision).toNat =
      prd.toNat - prd.toNat * ratio.toNat / precision.toNat := by
  have hprod : (prd * ratio).toNat = prd.toNat * ratio.toNat := by
    rw [BitVec.toNat_mul]
    exact Nat.mod_eq_of_lt hfits
  have hquot : (prd * ratio / precision).toNat =
      prd.toNat * ratio.toNat / precision.toNat := by
    rw [BitVec.toNat_udiv, hprod]
  have hscaled : (prd * ratio / precision).toNat ≤ prd.toNat := by
    rw [hquot]
    exact scaled_le hpos hle
  rw [BitVec.toNat_sub_of_le hscaled, hquot]

theorem chanAddr_eq {chan : ℕ} (hchan : chan < pwmMaxChannel) :
    chanAddr chan = if chan ≤ 5 then 8 + 12 * chan else 2056 + 12 * (chan - 6) := by
  have hlt : chan < 12 := hchan
  unfold chanAddr pwmCsrPrd0OffsetAddr pwmChOffset
  by_cases hhalf : chan > 5
  · have hbase : pwmFanBaseoffsetConvert .pwm chan = 0x800 := if_pos hhalf
    have hconv : pwmFanChanConvert .pwm chan = chan - 5 - 1 := if_pos hhalf
    rw [hbase, hconv, if_neg (by omega)]
    omega
  · have hbase : pwmFanBaseoffsetConvert .pwm chan = 0 := if_neg hhalf
    have hconv : pwmFanChanConvert .pwm chan = chan := if_neg hhalf
    rw [hbase, hconv, if_pos (by omega)]
    omega

theorem regAddr_inj {chan chan' : ℕ} {reg reg' : ChanReg} (hchan : chan < pwmMaxChannel)
    (hchan' : chan' < pwmMaxChannel) (heq : regAddr chan reg = regAddr chan' reg') :
    chan = chan' ∧ reg = reg' := by
  have hlt : chan < 12 := hchan
  have hlt' : chan' < 12 := hchan'
  unfold regAddr at heq
  rw [chanAddr_eq hchan, chanAddr_eq hchan'] at heq
  cases reg <;> cases reg' <;>
    simp only [ChanReg.offset, pwmPwlOffset, pwmPwhOffset, reduceCtorEq, and_true, and_false] at * <;>
    split_ifs at heq <;> omega

theorem pwmSetDutyRatio_accepted {regs : Regs} {info : PwmInfo} {precision : BitVec 32}
    (hchan : info.channelId < pwmMaxChannel)
    (hprecision : precision = lowRatio ∨ precision = highRatio) (hle : info.ratio ≤ precision) :
    pwmSetDutyRatio regs info precision =
      (Function.update (Function.update regs (regAddr info.channelId .pwh) 0)
        (regAddr info.channelId .pwl)
        (pwmGetPrd regs info.channelId -
          pwmGetPrd regs info.channelId * info.ratio / precision), 0) := by
  unfold pwmSetDutyRatio
  rw [if_neg (Nat.not_le.mpr hchan), if_neg (BitVec.not_lt.mpr hle), if_neg]
  · rfl
  · rintro ⟨hlow, hhigh⟩
    exact hprecision.elim hlow hhigh

theorem pwmSetDutyRatio_frame {regs : Regs} {info : PwmInfo} {precision : BitVec 32} {addr : ℕ}
    (hlow : info.channelId < pwmMaxChannel → addr ≠ regAddr info.channelId .pwl)
    (hhigh : info.channelId < pwmMaxChannel → addr ≠ regAddr info.channelId .pwh) :
    (pwmSetDutyRatio regs info precision).1 addr = regs addr := by
  unfold pwmSetDutyRatio
  by_cases hchan : info.channelId ≥ pwmMaxChannel
  · rw [if_pos hchan]
  · rw [if_neg hchan]
    split
    · rfl
    split
    · rfl
    · have hlow' : addr ≠ chanAddr info.channelId + pwmPwlOffset := hlow (Nat.not_le.mp hchan)
      have hhigh' : addr ≠ chanAddr info.channelId + pwmPwhOffset := hhigh (Nat.not_le.mp hchan)
      exact (Function.update_of_ne hlow' _ _).trans (Function.update_of_ne hhigh' _ _)

theorem regs_other {regs : Regs} {info : PwmInfo} {precision : BitVec 32} {chan : ℕ}
    {reg : ChanReg} (hchan : chan < pwmMaxChannel)
    (hother : chan ≠ info.channelId ∨ reg = .prd) :
    (pwmSetDutyRatio regs info precision).1 (regAddr chan reg) = regs (regAddr chan reg) := by
  apply pwmSetDutyRatio_frame
  · intro hinfo heq
    obtain ⟨hsame, hreg⟩ := regAddr_inj hchan hinfo heq
    subst hreg
    exact hother.elim (fun h => h hsame) (fun h => by cases h)
  · intro hinfo heq
    obtain ⟨hsame, hreg⟩ := regAddr_inj hchan hinfo heq
    subst hreg
    exact hother.elim (fun h => h hsame) (fun h => by cases h)

theorem pwmGetPrd_setDutyRatio {regs : Regs} {info : PwmInfo} {precision : BitVec 32} {chan : ℕ}
    (hchan : chan < pwmMaxChannel) :
    pwmGetPrd (pwmSetDutyRatio regs info precision).1 chan = pwmGetPrd regs chan := by
  unfold pwmGetPrd
  have hsame : (pwmSetDutyRatio regs info precision).1 (regAddr chan .prd) =
      regs (regAddr chan .prd) := regs_other hchan (.inr rfl)
  exact congrArg (· + 1) hsame

theorem pwmGetPrd_setPrd {regs : Regs} {chan chan' : ℕ} {prd : BitVec 32}
    (hchan : chan < pwmMaxChannel) (hchan' : chan' < pwmMaxChannel) :
    pwmGetPrd (pwmSetPrd regs chan' prd) chan =
      if chan = chan' then ((prd - 1) &&& 0x0fffffff) + 1 else pwmGetPrd regs chan := by
  unfold pwmGetPrd pwmSetPrd
  split
  next hsame =>
    subst hsame
    rw [Function.update_self]
  next hother =>
    rw [Function.update_of_ne]
    intro heq
    have hreg : regAddr chan .prd = regAddr chan' .prd := heq
    exact hother (regAddr_inj hchan hchan' hreg).1

theorem pwmGetPrd_loop {n : ℕ} (hn : n ≤ pwmMaxChannel) (regs : Regs) {chan : ℕ}
    (hchan : chan < pwmMaxChannel) :
    pwmGetPrd ((List.range n).foldl (fun regs i => pwmSetPrd regs i cycleNum) regs) chan =
      if chan < n then cycleNum else pwmGetPrd regs chan := by
  induction n with
  | zero => rfl
  | succ n ih =>
    have hcycle : ((cycleNum - 1) &&& 0x0fffffff) + 1 = cycleNum := by decide
    rw [List.range_succ, List.foldl_append, List.foldl_cons, List.foldl_nil,
      pwmGetPrd_setPrd hchan (by omega), hcycle, ih (by omega)]
    split_ifs <;> first | rfl | omega

theorem toNat_pwmGetPrd_init (board : Board) (regs : Regs) {chan : ℕ}
    (hchan : chan < pwmMaxChannel) :
    (pwmGetPrd (pwmAllPrdInit board regs) chan).toNat = board.prd chan := by
  have hclk : ((pwmClkFrz - 1) &&& 0x0fffffff) + 1 = pwmClkFrz := by decide
  have hloop := pwmGetPrd_loop (le_refl pwmMaxChannel) regs hchan
  rw [if_pos hchan] at hloop
  unfold pwmAllPrdInit Board.prd
  by_cases hslow : board.Slow
  · simp only [hslow, true_and, if_true]
    rw [pwmGetPrd_setPrd hchan (by decide), hclk, hloop]
    have hthree : pwm3 = 3 := rfl
    rw [hthree]
    split <;> rfl
  · simp only [hslow, false_and, if_false]
    rw [hloop]
    rfl

theorem toNat_pwmGetPrd (board : Board) (regs : Regs) (requests : List (PwmInfo × BitVec 32))
    {chan : ℕ} (hchan : chan < pwmMaxChannel) :
    (pwmGetPrd (afterRequests board regs requests) chan).toNat = board.prd chan := by
  unfold afterRequests
  have hinit := toNat_pwmGetPrd_init board regs hchan
  generalize pwmAllPrdInit board regs = start at hinit
  induction requests generalizing start with
  | nil => exact hinit
  | cons request requests ih =>
    rw [List.foldl_cons]
    apply ih
    rw [pwmGetPrd_setDutyRatio hchan]
    exact hinit

section Request

variable {board : Board} {regs : Regs} {info : PwmInfo} {precision : BitVec 32}

theorem pwl_accepted (hchan : info.channelId < pwmMaxChannel)
    (hprecision : precision = lowRatio ∨ precision = highRatio) (hle : info.ratio ≤ precision) :
    (pwmSetDutyRatio regs info precision).1 (regAddr info.channelId .pwl) =
      pwmGetPrd regs info.channelId -
        pwmGetPrd regs info.channelId * info.ratio / precision := by
  rw [pwmSetDutyRatio_accepted hchan hprecision hle]
  exact Function.update_self _ _ _

theorem Board.prd_dvd (board : Board) (chan : ℕ)
    (hprecision : precision = lowRatio ∨ precision = highRatio) :
    precision.toNat ∣ board.prd chan := by
  unfold Board.prd
  rcases hprecision with rfl | rfl <;> split <;> decide

theorem precision_pos (hprecision : precision = lowRatio ∨ precision = highRatio) :
    0 < precision.toNat := by
  rcases hprecision with rfl | rfl <;> decide

theorem Board.prd_pos (board : Board) (chan : ℕ) : 0 < board.prd chan := by
  unfold Board.prd
  split <;> decide

theorem ratioCorrect_of_fits (hchan : info.channelId < pwmMaxChannel)
    (hprecision : precision = lowRatio ∨ precision = highRatio) (hle : info.ratio ≤ precision)
    (hprd : (pwmGetPrd regs info.channelId).toNat = board.prd info.channelId)
    (hfits : board.prd info.channelId * info.ratio.toNat < 2 ^ 32) :
    RatioCorrect board regs info precision := by
  have hpos := precision_pos hprecision
  have hdvd := board.prd_dvd info.channelId hprecision
  have hprdpos := board.prd_pos info.channelId
  have hlow : ∀ ratio ≤ info.ratio,
      ((pwmSetDutyRatio regs ⟨info.channelId, ratio⟩ precision).1
        (regAddr info.channelId .pwl)).toNat =
      board.prd info.channelId -
        board.prd info.channelId * ratio.toNat / precision.toNat := by
    intro ratio hratio
    have hnat : ratio.toNat ≤ info.ratio.toNat := hratio
    have hle' : ratio ≤ precision := BitVec.le_trans hratio hle
    have hpwl : (pwmSetDutyRatio regs ⟨info.channelId, ratio⟩ precision).1
        (regAddr info.channelId .pwl) =
        pwmGetPrd regs info.channelId - pwmGetPrd regs info.channelId * ratio / precision :=
      pwl_accepted hchan hprecision hle'
    rw [hpwl, toNat_low hpos hle', hprd]
    rw [hprd]
    exact lt_of_le_of_lt (Nat.mul_le_mul_left _ hnat) hfits
  have hscaled : board.prd info.channelId * info.ratio.toNat / precision.toNat ≤
      board.prd info.channelId := scaled_le hpos hle
  constructor
  · rw [pwmSetDutyRatio_accepted hchan hprecision hle]
  · intro ratio
    have hget : pwmGetPrd (pwmSetDutyRatio regs info precision).1 info.channelId =
        pwmGetPrd regs info.channelId := pwmGetPrd_setDutyRatio hchan
    have hnonzero : pwmGetPrd regs info.channelId ≠ 0 := by
      intro hzero
      rw [hzero] at hprd
      exact absurd hprd.symm hprdpos.ne'
    unfold pwmGetDutyRatio
    rw [if_neg (Nat.not_le.mpr hchan)]
    simp only [hget, if_neg hnonzero]
    have hvalue : (pwmGetPrd regs info.channelId -
        (pwmSetDutyRatio regs info precision).1 (chanAddr info.channelId + pwmPwlOffset)) *
          precision / pwmGetPrd regs info.channelId = info.ratio := by
      have hword := hlow info.ratio (BitVec.le_refl _)
      apply BitVec.eq_of_toNat_eq
      change ((pwmSetDutyRatio regs info precision).1
        (chanAddr info.channelId + pwmPwlOffset)).toNat = _ at hword
      have hsub : (pwmGetPrd regs info.channelId -
          (pwmSetDutyRatio regs info precision).1
            (chanAddr info.channelId + pwmPwlOffset)).toNat =
          board.prd info.channelId * info.ratio.toNat / precision.toNat := by
        rw [BitVec.toNat_sub_of_le, hword, hprd]
        · exact Nat.sub_sub_self hscaled
        · rw [BitVec.le_def, hword, hprd]
          exact Nat.sub_le _ _
      rw [BitVec.toNat_udiv, BitVec.toNat_mul, hsub, scaled_mul hdvd, Nat.mod_eq_of_lt hfits, hprd,
        Nat.mul_div_cancel_left _ hprdpos]
    rw [hvalue]
  · exact hlow info.ratio (BitVec.le_refl _)
  · rw [hlow info.ratio (BitVec.le_refl _)]
    exact Nat.sub_le _ _
  · intro ratio hratio
    have hnat : ratio.toNat ≤ info.ratio.toNat := hratio
    have hmono : board.prd info.channelId * ratio.toNat / precision.toNat ≤
        board.prd info.channelId * info.ratio.toNat / precision.toNat := scaled_mono hnat
    unfold highTime
    rw [hlow ratio hratio, hlow info.ratio (BitVec.le_refl _)]
    generalize board.prd info.channelId * ratio.toNat / precision.toNat = less at hmono
    generalize board.prd info.channelId * info.ratio.toNat / precision.toNat = more at hmono
    omega
  · intro chan hother hne reg
    exact regs_other hother (.inl hne)

theorem not_low_of_slow (hchan : info.channelId < pwmMaxChannel)
    (hprecision : precision = lowRatio ∨ precision = highRatio) (hle : info.ratio ≤ precision)
    (hprd : (pwmGetPrd regs info.channelId).toNat = 50000000) (hratio : 85 < info.ratio.toNat) :
    ((pwmSetDutyRatio regs info precision).1 (regAddr info.channelId .pwl)).toNat ≠
      50000000 - 50000000 * info.ratio.toNat / precision.toNat := by
  have hnat : info.ratio.toNat ≤ precision.toNat := hle
  have hquot : (pwmGetPrd regs info.channelId * info.ratio / precision).toNat =
      50000000 * info.ratio.toNat % 2 ^ 32 / precision.toNat := by
    rw [BitVec.toNat_udiv, BitVec.toNat_mul, hprd]
  rw [pwl_accepted hchan hprecision hle, BitVec.toNat_sub_of_le]
  · rw [hquot, hprd]
    rcases hprecision with rfl | rfl
    · have hlow : lowRatio.toNat = 100 := rfl
      rw [hlow] at hnat ⊢
      omega
    · have hhigh : highRatio.toNat = 1000 := rfl
      rw [hhigh] at hnat ⊢
      omega
  · rw [BitVec.le_def, hquot, hprd]
    rcases hprecision with rfl | rfl
    · have hlow : lowRatio.toNat = 100 := rfl
      rw [hlow]
      omega
    · have hhigh : highRatio.toNat = 1000 := rfl
      rw [hhigh]
      omega

end Request

theorem ratio_correct_iff (board : Board) (regs : Regs) (requests : List (PwmInfo × BitVec 32))
    (info : PwmInfo) (precision : BitVec 32) (hchan : info.channelId < pwmMaxChannel)
    (hprecision : precision = lowRatio ∨ precision = highRatio) (hle : info.ratio ≤ precision) :
    RatioCorrect board (afterRequests board regs requests) info precision ↔
      ¬ (board.Slow ∧ info.channelId = 3 ∧ 85 < info.ratio.toNat) := by
  have hprd := toNat_pwmGetPrd board regs requests hchan
  constructor
  · rintro hcorrect ⟨hslow, hthree, hratio⟩
    have hslowPrd : board.prd info.channelId = 50000000 := if_pos ⟨hslow, hthree⟩
    have hlow := hcorrect.low
    rw [hslowPrd] at hlow hprd
    exact not_low_of_slow hchan hprecision hle hprd hratio hlow
  · intro hfast
    apply ratioCorrect_of_fits hchan hprecision hle hprd
    have hnat : info.ratio.toNat ≤ precision.toNat := hle
    have hmax : precision.toNat ≤ 1000 := by
      rcases hprecision with rfl | rfl <;> decide
    unfold Board.prd
    split
    next hslow =>
      have hratio : ¬ 85 < info.ratio.toNat := fun h => hfast ⟨hslow.1, hslow.2, h⟩
      omega
    next => omega

def manageboard : Board where
  platId := boardPlatmPangeaV6
  boardId := pangeaV6BoardIdManageboard

theorem ratio_correct_iff_manageboard :
    RatioCorrect manageboard (afterRequests manageboard (fun _ => 0) []) ⟨3, 85⟩ lowRatio ∧
      ¬ RatioCorrect manageboard (afterRequests manageboard (fun _ => 0) []) ⟨3, 86⟩ lowRatio :=
  ⟨(ratio_correct_iff manageboard (fun _ => 0) [] ⟨3, 85⟩ lowRatio (by decide) (by decide)
      (by decide)).mpr (by decide),
    fun h => (ratio_correct_iff manageboard (fun _ => 0) [] ⟨3, 86⟩ lowRatio (by decide)
      (by decide) (by decide)).mp h (by decide)⟩

/-- A fan set to 86 percent reads back as stopped. -/
theorem ratio_not_correct :
    (pwmSetDutyRatio (afterRequests manageboard (fun _ => 0) []) ⟨3, 86⟩ lowRatio).1
        (regAddr 3 .pwl) = 49949673 ∧
      pwmGetDutyRatio (pwmSetDutyRatio (afterRequests manageboard (fun _ => 0) []) ⟨3, 86⟩
        lowRatio).1 ⟨3, 86⟩ lowRatio = (⟨3, 0⟩, 0) ∧
      ¬ RatioCorrect manageboard (afterRequests manageboard (fun _ => 0) []) ⟨3, 86⟩
        lowRatio := by
  have hlow : (pwmSetDutyRatio (afterRequests manageboard (fun _ => 0) []) ⟨3, 86⟩ lowRatio).1
      (regAddr 3 .pwl) = 49949673 := by rfl
  have hback : pwmGetDutyRatio (pwmSetDutyRatio (afterRequests manageboard (fun _ => 0) [])
      ⟨3, 86⟩ lowRatio).1 ⟨3, 86⟩ lowRatio = (⟨3, 0⟩, 0) := by rfl
  constructor
  · exact hlow
  constructor
  · exact hback
  · intro hcorrect
    have hread := hcorrect.readBack 86
    rw [hback] at hread
    have hratio : (0 : BitVec 32) = 86 := congrArg (fun r => r.1.ratio) hread
    exact absurd hratio (by decide)

end HiMpu.Pwm
