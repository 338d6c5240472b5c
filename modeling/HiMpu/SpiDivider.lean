import HiMpu.SpiSettings

/-!
# The clock divider of the two SPI drivers

`hispi_baudrate_cfg` of `drivers/spi/hi_spi.c` and `hi309x_baudrate_cfg` of
`drivers/spi/spi_hi309x.c` for any `SYS_AHB_CLOCK_FREQ`, and what `kernspi_init` and
`hi309x_spi_setup` do with a rate that has no divider.
-/

namespace HiMpu.SpiDivider

open Hispi (spiMinDiv spiMaxDiv spiChipSelectTotalNum hisiSpiMaxCtl InitArg hispiInitParamCheck
  einval enodev)
open SpiSettings (State Device configCtrlr0 hi309xSetupParaCheck)

def hispiBaudrateCfg (sysAhbClockFreq baudRate : BitVec 32) : Option (BitVec 32) :=
  if baudRate = 0 then none
  else
    let freqDiv := sysAhbClockFreq / baudRate
    let freqDiv := if freqDiv &&& 1 ≠ 0 then freqDiv + 1 else freqDiv
    let freqDiv := freqDiv &&& 0xffff
    if freqDiv.toNat < spiMinDiv ∨ freqDiv.toNat > spiMaxDiv then none else some freqDiv

def hi309xBaudrateCfg (sysAhbClockFreq baudRate : BitVec 32) : Option (BitVec 32) :=
  if baudRate = 0 then none
  else
    let freqDiv := sysAhbClockFreq / baudRate
    let freqDiv := if freqDiv &&& 1 ≠ 0 then freqDiv + 1 else freqDiv
    if freqDiv.toNat < spiMinDiv ∨ freqDiv.toNat > spiMaxDiv then none
    else some (freqDiv &&& 0xffff)

structure Controller where
  ctrlr0 : BitVec 32
  baudr : BitVec 32
  enabled : Bool
  imr : BitVec 32
  ser : BitVec 32

structure InitCall where
  isNull : Bool
  ctrlId : ℕ
  arg : InitArg
  down : ℤ
  subsys : Bool

def InitCall.baud (call : InitCall) : BitVec 32 := BitVec.ofNat 32 call.arg.baud

def hispiCtrlConfig (sysAhbClockFreq : BitVec 32) (call : InitCall) (c : Controller) :
    ℤ × Controller :=
  let c := { c with
    enabled := false
    ctrlr0 := call.arg.ctrlr0 c.ctrlr0 }
  match hispiBaudrateCfg sysAhbClockFreq call.baud with
  | none => (-einval, c)
  | some freqDiv =>
    let c := { c with
      baudr := freqDiv
      imr := Hispi.hispiDisableIntr c.imr 0xffffffff }
    if !call.subsys then (-enodev, c)
    else
      let c := { c with
        enabled := true
        ser := 0 }
      if call.arg.csId = 0 then (0, { c with ser := 1 })
      else if call.arg.csId = 1 then (0, { c with ser := 2 })
      else (-einval, c)

/-- `hispi_init_param_check`, which looks at the controller too. -/
def InitCall.paramCheck (call : InitCall) : Bool :=
  call.ctrlId < hisiSpiMaxCtl && hispiInitParamCheck call.arg

def kernspiInit (sysAhbClockFreq : BitVec 32) (call : InitCall) (c : Controller) :
    ℤ × Controller :=
  if call.isNull then (-einval, c)
  else if !call.paramCheck then (-einval, c)
  else if call.down ≠ 0 then (call.down, c)
  else hispiCtrlConfig sysAhbClockFreq call c

def hi309xSpiCtrlConfig (sysAhbClockFreq : BitVec 32) (s : State) (subsys : Bool) : State × ℤ :=
  let s := { s with
    enabled := false
    ctrlr0 := configCtrlr0 s.attr s.ctrlr0 }
  match hi309xBaudrateCfg sysAhbClockFreq (BitVec.ofNat 32 s.attr.baudRate) with
  | none => (s, -einval)
  | some freqDiv =>
    let s := { s with
      baudr := freqDiv.toNat
      imr := 0 }
    if subsys then ({ s with enabled := true }, 0) else (s, -enodev)

def hi309xSpiSetup (sysAhbClockFreq : BitVec 32) (s : State) (spi : Device) (subsys : Bool) :
    State × ℤ :=
  if !hi309xSetupParaCheck spi then (s, -einval)
  else
    let (s', ret) := hi309xSpiCtrlConfig sysAhbClockFreq { s with attr := spi.attributes } subsys
    if ret ≠ 0 then ({ s' with attr := s.attr, failed := some spi }, ret)
    else ({ s' with last := some spi, failed := none }, 0)

def Dividers (sysAhbClockFreq baudRate : BitVec 32) : Set ℕ :=
  {d | Even d ∧ spiMinDiv ≤ d ∧ d ≤ spiMaxDiv ∧
    (sysAhbClockFreq.toNat : ℚ) / d ≤ baudRate.toNat}

structure RateCorrect (sysAhbClockFreq baudRate : BitVec 32) (call : InitCall) (c : Controller)
    (s : State) (spi : Device) (subsys : Bool) : Prop where
  same : hispiBaudrateCfg sysAhbClockFreq baudRate = hi309xBaudrateCfg sysAhbClockFreq baudRate
  least : ∀ d, hispiBaudrateCfg sysAhbClockFreq baudRate = some d ∨
    hi309xBaudrateCfg sysAhbClockFreq baudRate = some d →
      IsLeast (Dividers sysAhbClockFreq baudRate) d.toNat
  tooLarge : spiMaxDiv * baudRate.toNat < sysAhbClockFreq.toNat →
    hispiBaudrateCfg sysAhbClockFreq baudRate = none ∧
      hi309xBaudrateCfg sysAhbClockFreq baudRate = none
  init : call.baud = baudRate → hispiBaudrateCfg sysAhbClockFreq baudRate = none →
    (kernspiInit sysAhbClockFreq call c).2.ctrlr0 = c.ctrlr0 ∧
      (kernspiInit sysAhbClockFreq call c).2.baudr = c.baudr ∧
      (kernspiInit sysAhbClockFreq call c).2.enabled = c.enabled
  setup : BitVec.ofNat 32 spi.maxSpeedHz = baudRate →
    hi309xBaudrateCfg sysAhbClockFreq baudRate = none →
      (hi309xSpiSetup sysAhbClockFreq s spi subsys).1.ctrlr0 = s.ctrlr0 ∧
        (hi309xSpiSetup sysAhbClockFreq s spi subsys).1.baudr = s.baudr ∧
        (hi309xSpiSetup sysAhbClockFreq s spi subsys).1.enabled = s.enabled

def evenQuotient (sysAhbClockFreq baudRate : BitVec 32) : ℕ :=
  let quotient := sysAhbClockFreq.toNat / baudRate.toNat
  quotient + quotient % 2

/-- The rounding loses nothing where the quotient is in the range, and nothing is left of a
quotient that does not fit. -/
structure RateAllowed (sysAhbClockFreq baudRate : BitVec 32) : Prop where
  exact : spiMinDiv ≤ evenQuotient sysAhbClockFreq baudRate →
    evenQuotient sysAhbClockFreq baudRate ≤ spiMaxDiv →
      sysAhbClockFreq.toNat / baudRate.toNat % 2 = 1 ∨ baudRate.toNat ∣ sysAhbClockFreq.toNat
  fits : spiMaxDiv < evenQuotient sysAhbClockFreq baudRate →
    evenQuotient sysAhbClockFreq baudRate % 2 ^ 16 < spiMinDiv

def InitCall.passes (call : InitCall) : Bool :=
  !call.isNull && call.paramCheck && call.down = 0

def Rejected (sysAhbClockFreq baudRate : BitVec 32) : Prop :=
  baudRate = 0 ∨ evenQuotient sysAhbClockFreq baudRate < spiMinDiv ∨
    spiMaxDiv < evenQuotient sysAhbClockFreq baudRate

section Dividers

variable {sysAhbClockFreq baudRate : BitVec 32}

theorem and_one_ne_zero_iff (x : BitVec 32) : x &&& 1 ≠ 0 ↔ x.toNat % 2 = 1 := by
  have hand : (x &&& 1).toNat = x.toNat % 2 := by
    rw [BitVec.toNat_and]
    exact Nat.and_one_is_mod _
  rw [Ne, BitVec.toNat_eq, hand]
  have hzero : (0 : BitVec 32).toNat = 0 := rfl
  rw [hzero]
  omega

theorem and_mask_toNat (x : BitVec 32) : (x &&& 0xffff).toNat = x.toNat % 2 ^ 16 := by
  rw [BitVec.toNat_and]
  exact Nat.and_two_pow_sub_one_eq_mod x.toNat 16

theorem freqDiv_toNat (sysAhbClockFreq baudRate : BitVec 32) :
    (if sysAhbClockFreq / baudRate &&& 1 ≠ 0 then sysAhbClockFreq / baudRate + 1
      else sysAhbClockFreq / baudRate).toNat =
        evenQuotient sysAhbClockFreq baudRate % 2 ^ 32 := by
  have hquotient : (sysAhbClockFreq / baudRate).toNat =
      sysAhbClockFreq.toNat / baudRate.toNat := BitVec.toNat_udiv
  have hlt := (sysAhbClockFreq / baudRate).isLt
  unfold evenQuotient
  dsimp only
  rw [← hquotient]
  split
  next hodd =>
    rw [and_one_ne_zero_iff] at hodd
    rw [BitVec.toNat_add, hodd]
    rfl
  next heven =>
    rw [and_one_ne_zero_iff] at heven
    rw [Nat.mod_two_ne_one.mp heven, Nat.add_zero, Nat.mod_eq_of_lt hlt]

theorem evenQuotient_even (sysAhbClockFreq baudRate : BitVec 32) :
    evenQuotient sysAhbClockFreq baudRate % 2 = 0 := by
  unfold evenQuotient
  dsimp only
  omega

theorem evenQuotient_zero (sysAhbClockFreq : BitVec 32) :
    evenQuotient sysAhbClockFreq 0 = 0 := by
  simp [evenQuotient]

theorem evenQuotient_le (sysAhbClockFreq baudRate : BitVec 32) :
    evenQuotient sysAhbClockFreq baudRate ≤ 2 ^ 32 := by
  have hle : sysAhbClockFreq.toNat / baudRate.toNat ≤ sysAhbClockFreq.toNat := Nat.div_le_self _ _
  have hlt := sysAhbClockFreq.isLt
  unfold evenQuotient
  dsimp only
  omega

theorem hispiBaudrateCfg_eq (sysAhbClockFreq baudRate : BitVec 32) :
    hispiBaudrateCfg sysAhbClockFreq baudRate =
      if evenQuotient sysAhbClockFreq baudRate % 2 ^ 16 < spiMinDiv then none
      else some (BitVec.ofNat 32 (evenQuotient sysAhbClockFreq baudRate % 2 ^ 16)) := by
  have heven := evenQuotient_even sysAhbClockFreq baudRate
  have hmod : evenQuotient sysAhbClockFreq baudRate % 2 ^ 32 % 2 ^ 16 =
      evenQuotient sysAhbClockFreq baudRate % 2 ^ 16 := Nat.mod_mod_of_dvd _ (by decide)
  have hmax : ¬ evenQuotient sysAhbClockFreq baudRate % 2 ^ 16 > spiMaxDiv := by
    unfold spiMaxDiv
    omega
  unfold hispiBaudrateCfg
  split
  next hzero =>
    rw [hzero, evenQuotient_zero]
    rfl
  next =>
    dsimp only
    rw [and_mask_toNat, freqDiv_toNat, hmod]
    simp only [or_iff_left hmax]
    split
    · rfl
    · congr 1
      apply BitVec.eq_of_toNat_eq
      rw [and_mask_toNat, freqDiv_toNat, hmod, BitVec.toNat_ofNat]
      omega

theorem hi309xBaudrateCfg_eq (sysAhbClockFreq baudRate : BitVec 32) :
    hi309xBaudrateCfg sysAhbClockFreq baudRate =
      if evenQuotient sysAhbClockFreq baudRate < spiMinDiv ∨
          spiMaxDiv < evenQuotient sysAhbClockFreq baudRate then none
      else some (BitVec.ofNat 32 (evenQuotient sysAhbClockFreq baudRate)) := by
  have hle := evenQuotient_le sysAhbClockFreq baudRate
  have hrange : (evenQuotient sysAhbClockFreq baudRate % 2 ^ 32 < spiMinDiv ∨
      evenQuotient sysAhbClockFreq baudRate % 2 ^ 32 > spiMaxDiv) ↔
        evenQuotient sysAhbClockFreq baudRate < spiMinDiv ∨
          spiMaxDiv < evenQuotient sysAhbClockFreq baudRate := by
    unfold spiMinDiv spiMaxDiv
    omega
  unfold hi309xBaudrateCfg
  split
  next hzero =>
    rw [hzero, evenQuotient_zero]
    rfl
  next =>
    dsimp only
    rw [freqDiv_toNat]
    simp only [hrange]
    split
    · rfl
    next hin =>
      congr 1
      apply BitVec.eq_of_toNat_eq
      unfold spiMaxDiv at hin
      rw [and_mask_toNat, freqDiv_toNat, BitVec.toNat_ofNat]
      omega

theorem mem_dividers {d : ℕ} :
    d ∈ Dividers sysAhbClockFreq baudRate ↔
      Even d ∧ spiMinDiv ≤ d ∧ d ≤ spiMaxDiv ∧ sysAhbClockFreq.toNat ≤ baudRate.toNat * d := by
  have hrate : spiMinDiv ≤ d →
      ((sysAhbClockFreq.toNat : ℚ) / d ≤ baudRate.toNat ↔
        sysAhbClockFreq.toNat ≤ baudRate.toNat * d) := by
    intro hmin
    have hpos : 0 < (d : ℚ) := Nat.cast_pos.mpr (lt_of_lt_of_le (by decide) hmin)
    rw [div_le_iff₀ hpos]
    exact_mod_cast Iff.rfl
  constructor
  · intro h
    exact ⟨h.1, h.2.1, h.2.2.1, (hrate h.2.1).mp h.2.2.2⟩
  · intro h
    exact ⟨h.1, h.2.1, h.2.2.1, (hrate h.2.1).mpr h.2.2.2⟩

theorem isLeast_evenQuotient_iff
    (hmin : spiMinDiv ≤ evenQuotient sysAhbClockFreq baudRate)
    (hmax : evenQuotient sysAhbClockFreq baudRate ≤ spiMaxDiv) :
    IsLeast (Dividers sysAhbClockFreq baudRate) (evenQuotient sysAhbClockFreq baudRate) ↔
      sysAhbClockFreq.toNat / baudRate.toNat % 2 = 1 ∨
        baudRate.toNat ∣ sysAhbClockFreq.toNat := by
  have hbaud : 0 < baudRate.toNat := by
    apply Nat.pos_of_ne_zero
    intro hzero
    have hdiv : evenQuotient sysAhbClockFreq baudRate = 0 := by
      simp [evenQuotient, hzero]
    rw [hdiv] at hmin
    exact absurd hmin (by decide)
  have heven : Even (evenQuotient sysAhbClockFreq baudRate) :=
    Nat.even_iff.mpr (evenQuotient_even _ _)
  have hbelow := Nat.mul_div_le sysAhbClockFreq.toNat baudRate.toNat
  have habove := Nat.lt_mul_div_succ sysAhbClockFreq.toNat hbaud
  constructor
  · intro h
    have hrate := (mem_dividers.mp h.1).2.2.2
    by_cases hodd : sysAhbClockFreq.toNat / baudRate.toNat % 2 = 1
    · exact Or.inl hodd
    · right
      have hquotient : evenQuotient sysAhbClockFreq baudRate =
          sysAhbClockFreq.toNat / baudRate.toNat := by
        unfold evenQuotient
        dsimp only
        omega
      rw [hquotient] at hrate
      exact ⟨_, hrate.antisymm hbelow⟩
  · intro h
    have hrate : sysAhbClockFreq.toNat ≤
        baudRate.toNat * evenQuotient sysAhbClockFreq baudRate := by
      unfold evenQuotient
      dsimp only
      rcases h with hodd | hdvd
      · rw [hodd]
        exact habove.le
      · calc sysAhbClockFreq.toNat
            = baudRate.toNat * (sysAhbClockFreq.toNat / baudRate.toNat) :=
              (Nat.mul_div_cancel' hdvd).symm
          _ ≤ _ := Nat.mul_le_mul_left _ (Nat.le_add_right _ _)
    constructor
    · exact mem_dividers.mpr ⟨heven, hmin, hmax, hrate⟩
    · intro d hd
      obtain ⟨hdeven, -, -, hdrate⟩ := mem_dividers.mp hd
      have hle : sysAhbClockFreq.toNat / baudRate.toNat ≤ d := by
        rw [Nat.div_le_iff_le_mul_add_pred hbaud]
        omega
      have hmod := Nat.even_iff.mp hdeven
      unfold evenQuotient
      dsimp only
      omega

theorem hispiBaudrateCfg_none_iff :
    hispiBaudrateCfg sysAhbClockFreq baudRate = none ↔
      evenQuotient sysAhbClockFreq baudRate % 2 ^ 16 < spiMinDiv := by
  rw [hispiBaudrateCfg_eq]
  split
  next hlow => exact iff_of_true rfl hlow
  next hlow => exact iff_of_false (Option.some_ne_none _) hlow

theorem hi309xBaudrateCfg_none_iff :
    hi309xBaudrateCfg sysAhbClockFreq baudRate = none ↔ Rejected sysAhbClockFreq baudRate := by
  have hzero : baudRate = 0 → evenQuotient sysAhbClockFreq baudRate < spiMinDiv := by
    intro h
    rw [h, evenQuotient_zero]
    decide
  unfold Rejected
  rw [or_iff_right_of_imp fun h => Or.inl (hzero h), hi309xBaudrateCfg_eq]
  split
  next hout => exact iff_of_true rfl hout
  next hout => exact iff_of_false (Option.some_ne_none _) hout

theorem hispiBaudrateCfg_same_iff :
    hispiBaudrateCfg sysAhbClockFreq baudRate = hi309xBaudrateCfg sysAhbClockFreq baudRate ↔
      (spiMaxDiv < evenQuotient sysAhbClockFreq baudRate →
        evenQuotient sysAhbClockFreq baudRate % 2 ^ 16 < spiMinDiv) := by
  by_cases hmax : spiMaxDiv < evenQuotient sysAhbClockFreq baudRate
  · have hnone : hi309xBaudrateCfg sysAhbClockFreq baudRate = none :=
      hi309xBaudrateCfg_none_iff.mpr (Or.inr (Or.inr hmax))
    rw [hnone, hispiBaudrateCfg_none_iff]
    exact ⟨fun h _ => h, fun h => h hmax⟩
  · have hmod : evenQuotient sysAhbClockFreq baudRate % 2 ^ 16 =
        evenQuotient sysAhbClockFreq baudRate := by
      unfold spiMaxDiv at hmax
      omega
    refine iff_of_true ?_ fun h => absurd h hmax
    rw [hispiBaudrateCfg_eq, hi309xBaudrateCfg_eq, hmod]
    simp only [or_iff_left hmax]

theorem hi309xBaudrateCfg_some {d : BitVec 32}
    (h : hi309xBaudrateCfg sysAhbClockFreq baudRate = some d) :
    spiMinDiv ≤ evenQuotient sysAhbClockFreq baudRate ∧
      evenQuotient sysAhbClockFreq baudRate ≤ spiMaxDiv ∧
      d.toNat = evenQuotient sysAhbClockFreq baudRate := by
  rw [hi309xBaudrateCfg_eq] at h
  split at h
  next => cases h
  next hin =>
    obtain rfl := Option.some_injective _ h
    rw [not_or, not_lt, not_lt] at hin
    refine ⟨hin.1, hin.2, ?_⟩
    have hmax := hin.2
    unfold spiMaxDiv at hmax
    rw [BitVec.toNat_ofNat]
    omega

theorem least_iff :
    (∀ d, hi309xBaudrateCfg sysAhbClockFreq baudRate = some d →
      IsLeast (Dividers sysAhbClockFreq baudRate) d.toNat) ↔
        (spiMinDiv ≤ evenQuotient sysAhbClockFreq baudRate →
          evenQuotient sysAhbClockFreq baudRate ≤ spiMaxDiv →
            sysAhbClockFreq.toNat / baudRate.toNat % 2 = 1 ∨
              baudRate.toNat ∣ sysAhbClockFreq.toNat) := by
  constructor
  · intro h hmin hmax
    have haccepted : hi309xBaudrateCfg sysAhbClockFreq baudRate =
        some (BitVec.ofNat 32 (evenQuotient sysAhbClockFreq baudRate)) := by
      rw [hi309xBaudrateCfg_eq, if_neg (not_or.mpr ⟨not_lt.mpr hmin, not_lt.mpr hmax⟩)]
    have hleast := h _ haccepted
    rw [(hi309xBaudrateCfg_some haccepted).2.2] at hleast
    exact (isLeast_evenQuotient_iff hmin hmax).mp hleast
  · intro h d hd
    obtain ⟨hmin, hmax, hdiv⟩ := hi309xBaudrateCfg_some hd
    rw [hdiv]
    exact (isLeast_evenQuotient_iff hmin hmax).mpr (h hmin hmax)

theorem RateAllowed.tooLarge
    (h : RateAllowed sysAhbClockFreq baudRate)
    (hlow : spiMaxDiv * baudRate.toNat < sysAhbClockFreq.toNat) :
    hi309xBaudrateCfg sysAhbClockFreq baudRate = none := by
  by_contra haccepted
  obtain ⟨d, hd⟩ := Option.ne_none_iff_exists'.mp haccepted
  have hrate := (mem_dividers.mp (least_iff.mpr h.exact d hd).1).2.2
  have hle : baudRate.toNat * d.toNat ≤ baudRate.toNat * spiMaxDiv :=
    Nat.mul_le_mul_left _ hrate.1
  rw [Nat.mul_comm baudRate.toNat spiMaxDiv] at hle
  omega

end Dividers

section Rejected

variable {sysAhbClockFreq baudRate : BitVec 32}

theorem kernspiInit_rejected {call : InitCall} (c : Controller)
    (hnone : hispiBaudrateCfg sysAhbClockFreq call.baud = none) :
    (kernspiInit sysAhbClockFreq call c).2 =
      if call.passes then
        { c with
          enabled := false
          ctrlr0 := call.arg.ctrlr0 c.ctrlr0 }
      else c := by
  unfold kernspiInit InitCall.passes
  cases hnull : call.isNull with
  | true => rfl
  | false =>
    cases call.paramCheck with
    | false => rfl
    | true =>
      by_cases hdown : call.down = 0
      · simp [hdown, hispiCtrlConfig, hnone]
      · simp [hdown]

theorem hi309xSpiSetup_rejected {spi : Device} (s : State) (subsys : Bool)
    (hnone : hi309xBaudrateCfg sysAhbClockFreq (BitVec.ofNat 32 spi.maxSpeedHz) = none) :
    (hi309xSpiSetup sysAhbClockFreq s spi subsys).1 =
      if hi309xSetupParaCheck spi then
        { s with
          enabled := false
          ctrlr0 := configCtrlr0 spi.attributes s.ctrlr0
          failed := some spi }
      else s := by
  have hbaud : spi.attributes.baudRate = spi.maxSpeedHz := rfl
  unfold hi309xSpiSetup
  cases hcheck : hi309xSetupParaCheck spi with
  | false => rfl
  | true => simp [hi309xSpiCtrlConfig, hbaud, hnone, einval]

end Rejected

/-- Both drivers round the quotient down before they round it to even, the first one wraps it
before its check, and both disable and set up the controller before they look at the rate. -/
theorem rate_correct_iff (sysAhbClockFreq baudRate : BitVec 32) (call : InitCall) (c : Controller)
    (s : State) (spi : Device) (subsys : Bool) :
    RateCorrect sysAhbClockFreq baudRate call c s spi subsys ↔
      RateAllowed sysAhbClockFreq baudRate ∧
        (Rejected sysAhbClockFreq baudRate →
          (call.baud = baudRate → call.passes = true →
            c.enabled = false ∧ call.arg.ctrlr0 c.ctrlr0 = c.ctrlr0) ∧
          (BitVec.ofNat 32 spi.maxSpeedHz = baudRate → hi309xSetupParaCheck spi = true →
            s.enabled = false ∧ configCtrlr0 spi.attributes s.ctrlr0 = s.ctrlr0)) := by
  constructor
  · intro h
    have hallowed : RateAllowed sysAhbClockFreq baudRate := by
      constructor
      · exact least_iff.mp fun d hd => h.least d (Or.inr hd)
      · exact hispiBaudrateCfg_same_iff.mp h.same
    refine ⟨hallowed, fun hrejected => ?_⟩
    have hnone' := hi309xBaudrateCfg_none_iff.mpr hrejected
    have hnone := h.same.trans hnone'
    constructor
    · intro hbaud hpasses
      obtain ⟨hctrlr0, -, henabled⟩ := h.init hbaud hnone
      rw [← hbaud] at hnone
      rw [kernspiInit_rejected c hnone, if_pos hpasses] at hctrlr0 henabled
      exact ⟨henabled.symm, hctrlr0⟩
    · intro hbaud hcheck
      obtain ⟨hctrlr0, -, henabled⟩ := h.setup hbaud hnone'
      rw [← hbaud] at hnone'
      rw [hi309xSpiSetup_rejected s subsys hnone', if_pos hcheck] at hctrlr0 henabled
      exact ⟨henabled.symm, hctrlr0⟩
  · rintro ⟨hallowed, hrejected⟩
    have hsame := hispiBaudrateCfg_same_iff.mpr hallowed.fits
    constructor
    · exact hsame
    · intro d hd
      rw [hsame, or_self] at hd
      exact least_iff.mpr hallowed.exact d hd
    · intro hlow
      rw [hsame, and_self]
      exact hallowed.tooLarge hlow
    · intro hbaud hnone
      have hkept := (hrejected (hi309xBaudrateCfg_none_iff.mp (hsame.symm.trans hnone))).1 hbaud
      rw [← hbaud] at hnone
      rw [kernspiInit_rejected c hnone]
      split
      next hpasses =>
        obtain ⟨henabled, hctrlr0⟩ := hkept hpasses
        exact ⟨hctrlr0, rfl, henabled.symm⟩
      next => exact ⟨rfl, rfl, rfl⟩
    · intro hbaud hnone
      have hkept := (hrejected (hi309xBaudrateCfg_none_iff.mp hnone)).2 hbaud
      rw [← hbaud] at hnone
      rw [hi309xSpiSetup_rejected s subsys hnone]
      split
      next hcheck =>
        obtain ⟨henabled, hctrlr0⟩ := hkept hcheck
        exact ⟨hctrlr0, rfl, henabled.symm⟩
      next => exact ⟨rfl, rfl, rfl⟩

/-- With the clock of the chip a device of 24 MHz gets 25 MHz, and 1 kHz, which is too slow, is
taken for 59 kHz by the first driver only. -/
theorem rate_not_correct :
    ¬ RateCorrect 200000000 24000000 ⟨true, 0, ⟨0, 0, 0, 3, 0, 0⟩, 0, true⟩ ⟨0, 0, false, 0, 0⟩
      ⟨0, 0, 0, false, ⟨0, 0, 0, 0⟩, none, none⟩ ⟨0, 0, 0⟩ true ∧
    ¬ RateCorrect 200000000 1000 ⟨true, 0, ⟨0, 0, 0, 3, 0, 0⟩, 0, true⟩ ⟨0, 0, false, 0, 0⟩
      ⟨0, 0, 0, false, ⟨0, 0, 0, 0⟩, none, none⟩ ⟨0, 0, 0⟩ true := by
  constructor
  · intro h
    have hrate := (mem_dividers.mp (h.least 8 (Or.inr (by decide))).1).2.2.2
    revert hrate
    decide
  · intro h
    have hsame := h.same
    revert hsame
    decide

end HiMpu.SpiDivider
