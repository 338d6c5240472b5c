import HiMpu.BmTypes
import HiMpu.TransitionSystem

/-!
# GPIO initialisation and release

`bm_gpio_init` and `bm_gpio_deinit` of `drivers/gpio/gpio.c`.  The pins of a
group share one interrupt line and one clock-enable bit.  The clock bit is
written through the mask/value helper with the value `1` instead of the mask,
so that an initialisation clears it.
-/

namespace HiMpu.Gpio

def gpioMaxGroupNum : ℕ := 4
def lpscGpio0Bit : ℕ := 26
def funcGpio : ℕ := 1
def gpioIntenOffsetAddr : ℕ := 0x30
def gpioIntmaskOffsetAddr : ℕ := 0x34

def gpioPinTbl : ℕ → ℕ
  | 0 => 32
  | 1 => 32
  | 2 => 32
  | _ => 31

structure PinFunc where
  func : ℕ
  regType : ℕ
  regOff : ℕ
  regMask : BitVec 32
  regVal : BitVec 32

structure GpioFuncInfo where
  pin : ℕ
  funcs : List PinFunc

structure Board where
  gpioExist : ℕ → Bool
  funcTbl : ℕ → GpioFuncInfo

structure State where
  clken : BitVec 32
  ioConfig : ℕ → ℕ → BitVec 32
  gpioReg : ℕ → ℕ → BitVec 32
  /-- `g_group_int_count` by linear pin number. -/
  intCount : ℕ → BitVec 32
  /-- Whether `gpio_irq_handler` is installed for a group. -/
  handler : ℕ → Bool

def gpioGroupPinCheck (B : Board) (group pin : ℕ) : ℤ :=
  if gpioMaxGroupNum ≤ group then bmFail
  else if gpioPinTbl group - 1 < pin then bmFail
  else if B.gpioExist group then bmOk
  else bmFail

def pinLinear (group pin : ℕ) : ℕ :=
  ((List.range group).map gpioPinTbl).sum + pin

def gpioGetPinMap (B : Board) (group pin : ℕ) : Option (ℕ × BitVec 32) :=
  if gpioGroupPinCheck B group pin = bmOk then some (pinLinear group pin, 1#32 <<< pin) else none

def gpioSetLpSubsysReg (s : State) (group : ℕ) (enable : Bool) : State :=
  let val := 1#32 <<< group
  if enable then { s with clken := regReadWrite s.clken (val <<< lpscGpio0Bit) 1 }
  else { s with clken := regReadWrite s.clken (val <<< lpscGpio0Bit) 0 }

def ioCfgRegReadWriteByType (s : State) (f : PinFunc) : State × ℤ :=
  if f.regType ≤ 1 then
    let value := regReadWrite (s.ioConfig f.regType f.regOff) f.regMask f.regVal
    let bank := Function.update (s.ioConfig f.regType) f.regOff value
    ({ s with ioConfig := Function.update s.ioConfig f.regType bank }, bmOk)
  else (s, bmFail)

def gpioSetReuseByPinfunc (B : Board) (s : State) (linear funcType : ℕ) : State × ℤ :=
  if (B.funcTbl linear).pin ≠ linear then (s, bmFail)
  else
    match (B.funcTbl linear).funcs.find? fun f => f.func = funcType with
    | none => (s, bmFail)
    | some f => ioCfgRegReadWriteByType s f

def gpioSetRegVal (s : State) (group reg : ℕ) (pinMap : BitVec 32) (bitval : ℕ) : State :=
  let val := s.gpioReg group reg
  let val := if bitval = 0 then val &&& ~~~pinMap else val ||| pinMap
  let regs := Function.update (s.gpioReg group) reg val
  { s with gpioReg := Function.update s.gpioReg group regs }

def bmGpioInit (B : Board) (s : State) (group pin : ℕ) : State × ℤ :=
  match gpioGetPinMap B group pin with
  | none => (s, bmFail)
  | some (linear, _) =>
    let s := gpioSetLpSubsysReg s group true
    let reuse := gpioSetReuseByPinfunc B s linear funcGpio
    if reuse.2 ≠ bmOk then (reuse.1, bmFail)
    else
      ({ reuse.1 with
          handler := Function.update reuse.1.handler group true
          intCount := Function.update reuse.1.intCount linear (reuse.1.intCount linear + 1) },
        bmOk)

def bmGpioDisableInt (B : Board) (s : State) (group pin : ℕ) : State × ℤ :=
  match gpioGetPinMap B group pin with
  | none => (s, bmFail)
  | some (_, pinMap) =>
    let s := gpioSetRegVal s group gpioIntmaskOffsetAddr pinMap 1
    (gpioSetRegVal s group gpioIntenOffsetAddr pinMap 0, bmOk)

def bmGpioDeinit (B : Board) (s : State) (group pin : ℕ) : State × ℤ :=
  match gpioGetPinMap B group pin with
  | none => (s, bmFail)
  | some (linear, _) =>
    let s := gpioSetLpSubsysReg s group false
    let s := (bmGpioDisableInt B s group pin).1
    let count := if s.intCount linear ≠ 0 then s.intCount linear - 1 else s.intCount linear
    let s := { s with intCount := Function.update s.intCount linear count }
    if count = 0 then ({ s with handler := Function.update s.handler group false }, bmOk)
    else (s, bmOk)

def clockBit (s : State) (group : ℕ) : Bool := s.clken.getLsbD (lpscGpio0Bit + group)

theorem clockBit_setLpSubsys (s : State) {group other : ℕ} (hgroup : group < 4)
    (hother : other < 4) (enable : Bool) :
    clockBit (gpioSetLpSubsysReg s group enable) other =
      (if other = group then false else clockBit s other) := by
  have hmask : ((1#32 <<< group) <<< lpscGpio0Bit).getLsbD (lpscGpio0Bit + other) =
      decide (other = group) := by
    interval_cases group <;> interval_cases other <;> decide
  have hone : (1#32).getLsbD (lpscGpio0Bit + other) = false := by
    interval_cases other <;> decide
  unfold clockBit gpioSetLpSubsysReg
  cases enable <;>
    simp only [if_true, if_false, Bool.false_eq_true, getLsbD_regReadWrite, hmask, decide_eq_true_eq]
  · simp
  · rw [show (1 : BitVec 32) = 1#32 from rfl, hone]

theorem clken_reuse (B : Board) (s : State) (linear funcType : ℕ) :
    (gpioSetReuseByPinfunc B s linear funcType).1.clken = s.clken := by
  unfold gpioSetReuseByPinfunc ioCfgRegReadWriteByType
  split
  · rfl
  · split
    · rfl
    · split <;> rfl

theorem group_lt_of_pinMap {B : Board} {group pin : ℕ} {r : ℕ × BitVec 32}
    (hmap : gpioGetPinMap B group pin = some r) : group < 4 := by
  unfold gpioGetPinMap gpioGroupPinCheck at hmap
  by_contra hnot
  have hle : gpioMaxGroupNum ≤ group := by
    unfold gpioMaxGroupNum
    omega
  simp [hle, bmFail, bmOk] at hmap

theorem clockBit_init (B : Board) (s : State) (group pin other : ℕ) (hother : other < 4) :
    clockBit (bmGpioInit B s group pin).1 other = clockBit s other ∨
      clockBit (bmGpioInit B s group pin).1 other = false := by
  unfold bmGpioInit
  cases hmap : gpioGetPinMap B group pin with
  | none => exact Or.inl rfl
  | some r =>
    have hclock := clockBit_setLpSubsys s (group_lt_of_pinMap hmap) hother true
    have hkeep : clockBit (gpioSetReuseByPinfunc B (gpioSetLpSubsysReg s group true) r.1
        funcGpio).1 other = clockBit (gpioSetLpSubsysReg s group true) other := by
      unfold clockBit
      rw [clken_reuse]
    simp only
    split
    · rw [hkeep, hclock]
      split
      · exact Or.inr rfl
      · exact Or.inl rfl
    · unfold clockBit at hkeep hclock ⊢
      simp only
      rw [hkeep, hclock]
      split
      · exact Or.inr rfl
      · exact Or.inl rfl

theorem clockBit_init_ok {B : Board} {s : State} {group pin : ℕ}
    (hok : (bmGpioInit B s group pin).2 = bmOk) :
    group < 4 ∧ clockBit (bmGpioInit B s group pin).1 group = false := by
  unfold bmGpioInit at hok ⊢
  cases hmap : gpioGetPinMap B group pin with
  | none =>
    rw [hmap] at hok
    cases hok
  | some r =>
    have hgroup := group_lt_of_pinMap hmap
    refine ⟨hgroup, ?_⟩
    have hclock := clockBit_setLpSubsys s hgroup hgroup true
    rw [if_pos rfl] at hclock
    have hkeep := clken_reuse B (gpioSetLpSubsysReg s group true) r.1 funcGpio
    unfold clockBit at hclock ⊢
    simp only
    split
    · rw [hkeep, hclock]
    · simp only
      rw [hkeep, hclock]

theorem clockBit_deinit (B : Board) (s : State) (group pin other : ℕ) (hother : other < 4) :
    clockBit (bmGpioDeinit B s group pin).1 other = clockBit s other ∨
      clockBit (bmGpioDeinit B s group pin).1 other = false := by
  unfold bmGpioDeinit
  cases hmap : gpioGetPinMap B group pin with
  | none => exact Or.inl rfl
  | some r =>
    have hclock := clockBit_setLpSubsys s (group_lt_of_pinMap hmap) hother false
    have hkeep : ∀ t, (bmGpioDisableInt B t group pin).1.clken = t.clken := by
      intro t
      unfold bmGpioDisableInt
      rw [hmap]
      rfl
    have hfinal : clockBit (gpioSetLpSubsysReg s group false) other = clockBit s other ∨
        clockBit (gpioSetLpSubsysReg s group false) other = false := by
      rw [hclock]
      split
      · exact Or.inr rfl
      · exact Or.inl rfl
    unfold clockBit at hfinal ⊢
    rw [← hkeep] at hfinal
    simp only
    split_ifs <;> exact hfinal

inductive Call where
  | init (group pin : ℕ)
  | deinit (group pin : ℕ)

structure Run where
  state : State
  inits : ℕ → ℕ → ℕ
  deinits : ℕ → ℕ → ℕ

def tally (count : ℕ → ℕ → ℕ) (group pin : ℕ) (ret : ℤ) : ℕ → ℕ → ℕ := fun g p =>
  if ret = bmOk ∧ g = group ∧ p = pin then count g p + 1 else count g p

def Run.call (B : Board) (r : Run) : Call → Run
  | .init group pin =>
    { r with
      state := (bmGpioInit B r.state group pin).1
      inits := tally r.inits group pin (bmGpioInit B r.state group pin).2 }
  | .deinit group pin =>
    { r with
      state := (bmGpioDeinit B r.state group pin).1
      deinits := tally r.deinits group pin (bmGpioDeinit B r.state group pin).2 }

def gpioSystem (B : Board) : TransitionSystem Run Call where
  init r := (∀ p, r.state.intCount p = 0) ∧ (∀ g, r.state.handler g = false) ∧
    (∀ g p, r.inits g p = 0) ∧ ∀ g p, r.deinits g p = 0
  step r c r' := r' = r.call B c

/-- Every group with a pin initialised more often than released has its
handler and its clock. -/
def GroupsServed (r : Run) : Prop :=
  ∀ g p, r.deinits g p < r.inits g p → r.state.handler g = true ∧ clockBit r.state g = true

def ClocksOff (r : Run) : Prop :=
  ∀ g p, 0 < r.inits g p → g < 4 ∧ clockBit r.state g = false

theorem ClocksOff.call {B : Board} {r : Run} (hoff : ClocksOff r) (c : Call) :
    ClocksOff (r.call B c) := by
  intro g p hpos
  cases c with
  | init group pin =>
    simp only [Run.call, tally] at hpos ⊢
    by_cases hcount : (bmGpioInit B r.state group pin).2 = bmOk ∧ g = group ∧ p = pin
    · obtain ⟨hok, rfl, rfl⟩ := hcount
      exact clockBit_init_ok hok
    · rw [if_neg hcount] at hpos
      obtain ⟨hg, hclock⟩ := hoff g p hpos
      refine ⟨hg, ?_⟩
      rcases clockBit_init B r.state group pin g hg with heq | heq
      · rw [heq, hclock]
      · exact heq
  | deinit group pin =>
    simp only [Run.call] at hpos ⊢
    obtain ⟨hg, hclock⟩ := hoff g p hpos
    refine ⟨hg, ?_⟩
    rcases clockBit_deinit B r.state group pin g hg with heq | heq
    · rw [heq, hclock]
    · exact heq

theorem clocksOff_of_reachable {B : Board} {r : Run} (hreach : (gpioSystem B).Reachable r) :
    ClocksOff r := by
  apply hreach.invariant
  · rintro r ⟨-, -, hinits, -⟩ g p hpos
    rw [hinits] at hpos
    omega
  · rintro r c r' - hoff rfl
    exact hoff.call c

def plainBoard : Board where
  gpioExist := fun _ => true
  funcTbl := fun linear => ⟨linear, [⟨funcGpio, 0, 4 * linear, 3, 2⟩]⟩

def plainStart : Run where
  state := ⟨BitVec.allOnes 32, fun _ _ => 0, fun _ _ => 0, fun _ => 0, fun _ => false⟩
  inits := fun _ _ => 0
  deinits := fun _ _ => 0

theorem plainStart_reachable : (gpioSystem plainBoard).Reachable plainStart :=
  TransitionSystem.Reachable.init ⟨fun _ => rfl, fun _ => rfl, fun _ _ => rfl, fun _ _ => rfl⟩

end HiMpu.Gpio
