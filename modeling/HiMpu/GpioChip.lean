import HiMpu.BmTypes

/-!
# The gpio_chip callbacks

`hi309x_gpio_direction_input`, `hi309x_gpio_direction_output`,
`hi309x_gpio_set_value`, `hi309x_gpio_get_value` and `hi309x_gpio_get_direction`
of `drivers/gpio/gpio_hi309x.c` against the pin of gpiolib, which has a
direction and a level.  Every register write of a callback is kept, so that the
levels between two writes can be compared as well as the last ones.
-/

namespace HiMpu.GpioChip

def maxGpioCnt : ℕ := 127
def specGpioBit30Pin : ℕ := 158
def specGpioBit31Pin : ℕ := 159
def gpioGroupMaxPinNum : ℕ := 32
def regGpioOutput : ℕ := 0x0
def regGpioDir : ℕ := 0x4
def regGpioInten : ℕ := 0x30
def regGpioInput : ℕ := 0x50
def gpioDirInput : ℕ := 0
def gpioDirOutput : ℕ := 1
def gpioOutLow : ℕ := 0
def gpioOutHigh : ℕ := 1
def einval : ℤ := 22

abbrev Regs := ℕ → ℕ → BitVec 32

def gpioReadReg (r : Regs) (group offset : ℕ) : BitVec 32 := r group offset

def gpioWriteReg (r : Regs) (group offset : ℕ) (val : BitVec 32) : Regs :=
  Function.update r group (Function.update (r group) offset val)

def gpioClearRegBit (r : Regs) (group reg : ℕ) (pinMask : BitVec 32) : Regs :=
  gpioWriteReg r group reg (gpioReadReg r group reg &&& ~~~pinMask)

def gpioSetRegBit (r : Regs) (group reg : ℕ) (pinMask : BitVec 32) : Regs :=
  gpioWriteReg r group reg (gpioReadReg r group reg ||| pinMask)

def gpioSetRegBitVal (r : Regs) (group reg : ℕ) (pinMask : BitVec 32) (bitval : ℕ) : Regs :=
  if bitval = 0 then gpioClearRegBit r group reg pinMask
  else gpioSetRegBit r group reg pinMask

def gpioGetRegBitVal (r : Regs) (group reg : ℕ) (pinMask : BitVec 32) : BitVec 32 :=
  if gpioReadReg r group reg &&& pinMask ≠ 0 then 1 else 0

def gpioPinNumValid (pin : ℕ) : Bool :=
  !(maxGpioCnt ≤ pin && pin ≠ specGpioBit30Pin && pin ≠ specGpioBit31Pin)

def gpioGetGroupPinNum (pin : ℕ) : Option (ℕ × ℕ × BitVec 32) :=
  if gpioPinNumValid pin then
    some (pin / gpioGroupMaxPinNum, pin % gpioGroupMaxPinNum,
      1#32 <<< (pin % gpioGroupMaxPinNum))
  else none

/-- What a callback did: the register contents after each of its writes and its
return value, which is 0 for the one callback that returns nothing. -/
structure Outcome where
  writes : List Regs
  ret : ℤ

def Outcome.final (o : Outcome) (r : Regs) : Regs :=
  o.writes.getLast?.getD r

section Callbacks

/- The return value of `gpio_set_reuse_by_pinfunc(pin, FUNC_GPIO)`, which writes
the pin-mux registers only. -/
variable (reuse : ℕ → ℤ)

def hi309xGpioDirectionInput (r : Regs) (offset : ℕ) : Outcome :=
  match gpioGetGroupPinNum offset with
  | none => ⟨[], -einval⟩
  | some (group, pinNo, pinMask) =>
    let ret := reuse (group * gpioGroupMaxPinNum + pinNo)
    if ret ≠ 0 then ⟨[], ret⟩
    else
      let r₁ := gpioSetRegBitVal r group regGpioInten pinMask 0
      let r₂ := gpioSetRegBitVal r₁ group regGpioDir pinMask gpioDirInput
      ⟨[r₁, r₂], 0⟩

def hi309xGpioDirectionOutput (r : Regs) (offset : ℕ) (value : ℤ) : Outcome :=
  match gpioGetGroupPinNum offset with
  | none => ⟨[], -einval⟩
  | some (group, pinNo, pinMask) =>
    let ret := reuse (group * gpioGroupMaxPinNum + pinNo)
    if ret ≠ 0 then ⟨[], ret⟩
    else
      let regVal := if value ≠ 0 then gpioOutHigh else gpioOutLow
      let r₁ := gpioSetRegBitVal r group regGpioInten pinMask 0
      let r₂ := gpioSetRegBitVal r₁ group regGpioDir pinMask gpioDirOutput
      let r₃ := gpioSetRegBitVal r₂ group regGpioOutput pinMask regVal
      ⟨[r₁, r₂, r₃], 0⟩

def hi309xGpioSetValue (r : Regs) (offset : ℕ) (value : ℤ) : Outcome :=
  match gpioGetGroupPinNum offset with
  | none => ⟨[], 0⟩
  | some (group, _, pinMask) =>
    if gpioGetRegBitVal r group regGpioDir pinMask = 0 then ⟨[], 0⟩
    else
      let regVal := if value ≠ 0 then gpioOutHigh else gpioOutLow
      ⟨[gpioSetRegBitVal r group regGpioOutput pinMask regVal], 0⟩

def hi309xGpioGetValue (r : Regs) (offset : ℕ) : Outcome :=
  match gpioGetGroupPinNum offset with
  | none => ⟨[], -einval⟩
  | some (group, _, pinMask) =>
    if gpioGetRegBitVal r group regGpioDir pinMask = 1 then ⟨[], -einval⟩
    else ⟨[], (gpioGetRegBitVal r group regGpioInput pinMask).toInt⟩

def hi309xGpioGetDirection (r : Regs) (offset : ℕ) : Outcome :=
  match gpioGetGroupPinNum offset with
  | none => ⟨[], -einval⟩
  | some (group, _, pinMask) =>
    let dir := gpioGetRegBitVal r group regGpioDir pinMask
    ⟨[], (~~~dir).toInt⟩

end Callbacks

inductive Call
  | directionInput (pin : ℕ)
  | directionOutput (pin : ℕ) (value : ℤ)
  | setValue (pin : ℕ) (value : ℤ)
  | getValue (pin : ℕ)
  | getDirection (pin : ℕ)

def Call.pin : Call → ℕ
  | .directionInput pin => pin
  | .directionOutput pin _ => pin
  | .setValue pin _ => pin
  | .getValue pin => pin
  | .getDirection pin => pin

def Call.run (reuse : ℕ → ℤ) (r : Regs) : Call → Outcome
  | .directionInput pin => hi309xGpioDirectionInput reuse r pin
  | .directionOutput pin value => hi309xGpioDirectionOutput reuse r pin value
  | .setValue pin value => hi309xGpioSetValue r pin value
  | .getValue pin => hi309xGpioGetValue r pin
  | .getDirection pin => hi309xGpioGetDirection r pin

/-- The calls, and the pads between two of them, which set the INPUT registers. -/
inductive Event
  | call (c : Call)
  | pads (levels : ℕ → BitVec 32)

inductive Direction
  | input
  | output
  deriving DecidableEq

def Direction.code : Direction → ℤ
  | .input => 1
  | .output => 0

/-- The direction last set and the level most recently requested. -/
structure Pin where
  direction : Direction
  level : Bool

def Call.apply (pins : ℕ → Pin) : Call → ℕ → Pin
  | .directionInput pin => Function.update pins pin { pins pin with direction := .input }
  | .directionOutput pin value => Function.update pins pin ⟨.output, value ≠ 0⟩
  | .setValue pin value => Function.update pins pin { pins pin with level := value ≠ 0 }
  | .getValue _ => pins
  | .getDirection _ => pins

def bitOf (r : Regs) (reg pin : ℕ) : Bool :=
  (r (pin / gpioGroupMaxPinNum) reg).getLsbD (pin % gpioGroupMaxPinNum)

def pinsOf (r : Regs) (pin : ℕ) : Pin where
  direction := if bitOf r regGpioDir pin then .output else .input
  level := bitOf r regGpioOutput pin

def Call.Drives (pins : ℕ → Pin) (pin : ℕ) (value : ℤ) (c : Call) : Prop :=
  c = .directionOutput pin value ∨ c = .setValue pin value ∧ (pins pin).direction = .output

/-- What one call owes to gpiolib, given the registers and the pins before it. -/
structure CallOk (reuse : ℕ → ℤ) (r : Regs) (pins : ℕ → Pin) (c : Call) : Prop where
  direction : ∀ pin, c = .getDirection pin →
    (c.run reuse r).ret = (pins pin).direction.code
  level : ∀ pin value, c.Drives pins pin value →
    bitOf ((c.run reuse r).final r) regGpioOutput pin = decide (value ≠ 0)
  glitchFree : ∀ w ∈ (c.run reuse r).writes, ∀ pin < maxGpioCnt,
    bitOf w regGpioDir pin = true →
      bitOf w regGpioOutput pin = (c.apply pins pin).level ∨
        bitOf r regGpioDir pin = true ∧ bitOf w regGpioOutput pin = bitOf r regGpioOutput pin
  frame : ∀ w ∈ (c.run reuse r).writes, ∀ group reg, ∀ i < gpioGroupMaxPinNum,
    ¬ (group = c.pin / gpioGroupMaxPinNum ∧ i = c.pin % gpioGroupMaxPinNum) →
      (w group reg).getLsbD i = (r group reg).getLsbD i

def RunOk (reuse : ℕ → ℤ) : Regs → (ℕ → Pin) → List Event → Prop
  | _, _, [] => True
  | r, pins, .pads levels :: es =>
    RunOk reuse (fun group => Function.update (r group) regGpioInput (levels group)) pins es
  | r, pins, .call c :: es =>
    CallOk reuse r pins c ∧ RunOk reuse ((c.run reuse r).final r) (c.apply pins) es

/-- The direction is not asked for, and a pin made an output drives the new
level already or holds it in its OUTPUT bit. -/
def Call.Harmless (r : Regs) : Call → Prop
  | .directionOutput pin value =>
    bitOf r regGpioDir pin = true ∨ bitOf r regGpioOutput pin = decide (value ≠ 0)
  | .getDirection _ => False
  | _ => True

def RunHarmless (reuse : ℕ → ℤ) : Regs → List Event → Prop
  | _, [] => True
  | r, .pads levels :: es =>
    RunHarmless reuse (fun group => Function.update (r group) regGpioInput (levels group)) es
  | r, .call c :: es => c.Harmless r ∧ RunHarmless reuse ((c.run reuse r).final r) es

section Bits

variable {r : Regs} {p q reg reg' : ℕ}

theorem getLsbD_setMask (x : BitVec 32) {n i bitval : ℕ} (hi : i < 32) :
    (if bitval = 0 then x &&& ~~~(1#32 <<< n) else x ||| 1#32 <<< n).getLsbD i =
      if i = n then decide (bitval ≠ 0) else x.getLsbD i := by
  have hmask : (1#32 <<< n).getLsbD i = decide (i = n) := by
    simp only [BitVec.getLsbD_shiftLeft, BitVec.getLsbD_one]
    grind
  by_cases hval : bitval = 0
  · rw [if_pos hval, BitVec.getLsbD_and, BitVec.getLsbD_not, hmask]
    simp only [hi, hval]
    grind
  · rw [if_neg hval, BitVec.getLsbD_or, hmask]
    grind

theorem gpioSetRegBitVal_getLsbD (r : Regs) (group reg bitval : ℕ) {n group' i : ℕ}
    (hi : i < 32) :
    (gpioSetRegBitVal r group reg (1#32 <<< n) bitval group' reg').getLsbD i =
      if group' = group ∧ reg' = reg ∧ i = n then decide (bitval ≠ 0)
      else (r group' reg').getLsbD i := by
  have hset : gpioSetRegBitVal r group reg (1#32 <<< n) bitval =
      gpioWriteReg r group reg
        (if bitval = 0 then r group reg &&& ~~~(1#32 <<< n) else r group reg ||| 1#32 <<< n) := by
    unfold gpioSetRegBitVal gpioClearRegBit gpioSetRegBit gpioReadReg
    split <;> rfl
  rw [hset, gpioWriteReg]
  by_cases hgroup : group' = group
  · subst hgroup
    rw [Function.update_self]
    by_cases hreg : reg' = reg
    · subst hreg
      rw [Function.update_self, getLsbD_setMask _ hi]
      simp only [true_and]
    · rw [Function.update_of_ne hreg]
      simp only [hreg, false_and, and_false, if_false]
  · rw [Function.update_of_ne hgroup]
    simp only [hgroup, false_and, if_false]

def setPin (r : Regs) (reg p bitval : ℕ) : Regs :=
  gpioSetRegBitVal r (p / gpioGroupMaxPinNum) reg (1#32 <<< (p % gpioGroupMaxPinNum)) bitval

theorem mod_lt_group (p : ℕ) : p % gpioGroupMaxPinNum < 32 :=
  Nat.mod_lt p (by decide)

theorem pin_eq_iff :
    q / gpioGroupMaxPinNum = p / gpioGroupMaxPinNum ∧
      q % gpioGroupMaxPinNum = p % gpioGroupMaxPinNum ↔ q = p := by
  simp only [gpioGroupMaxPinNum]
  omega

theorem bitOf_setPin (r : Regs) (reg p bitval : ℕ) :
    bitOf (setPin r reg p bitval) reg' q =
      if reg' = reg ∧ q = p then decide (bitval ≠ 0) else bitOf r reg' q := by
  unfold bitOf setPin
  rw [gpioSetRegBitVal_getLsbD _ _ _ _ (mod_lt_group q)]
  have hpin := pin_eq_iff (q := q) (p := p)
  grind

theorem setPin_frame {group i bitval : ℕ} (hi : i < gpioGroupMaxPinNum)
    (hother : ¬ (group = p / gpioGroupMaxPinNum ∧ i = p % gpioGroupMaxPinNum)) :
    (setPin r reg p bitval group reg').getLsbD i = (r group reg').getLsbD i := by
  unfold setPin
  rw [gpioSetRegBitVal_getLsbD _ _ _ _ hi, if_neg]
  rintro ⟨hgroup, -, hbit⟩
  exact hother ⟨hgroup, hbit⟩

theorem gpioGetRegBitVal_eq (r : Regs) (reg p : ℕ) :
    gpioGetRegBitVal r (p / gpioGroupMaxPinNum) reg (1#32 <<< (p % gpioGroupMaxPinNum)) =
      if bitOf r reg p then 1 else 0 := by
  have hand : gpioReadReg r (p / gpioGroupMaxPinNum) reg &&&
      1#32 <<< (p % gpioGroupMaxPinNum) ≠ 0 ↔ bitOf r reg p = true := by
    rw [← BitVec.twoPow_eq, BitVec.and_twoPow]
    unfold bitOf gpioReadReg
    split
    next hbit =>
      refine iff_of_true ?_ hbit
      intro hzero
      have h := congrArg (fun x : BitVec 32 => x.getLsbD (p % gpioGroupMaxPinNum)) hzero
      simp [mod_lt_group p] at h
    next hbit => exact iff_of_false (fun h => h rfl) hbit
  unfold gpioGetRegBitVal
  simp only [hand]

theorem gpioGetGroupPinNum_of_lt (hp : p < maxGpioCnt) :
    gpioGetGroupPinNum p = some (p / gpioGroupMaxPinNum, p % gpioGroupMaxPinNum,
      1#32 <<< (p % gpioGroupMaxPinNum)) := by
  unfold gpioGetGroupPinNum gpioPinNumValid
  simp [Nat.not_le.mpr hp]

end Bits

section Runs

variable {reuse : ℕ → ℤ} (hreuse : ∀ p < maxGpioCnt, reuse p = 0) {r : Regs} {p : ℕ}
  (hp : p < maxGpioCnt)

include hp

include hreuse in
theorem directionInput_writes :
    hi309xGpioDirectionInput reuse r p =
      ⟨[setPin r regGpioInten p 0, setPin (setPin r regGpioInten p 0) regGpioDir p 0], 0⟩ := by
  have hpin : p / gpioGroupMaxPinNum * gpioGroupMaxPinNum + p % gpioGroupMaxPinNum = p :=
    Nat.div_add_mod' p _
  unfold hi309xGpioDirectionInput
  rw [gpioGetGroupPinNum_of_lt hp]
  simp only [hpin, hreuse p hp, ne_eq, not_true, if_false]
  rfl

include hreuse in
theorem directionOutput_writes (value : ℤ) :
    hi309xGpioDirectionOutput reuse r p value =
      ⟨[setPin r regGpioInten p 0, setPin (setPin r regGpioInten p 0) regGpioDir p 1,
        setPin (setPin (setPin r regGpioInten p 0) regGpioDir p 1) regGpioOutput p
          (if value ≠ 0 then 1 else 0)], 0⟩ := by
  have hpin : p / gpioGroupMaxPinNum * gpioGroupMaxPinNum + p % gpioGroupMaxPinNum = p :=
    Nat.div_add_mod' p _
  unfold hi309xGpioDirectionOutput
  rw [gpioGetGroupPinNum_of_lt hp]
  simp only [hpin, hreuse p hp, ne_eq, not_true, if_false]
  rfl

theorem setValue_writes (value : ℤ) :
    hi309xGpioSetValue r p value =
      if bitOf r regGpioDir p then
        ⟨[setPin r regGpioOutput p (if value ≠ 0 then 1 else 0)], 0⟩
      else ⟨[], 0⟩ := by
  unfold hi309xGpioSetValue
  rw [gpioGetGroupPinNum_of_lt hp]
  simp only [gpioGetRegBitVal_eq]
  by_cases hdir : bitOf r regGpioDir p = true
  · simp only [hdir, if_true]
    rfl
  · simp only [hdir, if_false, if_true, Bool.false_eq_true]

theorem getValue_writes : (hi309xGpioGetValue r p).writes = [] := by
  unfold hi309xGpioGetValue
  rw [gpioGetGroupPinNum_of_lt hp]
  simp only
  split <;> rfl

theorem getDirection_outcome :
    hi309xGpioGetDirection r p = ⟨[], if bitOf r regGpioDir p then -2 else -1⟩ := by
  unfold hi309xGpioGetDirection
  rw [gpioGetGroupPinNum_of_lt hp]
  simp only [gpioGetRegBitVal_eq]
  split <;> rfl

end Runs

def Implements (r : Regs) (pins : ℕ → Pin) : Prop :=
  ∀ p < maxGpioCnt, (bitOf r regGpioDir p = true ↔ (pins p).direction = .output) ∧
    ((pins p).direction = .output → bitOf r regGpioOutput p = (pins p).level)

theorem implements_pinsOf (r : Regs) : Implements r (pinsOf r) := by
  intro p _
  unfold pinsOf
  split <;> simp_all

theorem Implements.pads {r : Regs} {pins : ℕ → Pin} (himpl : Implements r pins)
    (levels : ℕ → BitVec 32) :
    Implements (fun group => Function.update (r group) regGpioInput (levels group)) pins := by
  intro p hp
  have hdir : ∀ group, Function.update (r group) regGpioInput (levels group) regGpioDir =
      r group regGpioDir := fun group => Function.update_of_ne (by decide) _ _
  have hout : ∀ group, Function.update (r group) regGpioInput (levels group) regGpioOutput =
      r group regGpioOutput := fun group => Function.update_of_ne (by decide) _ _
  unfold bitOf
  simp only [hdir, hout]
  exact himpl p hp

theorem Call.Drives.apply {pins : ℕ → Pin} {p : ℕ} {value : ℤ} {c : Call}
    (hdrives : c.Drives pins p value) :
    c.pin = p ∧ c.apply pins p = ⟨.output, decide (value ≠ 0)⟩ := by
  rcases hdrives with rfl | ⟨rfl, houtput⟩
  · exact ⟨rfl, Function.update_self _ _ _⟩
  · refine ⟨rfl, ?_⟩
    rw [Call.apply, Function.update_self]
    simp only [houtput]

section Simulation

variable {reuse : ℕ → ℤ} (hreuse : ∀ p < maxGpioCnt, reuse p = 0) {r : Regs}
  {pins : ℕ → Pin} {c : Call} (hp : c.pin < maxGpioCnt)

include hreuse hp

theorem Implements.call (himpl : Implements r pins) :
    Implements ((c.run reuse r).final r) (c.apply pins) := by
  intro q hq
  have hbefore := himpl q hq
  cases c with
  | directionInput p =>
    rw [Call.run, directionInput_writes (p := p) hreuse hp]
    simp only [Outcome.final, List.getLast?_cons_cons, List.getLast?_singleton,
      Option.getD_some, bitOf_setPin, Call.apply, Function.update_apply]
    by_cases hqp : q = p
    · simp [hqp]
    · simpa [hqp, regGpioInten, regGpioDir, regGpioOutput] using hbefore
  | directionOutput p value =>
    rw [Call.run, directionOutput_writes (p := p) hreuse hp]
    simp only [Outcome.final, List.getLast?_cons_cons, List.getLast?_singleton,
      Option.getD_some, bitOf_setPin, Call.apply, Function.update_apply]
    by_cases hqp : q = p
    · by_cases hvalue : value = 0 <;>
        simp [hqp, hvalue, regGpioDir, regGpioOutput]
    · simpa [hqp, regGpioInten, regGpioDir, regGpioOutput] using hbefore
  | setValue p value =>
    rw [Call.run, setValue_writes (p := p) hp]
    split
    next hdir =>
      simp only [Outcome.final, List.getLast?_singleton, Option.getD_some, bitOf_setPin,
        Call.apply, Function.update_apply]
      by_cases hqp : q = p
      · subst hqp
        by_cases hvalue : value = 0 <;>
          simpa [hvalue, regGpioDir, regGpioOutput] using hbefore.1
      · simpa [hqp, regGpioDir, regGpioOutput] using hbefore
    next hdir =>
      -- the request is dropped, and an input pin owes no level
      simp only [Outcome.final, List.getLast?_nil, Option.getD_none, Call.apply,
        Function.update_apply]
      by_cases hqp : q = p
      · subst hqp
        have hinput : ¬ (pins q).direction = .output := fun h => hdir (hbefore.1.mpr h)
        simp only [if_true, hinput, hdir, false_implies, and_true, Bool.false_eq_true]
      · simpa only [hqp, if_false] using hbefore
  | getValue p =>
    rw [Call.run, Outcome.final, getValue_writes (p := p) hp]
    exact hbefore
  | getDirection p =>
    rw [Call.run, getDirection_outcome (p := p) hp]
    exact hbefore

theorem writes_frame {w : Regs} (hw : w ∈ (c.run reuse r).writes) (group reg i : ℕ)
    (hi : i < gpioGroupMaxPinNum)
    (hother : ¬ (group = c.pin / gpioGroupMaxPinNum ∧ i = c.pin % gpioGroupMaxPinNum)) :
    (w group reg).getLsbD i = (r group reg).getLsbD i := by
  have hwrite : ∀ (r' : Regs) (reg' bitval : ℕ),
      (setPin r' reg' c.pin bitval group reg).getLsbD i = (r' group reg).getLsbD i :=
    fun _ _ _ => setPin_frame hi hother
  cases c with
  | directionInput p =>
    rw [Call.run, directionInput_writes (p := p) hreuse hp] at hw
    simp only [List.mem_cons, List.not_mem_nil, or_false] at hw
    rcases hw with rfl | rfl
    · exact hwrite _ _ _
    · exact (hwrite _ _ _).trans (hwrite _ _ _)
  | directionOutput p value =>
    rw [Call.run, directionOutput_writes (p := p) hreuse hp] at hw
    simp only [List.mem_cons, List.not_mem_nil, or_false] at hw
    rcases hw with rfl | rfl | rfl
    · exact hwrite _ _ _
    · exact (hwrite _ _ _).trans (hwrite _ _ _)
    · exact (hwrite _ _ _).trans ((hwrite _ _ _).trans (hwrite _ _ _))
  | setValue p value =>
    rw [Call.run, setValue_writes (p := p) hp] at hw
    split at hw
    next =>
      rw [List.mem_singleton] at hw
      rw [hw]
      exact hwrite _ _ _
    next => cases hw
  | getValue p =>
    rw [Call.run, getValue_writes (p := p) hp] at hw
    cases hw
  | getDirection p =>
    rw [Call.run, getDirection_outcome (p := p) hp] at hw
    cases hw

theorem glitchFree_other {w : Regs} (hw : w ∈ (c.run reuse r).writes) {q : ℕ}
    (hother : q ≠ c.pin) (hdir : bitOf w regGpioDir q = true) :
    bitOf r regGpioDir q = true ∧ bitOf w regGpioOutput q = bitOf r regGpioOutput q := by
  have hpos : ¬ (q / gpioGroupMaxPinNum = c.pin / gpioGroupMaxPinNum ∧
      q % gpioGroupMaxPinNum = c.pin % gpioGroupMaxPinNum) := fun h => hother (pin_eq_iff.mp h)
  have hkept : ∀ reg, bitOf w reg q = bitOf r reg q := fun reg =>
    writes_frame hreuse hp hw _ _ _ (mod_lt_group q) hpos
  exact ⟨by rw [← hkept, hdir], hkept _⟩

theorem glitchFree_of_harmless (hharmless : c.Harmless r) {w : Regs}
    (hw : w ∈ (c.run reuse r).writes) (hdir : bitOf w regGpioDir c.pin = true) :
    bitOf w regGpioOutput c.pin = (c.apply pins c.pin).level ∨
      bitOf r regGpioDir c.pin = true ∧
        bitOf w regGpioOutput c.pin = bitOf r regGpioOutput c.pin := by
  cases c with
  | directionInput p =>
    rw [Call.run, directionInput_writes (p := p) hreuse hp] at hw
    simp only [List.mem_cons, List.not_mem_nil, or_false] at hw
    rcases hw with rfl | rfl
    · right
      simpa [bitOf_setPin, regGpioInten, regGpioDir, regGpioOutput] using hdir
    · simp [bitOf_setPin, regGpioDir, Call.pin] at hdir
  | directionOutput p value =>
    rw [Call.run, directionOutput_writes (p := p) hreuse hp] at hw
    simp only [List.mem_cons, List.not_mem_nil, or_false] at hw
    simp only [Call.pin] at hdir
    simp only [Call.pin, Call.apply, Function.update_self]
    rcases hw with rfl | rfl | rfl
    · right
      simpa [bitOf_setPin, regGpioInten, regGpioDir, regGpioOutput] using hdir
    · -- the pin drives its OUTPUT bit before the new level is written
      have hkept : bitOf (setPin (setPin r regGpioInten p 0) regGpioDir p 1) regGpioOutput p =
          bitOf r regGpioOutput p := by
        simp [bitOf_setPin, regGpioInten, regGpioDir, regGpioOutput]
      rcases hharmless with hdriven | hheld
      · exact Or.inr ⟨hdriven, hkept⟩
      · exact Or.inl (hkept.trans hheld)
    · left
      by_cases hvalue : value = 0 <;> simp [bitOf_setPin, hvalue]
  | setValue p value =>
    rw [Call.run, setValue_writes (p := p) hp] at hw
    split at hw
    next =>
      rw [List.mem_singleton] at hw
      subst hw
      left
      by_cases hvalue : value = 0 <;>
        simp [bitOf_setPin, hvalue, Call.pin, Call.apply]
    next => cases hw
  | getValue p =>
    rw [Call.run, getValue_writes (p := p) hp] at hw
    cases hw
  | getDirection p => exact hharmless.elim

theorem callOk_iff (himpl : Implements r pins) : CallOk reuse r pins c ↔ c.Harmless r := by
  constructor
  · intro hok
    cases c with
    | directionInput p => trivial
    | directionOutput p value =>
      have hwrites := directionOutput_writes (p := p) (r := r) hreuse hp value
      have hglitch := hok.glitchFree
        (setPin (setPin r regGpioInten p 0) regGpioDir p 1)
        (by rw [Call.run, hwrites]; simp) p hp (by simp [bitOf_setPin])
      rcases hglitch with hlevel | ⟨hdriven, -⟩
      · right
        simpa [bitOf_setPin, regGpioInten, regGpioDir, regGpioOutput, Call.apply] using hlevel
      · exact Or.inl hdriven
    | setValue p value => trivial
    | getValue p => trivial
    | getDirection p =>
      have hret := hok.direction p rfl
      rw [Call.run, getDirection_outcome (p := p) hp] at hret
      have hcode : 0 ≤ (pins p).direction.code := by
        cases (pins p).direction <;> decide
      rw [← hret] at hcode
      split at hcode <;> exact absurd hcode (by decide)
  · intro hharmless
    refine ⟨?_, ?_, ?_, ?_⟩
    · rintro pin rfl
      exact hharmless.elim
    · intro pin value hdrives
      obtain ⟨hpin, happly⟩ := hdrives.apply
      have hafter := (himpl.call hreuse hp pin (hpin ▸ hp)).2
      rw [happly] at hafter
      exact hafter rfl
    · intro w hw pin _ hdir
      by_cases hother : pin = c.pin
      · subst hother
        exact glitchFree_of_harmless hreuse hp hharmless hw hdir
      · exact Or.inr (glitchFree_other hreuse hp hw hother hdir)
    · exact fun w hw => writes_frame hreuse hp hw

end Simulation

/-- The callbacks implement gpiolib's pins over a sequence of calls if and only
if no call of it asks for a direction and none turns an input pin into an output
of the level that its OUTPUT bit does not hold. -/
theorem callbacks_implement_pins (reuse : ℕ → ℤ) (hreuse : ∀ p < maxGpioCnt, reuse p = 0)
    (r : Regs) (events : List Event) (hpins : ∀ c, Event.call c ∈ events → c.pin < maxGpioCnt) :
    RunOk reuse r (pinsOf r) events ↔ RunHarmless reuse r events := by
  suffices hrun : ∀ pins, Implements r pins →
      (RunOk reuse r pins events ↔ RunHarmless reuse r events) from
    hrun _ (implements_pinsOf r)
  induction events generalizing r with
  | nil => exact fun _ _ => Iff.rfl
  | cons e es ih =>
    intro pins himpl
    have hrest : ∀ c, Event.call c ∈ es → c.pin < maxGpioCnt :=
      fun c hc => hpins c (List.mem_cons_of_mem _ hc)
    cases e with
    | pads levels => exact ih _ hrest pins (himpl.pads levels)
    | call c =>
      have hp := hpins c List.mem_cons_self
      exact and_congr (callOk_iff hreuse hp himpl)
        (ih _ hrest _ (himpl.call hreuse hp))

theorem callbacks_implement_pins_raise :
    RunOk (fun _ => 0) (fun _ _ => 0xffffffff#32) (pinsOf fun _ _ => 0xffffffff#32)
      [.call (.setValue 40 1), .call (.directionInput 40), .pads (fun _ => 0#32),
        .call (.directionOutput 40 1), .call (.getValue 41)] :=
  (callbacks_implement_pins (fun _ => 0) (fun _ _ => rfl) (fun _ _ => 0xffffffff#32) _
    (by
      intro c hc
      simp only [List.mem_cons, Event.call.injEq, List.not_mem_nil, or_false, reduceCtorEq,
        false_or] at hc
      rcases hc with rfl | rfl | rfl | rfl <;> decide)).mpr
    ⟨trivial, trivial, Or.inr (by decide), trivial, trivial⟩

/-- With all registers zero pin 3 drives the low level before the high one that
is asked for, and no direction is ever reported right. -/
theorem stale_level_and_direction :
    ¬ RunOk (fun _ => 0) (fun _ _ => 0) (pinsOf fun _ _ => 0) [.call (.directionOutput 3 1)] ∧
    ¬ RunOk (fun _ => 0) (fun _ _ => 0) (pinsOf fun _ _ => 0) [.call (.getDirection 5)] := by
  have himpl := implements_pinsOf fun _ _ => 0
  have hreuse : ∀ p < maxGpioCnt, (fun _ : ℕ => (0 : ℤ)) p = 0 := fun _ _ => rfl
  constructor
  · intro hrun
    have hharmless := (callOk_iff hreuse (by decide) himpl).mp hrun.1
    revert hharmless
    unfold Call.Harmless
    decide
  · intro hrun
    exact (callOk_iff hreuse (by decide) himpl).mp hrun.1

end HiMpu.GpioChip
