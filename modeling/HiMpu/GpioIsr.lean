import HiMpu.GpioChip
import HiMpu.TransitionSystem

/-!
# Dispatch of the GPIO interrupts

`gpio_isr_register`, `gpio_isr_unregister`, `gpio_isr_start`, `gpio_isr_stop` and
`irq_handler` of `drivers/gpio/gpio_ker.c`.  The handlers are registered under the number
of their pin; the interrupt handler finds them under the group and the counter of its
loop, and looks at the raw status of the group.
-/

namespace HiMpu.GpioIsr

open GpioChip (Regs gpioSetRegBitVal gpioClearRegBit gpioGetRegBitVal gpioGetGroupPinNum
  gpioPinNumValid gpioGroupMaxPinNum regGpioDir regGpioInten bitOf setPin einval)

def gpioMaxGroupNum : ℕ := 5
def gpioGroup3 : ℕ := 3
def gpioGroup3MaxPinNum : ℕ := 31
def gpioGroup4MaxPinNum : ℕ := 2
def gpioTotalMaxPinNum : ℕ := 160
def gpioIrqType : ℕ := 3
def gpioBit0 : BitVec 32 := 1#32
def gpioBit30 : BitVec 32 := 1#32 <<< 30
def regGpioIntmask : ℕ := 0x34
def regGpioInttype : ℕ := 0x38
def regGpioIntpolarity : ℕ := 0x3c
def regGpioIntrawstatus : ℕ := 0x44
def regGpioIntdebounce : ℕ := 0x48
def gpioIntStateReady : ℕ := 1

def extIntInfo : List ℕ :=
  [64, 102, 95, 96, 97, 98, 99, 100, 79, 80, 81, 82, 83, 84, 85, 86, 87, 88, 89, 90, 24]

structure Handler where
  isr : ℕ
  data : ℕ
  deriving DecidableEq

structure State where
  regs : Regs
  handlers : ℕ → Handler
  intEvent : ℕ → ℕ

/-- Setting bits of `REG_GPIO_INTCLR`, which reads as zero and clears the raw status. -/
def clearInt (r : Regs) (group : ℕ) (pinMask : BitVec 32) : Regs :=
  gpioClearRegBit r group regGpioIntrawstatus pinMask

def gpioSetInterrupt (reuse : ℕ → ℤ) (s : State) (pin flag : ℕ) (handler : Handler) : State × ℤ :=
  if gpioIrqType < flag then (s, -einval)
  else
    match gpioGetGroupPinNum pin with
    | none => (s, -einval)
    | some (groupNum, groupPin, pinMask) =>
      let r := gpioSetRegBitVal s.regs groupNum regGpioInten pinMask 0
      let r := gpioSetRegBitVal r groupNum regGpioDir pinMask 0
      let r := gpioSetRegBitVal r groupNum regGpioInttype pinMask (flag / 2 % 2)
      let r := gpioSetRegBitVal r groupNum regGpioIntpolarity pinMask (flag % 2)
      let r := clearInt r groupNum pinMask
      let r := gpioSetRegBitVal r groupNum regGpioIntdebounce pinMask 1
      let r := gpioSetRegBitVal r groupNum regGpioInten pinMask (if handler.isr ≠ 0 then 1 else 0)
      ({ s with regs := r, handlers := Function.update s.handlers pin handler },
        reuse (groupNum * gpioGroupMaxPinNum + groupPin))

def gpioIsrRegister (reuse : ℕ → ℤ) (s : State) (pin flag isr data : ℕ) : State × ℤ :=
  gpioSetInterrupt reuse s pin flag ⟨isr, data⟩

def gpioIsrUnregister (reuse : ℕ → ℤ) (s : State) (pin : ℕ) : State × ℤ :=
  gpioSetInterrupt reuse s pin 0 ⟨0, 0⟩

def setIntmask (s : State) (pin bitval : ℕ) : State × ℤ :=
  match gpioGetGroupPinNum pin with
  | none => (s, -einval)
  | some (group, _, pinMask) =>
    ({ s with regs := gpioSetRegBitVal s.regs group regGpioIntmask pinMask bitval }, 0)

def gpioIsrStart (s : State) (pin : ℕ) : State × ℤ := setIntmask s pin 0

def gpioIsrStop (s : State) (pin : ℕ) : State × ℤ := setIntmask s pin 1

def extIntPinMask (group : ℕ) : BitVec 32 :=
  extIntInfo.foldl
    (fun mask pin =>
      if pin / gpioGroupMaxPinNum = group then mask ||| 1#32 <<< (pin % gpioGroupMaxPinNum)
      else mask) 0#32

def gpioIsExtIntPin (group pin : ℕ) : Bool :=
  if gpioMaxGroupNum ≤ group then false else extIntPinMask group &&& 1#32 <<< pin ≠ 0

def gpioGetExtIndexByPin (group pin : ℕ) : ℕ :=
  extIntInfo.idxOf (group * gpioGroupMaxPinNum + pin)

structure Dispatch where
  state : State
  acks : List (ℕ × BitVec 32)
  calls : List Handler

def countI (groupNum : ℕ) : ℕ :=
  if groupNum < gpioGroup3 then gpioGroupMaxPinNum
  else if groupNum = gpioGroup3 then gpioGroup3MaxPinNum
  else gpioGroup4MaxPinNum

def irqPin (groupNum : ℕ) (d : Dispatch) (i : ℕ) : Dispatch :=
  let pinMask := if countI groupNum = gpioGroup4MaxPinNum then gpioBit30 <<< i else gpioBit0 <<< i
  let rawIntStatus := gpioGetRegBitVal d.state.regs groupNum regGpioIntrawstatus pinMask
  if rawIntStatus = 1 then
    let s := { d.state with
      regs := clearInt d.state.regs groupNum pinMask
      intEvent :=
        if gpioIsExtIntPin groupNum i then
          Function.update d.state.intEvent (gpioGetExtIndexByPin groupNum i) gpioIntStateReady
        else d.state.intEvent }
    let handler := s.handlers (groupNum * gpioGroupMaxPinNum + i)
    { state := s
      acks := d.acks ++ [(groupNum, pinMask)]
      calls := if handler.isr ≠ 0 then d.calls ++ [handler] else d.calls }
  else d

def irqHandler (s : State) (groupNum : ℕ) : Dispatch :=
  (List.range (countI groupNum)).foldl (irqPin groupNum) ⟨s, [], []⟩

inductive Action
  | register (pin flag isr data : ℕ)
  | unregister (pin : ℕ)
  | start (pin : ℕ)
  | stop (pin : ℕ)
  | raise (group : ℕ) (status : BitVec 32)
  | irq (group : ℕ)

def apply (reuse : ℕ → ℤ) (s : State) : Action → State
  | .register pin flag isr data => (gpioIsrRegister reuse s pin flag isr data).1
  | .unregister pin => (gpioIsrUnregister reuse s pin).1
  | .start pin => (gpioIsrStart s pin).1
  | .stop pin => (gpioIsrStop s pin).1
  | .raise group status =>
    { s with
      regs := GpioChip.gpioWriteReg s.regs group regGpioIntrawstatus
        (s.regs group regGpioIntrawstatus ||| status) }
  | .irq group => (irqHandler s group).state

def system (reuse : ℕ → ℤ) : TransitionSystem State Action :=
  TransitionSystem.ofStep (fun s => ∀ pin, s.handlers pin = ⟨0, 0⟩)
    fun s a => some (apply reuse s a)

def groupPins (group : ℕ) : List ℕ :=
  (List.range gpioTotalMaxPinNum).filter fun p =>
    gpioPinNumValid p ∧ p / gpioGroupMaxPinNum = group

def State.raised (s : State) (p : ℕ) : Bool := bitOf s.regs regGpioIntrawstatus p

def State.wanted (s : State) (p : ℕ) : Bool :=
  s.raised p && (s.handlers p).isr ≠ 0 && bitOf s.regs regGpioInten p &&
    !bitOf s.regs regGpioIntmask p

structure DispatchOk (s : State) (group : ℕ) : Prop where
  calls : (irqHandler s group).calls.Perm (((groupPins group).filter s.wanted).map s.handlers)
  acks : (irqHandler s group).acks = ((groupPins group).filter s.raised).map fun p =>
    (p / gpioGroupMaxPinNum, 1#32 <<< (p % gpioGroupMaxPinNum))
  events : ∀ index (hindex : index < extIntInfo.length),
    (irqHandler s group).state.intEvent index =
      if extIntInfo[index] ∈ groupPins group ∧ s.raised extIntInfo[index] = true then
        gpioIntStateReady
      else s.intEvent index

def Served (s : State) (group : ℕ) : Prop :=
  ∀ p ∈ groupPins group, s.raised p = true → (s.handlers p).isr ≠ 0 →
    bitOf s.regs regGpioIntmask p = decide (gpioGroup3 < group)

section Registration

variable {reuse : ℕ → ℤ} {s : State}

theorem clearInt_eq (r : Regs) (p : ℕ) :
    clearInt r (p / gpioGroupMaxPinNum) (1#32 <<< (p % gpioGroupMaxPinNum)) =
      setPin r regGpioIntrawstatus p 0 :=
  rfl

def Registered (s : State) : Prop :=
  ∀ p, (s.handlers p).isr ≠ 0 → gpioPinNumValid p = true ∧ bitOf s.regs regGpioInten p = true

theorem Registered.regs (hreg : Registered s) {r : Regs}
    (hinten : ∀ p, bitOf r regGpioInten p = bitOf s.regs regGpioInten p) :
    Registered { s with regs := r } := by
  intro p hp
  rw [hinten]
  exact hreg p hp

theorem Registered.setInterrupt (hreg : Registered s) (pin flag : ℕ) (handler : Handler) :
    Registered (gpioSetInterrupt reuse s pin flag handler).1 := by
  unfold gpioSetInterrupt gpioGetGroupPinNum
  split
  next => exact hreg
  cases hvalid : gpioPinNumValid pin with
  | false => exact hreg
  | true =>
    simp only [if_true]
    intro p hp
    have hinten : ∀ (r : Regs) (v : ℕ), bitOf (setPin r regGpioInten pin v) regGpioInten p =
        if p = pin then decide (v ≠ 0) else bitOf r regGpioInten p := by
      intro r v
      rw [GpioChip.bitOf_setPin]
      simp only [true_and]
    have hother : ∀ (r : Regs) (reg v : ℕ), reg ≠ regGpioInten →
        bitOf (setPin r reg pin v) regGpioInten p = bitOf r regGpioInten p := by
      intro r reg v hne
      rw [GpioChip.bitOf_setPin, if_neg]
      exact fun h => hne h.1.symm
    by_cases hpin : p = pin
    · subst hpin
      simp only [Function.update_self] at hp
      refine ⟨hvalid, (hinten _ _).trans ?_⟩
      simp [hp]
    · simp only [Function.update_of_ne hpin] at hp
      refine ⟨(hreg p hp).1, (hinten _ _).trans ?_⟩
      rw [if_neg hpin]
      refine ((hother _ _ _ (by decide)).trans ?_).trans (hreg p hp).2
      rw [clearInt_eq]
      refine (hother _ _ _ (by decide)).trans ?_
      refine (hother _ _ _ (by decide)).trans ?_
      refine (hother _ _ _ (by decide)).trans ?_
      refine (hother _ _ _ (by decide)).trans ?_
      exact (hinten _ _).trans (if_neg hpin)

theorem Registered.setIntmask (hreg : Registered s) (pin bitval : ℕ) :
    Registered (setIntmask s pin bitval).1 := by
  unfold GpioIsr.setIntmask gpioGetGroupPinNum
  cases gpioPinNumValid pin with
  | false => exact hreg
  | true =>
    apply hreg.regs
    intro p
    have hset := @GpioChip.bitOf_setPin p regGpioInten s.regs regGpioIntmask pin bitval
    rwa [if_neg (fun h => absurd h.1 (by decide))] at hset

end Registration

section Loop

variable {s : State} {group : ℕ}

def pinOf (group i : ℕ) : ℕ :=
  group * gpioGroupMaxPinNum + if gpioGroup3 < group then 30 + i else i

theorem countI_cases (group : ℕ) :
    group < 3 ∧ countI group = 32 ∨ group = 3 ∧ countI group = 31 ∨ 3 < group ∧ countI group = 2 := by
  unfold countI
  rcases lt_trichotomy group 3 with h | h | h
  · exact Or.inl ⟨h, if_pos h⟩
  · exact Or.inr (Or.inl ⟨h, (if_neg h.not_lt).trans (if_pos h)⟩)
  · exact Or.inr (Or.inr ⟨h, (if_neg h.le.not_gt).trans (if_neg h.ne')⟩)

theorem pinOffset_lt {i : ℕ} (hi : i < countI group) :
    (if gpioGroup3 < group then 30 + i else i) < gpioGroupMaxPinNum := by
  unfold gpioGroupMaxPinNum gpioGroup3
  rcases countI_cases group with ⟨hgroup, hcount⟩ | ⟨hgroup, hcount⟩ | ⟨hgroup, hcount⟩
  · rw [if_neg (by omega)]
    omega
  · rw [if_neg (by omega)]
    omega
  · rw [if_pos hgroup]
    omega

theorem pinOf_div {i : ℕ} (hi : i < countI group) : pinOf group i / gpioGroupMaxPinNum = group := by
  have hlt := pinOffset_lt hi
  unfold pinOf
  rw [Nat.mul_comm, Nat.mul_add_div (by decide), Nat.div_eq_of_lt hlt, Nat.add_zero]

theorem pinOf_mod {i : ℕ} (hi : i < countI group) :
    pinOf group i % gpioGroupMaxPinNum = if gpioGroup3 < group then 30 + i else i := by
  unfold pinOf
  rw [Nat.mul_add_mod_self_right, Nat.mod_eq_of_lt (pinOffset_lt hi)]

theorem pinMask_eq {i : ℕ} (hi : i < countI group) :
    (if countI group = gpioGroup4MaxPinNum then gpioBit30 <<< i else gpioBit0 <<< i) =
      1#32 <<< (pinOf group i % gpioGroupMaxPinNum) := by
  rw [pinOf_mod hi]
  unfold gpioGroup4MaxPinNum gpioGroup3
  rcases countI_cases group with ⟨hgroup, hcount⟩ | ⟨hgroup, hcount⟩ | ⟨hgroup, hcount⟩
  · rw [if_neg (by omega), if_neg (by omega)]
    rfl
  · rw [if_neg (by omega), if_neg (by omega)]
    rfl
  · rw [if_pos hcount, if_pos hgroup, gpioBit30, BitVec.shiftLeft_add]

theorem gpioPinNumValid_iff (p : ℕ) :
    gpioPinNumValid p = true ↔ p < 127 ∨ p = 158 ∨ p = 159 := by
  unfold gpioPinNumValid
  simp only [GpioChip.maxGpioCnt, GpioChip.specGpioBit30Pin, GpioChip.specGpioBit31Pin]
  grind

theorem groupPins_eq (hgroup : group < gpioMaxGroupNum) :
    groupPins group = (List.range (countI group)).map (pinOf group) := by
  revert group
  decide +kernel

theorem gpioGetRegBitVal_pin (r : Regs) {i : ℕ} (hi : i < countI group) :
    gpioGetRegBitVal r group regGpioIntrawstatus (1#32 <<< (pinOf group i % gpioGroupMaxPinNum)) =
      if bitOf r regGpioIntrawstatus (pinOf group i) then 1 else 0 := by
  have hbit := GpioChip.gpioGetRegBitVal_eq r regGpioIntrawstatus (pinOf group i)
  rwa [pinOf_div hi] at hbit

theorem pinOf_ne {i j : ℕ} (hij : i ≠ j) : pinOf group i ≠ pinOf group j := by
  unfold pinOf
  split <;> omega

structure After (s : State) (group n : ℕ) (d : Dispatch) : Prop where
  handlers : d.state.handlers = s.handlers
  regs : ∀ reg ≠ regGpioIntrawstatus, ∀ p, bitOf d.state.regs reg p = bitOf s.regs reg p
  raw : ∀ i, n ≤ i → bitOf d.state.regs regGpioIntrawstatus (pinOf group i) = s.raised (pinOf group i)
  acks : d.acks = ((List.range n).filter fun i => s.raised (pinOf group i)).map fun i =>
    (group, 1#32 <<< (pinOf group i % gpioGroupMaxPinNum))
  calls : d.calls = ((List.range n).filter fun i => s.raised (pinOf group i) &&
      (s.handlers (group * gpioGroupMaxPinNum + i)).isr ≠ 0).map fun i =>
    s.handlers (group * gpioGroupMaxPinNum + i)
  events : ∀ index, d.state.intEvent index =
    if ∃ i < n, s.raised (pinOf group i) = true ∧ gpioIsExtIntPin group i = true ∧
        index = gpioGetExtIndexByPin group i then gpioIntStateReady
    else s.intEvent index

theorem after_zero (s : State) (group : ℕ) : After s group 0 ⟨s, [], []⟩ where
  handlers := rfl
  regs _ _ _ := rfl
  raw _ _ := rfl
  acks := rfl
  calls := rfl
  events index := by
    rw [if_neg]
    rintro ⟨i, hi, -⟩
    omega

theorem After.irqPin {n : ℕ} {d : Dispatch} (hafter : After s group n d)
    (hn : n < countI group) : After s group (n + 1) (irqPin group d n) := by
  have hraw := hafter.raw n le_rfl
  unfold GpioIsr.irqPin
  simp only [pinMask_eq hn, gpioGetRegBitVal_pin _ hn, hraw]
  cases hraised : s.raised (pinOf group n) with
  | false =>
    have hevents : ∀ index, (∃ i < n + 1, s.raised (pinOf group i) = true ∧
        gpioIsExtIntPin group i = true ∧ index = gpioGetExtIndexByPin group i) ↔
        ∃ i < n, s.raised (pinOf group i) = true ∧
          gpioIsExtIntPin group i = true ∧ index = gpioGetExtIndexByPin group i := by
      intro index
      constructor
      · rintro ⟨i, hi, hbit, hrest⟩
        have hne : i ≠ n := by
          rintro rfl
          rw [hraised] at hbit
          cases hbit
        exact ⟨i, by omega, hbit, hrest⟩
      · rintro ⟨i, hi, hrest⟩
        exact ⟨i, by omega, hrest⟩
    rw [if_neg (by decide)]
    refine ⟨hafter.handlers, hafter.regs, fun i hi => hafter.raw i (by omega), ?_, ?_, ?_⟩
    · simp [hafter.acks, List.range_succ, hraised]
    · simp [hafter.calls, List.range_succ, hraised]
    · intro index
      rw [hafter.events]
      simp only [hevents]
  | true =>
    rw [if_pos rfl]
    refine ⟨hafter.handlers, ?_, ?_, ?_, ?_, ?_⟩
    · intro reg hreg p
      rw [← hafter.regs reg hreg p]
      have hset := @GpioChip.bitOf_setPin p reg d.state.regs
        regGpioIntrawstatus (pinOf group n) 0
      rw [if_neg (fun h => hreg h.1), ← clearInt_eq, pinOf_div hn] at hset
      exact hset
    · intro i hi
      rw [← hafter.raw i (by omega)]
      have hset := @GpioChip.bitOf_setPin (pinOf group i) regGpioIntrawstatus
        d.state.regs regGpioIntrawstatus (pinOf group n) 0
      rw [if_neg (fun h => pinOf_ne (by omega) h.2), ← clearInt_eq, pinOf_div hn] at hset
      exact hset
    · simp [hafter.acks, List.range_succ, hraised]
    · simp only [hafter.handlers, hafter.calls, List.range_succ, List.filter_append,
        List.map_append]
      by_cases hisr : (s.handlers (group * gpioGroupMaxPinNum + n)).isr = 0
      · simp [hisr]
      · simp [hisr, hraised]
    · intro index
      have hevents : (∃ i < n + 1, s.raised (pinOf group i) = true ∧
          gpioIsExtIntPin group i = true ∧ index = gpioGetExtIndexByPin group i) ↔
          (gpioIsExtIntPin group n = true ∧ index = gpioGetExtIndexByPin group n) ∨
            ∃ i < n, s.raised (pinOf group i) = true ∧
              gpioIsExtIntPin group i = true ∧ index = gpioGetExtIndexByPin group i := by
        constructor
        · rintro ⟨i, hi, hbit, hrest⟩
          rcases Nat.lt_succ_iff_lt_or_eq.mp hi with hi | rfl
          · exact Or.inr ⟨i, hi, hbit, hrest⟩
          · exact Or.inl hrest
        · rintro (hrest | ⟨i, hi, hrest⟩)
          · exact ⟨n, by omega, hraised, hrest⟩
          · exact ⟨i, by omega, hrest⟩
      simp only [hevents]
      cases hext : gpioIsExtIntPin group n with
      | false =>
        simp only [Bool.false_eq_true, false_and, false_or, if_false]
        exact hafter.events index
      | true =>
        simp only [true_and, if_true]
        by_cases hindex : index = gpioGetExtIndexByPin group n
        · rw [hindex, Function.update_self, if_pos (Or.inl rfl)]
        · rw [Function.update_of_ne hindex, hafter.events index]
          simp only [hindex, false_or]

theorem after_irqHandler (s : State) (group : ℕ) :
    After s group (countI group) (irqHandler s group) := by
  have hloop : ∀ n ≤ countI group,
      After s group n ((List.range n).foldl (irqPin group) ⟨s, [], []⟩) := by
    intro n
    induction n with
    | zero => exact fun _ => after_zero s group
    | succ n ih =>
      intro hn
      rw [List.range_succ, List.foldl_append]
      exact (ih (by omega)).irqPin hn
  exact hloop _ le_rfl

end Loop

theorem registered_of_reachable {reuse : ℕ → ℤ} {s : State} (hreach : (system reuse).Reachable s) :
    Registered s := by
  apply hreach.invariant
  · intro s hinit p hp
    exact absurd (by rw [hinit p]) hp
  · intro s a s' _ hreg hstep
    cases hstep
    cases a with
    | register pin flag isr data => exact hreg.setInterrupt pin flag ⟨isr, data⟩
    | unregister pin => exact hreg.setInterrupt pin 0 ⟨0, 0⟩
    | start pin => exact hreg.setIntmask pin 0
    | stop pin => exact hreg.setIntmask pin 1
    | raise group status =>
      apply hreg.regs
      intro p
      unfold bitOf GpioChip.gpioWriteReg
      by_cases hgroup : p / gpioGroupMaxPinNum = group
      · rw [hgroup, Function.update_self, Function.update_of_ne (by decide)]
      · rw [Function.update_of_ne hgroup]
    | irq group =>
      have hafter := after_irqHandler s group
      intro p hp
      have hisr : (s.handlers p).isr ≠ 0 := by rwa [← hafter.handlers]
      obtain ⟨hvalid, hinten⟩ := hreg p hisr
      exact ⟨hvalid, (hafter.regs _ (by decide) p).trans hinten⟩

section Exact

variable {s : State} {group : ℕ}

theorem gpioGetExtIndexByPin_iff (hgroup : group < gpioMaxGroupNum) :
    ∀ i < countI group, ∀ index, (hindex : index < extIntInfo.length) →
      (gpioIsExtIntPin group i = true ∧ index = gpioGetExtIndexByPin group i ↔
        extIntInfo[index] = pinOf group i) := by
  revert group
  decide +kernel

theorem acks_eq (s : State) (hgroup : group < gpioMaxGroupNum) :
    (irqHandler s group).acks = ((groupPins group).filter s.raised).map fun p =>
      (p / gpioGroupMaxPinNum, 1#32 <<< (p % gpioGroupMaxPinNum)) := by
  rw [(after_irqHandler s group).acks, groupPins_eq hgroup, List.filter_map, List.map_map]
  apply List.map_congr_left
  intro i hi
  have hlt := List.mem_range.mp (List.mem_filter.mp hi).1
  simp only [Function.comp, pinOf_div hlt]

theorem events_eq (s : State) (hgroup : group < gpioMaxGroupNum) (index : ℕ)
    (hindex : index < extIntInfo.length) :
    (irqHandler s group).state.intEvent index =
      if extIntInfo[index] ∈ groupPins group ∧ s.raised extIntInfo[index] = true then
        gpioIntStateReady
      else s.intEvent index := by
  rw [(after_irqHandler s group).events]
  congr 1
  rw [groupPins_eq hgroup]
  apply propext
  constructor
  · rintro ⟨i, hi, hraised, hext⟩
    have hpin := (gpioGetExtIndexByPin_iff hgroup i hi index hindex).mp hext
    rw [hpin]
    exact ⟨List.mem_map.mpr ⟨i, List.mem_range.mpr hi, rfl⟩, hraised⟩
  · rintro ⟨hmem, hraised⟩
    obtain ⟨i, hi, hpin⟩ := List.mem_map.mp hmem
    have hi := List.mem_range.mp hi
    rw [← hpin] at hraised
    exact ⟨i, hi, hraised, (gpioGetExtIndexByPin_iff hgroup i hi index hindex).mpr hpin.symm⟩

/-- The handlers called are those of the raised pins, of the first four groups only. -/
theorem calls_eq (hreg : Registered s) (hgroup : group < gpioMaxGroupNum) :
    (irqHandler s group).calls = ((groupPins group).filter fun p =>
      s.raised p && (s.handlers p).isr ≠ 0 && group ≤ gpioGroup3).map s.handlers := by
  rw [(after_irqHandler s group).calls, groupPins_eq hgroup, List.filter_map, List.map_map]
  by_cases hfifth : gpioGroup3 < group
  · have hnone : ∀ i < countI group, (s.handlers (group * gpioGroupMaxPinNum + i)).isr = 0 := by
      intro i hi
      by_contra hisr
      have hvalid := (gpioPinNumValid_iff _).mp (hreg _ hisr).1
      rcases countI_cases group with ⟨h, hcount⟩ | ⟨h, hcount⟩ | ⟨h, hcount⟩
      all_goals
        unfold gpioMaxGroupNum at hgroup
        unfold gpioGroup3 at hfifth
        unfold gpioGroupMaxPinNum at hvalid
        omega
    have hleft : (List.range (countI group)).filter (fun i => s.raised (pinOf group i) &&
        (s.handlers (group * gpioGroupMaxPinNum + i)).isr ≠ 0) = [] := by
      rw [List.filter_eq_nil_iff]
      intro i hi
      simp [hnone i (List.mem_range.mp hi)]
    rw [hleft]
    simp [hfifth]
  · have hpin : ∀ i, pinOf group i = group * gpioGroupMaxPinNum + i := by
      intro i
      rw [pinOf, if_neg hfifth]
    have hle : group ≤ gpioGroup3 := not_lt.mp hfifth
    simp only [Function.comp_def, hpin, hle, decide_true, Bool.and_true]

theorem filter_perm_iff {α β : Type*} {l : List α} {f : α → β} {p q : α → Bool}
    (hle : ∀ a ∈ l, q a = true → p a = true) :
    ((l.filter p).map f).Perm ((l.filter q).map f) ↔ ∀ a ∈ l, p a = true → q a = true := by
  constructor
  · intro hperm a ha hp
    have hlength : (l.filter q).length = (l.filter p).length := by
      have hmap := hperm.length_eq
      rw [List.length_map, List.length_map] at hmap
      exact hmap.symm
    have hsplit : l.filter q = (l.filter p).filter q := by
      rw [List.filter_filter]
      apply List.filter_congr
      intro b hb
      cases hq : q b with
      | true => rw [hle b hb hq, Bool.and_self]
      | false => rw [Bool.false_and]
    have hsame : l.filter q = l.filter p := by
      have hsub : (l.filter q).Sublist (l.filter p) := by
        rw [hsplit]
        exact List.filter_sublist
      exact hsub.eq_of_length hlength
    have hmem : a ∈ l.filter q := by
      rw [hsame]
      exact List.mem_filter.mpr ⟨ha, hp⟩
    exact (List.mem_filter.mp hmem).2
  · intro hall
    have hsame : l.filter p = l.filter q := by
      apply List.filter_congr
      intro a ha
      exact Bool.eq_iff_iff.mpr ⟨hall a ha, hle a ha⟩
    rw [hsame]

theorem calls_iff (hreg : Registered s) (hgroup : group < gpioMaxGroupNum) :
    (irqHandler s group).calls.Perm (((groupPins group).filter s.wanted).map s.handlers) ↔
      Served s group := by
  have hwanted : ∀ p, s.wanted p = true ↔ s.raised p = true ∧ (s.handlers p).isr ≠ 0 ∧
      bitOf s.regs regGpioIntmask p = false := by
    intro p
    unfold State.wanted
    simp only [Bool.and_eq_true, decide_eq_true_eq, Bool.not_eq_true', and_assoc]
    exact and_congr_right fun _ => and_congr_right fun hisr =>
      and_iff_right (hreg p hisr).2
  rw [calls_eq hreg hgroup]
  by_cases hfifth : gpioGroup3 < group
  · have hcalled : ∀ p, (s.raised p && (s.handlers p).isr ≠ 0 && group ≤ gpioGroup3) = false := by
      intro p
      simp [hfifth]
    rw [List.perm_comm, filter_perm_iff (fun a _ h => by rw [hcalled a] at h; cases h)]
    refine forall₂_congr fun p _ => ?_
    rw [hcalled p, hwanted p]
    simp [hfifth]
  · have hcalled : ∀ p, (s.raised p && (s.handlers p).isr ≠ 0 && group ≤ gpioGroup3) = true ↔
        s.raised p = true ∧ (s.handlers p).isr ≠ 0 := by
      intro p
      simp [not_lt.mp hfifth]
    have hle : ∀ p ∈ groupPins group, s.wanted p = true →
        (s.raised p && (s.handlers p).isr ≠ 0 && group ≤ gpioGroup3) = true := by
      intro p _ h
      exact (hcalled p).mpr ⟨((hwanted p).mp h).1, ((hwanted p).mp h).2.1⟩
    rw [filter_perm_iff hle]
    refine forall₂_congr fun p _ => ?_
    rw [hcalled p, hwanted p]
    simp only [hfifth, decide_false]
    tauto

end Exact

/-- One execution of the handler does what it owes if and only if no raised pin with a
handler is stopped, or, in the fifth group, not stopped. -/
theorem dispatchOk_iff {reuse : ℕ → ℤ} {s : State} (hreach : (system reuse).Reachable s)
    {group : ℕ} (hgroup : group < gpioMaxGroupNum) : DispatchOk s group ↔ Served s group := by
  rw [← calls_iff (registered_of_reachable hreach) hgroup]
  exact ⟨DispatchOk.calls, fun h => ⟨h, acks_eq s hgroup, events_eq s hgroup⟩⟩

def reset : State := ⟨fun _ _ => 0, fun _ => ⟨0, 0⟩, fun _ => 0⟩

def after (l : List Action) : State := l.foldl (apply fun _ => 0) reset

theorem reachable_after (l : List Action) : (system fun _ => 0).Reachable (after l) := by
  have hrun : ∀ s, (system fun _ => 0).Reachable s →
      (system fun _ => 0).Reachable (l.foldl (apply fun _ => 0) s) := by
    induction l with
    | nil => exact fun s h => h
    | cons a l ih => exact fun s h => ih _ (h.step (a := a) rfl)
  exact hrun reset (TransitionSystem.Reachable.init fun _ => rfl)

theorem dispatchOk_iff_pair :
    DispatchOk (after [.register 64 3 7 1, .register 79 3 8 2, .raise 2 0x8001#32]) 2 :=
  (dispatchOk_iff (reachable_after _) (by decide)).mpr (by unfold Served; decide +kernel)

/-- A stopped pin is served with the other pins of its group; and pin 158 is not, though
it is registered and raised. -/
theorem dispatch_breaks :
    ((system fun _ => 0).Reachable
          (after [.register 3 3 7 1, .stop 3, .raise 0 0x8#32]) ∧
        (irqHandler (after [.register 3 3 7 1, .stop 3, .raise 0 0x8#32]) 0).calls = [⟨7, 1⟩] ∧
        ¬DispatchOk (after [.register 3 3 7 1, .stop 3, .raise 0 0x8#32]) 0) ∧
      (system fun _ => 0).Reachable (after [.register 158 3 7 1, .raise 4 0x40000000#32]) ∧
        (irqHandler (after [.register 158 3 7 1, .raise 4 0x40000000#32]) 4).calls = [] ∧
        ¬DispatchOk (after [.register 158 3 7 1, .raise 4 0x40000000#32]) 4 := by
  refine ⟨⟨reachable_after _, by decide +kernel, ?_⟩, reachable_after _, by decide +kernel, ?_⟩
  · intro hok
    have hcalls := hok.calls.length_eq
    revert hcalls
    decide +kernel
  · intro hok
    have hcalls := hok.calls.length_eq
    revert hcalls
    decide +kernel

end HiMpu.GpioIsr
