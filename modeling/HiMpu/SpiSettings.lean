import HiMpu.HispiBuffer

/-!
# Settings of the Linux SPI controller

`hi309x_spi_setup` and `hi309x_spi_transfer_one` of `drivers/spi/spi_hi309x.c`, with the
attributes that the controller keeps for all its devices.  How the waits and the register
access of the subsystem end is an argument.
-/

namespace HiMpu.SpiSettings

open Hispi (setField spiMinDiv spiMaxDiv sysAhbClockFreq einval eintr enodev etime etimedout)

def spiMaxSpeed : ℕ := 20000000
def spiBufferMaxSize : ℕ := 24
def spiCpha : BitVec 32 := 0x01
def spiCpol : BitVec 32 := 0x02
def spiLoop : BitVec 32 := 0x20

structure Attributes where
  baudRate : ℕ
  frameLen : ℕ
  clkEdge : BitVec 32
  clkPol : BitVec 32

structure Device where
  mode : BitVec 32
  maxSpeedHz : ℕ
  bitsPerWord : ℕ

structure Transfer where
  txBuf : Bool
  rxBuf : Bool
  len : ℕ
  bitsPerWord : ℕ
  speedHz : ℕ

structure State where
  ctrlr0 : BitVec 32
  baudr : ℕ
  imr : BitVec 32
  enabled : Bool
  attr : Attributes
  /-- The device of the last setup that succeeded. -/
  last : Option Device
  /-- The device of a setup that has failed in `hi309x_spi_ctrl_config` since that one, and
  since the last transfer. -/
  failed : Option Device

def State.dfs (s : State) : BitVec 32 := s.ctrlr0 &&& 0xf#32
def State.scpol (s : State) : Bool := s.ctrlr0.getLsbD 7
def State.scph (s : State) : Bool := s.ctrlr0.getLsbD 6

/-! ## Setup -/

def hi309xBaudrateCfg (baudRate : ℕ) : Option ℕ :=
  if baudRate = 0 then none
  else
    let freqDiv := sysAhbClockFreq / baudRate
    let freqDiv := if freqDiv % 2 ≠ 0 then freqDiv + 1 else freqDiv
    if freqDiv < spiMinDiv ∨ freqDiv > spiMaxDiv then none else some (freqDiv % 2 ^ 16)

def frameField (frameLen : ℕ) : BitVec 32 := BitVec.ofNat 32 frameLen - 1

def configCtrlr0 (attr : Attributes) (v : BitVec 32) : BitVec 32 :=
  let v := setField v 11 11 0
  let v := setField v 4 5 0
  let v := setField v 0 3 (frameField attr.frameLen)
  let v := setField v 7 7 attr.clkPol
  setField v 6 6 attr.clkEdge

/-- `subsys` is whether the subsystem accepts the write. -/
def hi309xSpiCtrlConfig (s : State) (subsys : Bool) : State × ℤ :=
  let s := { s with enabled := false, ctrlr0 := configCtrlr0 s.attr s.ctrlr0 }
  match hi309xBaudrateCfg s.attr.baudRate with
  | none => (s, -einval)
  | some freqDiv =>
    let s := { s with baudr := freqDiv, imr := 0 }
    if subsys then ({ s with enabled := true }, 0) else (s, -enodev)

def hi309xSetupParaCheck (spi : Device) : Bool :=
  spi.maxSpeedHz ≤ spiMaxSpeed && spi.mode &&& ~~~(spiCpol ||| spiCpha ||| spiLoop) = 0

def Device.attributes (spi : Device) : Attributes where
  baudRate := spi.maxSpeedHz
  frameLen := spi.bitsPerWord
  clkEdge := if spi.mode &&& spiCpha ≠ 0 then 1 else 0
  clkPol := if spi.mode &&& spiCpol ≠ 0 then 1 else 0

def hi309xSpiSetup (s : State) (spi : Device) (subsys : Bool) : State × ℤ :=
  if !hi309xSetupParaCheck spi then (s, -einval)
  else
    let (s', ret) := hi309xSpiCtrlConfig { s with attr := spi.attributes } subsys
    if ret ≠ 0 then ({ s' with attr := s.attr, failed := some spi }, ret)
    else ({ s' with last := some spi, failed := none }, 0)

inductive Wait
  | done
  | timeout
  | signal
  | busy
  deriving DecidableEq

def Wait.ret : Wait → ℤ
  | .done => 0
  | .timeout => -etimedout
  | .signal => -eintr
  | .busy => -etime

def spiTransferParaCheck (spi : Device) (xfer : Transfer) : Bool :=
  (xfer.bitsPerWord = 8 || xfer.bitsPerWord = 16) && xfer.len ≤ spiBufferMaxSize &&
    xfer.speedHz ≤ spi.maxSpeedHz

def spiTransferConfig (s : State) (spi : Device) (xfer : Transfer) : State × ℤ :=
  if !spiTransferParaCheck spi xfer then (s, -einval)
  else
    let s := { s with
      enabled := false, ctrlr0 := setField s.ctrlr0 0 3 (frameField xfer.bitsPerWord) }
    match hi309xBaudrateCfg xfer.speedHz with
    | none => (s, -einval)
    | some freqDiv => ({ s with baudr := freqDiv, enabled := true }, 0)

def resetCtrlr0 (attr : Attributes) (v : BitVec 32) : BitVec 32 :=
  let v := setField v 0 3 (frameField attr.frameLen)
  let v := setField v 7 7 attr.clkPol
  setField v 6 6 attr.clkEdge

def spiConfigReset (s : State) : State :=
  let s := { s with enabled := false, ctrlr0 := resetCtrlr0 s.attr s.ctrlr0, failed := none }
  match hi309xBaudrateCfg s.attr.baudRate with
  | none => s
  | some freqDiv => { s with baudr := freqDiv, enabled := true }

def setTmod (s : State) (mode : BitVec 32) : State :=
  { s with ctrlr0 := setField s.ctrlr0 8 9 mode }

structure Outcome where
  state : State
  clocked : List State
  ret : ℤ

def hi309xSpiWriteData (s : State) (w : Wait) : Outcome :=
  let s := setTmod s Hispi.spiTrasModeSend
  ⟨s, [s], w.ret⟩

def hi309xSpiReadData (s : State) (r : Wait) : Outcome :=
  let s := setTmod s Hispi.spiTrasModeDuplex
  ⟨s, [s], r.ret⟩

def hi309xSpiTransferOne (s : State) (spi : Device) (xfer : Transfer) (w r : Wait) : Outcome :=
  let (s, ret) := spiTransferConfig s spi xfer
  if ret ≠ 0 then ⟨spiConfigReset s, [], ret⟩
  else if xfer.txBuf ∧ xfer.rxBuf then
    let write := hi309xSpiWriteData s w
    if write.ret ≠ 0 then write
    else
      let read := hi309xSpiReadData write.state r
      ⟨spiConfigReset read.state, write.clocked ++ read.clocked, read.ret⟩
  else if xfer.rxBuf then
    let read := hi309xSpiReadData s r
    ⟨spiConfigReset read.state, read.clocked, read.ret⟩
  else if xfer.txBuf then
    let write := hi309xSpiWriteData s w
    ⟨spiConfigReset write.state, write.clocked, write.ret⟩
  else ⟨spiConfigReset s, [], -einval⟩

inductive Action
  | setup (spi : Device) (subsys : Bool)
  | transfer (spi : Device) (xfer : Transfer) (w r : Wait)

def next (s : State) : Action → State
  | .setup spi subsys => (hi309xSpiSetup s spi subsys).1
  | .transfer spi xfer w r => (hi309xSpiTransferOne s spi xfer w r).state

def system : TransitionSystem State Action where
  init s := s.attr = ⟨0, 0, 0, 0⟩ ∧ s.last = none ∧ s.failed = none
  step s a s' := s' = next s a

/-! ## What a device is promised -/

def Device.cpol (spi : Device) : Bool := spi.mode &&& spiCpol ≠ 0
def Device.cpha (spi : Device) : Bool := spi.mode &&& spiCpha ≠ 0

/-- The frames of the transfer go out with the settings of its device and its own. -/
structure Clocked (spi : Device) (xfer : Transfer) (s : State) : Prop where
  pol : s.scpol = spi.cpol
  phase : s.scph = spi.cpha
  size : s.dfs = BitVec.ofNat 32 (xfer.bitsPerWord - 1)
  divider : hi309xBaudrateCfg xfer.speedHz = some s.baudr

/-- The controller is enabled, and as the device's setup has left it. -/
structure Restored (spi : Device) (s : State) : Prop where
  enabled : s.enabled = true
  size : s.dfs = frameField spi.bitsPerWord &&& 0xf#32
  pol : s.scpol = spi.cpol
  phase : s.scph = spi.cpha
  divider : hi309xBaudrateCfg spi.maxSpeedHz = some s.baudr

def StepOk (s : State) : Action → Prop
  | .setup _ _ => True
  | .transfer spi xfer w r =>
    (∀ t ∈ (hi309xSpiTransferOne s spi xfer w r).clocked, Clocked spi xfer t) ∧
      ∃ d, s.last = some d ∧ Restored d (hi309xSpiTransferOne s spi xfer w r).state

def State.owner (s : State) : Option Device := s.failed.or s.last

def Transfer.starts (xfer : Transfer) (spi : Device) : Bool :=
  spiTransferParaCheck spi xfer && (hi309xBaudrateCfg xfer.speedHz).isSome &&
    (xfer.txBuf || xfer.rxBuf)

/-- A setup has succeeded before a transfer.  A transfer that clocks frames is for a device
with the mode of the last setup, be it failed.  And where the first half of a transfer in both
directions fails, the transfer has the word size and divider of the last successful setup, and
no setup has failed since with another mode. -/
def Allowed (s : State) : Action → Prop
  | .setup _ _ => True
  | .transfer spi xfer w _ =>
    ∃ d, s.last = some d ∧
      (xfer.starts spi = true → ∃ e, s.owner = some e ∧
        (e.cpol = spi.cpol ∧ e.cpha = spi.cpha) ∧
        (xfer.txBuf = true → xfer.rxBuf = true → w ≠ .done →
          (e.cpol = d.cpol ∧ e.cpha = d.cpha) ∧
            BitVec.ofNat 32 (xfer.bitsPerWord - 1) = frameField d.bitsPerWord &&& 0xf#32 ∧
            hi309xBaudrateCfg xfer.speedHz = hi309xBaudrateCfg d.maxSpeedHz))

theorem getLsbD_sizeMask {i : ℕ} (hi : 3 < i) : (0xf#32).getLsbD i = false := by
  have hout : ¬ i < 4 := by omega
  rw [show 0xf#32 = BitVec.ofNat 32 (2 ^ 4 - 1) from rfl, BitVec.getLsbD_ofNat,
    Nat.testBit_two_pow_sub_one, decide_eq_false hout, Bool.and_false]

theorem size_setField (v x : BitVec 32) : setField v 0 3 x &&& 0xf#32 = x &&& 0xf#32 := by
  apply BitVec.eq_of_getLsbD_eq
  intro i _
  rw [BitVec.getLsbD_and, BitVec.getLsbD_and, Hispi.getLsbD_setField (by decide) (by decide)]
  by_cases hi : i ≤ 3
  · simp [hi]
  · simp [getLsbD_sizeMask (not_le.mp hi)]

theorem size_setField_of_lt {n1 n2 : ℕ} (h1 : 3 < n1) (h12 : n1 ≤ n2) (h2 : n2 < 31)
    (v x : BitVec 32) : setField v n1 n2 x &&& 0xf#32 = v &&& 0xf#32 := by
  apply BitVec.eq_of_getLsbD_eq
  intro i _
  rw [BitVec.getLsbD_and, BitVec.getLsbD_and, Hispi.getLsbD_setField h12 h2]
  by_cases hi : n1 ≤ i ∧ i ≤ n2
  · simp [getLsbD_sizeMask (h1.trans_le hi.1)]
  · rw [if_neg hi]

structure Shows (attr : Attributes) (v : BitVec 32) : Prop where
  size : v &&& 0xf#32 = frameField attr.frameLen &&& 0xf#32
  pol : v.getLsbD 7 = attr.clkPol.getLsbD 0
  phase : v.getLsbD 6 = attr.clkEdge.getLsbD 0

theorem resetCtrlr0_shows (attr : Attributes) (v : BitVec 32) :
    Shows attr (resetCtrlr0 attr v) where
  size := by
    simp only [resetCtrlr0]
    rw [size_setField_of_lt (by decide) (by decide) (by decide),
      size_setField_of_lt (by decide) (by decide) (by decide), size_setField]
  pol := by
    simp only [resetCtrlr0]
    rw [Hispi.getLsbD_setField (by decide) (by decide), if_neg (by decide),
      Hispi.getLsbD_setField (by decide) (by decide), if_pos (by decide)]
  phase := by
    simp only [resetCtrlr0]
    rw [Hispi.getLsbD_setField (by decide) (by decide), if_pos (by decide)]

theorem configCtrlr0_shows (attr : Attributes) (v : BitVec 32) :
    Shows attr (configCtrlr0 attr v) :=
  resetCtrlr0_shows attr (setField (setField v 11 11 0) 4 5 0)

theorem Device.clkPol_bit (spi : Device) : spi.attributes.clkPol.getLsbD 0 = spi.cpol := by
  unfold Device.attributes Device.cpol
  by_cases h : spi.mode &&& spiCpol = 0#32 <;> simp [h]

theorem Device.clkEdge_bit (spi : Device) : spi.attributes.clkEdge.getLsbD 0 = spi.cpha := by
  unfold Device.attributes Device.cpha
  by_cases h : spi.mode &&& spiCpha = 0#32 <;> simp [h]

theorem frameField_size {bits : ℕ} (h : bits = 8 ∨ bits = 16) :
    frameField bits &&& 0xf#32 = BitVec.ofNat 32 (bits - 1) := by
  rcases h with rfl | rfl <;> decide

structure Inv (s : State) : Prop where
  attr : ∀ d, s.last = some d →
    s.attr = d.attributes ∧ (hi309xBaudrateCfg d.maxSpeedHz).isSome = true
  owner : ∀ e, s.owner = some e → s.last ≠ none → s.scpol = e.cpol ∧ s.scph = e.cpha

section Steps

variable {s : State}

theorem spiConfigReset_restored (h : Inv s) {t : State} (hattr : t.attr = s.attr) {d : Device}
    (hlast : s.last = some d) : Restored d (spiConfigReset t) := by
  obtain ⟨hd, hbaud⟩ := h.attr d hlast
  obtain ⟨freqDiv, hfreq⟩ := Option.isSome_iff_exists.mp hbaud
  have hshows : Shows d.attributes (resetCtrlr0 t.attr t.ctrlr0) := by
    rw [hattr, hd]
    exact resetCtrlr0_shows _ _
  have hcfg : hi309xBaudrateCfg t.attr.baudRate = some freqDiv := by
    rw [hattr, hd]
    exact hfreq
  simp only [spiConfigReset, hcfg]
  refine ⟨rfl, hshows.size, ?_, ?_, hfreq⟩
  · rw [← d.clkPol_bit]
    exact hshows.pol
  · rw [← d.clkEdge_bit]
    exact hshows.phase

@[simp] theorem spiConfigReset_last (t : State) : (spiConfigReset t).last = t.last := by
  simp only [spiConfigReset]
  split <;> rfl

@[simp] theorem spiConfigReset_attr (t : State) : (spiConfigReset t).attr = t.attr := by
  simp only [spiConfigReset]
  split <;> rfl

@[simp] theorem spiConfigReset_failed (t : State) : (spiConfigReset t).failed = none := by
  simp only [spiConfigReset]
  split <;> rfl

theorem Inv.reset (h : Inv s) {t : State} (hattr : t.attr = s.attr) (hlast : t.last = s.last) :
    Inv (spiConfigReset t) where
  attr d hd := by
    rw [spiConfigReset_last, hlast] at hd
    rw [spiConfigReset_attr, hattr]
    exact h.attr d hd
  owner e he _ := by
    rw [State.owner, spiConfigReset_failed, Option.none_or, spiConfigReset_last, hlast] at he
    have hrestored := spiConfigReset_restored h hattr he
    exact ⟨hrestored.pol, hrestored.phase⟩

theorem Inv.setup (h : Inv s) (spi : Device) (subsys : Bool) :
    Inv (hi309xSpiSetup s spi subsys).1 := by
  have hshows := configCtrlr0_shows spi.attributes s.ctrlr0
  have hline : ∀ {t : State}, t.ctrlr0 = configCtrlr0 spi.attributes s.ctrlr0 →
      t.scpol = spi.cpol ∧ t.scph = spi.cpha := by
    intro t ht
    rw [State.scpol, State.scph, ht, hshows.pol, hshows.phase]
    exact ⟨spi.clkPol_bit, spi.clkEdge_bit⟩
  unfold hi309xSpiSetup hi309xSpiCtrlConfig
  split
  · exact h
  · simp only
    cases hbaud : hi309xBaudrateCfg spi.attributes.baudRate with
    | none =>
      refine ⟨h.attr, fun e he _ => ?_⟩
      obtain rfl : spi = e := by simpa [State.owner, einval] using he
      exact hline rfl
    | some freqDiv =>
      cases subsys with
      | false =>
        refine ⟨h.attr, fun e he _ => ?_⟩
        obtain rfl : spi = e := by simpa [State.owner, enodev] using he
        exact hline rfl
      | true =>
        refine ⟨fun d hd => ?_, fun e he _ => ?_⟩
        · obtain rfl : spi = d := by simpa using hd
          exact ⟨rfl, Option.isSome_iff_exists.mpr ⟨freqDiv, hbaud⟩⟩
        · obtain rfl : spi = e := by simpa [State.owner] using he
          exact hline rfl

def State.configured (s : State) (xfer : Transfer) (freqDiv : ℕ) : State :=
  { s with
    ctrlr0 := setField s.ctrlr0 0 3 (frameField xfer.bitsPerWord)
    baudr := freqDiv
    enabled := true }

structure Running (s : State) (xfer : Transfer) (freqDiv : ℕ) (t : State) : Prop where
  pol : t.scpol = s.scpol
  phase : t.scph = s.scph
  size : t.dfs = frameField xfer.bitsPerWord &&& 0xf#32
  divider : t.baudr = freqDiv
  enabled : t.enabled = true
  attr : t.attr = s.attr
  last : t.last = s.last
  failed : t.failed = s.failed

theorem State.configured_running (s : State) (xfer : Transfer) (freqDiv : ℕ) :
    Running s xfer freqDiv (s.configured xfer freqDiv) where
  pol := by
    simp only [State.scpol, State.configured]
    rw [Hispi.getLsbD_setField (by decide) (by decide), if_neg (by decide)]
  phase := by
    simp only [State.scph, State.configured]
    rw [Hispi.getLsbD_setField (by decide) (by decide), if_neg (by decide)]
  size := size_setField _ _
  divider := rfl
  enabled := rfl
  attr := rfl
  last := rfl
  failed := rfl

theorem Running.setTmod {xfer : Transfer} {freqDiv : ℕ} {t : State} (h : Running s xfer freqDiv t)
    (mode : BitVec 32) : Running s xfer freqDiv (setTmod t mode) where
  pol := by
    rw [← h.pol, State.scpol, SpiSettings.setTmod,
      Hispi.getLsbD_setField (by decide) (by decide), if_neg (by decide)]
    rfl
  phase := by
    rw [← h.phase, State.scph, SpiSettings.setTmod,
      Hispi.getLsbD_setField (by decide) (by decide), if_neg (by decide)]
    rfl
  size := by
    rw [← h.size]
    exact size_setField_of_lt (by decide) (by decide) (by decide) _ _
  divider := h.divider
  enabled := h.enabled
  attr := h.attr
  last := h.last
  failed := h.failed

theorem hi309xSpiTransferOne_cases (s : State) (spi : Device) (xfer : Transfer) (w r : Wait) :
    (xfer.starts spi = false ∧ (hi309xSpiTransferOne s spi xfer w r).clocked = [] ∧
      ∃ t, (hi309xSpiTransferOne s spi xfer w r).state = spiConfigReset t ∧ t.attr = s.attr ∧
        t.last = s.last) ∨
    xfer.starts spi = true ∧ (xfer.bitsPerWord = 8 ∨ xfer.bitsPerWord = 16) ∧
      ∃ freqDiv, hi309xBaudrateCfg xfer.speedHz = some freqDiv ∧
        (hi309xSpiTransferOne s spi xfer w r).clocked ≠ [] ∧
        (∀ t ∈ (hi309xSpiTransferOne s spi xfer w r).clocked, Running s xfer freqDiv t) ∧
        ((xfer.txBuf = true ∧ xfer.rxBuf = true ∧ w ≠ .done) ∧
            Running s xfer freqDiv (hi309xSpiTransferOne s spi xfer w r).state ∨
          ¬ (xfer.txBuf = true ∧ xfer.rxBuf = true ∧ w ≠ .done) ∧
            ∃ t, (hi309xSpiTransferOne s spi xfer w r).state = spiConfigReset t ∧
              t.attr = s.attr ∧ t.last = s.last) := by
  cases hcheck : spiTransferParaCheck spi xfer with
  | false =>
    refine Or.inl ⟨by simp [Transfer.starts, hcheck], ?_⟩
    have hcfg : spiTransferConfig s spi xfer = (s, -einval) := by
      simp [spiTransferConfig, hcheck]
    have hout : hi309xSpiTransferOne s spi xfer w r = ⟨spiConfigReset s, [], -einval⟩ := by
      simp only [hi309xSpiTransferOne, hcfg]
      exact if_pos (by decide)
    rw [hout]
    exact ⟨rfl, s, rfl, rfl, rfl⟩
  | true =>
    have hbits : xfer.bitsPerWord = 8 ∨ xfer.bitsPerWord = 16 := by
      simp only [spiTransferParaCheck, Bool.and_eq_true, Bool.or_eq_true,
        decide_eq_true_eq] at hcheck
      exact hcheck.1.1
    cases hbaud : hi309xBaudrateCfg xfer.speedHz with
    | none =>
      refine Or.inl ⟨by simp [Transfer.starts, hbaud], ?_⟩
      have hcfg : spiTransferConfig s spi xfer = ({ s with
          enabled := false
          ctrlr0 := setField s.ctrlr0 0 3 (frameField xfer.bitsPerWord) }, -einval) := by
        simp [spiTransferConfig, hcheck, hbaud]
      simp only [hi309xSpiTransferOne, hcfg]
      rw [if_pos (by decide)]
      exact ⟨rfl, _, rfl, rfl, rfl⟩
    | some freqDiv =>
      have hcfg : spiTransferConfig s spi xfer = (s.configured xfer freqDiv, 0) := by
        simp only [spiTransferConfig, hcheck, hbaud, State.configured]
        rfl
      have hrun := s.configured_running xfer freqDiv
      have hwrite := hrun.setTmod Hispi.spiTrasModeSend
      have hread := hrun.setTmod Hispi.spiTrasModeDuplex
      have hboth := hwrite.setTmod Hispi.spiTrasModeDuplex
      simp only [hi309xSpiTransferOne, hcfg, hi309xSpiWriteData, hi309xSpiReadData]
      rw [if_neg (by decide)]
      cases htx : xfer.txBuf with
      | false =>
        cases hrx : xfer.rxBuf with
        | false =>
          refine Or.inl ⟨by simp [Transfer.starts, htx, hrx], ?_⟩
          simp only [Bool.false_eq_true, false_and, if_false]
          exact ⟨trivial, _, rfl, hrun.attr, hrun.last⟩
        | true =>
          refine Or.inr ⟨by simp [Transfer.starts, hcheck, hbaud, hrx], hbits, freqDiv, rfl,
            ?_⟩
          simp only [Bool.false_eq_true, false_and, if_false, if_true]
          exact ⟨by simp, by simpa using hread,
            Or.inr ⟨not_false, _, rfl, hread.attr, hread.last⟩⟩
      | true =>
        cases hrx : xfer.rxBuf with
        | false =>
          refine Or.inr ⟨by simp [Transfer.starts, hcheck, hbaud, htx], hbits, freqDiv, rfl,
            ?_⟩
          simp only [Bool.false_eq_true, false_and, and_false, if_false, if_true]
          exact ⟨by simp, by simpa using hwrite,
            Or.inr ⟨not_false, _, rfl, hwrite.attr, hwrite.last⟩⟩
        | true =>
          refine Or.inr ⟨by simp [Transfer.starts, hcheck, hbaud, htx], hbits, freqDiv, rfl,
            ?_⟩
          simp only [and_self, if_true, true_and]
          by_cases hw : w = .done
          · subst hw
            rw [if_neg (by decide)]
            exact ⟨by simp, by simpa using ⟨hwrite, hboth⟩,
              Or.inr ⟨fun h => h rfl, _, rfl, hboth.attr, hboth.last⟩⟩
          · rw [if_pos (by cases w <;> first | decide | exact absurd rfl hw)]
            exact ⟨by simp, by simpa using hwrite, Or.inl ⟨hw, hwrite⟩⟩

theorem Running.owner_eq {xfer : Transfer} {freqDiv : ℕ} {t : State}
    (h : Running s xfer freqDiv t) : t.owner = s.owner := by
  rw [State.owner, h.failed, h.last, State.owner]

theorem Inv.transfer (h : Inv s) (spi : Device) (xfer : Transfer) (w r : Wait) :
    Inv (hi309xSpiTransferOne s spi xfer w r).state := by
  obtain ⟨-, -, t, ht, hattr, hlast⟩ | ⟨-, -, freqDiv, -, -, -, ⟨-, hrun⟩ | ⟨-, t, ht, hattr, hlast⟩⟩ :=
    hi309xSpiTransferOne_cases s spi xfer w r
  · rw [ht]
    exact h.reset hattr hlast
  · refine ⟨fun d hd => ?_, fun e he hl => ?_⟩
    · rw [hrun.attr]
      exact h.attr d (hrun.last.symm.trans hd)
    · rw [hrun.pol, hrun.phase]
      exact h.owner e (hrun.owner_eq.symm.trans he) (by rwa [hrun.last] at hl)
  · rw [ht]
    exact h.reset hattr hlast

theorem inv_of_reachable (hreach : system.Reachable s) : Inv s := by
  apply hreach.invariant
  · rintro s ⟨-, hlast, hfailed⟩
    refine ⟨fun d hd => ?_, fun e _ hl => absurd hlast hl⟩
    rw [hlast] at hd
    cases hd
  · rintro s a s' - h rfl
    cases a with
    | setup spi subsys => exact h.setup spi subsys
    | transfer spi xfer w r => exact h.transfer spi xfer w r

theorem Running.clocked_iff {spi : Device} {xfer : Transfer} {freqDiv : ℕ} {t : State}
    (h : Running s xfer freqDiv t) (hbits : xfer.bitsPerWord = 8 ∨ xfer.bitsPerWord = 16)
    (hbaud : hi309xBaudrateCfg xfer.speedHz = some freqDiv) {e : Device}
    (he : s.scpol = e.cpol ∧ s.scph = e.cpha) :
    Clocked spi xfer t ↔ e.cpol = spi.cpol ∧ e.cpha = spi.cpha := by
  rw [← he.1, ← he.2]
  constructor
  · intro hc
    exact ⟨h.pol.symm.trans hc.pol, h.phase.symm.trans hc.phase⟩
  · rintro ⟨hpol, hphase⟩
    refine ⟨h.pol.trans hpol, h.phase.trans hphase, ?_, ?_⟩
    · rw [h.size, frameField_size hbits]
    · rw [h.divider, hbaud]

theorem Running.restored_iff {xfer : Transfer} {freqDiv : ℕ} {t : State}
    (h : Running s xfer freqDiv t) (hbits : xfer.bitsPerWord = 8 ∨ xfer.bitsPerWord = 16)
    (hbaud : hi309xBaudrateCfg xfer.speedHz = some freqDiv) {d e : Device}
    (he : s.scpol = e.cpol ∧ s.scph = e.cpha) :
    Restored d t ↔ (e.cpol = d.cpol ∧ e.cpha = d.cpha) ∧
      BitVec.ofNat 32 (xfer.bitsPerWord - 1) = frameField d.bitsPerWord &&& 0xf#32 ∧
      hi309xBaudrateCfg xfer.speedHz = hi309xBaudrateCfg d.maxSpeedHz := by
  rw [← frameField_size hbits, ← he.1, ← he.2]
  constructor
  · intro hr
    exact ⟨⟨h.pol.symm.trans hr.pol, h.phase.symm.trans hr.phase⟩, h.size.symm.trans hr.size,
      by rw [hbaud, hr.divider, h.divider]⟩
  · rintro ⟨⟨hpol, hphase⟩, hsize, hdivider⟩
    exact ⟨h.enabled, h.size.trans hsize, h.pol.trans hpol, h.phase.trans hphase,
      by rw [← hdivider, hbaud, h.divider]⟩

theorem Inv.transfer_stepOk_iff (h : Inv s) (spi : Device) (xfer : Transfer) (w r : Wait) :
    StepOk s (.transfer spi xfer w r) ↔ Allowed s (.transfer spi xfer w r) := by
  simp only [StepOk, Allowed]
  obtain ⟨hstarts, hclocked, t, ht, hattr, hlast⟩ | ⟨hstarts, hbits, freqDiv, hbaud, hne, hclocked,
    hend⟩ := hi309xSpiTransferOne_cases s spi xfer w r
  · rw [hclocked, ht, hstarts]
    constructor
    · rintro ⟨-, d, hd, -⟩
      exact ⟨d, hd, fun hs => by cases hs⟩
    · rintro ⟨d, hd, -⟩
      exact ⟨(fun t ht => by cases ht), d, hd, spiConfigReset_restored h hattr hd⟩
  · -- with a successful setup the clock settings have an owner
    have howner : ∀ {d}, s.last = some d → ∃ e, s.owner = some e ∧
        s.scpol = e.cpol ∧ s.scph = e.cpha := by
      intro d hd
      have hsome : ∃ e, s.owner = some e := by
        rw [State.owner, hd]
        cases s.failed with
        | none => exact ⟨d, rfl⟩
        | some e => exact ⟨e, rfl⟩
      obtain ⟨e, he⟩ := hsome
      exact ⟨e, he, h.owner e he (by rw [hd]; exact Option.some_ne_none d)⟩
    have hline : ∀ {e : Device}, s.scpol = e.cpol ∧ s.scph = e.cpha →
        ((∀ t ∈ (hi309xSpiTransferOne s spi xfer w r).clocked, Clocked spi xfer t) ↔
          e.cpol = spi.cpol ∧ e.cpha = spi.cpha) := by
      intro e he
      constructor
      · intro hall
        obtain ⟨t, ht⟩ := List.exists_mem_of_ne_nil _ hne
        exact ((hclocked t ht).clocked_iff hbits hbaud he).mp (hall t ht)
      · intro hmode t ht
        exact ((hclocked t ht).clocked_iff hbits hbaud he).mpr hmode
    constructor
    · rintro ⟨hall, d, hd, hrestored⟩
      obtain ⟨e, he, hregs⟩ := howner hd
      refine ⟨d, hd, fun _ => ⟨e, he, (hline hregs).mp hall, fun htx hrx hw => ?_⟩⟩
      rcases hend with ⟨-, hrun⟩ | ⟨hnot, -⟩
      · exact (hrun.restored_iff hbits hbaud hregs).mp hrestored
      · exact absurd ⟨htx, hrx, hw⟩ hnot
    · rintro ⟨d, hd, hall⟩
      obtain ⟨e, he, hmode, hfail⟩ := hall hstarts
      have hregs := h.owner e he (by rw [hd]; exact Option.some_ne_none d)
      refine ⟨(hline hregs).mpr hmode, d, hd, ?_⟩
      rcases hend with ⟨⟨htx, hrx, hw⟩, hrun⟩ | ⟨-, t, ht, hattr, hlast⟩
      · exact (hrun.restored_iff hbits hbaud hregs).mpr (hfail htx hrx hw)
      · rw [ht]
        exact spiConfigReset_restored h hattr hd

end Steps

/-- In every run, a transfer has its device's settings and leaves those of the last setup
exactly when it is allowed. -/
theorem stepOk_iff_allowed_settings {s : State} (hreach : system.Reachable s) (a : Action) :
    StepOk s a ↔ Allowed s a := by
  cases a with
  | setup spi subsys => exact Iff.rfl
  | transfer spi xfer w r => exact (inv_of_reachable hreach).transfer_stepOk_iff spi xfer w r

/-! ## Two devices -/

def probed : State where
  ctrlr0 := 0
  baudr := 0
  imr := 0
  enabled := false
  attr := ⟨0, 0, 0, 0⟩
  last := none
  failed := none

def flash : Device := ⟨0, 10000000, 8⟩
def sensor : Device := ⟨3, 10000000, 16⟩

theorem stepOk_iff_allowed_settings_flash :
    StepOk (next probed (.setup flash true))
      (.transfer flash ⟨true, true, 4, 16, 1000000⟩ .done .timeout) := by
  have hreach : system.Reachable (next probed (.setup flash true)) :=
    .step (.init ⟨rfl, rfl, rfl⟩) rfl
  refine (stepOk_iff_allowed_settings hreach _).mpr ⟨flash, rfl, fun _ => ⟨flash, rfl, ?_⟩⟩
  exact ⟨⟨rfl, rfl⟩, fun _ _ hw => absurd rfl hw⟩

/-- The setup of the sensor leaves its mode for the flash; and a transfer in both directions
whose first half times out leaves its word size. -/
theorem settings_break :
    (system.Reachable (next (next probed (.setup flash true)) (.setup sensor true)) ∧
      ¬ StepOk (next (next probed (.setup flash true)) (.setup sensor true))
        (.transfer flash ⟨true, false, 4, 8, 10000000⟩ .done .done)) ∧
    system.Reachable (next probed (.setup flash true)) ∧
      ¬ StepOk (next probed (.setup flash true))
        (.transfer flash ⟨true, true, 4, 16, 10000000⟩ .timeout .done) := by
  have hflash : system.Reachable (next probed (.setup flash true)) :=
    .step (.init ⟨rfl, rfl, rfl⟩) rfl
  refine ⟨⟨.step hflash rfl, ?_⟩, hflash, ?_⟩
  · rintro ⟨hclocked, -⟩
    have hpol := (hclocked _ List.mem_cons_self).pol
    exact absurd hpol (by decide)
  · rintro ⟨-, d, hd, hrestored⟩
    obtain rfl : flash = d := Option.some.inj hd
    exact absurd hrestored.size (by decide)

end HiMpu.SpiSettings
