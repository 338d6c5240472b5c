import HiMpu.SfcController

/-!
# Probe, suspend and resume of the flash controller

`sfc_core_spi_probe`, `sfc_core_suspend_shutdown_com_process` and `sfc_core_resume`.
Each walks over the two chip selects in a loop of its own.
-/

namespace HiMpu.SfcController

def sfcCtrlCnt : ℕ := 2
def sfc0Cs0MemAddr : BitVec 32 := 0x60000000
def sfc1Cs0MemAddr : BitVec 32 := 0x70000000
def sfcCsSize : BitVec 32 := 0x8000000
def busFlashSizeCs0Mask : BitVec 32 := 0x0F

structure SpiInfo where
  chipsize : BitVec 64
  addrcycle : Addrcycle
  driver : Driver

structure Host where
  bus : BitVec 32
  cfgUseCs : BitVec 32
  iobase : BitVec 64
  iobaseAddr : BitVec 64
  ids : ChipSelect → Option SpiInfo

structure State where
  ctl : Controller
  spi : ChipSelect → Option Spi

def coreCsIsUsed (bus : BitVec 32) (cs : ChipSelect) (dtsCfg : BitVec 32) : Bool :=
  if sfcCtrlCnt ≤ bus.toNat then false
  else
    let useMask := (1 : BitVec 32) <<< cs.toNat
    dtsCfg &&& useMask = useMask

def coreBusIsUsed (bus dtsCfg : BitVec 32) : Bool :=
  coreCsIsUsed bus .cs0 dtsCfg || coreCsIsUsed bus .cs1 dtsCfg

def Host.used (h : Host) (cs : ChipSelect) : Bool := coreCsIsUsed h.bus cs h.cfgUseCs

def shifts (size : ℕ) : ℕ :=
  if size = 0 then 0 else shifts (size / 2) + 1

def coreMapChipsize (chipsize : BitVec 64) : BitVec 32 :=
  BitVec.ofNat 32 (shifts (chipsize.toNat / 2 ^ 16))

def withFlashSize (regval : BitVec 32) (cs : ChipSelect) (chipsize : BitVec 64) : BitVec 32 :=
  regval &&& ~~~(busFlashSizeCs0Mask <<< (8 * cs.toNat)) |||
    coreMapChipsize chipsize <<< (8 * cs.toNat)

def coreControllerSpiInit (c : Controller) (spi : Spi) (offset bus : BitVec 32) : Controller :=
  { c with
    busFlashSize := withFlashSize c.busFlashSize spi.chipselect spi.chipsize
    busBaseAddr := Function.update c.busBaseAddr spi.chipselect
      (sfc0Cs0MemAddr + bus * (sfc1Cs0MemAddr - sfc0Cs0MemAddr) + offset) }

/-- The switch of the address mode and the wait; the rest sets up reads over the bus. -/
def coreBusReadPrepare (c : Controller) (spi : Spi) : Controller :=
  waitReady (coreAddrModeSet c spi) spi

def chipOffset : ChipSelect → BitVec 32
  | .cs0 => 0
  | .cs1 => sfcCsSize

def Host.probed (h : Host) (cs : ChipSelect) (info : SpiInfo) : Spi where
  chipselect := cs
  chipsize := info.chipsize
  addrcycle := info.addrcycle
  originalAddrcycle := info.addrcycle
  iobase := h.iobase + (chipOffset cs).setWidth 64
  driver := info.driver

def coreSpiProbeCs (h : Host) (s : State) (cs : ChipSelect) : State :=
  if h.used cs then
    let c := setHostAddrMode s.ctl false
    match h.ids cs with
    | none => { s with ctl := c }
    | some info =>
      let spi := h.probed cs info
      { ctl := coreBusReadPrepare (coreControllerSpiInit c spi (chipOffset cs) h.bus) spi
        spi := Function.update s.spi cs (some spi) }
  else s

def coreSpiProbe (h : Host) (c : Controller) : State :=
  chipSelects.foldl (coreSpiProbeCs h) ⟨c, fun _ => none⟩

/-- The loop of the suspend and of the shutdown; `set_system_clock` does nothing. -/
def suspendShutdownLoop (h : Host) (spi : ChipSelect → Option Spi) :
    List ChipSelect → Controller → Controller
  | [], c => c
  | cs :: rest, c =>
    if !h.used cs then c
    else
      match spi cs with
      | none => suspendShutdownLoop h spi rest c
      | some spi' =>
        suspendShutdownLoop h spi rest (entry4addr (waitReady c spi') spi' false)

def coreSuspendShutdownComProcess (h : Host) (s : State) : State :=
  if coreBusIsUsed h.bus h.cfgUseCs then
    { s with ctl := suspendShutdownLoop h s.spi chipSelects s.ctl }
  else s

def coreResumeCs (h : Host) (spi : ChipSelect → Option Spi) (c : Controller) (cs : ChipSelect) :
    Controller :=
  if h.used cs then
    match spi cs with
    | none => c
    | some spi =>
      let c := { c with
        busFlashSize := withFlashSize c.busFlashSize spi.chipselect spi.chipsize
        busBaseAddr := Function.update c.busBaseAddr spi.chipselect
          ((sfc1Cs0MemAddr.setWidth 64 + (spi.iobase - h.iobaseAddr)).setWidth 32) }
      if spi.addrcycle = .four then entry4addr c spi true else c
  else c

def coreResume (h : Host) (s : State) : State :=
  { s with ctl := chipSelects.foldl (coreResumeCs h s.spi) s.ctl }

def Host.recognised (h : Host) (cs : ChipSelect) : Prop :=
  h.used cs = true ∧ (h.ids cs).isSome = true

def inFourByteMode (s : State) (cs : ChipSelect) : Prop :=
  ∃ spi, s.spi cs = some spi ∧ spi.originalAddrcycle = .four ∧ (s.ctl.flash cs).fourByte = true

def sizeField (c : Controller) (cs : ChipSelect) : BitVec 32 :=
  c.busFlashSize >>> (8 * cs.toNat) &&& busFlashSizeCs0Mask

def baseAddr (h : Host) (cs : ChipSelect) : BitVec 32 :=
  sfc0Cs0MemAddr + h.bus * (sfc1Cs0MemAddr - sfc0Cs0MemAddr) + chipOffset cs

structure SameChip (s s' : State) (cs : ChipSelect) : Prop where
  size : sizeField s'.ctl cs = sizeField s.ctl cs
  base : s'.ctl.busBaseAddr cs = s.ctl.busBaseAddr cs
  mode : (s'.ctl.flash cs).fourByte = (s.ctl.flash cs).fourByte

structure TreatedAlike (h : Host) (c : Controller) : Prop where
  waited : ∀ cs, h.recognised cs →
    (coreSpiProbe h c).ctl.waited.count cs <
      (coreSuspendShutdownComProcess h (coreSpiProbe h c)).ctl.waited.count cs
  exited : ∀ cs, h.recognised cs →
    ¬ inFourByteMode (coreSuspendShutdownComProcess h (coreSpiProbe h c)) cs
  based : ∀ cs, h.recognised cs →
    (coreResume h (coreSuspendShutdownComProcess h (coreSpiProbe h c))).ctl.busBaseAddr cs =
      baseAddr h cs
  restored : ∀ cs, h.used cs = true →
    SameChip (coreSpiProbe h c)
      (coreResume h (coreSuspendShutdownComProcess h (coreSpiProbe h c))) cs
  hostMode :
    (coreResume h (coreSuspendShutdownComProcess h (coreSpiProbe h c))).ctl.hostFourByte =
      (coreSpiProbe h c).ctl.hostFourByte
  untouched : ∀ cs, h.used cs = false →
    SameChip (coreSpiProbe h c) (coreSuspendShutdownComProcess h (coreSpiProbe h c)) cs ∧
    SameChip (coreSpiProbe h c)
      (coreResume h (coreSuspendShutdownComProcess h (coreSpiProbe h c))) cs

def Host.fourByte (h : Host) (cs : ChipSelect) : Prop :=
  h.used cs = true ∧ ∃ info, h.ids cs = some info ∧ info.addrcycle = .four

structure Covered (h : Host) : Prop where
  /-- The suspend stops at the first chip select that is not used. -/
  first : h.recognised .cs1 → h.used .cs0 = true
  /-- The resume takes the base address from where the host structure lies. -/
  base : ∀ cs, h.recognised cs →
    sfc1Cs0MemAddr + (h.iobase - h.iobaseAddr).setWidth 32 =
      sfc0Cs0MemAddr + h.bus * (sfc1Cs0MemAddr - sfc0Cs0MemAddr)
  /-- After the probe the controller is in the mode of the last flash. -/
  last : h.fourByte .cs0 → h.used .cs1 = true → h.fourByte .cs1
  /-- The first flash takes the controller out of the mode that the second one needs
  for its register write. -/
  exit : h.recognised .cs0 → ∀ info, h.used .cs1 = true → h.ids .cs1 = some info →
    info.addrcycle = .four → info.driver.exitsByRegister = false

def resumeBase (h : Host) (cs : ChipSelect) : BitVec 32 :=
  (sfc1Cs0MemAddr.setWidth 64 +
    (h.iobase + (chipOffset cs).setWidth 64 - h.iobaseAddr)).setWidth 32

def View.probeCs (h : Host) (v : View) (cs : ChipSelect) : View :=
  if h.used cs then
    match h.ids cs with
    | none => { v with host := false }
    | some info =>
      { host := info.addrcycle = .four
        latch := if info.addrcycle = .four then Function.update v.latch cs true else v.latch
        size := withFlashSize v.size cs info.chipsize
        base := Function.update v.base cs (baseAddr h cs)
        waited := v.waited ++ [cs] }
  else v

def View.suspendLoop (h : Host) : List ChipSelect → View → View
  | [], v => v
  | cs :: rest, v =>
    if h.used cs then
      match h.ids cs with
      | none => suspendLoop h rest v
      | some info =>
        suspendLoop h rest
          ({ v with waited := v.waited ++ [cs] }.switch (h.probed cs info) false)
    else v

def View.resumeCs (h : Host) (v : View) (cs : ChipSelect) : View :=
  if h.used cs then
    match h.ids cs with
    | none => v
    | some info =>
      { host := v.host || info.addrcycle = .four
        latch := if info.addrcycle = .four then Function.update v.latch cs true else v.latch
        size := withFlashSize v.size cs info.chipsize
        base := Function.update v.base cs (resumeBase h cs)
        waited := v.waited }
  else v

def View.probed (h : Host) (v : View) : View := chipSelects.foldl (View.probeCs h) v
def View.suspended (h : Host) (v : View) : View := (v.probed h).suspendLoop h chipSelects
def View.resumed (h : Host) (v : View) : View :=
  chipSelects.foldl (View.resumeCs h) (v.suspended h)

section Views

variable {h : Host} {c : Controller}

theorem setHostAddrMode_view (c : Controller) (enable : Bool) :
    (setHostAddrMode c enable).view = { c.view with host := enable } := by
  ext1
  case host => exact setHostAddrMode_hostFourByte
  all_goals rfl

theorem waitReady_view (c : Controller) (spi : Spi) :
    (waitReady c spi).view = { c.view with waited := c.view.waited ++ [spi.chipselect] } :=
  rfl

theorem coreBusReadPrepare_view (c : Controller) (spi : Spi) :
    (coreBusReadPrepare c spi).view =
      { c.view.switch spi (spi.addrcycle = .four) with
        waited := (c.view.switch spi (spi.addrcycle = .four)).waited ++ [spi.chipselect] } := by
  rw [coreBusReadPrepare, waitReady_view, coreAddrModeSet, entry4addr_view]

theorem probeCs_view (s : State) (cs : ChipSelect) :
    (coreSpiProbeCs h s cs).ctl.view = s.ctl.view.probeCs h cs := by
  unfold coreSpiProbeCs View.probeCs
  split
  next =>
    simp only
    split
    next => exact setHostAddrMode_view s.ctl false
    next info _ =>
      rw [coreBusReadPrepare_view]
      by_cases hfour : info.addrcycle = .four <;>
        simp [View.switch, hfour, Host.probed, coreControllerSpiInit, Controller.view,
          setHostAddrMode, baseAddr]
  next => rfl

theorem coreSpiProbe_view (h : Host) (c : Controller) :
    (coreSpiProbe h c).ctl.view = chipSelects.foldl (View.probeCs h) c.view := by
  simp only [coreSpiProbe, chipSelects, List.foldl_cons, List.foldl_nil, probeCs_view]

theorem coreSpiProbe_spi (h : Host) (c : Controller) (cs : ChipSelect) :
    (coreSpiProbe h c).spi cs = if h.used cs then (h.ids cs).map (h.probed cs) else none := by
  have hstep : ∀ (s : State) (cs' : ChipSelect), (coreSpiProbeCs h s cs').spi cs =
      if cs = cs' ∧ h.used cs then ((h.ids cs).map (h.probed cs)).or (s.spi cs) else s.spi cs := by
    intro s cs'
    unfold coreSpiProbeCs
    by_cases hcs : cs = cs'
    · subst hcs
      split
      next hused => cases h.ids cs <;> simp [hused]
      next hused => simp [hused]
    · split
      next => cases h.ids cs' <;> simp [hcs]
      next => simp [hcs]
  simp only [coreSpiProbe, chipSelects, List.foldl_cons, List.foldl_nil, hstep]
  cases cs <;> cases h.used _ <;> simp

theorem suspendShutdownLoop_view {spi : ChipSelect → Option Spi}
    (hspi : ∀ cs, spi cs = if h.used cs then (h.ids cs).map (h.probed cs) else none)
    (l : List ChipSelect) (c : Controller) :
    (suspendShutdownLoop h spi l c).view = c.view.suspendLoop h l := by
  induction l generalizing c with
  | nil => rfl
  | cons cs rest ih =>
    unfold suspendShutdownLoop View.suspendLoop
    cases hused : h.used cs with
    | false => simp
    | true =>
      rw [hspi cs, hused]
      cases h.ids cs with
      | none => simpa using ih c
      | some info =>
        simp only [Bool.not_true, Bool.false_eq_true, if_false, if_true, Option.map_some]
        rw [ih, entry4addr_view, waitReady_view]
        rfl

theorem coreSuspend_view (h : Host) (c : Controller) :
    (coreSuspendShutdownComProcess h (coreSpiProbe h c)).ctl.view =
      (coreSpiProbe h c).ctl.view.suspendLoop h chipSelects := by
  unfold coreSuspendShutdownComProcess
  split
  next => exact suspendShutdownLoop_view (coreSpiProbe_spi h c) _ _
  next hbus =>
    have hused : h.used .cs0 = false := by
      simp only [coreBusIsUsed, Bool.or_eq_true, not_or, Bool.not_eq_true] at hbus
      exact hbus.1
    simp [chipSelects, View.suspendLoop, hused]

theorem coreSuspend_spi (h : Host) (s : State) :
    (coreSuspendShutdownComProcess h s).spi = s.spi := by
  unfold coreSuspendShutdownComProcess
  split <;> rfl

theorem resumeCs_view {spi : ChipSelect → Option Spi}
    (hspi : ∀ cs, spi cs = if h.used cs then (h.ids cs).map (h.probed cs) else none)
    (c : Controller) (cs : ChipSelect) :
    (coreResumeCs h spi c cs).view = c.view.resumeCs h cs := by
  unfold coreResumeCs View.resumeCs
  split
  next hused =>
    rw [hspi cs, hused]
    cases h.ids cs with
    | none => rfl
    | some info =>
      by_cases hfour : info.addrcycle = .four
      · simp only [if_true, Option.map_some, Host.probed, hfour, entry4addr_view, View.switch]
        simp [Controller.view, resumeBase]
      · simp [Host.probed, hfour, Controller.view, resumeBase]
        rfl
  next => rfl

theorem coreResume_view (h : Host) (c : Controller) :
    (coreResume h (coreSuspendShutdownComProcess h (coreSpiProbe h c))).ctl.view =
      chipSelects.foldl (View.resumeCs h)
        ((coreSpiProbe h c).ctl.view.suspendLoop h chipSelects) := by
  have hspi : ∀ cs, (coreSuspendShutdownComProcess h (coreSpiProbe h c)).spi cs =
      if h.used cs then (h.ids cs).map (h.probed cs) else none := by
    intro cs
    rw [coreSuspend_spi, coreSpiProbe_spi]
  simp only [coreResume, chipSelects, List.foldl_cons, List.foldl_nil, resumeCs_view hspi]
  rw [← chipSelects, coreSuspend_view]

end Views

section Loops
variable {h : Host} {cs : ChipSelect} {v : View}

theorem Host.status (h : Host) (cs : ChipSelect) :
    h.used cs = false ∨ (h.used cs = true ∧ h.ids cs = none) ∨
      ∃ info, h.used cs = true ∧ h.ids cs = some info := by
  cases hused : h.used cs <;> cases hid : h.ids cs <;> simp

theorem getLsbD_withFlashSize (r : BitVec 32) (cs : ChipSelect) (size : BitVec 64) (i : ℕ) :
    (withFlashSize r cs size).getLsbD i =
      (r.getLsbD i && !(busFlashSizeCs0Mask <<< (8 * cs.toNat)).getLsbD i ||
        (coreMapChipsize size <<< (8 * cs.toNat)).getLsbD i) := by
  by_cases hi : i < 32
  · simp [withFlashSize, hi]
  · simp [withFlashSize, BitVec.getLsbD_of_ge _ i (Nat.le_of_not_lt hi)]

theorem withFlashSize_self (r : BitVec 32) (cs : ChipSelect) (size : BitVec 64) :
    withFlashSize (withFlashSize r cs size) cs size = withFlashSize r cs size := by
  apply BitVec.eq_of_getLsbD_eq
  intro i _
  simp only [getLsbD_withFlashSize]
  cases r.getLsbD i <;> cases (busFlashSizeCs0Mask <<< (8 * cs.toNat)).getLsbD i <;> simp

theorem withFlashSize_both (r : BitVec 32) (cs cs' : ChipSelect) (size size' : BitVec 64) :
    withFlashSize (withFlashSize (withFlashSize (withFlashSize r cs size) cs' size') cs size)
        cs' size' =
      withFlashSize (withFlashSize r cs size) cs' size' := by
  apply BitVec.eq_of_getLsbD_eq
  intro i _
  simp only [getLsbD_withFlashSize]
  cases r.getLsbD i <;> cases (busFlashSizeCs0Mask <<< (8 * cs.toNat)).getLsbD i <;>
    cases (busFlashSizeCs0Mask <<< (8 * cs'.toNat)).getLsbD i <;>
    cases (coreMapChipsize size <<< (8 * cs.toNat)).getLsbD i <;> simp

theorem suspendLoop_bus (l : List ChipSelect) (v : View) :
    (v.suspendLoop h l).size = v.size ∧ (v.suspendLoop h l).base = v.base := by
  induction l generalizing v with
  | nil => exact ⟨rfl, rfl⟩
  | cons cs rest ih =>
    unfold View.suspendLoop
    split
    next =>
      split
      next => exact ih v
      next => exact ih _
    next => exact ⟨rfl, rfl⟩

theorem resumed_size (h : Host) (v : View) : (v.resumed h).size = (v.probed h).size := by
  have hsame : (v.suspended h).size = (v.probed h).size := (suspendLoop_bus _ _).1
  unfold View.resumed
  rcases h.status .cs0 with h0 | ⟨h0, id0⟩ | ⟨info0, h0, id0⟩ <;>
    rcases h.status .cs1 with h1 | ⟨h1, id1⟩ | ⟨info1, h1, id1⟩ <;>
    simp [View.probed, chipSelects, View.probeCs, View.resumeCs, withFlashSize_self,
      withFlashSize_both, *]

/-! What one chip select does to the base addresses. -/

theorem probeCs_base_self (v : View) (hrec : h.recognised cs) :
    (v.probeCs h cs).base cs = baseAddr h cs := by
  obtain ⟨hused, hid⟩ := hrec
  obtain ⟨info, hinfo⟩ := Option.isSome_iff_exists.mp hid
  simp [View.probeCs, hused, hinfo]

theorem probeCs_base_of_ne (v : View) {cs' : ChipSelect} (hne : cs' ≠ cs) :
    (v.probeCs h cs).base cs' = v.base cs' := by
  unfold View.probeCs
  split
  next =>
    split
    next => rfl
    next => exact Function.update_of_ne hne _ _
  next => rfl

theorem resumeCs_base_self (v : View) (hrec : h.recognised cs) :
    (v.resumeCs h cs).base cs = resumeBase h cs := by
  obtain ⟨hused, hid⟩ := hrec
  obtain ⟨info, hinfo⟩ := Option.isSome_iff_exists.mp hid
  simp [View.resumeCs, hused, hinfo]

theorem resumeCs_base_of_ne (v : View) {cs' : ChipSelect} (hne : cs' ≠ cs) :
    (v.resumeCs h cs).base cs' = v.base cs' := by
  unfold View.resumeCs
  split
  next =>
    split
    next => rfl
    next => exact Function.update_of_ne hne _ _
  next => rfl

theorem resumeCs_of_not (v : View) (hrec : ¬ h.recognised cs) : v.resumeCs h cs = v := by
  unfold View.resumeCs
  split
  next hused =>
    split
    next => rfl
    next info hinfo => exact absurd ⟨hused, Option.isSome_iff_exists.mpr ⟨info, hinfo⟩⟩ hrec
  next => rfl

theorem probed_base (v : View) (hrec : h.recognised cs) :
    (v.probed h).base cs = baseAddr h cs := by
  cases cs with
  | cs0 => exact (probeCs_base_of_ne _ (by decide)).trans (probeCs_base_self v hrec)
  | cs1 => exact probeCs_base_self _ hrec

theorem resumed_base (v : View) (hrec : h.recognised cs) :
    (v.resumed h).base cs = resumeBase h cs := by
  cases cs with
  | cs0 => exact (resumeCs_base_of_ne _ (by decide)).trans (resumeCs_base_self _ hrec)
  | cs1 => exact resumeCs_base_self _ hrec

theorem resumed_base_of_not (v : View) (hrec : ¬ h.recognised cs) :
    (v.resumed h).base cs = (v.probed h).base cs := by
  have hsame : (v.suspended h).base cs = (v.probed h).base cs :=
    congrFun (suspendLoop_bus _ _).2 cs
  cases cs with
  | cs0 =>
    have hfirst : ((v.suspended h).resumeCs h .cs0).base .cs0 = (v.suspended h).base .cs0 := by
      rw [resumeCs_of_not _ hrec]
    exact ((resumeCs_base_of_ne _ (by decide)).trans hfirst).trans hsame
  | cs1 =>
    have hsecond : (v.resumed h).base .cs1 =
        ((v.suspended h).resumeCs h .cs0).base .cs1 := by
      change (View.resumeCs h _ .cs1).base .cs1 = _
      rw [resumeCs_of_not _ hrec]
    exact (hsecond.trans (resumeCs_base_of_ne _ (by decide))).trans hsame

/-! What one chip select does to the modes of the flashes. -/

theorem probeCs_latch_self {info : SpiInfo} (v : View) (hused : h.used cs = true)
    (hid : h.ids cs = some info) :
    (v.probeCs h cs).latch cs = (decide (info.addrcycle = .four) || v.latch cs) := by
  by_cases hfour : info.addrcycle = .four
  · simp [View.probeCs, hused, hid, hfour]
  · simp [View.probeCs, hused, hid, hfour]

theorem probeCs_latch_of_ne (v : View) {cs' : ChipSelect} (hcs : cs ≠ cs') :
    (v.probeCs h cs').latch cs = v.latch cs := by
  unfold View.probeCs
  split
  next =>
    split
    next => rfl
    next =>
      simp only
      split
      next => exact Function.update_of_ne hcs _ _
      next => rfl
  next => rfl

theorem probeCs_latch_four (v : View) (hfour : h.fourByte cs) :
    (v.probeCs h cs).latch cs = true := by
  obtain ⟨hused, info, hinfo, haddr⟩ := hfour
  rw [probeCs_latch_self v hused hinfo, decide_eq_true haddr, Bool.true_or]

theorem resumeCs_latch_self (v : View) (hfour : h.fourByte cs) :
    (v.resumeCs h cs).latch cs = true := by
  obtain ⟨hused, info, hinfo, haddr⟩ := hfour
  simp [View.resumeCs, hused, hinfo, haddr]

theorem resumeCs_latch_of_not (v : View) {cs' : ChipSelect}
    (hnot : ¬ (cs' = cs ∧ h.fourByte cs)) : (v.resumeCs h cs).latch cs' = v.latch cs' := by
  unfold View.resumeCs
  split
  next hused =>
    split
    next => rfl
    next info hinfo =>
      by_cases haddr : info.addrcycle = .four
      · have hne : cs' ≠ cs := fun heq => hnot ⟨heq, hused, info, hinfo, haddr⟩
        simp [haddr, Function.update_of_ne hne]
      · simp [haddr]
  next => rfl

theorem suspendLoop_latch_of_not (l : List ChipSelect) (v : View) (hnot : ¬ h.fourByte cs) :
    (v.suspendLoop h l).latch cs = v.latch cs := by
  induction l generalizing v with
  | nil => rfl
  | cons cs' rest ih =>
    unfold View.suspendLoop
    split
    next hused =>
      split
      next => exact ih v
      next info hinfo =>
        rw [ih]
        by_cases haddr : info.addrcycle = .four
        · have hne : cs ≠ cs' := fun heq => hnot (heq ▸ ⟨hused, info, hinfo, haddr⟩)
          simp [View.switch, Host.probed, haddr, Function.update_of_ne hne]
        · simp [View.switch, Host.probed, haddr]
    next => rfl

theorem resumed_latch (h : Host) (v : View) : (v.resumed h).latch = (v.probed h).latch := by
  funext cs
  by_cases hfour : h.fourByte cs
  · cases cs with
    | cs0 =>
      have hne : ¬ (ChipSelect.cs0 = .cs1 ∧ h.fourByte .cs1) := fun hboth => nomatch hboth.1
      have hprobed : (v.probed h).latch .cs0 = true :=
        (probeCs_latch_of_ne _ (by decide)).trans (probeCs_latch_four v hfour)
      have hresumed : (v.resumed h).latch .cs0 = true :=
        (resumeCs_latch_of_not _ hne).trans (resumeCs_latch_self _ hfour)
      exact hresumed.trans hprobed.symm
    | cs1 =>
      have hprobed : (v.probed h).latch .cs1 = true := probeCs_latch_four _ hfour
      exact (resumeCs_latch_self _ hfour).trans hprobed.symm
  · have hnot : ∀ cs', ¬ (cs = cs' ∧ h.fourByte cs') := fun cs' hboth => hfour (hboth.1 ▸ hboth.2)
    have hsuspended : (v.suspended h).latch cs = (v.probed h).latch cs :=
      suspendLoop_latch_of_not _ _ hfour
    exact ((resumeCs_latch_of_not _ (hnot .cs1)).trans (resumeCs_latch_of_not _ (hnot .cs0))).trans
      hsuspended

theorem suspended_latch_of_unused (v : View) (hused : h.used cs = false) :
    (v.suspended h).latch cs = (v.probed h).latch cs := by
  refine suspendLoop_latch_of_not _ _ fun hfour => ?_
  rw [hfour.1] at hused
  cases hused

theorem resumed_host (h : Host) (v : View) :
    (v.resumed h).host = (v.probed h).host ↔
      (h.fourByte .cs0 → h.used .cs1 = true → h.fourByte .cs1) := by
  unfold View.resumed View.suspended View.probed
  rcases h.status .cs0 with h0 | ⟨h0, id0⟩ | ⟨info0, h0, id0⟩ <;>
    rcases h.status .cs1 with h1 | ⟨h1, id1⟩ | ⟨info1, h1, id1⟩ <;>
    simp [chipSelects, View.probeCs, View.resumeCs, View.suspendLoop, View.switch, Host.probed,
      Host.fourByte, *]

theorem forall_chipSelect {P : ChipSelect → Prop} : (∀ cs, P cs) ↔ P .cs0 ∧ P .cs1 := by
  constructor
  · exact fun hall => ⟨hall _, hall _⟩
  · intro hboth cs
    cases cs
    · exact hboth.1
    · exact hboth.2

theorem suspended_waited (h : Host) (v : View) :
    (∀ cs, h.recognised cs → (v.probed h).waited.count cs < (v.suspended h).waited.count cs) ↔
      (h.recognised .cs1 → h.used .cs0 = true) := by
  unfold View.suspended View.probed
  rw [forall_chipSelect]
  rcases h.status .cs0 with h0 | ⟨h0, id0⟩ | ⟨info0, h0, id0⟩ <;>
    rcases h.status .cs1 with h1 | ⟨h1, id1⟩ | ⟨info1, h1, id1⟩ <;>
    simp [chipSelects, View.probeCs, View.suspendLoop, View.switch, Host.probed,
      Host.recognised, *]

theorem suspended_exited (v : View) (hfirst : h.recognised .cs1 → h.used .cs0 = true)
    (hlast : h.fourByte .cs0 → h.used .cs1 = true → h.fourByte .cs1) :
    (∀ cs, h.fourByte cs → (v.suspended h).latch cs = false) ↔
      (h.recognised .cs0 → ∀ info, h.used .cs1 = true → h.ids .cs1 = some info →
        info.addrcycle = .four → info.driver.exitsByRegister = false) := by
  unfold View.suspended View.probed
  rw [forall_chipSelect]
  rcases h.status .cs0 with h0 | ⟨h0, id0⟩ | ⟨info0, h0, id0⟩ <;>
    rcases h.status .cs1 with h1 | ⟨h1, id1⟩ | ⟨info1, h1, id1⟩ <;>
    simp [chipSelects, View.probeCs, View.suspendLoop, View.switch, Host.probed,
      Host.recognised, Host.fourByte, *] at hfirst hlast ⊢
  · intro hfour1
    simp [hfour1]
  · intro hfour0
    simp [hfour0]
  · exact fun hfour0 => absurd hfour0 hlast
  · by_cases hfour0 : info0.addrcycle = .four <;> by_cases hfour1 : info1.addrcycle = .four <;>
      simp_all

theorem resumeBase_eq (h : Host) (cs : ChipSelect) :
    resumeBase h cs =
      sfc1Cs0MemAddr + (h.iobase - h.iobaseAddr).setWidth 32 + chipOffset cs := by
  have hsub : h.iobase + (chipOffset cs).setWidth 64 - h.iobaseAddr =
      h.iobase - h.iobaseAddr + (chipOffset cs).setWidth 64 := by
    rw [BitVec.sub_eq_add_neg, BitVec.sub_eq_add_neg, BitVec.add_assoc, BitVec.add_assoc]
    congr 1
    exact BitVec.add_comm _ _
  unfold resumeBase
  rw [hsub, ← BitVec.add_assoc, BitVec.setWidth_add _ _ (by decide), BitVec.setWidth_add _ _ (by decide)]
  simp

theorem resumeBase_eq_baseAddr_iff (h : Host) (cs : ChipSelect) :
    resumeBase h cs = baseAddr h cs ↔
      sfc1Cs0MemAddr + (h.iobase - h.iobaseAddr).setWidth 32 =
        sfc0Cs0MemAddr + h.bus * (sfc1Cs0MemAddr - sfc0Cs0MemAddr) := by
  rw [resumeBase_eq, baseAddr]
  exact BitVec.add_left_inj _

end Loops

section Alike

variable {h : Host} {c : Controller}

theorem probed_view (h : Host) (c : Controller) :
    (coreSpiProbe h c).ctl.view = c.view.probed h :=
  coreSpiProbe_view h c

theorem suspended_view (h : Host) (c : Controller) :
    (coreSuspendShutdownComProcess h (coreSpiProbe h c)).ctl.view = c.view.suspended h := by
  rw [coreSuspend_view, probed_view, View.suspended]

theorem resumed_view (h : Host) (c : Controller) :
    (coreResume h (coreSuspendShutdownComProcess h (coreSpiProbe h c))).ctl.view =
      c.view.resumed h := by
  rw [coreResume_view, probed_view, View.resumed, View.suspended]

theorem sameChip_of_view {s s' : State} {cs : ChipSelect}
    (hsize : s'.ctl.view.size = s.ctl.view.size)
    (hbase : s'.ctl.view.base cs = s.ctl.view.base cs)
    (hlatch : s'.ctl.view.latch cs = s.ctl.view.latch cs) : SameChip s s' cs where
  size := congrArg (fun r : BitVec 32 => r >>> (8 * cs.toNat) &&& busFlashSizeCs0Mask) hsize
  base := hbase
  mode := hlatch

theorem inFourByteMode_iff (h : Host) (c : Controller) (cs : ChipSelect) :
    inFourByteMode (coreSuspendShutdownComProcess h (coreSpiProbe h c)) cs ↔
      h.fourByte cs ∧ (c.view.suspended h).latch cs = true := by
  rw [← suspended_view]
  simp only [inFourByteMode, coreSuspend_spi, coreSpiProbe_spi, Controller.view, Host.fourByte]
  cases h.used cs with
  | false => simp
  | true =>
    cases h.ids cs with
    | none => simp
    | some info => simp [Host.probed]

theorem exited_iff (h : Host) (c : Controller) :
    (∀ cs, h.recognised cs →
      ¬ inFourByteMode (coreSuspendShutdownComProcess h (coreSpiProbe h c)) cs) ↔
      ∀ cs, h.fourByte cs → (c.view.suspended h).latch cs = false := by
  have hrec : ∀ cs, h.fourByte cs → h.recognised cs := by
    intro cs ⟨hused, info, hid, _⟩
    exact ⟨hused, by simp [hid]⟩
  constructor
  · intro hexit cs hfour
    by_contra hlatch
    apply hexit cs (hrec cs hfour)
    exact (inFourByteMode_iff h c cs).mpr ⟨hfour, Bool.eq_true_of_not_eq_false hlatch⟩
  · intro hlatch cs _ hin
    obtain ⟨hfour, htrue⟩ := (inFourByteMode_iff h c cs).mp hin
    simp [hlatch cs hfour] at htrue

theorem waited_iff (h : Host) (c : Controller) :
    (∀ cs, h.recognised cs →
      (coreSpiProbe h c).ctl.waited.count cs <
        (coreSuspendShutdownComProcess h (coreSpiProbe h c)).ctl.waited.count cs) ↔
      (h.recognised .cs1 → h.used .cs0 = true) := by
  rw [← suspended_waited h c.view, ← probed_view, ← suspended_view]
  rfl

theorem based_iff (h : Host) (c : Controller) (cs : ChipSelect) (hrec : h.recognised cs) :
    (coreResume h (coreSuspendShutdownComProcess h (coreSpiProbe h c))).ctl.busBaseAddr cs =
        baseAddr h cs ↔
      sfc1Cs0MemAddr + (h.iobase - h.iobaseAddr).setWidth 32 =
        sfc0Cs0MemAddr + h.bus * (sfc1Cs0MemAddr - sfc0Cs0MemAddr) := by
  rw [← resumeBase_eq_baseAddr_iff h cs, ← resumed_base c.view hrec, ← resumed_view]
  rfl

theorem hostMode_iff (h : Host) (c : Controller) :
    (coreResume h (coreSuspendShutdownComProcess h (coreSpiProbe h c))).ctl.hostFourByte =
        (coreSpiProbe h c).ctl.hostFourByte ↔
      (h.fourByte .cs0 → h.used .cs1 = true → h.fourByte .cs1) := by
  rw [← resumed_host h c.view, ← resumed_view, ← probed_view]
  rfl

theorem resumed_sameChip (h : Host) (c : Controller) (cs : ChipSelect)
    (hbase : (c.view.resumed h).base cs = (c.view.probed h).base cs) :
    SameChip (coreSpiProbe h c)
      (coreResume h (coreSuspendShutdownComProcess h (coreSpiProbe h c))) cs := by
  apply sameChip_of_view
  · rw [resumed_view, probed_view, resumed_size]
  · rw [resumed_view, probed_view, hbase]
  · rw [resumed_view, probed_view, resumed_latch]

/-- Suspend and resume treat the chip selects alike just on the boards that are covered. -/
theorem treatedAlike_iff (h : Host) (c : Controller) : TreatedAlike h c ↔ Covered h := by
  constructor
  · intro halike
    have hfirst := (waited_iff h c).mp halike.waited
    have hlast := (hostMode_iff h c).mp halike.hostMode
    exact {
      first := hfirst
      base := fun cs hrec => (based_iff h c cs hrec).mp (halike.based cs hrec)
      last := hlast
      exit := (suspended_exited c.view hfirst hlast).mp ((exited_iff h c).mp halike.exited) }
  · intro hcov
    constructor
    case waited => exact (waited_iff h c).mpr hcov.first
    case exited =>
      exact (exited_iff h c).mpr ((suspended_exited c.view hcov.first hcov.last).mpr hcov.exit)
    case based => exact fun cs hrec => (based_iff h c cs hrec).mpr (hcov.base cs hrec)
    case restored =>
      intro cs _
      apply resumed_sameChip
      by_cases hrec : h.recognised cs
      · rw [resumed_base _ hrec, probed_base _ hrec]
        exact (resumeBase_eq_baseAddr_iff h cs).mpr (hcov.base cs hrec)
      · exact resumed_base_of_not _ hrec
    case hostMode => exact (hostMode_iff h c).mpr hcov.last
    case untouched =>
      intro cs hused
      constructor
      · apply sameChip_of_view
        · rw [suspended_view, probed_view]
          exact (suspendLoop_bus _ _).1
        · rw [suspended_view, probed_view]
          exact congrFun (suspendLoop_bus _ _).2 cs
        · rw [suspended_view, probed_view]
          exact suspended_latch_of_unused _ hused
      · apply resumed_sameChip
        apply resumed_base_of_not
        intro hrec
        simp [hrec.1] at hused

end Alike

def secondAlone : Host where
  bus := 1
  cfgUseCs := 2
  iobase := 0xFFFF800010000000
  iobaseAddr := 0xFFFF800008001000
  ids
    | .cs0 => none
    | .cs1 => some ⟨0x2000000, .four, .general⟩

def powerOn : Controller where
  globalConfig := 0
  busFlashSize := 0
  busBaseAddr := fun _ => 0
  flash := fun _ => ⟨false, false, 0⟩
  waited := []

/-- The suspend never reaches the flash. -/
theorem secondAlone_not_alike : ¬ TreatedAlike secondAlone powerOn := by
  intro halike
  have hused := (waited_iff secondAlone powerOn).mp halike.waited ⟨by decide, rfl⟩
  revert hused
  decide

end HiMpu.SfcController
