import HiMpu.SfcAccess
import HiMpu.TransitionSystem

/-!
# The width of a flash address

One bit of the controller says for both chip selects whether it sends three or four
address bytes, and each flash has a mode of its own.  The driver sets the two before each
access to the mode in `spi->addrcycle`, which an ioctl can change.  The range check of an
access knows only the size of the flash.
-/

namespace HiMpu.SfcController

inductive Kind
  | regRead
  | regWrite
  | dmaRead
  | dmaWrite
  | busRead
  | busWrite
  | erase
  deriving DecidableEq

/-- One call: the permission and what the flash says about its sectors are answers, and
the call ends early when something fails after `count` commands. -/
structure Request where
  kind : Kind
  cs : ChipSelect
  addr : ℕ
  len : ℕ
  permitted : Bool
  uniform : Bool
  count : ℕ

structure Command where
  cs : ChipSelect
  hostFourByte : Bool
  flashFourByte : Bool
  piece : Piece
  start : ℕ
  stop : ℕ

structure Sys where
  state : State
  geometry : ChipSelect → Geometry
  commands : List Command

def Request.check (r : Request) (chipsize : ℕ) : ℤ :=
  Sfc.sfcCoreCheckAddrLen chipsize r.addr r.len

def busAddrAlignDetect (addr : ℕ) : Bool := addr % busAddrAlign ≠ 0

/-- The register paths and the erase set the address mode before they check anything, the
others after it. -/
def Request.prepares (r : Request) (chipsize : ℕ) : Bool :=
  match r.kind with
  | .regRead | .regWrite | .erase => true
  | .dmaRead | .dmaWrite => r.check chipsize = 0
  | .busRead | .busWrite => !busAddrAlignDetect r.addr && r.check chipsize = 0

def Request.pieces (r : Request) (chipsize : ℕ) (g : Geometry) : List Piece :=
  match r.kind with
  | .regRead => (coreRegReadForAll chipsize g r.addr r.len).2
  | .regWrite => (coreRegWrite chipsize r.addr r.len).2
  | .dmaRead =>
    if r.check chipsize ≠ 0 then [] else baseDmaRwXferData true chipsize g r.addr r.len
  | .dmaWrite =>
    if r.check chipsize ≠ 0 then [] else baseDmaRwXferData false chipsize g r.addr r.len
  | .busRead | .busWrite =>
    if busAddrAlignDetect r.addr then []
    else if r.check chipsize ≠ 0 then [] else busCopy r.addr r.len
  | .erase => regErase r.count chipsize g r.uniform r.addr r.len

/-- A command goes out with what the controller and the flash are set to. -/
def Request.command (r : Request) (c : Controller) (p : Piece) : Command where
  cs := r.cs
  hostFourByte := c.hostFourByte
  flashFourByte := (c.flash r.cs).fourByte
  piece := p
  start := r.addr
  stop := r.addr + r.len

def access (s : Sys) (r : Request) : Option Sys :=
  match s.state.spi r.cs with
  | none => none
  | some spi =>
    if r.permitted then
      let chipsize := spi.chipsize.toNat
      let c := if r.prepares chipsize then coreAddrModeSet s.state.ctl spi else s.state.ctl
      some { s with
        state := { s.state with ctl := c }
        commands := s.commands ++
          ((r.pieces chipsize (s.geometry r.cs)).take r.count).map (r.command c) }
    else some s

def cmdSetAddrMode (s : Sys) (cs : ChipSelect) (addrcycle : Addrcycle) : Option Sys :=
  match s.state.spi cs with
  | none => none
  | some spi =>
    if spi.originalAddrcycle = .three then
      if addrcycle = .four then none else some s
    else
      let enable4byte := decide (addrcycle = .four)
      let ctl := entry4addr s.state.ctl { spi with addrcycle := spi.originalAddrcycle } enable4byte
      some { s with
        state :=
          { ctl := ctl
            spi := Function.update s.state.spi cs (some { spi with addrcycle := addrcycle }) } }

inductive Action
  | setAddrMode (cs : ChipSelect) (addrcycle : Addrcycle)
  | request (r : Request)

def next (s : Sys) : Action → Option Sys
  | .setAddrMode cs addrcycle => cmdSetAddrMode s cs addrcycle
  | .request r => access s r

/-- After the probe.  A part with three address bytes has no four-byte mode, and the flash
with two dies is the one of 128 MB. -/
def Start (s : Sys) : Prop :=
  ∃ (h : Host) (c : Controller),
    (∀ cs info, h.ids cs = some info →
      (info.addrcycle = .three → (c.flash cs).fourByte = false) ∧
      ((s.geometry cs).twoDies = true → info.chipsize = 0x8000000)) ∧
    s.state = coreSpiProbe h c ∧ s.commands = []

def system : TransitionSystem Sys Action := TransitionSystem.ofStep Start next

/-- The controller sends as many address bytes as the flash expects, they can express the
address, and the place is the one that is meant. -/
structure Command.Exact (c : Command) : Prop where
  mode : c.hostFourByte = c.flashFourByte
  width : c.piece.addr + c.piece.len ≤ if c.flashFourByte then 2 ^ 32 else 2 ^ 24
  within : c.piece.Within c.start c.stop

/-- How far the address register, or the window of the bus, reaches. -/
def Kind.room : Kind → ℕ
  | .regRead | .dmaRead | .erase => 2 ^ 30
  | .regWrite | .dmaWrite => 2 ^ 32
  | .busRead | .busWrite => 2 ^ 27

def Addrcycle.room : Addrcycle → ℕ
  | .three => 2 ^ 24
  | .four => 2 ^ 32

/-- An access stays below the end of what the address mode and the path can reach.  Of a
read that is refused the flash with two dies still reads what lies in the first one, by
four address bytes. -/
def Request.InRoom (r : Request) (spi : Spi) (g : Geometry) : Prop :=
  (r.check spi.chipsize.toNat = 0 → r.addr + r.len ≤ min r.kind.room spi.addrcycle.room) ∧
    (r.kind = .regRead → g.twoDies = true → r.check spi.chipsize.toNat ≠ 0 →
      spi.addrcycle = .four)

/-- A flash that leaves the four-byte mode by the write of a register needs the controller
in that mode. -/
def ExitHeard (s : Sys) (spi : Spi) (cs : ChipSelect) (addrcycle : Addrcycle) : Prop :=
  spi.originalAddrcycle = .four → addrcycle = .three → spi.driver.exitsByRegister = true →
    (s.state.ctl.flash cs).fourByte = true → s.state.ctl.hostFourByte = true

def Allowed (s : Sys) : Action → Prop
  | .setAddrMode cs addrcycle =>
    ∀ spi, s.state.spi cs = some spi → ExitHeard s spi cs addrcycle
  | .request r =>
    r.permitted = true → ∀ spi, s.state.spi r.cs = some spi → r.InRoom spi (s.geometry r.cs)

instance (r : Request) (spi : Spi) (g : Geometry) : Decidable (r.InRoom spi g) :=
  inferInstanceAs (Decidable (_ ∧ _))

instance (s : Sys) (spi : Spi) (cs : ChipSelect) (addrcycle : Addrcycle) :
    Decidable (ExitHeard s spi cs addrcycle) :=
  inferInstanceAs (Decidable (_ → _))

instance (s : Sys) (a : Action) : Decidable (Allowed s a) :=
  match a with
  | .setAddrMode cs addrcycle =>
    inferInstanceAs (Decidable (∀ spi ∈ s.state.spi cs, ExitHeard s spi cs addrcycle))
  | .request r =>
    inferInstanceAs (Decidable (r.permitted = true →
      ∀ spi ∈ s.state.spi r.cs, r.InRoom spi (s.geometry r.cs)))

structure Inv (s : Sys) : Prop where
  select : ∀ {cs spi}, s.state.spi cs = some spi → spi.chipselect = cs
  three : ∀ {cs spi}, s.state.spi cs = some spi → spi.originalAddrcycle = .three →
    spi.addrcycle = .three
  latch : ∀ {cs spi}, s.state.spi cs = some spi →
    (s.state.ctl.flash cs).fourByte = decide (spi.addrcycle = .four)
  dies : ∀ {cs spi}, s.state.spi cs = some spi → (s.geometry cs).twoDies = true →
    spi.chipsize.toNat ≤ 0x8000000
  exact : ∀ c ∈ s.commands, c.Exact

section Steps

variable {s s' : Sys} {r : Request} {spi : Spi} {g : Geometry} {c : Controller} {p : Piece}
  {cs : ChipSelect}

theorem pieces_within (hdies : g.twoDies = true → spi.chipsize.toNat ≤ 0x8000000)
    (hroom : r.InRoom spi g) (hmem : p ∈ r.pieces spi.chipsize.toNat g) :
    p.Within r.addr (r.addr + r.len) ∧ p.addr + p.len ≤ spi.addrcycle.room := by
  obtain ⟨haccept, hrefused⟩ := hroom
  have hkind (hcheck : r.check spi.chipsize.toNat = 0) : r.addr + r.len ≤ r.kind.room :=
    (haccept hcheck).trans (min_le_left _ _)
  have hmode (hcheck : r.check spi.chipsize.toNat = 0) (hp : p.Within r.addr (r.addr + r.len)) :
      p.addr + p.len ≤ spi.addrcycle.room :=
    hp.high.trans ((haccept hcheck).trans (min_le_right _ _))
  unfold Request.pieces at hmem
  cases hk : r.kind <;> simp only [hk, Kind.room] at hmem hkind
  case regRead =>
    obtain ⟨hp, hfar⟩ := coreRegReadForAll_within hdies hkind hmem
    refine ⟨hp, ?_⟩
    by_cases hcheck : r.check spi.chipsize.toNat = 0
    · exact hmode hcheck hp
    · obtain ⟨htwo, hhigh⟩ := hfar hcheck
      rw [hrefused hk htwo hcheck]
      exact hhigh.trans (by decide)
  case regWrite =>
    have hcheck : r.check spi.chipsize.toNat = 0 := by
      by_contra hrefused
      have hempty : (coreRegWrite spi.chipsize.toNat r.addr r.len).2 = [] := by
        rw [coreRegWrite]
        exact congrArg Prod.snd (if_pos hrefused)
      rw [hempty] at hmem
      cases hmem
    have hp := coreRegWrite_within (hkind hcheck) hmem
    exact ⟨hp, hmode hcheck hp⟩
  case dmaRead =>
    split at hmem
    next => cases hmem
    next hcheck =>
      have hcheck := not_not.mp hcheck
      have hp := baseDmaRwXferData_within hdies (hkind hcheck) hmem
      exact ⟨hp, hmode hcheck hp⟩
  case dmaWrite =>
    split at hmem
    next => cases hmem
    next hcheck =>
      have hcheck := not_not.mp hcheck
      have hp := baseDmaRwXferData_within hdies (hkind hcheck) hmem
      exact ⟨hp, hmode hcheck hp⟩
  case busRead | busWrite =>
    split at hmem
    next => cases hmem
    next =>
      split at hmem
      next => cases hmem
      next hcheck =>
        have hcheck := not_not.mp hcheck
        have hp := busCopy_within (hkind hcheck) hmem
        exact ⟨hp, hmode hcheck hp⟩
  case erase =>
    obtain ⟨hp, hfar⟩ := regErase_within hkind hmem
    refine ⟨hp, ?_⟩
    by_cases hcheck : r.check spi.chipsize.toNat = 0
    · exact hmode hcheck hp
    · have hsmall : sectorCount4K * size4K ≤ spi.addrcycle.room := by
        cases spi.addrcycle <;> decide
      exact (hfar hcheck).trans hsmall

theorem pieces_of_not_prepares {chipsize : ℕ} (hprepares : r.prepares chipsize = false) :
    r.pieces chipsize g = [] := by
  unfold Request.prepares at hprepares
  unfold Request.pieces
  cases hk : r.kind <;> simp only [hk] at hprepares ⊢
  case regRead | regWrite | erase => cases hprepares
  case dmaRead | dmaWrite => rw [if_pos (of_decide_eq_false hprepares)]
  case busRead | busWrite =>
    split
    next => rfl
    next haligned =>
      have hrefused : r.check chipsize ≠ 0 := by
        intro hcheck
        simp [haligned, hcheck] at hprepares
      rw [if_pos hrefused]

theorem hostFourByte_switch (c : Controller) (spi : Spi) (enable : Bool) :
    (entry4addr c spi enable).hostFourByte = (decide (spi.addrcycle = .four) && enable) :=
  entry4addr_hostFourByte c spi enable

theorem fourByte_switch (c : Controller) (spi : Spi) (enable : Bool) (cs : ChipSelect) :
    ((entry4addr c spi enable).flash cs).fourByte =
      if spi.addrcycle = .four ∧ cs = spi.chipselect then
        enable || spi.driver.exitsByRegister && !c.hostFourByte && (c.flash cs).fourByte
      else (c.flash cs).fourByte := by
  have hlatch : ((entry4addr c spi enable).flash cs).fourByte = (c.view.switch spi enable).latch cs :=
    congrArg (fun v => v.latch cs) (entry4addr_view c spi enable)
  rw [hlatch, View.switch]
  by_cases hfour : spi.addrcycle = .four
  · by_cases hcs : cs = spi.chipselect
    · subst hcs
      simp only [hfour, if_true, and_self, Function.update_self, Controller.view]
    · simp only [hfour, if_true, hcs, and_false, if_false, Function.update_of_ne hcs,
        Controller.view]
  · simp only [hfour, if_false, false_and, Controller.view]

theorem Inv.prepared (hinv : Inv s) (hspi : s.state.spi cs = some spi) :
    (coreAddrModeSet s.state.ctl spi).hostFourByte = decide (spi.addrcycle = .four) ∧
      ∀ {cs' spi'}, s.state.spi cs' = some spi' →
        ((coreAddrModeSet s.state.ctl spi).flash cs').fourByte =
          decide (spi'.addrcycle = .four) := by
  have hselect := hinv.select hspi
  refine ⟨?_, ?_⟩
  · rw [coreAddrModeSet, hostFourByte_switch, Bool.and_self]
  · intro cs' spi' hspi'
    rw [coreAddrModeSet, fourByte_switch]
    split
    next hsame =>
      obtain ⟨hfour, rfl⟩ := hsame
      rw [hselect, hspi] at hspi'
      cases hspi'
      simp [hfour]
    next => exact hinv.latch hspi'

theorem Inv.access (hinv : Inv s) (hroom : r.permitted = true → ∀ spi,
    s.state.spi r.cs = some spi → r.InRoom spi (s.geometry r.cs))
    (hstep : access s r = some s') : Inv s' := by
  unfold SfcController.access at hstep
  split at hstep
  next => cases hstep
  next spi hspi =>
    split at hstep
    next hpermitted =>
      cases hstep
      obtain ⟨hhost, hlatch⟩ := hinv.prepared hspi
      refine ⟨hinv.select, hinv.three, ?_, hinv.dies, ?_⟩
      · intro cs' spi' hspi'
        simp only
        split
        next => exact hlatch hspi'
        next => exact hinv.latch hspi'
      · intro c hmem
        rcases List.mem_append.mp hmem with hmem | hmem
        · exact hinv.exact c hmem
        · obtain ⟨p, hp, rfl⟩ := List.mem_map.mp hmem
          have hp := List.mem_of_mem_take hp
          have hprepares : r.prepares spi.chipsize.toNat = true := by
            by_contra hnot
            rw [pieces_of_not_prepares (Bool.not_eq_true _ ▸ hnot)] at hp
            cases hp
          obtain ⟨hwithin, hwidth⟩ := pieces_within (hinv.dies hspi) (hroom hpermitted spi hspi) hp
          simp only [hprepares, if_true]
          refine ⟨hhost.trans (hlatch hspi).symm, ?_, hwithin⟩
          simp only [Request.command, hlatch hspi]
          cases hmode : spi.addrcycle <;> rw [hmode] at hwidth
          · exact hwidth
          · exact hwidth
    next =>
      cases hstep
      exact hinv

theorem Inv.setAddrMode {addrcycle : Addrcycle} (hinv : Inv s)
    (hheard : ∀ spi, s.state.spi cs = some spi → ExitHeard s spi cs addrcycle)
    (hstep : cmdSetAddrMode s cs addrcycle = some s') : Inv s' := by
  unfold cmdSetAddrMode at hstep
  split at hstep
  next => cases hstep
  next spi hspi =>
    have hselect := hinv.select hspi
    split at hstep
    next =>
      split at hstep
      next => cases hstep
      next =>
        cases hstep
        exact hinv
    next horiginal =>
      cases hstep
      have hfour : spi.originalAddrcycle = .four := by
        cases h : spi.originalAddrcycle
        · exact absurd h horiginal
        · rfl
      have hother {cs' spi'} (hcs : cs' ≠ cs)
          (hspi' : Function.update s.state.spi cs (some { spi with addrcycle := addrcycle }) cs' =
            some spi') : s.state.spi cs' = some spi' := by
        rwa [Function.update_of_ne hcs] at hspi'
      have hself {spi'} (hspi' : Function.update s.state.spi cs
            (some { spi with addrcycle := addrcycle }) cs = some spi') :
          spi' = { spi with addrcycle := addrcycle } := by
        rw [Function.update_self] at hspi'
        exact (Option.some.inj hspi').symm
      refine ⟨?_, ?_, ?_, ?_, hinv.exact⟩
      · intro cs' spi' hspi'
        by_cases hcs : cs' = cs
        · subst hcs
          rw [hself hspi']
          exact hselect
        · exact hinv.select (hother hcs hspi')
      · intro cs' spi' hspi'
        by_cases hcs : cs' = cs
        · subst hcs
          rw [hself hspi']
          exact fun h => absurd h horiginal
        · exact hinv.three (hother hcs hspi')
      · intro cs' spi' hspi'
        simp only
        rw [fourByte_switch]
        by_cases hcs : cs' = cs
        · subst hcs
          rw [hself hspi', if_pos ⟨hfour, hselect.symm⟩]
          cases addrcycle with
          | four => simp
          | three =>
            have hexit := hheard spi hspi hfour rfl
            cases hregister : spi.driver.exitsByRegister <;>
              cases hflash : (s.state.ctl.flash cs').fourByte <;>
              cases hmode : s.state.ctl.hostFourByte <;> simp_all
        · rw [if_neg (fun h => hcs (h.2.trans hselect)), hinv.latch (hother hcs hspi')]
      · intro cs' spi' hspi'
        by_cases hcs : cs' = cs
        · subst hcs
          have hsize := @hinv.dies _ _ hspi
          rw [hself hspi']
          exact hsize
        · exact hinv.dies (hother hcs hspi')

theorem Inv.next {a : Action} (hinv : Inv s) (hallowed : Allowed s a)
    (hstep : next s a = some s') : Inv s' := by
  cases a with
  | setAddrMode cs addrcycle => exact hinv.setAddrMode hallowed hstep
  | request r => exact hinv.access hallowed hstep

end Steps

section Probe

variable {h : Host} {c : Controller} {cs : ChipSelect} {info : SpiInfo}

theorem coreSpiProbe_latch (c : Controller) (hused : h.used cs = true)
    (hid : h.ids cs = some info) :
    ((coreSpiProbe h c).ctl.flash cs).fourByte =
      (decide (info.addrcycle = .four) || (c.flash cs).fourByte) := by
  have hlatch : ((coreSpiProbe h c).ctl.flash cs).fourByte =
      (chipSelects.foldl (View.probeCs h) c.view).latch cs :=
    congrArg (fun v => v.latch cs) (coreSpiProbe_view h c)
  rw [hlatch]
  simp only [chipSelects, List.foldl_cons, List.foldl_nil]
  cases cs with
  | cs0 =>
    rw [probeCs_latch_of_ne _ (by decide), probeCs_latch_self _ hused hid]
    rfl
  | cs1 =>
    rw [probeCs_latch_self _ hused hid, probeCs_latch_of_ne _ (by decide)]
    rfl

theorem Inv.start {s : Sys} (hstart : Start s) : Inv s := by
  obtain ⟨h, c, hparts, hstate, hcommands⟩ := hstart
  have hprobed {cs spi} (hspi : s.state.spi cs = some spi) :
      ∃ info, h.used cs = true ∧ h.ids cs = some info ∧ spi = h.probed cs info := by
    rw [hstate, coreSpiProbe_spi] at hspi
    split at hspi
    next hused =>
      obtain ⟨info, hid, hspi⟩ := Option.map_eq_some_iff.mp hspi
      exact ⟨info, hused, hid, hspi.symm⟩
    next => cases hspi
  refine ⟨?_, ?_, ?_, ?_, ?_⟩
  · intro cs spi hspi
    obtain ⟨info, _, _, rfl⟩ := hprobed hspi
    rfl
  · intro cs spi hspi
    obtain ⟨info, _, _, rfl⟩ := hprobed hspi
    exact id
  · intro cs spi hspi
    obtain ⟨info, hused, hid, rfl⟩ := hprobed hspi
    rw [hstate, coreSpiProbe_latch c hused hid]
    change _ = decide (info.addrcycle = .four)
    cases hmode : info.addrcycle with
    | three =>
      rw [(hparts cs info hid).1 hmode]
      rfl
    | four => rfl
  · intro cs spi hspi htwo
    obtain ⟨info, _, hid, rfl⟩ := hprobed hspi
    change info.chipsize.toNat ≤ _
    rw [(hparts cs info hid).2 htwo]
    decide
  · intro c hmem
    rw [hcommands] at hmem
    cases hmem

end Probe

theorem exact_of_allowed {s : Sys} (hreach : (system.restrict Allowed).Reachable s) :
    ∀ c ∈ s.commands, c.Exact := by
  have hinv : Inv s := by
    apply hreach.invariant
    · exact fun s hstart => Inv.start hstart
    · exact fun s a s' _ hinv hstep => hinv.next hstep.1 hstep.2
  exact hinv.exact

def geometry64K : Geometry where
  twoDies := false
  hybrid := false
  erasesize := 2 ^ 16
  eraseOpSize := 2 ^ 16
  erasesize_pow := ⟨16, rfl⟩
  eraseOpSize_eq := Or.inl rfl
  hybrid_le := fun h => by cases h

def mixedBoard : Host where
  bus := 0
  cfgUseCs := 3
  iobase := 0
  iobaseAddr := 0
  ids := fun
    | .cs0 => some ⟨0x1000000, .three, .general⟩
    | .cs1 => some ⟨0x4000000, .four, .fs512s⟩

def poweredOn : Controller where
  globalConfig := 0
  busFlashSize := 0
  busBaseAddr := fun _ => 0
  flash := fun _ => ⟨false, false, 0⟩
  waited := []

def probedSys : Sys := ⟨coreSpiProbe mixedBoard poweredOn, fun _ => geometry64K, []⟩

theorem start_probedSys : Start probedSys := by
  refine ⟨mixedBoard, poweredOn, ?_, rfl, rfl⟩
  intro cs info _
  exact ⟨fun _ => rfl, fun h => by cases h⟩

def readFour (cs : ChipSelect) (addr : ℕ) : Action :=
  .request ⟨.regRead, cs, addr, 4, true, true, 1⟩

def eraseFirst (cs : ChipSelect) : Action :=
  .request ⟨.erase, cs, 0, 0x10000, true, true, 1⟩

def turns : List Action :=
  [readFour .cs1 0x3000000, eraseFirst .cs0, readFour .cs1 0x2000000,
    .setAddrMode .cs1 .three, readFour .cs1 0xFFFFFC, .setAddrMode .cs1 .four,
    readFour .cs0 0xFFFFFC, readFour .cs1 0x1000000]

def afterTurns : Sys :=
  (TransitionSystem.runSteps (TransitionSystem.guarded Allowed next) probedSys turns).get
    (by decide +kernel)

theorem exact_of_allowed_turns :
    afterTurns.commands.length = 6 ∧ ∀ c ∈ afterTurns.commands, c.Exact := by
  have hinit : (system.restrict Allowed).Reachable probedSys :=
    TransitionSystem.Reachable.init start_probedSys
  have hrun : TransitionSystem.runSteps (TransitionSystem.guarded Allowed next) probedSys turns =
      some afterTurns := (Option.some_get _).symm
  exact ⟨by decide +kernel, exact_of_allowed (hinit.runGuarded hrun)⟩

def narrowed : Sys :=
  (TransitionSystem.runSteps next probedSys
    [.setAddrMode .cs1 .three, readFour .cs1 0x1000000]).get (by decide +kernel)

def unheard : Sys :=
  (TransitionSystem.runSteps next probedSys
    [readFour .cs0 0, .setAddrMode .cs1 .three, readFour .cs1 0]).get (by decide +kernel)

/-- The read at 16 MB is accepted and goes out with three address bytes; and the flash
that has not heard the switch expects four where the controller sends three. -/
theorem reads_elsewhere :
    (system.Reachable narrowed ∧ ∃ c ∈ narrowed.commands, ¬ c.Exact) ∧
      system.Reachable unheard ∧ ∃ c ∈ unheard.commands, ¬ c.Exact := by
  have hinit : system.Reachable probedSys := TransitionSystem.Reachable.init start_probedSys
  have hrun : TransitionSystem.runSteps next probedSys
      [.setAddrMode .cs1 .three, readFour .cs1 0x1000000] = some narrowed :=
    (Option.some_get _).symm
  have hrun' : TransitionSystem.runSteps next probedSys
      [readFour .cs0 0, .setAddrMode .cs1 .three, readFour .cs1 0] = some unheard :=
    (Option.some_get _).symm
  refine ⟨⟨hinit.runSteps hrun, ?_⟩, hinit.runSteps hrun', ?_⟩
  · obtain ⟨c, hmem, hmode, hfar⟩ : ∃ c ∈ narrowed.commands,
        c.flashFourByte = false ∧ 2 ^ 24 < c.piece.addr + c.piece.len := by decide +kernel
    refine ⟨c, hmem, fun hexact => ?_⟩
    have hwidth := hexact.width
    rw [hmode, if_neg (by simp)] at hwidth
    omega
  · obtain ⟨c, hmem, hmode⟩ : ∃ c ∈ unheard.commands,
        c.hostFourByte ≠ c.flashFourByte := by decide +kernel
    exact ⟨c, hmem, fun hexact => hmode hexact.mode⟩

end HiMpu.SfcController
