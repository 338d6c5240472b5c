import HiMpu.TransitionSystem

/-!
# The GMAC port of Linux

`gmac_link_handle` of `gmac/gmac.c` polls the PHY of a port and follows it with the
carrier and the MAC; `gmac_open` and `gmac_stop` switch the port.  The readings of the
PHY and the return values of `gmac_hw_core_reset` are inputs of a run.
-/

namespace HiMpu.GmacPort

def eth0 : ℕ := 0
def eth1 : ℕ := 1
def eth2 : ℕ := 2
def eth3 : ℕ := 3
def mac10mMii : BitVec 32 := 0
def mac100mMii : BitVec 32 := 1
def mac10mSgmii : BitVec 32 := 6
def mac100mSgmii : BitVec 32 := 7
def mac1000mSgmii : BitVec 32 := 8
def gmacDuplexFull : BitVec 32 := 1
def einval : ℤ := 22
def efault : ℤ := 14

structure Mac where
  portEn : BitVec 32
  duplexType : BitVec 32
  portMode : BitVec 32
  modeChangeEn : BitVec 32
  coreReset : Bool

def setField (reg mask val : BitVec 32) : BitVec 32 := (reg &&& ~~~mask) ||| (val &&& mask)

def portModeMask : BitVec 32 := 0xf

def gmacHwRxEnable (mac : Mac) (enValue : Bool) : Mac :=
  { mac with portEn := setField mac.portEn 0x2 (if enValue then 0x2 else 0) }

def gmacHwTxEnable (mac : Mac) (enValue : Bool) : Mac :=
  { mac with portEn := setField mac.portEn 0x4 (if enValue then 0x4 else 0) }

def gmacHwSetPortMode (mac : Mac) (speed duplex : BitVec 32) (reset : ℤ) : Mac × ℤ :=
  if mac1000mSgmii < speed then (mac, -einval)
  else if gmacDuplexFull < duplex then (mac, -einval)
  else
    let mac := gmacHwRxEnable mac false
    let mac := gmacHwTxEnable mac false
    let mac := { mac with duplexType := setField mac.duplexType portModeMask duplex }
    let mac := { mac with portMode := setField mac.portMode portModeMask speed }
    let mac := { mac with modeChangeEn := setField mac.modeChangeEn 1 1 }
    if reset ≠ 0 then ({ mac with coreReset := false }, -efault)
    else ({ mac with coreReset := true }, 0)

def gmacCheckSpeedAvailable (id : ℕ) (speed : BitVec 32) : ℤ :=
  if id = eth0 ∨ id = eth1 then
    if speed ≠ mac100mMii ∧ speed ≠ mac10mMii then -einval else 0
  else if id = eth2 ∨ id = eth3 then
    if speed ≠ mac10mSgmii ∧ speed ≠ mac100mSgmii ∧ speed ≠ mac1000mSgmii then -einval else 0
  else -einval

def gmacAdjustlink (id : ℕ) (mac : Mac) (running : Bool) (speed duplex link : BitVec 32)
    (reset : ℤ) : Mac × ℤ :=
  if gmacDuplexFull < duplex then (mac, -einval)
  else if gmacCheckSpeedAvailable id speed ≠ 0 then (mac, -einval)
  else
    let r := gmacHwSetPortMode mac speed duplex reset
    if link ≠ 0 ∧ running = true then
      (gmacHwTxEnable (gmacHwRxEnable r.1 true) true, r.2)
    else r

/-- The fields of `gmac_private_s` and the state of the network device. -/
structure Port where
  mac : Mac
  oldlink : BitVec 32
  oldspeed : BitVec 32
  oldduplex : BitVec 32
  opened : Bool
  carrier : Bool

/-- What a poll reads: the return value and the result of `gmac_get_link` and of
`gmac_get_phy_speed_duplex`, and what the core resets of its two adjustments return.  The
drivers of the PHYs report one of the two duplex modes. -/
structure Reading where
  linkRet : ℤ
  link : BitVec 32
  modeRet : ℤ
  speed : BitVec 32
  duplex : BitVec 32
  duplex_le : duplex ≤ gmacDuplexFull
  reset0 : ℤ
  reset1 : ℤ

def followLink (id : ℕ) (p : Port) (r : Reading) : Port :=
  if p.oldlink ≠ r.link then
    if r.link ≠ 0 then
      { p with
        mac := (gmacAdjustlink id p.mac p.opened r.speed r.duplex r.link r.reset0).1
        carrier := true }
    else { p with carrier := false }
  else p

def followMode (id : ℕ) (p : Port) (r : Reading) : Port :=
  if r.link ≠ 0 ∧ (p.oldspeed ≠ r.speed ∨ p.oldduplex ≠ r.duplex) then
    { p with mac := (gmacAdjustlink id p.mac p.opened r.speed r.duplex r.link r.reset1).1 }
  else p

/-- The repair of a fiber link and the check of the SGMII negotiation change nothing here. -/
def gmacLinkHandle (id : ℕ) (p : Port) (r : Reading) : Port × ℤ :=
  if r.linkRet ≠ 0 then (p, r.linkRet)
  else if r.modeRet ≠ 0 then (p, r.modeRet)
  else
    let p := followMode id (followLink id p r) r
    ({ p with
      oldlink := r.link
      oldspeed := r.speed
      oldduplex := r.duplex }, 0)

def gmacOpen (p : Port) : Port :=
  { p with
    mac := gmacHwRxEnable (gmacHwTxEnable p.mac true) true
    opened := true }

def gmacStop (p : Port) : Port :=
  { p with
    mac := gmacHwRxEnable (gmacHwTxEnable p.mac false) false
    opened := false }

inductive Call where
  | poll (r : Reading)
  | gmacOpen
  | gmacStop

def Port.after (id : ℕ) (p : Port) : Call → Port
  | .poll r => (gmacLinkHandle id p r).1
  | .gmacOpen => gmacOpen p
  | .gmacStop => gmacStop p

/-- `gmac_priv_init` clears the record, `gmac_chip_init` leaves the MAC switched off, and a new
network device has its carrier on. -/
structure Registered (p : Port) : Prop where
  rx : p.mac.portEn.getLsbD 1 = false
  tx : p.mac.portEn.getLsbD 2 = false
  oldlink : p.oldlink = 0
  oldspeed : p.oldspeed = 0
  oldduplex : p.oldduplex = 0
  opened : p.opened = false
  carrier : p.carrier = true

def system (id : ℕ) : TransitionSystem Port Call :=
  ⟨Registered, fun p c p' => p' = p.after id c⟩

def Enabled (p : Port) : Prop :=
  p.mac.portEn.getLsbD 1 = p.opened ∧ p.mac.portEn.getLsbD 2 = p.opened

/-- The registers hold a mode, and the core was reset after they were written. -/
structure Mac.Holds (mac : Mac) (speed duplex : BitVec 32) : Prop where
  portMode : mac.portMode &&& portModeMask = speed
  duplexType : mac.duplexType &&& portModeMask = duplex
  coreReset : mac.coreReset = true

structure Follows (id : ℕ) (r : Reading) (p : Port) : Prop where
  carrier : p.carrier = true ↔ r.link ≠ 0
  mode : r.link ≠ 0 → gmacCheckSpeedAvailable id r.speed = 0 → p.mac.Holds r.speed r.duplex

def LastReset (p : Port) (r : Reading) : Prop :=
  if p.oldspeed ≠ r.speed ∨ p.oldduplex ≠ r.duplex then r.reset1 = 0
  else p.oldlink ≠ r.link → r.reset0 = 0

/-- A link that stays down has its carrier off already, and the core reset for a mode that the
port can take succeeds. -/
def Followable (id : ℕ) (p : Port) : Call → Prop
  | .poll r => r.linkRet = 0 → r.modeRet = 0 →
      (r.link = 0 → p.oldlink = 0 → p.carrier = false) ∧
      (r.link ≠ 0 → gmacCheckSpeedAvailable id r.speed = 0 → LastReset p r)
  | .gmacOpen | .gmacStop => True

variable {id : ℕ} {mac : Mac} {speed duplex link : BitVec 32} {reset : ℤ} {running : Bool}
  {p : Port} {r : Reading}

theorem setField_and (reg mask val : BitVec 32) : setField reg mask val &&& mask = val &&& mask := by
  apply BitVec.eq_of_getLsbD_eq
  intro i hi
  simp only [setField, BitVec.getLsbD_and, BitVec.getLsbD_or, BitVec.getLsbD_not]
  cases mask.getLsbD i <;> simp

@[simp] theorem rxEnable_rx (en : Bool) : (gmacHwRxEnable mac en).portEn.getLsbD 1 = en := by
  cases en <;> simp [gmacHwRxEnable, setField]

@[simp] theorem rxEnable_tx (en : Bool) :
    (gmacHwRxEnable mac en).portEn.getLsbD 2 = mac.portEn.getLsbD 2 := by
  cases en <;> simp [gmacHwRxEnable, setField]

@[simp] theorem txEnable_rx (en : Bool) :
    (gmacHwTxEnable mac en).portEn.getLsbD 1 = mac.portEn.getLsbD 1 := by
  cases en <;> simp [gmacHwTxEnable, setField]

@[simp] theorem txEnable_tx (en : Bool) : (gmacHwTxEnable mac en).portEn.getLsbD 2 = en := by
  cases en <;> simp [gmacHwTxEnable, setField]

theorem enable_holds_iff (rx tx : Bool) :
    (gmacHwTxEnable (gmacHwRxEnable mac rx) tx).Holds speed duplex ↔ mac.Holds speed duplex :=
  ⟨fun h => ⟨h.portMode, h.duplexType, h.coreReset⟩,
    fun h => ⟨h.portMode, h.duplexType, h.coreReset⟩⟩

theorem fits_of_available (h : gmacCheckSpeedAvailable id speed = 0) :
    speed ≤ mac1000mSgmii ∧ speed &&& portModeMask = speed := by
  have hmode : speed = mac100mMii ∨ speed = mac10mMii ∨ speed = mac10mSgmii ∨
      speed = mac100mSgmii ∨ speed = mac1000mSgmii := by
    by_contra hnone
    simp only [not_or] at hnone
    obtain ⟨h1, h2, h3, h4, h5⟩ := hnone
    simp [gmacCheckSpeedAvailable, h1, h2, h3, h4, h5, einval] at h
  rcases hmode with rfl | rfl | rfl | rfl | rfl <;> decide

theorem duplex_and (h : duplex ≤ gmacDuplexFull) : duplex &&& portModeMask = duplex := by
  have hmode : duplex = 0 ∨ duplex = 1 := by
    have hnat : duplex.toNat ≤ 1 := h
    rcases Nat.le_one_iff_eq_zero_or_eq_one.mp hnat with hzero | hone
    · exact Or.inl (BitVec.eq_of_toNat_eq hzero)
    · exact Or.inr (BitVec.eq_of_toNat_eq hone)
  rcases hmode with rfl | rfl <;> decide

structure Programmed (mac : Mac) (speed duplex : BitVec 32) (reset : ℤ) (enabled : Bool) : Prop where
  rx : mac.portEn.getLsbD 1 = enabled
  tx : mac.portEn.getLsbD 2 = enabled
  holds_iff : mac.Holds speed duplex ↔ reset = 0

theorem setPortMode_programmed (hspeed : gmacCheckSpeedAvailable id speed = 0)
    (hduplex : duplex ≤ gmacDuplexFull) :
    Programmed (gmacHwSetPortMode mac speed duplex reset).1 speed duplex reset false := by
  obtain ⟨hle, hfits⟩ := fits_of_available hspeed
  unfold gmacHwSetPortMode
  rw [if_neg (BitVec.not_lt.mpr hle), if_neg (BitVec.not_lt.mpr hduplex)]
  simp only []
  by_cases hreset : reset = 0
  · rw [if_neg (not_not.mpr hreset)]
    refine ⟨?_, txEnable_tx false, fun _ => hreset, fun _ => ⟨?_, ?_, rfl⟩⟩
    · exact (txEnable_rx false).trans (rxEnable_rx false)
    · exact (setField_and _ _ _).trans hfits
    · exact (setField_and _ _ _).trans (duplex_and hduplex)
  · rw [if_pos hreset]
    refine ⟨?_, txEnable_tx false, fun h => ?_, fun h => absurd h hreset⟩
    · exact (txEnable_rx false).trans (rxEnable_rx false)
    · exact absurd h.coreReset Bool.false_ne_true

theorem adjustlink_programmed (hspeed : gmacCheckSpeedAvailable id speed = 0)
    (hduplex : duplex ≤ gmacDuplexFull) (hlink : link ≠ 0) :
    Programmed (gmacAdjustlink id mac running speed duplex link reset).1 speed duplex reset
      running := by
  have hset : Programmed (gmacHwSetPortMode mac speed duplex reset).1 speed duplex reset false :=
    setPortMode_programmed hspeed hduplex
  unfold gmacAdjustlink
  rw [if_neg (BitVec.not_lt.mpr hduplex), if_neg (not_not.mpr hspeed)]
  simp only []
  cases running with
  | false =>
    rw [if_neg (fun h => Bool.false_ne_true h.2)]
    exact hset
  | true =>
    rw [if_pos ⟨hlink, rfl⟩]
    refine ⟨?_, txEnable_tx true, (enable_holds_iff true true).trans hset.holds_iff⟩
    exact (txEnable_rx true).trans (rxEnable_rx true)

theorem adjustlink_refused (hspeed : gmacCheckSpeedAvailable id speed ≠ 0) :
    (gmacAdjustlink id mac running speed duplex link reset).1 = mac := by
  unfold gmacAdjustlink
  by_cases hduplex : gmacDuplexFull < duplex
  · rw [if_pos hduplex]
  · rw [if_neg hduplex, if_pos hspeed]

theorem followLink_old (id : ℕ) (p : Port) (r : Reading) : (followLink id p r).oldspeed = p.oldspeed ∧
    (followLink id p r).oldduplex = p.oldduplex := by
  unfold followLink
  split
  · split <;> exact ⟨rfl, rfl⟩
  · exact ⟨rfl, rfl⟩

theorem followLink_carrier : (followLink id p r).carrier =
    if p.oldlink ≠ r.link then decide (r.link ≠ 0) else p.carrier := by
  unfold followLink
  by_cases hchanged : p.oldlink ≠ r.link
  · rw [if_pos hchanged, if_pos hchanged]
    by_cases hup : r.link ≠ 0
    · rw [if_pos hup, decide_eq_true hup]
    · rw [if_neg hup, decide_eq_false hup]
  · rw [if_neg hchanged, if_neg hchanged]

theorem followMode_carrier : (followMode id p r).carrier = p.carrier := by
  unfold followMode
  split <;> rfl

theorem adjustlink_enabled (hlink : link ≠ 0) (hduplex : duplex ≤ gmacDuplexFull)
    (h : mac.portEn.getLsbD 1 = running ∧ mac.portEn.getLsbD 2 = running) :
    (gmacAdjustlink id mac running speed duplex link reset).1.portEn.getLsbD 1 = running ∧
      (gmacAdjustlink id mac running speed duplex link reset).1.portEn.getLsbD 2 = running := by
  by_cases hspeed : gmacCheckSpeedAvailable id speed = 0
  · have hprog : Programmed (gmacAdjustlink id mac running speed duplex link reset).1 speed duplex
        reset running := adjustlink_programmed hspeed hduplex hlink
    exact ⟨hprog.rx, hprog.tx⟩
  · rw [adjustlink_refused hspeed]
    exact h

theorem Enabled.followLink (h : Enabled p) : Enabled (followLink id p r) := by
  unfold GmacPort.followLink
  split
  · split
    next hup => exact adjustlink_enabled hup r.duplex_le h
    next => exact h
  · exact h

theorem Enabled.followMode (h : Enabled p) : Enabled (followMode id p r) := by
  unfold GmacPort.followMode
  split
  next hmode => exact adjustlink_enabled hmode.1 r.duplex_le h
  next => exact h

theorem Enabled.after (h : Enabled p) (c : Call) : Enabled (p.after id c) := by
  cases c with
  | poll r =>
    change Enabled (gmacLinkHandle id p r).1
    unfold gmacLinkHandle
    split
    · exact h
    · split
      · exact h
      · have hboth : Enabled (GmacPort.followMode id (GmacPort.followLink id p r) r) :=
          h.followLink.followMode
        exact hboth
  | gmacOpen => exact ⟨rxEnable_rx true, (rxEnable_tx true).trans (txEnable_tx true)⟩
  | gmacStop => exact ⟨rxEnable_rx false, (rxEnable_tx false).trans (txEnable_tx false)⟩

structure Inv (id : ℕ) (p : Port) : Prop where
  carrier : p.oldlink ≠ 0 → p.carrier = true
  mode : p.oldlink ≠ 0 → gmacCheckSpeedAvailable id p.oldspeed = 0 →
    p.mac.Holds p.oldspeed p.oldduplex

theorem linkHandle_eq (hlink : r.linkRet = 0) (hmode : r.modeRet = 0) :
    gmacLinkHandle id p r = ({ followMode id (followLink id p r) r with
      oldlink := r.link
      oldspeed := r.speed
      oldduplex := r.duplex }, 0) := by
  unfold gmacLinkHandle
  rw [if_neg (not_not.mpr hlink), if_neg (not_not.mpr hmode)]

theorem Inv.poll_holds_iff (h : Inv id p) (hup : r.link ≠ 0)
    (hspeed : gmacCheckSpeedAvailable id r.speed = 0) :
    (followMode id (followLink id p r) r).mac.Holds r.speed r.duplex ↔ LastReset p r := by
  obtain ⟨holdspeed, holdduplex⟩ := followLink_old id p r
  unfold followMode LastReset
  rw [holdspeed, holdduplex]
  by_cases hmode : p.oldspeed ≠ r.speed ∨ p.oldduplex ≠ r.duplex
  · rw [if_pos ⟨hup, hmode⟩, if_pos hmode]
    exact (adjustlink_programmed hspeed r.duplex_le hup).holds_iff
  · rw [if_neg (fun hboth => hmode hboth.2), if_neg hmode]
    simp only [not_or, not_not] at hmode
    unfold followLink
    by_cases hchanged : p.oldlink ≠ r.link
    · rw [if_pos hchanged, if_pos hup]
      refine (adjustlink_programmed hspeed r.duplex_le hup).holds_iff.trans ?_
      exact ⟨fun hreset _ => hreset, fun hreset => hreset hchanged⟩
    · -- nothing has changed, and the mode was there before
      rw [if_neg hchanged]
      have hold : p.oldlink ≠ 0 := by
        rw [not_not.mp hchanged]
        exact hup
      have hholds := h.mode hold (by rw [hmode.1]; exact hspeed)
      rw [hmode.1, hmode.2] at hholds
      exact ⟨fun _ hne => absurd hne hchanged, fun _ => hholds⟩

theorem Inv.poll_follows_iff (h : Inv id p) (hlink : r.linkRet = 0) (hmode : r.modeRet = 0) :
    Follows id r (gmacLinkHandle id p r).1 ↔ Followable id p (.poll r) := by
  rw [linkHandle_eq hlink hmode]
  have hcarrier : (followMode id (followLink id p r) r).carrier =
      if p.oldlink ≠ r.link then decide (r.link ≠ 0) else p.carrier :=
    followMode_carrier.trans followLink_carrier
  constructor
  · intro hfollows _ _
    refine ⟨fun hdown hold => ?_, fun hup hspeed => ?_⟩
    · have hsame : ¬ p.oldlink ≠ r.link := not_not.mpr (hold.trans hdown.symm)
      rw [if_neg hsame] at hcarrier
      have hoff : ¬ (followMode id (followLink id p r) r).carrier = true :=
        fun hon => hfollows.carrier.mp hon hdown
      rw [hcarrier] at hoff
      exact Bool.eq_false_iff.mpr hoff
    · exact (h.poll_holds_iff hup hspeed).mp (hfollows.mode hup hspeed)
  · intro hallowed
    obtain ⟨hoff, hreset⟩ := hallowed hlink hmode
    refine ⟨?_, fun hup hspeed => (h.poll_holds_iff hup hspeed).mpr (hreset hup hspeed)⟩
    change (followMode id (followLink id p r) r).carrier = true ↔ r.link ≠ 0
    rw [hcarrier]
    by_cases hchanged : p.oldlink ≠ r.link
    · rw [if_pos hchanged, decide_eq_true_eq]
    · rw [if_neg hchanged]
      rw [not_not] at hchanged
      constructor
      · intro hon hdown
        rw [hoff hdown (hchanged.trans hdown)] at hon
        exact Bool.false_ne_true hon
      · intro hup
        exact h.carrier (by rw [hchanged]; exact hup)

theorem Inv.after {c : Call} (h : Inv id p) (hallowed : Followable id p c) :
    Inv id (p.after id c) := by
  cases c with
  | poll r =>
    change Inv id (gmacLinkHandle id p r).1
    by_cases hlink : r.linkRet = 0
    · by_cases hmode : r.modeRet = 0
      · have hfollows := (h.poll_follows_iff hlink hmode).mpr hallowed
        rw [linkHandle_eq hlink hmode] at hfollows ⊢
        exact ⟨hfollows.carrier.mpr, hfollows.mode⟩
      · unfold gmacLinkHandle
        rw [if_neg (not_not.mpr hlink), if_pos hmode]
        exact h
    · unfold gmacLinkHandle
      rw [if_pos hlink]
      exact h
  | gmacOpen =>
    refine ⟨h.carrier, fun hold hspeed => ?_⟩
    have hholds := h.mode hold hspeed
    exact ⟨hholds.portMode, hholds.duplexType, hholds.coreReset⟩
  | gmacStop =>
    refine ⟨h.carrier, fun hold hspeed => ?_⟩
    have hholds := h.mode hold hspeed
    exact ⟨hholds.portMode, hholds.duplexType, hholds.coreReset⟩

theorem Registered.inv (h : Registered p) : Inv id p :=
  ⟨fun hold => absurd h.oldlink hold, fun hold => absurd h.oldlink hold⟩

theorem Reachable.inv (hreach : ((system id).restrict (Followable id)).Reachable p) : Inv id p :=
  hreach.invariant (fun _ hinit => Registered.inv hinit) fun _ _ _ _ hinv hstep => by
    rw [hstep.2]
    exact hinv.after hstep.1

theorem Reachable.enabled (hreach : (system id).Reachable p) : Enabled p :=
  hreach.invariant (fun _ hinit => ⟨hinit.rx.trans hinit.opened.symm,
    hinit.tx.trans hinit.opened.symm⟩) fun _ c _ _ hinv hstep => by
      rw [hstep]
      exact hinv.after c

/-- The port is enabled as it is open in every run.  A poll that returns 0 leaves the carrier and
the MAC as the PHY is exactly when a link that stays down has its carrier off already and the
core reset succeeds, and until then all polls before did. -/
theorem gmacPort_follows_iff (id : ℕ) :
    (∀ p, (system id).Reachable p → Enabled p) ∧
    ∀ p, ((system id).restrict (Followable id)).Reachable p →
      ∀ r, (gmacLinkHandle id p r).2 = 0 →
        (Follows id r (gmacLinkHandle id p r).1 ↔ Followable id p (.poll r)) := by
  refine ⟨fun _ hreach => Reachable.enabled hreach, fun p hreach r hret => ?_⟩
  have hinv := Reachable.inv hreach
  unfold gmacLinkHandle at hret
  by_cases hlink : r.linkRet = 0
  · by_cases hmode : r.modeRet = 0
    · exact hinv.poll_follows_iff hlink hmode
    · rw [if_neg (not_not.mpr hlink), if_pos hmode] at hret
      exact absurd hret hmode
  · rw [if_pos hlink] at hret
    exact absurd hret hlink

def newPort : Port where
  mac := ⟨0, 1, 1, 1, true⟩
  oldlink := 0
  oldspeed := 0
  oldduplex := 0
  opened := false
  carrier := true

theorem newPort_registered : Registered newPort :=
  ⟨by decide, by decide, rfl, rfl, rfl, rfl, rfl⟩

def reading (link : BitVec 32) (reset0 reset1 : ℤ) : Reading :=
  ⟨0, link, 0, mac100mMii, gmacDuplexFull, by decide, reset0, reset1⟩

theorem gmacPort_follows_up :
    Follows eth0 (reading 1 0 0) (gmacLinkHandle eth0 newPort (reading 1 0 0)).1 :=
  ((gmacPort_follows_iff eth0).2 newPort (.init newPort_registered) (reading 1 0 0) rfl).mpr
    fun _ _ => ⟨fun hdown => absurd hdown (by decide), fun _ _ => rfl⟩

/-- The first poll of a link that is down leaves the carrier on.  After a core reset that failed,
the next poll does not try again. -/
theorem newPort_wrong :
    ((gmacLinkHandle eth0 newPort (reading 0 0 0)).2 = 0 ∧
      ¬ Follows eth0 (reading 0 0 0) (gmacLinkHandle eth0 newPort (reading 0 0 0)).1) ∧
    ∃ p, (system eth0).Reachable p ∧ (gmacLinkHandle eth0 p (reading 1 0 0)).2 = 0 ∧
      ¬ Follows eth0 (reading 1 0 0) (gmacLinkHandle eth0 p (reading 1 0 0)).1 := by
  refine ⟨⟨rfl, fun h => ?_⟩, newPort.after eth0 (.poll (reading 1 (-1) (-1))), ?_, rfl, fun h => ?_⟩
  · exact h.carrier.mp (by decide) (by decide)
  · exact .step (.init newPort_registered) rfl
  · exact absurd (h.mode (by decide) (by decide)).coreReset (by decide)

end HiMpu.GmacPort
