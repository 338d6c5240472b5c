import HiMpu.Gmac

/-!
# The remembered link mode

`gmac_update_speed_duplex` skips programming the MAC when the mode just read
equals the one it remembers.  It remembers one mode for all four ports.
-/

namespace HiMpu.Gmac

def Fits (mode : Mode) : Prop :=
  mode.1 &&& 0xf = mode.1 ∧ mode.2 &&& 1 = mode.2

instance (mode : Mode) : Decidable (Fits mode) :=
  inferInstanceAs (Decidable (_ ∧ _))

theorem duplexOf_and_one (value : BitVec 32) : duplexOf value &&& 1 = duplexOf value := by
  unfold duplexOf
  split <;> rfl

theorem fits_getSpeedDuplex {phy : PhyInfo} {value : Option (BitVec 32)} {mode : Mode}
    (hread : phy.getSpeedDuplex value = some mode) : Fits mode := by
  have hyt8521 : ∀ v, phyYt8521Speed v &&& 0xf = phyYt8521Speed v := by
    intro v
    unfold phyYt8521Speed
    repeat' split
    all_goals rfl
  have hyt8512 : ∀ v, phyYt8512Speed v &&& 0xf = phyYt8512Speed v := by
    intro v
    unfold phyYt8512Speed
    repeat' split
    all_goals rfl
  cases value with
  | none => cases phy <;> simp [PhyInfo.getSpeedDuplex] at hread
  | some v =>
    cases phy with
    | yt8521 =>
      simp only [PhyInfo.getSpeedDuplex] at hread
      split at hread
      · cases hread
      · cases hread
        exact ⟨hyt8521 v, duplexOf_and_one v⟩
    | yt8512 =>
      cases hread
      exact ⟨hyt8512 v, duplexOf_and_one v⟩

theorem defaultSpeed_and_mask (macNum : ℕ) :
    defaultSpeed macNum &&& 0xf = defaultSpeed macNum := by
  unfold defaultSpeed
  split <;> rfl

theorem fits_getPhySpeedDuplex (priv : GmacDevice) (value : Option (BitVec 32))
    {duplex : BitVec 32} (hduplex : duplex &&& 1 = duplex) :
    Fits (getPhySpeedDuplex priv value duplex) := by
  unfold getPhySpeedDuplex
  split
  next mode hread =>
    obtain ⟨phy, -, hphy⟩ := Option.bind_eq_some_iff.mp hread
    exact fits_getSpeedDuplex hphy
  next => exact ⟨defaultSpeed_and_mask _, hduplex⟩

theorem regReadWrite_and_mask (value mask val : BitVec 32) :
    regReadWrite value mask val &&& mask = val &&& mask := by
  apply BitVec.eq_of_getLsbD_eq
  intro i _
  rw [BitVec.getLsbD_and, BitVec.getLsbD_and, getLsbD_regReadWrite]
  cases mask.getLsbD i <;> simp

theorem mode_setPortMode (mac : Mac) (mode duplex : BitVec 32) :
    (gmacHwStart (gmacHwSetPortMode mac mode duplex)).mode = (mode &&& 0xf, duplex &&& 1) :=
  Prod.ext (regReadWrite_and_mask _ _ _) (regReadWrite_and_mask _ _ _)

theorem mode_setPortMode_of_fits {mode : Mode} (mac : Mac) (hfits : Fits mode) :
    (gmacHwStart (gmacHwSetPortMode mac mode.1 mode.2)).mode = mode := by
  rw [mode_setPortMode, hfits.1, hfits.2]

structure LinkInv (s : State) : Prop where
  linkMode : ∀ eth, (s.port eth).dev.linkMode &&& 1 = (s.port eth).dev.linkMode
  held : ∀ eth, s.holder = some eth → (s.port eth).mac.mode = (s.oldSpeed, s.oldMode)

theorem fits_updateMode {s : State} (hinv : LinkInv s) (eth : ℕ) (r : PhyReading) :
    Fits (updateMode s eth r) :=
  fits_getPhySpeedDuplex _ _ (hinv.linkMode eth)

theorem linkInv_powerOn : LinkInv powerOn where
  linkMode _ := BitVec.zero_and
  held eth h := by cases h

theorem linkMode_setPort {s : State} {eth : ℕ} {p : Port} (hinv : LinkInv s)
    (hlink : p.dev.linkMode &&& 1 = p.dev.linkMode) (eth' : ℕ) :
    ((s.setPort eth p).port eth').dev.linkMode &&& 1 =
      ((s.setPort eth p).port eth').dev.linkMode := by
  by_cases heq : eth' = eth
  · subst heq
    simp only [State.setPort, Function.update_self]
    exact hlink
  · simp only [State.setPort, Function.update_of_ne heq]
    exact hinv.linkMode eth'

theorem LinkInv.setPort {s : State} {eth : ℕ} {p : Port} (hinv : LinkInv s)
    (hlink : p.dev.linkMode &&& 1 = p.dev.linkMode)
    (hheld : s.holder = some eth → p.mac.mode = (s.oldSpeed, s.oldMode)) :
    LinkInv (s.setPort eth p) := by
  refine ⟨linkMode_setPort hinv hlink, ?_⟩
  intro eth' hholder
  by_cases heq : eth' = eth
  · subst heq
    simp only [State.setPort, Function.update_self]
    exact hheld hholder
  · simp only [State.setPort, Function.update_of_ne heq]
    exact hinv.held eth' hholder

theorem LinkInv.setPort_same {s : State} {eth : ℕ} {p : Port} (hinv : LinkInv s)
    (hmode : p.mac.mode = (s.port eth).mac.mode)
    (hlink : p.dev.linkMode = (s.port eth).dev.linkMode) : LinkInv (s.setPort eth p) := by
  apply hinv.setPort
  · rw [hlink]
    exact hinv.linkMode eth
  · intro hholder
    rw [hmode]
    exact hinv.held eth hholder

theorem LinkInv.release {s : State} (hinv : LinkInv s) (eth : ℕ) : LinkInv (s.release eth) := by
  refine ⟨hinv.linkMode, ?_⟩
  intro eth' hholder
  simp only [State.release] at hholder
  split at hholder
  · cases hholder
  · exact hinv.held eth' hholder

theorem holder_release (s : State) (eth : ℕ) : (s.release eth).holder ≠ some eth := by
  simp only [State.release]
  split
  · simp
  · assumption

theorem LinkInv.update {s : State} (hinv : LinkInv s) (eth : ℕ) (r : PhyReading) :
    LinkInv (gmacUpdateSpeedDuplex s eth r).1 := by
  have hfits := fits_updateMode hinv eth r
  unfold gmacUpdateSpeedDuplex
  split
  next => exact hinv
  next status _ =>
    simp only
    split
    next => exact hinv.setPort hfits.2 (hinv.held eth)
    next =>
      refine ⟨linkMode_setPort hinv hfits.2, ?_⟩
      intro eth' hholder
      obtain rfl : eth = eth' := Option.some.inj hholder
      simp only [State.setPort, Function.update_self]
      exact mode_setPortMode_of_fits _ hfits

theorem sendData_link (p : Port) (packet : List UInt8) :
    (gmacNetSendData p packet).1.mac.mode = p.mac.mode ∧
      (gmacNetSendData p packet).1.dev.linkMode = p.dev.linkMode := by
  unfold gmacNetSendData
  simp only
  split <;> exact ⟨rfl, rfl⟩

theorem receiveData_link (p : Port) :
    (gmacNetReceiveData p).1.mac.mode = p.mac.mode ∧
      (gmacNetReceiveData p).1.dev.linkMode = p.dev.linkMode := by
  unfold gmacNetReceiveData
  simp only
  repeat' split
  all_goals exact ⟨rfl, rfl⟩

theorem arrive_link {p p' : Port} {frame : List UInt8} (hstep : p.arrive frame = some p') :
    p'.mac.mode = p.mac.mode ∧ p'.dev.linkMode = p.dev.linkMode := by
  unfold Port.arrive at hstep
  split at hstep
  · cases hstep
  · split at hstep
    · cases hstep
    · cases hstep
      exact ⟨rfl, rfl⟩

theorem fetch_link {p p' : Port} (hstep : p.fetch = some p') :
    p'.mac.mode = p.mac.mode ∧ p'.dev.linkMode = p.dev.linkMode := by
  unfold Port.fetch at hstep
  split at hstep
  · cases hstep
  · cases hstep
    exact ⟨rfl, rfl⟩

theorem ethStart_linkMode (p : Port) (env : InitEnv) :
    (gmacEthStart p env).1.dev.linkMode = p.dev.linkMode := by
  have hphy : (gmacPhyInit p env.phyId).1.dev.linkMode = p.dev.linkMode := by
    unfold gmacPhyInit
    split <;> rfl
  unfold gmacEthStart
  simp only
  split
  · exact hphy
  · split
    · exact hphy
    · split
      · exact hphy
      · have heth : (gmacEthInit (gmacPhyInit p env.phyId).1 env).1.dev.linkMode =
            (gmacPhyInit p env.phyId).1.dev.linkMode := by
          unfold gmacEthInit
          simp only
          repeat' split
          all_goals rfl
        split <;> exact heth.trans hphy

theorem initRing_linkMode (p : Port) : (gmacInitRing p).dev.linkMode = p.dev.linkMode := by
  unfold gmacInitRing
  split <;> rfl

theorem netInitPort_linkMode (p : Port) (eth phyAddr : ℕ) (env : InitEnv) :
    (netInitPort p eth phyAddr env).1.dev.linkMode = p.dev.linkMode := by
  have hstart : ∀ q : Port, q.dev.linkMode = p.dev.linkMode →
      (gmacEthStart (gmacInitRing q) env).1.dev.linkMode = p.dev.linkMode := by
    intro q hlink
    rw [ethStart_linkMode, initRing_linkMode, hlink]
  unfold netInitPort
  simp only
  split
  · exact hstart _ rfl
  · split
    · exact hstart _ rfl
    · exact hstart _ rfl

theorem LinkInv.init {B : Board} {s : State} (hinv : LinkInv s) (eth phyAddr : ℕ)
    (env : InitEnv) : LinkInv (bmNetInit B s eth phyAddr env).1 := by
  unfold bmNetInit
  split
  · exact hinv
  · split
    · exact hinv
    · apply (hinv.release eth).setPort
      · rw [netInitPort_linkMode]
        exact hinv.linkMode eth
      · -- Whatever the call writes, the port is not the holder any more.
        intro hholder
        exact absurd hholder (holder_release s eth)

theorem linkInv_next {B : Board} {s s' : State} {a : Action} (hinv : LinkInv s)
    (hstep : next B s a = some s') : LinkInv s' := by
  cases a with
  | init eth phyAddr env =>
    cases hstep
    exact hinv.init eth phyAddr env
  | send eth packet length mem env =>
    cases hstep
    have hupdate := hinv.update eth env.reading
    unfold bmNetSend
    split
    · exact hinv
    · simp only
      split
      · exact hupdate
      · split
        · exact hupdate
        · exact hupdate.setPort_same (sendData_link _ _).1 (sendData_link _ _).2
  | receive eth args env =>
    cases hstep
    have hupdate := hinv.update eth env.reading
    unfold bmNetReceive
    simp only
    split
    · exact hinv
    · split
      · exact hupdate
      · split
        · exact hupdate
        · exact hupdate.setPort_same (receiveData_link _).1 (receiveData_link _).2
  | arrive eth frame =>
    obtain ⟨p, hp, rfl⟩ := Option.map_eq_some_iff.mp hstep
    exact hinv.setPort_same (arrive_link hp).1 (arrive_link hp).2
  | fetch eth =>
    obtain ⟨p, hp, rfl⟩ := Option.map_eq_some_iff.mp hstep
    exact hinv.setPort_same (fetch_link hp).1 (fetch_link hp).2

theorem linkInv_of_reachable {B : Board} {s : State} (hreach : (system B).Reachable s) :
    LinkInv s := by
  apply hreach.invariant
  · rintro s rfl
    exact linkInv_powerOn
  · intro s a s' _ hinv hstep
    exact linkInv_next hinv hstep

def Skips (s : State) (eth : ℕ) (r : PhyReading) : Prop :=
  updateMode s eth r = (s.oldSpeed, s.oldMode)

/-- A successful update leaves the MAC of its port in the mode just read, unless
it skips and the registers do not hold the remembered mode.  They do hold it
when the port is the one the mode was remembered for. -/
theorem update_programs_mode_iff {B : Board} {s : State} {eth : ℕ} {r : PhyReading}
    (hreach : (system B).Reachable s) (hok : (gmacUpdateSpeedDuplex s eth r).2 = bmOk) :
    (((gmacUpdateSpeedDuplex s eth r).1.port eth).mac.mode = updateMode s eth r ↔
        (Skips s eth r → (s.port eth).mac.mode = (s.oldSpeed, s.oldMode))) ∧
      (s.holder = some eth → (s.port eth).mac.mode = (s.oldSpeed, s.oldMode)) := by
  have hinv := linkInv_of_reachable hreach
  refine ⟨?_, hinv.held eth⟩
  have hfits := fits_updateMode hinv eth r
  unfold Skips
  unfold gmacUpdateSpeedDuplex at hok ⊢
  split at hok
  next => cases hok
  next status _ =>
    simp only at hok ⊢
    split at hok
    next hskip =>
      have hpair : updateMode s eth r = (s.oldSpeed, s.oldMode) := Prod.ext hskip.1 hskip.2.1
      simp only [if_pos hskip, State.setPort, Function.update_self]
      rw [hpair]
      exact ⟨fun h _ => h, fun h => h rfl⟩
    next hskip =>
      have hup : status = phyLinkUp := by
        by_contra hdown
        rw [if_neg hdown] at hok
        cases hok
      have hnot : updateMode s eth r ≠ (s.oldSpeed, s.oldMode) := by
        intro hpair
        exact hskip ⟨congrArg Prod.fst hpair, congrArg Prod.snd hpair, hup⟩
      simp only [if_neg hskip, State.setPort, Function.update_self]
      exact ⟨fun _ h => absurd h hnot, fun _ => mode_setPortMode_of_fits _ hfits⟩

def port2Followed : State :=
  (TransitionSystem.runSteps (next openBoard) powerOn
    [.init 2 1 goodInit, .init 3 2 goodInit, .receive 2 true ⟨up100Full, true⟩]).get
    (by decide +kernel)

theorem port2Followed_reachable : (system openBoard).Reachable port2Followed := by
  have hstart : (system openBoard).Reachable powerOn := TransitionSystem.Reachable.init rfl
  exact hstart.runSteps (l := [.init 2 1 goodInit, .init 3 2 goodInit,
    .receive 2 true ⟨up100Full, true⟩]) (Option.some_get _).symm

theorem port2_keeps_mode :
    (gmacUpdateSpeedDuplex port2Followed 2 up100Full).2 = bmOk ∧
      ((gmacUpdateSpeedDuplex port2Followed 2 up100Full).1.port 2).mac.mode =
        updateMode port2Followed 2 up100Full := by
  have hok : (gmacUpdateSpeedDuplex port2Followed 2 up100Full).2 = bmOk := by decide +kernel
  obtain ⟨hiff, hheld⟩ := update_programs_mode_iff port2Followed_reachable hok
  have hholder : port2Followed.holder = some 2 := by decide +kernel
  exact ⟨hok, hiff.mpr fun _ => hheld hholder⟩

/-- Port 3 reads 100 Mbit/s and finds it remembered, while its MAC still runs at
1000 Mbit/s. -/
theorem port3_skipped :
    (system openBoard).Reachable port2Followed ∧
      (gmacUpdateSpeedDuplex port2Followed 3 up100Full).2 = bmOk ∧
      updateMode port2Followed 3 up100Full = (mac100mSgmii, gmacDuplexFull) ∧
      ((gmacUpdateSpeedDuplex port2Followed 3 up100Full).1.port 3).mac.mode =
        (mac1000mSgmii, gmacDuplexFull) ∧
      ((gmacUpdateSpeedDuplex port2Followed 3 up100Full).1.port 3).mac.mode ≠
        updateMode port2Followed 3 up100Full := by
  refine ⟨port2Followed_reachable, ?_, ?_, ?_, ?_⟩
  all_goals decide +kernel

end HiMpu.Gmac
