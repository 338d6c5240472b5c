import HiMpu.PcieHost

/-!
# Configuration accesses are exact

What one access does to the spaces of all functions, and to the mode of the
slave interface.  Accesses to the functions below the root port are always
exact.  A read of the root port leaves the interface in DBI mode, and a write
of one or two bytes rewrites its whole word, which clears the status bits that
are pending beside them.
-/

namespace HiMpu.Pcie

variable {F : Fabric} {pp : Port} {c : Hw}

/-! ## The mode of the slave interface -/

@[simp] theorem changeDbiMode_rc (dbi : Bool) : (hisiPcieChangeDbiMode c dbi).rc = c.rc := by
  cases dbi <;> rfl

@[simp] theorem changeDbiMode_fn (dbi : Bool) : (hisiPcieChangeDbiMode c dbi).fn = c.fn := by
  cases dbi <;> rfl

@[simp] theorem changeDbiMode_atu (dbi : Bool) : (hisiPcieChangeDbiMode c dbi).atu = c.atu := by
  cases dbi <;> rfl

@[simp] theorem changeDbiMode_viewport (dbi : Bool) :
    (hisiPcieChangeDbiMode c dbi).viewport = c.viewport := by
  cases dbi <;> rfl

theorem changeDbiMode_on :
    (hisiPcieChangeDbiMode c true).ctrl0.getLsbD 21 = true ∧
      (hisiPcieChangeDbiMode c true).ctrl1.getLsbD 21 = true := by
  simp [hisiPcieChangeDbiMode, pcieScSlvDbiEnable]

theorem changeDbiMode_off : (hisiPcieChangeDbiMode c false).NonDbi := by
  simp [hisiPcieChangeDbiMode, pcieScSlvDbiEnable, Hw.NonDbi]

/-! ## Writes to the root port's registers -/

theorem dmWritel_nonDbi (val reg : ℕ) : (hisiPcieDmWritel F c val reg).NonDbi :=
  changeDbiMode_off

theorem dmWritel_fields (val reg : ℕ) :
    (hisiPcieDmWritel F c val reg).rc = c.rc.storeStatus F.rcStatus reg 4 val ∧
      (hisiPcieDmWritel F c val reg).fn = c.fn ∧
      (hisiPcieDmWritel F c val reg).viewport =
        (if reg = hip02PcieAtuViewport then val else c.viewport) ∧
      (hisiPcieDmWritel F c val reg).atu =
        Function.update c.atu c.viewport ((c.atu c.viewport).set reg val) := by
  have hon := (changeDbiMode_on (c := c)).1
  unfold hisiPcieDmWritel
  simp only [Hw.dmStore, hon, if_true, changeDbiMode_rc, changeDbiMode_fn, changeDbiMode_viewport,
    changeDbiMode_atu]
  simp [Hw.writeRc]

theorem dmReadl_fields (reg : ℕ) :
    (hisiPcieDmReadl c reg).2 = c.rc.load reg 4 ∧ (hisiPcieDmReadl c reg).1.rc = c.rc ∧
      (hisiPcieDmReadl c reg).1.fn = c.fn ∧ ¬ (hisiPcieDmReadl c reg).1.NonDbi := by
  have hon := (changeDbiMode_on (c := c)).2
  refine ⟨?_, changeDbiMode_rc true, changeDbiMode_fn true, ?_⟩
  · simp [hisiPcieDmReadl, Hw.dmLoad, hon]
  · intro hnon
    exact absurd (hon.symm.trans hnon.2) (by decide)

def InAtuWindow (y : ℕ) : Prop := 0x900 ≤ y ∧ y < 0x920

instance (y : ℕ) : Decidable (InAtuWindow y) := by
  unfold InAtuWindow
  infer_instance

theorem writes_frame (ws : List (ℕ × ℕ)) (c : Hw)
    (hin : ∀ w ∈ ws, 0x900 ≤ w.1 ∧ w.1 + 4 ≤ 0x920) :
    (ws.foldl (fun c w => hisiPcieDmWritel F c w.2 w.1) c).fn = c.fn ∧
      ∀ y, ¬ InAtuWindow y →
        (ws.foldl (fun c w => hisiPcieDmWritel F c w.2 w.1) c).rc y = c.rc y := by
  induction ws generalizing c with
  | nil => exact ⟨rfl, fun _ _ => rfl⟩
  | cons w ws ih =>
    obtain ⟨hrc, hfn, -, -⟩ := dmWritel_fields (F := F) (c := c) w.2 w.1
    have hfirst := hin w (List.mem_cons_self ..)
    obtain ⟨hfn', hrc'⟩ := ih (hisiPcieDmWritel F c w.2 w.1)
      fun u hu => hin u (List.mem_cons_of_mem _ hu)
    refine ⟨hfn'.trans hfn, ?_⟩
    intro y hy
    rw [List.foldl_cons, hrc' y hy, hrc]
    unfold InAtuWindow at hy
    exact Mem.storeStatus_outside (by omega)

theorem progOutboundAtu_frame (index type : ℕ) (a : PcieAtuInfo) :
    (hisiPcieProgOutboundAtu F c index type a).NonDbi ∧
      (hisiPcieProgOutboundAtu F c index type a).fn = c.fn ∧
      ∀ y, ¬ InAtuWindow y → (hisiPcieProgOutboundAtu F c index type a).rc y = c.rc y := by
  refine ⟨dmWritel_nonDbi _ _, writes_frame _ c ?_⟩
  intro w hw
  have hreg : w.1 ∈ [0x900, 0x90C, 0x910, 0x914, 0x918, 0x91C, 0x904, 0x908] :=
    List.mem_map_of_mem (f := Prod.fst) hw
  simp only [List.mem_cons, List.not_mem_nil, or_false] at hreg
  omega

def atuRegion (type : ℕ) (a : PcieAtuInfo) : AtuRegion where
  lowerBase := a.cpuAddr % 2 ^ 32
  upperBase := a.cpuAddr / 2 ^ 32
  limit := (a.cpuAddr + a.size + 2 ^ 64 - 1) % 2 ^ 64 % 2 ^ 32
  lowerTarget := a.pciAddr % 2 ^ 32
  upperTarget := a.pciAddr / 2 ^ 32
  cr1 := type
  cr2 := hip02PcieAtuEnable

theorem progOutboundAtu_atu (index type : ℕ) (a : PcieAtuInfo) :
    (hisiPcieProgOutboundAtu F c index type a).atu =
      Function.update c.atu index (atuRegion type a) := by
  have hfields := fun (c : Hw) val reg => dmWritel_fields (F := F) (c := c) val reg
  have hview : ∀ (c : Hw) (val : ℕ),
      (hisiPcieDmWritel F c val hip02PcieAtuViewport).viewport = val ∧
        (hisiPcieDmWritel F c val hip02PcieAtuViewport).atu = c.atu := by
    intro c val
    obtain ⟨-, -, hv, ha⟩ := hfields c val hip02PcieAtuViewport
    refine ⟨by simpa using hv, ha.trans ?_⟩
    exact Function.update_eq_self _ _
  -- After the viewport, every write sets one register of the selected region.
  have hstep : ∀ (c : Hw) (val reg : ℕ) (t : ℕ → AtuRegion) (r : AtuRegion),
      reg ≠ hip02PcieAtuViewport → c.viewport = index → c.atu = Function.update t index r →
      (hisiPcieDmWritel F c val reg).viewport = index ∧
        (hisiPcieDmWritel F c val reg).atu = Function.update t index (r.set reg val) := by
    intro c val reg t r hne hindex hatu
    obtain ⟨-, -, hv, ha⟩ := hfields c val reg
    rw [hv, if_neg hne, ha, hindex, hatu, Function.update_self, Function.update_idem]
    exact ⟨rfl, rfl⟩
  unfold hisiPcieProgOutboundAtu atuWrites
  simp only [List.foldl_cons, List.foldl_nil]
  obtain ⟨hv0, ha0⟩ := hview c index
  have ha0' : (hisiPcieDmWritel F c index hip02PcieAtuViewport).atu =
      Function.update c.atu index (c.atu index) := by rw [ha0, Function.update_eq_self]
  obtain ⟨hv1, ha1⟩ := hstep _ (a.cpuAddr % 2 ^ 32) hip02PcieAtuLowerBase _ _ (by decide) hv0 ha0'
  obtain ⟨hv2, ha2⟩ := hstep _ (a.cpuAddr / 2 ^ 32) hip02PcieAtuUpperBase _ _ (by decide) hv1 ha1
  obtain ⟨hv3, ha3⟩ := hstep _ ((a.cpuAddr + a.size + 2 ^ 64 - 1) % 2 ^ 64 % 2 ^ 32)
    hip02PcieAtuLimit _ _ (by decide) hv2 ha2
  obtain ⟨hv4, ha4⟩ := hstep _ (a.pciAddr % 2 ^ 32) hip02PcieAtuLowerTarget _ _ (by decide) hv3 ha3
  obtain ⟨hv5, ha5⟩ := hstep _ (a.pciAddr / 2 ^ 32) hip02PcieAtuUpperTarget _ _ (by decide) hv4 ha4
  obtain ⟨hv6, ha6⟩ := hstep _ type hip02PcieAtuCr1 _ _ (by decide) hv5 ha5
  obtain ⟨-, ha7⟩ := hstep _ hip02PcieAtuEnable hip02PcieAtuCr2 _ _ (by decide) hv6 ha6
  rw [ha7]
  rfl

/-! ## The addressed bytes -/

structure Aligned (where_ size : ℕ) : Prop where
  size_eq : size = 1 ∨ size = 2 ∨ size = 4
  aligned : where_ % size = 0
  inside : where_ + size ≤ 4096

theorem Aligned.offset {where_ size : ℕ} (h : Aligned where_ size) : where_ % 4 + size ≤ 4 := by
  obtain ⟨hsize, haligned, -⟩ := h
  rcases hsize with rfl | rfl | rfl <;> omega

theorem Aligned.pos {where_ size : ℕ} (h : Aligned where_ size) : 0 < size := by
  rcases h.size_eq with rfl | rfl | rfl <;> decide

theorem selectBytes_load (m : Mem) (base : ℕ) {where_ size : ℕ} (h : Aligned where_ size) :
    selectBytes (m.load (base + (where_ - where_ % 4)) 4) where_ size =
      (m.load (base + where_) size, pcibiosSuccessful) := by
  have hoff := h.offset
  have hpart := Mem.load_div_mod m (base + (where_ - where_ % 4)) (where_ % 4) size 4 hoff
  have haddr : base + (where_ - where_ % 4) + where_ % 4 = base + where_ := by omega
  have hpow : 2 ^ (8 * (where_ % 4)) = 256 ^ (where_ % 4) := by
    rw [pow_mul]
    norm_num
  rw [haddr] at hpart
  unfold selectBytes
  rcases h.size_eq with rfl | rfl | rfl
  · rw [if_pos rfl, Nat.shiftRight_eq_div_pow, hpow, Nat.and_two_pow_sub_one_eq_mod _ 8, ← hpart]
    norm_num
  · rw [if_neg (by decide), if_pos rfl, Nat.shiftRight_eq_div_pow, hpow,
      Nat.and_two_pow_sub_one_eq_mod _ 16, ← hpart]
    norm_num
  · have hzero : where_ % 4 = 0 := by omega
    rw [if_neg (by decide), if_neg (by decide), if_neg (by decide), hzero, Nat.sub_zero]

theorem ofNat_patch_div {v o n val i : ℕ} (hi : i < 4) :
    UInt8.ofNat (patch v o n val / 256 ^ i) =
      if o ≤ i ∧ i < o + n then UInt8.ofNat (val / 256 ^ (i - o))
      else UInt8.ofNat (v / 256 ^ i) := by
  unfold patch
  rw [Mem.ofNat_load_div hi]
  simp only [Mem.store, Nat.zero_add]
  by_cases hin : o ≤ i ∧ i < o + n
  · rw [if_pos hin, if_pos hin]
  · rw [if_neg hin, if_neg hin, if_pos ⟨Nat.zero_le _, hi⟩, Nat.sub_zero]

/-- Writing back a word of which some bytes were replaced is a write of these bytes exactly when
the others hold no pending status bit. -/
theorem storeStatus_patch_iff (status : ℕ → UInt8) (m : Mem) (reg val : ℕ) {o n : ℕ}
    (hfit : o + n ≤ 4) :
    m.storeStatus status reg 4 (patch (m.load reg 4) o n val) =
        m.storeStatus status (reg + o) n val ↔
      ∀ x, reg ≤ x → x < reg + 4 → (x < reg + o ∨ reg + o + n ≤ x) → m x &&& status x = 0 := by
  have hother : ∀ x, reg ≤ x → x < reg + 4 → (x < reg + o ∨ reg + o + n ≤ x) →
      m.storeStatus status reg 4 (patch (m.load reg 4) o n val) x =
        clearByte (status x) (m x) (m x) := by
    intro x hlow hhigh hout
    have hsub : reg + (x - reg) = x := by omega
    rw [Mem.storeStatus_inside hlow hhigh, ofNat_patch_div (by omega), if_neg (by omega),
      Mem.ofNat_load_div (by omega), hsub]
  constructor
  · intro heq x hlow hhigh hout
    have hbyte := congrFun heq x
    rw [hother x hlow hhigh hout, Mem.storeStatus_outside (by omega)] at hbyte
    exact (clearByte_self_iff _ _).mp hbyte
  · intro hclean
    funext x
    by_cases hin : reg ≤ x ∧ x < reg + 4
    · by_cases haddr : x < reg + o ∨ reg + o + n ≤ x
      · rw [hother x hin.1 hin.2 haddr, Mem.storeStatus_outside (by omega)]
        exact (clearByte_self_iff _ _).mpr (hclean x hin.1 hin.2 haddr)
      · have hsub : x - reg - o = x - (reg + o) := by omega
        rw [Mem.storeStatus_inside hin.1 hin.2, ofNat_patch_div (by omega), if_pos (by omega),
          Mem.storeStatus_inside (by omega) (by omega), hsub]
    · rw [Mem.storeStatus_outside (by omega), Mem.storeStatus_outside (by omega)]

/-! ## The two paths -/

theorem cfgReadLocal_spec {where_ size : ℕ} (h : Aligned where_ size) :
    (hisiPcieCfgReadLocal c where_ size).2 = (c.rc.load where_ size, pcibiosSuccessful) ∧
      (hisiPcieCfgReadLocal c where_ size).1.rc = c.rc ∧
      (hisiPcieCfgReadLocal c where_ size).1.fn = c.fn ∧
      ¬ (hisiPcieCfgReadLocal c where_ size).1.NonDbi := by
  obtain ⟨hval, hrest⟩ := dmReadl_fields (c := c) (where_ - where_ % 4)
  refine ⟨?_, hrest⟩
  have hselect := selectBytes_load c.rc 0 h
  rw [Nat.zero_add, Nat.zero_add] at hselect
  unfold hisiPcieCfgReadLocal
  simp only [hval, hselect]

theorem cfgWriteLocal_spec {where_ size : ℕ} (val : ℕ) (h : Aligned where_ size) :
    (hisiPcieCfgWriteLocal F c where_ size val).2 = pcibiosSuccessful ∧
      (hisiPcieCfgWriteLocal F c where_ size val).1.NonDbi ∧
      (hisiPcieCfgWriteLocal F c where_ size val).1.fn = c.fn ∧
      ((hisiPcieCfgWriteLocal F c where_ size val).1.rc =
          c.rc.storeStatus F.rcStatus where_ size val ↔
        ∀ x, where_ - where_ % 4 ≤ x → x < where_ - where_ % 4 + 4 →
          (x < where_ ∨ where_ + size ≤ x) → c.rc x &&& F.rcStatus x = 0) := by
  have hoff := h.offset
  have haddr : where_ - where_ % 4 + where_ % 4 = where_ := by omega
  have hpart : ∀ n, where_ % 4 + n ≤ 4 →
      let r := hisiPcieDmReadl c (where_ - where_ % 4)
      let w := hisiPcieDmWritel F r.1 (patch r.2 (where_ % 4) n val) (where_ - where_ % 4)
      w.NonDbi ∧ w.fn = c.fn ∧ (w.rc = c.rc.storeStatus F.rcStatus where_ n val ↔
        ∀ x, where_ - where_ % 4 ≤ x → x < where_ - where_ % 4 + 4 →
          (x < where_ ∨ where_ + n ≤ x) → c.rc x &&& F.rcStatus x = 0) := by
    intro n hn r w
    obtain ⟨hval, hrc, hfn, -⟩ := dmReadl_fields (c := c) (where_ - where_ % 4)
    obtain ⟨hrc', hfn', -, -⟩ := dmWritel_fields (F := F) (c := r.1)
      (patch r.2 (where_ % 4) n val) (where_ - where_ % 4)
    refine ⟨dmWritel_nonDbi _ _, hfn'.trans hfn, ?_⟩
    have hiff := storeStatus_patch_iff F.rcStatus c.rc (where_ - where_ % 4) val hn
    rw [haddr] at hiff
    have hw : w.rc = c.rc.storeStatus F.rcStatus (where_ - where_ % 4) 4
        (patch (c.rc.load (where_ - where_ % 4) 4) (where_ % 4) n val) := by
      rw [← hval]
      exact hrc'.trans (by rw [hrc])
    rw [hw]
    exact hiff
  unfold hisiPcieCfgWriteLocal
  rcases h.size_eq with rfl | rfl | rfl
  · rw [if_neg (by decide), if_neg (by decide), if_pos rfl]
    exact ⟨rfl, hpart 1 hoff⟩
  · rw [if_neg (by decide), if_pos rfl]
    exact ⟨rfl, hpart 2 hoff⟩
  · rw [if_pos rfl]
    obtain ⟨hrc, hfn, -, -⟩ := dmWritel_fields (F := F) (c := c) val (where_ - where_ % 4)
    have hzero : where_ - where_ % 4 = where_ := by omega
    rw [hzero] at hrc ⊢
    refine ⟨rfl, dmWritel_nonDbi _ _, by simpa [hzero] using hfn, ?_⟩
    constructor
    · intro _ x hlow hhigh hout
      omega
    · intro _
      exact hrc

/-! ## Below the root port -/

/-- A configuration window holds the space of a function and its end stays in its 4 GB. -/
structure WindowOk (base size : ℕ) : Prop where
  large : 4096 ≤ size
  inside : base % 2 ^ 32 + size ≤ 2 ^ 32
  fits : base < 2 ^ 64

theorem cfgTarget_busDevFunc {bus devfn off : ℕ} (hbus : bus < 256) (hoff : off < 4096) :
    cfgTarget ((busDevFunc bus devfn + off) % 2 ^ 64) =
      (⟨bus, pciSlot devfn, pciFunc devfn⟩, off) := by
  have hslot : pciSlot devfn < 32 := Nat.mod_lt _ (by decide)
  have hfunc : pciFunc devfn < 8 := Nat.mod_lt _ (by decide)
  have hor : busDevFunc bus devfn =
      bus * 2 ^ 24 + pciSlot devfn * 2 ^ 19 + pciFunc devfn * 2 ^ 16 := by
    have hinner : (bus % 2 ^ 8) * 2 ^ 24 ||| (pciSlot devfn % 2 ^ 5) * 2 ^ 19 =
        bus * 2 ^ 24 + pciSlot devfn * 2 ^ 19 := by
      rw [Nat.mod_eq_of_lt (by omega), Nat.mod_eq_of_lt (by omega), Nat.mul_comm bus,
        Nat.two_pow_add_eq_or_of_lt (by omega)]
    have houter := Nat.two_pow_add_eq_or_of_lt (i := 19) (b := pciFunc devfn * 2 ^ 16) (by omega)
      (bus * 2 ^ 5 + pciSlot devfn)
    have hshift : 2 ^ 19 * (bus * 2 ^ 5 + pciSlot devfn) =
        bus * 2 ^ 24 + pciSlot devfn * 2 ^ 19 := by ring
    unfold busDevFunc
    rw [hinner, Nat.mod_eq_of_lt (show pciFunc devfn < 2 ^ 3 by omega), ← hshift, ← houter]
  rw [hor]
  unfold cfgTarget
  simp only [Prod.mk.injEq, Bdf.mk.injEq]
  omega

theorem route_prog {type base size bus devfn off : ℕ} (hwindow : WindowOk base size)
    (hbus : bus < 256) (hoff : off < 4096)
    (htype : (type = hip02PcieAtuTypeCfg0 ∧ F.direct bus = true) ∨
      (type = hip02PcieAtuTypeCfg1 ∧ F.direct bus = false)) :
    (hisiPcieProgOutboundAtu F c 1 type ⟨base, busDevFunc bus devfn, size⟩).route F (base + off) =
      some (⟨bus, pciSlot devfn, pciFunc devfn⟩, off) := by
  obtain ⟨hlarge, hinside, hfits⟩ := hwindow
  have hbase : (atuRegion type ⟨base, busDevFunc bus devfn, size⟩).base = base := by
    simp only [AtuRegion.base, atuRegion]
    omega
  have htarget : (atuRegion type ⟨base, busDevFunc bus devfn, size⟩).target =
      busDevFunc bus devfn := by
    simp only [AtuRegion.target, atuRegion]
    omega
  have htranslates : (atuRegion type ⟨base, busDevFunc bus devfn, size⟩).Translates (base + off) := by
    have henable : hip02PcieAtuEnable.testBit 31 = true := by decide
    refine ⟨henable, by omega, ?_⟩
    simp only [atuRegion]
    omega
  have hsub : base + off - base = off := by omega
  unfold Hw.route
  simp only [progOutboundAtu_atu, Function.update_self, if_pos htranslates, AtuRegion.translate,
    hbase, htarget, hsub, cfgTarget_busDevFunc hbus hoff]
  exact if_pos htype

theorem prepared_access {c : Hw} {f : Bdf} {addr off : ℕ} (hmode : c.NonDbi)
    (hroute : c.route F addr = some (f, off)) :
    c.cfgLoad F addr = (c.fn f).load off 4 ∧
      ∀ n val, c.cfgStore F addr n val =
        { c with
          fn := Function.update c.fn f ((c.fn f).storeStatus (F.fnStatus f) off n val) } := by
  obtain ⟨h0, h1⟩ := hmode
  constructor
  · unfold Hw.cfgLoad
    rw [h1, hroute]
    rfl
  · intro n val
    unfold Hw.cfgStore
    rw [h0, hroute]
    rfl

theorem rwOtherConfEnd_frame (pp : Port) (hmode : c.NonDbi) :
    (hisiPcieRwOtherConfEnd F pp c).NonDbi ∧ (hisiPcieRwOtherConfEnd F pp c).fn = c.fn ∧
      ∀ y, ¬ InAtuWindow y → (hisiPcieRwOtherConfEnd F pp c).rc y = c.rc y := by
  unfold hisiPcieRwOtherConfEnd
  by_cases hview : pp.numViewport ≤ viewPortCount
  · rw [if_pos hview]
    exact progOutboundAtu_frame _ _ _
  · rw [if_neg hview]
    exact ⟨hmode, rfl, fun _ _ => rfl⟩

structure Port.WindowsOk (pp : Port) : Prop where
  cfg0 : WindowOk pp.cfg0Base pp.cfg0Size
  cfg1 : WindowOk pp.cfg1Base pp.cfg1Size

structure BusOk (F : Fabric) (pp : Port) (bus : PciBus) : Prop where
  number_lt : bus.number < 256
  direct : F.direct bus.number = decide (bus.parent = pp.rootBusNr)

theorem rwOtherConfPrepare_spec {bus : PciBus} (hwindows : pp.WindowsOk) (hbus : BusOk F pp bus)
    (devfn : ℕ) :
    let r := hisiPcieRwOtherConfPrepare F pp c bus devfn
    r.1.NonDbi ∧ r.1.fn = c.fn ∧ (∀ y, ¬ InAtuWindow y → r.1.rc y = c.rc y) ∧
      ∀ off < 4096, r.1.route F (r.2 + off) =
        some (⟨bus.number, pciSlot devfn, pciFunc devfn⟩, off) := by
  intro r
  have hdirect := hbus.direct
  simp only [r, hisiPcieRwOtherConfPrepare]
  by_cases hparent : bus.parent = pp.rootBusNr
  · rw [if_pos hparent]
    obtain ⟨hmode, hfn, hrc⟩ := progOutboundAtu_frame (F := F) (c := c) 1 hip02PcieAtuTypeCfg0
      ⟨pp.cfg0Base, busDevFunc bus.number devfn, pp.cfg0Size⟩
    exact ⟨hmode, hfn, hrc, fun off hoff => route_prog hwindows.cfg0 hbus.number_lt hoff
      (Or.inl ⟨rfl, by simpa [hparent] using hdirect⟩)⟩
  · rw [if_neg hparent]
    obtain ⟨hmode, hfn, hrc⟩ := progOutboundAtu_frame (F := F) (c := c) 1 hip02PcieAtuTypeCfg1
      ⟨pp.cfg1Base, busDevFunc bus.number devfn, pp.cfg1Size⟩
    exact ⟨hmode, hfn, hrc, fun off hoff => route_prog hwindows.cfg1 hbus.number_lt hoff
      (Or.inr ⟨rfl, by simpa [hparent] using hdirect⟩)⟩

theorem rdOtherConf_spec {bus : PciBus} (devfn : ℕ) {where_ size : ℕ} (hwindows : pp.WindowsOk)
    (hbus : BusOk F pp bus) (h : Aligned where_ size) :
    let r := hisiPcieRdOtherConf F pp c bus devfn where_ size
    r.2 = ((c.fn ⟨bus.number, pciSlot devfn, pciFunc devfn⟩).load where_ size,
        pcibiosSuccessful) ∧
      r.1.NonDbi ∧ r.1.fn = c.fn ∧ ∀ y, ¬ InAtuWindow y → r.1.rc y = c.rc y := by
  intro r
  have hinside := h.inside
  have hpos := h.pos
  obtain ⟨hmode, hfn, hrc, hroute⟩ :=
    rwOtherConfPrepare_spec (c := c) hwindows hbus devfn
  obtain ⟨hmode', hfn', hrc'⟩ := rwOtherConfEnd_frame (F := F) pp hmode
  have hload := (prepared_access hmode (hroute (where_ - where_ % 4) (by omega))).1
  refine ⟨?_, hmode', hfn'.trans hfn, fun y hy => (hrc' y hy).trans (hrc y hy)⟩
  have hselect := selectBytes_load (c.fn ⟨bus.number, pciSlot devfn, pciFunc devfn⟩) 0 h
  rw [Nat.zero_add, Nat.zero_add] at hselect
  simp only [r, hisiPcieRdOtherConf, hload, hfn, hselect]

theorem cfgWrite_eq (c : Hw) (base val : ℕ) {where_ size : ℕ} (h : Aligned where_ size) :
    hisiPcieCfgWrite F c (base + (where_ - where_ % 4)) where_ size val =
      (c.cfgStore F (base + where_) size val, pcibiosSuccessful) := by
  have haligned := h.aligned
  unfold hisiPcieCfgWrite
  rcases h.size_eq with rfl | rfl | rfl
  · have haddr : base + (where_ - where_ % 4) + where_ % 4 = base + where_ := by omega
    rw [if_neg (by decide), if_neg (by decide), if_pos rfl, haddr]
  · have htwo : where_ &&& 2 = where_ % 4 := by
      have hbit : where_ &&& 2 = where_ % 4 &&& 2 := by
        rw [← Nat.and_two_pow_sub_one_eq_mod where_ 2, Nat.and_assoc]
        rfl
      have hcases : where_ % 4 = 0 ∨ where_ % 4 = 2 := by omega
      rcases hcases with hz | hz <;> rw [hbit, hz] <;> rfl
    have haddr : base + (where_ - where_ % 4) + (where_ &&& 2) = base + where_ := by omega
    rw [if_neg (by decide), if_pos rfl, haddr]
  · have haddr : base + (where_ - where_ % 4) = base + where_ := by omega
    rw [if_pos rfl, haddr]

theorem wrOtherConf_spec {bus : PciBus} (devfn val : ℕ) {where_ size : ℕ} (hwindows : pp.WindowsOk)
    (hbus : BusOk F pp bus) (h : Aligned where_ size) :
    let f : Bdf := ⟨bus.number, pciSlot devfn, pciFunc devfn⟩
    let r := hisiPcieWrOtherConf F pp c bus devfn where_ size val
    r.2 = pcibiosSuccessful ∧ r.1.NonDbi ∧
      r.1.fn = Function.update c.fn f ((c.fn f).storeStatus (F.fnStatus f) where_ size val) ∧
      ∀ y, ¬ InAtuWindow y → r.1.rc y = c.rc y := by
  intro f r
  have hinside := h.inside
  have hpos := h.pos
  obtain ⟨hmode, hfn, hrc, hroute⟩ :=
    rwOtherConfPrepare_spec (c := c) hwindows hbus devfn
  have hstore := (prepared_access hmode (hroute where_ (by omega))).2 size val
  have hwrite := cfgWrite_eq (F := F) (hisiPcieRwOtherConfPrepare F pp c bus devfn).1
    (hisiPcieRwOtherConfPrepare F pp c bus devfn).2 val h
  rw [hstore, hfn] at hwrite
  obtain ⟨hmode', hfn', hrc'⟩ := rwOtherConfEnd_frame (F := F)
    (c := { (hisiPcieRwOtherConfPrepare F pp c bus devfn).1 with
      fn := Function.update c.fn f ((c.fn f).storeStatus (F.fnStatus f) where_ size val) })
    pp hmode
  simp only [r, hisiPcieWrOtherConf, hwrite]
  exact ⟨trivial, hmode', hfn', fun y hy => (hrc' y hy).trans (hrc y hy)⟩

/-! ## Accesses -/

structure Access where
  bus : PciBus
  devfn : ℕ
  where_ : ℕ
  size : ℕ
  linkUp : Bool
  value : Option ℕ

def Hw.access (F : Fabric) (pp : Port) (c : Hw) (a : Access) : Hw × ℕ × ℕ :=
  match a.value with
  | none => hipPcieRdConf F pp c a.bus a.devfn a.where_ a.size a.linkUp
  | some val =>
    let r := hipPcieWrConf F pp c a.bus a.devfn a.where_ a.size val a.linkUp
    (r.1, 0, r.2)

namespace Access

variable {a : Access}

def Refused (pp : Port) (a : Access) : Prop :=
  hipPcieValidConfig pp a.bus (pciSlot a.devfn) a.linkUp = false

def Root (pp : Port) (a : Access) : Prop := a.bus.number = pp.rootBusNr

instance (pp : Port) (a : Access) : Decidable (a.Refused pp) :=
  inferInstanceAs (Decidable (_ = _))

instance (pp : Port) (a : Access) : Decidable (a.Root pp) :=
  inferInstanceAs (Decidable (_ = _))

def function (a : Access) : Bdf := ⟨a.bus.number, pciSlot a.devfn, pciFunc a.devfn⟩

def space (pp : Port) (c : Hw) (a : Access) : Mem :=
  if a.Root pp then c.rc else c.fn a.function

def status (F : Fabric) (pp : Port) (a : Access) : ℕ → UInt8 :=
  if a.Root pp then F.rcStatus else F.fnStatus a.function

structure Ok (F : Fabric) (pp : Port) (a : Access) : Prop where
  aligned : Aligned a.where_ a.size
  bus : ¬ a.Root pp → BusOk F pp a.bus

def wanted (F : Fabric) (pp : Port) (c : Hw) (a : Access) : Mem :=
  match a.value with
  | none => a.space pp c
  | some val => (a.space pp c).storeStatus (a.status F pp) a.where_ a.size val

/-- The access of a root port is a write, and the bytes beside it in its word have no status bit
pending. -/
def Harmless (F : Fabric) (pp : Port) (c : Hw) (a : Access) : Prop :=
  ¬ a.Refused pp → a.Root pp → a.value ≠ none ∧
    ∀ x, a.where_ - a.where_ % 4 ≤ x → x < a.where_ - a.where_ % 4 + 4 →
      (x < a.where_ ∨ a.where_ + a.size ≤ x) → c.rc x &&& F.rcStatus x = 0

end Access

/-- An access reads or writes the addressed bytes of the addressed function and nothing else,
or reaches no device, and leaves the slave interface in non-DBI mode. -/
structure Exact (F : Fabric) (pp : Port) (c : Hw) (a : Access) : Prop where
  mode : (c.access F pp a).1.NonDbi
  refused : a.Refused pp → (c.access F pp a).2.2 = pcibiosDeviceNotFound ∧
    (c.access F pp a).1.rc = c.rc ∧ (c.access F pp a).1.fn = c.fn
  code : ¬ a.Refused pp → (c.access F pp a).2.2 = pcibiosSuccessful
  value : ¬ a.Refused pp → a.value = none →
    (c.access F pp a).2.1 = (a.space pp c).load a.where_ a.size
  space : ¬ a.Refused pp → a.space pp (c.access F pp a).1 = a.wanted F pp c
  others : ¬ a.Refused pp → ∀ g, (a.Root pp ∨ g ≠ a.function) →
    (c.access F pp a).1.fn g = c.fn g
  rootPort : ¬ a.Refused pp → ¬ a.Root pp → ∀ y, ¬ InAtuWindow y →
    (c.access F pp a).1.rc y = c.rc y

section Calls

variable {a : Access}

theorem access_refused (hrefused : a.Refused pp) :
    (c.access F pp a).1 = c ∧ (c.access F pp a).2.2 = pcibiosDeviceNotFound := by
  unfold Hw.access
  cases hvalue : a.value with
  | none =>
    have hcall : hipPcieRdConf F pp c a.bus a.devfn a.where_ a.size a.linkUp = _ :=
      if_pos hrefused
    rw [hcall]
    exact ⟨rfl, rfl⟩
  | some val =>
    have hcall : hipPcieWrConf F pp c a.bus a.devfn a.where_ a.size val a.linkUp = _ :=
      if_pos hrefused
    simp only [hcall]
    exact ⟨trivial, trivial⟩

theorem access_root_read (hrefused : ¬ a.Refused pp) (hroot : a.Root pp) (hvalue : a.value = none) :
    c.access F pp a = hisiPcieCfgReadLocal c a.where_ a.size := by
  unfold Hw.access
  rw [hvalue]
  exact (if_neg hrefused).trans (if_neg (not_not_intro hroot))

theorem access_write {val : ℕ} {r : Hw × ℕ} (hvalue : a.value = some val)
    (hcall : hipPcieWrConf F pp c a.bus a.devfn a.where_ a.size val a.linkUp = r) :
    c.access F pp a = (r.1, 0, r.2) := by
  unfold Hw.access
  rw [hvalue]
  simp only [hcall]

theorem access_root_write {val : ℕ} (hrefused : ¬ a.Refused pp) (hroot : a.Root pp)
    (hvalue : a.value = some val) :
    c.access F pp a = ((hisiPcieCfgWriteLocal F c a.where_ a.size val).1, 0,
      (hisiPcieCfgWriteLocal F c a.where_ a.size val).2) :=
  access_write hvalue ((if_neg hrefused).trans (if_neg (not_not_intro hroot)))

theorem access_below_read (hrefused : ¬ a.Refused pp) (hroot : ¬ a.Root pp)
    (hvalue : a.value = none) :
    c.access F pp a = hisiPcieRdOtherConf F pp c a.bus a.devfn a.where_ a.size := by
  unfold Hw.access
  rw [hvalue]
  exact (if_neg hrefused).trans (if_pos hroot)

theorem access_below_write {val : ℕ} (hrefused : ¬ a.Refused pp) (hroot : ¬ a.Root pp)
    (hvalue : a.value = some val) :
    c.access F pp a = ((hisiPcieWrOtherConf F pp c a.bus a.devfn a.where_ a.size val).1, 0,
      (hisiPcieWrOtherConf F pp c a.bus a.devfn a.where_ a.size val).2) :=
  access_write hvalue ((if_neg hrefused).trans (if_pos hroot))

theorem exact_below (hwindows : pp.WindowsOk) (hok : a.Ok F pp) (hrefused : ¬ a.Refused pp)
    (hroot : ¬ a.Root pp) : Exact F pp c a := by
  have hspace : ∀ c : Hw, a.space pp c = c.fn a.function := fun c => if_neg hroot
  have hstatus : a.status F pp = F.fnStatus a.function := if_neg hroot
  cases hvalue : a.value with
  | none =>
    obtain ⟨hresult, hmode, hfn, hrc⟩ := rdOtherConf_spec (c := c) a.devfn hwindows (hok.bus hroot)
      hok.aligned
    have hcall := access_below_read (F := F) (c := c) hrefused hroot hvalue
    refine ⟨?_, fun h => absurd h hrefused, fun _ => ?_, fun _ _ => ?_, fun _ => ?_, ?_, ?_⟩
    · rwa [hcall]
    · rw [hcall, hresult]
    · rw [hcall, hresult, hspace]
      rfl
    · rw [hcall, hspace, hfn]
      simp only [Access.wanted, hvalue, hspace]
    · intro _ g _
      rw [hcall, hfn]
    · intro _ _ y hy
      rw [hcall]
      exact hrc y hy
  | some val =>
    obtain ⟨hresult, hmode, hfn, hrc⟩ := wrOtherConf_spec (c := c) a.devfn val hwindows
      (hok.bus hroot) hok.aligned
    have hcall := access_below_write (F := F) (c := c) hrefused hroot hvalue
    refine ⟨?_, fun h => absurd h hrefused, fun _ => ?_, fun _ hnone => ?_, fun _ => ?_, ?_, ?_⟩
    · rwa [hcall]
    · rw [hcall]
      exact hresult
    · rw [hvalue] at hnone
      cases hnone
    · rw [hcall, hspace]
      simp only [Access.wanted, hvalue, hspace, hstatus]
      rw [hfn]
      exact Function.update_self ..
    · intro _ g hg
      rw [hcall]
      simp only
      rw [hfn]
      exact Function.update_of_ne (hg.resolve_left hroot) ..
    · intro _ _ y hy
      rw [hcall]
      exact hrc y hy

theorem exact_root_iff (hok : a.Ok F pp) (hrefused : ¬ a.Refused pp) (hroot : a.Root pp) :
    Exact F pp c a ↔ a.Harmless F pp c := by
  have hspace : ∀ c : Hw, a.space pp c = c.rc := fun c => if_pos hroot
  have hstatus : a.status F pp = F.rcStatus := if_pos hroot
  cases hvalue : a.value with
  | none =>
    obtain ⟨-, -, -, hmode⟩ := cfgReadLocal_spec (c := c) hok.aligned
    rw [← access_root_read (F := F) hrefused hroot hvalue] at hmode
    constructor
    · intro hexact
      exact absurd hexact.mode hmode
    · intro hharmless
      exact absurd hvalue (hharmless hrefused hroot).1
  | some val =>
    obtain ⟨hresult, hmode, hfn, hiff⟩ := cfgWriteLocal_spec (F := F) (c := c) val
      hok.aligned
    have hcall := access_root_write (F := F) (c := c) hrefused hroot hvalue
    have hwanted : a.wanted F pp c = c.rc.storeStatus F.rcStatus a.where_ a.size val := by
      simp only [Access.wanted, hvalue, hspace, hstatus]
    constructor
    · intro hexact _ _
      refine ⟨by rw [hvalue]; exact Option.some_ne_none _, ?_⟩
      have hstored := hexact.space hrefused
      rw [hspace, hwanted, hcall] at hstored
      exact hiff.mp hstored
    · intro hharmless
      have hstored := hiff.mpr (hharmless hrefused hroot).2
      refine ⟨?_, fun h => absurd h hrefused, fun _ => ?_, fun _ hnone => ?_, fun _ => ?_, ?_,
        fun _ hnot => absurd hroot hnot⟩
      · rwa [hcall]
      · rw [hcall]
        exact hresult
      · rw [hvalue] at hnone
        cases hnone
      · rw [hspace, hwanted, hcall]
        exact hstored
      · intro _ g _
        rw [hcall]
        exact congrFun hfn g

theorem exact_iff (hwindows : pp.WindowsOk) (hok : a.Ok F pp) :
    Exact F pp c a ↔ a.Harmless F pp c ∧ (a.Refused pp → c.NonDbi) := by
  by_cases hrefused : a.Refused pp
  · obtain ⟨hsame, hcode⟩ := access_refused (F := F) (c := c) hrefused
    constructor
    · intro hexact
      refine ⟨fun hnot => absurd hrefused hnot, fun _ => ?_⟩
      have hmode := hexact.mode
      rwa [hsame] at hmode
    · rintro ⟨-, hmode⟩
      have hout : ∀ {p : Prop}, ¬ a.Refused pp → p := fun hnot => absurd hrefused hnot
      exact ⟨by rw [hsame]; exact hmode hrefused, fun _ => ⟨hcode, by rw [hsame], by rw [hsame]⟩,
        hout, hout, hout, hout, hout⟩
  · by_cases hroot : a.Root pp
    · rw [exact_root_iff hok hrefused hroot]
      exact ⟨fun h => ⟨h, fun h' => absurd h' hrefused⟩, fun h => h.1⟩
    · exact ⟨fun _ => ⟨fun _ h => absurd h hroot, fun h => absurd h hrefused⟩,
        fun _ => exact_below hwindows hok hrefused hroot⟩

theorem access_read_value (hwindows : pp.WindowsOk) (hok : a.Ok F pp) (hrefused : ¬ a.Refused pp)
    (hvalue : a.value = none) :
    (c.access F pp a).2.1 = (a.space pp c).load a.where_ a.size := by
  by_cases hroot : a.Root pp
  · have hspace : a.space pp c = c.rc := if_pos hroot
    rw [access_root_read hrefused hroot hvalue, (cfgReadLocal_spec hok.aligned).1, hspace]
  · exact (exact_below hwindows hok hrefused hroot).value hrefused hvalue

end Calls

def Hw.after (F : Fabric) (pp : Port) (c : Hw) (accesses : List Access) : Hw :=
  accesses.foldl (fun c a => (c.access F pp a).1) c

theorem exact_run (hwindows : pp.WindowsOk) (hmode : c.NonDbi) (accesses : List Access)
    (hok : ∀ a ∈ accesses, a.Ok F pp)
    (hharmless : ∀ pre a post, accesses = pre ++ a :: post → a.Harmless F pp (c.after F pp pre)) :
    ∀ pre a post, accesses = pre ++ a :: post → Exact F pp (c.after F pp pre) a := by
  have hmodes : ∀ pre post, accesses = pre ++ post → (c.after F pp pre).NonDbi := by
    intro pre
    induction pre using List.reverseRecOn with
    | nil => exact fun _ _ => hmode
    | append_singleton pre a ih =>
      intro post hsplit
      have hsplit' : accesses = pre ++ a :: post := by simpa using hsplit
      have hexact := (exact_iff hwindows (hok a (by simp [hsplit']))).mpr
        ⟨hharmless pre a post hsplit', fun _ => ih (a :: post) hsplit'⟩
      have hlast : c.after F pp (pre ++ [a]) = ((c.after F pp pre).access F pp a).1 := by
        unfold Hw.after
        rw [List.foldl_append]
        rfl
      rw [hlast]
      exact hexact.mode
  intro pre a post hsplit
  exact (exact_iff hwindows (hok a (by simp [hsplit]))).mpr
    ⟨hharmless pre a post hsplit, fun _ => hmodes pre (a :: post) hsplit⟩

/-- Each access is exact under exactly one condition, a run whose accesses of the root port are
harmless is exact throughout, and what was written to ordinary bytes reads back. -/
theorem config_exact (F : Fabric) (pp : Port) (hwindows : pp.WindowsOk) :
    (∀ c a, a.Ok F pp → (Exact F pp c a ↔ a.Harmless F pp c ∧ (a.Refused pp → c.NonDbi))) ∧
      (∀ c : Hw, c.NonDbi → ∀ accesses : List Access, (∀ a ∈ accesses, a.Ok F pp) →
        (∀ pre a post, accesses = pre ++ a :: post → a.Harmless F pp (c.after F pp pre)) →
        ∀ pre a post, accesses = pre ++ a :: post → Exact F pp (c.after F pp pre) a) ∧
      ∀ (c : Hw) (a : Access) (val : ℕ), a.Ok F pp → ¬ a.Refused pp → a.value = some val →
        Exact F pp c a →
        (∀ x, a.where_ ≤ x → x < a.where_ + a.size → a.status F pp x = 0) →
        ((c.access F pp a).1.access F pp { a with value := none }).2.1 = val % 256 ^ a.size := by
  refine ⟨fun c a hok => exact_iff hwindows hok, fun c hmode => exact_run hwindows hmode, ?_⟩
  intro c a val hok hrefused hvalue hexact hordinary
  have hread := access_read_value (c := (c.access F pp a).1) (a := { a with value := none })
    hwindows ⟨hok.aligned, hok.bus⟩ hrefused rfl
  rw [hread]
  have hspace : ({ a with value := none } : Access).space pp (c.access F pp a).1 =
      a.wanted F pp c := hexact.space hrefused
  rw [hspace]
  simp only [Access.wanted, hvalue]
  exact Mem.load_storeStatus hordinary

/-! ## A status register beside the command register -/

def statusFabric : Fabric where
  rcStatus x := if x = 7 then 0xf9 else 0
  fnStatus _ _ := 0
  direct bus := bus == 1

def statusPort : Port where
  rootBusNr := 0
  cfg0Base := 0xb0000000
  cfg0Size := 0x10000
  cfg1Base := 0xb0010000
  cfg1Size := 0x10000
  memBase := 0xc0000000
  memSize := 0x10000000
  memBusAddr := 0xc0000000
  ioBase := 0
  ioSize := 0
  ioBusAddr := 0
  numViewport := 2

def pendingController : Hw where
  ctrl0 := 0
  ctrl1 := 0
  rc x := if x = 7 then 0x20 else 0
  viewport := 0
  atu _ := ⟨0, 0, 0, 0, 0, 0, 0⟩
  fn _ _ := 0

def commandAccess (size : ℕ) (value : Option ℕ) : Access where
  bus := ⟨0, 0, 0⟩
  devfn := 0
  where_ := 4
  size := size
  linkUp := true
  value := value

/-- Writing the command register clears the pending bit of the status register, and reading it
leaves the interface in DBI mode. -/
theorem commandAccess_inexact :
    statusPort.WindowsOk ∧ pendingController.NonDbi ∧
      (commandAccess 2 (some 0x146)).Ok statusFabric statusPort ∧
      (commandAccess 2 none).Ok statusFabric statusPort ∧
      ¬ Exact statusFabric statusPort pendingController (commandAccess 2 (some 0x146)) ∧
      ¬ Exact statusFabric statusPort pendingController (commandAccess 2 none) := by
  have halign : Aligned 4 2 := ⟨by decide, by decide, by decide⟩
  have hroot : ∀ v, (commandAccess 2 v).Root statusPort := fun _ => rfl
  have hok : ∀ v, (commandAccess 2 v).Ok statusFabric statusPort :=
    fun v => ⟨halign, fun hnot => absurd (hroot v) hnot⟩
  refine ⟨⟨⟨by decide, by decide, by decide⟩, ⟨by decide, by decide, by decide⟩⟩, by decide,
    hok _, hok _, ?_, ?_⟩
  · intro hexact
    have hharmless := (exact_root_iff (hok _) (by decide) (hroot _)).mp hexact
    have hclean := (hharmless (by decide) (hroot _)).2 7 (by decide) (by decide) (by decide)
    exact absurd hclean (by decide)
  · intro hexact
    exact absurd hexact.mode (by decide)

theorem config_exact_word :
    Exact statusFabric statusPort pendingController (commandAccess 4 (some 0x20000146)) ∧
      ∀ pre a post, [commandAccess 4 (some 0x20000146)] = pre ++ a :: post →
        Exact statusFabric statusPort (pendingController.after statusFabric statusPort pre) a := by
  have hwindows : statusPort.WindowsOk :=
    ⟨⟨by decide, by decide, by decide⟩, ⟨by decide, by decide, by decide⟩⟩
  have halign : Aligned 4 4 := ⟨by decide, by decide, by decide⟩
  have hroot : ∀ v, (commandAccess 4 v).Root statusPort := fun _ => rfl
  have hok : ∀ v, (commandAccess 4 v).Ok statusFabric statusPort :=
    fun v => ⟨halign, fun hnot => absurd (hroot v) hnot⟩
  have hharmless : ∀ c : Hw,
      (commandAccess 4 (some 0x20000146)).Harmless statusFabric statusPort c := by
    intro c _ _
    refine ⟨by decide, ?_⟩
    intro x hlow hhigh hout
    simp only [commandAccess] at hlow hhigh hout
    omega
  obtain ⟨hiff, hrun, -⟩ := config_exact statusFabric statusPort hwindows
  refine ⟨(hiff _ _ (hok _)).mpr ⟨hharmless _, fun _ => by decide⟩, ?_⟩
  refine hrun pendingController (by decide) _ ?_ ?_
  · intro a ha
    rw [List.mem_singleton.mp ha]
    exact hok _
  · intro pre a post hsplit
    have hmem : a ∈ [commandAccess 4 (some 0x20000146)] := by
      rw [hsplit]
      exact List.mem_append_right _ (List.mem_cons_self ..)
    rw [List.mem_singleton.mp hmem]
    exact hharmless _

end HiMpu.Pcie
