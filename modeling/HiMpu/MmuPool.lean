import HiMpu.MmuTables

/-!
# The pool of the page tables

Whatever the regions are, the setup stores inside the pool only, and its tables
form a tree: each is zeroed when it is created and no two entries lead to one
table.  That takes an aligned pool below 2^48 and regions whose blocks do not
look like tables.  A setup that runs out of the pool fails.
-/

namespace HiMpu.Mmu

open TableFormat

/-- How a loop of the setup ends: with the invariant, or with a failure that leaves `Bad`. -/
inductive Ends (Inv Bad : State → Prop) : State → Option ℤ → Prop
  | running {s : State} (hinv : Inv s) : Ends Inv Bad s none
  | ok {s : State} (hinv : Inv s) : Ends Inv Bad s (some bmOk)
  | fail {s : State} (hbad : Bad s) : Ends Inv Bad s (some bmFail)

theorem Ends.inv_or_fail {Inv Bad : State → Prop} {s : State} {ret : Option ℤ}
    (hends : Ends Inv Bad s ret) : Inv s ∨ ret = some bmFail ∧ Bad s := by
  cases hends with
  | running hinv => exact Or.inl hinv
  | ok hinv => exact Or.inl hinv
  | fail hbad => exact Or.inr ⟨rfl, hbad⟩

/-- One entry keeps the invariant or fails. -/
structure Keeps (ok : MapRegion → Prop) (start : ℕ) (Inv Bad : State → Prop) : Prop where
  startLevel : ∀ s, Inv s → s.ctrl.startLevel = start
  weaken : ∀ s, Inv s → Bad s
  process : ∀ s map virt phys level r, ok map → Inv s → start ≤ level → level ≤ map.maxLevel →
    bmMmuFindPte s virt level ≠ 0 → phys % 4 = map.phys % 4 →
    Process s map (bmMmuFindPte s virt level) phys level r → Ends Inv Bad r.1 (some r.2)

section Runs

variable {ok : MapRegion → Prop} {start : ℕ} {Inv Bad : State → Prop} {map : MapRegion}
  {phys : ℕ} {s : State}

theorem four_dvd_blocksize (g : Granule) (level : ℕ) : 4 ∣ 1 <<< bmMmuLevel2shift g level := by
  rw [Nat.one_shiftLeft]
  have htwo : 2 ≤ bmMmuLevel2shift g level := by
    have hpage : 2 ≤ g.pageBits := by cases g <;> decide
    exact hpage.trans (Nat.le_add_right _ _)
  exact Nat.pow_dvd_pow 2 htwo

theorem Keeps.levelLoop (hkeeps : Keeps ok start Inv Bad) (virt : ℕ) (hok : ok map)
    (hphys : phys % 4 = map.phys % 4) {n : ℕ} :
    ∀ {level : ℕ} {s : State} {blocksize : ℕ}, Inv s → start ≤ level →
      level + n ≤ map.maxLevel + 1 → 4 ∣ blocksize →
      Ends Inv Bad (levelLoop map virt phys n level s blocksize).1
          (some (levelLoop map virt phys n level s blocksize).2.1) ∧
        4 ∣ (levelLoop map virt phys n level s blocksize).2.2 := by
  induction n with
  | zero => exact fun hinv _ _ hblock => ⟨Ends.ok hinv, hblock⟩
  | succ n ih =>
    intro level s blocksize hinv hlow hhigh hblock
    unfold Mmu.levelLoop
    by_cases hnull : bmMmuFindPte s virt level = 0
    · rw [if_pos hnull]
      exact ⟨Ends.fail (hkeeps.weaken s hinv), hblock⟩
    · rw [if_neg hnull]
      have hstep := hkeeps.process s map virt phys level _ hok hinv hlow (by omega) hnull hphys
        (process_cases s map (bmMmuFindPte s virt level) phys level)
      cases hr : bmMmuAddMapPteProcess s map (bmMmuFindPte s virt level) phys level with
      | mk s' ret =>
        rw [hr] at hstep
        dsimp only
        by_cases hret : ret = 0
        · subst hret
          rw [if_neg (by simp)]
          cases hstep with
          | ok hinv' =>
            apply ih hinv' (by omega) (by omega)
            split
            · exact four_dvd_blocksize _ _
            · exact hblock
        · rw [if_pos hret]
          exact ⟨hstep, hblock⟩

theorem Keeps.mapLoop (hkeeps : Keeps ok start Inv Bad) (hok : ok map)
    (hlevel : start < map.maxLevel) (fuel : ℕ) :
    ∀ {s : State} {virt phys mapSize blocksize : ℕ}, Inv s → phys % 4 = map.phys % 4 →
      4 ∣ blocksize →
      Ends Inv Bad (mapLoop map fuel s virt phys mapSize blocksize).1
        (mapLoop map fuel s virt phys mapSize blocksize).2 := by
  induction fuel with
  | zero => exact fun hinv _ _ => Ends.running hinv
  | succ fuel ih =>
    intro s virt phys mapSize blocksize hinv hphys hblock
    unfold Mmu.mapLoop
    by_cases hmore : mapSize < map.size
    · rw [if_pos hmore]
      have hstart := hkeeps.startLevel s hinv
      rw [hstart]
      have hloop := hkeeps.levelLoop virt hok hphys (n := map.maxLevel + 1 - start)
        hinv (le_refl start) (by omega) hblock
      rcases hr : Mmu.levelLoop map virt phys (map.maxLevel + 1 - start) start s blocksize with
        ⟨s', ret, blocksize'⟩
      rw [hr] at hloop
      dsimp only at hloop ⊢
      by_cases hret : ret = 0
      · subst hret
        rw [if_neg (by simp)]
        cases hloop.1 with
        | ok hinv' =>
          exact ih hinv' ((add64_mod_four hloop.2).trans hphys) hloop.2
      · rw [if_pos hret]
        exact hloop.1
    · rw [if_neg hmore]
      exact Ends.ok hinv

theorem Keeps.addMap (hkeeps : Keeps ok start Inv Bad) (hok : ok map) (fuel : ℕ) (hinv : Inv s) :
    Ends Inv Bad (bmMmuAddMap fuel s map).1 (bmMmuAddMap fuel s map).2 := by
  unfold bmMmuAddMap
  split
  case isTrue => exact Ends.fail (hkeeps.weaken s hinv)
  case isFalse hlevel =>
    rw [hkeeps.startLevel s hinv] at hlevel
    exact hkeeps.mapLoop hok (by omega) fuel hinv rfl (Nat.dvd_zero 4)

theorem Keeps.addMaps (hkeeps : Keeps ok start Inv Bad) (fuel : ℕ) {memMap : List MapRegion}
    (hok : ∀ map ∈ memMap, ok map) :
    ∀ {s : State}, Inv s →
      Ends Inv Bad (addMaps fuel s memMap).1 (addMaps fuel s memMap).2 := by
  induction memMap with
  | nil => exact fun hinv => Ends.ok hinv
  | cons map rest ih =>
    intro s hinv
    unfold Mmu.addMaps
    have hmap := hkeeps.addMap (hok map List.mem_cons_self) fuel hinv
    rcases hr : bmMmuAddMap fuel s map with ⟨s', ret⟩
    rw [hr] at hmap
    dsimp only at hmap ⊢
    by_cases hret : ret = some bmOk
    · subst hret
      rw [if_pos rfl]
      cases hmap with
      | ok hinv' => exact ih (fun m hm => hok m (List.mem_cons_of_mem _ hm)) hinv'
    · rw [if_neg hret]
      exact hmap

end Runs

theorem keeps_fits (start : ℕ) :
    Keeps (fun _ => True) start (fun s => s.ctrl.startLevel = start ∧ ¬ s.Exhausted)
      fun _ => True where
  startLevel _ hinv := hinv.1
  weaken _ _ := trivial
  process s map virt phys level r _ hinv _ _ _ _ hprocess := by
    cases hprocess with
    | keep => exact Ends.ok hinv
    | exhausted => exact Ends.fail trivial
    | null => exact Ends.fail trivial
    | table _ _ hfits => exact Ends.ok ⟨hinv.1, hfits⟩
    | leaf => exact Ends.ok hinv

def Store.Inside (lo hi : ℕ) : Store → Prop
  | .word .. => False
  | .zero start len => lo ≤ start ∧ start + len ≤ hi
  | .table pte _ => lo ≤ pte ∧ pte + 8 ≤ hi
  | .leaf pte _ => lo ≤ pte ∧ pte + 8 ≤ hi

instance (lo hi : ℕ) : DecidablePred (Store.Inside lo hi)
  | .word .. => inferInstanceAs (Decidable False)
  | .zero .. => inferInstanceAs (Decidable (_ ∧ _))
  | .table .. => inferInstanceAs (Decidable (_ ∧ _))
  | .leaf .. => inferInstanceAs (Decidable (_ ∧ _))

def Store.target : Store → Option ℕ
  | .table _ target => some target
  | _ => none

/-- What the setup has done to its pool; `first` is the store before the tables. -/
structure PoolSafe (first : Store) (s : State) : Prop where
  stores : ∃ l, s.stores = l ++ [first] ∧
    ∀ e ∈ l, e.Inside s.ctrl.tlbAddr (s.ctrl.tlbAddr + s.ctrl.tlbSize)
  /-- An entry is pointed to a table right after the table was zeroed. -/
  zeroed : ∀ pte table l, (Store.table pte table :: l) <:+ s.stores →
    l.head? = some (.zero table s.ctrl.granule.tableBytes)
  distinct : (s.stores.filterMap Store.target).Nodup
  targets : ∀ table ∈ s.stores.filterMap Store.target, s.ctrl.tlbAddr < table ∧
    table + s.ctrl.granule.tableBytes ≤ s.ctrl.tlbAddr + s.ctrl.tlbSize
  /-- Once there is a root table, the tables are a tree and lie in the pool. -/
  tree : .zero s.ctrl.tlbAddr s.ctrl.granule.tableBytes ∈ s.stores →
    s.format.IsTree s.pte s.ctrl.tlbAddr ∧
      ∀ va k table, s.reach va k = some table → s.ctrl.tlbAddr ≤ table ∧
        table + s.ctrl.granule.tableBytes ≤ s.ctrl.tlbAddr + s.ctrl.tlbSize

def MapRegion.TypeBitClear (map : MapRegion) : Prop :=
  map.maxLevel < 3 → (map.phys ||| map.attrs).testBit 1 = false

instance : DecidablePred MapRegion.TypeBitClear :=
  fun _ => inferInstanceAs (Decidable (_ → _))

structure PoolInv (first : Store) (c : Ctrl) (s : State) : Prop where
  ctrl : s.ctrl = { c with tlbFillptr := s.ctrl.tlbFillptr }
  safe : PoolSafe first s
  tables : Tables s
  below : ∀ table ∈ s.stores.filterMap Store.target,
    table + s.ctrl.granule.tableBytes ≤ s.ctrl.tlbFillptr

section Process

variable {first : Store} {c : Ctrl} {s : State} {p v virt phys level : ℕ} {map : MapRegion}

theorem child_leafValue (hclear : map.TypeBitClear) (hphys : phys % 4 = map.phys % 4)
    (hlow : s.ctrl.startLevel ≤ level) (hlevel : level ≤ 3) (hmax : map.maxLevel ≤ level) :
    s.format.child (level - s.ctrl.startLevel) (leafValue map phys level % 2 ^ 64) = none := by
  apply if_neg
  rintro ⟨hthree, htype⟩
  have hbit : (leafValue map phys level % 2 ^ 64 &&& pteTypeMask).testBit 1 = false := by
    have hphys1 : phys.testBit 1 = map.phys.testBit 1 := by
      rw [Nat.testBit_eq_decide_div_mod_eq, Nat.testBit_eq_decide_div_mod_eq]
      congr 1
      rw [eq_iff_iff]
      omega
    have hblock : leafValue map phys level = phys ||| map.attrs ||| pteTypeBlock := by
      rw [leafValue, if_neg (by omega)]
    have hboth := hclear (by omega)
    rw [Nat.testBit_or, Bool.or_eq_false_iff] at hboth
    rw [hblock, Nat.testBit_and, Nat.testBit_mod_two_pow, Nat.testBit_or, Nat.testBit_or, hphys1,
      hboth.1, hboth.2]
    rfl
  rw [htype] at hbit
  exact absurd hbit (by decide)

/-! ### One entry keeps the pool safe -/

theorem Tables.tree_inside (htab : Tables s) :
    s.format.IsTree s.pte s.ctrl.tlbAddr ∧
      ∀ va k table, s.reach va k = some table → s.ctrl.tlbAddr ≤ table ∧
        table + s.ctrl.granule.tableBytes ≤ s.ctrl.tlbAddr + s.ctrl.tlbSize := by
  refine ⟨htab.tree, fun va k table hreach => ?_⟩
  obtain ⟨hlow, hhigh, -⟩ := htab.inside va k table hreach
  exact ⟨hlow, hhigh.trans htab.top⟩

theorem PoolSafe.grow (hsafe : PoolSafe first s) : PoolSafe first s.grow :=
  ⟨hsafe.stores, hsafe.zeroed, hsafe.distinct, hsafe.targets, hsafe.tree⟩

theorem PoolInv.leaf (hinv : PoolInv first c s) {va k : ℕ} (hslot : s.slotAt va k = some p)
    (hstop : s.format.child k (v % 2 ^ 64) = none) : PoolInv first c (s.store (.leaf p v)) := by
  have htab := hinv.tables.leaf hslot hstop
  have hin := hinv.tables.slot_inside hslot
  have htop := hinv.tables.top
  constructor
  case ctrl => exact hinv.ctrl
  case tables => exact htab
  case below => exact hinv.below
  case safe =>
    constructor
    case stores =>
      obtain ⟨l, hl, hall⟩ := hinv.safe.stores
      refine ⟨.leaf p v :: l, by rw [store_stores, hl]; rfl, ?_⟩
      intro e he
      rcases List.mem_cons.mp he with rfl | he
      · exact ⟨hin.1, hin.2.1.trans htop⟩
      · exact hall e he
    case zeroed =>
      intro pte table l hl
      rcases List.suffix_cons_iff.mp hl with heq | hl
      · cases heq
      · exact hinv.safe.zeroed pte table l hl
    case distinct => exact hinv.safe.distinct
    case targets => exact hinv.safe.targets
    case tree => exact fun _ => htab.tree_inside

theorem PoolInv.addTable (hinv : PoolInv first c s) {va k : ℕ} (hslot : s.slotAt va k = some p)
    (hfits : ¬ s.grow.Exhausted) : PoolInv first c (s.addTable p) := by
  have htab := hinv.tables.addTable hslot hfits
  have hin := hinv.tables.slot_inside hslot
  have htop := hinv.tables.top
  have hroot := hinv.tables.root_below
  have hsize := s.ctrl.granule.tableBytes_pos
  have hgrow := hinv.tables.grow_fillptr
  have hroom := mt hinv.tables.exhausted_iff.mpr hfits
  have htargets : (s.addTable p).stores.filterMap Store.target =
      s.ctrl.tlbFillptr :: s.stores.filterMap Store.target := rfl
  constructor
  case ctrl => rw [addTable_ctrl, State.grow, hinv.ctrl]
  case tables => exact htab
  case below =>
    intro table htable
    rw [htargets] at htable
    rw [addTable_ctrl, hgrow]
    rcases List.mem_cons.mp htable with rfl | htable
    · exact le_rfl
    · exact (hinv.below table htable).trans (Nat.le_add_right _ _)
  case safe =>
    constructor
    case stores =>
      obtain ⟨l, hl, hall⟩ := hinv.safe.stores
      refine ⟨.table p s.ctrl.tlbFillptr ::
        .zero s.ctrl.tlbFillptr s.ctrl.granule.tableBytes :: l, ?_, ?_⟩
      · rw [addTable_stores, zeroed_stores, hl]
        rfl
      · intro e he
        change e.Inside s.ctrl.tlbAddr (s.ctrl.tlbAddr + s.ctrl.tlbSize)
        rcases List.mem_cons.mp he with rfl | he
        · exact ⟨hin.1, hin.2.1.trans htop⟩
        · rcases List.mem_cons.mp he with rfl | he
          · exact ⟨by omega, by omega⟩
          · exact hall e he
    case zeroed =>
      intro pte table l hl
      rw [addTable_stores] at hl
      rcases List.suffix_cons_iff.mp hl with heq | hl
      · cases heq
        rfl
      · rcases List.suffix_cons_iff.mp hl with heq | hl
        · cases heq
        · exact hinv.safe.zeroed pte table l hl
    case distinct =>
      rw [htargets, List.nodup_cons]
      refine ⟨fun hold => ?_, hinv.safe.distinct⟩
      have := hinv.below _ hold
      omega
    case targets =>
      intro table htable
      rw [htargets] at htable
      rcases List.mem_cons.mp htable with rfl | htable
      · change s.ctrl.tlbAddr < _ ∧
          _ + s.ctrl.granule.tableBytes ≤ s.ctrl.tlbAddr + s.ctrl.tlbSize
        exact ⟨by omega, by omega⟩
      · exact hinv.safe.targets table htable
    case tree => exact fun _ => htab.tree_inside

theorem keeps_pool (first : Store) (c : Ctrl) :
    Keeps MapRegion.TypeBitClear c.startLevel (PoolInv first c)
      fun s => s.ctrl = { c with tlbFillptr := s.ctrl.tlbFillptr } ∧ PoolSafe first s where
  startLevel _ hinv := by rw [hinv.ctrl]
  weaken _ hinv := ⟨hinv.ctrl, hinv.safe⟩
  process s map virt phys level r hclear hinv hlow hmax hfound hphys hprocess := by
    have hstart : s.ctrl.startLevel = c.startLevel := by rw [hinv.ctrl]
    rw [← hstart] at hlow
    obtain ⟨hlevel, hslot⟩ := hinv.tables.slotAt_of_findPte hlow hfound
    cases hprocess with
    | keep => exact Ends.ok hinv
    | exhausted =>
      refine Ends.fail ⟨?_, hinv.safe.grow⟩
      rw [State.grow, hinv.ctrl]
    | null _ _ _ hnull =>
      have hroot := hinv.tables.root_below
      have hsize := s.ctrl.granule.tableBytes_pos
      omega
    | table _ _ hfits => exact Ends.ok (hinv.addTable hslot hfits)
    | leaf hleaf =>
      exact Ends.ok (hinv.leaf hslot (child_leafValue hclear hphys hlow hlevel hleaf))

end Process

section Setup

variable {b : Board} {fuel : ℕ} {s : State} {memMap : List MapRegion} {tlbAddr tlbLen : ℕ}
  {g : Granule}

def handOver (b : Board) (g : Granule) : Store :=
  .word b.cpuReleaseMmuTcr (bmMmuGetTcr b.memMapInfo g).1

theorem SetupTables.fits {r : State × Option ℤ} (hrun : SetupTables fuel s memMap r) :
    r.1.Exhausted → r.2 = some bmFail := by
  cases hrun with
  | exhausted => exact fun _ => rfl
  | null => exact fun _ => rfl
  | maps hfits =>
    have hinv : s.zeroed.ctrl.startLevel = s.ctrl.startLevel ∧ ¬ s.zeroed.Exhausted := ⟨rfl, hfits⟩
    intro hfull
    rcases ((keeps_fits s.ctrl.startLevel).addMaps fuel (fun _ _ => trivial) hinv).inv_or_fail
      with hend | hend
    · exact absurd hfull hend.2
    · exact hend.1

theorem setup_fits :
    (bmMmuSetupPgtables b fuel s memMap tlbAddr tlbLen g).1.Exhausted →
      (bmMmuSetupPgtables b fuel s memMap tlbAddr tlbLen g).2 = some bmFail := by
  cases hlevel : startLevelOf g (vaBits b g) with
  | none =>
    rw [setup_of_none hlevel]
    exact fun _ => rfl
  | some start =>
    rw [setup_of_some hlevel]
    exact (setupTables_cases _ _ _).fits

theorem poolSafe_start (start : ℕ) :
    PoolSafe (handOver b g) (setupStart b s tlbAddr tlbLen g start) where
  stores := ⟨[], rfl, fun e he => absurd he List.not_mem_nil⟩
  zeroed pte table l hl := by
    have hword : (setupStart b s tlbAddr tlbLen g start).stores = [handOver b g] := rfl
    rw [hword] at hl
    rcases List.suffix_cons_iff.mp hl with heq | hl
    · cases heq
    · cases List.suffix_nil.mp hl
  distinct := List.nodup_nil
  targets table htable := absurd htable List.not_mem_nil
  tree hzero := absurd (List.mem_singleton.mp hzero) (by simp)

theorem fresh_start (start : ℕ) (halign : g.tableBytes ∣ tlbAddr)
    (hroom : tlbAddr + tlbLen ≤ 2 ^ 48) : Fresh (setupStart b s tlbAddr tlbLen g start) :=
  ⟨rfl, halign, hroom⟩

theorem targets_zeroed {first : Store} (hstores : s.stores = [first])
    (htarget : first.target = none) : s.zeroed.stores.filterMap Store.target = [] := by
  rw [zeroed_stores, hstores, List.filterMap_cons_none rfl, List.filterMap_cons_none htarget,
    List.filterMap_nil]

theorem Fresh.poolInv {first : Store} (hfresh : Fresh s) (hfits : ¬ s.grow.Exhausted)
    (hstores : s.stores = [first]) (htarget : first.target = none)
    (hfirst : ∀ pte table, first ≠ .table pte table) : PoolInv first s.ctrl s.zeroed where
  ctrl := rfl
  tables := hfresh.tables hfits
  below table htable := by
    rw [targets_zeroed hstores htarget] at htable
    exact absurd htable List.not_mem_nil
  safe := by
    have hzeroed : s.zeroed.stores =
        [.zero s.ctrl.tlbFillptr s.ctrl.granule.tableBytes, first] := by
      rw [zeroed_stores, hstores]
    have htop := hfresh.top_of_fits hfits
    constructor
    case stores =>
      refine ⟨[.zero s.ctrl.tlbFillptr s.ctrl.granule.tableBytes], hzeroed, ?_⟩
      intro e he
      rw [List.mem_singleton.mp he, hfresh.fillptr]
      exact ⟨le_rfl, htop⟩
    case zeroed =>
      intro pte table l hl
      rw [hzeroed] at hl
      rcases List.suffix_cons_iff.mp hl with heq | hl
      · cases heq
      · rcases List.suffix_cons_iff.mp hl with heq | hl
        · exact absurd (List.cons.inj heq).1.symm (hfirst pte table)
        · cases List.suffix_nil.mp hl
    case distinct =>
      rw [targets_zeroed hstores htarget]
      exact List.nodup_nil
    case targets =>
      intro table htable
      rw [targets_zeroed hstores htarget] at htable
      exact absurd htable List.not_mem_nil
    case tree => exact fun _ => (hfresh.tables hfits).tree_inside

theorem SetupTables.poolSafe {first : Store} {r : State × Option ℤ}
    (hrun : SetupTables fuel s memMap r) (hfresh : Fresh s) (hstores : s.stores = [first])
    (htarget : first.target = none) (hfirst : ∀ pte table, first ≠ .table pte table)
    (hsafe : PoolSafe first s) (hclear : ∀ map ∈ memMap, map.TypeBitClear) :
    r.1.ctrl = { s.ctrl with tlbFillptr := r.1.ctrl.tlbFillptr } ∧ PoolSafe first r.1 := by
  cases hrun with
  | exhausted => exact ⟨rfl, hsafe.grow⟩
  | null hfits =>
    exact ⟨rfl, (hfresh.poolInv hfits hstores htarget hfirst).safe⟩
  | maps hfits =>
    have hinv := hfresh.poolInv hfits hstores htarget hfirst
    rcases ((keeps_pool first s.ctrl).addMaps fuel hclear hinv).inv_or_fail with hend | hend
    · exact ⟨hend.ctrl, hend.safe⟩
    · exact hend.2

/-- Every store but the hand-over of the control word goes to the pool, and the tables form a
tree; a setup that exhausts the pool fails. -/
theorem setup_poolSafe (b : Board) (fuel : ℕ) (s : State) (memMap : List MapRegion)
    (tlbAddr tlbLen : ℕ) (g : Granule) :
    ((bmMmuSetupPgtables b fuel s memMap tlbAddr tlbLen g).1.Exhausted →
      (bmMmuSetupPgtables b fuel s memMap tlbAddr tlbLen g).2 = some bmFail) ∧
    (g.tableBytes ∣ tlbAddr → tlbAddr + tlbLen ≤ 2 ^ 48 →
      (∀ map ∈ memMap, map.TypeBitClear) →
      (bmMmuSetupPgtables b fuel s memMap tlbAddr tlbLen g).1.ctrl.tlbAddr = tlbAddr ∧
      (bmMmuSetupPgtables b fuel s memMap tlbAddr tlbLen g).1.ctrl.tlbSize = tlbLen ∧
      (bmMmuSetupPgtables b fuel s memMap tlbAddr tlbLen g).1.ctrl.granule = g ∧
      PoolSafe (handOver b g) (bmMmuSetupPgtables b fuel s memMap tlbAddr tlbLen g).1) := by
  refine ⟨setup_fits, fun halign hroom hclear => ?_⟩
  cases hlevel : startLevelOf g (vaBits b g) with
  | none =>
    rw [setup_of_none hlevel]
    exact ⟨rfl, rfl, rfl, poolSafe_start 1⟩
  | some start =>
    rw [setup_of_some hlevel]
    have hrun := (setupTables_cases fuel (setupStart b s tlbAddr tlbLen g start) memMap).poolSafe
      (fresh_start start halign hroom) rfl rfl (fun _ _ => Store.noConfusion)
      (poolSafe_start start) hclear
    rw [hrun.1]
    exact ⟨rfl, rfl, rfl, hrun.2⟩

end Setup

theorem setup_poolSafe_board :
    PoolSafe (handOver libckBoard .g4K)
      (bmMmuSetupPgtables libckBoard 400 (reset fun _ => 0) gMemMapInfo mmuPageBegin 0x8000 .g4K).1 :=
  ((setup_poolSafe libckBoard 400 (reset fun _ => 0) gMemMapInfo mmuPageBegin 0x8000 .g4K).2
    ⟨0x93800, by decide⟩ (by decide) (by decide)).2.2.2

def oddPhys : List MapRegion :=
  [{ virt := 0, phys := 0x5002, size := 1, maxLevel := 2, attrs := 0 },
   { virt := 0, phys := 0, size := 1, maxLevel := 3, attrs := 0 }]

/-- The control word goes outside the pool.  A block with bit 1 set is walked as a table, a pool
at 2^48 loses its upper bits, and in a pool that is not aligned two tables overlap. -/
theorem pool_unsafe :
    (∃ e ∈ (bmMmuSetupPgtables libckBoard 2 (reset fun _ => 0) [] mmuPageBegin 0x8000 .g4K).1.stores,
      ¬ e.Inside mmuPageBegin (mmuPageBegin + 0x8000)) ∧
    (∃ e ∈ (bmMmuSetupPgtables libckBoard 2 (reset fun _ => 0) oddPhys 0x100000 0x10000
        .g4K).1.stores.dropLast,
      ¬ e.Inside 0x100000 0x110000) ∧
    (∃ e ∈ (bmMmuSetupPgtables libckBoard 2 (reset fun _ => 0) oneBlock (2 ^ 48) 0x10000
        .g4K).1.stores.dropLast,
      ¬ e.Inside (2 ^ 48) (2 ^ 48 + 0x10000)) ∧
    ¬ (Mmu.format .g4K 1).IsTree
      (bmMmuSetupPgtables libckBoard 2 (reset fun _ => 0) oneBlock 0x100008 0x10000 .g4K).1.pte 0x100008 := by
  refine ⟨by decide +kernel, by decide +kernel, by decide +kernel, fun htree => ?_⟩
  have hroot := htree.apart 0 1 (511 <<< 30) 0 0x100008 0x101000 (by decide +kernel)
    (by decide +kernel) (by decide +kernel)
  exact absurd hroot.1 (by decide)

end HiMpu.Mmu
