import HiMpu.Mmu
import HiMpu.TableTree

/-!
# The shape of the page tables

The tables of the pool are the tables of a lookup by virtual address.  They are
aligned, lie below the fill pointer and form a tree; creating a table and
storing a block or a page keep that.
-/

namespace HiMpu.Mmu

open TableFormat

def Granule.tableBytes (g : Granule) : ℕ := g.maxPteEntries * 8

def Granule.index (g : Granule) (level addr : ℕ) : ℕ :=
  addr >>> bmMmuLevel2shift g level &&& g.indexMask

variable {g : Granule}

theorem Granule.tableBytes_eq (g : Granule) : g.tableBytes = 2 ^ g.pageBits := by
  cases g <;> rfl

theorem Granule.eight_dvd_tableBytes (g : Granule) : 8 ∣ g.tableBytes :=
  ⟨g.maxPteEntries, Nat.mul_comm _ _⟩

theorem Granule.tableBytes_pos (g : Granule) : 0 < g.tableBytes := by
  cases g <;> decide

theorem Granule.index_eq (g : Granule) (level addr : ℕ) :
    g.index level addr = addr / 2 ^ bmMmuLevel2shift g level % 2 ^ g.levelBits := by
  have hmask : g.indexMask = 2 ^ g.levelBits - 1 := by cases g <;> rfl
  rw [Granule.index, hmask, Nat.and_two_pow_sub_one_eq_mod, Nat.shiftRight_eq_div_pow]

theorem Granule.index_lt (g : Granule) (level addr : ℕ) :
    8 * g.index level addr + 8 ≤ g.tableBytes := by
  have hlt : g.index level addr < 2 ^ g.levelBits := by
    rw [g.index_eq]
    exact Nat.mod_lt _ (by positivity)
  have hsize : g.tableBytes = 8 * 2 ^ g.levelBits := by cases g <;> rfl
  omega

theorem Granule.tableAddrMark_eq (g : Granule) :
    g.tableAddrMark = (2 ^ (48 - g.pageBits) - 1) <<< g.pageBits := by
  cases g <;> rfl

theorem Granule.table_and_mark {t : ℕ} (ht : g.tableBytes ∣ t) (hlt : t < 2 ^ 48) :
    (pteTypeTable ||| t) &&& g.tableAddrMark = t := by
  rw [g.tableAddrMark_eq]
  rw [g.tableBytes_eq] at ht
  apply Nat.eq_of_testBit_eq
  intro i
  have hpage : 2 ≤ g.pageBits ∧ g.pageBits ≤ 48 := by cases g <;> decide
  have hthree : pteTypeTable = 2 ^ 2 - 1 := rfl
  rw [Nat.testBit_and, Nat.testBit_or, Nat.testBit_shiftLeft, Nat.testBit_two_pow_sub_one, hthree,
    Nat.testBit_two_pow_sub_one]
  by_cases hlow : i < g.pageBits
  · obtain ⟨x, rfl⟩ := ht
    have hzero : (2 ^ g.pageBits * x).testBit i = false := by
      rw [Nat.testBit_two_pow_mul]
      simp only [decide_eq_false (by omega : ¬ g.pageBits ≤ i), Bool.false_and]
    simp only [hzero, decide_eq_false (by omega : ¬ i ≥ g.pageBits), Bool.false_and, Bool.and_false]
  · by_cases hhigh : i < 48
    · simp only [decide_eq_true (by omega : i ≥ g.pageBits), decide_eq_false (by omega : ¬ i < 2),
        decide_eq_true (by omega : i - g.pageBits < 48 - g.pageBits), Bool.false_or, Bool.and_true]
    · have hzero : t.testBit i = false := by
        apply Nat.testBit_lt_two_pow
        exact hlt.trans_le (Nat.pow_le_pow_right (by omega) (by omega))
      simp only [hzero, decide_eq_false (by omega : ¬ i < 2), Bool.or_false, Bool.false_and]

/-- The lookups that start at level `start`: tables by address, keys are virtual addresses.  An
entry of level 3 leads to no table, whatever its type. -/
def format (g : Granule) (start : ℕ) : TableFormat ℕ ℕ ℕ ℕ ℕ where
  index k va := g.index (start + k) va
  slot t i := t + 8 * i
  child k e :=
    if start + k < 3 ∧ e &&& pteTypeMask = pteTypeTable then some (e &&& g.tableAddrMark) else none

def State.format (s : State) : TableFormat ℕ ℕ ℕ ℕ ℕ :=
  Mmu.format s.ctrl.granule s.ctrl.startLevel

def State.reach (s : State) (va k : ℕ) : Option ℕ := s.format.reach s.pte s.ctrl.tlbAddr va k

def State.slotAt (s : State) (va k : ℕ) : Option ℕ := s.format.slotAt s.pte s.ctrl.tlbAddr va k

structure Tables (s : State) : Prop where
  tree : s.format.IsTree s.pte s.ctrl.tlbAddr
  inside : ∀ va k t, s.reach va k = some t →
    s.ctrl.tlbAddr ≤ t ∧ t + s.ctrl.granule.tableBytes ≤ s.ctrl.tlbFillptr ∧
      s.ctrl.granule.tableBytes ∣ t
  fill : s.ctrl.granule.tableBytes ∣ s.ctrl.tlbFillptr
  top : s.ctrl.tlbFillptr ≤ s.ctrl.tlbAddr + s.ctrl.tlbSize
  room : s.ctrl.tlbAddr + s.ctrl.tlbSize ≤ 2 ^ 48

section Reads

variable {s : State} {va k level : ℕ}

theorem slotAt_eq_add {p : ℕ} (hslot : s.slotAt va k = some p) :
    ∃ t, s.reach va k = some t ∧ p = t + 8 * s.ctrl.granule.index (s.ctrl.startLevel + k) va := by
  obtain ⟨t, hreach, rfl⟩ := slotAt_eq_some.mp hslot
  exact ⟨t, hreach, rfl⟩

theorem Tables.slot_inside (htab : Tables s) {p : ℕ} (hslot : s.slotAt va k = some p) :
    s.ctrl.tlbAddr ≤ p ∧ p + 8 ≤ s.ctrl.tlbFillptr ∧ 8 ∣ p := by
  obtain ⟨t, hreach, rfl⟩ := slotAt_eq_add hslot
  obtain ⟨hlow, hhigh, halign⟩ := htab.inside _ _ _ hreach
  have hidx := s.ctrl.granule.index_lt (s.ctrl.startLevel + k) va
  refine ⟨by omega, by omega, ?_⟩
  exact (Nat.dvd_add_right (s.ctrl.granule.eight_dvd_tableBytes.trans halign)).mpr
    (Nat.dvd_mul_right 8 _)

theorem findPteLoop_succ (htab : Tables s) {p t n : ℕ} (hreach : s.reach va k = some t)
    (hslot : s.slotAt va k = some p) :
    findPteLoop s va level (n + 1) (s.ctrl.startLevel + k) t =
      if s.ctrl.startLevel + k = level then p
      else if bmMmuGetPteType s p ≠ pteTypeTable then 0
      else findPteLoop s va level n (s.ctrl.startLevel + k + 1)
        (s.pte p &&& s.ctrl.granule.tableAddrMark) := by
  obtain ⟨u, hu, rfl⟩ := slotAt_eq_add hslot
  obtain rfl : t = u := Option.some.inj (hreach.symm.trans hu)
  have hbound := (htab.slot_inside hslot).2.1
  have htop := htab.top
  have hroom := htab.room
  have hwrap : add64 t (8 * s.ctrl.granule.index (s.ctrl.startLevel + k) va) =
      t + 8 * s.ctrl.granule.index (s.ctrl.startLevel + k) va :=
    add64_of_lt (by omega)
  unfold Granule.index at hwrap ⊢
  simp only [findPteLoop, hwrap]

theorem reach_succ_eq {p : ℕ} (hslot : s.slotAt va k = some p)
    (hlevel : s.ctrl.startLevel + k < 3) :
    s.reach va (k + 1) =
      if bmMmuGetPteType s p = pteTypeTable then some (s.pte p &&& s.ctrl.granule.tableAddrMark)
      else none := by
  have hnext : s.reach va (k + 1) = s.format.child k (s.pte p) := reach_succ_of_slotAt hslot
  rw [hnext]
  simp only [State.format, Mmu.format, hlevel, true_and]
  rfl

theorem findPteLoop_eq (htab : Tables s) {d : ℕ} :
    ∀ {k t n : ℕ}, s.reach va k = some t → level = s.ctrl.startLevel + k + d → level ≤ 3 → d < n →
      findPteLoop s va level n (s.ctrl.startLevel + k) t =
        (s.slotAt va (level - s.ctrl.startLevel)).getD 0 := by
  induction d with
  | zero =>
    intro k t n hreach hlevel _ hn
    obtain ⟨n, rfl⟩ : ∃ m, n = m + 1 := ⟨n - 1, by omega⟩
    have hslot := slotAt_of_reach hreach
    have hk : level - s.ctrl.startLevel = k := by omega
    rw [findPteLoop_succ htab hreach hslot, if_pos (by omega), hk, State.slotAt, hslot]
    rfl
  | succ d ih =>
    intro k t n hreach hlevel hle hn
    obtain ⟨n, rfl⟩ : ∃ m, n = m + 1 := ⟨n - 1, by omega⟩
    have hslot := slotAt_of_reach hreach
    have hnext := reach_succ_eq hslot (by omega)
    rw [findPteLoop_succ htab hreach hslot, if_neg (by omega)]
    by_cases htype : bmMmuGetPteType s (s.format.slot t (s.format.index k va)) = pteTypeTable
    · rw [if_pos htype] at hnext
      rw [if_neg (not_not.mpr htype)]
      exact ih hnext (by omega) hle (by omega)
    · rw [if_neg htype] at hnext
      rw [if_pos htype]
      cases hdeep : s.slotAt va (level - s.ctrl.startLevel) with
      | none => rfl
      | some q =>
        obtain ⟨u, hu, -⟩ := slotAt_eq_add hdeep
        obtain ⟨w, hw⟩ := exists_reach_of_le (j := k + 1) hu (by omega)
        rw [State.reach, hw] at hnext
        cases hnext

theorem bmMmuFindPte_eq (htab : Tables s) (hlow : s.ctrl.startLevel ≤ level) (hhigh : level ≤ 3) :
    bmMmuFindPte s va level = (s.slotAt va (level - s.ctrl.startLevel)).getD 0 := by
  rw [bmMmuFindPte, if_neg (by omega)]
  have hroot : s.reach va 0 = some s.ctrl.tlbAddr := rfl
  exact findPteLoop_eq htab (d := level - s.ctrl.startLevel) hroot (by omega) hhigh (by omega)

theorem findPteLoop_of_deep {n i t : ℕ} (hdeep : i + n ≤ level) :
    findPteLoop s va level n i t = 0 := by
  induction n generalizing i t with
  | zero => rfl
  | succ n ih =>
    simp only [findPteLoop, if_neg (by omega : ¬ i = level)]
    split
    · rfl
    · exact ih (by omega)

theorem bmMmuFindPte_of_deep (hdeep : 4 ≤ level) : bmMmuFindPte s va level = 0 := by
  unfold bmMmuFindPte
  split
  · rfl
  · exact findPteLoop_of_deep (by omega)

theorem Tables.slotAt_of_findPte (htab : Tables s) (hlow : s.ctrl.startLevel ≤ level)
    (hfound : bmMmuFindPte s va level ≠ 0) :
    level ≤ 3 ∧ s.slotAt va (level - s.ctrl.startLevel) = some (bmMmuFindPte s va level) := by
  have hhigh : level ≤ 3 := by
    by_contra hdeep
    exact hfound (bmMmuFindPte_of_deep (by omega))
  have heq : bmMmuFindPte s va level = _ := bmMmuFindPte_eq htab hlow hhigh
  cases hslot : s.slotAt va (level - s.ctrl.startLevel) with
  | none =>
    rw [hslot] at heq
    exact absurd heq hfound
  | some q =>
    rw [hslot] at heq
    exact ⟨hhigh, congrArg some heq.symm⟩

end Reads

def State.grow (s : State) : State :=
  { s with ctrl := { s.ctrl with
      tlbFillptr := add64 s.ctrl.tlbFillptr s.ctrl.granule.tableBytes } }

def State.Exhausted (s : State) : Prop :=
  s.ctrl.tlbSize < sub64 s.ctrl.tlbFillptr s.ctrl.tlbAddr

instance (s : State) : Decidable s.Exhausted := inferInstanceAs (Decidable (_ < _))

def State.zeroed (s : State) : State :=
  s.grow.store (.zero s.ctrl.tlbFillptr s.ctrl.granule.tableBytes)

def State.addTable (s : State) (pte : ℕ) : State :=
  s.zeroed.store (.table pte s.ctrl.tlbFillptr)

theorem bmMmuCreateTable_eq (s : State) :
    bmMmuCreateTable s =
      if s.grow.Exhausted then (s.grow, 0) else (s.zeroed, s.ctrl.tlbFillptr) := rfl

def leafValue (map : MapRegion) (phys level : ℕ) : ℕ :=
  phys ||| map.attrs ||| (if level = 3 then pteTypePage else pteTypeBlock)

inductive Process (s : State) (map : MapRegion) (pte phys level : ℕ) : State × ℤ → Prop
  | keep (hlevel : level < map.maxLevel) (htype : bmMmuGetPteType s pte ≠ pteTypeFault) :
      Process s map pte phys level (s, bmOk)
  | exhausted (hlevel : level < map.maxLevel) (htype : bmMmuGetPteType s pte = pteTypeFault)
      (hfull : s.grow.Exhausted) : Process s map pte phys level (s.grow, bmFail)
  | null (hlevel : level < map.maxLevel) (htype : bmMmuGetPteType s pte = pteTypeFault)
      (hfits : ¬ s.grow.Exhausted) (hnull : s.ctrl.tlbFillptr = 0) :
      Process s map pte phys level (s.zeroed, bmFail)
  | table (hlevel : level < map.maxLevel) (htype : bmMmuGetPteType s pte = pteTypeFault)
      (hfits : ¬ s.grow.Exhausted) (hnull : s.ctrl.tlbFillptr ≠ 0) :
      Process s map pte phys level (s.addTable pte, bmOk)
  | leaf (hlevel : map.maxLevel ≤ level) :
      Process s map pte phys level (s.store (.leaf pte (leafValue map phys level)), bmOk)

theorem process_cases (s : State) (map : MapRegion) (pte phys level : ℕ) :
    Process s map pte phys level (bmMmuAddMapPteProcess s map pte phys level) := by
  unfold bmMmuAddMapPteProcess
  split
  case isTrue hlevel =>
    split
    case isTrue htype =>
      rw [bmMmuCreateTable_eq]
      by_cases hfull : s.grow.Exhausted
      · rw [if_pos hfull]
        exact Process.exhausted hlevel htype hfull
      · rw [if_neg hfull]
        by_cases hnull : s.ctrl.tlbFillptr = 0
        · simp only [hnull, if_true]
          exact Process.null hlevel htype hfull hnull
        · simp only [hnull, if_false]
          exact Process.table hlevel htype hfull hnull
    case isFalse htype => exact Process.keep hlevel htype
  case isFalse hlevel =>
    have hleaf : Process s map pte phys level
        (s.store (.leaf pte (leafValue map phys level)), bmOk) :=
      Process.leaf (Nat.le_of_not_lt hlevel)
    unfold leafValue at hleaf
    split
    case isTrue hthree => rwa [if_pos hthree] at hleaf
    case isFalse hthree => rwa [if_neg hthree] at hleaf

@[simp] theorem store_ctrl (s : State) (e : Store) : (s.store e).ctrl = s.ctrl := rfl
@[simp] theorem store_stores (s : State) (e : Store) : (s.store e).stores = e :: s.stores := rfl
@[simp] theorem store_format (s : State) (e : Store) : (s.store e).format = s.format := rfl
@[simp] theorem grow_format (s : State) : s.grow.format = s.format := rfl
@[simp] theorem zeroed_ctrl (s : State) : s.zeroed.ctrl = s.grow.ctrl := rfl
@[simp] theorem addTable_ctrl (s : State) (p : ℕ) : (s.addTable p).ctrl = s.grow.ctrl := rfl
@[simp] theorem addTable_format (s : State) (p : ℕ) : (s.addTable p).format = s.format := rfl
@[simp] theorem zeroed_stores (s : State) :
    s.zeroed.stores = .zero s.ctrl.tlbFillptr s.ctrl.granule.tableBytes :: s.stores := rfl
@[simp] theorem addTable_stores (s : State) (p : ℕ) :
    (s.addTable p).stores = .table p s.ctrl.tlbFillptr :: s.zeroed.stores := rfl

/-! ### The memory afterwards -/

theorem pte_leaf_same (s : State) (p v : ℕ) :
    (s.store (.leaf p v)).pte p = v % 2 ^ 64 :=
  Mem.load_store_same s.mem p 8 v

theorem pte_leaf_other {s : State} {p q v : ℕ} (hp : 8 ∣ p) (hq : 8 ∣ q) (hne : q ≠ p) :
    (s.store (.leaf p v)).pte q = s.pte q :=
  Mem.load_store_disjoint (by omega)

section NewTable

variable {s : State} {p q : ℕ}

theorem pte_zeroed_other (hq : q + 8 ≤ s.ctrl.tlbFillptr) : s.zeroed.pte q = s.pte q :=
  Mem.load_fill_disjoint (Or.inl hq)

theorem pte_zeroed_inside (hlow : s.ctrl.tlbFillptr ≤ q)
    (hhigh : q + 8 ≤ s.ctrl.tlbFillptr + s.ctrl.granule.tableBytes) : s.zeroed.pte q = 0 :=
  Mem.load_fill_zero hlow hhigh

theorem pte_addTable_same (hlt : s.ctrl.tlbFillptr < 2 ^ 64) :
    (s.addTable p).pte p = pteTypeTable ||| s.ctrl.tlbFillptr := by
  have hfit : pteTypeTable ||| s.ctrl.tlbFillptr < 2 ^ 64 :=
    Nat.or_lt_two_pow (by decide) hlt
  exact Mem.load_store_same_of_lt hfit

theorem pte_addTable_other (hp : 8 ∣ p) (hq : 8 ∣ q) (hne : q ≠ p) :
    (s.addTable p).pte q = s.zeroed.pte q :=
  Mem.load_store_disjoint (by omega)

end NewTable

/-! ### The shape afterwards -/

namespace Tables

variable {s : State} {va k p v : ℕ}

theorem root_below (htab : Tables s) :
    s.ctrl.tlbAddr + s.ctrl.granule.tableBytes ≤ s.ctrl.tlbFillptr :=
  (htab.inside 0 0 _ rfl).2.1

theorem grow_fillptr (htab : Tables s) :
    s.grow.ctrl.tlbFillptr = s.ctrl.tlbFillptr + s.ctrl.granule.tableBytes := by
  have hsize : s.ctrl.granule.tableBytes ≤ 2 ^ 16 := by cases s.ctrl.granule <;> decide
  have htop := htab.top
  have hroom := htab.room
  exact add64_of_lt (by omega)

theorem exhausted_iff (htab : Tables s) :
    s.grow.Exhausted ↔
      s.ctrl.tlbAddr + s.ctrl.tlbSize < s.ctrl.tlbFillptr + s.ctrl.granule.tableBytes := by
  have hsize : s.ctrl.granule.tableBytes ≤ 2 ^ 16 := by cases s.ctrl.granule <;> decide
  have htop := htab.top
  have hroom := htab.room
  have hroot := htab.root_below
  have hused := htab.grow_fillptr
  change s.ctrl.tlbSize < sub64 s.grow.ctrl.tlbFillptr s.ctrl.tlbAddr ↔ _
  rw [hused, sub64_of_le (by omega) (by omega)]
  omega

theorem agree_leaf (htab : Tables s) (hslot : s.slotAt va k = some p) :
    s.format.AgreeOff s.pte (s.store (.leaf p v)).pte s.ctrl.tlbAddr p := by
  intro l a q hq hne
  exact pte_leaf_other (htab.slot_inside hslot).2.2 (htab.slot_inside hq).2.2 hne

theorem leaf (htab : Tables s) (hslot : s.slotAt va k = some p)
    (hstop : s.format.child k (v % 2 ^ 64) = none) : Tables (s.store (.leaf p v)) := by
  have hagree := htab.agree_leaf (v := v) hslot
  have hend : s.format.child k ((s.store (.leaf p v)).pte p) = none := by
    rw [pte_leaf_same]
    exact hstop
  exact {
    tree := htab.tree.store_leaf hslot hagree hend
    inside := fun a l t hreach =>
      htab.inside a l t (htab.tree.reach_of_leaf hslot hagree hend hreach)
    fill := htab.fill
    top := htab.top
    room := htab.room }

theorem agree_addTable (htab : Tables s) (hslot : s.slotAt va k = some p) :
    s.format.AgreeOff s.pte (s.addTable p).pte s.ctrl.tlbAddr p := by
  intro l a q hq hne
  have hin := htab.slot_inside hq
  rw [pte_addTable_other (htab.slot_inside hslot).2.2 hin.2.2 hne, pte_zeroed_other hin.2.1]

theorem addTable_empty (htab : Tables s) (hslot : s.slotAt va k = some p) (level a : ℕ) :
    (s.addTable p).pte (s.ctrl.tlbFillptr + 8 * s.ctrl.granule.index level a) = 0 := by
  have hp := htab.slot_inside hslot
  have hidx := s.ctrl.granule.index_lt level a
  have halign : 8 ∣ s.ctrl.tlbFillptr + 8 * s.ctrl.granule.index level a :=
    (Nat.dvd_add_right (s.ctrl.granule.eight_dvd_tableBytes.trans htab.fill)).mpr
      (Nat.dvd_mul_right 8 _)
  rw [pte_addTable_other hp.2.2 halign (by omega), pte_zeroed_inside (by omega) (by omega)]

theorem fillptr_lt (htab : Tables s) (hfits : ¬ s.grow.Exhausted) :
    s.ctrl.tlbFillptr < 2 ^ 48 := by
  rw [htab.exhausted_iff] at hfits
  have hroom := htab.room
  have hsize := s.ctrl.granule.tableBytes_pos
  omega

theorem child_table (htab : Tables s) (hfits : ¬ s.grow.Exhausted)
    (hlevel : s.ctrl.startLevel + k < 3) :
    s.format.child k (pteTypeTable ||| s.ctrl.tlbFillptr) = some s.ctrl.tlbFillptr := by
  have htype : (pteTypeTable ||| s.ctrl.tlbFillptr) &&& pteTypeMask = pteTypeTable := by
    have hmask : pteTypeMask = 2 ^ 2 - 1 := rfl
    have hfour : 4 ∣ s.ctrl.granule.tableBytes := by cases s.ctrl.granule <;> decide
    rw [Nat.and_or_distrib_right, hmask, Nat.and_two_pow_sub_one_eq_mod,
      Nat.and_two_pow_sub_one_eq_mod, Nat.mod_eq_zero_of_dvd (hfour.trans htab.fill)]
    rfl
  have hmark := s.ctrl.granule.table_and_mark htab.fill (htab.fillptr_lt hfits)
  change (if s.ctrl.startLevel + k < 3 ∧ _ then _ else none) = _
  rw [if_pos ⟨hlevel, htype⟩, hmark]

theorem addTable_pte (htab : Tables s) (hfits : ¬ s.grow.Exhausted) :
    (s.addTable p).pte p = pteTypeTable ||| s.ctrl.tlbFillptr :=
  pte_addTable_same ((htab.fillptr_lt hfits).trans (by decide))

theorem addTable_child (htab : Tables s) (hfits : ¬ s.grow.Exhausted)
    (hlevel : s.ctrl.startLevel + k < 3) :
    s.format.child k ((s.addTable p).pte p) = some s.ctrl.tlbFillptr := by
  rw [htab.addTable_pte hfits, htab.child_table hfits hlevel]

theorem addTable_leaves (htab : Tables s) (hslot : s.slotAt va k = some p) (a : ℕ) :
    s.format.child (k + 1) ((s.addTable p).pte
      (s.format.slot s.ctrl.tlbFillptr (s.format.index (k + 1) a))) = none := by
  have hzero := htab.addTable_empty hslot (s.ctrl.startLevel + (k + 1)) a
  change s.format.child (k + 1) ((s.addTable p).pte
    (s.ctrl.tlbFillptr + 8 * s.ctrl.granule.index (s.ctrl.startLevel + (k + 1)) a)) = none
  rw [hzero]
  change (if _ ∧ _ then _ else none) = none
  exact if_neg fun hboth => absurd hboth.2 (by decide)

theorem addTable (htab : Tables s) (hslot : s.slotAt va k = some p)
    (hfits : ¬ s.grow.Exhausted) : Tables (s.addTable p) := by
  have hagree := htab.agree_addTable hslot
  have hgrow := htab.grow_fillptr
  have hroom := htab.room
  have htop : s.ctrl.tlbFillptr + s.ctrl.granule.tableBytes ≤ s.ctrl.tlbAddr + s.ctrl.tlbSize := by
    have := mt htab.exhausted_iff.mpr hfits
    omega
  have hsize := s.ctrl.granule.tableBytes_pos
  have hfill : s.ctrl.granule.tableBytes ∣ s.grow.ctrl.tlbFillptr := by
    rw [hgrow]
    exact Nat.dvd_add htab.fill dvd_rfl
  have hkeep : ∀ t, s.ctrl.tlbAddr ≤ t ∧
      t + s.ctrl.granule.tableBytes ≤ s.ctrl.tlbFillptr + s.ctrl.granule.tableBytes ∧
        s.ctrl.granule.tableBytes ∣ t →
      (s.addTable p).ctrl.tlbAddr ≤ t ∧
        t + (s.addTable p).ctrl.granule.tableBytes ≤ (s.addTable p).ctrl.tlbFillptr ∧
          (s.addTable p).ctrl.granule.tableBytes ∣ t := by
    intro t hin
    rwa [addTable_ctrl, hgrow]
  by_cases hlevel : s.ctrl.startLevel + k < 3
  case pos =>
    have hchild := htab.addTable_child (p := p) hfits hlevel
    have hempty := htab.addTable_leaves hslot
    constructor
    case tree =>
      apply htab.tree.store_newTable hslot hagree hchild hempty
      · intro l b hreach
        have := (htab.inside _ _ _ hreach).2.1
        omega
      · intro b c heq
        change s.ctrl.tlbFillptr + 8 * _ = s.ctrl.tlbFillptr + 8 * _ at heq
        omega
      · intro l b c hold
        have := (htab.slot_inside hold).2.1
        change s.ctrl.tlbFillptr + 8 * _ + 8 ≤ s.ctrl.tlbFillptr at this
        omega
    case inside =>
      intro a l t hreach
      have hroot := htab.root_below
      apply hkeep
      rcases htab.tree.reach_cases hslot hagree hchild hempty hreach with hold | ⟨-, -, rfl⟩
      · obtain ⟨hlow, hhigh, halign⟩ := htab.inside a l t hold
        exact ⟨hlow, by omega, halign⟩
      · exact ⟨by omega, le_rfl, htab.fill⟩
    case fill => exact hfill
    case top => exact hgrow.trans_le htop
    case room => exact hroom
  case neg =>
    have hstop : s.format.child k ((s.addTable p).pte p) = none :=
      if_neg fun hboth => hlevel hboth.1
    constructor
    case tree => exact htab.tree.store_leaf hslot hagree hstop
    case inside =>
      intro a l t hreach
      obtain ⟨hlow, hhigh, halign⟩ :=
        htab.inside a l t (htab.tree.reach_of_leaf hslot hagree hstop hreach)
      exact hkeep t ⟨hlow, by omega, halign⟩
    case fill => exact hfill
    case top => exact hgrow.trans_le htop
    case room => exact hroom

end Tables

structure Fresh (s : State) : Prop where
  fillptr : s.ctrl.tlbFillptr = s.ctrl.tlbAddr
  aligned : s.ctrl.granule.tableBytes ∣ s.ctrl.tlbAddr
  room : s.ctrl.tlbAddr + s.ctrl.tlbSize ≤ 2 ^ 48

namespace Fresh

variable {s : State} {va k t : ℕ}

theorem zeroed_fillptr (hfresh : Fresh s) :
    s.zeroed.ctrl.tlbFillptr = s.ctrl.tlbAddr + s.ctrl.granule.tableBytes := by
  have hsize : s.ctrl.granule.tableBytes ≤ 2 ^ 16 := by cases s.ctrl.granule <;> decide
  have hroom := hfresh.room
  rw [← hfresh.fillptr] at hroom ⊢
  exact add64_of_lt (by omega)

theorem top_of_fits (hfresh : Fresh s) (hfits : ¬ s.grow.Exhausted) :
    s.ctrl.tlbAddr + s.ctrl.granule.tableBytes ≤ s.ctrl.tlbAddr + s.ctrl.tlbSize := by
  have hsize : s.ctrl.granule.tableBytes ≤ 2 ^ 16 := by cases s.ctrl.granule <;> decide
  have hroom := hfresh.room
  have hused : s.grow.ctrl.tlbFillptr = _ := hfresh.zeroed_fillptr
  change ¬ s.ctrl.tlbSize < sub64 s.grow.ctrl.tlbFillptr s.ctrl.tlbAddr at hfits
  rw [hused, sub64_of_le (Nat.le_add_right _ _) (by omega)] at hfits
  omega

theorem root_empty (hfresh : Fresh s) (level a : ℕ) :
    s.zeroed.pte (s.ctrl.tlbAddr + 8 * s.ctrl.granule.index level a) = 0 := by
  have hidx := s.ctrl.granule.index_lt level a
  have hfill := hfresh.fillptr
  exact pte_zeroed_inside (by omega) (by omega)

theorem child_root (hfresh : Fresh s) (a : ℕ) :
    s.format.child 0 (s.zeroed.pte (s.format.slot s.ctrl.tlbAddr (s.format.index 0 a))) = none := by
  have hzero := hfresh.root_empty (s.ctrl.startLevel + 0) a
  change s.format.child 0
    (s.zeroed.pte (s.ctrl.tlbAddr + 8 * s.ctrl.granule.index (s.ctrl.startLevel + 0) a)) = none
  rw [hzero]
  change (if _ ∧ _ then _ else none) = none
  exact if_neg fun hboth => absurd hboth.2 (by decide)

theorem tables (hfresh : Fresh s) (hfits : ¬ s.grow.Exhausted) : Tables s.zeroed where
  tree := by
    apply isTree_of_empty hfresh.child_root
    intro b c heq
    change s.ctrl.tlbAddr + 8 * _ = s.ctrl.tlbAddr + 8 * _ at heq
    omega
  inside va k t hreach := by
    obtain ⟨-, rfl⟩ := reach_of_empty hfresh.child_root hreach
    rw [hfresh.zeroed_fillptr]
    exact ⟨le_rfl, le_rfl, hfresh.aligned⟩
  fill := by
    rw [hfresh.zeroed_fillptr]
    exact Nat.dvd_add hfresh.aligned dvd_rfl
  top := hfresh.zeroed_fillptr.trans_le (hfresh.top_of_fits hfits)
  room := hfresh.room

end Fresh

def setupStart (b : Board) (s : State) (tlbAddr tlbLen : ℕ) (g : Granule) (start : ℕ) : State :=
  (setupControl b s tlbAddr tlbLen g).startAt start

def vaBits (b : Board) (g : Granule) : ℕ := (bmMmuGetTcr b.memMapInfo g).2

inductive SetupTables (fuel : ℕ) (s : State) (memMap : List MapRegion) : State × Option ℤ → Prop
  | exhausted (hfull : s.grow.Exhausted) : SetupTables fuel s memMap (s.grow, some bmFail)
  | null (hfits : ¬ s.grow.Exhausted) (hnull : s.ctrl.tlbFillptr = 0) :
      SetupTables fuel s memMap (s.zeroed, some bmFail)
  | maps (hfits : ¬ s.grow.Exhausted) (hnull : s.ctrl.tlbFillptr ≠ 0) :
      SetupTables fuel s memMap (addMaps fuel s.zeroed memMap)

theorem setupTables_cases (fuel : ℕ) (s : State) (memMap : List MapRegion) :
    SetupTables fuel s memMap (setupTables fuel s memMap) := by
  unfold setupTables
  rw [bmMmuCreateTable_eq]
  by_cases hfull : s.grow.Exhausted
  · rw [if_pos hfull]
    exact SetupTables.exhausted hfull
  · rw [if_neg hfull]
    by_cases hnull : s.ctrl.tlbFillptr = 0
    · simp only [hnull, if_true]
      exact SetupTables.null hfull hnull
    · simp only [hnull, if_false]
      exact SetupTables.maps hfull hnull

theorem setup_of_none {b : Board} {g : Granule} (hlevel : startLevelOf g (vaBits b g) = none)
    (fuel : ℕ) (s : State) (memMap : List MapRegion) (tlbAddr tlbLen : ℕ) :
    bmMmuSetupPgtables b fuel s memMap tlbAddr tlbLen g =
      (setupStart b s tlbAddr tlbLen g 1, some bmFail) := by
  have hbits : (setupControl b s tlbAddr tlbLen g).ctrl.vaBits = vaBits b g := rfl
  rw [bmMmuSetupPgtables, hbits, hlevel]
  rfl

theorem setup_of_some {b : Board} {g : Granule} {start : ℕ}
    (hlevel : startLevelOf g (vaBits b g) = some start) (fuel : ℕ) (s : State)
    (memMap : List MapRegion) (tlbAddr tlbLen : ℕ) :
    bmMmuSetupPgtables b fuel s memMap tlbAddr tlbLen g =
      setupTables fuel (setupStart b s tlbAddr tlbLen g start) memMap := by
  have hbits : (setupControl b s tlbAddr tlbLen g).ctrl.vaBits = vaBits b g := rfl
  rw [bmMmuSetupPgtables, hbits, hlevel]
  rfl

end HiMpu.Mmu
