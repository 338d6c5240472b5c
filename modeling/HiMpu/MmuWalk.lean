import HiMpu.MmuTables

/-!
# The translation that the page tables give

The walk of the translation tables, and the list of regions as a partial map of
virtual addresses.  After a setup that succeeds the walk computes the map, in
which a later region hides an earlier one.
-/

namespace HiMpu.Mmu

open TableFormat

/-! ## The walk of the architecture -/

structure Translation where
  addr : ℕ
  attrs : ℕ
  /-- The limits of the table descriptors on the way, bits 59 to 63. -/
  tableAttrs : ℕ
  deriving DecidableEq

def Granule.blockLevel : Granule → ℕ → Bool
  | .g4K, level => level = 1 ∨ level = 2
  | .g64K, level => level = 2

/-- The lower and the upper attributes of a block or page, bits 2 to 11 and 52 to 63. -/
def leafAttrMask : ℕ := 0xFFF0000000000FFC

def leafOf (g : Granule) (level desc va tableAttrs : ℕ) : Option Translation :=
  let shift := bmMmuLevel2shift g level
  if desc % 4 = 3 ∨ desc % 4 = 1 ∧ g.blockLevel level then
    some
      { addr := desc / 2 ^ shift % 2 ^ (48 - shift) * 2 ^ shift + va % 2 ^ shift
        attrs := desc &&& leafAttrMask
        tableAttrs := tableAttrs }
  else none

theorem leafOf_of_fault {g : Granule} {level desc va tableAttrs : ℕ} (hfault : desc % 4 = 0) :
    leafOf g level desc va tableAttrs = none := by
  rw [leafOf, if_neg (by omega)]

def walkFrom (m : Mem) (g : Granule) (va : ℕ) : ℕ → ℕ → ℕ → ℕ → Option Translation
  | 0, _, _, _ => none
  | n + 1, level, table, tableAttrs =>
    let desc := m.load (table + 8 * g.index level va) 8
    if level < 3 ∧ desc % 4 = 3 then
      walkFrom m g va n (level + 1) (desc &&& g.tableAddrMark) (tableAttrs ||| desc >>> 59)
    else leafOf g level desc va tableAttrs

def tableWalk (m : Mem) (g : Granule) (vaBits start table va : ℕ) : Option Translation :=
  if va < 2 ^ vaBits then walkFrom m g va (4 - start) start table 0 else none

/-! ## The regions as a map -/

def MapRegion.blockSize (g : Granule) (r : MapRegion) : ℕ := 2 ^ bmMmuLevel2shift g r.maxLevel

def MapRegion.extent (g : Granule) (r : MapRegion) : ℕ :=
  (r.size + r.blockSize g - 1) / r.blockSize g * r.blockSize g

def MapRegion.Covers (g : Granule) (r : MapRegion) (va : ℕ) : Prop :=
  r.virt ≤ va ∧ va < r.virt + r.extent g

instance (g : Granule) (va : ℕ) : DecidablePred fun r : MapRegion => r.Covers g va :=
  fun _ => inferInstanceAs (Decidable (_ ∧ _))

def MapRegion.translate (r : MapRegion) (va : ℕ) : Translation where
  addr := r.phys + (va - r.virt)
  attrs := r.attrs
  tableAttrs := 0

def translation (g : Granule) (regions : List MapRegion) (va : ℕ) : Option Translation :=
  (regions.reverse.find? fun r => r.Covers g va).map fun r => r.translate va

structure MapRegion.Valid (g : Granule) (vaBits : ℕ) (r : MapRegion) : Prop where
  virt : r.blockSize g ∣ r.virt
  phys : r.blockSize g ∣ r.phys
  attrs : r.attrs &&& (mmuAttrMask ||| mmuAccessMask) = r.attrs
  virtEnd : r.virt + r.extent g ≤ 2 ^ vaBits
  physEnd : r.phys + r.extent g ≤ 2 ^ 48

theorem translation_append (g : Granule) (regions : List MapRegion) (r : MapRegion) (va : ℕ) :
    translation g (regions ++ [r]) va =
      if r.Covers g va then some (r.translate va) else translation g regions va := by
  unfold translation
  rw [List.reverse_append, List.reverse_singleton, List.singleton_append, List.find?_cons]
  by_cases hcov : r.Covers g va
  · simp [hcov]
  · simp [hcov]

/-! ## Descriptors -/

theorem attrs_testBit {attrs i : ℕ} (hattrs : attrs &&& (mmuAttrMask ||| mmuAccessMask) = attrs)
    (hbit : attrs.testBit i = true) : 2 ≤ i ∧ i < 12 ∨ 52 ≤ i ∧ i < 64 := by
  rw [← hattrs, Nat.testBit_and, Bool.and_eq_true] at hbit
  have hmask := hbit.2
  have hlt : i < 64 := by
    by_contra hge
    rw [Nat.testBit_lt_two_pow] at hmask
    · cases hmask
    · exact lt_of_lt_of_le (by decide : mmuAttrMask ||| mmuAccessMask < 2 ^ 64)
        (Nat.pow_le_pow_right (by decide) (by omega))
  have hall : ∀ j < 64, (mmuAttrMask ||| mmuAccessMask).testBit j = true →
      2 ≤ j ∧ j < 12 ∨ 52 ≤ j ∧ j < 64 := by decide
  exact hall i hlt hmask

section Descriptor

variable {g : Granule} {phys attrs type shift : ℕ}

theorem aligned_testBit {i : ℕ} (hdvd : 2 ^ shift ∣ phys) (hi : i < shift) :
    phys.testBit i = false := by
  obtain ⟨x, rfl⟩ := hdvd
  rw [Nat.testBit_two_pow_mul]
  simp only [decide_eq_false (by omega : ¬ shift ≤ i), Bool.false_and]

theorem large_testBit {n i : ℕ} (hlt : phys < 2 ^ n) (hi : n ≤ i) : phys.testBit i = false :=
  Nat.testBit_lt_two_pow (hlt.trans_le (Nat.pow_le_pow_right (by decide) hi))

theorem desc_addr (hattrs : attrs &&& (mmuAttrMask ||| mmuAccessMask) = attrs)
    (hdvd : 2 ^ shift ∣ phys) (hlt : phys < 2 ^ 48) (htype : type < 2 ^ 2) (hshift : 12 ≤ shift)
    (hshift48 : shift ≤ 48) :
    (phys ||| attrs ||| type) / 2 ^ shift % 2 ^ (48 - shift) * 2 ^ shift = phys := by
  apply Nat.eq_of_testBit_eq
  intro i
  rw [Nat.testBit_mul_two_pow, Nat.testBit_mod_two_pow, Nat.testBit_div_two_pow]
  by_cases hlow : i < shift
  · rw [aligned_testBit hdvd hlow, decide_eq_false (by omega), Bool.false_and]
  · have hindex : i - shift + shift = i := by omega
    by_cases hhigh : i < 48
    · have hattr : attrs.testBit i = false := by
        by_contra hbit
        have := attrs_testBit hattrs (by simpa using hbit)
        omega
      have htypebit : type.testBit i = false := large_testBit htype (by omega)
      rw [hindex, Nat.testBit_or, Nat.testBit_or, hattr, htypebit, decide_eq_true (by omega),
        decide_eq_true (by omega), Bool.or_false, Bool.or_false, Bool.true_and, Bool.true_and]
    · rw [large_testBit hlt (by omega), decide_eq_false (by omega : ¬ i - shift < 48 - shift),
        Bool.false_and, Bool.and_false]

theorem desc_attrs (hattrs : attrs &&& (mmuAttrMask ||| mmuAccessMask) = attrs)
    (hdvd : 2 ^ shift ∣ phys) (hlt : phys < 2 ^ 48) (htype : type < 2 ^ 2) (hshift : 12 ≤ shift) :
    (phys ||| attrs ||| type) &&& leafAttrMask = attrs := by
  have hmask : ∀ j < 64, leafAttrMask.testBit j = decide (2 ≤ j ∧ j < 12 ∨ 52 ≤ j) := by decide
  apply Nat.eq_of_testBit_eq
  intro i
  rw [Nat.testBit_and, Nat.testBit_or, Nat.testBit_or]
  cases hbit : attrs.testBit i with
  | true =>
    have hin := attrs_testBit hattrs hbit
    rw [hmask i (by omega), decide_eq_true (by omega)]
    simp
  | false =>
    by_cases hin : i < 64 ∧ (2 ≤ i ∧ i < 12 ∨ 52 ≤ i)
    · have hphys : phys.testBit i = false := by
        rcases hin.2 with hlow | hhigh
        · exact aligned_testBit hdvd (by omega)
        · exact large_testBit hlt (by omega)
      rw [hphys, large_testBit htype (by omega)]
      rfl
    · have hzero : leafAttrMask.testBit i = false := by
        by_cases hi : i < 64
        · rw [hmask i hi, decide_eq_false (by omega)]
        · exact large_testBit (by decide : leafAttrMask < 2 ^ 64) (by omega)
      rw [hzero, Bool.and_false]

theorem desc_type (hattrs : attrs &&& (mmuAttrMask ||| mmuAccessMask) = attrs)
    (hdvd : 2 ^ shift ∣ phys) (htype : type < 2 ^ 2) (hshift : 12 ≤ shift) :
    (phys ||| attrs ||| type) % 4 = type := by
  apply Nat.eq_of_testBit_eq
  intro i
  have hfour : (4 : ℕ) = 2 ^ 2 := rfl
  rw [hfour, Nat.testBit_mod_two_pow]
  by_cases hi : i < 2
  · have hattr : attrs.testBit i = false := by
      by_contra hbit
      have := attrs_testBit hattrs (by simpa using hbit)
      omega
    rw [decide_eq_true hi, Nat.testBit_or, Nat.testBit_or, hattr,
      aligned_testBit hdvd (by omega), Bool.true_and, Bool.or_false, Bool.false_or]
  · rw [decide_eq_false hi, Bool.false_and, large_testBit htype (by omega)]

theorem desc_lt (hattrs : attrs &&& (mmuAttrMask ||| mmuAccessMask) = attrs)
    (hlt : phys < 2 ^ 48) (htype : type < 2 ^ 2) : phys ||| attrs ||| type < 2 ^ 64 := by
  have hattr : attrs < 2 ^ 64 := by
    rw [← hattrs]
    exact Nat.and_lt_two_pow _ (by decide)
  exact Nat.or_lt_two_pow (Nat.or_lt_two_pow (by omega) hattr) (by omega)

end Descriptor

/-! ## Blocks of addresses -/

theorem shift_succ (g : Granule) {level : ℕ} (hlevel : level < 3) :
    bmMmuLevel2shift g level = bmMmuLevel2shift g (level + 1) + g.levelBits := by
  unfold bmMmuLevel2shift
  have hdiff : 3 - level = 3 - (level + 1) + 1 := by omega
  rw [hdiff, Nat.mul_succ, Nat.add_assoc]

theorem shift_bounds (g : Granule) {level : ℕ} (hlevel : level ≤ 3) (hstart : g = .g64K → 1 ≤ level) :
    12 ≤ bmMmuLevel2shift g level ∧ bmMmuLevel2shift g level ≤ 48 := by
  cases g with
  | g4K => simp only [bmMmuLevel2shift, Granule.pageBits, Granule.levelBits]; omega
  | g64K =>
    have hone := hstart rfl
    simp only [bmMmuLevel2shift, Granule.pageBits, Granule.levelBits]
    omega

theorem sameBlock_iff {g : Granule} {start k a b : ℕ} (hlevel : start + k ≤ 3)
    (ha : a < 2 ^ (bmMmuLevel2shift g start + g.levelBits))
    (hb : b < 2 ^ (bmMmuLevel2shift g start + g.levelBits)) :
    (Mmu.format g start).SameBlock k a b ↔
      a / 2 ^ bmMmuLevel2shift g (start + k) = b / 2 ^ bmMmuLevel2shift g (start + k) := by
  induction k with
  | zero =>
    have htop : ∀ x < 2 ^ (bmMmuLevel2shift g start + g.levelBits),
        g.index start x = x / 2 ^ bmMmuLevel2shift g start := by
      intro x hx
      rw [g.index_eq]
      apply Nat.mod_eq_of_lt
      rw [Nat.div_lt_iff_lt_mul (by positivity), ← pow_add, Nat.add_comm g.levelBits]
      exact hx
    constructor
    · intro hsame
      have hzero : g.index start a = g.index start b := hsame 0 le_rfl
      rwa [htop a ha, htop b hb] at hzero
    · intro heq j hj
      obtain rfl : j = 0 := Nat.le_zero.mp hj
      change g.index start a = g.index start b
      rw [htop a ha, htop b hb]
      exact heq
  | succ k ih =>
    have hup := ih (by omega)
    have hsplit : ∀ x, x / 2 ^ bmMmuLevel2shift g (start + k) =
        x / 2 ^ bmMmuLevel2shift g (start + (k + 1)) / 2 ^ g.levelBits := by
      intro x
      rw [shift_succ g (by omega), pow_add, Nat.div_div_eq_div_mul]
      rfl
    have hindex : ∀ x, (Mmu.format g start).index (k + 1) x =
        x / 2 ^ bmMmuLevel2shift g (start + (k + 1)) % 2 ^ g.levelBits :=
      fun x => g.index_eq (start + (k + 1)) x
    rw [sameBlock_succ, hup, hindex, hindex, hsplit, hsplit]
    constructor
    · rintro ⟨hdiv, hmod⟩
      rw [← Nat.div_add_mod (a / 2 ^ bmMmuLevel2shift g (start + (k + 1))) (2 ^ g.levelBits),
        hdiv, hmod, Nat.div_add_mod]
    · intro heq
      rw [heq]
      exact ⟨rfl, rfl⟩

/-! ## Tables that realise a map -/

/-- The tables of the controls `c` translate every address to what `f` says. -/
structure Built (c : Ctrl) (s : State) (f : ℕ → Option Translation) : Prop where
  ctrl : s.ctrl = { c with tlbFillptr := s.ctrl.tlbFillptr }
  tables : Tables s
  /-- Table descriptors carry no attributes. -/
  plain : ∀ va k p t, s.slotAt va k = some p → s.format.child k (s.pte p) = some t →
    s.pte p < 2 ^ 48
  meaning : ∀ va, va < 2 ^ c.vaBits → ∃ k e,
    s.format.Leaf s.pte s.ctrl.tlbAddr va k e ∧
      leafOf c.granule (c.startLevel + k) e va 0 = f va

section Walk

variable {s : State} {va k e : ℕ}

theorem child_eq (s : State) (k e : ℕ) :
    s.format.child k e =
      if s.ctrl.startLevel + k < 3 ∧ e % 4 = 3 then some (e &&& s.ctrl.granule.tableAddrMark)
      else none := by
  have hmask : e &&& pteTypeMask = e % 4 := Nat.and_two_pow_sub_one_eq_mod e 2
  change (if _ ∧ e &&& pteTypeMask = pteTypeTable then _ else _) = _
  rw [hmask]
  rfl

theorem walkFrom_succ {j t p n : ℕ} (hreach : s.reach va j = some t)
    (hslot : s.slotAt va j = some p) :
    walkFrom s.mem s.ctrl.granule va (n + 1) (s.ctrl.startLevel + j) t 0 =
      if s.ctrl.startLevel + j < 3 ∧ s.pte p % 4 = 3 then
        walkFrom s.mem s.ctrl.granule va n (s.ctrl.startLevel + j + 1)
          (s.pte p &&& s.ctrl.granule.tableAddrMark) (0 ||| s.pte p >>> 59)
      else leafOf s.ctrl.granule (s.ctrl.startLevel + j) (s.pte p) va 0 := by
  obtain ⟨u, hu, rfl⟩ := slotAt_eq_add hslot
  obtain rfl : t = u := Option.some.inj (hreach.symm.trans hu)
  rfl

theorem walkFrom_of_leaf
    (hplain : ∀ va k p t, s.slotAt va k = some p → s.format.child k (s.pte p) = some t →
      s.pte p < 2 ^ 48)
    (hleaf : s.format.Leaf s.pte s.ctrl.tlbAddr va k e) {d : ℕ} :
    ∀ {j t n : ℕ}, s.reach va j = some t → k = j + d → d < n →
      walkFrom s.mem s.ctrl.granule va n (s.ctrl.startLevel + j) t 0 =
        leafOf s.ctrl.granule (s.ctrl.startLevel + k) e va 0 := by
  obtain ⟨p, hp, rfl, hstop⟩ := id hleaf
  induction d with
  | zero =>
    intro j t n hreach hk hn
    obtain rfl : k = j := by omega
    obtain ⟨n, rfl⟩ : ∃ m, n = m + 1 := ⟨n - 1, by omega⟩
    have hnot : ¬ (s.ctrl.startLevel + k < 3 ∧ s.pte p % 4 = 3) := by
      intro hboth
      rw [child_eq, if_pos hboth] at hstop
      cases hstop
    rw [walkFrom_succ hreach hp, if_neg hnot]
  | succ d ih =>
    intro j t n hreach hk hn
    obtain ⟨n, rfl⟩ : ∃ m, n = m + 1 := ⟨n - 1, by omega⟩
    obtain ⟨u, hu, -⟩ := slotAt_eq_some.mp hp
    obtain ⟨w, hw⟩ := exists_reach_of_le (j := j + 1) hu (by omega)
    obtain ⟨q, hq, hchild⟩ := reach_succ_eq_some.mp hw
    have hsmall := hplain va j q w hq hchild
    rw [child_eq] at hchild
    by_cases hboth : s.ctrl.startLevel + j < 3 ∧ s.pte q % 4 = 3
    · rw [if_pos hboth] at hchild
      have hattrs : s.pte q >>> 59 = 0 := by
        rw [Nat.shiftRight_eq_div_pow]
        exact Nat.div_eq_of_lt (hsmall.trans (by decide))
      rw [walkFrom_succ hreach hq, if_pos hboth, hattrs, Option.some.inj hchild]
      exact ih hw (by omega) (by omega)
    · rw [if_neg hboth] at hchild
      cases hchild

end Walk

namespace Built

variable {c : Ctrl} {s : State} {f : ℕ → Option Translation} {va k p : ℕ}

theorem granule_eq (hbuilt : Built c s f) : s.ctrl.granule = c.granule := by rw [hbuilt.ctrl]

theorem startLevel_eq (hbuilt : Built c s f) : s.ctrl.startLevel = c.startLevel := by
  rw [hbuilt.ctrl]

theorem tlbAddr_eq (hbuilt : Built c s f) : s.ctrl.tlbAddr = c.tlbAddr := by rw [hbuilt.ctrl]

theorem level_le (hstart : c.startLevel ≤ 3) (hbuilt : Built c s f)
    (hslot : s.slotAt va k = some p) : c.startLevel + k ≤ 3 := by
  rw [← hbuilt.startLevel_eq] at hstart ⊢
  by_contra hdeep
  obtain ⟨t, ht, -⟩ := slotAt_eq_add hslot
  obtain ⟨u, hu⟩ := exists_reach_of_le (j := 3 - s.ctrl.startLevel + 1) ht (by omega)
  obtain ⟨q, -, hchild⟩ := reach_succ_eq_some.mp hu
  rw [child_eq, if_neg (by omega)] at hchild
  cases hchild

theorem walk (hstart : c.startLevel ≤ 3) (hbuilt : Built c s f) (va : ℕ) :
    tableWalk s.mem c.granule c.vaBits c.startLevel c.tlbAddr va =
      if va < 2 ^ c.vaBits then f va else none := by
  unfold tableWalk
  split
  case isFalse => rfl
  case isTrue hva =>
    obtain ⟨k, e, hleaf, hmean⟩ := hbuilt.meaning va hva
    have hroot : s.reach va 0 = some s.ctrl.tlbAddr := rfl
    obtain ⟨p, hp, -⟩ := id hleaf
    have hk := level_le hstart hbuilt hp
    have hwalk := walkFrom_of_leaf hbuilt.plain hleaf (d := k) hroot (by omega)
      (show k < 4 - c.startLevel by omega)
    rw [hbuilt.granule_eq, hbuilt.startLevel_eq, hbuilt.tlbAddr_eq] at hwalk
    exact hwalk.trans hmean

theorem addTable (hbuilt : Built c s f) (hslot : s.slotAt va k = some p)
    (htype : s.pte p &&& pteTypeMask = pteTypeFault) (hfits : ¬ s.grow.Exhausted)
    (hlevel : s.ctrl.startLevel + k < 3) : Built c (s.addTable p) f := by
  have htab := hbuilt.tables
  have hagree := htab.agree_addTable hslot
  have hchild := htab.addTable_child (p := p) hfits hlevel
  have hempty := htab.addTable_leaves hslot
  have hzero : s.pte p % 4 = 0 :=
    (Nat.and_two_pow_sub_one_eq_mod (s.pte p) 2).symm.trans htype
  constructor
  case ctrl => rw [addTable_ctrl, State.grow, hbuilt.ctrl]
  case tables => exact htab.addTable hslot hfits
  case plain =>
    intro a j q t hq hnext
    obtain ⟨u, hu, rfl⟩ := slotAt_eq_some.mp hq
    rcases htab.tree.reach_cases hslot hagree hchild hempty hu with hold | ⟨rfl, -, rfl⟩
    · have hqold := slotAt_of_reach hold
      by_cases hp : s.format.slot u (s.format.index j a) = p
      · change (s.addTable p).pte (s.format.slot u (s.format.index j a)) < 2 ^ 48
        rw [hp, htab.addTable_pte hfits]
        exact Nat.or_lt_two_pow (by decide) (htab.fillptr_lt hfits)
      · have hsame := hagree _ _ _ hqold hp
        change s.format.child j ((s.addTable p).pte (s.format.slot u (s.format.index j a))) = _
          at hnext
        change (s.addTable p).pte (s.format.slot u (s.format.index j a)) < 2 ^ 48
        rw [hsame] at hnext ⊢
        exact hbuilt.plain a j _ t hqold hnext
    · have hnone := hempty a
      change s.format.child (k + 1) ((s.addTable p).pte
        (s.format.slot s.ctrl.tlbFillptr (s.format.index (k + 1) a))) = _ at hnext
      rw [hnone] at hnext
      cases hnext
  case meaning =>
    intro a ha
    obtain ⟨l, e, hleaf, hmean⟩ := hbuilt.meaning a ha
    by_cases hsame : s.format.SameBlock k va a
    · have hold : s.format.Leaf s.pte s.ctrl.tlbAddr a k (s.pte p) := by
        refine ⟨p, ?_, rfl, ?_⟩
        · rw [← hsame.slotAt_eq]
          exact hslot
        · rw [child_eq, if_neg (by omega)]
      obtain ⟨hl, he⟩ := hleaf.unique hold
      subst hl
      have hnew := htab.tree.leaf_newTable hslot hagree hchild hempty hsame
      refine ⟨l + 1, _, hnew, ?_⟩
      have hcontent := htab.addTable_empty hslot (s.ctrl.startLevel + (l + 1)) a
      change leafOf c.granule _ ((s.addTable p).pte
        (s.ctrl.tlbFillptr + 8 * s.ctrl.granule.index (s.ctrl.startLevel + (l + 1)) a)) a 0 = _
      rw [hcontent, ← hmean, he, leafOf_of_fault hzero, leafOf_of_fault rfl]
    · exact ⟨l, e, htab.tree.leaf_of_not_sameBlock hslot hagree hleaf hsame, hmean⟩

theorem slotAt_of_leaf (htab : Tables s) (hslot : s.slotAt va k = some p) {v : ℕ}
    (hend : s.format.child k ((s.store (.leaf p v)).pte p) = none) {a j q : ℕ}
    (hq : (s.store (.leaf p v)).slotAt a j = some q) : s.slotAt a j = some q := by
  obtain ⟨u, hu, rfl⟩ := slotAt_eq_add hq
  exact slotAt_of_reach (htab.tree.reach_of_leaf hslot (htab.agree_leaf hslot) hend hu)

theorem leaf (hbuilt : Built c s f) (hslot : s.slotAt va k = some p) {v : ℕ} (hlt : v < 2 ^ 64)
    (hstop : s.format.child k v = none) {f' : ℕ → Option Translation}
    (hinside : ∀ a, a < 2 ^ c.vaBits → s.format.SameBlock k va a →
      leafOf c.granule (c.startLevel + k) v a 0 = f' a)
    (houtside : ∀ a, a < 2 ^ c.vaBits → ¬ s.format.SameBlock k va a → f a = f' a) :
    Built c (s.store (.leaf p v)) f' := by
  have htab := hbuilt.tables
  have hagree := htab.agree_leaf (v := v) hslot
  have hentry : (s.store (.leaf p v)).pte p = v := by
    rw [pte_leaf_same, Nat.mod_eq_of_lt hlt]
  have hend : s.format.child k ((s.store (.leaf p v)).pte p) = none := by
    rw [hentry]
    exact hstop
  have hmod : s.format.child k (v % 2 ^ 64) = none := by
    rw [Nat.mod_eq_of_lt hlt]
    exact hstop
  constructor
  case ctrl => exact hbuilt.ctrl
  case tables => exact htab.leaf hslot hmod
  case plain =>
    intro a j q t hq hnext
    have hqold := slotAt_of_leaf htab hslot hend hq
    rw [store_format] at hnext
    by_cases hp : q = p
    · subst hp
      obtain ⟨rfl, -⟩ := htab.tree.slot_unique hslot hqold
      rw [hend] at hnext
      cases hnext
    · have hsame := hagree _ _ _ hqold hp
      rw [hsame] at hnext ⊢
      exact hbuilt.plain a j q t hqold hnext
  case meaning =>
    intro a ha
    by_cases hsame : s.format.SameBlock k va a
    · have hnew := htab.tree.leaf_store hslot hagree hend hsame
      rw [hentry] at hnew
      exact ⟨k, v, hnew, hinside a ha hsame⟩
    · obtain ⟨l, e, hleaf, hmean⟩ := hbuilt.meaning a ha
      refine ⟨l, e, htab.tree.leaf_of_not_sameBlock hslot hagree hleaf hsame, ?_⟩
      rw [hmean, houtside a ha hsame]

end Built

/-! ## Entering a block -/

def MapRegion.upto (r : MapRegion) (done : ℕ) (f : ℕ → Option Translation) :
    ℕ → Option Translation :=
  fun va => if r.virt ≤ va ∧ va < r.virt + done then some (r.translate va) else f va

structure Ctrl.Starts (c : Ctrl) : Prop where
  le : c.startLevel ≤ 2
  granule : c.granule = .g64K → 1 ≤ c.startLevel
  vaBits : c.vaBits ≤ bmMmuLevel2shift c.granule c.startLevel + c.granule.levelBits
  bits48 : c.vaBits ≤ 48

section Block

variable {c : Ctrl} {s : State} {f : ℕ → Option Translation} {r : MapRegion}
  {virt phys level done : ℕ}

theorem blockSize_bounds (hstarts : c.Starts) (hlow : c.startLevel < r.maxLevel)
    (hhigh : r.maxLevel ≤ 3) :
    12 ≤ bmMmuLevel2shift c.granule r.maxLevel ∧ bmMmuLevel2shift c.granule r.maxLevel ≤ 48 :=
  shift_bounds c.granule hhigh fun hg => (hstarts.granule hg).trans hlow.le

theorem leafOf_leafValue (hstarts : c.Starts) (hlow : c.startLevel < r.maxLevel)
    (hhigh : r.maxLevel ≤ 3) (hattrs : r.attrs &&& (mmuAttrMask ||| mmuAccessMask) = r.attrs)
    (hphys : r.blockSize c.granule ∣ phys) (hlt : phys < 2 ^ 48) (a : ℕ) :
    leafOf c.granule r.maxLevel (leafValue r phys r.maxLevel) a 0 =
      some { addr := phys + a % r.blockSize c.granule, attrs := r.attrs, tableAttrs := 0 } := by
  obtain ⟨hshift, hshift48⟩ := blockSize_bounds hstarts hlow hhigh
  unfold leafValue leafOf
  by_cases hpage : r.maxLevel = 3
  · have htype : pteTypePage < 2 ^ 2 := by decide
    rw [if_pos hpage]
    simp only [desc_type hattrs hphys htype hshift, desc_attrs hattrs hphys hlt htype hshift,
      desc_addr hattrs hphys hlt htype hshift hshift48]
    exact if_pos (Or.inl rfl)
  · have htype : pteTypeBlock < 2 ^ 2 := by decide
    have hblock : c.granule.blockLevel r.maxLevel = true := by
      cases hg : c.granule with
      | g4K => exact decide_eq_true (by omega)
      | g64K =>
        have := hstarts.granule hg
        exact decide_eq_true (by omega)
    rw [if_neg hpage]
    simp only [desc_type hattrs hphys htype hshift, desc_attrs hattrs hphys hlt htype hshift,
      desc_addr hattrs hphys hlt htype hshift hshift48]
    exact if_pos (Or.inr ⟨rfl, hblock⟩)

theorem child_leafValue_eq (hstarts : c.Starts) (hbuilt : Built c s f)
    (hlow : c.startLevel < r.maxLevel) (hhigh : r.maxLevel ≤ 3)
    (hattrs : r.attrs &&& (mmuAttrMask ||| mmuAccessMask) = r.attrs)
    (hphys : r.blockSize c.granule ∣ phys) :
    s.format.child (r.maxLevel - s.ctrl.startLevel) (leafValue r phys r.maxLevel) = none := by
  obtain ⟨hshift, -⟩ := blockSize_bounds hstarts hlow hhigh
  rw [child_eq, hbuilt.startLevel_eq]
  apply if_neg
  rintro ⟨hthree, htype⟩
  have hblock : leafValue r phys r.maxLevel = phys ||| r.attrs ||| pteTypeBlock := by
    rw [leafValue, if_neg (by omega)]
  rw [hblock, desc_type hattrs hphys (by decide) hshift] at htype
  cases htype

theorem Built.block (hstarts : c.Starts) (hvalid : r.Valid c.granule c.vaBits)
    (hlow : c.startLevel < r.maxLevel) (hhigh : r.maxLevel ≤ 3)
    (hdone : r.blockSize c.granule ∣ done)
    (hroom : done + r.blockSize c.granule ≤ r.extent c.granule)
    (hbuilt : Built c s (r.upto done f)) {p : ℕ}
    (hslot : s.slotAt (r.virt + done) (r.maxLevel - s.ctrl.startLevel) = some p) :
    Built c (s.store (.leaf p (leafValue r (r.phys + done) r.maxLevel)))
      (r.upto (done + r.blockSize c.granule) f) := by
  have hphys : r.blockSize c.granule ∣ r.phys + done := Nat.dvd_add hvalid.phys hdone
  have hvirt : r.blockSize c.granule ∣ r.virt + done := Nat.dvd_add hvalid.virt hdone
  have hpos : 0 < r.blockSize c.granule := Nat.two_pow_pos _
  have hvirtEnd := hvalid.virtEnd
  have hphysEnd := hvalid.physEnd
  have htype : (if r.maxLevel = 3 then pteTypePage else pteTypeBlock) < 2 ^ 2 := by
    split <;> decide
  have hstart := hbuilt.startLevel_eq
  have hlevel : c.startLevel + (r.maxLevel - s.ctrl.startLevel) = r.maxLevel := by omega
  have hblock : ∀ a, a < 2 ^ c.vaBits →
      (s.format.SameBlock (r.maxLevel - s.ctrl.startLevel) (r.virt + done) a ↔
        r.virt + done ≤ a ∧ a < r.virt + done + r.blockSize c.granule) := by
    intro a ha
    have htop : 2 ^ c.vaBits ≤ 2 ^ (bmMmuLevel2shift c.granule c.startLevel + c.granule.levelBits) :=
      Nat.pow_le_pow_right (by decide) hstarts.vaBits
    have hformat : s.format = Mmu.format c.granule c.startLevel := by
      rw [State.format, hbuilt.granule_eq, hstart]
    rw [hformat, sameBlock_iff (by omega) (by omega) (by omega), hlevel]
    change (r.virt + done) / r.blockSize c.granule = a / r.blockSize c.granule ↔ _
    obtain ⟨x, hx⟩ := hvirt
    rw [hx, Nat.mul_div_cancel_left _ hpos, eq_comm, Nat.div_eq_iff hpos]
    rw [Nat.mul_comm x]
    omega
  have hvalue : leafValue r (r.phys + done) r.maxLevel < 2 ^ 64 :=
    desc_lt hvalid.attrs (by omega) htype
  apply hbuilt.leaf hslot hvalue
    (child_leafValue_eq hstarts hbuilt hlow hhigh hvalid.attrs hphys)
  · intro a ha hsame
    obtain ⟨hge, hlt⟩ := (hblock a ha).mp hsame
    have hoffset : a % r.blockSize c.granule = a - (r.virt + done) := by
      obtain ⟨x, hx⟩ := hvirt
      rw [hx] at hge hlt ⊢
      rw [show a = r.blockSize c.granule * x + (a - r.blockSize c.granule * x) by omega,
        Nat.mul_add_mod, Nat.mod_eq_of_lt (by omega)]
      omega
    rw [hlevel, leafOf_leafValue hstarts hlow hhigh hvalid.attrs hphys (by omega), hoffset,
      MapRegion.upto, if_pos (by omega), MapRegion.translate]
    have haddr : r.phys + done + (a - (r.virt + done)) = r.phys + (a - r.virt) := by omega
    rw [haddr]
  · intro a ha hother
    rw [hblock a ha] at hother
    unfold MapRegion.upto
    by_cases hin : r.virt ≤ a ∧ a < r.virt + done
    · rw [if_pos hin, if_pos (by omega)]
    · rw [if_neg hin, if_neg (by omega)]

theorem levelLoop_succ (r : MapRegion) (virt phys n level : ℕ) (s : State) (blocksize : ℕ) :
    levelLoop r virt phys (n + 1) level s blocksize =
      if bmMmuFindPte s virt level = 0 then (s, bmFail, blocksize)
      else
        match bmMmuAddMapPteProcess s r (bmMmuFindPte s virt level) phys level with
        | (s, ret) =>
          if ret ≠ 0 then (s, ret, blocksize)
          else
            levelLoop r virt phys n (level + 1) s
              (if level ≠ s.ctrl.startLevel then 1 <<< bmMmuLevel2shift s.ctrl.granule level
                else blocksize) := rfl

theorem levelLoop_ok {n blocksize : ℕ}
    (hok : (levelLoop r virt phys (n + 1) level s blocksize).2.1 = bmOk) :
    bmMmuFindPte s virt level ≠ 0 ∧
      ∃ s', Process s r (bmMmuFindPte s virt level) phys level (s', bmOk) ∧
        levelLoop r virt phys (n + 1) level s blocksize =
          levelLoop r virt phys n (level + 1) s'
            (if level ≠ s'.ctrl.startLevel then 1 <<< bmMmuLevel2shift s'.ctrl.granule level
              else blocksize) := by
  have hprocess := process_cases s r (bmMmuFindPte s virt level) phys level
  rw [levelLoop_succ] at hok ⊢
  by_cases hnull : bmMmuFindPte s virt level = 0
  · rw [if_pos hnull] at hok
    cases hok
  · rw [if_neg hnull] at hok ⊢
    refine ⟨hnull, ?_⟩
    rcases hr : bmMmuAddMapPteProcess s r (bmMmuFindPte s virt level) phys level with ⟨s', ret⟩
    rw [hr] at hok hprocess
    dsimp only at hok ⊢
    by_cases hret : ret = 0
    · subst hret
      rw [if_neg (by simp)]
      exact ⟨s', hprocess, rfl⟩
    · rw [if_pos hret] at hok
      exact absurd hok hret

theorem level_le_of_ok {n : ℕ} :
    ∀ {level : ℕ} {s : State} {blocksize : ℕ},
      (levelLoop r virt phys n level s blocksize).2.1 = bmOk → n = 0 ∨ level + n ≤ 4 := by
  induction n with
  | zero => exact fun _ => Or.inl rfl
  | succ n ih =>
    intro level s blocksize hok
    obtain ⟨hfound, s', -, heq⟩ := levelLoop_ok hok
    have hlevel : level ≤ 3 := by
      by_contra hdeep
      exact hfound (bmMmuFindPte_of_deep (by omega))
    rw [heq] at hok
    have := ih hok
    omega

theorem Built.slotAt_of_findPte (hbuilt : Built c s f) (hlow : c.startLevel ≤ level)
    (hfound : bmMmuFindPte s virt level ≠ 0) :
    s.slotAt virt (level - s.ctrl.startLevel) = some (bmMmuFindPte s virt level) :=
  (hbuilt.tables.slotAt_of_findPte (hbuilt.startLevel_eq.trans_le hlow) hfound).2

theorem Built.above (hbuilt : Built c s f) (hlow : c.startLevel ≤ level)
    (hlevel : level < r.maxLevel) (hhigh : r.maxLevel ≤ 3)
    (hfound : bmMmuFindPte s virt level ≠ 0) {s' : State}
    (hprocess : Process s r (bmMmuFindPte s virt level) phys level (s', bmOk)) : Built c s' f := by
  have hslot := hbuilt.slotAt_of_findPte hlow hfound
  have hstart := hbuilt.startLevel_eq
  cases hprocess with
  | keep => exact hbuilt
  | table _ htype hfits => exact hbuilt.addTable hslot htype hfits (by omega)
  | leaf hleaf => omega

theorem Built.levelLoop (hstarts : c.Starts) (hvalid : r.Valid c.granule c.vaBits)
    (hlow : c.startLevel < r.maxLevel) (hhigh : r.maxLevel ≤ 3)
    (hdone : r.blockSize c.granule ∣ done)
    (hroom : done + r.blockSize c.granule ≤ r.extent c.granule) {n : ℕ} :
    ∀ {level : ℕ} {s : State} {blocksize : ℕ}, Built c s (r.upto done f) →
      c.startLevel ≤ level → level + n = r.maxLevel →
      (levelLoop r (r.virt + done) (r.phys + done) (n + 1) level s blocksize).2.1 = bmOk →
      Built c (levelLoop r (r.virt + done) (r.phys + done) (n + 1) level s blocksize).1
          (r.upto (done + r.blockSize c.granule) f) ∧
        (levelLoop r (r.virt + done) (r.phys + done) (n + 1) level s blocksize).2.2 =
          r.blockSize c.granule := by
  induction n with
  | zero =>
    intro level s blocksize hbuilt hlevel hmax hok
    obtain rfl : level = r.maxLevel := by omega
    obtain ⟨hfound, s', hprocess, heq⟩ := levelLoop_ok hok
    have hslot := hbuilt.slotAt_of_findPte hlevel hfound
    rw [heq]
    cases hprocess with
    | keep hlt => omega
    | table hlt => omega
    | leaf =>
      have hblock := hbuilt.block hstarts hvalid hlow hhigh hdone hroom hslot
      have hstart := hblock.startLevel_eq
      refine ⟨hblock, ?_⟩
      have hne : r.maxLevel ≠ (s.store (.leaf (bmMmuFindPte s (r.virt + done) r.maxLevel)
          (leafValue r (r.phys + done) r.maxLevel))).ctrl.startLevel := by omega
      rw [if_pos hne, hblock.granule_eq]
      exact Nat.one_shiftLeft _
  | succ n ih =>
    intro level s blocksize hbuilt hlevel hmax hok
    obtain ⟨hfound, s', hprocess, heq⟩ := levelLoop_ok hok
    rw [heq] at hok ⊢
    exact ih (hbuilt.above hlevel (by omega) hhigh hfound hprocess) (by omega) (by omega) hok

end Block

/-! ## Entering the regions -/

section Regions

variable {c : Ctrl} {s : State} {f : ℕ → Option Translation} {r : MapRegion} {done : ℕ}

theorem MapRegion.room_of_lt {g : Granule} (hdone : r.blockSize g ∣ done) (hlt : done < r.size) :
    done + r.blockSize g ≤ r.extent g := by
  have hpos : 0 < r.blockSize g := Nat.two_pow_pos _
  obtain ⟨x, rfl⟩ := hdone
  have hnext : x + 1 ≤ (r.size + r.blockSize g - 1) / r.blockSize g := by
    rw [Nat.le_div_iff_mul_le hpos, Nat.add_mul, Nat.mul_comm x]
    omega
  calc r.blockSize g * x + r.blockSize g = (x + 1) * r.blockSize g := by ring
    _ ≤ r.extent g := Nat.mul_le_mul_right _ hnext

theorem MapRegion.extent_eq {g : Granule} (hdone : r.blockSize g ∣ done) (hle : done ≤ r.extent g)
    (hsize : r.size ≤ done) : done = r.extent g := by
  have hpos : 0 < r.blockSize g := Nat.two_pow_pos _
  obtain ⟨x, rfl⟩ := hdone
  have hblocks : (r.size + r.blockSize g - 1) / r.blockSize g ≤ x := by
    rw [Nat.div_le_iff_le_mul_add_pred hpos]
    omega
  have hge : r.extent g ≤ x * r.blockSize g := Nat.mul_le_mul_right _ hblocks
  rw [Nat.mul_comm] at hge
  omega

theorem mapLoop_succ (r : MapRegion) (fuel : ℕ) (s : State) (virt phys mapSize blocksize : ℕ) :
    mapLoop r (fuel + 1) s virt phys mapSize blocksize =
      if mapSize < r.size then
        match levelLoop r virt phys (r.maxLevel + 1 - s.ctrl.startLevel) s.ctrl.startLevel s
            blocksize with
        | (s, ret, blocksize) =>
          if ret ≠ 0 then (s, some ret)
          else
            mapLoop r fuel s (add64 virt blocksize) (add64 phys blocksize)
              (add64 mapSize blocksize) blocksize
      else (s, some bmOk) := rfl

theorem Built.mapLoop_round (hstarts : c.Starts) (hvalid : r.Valid c.granule c.vaBits)
    (hlow : c.startLevel < r.maxLevel) (fuel blocksize : ℕ) (hbuilt : Built c s (r.upto done f))
    (hdone : r.blockSize c.granule ∣ done) (hmore : done < r.size) :
    (∃ ret, ret ≠ bmOk ∧
      (mapLoop r (fuel + 1) s (r.virt + done) (r.phys + done) done blocksize).2 = some ret) ∨
    ∃ s', Built c s' (r.upto (done + r.blockSize c.granule) f) ∧
      mapLoop r (fuel + 1) s (r.virt + done) (r.phys + done) done blocksize =
        mapLoop r fuel s' (r.virt + (done + r.blockSize c.granule))
          (r.phys + (done + r.blockSize c.granule)) (done + r.blockSize c.granule)
          (r.blockSize c.granule) := by
  rw [mapLoop_succ, if_pos hmore, hbuilt.startLevel_eq]
  have hroom := MapRegion.room_of_lt hdone hmore
  have hcount : r.maxLevel + 1 - c.startLevel = r.maxLevel - c.startLevel + 1 := by omega
  rw [hcount]
  rcases hr : Mmu.levelLoop r (r.virt + done) (r.phys + done) (r.maxLevel - c.startLevel + 1)
    c.startLevel s blocksize with ⟨s', ret, blocksize'⟩
  dsimp only
  by_cases hret : ret = bmOk
  · right
    have hlevels : (Mmu.levelLoop r (r.virt + done) (r.phys + done)
        (r.maxLevel - c.startLevel + 1) c.startLevel s blocksize).2.1 = bmOk := by
      rw [hr]
      exact hret
    have hhigh := level_le_of_ok hlevels
    have hstep := hbuilt.levelLoop hstarts hvalid hlow (by omega) hdone hroom
      (n := r.maxLevel - c.startLevel) le_rfl (by omega) hlevels
    rw [hr] at hstep
    obtain ⟨hbuilt', hblock⟩ := hstep
    dsimp only at hbuilt' hblock
    subst hblock
    have hvirtEnd := hvalid.virtEnd
    have hphysEnd := hvalid.physEnd
    have hbits : 2 ^ c.vaBits ≤ 2 ^ 48 := Nat.pow_le_pow_right (by decide) hstarts.bits48
    refine ⟨s', hbuilt', ?_⟩
    rw [if_neg (fun hne => hne hret), add64_of_lt (by omega), add64_of_lt (by omega),
      add64_of_lt (by omega), Nat.add_assoc, Nat.add_assoc]
  · left
    have hne : ret ≠ 0 := hret
    refine ⟨ret, hret, ?_⟩
    rw [if_pos hne]

/-- What an operation that is to build a map has done, and when it returns. -/
structure Builds (c : Ctrl) (enough : Prop) (result : State × Option ℤ)
    (f : ℕ → Option Translation) : Prop where
  built : result.2 = some bmOk → Built c result.1 f
  returns : enough → result.2 ≠ none

theorem Builds.mono {enough more : Prop} {result : State × Option ℤ} (hmore : more → enough)
    (hbuilds : Builds c enough result f) : Builds c more result f :=
  ⟨hbuilds.built, fun h => hbuilds.returns (hmore h)⟩

theorem Builds.failed {enough : Prop} {result : State × Option ℤ} {ret : ℤ} (hret : ret ≠ bmOk)
    (hresult : result.2 = some ret) : Builds c enough result f :=
  ⟨fun h => absurd (Option.some.inj (hresult.symm.trans h)) hret,
    fun _ => hresult ▸ Option.some_ne_none ret⟩

theorem Builds.succeeded {enough : Prop} (hbuilt : Built c s f) :
    Builds c enough (s, some bmOk) f :=
  ⟨fun _ => hbuilt, fun _ => Option.some_ne_none bmOk⟩

theorem Built.mapLoop (hstarts : c.Starts) (hvalid : r.Valid c.granule c.vaBits)
    (hlow : c.startLevel < r.maxLevel) {fuel : ℕ} :
    ∀ {s : State} {blocksize done : ℕ}, Built c s (r.upto done f) → r.blockSize c.granule ∣ done →
      done ≤ r.extent c.granule →
      Builds c (r.extent c.granule < done + fuel * r.blockSize c.granule)
        (mapLoop r fuel s (r.virt + done) (r.phys + done) done blocksize)
        (r.upto (r.extent c.granule) f) := by
  induction fuel with
  | zero =>
    intro s blocksize done _ _ hle
    exact ⟨fun hok => (by cases hok), fun hfuel => (by omega)⟩
  | succ fuel ih =>
    intro s blocksize done hbuilt hdone hle
    by_cases hmore : done < r.size
    · rcases hbuilt.mapLoop_round hstarts hvalid hlow fuel blocksize hdone hmore with
        ⟨ret, hret, hfail⟩ | ⟨s', hbuilt', heq⟩
      · exact .failed hret hfail
      · rw [heq]
        refine .mono (fun hfuel => ?_) (ih hbuilt' (Nat.dvd_add hdone dvd_rfl)
          (MapRegion.room_of_lt hdone hmore))
        rw [Nat.succ_mul] at hfuel
        omega
    · rw [mapLoop_succ, if_neg hmore, ← MapRegion.extent_eq hdone hle (by omega)]
      exact .succeeded hbuilt

theorem MapRegion.upto_zero (r : MapRegion) (f : ℕ → Option Translation) : r.upto 0 f = f := by
  funext va
  exact if_neg (by omega)

theorem Built.addMap (hstarts : c.Starts) (hvalid : r.Valid c.granule c.vaBits) (fuel : ℕ)
    (hbuilt : Built c s f) :
    Builds c (2 ^ 36 < fuel) (bmMmuAddMap fuel s r) (r.upto (r.extent c.granule) f) := by
  unfold bmMmuAddMap
  by_cases hlow : r.maxLevel ≤ s.ctrl.startLevel
  · rw [if_pos hlow]
    exact .failed (by decide) rfl
  · rw [if_neg hlow]
    rw [hbuilt.startLevel_eq] at hlow
    rw [← r.upto_zero f] at hbuilt
    refine .mono (fun hfuel => ?_) (hbuilt.mapLoop hstarts hvalid (by omega) (Nat.dvd_zero _)
      (Nat.zero_le _))
    have hblock : 2 ^ 12 ≤ r.blockSize c.granule := by
      have hpage : 12 ≤ c.granule.pageBits := by cases c.granule <;> decide
      exact Nat.pow_le_pow_right (by decide) (hpage.trans (Nat.le_add_right _ _))
    have hphysEnd := hvalid.physEnd
    have hcover : (2 ^ 36 + 1) * 2 ^ 12 ≤ fuel * r.blockSize c.granule :=
      Nat.mul_le_mul hfuel hblock
    omega

/-- The regions as a map over the map that was there before. -/
def overlay (g : Granule) (regions : List MapRegion) (f : ℕ → Option Translation) (va : ℕ) :
    Option Translation :=
  (translation g regions va).or (f va)

theorem overlay_cons (g : Granule) (r : MapRegion) (rest : List MapRegion)
    (f : ℕ → Option Translation) :
    overlay g rest (r.upto (r.extent g) f) = overlay g (r :: rest) f := by
  funext va
  unfold overlay translation MapRegion.upto
  rw [List.reverse_cons, List.find?_append, List.find?_singleton]
  cases rest.reverse.find? fun r => r.Covers g va with
  | some q => rfl
  | none =>
    by_cases hcov : r.Covers g va
    · simp [hcov, if_pos (show r.virt ≤ va ∧ va < r.virt + r.extent g from hcov)]
    · simp [hcov, if_neg (show ¬ (r.virt ≤ va ∧ va < r.virt + r.extent g) from hcov)]

theorem Built.addMaps (hstarts : c.Starts) {fuel : ℕ} {regions : List MapRegion}
    (hvalid : ∀ r ∈ regions, r.Valid c.granule c.vaBits) :
    ∀ {s : State} {f : ℕ → Option Translation}, Built c s f →
      Builds c (2 ^ 36 < fuel) (addMaps fuel s regions) (overlay c.granule regions f) := by
  induction regions with
  | nil => exact fun hbuilt => .succeeded hbuilt
  | cons r rest ih =>
    intro s f hbuilt
    unfold Mmu.addMaps
    have hmap := Built.addMap hstarts (hvalid r List.mem_cons_self) fuel hbuilt
    rcases hr : bmMmuAddMap fuel s r with ⟨s', ret⟩
    rw [hr] at hmap
    dsimp only
    by_cases hret : ret = some bmOk
    · rw [if_pos hret, ← overlay_cons]
      exact ih (fun q hq => hvalid q (List.mem_cons_of_mem _ hq)) (hmap.built hret)
    · rw [if_neg hret]
      exact ⟨fun hok => absurd hok hret, hmap.returns⟩

end Regions

section Setup

variable {b : Board} {s : State} {tlbAddr tlbLen start : ℕ} {g : Granule}

theorem vaBits_le (b : Board) (g : Granule) : vaBits b g ≤ 48 := by
  change (addressBits (maxAddr b.memMapInfo)).2 ≤ 48
  unfold addressBits
  repeat' split
  all_goals decide

theorem starts_of (hlevel : startLevelOf g (vaBits b g) = some start) :
    (setupStart b s tlbAddr tlbLen g start).ctrl.Starts := by
  have hbits := vaBits_le b g
  have hstart : (g = .g4K ∧ vaBits b g < 39 ∧ start = 1) ∨
      (g = .g4K ∧ start = 0) ∨ (g = .g64K ∧ vaBits b g ≤ 36 ∧ start = 2) := by
    cases g with
    | g4K =>
      simp only [startLevelOf] at hlevel
      split at hlevel
      case isTrue hlt => exact Or.inl ⟨rfl, hlt, (Option.some.inj hlevel).symm⟩
      case isFalse => exact Or.inr (Or.inl ⟨rfl, (Option.some.inj hlevel).symm⟩)
    | g64K =>
      simp only [startLevelOf] at hlevel
      split at hlevel
      case isTrue hle => exact Or.inr (Or.inr ⟨rfl, hle, (Option.some.inj hlevel).symm⟩)
      case isFalse => cases hlevel
  have hcontrol : ∀ t, (setupStart b s tlbAddr tlbLen g t).ctrl.vaBits = vaBits b g := fun _ => rfl
  have hgranule : ∀ t, (setupStart b s tlbAddr tlbLen g t).ctrl.granule = g := fun _ => rfl
  have hlev : ∀ t, (setupStart b s tlbAddr tlbLen g t).ctrl.startLevel = t := fun _ => rfl
  constructor
  case le =>
    rw [hlev]
    omega
  case granule =>
    rw [hgranule, hlev]
    rintro rfl
    rcases hstart with ⟨hg, -⟩ | ⟨hg, -⟩ | ⟨-, -, rfl⟩
    · cases hg
    · cases hg
    · decide
  case vaBits =>
    rw [hcontrol, hgranule, hlev]
    rcases hstart with ⟨rfl, hlt, rfl⟩ | ⟨rfl, rfl⟩ | ⟨rfl, hle, rfl⟩
    · exact hlt.le
    · exact hbits
    · exact hle.trans (by decide)
  case bits48 =>
    rw [hcontrol]
    exact hbits

theorem Fresh.built (hfresh : Fresh s) (hfits : ¬ s.grow.Exhausted) :
    Built s.ctrl s.zeroed fun _ => none where
  ctrl := rfl
  tables := hfresh.tables hfits
  plain va k p t hslot hchild := by
    obtain ⟨u, hu, rfl⟩ := slotAt_eq_some.mp hslot
    obtain ⟨rfl, rfl⟩ := reach_of_empty hfresh.child_root hu
    have hzero := hfresh.root_empty (s.ctrl.startLevel + 0) va
    change s.zeroed.pte (s.ctrl.tlbAddr + 8 * s.ctrl.granule.index (s.ctrl.startLevel + 0) va) < _
    rw [hzero]
    decide
  meaning va _ := by
    refine ⟨0, _, ⟨_, slotAt_of_reach rfl, rfl, hfresh.child_root va⟩, ?_⟩
    have hzero := hfresh.root_empty (s.ctrl.startLevel + 0) va
    change leafOf s.ctrl.granule (s.ctrl.startLevel + 0)
      (s.zeroed.pte (s.ctrl.tlbAddr + 8 * s.ctrl.granule.index (s.ctrl.startLevel + 0) va)) va 0 = _
    rw [hzero]
    exact leafOf_of_fault rfl

def State.walk (s : State) (va : ℕ) : Option Translation :=
  tableWalk s.mem s.ctrl.granule s.ctrl.vaBits s.ctrl.startLevel s.ctrl.tlbAddr va

theorem translation_none {vaBits va : ℕ} {regions : List MapRegion}
    (hvalid : ∀ r ∈ regions, r.Valid g vaBits) (hva : ¬ va < 2 ^ vaBits) :
    translation g regions va = none := by
  unfold translation
  rw [Option.map_eq_none_iff, List.find?_eq_none]
  intro r hr hcov
  have hin : r.Covers g va := of_decide_eq_true hcov
  have hend := (hvalid r (List.mem_reverse.mp hr)).virtEnd
  have hhigh := hin.2
  omega

theorem setup_cases (fuel : ℕ) {regions : List MapRegion} (halign : g.tableBytes ∣ tlbAddr)
    (hroom : tlbAddr + tlbLen ≤ 2 ^ 48) (hvalid : ∀ r ∈ regions, r.Valid g (vaBits b g)) :
    (bmMmuSetupPgtables b fuel s regions tlbAddr tlbLen g).2 = some bmFail ∨
      ∃ start, startLevelOf g (vaBits b g) = some start ∧
        Builds (setupStart b s tlbAddr tlbLen g start).ctrl (2 ^ 36 < fuel)
          (bmMmuSetupPgtables b fuel s regions tlbAddr tlbLen g)
          (overlay g regions fun _ => none) := by
  cases hlevel : startLevelOf g (vaBits b g) with
  | none =>
    rw [setup_of_none hlevel]
    exact Or.inl rfl
  | some start =>
    rw [setup_of_some hlevel]
    have hcases := setupTables_cases fuel (setupStart b s tlbAddr tlbLen g start) regions
    have hstarts : (setupStart b s tlbAddr tlbLen g start).ctrl.Starts := starts_of hlevel
    have hfresh : Fresh (setupStart b s tlbAddr tlbLen g start) := ⟨rfl, halign, hroom⟩
    generalize setupTables fuel (setupStart b s tlbAddr tlbLen g start) regions = result
      at hcases ⊢
    cases hcases with
    | exhausted => exact Or.inl rfl
    | null => exact Or.inl rfl
    | maps hfits =>
      exact Or.inr ⟨start, rfl, Built.addMaps hstarts hvalid (hfresh.built hfits)⟩

theorem setup_built {fuel : ℕ} {regions : List MapRegion} (halign : g.tableBytes ∣ tlbAddr)
    (hroom : tlbAddr + tlbLen ≤ 2 ^ 48) (hvalid : ∀ r ∈ regions, r.Valid g (vaBits b g))
    (hok : (bmMmuSetupPgtables b fuel s regions tlbAddr tlbLen g).2 = some bmOk) (va : ℕ) :
    (bmMmuSetupPgtables b fuel s regions tlbAddr tlbLen g).1.walk va =
      translation g regions va := by
  rcases setup_cases (s := s) fuel halign hroom hvalid with hfail | ⟨start, hlevel, hbuilds⟩
  · rw [hfail] at hok
    cases hok
  · have hbuilt := hbuilds.built hok
    have hstarts : (setupStart b s tlbAddr tlbLen g start).ctrl.Starts := starts_of hlevel
    rw [State.walk, hbuilt.ctrl]
    refine (hbuilt.walk (hstarts.le.trans (by decide)) va).trans ?_
    by_cases hva : va < 2 ^ vaBits b g
    · refine (if_pos hva).trans ?_
      exact Option.or_none
    · refine (if_neg hva).trans ?_
      exact (translation_none hvalid hva).symm

/-- The tables realise the list of regions: a walk gives the translation of the last region that
covers the address, or a fault.  A later region changes no translation outside it. -/
theorem setup_translates (b : Board) (fuel : ℕ) (s : State) (regions : List MapRegion)
    (tlbAddr tlbLen : ℕ) (g : Granule) (halign : g.tableBytes ∣ tlbAddr)
    (hroom : tlbAddr + tlbLen ≤ 2 ^ 48) (hvalid : ∀ r ∈ regions, r.Valid g (vaBits b g))
    (hok : (bmMmuSetupPgtables b fuel s regions tlbAddr tlbLen g).2 = some bmOk) :
    (∀ va, (bmMmuSetupPgtables b fuel s regions tlbAddr tlbLen g).1.walk va =
      translation g regions va) ∧
    ∀ later : MapRegion, later.Valid g (vaBits b g) → ∀ fuel' s',
      (bmMmuSetupPgtables b fuel' s' (regions ++ [later]) tlbAddr tlbLen g).2 = some bmOk →
      ∀ va, ¬ later.Covers g va →
        (bmMmuSetupPgtables b fuel' s' (regions ++ [later]) tlbAddr tlbLen g).1.walk va =
          (bmMmuSetupPgtables b fuel s regions tlbAddr tlbLen g).1.walk va := by
  refine ⟨setup_built halign hroom hvalid hok, ?_⟩
  intro later hlater fuel' s' hok' va hout
  have hall : ∀ r ∈ regions ++ [later], r.Valid g (vaBits b g) := by
    intro r hr
    rcases List.mem_append.mp hr with hr | hr
    · exact hvalid r hr
    · rw [List.mem_singleton.mp hr]
      exact hlater
  rw [setup_built halign hroom hall hok', setup_built halign hroom hvalid hok, translation_append,
    if_neg hout]

def blockRegion : MapRegion :=
  { virt := 0x200000, phys := 0x40000000, size := 0x180000, maxLevel := 2,
    attrs := mmuAttrCacheShare ||| mmuAccessRwx }

def pageRegion : MapRegion :=
  { virt := 0x400000, phys := 0x93000000, size := 0x1001, maxLevel := 3,
    attrs := mmuAttrUncacheUnshare ||| mmuAccessRw }

theorem blockRegion_valid : blockRegion.Valid .g4K (vaBits libckBoard .g4K) :=
  ⟨by decide, by decide, by decide, by decide, by decide⟩

theorem pageRegion_valid : pageRegion.Valid .g4K (vaBits libckBoard .g4K) :=
  ⟨by decide, by decide, by decide, by decide, by decide⟩

theorem setup_translates_pageAndBlock :
    (∀ va, (bmMmuSetupPgtables libckBoard 5 (reset fun _ => 1) [blockRegion] mmuPageBegin 0x8000
        .g4K).1.walk va = translation .g4K [blockRegion] va) ∧
      ∀ va, ¬ pageRegion.Covers .g4K va →
        (bmMmuSetupPgtables libckBoard 5 (reset fun _ => 1) ([blockRegion] ++ [pageRegion])
            mmuPageBegin 0x8000 .g4K).1.walk va =
          (bmMmuSetupPgtables libckBoard 5 (reset fun _ => 1) [blockRegion] mmuPageBegin 0x8000
            .g4K).1.walk va :=
  have hall := setup_translates libckBoard 5 (reset fun _ => 1) [blockRegion] mmuPageBegin 0x8000
    .g4K ⟨0x93800, by decide⟩ (by decide)
    (fun r hr => by rw [List.mem_singleton.mp hr]; exact blockRegion_valid) (by decide +kernel)
  ⟨hall.1, hall.2 pageRegion pageRegion_valid 5 (reset fun _ => 1) (by decide +kernel)⟩

def highPhys : List MapRegion :=
  [{ virt := 0, phys := 2 ^ 48, size := 1, maxLevel := 2, attrs := 0 }]

/-- A physical address of 2^48 does not fit in a descriptor, and in a pool at 2^48 the tables are
not where they were zeroed. -/
theorem translation_breaks :
    ((∀ r ∈ highPhys, r.blockSize .g4K ∣ r.virt ∧ r.blockSize .g4K ∣ r.phys ∧
        r.attrs &&& (mmuAttrMask ||| mmuAccessMask) = r.attrs ∧
        r.virt + r.extent .g4K ≤ 2 ^ vaBits libckBoard .g4K) ∧
      (bmMmuSetupPgtables libckBoard 2 (reset fun _ => 1) highPhys mmuPageBegin 0x8000 .g4K).2 =
        some bmOk ∧
      (bmMmuSetupPgtables libckBoard 2 (reset fun _ => 1) highPhys mmuPageBegin 0x8000
        .g4K).1.walk 0 ≠ translation .g4K highPhys 0) ∧
    (Granule.g4K.tableBytes ∣ 2 ^ 48 ∧ (∀ r ∈ oneBlock, r.Valid .g4K (vaBits libckBoard .g4K)) ∧
      (bmMmuSetupPgtables libckBoard 2 (reset fun _ => 1) oneBlock (2 ^ 48) 0x8000 .g4K).2 =
        some bmOk ∧
      (bmMmuSetupPgtables libckBoard 2 (reset fun _ => 1) oneBlock (2 ^ 48) 0x8000
        .g4K).1.walk 0x200000 ≠ translation .g4K oneBlock 0x200000) := by
  refine ⟨⟨by decide, by decide +kernel, by decide +kernel⟩, by decide, ?_, by decide +kernel,
    by decide +kernel⟩
  intro r hr
  obtain rfl := List.mem_singleton.mp hr
  exact ⟨by decide, by decide, by decide, by decide, by decide⟩

end Setup

end HiMpu.Mmu
