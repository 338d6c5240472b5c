import HiMpu.FscMemSession

/-!
# No request is refused without need

The bitmap may keep the bits of bins that have run empty, so the search visits
them and clears them.  A bin between two bits that it finds set has no block,
the bins from the one of the request upwards are therefore all looked at, and
the null pointer means that no free block is large enough.
-/

namespace HiMpu.FscMem

open Securec

variable {L : Linkage} {R : Region L} {s s' : FscState} {blocks : List Block}
  {bins : ℕ → List ℕ} {size align fuel idx : ℕ}

def exactSize (size align : ℕ) : ℕ :=
  alignUp size fscMemSizeAlign + align - fscMemSizeAlign + fscMemUsedHeadSize + fscMemTailSize

theorem accepted_iff_exactSize (halign : AlignOk align) (hsize : size < 2 ^ 32) :
    accepted size align ↔
      size ≠ 0 ∧ exactSize size align < fscMemMaxval - fscMemUsedHeadSize - fscMemTailSize := by
  obtain ⟨hlow, hhigh, height⟩ := alignUp_eight size
  have hle := halign.le
  have hpos := halign.pos
  unfold accepted allocSize exactSize fscMemMaxval fscMemSizeAlign fscMemUsedHeadSize
    fscMemTailSize at *
  omega

theorem allocSize_eq_exactSize (halign : AlignOk align) (hsize : size < 2 ^ 32)
    (hacc : accepted size align) : allocSize size align = exactSize size align := by
  have heq := (allocSize_eq halign hsize hacc).1
  obtain ⟨hlow, -, height⟩ := alignUp_eight size
  have hzero := hacc.1
  unfold exactSize fscMemSizeAlign fscMemUsedHeadSize fscMemTailSize
  omega

theorem le_alignUp (x : ℕ) (hpos : 0 < align) : x ≤ alignUp x align := by
  have hlow := Nat.lt_div_mul_add (a := x + (align - 1)) hpos
  unfold alignUp
  omega

theorem testBit_between {bitAmp bin i : ℕ} (hbin : bmGetBits (dropBelow bitAmp idx) = bin)
    (hlow : idx ≤ i) (hhigh : i < bin) : bitAmp.testBit (31 - i) = false := by
  have hle := highestSetBit_le (dropBelow bitAmp idx) 32
  unfold bmGetBits at hbin
  have habove : (dropBelow bitAmp idx).testBit (31 - i) = false :=
    highestSetBit_above (n := 32) (by omega) (by omega)
  rw [testBit_dropBelow] at habove
  have hkept : decide (31 - i + idx < 32) = true := by
    rw [decide_eq_true_eq]
    omega
  rwa [hkept, Bool.true_and] at habove

theorem Inventory.bin_nil (hinv : Inventory L R s.mem s.bitAmp blocks bins) {i : ℕ} (hi : i < 31)
    (hbit : s.bitAmp.testBit (31 - i) = false) : bins i = [] := by
  by_contra hne
  rw [hinv.bitmap i hi hne] at hbit
  cases hbit

theorem Inventory.node_ne_zero (hinv : Inventory L R s.mem s.bitAmp blocks bins) {i x : ℕ}
    (hi : i < 31) (hx : x ∈ bins i) : x ≠ 0 := by
  obtain ⟨d, hd, -, haddr, -⟩ := (hinv.members i hi x).mp hx
  have hin := hinv.inside d hd
  have hlo := R.nonnull
  omega

theorem searchUseableLoop_null {m : Mem} {head : ℕ} {nodes : List ℕ}
    (hlist : CircularList (fun x => field m x .next) (fun x => field m x .prev) head nodes)
    (hnull : ∀ x ∈ nodes, x ≠ 0) (left right : List ℕ) (hsplit : nodes = left ++ right)
    {current : ℕ} (hcurrent : (right ++ [head]).head? = some current)
    (hrun : searchUseableLoop m head size fuel current = some 0) :
    ∀ x ∈ right, field m x .size < size := by
  induction right generalizing left current fuel with
  | nil => simp
  | cons c right ih =>
    have heq : c = current := by simpa using hcurrent
    subst heq
    have hmem : c ∈ nodes := by simp [hsplit]
    have hne : c ≠ head := by
      rintro rfl
      exact hlist.head_notMem hmem
    cases fuel with
    | zero => cases hrun
    | succ fuel =>
      rw [searchUseableLoop, if_neg hne] at hrun
      by_cases hfit : size ≤ field m c .size
      · rw [if_pos hfit] at hrun
        exact absurd (Option.some.inj hrun) (hnull c hmem)
      · rw [if_neg hfit] at hrun
        have hnext : (right ++ [head]).head? = some (field m c .next) := by
          rw [hsplit] at hlist
          exact hlist.next_of_split
        intro x hx
        rcases List.mem_cons.mp hx with rfl | hx
        · omega
        · exact ih (left ++ [c]) (by simp [hsplit]) hnext hrun x hx

theorem searchUseableFsc_null (hinv : Inventory L R s.mem s.bitAmp blocks bins) {walkFuel : ℕ}
    (hidx : idx < 31) (hrun : searchUseableFsc L walkFuel s.mem size idx = some 0) :
    ∀ x ∈ bins idx, field s.mem x .size < size := by
  have hlist := hinv.lists idx hidx
  have hfirst : (bins idx ++ [L.head idx]).head? = some (field s.mem (L.head idx) .next) := by
    cases hnodes : bins idx with
    | nil =>
      rw [hnodes] at hlist
      simp [hlist.next_head_nil]
    | cons first rest =>
      rw [hnodes] at hlist
      simp [hlist.next_head_cons]
  exact searchUseableLoop_null hlist (fun x hx => hinv.node_ne_zero hidx hx) [] (bins idx) rfl
    hfirst hrun

def OnlyEmptyBins (L : Linkage) (s s' : FscState) : Prop :=
  ∀ k < 32, s'.bitAmp.testBit k ≠ s.bitAmp.testBit k →
    ∃ i < 31, k = 31 - i ∧ field s.mem (L.head i) .next = L.head i

theorem bmMemorySearchLoop_null {stateIdx walkFuel idx' : ℕ}
    (hinv : Inventory L R s.mem s.bitAmp blocks bins) (hstate : stateIdx < 31)
    (seen : ∀ i < 31, stateIdx < i → i < idx → bins i = [])
    (hrun : bmMemorySearchLoop L size stateIdx walkFuel fuel s idx = some (s', 0, idx')) :
    (∀ i < 31, stateIdx < i → bins i = []) ∧
      (∀ x ∈ bins stateIdx, field s.mem x .size < size) ∧ OnlyEmptyBins L s s' := by
  induction fuel generalizing s idx with
  | zero => cases hrun
  | succ fuel ih =>
    obtain ⟨bin, hbin⟩ : ∃ bin, bmGetBits (dropBelow s.bitAmp idx) = bin := ⟨_, rfl⟩
    have seen' : ∀ i < 31, stateIdx < i → i < bin → bins i = [] := by
      intro i hi hlow hhigh
      by_cases hlt : i < idx
      · exact seen i hi hlow hlt
      · exact hinv.bin_nil hi (testBit_between hbin (by omega) hhigh)
    unfold bmMemorySearchLoop at hrun
    simp only [hbin, fscMemLastIdx] at hrun
    by_cases hlast : 31 ≤ bin
    · rw [if_pos hlast] at hrun
      obtain ⟨block, hwalk, hpair⟩ := Option.map_eq_some_iff.mp hrun
      simp only [Prod.mk.injEq] at hpair
      obtain ⟨rfl, rfl, -⟩ := hpair
      exact ⟨fun i hi hlow => seen' i hi hlow (by omega),
        searchUseableFsc_null hinv hstate hwalk, fun k _ hne => absurd rfl hne⟩
    · rw [if_neg hlast] at hrun
      have hlt : bin < 31 := by omega
      have hlist := hinv.lists bin hlt
      by_cases hempty : field s.mem (L.head bin) .next = L.head bin
      · rw [if_pos hempty] at hrun
        have hnil : bins bin = [] := hlist.next_head_eq_iff.mp hempty
        obtain ⟨habove, hown, hbits⟩ := ih (hinv.clearBin hlt hnil) seen' hrun
        refine ⟨habove, hown, ?_⟩
        intro k hk hne
        by_cases heq : k = 31 - bin
        · exact ⟨bin, hlt, heq, hempty⟩
        · apply hbits k hk
          have hkeep := testBit_clearBin s.bitAmp (show bin ≤ 31 by omega) k
          simp only [hk, heq, decide_true, ne_eq, not_false_eq_true, Bool.and_true] at hkeep
          rw [hkeep]
          exact hne
      · -- A bin that is not empty yields a block.
        rw [if_neg hempty] at hrun
        simp only [Option.some.injEq, Prod.mk.injEq] at hrun
        have hmem : field s.mem (L.head bin) .next ∈ bins bin := by
          rcases List.mem_cons.mp hlist.next_head_mem with heq | hmem
          · exact absurd heq hempty
          · exact hmem
        exact absurd hrun.2.1 (hinv.node_ne_zero hlt hmem)

theorem bmMemorySearchFsc_null {idx' : ℕ}
    (hsizes : ∀ b ∈ blocks, field s.mem b.addr .size = b.size)
    (hinv : Inventory L R s.mem s.bitAmp blocks bins) (hpos : 0 < size) (hsize : size < 2 ^ 31)
    (hrun : bmMemorySearchFsc L fuel s size = some (s', 0, idx')) :
    (∀ b ∈ blocks, b.isFree = true → b.size < size) ∧ OnlyEmptyBins L s s' := by
  have hclass : fscMemSz2idx size = Nat.log 2 size := fscMemSz2idx_eq_log (by omega)
  have hlog : Nat.log 2 size < 31 := Nat.log_lt_of_lt_pow (by omega) hsize
  unfold bmMemorySearchFsc at hrun
  simp only [hclass] at hrun
  obtain ⟨habove, hown, hbits⟩ := bmMemorySearchLoop_null hinv hlog
    (fun i _ hlow hhigh => absurd hhigh (by omega)) hrun
  refine ⟨?_, hbits⟩
  intro b hb hfree
  have hin := hinv.inside b hb
  have hbin : b.addr ∈ bins (Nat.log 2 b.size) :=
    (hinv.members _ (hinv.log_lt hb) _).mpr ⟨b, hb, hfree, rfl, rfl⟩
  rcases Nat.lt_trichotomy (Nat.log 2 b.size) (Nat.log 2 size) with hlt | heq | hgt
  · -- A lower class holds smaller blocks only.
    by_contra hle
    exact absurd (Nat.log_mono_right (b := 2) (by omega : size ≤ b.size)) (by omega)
  · rw [heq] at hbin
    rw [← hsizes b hb]
    exact hown _ hbin
  · rw [habove _ (hinv.log_lt hb) hgt] at hbin
    cases hbin

section

attribute [local irreducible] allocSize alignUp markUsed bmMemorySearchFsc

/-- A request ends, and returns the null pointer exactly when it asks for nothing, for too much
or for more than any free block has.  It then leaves memory alone and clears at most bits of
empty bins. -/
theorem alloc_complete (hshape : HeapShape L R s.mem s.bitAmp blocks bins)
    (halign : AlignOk align) (hsize : size < 2 ^ 32) :
    ∃ s' p, bmMemoryAllocInnerFs L R.fuel s size align = some (s', p) ∧
      (p = 0 ↔ size = 0 ∨
        fscMemMaxval - fscMemUsedHeadSize - fscMemTailSize ≤ exactSize size align ∨
        ∀ b ∈ blocks, b.isFree = true → b.size < exactSize size align) ∧
      (p = 0 → s'.mem = s.mem ∧ OnlyEmptyBins L s s') ∧
      (p ≠ 0 → allocSize size align = exactSize size align) := by
  have hiff := accepted_iff_exactSize halign hsize
  unfold bmMemoryAllocInnerFs
  by_cases hacc : accepted size align
  · obtain ⟨-, hlt, hmin, -⟩ := allocSize_eq halign hsize hacc
    have hexact := allocSize_eq_exactSize halign hsize hacc
    have hbound := hiff.mp hacc
    have hsizes : ∀ b ∈ blocks, field s.mem b.addr .size = b.size :=
      fun b hb => (hshape.tagged.header hb).1
    have hpos : 0 < allocSize size align := by omega
    obtain ⟨s1, block, idx, hsearch, hfound⟩ :=
      bmMemorySearchFsc_spec hshape.tiles hsizes hshape.inventory hpos hlt
    rw [allocInner_accepted hacc hsearch]
    by_cases hnull : block = 0
    · subst hnull
      obtain ⟨hsmall, hbits⟩ :=
        bmMemorySearchFsc_null hsizes hshape.inventory hpos hlt hsearch
      rw [hexact] at hsmall
      refine ⟨s1, 0, rfl, ?_, fun _ => ⟨hfound.mem_eq, hbits⟩, fun hne => absurd rfl hne⟩
      exact ⟨fun _ => Or.inr (Or.inr hsmall), fun _ => rfl⟩
    · rw [if_neg hnull]
      obtain ⟨d, hd, hfree, -, hfit, -⟩ := hfound.fits.resolve_left hnull
      rw [hexact] at hfit
      have hpos' : ∀ x, alignUp (x + fscMemUsedHeadSize) align ≠ 0 := by
        intro x hzero
        have hle := le_alignUp (x + fscMemUsedHeadSize) halign.pos
        unfold fscMemUsedHeadSize at hle hzero
        omega
      refine ⟨_, _, rfl, ?_, fun hzero => absurd hzero (hpos' _), fun _ => hexact⟩
      constructor
      · intro hzero
        exact absurd hzero (hpos' _)
      · rintro (hzero | hlarge | hsmall)
        · exact absurd hzero hbound.1
        · omega
        · exact absurd (hsmall d hd hfree) (by omega)
  · rw [allocInner_rejected hacc]
    refine ⟨s, 0, rfl, ⟨fun _ => ?_, fun _ => rfl⟩, fun _ => ⟨rfl, fun k _ hne => absurd rfl hne⟩,
      fun hne => absurd rfl hne⟩
    by_cases hzero : size = 0
    · exact Or.inl hzero
    · refine Or.inr (Or.inl ?_)
      by_contra hlt
      exact hacc (hiff.mpr ⟨hzero, by omega⟩)

end

theorem smallStart_shape :
    ∃ hvalid : smallArena.Valid,
      HeapShape smallLinkage hvalid.region smallStart.heap.mem smallStart.heap.bitAmp
        [⟨smallArena.addr, smallArena.size - 32, none⟩]
        (initialBins smallArena.addr (smallArena.size - 32)) := by
  apply bmMemoryInitFsc_spec (s := ⟨fun _ => 0, 1⟩)
  refine Prod.ext rfl ?_
  decide +kernel

theorem alloc_complete_small :
    (∃ s' p, bmMemoryAllocInnerFs smallLinkage smallArena.size smallStart.heap 184
        fscMemSizeAlign = some (s', p) ∧ p ≠ 0 ∧
          allocSize 184 fscMemSizeAlign = exactSize 184 fscMemSizeAlign) ∧
      ∃ s' p, bmMemoryAllocInnerFs smallLinkage smallArena.size smallStart.heap 185
        fscMemSizeAlign = some (s', p) ∧ p = 0 ∧ s'.mem = smallStart.heap.mem ∧
          OnlyEmptyBins smallLinkage smallStart.heap s' := by
  obtain ⟨hvalid, hshape⟩ := smallStart_shape
  constructor
  · obtain ⟨s', p, hrun, hnull, -, hsome⟩ :=
      alloc_complete hshape AlignOk.sizeAlign (show 184 < 2 ^ 32 by decide)
    rw [hvalid.fuel_eq] at hrun
    have hne : p ≠ 0 := by
      rw [Ne, hnull]
      simp only [List.mem_singleton, forall_eq]
      decide
    exact ⟨s', p, hrun, hne, hsome hne⟩
  · obtain ⟨s', p, hrun, hnull, hsame, -⟩ :=
      alloc_complete hshape AlignOk.sizeAlign (show 185 < 2 ^ 32 by decide)
    rw [hvalid.fuel_eq] at hrun
    have hzero : p = 0 := by
      rw [hnull]
      simp only [List.mem_singleton, forall_eq]
      decide
    exact ⟨s', p, hrun, hzero, (hsame hzero).1, (hsame hzero).2⟩

end HiMpu.FscMem
