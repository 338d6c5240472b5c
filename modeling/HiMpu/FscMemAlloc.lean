import HiMpu.FscMemSteps
import HiMpu.FscMemSearch

/-!
# Handing out a block

The block is cut off the end of the free block that the search returned, or is
that block as a whole when the remainder would be too small.  The arithmetic
of the request decides whether the payload stays clear of the tail magic.
-/

namespace HiMpu.FscMem

variable {L : Linkage} {R : Region L} {m : Mem} {bitAmp : ℕ} {pre post : List Block}
  {bins : ℕ → List ℕ} {d : Block} {cur n tag : ℕ}

theorem alignUp_spec {x align : ℕ} (hfour : 4 ∣ align) (hpos : 0 < align) (hx : x % 4 = 0) :
    alignUp x align % align = 0 ∧ x ≤ alignUp x align ∧ alignUp x align + 4 ≤ x + align := by
  have hdvd : 4 ∣ alignUp x align := Dvd.dvd.mul_left hfour _
  have hlow := Nat.lt_div_mul_add (a := x + (align - 1)) hpos
  have hhigh := Nat.div_mul_le_self (x + (align - 1)) align
  unfold alignUp at hdvd ⊢
  refine ⟨Nat.mul_mod_left _ _, by omega, by omega⟩

theorem alignUp_eight (size : ℕ) :
    size ≤ alignUp size 8 ∧ alignUp size 8 < size + 8 ∧ alignUp size 8 % 8 = 0 := by
  unfold alignUp
  omega

theorem alignUp_full_iff {x align : ℕ} (hfour : 4 ∣ align) (hpos : 0 < align) (hx : x % 4 = 0) :
    alignUp x align + 4 = x + align ↔ x % align = 4 % align := by
  obtain ⟨hmod, hlow, hhigh⟩ := alignUp_spec hfour hpos hx
  constructor
  · intro heq
    have hcong : (alignUp x align + 4) % align = 4 % align := by
      rw [Nat.add_mod, hmod, Nat.zero_add, Nat.mod_mod]
    rw [heq, Nat.add_mod_right] at hcong
    exact hcong
  · intro hres
    -- Both sides are the same residue in a window of length `align`.
    have hle : 4 ≤ align := Nat.le_of_dvd hpos hfour
    have hcong : (alignUp x align + 4) % align = x % align := by
      rw [hres, Nat.add_mod, hmod, Nat.zero_add, Nat.mod_mod]
    have hdvd : align ∣ alignUp x align + 4 - x :=
      (Nat.modEq_iff_dvd' (by omega)).mp hcong.symm
    have hge : align ≤ alignUp x align + 4 - x := Nat.le_of_dvd (by omega) hdvd
    omega

structure AlignOk (align : ℕ) : Prop where
  four : 4 ∣ align
  pos : 0 < align
  le : align ≤ 2 ^ 14

theorem MemAlign.ok {p : MemAlign} (hp : p ≠ .butt) : AlignOk (2 ^ p.pow) := by
  cases p <;> first | exact absurd rfl hp | exact ⟨by decide, by decide, by decide⟩

theorem AlignOk.sizeAlign : AlignOk fscMemSizeAlign := ⟨by decide, by decide, by decide⟩

def accepted (size align : ℕ) : Prop :=
  size ≠ 0 ∧
    ¬ (allocSize size align < size ∨
      fscMemMaxval - fscMemUsedHeadSize - fscMemTailSize ≤ allocSize size align)

instance (size align : ℕ) : Decidable (accepted size align) := by
  unfold accepted
  infer_instance

theorem allocSize_eq {size align : ℕ} (halign : AlignOk align) (hsize : size < 2 ^ 32)
    (hacc : accepted size align) :
    allocSize size align = alignUp size 8 + align + 28 ∧ allocSize size align < 2 ^ 31 ∧
      40 ≤ allocSize size align ∧ allocSize size align % 4 = 0 := by
  obtain ⟨hzero, hguard⟩ := hacc
  obtain ⟨hlow, hhigh, height⟩ := alignUp_eight size
  have hle := halign.le
  have hpos := halign.pos
  have hfour := halign.four
  unfold allocSize fscMemMaxval fscMemSizeAlign fscMemUsedHeadSize fscMemTailSize at *
  omega

/-- When the payload of a request that gets the `n` bytes at `cur` stays clear
of the tail magic: the rounding of the size leaves four spare bytes, or the
padding is not maximal, or the block is larger than needed. -/
def Roomy (size align cur n : ℕ) : Prop :=
  (1 ≤ size % 8 ∧ size % 8 ≤ 4) ∨ (cur + 32) % align ≠ 4 % align ∨
    allocSize size align + 4 ≤ n

instance (size align cur n : ℕ) : Decidable (Roomy size align cur n) := by
  unfold Roomy
  infer_instance

structure Placed (size align cur n useAddr : ℕ) : Prop where
  nonempty : 0 < size
  aligned : useAddr % align = 0
  above : cur + 32 ≤ useAddr
  below : useAddr + size ≤ cur + n
  beforeTail : useAddr + 8 ≤ cur + n
  near : useAddr - (cur + 32) < 2 ^ 16

theorem placed_of_accepted {size align : ℕ} (halign : AlignOk align) (hsize : size < 2 ^ 32)
    (hacc : accepted size align) (hcur : cur % 4 = 0) (hn : allocSize size align ≤ n) :
    Placed size align cur n (alignUp (cur + 32) align) := by
  obtain ⟨heq, -, -, -⟩ := allocSize_eq halign hsize hacc
  obtain ⟨hlow, hhigh, height⟩ := alignUp_eight size
  obtain ⟨hmod, habove, hpad⟩ := alignUp_spec (x := cur + 32) halign.four halign.pos (by omega)
  have hle := halign.le
  have hpos : 0 < size := Nat.pos_of_ne_zero hacc.1
  exact ⟨hpos, hmod, habove, by omega, by omega, by omega⟩

theorem clear_iff_roomy {size align : ℕ} (halign : AlignOk align) (hsize : size < 2 ^ 32)
    (hacc : accepted size align) (hcur : cur % 4 = 0) (hn : allocSize size align ≤ n)
    (hmult : n % 4 = 0) :
    alignUp (cur + 32) align + size + 4 ≤ cur + n ↔ Roomy size align cur n := by
  obtain ⟨heq, -, -, hasize⟩ := allocSize_eq halign hsize hacc
  obtain ⟨hlow, hhigh, height⟩ := alignUp_eight size
  obtain ⟨hmod, habove, hpad⟩ := alignUp_spec (x := cur + 32) halign.four halign.pos (by omega)
  have hfull := alignUp_full_iff (x := cur + 32) halign.four halign.pos (by omega)
  have hdvd : 4 ∣ alignUp (cur + 32) align := Dvd.dvd.mul_left halign.four _
  have hfour := halign.four
  have hpos : 0 < size := Nat.pos_of_ne_zero hacc.1
  unfold Roomy
  rw [Ne, ← hfull]
  omega

-- The proofs below go through the specifications; unfolding the writes to bytes
-- would only slow the unifier down.
attribute [local irreducible] setField bmMemoryDeleteFsc bmMemoryInsertFsc

def rebin (L : Linkage) (s : FscState) (current idx : ℕ) : FscState :=
  if idx ≠ fscMemSz2idx (field s.mem current .size) then
    bmMemoryInsertFsc L { s with mem := bmMemoryDeleteFsc s.mem current } current
  else s

theorem splitBlock_eq (L : Linkage) (s : FscState) (current idx asize rest : ℕ) (s' : FscState)
    (hrest : field s.mem current .size - asize = rest)
    (hs' : rebin L { s with mem := setField s.mem current .size rest } current idx = s')
    (hsize : field s'.mem current .size = rest) :
    splitBlock L s current idx asize =
      (⟨setField (setField s'.mem (current + rest) .prevSize rest) (current + rest) .size asize,
        s'.bitAmp⟩, current + rest) := by
  unfold rebin at hs'
  unfold splitBlock
  simp only [hrest, hs', hsize]

theorem Inventory.rebin_free {s : FscState} {addr size rest : ℕ}
    (hinv : Inventory L R s.mem s.bitAmp (pre ++ ⟨addr, size, none⟩ :: post) bins)
    (hsize : field s.mem addr .size = rest) (hmin : 32 ≤ rest) (hle : rest ≤ size) :
    (∃ bins', Inventory L R (rebin L s addr (Nat.log 2 size)).mem
        (rebin L s addr (Nat.log 2 size)).bitAmp (pre ++ ⟨addr, rest, none⟩ :: post) bins') ∧
      (∀ tag xs, (∀ b ∈ xs, b ∈ pre ++ post) → Tagged s.mem tag xs →
        Tagged (rebin L s addr (Nat.log 2 size)).mem tag xs) ∧
      (∀ f, f = .size ∨ f = .prevSize →
        field (rebin L s addr (Nat.log 2 size)).mem addr f = field s.mem addr f) ∧
      UsedFrame (pre ++ post) s.mem (rebin L s addr (Nat.log 2 size)).mem := by
  have hd : (⟨addr, size, none⟩ : Block) ∈ pre ++ ⟨addr, size, none⟩ :: post := by simp
  have hfree : Block.isFree ⟨addr, size, none⟩ = true := rfl
  have hin := hinv.inside _ hd
  simp only at hin
  have hsmall := R.small
  have hidx : fscMemSz2idx rest = Nat.log 2 rest := fscMemSz2idx_eq_log (by omega)
  unfold rebin
  rw [hsize, hidx]
  by_cases hlog : Nat.log 2 size = Nat.log 2 rest
  · rw [if_neg (not_not_intro hlog)]
    exact ⟨⟨bins, hinv.shrink hle hmin hlog.symm⟩, fun _ _ _ htag => htag, fun _ _ => rfl,
      UsedFrame.refl _ _⟩
  · rw [if_pos hlog]
    obtain ⟨bins2, hinv2⟩ := hinv.delete hfree
    simp only at hinv2
    have hkeep : ∀ f, f = .size ∨ f = .prevSize →
        field (bmMemoryDeleteFsc s.mem addr) addr f = field s.mem addr f := by
      intro f hf
      exact hinv.delete_field hd hfree (fun z hz => hinv.block_apart hd hz) hf
    have hsize2 := (hkeep _ (Or.inl rfl)).trans hsize
    have hpair := hinv.apart
    rw [List.pairwise_append, List.pairwise_cons] at hpair
    have hgap : Gap R pre post addr rest :=
      { low := hin.1
        high := by omega
        minSize := hmin
        aligned := hin.2.2.2
        before := fun b hb => hpair.2.2 b hb _ (List.mem_cons_self ..)
        after := by
          intro b hb
          have hbound := hpair.2.1.1 b hb
          simp only at hbound
          omega }
    obtain ⟨hinv3, htags, hfields, hframe⟩ :=
      insert_spec (s := { s with mem := bmMemoryDeleteFsc s.mem addr }) hinv2 hgap hsize2
    refine ⟨hinv3, ?_, ?_, ?_⟩
    · intro tag xs hsub htag
      have htag' := hinv.delete_tagged hd hfree (fun b hb => mem_of_mem_rest (hsub b hb)) htag
      exact htags tag xs hsub htag'
    · intro f hf
      exact (hfields f hf).trans (hkeep f hf)
    · have hframe' := (hinv.delete_frame hd hfree).mono fun b hb _ => mem_of_mem_rest hb
      exact hframe'.trans hframe

theorem HeapShape.split_free {s : FscState} {addr size asize : ℕ}
    (hshape : HeapShape L R s.mem s.bitAmp (pre ++ ⟨addr, size, none⟩ :: post) bins)
    (hmin : 40 ≤ asize) (hmod : asize % 4 = 0) (hroom : asize + 40 ≤ size) :
    ∃ s' bins', splitBlock L s addr (Nat.log 2 size) asize = (s', addr + (size - asize)) ∧
      Hole L R s'.mem s'.bitAmp (pre ++ [⟨addr, size - asize, none⟩]) (addr + (size - asize))
        asize size post bins' ∧
      UsedFrame (pre ++ post) s.mem s'.mem := by
  have hinv := hshape.inventory
  have hd : (⟨addr, size, none⟩ : Block) ∈ pre ++ ⟨addr, size, none⟩ :: post := by simp
  have hin := hinv.inside _ hd
  simp only at hin
  have hgran : size % 4 = 0 := hshape.granular _ hd
  have hfits := R.fits
  obtain ⟨hleft, hright⟩ := hshape.split_tiles
  obtain ⟨hbefore, hsize, hprev, -, hzero, hafter⟩ := tagged_append.mp hshape.tagged
  simp only [Block.tag, Block.isFree, Option.isNone_none, if_true] at hleft hright hsize hafter
  have hzero' : lastTag 0 pre = 0 := hzero rfl
  obtain ⟨rest, hrest⟩ : ∃ rest, size - asize = rest := ⟨_, rfl⟩
  rw [hrest]
  -- The remainder is written into the header first.
  obtain ⟨hinv1, hframe1⟩ := hinv.frame_setField (v := rest) (f := .size)
    (Or.inr ⟨_, hd, rfl⟩) (Or.inr ⟨rfl, by simp only; omega⟩)
  have hbefore1 := hinv.setSize_tagged (v := rest) (fun b hb => by simp [hb]) hbefore
  have hafter1 := hinv.setSize_tagged (v := rest) (fun b hb => by simp [hb]) hafter
  have hsize1 : field (setField s.mem addr .size rest) addr .size = rest := by
    rw [field_setField (Or.inl rfl) (by omega)]
    simp
  have hprev1 : field (setField s.mem addr .size rest) addr .prevSize = 0 := by
    rw [field_setField_other (Or.inl rfl) (Or.inr (by decide)), hprev, hzero']
  obtain ⟨⟨bins2, hinv2⟩, htags, hkeep, hframe2⟩ :=
    Inventory.rebin_free (s := { s with mem := setField s.mem addr .size rest }) hinv1 hsize1
      (by omega) (by omega)
  obtain ⟨s2, hs2⟩ : ∃ s2, rebin L { s with mem := setField s.mem addr .size rest } addr
      (Nat.log 2 size) = s2 := ⟨_, rfl⟩
  rw [hs2] at hinv2 htags hkeep hframe2
  have hsize2 := (hkeep _ (Or.inl rfl)).trans hsize1
  have hprev2 := (hkeep _ (Or.inr rfl)).trans hprev1
  have htagged : Tagged s2.mem 0 (pre ++ [⟨addr, rest, none⟩]) := by
    rw [tagged_append]
    have hbefore2 := htags _ _ (fun b hb => by simp [hb]) hbefore1
    exact ⟨hbefore2, hsize2, hprev2.trans hzero'.symm, by simp [Block.isFree],
      fun _ => hzero', trivial⟩
  have hafter2 := htags _ _ (fun b hb => by simp [hb]) hafter1
  have hlast : lastTag 0 (pre ++ [⟨addr, rest, none⟩]) = rest := by
    rw [lastTag_append]
    simp [lastTag, Block.tag, Block.isFree]
  have hplotLeft : Tiles Block.addr Block.size R.lo (pre ++ [⟨addr, rest, none⟩]) (addr + rest) := by
    rw [Tiles.append_iff]
    exact ⟨addr, hleft, rfl, by simp only; omega, rfl⟩
  have hplotRight : Tiles Block.addr Block.size (addr + rest + asize) post R.hi := by
    have heq : addr + rest + asize = addr + size := by omega
    rw [heq]
    exact hright
  have hplot : Room L R s2.mem s2.bitAmp (pre ++ [⟨addr, rest, none⟩]) (addr + rest) asize size
      post bins2 :=
    { left := hplotLeft
      right := hplotRight
      granular := by
        intro b hb
        by_cases hbc : b = ⟨addr, rest, none⟩
        · subst hbc
          simp only
          omega
        · exact hshape.granular b (Inventory.mem_of_mem_rest (by simpa [hbc] using hb))
      minSize := by omega
      multiple := hmod
      aligned := by omega
      before := htagged
      after := hafter2
      inventory := by simpa using hinv2 }
  -- The two header members of the block that was cut off lie inside it.
  obtain ⟨m3, hm3⟩ : ∃ m3, m3 = setField (setField s2.mem (addr + rest) .prevSize rest)
      (addr + rest) .size asize := ⟨_, rfl⟩
  obtain ⟨hhole, hframe3⟩ := hplot.hole (w := m3)
    (by
      intro y hy
      rw [hm3, setField_outside (by omega), setField_outside (by omega)])
    (by
      rw [hm3, field_setField (Or.inl rfl) (by omega)]
      simp)
    (by
      rw [hm3, field_setField_other (Or.inl rfl) (Or.inr (by decide)),
        field_setField (Or.inl rfl) (by omega), hlast]
      simp)
  refine ⟨⟨m3, s2.bitAmp⟩, bins2, ?_, hhole, ?_⟩
  · have hcut : field s.mem addr .size - asize = rest := by rw [hsize, hrest]
    rw [splitBlock_eq L s addr (Nat.log 2 size) asize rest s2 hcut hs2 hsize2, hm3]
  · have hframe1' := hframe1.mono fun b (hb : b ∈ pre ++ post) _ => Inventory.mem_of_mem_rest hb
    have hframe3' : UsedFrame (pre ++ post) s2.mem m3 := by
      apply hframe3.mono
      intro b hb _
      simp only [List.append_assoc, List.singleton_append]
      exact Inventory.mem_of_mem_rest hb
    exact (hframe1'.trans hframe2).trans hframe3'

theorem markUsed_fields {size align useAddr : ℕ} (hplaced : Placed size align cur n useAddr)
    (hsize : field m cur .size = n) :
    let m1 := setField m (cur + n) .prevSize 0
    (∀ y, y < cur ∨ cur + n ≤ y → markUsed m cur useAddr y = m1 y) ∧
      field (markUsed m cur useAddr) cur .next = fscMemMagicUsed ∧
      field (markUsed m cur useAddr) cur .size = field m1 cur .size ∧
      field (markUsed m cur useAddr) cur .prevSize = field m1 cur .prevSize ∧
      (markUsed m cur useAddr).load (useAddr - 2) 2 = useAddr - (cur + 32) ∧
      (markUsed m cur useAddr).load (cur + n - 4) 4 = fscMemTailMagic := by
  intro m1
  have habove := hplaced.above
  have htail := hplaced.beforeTail
  have hnear := hplaced.near
  have hkeep : field m1 cur .size = n := by
    rw [← hsize]
    apply field_setField_other
    · exact Or.inr (Or.inl (by omega))
    · left
      omega
  have hkeep2 : field (setField m1 cur .next fscMemMagicUsed) cur .size = n := by
    rw [field_setField_other (Or.inl rfl) (Or.inr (by decide)), hkeep]
  have heq : markUsed m cur useAddr =
      (setField ((setField m1 cur .next fscMemMagicUsed).store (cur + (n - 4)) 4 fscMemTailMagic)
        cur .prev 0).store (useAddr - 2) 2 ((useAddr - (cur + 32)) % 2 ^ 16) := by
    unfold markUsed bmMemorySetHeadAddr
    simp only [hsize, fscMemTailSize, fscMemUsedHeadSize]
    rw [hkeep2]
  -- The two stores outside the header touch no member but `prev`.
  have hhead : ∀ f, f ≠ .prev → field (markUsed m cur useAddr) cur f =
      field (setField m1 cur .next fscMemMagicUsed) cur f := by
    intro f hf
    have hoff : f.offset + 8 ≤ 24 := by cases f <;> simp_all [Field.offset]
    rw [heq]
    have hlast : ∀ (m2 : Mem) v, field (m2.store (useAddr - 2) 2 v) cur f = field m2 cur f := by
      intro m2 v
      apply Mem.load_store_disjoint
      omega
    rw [hlast, field_setField_other (Or.inl rfl) (Or.inr hf)]
    exact field_store_outside f (by omega)
  refine ⟨?_, ?_, ?_, ?_, ?_, ?_⟩
  · intro y hy
    rw [heq, Mem.store_outside (by omega), setField_outside (by omega),
      Mem.store_outside (by omega), setField_outside (by omega)]
  · rw [hhead _ (by decide), field_setField (Or.inl rfl) (by decide)]
    simp
  · rw [hhead _ (by decide), field_setField_other (Or.inl rfl) (Or.inr (by decide))]
  · rw [hhead _ (by decide), field_setField_other (Or.inl rfl) (Or.inr (by decide))]
  · rw [heq, Mem.load_store_same_of_lt]
    · omega
    · norm_num
      omega
  · have hplace : cur + (n - 4) = cur + n - 4 := by omega
    rw [heq, Mem.load_store_disjoint (by omega)]
    rw [Mem.load_congr (m := (setField m1 cur .next fscMemMagicUsed).store (cur + (n - 4)) 4
      fscMemTailMagic) (fun y hlow _ => setField_outside (by omega)), hplace,
      Mem.load_store_same_of_lt (by decide)]

theorem Hole.mark_used {size align useAddr : ℕ}
    (hhole : Hole L R m bitAmp pre cur n tag post bins)
    (hplaced : Placed size align cur n useAddr) :
    HeapShape L R (markUsed m cur useAddr) bitAmp
        (pre ++ ⟨cur, n, some ⟨useAddr, size, align, cur⟩⟩ :: post) bins ∧
      tailIntact (markUsed m cur useAddr) ⟨cur, n, some ⟨useAddr, size, align, cur⟩⟩ ∧
      UsedFrame (pre ++ post) m (markUsed m cur useAddr) := by
  obtain ⟨hout, hnext, hsize, hprev, hoffset, htail⟩ := markUsed_fields hplaced hhole.size_eq
  obtain ⟨hhole1, hframe1⟩ := hhole.retag (v := 0) (by decide) (fun _ _ _ => rfl)
  obtain ⟨hhole2, hframe2⟩ := hhole1.toRoom.hole hout (hsize.trans hhole1.size_eq)
    (hprev.trans hhole1.prevSize_eq)
  have hpay : Payload (markUsed m cur useAddr) ⟨cur, n, some ⟨useAddr, size, align, cur⟩⟩
      ⟨useAddr, size, align, cur⟩ :=
    { ctrl_eq := rfl
      nonempty := hplaced.nonempty
      aligned := hplaced.aligned
      above := hplaced.above
      below := hplaced.below
      near := hplaced.near
      offset := hoffset }
  exact ⟨hhole2.close_used hnext hpay, htail, hframe1.trans hframe2⟩

def carve (free size asize : ℕ) : ℕ × ℕ :=
  if asize + fscMemMinSize ≤ size then (free + (size - asize), asize) else (free, size)

def chosen (L : Linkage) (fuel : ℕ) (s : FscState) (asize : ℕ) : Option (ℕ × ℕ) :=
  (bmMemorySearchFsc L fuel s asize).bind fun found =>
    if found.2.1 = 0 then none
    else some (carve found.2.1 (field s.mem found.2.1 .size) asize)

theorem chosen_eq {s s1 : FscState} {fuel asize block idx : ℕ}
    (hsearch : bmMemorySearchFsc L fuel s asize = some (s1, block, idx)) (hblock : block ≠ 0) :
    chosen L fuel s asize = some (carve block (field s.mem block .size) asize) := by
  unfold chosen
  rewrite [hsearch, Option.bind_some]
  exact if_neg hblock

theorem chosen_null {s s1 : FscState} {fuel asize idx : ℕ}
    (hsearch : bmMemorySearchFsc L fuel s asize = some (s1, 0, idx)) :
    chosen L fuel s asize = none := by
  unfold chosen
  rewrite [hsearch, Option.bind_some]
  exact if_pos rfl

structure Granted (L : Linkage) (R : Region L) (s s' : FscState) (blocks : List Block)
    (size align cur n : ℕ) (a : Allocation) (left right : List Block) : Prop where
  alloc_eq : a = ⟨alignUp (cur + 32) align, size, align, cur⟩
  chosen_eq : chosen L R.fuel s (allocSize size align) = some (cur, n)
  enough : allocSize size align ≤ n
  aligned : cur % 4 = 0
  multiple : n % 4 = 0
  shape : ∃ bins', HeapShape L R s'.mem s'.bitAmp (left ++ ⟨cur, n, some a⟩ :: right) bins'
  others : usedBlocks (left ++ right) = usedBlocks blocks
  intact : tailIntact s'.mem ⟨cur, n, some a⟩
  frame : UsedFrame (left ++ right) s.mem s'.mem

attribute [local irreducible] allocSize alignUp markUsed bmMemorySearchFsc

theorem Hole.granted {s s' : FscState} {blocks left right : List Block} {size align : ℕ}
    (hhole : Hole L R s'.mem s'.bitAmp left cur n tag right bins)
    (hplaced : Placed size align cur n (alignUp (cur + 32) align))
    (hchosen : chosen L R.fuel s (allocSize size align) = some (cur, n))
    (henough : allocSize size align ≤ n)
    (hothers : usedBlocks (left ++ right) = usedBlocks blocks)
    (hframe : UsedFrame (left ++ right) s.mem s'.mem) :
    Granted L R s { s' with mem := markUsed s'.mem cur (alignUp (cur + 32) align) } blocks size
      align cur n ⟨alignUp (cur + 32) align, size, align, cur⟩ left right := by
  obtain ⟨hshape, hintact, hframe'⟩ := hhole.mark_used hplaced
  exact
    { alloc_eq := rfl
      chosen_eq := hchosen
      enough := henough
      aligned := hhole.aligned
      multiple := hhole.multiple
      shape := ⟨bins, hshape⟩
      others := hothers
      intact := hintact
      frame := hframe.trans hframe' }

theorem allocInner_rejected {s : FscState} {size align fuel : ℕ} (hacc : ¬ accepted size align) :
    allocInner L fuel s size align = some (s, none) := by
  unfold accepted at hacc
  unfold allocInner
  by_cases hzero : size = 0
  · rw [if_pos hzero]
  · have hguard : allocSize size align < size ∨
        fscMemMaxval - fscMemUsedHeadSize - fscMemTailSize ≤ allocSize size align := by
      by_contra hnot
      exact hacc ⟨hzero, hnot⟩
    rw [if_neg hzero]
    exact if_pos hguard

theorem allocInner_accepted {s s1 : FscState} {size align fuel block idx : ℕ}
    (hacc : accepted size align)
    (hsearch : bmMemorySearchFsc L fuel s (allocSize size align) = some (s1, block, idx)) :
    allocInner L fuel s size align =
      if block = 0 then some (s1, none)
      else
        let taken := takeBlock L s1 block idx (allocSize size align)
        let useAddr := alignUp (taken.2 + fscMemUsedHeadSize) align
        some ({ taken.1 with mem := markUsed taken.1.mem taken.2 useAddr },
          some (taken.2, useAddr)) := by
  unfold allocInner
  rw [if_neg hacc.1]
  refine (if_neg hacc.2).trans ?_
  rw [hsearch]

theorem HeapShape.take_free {s : FscState} {addr size asize : ℕ}
    (hshape : HeapShape L R s.mem s.bitAmp (pre ++ ⟨addr, size, none⟩ :: post) bins)
    (hmin : 40 ≤ asize) (hmod : asize % 4 = 0) (hfit : asize ≤ size) :
    ∃ s' cur n tag left right bins',
      takeBlock L s addr (Nat.log 2 size) asize = (s', cur) ∧
      carve addr size asize = (cur, n) ∧
      asize ≤ n ∧
      Hole L R s'.mem s'.bitAmp left cur n tag right bins' ∧
      usedBlocks (left ++ right) = usedBlocks (pre ++ ⟨addr, size, none⟩ :: post) ∧
      UsedFrame (left ++ right) s.mem s'.mem := by
  have hd : (⟨addr, size, none⟩ : Block) ∈ pre ++ ⟨addr, size, none⟩ :: post := by simp
  have hdsize : field s.mem addr .size = size := (hshape.tagged.header hd).1
  unfold takeBlock carve
  rw [hdsize]
  by_cases hlarge : asize + fscMemMinSize ≤ size
  · rw [if_pos hlarge, if_pos hlarge]
    obtain ⟨s2, bins2, hcut, hhole, hframe⟩ := hshape.split_free hmin hmod hlarge
    refine ⟨s2, _, asize, size, _, post, bins2, hcut, rfl, le_rfl, hhole, ?_, ?_⟩
    · simp [usedBlocks, Block.isFree]
    · apply hframe.mono
      intro b hb hused
      have hne : b ≠ ⟨addr, size - asize, none⟩ := Block.ne_of_isFree hused rfl
      simpa [hne] using hb
  · rw [if_neg hlarge, if_neg hlarge]
    obtain ⟨⟨bins2, hhole⟩, hframe⟩ := hshape.open_free (d := ⟨addr, size, none⟩) rfl
    refine ⟨_, addr, size, size, pre, post, bins2, rfl, rfl, hfit, hhole, ?_, ?_⟩
    · simp [usedBlocks, Block.isFree]
    · exact hframe.mono fun b hb _ => Inventory.mem_of_mem_rest hb

theorem HeapShape.alloc {s : FscState} {blocks : List Block} {size align : ℕ}
    (hshape : HeapShape L R s.mem s.bitAmp blocks bins) (halign : AlignOk align)
    (hsize : size < 2 ^ 32) :
    (∃ s', allocInner L R.fuel s size align = some (s', none) ∧ s'.mem = s.mem ∧
        HeapShape L R s'.mem s'.bitAmp blocks bins ∧
        (accepted size align → chosen L R.fuel s (allocSize size align) = none)) ∨
      (accepted size align ∧ ∃ s' cur n a left right,
        allocInner L R.fuel s size align = some (s', some (a.ctrl, a.ptr)) ∧
        Granted L R s s' blocks size align cur n a left right) := by
  by_cases hacc : accepted size align
  · obtain ⟨-, hlt, hmin, hmod⟩ := allocSize_eq halign hsize hacc
    have hsizes : ∀ b ∈ blocks, field s.mem b.addr .size = b.size :=
      fun b hb => (hshape.tagged.header hb).1
    obtain ⟨s1, block, idx, hsearch, hfound⟩ :=
      bmMemorySearchFsc_spec hshape.tiles hsizes hshape.inventory
        (show 0 < allocSize size align by omega) hlt
    have htagged1 : Tagged s1.mem 0 blocks := by
      rw [hfound.mem_eq]
      exact hshape.tagged
    have hshape1 : HeapShape L R s1.mem s1.bitAmp blocks bins :=
      ⟨hshape.tiles, hshape.granular, htagged1, hfound.inventory⟩
    rw [allocInner_accepted hacc hsearch]
    rcases hfound.fits with hnull | ⟨d, hd, hfree, haddr, hfit, hidx⟩
    · left
      rw [if_pos hnull]
      subst hnull
      exact ⟨s1, rfl, hfound.mem_eq, hshape1, fun _ => chosen_null hsearch⟩
    · right
      refine ⟨hacc, ?_⟩
      obtain ⟨pre, post, hsplit⟩ := List.append_of_mem hd
      subst hsplit
      obtain ⟨addr, dsize, owner⟩ := d
      have howner : owner = none := by simpa [Block.isFree] using hfree
      subst howner
      simp only at haddr hfit hidx
      subst haddr hidx
      have hin := hshape1.inventory.inside _ hd
      simp only at hin
      have hlo := R.nonnull
      have hnotnull : addr ≠ 0 := by omega
      have hdsize : field s1.mem addr .size = dsize := (hshape1.tagged.header hd).1
      obtain ⟨s2, cur, n, tag, left, right, bins2, htake, hpair, henough, hhole, hothers,
        hframe⟩ := hshape1.take_free hmin hmod hfit
      rw [hfound.mem_eq] at hframe
      have hchosen : chosen L R.fuel s (allocSize size align) = some (cur, n) := by
        rw [chosen_eq hsearch hnotnull, ← hfound.mem_eq, hdsize, hpair]
      have hplaced := placed_of_accepted halign hsize hacc hhole.aligned henough
      have hgranted := hhole.granted hplaced hchosen henough hothers hframe
      refine ⟨_, _, _, _, _, _, ?_, hgranted⟩
      rw [if_neg hnotnull, htake]
      rfl
  · left
    exact ⟨s, allocInner_rejected hacc, rfl, hshape, fun h => absurd h hacc⟩

end HiMpu.FscMem
