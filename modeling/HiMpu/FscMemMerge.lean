import HiMpu.FscMemRelease

/-!
# What a release does to free memory

A release writes to control blocks only: the one that is released, those of
the other blocks, the bin heads and the end sentinel.  The bytes between two
control blocks stay, and a control block that vanishes in a larger free block
is zero afterwards.
-/

namespace HiMpu.FscMem

open Securec

variable {L : Linkage} {R : Region L} {m m' m'' : Mem} {bitAmp : ℕ} {blocks pre post : List Block}
  {bins : ℕ → List ℕ} {b d e : Block} {cur n tag : ℕ} {addrs addrs' : List ℕ}

def HeaderFrame (R : Region L) (addrs : List ℕ) (m m' : Mem) : Prop :=
  ∀ y, R.lo ≤ y → y < R.hi → (∀ x ∈ addrs, y < x ∨ x + 32 ≤ y) → m' y = m y

theorem HeaderFrame.refl (R : Region L) (addrs : List ℕ) (m : Mem) : HeaderFrame R addrs m m :=
  fun _ _ _ _ => rfl

theorem HeaderFrame.trans (hfirst : HeaderFrame R addrs m m')
    (hsecond : HeaderFrame R addrs m' m'') : HeaderFrame R addrs m m'' := by
  intro y hlow hhigh hoff
  exact (hsecond y hlow hhigh hoff).trans (hfirst y hlow hhigh hoff)

theorem HeaderFrame.mono (hframe : HeaderFrame R addrs m m') (hsub : addrs ⊆ addrs') :
    HeaderFrame R addrs' m m' :=
  fun y hlow hhigh hoff => hframe y hlow hhigh fun x hx => hoff x (hsub hx)

def Zeroed (m : Mem) (addr : ℕ) : Prop :=
  ∀ y, addr ≤ y → y < addr + 32 → m y = 0

theorem Zeroed.frame {z : ℕ} (hzero : Zeroed m z) (hframe : HeaderFrame R addrs m m')
    (hlow : R.lo ≤ z) (hhigh : z + 32 ≤ R.hi)
    (hoff : ∀ x ∈ addrs, x + 32 ≤ z ∨ z + 32 ≤ x) : Zeroed m' z := by
  intro y hy hy'
  rw [hframe y (by omega) (by omega)]
  · exact hzero y hy hy'
  · intro x hx
    have hapart := hoff x hx
    omega

theorem zeroed_fill (m : Mem) (addr : ℕ) : Zeroed (m.fill addr 32 0) addr := by
  intro y hy hy'
  have hin : addr ≤ y ∧ y < addr + 32 := ⟨hy, hy'⟩
  simp only [Mem.fill, if_pos hin]

theorem off_linkNode {y : ℕ} (hlow : R.lo ≤ y) (hhigh : y < R.hi)
    (hoff : ∀ b ∈ blocks, y < b.addr ∨ b.addr + 32 ≤ y) :
    ∀ z, LinkNode L blocks z → y < z ∨ z + 32 ≤ y := by
  rintro z (⟨i, hi, rfl⟩ | ⟨b, hb, -, rfl⟩)
  · have hhead := R.head_off hi
    omega
  · exact hoff b hb

namespace Hole

def headers (cur : ℕ) (blocks : List Block) : List ℕ := cur :: blocks.map Block.addr

theorem off_headers {y : ℕ} (hoff : ∀ x ∈ headers cur blocks, y < x ∨ x + 32 ≤ y) :
    (y < cur ∨ cur + 32 ≤ y) ∧ ∀ b ∈ blocks, y < b.addr ∨ b.addr + 32 ≤ y :=
  ⟨hoff cur (List.mem_cons_self ..),
    fun _ hb => hoff _ (List.mem_cons_of_mem _ (List.mem_map_of_mem hb))⟩

theorem headers_subset {c : ℕ} {xs ys : List Block} (hc : c ∈ ys.map Block.addr)
    (hsub : ∀ b ∈ xs, b ∈ ys) : headers c xs ⊆ ys.map Block.addr :=
  List.cons_subset.mpr ⟨hc, List.map_subset _ hsub⟩

theorem inside_off (hhole : Hole L R m bitAmp pre cur n tag post bins) {z : ℕ}
    (hlow : cur + 32 ≤ z) (hhigh : z + 32 ≤ cur + n) :
    ∀ x ∈ headers cur (pre ++ post), x + 32 ≤ z ∨ z + 32 ≤ x := by
  intro x hx
  rcases List.mem_cons.mp hx with rfl | hx
  · omega
  · obtain ⟨b, hb, rfl⟩ := List.mem_map.mp hx
    have hin := hhole.inventory.inside b hb
    have hoff := hhole.gap.block_off hb
    omega

theorem absorb_next_bytes (hhole : Hole L R m bitAmp pre cur n tag (d :: post) bins)
    (hfree : d.isFree = true) (hmerge : mergeNext m cur = (m', eok)) :
    HeaderFrame R (headers cur (pre ++ d :: post)) m m' ∧ Zeroed m' d.addr := by
  have hinv := hhole.inventory
  have hd : d ∈ pre ++ d :: post := by simp
  have hin := hinv.inside d hd
  have hlo := R.nonnull
  have haddr : d.addr = cur + n := hhole.right.1
  have hnot : field m d.addr .next ≠ fscMemMagicUsed := by
    rw [haddr, Ne, hhole.next_magic_iff]
    simp [hfree]
  unfold mergeNext at hmerge
  simp only [hhole.size_eq, ← haddr] at hmerge
  rw [if_pos hnot, memsetS_whole (by omega) (by decide)] at hmerge
  obtain ⟨v, hm'⟩ : ∃ v, m' =
      (setField (bmMemoryDeleteFsc m d.addr) cur .size v).fill d.addr 32 0 :=
    ⟨_, (Prod.mk.inj hmerge).1.symm⟩
  subst hm'
  refine ⟨?_, zeroed_fill _ _⟩
  intro y hlow hhigh hoff
  obtain ⟨hcur, hblocks⟩ := off_headers hoff
  have hnext := hblocks d hd
  rw [Mem.fill_outside (by omega), setField_outside hcur,
    hinv.delete_byte hd hfree (off_linkNode hlow hhigh hblocks)]

theorem absorb_prev_bytes (hhole : Hole L R m bitAmp (pre ++ [d]) cur n tag post bins)
    (hfree : d.isFree = true) (hmerge : mergePrev m cur = ((m', eok), d.addr)) :
    HeaderFrame R (headers cur (pre ++ [d] ++ post)) m m' ∧ Zeroed m' cur := by
  have hblocks : pre ++ [d] ++ post = pre ++ d :: post := by simp
  have hinv := hhole.inventory
  have hlow := hhole.gap.low
  have hlo := R.nonnull
  rw [hblocks] at hinv ⊢
  have hd : d ∈ pre ++ d :: post := by simp
  have hin := hinv.inside d hd
  have hbound := hhole.gap.before d (by simp)
  have hend : d.addr + d.size = cur := by
    obtain ⟨middle, -, hmiddle, -, hend⟩ := Tiles.append_iff.mp hhole.left
    rw [hmiddle]
    exact hend
  have hlast : lastTag 0 (pre ++ [d]) = d.size := by
    rw [lastTag_append]
    simp [lastTag, Block.tag, hfree]
  have hpos : ¬ d.size = 0 := by omega
  have hback : cur - d.size = d.addr := by omega
  unfold mergePrev at hmerge
  simp only [hhole.prevSize_eq, hlast, ne_eq, hpos, not_false_eq_true, if_true, hback,
    fscMemUsedHeadSize] at hmerge
  rw [memsetS_whole (by omega) (by decide)] at hmerge
  obtain ⟨v, hm'⟩ : ∃ v, m' =
      (bmMemoryDeleteFsc (setField m d.addr .size v) d.addr).fill cur 32 0 :=
    ⟨_, (Prod.mk.inj (Prod.mk.inj hmerge).1).1.symm⟩
  subst hm'
  refine ⟨?_, zeroed_fill _ _⟩
  intro y hlow hhigh hoff
  obtain ⟨hcur, hother⟩ := off_headers hoff
  obtain ⟨hinv1, -⟩ := hinv.frame_setField (v := v) (f := .size) (Or.inr ⟨d, hd, rfl⟩)
    (Or.inr ⟨rfl, by omega⟩)
  rw [Mem.fill_outside (by omega), hinv1.delete_byte hd hfree (off_linkNode hlow hhigh hother),
    setField_outside (hother d hd)]

theorem close_free_bytes {s : FscState} (hhole : Hole L R s.mem s.bitAmp pre cur n tag post bins) :
    HeaderFrame R (headers cur (pre ++ post)) s.mem (releaseBlock L s cur).mem := by
  have hgap := hhole.gap
  have hright := hhole.right
  have hmem : (bmMemoryInsertFsc L s cur).mem = linkBehind s.mem (L.head (Nat.log 2 n)) cur := by
    simp only [bmMemoryInsertFsc, hhole.size_eq, hgap.sz2idx]
  have hsize : field (bmMemoryInsertFsc L s cur).mem cur .size = n := by
    rw [hmem, hhole.inventory.insert_field hgap hgap.log_lt (Or.inr rfl) (Or.inl rfl),
      hhole.size_eq]
  intro y hlow hhigh hoff
  obtain ⟨hcur, hblocks⟩ := off_headers hoff
  -- The successor is a block or the end sentinel.
  have hnext : y < cur + n ∨ cur + n + 32 ≤ y := by
    cases post with
    | nil =>
      have hend : cur + n = R.hi := hright
      omega
    | cons d rest =>
      rw [← hright.1]
      exact hblocks d (by simp)
  simp only [releaseBlock, hsize]
  rw [setField_outside hnext, hmem,
    hhole.inventory.insert_byte hgap hgap.log_lt (off_linkNode hlow hhigh hblocks) hcur]

theorem merge_next_bytes (hhole : Hole L R m bitAmp pre cur n tag post bins) :
    ∃ m' n' tag' post' bins', mergeNext m cur = (m', eok) ∧
      Hole L R m' bitAmp pre cur n' tag' post' bins' ∧ (∀ d ∈ post'.head?, d.isFree = false) ∧
      usedBlocks post' = usedBlocks post ∧ HeaderFrame R (headers cur (pre ++ post)) m m' ∧
      ((post' = post ∧ n' = n) ∨ ∃ q, post = q :: post' ∧ q.isFree = true ∧
        q.addr = cur + n ∧ n' = n + q.size ∧ Zeroed m' q.addr) := by
  rcases hhole.merge_next_cases with ⟨hmerge, hpost⟩ |
      ⟨q, rest, m', bins', rfl, hfree, hmerge, hhole', hrest, -⟩
  · exact ⟨m, n, tag, post, bins, hmerge, hhole, hpost, rfl, HeaderFrame.refl _ _ _,
      Or.inl ⟨rfl, rfl⟩⟩
  · obtain ⟨hframe, hzero⟩ := hhole.absorb_next_bytes hfree hmerge
    exact ⟨m', n + q.size, q.size, rest, bins', hmerge, hhole', hrest,
      (usedBlocks_cons_free hfree rest).symm, hframe,
      Or.inr ⟨q, rfl, hfree, hhole.right.1, rfl, hzero⟩⟩

theorem merge_prev_bytes (hhole : Hole L R m bitAmp pre cur n tag post bins) :
    ∃ m' cur' n' pre' bins', mergePrev m cur = ((m', eok), cur') ∧
      Hole L R m' bitAmp pre' cur' n' tag post bins' ∧ lastTag 0 pre' = 0 ∧
      usedBlocks pre' = usedBlocks pre ∧ HeaderFrame R (headers cur (pre ++ post)) m m' ∧
      cur' + n' = cur + n ∧ ((pre' = pre ∧ cur' = cur) ∨ ∃ p, pre = pre' ++ [p] ∧
        p.isFree = true ∧ p.addr = cur' ∧ cur' + p.size = cur ∧ Zeroed m' cur) := by
  rcases hhole.merge_prev_cases with ⟨hmerge, hzero⟩ |
      ⟨front, p, m', bins', rfl, hfree, hmerge, hlast, hhole', -⟩
  · exact ⟨m, cur, n, pre, bins, hmerge, hhole, hzero, rfl, HeaderFrame.refl _ _ _, rfl,
      Or.inl ⟨rfl, rfl⟩⟩
  · obtain ⟨hframe, hzero⟩ := hhole.absorb_prev_bytes hfree hmerge
    obtain ⟨middle, -, hmiddle, -, hend⟩ := Tiles.append_iff.mp hhole.left
    have hend' : p.addr + p.size = cur := by
      rw [hmiddle]
      exact hend
    refine ⟨m', p.addr, p.size + n, front, bins', hmerge, hhole', hlast, ?_, hframe, by omega,
      Or.inr ⟨p, rfl, hfree, rfl, hend', hzero⟩⟩
    rw [usedBlocks_append, usedBlocks_cons_free hfree]
    simp [usedBlocks]

end Hole

structure Merged (R : Region L) (m m' : Mem) (pre post pre' post' : List Block) (e big : Block) :
    Prop where
  free : big.isFree = true
  left : (pre' = pre ∧ big.addr = e.addr) ∨ ∃ p, pre = pre' ++ [p] ∧ p.isFree = true ∧
    p.addr = big.addr ∧ p.addr + p.size = e.addr ∧ Zeroed m' e.addr
  right : (post' = post ∧ big.addr + big.size = e.addr + e.size) ∨ ∃ q, post = q :: post' ∧
    q.isFree = true ∧ q.addr = e.addr + e.size ∧ big.addr + big.size = q.addr + q.size ∧
    Zeroed m' q.addr
  frame : HeaderFrame R ((pre ++ e :: post).map Block.addr) m m'

theorem HeapShape.free_merged {s : FscState} {a : Allocation}
    (hshape : HeapShape L R s.mem s.bitAmp (pre ++ e :: post) bins) (howner : e.owner = some a)
    (htail : tailIntact s.mem e) :
    ∃ s' pre' post' big bins', bmMemoryFreeFsc L s a.ptr = (s', eok) ∧
      HeapShape L R s'.mem s'.bitAmp (pre' ++ big :: post') bins' ∧
      usedBlocks (pre' ++ big :: post') = usedBlocks (pre ++ post) ∧
      Merged R s.mem s'.mem pre post pre' post' e big := by
  have hused : e.isFree = false := by simp [Block.isFree, howner]
  have hin := hshape.inventory.inside e (by simp)
  obtain ⟨hptr, hhead, hsize, hnext, hpos⟩ := hshape.free_checks howner
  obtain ⟨m1, n1, tag1, post1, bins1, hmerge1, hhole1, hpost1, hsame1, hframe1, hcase1⟩ :=
    (hshape.open_used hused).merge_next_bytes
  obtain ⟨m2, cur2, n2, pre2, bins2, hmerge2, hhole2, hlast, hsame2, hframe2, hend, hcase2⟩ :=
    hhole1.merge_prev_bytes
  obtain ⟨⟨bins3, hshape3⟩, -⟩ :=
    Hole.close_free (s := { s with mem := m2 }) hhole2 hlast hpost1
  have hframe3 := Hole.close_free_bytes (s := { s with mem := m2 }) hhole2
  have hlow1 := hhole1.gap.low
  have hhigh1 := hhole1.gap.high
  have hlow2 := hhole2.gap.low
  have hhigh2 := hhole2.gap.high
  have hpostMem : ∀ b ∈ post1, b ∈ post := by
    intro b hb
    rcases hcase1 with ⟨rfl, -⟩ | ⟨q, rfl, -⟩
    · exact hb
    · exact List.mem_cons_of_mem _ hb
  have hpreMem : (∀ b ∈ pre2, b ∈ pre) ∧ cur2 ∈ (pre ++ e :: post).map Block.addr := by
    rcases hcase2 with ⟨rfl, rfl⟩ | ⟨p, rfl, -, rfl, -⟩
    · exact ⟨fun b hb => hb, List.mem_map_of_mem (by simp)⟩
    · exact ⟨fun b hb => List.mem_append_left _ hb, List.mem_map_of_mem (by simp)⟩
  have hsub1 : Hole.headers e.addr (pre ++ post) ⊆ (pre ++ e :: post).map Block.addr :=
    Hole.headers_subset (List.mem_map_of_mem (by simp))
    (fun b hb => Inventory.mem_of_mem_rest hb)
  have hsub2 : Hole.headers e.addr (pre ++ post1) ⊆ (pre ++ e :: post).map Block.addr :=
    Hole.headers_subset (List.mem_map_of_mem (by simp))
    (by
      intro b hb
      rcases List.mem_append.mp hb with hb | hb
      · exact List.mem_append_left _ hb
      · exact List.mem_append_right _ (List.mem_cons_of_mem _ (hpostMem b hb)))
  have hsub3 : Hole.headers cur2 (pre2 ++ post1) ⊆ (pre ++ e :: post).map Block.addr :=
    Hole.headers_subset hpreMem.2
    (by
      intro b hb
      rcases List.mem_append.mp hb with hb | hb
      · exact List.mem_append_left _ (hpreMem.1 b hb)
      · exact List.mem_append_right _ (List.mem_cons_of_mem _ (hpostMem b hb)))
  refine ⟨releaseBlock L { s with mem := m2 } cur2, pre2, post1, ⟨cur2, n2, none⟩, bins3, ?_,
    hshape3, ?_, ?_⟩
  · unfold tailIntact at htail
    unfold bmMemoryFreeFsc
    simp [hptr, hhead, hsize, hnext, hpos, htail, hmerge1, hmerge2]
  · rw [usedBlocks_append, usedBlocks_append, usedBlocks_cons_free rfl, hsame1, hsame2]
  · refine ⟨rfl, ?_, ?_, ((hframe1.mono hsub1).trans (hframe2.mono hsub2)).trans
      (hframe3.mono hsub3)⟩
    · rcases hcase2 with ⟨rfl, rfl⟩ | ⟨p, rfl, hfree, haddr, hsum, hzero⟩
      · exact Or.inl ⟨rfl, rfl⟩
      · have hp := hshape.inventory.inside p (by simp)
        have hmin := hhole1.minSize
        refine Or.inr ⟨p, rfl, hfree, haddr, by omega, ?_⟩
        exact hzero.frame hframe3 (by omega) (by omega)
          (hhole2.inside_off (by omega) (by omega))
    · rcases hcase1 with ⟨rfl, rfl⟩ | ⟨q, rfl, hfree, haddr, hsum, hzero⟩
      · exact Or.inl ⟨rfl, hend⟩
      · have hq := hshape.inventory.inside q (by simp)
        have hle : cur2 ≤ e.addr := by
          rcases hcase2 with ⟨-, rfl⟩ | ⟨p, -, -, -, hp, -⟩
          · exact le_rfl
          · omega
        refine Or.inr ⟨q, rfl, hfree, haddr, by simp only; omega, ?_⟩
        have hzero2 := hzero.frame hframe2 (by omega) (by omega)
          (hhole1.inside_off (by omega) (by omega))
        exact hzero2.frame hframe3 (by omega) (by omega)
          (hhole2.inside_off (by omega) (by omega))

end HiMpu.FscMem
