import HiMpu.FscMemSteps

/-!
# Releasing a block

`bm_memory_free_fsc` of a live pointer finds the block that was handed out.
With an intact tail it succeeds: the block and its free neighbours become one
free block.  With a damaged tail the call reports the overwrite and changes
nothing.
-/

namespace HiMpu.FscMem

open Securec

variable {L : Linkage} {R : Region L} {m : Mem} {bitAmp : ℕ} {blocks pre post : List Block}
  {bins : ℕ → List ℕ} {b d : Block} {cur n tag : ℕ}

theorem Linkage.head_mod (L : Linkage) (i : ℕ) : L.head i % 4 = 0 := by
  have haligned := L.aligned
  unfold Linkage.head fscMemUsedHeadSize
  omega

theorem Inventory.link_ne_magic (hinv : Inventory L R m bitAmp blocks bins) {z : ℕ}
    (hz : LinkNode L blocks z) : z ≠ fscMemMagicUsed := by
  have hmod : z % 4 = 0 := by
    rcases hz with ⟨i, -, rfl⟩ | ⟨b, hb, -, rfl⟩
    · exact L.head_mod i
    · exact (hinv.inside b hb).2.2.2
  unfold fscMemMagicUsed
  omega

theorem lastTag_ne_zero (hne : lastTag 0 pre ≠ 0) :
    ∃ front d, pre = front ++ [d] ∧ d.isFree = true ∧ lastTag 0 pre = d.size := by
  induction pre using List.reverseRecOn with
  | nil => simp [lastTag] at hne
  | append_singleton front d _ =>
    rw [lastTag_append] at hne ⊢
    cases hfree : d.isFree with
    | false => simp [lastTag, Block.tag, hfree] at hne
    | true => exact ⟨front, d, rfl, hfree, by simp [lastTag, Block.tag, hfree]⟩

namespace Hole

theorem next_magic_iff (hhole : Hole L R m bitAmp pre cur n tag post bins) :
    field m (cur + n) .next = fscMemMagicUsed ↔ ∀ d ∈ post.head?, d.isFree = false := by
  have hright := hhole.right
  cases post with
  | nil =>
    have heq : cur + n = R.hi := hright
    simp [heq, hhole.inventory.endNext]
  | cons d rest =>
    have haddr : d.addr = cur + n := hright.1
    rw [← haddr]
    cases hfree : d.isFree with
    | false => simp [hhole.after.2.2.1 hfree, hfree]
    | true =>
      have hnode := (hhole.inventory.delete_nodes (by simp) hfree).2.1
      simp [hhole.inventory.link_ne_magic hnode, hfree]

theorem absorb_next (hhole : Hole L R m bitAmp pre cur n tag (d :: post) bins)
    (hfree : d.isFree = true) :
    ∃ m', mergeNext m cur = (m', eok) ∧
      (∃ bins', Hole L R m' bitAmp pre cur (n + d.size) d.size post bins') ∧
      UsedFrame (pre ++ d :: post) m m' := by
  have hinv := hhole.inventory
  have hd : d ∈ pre ++ d :: post := by simp
  have hin := hinv.inside d hd
  have hmin := hhole.minSize
  have hlow := hhole.gap.low
  have hfits := R.fits
  have haddr : d.addr = cur + n := hhole.right.1
  obtain ⟨hdsize, -, -, -, hafter⟩ := hhole.after
  have htag : d.tag = d.size := by simp [Block.tag, hfree]
  rw [htag] at hafter
  obtain ⟨bins', hinv'⟩ := hinv.delete hfree
  have hcur : ∀ f, f = .size ∨ f = .prevSize →
      field (bmMemoryDeleteFsc m d.addr) cur f = field m cur f := by
    intro f hf
    apply hinv.delete_field hd hfree _ hf
    intro z hz
    have hoff := hinv.gap_off hhole.gap hz
    exact Or.inr (by omega)
  have hkeep : field (bmMemoryDeleteFsc m d.addr) d.addr .size = d.size :=
    (hinv.delete_field hd hfree (fun z hz => hinv.block_apart hd hz) (Or.inl rfl)).trans hdsize
  -- The header of the successor vanishes inside the enlarged block.
  obtain ⟨m', hm'⟩ : ∃ m', m' =
      (setField (bmMemoryDeleteFsc m d.addr) cur .size (n + d.size)).fill d.addr 32 0 := ⟨_, rfl⟩
  have hmerge : mergeNext m cur = (m', eok) := by
    have hnot : field m d.addr .next ≠ fscMemMagicUsed := by
      rw [haddr, Ne, hhole.next_magic_iff]
      simp [hfree]
    unfold mergeNext
    simp only [hhole.size_eq, ← haddr]
    rw [if_pos hnot, (hcur _ (Or.inl rfl)).trans hhole.size_eq, hkeep]
    rw [memsetS_whole (by omega) (by decide), hm']
    rfl
  have hright : Tiles Block.addr Block.size (cur + (n + d.size)) post R.hi := by
    have htiles := hhole.right.2.2
    rwa [Nat.add_assoc] at htiles
  have hmultiple : (n + d.size) % 4 = 0 := by
    have hn := hhole.multiple
    have hdn := hhole.granular d hd
    omega
  have hleft := hhole.left
  have hbefore' := hinv.delete_tagged hd hfree (fun b hb => by simp [hb]) hhole.before
  have hafter' := hinv.delete_tagged hd hfree (fun b hb => by simp [hb]) hafter
  have hroom : Room L R (bmMemoryDeleteFsc m d.addr) bitAmp pre cur (n + d.size) d.size post
      bins' :=
    { left := hleft
      right := hright
      granular := fun b hb => hhole.granular b (Inventory.mem_of_mem_rest hb)
      minSize := by omega
      multiple := hmultiple
      aligned := hhole.aligned
      before := hbefore'
      after := hafter'
      inventory := hinv' }
  have hfill : ∀ f, field m' cur f =
      field (setField (bmMemoryDeleteFsc m d.addr) cur .size (n + d.size)) cur f := by
    intro f
    rw [hm']
    apply field_congr
    intro y _ hy
    exact Mem.fill_outside (by omega)
  obtain ⟨hhole', hframe⟩ := hroom.hole (w := m')
    (by
      intro y hy
      rw [hm', Mem.fill_outside (by omega), setField_outside (by omega)])
    (by
      rw [hfill, field_setField (Or.inl rfl) (by omega)]
      simp)
    (by
      rw [hfill, field_setField_other (Or.inl rfl) (Or.inr (by decide)),
        hcur _ (Or.inr rfl), hhole.prevSize_eq])
  refine ⟨m', hmerge, ⟨bins', hhole'⟩, ?_⟩
  apply (hinv.delete_frame hd hfree).trans
  apply hframe.mono
  intro b hb hused
  have hne := Block.ne_of_isFree hused hfree
  simpa [hne] using hb

theorem absorb_prev (hhole : Hole L R m bitAmp (pre ++ [d]) cur n tag post bins)
    (hfree : d.isFree = true) :
    ∃ m', mergePrev m cur = ((m', eok), d.addr) ∧ lastTag 0 pre = 0 ∧
      (∃ bins', Hole L R m' bitAmp pre d.addr (d.size + n) tag post bins') ∧
      UsedFrame (pre ++ d :: post) m m' := by
  have hblocks : pre ++ [d] ++ post = pre ++ d :: post := by simp
  have hinv := hhole.inventory
  rw [hblocks] at hinv
  have hd : d ∈ pre ++ d :: post := by simp
  have hin := hinv.inside d hd
  have hmin := hhole.minSize
  have hhigh := hhole.gap.high
  have hfits := R.fits
  have hlo := R.nonnull
  obtain ⟨hbefore, hdsize, hdprev, -, hzero, -⟩ := tagged_append.mp hhole.before
  have hlast : lastTag 0 (pre ++ [d]) = d.size := by
    rw [lastTag_append]
    simp [lastTag, Block.tag, hfree]
  obtain ⟨middle, hleft, hmiddle, -, hend⟩ := Tiles.append_iff.mp hhole.left
  subst hmiddle
  have haddr : d.addr + d.size = cur := hend
  let m1 := setField m d.addr .size (d.size + n)
  obtain ⟨hinv1, hframe1⟩ := hinv.frame_setField (v := d.size + n) (f := .size)
    (Or.inr ⟨d, hd, rfl⟩) (Or.inr ⟨rfl, by omega⟩)
  obtain ⟨bins', hinv2⟩ := hinv1.delete hfree
  have hd2 : ∀ f, f = .size ∨ f = .prevSize →
      field (bmMemoryDeleteFsc m1 d.addr) d.addr f = field m1 d.addr f := by
    intro f hf
    exact hinv1.delete_field hd hfree (fun z hz => hinv1.block_apart hd hz) hf
  let m' := (bmMemoryDeleteFsc m1 d.addr).fill cur 32 0
  have hmerge : mergePrev m cur = ((m', eok), d.addr) := by
    have hback : cur - d.size = d.addr := by omega
    have hpos : ¬ d.size = 0 := by omega
    unfold mergePrev
    simp only [hhole.prevSize_eq, hlast, ne_eq, hpos, not_false_eq_true, if_true, hback,
      hhole.size_eq, hdsize, fscMemUsedHeadSize]
    rw [memsetS_whole (by omega) (by decide)]
  have hroom : Room L R (bmMemoryDeleteFsc m1 d.addr) bitAmp pre d.addr (d.size + n) tag post
      bins' :=
    { left := hleft
      right := by
        have hright := hhole.right
        rwa [← haddr, Nat.add_assoc] at hright
      granular := fun b hb => hhole.granular b (by
        rw [hblocks]
        exact Inventory.mem_of_mem_rest hb)
      minSize := by omega
      multiple := by
        have hn := hhole.multiple
        have hdn := hhole.granular d (by simp)
        omega
      aligned := hin.2.2.2
      before := hinv1.delete_tagged hd hfree (fun b hb => by simp [hb])
        (hinv.setSize_tagged (fun b hb => by simp [hb]) hbefore)
      after := hinv1.delete_tagged hd hfree (fun b hb => by simp [hb])
        (hinv.setSize_tagged (fun b hb => by simp [hb]) hhole.after)
      inventory := hinv2 }
  have hfill : ∀ f, field m' d.addr f = field (bmMemoryDeleteFsc m1 d.addr) d.addr f := by
    intro f
    apply field_congr
    intro y _ hy
    exact Mem.fill_outside (by omega)
  obtain ⟨hhole', hframe⟩ := hroom.hole (w := m')
    (by
      intro y hy
      exact Mem.fill_outside (by omega))
    (by
      rw [hfill, hd2 _ (Or.inl rfl), field_setField (Or.inl rfl) (by omega)]
      simp)
    (by
      rw [hfill, hd2 _ (Or.inr rfl), field_setField_other (Or.inl rfl) (Or.inr (by decide)),
        hdprev])
  refine ⟨m', hmerge, hzero hfree, ⟨bins', hhole'⟩, ?_⟩
  apply hframe1.trans
  apply (hinv1.delete_frame hd hfree).trans
  apply hframe.mono
  intro b hb hused
  have hne := Block.ne_of_isFree hused hfree
  simpa [hne] using hb

theorem merge_next_cases (hhole : Hole L R m bitAmp pre cur n tag post bins) :
    (mergeNext m cur = (m, eok) ∧ ∀ d ∈ post.head?, d.isFree = false) ∨
      ∃ d rest m' bins', post = d :: rest ∧ d.isFree = true ∧ mergeNext m cur = (m', eok) ∧
        Hole L R m' bitAmp pre cur (n + d.size) d.size rest bins' ∧
        (∀ e ∈ rest.head?, e.isFree = false) ∧ UsedFrame (pre ++ post) m m' := by
  by_cases hmagic : field m (cur + n) .next = fscMemMagicUsed
  · left
    refine ⟨?_, hhole.next_magic_iff.mp hmagic⟩
    unfold mergeNext
    simp [hhole.size_eq, hmagic]
  · right
    have hex : ∃ d rest, post = d :: rest ∧ d.isFree = true := by
      rw [hhole.next_magic_iff] at hmagic
      cases post with
      | nil => simp at hmagic
      | cons d rest => exact ⟨d, rest, rfl, by simpa using hmagic⟩
    obtain ⟨d, rest, rfl, hfree⟩ := hex
    obtain ⟨m', hmerge, ⟨bins', hhole'⟩, hframe⟩ := hhole.absorb_next hfree
    refine ⟨d, rest, m', bins', rfl, hfree, hmerge, hhole', ?_, hframe⟩
    -- The absorbed block was free, so the one behind it is not.
    obtain ⟨-, -, -, -, hrest⟩ := hhole.after
    intro e he
    cases rest with
    | nil => simp at he
    | cons c cs =>
      have heq : c = e := by simpa using he
      subst heq
      by_contra hnot
      have hzero : d.tag = 0 := hrest.2.2.2.1 (by simpa using hnot)
      have hin := hhole.inventory.inside d (by simp)
      simp only [Block.tag, hfree, if_true] at hzero
      omega

theorem merge_next (hhole : Hole L R m bitAmp pre cur n tag post bins) :
    ∃ m' n' tag' post', mergeNext m cur = (m', eok) ∧
      (∃ bins', Hole L R m' bitAmp pre cur n' tag' post' bins') ∧
      (∀ d ∈ post'.head?, d.isFree = false) ∧ usedBlocks post' = usedBlocks post ∧
      UsedFrame (pre ++ post) m m' := by
  rcases hhole.merge_next_cases with ⟨hmerge, hpost⟩ |
      ⟨d, rest, m', bins', rfl, hfree, hmerge, hhole', hrest, hframe⟩
  · exact ⟨m, n, tag, post, hmerge, ⟨bins, hhole⟩, hpost, rfl, UsedFrame.refl _ _⟩
  · exact ⟨m', n + d.size, d.size, rest, hmerge, ⟨bins', hhole'⟩, hrest,
      (usedBlocks_cons_free hfree rest).symm, hframe⟩

theorem merge_prev_cases (hhole : Hole L R m bitAmp pre cur n tag post bins) :
    (mergePrev m cur = ((m, eok), cur) ∧ lastTag 0 pre = 0) ∨
      ∃ front d m' bins', pre = front ++ [d] ∧ d.isFree = true ∧
        mergePrev m cur = ((m', eok), d.addr) ∧ lastTag 0 front = 0 ∧
        Hole L R m' bitAmp front d.addr (d.size + n) tag post bins' ∧
        UsedFrame (pre ++ post) m m' := by
  by_cases hzero : lastTag 0 pre = 0
  · left
    refine ⟨?_, hzero⟩
    unfold mergePrev
    simp [hhole.prevSize_eq, hzero]
  · right
    obtain ⟨front, d, rfl, hfree, -⟩ := lastTag_ne_zero hzero
    obtain ⟨m', hmerge, hlast, ⟨bins', hhole'⟩, hframe⟩ := hhole.absorb_prev hfree
    exact ⟨front, d, m', bins', rfl, hfree, hmerge, hlast, hhole', by simpa using hframe⟩

theorem merge_prev (hhole : Hole L R m bitAmp pre cur n tag post bins) :
    ∃ m' cur' n' pre', mergePrev m cur = ((m', eok), cur') ∧
      (∃ bins', Hole L R m' bitAmp pre' cur' n' tag post bins') ∧
      lastTag 0 pre' = 0 ∧ usedBlocks pre' = usedBlocks pre ∧ UsedFrame (pre ++ post) m m' := by
  rcases hhole.merge_prev_cases with ⟨hmerge, hzero⟩ |
      ⟨front, d, m', bins', rfl, hfree, hmerge, hlast, hhole', hframe⟩
  · exact ⟨m, cur, n, pre, hmerge, ⟨bins, hhole⟩, hzero, rfl, UsedFrame.refl _ _⟩
  · refine ⟨m', d.addr, d.size + n, front, hmerge, ⟨bins', hhole'⟩, hlast, ?_, hframe⟩
    rw [usedBlocks_append, usedBlocks_cons_free hfree]
    simp [usedBlocks]

end Hole

theorem Payload.head_addr {a : Allocation} (hpay : Payload m b a) :
    bmMemoryGetHeadAddr m a.ptr = b.addr := by
  have habove := hpay.above
  unfold bmMemoryGetHeadAddr fscMemUsedHeadSize
  rw [hpay.offset]
  omega

namespace HeapShape

variable {s : FscState} {a : Allocation}

theorem free_checks (hshape : HeapShape L R s.mem s.bitAmp (pre ++ d :: post) bins)
    (howner : d.owner = some a) :
    a.ptr ≠ 0 ∧ bmMemoryGetHeadAddr s.mem a.ptr = d.addr ∧ field s.mem d.addr .size = d.size ∧
      field s.mem d.addr .next = fscMemMagicUsed ∧ d.size ≠ 0 := by
  have hused : d.isFree = false := by simp [Block.isFree, howner]
  have hpay := hshape.inventory.payloads d (by simp) a howner
  have hin := hshape.inventory.inside d (by simp)
  have habove := hpay.above
  obtain ⟨hsize, hnext⟩ := hshape.tagged.header (b := d) (by simp)
  exact ⟨by omega, hpay.head_addr, hsize, hnext hused, by omega⟩

theorem free_damaged (hshape : HeapShape L R s.mem s.bitAmp (pre ++ d :: post) bins)
    (howner : d.owner = some a) (htail : ¬ tailIntact s.mem d) :
    bmMemoryFreeFsc L s a.ptr = (s, errnoMemOverwrite) := by
  obtain ⟨hptr, hhead, hsize, hnext, hpos⟩ := hshape.free_checks howner
  unfold tailIntact at htail
  unfold bmMemoryFreeFsc
  simp [hptr, hhead, hsize, hnext, hpos, htail]

theorem free_intact (hshape : HeapShape L R s.mem s.bitAmp (pre ++ d :: post) bins)
    (howner : d.owner = some a) (htail : tailIntact s.mem d) :
    ∃ s' blocks' bins', bmMemoryFreeFsc L s a.ptr = (s', eok) ∧
      HeapShape L R s'.mem s'.bitAmp blocks' bins' ∧
      usedBlocks blocks' = usedBlocks (pre ++ post) ∧ UsedFrame (pre ++ post) s.mem s'.mem := by
  have hused : d.isFree = false := by simp [Block.isFree, howner]
  obtain ⟨hptr, hhead, hsize, hnext, hpos⟩ := hshape.free_checks howner
  obtain ⟨m1, n1, tag1, post1, hmerge1, ⟨bins1, hhole1⟩, hpost1, hsame1, hframe1⟩ :=
    (hshape.open_used hused).merge_next
  obtain ⟨m2, cur2, n2, pre2, hmerge2, ⟨bins2, hhole2⟩, hlast, hsame2, hframe2⟩ :=
    hhole1.merge_prev
  obtain ⟨⟨bins3, hshape3⟩, hframe3⟩ :=
    Hole.close_free (s := { s with mem := m2 }) hhole2 hlast hpost1
  refine ⟨releaseBlock L { s with mem := m2 } cur2, _, bins3, ?_, hshape3, ?_, ?_⟩
  · unfold tailIntact at htail
    unfold bmMemoryFreeFsc
    simp [hptr, hhead, hsize, hnext, hpos, htail, hmerge1, hmerge2]
  · rw [usedBlocks_append, usedBlocks_append, usedBlocks_cons_free rfl, hsame1, hsame2]
  · -- Each stage keeps the used blocks, which are the same at every stage.
    have hmem : ∀ b ∈ pre ++ post, b.isFree = false → b ∈ pre2 ++ post1 := by
      intro b hb hbused
      have hfilter : b ∈ usedBlocks (pre2 ++ post1) := by
        rw [usedBlocks_append, hsame1, hsame2, ← usedBlocks_append]
        exact mem_usedBlocks.mpr ⟨hb, hbused⟩
      exact (mem_usedBlocks.mp hfilter).1
    have hmem1 : ∀ b ∈ pre ++ post, b.isFree = false → b ∈ pre ++ post1 := by
      intro b hb hbused
      have hfilter : b ∈ usedBlocks (pre ++ post1) := by
        rw [usedBlocks_append, hsame1, ← usedBlocks_append]
        exact mem_usedBlocks.mpr ⟨hb, hbused⟩
      exact (mem_usedBlocks.mp hfilter).1
    exact (hframe1.trans (hframe2.mono hmem1)).trans (hframe3.mono hmem)

end HeapShape

end HiMpu.FscMem
