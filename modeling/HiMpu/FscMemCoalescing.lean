import HiMpu.FscMemOverwrite

/-!
# Releases coalesce completely

A well-shaped heap has no two free neighbours, so its extents are determined
by its used blocks.  With nothing live one free block is left, and the order
in which a set of pointers is released cannot matter: a release only removes
its own block and does not touch the tail magic of another.
-/

namespace HiMpu.FscMem

open Securec

variable {L : Linkage} {R : Region L} {S S' : Session} {A : Arena L}
  {blocks blocks' : List Block} {b : Block} {a : Allocation}

def freeExtents (A : Arena L) (s : FscState) : Option (List (ℕ × ℕ)) :=
  (A.headers s).map fun headers =>
    (headers.filter fun h => !h.used).map fun h => (h.addr, h.size)

def Session.freeAll (L : Linkage) (S : Session) (ptrs : List ℕ) : Session :=
  ptrs.foldl (fun S ptr => S.release ptr (bmMemoryFreeFsc L S.heap ptr)) S

theorem usedBlocks_eq_nil (hshape : SessionShape L R S blocks) (hlive : S.live = []) :
    usedBlocks blocks = [] := by
  have howners : owners blocks = [] := by
    have hperm := hshape.live
    rw [hlive] at hperm
    exact hperm.nil_eq.symm
  unfold usedBlocks
  rw [List.filter_eq_nil_iff]
  intro b hb
  cases howner : b.owner with
  | none => simp [Block.isFree, howner]
  | some a =>
    have hmem : a ∈ owners blocks := mem_owners.mpr ⟨b, hb, howner⟩
    rw [howners] at hmem
    cases hmem

theorem single_free_block {m : Mem} {bitAmp : ℕ} {bins : ℕ → List ℕ}
    (hheap : HeapShape L R m bitAmp blocks bins) (hused : usedBlocks blocks = []) :
    ∃ owner, blocks = [⟨R.lo, R.hi - R.lo, owner⟩] := by
  have hnonempty := R.nonempty
  obtain ⟨b, rest, rfl⟩ := hheap.tiles.exists_cons (by omega)
  have hfree : ∀ c ∈ b :: rest, c.isFree = true := by
    intro c hc
    by_contra hnot
    have hmem : c ∈ usedBlocks (b :: rest) := mem_usedBlocks.mpr ⟨hc, by simpa using hnot⟩
    rw [hused] at hmem
    cases hmem
  have hpos : ∀ c ∈ b :: rest, 0 < c.size := fun c hc => (hheap.tiles.bounds hc).2.2
  have hend := (hheap.tagged.coalesced hpos).end_of_free hheap.tiles (hfree b (by simp))
  have hrest : usedBlocks rest = [] := by
    rw [usedBlocks_cons_free (hfree b (by simp))] at hused
    exact hused
  unfold usedBlocks at hrest
  rw [hrest] at hend
  obtain ⟨haddr, -, htail⟩ := hheap.tiles
  have hnil : rest = [] := htail.eq_nil hend
  subst hnil
  refine ⟨b.owner, ?_⟩
  have hsize : b.size = R.hi - R.lo := by
    simp only at hend
    omega
  rw [← hsize, ← haddr]

def survives (m : Mem) (ptrs : List ℕ) (b : Block) : Bool :=
  match b.owner with
  | none => true
  | some a => !(decide (a.ptr ∈ ptrs) && decide (tailIntact m b))

theorem survives_congr {m m' : Mem} {ptrs ptrs' : List ℕ}
    (htail : tailIntact m' b ↔ tailIntact m b) (hptrs : ∀ p, p ∈ ptrs' ↔ p ∈ ptrs) :
    survives m' ptrs' b = survives m ptrs b := by
  unfold survives
  cases b.owner with
  | none => rfl
  | some a => simp [htail, hptrs]

theorem survives_cons {m : Mem} {p : ℕ} {l : List ℕ} :
    survives m (p :: l) b = (survives m [p] b && survives m l b) := by
  unfold survives
  cases b.owner with
  | none => rfl
  | some a =>
    by_cases htail : tailIntact m b
    · simp [htail]
    · simp [htail]

theorem SessionShape.release_survivors (hshape : SessionShape L R S blocks) (ha : a ∈ S.live) :
    ∃ blocks', SessionShape L R (S.release a.ptr (bmMemoryFreeFsc L S.heap a.ptr)) blocks' ∧
      usedBlocks blocks' = (usedBlocks blocks).filter (survives S.heap.mem [a.ptr]) ∧
      UsedFrame blocks' S.heap.mem (S.release a.ptr (bmMemoryFreeFsc L S.heap a.ptr)).heap.mem ∧
      ∀ a' ∈ S.live, a'.ptr ≠ a.ptr →
        a' ∈ (S.release a.ptr (bmMemoryFreeFsc L S.heap a.ptr)).live := by
  obtain ⟨pre, d, post, rfl, howner⟩ := hshape.block_of_live ha
  obtain ⟨bins, hheap⟩ := hshape.shape
  have hinv := hheap.inventory
  have hbusy := isFree_of_owner howner
  -- Only the block of the pointer can be dropped.
  have hothers : ∀ b ∈ usedBlocks (pre ++ post), survives S.heap.mem [a.ptr] b = true := by
    intro b hb
    obtain ⟨hmem, -⟩ := mem_usedBlocks.mp hb
    have hne : b ≠ d := fun heq => hinv.rest_addr_ne hmem (by rw [heq])
    unfold survives
    cases hbowner : b.owner with
    | none => rfl
    | some a' =>
      have hptr := hinv.ptr_ne (Inventory.mem_of_mem_rest hmem) (by simp) hne hbowner howner
      simp [hptr]
  have hkeep : (usedBlocks (pre ++ post)).filter (survives S.heap.mem [a.ptr]) =
      usedBlocks (pre ++ post) := List.filter_eq_self.mpr hothers
  rcases hshape.free howner with ⟨htail, s', blocks', hrun, hshape', hused, hframe⟩ |
      ⟨hnot, hrun⟩
  · rw [hrun]
    refine ⟨blocks', hshape', ?_, hframe.mono (mem_of_usedBlocks_eq hused), ?_⟩
    · have hdrop : survives S.heap.mem [a.ptr] d = false := by
        unfold survives
        simp [howner, htail]
      rw [hused, ← hkeep, usedBlocks_append, usedBlocks_append, usedBlocks_cons_used hbusy,
        List.filter_append, List.filter_append, List.filter_cons, hdrop]
      simp
    · intro a' ha' hne
      unfold Session.release
      rw [if_pos rfl]
      exact List.mem_filter.mpr ⟨ha', by simpa using hne⟩
  · rw [hrun, release_overwrite]
    refine ⟨_, hshape, ?_, UsedFrame.refl _ _, fun a' ha' _ => ha'⟩
    symm
    rw [List.filter_eq_self]
    intro b hb
    by_cases hbd : b = d
    · subst hbd
      unfold survives
      simp [howner, hnot]
    · apply hothers
      obtain ⟨hmem, hbusy'⟩ := mem_usedBlocks.mp hb
      exact mem_usedBlocks.mpr ⟨by simpa [hbd] using hmem, hbusy'⟩

theorem SessionShape.freeAll_survivors {ptrs : List ℕ} (hshape : SessionShape L R S blocks)
    (hlive : ∀ p ∈ ptrs, ∃ a ∈ S.live, a.ptr = p) (hnodup : ptrs.Nodup) :
    ∃ blocks', SessionShape L R (S.freeAll L ptrs) blocks' ∧
      usedBlocks blocks' = (usedBlocks blocks).filter (survives S.heap.mem ptrs) := by
  induction ptrs generalizing S blocks with
  | nil =>
    refine ⟨blocks, hshape, ?_⟩
    symm
    rw [List.filter_eq_self]
    intro b _
    unfold survives
    cases b.owner with
    | none => rfl
    | some a => simp
  | cons p ptrs ih =>
    obtain ⟨a, ha, rfl⟩ := hlive p (by simp)
    obtain ⟨hfresh, hnodup'⟩ := List.nodup_cons.mp hnodup
    obtain ⟨blocks1, hshape1, hused1, hframe, hkeep⟩ := hshape.release_survivors ha
    have hlive1 : ∀ q ∈ ptrs, ∃ a' ∈ (S.release a.ptr
        (bmMemoryFreeFsc L S.heap a.ptr)).live, a'.ptr = q := by
      intro q hq
      obtain ⟨a', ha', rfl⟩ := hlive q (by simp [hq])
      have hne : a'.ptr ≠ a.ptr := fun heq => hfresh (heq ▸ hq)
      exact ⟨a', hkeep a' ha' hne, rfl⟩
    obtain ⟨blocks2, hshape2, hused2⟩ := ih hshape1 hlive1 hnodup'
    refine ⟨blocks2, hshape2, ?_⟩
    rw [hused2]
    have hsame : ∀ b ∈ usedBlocks blocks1,
        survives (S.release a.ptr (bmMemoryFreeFsc L S.heap a.ptr)).heap.mem ptrs b =
          survives S.heap.mem ptrs b := by
      intro b hb
      obtain ⟨hmem, hbusy⟩ := mem_usedBlocks.mp hb
      exact survives_congr
        (tailIntact_congr (hshape1.min_size b hmem) (hframe b hmem hbusy)) fun _ => Iff.rfl
    rw [List.filter_congr hsame, hused1, List.filter_filter]
    apply List.filter_congr
    intro b _
    rw [survives_cons (p := a.ptr) (l := ptrs), Bool.and_comm]

def extentsOf (blocks : List Block) : List (ℕ × ℕ × Bool) :=
  blocks.map fun b => (b.addr, b.size, b.isFree)

theorem HeapShape.freeExtents {s : FscState} {bins : ℕ → List ℕ} (hvalid : A.Valid)
    (hheap : HeapShape L hvalid.region s.mem s.bitAmp blocks bins) :
    freeExtents A s =
      some (((extentsOf blocks).filter fun e => e.2.2).map fun e => (e.1, e.2.1)) := by
  unfold FscMem.freeExtents extentsOf
  rw [(hheap.wellFormed hvalid).walk, Option.map_some, List.filter_map, List.map_map,
    List.filter_map, List.map_map]
  have hfilter : blocks.filter ((fun h => !h.used) ∘ Block.header s.mem) =
      blocks.filter ((fun e : ℕ × ℕ × Bool => e.2.2) ∘ fun b => (b.addr, b.size, b.isFree)) := by
    apply List.filter_congr
    intro b hb
    simp [hheap.header_used hb]
  rw [hfilter]
  congr 1
  apply List.map_congr_left
  intro b hb
  have hmem := (List.mem_filter.mp hb).1
  simp only [Function.comp_apply, hheap.header_size hmem]
  rfl

theorem freeExtents_eq {s s' : FscState} {bins bins' : ℕ → List ℕ} (hvalid : A.Valid)
    (hheap : HeapShape L hvalid.region s.mem s.bitAmp blocks bins)
    (hheap' : HeapShape L hvalid.region s'.mem s'.bitAmp blocks' bins')
    (hused : usedBlocks blocks = usedBlocks blocks') : freeExtents A s = freeExtents A s' := by
  have hpos : ∀ b ∈ blocks, 0 < b.size := fun b hb => (hheap.tiles.bounds hb).2.2
  have hpos' : ∀ b ∈ blocks', 0 < b.size := fun b hb => (hheap'.tiles.bounds hb).2.2
  have hextents : extentsOf blocks = extentsOf blocks' :=
    Coalesced.extents_unique hheap.tiles hheap'.tiles (hheap.tagged.coalesced hpos)
      (hheap'.tagged.coalesced hpos') hused
  rw [hheap.freeExtents hvalid, hheap'.freeExtents hvalid, hextents]

/-- With nothing live the heap is one free block of the initial size, followed
by the sentinel; and the same pointers released in two orders leave the same
free extents. -/
theorem releases_coalesce (hreach : (heapSystem L A).Reachable S) :
    (S.live = [] → A.headers S.heap = some [⟨A.addr, A.size - 32, 0, false⟩] ∧
      field S.heap.mem A.sentinel .next = fscMemMagicUsed) ∧
    ∀ ptrs ptrs' : List ℕ, (∀ p ∈ ptrs, ∃ a ∈ S.live, a.ptr = p) → ptrs.Nodup →
      ptrs.Perm ptrs' →
        (freeExtents A (S.freeAll L ptrs).heap).isSome = true ∧
        freeExtents A (S.freeAll L ptrs).heap = freeExtents A (S.freeAll L ptrs').heap := by
  obtain ⟨hvalid, blocks, hshape⟩ := sessionInv_of_reachable hreach
  constructor
  · intro hlive
    obtain ⟨bins, hheap⟩ := hshape.shape
    obtain ⟨owner, rfl⟩ := single_free_block hheap (usedBlocks_eq_nil hshape hlive)
    have hwell := hheap.wellFormed hvalid
    have hwidth : hvalid.region.hi - hvalid.region.lo = A.size - 32 := by
      simp [Arena.Valid.region]
    have hfree : Block.isFree ⟨hvalid.region.lo, hvalid.region.hi - hvalid.region.lo, owner⟩ =
        true := by
      by_contra hnot
      have hmem := mem_usedBlocks.mpr ⟨List.mem_singleton_self _, by simpa using hnot⟩
      rw [usedBlocks_eq_nil hshape hlive] at hmem
      cases hmem
    have hsize := hheap.header_size (List.mem_singleton_self _)
    have hbusy := hheap.header_used (List.mem_singleton_self _)
    have hprev := hwell.prevSizes.1
    rw [hfree] at hbusy
    simp only at hsize
    rw [hwidth] at hsize
    have hheader : Block.header S.heap.mem
        ⟨hvalid.region.lo, hvalid.region.hi - hvalid.region.lo, owner⟩ =
          ⟨A.addr, A.size - 32, 0, false⟩ := Header.ext rfl hsize hprev hbusy
    refine ⟨?_, hwell.sentinelUsed⟩
    rw [hwell.walk, List.map_singleton, hheader]
  · intro ptrs ptrs' hlive hnodup hperm
    have hlive' : ∀ p ∈ ptrs', ∃ a ∈ S.live, a.ptr = p := fun p hp =>
      hlive p (hperm.mem_iff.mpr hp)
    obtain ⟨blocks1, hshape1, hused1⟩ := hshape.freeAll_survivors hlive hnodup
    obtain ⟨blocks2, hshape2, hused2⟩ :=
      hshape.freeAll_survivors hlive' (hperm.nodup_iff.mp hnodup)
    obtain ⟨bins1, hheap1⟩ := hshape1.shape
    obtain ⟨bins2, hheap2⟩ := hshape2.shape
    have hsame : usedBlocks blocks1 = usedBlocks blocks2 := by
      rw [hused1, hused2]
      apply List.filter_congr
      intro b _
      exact survives_congr Iff.rfl fun p => hperm.mem_iff
    constructor
    · rw [hheap1.freeExtents hvalid]
      rfl
    · exact freeExtents_eq hvalid hheap1 hheap2 hsame

theorem smallTwo_coalesces :
    freeExtents smallArena (smallTwo.freeAll smallLinkage [65744, 65664]).heap =
        freeExtents smallArena (smallTwo.freeAll smallLinkage [65664, 65744]).heap ∧
      smallArena.headers smallStart.heap = some [⟨0x10000, 0xe0, 0, false⟩] := by
  constructor
  · exact ((releases_coalesce smallTwo_reachable).2 [65744, 65664] [65664, 65744]
      (by decide +kernel) (by decide) (List.Perm.swap _ _ _)).2
  · exact ((releases_coalesce smallStart_reachable).1 rfl).1

end HiMpu.FscMem
