import HiMpu.FscMemWalk

/-!
# Isolation of live allocations

Every live payload is aligned as requested, leads back to the header written
for it, and lies inside its own block.  Since the blocks tile the region, it
is disjoint from every other block, from every other payload and from the
sentinel.
-/

namespace HiMpu.FscMem

variable {L : Linkage} {R : Region L} {S : Session} {A : Arena L} {blocks : List Block}
  {b : Block} {a a' : Allocation}

def Disjoint (a a' : Allocation) : Prop :=
  a.ptr + a.size ≤ a'.ptr ∨ a'.ptr + a'.size ≤ a.ptr

structure Isolated (A : Arena L) (s : FscState) (a : Allocation) : Prop where
  aligned : a.ptr % a.align = 0
  recovered : bmMemoryGetHeadAddr s.mem a.ptr = a.ctrl
  offsetFits : a.ptr - (a.ctrl + fscMemUsedHeadSize) < 2 ^ 16
  above : a.ctrl + fscMemUsedHeadSize ≤ a.ptr
  inside : a.ptr + a.size ≤ a.ctrl + field s.mem a.ctrl .size
  isBlock : ∃ headers, A.headers s = some headers ∧
    (∃ h ∈ headers, h.addr = a.ctrl ∧ h.used = true) ∧
    ∀ h ∈ headers, h.addr ≠ a.ctrl → a.ptr + a.size ≤ h.addr ∨ h.addr + h.size ≤ a.ptr
  beforeSentinel : a.ptr + a.size ≤ A.sentinel

theorem owners_pairwise {m : Mem} {bitAmp : ℕ} {bins : ℕ → List ℕ}
    (hinv : Inventory L R m bitAmp blocks bins) : (owners blocks).Pairwise Disjoint := by
  unfold owners
  rw [List.pairwise_filterMap]
  apply hinv.apart.imp_of_mem
  intro b c hb hc hbc a ha a' ha'
  have hpay := hinv.payloads b hb a ha
  have hpay' := hinv.payloads c hc a' ha'
  have hbelow := hpay.below
  have habove := hpay'.above
  left
  omega

theorem SessionShape.isolated (hvalid : A.Valid) (hshape : SessionShape L hvalid.region S blocks)
    (ha : a ∈ S.live) : Isolated A S.heap a := by
  obtain ⟨bins, hheap⟩ := hshape.shape
  have hinv := hheap.inventory
  obtain ⟨b, hb, howner⟩ := mem_owners.mp (hshape.live.mem_iff.mp ha)
  have hpay := hinv.payloads b hb a howner
  have hused := isFree_of_owner howner
  have hbelow := hpay.below
  have habove := hpay.above
  have hin := hinv.inside b hb
  have hctrl := hpay.ctrl_eq
  refine
    { aligned := hpay.aligned
      recovered := hpay.head_addr.trans hctrl.symm
      offsetFits := ?_
      above := ?_
      inside := ?_
      isBlock := ?_
      beforeSentinel := hbelow.trans hin.2.1 }
  · rw [hctrl]
    exact hpay.near
  · rw [hctrl]
    exact habove
  · rw [hctrl, (hheap.tagged.header hb).1]
    exact hbelow
  · refine ⟨_, (hheap.wellFormed hvalid).walk, ?_, ?_⟩
    · refine ⟨b.header S.heap.mem, List.mem_map_of_mem hb, hctrl.symm, ?_⟩
      rw [hheap.header_used hb, hused]
      rfl
    · intro h hh hne
      obtain ⟨c, hc, rfl⟩ := List.mem_map.mp hh
      have hcsize := hheap.header_size hc
      have haddr : (c.header S.heap.mem).addr = c.addr := rfl
      rw [haddr] at hne
      rw [hcsize, haddr]
      rcases hinv.disjoint hb hc with rfl | hbc | hcb
      · exact absurd hctrl.symm hne
      · left
        omega
      · right
        omega

/-- In every reachable session each live allocation is isolated and no two
live payloads share a byte. -/
theorem live_isolated_of_reachable (hreach : (heapSystem L A).Reachable S) :
    (∀ a ∈ S.live, Isolated A S.heap a) ∧ S.live.Pairwise Disjoint := by
  obtain ⟨hvalid, blocks, hshape⟩ := sessionInv_of_reachable hreach
  constructor
  · intro a ha
    exact hshape.isolated hvalid ha
  · obtain ⟨bins, hheap⟩ := hshape.shape
    have hsymm : ∀ {x y : Allocation}, Disjoint x y → Disjoint y x := fun h => h.symm
    exact (hshape.live.pairwise_iff hsymm).mpr (owners_pairwise hheap.inventory)

theorem smallTwo_isolated :
    smallTwo.live.length = 2 ∧ (∀ a ∈ smallTwo.live, Isolated smallArena smallTwo.heap a) ∧
      smallTwo.live.Pairwise Disjoint :=
  ⟨by decide +kernel, live_isolated_of_reachable smallTwo_reachable⟩

end HiMpu.FscMem
