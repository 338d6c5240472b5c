import HiMpu.FscMemWalk

/-!
# In-bounds writes and the tail magic

The overhead of a request is sized for block addresses that are multiples of
eight, but every allocation leaves its block at an address that is four more
than one, or keeps whatever residue an earlier split left.  The padding can
then be four bytes larger than provided for, and the payload reaches into the
tail magic.

`Op.Roomy` is the exact condition on the state before a request.  In a run in
which every request meets it, callers that stay in bounds can always release.
-/

namespace HiMpu.FscMem

open Securec

variable {L : Linkage} {R : Region L} {m m' : Mem} {S S' : Session} {A : Arena L}
  {blocks left right : List Block} {b d : Block} {a : Allocation}

def Clear (m : Mem) (a : Allocation) : Prop :=
  a.ctrl + 32 ≤ a.ptr ∧ a.ptr + a.size + fscMemTailSize ≤ a.ctrl + field m a.ctrl .size

def Op.Roomy (L : Linkage) (A : Arena L) (S : Session) (op : Op) : Prop :=
  ∀ request ∈ op.request, accepted request.1 request.2 →
    ∀ block ∈ chosen L A.size S.heap (allocSize request.1 request.2),
      FscMem.Roomy request.1 request.2 block.1 block.2

instance (L : Linkage) (A : Arena L) (S : Session) (op : Op) : Decidable (op.Roomy L A S) := by
  unfold Op.Roomy
  infer_instance

def Sealed (m : Mem) (blocks : List Block) : Prop :=
  ∀ b ∈ blocks, ∀ a, b.owner = some a →
    tailIntact m b ∧ a.ptr + a.size + 4 ≤ b.addr + b.size

theorem tailIntact_congr (hmin : 32 ≤ b.size)
    (hsame : ∀ y, b.addr + 24 ≤ y → y < b.addr + b.size → m' y = m y) :
    tailIntact m' b ↔ tailIntact m b := by
  unfold tailIntact fscMemTailSize
  rw [Mem.load_congr]
  intro y hlow hhigh
  exact hsame y (by omega) (by omega)

theorem Sealed.frame (hsealed : Sealed m blocks) (hmin : ∀ b ∈ left, 32 ≤ b.size)
    (hused : ∀ b ∈ left, b.isFree = false → b ∈ blocks) (hframe : UsedFrame left m m') :
    Sealed m' left := by
  intro b hb a howner
  have hbusy := isFree_of_owner howner
  obtain ⟨htail, hclear⟩ := hsealed b (hused b hb hbusy) a howner
  exact ⟨(tailIntact_congr (hmin b hb) (hframe b hb hbusy)).mpr htail, hclear⟩

theorem mem_of_usedBlocks_eq {xs ys : List Block} (heq : usedBlocks xs = usedBlocks ys) :
    ∀ b ∈ xs, b.isFree = false → b ∈ ys := by
  intro b hb hused
  have hmem : b ∈ usedBlocks ys := heq ▸ mem_usedBlocks.mpr ⟨hb, hused⟩
  exact (mem_usedBlocks.mp hmem).1

theorem SessionShape.min_size (hshape : SessionShape L R S blocks) :
    ∀ b ∈ blocks, 32 ≤ b.size := by
  obtain ⟨bins, hheap⟩ := hshape.shape
  exact fun b hb => (hheap.inventory.inside b hb).2.2.1

theorem Granted.sealed {s s' : FscState} {size align cur n : ℕ}
    (hgranted : Granted L R s s' blocks size align cur n a left right)
    (hsealed : Sealed s.mem blocks) (halign : AlignOk align) (hsize : size < 2 ^ 32)
    (hacc : accepted size align) (hroomy : FscMem.Roomy size align cur n) :
    Sealed s'.mem (left ++ ⟨cur, n, some a⟩ :: right) := by
  obtain ⟨bins, hheap⟩ := hgranted.shape
  have hmin : ∀ b ∈ left ++ right, 32 ≤ b.size := fun b hb =>
    (hheap.inventory.inside b (Inventory.mem_of_mem_rest hb)).2.2.1
  have hrest : Sealed s'.mem (left ++ right) :=
    hsealed.frame hmin (mem_of_usedBlocks_eq hgranted.others) hgranted.frame
  intro b hb a' howner
  by_cases hbc : b = ⟨cur, n, some a⟩
  · subst hbc
    have heq : a = a' := by simpa using howner
    subst heq
    refine ⟨hgranted.intact, ?_⟩
    rw [hgranted.alloc_eq]
    exact (clear_iff_roomy halign hsize hacc hgranted.aligned hgranted.enough
      hgranted.multiple).mpr hroomy
  · exact hrest b (by simpa [hbc] using hb) a' howner

theorem Sealed.poke {y : ℕ} {byte : UInt8} (hshape : SessionShape L R S blocks)
    (hsealed : Sealed S.heap.mem blocks) (ha : a ∈ S.live) (hlow : a.ptr ≤ y)
    (hhigh : y < a.ptr + a.size) : Sealed (S.poke y byte).heap.mem blocks := by
  obtain ⟨bins, hheap⟩ := hshape.shape
  obtain ⟨d, hd, howner⟩ := mem_owners.mp (hshape.live.mem_iff.mp ha)
  have hpay := hheap.inventory.payloads d hd a howner
  have habove := hpay.above
  have hclear := (hsealed d hd a howner).2
  intro b hb a' howner'
  obtain ⟨htail, hclear'⟩ := hsealed b hb a' howner'
  refine ⟨?_, hclear'⟩
  have hmin := hshape.min_size b hb
  unfold tailIntact fscMemTailSize at htail ⊢
  rw [← htail]
  apply Mem.load_congr
  intro x hxlow hxhigh
  apply Function.update_of_ne
  rcases hheap.inventory.disjoint hb hd with rfl | hbd | hdb
  · omega
  · omega
  · omega

def SealedInv (L : Linkage) (R : Region L) (S : Session) : Prop :=
  ∃ blocks, SessionShape L R S blocks ∧ Sealed S.heap.mem blocks

theorem SealedInv.step {op : Op} (hvalid : A.Valid) (hinv : SealedInv L hvalid.region S)
    (hroomy : op.Roomy L A S) (hlegal : op.Legal S) (hrun : S.apply L A.size op = some S') :
    SealedInv L hvalid.region S' := by
  obtain ⟨blocks, hshape, hsealed⟩ := hinv
  rcases op.cases_request with ⟨size, align, hreq⟩ | hrefused | ⟨ptr, rfl⟩ |
      ⟨ptr, offset, byte, rfl⟩
  · have halign := Op.request_align hreq
    have hsize := Op.request_legal hreq hlegal
    rw [Session.apply_request hreq, ← hvalid.fuel_eq] at hrun
    rcases hshape.alloc halign hsize with ⟨s', halloc, hmem, hshape', -⟩ |
        ⟨hacc, s', cur, n, a, left, right, halloc, hgranted, hshape'⟩
    · rw [halloc] at hrun
      cases hrun
      exact ⟨blocks, hshape', by simpa [Session.grant, hmem] using hsealed⟩
    · have hchosen := hgranted.chosen_eq
      rw [hvalid.fuel_eq] at hchosen
      have hroom := hroomy (size, align) hreq hacc (cur, n) hchosen
      have hsealed' := hgranted.sealed hsealed halign hsize hacc hroom
      rw [halloc, Option.map_some, hgranted.session_eq S] at hrun
      cases hrun
      exact ⟨_, hshape', hsealed'⟩
  · rw [hrefused] at hrun
    cases hrun
    exact ⟨blocks, hshape, hsealed⟩
  · obtain ⟨a, ha, rfl⟩ := hlegal
    obtain ⟨pre, d, post, rfl, howner⟩ := hshape.block_of_live ha
    have hstep : S.release a.ptr (bmMemoryFreeFsc L S.heap a.ptr) = S' := by
      simpa [Session.apply] using hrun
    rcases hshape.free howner with ⟨-, s', blocks', hfree, hshape', hused, hframe⟩ | ⟨hnot, -⟩
    · rw [hfree] at hstep
      subst hstep
      refine ⟨blocks', hshape', ?_⟩
      have hback := mem_of_usedBlocks_eq hused
      apply Sealed.frame (m := S.heap.mem) hsealed hshape'.min_size
      · intro b hb hbusy
        exact Inventory.mem_of_mem_rest (hback b hb hbusy)
      · exact hframe.mono hback
    · exact absurd (hsealed d (by simp) a howner).1 hnot
  · obtain ⟨a, ha, rfl, hoffset⟩ := hlegal
    have hstep : S.poke (a.ptr + offset) byte = S' := by
      simpa [Session.apply] using hrun
    subst hstep
    exact ⟨blocks, hshape.poke ha (by omega) (by omega),
      Sealed.poke hshape hsealed ha (by omega) (by omega)⟩

theorem SealedInv.of_reachable
    (hreach : ((heapSystem L A).restrict (Op.Roomy L A)).Reachable S) :
    ∃ hvalid : A.Valid, SealedInv L hvalid.region S := by
  apply hreach.invariant
  · rintro S ⟨hlive, s, hinit⟩
    obtain ⟨hvalid, hheap⟩ := bmMemoryInitFsc_spec hinit
    refine ⟨hvalid, _, ⟨⟨_, hheap⟩, ?_⟩, ?_⟩
    · rw [hlive]
      simp [owners]
    · simp [Sealed]
  · rintro S op S' - ⟨hvalid, hinv⟩ ⟨hroomy, hlegal, hrun⟩
    exact ⟨hvalid, hinv.step hvalid hroomy hlegal hrun⟩

/-- In a run whose requests are all roomy every live pointer can be released
and no payload overlaps the metadata of its block.  A request that is not
roomy and succeeds hands out a payload that reaches into its own tail magic. -/
theorem free_succeeds_iff_roomy (L : Linkage) (A : Arena L) :
    (∀ S, ((heapSystem L A).restrict (Op.Roomy L A)).Reachable S →
      ∀ a ∈ S.live, (bmMemoryFreeFsc L S.heap a.ptr).2 = eok ∧ Clear S.heap.mem a) ∧
    (∀ S op S', (heapSystem L A).Reachable S → (heapSystem L A).step S op S' →
      ¬ op.Roomy L A S → ∃ a ∈ S'.live, ¬ Clear S'.heap.mem a) := by
  constructor
  · intro S hreach a ha
    obtain ⟨hvalid, blocks, hshape, hsealed⟩ := SealedInv.of_reachable hreach
    obtain ⟨pre, d, post, rfl, howner⟩ := hshape.block_of_live ha
    obtain ⟨htail, hclear⟩ := hsealed d (by simp) a howner
    obtain ⟨bins, hheap⟩ := hshape.shape
    have hpay := hheap.inventory.payloads d (by simp) a howner
    constructor
    · rcases hshape.free howner with ⟨-, s', blocks', hrun, -⟩ | ⟨hnot, -⟩
      · rw [hrun]
      · exact absurd htail hnot
    · unfold Clear fscMemTailSize
      rw [hpay.ctrl_eq, (hheap.tagged.header (b := d) (by simp)).1]
      exact ⟨hpay.above, hclear⟩
  · rintro S op S' hreach ⟨hlegal, hrun⟩ htight
    obtain ⟨hvalid, blocks, hshape⟩ := sessionInv_of_reachable hreach
    unfold Op.Roomy at htight
    push Not at htight
    obtain ⟨⟨size, align⟩, hreq, hacc, ⟨cur, n⟩, hchosen, hnot⟩ := htight
    simp only at hacc hchosen hnot
    rw [Option.mem_def] at hreq hchosen
    have halign := Op.request_align hreq
    have hsize := Op.request_legal hreq hlegal
    rw [Session.apply_request hreq, ← hvalid.fuel_eq] at hrun
    rcases hshape.alloc halign hsize with ⟨s', halloc, -, -, hnone⟩ |
        ⟨-, s', cur', n', a, left, right, halloc, hgranted, hshape'⟩
    · -- A block to choose means that the request is granted.
      have hchosen' := hnone hacc
      rw [hvalid.fuel_eq, hchosen] at hchosen'
      cases hchosen'
    · have hchosen' := hgranted.chosen_eq
      rw [hvalid.fuel_eq, hchosen] at hchosen'
      obtain ⟨rfl, rfl⟩ : cur = cur' ∧ n = n' := by simpa using hchosen'
      rw [halloc, Option.map_some, hgranted.session_eq S] at hrun
      cases hrun
      refine ⟨a, by simp, ?_⟩
      rintro ⟨-, hclear⟩
      apply hnot
      rw [← clear_iff_roomy halign hsize hacc hgranted.aligned hgranted.enough hgranted.multiple]
      obtain ⟨bins, hheap⟩ := hgranted.shape
      have hfield := (hheap.tagged.header (b := ⟨cur, n, some a⟩) (by simp)).1
      have hctrl : a.ctrl = cur := by rw [hgranted.alloc_eq]
      have hptr : a.ptr = alignUp (cur + 32) align := by rw [hgranted.alloc_eq]
      have hasked : a.size = size := by rw [hgranted.alloc_eq]
      rw [hctrl, hfield, hptr, hasked] at hclear
      exact hclear

def smallOne : Session :=
  (smallStart.apply smallLinkage smallArena.size (.alloc 12)).get (by decide +kernel)

theorem smallOne_released :
    smallOne.live.length = 1 ∧ ∀ a ∈ smallOne.live,
      (bmMemoryFreeFsc smallLinkage smallOne.heap a.ptr).2 = eok ∧ Clear smallOne.heap.mem a := by
  have hstart : ((heapSystem smallLinkage smallArena).restrict
      (Op.Roomy smallLinkage smallArena)).Reachable smallStart := by
    apply TransitionSystem.Reachable.init
    exact ⟨rfl, ⟨fun _ => 0, 1⟩, Prod.ext rfl (by decide +kernel)⟩
  have happly : smallStart.apply smallLinkage smallArena.size (.alloc 12) = some smallOne :=
    (Option.some_get _).symm
  have hone := hstart.step (a := .alloc 12) ⟨by decide +kernel, by decide, happly⟩
  exact ⟨by decide +kernel, (free_succeeds_iff_roomy smallLinkage smallArena).1 smallOne hone⟩

def smallCleared : Session :=
  (smallStart.runLegal smallLinkage smallArena.size
    (.alloc 8 :: (List.range 8).map fun i => .write 65752 i 0)).get (by decide +kernel)

/-- The clearing stays in bounds, yet the release reports an overwrite. -/
theorem in_bounds_write_reported :
    (heapSystem smallLinkage smallArena).Reachable smallCleared ∧
      smallCleared.live = [⟨65752, 8, 8, 65716⟩] ∧
      (bmMemoryFreeFsc smallLinkage smallCleared.heap 65752).2 = errnoMemOverwrite := by
  refine ⟨reachable_runLegal smallStart_reachable (Option.some_get _).symm, ?_, ?_⟩
  · decide +kernel
  · decide +kernel

end HiMpu.FscMem
