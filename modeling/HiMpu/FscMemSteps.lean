import HiMpu.FscMemShape

/-!
# Opening, moving and closing the hole

One lemma for each thing that an allocation or a release does to the heap.
-/

namespace HiMpu.FscMem

variable {L : Linkage} {R : Region L} {m m' : Mem} {bitAmp : ℕ} {blocks pre post : List Block}
  {bins : ℕ → List ℕ} {b d : Block} {cur n tag : ℕ}

namespace Room

theorem gap (hroom : Room L R m bitAmp pre cur n tag post bins) :
    Inventory.Gap R pre post cur n where
  low := hroom.left.start_le_stop
  high := hroom.right.start_le_stop
  minSize := hroom.minSize
  aligned := hroom.aligned
  before := fun _ hb => (hroom.left.bounds hb).2.1
  after := fun _ hb => (hroom.right.bounds hb).1

theorem hole {w : Mem} (hroom : Room L R m bitAmp pre cur n tag post bins)
    (hsame : ∀ y, y < cur ∨ cur + n ≤ y → w y = m y)
    (hsize : field w cur .size = n) (hprev : field w cur .prevSize = lastTag 0 pre) :
    Hole L R w bitAmp pre cur n tag post bins ∧ UsedFrame (pre ++ post) m w := by
  obtain ⟨hinv, hframe⟩ := hroom.inventory.frame_gap hroom.gap hsame
  have hbytes : ∀ b ∈ pre ++ post, ∀ y, b.addr ≤ y → y < b.addr + 32 → w y = m y := by
    intro b hb y hlow hhigh
    have hin := hroom.inventory.inside b hb
    have hoff := hroom.gap.block_off hb
    exact hsame y (by omega)
  refine ⟨{ hroom with
    before := ?_
    after := ?_
    size_eq := hsize
    prevSize_eq := hprev
    inventory := hinv }, hframe⟩
  · exact hroom.before.congr_bytes fun b hb => hbytes b (by simp [hb])
  · exact hroom.after.congr_bytes fun b hb => hbytes b (by simp [hb])

end Room

namespace Hole

theorem retag {v : ℕ} (hhole : Hole L R m bitAmp pre cur n tag post bins)
    (hvalue : v < 2 ^ 64) (hzero : ∀ d ∈ post.head?, d.isFree = true → v = 0) :
    Hole L R (setField m (cur + n) .prevSize v) bitAmp pre cur n v post bins ∧
      UsedFrame (pre ++ post) m (setField m (cur + n) .prevSize v) := by
  have hmin := hhole.minSize
  have hleft : ∀ b ∈ pre, b.addr + 32 ≤ cur + n := by
    intro b hb
    have hin := hhole.inventory.inside b (by simp [hb])
    have hbound := hhole.gap.before b hb
    omega
  obtain ⟨hbefore, hafter, hinv, hframe⟩ :=
    hhole.inventory.retag hhole.right hleft hvalue hzero hhole.before hhole.after
  have hkeep : ∀ f, field (setField m (cur + n) .prevSize v) cur f = field m cur f := by
    intro f
    apply field_setField_other
    · exact Or.inr (Or.inl (by omega))
    · left
      omega
  exact ⟨{ hhole with
    before := hbefore
    after := hafter
    size_eq := (hkeep _).trans hhole.size_eq
    prevSize_eq := (hkeep _).trans hhole.prevSize_eq
    inventory := hinv }, hframe⟩

end Hole

namespace HeapShape

theorem split_tiles (hshape : HeapShape L R m bitAmp (pre ++ d :: post) bins) :
    Tiles Block.addr Block.size R.lo pre d.addr ∧
      Tiles Block.addr Block.size (d.addr + d.size) post R.hi := by
  obtain ⟨middle, hpre, haddr, -, hpost⟩ := Tiles.append_iff.mp hshape.tiles
  rw [haddr]
  exact ⟨hpre, hpost⟩

theorem open_used (hshape : HeapShape L R m bitAmp (pre ++ d :: post) bins)
    (hused : d.isFree = false) : Hole L R m bitAmp pre d.addr d.size 0 post bins := by
  have hin := hshape.inventory.inside d (by simp)
  obtain ⟨hleft, hright⟩ := hshape.split_tiles
  obtain ⟨hbefore, hsize, hprev, -, -, hafter⟩ := tagged_append.mp hshape.tagged
  have htag : d.tag = 0 := by simp [Block.tag, hused]
  rw [htag] at hafter
  exact
    { left := hleft
      right := hright
      granular := fun b hb => hshape.granular b (Inventory.mem_of_mem_rest hb)
      minSize := hin.2.2.1
      multiple := hshape.granular d (by simp)
      aligned := hin.2.2.2
      before := hbefore
      after := hafter
      size_eq := hsize
      prevSize_eq := hprev
      inventory := hshape.inventory.dropUsed hused }

theorem open_free (hshape : HeapShape L R m bitAmp (pre ++ d :: post) bins)
    (hfree : d.isFree = true) :
    (∃ bins', Hole L R (bmMemoryDeleteFsc m d.addr) bitAmp pre d.addr d.size d.size post bins') ∧
      UsedFrame (pre ++ d :: post) m (bmMemoryDeleteFsc m d.addr) := by
  have hd : d ∈ pre ++ d :: post := by simp
  have hinv := hshape.inventory
  have hin := hinv.inside d hd
  obtain ⟨hleft, hright⟩ := hshape.split_tiles
  obtain ⟨hbefore, hsize, hprev, -, -, hafter⟩ := tagged_append.mp hshape.tagged
  have htag : d.tag = d.size := by simp [Block.tag, hfree]
  rw [htag] at hafter
  have hkeep : ∀ f, f = .size ∨ f = .prevSize →
      field (bmMemoryDeleteFsc m d.addr) d.addr f = field m d.addr f := by
    intro f hf
    exact hinv.delete_field hd hfree (fun z hz => hinv.block_apart hd hz) hf
  obtain ⟨bins', hinv'⟩ := hinv.delete hfree
  refine ⟨⟨bins',
    { left := hleft
      right := hright
      granular := fun b hb => hshape.granular b (Inventory.mem_of_mem_rest hb)
      minSize := hin.2.2.1
      multiple := hshape.granular d hd
      aligned := hin.2.2.2
      before := hinv.delete_tagged hd hfree (fun b hb => by simp [hb]) hbefore
      after := hinv.delete_tagged hd hfree (fun b hb => by simp [hb]) hafter
      size_eq := (hkeep _ (Or.inl rfl)).trans hsize
      prevSize_eq := (hkeep _ (Or.inr rfl)).trans hprev
      inventory := hinv' }⟩, hinv.delete_frame hd hfree⟩

end HeapShape

namespace Hole

theorem granular_insert (hhole : Hole L R m bitAmp pre cur n tag post bins)
    (owner : Option Allocation) : ∀ b ∈ pre ++ ⟨cur, n, owner⟩ :: post, b.size % 4 = 0 := by
  intro b hb
  by_cases hbc : b = ⟨cur, n, owner⟩
  · subst hbc
    exact hhole.multiple
  · exact hhole.granular b (by simpa [hbc] using hb)

theorem tiles_insert (hhole : Hole L R m bitAmp pre cur n tag post bins)
    (owner : Option Allocation) :
    Tiles Block.addr Block.size R.lo (pre ++ ⟨cur, n, owner⟩ :: post) R.hi := by
  have hmin := hhole.minSize
  rw [Tiles.append_iff]
  exact ⟨cur, hhole.left, rfl, by simp only; omega, hhole.right⟩

theorem close_used {a : Allocation} (hhole : Hole L R m bitAmp pre cur n 0 post bins)
    (hnext : field m cur .next = fscMemMagicUsed) (hpay : Payload m ⟨cur, n, some a⟩ a) :
    HeapShape L R m bitAmp (pre ++ ⟨cur, n, some a⟩ :: post) bins where
  tiles := hhole.tiles_insert _
  granular := hhole.granular_insert _
  tagged := by
    rw [tagged_append]
    exact ⟨hhole.before, hhole.size_eq, hhole.prevSize_eq, fun _ => hnext,
      by simp [Block.isFree], hhole.after⟩
  inventory := hhole.inventory.addUsed hhole.gap hpay

theorem close_free {s : FscState} (hhole : Hole L R s.mem s.bitAmp pre cur n tag post bins)
    (hprev : lastTag 0 pre = 0) (hpost : ∀ d ∈ post.head?, d.isFree = false) :
    (∃ bins', HeapShape L R (releaseBlock L s cur).mem (releaseBlock L s cur).bitAmp
      (pre ++ ⟨cur, n, none⟩ :: post) bins') ∧
      UsedFrame (pre ++ post) s.mem (releaseBlock L s cur).mem := by
  have hgap := hhole.gap
  have hmin := hhole.minSize
  have hhigh := hgap.high
  have hfits := R.fits
  obtain ⟨⟨bins', hinv⟩, htags, hkeep, hframe⟩ :=
    hhole.inventory.insert_spec hgap hhole.size_eq
  have hsize := (hkeep _ (Or.inl rfl)).trans hhole.size_eq
  have hprevSize := (hkeep _ (Or.inr rfl)).trans hhole.prevSize_eq
  have hshape : pre ++ ⟨cur, n, none⟩ :: post = (pre ++ [⟨cur, n, none⟩]) ++ post := by simp
  have hbefore : Tagged (bmMemoryInsertFsc L s cur).mem 0 (pre ++ [⟨cur, n, none⟩]) := by
    rw [tagged_append]
    refine ⟨htags _ _ (fun b hb => by simp [hb]) hhole.before, hsize, hprevSize, ?_, ?_, trivial⟩
    · simp [Block.isFree]
    · exact fun _ => hprev
  have hafter := htags _ _ (fun b hb => by simp [hb]) hhole.after
  have hleft : ∀ b ∈ pre ++ [⟨cur, n, none⟩], b.addr + 32 ≤ cur + n := by
    intro b hb
    rcases List.mem_append.mp hb with hb | hb
    · have hin := hhole.inventory.inside b (by simp [hb])
      have hbound := hgap.before b hb
      omega
    · have heq : b = ⟨cur, n, none⟩ := by simpa using hb
      subst heq
      simp only
      omega
  rw [hshape] at hinv
  obtain ⟨hbefore', hafter', hinv', hframe'⟩ :=
    hinv.retag (w := n) hhole.right hleft (by omega)
      (fun d hd hfree => by simp [hpost d hd] at hfree) hbefore hafter
  have hmem : (releaseBlock L s cur).mem =
      setField (bmMemoryInsertFsc L s cur).mem (cur + n) .prevSize n := by
    simp only [releaseBlock, hsize]
  have hbit : (releaseBlock L s cur).bitAmp = (bmMemoryInsertFsc L s cur).bitAmp := rfl
  rw [hmem, hbit]
  constructor
  · refine ⟨bins',
      { tiles := hhole.tiles_insert _
        granular := hhole.granular_insert _
        tagged := ?_
        inventory := ?_ }⟩
    · rw [hshape, tagged_append, lastTag_append]
      exact ⟨hbefore', by simpa [lastTag, Block.tag, Block.isFree] using hafter'⟩
    · rw [hshape]
      exact hinv'
  · apply hframe.trans
    apply hframe'.mono
    intro b hb _
    rcases List.mem_append.mp hb with hb | hb
    · simp [hb]
    · simp [hb]

end Hole

end HiMpu.FscMem
