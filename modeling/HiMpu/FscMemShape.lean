import HiMpu.FscMemInvariant

/-!
# Boundary tags and the heap with one block taken out

`HeapShape` is the full invariant between two calls.  Inside a call one block
is neither free nor in use: it is on no list and its successor need not know
about it yet.  `Room` and `Hole` describe that situation.  An
allocation opens a hole in a free block and closes it as used; a release opens
a hole in a used block, lets it absorb its free neighbours and closes it as
free.

Every lemma also says that the bytes of the other used blocks stay as they
were, from the `prev` member on, which the payload offset shares.
-/

namespace HiMpu.FscMem

/-- The headers of consecutive blocks, where `tag` is what the first of them
holds about its predecessor.  A free block requires the tag `0`, so no two
neighbours are free. -/
def Tagged (m : Mem) : ℕ → List Block → Prop
  | _, [] => True
  | tag, b :: bs =>
    field m b.addr .size = b.size ∧ field m b.addr .prevSize = tag ∧
      (b.isFree = false → field m b.addr .next = fscMemMagicUsed) ∧
      (b.isFree = true → tag = 0) ∧ Tagged m b.tag bs

def lastTag : ℕ → List Block → ℕ
  | tag, [] => tag
  | _, b :: bs => lastTag b.tag bs

structure HeapShape (L : Linkage) (R : Region L) (m : Mem) (bitAmp : ℕ)
    (blocks : List Block) (bins : ℕ → List ℕ) : Prop where
  tiles : Tiles Block.addr Block.size R.lo blocks R.hi
  granular : ∀ b ∈ blocks, b.size % 4 = 0
  tagged : Tagged m 0 blocks
  inventory : Inventory L R m bitAmp blocks bins

/-- The heap with the `n` bytes at `cur` taken out; `tag` is what the
successor holds about them. -/
structure Room (L : Linkage) (R : Region L) (m : Mem) (bitAmp : ℕ) (pre : List Block)
    (cur n tag : ℕ) (post : List Block) (bins : ℕ → List ℕ) : Prop where
  left : Tiles Block.addr Block.size R.lo pre cur
  right : Tiles Block.addr Block.size (cur + n) post R.hi
  granular : ∀ b ∈ pre ++ post, b.size % 4 = 0
  minSize : 32 ≤ n
  multiple : n % 4 = 0
  aligned : cur % 4 = 0
  before : Tagged m 0 pre
  after : Tagged m tag post
  inventory : Inventory L R m bitAmp (pre ++ post) bins

structure Hole (L : Linkage) (R : Region L) (m : Mem) (bitAmp : ℕ) (pre : List Block)
    (cur n tag : ℕ) (post : List Block) (bins : ℕ → List ℕ) : Prop
    extends Room L R m bitAmp pre cur n tag post bins where
  size_eq : field m cur .size = n
  prevSize_eq : field m cur .prevSize = lastTag 0 pre

def UsedFrame (blocks : List Block) (m m' : Mem) : Prop :=
  ∀ b ∈ blocks, b.isFree = false → ∀ y, b.addr + 24 ≤ y → y < b.addr + b.size → m' y = m y

theorem UsedFrame.refl (blocks : List Block) (m : Mem) : UsedFrame blocks m m :=
  fun _ _ _ _ _ _ => rfl

theorem UsedFrame.trans {blocks : List Block} {m m' m'' : Mem} (hfirst : UsedFrame blocks m m')
    (hsecond : UsedFrame blocks m' m'') : UsedFrame blocks m m'' := by
  intro b hb hused y hlow hhigh
  exact (hsecond b hb hused y hlow hhigh).trans (hfirst b hb hused y hlow hhigh)

theorem UsedFrame.mono {blocks blocks' : List Block} {m m' : Mem}
    (hframe : UsedFrame blocks m m')
    (hsub : ∀ b ∈ blocks', b.isFree = false → b ∈ blocks) : UsedFrame blocks' m m' :=
  fun b hb hused => hframe b (hsub b hb hused) hused

section Used

variable {blocks : List Block} {b d : Block}

def usedBlocks (blocks : List Block) : List Block := blocks.filter fun b => !b.isFree

theorem usedBlocks_append (xs ys : List Block) :
    usedBlocks (xs ++ ys) = usedBlocks xs ++ usedBlocks ys := by
  simp [usedBlocks]

theorem usedBlocks_cons_free (hfree : d.isFree = true) (xs : List Block) :
    usedBlocks (d :: xs) = usedBlocks xs := by
  simp [usedBlocks, hfree]

theorem usedBlocks_cons_used (hused : d.isFree = false) (xs : List Block) :
    usedBlocks (d :: xs) = d :: usedBlocks xs := by
  simp [usedBlocks, hused]

theorem mem_usedBlocks : b ∈ usedBlocks blocks ↔ b ∈ blocks ∧ b.isFree = false := by
  simp [usedBlocks]

def tailIntact (m : Mem) (b : Block) : Prop :=
  m.load (b.addr + b.size - fscMemTailSize) 4 = fscMemTailMagic

instance (m : Mem) (b : Block) : Decidable (tailIntact m b) :=
  inferInstanceAs (Decidable (_ = _))

end Used

section Tagged

variable {m m' : Mem} {tag value : ℕ} {xs ys : List Block} {b : Block}

theorem tagged_append :
    Tagged m tag (xs ++ ys) ↔ Tagged m tag xs ∧ Tagged m (lastTag tag xs) ys := by
  induction xs generalizing tag with
  | nil => simp [Tagged, lastTag]
  | cons b bs ih => simp [Tagged, lastTag, ih, and_assoc]

theorem lastTag_append : lastTag tag (xs ++ ys) = lastTag (lastTag tag xs) ys := by
  induction xs generalizing tag with
  | nil => rfl
  | cons b bs ih => simp [lastTag, ih]

theorem Tagged.congr (htag : Tagged m tag xs)
    (hsize : ∀ b ∈ xs, field m' b.addr .size = field m b.addr .size)
    (hprev : ∀ b ∈ xs, field m' b.addr .prevSize = field m b.addr .prevSize)
    (hnext : ∀ b ∈ xs, b.isFree = false → field m' b.addr .next = field m b.addr .next) :
    Tagged m' tag xs := by
  induction xs generalizing tag with
  | nil => trivial
  | cons b bs ih =>
    obtain ⟨hs, hp, hn, hf, hrest⟩ := htag
    refine ⟨?_, ?_, ?_, hf, ?_⟩
    · rw [hsize b (by simp), hs]
    · rw [hprev b (by simp), hp]
    · intro hused
      rw [hnext b (by simp) hused, hn hused]
    · apply ih hrest
      · intro c hc
        exact hsize c (List.mem_cons_of_mem _ hc)
      · intro c hc
        exact hprev c (List.mem_cons_of_mem _ hc)
      · intro c hc
        exact hnext c (List.mem_cons_of_mem _ hc)

theorem Tagged.congr_bytes (htag : Tagged m tag xs)
    (hsame : ∀ b ∈ xs, ∀ y, b.addr ≤ y → y < b.addr + 32 → m' y = m y) : Tagged m' tag xs := by
  apply htag.congr
  · intro b hb
    exact field_congr (hsame b hb) _
  · intro b hb
    exact field_congr (hsame b hb) _
  · intro b hb _
    exact field_congr (hsame b hb) _

theorem Tagged.header (htag : Tagged m tag xs) (hb : b ∈ xs) :
    field m b.addr .size = b.size ∧ (b.isFree = false → field m b.addr .next = fscMemMagicUsed) := by
  induction xs generalizing tag with
  | nil => simp at hb
  | cons c cs ih =>
    obtain ⟨hs, -, hn, -, hrest⟩ := htag
    rcases List.mem_cons.mp hb with rfl | hb
    · exact ⟨hs, hn⟩
    · exact ih hrest hb

theorem Tagged.coalesced (htag : Tagged m tag xs) (hpos : ∀ b ∈ xs, 0 < b.size) :
    Coalesced Block.isFree xs := by
  induction xs generalizing tag with
  | nil => exact List.IsChain.nil
  | cons b bs ih =>
    obtain ⟨-, -, -, -, hrest⟩ := htag
    have hco := ih hrest fun c hc => hpos c (List.mem_cons_of_mem _ hc)
    cases bs with
    | nil => exact List.IsChain.singleton _
    | cons c cs =>
      refine List.IsChain.cons_cons ?_ hco
      intro hfree
      by_contra hcfree
      have hzero : b.tag = 0 := hrest.2.2.2.1 (by simpa using hcfree)
      have hbpos := hpos b (by simp)
      simp only [Block.tag, hfree, if_true] at hzero
      omega

end Tagged

namespace Inventory

variable {L : Linkage} {R : Region L} {m m' : Mem} {bitAmp : ℕ} {left right : List Block}
  {bins : ℕ → List ℕ} {b c d : Block} {cur n tag : ℕ}

theorem members_used (hused : d.isFree = false) (i x : ℕ) :
    (∃ b ∈ left ++ d :: right, b.isFree = true ∧ b.addr = x ∧ Nat.log 2 b.size = i) ↔
      ∃ b ∈ left ++ right, b.isFree = true ∧ b.addr = x ∧ Nat.log 2 b.size = i := by
  constructor
  · rintro ⟨b, hb, hfree, hrest⟩
    have hne := (Block.ne_of_isFree hused hfree).symm
    exact ⟨b, by simpa [hne] using hb, hfree, hrest⟩
  · rintro ⟨b, hb, hrest⟩
    exact ⟨b, mem_of_mem_rest hb, hrest⟩

theorem dropUsed (hinv : Inventory L R m bitAmp (left ++ d :: right) bins)
    (hused : d.isFree = false) : Inventory L R m bitAmp (left ++ right) bins :=
  { hinv with
    inside := fun b hb => hinv.inside b (mem_of_mem_rest hb)
    apart := hinv.apart.sublist ((List.sublist_cons_self d right).append_left left)
    members := fun i hi x => (hinv.members i hi x).trans (members_used hused i x)
    payloads := fun b hb => hinv.payloads b (mem_of_mem_rest hb) }

theorem addUsed {a : Allocation} (hinv : Inventory L R m bitAmp (left ++ right) bins)
    (hgap : Gap R left right cur n) (hpay : Payload m ⟨cur, n, some a⟩ a) :
    Inventory L R m bitAmp (left ++ ⟨cur, n, some a⟩ :: right) bins := by
  have hused : Block.isFree ⟨cur, n, some a⟩ = false := rfl
  have hcases : ∀ b ∈ left ++ ⟨cur, n, some a⟩ :: right,
      b = ⟨cur, n, some a⟩ ∨ b ∈ left ++ right := by
    intro b hb
    by_cases hbc : b = ⟨cur, n, some a⟩
    · exact Or.inl hbc
    · exact Or.inr (by simpa [hbc] using hb)
  refine
    { hinv with
      inside := ?_
      apart := hinv.apart_insert hgap
      members := fun i hi x => (hinv.members i hi x).trans (members_used hused i x).symm
      payloads := ?_ }
  · intro b hb
    rcases hcases b hb with rfl | hb
    · exact ⟨hgap.low, hgap.high, hgap.minSize, hgap.aligned⟩
    · exact hinv.inside b hb
  · intro b hb a' howner
    rcases hcases b hb with rfl | hb
    · have heq : a = a' := by simpa using howner
      rwa [← heq]
    · exact hinv.payloads b hb a' howner

theorem shrink (hinv : Inventory L R m bitAmp (left ++ ⟨cur, n, none⟩ :: right) bins)
    {rest : ℕ} (hle : rest ≤ n) (hmin : 32 ≤ rest) (hlog : Nat.log 2 rest = Nat.log 2 n) :
    Inventory L R m bitAmp (left ++ ⟨cur, rest, none⟩ :: right) bins := by
  have hin := hinv.inside ⟨cur, n, none⟩ (by simp)
  simp only at hin
  refine
    { hinv with
      inside := ?_
      apart := ?_
      members := ?_
      payloads := ?_ }
  · intro b hb
    by_cases hbc : b = ⟨cur, rest, none⟩
    · subst hbc
      simp only
      omega
    · exact hinv.inside b (mem_of_mem_rest (by simpa [hbc] using hb))
  · have hpair := hinv.apart
    rw [List.pairwise_append, List.pairwise_cons] at hpair ⊢
    refine ⟨hpair.1, ⟨?_, hpair.2.1.2⟩, ?_⟩
    · intro c hc
      have hbound := hpair.2.1.1 c hc
      simp only at hbound ⊢
      omega
    · intro b hb c hc
      rcases List.mem_cons.mp hc with rfl | hc
      · exact hpair.2.2 b hb ⟨cur, n, none⟩ (by simp)
      · exact hpair.2.2 b hb c (by simp [hc])
  · intro i hi x
    rw [hinv.members i hi x]
    constructor
    · rintro ⟨b, hb, hfree, haddr, hblog⟩
      by_cases hbc : b = ⟨cur, n, none⟩
      · subst hbc
        exact ⟨⟨cur, rest, none⟩, by simp, hfree, haddr, hlog.trans hblog⟩
      · exact ⟨b, mem_of_mem_rest (by simpa [hbc] using hb), hfree, haddr, hblog⟩
    · rintro ⟨b, hb, hfree, haddr, hblog⟩
      by_cases hbc : b = ⟨cur, rest, none⟩
      · subst hbc
        exact ⟨⟨cur, n, none⟩, by simp, hfree, haddr, hlog.symm.trans hblog⟩
      · exact ⟨b, mem_of_mem_rest (by simpa [hbc] using hb), hfree, haddr, hblog⟩
  · intro b hb a howner
    by_cases hbc : b = ⟨cur, rest, none⟩
    · subst hbc
      simp at howner
    · exact hinv.payloads b (mem_of_mem_rest (by simpa [hbc] using hb)) a howner

theorem frame_gap (hinv : Inventory L R m bitAmp (left ++ right) bins)
    (hgap : Gap R left right cur n) (hsame : ∀ y, y < cur ∨ cur + n ≤ y → m' y = m y) :
    Inventory L R m' bitAmp (left ++ right) bins ∧ UsedFrame (left ++ right) m m' := by
  have hmin := hgap.minSize
  have hhigh := hgap.high
  have hframe : UsedFrame (left ++ right) m m' := by
    intro b hb _ y hlow hy
    have hoff := hgap.block_off hb
    exact hsame y (by omega)
  have hend : ∀ f, field m' R.hi f = field m R.hi f := by
    intro f
    apply field_congr
    intro y hlow _
    exact hsame y (by omega)
  refine ⟨hinv.frame ?_ hframe (hend _) (hend _), hframe⟩
  intro z hz
  have hoff := hinv.gap_off hgap hz
  have hbytes : ∀ y, z ≤ y → y < z + 32 → m' y = m y := fun y _ _ => hsame y (by omega)
  exact ⟨field_congr hbytes _, field_congr hbytes _⟩

theorem frame_setField (hinv : Inventory L R m bitAmp (left ++ right) bins) {x v : ℕ} {f : Field}
    (hx : x = R.hi ∨ ∃ b ∈ left ++ right, b.addr = x)
    (hf : f = .prevSize ∨ f = .size ∧ x ≠ R.hi) :
    Inventory L R (setField m x f v) bitAmp (left ++ right) bins ∧
      UsedFrame (left ++ right) m (setField m x f v) := by
  have hoffset : 8 ≤ f.offset ∧ f.offset ≤ 16 := by
    rcases hf with rfl | ⟨rfl, -⟩ <;> simp [Field.offset]
  have hfNext : Field.next ≠ f := by rcases hf with rfl | ⟨rfl, -⟩ <;> decide
  have hfPrev : Field.prev ≠ f := by rcases hf with rfl | ⟨rfl, -⟩ <;> decide
  have hxNode : ∀ z, LinkNode L (left ++ right) z → Apart z x := by
    intro z hz
    have hsymm : Apart x z := by
      rcases hx with rfl | ⟨b, hb, rfl⟩
      · have hend := hinv.end_apart hz
        exact Or.inr (hend.imp id id)
      · exact hinv.block_apart hb hz
    unfold Apart at hsymm ⊢
    omega
  have hxEnd : Apart R.hi x := by
    rcases hx with rfl | ⟨b, hb, rfl⟩
    · exact Or.inl rfl
    · have hin := hinv.inside b hb
      unfold Apart
      omega
  have hframe : UsedFrame (left ++ right) m (setField m x f v) := by
    intro b hb _ y hlow hhigh
    have hin := hinv.inside b hb
    unfold setField
    apply Mem.store_outside
    rcases hx with rfl | ⟨c, hc, rfl⟩
    · omega
    · have hin' := hinv.inside c hc
      rcases hinv.disjoint hb hc with rfl | hbc | hcb
      · omega
      · omega
      · omega
  refine ⟨hinv.frame ?_ hframe ?_ ?_, hframe⟩
  · intro z hz
    exact ⟨field_setField_other (hxNode z hz) (Or.inr hfNext),
      field_setField_other (hxNode z hz) (Or.inr hfPrev)⟩
  · exact field_setField_other hxEnd (Or.inr hfNext)
  · rcases hf with rfl | ⟨-, hne⟩
    · exact field_setField_other hxEnd (Or.inr (by decide))
    · exact field_setField_other hxEnd (Or.inl hne.symm)

theorem setSize_tagged (hinv : Inventory L R m bitAmp (left ++ d :: right) bins) {v : ℕ}
    {xs : List Block} (hsub : ∀ b ∈ xs, b ∈ left ++ right) (htag : Tagged m tag xs) :
    Tagged (setField m d.addr .size v) tag xs := by
  have hkeep : ∀ b ∈ xs, ∀ f, field (setField m d.addr .size v) b.addr f = field m b.addr f := by
    intro b hb f
    have hne := hinv.rest_addr_ne (hsub b hb)
    have hin := hinv.inside d (by simp)
    have hin' := hinv.inside b (mem_of_mem_rest (hsub b hb))
    apply field_setField_other _ (Or.inl hne)
    rcases hinv.disjoint (mem_of_mem_rest (hsub b hb)) (c := d) (by simp) with heq | hlow | hhigh
    · exact Or.inl (by rw [heq])
    · exact Or.inr (Or.inl (by omega))
    · exact Or.inr (Or.inr (by omega))
  exact htag.congr (fun b hb => hkeep b hb _) (fun b hb => hkeep b hb _)
    fun b hb _ => hkeep b hb _

theorem delete_tagged (hinv : Inventory L R m bitAmp (left ++ right) bins) {xs : List Block}
    (hd : d ∈ left ++ right) (hfree : d.isFree = true) (hsub : ∀ b ∈ xs, b ∈ left ++ right)
    (htag : Tagged m tag xs) : Tagged (bmMemoryDeleteFsc m d.addr) tag xs := by
  apply htag.congr
  · intro b hb
    exact hinv.delete_field hd hfree (fun z hz => hinv.block_apart (hsub b hb) hz) (Or.inl rfl)
  · intro b hb
    exact hinv.delete_field hd hfree (fun z hz => hinv.block_apart (hsub b hb) hz) (Or.inr rfl)
  · intro b hb hused
    have hin := hinv.inside b (hsub b hb)
    apply field_congr
    intro y hlow hhigh
    exact hinv.delete_used hd hfree (hsub b hb) hused hlow (by omega)

theorem delete_frame (hinv : Inventory L R m bitAmp (left ++ right) bins)
    (hd : d ∈ left ++ right) (hfree : d.isFree = true) :
    UsedFrame (left ++ right) m (bmMemoryDeleteFsc m d.addr) := by
  intro b hb hused y hlow hhigh
  exact hinv.delete_used hd hfree hb hused (by omega) hhigh

theorem insert_tagged (hinv : Inventory L R m bitAmp (left ++ right) bins)
    (hgap : Gap R left right cur n) {i : ℕ} (hi : i < 31) {xs : List Block}
    (hsub : ∀ b ∈ xs, b ∈ left ++ right) (htag : Tagged m tag xs) :
    Tagged (linkBehind m (L.head i) cur) tag xs := by
  have hfield : ∀ b ∈ xs, ∀ f, (f = .size ∨ f = .prevSize) ∨ b.isFree = false →
      field (linkBehind m (L.head i) cur) b.addr f = field m b.addr f := by
    intro b hb f hf
    have hin := hinv.inside b (hsub b hb)
    cases hfree : b.isFree with
    | false =>
      apply field_congr
      intro y hlow hhigh
      exact hinv.insert_used hgap hi (hsub b hb) hfree hlow (by omega)
    | true =>
      have hnode : LinkNode L (left ++ right) b.addr := Or.inr ⟨b, hsub b hb, hfree, rfl⟩
      rcases hf with hf | hused
      · exact hinv.insert_field hgap hi (Or.inl hnode) hf
      · rw [hused] at hfree
        contradiction
  apply htag.congr
  · intro b hb
    exact hfield b hb _ (Or.inl (Or.inl rfl))
  · intro b hb
    exact hfield b hb _ (Or.inl (Or.inr rfl))
  · intro b hb hused
    exact hfield b hb _ (Or.inr hused)

theorem insert_frame (hinv : Inventory L R m bitAmp (left ++ right) bins)
    (hgap : Gap R left right cur n) {i : ℕ} (hi : i < 31) :
    UsedFrame (left ++ right) m (linkBehind m (L.head i) cur) := by
  intro b hb hused y hlow hhigh
  exact hinv.insert_used hgap hi hb hused (by omega) hhigh

theorem insert_spec {s : FscState} (hinv : Inventory L R s.mem s.bitAmp (left ++ right) bins)
    (hgap : Gap R left right cur n) (hsize : field s.mem cur .size = n) :
    (∃ bins', Inventory L R (bmMemoryInsertFsc L s cur).mem (bmMemoryInsertFsc L s cur).bitAmp
        (left ++ ⟨cur, n, none⟩ :: right) bins') ∧
      (∀ tag xs, (∀ b ∈ xs, b ∈ left ++ right) → Tagged s.mem tag xs →
        Tagged (bmMemoryInsertFsc L s cur).mem tag xs) ∧
      (∀ f, f = .size ∨ f = .prevSize →
        field (bmMemoryInsertFsc L s cur).mem cur f = field s.mem cur f) ∧
      UsedFrame (left ++ right) s.mem (bmMemoryInsertFsc L s cur).mem := by
  have hlog := hgap.log_lt
  have hmem : (bmMemoryInsertFsc L s cur).mem = linkBehind s.mem (L.head (Nat.log 2 n)) cur := by
    simp only [bmMemoryInsertFsc, hsize, hgap.sz2idx]
  refine ⟨hinv.insert hgap hsize, ?_⟩
  rw [hmem]
  refine ⟨?_, ?_, hinv.insert_frame hgap hlog⟩
  · intro tag xs hsub htag
    exact hinv.insert_tagged hgap hlog hsub htag
  · intro f hf
    exact hinv.insert_field hgap hlog (Or.inr rfl) hf

theorem retag (hinv : Inventory L R m bitAmp (left ++ right) bins) {x w : ℕ}
    (hright : Tiles Block.addr Block.size x right R.hi) (hleft : ∀ b ∈ left, b.addr + 32 ≤ x)
    (hvalue : w < 2 ^ 64) (hzero : ∀ d ∈ right.head?, d.isFree = true → w = 0)
    (hbefore : Tagged m 0 left) (hafter : Tagged m tag right) :
    Tagged (setField m x .prevSize w) 0 left ∧
      Tagged (setField m x .prevSize w) w right ∧
      Inventory L R (setField m x .prevSize w) bitAmp (left ++ right) bins ∧
      UsedFrame (left ++ right) m (setField m x .prevSize w) := by
  have hplace : x = R.hi ∨ ∃ b ∈ left ++ right, b.addr = x := by
    cases right with
    | nil => exact Or.inl hright
    | cons d rest => exact Or.inr ⟨d, by simp, hright.1⟩
  obtain ⟨hinv', hframe⟩ := hinv.frame_setField (v := w) hplace (Or.inl rfl)
  have hkeep : ∀ y f, y + 32 ≤ x ∨ x + 32 ≤ y →
      field (setField m x .prevSize w) y f = field m y f := by
    intro y f hy
    apply field_setField_other
    · exact Or.inr hy
    · left
      omega
  refine ⟨?_, ?_, hinv', hframe⟩
  · apply hbefore.congr
    · intro b hb
      exact hkeep _ _ (Or.inl (hleft b hb))
    · intro b hb
      exact hkeep _ _ (Or.inl (hleft b hb))
    · intro b hb _
      exact hkeep _ _ (Or.inl (hleft b hb))
  · cases right with
    | nil => trivial
    | cons d rest =>
      obtain ⟨hs, -, hn, -, hrest⟩ := hafter
      have hd := hinv.inside d (by simp)
      have hlater : ∀ b ∈ rest, x + 32 ≤ b.addr := by
        intro b hb
        have hbound := (hright.2.2.bounds hb).1
        omega
      have hx : d.addr = x := hright.1
      subst hx
      refine ⟨?_, ?_, ?_, fun hfree => hzero d (by simp) hfree, ?_⟩
      · rw [field_setField_other (Or.inl rfl) (Or.inr (by decide)), hs]
      · rw [field_setField (Or.inl rfl) hvalue]
        simp
      · intro hused
        rw [field_setField_other (Or.inl rfl) (Or.inr (by decide)), hn hused]
      · apply hrest.congr
        · intro b hb
          exact hkeep _ _ (Or.inr (hlater b hb))
        · intro b hb
          exact hkeep _ _ (Or.inr (hlater b hb))
        · intro b hb _
          exact hkeep _ _ (Or.inr (hlater b hb))

end Inventory

end HiMpu.FscMem
