import HiMpu.CircularList
import HiMpu.IntervalTiling
import HiMpu.FscMemBits
import HiMpu.FscMemFields

/-!
# The representation invariant of the FSC heap

The abstract heap is the list of blocks in address order, each either free or
owned by the allocation that it was handed out for.  `Inventory` relates a set
of blocks to the bins, the bitmap and the payload bookkeeping in memory and
does not depend on the physical order; `HeapShape` adds the tiling of the
region and the boundary tags.

Removing a block from its bin and inserting one are proved once on the
inventory.
-/

namespace HiMpu.FscMem

structure Allocation where
  ptr : ℕ
  size : ℕ
  align : ℕ
  ctrl : ℕ
  deriving DecidableEq, Repr

structure Block where
  addr : ℕ
  size : ℕ
  owner : Option Allocation
  deriving DecidableEq, Repr

def Block.isFree (b : Block) : Bool := b.owner.isNone

theorem Block.ne_of_isFree {b d : Block} (hused : b.isFree = false) (hfree : d.isFree = true) :
    b ≠ d := by
  rintro rfl
  simp [hused] at hfree

def Block.tag (b : Block) : ℕ := if b.isFree then b.size else 0

/-- A managed region: `[lo, hi)` holds the blocks, `[hi, hi + 32)` the end
sentinel, and neither overlaps the bin heads. -/
structure Region (L : Linkage) where
  lo : ℕ
  hi : ℕ
  aligned : lo % 4 = 0
  nonnull : 0 < lo
  nonempty : lo + 32 ≤ hi
  small : hi < lo + 2 ^ 31
  fits : hi + 32 ≤ 2 ^ 64
  offList : hi + 32 ≤ L.nodeList ∨ L.nodeList + fscMemLastIdx * fscMemUsedHeadSize ≤ lo

structure Payload (m : Mem) (b : Block) (a : Allocation) : Prop where
  ctrl_eq : a.ctrl = b.addr
  nonempty : 0 < a.size
  aligned : a.ptr % a.align = 0
  above : b.addr + 32 ≤ a.ptr
  below : a.ptr + a.size ≤ b.addr + b.size
  near : a.ptr - (b.addr + 32) < 2 ^ 16
  offset : m.load (a.ptr - 2) 2 = a.ptr - (b.addr + 32)

theorem Payload.congr {m m' : Mem} {b : Block} {a : Allocation} (hpay : Payload m b a)
    (hsame : ∀ y, b.addr + 24 ≤ y → y < b.addr + b.size → m' y = m y) : Payload m' b a := by
  have habove := hpay.above
  have hbelow := hpay.below
  have hpos := hpay.nonempty
  refine { hpay with offset := ?_ }
  rw [← hpay.offset]
  apply Mem.load_congr
  intro y hlow hhigh
  exact hsame y (by omega) (by omega)

def LinkNode (L : Linkage) (blocks : List Block) (z : ℕ) : Prop :=
  (∃ i < 31, z = L.head i) ∨ ∃ b ∈ blocks, b.isFree = true ∧ b.addr = z

structure Inventory (L : Linkage) (R : Region L) (m : Mem) (bitAmp : ℕ)
    (blocks : List Block) (bins : ℕ → List ℕ) : Prop where
  inside : ∀ b ∈ blocks, R.lo ≤ b.addr ∧ b.addr + b.size ≤ R.hi ∧ 32 ≤ b.size ∧ b.addr % 4 = 0
  apart : blocks.Pairwise fun b c => b.addr + b.size ≤ c.addr
  lists : ∀ i < 31,
    CircularList (fun x => field m x .next) (fun x => field m x .prev) (L.head i) (bins i)
  members : ∀ i < 31, ∀ x, x ∈ bins i ↔
    ∃ b ∈ blocks, b.isFree = true ∧ b.addr = x ∧ Nat.log 2 b.size = i
  bitmap : ∀ i < 31, bins i ≠ [] → bitAmp.testBit (31 - i) = true
  endNext : field m R.hi .next = fscMemMagicUsed
  endSize : field m R.hi .size = 0
  payloads : ∀ b ∈ blocks, ∀ a, b.owner = some a → Payload m b a

/-! ## Where the nodes are -/

theorem Region.head_off {L : Linkage} (R : Region L) {i : ℕ} (hi : i < 31) :
    R.hi + 32 ≤ L.head i ∨ L.head i + 32 ≤ R.lo := by
  have hoff := R.offList
  simp only [fscMemLastIdx, fscMemUsedHeadSize, Linkage.head] at hoff ⊢
  omega

theorem Linkage.head_apart (L : Linkage) (i j : ℕ) : Apart (L.head i) (L.head j) := by
  unfold Apart Linkage.head fscMemUsedHeadSize
  omega

theorem Linkage.head_inj {L : Linkage} {i j : ℕ} (heq : L.head i = L.head j) : i = j := by
  unfold Linkage.head fscMemUsedHeadSize at heq
  omega

theorem Linkage.head_lt (L : Linkage) {i : ℕ} (hi : i < 31) : L.head i < 2 ^ 64 := by
  have hfits := L.fits
  simp only [fscMemLastIdx, fscMemUsedHeadSize, Linkage.head] at hfits ⊢
  omega

namespace Inventory

variable {L : Linkage} {R : Region L} {m m' : Mem} {bitAmp : ℕ} {blocks left right : List Block}
  {bins : ℕ → List ℕ} {b c d : Block}

theorem disjoint (hinv : Inventory L R m bitAmp blocks bins) (hb : b ∈ blocks) (hc : c ∈ blocks) :
    b = c ∨ b.addr + b.size ≤ c.addr ∨ c.addr + c.size ≤ b.addr := by
  have hpair : blocks.Pairwise fun x y : Block =>
      x.addr + x.size ≤ y.addr ∨ y.addr + y.size ≤ x.addr :=
    hinv.apart.imp Or.inl
  have hsymm : Std.Symm fun x y : Block =>
      x.addr + x.size ≤ y.addr ∨ y.addr + y.size ≤ x.addr :=
    ⟨fun _ _ h => h.symm⟩
  by_cases heq : b = c
  · exact Or.inl heq
  · exact Or.inr (hpair.forall hb hc heq)

theorem eq_of_addr (hinv : Inventory L R m bitAmp blocks bins) (hb : b ∈ blocks)
    (hc : c ∈ blocks) (haddr : b.addr = c.addr) : b = c := by
  have hb' := hinv.inside b hb
  have hc' := hinv.inside c hc
  rcases hinv.disjoint hb hc with heq | hlow | hhigh
  · exact heq
  · omega
  · omega

theorem log_lt (hinv : Inventory L R m bitAmp blocks bins) (hb : b ∈ blocks) :
    Nat.log 2 b.size < 31 := by
  have hin := hinv.inside b hb
  have hsmall := R.small
  exact Nat.log_lt_of_lt_pow (by omega) (by omega)

theorem block_apart (hinv : Inventory L R m bitAmp blocks bins) (hb : b ∈ blocks) {z : ℕ}
    (hz : LinkNode L blocks z) : Apart b.addr z := by
  have hin := hinv.inside b hb
  unfold Apart
  rcases hz with ⟨i, hi, rfl⟩ | ⟨c, hc, -, rfl⟩
  · have hoff := R.head_off hi
    omega
  · have hc' := hinv.inside c hc
    rcases hinv.disjoint hb hc with rfl | hlow | hhigh
    · exact Or.inl rfl
    · omega
    · omega

theorem end_apart (hinv : Inventory L R m bitAmp blocks bins) {z : ℕ}
    (hz : LinkNode L blocks z) : R.hi + 32 ≤ z ∨ z + 32 ≤ R.hi := by
  have hne := R.nonempty
  rcases hz with ⟨i, hi, rfl⟩ | ⟨b, hb, -, rfl⟩
  · have hoff := R.head_off hi
    omega
  · have hin := hinv.inside b hb
    omega

theorem spaced (hinv : Inventory L R m bitAmp blocks bins) : Spaced (LinkNode L blocks) := by
  intro x y hx hy
  rcases hx with ⟨i, hi, rfl⟩ | ⟨b, hb, -, rfl⟩
  · rcases hy with ⟨j, hj, rfl⟩ | ⟨c, hc, -, rfl⟩
    · exact L.head_apart i j
    · have hin := hinv.inside c hc
      have hoff := R.head_off hi
      unfold Apart
      omega
  · exact hinv.block_apart hb hy

theorem used_outside (hinv : Inventory L R m bitAmp blocks bins) (hb : b ∈ blocks)
    (hused : b.isFree = false) {y : ℕ} (hlow : b.addr ≤ y) (hhigh : y < b.addr + b.size) {z : ℕ}
    (hz : LinkNode L blocks z) : y < z ∨ z + 32 ≤ y := by
  have hin := hinv.inside b hb
  rcases hz with ⟨i, hi, rfl⟩ | ⟨c, hc, hfree, rfl⟩
  · have hoff := R.head_off hi
    omega
  · have hc' := hinv.inside c hc
    rcases hinv.disjoint hb hc with rfl | hlow' | hhigh'
    · rw [hused] at hfree
      contradiction
    · omega
    · omega

theorem linkNode_of_mem (hinv : Inventory L R m bitAmp blocks bins) {i x : ℕ} (hi : i < 31)
    (hx : x ∈ L.head i :: bins i) : LinkNode L blocks x := by
  rcases List.mem_cons.mp hx with rfl | hmem
  · exact Or.inl ⟨i, hi, rfl⟩
  · obtain ⟨b, hb, hfree, haddr, -⟩ := (hinv.members i hi x).mp hmem
    exact Or.inr ⟨b, hb, hfree, haddr⟩

theorem bin_unique (hinv : Inventory L R m bitAmp blocks bins) {i j x : ℕ} (hi : i < 31)
    (hj : j < 31) (hxi : x ∈ L.head i :: bins i) (hxj : x ∈ L.head j :: bins j) : i = j := by
  have hhead : ∀ k < 31, ∀ l < 31, x = L.head k → x ∉ bins l := by
    intro k hk l hl heq hmem
    obtain ⟨b, hb, -, haddr, -⟩ := (hinv.members l hl x).mp hmem
    have hin := hinv.inside b hb
    have hoff := R.head_off hk
    omega
  rcases List.mem_cons.mp hxi with hi' | hi'
  · rcases List.mem_cons.mp hxj with hj' | hj'
    · exact Linkage.head_inj (hi'.symm.trans hj')
    · exact absurd hj' (hhead i hi j hj hi')
  · rcases List.mem_cons.mp hxj with hj' | hj'
    · exact absurd hi' (hhead j hj i hi hj')
    · obtain ⟨b, hb, -, hbaddr, hblog⟩ := (hinv.members i hi x).mp hi'
      obtain ⟨c, hc, -, hcaddr, hclog⟩ := (hinv.members j hj x).mp hj'
      have heq := hinv.eq_of_addr hb hc (hbaddr.trans hcaddr.symm)
      subst heq
      exact hblog.symm.trans hclog

theorem mem_bin (hinv : Inventory L R m bitAmp blocks bins) (hb : b ∈ blocks)
    (hfree : b.isFree = true) : b.addr ∈ bins (Nat.log 2 b.size) :=
  (hinv.members _ (hinv.log_lt hb) _).mpr ⟨b, hb, hfree, rfl, rfl⟩

theorem frame_payloads (hinv : Inventory L R m bitAmp blocks bins)
    (hlinks : ∀ z, LinkNode L blocks z →
      field m' z .next = field m z .next ∧ field m' z .prev = field m z .prev)
    (hpay : ∀ b ∈ blocks, ∀ a, b.owner = some a → Payload m' b a)
    (hendNext : field m' R.hi .next = field m R.hi .next)
    (hendSize : field m' R.hi .size = field m R.hi .size) :
    Inventory L R m' bitAmp blocks bins := by
  refine
    { inside := hinv.inside
      apart := hinv.apart
      lists := ?_
      members := hinv.members
      bitmap := hinv.bitmap
      endNext := hendNext.trans hinv.endNext
      endSize := hendSize.trans hinv.endSize
      payloads := hpay }
  intro i hi
  apply (hinv.lists i hi).congr
  · intro x hx
    exact (hlinks x (hinv.linkNode_of_mem hi hx)).1
  · intro x hx
    exact (hlinks x (hinv.linkNode_of_mem hi hx)).2

/-- In particular it survives when the bytes of used blocks do, from the
overlaid `prev` member on. -/
theorem frame (hinv : Inventory L R m bitAmp blocks bins)
    (hlinks : ∀ z, LinkNode L blocks z →
      field m' z .next = field m z .next ∧ field m' z .prev = field m z .prev)
    (hused : ∀ b ∈ blocks, b.isFree = false →
      ∀ y, b.addr + 24 ≤ y → y < b.addr + b.size → m' y = m y)
    (hendNext : field m' R.hi .next = field m R.hi .next)
    (hendSize : field m' R.hi .size = field m R.hi .size) :
    Inventory L R m' bitAmp blocks bins := by
  apply hinv.frame_payloads hlinks _ hendNext hendSize
  intro b hb a howner
  have hnot : b.isFree = false := by simp [Block.isFree, howner]
  exact (hinv.payloads b hb a howner).congr (hused b hb hnot)

/-! ## Taking a block out of its bin -/

section Delete

theorem delete_nodes (hinv : Inventory L R m bitAmp blocks bins) (hd : d ∈ blocks)
    (hfree : d.isFree = true) :
    LinkNode L blocks d.addr ∧ LinkNode L blocks (field m d.addr .next) ∧
      LinkNode L blocks (field m d.addr .prev) ∧ field m d.addr .next ≠ d.addr := by
  have hlog := hinv.log_lt hd
  have hmem := hinv.mem_bin hd hfree
  have hlist := hinv.lists _ hlog
  refine ⟨Or.inr ⟨d, hd, hfree, rfl⟩, ?_, ?_, hlist.next_ne_self hmem⟩
  · exact hinv.linkNode_of_mem hlog (hlist.next_mem hmem)
  · exact hinv.linkNode_of_mem hlog (hlist.prev_mem hmem)

theorem delete_field (hinv : Inventory L R m bitAmp blocks bins) (hd : d ∈ blocks)
    (hfree : d.isFree = true) {x : ℕ} (hx : ∀ z, LinkNode L blocks z → Apart x z) {f : Field}
    (hf : f = .size ∨ f = .prevSize) :
    field (bmMemoryDeleteFsc m d.addr) x f = field m x f := by
  obtain ⟨hself, hnext, hprev, hne⟩ := hinv.delete_nodes hd hfree
  have hspaced : Spaced fun z => LinkNode L blocks z ∨ z = x := by
    intro y z hy hz
    rcases hy with hy | rfl
    · rcases hz with hz | rfl
      · exact hinv.spaced y z hy hz
      · rcases hx y hy with heq | hlow | hhigh
        · exact Or.inl heq.symm
        · exact Or.inr (Or.inr hlow)
        · exact Or.inr (Or.inl hhigh)
    · rcases hz with hz | rfl
      · exact hx z hz
      · exact Or.inl rfl
  exact field_delete_other hspaced (Or.inl hself) (Or.inl hnext) (Or.inl hprev) hne
    (Or.inr rfl) hf

theorem delete_byte (hinv : Inventory L R m bitAmp blocks bins) (hd : d ∈ blocks)
    (hfree : d.isFree = true) {y : ℕ} (hy : ∀ z, LinkNode L blocks z → y < z ∨ z + 32 ≤ y) :
    bmMemoryDeleteFsc m d.addr y = m y := by
  obtain ⟨hself, hnext, hprev, hne⟩ := hinv.delete_nodes hd hfree
  exact delete_outside hinv.spaced hself hnext hprev hne hy

theorem mem_of_mem_rest (hb : b ∈ left ++ right) : b ∈ left ++ d :: right :=
  ((List.sublist_cons_self d right).append_left left).subset hb

theorem rest_addr_ne (hinv : Inventory L R m bitAmp (left ++ d :: right) bins)
    (hb : b ∈ left ++ right) : b.addr ≠ d.addr := by
  intro haddr
  have hpair := hinv.apart
  have hin := hinv.inside d (by simp)
  have hin' := hinv.inside b (mem_of_mem_rest hb)
  rw [List.pairwise_append, List.pairwise_cons] at hpair
  rcases List.mem_append.mp hb with hleft | hright
  · have hle := hpair.2.2 b hleft d (by simp)
    omega
  · have hle := hpair.2.1.1 b hright
    omega

theorem delete_members (hinv : Inventory L R m bitAmp (left ++ d :: right) bins)
    (hfree : d.isFree = true) {before after : List ℕ}
    (hsplit : bins (Nat.log 2 d.size) = before ++ d.addr :: after) {i : ℕ} (hi : i < 31) (x : ℕ) :
    x ∈ Function.update bins (Nat.log 2 d.size) (before ++ after) i ↔
      ∃ b ∈ left ++ right, b.isFree = true ∧ b.addr = x ∧ Nat.log 2 b.size = i := by
  have hd : d ∈ left ++ d :: right := by simp
  have hlog := hinv.log_lt hd
  have hmem := hinv.mem_bin hd hfree
  have hkeep : (∃ b ∈ left ++ right, b.isFree = true ∧ b.addr = x ∧ Nat.log 2 b.size = i) ↔
      x ∈ bins i ∧ x ≠ d.addr := by
    rw [hinv.members i hi x]
    constructor
    · rintro ⟨b, hb, hrest⟩
      exact ⟨⟨b, mem_of_mem_rest hb, hrest⟩,
        fun heq => hinv.rest_addr_ne hb (hrest.2.1.trans heq)⟩
    · rintro ⟨⟨b, hb, hrest⟩, hxd⟩
      have hbd : b ≠ d := fun heq => hxd (heq ▸ hrest.2.1.symm)
      refine ⟨b, ?_, hrest⟩
      simpa [hbd] using hb
  rw [hkeep]
  by_cases heq : i = Nat.log 2 d.size
  · have hnodup := (hinv.lists _ hlog).nodes_nodup
    rw [hsplit, List.nodup_append, List.nodup_cons] at hnodup
    have hbefore : d.addr ∉ before := fun h => hnodup.2.2 _ h _ (by simp) rfl
    have hafter : d.addr ∉ after := hnodup.2.1.1
    subst heq
    rw [Function.update_self, hsplit]
    by_cases hx : x = d.addr
    · simp [hx, hbefore, hafter]
    · simp [hx]
  · rw [Function.update_of_ne heq]
    have hne : x ∈ bins i → x ≠ d.addr := by
      rintro hx rfl
      exact heq (hinv.bin_unique hi hlog (List.mem_cons_of_mem _ hx)
        (List.mem_cons_of_mem _ hmem))
    exact ⟨fun hx => ⟨hx, hne hx⟩, fun hx => hx.1⟩

theorem delete_lists (hinv : Inventory L R m bitAmp blocks bins) (hd : d ∈ blocks)
    (hfree : d.isFree = true) {before after : List ℕ}
    (hsplit : bins (Nat.log 2 d.size) = before ++ d.addr :: after) {i : ℕ} (hi : i < 31) :
    CircularList (fun x => field (bmMemoryDeleteFsc m d.addr) x .next)
      (fun x => field (bmMemoryDeleteFsc m d.addr) x .prev) (L.head i)
      (Function.update bins (Nat.log 2 d.size) (before ++ after) i) := by
  obtain ⟨hself, hnext, hprev, hne⟩ := hinv.delete_nodes hd hfree
  have hlog := hinv.log_lt hd
  have hmem := hinv.mem_bin hd hfree
  have hlist := hinv.lists _ hlog
  have hlinks := fun x hx =>
    field_delete_links (x := x) hinv.spaced hself hnext hprev hne hx
  by_cases heq : i = Nat.log 2 d.size
  · subst heq
    rw [Function.update_self]
    have hnode : ∀ x ∈ L.head (Nat.log 2 d.size) :: (before ++ after), LinkNode L blocks x := by
      intro x hx
      apply hinv.linkNode_of_mem hlog
      rw [hsplit]
      exact (((List.sublist_cons_self d.addr after).append_left before).cons_cons _).subset hx
    rw [hsplit] at hlist
    apply hlist.remove
    · intro x hx
      exact (hlinks x (hnode x hx)).1
    · intro x hx
      exact (hlinks x (hnode x hx)).2
  · -- Another bin shares no node with the one that changed.
    rw [Function.update_of_ne heq]
    have hother : ∀ x ∈ L.head i :: bins i,
        x ≠ field m d.addr .prev ∧ x ≠ field m d.addr .next := by
      intro x hx
      constructor
      · intro hprev'
        rw [hprev'] at hx
        exact heq (hinv.bin_unique hi hlog hx (hlist.prev_mem hmem))
      · intro hnext'
        rw [hnext'] at hx
        exact heq (hinv.bin_unique hi hlog hx (hlist.next_mem hmem))
    apply (hinv.lists i hi).congr
    · intro x hx
      rw [(hlinks x (hinv.linkNode_of_mem hi hx)).1, if_neg (hother x hx).1]
    · intro x hx
      rw [(hlinks x (hinv.linkNode_of_mem hi hx)).2, if_neg (hother x hx).2]

theorem delete_end (hinv : Inventory L R m bitAmp blocks bins) (hd : d ∈ blocks)
    (hfree : d.isFree = true) (f : Field) :
    field (bmMemoryDeleteFsc m d.addr) R.hi f = field m R.hi f := by
  apply field_congr
  intro y hlow hhigh
  apply hinv.delete_byte hd hfree
  intro z hz
  have hend := hinv.end_apart hz
  omega

theorem delete_used (hinv : Inventory L R m bitAmp blocks bins) (hd : d ∈ blocks)
    (hfree : d.isFree = true) (hb : b ∈ blocks) (hused : b.isFree = false) {y : ℕ}
    (hlow : b.addr ≤ y) (hhigh : y < b.addr + b.size) :
    bmMemoryDeleteFsc m d.addr y = m y :=
  hinv.delete_byte hd hfree fun _ hz => hinv.used_outside hb hused hlow hhigh hz

theorem delete (hinv : Inventory L R m bitAmp (left ++ d :: right) bins)
    (hfree : d.isFree = true) :
    ∃ bins', Inventory L R (bmMemoryDeleteFsc m d.addr) bitAmp (left ++ right) bins' := by
  have hd : d ∈ left ++ d :: right := by simp
  obtain ⟨before, after, hsplit⟩ := List.append_of_mem (hinv.mem_bin hd hfree)
  refine ⟨Function.update bins (Nat.log 2 d.size) (before ++ after), ?_⟩
  refine
    { inside := fun b hb => hinv.inside b (mem_of_mem_rest hb)
      apart := hinv.apart.sublist ((List.sublist_cons_self d right).append_left left)
      lists := fun i hi => hinv.delete_lists hd hfree hsplit hi
      members := fun i hi x => hinv.delete_members hfree hsplit hi x
      bitmap := ?_
      endNext := (hinv.delete_end hd hfree _).trans hinv.endNext
      endSize := (hinv.delete_end hd hfree _).trans hinv.endSize
      payloads := ?_ }
  · intro i hi hnonempty
    apply hinv.bitmap i hi
    by_cases heq : i = Nat.log 2 d.size
    · subst heq
      rw [hsplit]
      simp
    · rwa [Function.update_of_ne heq] at hnonempty
  · intro b hb a howner
    have hused : b.isFree = false := by simp [Block.isFree, howner]
    apply (hinv.payloads b (mem_of_mem_rest hb) a howner).congr
    intro y hlow hhigh
    exact hinv.delete_used hd hfree (mem_of_mem_rest hb) hused (by omega) hhigh

end Delete

/-! ## Putting a block into its bin -/

section Insert

variable {cur n : ℕ}

structure Gap (R : Region L) (left right : List Block) (cur n : ℕ) : Prop where
  low : R.lo ≤ cur
  high : cur + n ≤ R.hi
  minSize : 32 ≤ n
  aligned : cur % 4 = 0
  before : ∀ b ∈ left, b.addr + b.size ≤ cur
  after : ∀ b ∈ right, cur + n ≤ b.addr

theorem Gap.log_lt (hgap : Gap R left right cur n) : Nat.log 2 n < 31 := by
  have hlow := hgap.low
  have hhigh := hgap.high
  have hmin := hgap.minSize
  have hsmall := R.small
  exact Nat.log_lt_of_lt_pow (by omega) (by omega)

theorem Gap.sz2idx (hgap : Gap R left right cur n) : fscMemSz2idx n = Nat.log 2 n := by
  have hlow := hgap.low
  have hhigh := hgap.high
  have hsmall := R.small
  exact fscMemSz2idx_eq_log (by omega)

theorem Gap.block_off (hgap : Gap R left right cur n) (hb : b ∈ left ++ right) :
    b.addr + b.size ≤ cur ∨ cur + n ≤ b.addr := by
  rcases List.mem_append.mp hb with hleft | hright
  · exact Or.inl (hgap.before b hleft)
  · exact Or.inr (hgap.after b hright)

theorem gap_off (hinv : Inventory L R m bitAmp (left ++ right) bins)
    (hgap : Gap R left right cur n) {z : ℕ} (hz : LinkNode L (left ++ right) z) :
    z + 32 ≤ cur ∨ cur + n ≤ z := by
  have hlow := hgap.low
  have hhigh := hgap.high
  have hmin := hgap.minSize
  rcases hz with ⟨i, hi, rfl⟩ | ⟨b, hb, -, rfl⟩
  · have hoff := R.head_off hi
    omega
  · have hin := hinv.inside b hb
    have hoff := hgap.block_off hb
    omega

theorem insert_spaced (hinv : Inventory L R m bitAmp (left ++ right) bins)
    (hgap : Gap R left right cur n) :
    Spaced fun z => LinkNode L (left ++ right) z ∨ z = cur := by
  have hmin := hgap.minSize
  intro x y hx hy
  rcases hx with hx | rfl
  · rcases hy with hy | rfl
    · exact hinv.spaced x y hx hy
    · have hoff := hinv.gap_off hgap hx
      unfold Apart
      omega
  · rcases hy with hy | rfl
    · have hoff := hinv.gap_off hgap hy
      unfold Apart
      omega
    · exact Or.inl rfl

theorem insert_nodes (hinv : Inventory L R m bitAmp (left ++ right) bins)
    (hgap : Gap R left right cur n) {i : ℕ} (hi : i < 31) :
    LinkNode L (left ++ right) (L.head i) ∧
      LinkNode L (left ++ right) (field m (L.head i) .next) ∧ cur ≠ L.head i := by
  refine ⟨Or.inl ⟨i, hi, rfl⟩, ?_, ?_⟩
  · exact hinv.linkNode_of_mem hi (hinv.lists i hi).next_head_mem
  · have hoff := R.head_off hi
    have hlow := hgap.low
    have hhigh := hgap.high
    omega

theorem insert_field (hinv : Inventory L R m bitAmp (left ++ right) bins)
    (hgap : Gap R left right cur n) {i : ℕ} (hi : i < 31) {x : ℕ}
    (hx : LinkNode L (left ++ right) x ∨ x = cur) {f : Field} (hf : f = .size ∨ f = .prevSize) :
    field (linkBehind m (L.head i) cur) x f = field m x f := by
  obtain ⟨hhead, hfirst, hne⟩ := hinv.insert_nodes hgap hi
  exact field_linkBehind_other (hinv.insert_spaced hgap) (Or.inr rfl) (Or.inl hhead)
    (Or.inl hfirst) hne hx hf

theorem insert_byte (hinv : Inventory L R m bitAmp (left ++ right) bins)
    (hgap : Gap R left right cur n) {i : ℕ} (hi : i < 31) {y : ℕ}
    (hy : ∀ z, LinkNode L (left ++ right) z → y < z ∨ z + 32 ≤ y)
    (hcur : y < cur ∨ cur + 32 ≤ y) :
    linkBehind m (L.head i) cur y = m y := by
  obtain ⟨hhead, hfirst, hne⟩ := hinv.insert_nodes hgap hi
  apply linkBehind_outside (hinv.insert_spaced hgap) (Or.inr rfl) (Or.inl hhead)
    (Or.inl hfirst) hne
  rintro z (hz | rfl)
  · exact hy z hz
  · exact hcur

theorem insert_end (hinv : Inventory L R m bitAmp (left ++ right) bins)
    (hgap : Gap R left right cur n) {i : ℕ} (hi : i < 31) (f : Field) :
    field (linkBehind m (L.head i) cur) R.hi f = field m R.hi f := by
  have hhigh := hgap.high
  have hmin := hgap.minSize
  apply field_congr
  intro y hlow hy
  apply hinv.insert_byte hgap hi
  · intro z hz
    have hend := hinv.end_apart hz
    omega
  · omega

theorem insert_used (hinv : Inventory L R m bitAmp (left ++ right) bins)
    (hgap : Gap R left right cur n) {i : ℕ} (hi : i < 31) (hb : b ∈ left ++ right)
    (hused : b.isFree = false) {y : ℕ} (hlow : b.addr ≤ y) (hhigh : y < b.addr + b.size) :
    linkBehind m (L.head i) cur y = m y := by
  have hoff := hgap.block_off hb
  have hmin := hgap.minSize
  apply hinv.insert_byte hgap hi
  · intro z hz
    exact hinv.used_outside hb hused hlow hhigh hz
  · omega

theorem insert_lists (hinv : Inventory L R m bitAmp (left ++ right) bins)
    (hgap : Gap R left right cur n) {i j : ℕ} (hi : i < 31) (hj : j < 31) :
    CircularList (fun x => field (linkBehind m (L.head i) cur) x .next)
      (fun x => field (linkBehind m (L.head i) cur) x .prev) (L.head j)
      (Function.update bins i (cur :: bins i) j) := by
  obtain ⟨hhead, hfirst, hne⟩ := hinv.insert_nodes hgap hi
  have hlow := hgap.low
  have hhigh := hgap.high
  have hmin := hgap.minSize
  have hfits := R.fits
  have hlinks := fun x hx =>
    field_linkBehind_links (x := x) (hinv.insert_spaced hgap) (Or.inr rfl) (Or.inl hhead)
      (Or.inl hfirst) hne (show cur < 2 ^ 64 by omega) (L.head_lt hi) hx
  have hfresh : ∀ k < 31, cur ∉ L.head k :: bins k := by
    intro k hk hmem
    have hoff := hinv.gap_off hgap (hinv.linkNode_of_mem hk hmem)
    omega
  by_cases heq : j = i
  · subst heq
    rw [Function.update_self]
    have hnode : ∀ x ∈ L.head j :: cur :: bins j, LinkNode L (left ++ right) x ∨ x = cur := by
      intro x hx
      by_cases hxc : x = cur
      · exact Or.inr hxc
      · left
        apply hinv.linkNode_of_mem hj
        simpa [hxc] using hx
    apply (hinv.lists j hj).pushFront (hfresh j hj)
    · intro x hx
      exact (hlinks x (hnode x hx)).1
    · intro x hx
      exact (hlinks x (hnode x hx)).2
  · rw [Function.update_of_ne heq]
    have hother : ∀ x ∈ L.head j :: bins j,
        x ≠ L.head i ∧ x ≠ field m (L.head i) .next ∧ x ≠ cur := by
      intro x hx
      refine ⟨?_, ?_, ?_⟩
      · rintro rfl
        exact heq (hinv.bin_unique hj hi hx List.mem_cons_self)
      · intro hnext
        rw [hnext] at hx
        exact heq (hinv.bin_unique hj hi hx (hinv.lists i hi).next_head_mem)
      · rintro rfl
        exact hfresh j hj hx
    apply (hinv.lists j hj).congr
    · intro x hx
      obtain ⟨h1, -, h3⟩ := hother x hx
      rw [(hlinks x (Or.inl (hinv.linkNode_of_mem hj hx))).1, if_neg h1, if_neg h3]
    · intro x hx
      obtain ⟨-, h2, h3⟩ := hother x hx
      rw [(hlinks x (Or.inl (hinv.linkNode_of_mem hj hx))).2, if_neg h2, if_neg h3]

theorem insert_members (hinv : Inventory L R m bitAmp (left ++ right) bins)
    {j : ℕ} (hj : j < 31) (x : ℕ) :
    x ∈ Function.update bins (Nat.log 2 n) (cur :: bins (Nat.log 2 n)) j ↔
      ∃ b ∈ left ++ ⟨cur, n, none⟩ :: right,
        b.isFree = true ∧ b.addr = x ∧ Nat.log 2 b.size = j := by
  have hsplit : (∃ b ∈ left ++ ⟨cur, n, none⟩ :: right,
        b.isFree = true ∧ b.addr = x ∧ Nat.log 2 b.size = j) ↔
      (cur = x ∧ Nat.log 2 n = j) ∨ x ∈ bins j := by
    rw [hinv.members j hj x]
    constructor
    · rintro ⟨b, hb, hrest⟩
      by_cases hbc : b = ⟨cur, n, none⟩
      · subst hbc
        exact Or.inl hrest.2
      · exact Or.inr ⟨b, by simpa [hbc] using hb, hrest⟩
    · rintro (⟨hx, hlog⟩ | ⟨b, hb, hrest⟩)
      · exact ⟨⟨cur, n, none⟩, by simp, rfl, hx, hlog⟩
      · exact ⟨b, mem_of_mem_rest hb, hrest⟩
  rw [hsplit]
  by_cases heq : j = Nat.log 2 n
  · subst heq
    simp [eq_comm]
  · rw [Function.update_of_ne heq]
    simp [Ne.symm heq]

theorem apart_insert (hinv : Inventory L R m bitAmp (left ++ right) bins)
    (hgap : Gap R left right cur n) {owner : Option Allocation} :
    (left ++ ⟨cur, n, owner⟩ :: right).Pairwise fun b c => b.addr + b.size ≤ c.addr := by
  have hpair := hinv.apart
  rw [List.pairwise_append] at hpair ⊢
  rw [List.pairwise_cons]
  refine ⟨hpair.1, ⟨hgap.after, hpair.2.1⟩, ?_⟩
  intro b hb c hc
  rcases List.mem_cons.mp hc with rfl | hc
  · exact hgap.before b hb
  · exact hpair.2.2 b hb c hc

theorem insert {s : FscState} (hinv : Inventory L R s.mem s.bitAmp (left ++ right) bins)
    (hgap : Gap R left right cur n) (hsize : field s.mem cur .size = n) :
    ∃ bins', Inventory L R (bmMemoryInsertFsc L s cur).mem (bmMemoryInsertFsc L s cur).bitAmp
      (left ++ ⟨cur, n, none⟩ :: right) bins' := by
  have hlog := hgap.log_lt
  have hidx : fscMemSz2idx (field s.mem cur .size) = Nat.log 2 n := by
    rw [hsize, hgap.sz2idx]
  have hcases : ∀ b, b ∈ left ++ ⟨cur, n, none⟩ :: right →
      b = ⟨cur, n, none⟩ ∨ b ∈ left ++ right := by
    intro b hb
    by_cases hbc : b = ⟨cur, n, none⟩
    · exact Or.inl hbc
    · exact Or.inr (by simpa [hbc] using hb)
  refine ⟨Function.update bins (Nat.log 2 n) (cur :: bins (Nat.log 2 n)), ?_⟩
  simp only [bmMemoryInsertFsc, hidx]
  refine
    { inside := ?_
      apart := hinv.apart_insert hgap
      lists := fun j hj => hinv.insert_lists hgap hlog hj
      members := fun j hj x => hinv.insert_members hj x
      bitmap := ?_
      endNext := (hinv.insert_end hgap hlog _).trans hinv.endNext
      endSize := (hinv.insert_end hgap hlog _).trans hinv.endSize
      payloads := ?_ }
  · intro b hb
    rcases hcases b hb with rfl | hb
    · exact ⟨hgap.low, hgap.high, hgap.minSize, hgap.aligned⟩
    · exact hinv.inside b hb
  · intro j hj hnonempty
    rw [testBit_setBin _ (by omega)]
    by_cases heq : j = Nat.log 2 n
    · simp [heq]
    · rw [Function.update_of_ne heq] at hnonempty
      simp [hinv.bitmap j hj hnonempty]
  · intro b hb a howner
    have hused : b.isFree = false := by simp [Block.isFree, howner]
    rcases hcases b hb with rfl | hb
    · simp at howner
    · apply (hinv.payloads b hb a howner).congr
      intro y hlow hhigh
      exact hinv.insert_used hgap hlog hb hused (by omega) hhigh

end Insert

end Inventory

end HiMpu.FscMem
