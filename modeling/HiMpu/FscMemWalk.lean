import HiMpu.FscMemSession

/-!
# The heap as it can be read from memory

The blocks are found by adding each header's size to its address, from the
start of the region to the end sentinel.  `WellFormedHeap` states the
representation invariant on the headers found this way, without the ghost
blocks of the proofs.
-/

namespace HiMpu.FscMem

open Securec

@[ext]
structure Header where
  addr : ℕ
  size : ℕ
  prevSize : ℕ
  used : Bool
  deriving DecidableEq, Repr

def headerAt (m : Mem) (addr : ℕ) : Header where
  addr := addr
  size := field m addr .size
  prevSize := field m addr .prevSize
  used := decide (field m addr .next = fscMemMagicUsed)

/-- The headers from `addr` up to `stop`; `none` if `stop` is not met within
the fuel. -/
def heapWalk (m : Mem) (stop : ℕ) : ℕ → ℕ → Option (List Header)
  | 0, _ => none
  | fuel + 1, addr =>
    if addr = stop then some []
    else (heapWalk m stop fuel (addr + field m addr .size)).map (headerAt m addr :: ·)

def Arena.sentinel {L : Linkage} (A : Arena L) : ℕ := A.addr + (A.size - 32)

def Arena.headers {L : Linkage} (A : Arena L) (s : FscState) : Option (List Header) :=
  heapWalk s.mem A.sentinel A.size A.addr

/-- Each header holds the size of its physical predecessor if that one is
free, and `0` otherwise; `tag` is what the first must hold. -/
def PrevSizes : ℕ → List Header → Prop
  | _, [] => True
  | tag, h :: hs => h.prevSize = tag ∧ PrevSizes (if h.used then 0 else h.size) hs

structure WellFormedHeap (L : Linkage) (A : Arena L) (s : FscState) (headers : List Header)
    (bins : ℕ → List ℕ) : Prop where
  walk : A.headers s = some headers
  tiles : Tiles Header.addr Header.size A.addr headers A.sentinel
  sentinelUsed : field s.mem A.sentinel .next = fscMemMagicUsed
  coalesced : Coalesced (fun h => !h.used) headers
  lists : ∀ i < 31,
    CircularList (fun x => field s.mem x .next) (fun x => field s.mem x .prev) (L.head i) (bins i)
  listed : ∀ h ∈ headers, h.used = false →
    Nat.log 2 h.size < 31 ∧ ∀ i < 31, (h.addr ∈ bins i ↔ i = Nat.log 2 h.size)
  unlisted : ∀ h ∈ headers, h.used = true → ∀ i < 31, h.addr ∉ bins i
  onlyBlocks : ∀ i < 31, ∀ x ∈ bins i, ∃ h ∈ headers, h.addr = x
  bitmap : ∀ i < 31, bins i ≠ [] → s.bitAmp.testBit (31 - i) = true
  prevSizes : PrevSizes 0 headers

variable {L : Linkage} {R : Region L} {m : Mem} {bitAmp : ℕ} {blocks : List Block}
  {bins : ℕ → List ℕ} {b : Block} {A : Arena L} {S : Session}

def Block.header (m : Mem) (b : Block) : Header := headerAt m b.addr

theorem heapWalk_blocks {start stop tag fuel : ℕ} {xs : List Block}
    (htiles : Tiles Block.addr Block.size start xs stop) (htag : Tagged m tag xs)
    (hfuel : xs.length < fuel) : heapWalk m stop fuel start = some (xs.map (Block.header m)) := by
  induction xs generalizing start tag fuel with
  | nil =>
    have heq : start = stop := htiles
    cases fuel with
    | zero => simp at hfuel
    | succ fuel => simp [heapWalk, heq]
  | cons b bs ih =>
    obtain ⟨rfl, hpos, hrest⟩ := htiles
    obtain ⟨hsize, -, -, -, htags⟩ := htag
    have hle := hrest.start_le_stop
    cases fuel with
    | zero => simp at hfuel
    | succ fuel =>
      have hne : b.addr ≠ stop := by omega
      rw [heapWalk, if_neg hne, hsize, ih hrest htags (by simpa using hfuel)]
      rfl

theorem HeapShape.header_used (hheap : HeapShape L R m bitAmp blocks bins) (hb : b ∈ blocks) :
    (b.header m).used = !b.isFree := by
  obtain ⟨-, hused⟩ := hheap.tagged.header hb
  unfold Block.header headerAt
  cases hfree : b.isFree with
  | false => simp [hused hfree]
  | true =>
    have hnode := (hheap.inventory.delete_nodes hb hfree).2.1
    simp [hheap.inventory.link_ne_magic hnode]

theorem HeapShape.header_size (hheap : HeapShape L R m bitAmp blocks bins) (hb : b ∈ blocks) :
    (b.header m).size = b.size :=
  (hheap.tagged.header hb).1

theorem HeapShape.length_lt (hheap : HeapShape L R m bitAmp blocks bins) :
    blocks.length < R.fuel := by
  have hcount := hheap.tiles.length_mul_le fun b hb => (hheap.inventory.inside b hb).2.2.1
  unfold Region.fuel
  omega

theorem tiles_headers {start stop : ℕ} {xs : List Block}
    (htiles : Tiles Block.addr Block.size start xs stop)
    (hsize : ∀ b ∈ xs, (b.header m).size = b.size) :
    Tiles Header.addr Header.size start (xs.map (Block.header m)) stop := by
  induction xs generalizing start with
  | nil => exact htiles
  | cons b bs ih =>
    obtain ⟨haddr, hpos, hrest⟩ := htiles
    have hb := hsize b (by simp)
    refine ⟨haddr, by rw [hb]; exact hpos, ?_⟩
    rw [hb]
    exact ih hrest fun c hc => hsize c (by simp [hc])

theorem prevSizes_headers {tag : ℕ} {xs : List Block} (htag : Tagged m tag xs)
    (hused : ∀ b ∈ xs, (b.header m).used = !b.isFree) :
    PrevSizes tag (xs.map (Block.header m)) := by
  induction xs generalizing tag with
  | nil => trivial
  | cons b bs ih =>
    obtain ⟨hsize, hprev, -, -, hrest⟩ := htag
    refine ⟨hprev, ?_⟩
    have hnext : (if (b.header m).used then 0 else (b.header m).size) = b.tag := by
      rw [hused b (by simp)]
      have hsize' : (b.header m).size = b.size := hsize
      cases hfree : b.isFree <;> simp [Block.tag, hfree, hsize']
    rw [hnext]
    exact ih hrest fun c hc => hused c (by simp [hc])

theorem coalesced_headers {xs : List Block} (hco : Coalesced Block.isFree xs)
    (hused : ∀ b ∈ xs, (b.header m).used = !b.isFree) :
    Coalesced (fun h => !h.used) (xs.map (Block.header m)) := by
  unfold Coalesced at hco ⊢
  rw [List.isChain_map]
  apply hco.imp_of_mem_imp
  intro b c hb hc hbc
  simp only [hused b hb, hused c hc, Bool.not_not]
  exact hbc

theorem HeapShape.wellFormed {s : FscState} (hvalid : A.Valid)
    (hheap : HeapShape L hvalid.region s.mem s.bitAmp blocks bins) :
    WellFormedHeap L A s (blocks.map (Block.header s.mem)) bins := by
  have hinv := hheap.inventory
  have hused : ∀ b ∈ blocks, (b.header s.mem).used = !b.isFree := fun b hb => hheap.header_used hb
  have hsize : ∀ b ∈ blocks, (b.header s.mem).size = b.size := fun b hb => hheap.header_size hb
  have hpos : ∀ b ∈ blocks, 0 < b.size := fun b hb => (hheap.tiles.bounds hb).2.2
  have hlength := hheap.length_lt
  rw [hvalid.fuel_eq] at hlength
  refine
    { walk := heapWalk_blocks hheap.tiles hheap.tagged hlength
      tiles := tiles_headers hheap.tiles hsize
      sentinelUsed := hinv.endNext
      coalesced := coalesced_headers (hheap.tagged.coalesced hpos) hused
      lists := hinv.lists
      listed := ?_
      unlisted := ?_
      onlyBlocks := ?_
      bitmap := hinv.bitmap
      prevSizes := prevSizes_headers hheap.tagged hused }
  · intro h hh hfree
    obtain ⟨b, hb, rfl⟩ := List.mem_map.mp hh
    rw [hused b hb] at hfree
    rw [hsize b hb]
    have hbfree : b.isFree = true := by simpa using hfree
    refine ⟨hinv.log_lt hb, ?_⟩
    intro i hi
    constructor
    · intro hmem
      exact hinv.bin_unique hi (hinv.log_lt hb) (List.mem_cons_of_mem _ hmem)
        (List.mem_cons_of_mem _ (hinv.mem_bin hb hbfree))
    · rintro rfl
      exact hinv.mem_bin hb hbfree
  · intro h hh hbusy i hi hmem
    obtain ⟨b, hb, rfl⟩ := List.mem_map.mp hh
    rw [hused b hb] at hbusy
    obtain ⟨c, hc, hcfree, haddr, -⟩ := (hinv.members i hi _).mp hmem
    have heq : c = b := hinv.eq_of_addr hc hb haddr
    rw [heq] at hcfree
    simp [hcfree] at hbusy
  · intro i hi x hx
    obtain ⟨b, hb, -, haddr, -⟩ := (hinv.members i hi x).mp hx
    exact ⟨b.header s.mem, List.mem_map_of_mem hb, haddr⟩

/-- The representation invariant holds in every reachable session, and every
legal operation on it ends. -/
theorem heap_wellFormed_of_reachable (hreach : (heapSystem L A).Reachable S) :
    (∃ headers bins, WellFormedHeap L A S.heap headers bins) ∧
      ∀ op : Op, op.Legal S → ∃ S', S.apply L A.size op = some S' := by
  obtain ⟨hvalid, hinv⟩ := sessionInv_of_reachable hreach
  constructor
  · obtain ⟨blocks, ⟨bins, hheap⟩, -⟩ := hinv
    exact ⟨_, bins, hheap.wellFormed hvalid⟩
  · intro op hlegal
    obtain ⟨S', hrun, -⟩ := hinv.apply hlegal
    rw [hvalid.fuel_eq] at hrun
    exact ⟨S', hrun⟩

def smallTwo : Session :=
  (smallStart.runLegal smallLinkage smallArena.size
    [.alloc 12, .allocAlign 20 .align032]).get (by decide +kernel)

theorem smallTwo_reachable : (heapSystem smallLinkage smallArena).Reachable smallTwo :=
  reachable_runLegal smallStart_reachable (Option.some_get _).symm

theorem smallTwo_wellFormed :
    smallTwo.live.length = 2 ∧
      ∃ headers bins, WellFormedHeap smallLinkage smallArena smallTwo.heap headers bins :=
  ⟨by decide +kernel, (heap_wellFormed_of_reachable smallTwo_reachable).1⟩

end HiMpu.FscMem
