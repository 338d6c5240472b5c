import HiMpu.FscMemShape

/-!
# The heap after initialisation

`bm_memory_init_fsc` accepts a region of at least a header.  From 64 bytes on
the region has room for one block besides the end sentinel, and the call
leaves that block free and alone.
-/

namespace HiMpu.FscMem

open Securec

/-- Memory given to `bm_memory_init_fsc`: it lies in the address space and
does not overlap the bin heads.  The only caller, `bm_init_hwi`, passes the
`0x3000` bytes of `g_memory_region`. -/
structure Arena (L : Linkage) where
  addr : ℕ
  size : ℕ
  large : 64 ≤ size
  fits : addr + size ≤ 2 ^ 64
  offList : addr + size ≤ L.nodeList ∨ L.nodeList + fscMemLastIdx * fscMemUsedHeadSize ≤ addr

structure Arena.Valid {L : Linkage} (A : Arena L) : Prop where
  nonnull : A.addr ≠ 0
  addr_aligned : A.addr % 4 = 0
  size_aligned : A.size % 4 = 0
  size_le : A.size ≤ fscMemMaxval

def Arena.Valid.region {L : Linkage} {A : Arena L} (hvalid : A.Valid) : Region L where
  lo := A.addr
  hi := A.addr + (A.size - 32)
  aligned := hvalid.addr_aligned
  nonnull := Nat.pos_of_ne_zero hvalid.nonnull
  nonempty := by
    have hlarge := A.large
    omega
  small := by
    have hle := hvalid.size_le
    unfold fscMemMaxval fscMemSizeAlign at hle
    omega
  fits := by
    have hlarge := A.large
    have hfits := A.fits
    omega
  offList := by
    have hlarge := A.large
    have hoff := A.offList
    omega

variable {L : Linkage} {A : Arena L}

theorem field_resetHeads (m : Mem) {n i : ℕ} (hn : n ≤ 31) (hi : i < n) {f : Field}
    (hf : f = .next ∨ f = .prev) : field (resetHeads L m n) (L.head i) f = L.head i := by
  induction n with
  | zero => omega
  | succ n ih =>
    unfold resetHeads
    have hvalue := L.head_lt (show n < 31 by omega)
    by_cases heq : i = n
    · subst heq
      rw [field_setField (Or.inl rfl) hvalue]
      rcases hf with rfl | rfl
      · simp
      · rw [field_setField (Or.inl rfl) hvalue]
        simp
    · have hne : L.head i ≠ L.head n := fun h => heq (Linkage.head_inj h)
      rw [field_setField_other (L.head_apart i n) (Or.inl hne),
        field_setField_other (L.head_apart i n) (Or.inl hne)]
      exact ih (by omega) (by omega)

def placeBlock (m : Mem) (head addr size : ℕ) : Mem :=
  let m := setField m addr .next head
  let m := setField m addr .prevSize 0
  let m := setField m addr .size size
  let m := setField m addr .prev head
  let m := setField m head .next addr
  let m := setField m head .prev addr
  let m := setField m (addr + size) .next fscMemMagicUsed
  setField m (addr + size) .size 0

theorem field_placeBlock_head {m : Mem} {head addr size x : ℕ} (hxAddr : Apart x addr)
    (hxEnd : Apart x (addr + size)) (hxHead : Apart x head) (hneAddr : x ≠ addr)
    (hneEnd : x ≠ addr + size) (hvalue : addr < 2 ^ 64) {f : Field} (hf : f = .next ∨ f = .prev) :
    field (placeBlock m head addr size) x f = if x = head then addr else field m x f := by
  unfold placeBlock
  simp only
  rw [field_setField_other hxEnd (Or.inl hneEnd), field_setField_other hxEnd (Or.inl hneEnd),
    field_setField hxHead hvalue, field_setField hxHead hvalue,
    field_setField_other hxAddr (Or.inl hneAddr), field_setField_other hxAddr (Or.inl hneAddr),
    field_setField_other hxAddr (Or.inl hneAddr), field_setField_other hxAddr (Or.inl hneAddr)]
  rcases hf with rfl | rfl
  · simp
  · simp

theorem field_placeBlock_addr (m : Mem) (head addr size : ℕ) (hhead : Apart addr head)
    (hne : addr ≠ head) (hsize : 32 ≤ size) (hvalue : head < 2 ^ 64) (hsizeFits : size < 2 ^ 64) :
    field (placeBlock m head addr size) addr .next = head ∧
      field (placeBlock m head addr size) addr .prev = head ∧
      field (placeBlock m head addr size) addr .size = size ∧
      field (placeBlock m head addr size) addr .prevSize = 0 := by
  have hend : Apart addr (addr + size) := Or.inr (Or.inl (by omega))
  have hneEnd : addr ≠ addr + size := by omega
  have hpeel : ∀ f, field (placeBlock m head addr size) addr f =
      field (setField (setField (setField (setField m addr .next head) addr .prevSize 0) addr
        .size size) addr .prev head) addr f := by
    intro f
    unfold placeBlock
    simp only
    rw [field_setField_other hend (Or.inl hneEnd), field_setField_other hend (Or.inl hneEnd),
      field_setField_other hhead (Or.inl hne), field_setField_other hhead (Or.inl hne)]
  have hself : Apart addr addr := Or.inl rfl
  refine ⟨?_, ?_, ?_, ?_⟩
  · rw [hpeel, field_setField hself hvalue, field_setField hself hsizeFits,
      field_setField hself (by decide), field_setField hself hvalue]
    simp
  · rw [hpeel, field_setField hself hvalue]
    simp
  · rw [hpeel, field_setField hself hvalue, field_setField hself hsizeFits]
    simp
  · rw [hpeel, field_setField hself hvalue, field_setField hself hsizeFits,
      field_setField hself (by decide)]
    simp

theorem field_placeBlock_end (m : Mem) (head addr size : ℕ) :
    field (placeBlock m head addr size) (addr + size) .next = fscMemMagicUsed ∧
      field (placeBlock m head addr size) (addr + size) .size = 0 := by
  have hself : Apart (addr + size) (addr + size) := Or.inl rfl
  unfold placeBlock
  simp only
  constructor
  · rw [field_setField hself (by decide), field_setField hself (by decide)]
    simp
  · rw [field_setField hself (by decide)]
    simp

def initialBins (addr size : ℕ) : ℕ → List ℕ :=
  Function.update (fun _ => []) (Nat.log 2 size) [addr]

theorem initial_lists {R : Region L} {m : Mem}
    (hreset : ∀ i < 31, ∀ f, f = .next ∨ f = .prev → field m (L.head i) f = L.head i)
    {i : ℕ} (hi : i < 31) :
    let head := L.head (Nat.log 2 (R.hi - R.lo))
    CircularList (fun x => field (placeBlock m head R.lo (R.hi - R.lo)) x .next)
      (fun x => field (placeBlock m head R.lo (R.hi - R.lo)) x .prev) (L.head i)
      (initialBins R.lo (R.hi - R.lo) i) := by
  have hsmall := R.small
  have hnonempty := R.nonempty
  have hfits := R.fits
  have hlog : Nat.log 2 (R.hi - R.lo) < 31 := Nat.log_lt_of_lt_pow (by omega) (by omega)
  intro head
  have hhead : ∀ j < 31, ∀ f, f = .next ∨ f = .prev →
      field (placeBlock m head R.lo (R.hi - R.lo)) (L.head j) f =
        if L.head j = head then R.lo else L.head j := by
    intro j hj f hf
    have hoff := R.head_off hj
    rw [field_placeBlock_head (Or.inr (by omega)) (Or.inr (by omega)) (L.head_apart j _)
      (by omega) (by omega) (by omega) hf, hreset j hj f hf]
  have hheadOff := R.head_off hlog
  obtain ⟨hnext, hprev, -, -⟩ := field_placeBlock_addr m head R.lo (R.hi - R.lo)
    (Or.inr (by omega)) (by omega) (by omega) (L.head_lt hlog) (by omega)
  unfold initialBins
  by_cases heq : i = Nat.log 2 (R.hi - R.lo)
  · subst heq
    rw [Function.update_self]
    have hself := fun f hf => hhead _ hlog f hf
    refine ⟨?_, ?_⟩
    · simp only [List.cons_append, List.nil_append, List.isChain_cons_cons, Linked,
        hself _ (Or.inl rfl), hself _ (Or.inr rfl), head, if_true]
      exact ⟨⟨trivial, hprev⟩, ⟨hnext, trivial⟩, List.IsChain.singleton _⟩
    · simp only [List.nodup_cons, List.mem_singleton, List.not_mem_nil, not_false_eq_true,
        List.nodup_nil, and_true]
      omega
  · rw [Function.update_of_ne heq]
    have hne : L.head i ≠ head := fun h => heq (Linkage.head_inj h)
    apply CircularList.empty
    · rw [hhead i hi _ (Or.inl rfl), if_neg hne]
    · rw [hhead i hi _ (Or.inr rfl), if_neg hne]

theorem heapShape_placeBlock {R : Region L} {m : Mem} {bitAmp : ℕ}
    (hreset : ∀ i < 31, ∀ f, f = .next ∨ f = .prev → field m (L.head i) f = L.head i)
    (hmod : (R.hi - R.lo) % 4 = 0)
    (hbit : bitAmp.testBit (31 - Nat.log 2 (R.hi - R.lo)) = true) :
    HeapShape L R (placeBlock m (L.head (Nat.log 2 (R.hi - R.lo))) R.lo (R.hi - R.lo)) bitAmp
      [⟨R.lo, R.hi - R.lo, none⟩] (initialBins R.lo (R.hi - R.lo)) := by
  have hsmall := R.small
  have hnonempty := R.nonempty
  have hfits := R.fits
  have hlog : Nat.log 2 (R.hi - R.lo) < 31 := Nat.log_lt_of_lt_pow (by omega) (by omega)
  have hheadOff := R.head_off hlog
  have hend : R.lo + (R.hi - R.lo) = R.hi := by omega
  obtain ⟨-, -, hsize, hprevSize⟩ := field_placeBlock_addr m
    (L.head (Nat.log 2 (R.hi - R.lo))) R.lo (R.hi - R.lo)
    (Or.inr (by omega)) (by omega) (by omega) (L.head_lt hlog) (by omega)
  obtain ⟨hendNext, hendSize⟩ := field_placeBlock_end m
    (L.head (Nat.log 2 (R.hi - R.lo))) R.lo (R.hi - R.lo)
  rw [hend] at hendNext hendSize
  have hinventory : Inventory L R (placeBlock m (L.head (Nat.log 2 (R.hi - R.lo))) R.lo
      (R.hi - R.lo)) bitAmp [⟨R.lo, R.hi - R.lo, none⟩] (initialBins R.lo (R.hi - R.lo)) :=
    { inside := by
        have haligned := R.aligned
        simp only [List.mem_singleton, forall_eq]
        omega
      apart := List.pairwise_singleton _ _
      lists := fun i hi => initial_lists hreset hi
      members := by
        intro i _ x
        unfold initialBins
        by_cases heq : i = Nat.log 2 (R.hi - R.lo)
        · rw [heq, Function.update_self]
          constructor
          · intro hmem
            exact ⟨_, List.mem_singleton_self _, rfl, (List.mem_singleton.mp hmem).symm, rfl⟩
          · rintro ⟨b, hb, -, haddr, -⟩
            rw [List.mem_singleton.mp hb] at haddr
            exact List.mem_singleton.mpr haddr.symm
        · rw [Function.update_of_ne heq]
          constructor
          · intro hmem
            cases hmem
          · rintro ⟨b, hb, -, -, hlogb⟩
            rw [List.mem_singleton.mp hb] at hlogb
            exact absurd hlogb.symm heq
      bitmap := by
        intro i _ hnot
        unfold initialBins at hnot
        by_cases heq : i = Nat.log 2 (R.hi - R.lo)
        · rw [heq, hbit]
        · simp [Function.update_of_ne heq] at hnot
      endNext := hendNext
      endSize := hendSize
      payloads := by simp }
  exact
    { tiles := ⟨rfl, by simp only; omega, hend⟩
      granular := by simpa using hmod
      tagged := ⟨hsize, hprevSize, by simp [Block.isFree], fun _ => rfl, trivial⟩
      inventory := hinventory }

theorem bmMemoryInitFsc_spec {s s' : FscState}
    (hinit : bmMemoryInitFsc L s A.addr A.size = (s', eok)) :
    ∃ hvalid : A.Valid,
      HeapShape L hvalid.region s'.mem s'.bitAmp [⟨A.addr, A.size - 32, none⟩]
        (initialBins A.addr (A.size - 32)) := by
  have hlarge := A.large
  have hfits := A.fits
  have hoff := A.offList
  unfold bmMemoryInitFsc at hinit
  by_cases hnull : A.addr = 0
  · rw [if_pos hnull] at hinit
    cases hinit
  rw [if_neg hnull] at hinit
  by_cases haddr : A.addr % 4 ≠ 0
  · rw [if_pos haddr] at hinit
    cases hinit
  rw [if_neg haddr] at hinit
  by_cases hsize : A.size % 4 ≠ 0
  · rw [if_pos hsize] at hinit
    cases hinit
  rw [if_neg hsize, if_neg (show ¬ A.size < fscMemUsedHeadSize by
    unfold fscMemUsedHeadSize
    omega)] at hinit
  by_cases hbig : fscMemMaxval < A.size
  · rw [if_pos hbig] at hinit
    cases hinit
  rw [if_neg hbig] at hinit
  have hle : A.size ≤ 2 ^ 31 - 8 := by
    have hmax : fscMemMaxval = 2 ^ 31 - 8 := rfl
    omega
  have hvalid : A.Valid := ⟨hnull, by omega, by omega, by omega⟩
  refine ⟨hvalid, ?_⟩
  have hidx : fscMemSz2idx (A.size - 32) = Nat.log 2 (A.size - 32) :=
    fscMemSz2idx_eq_log (by omega)
  have hlog : Nat.log 2 (A.size - 32) < 31 := Nat.log_lt_of_lt_pow (by omega) (by omega)
  have hclear := memsetS_whole (m := s.mem) (d := A.addr) (n := A.size) (c := 0) hnull
    (show A.size ≤ 0x7fffffff by omega)
  have hreset : ∀ i < 31, ∀ f, f = .next ∨ f = .prev →
      field (resetHeads L (s.mem.fill A.addr A.size 0) 31) (L.head i) f = L.head i := by
    intro i hi f hf
    exact field_resetHeads _ le_rfl hi hf
  have hwidth : hvalid.region.hi - hvalid.region.lo = A.size - 32 := by
    simp [Arena.Valid.region]
  have hbit : (s.bitAmp ||| 1 <<< (31 - fscMemLastIdx) ||| fscMemIdx2bit
      (Nat.log 2 (A.size - 32))).testBit
        (31 - Nat.log 2 (hvalid.region.hi - hvalid.region.lo)) = true := by
    rw [hwidth, testBit_setBin _ (by omega)]
    simp
  have hshape := heapShape_placeBlock (R := hvalid.region) hreset (by omega) hbit
  rw [hwidth] at hshape
  rw [hclear] at hinit
  simp only [ne_eq, not_true_eq_false, if_false, hidx, fscMemLastIdx, fscMemUsedHeadSize,
    Prod.mk.injEq, and_true] at hinit
  -- The end of the block is read back from its header.
  have hread : ∀ m head, field (setField (setField (setField (setField (setField (setField m
      A.addr .next head) A.addr .prevSize 0) A.addr .size (A.size - 32)) A.addr .prev head)
      (L.head (Nat.log 2 (A.size - 32))) .next A.addr) (L.head (Nat.log 2 (A.size - 32))) .prev
      A.addr) A.addr .size = A.size - 32 := by
    intro m head
    have hheadOff := hvalid.region.head_off hlog
    simp only [Arena.Valid.region] at hheadOff
    have hapart : Apart A.addr (L.head (Nat.log 2 (A.size - 32))) := Or.inr (by omega)
    have hne : A.addr ≠ L.head (Nat.log 2 (A.size - 32)) := by omega
    rw [field_setField_other hapart (Or.inl hne), field_setField_other hapart (Or.inl hne),
      field_setField_other (Or.inl rfl) (Or.inr (by decide)),
      field_setField (Or.inl rfl) (by omega)]
    simp
  rw [hread] at hinit
  rw [← hinit]
  exact hshape

end HiMpu.FscMem
