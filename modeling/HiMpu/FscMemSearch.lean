import HiMpu.FscMemShape

/-!
# Searching the bins

The search ends within the fuel, changes nothing but the bits of empty bins,
and returns the null pointer or a free block that is large enough, together
with the bin it is on.
-/

namespace HiMpu.FscMem

variable {L : Linkage} {R : Region L} {s : FscState} {blocks : List Block} {bins : ℕ → List ℕ}

def Region.fuel {L : Linkage} (R : Region L) : ℕ := R.hi - R.lo + 32

theorem searchUseableLoop_spec {m : Mem} {head : ℕ} (size : ℕ) {nodes : List ℕ}
    (hlist : CircularList (fun x => field m x .next) (fun x => field m x .prev) head nodes)
    (left right : List ℕ) (hsplit : nodes = left ++ right) {current fuel : ℕ}
    (hcurrent : (right ++ [head]).head? = some current) (hfuel : right.length < fuel) :
    ∃ block, searchUseableLoop m head size fuel current = some block ∧
      (block = 0 ∨ block ∈ nodes ∧ size ≤ field m block .size) := by
  induction right generalizing left current fuel with
  | nil =>
    have heq : head = current := by simpa using hcurrent
    cases fuel with
    | zero => simp at hfuel
    | succ fuel => exact ⟨0, by simp [searchUseableLoop, heq], Or.inl rfl⟩
  | cons c right ih =>
    have heq : c = current := by simpa using hcurrent
    subst heq
    have hmem : c ∈ nodes := by simp [hsplit]
    have hne : c ≠ head := by
      rintro rfl
      exact hlist.head_notMem hmem
    cases fuel with
    | zero => simp at hfuel
    | succ fuel =>
      by_cases hfit : size ≤ field m c .size
      · exact ⟨c, by simp [searchUseableLoop, hne, hfit], Or.inr ⟨hmem, hfit⟩⟩
      · have hnext : (right ++ [head]).head? = some (field m c .next) := by
          rw [hsplit] at hlist
          exact hlist.next_of_split
        have hlength : right.length < fuel := by
          simp only [List.length_cons] at hfuel
          omega
        obtain ⟨block, hrun, hblock⟩ :=
          ih (left ++ [c]) (by simp [hsplit]) hnext hlength
        exact ⟨block, by simpa [searchUseableLoop, hne, hfit] using hrun, hblock⟩

theorem Inventory.bin_length {m : Mem} {bitAmp : ℕ} (hinv : Inventory L R m bitAmp blocks bins)
    (htiles : Tiles Block.addr Block.size R.lo blocks R.hi) {i : ℕ} (hi : i < 31) :
    (bins i).length < R.fuel := by
  have hsub : bins i ⊆ blocks.map Block.addr := by
    intro x hx
    obtain ⟨b, hb, -, haddr, -⟩ := (hinv.members i hi x).mp hx
    exact List.mem_map.mpr ⟨b, hb, haddr⟩
  have hle : (bins i).length ≤ (blocks.map Block.addr).length :=
    ((hinv.lists i hi).nodes_nodup.subperm hsub).length_le
  have hcount := htiles.length_mul_le fun b hb => (hinv.inside b hb).2.2.1
  rw [List.length_map] at hle
  unfold Region.fuel
  omega

structure Found (L : Linkage) (R : Region L) (s s' : FscState) (blocks : List Block)
    (bins : ℕ → List ℕ) (size block idx : ℕ) : Prop where
  mem_eq : s'.mem = s.mem
  inventory : Inventory L R s'.mem s'.bitAmp blocks bins
  fits : block = 0 ∨ ∃ d ∈ blocks, d.isFree = true ∧ d.addr = block ∧ size ≤ d.size ∧
    idx = Nat.log 2 d.size

theorem Inventory.clearBin (hinv : Inventory L R s.mem s.bitAmp blocks bins) {bin : ℕ}
    (hbin : bin < 31) (hempty : bins bin = []) :
    Inventory L R s.mem (s.bitAmp &&& (2 ^ 32 - 1 - fscMemIdx2bit bin)) blocks bins := by
  refine { hinv with bitmap := ?_ }
  intro i hi hnonempty
  have hne : i ≠ bin := by
    rintro rfl
    exact hnonempty hempty
  rw [testBit_clearBin _ (by omega), hinv.bitmap i hi hnonempty]
  have hbit : 31 - i ≠ 31 - bin := by omega
  simp [hbit]
  omega

/-- `floor` is a lower bound of the bins still to be looked at; it grows with
every bin found empty, since that bin's bit is cleared. -/
theorem bmMemorySearchLoop_spec (htiles : Tiles Block.addr Block.size R.lo blocks R.hi)
    (hsizes : ∀ b ∈ blocks, field s.mem b.addr .size = b.size)
    (hinv : Inventory L R s.mem s.bitAmp blocks bins) {size stateIdx fuel : ℕ} (idx floor : ℕ)
    (hstate : stateIdx < 31) (hsize : size < 2 ^ (stateIdx + 1))
    (hidx : stateIdx < idx)
    (hfloor : ∀ bin < 31, bmGetBits (dropBelow s.bitAmp idx) = bin → floor ≤ bin)
    (hle : floor ≤ 31) (hfuel : 32 ≤ fuel + floor) :
    ∃ s' block idx', bmMemorySearchLoop L size stateIdx R.fuel fuel s idx = some (s', block, idx') ∧
      Found L R s s' blocks bins size block idx' := by
  induction fuel generalizing s idx floor with
  | zero => omega
  | succ fuel ih =>
    have hsizeOf : ∀ i < 31, ∀ x ∈ bins i, ∃ d ∈ blocks, d.isFree = true ∧ d.addr = x ∧
        field s.mem x .size = d.size ∧ i = Nat.log 2 d.size := by
      intro i hi x hx
      obtain ⟨d, hd, hfree, haddr, hlog⟩ := (hinv.members i hi x).mp hx
      subst haddr
      exact ⟨d, hd, hfree, rfl, hsizes d hd, hlog.symm⟩
    obtain ⟨bin, hbin⟩ : ∃ bin, bmGetBits (dropBelow s.bitAmp idx) = bin := ⟨_, rfl⟩
    unfold bmMemorySearchLoop
    simp only [hbin, fscMemLastIdx]
    by_cases hlast : 31 ≤ bin
    · -- No larger class has a block: look through the class of the request.
      rw [if_pos hlast]
      have hlist := hinv.lists stateIdx hstate
      have hfirst : (bins stateIdx ++ [L.head stateIdx]).head? =
          some (field s.mem (L.head stateIdx) .next) := by
        cases hnodes : bins stateIdx with
        | nil =>
          rw [hnodes] at hlist
          simp [hlist.next_head_nil]
        | cons first rest =>
          rw [hnodes] at hlist
          simp [hlist.next_head_cons]
      obtain ⟨block, hrun, hblock⟩ := searchUseableLoop_spec size hlist [] (bins stateIdx) rfl hfirst
        (hinv.bin_length htiles hstate)
      refine ⟨s, block, stateIdx, ?_, rfl, hinv, ?_⟩
      · simp [searchUseableFsc, hrun]
      · rcases hblock with hzero | ⟨hmem, hfit⟩
        · exact Or.inl hzero
        · obtain ⟨d, hd, hfree, haddr, hdsize, hlog⟩ := hsizeOf stateIdx hstate block hmem
          rw [hdsize] at hfit
          exact Or.inr ⟨d, hd, hfree, haddr, hfit, hlog⟩
    · rw [if_neg hlast]
      have hlt : bin < 31 := by omega
      obtain ⟨hidxBin, -⟩ := bmGetBits_dropBelow hbin hlt
      have hlist := hinv.lists bin hlt
      by_cases hempty : field s.mem (L.head bin) .next = L.head bin
      · rw [if_pos hempty]
        have hnil : bins bin = [] := hlist.next_head_eq_iff.mp hempty
        obtain ⟨s', block, idx', hrun, hfound⟩ :=
          ih (s := { s with bitAmp := s.bitAmp &&& (2 ^ 32 - 1 - fscMemIdx2bit bin) })
            hsizes (hinv.clearBin hlt hnil) bin (bin + 1) (by omega)
            (by
              intro next hnext hget
              obtain ⟨hge, hbit⟩ := bmGetBits_dropBelow hget hnext
              rw [testBit_clearBin _ (by omega)] at hbit
              have hne : next ≠ bin := by
                rintro rfl
                simp at hbit
              omega)
            (by omega)
            (by
              have hbound := hfloor bin hlt hbin
              omega)
        exact ⟨s', block, idx', hrun, hfound.mem_eq, hfound.inventory, hfound.fits⟩
      · rw [if_neg hempty]
        refine ⟨s, _, bin, rfl, rfl, hinv, Or.inr ?_⟩
        have hmem : field s.mem (L.head bin) .next ∈ bins bin := by
          rcases List.mem_cons.mp hlist.next_head_mem with heq | hmem
          · exact absurd heq hempty
          · exact hmem
        obtain ⟨d, hd, hfree, haddr, -, hlog⟩ := hsizeOf bin hlt _ hmem
        have hin := hinv.inside d hd
        -- A higher class holds larger blocks only.
        have hpow : 2 ^ (stateIdx + 1) ≤ 2 ^ Nat.log 2 d.size :=
          Nat.pow_le_pow_right (by omega) (by omega)
        have hself : 2 ^ Nat.log 2 d.size ≤ d.size := Nat.pow_log_le_self 2 (by omega)
        exact ⟨d, hd, hfree, haddr, by omega, hlog⟩

theorem bmMemorySearchFsc_spec (htiles : Tiles Block.addr Block.size R.lo blocks R.hi)
    (hsizes : ∀ b ∈ blocks, field s.mem b.addr .size = b.size)
    (hinv : Inventory L R s.mem s.bitAmp blocks bins) {size : ℕ} (hpos : 0 < size)
    (hsize : size < 2 ^ 31) :
    ∃ s' block idx, bmMemorySearchFsc L R.fuel s size = some (s', block, idx) ∧
      Found L R s s' blocks bins size block idx := by
  have hidx : fscMemSz2idx size = Nat.log 2 size := fscMemSz2idx_eq_log (by omega)
  have hlog : Nat.log 2 size < 31 := Nat.log_lt_of_lt_pow (by omega) hsize
  unfold bmMemorySearchFsc
  simp only [hidx]
  exact bmMemorySearchLoop_spec htiles hsizes hinv _ 0 hlog
    (Nat.lt_pow_succ_log_self (by omega) size) (by omega)
    (fun _ _ _ => Nat.zero_le _) (by omega) (by unfold Region.fuel; omega)

end HiMpu.FscMem
