import HiMpu.FscMemMerge
import HiMpu.FscMemSession

/-!
# A pointer that was already released

The ledger remembers the pointers that were released since the last
allocation.  The control block of such a pointer leads a free block or is
zero inside one, and the two bytes before the pointer still lead to it, so
that the release of it is refused.  Directly behind the control block these
two bytes are the upper ones of the `prev` link, which are zero as long as the
links are below `2^48`.
-/

namespace HiMpu.FscMem

open Securec

variable {L : Linkage} {R : Region L} {A : Arena L} {m m' : Mem} {bitAmp : ℕ}
  {blocks pre post pre' post' : List Block} {bins : ℕ → List ℕ} {b d e big : Block}
  {a : Allocation}

structure Stale (m : Mem) (blocks : List Block) (a : Allocation) : Prop where
  behind : a.ptr = a.ctrl + 32 ∨ a.ctrl + 36 ≤ a.ptr
  offset : a.ctrl + 36 ≤ a.ptr → m.load (a.ptr - 2) 2 = a.ptr - (a.ctrl + 32)
  inside : ∃ d ∈ blocks, d.isFree = true ∧ a.ptr ≤ d.addr + d.size ∧
    (d.addr = a.ctrl ∨ d.addr + 32 ≤ a.ctrl ∧ Zeroed m a.ctrl)

theorem Stale.of_free {f : Block} (hstale : Stale m blocks a)
    (hend : a.ptr ≤ d.addr + d.size) (hlead : d.addr ≤ a.ctrl)
    (hsame : ∀ y, d.addr + 32 ≤ y → y < d.addr + d.size → m' y = m y) (hf : f ∈ pre')
    (hfree : f.isFree = true) (hlast : a.ptr ≤ f.addr + f.size)
    (hat : f.addr = a.ctrl ∨ f.addr + 32 ≤ a.ctrl ∧ Zeroed m' a.ctrl) : Stale m' pre' a := by
  have hbehind := hstale.behind
  refine ⟨hbehind, ?_, f, hf, hfree, hlast, hat⟩
  intro hpad
  rw [← hstale.offset hpad]
  apply Mem.load_congr
  intro y hlow hhigh
  exact hsame y (by omega) (by omega)

theorem Zeroed.congr {z lo hi : ℕ} (hzero : Zeroed m z)
    (hsame : ∀ y, lo ≤ y → y < hi → m' y = m y) (hlow : lo ≤ z) (hhigh : z + 32 ≤ hi) :
    Zeroed m' z := by
  intro y hy hy'
  rw [hsame y (by omega) (by omega)]
  exact hzero y hy hy'

theorem HeapShape.frame_free (hshape : HeapShape L R m bitAmp blocks bins) (hd : d ∈ blocks)
    (hframe : HeaderFrame R (blocks.map Block.addr) m m') :
    ∀ y, d.addr + 32 ≤ y → y < d.addr + d.size → m' y = m y := by
  intro y hlow hhigh
  have hin := hshape.inventory.inside d hd
  apply hframe y (by omega) (by omega)
  intro x hx
  obtain ⟨b, hb, rfl⟩ := List.mem_map.mp hx
  have hin' := hshape.inventory.inside b hb
  rcases hshape.inventory.disjoint hd hb with rfl | hdb | hbd
  · omega
  · omega
  · omega

theorem Merged.free_cases (hmerged : Merged R m m' pre post pre' post' e big)
    (hsize : 32 ≤ e.size) (hused : e.isFree = false) (hd : d ∈ pre ++ e :: post)
    (hfree : d.isFree = true) :
    d ∈ pre' ++ big :: post' ∨
      (big.addr = d.addr ∧ d.addr + d.size ≤ big.addr + big.size) ∨
      (big.addr + 32 ≤ d.addr ∧ d.addr + d.size ≤ big.addr + big.size ∧ Zeroed m' d.addr) := by
  have hne : d ≠ e := (Block.ne_of_isFree hused hfree).symm
  have hside : d ∈ pre ∨ d ∈ post := by simpa [hne] using hd
  have hend : e.addr + e.size ≤ big.addr + big.size := by
    rcases hmerged.right with ⟨-, hend⟩ | ⟨q, -, -, hq, hend, -⟩
    · omega
    · omega
  have hlead : big.addr ≤ e.addr := by
    rcases hmerged.left with ⟨-, haddr⟩ | ⟨p, -, -, haddr, hp, -⟩
    · omega
    · omega
  rcases hside with hpre | hpost
  · rcases hmerged.left with ⟨rfl, -⟩ | ⟨p, rfl, -, haddr, hp, -⟩
    · exact Or.inl (by simp [hpre])
    · rcases List.mem_append.mp hpre with hpre | hlast
      · exact Or.inl (by simp [hpre])
      · obtain rfl := List.mem_singleton.mp hlast
        exact Or.inr (Or.inl ⟨haddr.symm, by omega⟩)
  · rcases hmerged.right with ⟨rfl, -⟩ | ⟨q, rfl, -, hq, hqend, hzero⟩
    · exact Or.inl (by simp [hpost])
    · rcases List.mem_cons.mp hpost with rfl | hpost
      · exact Or.inr (Or.inr ⟨by omega, by omega, hzero⟩)
      · exact Or.inl (by simp [hpost])

theorem Stale.merged (hstale : Stale m (pre ++ e :: post) a)
    (hshape : HeapShape L R m bitAmp (pre ++ e :: post) bins) (hused : e.isFree = false)
    (hmerged : Merged R m m' pre post pre' post' e big) :
    Stale m' (pre' ++ big :: post') a := by
  obtain ⟨d, hd, hfree, hend, hat⟩ := hstale.inside
  have hbehind := hstale.behind
  have hsame := hshape.frame_free hd hmerged.frame
  have hlead : d.addr ≤ a.ctrl := by omega
  have hkeep : d.addr + 32 ≤ a.ctrl → Zeroed m a.ctrl → Zeroed m' a.ctrl := by
    intro hlow hzero
    exact hzero.congr hsame hlow (by omega)
  have hsize := (hshape.inventory.inside e (by simp)).2.2.1
  rcases hmerged.free_cases hsize hused hd hfree with hstays | ⟨haddr, hgrows⟩ |
      ⟨hinside, hgrows, hgone⟩
  · refine hstale.of_free hend hlead hsame hstays hfree hend ?_
    exact hat.imp id fun hzero => ⟨hzero.1, hkeep hzero.1 hzero.2⟩
  · refine hstale.of_free hend hlead hsame (f := big) (by simp) hmerged.free (by omega) ?_
    rw [haddr]
    exact hat.imp id fun hzero => ⟨hzero.1, hkeep hzero.1 hzero.2⟩
  · refine hstale.of_free hend hlead hsame (f := big) (by simp) hmerged.free (by omega)
      (Or.inr ⟨by omega, ?_⟩)
    rcases hat with heq | ⟨hlow, hzero⟩
    · rw [← heq]
      exact hgone
    · exact hkeep hlow hzero

theorem Merged.stale (hmerged : Merged R m m' pre post pre' post' e big)
    (hshape : HeapShape L R m bitAmp (pre ++ e :: post) bins) (howner : e.owner = some a)
    (hfour : a.ptr % 4 = 0) : Stale m' (pre' ++ big :: post') a := by
  have he : e ∈ pre ++ e :: post := by simp
  have hpay := hshape.inventory.payloads e he a howner
  have hin := hshape.inventory.inside e he
  have hctrl := hpay.ctrl_eq
  have habove := hpay.above
  have hbelow := hpay.below
  have hnonempty := hpay.nonempty
  have hsame := hshape.frame_free he hmerged.frame
  have hend : e.addr + e.size ≤ big.addr + big.size := by
    rcases hmerged.right with ⟨-, hend⟩ | ⟨q, -, -, hq, hend, -⟩
    · omega
    · omega
  refine ⟨by omega, ?_, big, by simp, hmerged.free, by omega, ?_⟩
  · intro hpad
    rw [hctrl, ← hpay.offset]
    apply Mem.load_congr
    intro y hlow hhigh
    exact hsame y (by omega) (by omega)
  · rw [hctrl]
    rcases hmerged.left with ⟨-, haddr⟩ | ⟨p, rfl, -, haddr, hp, hzero⟩
    · exact Or.inl haddr
    · have hinp := hshape.inventory.inside p (by simp)
      exact Or.inr ⟨by omega, hzero⟩

def Arena.Low (A : Arena L) : Prop :=
  A.addr + A.size ≤ 2 ^ 48 ∧ L.nodeList + fscMemLastIdx * fscMemUsedHeadSize ≤ 2 ^ 48

def Recognised (A : Arena L) (a : Allocation) : Prop :=
  A.Low ∨ a.ptr ≠ a.ctrl + fscMemUsedHeadSize

theorem Arena.Low.node_lt {hvalid : A.Valid} (hlow : A.Low)
    (hinv : Inventory L hvalid.region m bitAmp blocks bins) {z : ℕ} (hz : LinkNode L blocks z) :
    z < 2 ^ 48 := by
  obtain ⟨haddr, hlist⟩ := hlow
  have hlarge := A.large
  rcases hz with ⟨i, hi, rfl⟩ | ⟨b, hb, -, rfl⟩
  · unfold Linkage.head
    unfold fscMemLastIdx fscMemUsedHeadSize at hlist
    unfold fscMemUsedHeadSize
    omega
  · have hin := hinv.inside b hb
    have hhi : hvalid.region.hi = A.addr + (A.size - 32) := rfl
    omega

theorem load_prev_top {z : ℕ} (hlt : field m z .prev < 2 ^ 48) : m.load (z + 30) 2 = 0 := by
  have hsplit : field m z .prev = m.load (z + 24) 6 + 256 ^ 6 * m.load (z + 24 + 6) 2 :=
    Mem.load_add m (z + 24) 6 2
  have haddr : z + 24 + 6 = z + 30 := by omega
  rw [hsplit, haddr] at hlt
  omega

theorem Zeroed.load_eq {z addr n : ℕ} (hzero : Zeroed m z) (hlow : z ≤ addr)
    (hhigh : addr + n ≤ z + 32) : m.load addr n = 0 := by
  have hfill := Mem.load_fill_zero (m := m) hlow hhigh
  rw [← hfill]
  apply Mem.load_congr
  intro y hy hy'
  have hin : z ≤ y ∧ y < z + 32 := by omega
  simp only [Mem.fill, if_pos hin]
  exact hzero y hin.1 hin.2

theorem Stale.head_addr {s : FscState} {hvalid : A.Valid} (hstale : Stale s.mem blocks a)
    (hshape : HeapShape L hvalid.region s.mem s.bitAmp blocks bins) (hrec : Recognised A a) :
    bmMemoryGetHeadAddr s.mem a.ptr = a.ctrl := by
  have hbehind := hstale.behind
  unfold bmMemoryGetHeadAddr
  by_cases hpad : a.ctrl + 36 ≤ a.ptr
  · rw [hstale.offset hpad]
    unfold fscMemUsedHeadSize
    omega
  · have hptr : a.ptr = a.ctrl + 32 := by omega
    have hlow : A.Low := by
      rcases hrec with hlow | hne
      · exact hlow
      · exact absurd hptr hne
    have hzero : s.mem.load (a.ptr - 2) 2 = 0 := by
      have haddr : a.ptr - 2 = a.ctrl + 30 := by omega
      rw [haddr]
      obtain ⟨d, hd, hfree, -, heq | ⟨-, hgone⟩⟩ := hstale.inside
      · apply load_prev_top
        rw [← heq]
        exact hlow.node_lt hshape.inventory (hshape.inventory.delete_nodes hd hfree).2.2.1
      · exact hgone.load_eq (by omega) (by omega)
    rw [hzero, hptr]
    unfold fscMemUsedHeadSize
    omega

theorem Stale.refused {s : FscState} {hvalid : A.Valid} (hstale : Stale s.mem blocks a)
    (hshape : HeapShape L hvalid.region s.mem s.bitAmp blocks bins) (hrec : Recognised A a) :
    bmMemoryFreeFsc L s a.ptr = (s, errnoMemFreeShDamaged) := by
  have hbehind := hstale.behind
  have hptr : a.ptr ≠ 0 := by omega
  have hnext : field s.mem a.ctrl .next ≠ fscMemMagicUsed := by
    obtain ⟨d, hd, hfree, -, heq | ⟨-, hgone⟩⟩ := hstale.inside
    · rw [← heq]
      exact hshape.inventory.link_ne_magic (hshape.inventory.delete_nodes hd hfree).2.1
    · have hzero : field s.mem a.ctrl .next = 0 := hgone.load_eq (by simp [Field.offset])
        (by simp [Field.offset])
      rw [hzero]
      decide
  unfold bmMemoryFreeFsc
  rw [if_neg hptr, hstale.head_addr hshape hrec]
  simp only [hnext, ne_eq, not_false_eq_true, true_or, if_true]

structure Ledger where
  session : Session
  stale : List Allocation

/-- Callers may also run past the end of a payload, up to the end of its block, and release the
null pointer or a stale pointer once more. -/
inductive Call where
  | op (o : Op)
  | overrun (ptr addr : ℕ) (byte : UInt8)
  | again (ptr : ℕ)
  deriving DecidableEq

def Call.Legal (A : Arena L) (T : Ledger) : Call → Prop
  | .op o => o.Legal T.session
  | .overrun ptr addr _ => ∃ a ∈ T.session.live, a.ptr = ptr ∧ ptr ≤ addr ∧
      addr < a.ctrl + field T.session.heap.mem a.ctrl .size
  | .again ptr => ptr = 0 ∨ ∃ a ∈ T.stale, a.ptr = ptr ∧ Recognised A a

def Ledger.staleAfter (T : Ledger) (S' : Session) : List Allocation :=
  if T.session.live.length < S'.live.length then []
  else T.session.live.filter (fun a => a ∉ S'.live) ++ T.stale

def Ledger.apply (L : Linkage) (fuel : ℕ) (T : Ledger) : Call → Option Ledger
  | .op o => (T.session.apply L fuel o).map fun S' => ⟨S', T.staleAfter S'⟩
  | .overrun _ addr byte => some { T with session := T.session.poke addr byte }
  | .again ptr =>
    some { T with session := T.session.release ptr (bmMemoryFreeFsc L T.session.heap ptr) }

instance (A : Arena L) : Decidable A.Low := by
  unfold Arena.Low
  infer_instance

instance (A : Arena L) (a : Allocation) : Decidable (Recognised A a) := by
  unfold Recognised
  infer_instance

instance (A : Arena L) (T : Ledger) (c : Call) : Decidable (c.Legal A T) := by
  cases c <;> unfold Call.Legal <;> infer_instance

def Ledger.next (A : Arena L) : Ledger → Call → Option Ledger :=
  TransitionSystem.guarded (fun T c => c.Legal A T) fun T c => T.apply L A.size c

def ledgerSystem (L : Linkage) (A : Arena L) : TransitionSystem Ledger Call :=
  TransitionSystem.ofStep (fun T => (heapSystem L A).init T.session ∧ T.stale = [])
    (Ledger.next A)

def LedgerInv (L : Linkage) (R : Region L) (T : Ledger) : Prop :=
  ∃ blocks, SessionShape L R T.session blocks ∧ (∀ a ∈ T.session.live, a.ptr % 4 = 0) ∧
    ∀ a ∈ T.stale, Stale T.session.heap.mem blocks a

variable {T : Ledger} {hvalid : A.Valid}

theorem filter_self (xs : List Allocation) : xs.filter (fun a => a ∉ xs) = [] := by
  rw [List.filter_eq_nil_iff]
  intro a ha
  simpa using ha

theorem Ledger.staleAfter_same {S' : Session} (hlive : S'.live = T.session.live) :
    T.staleAfter S' = T.stale := by
  unfold Ledger.staleAfter
  rw [hlive, if_neg (lt_irrefl _), filter_self, List.nil_append]

theorem SessionShape.poke_stale {S : Session} {y : ℕ} {byte : UInt8}
    (hshape : SessionShape L R S blocks) (hd : d ∈ blocks) (howner : d.owner = some a)
    (hlow : a.ptr ≤ y) (hhigh : y < d.addr + d.size) {a' : Allocation}
    (hstale : Stale S.heap.mem blocks a') : Stale (S.poke y byte).heap.mem blocks a' := by
  obtain ⟨bins, hheap⟩ := hshape.shape
  have hinv := hheap.inventory
  have habove := (hinv.payloads d hd a howner).above
  obtain ⟨f, hf, hfree, hend, hat⟩ := hstale.inside
  have hbehind := hstale.behind
  have hne : d ≠ f := Block.ne_of_isFree (isFree_of_owner howner) hfree
  have hsame : ∀ x, f.addr + 32 ≤ x → x < f.addr + f.size → (S.poke y byte).heap.mem x =
      S.heap.mem x := by
    intro x hxlow hxhigh
    apply Function.update_of_ne
    rcases hinv.disjoint hd hf with heq | hdf | hfd
    · exact absurd heq hne
    · omega
    · omega
  refine hstale.of_free hend (by omega) hsame hf hfree hend ?_
  exact hat.imp id fun hzero => ⟨hzero.1, hzero.2.congr hsame hzero.1 (by omega)⟩

theorem LedgerInv.poke {y : ℕ} {byte : UInt8} (hinv : LedgerInv L R T)
    (ha : a ∈ T.session.live) (hlow : a.ptr ≤ y)
    (hhigh : y < a.ctrl + field T.session.heap.mem a.ctrl .size) :
    LedgerInv L R { T with session := T.session.poke y byte } := by
  obtain ⟨blocks, hshape, hfour, hstale⟩ := hinv
  obtain ⟨bins, hheap⟩ := hshape.shape
  obtain ⟨d, hd, howner⟩ := mem_owners.mp (hshape.live.mem_iff.mp ha)
  have hctrl := (hheap.inventory.payloads d hd a howner).ctrl_eq
  rw [hctrl, (hheap.tagged.header hd).1] at hhigh
  exact ⟨blocks, ⟨⟨bins, hheap.poke_block hd howner hlow hhigh⟩, hshape.live⟩, hfour,
    fun a' ha' => hshape.poke_stale hd howner hlow hhigh (hstale a' ha')⟩

theorem LedgerInv.free (hinv : LedgerInv L R T) (ha : a ∈ T.session.live) :
    let S' := T.session.release a.ptr (bmMemoryFreeFsc L T.session.heap a.ptr)
    LedgerInv L R ⟨S', T.staleAfter S'⟩ := by
  intro S'
  obtain ⟨blocks, hshape, hfour, hstale⟩ := hinv
  obtain ⟨pre, e, post, rfl, howner⟩ := hshape.block_of_live ha
  obtain ⟨bins, hheap⟩ := hshape.shape
  by_cases htail : tailIntact T.session.heap.mem e
  · obtain ⟨s', pre', post', big, bins', hrun, hheap', hblocks, hmerged⟩ :=
      hheap.free_merged howner htail
    have hS' : S' = ⟨s', T.session.live.filter fun x => x.ptr ≠ a.ptr⟩ := by
      simp only [S', hrun, Session.release, if_true]
    have hle : ¬ T.session.live.length < S'.live.length := by
      rw [hS', not_lt]
      exact List.length_filter_le _ _
    refine ⟨pre' ++ big :: post', ⟨⟨bins', by rw [hS']; exact hheap'⟩, ?_⟩, ?_, ?_⟩
    · rw [hS', owners_congr hblocks, ← hheap.inventory.owners_filter howner]
      exact hshape.live.filter _
    · intro x hx
      rw [hS'] at hx
      exact hfour x (List.mem_of_mem_filter hx)
    · intro x hx
      unfold Ledger.staleAfter at hx
      rw [if_neg hle] at hx
      rw [hS']
      rcases List.mem_append.mp hx with hnew | hold
      · obtain ⟨hlive, hgone⟩ := List.mem_filter.mp hnew
        rw [hS', decide_eq_true_eq, List.mem_filter, not_and] at hgone
        have hptr : x.ptr = a.ptr := by simpa using hgone hlive
        -- Only one block hands out this pointer.
        obtain ⟨d, hd, hdowner⟩ := mem_owners.mp (hshape.live.mem_iff.mp hlive)
        have hsame : d = e := by
          by_contra hne
          exact hheap.inventory.ptr_ne hd (by simp) hne hdowner howner hptr
        have hxa : x = a := by
          rw [hsame, howner] at hdowner
          exact (Option.some.inj hdowner).symm
        rw [hxa]
        exact hmerged.stale hheap howner (hfour a ha)
      · exact (hstale x hold).merged hheap (isFree_of_owner howner) hmerged
  · have hS' : S' = T.session := by
      simp only [S', hheap.free_damaged howner htail]
      exact release_overwrite _ _
    rw [hS', Ledger.staleAfter_same rfl]
    exact ⟨_, hshape, hfour, hstale⟩

theorem LedgerInv.grant {size align : ℕ} (hinv : LedgerInv L R T) (halign : AlignOk align)
    (hsize : size < 2 ^ 32) :
    ∃ S', (allocInner L R.fuel T.session.heap size align).map (T.session.grant size align) =
      some S' ∧ LedgerInv L R ⟨S', T.staleAfter S'⟩ := by
  obtain ⟨blocks, hshape, hfour, hstale⟩ := hinv
  rcases hshape.alloc halign hsize with ⟨s', hrun, hmem, hshape', -⟩ |
      ⟨-, s', cur, n, a, left, right, hrun, hgranted, hshape'⟩
  · refine ⟨⟨s', T.session.live⟩, by rw [hrun]; rfl, blocks, hshape', hfour, ?_⟩
    intro x hx
    simp only [Ledger.staleAfter_same, hmem] at hx ⊢
    exact hstale x hx
  · refine ⟨⟨s', a :: T.session.live⟩, ?_, _, hshape', ?_, ?_⟩
    · rw [hrun, Option.map_some, hgranted.session_eq T.session]
    · intro x hx
      rcases List.mem_cons.mp hx with rfl | hx
      · rw [hgranted.alloc_eq]
        exact Nat.mod_eq_zero_of_dvd (Dvd.dvd.mul_left halign.four _)
      · exact hfour x hx
    · intro x hx
      unfold Ledger.staleAfter at hx
      rw [if_pos (by simp)] at hx
      cases hx

theorem LedgerInv.again {ptr : ℕ} (hinv : LedgerInv L hvalid.region T)
    (hlegal : ptr = 0 ∨ ∃ a ∈ T.stale, a.ptr = ptr ∧ Recognised A a) :
    T.session.release ptr (bmMemoryFreeFsc L T.session.heap ptr) = T.session := by
  obtain ⟨blocks, ⟨⟨bins, hheap⟩, -⟩, -, hstale⟩ := hinv
  unfold Session.release
  rcases hlegal with rfl | ⟨a, ha, rfl, hrec⟩
  · have hnull : bmMemoryFreeFsc L T.session.heap 0 =
        (T.session.heap, errnoMemFreeAddrInvalid) := rfl
    rw [hnull, if_neg (show ¬ errnoMemFreeAddrInvalid = eok by decide)]
  · rw [(hstale a ha).refused hheap hrec, if_neg (show ¬ errnoMemFreeShDamaged = eok by decide)]

theorem LedgerInv.apply {c : Call} {T' : Ledger} (hinv : LedgerInv L hvalid.region T)
    (hlegal : c.Legal A T) (hrun : T.apply L A.size c = some T') :
    LedgerInv L hvalid.region T' := by
  cases c with
  | op o =>
    obtain ⟨S', hS', rfl⟩ := Option.map_eq_some_iff.mp hrun
    rcases o.cases_request with ⟨size, align, hreq⟩ | hrefused | ⟨ptr, rfl⟩ |
        ⟨ptr, offset, byte, rfl⟩
    · obtain ⟨S'', hgrant, hinv'⟩ :=
        hinv.grant (Op.request_align hreq) (Op.request_legal hreq hlegal)
      rw [Session.apply_request hreq, ← hvalid.fuel_eq, hgrant] at hS'
      cases hS'
      exact hinv'
    · rw [hrefused] at hS'
      cases hS'
      rw [Ledger.staleAfter_same rfl]
      exact hinv
    · obtain ⟨a, ha, rfl⟩ := hlegal
      cases hS'
      exact hinv.free ha
    · obtain ⟨a, ha, rfl, hoffset⟩ := hlegal
      cases hS'
      have hsame : T.staleAfter (T.session.poke (a.ptr + offset) byte) = T.stale :=
        Ledger.staleAfter_same rfl
      rw [hsame]
      have hkeep := hinv
      obtain ⟨blocks, hshape, -⟩ := hkeep
      obtain ⟨bins, hheap⟩ := hshape.shape
      obtain ⟨d, hd, howner⟩ := mem_owners.mp (hshape.live.mem_iff.mp ha)
      have hpay := hheap.inventory.payloads d hd a howner
      have hbelow := hpay.below
      have hfield := (hheap.tagged.header hd).1
      rw [← hpay.ctrl_eq] at hfield hbelow
      exact hinv.poke ha (by omega) (by omega)
  | overrun ptr addr byte =>
    obtain ⟨a, ha, rfl, hlow, hhigh⟩ := hlegal
    cases hrun
    exact hinv.poke ha hlow hhigh
  | again ptr =>
    cases hrun
    rw [hinv.again hlegal]
    exact hinv

theorem ledgerInv_of_reachable (hreach : (ledgerSystem L A).Reachable T) :
    ∃ hvalid : A.Valid, LedgerInv L hvalid.region T := by
  apply hreach.invariant
  · rintro T ⟨⟨hlive, s, hinit⟩, hstale⟩
    obtain ⟨hvalid, hheap⟩ := bmMemoryInitFsc_spec hinit
    refine ⟨hvalid, _, ⟨⟨_, hheap⟩, ?_⟩, ?_, ?_⟩
    · rw [hlive]
      simp [owners]
    · rw [hlive]
      simp
    · rw [hstale]
      simp
  · rintro T c T' - ⟨hvalid, hinv⟩ hstep
    obtain ⟨hlegal, hrun⟩ := Option.ite_none_right_eq_some.mp hstep
    exact ⟨hvalid, hinv.apply hlegal hrun⟩

def smallLedger : Ledger :=
  (TransitionSystem.runSteps (Ledger.next smallArena) ⟨smallStart, []⟩
    [.op (.allocAlign 8 .align004), .op (.alloc 12), .op (.alloc 8), .overrun 0x10078 0x10080 0,
      .op (.free 0x100d8), .again 0x100d8, .op (.free 0x100a8), .again 0x100d8,
      .again 0x100a8, .again 0]).get (by decide +kernel)

theorem smallStart_init : (heapSystem smallLinkage smallArena).init smallStart := by
  refine ⟨rfl, ⟨fun _ => 0, 1⟩, Prod.ext rfl ?_⟩
  decide +kernel

def highLinkage : Linkage where
  nodeList := 2 ^ 53
  aligned := by decide
  nonnull := by decide
  fits := by decide

def highArena : Arena highLinkage where
  addr := 0x10000
  size := 0x100
  large := by norm_num
  fits := by norm_num
  offList := Or.inl (by norm_num [highLinkage])

def highStart : Session where
  heap := (bmMemoryInitFsc highLinkage ⟨fun _ => 0, 1⟩ highArena.addr highArena.size).1
  live := []

def highLedger : Ledger :=
  (TransitionSystem.runSteps (Ledger.next highArena) ⟨highStart, []⟩
    [.op (.allocAlign 8 .align004), .op (.allocAlign 32 .align004), .op (.write 0x10098 0 0xa5),
      .op (.write 0x10098 1 0xa5), .op (.write 0x10098 2 0x5a), .op (.write 0x10098 3 0x5a),
      .op (.write 0x10098 8 0x28), .op (.free 0x100d8)]).get (by decide +kernel)

end HiMpu.FscMem
