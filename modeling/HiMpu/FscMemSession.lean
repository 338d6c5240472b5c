import HiMpu.FscMemAlloc
import HiMpu.FscMemInit
import HiMpu.FscMemRelease
import HiMpu.TransitionSystem

/-!
# Runs of the FSC heap

A session is the heap together with the list of allocations that are live.
Callers may allocate with either entry point, release a live pointer, and
write any byte of a live payload.  The invariant says that the live
allocations are the owners of the used blocks of a well-shaped heap; every
legal operation ends and keeps it.
-/

namespace HiMpu.FscMem

open Securec

structure Session where
  heap : FscState
  live : List Allocation

inductive Op where
  | alloc (size : ℕ)
  | allocAlign (size : ℕ) (align : MemAlign)
  | free (ptr : ℕ)
  | write (ptr offset : ℕ) (byte : UInt8)
  deriving DecidableEq

/-- Sizes are `unsigned int`; only live pointers are released, and only the
requested bytes are written. -/
def Op.Legal (S : Session) : Op → Prop
  | .alloc size => size < 2 ^ 32
  | .allocAlign size _ => size < 2 ^ 32
  | .free ptr => ∃ a ∈ S.live, a.ptr = ptr
  | .write ptr offset _ => ∃ a ∈ S.live, a.ptr = ptr ∧ offset < a.size

def Session.grant (S : Session) (size align : ℕ) (result : FscState × Option (ℕ × ℕ)) : Session :=
  match result.2 with
  | none => { S with heap := result.1 }
  | some (ctrl, ptr) => ⟨result.1, ⟨ptr, size, align, ctrl⟩ :: S.live⟩

def Session.release (S : Session) (ptr : ℕ) (result : FscState × ℕ) : Session :=
  ⟨result.1, if result.2 = eok then S.live.filter fun a => a.ptr ≠ ptr else S.live⟩

def Session.poke (S : Session) (addr : ℕ) (byte : UInt8) : Session :=
  { S with heap := { S.heap with mem := Function.update S.heap.mem addr byte } }

/-- One operation; `none` only if the search ran out of fuel. -/
def Session.apply (L : Linkage) (fuel : ℕ) (S : Session) : Op → Option Session
  | .alloc size =>
    (allocInner L fuel S.heap size fscMemSizeAlign).map (S.grant size fscMemSizeAlign)
  | .allocAlign size p =>
    if MemAlign.butt.pow ≤ p.pow ∨ p.pow < MemAlign.align004.pow then some S
    else (allocInner L fuel S.heap size (2 ^ p.pow)).map (S.grant size (2 ^ p.pow))
  | .free ptr => some (S.release ptr (bmMemoryFreeFsc L S.heap ptr))
  | .write ptr offset byte => some (S.poke (ptr + offset) byte)

/-- The runs of an arena.  A walk through the bins never needs more steps than
the region has bytes. -/
def heapSystem (L : Linkage) (A : Arena L) : TransitionSystem Session Op where
  init S := S.live = [] ∧ ∃ s, bmMemoryInitFsc L s A.addr A.size = (S.heap, eok)
  step S op S' := op.Legal S ∧ S.apply L A.size op = some S'

instance (S : Session) (op : Op) : Decidable (op.Legal S) := by
  cases op <;> unfold Op.Legal <;> infer_instance

def Session.runLegal (L : Linkage) (fuel : ℕ) : Session → List Op → Option Session
  | S, [] => some S
  | S, op :: ops =>
    if op.Legal S then (S.apply L fuel op).bind fun S' => S'.runLegal L fuel ops else none

theorem reachable_runLegal {L : Linkage} {A : Arena L} {S S' : Session} {ops : List Op}
    (hreach : (heapSystem L A).Reachable S) (hrun : S.runLegal L A.size ops = some S') :
    (heapSystem L A).Reachable S' := by
  induction ops generalizing S with
  | nil =>
    cases hrun
    exact hreach
  | cons op ops ih =>
    unfold Session.runLegal at hrun
    by_cases hlegal : op.Legal S
    · rw [if_pos hlegal] at hrun
      obtain ⟨S1, hstep, hrest⟩ := Option.bind_eq_some_iff.mp hrun
      exact ih (hreach.step ⟨hlegal, hstep⟩) hrest
    · rw [if_neg hlegal] at hrun
      cases hrun

def Op.request : Op → Option (ℕ × ℕ)
  | .alloc size => some (size, fscMemSizeAlign)
  | .allocAlign size p =>
    if MemAlign.butt.pow ≤ p.pow ∨ p.pow < MemAlign.align004.pow then none
    else some (size, 2 ^ p.pow)
  | .free _ => none
  | .write _ _ _ => none

theorem Op.request_align {op : Op} {size align : ℕ} (hreq : op.request = some (size, align)) :
    AlignOk align := by
  cases op with
  | alloc n =>
    cases hreq
    exact AlignOk.sizeAlign
  | allocAlign n p =>
    unfold Op.request at hreq
    by_cases hp : MemAlign.butt.pow ≤ p.pow ∨ p.pow < MemAlign.align004.pow
    · simp [hp] at hreq
    · simp only [if_neg hp, Option.some.injEq, Prod.mk.injEq] at hreq
      rw [← hreq.2]
      apply MemAlign.ok
      rintro rfl
      exact hp (Or.inl le_rfl)
  | free ptr => cases hreq
  | write ptr offset byte => cases hreq

theorem Op.request_legal {S : Session} {op : Op} {size align : ℕ}
    (hreq : op.request = some (size, align)) (hlegal : op.Legal S) : size < 2 ^ 32 := by
  cases op with
  | alloc n =>
    cases hreq
    exact hlegal
  | allocAlign n p =>
    unfold Op.request at hreq
    by_cases hp : MemAlign.butt.pow ≤ p.pow ∨ p.pow < MemAlign.align004.pow
    · simp [hp] at hreq
    · simp only [if_neg hp, Option.some.injEq, Prod.mk.injEq] at hreq
      rw [← hreq.1]
      exact hlegal
  | free ptr => cases hreq
  | write ptr offset byte => cases hreq

theorem Session.apply_request {L : Linkage} {fuel : ℕ} {S : Session} {op : Op} {size align : ℕ}
    (hreq : op.request = some (size, align)) :
    S.apply L fuel op = (allocInner L fuel S.heap size align).map (S.grant size align) := by
  cases op with
  | alloc n =>
    cases hreq
    rfl
  | allocAlign n p =>
    unfold Op.request at hreq
    by_cases hp : MemAlign.butt.pow ≤ p.pow ∨ p.pow < MemAlign.align004.pow
    · simp [hp] at hreq
    · simp only [if_neg hp, Option.some.injEq, Prod.mk.injEq] at hreq
      obtain ⟨rfl, rfl⟩ := hreq
      exact if_neg hp
  | free ptr => cases hreq
  | write ptr offset byte => cases hreq

theorem Op.cases_request (op : Op) :
    (∃ size align, op.request = some (size, align)) ∨
      (∀ (L : Linkage) fuel (S : Session), S.apply L fuel op = some S) ∨
      (∃ ptr, op = .free ptr) ∨ ∃ ptr offset byte, op = .write ptr offset byte := by
  cases op with
  | alloc size => exact Or.inl ⟨size, _, rfl⟩
  | allocAlign size p =>
    by_cases hp : MemAlign.butt.pow ≤ p.pow ∨ p.pow < MemAlign.align004.pow
    · exact Or.inr (Or.inl fun _ _ _ => if_pos hp)
    · exact Or.inl ⟨size, 2 ^ p.pow, if_neg hp⟩
  | free ptr => exact Or.inr (Or.inr (Or.inl ⟨ptr, rfl⟩))
  | write ptr offset byte => exact Or.inr (Or.inr (Or.inr ⟨ptr, offset, byte, rfl⟩))

def smallLinkage : Linkage where
  nodeList := 0x1000
  aligned := by decide
  nonnull := by decide
  fits := by decide

def smallArena : Arena smallLinkage where
  addr := 0x10000
  size := 0x100
  large := by decide
  fits := by decide
  offList := by decide

def smallStart : Session where
  heap := (bmMemoryInitFsc smallLinkage ⟨fun _ => 0, 1⟩ smallArena.addr smallArena.size).1
  live := []

theorem smallStart_reachable : (heapSystem smallLinkage smallArena).Reachable smallStart := by
  apply TransitionSystem.Reachable.init
  refine ⟨rfl, ⟨fun _ => 0, 1⟩, Prod.ext rfl ?_⟩
  decide +kernel

def owners (blocks : List Block) : List Allocation := blocks.filterMap Block.owner

theorem owners_append (xs ys : List Block) : owners (xs ++ ys) = owners xs ++ owners ys := by
  simp [owners]

theorem owners_usedBlocks (blocks : List Block) : owners (usedBlocks blocks) = owners blocks := by
  induction blocks with
  | nil => rfl
  | cons b bs ih =>
    cases howner : b.owner with
    | none =>
      have hfree : b.isFree = true := by simp [Block.isFree, howner]
      have hskip : owners (b :: bs) = owners bs := by simp [owners, howner]
      rw [usedBlocks_cons_free hfree, ih, hskip]
    | some a =>
      have hused : b.isFree = false := by simp [Block.isFree, howner]
      have hkeep : ∀ xs, owners (b :: xs) = a :: owners xs := by simp [owners, howner]
      rw [usedBlocks_cons_used hused, hkeep, hkeep, ih]

theorem owners_congr {xs ys : List Block} (hused : usedBlocks xs = usedBlocks ys) :
    owners xs = owners ys := by
  rw [← owners_usedBlocks xs, ← owners_usedBlocks ys, hused]

theorem mem_owners {blocks : List Block} {a : Allocation} :
    a ∈ owners blocks ↔ ∃ b ∈ blocks, b.owner = some a := by
  simp [owners]

structure SessionShape (L : Linkage) (R : Region L) (S : Session) (blocks : List Block) : Prop where
  shape : ∃ bins, HeapShape L R S.heap.mem S.heap.bitAmp blocks bins
  live : S.live.Perm (owners blocks)

variable {L : Linkage} {R : Region L} {S S' : Session} {blocks left right : List Block}
  {b c d : Block} {a : Allocation}

theorem isFree_of_owner (howner : b.owner = some a) : b.isFree = false := by
  simp [Block.isFree, howner]

theorem SessionShape.block_of_live (hshape : SessionShape L R S blocks) (ha : a ∈ S.live) :
    ∃ pre d post, blocks = pre ++ d :: post ∧ d.owner = some a := by
  obtain ⟨d, hd, howner⟩ := mem_owners.mp (hshape.live.mem_iff.mp ha)
  obtain ⟨pre, post, hsplit⟩ := List.append_of_mem hd
  exact ⟨pre, d, post, hsplit, howner⟩

theorem Inventory.ptr_ne {m : Mem} {bitAmp : ℕ} {bins : ℕ → List ℕ} {a' : Allocation}
    (hinv : Inventory L R m bitAmp blocks bins) (hb : b ∈ blocks) (hc : c ∈ blocks) (hne : b ≠ c)
    (howner : b.owner = some a) (howner' : c.owner = some a') : a.ptr ≠ a'.ptr := by
  have hpay := hinv.payloads b hb a howner
  have hpay' := hinv.payloads c hc a' howner'
  have h1 := hpay.above
  have h2 := hpay.below
  have h3 := hpay.nonempty
  have h4 := hpay'.above
  have h5 := hpay'.below
  have h6 := hpay'.nonempty
  rcases hinv.disjoint hb hc with heq | hlow | hhigh
  · exact absurd heq hne
  · omega
  · omega

theorem Inventory.owners_filter {m : Mem} {bitAmp : ℕ} {bins : ℕ → List ℕ}
    (hinv : Inventory L R m bitAmp (left ++ d :: right) bins) (howner : d.owner = some a) :
    (owners (left ++ d :: right)).filter (fun x => x.ptr ≠ a.ptr) = owners (left ++ right) := by
  have hkeep : ∀ x ∈ owners (left ++ right), x.ptr ≠ a.ptr := by
    intro x hx
    obtain ⟨b, hb, hbowner⟩ := mem_owners.mp hx
    have hne : b ≠ d := fun heq => hinv.rest_addr_ne hb (by rw [heq])
    exact hinv.ptr_ne (mem_of_mem_rest hb) (by simp) hne hbowner howner
  have hall : ∀ xs : List Block, (∀ x ∈ owners xs, x.ptr ≠ a.ptr) →
      (owners xs).filter (fun x => x.ptr ≠ a.ptr) = owners xs := by
    intro xs hxs
    rw [List.filter_eq_self]
    simpa using hxs
  rw [owners_append] at hkeep ⊢
  have hcons : owners (d :: right) = a :: owners right := by simp [owners, howner]
  rw [hcons, List.filter_append, List.filter_cons, owners_append,
    hall left fun x hx => hkeep x (by simp [hx]), hall right fun x hx => hkeep x (by simp [hx])]
  simp

theorem SessionShape.alloc {size align : ℕ} (hshape : SessionShape L R S blocks)
    (halign : AlignOk align) (hsize : size < 2 ^ 32) :
    (∃ s', allocInner L R.fuel S.heap size align = some (s', none) ∧ s'.mem = S.heap.mem ∧
        SessionShape L R { S with heap := s' } blocks ∧
        (accepted size align → chosen L R.fuel S.heap (allocSize size align) = none)) ∨
      (accepted size align ∧ ∃ s' cur n a left right,
        allocInner L R.fuel S.heap size align = some (s', some (a.ctrl, a.ptr)) ∧
        Granted L R S.heap s' blocks size align cur n a left right ∧
        SessionShape L R ⟨s', a :: S.live⟩ (left ++ ⟨cur, n, some a⟩ :: right)) := by
  obtain ⟨bins, hheap⟩ := hshape.shape
  rcases hheap.alloc halign hsize with ⟨s', hrun, hmem, hheap', hnone⟩ |
      ⟨hacc, s', cur, n, a, left, right, hrun, hgranted⟩
  · exact Or.inl ⟨s', hrun, hmem, ⟨⟨bins, hheap'⟩, hshape.live⟩, hnone⟩
  · refine Or.inr ⟨hacc, s', cur, n, a, left, right, hrun, hgranted, hgranted.shape, ?_⟩
    have hcons : owners (⟨cur, n, some a⟩ :: right) = a :: owners right := by simp [owners]
    have hsame : owners left ++ owners right = owners blocks := by
      rw [← owners_append, owners_congr hgranted.others]
    rw [owners_append, hcons]
    calc
      (a :: S.live).Perm (a :: owners blocks) := hshape.live.cons a
      _ = a :: (owners left ++ owners right) := by rw [hsame]
      List.Perm _ (owners left ++ a :: owners right) := List.perm_middle.symm

theorem Granted.session_eq {s s' : FscState} {size align cur n : ℕ}
    (hgranted : Granted L R s s' blocks size align cur n a left right) (S : Session) :
    S.grant size align (s', some (a.ctrl, a.ptr)) = ⟨s', a :: S.live⟩ := by
  rw [hgranted.alloc_eq]
  rfl

theorem SessionShape.free (hshape : SessionShape L R S (left ++ d :: right))
    (howner : d.owner = some a) :
    (tailIntact S.heap.mem d ∧ ∃ s' blocks', bmMemoryFreeFsc L S.heap a.ptr = (s', eok) ∧
        SessionShape L R (S.release a.ptr (s', eok)) blocks' ∧
        usedBlocks blocks' = usedBlocks (left ++ right) ∧
        UsedFrame (left ++ right) S.heap.mem s'.mem) ∨
      (¬ tailIntact S.heap.mem d ∧
        bmMemoryFreeFsc L S.heap a.ptr = (S.heap, errnoMemOverwrite)) := by
  obtain ⟨bins, hheap⟩ := hshape.shape
  by_cases htail : tailIntact S.heap.mem d
  · left
    obtain ⟨s', blocks', bins', hrun, hheap', hused, hframe⟩ := hheap.free_intact howner htail
    refine ⟨htail, s', blocks', hrun, ⟨⟨bins', hheap'⟩, ?_⟩, hused, hframe⟩
    unfold Session.release
    rw [if_pos rfl, owners_congr hused, ← hheap.inventory.owners_filter howner]
    exact hshape.live.filter _
  · exact Or.inr ⟨htail, hheap.free_damaged howner htail⟩

theorem release_overwrite (S : Session) (ptr : ℕ) :
    S.release ptr (S.heap, errnoMemOverwrite) = S := by
  unfold Session.release
  rw [if_neg (show ¬ errnoMemOverwrite = eok by decide)]

theorem HeapShape.poke_block {m : Mem} {bitAmp : ℕ} {bins : ℕ → List ℕ} {y : ℕ} {byte : UInt8}
    (hheap : HeapShape L R m bitAmp blocks bins) (hd : d ∈ blocks) (howner : d.owner = some a)
    (hlow : a.ptr ≤ y) (hhigh : y < d.addr + d.size) :
    HeapShape L R (Function.update m y byte) bitAmp blocks bins := by
  have hinv := hheap.inventory
  have hused := isFree_of_owner howner
  have hpay := hinv.payloads d hd a howner
  have habove := hpay.above
  have hbelow := hpay.below
  have hin := hinv.inside d hd
  have hother : ∀ x, x ≠ y → Function.update m y byte x = m x := by
    intro x hx
    exact Function.update_of_ne hx ..
  have hheader : ∀ b ∈ blocks, ∀ x, b.addr ≤ x → x < b.addr + 32 →
      Function.update m y byte x = m x := by
    intro b hb x hxlow hxhigh
    have hin' := hinv.inside b hb
    apply hother
    rcases hinv.disjoint hb hd with rfl | hbd | hdb
    · omega
    · omega
    · omega
  have hend : ∀ f, field (Function.update m y byte) R.hi f = field m R.hi f := by
    intro f
    apply field_congr
    intro x hxlow _
    exact hother x (by omega)
  have hinventory : Inventory L R (Function.update m y byte) bitAmp blocks bins := by
    apply hinv.frame_payloads _ _ (hend _) (hend _)
    · intro z hz
      have hout := hinv.used_outside hd hused (by omega) (show y < d.addr + d.size by omega) hz
      have hbytes : ∀ x, z ≤ x → x < z + 32 → Function.update m y byte x = m x :=
        fun x _ _ => hother x (by omega)
      exact ⟨field_congr hbytes _, field_congr hbytes _⟩
    · intro b hb a' howner'
      have hpay' := hinv.payloads b hb a' howner'
      have habove' := hpay'.above
      have hbelow' := hpay'.below
      have hpos' := hpay'.nonempty
      refine { hpay' with offset := ?_ }
      rw [← hpay'.offset]
      apply Mem.load_congr
      intro x hxlow hxhigh
      apply hother
      rcases hinv.disjoint hb hd with heq | hbd | hdb
      · subst heq
        have hsame : a' = a := by simpa [howner] using howner'.symm
        subst hsame
        omega
      · omega
      · omega
  exact ⟨hheap.tiles, hheap.granular, hheap.tagged.congr_bytes hheader, hinventory⟩

theorem HeapShape.poke {m : Mem} {bitAmp : ℕ} {bins : ℕ → List ℕ} {y : ℕ} {byte : UInt8}
    (hheap : HeapShape L R m bitAmp blocks bins) (hd : d ∈ blocks) (howner : d.owner = some a)
    (hlow : a.ptr ≤ y) (hhigh : y < a.ptr + a.size) :
    HeapShape L R (Function.update m y byte) bitAmp blocks bins := by
  have hbelow := (hheap.inventory.payloads d hd a howner).below
  exact hheap.poke_block hd howner hlow (by omega)

theorem SessionShape.poke {y : ℕ} {byte : UInt8} (hshape : SessionShape L R S blocks)
    (ha : a ∈ S.live) (hlow : a.ptr ≤ y) (hhigh : y < a.ptr + a.size) :
    SessionShape L R (S.poke y byte) blocks := by
  obtain ⟨bins, hheap⟩ := hshape.shape
  obtain ⟨d, hd, howner⟩ := mem_owners.mp (hshape.live.mem_iff.mp ha)
  exact ⟨⟨bins, hheap.poke hd howner hlow hhigh⟩, hshape.live⟩

def SessionInv (L : Linkage) (R : Region L) (S : Session) : Prop :=
  ∃ blocks, SessionShape L R S blocks

theorem SessionInv.grant {size align : ℕ} (hinv : SessionInv L R S) (halign : AlignOk align)
    (hsize : size < 2 ^ 32) :
    ∃ S', (allocInner L R.fuel S.heap size align).map (S.grant size align) = some S' ∧
      SessionInv L R S' := by
  obtain ⟨blocks, hshape⟩ := hinv
  rcases hshape.alloc halign hsize with ⟨s', hrun, -, hshape', -⟩ |
      ⟨-, s', cur, n, a, left, right, hrun, hgranted, hshape'⟩
  · exact ⟨{ S with heap := s' }, by rw [hrun]; rfl, blocks, hshape'⟩
  · refine ⟨⟨s', a :: S.live⟩, ?_, _, hshape'⟩
    rw [hrun, Option.map_some, hgranted.session_eq S]

theorem SessionInv.apply {op : Op} (hinv : SessionInv L R S) (hlegal : op.Legal S) :
    ∃ S', S.apply L R.fuel op = some S' ∧ SessionInv L R S' := by
  rcases op.cases_request with ⟨size, align, hreq⟩ | hrefused | ⟨ptr, rfl⟩ |
      ⟨ptr, offset, byte, rfl⟩
  · rw [Session.apply_request hreq]
    exact hinv.grant (Op.request_align hreq) (Op.request_legal hreq hlegal)
  · exact ⟨S, hrefused L _ S, hinv⟩
  · obtain ⟨a, ha, rfl⟩ := hlegal
    obtain ⟨blocks, hshape⟩ := hinv
    refine ⟨_, rfl, ?_⟩
    obtain ⟨pre, d, post, rfl, howner⟩ := hshape.block_of_live ha
    rcases hshape.free howner with ⟨-, s', blocks', hrun, hshape', -, -⟩ | ⟨-, hrun⟩
    · rw [hrun]
      exact ⟨blocks', hshape'⟩
    · rw [hrun, release_overwrite]
      exact ⟨_, hshape⟩
  · obtain ⟨a, ha, rfl, hoffset⟩ := hlegal
    obtain ⟨blocks, hshape⟩ := hinv
    exact ⟨_, rfl, blocks, hshape.poke ha (by omega) (by omega)⟩

theorem Arena.Valid.fuel_eq {A : Arena L} (hvalid : A.Valid) : hvalid.region.fuel = A.size := by
  have hlarge := A.large
  unfold Region.fuel Arena.Valid.region
  simp only
  omega

theorem sessionInv_of_reachable {A : Arena L} (hreach : (heapSystem L A).Reachable S) :
    ∃ hvalid : A.Valid, SessionInv L hvalid.region S := by
  apply hreach.invariant
  · rintro S ⟨hlive, s, hinit⟩
    obtain ⟨hvalid, hheap⟩ := bmMemoryInitFsc_spec hinit
    refine ⟨hvalid, _, ⟨_, hheap⟩, ?_⟩
    rw [hlive]
    simp [owners]
  · rintro S op S' - ⟨hvalid, hinv⟩ ⟨hlegal, hrun⟩
    refine ⟨hvalid, ?_⟩
    obtain ⟨S'', hrun', hinv'⟩ := hinv.apply hlegal
    rw [hvalid.fuel_eq, hrun] at hrun'
    cases hrun'
    exact hinv'

end HiMpu.FscMem
