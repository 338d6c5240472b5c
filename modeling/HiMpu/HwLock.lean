import HiMpu.BmTypes
import HiMpu.TransitionSystem

/-!
# The hardware lock between the cores

`hw_acquire_hard_lock` and `hw_release_hard_lock` of `drivers/hw_lock/hw_lock.c`.
The sysctrl block holds sixteen locks, each of which is idle or belongs to the
A55 or to the M3.  The A55 requests and gives up a lock through two registers
that read as zero; a request that is not granted at once stays pending until it
is granted, dropped or cancelled.  Every access of a caller to the semaphore, to
`lock_count` and to a register is one step, so that the other callers and the
M3 run between any two of them.
-/

namespace HiMpu.HwLock

def hwLockNum : ℕ := 16
def hwlockBitNum : ℕ := 2
def statusMask : BitVec 32 := 0x3
def lockReq : BitVec 32 := 1
def releaseReq : BitVec 32 := 1
def a55Locked : ℤ := 1
def m3Locked : ℤ := 2
def einval : ℤ := 22
def eintr : ℤ := 4
def enolck : ℤ := 37

inductive Owner
  | idle
  | a55
  | m3
  deriving DecidableEq

def Owner.code : Owner → ℕ
  | .idle => 0
  | .a55 => 1
  | .m3 => 2

/-- The next statement of a call.  `acqStatus` to `acqCancel` are those of
`hw_get_hard_lock`. -/
inductive Pc
  | acqDown
  | acqStatus
  | acqRequest
  | acqCheck
  | acqCancel
  | acqCount
  | acqUp (ret : ℤ)
  | acqReturn (ret : ℤ)
  | relDown
  | relCount
  | relDreq
  | relUp
  deriving DecidableEq

section Model

variable {ι : Type*} [DecidableEq ι]

structure State (ι : Type*) where
  owner : ℕ → Owner
  /-- A request of the A55 that the arbiter has not answered. -/
  pending : ℕ → Bool
  lockCount : ℕ → BitVec 32
  hwSem : ℕ → Option ι
  call : ι → Option (ℕ × Pc)
  /-- The successful acquires that are not released, by their clients. -/
  holders : ℕ → Multiset ι

inductive Action (ι : Type*)
  | acquire (c : ι) (lockId : ℕ)
  | release (c : ι) (lockId : ℕ)
  | run (c : ι) (interrupted : Bool)
  | m3Acquire (lockId : ℕ)
  | m3Release (lockId : ℕ)
  | grant (lockId : ℕ)
  | drop (lockId : ℕ)

def lockCoreSt (owner : ℕ → Owner) : BitVec 32 :=
  BitVec.ofNat 32 (Nat.ofBits fun i : Fin 32 =>
    (owner (i / hwlockBitNum)).code.testBit (i % hwlockBitNum))

def hwQueryLockStatus (s : State ι) (lockId : ℕ) : ℤ :=
  if hwLockNum ≤ lockId then -einval
  else ((lockCoreSt s.owner >>> (hwlockBitNum * lockId)) &&& statusMask).toInt

def writeLockReq (s : State ι) (val : BitVec 32) : State ι :=
  { s with pending := fun id => s.pending id || val.getLsbD id && decide (s.owner id ≠ .a55) }

def writeLocDreq (s : State ι) (val : BitVec 32) : State ι :=
  { s with
    owner := fun id => if val.getLsbD id ∧ s.owner id = .a55 then .idle else s.owner id
    pending := fun id => s.pending id && !val.getLsbD id }

def State.goto (s : State ι) (c : ι) (lockId : ℕ) (pc : Pc) : State ι :=
  { s with call := Function.update s.call c (some (lockId, pc)) }

def State.finish (s : State ι) (c : ι) : State ι :=
  { s with call := Function.update s.call c none }

def stmt (s : State ι) (c : ι) (id : ℕ) (interrupted : Bool) : Pc → Option (State ι)
  | .acqDown =>
    if interrupted then some (s.goto c id (.acqReturn (-eintr)))
    else if s.hwSem id = none then
      some ({ s with hwSem := Function.update s.hwSem id (some c) }.goto c id .acqStatus)
    else none
  | .acqStatus =>
    let status := hwQueryLockStatus s id
    if status = m3Locked then some (s.goto c id (.acqUp (-enolck)))
    else if status = a55Locked then some (s.goto c id .acqCount)
    else some (s.goto c id .acqRequest)
  | .acqRequest =>
    some ((writeLockReq s (regReadWrite 0 (lockReq <<< id) (lockReq <<< id))).goto c id .acqCheck)
  | .acqCheck =>
    if hwQueryLockStatus s id ≠ a55Locked then some (s.goto c id .acqCancel)
    else some (s.goto c id .acqCount)
  | .acqCancel =>
    if s.lockCount id = 0 then
      some ((writeLocDreq s (regReadWrite 0 (lockReq <<< id) (lockReq <<< id))).goto c id
        (.acqUp (-enolck)))
    else some (s.goto c id (.acqUp (-enolck)))
  | .acqCount =>
    some ({ s with
      lockCount := Function.update s.lockCount id (s.lockCount id + 1)
      holders := Function.update s.holders id (c ::ₘ s.holders id) }.goto c id (.acqUp 0))
  | .acqUp ret =>
    some ({ s with hwSem := Function.update s.hwSem id none }.goto c id (.acqReturn ret))
  | .acqReturn _ => some (s.finish c)
  | .relDown =>
    if interrupted then
      -- the call returns, and for its caller the lock is released
      some ({ s with
        holders := Function.update s.holders id ((s.holders id).erase c) }.finish c)
    else if s.hwSem id = none then
      some ({ s with hwSem := Function.update s.hwSem id (some c) }.goto c id .relCount)
    else none
  | .relCount =>
    let s₁ := { s with holders := Function.update s.holders id ((s.holders id).erase c) }
    if s.lockCount id = 0 then some (s₁.goto c id .relUp)
    else
      let s₂ := { s₁ with lockCount := Function.update s.lockCount id (s.lockCount id - 1) }
      if s.lockCount id - 1 = 0 then some (s₂.goto c id .relDreq)
      else some (s₂.goto c id .relUp)
  | .relDreq =>
    some ((writeLocDreq s (regReadWrite 0 (releaseReq <<< id) (releaseReq <<< id))).goto c id
      .relUp)
  | .relUp => some ({ s with hwSem := Function.update s.hwSem id none }.finish c)

def next (s : State ι) : Action ι → Option (State ι)
  | .acquire c id =>
    if s.call c ≠ none then none
    else if hwLockNum ≤ id then some s
    else some (s.goto c id .acqDown)
  | .release c id =>
    if s.call c ≠ none then none
    else if hwLockNum ≤ id then some s
    else some (s.goto c id .relDown)
  | .run c interrupted =>
    match s.call c with
    | none => none
    | some (id, pc) => stmt s c id interrupted pc
  | .m3Acquire id =>
    if s.owner id = .idle then some { s with owner := Function.update s.owner id .m3 }
    else none
  | .m3Release id =>
    if s.owner id = .m3 then some { s with owner := Function.update s.owner id .idle }
    else none
  | .grant id =>
    if s.owner id = .idle ∧ s.pending id then
      some { s with
        owner := Function.update s.owner id .a55
        pending := Function.update s.pending id false }
    else none
  | .drop id => some { s with pending := Function.update s.pending id false }

structure Init (s : State ι) : Prop where
  owner : ∀ id, s.owner id ≠ .a55
  pending : ∀ id, s.pending id = false
  lockCount : ∀ id, s.lockCount id = 0
  hwSem : ∀ id, s.hwSem id = none
  call : ∀ c, s.call c = none
  holders : ∀ id, s.holders id = 0

def hwLock (ι : Type*) [DecidableEq ι] : TransitionSystem (State ι) (Action ι) :=
  TransitionSystem.ofStep Init next

def CarefulAt (s : State ι) (id : ℕ) (interrupted : Bool) : Pc → Prop
  | .relDown => interrupted = false
  | .acqCount => s.lockCount id ≠ BitVec.allOnes 32
  | _ => True

/-- A release is called by a client that holds the lock, its wait for the
semaphore is not interrupted, and the count does not wrap. -/
def Careful (s : State ι) : Action ι → Prop
  | .release c id => c ∈ s.holders id
  | .run c interrupted =>
    match s.call c with
    | some (id, pc) => CarefulAt s id interrupted pc
    | none => True
  | _ => True

structure Sound (s : State ι) (id : ℕ) : Prop where
  /-- `lock_count` counts the clients that hold the lock. -/
  count : (s.lockCount id).toNat = (s.holders id).card
  owned : 0 < (s.lockCount id).toNat → s.hwSem id = none → s.owner id = .a55
  returned : ∀ c, s.call c = some (id, .acqReturn 0) → s.owner id = .a55
  /-- The release that is about to give up the lock is not one of two holders. -/
  released : ∀ c, s.call c = some (id, .relDreq) → ∀ d ≠ c, d ∉ s.holders id
  dropped : s.holders id = 0 → s.hwSem id = none → s.owner id ≠ .a55

/-! ## What the registers say -/

theorem getLsbD_lockCoreSt (owner : ℕ → Owner) {i : ℕ} (hi : i < 32) :
    (lockCoreSt owner).getLsbD i =
      (owner (i / hwlockBitNum)).code.testBit (i % hwlockBitNum) := by
  unfold lockCoreSt
  rw [BitVec.getLsbD_ofNat, decide_eq_true hi, Bool.true_and, Nat.testBit_ofBits_lt _ _ hi]

theorem lockCoreSt_status (owner : ℕ → Owner) {id : ℕ} (hid : id < hwLockNum) :
    (lockCoreSt owner >>> (hwlockBitNum * id)) &&& statusMask = BitVec.ofNat 32 (owner id).code := by
  apply BitVec.eq_of_getLsbD_eq
  intro i hi
  have hmask : statusMask.getLsbD i = decide (i < 2) := by
    have htable : ∀ i < 32, statusMask.getLsbD i = decide (i < 2) := by decide
    exact htable i hi
  rw [BitVec.getLsbD_and, BitVec.getLsbD_ushiftRight, hmask, BitVec.getLsbD_ofNat,
    decide_eq_true hi, Bool.true_and]
  simp only [hwLockNum] at hid
  by_cases hlow : i < 2
  · have hdiv : (hwlockBitNum * id + i) / hwlockBitNum = id := by
      simp only [hwlockBitNum]
      omega
    have hmod : (hwlockBitNum * id + i) % hwlockBitNum = i := by
      simp only [hwlockBitNum]
      omega
    rw [getLsbD_lockCoreSt _ (by simp only [hwlockBitNum]; omega), hdiv, hmod,
      decide_eq_true hlow, Bool.and_true]
  · have hcode : (owner id).code < 2 ^ i := by
      have hle : (owner id).code ≤ 2 := by cases owner id <;> decide
      calc (owner id).code < 2 ^ 2 := by omega
        _ ≤ 2 ^ i := Nat.pow_le_pow_right (by decide) (by omega)
    rw [decide_eq_false hlow, Bool.and_false, Nat.testBit_lt_two_pow hcode]

omit [DecidableEq ι] in
theorem hwQueryLockStatus_eq (s : State ι) {id : ℕ} (hid : id < hwLockNum) :
    hwQueryLockStatus s id = (s.owner id).code := by
  unfold hwQueryLockStatus
  rw [if_neg (Nat.not_le.mpr hid), lockCoreSt_status _ hid]
  cases s.owner id <;> rfl

theorem getLsbD_request {id j : ℕ} (hid : id < hwLockNum) :
    (regReadWrite 0 (lockReq <<< id) (lockReq <<< id)).getLsbD j = decide (j = id) := by
  rw [getLsbD_regReadWrite]
  simp only [lockReq, BitVec.getLsbD_shiftLeft]
  simp only [hwLockNum] at hid
  by_cases hj : j = id
  · subst hj
    simp
    omega
  · by_cases hlt : j < id
    · simp [hlt, hj]
    · have : j - id ≠ 0 := by omega
      simp [BitVec.getLsbD_one, hj, this]

omit [DecidableEq ι] in
theorem writeLockReq_own (s : State ι) {id : ℕ} (hid : id < hwLockNum) :
    writeLockReq s (regReadWrite 0 (lockReq <<< id) (lockReq <<< id)) =
      { s with pending :=
          Function.update s.pending id (s.pending id || decide (s.owner id ≠ .a55)) } := by
  unfold writeLockReq
  congr 1
  funext j
  rw [getLsbD_request hid, Function.update_apply]
  by_cases hj : j = id <;> simp [hj]

omit [DecidableEq ι] in
theorem writeLocDreq_own (s : State ι) {id : ℕ} (hid : id < hwLockNum) :
    writeLocDreq s (regReadWrite 0 (lockReq <<< id) (lockReq <<< id)) =
      { s with
        owner := Function.update s.owner id (if s.owner id = .a55 then .idle else s.owner id)
        pending := Function.update s.pending id false } := by
  unfold writeLocDreq
  congr 1 <;> funext j <;> rw [getLsbD_request hid, Function.update_apply] <;>
    by_cases hj : j = id <;> simp [hj]

/-! ## The invariant of one lock -/

def Pc.inside : Pc → Bool
  | .acqDown | .acqReturn _ | .relDown => false
  | _ => true

def Settled (s : State ι) (id : ℕ) : Prop :=
  s.owner id = .a55 ∨ s.pending id = true → s.holders id ≠ 0

def At (s : State ι) (id : ℕ) (c : ι) : Pc → Prop
  | .acqStatus | .relUp => Settled s id
  | .acqRequest => Settled s id ∧ s.holders id = 0
  | .acqCheck | .acqCancel | .relDreq => s.holders id = 0
  | .acqCount => s.owner id = .a55
  | .acqUp ret => Settled s id ∧ (ret = 0 → c ∈ s.holders id)
  | .relCount => Settled s id ∧ c ∈ s.holders id
  | .acqDown | .acqReturn _ | .relDown => False

def Section (s : State ι) (id : ℕ) : Prop :=
  (s.hwSem id = none → Settled s id) ∧
    ∀ c, s.hwSem id = some c → ∃ pc, s.call c = some (id, pc) ∧ At s id c pc

def Member (s : State ι) (id : ℕ) (c : ι) : Pc → Prop
  | .acqReturn ret => ret = 0 → c ∈ s.holders id
  | .relDown => c ∈ s.holders id
  | _ => True

structure LockInv (s : State ι) (id : ℕ) : Prop where
  count : (s.lockCount id).toNat = (s.holders id).card
  owned : s.holders id ≠ 0 → s.owner id = .a55
  inside : ∀ c pc, s.call c = some (id, pc) → pc.inside = true → s.hwSem id = some c
  member : ∀ c pc, s.call c = some (id, pc) → Member s id c pc
  section_ : Section s id

section Invariant

variable {s s' : State ι} {id : ℕ} {c : ι} {pc : Pc}

omit [DecidableEq ι]

theorem LockInv.at_ (hinv : LockInv s id) (hcall : s.call c = some (id, pc))
    (hinside : pc.inside = true) : s.hwSem id = some c ∧ At s id c pc := by
  have hsem := hinv.inside c pc hcall hinside
  obtain ⟨pc', hcall', hat⟩ := hinv.section_.2 c hsem
  rw [hcall] at hcall'
  cases hcall'
  exact ⟨hsem, hat⟩

theorem LockInv.sound (hinv : LockInv s id) : Sound s id where
  count := hinv.count
  owned hcount _ := by
    rw [hinv.count, Multiset.card_pos] at hcount
    exact hinv.owned hcount
  returned c hc := by
    have hmem : c ∈ s.holders id := hinv.member c _ hc rfl
    exact hinv.owned fun hzero => Multiset.notMem_zero c (hzero ▸ hmem)
  released c hc d _ := by
    have hzero : s.holders id = 0 := (hinv.at_ hc rfl).2
    rw [hzero]
    exact Multiset.notMem_zero d
  dropped hzero hsem howner := hinv.section_.1 hsem (Or.inl howner) hzero

theorem LockInv.inner (hinv : LockInv s id) (hcall : ∀ d ≠ c, s'.call d = s.call d)
    (hkept : ∀ d ≠ c, d ∈ s.holders id → d ∈ s'.holders id)
    (hsem : s.hwSem id = none ∨ s.hwSem id = some c)
    (hcount : (s'.lockCount id).toNat = (s'.holders id).card)
    (howned : s'.holders id ≠ 0 → s'.owner id = .a55)
    (hinside : ∀ pc, s'.call c = some (id, pc) → pc.inside = true → s'.hwSem id = some c)
    (hmember : ∀ pc, s'.call c = some (id, pc) → Member s' id c pc)
    (hsection : Section s' id) : LockInv s' id where
  count := hcount
  owned := howned
  inside d pc hd hpc := by
    by_cases hdc : d = c
    · subst hdc
      exact hinside pc hd hpc
    · -- another client inside would hold the semaphore
      rw [hcall d hdc] at hd
      have hother := hinv.inside d pc hd hpc
      rcases hsem with hnone | hself
      · rw [hnone] at hother
        cases hother
      · rw [hself] at hother
        exact absurd (Option.some.inj hother).symm hdc
  member d pc hd := by
    by_cases hdc : d = c
    · subst hdc
      exact hmember pc hd
    · rw [hcall d hdc] at hd
      have hbefore := hinv.member d pc hd
      cases pc with
      | acqReturn ret => exact fun hret => hkept d hdc (hbefore hret)
      | relDown => exact hkept d hdc hbefore
      | _ => trivial
  section_ := hsection

theorem LockInv.advance (hinv : LockInv s id) (hcall : ∀ d ≠ c, s'.call d = s.call d)
    (hsem : s.hwSem id = none ∨ s.hwSem id = some c) (hpc : s'.call c = some (id, pc))
    (hinside : s'.hwSem id = some c) (hat : At s' id c pc)
    (hkept : ∀ d ≠ c, d ∈ s.holders id → d ∈ s'.holders id)
    (hcount : (s'.lockCount id).toNat = (s'.holders id).card)
    (howned : s'.holders id ≠ 0 → s'.owner id = .a55) : LockInv s' id := by
  refine hinv.inner hcall hkept hsem hcount howned (fun _ _ _ => hinside) ?_ ⟨?_, ?_⟩
  · intro pc' hpc'
    rw [hpc] at hpc'
    cases hpc'
    cases pc <;> trivial
  · intro hnone
    rw [hinside] at hnone
    cases hnone
  · intro d hd
    rw [hinside] at hd
    cases hd
    exact ⟨pc, hpc, hat⟩

theorem LockInv.leave (hinv : LockInv s id) (hcall : ∀ d ≠ c, s'.call d = s.call d)
    (hsem : s.hwSem id = some c) (hfree : s'.hwSem id = none)
    (hout : ∀ pc, s'.call c = some (id, pc) → pc.inside = false ∧ Member s id c pc)
    (howner : s'.owner id = s.owner id) (hpending : s'.pending id = s.pending id)
    (hcount : s'.lockCount id = s.lockCount id) (hholders : s'.holders id = s.holders id)
    (hsettled : Settled s id) : LockInv s' id := by
  refine hinv.inner hcall ?_ (Or.inr hsem) ?_ ?_ ?_ ?_ ⟨?_, ?_⟩
  · intro d _ hd
    rwa [hholders]
  · rw [hcount, hholders, hinv.count]
  · rw [howner, hholders]
    exact hinv.owned
  · intro pc hpc hinside
    rw [(hout pc hpc).1] at hinside
    cases hinside
  · intro pc hpc
    have hmember := (hout pc hpc).2
    unfold Member at hmember ⊢
    rwa [hholders]
  · intro _
    unfold Settled at hsettled ⊢
    rwa [howner, hpending, hholders]
  · intro d hd
    rw [hfree] at hd
    cases hd

theorem LockInv.outer (hinv : LockInv s id) (hcall : ∀ d ≠ c, s'.call d = s.call d)
    (howner : s'.owner id = s.owner id) (hpending : s'.pending id = s.pending id)
    (hcount : s'.lockCount id = s.lockCount id) (hsem : s'.hwSem id = s.hwSem id)
    (hholders : s'.holders id = s.holders id)
    (hbefore : ∀ pc, s.call c = some (id, pc) → pc.inside = false)
    (hafter : ∀ pc, s'.call c = some (id, pc) → pc.inside = false ∧ Member s id c pc) :
    LockInv s' id where
  count := by rw [hcount, hholders, hinv.count]
  owned := by
    rw [howner, hholders]
    exact hinv.owned
  inside d pc hd hpc := by
    by_cases hdc : d = c
    · subst hdc
      rw [(hafter pc hd).1] at hpc
      cases hpc
    · rw [hsem]
      exact hinv.inside d pc (hcall d hdc ▸ hd) hpc
  member d pc hd := by
    have hmember : Member s id d pc := by
      by_cases hdc : d = c
      · subst hdc
        exact (hafter pc hd).2
      · exact hinv.member d pc (hcall d hdc ▸ hd)
    unfold Member at hmember ⊢
    rwa [hholders]
  section_ := by
    unfold Section Settled
    rw [howner, hpending, hholders, hsem]
    refine ⟨hinv.section_.1, fun d hd => ?_⟩
    obtain ⟨pc, hpc, hat⟩ := hinv.section_.2 d hd
    have hdc : d ≠ c := by
      rintro rfl
      have hout := hbefore pc hpc
      cases pc <;> first | exact hat | cases hout
    refine ⟨pc, by rw [hcall d hdc, hpc], ?_⟩
    unfold At Settled at hat ⊢
    rwa [howner, hpending, hholders]

theorem LockInv.arbiter (hinv : LockInv s id) (hcall : s'.call = s.call)
    (hcount : s'.lockCount = s.lockCount) (hsem : s'.hwSem = s.hwSem)
    (hholders : s'.holders = s.holders)
    (howner : s.owner id = .a55 → s'.owner id = .a55)
    (hsettled : Settled s id → (s.holders id ≠ 0 → s.owner id = .a55) → Settled s' id) :
    LockInv s' id where
  count := by rw [hcount, hholders, hinv.count]
  owned hheld := howner (hinv.owned (hholders ▸ hheld))
  inside d pc hd hpc := by
    rw [hsem]
    exact hinv.inside d pc (hcall ▸ hd) hpc
  member d pc hd := by
    have hmember := hinv.member d pc (hcall ▸ hd)
    unfold Member at hmember ⊢
    rwa [hholders]
  section_ := by
    have hset : Settled s id → Settled s' id := fun h => hsettled h hinv.owned
    refine ⟨fun hnone => hset (hinv.section_.1 (hsem ▸ hnone)), fun d hd => ?_⟩
    obtain ⟨pc, hpc, hat⟩ := hinv.section_.2 d (hsem ▸ hd)
    refine ⟨pc, hcall ▸ hpc, ?_⟩
    cases pc with
    | acqStatus => exact hset hat
    | relUp => exact hset hat
    | acqRequest => exact ⟨hset hat.1, by rw [hholders]; exact hat.2⟩
    | acqUp ret => exact ⟨hset hat.1, by rw [hholders]; exact hat.2⟩
    | relCount => exact ⟨hset hat.1, by rw [hholders]; exact hat.2⟩
    | acqCount => exact howner hat
    | acqCheck => exact (congrFun hholders id).trans hat
    | acqCancel => exact (congrFun hholders id).trans hat
    | relDreq => exact (congrFun hholders id).trans hat
    | acqDown => exact hat
    | acqReturn ret => exact hat
    | relDown => exact hat

end Invariant

section Statements

variable {s s' : State ι} {id : ℕ} {c : ι} {pc : Pc} {interrupted : Bool}

structure Frame (s s' : State ι) (c : ι) (id : ℕ) : Prop where
  call : ∀ d ≠ c, s'.call d = s.call d
  own : ∀ j pc, s'.call c = some (j, pc) → j = id
  owner : ∀ j ≠ id, s'.owner j = s.owner j
  pending : ∀ j ≠ id, s'.pending j = s.pending j
  lockCount : ∀ j ≠ id, s'.lockCount j = s.lockCount j
  hwSem : ∀ j ≠ id, s'.hwSem j = s.hwSem j
  holders : ∀ j ≠ id, s'.holders j = s.holders j

structure Outside (s t : State ι) (id : ℕ) : Prop where
  call : t.call = s.call
  owner : ∀ j ≠ id, t.owner j = s.owner j
  pending : ∀ j ≠ id, t.pending j = s.pending j
  lockCount : ∀ j ≠ id, t.lockCount j = s.lockCount j
  hwSem : ∀ j ≠ id, t.hwSem j = s.hwSem j
  holders : ∀ j ≠ id, t.holders j = s.holders j

omit [DecidableEq ι] in
theorem Outside.refl (s : State ι) (id : ℕ) : Outside s s id :=
  ⟨rfl, fun _ _ => rfl, fun _ _ => rfl, fun _ _ => rfl, fun _ _ => rfl, fun _ _ => rfl⟩

omit [DecidableEq ι] in
theorem Outside.setSem (s : State ι) (id : ℕ) (holder : Option ι) :
    Outside s { s with hwSem := Function.update s.hwSem id holder } id :=
  ⟨rfl, fun _ _ => rfl, fun _ _ => rfl, fun _ _ => rfl, fun _ hj => Function.update_of_ne hj ..,
    fun _ _ => rfl⟩

omit [DecidableEq ι] in
theorem Outside.setHolders (s : State ι) (id : ℕ) (holders : Multiset ι) :
    Outside s { s with holders := Function.update s.holders id holders } id :=
  ⟨rfl, fun _ _ => rfl, fun _ _ => rfl, fun _ _ => rfl, fun _ _ => rfl,
    fun _ hj => Function.update_of_ne hj ..⟩

omit [DecidableEq ι] in
theorem Outside.setCount (s : State ι) (id : ℕ) (holders : Multiset ι) (count : BitVec 32) :
    Outside s { s with
      lockCount := Function.update s.lockCount id count
      holders := Function.update s.holders id holders } id :=
  ⟨rfl, fun _ _ => rfl, fun _ _ => rfl, fun _ hj => Function.update_of_ne hj .., fun _ _ => rfl,
    fun _ hj => Function.update_of_ne hj ..⟩

theorem Outside.goto {t : State ι} (h : Outside s t id) (pc : Pc) :
    Frame s (t.goto c id pc) c id := by
  refine ⟨?_, ?_, h.owner, h.pending, h.lockCount, h.hwSem, h.holders⟩
  · intro d hd
    rw [← h.call]
    exact Function.update_of_ne hd ..
  · intro j pc' hcall
    simp only [State.goto, Function.update_self, Option.some.injEq, Prod.mk.injEq] at hcall
    exact hcall.1.symm

theorem Outside.finish {t : State ι} (h : Outside s t id) : Frame s (t.finish c) c id := by
  refine ⟨?_, ?_, h.owner, h.pending, h.lockCount, h.hwSem, h.holders⟩
  · intro d hd
    rw [← h.call]
    exact Function.update_of_ne hd ..
  · intro j pc' hcall
    simp only [State.finish, Function.update_self, reduceCtorEq] at hcall

omit [DecidableEq ι] in
theorem Outside.writeLockReq (s : State ι) {id : ℕ} (hid : id < hwLockNum) :
    Outside s (writeLockReq s (regReadWrite 0 (lockReq <<< id) (lockReq <<< id))) id := by
  rw [writeLockReq_own s hid]
  exact ⟨rfl, fun _ _ => rfl, fun _ hj => Function.update_of_ne hj .., fun _ _ => rfl,
    fun _ _ => rfl, fun _ _ => rfl⟩

omit [DecidableEq ι] in
theorem Outside.writeLocDreq (s : State ι) {id : ℕ} (hid : id < hwLockNum) :
    Outside s (writeLocDreq s (regReadWrite 0 (lockReq <<< id) (lockReq <<< id))) id := by
  rw [writeLocDreq_own s hid]
  exact ⟨rfl, fun _ hj => Function.update_of_ne hj .., fun _ hj => Function.update_of_ne hj ..,
    fun _ _ => rfl, fun _ _ => rfl, fun _ _ => rfl⟩

theorem stmt_frame (hid : id < hwLockNum) (hstep : stmt s c id interrupted pc = some s') :
    Frame s s' c id := by
  cases pc with
  | acqDown =>
    simp only [stmt] at hstep
    split at hstep
    · cases hstep
      exact (Outside.refl s id).goto _
    · split at hstep
      · cases hstep
        exact (Outside.setSem s id _).goto _
      · cases hstep
  | acqStatus =>
    simp only [stmt] at hstep
    split at hstep
    · cases hstep
      exact (Outside.refl s id).goto _
    · split at hstep
      · cases hstep
        exact (Outside.refl s id).goto _
      · cases hstep
        exact (Outside.refl s id).goto _
  | acqRequest =>
    cases hstep
    exact (Outside.writeLockReq s hid).goto _
  | acqCheck =>
    simp only [stmt] at hstep
    split at hstep
    · cases hstep
      exact (Outside.refl s id).goto _
    · cases hstep
      exact (Outside.refl s id).goto _
  | acqCancel =>
    simp only [stmt] at hstep
    split at hstep
    · cases hstep
      exact (Outside.writeLocDreq s hid).goto _
    · cases hstep
      exact (Outside.refl s id).goto _
  | acqCount =>
    cases hstep
    exact (Outside.setCount s id _ _).goto _
  | acqUp ret =>
    cases hstep
    exact (Outside.setSem s id _).goto _
  | acqReturn ret =>
    cases hstep
    exact (Outside.refl s id).finish
  | relDown =>
    simp only [stmt] at hstep
    split at hstep
    · cases hstep
      exact (Outside.setHolders s id _).finish
    · split at hstep
      · cases hstep
        exact (Outside.setSem s id _).goto _
      · cases hstep
  | relCount =>
    simp only [stmt] at hstep
    split at hstep
    next =>
      cases hstep
      exact (Outside.setHolders s id _).goto _
    next =>
      split at hstep
      · cases hstep
        exact (Outside.setCount s id _ _).goto _
      · cases hstep
        exact (Outside.setCount s id _ _).goto _
  | relDreq =>
    cases hstep
    exact (Outside.writeLocDreq s hid).goto _
  | relUp =>
    cases hstep
    exact (Outside.setSem s id _).finish

theorem LockInv.stmt (hid : id < hwLockNum) (hinv : LockInv s id)
    (hcall : s.call c = some (id, pc)) (hcareful : Careful s (.run c interrupted))
    (hstep : HwLock.stmt s c id interrupted pc = some s') : LockInv s' id := by
  have hothers := (stmt_frame hid hstep).call
  have hrun : pc.inside = true → s.hwSem id = some c ∧ At s id c pc := hinv.at_ hcall
  have hkept : ∀ d ≠ c, d ∈ s.holders id → d ∈ s.holders id := fun _ _ h => h
  have hstatus := hwQueryLockStatus_eq s hid
  cases pc with
  | acqDown =>
    simp only [HwLock.stmt] at hstep
    split at hstep
    next =>
      cases hstep
      refine hinv.outer hothers rfl rfl rfl rfl rfl ?_ ?_
      · simp [hcall, Pc.inside]
      · simp [State.goto, Pc.inside, Member, eintr]
    next =>
      split at hstep
      next hfree =>
        cases hstep
        exact hinv.advance hothers (Or.inl hfree) (Function.update_self _ _ _)
          (Function.update_self _ _ _) (hinv.section_.1 hfree) hkept hinv.count hinv.owned
      next => cases hstep
  | acqStatus =>
    obtain ⟨hsem, hat⟩ := hrun rfl
    simp only [HwLock.stmt, hstatus] at hstep
    split at hstep
    next =>
      cases hstep
      exact hinv.advance hothers (Or.inr hsem) (Function.update_self _ _ _) hsem
        ⟨hat, fun h => absurd h (by decide)⟩ hkept hinv.count hinv.owned
    next =>
      have howner : (s.owner id).code = a55Locked ↔ s.owner id = .a55 := by
        cases s.owner id <;> decide
      split at hstep
      next ha55 =>
        cases hstep
        exact hinv.advance hothers (Or.inr hsem) (Function.update_self _ _ _) hsem
          (howner.mp ha55) hkept hinv.count hinv.owned
      next hnot =>
        cases hstep
        have hempty : s.holders id = 0 := by
          by_contra hheld
          exact hnot (howner.mpr (hinv.owned hheld))
        exact hinv.advance hothers (Or.inr hsem) (Function.update_self _ _ _) hsem
          ⟨hat, hempty⟩ hkept hinv.count hinv.owned
  | acqRequest =>
    obtain ⟨hsem, -, hempty⟩ := hrun rfl
    simp only [HwLock.stmt, writeLockReq_own s hid] at hstep
    cases hstep
    exact hinv.advance hothers (Or.inr hsem) (Function.update_self _ _ _) hsem hempty hkept
      hinv.count hinv.owned
  | acqCheck =>
    obtain ⟨hsem, hempty⟩ := hrun rfl
    simp only [HwLock.stmt, hstatus] at hstep
    split at hstep
    next =>
      cases hstep
      exact hinv.advance hothers (Or.inr hsem) (Function.update_self _ _ _) hsem hempty hkept
        hinv.count hinv.owned
    next ha55 =>
      cases hstep
      have howner : s.owner id = .a55 := by
        revert ha55
        cases s.owner id <;> decide
      exact hinv.advance hothers (Or.inr hsem) (Function.update_self _ _ _) hsem howner hkept
        hinv.count hinv.owned
  | acqCancel =>
    obtain ⟨hsem, hempty⟩ := hrun rfl
    change s.holders id = 0 at hempty
    have hzero : s.lockCount id = 0 := by
      apply BitVec.eq_of_toNat_eq
      rw [hinv.count, hempty]
      rfl
    simp only [HwLock.stmt, hzero, if_true, writeLocDreq_own s hid] at hstep
    cases hstep
    refine hinv.advance hothers (Or.inr hsem) (Function.update_self _ _ _) hsem ⟨?_, ?_⟩ hkept
      hinv.count ?_
    · -- the cancelled request is neither pending nor granted
      unfold Settled
      simp only [State.goto, Function.update_self]
      split <;> simp_all
    · exact fun h => absurd h (by decide)
    · exact fun hheld => absurd hempty hheld
  | acqCount =>
    obtain ⟨hsem, howner⟩ := hrun rfl
    simp only [HwLock.stmt] at hstep
    cases hstep
    have hroom : s.lockCount id ≠ BitVec.allOnes 32 := by
      simp only [Careful, hcall] at hcareful
      exact hcareful
    refine hinv.advance hothers (Or.inr hsem) (Function.update_self _ _ _) hsem ⟨?_, ?_⟩ ?_ ?_ ?_
    · simp [Settled, State.goto]
    · simp [State.goto]
    · intro d _ hd
      simp only [State.goto, Function.update_self]
      exact Multiset.mem_cons_of_mem hd
    · have hlt : (s.lockCount id).toNat + 1 < 2 ^ 32 := by
        have hbound := (s.lockCount id).isLt
        have hne : (s.lockCount id).toNat ≠ (BitVec.allOnes 32).toNat :=
          fun h => hroom (BitVec.eq_of_toNat_eq h)
        rw [BitVec.toNat_allOnes] at hne
        omega
      simp only [State.goto, Function.update_self, Multiset.card_cons]
      rw [BitVec.toNat_add, ← hinv.count]
      exact Nat.mod_eq_of_lt hlt
    · exact fun _ => howner
  | acqUp ret =>
    obtain ⟨hsem, hsettled, hmember⟩ := hrun rfl
    simp only [HwLock.stmt] at hstep
    cases hstep
    refine hinv.leave hothers hsem (Function.update_self _ _ _) ?_ rfl rfl rfl rfl hsettled
    intro pc hpc
    simp only [State.goto, Function.update_self] at hpc
    cases hpc
    exact ⟨rfl, hmember⟩
  | acqReturn ret =>
    simp only [HwLock.stmt] at hstep
    cases hstep
    refine hinv.outer hothers rfl rfl rfl rfl rfl ?_ ?_
    · simp [hcall, Pc.inside]
    · simp [State.finish]
  | relDown =>
    have hmember : c ∈ s.holders id := hinv.member c _ hcall
    have hcalm : interrupted = false := by
      simp only [Careful, hcall] at hcareful
      exact hcareful
    simp only [HwLock.stmt, hcalm, Bool.false_eq_true, if_false] at hstep
    split at hstep
    next hfree =>
      cases hstep
      exact hinv.advance hothers (Or.inl hfree) (Function.update_self _ _ _)
        (Function.update_self _ _ _) ⟨hinv.section_.1 hfree, hmember⟩ hkept hinv.count hinv.owned
    next => cases hstep
  | relCount =>
    obtain ⟨hsem, hsettled, hmember⟩ := hrun rfl
    have hpos : 0 < (s.lockCount id).toNat := by
      rw [hinv.count]
      exact Multiset.card_pos_iff_exists_mem.mpr ⟨c, hmember⟩
    have hnonzero : s.lockCount id ≠ 0 := by
      intro hzero
      rw [hzero] at hpos
      exact absurd hpos (by decide)
    have hless : (s.lockCount id - 1).toNat = ((s.holders id).erase c).card := by
      have hone : (1 : BitVec 32).toNat = 1 := rfl
      rw [Multiset.card_erase_of_mem hmember, ← hinv.count,
        BitVec.toNat_sub_of_le (by rw [BitVec.le_def, hone]; exact hpos), hone]
      rfl
    have hrest : ∀ d ≠ c, d ∈ s.holders id → d ∈ (s.holders id).erase c :=
      fun d hdc hd => (Multiset.mem_erase_of_ne hdc).mpr hd
    have howner : s.owner id = .a55 := by
      apply hinv.owned
      rintro hempty
      rw [hempty] at hmember
      exact Multiset.notMem_zero c hmember
    simp only [HwLock.stmt, hnonzero, if_false] at hstep
    split at hstep
    next hlast =>
      cases hstep
      have hempty : (s.holders id).erase c = 0 := by
        rw [← Multiset.card_eq_zero, ← hless, hlast]
        rfl
      refine hinv.advance hothers (Or.inr hsem) (Function.update_self _ _ _) hsem ?_ ?_ ?_ ?_
      · exact (Function.update_self _ _ _).trans hempty
      · simpa only [State.goto, Function.update_self] using hrest
      · simpa only [State.goto, Function.update_self] using hless
      · exact fun _ => howner
    next hmore =>
      cases hstep
      have hheld : (s.holders id).erase c ≠ 0 := by
        intro hempty
        rw [hempty] at hless
        exact hmore (BitVec.eq_of_toNat_eq hless)
      refine hinv.advance hothers (Or.inr hsem) (Function.update_self _ _ _) hsem ?_ ?_ ?_ ?_
      · simpa only [At, Settled, State.goto, Function.update_self] using fun _ => hheld
      · simpa only [State.goto, Function.update_self] using hrest
      · simpa only [State.goto, Function.update_self] using hless
      · exact fun _ => howner
  | relDreq =>
    obtain ⟨hsem, hempty⟩ := hrun rfl
    change s.holders id = 0 at hempty
    simp only [HwLock.stmt, releaseReq, show (1 : BitVec 32) = lockReq from rfl,
      writeLocDreq_own s hid] at hstep
    cases hstep
    refine hinv.advance hothers (Or.inr hsem) (Function.update_self _ _ _) hsem ?_ hkept
      hinv.count ?_
    · simp only [At, Settled, State.goto, Function.update_self]
      split <;> simp_all
    · exact fun hheld => absurd hempty hheld
  | relUp =>
    obtain ⟨hsem, hsettled⟩ := hrun rfl
    simp only [HwLock.stmt] at hstep
    cases hstep
    refine hinv.leave hothers hsem (Function.update_self _ _ _) ?_ rfl rfl rfl rfl hsettled
    simp [State.finish]

end Statements

structure Inv (s : State ι) : Prop where
  bound : ∀ c id pc, s.call c = some (id, pc) → id < hwLockNum
  lock : ∀ id, LockInv s id

section Runs

variable {s s' : State ι}

omit [DecidableEq ι] in
theorem Init.inv (hinit : Init s) : Inv s where
  bound c id pc hc := by
    rw [hinit.call] at hc
    cases hc
  lock id := by
    have howner := hinit.owner id
    constructor
    · rw [hinit.lockCount, hinit.holders]
      rfl
    · exact fun h => absurd (hinit.holders id) h
    · intro c pc hc
      rw [hinit.call] at hc
      cases hc
    · intro c pc hc
      rw [hinit.call] at hc
      cases hc
    · constructor
      · intro _ hsome
        simp [hinit.pending, howner] at hsome
      · intro c hc
        rw [hinit.hwSem] at hc
        cases hc

theorem Inv.enter (hinv : Inv s) {c : ι} {id : ℕ} {pc : Pc} (hid : id < hwLockNum)
    (hidle : s.call c = none) (hout : pc.inside = false) (hmember : Member s id c pc) :
    Inv (s.goto c id pc) where
  bound d j pc' hd := by
    simp only [State.goto, Function.update_apply] at hd
    split at hd
    next =>
      cases hd
      exact hid
    next => exact hinv.bound d j pc' hd
  lock j := by
    refine (hinv.lock j).outer (c := c) ?_ rfl rfl rfl rfl rfl ?_ ?_
    · exact fun d hd => Function.update_of_ne hd _ _
    · simp [hidle]
    · intro pc' hpc'
      simp only [State.goto, Function.update_self] at hpc'
      cases hpc'
      exact ⟨hout, hmember⟩

theorem Inv.stmt (hinv : Inv s) {c : ι} {id : ℕ} {pc : Pc} {interrupted : Bool}
    (hcall : s.call c = some (id, pc)) (hcareful : Careful s (.run c interrupted))
    (hstep : HwLock.stmt s c id interrupted pc = some s') : Inv s' := by
  have hid := hinv.bound c id pc hcall
  have hframe := stmt_frame hid hstep
  constructor
  · intro d j pc' hd
    by_cases hdc : d = c
    · subst hdc
      rw [hframe.own j pc' hd]
      exact hid
    · exact hinv.bound d j pc' (hframe.call d hdc ▸ hd)
  · intro j
    by_cases hj : j = id
    · subst hj
      exact (hinv.lock j).stmt hid hcall hcareful hstep
    · refine (hinv.lock j).outer hframe.call (hframe.owner j hj) (hframe.pending j hj)
        (hframe.lockCount j hj) (hframe.hwSem j hj) (hframe.holders j hj) ?_ ?_
      · intro pc' hpc'
        rw [hcall] at hpc'
        cases hpc'
        exact absurd rfl hj
      · exact fun pc' hpc' => absurd (hframe.own j pc' hpc') hj

theorem Inv.next (hinv : Inv s) {a : Action ι} (hcareful : Careful s a)
    (hstep : HwLock.next s a = some s') : Inv s' := by
  cases a with
  | acquire c id =>
    simp only [HwLock.next] at hstep
    split at hstep
    next => cases hstep
    next hidle =>
      split at hstep
      next =>
        cases hstep
        exact hinv
      next hid =>
        cases hstep
        exact hinv.enter (Nat.not_le.mp hid) (not_not.mp hidle) rfl trivial
  | release c id =>
    simp only [HwLock.next] at hstep
    split at hstep
    next => cases hstep
    next hidle =>
      split at hstep
      next =>
        cases hstep
        exact hinv
      next hid =>
        cases hstep
        exact hinv.enter (Nat.not_le.mp hid) (not_not.mp hidle) rfl hcareful
  | run c interrupted =>
    simp only [HwLock.next] at hstep
    split at hstep
    next => cases hstep
    next id pc hcall => exact hinv.stmt hcall hcareful hstep
  | m3Acquire id =>
    simp only [HwLock.next] at hstep
    split at hstep
    next hidle =>
      cases hstep
      refine ⟨hinv.bound, fun j => (hinv.lock j).arbiter rfl rfl rfl rfl ?_ ?_⟩
      · simp only [Function.update_apply]
        grind
      · simp only [Settled, Function.update_apply]
        grind
    next => cases hstep
  | m3Release id =>
    simp only [HwLock.next] at hstep
    split at hstep
    next hm3 =>
      cases hstep
      refine ⟨hinv.bound, fun j => (hinv.lock j).arbiter rfl rfl rfl rfl ?_ ?_⟩
      · simp only [Function.update_apply]
        grind
      · simp only [Settled, Function.update_apply]
        grind
    next => cases hstep
  | grant id =>
    simp only [HwLock.next] at hstep
    split at hstep
    next hready =>
      cases hstep
      refine ⟨hinv.bound, fun j => (hinv.lock j).arbiter rfl rfl rfl rfl ?_ ?_⟩
      · simp only [Function.update_apply]
        grind
      · -- a settled lock has a pending request only under its holders, who own it
        simp only [Settled, Function.update_apply]
        grind
    next => cases hstep
  | drop id =>
    cases hstep
    refine ⟨hinv.bound, fun j => (hinv.lock j).arbiter rfl rfl rfl rfl (fun h => h) ?_⟩
    simp only [Settled, Function.update_apply]
    grind

/-- In a run whose releases are called by holders and not interrupted, and whose
count does not wrap, every lock is sound in every state. -/
theorem reference_count_sound (s : State ι)
    (hreach : ((hwLock ι).restrict Careful).Reachable s) (id : ℕ) : Sound s id := by
  have hinv : Inv s := by
    refine hreach.invariant (fun _ hinit => hinit.inv) ?_
    exact fun _ _ _ _ hinv hstep => hinv.next hstep.1 hstep.2
  exact (hinv.lock id).sound

end Runs

end Model

def probed : State ℕ where
  owner _ := .idle
  pending _ := false
  lockCount _ := 0
  hwSem _ := none
  call _ := none
  holders _ := 0

theorem init_probed : Init probed :=
  ⟨fun _ => (by decide : Owner.idle ≠ Owner.a55), fun _ => rfl, fun _ => rfl, fun _ => rfl, fun _ => rfl, fun _ => rfl⟩

def statements (c : ℕ) (n : ℕ) : List (Action ℕ) :=
  List.replicate n (.run c false)

def firstAcquire : List (Action ℕ) :=
  List.flatten [[.acquire 0 2], statements 0 3, [.grant 2], statements 0 4]

def balancedRun : List (Action ℕ) :=
  List.flatten [firstAcquire, [.acquire 1 2], statements 1 5, [.release 0 2], statements 0 3,
    [.release 1 2], statements 1 4, [.m3Acquire 2]]

instance (s : State ℕ) (id : ℕ) (interrupted : Bool) (pc : Pc) :
    Decidable (CarefulAt s id interrupted pc) := by
  cases pc <;> unfold CarefulAt <;> infer_instance

instance (s : State ℕ) (a : Action ℕ) : Decidable (Careful s a) :=
  match a with
  | .release c id => inferInstanceAs (Decidable (c ∈ s.holders id))
  | .run c interrupted =>
    match h : s.call c with
    | some (id, pc) =>
      decidable_of_iff (CarefulAt s id interrupted pc) (by simp only [Careful, h])
    | none => isTrue (by simp only [Careful, h])
  | .acquire _ _ | .m3Acquire _ | .m3Release _ | .grant _ | .drop _ => isTrue trivial

def afterBalanced : State ℕ :=
  (TransitionSystem.runSteps (TransitionSystem.guarded Careful next) probed balancedRun).get
    (by decide +kernel)

theorem reference_count_sound_balanced : Sound afterBalanced 2 ∧ afterBalanced.owner 2 = .m3 := by
  have hstart : ((hwLock ℕ).restrict Careful).Reachable probed :=
    TransitionSystem.Reachable.init init_probed
  refine ⟨reference_count_sound afterBalanced ?_ 2, by decide +kernel⟩
  exact hstart.runGuarded (l := balancedRun) (Option.some_get _).symm

def interruptedRun : List (Action ℕ) :=
  List.flatten [firstAcquire, [.acquire 1 2], statements 1 1, [.release 0 2, .run 0 true],
    statements 1 4, [.release 1 2], statements 1 3]

def afterInterrupted : State ℕ :=
  (TransitionSystem.runSteps next probed interruptedRun).get (by decide +kernel)

def strayRun : List (Action ℕ) :=
  List.flatten [firstAcquire, [.release 1 2], statements 1 4, [.m3Acquire 2]]

def afterStray : State ℕ :=
  (TransitionSystem.runSteps next probed strayRun).get (by decide +kernel)

/-- After an interrupted release the A55 keeps a lock that nobody holds, and after
a release by a client that holds nothing the M3 gets a lock that client 0 holds. -/
theorem release_unsound :
    ((hwLock ℕ).Reachable afterInterrupted ∧ ¬ Sound afterInterrupted 2 ∧
      afterInterrupted.holders 2 = 0 ∧ afterInterrupted.owner 2 = .a55) ∧
    ((hwLock ℕ).Reachable afterStray ∧ ¬ Sound afterStray 2 ∧
      0 ∈ afterStray.holders 2 ∧ afterStray.owner 2 = .m3) := by
  have hstart : (hwLock ℕ).Reachable probed := TransitionSystem.Reachable.init init_probed
  refine ⟨⟨hstart.runSteps (l := interruptedRun) (Option.some_get _).symm, ?_, ?_⟩,
    ⟨hstart.runSteps (l := strayRun) (Option.some_get _).symm, ?_, ?_⟩⟩
  · intro hsound
    have hcount := hsound.count
    revert hcount
    decide +kernel
  · decide +kernel
  · intro hsound
    have hcount := hsound.count
    revert hcount
    decide +kernel
  · decide +kernel

end HiMpu.HwLock
