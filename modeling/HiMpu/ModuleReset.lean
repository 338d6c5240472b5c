import HiMpu.TransitionSystem
import Mathlib.Order.CompletePartialOrder

/-!
# The resets of modules

`m_reset_handle`, `m_reset_handle_atomic`, `m_hp_reset` and `subsys_sft_reset` of
`drivers/comm/m_reset.c`, with `lp_subsys_srst`.  A request register puts the modules of the mask
into reset and its release register takes them out.  A step is a write of a register, or what
a call does to a semaphore.
-/

namespace HiMpu.ModuleReset

inductive Block where
  | lpSubsys
  | hpSubsys
  | sysctrl
  deriving DecidableEq

def einval : ℤ := 22
def enodev : ℤ := 19

def resetRegMinOffset : ℕ := 0x4
def resetRegMaxOffset : ℕ := 0xc
def lpscSrstReq0Offset : ℕ := 0x4
def lpscResetDreq0Offset : ℕ := 0x1fc
def sysRstReqOffset : ℕ := 0x148
def sysRstDreqOffset : ℕ := 0x14c
def rstZonePcie1 : ℕ := 5

structure Module where
  block : Block
  index : ℕ
  bit : ℕ

inductive Role where
  | request (index : ℕ)
  | release (index : ℕ)

def role : Block → ℕ → Option Role
  | .lpSubsys, 0x4 => some (.request 0)
  | .lpSubsys, 0x8 => some (.request 1)
  | .lpSubsys, 0xc => some (.request 2)
  | .lpSubsys, 0x1fc => some (.release 0)
  | .lpSubsys, 0x200 => some (.release 1)
  | .lpSubsys, 0x204 => some (.release 2)
  | .hpSubsys, 0x8 => some (.request 0)
  | .hpSubsys, 0xc => some (.request 1)
  | .hpSubsys, 0x10 => some (.release 0)
  | .hpSubsys, 0x14 => some (.release 1)
  | .sysctrl, 0x148 => some (.request 0)
  | .sysctrl, 0x14c => some (.release 0)
  | _, _ => none

def writel (inReset : Module → Bool) (b : Block) (regOffset : ℕ) (regVal : BitVec 32) :
    Module → Bool :=
  match role b regOffset with
  | some (.request k) => fun m =>
    if m.block = b ∧ m.index = k ∧ regVal.getLsbD m.bit = true then true else inReset m
  | some (.release k) => fun m =>
    if m.block = b ∧ m.index = k ∧ regVal.getLsbD m.bit = true then false else inReset m
  | none => inReset

/-- `hp_subsys_reg_write` and `sysctrl_reg_write`, which do nothing before their block is set up. -/
def regWrite (ready : Block → Bool) (inReset : Module → Bool) (b : Block) (regOffset : ℕ)
    (regVal : BitVec 32) : Module → Bool :=
  if ready b then writel inReset b regOffset regVal else inReset

inductive Call where
  | mResetHandle (regOffset : ℕ) (mask : BitVec 32)
  | mResetHandleAtomic (regOffset : ℕ) (mask : BitVec 32)
  | mHpReset (regOffset : ℕ) (mask : BitVec 32)
  | subsysSftReset (rstZone : ℕ)

inductive Sem where
  | reset (regIndex : ℕ)
  | hp
  deriving DecidableEq

def regOffsetCheck (regOffset : ℕ) : ℤ :=
  if regOffset < resetRegMinOffset ∨ regOffset > resetRegMaxOffset ∨ regOffset % 4 ≠ 0 then
    -einval
  else 0

/-- The return value of `lp_subsys_srst`. -/
def lpSubsysSrst (ready : Bool) (regOffset : ℕ) : ℤ :=
  if ready then regOffsetCheck regOffset else -enodev

namespace Call

def block : Call → Block
  | mResetHandle .. | mResetHandleAtomic .. => .lpSubsys
  | mHpReset .. => .hpSubsys
  | subsysSftReset _ => .sysctrl

def regOffset : Call → ℕ
  | mResetHandle regOffset _ | mResetHandleAtomic regOffset _ | mHpReset regOffset _ => regOffset
  | subsysSftReset _ => sysRstReqOffset

def mask : Call → BitVec 32
  | mResetHandle _ mask | mResetHandleAtomic _ mask | mHpReset _ mask => mask
  | subsysSftReset rstZone => 1#32 <<< rstZone

def sem : Call → Option Sem
  | mResetHandle regOffset _ => some (.reset ((regOffset - resetRegMinOffset) / 4))
  | mHpReset .. => some .hp
  | mResetHandleAtomic .. | subsysSftReset _ => none

def check : Call → ℤ
  | mResetHandle regOffset _ => regOffsetCheck regOffset
  | mResetHandleAtomic .. | mHpReset .. => 0
  | subsysSftReset rstZone => if rstZone > rstZonePcie1 then -einval else 0

/-- The return value of the first write, which `subsys_sft_reset` ignores. -/
def access (ready : Block → Bool) : Call → ℤ
  | mResetHandle regOffset _ | mResetHandleAtomic regOffset _ =>
    lpSubsysSrst (ready .lpSubsys) regOffset
  | mHpReset .. => if ready .hpSubsys then 0 else -enodev
  | subsysSftReset _ => 0

/-- The offset of the second write.  `m_hp_reset` computes that of the release register as
`reg_addr` and writes to `reg_offset`. -/
def releaseOffset : Call → ℕ
  | mResetHandle regOffset _ | mResetHandleAtomic regOffset _ =>
    lpscResetDreq0Offset + (regOffset - lpscSrstReq0Offset)
  | mHpReset regOffset _ => regOffset
  | subsysSftReset _ => sysRstDreqOffset

def modules (call : Call) : Set Module :=
  {m | m.block = call.block ∧ role call.block call.regOffset = some (.request m.index) ∧
    call.mask.getLsbD m.bit = true}

def request (ready : Block → Bool) (call : Call) (inReset : Module → Bool) : Module → Bool :=
  regWrite ready inReset call.block call.regOffset call.mask

def release (ready : Block → Bool) (call : Call) (inReset : Module → Bool) : Module → Bool :=
  regWrite ready inReset call.block call.releaseOffset call.mask

end Call

section Interleaving

variable {ι : Type*} [DecidableEq ι]

inductive Phase where
  | idle
  | entered
  | requested
  | leaving (ret : ℤ)
  | returned (ret : ℤ)

structure Write (ι : Type*) where
  caller : ι
  before : Module → Bool
  after : Module → Bool

structure State (ι : Type*) where
  inReset : Module → Bool
  lock : Option ι
  sem : Sem → Option ι
  phase : ι → Phase
  writes : List (Write ι)

namespace State

def goto (s : State ι) (n : ι) (p : Phase) : State ι :=
  { s with phase := Function.update s.phase n p }

def down (s : State ι) (n : ι) (sem : Sem) : State ι :=
  { s.goto n .entered with sem := Function.update s.sem sem (some n) }

def up (s : State ι) (n : ι) (sem : Option Sem) (ret : ℤ) : State ι :=
  match sem with
  | some sem => { s.goto n (.returned ret) with sem := Function.update s.sem sem none }
  | none => s.goto n (.returned ret)

def write (s : State ι) (n : ι) (after : Module → Bool) (p : Phase) (lock : Option ι) :
    State ι where
  inReset := after
  lock := lock
  sem := s.sem
  phase := Function.update s.phase n p
  writes := s.writes ++ [⟨n, s.inReset, after⟩]

end State

inductive Step (ready : Block → Bool) (call : ι → Call) (s : State ι) : ι → State ι → Prop
  | refused {n : ι} (hphase : s.phase n = .idle) (hcheck : (call n).check ≠ 0) :
      Step ready call s n (s.goto n (.returned (call n).check))
  | enter {n : ι} (hphase : s.phase n = .idle) (hcheck : (call n).check = 0)
      (hsem : (call n).sem = none) : Step ready call s n (s.goto n .entered)
  | down {n : ι} {sem : Sem} (hphase : s.phase n = .idle) (hcheck : (call n).check = 0)
      (hsem : (call n).sem = some sem) (hfree : s.sem sem = none) :
      Step ready call s n (s.down n sem)
  | interrupted {n : ι} {sem : Sem} {ret : ℤ} (hphase : s.phase n = .idle)
      (hcheck : (call n).check = 0) (hsem : (call n).sem = some sem) (hret : ret ≠ 0) :
      Step ready call s n (s.goto n (.returned ret))
  | failed {n : ι} (hphase : s.phase n = .entered) (haccess : (call n).access ready ≠ 0) :
      Step ready call s n (s.goto n (.leaving ((call n).access ready)))
  | request {n : ι} (hphase : s.phase n = .entered) (haccess : (call n).access ready = 0)
      (hlock : (call n).block = .lpSubsys → s.lock = none) :
      Step ready call s n (s.write n ((call n).request ready s.inReset) .requested
        (if (call n).block = .lpSubsys then some n else s.lock))
  | release {n : ι} (hphase : s.phase n = .requested) :
      Step ready call s n (s.write n ((call n).release ready s.inReset) (.leaving 0)
        (if (call n).block = .lpSubsys then none else s.lock))
  | up {n : ι} {ret : ℤ} (hphase : s.phase n = .leaving ret) :
      Step ready call s n (s.up n (call n).sem ret)

structure Initial (s : State ι) : Prop where
  lock : s.lock = none
  sem : ∀ sem, s.sem sem = none
  phase : ∀ n, s.phase n = .idle
  writes : s.writes = []

def system (ready : Block → Bool) (call : ι → Call) : TransitionSystem (State ι) ι :=
  ⟨Initial, Step ready call⟩

structure CallOk (s : State ι) (n : ι) (modules : Set Module) : Prop where
  released : ∃ w₁ w₂ : Write ι, [w₁, w₂].Sublist s.writes ∧ w₁.caller = n ∧ w₂.caller = n ∧
    ∀ m ∈ modules, w₁.after m = true ∧ w₂.before m = true ∧ w₂.after m = false
  clear : ∀ m ∈ modules, s.inReset m = false
  frame : ∀ w ∈ s.writes, w.caller = n → ∀ m ∉ modules, w.after m = w.before m

def ResetOk (call : ι → Call) (s : State ι) : Prop :=
  ∀ n, s.phase n = .returned 0 → CallOk s n (call n).modules

/-- `m_hp_reset` writes nothing to a reset register, and `subsys_sft_reset` finds `sysctrl` set
up or returns an error. -/
def Call.Allowed (ready : Block → Bool) : Call → Prop
  | mResetHandle .. | mResetHandleAtomic .. => True
  | mHpReset regOffset mask =>
    ready .hpSubsys = false ∨ mask = 0 ∨ role .hpSubsys regOffset = none
  | subsysSftReset rstZone => ready .sysctrl = true ∨ rstZone > rstZonePcie1

section Writes

variable {ready : Block → Bool} {inReset : Module → Bool} {call : Call}

theorem writel_zero (inReset : Module → Bool) (b : Block) (regOffset : ℕ) :
    writel inReset b regOffset 0 = inReset := by
  unfold writel
  split
  · simp
  · simp
  · rfl

theorem regWrite_zero (ready : Block → Bool) (inReset : Module → Bool) (b : Block)
    (regOffset : ℕ) : regWrite ready inReset b regOffset 0 = inReset := by
  unfold regWrite
  rw [writel_zero, ite_self]

theorem regWrite_of_role_none {b : Block} {regOffset : ℕ} (hrole : role b regOffset = none)
    (regVal : BitVec 32) : regWrite ready inReset b regOffset regVal = inReset := by
  unfold regWrite writel
  rw [hrole, ite_self]

theorem regOffsetCheck_eq_zero {regOffset : ℕ} (h : regOffsetCheck regOffset = 0) :
    regOffset = 0x4 ∨ regOffset = 0x8 ∨ regOffset = 0xc := by
  unfold regOffsetCheck resetRegMinOffset resetRegMaxOffset einval at h
  split at h
  · exact absurd h (by decide)
  · omega

def Call.Paired (call : Call) : Prop :=
  ∃ k, role call.block call.regOffset = some (.request k) ∧
    role call.block call.releaseOffset = some (.release k)

theorem paired_of_lpSubsysSrst {r : Bool} {regOffset : ℕ}
    (haccess : lpSubsysSrst r regOffset = 0) :
    r = true ∧ ∃ k, role .lpSubsys regOffset = some (.request k) ∧
      role .lpSubsys (lpscResetDreq0Offset + (regOffset - lpscSrstReq0Offset)) =
        some (.release k) := by
  unfold lpSubsysSrst at haccess
  split at haccess
  next hready =>
    refine ⟨hready, ?_⟩
    obtain rfl | rfl | rfl := regOffsetCheck_eq_zero haccess
    · exact ⟨0, rfl, rfl⟩
    · exact ⟨1, rfl, rfl⟩
    · exact ⟨2, rfl, rfl⟩
  next => exact absurd haccess (by decide)

theorem Call.Allowed.cases (hallowed : call.Allowed ready) (hcheck : call.check = 0)
    (haccess : call.access ready = 0) :
    ready call.block = true ∧ call.Paired ∨ call.mask = 0 ∨
      role call.block call.regOffset = none ∧ call.releaseOffset = call.regOffset := by
  cases call with
  | mResetHandle regOffset mask => exact Or.inl (paired_of_lpSubsysSrst haccess)
  | mResetHandleAtomic regOffset mask => exact Or.inl (paired_of_lpSubsysSrst haccess)
  | mHpReset regOffset mask =>
    obtain hready | hmask | hrole := hallowed
    · change (if ready .hpSubsys then 0 else -enodev) = 0 at haccess
      rw [hready] at haccess
      exact absurd haccess (by decide)
    · exact Or.inr (Or.inl hmask)
    · exact Or.inr (Or.inr ⟨hrole, rfl⟩)
  | subsysSftReset rstZone =>
    obtain hready | hzone := hallowed
    · exact Or.inl ⟨hready, 0, rfl, rfl⟩
    · change (if rstZone > rstZonePcie1 then -einval else 0) = 0 at hcheck
      rw [if_pos hzone] at hcheck
      exact absurd hcheck (by decide)

theorem not_mem_modules_of_mask (hmask : call.mask = 0) (m : Module) : m ∉ call.modules := by
  rintro ⟨-, -, hbit⟩
  rw [hmask] at hbit
  simp at hbit

theorem not_mem_modules_of_role (hrole : role call.block call.regOffset = none) (m : Module) :
    m ∉ call.modules := by
  rintro ⟨-, hrequest, -⟩
  rw [hrole] at hrequest
  cases hrequest

theorem mem_modules_iff {k : ℕ} (hrole : role call.block call.regOffset = some (.request k))
    (m : Module) :
    m ∈ call.modules ↔ m.block = call.block ∧ m.index = k ∧ call.mask.getLsbD m.bit = true := by
  have hindex : role call.block call.regOffset = some (.request m.index) ↔ m.index = k := by
    rw [hrole, Option.some.injEq, Role.request.injEq]
    exact eq_comm
  unfold Call.modules
  rw [Set.mem_ofPred_eq, hindex]

theorem request_spec (hallowed : call.Allowed ready) (hcheck : call.check = 0)
    (haccess : call.access ready = 0) (inReset : Module → Bool) (m : Module) :
    (m ∈ call.modules → call.request ready inReset m = true) ∧
      (m ∉ call.modules → call.request ready inReset m = inReset m) := by
  unfold Call.request
  obtain ⟨hready, k, hrole, -⟩ | hmask | ⟨hrole, -⟩ := hallowed.cases hcheck haccess
  · rw [mem_modules_iff hrole]
    unfold regWrite writel
    rw [if_pos hready, hrole]
    exact ⟨fun hm => if_pos hm, fun hm => if_neg hm⟩
  · rw [hmask, regWrite_zero]
    exact ⟨fun hm => absurd hm (not_mem_modules_of_mask hmask m), fun _ => rfl⟩
  · rw [regWrite_of_role_none hrole]
    exact ⟨fun hm => absurd hm (not_mem_modules_of_role hrole m), fun _ => rfl⟩

theorem release_spec (hallowed : call.Allowed ready) (hcheck : call.check = 0)
    (haccess : call.access ready = 0) (inReset : Module → Bool) (m : Module) :
    (m ∈ call.modules → call.release ready inReset m = false) ∧
      (m ∉ call.modules → call.release ready inReset m = inReset m) := by
  unfold Call.release
  obtain ⟨hready, k, hrole, hrelease⟩ | hmask | ⟨hrole, hsame⟩ := hallowed.cases hcheck haccess
  · rw [mem_modules_iff hrole]
    unfold regWrite writel
    rw [if_pos hready, hrelease]
    exact ⟨fun hm => if_pos hm, fun hm => if_neg hm⟩
  · rw [hmask, regWrite_zero]
    exact ⟨fun hm => absurd hm (not_mem_modules_of_mask hmask m), fun _ => rfl⟩
  · rw [hsame, regWrite_of_role_none hrole]
    exact ⟨fun hm => absurd hm (not_mem_modules_of_role hrole m), fun _ => rfl⟩

end Writes

section Invariant

variable {ready : Block → Bool} {call : ι → Call} {s t : State ι} {n : ι}

def PhaseInv (ready : Block → Bool) (s : State ι) (n : ι) (call : Call) : Phase → Prop
  | .idle => True
  | .entered => call.check = 0
  | .requested => call.check = 0 ∧ call.access ready = 0 ∧
      (∃ w ∈ s.writes, w.caller = n ∧ ∀ m ∈ call.modules, w.after m = true) ∧
      ∀ m ∈ call.modules, s.inReset m = true
  | .leaving ret | .returned ret => ret = 0 →
      (∃ w₁ w₂ : Write ι, [w₁, w₂].Sublist s.writes ∧ w₁.caller = n ∧ w₂.caller = n ∧
        ∀ m ∈ call.modules, w₁.after m = true ∧ w₂.before m = true ∧ w₂.after m = false) ∧
      ∀ m ∈ call.modules, s.inReset m = false

structure Inv (ready : Block → Bool) (call : ι → Call) (s : State ι) : Prop where
  phase : ∀ n, PhaseInv ready s n (call n) (s.phase n)
  frame : ∀ w ∈ s.writes, ∀ m ∉ (call w.caller).modules, w.after m = w.before m

omit [DecidableEq ι] in
theorem PhaseInv.mono {c : Call} {p : Phase} (h : PhaseInv ready s n c p)
    (hwrites : s.writes.Sublist t.writes)
    (hsame : ∀ m ∈ c.modules, t.inReset m = s.inReset m) : PhaseInv ready t n c p := by
  cases p with
  | idle => trivial
  | entered => exact h
  | requested =>
    obtain ⟨hcheck, haccess, ⟨w, hw, hfirst⟩, hreset⟩ := h
    exact ⟨hcheck, haccess, ⟨w, hwrites.subset hw, hfirst⟩,
      fun m hm => (hsame m hm).trans (hreset m hm)⟩
  | leaving ret =>
    intro hret
    obtain ⟨⟨w₁, w₂, hsub, hrest⟩, hclear⟩ := h hret
    exact ⟨⟨w₁, w₂, hsub.trans hwrites, hrest⟩, fun m hm => (hsame m hm).trans (hclear m hm)⟩
  | returned ret =>
    intro hret
    obtain ⟨⟨w₁, w₂, hsub, hrest⟩, hclear⟩ := h hret
    exact ⟨⟨w₁, w₂, hsub.trans hwrites, hrest⟩, fun m hm => (hsame m hm).trans (hclear m hm)⟩

theorem Inv.keep {p : Phase} (h : Inv ready call s) (hreset : t.inReset = s.inReset)
    (hwrites : t.writes = s.writes) (hphase : t.phase = Function.update s.phase n p)
    (hp : PhaseInv ready s n (call n) p) : Inv ready call t := by
  have hmono : ∀ {k p}, PhaseInv ready s k (call k) p → PhaseInv ready t k (call k) p := by
    intro k p hk
    refine hk.mono ?_ fun m _ => congrFun hreset m
    rw [hwrites]
  constructor
  · intro k
    rw [hphase]
    by_cases hk : k = n
    · subst hk
      rw [Function.update_self]
      exact hmono hp
    · rw [Function.update_of_ne hk]
      exact hmono (h.phase k)
  · rw [hwrites]
    exact h.frame

theorem Inv.write {after : Module → Bool} {p : Phase} {lock : Option ι} (h : Inv ready call s)
    (hdisjoint : Pairwise fun n n' => Disjoint (call n).modules (call n').modules)
    (hkeep : ∀ m ∉ (call n).modules, after m = s.inReset m)
    (hp : PhaseInv ready (s.write n after p lock) n (call n) p) :
    Inv ready call (s.write n after p lock) := by
  constructor
  · intro k
    change PhaseInv ready _ k (call k) (Function.update s.phase n p k)
    by_cases hk : k = n
    · subst hk
      rw [Function.update_self]
      exact hp
    · rw [Function.update_of_ne hk]
      refine (h.phase k).mono (List.sublist_append_left _ _) fun m hm => ?_
      exact hkeep m (Set.disjoint_left.mp (hdisjoint hk) hm)
  · intro w hw m hm
    obtain hold | hnew := List.mem_append.mp hw
    · exact h.frame w hold m hm
    · cases List.mem_singleton.mp hnew
      exact hkeep m hm

theorem State.up_spec (s : State ι) (n : ι) (sem : Option Sem) (ret : ℤ) :
    (s.up n sem ret).inReset = s.inReset ∧ (s.up n sem ret).writes = s.writes ∧
      (s.up n sem ret).phase = Function.update s.phase n (.returned ret) := by
  cases sem with
  | none => exact ⟨rfl, rfl, rfl⟩
  | some sem => exact ⟨rfl, rfl, rfl⟩

theorem Inv.step {a : ι} (h : Inv ready call s)
    (hdisjoint : Pairwise fun n n' => Disjoint (call n).modules (call n').modules)
    (hallowed : (call a).Allowed ready) (hstep : Step ready call s a t) : Inv ready call t := by
  cases hstep with
  | refused _ hcheck => exact h.keep rfl rfl rfl fun hret => absurd hret hcheck
  | enter _ hcheck _ => exact h.keep (p := .entered) rfl rfl rfl hcheck
  | down _ hcheck _ _ => exact h.keep (p := .entered) rfl rfl rfl hcheck
  | interrupted _ _ _ hne => exact h.keep rfl rfl rfl fun hret => absurd hret hne
  | failed _ haccess => exact h.keep rfl rfl rfl fun hret => absurd hret haccess
  | request hphase haccess _ =>
    have hcheck := h.phase a
    rw [hphase] at hcheck
    have hspec := request_spec hallowed hcheck haccess s.inReset
    refine h.write hdisjoint (fun m => (hspec m).2) ⟨hcheck, haccess, ?_, fun m => (hspec m).1⟩
    exact ⟨_, List.mem_append_right _ (List.mem_singleton_self _), rfl, fun m => (hspec m).1⟩
  | release hphase =>
    have hrequested := h.phase a
    rw [hphase] at hrequested
    obtain ⟨hcheck, haccess, ⟨w, hw, hcaller, hafter⟩, hreset⟩ := hrequested
    have hspec := release_spec hallowed hcheck haccess s.inReset
    refine h.write hdisjoint (fun m => (hspec m).2) fun _ => ⟨?_, fun m => (hspec m).1⟩
    have hsub : [w].Sublist s.writes := List.singleton_sublist.mpr hw
    exact ⟨w, _, hsub.append (List.Sublist.refl _), hcaller, rfl,
      fun m hm => ⟨hafter m hm, hreset m hm, (hspec m).1 hm⟩⟩
  | up hphase =>
    obtain ⟨hreset, hwrites, hreturned⟩ := s.up_spec a (call a).sem _
    have hleaving := h.phase a
    rw [hphase] at hleaving
    exact h.keep hreset hwrites hreturned hleaving

omit [DecidableEq ι] in
theorem Initial.inv (h : Initial s) : Inv ready call s := by
  constructor
  · intro n
    rw [h.phase n]
    trivial
  · rw [h.writes]
    exact nofun

theorem Reachable.inv
    (hdisjoint : Pairwise fun n n' => Disjoint (call n).modules (call n').modules)
    (hreach : ((system ready call).restrict fun _ n => (call n).Allowed ready).Reachable s) :
    Inv ready call s :=
  hreach.invariant (fun _ hinit => Initial.inv hinit)
    fun _ _ _ _ hinv hstep => hinv.step hdisjoint hstep.1 hstep.2

omit [DecidableEq ι] in
theorem Inv.resetOk (h : Inv ready call s) : ResetOk call s := by
  intro n hphase
  have hreturned := h.phase n
  rw [hphase] at hreturned
  obtain ⟨hreleased, hclear⟩ := hreturned rfl
  refine ⟨hreleased, hclear, fun w hw hcaller m hm => ?_⟩
  rw [← hcaller] at hm
  exact h.frame w hw m hm

end Invariant

section Alone

variable {call : ι → Call} {n : ι}

theorem exists_entered (ready : Block → Bool) (hcheck : (call n).check = 0)
    (inReset : Module → Bool) :
    ∃ s, (system ready call).Reachable s ∧ s.phase n = .entered ∧ s.lock = none ∧
      s.inReset = inReset ∧ s.writes = [] := by
  let start : State ι := ⟨inReset, none, fun _ => none, fun _ => .idle, []⟩
  have hinit : (system ready call).Reachable start := .init ⟨rfl, fun _ => rfl, fun _ => rfl, rfl⟩
  cases hsem : (call n).sem with
  | none =>
    have hreach := hinit.step (a := n) (Step.enter rfl hcheck hsem)
    exact ⟨_, hreach, Function.update_self _ _ _, rfl, rfl, rfl⟩
  | some sem =>
    have hreach := hinit.step (a := n) (Step.down rfl hcheck hsem rfl)
    exact ⟨_, hreach, Function.update_self _ _ _, rfl, rfl, rfl⟩

theorem exists_returned {ready : Block → Bool} (hcheck : (call n).check = 0)
    (haccess : (call n).access ready = 0) (inReset : Module → Bool) :
    ∃ s, (system ready call).Reachable s ∧ s.phase n = .returned 0 ∧
      s.inReset = (call n).release ready ((call n).request ready inReset) ∧
      s.writes = [⟨n, inReset, (call n).request ready inReset⟩,
        ⟨n, (call n).request ready inReset,
          (call n).release ready ((call n).request ready inReset)⟩] := by
  obtain ⟨s, hreach, hphase, hlock, rfl, hwrites⟩ := exists_entered ready hcheck inReset
  have hrequest := hreach.step (a := n) (Step.request hphase haccess fun _ => hlock)
  have hrelease := hrequest.step (a := n) (Step.release (Function.update_self _ _ _))
  have hup := hrelease.step (a := n) (Step.up (Function.update_self _ _ _))
  obtain ⟨hreset, hkept, hreturned⟩ := State.up_spec _ n (call n).sem 0
  refine ⟨_, hup, ?_, hreset, hkept.trans ?_⟩
  · rw [hreturned, Function.update_self]
  · change (s.writes ++ _) ++ _ = _
    rw [hwrites]
    rfl

theorem exists_bit {x : BitVec 32} (hx : x ≠ 0) : ∃ i, x.getLsbD i = true := by
  by_contra hnone
  rw [not_exists] at hnone
  refine hx (BitVec.eq_of_getLsbD_eq fun i _ => ?_)
  rw [Bool.eq_false_of_not_eq_true (hnone i)]
  exact BitVec.getLsbD_zero.symm

theorem exists_not_callOk {ready : Block → Bool} (hnot : ¬ (call n).Allowed ready) :
    ∃ s, (system ready call).Reachable s ∧ s.phase n = .returned 0 ∧
      ¬ CallOk s n (call n).modules := by
  cases hcall : call n with
  | mResetHandle regOffset mask =>
    rw [hcall] at hnot
    exact absurd trivial hnot
  | mResetHandleAtomic regOffset mask =>
    rw [hcall] at hnot
    exact absurd trivial hnot
  | mHpReset regOffset mask =>
    rw [hcall] at hnot
    change ¬ (_ ∨ _ ∨ _) at hnot
    rw [not_or, not_or, Bool.not_eq_false] at hnot
    obtain ⟨hready, hmask, hrole⟩ := hnot
    obtain ⟨i, hi⟩ := exists_bit hmask
    have haccess : (call n).access ready = 0 := by
      rw [hcall]
      exact if_pos hready
    have hcheck : (call n).check = 0 := by
      rw [hcall]
      rfl
    obtain ⟨s, hreach, hphase, hreset, hwrites⟩ :=
      exists_returned hcheck haccess fun _ => true
    refine ⟨s, hreach, hphase, fun hok => ?_⟩
    rw [hcall] at hreset hwrites
    have hwrite : ∀ inReset, regWrite ready inReset .hpSubsys regOffset mask =
        writel inReset .hpSubsys regOffset mask := fun _ => if_pos hready
    cases hr : role .hpSubsys regOffset with
    | none => exact hrole hr
    | some r =>
      cases r with
      | request k =>
        have hclear := hok.clear ⟨.hpSubsys, k, i⟩ ⟨rfl, hr, hi⟩
        rw [hreset] at hclear
        simp [Call.release, Call.request, Call.block, Call.regOffset, Call.releaseOffset,
          Call.mask, hwrite, writel, hr] at hclear
      | release k =>
        have hmodules : (⟨.hpSubsys, k, i⟩ : Module) ∉
            (Call.mHpReset regOffset mask).modules := by
          rintro ⟨-, hrequest, -⟩
          change role .hpSubsys regOffset = _ at hrequest
          rw [hr] at hrequest
          cases hrequest
        have hfirst : (⟨n, fun _ => true,
            (Call.mHpReset regOffset mask).request ready fun _ => true⟩ : Write ι) ∈
            s.writes := by
          rw [hwrites]
          exact List.mem_cons_self
        have hframe := hok.frame _ hfirst rfl _ hmodules
        simp [Call.request, Call.block, Call.regOffset, Call.mask, hwrite, writel, hr,
          hi] at hframe
  | subsysSftReset rstZone =>
    rw [hcall] at hnot
    change ¬ (_ ∨ _) at hnot
    rw [not_or, Bool.not_eq_true] at hnot
    obtain ⟨hready, hzone⟩ := hnot
    have hcheck : (call n).check = 0 := by
      rw [hcall]
      exact if_neg hzone
    have haccess : (call n).access ready = 0 := by
      rw [hcall]
      rfl
    obtain ⟨s, hreach, hphase, hreset, -⟩ := exists_returned hcheck haccess fun _ => true
    refine ⟨s, hreach, hphase, fun hok => ?_⟩
    have hwrite : ∀ inReset regOffset regVal,
        regWrite ready inReset .sysctrl regOffset regVal = inReset := by
      intro inReset regOffset regVal
      unfold regWrite
      rw [hready]
      rfl
    have hbit : (1#32 <<< rstZone).getLsbD rstZone = true := by
      have hlt : rstZone < 32 := by
        unfold rstZonePcie1 at hzone
        omega
      simp [hlt]
    have hclear := hok.clear ⟨.sysctrl, 0, rstZone⟩ ⟨rfl, rfl, hbit⟩
    rw [hreset, hcall] at hclear
    change regWrite ready (regWrite ready _ .sysctrl _ _) .sysctrl _ _ _ = false at hclear
    rw [hwrite, hwrite] at hclear
    cases hclear

end Alone

theorem moduleReset_correct
    (ready : Block → Bool) (call : ι → Call)
    (hdisjoint : Pairwise fun n n' => Disjoint (call n).modules (call n').modules) :
    (∀ s, ((system ready call).restrict fun _ n => (call n).Allowed ready).Reachable s →
      ResetOk call s) ∧
    ∀ n, ¬ (call n).Allowed ready → ∃ s, (system ready call).Reachable s ∧
      s.phase n = .returned 0 ∧ ¬ CallOk s n (call n).modules := by
  constructor
  · intro s hreach
    exact (Reachable.inv hdisjoint hreach).resetOk
  · intro n hnot
    exact exists_not_callOk hnot

end Interleaving

theorem mHpReset_not_allowed : ¬ (Call.mHpReset 0x8 1).Allowed fun _ => true := by
  intro hallowed
  obtain hready | hmask | hrole := hallowed
  · cases hready
  · exact absurd hmask (by decide)
  · cases hrole

def twoCalls : Bool → Call
  | false => .mResetHandle 0x4 1
  | true => .mHpReset 0x8 1

theorem moduleReset_correct_two :
    (∀ s, ((system (fun _ => true) twoCalls).restrict fun _ n =>
        (twoCalls n).Allowed fun _ => true).Reachable s → ResetOk twoCalls s) ∧
      ∃ s, (system (fun _ => true) twoCalls).Reachable s ∧ s.phase true = .returned 0 ∧
        ¬ CallOk s true (twoCalls true).modules := by
  have hdisjoint : Pairwise fun n n' => Disjoint (twoCalls n).modules (twoCalls n').modules := by
    intro n n' hne
    rw [Set.disjoint_left]
    intro m hm hm'
    have hblock : (twoCalls n).block = (twoCalls n').block := hm.1.symm.trans hm'.1
    cases n <;> cases n' <;> first | exact hne rfl | cases hblock
  obtain ⟨hrestricted, hbroken⟩ := moduleReset_correct (fun _ => true) twoCalls hdisjoint
  exact ⟨hrestricted, hbroken true mHpReset_not_allowed⟩

/-- `m_hp_reset` on its own leaves its module in reset. -/
theorem moduleReset_not_correct :
    ¬ ∀ s, (system (fun _ => true) fun _ : Unit => Call.mHpReset 0x8 1).Reachable s →
      ResetOk (fun _ => Call.mHpReset 0x8 1) s := by
  intro hall
  have hnot : ∃ s, (system (fun _ => true) fun _ : Unit => Call.mHpReset 0x8 1).Reachable s ∧
      s.phase () = .returned 0 ∧ ¬ CallOk s () (Call.mHpReset 0x8 1).modules :=
    exists_not_callOk mHpReset_not_allowed
  obtain ⟨s, hreach, hphase, hbroken⟩ := hnot
  exact hbroken (hall s hreach () hphase)

end HiMpu.ModuleReset
