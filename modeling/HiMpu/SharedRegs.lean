import HiMpu.BitSpace
import HiMpu.TransitionSystem

/-!
# The shared control registers

The register blocks of `lp_subsys.c` and `sysctrl.c`, whose helpers read and write
under the lock of their block, and two clients that compose a read and writes
themselves: `m_emmc_reset` and `hisi_pcie_init_hip`.  The latter hands the offset
and the value to `sysctrl_reg_write` the wrong way round.
-/

namespace HiMpu.SharedRegs

open BitSpace

inductive Block where
  | lpSubsys
  | sysctrl
  deriving DecidableEq

/-- The bits of the two blocks; a register has the 32 bits from eight times its offset on. -/
abbrev Contents := Block → Bits

def einval : ℤ := 22
def enodev : ℤ := 19
def emmcRegOffset : ℕ := 0xf8
def miscCtrlOffset : BitVec 32 := 0x200
def pcieRstDomainBit : ℕ := 3

def readl (c : Contents) (b : Block) (regOffset : ℕ) : BitVec 32 :=
  readWord (c b) (8 * regOffset) 32

def writel (c : Contents) (b : Block) (regOffset : ℕ) (regVal : BitVec 32) : Contents :=
  Function.update c b (writeWord (c b) (8 * regOffset) regVal)

def regReadWrite (regMask val regVal : BitVec 32) : BitVec 32 :=
  (regVal &&& ~~~regMask) ||| (val &&& regMask)

def regSetBits (regMask setBit regVal : BitVec 32) : BitVec 32 :=
  let regVal := regVal &&& ~~~regMask
  if setBit ≠ 0 then regVal ||| regMask else regVal

/-- The calls that read, change and write a register within one section of the lock. -/
inductive Update where
  | lpSubsysRegReadWrite (regOffset : ℕ) (regMask val : BitVec 32)
  | lpSubsysRegSetBits (regOffset : ℕ) (regMask setBit : BitVec 32)
  | sysctrlRegReadWrite (regOffset : ℕ) (regMask val : BitVec 32)
  | sysctrlRegSetBits (regOffset : ℕ) (regMask setBit : BitVec 32)

namespace Update

def block : Update → Block
  | lpSubsysRegReadWrite .. | lpSubsysRegSetBits .. => .lpSubsys
  | sysctrlRegReadWrite .. | sysctrlRegSetBits .. => .sysctrl

def regOffset : Update → ℕ
  | lpSubsysRegReadWrite regOffset _ _ | lpSubsysRegSetBits regOffset _ _
  | sysctrlRegReadWrite regOffset _ _ | sysctrlRegSetBits regOffset _ _ => regOffset

def regMask : Update → BitVec 32
  | lpSubsysRegReadWrite _ regMask _ | lpSubsysRegSetBits _ regMask _
  | sysctrlRegReadWrite _ regMask _ | sysctrlRegSetBits _ regMask _ => regMask

def newVal : Update → BitVec 32 → BitVec 32
  | lpSubsysRegReadWrite _ regMask val | sysctrlRegReadWrite _ regMask val =>
    regReadWrite regMask val
  | lpSubsysRegSetBits _ regMask setBit | sysctrlRegSetBits _ regMask setBit =>
    regSetBits regMask setBit

def given : Update → BitVec 32
  | lpSubsysRegReadWrite _ _ val | sysctrlRegReadWrite _ _ val => val
  | lpSubsysRegSetBits _ _ setBit | sysctrlRegSetBits _ _ setBit =>
    if setBit ≠ 0 then BitVec.allOnes 32 else 0

end Update

def sysctrlRegWrite (c : Contents) (regOffset regVal : BitVec 32) : Contents :=
  writel c .sysctrl regOffset.toNat regVal

inductive Call where
  | update (u : Update)
  | mEmmcReset (regOffset : ℕ) (mask : BitVec 32)
  | hisiPcieInitHip

namespace Call

def block : Call → Block
  | update u => u.block
  | mEmmcReset .. => .lpSubsys
  | hisiPcieInitHip => .sysctrl

def regOffset : Call → ℕ
  | update u => u.regOffset
  | mEmmcReset regOffset _ => regOffset
  | hisiPcieInitHip => miscCtrlOffset.toNat

def mask : Call → BitVec 32
  | update u => u.regMask
  | mEmmcReset _ mask => mask
  | hisiPcieInitHip => 1#32 <<< pcieRstDomainBit

def given : Call → BitVec 32
  | update u => u.given
  | mEmmcReset .. => 0
  | hisiPcieInitHip => BitVec.allOnes 32

def Names (call : Call) (b : Block) (i : ℕ) : Prop :=
  b = call.block ∧ InMask (8 * call.regOffset) call.mask i

instance (call : Call) (b : Block) (i : ℕ) : Decidable (call.Names b i) :=
  inferInstanceAs (Decidable (_ ∧ _))

def check (ready : Block → Bool) : Call → ℤ
  | update u => if ready u.block then 0 else -enodev
  | mEmmcReset regOffset _ =>
    if regOffset ≠ emmcRegOffset then -einval else if ready .lpSubsys then 0 else -enodev
  | hisiPcieInitHip => if ready .sysctrl then 0 else -enodev

end Call

inductive Phase where
  | idle
  | updating (u : Update) (regVal : BitVec 32)
  | resetRead (mask regValue : BitVec 32)
  | resetAsserted (mask regValue : BitVec 32)
  | pcieRead (val : BitVec 32)

structure State where
  contents : Contents
  lock : Block → Option ℕ
  phase : ℕ → Phase
  done : List Call

namespace State

def updateRead (s : State) (n : ℕ) (u : Update) : State :=
  { s with
    lock := Function.update s.lock u.block (some n)
    phase := Function.update s.phase n
      (.updating u (readl s.contents u.block u.regOffset)) }

def updateWrite (s : State) (n : ℕ) (u : Update) (regVal : BitVec 32) : State :=
  { s with
    contents := writel s.contents u.block u.regOffset (u.newVal regVal)
    lock := Function.update s.lock u.block none
    phase := Function.update s.phase n .idle
    done := .update u :: s.done }

def resetRead (s : State) (n : ℕ) (mask : BitVec 32) : State :=
  { s with
    phase := Function.update s.phase n
      (.resetRead mask (readl s.contents .lpSubsys emmcRegOffset)) }

def resetAssert (s : State) (n : ℕ) (mask regValue : BitVec 32) : State :=
  { s with
    contents := writel s.contents .lpSubsys emmcRegOffset (regValue ||| mask)
    phase := Function.update s.phase n (.resetAsserted mask (regValue ||| mask)) }

def resetDeassert (s : State) (n : ℕ) (mask regValue : BitVec 32) : State :=
  { s with
    contents := writel s.contents .lpSubsys emmcRegOffset (regValue &&& ~~~mask)
    phase := Function.update s.phase n .idle
    done := .mEmmcReset emmcRegOffset mask :: s.done }

def pcieRead (s : State) (n : ℕ) : State :=
  { s with
    phase := Function.update s.phase n (.pcieRead
      (readl s.contents .sysctrl miscCtrlOffset.toNat ||| 1#32 <<< pcieRstDomainBit)) }

def pcieWrite (s : State) (n : ℕ) (val : BitVec 32) : State :=
  { s with
    contents := sysctrlRegWrite s.contents val miscCtrlOffset
    phase := Function.update s.phase n .idle
    done := .hisiPcieInitHip :: s.done }

end State

/-- One access of a register by a client, as part of a call.  A single read or write of the
helpers holds the lock for that access only. -/
inductive Step (ready : Block → Bool) (s : State) : ℕ × Call → State → Prop
  | refused {n : ℕ} {call : Call} (hidle : s.phase n = .idle) (hrefused : call.check ready ≠ 0) :
      Step ready s (n, call) s
  | updateRead {n : ℕ} {u : Update} (hidle : s.phase n = .idle) (hready : ready u.block = true)
      (hfree : s.lock u.block = none) : Step ready s (n, .update u) (s.updateRead n u)
  | updateWrite {n : ℕ} {u : Update} {regVal : BitVec 32}
      (hphase : s.phase n = .updating u regVal) :
      Step ready s (n, .update u) (s.updateWrite n u regVal)
  | resetRead {n : ℕ} {mask : BitVec 32} (hidle : s.phase n = .idle)
      (hready : ready .lpSubsys = true) (hfree : s.lock .lpSubsys = none) :
      Step ready s (n, .mEmmcReset emmcRegOffset mask) (s.resetRead n mask)
  | resetAssert {n : ℕ} {mask regValue : BitVec 32}
      (hphase : s.phase n = .resetRead mask regValue) (hfree : s.lock .lpSubsys = none) :
      Step ready s (n, .mEmmcReset emmcRegOffset mask) (s.resetAssert n mask regValue)
  | resetDeassert {n : ℕ} {mask regValue : BitVec 32}
      (hphase : s.phase n = .resetAsserted mask regValue) (hfree : s.lock .lpSubsys = none) :
      Step ready s (n, .mEmmcReset emmcRegOffset mask) (s.resetDeassert n mask regValue)
  | pcieRead {n : ℕ} (hidle : s.phase n = .idle) (hready : ready .sysctrl = true)
      (hfree : s.lock .sysctrl = none) : Step ready s (n, .hisiPcieInitHip) (s.pcieRead n)
  | pcieWrite {n : ℕ} {val : BitVec 32} (hphase : s.phase n = .pcieRead val)
      (hfree : s.lock .sysctrl = none) : Step ready s (n, .hisiPcieInitHip) (s.pcieWrite n val)

structure Initial (init : Contents) (s : State) : Prop where
  contents : s.contents = init
  lock : ∀ b, s.lock b = none
  phase : ∀ n, s.phase n = .idle
  done : s.done = []

def system (ready : Block → Bool) (init : Contents) : TransitionSystem State (ℕ × Call) :=
  ⟨Initial init, Step ready⟩

def lastGiven (init : Contents) : List Call → Block → ℕ → Bool
  | [], b, i => init b i
  | call :: done, b, i =>
    if call.Names b i then call.given.getLsbD (i - 8 * call.regOffset)
    else lastGiven init done b i

def Phase.Asserts (p : Phase) (b : Block) (i : ℕ) : Prop :=
  ∃ mask regValue, p = .resetAsserted mask regValue ∧
    (Call.mEmmcReset emmcRegOffset mask).Names b i

/-- A reset writes the other bits of its register as they are, and the initialisation of PCIe
finds the bit of `MISC_CTRL` set and writes what is there already. -/
def Undisturbed (s : State) (e : ℕ × Call) : Prop :=
  match s.phase e.1 with
  | .resetRead mask regValue | .resetAsserted mask regValue =>
    ∀ k < 32, mask.getLsbD k = false →
      regValue.getLsbD k = s.contents .lpSubsys (8 * emmcRegOffset + k)
  | .pcieRead val =>
    readl s.contents .sysctrl val.toNat = miscCtrlOffset ∧
      s.contents .sysctrl (8 * miscCtrlOffset.toNat + pcieRstDomainBit) = true
  | .idle | .updating _ _ => True

structure Inv (init : Contents) (s : State) : Prop where
  locked : ∀ n u regVal, s.phase n = .updating u regVal →
    s.lock u.block = some n ∧ regVal = readl s.contents u.block u.regOffset
  settled : ∀ b i, (∀ n, ¬ (s.phase n).Asserts b i) →
    s.contents b i = lastGiven init s.done b i

variable {ready : Block → Bool} {init c c' : Contents} {s s' : State} {b : Block} {i k n : ℕ}

theorem regReadWrite_getLsbD (mask val regVal : BitVec 32) (k : ℕ) :
    (regReadWrite mask val regVal).getLsbD k =
      if mask.getLsbD k then val.getLsbD k else regVal.getLsbD k := by
  simp only [regReadWrite, BitVec.getLsbD_or, BitVec.getLsbD_and, BitVec.getLsbD_not]
  by_cases hk : k < 32
  · cases mask.getLsbD k <;> simp [hk]
  · have hreg : regVal.getLsbD k = false := BitVec.getLsbD_of_ge regVal k (by omega)
    cases mask.getLsbD k <;> simp [hreg]

theorem regSetBits_getLsbD (mask setBit regVal : BitVec 32) (k : ℕ) :
    (regSetBits mask setBit regVal).getLsbD k =
      if mask.getLsbD k then (if setBit ≠ 0 then BitVec.allOnes 32 else 0).getLsbD k
      else regVal.getLsbD k := by
  have hcleared : (regVal &&& ~~~mask).getLsbD k =
      if mask.getLsbD k then false else regVal.getLsbD k := by
    rw [BitVec.getLsbD_and, BitVec.getLsbD_not]
    by_cases hk : k < 32
    · cases mask.getLsbD k <;> simp [hk]
    · have hreg : regVal.getLsbD k = false := BitVec.getLsbD_of_ge regVal k (by omega)
      simp [hreg]
  simp only [regSetBits]
  by_cases hbit : setBit ≠ 0
  · rw [if_pos hbit, if_pos hbit, BitVec.getLsbD_or, hcleared, BitVec.getLsbD_allOnes]
    cases hmask : mask.getLsbD k with
    | false => simp
    | true => simp [BitVec.lt_of_getLsbD hmask]
  · rw [if_neg hbit, if_neg hbit, hcleared]
    cases mask.getLsbD k <;> simp

theorem Update.newVal_getLsbD (u : Update) (regVal : BitVec 32) (k : ℕ) :
    (u.newVal regVal).getLsbD k =
      if u.regMask.getLsbD k then u.given.getLsbD k else regVal.getLsbD k := by
  cases u with
  | lpSubsysRegReadWrite _ mask val => exact regReadWrite_getLsbD mask val regVal k
  | lpSubsysRegSetBits _ mask setBit => exact regSetBits_getLsbD mask setBit regVal k
  | sysctrlRegReadWrite _ mask val => exact regReadWrite_getLsbD mask val regVal k
  | sysctrlRegSetBits _ mask setBit => exact regSetBits_getLsbD mask setBit regVal k

theorem writel_names (call : Call) {v : BitVec 32}
    (hkeep : ∀ k < 32, call.mask.getLsbD k = false →
      v.getLsbD k = c call.block (8 * call.regOffset + k)) (b : Block) (i : ℕ) :
    writel c call.block call.regOffset v b i =
      if call.Names b i then v.getLsbD (i - 8 * call.regOffset) else c b i := by
  unfold writel
  by_cases hb : b = call.block
  · subst hb
    rw [Function.update_self, writeWord_merge hkeep]
    by_cases hin : InMask (8 * call.regOffset) call.mask i
    · have hnames : call.Names call.block i := ⟨rfl, hin⟩
      rw [if_pos hin, if_pos hnames]
    · have hnames : ¬ call.Names call.block i := fun h => hin h.2
      rw [if_neg hin, if_neg hnames]
  · have hnames : ¬ call.Names b i := fun h => hb h.1
    rw [Function.update_of_ne hb, if_neg hnames]

theorem writel_of_ne {b' : Block} {off : ℕ} {v : BitVec 32} (hb : b ≠ b') :
    writel c b' off v b = c b :=
  Function.update_of_ne hb _ _

theorem readl_getLsbD {off : ℕ} (hk : k < 32) :
    (readl c b off).getLsbD k = c b (8 * off + k) :=
  readWord_getLsbD hk

theorem Inv.locked_keep {lock : Block → Option ℕ} {p : Phase} (h : Inv init s)
    (hp : ∀ u regVal, p ≠ .updating u regVal)
    (hkeep : ∀ b m, s.lock b = some m → m ≠ n → lock b = some m ∧ c b = s.contents b) :
    ∀ m u regVal, Function.update s.phase n p m = .updating u regVal →
      lock u.block = some m ∧ regVal = readl c u.block u.regOffset := by
  intro m u regVal hphase
  by_cases hm : m = n
  · rw [hm, Function.update_self] at hphase
    exact absurd hphase (hp u regVal)
  · rw [Function.update_of_ne hm] at hphase
    obtain ⟨hlock, hval⟩ := h.locked m u regVal hphase
    obtain ⟨hlock', hsame⟩ := hkeep _ m hlock hm
    refine ⟨hlock', hval.trans ?_⟩
    rw [readl, readl, hsame]

theorem not_asserts_of_update {p : Phase} (hn : ¬ (s.phase n).Asserts b i)
    (h : ∀ m, ¬ (Function.update s.phase n p m).Asserts b i) (m : ℕ) :
    ¬ (s.phase m).Asserts b i := by
  by_cases hm : m = n
  · rw [hm]
    exact hn
  · have hother := h m
    rw [Function.update_of_ne hm] at hother
    exact hother

theorem Inv.settled_done {call : Call} {p : Phase} (h : Inv init s)
    (hnamed : ∀ b i, call.Names b i → c b i = call.given.getLsbD (i - 8 * call.regOffset))
    (hothers : ∀ b i, ¬ call.Names b i → c b i = s.contents b i)
    (hphase : ∀ b i, ¬ call.Names b i → ¬ (s.phase n).Asserts b i) (b : Block) (i : ℕ)
    (hassert : ∀ m, ¬ (Function.update s.phase n p m).Asserts b i) :
    c b i = lastGiven init (call :: s.done) b i := by
  by_cases hnames : call.Names b i
  · exact (hnamed b i hnames).trans (if_pos hnames).symm
  · have hold := h.settled b i (not_asserts_of_update (hphase b i hnames) hassert)
    exact (hothers b i hnames).trans (hold.trans (if_neg hnames).symm)

theorem Inv.updateWrite_names {u : Update} {regVal : BitVec 32} (h : Inv init s)
    (hphase : s.phase n = .updating u regVal) (b : Block) (i : ℕ) :
    writel s.contents u.block u.regOffset (u.newVal regVal) b i =
      if (Call.update u).Names b i then u.given.getLsbD (i - 8 * u.regOffset)
      else s.contents b i := by
  have hwrite := writel_names (c := s.contents) (.update u) (v := u.newVal regVal)
    (fun k hk hmask => by
      have hmask : u.regMask.getLsbD k = false := hmask
      rw [u.newVal_getLsbD, hmask, (h.locked n u regVal hphase).2]
      exact readl_getLsbD hk) b i
  refine hwrite.trans ?_
  by_cases hnames : (Call.update u).Names b i
  · rw [if_pos hnames, if_pos hnames]
    exact (u.newVal_getLsbD regVal _).trans (if_pos hnames.2.2)
  · rw [if_neg hnames, if_neg hnames]

theorem reset_names {mask v : BitVec 32} {value : Bool}
    (hkeep : ∀ k < 32, mask.getLsbD k = false →
      v.getLsbD k = c .lpSubsys (8 * emmcRegOffset + k))
    (hset : ∀ k, mask.getLsbD k = true → v.getLsbD k = value) (b : Block) (i : ℕ) :
    writel c .lpSubsys emmcRegOffset v b i =
      if (Call.mEmmcReset emmcRegOffset mask).Names b i then value else c b i := by
  refine (writel_names (.mEmmcReset emmcRegOffset mask) hkeep b i).trans ?_
  by_cases hnames : (Call.mEmmcReset emmcRegOffset mask).Names b i
  · rw [if_pos hnames, if_pos hnames]
    exact hset _ hnames.2.2
  · rw [if_neg hnames, if_neg hnames]

theorem resetAssert_names {mask regValue : BitVec 32}
    (hkeep : ∀ k < 32, mask.getLsbD k = false →
      regValue.getLsbD k = c .lpSubsys (8 * emmcRegOffset + k)) (b : Block) (i : ℕ) :
    writel c .lpSubsys emmcRegOffset (regValue ||| mask) b i =
      if (Call.mEmmcReset emmcRegOffset mask).Names b i then true else c b i := by
  refine reset_names (fun k hk hmask => ?_) (fun k hmask => ?_) b i
  · rw [BitVec.getLsbD_or, hmask, Bool.or_false]
    exact hkeep k hk hmask
  · rw [BitVec.getLsbD_or, hmask, Bool.or_true]

theorem resetDeassert_names {mask regValue : BitVec 32}
    (hkeep : ∀ k < 32, mask.getLsbD k = false →
      regValue.getLsbD k = c .lpSubsys (8 * emmcRegOffset + k)) (b : Block) (i : ℕ) :
    writel c .lpSubsys emmcRegOffset (regValue &&& ~~~mask) b i =
      if (Call.mEmmcReset emmcRegOffset mask).Names b i then false else c b i := by
  refine reset_names (fun k hk hmask => ?_) (fun k hmask => ?_) b i
  · rw [BitVec.getLsbD_and, BitVec.getLsbD_not, hmask, decide_eq_true hk]
    exact (Bool.and_true _).trans (hkeep k hk hmask)
  · rw [BitVec.getLsbD_and, BitVec.getLsbD_not, hmask, Bool.not_true, Bool.and_false,
      Bool.and_false]

theorem pcieWrite_same {val : BitVec 32} (h : readl c .sysctrl val.toNat = miscCtrlOffset) :
    sysctrlRegWrite c val miscCtrlOffset = c := by
  unfold sysctrlRegWrite writel
  rw [writeWord_same h, Function.update_eq_self]

theorem not_asserts {p : Phase} (hp : ∀ mask regValue, p ≠ .resetAsserted mask regValue)
    (b : Block) (i : ℕ) : ¬ p.Asserts b i := by
  rintro ⟨mask, regValue, heq, -⟩
  exact hp mask regValue heq

theorem ne_of_locked {b b' : Block} {m : ℕ} (hfree : s.lock b' = none) (hlock : s.lock b = some m) :
    b ≠ b' := by
  rintro rfl
  rw [hfree] at hlock
  cases hlock

theorem Step.frame {e : ℕ × Call} (h : Inv init s) (hund : Undisturbed s e)
    (hstep : Step ready s e s') (b : Block) (i : ℕ) (hnames : ¬ e.2.Names b i) :
    s'.contents b i = s.contents b i := by
  cases hstep with
  | refused => rfl
  | updateRead => rfl
  | updateWrite hphase => exact (h.updateWrite_names hphase b i).trans (if_neg hnames)
  | resetRead => rfl
  | resetAssert hphase =>
    rw [Undisturbed, hphase] at hund
    exact (resetAssert_names hund b i).trans (if_neg hnames)
  | resetDeassert hphase =>
    rw [Undisturbed, hphase] at hund
    exact (resetDeassert_names hund b i).trans (if_neg hnames)
  | pcieRead => rfl
  | pcieWrite hphase =>
    rw [Undisturbed, hphase] at hund
    exact congrFun (congrFun (pcieWrite_same hund.1) b) i

theorem Inv.step {e : ℕ × Call} (h : Inv init s) (hund : Undisturbed s e)
    (hstep : Step ready s e s') : Inv init s' := by
  cases hstep with
  | refused => exact h
  | @updateRead n u hidle _ hfree =>
    refine ⟨fun m v regVal hphase => ?_, fun b i hassert => ?_⟩
    · change Function.update s.lock u.block (some n) v.block = some m ∧ _
      by_cases hm : m = n
      · subst hm
        cases (Function.update_self m _ s.phase).symm.trans hphase
        exact ⟨Function.update_self _ _ _, rfl⟩
      · have hphase : s.phase m = .updating v regVal :=
          (Function.update_of_ne hm _ _).symm.trans hphase
        obtain ⟨hlock, hval⟩ := h.locked m v regVal hphase
        have hne : v.block ≠ u.block := ne_of_locked hfree hlock
        exact ⟨(Function.update_of_ne hne _ _).trans hlock, hval⟩
    · refine h.settled b i (not_asserts_of_update (not_asserts ?_ b i) hassert)
      rw [hidle]
      exact nofun
  | @updateWrite n u regVal hphase =>
    have hlock := (h.locked n u regVal hphase).1
    refine ⟨h.locked_keep nofun fun b m hm hne => ?_,
      h.settled_done (fun b i hnames => ?_) (fun b i hnames => ?_) fun b i _ => ?_⟩
    · have hb : b ≠ u.block := by
        intro heq
        rw [heq, hlock, Option.some.injEq] at hm
        exact hne hm.symm
      exact ⟨(Function.update_of_ne hb _ _).trans hm, writel_of_ne hb⟩
    · exact (h.updateWrite_names hphase b i).trans (if_pos hnames)
    · exact (h.updateWrite_names hphase b i).trans (if_neg hnames)
    · rw [hphase]
      exact not_asserts (p := .updating u regVal) nofun b i
  | @resetRead n mask hidle _ hfree =>
    refine ⟨h.locked_keep nofun fun b m hm _ => ⟨hm, rfl⟩,
      fun b i hassert => h.settled b i (not_asserts_of_update (not_asserts ?_ b i) hassert)⟩
    rw [hidle]
    exact nofun
  | @resetAssert n mask regValue hphase hfree =>
    rw [Undisturbed, hphase] at hund
    refine ⟨h.locked_keep nofun fun b m hm _ => ?_,
      fun b i hassert => ?_⟩
    · exact ⟨hm, writel_of_ne (ne_of_locked hfree hm)⟩
    · have hnames : ¬ (Call.mEmmcReset emmcRegOffset mask).Names b i := by
        intro hnames
        exact hassert n ⟨_, _, Function.update_self _ _ _, hnames⟩
      refine ((resetAssert_names hund b i).trans (if_neg hnames)).trans ?_
      refine h.settled b i (not_asserts_of_update ?_ hassert)
      rw [hphase]
      exact not_asserts (p := .resetRead mask regValue) nofun b i
  | @resetDeassert n mask regValue hphase hfree =>
    rw [Undisturbed, hphase] at hund
    refine ⟨h.locked_keep nofun fun b m hm _ => ?_,
      h.settled_done (fun b i hnames => ?_) (fun b i hnames => ?_) fun b i hnames => ?_⟩
    · exact ⟨hm, writel_of_ne (ne_of_locked hfree hm)⟩
    · refine ((resetDeassert_names hund b i).trans (if_pos hnames)).trans ?_
      exact BitVec.getLsbD_zero.symm
    · exact (resetDeassert_names hund b i).trans (if_neg hnames)
    · rw [hphase]
      rintro ⟨mask', regValue', heq, hnames'⟩
      cases heq
      exact hnames hnames'
  | @pcieRead n hidle _ hfree =>
    refine ⟨h.locked_keep nofun fun b m hm _ => ⟨hm, rfl⟩,
      fun b i hassert => h.settled b i (not_asserts_of_update (not_asserts ?_ b i) hassert)⟩
    rw [hidle]
    exact nofun
  | @pcieWrite n val hphase hfree =>
    rw [Undisturbed, hphase] at hund
    have hsame := pcieWrite_same hund.1
    refine ⟨h.locked_keep nofun fun b m hm _ => ⟨hm, congrFun hsame b⟩,
      h.settled_done (fun b i hnames => ?_) (fun b i _ => congrFun (congrFun hsame b) i)
        fun b i _ => ?_⟩
    · refine (congrFun (congrFun hsame b) i).trans ?_
      obtain ⟨rfl, hlow, hbit⟩ := hnames
      -- the mask has one bit
      have hlt := BitVec.lt_of_getLsbD hbit
      have hone : i - 8 * miscCtrlOffset.toNat = pcieRstDomainBit := by
        change (1#32 <<< pcieRstDomainBit).getLsbD (i - 8 * miscCtrlOffset.toNat) = true at hbit
        rw [BitVec.getLsbD_shiftLeft, BitVec.getLsbD_one] at hbit
        simp only [Bool.and_eq_true, Bool.not_eq_true', decide_eq_true_eq,
          decide_eq_false_iff_not] at hbit
        omega
      have hi : i = 8 * miscCtrlOffset.toNat + pcieRstDomainBit := by
        change 8 * miscCtrlOffset.toNat ≤ i at hlow
        omega
      have hall : (BitVec.allOnes 32).getLsbD pcieRstDomainBit = true := by decide
      change s.contents .sysctrl i = (BitVec.allOnes 32).getLsbD (i - 8 * miscCtrlOffset.toNat)
      rw [hone, hall, hi]
      exact hund.2
    · rw [hphase]
      exact not_asserts (p := .pcieRead val) nofun b i

theorem Initial.inv (h : Initial init s) : Inv init s where
  locked n u regVal hphase := by
    rw [h.phase n] at hphase
    cases hphase
  settled b i _ := by
    rw [h.contents, h.done]
    rfl

theorem Reachable.inv (hreach : ((system ready init).restrict Undisturbed).Reachable s) :
    Inv init s :=
  hreach.invariant (fun _ hinit => Initial.inv hinit)
    fun _ _ _ _ hinv hstep => hinv.step hstep.1 hstep.2

/-- As long as no reset and no initialisation of PCIe is disturbed, a call changes bits that it
names only, and every bit is what the last completed call made it. -/
theorem sharedRegs_updated (ready : Block → Bool) (init : Contents) :
    ∀ s, ((system ready init).restrict Undisturbed).Reachable s →
      (∀ b i, (∀ n, ¬ (s.phase n).Asserts b i) → s.contents b i = lastGiven init s.done b i) ∧
      ∀ e s', Undisturbed s e → Step ready s e s' →
        ∀ b i, ¬ e.2.Names b i → s'.contents b i = s.contents b i :=
  fun _ hreach => ⟨(Reachable.inv hreach).settled,
    fun _ _ hund hstep => hstep.frame (Reachable.inv hreach) hund⟩

def blank : State where
  contents _ _ := false
  lock _ := none
  phase _ := .idle
  done := []

theorem blank_initial : Initial (fun _ _ => false) blank :=
  ⟨rfl, fun _ => rfl, fun _ => rfl, rfl⟩

def setBit1 : Update := .lpSubsysRegSetBits emmcRegOffset 2 1

theorem sharedRegs_updated_bit :
    ((blank.updateRead 0 setBit1).updateWrite 0 setBit1 0).contents .lpSubsys
      (8 * emmcRegOffset + 1) = true := by
  have hread : ((system (fun _ => true) fun _ _ => false).restrict Undisturbed).Reachable
      (blank.updateRead 0 setBit1) :=
    .step (a := (0, .update setBit1)) (.init blank_initial)
      ⟨trivial, .updateRead rfl rfl rfl⟩
  have hzero : (blank.updateRead 0 setBit1).phase 0 = .updating setBit1 0 :=
    congrArg (Phase.updating setBit1) (by decide)
  have hwrite : ((system (fun _ => true) fun _ _ => false).restrict Undisturbed).Reachable
      ((blank.updateRead 0 setBit1).updateWrite 0 setBit1 0) :=
    .step (a := (0, .update setBit1)) hread ⟨trivial, .updateWrite hzero⟩
  have hidle : ∀ n, ((blank.updateRead 0 setBit1).updateWrite 0 setBit1 0).phase n = .idle := by
    intro n
    by_cases hn : n = 0
    · rw [hn]
      rfl
    · exact (Function.update_of_ne hn _ _).trans (Function.update_of_ne hn _ _)
  have hsettled := (sharedRegs_updated (fun _ => true) (fun _ _ => false) _ hwrite).1
    .lpSubsys (8 * emmcRegOffset + 1) fun n => by
      rw [hidle n]
      exact not_asserts (p := .idle) nofun _ _
  exact hsettled.trans (by decide)

/-- The reset of the eMMC undoes the update of another client between its read and its writes;
the initialisation of PCIe writes the offset of `MISC_CTRL` to the register at offset 8. -/
theorem sharedRegs_lost :
    (∃ s, (system (fun _ => true) fun _ _ => false).Reachable s ∧ (∀ n, s.phase n = .idle) ∧
      s.contents .lpSubsys (8 * emmcRegOffset + 1) = false ∧
      lastGiven (fun _ _ => false) s.done .lpSubsys (8 * emmcRegOffset + 1) = true) ∧
    ∃ s, (system (fun _ => true) fun _ _ => false).Reachable s ∧ (∀ n, s.phase n = .idle) ∧
      s.contents .sysctrl (8 * miscCtrlOffset.toNat + pcieRstDomainBit) = false ∧
      s.contents .sysctrl (8 * 8 + 9) = true ∧ s.done = [.hisiPcieInitHip] := by
  constructor
  · have h1 : (system (fun _ => true) fun _ _ => false).Reachable (blank.resetRead 0 1) :=
      .step (.init blank_initial) (.resetRead rfl rfl rfl)
    have h2 := TransitionSystem.Reachable.step h1 (.updateRead (n := 1) (u := setBit1) rfl rfl rfl)
    have hread : ((blank.resetRead 0 1).updateRead 1 setBit1).phase 1 = .updating setBit1 0 :=
      congrArg (Phase.updating setBit1) (by decide)
    have h3 := TransitionSystem.Reachable.step h2 (.updateWrite hread)
    have hreset : (((blank.resetRead 0 1).updateRead 1 setBit1).updateWrite 1 setBit1 0).phase 0 =
        .resetRead 1 0 := congrArg (Phase.resetRead 1) (by decide)
    have h4 := TransitionSystem.Reachable.step h3 (.resetAssert hreset rfl)
    have hassert : ((((blank.resetRead 0 1).updateRead 1 setBit1).updateWrite 1 setBit1
        0).resetAssert 0 1 0).phase 0 = .resetAsserted 1 (0 ||| 1) := rfl
    have h5 := TransitionSystem.Reachable.step h4 (.resetDeassert hassert rfl)
    refine ⟨_, h5, fun n => ?_, by decide, by decide⟩
    match n with
    | 0 => rfl
    | 1 => rfl
    | n + 2 => rfl
  · have h1 : (system (fun _ => true) fun _ _ => false).Reachable (blank.pcieRead 0) :=
      .step (.init blank_initial) (.pcieRead rfl rfl rfl)
    have hread : (blank.pcieRead 0).phase 0 = .pcieRead 8 := congrArg Phase.pcieRead (by decide)
    have h2 := TransitionSystem.Reachable.step h1 (.pcieWrite hread rfl)
    refine ⟨_, h2, fun n => ?_, by decide, by decide, rfl⟩
    match n with
    | 0 => rfl
    | n + 1 => rfl

end HiMpu.SharedRegs
