import HiMpu.BmTypes

/-!
# The pin multiplexing of the modules

`bdinfo_set_module_iocfg` and `bdinfo_iocfg_check` of `drivers/comm/bdinfo.c`, with the accessors of
the register blocks that they use.  Both walk the entry of a module in the configuration table;
the check goes through `bdinfo_get_ioreg_val_by_index`.
-/

namespace HiMpu.Iocfg

def einval : ℤ := 22
def enodev : ℤ := 19
def efault : ℤ := 14
def ioMultiRegMaxCnt : ℕ := 28
def ioMultiModuleMax : ℕ := 106

inductive Block where
  | iocfgR
  | iocfgT
  | lp
  | sysctl
  deriving DecidableEq

def regBlock : BitVec 32 → Option Block
  | 0 => some .iocfgR
  | 1 => some .iocfgT
  | 2 => some .lp
  | 3 => some .sysctl
  | _ => none

structure Regs where
  mapped : Block → Bool
  word : Block → BitVec 32 → BitVec 32

def Regs.write (s : Regs) (b : Block) (regOffset val : BitVec 32) : Regs :=
  { s with word := Function.update s.word b (Function.update (s.word b) regOffset val) }

/-- `io_config_r_reg_read`, `io_config_t_reg_read`, `lp_subsys_reg_read` and `sysctrl_reg_read`. -/
def blockRead (s : Regs) (b : Block) (regOffset : BitVec 32) : ℤ × Option (BitVec 32) :=
  if s.mapped b then (0, some (s.word b regOffset)) else (-enodev, none)

/-- `io_config_r_reg_read_write` and those of the other blocks. -/
def blockReadWrite (s : Regs) (b : Block) (regOffset regMask val : BitVec 32) : Regs × ℤ :=
  if s.mapped b then (s.write b regOffset (regReadWrite (s.word b regOffset) regMask val), 0)
  else (s, -enodev)

structure IoMultiCfg where
  moduleId : ℕ
  regCnt : ℕ
  regType : ℕ → BitVec 32
  regOffset : ℕ → BitVec 32
  regMask : ℕ → BitVec 32
  regVal : ℕ → BitVec 32

/-- The index of the search is a `u16`; in a table that it cannot count, a search without a hit
does not end. -/
def bdinfoGetModuleCfginfo (table : List IoMultiCfg) (moduleId : ℕ) :
    Option (Option IoMultiCfg) :=
  if moduleId ≥ ioMultiModuleMax then some none
  else
    match (table.take 0x10000).find? fun cfg => moduleId = cfg.moduleId with
    | some cfg => some (some cfg)
    | none => if table.length < 0x10000 then some none else none

def setLoop (cfg : IoMultiCfg) : List ℕ → Regs → Regs × ℤ
  | [], s => (s, 0)
  | i :: is, s =>
    match regBlock (cfg.regType i) with
    | none => (s, -einval)
    | some b =>
      let r := blockReadWrite s b (cfg.regOffset i) (cfg.regMask i) (cfg.regVal i)
      if r.2 ≠ 0 then r else setLoop cfg is r.1

def bdinfoSetIocfgReg (s : Regs) (cfg : IoMultiCfg) : Regs × ℤ :=
  if cfg.regCnt > ioMultiRegMaxCnt then (s, -einval) else setLoop cfg (List.range cfg.regCnt) s

def bdinfoSetModuleIocfg (table : List IoMultiCfg) (s : Regs) (moduleId : ℕ) :
    Option (Regs × ℤ) :=
  match bdinfoGetModuleCfginfo table moduleId with
  | none => none
  | some none => some (s, -efault)
  | some (some cfg) => some (bdinfoSetIocfgReg s cfg)

def bdinfoGetIoregValByIndex (table : List IoMultiCfg) (s : Regs) (moduleId : ℕ)
    (regIndex : BitVec 32) : Option (ℤ × Option (BitVec 32)) :=
  match bdinfoGetModuleCfginfo table moduleId with
  | none => none
  | some none => some (-einval, none)
  | some (some cfg) =>
    if cfg.regCnt > ioMultiRegMaxCnt ∨ regIndex.toNat ≥ cfg.regCnt then some (-einval, none)
    else
      match regBlock (cfg.regType regIndex.toNat) with
      | none => some (-einval, none)
      | some b => some (blockRead s b (cfg.regOffset regIndex.toNat))

def checkLoop (table : List IoMultiCfg) (s : Regs) (moduleId : ℕ) (cfg : IoMultiCfg) :
    List ℕ → Option ℤ
  | [] => some 1
  | i :: is =>
    match bdinfoGetIoregValByIndex table s moduleId (cfg.regOffset i) with
    | none => none
    | some (ret, regVal) =>
      if ret ≠ 0 then some 0
      else if cfg.regVal i ≠ regVal.getD 0 then some 0
      else checkLoop table s moduleId cfg is

def bdinfoIocfgCheck (table : List IoMultiCfg) (s : Regs) (moduleId : ℕ) : Option ℤ :=
  match bdinfoGetModuleCfginfo table moduleId with
  | none => none
  | some none => some 0
  | some (some cfg) => checkLoop table s moduleId cfg (List.range cfg.regCnt)

def IoMultiCfg.reg (cfg : IoMultiCfg) (i : ℕ) : Option Block × BitVec 32 :=
  (regBlock (cfg.regType i), cfg.regOffset i)

def IoMultiCfg.Names (cfg : IoMultiCfg) (i : ℕ) (b : Block) (off : BitVec 32) (k : ℕ) : Prop :=
  cfg.reg i = (some b, off) ∧ (cfg.regMask i).getLsbD k = true

instance (cfg : IoMultiCfg) (i : ℕ) (b : Block) (off : BitVec 32) (k : ℕ) :
    Decidable (cfg.Names i b off k) :=
  inferInstanceAs (Decidable (_ ∧ _))

def IoMultiCfg.Masked (cfg : IoMultiCfg) (b : Block) (off : BitVec 32) (k : ℕ) : Prop :=
  ∃ i < cfg.regCnt, cfg.Names i b off k

structure IoMultiCfg.WellFormed (cfg : IoMultiCfg) : Prop where
  count : cfg.regCnt ≤ ioMultiRegMaxCnt
  valid : ∀ i < cfg.regCnt, ∃ b, regBlock (cfg.regType i) = some b
  once : ∀ i < cfg.regCnt, ∀ j < cfg.regCnt, i ≠ j → cfg.reg i = cfg.reg j →
    cfg.regMask i &&& cfg.regMask j = 0

def IoMultiCfg.ReadsSucceed (cfg : IoMultiCfg) (s : Regs) : Prop :=
  ∀ i < cfg.regCnt, ∀ b, regBlock (cfg.regType i) = some b → s.mapped b = true

def IoMultiCfg.Agrees (cfg : IoMultiCfg) (s : Regs) : Prop :=
  ∀ i < cfg.regCnt, ∀ b, regBlock (cfg.regType i) = some b →
    s.word b (cfg.regOffset i) &&& cfg.regMask i = cfg.regVal i &&& cfg.regMask i

structure CheckCorrect (table : List IoMultiCfg) (moduleId : ℕ) (cfg : IoMultiCfg) : Prop where
  check : ∀ s, cfg.ReadsSucceed s →
    (bdinfoIocfgCheck table s moduleId = some 1 ↔ cfg.Agrees s)
  set_check : ∀ s t t', bdinfoSetModuleIocfg table s moduleId = some (t, 0) →
    cfg.ReadsSucceed t' →
    (∀ b off k, cfg.Masked b off k → (t'.word b off).getLsbD k = (t.word b off).getLsbD k) →
    bdinfoIocfgCheck table t' moduleId = some 1
  frame : ∀ s t ret, bdinfoSetModuleIocfg table s moduleId = some (t, ret) →
    ∀ b off k, ¬ cfg.Masked b off k → (t.word b off).getLsbD k = (s.word b off).getLsbD k

/-- The entry for which the check, which takes offsets for indices and leaves out the masks, asks
for the same bits as the set. -/
structure SameBits (table : List IoMultiCfg) (moduleId : ℕ) (cfg : IoMultiCfg) : Prop where
  known : moduleId < ioMultiModuleMax
  reached : (table.take 0x10000).find? (fun cfg => moduleId = cfg.moduleId) = some cfg
  index : ∀ i < cfg.regCnt, (cfg.regOffset i).toNat < cfg.regCnt
  whole : ∀ i < cfg.regCnt, ∀ k < 32, ∃ j < cfg.regCnt,
    cfg.reg j = cfg.reg (cfg.regOffset i).toNat ∧ (cfg.regMask j).getLsbD k = true ∧
      (cfg.regVal j).getLsbD k = (cfg.regVal i).getLsbD k
  covered : ∀ i < cfg.regCnt, ∀ k < 32, (cfg.regMask i).getLsbD k = true → ∃ j < cfg.regCnt,
    cfg.reg (cfg.regOffset j).toNat = cfg.reg i ∧
      (cfg.regVal j).getLsbD k = (cfg.regVal i).getLsbD k

section Set

variable {cfg : IoMultiCfg} {s : Regs} {is : List ℕ} {b : Block} {off : BitVec 32} {k : ℕ}

theorem write_word (s : Regs) (b b' : Block) (off off' val : BitVec 32) :
    (s.write b off val).word b' off' =
      if b' = b ∧ off' = off then val else s.word b' off' := by
  unfold Regs.write
  dsimp only
  by_cases hblock : b' = b
  · subst hblock
    by_cases hoff : off' = off
    · subst hoff
      simp
    · simp [hoff]
  · simp [hblock]

theorem blockReadWrite_bit (hmapped : s.mapped b = true) (i : ℕ)
    (hblock : regBlock (cfg.regType i) = some b) (b' : Block) (off : BitVec 32) (k : ℕ) :
    ((blockReadWrite s b (cfg.regOffset i) (cfg.regMask i)
        (cfg.regVal i)).1.word b' off).getLsbD k =
      if cfg.Names i b' off k then (cfg.regVal i).getLsbD k else (s.word b' off).getLsbD k := by
  have hnames : cfg.Names i b' off k ↔
      (b' = b ∧ off = cfg.regOffset i) ∧ (cfg.regMask i).getLsbD k = true := by
    unfold IoMultiCfg.Names IoMultiCfg.reg
    rw [hblock, Prod.mk.injEq, Option.some.injEq, eq_comm (a := b), eq_comm (a := cfg.regOffset i)]
  unfold blockReadWrite
  rw [if_pos hmapped, write_word, if_congr hnames rfl rfl]
  by_cases hreg : b' = b ∧ off = cfg.regOffset i
  · rw [if_pos hreg, getLsbD_regReadWrite]
    simp [hreg.1, hreg.2]
  · rw [if_neg hreg, if_neg (fun h => hreg h.1)]

theorem setLoop_cons (cfg : IoMultiCfg) (i : ℕ) (is : List ℕ) (s : Regs) :
    setLoop cfg (i :: is) s = (s, -einval) ∨
      setLoop cfg (i :: is) s = (s, -enodev) ∨
      ∃ b, regBlock (cfg.regType i) = some b ∧ s.mapped b = true ∧
        setLoop cfg (i :: is) s = setLoop cfg is
          (blockReadWrite s b (cfg.regOffset i) (cfg.regMask i) (cfg.regVal i)).1 := by
  rw [setLoop]
  cases hblock : regBlock (cfg.regType i) with
  | none => exact Or.inl rfl
  | some b =>
    right
    unfold blockReadWrite
    by_cases hmapped : s.mapped b = true
    · right
      refine ⟨b, rfl, hmapped, ?_⟩
      simp only [if_pos hmapped, ne_eq, not_true, if_false]
    · left
      have hfail : -enodev ≠ 0 := by decide
      simp only [if_neg hmapped, if_pos hfail]

theorem setLoop_frame (hfree : ∀ i ∈ is, ¬ cfg.Names i b off k) :
    ((setLoop cfg is s).1.word b off).getLsbD k = (s.word b off).getLsbD k := by
  induction is generalizing s with
  | nil => rfl
  | cons i is ih =>
    rcases setLoop_cons cfg i is s with hr | hr | ⟨b', hblock, hmapped, hr⟩
    · rw [hr]
    · rw [hr]
    · rw [hr, ih fun j hj => hfree j (List.mem_cons_of_mem i hj),
        blockReadWrite_bit hmapped i hblock, if_neg (hfree i List.mem_cons_self)]

theorem setLoop_bits (hnodup : is.Nodup) (hvalid : ∀ i ∈ is, i < cfg.regCnt)
    (hwf : cfg.WellFormed)
    (hret : (setLoop cfg is s).2 = 0) :
    ∀ i ∈ is, cfg.Names i b off k →
      ((setLoop cfg is s).1.word b off).getLsbD k = (cfg.regVal i).getLsbD k := by
  induction is generalizing s with
  | nil =>
    intro i hi
    exact absurd hi List.not_mem_nil
  | cons i is ih =>
    obtain ⟨hnot, hnodup⟩ := List.nodup_cons.mp hnodup
    intro j hj hnames
    rcases setLoop_cons cfg i is s with hr | hr | ⟨b', hblock, hmapped, hr⟩
    · rw [hr] at hret
      have hfail : -einval ≠ 0 := by decide
      exact absurd hret hfail
    · rw [hr] at hret
      have hfail : -enodev ≠ 0 := by decide
      exact absurd hret hfail
    · rw [hr] at hret ⊢
      rcases List.mem_cons.mp hj with heq | hj
      · subst heq
        have hfree : ∀ i ∈ is, ¬ cfg.Names i b off k := by
          intro i hi hother
          have hne : j ≠ i := by
            intro heq
            exact hnot (heq ▸ hi)
          have hdisjoint := hwf.once j (hvalid j List.mem_cons_self) i
            (hvalid i (List.mem_cons_of_mem j hi)) hne (hnames.1.trans hother.1.symm)
          have hbit := congrArg (fun w : BitVec 32 => w.getLsbD k) hdisjoint
          simp [hnames.2, hother.2] at hbit
        rw [setLoop_frame hfree, blockReadWrite_bit hmapped j hblock, if_pos hnames]
      · exact ih hnodup (fun i hi => hvalid i (List.mem_cons_of_mem _ hi)) hret j hj hnames

theorem setLoop_ret (hblocks : ∀ i ∈ is, ∃ b, regBlock (cfg.regType i) = some b)
    (hmapped : ∀ b, s.mapped b = true) : (setLoop cfg is s).2 = 0 := by
  induction is generalizing s with
  | nil => rfl
  | cons i is ih =>
    obtain ⟨b, hblock⟩ := hblocks i List.mem_cons_self
    have hnext : ∀ b', (blockReadWrite s b (cfg.regOffset i) (cfg.regMask i)
        (cfg.regVal i)).1.mapped b' = true := by
      intro b'
      unfold blockReadWrite
      rw [if_pos (hmapped b)]
      exact hmapped b'
    have hrest := ih (fun j hj => hblocks j (List.mem_cons_of_mem i hj)) hnext
    rw [setLoop, hblock]
    unfold blockReadWrite at hrest ⊢
    simp only [if_pos (hmapped b), ne_eq, not_true, if_false] at hrest ⊢
    exact hrest

theorem agrees_iff (cfg : IoMultiCfg) (s : Regs) :
    cfg.Agrees s ↔ ∀ i < cfg.regCnt, ∀ b off k, cfg.Names i b off k →
      (s.word b off).getLsbD k = (cfg.regVal i).getLsbD k := by
  constructor
  · intro h i hi b off k hnames
    obtain ⟨hblock, hoff⟩ := Prod.mk.injEq .. ▸ hnames.1
    have hbit := congrArg (fun w : BitVec 32 => w.getLsbD k) (h i hi b hblock)
    rw [hoff] at hbit
    simpa [hnames.2] using hbit
  · intro h i hi b hblock
    apply BitVec.eq_of_getLsbD_eq
    intro k hk
    rw [BitVec.getLsbD_and, BitVec.getLsbD_and]
    cases hmask : (cfg.regMask i).getLsbD k with
    | true =>
      have hreg : cfg.reg i = (some b, cfg.regOffset i) := by rw [IoMultiCfg.reg, hblock]
      rw [h i hi b _ k ⟨hreg, hmask⟩]
    | false => rw [Bool.and_false, Bool.and_false]

theorem bdinfoSetIocfgReg_agrees (hwf : cfg.WellFormed)
    (hret : (bdinfoSetIocfgReg s cfg).2 = 0) : cfg.Agrees (bdinfoSetIocfgReg s cfg).1 := by
  have hcount : ¬ cfg.regCnt > ioMultiRegMaxCnt := not_lt.mpr hwf.count
  unfold bdinfoSetIocfgReg at hret ⊢
  rw [if_neg hcount] at hret ⊢
  rw [agrees_iff]
  intro i hi b off k hnames
  exact setLoop_bits List.nodup_range (fun j hj => List.mem_range.mp hj) hwf hret i
    (List.mem_range.mpr hi) hnames

theorem exists_agrees (hwf : cfg.WellFormed) : ∃ t, cfg.ReadsSucceed t ∧ cfg.Agrees t := by
  let s₀ : Regs := ⟨fun _ => true, fun _ _ => 0⟩
  have hret : (bdinfoSetIocfgReg s₀ cfg).2 = 0 := by
    have hcount : ¬ cfg.regCnt > ioMultiRegMaxCnt := not_lt.mpr hwf.count
    unfold bdinfoSetIocfgReg
    rw [if_neg hcount]
    exact setLoop_ret (fun i hi => hwf.valid i (List.mem_range.mp hi)) fun _ => rfl
  have hagrees := bdinfoSetIocfgReg_agrees hwf hret
  exact ⟨⟨fun _ => true, (bdinfoSetIocfgReg s₀ cfg).1.word⟩, fun _ _ _ _ => rfl, hagrees⟩

end Set

section Check

variable {table : List IoMultiCfg} {moduleId : ℕ} {cfg : IoMultiCfg} {s : Regs}

def IoMultiCfg.Checked (cfg : IoMultiCfg) (s : Regs) (i : ℕ) : Prop :=
  (cfg.regOffset i).toNat < cfg.regCnt ∧
    ∀ b off, cfg.reg (cfg.regOffset i).toNat = (some b, off) → s.word b off = cfg.regVal i

theorem checkLoop_cons (hfound : bdinfoGetModuleCfginfo table moduleId = some (some cfg))
    (hwf : cfg.WellFormed)
    (hreads : cfg.ReadsSucceed s) (i : ℕ) (is : List ℕ) :
    checkLoop table s moduleId cfg (i :: is) = some 1 ↔
      cfg.Checked s i ∧ checkLoop table s moduleId cfg is = some 1 := by
  have hfail : (0 : ℤ) ≠ 1 := by decide
  have hcount : ¬ cfg.regCnt > ioMultiRegMaxCnt := not_lt.mpr hwf.count
  rw [checkLoop, bdinfoGetIoregValByIndex, hfound]
  dsimp only
  by_cases hindex : (cfg.regOffset i).toNat < cfg.regCnt
  · have hin : ¬ (cfg.regCnt > ioMultiRegMaxCnt ∨ (cfg.regOffset i).toNat ≥ cfg.regCnt) := by
      rw [not_or]
      exact ⟨hcount, not_le.mpr hindex⟩
    obtain ⟨b, hblock⟩ := hwf.valid _ hindex
    have hread : blockRead s b (cfg.regOffset (cfg.regOffset i).toNat) =
        (0, some (s.word b (cfg.regOffset (cfg.regOffset i).toNat))) := by
      unfold blockRead
      rw [if_pos (hreads _ hindex b hblock)]
    have hchecked : cfg.Checked s i ↔
        cfg.regVal i = s.word b (cfg.regOffset (cfg.regOffset i).toNat) := by
      unfold IoMultiCfg.Checked IoMultiCfg.reg
      rw [hblock]
      constructor
      · intro h
        exact (h.2 b _ rfl).symm
      · intro h
        refine ⟨hindex, ?_⟩
        intro b' off heq
        rw [Prod.mk.injEq, Option.some.injEq] at heq
        rw [← heq.1, ← heq.2, h]
    rw [if_neg hin, hblock, hchecked]
    dsimp only
    rw [hread]
    dsimp only
    rw [if_neg (not_not.mpr rfl), Option.getD_some]
    by_cases hval : cfg.regVal i = s.word b (cfg.regOffset (cfg.regOffset i).toNat)
    · rw [if_neg (not_not.mpr hval)]
      exact (and_iff_right hval).symm
    · rw [if_pos hval]
      exact iff_of_false (by simp) fun h => hval h.1
  · have hout : cfg.regCnt > ioMultiRegMaxCnt ∨ (cfg.regOffset i).toNat ≥ cfg.regCnt :=
      Or.inr (not_lt.mp hindex)
    have herr : -einval ≠ 0 := by decide
    rw [if_pos hout]
    dsimp only
    rw [if_pos herr]
    exact iff_of_false (by simp) fun h => hindex h.1.1

theorem check_iff (hfound : bdinfoGetModuleCfginfo table moduleId = some (some cfg))
    (hwf : cfg.WellFormed)
    (hreads : cfg.ReadsSucceed s) :
    bdinfoIocfgCheck table s moduleId = some 1 ↔ ∀ i < cfg.regCnt, cfg.Checked s i := by
  have hloop : ∀ is : List ℕ, checkLoop table s moduleId cfg is = some 1 ↔
      ∀ i ∈ is, cfg.Checked s i := by
    intro is
    induction is with
    | nil => simp [checkLoop]
    | cons i is ih => rw [checkLoop_cons hfound hwf hreads, ih, List.forall_mem_cons]
  rw [bdinfoIocfgCheck, hfound]
  exact (hloop _).trans (by simp only [List.mem_range])

def Regs.flip (s : Regs) (b : Block) (off : BitVec 32) (k : ℕ) : Regs :=
  s.write b off (s.word b off ^^^ BitVec.twoPow 32 k)

theorem flip_bit (s : Regs) (b b' : Block) (off off' : BitVec 32) {k k' : ℕ} (hk : k < 32) :
    ((s.flip b off k).word b' off').getLsbD k' =
      if b' = b ∧ off' = off ∧ k' = k then !(s.word b' off').getLsbD k'
      else (s.word b' off').getLsbD k' := by
  unfold Regs.flip
  rw [write_word]
  by_cases hreg : b' = b ∧ off' = off
  · rw [if_pos hreg, BitVec.getLsbD_xor, BitVec.getLsbD_twoPow, hreg.1, hreg.2]
    by_cases heq : k' = k
    · simp [heq, hk]
    · simp [heq, Ne.symm heq]
  · have hnot : ¬ (b' = b ∧ off' = off ∧ k' = k) := fun h => hreg ⟨h.1, h.2.1⟩
    rw [if_neg hreg, if_neg hnot]

theorem cfginfo_found (hknown : moduleId < ioMultiModuleMax)
    (hreached : (table.take 0x10000).find? (fun cfg => moduleId = cfg.moduleId) = some cfg) :
    bdinfoGetModuleCfginfo table moduleId = some (some cfg) := by
  unfold bdinfoGetModuleCfginfo
  rw [if_neg (not_le.mpr hknown), hreached]

theorem cfginfo_some {cfg' : IoMultiCfg}
    (hentry : table.find? (fun cfg => moduleId = cfg.moduleId) = some cfg)
    (hfound : bdinfoGetModuleCfginfo table moduleId = some (some cfg')) :
    cfg' = cfg ∧ moduleId < ioMultiModuleMax ∧
      (table.take 0x10000).find? (fun cfg => moduleId = cfg.moduleId) = some cfg := by
  unfold bdinfoGetModuleCfginfo at hfound
  by_cases hknown : moduleId ≥ ioMultiModuleMax
  · rw [if_pos hknown] at hfound
    exact absurd hfound (by simp)
  rw [if_neg hknown] at hfound
  cases hreached : (table.take 0x10000).find? (fun cfg => moduleId = cfg.moduleId) with
  | none =>
    rw [hreached] at hfound
    dsimp only at hfound
    split at hfound
    · exact absurd hfound (by simp)
    · exact absurd hfound (by simp)
  | some c =>
    rw [hreached] at hfound
    have hsplit := List.take_append_drop 0x10000 table
    rw [← hsplit, List.find?_append, hreached, Option.some_or] at hentry
    have hc : c = cfg := Option.some.inj hentry
    have hc' : c = cfg' := Option.some.inj (Option.some.inj hfound)
    exact ⟨hc'.symm.trans hc, not_le.mp hknown, by rw [hc]⟩

theorem wellFormed_entry (hwf : ∀ c ∈ table, c.WellFormed)
    (hentry : table.find? (fun cfg => moduleId = cfg.moduleId) = some cfg) : cfg.WellFormed :=
  hwf cfg (List.mem_of_find?_eq_some hentry)

theorem set_frame {t : Regs} {ret : ℤ} {b : Block} {off : BitVec 32} {k : ℕ}
    (hentry : table.find? (fun cfg => moduleId = cfg.moduleId) = some cfg)
    (hset : bdinfoSetModuleIocfg table s moduleId = some (t, ret))
    (hfree : ¬ cfg.Masked b off k) :
    (t.word b off).getLsbD k = (s.word b off).getLsbD k := by
  unfold bdinfoSetModuleIocfg at hset
  cases hfound : bdinfoGetModuleCfginfo table moduleId with
  | none =>
    rw [hfound] at hset
    exact absurd hset (by simp)
  | some found =>
    rw [hfound] at hset
    cases found with
    | none =>
      have heq := Option.some.inj hset
      rw [← (Prod.mk.inj heq).1]
    | some cfg' =>
      obtain ⟨hsame, -, -⟩ := cfginfo_some hentry hfound
      have heq := Option.some.inj hset
      rw [hsame] at heq
      have ht : t = (bdinfoSetIocfgReg s cfg).1 := by rw [heq]
      rw [ht, bdinfoSetIocfgReg]
      split
      · rfl
      · apply setLoop_frame
        intro i hi hnames
        exact hfree ⟨i, List.mem_range.mp hi, hnames⟩

theorem CheckCorrect.sameBits (hwf : cfg.WellFormed)
    (hentry : table.find? (fun cfg => moduleId = cfg.moduleId) = some cfg)
    (h : CheckCorrect table moduleId cfg) : SameBits table moduleId cfg := by
  obtain ⟨t, hreads, hagrees⟩ := exists_agrees hwf
  have hone := (h.check t hreads).mpr hagrees
  have hfound : bdinfoGetModuleCfginfo table moduleId = some (some cfg) ∧
      moduleId < ioMultiModuleMax ∧
      (table.take 0x10000).find? (fun cfg => moduleId = cfg.moduleId) = some cfg := by
    cases hcase : bdinfoGetModuleCfginfo table moduleId with
    | none =>
      rw [bdinfoIocfgCheck, hcase] at hone
      exact absurd hone (by simp)
    | some found =>
      cases found with
      | none =>
        rw [bdinfoIocfgCheck, hcase] at hone
        exact absurd hone (by simp)
      | some cfg' =>
        obtain ⟨hsame, hknown, hreached⟩ := cfginfo_some hentry hcase
        exact ⟨by rw [hsame], hknown, hreached⟩
  obtain ⟨hfound, hknown, hreached⟩ := hfound
  have hverdict : ∀ s, cfg.ReadsSucceed s → (cfg.Agrees s ↔ ∀ i < cfg.regCnt, cfg.Checked s i) :=
    fun s hs => (h.check s hs).symm.trans (check_iff hfound hwf hs)
  have hchecked := (hverdict t hreads).mp hagrees
  have hbits := (agrees_iff cfg t).mp hagrees
  constructor
  · exact hknown
  · exact hreached
  · intro i hi
    exact (hchecked i hi).1
  · intro i hi k hk
    obtain ⟨b, hblock⟩ := hwf.valid _ (hchecked i hi).1
    have hreg : cfg.reg (cfg.regOffset i).toNat =
        (some b, cfg.regOffset (cfg.regOffset i).toNat) := by rw [IoMultiCfg.reg, hblock]
    have hval := (hchecked i hi).2 b _ hreg
    by_cases hmasked : cfg.Masked b (cfg.regOffset (cfg.regOffset i).toNat) k
    · obtain ⟨j, hj, hnames⟩ := hmasked
      refine ⟨j, hj, hnames.1.trans hreg.symm, hnames.2, ?_⟩
      rw [← hbits j hj _ _ k hnames, hval]
    · -- The set leaves this bit free, and the check does not.
      have hagrees' : cfg.Agrees (t.flip b (cfg.regOffset (cfg.regOffset i).toNat) k) := by
        rw [agrees_iff]
        intro j hj b' off' k' hnames
        rw [flip_bit _ _ _ _ _ hk, if_neg]
        · exact hbits j hj b' off' k' hnames
        · rintro ⟨rfl, rfl, rfl⟩
          exact hmasked ⟨j, hj, hnames⟩
      have hreads' : cfg.ReadsSucceed (t.flip b (cfg.regOffset (cfg.regOffset i).toNat) k) := hreads
      have hval' := ((hverdict _ hreads').mp hagrees' i hi).2 b _ hreg
      have hbit := congrArg (fun w : BitVec 32 => w.getLsbD k) (hval'.trans hval.symm)
      rw [flip_bit _ _ _ _ _ hk, if_pos ⟨rfl, rfl, rfl⟩] at hbit
      simp at hbit
  · intro i hi k hk hmask
    obtain ⟨b, hblock⟩ := hwf.valid i hi
    have hreg : cfg.reg i = (some b, cfg.regOffset i) := by rw [IoMultiCfg.reg, hblock]
    have hbit := hbits i hi b _ k ⟨hreg, hmask⟩
    by_contra hnone
    have hother : ∀ j < cfg.regCnt, cfg.reg (cfg.regOffset j).toNat ≠ cfg.reg i := by
      intro j hj heq
      have hval := (hchecked j hj).2 b _ (heq.trans hreg)
      rw [hval] at hbit
      exact hnone ⟨j, hj, heq, hbit⟩
    -- The check leaves this bit free, and the set does not.
    have hchecked' : ∀ j < cfg.regCnt, cfg.Checked (t.flip b (cfg.regOffset i) k) j := by
      intro j hj
      refine ⟨(hchecked j hj).1, ?_⟩
      intro b' off' hreg'
      unfold Regs.flip
      rw [write_word, if_neg]
      · exact (hchecked j hj).2 b' off' hreg'
      · rintro ⟨rfl, rfl⟩
        exact hother j hj (hreg'.trans hreg.symm)
    have hreads' : cfg.ReadsSucceed (t.flip b (cfg.regOffset i) k) := hreads
    have hagrees' := (hverdict _ hreads').mpr hchecked'
    have hbit' := (agrees_iff cfg _).mp hagrees' i hi b _ k ⟨hreg, hmask⟩
    rw [flip_bit _ _ _ _ _ hk, if_pos ⟨rfl, rfl, rfl⟩, hbit] at hbit'
    simp at hbit'

theorem SameBits.verdict (h : SameBits table moduleId cfg) :
    cfg.Agrees s ↔ ∀ i < cfg.regCnt, cfg.Checked s i := by
  rw [agrees_iff]
  constructor
  · intro hbits i hi
    refine ⟨h.index i hi, ?_⟩
    intro b off hreg
    apply BitVec.eq_of_getLsbD_eq
    intro k hk
    obtain ⟨j, hj, hsame, hmask, hval⟩ := h.whole i hi k hk
    rw [hbits j hj b off k ⟨hsame.trans hreg, hmask⟩, hval]
  · intro hchecked i hi b off k hnames
    by_cases hk : k < 32
    · obtain ⟨j, hj, hsame, hval⟩ := h.covered i hi k hk hnames.2
      rw [(hchecked j hj).2 b off (hsame.trans hnames.1), hval]
    · rw [BitVec.getLsbD_of_ge _ k (by omega), BitVec.getLsbD_of_ge _ k (by omega)]

theorem check_correct_iff (table : List IoMultiCfg) (moduleId : ℕ) (cfg : IoMultiCfg)
    (hwf : ∀ c ∈ table, c.WellFormed)
    (hentry : table.find? (fun c => moduleId = c.moduleId) = some cfg) :
    CheckCorrect table moduleId cfg ↔ SameBits table moduleId cfg := by
  have hcfg := wellFormed_entry hwf hentry
  constructor
  · exact CheckCorrect.sameBits hcfg hentry
  · intro h
    have hfound := cfginfo_found h.known h.reached
    have hcheck : ∀ s, cfg.ReadsSucceed s →
        (bdinfoIocfgCheck table s moduleId = some 1 ↔ cfg.Agrees s) :=
      fun s hreads => (check_iff hfound hcfg hreads).trans h.verdict.symm
    constructor
    · exact hcheck
    · intro s t t' hset hreads hsame
      rw [bdinfoSetModuleIocfg, hfound, Option.some.injEq] at hset
      have hagrees := bdinfoSetIocfgReg_agrees hcfg (s := s) (by rw [hset])
      rw [hset, agrees_iff] at hagrees
      rw [hcheck t' hreads, agrees_iff]
      intro i hi b off k hnames
      rw [hsame b off k ⟨i, hi, hnames⟩]
      exact hagrees i hi b off k hnames
    · intro s t ret hset b off k hfree
      exact set_frame hentry hset hfree

end Check

def ownReg : IoMultiCfg := ⟨0, 1, fun _ => 2, fun _ => 0, fun _ => BitVec.allOnes 32, fun _ => 5⟩

theorem check_correct_own : CheckCorrect [ownReg] 0 ownReg := by
  apply (check_correct_iff [ownReg] 0 ownReg ?_ rfl).mpr
  · have hone : ∀ i < ownReg.regCnt, ∀ k < 32, ∃ j < ownReg.regCnt,
        ownReg.reg j = ownReg.reg (ownReg.regOffset i).toNat ∧
          (ownReg.regMask j).getLsbD k = true ∧
          (ownReg.regVal j).getLsbD k = (ownReg.regVal i).getLsbD k := by
      intro i _ k hk
      have hmask : (ownReg.regMask 0).getLsbD k = true := by
        simp only [ownReg, BitVec.getLsbD_allOnes, hk, decide_true]
      exact ⟨0, Nat.one_pos, rfl, hmask, rfl⟩
    constructor
    · decide
    · rfl
    · decide
    · exact hone
    · intro i _ k _ _
      exact ⟨0, Nat.one_pos, rfl, rfl⟩
  · intro c hc
    rw [List.mem_singleton.mp hc]
    constructor
    · decide
    · intro i _
      exact ⟨.lp, rfl⟩
    · intro i hi j hj hne
      have hzero : i = 0 := Nat.lt_one_iff.mp hi
      have hzero' : j = 0 := Nat.lt_one_iff.mp hj
      exact absurd (hzero.trans hzero'.symm) hne

def i2c0 : IoMultiCfg :=
  ⟨8, 2, fun _ => 1, fun i => if i = 0 then 0x34 else 0x38, fun _ => 0x03, fun _ => 0x00⟩

theorem i2c0_wellFormed : i2c0.WellFormed := by
  constructor
  · decide
  · intro i _
    exact ⟨.iocfgT, rfl⟩
  · decide

/-- The pins are right, and the check takes the offset 0x34 for an index. -/
theorem check_not_correct :
    (∀ c ∈ [i2c0], c.WellFormed) ∧ ¬ CheckCorrect [i2c0] 8 i2c0 := by
  constructor
  · intro c hc
    rw [List.mem_singleton.mp hc]
    exact i2c0_wellFormed
  · intro h
    let s : Regs := ⟨fun _ => true, fun _ _ => 0⟩
    have hagrees : i2c0.Agrees s := by
      intro i _ b _
      rfl
    have hone := (h.check s fun _ _ _ _ => rfl).mpr hagrees
    have hzero : bdinfoIocfgCheck [i2c0] s 8 = some 0 := by decide
    rw [hzero] at hone
    exact absurd hone (by decide)

end HiMpu.Iocfg
