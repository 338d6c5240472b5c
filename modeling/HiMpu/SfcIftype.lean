import HiMpu.SfcSpiIds

/-!
# The interface type of the SPI flash

`hisfc_cmd_set_iftype` selects the operation of one direction for an interface type and
switches the quad mode of the flash.  The operation is overwritten before the switch, and
the switch looks at the direction of the call alone.
-/

namespace HiMpu.SfcIftype

open SfcSpiIds

def einval : ℤ := 22
def hisfcSupportMaxDummy : ℕ := 7
def srQuadEnMx : BitVec 8 := 0x40
def evcrQuadEnMicron : BitVec 8 := 0x80

def hisfc350IfcycleQuad : ℕ := 5
def hisfc350IfcycleQuadAddr : ℕ := 6
def hisfc350IfcycleQuadCmd : ℕ := 7

def iftypeRead : List (ℕ × ℕ) := [(0x01, 0), (0x02, 0), (0x04, 1), (0x08, 2), (0x10, 5), (0x20, 6)]

def iftypeWrite : List (ℕ × ℕ) := [(0x01, 0), (0x02, 1), (0x04, 2), (0x08, 5), (0x10, 6)]

def iftypes (isWrite : Bool) : List (ℕ × ℕ) := if isWrite then iftypeWrite else iftypeRead

structure Operations where
  first : SpiOperation
  rest : List SpiOperation

structure Flash where
  mfr : ℕ
  read : Operations
  write : Operations
  /-- The quad mode of a flash whose maker the driver has no command for. -/
  otherQuad : BitVec 8 → Bool

structure State where
  read : SpiOperation
  write : SpiOperation
  reg : BitVec 8

structure Answers where
  comParaCheck : ℤ
  sfcCheckPermission : ℤ
  identified : Bool
  readReg : ℤ
  writeReg : ℤ
  taken : Bool
  waitReady : ℤ
  readBack : ℤ

structure Call where
  isWrite : Bool
  iftype : ℕ
  ans : Answers

def Flash.ops (f : Flash) (isWrite : Bool) : Operations := if isWrite then f.write else f.read

def State.dir (s : State) (isWrite : Bool) : SpiOperation := if isWrite then s.write else s.read

def State.select (s : State) (isWrite : Bool) (op : SpiOperation) : State :=
  if isWrite then { s with write := op } else { s with read := op }

def sfcCoreIftypeCheck (iftype : ℕ) (isWrite : Bool) : ℤ :=
  if (iftypes isWrite).any (·.1 = iftype) then 0 else -einval

/-- The first operation stays when no other one has the type and a larger number. -/
def sfcSpiSearchRw (ops : Operations) (iftype maxDummy : ℕ) : SpiOperation :=
  ((ops.first :: ops.rest).take maxSpiOp).foldl
    (fun fit op =>
      if op.iftype &&& iftype ≠ 0 ∧ op.dummy ≤ maxDummy ∧ fit.iftype < op.iftype then op else fit)
    ops.first

def hisfc351GetBestClock (clock : ℕ) : ℕ :=
  if clock < 50 then 3 <<< 12 else if clock < 75 then 2 <<< 12 else 1 <<< 12

def mapIftype (isWrite : Bool) (iftype : ℕ) : ℕ :=
  match (iftypes isWrite).find? (·.1 = iftype) with
  | some entry => entry.2
  | none => iftype

def sfcCoreUpdateIftypeAndClock (isWrite : Bool) (op : SpiOperation) : SpiOperation :=
  { op with
    iftype := mapIftype isWrite op.iftype
    clock := hisfc351GetBestClock op.clock }

/-- Read the register, write it with the bit changed, and read it back.  `put` changes the
bit, `on` tests it, and `failed` is the result when it cannot be read back. -/
def quadEnable (put : BitVec 8 → Bool → BitVec 8) (on : BitVec 8 → Bool) (failed : ℤ → ℤ)
    (ans : Answers) (reg : BitVec 8) (enable : Bool) : ℤ × BitVec 8 :=
  if ans.readReg ≠ 0 then (ans.readReg, reg)
  else if ans.writeReg ≠ 0 then (ans.writeReg, reg)
  else
    let reg := if ans.taken then put reg enable else reg
    if ans.waitReady ≠ 0 then (ans.waitReady, reg)
    else if ans.readBack ≠ 0 then (failed ans.readBack, reg)
    else if on reg ≠ enable then (-einval, reg)
    else (0, reg)

def macronixPut (val : BitVec 8) (enable : Bool) : BitVec 8 :=
  if enable then val ||| srQuadEnMx else val &&& ~~~srQuadEnMx

def macronixOn (val : BitVec 8) : Bool := val &&& srQuadEnMx ≠ 0

def micronPut (val : BitVec 8) (enable : Bool) : BitVec 8 :=
  if enable then val &&& ~~~evcrQuadEnMicron else val ||| evcrQuadEnMicron

def micronOn (val : BitVec 8) : Bool := val &&& evcrQuadEnMicron = 0

def sfcCoreMacronixQuadEnable : Answers → BitVec 8 → Bool → ℤ × BitVec 8 :=
  quadEnable macronixPut macronixOn fun _ => -einval

def sfcCoreMicronQuadEnable : Answers → BitVec 8 → Bool → ℤ × BitVec 8 :=
  quadEnable micronPut micronOn id

def sfcCoreSetQuadMode (mfr : ℕ) (ans : Answers) (reg : BitVec 8) (enable : Bool) :
    ℤ × BitVec 8 :=
  if mfr = cfiMfrMacronix then
    let (ret, reg) := sfcCoreMacronixQuadEnable ans reg enable
    if ret ≠ 0 then (-einval, reg) else (ret, reg)
  else if mfr = cfiMfrMicron then
    let (ret, reg) := sfcCoreMicronQuadEnable ans reg enable
    if ret ≠ 0 then (-einval, reg) else (ret, reg)
  else (-einval, reg)

def quadTypes (isWrite : Bool) : ℕ := if isWrite then 0x08 ||| 0x10 else 0x10 ||| 0x20

def sfcCoreSpiIftypeUpdate (f : Flash) (s : State) (c : Call) : ℤ × State :=
  if c.ans.identified then
    let temp := sfcSpiSearchRw (f.ops c.isWrite) c.iftype hisfcSupportMaxDummy
    if temp.iftype &&& c.iftype = 0 then (-einval, s)
    else
      let s := s.select c.isWrite (sfcCoreUpdateIftypeAndClock c.isWrite temp)
      let enQuad := decide (temp.iftype &&& quadTypes c.isWrite ≠ 0)
      let (ret, reg) := sfcCoreSetQuadMode f.mfr c.ans s.reg enQuad
      (ret, { s with reg := reg })
  else (-einval, s)

def hisfcCmdSetIftype (f : Flash) (s : State) (c : Call) : ℤ × State :=
  if c.ans.comParaCheck ≠ 0 then (c.ans.comParaCheck, s)
  else if sfcCoreIftypeCheck c.iftype c.isWrite ≠ 0 then
    (sfcCoreIftypeCheck c.iftype c.isWrite, s)
  else if c.ans.sfcCheckPermission ≠ 0 then (c.ans.sfcCheckPermission, s)
  else sfcCoreSpiIftypeUpdate f s c

def Flash.quadEnabled (f : Flash) (reg : BitVec 8) : Bool :=
  if f.mfr = cfiMfrMacronix then macronixOn reg
  else if f.mfr = cfiMfrMicron then micronOn reg
  else f.otherQuad reg

def IsQuad (op : SpiOperation) : Prop :=
  op.iftype = hisfc350IfcycleQuad ∨ op.iftype = hisfc350IfcycleQuadAddr ∨
    op.iftype = hisfc350IfcycleQuadCmd

def Agrees (f : Flash) (s : State) : Prop :=
  f.quadEnabled s.reg = true ↔ IsQuad s.read ∨ IsQuad s.write

def Selected (f : Flash) (s : State) (isWrite : Bool) (iftype : ℕ) : Prop :=
  ∃ op ∈ (f.ops isWrite).first :: (f.ops isWrite).rest, op.iftype = iftype ∧
    s.dir isWrite = sfcCoreUpdateIftypeAndClock isWrite op

structure CallCorrect (f : Flash) (s : State) (c : Call) : Prop where
  done : (hisfcCmdSetIftype f s c).1 = 0 →
    Selected f (hisfcCmdSetIftype f s c).2 c.isWrite c.iftype ∧
      (hisfcCmdSetIftype f s c).2.dir (!c.isWrite) = s.dir (!c.isWrite) ∧
      Agrees f (hisfcCmdSetIftype f s c).2
  error : (hisfcCmdSetIftype f s c).1 ≠ 0 →
    (hisfcCmdSetIftype f s c).2.read = s.read ∧ (hisfcCmdSetIftype f s c).2.write = s.write ∧
      f.quadEnabled (hisfcCmdSetIftype f s c).2.reg = f.quadEnabled s.reg

def run (f : Flash) (s : State) (calls : List Call) : State :=
  calls.foldl (fun s c => (hisfcCmdSetIftype f s c).2) s

def Always (f : Flash) (P : State → Call → Prop) : State → List Call → Prop
  | _, [] => True
  | s, c :: calls => P s c ∧ Always f P (hisfcCmdSetIftype f s c).2 calls

def found (f : Flash) (c : Call) : SpiOperation :=
  sfcSpiSearchRw (f.ops c.isWrite) c.iftype hisfcSupportMaxDummy

def enQuad (f : Flash) (c : Call) : Bool :=
  decide ((found f c).iftype &&& quadTypes c.isWrite ≠ 0)

def Reaches (f : Flash) (c : Call) : Prop :=
  c.ans.comParaCheck = 0 ∧ sfcCoreIftypeCheck c.iftype c.isWrite = 0 ∧
    c.ans.sfcCheckPermission = 0 ∧ c.ans.identified = true ∧ (found f c).iftype &&& c.iftype ≠ 0

def HasQuadCommand (mfr : ℕ) : Prop := mfr = cfiMfrMacronix ∨ mfr = cfiMfrMicron

def Answers.Written (ans : Answers) : Prop := ans.readReg = 0 ∧ ans.writeReg = 0 ∧ ans.taken = true

def Answers.Switches (ans : Answers) (before enable : Bool) : Prop :=
  ans.readReg = 0 ∧ ans.writeReg = 0 ∧ ans.waitReady = 0 ∧ ans.readBack = 0 ∧
    (ans.taken = true ∨ before = enable)

instance (mfr : ℕ) : Decidable (HasQuadCommand mfr) := inferInstanceAs (Decidable (_ ∨ _))

instance (ans : Answers) : Decidable ans.Written := inferInstanceAs (Decidable (_ ∧ _ ∧ _))

def SwitchDone (f : Flash) (s : State) (c : Call) : Prop :=
  HasQuadCommand f.mfr ∧ c.ans.Switches (f.quadEnabled s.reg) (enQuad f c)

def SwitchKeeps (f : Flash) (s : State) (c : Call) : Prop :=
  HasQuadCommand f.mfr → c.ans.Written → f.quadEnabled s.reg = enQuad f c

/-- The condition of one call: where the switch is done, the operation found is of the
requested type and no quad operation of the other direction is left without its mode; where
it fails, the operation was selected already and the mode stays. -/
def Meets (f : Flash) (s : State) (c : Call) : Prop :=
  Reaches f c →
    (SwitchDone f s c → (found f c).iftype = c.iftype ∧
      (IsQuad (s.dir !c.isWrite) → enQuad f c = true)) ∧
    (¬SwitchDone f s c →
      s.dir c.isWrite = sfcCoreUpdateIftypeAndClock c.isWrite (found f c) ∧ SwitchKeeps f s c)

section Switch

variable {put : BitVec 8 → Bool → BitVec 8} {on : BitVec 8 → Bool} {failed : ℤ → ℤ}
  {ans : Answers} {reg : BitVec 8} {enable : Bool} {mfr : ℕ} {f : Flash}

theorem einval_ne : -einval ≠ 0 := by decide

theorem on_value (ans : Answers) (reg : BitVec 8) (enable : Bool)
    (hput : ∀ val enable, on (put val enable) = enable) :
    on (if ans.taken then put reg enable else reg) =
      if ans.taken then enable else on reg := by
  split
  next => exact hput reg enable
  next => rfl

theorem quadEnable_on (hput : ∀ val enable, on (put val enable) = enable) :
    on (quadEnable put on failed ans reg enable).2 = if ans.Written then enable else on reg := by
  have hvalue := on_value ans reg enable hput
  unfold quadEnable Answers.Written
  generalize (if ans.taken then put reg enable else reg) = val at hvalue
  split
  next h => exact (if_neg fun hw => h hw.1).symm
  next hread =>
    split
    next h => exact (if_neg fun hw => h hw.2.1).symm
    next hwrite =>
      have hreg : (if ans.waitReady ≠ 0 then (ans.waitReady, val)
          else if ans.readBack ≠ 0 then (failed ans.readBack, val)
          else if on val ≠ enable then (-einval, val)
          else (0, val)).2 = val := by
        split_ifs <;> rfl
      refine (congrArg on hreg).trans (hvalue.trans ?_)
      simp only [not_not.mp hread, not_not.mp hwrite, true_and]

theorem quadEnable_ret (hput : ∀ val enable, on (put val enable) = enable)
    (hfailed : ∀ ret, ret ≠ 0 → failed ret ≠ 0) :
    (quadEnable put on failed ans reg enable).1 = 0 ↔ ans.Switches (on reg) enable := by
  have hvalue := on_value ans reg enable hput
  unfold quadEnable Answers.Switches
  generalize (if ans.taken then put reg enable else reg) = val at hvalue
  split
  next h => exact ⟨fun hret => absurd hret h, fun hs => absurd hs.1 h⟩
  next hread =>
    split
    next h => exact ⟨fun hret => absurd hret h, fun hs => absurd hs.2.1 h⟩
    next hwrite =>
      simp only
      split
      next h => exact ⟨fun hret => absurd hret h, fun hs => absurd hs.2.2.1 h⟩
      next hwait =>
        split
        next h => exact ⟨fun hret => absurd hret (hfailed _ h), fun hs => absurd hs.2.2.2.1 h⟩
        next hback =>
          have hmode : on val = enable ↔ ans.taken = true ∨ on reg = enable := by
            rw [hvalue]
            split
            next htaken => exact ⟨fun _ => Or.inl htaken, fun _ => rfl⟩
            next htaken => exact ⟨Or.inr, fun h => h.resolve_left htaken⟩
          split
          next h =>
            exact ⟨fun hret => absurd hret einval_ne, fun hs => absurd (hmode.mpr hs.2.2.2.2) h⟩
          next h =>
            exact ⟨fun _ => ⟨not_not.mp hread, not_not.mp hwrite, not_not.mp hwait,
              not_not.mp hback, hmode.mp (not_not.mp h)⟩, fun _ => rfl⟩

theorem macronixOn_put : ∀ val enable, macronixOn (macronixPut val enable) = enable := by
  decide +kernel

theorem micronOn_put : ∀ val enable, micronOn (micronPut val enable) = enable := by
  decide +kernel

theorem sfcCoreSetQuadMode_spec (f : Flash) (ans : Answers) (reg : BitVec 8) (enable : Bool) :
    ((sfcCoreSetQuadMode f.mfr ans reg enable).1 = 0 ↔
        HasQuadCommand f.mfr ∧ ans.Switches (f.quadEnabled reg) enable) ∧
      f.quadEnabled (sfcCoreSetQuadMode f.mfr ans reg enable).2 =
        if HasQuadCommand f.mfr ∧ ans.Written then enable else f.quadEnabled reg := by
  have hshape (out : ℤ × BitVec 8) :
      ((if out.1 ≠ 0 then (-einval, out.2) else (out.1, out.2)).1 = 0 ↔ out.1 = 0) ∧
        (if out.1 ≠ 0 then (-einval, out.2) else (out.1, out.2)).2 = out.2 := by
    split
    next h => exact ⟨⟨fun hret => absurd hret einval_ne, fun hret => absurd hret h⟩, rfl⟩
    next => exact ⟨Iff.rfl, rfl⟩
  unfold sfcCoreSetQuadMode Flash.quadEnabled HasQuadCommand
  split
  next hmx =>
    obtain ⟨hret, hreg⟩ := hshape (sfcCoreMacronixQuadEnable ans reg enable)
    simp only [hmx, true_or, true_and]
    rw [hret, hreg]
    exact ⟨quadEnable_ret macronixOn_put fun _ _ => by decide, quadEnable_on macronixOn_put⟩
  next hmx =>
    split
    next hmicron =>
      obtain ⟨hret, hreg⟩ := hshape (sfcCoreMicronQuadEnable ans reg enable)
      simp only [hmicron, or_true, true_and]
      rw [hret, hreg]
      exact ⟨quadEnable_ret micronOn_put fun _ h => h, quadEnable_on micronOn_put⟩
    next hmicron =>
      simp [hmx, hmicron, einval]

end Switch

section Search

variable {ops : Operations} {isWrite : Bool} {iftype : ℕ} {op : SpiOperation}

theorem sfcSpiSearchRw_mem (ops : Operations) (iftype maxDummy : ℕ) :
    sfcSpiSearchRw ops iftype maxDummy ∈ ops.first :: ops.rest := by
  have hfold (l : List SpiOperation) (fit : SpiOperation) (hfit : fit ∈ ops.first :: ops.rest)
      (hsub : ∀ op ∈ l, op ∈ ops.first :: ops.rest) :
      l.foldl (fun fit op =>
        if op.iftype &&& iftype ≠ 0 ∧ op.dummy ≤ maxDummy ∧ fit.iftype < op.iftype then op
        else fit) fit ∈ ops.first :: ops.rest := by
    induction l generalizing fit with
    | nil => exact hfit
    | cons op l ih =>
      refine ih _ ?_ fun op' hmem => hsub op' (List.mem_cons_of_mem _ hmem)
      dsimp only
      split
      · exact hsub op List.mem_cons_self
      · exact hfit
  exact hfold _ _ List.mem_cons_self fun op hmem => List.mem_of_mem_take hmem

theorem iftype_mem (hcheck : sfcCoreIftypeCheck iftype isWrite = 0) :
    iftype ∈ (iftypes isWrite).map Prod.fst := by
  unfold sfcCoreIftypeCheck at hcheck
  split at hcheck
  next hany =>
    obtain ⟨entry, hmem, heq⟩ := List.any_eq_true.mp hany
    exact List.mem_map.mpr ⟨entry, hmem, of_decide_eq_true heq⟩
  next => exact absurd hcheck einval_ne

theorem mapIftype_of_not_mem (h : iftype ∉ (iftypes isWrite).map Prod.fst) :
    mapIftype isWrite iftype = iftype := by
  unfold mapIftype
  split
  next entry hfind =>
    have heq : entry.1 = iftype := by simpa using List.find?_some hfind
    exact absurd (List.mem_map.mpr ⟨entry, List.mem_of_find?_eq_some hfind, heq⟩) h
  next => rfl

theorem iftypes_disjoint : ∀ isWrite, ∀ t ∈ (iftypes isWrite).map Prod.fst,
    (∀ t' ∈ (iftypes isWrite).map Prod.fst, t' &&& t ≠ 0 → t' = t) ∧
      mapIftype isWrite t &&& t = 0 := by
  decide

theorem mapIftype_inj {t t' : ℕ} (ht : t ∈ (iftypes isWrite).map Prod.fst) (hand : t' &&& t ≠ 0)
    (hmap : mapIftype isWrite t' = mapIftype isWrite t) : t' = t := by
  obtain ⟨hbit, hcycle⟩ := iftypes_disjoint isWrite t ht
  by_cases ht' : t' ∈ (iftypes isWrite).map Prod.fst
  · exact hbit t' ht' hand
  · rw [mapIftype_of_not_mem ht'] at hmap
    exact absurd (hmap ▸ hcycle) hand

theorem isQuad_iff (op : SpiOperation) (hmem : op.iftype ∈ (iftypes isWrite).map Prod.fst) :
    IsQuad (sfcCoreUpdateIftypeAndClock isWrite op) ↔ op.iftype &&& quadTypes isWrite ≠ 0 := by
  have hall : ∀ isWrite, ∀ t ∈ (iftypes isWrite).map Prod.fst,
      (mapIftype isWrite t = hisfc350IfcycleQuad ∨ mapIftype isWrite t = hisfc350IfcycleQuadAddr ∨
        mapIftype isWrite t = hisfc350IfcycleQuadCmd) ↔ t &&& quadTypes isWrite ≠ 0 := by
    decide
  exact hall isWrite op.iftype hmem

end Search

section Run

variable {f : Flash} {s : State} {c : Call}

@[simp] theorem State.dir_select (s : State) (isWrite : Bool) (op : SpiOperation) (reg : BitVec 8) :
    State.dir { s.select isWrite op with reg := reg } isWrite = op := by
  cases isWrite <;> rfl

@[simp] theorem State.dir_select_other (s : State) (isWrite : Bool) (op : SpiOperation)
    (reg : BitVec 8) :
    State.dir { s.select isWrite op with reg := reg } (!isWrite) = s.dir (!isWrite) := by
  cases isWrite <;> rfl

theorem State.same_iff (s s' : State) (isWrite : Bool) :
    s'.read = s.read ∧ s'.write = s.write ↔
      s'.dir isWrite = s.dir isWrite ∧ s'.dir (!isWrite) = s.dir (!isWrite) := by
  cases isWrite
  · exact Iff.rfl
  · exact And.comm

theorem State.isQuad_iff (s : State) (isWrite : Bool) :
    IsQuad s.read ∨ IsQuad s.write ↔ IsQuad (s.dir isWrite) ∨ IsQuad (s.dir (!isWrite)) := by
  cases isWrite
  · exact Iff.rfl
  · exact Or.comm

theorem hisfcCmdSetIftype_stops (hreach : ¬Reaches f c) :
    ∃ ret, ret ≠ 0 ∧ hisfcCmdSetIftype f s c = (ret, s) := by
  unfold hisfcCmdSetIftype
  split
  next h => exact ⟨_, h, rfl⟩
  next hpara =>
    split
    next h => exact ⟨_, h, rfl⟩
    next hcheck =>
      split
      next h => exact ⟨_, h, rfl⟩
      next hpermission =>
        unfold sfcCoreSpiIftypeUpdate
        split
        next hids =>
          have hnone : (found f c).iftype &&& c.iftype = 0 := by
            by_contra hmatch
            exact hreach ⟨not_not.mp hpara, not_not.mp hcheck, not_not.mp hpermission, hids, hmatch⟩
          exact ⟨-einval, einval_ne, if_pos hnone⟩
        next => exact ⟨-einval, einval_ne, rfl⟩

theorem hisfcCmdSetIftype_reaches (hreach : Reaches f c) :
    hisfcCmdSetIftype f s c =
      ((sfcCoreSetQuadMode f.mfr c.ans s.reg (enQuad f c)).1,
        { s.select c.isWrite (sfcCoreUpdateIftypeAndClock c.isWrite (found f c)) with
          reg := (sfcCoreSetQuadMode f.mfr c.ans s.reg (enQuad f c)).2 }) := by
  obtain ⟨hpara, hcheck, hpermission, hids, hmatch⟩ := hreach
  have hreg (op : SpiOperation) : (s.select c.isWrite op).reg = s.reg := by
    cases c.isWrite <;> rfl
  rw [hisfcCmdSetIftype, if_neg (not_not.mpr hpara), if_neg (not_not.mpr hcheck),
    if_neg (not_not.mpr hpermission), sfcCoreSpiIftypeUpdate, if_pos hids]
  refine (if_neg hmatch).trans ?_
  simp only [hreg]
  rfl

theorem selected_iff (hreach : Reaches f c) :
    Selected f (hisfcCmdSetIftype f s c).2 c.isWrite c.iftype ↔
      (found f c).iftype = c.iftype := by
  obtain ⟨-, hcheck, -, -, hmatch⟩ := id hreach
  rw [hisfcCmdSetIftype_reaches hreach]
  constructor
  · rintro ⟨op, -, htype, hdir⟩
    rw [State.dir_select] at hdir
    have hmap : mapIftype c.isWrite (found f c).iftype = mapIftype c.isWrite c.iftype := by
      rw [← htype]
      exact congrArg SpiOperation.iftype hdir
    exact mapIftype_inj (iftype_mem hcheck) hmatch hmap
  · intro htype
    exact ⟨found f c, sfcSpiSearchRw_mem _ _ _, htype, State.dir_select _ _ _ _⟩

theorem callCorrect_iff_done (hreach : Reaches f c) (hdone : SwitchDone f s c) :
    CallCorrect f s c ↔ (found f c).iftype = c.iftype ∧
      (IsQuad (s.dir !c.isWrite) → enQuad f c = true) := by
  obtain ⟨hret, hmode⟩ := sfcCoreSetQuadMode_spec f c.ans s.reg (enQuad f c)
  have hzero : (hisfcCmdSetIftype f s c).1 = 0 := by
    rw [hisfcCmdSetIftype_reaches hreach]
    exact hret.mpr hdone
  -- the mode is the one of this call, also where the flash did not take the value
  have henabled : f.quadEnabled (hisfcCmdSetIftype f s c).2.reg = enQuad f c := by
    rw [hisfcCmdSetIftype_reaches hreach]
    refine hmode.trans ?_
    obtain ⟨hcommand, hread, hwrite, -, -, htaken⟩ := hdone
    split
    next => rfl
    next hkept =>
      exact htaken.resolve_left fun h => hkept ⟨hcommand, hread, hwrite, h⟩
  have hother : (hisfcCmdSetIftype f s c).2.dir (!c.isWrite) = s.dir (!c.isWrite) := by
    rw [hisfcCmdSetIftype_reaches hreach]
    exact State.dir_select_other _ _ _ _
  have hcall : CallCorrect f s c ↔
      Selected f (hisfcCmdSetIftype f s c).2 c.isWrite c.iftype ∧
        Agrees f (hisfcCmdSetIftype f s c).2 := by
    constructor
    · intro hcorrect
      obtain ⟨hselected, -, hagrees⟩ := hcorrect.done hzero
      exact ⟨hselected, hagrees⟩
    · rintro ⟨hselected, hagrees⟩
      exact ⟨fun _ => ⟨hselected, hother, hagrees⟩, fun h => absurd hzero h⟩
  rw [hcall, selected_iff hreach]
  refine and_congr_right fun htype => ?_
  have hmem : (found f c).iftype ∈ (iftypes c.isWrite).map Prod.fst :=
    htype ▸ iftype_mem hreach.2.1
  have hdir : IsQuad ((hisfcCmdSetIftype f s c).2.dir c.isWrite) ↔ enQuad f c = true := by
    rw [hisfcCmdSetIftype_reaches hreach, State.dir_select, isQuad_iff _ hmem, enQuad,
      decide_eq_true_iff]
  rw [Agrees, henabled, State.isQuad_iff _ c.isWrite, hdir, hother]
  exact ⟨fun h hquad => h.mpr (Or.inr hquad), fun h => ⟨Or.inl, fun hor => hor.elim id h⟩⟩

theorem callCorrect_iff_failed (hreach : Reaches f c) (hfailed : ¬SwitchDone f s c) :
    CallCorrect f s c ↔
      s.dir c.isWrite = sfcCoreUpdateIftypeAndClock c.isWrite (found f c) ∧
        SwitchKeeps f s c := by
  obtain ⟨hret, hmode⟩ := sfcCoreSetQuadMode_spec f c.ans s.reg (enQuad f c)
  have hnonzero : (hisfcCmdSetIftype f s c).1 ≠ 0 := by
    rw [hisfcCmdSetIftype_reaches hreach]
    exact fun h => hfailed (hret.mp h)
  have hcall : CallCorrect f s c ↔
      ((hisfcCmdSetIftype f s c).2.read = s.read ∧ (hisfcCmdSetIftype f s c).2.write = s.write) ∧
        f.quadEnabled (hisfcCmdSetIftype f s c).2.reg = f.quadEnabled s.reg := by
    constructor
    · intro hcorrect
      obtain ⟨hread, hwrite, hquad⟩ := hcorrect.error hnonzero
      exact ⟨⟨hread, hwrite⟩, hquad⟩
    · rintro ⟨⟨hread, hwrite⟩, hquad⟩
      exact ⟨fun h => absurd h hnonzero, fun _ => ⟨hread, hwrite, hquad⟩⟩
  have hkeeps : f.quadEnabled (hisfcCmdSetIftype f s c).2.reg = f.quadEnabled s.reg ↔
      SwitchKeeps f s c := by
    rw [hisfcCmdSetIftype_reaches hreach]
    simp only [hmode, SwitchKeeps]
    split
    next h => exact ⟨fun heq _ _ => heq.symm, fun hkeep => (hkeep h.1 h.2).symm⟩
    next h => exact ⟨fun _ hcommand hwritten => absurd ⟨hcommand, hwritten⟩ h, fun _ => rfl⟩
  rw [hcall, hkeeps, State.same_iff s _ c.isWrite, hisfcCmdSetIftype_reaches hreach,
    State.dir_select, State.dir_select_other]
  refine and_congr_left fun _ => ?_
  exact ⟨fun h => h.1.symm, fun h => ⟨h.symm, rfl⟩⟩

theorem callCorrect_iff (f : Flash) (s : State) (c : Call) : CallCorrect f s c ↔ Meets f s c := by
  by_cases hreach : Reaches f c
  · by_cases hdone : SwitchDone f s c
    · rw [callCorrect_iff_done hreach hdone]
      exact ⟨fun h _ => ⟨fun _ => h, fun hno => absurd hdone hno⟩, fun h => (h hreach).1 hdone⟩
    · rw [callCorrect_iff_failed hreach hdone]
      exact ⟨fun h _ => ⟨fun hyes => absurd hyes hdone, fun _ => h⟩, fun h => (h hreach).2 hdone⟩
  · obtain ⟨ret, hret, hstop⟩ := hisfcCmdSetIftype_stops (s := s) hreach
    refine ⟨fun _ h => absurd h hreach, fun _ => ⟨fun h => ?_, fun _ => ?_⟩⟩
    · rw [hstop] at h
      exact absurd h hret
    · rw [hstop]
      exact ⟨rfl, rfl, rfl⟩

/-- In a run of calls each of them is correct as long as each of them meets the condition. -/
theorem run_correct_iff (f : Flash) (s : State) (calls : List Call) :
    Always f (CallCorrect f) s calls ↔ Always f (Meets f) s calls := by
  induction calls generalizing s with
  | nil => exact Iff.rfl
  | cons c calls ih => exact and_congr (callCorrect_iff f s c) (ih _)

end Run

def infinite : ℕ := 0xFFFFFFFF

def readStd (clk : ℕ) : SpiOperation := ⟨0x01, 0x03, 0, infinite, clk⟩
def readFast (clk : ℕ) : SpiOperation := ⟨0x02, 0x0B, 1, infinite, clk⟩
def readDual (clk : ℕ) : SpiOperation := ⟨0x04, 0x3B, 1, infinite, clk⟩
def writeStd (clk : ℕ) : SpiOperation := ⟨0x01, 0x02, 0, 256, clk⟩

def n25q128 : Flash where
  mfr := cfiMfrMicron
  read := ⟨readStd 54, [readFast 108, readDual 108, ⟨0x10, 0x6B, 1, infinite, 108⟩,
    ⟨0x08, 0xBB, 2, infinite, 108⟩, ⟨0x20, 0xEB, 5, infinite, 108⟩]⟩
  write := ⟨writeStd 108, [⟨0x02, 0xA2, 0, 256, 108⟩, ⟨0x08, 0x32, 0, 256, 108⟩,
    ⟨0x04, 0xD2, 0, 256, 108⟩, ⟨0x10, 0x12, 0, 256, 108⟩]⟩
  otherQuad := fun _ => false

def w25q128bv : Flash where
  mfr := 0xEF
  read := ⟨readStd 33, [readFast 104, readDual 104]⟩
  write := ⟨writeStd 104, []⟩
  otherQuad := fun _ => false

def probed (f : Flash) : State :=
  ⟨sfcCoreUpdateIftypeAndClock false f.read.first, sfcCoreUpdateIftypeAndClock true f.write.first,
    0xFF⟩

def succeeding : Answers := ⟨0, 0, true, 0, 0, true, 0, 0⟩

/-- A write without quad switches the mode of the quad reads off, and a flash of another
maker gets its new operation together with an error. -/
theorem run_disagrees :
    (hisfcCmdSetIftype n25q128 (run n25q128 (probed n25q128) [⟨false, 0x10, succeeding⟩])
        ⟨true, 0x01, succeeding⟩).1 = 0 ∧
      ¬Agrees n25q128 (run n25q128 (probed n25q128)
        [⟨false, 0x10, succeeding⟩, ⟨true, 0x01, succeeding⟩]) ∧
      ¬Always n25q128 (CallCorrect n25q128) (probed n25q128)
        [⟨false, 0x10, succeeding⟩, ⟨true, 0x01, succeeding⟩] ∧
      (hisfcCmdSetIftype w25q128bv (probed w25q128bv) ⟨false, 0x04, succeeding⟩).1 = -einval ∧
      ¬Always w25q128bv (CallCorrect w25q128bv) (probed w25q128bv)
        [⟨false, 0x04, succeeding⟩] := by
  have hret : (hisfcCmdSetIftype n25q128
      (run n25q128 (probed n25q128) [⟨false, 0x10, succeeding⟩]) ⟨true, 0x01, succeeding⟩).1 = 0 := by
    decide
  have hdisagree : ¬Agrees n25q128 (run n25q128 (probed n25q128)
      [⟨false, 0x10, succeeding⟩, ⟨true, 0x01, succeeding⟩]) := by
    intro hagrees
    exact absurd (hagrees.mpr (Or.inl (Or.inl (by decide)))) (by decide)
  refine ⟨hret, hdisagree, ?_, by decide, ?_⟩
  · rintro ⟨-, hsecond, -⟩
    exact hdisagree (hsecond.done hret).2.2
  · rintro ⟨hcall, -⟩
    exact absurd (hcall.error (by decide)).1 (by decide)

end HiMpu.SfcIftype
