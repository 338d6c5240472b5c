import HiMpu.PagedPhy

/-!
# Accesses to a YT85xx

`motor_comm_phy.c`: an extended register is reached through a register for its address
and one for its data.  The ordinary registers are there twice, for the PHY and for the
SDS; an extended register switches between them, and an operation that has switched to
the SDS is inside its SDS part until it switches back.
-/

namespace HiMpu.MotorCommPhy

def extAddrOffsetReg : ℕ := 0x1E
def extDataReg : ℕ := 0x1F
def smiSdsPhyAddr : ℕ := 0xa000
def sdsAccessMode : ℕ := 0x2
def phyAccessMode : ℕ := 0x0

/-- `phy_yt85xx_read`, `phy_yt85xx_write` and the accesses to the extended registers.  `sds` is
set in the accesses that are meant for the SDS, and `upd` in those of an update. -/
inductive Call where
  | read (regNum : ℕ) (sds upd : Bool)
  | write (regNum : ℕ) (sds : Bool) (value : ℕ) (upd : Bool)
  | readExt (regNum : ℕ) (upd : Bool)
  | writeExt (regNum value : ℕ) (upd : Bool)

abbrev Program := CallProgram Call (Option ℕ)

inductive Cell where
  | plain (sds : Bool) (reg : ℕ)
  | ext (reg : ℕ)
deriving DecidableEq

def Ordinary (reg : ℕ) : Prop := reg ≠ extAddrOffsetReg ∧ reg ≠ extDataReg

def Cell.Ordinary : Cell → Prop
  | .plain _ reg => MotorCommPhy.Ordinary reg
  | .ext _ => True

def Call.reg : Call → ℕ
  | .read regNum _ _ | .write regNum _ _ _ | .readExt regNum _ | .writeExt regNum _ _ => regNum

def Call.cell : Call → Cell
  | .read regNum sds _ | .write regNum sds _ _ => .plain sds regNum
  | .readExt regNum _ | .writeExt regNum _ _ => .ext regNum

def Call.upd : Call → Bool
  | .read _ _ upd | .write _ _ _ upd | .readExt _ upd | .writeExt _ _ upd => upd

def Call.writes : Call → Bool
  | .read .. | .readExt .. => false
  | .write .. | .writeExt .. => true

def Call.extended : Call → Bool
  | .read .. | .write .. => false
  | .readExt .. | .writeExt .. => true

/-! ## The PHY -/

structure Phy where
  extAddr : ℕ
  ext : ℕ → ℕ
  plain : Bool × ℕ → ℕ

namespace Phy

def sds (phy : Phy) : Bool := (phy.ext smiSdsPhyAddr).testBit 1

def get (phy : Phy) : Cell → ℕ
  | .plain sds reg =>
    if reg = extAddrOffsetReg then phy.extAddr
    else if reg = extDataReg then phy.ext phy.extAddr
    else phy.plain (sds, reg)
  | .ext reg => phy.ext reg

def put (phy : Phy) (value : ℕ) : Cell → Phy
  | .plain sds reg =>
    if reg = extAddrOffsetReg then { phy with extAddr := value }
    else if reg = extDataReg then { phy with ext := Function.update phy.ext phy.extAddr value }
    else { phy with plain := Function.update phy.plain (sds, reg) value }
  | .ext reg => { phy with ext := Function.update phy.ext reg value }

def rd (phy : Phy) (reg : ℕ) : ℕ := phy.get (.plain phy.sds reg)

def wr (phy : Phy) (reg value : ℕ) : Phy := phy.put value (.plain phy.sds reg)

end Phy

structure Local where
  held : Option (Cell × ℕ)
  inside : Bool

def spec : CallProgram.Spec Call (Option ℕ) Local where
  allowed t c :=
    (∀ sds, c.cell = .plain sds c.reg → Ordinary c.reg → sds = t.inside) ∧
      if c.writes then if c.upd then ∃ v, t.held = some (c.cell, v) else t.held = none
      else c.upd = true → c.cell.Ordinary
  returns t c r := c.extended = true → t.inside = true → r.isSome = true
  next t c r :=
    { held :=
        if c.upd then (if c.writes then none else r.map fun v => (c.cell, v)) else t.held
      inside :=
        match c, r with
        | .writeExt regNum value _, some _ =>
          if regNum = smiSdsPhyAddr then value.testBit 1 else t.inside
        | _, _ => t.inside }

inductive Stage where
  | first
  | data (failed : Bool)

inductive Caller where
  | idle
  | busy (t : Local) (c : Call) (stage : Stage) (k : Option ℕ → Program Unit)

structure State where
  phy : Phy
  caller : ℕ → Caller

def resume (t : Local) : Program Unit → Caller
  | .done _ => .idle
  | .call c k => .busy t c .first k

def finish (t : Local) (c : Call) (k : Option ℕ → Program Unit) (r : Option ℕ) : Caller :=
  resume (spec.next t c r) (k r)

namespace State

def move (s : State) (n : ℕ) (phy : Phy) (cl : Caller) : State :=
  ⟨phy, Function.update s.caller n cl⟩

def access (s : State) (n : ℕ) : State :=
  match s.caller n with
  | .idle | .busy _ (.read ..) (.data _) _ | .busy _ (.write ..) (.data _) _ => s
  | .busy t (.read regNum sds upd) .first k =>
    s.move n s.phy (finish t (.read regNum sds upd) k (some (s.phy.rd regNum)))
  | .busy t (.write regNum sds value upd) .first k =>
    s.move n (s.phy.wr regNum value) (finish t (.write regNum sds value upd) k (some 0))
  | .busy t (.readExt regNum upd) .first k =>
    s.move n (s.phy.wr extAddrOffsetReg regNum) (.busy t (.readExt regNum upd) (.data false) k)
  | .busy t (.writeExt regNum value upd) .first k =>
    s.move n (s.phy.wr extAddrOffsetReg regNum)
      (.busy t (.writeExt regNum value upd) (.data false) k)
  | .busy t (.readExt regNum upd) (.data failed) k =>
    s.move n s.phy (finish t (.readExt regNum upd) k
      (if failed then none else some (s.phy.rd extDataReg)))
  | .busy t (.writeExt regNum value upd) (.data failed) k =>
    s.move n (s.phy.wr extDataReg value) (finish t (.writeExt regNum value upd) k
      (if failed then none else some 0))

/-- The next MDIO access of a caller fails; a failure of the address leaves the data to do. -/
def fail (s : State) (n : ℕ) : State :=
  match s.caller n with
  | .idle | .busy _ (.read ..) (.data _) _ | .busy _ (.write ..) (.data _) _ => s
  | .busy t (.read regNum sds upd) .first k =>
    s.move n s.phy (finish t (.read regNum sds upd) k none)
  | .busy t (.write regNum sds value upd) .first k =>
    s.move n s.phy (finish t (.write regNum sds value upd) k none)
  | .busy t (.readExt regNum upd) .first k =>
    s.move n s.phy (.busy t (.readExt regNum upd) (.data true) k)
  | .busy t (.writeExt regNum value upd) .first k =>
    s.move n s.phy (.busy t (.writeExt regNum value upd) (.data true) k)
  | .busy t (.readExt regNum upd) (.data _) k =>
    s.move n s.phy (finish t (.readExt regNum upd) k none)
  | .busy t (.writeExt regNum value upd) (.data _) k =>
    s.move n s.phy (finish t (.writeExt regNum value upd) k none)

end State

def Call.Accepted : Call → Stage → Prop
  | .read regNum _ _, _ => regNum ≤ Mdio.mdioCluse22MaxPhyRegAddr
  | .write regNum _ value _, _ =>
    regNum ≤ Mdio.mdioCluse22MaxPhyRegAddr ∧ value ≤ Mdio.mdioMaxWriteValue
  | .readExt regNum _, .first | .writeExt regNum _ _, .first => regNum ≤ Mdio.mdioMaxWriteValue
  | .readExt _ _, .data _ => True
  | .writeExt _ value _, .data _ => value ≤ Mdio.mdioMaxWriteValue

/-- A driver; its operations update what they have read and leave their SDS part. -/
structure Driver where
  program : PagedPhy.Op → Program Unit
  updates : ∀ op, (program op).wp spec (fun _ t => t.inside = false) ⟨none, false⟩

inductive Event where
  | start (n : ℕ) (op : PagedPhy.Op)
  | access (n : ℕ)
  | fail (n : ℕ)

inductive Step (d : Driver) (s : State) : Event → State → Prop
  | start {n : ℕ} (op : PagedPhy.Op) (hidle : s.caller n = .idle) :
      Step d s (.start n op) (s.move n s.phy (resume ⟨none, false⟩ (d.program op)))
  | access {n : ℕ}
      (haccepted : ∀ t c stage k, s.caller n = .busy t c stage k → c.Accepted stage) :
      Step d s (.access n) (s.access n)
  | fail (n : ℕ) : Step d s (.fail n) (s.fail n)

structure Initial (s : State) : Prop where
  phy : s.phy.sds = false
  caller : ∀ n, s.caller n = .idle

def Driver.system (d : Driver) : TransitionSystem State Event := ⟨Initial, Step d⟩

/-! ## What is promised -/

/-- The next access of a caller reaches the register that its call names, in the space that it is
meant for. -/
structure Exact (s : State) (n : ℕ) : Prop where
  space : ∀ t c k, s.caller n = .busy t c .first k → ∀ sds, c.cell = .plain sds c.reg →
    Ordinary c.reg → s.phy.sds = sds
  plain : ∀ t c k, s.caller n = .busy t c .first k → ∀ sds, c.cell = .plain sds c.reg →
    s.phy.rd c.reg = s.phy.get c.cell ∧ ∀ value, s.phy.wr c.reg value = s.phy.put value c.cell
  ext : ∀ t c failed k, s.caller n = .busy t c (.data failed) k → c.extended = true →
    s.phy.extAddr = c.reg ∧ s.phy.rd extDataReg = s.phy.get c.cell ∧
      ∀ value, s.phy.wr extDataReg value = s.phy.put value c.cell
  update : ∀ t c stage k, s.caller n = .busy t c stage k → c.writes = true → c.upd = true →
    ∃ v, t.held = some (c.cell, v) ∧ s.phy.get c.cell = v

def Caller.inside : Caller → Bool
  | .idle => false
  | .busy t _ _ _ => t.inside

def Caller.held : Caller → Option (Cell × ℕ)
  | .idle => none
  | .busy t _ _ _ => t.held

structure Caller.Relies (phy : Phy) (cl : Caller) : Prop where
  address : ∀ t c k, cl = .busy t c (.data false) k → phy.extAddr = c.reg
  keeps : ∀ cell v, cl.held = some (cell, v) → phy.get cell = v
  inside : cl.inside = true → phy.sds = true

/-- No MDIO access changes the extended address that another caller has written and not used yet,
a register that another caller has read to update, or the switch while another caller is in its
SDS part; an ordinary register of the PHY is left alone while another caller is in its SDS part,
and a caller's own write to the data register leaves the switch alone.  No address access of
the extended registers fails, and no data access in an SDS part. -/
def Undisturbed (s : State) : Event → Prop
  | .start _ _ => True
  | .access n =>
    (∀ m, m ≠ n → (s.caller m).Relies s.phy → (s.caller m).Relies (s.access n).phy) ∧
      ∀ t c k, s.caller n = .busy t c .first k → c.extended = false →
        (s.access n).phy.sds = s.phy.sds ∧
          (Ordinary c.reg → t.inside = false → ∀ m, m ≠ n → (s.caller m).inside = false)
  | .fail n => ∀ t c stage k, s.caller n = .busy t c stage k → c.extended = true →
      stage ≠ .first ∧ t.inside = false

variable {d : Driver} {s s' : State} {phy phy' : Phy} {n : ℕ} {t : Local} {c : Call}
  {k : Option ℕ → Program Unit} {cl : Caller}

theorem Phy.get_ordinary {reg : ℕ} (hreg : Ordinary reg) (sds : Bool) :
    phy.get (.plain sds reg) = phy.plain (sds, reg) := by
  change (if reg = extAddrOffsetReg then _ else if reg = extDataReg then _ else _) = _
  rw [if_neg hreg.1, if_neg hreg.2]

theorem Phy.get_wr_extAddr {cell : Cell} (hcell : cell.Ordinary) (value : ℕ) :
    (phy.wr extAddrOffsetReg value).get cell = phy.get cell := by
  cases cell with
  | plain sds reg =>
    rw [Phy.get_ordinary hcell, Phy.get_ordinary hcell]
    rfl
  | ext reg => rfl

theorem Phy.rd_extData : phy.rd extDataReg = phy.ext phy.extAddr := rfl

theorem Phy.wr_extData (value : ℕ) :
    phy.wr extDataReg value = phy.put value (.ext phy.extAddr) := rfl

theorem Phy.sds_put_ext (reg value : ℕ) : (phy.put value (.ext reg)).sds =
    if reg = smiSdsPhyAddr then value.testBit 1 else phy.sds := by
  change (Function.update phy.ext reg value smiSdsPhyAddr).testBit 1 = _
  split
  next heq => rw [heq, Function.update_self]
  next hne =>
    rw [Function.update_of_ne (Ne.symm hne)]
    rfl

def Caller.Follows : Caller → Prop
  | .idle => True
  | .busy t c _ k => spec.allowed t c ∧
      ∀ r, spec.returns t c r → (k r).wp spec (fun _ t => t.inside = false) (spec.next t c r)

structure Inv (s : State) : Prop where
  follows : ∀ n, (s.caller n).Follows
  plain : ∀ n cell v, (s.caller n).held = some (cell, v) → cell.Ordinary
  sent : ∀ n t c failed k, s.caller n = .busy t c (.data failed) k → failed = false
  relies : ∀ n, (s.caller n).Relies s.phy
  switched : s.phy.sds = true → ∃ n, (s.caller n).inside = true

theorem resume_follows {p : Program Unit} (h : p.wp spec (fun _ t => t.inside = false) t) :
    (resume t p).Follows := by
  cases p with
  | done a => trivial
  | call c k => exact h

theorem resume_inside {p : Program Unit} (h : p.wp spec (fun _ t => t.inside = false) t) :
    (resume t p).inside = t.inside := by
  cases p with
  | done a =>
    have hinside : t.inside = false := h
    exact hinside.symm
  | call c k => rfl

theorem resume_held {p : Program Unit} {cell : Cell} {v : ℕ}
    (h : (resume t p).held = some (cell, v)) : t.held = some (cell, v) := by
  cases p with
  | done a => cases h
  | call c k => exact h

theorem resume_first {p : Program Unit} {stage : Stage} {t' : Local}
    (h : resume t p = .busy t' c stage k) : stage = .first := by
  cases p with
  | done a => cases h
  | call c k =>
    cases h
    rfl

theorem Inv.move (h : Inv s) (hfollows : cl.Follows)
    (hplain : ∀ cell v, cl.held = some (cell, v) → cell.Ordinary)
    (hsent : ∀ t c failed k, cl = .busy t c (.data failed) k → failed = false)
    (hrelies : cl.Relies phy')
    (hothers : ∀ m, m ≠ n → (s.caller m).Relies s.phy → (s.caller m).Relies phy')
    (hswitched : phy'.sds = true → cl.inside = true ∨
      s.phy.sds = true ∧ ((s.caller n).inside = true → cl.inside = true)) :
    Inv (s.move n phy' cl) := by
  have hcases : ∀ m, m = n ∧ (s.move n phy' cl).caller m = cl ∨
      m ≠ n ∧ (s.move n phy' cl).caller m = s.caller m := by
    intro m
    by_cases hm : m = n
    · refine Or.inl ⟨hm, ?_⟩
      rw [hm]
      exact Function.update_self _ _ _
    · exact Or.inr ⟨hm, Function.update_of_ne hm _ _⟩
  have hself : (s.move n phy' cl).caller n = cl := Function.update_self _ _ _
  refine ⟨fun m => ?_, fun m => ?_, fun m => ?_, fun m => ?_, fun hsds => ?_⟩
  · rcases hcases m with ⟨rfl, heq⟩ | ⟨hm, heq⟩
    · rw [heq]
      exact hfollows
    · rw [heq]
      exact h.follows m
  · rcases hcases m with ⟨rfl, heq⟩ | ⟨hm, heq⟩
    · rw [heq]
      exact hplain
    · rw [heq]
      exact h.plain m
  · rcases hcases m with ⟨rfl, heq⟩ | ⟨hm, heq⟩
    · rw [heq]
      exact hsent
    · rw [heq]
      exact h.sent m
  · rcases hcases m with ⟨rfl, heq⟩ | ⟨hm, heq⟩
    · rw [heq]
      exact hrelies
    · rw [heq]
      exact hothers m hm (h.relies m)
  · rcases hswitched hsds with hinside | ⟨hold, hkept⟩
    · exact ⟨n, hself.symm ▸ hinside⟩
    · obtain ⟨m, hm⟩ := h.switched hold
      rcases hcases m with ⟨rfl, heq⟩ | ⟨-, heq⟩
      · exact ⟨m, heq.symm ▸ hkept hm⟩
      · exact ⟨m, heq.symm ▸ hm⟩

theorem next_held {r : Option ℕ} {cell : Cell} {v : ℕ}
    (h : (spec.next t c r).held = some (cell, v)) :
    (t.held = some (cell, v) ∧ c.upd = false) ∨
      c.upd = true ∧ c.writes = false ∧ cell = c.cell ∧ r = some v := by
  change (if c.upd = true then _ else _) = some (cell, v) at h
  split at h
  next hupd =>
    split at h
    next => cases h
    next hwrites =>
      obtain ⟨w, hr, hcell⟩ := Option.map_eq_some_iff.mp h
      cases hcell
      exact Or.inr ⟨hupd, Bool.not_eq_true _ ▸ hwrites, rfl, hr⟩
  next hupd => exact Or.inl ⟨h, Bool.not_eq_true _ ▸ hupd⟩

theorem Inv.finish (h : Inv s) {stage : Stage} (hcaller : s.caller n = .busy t c stage k)
    {r : Option ℕ} (hreturns : spec.returns t c r)
    (hread : ∀ v, c.upd = true → c.writes = false → r = some v → phy'.get c.cell = v)
    (hkept : ∀ cell v, t.held = some (cell, v) → c.upd = false → phy'.get cell = v)
    (hinside : (spec.next t c r).inside = true → phy'.sds = true)
    (hothers : ∀ m, m ≠ n → (s.caller m).Relies s.phy → (s.caller m).Relies phy')
    (hswitched : phy'.sds = true → (spec.next t c r).inside = true ∨
      s.phy.sds = true ∧ (t.inside = true → (spec.next t c r).inside = true)) :
    Inv (s.move n phy' (MotorCommPhy.finish t c k r)) := by
  have hfollows := h.follows n
  have hplain := h.plain n
  rw [hcaller] at hfollows hplain
  have hnext := hfollows.2 r hreturns
  have hsame := resume_inside hnext
  refine h.move (resume_follows hnext) (fun cell v hcell => ?_) (fun t' c' failed k' heq => ?_)
    ⟨fun t' c' k' heq => ?_, fun cell v hcell => ?_, fun hcl => hinside (hsame.symm.trans hcl)⟩
    hothers fun hsds => ?_
  · rcases next_held (resume_held hcell) with ⟨hold, -⟩ | ⟨hupd, hwrites, rfl, -⟩
    · exact hplain cell v hold
    · have hallowed := hfollows.1.2
      rw [hwrites] at hallowed
      exact hallowed hupd
  · cases resume_first heq
  · cases resume_first heq
  · rcases next_held (resume_held hcell) with ⟨hold, hupd⟩ | ⟨hupd, hwrites, rfl, hr⟩
    · exact hkept cell v hold hupd
    · exact hread v hupd hwrites hr
  · rcases hswitched hsds with hcl | ⟨hold, hkeeps⟩
    · exact Or.inl (hsame.trans hcl)
    · refine Or.inr ⟨hold, fun hcl => hsame.trans (hkeeps ?_)⟩
      rw [hcaller] at hcl
      exact hcl

theorem held_of_allowed (hallowed : spec.allowed t c) (hwrites : c.writes = true)
    (hupd : c.upd = false) : t.held = none := by
  have hheld := hallowed.2
  rw [if_pos hwrites, hupd] at hheld
  exact hheld

theorem next_inside_none : (spec.next t c none).inside = t.inside := by
  cases c with
  | read => rfl
  | write => rfl
  | readExt => rfl
  | writeExt => rfl

theorem Inv.space (h : Inv s) (hundisturbed : Undisturbed s (.access n))
    (hcaller : s.caller n = .busy t c .first k) {sds : Bool} (hcell : c.cell = .plain sds c.reg)
    (hreg : Ordinary c.reg) : s.phy.sds = sds := by
  have hplain : c.extended = false := by
    cases c with
    | read => rfl
    | write => rfl
    | readExt => cases hcell
    | writeExt => cases hcell
  have hfollows := h.follows n
  rw [hcaller] at hfollows
  have hsds : sds = t.inside := hfollows.1.1 sds hcell hreg
  rw [hsds]
  cases hinside : t.inside with
  | true =>
    refine (h.relies n).inside ?_
    rw [hcaller]
    exact hinside
  | false =>
    have hothers := (hundisturbed.2 t c k hcaller hplain).2 hreg hinside
    by_contra hswitched
    rw [Bool.not_eq_false] at hswitched
    obtain ⟨m, hm⟩ := h.switched hswitched
    by_cases hmn : m = n
    · rw [hmn, hcaller] at hm
      exact absurd (hinside.symm.trans hm) Bool.false_ne_true
    · rw [hothers m hmn] at hm
      cases hm

theorem Inv.plain_cell (h : Inv s) (hundisturbed : Undisturbed s (.access n))
    (hcaller : s.caller n = .busy t c .first k) {sds : Bool} (hcell : c.cell = .plain sds c.reg) :
    s.phy.rd c.reg = s.phy.get c.cell ∧ ∀ value, s.phy.wr c.reg value = s.phy.put value c.cell := by
  by_cases hreg : Ordinary c.reg
  · have hspace := h.space hundisturbed hcaller hcell hreg
    unfold Phy.rd Phy.wr
    rw [hspace, hcell]
    exact ⟨rfl, fun _ => rfl⟩
  · -- the registers for the extended ones are the same in both spaces
    rw [hcell]
    unfold Phy.rd Phy.wr Phy.get Phy.put
    by_cases haddr : c.reg = extAddrOffsetReg
    · simp only [haddr, if_true]
      exact ⟨trivial, fun _ => trivial⟩
    · have hdata : c.reg = extDataReg := by
        by_contra hdata
        exact hreg ⟨haddr, hdata⟩
      simp only [if_neg haddr, if_pos hdata]
      exact ⟨trivial, fun _ => trivial⟩

theorem Inv.ext_cell (h : Inv s) {failed : Bool}
    (hcaller : s.caller n = .busy t c (.data failed) k) (hext : c.extended = true) :
    s.phy.extAddr = c.reg ∧ s.phy.rd extDataReg = s.phy.get c.cell ∧
      ∀ value, s.phy.wr extDataReg value = s.phy.put value c.cell := by
  have hfailed := h.sent n t c failed k hcaller
  rw [hfailed] at hcaller
  have haddr := (h.relies n).address t c k hcaller
  have hcell : c.cell = .ext c.reg := by
    cases c with
    | read => cases hext
    | write => cases hext
    | readExt => rfl
    | writeExt => rfl
  refine ⟨haddr, ?_, fun value => ?_⟩
  · rw [Phy.rd_extData, haddr, hcell]
    rfl
  · rw [Phy.wr_extData, haddr, hcell]

theorem Inv.sendAddress (h : Inv s) (hcaller : s.caller n = .busy t c .first k)
    (hothers : ∀ m, m ≠ n → (s.caller m).Relies s.phy →
      (s.caller m).Relies (s.phy.wr extAddrOffsetReg c.reg)) :
    Inv (s.move n (s.phy.wr extAddrOffsetReg c.reg) (.busy t c (.data false) k)) := by
  have hrelies := h.relies n
  have hfollows := h.follows n
  have hheld := h.plain n
  rw [hcaller] at hrelies hfollows hheld
  refine h.move hfollows hheld (fun _ _ _ _ heq => ?_) ⟨fun _ _ _ heq => ?_,
    fun cell v hcell => ?_, fun hinside => hrelies.inside hinside⟩ hothers
    fun hsds => Or.inr ⟨hsds, fun hinside => ?_⟩
  · cases heq
    rfl
  · cases heq
    rfl
  · exact (Phy.get_wr_extAddr (hheld cell v hcell) _).trans (hrelies.keeps cell v hcell)
  · rw [hcaller] at hinside
    exact hinside

theorem Inv.access (h : Inv s) (hundisturbed : Undisturbed s (.access n)) :
    Inv (s.access n) := by
  have hothers := hundisturbed.1
  have hplain := hundisturbed.2
  unfold State.access at hothers hplain ⊢
  cases hcaller : s.caller n with
  | idle => exact h
  | busy t c stage k =>
    have hrelies := h.relies n
    have hfollows := h.follows n
    have hheld := h.plain n
    rw [hcaller] at hothers hplain hrelies hfollows hheld
    cases stage with
    | first =>
      cases c with
      | read regNum sds upd =>
        refine h.finish hcaller nofun (fun v _ _ hr => ?_) (fun cell v hcell _ =>
          hrelies.keeps cell v hcell) (fun hinside => hrelies.inside hinside) hothers
          fun hsds => Or.inr ⟨hsds, fun hinside => hinside⟩
        exact (h.plain_cell hundisturbed hcaller rfl).1.symm.trans (Option.some.inj hr)
      | write regNum sds value upd =>
        have hsame := (hplain _ _ _ rfl rfl).1
        refine h.finish hcaller nofun nofun (fun cell v hcell hupd => ?_)
          (fun hinside => hsame.trans (hrelies.inside hinside)) hothers
          fun hsds => Or.inr ⟨hsame.symm.trans hsds, fun hinside => hinside⟩
        rw [held_of_allowed hfollows.1 rfl hupd] at hcell
        cases hcell
      | readExt regNum upd => exact h.sendAddress hcaller hothers
      | writeExt regNum value upd => exact h.sendAddress hcaller hothers
    | data failed =>
      have hfailed := h.sent n t c failed k hcaller
      subst hfailed
      cases c with
      | read => exact h
      | write => exact h
      | readExt regNum upd =>
        refine h.finish hcaller (fun _ _ => rfl) (fun v _ _ hr => ?_)
          (fun cell v hcell _ => hrelies.keeps cell v hcell)
          (fun hinside => hrelies.inside hinside) hothers
          fun hsds => Or.inr ⟨hsds, fun hinside => hinside⟩
        exact (h.ext_cell hcaller rfl).2.1.symm.trans (Option.some.inj hr)
      | writeExt regNum value upd =>
        have hput := (h.ext_cell hcaller rfl).2.2 value
        have hsds : (s.phy.wr extDataReg value).sds =
            if regNum = smiSdsPhyAddr then value.testBit 1 else s.phy.sds := by
          rw [hput]
          exact Phy.sds_put_ext _ _
        have hnext : (spec.next t (.writeExt regNum value upd) (some 0)).inside =
            if regNum = smiSdsPhyAddr then value.testBit 1 else t.inside := rfl
        refine h.finish hcaller (fun _ _ => rfl) nofun (fun cell v hcell hupd => ?_)
          (fun hinside => ?_) hothers fun hnew => ?_
        · rw [held_of_allowed hfollows.1 rfl hupd] at hcell
          cases hcell
        · rw [hsds]
          change (spec.next t (.writeExt regNum value upd) (some 0)).inside = true at hinside
          rw [hnext] at hinside
          split at hinside
          next heq => rw [if_pos heq, hinside]
          next hne => rw [if_neg hne, hrelies.inside hinside]
        · change (spec.next t (.writeExt regNum value upd) (some 0)).inside = true ∨ _ ∧
            (_ → (spec.next t (.writeExt regNum value upd) (some 0)).inside = true)
          rw [hsds] at hnew
          rw [hnext]
          split at hnew
          next heq => exact Or.inl (by rw [if_pos heq, hnew])
          next hne => exact Or.inr ⟨hnew, fun hinside => by rw [if_neg hne, hinside]⟩

theorem Inv.fail (h : Inv s) (hundisturbed : Undisturbed s (.fail n)) : Inv (s.fail n) := by
  unfold State.fail
  cases hcaller : s.caller n with
  | idle => exact h
  | busy t c stage k =>
    have hrelies := h.relies n
    rw [hcaller] at hrelies
    -- nothing is read, and the operation stays inside or outside
    have hends : (c.extended = true → t.inside = false) →
        Inv (s.move n s.phy (MotorCommPhy.finish t c k none)) := by
      intro hext
      have hinside : (spec.next t c none).inside = t.inside := next_inside_none
      refine h.finish hcaller (fun hyes htrue => ?_) nofun
        (fun cell v hcell _ => hrelies.keeps cell v hcell)
        (fun hin => hrelies.inside (hinside.symm.trans hin)) (fun _ _ hold => hold)
        fun hsds => Or.inr ⟨hsds, fun hin => hinside.trans hin⟩
      rw [hext hyes] at htrue
      cases htrue
    cases stage with
    | first =>
      cases c with
      | read => exact hends nofun
      | write => exact hends nofun
      | readExt => exact absurd rfl (hundisturbed _ _ _ _ hcaller rfl).1
      | writeExt => exact absurd rfl (hundisturbed _ _ _ _ hcaller rfl).1
    | data failed =>
      cases c with
      | read => exact h
      | write => exact h
      | readExt => exact hends fun _ => (hundisturbed _ _ _ _ hcaller rfl).2
      | writeExt => exact hends fun _ => (hundisturbed _ _ _ _ hcaller rfl).2

theorem Inv.step {e : Event} (h : Inv s) (hundisturbed : Undisturbed s e) (hstep : Step d s e s') :
    Inv s' := by
  cases hstep with
  | @start n op hidle =>
    have hprogram := d.updates op
    have hinside := resume_inside hprogram
    refine h.move (resume_follows hprogram) (fun cell v hcell => nomatch resume_held hcell)
      (fun _ _ _ _ heq => nomatch resume_first heq)
      ⟨fun _ _ _ heq => (nomatch resume_first heq),
        fun cell v hcell => (nomatch resume_held hcell), fun hin => ?_⟩
      (fun _ _ hold => hold) fun hsds => Or.inr ⟨hsds, fun hin => ?_⟩
    · rw [hinside] at hin
      cases hin
    · rw [hidle] at hin
      cases hin
  | access => exact h.access hundisturbed
  | fail => exact h.fail hundisturbed

theorem Initial.inv (h : Initial s) : Inv s := by
  refine ⟨fun n => ?_, fun n cell v hcell => ?_, fun n t c failed k hcaller => ?_, fun n => ?_,
    fun hsds => ?_⟩
  · rw [h.caller n]
    trivial
  · rw [h.caller n] at hcell
    cases hcell
  · rw [h.caller n] at hcaller
    cases hcaller
  · rw [h.caller n]
    exact ⟨fun _ _ _ heq => (nomatch heq), fun _ _ heq => (nomatch heq), fun heq => (nomatch heq)⟩
  · rw [h.phy] at hsds
    cases hsds

theorem exact_of_undisturbed {s : State} (hreach : (d.system.restrict Undisturbed).Reachable s)
    (hundisturbed : Undisturbed s (.access n)) : Exact s n := by
  have h : Inv s := hreach.invariant (fun _ hinit => Initial.inv hinit)
    fun _ _ _ _ hinv hstep => hinv.step hstep.1 hstep.2
  refine ⟨fun t c k hcaller sds hcell hreg => h.space hundisturbed hcaller hcell hreg,
    fun t c k hcaller sds hcell => h.plain_cell hundisturbed hcaller hcell,
    fun t c failed k hcaller hext => h.ext_cell hcaller hext,
    fun t c stage k hcaller hwrites hupd => ?_⟩
  have hfollows := h.follows n
  have hrelies := h.relies n
  rw [hcaller] at hfollows hrelies
  have hallowed := hfollows.1.2
  rw [if_pos hwrites, if_pos hupd] at hallowed
  obtain ⟨v, hheld⟩ := hallowed
  exact ⟨v, hheld, hrelies.keeps _ v hheld⟩

end HiMpu.MotorCommPhy
