import HiMpu.BmTypes
import HiMpu.TransitionSystem

/-!
# Transactions of the MDIO controller

`mdio_hi1711.c`: the calls of clause 22 and clause 45 take a semaphore and then start
one or two transactions.  A transaction that takes longer than the wait is left behind.
The calls of clause 22 look at the status bit again after a failure of the wait or of
the transaction, and try again when it is set; after a wait that ran out it may be the
bit of an earlier transaction.
-/

namespace HiMpu.Mdio

def mdioMaxDrvNum : ℕ := 1
def mdioCluse22MaxPhyAddr : ℕ := 0x1F
def mdioCluse22MaxPhyRegAddr : ℕ := 0x1F
def mdioCluse45MaxPhyAddr : ℕ := 0x1F
def mdioCluse45MaxPhyDevAddr : ℕ := 0x1F
def mdioCluse45MaxPhyRegAddr : ℕ := 0xFFFF
def mdioMaxWriteValue : ℕ := 0xFFFF
def mdioSt45 : ℕ := 0
def mdioSt22 : ℕ := 1
def mdioSt45WriteAddr : ℕ := 0
def mdioSt45WriteData : ℕ := 1
def mdioSt45Read : ℕ := 3
def mdioSt22Write : ℕ := 1
def mdioSt22Read : ℕ := 2
def maxWaitCnt : ℕ := 1000
def ebusy : ℤ := 16
def efault : ℤ := 14
def einval : ℤ := 22

inductive Op where
  | read22 (mdioId phyAddr regAddr : ℕ) (val : Bool)
  | write22 (mdioId phyAddr regAddr value : ℕ)
  | read45 (mdioId prtAddr devAddr regAddr : ℕ) (val : Bool)
  | write45 (mdioId prtAddr devAddr regAddr value : ℕ)

structure Command where
  st : ℕ
  op : ℕ
  prtad : ℕ
  devad : ℕ

namespace Op

def valid : Op → Bool
  | read22 mdioId phyAddr regAddr val =>
    val && !(mdioMaxDrvNum ≤ mdioId || mdioCluse22MaxPhyAddr < phyAddr ||
      mdioCluse22MaxPhyRegAddr < regAddr)
  | write22 mdioId phyAddr regAddr value =>
    !(mdioMaxDrvNum ≤ mdioId || mdioCluse22MaxPhyAddr < phyAddr ||
      mdioCluse22MaxPhyRegAddr < regAddr || mdioMaxWriteValue < value)
  | read45 mdioId prtAddr devAddr regAddr val =>
    val && !(mdioMaxDrvNum ≤ mdioId || mdioCluse45MaxPhyAddr < prtAddr ||
      mdioCluse45MaxPhyDevAddr < devAddr || mdioCluse45MaxPhyRegAddr < regAddr)
  | write45 mdioId prtAddr devAddr regAddr value =>
    !(mdioMaxDrvNum ≤ mdioId || mdioCluse45MaxPhyAddr < prtAddr || mdioMaxWriteValue < value ||
      mdioCluse45MaxPhyDevAddr < devAddr || mdioCluse45MaxPhyRegAddr < regAddr)

def clause45 : Op → Bool
  | read22 .. | write22 .. => false
  | read45 .. | write45 .. => true

def reads : Op → Bool
  | read22 .. | read45 .. => true
  | write22 .. | write45 .. => false

/-- What `mdio_cmd_send` sends, in the first or the second cycle of clause 45. -/
def command : Op → Bool → Command
  | read22 _ phyAddr regAddr _, _ => ⟨mdioSt22, mdioSt22Read, phyAddr, regAddr⟩
  | write22 _ phyAddr regAddr _, _ => ⟨mdioSt22, mdioSt22Write, phyAddr, regAddr⟩
  | read45 _ prtAddr devAddr _ _, false | write45 _ prtAddr devAddr _ _, false =>
    ⟨mdioSt45, mdioSt45WriteAddr, prtAddr, devAddr⟩
  | read45 _ prtAddr devAddr _ _, true => ⟨mdioSt45, mdioSt45Read, prtAddr, devAddr⟩
  | write45 _ prtAddr devAddr _ _, true => ⟨mdioSt45, mdioSt45WriteData, prtAddr, devAddr⟩

def address : Op → ℕ → ℕ
  | read45 _ _ _ regAddr _, _ | write45 _ _ _ regAddr _, _ => regAddr
  | read22 .., old | write22 .., old => old

def wdata : Op → Bool → ℕ → ℕ
  | write22 _ _ _ value, _, _ | write45 _ _ _ _ value, true, _ => value
  | _, _, old => old

end Op

def Command.IsAddress (c : Command) : Prop := c.st = mdioSt45 ∧ c.op = mdioSt45WriteAddr

def Command.IsData (c : Command) : Prop := c.st = mdioSt45 ∧ c.op ≠ mdioSt45WriteAddr

/-! ## Transactions -/

/-- A transaction that was started, with the call that started it and, once it has ended, whether
it failed and what it read. -/
structure Transaction where
  call : ℕ
  command : Command
  addr : ℕ
  wdata : ℕ
  outcome : Option (Bool × BitVec 16)

structure Local where
  call : ℕ
  op : Op
  data : Bool
  retryCount : ℕ

inductive Phase where
  | idle
  | entering (l : Local)
  /-- In the first `mdio_wait_ready`, which reads the command register `cnt` times at most. -/
  | ready (l : Local) (cnt : ℕ)
  | sending (l : Local)
  /-- In the `mdio_wait_ready` of `mdio_check_sta`. -/
  | waiting (l : Local) (cnt : ℕ)
  /-- In front of the read of the status in `mdio_check_sta`. -/
  | checking (l : Local)
  /-- In front of the read of the status after an error of `mdio_check_sta`. -/
  | failed (l : Local)
  | reading (l : Local)

structure Result where
  call : ℕ
  op : Op
  code : ℤ
  value : BitVec 32
  last : Option Transaction

structure State where
  log : List Transaction
  /-- The status bit; it is anything while a transaction is running. -/
  sta : Bool
  rdata : BitVec 32
  addr : ℕ
  wdata : ℕ
  sem : Option ℕ
  phase : ℕ → Phase
  calls : ℕ
  results : List Result
  /-- A command was sent while the start bit was set. -/
  overlap : Bool

namespace State

def start (s : State) : Bool :=
  match s.log with
  | [] => false
  | t :: _ => t.outcome.isNone

def setPhase (s : State) (n : ℕ) (p : Phase) : State :=
  { s with phase := Function.update s.phase n p }

def refuse (s : State) (n : ℕ) (l : Local) (code : ℤ) : State :=
  { s with
    phase := Function.update s.phase n .idle
    results := ⟨l.call, l.op, code, 0, s.log.find? fun t => t.call = l.call⟩ :: s.results }

def finish (s : State) (n : ℕ) (l : Local) (code : ℤ) (value : BitVec 32) : State :=
  { s with
    sem := none
    phase := Function.update s.phase n .idle
    results := ⟨l.call, l.op, code, value, s.log.find? fun t => t.call = l.call⟩ :: s.results }

/-- The accesses of `mdio_address_config`, `mdio_wdata_config` and `mdio_cmd_send`, the last of
which starts the transaction. -/
def send (s : State) (n : ℕ) (l : Local) : State :=
  let addr := l.op.address s.addr
  let wdata := l.op.wdata l.data s.wdata
  { s with
    log := ⟨l.call, l.op.command l.data, addr, wdata, none⟩ :: s.log
    addr := addr
    wdata := wdata
    phase := Function.update s.phase n (.waiting l maxWaitCnt)
    overlap := s.overlap || s.start }

def checkFailed (s : State) (n : ℕ) (l : Local) : State :=
  if l.op.clause45 then s.finish n l (-efault) 0 else s.setPhase n (.failed l)

def access (s : State) (n : ℕ) : State :=
  match s.phase n with
  | .idle | .entering _ => s
  | .ready l cnt =>
    if s.start = false then s.setPhase n (.sending l)
    else if cnt ≤ 1 then s.finish n l (-ebusy) 0
    else s.setPhase n (.ready l (cnt - 1))
  | .sending l => s.send n l
  | .waiting l cnt =>
    if s.start = false then s.setPhase n (.checking l)
    else if cnt ≤ 1 then s.checkFailed n l
    else s.setPhase n (.waiting l (cnt - 1))
  | .checking l =>
    if s.sta = true then s.checkFailed n l
    else if l.op.clause45 = true ∧ l.data = false then
      s.setPhase n (.sending { l with data := true })
    else if l.op.reads then s.setPhase n (.reading l)
    else s.finish n l 0 0
  | .failed l =>
    if l.retryCount ≠ 0 ∧ s.sta = true then
      s.setPhase n (.sending { l with retryCount := l.retryCount - 1 })
    else s.finish n l (-efault) 0
  | .reading l => s.finish n l 0 (s.rdata &&& 0xffff)

end State

inductive Event where
  | call (n : ℕ) (op : Op)
  | down (n : ℕ)
  | interrupt (n : ℕ)
  | access (n : ℕ)
  | done (failed : Bool) (data upper : BitVec 16)
  | drift (sta : Bool)

inductive Step (s : State) : Event → State → Prop
  | call {n : ℕ} {op : Op} (hidle : s.phase n = .idle) (hvalid : op.valid = true) :
      Step s (.call n op)
        { s with
          calls := s.calls + 1
          phase := Function.update s.phase n (.entering ⟨s.calls, op, false, 1⟩) }
  | invalid {n : ℕ} {op : Op} (hidle : s.phase n = .idle) (hvalid : op.valid = false) :
      Step s (.call n op)
        ({ s with calls := s.calls + 1 }.refuse n ⟨s.calls, op, false, 1⟩ (-einval))
  | down {n : ℕ} {l : Local} (hphase : s.phase n = .entering l) (hfree : s.sem = none) :
      Step s (.down n)
        { s with
          sem := some n
          phase := Function.update s.phase n (.ready l maxWaitCnt) }
  | interrupt {n : ℕ} {l : Local} (hphase : s.phase n = .entering l) :
      Step s (.interrupt n) (s.refuse n l (-ebusy))
  | access (n : ℕ) : Step s (.access n) (s.access n)
  | done {t : Transaction} {rest : List Transaction} (failed : Bool) (data upper : BitVec 16)
      (hlog : s.log = t :: rest) (hrunning : t.outcome = none) :
      Step s (.done failed data upper)
        { s with
          log := { t with outcome := some (failed, data) } :: rest
          sta := failed
          rdata := upper ++ data }
  | drift (sta : Bool) (hrunning : s.start = true) : Step s (.drift sta) { s with sta := sta }

structure Initial (s : State) : Prop where
  log : s.log = []
  sem : s.sem = none
  phase : ∀ n, s.phase n = .idle
  results : s.results = []
  overlap : s.overlap = false

def system : TransitionSystem State Event := ⟨Initial, Step⟩

/-! ## What is promised -/

def Paired : List Transaction → Prop
  | [] => True
  | t :: rest =>
    (t.command.IsData → ∃ a tail, rest = a :: tail ∧ a.command.IsAddress ∧ a.call = t.call) ∧
      Paired rest

def State.issued (s : State) (call : ℕ) : ℕ := (s.log.filter fun t => t.call = call).length

structure Orderly (s : State) : Prop where
  free : (∀ n, s.phase n = .idle) → s.sem = none
  paired : Paired s.log
  two : ∀ call, s.issued call ≤ 2

/-- A call that returned 0 had its last transaction end without an error, and returned what it
read. -/
def Result.Honest (r : Result) : Prop :=
  r.code = 0 → ∃ t, r.last = some t ∧ t.call = r.call ∧
    ∃ data, t.outcome = some (false, data) ∧ (r.op.reads = true → r.value = data.setWidth 32)

structure Exact (s : State) : Prop where
  overlap : s.overlap = false
  results : ∀ r ∈ s.results, r.Honest

/-- A call of clause 22 whose wait has run out does not find the status bit set while its
transaction is still running. -/
def Current (s : State) : Event → Prop
  | .access n => ∀ l, s.phase n = .failed l → l.retryCount ≠ 0 → s.start = true → s.sta = false
  | .call _ _ | .down _ | .interrupt _ | .done _ _ _ | .drift _ => True

def Phase.Holds : Phase → Bool
  | .idle | .entering _ => false
  | .ready .. | .sending _ | .waiting .. | .checking _ | .failed _ | .reading _ => true

def Phase.local? : Phase → Option Local
  | .idle => none
  | .entering l | .ready l _ | .sending l | .waiting l _ | .checking l | .failed l
  | .reading l => some l

def Local.sent (l : Local) : ℕ :=
  if l.op.clause45 then (if l.data then 1 else 0) else 1 - l.retryCount

structure Local.Ok (l : Local) (s : State) : Prop where
  call_lt : l.call < s.calls
  retry_le : l.retryCount ≤ 1
  clause45 : l.data = true → l.op.clause45 = true

def State.Own (s : State) (l : Local) : Prop :=
  ∃ t rest, s.log = t :: rest ∧ t.call = l.call ∧ t.command = l.op.command l.data

structure Local.Sent (l : Local) (s : State) : Prop extends l.Ok s where
  issued : s.issued l.call = l.sent + 1
  own : s.Own l

def PhaseOk (clean : Prop) (s : State) : Phase → Prop
  | .idle => True
  | .entering l | .ready l _ =>
    l.Ok s ∧ l.data = false ∧ l.retryCount = 1 ∧ s.issued l.call = 0
  | .sending l => l.Ok s ∧ s.issued l.call = l.sent ∧
      (l.data = true → s.Own { l with data := false }) ∧ (clean → s.start = false)
  | .waiting l _ => l.Sent s
  | .checking l => l.Sent s ∧ s.start = false
  | .failed l => l.Sent s ∧ l.op.clause45 = false
  | .reading l => l.Sent s ∧ s.start = false ∧ s.sta = false

structure Inv (clean : Prop) (s : State) : Prop where
  holds : ∀ n, (s.phase n).Holds = true ↔ s.sem = some n
  phases : ∀ n, PhaseOk clean s (s.phase n)
  distinct : ∀ n m l k, (s.phase n).local? = some l → (s.phase m).local? = some k → n ≠ m →
    l.call ≠ k.call
  fresh : ∀ call, s.calls ≤ call → s.issued call = 0
  two : ∀ call, s.issued call ≤ 2
  paired : Paired s.log
  settled : s.start = false → ∀ t rest, s.log = t :: rest →
    t.outcome = some (s.sta, s.rdata.setWidth 16)
  results : ∀ r ∈ s.results, r.Honest
  overlap : clean → s.overlap = false

variable {clean : Prop} {s s' : State} {n : ℕ} {l : Local} {op : Op} {p : Phase}

theorem Local.sent_le (l : Local) : l.sent ≤ 1 := by
  unfold Local.sent
  split
  · split <;> omega
  · omega

theorem command_isData {data : Bool} (h : (op.command data).IsData) : data = true := by
  cases op with
  | read22 => exact absurd h.1 (by decide : mdioSt22 ≠ mdioSt45)
  | write22 => exact absurd h.1 (by decide : mdioSt22 ≠ mdioSt45)
  | read45 =>
    cases data with
    | false => exact absurd rfl h.2
    | true => rfl
  | write45 =>
    cases data with
    | false => exact absurd rfl h.2
    | true => rfl

theorem command_isAddress (h : op.clause45 = true) : (op.command false).IsAddress := by
  cases op with
  | read22 => cases h
  | write22 => cases h
  | read45 => exact ⟨rfl, rfl⟩
  | write45 => exact ⟨rfl, rfl⟩

theorem Inv.outside (h : Inv clean s) (hn : (s.phase n).Holds = true) {m : ℕ} (hm : m ≠ n) :
    (s.phase m).Holds = false := by
  by_contra hother
  rw [Bool.not_eq_false, h.holds m, (h.holds n).mp hn, Option.some.injEq] at hother
  exact hm hother.symm

theorem start_congr (hlog : s'.log = s.log) : s'.start = s.start := by
  unfold State.start
  rw [hlog]

theorem issued_congr (hlog : s'.log = s.log) (call : ℕ) : s'.issued call = s.issued call := by
  unfold State.issued
  rw [hlog]

theorem Local.Ok.congr (h : l.Ok s) (hcalls : s.calls ≤ s'.calls) : l.Ok s' :=
  ⟨h.call_lt.trans_le hcalls, h.retry_le, h.clause45⟩

theorem Local.Sent.congr (h : l.Sent s) (hlog : s'.log = s.log) (hcalls : s.calls ≤ s'.calls) :
    l.Sent s' := by
  obtain ⟨t, rest, hhead, hcall⟩ := h.own
  exact ⟨h.toOk.congr hcalls, (issued_congr hlog _).trans h.issued,
    t, rest, hlog.trans hhead, hcall⟩

theorem PhaseOk.congr (h : PhaseOk clean s p) (hlog : s'.log = s.log) (hsta : s'.sta = s.sta)
    (hcalls : s.calls ≤ s'.calls) : PhaseOk clean s' p := by
  have hstart := start_congr hlog
  cases p with
  | idle => trivial
  | entering l =>
    exact ⟨h.1.congr hcalls, h.2.1, h.2.2.1, (issued_congr hlog _).trans h.2.2.2⟩
  | ready l cnt =>
    exact ⟨h.1.congr hcalls, h.2.1, h.2.2.1, (issued_congr hlog _).trans h.2.2.2⟩
  | sending l =>
    refine ⟨h.1.congr hcalls, (issued_congr hlog _).trans h.2.1, fun hdata => ?_,
      fun hclean => hstart.trans (h.2.2.2 hclean)⟩
    obtain ⟨t, rest, hhead, hcall⟩ := h.2.2.1 hdata
    exact ⟨t, rest, hlog.trans hhead, hcall⟩
  | waiting l cnt => exact Local.Sent.congr h hlog hcalls
  | checking l => exact ⟨h.1.congr hlog hcalls, hstart.trans h.2⟩
  | failed l => exact ⟨h.1.congr hlog hcalls, h.2⟩
  | reading l => exact ⟨h.1.congr hlog hcalls, hstart.trans h.2.1, hsta.trans h.2.2⟩

theorem Inv.holds_update (h : Inv clean s) {sem : Option ℕ} (hown : p.Holds = true ↔ sem = some n)
    (hothers : ∀ m, m ≠ n → (s.sem = some m ↔ sem = some m)) :
    ∀ m, (Function.update s.phase n p m).Holds = true ↔ sem = some m :=
  (Function.forall_update_iff s.phase fun m q => q.Holds = true ↔ sem = some m).mpr
    ⟨hown, fun m hm => (h.holds m).trans (hothers m hm)⟩

theorem Inv.phases_update (h : Inv clean s) (hok : PhaseOk clean s p) :
    ∀ m, PhaseOk clean s (Function.update s.phase n p m) :=
  (Function.forall_update_iff s.phase fun _ q => PhaseOk clean s q).mpr
    ⟨hok, fun m _ => h.phases m⟩

theorem local_update (hown : ∀ l, p.local? = some l → (s.phase n).local? = some l) :
    ∀ m l, (Function.update s.phase n p m).local? = some l → (s.phase m).local? = some l :=
  (Function.forall_update_iff s.phase
    fun m q => ∀ l, q.local? = some l → (s.phase m).local? = some l).mpr
      ⟨hown, fun _ _ _ hl => hl⟩

theorem Inv.setPhase (h : Inv clean s) (hholds : p.Holds = (s.phase n).Holds) {k : Local}
    (hlocal : (s.phase n).local? = some l) (hnew : p.local? = some k) (hcall : k.call = l.call)
    (hok : PhaseOk clean s p) : Inv clean (s.setPhase n p) := by
  have hcalls : ∀ m l', (Function.update s.phase n p m).local? = some l' →
      ∃ k', (s.phase m).local? = some k' ∧ k'.call = l'.call := by
    refine (Function.forall_update_iff s.phase fun m q => ∀ l', q.local? = some l' →
      ∃ k', (s.phase m).local? = some k' ∧ k'.call = l'.call).mpr
        ⟨fun l' hl' => ?_, fun m _ l' hl' => ⟨l', hl', rfl⟩⟩
    rw [hnew, Option.some.injEq] at hl'
    exact ⟨l, hlocal, hl' ▸ hcall.symm⟩
  refine ⟨?_, fun m => ?_, fun m m' l l' hl hl' hne => ?_, h.fresh, h.two, h.paired,
    h.settled, h.results, h.overlap⟩
  · refine h.holds_update ?_ fun _ _ => Iff.rfl
    rw [hholds]
    exact h.holds n
  · exact (h.phases_update hok m).congr rfl rfl le_rfl
  · obtain ⟨k, hk, hcallk⟩ := hcalls m l hl
    obtain ⟨k', hk', hcallk'⟩ := hcalls m' l' hl'
    rw [← hcallk, ← hcallk']
    exact h.distinct m m' k k' hk hk' hne

theorem Inv.idle (h : Inv clean s) {sem : Option ℕ} {r : Result} {calls : ℕ}
    (hsem : ∀ m, m ≠ n → (s.sem = some m ↔ sem = some m)) (hfree : sem ≠ some n)
    (hcalls : s.calls ≤ calls) (hr : r.Honest) :
    Inv clean { s with
      sem := sem
      phase := Function.update s.phase n .idle
      calls := calls
      results := r :: s.results } := by
  refine ⟨?_, fun m => ?_, fun m m' l l' hl hl' hne => ?_,
    fun call hcall => h.fresh call (hcalls.trans hcall), h.two, h.paired, h.settled,
    fun r' hr' => ?_, h.overlap⟩
  · exact h.holds_update
      ⟨fun hheld => absurd hheld Bool.false_ne_true, fun heq => absurd heq hfree⟩ hsem
  · have hidle : PhaseOk clean s .idle := trivial
    exact (h.phases_update hidle m).congr rfl rfl hcalls
  · have hother := local_update (s := s) (n := n) (p := .idle) nofun
    exact h.distinct m m' l l' (hother m l hl) (hother m' l' hl') hne
  · rcases List.mem_cons.mp hr' with rfl | hold
    · exact hr
    · exact h.results r' hold

theorem and_low (v : BitVec 32) : v &&& 0xffff = (v.setWidth 16).setWidth 32 := by
  apply BitVec.eq_of_toNat_eq
  rw [BitVec.toNat_and, BitVec.toNat_setWidth, BitVec.toNat_setWidth]
  change v.toNat &&& (2 ^ 16 - 1) = _
  rw [Nat.and_two_pow_sub_one_eq_mod]
  omega

theorem Result.honest_of_ne (r : Result) (h : r.code ≠ 0) : r.Honest := fun hzero => absurd hzero h

theorem Inv.refuse (h : Inv clean s) (hn : (s.phase n).Holds = false) {calls : ℕ}
    (hcalls : s.calls ≤ calls) (l : Local) {code : ℤ} (hcode : code ≠ 0) :
    Inv clean ({ s with calls := calls }.refuse n l code) := by
  refine h.idle (fun m _ => Iff.rfl) (fun hheld => ?_) hcalls (Result.honest_of_ne _ hcode)
  rw [(h.holds n).mpr hheld] at hn
  cases hn

theorem Inv.finish (h : Inv clean s) (hn : (s.phase n).Holds = true) {code : ℤ} {value : BitVec 32}
    (hr : Result.Honest ⟨l.call, l.op, code, value, s.log.find? fun t => t.call = l.call⟩) :
    Inv clean (s.finish n l code value) := by
  have hsem := (h.holds n).mp hn
  refine h.idle (fun m hm => ?_) (fun hheld => nomatch hheld) le_rfl hr
  rw [hsem, Option.some.injEq]
  exact ⟨fun heq => absurd heq.symm hm, fun heq => nomatch heq⟩

theorem Inv.checkFailed (h : Inv clean s) (hn : (s.phase n).Holds = true)
    (hlocal : (s.phase n).local? = some l) (hsent : l.Sent s) :
    Inv clean (s.checkFailed n l) := by
  unfold State.checkFailed
  split
  · exact h.finish hn (Result.honest_of_ne _ (by decide : -efault ≠ 0))
  next hclause =>
    exact h.setPhase hn.symm hlocal rfl rfl ⟨hsent, Bool.not_eq_true _ ▸ hclause⟩

theorem Inv.honest (h : Inv clean s) (hsent : l.Sent s) (hstart : s.start = false)
    (hsta : s.sta = false) {value : BitVec 32}
    (hvalue : l.op.reads = true → value = s.rdata &&& 0xffff) :
    Result.Honest ⟨l.call, l.op, 0, value, s.log.find? fun t => t.call = l.call⟩ := by
  intro _
  obtain ⟨t, rest, hlog, hcall, -⟩ := hsent.own
  have houtcome := h.settled hstart t rest hlog
  rw [hsta] at houtcome
  refine ⟨t, ?_, hcall, _, houtcome, fun hreads => ?_⟩
  · change s.log.find? _ = some t
    rw [hlog]
    exact List.find?_cons_of_pos (decide_eq_true hcall)
  · change value = _
    rw [hvalue hreads]
    exact and_low s.rdata

theorem issued_cons {t : Transaction} (hlog : s'.log = t :: s.log) (call : ℕ) :
    s'.issued call = s.issued call + if t.call = call then 1 else 0 := by
  unfold State.issued
  rw [hlog]
  by_cases hcall : t.call = call
  · simp [hcall]
  · simp [hcall]

theorem Inv.send (h : Inv clean s) (hphase : s.phase n = .sending l) :
    Inv clean (s.send n l) := by
  have hheld : (s.phase n).Holds = true := by
    rw [hphase]
    rfl
  obtain ⟨hok, hissued, hown, hquiet⟩ : PhaseOk clean s (.sending l) := hphase ▸ h.phases n
  have hlog : (s.send n l).log = ⟨l.call, l.op.command l.data, l.op.address s.addr,
      l.op.wdata l.data s.wdata, none⟩ :: s.log := rfl
  have hcount : ∀ call, (s.send n l).issued call =
      s.issued call + if l.call = call then 1 else 0 := issued_cons hlog
  have hother : ∀ m, m ≠ n → ∀ k, (s.phase m).local? = some k → l.call ≠ k.call :=
    fun m hm k hk => h.distinct n m l k (by rw [hphase]; rfl) hk hm.symm
  have hlocal : ∀ m k, ((s.send n l).phase m).local? = some k → (s.phase m).local? = some k := by
    refine local_update fun k hk => ?_
    rw [hphase]
    exact hk
  refine ⟨?_, fun m => ?_, fun m m' k k' hk hk' hne =>
    h.distinct m m' k k' (hlocal m k hk) (hlocal m' k' hk') hne, fun call hcall => ?_,
    fun call => ?_, ⟨fun hdata => ?_, h.paired⟩, nofun, h.results,
    fun hclean => ?_⟩
  · exact h.holds_update ⟨fun _ => (h.holds n).mp hheld, fun _ => rfl⟩ fun _ _ => Iff.rfl
  · by_cases hm : m = n
    · have hwaiting : (s.send n l).phase m = .waiting l maxWaitCnt := by
        rw [hm]
        exact Function.update_self _ _ _
      rw [hwaiting]
      refine ⟨⟨hok.call_lt, hok.retry_le, hok.clause45⟩, ?_, _, _, hlog, rfl, rfl⟩
      rw [hcount, if_pos rfl, hissued]
    · -- the others are in front of the semaphore
      have hsame : (s.send n l).phase m = s.phase m := Function.update_of_ne hm _ _
      have hout := h.outside hheld hm
      have hold := h.phases m
      have hcall := hother m hm
      rw [hsame]
      cases hp : s.phase m with
      | idle => trivial
      | entering k =>
        rw [hp] at hold hcall
        refine ⟨⟨hold.1.call_lt, hold.1.retry_le, hold.1.clause45⟩, hold.2.1, hold.2.2.1, ?_⟩
        rw [hcount, if_neg (hcall k rfl), hold.2.2.2]
      | ready => rw [hp] at hout; cases hout
      | sending => rw [hp] at hout; cases hout
      | waiting => rw [hp] at hout; cases hout
      | checking => rw [hp] at hout; cases hout
      | failed => rw [hp] at hout; cases hout
      | reading => rw [hp] at hout; cases hout
  · have hne : l.call ≠ call := fun heq => absurd hok.call_lt (not_lt.mpr (heq ▸ hcall))
    rw [hcount, if_neg hne]
    exact h.fresh call hcall
  · rw [hcount]
    by_cases hcall : l.call = call
    · have hle := l.sent_le
      rw [if_pos hcall, ← hcall, hissued]
      omega
    · rw [if_neg hcall]
      exact h.two call
  · have htrue : l.data = true := command_isData hdata
    obtain ⟨t, rest, hhead, hcall, hcommand⟩ := hown htrue
    refine ⟨t, rest, hhead, ?_, hcall⟩
    rw [hcommand]
    exact command_isAddress (hok.clause45 htrue)
  · change (s.overlap || s.start) = false
    rw [h.overlap hclean, hquiet hclean]
    rfl

theorem Inv.access (h : Inv clean s) (hcurrent : clean → Current s (.access n)) :
    Inv clean (s.access n) := by
  have hok := h.phases n
  unfold State.access
  cases hphase : s.phase n with
  | idle => exact h
  | entering => exact h
  | ready l cnt =>
    rw [hphase] at hok
    obtain ⟨hl, hdata, hretry, hissued⟩ := hok
    have hheld : (s.phase n).Holds = true := hphase ▸ rfl
    have hlocal : (s.phase n).local? = some l := hphase ▸ rfl
    simp only []
    split
    next hstart =>
      refine h.setPhase hheld.symm hlocal rfl rfl ⟨hl, ?_, ?_, fun _ => hstart⟩
      · rw [hissued, Local.sent, hdata, hretry]
        split <;> rfl
      · rw [hdata]
        exact fun hfalse => absurd hfalse Bool.false_ne_true
    next =>
      split
      · exact h.finish hheld (Result.honest_of_ne _ (by decide : -ebusy ≠ 0))
      · exact h.setPhase hheld.symm hlocal rfl rfl ⟨hl, hdata, hretry, hissued⟩
  | sending l => exact h.send hphase
  | waiting l cnt =>
    rw [hphase] at hok
    have hsent : l.Sent s := hok
    have hheld : (s.phase n).Holds = true := hphase ▸ rfl
    have hlocal : (s.phase n).local? = some l := hphase ▸ rfl
    simp only []
    split
    next hstart => exact h.setPhase hheld.symm hlocal rfl rfl ⟨hsent, hstart⟩
    next =>
      split
      · exact h.checkFailed hheld hlocal hsent
      · exact h.setPhase hheld.symm hlocal rfl rfl hsent
  | checking l =>
    rw [hphase] at hok
    obtain ⟨hsent, hstart⟩ := hok
    have hheld : (s.phase n).Holds = true := hphase ▸ rfl
    have hlocal : (s.phase n).local? = some l := hphase ▸ rfl
    simp only []
    split
    · exact h.checkFailed hheld hlocal hsent
    next hsta =>
      have hsta : s.sta = false := Bool.not_eq_true _ ▸ hsta
      split
      next hfirst =>
        have hclause : l.op.clause45 = true := hfirst.1
        have hdata : l.data = false := hfirst.2
        refine h.setPhase hheld.symm hlocal rfl rfl
          ⟨⟨hsent.call_lt, hsent.retry_le, fun _ => hclause⟩, ?_, fun _ => ?_, fun _ => hstart⟩
        · have hissued := hsent.issued
          rw [Local.sent, if_pos hclause, hdata] at hissued
          exact hissued.trans (if_pos hclause).symm
        · obtain ⟨t, rest, hlog, hcall, hcommand⟩ := hsent.own
          rw [hdata] at hcommand
          exact ⟨t, rest, hlog, hcall, hcommand⟩
      next =>
        split
        · exact h.setPhase hheld.symm hlocal rfl rfl ⟨hsent, hstart, hsta⟩
        next hreads =>
          exact h.finish hheld (h.honest hsent hstart hsta fun hyes => absurd hyes hreads)
  | failed l =>
    rw [hphase] at hok
    obtain ⟨hsent, hclause⟩ := hok
    have hheld : (s.phase n).Holds = true := hphase ▸ rfl
    have hlocal : (s.phase n).local? = some l := hphase ▸ rfl
    simp only []
    split
    next hretry =>
      have hone : l.retryCount = 1 := by
        have hle := hsent.retry_le
        have hne := hretry.1
        omega
      refine h.setPhase hheld.symm hlocal rfl rfl
        ⟨⟨hsent.call_lt, ?_, hsent.clause45⟩, ?_, fun hdata => ?_, fun hclean => ?_⟩
      · exact (Nat.sub_le _ _).trans hsent.retry_le
      · have hissued := hsent.issued
        have hneg : ¬ l.op.clause45 = true := by rw [hclause]; exact Bool.false_ne_true
        rw [Local.sent, if_neg hneg, hone] at hissued
        change s.issued l.call = if l.op.clause45 = true then _ else 1 - (l.retryCount - 1)
        rw [hissued, if_neg hneg, hone]
      · have hyes := hsent.clause45 hdata
        rw [hclause] at hyes
        cases hyes
      · -- the status bit is not that of a transaction that is still running
        by_contra hstart
        rw [Bool.not_eq_false] at hstart
        have hsta := hcurrent hclean l hphase hretry.1 hstart
        rw [hretry.2] at hsta
        cases hsta
    next => exact h.finish hheld (Result.honest_of_ne _ (by decide : -efault ≠ 0))
  | reading l =>
    rw [hphase] at hok
    obtain ⟨hsent, hstart, hsta⟩ := hok
    have hheld : (s.phase n).Holds = true := hphase ▸ rfl
    exact h.finish hheld (h.honest hsent hstart hsta fun _ => rfl)

theorem PhaseOk.call_lt (h : PhaseOk clean s p) (hl : p.local? = some l) : l.call < s.calls := by
  cases p with
  | idle => cases hl
  | entering => cases hl; exact h.1.call_lt
  | ready => cases hl; exact h.1.call_lt
  | sending => cases hl; exact h.1.call_lt
  | waiting => cases hl; exact Local.Ok.call_lt (Local.Sent.toOk h)
  | checking => cases hl; exact h.1.call_lt
  | failed => cases hl; exact h.1.call_lt
  | reading => cases hl; exact h.1.call_lt

theorem Inv.call (h : Inv clean s) (hidle : s.phase n = .idle) (op : Op) :
    Inv clean { s with
      calls := s.calls + 1
      phase := Function.update s.phase n (.entering ⟨s.calls, op, false, 1⟩) } := by
  have hcases : ∀ m l, (Function.update s.phase n (.entering ⟨s.calls, op, false, 1⟩) m).local? =
      some l → m = n ∧ l.call = s.calls ∨ (s.phase m).local? = some l ∧ l.call < s.calls := by
    refine (Function.forall_update_iff s.phase fun m q => ∀ l, q.local? = some l →
      m = n ∧ l.call = s.calls ∨ (s.phase m).local? = some l ∧ l.call < s.calls).mpr
        ⟨fun l hl => ?_, fun m _ l hl => Or.inr ⟨hl, (h.phases m).call_lt hl⟩⟩
    cases hl
    exact Or.inl ⟨rfl, rfl⟩
  refine ⟨?_, fun m => ?_, fun m m' l l' hl hl' hne => ?_,
    fun call hcall => h.fresh call (Nat.le_of_succ_le hcall), h.two, h.paired, h.settled,
    h.results, h.overlap⟩
  · refine h.holds_update ?_ fun _ _ => Iff.rfl
    rw [← h.holds n, hidle]
    rfl
  · by_cases hm : m = n
    · change PhaseOk clean _ (Function.update s.phase n (.entering ⟨s.calls, op, false, 1⟩) m)
      rw [hm, Function.update_self]
      exact ⟨⟨Nat.lt_succ_self _, le_rfl, fun hfalse => absurd hfalse Bool.false_ne_true⟩, rfl,
        rfl, h.fresh s.calls le_rfl⟩
    · have hold : PhaseOk clean s
          (Function.update s.phase n (.entering ⟨s.calls, op, false, 1⟩) m) := by
        rw [Function.update_of_ne hm]
        exact h.phases m
      exact hold.congr rfl rfl (Nat.le_succ _)
  · rcases hcases m l hl with ⟨hm, hcall⟩ | ⟨hold, hlt⟩
    · rcases hcases m' l' hl' with ⟨hm', -⟩ | ⟨-, hlt'⟩
      · exact absurd (hm.trans hm'.symm) hne
      · omega
    · rcases hcases m' l' hl' with ⟨-, hcall'⟩ | ⟨hold', -⟩
      · omega
      · exact h.distinct m m' l l' hold hold' hne

theorem Inv.down (h : Inv clean s) (hphase : s.phase n = .entering l) (hfree : s.sem = none) :
    Inv clean { s with
      sem := some n
      phase := Function.update s.phase n (.ready l maxWaitCnt) } := by
  have hok : PhaseOk clean s (.ready l maxWaitCnt) := by
    have hentering := h.phases n
    rw [hphase] at hentering
    exact hentering
  have hlocal : ∀ m k, (Function.update s.phase n (.ready l maxWaitCnt) m).local? = some k →
      (s.phase m).local? = some k := by
    refine local_update fun k hk => ?_
    rw [hphase]
    exact hk
  refine ⟨?_, fun m => ?_, fun m m' k k' hk hk' hne =>
    h.distinct m m' k k' (hlocal m k hk) (hlocal m' k' hk') hne, h.fresh, h.two, h.paired,
    h.settled, h.results, h.overlap⟩
  · refine h.holds_update ⟨fun _ => rfl, fun _ => rfl⟩ fun m hm => ?_
    rw [hfree, Option.some.injEq]
    exact ⟨nofun, fun heq => absurd heq.symm hm⟩
  · exact (h.phases_update hok m).congr rfl rfl le_rfl

theorem setWidth_append (upper data : BitVec 16) : (upper ++ data).setWidth 16 = data := by
  apply BitVec.eq_of_getLsbD_eq
  intro i hi
  rw [BitVec.getLsbD_setWidth, decide_eq_true hi, Bool.true_and, BitVec.getLsbD_append, if_pos hi]

theorem Inv.done {t : Transaction} {rest : List Transaction} (h : Inv clean s) (failed : Bool)
    (data upper : BitVec 16) (hlog : s.log = t :: rest) (hrunning : t.outcome = none) :
    Inv clean { s with
      log := { t with outcome := some (failed, data) } :: rest
      sta := failed
      rdata := upper ++ data } := by
  have hstart : s.start = true := by
    unfold State.start
    rw [hlog]
    exact Option.isNone_iff_eq_none.mpr hrunning
  have hissued : ∀ call, State.issued { s with
      log := { t with outcome := some (failed, data) } :: rest
      sta := failed
      rdata := upper ++ data } call = s.issued call := by
    intro call
    unfold State.issued
    rw [hlog]
    by_cases hcall : t.call = call
    · simp [hcall]
    · simp [hcall]
  have hown : ∀ l, s.Own l → State.Own { s with
      log := { t with outcome := some (failed, data) } :: rest
      sta := failed
      rdata := upper ++ data } l := by
    rintro l ⟨u, tail, hhead, hcall, hcommand⟩
    rw [hlog, List.cons.injEq] at hhead
    obtain ⟨rfl, rfl⟩ := hhead
    exact ⟨_, _, rfl, hcall, hcommand⟩
  refine ⟨h.holds, fun m => ?_, h.distinct, fun call hcall => (hissued call).trans (h.fresh call hcall),
    fun call => (hissued call).trans_le (h.two call), ?_, fun _ u tail hhead => ?_, h.results,
    h.overlap⟩
  · have hold := h.phases m
    cases hp : s.phase m with
    | idle => trivial
    | entering l =>
      rw [hp] at hold
      exact ⟨⟨hold.1.1, hold.1.2, hold.1.3⟩, hold.2.1, hold.2.2.1, (hissued _).trans hold.2.2.2⟩
    | ready l cnt =>
      rw [hp] at hold
      exact ⟨⟨hold.1.1, hold.1.2, hold.1.3⟩, hold.2.1, hold.2.2.1, (hissued _).trans hold.2.2.2⟩
    | sending l =>
      rw [hp] at hold
      exact ⟨⟨hold.1.1, hold.1.2, hold.1.3⟩, (hissued _).trans hold.2.1,
        fun hdata => hown _ (hold.2.2.1 hdata), fun _ => rfl⟩
    | waiting l cnt =>
      rw [hp] at hold
      have hsent : l.Sent s := hold
      exact ⟨⟨hsent.1.1, hsent.1.2, hsent.1.3⟩, (hissued _).trans hsent.issued, hown l hsent.own⟩
    | checking l =>
      rw [hp] at hold
      exact absurd (hstart.symm.trans hold.2) (by decide)
    | failed l =>
      rw [hp] at hold
      exact ⟨⟨⟨hold.1.1.1, hold.1.1.2, hold.1.1.3⟩, (hissued _).trans hold.1.issued,
        hown l hold.1.own⟩, hold.2⟩
    | reading l =>
      rw [hp] at hold
      exact absurd (hstart.symm.trans hold.2.1) (by decide)
  · have hpaired : Paired (t :: rest) := hlog ▸ h.paired
    exact hpaired
  · cases hhead
    change some (failed, data) = some (failed, (upper ++ data).setWidth 16)
    rw [setWidth_append]

theorem Inv.drift (h : Inv clean s) (sta : Bool) (hrunning : s.start = true) :
    Inv clean { s with sta := sta } := by
  refine ⟨h.holds, fun m => ?_, h.distinct, h.fresh, h.two, h.paired, fun hstart => ?_,
    h.results, h.overlap⟩
  · have hold := h.phases m
    cases hp : s.phase m with
    | idle => trivial
    | entering l => rw [hp] at hold; exact ⟨⟨hold.1.1, hold.1.2, hold.1.3⟩, hold.2⟩
    | ready l cnt => rw [hp] at hold; exact ⟨⟨hold.1.1, hold.1.2, hold.1.3⟩, hold.2⟩
    | sending l => rw [hp] at hold; exact ⟨⟨hold.1.1, hold.1.2, hold.1.3⟩, hold.2⟩
    | waiting l cnt => rw [hp] at hold; exact Local.Sent.congr (s := s) hold rfl le_rfl
    | checking l => rw [hp] at hold; exact ⟨hold.1.congr rfl le_rfl, hold.2⟩
    | failed l => rw [hp] at hold; exact ⟨hold.1.congr rfl le_rfl, hold.2⟩
    | reading l =>
      rw [hp] at hold
      exact absurd (hrunning.symm.trans hold.2.1) (by decide)
  · exact absurd (hrunning.symm.trans hstart) (by decide)

theorem Inv.step {e : Event} (h : Inv clean s) (hcurrent : clean → Current s e)
    (hstep : Step s e s') : Inv clean s' := by
  cases hstep with
  | call hidle _ => exact h.call hidle _
  | invalid hidle _ =>
    refine h.refuse ?_ (Nat.le_succ _) _ (by decide : -einval ≠ 0)
    rw [hidle]
    rfl
  | down hphase hfree => exact h.down hphase hfree
  | interrupt hphase =>
    refine h.refuse ?_ le_rfl _ (by decide : -ebusy ≠ 0)
    rw [hphase]
    rfl
  | access => exact h.access hcurrent
  | done failed data upper hlog hrunning => exact h.done failed data upper hlog hrunning
  | drift sta hrunning => exact h.drift sta hrunning

theorem Initial.inv (h : Initial s) : Inv clean s := by
  have hempty : ∀ call, s.issued call = 0 := by
    intro call
    unfold State.issued
    rw [h.log]
    rfl
  refine ⟨fun n => ?_, fun n => ?_, fun n _ l _ hl => ?_, fun call _ => hempty call, fun call => ?_,
    ?_, fun _ t rest hlog => ?_, fun r hr => ?_, fun _ => h.overlap⟩
  · rw [h.phase n, h.sem]
    exact ⟨fun heq => absurd heq Bool.false_ne_true, fun heq => nomatch heq⟩
  · rw [h.phase n]
    trivial
  · rw [h.phase n] at hl
    cases hl
  · rw [hempty]
    exact Nat.zero_le 2
  · rw [h.log]
    trivial
  · rw [h.log] at hlog
    cases hlog
  · rw [h.results] at hr
    exact absurd hr List.not_mem_nil

/-- In every run the semaphore is given back, a data cycle follows its address cycle and a call
starts two transactions at most.  As long as no call takes an old status bit for that of its own
transaction, no command is sent over a running transaction, and a call that returns 0 had its
last transaction end without an error. -/
theorem transactions_atomic (s : State) :
    (system.Reachable s → Orderly s) ∧ ((system.restrict Current).Reachable s → Exact s) := by
  constructor
  · intro hreach
    have hinv : Inv False s := hreach.invariant (fun _ hinit => Initial.inv hinit)
      fun _ _ _ _ hinv hstep => hinv.step (fun hfalse => hfalse.elim) hstep
    refine ⟨fun hidle => ?_, hinv.paired, hinv.two⟩
    cases hsem : s.sem with
    | none => rfl
    | some n =>
      have hheld := (hinv.holds n).mpr hsem
      rw [hidle n] at hheld
      cases hheld
  · intro hreach
    have hinv : Inv True s := hreach.invariant (fun _ hinit => Initial.inv hinit)
      fun _ _ _ _ hinv hstep => hinv.step (fun _ => hstep.1) hstep.2
    exact ⟨hinv.overlap trivial, hinv.results⟩

/-! A call of clause 45 fails, and the wait of the next call of clause 22 runs out. -/

def State.asked (s : State) (n : ℕ) (op : Op) : State :=
  { s with
    calls := s.calls + 1
    sem := some n
    phase := Function.update s.phase n (.ready ⟨s.calls, op, false, 1⟩ maxWaitCnt) }

def State.ended (s : State) (failed : Bool) (data : BitVec 16) : State :=
  match s.log with
  | [] => s
  | t :: rest =>
    { s with
      log := { t with outcome := some (failed, data) } :: rest
      sta := failed
      rdata := (0 : BitVec 16) ++ data }

theorem reachable_asked (hreach : (system.restrict Current).Reachable s) (hidle : s.phase n = .idle)
    (hfree : s.sem = none) (hvalid : op.valid = true) :
    (system.restrict Current).Reachable (s.asked n op) := by
  have hentering : Function.update s.phase n (.entering ⟨s.calls, op, false, 1⟩) n =
      .entering ⟨s.calls, op, false, 1⟩ := Function.update_self _ _ _
  have hcall : (system.restrict Current).step s (.call n op) { s with
      calls := s.calls + 1
      phase := Function.update s.phase n (.entering ⟨s.calls, op, false, 1⟩) } :=
    ⟨trivial, Step.call hidle hvalid⟩
  have hdown : (system.restrict Current).step { s with
      calls := s.calls + 1
      phase := Function.update s.phase n (.entering ⟨s.calls, op, false, 1⟩) } (.down n)
      { s with
        calls := s.calls + 1
        sem := some n
        phase := Function.update (Function.update s.phase n (.entering ⟨s.calls, op, false, 1⟩)) n
          (.ready ⟨s.calls, op, false, 1⟩ maxWaitCnt) } :=
    ⟨trivial, Step.down hentering hfree⟩
  have hready := TransitionSystem.Reachable.step (TransitionSystem.Reachable.step hreach hcall) hdown
  rw [Function.update_idem] at hready
  exact hready

theorem reachable_access (hreach : (system.restrict Current).Reachable s)
    (hphase : ∀ l, s.phase n ≠ .failed l) : (system.restrict Current).Reachable (s.access n) :=
  TransitionSystem.Reachable.step (a := .access n) hreach
    ⟨fun l hl => absurd hl (hphase l), Step.access n⟩

theorem reachable_ended (hreach : (system.restrict Current).Reachable s) (hstart : s.start = true)
    (failed : Bool) (data : BitVec 16) :
    (system.restrict Current).Reachable (s.ended failed data) := by
  unfold State.start at hstart
  cases hlog : s.log with
  | nil =>
    rw [hlog] at hstart
    cases hstart
  | cons t rest =>
    rw [hlog] at hstart
    have hstep : (system.restrict Current).step s (.done failed data 0) { s with
        log := { t with outcome := some (failed, data) } :: rest
        sta := failed
        rdata := (0 : BitVec 16) ++ data } :=
      ⟨trivial, Step.done failed data 0 hlog (Option.isNone_iff_eq_none.mp hstart)⟩
    unfold State.ended
    rw [hlog]
    exact TransitionSystem.Reachable.step hreach hstep

theorem reachable_countdown (k : ℕ) (hreach : (system.restrict Current).Reachable s)
    (hstart : s.start = true) (hphase : s.phase n = .waiting l (k + 1)) :
    (system.restrict Current).Reachable (s.setPhase n (.waiting l 1)) := by
  induction k generalizing s with
  | zero =>
    have hsame : s.setPhase n (.waiting l 1) = s := by
      unfold State.setPhase
      rw [← hphase, Function.update_eq_self]
    rw [hsame]
    exact hreach
  | succ k ih =>
    have haccess : s.access n = s.setPhase n (.waiting l (k + 1)) := by
      unfold State.access
      rw [hphase]
      simp only [hstart, Bool.true_eq_false, if_false]
      rw [if_neg (by omega), Nat.add_sub_cancel]
    have hnext : (system.restrict Current).Reachable (s.setPhase n (.waiting l (k + 1))) := by
      rw [← haccess]
      refine reachable_access hreach fun k' hk' => ?_
      rw [hphase] at hk'
      cases hk'
    have hone := ih hnext hstart (Function.update_self _ _ _)
    unfold State.setPhase at hone ⊢
    rwa [Function.update_idem] at hone

def fresh : State := ⟨[], false, 0, 0, 0, none, fun _ => .idle, 0, [], false⟩

theorem fresh_reachable : (system.restrict Current).Reachable fresh :=
  TransitionSystem.Reachable.init ⟨rfl, rfl, fun _ => rfl, rfl, rfl⟩

def sentFrom (s : State) (op : Op) : State := ((s.asked 0 op).access 0).access 0

theorem sentFrom_reachable (hreach : (system.restrict Current).Reachable s)
    (hidle : s.phase 0 = .idle) (hfree : s.sem = none) (hvalid : op.valid = true)
    (hstart : s.start = false) : (system.restrict Current).Reachable (sentFrom s op) := by
  have hasked : (s.asked 0 op).phase 0 = .ready ⟨s.calls, op, false, 1⟩ maxWaitCnt := rfl
  have hready : (s.asked 0 op).access 0 =
      (s.asked 0 op).setPhase 0 (.sending ⟨s.calls, op, false, 1⟩) := by
    unfold State.access
    rw [hasked]
    exact if_pos hstart
  refine reachable_access (reachable_access (reachable_asked hreach hidle hfree hvalid)
    fun k hk => ?_) fun k hk => ?_
  · rw [hasked] at hk
    cases hk
  · rw [hready] at hk
    cases hk

def answeredRead : State :=
  ((((sentFrom fresh (.read22 0 1 2 true)).ended false 0x1234).access 0).access 0).access 0

theorem transactions_atomic_read :
    Orderly answeredRead ∧ Exact answeredRead ∧
      answeredRead.results.map (fun r => (r.code, r.value)) = [(0, 0x1234)] := by
  have hsent : (system.restrict Current).Reachable (sentFrom fresh (.read22 0 1 2 true)) :=
    sentFrom_reachable fresh_reachable rfl rfl rfl rfl
  have hreach : (system.restrict Current).Reachable answeredRead :=
    reachable_access (reachable_access (reachable_access (reachable_ended hsent rfl false 0x1234)
      nofun) nofun) nofun
  exact ⟨(transactions_atomic _).1 hreach.of_restrict, (transactions_atomic _).2 hreach, rfl⟩

def failedAddress : State :=
  (((sentFrom fresh (.read45 0 1 2 3 true)).ended true 0).access 0).access 0

/-- The status bit is still that of the call before when the wait runs out. -/
theorem timedOut_overlaps : ¬ ∀ s, system.Reachable s → Orderly s ∧ Exact s := by
  intro hall
  have hfailed : (system.restrict Current).Reachable failedAddress :=
    reachable_access (reachable_access (reachable_ended
      (sentFrom_reachable fresh_reachable rfl rfl rfl rfl) rfl true 0) nofun) nofun
  have hsent : (system.restrict Current).Reachable
      (sentFrom failedAddress (.read22 0 1 2 true)) := sentFrom_reachable hfailed rfl rfl rfl rfl
  have hlast := reachable_countdown (n := 0) 999 hsent rfl rfl
  have htimeout := (reachable_access (n := 0) hlast nofun).of_restrict
  have hretry := TransitionSystem.Reachable.step htimeout (Step.access 0)
  have hagain := TransitionSystem.Reachable.step hretry (Step.access 0)
  have hoverlap := (hall _ hagain).2.overlap
  exact absurd hoverlap (by decide)

end HiMpu.Mdio
