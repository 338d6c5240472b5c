import HiMpu.I2cDma
import HiMpu.TransitionSystem

/-!
# Polled transfers of the I2C driver

`bm_i2c_read` and `bm_i2c_write` of `drivers/i2c/i2c.c`, one access to a register a step,
against a controller that works between the accesses.  An abort empties the FIFO of
commands, which takes none until the abort is cleared, and may empty the other FIFO as
well; a disabled controller has both FIFOs empty.
-/

namespace HiMpu.I2cPolled

open I2cDma (I2cBoard I2cXferInfo i2cCheckXferInfo i2c7bitMaxAddr)

def i2cInitTimeout : ℕ := 10000
def i2cUsecPerMsec : ℕ := 1000
def i2cUsecPerSec : ℕ := 1000000
def i2cXferTimeout : ℤ := -10

abbrev Byte := BitVec 8

inductive Cmd where
  | write (val : Byte)
  | read
deriving DecidableEq

structure Controller where
  param : BitVec 32
  tx : List Cmd
  shifting : Option Cmd
  rx : List Byte
  busy : Bool
  aborted : Bool

def Controller.txDepth (c : Controller) : ℕ := (c.param.toNat >>> 16) % 256 + 1
def Controller.rxDepth (c : Controller) : ℕ := (c.param.toNat >>> 8) % 256 + 1

def Controller.active (c : Controller) : Bool :=
  c.busy || c.shifting.isSome || !c.tx.isEmpty

def Controller.outstanding (c : Controller) : ℕ := c.tx.length + c.shifting.toList.length

def Controller.push (c : Controller) (cmd : Cmd) : Controller :=
  if c.aborted = false ∧ c.tx.length < c.txDepth then { c with tx := c.tx ++ [cmd] } else c

/-- What the functions of a transfer work on.  The lists are what the outside saw since the
controller was enabled. -/
structure Xfer where
  ctl : Controller
  acked : List Byte
  received : List Byte
  writes : List Cmd
  popped : List Byte
  read : Bool
  len : ℕ
  wbuf : ℕ → Byte
  rbuf : ℕ → Byte
  rbuf₀ : ℕ → Byte
  timeout : ℕ
  rcnt : ℕ
  wcnt : ℕ
  cnt : ℕ

inductive Pc where
  | idle
  | waitIdle (count : ℕ)
  | rInit
  | rFill (rlimit : ℕ)
  | rTest
  | rPop
  | rPush
  | wTest
  | wFlag
  | wPush
  | check (timeOut : ℕ)
  | recheck (timeOut : ℕ)
  | returned (x : Xfer) (ret : ℤ)

def Xfer.push (x : Xfer) (cmd : Cmd) : Xfer :=
  { x with ctl := x.ctl.push cmd, writes := x.writes ++ [cmd] }

def Xfer.loop (x : Xfer) : Pc :=
  if x.read then
    if x.rcnt < x.len then .rTest else .check (x.timeout % 2 ^ 32)
  else
    if x.wcnt < x.len then .wTest else .check (x.timeout % 2 ^ 32)

def Xfer.endRound (x : Xfer) : Xfer × Pc :=
  if x.timeout = 0 then (x, .check (x.timeout % 2 ^ 32))
  else
    let x := { x with timeout := x.timeout - 1 }
    (x, x.loop)

def Xfer.fillLoop (x : Xfer) (rlimit : ℕ) : Xfer × Pc :=
  if x.cnt < x.len ∧ 0 < rlimit then (x, .rFill rlimit) else (x, x.loop)

def Xfer.init (x : Xfer) : Xfer × Pc :=
  let x := { x with
    ctl := { x.ctl with tx := [], rx := [], aborted := false }
    acked := [], received := [], rcnt := 0, wcnt := 0 }
  (x, if x.read then .rInit else x.loop)

def finished (x : Xfer) (timeOut : ℕ) : Xfer × Pc :=
  (x, .returned x (if timeOut = 0 then i2cXferTimeout else bmOk))

def Xfer.flag (x : Xfer) : Bool := if x.read then !x.ctl.rx.isEmpty else x.ctl.tx.isEmpty

def drive (x : Xfer) (junk : Byte) : Pc → Option (Xfer × Pc)
  | .idle | .returned _ _ => none
  | .waitIdle count =>
    some (
      if x.ctl.active ∧ 0 < count then (x, .waitIdle (count - 1))
      else if count = 0 then (x, .returned x bmFail)
      else x.init)
  | .rInit => some (x.fillLoop (x.ctl.rxDepth - x.ctl.rx.length))
  | .rFill rlimit => some (Xfer.fillLoop { x.push .read with cnt := x.cnt + 1 } (rlimit - 1))
  | .rTest => some (if x.ctl.rx.length ≠ 0 then (x, .rPop) else x.endRound)
  | .rPop =>
    let val := x.ctl.rx.headD junk
    let x := { x with
      ctl := { x.ctl with rx := x.ctl.rx.tail }
      popped := x.popped ++ [val]
      rbuf := Function.update x.rbuf x.rcnt val
      rcnt := x.rcnt + 1 }
    some (if x.cnt < x.len then (x, .rPush) else x.endRound)
  | .rPush => some (Xfer.endRound { x.push .read with cnt := x.cnt + 1 })
  | .wTest => some (if x.ctl.tx.length = 0 then (x, .wFlag) else x.endRound)
  | .wFlag => some (if x.ctl.tx.isEmpty then (x, .wPush) else x.endRound)
  | .wPush =>
    some (Xfer.endRound { x.push (.write (x.wbuf x.wcnt)) with wcnt := x.wcnt + 1 })
  | .check timeOut =>
    some (if x.flag = false ∧ 0 < timeOut then (x, .recheck timeOut) else finished x timeOut)
  | .recheck timeOut =>
    some (
      if x.read = false ∧ x.ctl.tx.isEmpty then finished x timeOut
      else if x.read = true ∧ x.ctl.rx.isEmpty then finished x timeOut
      else (x, .check (timeOut - 1)))

structure State where
  x : Xfer
  pc : Pc

/-- What a caller passes; `sem` is whether the semaphore comes in time. -/
structure Call where
  info : Option I2cXferInfo
  timeout : ℕ
  read : Bool
  wbuf : ℕ → Byte
  rbuf : ℕ → Byte
  sem : Bool

def Call.timeoutUsec (c : Call) : ℕ :=
  let timeout := c.timeout * i2cUsecPerMsec % 2 ^ 32
  if timeout = 0 then 3 * i2cUsecPerSec else timeout

def Call.xfer (c : Call) (ctl : Controller) : Xfer where
  ctl := ctl
  acked := []
  received := []
  writes := []
  popped := []
  read := c.read
  len := (c.info.map I2cXferInfo.length).getD 0
  wbuf := c.wbuf
  rbuf := c.rbuf
  rbuf₀ := c.rbuf
  timeout := c.timeoutUsec
  rcnt := 0
  wcnt := 0
  cnt := 0

def Call.enter (B : I2cBoard) (c : Call) (ctl : Controller) : State :=
  let x := c.xfer ctl
  match c.info with
  | none => ⟨x, .returned x bmFail⟩
  | some info =>
    if i2cCheckXferInfo B c.info ≠ bmOk then ⟨x, .returned x bmFail⟩
    else if !B.initFlag info.i2cId then ⟨x, .returned x bmFail⟩
    else if !c.sem then ⟨x, .returned x bmFail⟩
    else if i2c7bitMaxAddr < info.addr then ⟨x, .returned x bmFail⟩
    else ⟨x, .waitIdle i2cInitTimeout⟩

/-! ## The controller -/

inductive Event where
  | call (c : Call)
  | drive (junk : Byte)
  | take
  | ack (b : Byte)
  | abort (flushRx : Bool)
  | release

def takeCmd (x : Xfer) : Option Xfer :=
  match x.ctl.shifting, x.ctl.tx with
  | none, cmd :: rest =>
    some { x with ctl := { x.ctl with tx := rest, shifting := some cmd, busy := true } }
  | _, _ => none

def ackCmd (x : Xfer) (b : Byte) : Option Xfer :=
  match x.ctl.shifting with
  | none => none
  | some (.write val) =>
    some { x with ctl := { x.ctl with shifting := none }, acked := x.acked ++ [val] }
  | some .read =>
    some { x with
      ctl := { x.ctl with
        shifting := none
        rx := if x.ctl.rx.length < x.ctl.rxDepth then x.ctl.rx ++ [b] else x.ctl.rx }
      received := x.received ++ [b] }

def abortCmd (x : Xfer) (flushRx : Bool) : Option Xfer :=
  if x.ctl.shifting.isSome then
    some { x with
      ctl := { x.ctl with
        tx := [], shifting := none, aborted := true
        rx := if flushRx then [] else x.ctl.rx } }
  else none

def releaseBus (x : Xfer) : Option Xfer :=
  if x.ctl.shifting = none ∧ x.ctl.tx = [] then
    some { x with ctl := { x.ctl with busy := false } }
  else none

def next (B : I2cBoard) (s : State) : Event → Option State
  | .call c =>
    match s.pc with
    | .idle | .returned _ _ => some (c.enter B s.x.ctl)
    | _ => none
  | .drive junk => (drive s.x junk s.pc).map fun r => ⟨r.1, r.2⟩
  | .take => (takeCmd s.x).map fun x => { s with x := x }
  | .ack b => (ackCmd s.x b).map fun x => { s with x := x }
  | .abort flushRx => (abortCmd s.x flushRx).map fun x => { s with x := x }
  | .release => (releaseBus s.x).map fun x => { s with x := x }

def system (B : I2cBoard) : TransitionSystem State Event :=
  TransitionSystem.ofStep (fun s => s.pc = .idle ∧ ∃ c ctl, s.x = Call.xfer c ctl) (next B)

/-! ## What a transfer is promised -/

def State.inMasterRead (s : State) : Prop :=
  match s.pc with
  | .idle | .waitIdle _ | .returned _ _ => False
  | _ => s.x.read = true

/-- The read commands and the bytes stored stay within the length, and the buffer has the
bytes popped, in order, and is as it was behind them. -/
structure Xfer.Stored (x : Xfer) : Prop where
  commands : x.read = true → x.writes.length ≤ x.len
  within : x.popped.length ≤ x.len
  inOrder : ∀ i, x.rbuf i = (x.popped[i]?).getD (x.rbuf₀ i)

structure State.Bounded (s : State) : Prop where
  stored : s.x.Stored
  level : s.inMasterRead → s.x.ctl.outstanding + s.x.ctl.rx.length ≤ s.x.ctl.rxDepth

def Xfer.data (x : Xfer) : List Byte := (List.range x.len).map x.wbuf

/-- What a return of `BM_OK` tells. -/
structure Xfer.Complete (x : Xfer) : Prop where
  received : x.read = true → x.popped = x.received ∧ x.received.length = x.len
  /-- The controller has taken the bytes in order; the last may be on the bus. -/
  accepted : x.read = false →
    x.acked.map Cmd.write ++ x.ctl.shifting.toList = x.data.map Cmd.write
  acknowledged : x.read = false → x.ctl.shifting = none → x.acked = x.data
  notAborted : x.read = false → x.ctl.aborted = false

/-- Whether an abort does no harm: the call is a read, and the FIFO is not emptied after
its level was read and before the byte is popped. -/
def State.toleratesAbort (s : State) (flushRx : Bool) : Bool :=
  match s.pc with
  | .wTest | .wFlag | .wPush => false
  | .check _ | .recheck _ => s.x.read
  | .rPop => !flushRx
  | _ => true

def NoAbort (s : State) : Event → Prop
  | .abort flushRx => s.toleratesAbort flushRx = true
  | .call _ | .drive _ | .take | .ack _ | .release => True

instance (s : State) (e : Event) : Decidable (NoAbort s e) :=
  match e with
  | .abort _ => inferInstanceAs (Decidable (_ = true))
  | .call _ | .drive _ | .take | .ack _ | .release => isTrue trivial

/-- While a transfer is under way.  The driver may still issue `slack` read commands before
it pops a byte.  The fields under `clean` are those that an abort can break. -/
structure Core (clean : Prop) (x : Xfer) (slack : ℕ) : Prop where
  cnt : x.read = true → x.writes.length = x.cnt
  cnt_le : x.cnt ≤ x.len
  rcnt : x.popped.length = x.rcnt
  rcnt_le : x.rcnt ≤ x.len
  wcnt_le : x.wcnt ≤ x.len
  inOrder : ∀ i, x.rbuf i = (x.popped[i]?).getD (x.rbuf₀ i)
  flushed : x.ctl.aborted = true → x.ctl.tx = [] ∧ x.ctl.shifting = none
  level : x.read = true →
    x.ctl.outstanding + x.ctl.rx.length + (if x.ctl.aborted then 0 else slack) ≤ x.ctl.rxDepth
  answered : x.read = true → x.received.length + x.ctl.outstanding ≤ x.cnt
  wrote : x.read = false → x.writes = ((List.range x.wcnt).map x.wbuf).map Cmd.write
  whole : clean → x.read = true → x.ctl.aborted = false → x.popped ++ x.ctl.rx = x.received
  part : clean → x.read = true → x.popped ++ x.ctl.rx <+: x.received
  moved : clean → x.read = false → x.ctl.aborted = false ∧
    x.acked.map Cmd.write ++ x.ctl.shifting.toList ++ x.ctl.tx = x.writes

def Xfer.Counted (x : Xfer) : Prop := if x.read then x.rcnt = x.len else x.wcnt = x.len

structure Fresh (x : Xfer) : Prop where
  writes : x.writes = []
  popped : x.popped = []
  rbuf : x.rbuf = x.rbuf₀
  cnt : x.cnt = 0

def Pc.slack (x : Xfer) : Pc → ℕ
  | .rInit => x.ctl.rxDepth
  | .rFill rlimit => rlimit
  | .rPush => 1
  | _ => 0

def Placed (clean : Prop) (x : Xfer) : Pc → Prop
  | .idle => x.Stored
  | .waitIdle _ => Fresh x
  | .returned y ret => x.Stored ∧ (clean → ret = bmOk → y.Complete)
  | .rInit => x.read = true
  | .rFill rlimit => x.read = true ∧ x.cnt < x.len ∧ 0 < rlimit
  | .rTest => x.read = true ∧ x.rcnt < x.len
  | .rPop => x.read = true ∧ x.rcnt < x.len ∧ (x.ctl.rx ≠ [] ∨ x.ctl.aborted = true) ∧
      (clean → x.ctl.rx ≠ [])
  | .rPush => x.read = true ∧ x.cnt < x.len
  | .wTest => x.read = false ∧ x.wcnt < x.len
  | .wFlag | .wPush => x.read = false ∧ x.wcnt < x.len ∧ x.ctl.tx = []
  | .check timeOut | .recheck timeOut => 0 < timeOut → x.Counted

def Pc.moving : Pc → Bool
  | .idle | .waitIdle _ | .returned _ _ => false
  | _ => true

structure Inv (clean : Prop) (s : State) : Prop where
  placed : Placed clean s.x s.pc
  core : s.pc.moving = true → Core clean s.x (s.pc.slack s.x)

variable {clean : Prop} {B : I2cBoard} {x x' : Xfer} {s s' : State} {pc : Pc} {slack : ℕ}

theorem Fresh.stored (h : Fresh x) : x.Stored := by
  refine ⟨fun _ => ?_, ?_, fun i => ?_⟩
  · rw [h.writes]
    exact Nat.zero_le _
  · rw [h.popped]
    exact Nat.zero_le _
  · rw [h.popped, h.rbuf]
    rfl

theorem Core.stored (h : Core clean x slack) : x.Stored :=
  ⟨fun hread => (h.cnt hread).trans_le h.cnt_le, h.rcnt.trans_le h.rcnt_le, h.inOrder⟩

theorem Core.slack_le {slack' : ℕ} (h : Core clean x slack) (hle : slack' ≤ slack) :
    Core clean x slack' := by
  refine { h with level := fun hread => ?_ }
  have hlevel := h.level hread
  by_cases habort : x.ctl.aborted = true
  · rw [if_pos habort] at hlevel ⊢
    exact hlevel
  · rw [if_neg habort] at hlevel ⊢
    omega

theorem Core.withTimeout (h : Core clean x slack) (timeout : ℕ) :
    Core clean { x with timeout := timeout } slack :=
  ⟨h.cnt, h.cnt_le, h.rcnt, h.rcnt_le, h.wcnt_le, h.inOrder, h.flushed, h.level, h.answered,
    h.wrote, h.whole, h.part, h.moved⟩

/-! ## Steps of the driver -/

theorem Core.loop (h : Core clean x 0) : Inv clean ⟨x, x.loop⟩ := by
  unfold Xfer.loop
  have hr := h.rcnt_le
  have hw := h.wcnt_le
  cases hread : x.read with
  | true =>
    rw [if_pos rfl]
    split
    next hlt => exact ⟨⟨hread, hlt⟩, fun _ => h⟩
    next hge =>
      refine ⟨fun _ => ?_, fun _ => h⟩
      rw [Xfer.Counted, if_pos hread]
      exact le_antisymm hr (not_lt.mp hge)
  | false =>
    rw [if_neg Bool.false_ne_true]
    split
    next hlt => exact ⟨⟨hread, hlt⟩, fun _ => h⟩
    next hge =>
      refine ⟨fun _ => ?_, fun _ => h⟩
      rw [Xfer.Counted, hread, if_neg Bool.false_ne_true]
      exact le_antisymm hw (not_lt.mp hge)

theorem Core.endRound (h : Core clean x 0) : Inv clean ⟨x.endRound.1, x.endRound.2⟩ := by
  unfold Xfer.endRound
  split
  next hzero =>
    refine ⟨fun hpos => ?_, fun _ => h⟩
    rw [hzero] at hpos
    exact absurd hpos (lt_irrefl 0)
  next => exact (h.withTimeout _).loop

theorem Core.fillLoop {rlimit : ℕ} (h : Core clean x rlimit) (hread : x.read = true) :
    Inv clean ⟨(x.fillLoop rlimit).1, (x.fillLoop rlimit).2⟩ := by
  unfold Xfer.fillLoop
  split
  next hmore => exact ⟨⟨hread, hmore⟩, fun _ => h⟩
  next => exact (h.slack_le (Nat.zero_le _)).loop

theorem Controller.outstanding_push (c : Controller) (cmd : Cmd) :
    (c.push cmd).outstanding ≤ c.outstanding + 1 ∧
      (c.aborted = true → (c.push cmd) = c) := by
  unfold Controller.push
  split
  next hroom =>
    refine ⟨?_, fun habort => ?_⟩
    · simp only [Controller.outstanding, List.length_append, List.length_singleton]
      omega
    · rw [hroom.1] at habort
      cases habort
  next => exact ⟨Nat.le_succ _, fun _ => rfl⟩

theorem Controller.push_fields (c : Controller) (cmd : Cmd) :
    (c.push cmd).rx = c.rx ∧ (c.push cmd).aborted = c.aborted ∧
      (c.push cmd).rxDepth = c.rxDepth := by
  unfold Controller.push
  split <;> exact ⟨rfl, rfl, rfl⟩

theorem Core.readPush (h : Core clean x (slack + 1)) (hread : x.read = true)
    (hcnt : x.cnt < x.len) :
    Core clean { x.push .read with cnt := x.cnt + 1 } slack := by
  obtain ⟨hout, hstay⟩ := x.ctl.outstanding_push .read
  obtain ⟨hrx, haborted, hdepth⟩ := x.ctl.push_fields .read
  have hlevel := h.level hread
  have hanswered := h.answered hread
  have hwrite : x.read = false → False := fun hw => by
    rw [hread] at hw
    cases hw
  refine ⟨fun _ => ?_, hcnt, h.rcnt, h.rcnt_le, h.wcnt_le, h.inOrder, ?_, fun _ => ?_,
    fun _ => ?_, fun hw => (hwrite hw).elim, ?_, ?_, fun _ hw => (hwrite hw).elim⟩
  · change (x.writes ++ [Cmd.read]).length = x.cnt + 1
    rw [List.length_append, h.cnt hread, List.length_singleton]
  · intro habort
    change (x.ctl.push .read).aborted = true at habort
    rw [haborted] at habort
    change (x.ctl.push .read).tx = [] ∧ (x.ctl.push .read).shifting = none
    rw [hstay habort]
    exact h.flushed habort
  · change (x.ctl.push .read).outstanding + (x.ctl.push .read).rx.length +
      (if (x.ctl.push .read).aborted then 0 else slack) ≤ (x.ctl.push .read).rxDepth
    rw [hrx, haborted, hdepth]
    split at hlevel
    next habort =>
      rw [hstay habort, if_pos habort]
      exact hlevel
    next habort =>
      rw [if_neg habort]
      omega
  · change x.received.length + (x.ctl.push .read).outstanding ≤ x.cnt + 1
    omega
  · intro hclean hr habort
    change x.popped ++ (x.ctl.push .read).rx = x.received
    rw [hrx]
    exact h.whole hclean hr (haborted.symm.trans habort)
  · intro hclean hr
    change x.popped ++ (x.ctl.push .read).rx <+: x.received
    rw [hrx]
    exact h.part hclean hr

theorem Core.readPop (h : Core clean x 0) (hread : x.read = true) (hrcnt : x.rcnt < x.len)
    (hsome : x.ctl.rx ≠ [] ∨ x.ctl.aborted = true) (hrx : clean → x.ctl.rx ≠ []) (junk : Byte) :
    Core clean { x with
      ctl := { x.ctl with rx := x.ctl.rx.tail }
      popped := x.popped ++ [x.ctl.rx.headD junk]
      rbuf := Function.update x.rbuf x.rcnt (x.ctl.rx.headD junk)
      rcnt := x.rcnt + 1 } 1 := by
  have hlevel := h.level hread
  have hwrite : x.read = false → False := fun hw => by
    rw [hread] at hw
    cases hw
  have hmove : clean → (x.popped ++ [x.ctl.rx.headD junk]) ++ x.ctl.rx.tail =
      x.popped ++ x.ctl.rx := by
    intro hclean
    rw [List.append_assoc]
    congr 1
    cases hcases : x.ctl.rx with
    | nil => exact absurd hcases (hrx hclean)
    | cons val rest => rfl
  refine ⟨h.cnt, h.cnt_le, ?_, hrcnt, h.wcnt_le, fun i => ?_, h.flushed, fun _ => ?_,
    h.answered, h.wrote, fun hclean hr habort => ?_, fun hclean hr => ?_,
    fun _ hw => (hwrite hw).elim⟩
  · change (x.popped ++ [x.ctl.rx.headD junk]).length = x.rcnt + 1
    rw [List.length_append, h.rcnt, List.length_singleton]
  · change Function.update x.rbuf x.rcnt (x.ctl.rx.headD junk) i =
      ((x.popped ++ [x.ctl.rx.headD junk])[i]?).getD (x.rbuf₀ i)
    by_cases hi : i = x.rcnt
    · subst hi
      rw [Function.update_self, ← h.rcnt, List.getElem?_concat_length]
      rfl
    · rw [Function.update_of_ne hi, h.inOrder i]
      congr 1
      by_cases hlt : i < x.popped.length
      · rw [List.getElem?_append_left hlt]
      · have hrcnt := h.rcnt
        rw [List.getElem?_eq_none (by omega), List.getElem?_eq_none]
        rw [List.length_append, List.length_singleton]
        omega
  · change x.ctl.outstanding + x.ctl.rx.tail.length +
      (if x.ctl.aborted then 0 else 1) ≤ x.ctl.rxDepth
    rw [List.length_tail]
    rcases hsome with hne | habort
    · have hpos : 0 < x.ctl.rx.length := List.length_pos_of_ne_nil hne
      split <;> omega
    · rw [if_pos habort]
      omega
  · exact (hmove hclean).trans (h.whole hclean hr habort)
  · change (x.popped ++ [x.ctl.rx.headD junk]) ++ x.ctl.rx.tail <+: x.received
    rw [hmove hclean]
    exact h.part hclean hr

theorem Core.writePush (h : Core clean x 0) (hread : x.read = false) (hwcnt : x.wcnt < x.len)
    (htx : x.ctl.tx = []) :
    Core clean { x.push (.write (x.wbuf x.wcnt)) with wcnt := x.wcnt + 1 } 0 := by
  obtain ⟨-, hstay⟩ := x.ctl.outstanding_push (.write (x.wbuf x.wcnt))
  obtain ⟨-, haborted, -⟩ := x.ctl.push_fields (.write (x.wbuf x.wcnt))
  have hnot : x.read = true → False := fun hr => by
    rw [hread] at hr
    cases hr
  refine ⟨fun hr => (hnot hr).elim, h.cnt_le, h.rcnt, h.rcnt_le, hwcnt, h.inOrder, ?_,
    fun hr => (hnot hr).elim, fun hr => (hnot hr).elim, fun _ => ?_,
    fun _ hr => (hnot hr).elim, fun _ hr => (hnot hr).elim, fun hclean _ => ?_⟩
  · intro habort
    change (x.ctl.push _).aborted = true at habort
    rw [haborted] at habort
    change (x.ctl.push _).tx = [] ∧ (x.ctl.push _).shifting = none
    rw [hstay habort]
    exact h.flushed habort
  · change x.writes ++ [Cmd.write (x.wbuf x.wcnt)] =
      ((List.range (x.wcnt + 1)).map x.wbuf).map Cmd.write
    rw [List.range_succ, h.wrote hread]
    simp only [List.map_append, List.map_cons, List.map_nil]
  · obtain ⟨hlive, hmoved⟩ := h.moved hclean hread
    have hroom : x.ctl.aborted = false ∧ x.ctl.tx.length < x.ctl.txDepth := by
      refine ⟨hlive, ?_⟩
      rw [htx]
      exact Nat.succ_pos _
    refine ⟨haborted.trans hlive, ?_⟩
    have hpush : x.ctl.push (.write (x.wbuf x.wcnt)) =
        { x.ctl with tx := x.ctl.tx ++ [.write (x.wbuf x.wcnt)] } := if_pos hroom
    change x.acked.map Cmd.write ++ (x.ctl.push _).shifting.toList ++ (x.ctl.push _).tx =
      x.writes ++ [Cmd.write (x.wbuf x.wcnt)]
    rw [hpush, ← hmoved, List.append_assoc _ x.ctl.tx]

theorem Fresh.init (h : Fresh x) (hidle : x.ctl.active = false) :
    Inv clean ⟨x.init.1, x.init.2⟩ := by
  have hshift : x.ctl.shifting = none := by
    unfold Controller.active at hidle
    simp only [Bool.or_eq_false_iff, Option.isSome_eq_false_iff, Option.isNone_iff_eq_none]
      at hidle
    exact hidle.1.2
  have hcore : Core clean x.init.1 x.ctl.rxDepth := by
    refine ⟨fun _ => ?_, ?_, ?_, Nat.zero_le _, Nat.zero_le _, h.stored.inOrder,
      fun habort => (nomatch habort), fun _ => ?_, fun _ => ?_, fun _ => h.writes,
      fun _ _ _ => ?_, fun _ _ => ?_, fun _ _ => ⟨rfl, ?_⟩⟩
    · exact (congrArg List.length h.writes).trans h.cnt.symm
    · exact h.cnt.trans_le (Nat.zero_le _)
    · exact congrArg List.length h.popped
    · simp [Xfer.init, Controller.outstanding, Controller.rxDepth, hshift]
    · simp [Xfer.init, Controller.outstanding, hshift]
    · simp [Xfer.init, h.popped]
    · simp [Xfer.init, h.popped]
    · simp [Xfer.init, h.writes, hshift]
  by_cases hread : x.read = true
  · have hpc : x.init.2 = .rInit := if_pos hread
    rw [hpc]
    exact ⟨hread, fun _ => hcore⟩
  · have hpc : x.init.2 = x.init.1.loop := if_neg hread
    rw [hpc]
    exact (hcore.slack_le (Nat.zero_le _)).loop

theorem Core.read_complete (h : Core clean x 0) (hclean : clean) (hread : x.read = true)
    (hcount : x.Counted) : x.popped = x.received ∧ x.received.length = x.len := by
  rw [Xfer.Counted, if_pos hread] at hcount
  have hanswered := h.answered hread
  have hcnt := h.cnt_le
  have hrcnt := h.rcnt
  have hpart : x.popped <+: x.received :=
    (List.prefix_append _ _).trans (h.part hclean hread)
  have heq := hpart.eq_of_length_le (by omega)
  rw [← heq]
  exact ⟨rfl, hrcnt.trans hcount⟩

theorem Core.finished {timeOut : ℕ} (h : Core clean x 0) (hcount : 0 < timeOut → x.Counted)
    (htx : timeOut ≠ 0 → x.read = false → x.ctl.tx = []) :
    Inv clean ⟨(finished x timeOut).1, (finished x timeOut).2⟩ := by
  refine ⟨⟨h.stored, fun hclean hret => ?_⟩, fun hmoving => nomatch hmoving⟩
  have hpos : timeOut ≠ 0 := by
    rintro rfl
    exact absurd hret (by decide)
  have hall := hcount (Nat.pos_of_ne_zero hpos)
  have haccepted : x.read = false →
      x.acked.map Cmd.write ++ x.ctl.shifting.toList = x.data.map Cmd.write := by
    intro hread
    obtain ⟨-, hmoved⟩ := h.moved hclean hread
    rw [Xfer.Counted, hread, if_neg Bool.false_ne_true] at hall
    rw [htx hpos hread, List.append_nil, h.wrote hread, hall] at hmoved
    exact hmoved
  refine ⟨fun hread => h.read_complete hclean hread hall, haccepted, fun hread hshift => ?_,
    fun hread => (h.moved hclean hread).1⟩
  have hacked := haccepted hread
  rw [hshift, Option.toList_none, List.append_nil] at hacked
  exact List.map_injective_iff.mpr (fun _ _ heq => Cmd.write.inj heq) hacked

theorem Inv.drive {junk : Byte} {r : Xfer × Pc} (h : Inv clean s)
    (hstep : drive s.x junk s.pc = some r) : Inv clean ⟨r.1, r.2⟩ := by
  obtain ⟨x, pc⟩ := s
  obtain ⟨hplaced, hcore⟩ := h
  cases pc with
  | idle | returned y ret => cases hstep
  | waitIdle count =>
    have hfresh : Fresh x := hplaced
    cases hstep
    split
    next => exact ⟨hfresh, fun hmoving => nomatch hmoving⟩
    next hcond =>
      split
      next =>
        refine ⟨⟨hfresh.stored, fun _ hret => ?_⟩, fun hmoving => nomatch hmoving⟩
        exact absurd hret (by decide)
      next hcount =>
        refine hfresh.init ?_
        by_contra hactive
        exact hcond ⟨Bool.eq_true_of_not_eq_false hactive, Nat.pos_of_ne_zero hcount⟩
  | rInit =>
    cases hstep
    have hread : x.read = true := hplaced
    have hstart : Core clean x x.ctl.rxDepth := hcore rfl
    exact (hstart.slack_le (Nat.sub_le _ _)).fillLoop hread
  | rFill rlimit =>
    cases hstep
    obtain ⟨hread, hcnt, hpos⟩ : x.read = true ∧ x.cnt < x.len ∧ 0 < rlimit := hplaced
    have hfill : Core clean x (rlimit - 1 + 1) := by
      rw [Nat.sub_add_cancel hpos]
      exact hcore rfl
    exact (hfill.readPush hread hcnt).fillLoop hread
  | rTest =>
    cases hstep
    obtain ⟨hread, hrcnt⟩ : x.read = true ∧ x.rcnt < x.len := hplaced
    have htest : Core clean x 0 := hcore rfl
    split
    next hrx =>
      have hne : x.ctl.rx ≠ [] := fun hnil => hrx (congrArg List.length hnil)
      exact ⟨⟨hread, hrcnt, Or.inl hne, fun _ => hne⟩, fun _ => htest⟩
    next => exact htest.endRound
  | rPop =>
    cases hstep
    obtain ⟨hread, hrcnt, hsome, hrx⟩ : x.read = true ∧ x.rcnt < x.len ∧
      (x.ctl.rx ≠ [] ∨ x.ctl.aborted = true) ∧ (clean → x.ctl.rx ≠ []) := hplaced
    have htest : Core clean x 0 := hcore rfl
    have hpop := htest.readPop hread hrcnt hsome hrx junk
    split
    next hcnt => exact ⟨⟨hread, hcnt⟩, fun _ => hpop⟩
    next => exact (hpop.slack_le (Nat.zero_le _)).endRound
  | rPush =>
    cases hstep
    obtain ⟨hread, hcnt⟩ : x.read = true ∧ x.cnt < x.len := hplaced
    have hpush : Core clean x (0 + 1) := hcore rfl
    exact (hpush.readPush hread hcnt).endRound
  | wTest =>
    cases hstep
    obtain ⟨hread, hwcnt⟩ : x.read = false ∧ x.wcnt < x.len := hplaced
    have htest : Core clean x 0 := hcore rfl
    split
    next htx => exact ⟨⟨hread, hwcnt, List.length_eq_zero_iff.mp htx⟩, fun _ => htest⟩
    next => exact htest.endRound
  | wFlag =>
    cases hstep
    have htest : Core clean x 0 := hcore rfl
    split
    next => exact ⟨hplaced, fun _ => htest⟩
    next => exact htest.endRound
  | wPush =>
    cases hstep
    obtain ⟨hread, hwcnt, htx⟩ : x.read = false ∧ x.wcnt < x.len ∧ x.ctl.tx = [] := hplaced
    have hpush : Core clean x 0 := hcore rfl
    exact (hpush.writePush hread hwcnt htx).endRound
  | check timeOut =>
    cases hstep
    have hcheck : Core clean x 0 := hcore rfl
    split
    next => exact ⟨hplaced, fun _ => hcheck⟩
    next hcond =>
      refine hcheck.finished hplaced fun hpos hread => ?_
      have hflag : x.flag = true := by
        by_contra hflag
        exact hcond ⟨Bool.eq_false_of_not_eq_true hflag, Nat.pos_of_ne_zero hpos⟩
      rw [Xfer.flag, hread, if_neg Bool.false_ne_true] at hflag
      exact List.isEmpty_iff.mp hflag
  | recheck timeOut =>
    cases hstep
    have hcheck : Core clean x 0 := hcore rfl
    split
    next hcond =>
      exact hcheck.finished hplaced fun _ _ => List.isEmpty_iff.mp hcond.2
    next =>
      split
      next hcond =>
        refine hcheck.finished hplaced fun _ hread => ?_
        rw [hcond.1] at hread
        cases hread
      next => exact ⟨fun hpos => hplaced (by omega), fun _ => hcheck⟩

/-! ## Steps of the controller -/

/-- A step of the controller leaves what the driver has, and a FIFO that the driver has
found empty or not stays so unless an abort intervenes. -/
theorem Inv.hardware {c : Controller} {acked received : List Byte} (h : Inv clean s)
    (hparam : c.param = s.x.ctl.param) (htx : s.x.ctl.tx = [] → c.tx = [])
    (hsome : s.x.ctl.rx ≠ [] ∨ s.x.ctl.aborted = true → c.rx ≠ [] ∨ c.aborted = true)
    (hrx : clean → s.pc = .rPop → s.x.ctl.rx ≠ [] → c.rx ≠ [])
    (hcore : ∀ slack, s.pc.moving = true → Core clean s.x slack →
      Core clean { s.x with ctl := c, acked := acked, received := received } slack) :
    Inv clean ⟨{ s.x with ctl := c, acked := acked, received := received }, s.pc⟩ := by
  obtain ⟨x, pc⟩ := s
  obtain ⟨hplaced, hold⟩ := h
  cases pc with
  | idle =>
    exact ⟨⟨hplaced.commands, hplaced.within, hplaced.inOrder⟩,
      fun hmoving => nomatch hmoving⟩
  | returned y ret =>
    exact ⟨⟨⟨hplaced.1.commands, hplaced.1.within, hplaced.1.inOrder⟩, hplaced.2⟩,
      fun hmoving => nomatch hmoving⟩
  | waitIdle count =>
    exact ⟨⟨hplaced.writes, hplaced.popped, hplaced.rbuf, hplaced.cnt⟩,
      fun hmoving => nomatch hmoving⟩
  | rInit =>
    refine ⟨hplaced, fun _ => ?_⟩
    have hdepth : c.rxDepth = x.ctl.rxDepth := by
      simp only [Controller.rxDepth, hparam]
    change Core clean _ c.rxDepth
    rw [hdepth]
    exact hcore _ rfl (hold rfl)
  | rPop =>
    obtain ⟨hread, hrcnt, hold', hne⟩ := hplaced
    exact ⟨⟨hread, hrcnt, hsome hold', fun hclean => hrx hclean rfl (hne hclean)⟩,
      fun _ => hcore _ rfl (hold rfl)⟩
  | wFlag | wPush =>
    obtain ⟨hread, hwcnt, hempty⟩ := hplaced
    exact ⟨⟨hread, hwcnt, htx hempty⟩, fun _ => hcore _ rfl (hold rfl)⟩
  | rFill rlimit | rTest | rPush | wTest | check timeOut | recheck timeOut =>
    exact ⟨hplaced, fun _ => hcore _ rfl (hold rfl)⟩

theorem Core.live (h : Core clean x slack) {cmd : Cmd} (hshift : x.ctl.shifting = some cmd) :
    x.ctl.aborted = false := by
  by_contra habort
  have hnone := (h.flushed (Bool.eq_true_of_not_eq_false habort)).2
  rw [hshift] at hnone
  cases hnone

theorem Inv.take (h : Inv clean s) (hstep : takeCmd s.x = some x') :
    Inv clean ⟨x', s.pc⟩ := by
  unfold takeCmd at hstep
  split at hstep
  next cmd rest hshift htx =>
    cases hstep
    refine h.hardware rfl (fun hnil => ?_) id (fun _ _ => id) fun slack _ hcore => ?_
    · rw [htx] at hnil
      cases hnil
    · have hsame : Controller.outstanding
          { s.x.ctl with tx := rest, shifting := some cmd, busy := true } =
            s.x.ctl.outstanding := by
        simp [Controller.outstanding, hshift, htx]
      refine { hcore with
        flushed := fun habort => ?_
        level := fun hread => ?_
        answered := fun hread => ?_
        moved := fun hclean hread => ?_ }
      · have hnil := (hcore.flushed habort).1
        rw [htx] at hnil
        cases hnil
      · exact hsame ▸ hcore.level hread
      · exact hsame ▸ hcore.answered hread
      · obtain ⟨hlive, hmoved⟩ := hcore.moved hclean hread
        refine ⟨hlive, ?_⟩
        rw [hshift, htx] at hmoved
        rw [← hmoved]
        simp
  next => cases hstep

theorem Inv.ack {b : Byte} (h : Inv clean s) (hstep : ackCmd s.x b = some x') :
    Inv clean ⟨x', s.pc⟩ := by
  unfold ackCmd at hstep
  split at hstep
  next => cases hstep
  next val hshift =>
    cases hstep
    refine h.hardware rfl id id (fun _ _ => id) fun slack _ hcore => ?_
    have hless : Controller.outstanding { s.x.ctl with shifting := none } + 1 =
        s.x.ctl.outstanding := by
      simp [Controller.outstanding, hshift]
    refine { hcore with
      flushed := fun habort => ?_
      level := fun hread => ?_
      answered := fun hread => ?_
      moved := fun hclean hread => ?_ }
    · exact ⟨(hcore.flushed habort).1, rfl⟩
    · have hlevel := hcore.level hread
      change Controller.outstanding { s.x.ctl with shifting := none } + s.x.ctl.rx.length +
        (if s.x.ctl.aborted then 0 else slack) ≤ s.x.ctl.rxDepth
      omega
    · have hanswered := hcore.answered hread
      change s.x.received.length + Controller.outstanding { s.x.ctl with shifting := none } ≤
        s.x.cnt
      omega
    · obtain ⟨hlive, hmoved⟩ := hcore.moved hclean hread
      refine ⟨hlive, ?_⟩
      rw [hshift] at hmoved
      rw [← hmoved]
      simp
  next hshift =>
    cases hstep
    refine h.hardware rfl id (fun hsome => ?_) (fun _ _ hne => ?_) fun slack _ hcore => ?_
    · rcases hsome with hne | habort
      · left
        split
        · exact List.append_ne_nil_of_left_ne_nil hne _
        · exact hne
      · exact Or.inr habort
    · split
      · exact List.append_ne_nil_of_left_ne_nil hne _
      · exact hne
    have hless : s.x.ctl.tx.length + 1 = s.x.ctl.outstanding := by
      simp [Controller.outstanding, hshift]
    have hlive := hcore.live hshift
    -- the command that is answered had its place in the FIFO
    have hroom : s.x.read = true → s.x.ctl.rx.length < s.x.ctl.rxDepth := by
      intro hread
      have hlevel := hcore.level hread
      omega
    refine { hcore with
      flushed := fun habort => ?_
      level := fun hread => ?_
      answered := fun hread => ?_
      whole := fun hclean hread _ => ?_
      part := fun hclean hread => ?_
      moved := fun hclean hread => ?_ }
    · exact ⟨(hcore.flushed habort).1, rfl⟩
    · have hlevel := hcore.level hread
      have hrx : (if s.x.ctl.rx.length < s.x.ctl.rxDepth then s.x.ctl.rx ++ [b]
          else s.x.ctl.rx).length = s.x.ctl.rx.length + 1 := by
        rw [if_pos (hroom hread), List.length_append, List.length_singleton]
      change s.x.ctl.tx.length + 0 + (if s.x.ctl.rx.length < s.x.ctl.rxDepth then
        s.x.ctl.rx ++ [b] else s.x.ctl.rx).length + (if s.x.ctl.aborted then 0 else slack) ≤
          s.x.ctl.rxDepth
      omega
    · have hanswered := hcore.answered hread
      change (s.x.received ++ [b]).length + (s.x.ctl.tx.length + 0) ≤ s.x.cnt
      rw [List.length_append, List.length_singleton]
      omega
    · simp only [if_pos (hroom hread)]
      rw [← List.append_assoc, hcore.whole hclean hread hlive]
    · simp only [if_pos (hroom hread)]
      rw [← List.append_assoc, hcore.whole hclean hread hlive]
    · obtain ⟨-, hmoved⟩ := hcore.moved hclean hread
      have hmem : Cmd.read ∈ s.x.writes := by
        rw [← hmoved, hshift]
        simp
      rw [hcore.wrote hread] at hmem
      simp at hmem

theorem read_of_noAbort {flushRx : Bool} (hclean : NoAbort s (.abort flushRx))
    (hmoving : s.pc.moving = true) (hplaced : Placed clean s.x s.pc) : s.x.read = true := by
  obtain ⟨x, pc⟩ := s
  cases pc with
  | idle | waitIdle count | returned y ret => cases hmoving
  | rInit => exact hplaced
  | rFill rlimit | rTest | rPop | rPush => exact hplaced.1
  | wTest | wFlag | wPush => cases hclean
  | check timeOut | recheck timeOut => exact hclean

theorem Inv.abort {flushRx : Bool} (h : Inv clean s)
    (hallowed : clean → NoAbort s (.abort flushRx)) (hstep : abortCmd s.x flushRx = some x') :
    Inv clean ⟨x', s.pc⟩ := by
  unfold abortCmd at hstep
  split at hstep
  next =>
    cases hstep
    refine h.hardware rfl (fun _ => rfl) (fun _ => Or.inr rfl) (fun hclean hpc hne => ?_)
      fun slack hmoving hcore => ?_
    · have hno : s.toleratesAbort flushRx = true := hallowed hclean
      unfold State.toleratesAbort at hno
      rw [hpc] at hno
      rw [(Bool.not_eq_true' flushRx).mp hno]
      exact hne
    · refine { hcore with
        flushed := fun _ => ⟨rfl, rfl⟩
        level := fun hread => ?_
        answered := fun hread => ?_
        whole := fun _ _ habort => (nomatch habort)
        part := fun hclean hread => ?_
        moved := fun hclean hread => ?_ }
      · have hlevel := hcore.level hread
        have hrx : (if flushRx then [] else s.x.ctl.rx).length ≤ s.x.ctl.rx.length := by
          split
          · exact Nat.zero_le _
          · exact le_rfl
        simp only [Controller.outstanding, Controller.rxDepth, Option.toList_none,
          List.length_nil, if_true] at hlevel ⊢
        omega
      · have hanswered := hcore.answered hread
        simp only [Controller.outstanding, Option.toList_none, List.length_nil] at hanswered ⊢
        omega
      · have hpart := hcore.part hclean hread
        cases flushRx with
        | false => exact hpart
        | true =>
          change s.x.popped ++ [] <+: s.x.received
          rw [List.append_nil]
          exact (List.prefix_append _ _).trans hpart
      · have hr := read_of_noAbort (hallowed hclean) hmoving h.placed
        rw [hread] at hr
        cases hr
  next => cases hstep

theorem Inv.release (h : Inv clean s) (hstep : releaseBus s.x = some x') :
    Inv clean ⟨x', s.pc⟩ := by
  unfold releaseBus at hstep
  split at hstep
  next =>
    cases hstep
    exact h.hardware rfl id id (fun _ _ => id) fun _ _ hcore => { hcore with }
  next => cases hstep

theorem Call.xfer_fresh (c : Call) (ctl : Controller) : Fresh (c.xfer ctl) :=
  ⟨rfl, rfl, rfl, rfl⟩

theorem Inv.enter (B : I2cBoard) (c : Call) (ctl : Controller) : Inv clean (c.enter B ctl) := by
  have hfail : Inv clean ⟨c.xfer ctl, .returned (c.xfer ctl) bmFail⟩ :=
    ⟨⟨(c.xfer_fresh ctl).stored, fun _ hret => absurd hret (by decide)⟩,
      fun hmoving => nomatch hmoving⟩
  unfold Call.enter
  split
  · exact hfail
  · split_ifs
    · exact hfail
    · exact hfail
    · exact hfail
    · exact hfail
    · exact ⟨c.xfer_fresh ctl, fun hmoving => nomatch hmoving⟩

theorem Inv.next {e : Event} (h : Inv clean s) (hallowed : clean → NoAbort s e)
    (hstep : next B s e = some s') : Inv clean s' := by
  cases e with
  | call c =>
    simp only [I2cPolled.next] at hstep
    split at hstep
    · cases hstep
      exact Inv.enter B c _
    · cases hstep
      exact Inv.enter B c _
    · cases hstep
  | drive junk =>
    obtain ⟨r, hr, rfl⟩ := Option.map_eq_some_iff.mp hstep
    exact h.drive hr
  | take =>
    obtain ⟨x', hx, rfl⟩ := Option.map_eq_some_iff.mp hstep
    exact h.take hx
  | ack b =>
    obtain ⟨x', hx, rfl⟩ := Option.map_eq_some_iff.mp hstep
    exact h.ack hx
  | abort flushRx =>
    obtain ⟨x', hx, rfl⟩ := Option.map_eq_some_iff.mp hstep
    exact h.abort hallowed hx
  | release =>
    obtain ⟨x', hx, rfl⟩ := Option.map_eq_some_iff.mp hstep
    exact h.release hx

theorem inv_initial (hinit : (system B).init s) : Inv clean s := by
  obtain ⟨x, pc⟩ := s
  obtain ⟨hpc, c, ctl, hx⟩ := hinit
  cases hpc
  cases hx
  exact ⟨(c.xfer_fresh ctl).stored, fun hmoving => nomatch hmoving⟩

theorem Inv.bounded (h : Inv clean s) : s.Bounded := by
  obtain ⟨x, pc⟩ := s
  obtain ⟨hplaced, hcore⟩ := h
  cases pc with
  | idle => exact ⟨hplaced, fun hin => hin.elim⟩
  | waitIdle count => exact ⟨hplaced.stored, fun hin => hin.elim⟩
  | returned y ret => exact ⟨hplaced.1, fun hin => hin.elim⟩
  | rInit | rFill _ | rTest | rPop | rPush | wTest | wFlag | wPush | check _ | recheck _ =>
    have hnow := hcore rfl
    exact ⟨hnow.stored, fun hread => (Nat.le_add_right _ _).trans (hnow.level hread)⟩

/-- Every run keeps the bounds of a read; a run without an abort at a wrong time returns
`BM_OK` only when the transfer is complete. -/
theorem polledTransfers_complete (B : I2cBoard) :
    (∀ s, (system B).Reachable s → s.Bounded) ∧
      ∀ s, ((system B).restrict NoAbort).Reachable s →
        ∀ y ret, s.pc = .returned y ret → ret = bmOk → y.Complete := by
  constructor
  · intro s hreach
    have hinv : Inv False s := hreach.invariant (fun _ h => inv_initial (B := B) h)
      fun _ _ _ _ h hstep => h.next False.elim hstep
    exact hinv.bounded
  · intro s hreach y ret hpc hret
    have hinv : Inv True s := hreach.invariant (fun _ h => inv_initial (B := B) h)
      fun _ _ _ _ h hstep => h.next (fun _ => hstep.1) hstep.2
    have hplaced := hinv.placed
    rw [hpc] at hplaced
    exact hplaced.2 trivial hret

/-! ### Two writes -/

def board : I2cBoard where
  exist := fun _ => true
  invalidAddrLen := fun _ _ => false
  i2cExist := fun _ => true
  initFlag := fun _ => true

def oneByte : Call where
  info := some ⟨0, 0x50, 0x90000000, 1⟩
  timeout := 1
  read := false
  wbuf := fun _ => 0x5A
  rbuf := fun _ => 0
  sem := true

def enabled : Controller := ⟨0x070700, [], none, [], false, false⟩

def atRest : State := ⟨oneByte.xfer enabled, .idle⟩

def sentRun : List Event :=
  [.call oneByte, .drive 0, .drive 0, .drive 0, .drive 0, .take, .drive 0]

def refusedRun : List Event :=
  [.call oneByte, .drive 0, .drive 0, .drive 0, .drive 0, .take, .abort false, .drive 0]

theorem atRest_init : (system board).init atRest :=
  ⟨rfl, oneByte, enabled, rfl⟩

theorem polledTransfers_complete_sent :
    ∃ s y, ((system board).restrict NoAbort).Reachable s ∧ s.Bounded ∧
      s.pc = .returned y bmOk ∧ y.Complete := by
  obtain ⟨s, y, hrun, hpc⟩ : ∃ s y,
      TransitionSystem.runSteps (TransitionSystem.guarded NoAbort (next board)) atRest sentRun =
        some s ∧ s.pc = .returned y bmOk :=
    ⟨_, _, rfl, rfl⟩
  have hstart : ((system board).restrict NoAbort).Reachable atRest := .init atRest_init
  have hreach : ((system board).restrict NoAbort).Reachable s := hstart.runGuarded hrun
  exact ⟨s, y, hreach, (polledTransfers_complete board).1 s hreach.of_restrict, hpc,
    (polledTransfers_complete board).2 s hreach y bmOk hpc rfl⟩

/-- The byte is not acknowledged, the abort empties the FIFO, and the call returns
`BM_OK`. -/
theorem refusedWrite_ok :
    ∃ s y, (system board).Reachable s ∧ s.pc = .returned y bmOk ∧ y.read = false ∧
      y.acked = [] ∧ y.ctl.aborted = true ∧ ¬ y.Complete := by
  obtain ⟨s, y, hrun, hpc, hread, hacked, haborted⟩ : ∃ s y,
      TransitionSystem.runSteps (next board) atRest refusedRun = some s ∧
        s.pc = .returned y bmOk ∧ y.read = false ∧ y.acked = [] ∧ y.ctl.aborted = true :=
    ⟨_, _, rfl, rfl, rfl, rfl, rfl⟩
  have hstart : (system board).Reachable atRest := .init atRest_init
  refine ⟨s, y, hstart.runSteps hrun, hpc, hread, hacked, haborted, fun hcomplete => ?_⟩
  have hlive := hcomplete.notAborted hread
  rw [haborted] at hlive
  cases hlive

end HiMpu.I2cPolled
