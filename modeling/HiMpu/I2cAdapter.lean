import HiMpu.TransitionSystem

/-!
# The Linux I2C adapter

`hi309x_i2c_xfer` of `drivers/i2c_hi309x/i2c_hi309x.c`, one register access a step, against a
controller with a FIFO of commands and one of received bytes.  The controller takes a command
at a time and keeps the bus busy until it has sent a stop.  An abort empties the FIFO of commands,
which takes none until the abort is cleared; a disabled controller has both FIFOs empty.
-/

namespace HiMpu.I2cAdapter

def hi309xI2cTimeout : ℕ := 0x400
def hi309xI2cXferTimeout : ℤ := -10
def einval : ℤ := 22

inductive Cmd
  | write (b : BitVec 8)
  | read
  deriving DecidableEq

structure Msg where
  read : Bool
  len : ℕ
  buf : ℕ → BitVec 8

def Msg.data (m : Msg) : List (BitVec 8) := (List.range m.len).map m.buf

inductive Pc
  | idle
  | wait (timeCnt : ℕ) (after : Bool)
  | config
  | rInit
  | rFill
  | rTest
  | rPop
  | rPush
  | wTest
  | wFlag
  | wPush
  | check
  | recheck
  deriving DecidableEq

/-- A message whose transfer has ended well: the bytes that were acknowledged, those that came
in, what its buffer has, and whether the bus was idle when it was configured. -/
structure Entry where
  msg : Msg
  acked : List (BitVec 8)
  received : List (BitVec 8)
  buf : List (BitVec 8)
  idle : Bool

structure Result where
  all : List Msg
  ret : ℤ
  log : List Entry
  idleRounds : ℕ

structure State where
  param : BitVec 32
  tx : List Cmd
  shifting : Option Cmd
  rx : List (BitVec 8)
  busy : Bool
  aborted : Bool
  pc : Pc
  all : List Msg
  msg : Msg
  later : List Msg
  msgIdx : ℕ
  msgBufPtr : ℕ
  buf : List (BitVec 8)
  cnt : ℕ
  rlimit : ℕ
  timeCnt : ℕ
  acked : List (BitVec 8)
  received : List (BitVec 8)
  idleRounds : ℕ
  /-- The bus was idle when the message was configured. -/
  idleBefore : Bool
  log : List Entry
  result : Option Result

/-! ## The controller -/

def statusActivity : BitVec 32 := 0x1
def statusTfe : BitVec 32 := 0x4
def statusRfne : BitVec 32 := 0x8

def State.active (s : State) : Bool := s.busy || s.shifting.isSome || !s.tx.isEmpty

/-- `other` are the bits of the register that the driver does not know. -/
def State.status (s : State) (other : BitVec 32) : BitVec 32 :=
  (if s.active then statusActivity else 0) ||| (if s.tx = [] then statusTfe else 0) |||
    (if s.rx = [] then 0 else statusRfne) |||
    (other &&& ~~~(statusActivity ||| statusTfe ||| statusRfne))

def State.txDepth (s : State) : ℕ := (s.param.toNat >>> 16) % 256 + 1
def State.rxDepth (s : State) : ℕ := (s.param.toNat >>> 8) % 256 + 1

def State.push (s : State) (c : Cmd) : State :=
  { s with tx := if s.aborted = false ∧ s.tx.length < s.txDepth then s.tx ++ [c] else s.tx }

def pop (s : State) : Option State :=
  match s.shifting, s.tx with
  | none, c :: rest => some { s with tx := rest, shifting := some c, busy := true }
  | _, _ => none

def ack (s : State) (b : BitVec 8) : Option State :=
  match s.shifting with
  | none => none
  | some (.write v) => some { s with shifting := none, acked := s.acked ++ [v] }
  | some .read =>
    some { s with
      shifting := none
      received := s.received ++ [b]
      rx := if s.rx.length < s.rxDepth then s.rx ++ [b] else s.rx }

def abort (s : State) : Option State :=
  if s.shifting.isSome then some { s with tx := [], shifting := none, aborted := true } else none

def release (s : State) : Option State :=
  if s.shifting = none ∧ s.tx = [] then some { s with busy := false } else none

def State.finish (s : State) (ret : ℤ) : State :=
  { s with pc := .idle, result := some ⟨s.all, ret, s.log, s.idleRounds⟩ }

def State.nextMsg (s : State) : State :=
  let s := { s with
    log := s.log ++ [Entry.mk s.msg s.acked s.received s.buf s.idleBefore]
    msgIdx := s.msgIdx + 1 }
  match s.later with
  | [] => s.finish s.msgIdx
  | m :: later => { s with msg := m, later := later, pc := .wait 0 false }

def State.waited (s : State) (timeCnt : ℕ) (after : Bool) : State :=
  if timeCnt > hi309xI2cTimeout then s.finish hi309xI2cXferTimeout
  else
    -- hi309x_i2c_disable
    let s := { s with tx := [], rx := [] }
    if after then s.nextMsg else { s with pc := .config }

def readLoop (s : State) : State :=
  { s with pc := if s.msgBufPtr < s.msg.len then .rTest else .check }

def writeLoop (s : State) : State :=
  { s with pc := if s.msgBufPtr < s.msg.len then .wTest else .check }

def endRound (s : State) : State :=
  if s.timeCnt = 0 then { s with pc := .check }
  else
    let s := { s with timeCnt := s.timeCnt - 1 }
    if s.msg.read then readLoop s else writeLoop s

def idleRound (s : State) : State := endRound { s with idleRounds := s.idleRounds + 1 }

def fillLoop (s : State) : State :=
  if s.cnt < s.msg.len ∧ 0 < s.rlimit then { s with pc := .rFill } else readLoop s

def config (s : State) : State :=
  let s := { s with
    aborted := false
    idleBefore := !s.busy && s.shifting.isNone
    msgBufPtr := 0
    buf := []
    cnt := 0
    timeCnt := hi309xI2cTimeout
    acked := []
    received := []
    idleRounds := 0 }
  if s.msg.read then { s with pc := .rInit } else writeLoop s

def rlimitOf (rxDepth rxCnt : BitVec 32) : ℕ :=
  if rxDepth - rxCnt ≤ rxDepth then (rxDepth - rxCnt).toNat else 1

def checked (s : State) : State :=
  if s.timeCnt = 0 then s.finish hi309xI2cXferTimeout else { s with pc := .wait 0 true }

def step (s : State) (other : BitVec 32) : Option State :=
  match s.pc with
  | .idle => none
  | .wait timeCnt after =>
    if s.status other = 0 then some (s.waited timeCnt after)
    -- the condition of the loop has its comparison the other way
    else if timeCnt > hi309xI2cTimeout then some { s with pc := .wait (timeCnt + 1) after }
    else some (s.waited (timeCnt + 1) after)
  | .config => some (config s)
  | .rInit =>
    some (fillLoop { s with
      rlimit := rlimitOf (BitVec.ofNat 32 s.rxDepth) (BitVec.ofNat 32 s.rx.length) })
  | .rFill => some (fillLoop { s.push .read with cnt := s.cnt + 1, rlimit := s.rlimit - 1 })
  | .rTest => some (if s.rx.length ≠ 0 then { s with pc := .rPop } else idleRound s)
  | .rPop =>
    let s := { s with
      rx := s.rx.tail
      buf := s.buf ++ [s.rx.headD (other.setWidth 8)]
      msgBufPtr := s.msgBufPtr + 1 }
    some (if s.cnt < s.msg.len then { s with pc := .rPush } else endRound s)
  | .rPush => some (endRound { s.push .read with cnt := s.cnt + 1 })
  | .wTest => some (if s.tx.length = 0 then { s with pc := .wFlag } else idleRound s)
  | .wFlag =>
    some (if (s.status other).getLsbD 2 then { s with pc := .wPush } else idleRound s)
  | .wPush =>
    some (endRound { s.push (.write (s.msg.buf s.msgBufPtr)) with msgBufPtr := s.msgBufPtr + 1 })
  | .check =>
    let flag := if s.msg.read then (s.status other).getLsbD 3 else (s.status other).getLsbD 2
    some (if flag = false ∧ 0 < s.timeCnt then { s with pc := .recheck } else checked s)
  | .recheck =>
    if s.msg.read = false ∧ (s.status other).getLsbD 2 = true then some (checked s)
    else if s.msg.read = true ∧ (s.status other).getLsbD 3 = false then some (checked s)
    else
      some { s with timeCnt := s.timeCnt - 1, idleRounds := s.idleRounds + 1, pc := .check }

def begin (s : State) (msgs : Option (List Msg)) (num : ℤ) : Option State :=
  if s.pc = .idle then
    match msgs with
    | some (m :: later) =>
      if num ≤ 0 then
        some { s with result := some ⟨[], -einval, [], 0⟩ }
      else if num = (m :: later).length then
        some { s with
          all := m :: later, msg := m, later := later, msgIdx := 0, log := []
          pc := .wait 0 false }
      else none
    | some [] => if num ≤ 0 then some { s with result := some ⟨[], -einval, [], 0⟩ } else none
    | none => some { s with result := some ⟨[], -einval, [], 0⟩ }
  else none

inductive Action
  | begin (msgs : Option (List Msg)) (num : ℤ)
  | step (other : BitVec 32)
  | pop
  | ack (b : BitVec 8)
  | abort
  | release

def next (s : State) : Action → Option State
  | .begin msgs num => begin s msgs num
  | .step other => step s other
  | .pop => pop s
  | .ack b => ack s b
  | .abort => abort s
  | .release => release s

def system : TransitionSystem State Action :=
  TransitionSystem.ofStep (fun s => s.pc = .idle ∧ s.result = none) next

/-! ## What a transfer is promised -/

def Pc.moving : Pc → Bool
  | .idle | .wait _ false | .config => false
  | _ => true

structure Entry.Complete (e : Entry) : Prop where
  sent : e.msg.read = false → e.acked = e.msg.data
  got : e.msg.read = true → e.buf = e.received ∧ e.buf.length = e.msg.len

structure Result.Ok (r : Result) : Prop where
  success : r.ret < 0 ∨
    r.ret = r.all.length ∧ r.log.map Entry.msg = r.all ∧ (∀ e ∈ r.log, e.Complete) ∧
      ∀ e ∈ r.log.tail, e.idle = true
  timeout : r.ret = hi309xI2cXferTimeout → 0 < r.idleRounds

def ResultOk (result : Option Result) : Prop := ∀ r, result = some r → r.Ok

/-- `cnt` counts the read commands of the message. -/
structure TransfersOk (s : State) : Prop where
  stored : s.pc.moving = true → s.buf.length ≤ s.msg.len
  commands : s.pc.moving = true → s.cnt ≤ s.msg.len
  result : ResultOk s.result

/-- A wait before the first message finds no command on the line, one before a later message
the bus idle, and one after a write its last byte acknowledged; messages are shorter than the
countdown; and a write is not aborted. -/
def Allowed (s : State) : Action → Prop
  | .step _ =>
    match s.pc with
    | .wait _ false => if s.msgIdx = 0 then s.shifting = none else s.busy = false
    | .wait _ true => s.msg.read = false → s.shifting = none
    | .config => s.msg.len < hi309xI2cTimeout
    | _ => True
  | .abort => s.pc.moving = true → s.msg.read = true
  | _ => True

structure Logged (all : List Msg) (log : List Entry) (msgIdx : ℕ) (rest : List Msg) : Prop where
  order : log.map Entry.msg ++ rest = all
  index : log.length = msgIdx
  complete : ∀ e ∈ log, e.Complete
  idle : ∀ e ∈ log.tail, e.idle = true

structure ReadOk (s : State) : Prop where
  ptr : s.buf.length = s.msgBufPtr
  sub : (s.buf ++ s.rx).Sublist s.received
  count : s.received.length + s.shifting.toList.length + s.tx.length ≤ s.cnt
  cnt : s.cnt ≤ s.msg.len

structure WriteOk (s : State) : Prop where
  sent : s.acked.map Cmd.write ++ s.shifting.toList ++ s.tx =
    (s.msg.data.take s.msgBufPtr).map Cmd.write
  live : s.aborted = false
  buf : s.buf = []
  cnt : s.cnt = 0

structure Moving (s : State) : Prop where
  short : s.msg.len < hi309xI2cTimeout
  ptr : s.msgBufPtr ≤ s.msg.len
  read : s.msg.read = true → ReadOk s
  write : s.msg.read = false → WriteOk s
  /-- A round takes one from the countdown, and either moves a byte or is idle. -/
  time : hi309xI2cTimeout ≤ s.timeCnt + s.msgBufPtr + s.idleRounds
  idle : 0 < s.msgIdx → s.idleBefore = true

def Quiet (s : State) : Prop := s.tx = [] ∧ s.shifting = none ∧ s.rx = []

def PcOk (s : State) : Prop :=
  match s.pc with
  | .idle => True
  | .wait t false => t = 0 ∧ (0 < s.msgIdx → Quiet s)
  | .wait t true => t = 0 ∧ s.msgBufPtr = s.msg.len ∧ (s.msg.read = false → s.tx = [])
  | .config => Quiet s ∧ (0 < s.msgIdx → s.busy = false)
  | .rInit => s.msg.read = true
  | .rFill => s.msg.read = true ∧ s.cnt < s.msg.len
  | .rTest => s.msg.read = true ∧ s.msgBufPtr < s.msg.len
  | .rPop => s.msg.read = true ∧ s.msgBufPtr < s.msg.len ∧ s.rx ≠ []
  | .rPush =>
    s.msg.read = true ∧ s.cnt < s.msg.len ∧
      hi309xI2cTimeout < s.timeCnt + s.msgBufPtr + s.idleRounds
  | .wTest | .wFlag => s.msg.read = false ∧ s.msgBufPtr < s.msg.len
  | .wPush => s.msg.read = false ∧ s.msgBufPtr < s.msg.len ∧ s.tx = []
  | .check | .recheck => 0 < s.timeCnt → s.msgBufPtr = s.msg.len

structure Inv (s : State) : Prop where
  logged : s.pc ≠ .idle → Logged s.all s.log s.msgIdx (s.msg :: s.later)
  pc : PcOk s
  moving : s.pc.moving = true → Moving s
  result : ResultOk s.result

section Steps

variable {s s' : State}

theorem status_tfe (s : State) (other : BitVec 32) :
    (s.status other).getLsbD 2 = true ↔ s.tx = [] := by
  unfold State.status statusActivity statusTfe statusRfne
  simp only [BitVec.getLsbD_or, BitVec.getLsbD_and, BitVec.getLsbD_not]
  split <;> split <;> split <;> simp_all

/-! ### Rounds -/

theorem ReadOk.goto (h : ReadOk s) {pc : Pc} {rlimit timeCnt idleRounds : ℕ} :
    ReadOk { s with pc := pc, rlimit := rlimit, timeCnt := timeCnt, idleRounds := idleRounds } :=
  ⟨h.ptr, h.sub, h.count, h.cnt⟩

theorem WriteOk.goto (h : WriteOk s) {pc : Pc} {rlimit timeCnt idleRounds : ℕ} :
    WriteOk { s with pc := pc, rlimit := rlimit, timeCnt := timeCnt, idleRounds := idleRounds } :=
  ⟨h.sent, h.live, h.buf, h.cnt⟩

theorem Moving.goto (h : Moving s) {pc : Pc} {rlimit timeCnt idleRounds : ℕ}
    (htime : hi309xI2cTimeout ≤ timeCnt + s.msgBufPtr + idleRounds) :
    Moving { s with pc := pc, rlimit := rlimit, timeCnt := timeCnt, idleRounds := idleRounds } :=
  ⟨h.short, h.ptr, fun hread => (h.read hread).goto, fun hwrite => (h.write hwrite).goto, htime,
    h.idle⟩

theorem Inv.goto (hlog : Logged s.all s.log s.msgIdx (s.msg :: s.later)) (hresult : ResultOk s.result)
    (hmoving : Moving s) {pc : Pc} {rlimit : ℕ} (hpc : PcOk { s with pc := pc, rlimit := rlimit }) :
    Inv { s with pc := pc, rlimit := rlimit } :=
  ⟨fun _ => hlog, hpc, fun _ => hmoving.goto hmoving.time, hresult⟩

theorem Inv.readLoop (hlog : Logged s.all s.log s.msgIdx (s.msg :: s.later))
    (hresult : ResultOk s.result) (hmoving : Moving s) (hread : s.msg.read = true) :
    Inv (readLoop s) := by
  unfold I2cAdapter.readLoop
  split
  next hptr => exact Inv.goto hlog hresult hmoving ⟨hread, hptr⟩
  next hptr =>
    exact Inv.goto hlog hresult hmoving fun _ => le_antisymm hmoving.ptr (Nat.le_of_not_lt hptr)

theorem Inv.writeLoop (hlog : Logged s.all s.log s.msgIdx (s.msg :: s.later))
    (hresult : ResultOk s.result) (hmoving : Moving s) (hwrite : s.msg.read = false) :
    Inv (writeLoop s) := by
  unfold I2cAdapter.writeLoop
  split
  next hptr => exact Inv.goto hlog hresult hmoving ⟨hwrite, hptr⟩
  next hptr =>
    exact Inv.goto hlog hresult hmoving fun _ => le_antisymm hmoving.ptr (Nat.le_of_not_lt hptr)

theorem Inv.endRound (hlog : Logged s.all s.log s.msgIdx (s.msg :: s.later))
    (hresult : ResultOk s.result) (hmoving : Moving s)
    (htime : hi309xI2cTimeout < s.timeCnt + s.msgBufPtr + s.idleRounds) :
    Inv (endRound s) := by
  unfold I2cAdapter.endRound
  split
  next hzero =>
    refine Inv.goto hlog hresult hmoving fun hpos => ?_
    simp only at hpos
    omega
  next hpos =>
    have hless : Moving { s with timeCnt := s.timeCnt - 1 } := hmoving.goto (by omega)
    dsimp only
    split
    next hread => exact Inv.readLoop hlog hresult hless hread
    next hwrite => exact Inv.writeLoop hlog hresult hless (Bool.eq_false_of_not_eq_true hwrite)

theorem Inv.idleRound (hlog : Logged s.all s.log s.msgIdx (s.msg :: s.later))
    (hresult : ResultOk s.result) (hmoving : Moving s) : Inv (idleRound s) := by
  have htime := hmoving.time
  refine Inv.endRound (s := { s with idleRounds := s.idleRounds + 1 }) hlog hresult
    (hmoving.goto (by omega)) ?_
  simp only
  omega

theorem Inv.fillLoop (hlog : Logged s.all s.log s.msgIdx (s.msg :: s.later))
    (hresult : ResultOk s.result) (hmoving : Moving s) (hread : s.msg.read = true) :
    Inv (fillLoop s) := by
  unfold I2cAdapter.fillLoop
  split
  next hfill => exact Inv.goto hlog hresult hmoving ⟨hread, hfill.1⟩
  next => exact Inv.readLoop hlog hresult hmoving hread

theorem Moving.readPush (h : Moving s) (hread : s.msg.read = true) (hcnt : s.cnt < s.msg.len)
    {rlimit : ℕ} : Moving { s.push .read with cnt := s.cnt + 1, rlimit := rlimit } := by
  have hold := h.read hread
  have hcount := hold.count
  have hfalse : ¬ s.msg.read = false := by
    rw [hread]
    nofun
  refine ⟨h.short, h.ptr, fun _ => ⟨hold.ptr, hold.sub, ?_, hcnt⟩, fun hw => absurd hw hfalse,
    h.time, h.idle⟩
  simp only [State.push]
  split
  · rw [List.length_append, List.length_singleton]
    omega
  · omega

theorem Moving.readPop (h : Moving s) (hread : s.msg.read = true) (hptr : s.msgBufPtr < s.msg.len)
    (hrx : s.rx ≠ []) {b : BitVec 8} :
    Moving { s with
      rx := s.rx.tail, buf := s.buf ++ [s.rx.headD b], msgBufPtr := s.msgBufPtr + 1 } := by
  have hold := h.read hread
  have htime := h.time
  have hfalse : ¬ s.msg.read = false := by
    rw [hread]
    nofun
  refine ⟨h.short, hptr, fun _ => ⟨?_, ?_, hold.count, hold.cnt⟩, fun hw => absurd hw hfalse, ?_,
    h.idle⟩
  · simp only [List.length_append, List.length_singleton, hold.ptr]
  · have hsub := hold.sub
    cases hcons : s.rx with
    | nil => exact absurd hcons hrx
    | cons v rest =>
      rw [hcons] at hsub
      simpa using hsub
  · simp only
    omega

theorem take_succ_data (m : Msg) {i : ℕ} (hi : i < m.len) :
    m.data.take (i + 1) = m.data.take i ++ [m.buf i] := by
  have hlen : i < m.data.length := by simpa [Msg.data] using hi
  rw [List.take_succ_eq_append_getElem hlen]
  simp [Msg.data]

theorem Moving.writePush (h : Moving s) (hwrite : s.msg.read = false)
    (hptr : s.msgBufPtr < s.msg.len) (htx : s.tx = []) :
    Moving { s.push (.write (s.msg.buf s.msgBufPtr)) with msgBufPtr := s.msgBufPtr + 1 } := by
  have hold := h.write hwrite
  have htime := h.time
  have hsent := hold.sent
  have hroom : s.aborted = false ∧ s.tx.length < s.txDepth :=
    ⟨hold.live, by simp [htx, State.txDepth]⟩
  have htrue : ¬ s.msg.read = true := by
    rw [hwrite]
    nofun
  refine ⟨h.short, hptr, fun hr => absurd hr htrue, fun _ => ⟨?_, hold.live, hold.buf, hold.cnt⟩, ?_,
    h.idle⟩
  · simp only [State.push]
    rw [if_pos hroom, take_succ_data s.msg hptr, List.map_append, ← hsent, List.map_singleton, htx]
    simp
  · simp only [State.push]
    omega

/-! ### The messages -/

theorem Inv.finish {ret : ℤ} (hresult : Result.Ok ⟨s.all, ret, s.log, s.idleRounds⟩) :
    Inv (s.finish ret) := by
  refine ⟨fun h => absurd rfl h, trivial, nofun, ?_⟩
  rintro r ⟨⟩
  exact hresult

theorem Inv.checked (hlog : Logged s.all s.log s.msgIdx (s.msg :: s.later))
    (hresult : ResultOk s.result) (hmoving : Moving s)
    (hptr : 0 < s.timeCnt → s.msgBufPtr = s.msg.len)
    (hflag : 0 < s.timeCnt → s.msg.read = false → s.tx = []) : Inv (checked s) := by
  unfold I2cAdapter.checked
  split
  next hzero =>
    refine Inv.finish ⟨Or.inl (show hi309xI2cXferTimeout < 0 by decide), fun _ => ?_⟩
    have htime := hmoving.time
    have hshort := hmoving.short
    have hbound := hmoving.ptr
    simp only
    omega
  next hpos =>
    have htime : 0 < s.timeCnt := Nat.pos_of_ne_zero hpos
    exact Inv.goto hlog hresult hmoving ⟨rfl, hptr htime, hflag htime⟩

theorem Moving.complete (h : Moving s) (hptr : s.msgBufPtr = s.msg.len)
    (hline : s.msg.read = false → s.shifting = none ∧ s.tx = []) :
    Entry.Complete ⟨s.msg, s.acked, s.received, s.buf, s.idleBefore⟩ ∧ s.shifting = none := by
  cases hread : s.msg.read with
  | true =>
    have hold := h.read hread
    have hcount := hold.count
    have hcnt := hold.cnt
    have hbuf : s.buf.length = s.msg.len := hold.ptr.trans hptr
    have hsub : s.buf.Sublist s.received := (List.sublist_append_left _ _).trans hold.sub
    have hlen := hsub.length_le
    refine ⟨⟨fun hw => ?_, fun _ => ⟨?_, hbuf⟩⟩, ?_⟩
    · simp only [hread] at hw
      cases hw
    · exact hsub.eq_of_length_le (by omega)
    · have hnone : s.shifting.toList.length = 0 := by omega
      simpa using hnone
  | false =>
    obtain ⟨hshift, htx⟩ := hline hread
    have hsent := (h.write hread).sent
    have hall : s.msg.data.take s.msgBufPtr = s.msg.data := by
      rw [hptr]
      exact List.take_of_length_le (by simp [Msg.data])
    rw [hshift, htx, hall, Option.toList_none, List.append_nil, List.append_nil] at hsent
    refine ⟨⟨fun _ => ?_, fun hr => ?_⟩, hshift⟩
    · exact List.map_injective_iff.mpr (fun a b hab => Cmd.write.inj hab) hsent
    · simp only [hread] at hr
      cases hr

theorem Logged.append {all : List Msg} {log : List Entry} {msgIdx : ℕ} {m : Msg}
    {later : List Msg} {e : Entry} (h : Logged all log msgIdx (m :: later)) (hmsg : e.msg = m)
    (hcomplete : e.Complete) (hidle : 0 < msgIdx → e.idle = true) :
    Logged all (log ++ [e]) (msgIdx + 1) later where
  order := by
    rw [List.map_append, List.map_singleton, hmsg, List.append_assoc, List.singleton_append]
    exact h.order
  index := by rw [List.length_append, List.length_singleton, h.index]
  complete x hx := by
    rcases List.mem_append.mp hx with hx | hx
    · exact h.complete x hx
    · rw [List.mem_singleton.mp hx]
      exact hcomplete
  idle x hx := by
    cases hlog : log with
    | nil =>
      rw [hlog] at hx
      cases hx
    | cons y rest =>
      have hpos : 0 < msgIdx := by
        rw [← h.index, hlog]
        exact Nat.succ_pos _
      have hold := h.idle
      rw [hlog] at hx hold
      rcases List.mem_append.mp hx with hx | hx
      · exact hold x hx
      · rw [List.mem_singleton.mp hx]
        exact hidle hpos

theorem Inv.nextMsg (h : Inv s) {t : ℕ} (hpc : s.pc = .wait t true)
    (hshift : s.msg.read = false → s.shifting = none) :
    Inv (State.nextMsg { s with tx := [], rx := [] }) := by
  have hlog := h.logged (by rw [hpc]; nofun)
  have hmoving := h.moving (by rw [hpc]; rfl)
  have hwait := h.pc
  unfold PcOk at hwait
  simp only [hpc] at hwait
  obtain ⟨-, hptr, htx⟩ := hwait
  obtain ⟨hcomplete, hnone⟩ := hmoving.complete hptr fun hw => ⟨hshift hw, htx hw⟩
  have hnew := hlog.append rfl hcomplete hmoving.idle
  unfold State.nextMsg
  dsimp only
  split
  next hlater =>
    rw [hlater] at hnew
    refine Inv.finish ⟨Or.inr ⟨?_, ?_, hnew.complete, hnew.idle⟩, fun hret => ?_⟩
    · have hall := hnew.order
      rw [List.append_nil] at hall
      rw [← hall, List.length_map, hnew.index]
    · have hall := hnew.order
      rwa [List.append_nil] at hall
    · simp only [hi309xI2cXferTimeout] at hret
      omega
  next m later hlater =>
    rw [hlater] at hnew
    exact ⟨fun _ => hnew, ⟨rfl, fun _ => ⟨rfl, hnone, rfl⟩⟩, nofun, h.result⟩

theorem Inv.waited (h : Inv s) {t k : ℕ} {after : Bool} (hpc : s.pc = .wait t after) (hk : k ≤ 1)
    {other : BitVec 32} (hallowed : Allowed s (.step other)) : Inv (s.waited k after) := by
  have hshort : ¬ k > hi309xI2cTimeout := by
    unfold hi309xI2cTimeout
    omega
  unfold State.waited
  rw [if_neg hshort]
  simp only [Allowed, hpc] at hallowed
  dsimp only
  cases after with
  | true => exact h.nextMsg hpc hallowed
  | false =>
    have hlog := h.logged (by rw [hpc]; nofun)
    have hwait := h.pc
    unfold PcOk at hwait
    simp only [hpc] at hwait hallowed
    refine ⟨fun _ => hlog, ?_, nofun, h.result⟩
    split at hallowed
    next hfirst => exact ⟨⟨rfl, hallowed, rfl⟩, fun hpos => absurd hfirst (Nat.ne_of_gt hpos)⟩
    next hlater =>
      exact ⟨⟨rfl, (hwait.2 (Nat.pos_of_ne_zero hlater)).2.1, rfl⟩, fun _ => hallowed⟩

theorem Inv.config (h : Inv s) (hpc : s.pc = .config) (hshort : s.msg.len < hi309xI2cTimeout) :
    Inv (config s) := by
  have hlog := h.logged (by rw [hpc]; nofun)
  have hquiet := h.pc
  unfold PcOk at hquiet
  simp only [hpc] at hquiet
  obtain ⟨⟨htx, hshift, hrx⟩, hbusy⟩ := hquiet
  have hidle : 0 < s.msgIdx → (!s.busy && s.shifting.isNone) = true := by
    intro hpos
    rw [hbusy hpos, hshift]
    rfl
  have hmoving : Moving { s with
      aborted := false
      idleBefore := !s.busy && s.shifting.isNone
      msgBufPtr := 0
      buf := []
      cnt := 0
      timeCnt := hi309xI2cTimeout
      acked := []
      received := []
      idleRounds := 0 } := by
    refine ⟨hshort, Nat.zero_le _, fun _ => ⟨rfl, ?_, ?_, Nat.zero_le _⟩,
      fun _ => ⟨?_, rfl, rfl, rfl⟩, le_rfl, hidle⟩
    · simp only [hrx]
      exact List.nil_sublist _
    · simp only [hshift, htx]
      exact le_rfl
    · simp only [hshift, htx]
      rfl
  unfold I2cAdapter.config
  dsimp only
  split
  next hread => exact ⟨fun _ => hlog, hread, fun _ => hmoving.goto hmoving.time, h.result⟩
  next hwrite => exact Inv.writeLoop hlog h.result hmoving (Bool.eq_false_of_not_eq_true hwrite)

theorem Inv.recheck (h : Inv s) (hpc : s.pc = .check ∨ s.pc = .recheck) (other : BitVec 32)
    (hflag : 0 < s.timeCnt → s.msg.read = false → (s.status other).getLsbD 2 = true) :
    Inv (I2cAdapter.checked s) := by
  have hptr := h.pc
  unfold PcOk at hptr
  rcases hpc with hpc | hpc
  all_goals
    simp only [hpc] at hptr
    exact Inv.checked (h.logged (by rw [hpc]; nofun)) h.result (h.moving (by rw [hpc]; rfl)) hptr
      fun htime hwrite => (status_tfe s other).mp (hflag htime hwrite)

theorem Inv.step {other : BitVec 32} (h : Inv s) (hallowed : Allowed s (.step other))
    (hstep : step s other = some s') : Inv s' := by
  unfold I2cAdapter.step at hstep
  have hpcOk := h.pc
  unfold PcOk at hpcOk
  cases hpc : s.pc with
  | idle =>
    simp only [hpc] at hstep
    cases hstep
  | wait t after =>
    have hzero : t = 0 := by
      cases after <;> simp only [hpc] at hpcOk <;> exact hpcOk.1
    subst hzero
    simp only [hpc] at hstep
    split at hstep
    · cases hstep
      exact h.waited hpc (Nat.zero_le 1) hallowed
    · split at hstep
      next hover => exact absurd hover (by decide)
      next =>
        cases hstep
        exact h.waited hpc le_rfl hallowed
  | config =>
    simp only [hpc] at hstep
    cases hstep
    simp only [Allowed, hpc] at hallowed
    exact h.config hpc hallowed
  | rInit =>
    have hlog := h.logged (by rw [hpc]; nofun)
    have hmoving := h.moving (by rw [hpc]; rfl)
    simp only [hpc] at hstep hpcOk
    cases hstep
    exact Inv.fillLoop hlog h.result (hmoving.goto hmoving.time) hpcOk
  | rFill =>
    have hlog := h.logged (by rw [hpc]; nofun)
    have hmoving := h.moving (by rw [hpc]; rfl)
    simp only [hpc] at hstep hpcOk
    cases hstep
    exact Inv.fillLoop hlog h.result (hmoving.readPush hpcOk.1 hpcOk.2) hpcOk.1
  | rTest =>
    have hlog := h.logged (by rw [hpc]; nofun)
    have hmoving := h.moving (by rw [hpc]; rfl)
    simp only [hpc] at hstep hpcOk
    cases hstep
    split
    next hrx =>
      exact Inv.goto hlog h.result hmoving
        ⟨hpcOk.1, hpcOk.2, fun hnil => hrx (List.length_eq_zero_iff.mpr hnil)⟩
    next => exact Inv.idleRound hlog h.result hmoving
  | rPop =>
    have hlog := h.logged (by rw [hpc]; nofun)
    have hmoving := h.moving (by rw [hpc]; rfl)
    simp only [hpc] at hstep hpcOk
    obtain ⟨hread, hptr, hrx⟩ := hpcOk
    have hpopped := hmoving.readPop hread hptr hrx (b := other.setWidth 8)
    have htime := hmoving.time
    cases hstep
    split
    next hcnt =>
      refine ⟨fun _ => hlog, ⟨hread, hcnt, ?_⟩, fun _ => hpopped.goto hpopped.time, h.result⟩
      simp only
      omega
    next =>
      refine Inv.endRound hlog h.result (hpopped.goto hpopped.time) ?_
      simp only
      omega
  | rPush =>
    have hlog := h.logged (by rw [hpc]; nofun)
    have hmoving := h.moving (by rw [hpc]; rfl)
    simp only [hpc] at hstep hpcOk
    cases hstep
    exact Inv.endRound hlog h.result (hmoving.readPush hpcOk.1 hpcOk.2.1) hpcOk.2.2
  | wTest =>
    have hlog := h.logged (by rw [hpc]; nofun)
    have hmoving := h.moving (by rw [hpc]; rfl)
    simp only [hpc] at hstep hpcOk
    cases hstep
    split
    next => exact Inv.goto hlog h.result hmoving hpcOk
    next => exact Inv.idleRound hlog h.result hmoving
  | wFlag =>
    have hlog := h.logged (by rw [hpc]; nofun)
    have hmoving := h.moving (by rw [hpc]; rfl)
    simp only [hpc] at hstep hpcOk
    cases hstep
    split
    next hflag =>
      exact Inv.goto hlog h.result hmoving ⟨hpcOk.1, hpcOk.2, (status_tfe s other).mp hflag⟩
    next => exact Inv.idleRound hlog h.result hmoving
  | wPush =>
    have hlog := h.logged (by rw [hpc]; nofun)
    have hmoving := h.moving (by rw [hpc]; rfl)
    simp only [hpc] at hstep hpcOk
    obtain ⟨hwrite, hptr, htx⟩ := hpcOk
    have htime := hmoving.time
    cases hstep
    refine Inv.endRound hlog h.result (hmoving.writePush hwrite hptr htx) ?_
    simp only [State.push]
    omega
  | check =>
    simp only [hpc] at hstep hpcOk
    cases hstep
    by_cases hgo : (if s.msg.read = true then (s.status other).getLsbD 3
        else (s.status other).getLsbD 2) = false ∧ 0 < s.timeCnt
    · rw [if_pos hgo]
      have hrecheck : PcOk { s with pc := .recheck } := hpcOk
      exact Inv.goto (h.logged (by rw [hpc]; nofun)) h.result (h.moving (by rw [hpc]; rfl))
        hrecheck
    · rw [if_neg hgo]
      refine h.recheck (Or.inl hpc) other fun htime hwrite => ?_
      rw [hwrite, if_neg Bool.false_ne_true] at hgo
      simpa [htime] using hgo
  | recheck =>
    have hlog := h.logged (by rw [hpc]; nofun)
    have hmoving := h.moving (by rw [hpc]; rfl)
    have htime := hmoving.time
    simp only [hpc] at hstep hpcOk
    split at hstep
    next hflag =>
      cases hstep
      exact h.recheck (Or.inr hpc) other fun _ _ => hflag.2
    next =>
      split at hstep
      next hflag =>
        cases hstep
        refine h.recheck (Or.inr hpc) other fun _ hwrite => ?_
        rw [hflag.1] at hwrite
        cases hwrite
      next =>
        cases hstep
        refine ⟨fun _ => hlog, fun hpos => hpcOk ?_, fun _ => hmoving.goto (by omega), h.result⟩
        simp only at hpos
        omega

/-! ### The controller -/

theorem Inv.hardware (h : Inv s) {tx : List Cmd} {shifting : Option Cmd} {rx : List (BitVec 8)}
    {busy aborted : Bool} {acked received : List (BitVec 8)}
    (hquiet : Quiet s → tx = [] ∧ shifting = none ∧ rx = [] ∧ (s.busy = false → busy = false))
    (htx : s.msg.read = false → s.tx = [] → tx = []) (hrx : s.rx ≠ [] → rx ≠ [])
    (hread : s.pc.moving = true → s.msg.read = true → ReadOk s → ReadOk { s with
      tx := tx, shifting := shifting, rx := rx, busy := busy, aborted := aborted, acked := acked
      received := received })
    (hwrite : s.pc.moving = true → s.msg.read = false → WriteOk s → WriteOk { s with
      tx := tx, shifting := shifting, rx := rx, busy := busy, aborted := aborted, acked := acked
      received := received }) :
    Inv { s with
      tx := tx, shifting := shifting, rx := rx, busy := busy, aborted := aborted, acked := acked
      received := received } where
  logged := h.logged
  pc := by
    have hpcOk := h.pc
    unfold PcOk at hpcOk ⊢
    cases hpc : s.pc with
    | wait t after =>
      cases after with
      | false =>
        simp only [hpc] at hpcOk
        refine ⟨hpcOk.1, fun hpos => ?_⟩
        have hnew := hquiet (hpcOk.2 hpos)
        exact ⟨hnew.1, hnew.2.1, hnew.2.2.1⟩
      | true =>
        simp only [hpc] at hpcOk
        exact ⟨hpcOk.1, hpcOk.2.1, fun hw => htx hw (hpcOk.2.2 hw)⟩
    | config =>
      simp only [hpc] at hpcOk
      have hnew := hquiet hpcOk.1
      exact ⟨⟨hnew.1, hnew.2.1, hnew.2.2.1⟩, fun hpos => hnew.2.2.2 (hpcOk.2 hpos)⟩
    | rPop =>
      simp only [hpc] at hpcOk
      exact ⟨hpcOk.1, hpcOk.2.1, hrx hpcOk.2.2⟩
    | wPush =>
      simp only [hpc] at hpcOk
      exact ⟨hpcOk.1, hpcOk.2.1, htx hpcOk.1 hpcOk.2.2⟩
    | idle => trivial
    | rInit | rFill | rTest | rPush | wTest | wFlag | check | recheck =>
      simpa only [hpc] using hpcOk
  moving hpc := by
    have hold := h.moving hpc
    exact ⟨hold.short, hold.ptr, fun hr => hread hpc hr (hold.read hr),
      fun hw => hwrite hpc hw (hold.write hw), hold.time, hold.idle⟩
  result := h.result

theorem Inv.pop (h : Inv s) (hstep : pop s = some s') : Inv s' := by
  unfold I2cAdapter.pop at hstep
  split at hstep
  next c rest hshift htx =>
    cases hstep
    refine h.hardware (fun hquiet => ?_) (fun _ hnil => ?_) id (fun _ _ hold => ?_)
      fun _ _ hold => ?_
    · have hnil := hquiet.1
      rw [htx] at hnil
      cases hnil
    · rw [htx] at hnil
      cases hnil
    · refine ⟨hold.ptr, hold.sub, ?_, hold.cnt⟩
      have hcount := hold.count
      simp only [hshift, htx, List.length_cons, Option.toList_none, Option.toList_some,
        List.length_nil] at hcount ⊢
      omega
    · refine ⟨?_, hold.live, hold.buf, hold.cnt⟩
      have hsent := hold.sent
      simp only [hshift, htx, Option.toList_none, List.append_nil] at hsent
      simpa using hsent
  next => cases hstep

theorem Inv.ack {b : BitVec 8} (h : Inv s) (hstep : ack s b = some s') : Inv s' := by
  unfold I2cAdapter.ack at hstep
  split at hstep
  next => cases hstep
  next v hshift =>
    cases hstep
    refine h.hardware (fun hquiet => ?_) (fun _ => id) id (fun _ _ hold => ?_) fun _ _ hold => ?_
    · have hnone := hquiet.2.1
      rw [hshift] at hnone
      cases hnone
    · refine ⟨hold.ptr, hold.sub, ?_, hold.cnt⟩
      have hcount := hold.count
      simp only [hshift, Option.toList_none, Option.toList_some, List.length_nil,
        List.length_singleton] at hcount ⊢
      omega
    · refine ⟨?_, hold.live, hold.buf, hold.cnt⟩
      have hsent := hold.sent
      simp only [hshift, Option.toList_some] at hsent
      simpa only [List.map_append, List.map_singleton, Option.toList_none, List.append_nil] using hsent
  next hshift =>
    cases hstep
    refine h.hardware (fun hquiet => ?_) (fun _ => id) (fun hne => ?_) (fun _ _ hold => ?_)
      fun _ _ hold => ?_
    · have hnone := hquiet.2.1
      rw [hshift] at hnone
      cases hnone
    · split
      · exact fun happ => hne (List.append_eq_nil_iff.mp happ).1
      · exact hne
    · refine ⟨hold.ptr, ?_, ?_, hold.cnt⟩
      · simp only
        split
        · rw [← List.append_assoc]
          exact hold.sub.append_right [b]
        · exact hold.sub.trans (List.sublist_append_left _ _)
      · have hcount := hold.count
        simp only [hshift, Option.toList_none, Option.toList_some, List.length_nil,
          List.length_append, List.length_singleton] at hcount ⊢
        omega
    · -- a message that writes has no read command on the line
      have hmem : Cmd.read ∈ (s.msg.data.take s.msgBufPtr).map Cmd.write := by
        rw [← hold.sent, hshift]
        simp
      obtain ⟨v, -, hv⟩ := List.mem_map.mp hmem
      cases hv

theorem Inv.abort (h : Inv s) (hallowed : Allowed s .abort) (hstep : abort s = some s') :
    Inv s' := by
  unfold I2cAdapter.abort at hstep
  split at hstep
  next hshift =>
    cases hstep
    refine h.hardware (fun hquiet => ?_) (fun _ _ => rfl) id (fun _ _ hold => ?_)
      fun hpc hwrite _ => ?_
    · rw [hquiet.2.1] at hshift
      cases hshift
    · refine ⟨hold.ptr, hold.sub, ?_, hold.cnt⟩
      have hcount := hold.count
      simp only [Option.toList_none, List.length_nil]
      omega
    · rw [hallowed hpc] at hwrite
      cases hwrite
  next => cases hstep

theorem Inv.release (h : Inv s) (hstep : release s = some s') : Inv s' := by
  unfold I2cAdapter.release at hstep
  split at hstep
  next hnone =>
    cases hstep
    exact h.hardware (fun hquiet => ⟨hquiet.1, hquiet.2.1, hquiet.2.2, fun _ => rfl⟩) (fun _ => id) id
      (fun _ _ hold => ⟨hold.ptr, hold.sub, hold.count, hold.cnt⟩)
      fun _ _ hold => ⟨hold.sent, hold.live, hold.buf, hold.cnt⟩
  next => cases hstep

/-! ### Runs -/

theorem einval_ok : Result.Ok ⟨[], -einval, [], 0⟩ :=
  ⟨Or.inl (show -einval < 0 by decide), fun hret => absurd hret (by decide)⟩

theorem Inv.begin {msgs : Option (List Msg)} {num : ℤ} (h : Inv s)
    (hstep : begin s msgs num = some s') : Inv s' := by
  have hinvalid : s.pc = .idle → Inv { s with result := some ⟨[], -einval, [], 0⟩ } := by
    intro hpc
    refine ⟨fun hne => absurd hpc hne, ?_, fun hmoving => ?_, ?_⟩
    · unfold PcOk
      simp only [hpc]
    · simp only [hpc] at hmoving
      cases hmoving
    · rintro r ⟨⟩
      exact einval_ok
  unfold I2cAdapter.begin at hstep
  split at hstep
  next hpc =>
    split at hstep
    · split at hstep
      · cases hstep
        exact hinvalid hpc
      · split at hstep
        · cases hstep
          exact ⟨fun _ => ⟨rfl, rfl, nofun, nofun⟩, ⟨rfl, nofun⟩, nofun, h.result⟩
        · cases hstep
    · split at hstep
      · cases hstep
        exact hinvalid hpc
      · cases hstep
    · cases hstep
      exact hinvalid hpc
  next => cases hstep

theorem Inv.next {a : Action} (h : Inv s) (hallowed : Allowed s a) (hstep : next s a = some s') :
    Inv s' := by
  cases a with
  | begin msgs num => exact h.begin hstep
  | step other => exact h.step hallowed hstep
  | pop => exact h.pop hstep
  | ack b => exact h.ack hstep
  | abort => exact h.abort hallowed hstep
  | release => exact h.release hstep

theorem Inv.transfersOk (h : Inv s) : TransfersOk s := by
  refine ⟨fun hpc => ?_, fun hpc => ?_, h.result⟩
  · have hmoving := h.moving hpc
    cases hread : s.msg.read with
    | true => exact (hmoving.read hread).ptr.trans_le hmoving.ptr
    | false =>
      rw [(hmoving.write hread).buf]
      exact Nat.zero_le _
  · have hmoving := h.moving hpc
    cases hread : s.msg.read with
    | true => exact (hmoving.read hread).cnt
    | false =>
      rw [(hmoving.write hread).cnt]
      exact Nat.zero_le _

end Steps

/-- In a run of allowed steps a transfer that succeeds is complete, one that moves its bytes does
not time out, and no buffer is overrun. -/
theorem transfersOk_of_allowed {s : State} (hreach : (system.restrict Allowed).Reachable s) :
    TransfersOk s := by
  have h : Inv s := by
    apply hreach.invariant
    · rintro s ⟨hpc, hresult⟩
      refine ⟨fun hne => absurd hpc hne, ?_, fun hmoving => ?_, fun r hr => ?_⟩
      · unfold PcOk
        simp only [hpc]
      · rw [hpc] at hmoving
        cases hmoving
      · rw [hresult] at hr
        cases hr
    · rintro s a s' - h ⟨hallowed, hstep⟩
      exact h.next hallowed hstep
  exact h.transfersOk

instance decidableAllowed (s : State) : (a : Action) → Decidable (Allowed s a)
  | .step _ =>
    match hpc : s.pc with
    | .wait _ false =>
      decidable_of_iff (if s.msgIdx = 0 then s.shifting = none else s.busy = false)
        (by simp only [Allowed, hpc])
    | .wait _ true =>
      decidable_of_iff (s.msg.read = false → s.shifting = none) (by simp only [Allowed, hpc])
    | .config => decidable_of_iff (s.msg.len < hi309xI2cTimeout) (by simp only [Allowed, hpc])
    | .idle | .rInit | .rFill | .rTest | .rPop | .rPush | .wTest | .wFlag | .wPush | .check
    | .recheck => .isTrue (by simp only [Allowed, hpc])
  | .abort => inferInstanceAs (Decidable (s.pc.moving = true → s.msg.read = true))
  | .begin _ _ | .pop | .ack _ | .release => .isTrue trivial

def zeros (len : ℕ) : Msg := ⟨false, len, fun _ => 0⟩

def probed : State where
  param := 0x3f3f00
  tx := []
  shifting := none
  rx := []
  busy := false
  aborted := false
  pc := .idle
  all := []
  msg := zeros 0
  later := []
  msgIdx := 0
  msgBufPtr := 0
  buf := []
  cnt := 0
  rlimit := 0
  timeCnt := 0
  acked := []
  received := []
  idleRounds := 0
  idleBefore := false
  log := []
  result := none

theorem probed_reachable : system.Reachable probed := .init ⟨rfl, rfl⟩

def steps (n : ℕ) : List Action := List.replicate n (.step 0)

def transferring : List Action :=
  List.flatten [[.begin (some [⟨true, 2, fun _ => 0⟩, zeros 1]) 2], steps 5,
    [.pop, .ack 0x41, .pop, .ack 0x42], steps 6, [.release], steps 6, [.pop, .ack 0], steps 1,
    [.release], steps 1]

theorem transfersOk_of_allowed_transferring :
    ∃ s, TransitionSystem.runSteps (TransitionSystem.guarded Allowed next) probed transferring =
        some s ∧
      (s.result.map fun r => (r.ret, r.log.map Entry.buf, r.log.map Entry.acked)) =
        some (2, [[0x41, 0x42], []], [[], [0]]) ∧ TransfersOk s := by
  refine ⟨_, rfl, by decide, transfersOk_of_allowed ?_⟩
  exact TransitionSystem.Reachable.runGuarded (l := transferring)
    (TransitionSystem.Reachable.init (s := probed) ⟨rfl, rfl⟩) rfl

def aborting : List Action :=
  List.flatten [[.begin (some [zeros 2]) 1], steps 5, [.pop, .abort], steps 5]

def hurrying : List Action :=
  List.flatten [[.begin (some [zeros 1, zeros 1]) 2], steps 5, [.pop, .ack 0], steps 7,
    [.pop, .ack 0], steps 2]

def rounds (n : ℕ) : State :=
  { probed with
    busy := decide (0 < n)
    pc := if n < hi309xI2cTimeout then .wTest else .check
    all := [zeros hi309xI2cTimeout]
    msg := zeros hi309xI2cTimeout
    msgBufPtr := n
    timeCnt := hi309xI2cTimeout - n
    acked := List.replicate n 0
    idleBefore := true }

theorem round_reachable {n : ℕ} (hn : n < hi309xI2cTimeout) (h : system.Reachable (rounds n)) :
    system.Reachable (rounds (n + 1)) := by
  have htest : next (rounds n) (.step 0) = some { rounds n with pc := .wFlag } := by
    simp [next, step, rounds, hn, probed]
  have hflag : next { rounds n with pc := .wFlag } (.step 0) =
      some { rounds n with pc := .wPush } := by
    have htfe := (status_tfe { rounds n with pc := .wFlag } 0).mpr rfl
    simp only [next, step]
    rw [if_pos htfe]
  have hpush : next { rounds n with pc := .wPush } (.step 0) =
      some { rounds (n + 1) with
        tx := [.write 0], busy := decide (0 < n), acked := List.replicate n 0 } := by
    have hpos : ¬ hi309xI2cTimeout - n = 0 := by omega
    simp [next, step, rounds, probed, State.push, State.txDepth, endRound, hpos, zeros, writeLoop,
      Nat.sub_sub]
  have hpop : next { rounds (n + 1) with
      tx := [.write 0], busy := decide (0 < n), acked := List.replicate n 0 } .pop =
      some { rounds (n + 1) with shifting := some (.write 0), acked := List.replicate n 0 } := by
    simp [next, pop, rounds, probed]
  have hack : next { rounds (n + 1) with
      shifting := some (.write 0), acked := List.replicate n 0 } (.ack 0) =
      some (rounds (n + 1)) := by
    simp [next, ack, rounds, probed, List.replicate_succ']
  exact ((((h.step htest).step hflag).step hpush).step hpop).step hack

theorem rounds_reachable {n : ℕ} (hn : n ≤ hi309xI2cTimeout) : system.Reachable (rounds n) := by
  induction n with
  | zero =>
    exact TransitionSystem.Reachable.runSteps
      (l := .begin (some [zeros hi309xI2cTimeout]) 1 :: steps 2) probed_reachable rfl
  | succ n ih => exact round_reachable hn (ih (Nat.le_of_succ_le hn))

/-- A write succeeds without its bytes; a message is configured on a busy bus; and one whose bytes
have all been acknowledged times out without an idle round. -/
theorem transfers_break :
    (∃ s, TransitionSystem.runSteps next probed aborting = some s ∧ system.Reachable s ∧
      (s.result.map fun r => (r.ret, r.log.map Entry.acked)) = some (1, [[]]) ∧
      ¬ TransfersOk s) ∧
    (∃ s, TransitionSystem.runSteps next probed hurrying = some s ∧ system.Reachable s ∧
      (s.result.map fun r => (r.ret, r.log.map Entry.idle)) = some (2, [true, false]) ∧
      ¬ TransfersOk s) ∧
    ∃ s, system.Reachable s ∧ s.acked = s.msg.data ∧ s.idleRounds = 0 ∧
      (s.result.map Result.ret) = some hi309xI2cXferTimeout ∧ ¬ TransfersOk s := by
  refine ⟨⟨_, rfl, ?_, by decide, fun h => ?_⟩, ⟨_, rfl, ?_, by decide, fun h => ?_⟩, ?_⟩
  · exact TransitionSystem.Reachable.runSteps (l := aborting) probed_reachable rfl
  · rcases (h.result _ rfl).success with hret | ⟨-, -, hcomplete, -⟩
    · exact absurd hret (by decide)
    · have hsent := (hcomplete _ (List.mem_singleton.mpr rfl)).sent rfl
      exact absurd hsent (by decide)
  · exact TransitionSystem.Reachable.runSteps (l := hurrying) probed_reachable rfl
  · rcases (h.result _ rfl).success with hret | ⟨-, -, -, hidle⟩
    · exact absurd hret (by decide)
    · exact absurd hidle (by decide)
  · refine ⟨(rounds hi309xI2cTimeout).finish hi309xI2cXferTimeout,
      (rounds_reachable le_rfl).step (a := .step 0) ?_, ?_, rfl, rfl, fun h => ?_⟩
    · simp [system, TransitionSystem.ofStep, next, step, rounds, probed, checked, zeros]
    · simp [State.finish, rounds, Msg.data, zeros, probed]
    · have hidle := (h.result _ rfl).timeout rfl
      exact absurd hidle (by decide)

end HiMpu.I2cAdapter
