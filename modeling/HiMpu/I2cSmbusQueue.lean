import HiMpu.ByteMemory
import HiMpu.Custody
import HiMpu.TransitionSystem

/-!
# The request queue of the SMBus slave

Master writes go through the RX FIFO into `buf_request`, and at the STOP into one of ten
nodes, which the application reads.  The interrupt handler, the handler of the stop-detect
timer and one call of the application share the two queues.  Each test of a queue, each
removal and each insertion is a step of its own, and so is each byte.  The master only
writes.
-/

namespace HiMpu.SmbusQueue

def icMsgMaxNum : ℕ := 10

inductive Party
  | handler
  | timer
  | reader
  deriving DecidableEq

structure Irq where
  stop : Bool
  rxFull : Bool

inductive HandlerPc
  | idle
  | dispatch
  | rxflr
  | bytes (left : ℕ)
  | requested
  | empty
  | dequeInused
  | delInused
  | dequeUnused
  | delUnused
  | copy (node : ℕ)
  | enque (node : ℕ)
  deriving DecidableEq

inductive TimerPc
  | idle
  | empty
  | deque
  | del
  | enque (node : ℕ)
  | abort
  deriving DecidableEq

/-- The call of the application, with its buffer and the number of the request in it. -/
inductive ReaderPc
  | idle
  | empty
  | wait
  | deque
  | del
  | copy (node : ℕ)
  | enque (node : ℕ) (rb : List UInt8) (no : ℕ)
  | size (node : ℕ) (rb : List UInt8) (no : ℕ)
  deriving DecidableEq

structure Node where
  buf : Mem
  bufLen : ℕ
  no : ℕ

structure Delivery where
  no : ℕ
  bytes : List UInt8

structure State where
  bufLen : ℕ
  bufRequest : Mem
  reqDataIndex : ℕ
  writeRequested : Bool
  inused : List ℕ
  unused : List ℕ
  node : ℕ → Node
  fifo : List UInt8
  stopDet : Bool
  irq : Irq
  handler : HandlerPc
  timer : TimerPc
  reader : ReaderPc
  /-- A removal from an empty queue, or an access through a null pointer. -/
  fault : Bool
  /-- The bytes of the master write in progress, which also are what has gone through the
  FIFO since the last write ended. -/
  line : List UInt8
  /-- The writes whose STOP has been handled, and those of them that make a request. -/
  ended : List (List UInt8)
  writes : List (List UInt8)
  /-- How many requests have been put into the queue, who took which of them, and what the
  application was given. -/
  arrived : ℕ
  taken : List (Party × ℕ)
  delivered : List Delivery

def initial (bufLen : ℕ) : State where
  bufLen := bufLen
  bufRequest := fun _ => 0
  reqDataIndex := 0
  writeRequested := false
  inused := []
  unused := List.range icMsgMaxNum
  node := fun _ => ⟨fun _ => 0, 0, 0⟩
  fifo := []
  stopDet := false
  irq := ⟨false, false⟩
  handler := .idle
  timer := .idle
  reader := .idle
  fault := false
  line := []
  ended := []
  writes := []
  arrived := 0
  taken := []
  delivered := []

def State.readByte (s : State) : State :=
  { s with
    fifo := s.fifo.tail
    bufRequest := s.bufRequest.write s.reqDataIndex [s.fifo.headD 0]
    reqDataIndex :=
      if s.bufLen ≤ (s.reqDataIndex + 1) % 2 ^ 32 then
        (s.reqDataIndex + 1) % 2 ^ 32 % s.bufLen
      else (s.reqDataIndex + 1) % 2 ^ 32 }

def slaveSmbusStop (s : State) : State :=
  if s.fifo ≠ [] ∨ s.writeRequested = true then
    { s with
      writeRequested := false
      ended := s.ended ++ [s.line]
      writes := s.writes ++ [s.line]
      line := []
      handler := .rxflr }
  else { s with ended := s.ended ++ [s.line], line := [] }

def State.delInused (s : State) (p : Party) (set : ℕ → State → State) : State :=
  match s.inused with
  | [] => { s with fault := true }
  | n :: q => set n { s with inused := q, taken := s.taken ++ [(p, (s.node n).no)] }

def handlerStmt (s : State) : Option State :=
  match s.handler with
  | .idle => none
  | .dispatch =>
    if s.irq.stop then some (slaveSmbusStop { s with irq := { s.irq with stop := false } })
    else if s.irq.rxFull then
      some { s with irq := { s.irq with rxFull := false }, writeRequested := true, handler := .rxflr }
    else some { s with handler := .idle }
  | .rxflr => some { s with handler := .bytes s.fifo.length }
  | .bytes 0 => some { s with handler := .requested }
  | .bytes (n + 1) => some { s.readByte with handler := .bytes n }
  | .requested => some { s with handler := if s.writeRequested then .dispatch else .empty }
  | .empty => some { s with handler := if s.unused = [] then .dequeInused else .dequeUnused }
  -- `i2c_deque` of an empty queue gives no node, and the request is not passed on
  | .dequeInused => some { s with handler := if s.inused = [] then .dispatch else .delInused }
  | .delInused => some (s.delInused .handler fun n s => { s with handler := .copy n })
  | .dequeUnused => some { s with handler := if s.unused = [] then .dispatch else .delUnused }
  | .delUnused =>
    match s.unused with
    | [] => some { s with fault := true }
    | n :: q => some { s with unused := q, handler := .copy n }
  | .copy n =>
    some { s with
      node := Function.update s.node n
        ⟨(s.node n).buf.write 0 (s.bufRequest.bytes 0 s.reqDataIndex), s.reqDataIndex, s.arrived⟩
      reqDataIndex := 0
      handler := .enque n }
  | .enque n =>
    some { s with inused := s.inused ++ [n], arrived := s.arrived + 1, handler := .dispatch }

/-! ## The handler of the stop-detect timer -/

def timerStmt (s : State) : Option State :=
  match s.timer with
  | .idle => none
  | .empty => some { s with timer := if s.inused = [] then .abort else .deque }
  -- the node is not tested
  | .deque => some (if s.inused = [] then { s with fault := true } else { s with timer := .del })
  | .del => some (s.delInused .timer fun n s => { s with timer := .enque n })
  | .enque n => some { s with unused := s.unused ++ [n], timer := .empty }
  -- `i2c_slave_smbus_abort` and the reset empty the FIFO and end the write
  | .abort =>
    some { s with
      writeRequested := false, reqDataIndex := 0, fifo := [], line := [], timer := .idle }

/-! ## The call of the application -/

def readerStmt (s : State) : Option State :=
  match s.reader with
  | .idle => none
  | .empty => some { s with reader := if s.inused = [] then .wait else .deque }
  | .wait => if s.inused = [] then none else some { s with reader := .deque }
  -- the node is not tested
  | .deque => some (if s.inused = [] then { s with fault := true } else { s with reader := .del })
  | .del => some (s.delInused .reader fun n s => { s with reader := .copy n })
  | .copy n =>
    some { s with
      reader := .enque n ((s.node n).buf.bytes 0 (s.node n).bufLen ++
        List.replicate (s.bufLen - (s.node n).bufLen) 0) (s.node n).no }
  | .enque n rb no => some { s with unused := s.unused ++ [n], reader := .size n rb no }
  | .size n rb no =>
    some { s with
      delivered := s.delivered ++ [⟨no, rb.take (s.node n).bufLen⟩], reader := .idle }

/-- The master sends a byte of a write or its STOP; an interrupt is taken, with the status
of the RX FIFO; the timer expires; the application calls, or its wait ends; and the three
parties go on. -/
inductive Action
  | byte (b : UInt8)
  | stop
  | irq (rxFull : Bool)
  | handler
  | expire
  | timer
  | read
  | giveUp
  | reader

def next (s : State) (a : Action) : Option State :=
  if s.fault then none else
  match a with
  | .byte b => some { s with fifo := s.fifo ++ [b], line := s.line ++ [b] }
  | .stop => some { s with stopDet := true }
  | .irq rxFull =>
    if s.handler = .idle ∧ (rxFull = true → s.fifo ≠ []) then
      some { s with irq := ⟨s.stopDet, rxFull⟩, stopDet := false, handler := .dispatch }
    else none
  | .handler => handlerStmt s
  | .expire => if s.timer = .idle then some { s with timer := .empty } else none
  | .timer => timerStmt s
  | .read => if s.reader = .idle then some { s with reader := .empty } else none
  | .giveUp => if s.reader = .wait then some { s with reader := .idle } else none
  | .reader => readerStmt s

def system : TransitionSystem State Action :=
  TransitionSystem.ofStep
    (fun s => ∃ bufLen, 0 < bufLen ∧ bufLen < 2 ^ 32 ∧ s = initial bufLen) next

/-! ## What the queue promises -/

def State.hand (s : State) : Party → Option ℕ
  | .handler =>
    match s.handler with
    | .copy n | .enque n => some n
    | _ => none
  | .timer =>
    match s.timer with
    | .enque n => some n
    | _ => none
  | .reader =>
    match s.reader with
    | .copy n | .enque n _ _ => some n
    | _ => none

def State.reading (s : State) : List ℕ :=
  match s.reader with
  | .copy n => [(s.node n).no]
  | .enque _ _ no | .size _ _ no => [no]
  | _ => []

def State.Matches (s : State) (no : ℕ) (bytes : List UInt8) : Prop :=
  ∃ w, s.writes[no]? = some w ∧ (w.length ≤ s.bufLen → bytes = w)

/-- The requests that have left the queue and those in it are all, in the order of their
arrival, so only the oldest one leaves; the application is given those that it takes. -/
structure QueueOk (s : State) : Prop where
  nodes : Custody s.unused s.inused s.hand (· < icMsgMaxNum)
  found : s.fault = false
  order : s.taken.map Prod.snd ++ s.inused.map (fun n => (s.node n).no) = List.range s.arrived
  handed : (s.taken.filter fun t => t.1 = .reader).map Prod.snd =
    s.delivered.map Delivery.no ++ s.reading
  exact : ∀ d ∈ s.delivered, s.Matches d.no d.bytes
  kept : s.writes.filter (· ≠ []) = s.ended.filter (· ≠ [])

def State.seen (s : State) : Party → Bool
  | .handler => s.handler = .dequeInused ∨ s.handler = .delInused
  | .timer => s.timer = .deque ∨ s.timer = .del
  | .reader => s.reader = .deque ∨ s.reader = .del

def State.leaves (s : State) (p : Party) : Prop :=
  ∀ q, q ≠ p → s.seen q = true → 2 ≤ s.inused.length

def HandlerPc.writing : HandlerPc → Bool
  | .idle | .dispatch | .enque _ => false
  | _ => true

/-- A write begins when the STOP of the one before has been handled, up to the level of
the FIFO; no write has exactly the length of the buffer; no party removes the last node
under another one; the handler does not change the length in a node that the call still
reads; and the timer does not abort while the handler writes. -/
def Allowed (s : State) : Action → Prop
  | .byte _ => s.stopDet = false ∧ s.irq.stop = false ∧
      ¬(s.handler = .rxflr ∧ s.writeRequested = false)
  | .stop => s.line.length ≠ s.bufLen
  | .handler => (s.handler = .delInused → s.leaves .handler) ∧
      ∀ n rb no, s.handler = .copy n → s.reader = .size n rb no →
        s.reqDataIndex = (s.node n).bufLen
  | .timer => (s.timer = .del → s.leaves .timer) ∧
      (s.timer = .abort → s.handler.writing = false)
  | .reader => s.reader = .del → s.leaves .reader
  | _ => True

/-! ## The buffer of the request -/

section Buffer

variable {s : State} {R : List UInt8} {n : ℕ}

/-- The bytes `R` have been read since the last request. -/
structure Gathered (s : State) (R : List UInt8) : Prop where
  index : s.reqDataIndex = R.length % s.bufLen
  holds : R.length < s.bufLen → s.bufRequest.bytes 0 R.length = R

theorem Gathered.nil (hindex : s.reqDataIndex = 0) : Gathered s [] where
  index := by rw [hindex, List.length_nil, Nat.zero_mod]
  holds _ := rfl

theorem Gathered.index_eq (hgath : Gathered s R) (hlt : R.length < s.bufLen) :
    s.reqDataIndex = R.length := by
  rw [hgath.index, Nat.mod_eq_of_lt hlt]

theorem Gathered.readByte (hgath : Gathered s R) (hpos : 0 < s.bufLen)
    (hword : s.bufLen < 2 ^ 32) {b : UInt8} {f : List UInt8} (hfifo : s.fifo = b :: f) :
    Gathered s.readByte (R ++ [b]) where
  index := by
    have hlt : s.reqDataIndex < s.bufLen := by
      rw [hgath.index]
      exact Nat.mod_lt _ hpos
    have hmod : (s.reqDataIndex + 1) % 2 ^ 32 = s.reqDataIndex + 1 :=
      Nat.mod_eq_of_lt (by omega)
    have hnext : s.readByte.reqDataIndex = (s.reqDataIndex + 1) % s.bufLen := by
      simp only [State.readByte, hmod]
      split
      next => rfl
      next hwrap => rw [Nat.mod_eq_of_lt (by omega)]
    rw [hnext, hgath.index, Nat.mod_add_mod, List.length_append, List.length_singleton]
    rfl
  holds := by
    intro hlt
    rw [List.length_append, List.length_singleton] at hlt ⊢
    have hlt' : R.length < s.bufLen := by
      have hsame : s.readByte.bufLen = s.bufLen := rfl
      omega
    have hbuf : s.readByte.bufRequest = s.bufRequest.write R.length [b] := by
      simp only [State.readByte, hfifo, List.headD_cons, hgath.index_eq hlt']
    have hold : (s.bufRequest.write R.length [b]).bytes 0 R.length = s.bufRequest.bytes 0 R.length :=
      Mem.bytes_congr fun x _ hx => Mem.write_outside (Or.inl (by omega))
    have hnew : s.bufRequest.write R.length [b] (0 + R.length) = b := by
      have hinside := Mem.write_inside (m := s.bufRequest) (a := R.length) (i := 0) (l := [b])
        Nat.zero_lt_one
      rw [Nat.add_zero, List.getElem_cons_zero] at hinside
      rw [Nat.zero_add]
      exact hinside
    rw [hbuf, Mem.bytes_succ, hold, hnew, hgath.holds hlt']

/-- The write in progress: what has been read of it, and the rest in the FIFO. -/
structure Open (s : State) (k : ℕ) (R : List UInt8) : Prop extends Gathered s R where
  line : s.line = R ++ s.fifo
  flag : R ≠ [] → s.writeRequested = true
  count : s.writes.length = s.arrived + k

/-- The write that has ended: what has been read of it, and `n` bytes in the FIFO. -/
structure Closing (s : State) (n : ℕ) (R : List UInt8) : Prop extends Gathered s R where
  level : n ≤ s.fifo.length
  line : s.line = s.fifo.drop n
  count : s.writes.length = s.arrived + 1
  whole : s.writes[s.arrived]? = some (R ++ s.fifo.take n)
  length : (R ++ s.fifo.take n).length ≠ s.bufLen

structure Reading (s : State) (n : ℕ) : Prop where
  more : s.writeRequested = true → n ≤ s.fifo.length ∧ ∃ R, Open s 0 R
  last : s.writeRequested = false → ∃ R, Closing s n R

structure SameWrite (s s' : State) : Prop where
  bufLen : s'.bufLen = s.bufLen
  bufRequest : s'.bufRequest = s.bufRequest
  reqDataIndex : s'.reqDataIndex = s.reqDataIndex
  writeRequested : s'.writeRequested = s.writeRequested
  fifo : s'.fifo = s.fifo
  line : s'.line = s.line
  writes : s'.writes = s.writes
  arrived : s'.arrived = s.arrived

namespace SameWrite

variable {s' : State} {k : ℕ} (hsame : SameWrite s s')

include hsame

theorem gathered (hgath : Gathered s R) : Gathered s' R where
  index := by rw [hsame.reqDataIndex, hsame.bufLen, hgath.index]
  holds := by
    rw [hsame.bufRequest, hsame.bufLen]
    exact hgath.holds

theorem opened (hopen : ∃ R, Open s k R) : ∃ R, Open s' k R := by
  obtain ⟨R, hopen⟩ := hopen
  refine ⟨R, hsame.gathered hopen.toGathered, ?_, ?_, ?_⟩
  · rw [hsame.line, hsame.fifo, hopen.line]
  · rw [hsame.writeRequested]
    exact hopen.flag
  · rw [hsame.writes, hsame.arrived, hopen.count]

theorem closing (hclose : ∃ R, Closing s n R) : ∃ R, Closing s' n R := by
  obtain ⟨R, hclose⟩ := hclose
  refine ⟨R, hsame.gathered hclose.toGathered, ?_, ?_, ?_, ?_, ?_⟩
  · rw [hsame.fifo]
    exact hclose.level
  · rw [hsame.line, hsame.fifo, hclose.line]
  · rw [hsame.writes, hsame.arrived, hclose.count]
  · rw [hsame.writes, hsame.arrived, hsame.fifo, hclose.whole]
  · rw [hsame.fifo, hsame.bufLen]
    exact hclose.length

theorem gathering (h : Reading s n) : Reading s' n where
  more hflag := by
    obtain ⟨hle, hopen⟩ := h.more (hsame.writeRequested.symm.trans hflag)
    rw [hsame.fifo]
    exact ⟨hle, hsame.opened hopen⟩
  last hflag := hsame.closing (h.last (hsame.writeRequested.symm.trans hflag))

omit hsame in
theorem pc (s : State) (h : HandlerPc) : SameWrite s { s with handler := h } :=
  ⟨rfl, rfl, rfl, rfl, rfl, rfl, rfl, rfl⟩

end SameWrite

end Buffer

def HandlerPhase (s : State) : Prop :=
  match s.handler with
  | .idle | .dispatch => ∃ R, Open s 0 R
  | .rxflr => Reading s s.fifo.length
  | .bytes n => Reading s n
  | .requested => Reading s 0
  | .empty | .dequeInused | .delInused | .dequeUnused | .delUnused | .copy _ =>
    s.writeRequested = false ∧ ∃ R, Closing s 0 R
  | .enque n => (∃ R, Open s 1 R) ∧ (s.node n).no = s.arrived

def State.Stored (s : State) (n : ℕ) : Prop :=
  s.Matches (s.node n).no ((s.node n).buf.bytes 0 (s.node n).bufLen)

def ReaderPhase (s : State) : Prop :=
  match s.reader with
  | .copy n => s.Stored n
  | .enque n rb no | .size n rb no => s.Matches no (rb.take (s.node n).bufLen)
  | _ => True

theorem HandlerPhase.congr {s s' : State} (h : HandlerPhase s) (hsame : SameWrite s s')
    (hpc : s'.handler = s.handler) (hnode : s'.node = s.node) : HandlerPhase s' := by
  unfold HandlerPhase at h ⊢
  rw [hpc]
  cases hcase : s.handler with
  | idle | dispatch =>
    rw [hcase] at h
    exact hsame.opened h
  | rxflr =>
    rw [hcase] at h
    have hreading := hsame.gathering h
    rwa [← hsame.fifo] at hreading
  | bytes n =>
    rw [hcase] at h
    exact hsame.gathering h
  | requested =>
    rw [hcase] at h
    exact hsame.gathering h
  | empty | dequeInused | delInused | dequeUnused | delUnused | copy _ =>
    rw [hcase] at h
    exact ⟨hsame.writeRequested.trans h.1, hsame.closing h.2⟩
  | enque n =>
    rw [hcase] at h
    refine ⟨hsame.opened h.1, ?_⟩
    rw [hnode, hsame.arrived]
    exact h.2

structure Inv (s : State) : Prop extends QueueOk s where
  pos : 0 < s.bufLen
  lt : s.bufLen < 2 ^ 32
  seen : ∀ p, s.seen p = true → s.inused ≠ []
  free : s.handler = .dequeUnused ∨ s.handler = .delUnused → s.unused ≠ []
  stored : ∀ n ∈ s.inused, s.Stored n
  storing : ∀ n, s.handler = .enque n → s.Stored n
  unequal : s.stopDet = true ∨ s.irq.stop = true → s.line.length ≠ s.bufLen
  handler : HandlerPhase s
  reader : ReaderPhase s

theorem inv_initial {bufLen : ℕ} (hpos : 0 < bufLen) (hlt : bufLen < 2 ^ 32) :
    Inv (initial bufLen) where
  nodes := by
    apply Custody.init List.nodup_range
    · intro c
      cases c <;> rfl
    · exact fun a => List.mem_range.symm
  found := rfl
  order := rfl
  handed := rfl
  exact d hd := by cases hd
  kept := rfl
  pos := hpos
  lt := hlt
  seen p hp := by cases p <;> cases hp
  free h := by rcases h with h | h <;> cases h
  stored n hn := by cases hn
  storing n h := by cases h
  unequal h := by rcases h with h | h <;> cases h
  handler := ⟨[], Gathered.nil rfl, rfl, fun h => absurd rfl h, rfl⟩
  reader := trivial

theorem State.Matches.mono {s s' : State} {no : ℕ} {bytes : List UInt8} (h : s.Matches no bytes)
    (hlen : s'.bufLen = s.bufLen) {more : List (List UInt8)}
    (hwrites : s'.writes = s.writes ++ more) : s'.Matches no bytes := by
  obtain ⟨w, hw, hbytes⟩ := h
  refine ⟨w, ?_, ?_⟩
  · rw [hwrites, List.getElem?_append_left (List.getElem?_eq_some_iff.mp hw).1]
    exact hw
  · rw [hlen]
    exact hbytes

section Steps

variable {s s' : State}

/-! ## Steps that only go on -/

theorem Inv.control {h : HandlerPc} {t : TimerPc} {r : ReaderPc} (hinv : Inv s)
    (hhand : ∀ p, State.hand { s with handler := h, timer := t, reader := r } p = s.hand p)
    (hseen : ∀ p, State.seen { s with handler := h, timer := t, reader := r } p = true →
      s.seen p = true ∨ s.inused ≠ [])
    (hfree : h = .dequeUnused ∨ h = .delUnused → s.unused ≠ [])
    (hstoring : ∀ n, h = .enque n → s.handler = .enque n)
    (hhandler : HandlerPhase { s with handler := h, timer := t, reader := r })
    (hreading : State.reading { s with handler := h, timer := t, reader := r } = s.reading)
    (hreader : ReaderPhase { s with handler := h, timer := t, reader := r }) :
    Inv { s with handler := h, timer := t, reader := r } where
  nodes := hinv.nodes.congr hhand fun _ => Iff.rfl
  found := hinv.found
  order := hinv.order
  handed := by
    rw [hreading]
    exact hinv.handed
  exact := hinv.exact
  kept := hinv.kept
  pos := hinv.pos
  lt := hinv.lt
  seen p hp := (hseen p hp).elim (hinv.seen p) id
  free := hfree
  stored := hinv.stored
  storing n hn := hinv.storing n (hstoring n hn)
  unequal := hinv.unequal
  handler := hhandler
  reader := hreader

theorem Inv.del {p : Party} {n : ℕ} {q : List ℕ} {h : HandlerPc} {t : TimerPc} {r : ReaderPc}
    (hinv : Inv s) (hinused : s.inused = n :: q) (hleaves : s.leaves p)
    (hempty : s.hand p = none)
    (hhand : State.hand { s with handler := h, timer := t, reader := r } p = some n)
    (hothers : ∀ c ≠ p, State.hand { s with handler := h, timer := t, reader := r } c = s.hand c)
    (hdone : State.seen { s with handler := h, timer := t, reader := r } p = false)
    (hseen : ∀ c ≠ p, State.seen { s with handler := h, timer := t, reader := r } c = s.seen c)
    (hfree : h = .dequeUnused ∨ h = .delUnused → s.unused ≠ [])
    (hstoring : ∀ n, h = .enque n → s.handler = .enque n)
    (hhandler : HandlerPhase { s with handler := h, timer := t, reader := r })
    (hreading : State.reading { s with handler := h, timer := t, reader := r } =
      s.reading ++ if p = .reader then [(s.node n).no] else [])
    (hreader : s.Stored n → ReaderPhase { s with handler := h, timer := t, reader := r }) :
    Inv { s with
      inused := q, taken := s.taken ++ [(p, (s.node n).no)]
      handler := h, timer := t, reader := r } where
  nodes := by
    have hnodes := hinv.nodes
    rw [hinused] at hnodes
    exact hnodes.take_right hempty hhand hothers
  found := hinv.found
  order := by
    have horder := hinv.order
    rw [hinused] at horder
    simpa using horder
  handed := by
    have hreading' : State.reading { s with
        inused := q, taken := s.taken ++ [(p, (s.node n).no)]
        handler := h, timer := t, reader := r } =
        s.reading ++ if p = .reader then [(s.node n).no] else [] := hreading
    rw [hreading', List.filter_append, List.map_append, hinv.handed, List.append_assoc]
    split
    next hp => simp [hp]
    next hp => simp [hp]
  exact := hinv.exact
  kept := hinv.kept
  pos := hinv.pos
  lt := hinv.lt
  seen c hc := by
    have hother : c ≠ p := by
      rintro rfl
      exact absurd hc (by simp [State.seen] at hdone ⊢; exact hdone)
    have hc' : s.seen c = true := (hseen c hother).symm.trans hc
    have hlong := hleaves c hother hc'
    rw [hinused] at hlong
    rintro rfl
    simp at hlong
  free := hfree
  stored m hm := by
    apply hinv.stored
    rw [hinused]
    exact List.mem_cons_of_mem n hm
  storing m hm := hinv.storing m (hstoring m hm)
  unequal := hinv.unequal
  handler := hhandler.congr ⟨rfl, rfl, rfl, rfl, rfl, rfl, rfl, rfl⟩ rfl rfl
  reader := hreader (hinv.stored n (by rw [hinused]; exact List.mem_cons_self))

theorem Inv.release {p : Party} {n : ℕ} {t : TimerPc} {r : ReaderPc} (hinv : Inv s)
    (hheld : s.hand p = some n)
    (hhand : State.hand { s with timer := t, reader := r } p = none)
    (hothers : ∀ c ≠ p, State.hand { s with timer := t, reader := r } c = s.hand c)
    (hseen : ∀ c, State.seen { s with timer := t, reader := r } c = true → s.seen c = true)
    (hreading : State.reading { s with timer := t, reader := r } = s.reading)
    (hreader : ReaderPhase { s with timer := t, reader := r }) :
    Inv { s with unused := s.unused ++ [n], timer := t, reader := r } where
  nodes := hinv.nodes.put_left hheld hhand hothers
  found := hinv.found
  order := hinv.order
  handed := hinv.handed.trans (congrArg _ hreading.symm)
  exact := hinv.exact
  kept := hinv.kept
  pos := hinv.pos
  lt := hinv.lt
  seen c hc := hinv.seen c (hseen c hc)
  free _ := by simp
  stored := hinv.stored
  storing := hinv.storing
  unequal := hinv.unequal
  handler := hinv.handler.congr ⟨rfl, rfl, rfl, rfl, rfl, rfl, rfl, rfl⟩ rfl rfl
  reader := hreader

theorem Inv.handler_goes {h : HandlerPc} (hinv : Inv s) (hold : s.hand .handler = none)
    (hnew : State.hand { s with handler := h } .handler = none)
    (hseen : State.seen { s with handler := h } .handler = true → s.inused ≠ [])
    (hfree : h = .dequeUnused ∨ h = .delUnused → s.unused ≠ [])
    (hhandler : HandlerPhase { s with handler := h }) : Inv { s with handler := h } := by
  refine hinv.control ?_ ?_ hfree ?_ hhandler rfl hinv.reader
  · intro p
    cases p
    · exact hnew.trans hold.symm
    · rfl
    · rfl
  · intro p hp
    cases p
    · exact Or.inr (hseen hp)
    · exact Or.inl hp
    · exact Or.inl hp
  · rintro n rfl
    cases hnew

theorem Inv.inused_of_unused_nil (hinv : Inv s) (hunused : s.unused = [])
    (hhand : s.hand .handler = none) : s.inused ≠ [] := by
  intro hinused
  have hheld : ∀ a < 10, s.hand .timer = some a ∨ s.hand .reader = some a := by
    intro a ha
    rcases (hinv.nodes.mem_iff a).mp ha with h | h | ⟨c, hc⟩
    · rw [hunused] at h
      cases h
    · rw [hinused] at h
      cases h
    · cases c
      · rw [hhand] at hc
        cases hc
      · exact Or.inl hc
      · exact Or.inr hc
  have hzero := hheld 0 (by omega)
  have hone := hheld 1 (by omega)
  have htwo := hheld 2 (by omega)
  rcases hzero with h | h <;> rcases hone with h' | h' <;> rcases htwo with h'' | h'' <;>
    simp_all

theorem Inv.stop {irq : Irq} (hinv : Inv s) (hpc : s.handler = .dispatch) (hstop : s.irq.stop = true) :
    Inv (slaveSmbusStop { s with irq := irq }) := by
  have hhandler := hinv.handler
  rw [HandlerPhase, hpc] at hhandler
  obtain ⟨R, hopen⟩ := hhandler
  have hzero : ([] : List UInt8).length ≠ s.bufLen := by
    have hpos := hinv.pos
    simp only [List.length_nil]
    omega
  unfold slaveSmbusStop
  split
  next =>
    have hwrites : s.writes ++ [s.line] = s.writes ++ [s.line] := rfl
    refine
      { nodes := hinv.nodes.congr ?_ fun _ => Iff.rfl
        found := hinv.found
        order := hinv.order
        handed := hinv.handed
        exact := fun d hd => (hinv.exact d hd).mono rfl hwrites
        kept := ?_
        pos := hinv.pos
        lt := hinv.lt
        seen := ?_
        free := fun h => by rcases h with h | h <;> cases h
        stored := fun n hn => (hinv.stored n hn).mono rfl hwrites
        storing := fun n h => by cases h
        unequal := fun _ => hzero
        handler := ⟨fun h => absurd h Bool.false_ne_true, fun _ => ⟨R, ?_, le_rfl, ?_, ?_, ?_, ?_⟩⟩
        reader := ?_ }
    · intro p
      cases p
      · simp [State.hand, hpc]
      · rfl
      · rfl
    · simp only [List.filter_append, hinv.kept]
    · intro p hp
      cases p
      · cases hp
      · exact hinv.seen .timer hp
      · exact hinv.seen .reader hp
    · exact ⟨hopen.index, hopen.holds⟩
    · exact List.drop_length.symm
    · simp only [List.length_append, List.length_singleton, hopen.count, Nat.add_zero]
    · have hcount : s.arrived = s.writes.length := hopen.count.symm
      simp only [hcount, List.getElem?_concat_length, hopen.line, List.take_length]
    · simp only [List.take_length, ← hopen.line]
      exact hinv.unequal (Or.inr hstop)
    · have hreader := hinv.reader
      unfold ReaderPhase at hreader ⊢
      simp only
      split at hreader
      next => exact hreader.mono rfl hwrites
      next => exact hreader.mono rfl hwrites
      next => exact hreader.mono rfl hwrites
      next => trivial
  next hquiet =>
    obtain ⟨hfifo, hflag⟩ := not_or.mp hquiet
    have hfifo : s.fifo = [] := not_not.mp hfifo
    have hR : R = [] := by
      by_contra hR
      exact hflag (hopen.flag hR)
    have hline : s.line = [] := by rw [hopen.line, hR, hfifo, List.append_nil]
    refine
      { nodes := hinv.nodes
        found := hinv.found
        order := hinv.order
        handed := hinv.handed
        exact := hinv.exact
        kept := ?_
        pos := hinv.pos
        lt := hinv.lt
        seen := hinv.seen
        free := hinv.free
        stored := hinv.stored
        storing := hinv.storing
        unequal := fun _ => hzero
        handler := ?_
        reader := hinv.reader }
    · rw [hinv.kept]
      simp [hline]
    · rw [HandlerPhase, hpc]
      refine ⟨R, ⟨hopen.index, hopen.holds⟩, ?_, hopen.flag, hopen.count⟩
      rw [hR, List.nil_append]
      exact hfifo.symm

theorem Inv.goesOn (hinv : Inv s) {handler : HandlerPc} {irq : Irq} {stopDet writeRequested : Bool}
    {reqDataIndex : ℕ} {bufRequest : Mem} {fifo : List UInt8} (hhand : s.hand .handler = none)
    (hplain : handler = .dispatch ∨ handler = .rxflr ∨ ∃ n, handler = .bytes n)
    (hunequal : stopDet = true ∨ irq.stop = true → s.line.length ≠ s.bufLen)
    (hhandler : HandlerPhase { s with
      bufRequest := bufRequest
      reqDataIndex := reqDataIndex
      writeRequested := writeRequested
      fifo := fifo
      stopDet := stopDet
      irq := irq
      handler := handler }) :
    Inv { s with
      bufRequest := bufRequest
      reqDataIndex := reqDataIndex
      writeRequested := writeRequested
      fifo := fifo
      stopDet := stopDet
      irq := irq
      handler := handler } := by
  refine
    { nodes := hinv.nodes.congr ?_ fun _ => Iff.rfl
      found := hinv.found
      order := hinv.order
      handed := hinv.handed
      exact := hinv.exact
      kept := hinv.kept
      pos := hinv.pos
      lt := hinv.lt
      seen := ?_
      free := ?_
      stored := hinv.stored
      storing := ?_
      unequal := hunequal
      handler := hhandler
      reader := hinv.reader }
  · intro p
    cases p
    · rw [hhand]
      rcases hplain with rfl | rfl | ⟨n, rfl⟩ <;> rfl
    · rfl
    · rfl
  · intro p hp
    cases p
    · rcases hplain with rfl | rfl | ⟨n, rfl⟩ <;> simp [State.seen] at hp
    · exact hinv.seen .timer hp
    · exact hinv.seen .reader hp
  · rcases hplain with rfl | rfl | ⟨n, rfl⟩ <;> simp
  · rcases hplain with rfl | rfl | ⟨n, rfl⟩ <;> simp

theorem Inv.byte {n : ℕ} (hinv : Inv s) (hpc : s.handler = .bytes (n + 1)) :
    Inv { s.readByte with handler := .bytes n } := by
  have hhandler := hinv.handler
  rw [HandlerPhase, hpc] at hhandler
  have hhead : ∀ {m}, m + 1 ≤ s.fifo.length → ∃ b f, s.fifo = b :: f := by
    intro m hm
    cases hfifo : s.fifo with
    | nil => simp [hfifo] at hm
    | cons b f => exact ⟨b, f, rfl⟩
  have hphase : HandlerPhase { s.readByte with handler := .bytes n } := by
    refine ⟨fun hflag => ?_, fun hflag => ?_⟩
    · obtain ⟨hle, R, hopen⟩ := hhandler.more hflag
      obtain ⟨b, f, hfifo⟩ := hhead hle
      have htail : s.readByte.fifo = f := by simp only [State.readByte, hfifo, List.tail_cons]
      have hgath := hopen.toGathered.readByte hinv.pos hinv.lt hfifo
      rw [hfifo, List.length_cons] at hle
      refine ⟨?_, R ++ [b], ⟨hgath.index, hgath.holds⟩, ?_, fun _ => hflag, hopen.count⟩
      · simp only [htail]
        omega
      · simp only [htail, List.append_assoc, List.singleton_append]
        rw [← hfifo]
        exact hopen.line
    · obtain ⟨R, hclose⟩ := hhandler.last hflag
      obtain ⟨b, f, hfifo⟩ := hhead hclose.level
      have htail : s.readByte.fifo = f := by simp only [State.readByte, hfifo, List.tail_cons]
      have hgath := hclose.toGathered.readByte hinv.pos hinv.lt hfifo
      have hlevel := hclose.level
      have hline := hclose.line
      have hwhole := hclose.whole
      have hlength := hclose.length
      rw [hfifo] at hlevel hline hwhole hlength
      rw [List.take_succ_cons] at hwhole hlength
      refine ⟨R ++ [b], ⟨hgath.index, hgath.holds⟩, ?_, ?_, hclose.count, ?_, ?_⟩
      · rw [List.length_cons] at hlevel
        simp only [htail]
        omega
      · simp only [htail]
        exact hline
      · simp only [htail, List.append_assoc, List.singleton_append]
        exact hwhole
      · simp only [htail, List.append_assoc, List.singleton_append]
        exact hlength
  have hhand : s.hand .handler = none := by simp [State.hand, hpc]
  exact hinv.goesOn hhand (Or.inr (Or.inr ⟨n, rfl⟩)) hinv.unequal hphase

theorem Inv.copy {n : ℕ} (hinv : Inv s) (hpc : s.handler = .copy n)
    (hsize : ∀ rb no, s.reader = .size n rb no → s.reqDataIndex = (s.node n).bufLen) :
    Inv { s with
      node := Function.update s.node n
        ⟨(s.node n).buf.write 0 (s.bufRequest.bytes 0 s.reqDataIndex), s.reqDataIndex, s.arrived⟩
      reqDataIndex := 0
      handler := .enque n } := by
  have hhandler := hinv.handler
  rw [HandlerPhase, hpc] at hhandler
  obtain ⟨hflag, R, hclose⟩ := hhandler
  have hheld : s.hand .handler = some n := by simp [State.hand, hpc]
  have hother : ∀ m, m ∈ s.inused → m ≠ n := by
    rintro m hm rfl
    exact hinv.nodes.hand_right _ _ hheld hm
  have hreads : ∀ m, s.hand .reader = some m → m ≠ n := by
    rintro m hm rfl
    exact absurd (hinv.nodes.hand_inj _ _ _ hheld hm) (by decide)
  have hwhole := hclose.whole
  have hlength := hclose.length
  have hline := hclose.line
  rw [List.take_zero, List.append_nil] at hwhole hlength
  rw [List.drop_zero] at hline
  refine
    { nodes := hinv.nodes.congr ?_ fun _ => Iff.rfl
      found := hinv.found
      order := ?_
      handed := ?_
      exact := hinv.exact
      kept := hinv.kept
      pos := hinv.pos
      lt := hinv.lt
      seen := ?_
      free := ?_
      stored := ?_
      storing := ?_
      unequal := hinv.unequal
      handler := ⟨⟨[], Gathered.nil rfl, hline, fun h => absurd rfl h, hclose.count⟩, ?_⟩
      reader := ?_ }
  · intro p
    cases p
    · exact hheld.symm
    · rfl
    · rfl
  · rw [← hinv.order]
    congr 1
    apply List.map_congr_left
    intro m hm
    simp only [Function.update_of_ne (hother m hm)]
  · rw [hinv.handed]
    congr 1
    unfold State.reading
    cases hreader : s.reader with
    | copy m =>
      have hm := hreads m (by simp [State.hand, hreader])
      simp only [Function.update_of_ne hm]
    | idle | empty | wait | deque | del => rfl
    | enque m rb no | size m rb no => rfl
  · intro p hp
    cases p
    · simp [State.seen] at hp
    · exact hinv.seen .timer hp
    · exact hinv.seen .reader hp
  · simp
  · intro m hm
    have hm' := hother m hm
    unfold State.Stored
    simp only [Function.update_of_ne hm']
    exact hinv.stored m hm
  · intro m hm
    simp only [HandlerPc.enque.injEq] at hm
    subst hm
    unfold State.Stored
    simp only [Function.update_self]
    refine ⟨R, hwhole, fun hle => ?_⟩
    have hlt : R.length < s.bufLen := lt_of_le_of_ne hle hlength
    have hsame := Mem.bytes_write_same (s.node n).buf 0 (s.bufRequest.bytes 0 s.reqDataIndex)
    rw [Mem.length_bytes] at hsame
    rw [hsame, hclose.toGathered.index_eq hlt, hclose.holds hlt]
  · simp only [Function.update_self]
  · have hphase := hinv.reader
    unfold ReaderPhase at hphase ⊢
    simp only
    cases hreader : s.reader with
    | copy m =>
      have hm := hreads m (by simp [State.hand, hreader])
      rw [hreader] at hphase
      unfold State.Stored
      simp only [Function.update_of_ne hm]
      exact hphase
    | idle | empty | wait | deque | del => trivial
    | enque m rb no =>
      have hm := hreads m (by simp [State.hand, hreader])
      rw [hreader] at hphase
      simp only [Function.update_of_ne hm]
      exact hphase
    | size m rb no =>
      rw [hreader] at hphase
      by_cases hm : m = n
      · subst hm
        simp only [Function.update_self]
        rw [hsize rb no hreader]
        exact hphase
      · simp only [Function.update_of_ne hm]
        exact hphase

theorem Inv.enque {n : ℕ} (hinv : Inv s) (hpc : s.handler = .enque n) :
    Inv { s with inused := s.inused ++ [n], arrived := s.arrived + 1, handler := .dispatch } := by
  have hhandler := hinv.handler
  rw [HandlerPhase, hpc] at hhandler
  obtain ⟨⟨R, hopen⟩, hno⟩ := hhandler
  have hheld : s.hand .handler = some n := by simp [State.hand, hpc]
  refine
    { nodes := hinv.nodes.put_right hheld rfl ?_
      found := hinv.found
      order := ?_
      handed := hinv.handed
      exact := hinv.exact
      kept := hinv.kept
      pos := hinv.pos
      lt := hinv.lt
      seen := fun _ _ => by simp
      free := by simp
      stored := ?_
      storing := by simp
      unequal := hinv.unequal
      handler := ⟨R, ⟨hopen.index, hopen.holds⟩, hopen.line, hopen.flag, hopen.count⟩
      reader := hinv.reader }
  · intro p hp
    cases p
    · exact absurd rfl hp
    · rfl
    · rfl
  · simp only [List.map_append, List.map_cons, List.map_nil, hno]
    rw [← List.append_assoc, hinv.order, List.range_succ]
  · intro m hm
    rcases List.mem_append.mp hm with hm | hm
    · exact hinv.stored m hm
    · obtain rfl := List.mem_singleton.mp hm
      exact hinv.storing m hpc

theorem Inv.rxFull {irq : Irq} (hinv : Inv s) (hpc : s.handler = .dispatch)
    (hirq : irq.stop = true → s.irq.stop = true) :
    Inv { s with irq := irq, writeRequested := true, handler := .rxflr } := by
  have hphase := hinv.handler
  rw [HandlerPhase, hpc] at hphase
  obtain ⟨R, hopen⟩ := hphase
  have hhand : s.hand .handler = none := by simp [State.hand, hpc]
  refine hinv.goesOn hhand (Or.inr (Or.inl rfl)) (fun h => hinv.unequal (h.imp id hirq)) ?_
  exact ⟨fun _ => ⟨le_rfl, R, ⟨hopen.index, hopen.holds⟩, hopen.line, fun _ => rfl, hopen.count⟩,
    fun h => absurd h.symm Bool.false_ne_true⟩

theorem Inv.delInused_handler (hinv : Inv s) (hpc : s.handler = .delInused)
    (hleaves : s.leaves .handler) :
    Inv (s.delInused .handler fun n s => { s with handler := .copy n }) := by
  have hphase := hinv.handler
  rw [HandlerPhase, hpc] at hphase
  have hseen : s.seen .handler = true := by simp [State.seen, hpc]
  unfold State.delInused
  split
  next hnil => exact absurd hnil (hinv.seen _ hseen)
  next n q hinused =>
    refine hinv.del hinused hleaves ?_ rfl ?_ ?_ ?_ ?_ ?_ ?_ ?_ fun _ => hinv.reader
    · simp [State.hand, hpc]
    · intro c hc
      cases c <;> first | exact absurd rfl hc | rfl
    · simp [State.seen]
    · intro c hc
      cases c <;> first | exact absurd rfl hc | rfl
    · simp
    · simp
    · exact ⟨hphase.1, (SameWrite.pc s (.copy n)).closing hphase.2⟩
    · simp [State.reading]

theorem Inv.delUnused (hinv : Inv s) (hpc : s.handler = .delUnused) {n : ℕ} {q : List ℕ}
    (hunused : s.unused = n :: q) : Inv { s with unused := q, handler := .copy n } := by
  have hphase := hinv.handler
  rw [HandlerPhase, hpc] at hphase
  have hsame : SameWrite s { s with unused := q, handler := .copy n } :=
    ⟨rfl, rfl, rfl, rfl, rfl, rfl, rfl, rfl⟩
  refine
    { nodes := ?_
      found := hinv.found
      order := hinv.order
      handed := hinv.handed
      exact := hinv.exact
      kept := hinv.kept
      pos := hinv.pos
      lt := hinv.lt
      seen := ?_
      free := by simp
      stored := hinv.stored
      storing := by simp
      unequal := hinv.unequal
      handler := ⟨hphase.1, hsame.closing hphase.2⟩
      reader := hinv.reader }
  · have hnodes := hinv.nodes
    rw [hunused] at hnodes
    refine hnodes.take_left (c := .handler) ?_ rfl ?_
    · simp [State.hand, hpc]
    · intro c hc
      cases c <;> first | exact absurd rfl hc | rfl
  · intro p hp
    cases p
    · simp [State.seen] at hp
    · exact hinv.seen .timer hp
    · exact hinv.seen .reader hp

theorem Inv.handlerStmt (hinv : Inv s) (hallowed : Allowed s .handler)
    (hstep : handlerStmt s = some s') : Inv s' := by
  obtain ⟨hleaves, hsize⟩ := hallowed
  have hphase := hinv.handler
  unfold SmbusQueue.handlerStmt at hstep
  split at hstep
  case h_1 => cases hstep
  case h_2 hpc =>
    rw [HandlerPhase, hpc] at hphase
    split at hstep
    next hstop =>
      cases hstep
      exact hinv.stop hpc hstop
    next =>
      split at hstep
      next =>
        cases hstep
        exact hinv.rxFull hpc id
      next =>
        cases hstep
        refine hinv.handler_goes ?_ rfl ?_ ?_ ((SameWrite.pc s .idle).opened hphase)
        · simp [State.hand, hpc]
        · simp [State.seen]
        · simp
  case h_3 hpc =>
    rw [HandlerPhase, hpc] at hphase
    cases hstep
    refine hinv.handler_goes ?_ rfl ?_ ?_ ((SameWrite.pc s (.bytes _)).gathering hphase)
    · simp [State.hand, hpc]
    · simp [State.seen]
    · simp
  case h_4 hpc =>
    rw [HandlerPhase, hpc] at hphase
    cases hstep
    refine hinv.handler_goes ?_ rfl ?_ ?_ ((SameWrite.pc s .requested).gathering hphase)
    · simp [State.hand, hpc]
    · simp [State.seen]
    · simp
  case h_5 n hpc =>
    cases hstep
    exact hinv.byte hpc
  case h_6 hpc =>
    rw [HandlerPhase, hpc] at hphase
    cases hstep
    have hhand : s.hand .handler = none := by simp [State.hand, hpc]
    by_cases hflag : s.writeRequested = true
    · rw [if_pos hflag]
      refine hinv.handler_goes hhand rfl ?_ ?_
        ((SameWrite.pc s .dispatch).opened (hphase.more hflag).2)
      · simp [State.seen]
      · simp
    · rw [if_neg hflag]
      have hflag : s.writeRequested = false := by simpa using hflag
      refine hinv.handler_goes hhand rfl ?_ ?_
        ⟨hflag, (SameWrite.pc s .empty).closing (hphase.last hflag)⟩
      · simp [State.seen]
      · simp
  case h_7 hpc =>
    rw [HandlerPhase, hpc] at hphase
    cases hstep
    have hhand : s.hand .handler = none := by simp [State.hand, hpc]
    by_cases hunused : s.unused = []
    · rw [if_pos hunused]
      refine hinv.handler_goes hhand rfl ?_ ?_
        ⟨hphase.1, (SameWrite.pc s .dequeInused).closing hphase.2⟩
      · exact fun _ => hinv.inused_of_unused_nil hunused hhand
      · simp
    · rw [if_neg hunused]
      refine hinv.handler_goes hhand rfl ?_ ?_
        ⟨hphase.1, (SameWrite.pc s .dequeUnused).closing hphase.2⟩
      · simp [State.seen]
      · exact fun _ => hunused
  case h_8 hpc =>
    rw [HandlerPhase, hpc] at hphase
    cases hstep
    have hseen := hinv.seen .handler (by simp [State.seen, hpc])
    rw [if_neg hseen]
    refine hinv.handler_goes ?_ rfl ?_ ?_
      ⟨hphase.1, (SameWrite.pc s .delInused).closing hphase.2⟩
    · simp [State.hand, hpc]
    · exact fun _ => hseen
    · simp
  case h_9 hpc =>
    cases hstep
    exact hinv.delInused_handler hpc (hleaves hpc)
  case h_10 hpc =>
    rw [HandlerPhase, hpc] at hphase
    cases hstep
    have hfree := hinv.free (Or.inl hpc)
    rw [if_neg hfree]
    refine hinv.handler_goes ?_ rfl ?_ ?_
      ⟨hphase.1, (SameWrite.pc s .delUnused).closing hphase.2⟩
    · simp [State.hand, hpc]
    · simp [State.seen]
    · exact fun _ => hfree
  case h_11 hpc =>
    split at hstep
    next hnil => exact absurd hnil (hinv.free (Or.inr hpc))
    next n q hunused =>
      cases hstep
      exact hinv.delUnused hpc hunused
  case h_12 n hpc =>
    cases hstep
    exact hinv.copy hpc fun rb no hreader => hsize n rb no hpc hreader
  case h_13 n hpc =>
    cases hstep
    exact hinv.enque hpc

theorem Inv.timer_goes {t : TimerPc} (hinv : Inv s) (hold : s.hand .timer = none)
    (hnew : State.hand { s with timer := t } .timer = none)
    (hseen : State.seen { s with timer := t } .timer = true → s.inused ≠ []) :
    Inv { s with timer := t } := by
  refine hinv.control ?_ ?_ hinv.free (fun n => id) ?_ rfl hinv.reader
  · intro p
    cases p
    · rfl
    · exact hnew.trans hold.symm
    · rfl
  · intro p hp
    cases p
    · exact Or.inl hp
    · exact Or.inr (hseen hp)
    · exact Or.inl hp
  · exact hinv.handler.congr ⟨rfl, rfl, rfl, rfl, rfl, rfl, rfl, rfl⟩ rfl rfl

theorem Inv.abort (hinv : Inv s) (hpc : s.timer = .abort) (hidle : s.handler.writing = false) :
    Inv { s with
      writeRequested := false, reqDataIndex := 0, fifo := [], line := [], timer := .idle } := by
  have hzero : ([] : List UInt8).length ≠ s.bufLen := by
    have hpos := hinv.pos
    simp only [List.length_nil]
    omega
  have hcut : ∀ {h k R}, Open s k R → ∃ R, Open { s with
      writeRequested := false, reqDataIndex := 0, fifo := [], line := [], handler := h,
      timer := .idle } k R :=
    fun hopen => ⟨[], Gathered.nil rfl, rfl, fun h => absurd rfl h, hopen.count⟩
  refine
    { nodes := hinv.nodes.congr ?_ fun _ => Iff.rfl
      found := hinv.found
      order := hinv.order
      handed := hinv.handed
      exact := hinv.exact
      kept := hinv.kept
      pos := hinv.pos
      lt := hinv.lt
      seen := ?_
      free := hinv.free
      stored := hinv.stored
      storing := hinv.storing
      unequal := fun _ => hzero
      handler := ?_
      reader := hinv.reader }
  · intro p
    cases p
    · rfl
    · simp [State.hand, hpc]
    · rfl
  · intro p hp
    cases p
    · exact hinv.seen .handler hp
    · simp [State.seen] at hp
    · exact hinv.seen .reader hp
  · have hphase := hinv.handler
    unfold HandlerPhase at hphase ⊢
    cases hcase : s.handler with
    | idle | dispatch =>
      rw [hcase] at hphase
      obtain ⟨R, hopen⟩ := hphase
      exact hcut hopen
    | enque n =>
      rw [hcase] at hphase
      obtain ⟨⟨R, hopen⟩, hno⟩ := hphase
      exact ⟨hcut hopen, hno⟩
    | rxflr | bytes | requested | empty | dequeInused | delInused | dequeUnused | delUnused |
        copy =>
        rw [hcase] at hidle
        cases hidle

theorem Inv.timerStmt (hinv : Inv s) (hallowed : Allowed s .timer)
    (hstep : timerStmt s = some s') : Inv s' := by
  obtain ⟨hleaves, hidle⟩ := hallowed
  unfold SmbusQueue.timerStmt at hstep
  split at hstep
  case h_1 => cases hstep
  case h_2 hpc =>
    cases hstep
    have hhand : s.hand .timer = none := by simp [State.hand, hpc]
    by_cases hinused : s.inused = []
    · rw [if_pos hinused]
      exact hinv.timer_goes hhand rfl (by simp [State.seen])
    · rw [if_neg hinused]
      exact hinv.timer_goes hhand rfl fun _ => hinused
  case h_3 hpc =>
    have hseen := hinv.seen .timer (by simp [State.seen, hpc])
    rw [if_neg hseen] at hstep
    cases hstep
    refine hinv.timer_goes ?_ rfl fun _ => hseen
    simp [State.hand, hpc]
  case h_4 hpc =>
    have hseen := hinv.seen .timer (by simp [State.seen, hpc])
    cases hstep
    unfold State.delInused
    split
    next hnil => exact absurd hnil hseen
    next n q hinused =>
      refine hinv.del hinused (hleaves hpc) ?_ rfl ?_ ?_ ?_ hinv.free (fun n => id) ?_ ?_
        fun _ => hinv.reader
      · simp [State.hand, hpc]
      · intro c hc
        cases c <;> first | exact absurd rfl hc | rfl
      · simp [State.seen]
      · intro c hc
        cases c <;> first | exact absurd rfl hc | rfl
      · exact hinv.handler.congr ⟨rfl, rfl, rfl, rfl, rfl, rfl, rfl, rfl⟩ rfl rfl
      · simp [State.reading]
  case h_5 n hpc =>
    cases hstep
    refine hinv.release (p := .timer) ?_ rfl ?_ ?_ rfl hinv.reader
    · simp [State.hand, hpc]
    · intro c hc
      cases c <;> first | exact absurd rfl hc | rfl
    · intro c hc
      cases c
      · exact hc
      · simp [State.seen] at hc
      · exact hc
  case h_6 hpc =>
    cases hstep
    exact hinv.abort hpc (hidle hpc)

theorem Inv.reader_goes {r : ReaderPc} (hinv : Inv s) (hold : s.hand .reader = none)
    (hnew : State.hand { s with reader := r } .reader = none)
    (hseen : State.seen { s with reader := r } .reader = true → s.inused ≠ [])
    (hreading : State.reading { s with reader := r } = s.reading)
    (hreader : ReaderPhase { s with reader := r }) : Inv { s with reader := r } := by
  refine hinv.control ?_ ?_ hinv.free (fun n => id) ?_ hreading hreader
  · intro p
    cases p
    · rfl
    · rfl
    · exact hnew.trans hold.symm
  · intro p hp
    cases p
    · exact Or.inl hp
    · exact Or.inl hp
    · exact Or.inr (hseen hp)
  · exact hinv.handler.congr ⟨rfl, rfl, rfl, rfl, rfl, rfl, rfl, rfl⟩ rfl rfl

theorem Inv.readerStmt (hinv : Inv s) (hallowed : Allowed s .reader)
    (hstep : readerStmt s = some s') : Inv s' := by
  have hphase := hinv.reader
  unfold SmbusQueue.readerStmt at hstep
  unfold ReaderPhase at hphase
  split at hstep
  case h_1 => cases hstep
  case h_2 hpc =>
    cases hstep
    have hhand : s.hand .reader = none := by simp [State.hand, hpc]
    have hreading : s.reading = [] := by simp [State.reading, hpc]
    by_cases hinused : s.inused = []
    · rw [if_pos hinused]
      exact hinv.reader_goes hhand rfl (by simp [State.seen]) hreading.symm trivial
    · rw [if_neg hinused]
      exact hinv.reader_goes hhand rfl (fun _ => hinused) hreading.symm trivial
  case h_3 hpc =>
    split at hstep
    next => cases hstep
    next hinused =>
      cases hstep
      refine hinv.reader_goes ?_ rfl (fun _ => hinused) ?_ trivial
      · simp [State.hand, hpc]
      · simp [State.reading, hpc]
  case h_4 hpc =>
    have hseen := hinv.seen .reader (by simp [State.seen, hpc])
    rw [if_neg hseen] at hstep
    cases hstep
    refine hinv.reader_goes ?_ rfl (fun _ => hseen) ?_ trivial
    · simp [State.hand, hpc]
    · simp [State.reading, hpc]
  case h_5 hpc =>
    have hseen := hinv.seen .reader (by simp [State.seen, hpc])
    cases hstep
    unfold State.delInused
    split
    next hnil => exact absurd hnil hseen
    next n q hinused =>
      refine hinv.del hinused (hallowed hpc) ?_ rfl ?_ ?_ ?_ hinv.free (fun n => id) ?_ ?_ id
      · simp [State.hand, hpc]
      · intro c hc
        cases c <;> first | exact absurd rfl hc | rfl
      · simp [State.seen]
      · intro c hc
        cases c <;> first | exact absurd rfl hc | rfl
      · exact hinv.handler.congr ⟨rfl, rfl, rfl, rfl, rfl, rfl, rfl, rfl⟩ rfl rfl
      · simp [State.reading, hpc]
  case h_6 n hpc =>
    cases hstep
    rw [hpc] at hphase
    refine hinv.control ?_ ?_ hinv.free (fun n => id) ?_ ?_ ?_
    · intro p
      cases p
      · rfl
      · rfl
      · simp [State.hand, hpc]
    · intro p hp
      cases p
      · exact Or.inl hp
      · exact Or.inl hp
      · simp [State.seen] at hp
    · exact hinv.handler.congr ⟨rfl, rfl, rfl, rfl, rfl, rfl, rfl, rfl⟩ rfl rfl
    · simp [State.reading, hpc]
    · have htake : ((s.node n).buf.bytes 0 (s.node n).bufLen ++
          List.replicate (s.bufLen - (s.node n).bufLen) 0).take (s.node n).bufLen =
          (s.node n).buf.bytes 0 (s.node n).bufLen := by
        rw [List.take_append_of_le_length (by rw [Mem.length_bytes]),
          List.take_of_length_le (by rw [Mem.length_bytes])]
      unfold ReaderPhase
      simp only [htake]
      exact hphase
  case h_7 n rb no hpc =>
    cases hstep
    rw [hpc] at hphase
    refine hinv.release (p := .reader) ?_ rfl ?_ ?_ ?_ hphase
    · simp [State.hand, hpc]
    · intro c hc
      cases c <;> first | exact absurd rfl hc | rfl
    · intro c hc
      cases c
      · exact hc
      · exact hc
      · simp [State.seen] at hc
    · simp [State.reading, hpc]
  case h_8 n rb no hpc =>
    cases hstep
    rw [hpc] at hphase
    refine
      { nodes := hinv.nodes.congr ?_ fun _ => Iff.rfl
        found := hinv.found
        order := hinv.order
        handed := ?_
        exact := ?_
        kept := hinv.kept
        pos := hinv.pos
        lt := hinv.lt
        seen := ?_
        free := hinv.free
        stored := hinv.stored
        storing := hinv.storing
        unequal := hinv.unequal
        handler := hinv.handler.congr ⟨rfl, rfl, rfl, rfl, rfl, rfl, rfl, rfl⟩ rfl rfl
        reader := trivial }
    · intro p
      cases p
      · rfl
      · rfl
      · simp [State.hand, hpc]
    · rw [hinv.handed]
      simp [State.reading, hpc]
    · intro d hd
      rcases List.mem_append.mp hd with hd | hd
      · exact hinv.exact d hd
      · obtain rfl := List.mem_singleton.mp hd
        exact hphase
    · intro p hp
      cases p
      · exact hinv.seen .handler hp
      · exact hinv.seen .timer hp
      · simp [State.seen] at hp

theorem Inv.arrive {b : UInt8} (hinv : Inv s) (hallowed : Allowed s (.byte b)) :
    Inv { s with fifo := s.fifo ++ [b], line := s.line ++ [b] } := by
  obtain ⟨hstop, hirq, hrxflr⟩ := hallowed
  have hopened : ∀ {h k}, (∃ R, Open s k R) → ∃ R, Open { s with
      handler := h, fifo := s.fifo ++ [b], line := s.line ++ [b] } k R := by
    rintro h k ⟨R, hopen⟩
    refine ⟨R, ⟨hopen.index, hopen.holds⟩, ?_, hopen.flag, hopen.count⟩
    simp only [hopen.line, List.append_assoc]
  have hclosing : ∀ {h n}, (∃ R, Closing s n R) → ∃ R, Closing { s with
      handler := h, fifo := s.fifo ++ [b], line := s.line ++ [b] } n R := by
    rintro h n ⟨R, hclose⟩
    have htake : (s.fifo ++ [b]).take n = s.fifo.take n :=
      List.take_append_of_le_length hclose.level
    refine ⟨R, ⟨hclose.index, hclose.holds⟩, ?_, ?_, hclose.count, ?_, ?_⟩
    · simp only [List.length_append]
      exact hclose.level.trans (Nat.le_add_right _ _)
    · simp only [hclose.line, List.drop_append_of_le_length hclose.level]
    · simp only [htake]
      exact hclose.whole
    · simp only [htake]
      exact hclose.length
  have hgathering : ∀ {h n}, Reading s n → Reading { s with
      handler := h, fifo := s.fifo ++ [b], line := s.line ++ [b] } n := by
    intro h n hread
    refine ⟨fun hflag => ?_, fun hflag => hclosing (hread.last hflag)⟩
    obtain ⟨hle, hopen⟩ := hread.more hflag
    refine ⟨?_, hopened hopen⟩
    simp only [List.length_append]
    exact hle.trans (Nat.le_add_right _ _)
  refine
    { nodes := hinv.nodes
      found := hinv.found
      order := hinv.order
      handed := hinv.handed
      exact := hinv.exact
      kept := hinv.kept
      pos := hinv.pos
      lt := hinv.lt
      seen := hinv.seen
      free := hinv.free
      stored := hinv.stored
      storing := hinv.storing
      unequal := ?_
      handler := ?_
      reader := hinv.reader }
  · rintro (h | h)
    · rw [hstop] at h
      cases h
    · rw [hirq] at h
      cases h
  · have hphase := hinv.handler
    unfold HandlerPhase at hphase ⊢
    cases hcase : s.handler with
    | idle | dispatch =>
      rw [hcase] at hphase
      exact hopened hphase
    | rxflr =>
      rw [hcase] at hphase
      have hflag : s.writeRequested = true := by
        cases hflag : s.writeRequested with
        | true => rfl
        | false => exact absurd ⟨hcase, hflag⟩ hrxflr
      refine ⟨fun _ => ⟨le_rfl, hopened (hphase.more hflag).2⟩, fun h => ?_⟩
      rw [hflag] at h
      cases h
    | bytes n =>
      rw [hcase] at hphase
      exact hgathering hphase
    | requested =>
      rw [hcase] at hphase
      exact hgathering hphase
    | empty | dequeInused | delInused | dequeUnused | delUnused | copy =>
      rw [hcase] at hphase
      exact ⟨hphase.1, hclosing hphase.2⟩
    | enque n =>
      rw [hcase] at hphase
      exact ⟨hopened hphase.1, hphase.2⟩

theorem Inv.interrupt {rxFull : Bool} (hinv : Inv s) (hpc : s.handler = .idle) :
    Inv { s with irq := ⟨s.stopDet, rxFull⟩, stopDet := false, handler := .dispatch } := by
  have hphase := hinv.handler
  rw [HandlerPhase, hpc] at hphase
  obtain ⟨R, hopen⟩ := hphase
  have hhand : s.hand .handler = none := by simp [State.hand, hpc]
  refine hinv.goesOn hhand (Or.inl rfl) ?_
    ⟨R, ⟨hopen.index, hopen.holds⟩, hopen.line, hopen.flag, hopen.count⟩
  rintro (h | h)
  · cases h
  · exact hinv.unequal (Or.inl h)

theorem Inv.next {a : Action} (hinv : Inv s) (hallowed : Allowed s a)
    (hstep : next s a = some s') : Inv s' := by
  unfold SmbusQueue.next at hstep
  rw [if_neg (by simp [hinv.found])] at hstep
  cases a with
  | byte b =>
    cases hstep
    exact hinv.arrive hallowed
  | stop =>
    cases hstep
    exact
      { hinv with
        unequal := fun _ => hallowed
        handler := hinv.handler.congr ⟨rfl, rfl, rfl, rfl, rfl, rfl, rfl, rfl⟩ rfl rfl
        reader := hinv.reader }
  | irq rxFull =>
    simp only at hstep
    split at hstep
    next henabled =>
      cases hstep
      exact hinv.interrupt henabled.1
    next => cases hstep
  | handler => exact hinv.handlerStmt hallowed hstep
  | expire =>
    simp only at hstep
    split at hstep
    next hpc =>
      cases hstep
      refine hinv.timer_goes ?_ rfl (by simp [State.seen])
      simp [State.hand, hpc]
    next => cases hstep
  | timer => exact hinv.timerStmt hallowed hstep
  | read =>
    simp only at hstep
    split at hstep
    next hpc =>
      cases hstep
      refine hinv.reader_goes ?_ rfl (by simp [State.seen]) ?_ trivial
      · simp [State.hand, hpc]
      · simp [State.reading, hpc]
    next => cases hstep
  | giveUp =>
    simp only at hstep
    split at hstep
    next hpc =>
      cases hstep
      refine hinv.reader_goes ?_ rfl (by simp [State.seen]) ?_ trivial
      · simp [State.hand, hpc]
      · simp [State.reading, hpc]
    next => cases hstep
  | reader => exact hinv.readerStmt hallowed hstep

end Steps

/-- In a run whose steps are all allowed, the nodes are conserved and the application is
given the writes of the master, in their order. -/
theorem queueOk_of_allowed {s : State} (hreach : (system.restrict Allowed).Reachable s) :
    QueueOk s := by
  have hinv : Inv s := by
    apply hreach.invariant
    · rintro s ⟨bufLen, hpos, hlt, rfl⟩
      exact inv_initial hpos hlt
    · intro s a s' _ hinv hstep
      exact hinv.next hstep.1 hstep.2
  exact hinv.toQueueOk

instance decidableLeaves (s : State) (p : Party) : Decidable (s.leaves p) :=
  decidable_of_iff
    (∀ q ∈ [Party.handler, .timer, .reader], q ≠ p → s.seen q = true → 2 ≤ s.inused.length) <| by
      constructor
      · intro h q
        exact h q (by cases q <;> simp)
      · exact fun h q _ => h q

def State.sameSize (s : State) : Bool :=
  match s.handler, s.reader with
  | .copy n, .size m _ _ => n ≠ m ∨ s.reqDataIndex = (s.node n).bufLen
  | _, _ => true

theorem State.sameSize_iff (s : State) : s.sameSize = true ↔ ∀ n rb no,
    s.handler = .copy n → s.reader = .size n rb no → s.reqDataIndex = (s.node n).bufLen := by
  constructor
  · intro h n rb no hhandler hreader
    rw [State.sameSize, hhandler, hreader] at h
    simpa using h
  · intro h
    unfold State.sameSize
    split
    next n m rb no hhandler hreader =>
      by_cases hm : n = m
      · subst hm
        simp [h n rb no hhandler hreader]
      · simp [hm]
    next => rfl

instance decidableAllowed (s : State) : (a : Action) → Decidable (Allowed s a)
  | .byte _ => inferInstanceAs (Decidable (s.stopDet = false ∧ s.irq.stop = false ∧
      ¬(s.handler = .rxflr ∧ s.writeRequested = false)))
  | .stop => inferInstanceAs (Decidable (s.line.length ≠ s.bufLen))
  | .handler => decidable_of_iff ((s.handler = .delInused → s.leaves .handler) ∧ s.sameSize = true)
      (and_congr_right' s.sameSize_iff)
  | .timer => inferInstanceAs (Decidable ((s.timer = .del → s.leaves .timer) ∧
      (s.timer = .abort → s.handler.writing = false)))
  | .reader => inferInstanceAs (Decidable (s.reader = .del → s.leaves .reader))
  | .irq _ | .expire | .read | .giveUp => isTrue trivial

def writeRun (l : List UInt8) : List Action :=
  (l.take 2).map Action.byte ++ [Action.irq true] ++ List.replicate 7 Action.handler ++
    (l.drop 2).map Action.byte ++ [Action.stop, .irq false] ++
    List.replicate (10 + (l.length - 2)) Action.handler

def orderlyRun : List Action :=
  writeRun [1, 2, 3] ++ writeRun [4, 5] ++ [Action.read] ++ List.replicate 6 Action.reader ++
    [Action.read] ++ List.replicate 6 Action.reader

def afterOrderly : State :=
  (TransitionSystem.runSteps (TransitionSystem.guarded Allowed next) (initial 8) orderlyRun).get
    (by decide +kernel)

theorem queueOk_of_allowed_orderly :
    afterOrderly.delivered.map Delivery.bytes = [[1, 2, 3], [4, 5]] ∧ QueueOk afterOrderly := by
  have hinit : (system.restrict Allowed).Reachable (initial 8) :=
    TransitionSystem.Reachable.init ⟨8, by decide, by decide, rfl⟩
  have hrun : TransitionSystem.runSteps (TransitionSystem.guarded Allowed next) (initial 8)
      orderlyRun = some afterOrderly := (Option.some_get _).symm
  exact ⟨by decide +kernel, queueOk_of_allowed (hinit.runGuarded hrun)⟩

def fullRun : List Action :=
  writeRun [1, 2, 3, 4, 5, 6, 7, 8] ++ [Action.read] ++ List.replicate 6 Action.reader

def afterFull : State :=
  (TransitionSystem.runSteps next (initial 8) fullRun).get (by decide +kernel)

def raceRun : List Action :=
  writeRun [1, 2, 3] ++ [Action.read, .reader, .expire, .timer, .timer, .timer, .reader]

def afterRace : State :=
  (TransitionSystem.runSteps next (initial 8) raceRun).get (by decide +kernel)

/-- The eight bytes come as a request of none; and the call goes on with a null pointer. -/
theorem queue_breaks :
    (system.Reachable afterFull ∧ afterFull.writes = [[1, 2, 3, 4, 5, 6, 7, 8]] ∧
        afterFull.delivered.map Delivery.bytes = [[]] ∧ ¬QueueOk afterFull) ∧
      system.Reachable afterRace ∧ afterRace.fault = true ∧ ¬QueueOk afterRace := by
  have hinit : system.Reachable (initial 8) :=
    TransitionSystem.Reachable.init ⟨8, by decide, by decide, rfl⟩
  have hrun : TransitionSystem.runSteps next (initial 8) fullRun = some afterFull :=
    (Option.some_get _).symm
  have hrun' : TransitionSystem.runSteps next (initial 8) raceRun = some afterRace :=
    (Option.some_get _).symm
  have hwrites : afterFull.writes = [[1, 2, 3, 4, 5, 6, 7, 8]] := by decide +kernel
  have hbytes : afterFull.delivered.map Delivery.bytes = [[]] := by decide +kernel
  have hlost : ∃ d ∈ afterFull.delivered, d.no = 0 ∧ d.bytes = [] := by decide +kernel
  have hlen : afterFull.bufLen = 8 := by decide +kernel
  have hfault : afterRace.fault = true := by decide +kernel
  refine ⟨⟨hinit.runSteps hrun, hwrites, hbytes, fun hok => ?_⟩, hinit.runSteps hrun', hfault,
    fun hok => ?_⟩
  · obtain ⟨d, hd, hno, hempty⟩ := hlost
    obtain ⟨w, hw, hsame⟩ := hok.exact d hd
    rw [hwrites, hno] at hw
    obtain rfl : _ = w := Option.some.inj hw
    rw [hempty] at hsame
    exact absurd (hsame (by rw [hlen]; decide)) (by decide)
  · rw [hok.found] at hfault
    cases hfault

end HiMpu.SmbusQueue
