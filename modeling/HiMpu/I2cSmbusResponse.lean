import HiMpu.ByteMemory
import HiMpu.TransitionSystem

/-!
# The response of the SMBus slave

`i2c_adapter_slave_write_cache_smbus` against the interrupt handler of the slave.  The
call stores the response, its length and the index without the lock, and pushes the first
bytes itself when the master already waits; the handler pushes the others.

Each event of the handler is one step, since it interrupts the call on its processor; a
statement of the call is one step.  `adap->sem` admits one call at a time.
-/

namespace HiMpu.SmbusResponse

def icSTxFifoDepthSmbus : ℕ := 0x80

/-- The data of a call: the size is not zero and fits into a word. -/
structure Response where
  data : List UInt8
  pos : 0 < data.length
  lt : data.length < 2 ^ 32
  /-- The read transaction that it is for: the one in progress when the call is made, or
  else the next one. -/
  tx : ℕ

inductive Pc
  | idle
  | count
  | copy
  | setLen
  | setIndex
  | ready
  | delTimer
  | fetch (i : ℕ)
  | store (i : ℕ) (index : ℕ) (val : UInt8)
  deriving DecidableEq

structure Push where
  /-- The number of the response in the buffer, and the response. -/
  no : ℕ
  response : Option Response
  index : ℕ
  byte : UInt8
  tx : ℕ
  inTransaction : Bool

structure State where
  pc : Pc
  call : Option Response
  cnt : ℕ
  retResponse : Bool
  resDataIndex : ℕ
  resDataLen : ℕ
  bufResponse : Mem
  clkStrechPending : Bool
  /-- `IC_S_STATUS_READ_REQUESTED`: a read transaction is in progress. -/
  readRequested : Bool
  tx : ℕ
  /-- How many responses have been copied into the buffer, and the last one. -/
  written : ℕ
  current : Option Response
  pushed : List Push

def initial : State where
  pc := .idle
  call := none
  cnt := 0
  retResponse := false
  resDataIndex := 0
  resDataLen := 0
  bufResponse := fun _ => 0
  clkStrechPending := false
  readRequested := false
  tx := 0
  written := 0
  current := none
  pushed := []

def room (txflr : ℕ) : ℕ := (icSTxFifoDepthSmbus + 2 ^ 32 - txflr) % 2 ^ 32

def State.push (s : State) (index : ℕ) (val : UInt8) : State :=
  { s with pushed := s.pushed ++ [⟨s.written, s.current, index, val, s.tx, s.readRequested⟩] }

def pushLoop : ℕ → State → State
  | 0, s => s
  | n + 1, s =>
    pushLoop n
      { s.push s.resDataIndex (s.bufResponse s.resDataIndex) with
        resDataIndex := (s.resDataIndex + 1) % 2 ^ 32 }

def State.pushCount (s : State) (txflr : ℕ) : ℕ :=
  min (room txflr) ((s.resDataLen + 2 ^ 32 - s.resDataIndex) % 2 ^ 32)

def slaveSmbusRead (s : State) (txflr : ℕ) : State :=
  let cnt := s.pushCount txflr
  if cnt = 0 then { s with retResponse := false, clkStrechPending := true }
  else pushLoop cnt s

def slaveSmbusReadRequest (s : State) (txflr : ℕ) : State :=
  if !s.retResponse then { s with clkStrechPending := true } else slaveSmbusRead s txflr

def rdReq (s : State) (txflr : ℕ) : State :=
  if s.readRequested then slaveSmbusRead s txflr
  else slaveSmbusReadRequest { s with readRequested := true, tx := s.tx + 1 } txflr

def slaveSmbusStop (s : State) : State :=
  if s.readRequested then
    { s with resDataIndex := 0, retResponse := false, readRequested := false }
  else s

def slaveSmbusAbort (s : State) : State :=
  { s with resDataIndex := 0, retResponse := false, readRequested := false }

def clkStrechTimerHandler (s : State) : State :=
  { s with clkStrechPending := false, readRequested := false }

/-! ## The call of the application -/

def State.nextTx (s : State) : ℕ := if s.readRequested then s.tx else s.tx + 1

def start (s : State) (data : List UInt8) (pos : 0 < data.length) (lt : data.length < 2 ^ 32) :
    State :=
  if s.retResponse then s
  else { s with pc := .count, call := some ⟨data, pos, lt, s.nextTx⟩ }

def stmt (s : State) (txflr : ℕ) : Option State :=
  match s.pc, s.call with
  | .count, some r => some { s with cnt := min (room txflr) r.data.length, pc := .copy }
  | .copy, some r =>
    some { s with
      bufResponse := s.bufResponse.write 0 r.data
      written := s.written + 1
      current := some r
      pc := .setLen }
  | .setLen, some r => some { s with resDataLen := r.data.length, pc := .setIndex }
  | .setIndex, some _ => some { s with resDataIndex := 0, pc := .ready }
  -- under the lock
  | .ready, some _ =>
    some { s with retResponse := true, pc := if s.clkStrechPending then .delTimer else .idle }
  | .delTimer, some _ => some { s with clkStrechPending := false, pc := .fetch 0 }
  | .fetch i, some _ =>
    if i < s.cnt then
      some { s with
        resDataIndex := (s.resDataIndex + 1) % 2 ^ 32
        pc := .store i s.resDataIndex (s.bufResponse s.resDataIndex) }
    else some { s with pc := .idle }
  | .store i index val, some _ => some { s.push index val with pc := .fetch (i + 1) }
  | _, _ => none

inductive Action
  | start (data : List UInt8) (pos : 0 < data.length) (lt : data.length < 2 ^ 32)
  | stmt (txflr : ℕ)
  | rdReq (txflr : ℕ)
  | stop
  | abort
  | expire

def next (s : State) : Action → Option State
  | .start data pos lt => if s.pc = .idle then some (start s data pos lt) else none
  | .stmt txflr => stmt s txflr
  | .rdReq txflr => some (rdReq s txflr)
  | .stop => some (slaveSmbusStop s)
  | .abort => some (slaveSmbusAbort s)
  | .expire => if s.clkStrechPending then some (clkStrechTimerHandler s) else none

def system : TransitionSystem State Action := TransitionSystem.ofStep (· = initial) next

/-! ## What the master is promised -/

/-- The byte is the one of the response at the index, and goes out in the transaction
that the response is for. -/
def Push.Sound (p : Push) : Prop :=
  ∃ r, p.response = some r ∧ r.data[p.index]? = some p.byte ∧ p.tx = r.tx ∧
    p.inTransaction = true

def State.indices (s : State) (no : ℕ) : List ℕ :=
  (s.pushed.filter fun p => p.no = no).map Push.index

structure StreamOk (s : State) : Prop where
  bounded : s.resDataIndex ≤ s.resDataLen
  sound : ∀ p ∈ s.pushed, p.Sound
  once : ∀ no, ∃ k, s.indices no = List.range k

def State.left (s : State) : ℕ :=
  match s.pc with
  | .delTimer => s.cnt
  | .fetch i => s.cnt - i
  | _ => 0

/-- The call stores no length below the index, and finds the timer pending for a
transaction in progress only; a read event pushes nothing, or finds the response ready,
not between the fetch and the store of a byte, and leaves the bytes that the call still
pushes; and no read transaction ends while a call is under way. -/
def Allowed (s : State) : Action → Prop
  | .start .. => True
  | .stmt _ =>
    (s.pc = .setLen → ∀ r, s.call = some r → s.resDataIndex ≤ r.data.length) ∧
      (s.pc = .ready → s.clkStrechPending = true → s.readRequested = true)
  | .rdReq txflr => s.readRequested = true → s.pushCount txflr = 0 ∨
      s.retResponse = true ∧ (∀ i index val, s.pc ≠ .store i index val) ∧
        s.resDataIndex + s.pushCount txflr + s.left ≤ s.resDataLen
  | .stop | .abort | .expire => s.readRequested = true → s.pc = .idle

/-! ## The loop of the handler -/

section Pushes

variable {s : State} {r : Response} {n : ℕ}

def State.pushes (s : State) (n : ℕ) : List Push :=
  (List.range n).map fun i => ⟨s.written, s.current, s.resDataIndex + i,
    s.bufResponse (s.resDataIndex + i), s.tx, s.readRequested⟩

theorem State.pushes_succ (s : State) (n : ℕ) :
    s.pushes (n + 1) =
      ⟨s.written, s.current, s.resDataIndex, s.bufResponse s.resDataIndex, s.tx,
          s.readRequested⟩ ::
        State.pushes { s with resDataIndex := s.resDataIndex + 1 } n := by
  simp only [State.pushes, List.range_succ_eq_map, List.map_cons, List.map_map, Nat.add_zero,
    List.cons.injEq, true_and]
  apply List.map_congr_left
  intro i _
  simp only [Function.comp, Nat.succ_eq_add_one]
  rw [Nat.add_right_comm, ← Nat.add_assoc]

theorem pushLoop_eq (n : ℕ) (s : State) (hlt : s.resDataIndex + n < 2 ^ 32) :
    pushLoop n s =
      { s with resDataIndex := s.resDataIndex + n, pushed := s.pushed ++ s.pushes n } := by
  induction n generalizing s with
  | zero => simp [pushLoop, State.pushes]
  | succ n ih =>
    have hmod : (s.resDataIndex + 1) % 2 ^ 32 = s.resDataIndex + 1 := Nat.mod_eq_of_lt (by omega)
    rw [pushLoop, hmod, ih _ (by simp only; omega), State.pushes_succ]
    simp only [State.push, State.pushes, List.append_assoc, List.singleton_append]
    congr 1
    omega

/-- The handler and the call only push what the response in the buffer has. -/
structure Holding (s : State) (r : Response) : Prop where
  current : s.current = some r
  holds : ∀ i (hi : i < r.data.length), s.bufResponse i = r.data[i]
  len : s.resDataLen = r.data.length
  tx : r.tx = s.nextTx

/-- The bytes before the index have been pushed. -/
structure Serving (s : State) (r : Response) : Prop extends Holding s r where
  served : s.indices s.written = List.range s.resDataIndex

structure LogOk (s : State) : Prop where
  sound : ∀ p ∈ s.pushed, p.Sound
  once : ∀ no, ∃ k, s.indices no = List.range k
  numbers : ∀ p ∈ s.pushed, p.no ≤ s.written

theorem Holding.byte (hhold : Holding s r) {i : ℕ} (hi : i < s.resDataLen) :
    r.data[i]? = some (s.bufResponse i) := by
  have hlt : i < r.data.length := by rwa [← hhold.len]
  rw [hhold.holds i hlt, List.getElem?_eq_getElem hlt]

theorem nextTx_of_reading (hreading : s.readRequested = true) : s.nextTx = s.tx := by
  rw [State.nextTx, if_pos hreading]

theorem LogOk.append (hlog : LogOk s) {s' : State} {new : List Push} {first : ℕ}
    (hpushed : s'.pushed = s.pushed ++ new) (hwritten : s'.written = s.written)
    (hserved : s.indices s.written = List.range first)
    (hnew : ∀ p ∈ new, p.Sound ∧ p.no = s.written)
    (hindex : new.map Push.index = (List.range new.length).map (first + ·)) :
    LogOk s' ∧ s'.indices s'.written = List.range (first + new.length) := by
  have hsplit : ∀ no, s'.indices no = s.indices no ++ if no = s.written then new.map Push.index
      else [] := by
    intro no
    rw [State.indices, hpushed, List.filter_append, List.map_append]
    congr 1
    split
    next hno =>
      congr 1
      rw [List.filter_eq_self]
      intro p hp
      simp [(hnew p hp).2, hno]
    next hno =>
      rw [List.map_eq_nil_iff, List.filter_eq_nil_iff]
      intro p hp
      simp [(hnew p hp).2, Ne.symm hno]
  have hlast : s'.indices s'.written = List.range (first + new.length) := by
    rw [hwritten, hsplit, if_pos rfl, hserved, hindex, List.range_add]
  refine ⟨⟨?_, ?_, ?_⟩, hlast⟩
  · intro p hp
    rw [hpushed] at hp
    rcases List.mem_append.mp hp with hp | hp
    · exact hlog.sound p hp
    · exact (hnew p hp).1
  · intro no
    by_cases hno : no = s.written
    · rw [hno, ← hwritten]
      exact ⟨_, hlast⟩
    · obtain ⟨k, hk⟩ := hlog.once no
      refine ⟨k, ?_⟩
      rw [hsplit, if_neg hno, List.append_nil, hk]
  · intro p hp
    rw [hpushed] at hp
    rw [hwritten]
    rcases List.mem_append.mp hp with hp | hp
    · exact hlog.numbers p hp
    · exact (hnew p hp).2.le

theorem Serving.pushLoop (hserving : Serving s r) (hlog : LogOk s)
    (hreading : s.readRequested = true) (hle : s.resDataIndex + n ≤ s.resDataLen) :
    Serving (pushLoop n s) r ∧ LogOk (pushLoop n s) := by
  have hlt : s.resDataLen < 2 ^ 32 := by
    rw [hserving.len]
    exact r.lt
  rw [pushLoop_eq n s (by omega)]
  have hlen : (s.pushes n).length = n := by simp [State.pushes]
  have hnew : ∀ p ∈ s.pushes n, p.Sound ∧ p.no = s.written := by
    intro p hp
    obtain ⟨i, hi, rfl⟩ := List.mem_map.mp hp
    have hi : i < n := List.mem_range.mp hi
    refine ⟨⟨r, hserving.current, hserving.toHolding.byte (by simp only; omega), ?_, hreading⟩, rfl⟩
    rw [hserving.tx, nextTx_of_reading hreading]
  have hindex : (s.pushes n).map Push.index =
      (List.range (s.pushes n).length).map (s.resDataIndex + ·) := by
    rw [hlen, State.pushes, List.map_map]
    rfl
  have hpushed : State.pushed { s with
      resDataIndex := s.resDataIndex + n, pushed := s.pushed ++ s.pushes n } =
      s.pushed ++ s.pushes n := rfl
  obtain ⟨hlog', hserved⟩ := hlog.append hpushed rfl hserving.served hnew hindex
  rw [hlen] at hserved
  exact ⟨⟨⟨hserving.current, hserving.holds, hserving.len, hserving.tx⟩, hserved⟩, hlog'⟩

end Pushes

structure Preparing (s : State) (r : Response) : Prop where
  call : s.call = some r
  quiet : s.retResponse = false
  tx : r.tx = s.nextTx

/-- The response is in the buffer, and nothing of it has been pushed. -/
structure Copied (s : State) (r : Response) : Prop extends Preparing s r where
  current : s.current = some r
  holds : ∀ i (hi : i < r.data.length), s.bufResponse i = r.data[i]
  fresh : s.indices s.written = []
  cnt : s.cnt ≤ r.data.length

/-- The call pushes the first bytes itself. -/
structure Pushing (s : State) (r : Response) : Prop extends Holding s r where
  call : s.call = some r
  reading : s.readRequested = true

def Phase (s : State) : Prop :=
  match s.pc with
  | .idle => s.retResponse = true → s.clkStrechPending = false ∧ ∃ r, Serving s r
  | .count => ∃ r, Preparing s r
  | .copy => ∃ r, Preparing s r ∧ s.cnt ≤ r.data.length
  | .setLen => ∃ r, Copied s r
  | .setIndex => ∃ r, Copied s r ∧ s.resDataLen = r.data.length
  | .ready => ∃ r, Copied s r ∧ s.resDataLen = r.data.length ∧ s.resDataIndex = 0
  | .delTimer => ∃ r, Pushing s r ∧ Serving s r ∧ s.resDataIndex + s.cnt ≤ s.resDataLen
  | .fetch i => ∃ r, Pushing s r ∧ Serving s r ∧ s.resDataIndex + (s.cnt - i) ≤ s.resDataLen ∧
      (s.retResponse = true → s.clkStrechPending = false)
  | .store i index val => ∃ r, Pushing s r ∧ r.data[index]? = some val ∧
      s.resDataIndex = index + 1 ∧ s.indices s.written = List.range index ∧
      s.resDataIndex + (s.cnt - (i + 1)) ≤ s.resDataLen ∧
      (s.retResponse = true → s.clkStrechPending = false)

structure Inv (s : State) : Prop where
  bounded : s.resDataIndex ≤ s.resDataLen
  log : LogOk s
  phase : Phase s

theorem inv_initial : Inv initial := by
  refine ⟨le_rfl, ⟨?_, ?_, ?_⟩, ?_⟩
  · intro p hp
    cases hp
  · exact fun _ => ⟨0, rfl⟩
  · intro p hp
    cases hp
  · exact fun h => by cases h

section Steps

variable {s s' : State} {r : Response}

theorem indices_fresh (hlog : LogOk s) : s.indices (s.written + 1) = [] := by
  rw [State.indices, List.map_eq_nil_iff, List.filter_eq_nil_iff]
  intro p hp
  have hle := hlog.numbers p hp
  simp only [decide_eq_true_eq]
  omega

theorem Preparing.call_eq {r' : Response} (hprep : Preparing s r) (hcall : s.call = some r') :
    r = r' :=
  Option.some.inj (hprep.call.symm.trans hcall)

theorem Pushing.call_eq {r' : Response} (hpush : Pushing s r) (hcall : s.call = some r') :
    r = r' :=
  Option.some.inj (hpush.call.symm.trans hcall)

theorem Preparing.copy (hprep : Preparing s r) (hcnt : s.cnt ≤ r.data.length) (hlog : LogOk s) :
    Copied { s with
      bufResponse := s.bufResponse.write 0 r.data
      written := s.written + 1
      current := some r
      pc := .setLen } r where
  call := hprep.call
  quiet := hprep.quiet
  tx := hprep.tx
  current := rfl
  holds i hi := by
    have hinside := Mem.write_inside (show i < r.data.length from hi) (m := s.bufResponse) (a := 0)
    rwa [Nat.zero_add] at hinside
  fresh := indices_fresh hlog
  cnt := hcnt

theorem Copied.serving (hcopied : Copied s r) (hlen : s.resDataLen = r.data.length)
    (hindex : s.resDataIndex = 0) : Serving s r where
  current := hcopied.current
  holds := hcopied.holds
  len := hlen
  tx := hcopied.tx
  served := by rw [hcopied.fresh, hindex, List.range_zero]

theorem Pushing.store (hpush : Pushing s r) (hlog : LogOk s) {index : ℕ} {val : UInt8}
    (hval : r.data[index]? = some val) (hserved : s.indices s.written = List.range index) :
    LogOk (s.push index val) ∧
      (s.push index val).indices (s.push index val).written = List.range (index + 1) := by
  have hpushed : (s.push index val).pushed =
      s.pushed ++ [⟨s.written, s.current, index, val, s.tx, s.readRequested⟩] := rfl
  apply hlog.append hpushed rfl hserved
  · intro p hp
    obtain rfl := List.mem_singleton.mp hp
    refine ⟨⟨r, hpush.current, hval, ?_, hpush.reading⟩, rfl⟩
    rw [hpush.tx, nextTx_of_reading hpush.reading]
  · rfl

theorem Inv.stmt {txflr : ℕ} (hinv : Inv s) (hallowed : Allowed s (.stmt txflr))
    (hstep : stmt s txflr = some s') : Inv s' := by
  obtain ⟨hbounded, hlog, hphase⟩ := hinv
  obtain ⟨hlength, htimer⟩ := hallowed
  have hlog' : LogOk { s with written := s.written + 1 } :=
    ⟨hlog.sound, hlog.once, fun p hp => (hlog.numbers p hp).trans (Nat.le_succ _)⟩
  unfold SmbusResponse.stmt at hstep
  unfold Phase at hphase
  split at hstep
  case h_1 r hpc hcall =>
    cases hstep
    rw [hpc] at hphase
    obtain ⟨r', hprep⟩ := hphase
    obtain rfl := hprep.call_eq hcall
    exact ⟨hbounded, ⟨hlog.sound, hlog.once, hlog.numbers⟩, r', ⟨hprep.call, hprep.quiet, hprep.tx⟩,
      min_le_right _ _⟩
  case h_2 r hpc hcall =>
    cases hstep
    rw [hpc] at hphase
    obtain ⟨r', hprep, hcnt⟩ := hphase
    obtain rfl := hprep.call_eq hcall
    exact ⟨hbounded, ⟨hlog'.sound, hlog'.once, hlog'.numbers⟩, r', hprep.copy hcnt hlog⟩
  case h_3 r hpc hcall =>
    cases hstep
    rw [hpc] at hphase
    obtain ⟨r', hcopied⟩ := hphase
    obtain rfl := hcopied.call_eq hcall
    refine ⟨hlength hpc _ hcall, ⟨hlog.sound, hlog.once, hlog.numbers⟩, r', ?_, rfl⟩
    exact ⟨⟨hcopied.call, hcopied.quiet, hcopied.tx⟩, hcopied.current, hcopied.holds,
      hcopied.fresh, hcopied.cnt⟩
  case h_4 r hpc hcall =>
    cases hstep
    rw [hpc] at hphase
    obtain ⟨r', hcopied, hlen⟩ := hphase
    refine ⟨Nat.zero_le _, ⟨hlog.sound, hlog.once, hlog.numbers⟩, r', ?_, hlen, rfl⟩
    exact ⟨⟨hcopied.call, hcopied.quiet, hcopied.tx⟩, hcopied.current, hcopied.holds,
      hcopied.fresh, hcopied.cnt⟩
  case h_5 r hpc hcall =>
    cases hstep
    rw [hpc] at hphase
    obtain ⟨r', hcopied, hlen, hindex⟩ := hphase
    have hserving := hcopied.serving hlen hindex
    refine ⟨hbounded, ⟨hlog.sound, hlog.once, hlog.numbers⟩, ?_⟩
    cases hpending : s.clkStrechPending with
    | true =>
      have hreading := htimer hpc hpending
      refine ⟨r', ⟨⟨hserving.current, hserving.holds, hserving.len, hserving.tx⟩, hcopied.call,
        hreading⟩, ⟨⟨hserving.current, hserving.holds, hserving.len, hserving.tx⟩,
        hserving.served⟩, ?_⟩
      have hcnt := hcopied.cnt
      simp only
      omega
    | false =>
      intro _
      exact ⟨rfl, r', ⟨hserving.current, hserving.holds, hserving.len, hserving.tx⟩,
        hserving.served⟩
  case h_6 r hpc hcall =>
    cases hstep
    rw [hpc] at hphase
    obtain ⟨r', hpush, hserving, hfits⟩ := hphase
    exact ⟨hbounded, ⟨hlog.sound, hlog.once, hlog.numbers⟩, r',
      ⟨⟨hpush.current, hpush.holds, hpush.len, hpush.tx⟩, hpush.call, hpush.reading⟩,
      ⟨⟨hserving.current, hserving.holds, hserving.len, hserving.tx⟩, hserving.served⟩,
      hfits, fun _ => rfl⟩
  case h_7 i r hpc hcall =>
    rw [hpc] at hphase
    obtain ⟨r', hpush, hserving, hfits, htimer'⟩ := hphase
    split at hstep
    next hi =>
      cases hstep
      have hlt : s.resDataIndex < s.resDataLen := by omega
      have hmod : (s.resDataIndex + 1) % 2 ^ 32 = s.resDataIndex + 1 := by
        apply Nat.mod_eq_of_lt
        have hlen := hpush.len
        have hword := r'.lt
        omega
      rw [hmod]
      refine ⟨hlt, ⟨hlog.sound, hlog.once, hlog.numbers⟩, r',
        ⟨⟨hpush.current, hpush.holds, hpush.len, hpush.tx⟩, hpush.call, hpush.reading⟩,
        hpush.byte hlt, rfl, hserving.served, ?_, htimer'⟩
      simp only
      omega
    next =>
      cases hstep
      refine ⟨hbounded, ⟨hlog.sound, hlog.once, hlog.numbers⟩, fun hret => ⟨htimer' hret, r', ?_⟩⟩
      exact ⟨⟨hserving.current, hserving.holds, hserving.len, hserving.tx⟩, hserving.served⟩
  case h_8 i index val r hpc hcall =>
    cases hstep
    rw [hpc] at hphase
    obtain ⟨r', hpush, hval, hnext, hserved, hfits, htimer'⟩ := hphase
    obtain ⟨hlog'', hserved'⟩ := hpush.store hlog hval hserved
    rw [← hnext] at hserved'
    exact ⟨hbounded, ⟨hlog''.sound, hlog''.once, hlog''.numbers⟩, r',
      ⟨⟨hpush.current, hpush.holds, hpush.len, hpush.tx⟩, hpush.call, hpush.reading⟩,
      ⟨⟨hpush.current, hpush.holds, hpush.len, hpush.tx⟩, hserved'⟩, hfits, htimer'⟩
  case h_9 => cases hstep

structure Calm (s s' : State) : Prop where
  pc : s'.pc = s.pc
  call : s'.call = s.call
  cnt : s'.cnt = s.cnt
  len : s'.resDataLen = s.resDataLen
  buf : s'.bufResponse = s.bufResponse
  written : s'.written = s.written
  current : s'.current = s.current
  pushed : s'.pushed = s.pushed
  nextTx : s'.nextTx = s.nextTx
  ready : s'.retResponse = true → s.retResponse = true ∧ s'.resDataIndex = s.resDataIndex ∧
    (s.clkStrechPending = false → s'.clkStrechPending = false)

namespace Calm

theorem indices (hcalm : Calm s s') (no : ℕ) : s'.indices no = s.indices no := by
  rw [State.indices, State.indices, hcalm.pushed]

theorem preparing (hcalm : Calm s s') (hprep : Preparing s r) : Preparing s' r where
  call := hcalm.call.trans hprep.call
  quiet := by
    cases hret : s'.retResponse with
    | false => rfl
    | true =>
      have hready := (hcalm.ready hret).1
      rw [hprep.quiet] at hready
      cases hready
  tx := hprep.tx.trans hcalm.nextTx.symm

theorem copied (hcalm : Calm s s') (hcopied : Copied s r) : Copied s' r where
  toPreparing := hcalm.preparing hcopied.toPreparing
  current := hcalm.current.trans hcopied.current
  holds := by
    rw [hcalm.buf]
    exact hcopied.holds
  fresh := by rw [hcalm.indices, hcalm.written, hcopied.fresh]
  cnt := by
    rw [hcalm.cnt]
    exact hcopied.cnt

theorem holding (hcalm : Calm s s') (hhold : Holding s r) : Holding s' r where
  current := hcalm.current.trans hhold.current
  holds := by
    rw [hcalm.buf]
    exact hhold.holds
  len := hcalm.len.trans hhold.len
  tx := hhold.tx.trans hcalm.nextTx.symm

theorem serving (hcalm : Calm s s') (hserving : Serving s r)
    (hindex : s'.resDataIndex = s.resDataIndex) : Serving s' r where
  toHolding := hcalm.holding hserving.toHolding
  served := by rw [hcalm.indices, hcalm.written, hserving.served, hindex]

theorem pushing (hcalm : Calm s s') (hpush : Pushing s r) (hreading : s'.readRequested = true) :
    Pushing s' r where
  toHolding := hcalm.holding hpush.toHolding
  call := hcalm.call.trans hpush.call
  reading := hreading

theorem log (hcalm : Calm s s') (hlog : LogOk s) : LogOk s' where
  sound := by
    rw [hcalm.pushed]
    exact hlog.sound
  once no := by
    rw [hcalm.indices]
    exact hlog.once no
  numbers := by
    rw [hcalm.pushed, hcalm.written]
    exact hlog.numbers

end Calm

theorem Inv.calm (hinv : Inv s) (hcalm : Calm s s')
    (hindex : s'.resDataIndex = s.resDataIndex ∨ s'.resDataIndex = 0)
    (hbusy : s.readRequested = true → s.pc ≠ .idle →
      s'.resDataIndex = s.resDataIndex ∧ s'.readRequested = true) : Inv s' := by
  obtain ⟨hbounded, hlog, hphase⟩ := hinv
  refine ⟨?_, hcalm.log hlog, ?_⟩
  · rw [hcalm.len]
    omega
  unfold Phase at hphase ⊢
  rw [hcalm.pc]
  split at hphase
  next =>
    intro hret
    obtain ⟨hret', hsame, hpending⟩ := hcalm.ready hret
    obtain ⟨hpending', r, hserving⟩ := hphase hret'
    exact ⟨hpending hpending', r, hcalm.serving hserving hsame⟩
  next =>
    obtain ⟨r, hprep⟩ := hphase
    exact ⟨r, hcalm.preparing hprep⟩
  next =>
    obtain ⟨r, hprep, hcnt⟩ := hphase
    exact ⟨r, hcalm.preparing hprep, hcalm.cnt.trans_le hcnt⟩
  next =>
    obtain ⟨r, hcopied⟩ := hphase
    exact ⟨r, hcalm.copied hcopied⟩
  next =>
    obtain ⟨r, hcopied, hlen⟩ := hphase
    exact ⟨r, hcalm.copied hcopied, hcalm.len.trans hlen⟩
  next =>
    obtain ⟨r, hcopied, hlen, hzero⟩ := hphase
    exact ⟨r, hcalm.copied hcopied, hcalm.len.trans hlen, by omega⟩
  next hpc =>
    obtain ⟨r, hpush, hserving, hfits⟩ := hphase
    obtain ⟨hsame, hreading⟩ := hbusy hpush.reading (by simp [hpc])
    refine ⟨r, hcalm.pushing hpush hreading, hcalm.serving hserving hsame, ?_⟩
    rwa [hsame, hcalm.cnt, hcalm.len]
  next hpc =>
    obtain ⟨r, hpush, hserving, hfits, htimer⟩ := hphase
    obtain ⟨hsame, hreading⟩ := hbusy hpush.reading (by simp [hpc])
    refine ⟨r, hcalm.pushing hpush hreading, hcalm.serving hserving hsame, ?_, ?_⟩
    · rwa [hsame, hcalm.cnt, hcalm.len]
    · intro hret
      obtain ⟨hret', _, hpending⟩ := hcalm.ready hret
      exact hpending (htimer hret')
  next hpc =>
    obtain ⟨r, hpush, hval, hnext, hserved, hfits, htimer⟩ := hphase
    obtain ⟨hsame, hreading⟩ := hbusy hpush.reading (by simp [hpc])
    refine ⟨r, hcalm.pushing hpush hreading, hval, hsame.trans hnext, ?_, ?_, ?_⟩
    · rw [hcalm.indices, hcalm.written, hserved]
    · rwa [hsame, hcalm.cnt, hcalm.len]
    · intro hret
      obtain ⟨hret', _, hpending⟩ := hcalm.ready hret
      exact hpending (htimer hret')

theorem Inv.when_ready (hinv : Inv s) (hret : s.retResponse = true) :
    ∃ r, Holding s r ∧
      (s.pc = .idle ∧ s.clkStrechPending = false ∧ Serving s r ∨
        Pushing s r ∧
          (s.pc = .delTimer ∧ Serving s r ∨
            (∃ i, s.pc = .fetch i) ∧ s.clkStrechPending = false ∧ Serving s r ∨
            ∃ i index val, s.pc = .store i index val)) := by
  have hphase := hinv.phase
  have hnot : ∀ {r}, ¬Preparing s r := by
    intro r hprep
    have hquiet := hprep.quiet
    rw [hret] at hquiet
    cases hquiet
  unfold Phase at hphase
  split at hphase
  next hpc =>
    obtain ⟨hpending, r, hserving⟩ := hphase hret
    exact ⟨r, hserving.toHolding, Or.inl ⟨hpc, hpending, hserving⟩⟩
  next =>
    obtain ⟨r, hprep⟩ := hphase
    exact absurd hprep hnot
  next =>
    obtain ⟨r, hprep, _⟩ := hphase
    exact absurd hprep hnot
  next =>
    obtain ⟨r, hcopied⟩ := hphase
    exact absurd hcopied.toPreparing hnot
  next =>
    obtain ⟨r, hcopied, _⟩ := hphase
    exact absurd hcopied.toPreparing hnot
  next =>
    obtain ⟨r, hcopied, _⟩ := hphase
    exact absurd hcopied.toPreparing hnot
  next hpc =>
    obtain ⟨r, hpush, hserving, _⟩ := hphase
    exact ⟨r, hpush.toHolding, Or.inr ⟨hpush, Or.inl ⟨hpc, hserving⟩⟩⟩
  next i hpc =>
    obtain ⟨r, hpush, hserving, _, htimer⟩ := hphase
    exact ⟨r, hpush.toHolding, Or.inr ⟨hpush, Or.inr (Or.inl ⟨⟨i, hpc⟩, htimer hret, hserving⟩)⟩⟩
  next i index val hpc =>
    obtain ⟨r, hpush, _⟩ := hphase
    exact ⟨r, hpush.toHolding, Or.inr ⟨hpush, Or.inr (Or.inr ⟨i, index, val, hpc⟩)⟩⟩

theorem Inv.idle_of_ready (hinv : Inv s) (hret : s.retResponse = true)
    (hreading : s.readRequested = false) : s.pc = .idle := by
  obtain ⟨r, _, hidle | ⟨hpush, _⟩⟩ := hinv.when_ready hret
  · exact hidle.1
  · have hreading' := hpush.reading
    rw [hreading] at hreading'
    cases hreading'

theorem Inv.pushCount_le (hinv : Inv s) (hret : s.retResponse = true) (txflr : ℕ) :
    s.resDataIndex + s.pushCount txflr ≤ s.resDataLen := by
  obtain ⟨r, hhold, _⟩ := hinv.when_ready hret
  have hlen := hhold.len
  have hword := r.lt
  have hbounded := hinv.bounded
  have hle : s.pushCount txflr ≤ (s.resDataLen + 2 ^ 32 - s.resDataIndex) % 2 ^ 32 :=
    min_le_right _ _
  omega

theorem Inv.pushLoop {n : ℕ} (hinv : Inv s) (hret : s.retResponse = true)
    (hreading : s.readRequested = true) (hstore : ∀ i index val, s.pc ≠ .store i index val)
    (hfits : s.resDataIndex + n + s.left ≤ s.resDataLen) : Inv (pushLoop n s) := by
  obtain ⟨r, hhold, hready⟩ := hinv.when_ready hret
  have hlt : s.resDataIndex + n < 2 ^ 32 := by
    have hlen := hhold.len
    have hword := r.lt
    omega
  have heq := pushLoop_eq n s hlt
  have hserves : Serving s r →
      Serving (SmbusResponse.pushLoop n s) r ∧ LogOk (SmbusResponse.pushLoop n s) :=
    fun hserving => hserving.pushLoop hinv.log hreading (by omega)
  have hpc : (SmbusResponse.pushLoop n s).pc = s.pc := by rw [heq]
  have hbounded : (SmbusResponse.pushLoop n s).resDataIndex ≤
      (SmbusResponse.pushLoop n s).resDataLen := by
    rw [heq]
    simp only
    omega
  have hpushing : Pushing s r → Holding (SmbusResponse.pushLoop n s) r →
      Pushing (SmbusResponse.pushLoop n s) r := by
    intro hpush hhold'
    refine ⟨hhold', ?_, ?_⟩
    · rw [heq]
      exact hpush.call
    · rw [heq]
      exact hreading
  have hpending : s.clkStrechPending = false →
      (SmbusResponse.pushLoop n s).clkStrechPending = false := by
    rw [heq]
    exact id
  have hleft : (SmbusResponse.pushLoop n s).resDataIndex + s.left ≤
      (SmbusResponse.pushLoop n s).resDataLen := by
    rw [heq]
    exact hfits
  have hcnt : (SmbusResponse.pushLoop n s).cnt = s.cnt := by rw [heq]
  rcases hready with ⟨hidle, htimer, hserving⟩ |
    ⟨hpush, ⟨hdel, hserving⟩ | ⟨⟨i, hfetch⟩, htimer, hserving⟩ | ⟨i, index, val, hpc'⟩⟩
  · obtain ⟨hserving', hlog'⟩ := hserves hserving
    refine ⟨hbounded, hlog', ?_⟩
    unfold Phase
    rw [hpc, hidle]
    exact fun _ => ⟨hpending htimer, r, hserving'⟩
  · obtain ⟨hserving', hlog'⟩ := hserves hserving
    refine ⟨hbounded, hlog', ?_⟩
    unfold Phase
    unfold State.left at hleft
    rw [hdel] at hleft
    rw [hpc, hdel, hcnt]
    exact ⟨r, hpushing hpush hserving'.toHolding, hserving', hleft⟩
  · obtain ⟨hserving', hlog'⟩ := hserves hserving
    refine ⟨hbounded, hlog', ?_⟩
    unfold Phase
    unfold State.left at hleft
    rw [hfetch] at hleft
    rw [hpc, hfetch, hcnt]
    exact ⟨r, hpushing hpush hserving'.toHolding, hserving', hleft, fun _ => hpending htimer⟩
  · exact absurd hpc' (hstore i index val)

theorem Inv.read {txflr : ℕ} (hinv : Inv s) (hreading : s.readRequested = true)
    (hallowed : s.pushCount txflr = 0 ∨
      s.retResponse = true ∧ (∀ i index val, s.pc ≠ .store i index val) ∧
        s.resDataIndex + s.pushCount txflr + s.left ≤ s.resDataLen) :
    Inv (slaveSmbusRead s txflr) := by
  unfold slaveSmbusRead
  simp only
  split
  next =>
    have hcalm : Calm s { s with retResponse := false, clkStrechPending := true } :=
      ⟨rfl, rfl, rfl, rfl, rfl, rfl, rfl, rfl, rfl, fun h => by cases h⟩
    exact hinv.calm hcalm (Or.inl rfl) fun _ _ => ⟨rfl, hreading⟩
  next hcnt =>
    obtain ⟨hret, hstore, hfits⟩ := hallowed.resolve_left hcnt
    exact hinv.pushLoop hret hreading hstore hfits

theorem Inv.rdReq {txflr : ℕ} (hinv : Inv s) (hallowed : Allowed s (.rdReq txflr)) :
    Inv (rdReq s txflr) := by
  unfold SmbusResponse.rdReq
  split
  next hreading => exact hinv.read hreading (hallowed hreading)
  next hreading =>
    have hreading : s.readRequested = false := by simpa using hreading
    have htx : s.nextTx = s.tx + 1 := by rw [State.nextTx, hreading, if_neg Bool.false_ne_true]
    have hcalm : Calm s { s with readRequested := true, tx := s.tx + 1 } :=
      ⟨rfl, rfl, rfl, rfl, rfl, rfl, rfl, rfl, htx.symm, fun h => ⟨h, rfl, id⟩⟩
    have hbegin := hinv.calm hcalm (Or.inl rfl) fun _ _ => ⟨rfl, rfl⟩
    unfold slaveSmbusReadRequest
    cases hret : s.retResponse with
    | false =>
      have hstretch : Calm s
          { s with readRequested := true, tx := s.tx + 1, clkStrechPending := true } :=
        ⟨rfl, rfl, rfl, rfl, rfl, rfl, rfl, rfl, htx.symm, fun h => by rw [hret] at h; cases h⟩
      have hinv' := hinv.calm hstretch (Or.inl rfl) fun _ _ => ⟨rfl, rfl⟩
      simpa [hret] using hinv'
    | true =>
      have hidle := hinv.idle_of_ready hret hreading
      have hleft : State.left { s with readRequested := true, tx := s.tx + 1 } = 0 := by
        unfold State.left
        simp only [hidle]
      have hfits := hbegin.pushCount_le hret txflr
      have hinv' : Inv (slaveSmbusRead { s with readRequested := true, tx := s.tx + 1 } txflr) :=
        hbegin.read rfl (Or.inr ⟨hret, by simp [hidle], by omega⟩)
      simpa [hret] using hinv'

theorem Inv.rest (hinv : Inv s) (hpc : s'.pc = .idle) (hret : s'.retResponse = false)
    (hindex : s'.resDataIndex ≤ s'.resDataLen) (hpushed : s'.pushed = s.pushed)
    (hwritten : s'.written = s.written) : Inv s' := by
  have hindices : ∀ no, s'.indices no = s.indices no := by
    intro no
    rw [State.indices, State.indices, hpushed]
  refine ⟨hindex, ⟨?_, ?_, ?_⟩, ?_⟩
  · rw [hpushed]
    exact hinv.log.sound
  · intro no
    rw [hindices]
    exact hinv.log.once no
  · rw [hpushed, hwritten]
    exact hinv.log.numbers
  · unfold Phase
    rw [hpc, hret]
    exact fun h => by cases h

theorem nextTx_of_quiet (hreading : s.readRequested = false) : s.nextTx = s.tx + 1 := by
  rw [State.nextTx, hreading, if_neg Bool.false_ne_true]

theorem Inv.abort (hinv : Inv s) (hallowed : Allowed s .abort) : Inv (slaveSmbusAbort s) := by
  cases hreading : s.readRequested with
  | true => exact hinv.rest (hallowed hreading) rfl (Nat.zero_le _) rfl rfl
  | false =>
    have hcalm : Calm s (slaveSmbusAbort s) :=
      ⟨rfl, rfl, rfl, rfl, rfl, rfl, rfl, rfl, (nextTx_of_quiet hreading).symm,
        fun h => by cases h⟩
    exact hinv.calm hcalm (Or.inr rfl) fun h => by
      rw [hreading] at h
      cases h

theorem Inv.stop (hinv : Inv s) (hallowed : Allowed s .stop) : Inv (slaveSmbusStop s) := by
  unfold slaveSmbusStop
  split
  next => exact hinv.abort hallowed
  next => exact hinv

theorem Inv.expire (hinv : Inv s) (hpending : s.clkStrechPending = true)
    (hallowed : Allowed s .expire) : Inv (clkStrechTimerHandler s) := by
  cases hreading : s.readRequested with
  | true =>
    have hpc := hallowed hreading
    refine hinv.rest hpc ?_ hinv.bounded rfl rfl
    cases hret : s.retResponse with
    | false => exact hret
    | true =>
      obtain ⟨r, _, ⟨_, htimer, _⟩ | ⟨_, hbusy⟩⟩ := hinv.when_ready hret
      · rw [hpending] at htimer
        cases htimer
      · simp [hpc] at hbusy
  | false =>
    have hcalm : Calm s (clkStrechTimerHandler s) :=
      ⟨rfl, rfl, rfl, rfl, rfl, rfl, rfl, rfl, (nextTx_of_quiet hreading).symm,
        fun h => ⟨h, rfl, fun _ => rfl⟩⟩
    exact hinv.calm hcalm (Or.inl rfl) fun h => by
      rw [hreading] at h
      cases h

theorem Inv.start {data : List UInt8} {pos : 0 < data.length} {lt : data.length < 2 ^ 32}
    (hinv : Inv s) : Inv (start s data pos lt) := by
  unfold SmbusResponse.start
  cases hret : s.retResponse with
  | true => exact hinv
  | false =>
    exact ⟨hinv.bounded, ⟨hinv.log.sound, hinv.log.once, hinv.log.numbers⟩,
      ⟨data, pos, lt, s.nextTx⟩, rfl, rfl, rfl⟩

theorem Inv.next {a : Action} (hinv : Inv s) (hallowed : Allowed s a)
    (hstep : next s a = some s') : Inv s' := by
  cases a with
  | start data pos lt =>
    simp only [SmbusResponse.next] at hstep
    split at hstep
    next =>
      cases hstep
      exact hinv.start
    next => cases hstep
  | stmt txflr => exact hinv.stmt hallowed hstep
  | rdReq txflr =>
    cases hstep
    exact hinv.rdReq hallowed
  | stop =>
    cases hstep
    exact hinv.stop hallowed
  | abort =>
    cases hstep
    exact hinv.abort hallowed
  | expire =>
    simp only [SmbusResponse.next] at hstep
    split at hstep
    next hpending =>
      cases hstep
      exact hinv.expire hpending hallowed
    next => cases hstep

end Steps

/-- In a run whose steps are all allowed, the master gets the bytes of the responses, each
once and in the transaction that it is for. -/
theorem streamOk_of_allowed {s : State} (hreach : (system.restrict Allowed).Reachable s) :
    StreamOk s := by
  have hinv : Inv s := by
    apply hreach.invariant
    · rintro s rfl
      exact inv_initial
    · intro s a s' _ hinv hstep
      exact hinv.next hstep.1 hstep.2
  exact ⟨hinv.bounded, hinv.log.sound, hinv.log.once⟩

instance decidableStores (s : State) : Decidable (∀ i index val, s.pc ≠ .store i index val) :=
  match h : s.pc with
  | .store i index val => isFalse fun hnot => hnot i index val rfl
  | .idle | .count | .copy | .setLen | .setIndex | .ready | .delTimer | .fetch _ =>
    isTrue fun _ _ _ h' => by cases h'

instance decidableAllowed (s : State) : (a : Action) → Decidable (Allowed s a)
  | .start .. => isTrue trivial
  | .stmt _ =>
    inferInstanceAs (Decidable
      ((s.pc = .setLen → ∀ r ∈ s.call, s.resDataIndex ≤ r.data.length) ∧
        (s.pc = .ready → s.clkStrechPending = true → s.readRequested = true)))
  | .rdReq txflr =>
    inferInstanceAs (Decidable (s.readRequested = true → s.pushCount txflr = 0 ∨
      s.retResponse = true ∧ (∀ i index val, s.pc ≠ .store i index val) ∧
        s.resDataIndex + s.pushCount txflr + s.left ≤ s.resDataLen))
  | .stop | .abort | .expire => inferInstanceAs (Decidable (s.readRequested = true → s.pc = .idle))

def orderlyRun : List Action :=
  [Action.start [10, 20] (by decide) (by decide)] ++ List.replicate 5 (Action.stmt 0) ++
    [Action.rdReq 0, .stop, .rdReq 0, .start [30] (by decide) (by decide)] ++
    List.replicate 9 (Action.stmt 0) ++ [Action.stop]

def afterOrderly : State :=
  (TransitionSystem.runSteps (TransitionSystem.guarded Allowed next) initial orderlyRun).get
    (by decide +kernel)

theorem streamOk_of_allowed_orderly :
    afterOrderly.pushed.map Push.byte = [10, 20, 30] ∧ StreamOk afterOrderly := by
  have hinit : (system.restrict Allowed).Reachable initial := TransitionSystem.Reachable.init rfl
  have hrun : TransitionSystem.runSteps (TransitionSystem.guarded Allowed next) initial orderlyRun =
      some afterOrderly := (Option.some_get _).symm
  exact ⟨by decide +kernel, streamOk_of_allowed (hinit.runGuarded hrun)⟩

def overtakenRun : List Action :=
  [Action.rdReq 0, .start [10, 20] (by decide) (by decide)] ++ List.replicate 6 (Action.stmt 0) ++
    [Action.rdReq 0, .stmt 0]

def overtaken : State :=
  (TransitionSystem.runSteps next initial overtakenRun).get (by decide +kernel)

def staleRun : List Action :=
  [Action.rdReq 0, .start [10, 20] (by decide) (by decide)] ++ List.replicate 4 (Action.stmt 0) ++
    [Action.stop, .stmt 0, .stmt 0, .rdReq 0]

def stale : State := (TransitionSystem.runSteps next initial staleRun).get (by decide +kernel)

/-- The index passes the length; and a response goes out in a later transaction. -/
theorem stream_breaks :
    (system.Reachable overtaken ∧ overtaken.resDataLen < overtaken.resDataIndex ∧
        ¬StreamOk overtaken) ∧
      system.Reachable stale ∧ (∃ p ∈ stale.pushed, ∃ r ∈ p.response, r.tx < p.tx) ∧
        ¬StreamOk stale := by
  have hinit : system.Reachable initial := TransitionSystem.Reachable.init rfl
  have hrun : TransitionSystem.runSteps next initial overtakenRun = some overtaken :=
    (Option.some_get _).symm
  have hrun' : TransitionSystem.runSteps next initial staleRun = some stale :=
    (Option.some_get _).symm
  have hpast : overtaken.resDataLen < overtaken.resDataIndex := by decide +kernel
  have hlate : ∃ p ∈ stale.pushed, ∃ r ∈ p.response, r.tx < p.tx := by decide +kernel
  refine ⟨⟨hinit.runSteps hrun, hpast, fun hok => ?_⟩, hinit.runSteps hrun', hlate, fun hok => ?_⟩
  · have hbounded := hok.bounded
    omega
  · obtain ⟨p, hp, r, hr, hlt⟩ := hlate
    obtain ⟨r', hr', _, htx, _⟩ := hok.sound p hp
    have hsame : r' = r := Option.some.inj (hr'.symm.trans hr)
    rw [← hsame] at hlt
    omega

end HiMpu.SmbusResponse
