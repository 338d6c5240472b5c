import HiMpu.I2cAsync

/-!
# Callbacks of asynchronous I2C requests

A call stores its callback and its message before `i2c_wait_idle` finds the
controller busy, so a call that is refused takes the callback and the message of
the transfer in flight away.  The runs in which no call is admitted while a
transfer is in flight, and no interrupt falls between the first store of a call
and the disabling of the controller, keep what the callbacks promise.
-/

namespace HiMpu.I2cAsync

open I2cDma (I2cBoard I2cTransmit i2c7bitMaxAddr openI2c)
open TransitionSystem

/-! ## What a callback promises -/

def statusIsRead : I2cTransmit → Bool
  | .readOk | .readFail => true
  | .writeOk | .writeFail => false

def statusIsOk : I2cTransmit → Bool
  | .readOk | .writeOk => true
  | .readFail | .writeFail => false

def Request.moves (r : Request) (n : ℕ) : List (Bool × ℕ) :=
  (List.range n).map fun i => (r.isRead, r.info.buffer + i)

/-- Request `k`, made when the trace had length `start`, has its own callback
called at most once, with its direction, and with success only after all its bytes
were moved. -/
def CallbackHonest (events : List Event) (start k : ℕ) (r : Request) : Prop :=
  (events.filter (Event.invokedBy k)).length ≤ 1 ∧
    ∀ pre post f status, events = pre ++ .invoked k f status :: post →
      r.mode = .async (some f) ∧ statusIsRead status = r.isRead ∧
        (statusIsOk status = true →
          (pre.drop start).filterMap Event.move? = r.moves r.info.length)

structure Honest (s : State) : Prop where
  refused : ∀ k j, .overwritten k j ∈ s.events → s.results k ≠ some bmFail
  callbacks : ∀ k r, s.requests k = some r → s.results k = some bmOk →
    CallbackHonest s.events (s.started k) k r

/-- A call is admitted only while no transfer is in flight, and no interrupt is
taken while a call replaces the message. -/
def Calm (B : I2cBoard) (s : State) : Label → Prop
  | .call (some r) sem => (admitted B r && sem) = true → ∀ j < s.count, s.inFlight j = false
  | .interrupt _ _ =>
    match s.pc with
    | .busy stage _ _ => stage.replacing = false
    | .idle => True
  | _ => True

instance decidableCalm (B : I2cBoard) (s : State) : (a : Label) → Decidable (Calm B s a)
  | .call (some _) _ => inferInstanceAs (Decidable (_ → ∀ j < s.count, s.inFlight j = false))
  | .interrupt _ _ => by
    unfold Calm
    exact match s.pc with
      | .busy stage _ _ => inferInstanceAs (Decidable (stage.replacing = false))
      | .idle => inferInstanceAs (Decidable True)
  | .call none _ | .advance _ _ | .arrive _ | .abort | .store _ _ =>
    inferInstanceAs (Decidable True)

def NoneInvoked (events : List Event) (k : ℕ) : Prop :=
  ∀ e ∈ events, e.invokedBy k = false

theorem any_invokedBy_eq_false {events : List Event} {k : ℕ} :
    events.any (Event.invokedBy k) = false ↔ NoneInvoked events k := by
  unfold NoneInvoked
  simp

namespace NoneInvoked

variable {events es : List Event} {k : ℕ}

theorem append (h : NoneInvoked events k) (hes : NoneInvoked es k) :
    NoneInvoked (events ++ es) k := by
  intro e he
  rcases List.mem_append.mp he with he | he
  · exact h e he
  · exact hes e he

theorem filter_eq_nil (h : NoneInvoked events k) : events.filter (Event.invokedBy k) = [] := by
  rw [List.filter_eq_nil_iff]
  intro e he
  simp [h e he]

theorem not_mem (h : NoneInvoked events k) (f : ℕ) (status : I2cTransmit) :
    .invoked k f status ∉ events := by
  intro hmem
  have hfalse := h _ hmem
  simp [Event.invokedBy] at hfalse

end NoneInvoked

namespace CallbackHonest

variable {events es : List Event} {start k : ℕ} {r : Request}

theorem of_none (h : NoneInvoked events k) : CallbackHonest events start k r := by
  refine ⟨by simp [h.filter_eq_nil], ?_⟩
  rintro pre post f status rfl
  exact absurd (by simp) (h.not_mem f status)

theorem append_other (h : CallbackHonest events start k r) (hes : NoneInvoked es k) :
    CallbackHonest (events ++ es) start k r := by
  refine ⟨?_, ?_⟩
  · rw [List.filter_append, hes.filter_eq_nil, List.append_nil]
    exact h.1
  · intro pre post f status heq
    rcases List.append_eq_append_iff.mp heq with ⟨mid, rfl, hmid⟩ | ⟨mid, hmid, htail⟩
    · exact absurd (by simp [hmid]) (hes.not_mem f status)
    · cases mid with
      | nil =>
        rw [List.nil_append] at htail
        exact absurd (by simp [← htail]) (hes.not_mem f status)
      | cons e mid =>
        simp only [List.cons_append, List.cons.injEq] at htail
        obtain ⟨rfl, -⟩ := htail
        exact h.2 pre mid f status hmid

theorem first {f : ℕ} {status : I2cTransmit} (h : NoneInvoked events k)
    (hmode : r.mode = .async (some f)) (hdir : statusIsRead status = r.isRead)
    (hok : statusIsOk status = true →
      (events.drop start).filterMap Event.move? = r.moves r.info.length) :
    CallbackHonest (events ++ [.invoked k f status]) start k r := by
  refine ⟨?_, ?_⟩
  · rw [List.filter_append, h.filter_eq_nil, List.nil_append]
    exact List.length_filter_le _ _
  · intro pre post f' status' heq
    rcases List.append_eq_append_iff.mp heq with ⟨mid, rfl, hmid⟩ | ⟨mid, hmid, htail⟩
    · cases mid with
      | nil =>
        simp only [List.nil_append, List.cons.injEq, Event.invoked.injEq] at hmid
        obtain ⟨⟨-, rfl, rfl⟩, -⟩ := hmid
        rw [List.append_nil]
        exact ⟨hmode, hdir, hok⟩
      | cons e mid => simp at hmid
    · cases mid with
      | nil =>
        rw [List.append_nil] at hmid
        simp only [List.nil_append, List.cons.injEq, Event.invoked.injEq] at htail
        obtain ⟨⟨-, rfl, rfl⟩, -⟩ := htail
        rw [← hmid]
        exact ⟨hmode, hdir, hok⟩
      | cons e mid =>
        simp only [List.cons_append, List.cons.injEq] at htail
        obtain ⟨rfl, -⟩ := htail
        exact absurd (by simp [hmid]) (h.not_mem f' status')

end CallbackHonest

/-! ## What the interrupt handler can do -/

inductive HandlerStep : State → State → Prop
  | store {s : State} {val : UInt8} {rest : List UInt8} (henabled : s.enabled = true)
      (hfifo : s.rxFifo = val :: rest) (hroom : s.drv.msg.rcnt < s.drv.msg.rlen) :
      HandlerStep s ({ s with rxFifo := rest }.storeByte val)
  | drop {s : State} {val : UInt8} {rest : List UInt8} (hfifo : s.rxFifo = val :: rest) :
      HandlerStep s { s with rxFifo := rest }
  | push {s : State} (henabled : s.enabled = true) (hroom : s.drv.msg.wcnt < s.drv.msg.wlen)
      (hbuf : s.drv.msg.wbuf ≠ 0) : HandlerStep s s.pushByte
  | command {s : State} (henabled : s.enabled = true) (hrd : s.drv.msg.isRd = true) :
      HandlerStep s
        { s with
          pending := s.pending + 1
          drv := { s.drv with cmdLen := s.drv.cmdLen + 1 } }
  | mask {s : State} (m : BitVec 32) : HandlerStep s { s with intrMask := m }
  | line {s : State} : HandlerStep s { s with irq := false }
  | fail {s : State} :
      HandlerStep s (s.invoke (if s.drv.msg.isRd then .readFail else .writeFail))
  | writeOk {s : State} (henabled : s.enabled = true) (hwe : s.drv.msg.isRd = false)
      (hdone : s.drv.msg.wlen ≤ s.drv.msg.wcnt) : HandlerStep s (s.invoke .writeOk)
  | readOk {s : State} (henabled : s.enabled = true)
      (hrd : s.drv.msg.isRd = true ∨ s.results s.slotOwner = some bmFail)
      (hdone : s.drv.msg.rlen ≤ s.drv.msg.rcnt) : HandlerStep s (s.invoke .readOk)

abbrev HandlerRun : State → State → Prop := Relation.ReflTransGen HandlerStep

theorem invoke_complete {s : State} {status : I2cTransmit} (h : HandlerStep s (s.invoke status)) :
    HandlerRun s (s.complete status) := by
  unfold State.complete
  split
  · exact (Relation.ReflTransGen.single h).tail HandlerStep.line
  · exact Relation.ReflTransGen.refl

theorem irqRead_run (n : ℕ) {s : State} (henabled : s.enabled = true) :
    HandlerRun s (i2cIrqRead n s) ∧ (i2cIrqRead n s).enabled = true ∧
      (i2cIrqRead n s).drv.msg.isRd = s.drv.msg.isRd ∧
      (i2cIrqRead n s).drv.callback = s.drv.callback ∧
      (i2cIrqRead n s).results = s.results ∧ (i2cIrqRead n s).slotOwner = s.slotOwner := by
  induction n generalizing s with
  | zero => exact ⟨Relation.ReflTransGen.refl, henabled, rfl, rfl, rfl, rfl⟩
  | succ n ih =>
    unfold i2cIrqRead
    split
    next => exact ⟨Relation.ReflTransGen.refl, henabled, rfl, rfl, rfl, rfl⟩
    next val rest hfifo =>
      dsimp only
      split
      next => exact ⟨Relation.ReflTransGen.single (.drop hfifo), henabled, rfl, rfl, rfl, rfl⟩
      next hroom =>
        obtain ⟨hrun, hen, hrd, hcb, hres, hown⟩ :=
          ih (s := { s with rxFifo := rest }.storeByte val) henabled
        exact ⟨Relation.ReflTransGen.head (.store henabled hfifo (Nat.lt_of_not_le hroom)) hrun,
          hen, hrd, hcb, hres, hown⟩

theorem xferLoop_run (wlimit rlimit : ℕ) {s : State} (henabled : s.enabled = true) :
    HandlerRun s (i2cIrqXferLoop wlimit rlimit s) := by
  induction wlimit generalizing rlimit s with
  | zero =>
    unfold i2cIrqXferLoop
    exact Relation.ReflTransGen.refl
  | succ wlimit ih =>
    cases rlimit with
    | zero =>
      unfold i2cIrqXferLoop
      exact Relation.ReflTransGen.refl
    | succ rlimit =>
      unfold i2cIrqXferLoop i2cIrqXferMsgByte i2cIrqXferWriteByte
      by_cases hend : s.drv.msg.wlen ≤ s.drv.msg.wcnt ∨ s.drv.msg.wbuf = 0
      · simp only [hend, if_true]
        cases hrd : s.drv.msg.isRd with
        | false =>
          simp only [Bool.not_false, if_true]
          split
          next hdone => exact invoke_complete (.writeOk henabled hrd hdone)
          next => exact ih _ henabled
        | true =>
          simp only [Bool.not_true, Bool.false_eq_true, if_false]
          split
          next => exact Relation.ReflTransGen.single (.command henabled hrd)
          next => exact Relation.ReflTransGen.head (.command henabled hrd) (ih _ henabled)
      · simp only [hend, if_false]
        have hroom := not_or.mp hend
        exact Relation.ReflTransGen.head
          (.push henabled (Nat.lt_of_not_le hroom.1) hroom.2) (ih _ henabled)

theorem irqXferMsg_run (A : Adapter) (txflr : ℕ) {s : State} (henabled : s.enabled = true) :
    HandlerRun s (i2cIrqXferMsg A s txflr) := by
  unfold i2cIrqXferMsg
  split
  · exact (xferLoop_run _ _ henabled).tail (.mask _)
  · exact Relation.ReflTransGen.refl

theorem HandlerRun.enabled {s t : State} (hrun : HandlerRun s t) : t.enabled = s.enabled := by
  induction hrun with
  | refl => rfl
  | tail _ hstep ih =>
    rw [← ih]
    cases hstep with
    | fail | writeOk | readOk =>
      unfold State.invoke
      split <;> rfl
    | _ => rfl

theorem handleRxFull_run {s t : State} (henabled : s.enabled = true) (hfifo : s.rxFifo ≠ [])
    (hkind : ∀ f, s.drv.callback = some f →
      s.drv.msg.isRd = true ∨ s.results s.slotOwner = some bmFail ∨ s.rxFifo = [])
    (hrx : i2cHandleRxFull s = some t) : HandlerRun s t := by
  unfold i2cHandleRxFull at hrx
  split at hrx
  · obtain ⟨hrun, hen, hrd, hslot, hres, hown⟩ := irqRead_run s.rxFifo.length henabled
    dsimp only at hrx
    split at hrx
    next hdone =>
      obtain rfl := Option.some.inj hrx
      cases hcb : (i2cIrqRead s.rxFifo.length s).drv.callback with
      | none =>
        have hsame : (i2cIrqRead s.rxFifo.length s).complete .readOk =
            i2cIrqRead s.rxFifo.length s := by
          unfold State.complete
          rw [hcb]
        rw [hsame]
        exact hrun
      | some f =>
        refine hrun.trans (invoke_complete (.readOk hen ?_ hdone))
        rw [hrd, hres, hown]
        rcases hkind f (hslot ▸ hcb) with h | h | h
        · exact Or.inl h
        · exact Or.inr h
        · exact absurd h hfifo
    next =>
      obtain rfl := Option.some.inj hrx
      exact hrun
  · split at hrx
    · cases hrx
    · obtain rfl := Option.some.inj hrx
      exact Relation.ReflTransGen.refl

theorem handle_run {A : Adapter} {s t : State} {raw : BitVec 32} {txflr : ℕ}
    (hfifo : raw &&& icIntrRxFull ≠ 0 → s.rxFifo ≠ [])
    (hkind : ∀ f, s.drv.callback = some f →
      s.drv.msg.isRd = true ∨ s.results s.slotOwner = some bmFail ∨ s.rxFifo = [])
    (hstep : i2cInterruptHandle A s raw txflr = some t) : HandlerRun s t := by
  have herror : ∀ {t}, i2cHandleError s = some t → HandlerRun s t := by
    intro t herr
    unfold i2cHandleError at herr
    split at herr
    · obtain rfl := Option.some.inj herr
      exact Relation.ReflTransGen.single .fail
    · cases herr
  unfold i2cInterruptHandle at hstep
  split at hstep
  next => exact herror hstep
  next hen =>
    have henabled : s.enabled = true := by simpa using hen
    split at hstep
    next => exact herror hstep
    next =>
      obtain ⟨u, hu, rfl⟩ := Option.map_eq_some_iff.mp hstep
      have hrx : HandlerRun s u := by
        split at hu
        next hfull =>
          refine handleRxFull_run henabled (hfifo ?_) hkind hu
          intro hzero
          apply hfull
          rw [BitVec.and_assoc, BitVec.and_comm s.intrMask, ← BitVec.and_assoc, hzero]
          exact BitVec.zero_and
        next =>
          obtain rfl := Option.some.inj hu
          exact Relation.ReflTransGen.refl
      have hue : u.enabled = true := hrx.enabled.trans henabled
      have htx : HandlerRun s
          (if raw &&& s.intrMask &&& icIntrTxEmpty ≠ 0 then i2cIrqXferMsg A u txflr else u) := by
        split
        · exact hrx.trans (irqXferMsg_run A txflr hue)
        · exact hrx
      dsimp only
      split
      · exact htx.tail (.mask _)
      · exact htx

structure Loaded (msg : Kmsg) (r : Request) : Prop where
  kind : msg.isRd = r.isRead
  read : r.isRead = true → msg.rbuf = r.info.buffer ∧ msg.rlen = r.info.length ∧ msg.wbuf = 0
  write : r.isRead = false → msg.wbuf = r.info.buffer ∧ msg.wlen = r.info.length

def State.movesSince (s : State) (k : ℕ) : List (Bool × ℕ) :=
  (s.events.drop (s.started k)).filterMap Event.move?

def Kmsg.progress (msg : Kmsg) : ℕ :=
  if msg.isRd then msg.rcnt else msg.wcnt

structure Running (s : State) (k : ℕ) (r : Request) : Prop where
  loaded : Loaded s.drv.msg r
  moves : s.movesSince k = r.moves s.drv.msg.progress
  bound : s.drv.msg.progress ≤ r.info.length
  dry : r.isRead = false → s.rxFifo = [] ∧ s.pending = 0

def StageInv (s : State) (k : ℕ) (r : Request) : Stage → Prop
  | .callback => s.movesSince k = [] ∧ NoneInvoked s.events k
  | .message => s.movesSince k = []
  | .msgptr | .waitIdle => Loaded s.drv.msg r ∧ s.movesSince k = []
  | .xferInit =>
    Loaded s.drv.msg r ∧ s.movesSince k = [] ∧ s.enabled = false ∧ s.rxFifo = [] ∧
      s.pending = 0
  | .irqEnable => Running s k r ∧ r.mode.isAsync = true
  | .commands | .poll _ | .finish _ => r.mode = .sync

def OwnerState (s : State) (r : Request) : Prop :=
  s.results s.slotOwner = some bmFail ∨ (∃ stage, s.pc = .busy stage s.slotOwner r) ∨
    (s.results s.slotOwner = some bmOk ∧ s.pc = .idle ∧ Running s s.slotOwner r)

structure Ledger (s : State) : Prop where
  fresh : ∀ k, s.count ≤ k →
    s.requests k = none ∧ s.results k = none ∧ NoneInvoked s.events k
  started : ∀ k, s.started k ≤ s.events.length
  honest : ∀ k r, s.requests k = some r → s.results k ≠ some bmFail →
    CallbackHonest s.events (s.started k) k r
  clean : ∀ k j, .overwritten k j ∉ s.events

structure Inv (s : State) : Prop extends Ledger s where
  holder : ∀ stage k r, s.pc = .busy stage k r →
    s.requests k = some r ∧ s.results k = none ∧ StageInv s k r stage
  quiet : ∀ stage k r, s.pc = .busy stage k r → ∀ j, s.inFlight j = false
  owner : ∀ f, s.drv.callback = some f → ∃ r, s.requests s.slotOwner = some r ∧
    r.mode = .async (some f) ∧ NoneInvoked s.events s.slotOwner ∧ OwnerState s r

theorem Inv.honest_state {s : State} (hinv : Inv s) : Honest s := by
  refine ⟨fun k j hmem => absurd hmem (hinv.clean k j), ?_⟩
  intro k r hreq hres
  refine hinv.honest k r hreq ?_
  rw [hres]
  decide

theorem inv_initial (mem : Mem) : Inv (initial mem) where
  fresh := fun _ _ => ⟨rfl, rfl, fun _ he => absurd he List.not_mem_nil⟩
  started := fun _ => Nat.le_refl 0
  honest := by
    intro k r hreq
    cases hreq
  clean := fun _ _ => List.not_mem_nil
  holder := by
    intro stage k r hpc
    cases hpc
  quiet := by
    intro stage k r hpc
    cases hpc
  owner := by
    intro f hf
    cases hf

theorem inFlight_grows {s t : State} {es : List Event} {k : ℕ}
    (hreq : t.requests k = s.requests k) (hres : t.results k = s.results k)
    (hev : t.events = s.events ++ es) (h : s.inFlight k = false) : t.inFlight k = false := by
  unfold State.inFlight at h ⊢
  rw [hreq, hres, hev]
  cases hr : s.requests k with
  | none => rfl
  | some r =>
    rw [hr] at h
    simp only [List.any_append, Bool.not_or, Bool.and_eq_false_iff] at h ⊢
    tauto

theorem movesSince_append {s t : State} {es : List Event} {k : ℕ}
    (hstart : t.started k = s.started k) (hle : s.started k ≤ s.events.length)
    (hev : t.events = s.events ++ es) :
    t.movesSince k = s.movesSince k ++ es.filterMap Event.move? := by
  unfold State.movesSince
  rw [hstart, hev, List.drop_append_of_le_length hle, List.filterMap_append]

structure SameCalls (s t : State) : Prop where
  pc : t.pc = s.pc
  count : t.count = s.count
  requests : t.requests = s.requests
  started : t.started = s.started
  results : t.results = s.results
  slotOwner : t.slotOwner = s.slotOwner

def OnlyMoves (l : List Event) : Prop :=
  ∀ e ∈ l, ∃ d addr byte, e = .moved d addr byte

theorem OnlyMoves.noneInvoked {l : List Event} (hl : OnlyMoves l) (k : ℕ) : NoneInvoked l k := by
  intro e he
  obtain ⟨d, addr, byte, rfl⟩ := hl e he
  rfl

theorem Ledger.grow {s t : State} {l : List Event} (h : Ledger s) (hcount : t.count = s.count)
    (hreqs : t.requests = s.requests) (hstarted : t.started = s.started)
    (hres : t.results = s.results) (hev : t.events = s.events ++ l) (hl : OnlyMoves l) :
    Ledger t := by
  refine ⟨?_, ?_, ?_, ?_⟩
  · intro k hk
    rw [hreqs, hres, hev]
    obtain ⟨h1, h2, h3⟩ := h.fresh k (hcount ▸ hk)
    exact ⟨h1, h2, h3.append (hl.noneInvoked k)⟩
  · intro k
    rw [hstarted, hev, List.length_append]
    exact (h.started k).trans (Nat.le_add_right _ _)
  · intro k r hreq hne
    rw [hreqs] at hreq
    rw [hres] at hne
    rw [hstarted, hev]
    exact (h.honest k r hreq hne).append_other (hl.noneInvoked k)
  · intro k j hmem
    rw [hev] at hmem
    rcases List.mem_append.mp hmem with hmem | hmem
    · exact h.clean k j hmem
    · obtain ⟨d, addr, byte, heq⟩ := hl _ hmem
      cases heq

theorem Inv.of_sameCalls {s t : State} {l : List Event} (hinv : Inv s) (hsame : SameCalls s t)
    (hcb : t.drv.callback = s.drv.callback) (hev : t.events = s.events ++ l) (hl : OnlyMoves l)
    (hstage : ∀ stage k r, s.pc = .busy stage k r → StageInv s k r stage → StageInv t k r stage)
    (hrun : ∀ k r, Running s k r → Running t k r) : Inv t := by
  refine ⟨hinv.grow hsame.count hsame.requests hsame.started hsame.results hev hl, ?_, ?_, ?_⟩
  · intro stage k r hpc
    rw [hsame.pc] at hpc
    rw [hsame.requests, hsame.results]
    obtain ⟨h1, h2, h3⟩ := hinv.holder stage k r hpc
    exact ⟨h1, h2, hstage stage k r hpc h3⟩
  · intro stage k r hpc j
    rw [hsame.pc] at hpc
    exact inFlight_grows (by rw [hsame.requests]) (by rw [hsame.results]) hev
      (hinv.quiet stage k r hpc j)
  · intro f hf
    obtain ⟨r, h1, h2, h3, h4⟩ := hinv.owner f (hcb ▸ hf)
    rw [hsame.requests, hsame.slotOwner, hev]
    refine ⟨r, h1, h2, h3.append (hl.noneInvoked _), ?_⟩
    unfold OwnerState at h4 ⊢
    rw [hsame.results, hsame.slotOwner, hsame.pc]
    rcases h4 with h | h | ⟨h5, h6, h7⟩
    · exact Or.inl h
    · exact Or.inr (Or.inl h)
    · exact Or.inr (Or.inr ⟨h5, h6, hrun _ _ h7⟩)

/-! ## Preservation by the interrupt handler -/

def Settled (s : State) : Prop :=
  ∀ stage k r, s.pc = .busy stage k r → stage.replacing = false

theorem Inv.current {s : State} (hinv : Inv s) (hsettled : Settled s) {f : ℕ}
    (hcb : s.drv.callback = some f) :
    ∃ r, s.requests s.slotOwner = some r ∧ r.mode = .async (some f) ∧
      NoneInvoked s.events s.slotOwner ∧
      (s.results s.slotOwner = some bmFail ∨ Running s s.slotOwner r ∨
        (Loaded s.drv.msg r ∧ s.enabled = false ∧ s.rxFifo = [])) := by
  obtain ⟨r, hreq, hmode, hnone, hstate⟩ := hinv.owner f hcb
  refine ⟨r, hreq, hmode, hnone, ?_⟩
  rcases hstate with h | ⟨stage, hpc⟩ | ⟨-, -, hrun⟩
  · exact Or.inl h
  · have hstage := (hinv.holder stage _ r hpc).2.2
    have hrep := hsettled stage _ r hpc
    cases stage with
    | callback | message | msgptr | waitIdle => cases hrep
    | xferInit => exact Or.inr (Or.inr ⟨hstage.1, hstage.2.2.1, hstage.2.2.2.1⟩)
    | irqEnable => exact Or.inr (Or.inl hstage.1)
    | commands | poll | finish =>
      have hsync : r.mode = .sync := hstage
      rw [hsync] at hmode
      cases hmode
  · exact Or.inr (Or.inl hrun)

def Fair (s : State) (status : I2cTransmit) : Prop :=
  ∀ f r, s.drv.callback = some f → s.requests s.slotOwner = some r →
    s.results s.slotOwner = some bmFail ∨ (statusIsRead status = r.isRead ∧
      (statusIsOk status = true → s.movesSince s.slotOwner = r.moves r.info.length))

theorem running_invoke {s t : State} {k : ℕ} {r : Request} {e : Event} (hrun : Running s k r)
    (hle : s.started k ≤ s.events.length) (hstart : t.started k = s.started k)
    (hev : t.events = s.events ++ [e]) (he : e.move? = none) (hmsg : t.drv.msg = s.drv.msg)
    (hfifo : t.rxFifo = s.rxFifo) (hpend : t.pending = s.pending) : Running t k r := by
  refine ⟨hmsg ▸ hrun.loaded, ?_, hmsg ▸ hrun.bound, ?_⟩
  · rw [movesSince_append hstart hle hev, hrun.moves, hmsg]
    simp [he]
  · rw [hfifo, hpend]
    exact hrun.dry

theorem Inv.invoke {s : State} (hinv : Inv s) (hsettled : Settled s) {status : I2cTransmit}
    (hfair : Fair s status) : Inv (s.invoke status) := by
  unfold State.invoke
  split
  next f hcb =>
    obtain ⟨r, hreq, hmode, hnone, -⟩ := hinv.current hsettled hcb
    have hother : ∀ k, k ≠ s.slotOwner → NoneInvoked [.invoked s.slotOwner f status] k := by
      intro k hk e he
      rw [List.mem_singleton.mp he]
      simp [Event.invokedBy, Ne.symm hk]
    refine ⟨⟨?_, ?_, ?_, ?_⟩, ?_, ?_, ?_⟩
    · intro k hk
      obtain ⟨h1, h2, h3⟩ := hinv.fresh k hk
      refine ⟨h1, h2, h3.append (hother k ?_)⟩
      rintro rfl
      rw [hreq] at h1
      cases h1
    · intro k
      exact (hinv.started k).trans (by simp)
    · intro k r' hreq' hres
      by_cases hk : k = s.slotOwner
      · subst hk
        obtain rfl : r = r' := Option.some.inj (hreq.symm.trans hreq')
        rcases hfair f r hcb hreq with hfail | ⟨hdir, hok⟩
        · exact absurd hfail hres
        · exact CallbackHonest.first hnone hmode hdir hok
      · exact (hinv.honest k r' hreq' hres).append_other (hother k hk)
    · intro k j hmem
      rcases List.mem_append.mp hmem with h | h
      · exact hinv.clean k j h
      · cases List.mem_singleton.mp h
    · intro stage k r' hpc
      obtain ⟨h1, h2, h3⟩ := hinv.holder stage k r' hpc
      refine ⟨h1, h2, ?_⟩
      have hrep := hsettled stage k r' hpc
      cases stage with
      | callback | message | msgptr | waitIdle => cases hrep
      | xferInit =>
        refine ⟨h3.1, ?_, h3.2.2⟩
        have hmoves := movesSince_append (s := s) (t := { s with
          events := s.events ++ [.invoked s.slotOwner f status] }) rfl (hinv.started k) rfl
        rw [h3.2.1] at hmoves
        exact hmoves
      | irqEnable =>
        exact ⟨running_invoke h3.1 (hinv.started k) rfl rfl rfl rfl rfl rfl, h3.2⟩
      | commands | poll | finish => exact h3
    · intro stage k r' hpc j
      exact inFlight_grows (s := s) rfl rfl rfl (hinv.quiet stage k r' hpc j)
    · intro f' hf'
      cases hf'
  next => exact hinv

theorem moves_succ (r : Request) (n : ℕ) :
    r.moves (n + 1) = r.moves n ++ [(r.isRead, r.info.buffer + n)] := by
  unfold Request.moves
  rw [List.range_succ, List.map_append]
  rfl

theorem Running.step {s t : State} {k : ℕ} {r : Request} {d : Bool} {addr : ℕ} {byte : UInt8}
    (hrun : Running s k r) (hle : s.started k ≤ s.events.length)
    (hstart : t.started k = s.started k) (hev : t.events = s.events ++ [.moved d addr byte])
    (hdir : d = r.isRead) (haddr : addr = r.info.buffer + s.drv.msg.progress)
    (hloaded : Loaded t.drv.msg r) (hprog : t.drv.msg.progress = s.drv.msg.progress + 1)
    (hroom : s.drv.msg.progress < r.info.length)
    (hdry : r.isRead = false → t.rxFifo = [] ∧ t.pending = 0) : Running t k r := by
  refine ⟨hloaded, ?_, hprog ▸ hroom, hdry⟩
  rw [movesSince_append hstart hle hev, hrun.moves, hprog, moves_succ, hdir, haddr]
  rfl

theorem Running.store {s : State} {k : ℕ} {r : Request} {val : UInt8} {rest : List UInt8}
    (hrun : Running s k r) (hle : s.started k ≤ s.events.length)
    (hfifo : s.rxFifo = val :: rest) (hroom : s.drv.msg.rcnt < s.drv.msg.rlen) :
    Running ({ s with rxFifo := rest }.storeByte val) k r := by
  have hread : r.isRead = true := by
    by_contra hw
    have hnil := (hrun.dry (by simpa using hw)).1
    rw [hfifo] at hnil
    cases hnil
  have hrd : s.drv.msg.isRd = true := hrun.loaded.kind.trans hread
  obtain ⟨hbuf, hlen, hw⟩ := hrun.loaded.read hread
  have hprog : s.drv.msg.progress = s.drv.msg.rcnt := if_pos hrd
  refine hrun.step hle rfl rfl hread.symm ?_ ⟨hrun.loaded.kind, hrun.loaded.read,
    hrun.loaded.write⟩ ?_ ?_ ?_
  · rw [hprog, ← hbuf]
  · rw [hprog]
    exact if_pos hrd
  · rw [hprog, ← hlen]
    exact hroom
  · intro hfalse
    rw [hread] at hfalse
    cases hfalse

theorem Running.push {s : State} {k : ℕ} {r : Request} (hrun : Running s k r)
    (hle : s.started k ≤ s.events.length) (hroom : s.drv.msg.wcnt < s.drv.msg.wlen)
    (hbuf : s.drv.msg.wbuf ≠ 0) : Running s.pushByte k r := by
  have hwrite : r.isRead = false := by
    by_contra hr
    exact hbuf (hrun.loaded.read (by simpa using hr)).2.2
  have hwe : s.drv.msg.isRd = false := hrun.loaded.kind.trans hwrite
  obtain ⟨hwbuf, hwlen⟩ := hrun.loaded.write hwrite
  have hprog : s.drv.msg.progress = s.drv.msg.wcnt := if_neg (by simp [hwe])
  refine hrun.step hle rfl rfl hwrite.symm ?_ ⟨hrun.loaded.kind, hrun.loaded.read,
    hrun.loaded.write⟩ ?_ ?_ hrun.dry
  · rw [hprog, ← hwbuf]
  · rw [hprog]
    have hwe' : s.pushByte.drv.msg.isRd = false := hwe
    exact if_neg (by simp [hwe'])
  · rw [hprog, ← hwlen]
    exact hroom

theorem fair_fail {s : State} (hinv : Inv s) (hsettled : Settled s) :
    Fair s (if s.drv.msg.isRd then .readFail else .writeFail) := by
  intro f r hcb hreq
  obtain ⟨r', hreq', -, -, hstate⟩ := hinv.current hsettled hcb
  obtain rfl : r = r' := Option.some.inj (hreq.symm.trans hreq')
  have hkind : Loaded s.drv.msg r →
      statusIsRead (if s.drv.msg.isRd then .readFail else .writeFail) = r.isRead ∧
      (statusIsOk (if s.drv.msg.isRd then .readFail else .writeFail) = true →
        s.movesSince s.slotOwner = r.moves r.info.length) := by
    intro hloaded
    rw [hloaded.kind]
    cases r.isRead
    · exact ⟨rfl, fun h => by cases h⟩
    · exact ⟨rfl, fun h => by cases h⟩
  rcases hstate with h | h | h
  · exact Or.inl h
  · exact Or.inr (hkind h.loaded)
  · exact Or.inr (hkind h.1)

theorem fair_ok {s : State} (hinv : Inv s) (hsettled : Settled s) (henabled : s.enabled = true)
    {status : I2cTransmit}
    (hkind : s.drv.msg.isRd = statusIsRead status ∨ s.results s.slotOwner = some bmFail)
    (hdone : ∀ r, Running s s.slotOwner r → r.isRead = statusIsRead status →
      r.info.length ≤ s.drv.msg.progress) : Fair s status := by
  intro f r hcb hreq
  obtain ⟨r', hreq', -, -, hstate⟩ := hinv.current hsettled hcb
  obtain rfl : r = r' := Option.some.inj (hreq.symm.trans hreq')
  rcases hstate with h | hrun | ⟨-, hoff, -⟩
  · exact Or.inl h
  · rcases hkind with hkind | hfail
    · have hdir : r.isRead = statusIsRead status := hrun.loaded.kind.symm.trans hkind
      refine Or.inr ⟨hdir.symm, fun _ => ?_⟩
      have hfull : s.drv.msg.progress = r.info.length :=
        Nat.le_antisymm hrun.bound (hdone r hrun hdir)
      rw [hrun.moves, hfull]
    · exact Or.inl hfail
  · rw [henabled] at hoff
    cases hoff

theorem stageInv_of_settled {s t : State} (hsettled : Settled s)
    (hprep : ∀ k r, StageInv s k r .xferInit → StageInv t k r .xferInit)
    (hrun : ∀ k r, Running s k r → Running t k r) (stage : Stage) (k : ℕ) (r : Request)
    (hpc : s.pc = .busy stage k r) (h : StageInv s k r stage) : StageInv t k r stage := by
  have hrep := hsettled stage k r hpc
  cases stage with
  | callback | message | msgptr | waitIdle => cases hrep
  | xferInit => exact hprep k r h
  | irqEnable => exact ⟨hrun k r h.1, h.2⟩
  | commands | poll | finish => exact h

theorem Inv.handlerStep {s t : State} (hinv : Inv s) (hsettled : Settled s)
    (hstep : HandlerStep s t) : Inv t := by
  cases hstep with
  | @store val rest henabled hfifo hroom =>
    have hrun : ∀ k r, Running s k r → Running ({ s with rxFifo := rest }.storeByte val) k r :=
      fun k r h => h.store (hinv.started k) hfifo hroom
    refine hinv.of_sameCalls ⟨rfl, rfl, rfl, rfl, rfl, rfl⟩ rfl rfl (by simp [OnlyMoves])
      (stageInv_of_settled hsettled ?_ hrun) hrun
    rintro k r ⟨-, -, hoff, -⟩
    rw [henabled] at hoff
    cases hoff
  | @drop val rest hfifo =>
    have hrun : ∀ k r, Running s k r → Running { s with rxFifo := rest } k r := by
      intro k r h
      refine ⟨h.loaded, h.moves, h.bound, fun hw => ?_⟩
      have hnil := (h.dry hw).1
      rw [hfifo] at hnil
      cases hnil
    refine hinv.of_sameCalls ⟨rfl, rfl, rfl, rfl, rfl, rfl⟩ rfl (List.append_nil _).symm (by simp [OnlyMoves])
      (stageInv_of_settled hsettled ?_ hrun) hrun
    rintro k r ⟨-, -, -, hnil, -⟩
    rw [hfifo] at hnil
    cases hnil
  | push henabled hroom hbuf =>
    have hrun : ∀ k r, Running s k r → Running s.pushByte k r :=
      fun k r h => h.push (hinv.started k) hroom hbuf
    refine hinv.of_sameCalls ⟨rfl, rfl, rfl, rfl, rfl, rfl⟩ rfl rfl (by simp [OnlyMoves])
      (stageInv_of_settled hsettled ?_ hrun) hrun
    rintro k r ⟨-, -, hoff, -⟩
    rw [henabled] at hoff
    cases hoff
  | command henabled hrd =>
    have hrun : ∀ k r, Running s k r →
        Running { s with
          pending := s.pending + 1
          drv := { s.drv with cmdLen := s.drv.cmdLen + 1 } } k r := by
      intro k r h
      refine ⟨h.loaded, h.moves, h.bound, fun hw => ?_⟩
      have hkind := h.loaded.kind
      rw [hrd, hw] at hkind
      cases hkind
    refine hinv.of_sameCalls ⟨rfl, rfl, rfl, rfl, rfl, rfl⟩ rfl (List.append_nil _).symm (by simp [OnlyMoves])
      (stageInv_of_settled hsettled ?_ hrun) hrun
    rintro k r ⟨-, -, hoff, -⟩
    rw [henabled] at hoff
    cases hoff
  | mask m =>
    have hrun : ∀ k r, Running s k r → Running { s with intrMask := m } k r :=
      fun k r h => ⟨h.loaded, h.moves, h.bound, h.dry⟩
    exact hinv.of_sameCalls ⟨rfl, rfl, rfl, rfl, rfl, rfl⟩ rfl (List.append_nil _).symm (by simp [OnlyMoves])
      (stageInv_of_settled hsettled (fun _ _ h => h) hrun) hrun
  | line =>
    have hrun : ∀ k r, Running s k r → Running { s with irq := false } k r :=
      fun k r h => ⟨h.loaded, h.moves, h.bound, h.dry⟩
    exact hinv.of_sameCalls ⟨rfl, rfl, rfl, rfl, rfl, rfl⟩ rfl (List.append_nil _).symm (by simp [OnlyMoves])
      (stageInv_of_settled hsettled (fun _ _ h => h) hrun) hrun
  | fail => exact hinv.invoke hsettled (fair_fail hinv hsettled)
  | writeOk henabled hwe hdone =>
    refine hinv.invoke hsettled (fair_ok hinv hsettled henabled (Or.inl hwe) ?_)
    intro r hrun hdir
    have hprog : s.drv.msg.progress = s.drv.msg.wcnt := if_neg (by simp [hwe])
    rw [hprog, ← (hrun.loaded.write hdir).2]
    exact hdone
  | readOk henabled hrd hdone =>
    refine hinv.invoke hsettled (fair_ok hinv hsettled henabled hrd ?_)
    intro r hrun hdir
    have hprog : s.drv.msg.progress = s.drv.msg.rcnt := if_pos (hrun.loaded.kind.trans hdir)
    rw [hprog, ← (hrun.loaded.read hdir).2.1]
    exact hdone

theorem handlerStep_pc {s t : State} (hstep : HandlerStep s t) : t.pc = s.pc := by
  cases hstep with
  | fail | writeOk | readOk =>
    unfold State.invoke
    split <;> rfl
  | _ => rfl

theorem Inv.handlerRun {s t : State} (hinv : Inv s) (hsettled : Settled s)
    (hrun : HandlerRun s t) : Inv t := by
  suffices h : Inv t ∧ Settled t from h.1
  induction hrun with
  | refl => exact ⟨hinv, hsettled⟩
  | tail _ hstep ih =>
    refine ⟨ih.1.handlerStep ih.2 hstep, ?_⟩
    intro stage k r hpc
    rw [handlerStep_pc hstep] at hpc
    exact ih.2 stage k r hpc

theorem Inv.interrupt {A : Adapter} {s t : State} {raw : BitVec 32} {txflr : ℕ} (hinv : Inv s)
    (hsettled : Settled s) (hfifo : raw &&& icIntrRxFull ≠ 0 → s.rxFifo ≠ [])
    (hstep : i2cInterruptHandle A s raw txflr = some t) : Inv t := by
  refine hinv.handlerRun hsettled (handle_run hfifo ?_ hstep)
  intro f hcb
  obtain ⟨r, -, -, -, hstate⟩ := hinv.current hsettled hcb
  rcases hstate with h | h | ⟨-, -, h⟩
  · exact Or.inr (Or.inl h)
  · cases hread : r.isRead with
    | true => exact Or.inl (h.loaded.kind.trans hread)
    | false => exact Or.inr (Or.inr (h.dry hread).1)
  · exact Or.inr (Or.inr h)

/-! ## Preservation by the controller and the calls -/

theorem Inv.controller {s t : State} (hinv : Inv s) (hsame : SameCalls s t) (hdrv : t.drv = s.drv)
    (hev : t.events = s.events) (hen : t.enabled = s.enabled)
    (hdry : s.rxFifo = [] ∧ s.pending = 0 → t.rxFifo = [] ∧ t.pending = 0) : Inv t := by
  have hmoves : ∀ k, t.movesSince k = s.movesSince k := by
    intro k
    unfold State.movesSince
    rw [hev, hsame.started]
  have hrun : ∀ k r, Running s k r → Running t k r := by
    intro k r h
    refine ⟨hdrv ▸ h.loaded, ?_, hdrv ▸ h.bound, fun hw => hdry (h.dry hw)⟩
    rw [hmoves, hdrv]
    exact h.moves
  refine hinv.of_sameCalls (l := []) hsame (by rw [hdrv]) (by simp [hev]) (by simp [OnlyMoves]) ?_ hrun
  intro stage k r _ h
  cases stage with
  | callback => exact ⟨(hmoves k).trans h.1, hev ▸ h.2⟩
  | message => exact (hmoves k).trans h
  | msgptr | waitIdle => exact ⟨hdrv ▸ h.1, (hmoves k).trans h.2⟩
  | xferInit =>
    obtain ⟨h1, h2, h3, h4⟩ := h
    exact ⟨hdrv ▸ h1, (hmoves k).trans h2, hen.trans h3, hdry h4⟩
  | irqEnable => exact ⟨hrun k r h.1, h.2⟩
  | commands | poll | finish => exact h

theorem Inv.lt_count {s : State} (hinv : Inv s) {k : ℕ} {r : Request}
    (hk : s.requests k = some r) : k < s.count := by
  by_contra hge
  rw [(hinv.fresh k (Nat.le_of_not_lt hge)).1] at hk
  cases hk

theorem Inv.reject {s : State} (hinv : Inv s) (r : Option Request) : Inv (s.reject r) := by
  refine ⟨⟨?_, hinv.started, ?_, hinv.clean⟩, ?_, ?_, ?_⟩
  · intro k hk
    have hne : k ≠ s.count := by
      have : s.count + 1 ≤ k := hk
      omega
    simp only [State.reject, Function.update_of_ne hne]
    exact hinv.fresh k (by
      have : s.count + 1 ≤ k := hk
      omega)
  · intro k r' hreq hres
    by_cases hk : k = s.count
    · subst hk
      exact absurd (Function.update_self ..) hres
    · simp only [State.reject, Function.update_of_ne hk] at hreq hres
      exact hinv.honest k r' hreq hres
  · intro stage k r' hpc
    obtain ⟨h1, h2, h3⟩ := hinv.holder stage k r' hpc
    simp only [State.reject, Function.update_of_ne (hinv.lt_count h1).ne]
    refine ⟨h1, h2, ?_⟩
    cases stage with
    | irqEnable => exact ⟨⟨h3.1.loaded, h3.1.moves, h3.1.bound, h3.1.dry⟩, h3.2⟩
    | _ => exact h3
  · intro stage k r' hpc j
    by_cases hj : j = s.count
    · subst hj
      unfold State.inFlight State.reject
      simp only [Function.update_self]
      cases r with
      | none => rfl
      | some r => simp [bmFail, bmOk]
    · have hold := hinv.quiet stage k r' hpc j
      unfold State.inFlight at hold ⊢
      simp only [State.reject, Function.update_of_ne hj]
      exact hold
  · intro f hf
    obtain ⟨r', h1, h2, h3, h4⟩ := hinv.owner f hf
    have hne := (hinv.lt_count h1).ne
    unfold OwnerState at h4 ⊢
    simp only [State.reject, Function.update_of_ne hne]
    refine ⟨r', h1, h2, h3, ?_⟩
    rcases h4 with h | h | ⟨h5, h6, h7⟩
    · exact Or.inl h
    · exact Or.inr (Or.inl h)
    · exact Or.inr (Or.inr ⟨h5, h6, ⟨h7.loaded, h7.moves, h7.bound, h7.dry⟩⟩)

theorem Inv.enter {s : State} (hinv : Inv s) (hidle : s.pc = .idle)
    (hnone : ∀ j < s.count, s.inFlight j = false) (r : Request) : Inv (s.enter r) := by
  refine ⟨⟨?_, ?_, ?_, hinv.clean⟩, ?_, ?_, ?_⟩
  · intro k hk
    have hlater : s.count + 1 ≤ k := hk
    simp only [State.enter, Function.update_of_ne (Nat.ne_of_gt hlater)]
    exact hinv.fresh k (by omega)
  · intro k
    by_cases hk : k = s.count
    · subst hk
      simp [State.enter]
    · simp only [State.enter, Function.update_of_ne hk]
      exact hinv.started k
  · intro k r' hreq hres
    by_cases hk : k = s.count
    · subst hk
      exact CallbackHonest.of_none (hinv.fresh s.count (Nat.le_refl _)).2.2
    · simp only [State.enter, Function.update_of_ne hk] at hreq hres ⊢
      exact hinv.honest k r' hreq hres
  · intro stage k r' hpc
    simp only [State.enter, Pc.busy.injEq] at hpc
    obtain ⟨rfl, rfl, rfl⟩ := hpc
    obtain ⟨-, hres, hev⟩ := hinv.fresh s.count (Nat.le_refl _)
    have hmoves : (s.enter r).movesSince s.count = [] := by
      unfold State.movesSince State.enter
      simp
    refine ⟨Function.update_self .., hres, ?_⟩
    split
    · exact ⟨hmoves, hev⟩
    · exact hmoves
  · intro stage k r' hpc j
    by_cases hj : j = s.count
    · subst hj
      obtain ⟨-, hres, -⟩ := hinv.fresh s.count (Nat.le_refl _)
      unfold State.inFlight State.enter
      simp [hres]
    · by_cases hlt : j < s.count
      · have hold := hnone j hlt
        unfold State.inFlight at hold ⊢
        simp only [State.enter, Function.update_of_ne hj]
        exact hold
      · have hreq := (hinv.fresh j (Nat.le_of_not_lt hlt)).1
        unfold State.inFlight State.enter
        simp only [Function.update_of_ne hj, hreq]
  · intro f hf
    obtain ⟨r', h1, h2, h3, h4⟩ := hinv.owner f hf
    have hne := (hinv.lt_count h1).ne
    unfold OwnerState at h4 ⊢
    simp only [State.enter, Function.update_of_ne hne]
    refine ⟨r', h1, h2, h3, ?_⟩
    rcases h4 with h | ⟨stage, h⟩ | ⟨h5, h6, h7⟩
    · exact Or.inl h
    · rw [hidle] at h
      cases h
    · have hflight := hnone _ (hinv.lt_count h1)
      unfold State.inFlight at hflight
      rw [h1, h5, any_invokedBy_eq_false.mpr h3] at hflight
      simp [h2, Mode.isAsync] at hflight

theorem Inv.goto {s t : State} {l : List Event} {stage stage' : Stage} {k : ℕ} {r : Request}
    (hinv : Inv s) (hpc : s.pc = .busy stage k r) (hsame : SameCalls s t)
    (hcb : t.drv.callback = s.drv.callback) (hev : t.events = s.events ++ l) (hl : OnlyMoves l)
    (hstage : StageInv (t.goto stage' k r) k r stage') : Inv (t.goto stage' k r) := by
  refine ⟨hinv.grow hsame.count hsame.requests hsame.started hsame.results hev hl, ?_, ?_, ?_⟩
  · intro st i r' hbusy
    cases hbusy
    obtain ⟨h1, h2, -⟩ := hinv.holder stage k r hpc
    exact ⟨hsame.requests ▸ h1, hsame.results ▸ h2, hstage⟩
  · intro _ _ _ _ j
    exact inFlight_grows (s := s) (congrFun hsame.requests j) (congrFun hsame.results j) hev
      (hinv.quiet stage k r hpc j)
  · intro f hf
    obtain ⟨r', h1, h2, h3, h4⟩ := hinv.owner f (hcb ▸ hf)
    simp only [State.goto, OwnerState, hsame.requests, hsame.slotOwner, hsame.results, hev]
    refine ⟨r', h1, h2, h3.append (hl.noneInvoked _), ?_⟩
    rcases h4 with h | ⟨st, h⟩ | ⟨-, h, -⟩
    · exact Or.inl h
    · rw [hpc] at h
      cases h
      exact Or.inr (Or.inl ⟨stage', rfl⟩)
    · rw [hpc] at h
      cases h

theorem Inv.ret {s t : State} {stage : Stage} {k : ℕ} {r : Request} {v : ℤ} (hinv : Inv s)
    (hpc : s.pc = .busy stage k r) (hsame : SameCalls s t)
    (hcb : t.drv.callback = s.drv.callback) (hev : t.events = s.events)
    (hval : v = bmFail ∨ r.mode = .sync ∨ (v = bmOk ∧ Running t k r)) : Inv (t.ret k v) := by
  obtain ⟨hreq, hnone, -⟩ := hinv.holder stage k r hpc
  have hresults : ∀ j, j ≠ k → (t.ret k v).results j = s.results j := by
    intro j hj
    simp only [State.ret, Function.update_of_ne hj, hsame.results]
  refine ⟨⟨?_, ?_, ?_, ?_⟩, ?_, ?_, ?_⟩
  · intro j hj
    have hj' : s.count ≤ j := hsame.count ▸ hj
    have hne : j ≠ k := fun h => by
      have := hinv.lt_count hreq
      omega
    rw [hresults j hne]
    simp only [State.ret, hsame.requests, hev]
    exact hinv.fresh j hj'
  · intro j
    simp only [State.ret, hsame.started, hev]
    exact hinv.started j
  · intro j r' hreq' hres'
    simp only [State.ret, hsame.requests] at hreq'
    simp only [State.ret, hsame.started, hev]
    refine hinv.honest j r' hreq' ?_
    by_cases hj : j = k
    · subst hj
      rw [hnone]
      simp
    · rw [hresults j hj] at hres'
      exact hres'
  · intro i j hmem
    simp only [State.ret, hev] at hmem
    exact hinv.clean i j hmem
  · intro st i r' hbusy
    cases hbusy
  · intro st i r' hbusy
    cases hbusy
  · intro f hf
    obtain ⟨r', h1, h2, h3, h4⟩ := hinv.owner f (hcb ▸ hf)
    have howner : (t.ret k v).slotOwner = s.slotOwner := hsame.slotOwner
    rw [howner]
    refine ⟨r', hsame.requests ▸ h1, h2, hev ▸ h3, ?_⟩
    unfold OwnerState
    rw [howner]
    rcases h4 with h | ⟨st, h⟩ | ⟨-, h, -⟩
    · have hne : s.slotOwner ≠ k := by
        rintro heq
        rw [heq, hnone] at h
        cases h
      exact Or.inl ((hresults _ hne).trans h)
    · rw [hpc] at h
      cases h
      have hself : (t.ret s.slotOwner v).results s.slotOwner = some v := Function.update_self ..
      rcases hval with rfl | hsync | ⟨rfl, hrun⟩
      · exact Or.inl hself
      · rw [hsync] at h2
        cases h2
      · exact Or.inr (Or.inr ⟨hself, rfl, ⟨hrun.loaded, hrun.moves, hrun.bound, hrun.dry⟩⟩)
    · rw [hpc] at h
      cases h

theorem onlyMoves_nil : OnlyMoves [] :=
  fun _ he => absurd he List.not_mem_nil

theorem loaded_fillMessage (r : Request) (msg : Kmsg) : Loaded (fillMessage r msg) r := by
  unfold fillMessage
  constructor
  · split <;> simp_all [Kmsg.isRd, i2cKmsgRd, i2cKmsgWe]
  · intro hread
    rw [hread]
    cases r.mode <;> exact ⟨rfl, rfl, rfl⟩
  · intro hwrite
    rw [hwrite]
    cases r.mode <;> exact ⟨rfl, rfl⟩

theorem pollRound_spec (s : State) (cnt : ℕ) (ready : Bool) :
    SameCalls s (pollRound s cnt ready).1 ∧
      (pollRound s cnt ready).1.drv.callback = s.drv.callback ∧
      ∃ l, (pollRound s cnt ready).1.events = s.events ++ l ∧ OnlyMoves l := by
  have hstay : ∃ l, s.events = s.events ++ l ∧ OnlyMoves l :=
    ⟨[], (List.append_nil _).symm, onlyMoves_nil⟩
  have hmove : ∀ d addr byte, ∃ l, s.events ++ [.moved d addr byte] = s.events ++ l ∧
      OnlyMoves l := by
    intro d addr byte
    refine ⟨_, rfl, ?_⟩
    simp [OnlyMoves]
  unfold pollRound
  split
  · split
    · exact ⟨⟨rfl, rfl, rfl, rfl, rfl, rfl⟩, rfl, hstay⟩
    · dsimp only
      split
      · exact ⟨⟨rfl, rfl, rfl, rfl, rfl, rfl⟩, rfl, hmove _ _ _⟩
      · exact ⟨⟨rfl, rfl, rfl, rfl, rfl, rfl⟩, rfl, hmove _ _ _⟩
  · split
    · exact ⟨⟨rfl, rfl, rfl, rfl, rfl, rfl⟩, rfl, hmove _ _ _⟩
    · exact ⟨⟨rfl, rfl, rfl, rfl, rfl, rfl⟩, rfl, hstay⟩

theorem Inv.setCallback {s : State} {k : ℕ} {r : Request} {callback : Option ℕ} (hinv : Inv s)
    (hpc : s.pc = .busy .callback k r) (hmode : r.mode = .async callback) :
    Inv ({ s with drv := { s.drv with callback := callback }, slotOwner := k }.goto
      .message k r) := by
  obtain ⟨hreq, hres, hmoves, hnone⟩ := hinv.holder .callback k r hpc
  refine ⟨hinv.toLedger.grow (l := []) rfl rfl rfl rfl (List.append_nil _).symm onlyMoves_nil,
    ?_, ?_, ?_⟩
  · intro st i r' hbusy
    cases hbusy
    exact ⟨hreq, hres, hmoves⟩
  · intro _ _ _ _ j
    exact hinv.quiet .callback k r hpc j
  · intro f hf
    have hcb : callback = some f := hf
    exact ⟨r, hreq, hcb ▸ hmode, hnone, Or.inr (Or.inl ⟨.message, rfl⟩)⟩

theorem running_xferInit {s : State} {k : ℕ} {r : Request} (h : StageInv s k r .xferInit)
    (stage : Stage) :
    Running ({ s with
      drv := { s.drv with msg := { s.drv.msg with rcnt := 0, wcnt := 0 }, cmdLen := 0 }
      intrMask := 0
      enabled := true }.goto stage k r) k r := by
  obtain ⟨hloaded, hmoves, -, hfifo, hpend⟩ := h
  have hprog : Kmsg.progress { s.drv.msg with rcnt := 0, wcnt := 0 } = 0 := by
    unfold Kmsg.progress
    split <;> rfl
  refine ⟨⟨hloaded.kind, hloaded.read, hloaded.write⟩, ?_, ?_, fun _ => ⟨hfifo, hpend⟩⟩
  · refine Eq.trans hmoves ?_
    simp only [State.goto, hprog]
    rfl
  · simp only [State.goto, hprog]
    exact Nat.zero_le _

theorem Inv.advance {A : Adapter} {s : State} {stage : Stage} {k : ℕ} {r : Request}
    (hinv : Inv s) (hpc : s.pc = .busy stage k r) (hw hw' : Bool) :
    Inv (advance A s k r hw hw' stage) := by
  obtain ⟨hreq, hres, hstage⟩ := hinv.holder stage k r hpc
  have hsame : SameCalls s s := ⟨rfl, rfl, rfl, rfl, rfl, rfl⟩
  have hnil : s.events = s.events ++ [] := (List.append_nil _).symm
  cases stage with
  | callback =>
    unfold I2cAsync.advance
    cases hmode : r.mode with
    | async callback => exact hinv.setCallback hpc hmode
    | sync => exact hinv.goto hpc hsame rfl hnil onlyMoves_nil hstage.1
  | message =>
    exact hinv.goto hpc ⟨rfl, rfl, rfl, rfl, rfl, rfl⟩ rfl hnil onlyMoves_nil
      ⟨loaded_fillMessage r s.drv.msg, hstage⟩
  | msgptr =>
    simp only [I2cAsync.advance]
    generalize (if s.drv.msg.flags &&& i2cKmsgTen ≠ 0 then i2c10bitMaxAddr
      else i2c7bitMaxAddr) = maxAddress
    split
    · exact hinv.ret hpc hsame rfl rfl (Or.inl rfl)
    · exact hinv.goto hpc ⟨rfl, rfl, rfl, rfl, rfl, rfl⟩ rfl hnil onlyMoves_nil hstage
  | waitIdle =>
    unfold I2cAsync.advance
    cases hw with
    | true =>
      simp only [if_true]
      split
      · exact hinv.ret hpc hsame rfl rfl (Or.inl rfl)
      · exact hinv.ret hpc ⟨rfl, rfl, rfl, rfl, rfl, rfl⟩ rfl rfl (Or.inl rfl)
    | false =>
      exact hinv.goto hpc ⟨rfl, rfl, rfl, rfl, rfl, rfl⟩ rfl hnil onlyMoves_nil
        ⟨hstage.1, hstage.2, rfl, rfl, rfl⟩
  | xferInit =>
    unfold I2cAsync.advance
    dsimp only
    refine hinv.goto hpc ⟨rfl, rfl, rfl, rfl, rfl, rfl⟩ rfl hnil onlyMoves_nil ?_
    cases hmode : r.mode with
    | async callback => exact ⟨running_xferInit hstage .irqEnable, by rw [hmode]; rfl⟩
    | sync =>
      simp only [Mode.isAsync, Bool.false_eq_true, if_false]
      split
      · exact hmode
      · exact hmode
  | irqEnable =>
    have hrun := hstage.1
    exact hinv.ret hpc ⟨rfl, rfl, rfl, rfl, rfl, rfl⟩ rfl rfl
      (Or.inr (Or.inr ⟨rfl, ⟨hrun.loaded, hrun.moves, hrun.bound, hrun.dry⟩⟩))
  | commands =>
    exact hinv.goto hpc ⟨rfl, rfl, rfl, rfl, rfl, rfl⟩ rfl hnil onlyMoves_nil hstage
  | poll cnt =>
    simp only [I2cAsync.advance]
    split
    · exact hinv.goto hpc hsame rfl hnil onlyMoves_nil hstage
    · obtain ⟨hcalls, hcb, l, hev, hl⟩ := pollRound_spec s cnt hw
      split
      · exact hinv.goto hpc hcalls hcb hev hl hstage
      · exact hinv.goto hpc ⟨hcalls.pc, hcalls.count, hcalls.requests, hcalls.started,
          hcalls.results, hcalls.slotOwner⟩ hcb hev hl hstage
  | finish timeOut =>
    simp only [I2cAsync.advance]
    generalize (if s.drv.msg.isRd then !hw' else hw') = leave
    split
    · exact hinv.goto hpc hsame rfl hnil onlyMoves_nil hstage
    · exact hinv.ret hpc ⟨rfl, rfl, rfl, rfl, rfl, rfl⟩ rfl rfl (Or.inr (Or.inl hstage))

theorem noting_eq {s : State} (hquiet : ∀ j, s.inFlight j = false) (k : ℕ) (t : State) :
    s.noting k t = t := by
  unfold State.noting
  split
  · rfl
  · have hfilter : (List.range s.count).filter s.inFlight = [] := by
      rw [List.filter_eq_nil_iff]
      intro j _
      simp [hquiet j]
    rw [hfilter, List.map_nil, List.append_nil]

theorem Inv.next {B : I2cBoard} {A : Adapter} {s t : State} {a : Label} (hinv : Inv s)
    (hcalm : Calm B s a) (hstep : next B A s a = some t) : Inv t := by
  cases a with
  | call r sem =>
    cases r with
    | none =>
      obtain rfl := Option.some.inj hstep
      exact hinv.reject none
    | some r =>
      unfold I2cAsync.next at hstep
      dsimp only at hstep
      split at hstep
      · cases hstep
      split at hstep
      next hadm =>
        split at hstep
        next hidle =>
          obtain rfl := Option.some.inj hstep
          exact hinv.enter hidle (hcalm hadm) r
        next => cases hstep
      next =>
        obtain rfl := Option.some.inj hstep
        exact hinv.reject (some r)
  | advance hw hw' =>
    unfold I2cAsync.next at hstep
    dsimp only at hstep
    split at hstep
    next => cases hstep
    next stage k r hpc =>
      obtain rfl := Option.some.inj hstep
      rw [noting_eq (hinv.quiet stage k r hpc)]
      exact hinv.advance hpc hw hw'
  | interrupt raw txflr =>
    unfold I2cAsync.next at hstep
    dsimp only at hstep
    split at hstep
    next hon =>
      refine hinv.interrupt ?_ hon.2 hstep
      intro stage k r hpc
      simp only [Calm, hpc] at hcalm
      exact hcalm
    next => cases hstep
  | arrive byte =>
    unfold I2cAsync.next at hstep
    dsimp only at hstep
    split at hstep
    next hpend =>
      obtain rfl := Option.some.inj hstep
      refine hinv.controller ⟨rfl, rfl, rfl, rfl, rfl, rfl⟩ rfl rfl rfl ?_
      rintro ⟨-, hzero⟩
      omega
    next => cases hstep
  | abort =>
    obtain rfl := Option.some.inj hstep
    exact hinv.controller ⟨rfl, rfl, rfl, rfl, rfl, rfl⟩ rfl rfl rfl (fun h => ⟨h.1, rfl⟩)
  | store addr byte =>
    obtain rfl := Option.some.inj hstep
    exact hinv.controller ⟨rfl, rfl, rfl, rfl, rfl, rfl⟩ rfl rfl rfl id

/-- In every state of a run whose calls are admitted only while nothing is in
flight, and whose interrupts do not fall into the stores of a call, a refused call
has left the transfer in flight alone and the callbacks keep their promise. -/
theorem calm_callbacks_honest {B : I2cBoard} {A : Adapter} {s : State}
    (hreach : ((i2cSystem B A).restrict (Calm B)).Reachable s) : Honest s := by
  suffices hinv : Inv s from hinv.honest_state
  refine hreach.invariant (P := Inv) ?_ ?_
  · rintro s ⟨mem, rfl⟩
    exact inv_initial mem
  · rintro s a t - hinv ⟨hcalm, hstep⟩
    exact hinv.next hcalm hstep

def adapter0 : Adapter := ⟨0, 64, 64⟩

def readTwo : Request := ⟨⟨0, 0x50, 0x1000, 2⟩, 0, true, .async (some 7)⟩

def writeThree : Request := ⟨⟨0, 0x50, 0x2000, 3⟩, 0, false, .async (some 9)⟩

def start : State := initial fun _ => 0

def startLabels (r : Request) : List Label :=
  .call (some r) true :: List.replicate 6 (.advance false false)

def calmLabels : List Label :=
  startLabels readTwo ++
    [Label.interrupt icIntrTxEmpty 0, .arrive 0xAB, .arrive 0xCD, .interrupt icIntrRxFull 0] ++
    startLabels writeThree ++ [Label.interrupt icIntrTxEmpty 0]

def afterCalm : State :=
  (runSteps (guarded (Calm openI2c) (next openI2c adapter0)) start calmLabels).get
    (by decide +kernel)

theorem afterCalm_reachable :
    ((i2cSystem openI2c adapter0).restrict (Calm openI2c)).Reachable afterCalm := by
  have hstart : ((i2cSystem openI2c adapter0).restrict (Calm openI2c)).Reachable start :=
    Reachable.init ⟨_, rfl⟩
  exact hstart.runGuarded (l := calmLabels) (Option.some_get _).symm

theorem calm_callbacks_honest_two_requests :
    Honest afterCalm ∧ afterCalm.mem 0x1001 = 0xCD ∧
      afterCalm.events.filterMap (fun e => if e.move?.isSome then none else some e) =
        [.invoked 0 7 .readOk, .invoked 1 9 .writeOk] := by
  refine ⟨calm_callbacks_honest afterCalm_reachable, ?_, ?_⟩
  · decide +kernel
  · decide +kernel

def busyLabels : List Label :=
  startLabels readTwo ++ [Label.interrupt icIntrTxEmpty 0, .call (some writeThree) true] ++
    List.replicate 4 (Label.advance true false)

def afterBusy : State :=
  (runSteps (next openI2c adapter0) start busyLabels).get (by decide +kernel)

/-- The refused write has replaced the callback and the message of the read. -/
theorem refused_call_overwrites :
    (i2cSystem openI2c adapter0).Reachable afterBusy ∧ ¬ Honest afterBusy ∧
      afterBusy.inFlight 0 = true ∧ afterBusy.results 1 = some bmFail ∧
      afterBusy.drv.callback = some 9 ∧ afterBusy.drv.msg.rbuf = 0 := by
  have hstart : (i2cSystem openI2c adapter0).Reachable start := Reachable.init ⟨_, rfl⟩
  refine ⟨hstart.runSteps (l := busyLabels) (Option.some_get _).symm, ?_, ?_, ?_, ?_, ?_⟩
  · intro hhonest
    have hmem : .overwritten 1 0 ∈ afterBusy.events := by decide +kernel
    have hfail : afterBusy.results 1 = some bmFail := by decide +kernel
    exact hhonest.refused 1 0 hmem hfail
  · decide +kernel
  · decide +kernel
  · decide +kernel
  · decide +kernel

end HiMpu.I2cAsync
