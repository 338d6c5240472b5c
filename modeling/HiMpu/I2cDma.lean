import HiMpu.DmacAsync

/-!
# DMA transfers of the I2C driver

`bm_i2c_write_dma` and `bm_i2c_read_dma` of `drivers/i2c/i2c.c` over the DMA
driver.  The adapter and the direction of a transfer are coded in its DMA request
number; the completion function decodes them again.  The decoding forgets that
the second group of adapters begins at adapter 2.
-/

namespace HiMpu.I2cDma

open Dmac

def i2cIdButt : ℕ := 16
def i2c7bitMaxAddr : ℕ := 0x7F
def icrDataCmd : ℕ := 0x10
def dmacReqSelI2c0Tx : ℕ := 2
def dmacReqSelI2c0Rx : ℕ := 3
def dmacReqSelI2c1Rx : ℕ := 5
def dmacReqSelI2c2Tx : ℕ := 12
def dmacReqSelI2c2Rx : ℕ := 13
def isOdd : ℕ := 2
def icDmaCrRdmae : BitVec 32 := 1
def icDmaCrTdmae : BitVec 32 := 2

def regbase : List ℕ :=
  [0x8707000, 0x8708000, 0x8709000, 0x870a000, 0x870b000, 0x870c000, 0x870d000, 0x870e000,
    0x8750000, 0x8751000, 0x8752000, 0x8753000, 0x8754000, 0x8755000, 0x8756000, 0x8757000]

inductive Peripheral where
  | spi (id : ℕ)
  | i2c (id : ℕ)
  | uart (id : ℕ)
deriving DecidableEq

/-- The peripherals of `bm_dmac_req` in its order.  Each has two request numbers,
for transmission and for reception. -/
def peripherals : List Peripheral :=
  [.spi 0, .i2c 0, .i2c 1, .uart 2, .uart 3, .uart 4, .i2c 2, .i2c 3, .i2c 4, .i2c 5, .i2c 6,
    .i2c 7, .i2c 8, .i2c 9, .i2c 10, .i2c 11, .i2c 12, .i2c 13, .i2c 14, .i2c 15, .uart 0,
    .uart 1, .uart 5, .uart 6, .uart 7, .spi 1]

def reqMeaning (req : ℕ) : Option (Peripheral × Bool) :=
  (peripherals[req / 2]?).map fun p => (p, req % 2 = 1)

def i2cDmaGetDmacReq (id : ℕ) (isRead : Bool) : ℕ :=
  if id ≤ 1 then
    if isRead then dmacReqSelI2c0Rx + id * isOdd else dmacReqSelI2c0Tx + id * isOdd
  else
    if isRead then dmacReqSelI2c2Rx + (id - isOdd) * isOdd
    else dmacReqSelI2c2Tx + (id - isOdd) * isOdd

def i2cDmaGetIdFromReq (req : ℕ) : ℕ :=
  if req ≤ dmacReqSelI2c1Rx then (req + 2 ^ 32 - dmacReqSelI2c0Tx) % 2 ^ 32 / isOdd
  else (req + 2 ^ 32 - dmacReqSelI2c2Tx) % 2 ^ 32 / isOdd

theorem reqMeaning_getDmacReq {id : ℕ} (hid : id < i2cIdButt) (isRead : Bool) :
    reqMeaning (i2cDmaGetDmacReq id isRead) = some (.i2c id, isRead) := by
  unfold i2cIdButt at hid
  interval_cases id <;> cases isRead <;> rfl

theorem getIdFromReq_getDmacReq {id : ℕ} (hid : id < i2cIdButt) (isRead : Bool) :
    i2cDmaGetIdFromReq (i2cDmaGetDmacReq id isRead) = if id ≤ 1 then id else id - 2 := by
  unfold i2cIdButt at hid
  interval_cases id <;> cases isRead <;> rfl

structure I2cBoard extends Board where
  i2cExist : ℕ → Bool
  initFlag : ℕ → Bool

structure I2cXferInfo where
  i2cId : ℕ
  addr : ℕ
  buffer : ℕ
  length : ℕ

def i2cCheckXferInfo (B : I2cBoard) : Option I2cXferInfo → ℤ
  | none => bmFail
  | some info =>
    if info.addr = 0 ∨ info.length = 0 ∨ info.buffer = 0 ∨ i2cIdButt ≤ info.i2cId ∨
        B.invalidAddrLen info.buffer info.length then bmFail
    else if !B.i2cExist info.i2cId then bmFail
    else if i2c7bitMaxAddr < info.addr then bmFail
    else bmOk

inductive I2cTransmit where
  | writeOk
  | writeFail
  | readOk
  | readFail
deriving DecidableEq

inductive Event where
  /-- A write of 0 to `ICR_DMA_CR` of an adapter. -/
  | dmaCrCleared (id : ℕ)
  | callback (f id : ℕ) (state : I2cTransmit)
deriving DecidableEq

inductive AdapterPc where
  | idle
  | registered (info : I2cXferInfo) (isRead : Bool)
  | submitted (k : ℕ) (isRead : Bool)

structure State where
  dma : Dmac.State
  txCallback : ℕ → Option ℕ
  rxCallback : ℕ → Option ℕ
  dmaCr : ℕ → BitVec 32
  pc : ℕ → AdapterPc
  events : List Event

def finishFunc : ℕ := 1

def dmaCfg (info : I2cXferInfo) (isRead : Bool) : ChannelCfg :=
  let fifo := regbase.getD info.i2cId 0 + icrDataCmd
  let req := i2cDmaGetDmacReq info.i2cId isRead
  if isRead then ⟨req, fifo, info.buffer, info.length, .p2m⟩
  else ⟨req, info.buffer, fifo, info.length, .m2p⟩

def dmaRequest (info : I2cXferInfo) (isRead : Bool) : Request :=
  ⟨some (dmaCfg info isRead), .async (some finishFunc)⟩

def finishState (isRead : Bool) (status : ℤ) : I2cTransmit :=
  if isRead then (if status ≠ dmacTransmitOk then .readFail else .readOk)
  else (if status ≠ dmacTransmitOk then .writeFail else .writeOk)

def State.callbackOf (s : State) (id : ℕ) (isRead : Bool) : Option ℕ :=
  if isRead then s.rxCallback id else s.txCallback id

def State.complete (s : State) (id : ℕ) (isRead : Bool) (status : ℤ) : State :=
  let called :=
    match s.callbackOf id isRead with
    | some f => [.callback f id (finishState isRead status)]
    | none => []
  { s with
    dmaCr := Function.update s.dmaCr id 0
    events := s.events ++ .dmaCrCleared id :: called }

def i2cDmaFinishFunc (s : State) (req : ℕ) (status : ℤ) : State :=
  s.complete (i2cDmaGetIdFromReq req) (decide (req % isOdd ≠ 0)) status

def runInvocation (s : State) (inv : Invocation) : State :=
  if inv.callback = finishFunc then i2cDmaFinishFunc s inv.req inv.status else s

inductive Label where
  /-- The checks of `bm_i2c_write_dma` and `bm_i2c_read_dma`, the semaphore and
  the registration of the callback. -/
  | register (info : Option I2cXferInfo) (isRead : Bool) (callback : Option ℕ)
  | submit (id : ℕ) (enabled : Bool)
  | dma (a : Dmac.Label)
  | interrupt
  /-- The DMA call has returned: `ICR_DMA_CR` and the semaphore. -/
  | conclude (id : ℕ)

def State.invocations (s : State) : List Invocation :=
  (bmDmacInterruptHandle { s.dma.dev with invoked := [] }).invoked

def next (B : I2cBoard) (s : State) : Label → Option State
  | .register info isRead callback =>
    match info with
    | none => none
    | some x =>
      if i2cCheckXferInfo B info = bmOk ∧ B.initFlag x.i2cId then
        match s.pc x.i2cId with
        | .idle =>
          let pc := Function.update s.pc x.i2cId (.registered x isRead)
          if isRead then
            some { s with pc := pc, rxCallback := Function.update s.rxCallback x.i2cId callback }
          else
            some { s with pc := pc, txCallback := Function.update s.txCallback x.i2cId callback }
        | _ => none
      else none
  | .submit id enabled =>
    match s.pc id with
    | .registered info isRead =>
      (Dmac.next B.toBoard s.dma (.enter (dmaRequest info isRead) enabled)).map fun dma =>
        { s with
          dma := dma
          pc := Function.update s.pc id (.submitted s.dma.count isRead) }
    | _ => none
  | .dma a =>
    match a with
    | .enter _ _ => none
    | .interrupt => none
    | a => (Dmac.next B.toBoard s.dma a).map fun dma => { s with dma := dma }
  | .interrupt =>
    let dev := bmDmacInterruptHandle { s.dma.dev with invoked := [] }
    let s' := { s with dma := { s.dma with dev := dev } }
    some (dev.invoked.foldl runInvocation s')
  | .conclude id =>
    match s.pc id with
    | .submitted k isRead =>
      match s.dma.calls k with
      | .returned ret =>
        let val := s.dmaCr id ||| icDmaCrTdmae
        let val := if isRead then val ||| icDmaCrRdmae else val
        let dmaCr := if ret = bmOk then Function.update s.dmaCr id val else s.dmaCr
        some { s with dmaCr := dmaCr, pc := Function.update s.pc id .idle }
      | _ => none
    | _ => none

def initial : State where
  dma := Dmac.start
  txCallback := fun _ => none
  rxCallback := fun _ => none
  dmaCr := fun _ => 0
  pc := fun _ => .idle
  events := []

def i2cDmaSystem (B : I2cBoard) : TransitionSystem State Label :=
  TransitionSystem.ofStep (· = initial) (next B)

def I2cRequest (B : I2cBoard) (r : Request) : Prop :=
  ∃ info isRead, r = dmaRequest info isRead ∧ info.i2cId < i2cIdButt ∧
    B.i2cExist info.i2cId = true

structure InFlight (B : I2cBoard) (s : State) : Prop where
  linked : Dmac.Linked s.dma
  requests : ∀ k r, s.dma.requests k = some r → I2cRequest B r
  registered : ∀ id info isRead, s.pc id = .registered info isRead →
    info.i2cId < i2cIdButt ∧ B.i2cExist info.i2cId = true

theorem check_ok {B : I2cBoard} {x : I2cXferInfo} (hok : i2cCheckXferInfo B (some x) = bmOk) :
    x.i2cId < i2cIdButt ∧ B.i2cExist x.i2cId = true := by
  simp only [i2cCheckXferInfo] at hok
  split at hok
  · cases hok
  next hrange =>
    split at hok
    · cases hok
    next hexist =>
      refine ⟨?_, by simpa using hexist⟩
      by_contra hle
      exact hrange (Or.inr (Or.inr (Or.inr (Or.inl (Nat.le_of_not_lt hle)))))

theorem runInvocation_dma (s : State) (inv : Invocation) :
    (runInvocation s inv).dma = s.dma ∧ (runInvocation s inv).pc = s.pc := by
  unfold runInvocation i2cDmaFinishFunc State.complete
  split <;> exact ⟨rfl, rfl⟩

theorem foldl_runInvocation_dma (l : List Invocation) (s : State) :
    (l.foldl runInvocation s).dma = s.dma ∧ (l.foldl runInvocation s).pc = s.pc := by
  induction l generalizing s with
  | nil => exact ⟨rfl, rfl⟩
  | cons inv l ih =>
    obtain ⟨h1, h2⟩ := ih (runInvocation s inv)
    obtain ⟨h3, h4⟩ := runInvocation_dma s inv
    exact ⟨h1.trans h3, h2.trans h4⟩

namespace InFlight

variable {B : I2cBoard} {s t : State}

theorem dmaStep (hinv : InFlight B s) {a : Dmac.Label} {dma : Dmac.State}
    (ha : ∀ r enabled, a ≠ .enter r enabled) (hstep : Dmac.next B.toBoard s.dma a = some dma) :
    InFlight B { s with dma := dma } := by
  have hmove := move_of_next hstep
  have hreqs : dma.requests = s.dma.requests := by
    cases hmove with
    | enter _ => exact absurd rfl (ha _ _)
    | _ => rfl
  refine ⟨hinv.linked.move (fun r enabled h => absurd h (ha r enabled)) hmove, ?_,
    hinv.registered⟩
  intro k r hr
  exact hinv.requests k r (hreqs ▸ hr)

theorem register (hinv : InFlight B s) {x : I2cXferInfo} {isRead : Bool} {tx rx : ℕ → Option ℕ}
    (hok : i2cCheckXferInfo B (some x) = bmOk) :
    InFlight B { s with
      pc := Function.update s.pc x.i2cId (.registered x isRead)
      txCallback := tx
      rxCallback := rx } := by
  refine ⟨hinv.linked, hinv.requests, ?_⟩
  intro id info d hid
  simp only at hid
  by_cases hne : id = x.i2cId
  · subst hne
    rw [Function.update_self] at hid
    cases hid
    exact check_ok hok
  · rw [Function.update_of_ne hne] at hid
    exact hinv.registered id info d hid

theorem submit (hinv : InFlight B s) {id k : ℕ} {info : I2cXferInfo} {isRead enabled : Bool}
    {dma : Dmac.State} (hpc : s.pc id = .registered info isRead)
    (hstep : Dmac.next B.toBoard s.dma (.enter (dmaRequest info isRead) enabled) = some dma) :
    InFlight B { s with dma := dma, pc := Function.update s.pc id (.submitted k isRead) } := by
  have hlinked : Dmac.Linked dma := hinv.linked.move (fun r e h => by
    cases h
    exact ⟨_, rfl⟩) (move_of_next hstep)
  refine ⟨hlinked, ?_, ?_⟩
  · intro l r hr
    unfold Dmac.next at hstep
    cases hstep
    simp only [goto_requests] at hr
    by_cases hl : l = s.dma.count
    · subst hl
      rw [Function.update_self] at hr
      obtain rfl := Option.some.inj hr
      exact ⟨info, isRead, rfl, hinv.registered id info isRead hpc⟩
    · rw [Function.update_of_ne hl] at hr
      exact hinv.requests l r hr
  · intro id' info' d hid
    simp only at hid
    by_cases hne : id' = id
    · subst hne
      rw [Function.update_self] at hid
      cases hid
    · rw [Function.update_of_ne hne] at hid
      exact hinv.registered id' info' d hid

theorem interrupt (hinv : InFlight B s) {t : State}
    (hdma : t.dma = { s.dma with dev := bmDmacInterruptHandle { s.dma.dev with invoked := [] } })
    (hpc : t.pc = s.pc) : InFlight B t := by
  have hreset : Dmac.Linked { s.dma with dev := { s.dma.dev with invoked := [] } } :=
    hinv.linked.frame rfl hinv.linked.fresh (fun _ _ h => h) (fun _ _ h => h) (fun _ _ _ h => h)
      hinv.linked.flagged rfl rfl rfl rfl rfl rfl
  refine ⟨?_, ?_, ?_⟩
  · rw [hdma]
    exact hreset.interrupt
  · intro k r hr
    rw [hdma] at hr
    exact hinv.requests k r hr
  · intro id info d hid
    rw [hpc] at hid
    exact hinv.registered id info d hid

theorem conclude (hinv : InFlight B s) {id : ℕ} {dmaCr : ℕ → BitVec 32} :
    InFlight B { s with dmaCr := dmaCr, pc := Function.update s.pc id .idle } := by
  refine ⟨hinv.linked, hinv.requests, ?_⟩
  intro id' info d hid
  simp only at hid
  by_cases hne : id' = id
  · subst hne
    rw [Function.update_self] at hid
    cases hid
  · rw [Function.update_of_ne hne] at hid
    exact hinv.registered id' info d hid

theorem step {a : Label} (hinv : InFlight B s) (hstep : next B s a = some t) : InFlight B t := by
  cases a with
  | register info isRead callback =>
    cases info with
    | none => cases hstep
    | some x =>
      simp only [next] at hstep
      split at hstep
      next hok =>
        cases hpc : s.pc x.i2cId with
        | idle =>
          simp only [hpc] at hstep
          split at hstep
          · cases hstep
            exact hinv.register hok.1
          · cases hstep
            exact hinv.register hok.1
        | registered info d => simp [hpc] at hstep
        | submitted k d => simp [hpc] at hstep
      next => cases hstep
  | submit id enabled =>
    simp only [next] at hstep
    cases hpc : s.pc id with
    | registered info isRead =>
      simp only [hpc] at hstep
      obtain ⟨dma, hdma, rfl⟩ := Option.map_eq_some_iff.mp hstep
      exact hinv.submit hpc hdma
    | idle => simp [hpc] at hstep
    | submitted k d => simp [hpc] at hstep
  | dma a =>
    simp only [next] at hstep
    cases a with
    | enter r enabled => cases hstep
    | interrupt => cases hstep
    | _ =>
      obtain ⟨dma, hdma, rfl⟩ := Option.map_eq_some_iff.mp hstep
      exact hinv.dmaStep (fun _ _ => by simp) hdma
  | interrupt =>
    cases hstep
    obtain ⟨h1, h2⟩ := foldl_runInvocation_dma _ _
    exact hinv.interrupt h1 h2
  | conclude id =>
    simp only [next] at hstep
    cases hpc : s.pc id with
    | submitted k isRead =>
      simp only [hpc] at hstep
      cases hcall : s.dma.calls k with
      | returned ret =>
        simp only [hcall] at hstep
        cases hstep
        exact hinv.conclude
      | _ => simp [hcall] at hstep
    | idle => simp [hpc] at hstep
    | registered info d => simp [hpc] at hstep

end InFlight

theorem inFlight_of_reachable {B : I2cBoard} {s : State} (hreach : (i2cDmaSystem B).Reachable s) :
    InFlight B s := by
  apply hreach.invariant
  · rintro s rfl
    refine ⟨linked_start, ?_, ?_⟩
    · intro k r hr
      cases hr
    · intro id info d hid
      cases hid
  · rintro s a t - hinv hstep
    exact hinv.step hstep

def State.completions (s : State) (c : ℕ) : List Invocation :=
  channelInvocations s.dma.dev.intTc s.dma.dev.intErr s.dma.dev c

/-- The completion on a channel clears the DMA control register of an adapter
and calls the callback of that adapter and direction, and does nothing else. -/
def Routed (s : State) (c id : ℕ) (isRead : Bool) : Prop :=
  ∀ t : State, (s.completions c).foldl runInvocation t =
    t.complete id isRead (intStatus (s.dma.dev.intTc c) (s.dma.dev.intErr c))

theorem dmaCrCleared_ne {t : State} {id id' : ℕ} {d d' : Bool} {status : ℤ} (hne : id ≠ id') :
    t.complete id d status ≠ t.complete id' d' status := by
  intro heq
  have hevents := congrArg State.events heq
  unfold State.complete at hevents
  simp only [List.append_cancel_left_eq, List.cons.injEq, Event.dmaCrCleared.injEq] at hevents
  exact hne hevents.1

/-- In every state of every run, a channel with a pending interrupt serves the
transfer that ended on it, and its completion goes to the adapter and direction
of that transfer exactly for the adapters 0 and 1. -/
theorem completion_routed_iff {B : I2cBoard} {s : State} (hreach : (i2cDmaSystem B).Reachable s)
    {c : ℕ} (hpend : ¬ Quiet s.dma.dev c) :
    ∃ k info isRead, s.dma.ended c = some k ∧
      s.dma.requests k = some (dmaRequest info isRead) ∧ info.i2cId < i2cIdButt ∧
      B.i2cExist info.i2cId = true ∧ (Routed s c info.i2cId isRead ↔ info.i2cId ≤ 1) := by
  have hinv := inFlight_of_reachable hreach
  obtain ⟨-, k, -, hended, r, f, hr, htr, hinfo⟩ := hinv.linked.pending c hpend
  obtain ⟨info, isRead, rfl, hid, hexist⟩ := hinv.requests k r hr
  obtain rfl : f = finishFunc := by
    have hsome := Transmit.async.inj htr
    exact (Option.some.inj hsome).symm
  have hreq : reqOf (dmaRequest info isRead) = i2cDmaGetDmacReq info.i2cId isRead := by
    cases isRead <;> rfl
  refine ⟨k, info, isRead, hended, hr, hid, hexist, ?_⟩
  have hbits : (s.dma.dev.intTc c || s.dma.dev.intErr c) = true := by
    by_contra hnot
    simp only [Bool.or_eq_true, not_or, Bool.not_eq_true] at hnot
    exact hpend hnot
  have hlist : s.completions c = [⟨finishFunc, i2cDmaGetDmacReq info.i2cId isRead,
      intStatus (s.dma.dev.intTc c) (s.dma.dev.intErr c)⟩] := by
    unfold State.completions channelInvocations
    rw [hinfo]
    simp only [hbits, if_true, hreq]
  have hparity : decide (i2cDmaGetDmacReq info.i2cId isRead % isOdd ≠ 0) = isRead := by
    have hlt := hid
    unfold i2cIdButt at hlt
    generalize info.i2cId = id at hlt
    interval_cases id <;> cases isRead <;> rfl
  unfold Routed
  rw [hlist]
  simp only [List.foldl_cons, List.foldl_nil, runInvocation, if_true, i2cDmaFinishFunc, hparity,
    getIdFromReq_getDmacReq hid]
  constructor
  · intro hall
    by_contra hbig
    rw [if_neg hbig] at hall
    exact dmaCrCleared_ne (by omega) (hall initial)
  · intro hsmall t
    rw [if_pos hsmall]

def openI2c : I2cBoard :=
  { exist := fun _ => true
    invalidAddrLen := fun _ _ => false
    i2cExist := fun _ => true
    initFlag := fun _ => true }

def writeOn (id : ℕ) : I2cXferInfo := ⟨id, 0x50, 0x1000, 4⟩

def writeLabels (id : ℕ) (callback : ℕ) : List Label :=
  [Label.register (some (writeOn id)) false (some callback), .submit id true] ++
    List.replicate 6 (Label.dma (.advance 0)) ++ [Label.conclude id, .dma (.finish 0 true)]

def afterWrite0 : State :=
  (TransitionSystem.runSteps (next openI2c) initial (writeLabels 0 7)).get (by decide +kernel)

theorem afterWrite0_reachable : (i2cDmaSystem openI2c).Reachable afterWrite0 := by
  have hstart : (i2cDmaSystem openI2c).Reachable initial := TransitionSystem.Reachable.init rfl
  exact hstart.runSteps (l := writeLabels 0 7) (Option.some_get _).symm

theorem write0_routed : Routed afterWrite0 0 0 false := by
  have hpend : ¬ Quiet afterWrite0.dma.dev 0 := by
    rintro ⟨htc, -⟩
    have hset : afterWrite0.dma.dev.intTc 0 = true := by decide +kernel
    rw [hset] at htc
    cases htc
  obtain ⟨k, info, isRead, hended, hreq, hid, -, hiff⟩ :=
    completion_routed_iff afterWrite0_reachable hpend
  have hk : afterWrite0.dma.ended 0 = some 0 := by decide +kernel
  obtain rfl : k = 0 := Option.some.inj (hended.symm.trans hk)
  have hreq' : afterWrite0.dma.requests 0 = some (dmaRequest (writeOn 0) false) := rfl
  have hsame : dmaRequest info isRead = dmaRequest (writeOn 0) false :=
    Option.some.inj (hreq.symm.trans hreq')
  have hmeaning := reqMeaning_getDmacReq hid isRead
  have hnum : i2cDmaGetDmacReq info.i2cId isRead = 2 := by
    have hof := congrArg reqOf hsame
    cases isRead <;> exact hof
  rw [hnum] at hmeaning
  obtain ⟨hzero, rfl⟩ : info.i2cId = 0 ∧ isRead = false := by
    have hval : reqMeaning 2 = some (.i2c 0, false) := rfl
    rw [hval] at hmeaning
    simp only [Option.some.injEq, Prod.mk.injEq, Peripheral.i2c.injEq] at hmeaning
    exact ⟨hmeaning.1.symm, hmeaning.2.symm⟩
  rw [hzero] at hiff
  exact hiff.mpr (by omega)

def afterWrite2 : State :=
  (TransitionSystem.runSteps (next openI2c) initial
    (.register (some (writeOn 0)) false (some 5) :: writeLabels 2 7)).get (by decide +kernel)

/-- The completion of the transfer on adapter 2 clears the control register of
adapter 0 and calls the callback of adapter 0. -/
theorem write2_misrouted :
    (i2cDmaSystem openI2c).Reachable afterWrite2 ∧ ¬ Routed afterWrite2 0 2 false ∧
      afterWrite2.dmaCr 2 = icDmaCrTdmae ∧
      (next openI2c afterWrite2 .interrupt).map (fun s => (s.dmaCr 2, s.events)) =
        some (icDmaCrTdmae, [.dmaCrCleared 0, .callback 5 0 .writeOk]) := by
  have hstart : (i2cDmaSystem openI2c).Reachable initial := TransitionSystem.Reachable.init rfl
  refine ⟨hstart.runSteps (l := .register (some (writeOn 0)) false (some 5) :: writeLabels 2 7)
    (Option.some_get _).symm, ?_, by decide +kernel, by decide +kernel⟩
  intro hrouted
  have hevents := congrArg State.events (hrouted initial)
  have hleft : ((afterWrite2.completions 0).foldl runInvocation initial).events =
      [.dmaCrCleared 0] := by decide +kernel
  rw [hleft] at hevents
  cases hevents

end HiMpu.I2cDma
