import HiMpu.BmTypes
import HiMpu.TransitionSystem

/-!
# The DMA controller driver

`drivers/dma/dmac.c`: sixteen channels, each with a start flag, a callback slot
and the completion flag and status of synchronous transfers.  Calls are modelled
access by access, so that other calls, the interrupt handler and the controller
can come between any two accesses.
-/

namespace HiMpu.Dmac

def dmacChannelCnt : ℕ := 16
def dmacTransmitOk : ℤ := 0
def dmacTransmitFail : ℤ := 1
def dmacReqSelSpi1Rx : ℕ := 51
def bmWaitForever : ℤ := -1

inductive TransferType where
  | m2m
  | m2p
  | p2m
  | butt
deriving DecidableEq

structure ChannelCfg where
  req : ℕ
  srcAddr : ℕ
  destAddr : ℕ
  dataLen : ℕ
  transType : TransferType

def dmaReqAddrList : List ℕ :=
  [0x8713060, 0x8713060, 0x8707010, 0x8707010, 0x8708010, 0x8708010, 0x08710000, 0x08710000,
    0x08711000, 0x08711000, 0x08743000, 0x08743000, 0x8709010, 0x8709010, 0x870a010, 0x870a010,
    0x870b010, 0x870b010, 0x870c010, 0x870c010, 0x870d010, 0x870d010, 0x870e010, 0x870e010,
    0x8750010, 0x8750010, 0x8751010, 0x8751010, 0x8752010, 0x8752010, 0x8753010, 0x8753010,
    0x8754010, 0x8754010, 0x8755010, 0x8755010, 0x8756010, 0x8756010, 0x8757010, 0x8757010,
    0x0872A000, 0x0872A000, 0x0872B000, 0x0872B000, 0x08744000, 0x08744000, 0x0875D000,
    0x0875D000, 0x0875E000, 0x0875E000, 0x8715060, 0x8715060]

/-- What the build and the linker fix: the channels that exist, and the memory
that `is_invalid_addr_len` rejects. -/
structure Board where
  exist : ℕ → Bool
  invalidAddrLen : ℕ → ℕ → Bool

def bmDmacChannelCfgCheck (B : Board) : Option ChannelCfg → ℤ
  | none => bmFail
  | some cfg =>
    if dmacReqSelSpi1Rx < cfg.req then bmFail
    else if cfg.dataLen = 0 then bmFail
    else
      match cfg.transType with
      | .m2p =>
        if dmaReqAddrList.getD cfg.req 0 ≠ cfg.destAddr ∨
            B.invalidAddrLen cfg.srcAddr cfg.dataLen then bmFail
        else bmOk
      | .p2m =>
        if dmaReqAddrList.getD cfg.req 0 ≠ cfg.srcAddr ∨
            B.invalidAddrLen cfg.destAddr cfg.dataLen then bmFail
        else bmOk
      | .m2m =>
        if B.invalidAddrLen cfg.srcAddr cfg.dataLen ∨
            B.invalidAddrLen cfg.destAddr cfg.dataLen then bmFail
        else bmOk
      | .butt => bmFail

inductive Transmit where
  | sync (timeWait : ℤ)
  | async (callback : Option ℕ)

structure Request where
  cfg : Option ChannelCfg
  transmit : Transmit

/-- The checks before a channel is looked for.  `enabled` is the outcome of
`bm_dmac_init_check`. -/
def Request.accepted (B : Board) (r : Request) (enabled : Bool) : Bool :=
  match r.transmit with
  | .sync timeWait =>
    decide (bmDmacChannelCfgCheck B r.cfg = bmOk) && enabled &&
      !decide (timeWait < 0 ∧ timeWait ≠ bmWaitForever)
  | .async callback =>
    decide (bmDmacChannelCfgCheck B r.cfg = bmOk) && callback.isSome && enabled

def udelayCount (timeWait : ℤ) : ℕ :=
  if timeWait = bmWaitForever then 2 ^ 32 - 1 else (timeWait * 1000 % 2 ^ 32).toNat

/-! ## Driver and controller -/

inductive Callback where
  | sync
  | user (f : ℕ)
deriving DecidableEq

structure CallbackInfo where
  req : ℕ
  callback : Option Callback
deriving DecidableEq

structure Invocation where
  callback : ℕ
  req : ℕ
  status : ℤ
deriving DecidableEq

structure Device where
  startFlag : ℕ → Bool
  info : ℕ → CallbackInfo
  completeFlag : ℕ → Bool
  syncStatus : ℕ → ℤ
  running : ℕ → Option ℕ
  /-- `DMAC_INT_TC_1`. -/
  intTc : ℕ → Bool
  /-- `DMAC_INT_ERR_1`. -/
  intErr : ℕ → Bool
  invoked : List Invocation

def dmacTransmitSyncCallback (d : Device) (req : ℕ) (status : ℤ) : Device :=
  { d with
    completeFlag := Function.update d.completeFlag req true
    syncStatus := Function.update d.syncStatus req status }

def invoke (d : Device) (info : CallbackInfo) (status : ℤ) : Callback → Device
  | .sync => dmacTransmitSyncCallback d info.req status
  | .user f => { d with invoked := d.invoked ++ [⟨f, info.req, status⟩] }

def intClean (d : Device) (i : ℕ) : Device :=
  { d with intTc := Function.update d.intTc i false, intErr := Function.update d.intErr i false }

def setInfo (d : Device) (i : ℕ) (info : CallbackInfo) : Device :=
  { d with info := Function.update d.info i info }

def setStartFlag (d : Device) (i : ℕ) (flag : Bool) : Device :=
  { d with startFlag := Function.update d.startFlag i flag }

def intStatus (tc err : Bool) : ℤ :=
  if xor tc err then (if tc then dmacTransmitOk else dmacTransmitFail) else dmacTransmitFail

/-- One turn of the loop of the interrupt handler, with the status words that it
read at its start. -/
def handleChannel (tc err : ℕ → Bool) (d : Device) (i : ℕ) : Device :=
  if tc i || err i then
    let d := intClean d i
    match (d.info i).callback with
    | none => d
    | some callback =>
      let d := invoke d (d.info i) (intStatus (tc i) (err i)) callback
      setInfo d i { d.info i with callback := none }
  else d

def bmDmacInterruptHandle (d : Device) : Device :=
  (List.range dmacChannelCnt).foldl (handleChannel d.intTc d.intErr) d

/-- Where a call stands.  The channel is the one that `find_idle_channel` gave it. -/
inductive Pc where
  | idle
  | entered (r : Request)
  | scanning (r : Request) (busy : ℕ → Bool) (index : ℕ)
  | found (r : Request) (channel : ℕ)
  | configured (r : Request) (channel : ℕ)
  | installed (r : Request) (channel : ℕ)
  | waiting (channel count : ℕ)
  | leaving (channel : ℕ) (ret : ℤ)
  | returned (ret : ℤ)

structure State where
  dev : Device
  /-- The call that holds `g_sem`. -/
  sem : Option ℕ
  calls : ℕ → Pc
  requests : ℕ → Option Request
  count : ℕ
  outcome : ℕ → Option Bool
  ended : ℕ → Option ℕ

def State.goto (s : State) (k : ℕ) (pc : Pc) : State :=
  { s with calls := Function.update s.calls k pc }

@[simp] theorem goto_dev (s : State) (k : ℕ) (pc : Pc) : (s.goto k pc).dev = s.dev := rfl
@[simp] theorem goto_count (s : State) (k : ℕ) (pc : Pc) : (s.goto k pc).count = s.count := rfl
@[simp] theorem goto_requests (s : State) (k : ℕ) (pc : Pc) :
    (s.goto k pc).requests = s.requests := rfl
@[simp] theorem goto_outcome (s : State) (k : ℕ) (pc : Pc) :
    (s.goto k pc).outcome = s.outcome := rfl
@[simp] theorem goto_ended (s : State) (k : ℕ) (pc : Pc) : (s.goto k pc).ended = s.ended := rfl
@[simp] theorem goto_calls_self (s : State) (k : ℕ) (pc : Pc) : (s.goto k pc).calls k = pc :=
  Function.update_self ..

theorem goto_calls_of_ne (s : State) {k l : ℕ} (pc : Pc) (hne : l ≠ k) :
    (s.goto k pc).calls l = s.calls l :=
  Function.update_of_ne hne ..

def waitResult (status : ℤ) : ℤ := if status = dmacTransmitOk then bmOk else bmFail

def reqOf (r : Request) : ℕ := (r.cfg.map ChannelCfg.req).getD 0

def advance (B : Board) (s : State) (k : ℕ) : Option State :=
  match s.calls k with
  | .idle => none
  | .entered r =>
    if s.sem = none then
      let busy := fun i => (s.dev.running i).isSome
      some ({ s with sem := some k }.goto k (.scanning r busy 0))
    else none
  | .scanning r busy index =>
    if dmacChannelCnt ≤ index then some ({ s with sem := none }.goto k (.returned bmFail))
    else if !B.exist index || s.dev.startFlag index || busy index then
      some (s.goto k (.scanning r busy (index + 1)))
    else
      let dev := setStartFlag s.dev index true
      some ({ s with dev := dev, sem := none }.goto k (.found r index))
  | .found r channel =>
    some ({ s with dev := intClean s.dev channel }.goto k (.configured r channel))
  | .configured r channel =>
    match r.transmit with
    | .sync _ =>
      let dev := setInfo s.dev channel ⟨channel, some .sync⟩
      some ({ s with dev := dev }.goto k (.installed r channel))
    | .async callback =>
      -- the start flag of the channel stays set on this path
      if (s.dev.info channel).callback ≠ none then some (s.goto k (.returned bmFail))
      else
        let dev := setInfo s.dev channel ⟨reqOf r, callback.map .user⟩
        some ({ s with dev := dev }.goto k (.installed r channel))
  | .installed r channel =>
    let dev := { s.dev with running := Function.update s.dev.running channel (some k) }
    match r.transmit with
    | .sync timeWait =>
      some ({ s with dev := dev }.goto k (.waiting channel (udelayCount timeWait)))
    | .async _ => some ({ s with dev := dev }.goto k (.leaving channel bmOk))
  | .waiting channel count =>
    if s.dev.completeFlag channel then
      let flags := Function.update s.dev.completeFlag channel false
      let dev := { s.dev with completeFlag := flags }
      some ({ s with dev := dev }.goto k
        (.leaving channel (waitResult (s.dev.syncStatus channel))))
    else if count = 0 then some (s.goto k (.leaving channel bmTimeout))
    else some (s.goto k (.waiting channel (count - 1)))
  | .leaving channel ret =>
    some ({ s with dev := setStartFlag s.dev channel false }.goto k (.returned ret))
  | .returned _ => none

inductive Label where
  | enter (r : Request) (enabled : Bool)
  | semTimeout (k : ℕ)
  | advance (k : ℕ)
  | finish (channel : ℕ) (ok : Bool)
  | interrupt

def next (B : Board) (s : State) : Label → Option State
  | .enter r enabled =>
    let pc := if r.accepted B enabled then Pc.entered r else Pc.returned bmFail
    let requests := Function.update s.requests s.count (some r)
    some ({ s with requests := requests, count := s.count + 1 }.goto s.count pc)
  | .semTimeout k =>
    match s.calls k with
    | .entered _ => some (s.goto k (.returned bmFail))
    | _ => none
  | .advance k => advance B s k
  | .finish channel ok =>
    match s.dev.running channel with
    | none => none
    | some k =>
      let dev := { s.dev with
        running := Function.update s.dev.running channel none
        intTc := if ok then Function.update s.dev.intTc channel true else s.dev.intTc
        intErr := if ok then s.dev.intErr else Function.update s.dev.intErr channel true }
      some { s with
        dev := dev
        outcome := Function.update s.outcome k (some ok)
        ended := Function.update s.ended channel (some k) }
  | .interrupt => some { s with dev := bmDmacInterruptHandle s.dev }

def start : State where
  dev := ⟨fun _ => false, fun _ => ⟨0, none⟩, fun _ => false, fun _ => 0, fun _ => none,
    fun _ => false, fun _ => false, []⟩
  sem := none
  calls := fun _ => .idle
  requests := fun _ => none
  count := 0
  outcome := fun _ => none
  ended := fun _ => none

def dmacSystem (B : Board) : TransitionSystem State Label :=
  TransitionSystem.ofStep (· = start) (next B)

def launchedPc (r : Request) (channel : ℕ) : Pc :=
  match r.transmit with
  | .sync timeWait => .waiting channel (udelayCount timeWait)
  | .async _ => .leaving channel bmOk

def launch (d : Device) (channel k : ℕ) : Device :=
  { d with running := Function.update d.running channel (some k) }

def finishTransfer (d : Device) (channel : ℕ) (ok : Bool) : Device :=
  { d with
    running := Function.update d.running channel none
    intTc := if ok then Function.update d.intTc channel true else d.intTc
    intErr := if ok then d.intErr else Function.update d.intErr channel true }

def clearComplete (d : Device) (channel : ℕ) : Device :=
  { d with completeFlag := Function.update d.completeFlag channel false }

inductive Move (B : Board) (s : State) : Label → State → Prop
  | enter {r : Request} {enabled : Bool} {pc : Pc}
      (hpc : (pc = .entered r ∧ r.accepted B enabled = true) ∨ pc = .returned bmFail) :
      Move B s (.enter r enabled) ({ s with
        requests := Function.update s.requests s.count (some r)
        count := s.count + 1 }.goto s.count pc)
  | semTimeout {k : ℕ} {r : Request} (hpc : s.calls k = .entered r) :
      Move B s (.semTimeout k) (s.goto k (.returned bmFail))
  | lock {k : ℕ} {r : Request} (hpc : s.calls k = .entered r) (hsem : s.sem = none) :
      Move B s (.advance k) ({ s with sem := some k }.goto k
        (.scanning r (fun i => (s.dev.running i).isSome) 0))
  | exhausted {k : ℕ} {r : Request} {busy : ℕ → Bool} {index : ℕ}
      (hpc : s.calls k = .scanning r busy index) :
      Move B s (.advance k) ({ s with sem := none }.goto k (.returned bmFail))
  | skip {k : ℕ} {r : Request} {busy : ℕ → Bool} {index : ℕ}
      (hpc : s.calls k = .scanning r busy index) :
      Move B s (.advance k) (s.goto k (.scanning r busy (index + 1)))
  | take {k : ℕ} {r : Request} {busy : ℕ → Bool} {index : ℕ}
      (hpc : s.calls k = .scanning r busy index) (hlt : index < dmacChannelCnt)
      (hexist : B.exist index = true) (hflag : s.dev.startFlag index = false)
      (hbusy : busy index = false) :
      Move B s (.advance k) ({ s with dev := setStartFlag s.dev index true, sem := none }.goto k
        (.found r index))
  | clean {k : ℕ} {r : Request} {c : ℕ} (hpc : s.calls k = .found r c) :
      Move B s (.advance k) ({ s with dev := intClean s.dev c }.goto k (.configured r c))
  | installSync {k : ℕ} {r : Request} {c : ℕ} {timeWait : ℤ} (hpc : s.calls k = .configured r c)
      (htr : r.transmit = .sync timeWait) :
      Move B s (.advance k) ({ s with dev := setInfo s.dev c ⟨c, some .sync⟩ }.goto k
        (.installed r c))
  | refuse {k : ℕ} {r : Request} {c : ℕ} {callback : Option ℕ}
      (hpc : s.calls k = .configured r c) (htr : r.transmit = .async callback)
      (hcb : (s.dev.info c).callback ≠ none) :
      Move B s (.advance k) (s.goto k (.returned bmFail))
  | installAsync {k : ℕ} {r : Request} {c : ℕ} {callback : Option ℕ}
      (hpc : s.calls k = .configured r c) (htr : r.transmit = .async callback)
      (hcb : (s.dev.info c).callback = none) :
      Move B s (.advance k) ({ s with dev := setInfo s.dev c ⟨reqOf r, callback.map .user⟩ }.goto k
        (.installed r c))
  | launch {k : ℕ} {r : Request} {c : ℕ} (hpc : s.calls k = .installed r c) :
      Move B s (.advance k) ({ s with dev := Dmac.launch s.dev c k }.goto k (launchedPc r c))
  | complete {k c count : ℕ} (hpc : s.calls k = .waiting c count)
      (hflag : s.dev.completeFlag c = true) :
      Move B s (.advance k) ({ s with dev := clearComplete s.dev c }.goto k
        (.leaving c (waitResult (s.dev.syncStatus c))))
  | timeout {k c : ℕ} (hpc : s.calls k = .waiting c 0) :
      Move B s (.advance k) (s.goto k (.leaving c bmTimeout))
  | poll {k c count : ℕ} (hpc : s.calls k = .waiting c count) :
      Move B s (.advance k) (s.goto k (.waiting c (count - 1)))
  | leave {k c : ℕ} {ret : ℤ} (hpc : s.calls k = .leaving c ret) :
      Move B s (.advance k) ({ s with dev := setStartFlag s.dev c false }.goto k (.returned ret))
  | finish {c k : ℕ} {ok : Bool} (hrun : s.dev.running c = some k) :
      Move B s (.finish c ok) { s with
        dev := finishTransfer s.dev c ok
        outcome := Function.update s.outcome k (some ok)
        ended := Function.update s.ended c (some k) }
  | interrupt : Move B s .interrupt { s with dev := bmDmacInterruptHandle s.dev }

theorem move_of_advance {B : Board} {s s' : State} {k : ℕ} (hstep : advance B s k = some s') :
    Move B s (.advance k) s' := by
  unfold advance at hstep
  cases hpc : s.calls k with
  | idle => simp [hpc] at hstep
  | returned ret => simp [hpc] at hstep
  | entered r =>
    simp only [hpc] at hstep
    split at hstep
    next hsem =>
      cases hstep
      exact Move.lock hpc hsem
    next => cases hstep
  | scanning r busy index =>
    simp only [hpc] at hstep
    split at hstep
    next =>
      cases hstep
      exact Move.exhausted hpc
    next hlt =>
      split at hstep
      next =>
        cases hstep
        exact Move.skip hpc
      next hfree =>
        cases hstep
        simp only [Bool.or_eq_true, Bool.not_eq_true', not_or, Bool.not_eq_false,
          Bool.not_eq_true] at hfree
        exact Move.take hpc (by omega) hfree.1.1 hfree.1.2 hfree.2
  | found r c =>
    simp only [hpc] at hstep
    cases hstep
    exact Move.clean hpc
  | configured r c =>
    simp only [hpc] at hstep
    cases htr : r.transmit with
    | sync timeWait =>
      simp only [htr] at hstep
      cases hstep
      exact Move.installSync hpc htr
    | async callback =>
      simp only [htr] at hstep
      split at hstep
      next hcb =>
        cases hstep
        exact Move.refuse hpc htr hcb
      next hcb =>
        cases hstep
        exact Move.installAsync hpc htr (not_not.mp hcb)
  | installed r c =>
    have hmove := Move.launch (B := B) hpc
    simp only [hpc] at hstep
    unfold launchedPc Dmac.launch at hmove
    cases htr : r.transmit with
    | sync timeWait =>
      simp only [htr] at hstep hmove
      cases hstep
      exact hmove
    | async callback =>
      simp only [htr] at hstep hmove
      cases hstep
      exact hmove
  | waiting c count =>
    simp only [hpc] at hstep
    split at hstep
    next hflag =>
      cases hstep
      exact Move.complete hpc hflag
    next =>
      split at hstep
      next hzero =>
        subst hzero
        cases hstep
        exact Move.timeout hpc
      next =>
        cases hstep
        exact Move.poll hpc
  | leaving c ret =>
    simp only [hpc] at hstep
    cases hstep
    exact Move.leave hpc

theorem move_of_next {B : Board} {s s' : State} {a : Label} (hstep : next B s a = some s') :
    Move B s a s' := by
  cases a with
  | enter r enabled =>
    cases hstep
    apply Move.enter
    split
    next hacc => exact Or.inl ⟨rfl, hacc⟩
    next => exact Or.inr rfl
  | semTimeout k =>
    unfold next at hstep
    cases hpc : s.calls k with
    | entered r =>
      simp only [hpc] at hstep
      cases hstep
      exact Move.semTimeout hpc
    | _ => simp [hpc] at hstep
  | advance k => exact move_of_advance hstep
  | finish c ok =>
    unfold next at hstep
    cases hrun : s.dev.running c with
    | none => simp [hrun] at hstep
    | some k =>
      simp only [hrun] at hstep
      cases hstep
      exact Move.finish hrun
  | interrupt =>
    cases hstep
    exact Move.interrupt

/-! ## The interrupt handler, channel by channel -/

structure SameChannel (d d' : Device) (c : ℕ) : Prop where
  startFlag : d.startFlag c = d'.startFlag c
  info : d.info c = d'.info c
  completeFlag : d.completeFlag c = d'.completeFlag c
  syncStatus : d.syncStatus c = d'.syncStatus c
  running : d.running c = d'.running c
  intTc : d.intTc c = d'.intTc c
  intErr : d.intErr c = d'.intErr c

namespace SameChannel

variable {d d' d'' : Device} {c : ℕ}

theorem refl (d : Device) (c : ℕ) : SameChannel d d c := ⟨rfl, rfl, rfl, rfl, rfl, rfl, rfl⟩

theorem trans (h : SameChannel d d' c) (h' : SameChannel d' d'' c) : SameChannel d d'' c :=
  ⟨h.startFlag.trans h'.startFlag, h.info.trans h'.info, h.completeFlag.trans h'.completeFlag,
    h.syncStatus.trans h'.syncStatus, h.running.trans h'.running, h.intTc.trans h'.intTc,
    h.intErr.trans h'.intErr⟩

end SameChannel

def SyncSlots (d : Device) : Prop :=
  ∀ i, (d.info i).callback = some .sync → (d.info i).req = i

theorem SyncSlots.setSync {d : Device} (hslots : SyncSlots d) (c : ℕ) :
    SyncSlots (setInfo d c ⟨c, some .sync⟩) := by
  intro i hi
  by_cases hic : i = c
  · subst hic
    simp [setInfo]
  · simp only [setInfo, Function.update_of_ne hic] at hi ⊢
    exact hslots i hi

theorem SyncSlots.setUser {d : Device} (hslots : SyncSlots d) (c req : ℕ) (callback : Option ℕ) :
    SyncSlots (setInfo d c ⟨req, callback.map .user⟩) := by
  intro i hi
  by_cases hic : i = c
  · subst hic
    cases callback <;> simp [setInfo] at hi
  · simp only [setInfo, Function.update_of_ne hic] at hi ⊢
    exact hslots i hi

section Handler

variable {tc err : ℕ → Bool} {d d' : Device} {i c : ℕ}

theorem handleChannel_other (hslots : SyncSlots d) (hne : c ≠ i) :
    SameChannel (handleChannel tc err d i) d c := by
  unfold handleChannel
  split
  · cases hcb : (d.info i).callback with
    | none =>
      simp only [intClean, hcb]
      constructor <;> simp [Function.update_of_ne hne]
    | some callback =>
      simp only [intClean, hcb]
      cases callback with
      | sync =>
        have hreq : c ≠ (d.info i).req := by
          rw [hslots i hcb]
          exact hne
        constructor <;>
          simp [invoke, dmacTransmitSyncCallback, setInfo, Function.update_of_ne hne,
            Function.update_of_ne hreq]
      | user f => constructor <;> simp [invoke, setInfo, Function.update_of_ne hne]
  · exact SameChannel.refl d c

/-- A pending channel is served: its bits are cleared, its slot is emptied, and a
synchronous call finds its flag and status. -/
theorem handleChannel_pending (hslots : SyncSlots d) (hpend : (tc i || err i) = true) :
    (handleChannel tc err d i).startFlag i = d.startFlag i ∧
      (handleChannel tc err d i).running i = d.running i ∧
      (handleChannel tc err d i).intTc i = false ∧
      (handleChannel tc err d i).intErr i = false ∧
      (handleChannel tc err d i).info i = ⟨(d.info i).req, none⟩ ∧
      (handleChannel tc err d i).completeFlag i =
        (if (d.info i).callback = some .sync then true else d.completeFlag i) ∧
      (handleChannel tc err d i).syncStatus i =
        (if (d.info i).callback = some .sync then intStatus (tc i) (err i)
          else d.syncStatus i) := by
  unfold handleChannel
  rw [if_pos hpend]
  cases hcb : (d.info i).callback with
  | none =>
    simp only [intClean, hcb]
    refine ⟨trivial, trivial, by simp, by simp, ?_, by simp, by simp⟩
    rw [← hcb]
  | some callback =>
    simp only [intClean, hcb]
    cases callback with
    | sync =>
      have hreq := hslots i hcb
      simp [invoke, dmacTransmitSyncCallback, setInfo, hreq]
    | user f => simp [invoke, setInfo]

theorem handleChannel_quiet (hpend : (tc i || err i) = false) : handleChannel tc err d i = d := by
  unfold handleChannel
  rw [hpend]
  rfl

theorem handleChannel_slots (hslots : SyncSlots d) : SyncSlots (handleChannel tc err d i) := by
  intro j hj
  by_cases hji : j = i
  · subst hji
    by_cases hpend : (tc j || err j) = true
    · have hinfo : (handleChannel tc err d j).info j = ⟨(d.info j).req, none⟩ :=
        (handleChannel_pending hslots hpend).2.2.2.2.1
      rw [hinfo] at hj
      cases hj
    · rw [handleChannel_quiet (Bool.not_eq_true _ ▸ hpend)] at hj ⊢
      exact hslots j hj
  · have hsame : SameChannel (handleChannel tc err d i) d j := handleChannel_other hslots hji
    rw [hsame.info] at hj ⊢
    exact hslots j hj

theorem handleChannel_congr (hslots : SyncSlots d) (hslots' : SyncSlots d')
    (hsame : SameChannel d d' c) :
    SameChannel (handleChannel tc err d c) (handleChannel tc err d' c) c := by
  by_cases hpend : (tc c || err c) = true
  · obtain ⟨h1, h2, h3, h4, h5, h6, h7⟩ := handleChannel_pending hslots hpend
    obtain ⟨h1', h2', h3', h4', h5', h6', h7'⟩ := handleChannel_pending hslots' hpend
    exact ⟨by rw [h1, h1', hsame.startFlag], by rw [h5, h5', hsame.info],
      by rw [h6, h6', hsame.info, hsame.completeFlag],
      by rw [h7, h7', hsame.info, hsame.syncStatus], by rw [h2, h2', hsame.running],
      by rw [h3, h3'], by rw [h4, h4']⟩
  · rw [handleChannel_quiet (Bool.not_eq_true _ ▸ hpend),
      handleChannel_quiet (Bool.not_eq_true _ ▸ hpend)]
    exact hsame

theorem foldl_handleChannel_slots (l : List ℕ) (hslots : SyncSlots d) :
    SyncSlots (l.foldl (handleChannel tc err) d) := by
  induction l generalizing d with
  | nil => exact hslots
  | cons i l ih => exact ih (handleChannel_slots hslots)

theorem foldl_handleChannel_other {l : List ℕ} (hslots : SyncSlots d) (hc : c ∉ l) :
    SameChannel (l.foldl (handleChannel tc err) d) d c := by
  induction l generalizing d with
  | nil => exact SameChannel.refl d c
  | cons i l ih =>
    rw [List.mem_cons, not_or] at hc
    exact (ih (handleChannel_slots hslots) hc.2).trans (handleChannel_other hslots hc.1)

theorem foldl_handleChannel_at {l : List ℕ} (hslots : SyncSlots d) (hnodup : l.Nodup)
    (hc : c ∈ l) :
    SameChannel (l.foldl (handleChannel tc err) d) (handleChannel tc err d c) c := by
  induction l generalizing d with
  | nil => cases hc
  | cons i l ih =>
    rw [List.nodup_cons] at hnodup
    rw [List.foldl_cons]
    by_cases hci : c = i
    · subst hci
      exact foldl_handleChannel_other (handleChannel_slots hslots) hnodup.1
    · have hmem : c ∈ l := by
        rcases List.mem_cons.mp hc with h | h
        · exact absurd h hci
        · exact h
      exact (ih (handleChannel_slots hslots) hnodup.2 hmem).trans
        (handleChannel_congr (handleChannel_slots hslots) hslots
          (handleChannel_other hslots hci))

theorem interruptHandle_slots (hslots : SyncSlots d) : SyncSlots (bmDmacInterruptHandle d) :=
  foldl_handleChannel_slots _ hslots

theorem interruptHandle_at (hslots : SyncSlots d) (hc : c < dmacChannelCnt) :
    SameChannel (bmDmacInterruptHandle d) (handleChannel d.intTc d.intErr d c) c :=
  foldl_handleChannel_at hslots List.nodup_range (List.mem_range.mpr hc)

theorem interruptHandle_out (hslots : SyncSlots d) (hc : dmacChannelCnt ≤ c) :
    SameChannel (bmDmacInterruptHandle d) d c :=
  foldl_handleChannel_other hslots (by
    rw [List.mem_range]
    omega)

def channelInvocations (tc err : ℕ → Bool) (d : Device) (i : ℕ) : List Invocation :=
  match (d.info i).callback with
  | some (.user f) =>
    if tc i || err i then [⟨f, (d.info i).req, intStatus (tc i) (err i)⟩] else []
  | _ => []

end Handler

end HiMpu.Dmac
