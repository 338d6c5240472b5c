import HiMpu.MailboxOrder

/-!
# Messages with an inter-processor interrupt

`bm_send_msg_with_ipi` stores the number of the mailbox into the one trigger word of the
target and raises an interrupt there, whose handler is `bm_recv_msg_with_ipi`.  The
interrupt is pending or it is not: neither it nor the word counts the senders, so the
word has to be read before another sender stores a different number.
-/

namespace HiMpu.Message

open TransitionSystem

def ipiIntNo : ℕ := 12
def minPpiId : ℕ := 16
def bmCoreMap : ℕ := 0xf

inductive IpiPc where
  | absent
  | sending
  | setTrigger
  | raise
  | returned (ret : ℤ)
deriving DecidableEq

structure IpiCall where
  core : ℕ
  recvCpu : ℕ
  msgId : ℕ
  pc : IpiPc
  /-- How often the target had read its word when this call stored into it. -/
  mark : ℕ

inductive HandlerPc where
  | idle
  | entered
  | receiving (r msgId : ℕ)
deriving DecidableEq

structure IpiState where
  box : State
  ipi : ℕ → IpiCall
  pending : ℕ → Bool
  enabled : ℕ → Bool
  handler : ℕ → HandlerPc
  reads : ℕ → List ℕ
  results : ℕ → List (ℕ × ℤ)
  /-- The number in the word of a core, when its handler has yet to read it. -/
  unread : ℕ → Option ℕ

def IpiState.goto (s : IpiState) (k : ℕ) (pc : IpiPc) : IpiState :=
  { s with ipi := Function.update s.ipi k { s.ipi k with pc := pc } }

/-- `bm_hwi_trigger`: the interrupt has to be enabled on the core that raises it. -/
def bmHwiTrigger (enabled : Bool) (pending : ℕ → Bool) (intId coreMap : ℕ) : ℤ × (ℕ → Bool) :=
  if minPpiId ≤ intId then (bmFail, pending)
  else if bmCoreMap < coreMap then (bmFail, pending)
  else if !enabled then (bmFail, pending)
  else (bmOk, fun core => pending core || coreMap.testBit core)

def sendWithIpi (L : Layout) (s : IpiState) (k : ℕ) : Option IpiState :=
  let c := s.ipi k
  match c.pc with
  | .absent | .returned _ => none
  | .sending =>
    match (s.box.call k).pc with
    | .returned ret =>
      if ret ≠ bmOk then some (s.goto k (.returned bmFail))
      else if bmMaxCoreNum ≤ c.recvCpu then some (s.goto k (.returned bmFail))
      else some (s.goto k .setTrigger)
    | _ => none
  | .setTrigger =>
    some { s with
      box := { s.box with mem := setTrigger L s.box.mem c.recvCpu c.msgId }
      unread := Function.update s.unread c.recvCpu (some c.msgId)
      ipi := Function.update s.ipi k
        { c with pc := .raise, mark := (s.reads c.recvCpu).length } }
  | .raise =>
    -- the result of `bm_hwi_trigger` is not looked at
    let raised := bmHwiTrigger (s.enabled c.core) s.pending ipiIntNo (0 ||| 1 <<< c.recvCpu)
    some ({ s with pending := raised.2 }.goto k (.returned bmOk))

/-- The handler of a core calls `bm_recv_msg_with_ipi`, up to the start of `bm_recv_msg`. -/
def recvWithIpi (L : Layout) (s : IpiState) (core r buf bufLen : ℕ) (data : Mem) :
    Option IpiState :=
  if s.handler core = .entered then
    if buf = 0 then some { s with handler := Function.update s.handler core .idle }
    else
      let msgId := trigger L s.box.mem core
      match next L s.box (.call r core .recv msgId buf bufLen data) with
      | none => none
      | some box =>
        some { s with
          box := box
          handler := Function.update s.handler core (.receiving r msgId)
          reads := Function.update s.reads core (s.reads core ++ [msgId])
          unread := Function.update s.unread core none }
  else none

def recvReturns (s : IpiState) (core : ℕ) : Option IpiState :=
  match s.handler core with
  | .receiving r msgId =>
    match (s.box.call r).pc with
    | .returned ret =>
      some { s with
        handler := Function.update s.handler core .idle
        results := Function.update s.results core
          (s.results core ++ [(msgId, if ret ≠ bmOk then bmFail else bmOk)]) }
    | _ => none
  | _ => none

inductive IpiAction where
  | box (a : Action)
  | send (k core recvCpu msgId buf bufLen : ℕ) (data : Mem)
  | advance (k : ℕ)
  | irq (core : ℕ) (on : Bool)
  | enter (core : ℕ)
  | recv (core r buf bufLen : ℕ) (data : Mem)
  | finish (core : ℕ)

def ipiNext (L : Layout) (s : IpiState) : IpiAction → Option IpiState
  | .box a => (next L s.box a).map fun box => { s with box := box }
  | .send k core recvCpu msgId buf bufLen data =>
    if (s.ipi k).pc = .absent then
      (next L s.box (.call k core .send msgId buf bufLen data)).map fun box =>
        { s with
          box := box
          ipi := Function.update s.ipi k ⟨core, recvCpu, msgId, .sending, 0⟩ }
    else none
  | .advance k => sendWithIpi L s k
  | .irq core on => some { s with enabled := Function.update s.enabled core on }
  | .enter core =>
    if core < bmMaxCoreNum ∧ s.handler core = .idle ∧ s.pending core ∧ s.enabled core then
      some { s with
        pending := Function.update s.pending core false
        handler := Function.update s.handler core .entered }
    else none
  | .recv core r buf bufLen data => recvWithIpi L s core r buf bufLen data
  | .finish core => recvReturns s core

def ipiInitial (L : Layout) (mem : Mem) (s : IpiState) : Prop :=
  initial L mem s.box ∧ (∀ k, (s.ipi k).pc = .absent) ∧
    ∀ core, s.pending core = false ∧ s.handler core = .idle ∧ s.reads core = [] ∧
      s.results core = [] ∧ s.unread core = none

def ipiSystem (L : Layout) (mem : Mem) : TransitionSystem IpiState IpiAction :=
  ofStep (ipiInitial L mem) (ipiNext L)

/-- Once the target has handled what is pending, it has reported every message that
was sent to it with success, and after that message was there. -/
def Routed (s : IpiState) : Prop :=
  ∀ k, (s.ipi k).pc = .returned bmOk → s.pending (s.ipi k).recvCpu = false →
    s.handler (s.ipi k).recvCpu = .idle →
    ∃ i ≥ (s.ipi k).mark, (s.results (s.ipi k).recvCpu)[i]? = some ((s.ipi k).msgId, bmOk)

def HandlerPc.receives (pc : HandlerPc) (r : ℕ) : Bool :=
  match pc with
  | .receiving r' _ => r' = r
  | _ => false

/-- No number is stored over a different one that the target has not read, a sender
has the interrupt enabled, and the handler finds its arguments valid and the mailbox
free. -/
def Timely (L : Layout) (s : IpiState) : IpiAction → Prop
  | .advance k =>
    ((s.ipi k).pc = .setTrigger → s.unread (s.ipi k).recvCpu = none ∨
      s.unread (s.ipi k).recvCpu = some (s.ipi k).msgId) ∧
    ((s.ipi k).pc = .raise → s.enabled (s.ipi k).core = true)
  | .recv core _ buf bufLen _ => buf ≠ 0 ∧ ¬ L.isInvalidAddrLen core (buf % 2 ^ 32) bufLen
  | .box (.advance r) =>
    (s.box.call r).pc = .compare → (∃ core < bmMaxCoreNum, (s.handler core).receives r) →
      flagStatus L s.box.mem (s.box.call r).msgId = msgHeadFlag msgStatusFree
  | _ => True

instance (L : Layout) (s : IpiState) (a : IpiAction) : Decidable (Timely L s a) :=
  match a with
  | .advance _ => inferInstanceAs (Decidable (_ ∧ _))
  | .recv .. => inferInstanceAs (Decidable (_ ∧ _))
  | .box (.advance _) => inferInstanceAs (Decidable (_ → _ → _))
  | .box (.call ..) | .box (.copy ..) | .send .. | .irq .. | .enter _ | .finish _ => isTrue trivial

/-! ## Trigger words -/

variable {L : Layout} {mem mem₀ : Mem} {s s' : State} {t t' : IpiState} {a : Action}
  {j k m r i id cpu cpu' core : ℕ}

theorem trigger_setFlagStatus {status : ℕ} :
    trigger L (setFlagStatus L mem m status) cpu = trigger L mem cpu := by
  apply Mem.load_store_disjoint
  simp only [L.msgBase_eq, Layout.ipiTrigger, hiSharedIpiArgLen]
  omega

theorem trigger_update {byte : UInt8} :
    trigger L (Function.update mem (L.msgBuf m + i) byte) cpu = trigger L mem cpu := by
  apply Mem.load_congr
  intro x hlow hhigh
  apply Function.update_of_ne
  simp only [L.msgBuf_eq]
  simp only [Layout.ipiTrigger, hiSharedIpiArgLen] at hlow hhigh
  omega

theorem trigger_setTrigger (hid : id < msgIdBottom) :
    trigger L (setTrigger L mem cpu id) cpu = id := by
  apply Mem.load_store_same_of_lt
  have hlt : id < 5 := hid
  omega

theorem trigger_setTrigger_other (hcpu : cpu < bmMaxCoreNum) (hcpu' : cpu' < bmMaxCoreNum)
    (hne : cpu ≠ cpu') :
    trigger L (setTrigger L mem cpu id) cpu' = trigger L mem cpu' := by
  have hlt : cpu < 4 := hcpu
  have hlt' : cpu' < 4 := hcpu'
  apply Mem.load_store_disjoint
  simp only [Layout.ipiTrigger, hiSharedIpiArgLen]
  omega

/-! ## Steps of `bm_send_msg` and `bm_recv_msg` -/

def Action.actor : Action → ℕ
  | .call k .. | .advance k | .copy k _ => k

theorem advance_call (hstep : advance L s k = some s') :
    ∃ pc, s'.call = Function.update s.call k { s.call k with pc := pc } ∧ pc ≠ .absent ∧
      ∀ cpu, trigger L s'.mem cpu = trigger L s.mem cpu := by
  cases hpc : (s.call k).pc with
  | absent | returned ret =>
    simp only [advance, hpc] at hstep
    cases hstep
  | called =>
    simp only [advance, hpc] at hstep
    cases hstep
    refine ⟨_, rfl, ?_, fun _ => rfl⟩
    split <;> simp
  | compare =>
    simp only [advance, hpc] at hstep
    split at hstep
    · cases hstep
      exact ⟨_, rfl, by simp, fun _ => trigger_setFlagStatus⟩
    · cases hstep
      exact ⟨_, rfl, by simp, fun _ => rfl⟩
  | acquired | moving plan done =>
    simp only [advance, hpc] at hstep
    split at hstep <;> cases hstep <;> exact ⟨_, rfl, by simp, fun _ => rfl⟩
  | releasing ret =>
    simp only [advance, hpc] at hstep
    cases hstep
    exact ⟨_, rfl, by simp, fun _ => trigger_setFlagStatus⟩

theorem copyByte_call (hstep : copyByte L s k i = some s') :
    ∃ data plan done, s'.call = Function.update s.call k
        { s.call k with data := data, pc := .moving plan done } ∧
      ∀ cpu, trigger L s'.mem cpu = trigger L s.mem cpu := by
  cases hpc : (s.call k).pc with
  | moving plan done =>
    simp only [copyByte, hpc] at hstep
    split at hstep
    next =>
      split at hstep
      · cases hstep
        exact ⟨_, _, _, rfl, fun _ => trigger_update⟩
      · cases hstep
        exact ⟨_, _, _, rfl, fun _ => rfl⟩
    next => cases hstep
  | absent | called | compare | acquired | releasing ret | returned ret =>
    simp only [copyByte, hpc] at hstep
    cases hstep

def SameArguments (c c' : Call) : Prop :=
  c'.core = c.core ∧ c'.op = c.op ∧ c'.msgId = c.msgId ∧ c'.buf = c.buf ∧ c'.bufLen = c.bufLen

theorem next_trigger (hstep : next L s a = some s') :
    trigger L s'.mem cpu = trigger L s.mem cpu := by
  cases a with
  | call k core op msgId buf bufLen data =>
    simp only [next] at hstep
    split at hstep
    · cases hstep
      rfl
    · cases hstep
  | advance k =>
    obtain ⟨_, _, _, hmem⟩ := advance_call hstep
    exact hmem cpu
  | copy k i =>
    obtain ⟨_, _, _, _, hmem⟩ := copyByte_call hstep
    exact hmem cpu

theorem next_call_of_ne (hstep : next L s a = some s') (hne : j ≠ a.actor) :
    s'.call j = s.call j := by
  cases a with
  | call k core op msgId buf bufLen data =>
    simp only [next] at hstep
    split at hstep
    · cases hstep
      exact s.setCall_call_of_ne _ hne
    · cases hstep
  | advance k =>
    obtain ⟨_, hcall, _⟩ := advance_call hstep
    rw [hcall]
    exact Function.update_of_ne hne _ _
  | copy k i =>
    obtain ⟨_, _, _, hcall, _⟩ := copyByte_call hstep
    rw [hcall]
    exact Function.update_of_ne hne _ _

theorem next_call (hstep : next L s a = some s') (hpc : (s.call j).pc ≠ .absent) :
    (s'.call j).pc ≠ .absent ∧ SameArguments (s.call j) (s'.call j) := by
  by_cases hj : j = a.actor
  · subst hj
    cases a with
    | call k core op msgId buf bufLen data =>
      simp only [next] at hstep
      split at hstep
      next habsent => exact absurd habsent hpc
      next => cases hstep
    | advance k =>
      obtain ⟨pc, hcall, hpc', _⟩ := advance_call hstep
      rw [hcall]
      simp only [Action.actor, Function.update_self]
      exact ⟨hpc', rfl, rfl, rfl, rfl, rfl⟩
    | copy k i =>
      obtain ⟨_, _, _, hcall, _⟩ := copyByte_call hstep
      rw [hcall]
      simp only [Action.actor, Function.update_self]
      exact ⟨by simp, rfl, rfl, rfl, rfl, rfl⟩
  · rw [next_call_of_ne hstep hj]
    exact ⟨hpc, rfl, rfl, rfl, rfl, rfl⟩

/-! ## A receive of the handler -/

def Pc.onTrack : Pc → Prop
  | .called | .compare | .acquired | .moving _ _ => True
  | .releasing ret | .returned ret => ret = bmOk
  | .absent => False

structure Receiving (L : Layout) (c : Call) (id : ℕ) : Prop where
  op : c.op = .recv
  msgId : c.msgId = id
  valid : ¬ c.refused L
  track : c.pc.onTrack

theorem advance_onTrack (hinv : Inv L mem₀ s) (hrec : Receiving L (s.call r) id)
    (hfree : (s.call r).pc = .compare →
      flagStatus L s.mem (s.call r).msgId = msgHeadFlag msgStatusFree)
    (hstep : advance L s r = some s') : (s'.call r).pc.onTrack := by
  have htrack := hrec.track
  cases hpc : (s.call r).pc with
  | absent | returned ret =>
    simp only [advance, hpc] at hstep
    cases hstep
  | called =>
    simp only [advance, hpc, if_neg hrec.valid] at hstep
    cases hstep
    rw [State.goto_call]
    trivial
  | compare =>
    simp only [advance, hpc, if_pos (hfree hpc)] at hstep
    cases hstep
    rw [State.goto_call]
    trivial
  | acquired =>
    have hfits : ¬ ((s.call r).op = .send ∧ msgBodyLen < (s.call r).bufLen) := by
      rw [hrec.op]
      exact fun h => by cases h.1
    simp only [advance, hpc, if_neg hfits] at hstep
    cases hstep
    rw [State.goto_call]
    trivial
  | moving plan done =>
    have hplan := hinv.moving_plan hpc
    simp only [advance, hpc] at hstep
    split at hstep
    · cases hstep
      rw [State.goto_call, hplan]
      rfl
    · cases hstep
  | releasing ret =>
    rw [hpc] at htrack
    simp only [advance, hpc] at hstep
    cases hstep
    rw [State.goto_call]
    exact htrack

theorem Receiving.next (hinv : Inv L mem₀ s) (hrec : Receiving L (s.call r) id)
    (hfree : a = .advance r → (s.call r).pc = .compare →
      flagStatus L s.mem (s.call r).msgId = msgHeadFlag msgStatusFree)
    (hstep : next L s a = some s') : Receiving L (s'.call r) id := by
  have hpc : (s.call r).pc ≠ .absent := by
    intro habsent
    have htrack := hrec.track
    rw [habsent] at htrack
    exact htrack
  obtain ⟨_, hcore, hop, hid, hbuf, hlen⟩ := next_call hstep hpc
  refine ⟨hop.trans hrec.op, hid.trans hrec.msgId, ?_, ?_⟩
  · have hvalid := hrec.valid
    simp only [Call.refused] at hvalid ⊢
    rw [hcore, hid, hbuf, hlen]
    exact hvalid
  · by_cases hactor : r = a.actor
    · subst hactor
      cases a with
      | call k core op msgId buf bufLen data =>
        simp only [Message.next] at hstep
        split at hstep
        next habsent => exact absurd habsent hpc
        next => cases hstep
      | advance k => exact advance_onTrack hinv hrec (hfree rfl) hstep
      | copy k i =>
        obtain ⟨_, _, _, hcall, _⟩ := copyByte_call hstep
        rw [hcall]
        simp only [Action.actor, Function.update_self]
        trivial
    · rw [next_call_of_ne hstep hactor]
      exact hrec.track

def reported (ids : List ℕ) : List (ℕ × ℤ) :=
  ids.map fun id => (id, bmOk)

def HandlerOk (L : Layout) (t : IpiState) (core : ℕ) : Prop :=
  match t.handler core with
  | .idle | .entered => t.results core = reported (t.reads core)
  | .receiving r id =>
    (∃ ids, t.reads core = ids ++ [id] ∧ t.results core = reported ids) ∧
      Receiving L (t.box.call r) id

structure CoreOk (L : Layout) (t : IpiState) (core : ℕ) : Prop where
  word : trigger L t.box.mem core < msgIdBottom
  unread : ∀ id, t.unread core = some id → trigger L t.box.mem core = id
  handler : HandlerOk L t core

def IpiPc.notified : IpiPc → Prop
  | .raise => True
  | .returned ret => ret = bmOk
  | _ => False

def Noted (t : IpiState) (c : IpiCall) : Prop :=
  (t.reads c.recvCpu)[c.mark]? = some c.msgId ∨
    t.unread c.recvCpu = some c.msgId ∧ (t.reads c.recvCpu).length = c.mark ∧
      (c.pc = .returned bmOk → t.pending c.recvCpu = true ∨ t.handler c.recvCpu = .entered)

structure SenderOk (t : IpiState) (k : ℕ) : Prop where
  sending : (t.ipi k).pc = .sending →
    (t.box.call k).pc ≠ .absent ∧ (t.box.call k).msgId = (t.ipi k).msgId
  target : (t.ipi k).pc = .setTrigger ∨ (t.ipi k).pc.notified →
    (t.ipi k).recvCpu < bmMaxCoreNum ∧ (t.ipi k).msgId < msgIdBottom
  noted : (t.ipi k).pc.notified → Noted t (t.ipi k)

structure IpiInv (L : Layout) (mem₀ : Mem) (t : IpiState) : Prop where
  box : Inv L mem₀ t.box
  cores : ∀ core < bmMaxCoreNum, CoreOk L t core
  running : ∀ core, t.handler core ≠ .idle → core < bmMaxCoreNum
  senders : ∀ k, SenderOk t k

theorem Inv.setTrigger (hinv : Inv L mem₀ s) :
    Inv L mem₀ { s with mem := Message.setTrigger L s.mem cpu id } where
  boxes := fun m hm => Box.frame (hinv.boxes m hm) rfl rfl (fun _ _ => rfl) flagStatus_setTrigger
    fun i _ => congrFun body_setTrigger i
  calls := fun k => CallOk.frame (hinv.calls k) rfl rfl (List.Subset.refl _)

theorem CoreOk.frame (hcore : CoreOk L t core)
    (hword : trigger L t'.box.mem core = trigger L t.box.mem core)
    (hunread : t'.unread core = t.unread core) (hhandler : HandlerOk L t' core) :
    CoreOk L t' core where
  word := hword ▸ hcore.word
  unread := fun id h => hword.trans (hcore.unread id (hunread ▸ h))
  handler := hhandler

theorem HandlerOk.congr (hok : HandlerOk L t core) (hhandler : t'.handler core = t.handler core)
    (hreads : t'.reads core = t.reads core) (hresults : t'.results core = t.results core)
    (hcall : ∀ r id, t.handler core = .receiving r id → Receiving L (t.box.call r) id →
      Receiving L (t'.box.call r) id) : HandlerOk L t' core := by
  unfold HandlerOk at hok ⊢
  rw [hhandler, hreads, hresults]
  cases hpc : t.handler core with
  | idle | entered =>
    rw [hpc] at hok
    exact hok
  | receiving r id =>
    rw [hpc] at hok
    exact ⟨hok.1, hcall r id hpc hok.2⟩

theorem SenderOk.frame (hok : SenderOk t k) (hcall : t'.box.call k = t.box.call k)
    (hipi : t'.ipi k = t.ipi k) (hnoted : (t.ipi k).pc.notified → Noted t' (t.ipi k)) :
    SenderOk t' k := by
  refine ⟨?_, ?_, ?_⟩
  · rw [hipi, hcall]
    exact hok.sending
  · rw [hipi]
    exact hok.target
  · rw [hipi]
    exact hnoted

theorem Noted.congr {c : IpiCall} (hnoted : Noted t c)
    (hreads : t'.reads c.recvCpu = t.reads c.recvCpu)
    (hunread : t'.unread c.recvCpu = t.unread c.recvCpu)
    (hpending : t.pending c.recvCpu = true ∨ t.handler c.recvCpu = .entered →
      t'.pending c.recvCpu = true ∨ t'.handler c.recvCpu = .entered) : Noted t' c := by
  unfold Noted at hnoted ⊢
  rw [hreads, hunread]
  exact hnoted.imp_right fun h => ⟨h.1, h.2.1, fun hret => hpending (h.2.2 hret)⟩

theorem IpiInv.running_update {pc : HandlerPc} (hinv : IpiInv L mem₀ t)
    (hcore : core < bmMaxCoreNum) :
    ∀ core', Function.update t.handler core pc core' ≠ .idle → core' < bmMaxCoreNum := by
  intro core' hrunning
  by_cases hc : core' = core
  · rw [hc]
    exact hcore
  · rw [Function.update_of_ne hc] at hrunning
    exact hinv.running core' hrunning

/-! ## Steps of the senders and the handlers -/

theorem IpiInv.box_step {s' : State} (hinv : IpiInv L mem₀ t) (hstep : next L t.box a = some s')
    (hfree : ∀ r, a = .advance r → (t.box.call r).pc = .compare →
      (∃ core < bmMaxCoreNum, (t.handler core).receives r = true) →
      flagStatus L t.box.mem (t.box.call r).msgId = msgHeadFlag msgStatusFree) :
    IpiInv L mem₀ { t with box := s' } where
  box := hinv.box.step hstep
  cores := by
    intro core hcore
    refine CoreOk.frame (hinv.cores core hcore) (next_trigger hstep) rfl ?_
    refine HandlerOk.congr (hinv.cores core hcore).handler rfl rfl rfl ?_
    intro r id hhandler hrec
    refine hrec.next hinv.box ?_ hstep
    intro hadvance hpc
    exact hfree r hadvance hpc ⟨core, hcore, by simp [HandlerPc.receives, hhandler]⟩
  running := hinv.running
  senders := by
    intro k
    have hok := hinv.senders k
    refine ⟨?_, hok.target, ?_⟩
    · intro hsending
      obtain ⟨hpc, hid⟩ := hok.sending hsending
      obtain ⟨hpc', _, _, hid', _⟩ := next_call hstep hpc
      exact ⟨hpc', hid'.trans hid⟩
    · intro hnotified
      exact (hok.noted hnotified).congr rfl rfl id

theorem IpiInv.goto {pc : IpiPc} (hinv : IpiInv L mem₀ t) (hpc : pc ≠ .sending)
    (hquiet : ¬ pc.notified)
    (htarget : pc = .setTrigger → (t.ipi k).recvCpu < bmMaxCoreNum ∧
      (t.ipi k).msgId < msgIdBottom) : IpiInv L mem₀ (t.goto k pc) where
  box := hinv.box
  cores := by
    intro core hcore
    have hok := hinv.cores core hcore
    refine CoreOk.frame hok rfl rfl ?_
    exact HandlerOk.congr hok.handler rfl rfl rfl fun _ _ _ h => h
  running := hinv.running
  senders := by
    intro j
    by_cases hj : j = k
    · subst hj
      refine ⟨?_, ?_, ?_⟩
      · simp only [IpiState.goto, Function.update_self]
        exact fun h => absurd h hpc
      · simp only [IpiState.goto, Function.update_self]
        rintro (h | h)
        · exact htarget h
        · exact absurd h hquiet
      · simp only [IpiState.goto, Function.update_self]
        exact fun h => absurd h hquiet
    · have hok := hinv.senders j
      refine hok.frame rfl (Function.update_of_ne hj _ _) ?_
      exact fun h => (hok.noted h).congr rfl rfl id

theorem IpiInv.storeTrigger (hinv : IpiInv L mem₀ t) (hpc : (t.ipi k).pc = .setTrigger)
    (htimely : t.unread (t.ipi k).recvCpu = none ∨
      t.unread (t.ipi k).recvCpu = some (t.ipi k).msgId) :
    IpiInv L mem₀ { t with
      box := { t.box with
        mem := Message.setTrigger L t.box.mem (t.ipi k).recvCpu (t.ipi k).msgId }
      unread := Function.update t.unread (t.ipi k).recvCpu (some (t.ipi k).msgId)
      ipi := Function.update t.ipi k
        { t.ipi k with pc := .raise, mark := (t.reads (t.ipi k).recvCpu).length } } := by
  obtain ⟨hcpu, hid⟩ := (hinv.senders k).target (Or.inl hpc)
  refine ⟨hinv.box.setTrigger, ?_, hinv.running, ?_⟩
  · intro core hcore
    have hok := hinv.cores core hcore
    have hhandler := hok.handler
    by_cases htarget : core = (t.ipi k).recvCpu
    · subst htarget
      have hword : trigger L (Message.setTrigger L t.box.mem (t.ipi k).recvCpu (t.ipi k).msgId)
          (t.ipi k).recvCpu = (t.ipi k).msgId := trigger_setTrigger hid
      refine ⟨?_, ?_, ?_⟩
      · simp only [hword]
        exact hid
      · intro id hunread
        simp only [Function.update_self, Option.some.injEq] at hunread
        rw [← hunread]
        exact hword
      · exact HandlerOk.congr hhandler rfl rfl rfl fun _ _ _ h => h
    · have hother : trigger L
          (Message.setTrigger L t.box.mem (t.ipi k).recvCpu (t.ipi k).msgId) core =
          trigger L t.box.mem core :=
        trigger_setTrigger_other hcpu hcore (Ne.symm htarget)
      refine CoreOk.frame hok hother (Function.update_of_ne htarget _ _) ?_
      exact HandlerOk.congr hhandler rfl rfl rfl fun _ _ _ h => h
  · intro j
    by_cases hj : j = k
    · subst hj
      refine ⟨?_, ?_, ?_⟩
      · simp only [Function.update_self]
        exact fun h => by cases h
      · simp only [Function.update_self]
        exact fun _ => ⟨hcpu, hid⟩
      · simp only [Function.update_self]
        intro _
        refine Or.inr ⟨Function.update_self _ _ _, rfl, ?_⟩
        exact fun h => by cases h
    · have hok := hinv.senders j
      refine hok.frame rfl (Function.update_of_ne hj _ _) ?_
      intro hnotified
      rcases hok.noted hnotified with hread | ⟨hunread, hlength, hpending⟩
      · exact Or.inl hread
      · -- a number that is not read yet is stored again
        refine Or.inr ⟨?_, hlength, hpending⟩
        by_cases htarget : (t.ipi j).recvCpu = (t.ipi k).recvCpu
        · rw [htarget] at hunread ⊢
          rw [hunread] at htimely
          have hsame : (t.ipi j).msgId = (t.ipi k).msgId := by
            simpa using htimely
          simp only [Function.update_self, hsame]
        · simp only [Function.update_of_ne htarget]
          exact hunread

theorem bmHwiTrigger_enabled {pending : ℕ → Bool} (hcpu : cpu < bmMaxCoreNum) :
    (bmHwiTrigger true pending ipiIntNo (0 ||| 1 <<< cpu)).2 =
      fun core => pending core || decide (cpu = core) := by
  have hmap : 0 ||| 1 <<< cpu = 2 ^ cpu := by
    rw [Nat.zero_or, Nat.one_shiftLeft]
  have hfits : ¬ bmCoreMap < 2 ^ cpu := by
    have hlt : cpu < 4 := hcpu
    interval_cases cpu <;> decide
  have hint : ¬ minPpiId ≤ ipiIntNo := by decide
  simp only [bmHwiTrigger, hmap, if_neg hint, if_neg hfits, Bool.not_true, Bool.false_eq_true,
    if_false, Nat.testBit_two_pow]

theorem IpiInv.raise (hinv : IpiInv L mem₀ t) (hpc : (t.ipi k).pc = .raise)
    (henabled : t.enabled (t.ipi k).core = true) :
    IpiInv L mem₀ ({ t with
      pending := (bmHwiTrigger (t.enabled (t.ipi k).core) t.pending ipiIntNo
        (0 ||| 1 <<< (t.ipi k).recvCpu)).2 }.goto k (.returned bmOk)) := by
  have hnotified : (t.ipi k).pc.notified := by
    rw [hpc]
    trivial
  obtain ⟨hcpu, hid⟩ := (hinv.senders k).target (Or.inr hnotified)
  rw [henabled, bmHwiTrigger_enabled hcpu]
  refine ⟨hinv.box, ?_, hinv.running, ?_⟩
  · intro core hcore
    have hok := hinv.cores core hcore
    refine CoreOk.frame hok rfl rfl ?_
    exact HandlerOk.congr hok.handler rfl rfl rfl fun _ _ _ h => h
  · intro j
    by_cases hj : j = k
    · subst hj
      refine ⟨?_, ?_, ?_⟩
      · simp only [IpiState.goto, Function.update_self]
        exact fun h => by cases h
      · simp only [IpiState.goto, Function.update_self]
        exact fun _ => ⟨hcpu, hid⟩
      · simp only [IpiState.goto, Function.update_self]
        intro _
        rcases (hinv.senders j).noted hnotified with hread | ⟨hunread, hlength, _⟩
        · exact Or.inl hread
        · exact Or.inr ⟨hunread, hlength, fun _ => Or.inl (by simp)⟩
    · have hok := hinv.senders j
      refine hok.frame rfl (Function.update_of_ne hj _ _) ?_
      intro h
      refine (hok.noted h).congr rfl rfl ?_
      intro hpending
      refine hpending.imp_left fun h => ?_
      simp [IpiState.goto, h]

theorem IpiInv.enter (hinv : IpiInv L mem₀ t) (hcore : core < bmMaxCoreNum) 
    (hidle : t.handler core = .idle) : IpiInv L mem₀ { t with
      pending := Function.update t.pending core false
      handler := Function.update t.handler core .entered } := by
  refine ⟨hinv.box, ?_, ?_, ?_⟩
  · intro core' hcore'
    have hok := hinv.cores core' hcore'
    refine CoreOk.frame hok rfl rfl ?_
    by_cases hc : core' = core
    · subst hc
      have hhandler := hok.handler
      unfold HandlerOk at hhandler ⊢
      rw [hidle] at hhandler
      simp only [Function.update_self]
      exact hhandler
    · refine HandlerOk.congr hok.handler ?_ rfl rfl fun _ _ _ h => h
      exact Function.update_of_ne hc _ _
  · exact hinv.running_update hcore
  · intro k
    have hok := hinv.senders k
    refine ⟨hok.sending, hok.target, ?_⟩
    intro hnotified
    refine (hok.noted hnotified).congr rfl rfl ?_
    by_cases hc : (t.ipi k).recvCpu = core
    · intro _
      right
      simp only [hc, Function.update_self]
    · simp only [Function.update_of_ne hc]
      exact id

theorem IpiInv.read {buf bufLen : ℕ} {data : Mem} {s' : State} (hinv : IpiInv L mem₀ t)
    (hentered : t.handler core = .entered)
    (hbuf : buf ≠ 0 ∧ ¬ L.isInvalidAddrLen core (buf % 2 ^ 32) bufLen)
    (hstep : next L t.box (.call r core .recv (trigger L t.box.mem core) buf bufLen data) =
      some s') :
    IpiInv L mem₀ { t with
      box := s'
      handler := Function.update t.handler core (.receiving r (trigger L t.box.mem core))
      reads := Function.update t.reads core (t.reads core ++ [trigger L t.box.mem core])
      unread := Function.update t.unread core none } := by
  have hcore : core < bmMaxCoreNum := hinv.running core (by rw [hentered]; simp)
  have hbox := hinv.box_step hstep fun _ h => by cases h
  have hmem : ∀ cpu, trigger L s'.mem cpu = trigger L t.box.mem cpu := fun cpu =>
    next_trigger hstep
  refine ⟨hbox.box, ?_, hinv.running_update hcore, ?_⟩
  · intro core' hcore'
    have hok := hbox.cores core' hcore'
    by_cases hc : core' = core
    · subst hc
      refine ⟨hok.word, ?_, ?_⟩
      · simp only [Function.update_self]
        exact fun _ h => by cases h
      · have hhandler := hok.handler
        unfold HandlerOk at hhandler ⊢
        rw [hentered] at hhandler
        simp only [Function.update_self]
        refine ⟨⟨_, rfl, hhandler⟩, ?_⟩
        have hword := (hinv.cores core' hcore').word
        simp only [next] at hstep
        split at hstep
        next =>
          cases hstep
          rw [State.setCall_call]
          refine ⟨rfl, rfl, ?_, trivial⟩
          simp only [Call.refused, not_or]
          exact ⟨by omega, hbuf.1, hbuf.2⟩
        next => cases hstep
    · refine CoreOk.frame hok rfl (Function.update_of_ne hc _ _) ?_
      refine HandlerOk.congr hok.handler ?_ ?_ rfl fun _ _ _ h => h
      · exact Function.update_of_ne hc _ _
      · exact Function.update_of_ne hc _ _
  · intro k
    have hok := hbox.senders k
    refine ⟨hok.sending, hok.target, ?_⟩
    intro hnotified
    by_cases hc : (t.ipi k).recvCpu = core
    · left
      simp only [hc, Function.update_self]
      rcases (hinv.senders k).noted hnotified with hread | ⟨hunread, hlength, _⟩
      · rw [hc] at hread
        rw [List.getElem?_append_left (List.getElem?_eq_some_iff.mp hread).1]
        exact hread
      · rw [hc] at hunread hlength
        rw [← hlength, (hinv.cores core hcore).unread _ hunread]
        simp
    · refine (hok.noted hnotified).congr ?_ ?_ ?_
      · exact Function.update_of_ne hc _ _
      · exact Function.update_of_ne hc _ _
      · simp only [Function.update_of_ne hc]
        exact id

theorem IpiInv.finish {ret : ℤ} (hinv : IpiInv L mem₀ t)
    (hhandler : t.handler core = .receiving r id) (hret : (t.box.call r).pc = .returned ret) :
    IpiInv L mem₀ { t with
      handler := Function.update t.handler core .idle
      results := Function.update t.results core
        (t.results core ++ [(id, if ret ≠ bmOk then bmFail else bmOk)]) } := by
  have hcore : core < bmMaxCoreNum := hinv.running core (by rw [hhandler]; simp)
  refine ⟨hinv.box, ?_, hinv.running_update hcore, ?_⟩
  · intro core' hcore'
    have hok := hinv.cores core' hcore'
    refine CoreOk.frame hok rfl rfl ?_
    by_cases hc : core' = core
    · subst hc
      have hold := hok.handler
      unfold HandlerOk at hold ⊢
      rw [hhandler] at hold
      obtain ⟨⟨ids, hreads, hresults⟩, hrec⟩ := hold
      have hok : ret = bmOk := by
        have htrack := hrec.track
        rw [hret] at htrack
        exact htrack
      simp only [Function.update_self, hreads, hresults, hok, reported]
      simp
    · refine HandlerOk.congr hok.handler ?_ rfl ?_ fun _ _ _ h => h
      · exact Function.update_of_ne hc _ _
      · exact Function.update_of_ne hc _ _
  · intro k
    have hok := hinv.senders k
    refine ⟨hok.sending, hok.target, ?_⟩
    intro hnotified
    refine (hok.noted hnotified).congr rfl rfl ?_
    by_cases hc : (t.ipi k).recvCpu = core
    · rw [hc, hhandler]
      simp
    · simp only [Function.update_of_ne hc]
      exact fun h => h

theorem IpiInv.send {recvCpu msgId buf bufLen : ℕ} {data : Mem} {s' : State}
    (hinv : IpiInv L mem₀ t)
    (hstep : next L t.box (.call k core .send msgId buf bufLen data) = some s') :
    IpiInv L mem₀ { t with
      box := s'
      ipi := Function.update t.ipi k ⟨core, recvCpu, msgId, .sending, 0⟩ } := by
  have hbox := hinv.box_step hstep fun _ h => by cases h
  refine ⟨hbox.box, ?_, hinv.running, ?_⟩
  · intro core' hcore'
    have hok := hbox.cores core' hcore'
    exact CoreOk.frame hok rfl rfl (HandlerOk.congr hok.handler rfl rfl rfl fun _ _ _ h => h)
  · intro j
    by_cases hj : j = k
    · subst hj
      refine ⟨?_, ?_, ?_⟩
      · intro _
        simp only [next] at hstep
        split at hstep
        next =>
          cases hstep
          simp
        next => cases hstep
      · simp only [Function.update_self]
        rintro (h | h)
        · cases h
        · exact h.elim
      · simp only [Function.update_self]
        exact False.elim
    · have hok := hbox.senders j
      refine ⟨?_, ?_, ?_⟩
      · simp only [Function.update_of_ne hj]
        exact hok.sending
      · simp only [Function.update_of_ne hj]
        exact hok.target
      · simp only [Function.update_of_ne hj]
        exact fun h => (hok.noted h).congr rfl rfl id

theorem IpiInv.advance (hinv : IpiInv L mem₀ t) (htimely : Timely L t (.advance k))
    (hstep : sendWithIpi L t k = some t') : IpiInv L mem₀ t' := by
  have hfail : ¬ IpiPc.notified (.returned bmFail) := by
    have hne : bmFail ≠ bmOk := by decide
    exact hne
  cases hpc : (t.ipi k).pc with
  | absent | returned ret =>
    simp only [sendWithIpi, hpc] at hstep
    cases hstep
  | sending =>
    simp only [sendWithIpi, hpc] at hstep
    split at hstep
    next ret hret =>
      split at hstep
      next =>
        cases hstep
        exact hinv.goto (by simp) hfail fun h => by cases h
      next hok =>
        split at hstep
        next =>
          cases hstep
          exact hinv.goto (by simp) hfail fun h => by cases h
        next hcpu =>
          cases hstep
          apply hinv.goto (by simp) id
          intro _
          have hsent : (t.box.call k).pc.checked := by
            rw [hret]
            exact not_not.mp hok
          have hid := ((hinv.senders k).sending hpc).2
          refine ⟨by omega, ?_⟩
          rw [← hid]
          exact msgId_lt ((hinv.box.calls k).valid hsent)
    next => cases hstep
  | setTrigger =>
    simp only [sendWithIpi, hpc, Option.some.injEq] at hstep
    subst hstep
    exact hinv.storeTrigger hpc (htimely.1 hpc)
  | raise =>
    simp only [sendWithIpi, hpc, Option.some.injEq] at hstep
    subst hstep
    exact hinv.raise hpc (htimely.2 hpc)

theorem IpiInv.next {a : IpiAction} (hinv : IpiInv L mem₀ t) (htimely : Timely L t a)
    (hstep : ipiNext L t a = some t') : IpiInv L mem₀ t' := by
  cases a with
  | box a =>
    simp only [ipiNext, Option.map_eq_some_iff] at hstep
    obtain ⟨s', hbox, rfl⟩ := hstep
    apply hinv.box_step hbox
    rintro r rfl hpc hhandler
    exact htimely hpc hhandler
  | send k core recvCpu msgId buf bufLen data =>
    simp only [ipiNext] at hstep
    split at hstep
    next =>
      obtain ⟨s', hbox, rfl⟩ := Option.map_eq_some_iff.mp hstep
      exact hinv.send hbox
    next => cases hstep
  | advance k => exact hinv.advance htimely hstep
  | irq core on =>
    cases hstep
    refine ⟨hinv.box, ?_, hinv.running, ?_⟩
    · intro core' hcore'
      have hok := hinv.cores core' hcore'
      exact CoreOk.frame hok rfl rfl (HandlerOk.congr hok.handler rfl rfl rfl fun _ _ _ h => h)
    · intro k
      have hok := hinv.senders k
      exact ⟨hok.sending, hok.target, fun h => (hok.noted h).congr rfl rfl id⟩
  | enter core =>
    simp only [ipiNext] at hstep
    split at hstep
    next hready =>
      cases hstep
      exact hinv.enter hready.1 hready.2.1
    next => cases hstep
  | recv core r buf bufLen data =>
    simp only [ipiNext, recvWithIpi] at hstep
    split at hstep
    next hentered =>
      rw [if_neg htimely.1] at hstep
      split at hstep
      next => cases hstep
      next s' hbox =>
        cases hstep
        exact hinv.read hentered htimely hbox
    next => cases hstep
  | finish core =>
    simp only [ipiNext, recvReturns] at hstep
    split at hstep
    next r id hhandler =>
      split at hstep
      next ret hret =>
        cases hstep
        exact hinv.finish hhandler hret
      next => cases hstep
    next => cases hstep

theorem trigger_foldl_setTrigger (n : ℕ) (mem : Mem) (hn : n ≤ bmMaxCoreNum) (hcpu : cpu < n) :
    trigger L ((List.range n).foldl (fun mem i => setTrigger L mem i 0) mem) cpu = 0 := by
  induction n with
  | zero => omega
  | succ n ih =>
    rw [List.range_succ, List.foldl_append, List.foldl_cons, List.foldl_nil]
    by_cases hlast : cpu = n
    · subst hlast
      exact trigger_setTrigger (by decide)
    · rw [trigger_setTrigger_other (by omega) (by omega) (Ne.symm hlast)]
      exact ih (by omega) (by omega)

theorem IpiInv.initial (hinit : ipiInitial L mem₀ t) : IpiInv L mem₀ t := by
  obtain ⟨hbox, hipi, hcores⟩ := hinit
  refine ⟨Inv.initial hbox, ?_, ?_, ?_⟩
  · intro core hcore
    obtain ⟨_, hhandler, hreads, hresults, hunread⟩ := hcores core
    refine ⟨?_, ?_, ?_⟩
    · rw [hbox.1, bmMsgInit, trigger_foldl_setTrigger bmMaxCoreNum _ le_rfl hcore]
      decide
    · rw [hunread]
      exact fun _ h => by cases h
    · unfold HandlerOk
      rw [hhandler, hreads, hresults]
      rfl
  · intro core hrunning
    exact absurd (hcores core).2.1 hrunning
  · intro k
    refine ⟨?_, ?_, ?_⟩
    · rw [hipi k]
      exact fun h => by cases h
    · rw [hipi k]
      rintro (h | h)
      · cases h
      · exact h.elim
    · rw [hipi k]
      exact False.elim

theorem IpiInv.routed (hinv : IpiInv L mem₀ t) : Routed t := by
  intro k hpc hpending hidle
  have hok := hinv.senders k
  have hnotified : (t.ipi k).pc.notified := by
    rw [hpc]
    exact rfl
  rcases hok.noted hnotified with hread | ⟨_, _, hwaiting⟩
  · have hhandler := (hinv.cores _ (hok.target (Or.inr hnotified)).1).handler
    unfold HandlerOk at hhandler
    rw [hidle] at hhandler
    refine ⟨(t.ipi k).mark, le_rfl, ?_⟩
    rw [hhandler, reported, List.getElem?_map, hread]
    rfl
  · rcases hwaiting hpc with h | h
    · rw [hpending] at h
      cases h
    · rw [hidle] at h
      cases h

/-- In a timely run every message that was sent with success is reported by its target,
under its own number, as soon as the target has handled what is pending. -/
theorem timely_notifications_routed
    (hreach : ((ipiSystem L mem₀).restrict (Timely L)).Reachable t) : Routed t := by
  suffices hinv : IpiInv L mem₀ t from hinv.routed
  refine hreach.invariant (P := IpiInv L mem₀) (fun _ => IpiInv.initial) ?_
  rintro t a t' - hinv ⟨htimely, hstep⟩
  exact hinv.next htimely hstep

def idle : IpiState where
  box := quiet
  ipi := fun _ => ⟨0, 0, 0, .absent, 0⟩
  pending := fun _ => false
  enabled := fun _ => true
  handler := fun _ => .idle
  reads := fun _ => []
  results := fun _ => []
  unread := fun _ => none

theorem idle_initial : ipiInitial layout0 (fun _ => 0) idle :=
  ⟨⟨rfl, fun _ => ⟨rfl, rfl⟩, fun _ => ⟨rfl, rfl⟩⟩, fun _ => rfl,
    fun _ => ⟨rfl, rfl, rfl, rfl, rfl⟩⟩

def oneByte (k : ℕ) : List IpiAction :=
  List.replicate 3 (IpiAction.box (.advance k)) ++
    IpiAction.box (.copy k 0) :: List.replicate 2 (IpiAction.box (.advance k))

def sendByte (k msgId : ℕ) : List IpiAction :=
  .send k k 3 msgId (0x90000010 + k * 0x1000000) 1 (fun _ => 0xAB) :: oneByte k ++
    [IpiAction.advance k, .advance k]

def handle (r : ℕ) : List IpiAction :=
  [IpiAction.enter 3, .recv 3 r 0x93000010 1 (fun _ => 0)] ++ oneByte r ++ [IpiAction.finish 3]

def timelyRun : List IpiAction :=
  sendByte 0 1 ++ [IpiAction.advance 0] ++ handle 10 ++ sendByte 1 2 ++ [IpiAction.advance 1] ++
    handle 11

def afterTimely : IpiState :=
  (runSteps (guarded (Timely layout0) (ipiNext layout0)) idle timelyRun).get (by decide +kernel)

theorem afterTimely_reachable :
    ((ipiSystem layout0 fun _ => 0).restrict (Timely layout0)).Reachable afterTimely := by
  have hstart : ((ipiSystem layout0 fun _ => 0).restrict (Timely layout0)).Reachable idle :=
    Reachable.init idle_initial
  exact hstart.runGuarded (l := timelyRun) (Option.some_get _).symm

theorem timely_notifications_routed_twice :
    Routed afterTimely ∧ afterTimely.results 3 = [(1, bmOk), (2, bmOk)] := by
  refine ⟨timely_notifications_routed afterTimely_reachable, ?_⟩
  decide +kernel

def hastyRun : List IpiAction :=
  sendByte 0 1 ++ sendByte 1 2 ++ [IpiAction.advance 0, .advance 1] ++ handle 10

def afterHasty : IpiState :=
  (runSteps (ipiNext layout0) idle hastyRun).get (by decide +kernel)

/-- The first message has been sent with success, nothing is pending any more, and
core 3 has only reported the second one. -/
theorem overwritten_notification_lost :
    (ipiSystem layout0 fun _ => 0).Reachable afterHasty ∧ ¬ Routed afterHasty ∧
      (afterHasty.ipi 0).pc = .returned bmOk ∧ (afterHasty.ipi 1).pc = .returned bmOk ∧
      afterHasty.results 3 = [(2, bmOk)] := by
  have hstart : (ipiSystem layout0 fun _ => 0).Reachable idle := Reachable.init idle_initial
  have hresults : afterHasty.results 3 = [(2, bmOk)] := by decide +kernel
  have hcall : (afterHasty.ipi 0).pc = .returned bmOk ∧ (afterHasty.ipi 0).recvCpu = 3 ∧
      (afterHasty.ipi 0).msgId = 1 := by decide +kernel
  refine ⟨hstart.runSteps (l := hastyRun) (Option.some_get _).symm, ?_, hcall.1, ?_, hresults⟩
  · intro hrouted
    obtain ⟨hpc, hcpu, hid⟩ := hcall
    have hpending : afterHasty.pending 3 = false := by decide +kernel
    have hidle : afterHasty.handler 3 = .idle := by decide +kernel
    have hreport := hrouted 0 hpc
    rw [hcpu, hid, hresults] at hreport
    obtain ⟨i, _, hi⟩ := hreport hpending hidle
    have hmem : (1, bmOk) ∈ [(2, bmOk)] := List.mem_of_getElem? hi
    simp at hmem
  · decide +kernel

end HiMpu.Message
