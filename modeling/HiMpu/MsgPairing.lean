import HiMpu.MsgScm3

/-!
# Requests and responses of the secure M3

The `SEC_MODULE_CMD_TX_RX` ioctl of `msg_scm3.c`, from the allocation of a buffer
index to its release, with any number of calls at work.  An index has one
completion, one saved pointer to a ring slot and one data slot.  The wait of a call
may expire, and its answer come later: then the answer belongs to whoever has the
index by that time.
-/

namespace HiMpu.MsgScm3

def msgSendRetryTimes : ℕ := 100
def msgRespCmdMask : UInt8 := 0x80

inductive CallPc where
  | absent
  | getBuffer (cmd : SecModuleCmd)
  | copyIn (i : ℕ) (cmd : SecModuleCmd)
  | send (i : ℕ) (cmd : SecModuleCmd) (time : ℕ)
  | wait (i : ℕ) (cmd : SecModuleCmd)
  | copyHeader (i : ℕ) (cmd : SecModuleCmd)
  | checkInternal (i : ℕ) (cmd : SecModuleCmd) (msg : Mem)
  | copyOut (i : ℕ) (cmd : SecModuleCmd) (msg : Mem)
  | release (i : ℕ) (ret : ℤ)
  | returned (ret : ℤ)

def CallPc.holds : CallPc → Option ℕ
  | .absent | .getBuffer _ | .returned _ => none
  | .copyIn i _ | .send i _ _ | .wait i _ | .copyHeader i _ | .checkInternal i _ _
  | .copyOut i _ _ | .release i _ => some i

inductive Phase where
  | unsent
  | sent
  | produced
  | pushed
  | saved
  | completed
  | received
deriving DecidableEq

structure PairState where
  bufStatus : ℕ → Bool
  completion : ℕ → ℕ
  userAddr : ℕ → Option ℕ
  ring : MsgQueue
  data : ℕ → Mem
  handler : HandlerPc
  count : ℕ
  calls : ℕ → CallPc
  phase : ℕ → Phase
  index : ℕ → ℕ
  /-- What the M3 has written for the request. -/
  payload : ℕ → Mem
  header : ℕ → Mem
  slotOf : ℕ → ℕ
  log : List ℕ
  taken : ℕ
  /-- The header and the payload that a call has handed out. -/
  delivered : ℕ → Option (List UInt8 × List UInt8)

def msgGetDataBuffer (bufStatus : ℕ → Bool) : Option ℕ :=
  (List.range msgQDepth).find? fun i => !bufStatus i

def PairState.goto (s : PairState) (k : ℕ) (pc : CallPc) : PairState :=
  { s with calls := Function.update s.calls k pc }

def PairState.setPhase (s : PairState) (k : ℕ) (p : Phase) : PairState :=
  { s with phase := Function.update s.phase k p }

/-- `memcpy_s` from a null pointer clears its destination. -/
def PairState.savedEntry (s : PairState) (i : ℕ) : Mem :=
  match s.userAddr i with
  | some slot => s.ring.slot slot
  | none => fun _ => 0

/-- The next step of a call.  The bits tell whether the copies from or to user
space, or `msg_cmd_send`, succeed; `user` is what user space holds. -/
def callStep (s : PairState) (k : ℕ) (ok ok' : Bool) (user : Mem) : CallPc → Option PairState
  | .absent | .returned _ => none
  | .getBuffer cmd =>
    match msgGetDataBuffer s.bufStatus with
    | some i =>
      some ({ s with
        bufStatus := Function.update s.bufStatus i true
        index := Function.update s.index k i }.goto k (.copyIn i cmd))
    | none => some (s.goto k (.returned (-msgGetDataBufferError)))
  | .copyIn i cmd =>
    if ok then
      some ({ s with
        data := Function.update s.data i ((s.data i).write 0 (user.bytes 0 cmd.sLen)) }.goto k
        (.send i cmd 0))
    else some (s.goto k (.release i (-msgCpFromUserDataError)))
  | .send i cmd time =>
    if time < msgSendRetryTimes then
      if ok then some ((s.setPhase k .sent).goto k (.wait i cmd))
      else some (s.goto k (.send i cmd (time + 1)))
    else some (s.goto k (.release i (-msgTxTimeOutError)))
  | .wait i cmd =>
    if 0 < s.completion i then
      some (({ s with
        completion := Function.update s.completion i (s.completion i - 1) }.setPhase k
        .received).goto k (.copyHeader i cmd))
    else none
  | .copyHeader i cmd => some (s.goto k (.checkInternal i cmd (s.savedEntry i)))
  | .checkInternal i cmd msg =>
    if s.data i 0 &&& msgRespCmdMask ≠ 0 then some (s.goto k (.copyOut i cmd msg))
    else some (s.goto k (.release i (-msgCommInternalError)))
  | .copyOut i cmd msg =>
    let out := msgSecModuleCmdReply cmd (dataLen msg) ok ok'
    let handed := (msg.bytes 0 msgCmdLen, (s.data i).bytes 0 (dataLen msg))
    some ({ s with
      delivered := Function.update s.delivered k (if out.ret = 0 then some handed else none) }.goto
      k (.release i out.ret))
  | .release i ret =>
    some ({ s with bufStatus := Function.update s.bufStatus i false }.goto k (.returned ret))

def expireStep (s : PairState) (k : ℕ) : Option PairState :=
  match s.calls k with
  | .wait i _ =>
    if s.completion i = 0 then some (s.goto k (.release i (-msgRxTimeOutError))) else none
  | _ => none

/-! ## The M3 and the handler -/

/-- The M3 answers each request at most once.  It writes the payload to the data
slot of the request. -/
def produceStep (s : PairState) (k : ℕ) (payload : Mem) : Option PairState :=
  if s.phase k = .sent then
    some ({ s with
      data := Function.update s.data (s.index k) payload
      payload := Function.update s.payload k payload }.setPhase k .produced)
  else none

/-- It puts an entry with the index of the request into the ring. -/
def pushStep (s : PairState) (k : ℕ) (entry : Mem) : Option PairState :=
  if s.phase k = .produced ∧ msgIndex entry = s.index k then
    some ({ s with
      ring := { s.ring.setSlot s.ring.pi entry with pi := (s.ring.pi + 1) % msgQDepth }
      header := Function.update s.header k entry
      slotOf := Function.update s.slotOf k s.ring.pi
      log := s.log ++ [k] }.setPhase k .pushed)
  else none

def PairState.advancePhase (s : PairState) (p : Phase) : PairState :=
  match s.log[s.taken]? with
  | some k => s.setPhase k p
  | none => s

def handlerStep (s : PairState) : PairState :=
  let after := msgDelayworkHandle s.ring s.handler
  match after.2.2 with
  | some (.userAddr i slot) =>
    { s with handler := after.1, userAddr := Function.update s.userAddr i (some slot) }.advancePhase
      .saved
  | some (.completed i) =>
    { s with
      handler := after.1
      completion := Function.update s.completion i (s.completion i + 1) }.advancePhase .completed
  | none =>
    { s with
      handler := after.1
      ring := after.2.1
      taken := match s.handler with
        | .storeCi _ => s.taken + 1
        | _ => s.taken }

inductive PairLabel where
  | call (cmd : Option SecModuleCmd)
  | step (k : ℕ) (ok ok' : Bool) (user : Mem)
  | expire (k : ℕ)
  | produce (k : ℕ) (payload : Mem)
  | push (k : ℕ) (entry : Mem)
  | work
  | handler

def callEntry : Option SecModuleCmd → CallPc
  | none => .returned (-msgCpFromUserCmdError)
  | some cmd =>
    if msgCheckIoctlUserData cmd ≠ 0 then .returned (msgCheckIoctlUserData cmd)
    else .getBuffer cmd

def pairNext (s : PairState) : PairLabel → Option PairState
  | .call cmd => some ({ s with count := s.count + 1 }.goto s.count (callEntry cmd))
  | .step k ok ok' user => callStep s k ok ok' user (s.calls k)
  | .expire k => expireStep s k
  | .produce k payload => produceStep s k payload
  | .push k entry => pushStep s k entry
  | .work =>
    match s.handler with
    | .idle => some { s with handler := .readPi }
    | _ => none
  | .handler => some (handlerStep s)

def pairStart : PairState where
  bufStatus := fun _ => false
  completion := fun _ => 0
  userAddr := fun _ => none
  ring := ⟨0, 0, msgQInitMagic, fun _ _ => 0⟩
  data := fun _ _ => 0
  handler := .idle
  count := 0
  calls := fun _ => .absent
  phase := fun _ => .unsent
  index := fun _ => 0
  payload := fun _ _ => 0
  header := fun _ _ => 0
  slotOf := fun _ => 0
  log := []
  taken := 0
  delivered := fun _ => none

def pairSystem : TransitionSystem PairState PairLabel :=
  TransitionSystem.ofStep (· = pairStart) pairNext

/-! ## What is asked of the runs -/

def Phase.inRing : Phase → Bool
  | .pushed | .saved | .completed | .received => true
  | .unsent | .sent | .produced => false

def Phase.active : Phase → Bool
  | .produced | .pushed | .saved | .completed => true
  | .unsent | .sent | .received => false

def CallPc.isWait : CallPc → Bool
  | .wait _ _ => true
  | _ => false

def PairState.uncopied (s : PairState) (k : ℕ) : Bool :=
  (s.phase k).inRing && match s.calls k with
    | .wait _ _ | .copyHeader _ _ => true
    | _ => false

/-- A wait expires only before its answer is begun, no answer is begun after that,
and no slot of the ring is used again before the call has copied its entry. -/
def Timely (s : PairState) : PairLabel → Prop
  | .expire k => s.phase k = .sent
  | .produce k _ => (s.calls k).isWait = true
  | .push _ _ => ∀ l < s.count, s.uncopied l = true → s.slotOf l ≠ s.ring.pi
  | _ => True

instance decidableTimely (s : PairState) : (a : PairLabel) → Decidable (Timely s a)
  | .expire _ => inferInstanceAs (Decidable (_ = _))
  | .produce _ _ => inferInstanceAs (Decidable (_ = _))
  | .push _ _ => inferInstanceAs (Decidable (∀ l < s.count, _ → _))
  | .call _ | .step _ _ _ _ | .work | .handler => inferInstanceAs (Decidable True)

def Delivered (s : PairState) (k : ℕ) : Prop :=
  k ∈ s.log ∧ s.delivered k =
    some ((s.header k).bytes 0 msgCmdLen, (s.payload k).bytes 0 (dataLen (s.header k)))

def Paired (s : PairState) : Prop :=
  ∀ k, s.calls k = .returned 0 → Delivered s k

def Phase.hasData : Phase → Bool
  | .unsent | .sent => false
  | .produced | .pushed | .saved | .completed | .received => true

def Phase.isSaved : Phase → Bool
  | .saved | .completed | .received => true
  | .unsent | .sent | .produced | .pushed => false

/-- The answer of call `k`, as far as it has come, is where the call will look for
it. -/
structure Answer (s : PairState) (k i : ℕ) : Prop where
  data : (s.phase k).hasData = true → s.data i = s.payload k
  entry : (s.phase k).inRing = true →
    k ∈ s.log ∧ s.ring.slot (s.slotOf k) = s.header k ∧ msgIndex (s.header k) = i
  saved : (s.phase k).isSaved = true → s.userAddr i = some (s.slotOf k)

def CallOk (s : PairState) (k : ℕ) : CallPc → Prop
  | .absent | .getBuffer _ | .copyIn _ _ | .send _ _ _ => s.phase k = .unsent
  | .wait i _ => s.phase k ≠ .unsent ∧ s.phase k ≠ .received ∧ Answer s k i
  | .copyHeader i _ => s.phase k = .received ∧ Answer s k i
  | .checkInternal i _ msg | .copyOut i _ msg =>
    s.phase k = .received ∧ k ∈ s.log ∧ msg = s.header k ∧ s.data i = s.payload k
  | .release _ ret | .returned ret => (s.phase k).active = false ∧ (ret = 0 → Delivered s k)

/-- An index has one holder, and a completion that is its own. -/
structure Holding (s : PairState) : Prop where
  held : ∀ k i, (s.calls k).holds = some i → i < msgQDepth ∧ s.bufStatus i = true ∧
    s.index k = i ∧ s.completion i = if s.phase k = .completed then 1 else 0
  unique : ∀ k l i, (s.calls k).holds = some i → (s.calls l).holds = some i → k = l
  free : ∀ i, s.bufStatus i = false → s.completion i = 0

def HandlerPhase : HandlerPc → Phase → Prop
  | .complete _, p => p = .saved
  | .storeCi _, p => p = .completed ∨ p = .received
  | _, p => p = .pushed

def HandlerRead (s : PairState) : HandlerPc → Prop
  | .idle | .readPi => True
  | .readCi pi => ∃ n, s.taken ≤ n ∧ n ≤ s.log.length ∧ pi = n % msgQDepth
  | .test pi ci => (∃ n, s.taken ≤ n ∧ n ≤ s.log.length ∧ pi = n % msgQDepth) ∧
      ci = s.taken % msgQDepth
  | .crc ci _ _ | .compare ci _ | .saveAddr ci | .complete ci | .storeCi ci =>
    s.taken < s.log.length ∧ ci = s.taken % msgQDepth

structure LogOk (s : PairState) : Prop where
  pi : s.ring.pi = s.log.length % msgQDepth
  ci : s.ring.ci = s.taken % msgQDepth
  le : s.taken ≤ s.log.length
  nodup : s.log.Nodup
  mem : ∀ k ∈ s.log, (s.phase k).inRing = true
  slot : ∀ p k, s.log[p]? = some k → s.slotOf k = p % msgQDepth
  later : ∀ p k, s.log[p]? = some k → s.taken < p → s.phase k = .pushed
  current : ∀ k, s.log[s.taken]? = some k → HandlerPhase s.handler (s.phase k)
  read : HandlerRead s s.handler

structure PairInv (s : PairState) : Prop where
  fresh : ∀ k, s.count ≤ k → s.calls k = .absent
  calls : ∀ k, CallOk s k (s.calls k)
  holding : Holding s
  log : LogOk s

theorem pairInv_start : PairInv pairStart where
  fresh := fun _ _ => rfl
  calls := fun _ => rfl
  holding := by
    refine ⟨?_, ?_, fun _ _ => rfl⟩
    · intro k i hi
      cases hi
    · intro k l i hi
      cases hi
  log := by
    refine ⟨rfl, rfl, Nat.le_refl 0, List.nodup_nil, ?_, ?_, ?_, ?_, trivial⟩
    · intro k hk
      cases hk
    · intro p k hk
      cases hk
    · intro p k hk
      cases hk
    · intro k hk
      cases hk

theorem PairInv.paired {s : PairState} (hinv : PairInv s) : Paired s := by
  intro k hk
  have hcall := hinv.calls k
  rw [hk] at hcall
  exact hcall.2 rfl

theorem PairInv.wait_of_active {s : PairState} (hinv : PairInv s) {k : ℕ}
    (hactive : (s.phase k).active = true) : ∃ i cmd, s.calls k = .wait i cmd := by
  have hcall := hinv.calls k
  cases hpc : s.calls k with
  | wait i cmd => exact ⟨i, cmd, rfl⟩
  | absent | getBuffer | copyIn | send =>
    rw [hpc] at hcall
    rw [show s.phase k = .unsent from hcall] at hactive
    cases hactive
  | copyHeader | checkInternal | copyOut =>
    rw [hpc] at hcall
    rw [hcall.1] at hactive
    cases hactive
  | release | returned =>
    rw [hpc] at hcall
    rw [hcall.1] at hactive
    cases hactive

/-! ## Frames -/

structure Untouched (s t : PairState) (l : ℕ) : Prop where
  pc : t.calls l = s.calls l
  phase : t.phase l = s.phase l
  payload : t.payload l = s.payload l
  header : t.header l = s.header l
  slotOf : t.slotOf l = s.slotOf l
  delivered : t.delivered l = s.delivered l
  log : ∀ x ∈ s.log, x ∈ t.log
  data : ∀ i, (s.calls l).holds = some i → t.data i = s.data i
  userAddr : ∀ i, (s.calls l).holds = some i → t.userAddr i = s.userAddr i
  slot : s.uncopied l = true → t.ring.slot (s.slotOf l) = s.ring.slot (s.slotOf l)

namespace Untouched

variable {s t : PairState} {l : ℕ}

theorem delivery (h : Untouched s t l) (hd : Delivered s l) : Delivered t l := by
  refine ⟨h.log l hd.1, ?_⟩
  rw [h.delivered, h.header, h.payload]
  exact hd.2

theorem answer (h : Untouched s t l) {i : ℕ} (hi : (s.calls l).holds = some i)
    (hstage : (s.phase l).inRing = true → s.uncopied l = true) (ha : Answer s l i) :
    Answer t l i := by
  refine ⟨?_, ?_, ?_⟩
  · rw [h.phase, h.data i hi, h.payload]
    exact ha.data
  · rw [h.phase, h.slotOf, h.header]
    intro hring
    obtain ⟨hlog, hslot, hindex⟩ := ha.entry hring
    exact ⟨h.log l hlog, (h.slot (hstage hring)).trans hslot, hindex⟩
  · rw [h.phase, h.userAddr i hi, h.slotOf]
    exact ha.saved

theorem callOk (h : Untouched s t l) (hok : CallOk s l (s.calls l)) :
    CallOk t l (t.calls l) := by
  rw [h.pc]
  cases hpc : s.calls l with
  | absent | getBuffer | copyIn | send =>
    rw [hpc] at hok
    exact h.phase.trans hok
  | wait i cmd =>
    rw [hpc] at hok
    refine ⟨h.phase ▸ hok.1, h.phase ▸ hok.2.1, h.answer (by rw [hpc]; rfl) ?_ hok.2.2⟩
    intro hring
    simp [PairState.uncopied, hpc, hring]
  | copyHeader i cmd =>
    rw [hpc] at hok
    refine ⟨h.phase.trans hok.1, h.answer (by rw [hpc]; rfl) ?_ hok.2⟩
    intro hring
    simp [PairState.uncopied, hpc, hring]
  | checkInternal i cmd msg | copyOut i cmd msg =>
    rw [hpc] at hok
    obtain ⟨h1, h2, h3, h4⟩ := hok
    refine ⟨h.phase.trans h1, h.log l h2, h3.trans h.header.symm, ?_⟩
    rw [h.data i (by rw [hpc]; rfl), h.payload]
    exact h4
  | release i ret | returned ret =>
    rw [hpc] at hok
    exact ⟨h.phase ▸ hok.1, fun hret => h.delivery (hok.2 hret)⟩

end Untouched

theorem handlerRead_of {s t : PairState} {pc : HandlerPc} (hlog : s.log.length ≤ t.log.length)
    (htaken : t.taken = s.taken) (h : HandlerRead s pc) : HandlerRead t pc := by
  cases pc with
  | idle | readPi => trivial
  | readCi pi =>
    obtain ⟨n, h1, h2, h3⟩ := h
    exact ⟨n, htaken ▸ h1, h2.trans hlog, h3⟩
  | test pi ci =>
    obtain ⟨⟨n, h1, h2, h3⟩, h4⟩ := h
    exact ⟨⟨n, htaken ▸ h1, h2.trans hlog, h3⟩, htaken ▸ h4⟩
  | crc ci _ _ | compare ci _ | saveAddr ci | complete ci | storeCi ci =>
    exact ⟨htaken ▸ h.1.trans_le hlog, htaken ▸ h.2⟩

theorem handlerPhase_received {pc : HandlerPc} (h : HandlerPhase pc .completed) :
    HandlerPhase pc .received := by
  cases pc with
  | storeCi ci => exact Or.inr rfl
  | _ => cases h

theorem LogOk.frame {s t : PairState} (h : LogOk s) (hring : t.ring = s.ring)
    (hlog : t.log = s.log) (htaken : t.taken = s.taken) (hhandler : t.handler = s.handler)
    (hslot : t.slotOf = s.slotOf)
    (hphase : ∀ l ∈ s.log, t.phase l = s.phase l ∨
      (s.phase l = .completed ∧ t.phase l = .received)) : LogOk t := by
  have hmem : ∀ (p k : ℕ), t.log[p]? = some k → k ∈ s.log := by
    intro p k hk
    rw [hlog] at hk
    exact List.mem_of_getElem? hk
  refine ⟨by rw [hring, hlog]; exact h.pi, by rw [hring, htaken]; exact h.ci,
    by rw [htaken, hlog]; exact h.le, hlog ▸ h.nodup, ?_, ?_, ?_, ?_, ?_⟩
  · intro k hk
    rw [hlog] at hk
    rcases hphase k hk with heq | ⟨-, heq⟩
    · rw [heq]
      exact h.mem k hk
    · rw [heq]
      rfl
  · intro p k hk
    rw [hslot]
    exact h.slot p k (hlog ▸ hk)
  · intro p k hk hp
    have hpushed := h.later p k (hlog ▸ hk) (htaken ▸ hp)
    rcases hphase k (hmem p k hk) with heq | ⟨hdone, -⟩
    · exact heq.trans hpushed
    · rw [hpushed] at hdone
      cases hdone
  · intro k hk
    have hold := h.current k (by rw [← hlog, ← htaken]; exact hk)
    rw [hhandler]
    rcases hphase k (hmem _ k hk) with heq | ⟨hdone, heq⟩
    · rw [heq]
      exact hold
    · rw [heq]
      rw [hdone] at hold
      exact handlerPhase_received hold
  · rw [hhandler]
    exact handlerRead_of (by rw [hlog]) htaken h.read

theorem Holding.frame {s t : PairState} (h : Holding s)
    (hcalls : ∀ l, (t.calls l).holds = (s.calls l).holds) (hbuf : t.bufStatus = s.bufStatus)
    (hindex : t.index = s.index)
    (hdone : ∀ l i, (s.calls l).holds = some i →
      t.completion i = if t.phase l = .completed then 1 else 0)
    (hfree : ∀ i, s.bufStatus i = false → t.completion i = s.completion i) : Holding t := by
  refine ⟨?_, ?_, ?_⟩
  · intro k i hi
    rw [hcalls] at hi
    obtain ⟨h1, h2, h3, -⟩ := h.held k i hi
    exact ⟨h1, hbuf ▸ h2, hindex ▸ h3, hdone k i hi⟩
  · intro k l i hk hl
    rw [hcalls] at hk hl
    exact h.unique k l i hk hl
  · intro i hi
    rw [hbuf] at hi
    exact (hfree i hi).trans (h.free i hi)

theorem Holding.setPhase {s t : PairState} {k : ℕ} {p : Phase} (h : Holding s)
    (hcalls : t.calls = s.calls) (hbuf : t.bufStatus = s.bufStatus) (hindex : t.index = s.index)
    (hcompletion : t.completion = s.completion) (hphase : t.phase = s.phase)
    (hold : s.phase k ≠ .completed) (hnew : p ≠ .completed) : Holding (t.setPhase k p) := by
  have hsame : (t.setPhase k p).calls = s.calls := hcalls
  have hdone : (t.setPhase k p).completion = s.completion := hcompletion
  refine h.frame (fun l => by rw [hsame]) hbuf hindex ?_ fun _ _ => by rw [hdone]
  intro l i hi
  have hheld := (h.held l i hi).2.2.2
  rw [hdone, hheld]
  by_cases hl : l = k
  · subst hl
    simp only [PairState.setPhase, Function.update_self, if_neg hold, if_neg hnew]
  · simp only [PairState.setPhase, Function.update_of_ne hl, hphase]

theorem goto_calls_self (s : PairState) (k : ℕ) (pc : CallPc) : (s.goto k pc).calls k = pc :=
  Function.update_self ..

theorem goto_calls_of_ne (s : PairState) {k l : ℕ} (pc : CallPc) (hne : l ≠ k) :
    (s.goto k pc).calls l = s.calls l :=
  Function.update_of_ne hne ..

theorem goto_holds {s : PairState} {k : ℕ} {pc : CallPc} (hpc : (s.calls k).holds = pc.holds)
    (l : ℕ) : ((s.goto k pc).calls l).holds = (s.calls l).holds := by
  by_cases hl : l = k
  · subst hl
    rw [goto_calls_self, hpc]
  · rw [goto_calls_of_ne _ _ hl]

theorem PairInv.own {s t : PairState} {k : ℕ} (hinv : PairInv s) (hk : s.calls k ≠ .absent)
    (hcount : t.count = s.count) (hothers : ∀ l, l ≠ k → Untouched s t l)
    (hcall : CallOk t k (t.calls k)) (hholding : Holding t) (hlog : LogOk t) : PairInv t := by
  refine ⟨?_, ?_, hholding, hlog⟩
  · intro l hl
    rw [hcount] at hl
    have hne : l ≠ k := fun heq => hk (heq ▸ hinv.fresh l hl)
    rw [(hothers l hne).pc]
    exact hinv.fresh l hl
  · intro l
    by_cases hl : l = k
    · subst hl
      exact hcall
    · exact (hothers l hl).callOk (hinv.calls l)

theorem untouched_goto (s : PairState) {k l : ℕ} (pc : CallPc) (hne : l ≠ k) :
    Untouched s (s.goto k pc) l :=
  ⟨goto_calls_of_ne s pc hne, rfl, rfl, rfl, rfl, rfl, fun _ h => h, fun _ _ => rfl,
    fun _ _ => rfl, fun _ => rfl⟩

theorem PairInv.goto {s : PairState} {k : ℕ} {pc : CallPc} (hinv : PairInv s)
    (hk : s.calls k ≠ .absent) (hpc : (s.calls k).holds = pc.holds)
    (hcall : CallOk (s.goto k pc) k pc) : PairInv (s.goto k pc) := by
  refine hinv.own hk rfl (fun l hl => untouched_goto s pc hl)
    (by rw [goto_calls_self]; exact hcall) ?_ ?_
  · exact hinv.holding.frame (goto_holds hpc) rfl rfl (fun l i hi => (hinv.holding.held l i hi).2.2.2)
      (fun _ _ => rfl)
  · exact hinv.log.frame rfl rfl rfl rfl rfl (fun _ _ => Or.inl rfl)

/-! ## Preservation by the calls -/

theorem msgGetDataBuffer_spec {bufStatus : ℕ → Bool} {i : ℕ}
    (h : msgGetDataBuffer bufStatus = some i) : i < msgQDepth ∧ bufStatus i = false := by
  unfold msgGetDataBuffer at h
  have hmem := List.mem_of_find?_eq_some h
  have hfree := List.find?_some h
  exact ⟨List.mem_range.mp hmem, by simpa using hfree⟩

theorem PairInv.getBuffer {s : PairState} {k i : ℕ} {cmd : SecModuleCmd} (hinv : PairInv s)
    (hpc : s.calls k = .getBuffer cmd) (hi : msgGetDataBuffer s.bufStatus = some i) :
    PairInv ({ s with
      bufStatus := Function.update s.bufStatus i true
      index := Function.update s.index k i }.goto k (.copyIn i cmd)) := by
  obtain ⟨hlt, hfree⟩ := msgGetDataBuffer_spec hi
  have hphase : s.phase k = .unsent := by
    have hcall := hinv.calls k
    rw [hpc] at hcall
    exact hcall
  have hother : ∀ l j, (s.calls l).holds = some j → j ≠ i := by
    rintro l j hj rfl
    rw [(hinv.holding.held l j hj).2.1] at hfree
    cases hfree
  refine hinv.own (by rw [hpc]; simp) rfl ?_ (by rw [goto_calls_self]; exact hphase) ?_ ?_
  · intro l hl
    exact ⟨goto_calls_of_ne _ _ hl, rfl, rfl, rfl, rfl, rfl, fun _ h => h, fun _ _ => rfl,
      fun _ _ => rfl, fun _ => rfl⟩
  · refine ⟨?_, ?_, ?_⟩
    · intro l j hj
      by_cases hl : l = k
      · subst hl
        rw [goto_calls_self] at hj
        obtain rfl := Option.some.inj hj
        refine ⟨hlt, Function.update_self .., Function.update_self .., ?_⟩
        simp only [PairState.goto, hphase, reduceCtorEq, if_false]
        exact hinv.holding.free i hfree
      · rw [goto_calls_of_ne _ _ hl] at hj
        obtain ⟨h1, h2, h3, h4⟩ := hinv.holding.held l j hj
        simp only [PairState.goto, Function.update_of_ne (hother l j hj), Function.update_of_ne hl]
        exact ⟨h1, h2, h3, h4⟩
    · intro l m j hl hm
      by_cases hlk : l = k
      · by_cases hmk : m = k
        · exact hlk.trans hmk.symm
        · subst hlk
          rw [goto_calls_self] at hl
          rw [goto_calls_of_ne _ _ hmk] at hm
          exact absurd (Option.some.inj hl).symm (hother m j hm)
      · rw [goto_calls_of_ne _ _ hlk] at hl
        by_cases hmk : m = k
        · subst hmk
          rw [goto_calls_self] at hm
          exact absurd (Option.some.inj hm).symm (hother l j hl)
        · rw [goto_calls_of_ne _ _ hmk] at hm
          exact hinv.holding.unique l m j hl hm
    · intro j hj
      by_cases hji : j = i
      · subst hji
        simp [PairState.goto] at hj
      · simp only [PairState.goto, Function.update_of_ne hji] at hj
        exact hinv.holding.free j hj
  · exact hinv.log.frame rfl rfl rfl rfl rfl (fun _ _ => Or.inl rfl)

theorem PairInv.copyIn {s : PairState} {k i : ℕ} {cmd : SecModuleCmd} (hinv : PairInv s)
    (hpc : s.calls k = .copyIn i cmd) (m : Mem) :
    PairInv ({ s with data := Function.update s.data i m }.goto k (.send i cmd 0)) := by
  have hcall := hinv.calls k
  rw [hpc] at hcall
  have hki : (s.calls k).holds = some i := by rw [hpc]; rfl
  refine hinv.own (by rw [hpc]; simp) rfl ?_ (by rw [goto_calls_self]; exact hcall) ?_ ?_
  · intro l hl
    refine ⟨goto_calls_of_ne _ _ hl, rfl, rfl, rfl, rfl, rfl, fun _ h => h, ?_, fun _ _ => rfl,
      fun _ => rfl⟩
    intro j hj
    refine Function.update_of_ne ?_ ..
    rintro rfl
    exact hl (hinv.holding.unique l k j hj hki)
  · exact hinv.holding.frame (goto_holds (s := { s with data := _ }) hki) rfl rfl
      (fun l j hj => (hinv.holding.held l j hj).2.2.2) (fun _ _ => rfl)
  · exact hinv.log.frame rfl rfl rfl rfl rfl (fun _ _ => Or.inl rfl)

theorem PairInv.sendOk {s : PairState} {k i time : ℕ} {cmd : SecModuleCmd} (hinv : PairInv s)
    (hpc : s.calls k = .send i cmd time) :
    PairInv ((s.setPhase k .sent).goto k (.wait i cmd)) := by
  have hphase : s.phase k = .unsent := by
    have hcall := hinv.calls k
    rw [hpc] at hcall
    exact hcall
  have hself : ((s.setPhase k .sent).goto k (.wait i cmd)).phase k = .sent :=
    Function.update_self ..
  have hki : (s.calls k).holds = some i := by rw [hpc]; rfl
  refine hinv.own (by rw [hpc]; simp) rfl ?_ ?_ ?_ ?_
  · intro l hl
    exact ⟨goto_calls_of_ne _ _ hl, Function.update_of_ne hl .., rfl, rfl, rfl, rfl, fun _ h => h,
      fun _ _ => rfl, fun _ _ => rfl, fun _ => rfl⟩
  · rw [goto_calls_self]
    refine ⟨by rw [hself]; simp, by rw [hself]; simp, ?_, ?_, ?_⟩
    · rw [hself]
      intro h
      cases h
    · rw [hself]
      intro h
      cases h
    · rw [hself]
      intro h
      cases h
  · refine hinv.holding.frame (goto_holds (s := s.setPhase k .sent) hki) rfl rfl ?_
      (fun _ _ => rfl)
    intro l j hj
    have hold := (hinv.holding.held l j hj).2.2.2
    by_cases hl : l = k
    · subst hl
      rw [hself]
      rw [hphase] at hold
      exact hold
    · simp only [PairState.goto, PairState.setPhase, Function.update_of_ne hl]
      exact hold
  · refine hinv.log.frame rfl rfl rfl rfl rfl ?_
    intro l hl
    have hne : l ≠ k := by
      rintro rfl
      have hin := hinv.log.mem l hl
      rw [hphase] at hin
      cases hin
    exact Or.inl (Function.update_of_ne hne ..)

theorem PairInv.waitOk {s : PairState} {k i : ℕ} {cmd : SecModuleCmd} (hinv : PairInv s)
    (hpc : s.calls k = .wait i cmd) (hpos : 0 < s.completion i) :
    PairInv (({ s with
      completion := Function.update s.completion i (s.completion i - 1) }.setPhase k
      .received).goto k (.copyHeader i cmd)) := by
  have hki : (s.calls k).holds = some i := by rw [hpc]; rfl
  obtain ⟨hlt, hbuf, -, hcount⟩ := hinv.holding.held k i hki
  have hdone : s.phase k = .completed := by
    by_contra hne
    rw [if_neg hne] at hcount
    omega
  rw [if_pos hdone] at hcount
  have hcall := hinv.calls k
  rw [hpc] at hcall
  obtain ⟨-, -, hdata, hentry, hsaved⟩ := hcall
  rw [hdone] at hdata hentry hsaved
  have hother : ∀ l j, l ≠ k → (s.calls l).holds = some j → j ≠ i := by
    rintro l j hl hj rfl
    exact hl (hinv.holding.unique l k j hj hki)
  refine hinv.own (by rw [hpc]; simp) rfl ?_ ?_ ?_ ?_
  · intro l hl
    exact ⟨goto_calls_of_ne _ _ hl, Function.update_of_ne hl .., rfl, rfl, rfl, rfl, fun _ h => h,
      fun _ _ => rfl, fun _ _ => rfl, fun _ => rfl⟩
  · rw [goto_calls_self]
    exact ⟨Function.update_self .., fun _ => hdata rfl, fun _ => hentry rfl, fun _ => hsaved rfl⟩
  · refine hinv.holding.frame (fun l => ?_) rfl rfl ?_ ?_
    · by_cases hl : l = k
      · subst hl
        rw [goto_calls_self, hki]
        rfl
      · rw [goto_calls_of_ne _ _ hl]
        rfl
    · intro l j hj
      by_cases hl : l = k
      · subst hl
        obtain rfl := Option.some.inj (hki.symm.trans hj)
        simp [PairState.goto, PairState.setPhase, hcount]
      · simp only [PairState.goto, PairState.setPhase, Function.update_of_ne hl,
          Function.update_of_ne (hother l j hl hj)]
        exact (hinv.holding.held l j hj).2.2.2
    · intro j hj
      refine Function.update_of_ne ?_ ..
      rintro rfl
      rw [hbuf] at hj
      cases hj
  · refine hinv.log.frame rfl rfl rfl rfl rfl ?_
    intro l _
    by_cases hl : l = k
    · subst hl
      exact Or.inr ⟨hdone, Function.update_self ..⟩
    · exact Or.inl (Function.update_of_ne hl ..)

theorem PairInv.release {s : PairState} {k i : ℕ} {ret : ℤ} (hinv : PairInv s)
    (hpc : s.calls k = .release i ret) :
    PairInv ({ s with bufStatus := Function.update s.bufStatus i false }.goto k
      (.returned ret)) := by
  have hki : (s.calls k).holds = some i := by rw [hpc]; rfl
  have hcall := hinv.calls k
  rw [hpc] at hcall
  have hnot : s.phase k ≠ .completed := by
    intro heq
    have hactive := hcall.1
    rw [heq] at hactive
    cases hactive
  obtain ⟨-, -, -, hcount⟩ := hinv.holding.held k i hki
  rw [if_neg hnot] at hcount
  have hother : ∀ l j, l ≠ k → (s.calls l).holds = some j → j ≠ i := by
    rintro l j hl hj rfl
    exact hl (hinv.holding.unique l k j hj hki)
  have hself : (({ s with bufStatus := Function.update s.bufStatus i false }.goto k
      (.returned ret)).calls k).holds = none := by
    rw [goto_calls_self]
    rfl
  refine hinv.own (by rw [hpc]; simp) rfl ?_ (by rw [goto_calls_self]; exact hcall) ?_ ?_
  · intro l hl
    exact ⟨goto_calls_of_ne _ _ hl, rfl, rfl, rfl, rfl, rfl, fun _ h => h, fun _ _ => rfl,
      fun _ _ => rfl, fun _ => rfl⟩
  · refine ⟨?_, ?_, ?_⟩
    · intro l j hj
      by_cases hl : l = k
      · subst hl
        rw [hself] at hj
        cases hj
      · rw [goto_calls_of_ne _ _ hl] at hj
        obtain ⟨h1, h2, h3, h4⟩ := hinv.holding.held l j hj
        refine ⟨h1, ?_, h3, h4⟩
        simp only [PairState.goto, Function.update_of_ne (hother l j hl hj)]
        exact h2
    · intro l m j hl hm
      by_cases hlk : l = k
      · subst hlk
        rw [hself] at hl
        cases hl
      · by_cases hmk : m = k
        · subst hmk
          rw [hself] at hm
          cases hm
        · rw [goto_calls_of_ne _ _ hlk] at hl
          rw [goto_calls_of_ne _ _ hmk] at hm
          exact hinv.holding.unique l m j hl hm
    · intro j hj
      by_cases hji : j = i
      · subst hji
        exact hcount
      · simp only [PairState.goto, Function.update_of_ne hji] at hj
        exact hinv.holding.free j hj
  · exact hinv.log.frame rfl rfl rfl rfl rfl (fun _ _ => Or.inl rfl)

theorem PairInv.copyOut {s : PairState} {k i : ℕ} {cmd : SecModuleCmd} {msg : Mem}
    (hinv : PairInv s) (hpc : s.calls k = .copyOut i cmd msg) (ret : ℤ) :
    PairInv ({ s with
      delivered := Function.update s.delivered k (if ret = 0 then
        some (msg.bytes 0 msgCmdLen, (s.data i).bytes 0 (dataLen msg)) else none) }.goto k
      (.release i ret)) := by
  have hki : (s.calls k).holds = some i := by rw [hpc]; rfl
  have hcall := hinv.calls k
  rw [hpc] at hcall
  obtain ⟨hphase, hlog, rfl, hdata⟩ := hcall
  refine hinv.own (by rw [hpc]; simp) rfl ?_ ?_ ?_ ?_
  · intro l hl
    exact ⟨goto_calls_of_ne _ _ hl, rfl, rfl, rfl, rfl, Function.update_of_ne hl .., fun _ h => h,
      fun _ _ => rfl, fun _ _ => rfl, fun _ => rfl⟩
  · rw [goto_calls_self]
    refine ⟨?_, ?_⟩
    · simp only [PairState.goto, hphase]
      rfl
    · rintro rfl
      refine ⟨hlog, ?_⟩
      simp only [PairState.goto, Function.update_self, if_true, hdata]
  · exact hinv.holding.frame (goto_holds (s := { s with delivered := _ }) hki) rfl rfl
      (fun l j hj => (hinv.holding.held l j hj).2.2.2) (fun _ _ => rfl)
  · exact hinv.log.frame rfl rfl rfl rfl rfl (fun _ _ => Or.inl rfl)

theorem PairInv.fail {s : PairState} {k i : ℕ} {ret : ℤ} (hinv : PairInv s)
    (hki : (s.calls k).holds = some i) (hphase : (s.phase k).active = false) (hret : ret ≠ 0) :
    PairInv (s.goto k (.release i ret)) := by
  have hk : s.calls k ≠ .absent := by
    intro heq
    rw [heq] at hki
    cases hki
  exact hinv.goto hk hki ⟨hphase, fun hzero => absurd hzero hret⟩

theorem PairInv.callStep {s t : PairState} {k : ℕ} {ok ok' : Bool} {user : Mem} (hinv : PairInv s)
    (hstep : callStep s k ok ok' user (s.calls k) = some t) : PairInv t := by
  have hcall := hinv.calls k
  cases hpc : s.calls k with
  | absent =>
    rw [hpc] at hstep
    cases hstep
  | returned ret =>
    rw [hpc] at hstep
    cases hstep
  | getBuffer cmd =>
    rw [hpc] at hstep hcall
    simp only [MsgScm3.callStep] at hstep
    split at hstep
    next i hi =>
      obtain rfl := Option.some.inj hstep
      exact hinv.getBuffer hpc hi
    next =>
      obtain rfl := Option.some.inj hstep
      refine hinv.goto (by rw [hpc]; simp) (by rw [hpc]; rfl) ⟨?_, fun h => by cases h⟩
      rw [show (s.goto k (.returned (-msgGetDataBufferError))).phase k = .unsent from hcall]
      rfl
  | copyIn i cmd =>
    rw [hpc] at hstep hcall
    simp only [MsgScm3.callStep] at hstep
    split at hstep
    next =>
      obtain rfl := Option.some.inj hstep
      exact hinv.copyIn hpc _
    next =>
      obtain rfl := Option.some.inj hstep
      exact hinv.fail (by rw [hpc]; rfl) (by rw [show s.phase k = .unsent from hcall]; rfl)
        (by decide)
  | send i cmd time =>
    rw [hpc] at hstep hcall
    have hunsent : s.phase k = .unsent := hcall
    simp only [MsgScm3.callStep] at hstep
    split at hstep
    next =>
      split at hstep
      next =>
        obtain rfl := Option.some.inj hstep
        exact hinv.sendOk hpc
      next =>
        obtain rfl := Option.some.inj hstep
        exact hinv.goto (by rw [hpc]; simp) (by rw [hpc]; rfl) hunsent
    next =>
      obtain rfl := Option.some.inj hstep
      exact hinv.fail (by rw [hpc]; rfl) (by rw [hunsent]; rfl) (by decide)
  | wait i cmd =>
    rw [hpc] at hstep
    simp only [MsgScm3.callStep] at hstep
    split at hstep
    next hpos =>
      obtain rfl := Option.some.inj hstep
      exact hinv.waitOk hpc hpos
    next => cases hstep
  | copyHeader i cmd =>
    rw [hpc] at hstep hcall
    obtain rfl := Option.some.inj hstep
    obtain ⟨hphase, hanswer⟩ := hcall
    obtain ⟨hlog, hslot, -⟩ := hanswer.entry (by rw [hphase]; rfl)
    refine hinv.goto (by rw [hpc]; simp) (by rw [hpc]; rfl) ⟨hphase, hlog, ?_,
      hanswer.data (by rw [hphase]; rfl)⟩
    unfold PairState.savedEntry
    rw [hanswer.saved (by rw [hphase]; rfl)]
    exact hslot
  | checkInternal i cmd msg =>
    rw [hpc] at hstep hcall
    simp only [MsgScm3.callStep] at hstep
    split at hstep
    next =>
      obtain rfl := Option.some.inj hstep
      exact hinv.goto (by rw [hpc]; simp) (by rw [hpc]; rfl) hcall
    next =>
      obtain rfl := Option.some.inj hstep
      exact hinv.fail (by rw [hpc]; rfl) (by rw [hcall.1]; rfl) (by decide)
  | copyOut i cmd msg =>
    rw [hpc] at hstep
    obtain rfl := Option.some.inj hstep
    exact hinv.copyOut hpc _
  | release i ret =>
    rw [hpc] at hstep
    obtain rfl := Option.some.inj hstep
    exact hinv.release hpc

theorem PairInv.enter {s : PairState} (hinv : PairInv s) (cmd : Option SecModuleCmd) :
    PairInv ({ s with count := s.count + 1 }.goto s.count (callEntry cmd)) := by
  have habsent := hinv.fresh s.count (Nat.le_refl _)
  have hphase : s.phase s.count = .unsent := by
    have hcall := hinv.calls s.count
    rw [habsent] at hcall
    exact hcall
  have hentry : (callEntry cmd).holds = none ∧
      CallOk ({ s with count := s.count + 1 }.goto s.count (callEntry cmd)) s.count
        (callEntry cmd) := by
    have hidle : ∀ ret : ℤ, ret ≠ 0 →
        CallOk ({ s with count := s.count + 1 }.goto s.count (callEntry cmd)) s.count
          (.returned ret) := by
      intro ret hret
      refine ⟨?_, fun hzero => absurd hzero hret⟩
      simp only [PairState.goto, hphase]
      rfl
    cases cmd with
    | none => exact ⟨rfl, hidle _ (by decide)⟩
    | some cmd =>
      by_cases hbad : msgCheckIoctlUserData cmd ≠ 0
      · have heq : callEntry (some cmd) = .returned (msgCheckIoctlUserData cmd) := if_pos hbad
        have hgood := hidle _ hbad
        rw [heq] at hgood ⊢
        exact ⟨rfl, hgood⟩
      · have heq : callEntry (some cmd) = .getBuffer cmd := if_neg hbad
        rw [heq]
        exact ⟨rfl, hphase⟩
  refine ⟨?_, ?_, ?_, ?_⟩
  · intro l hl
    have hlater : s.count + 1 ≤ l := hl
    rw [goto_calls_of_ne _ _ (by omega)]
    exact hinv.fresh l (by omega)
  · intro l
    by_cases hl : l = s.count
    · subst hl
      rw [goto_calls_self]
      exact hentry.2
    · have hsame : Untouched s ({ s with count := s.count + 1 }.goto s.count (callEntry cmd)) l :=
        ⟨goto_calls_of_ne _ _ hl, rfl, rfl, rfl, rfl, rfl, fun _ h => h, fun _ _ => rfl,
          fun _ _ => rfl, fun _ => rfl⟩
      exact hsame.callOk (hinv.calls l)
  · refine hinv.holding.frame (goto_holds (s := { s with count := s.count + 1 }) ?_) rfl rfl
      (fun l j hj => (hinv.holding.held l j hj).2.2.2) (fun _ _ => rfl)
    rw [show ({ s with count := s.count + 1 } : PairState).calls s.count = .absent from habsent,
      hentry.1]
    rfl
  · exact hinv.log.frame rfl rfl rfl rfl rfl (fun _ _ => Or.inl rfl)

/-! ## Preservation by the M3 -/

theorem PairInv.not_mem_log {s : PairState} (hinv : PairInv s) {k : ℕ}
    (hphase : (s.phase k).inRing = false) : k ∉ s.log := by
  intro hmem
  rw [hinv.log.mem k hmem] at hphase
  cases hphase

theorem PairInv.produce {s : PairState} {k : ℕ} (hinv : PairInv s)
    (hwait : (s.calls k).isWait = true) (hsent : s.phase k = .sent) (payload : Mem) :
    PairInv ({ s with
      data := Function.update s.data (s.index k) payload
      payload := Function.update s.payload k payload }.setPhase k .produced) := by
  obtain ⟨i, cmd, hpc⟩ : ∃ i cmd, s.calls k = .wait i cmd := by
    cases hpc : s.calls k with
    | wait i cmd => exact ⟨i, cmd, rfl⟩
    | _ =>
      rw [hpc] at hwait
      cases hwait
  have hki : (s.calls k).holds = some i := by rw [hpc]; rfl
  have hindex := (hinv.holding.held k i hki).2.2.1
  subst hindex
  refine hinv.own (by rw [hpc]; simp) rfl ?_ ?_ ?_ ?_
  · intro l hl
    refine ⟨rfl, Function.update_of_ne hl .., Function.update_of_ne hl .., rfl, rfl, rfl,
      fun _ h => h, ?_, fun _ _ => rfl, fun _ => rfl⟩
    intro j hj
    refine Function.update_of_ne ?_ ..
    rintro rfl
    exact hl (hinv.holding.unique l k _ hj hki)
  · simp only [PairState.setPhase, hpc]
    refine ⟨by simp, by simp, ?_, ?_, ?_⟩
    · intro _
      simp only [Function.update_self]
    · simp [Phase.inRing]
    · simp [Phase.isSaved]
  · exact hinv.holding.setPhase rfl rfl rfl rfl rfl (by rw [hsent]; exact nofun) nofun
  · refine hinv.log.frame rfl rfl rfl rfl rfl ?_
    intro l hl
    have hne : l ≠ k := by
      rintro rfl
      exact hinv.not_mem_log (by rw [hsent]; rfl) hl
    exact Or.inl (Function.update_of_ne hne ..)

theorem getElem?_snoc {l : List ℕ} {p k x : ℕ} (h : (l ++ [k])[p]? = some x) :
    l[p]? = some x ∨ (p = l.length ∧ x = k) := by
  rcases Nat.lt_trichotomy p l.length with hlt | heq | hgt
  · rw [List.getElem?_append_left hlt] at h
    exact Or.inl h
  · subst heq
    rw [List.getElem?_concat_length] at h
    exact Or.inr ⟨rfl, (Option.some.inj h).symm⟩
  · rw [List.getElem?_eq_none (by simpa using hgt)] at h
    cases h

theorem handlerPhase_new {s : PairState} (hread : HandlerRead s s.handler)
    (hempty : s.taken = s.log.length) : HandlerPhase s.handler .pushed := by
  cases hpc : s.handler with
  | complete ci | storeCi ci =>
    rw [hpc] at hread
    have hlt := hread.1
    omega
  | _ => rfl

theorem LogOk.push {s : PairState} (h : LogOk s) {k : ℕ} (hk : k ∉ s.log) (entry : Mem) :
    LogOk ({ s with
      ring := { s.ring.setSlot s.ring.pi entry with pi := (s.ring.pi + 1) % msgQDepth }
      header := Function.update s.header k entry
      slotOf := Function.update s.slotOf k s.ring.pi
      log := s.log ++ [k] }.setPhase k .pushed) := by
  have hother : ∀ (p x : ℕ), s.log[p]? = some x → x ≠ k := by
    rintro p x hx rfl
    exact hk (List.mem_of_getElem? hx)
  refine ⟨?_, h.ci, ?_, ?_, ?_, ?_, ?_, ?_, ?_⟩
  · simp only [PairState.setPhase, List.length_append, List.length_singleton, h.pi]
    exact Nat.mod_add_mod ..
  · exact h.le.trans (by simp [PairState.setPhase])
  · exact List.nodup_append.mpr ⟨h.nodup, List.nodup_singleton k, by
      intro x hx y hy heq
      rw [List.mem_singleton.mp hy] at heq
      exact hk (heq ▸ hx)⟩
  · intro x hx
    rcases List.mem_append.mp hx with hx | hx
    · have hne : x ≠ k := fun heq => hk (heq ▸ hx)
      simp only [PairState.setPhase, Function.update_of_ne hne]
      exact h.mem x hx
    · rw [List.mem_singleton.mp hx]
      simp [PairState.setPhase, Phase.inRing]
  · intro p x hx
    rcases getElem?_snoc hx with hx | ⟨rfl, rfl⟩
    · simp only [PairState.setPhase, Function.update_of_ne (hother p x hx)]
      exact h.slot p x hx
    · simp only [PairState.setPhase, Function.update_self]
      exact h.pi
  · intro p x hx hp
    rcases getElem?_snoc hx with hx | ⟨rfl, rfl⟩
    · simp only [PairState.setPhase, Function.update_of_ne (hother p x hx)]
      exact h.later p x hx hp
    · simp [PairState.setPhase]
  · intro x hx
    rcases getElem?_snoc hx with hx | ⟨hempty, rfl⟩
    · simp only [PairState.setPhase, Function.update_of_ne (hother _ x hx)]
      exact h.current x hx
    · simp only [PairState.setPhase, Function.update_self]
      exact handlerPhase_new h.read hempty
  · exact handlerRead_of (s := s) (by simp [PairState.setPhase]) rfl h.read

theorem PairInv.push {s : PairState} {k : ℕ} {entry : Mem} (hinv : PairInv s)
    (hproduced : s.phase k = .produced) (hindex : msgIndex entry = s.index k)
    (hroom : ∀ l < s.count, s.uncopied l = true → s.slotOf l ≠ s.ring.pi) :
    PairInv ({ s with
      ring := { s.ring.setSlot s.ring.pi entry with pi := (s.ring.pi + 1) % msgQDepth }
      header := Function.update s.header k entry
      slotOf := Function.update s.slotOf k s.ring.pi
      log := s.log ++ [k] }.setPhase k .pushed) := by
  obtain ⟨i, cmd, hpc⟩ := hinv.wait_of_active (k := k) (by rw [hproduced]; rfl)
  have hki : (s.calls k).holds = some i := by rw [hpc]; rfl
  have hcall := hinv.calls k
  rw [hpc] at hcall
  have hdata := hcall.2.2.data (by rw [hproduced]; rfl)
  refine hinv.own (by rw [hpc]; simp) rfl ?_ ?_ ?_
    (hinv.log.push (hinv.not_mem_log (by rw [hproduced]; rfl)) entry)
  · intro l hl
    refine ⟨rfl, Function.update_of_ne hl .., rfl, Function.update_of_ne hl ..,
      Function.update_of_ne hl .., rfl, fun _ h => List.mem_append_left _ h, fun _ _ => rfl,
      fun _ _ => rfl, ?_⟩
    intro hun
    have hlt : l < s.count := by
      by_contra hge
      have habsent := hinv.fresh l (Nat.le_of_not_lt hge)
      simp [PairState.uncopied, habsent] at hun
    exact Function.update_of_ne (hroom l hlt hun) ..
  · simp only [PairState.setPhase, hpc]
    refine ⟨by simp, by simp, fun _ => hdata, fun _ => ⟨by simp, ?_, ?_⟩, ?_⟩
    · simp [MsgQueue.setSlot]
    · simp only [Function.update_self]
      exact hindex.trans (hinv.holding.held k i hki).2.2.1
    · simp [Phase.isSaved]
  · exact hinv.holding.setPhase rfl rfl rfl rfl rfl (by rw [hproduced]; exact nofun) nofun

/-! ## Preservation by the handler -/

theorem PairInv.handlerMove {s : PairState} (hinv : PairInv s) {pc : HandlerPc}
    (hphase : ∀ p, HandlerPhase s.handler p → HandlerPhase pc p) (hread : HandlerRead s pc) :
    PairInv { s with handler := pc } := by
  refine ⟨hinv.fresh, ?_, ?_, ?_⟩
  · intro l
    have hsame : Untouched s { s with handler := pc } l :=
      ⟨rfl, rfl, rfl, rfl, rfl, rfl, fun _ h => h, fun _ _ => rfl, fun _ _ => rfl, fun _ => rfl⟩
    exact hsame.callOk (hinv.calls l)
  · exact ⟨hinv.holding.held, hinv.holding.unique, hinv.holding.free⟩
  · obtain ⟨h1, h2, h3, h4, h5, h6, h7, h8, -⟩ := hinv.log
    exact ⟨h1, h2, h3, h4, h5, h6, h7, fun k hk => hphase _ (h8 k hk),
      handlerRead_of (s := s) (Nat.le_refl _) rfl hread⟩

theorem PairInv.handlerTo {s : PairState} (hinv : PairInv s) {old : HandlerPc}
    (hhandler : s.handler = old) (pc : HandlerPc) (hstep : handlerStep s = { s with handler := pc })
    (hphase : ∀ p, HandlerPhase old p → HandlerPhase pc p) (hread : HandlerRead s pc) :
    PairInv (handlerStep s) := by
  rw [hstep]
  exact hinv.handlerMove (fun p h => hphase p (hhandler ▸ h)) hread

theorem log_unique {s : PairState} (h : LogOk s) {p q k : ℕ} (hp : s.log[p]? = some k)
    (hq : s.log[q]? = some k) : p = q := by
  have hlt := (List.getElem?_eq_some_iff.mp hp).1
  exact (List.getElem?_inj hlt h.nodup).mp (hp.trans hq.symm)

theorem LogOk.advance {s t : PairState} {k : ℕ} (h : LogOk s) (hk : s.log[s.taken]? = some k)
    (hring : t.ring = s.ring) (hlog : t.log = s.log) (htaken : t.taken = s.taken)
    (hslot : t.slotOf = s.slotOf) (hothers : ∀ l, l ≠ k → t.phase l = s.phase l)
    (hin : (t.phase k).inRing = true) (hphase : HandlerPhase t.handler (t.phase k))
    (hread : HandlerRead s t.handler) : LogOk t := by
  refine ⟨by rw [hring, hlog]; exact h.pi, by rw [hring, htaken]; exact h.ci,
    by rw [htaken, hlog]; exact h.le, hlog ▸ h.nodup, ?_, ?_, ?_, ?_, ?_⟩
  · intro l hl
    by_cases hlk : l = k
    · exact hlk ▸ hin
    · rw [hothers l hlk]
      exact h.mem l (hlog ▸ hl)
  · intro p l hl
    rw [hslot]
    exact h.slot p l (hlog ▸ hl)
  · intro p l hl hp
    rw [hlog] at hl
    rw [htaken] at hp
    have hlk : l ≠ k := by
      rintro rfl
      have heq := log_unique h hl hk
      omega
    rw [hothers l hlk]
    exact h.later p l hl hp
  · intro l hl
    rw [hlog, htaken] at hl
    obtain rfl : k = l := Option.some.inj (hk.symm.trans hl)
    exact hphase
  · exact handlerRead_of (by rw [hlog]) htaken hread

theorem PairInv.currentCall {s : PairState} (hinv : PairInv s) (hlt : s.taken < s.log.length) :
    ∃ k, s.log[s.taken]? = some k ∧ HandlerPhase s.handler (s.phase k) ∧
      ((s.phase k).active = true → ∃ i cmd, s.calls k = .wait i cmd ∧ Answer s k i ∧
        msgIndex (s.ring.slot (s.taken % msgQDepth)) = i ∧ s.slotOf k = s.taken % msgQDepth) := by
  have hk : s.log[s.taken]? = some s.log[s.taken] := List.getElem?_eq_getElem hlt
  refine ⟨_, hk, hinv.log.current _ hk, ?_⟩
  intro hactive
  obtain ⟨i, cmd, hpc⟩ := hinv.wait_of_active hactive
  have hcall := hinv.calls s.log[s.taken]
  rw [hpc] at hcall
  have hslot := hinv.log.slot _ _ hk
  obtain ⟨-, hentry, hindex⟩ := hcall.2.2.entry (hinv.log.mem _ (List.getElem_mem hlt))
  refine ⟨i, cmd, hpc, hcall.2.2, ?_, hslot⟩
  rw [← hslot, hentry]
  exact hindex

theorem PairInv.saveAddr {s : PairState} {ci : ℕ} (hinv : PairInv s)
    (hhandler : s.handler = .saveAddr ci) : PairInv (handlerStep s) := by
  have hread := hinv.log.read
  rw [hhandler] at hread
  obtain ⟨hlt, rfl⟩ := hread
  obtain ⟨k, hk, hphase, hcurrent⟩ := hinv.currentCall hlt
  rw [hhandler] at hphase
  have hpushed : s.phase k = .pushed := hphase
  obtain ⟨i, cmd, hpc, hanswer, hindex, hslot⟩ := hcurrent (by rw [hpushed]; rfl)
  have hki : (s.calls k).holds = some i := by rw [hpc]; rfl
  have hstep : handlerStep s = { s with
      handler := .complete (s.taken % msgQDepth)
      userAddr := Function.update s.userAddr i (some (s.taken % msgQDepth)) }.setPhase k .saved := by
    simp only [handlerStep, hhandler, msgDelayworkHandle, hindex, PairState.advancePhase, hk]
  rw [hstep]
  refine hinv.own (by rw [hpc]; simp) rfl ?_ ?_ ?_ ?_
  · intro l hl
    refine ⟨rfl, Function.update_of_ne hl .., rfl, rfl, rfl, rfl, fun _ h => h, fun _ _ => rfl, ?_,
      fun _ => rfl⟩
    intro j hj
    refine Function.update_of_ne ?_ ..
    rintro rfl
    exact hl (hinv.holding.unique l k j hj hki)
  · simp only [PairState.setPhase, hpc]
    refine ⟨by simp, by simp, fun _ => hanswer.data (by rw [hpushed]; rfl),
      fun _ => hanswer.entry (by rw [hpushed]; rfl), fun _ => ?_⟩
    simp only [Function.update_self, hslot]
  · refine hinv.holding.frame (fun _ => rfl) rfl rfl ?_ (fun _ _ => rfl)
    intro l j hj
    have hold := (hinv.holding.held l j hj).2.2.2
    by_cases hl : l = k
    · subst hl
      rw [hpushed] at hold
      simpa [PairState.setPhase] using hold
    · simp only [PairState.setPhase, Function.update_of_ne hl]
      exact hold
  · refine hinv.log.advance hk rfl rfl rfl rfl (fun l hl => Function.update_of_ne hl ..) ?_ ?_
      ⟨hlt, rfl⟩
    · simp [PairState.setPhase, Phase.inRing]
    · simp [PairState.setPhase, HandlerPhase]

theorem PairInv.complete {s : PairState} {ci : ℕ} (hinv : PairInv s)
    (hhandler : s.handler = .complete ci) : PairInv (handlerStep s) := by
  have hread := hinv.log.read
  rw [hhandler] at hread
  obtain ⟨hlt, rfl⟩ := hread
  obtain ⟨k, hk, hphase, hcurrent⟩ := hinv.currentCall hlt
  rw [hhandler] at hphase
  have hsaved : s.phase k = .saved := hphase
  obtain ⟨i, cmd, hpc, hanswer, hindex, -⟩ := hcurrent (by rw [hsaved]; rfl)
  have hki : (s.calls k).holds = some i := by rw [hpc]; rfl
  obtain ⟨-, hbuf, -, hcount⟩ := hinv.holding.held k i hki
  rw [hsaved, if_neg (by simp)] at hcount
  have hother : ∀ l j, l ≠ k → (s.calls l).holds = some j → j ≠ i := by
    rintro l j hl hj rfl
    exact hl (hinv.holding.unique l k j hj hki)
  have hstep : handlerStep s = { s with
      handler := .storeCi (s.taken % msgQDepth)
      completion := Function.update s.completion i (s.completion i + 1) }.setPhase k
      .completed := by
    simp only [handlerStep, hhandler, msgDelayworkHandle, hindex, PairState.advancePhase, hk]
  rw [hstep]
  refine hinv.own (by rw [hpc]; simp) rfl ?_ ?_ ?_ ?_
  · intro l hl
    exact ⟨rfl, Function.update_of_ne hl .., rfl, rfl, rfl, rfl, fun _ h => h, fun _ _ => rfl,
      fun _ _ => rfl, fun _ => rfl⟩
  · simp only [PairState.setPhase, hpc]
    exact ⟨by simp, by simp, fun _ => hanswer.data (by rw [hsaved]; rfl),
      fun _ => hanswer.entry (by rw [hsaved]; rfl), fun _ => hanswer.saved (by rw [hsaved]; rfl)⟩
  · refine hinv.holding.frame (fun _ => rfl) rfl rfl ?_ ?_
    · intro l j hj
      by_cases hl : l = k
      · subst hl
        obtain rfl := Option.some.inj (hki.symm.trans hj)
        simp [PairState.setPhase, hcount]
      · simp only [PairState.setPhase, Function.update_of_ne hl,
          Function.update_of_ne (hother l j hl hj)]
        exact (hinv.holding.held l j hj).2.2.2
    · intro j hj
      refine Function.update_of_ne ?_ ..
      rintro rfl
      rw [hbuf] at hj
      cases hj
  · refine hinv.log.advance hk rfl rfl rfl rfl (fun l hl => Function.update_of_ne hl ..) ?_ ?_
      ⟨hlt, rfl⟩
    · simp [PairState.setPhase, Phase.inRing]
    · simp [PairState.setPhase, HandlerPhase]

theorem PairInv.storeCi {s : PairState} {ci : ℕ} (hinv : PairInv s)
    (hhandler : s.handler = .storeCi ci) : PairInv (handlerStep s) := by
  have hread := hinv.log.read
  rw [hhandler] at hread
  obtain ⟨hlt, rfl⟩ := hread
  have hstep : handlerStep s = { s with
      handler := .readPi
      ring := { s.ring with ci := (s.taken % msgQDepth + 1) % msgQDepth }
      taken := s.taken + 1 } := by
    simp only [handlerStep, hhandler, msgDelayworkHandle]
  rw [hstep]
  refine ⟨hinv.fresh, ?_, ?_, ?_⟩
  · intro l
    have hsame : Untouched s { s with
        handler := .readPi
        ring := { s.ring with ci := (s.taken % msgQDepth + 1) % msgQDepth }
        taken := s.taken + 1 } l :=
      ⟨rfl, rfl, rfl, rfl, rfl, rfl, fun _ h => h, fun _ _ => rfl, fun _ _ => rfl, fun _ => rfl⟩
    exact hsame.callOk (hinv.calls l)
  · exact ⟨hinv.holding.held, hinv.holding.unique, hinv.holding.free⟩
  · obtain ⟨h1, -, -, h4, h5, h6, h7, -, -⟩ := hinv.log
    exact ⟨h1, Nat.mod_add_mod .., hlt, h4, h5, h6, fun p k hk hp => h7 p k hk (Nat.lt_of_succ_lt hp),
      fun k hk => h7 _ k hk (Nat.lt_succ_self _), trivial⟩

theorem PairInv.handlerStep {s : PairState} (hinv : PairInv s) : PairInv (handlerStep s) := by
  have hread := hinv.log.read
  cases hhandler : s.handler with
  | saveAddr ci => exact hinv.saveAddr hhandler
  | complete ci => exact hinv.complete hhandler
  | storeCi ci => exact hinv.storeCi hhandler
  | idle =>
    refine hinv.handlerTo hhandler .idle ?_ (fun _ h => h) trivial
    simp only [MsgScm3.handlerStep, hhandler, msgDelayworkHandle]
  | readPi =>
    refine hinv.handlerTo hhandler (.readCi s.ring.pi) ?_ (fun _ h => h)
      ⟨_, hinv.log.le, Nat.le_refl _, hinv.log.pi⟩
    simp only [MsgScm3.handlerStep, hhandler, msgDelayworkHandle]
  | readCi pi =>
    rw [hhandler] at hread
    refine hinv.handlerTo hhandler (.test pi s.ring.ci) ?_ (fun _ h => h) ⟨hread, hinv.log.ci⟩
    simp only [MsgScm3.handlerStep, hhandler, msgDelayworkHandle]
  | test pi ci =>
    rw [hhandler] at hread
    obtain ⟨⟨n, hle, hlog, hpi⟩, hci⟩ := hread
    by_cases hne : pi ≠ ci
    · have hn : s.taken ≠ n := by
        rintro rfl
        exact hne (hpi.trans hci.symm)
      refine hinv.handlerTo hhandler (.crc ci 0 crcInit) ?_ (fun _ h => h) ⟨by omega, hci⟩
      simp only [MsgScm3.handlerStep, hhandler, msgDelayworkHandle, if_pos hne]
    · refine hinv.handlerTo hhandler .idle ?_ (fun _ h => h) trivial
      simp only [MsgScm3.handlerStep, hhandler, msgDelayworkHandle, if_neg hne]
  | crc ci k crc =>
    rw [hhandler] at hread
    by_cases hk : k < crcLen
    · refine hinv.handlerTo hhandler (.crc ci (k + 1) (crcStep crc (s.ring.slot ci k))) ?_
        (fun _ h => h) hread
      simp only [MsgScm3.handlerStep, hhandler, msgDelayworkHandle, if_pos hk]
    · refine hinv.handlerTo hhandler (.compare ci (crcValue crc)) ?_ (fun _ h => h) hread
      simp only [MsgScm3.handlerStep, hhandler, msgDelayworkHandle, if_neg hk]
  | compare ci cksum =>
    rw [hhandler] at hread
    by_cases hne : cksum ≠ msgCrc (s.ring.slot ci)
    · refine hinv.handlerTo hhandler .idle ?_ (fun _ h => h) trivial
      simp only [MsgScm3.handlerStep, hhandler, msgDelayworkHandle, if_pos hne]
    · refine hinv.handlerTo hhandler (.saveAddr ci) ?_ (fun _ h => h) hread
      simp only [MsgScm3.handlerStep, hhandler, msgDelayworkHandle, if_neg hne]

theorem PairInv.next {s t : PairState} {a : PairLabel} (hinv : PairInv s) (htimely : Timely s a)
    (hstep : pairNext s a = some t) : PairInv t := by
  cases a with
  | call cmd =>
    obtain rfl := Option.some.inj hstep
    exact hinv.enter cmd
  | step k ok ok' user => exact hinv.callStep hstep
  | expire k =>
    simp only [pairNext, expireStep] at hstep
    split at hstep
    next i cmd hpc =>
      split at hstep
      next =>
        obtain rfl := Option.some.inj hstep
        exact hinv.fail (by rw [hpc]; rfl) (by rw [show s.phase k = .sent from htimely]; rfl)
          (by decide)
      next => cases hstep
    next => cases hstep
  | produce k payload =>
    simp only [pairNext, produceStep] at hstep
    split at hstep
    next hsent =>
      obtain rfl := Option.some.inj hstep
      exact hinv.produce htimely hsent payload
    next => cases hstep
  | push k entry =>
    simp only [pairNext, pushStep] at hstep
    split at hstep
    next hcond =>
      obtain rfl := Option.some.inj hstep
      exact hinv.push hcond.1 hcond.2 htimely
    next => cases hstep
  | work =>
    simp only [pairNext] at hstep
    split at hstep
    next hidle =>
      obtain rfl := Option.some.inj hstep
      exact hinv.handlerMove (by rw [hidle]; exact fun _ h => h) trivial
    next => cases hstep
  | handler =>
    obtain rfl := Option.some.inj hstep
    exact hinv.handlerStep

/-! ## Timely runs -/

def CallPc.ret? : CallPc → Option ℤ
  | .returned ret => some ret
  | _ => none

theorem CallPc.eq_returned {pc : CallPc} {ret : ℤ} (h : pc.ret? = some ret) :
    pc = .returned ret := by
  cases pc with
  | returned r =>
    obtain rfl : r = ret := Option.some.inj h
    rfl
  | _ => cases h

def smallCmd : SecModuleCmd := ⟨0x1000, 6, 0x2000, 64⟩

def responseData (byte : UInt8) : Mem := fun x => if x = 0 then 0x81 else byte

def responseEntry (i : UInt8) : Mem :=
  withCrc (Function.update (Function.update (fun _ => 0) 8 8) 12 i)

def stepOk (k : ℕ) : PairLabel := .step k true true fun _ => 1

def requestLabels (k : ℕ) : List PairLabel :=
  [.call (some smallCmd), stepOk k, stepOk k, stepOk k]

def answerLabels (k : ℕ) (byte : UInt8) : List PairLabel :=
  [PairLabel.produce k (responseData byte), .push k (responseEntry 0), .work] ++
    List.replicate 22 PairLabel.handler

def replyLabels (k : ℕ) : List PairLabel := List.replicate 5 (stepOk k)

def afterTimely : PairState :=
  (TransitionSystem.runSteps (TransitionSystem.guarded Timely pairNext) pairStart
    (requestLabels 0 ++ answerLabels 0 0x11 ++ replyLabels 0)).get (by decide +kernel)

def lateLabels : List PairLabel :=
  requestLabels 0 ++ [PairLabel.expire 0, stepOk 0] ++ requestLabels 1 ++ answerLabels 0 0x11 ++
    replyLabels 1

def afterLate : PairState :=
  (TransitionSystem.runSteps pairNext pairStart lateLabels).get (by decide +kernel)

end HiMpu.MsgScm3
