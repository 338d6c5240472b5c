import HiMpu.MsgScm3
import HiMpu.RingQueue

/-!
# The ring as a bounded queue

Any number of calls of `msg_cmd_send`, one at a time under `send_lock`, against one
consumer that works as `msg_delaywork_handle`.  The entries sent and not yet
released are a queue of capacity `MSG_Q_DEPTH - 1`.
-/

namespace HiMpu.MsgScm3

structure Sender where
  msg : Mem
  pc : SendPc
  sawFull : Bool

structure SendResult where
  ret : ℤ
  sawFull : Bool

structure RingState where
  q : MsgQueue
  sender : Option Sender
  handler : HandlerPc
  sent : List Mem
  /-- The bytes of the entries as the handler took them. -/
  taken : List (List UInt8)
  freed : ℕ
  results : List SendResult

def ringCap : ℕ := msgQDepth - 1

def RingState.fifo (s : RingState) : List Mem := s.sent.drop s.freed

inductive RingAction where
  | send (msg : Option Mem)
  | sender
  | work
  | handler

def RingState.senderStep (s : RingState) (c : Sender) : RingState :=
  let after := msgCmdSend s.q c.msg c.pc
  match c.pc with
  | .unlock ret => { s with sender := none, results := s.results ++ [⟨ret, c.sawFull⟩] }
  | .readCi _ =>
    { s with
      q := after.2
      sender := some ⟨c.msg, after.1, decide (s.fifo.length = ringCap)⟩ }
  | .storePi _ =>
    { s with
      q := after.2
      sender := some { c with pc := after.1 }
      sent := s.sent ++ [c.msg] }
  | _ => { s with q := after.2, sender := some { c with pc := after.1 } }

def RingState.handlerStep (s : RingState) : RingState :=
  let after := msgDelayworkHandle s.q s.handler
  let s' := { s with q := after.2.1, handler := after.1 }
  match s.handler with
  | .saveAddr ci => { s' with taken := s.taken ++ [(s.q.slot ci).bytes 0 msgCmdLen] }
  | .storeCi _ => { s' with freed := s.freed + 1 }
  | _ => s'

def ringNext (s : RingState) : RingAction → Option RingState
  | .send none => some { s with results := s.results ++ [⟨einval, false⟩] }
  | .send (some msg) =>
    match s.sender with
    | none => some { s with sender := some ⟨msg, .magic, false⟩ }
    | some _ => none
  | .sender => s.sender.map s.senderStep
  | .work =>
    match s.handler with
    | .idle => some { s with handler := .readPi }
    | _ => none
  | .handler => some s.handlerStep

def ringSystem : TransitionSystem RingState RingAction :=
  TransitionSystem.ofStep
    (fun s => ∃ flag slot, s = ⟨⟨0, 0, flag, slot⟩, none, .idle, [], [], 0, []⟩) ringNext

def Agree (n : ℕ) (m m' : Mem) : Prop := ∀ x < n, m x = m' x

theorem Agree.bytes {n : ℕ} {m m' : Mem} (hagree : Agree n m m') :
    m.bytes 0 n = m'.bytes 0 n := by
  apply Mem.bytes_congr
  intro x _ hx
  exact hagree x (by omega)

structure Ring (s : RingState) : Prop where
  counters : RingCounters msgQDepth s.sent.length s.freed
  pi : s.q.pi = s.sent.length % msgQDepth
  ci : s.q.ci = s.freed % msgQDepth
  slots : ∀ i msg, s.freed ≤ i → s.sent[i]? = some msg →
    Agree msgCmdLen (s.q.slot (i % msgQDepth)) (withCrc msg)
  taken : s.taken = (s.sent.map entryBytes).take s.taken.length

def SendRoom (s : RingState) (c : Sender) (pi : ℕ) : Prop :=
  pi = s.q.pi ∧ s.sent.length + 1 < s.freed + msgQDepth ∧ c.sawFull = false

def SenderOk (s : RingState) (c : Sender) : Prop :=
  match c.pc with
  | .magic | .readPi => True
  | .readCi pi => pi = s.q.pi
  | .test pi ci =>
    pi = s.q.pi ∧ ∃ c0, c0 ≤ s.freed ∧ ci = c0 % msgQDepth ∧
      RingCounters msgQDepth s.sent.length c0 ∧
      (c.sawFull = true ↔ s.sent.length + 1 = c0 + msgQDepth)
  | .copy pi k => SendRoom s c pi ∧ k ≤ msgCmdLen ∧ Agree k (s.q.slot pi) c.msg
  | .crc pi k crc =>
    SendRoom s c pi ∧ k ≤ crcLen ∧ Agree msgCmdLen (s.q.slot pi) c.msg ∧
      crc = (c.msg.bytes 0 k).foldl crcStep crcInit
  | .storeCrc pi cksum =>
    SendRoom s c pi ∧ Agree msgCmdLen (s.q.slot pi) c.msg ∧
      cksum = dalCalCrc16 (c.msg.bytes 0 crcLen)
  | .storePi pi => SendRoom s c pi ∧ Agree msgCmdLen (s.q.slot pi) (withCrc c.msg)
  | .unlock ret =>
    (ret = 0 ∧ c.sawFull = false) ∨
      (ret = efault ∧ (c.sawFull = true ∨ s.q.initFlag ≠ msgQInitMagic))

def HandlerOn (s : RingState) (ci : ℕ) : Prop :=
  ci = s.q.ci ∧ s.freed < s.sent.length

def HandlerOk (s : RingState) : HandlerPc → Prop
  | .idle | .readPi => s.taken.length = s.freed
  | .readCi pi =>
    s.taken.length = s.freed ∧
      ∃ p0, s.freed ≤ p0 ∧ p0 ≤ s.sent.length ∧ pi = p0 % msgQDepth
  | .test pi ci =>
    s.taken.length = s.freed ∧ ci = s.q.ci ∧
      ∃ p0, s.freed ≤ p0 ∧ p0 ≤ s.sent.length ∧ pi = p0 % msgQDepth
  | .crc ci k crc =>
    s.taken.length = s.freed ∧ HandlerOn s ci ∧ k ≤ crcLen ∧
      crc = ((s.q.slot ci).bytes 0 k).foldl crcStep crcInit
  | .compare ci cksum =>
    s.taken.length = s.freed ∧ HandlerOn s ci ∧
      cksum = dalCalCrc16 ((s.q.slot ci).bytes 0 crcLen)
  | .saveAddr ci => s.taken.length = s.freed ∧ HandlerOn s ci
  | .complete ci | .storeCi ci => s.taken.length = s.freed + 1 ∧ HandlerOn s ci

structure RingInv (s : RingState) : Prop where
  ring : Ring s
  sender : ∀ c, s.sender = some c → SenderOk s c
  handler : HandlerOk s s.handler

variable {s s' : RingState}

theorem Ring.slot_ne (hring : Ring s) {i : ℕ} (hlow : s.freed ≤ i) (hhigh : i < s.sent.length) :
    i % msgQDepth ≠ s.q.pi := by
  rw [hring.pi]
  exact hring.counters.slot_ne hlow hhigh

theorem Ring.congr (hring : Ring s) (hsent : s'.sent = s.sent) (hfreed : s'.freed = s.freed)
    (htaken : s'.taken = s.taken) (hpi : s'.q.pi = s.q.pi) (hci : s'.q.ci = s.q.ci)
    (hslot : ∀ i, i ≠ s.q.pi → s'.q.slot i = s.q.slot i) : Ring s' := by
  refine ⟨?_, ?_, ?_, ?_, ?_⟩
  · rw [hsent, hfreed]
    exact hring.counters
  · rw [hpi, hsent]
    exact hring.pi
  · rw [hci, hfreed]
    exact hring.ci
  · rw [hsent, hfreed]
    intro i msg hlow hmsg
    obtain ⟨hhigh, -⟩ := List.getElem?_eq_some_iff.mp hmsg
    rw [hslot _ (hring.slot_ne hlow hhigh)]
    exact hring.slots i msg hlow hmsg
  · rw [htaken, hsent]
    exact hring.taken

theorem HandlerOk.mono {pc : HandlerPc} (hok : HandlerOk s pc) (htaken : s'.taken = s.taken)
    (hfreed : s'.freed = s.freed) (hci : s'.q.ci = s.q.ci)
    (hsent : s.sent.length ≤ s'.sent.length)
    (hslot : s.freed < s.sent.length → s'.q.slot s.q.ci = s.q.slot s.q.ci) :
    HandlerOk s' pc := by
  have hon : ∀ ci, HandlerOn s ci → HandlerOn s' ci ∧ s'.q.slot ci = s.q.slot ci := by
    rintro ci ⟨rfl, hlt⟩
    refine ⟨⟨hci.symm, ?_⟩, hslot hlt⟩
    rw [hfreed]
    omega
  cases pc with
  | idle | readPi =>
    simp only [HandlerOk] at hok ⊢
    rw [htaken, hfreed]
    exact hok
  | readCi pi =>
    obtain ⟨hlen, p0, hlow, hhigh, hp⟩ := hok
    simp only [HandlerOk]
    rw [htaken, hfreed]
    exact ⟨hlen, p0, hlow, hhigh.trans hsent, hp⟩
  | test pi ci =>
    obtain ⟨hlen, hc, p0, hlow, hhigh, hp⟩ := hok
    simp only [HandlerOk]
    rw [htaken, hfreed, hci]
    exact ⟨hlen, hc, p0, hlow, hhigh.trans hsent, hp⟩
  | crc ci k crc =>
    obtain ⟨hlen, hhere, hk, hcrc⟩ := hok
    obtain ⟨hthere, hsame⟩ := hon ci hhere
    simp only [HandlerOk]
    rw [htaken, hfreed, hsame]
    exact ⟨hlen, hthere, hk, hcrc⟩
  | compare ci cksum =>
    obtain ⟨hlen, hhere, hcrc⟩ := hok
    obtain ⟨hthere, hsame⟩ := hon ci hhere
    simp only [HandlerOk]
    rw [htaken, hfreed, hsame]
    exact ⟨hlen, hthere, hcrc⟩
  | saveAddr ci | complete ci | storeCi ci =>
    obtain ⟨hlen, hhere⟩ := hok
    simp only [HandlerOk]
    rw [htaken, hfreed]
    exact ⟨hlen, (hon ci hhere).1⟩

theorem SenderOk.mono {c : Sender} (hok : SenderOk s c) (hsent : s'.sent = s.sent)
    (hfreed : s.freed ≤ s'.freed) (hpi : s'.q.pi = s.q.pi) (hslot : s'.q.slot = s.q.slot)
    (hflag : s'.q.initFlag = s.q.initFlag) : SenderOk s' c := by
  have hroom : ∀ pi, SendRoom s c pi → SendRoom s' c pi := by
    rintro pi ⟨hp, hlt, hsaw⟩
    refine ⟨hp.trans hpi.symm, ?_, hsaw⟩
    rw [hsent]
    omega
  unfold SenderOk at hok ⊢
  rw [hslot, hpi, hflag]
  split at hok
  next => trivial
  next => trivial
  next => exact hok
  next =>
    obtain ⟨hp, c0, hle, hci, hring, hsaw⟩ := hok
    rw [hsent]
    exact ⟨hp, c0, hle.trans hfreed, hci, hring, hsaw⟩
  next => exact ⟨hroom _ hok.1, hok.2⟩
  next => exact ⟨hroom _ hok.1, hok.2⟩
  next => exact ⟨hroom _ hok.1, hok.2⟩
  next => exact ⟨hroom _ hok.1, hok.2⟩
  next => exact hok

theorem Agree.update {k : ℕ} {m msg : Mem} (hagree : Agree k m msg) :
    Agree (k + 1) (Function.update m k (msg k)) msg := by
  intro x hx
  by_cases heq : x = k
  · subst heq
    exact Function.update_self ..
  · rw [Function.update_of_ne heq]
    exact hagree x (by omega)

theorem Agree.withCrc {m msg : Mem} (hagree : Agree msgCmdLen m msg) :
    Agree msgCmdLen (m.store 14 2 (dalCalCrc16 (msg.bytes 0 crcLen))) (withCrc msg) := by
  intro x hx
  unfold MsgScm3.withCrc Mem.store
  split
  · rfl
  · exact hagree x hx

theorem RingInv.senderStep_quiet {d : Sender} {q : MsgQueue} (hinv : RingInv s)
    (hpi : q.pi = s.q.pi) (hci : q.ci = s.q.ci) (hslot : ∀ i, i ≠ s.q.pi → q.slot i = s.q.slot i)
    (hs' : s' = { s with q := q, sender := some d }) (hok : SenderOk s' d) : RingInv s' := by
  subst hs'
  refine ⟨hinv.ring.congr rfl rfl rfl hpi hci hslot, ?_, ?_⟩
  · intro e hc
    cases hc
    exact hok
  · refine HandlerOk.mono (s := s) hinv.handler rfl rfl hci le_rfl ?_
    intro hlt
    rw [hinv.ring.ci]
    exact hslot _ (hinv.ring.slot_ne le_rfl hlt)

theorem Ring.taken_le (hring : Ring s) : s.taken.length ≤ s.sent.length := by
  have hlen := congrArg List.length hring.taken
  rw [List.length_take, List.length_map] at hlen
  omega

theorem Ring.publish {msg : Mem} {pi : ℕ} (hring : Ring s) (hpi : pi = s.q.pi)
    (hroom : s.sent.length + 1 < s.freed + msgQDepth)
    (hagree : Agree msgCmdLen (s.q.slot pi) (withCrc msg))
    (hq : s'.q = { s.q with pi := (pi + 1) % msgQDepth }) (hsent : s'.sent = s.sent ++ [msg])
    (hfreed : s'.freed = s.freed) (htaken : s'.taken = s.taken) : Ring s' := by
  have hle := hring.counters.le
  refine ⟨?_, ?_, ?_, ?_, ?_⟩
  · rw [hsent, hfreed, List.length_append, List.length_singleton]
    exact ⟨by omega, hroom⟩
  · rw [hq, hsent, List.length_append, List.length_singleton, hpi, hring.pi]
    exact Nat.mod_add_mod ..
  · rw [hq, hfreed]
    exact hring.ci
  · rw [hq, hsent, hfreed]
    intro i msg' hlow hmsg
    by_cases hold : i < s.sent.length
    · rw [List.getElem?_append_left hold] at hmsg
      exact hring.slots i msg' hlow hmsg
    · have hi : i = s.sent.length := by
        obtain ⟨hlt, -⟩ := List.getElem?_eq_some_iff.mp hmsg
        rw [List.length_append, List.length_singleton] at hlt
        omega
      subst hi
      rw [List.getElem?_concat_length] at hmsg
      cases hmsg
      rw [← hring.pi, ← hpi]
      exact hagree
  · rw [htaken, hsent, List.map_append, List.take_append_of_le_length]
    · exact hring.taken
    · rw [List.length_map]
      exact hring.taken_le

theorem RingInv.senderStep {c : Sender} (hinv : RingInv s) (hsender : s.sender = some c) :
    RingInv (s.senderStep c) := by
  have hok := hinv.sender c hsender
  obtain ⟨msg, pc, sawFull⟩ := c
  have hsetSlot : ∀ (pi : ℕ) (entry : Mem), pi = s.q.pi → ∀ i, i ≠ s.q.pi →
      (s.q.setSlot pi entry).slot i = s.q.slot i := by
    rintro pi entry rfl i hi
    exact Function.update_of_ne hi ..
  cases pc with
  | magic =>
    apply hinv.senderStep_quiet rfl rfl (fun _ _ => rfl) rfl
    simp only [msgCmdSend]
    split
    next hflag => exact .inr ⟨rfl, .inr hflag⟩
    next => trivial
  | readPi =>
    exact hinv.senderStep_quiet rfl rfl (fun _ _ => rfl) rfl rfl
  | readCi pi =>
    apply hinv.senderStep_quiet rfl rfl (fun _ _ => rfl) rfl
    refine ⟨hok, s.freed, le_rfl, hinv.ring.ci, hinv.ring.counters, ?_⟩
    have hle := hinv.ring.counters.le
    simp only [decide_eq_true_eq, RingState.fifo, List.length_drop, ringCap, msgQDepth]
    omega
  | test pi ci =>
    obtain ⟨hpi, c0, hle, hci, hcount, hsaw⟩ := hok
    apply hinv.senderStep_quiet rfl rfl (fun _ _ => rfl) rfl
    have hfull : (pi + 1) % msgQDepth = ci ↔ s.sent.length + 1 = c0 + msgQDepth := by
      rw [hpi, hinv.ring.pi, hci]
      exact hcount.full_iff
    simp only [msgCmdSend]
    split
    next htest => exact .inr ⟨rfl, .inl (hsaw.mpr (hfull.mp htest))⟩
    next htest =>
      have hnot : s.sent.length + 1 ≠ c0 + msgQDepth := fun h => htest (hfull.mpr h)
      have hlt := hcount.lt
      refine ⟨⟨hpi, ?_, ?_⟩, Nat.zero_le _, fun x hx => absurd hx (Nat.not_lt_zero x)⟩
      · show s.sent.length + 1 < s.freed + msgQDepth
        omega
      · exact Bool.eq_false_iff.mpr fun h => hnot (hsaw.mp h)
  | copy pi k =>
    obtain ⟨hroom, hk, hagree⟩ := hok
    by_cases hlt : k < msgCmdLen
    · apply hinv.senderStep_quiet (q := s.q.setSlot pi (Function.update (s.q.slot pi) k (msg k)))
        (d := ⟨msg, .copy pi (k + 1), sawFull⟩) rfl rfl (hsetSlot pi _ hroom.1)
      · simp only [RingState.senderStep, msgCmdSend, if_pos hlt]
      · simp only [RingState.senderStep, msgCmdSend, if_pos hlt]
        refine ⟨hroom, hlt, ?_⟩
        simp only [MsgQueue.setSlot, Function.update_self]
        exact hagree.update
    · have hall : k = msgCmdLen := by omega
      subst hall
      apply hinv.senderStep_quiet (q := s.q)
        (d := ⟨msg, .crc pi 0 crcInit, sawFull⟩) rfl rfl (fun _ _ => rfl)
      · simp only [RingState.senderStep, msgCmdSend, if_neg hlt]
      · simp only [RingState.senderStep, msgCmdSend, if_neg hlt]
        exact ⟨hroom, Nat.zero_le _, hagree, rfl⟩
  | crc pi k crc =>
    obtain ⟨hroom, hk, hagree, hcrc⟩ := hok
    by_cases hlt : k < crcLen
    · apply hinv.senderStep_quiet (q := s.q)
        (d := ⟨msg, .crc pi (k + 1) (crcStep crc (s.q.slot pi k)), sawFull⟩) rfl rfl
        (fun _ _ => rfl)
      · simp only [RingState.senderStep, msgCmdSend, if_pos hlt]
      · simp only [RingState.senderStep, msgCmdSend, if_pos hlt]
        refine ⟨hroom, hlt, hagree, ?_⟩
        have hbyte : s.q.slot pi k = msg k :=
          hagree k (by unfold crcLen at hlt; omega)
        simp only at hcrc
        rw [Mem.bytes_succ, List.foldl_append, ← hcrc, hbyte, Nat.zero_add]
        rfl
    · have hall : k = crcLen := by omega
      subst hall
      apply hinv.senderStep_quiet (q := s.q)
        (d := ⟨msg, .storeCrc pi (crcValue crc), sawFull⟩) rfl rfl (fun _ _ => rfl)
      · simp only [RingState.senderStep, msgCmdSend, if_neg hlt]
      · simp only [RingState.senderStep, msgCmdSend, if_neg hlt]
        exact ⟨hroom, hagree, by rw [hcrc]; rfl⟩
  | storeCrc pi cksum =>
    obtain ⟨hroom, hagree, hcrc⟩ := hok
    apply hinv.senderStep_quiet (q := s.q.setSlot pi ((s.q.slot pi).store 14 2 cksum))
      (d := ⟨msg, .storePi pi, sawFull⟩) rfl rfl (hsetSlot pi _ hroom.1) rfl
    refine ⟨hroom, ?_⟩
    simp only [MsgQueue.setSlot, Function.update_self]
    rw [hcrc]
    exact hagree.withCrc
  | storePi pi =>
    obtain ⟨⟨hpi, hlt, hsaw⟩, hagree⟩ := hok
    refine ⟨hinv.ring.publish hpi hlt hagree rfl rfl rfl rfl, ?_, ?_⟩
    · intro c' hc
      cases hc
      exact .inl ⟨rfl, hsaw⟩
    · refine HandlerOk.mono (s := s) hinv.handler rfl rfl rfl ?_ (fun _ => rfl)
      simp [RingState.senderStep]
  | unlock ret =>
    refine ⟨hinv.ring.congr rfl rfl rfl rfl rfl (fun _ _ => rfl), ?_, ?_⟩
    · intro c' hc
      cases hc
    · exact hinv.handler.mono rfl rfl rfl le_rfl (fun _ => rfl)

theorem Ring.next_entry (hring : Ring s) {ci : ℕ} (hon : HandlerOn s ci) :
    ∃ msg, s.sent[s.freed]? = some msg ∧ Agree msgCmdLen (s.q.slot ci) (withCrc msg) := by
  obtain ⟨rfl, hlt⟩ := hon
  refine ⟨_, List.getElem?_eq_getElem hlt, ?_⟩
  rw [hring.ci]
  exact hring.slots _ _ le_rfl (List.getElem?_eq_getElem hlt)

theorem Ring.crcOk (hring : Ring s) {ci : ℕ} (hon : HandlerOn s ci) : CrcOk (s.q.slot ci) := by
  obtain ⟨msg, -, hagree⟩ := hring.next_entry hon
  have hok := crcOk_withCrc msg
  have hdata : (s.q.slot ci).bytes 0 crcLen = (withCrc msg).bytes 0 crcLen := by
    apply Mem.bytes_congr
    intro x _ hx
    exact hagree x (by simp only [crcLen, msgCmdLen, msgCmdCrcLen] at hx ⊢; omega)
  have hcrc : msgCrc (s.q.slot ci) = msgCrc (withCrc msg) := by
    apply Mem.load_congr
    intro x _ hx
    exact hagree x (by simp only [msgCmdLen]; omega)
  unfold CrcOk at hok ⊢
  rw [hdata, hcrc]
  exact hok

theorem RingInv.handlerStep_quiet {p : HandlerPc} (hinv : RingInv s)
    (hs' : s' = { s with handler := p }) (hok : HandlerOk s p) : RingInv s' := by
  subst hs'
  refine ⟨hinv.ring.congr rfl rfl rfl rfl rfl (fun _ _ => rfl), ?_, ?_⟩
  · intro c hc
    exact (hinv.sender c hc).mono rfl le_rfl rfl rfl rfl
  · exact hok.mono rfl rfl rfl le_rfl (fun _ => rfl)

theorem Ring.take {ci : ℕ} (hring : Ring s) (hon : HandlerOn s ci)
    (hlen : s.taken.length = s.freed) (hq : s'.q = s.q) (hsent : s'.sent = s.sent)
    (hfreed : s'.freed = s.freed)
    (htaken : s'.taken = s.taken ++ [(s.q.slot ci).bytes 0 msgCmdLen]) : Ring s' := by
  refine ⟨?_, ?_, ?_, ?_, ?_⟩
  · rw [hsent, hfreed]
    exact hring.counters
  · rw [hq, hsent]
    exact hring.pi
  · rw [hq, hfreed]
    exact hring.ci
  · rw [hq, hsent, hfreed]
    exact hring.slots
  · obtain ⟨msg, hmsg, hagree⟩ := hring.next_entry hon
    rw [htaken, hsent, List.length_append, List.length_singleton, List.take_add_one,
      ← hring.taken, hlen, List.getElem?_map, hmsg, hagree.bytes]
    rfl

theorem Ring.release {ci : ℕ} (hring : Ring s) (hon : HandlerOn s ci)
    (hq : s'.q = { s.q with ci := (ci + 1) % msgQDepth }) (hsent : s'.sent = s.sent)
    (hfreed : s'.freed = s.freed + 1) (htaken : s'.taken = s.taken) : Ring s' := by
  obtain ⟨hci, hlt⟩ := hon
  have hcount := hring.counters.lt
  refine ⟨?_, ?_, ?_, ?_, ?_⟩
  · rw [hsent, hfreed]
    exact ⟨hlt, by omega⟩
  · rw [hq, hsent]
    exact hring.pi
  · rw [hq, hfreed, hci, hring.ci]
    exact Nat.mod_add_mod ..
  · rw [hq, hsent, hfreed]
    intro i msg hlow hmsg
    exact hring.slots i msg (by omega) hmsg
  · rw [htaken, hsent]
    exact hring.taken

theorem RingInv.handlerStep (hinv : RingInv s) : RingInv s.handlerStep := by
  have hok := hinv.handler
  cases hpc : s.handler with
  | idle =>
    rw [hpc] at hok
    apply hinv.handlerStep_quiet (p := .idle) _ hok
    simp only [RingState.handlerStep, msgDelayworkHandle, hpc]
  | readPi =>
    rw [hpc] at hok
    apply hinv.handlerStep_quiet (p := .readCi s.q.pi)
    · simp only [RingState.handlerStep, msgDelayworkHandle, hpc]
    · exact ⟨hok, _, hinv.ring.counters.le, le_rfl, hinv.ring.pi⟩
  | readCi pi =>
    rw [hpc] at hok
    apply hinv.handlerStep_quiet (p := .test pi s.q.ci)
    · simp only [RingState.handlerStep, msgDelayworkHandle, hpc]
    · exact ⟨hok.1, rfl, hok.2⟩
  | test pi ci =>
    rw [hpc] at hok
    obtain ⟨hlen, hci, p0, hlow, hhigh, hp⟩ := hok
    by_cases hne : pi ≠ ci
    · apply hinv.handlerStep_quiet (p := .crc ci 0 crcInit)
      · simp only [RingState.handlerStep, msgDelayworkHandle, hpc, if_pos hne]
      · refine ⟨hlen, ⟨hci, ?_⟩, Nat.zero_le _, rfl⟩
        have hpos : s.freed ≠ p0 := by
          rintro rfl
          exact hne (hp.trans (hci.trans hinv.ring.ci).symm)
        omega
    · apply hinv.handlerStep_quiet (p := .idle) _ hlen
      simp only [RingState.handlerStep, msgDelayworkHandle, hpc, if_neg hne]
  | crc ci k crc =>
    rw [hpc] at hok
    obtain ⟨hlen, hon, hk, hcrc⟩ := hok
    by_cases hlt : k < crcLen
    · apply hinv.handlerStep_quiet (p := .crc ci (k + 1) (crcStep crc (s.q.slot ci k)))
      · simp only [RingState.handlerStep, msgDelayworkHandle, hpc, if_pos hlt]
      · refine ⟨hlen, hon, hlt, ?_⟩
        rw [Mem.bytes_succ, List.foldl_append, ← hcrc, Nat.zero_add]
        rfl
    · have hall : k = crcLen := by omega
      subst hall
      apply hinv.handlerStep_quiet (p := .compare ci (crcValue crc))
      · simp only [RingState.handlerStep, msgDelayworkHandle, hpc, if_neg hlt]
      · exact ⟨hlen, hon, by rw [hcrc]; rfl⟩
  | compare ci cksum =>
    rw [hpc] at hok
    obtain ⟨hlen, hon, -⟩ := hok
    by_cases hne : cksum ≠ msgCrc (s.q.slot ci)
    · apply hinv.handlerStep_quiet (p := .idle) _ hlen
      simp only [RingState.handlerStep, msgDelayworkHandle, hpc, if_pos hne]
    · apply hinv.handlerStep_quiet (p := .saveAddr ci) _ ⟨hlen, hon⟩
      simp only [RingState.handlerStep, msgDelayworkHandle, hpc, if_neg hne]
  | saveAddr ci =>
    rw [hpc] at hok
    obtain ⟨hlen, hon⟩ := hok
    have hs' : s.handlerStep =
        { s with
          handler := .complete ci
          taken := s.taken ++ [(s.q.slot ci).bytes 0 msgCmdLen] } := by
      simp only [RingState.handlerStep, msgDelayworkHandle, hpc]
    rw [hs']
    refine ⟨hinv.ring.take hon hlen rfl rfl rfl rfl, ?_, ?_⟩
    · intro c hc
      exact (hinv.sender c hc).mono rfl le_rfl rfl rfl rfl
    · refine ⟨?_, hon⟩
      simp only [List.length_append, List.length_singleton, hlen]
  | complete ci =>
    rw [hpc] at hok
    apply hinv.handlerStep_quiet (p := .storeCi ci) _ hok
    simp only [RingState.handlerStep, msgDelayworkHandle, hpc]
  | storeCi ci =>
    rw [hpc] at hok
    obtain ⟨hlen, hon⟩ := hok
    have hs' : s.handlerStep =
        { s with
          q := { s.q with ci := (ci + 1) % msgQDepth }
          handler := .readPi
          freed := s.freed + 1 } := by
      simp only [RingState.handlerStep, msgDelayworkHandle, hpc]
    rw [hs']
    refine ⟨hinv.ring.release hon rfl rfl rfl rfl, ?_, hlen⟩
    intro c hc
    exact (hinv.sender c hc).mono rfl (Nat.le_succ _) rfl rfl rfl

/-- A call that found the queue full failed, and apart from a null message or a
ring that is not initialised nothing else makes a call fail. -/
def ResultsOk (s : RingState) : Prop :=
  ∀ r ∈ s.results, (r.ret = einval ∧ r.sawFull = false) ∨ (r.ret = 0 ∧ r.sawFull = false) ∨
    (r.ret = efault ∧ (r.sawFull = true ∨ s.q.initFlag ≠ msgQInitMagic))

theorem msgCmdSend_initFlag (q : MsgQueue) (msg : Mem) (pc : SendPc) :
    (msgCmdSend q msg pc).2.initFlag = q.initFlag := by
  unfold msgCmdSend
  repeat' split
  all_goals rfl

theorem msgDelayworkHandle_queue (q : MsgQueue) (pc : HandlerPc) :
    (msgDelayworkHandle q pc).2.1.initFlag = q.initFlag ∧
      (msgDelayworkHandle q pc).2.1.pi = q.pi ∧ (msgDelayworkHandle q pc).2.1.slot = q.slot := by
  unfold msgDelayworkHandle
  repeat' split
  all_goals exact ⟨rfl, rfl, rfl⟩

theorem ResultsOk.senderStep {c : Sender} (hinv : RingInv s) (hres : ResultsOk s)
    (hsender : s.sender = some c) : ResultsOk (s.senderStep c) := by
  have hflag := msgCmdSend_initFlag s.q c.msg c.pc
  unfold RingState.senderStep
  split
  next ret hpc =>
    intro r hr
    rw [List.mem_append, List.mem_singleton] at hr
    rcases hr with hold | rfl
    · exact hres r hold
    · have hok := hinv.sender c hsender
      simp only [SenderOk, hpc] at hok
      exact .inr hok
  all_goals
    unfold ResultsOk
    simp only [hflag]
    exact hres

theorem ResultsOk.handlerStep (hres : ResultsOk s) : ResultsOk s.handlerStep := by
  have hflag := (msgDelayworkHandle_queue s.q s.handler).1
  unfold RingState.handlerStep
  split
  all_goals
    unfold ResultsOk
    simp only [hflag]
    exact hres

theorem ringInv_next {a : RingAction} (hinv : RingInv s ∧ ResultsOk s)
    (hstep : ringNext s a = some s') : RingInv s' ∧ ResultsOk s' := by
  obtain ⟨hring, hres⟩ := hinv
  cases a with
  | send msg =>
    cases msg with
    | none =>
      cases hstep
      refine ⟨⟨hring.ring.congr rfl rfl rfl rfl rfl (fun _ _ => rfl), ?_, ?_⟩, ?_⟩
      · intro c hc
        exact (hring.sender c hc).mono rfl le_rfl rfl rfl rfl
      · exact hring.handler.mono rfl rfl rfl le_rfl (fun _ => rfl)
      · intro r hr
        rw [List.mem_append, List.mem_singleton] at hr
        rcases hr with hold | rfl
        · exact hres r hold
        · exact .inl ⟨rfl, rfl⟩
    | some msg =>
      simp only [ringNext] at hstep
      split at hstep
      · cases hstep
        exact ⟨hring.senderStep_quiet rfl rfl (fun _ _ => rfl) rfl trivial, hres⟩
      · cases hstep
  | sender =>
    obtain ⟨c, hc, rfl⟩ := Option.map_eq_some_iff.mp hstep
    exact ⟨hring.senderStep hc, hres.senderStep hring hc⟩
  | work =>
    simp only [ringNext] at hstep
    split at hstep
    next hidle =>
      cases hstep
      have hok := hring.handler
      rw [hidle] at hok
      exact ⟨hring.handlerStep_quiet rfl hok, hres⟩
    next => cases hstep
  | handler =>
    cases hstep
    exact ⟨hring.handlerStep, hres.handlerStep⟩

theorem ringInv_of_reachable (hreach : ringSystem.Reachable s) : RingInv s ∧ ResultsOk s := by
  apply hreach.invariant
  · rintro s ⟨flag, slot, rfl⟩
    refine ⟨⟨⟨⟨le_rfl, by simp [msgQDepth]⟩, rfl, rfl, ?_, rfl⟩, ?_, rfl⟩, ?_⟩
    · intro i msg _ hmsg
      cases hmsg
    · intro c hc
      cases hc
    · intro r hr
      cases hr
  · intro s a s' _ hinv hstep
    exact ringInv_next hinv hstep

theorem fifo_sender {c : Sender} (hinv : RingInv s) (hsender : s.sender = some c) :
    FifoStep ringCap s.fifo (s.senderStep c).fifo := by
  have hok := hinv.sender c hsender
  unfold RingState.senderStep
  split
  next => exact .stay _
  next => exact .stay _
  next pi hpc =>
    simp only [SenderOk, hpc] at hok
    obtain ⟨⟨-, hroom, -⟩, -⟩ := hok
    have hle := hinv.ring.counters.le
    simp only [RingState.fifo]
    rw [List.drop_append_of_le_length hle]
    apply FifoStep.push
    rw [List.length_drop]
    unfold ringCap
    omega
  all_goals exact .stay _

theorem fifo_handler (hinv : RingInv s) : FifoStep ringCap s.fifo s.handlerStep.fifo := by
  have hok := hinv.handler
  unfold RingState.handlerStep
  split
  next => exact .stay _
  next ci hpc =>
    simp only [hpc, HandlerOk] at hok
    obtain ⟨-, -, hlt⟩ := hok
    simp only [RingState.fifo]
    rw [List.drop_eq_getElem_cons hlt]
    exact .pop _ _
  all_goals exact .stay _

theorem senderStep_of_sawFull {c : Sender} (hinv : RingInv s) (hsender : s.sender = some c)
    (hfull : c.sawFull = true) : (s.senderStep c).q = s.q ∧ (s.senderStep c).fifo = s.fifo := by
  have hok := hinv.sender c hsender
  have hroom : ∀ pi, ¬ SendRoom s c pi := by
    rintro pi ⟨-, -, hnot⟩
    rw [hfull] at hnot
    cases hnot
  obtain ⟨msg, pc, sawFull⟩ := c
  cases pc with
  | magic | readPi | readCi pi | test pi ci | unlock ret => exact ⟨rfl, rfl⟩
  | copy pi k | crc pi k crc | storeCrc pi cksum | storePi pi => exact absurd hok.1 (hroom pi)

/-- In every reachable state the ring is a queue of capacity `MSG_Q_DEPTH - 1`:
its indices are in range, the handler has taken the entries in the order of the
sends, each with its checksum, and the slots of the entries that wait hold them.
Every step is a step of the queue, and a call that finds it full fails and changes
nothing. -/
theorem ring_refines_fifo (hreach : ringSystem.Reachable s) :
    s.q.pi < msgQDepth ∧ s.q.ci < msgQDepth ∧ s.fifo.length ≤ ringCap ∧
    (s.freed ≤ s.taken.length ∧ s.taken = (s.sent.map entryBytes).take s.taken.length) ∧
    (∀ ci cksum, s.handler = .compare ci cksum → cksum = msgCrc (s.q.slot ci)) ∧
    (∀ i msg, s.fifo[i]? = some msg →
      (s.q.slot ((s.q.ci + i) % msgQDepth)).bytes 0 msgCmdLen = entryBytes msg) ∧
    (∀ r ∈ s.results, r.sawFull = true → r.ret = efault) ∧
    ∀ a s', ringNext s a = some s' →
      FifoStep ringCap s.fifo s'.fifo ∧
      ∀ c, s.sender = some c → c.sawFull = true → a = .sender → s'.q = s.q ∧ s'.fifo = s.fifo := by
  obtain ⟨hinv, hres⟩ := ringInv_of_reachable hreach
  have hring := hinv.ring
  have hcount := hring.counters
  refine ⟨?_, ?_, ?_, ⟨?_, hring.taken⟩, ?_, ?_, ?_, ?_⟩
  · rw [hring.pi]
    exact Nat.mod_lt _ (by decide)
  · rw [hring.ci]
    exact Nat.mod_lt _ (by decide)
  · have hlt := hcount.lt
    unfold RingState.fifo ringCap
    rw [List.length_drop]
    omega
  · have hok := hinv.handler
    cases hpc : s.handler <;> rw [hpc] at hok <;> simp only [HandlerOk] at hok <;> omega
  · intro ci cksum hpc
    have hok := hinv.handler
    rw [hpc] at hok
    obtain ⟨-, hon, hcrc⟩ := hok
    rw [hcrc]
    exact hring.crcOk hon
  · intro i msg hmsg
    rw [RingState.fifo, List.getElem?_drop] at hmsg
    have hagree := hring.slots _ msg (Nat.le_add_right _ i) hmsg
    rw [hring.ci, Nat.mod_add_mod]
    exact hagree.bytes
  · intro r hr hfull
    rcases hres r hr with ⟨-, hnot⟩ | ⟨-, hnot⟩ | ⟨hret, -⟩
    · rw [hfull] at hnot
      cases hnot
    · rw [hfull] at hnot
      cases hnot
    · exact hret
  · intro a s' hstep
    cases a with
    | send msg =>
      refine ⟨?_, fun c _ _ ha => by cases ha⟩
      cases msg with
      | none =>
        cases hstep
        exact .stay _
      | some msg =>
        simp only [ringNext] at hstep
        split at hstep
        · cases hstep
          exact .stay _
        · cases hstep
    | sender =>
      obtain ⟨c, hc, rfl⟩ := Option.map_eq_some_iff.mp hstep
      refine ⟨fifo_sender hinv hc, ?_⟩
      intro c' hc' hfull _
      rw [hc] at hc'
      cases hc'
      exact senderStep_of_sawFull hinv hc hfull
    | work =>
      refine ⟨?_, fun c _ _ ha => by cases ha⟩
      simp only [ringNext] at hstep
      split at hstep
      · cases hstep
        exact .stay _
      · cases hstep
    | handler =>
      cases hstep
      exact ⟨fifo_handler hinv, fun c _ _ ha => by cases ha⟩

def someMsg : Mem := fun x => UInt8.ofNat (x + 1)

def ringStart : RingState :=
  ⟨⟨0, 0, msgQInitMagic, fun _ _ => 0⟩, none, .idle, [], [], 0, []⟩

def oneMessage : List RingAction :=
  RingAction.send (some someMsg) :: List.replicate 39 RingAction.sender ++
    RingAction.work :: List.replicate 22 RingAction.handler

def afterOneMessage : RingState :=
  (TransitionSystem.runSteps ringNext ringStart oneMessage).get (by decide +kernel)

theorem one_message_taken :
    afterOneMessage.taken = [entryBytes someMsg] ∧ afterOneMessage.q.ci = 1 := by
  have hstart : ringSystem.Reachable ringStart := TransitionSystem.Reachable.init ⟨_, _, rfl⟩
  have hreach : ringSystem.Reachable afterOneMessage :=
    hstart.runSteps (l := oneMessage) (Option.some_get _).symm
  obtain ⟨-, -, -, ⟨-, htaken⟩, -⟩ := ring_refines_fifo hreach
  have hcount : afterOneMessage.taken.length = 1 := by decide +kernel
  have hsent : afterOneMessage.sent.map entryBytes = [entryBytes someMsg] := by decide +kernel
  refine ⟨?_, by decide +kernel⟩
  rw [htaken, hcount, hsent]
  rfl

end HiMpu.MsgScm3
