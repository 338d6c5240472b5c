import HiMpu.BmTypes
import HiMpu.Securec
import HiMpu.TransitionSystem

/-!
# Mailboxes between the bare-metal cores

`bm_send_msg` and `bm_recv_msg` of `message.c`.  The five mailboxes lie one after
another in the memory that the cores share, each a status word and a body.  Any number
of calls are at work, and between any two of their accesses to the shared memory the
other cores may run.  The buffer that a caller passes is the caller's own until the
call returns.
-/

namespace HiMpu.Message

open Securec

def msgStatusFree : ℕ := 0
def msgStatusUsing : ℕ := 1
def magicNum : ℕ := 0x5a5a5a
def msgIdBottom : ℕ := 5
def bmMaxCoreNum : ℕ := 4
def msgHeadLen : ℕ := 4
def msgBodyLen : ℕ := 0x100
def hiSharedIpiArgLen : ℕ := 4
def shareMsgLen : ℕ := 0x5000

def msgHeadFlag (status : ℕ) : ℕ := status ||| magicNum <<< 8

structure Layout where
  hiSharedBaseAddr : ℕ
  xferSegmentStart : ℕ → ℕ
  xferSegmentEnd : ℕ → ℕ
  imagesBelow : ∀ core, xferSegmentEnd core ≤ hiSharedBaseAddr
  basePos : 0 < hiSharedBaseAddr
  fits : hiSharedBaseAddr + shareMsgLen ≤ 2 ^ 32

def Layout.ipiTrigger (L : Layout) (core : ℕ) : ℕ :=
  L.hiSharedBaseAddr + core * hiSharedIpiArgLen

def Layout.msgBase (L : Layout) (msgId : ℕ) : ℕ :=
  L.ipiTrigger bmMaxCoreNum + msgId * (msgBodyLen + msgHeadLen)

def Layout.msgBuf (L : Layout) (msgId : ℕ) : ℕ :=
  L.msgBase msgId + msgHeadLen

def Layout.isInvalidAddrLen (L : Layout) (core addr len : ℕ) : Prop :=
  ¬ (L.xferSegmentStart core ≤ addr ∧ addr < L.xferSegmentEnd core ∧
    L.xferSegmentStart core < addr + len ∧ addr + len ≤ L.xferSegmentEnd core)

instance (L : Layout) (core addr len : ℕ) : Decidable (L.isInvalidAddrLen core addr len) :=
  inferInstanceAs (Decidable (¬ _))

def setFlagStatus (L : Layout) (mem : Mem) (msgId status : ℕ) : Mem :=
  mem.store (L.msgBase msgId) 4 (msgHeadFlag status)

def setTrigger (L : Layout) (mem : Mem) (recvCpu msgId : ℕ) : Mem :=
  mem.store (L.ipiTrigger (recvCpu % 4)) 4 msgId

def flagStatus (L : Layout) (mem : Mem) (msgId : ℕ) : ℕ :=
  mem.load (L.msgBase msgId) 4

def trigger (L : Layout) (mem : Mem) (cpu : ℕ) : ℕ :=
  mem.load (L.ipiTrigger (cpu % 4)) 4

def body (L : Layout) (mem : Mem) (msgId : ℕ) : Mem :=
  fun i => mem (L.msgBuf msgId + i)

def bmMsgInit (L : Layout) (mem : Mem) : Mem :=
  (List.range bmMaxCoreNum).foldl (fun mem i => setTrigger L mem i 0)
    ((List.range msgIdBottom).foldl (fun mem i => setFlagStatus L mem i msgStatusFree) mem)

inductive Op where
  | send
  | recv
deriving DecidableEq

/-- Where a call of `bm_send_msg` or `bm_recv_msg` stands. -/
inductive Pc where
  | absent
  | called
  | compare
  | acquired
  | moving (plan : CopyPlan) (done : Finset ℕ)
  | releasing (ret : ℤ)
  | returned (ret : ℤ)
deriving DecidableEq

structure Call where
  core : ℕ
  op : Op
  msgId : ℕ
  buf : ℕ
  bufLen : ℕ
  data : Mem
  pc : Pc

structure State where
  mem : Mem
  call : ℕ → Call
  acquired : ℕ → List ℕ
  released : ℕ → List ℕ
  stores : ℕ → List (ℕ × UInt8)

def State.setCall (s : State) (k : ℕ) (c : Call) : State :=
  { s with call := Function.update s.call k c }

def State.goto (s : State) (k : ℕ) (pc : Pc) : State :=
  s.setCall k { s.call k with pc := pc }

def Call.refused (L : Layout) (c : Call) : Prop :=
  msgIdBottom ≤ c.msgId ∨ c.buf = 0 ∨ L.isInvalidAddrLen c.core (c.buf % 2 ^ 32) c.bufLen

instance (L : Layout) (c : Call) : Decidable (c.refused L) :=
  inferInstanceAs (Decidable (_ ∨ _))

def Call.memcpy (L : Layout) (c : Call) : CopyPlan :=
  match c.op with
  | .send => memcpyS (L.msgBuf c.msgId) msgBodyLen c.buf c.bufLen
  | .recv =>
    memcpyS c.buf msgBodyLen (L.msgBuf c.msgId)
      (if msgBodyLen < c.bufLen then msgBodyLen else c.bufLen)

def advance (L : Layout) (s : State) (k : ℕ) : Option State :=
  let c := s.call k
  match c.pc with
  | .absent | .returned _ => none
  | .called => some (s.goto k (if c.refused L then .returned bmFail else .compare))
  | .compare =>
    if flagStatus L s.mem c.msgId = msgHeadFlag msgStatusFree then
      some ({ s with
        mem := setFlagStatus L s.mem c.msgId msgStatusUsing
        acquired := Function.update s.acquired c.msgId (s.acquired c.msgId ++ [k]) }.goto k
        .acquired)
    else some (s.goto k (.returned bmFail))
  | .acquired =>
    -- only the sender checks the length; the receiver has cut it
    if c.op = .send ∧ msgBodyLen < c.bufLen then some (s.goto k (.releasing bmFail))
    else some (s.goto k (.moving (c.memcpy L) ∅))
  | .moving plan done =>
    if done = Finset.range plan.count then
      some (s.goto k (.releasing (if plan.ret ≠ 0 then bmFail else bmOk)))
    else none
  | .releasing ret =>
    some ({ s with
      mem := setFlagStatus L s.mem c.msgId msgStatusFree
      released := Function.update s.released c.msgId (s.released c.msgId ++ [k]) }.goto k
      (.returned ret))

def copyByte (L : Layout) (s : State) (k i : ℕ) : Option State :=
  let c := s.call k
  match c.pc with
  | .moving plan done =>
    if i < plan.count ∧ i ∉ done then
      match c.op with
      | .send =>
        let byte := if plan.clears then 0 else c.data i
        some ({ s with
          mem := Function.update s.mem (L.msgBuf c.msgId + i) byte
          stores := Function.update s.stores k (s.stores k ++ [(i, byte)]) }.goto k
          (.moving plan (insert i done)))
      | .recv =>
        let byte := if plan.clears then 0 else body L s.mem c.msgId i
        some (s.setCall k { c with
          data := Function.update c.data i byte, pc := .moving plan (insert i done) })
    else none
  | _ => none

inductive Action where
  | call (k core : ℕ) (op : Op) (msgId buf bufLen : ℕ) (data : Mem)
  | advance (k : ℕ)
  | copy (k i : ℕ)

def next (L : Layout) (s : State) : Action → Option State
  | .call k core op msgId buf bufLen data =>
    if (s.call k).pc = .absent then
      some (s.setCall k ⟨core, op, msgId, buf, bufLen, data, .called⟩)
    else none
  | .advance k => advance L s k
  | .copy k i => copyByte L s k i

def initial (L : Layout) (mem : Mem) (s : State) : Prop :=
  s.mem = bmMsgInit L mem ∧ (∀ k, (s.call k).pc = .absent ∧ s.stores k = []) ∧
    ∀ m, s.acquired m = [] ∧ s.released m = []

def mailboxes (L : Layout) (mem : Mem) : TransitionSystem State Action :=
  TransitionSystem.ofStep (initial L mem) (next L)

def Call.moves (c : Call) : ℕ :=
  min c.bufLen msgBodyLen

/-- A completed successful send replaces the front of the body. -/
def Call.applied (c : Call) (contents : Mem) : Mem :=
  if c.op = .send ∧ c.pc = .returned bmOk then contents.write 0 (c.data.bytes 0 c.bufLen)
  else contents

def contents (L : Layout) (mem : Mem) (s : State) (m : ℕ) (calls : List ℕ) : Mem :=
  calls.foldl (fun contents k => (s.call k).applied contents) (body L mem m)

def Pc.holds : Pc → Prop
  | .acquired | .moving _ _ | .releasing _ => True
  | .absent | .called | .compare | .returned _ => False

structure Linearizable (L : Layout) (mem : Mem) (s : State) : Prop where
  exclusive : ∀ k j, (s.call k).pc.holds → (s.call j).pc.holds →
    (s.call k).msgId = (s.call j).msgId → k = j
  released : ∀ m < msgIdBottom, ∀ k ∈ s.acquired m, ∀ ret,
    (s.call k).pc = .returned ret → k ∈ s.released m
  status : ∀ m < msgIdBottom, flagStatus L s.mem m = msgHeadFlag msgStatusFree ↔
    ∀ k, (s.call k).msgId = m → ¬ (s.call k).pc.holds
  ordered : ∀ m < msgIdBottom, (s.acquired m).Nodup
  contents : ∀ m < msgIdBottom, flagStatus L s.mem m = msgHeadFlag msgStatusFree →
    (body L s.mem m).bytes 0 msgBodyLen =
      (contents L mem s m (s.acquired m)).bytes 0 msgBodyLen
  delivered : ∀ r, (s.call r).op = .recv → (s.call r).pc = .returned bmOk →
    ∃ before after, s.acquired (s.call r).msgId = before ++ r :: after ∧
      (s.call r).data.bytes 0 (s.call r).moves =
        (Message.contents L mem s (s.call r).msgId before).bytes 0 (s.call r).moves
  failed : ∀ k, (s.call k).pc = .returned bmFail → s.stores k = []
  stored : ∀ a s', next L s a = some s' → ∀ m < msgIdBottom, ∀ i < msgBodyLen,
    body L s'.mem m i ≠ body L s.mem m i →
      ∃ k, a = .copy k i ∧ (s.call k).msgId = m ∧
        s'.stores k = s.stores k ++ [(i, body L s'.mem m i)]

end HiMpu.Message
