import HiMpu.MailboxIpi

/-!
# A send with an interrupt that fails

One call of `bm_send_msg_with_ipi` from start to end, while no other core touches the
share memory.  The number of the target core is checked when `bm_send_msg` has replaced
the body already, and what `bm_hwi_trigger` returns is not looked at.
-/

namespace HiMpu.Message

open Securec

structure SendArgs where
  core : ℕ
  recvCpu : ℕ
  msgId : ℕ
  buf : ℕ
  bufLen : ℕ

/-- What the checks of `bm_send_msg` refuse; `protect` is `BM_ADDR_PROTECT`. -/
def SendArgs.refused (L : Layout) (protect : Bool) (c : SendArgs) : Prop :=
  msgIdBottom ≤ c.msgId ∨ c.buf = 0 ∨
    (protect = true ∧ L.isInvalidAddrLen c.core (c.buf % 2 ^ 32) c.bufLen)

instance (L : Layout) (protect : Bool) (c : SendArgs) : Decidable (c.refused L protect) :=
  inferInstanceAs (Decidable (_ ∨ _))

def bmSendMsg (L : Layout) (protect : Bool) (mem : Mem) (c : SendArgs) : Mem × ℤ :=
  if c.refused L protect then (mem, bmFail)
  else if flagStatus L mem c.msgId ≠ msgHeadFlag msgStatusFree then (mem, bmFail)
  else
    let taken := setFlagStatus L mem c.msgId msgStatusUsing
    if msgBodyLen < c.bufLen then (setFlagStatus L taken c.msgId msgStatusFree, bmFail)
    else
      let plan := memcpyS (L.msgBuf c.msgId) msgBodyLen c.buf c.bufLen
      let moved := plan.run taken (L.msgBuf c.msgId) c.buf
      if plan.ret ≠ 0 then (setFlagStatus L moved c.msgId msgStatusFree, bmFail)
      else (setFlagStatus L moved c.msgId msgStatusFree, bmOk)

structure SendResult where
  mem : Mem
  raised : ℕ → Bool
  ret : ℤ

/-- `enabled` is whether the interrupt is enabled on the core that calls. -/
def bmSendMsgWithIpi (L : Layout) (protect enabled : Bool) (mem : Mem) (c : SendArgs) :
    SendResult :=
  let sent := bmSendMsg L protect mem c
  if sent.2 ≠ bmOk then ⟨sent.1, fun _ => false, bmFail⟩
  else if bmMaxCoreNum ≤ c.recvCpu then ⟨sent.1, fun _ => false, bmFail⟩
  else
    let raised := bmHwiTrigger enabled (fun _ => false) ipiIntNo (0 ||| 1 <<< c.recvCpu)
    ⟨setTrigger L sent.1 c.recvCpu c.msgId, raised.2, bmOk⟩

structure SharedKept (L : Layout) (before after : Mem) : Prop where
  bodies : ∀ m < msgIdBottom, ∀ i < msgBodyLen, body L after m i = body L before m i
  statuses : ∀ m < msgIdBottom, flagStatus L after m = flagStatus L before m
  triggers : ∀ cpu < bmMaxCoreNum, trigger L after cpu = trigger L before cpu

structure SendResult.Expected (L : Layout) (mem : Mem) (c : SendArgs) (r : SendResult) :
    Prop where
  failed : r.ret = bmFail → SharedKept L mem r.mem ∧ ∀ cpu, r.raised cpu = false
  sent : r.ret = bmOk → r.raised c.recvCpu = true

def SendArgs.takes (L : Layout) (protect : Bool) (mem : Mem) (c : SendArgs) : Prop :=
  ¬ c.refused L protect ∧ flagStatus L mem c.msgId = msgHeadFlag msgStatusFree ∧
    c.bufLen ≤ msgBodyLen

/-- A call that takes the mailbox has the interrupt enabled and a core as its target, or
it writes what is there already: the bytes of the message, or the zeros with which
`memcpy_s` answers a buffer that overlaps the body. -/
def SendArgs.Harmless (L : Layout) (protect enabled : Bool) (mem : Mem) (c : SendArgs) : Prop :=
  c.takes L protect mem →
    if memoryIsOverlap (L.msgBuf c.msgId) c.buf c.bufLen then
      ∀ i < msgBodyLen, body L mem c.msgId i = 0
    else if c.recvCpu < bmMaxCoreNum then enabled = true
    else
      ∀ i < c.bufLen,
        setFlagStatus L mem c.msgId msgStatusUsing (c.buf + i) = body L mem c.msgId i

variable {L : Layout} {protect enabled : Bool} {mem mem' : Mem} {c : SendArgs} {m i cpu : ℕ}

structure WrittenBody (L : Layout) (mem mem' : Mem) (id : ℕ) : Prop where
  status : ∀ m, flagStatus L mem' m = flagStatus L mem m
  trigger : ∀ cpu, Message.trigger L mem' cpu = Message.trigger L mem cpu
  others : ∀ m ≠ id, ∀ i < msgBodyLen, body L mem' m i = body L mem m i

theorem WrittenBody.sharedKept_iff (h : WrittenBody L mem mem' m) (hm : m < msgIdBottom) :
    SharedKept L mem mem' ↔ ∀ i < msgBodyLen, body L mem' m i = body L mem m i := by
  constructor
  · intro hkept
    exact hkept.bodies m hm
  · intro hbody
    refine ⟨fun m' _ => ?_, fun m' _ => h.status m', fun cpu _ => h.trigger cpu⟩
    by_cases hsame : m' = m
    · subst hsame
      exact hbody
    · exact h.others m' hsame

theorem writtenBody_of_moved {moved : Mem}
    (hfree : flagStatus L mem m = msgHeadFlag msgStatusFree)
    (hmoved : ∀ x, x < L.msgBuf m ∨ L.msgBuf m + msgBodyLen ≤ x →
      moved x = setFlagStatus L mem m msgStatusUsing x) :
    WrittenBody L mem (setFlagStatus L moved m msgStatusFree) m := by
  have hout : ∀ m' i, (m' ≠ m ∧ i < 256) →
      L.msgBuf m' + i < L.msgBuf m ∨ L.msgBuf m + msgBodyLen ≤ L.msgBuf m' + i := by
    intro m' i hother
    simp only [L.msgBuf_eq, msgBodyLen]
    omega
  refine ⟨fun m' => ?_, fun cpu => ?_, fun m' hne i hi => ?_⟩
  · by_cases hsame : m' = m
    · subst hsame
      rw [flagStatus_set L _ _ _ (by decide), hfree]
    · have hkept : flagStatus L moved m' =
          flagStatus L (setFlagStatus L mem m msgStatusUsing) m' := by
        apply Mem.load_congr
        intro x hlow hhigh
        apply hmoved
        simp only [L.msgBase_eq] at hlow hhigh
        simp only [L.msgBuf_eq, msgBodyLen]
        omega
      rw [flagStatus_set_other (Ne.symm hsame), hkept, flagStatus_set_other (Ne.symm hsame)]
  · have hkept : trigger L moved cpu =
        trigger L (setFlagStatus L mem m msgStatusUsing) cpu := by
      apply Mem.load_congr
      intro x hlow hhigh
      apply hmoved
      simp only [Layout.ipiTrigger, hiSharedIpiArgLen] at hlow hhigh
      simp only [L.msgBuf_eq, msgBodyLen]
      omega
    rw [trigger_setFlagStatus, hkept, trigger_setFlagStatus]
  · rw [body_setFlagStatus hi]
    have hkept : body L moved m' i = body L (setFlagStatus L mem m msgStatusUsing) m' i :=
      hmoved _ (hout m' i ⟨hne, hi⟩)
    rw [hkept, body_setFlagStatus hi]

theorem SharedKept.refl (L : Layout) (mem : Mem) : SharedKept L mem mem :=
  ⟨fun _ _ _ _ => rfl, fun _ _ => rfl, fun _ _ => rfl⟩

theorem bmSendMsg_refuses (htakes : ¬ c.takes L protect mem) :
    (bmSendMsg L protect mem c).2 = bmFail ∧
      SharedKept L mem (bmSendMsg L protect mem c).1 := by
  unfold bmSendMsg
  split_ifs with hrefused hstatus hlen
  · exact ⟨rfl, SharedKept.refl L mem⟩
  · exact ⟨rfl, SharedKept.refl L mem⟩
  · refine ⟨rfl, ?_⟩
    have hid : c.msgId < msgIdBottom := by
      unfold SendArgs.refused at hrefused
      omega
    rw [(writtenBody_of_moved (not_not.mp hstatus) fun _ _ => rfl).sharedKept_iff hid]
    intro i hi
    rw [body_setFlagStatus hi, body_setFlagStatus hi]
  all_goals exact absurd ⟨hrefused, not_not.mp hstatus, by omega⟩ htakes

theorem bmSendMsg_takes (htakes : c.takes L protect mem) :
    c.msgId < msgIdBottom ∧
      WrittenBody L mem (bmSendMsg L protect mem c).1 c.msgId ∧
      ((memoryIsOverlap (L.msgBuf c.msgId) c.buf c.bufLen ∧
          (bmSendMsg L protect mem c).2 = bmFail ∧
          ∀ i < msgBodyLen, body L (bmSendMsg L protect mem c).1 c.msgId i = 0) ∨
        (¬ memoryIsOverlap (L.msgBuf c.msgId) c.buf c.bufLen ∧
          (bmSendMsg L protect mem c).2 = bmOk ∧
          ∀ i < msgBodyLen, body L (bmSendMsg L protect mem c).1 c.msgId i =
            if i < c.bufLen then setFlagStatus L mem c.msgId msgStatusUsing (c.buf + i)
            else body L mem c.msgId i)) := by
  obtain ⟨hvalid, hfree, hlen⟩ := htakes
  have hid : c.msgId < msgIdBottom ∧ c.buf ≠ 0 := by
    unfold SendArgs.refused at hvalid
    omega
  have hdest : L.msgBuf c.msgId ≠ 0 := by
    rw [L.msgBuf_eq]
    omega
  have hcall : bmSendMsg L protect mem c =
      (setFlagStatus L ((memcpyS (L.msgBuf c.msgId) msgBodyLen c.buf c.bufLen).run
        (setFlagStatus L mem c.msgId msgStatusUsing) (L.msgBuf c.msgId) c.buf) c.msgId
        msgStatusFree,
      if (memcpyS (L.msgBuf c.msgId) msgBodyLen c.buf c.bufLen).ret ≠ 0 then bmFail else bmOk) := by
    unfold bmSendMsg
    simp only [if_neg hvalid, hfree, ne_eq, not_true_eq_false, if_false, if_neg (not_lt.mpr hlen)]
    split <;> rfl
  rw [hcall]
  refine ⟨hid.1, ?_⟩
  rcases memcpyS_fits (m := setFlagStatus L mem c.msgId msgStatusUsing) hdest hid.2 hlen
      (by decide) (by decide) with ⟨hover, hplan⟩ | ⟨hover, hret, hrun⟩
  · rw [hplan]
    refine ⟨writtenBody_of_moved hfree fun x hx => Mem.fill_outside hx,
      Or.inl ⟨hover, rfl, fun i hi => ?_⟩⟩
    rw [body_setFlagStatus hi]
    have hi : i < 256 := hi
    exact if_pos ⟨Nat.le_add_right _ _, Nat.add_lt_add_left hi _⟩
  · refine ⟨writtenBody_of_moved hfree fun x hx => ?_, Or.inr ⟨hover, ?_, fun i hi => ?_⟩⟩
    · rw [hrun, if_neg (by omega)]
    · rw [hret]
      rfl
    · rw [body_setFlagStatus hi]
      refine (hrun _).trans ?_
      have hsame : (L.msgBuf c.msgId ≤ L.msgBuf c.msgId + i ∧
          L.msgBuf c.msgId + i < L.msgBuf c.msgId + c.bufLen) ↔ i < c.bufLen := by omega
      rw [Nat.add_sub_cancel_left]
      simp only [hsame]
      split
      · rfl
      · exact body_setFlagStatus hi

theorem bmHwiTrigger_raises (hcpu : cpu < bmMaxCoreNum) :
    (bmHwiTrigger enabled (fun _ => false) ipiIntNo (0 ||| 1 <<< cpu)).2 cpu = enabled := by
  have hcpu : cpu < 4 := hcpu
  interval_cases cpu <;> cases enabled <;> decide

/-- A failed call has changed nothing and a successful one has raised the interrupt, if
and only if the call is harmless. -/
theorem bmSendMsgWithIpi_expected_iff (L : Layout) (protect enabled : Bool) (mem : Mem)
    (c : SendArgs) :
    (bmSendMsgWithIpi L protect enabled mem c).Expected L mem c ↔
      c.Harmless L protect enabled mem := by
  have hne : bmFail ≠ bmOk := by decide
  by_cases htakes : c.takes L protect mem
  · obtain ⟨hid, hwritten, ⟨hover, hret, hzero⟩ | ⟨hover, hret, hmoved⟩⟩ :=
      bmSendMsg_takes htakes
    · have hcall : bmSendMsgWithIpi L protect enabled mem c =
          ⟨(bmSendMsg L protect mem c).1, fun _ => false, bmFail⟩ := by
        unfold bmSendMsgWithIpi
        simp only [hret, ne_eq, hne, not_false_eq_true, if_true]
      rw [hcall]
      constructor
      · intro hexp _
        rw [if_pos hover]
        intro i hi
        exact ((hexp.failed rfl).1.bodies _ hid i hi).symm.trans (hzero i hi)
      · intro hharm
        have hbody := hharm htakes
        rw [if_pos hover] at hbody
        refine ⟨fun _ => ⟨(hwritten.sharedKept_iff hid).mpr ?_, fun _ => rfl⟩,
          fun h => absurd h hne⟩
        intro i hi
        rw [hzero i hi, hbody i hi]
    · by_cases hcpu : c.recvCpu < bmMaxCoreNum
      · have hcall : bmSendMsgWithIpi L protect enabled mem c =
            ⟨setTrigger L (bmSendMsg L protect mem c).1 c.recvCpu c.msgId,
              (bmHwiTrigger enabled (fun _ => false) ipiIntNo (0 ||| 1 <<< c.recvCpu)).2,
              bmOk⟩ := by
          unfold bmSendMsgWithIpi
          simp only [hret, ne_eq, not_true_eq_false, if_false, if_neg (not_le.mpr hcpu)]
        rw [hcall]
        constructor
        · intro hexp _
          rw [if_neg hover, if_pos hcpu]
          exact (bmHwiTrigger_raises hcpu).symm.trans (hexp.sent rfl)
        · intro hharm
          have hon := hharm htakes
          rw [if_neg hover, if_pos hcpu] at hon
          exact ⟨fun h => absurd h.symm hne, fun _ => (bmHwiTrigger_raises hcpu).trans hon⟩
      · -- the mailbox is written by now, and the target turns out to be no core
        have hcall : bmSendMsgWithIpi L protect enabled mem c =
            ⟨(bmSendMsg L protect mem c).1, fun _ => false, bmFail⟩ := by
          unfold bmSendMsgWithIpi
          simp only [hret, ne_eq, not_true_eq_false, if_false, if_pos (not_lt.mp hcpu)]
        rw [hcall]
        have hlen : c.bufLen ≤ msgBodyLen := htakes.2.2
        constructor
        · intro hexp _
          rw [if_neg hover, if_neg hcpu]
          intro i hi
          have hkept := (hexp.failed rfl).1.bodies _ hid i (by omega)
          rwa [hmoved i (by omega), if_pos hi] at hkept
        · intro hharm
          have hsame := hharm htakes
          rw [if_neg hover, if_neg hcpu] at hsame
          refine ⟨fun _ => ⟨(hwritten.sharedKept_iff hid).mpr ?_, fun _ => rfl⟩,
            fun h => absurd h hne⟩
          intro i hi
          rw [hmoved i hi]
          split
          next hin => exact hsame i hin
          next => rfl
  · obtain ⟨hret, hkept⟩ := bmSendMsg_refuses htakes
    have hcall : bmSendMsgWithIpi L protect enabled mem c =
        ⟨(bmSendMsg L protect mem c).1, fun _ => false, bmFail⟩ := by
      unfold bmSendMsgWithIpi
      simp only [hret, ne_eq, hne, not_false_eq_true, if_true]
    rw [hcall]
    exact ⟨fun _ h => absurd h htakes,
      fun _ => ⟨fun _ => ⟨hkept, fun _ => rfl⟩, fun h => absurd h hne⟩⟩

def letterReady : Mem :=
  Function.update (bmMsgInit layout0 fun _ => 0) 0x90000010 1

def toNoCore : SendArgs :=
  ⟨0, 4, 1, 0x90000010, 1⟩

/-- The call fails and leaves the message in the mailbox. -/
theorem failedSend_writes :
    ¬ (bmSendMsgWithIpi layout0 true true letterReady toNoCore).Expected layout0 letterReady
      toNoCore := by
  intro hexp
  have hfail : (bmSendMsgWithIpi layout0 true true letterReady toNoCore).ret = bmFail := by
    decide +kernel
  have hkept := (hexp.failed hfail).1.bodies 1 (by decide) 0 (by decide)
  have hwritten : body layout0 (bmSendMsgWithIpi layout0 true true letterReady toNoCore).mem 1 0 ≠
      body layout0 letterReady 1 0 := by
    decide +kernel
  exact hwritten hkept

end HiMpu.Message
