import Mathlib.Tactic

/-!
# Partitions of the eMMC

`hi_mci_send_cmd`, `hi_mci_mmc_switch`, `hi_mci_tmp_write_protect` and
`hi_mci_gpp_write_protect` of `drivers/sdio/himci.c`, and `mmc_ioctl_erase`.  What the
controller and the card make of the commands is a sequence of answers, one for each command
sent since the call began.
-/

namespace HiMpu.HimciSwitch

def einval : ℤ := 22
def eio : ℤ := 5
def eagain : ℤ := 11
def eilseq : ℤ := 84
def etimedout : ℤ := 110

def mmcSwitch : ℕ := 6
def mmcSendStatus : ℕ := 13
def mmcSetWriteProt : ℕ := 28
def mmcClrWriteProt : ℕ := 29
def mmcSwitchModeWriteByte : BitVec 32 := 3

def mmcStatusMask : BitVec 32 := ~~~0x0206BF7F
def mmcStatusRdyForData : BitVec 32 := 1 <<< 8
def mmcStatusCurrState : BitVec 32 := 0xf <<< 9
def mmcStatePrg : BitVec 32 := 7 <<< 9

def emmcSendCmdRetryCount : ℕ := 10000
def gpp0AreaIndex : BitVec 8 := 4
def emmcAreaMaxNum : BitVec 8 := 7

def extCsdGpSizeMult : ℕ := 143
def extCsdPartConfig : BitVec 8 := 179
def extCsdHcWpGrpSize : ℕ := 221
def extCsdHcEraseGrpSize : ℕ := 224

structure MmcCommand where
  opcode : ℕ
  arg : BitVec 32
  resp : BitVec 32
  error : ℤ

def command (opcode : ℕ) (arg : BitVec 32) : MmcCommand := ⟨opcode, arg, 0, 0⟩

structure Answer where
  exec : ℤ
  completes : Bool
  rto : Bool
  re : Bool
  rcrc : Bool
  resp : BitVec 32
  taken : Bool

structure Sent where
  opcode : ℕ
  arg : BitVec 32
  deriving DecidableEq

structure Card where
  partConfig : BitVec 8
  sent : List Sent

def Card.receive (c : Card) (cmd : MmcCommand) (a : Answer) : Card where
  partConfig :=
    if a.taken = true ∧ cmd.opcode = mmcSwitch ∧ cmd.arg.extractLsb' 16 8 = extCsdPartConfig then
      cmd.arg.extractLsb' 8 8
    else c.partConfig
  sent := c.sent ++ [⟨cmd.opcode, cmd.arg⟩]

def hiMciCmdDone (cmd : MmcCommand) (a : Answer) : MmcCommand :=
  let cmd := { cmd with resp := a.resp }
  let cmd := if a.rto then { cmd with error := -etimedout } else cmd
  let cmd := if a.re then { cmd with error := -eilseq } else cmd
  if a.rcrc then { cmd with error := -eilseq } else cmd

def hiMciWaitCmdComplete (cmd : MmcCommand) (a : Answer) : ℤ × MmcCommand :=
  if a.completes then (0, hiMciCmdDone cmd a)
  else (-etimedout, { cmd with error := -etimedout })

def hiMciSendCmd (answers : ℕ → Answer) (cmd : MmcCommand) (c : Card) : ℤ × MmcCommand × Card :=
  let a := answers c.sent.length
  let c := c.receive cmd a
  if a.exec ≠ 0 then (a.exec, { cmd with error := a.exec }, c)
  else
    let (ret, cmd) := hiMciWaitCmdComplete cmd a
    (ret, cmd, c)

inductive Poll
  | failed (ret : ℤ)
  | ready
  | again

def poll (answers : ℕ → Answer) (cmd : MmcCommand) (c : Card) : Poll × MmcCommand × Card :=
  let (ret, cmd, c) := hiMciSendCmd answers cmd c
  if ret ≠ 0 then (.failed ret, cmd, c)
  else if cmd.resp &&& mmcStatusRdyForData ≠ 0 ∧ cmd.resp &&& mmcStatusCurrState ≠ mmcStatePrg then
    (.ready, cmd, c)
  else if cmd.resp &&& mmcStatusMask ≠ 0 then (.failed (-eio), cmd, c)
  else (.again, cmd, c)

def protectLoop (answers : ℕ → Answer) : ℕ → MmcCommand → Card → Option ℤ × ℕ × Card
  | 0, _, c => (none, 0, c)
  | retryCount + 1, cmd, c =>
    match poll answers cmd c with
    | (.failed ret, _, c) => (some ret, retryCount + 1, c)
    | (.ready, _, c) => (none, retryCount + 1, c)
    | (.again, cmd, c) => protectLoop answers retryCount cmd c

def switchLoop (answers : ℕ → Answer) : ℕ → MmcCommand → Card → Option ℤ × ℕ × Card
  | 0, cmd, c =>
    match poll answers cmd c with
    | (.failed ret, _, c) => (some ret, 0, c)
    | (.ready, _, c) => (none, 0, c)
    | (.again, _, c) => (none, 2 ^ 32 - 1, c)
  | retryCount + 1, cmd, c =>
    match poll answers cmd c with
    | (.failed ret, _, c) => (some ret, retryCount + 1, c)
    | (.ready, _, c) => (none, retryCount + 1, c)
    | (.again, cmd, c) => switchLoop answers retryCount cmd c

def sendAndPoll (loop : ℕ → MmcCommand → Card → Option ℤ × ℕ × Card) (answers : ℕ → Answer)
    (rca : BitVec 32) (cmd : MmcCommand) (c : Card) : ℤ × Card :=
  let (ret, _, c) := hiMciSendCmd answers cmd c
  if ret ≠ 0 then (ret, c)
  else
    match loop emmcSendCmdRetryCount (command mmcSendStatus (rca <<< 16)) c with
    | (some ret, _, c) => (ret, c)
    | (none, retryCount, c) => if retryCount = 0 then (-etimedout, c) else (0, c)

def hiMciTmpWriteProtect (answers : ℕ → Answer) (rca : BitVec 32) (enable : BitVec 8)
    (addr : BitVec 32) (c : Card) : ℤ × Card :=
  let opcode := if enable ≠ 0 then mmcSetWriteProt else mmcClrWriteProt
  sendAndPoll (protectLoop answers) answers rca (command opcode addr) c

def switchArg (index value : BitVec 8) : BitVec 32 :=
  mmcSwitchModeWriteByte <<< 24 ||| index.setWidth 32 <<< 16 ||| value.setWidth 32 <<< 8

def hiMciMmcSwitch (answers : ℕ → Answer) (rca : BitVec 32) (index value : BitVec 8) (c : Card) :
    ℤ × Card :=
  sendAndPoll (switchLoop answers) answers rca (command mmcSwitch (switchArg index value)) c

def wpGpCount (extCsd : ℕ → BitVec 8) (areaIndex : BitVec 8) : ℕ :=
  let gppIndex := (areaIndex - gpp0AreaIndex).toNat
  (extCsd (extCsdGpSizeMult + 0 + 3 * gppIndex)).toNat +
    (extCsd (extCsdGpSizeMult + 1 + 3 * gppIndex)).toNat <<< 8 +
    (extCsd (extCsdGpSizeMult + 2 + 3 * gppIndex)).toNat <<< 16

def wpGpSize (extCsd : ℕ → BitVec 8) : ℕ :=
  1024 * (extCsd extCsdHcWpGrpSize).toNat * (extCsd extCsdHcEraseGrpSize).toNat

def protectGroups (answers : ℕ → Answer) (rca : BitVec 32) (type : BitVec 8) (size : ℕ) :
    ℕ → ℕ → Card → ℤ × Card
  | 0, _, c => (0, c)
  | rounds + 1, i, c =>
    let addr := BitVec.ofNat 32 (i * size)
    let (ret, c) := hiMciTmpWriteProtect answers rca type addr c
    if ret ≠ 0 then (ret, c) else protectGroups answers rca type size rounds (i + 1) c

def hiMciWriteProtectSet (answers : ℕ → Answer) (rca : BitVec 32) (type : BitVec 8)
    (extCsd : ℕ → BitVec 8) (areaIndex : BitVec 8) (c : Card) : ℤ × Card :=
  let currentArea := extCsd extCsdPartConfig.toNat
  let (ret, c) := hiMciMmcSwitch answers rca extCsdPartConfig areaIndex c
  if ret ≠ 0 then (ret, c)
  else
    let (ret, c) :=
      protectGroups answers rca type (wpGpSize extCsd) (wpGpCount extCsd areaIndex) 0 c
    if ret ≠ 0 then (ret, c)
    else hiMciMmcSwitch answers rca extCsdPartConfig currentArea c

structure ProtectCall where
  type : BitVec 8
  areaIndex : BitVec 8
  getExtCsd : ℤ
  extCsd : ℕ → BitVec 8
  getHwLock : ℤ
  rca : BitVec 32
  answers : ℕ → Answer

def hiMciGppWriteProtect (call : ProtectCall) (c : Card) : ℤ × Card :=
  if call.areaIndex > emmcAreaMaxNum ∨ call.areaIndex < gpp0AreaIndex then (-einval, c)
  else if call.getExtCsd ≠ 0 then (call.getExtCsd, c)
  else if call.getHwLock ≠ 0 then (call.getHwLock, c)
  else hiMciWriteProtectSet call.answers call.rca call.type call.extCsd call.areaIndex c

structure KernelSwitch where
  ret : ℤ
  taken : Bool

structure EraseCall where
  copyFails : Bool
  canErase : Bool
  getExtCsd : ℤ
  extCsd : ℕ → BitVec 8
  toUser : KernelSwitch
  erase : ℤ
  back : KernelSwitch

/-- What an erase returns, the partition it leaves, and the switches it has asked for. -/
structure Erased where
  ret : ℤ
  partConfig : BitVec 8
  switches : List (BitVec 8 × KernelSwitch)

def kernelSwitch (partConfig value : BitVec 8) (s : KernelSwitch) : BitVec 8 :=
  if s.taken then value else partConfig

def mmcIoctlErase (call : EraseCall) (partConfig : BitVec 8) : Erased :=
  if call.copyFails then ⟨-eagain, partConfig, []⟩
  else if !call.canErase then ⟨-eagain, partConfig, []⟩
  else if call.getExtCsd ≠ 0 then ⟨call.getExtCsd, partConfig, []⟩
  else
    let curArea := call.extCsd extCsdPartConfig.toNat
    let partConfig := kernelSwitch partConfig 0 call.toUser
    if call.toUser.ret ≠ 0 then ⟨call.toUser.ret, partConfig, [(0, call.toUser)]⟩
    else if call.erase ≠ 0 then ⟨call.erase, partConfig, [(0, call.toUser)]⟩
    else
      ⟨call.back.ret, kernelSwitch partConfig curArea call.back,
        [(0, call.toUser), (curArea, call.back)]⟩

def Answered (a : Answer) : Prop := a.exec = 0 ∧ a.completes = true

structure Clean (a : Answer) : Prop where
  answered : Answered a
  rto : a.rto = false
  re : a.re = false
  rcrc : a.rcrc = false

structure Ready (a : Answer) : Prop where
  answered : Answered a
  rdyForData : a.resp &&& mmcStatusRdyForData ≠ 0
  currState : a.resp &&& mmcStatusCurrState ≠ mmcStatePrg

structure Busy (a : Answer) : Prop where
  answered : Answered a
  notReady : ¬ Ready a
  noError : a.resp &&& mmcStatusMask = 0

def BusyUntil (answers : ℕ → Answer) (k j : ℕ) : Prop := ∀ i < j, Busy (answers (k + i))

def ProtectPasses (answers : ℕ → Answer) (k next : ℕ) : Prop :=
  Answered (answers k) ∧ ∃ j < emmcSendCmdRetryCount, BusyUntil answers (k + 1) j ∧
    Ready (answers (k + 1 + j)) ∧ next = k + j + 2

def SwitchPasses (answers : ℕ → Answer) (k next : ℕ) : Prop :=
  ProtectPasses answers k next ∨
    Answered (answers k) ∧ BusyUntil answers (k + 1) (emmcSendCmdRetryCount + 1) ∧
      next = k + emmcSendCmdRetryCount + 2

def GroupsPass (answers : ℕ → Answer) : ℕ → ℕ → ℕ → Prop
  | 0, k, next => next = k
  | groups + 1, k, next =>
    ∃ m, ProtectPasses answers k m ∧ GroupsPass answers groups m next

def Confirmed (answers : ℕ → Answer) (k sent : ℕ) : Prop :=
  Clean (answers k) ∧ ∃ j ≤ emmcSendCmdRetryCount, k + 1 + j < sent ∧
    Clean (answers (k + 1 + j)) ∧ Ready (answers (k + 1 + j))

/-- The polls end, and not by a response that comes too late or with an error. -/
def SwitchAllowed (answers : ℕ → Answer) (k : ℕ) : Prop :=
  Answered (answers k) → ∃ j ≤ emmcSendCmdRetryCount, BusyUntil answers (k + 1) j ∧
    ¬ Busy (answers (k + 1 + j)) ∧
    (Ready (answers (k + 1 + j)) →
      (j < emmcSendCmdRetryCount ↔ Clean (answers k) ∧ Clean (answers (k + 1 + j))))

def isProtect (s : Sent) : Bool := s.opcode = mmcSetWriteProt ∨ s.opcode = mmcClrWriteProt

def protectOpcode (type : BitVec 8) : ℕ := if type ≠ 0 then mmcSetWriteProt else mmcClrWriteProt

def ProtectCall.before (call : ProtectCall) : BitVec 8 := call.extCsd extCsdPartConfig.toNat

def ProtectCall.run (call : ProtectCall) : ℤ × Card :=
  hiMciGppWriteProtect call ⟨call.before, []⟩

def ProtectCall.count (call : ProtectCall) : ℕ := wpGpCount call.extCsd call.areaIndex

def ProtectCall.size (call : ProtectCall) : ℕ := wpGpSize call.extCsd

structure ProtectCall.Starts (call : ProtectCall) : Prop where
  area : gpp0AreaIndex ≤ call.areaIndex ∧ call.areaIndex ≤ emmcAreaMaxNum
  getExtCsd : call.getExtCsd = 0
  getHwLock : call.getHwLock = 0

def ProtectCall.Goes (call : ProtectCall) (next : ℕ) : Prop :=
  ∃ k, SwitchPasses call.answers 0 k ∧ GroupsPass call.answers call.count k next

def ProtectUndone (call : ProtectCall) : Prop :=
  call.run.2.partConfig = call.before ∨
    ∃ k, call.run.2.sent[k]? = some ⟨mmcSwitch, switchArg extCsdPartConfig call.before⟩ ∧
      (call.answers k).taken = false

def ProtectComplete (call : ProtectCall) : Prop :=
  call.run.1 = 0 →
    (call.run.2.sent.filter isProtect).map (fun s => (s.opcode, s.arg.toNat)) =
      (List.range call.count).map fun i => (protectOpcode call.type, i * call.size)

def EraseCall.before (call : EraseCall) : BitVec 8 := call.extCsd extCsdPartConfig.toNat

def EraseUndone (call : EraseCall) : Prop :=
  (mmcIoctlErase call call.before).partConfig = call.before ∨
    ∃ s ∈ (mmcIoctlErase call call.before).switches, s.1 = call.before ∧ s.2.taken = false

structure EraseCall.Starts (call : EraseCall) : Prop where
  copyFails : call.copyFails = false
  canErase : call.canErase = true
  getExtCsd : call.getExtCsd = 0

section Polling

variable {answers : ℕ → Answer} {cmd : MmcCommand} {c : Card}

theorem hiMciCmdDone_resp (cmd : MmcCommand) (a : Answer) :
    (hiMciCmdDone cmd a).opcode = cmd.opcode ∧ (hiMciCmdDone cmd a).arg = cmd.arg ∧
      (hiMciCmdDone cmd a).resp = a.resp := by
  unfold hiMciCmdDone
  simp only
  split <;> split <;> split <;> exact ⟨rfl, rfl, rfl⟩

theorem hiMciSendCmd_card :
    (hiMciSendCmd answers cmd c).2.2 = c.receive cmd (answers c.sent.length) := by
  unfold hiMciSendCmd
  simp only
  split <;> rfl

theorem hiMciSendCmd_ret (cmd : MmcCommand) :
    (hiMciSendCmd answers cmd c).1 = 0 ↔ Answered (answers c.sent.length) := by
  unfold hiMciSendCmd hiMciWaitCmdComplete Answered
  by_cases hexec : (answers c.sent.length).exec = 0
  · by_cases hcompletes : (answers c.sent.length).completes = true
    · simp [hexec, hcompletes]
    · simp [hexec, hcompletes, etimedout]
  · simp [hexec]

theorem hiMciSendCmd_answered (h : Answered (answers c.sent.length)) :
    hiMciSendCmd answers cmd c =
      (0, hiMciCmdDone cmd (answers c.sent.length), c.receive cmd (answers c.sent.length)) := by
  unfold hiMciSendCmd hiMciWaitCmdComplete
  simp [h.1, h.2]

theorem receive_other {a : Answer} (h : cmd.opcode ≠ mmcSwitch) :
    c.receive cmd a = ⟨c.partConfig, c.sent ++ [⟨cmd.opcode, cmd.arg⟩]⟩ := by
  unfold Card.receive
  rw [if_neg fun hcmd => h hcmd.2.1]

theorem poll_ready (cmd : MmcCommand) (h : Ready (answers c.sent.length)) :
    ∃ cmd', poll answers cmd c = (.ready, cmd', c.receive cmd (answers c.sent.length)) := by
  have hresp := (hiMciCmdDone_resp cmd (answers c.sent.length)).2.2
  unfold poll
  rw [hiMciSendCmd_answered h.answered]
  have hbits : (answers c.sent.length).resp &&& mmcStatusRdyForData ≠ 0 ∧
      (answers c.sent.length).resp &&& mmcStatusCurrState ≠ mmcStatePrg :=
    ⟨h.rdyForData, h.currState⟩
  simp only [hresp, if_pos hbits, ne_eq, not_true_eq_false, if_false]
  exact ⟨_, rfl⟩

theorem poll_busy (h : Busy (answers c.sent.length)) :
    poll answers cmd c = (.again, hiMciCmdDone cmd (answers c.sent.length),
      c.receive cmd (answers c.sent.length)) := by
  have hresp := (hiMciCmdDone_resp cmd (answers c.sent.length)).2.2
  have hnot : ¬ ((answers c.sent.length).resp &&& mmcStatusRdyForData ≠ 0 ∧
      (answers c.sent.length).resp &&& mmcStatusCurrState ≠ mmcStatePrg) :=
    fun hbits => h.notReady ⟨h.answered, hbits.1, hbits.2⟩
  unfold poll
  rw [hiMciSendCmd_answered h.answered]
  simp only [hresp, if_neg hnot, h.noError, ne_eq, not_true_eq_false, if_false]

theorem poll_refused (cmd : MmcCommand) (hready : ¬ Ready (answers c.sent.length))
    (hbusy : ¬ Busy (answers c.sent.length)) :
    ∃ ret cmd', ret ≠ 0 ∧
      poll answers cmd c = (.failed ret, cmd', c.receive cmd (answers c.sent.length)) := by
  by_cases hanswered : Answered (answers c.sent.length)
  · have hresp := (hiMciCmdDone_resp cmd (answers c.sent.length)).2.2
    have hnot : ¬ ((answers c.sent.length).resp &&& mmcStatusRdyForData ≠ 0 ∧
        (answers c.sent.length).resp &&& mmcStatusCurrState ≠ mmcStatePrg) :=
      fun hbits => hready ⟨hanswered, hbits.1, hbits.2⟩
    have herror : (answers c.sent.length).resp &&& mmcStatusMask ≠ 0 :=
      fun hzero => hbusy ⟨hanswered, hready, hzero⟩
    unfold poll
    rw [hiMciSendCmd_answered hanswered]
    simp only [hresp, if_neg hnot, if_pos herror, ne_eq, not_true_eq_false, if_false]
    exact ⟨-eio, _, by decide, rfl⟩
  · have hret : (hiMciSendCmd answers cmd c).1 ≠ 0 := fun hzero =>
      hanswered ((hiMciSendCmd_ret cmd).mp hzero)
    refine ⟨(hiMciSendCmd answers cmd c).1, (hiMciSendCmd answers cmd c).2.1, hret, ?_⟩
    unfold poll
    simp only [if_pos hret, hiMciSendCmd_card]

def Card.polled (c : Card) (arg : BitVec 32) (polls : ℕ) : Card :=
  ⟨c.partConfig, c.sent ++ List.replicate polls ⟨mmcSendStatus, arg⟩⟩

theorem length_polled (arg : BitVec 32) (polls : ℕ) :
    (c.polled arg polls).sent.length = c.sent.length + polls := by
  simp [Card.polled]

theorem polled_zero (arg : BitVec 32) : c.polled arg 0 = c := by
  simp [Card.polled]

theorem receive_polled {arg : BitVec 32} {polls : ℕ} {a : Answer}
    (hcmd : cmd.opcode = mmcSendStatus) (harg : cmd.arg = arg) :
    (c.polled arg polls).receive cmd a = c.polled arg (polls + 1) := by
  have hother : cmd.opcode ≠ mmcSwitch := by
    rw [hcmd]
    decide
  rw [receive_other hother, hcmd, harg]
  simp [Card.polled, List.replicate_succ']

theorem busyUntil_or (answers : ℕ → Answer) (k n : ℕ) :
    BusyUntil answers k n ∨ ∃ j < n, BusyUntil answers k j ∧ ¬ Busy (answers (k + j)) := by
  induction n with
  | zero => exact Or.inl fun i hi => absurd hi (Nat.not_lt_zero i)
  | succ n ih =>
    rcases ih with hall | ⟨j, hj, hbusy, hstop⟩
    · by_cases hlast : Busy (answers (k + n))
      · left
        intro i hi
        rcases Nat.lt_succ_iff_lt_or_eq.mp hi with hlt | rfl
        · exact hall i hlt
        · exact hlast
      · exact Or.inr ⟨n, Nat.lt_succ_self n, hall, hlast⟩
    · exact Or.inr ⟨j, hj.trans (Nat.lt_succ_self n), hbusy, hstop⟩

theorem busyUntil_unique {k i j : ℕ} (hi : BusyUntil answers k i) (hj : BusyUntil answers k j)
    (hi' : ¬ Busy (answers (k + i))) (hj' : ¬ Busy (answers (k + j))) : i = j := by
  rcases Nat.lt_trichotomy i j with h | h | h
  · exact absurd (hj i h) hi'
  · exact h
  · exact absurd (hi j h) hj'

theorem loop_busy {α : Type} (loop : ℕ → MmcCommand → Card → α) {n j : ℕ}
    (hstep : ∀ n cmd c, Busy (answers c.sent.length) →
      loop (n + 1) cmd c = loop n (hiMciCmdDone cmd (answers c.sent.length))
        (c.receive cmd (answers c.sent.length)))
    (hcmd : cmd.opcode = mmcSendStatus) (hj : j ≤ n) (hbusy : BusyUntil answers c.sent.length j) :
    ∃ cmd', cmd'.opcode = mmcSendStatus ∧ cmd'.arg = cmd.arg ∧
      loop n cmd c = loop (n - j) cmd' (c.polled cmd.arg j) := by
  induction j with
  | zero => exact ⟨cmd, hcmd, rfl, by rw [polled_zero, Nat.sub_zero]⟩
  | succ j ih =>
    obtain ⟨cmd', hcmd', harg, hloop⟩ :=
      ih (by omega) fun i hi => hbusy i (hi.trans (Nat.lt_succ_self j))
    have hlast : Busy (answers (c.polled cmd.arg j).sent.length) := by
      rw [length_polled]
      exact hbusy j (Nat.lt_succ_self j)
    obtain ⟨m, hm⟩ : ∃ m, n - j = m + 1 := ⟨n - j - 1, by omega⟩
    have hrest : n - (j + 1) = m := by omega
    obtain ⟨hopcode, harg', _⟩ :=
      hiMciCmdDone_resp cmd' (answers (c.polled cmd.arg j).sent.length)
    refine ⟨_, hopcode.trans hcmd', harg'.trans harg, ?_⟩
    rw [hloop, hm, hstep _ _ _ hlast, hrest, receive_polled hcmd' harg]

theorem loop_stop (loop : ℕ → MmcCommand → Card → Option ℤ × ℕ × Card) {n j : ℕ}
    (hstep : ∀ n cmd c, Busy (answers c.sent.length) →
      loop (n + 1) cmd c = loop n (hiMciCmdDone cmd (answers c.sent.length))
        (c.receive cmd (answers c.sent.length)))
    (hready : ∀ cmd c, Ready (answers c.sent.length) →
      loop (n - j) cmd c = (none, n - j, c.receive cmd (answers c.sent.length)))
    (hrefused : ∀ cmd c, ¬ Ready (answers c.sent.length) → ¬ Busy (answers c.sent.length) →
      ∃ ret ≠ 0, loop (n - j) cmd c = (some ret, n - j, c.receive cmd (answers c.sent.length)))
    (hcmd : cmd.opcode = mmcSendStatus) (hj : j ≤ n) (hbusy : BusyUntil answers c.sent.length j) :
    (Ready (answers (c.sent.length + j)) →
      loop n cmd c = (none, n - j, c.polled cmd.arg (j + 1))) ∧
    (¬ Ready (answers (c.sent.length + j)) → ¬ Busy (answers (c.sent.length + j)) →
      ∃ ret ≠ 0, loop n cmd c = (some ret, n - j, c.polled cmd.arg (j + 1))) := by
  obtain ⟨cmd', hcmd', harg, hloop⟩ := loop_busy loop hstep hcmd hj hbusy
  have hlength : (c.polled cmd.arg j).sent.length = c.sent.length + j := length_polled _ _
  rw [← hlength, hloop]
  constructor
  · intro h
    rw [hready _ _ h, receive_polled hcmd' harg]
  · intro h h'
    obtain ⟨ret, hret, hstop⟩ := hrefused cmd' _ h h'
    rw [receive_polled hcmd' harg] at hstop
    exact ⟨ret, hret, hstop⟩

theorem protectLoop_step (n : ℕ) (cmd : MmcCommand) (c : Card)
    (h : Busy (answers c.sent.length)) :
    protectLoop answers (n + 1) cmd c =
      protectLoop answers n (hiMciCmdDone cmd (answers c.sent.length))
        (c.receive cmd (answers c.sent.length)) := by
  rw [protectLoop, poll_busy h]

theorem switchLoop_step (n : ℕ) (cmd : MmcCommand) (c : Card)
    (h : Busy (answers c.sent.length)) :
    switchLoop answers (n + 1) cmd c =
      switchLoop answers n (hiMciCmdDone cmd (answers c.sent.length))
        (c.receive cmd (answers c.sent.length)) := by
  rw [switchLoop, poll_busy h]

theorem protectLoop_busy {n : ℕ} (hcmd : cmd.opcode = mmcSendStatus)
    (hbusy : BusyUntil answers c.sent.length n) :
    protectLoop answers n cmd c = (none, 0, c.polled cmd.arg n) := by
  obtain ⟨cmd', _, _, hloop⟩ := loop_busy _ protectLoop_step hcmd le_rfl hbusy
  rw [hloop, Nat.sub_self, protectLoop]

theorem switchLoop_busy {n : ℕ} (hcmd : cmd.opcode = mmcSendStatus)
    (hbusy : BusyUntil answers c.sent.length (n + 1)) :
    switchLoop answers n cmd c = (none, 2 ^ 32 - 1, c.polled cmd.arg (n + 1)) := by
  obtain ⟨cmd', hcmd', harg, hloop⟩ := loop_busy _ switchLoop_step hcmd le_rfl
    fun i hi => hbusy i (hi.trans (Nat.lt_succ_self n))
  have hlast : Busy (answers (c.polled cmd.arg n).sent.length) := by
    rw [length_polled]
    exact hbusy n (Nat.lt_succ_self n)
  rw [hloop, Nat.sub_self, switchLoop, poll_busy hlast, receive_polled hcmd' harg]

theorem protectLoop_stop {n j : ℕ} (hcmd : cmd.opcode = mmcSendStatus) (hj : j < n)
    (hbusy : BusyUntil answers c.sent.length j) :
    (Ready (answers (c.sent.length + j)) →
      protectLoop answers n cmd c = (none, n - j, c.polled cmd.arg (j + 1))) ∧
    (¬ Ready (answers (c.sent.length + j)) → ¬ Busy (answers (c.sent.length + j)) →
      ∃ ret ≠ 0, protectLoop answers n cmd c = (some ret, n - j, c.polled cmd.arg (j + 1))) := by
  obtain ⟨m, hm⟩ : ∃ m, n - j = m + 1 := ⟨n - j - 1, by omega⟩
  apply loop_stop _ protectLoop_step _ _ hcmd hj.le hbusy
  · intro cmd c h
    obtain ⟨cmd', hpoll⟩ := poll_ready cmd h
    rw [hm, protectLoop, hpoll]
  · intro cmd c h h'
    obtain ⟨ret, cmd', hret, hpoll⟩ := poll_refused cmd h h'
    refine ⟨ret, hret, ?_⟩
    rw [hm, protectLoop, hpoll]

theorem switchLoop_stop {n j : ℕ} (hcmd : cmd.opcode = mmcSendStatus) (hj : j ≤ n)
    (hbusy : BusyUntil answers c.sent.length j) :
    (Ready (answers (c.sent.length + j)) →
      switchLoop answers n cmd c = (none, n - j, c.polled cmd.arg (j + 1))) ∧
    (¬ Ready (answers (c.sent.length + j)) → ¬ Busy (answers (c.sent.length + j)) →
      ∃ ret ≠ 0, switchLoop answers n cmd c = (some ret, n - j, c.polled cmd.arg (j + 1))) := by
  apply loop_stop _ switchLoop_step _ _ hcmd hj hbusy
  · intro cmd c h
    obtain ⟨cmd', hpoll⟩ := poll_ready cmd h
    cases n - j with
    | zero => rw [switchLoop, hpoll]
    | succ m => rw [switchLoop, hpoll]
  · intro cmd c h h'
    obtain ⟨ret, cmd', hret, hpoll⟩ := poll_refused cmd h h'
    refine ⟨ret, hret, ?_⟩
    cases n - j with
    | zero => rw [switchLoop, hpoll]
    | succ m => rw [switchLoop, hpoll]

theorem protectPasses_iff {k j next : ℕ} (hanswered : Answered (answers k))
    (hbusy : BusyUntil answers (k + 1) j) (hstop : ¬ Busy (answers (k + 1 + j))) :
    ProtectPasses answers k next ↔
      j < emmcSendCmdRetryCount ∧ Ready (answers (k + 1 + j)) ∧ next = k + j + 2 := by
  constructor
  · rintro ⟨_, i, hi, hbusy', hready, hnext⟩
    obtain rfl := busyUntil_unique hbusy' hbusy (fun h => h.notReady hready) hstop
    exact ⟨hi, hready, hnext⟩
  · rintro ⟨hj, hready, hnext⟩
    exact ⟨hanswered, j, hj, hbusy, hready, hnext⟩

theorem not_protectPasses_of_busy {k next : ℕ}
    (hbusy : BusyUntil answers (k + 1) emmcSendCmdRetryCount) :
    ¬ ProtectPasses answers k next := by
  rintro ⟨_, j, hj, _, hready, _⟩
  exact (hbusy j hj).notReady hready

section SendAndPoll

variable {loop : ℕ → MmcCommand → Card → Option ℤ × ℕ × Card} {rca : BitVec 32} {c' : Card}

theorem sendAndPoll_unanswered (h : ¬ Answered (answers c.sent.length)) :
    (sendAndPoll loop answers rca cmd c).1 ≠ 0 ∧
      (sendAndPoll loop answers rca cmd c).2 = c.receive cmd (answers c.sent.length) := by
  have hret : (hiMciSendCmd answers cmd c).1 ≠ 0 := fun hzero => h ((hiMciSendCmd_ret cmd).mp hzero)
  unfold sendAndPoll
  simp only [if_pos hret, hiMciSendCmd_card]
  exact ⟨hret, trivial⟩

theorem sendAndPoll_failed {ret : ℤ} {retryCount : ℕ} (h : Answered (answers c.sent.length))
    (hloop : loop emmcSendCmdRetryCount (command mmcSendStatus (rca <<< 16))
      (c.receive cmd (answers c.sent.length)) = (some ret, retryCount, c')) :
    sendAndPoll loop answers rca cmd c = (ret, c') := by
  unfold sendAndPoll
  rw [hiMciSendCmd_answered h]
  simp only [ne_eq, not_true_eq_false, if_false]
  rw [hloop]

theorem sendAndPoll_counted {retryCount : ℕ} (h : Answered (answers c.sent.length))
    (hloop : loop emmcSendCmdRetryCount (command mmcSendStatus (rca <<< 16))
      (c.receive cmd (answers c.sent.length)) = (none, retryCount, c')) :
    sendAndPoll loop answers rca cmd c =
      if retryCount = 0 then (-etimedout, c') else (0, c') := by
  unfold sendAndPoll
  rw [hiMciSendCmd_answered h]
  simp only [ne_eq, not_true_eq_false, if_false]
  rw [hloop]

end SendAndPoll

theorem protectOpcode_ne (type : BitVec 8) : protectOpcode type ≠ mmcSwitch := by
  unfold protectOpcode
  split <;> exact Nat.ne_of_beq_eq_false rfl

theorem hiMciTmpWriteProtect_spec (rca : BitVec 32) (type : BitVec 8) (addr : BitVec 32) :
    (∀ next, ProtectPasses answers c.sent.length next ↔
      (hiMciTmpWriteProtect answers rca type addr c).1 = 0 ∧
        (hiMciTmpWriteProtect answers rca type addr c).2.sent.length = next) ∧
    ∃ polls, (hiMciTmpWriteProtect answers rca type addr c).2 =
      (⟨c.partConfig, c.sent ++ [⟨protectOpcode type, addr⟩]⟩ : Card).polled (rca <<< 16)
        polls := by
  have hreceive : c.receive (command (protectOpcode type) addr) (answers c.sent.length) =
      ⟨c.partConfig, c.sent ++ [⟨protectOpcode type, addr⟩]⟩ :=
    receive_other (protectOpcode_ne type)
  have hsend : hiMciTmpWriteProtect answers rca type addr c = sendAndPoll (protectLoop answers)
      answers rca (command (protectOpcode type) addr) c := rfl
  rw [← hreceive, hsend]
  generalize hc : c.receive (command (protectOpcode type) addr) (answers c.sent.length) = c'
  have hlength : c'.sent.length = c.sent.length + 1 := by simp [← hc, Card.receive]
  have hstatus : (command mmcSendStatus (rca <<< 16)).opcode = mmcSendStatus := rfl
  by_cases hanswered : Answered (answers c.sent.length)
  · rcases busyUntil_or answers (c.sent.length + 1) emmcSendCmdRetryCount with
      hbusy | ⟨j, hj, hbusy, hstop⟩
    · have hnone := fun next => @not_protectPasses_of_busy answers _ next hbusy
      rw [← hlength] at hbusy
      have hloop := protectLoop_busy hstatus hbusy
      rw [← hc] at hloop
      rw [sendAndPoll_counted hanswered hloop, hc]
      constructor
      · intro next
        simp [hnone next, etimedout]
      · exact ⟨_, rfl⟩
    · have hpasses := fun next => @protectPasses_iff answers _ _ next hanswered hbusy hstop
      rw [← hlength] at hbusy hstop
      obtain ⟨hready, hrefused⟩ := protectLoop_stop hstatus hj hbusy
      by_cases h : Ready (answers (c'.sent.length + j))
      · have hloop := hready h
        have hcount : emmcSendCmdRetryCount - j ≠ 0 := by omega
        rw [← hc] at hloop
        rw [sendAndPoll_counted hanswered hloop, if_neg hcount, hc]
        constructor
        · intro next
          rw [hpasses, ← hlength]
          simp only [hj, h, true_and, length_polled]
          omega
        · exact ⟨_, rfl⟩
      · obtain ⟨ret, hret, hloop⟩ := hrefused h hstop
        rw [← hc] at hloop
        rw [sendAndPoll_failed hanswered hloop, hc]
        constructor
        · intro next
          rw [hpasses, ← hlength]
          simp [h, hret]
        · exact ⟨_, rfl⟩
  · obtain ⟨hret, hcard⟩ := sendAndPoll_unanswered hanswered
    constructor
    · intro next
      constructor
      · intro h
        exact absurd h.1 hanswered
      · intro h
        exact absurd h.1 hret
    · exact ⟨0, by rw [hcard, hc, polled_zero]⟩

inductive PollsMade (answers : ℕ → Answer) (k : ℕ) : ℕ → Prop
  | unanswered : ¬ Answered (answers k) → PollsMade answers k 0
  | stopped (j : ℕ) : Answered (answers k) → j ≤ emmcSendCmdRetryCount →
      BusyUntil answers (k + 1) j → ¬ Busy (answers (k + 1 + j)) → PollsMade answers k (j + 1)
  | exhausted : Answered (answers k) → BusyUntil answers (k + 1) (emmcSendCmdRetryCount + 1) →
      PollsMade answers k (emmcSendCmdRetryCount + 1)

theorem hiMciMmcSwitch_spec (rca : BitVec 32) (index value : BitVec 8) :
    (∀ next, SwitchPasses answers c.sent.length next ↔
      (hiMciMmcSwitch answers rca index value c).1 = 0 ∧
        (hiMciMmcSwitch answers rca index value c).2.sent.length = next) ∧
    ∃ polls, PollsMade answers c.sent.length polls ∧
      (hiMciMmcSwitch answers rca index value c).2 =
      (c.receive (command mmcSwitch (switchArg index value)) (answers c.sent.length)).polled
        (rca <<< 16) polls := by
  have hsend : hiMciMmcSwitch answers rca index value c = sendAndPoll (switchLoop answers)
      answers rca (command mmcSwitch (switchArg index value)) c := rfl
  rw [hsend]
  generalize hc : c.receive (command mmcSwitch (switchArg index value))
    (answers c.sent.length) = c'
  have hlength : c'.sent.length = c.sent.length + 1 := by simp [← hc, Card.receive]
  have hstatus : (command mmcSendStatus (rca <<< 16)).opcode = mmcSendStatus := rfl
  by_cases hanswered : Answered (answers c.sent.length)
  · rcases busyUntil_or answers (c.sent.length + 1) (emmcSendCmdRetryCount + 1) with
      hbusy | ⟨j, hj, hbusy, hstop⟩
    · have hnone := fun next => @not_protectPasses_of_busy answers _ next
        fun i hi => hbusy i (hi.trans (Nat.lt_succ_self _))
      have hbusy' := hbusy
      rw [← hlength] at hbusy
      have hloop := switchLoop_busy hstatus hbusy
      rw [← hc] at hloop
      have hcount : ¬ 2 ^ 32 - 1 = 0 := by norm_num
      rw [sendAndPoll_counted hanswered hloop, hc, if_neg hcount]
      constructor
      · intro next
        unfold SwitchPasses
        simp only [hnone next, hanswered, hbusy', length_polled, hlength, false_or, true_and]
        omega
      · exact ⟨_, .exhausted hanswered hbusy', rfl⟩
    · have hpasses := fun next => @protectPasses_iff answers _ _ next hanswered hbusy hstop
      have hnot : ¬ BusyUntil answers (c.sent.length + 1) (emmcSendCmdRetryCount + 1) :=
        fun hall => hstop (hall j hj)
      have hswitch : ∀ next, SwitchPasses answers c.sent.length next ↔
          ProtectPasses answers c.sent.length next := by
        intro next
        unfold SwitchPasses
        simp [hnot]
      have hmade := PollsMade.stopped j hanswered (Nat.lt_succ_iff.mp hj) hbusy hstop
      rw [← hlength] at hbusy hstop
      obtain ⟨hready, hrefused⟩ := switchLoop_stop hstatus (Nat.lt_succ_iff.mp hj) hbusy
      by_cases h : Ready (answers (c'.sent.length + j))
      · have hloop := hready h
        rw [← hc] at hloop
        rw [sendAndPoll_counted hanswered hloop, hc]
        constructor
        · intro next
          rw [hswitch, hpasses, ← hlength]
          simp only [h, true_and]
          split
          · simp only [length_polled, etimedout]
            omega
          · simp only [length_polled, true_and]
            omega
        · split
          · exact ⟨_, hmade, rfl⟩
          · exact ⟨_, hmade, rfl⟩
      · obtain ⟨ret, hret, hloop⟩ := hrefused h hstop
        rw [← hc] at hloop
        rw [sendAndPoll_failed hanswered hloop, hc]
        constructor
        · intro next
          rw [hswitch, hpasses, ← hlength]
          simp [h, hret]
        · exact ⟨_, hmade, rfl⟩
  · obtain ⟨hret, hcard⟩ := sendAndPoll_unanswered hanswered
    constructor
    · intro next
      constructor
      · rintro (h | h)
        · exact absurd h.1 hanswered
        · exact absurd h.1 hanswered
      · intro h
        exact absurd h.1 hret
    · exact ⟨0, .unanswered hanswered, by rw [hcard, hc, polled_zero]⟩

theorem PollsMade.ready {k j polls : ℕ} (h : PollsMade answers k polls) (hj : j < polls)
    (hready : Ready (answers (k + 1 + j))) :
    Answered (answers k) ∧ j ≤ emmcSendCmdRetryCount ∧ BusyUntil answers (k + 1) j ∧
      ¬ Busy (answers (k + 1 + j)) := by
  have hnot : ¬ Busy (answers (k + 1 + j)) := fun h => h.notReady hready
  cases h with
  | unanswered => exact absurd hj (Nat.not_lt_zero j)
  | stopped i hanswered hi hbusy hstop =>
    rcases Nat.lt_succ_iff_lt_or_eq.mp hj with hlt | rfl
    · exact absurd (hbusy j hlt) hnot
    · exact ⟨hanswered, hi, hbusy, hnot⟩
  | exhausted _ hbusy => exact absurd (hbusy j hj) hnot

theorem hiMciMmcSwitch_confirmed_iff (rca : BitVec 32) (index value : BitVec 8) :
    ((hiMciMmcSwitch answers rca index value c).1 = 0 ↔
      Confirmed answers c.sent.length
        (hiMciMmcSwitch answers rca index value c).2.sent.length) ↔
      SwitchAllowed answers c.sent.length := by
  obtain ⟨hpasses, polls, hmade, hcard⟩ :=
    @hiMciMmcSwitch_spec answers c rca index value
  have hlength : (hiMciMmcSwitch answers rca index value c).2.sent.length =
      c.sent.length + 1 + polls := by
    rw [hcard, length_polled]
    simp [Card.receive]
  have hret : (hiMciMmcSwitch answers rca index value c).1 = 0 ↔
      ∃ next, SwitchPasses answers c.sent.length next := by
    constructor
    · intro hzero
      exact ⟨_, (hpasses _).mpr ⟨hzero, rfl⟩⟩
    · rintro ⟨next, hnext⟩
      exact ((hpasses next).mp hnext).1
  rw [hret, hlength]
  generalize c.sent.length = k at hmade
  unfold SwitchAllowed Confirmed
  cases hmade with
  | unanswered hanswered =>
    constructor
    · intro _ h
      exact absurd h hanswered
    · intro _
      constructor
      · rintro ⟨next, h | h⟩
        · exact absurd h.1 hanswered
        · exact absurd h.1 hanswered
      · intro h
        exact absurd h.1.answered hanswered
  | stopped i hanswered hi hbusy hstop =>
    have hswitch : (∃ next, SwitchPasses answers k next) ↔
        i < emmcSendCmdRetryCount ∧ Ready (answers (k + 1 + i)) := by
      have hnot : ¬ BusyUntil answers (k + 1) (emmcSendCmdRetryCount + 1) :=
        fun hall => hstop (hall i (Nat.lt_succ_of_le hi))
      constructor
      · rintro ⟨next, h | h⟩
        · have hcases := (protectPasses_iff hanswered hbusy hstop).mp h
          exact ⟨hcases.1, hcases.2.1⟩
        · exact absurd h.2.1 hnot
      · intro h
        exact ⟨_, Or.inl ((protectPasses_iff hanswered hbusy hstop).mpr ⟨h.1, h.2, rfl⟩)⟩
    have hconfirmed : (∃ j ≤ emmcSendCmdRetryCount, k + 1 + j < k + 1 + (i + 1) ∧
        Clean (answers (k + 1 + j)) ∧ Ready (answers (k + 1 + j))) ↔
        Clean (answers (k + 1 + i)) ∧ Ready (answers (k + 1 + i)) := by
      constructor
      · rintro ⟨j, _, hj, hclean, hready⟩
        have hmade := PollsMade.stopped i hanswered hi hbusy hstop
        obtain ⟨_, _, hbusy', hstop'⟩ := hmade.ready (Nat.lt_of_add_lt_add_left hj) hready
        obtain rfl := busyUntil_unique hbusy' hbusy hstop' hstop
        exact ⟨hclean, hready⟩
      · intro h
        exact ⟨i, hi, by omega, h⟩
    have hallowed : (Answered (answers k) → ∃ j ≤ emmcSendCmdRetryCount,
        BusyUntil answers (k + 1) j ∧ ¬ Busy (answers (k + 1 + j)) ∧
        (Ready (answers (k + 1 + j)) →
          (j < emmcSendCmdRetryCount ↔ Clean (answers k) ∧ Clean (answers (k + 1 + j))))) ↔
        (Ready (answers (k + 1 + i)) →
          (i < emmcSendCmdRetryCount ↔ Clean (answers k) ∧ Clean (answers (k + 1 + i)))) := by
      constructor
      · intro h
        obtain ⟨j, _, hbusy', hstop', hj⟩ := h hanswered
        obtain rfl := busyUntil_unique hbusy' hbusy hstop' hstop
        exact hj
      · intro h _
        exact ⟨i, hi, hbusy, hstop, h⟩
    rw [hswitch, hconfirmed, hallowed]
    by_cases hready : Ready (answers (k + 1 + i))
    · simp only [hready, and_true, true_implies]
    · simp only [hready, and_false, false_implies]
  | exhausted hanswered hbusy =>
    have hswitch : ∃ next, SwitchPasses answers k next :=
      ⟨_, Or.inr ⟨hanswered, hbusy, rfl⟩⟩
    have hnever : ∀ j ≤ emmcSendCmdRetryCount, Busy (answers (k + 1 + j)) :=
      fun j hj => hbusy j (Nat.lt_succ_of_le hj)
    constructor
    · intro h
      obtain ⟨_, j, hj, _, _, hready⟩ := h.mp hswitch
      exact absurd hready (hnever j hj).notReady
    · intro h
      obtain ⟨j, hj, _, hstop, _⟩ := h hanswered
      exact absurd (hnever j hj) hstop

end Polling

section Areas

variable {answers : ℕ → Answer} {c : Card}

theorem switchArg_index (index value : BitVec 8) :
    (switchArg index value).extractLsb' 16 8 = index := by
  apply BitVec.eq_of_getLsbD_eq
  intro i hi
  have h1 : 16 + i < 24 := by omega
  have h2 : ¬ 16 + i < 16 := by omega
  have h3 : ¬ 16 + i < 8 := by omega
  have h4 : 8 ≤ 16 + i - 8 := by omega
  have h5 : 16 + i < 32 := by omega
  simp [switchArg, hi, h1, h2, h3, h5, BitVec.getLsbD_of_ge value _ h4]

theorem switchArg_value (index value : BitVec 8) :
    (switchArg index value).extractLsb' 8 8 = value := by
  apply BitVec.eq_of_getLsbD_eq
  intro i hi
  have h1 : 8 + i < 24 := by omega
  have h2 : 8 + i < 16 := by omega
  have h3 : ¬ 8 + i < 8 := by omega
  have h5 : 8 + i < 32 := by omega
  simp [switchArg, hi, h1, h2, h3, h5]

theorem switchArg_inj {index value value' : BitVec 8}
    (h : switchArg index value = switchArg index value') : value = value' := by
  rw [← switchArg_value index value, h, switchArg_value]

theorem receive_switch (value : BitVec 8) (a : Answer) :
    c.receive (command mmcSwitch (switchArg extCsdPartConfig value)) a =
      ⟨if a.taken = true then value else c.partConfig,
        c.sent ++ [⟨mmcSwitch, switchArg extCsdPartConfig value⟩]⟩ := by
  have harg : (command mmcSwitch (switchArg extCsdPartConfig value)).arg =
      switchArg extCsdPartConfig value := rfl
  have hopcode : (command mmcSwitch (switchArg extCsdPartConfig value)).opcode = mmcSwitch := rfl
  unfold Card.receive
  rw [harg, hopcode, switchArg_index, switchArg_value]
  simp only [and_true]

theorem filter_polls (polls : ℕ) (rca : BitVec 32) :
    (List.replicate polls (⟨mmcSendStatus, rca⟩ : Sent)).filter isProtect = [] := by
  rw [List.filter_eq_nil_iff]
  intro s hs
  rw [List.eq_of_mem_replicate hs]
  exact Bool.false_ne_true

theorem isProtect_protectOpcode (type : BitVec 8) (addr : BitVec 32) :
    isProtect ⟨protectOpcode type, addr⟩ = true := by
  unfold protectOpcode
  split <;> rfl

theorem protectGroups_spec (rca : BitVec 32) (type : BitVec 8) (size rounds i : ℕ) :
    (∀ next, GroupsPass answers rounds c.sent.length next ↔
      (protectGroups answers rca type size rounds i c).1 = 0 ∧
        (protectGroups answers rca type size rounds i c).2.sent.length = next) ∧
    (protectGroups answers rca type size rounds i c).2.partConfig = c.partConfig ∧
    ∃ l, (protectGroups answers rca type size rounds i c).2.sent = c.sent ++ l ∧
      (∀ s ∈ l, s.opcode ≠ mmcSwitch) ∧
      ((protectGroups answers rca type size rounds i c).1 = 0 →
        l.filter isProtect = (List.range rounds).map fun p =>
          ⟨protectOpcode type, BitVec.ofNat 32 ((i + p) * size)⟩) := by
  induction rounds generalizing i c with
  | zero =>
    simp only [protectGroups, GroupsPass, true_and]
    constructor
    · exact fun next => eq_comm
    · exact ⟨[], by simp⟩
  | succ rounds ih =>
    obtain ⟨hpasses, polls, hcard⟩ :=
      @hiMciTmpWriteProtect_spec answers c rca type (BitVec.ofNat 32 (i * size))
    have hgroups : protectGroups answers rca type size (rounds + 1) i c =
        let r := hiMciTmpWriteProtect answers rca type (BitVec.ofNat 32 (i * size)) c
        if r.1 ≠ 0 then r else protectGroups answers rca type size rounds (i + 1) r.2 := rfl
    have hsent : (hiMciTmpWriteProtect answers rca type (BitVec.ofNat 32 (i * size)) c).2.sent =
        c.sent ++ (⟨protectOpcode type, BitVec.ofNat 32 (i * size)⟩ ::
          List.replicate polls ⟨mmcSendStatus, rca <<< 16⟩) := by
      rw [hcard]
      simp [Card.polled]
    have hconfig : (hiMciTmpWriteProtect answers rca type (BitVec.ofNat 32 (i * size))
        c).2.partConfig = c.partConfig := by
      rw [hcard]
      rfl
    have hothers : ∀ s ∈ (⟨protectOpcode type, BitVec.ofNat 32 (i * size)⟩ ::
        List.replicate polls ⟨mmcSendStatus, rca <<< 16⟩ : List Sent),
        s.opcode ≠ mmcSwitch := by
      intro s hs
      rcases List.mem_cons.mp hs with rfl | hs
      · exact protectOpcode_ne type
      · rw [List.eq_of_mem_replicate hs]
        exact Nat.ne_of_beq_eq_false rfl
    rw [hgroups]
    generalize hiMciTmpWriteProtect answers rca type (BitVec.ofNat 32 (i * size)) c = r at *
    by_cases hret : r.1 = 0
    · obtain ⟨hrest, hconfig', l, hsent', hothers', hprotects⟩ := @ih r.2 (i + 1)
      simp only [hret, ne_eq, not_true_eq_false, if_false]
      constructor
      · intro next
        rw [← hrest]
        constructor
        · rintro ⟨m, hm, hnext⟩
          rwa [((hpasses m).mp hm).2]
        · intro hnext
          exact ⟨_, (hpasses _).mpr ⟨hret, rfl⟩, hnext⟩
      · refine ⟨hconfig'.trans hconfig, _, by rw [hsent', hsent, List.append_assoc], ?_, ?_⟩
        · intro s hs
          rcases List.mem_append.mp hs with hs | hs
          · exact hothers s hs
          · exact hothers' s hs
        · intro hzero
          have hnext : ∀ p, i + 1 + p = i + (p + 1) := fun p => by omega
          rw [List.filter_append, List.filter_cons_of_pos (isProtect_protectOpcode type _),
            filter_polls, hprotects hzero, List.range_succ_eq_map]
          simp [hnext]
    · simp only [hret, ne_eq, not_false_eq_true, if_true, false_and, iff_false]
      constructor
      · rintro next ⟨m, hm, _⟩
        exact hret ((hpasses m).mp hm).1
      · exact ⟨hconfig, _, hsent, hothers, False.elim⟩

end Areas

section Calls

theorem run_of_not_starts {call : ProtectCall} (h : ¬ call.Starts) :
    call.run.1 ≠ 0 ∧ call.run.2.partConfig = call.before := by
  unfold ProtectCall.run hiMciGppWriteProtect
  by_cases harea : call.areaIndex > emmcAreaMaxNum ∨ call.areaIndex < gpp0AreaIndex
  · have herror : -einval ≠ 0 := by decide
    rw [if_pos harea]
    exact ⟨herror, rfl⟩
  · rw [if_neg harea]
    by_cases hcsd : call.getExtCsd = 0
    · by_cases hlock : call.getHwLock = 0
      · rw [not_or] at harea
        exact absurd ⟨⟨BitVec.not_lt.mp harea.2, BitVec.not_lt.mp harea.1⟩, hcsd, hlock⟩ h
      · simp [hcsd, hlock]
    · simp [hcsd]

theorem run_of_starts {call : ProtectCall} (h : call.Starts) :
    call.run = hiMciWriteProtectSet call.answers call.rca call.type call.extCsd call.areaIndex
      ⟨call.before, []⟩ := by
  have harea : ¬ (call.areaIndex > emmcAreaMaxNum ∨ call.areaIndex < gpp0AreaIndex) :=
    not_or.mpr ⟨BitVec.not_lt.mpr h.area.2, BitVec.not_lt.mpr h.area.1⟩
  unfold ProtectCall.run hiMciGppWriteProtect
  rw [if_neg harea, h.getExtCsd, h.getHwLock]
  simp only [ne_eq, not_true_eq_false, if_false]

theorem hiMciWriteProtectSet_eq (answers : ℕ → Answer) (rca : BitVec 32) (type : BitVec 8)
    (extCsd : ℕ → BitVec 8) (areaIndex : BitVec 8) (c : Card) :
    hiMciWriteProtectSet answers rca type extCsd areaIndex c =
      let r := hiMciMmcSwitch answers rca extCsdPartConfig areaIndex c
      if r.1 ≠ 0 then (r.1, r.2)
      else
        let g := protectGroups answers rca type (wpGpSize extCsd) (wpGpCount extCsd areaIndex) 0 r.2
        if g.1 ≠ 0 then (g.1, g.2)
        else
          hiMciMmcSwitch answers rca extCsdPartConfig (extCsd extCsdPartConfig.toNat) g.2 := by
  unfold hiMciWriteProtectSet
  generalize hiMciMmcSwitch answers rca extCsdPartConfig areaIndex c = r
  simp only

structure Forward (call : ProtectCall) (c : Card) : Prop where
  partConfig : c.partConfig =
    if (call.answers 0).taken = true then call.areaIndex else call.before
  sent : ∀ s ∈ c.sent, s.opcode = mmcSwitch →
    s = ⟨mmcSwitch, switchArg extCsdPartConfig call.areaIndex⟩

theorem run_cases {call : ProtectCall} (h : call.Starts) :
    (call.run.1 ≠ 0 ∧ Forward call call.run.2 ∧ ∀ next, ¬ call.Goes next) ∨
    ∃ c : Card, call.Goes c.sent.length ∧ (∀ next, call.Goes next → next = c.sent.length) ∧
      Forward call c ∧
      (c.sent.filter isProtect = (List.range call.count).map fun p =>
          ⟨protectOpcode call.type, BitVec.ofNat 32 (p * call.size)⟩) ∧
      call.run = hiMciMmcSwitch call.answers call.rca extCsdPartConfig call.before c := by
  obtain ⟨hpasses, polls, _, hcard⟩ := @hiMciMmcSwitch_spec call.answers ⟨call.before, []⟩
    call.rca extCsdPartConfig call.areaIndex
  rw [List.length_nil] at hpasses hcard
  rw [run_of_starts h, hiMciWriteProtectSet_eq]
  unfold ProtectCall.Goes ProtectCall.count ProtectCall.size
  generalize wpGpCount call.extCsd call.areaIndex = count
  generalize wpGpSize call.extCsd = size
  have hsent : (hiMciMmcSwitch call.answers call.rca extCsdPartConfig call.areaIndex
      ⟨call.before, []⟩).2.sent =
        ⟨mmcSwitch, switchArg extCsdPartConfig call.areaIndex⟩ ::
          List.replicate polls ⟨mmcSendStatus, call.rca <<< 16⟩ := by
    rw [hcard, receive_switch]
    simp [Card.polled]
  have hstatus : ∀ s ∈ List.replicate polls (⟨mmcSendStatus, call.rca <<< 16⟩ : Sent),
      s.opcode ≠ mmcSwitch := by
    intro s hs
    rw [List.eq_of_mem_replicate hs]
    exact Nat.ne_of_beq_eq_false rfl
  have hforward : Forward call (hiMciMmcSwitch call.answers call.rca extCsdPartConfig
      call.areaIndex ⟨call.before, []⟩).2 := by
    constructor
    · rw [hcard, receive_switch]
      rfl
    · rw [hsent]
      intro s hs hopcode
      rcases List.mem_cons.mp hs with rfl | hs
      · rfl
      · exact absurd hopcode (hstatus s hs)
  generalize hiMciMmcSwitch call.answers call.rca extCsdPartConfig call.areaIndex
    ⟨call.before, []⟩ = r at *
  by_cases hret : r.1 = 0
  · have hswitch : SwitchPasses call.answers 0 r.2.sent.length := (hpasses _).mpr ⟨hret, rfl⟩
    obtain ⟨hgroups, hconfig, l, hl, hothers, hprotects⟩ :=
      @protectGroups_spec call.answers r.2 call.rca call.type size count 0
    simp only [hret, ne_eq, not_true_eq_false, if_false]
    have hgoes : ∀ next,
        (∃ k, SwitchPasses call.answers 0 k ∧ GroupsPass call.answers count k next) ↔
          GroupsPass call.answers count r.2.sent.length next := by
      intro next
      constructor
      · rintro ⟨k, hk, hnext⟩
        rwa [((hpasses k).mp hk).2]
      · intro hnext
        exact ⟨_, hswitch, hnext⟩
    generalize protectGroups call.answers call.rca call.type size count 0 r.2 = g at *
    have hforward' : Forward call g.2 := by
      constructor
      · rw [hconfig, hforward.partConfig]
      · rw [hl]
        intro s hs hopcode
        rcases List.mem_append.mp hs with hs | hs
        · exact hforward.sent s hs hopcode
        · exact absurd hopcode (hothers s hs)
    by_cases hret' : g.1 = 0
    · right
      refine ⟨g.2, ?_, ?_, hforward', ?_, ?_⟩
      · rw [hgoes, hgroups]
        exact ⟨hret', rfl⟩
      · intro next hnext
        rw [hgoes, hgroups] at hnext
        exact hnext.2.symm
      · have hfirst : isProtect ⟨mmcSwitch, switchArg extCsdPartConfig call.areaIndex⟩ ≠ true :=
          Bool.false_ne_true
        rw [hl, List.filter_append, hsent, List.filter_cons_of_neg hfirst, filter_polls,
          List.nil_append,
          hprotects hret']
        simp only [Nat.zero_add]
      · rw [if_neg (not_not.mpr hret')]
        rfl
    · left
      rw [if_pos hret']
      refine ⟨hret', hforward', ?_⟩
      intro next hnext
      rw [hgoes, hgroups] at hnext
      exact hret' hnext.1
  · left
    rw [if_pos hret]
    refine ⟨hret, hforward, ?_⟩
    rintro next ⟨k, hk, _⟩
    exact hret ((hpasses k).mp hk).1

theorem protectUndone_iff (call : ProtectCall) :
    ProtectUndone call ↔
      (call.Starts → call.areaIndex ≠ call.before → (call.answers 0).taken = true →
        ∃ next, call.Goes next) := by
  by_cases h : call.Starts
  · have hstarts : (call.Starts → call.areaIndex ≠ call.before →
        (call.answers 0).taken = true → ∃ next, call.Goes next) ↔
        (call.areaIndex ≠ call.before → (call.answers 0).taken = true →
          ∃ next, call.Goes next) := by simp only [h, true_implies]
    rw [hstarts]
    rcases run_cases h with ⟨_, hforward, hgoes⟩ | ⟨c, hgoes, _, hforward, _, hrun⟩
    · have hnone : ¬ ∃ next, call.Goes next := fun ⟨next, hnext⟩ => hgoes next hnext
      simp only [hnone]
      constructor
      · rintro (hback | ⟨k, hk, _⟩) hne htaken
        · rw [hforward.partConfig, if_pos htaken] at hback
          exact hne hback
        · have hsame := hforward.sent _ (List.mem_of_getElem? hk) rfl
          exact hne (switchArg_inj (congrArg Sent.arg hsame)).symm
      · intro hcases
        left
        rw [hforward.partConfig]
        split
        next htaken =>
          by_contra hne
          exact hcases hne htaken
        next => rfl
    · have hsome : ∃ next, call.Goes next := ⟨_, hgoes⟩
      simp only [hsome, implies_true, iff_true]
      obtain ⟨_, polls, _, hcard⟩ :=
        @hiMciMmcSwitch_spec call.answers c call.rca extCsdPartConfig call.before
      rw [receive_switch] at hcard
      unfold ProtectUndone
      rw [hrun, hcard]
      by_cases htaken : (call.answers c.sent.length).taken = true
      · left
        simp [Card.polled, htaken]
      · right
        refine ⟨c.sent.length, ?_, by simpa using htaken⟩
        simp [Card.polled]
  · have hkept := (run_of_not_starts h).2
    constructor
    · intro _ hstarts
      exact absurd hstarts h
    · intro _
      exact Or.inl hkept

theorem protectComplete_iff (call : ProtectCall) :
    ProtectComplete call ↔
      (call.Starts → ∀ m next, call.Goes m → SwitchPasses call.answers m next →
        ∀ i < call.count, i * call.size < 2 ^ 32) := by
  by_cases h : call.Starts
  · rcases run_cases h with ⟨hret, _, hgoes⟩ | ⟨c, hgoes, honly, _, hprotects, hrun⟩
    · constructor
      · intro _ _ m next hm
        exact absurd hm (hgoes m)
      · intro _ hzero
        exact absurd hzero hret
    · obtain ⟨hpasses, polls, _, hcard⟩ :=
        @hiMciMmcSwitch_spec call.answers c call.rca extCsdPartConfig call.before
      have hsent : call.run.2.sent.filter isProtect = c.sent.filter isProtect := by
        have hfirst : isProtect ⟨mmcSwitch, switchArg extCsdPartConfig call.before⟩ ≠ true :=
          Bool.false_ne_true
        rw [hrun, hcard, receive_switch]
        simp [Card.polled, filter_polls, hfirst]
      have haddrs : (call.run.2.sent.filter isProtect).map (fun s => (s.opcode, s.arg.toNat)) =
          (List.range call.count).map fun i =>
            (protectOpcode call.type, i * call.size % 2 ^ 32) := by
        rw [hsent, hprotects, List.map_map]
        simp
      unfold ProtectComplete
      rw [haddrs, hrun]
      constructor
      · intro hcomplete _ m next hm hnext i hi
        obtain rfl := honly m hm
        have hlist := hcomplete ((hpasses next).mp hnext).1
        have hpair := List.map_inj_left.mp hlist i (List.mem_range.mpr hi)
        have hmod : i * call.size % 2 ^ 32 = i * call.size := congrArg Prod.snd hpair
        exact hmod ▸ Nat.mod_lt _ (Nat.two_pow_pos 32)
      · intro hcond hzero
        have hsmall := hcond h _ _ hgoes ((hpasses _).mpr ⟨hzero, rfl⟩)
        apply List.map_congr_left
        intro i hi
        rw [Nat.mod_eq_of_lt (hsmall i (List.mem_range.mp hi))]
  · have hret := (run_of_not_starts h).1
    constructor
    · intro _ hstarts
      exact absurd hstarts h
    · intro _ hzero
      exact absurd hzero hret

theorem eraseUndone_iff (call : EraseCall) :
    EraseUndone call ↔
      (call.Starts → call.before ≠ 0 → call.toUser.taken = true →
        call.toUser.ret = 0 ∧ call.erase = 0) := by
  by_cases h : call.Starts
  · have herase : mmcIoctlErase call call.before =
        if call.toUser.ret ≠ 0 ∨ call.erase ≠ 0 then
          ⟨if call.toUser.ret ≠ 0 then call.toUser.ret else call.erase,
            kernelSwitch call.before 0 call.toUser, [(0, call.toUser)]⟩
        else
          ⟨call.back.ret,
            kernelSwitch (kernelSwitch call.before 0 call.toUser) call.before call.back,
            [(0, call.toUser), (call.before, call.back)]⟩ := by
      unfold mmcIoctlErase
      simp only [h.copyFails, h.canErase, h.getExtCsd, Bool.false_eq_true, if_false, Bool.not_true,
        ne_eq, not_true_eq_false]
      by_cases hret : call.toUser.ret = 0
      · by_cases hfail : call.erase = 0
        · simp only [hret, hfail, not_true_eq_false, or_self, if_false]
          rfl
        · simp [hret, hfail]
      · simp [hret]
    unfold EraseUndone
    rw [herase]
    by_cases hfail : call.toUser.ret ≠ 0 ∨ call.erase ≠ 0
    · have hnot : ¬ (call.toUser.ret = 0 ∧ call.erase = 0) := by tauto
      rw [if_pos hfail]
      simp only [h, hnot, kernelSwitch, List.mem_singleton, exists_eq_left, true_implies]
      by_cases htaken : call.toUser.taken = true
      · simp only [htaken, if_true, Bool.true_eq_false, and_false, or_false, true_implies]
        constructor
        · intro hzero hne
          exact hne hzero.symm
        · intro hcases
          by_contra hne
          exact hcases fun hzero => hne hzero.symm
      · simp only [htaken, Bool.false_eq_true, if_false, true_or, false_implies, implies_true]
    · have hgood : call.toUser.ret = 0 ∧ call.erase = 0 := by tauto
      rw [if_neg hfail]
      simp only [hgood, and_self, implies_true, iff_true]
      by_cases htaken : call.back.taken = true
      · left
        simp [kernelSwitch, htaken]
      · right
        exact ⟨(call.before, call.back), by simp, rfl, by simpa using htaken⟩
  · have hkept : (mmcIoctlErase call call.before).partConfig = call.before := by
      unfold mmcIoctlErase
      by_cases hcopy : call.copyFails = true
      · rw [if_pos hcopy]
      · by_cases hcan : call.canErase = true
        · by_cases hcsd : call.getExtCsd = 0
          · exact absurd ⟨Bool.eq_false_iff.mpr hcopy, hcan, hcsd⟩ h
          · simp [hcopy, hcan, hcsd]
        · simp [hcopy, hcan]
    constructor
    · intro _ hstarts
      exact absurd hstarts h
    · intro _
      exact Or.inl hkept

structure EmmcCorrect (answers : ℕ → Answer) (rca : BitVec 32) (index value : BitVec 8) (c : Card)
    (call : ProtectCall) (erase : EraseCall) : Prop where
  confirmed : (hiMciMmcSwitch answers rca index value c).1 = 0 ↔
    Confirmed answers c.sent.length (hiMciMmcSwitch answers rca index value c).2.sent.length
  undone : ProtectUndone call
  complete : ProtectComplete call
  eraseUndone : EraseUndone erase

structure EmmcAllowed (answers : ℕ → Answer) (c : Card) (call : ProtectCall) (erase : EraseCall) :
    Prop where
  switch : SwitchAllowed answers c.sent.length
  passes : call.Starts → call.areaIndex ≠ call.before → (call.answers 0).taken = true →
    ∃ next, call.Goes next
  small : call.Starts → ∀ m next, call.Goes m → SwitchPasses call.answers m next →
    ∀ i < call.count, i * call.size < 2 ^ 32
  erases : erase.Starts → erase.before ≠ 0 → erase.toUser.taken = true →
    erase.toUser.ret = 0 ∧ erase.erase = 0

theorem emmc_correct_iff (answers : ℕ → Answer) (rca : BitVec 32) (index value : BitVec 8)
    (c : Card) (call : ProtectCall) (erase : EraseCall) :
    EmmcCorrect answers rca index value c call erase ↔ EmmcAllowed answers c call erase := by
  constructor
  · intro h
    constructor
    · exact (hiMciMmcSwitch_confirmed_iff rca index value).mp h.confirmed
    · exact (protectUndone_iff call).mp h.undone
    · exact (protectComplete_iff call).mp h.complete
    · exact (eraseUndone_iff erase).mp h.eraseUndone
  · intro h
    constructor
    · exact (hiMciMmcSwitch_confirmed_iff rca index value).mpr h.switch
    · exact (protectUndone_iff call).mpr h.passes
    · exact (protectComplete_iff call).mpr h.small
    · exact (eraseUndone_iff erase).mpr h.erases

/-- A card that stays busy: the switch reports success all the same.  And an erase that fails
leaves the card in the user area. -/
theorem busy_card_missed :
    let busy : ℕ → Answer := fun _ => ⟨0, true, false, false, false, 0, true⟩
    let c : Card := ⟨0, []⟩
    let call : ProtectCall := ⟨0, 0, 0, fun _ => 0, 0, 0, busy⟩
    let erase : EraseCall := ⟨false, true, 0, fun _ => 1, ⟨0, true⟩, -5, ⟨0, true⟩⟩
    (hiMciMmcSwitch busy 0 extCsdPartConfig 1 c).1 = 0 ∧
      (mmcIoctlErase erase erase.before).partConfig = 0 ∧ erase.before = 1 ∧
      ¬ EmmcCorrect busy 0 extCsdPartConfig 1 c call erase := by
  intro busy c call erase
  have hbusy : ∀ i, Busy (busy i) := by
    intro i
    exact ⟨⟨rfl, rfl⟩, fun h => h.rdyForData (BitVec.zero_and), BitVec.zero_and⟩
  have hret : (hiMciMmcSwitch busy 0 extCsdPartConfig 1 c).1 = 0 := by
    have hpasses := (@hiMciMmcSwitch_spec busy c 0 extCsdPartConfig 1).1
    exact ((hpasses _).mp (Or.inr ⟨⟨rfl, rfl⟩, fun i _ => hbusy (0 + 1 + i), rfl⟩)).1
  refine ⟨hret, rfl, rfl, ?_⟩
  intro h
  obtain ⟨_, j, _, _, _, hready⟩ := h.confirmed.mp hret
  exact (hbusy (0 + 1 + j)).notReady hready

end Calls

end HiMpu.HimciSwitch
