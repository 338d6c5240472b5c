import HiMpu.I2cTransfer

/-!
# Block reads of the I2C master

The slave of a block read sends the length of the block first, and the handler learns from
this byte how many it still has to read.
-/

namespace HiMpu.I2cMaster

open I2c TransitionSystem

def IsBlockRead (msg : Kmsg) : Prop :=
  msg.flags.smbus = true ∧
    (msg.protocol = i2cSmbusKmReadBlock ∨ msg.protocol = i2cSmbusKmBlkProcCall)

def checkLen (msg : Kmsg) : ℕ := if msg.flags.pec then 1 else 0

def following (msg : Kmsg) (count : Byte) : ℕ := count.toNat + checkLen msg

def Complete (msg : Kmsg) (s : Master) : Prop :=
  ∃ count data check buf, s.answered = count :: data ++ check ∧
    data.length = count.toNat ∧ check.length = checkLen msg ∧
    (i2cXferResult s.adap.msg).1 = 0 ∧
    (i2cXferResult s.adap.msg).2.rlen = 1 + count.toNat ∧
    (i2cXferResult s.adap.msg).2.rbuf = some buf ∧
    (List.range (1 + count.toNat)).map buf = count :: data ∧
    (msg.flags.pec = true → check = [(i2cXferResult s.adap.msg).2.recvdCrc])

def AskedAll (s : Master) : Prop :=
  s.adap.msg.flags.recvLen = false ∧ s.adap.msg.cmdLen = 0 ∧ s.adap.msgError = false

def Stopped (s : Master) : Prop :=
  ∃ words last, s.written = words ++ [last] ∧ hasStop last = true ∧
    ∀ word ∈ words, hasStop word = false

variable {cfg : Config} {msg : Kmsg} {s s' : Master} {irq : IrqStatus} {count : Byte}

theorem pecPrepare_recvLen {m : Kmsg} (hproto : m.protocol = 9 ∨ m.protocol = 11)
    (hrecv : m.flags.recvLen = true) : i2cSmbusPecPrepare m = (0, m) := by
  have hroutine : (pecPrepareRoutine[m.protocol]?).join = some i2cSmbusPecPrepareRead := by
    rcases hproto with hp | hp
    · rw [hp]
      rfl
    · rw [hp]
      rfl
  unfold i2cSmbusPecPrepare
  split
  next => rfl
  next =>
    unfold callRoutine
    rw [hroutine]
    simp only [i2cSmbusPecPrepareRead]
    rw [if_pos hrecv]

theorem HandedOver.block (h : HandedOver cfg.quirks msg) (hblock : IsBlockRead msg) :
    msg.flags.rd = true ∧ msg.flags.recvLen = true := by
  obtain ⟨hsmbus, hproto⟩ := hblock
  obtain ⟨m, hm⟩ := h.smbus hsmbus
  have hprotocol := prepareMsg_protocol m
  rw [hm] at hprotocol
  rw [hprotocol] at hproto
  have hm := prepareMsg_routine hm
  unfold callRoutine at hm
  rcases hproto with hp | hp
  · have hroutine : (prepareRoutine[m.protocol]?).join = some i2cSmbusPrepareReadblock := by
      rw [hp]
      rfl
    rw [hroutine] at hm
    obtain ⟨hrd, hm⟩ := of_check hm (by decide)
    obtain ⟨hrecv, hm⟩ := of_check hm (by decide)
    obtain ⟨-, hm⟩ := of_check hm (by decide)
    rw [Bool.not_eq_true', Bool.not_eq_false] at hrd hrecv
    rw [pecPrepare_recvLen (Or.inl hp) hrecv] at hm
    cases hm
    exact ⟨hrd, hrecv⟩
  · have hroutine : (prepareRoutine[m.protocol]?).join =
        some i2cSmbusPrepareBlockProcesscall := by
      rw [hp]
      rfl
    rw [hroutine] at hm
    obtain ⟨hrd, hm⟩ := of_check hm (by decide)
    obtain ⟨hrecv, hm⟩ := of_check hm (by decide)
    obtain ⟨-, hm⟩ := of_check hm (by decide)
    obtain ⟨-, hm⟩ := of_check hm (by decide)
    rw [Bool.not_eq_true', Bool.not_eq_false] at hrd hrecv
    rw [pecPrepare_recvLen (Or.inr hp) hrecv] at hm
    cases hm
    exact ⟨hrd, hrecv⟩

theorem HandedOver.blockWellFormed (h : HandedOver cfg.quirks msg) (hblock : IsBlockRead msg)
    {reads : ℕ} (hpos : 0 < reads) : WellFormed msg reads := by
  refine ⟨h.wbuf, fun hrd => ?_, fun _ => hpos⟩
  rw [(h.block hblock).1] at hrd
  cases hrd

theorem IsBlockRead.not_quick (hblock : IsBlockRead msg) (hkept : Kept msg s.adap) :
    quickCmd s.adap.msg = false := by
  unfold quickCmd
  rw [hkept.protocol]
  rcases hblock.2 with hp | hp
  · rw [hp]
    exact Bool.and_false _
  · rw [hp]
    exact Bool.and_false _

/-- How far a try has come.  Before the count is known, the words are those of a message of
any number of reads from two on. -/
inductive Phase (cfg : Config) (msg : Kmsg) (s : Master) : Prop
  | counting (h : ∀ reads, 2 ≤ reads → Inv cfg msg reads (msg.wlen + 1) s)
  | rejected (count : Byte) (hcount : [count] <+: s.answered)
      (hlarge : min msg.rlen cfg.quirks.maxReadLen < following msg count)
      (hrecv : s.adap.msg.flags.recvLen = false) (herror : s.adap.msgError = true)
      (hfailed : s.result ≠ some 0)
  | reading (count : Byte) (hcount : [count] <+: s.answered)
      (hpos : 0 < following msg count) (hfit : 1 + following msg count ≤ msg.rlen)
      (hrecv : s.adap.msg.flags.recvLen = false)
      (h : Inv cfg msg (1 + following msg count) (msg.wlen + (1 + following msg count)) s)
  | odd (count : Byte) (hcount : [count] <+: s.answered)
      (hodd : following msg count = 0 ∨
        (following msg count = msg.rlen ∧ msg.rlen ≤ cfg.quirks.maxReadLen))

theorem irqReadByte_count {a : Adapter} (hrcnt : a.msg.rcnt = 0) (hout : a.msg.outstanding = 1)
    (hlen : 0 < a.msg.rlen) (hrecv : a.msg.flags.recvLen = true) :
    irqReadByte cfg a count = (true, { a with
      msgError := a.msgError ||
        decide (min a.msg.rlen cfg.quirks.maxReadLen < following a.msg count)
      msg := { a.msg with
        outstanding := 0
        rbuf := some (Function.update a.msg.r 0 count)
        rcnt := 1
        cmdLen := following a.msg count
        flags := { a.msg.flags with recvLen := false } } }) := by
  have hroom : ¬ a.msg.rlen ≤ a.msg.rcnt := by omega
  unfold irqReadByte
  simp only
  rw [if_neg hroom, if_neg (by rw [hrecv]; decide)]
  simp only [i2cDwMasterRecvLength, hrcnt, hout, following, checkLen, Nat.sub_self, Nat.min_zero,
    Nat.sub_zero, Nat.zero_add]
  rfl

theorem reading_of_count {left : ℕ} (hreads : 0 < following msg count)
    (h : Inv cfg msg (1 + following msg count) (msg.wlen + 1) s) (hkept : Kept msg s.adap)
    (hpc : s.pc = .read irq (left + 1)) (hfifo : s.rxFifo = [count])
    (hinflight : s.inflight = 0) (hrcnt : s.adap.msg.rcnt = 0)
    (hlength : s.written.length = msg.wlen + 1) (herror : Bool) :
    Inv cfg msg (1 + following msg count) (msg.wlen + (1 + following msg count))
      { s with
        adap := { s.adap with
          msgError := s.adap.msgError || herror
          msg := { s.adap.msg with
            outstanding := 0
            rbuf := some (Function.update s.adap.msg.r 0 count)
            rcnt := 1
            cmdLen := following msg count
            flags := { s.adap.msg.flags with recvLen := false } } }
        rxFifo := []
        pc := .read irq left } := by
  have hleft := h.levels.left
  have htx := h.levels.tx
  rw [hpc, hfifo] at hleft
  have hzero : left = 0 := Nat.eq_zero_of_le_zero (Nat.le_of_succ_le_succ hleft)
  have hnot : s.written.length ≠ msg.wlen + (1 + following msg count) := by omega
  have hp := h.progress
  refine ⟨⟨hp.wlen, hp.wbuf, hp.rd, hp.taken, ?_, hp.wcnt, hp.restart, fun _ => rfl, ?_⟩,
    ⟨?_, htx, ?_, ?_, Nat.zero_le _, ?_⟩, ⟨hkept.rlen, ?_, ?_⟩,
    { h.ends with seen := ?_, complete := ?_, success := ?_ }⟩
  · simp only
    omega
  · intro hc
    cases hc
  · intro hc
    cases hc
  · show (s.txflr : ℤ) + 0 ≤ cfg.txFifoDepth
    omega
  · show s.inflight + 0 ≤ 0
    omega
  · exact hzero.le
  · intro hrd
    obtain ⟨buf, -, hstored⟩ := h.stored.stored hrd
    refine ⟨_, rfl, ?_⟩
    rw [hrcnt, hfifo] at hstored
    rw [← hstored]
    simp [Function.update_self]
  · show 1 + 0 = s.written.length - msg.wlen
    omega
  · intro hstop
    refine h.ends.seen ?_
    rw [hpc]
    exact hstop
  · intro hdone
    rcases h.ends.complete hdone with herr | herr | hall
    · exact Or.inl herr
    · refine Or.inr (Or.inl ?_)
      show (s.adap.msgError || herror) = true
      rw [herr]
      rfl
    · exact absurd hall.1 hnot
  · intro hzero
    exact absurd (h.ends.success hzero).1 hnot

theorem Phase.countByte {left : ℕ} (h : ∀ reads, 2 ≤ reads → Inv cfg msg reads (msg.wlen + 1) s)
    (hkept : Kept msg s.adap) (hrlen : 0 < msg.rlen) (hrd : msg.flags.rd = true)
    (hpc : s.pc = .read irq (left + 1)) {rest : List Byte} (hfifo : s.rxFifo = count :: rest) :
    Phase cfg msg
      { s with
        adap := (irqReadByte cfg s.adap count).2
        rxFifo := rest
        pc := .read irq (if (irqReadByte cfg s.adap count).1 then left else 0) } := by
  have h2 := h 2 (le_refl 2)
  have hcount := h2.progress.count
  have hcounts := h2.stored.counts
  have hrx := h2.levels.rx
  rw [hfifo, List.length_cons] at hrx
  have hrest : rest = [] := List.eq_nil_of_length_eq_zero (by omega)
  have hrecv : s.adap.msg.flags.recvLen = true := by
    by_contra hne
    have := h2.progress.whole (Bool.not_eq_true _ ▸ hne)
    omega
  have hpec : following s.adap.msg count = following msg count := by
    unfold following checkLen
    rw [hkept.flags]
  have hread : irqReadByte cfg s.adap count = _ :=
    irqReadByte_count (by omega) (by omega) (by rw [hkept.rlen]; exact hrlen) hrecv
  rw [hpec, hkept.rlen] at hread
  obtain ⟨buf, -, hstored⟩ := h2.stored.stored hrd
  have hrcnt : s.adap.msg.rcnt = 0 := by omega
  have hanswered : s.answered = [count] := by
    rw [hrcnt, hfifo, hrest] at hstored
    exact hstored.symm
  have hprefix : [count] <+: s.answered := by
    rw [hanswered]
  rw [hread]
  by_cases hlarge : min msg.rlen cfg.quirks.maxReadLen < following msg count
  · refine Phase.rejected count hprefix hlarge rfl ?_ ?_
    · simp only
      rw [decide_eq_true hlarge, Bool.or_true]
    · intro hzero
      have hall := (h2.ends.success hzero).1
      omega
  · by_cases hodd : following msg count = 0 ∨
        (following msg count = msg.rlen ∧ msg.rlen ≤ cfg.quirks.maxReadLen)
    · exact Phase.odd count hprefix hodd
    · refine Phase.reading count hprefix (by omega) (by omega) rfl ?_
      rw [hrest]
      exact reading_of_count (by omega) (h _ (by omega)) hkept hpc (by rw [hfifo, hrest])
        (by omega) hrcnt (by omega) _

theorem Phase.next {act : Action} (h : Phase cfg msg s) (hmsg : HandedOver cfg.quirks msg)
    (hblock : IsBlockRead msg) (hkept : Kept msg s.adap) (hretry : act ≠ .retry)
    (hstep : next cfg s act = some s') : Phase cfg msg s' := by
  have hlater := Later.next hretry hstep
  have hquick : ∀ n : ℕ, quickCmd s.adap.msg = true → n = 0 := by
    intro n hc
    rw [hblock.not_quick hkept] at hc
    cases hc
  cases h with
  | counting h =>
    by_cases hread : act = .cpu ∧ s.pc.left ≠ 0
    · obtain ⟨rfl, hleft⟩ := hread
      simp only [HiMpu.I2cMaster.next, Master.cpu] at hstep
      split at hstep
      next => cases hstep
      next => cases hstep
      next irq hpc =>
        rw [hpc] at hleft
        exact absurd rfl hleft
      next irq left hpc =>
        split at hstep
        next => cases hstep
        next val rest hfifo =>
          cases hstep
          have hbuf := hmsg.read (hmsg.block hblock).1
          exact Phase.countByte h hkept hbuf.2 (hmsg.block hblock).1 hpc hfifo
      next irq hpc =>
        rw [hpc] at hleft
        exact absurd rfl hleft
      next irq wlimit hpc =>
        rw [hpc] at hleft
        exact absurd rfl hleft
      next irq wlimit rlimit hpc =>
        rw [hpc] at hleft
        exact absurd rfl hleft
      next irq hpc =>
        rw [hpc] at hleft
        exact absurd rfl hleft
    · refine Phase.counting fun reads hreads => ?_
      exact (h reads hreads).next (hmsg.blockWellFormed hblock (by omega)) (hquick _)
        (fun hact hleft => absurd ⟨hact, hleft⟩ hread) hretry hstep
  | rejected count hcount hlarge hrecv herror hfailed =>
    exact Phase.rejected count (hcount.trans hlater.answered) hlarge (hlater.recvLen hrecv)
      (hlater.msgError herror) (hlater.failed herror hfailed)
  | reading count hcount hpos hfit hrecv h =>
    refine Phase.reading count (hcount.trans hlater.answered) hpos hfit (hlater.recvLen hrecv) ?_
    exact h.next (hmsg.blockWellFormed hblock (by omega)) (hquick _)
      (fun _ _ => ⟨hrecv, hfit⟩) hretry hstep
  | odd count hcount hodd => exact Phase.odd count (hcount.trans hlater.answered) hodd

theorem block_invariant (hmsg : HandedOver cfg.quirks msg) (hblock : IsBlockRead msg)
    (hreach : (system cfg msg).Reachable s) :
    Phase cfg msg s ∧ Kept msg s.adap ∧ s.cmdRlen = 1 := by
  obtain ⟨hrd, hrecv⟩ := hmsg.block hblock
  have htry : ∀ t : Master, Kept msg t.adap → t.cmdRlen = 1 → Phase cfg msg t.tryXfer := by
    intro t hkept hrlen
    refine Phase.counting fun reads hreads => Inv.tryXfer hkept (by rw [hrlen]) ?_ ?_
    · intro hc
      rw [hrecv] at hc
      cases hc
    · intro _
      omega
  have hrlen : i2cXferRlen msg = 1 := by
    unfold i2cXferRlen
    rw [hrecv, hrd]
    rfl
  refine hreach.invariant (P := fun s => Phase cfg msg s ∧ Kept msg s.adap ∧ s.cmdRlen = 1) ?_ ?_
  · rintro s rfl
    refine ⟨htry _ ⟨rfl, rfl, id, rfl, rfl, rfl, rfl, fun hrd => (hmsg.read hrd).1⟩ hrlen,
      hmsg.kept, hrlen⟩
  · rintro s act s' - ⟨hphase, hkept, hone⟩ hstep
    by_cases hretry : act = .retry
    · subst hretry
      have heq := next_retry hstep
      refine ⟨?_, hkept.next hstep, ?_⟩
      · rw [heq]
        exact htry s hkept hone
      · rw [heq]
        exact hone
    · exact ⟨hphase.next hmsg hblock hkept hretry hstep, hkept.next hstep,
        (Later.next hretry hstep).cmdRlen.trans hone⟩

/-- Some byte follows the count, and the bytes that follow are not as many as the buffer has:
`i2c_dw_master_recv_length` compares them without the count byte. -/
def Regular (cfg : Config) (msg : Kmsg) (count : Byte) : Prop :=
  0 < following msg count ∧
    ¬ (following msg count = msg.rlen ∧ msg.rlen ≤ cfg.quirks.maxReadLen)

theorem answered_head {count' : Byte} (hcount : [count] <+: s.answered)
    (hhead : s.answered.head? = some count') : count' = count := by
  obtain ⟨rest, hrest⟩ := hcount
  rw [← hrest] at hhead
  cases hhead
  rfl

theorem reading_complete (hkept : Kept msg s.adap) (hrd : msg.flags.rd = true)
    (hcount : [count] <+: s.answered) (hpos : 0 < following msg count)
    (hfit : 1 + following msg count ≤ msg.rlen)
    (h : Inv cfg msg (1 + following msg count) (msg.wlen + (1 + following msg count)) s)
    (hsuccess : s.result = some 0) : Complete msg s := by
  obtain ⟨hall, hout⟩ := h.ends.success hsuccess
  obtain ⟨buf, hbuf, hstored⟩ := h.stored.stored hrd
  have hcounts := h.stored.counts
  have hrx := h.levels.rx
  have hempty : s.rxFifo = [] := List.eq_nil_of_length_eq_zero (by omega)
  have hrcnt : s.adap.msg.rcnt = 1 + following msg count := by omega
  rw [hempty, List.append_nil, hrcnt] at hstored
  have hpec : s.adap.msg.flags.pec = msg.flags.pec := by
    rw [hkept.flags]
  have hhead : buf 0 = count := by
    obtain ⟨rest, hrest⟩ := hcount
    rw [← hstored, Nat.add_comm, List.range_succ_eq_map] at hrest
    cases hrest
    rfl
  have hr : s.adap.msg.r = buf := by
    unfold Kmsg.r
    rw [hbuf]
    rfl
  have hresult : i2cXferResult s.adap.msg =
      if msg.flags.pec then
        (0, { s.adap.msg with recvdCrc := buf (following msg count), rlen := following msg count })
      else (0, { s.adap.msg with rlen := 1 + following msg count }) := by
    unfold i2cXferResult
    rw [if_neg (by rw [hkept.rlen]; omega), hpec, hr, hrcnt]
    cases msg.flags.pec with
    | true =>
      simp only [if_true, Nat.add_sub_cancel_left]
      rw [if_pos hpos, hrcnt]
    | false =>
      simp only [Bool.false_eq_true, if_false]
      rw [if_pos (by omega), hrcnt]
  have hblock : (List.range (1 + count.toNat)).map buf =
      count :: (List.range count.toNat).map fun i => buf (i + 1) := by
    rw [Nat.add_comm, List.range_succ_eq_map, List.map_cons, hhead, List.map_map]
    rfl
  have hanswered : s.answered = (count :: (List.range count.toNat).map fun i => buf (i + 1)) ++
      (List.range (checkLen msg)).map fun i => buf (1 + count.toNat + i) := by
    have hsum : 1 + following msg count = (1 + count.toNat) + checkLen msg := by
      unfold following
      omega
    rw [← hstored, ← hblock, hsum, List.range_add, List.map_append, List.map_map]
    rfl
  refine ⟨count, _, _, buf, hanswered, by simp, by simp, ?_, ?_, ?_, hblock, ?_⟩
  · rw [hresult]
    split <;> rfl
  · rw [hresult]
    cases hflag : msg.flags.pec with
    | true =>
      simp only [if_true, following, checkLen, hflag]
      omega
    | false => simp [following, checkLen, hflag]
  · rw [hresult]
    split
    next => exact hbuf
    next => exact hbuf
  · intro hflag
    rw [hresult, hflag]
    simp only [if_true, following, checkLen, hflag, List.range_one, List.map_cons, List.map_nil]
    rw [Nat.add_comm 1 count.toNat]

theorem reading_stopped (hwf : WellFormed msg (1 + following msg count))
    (h : Inv cfg msg (1 + following msg count) (msg.wlen + (1 + following msg count)) s)
    (hasked : s.adap.msg.cmdLen = 0) : Stopped s := by
  have hcount := h.progress.count
  have htaken := h.progress.taken
  rw [List.take_of_length_le (by rw [stream_length]; omega)] at htaken
  obtain ⟨words, last, hwords⟩ : ∃ words last, s.written = words ++ [last] :=
    (List.eq_nil_or_concat' s.written).resolve_left fun hnil => by
      rw [hnil] at hcount
      simp at hcount
      omega
  have hlength : words.length + 1 = msg.wlen + (1 + following msg count) := by
    rw [hwords, List.length_append, List.length_singleton] at hcount
    omega
  refine ⟨words, last, hwords, ?_, ?_⟩
  · have hget : (stream msg (1 + following msg count))[words.length]? = some last := by
      rw [← htaken, hwords, List.getElem?_concat_length]
    rw [hasStop_stream hwf.write hwf.read hget, decide_eq_true_iff]
    exact hlength
  · intro word hword
    obtain ⟨n, hn⟩ := List.mem_iff_getElem?.mp hword
    have hlt := (List.getElem?_eq_some_iff.mp hn).1
    have hget : (stream msg (1 + following msg count))[n]? = some word := by
      rw [← htaken, hwords, List.getElem?_append_left hlt, hn]
    rw [hasStop_stream hwf.write hwf.read hget, decide_eq_false_iff_not]
    omega

theorem Complete.rlen (h : Complete msg s) (hhead : s.answered.head? = some count) :
    (i2cXferResult s.adap.msg).2.rlen = 1 + count.toNat := by
  obtain ⟨count', data, check, buf, hanswered, -, -, -, hrlen, -⟩ := h
  rw [hanswered] at hhead
  cases hhead
  exact hrlen

theorem not_stopped (h : s.written.any hasStop = false) : ¬ Stopped s := by
  rintro ⟨words, last, hwords, hstop, -⟩
  rw [hwords, List.any_append, List.any_cons, hstop] at h
  simp at h

def readBlock (rlen : ℕ) : Kmsg where
  addr := 0x50
  flags := ⟨true, true, false, true, false, false⟩
  protocol := 9
  recvdCrc := 0
  retries := 0
  cmdLen := 0
  outstanding := 0
  rcnt := 0
  wcnt := 0
  wlen := 1
  wbuf := some fun _ => 0x10
  rlen := rlen
  rbuf := some fun _ => 0

def countSteps (count : Byte) : List Action :=
  List.flatten
    [[.disable true, .irq txEmpty], cpus 6, [.fetch, .execute 0, .fetch, .execute count, .irq rxFull],
      cpus 2]

def blockSteps : List Action :=
  List.flatten
    [countSteps 2, cpus 5, [.fetch, .execute 0xA1, .irq rxFull], cpus 7,
      [.fetch, .execute 0xA2, .irq lastByte], cpus 3, [.finish 1]]

theorem readBlock_handedOver {rlen : ℕ} (hpos : 0 < rlen) :
    HandedOver smallFifos.quirks (readBlock rlen) := by
  have hne : rlen ≠ 0 := hpos.ne'
  refine ⟨?_, fun _ => rfl, fun _ => ⟨readBlock rlen, ?_⟩⟩
  · simp [i2cCheckForMsg, i2cCheckForMsgLength, i2cCheckForMsgQuirks, readBlock, smallFifos, hne]
  · simp [i2cSmbusPrepareMsg, callRoutine, prepareRoutine, i2cSmbusPrepareReadblock,
      i2cSmbusPecPrepare, readBlock, i2cSmbusLenCmd, hne]

def blockOfThree : Master :=
  (runSteps (next smallFifos) (i2cXfer (readBlock 3)) blockSteps).get (by decide +kernel)

theorem blockOfThree_run :
    runSteps (next smallFifos) (i2cXfer (readBlock 3)) blockSteps = some blockOfThree :=
  (Option.some_get _).symm

def blockOfTwo : Master :=
  (runSteps (next smallFifos) (i2cXfer (readBlock 2)) blockSteps).get (by decide +kernel)

theorem blockOfTwo_run :
    runSteps (next smallFifos) (i2cXfer (readBlock 2)) blockSteps = some blockOfTwo :=
  (Option.some_get _).symm

def emptyBlock : Master :=
  (runSteps (next smallFifos) (i2cXfer (readBlock 2)) (countSteps 0)).get (by decide +kernel)

theorem emptyBlock_run :
    runSteps (next smallFifos) (i2cXfer (readBlock 2)) (countSteps 0) = some emptyBlock :=
  (Option.some_get _).symm

end HiMpu.I2cMaster
