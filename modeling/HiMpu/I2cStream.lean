import HiMpu.I2cMaster

/-!
# The words of a message

The interrupt handler cuts the words of a message into pieces, and the DMA engine gets them
in one array.  Both are the same words: the bytes to write, then the reads, with the stop on
the last word and the restart on the first read after a write.
-/

namespace HiMpu.I2cMaster

open I2c TransitionSystem

def writeWord (msg : Kmsg) (i : ℕ) : DataCmd :=
  (if i + 1 = msg.wlen ∧ !msg.flags.rd then icDataCmdRecv else 0) ||| (msg.w i).setWidth 16

def readWord (stop restart : Bool) : DataCmd :=
  (if stop then icDataCmdRecv else 0) ||| (if restart then icDataCmdResatrt else 0) |||
    icDataCmdWrite

def stream (msg : Kmsg) (reads : ℕ) : List DataCmd :=
  (List.range msg.wlen).map (writeWord msg) ++
    (List.range reads).map fun k => readWord (k + 1 = reads) (k = 0 ∧ msg.wlen ≠ 0)

variable {cfg : Config} {msg : Kmsg} {reads avail n : ℕ} {a a' : Adapter}
  {words ws : List DataCmd} {code : MasterCode}

theorem isRead_readWord : ∀ stop restart, isRead (readWord stop restart) = true := by decide

theorem hasStop_readWord : ∀ stop restart, hasStop (readWord stop restart) = stop := by decide

theorem isRead_writeWord (msg : Kmsg) (i : ℕ) : isRead (writeWord msg i) = false := by
  unfold isRead writeWord
  rw [BitVec.getLsbD_or, BitVec.getLsbD_setWidth, BitVec.getLsbD_of_ge (msg.w i) 8 (le_refl 8)]
  split <;> decide

theorem hasStop_writeWord (msg : Kmsg) (i : ℕ) :
    hasStop (writeWord msg i) = decide (i + 1 = msg.wlen ∧ msg.flags.rd = false) := by
  unfold hasStop writeWord
  rw [BitVec.getLsbD_or, BitVec.getLsbD_setWidth, BitVec.getLsbD_of_ge (msg.w i) 9 (by decide)]
  by_cases h : i + 1 = msg.wlen ∧ msg.flags.rd = false
  · have hcmd : i + 1 = msg.wlen ∧ (!msg.flags.rd) = true := ⟨h.1, by rw [h.2]; rfl⟩
    rw [if_pos hcmd, decide_eq_true h]
    decide
  · have hcmd : ¬ (i + 1 = msg.wlen ∧ (!msg.flags.rd) = true) := fun hc =>
      h ⟨hc.1, Bool.not_eq_true' _ ▸ hc.2⟩
    rw [if_neg hcmd, decide_eq_false h]
    decide

theorem stream_length : (stream msg reads).length = msg.wlen + reads := by
  simp [stream]

theorem stream_write (h : n < msg.wlen) : (stream msg reads)[n]? = some (writeWord msg n) := by
  unfold stream
  rw [List.getElem?_append_left (by simpa using h)]
  simp [h]

theorem stream_read {k : ℕ} (h : k < reads) : (stream msg reads)[msg.wlen + k]? =
    some (readWord (k + 1 = reads) (k = 0 ∧ msg.wlen ≠ 0)) := by
  unfold stream
  rw [List.getElem?_append_right (by simp)]
  simp [h]

theorem take_succ_of_getElem? {l : List DataCmd} {w : DataCmd} (h : l[n]? = some w) :
    l.take (n + 1) = l.take n ++ [w] := by
  rw [List.take_add_one, h]
  rfl

theorem hasStop_stream {w : DataCmd} (hrd : msg.flags.rd = false → reads = 0)
    (hreads : msg.flags.rd = true → 0 < reads) (hw : (stream msg reads)[n]? = some w) :
    hasStop w = decide (n + 1 = msg.wlen + reads) := by
  by_cases hn : n < msg.wlen
  · rw [stream_write hn, Option.some.injEq] at hw
    rw [← hw, hasStop_writeWord]
    cases hflag : msg.flags.rd with
    | false => simp [hrd hflag]
    | true =>
      have := hreads hflag
      simp only [Bool.true_eq_false, and_false, decide_false]
      rw [eq_comm, decide_eq_false_iff_not]
      omega
  · obtain ⟨k, rfl⟩ := Nat.exists_eq_add_of_le (not_lt.mp hn)
    have hk : k < reads := by
      have hlt := (List.getElem?_eq_some_iff.mp hw).1
      rw [stream_length] at hlt
      omega
    rw [stream_read hk, Option.some.injEq] at hw
    rw [← hw, hasStop_readWord]
    simp only [decide_eq_decide]
    omega

/-- The words written so far are the first of the message, and the counters say how many.
`avail` is the number of words that the driver knows of: with `RECV_LEN` there are more. -/
structure Progress (msg : Kmsg) (reads avail : ℕ) (a : Adapter) (words : List DataCmd) : Prop where
  wlen : a.msg.wlen = msg.wlen
  wbuf : a.msg.wbuf = msg.wbuf
  rd : a.msg.flags.rd = msg.flags.rd
  taken : words = (stream msg reads).take words.length
  count : words.length + a.msg.cmdLen = avail
  wcnt : a.msg.wcnt = min words.length msg.wlen
  restart : a.restartSent = decide (msg.wlen < words.length ∧ msg.wlen ≠ 0)
  whole : a.msg.flags.recvLen = false → avail = msg.wlen + reads
  more : a.msg.flags.recvLen = true → avail < msg.wlen + reads

structure WellFormed (msg : Kmsg) (reads : ℕ) : Prop where
  wbuf : msg.wlen ≠ 0 → msg.wbuf.isSome
  write : msg.flags.rd = false → reads = 0
  read : msg.flags.rd = true → 0 < reads

theorem Progress.avail_le (h : Progress msg reads avail a words) : avail ≤ msg.wlen + reads := by
  cases hrecv : a.msg.flags.recvLen with
  | true => exact (h.more hrecv).le
  | false => exact (h.whole hrecv).le

theorem control_restartEn : cfg.control &&& icConRestartEn ≠ 0 := by
  intro h
  have hbit := congrArg (fun v : BitVec 16 => v.getLsbD 5) h
  simp [Config.control, icConMaster, icConSlaveDisable, icConRestartEn] at hbit

theorem Progress.writeByte (h : Progress msg reads avail a words)
    (hpos : 0 < a.msg.cmdLen) (hlt : words.length < msg.wlen)
    (hmsg : a' = { a with msg := { a.msg with wcnt := a.msg.wcnt + 1 } }) :
    Progress msg reads avail a'.decCmdLen (words ++ [writeWord msg words.length]) := by
  have hwcnt : a.msg.wcnt = words.length := by rw [h.wcnt, min_eq_left hlt.le]
  subst hmsg
  refine ⟨h.wlen, h.wbuf, h.rd, ?_, ?_, ?_, ?_, h.whole, h.more⟩
  · rw [List.length_append, List.length_singleton, take_succ_of_getElem? (stream_write hlt),
      ← h.taken]
  · have hcount := h.count
    simp only [Adapter.decCmdLen, List.length_append, List.length_singleton]
    omega
  · simp only [Adapter.decCmdLen, List.length_append, List.length_singleton]
    rw [hwcnt, min_eq_left (by omega)]
  · simp only [Adapter.decCmdLen, List.length_append, List.length_singleton]
    rw [h.restart]
    simp only [decide_eq_decide]
    omega

theorem Progress.readByte (h : Progress msg reads avail a words)
    (hpos : 0 < a.msg.cmdLen) (hle : msg.wlen ≤ words.length)
    (ha : a'.msg.wlen = a.msg.wlen ∧ a'.msg.wbuf = a.msg.wbuf ∧ a'.msg.flags = a.msg.flags ∧
      a'.msg.cmdLen = a.msg.cmdLen ∧ a'.msg.wcnt = a.msg.wcnt ∧
      a'.restartSent = a.sendRestart.restartSent) :
    Progress msg reads avail a'.decCmdLen
      (words ++ [readWord (a.msg.cmdLen = 1 ∧ a.msg.flags.recvLen = false)
        (a.msg.wcnt ≠ 0 ∧ a.restartSent = false)]) := by
  obtain ⟨hwlen, hwbuf, hflags, hcmd, hwcnt, hrestart⟩ := ha
  have hwords := h.count
  have havail := h.avail_le
  obtain ⟨k, hk⟩ := Nat.exists_eq_add_of_le hle
  have hlt : k < reads := by omega
  have hstop : (k + 1 = reads) ↔ (a.msg.cmdLen = 1 ∧ a.msg.flags.recvLen = false) := by
    cases hrecv : a.msg.flags.recvLen with
    | true =>
      have hmore := h.more hrecv
      simp only [Bool.true_eq_false, and_false, iff_false]
      omega
    | false =>
      have hwhole := h.whole hrecv
      simp only [and_true]
      omega
  have hfirst : (k = 0 ∧ msg.wlen ≠ 0) ↔ (a.msg.wcnt ≠ 0 ∧ a.restartSent = false) := by
    rw [h.wcnt, h.restart, min_eq_right hle, decide_eq_false_iff_not]
    omega
  have hword : (stream msg reads)[words.length]? =
      some (readWord (a.msg.cmdLen = 1 ∧ a.msg.flags.recvLen = false)
        (a.msg.wcnt ≠ 0 ∧ a.restartSent = false)) := by
    rw [hk, stream_read hlt]
    simp only [hstop, hfirst]
  refine ⟨?_, ?_, ?_, ?_, ?_, ?_, ?_, ?_, ?_⟩
  · rw [← h.wlen, ← hwlen]
    rfl
  · rw [← h.wbuf, ← hwbuf]
    rfl
  · rw [← h.rd, ← hflags]
    rfl
  · rw [List.length_append, List.length_singleton, take_succ_of_getElem? hword, ← h.taken]
  · simp only [Adapter.decCmdLen, List.length_append, List.length_singleton]
    omega
  · simp only [Adapter.decCmdLen, List.length_append, List.length_singleton]
    rw [hwcnt, h.wcnt]
    omega
  · simp only [Adapter.decCmdLen, List.length_append, List.length_singleton]
    rw [hrestart]
    unfold Adapter.sendRestart
    split
    next hsend =>
      have hne := hfirst.mpr ⟨hsend.1, Bool.not_eq_true' _ ▸ hsend.2⟩
      rw [eq_comm, decide_eq_true_iff]
      omega
    next hsend =>
      have hne : ¬ (k = 0 ∧ msg.wlen ≠ 0) := fun hc =>
        hsend ⟨(hfirst.mp hc).1, Bool.not_eq_true' _ ▸ (hfirst.mp hc).2⟩
      rw [h.restart]
      simp only [decide_eq_decide]
      omega
  · intro hrecv
    exact h.whole (hflags ▸ hrecv)
  · intro hrecv
    exact h.more (hflags ▸ hrecv)

theorem restartCmd_eq : restartCmd cfg a =
    if decide (a.msg.wcnt ≠ 0 ∧ a.restartSent = false) then icDataCmdResatrt else 0 := by
  unfold restartCmd
  rw [if_pos control_restartEn]
  simp

theorem sendRestart_eq :
    a.sendRestart = { a with restartSent := a.sendRestart.restartSent } := by
  unfold Adapter.sendRestart
  split
  next => rfl
  next => rfl

theorem dmaPrepareByte_progress (cfg : Config) (h : Progress msg reads avail a words) (hwf : WellFormed msg reads)
    (hpos : 0 < a.msg.cmdLen) (hrecv : a.msg.flags.recvLen = false) :
    ∃ code a' w, i2cDwMasterDmaPrepareByte cfg a = (code, a', [w]) ∧ code ≠ .masterBreak ∧
      Progress msg reads avail a'.decCmdLen (words ++ [w]) ∧
      a'.msg.cmdLen = a.msg.cmdLen ∧ a'.msg.flags = a.msg.flags := by
  have hcount := h.count
  have havail := h.avail_le
  by_cases hlt : words.length < msg.wlen
  · have hwcnt : a.msg.wcnt = words.length := by rw [h.wcnt, min_eq_left hlt.le]
    refine ⟨.masterContinue, { a with msg := { a.msg with wcnt := a.msg.wcnt + 1 } },
      writeWord msg words.length, ?_, by decide, h.writeByte hpos hlt rfl, rfl, rfl⟩
    unfold i2cDwMasterDmaPrepareByte i2cDwMasterDmaPrepareWriteByte
    rw [if_neg (by rw [h.wlen, hwcnt]; omega)]
    simp only [writeWord, Kmsg.w, hwcnt, h.wlen, h.wbuf, h.rd]
  · have hle : msg.wlen ≤ words.length := not_lt.mp hlt
    have hwcnt : a.msg.wlen ≤ a.msg.wcnt := by
      rw [h.wlen, h.wcnt, min_eq_right hle]
    have hrd : msg.flags.rd = true := by
      by_contra hrd
      have := hwf.write (Bool.not_eq_true _ ▸ hrd)
      omega
    refine ⟨.masterNext, { a.sendRestart with msg := { a.msg with rcnt := a.msg.rcnt + 1 } },
      _, ?_, by decide, h.readByte hpos hle ⟨rfl, rfl, rfl, rfl, rfl, rfl⟩, rfl, rfl⟩
    unfold i2cDwMasterDmaPrepareByte i2cDwMasterDmaPrepareWriteByte
    rw [if_pos hwcnt]
    simp only
    rw [if_neg (by rw [h.rd, hrd]; decide)]
    unfold i2cDwMasterDmaPrepareReadByte
    rw [sendRestart_eq]
    simp only [readWord, restartCmd_eq, hrecv, and_true, decide_eq_true_eq]

theorem dmaPrepareLoop_eq (hwf : WellFormed msg reads) (k : ℕ)
    (h : Progress msg reads (msg.wlen + reads) a words)
    (hk : a.msg.cmdLen = k) (hrecv : a.msg.flags.recvLen = false) :
    dmaPrepareLoop cfg k a words = stream msg reads := by
  induction k generalizing a words with
  | zero =>
    have hcount := h.count
    have hall : (stream msg reads).length ≤ words.length := by
      rw [stream_length]
      omega
    have htaken := h.taken
    rw [List.take_of_length_le hall] at htaken
    exact htaken
  | succ k ih =>
    obtain ⟨code, a', w, hbyte, hcode, hprogress, hcmd, hflags⟩ :=
      dmaPrepareByte_progress cfg h hwf (by omega) hrecv
    have hnext : dmaPrepareLoop cfg (k + 1) a words =
        dmaPrepareLoop cfg k a'.decCmdLen (words ++ [w]) := by
      rw [dmaPrepareLoop, hbyte]
      cases code with
      | masterBreak => exact absurd rfl hcode
      | masterContinue => rfl
      | masterNext => rfl
    rw [hnext]
    refine ih hprogress ?_ ?_
    · show a'.msg.cmdLen - 1 = k
      omega
    · show a'.msg.flags.recvLen = false
      rw [hflags, hrecv]

inductive MsgByte (cfg : Config) (a : Adapter) : MasterCode × Adapter × List DataCmd → Prop
  | stop : MsgByte cfg a (.masterBreak, a, [])
  | write (hlt : a.msg.wcnt < a.msg.wlen) :
      MsgByte cfg a (.masterContinue, { a with msg := { a.msg with wcnt := a.msg.wcnt + 1 } },
        [writeWord a.msg a.msg.wcnt])
  | read (hle : a.msg.wlen ≤ a.msg.wcnt ∨ a.msg.wbuf.isNone) (hrd : a.msg.flags.rd = true)
      (hroom : a.msg.outstanding < cfg.rxFifoDepth) :
      MsgByte cfg a (.masterNext,
        { a with
          restartSent := a.sendRestart.restartSent
          msg := { a.msg with outstanding := a.msg.outstanding + 1 } },
        [readWord (a.msg.cmdLen = 1 ∧ a.msg.flags.recvLen = false)
          (a.msg.wcnt ≠ 0 ∧ a.restartSent = false)])

theorem msgByte_cases (cfg : Config) (a : Adapter) :
    MsgByte cfg a (i2cDwMasterIrqXferMsgByte cfg a) := by
  unfold i2cDwMasterIrqXferMsgByte
  by_cases hwrite : a.msg.wlen ≤ a.msg.wcnt ∨ a.msg.wbuf.isNone = true
  · have hnone : i2cDwMasterIrqXferWriteByte a = none := by
      unfold i2cDwMasterIrqXferWriteByte
      rw [if_pos hwrite]
    rw [hnone]
    simp only
    by_cases hrd : a.msg.flags.rd = true
    · rw [if_neg (by rw [hrd]; decide)]
      by_cases hroom : cfg.rxFifoDepth ≤ a.msg.outstanding
      · rw [if_pos hroom]
        exact MsgByte.stop
      · rw [if_neg hroom]
        have hread := MsgByte.read hwrite hrd (not_le.mp hroom)
        unfold i2cDwMasterIrqXferReadByte
        rw [sendRestart_eq]
        simpa [readWord, restartCmd_eq] using hread
    · rw [if_pos (by simpa using hrd)]
      exact MsgByte.stop
  · have hsome : i2cDwMasterIrqXferWriteByte a =
        some ({ a with msg := { a.msg with wcnt := a.msg.wcnt + 1 } },
          writeWord a.msg a.msg.wcnt) := by
      unfold i2cDwMasterIrqXferWriteByte
      rw [if_neg hwrite]
      rfl
    rw [hsome]
    exact MsgByte.write (not_le.mp (not_or.mp hwrite).1)

theorem Progress.short (h : Progress msg reads avail a words) (hlt : a.msg.wcnt < a.msg.wlen) :
    words.length < msg.wlen := by
  have hwcnt := h.wcnt
  rw [h.wlen] at hlt
  omega

theorem Progress.long (h : Progress msg reads avail a words) (hwf : WellFormed msg reads)
    (hle : a.msg.wlen ≤ a.msg.wcnt ∨ a.msg.wbuf.isNone) : msg.wlen ≤ words.length := by
  rcases hle with hle | hnone
  · rw [h.wlen, h.wcnt] at hle
    omega
  · by_contra hne
    have hsome := hwf.wbuf (by omega)
    rw [h.wbuf] at hnone
    rw [Option.isNone_iff_eq_none.mp hnone] at hsome
    cases hsome

theorem Progress.msgByte (h : Progress msg reads avail a words) (hwf : WellFormed msg reads)
    (hpos : 0 < a.msg.cmdLen) (hbyte : MsgByte cfg a (code, a', ws))
    (hcode : code ≠ .masterBreak) :
    Progress msg reads avail a'.decCmdLen (words ++ ws) := by
  cases hbyte with
  | stop => exact absurd rfl hcode
  | write hlt =>
    have hshort := h.short hlt
    have hwcnt : a.msg.wcnt = words.length := by rw [h.wcnt, min_eq_left hshort.le]
    have hword : writeWord a.msg a.msg.wcnt = writeWord msg words.length := by
      simp only [writeWord, Kmsg.w, hwcnt, h.wlen, h.wbuf, h.rd]
    rw [hword]
    exact h.writeByte hpos hshort rfl
  | read hle hrd hroom =>
    have hlong := h.long hwf hle
    exact h.readByte hpos hlong ⟨rfl, rfl, rfl, rfl, rfl, rfl⟩

theorem Progress.congr (h : Progress msg reads avail a words) (hwlen : a'.msg.wlen = a.msg.wlen)
    (hwbuf : a'.msg.wbuf = a.msg.wbuf) (hflags : a'.msg.flags = a.msg.flags)
    (hcmd : a'.msg.cmdLen = a.msg.cmdLen) (hwcnt : a'.msg.wcnt = a.msg.wcnt)
    (hrestart : a'.restartSent = a.restartSent) : Progress msg reads avail a' words := by
  refine ⟨hwlen.trans h.wlen, hwbuf.trans h.wbuf, ?_, h.taken, ?_, hwcnt.trans h.wcnt,
    hrestart.trans h.restart, ?_, ?_⟩
  · rw [hflags, h.rd]
  · rw [hcmd, h.count]
  · rw [hflags]
    exact h.whole
  · rw [hflags]
    exact h.more

end HiMpu.I2cMaster
