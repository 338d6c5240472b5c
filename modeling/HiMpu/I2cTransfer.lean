import HiMpu.I2cStream

/-!
# Transfers of the I2C master

What holds in every state of a transfer, whatever the levels of the FIFOs and the order of
the interrupts.
-/

namespace HiMpu.I2cMaster

open I2c TransitionSystem

def Pc.wlimit : Pc → ℤ
  | .rxflr _ wlimit | .loop _ wlimit _ => wlimit
  | _ => 0

def Pc.left : Pc → ℕ
  | .read _ left => left
  | _ => 0

def Pc.stopDet : Pc → Bool
  | .read irq _ | .txflr irq | .rxflr irq _ | .loop irq _ _ | .complete irq => irq.stopDet
  | .start | .idle => false

def Master.pending (s : Master) : List DataCmd := s.shift.toList ++ s.txFifo

def Master.inflight (s : Master) : ℕ := s.pending.countP isRead

structure Levels (cfg : Config) (s : Master) : Prop where
  start : s.pc = .start → s.txFifo = []
  tx : s.txflr ≤ cfg.txFifoDepth
  room : (s.txflr : ℤ) + s.pc.wlimit ≤ cfg.txFifoDepth
  rx : s.inflight + s.rxFifo.length ≤ s.adap.msg.outstanding
  bound : s.adap.msg.outstanding ≤ cfg.rxFifoDepth
  left : s.pc.left ≤ s.rxFifo.length

structure Stored (msg : Kmsg) (s : Master) : Prop where
  rlen : s.adap.msg.rlen = msg.rlen
  stored : msg.flags.rd = true → ∃ buf, s.adap.msg.rbuf = some buf ∧
    (List.range s.adap.msg.rcnt).map buf ++ s.rxFifo = s.answered
  counts : s.adap.msg.rcnt + s.adap.msg.outstanding = s.written.length - msg.wlen

/-- The end of the transfer is seen, and reported, after the last word only. -/
structure Ends (total : ℕ) (s : Master) : Prop where
  pending : ∀ word ∈ s.pending, word ∈ s.written
  quick : s.quick = true → total = 0
  stop : s.stopDet = true → s.txAbrt = true ∨ s.adap.cmdError ≠ [] ∨ s.written.length = total
  seen : s.pc.stopDet = true → s.adap.cmdError ≠ [] ∨ s.written.length = total
  complete : s.adap.wait4Completion = false → s.adap.cmdError ≠ [] ∨ s.adap.msgError = true ∨
    (s.written.length = total ∧ s.adap.msg.outstanding = 0)
  success : s.result = some 0 → s.written.length = total ∧ s.adap.msg.outstanding = 0

structure Inv (cfg : Config) (msg : Kmsg) (reads avail : ℕ) (s : Master) : Prop where
  progress : Progress msg reads avail s.adap s.written
  levels : Levels cfg s
  stored : Stored msg s
  ends : Ends (msg.wlen + reads) s

variable {cfg : Config} {msg : Kmsg} {reads avail : ℕ} {s s' : Master} {irq : IrqStatus}

/-! ## The controller -/

theorem pending_fetch {word : DataCmd} {rest : List DataCmd} (hshift : s.shift = none)
    (hfifo : s.txFifo = word :: rest) :
    ({ s with shift := some word, txFifo := rest } : Master).pending = s.pending := by
  unfold Master.pending
  rw [hshift, hfifo]
  rfl

theorem Inv.fetch {word : DataCmd} {rest : List DataCmd} (h : Inv cfg msg reads avail s)
    (hshift : s.shift = none) (hfifo : s.txFifo = word :: rest) :
    Inv cfg msg reads avail { s with shift := some word, txFifo := rest } := by
  have hpending := pending_fetch hshift hfifo
  have hlevel : ({ s with shift := some word, txFifo := rest } : Master).txflr ≤ s.txflr := by
    unfold Master.txflr
    simp only [hfifo, List.length_cons]
    omega
  have hroom := h.levels.room
  have hrx := h.levels.rx
  refine ⟨h.progress, { h.levels with start := ?_, tx := ?_, room := ?_, rx := ?_ },
    ⟨h.stored.rlen, h.stored.stored, h.stored.counts⟩, { h.ends with pending := ?_ }⟩
  · intro hpc
    have hempty := h.levels.start hpc
    rw [hfifo] at hempty
    cases hempty
  · exact hlevel.trans h.levels.tx
  · simp only
    omega
  · unfold Master.inflight at hrx ⊢
    rw [hpending]
    exact hrx
  · rw [hpending]
    exact h.ends.pending

theorem Inv.execute {word : DataCmd} (h : Inv cfg msg reads avail s) (hwf : WellFormed msg reads)
    (hshift : s.shift = some word) (val : Byte) :
    Inv cfg msg reads avail
      { s with
        shift := none
        rxFifo := s.rxFifo ++ if isRead word then [val] else []
        answered := s.answered ++ if isRead word then [val] else []
        stopDet := s.stopDet || hasStop word } := by
  have hpending : s.pending = word :: s.txFifo := by
    unfold Master.pending
    rw [hshift]
    rfl
  have hcount : s.inflight = s.txFifo.countP isRead + if isRead word then 1 else 0 := by
    unfold Master.inflight
    rw [hpending, List.countP_cons]
  have hrx := h.levels.rx
  have hleft := h.levels.left
  have hlength : (if isRead word then [val] else []).length = if isRead word then 1 else 0 := by
    split <;> rfl
  refine ⟨h.progress, { h.levels with rx := ?_, left := ?_ },
    ⟨h.stored.rlen, ?_, h.stored.counts⟩, { h.ends with pending := ?_, stop := ?_ }⟩
  · show s.txFifo.countP isRead + (s.rxFifo ++ if isRead word then [val] else []).length ≤ _
    rw [List.length_append, hlength]
    show _ ≤ s.adap.msg.outstanding
    omega
  · simp only [List.length_append]
    omega
  · intro hrd
    obtain ⟨buf, hbuf, hstored⟩ := h.stored.stored hrd
    refine ⟨buf, hbuf, ?_⟩
    simp only
    rw [← List.append_assoc, hstored]
  · intro w hw
    exact h.ends.pending w (by rw [hpending]; exact List.mem_cons_of_mem _ hw)
  · intro hstop
    cases hold : s.stopDet with
    | true => exact h.ends.stop hold
    | false =>
      right
      right
      have hhas : hasStop word = true := by
        simpa [hold] using hstop
      have hmem := h.ends.pending word (by rw [hpending]; exact List.mem_cons_self)
      obtain ⟨n, hn⟩ := List.mem_iff_getElem?.mp hmem
      have hlt := (List.getElem?_eq_some_iff.mp hn).1
      rw [h.progress.taken, List.getElem?_take_of_lt hlt] at hn
      rw [hasStop_stream hwf.write hwf.read hn, decide_eq_true_eq] at hhas
      have hcount := h.progress.count
      have havail := h.progress.avail_le
      show s.written.length = _
      omega

theorem Inv.quick (h : Inv cfg msg reads avail s) (hquick : s.quick = true) :
    Inv cfg msg reads avail { s with quick := false, stopDet := true } := by
  have htx := h.levels.tx
  have hroom := h.levels.room
  have hcount := h.progress.count
  have havail := h.progress.avail_le
  have htotal := h.ends.quick hquick
  have hlevel : ({ s with quick := false, stopDet := true } : Master).txflr ≤ s.txflr :=
    Nat.le_add_right _ _
  refine ⟨h.progress, { h.levels with tx := hlevel.trans htx, room := ?_ },
    ⟨h.stored.rlen, h.stored.stored, h.stored.counts⟩, { h.ends with quick := ?_, stop := ?_ }⟩
  · simp only
    omega
  · intro hq
    cases hq
  · intro _
    right
    right
    show s.written.length = _
    omega

theorem Inv.abort (h : Inv cfg msg reads avail s) (arbLost stop : Bool) :
    Inv cfg msg reads avail
      { s with
        txFifo := []
        shift := none
        quick := false
        txAbrt := true
        arbLost := arbLost
        stopDet := s.stopDet || stop } := by
  have hroom := h.levels.room
  have hrx := h.levels.rx
  have hlevel : (Master.txflr
      { s with
        txFifo := []
        shift := none
        quick := false
        txAbrt := true
        arbLost := arbLost
        stopDet := s.stopDet || stop }) = 0 := rfl
  refine ⟨h.progress, { h.levels with start := ?_, tx := ?_, room := ?_, rx := ?_ },
    ⟨h.stored.rlen, h.stored.stored, h.stored.counts⟩,
    { h.ends with pending := ?_, quick := ?_, stop := ?_ }⟩
  · exact fun _ => rfl
  · rw [hlevel]
    exact Nat.zero_le _
  · rw [hlevel]
    simp only [Nat.cast_zero]
    omega
  · show 0 + s.rxFifo.length ≤ s.adap.msg.outstanding
    omega
  · intro w hw
    cases hw
  · intro hq
    cases hq
  · exact fun _ => Or.inl rfl

/-! ## The waiting side -/

theorem xferResult_zero {a : Adapter} {waitRet : ℤ} (h : i2cDwMasterXferResult a waitRet = 0) :
    a.msgError = false ∧ a.cmdError = [] ∧ a.wait4Completion = false := by
  unfold i2cDwMasterXferResult at h
  split at h
  next => cases h
  next hmsg =>
    split at h
    next =>
      split at h
      next => cases h
      next =>
        split at h
        next => cases h
        next => cases h
    next hcmd =>
      split at h
      next => cases h
      next hstatus =>
        exact ⟨Bool.not_eq_true _ ▸ hmsg, not_not.mp hcmd,
          Bool.not_eq_true _ ▸ (not_or.mp (not_or.mp hstatus).2).2⟩

theorem Inv.addError (h : Inv cfg msg reads avail s) (errors : List CmdError) :
    Inv cfg msg reads avail (s.addError errors) := by
  refine ⟨h.progress.congr rfl rfl rfl rfl rfl rfl, { h.levels with },
    ⟨h.stored.rlen, h.stored.stored, h.stored.counts⟩,
    { h.ends with stop := ?_, seen := ?_, complete := ?_ }⟩
  · intro hstop
    exact (h.ends.stop hstop).imp_right
      (Or.imp_left fun hne hnil => hne (List.append_eq_nil_iff.mp hnil).1)
  · intro hstop
    exact (h.ends.seen hstop).imp_left fun hne hnil => hne (List.append_eq_nil_iff.mp hnil).1
  · intro hwait
    exact (h.ends.complete hwait).imp_left fun hne hnil => hne (List.append_eq_nil_iff.mp hnil).1

theorem Inv.disable (h : Inv cfg msg reads avail s) (hpc : s.pc = .start) (hresult : s.result = none)
    (hquick : quickCmd s.adap.msg = true → msg.wlen + reads = 0) :
    Inv cfg msg reads avail { s with quick := quickCmd s.adap.msg, pc := .idle } := by
  have hempty := h.levels.start hpc
  have hpos := cfg.txFifoDepth_pos
  have hlevel : Master.txflr { s with quick := quickCmd s.adap.msg, pc := .idle } ≤ 1 := by
    unfold Master.txflr
    simp only [hempty, List.length_nil]
    split <;> omega
  refine ⟨h.progress, ⟨?_, ?_, ?_, h.levels.rx, h.levels.bound, Nat.zero_le _⟩,
    ⟨h.stored.rlen, h.stored.stored, h.stored.counts⟩,
    { h.ends with quick := hquick, seen := ?_, success := ?_ }⟩
  · intro hstart
    cases hstart
  · omega
  · show _ + (0 : ℤ) ≤ _
    omega
  · intro hstop
    cases hstop
  · intro hzero
    rw [hresult] at hzero
    cases hzero

theorem Inv.finish (h : Inv cfg msg reads avail s) (waitRet : ℤ) :
    Inv cfg msg reads avail
      { s with result := some (i2cDwMasterXferResult s.adap waitRet) } := by
  refine ⟨h.progress, { h.levels with }, ⟨h.stored.rlen, h.stored.stored, h.stored.counts⟩,
    { h.ends with success := ?_ }⟩
  intro hzero
  obtain ⟨hmsg, hcmd, hwait⟩ := xferResult_zero (Option.some.inj hzero)
  rcases h.ends.complete hwait with herror | herror | hdone
  · exact absurd hcmd herror
  · rw [hmsg] at herror
    cases herror
  · exact hdone

theorem Inv.goto (h : Inv cfg msg reads avail s) (pc : Pc) (hstart : pc ≠ .start)
    (hroom : (s.txflr : ℤ) + pc.wlimit ≤ cfg.txFifoDepth) (hleft : pc.left ≤ s.rxFifo.length)
    (hseen : pc.stopDet = true → s.adap.cmdError ≠ [] ∨ s.written.length = msg.wlen + reads) :
    Inv cfg msg reads avail { s with pc := pc } :=
  ⟨h.progress, ⟨fun hpc => absurd hpc hstart, h.levels.tx, hroom, h.levels.rx, h.levels.bound,
    hleft⟩, ⟨h.stored.rlen, h.stored.stored, h.stored.counts⟩, { h.ends with seen := hseen }⟩

theorem Inv.gotoPlain (h : Inv cfg msg reads avail s) (pc : Pc) (hstart : pc ≠ .start)
    (hlimit : pc.wlimit = 0) (hleft : pc.left ≤ s.rxFifo.length)
    (hseen : pc.stopDet = true → s.adap.cmdError ≠ [] ∨ s.written.length = msg.wlen + reads) :
    Inv cfg msg reads avail { s with pc := pc } := by
  have htx := h.levels.tx
  refine h.goto pc hstart ?_ hleft hseen
  rw [hlimit]
  omega

theorem Inv.afterRead (h : Inv cfg msg reads avail s)
    (hseen : irq.stopDet = true → s.adap.cmdError ≠ [] ∨ s.written.length = msg.wlen + reads) :
    Inv cfg msg reads avail (s.afterRead irq) := by
  unfold Master.afterRead
  split
  next => exact h.gotoPlain (.txflr irq) (by intro hc; cases hc) rfl (Nat.zero_le _) hseen
  next => exact h.gotoPlain (.complete irq) (by intro hc; cases hc) rfl (Nat.zero_le _) hseen

theorem irqErrors_txAbrt (htx : irq.txAbrt = true) :
    i2cDwMasterIrqErrors true true irq = [.txAbrt] := by
  have hactive : irq.active = true := by
    unfold IrqStatus.active
    rw [htx]
    simp
  unfold i2cDwMasterIrqErrors
  rw [hactive, htx]
  rfl

theorem Inv.rcIntrbits (h : Inv cfg msg reads avail s)
    (hseen : irq.txAbrt = true → s.adap.cmdError ≠ []) :
    Inv cfg msg reads avail (s.rcIntrbits irq) := by
  refine ⟨h.progress.congr rfl rfl rfl rfl rfl rfl, { h.levels with },
    ⟨h.stored.rlen, h.stored.stored, h.stored.counts⟩, { h.ends with stop := ?_ }⟩
  intro hraw
  have hraw' : (s.stopDet && !irq.stopDet) = true := hraw
  have hstop := h.ends.stop (Bool.and_eq_true_iff.mp hraw').1
  cases htx : irq.txAbrt with
  | true => exact Or.inr (Or.inl (hseen htx))
  | false =>
    refine hstop.imp_left fun hraw => ?_
    show (s.txAbrt && !irq.txAbrt) = true
    rw [hraw, htx]
    rfl

theorem Inv.irqHandler (h : Inv cfg msg reads avail s) (htx : irq.txAbrt = s.txAbrt)
    (hstop : irq.stopDet = true → s.stopDet = true) :
    Inv cfg msg reads avail ((s.rcIntrbits irq).irqHandler irq) := by
  cases habrt : irq.txAbrt with
  | true =>
    have herr : (s.addError [.txAbrt]).adap.cmdError ≠ [] := List.append_ne_nil_of_right_ne_nil _ (by simp)
    have hinv : Inv cfg msg reads avail ((s.addError [.txAbrt]).rcIntrbits irq) :=
      (h.addError [.txAbrt]).rcIntrbits fun _ => herr
    have hgoto := hinv.gotoPlain (.complete irq) (by intro hc; cases hc) rfl (Nat.zero_le _)
      fun _ => Or.inl herr
    unfold Master.irqHandler
    rw [irqErrors_txAbrt habrt]
    exact hgoto
  | false =>
    have hinv : Inv cfg msg reads avail (s.rcIntrbits irq) :=
      h.rcIntrbits fun hc => by rw [habrt] at hc; cases hc
    have hseen : irq.stopDet = true →
        (s.rcIntrbits irq).adap.cmdError ≠ [] ∨ s.written.length = msg.wlen + reads := by
      intro hirq
      refine (h.ends.stop (hstop hirq)).resolve_left fun hc => ?_
      rw [← htx, habrt] at hc
      cases hc
    unfold Master.irqHandler
    simp only
    split
    next herr =>
      exact (hinv.addError _).gotoPlain (.complete irq) (by intro hc; cases hc) rfl
        (Nat.zero_le _) fun _ => Or.inl (List.append_ne_nil_of_right_ne_nil _ herr)
    next =>
      split
      next =>
        split
        next =>
          exact (hinv.addError _).gotoPlain (.complete irq) (by intro hc; cases hc) rfl
            (Nat.zero_le _) fun _ => Or.inl (List.append_ne_nil_of_right_ne_nil _ (by simp))
        next =>
          exact hinv.gotoPlain (.read irq _) (by intro hc; cases hc) rfl (le_refl _) hseen
      next => exact hinv.afterRead hseen

theorem Inv.readEnd (h : Inv cfg msg reads avail s) {left : ℕ} (hpc : s.pc = .read irq left) :
    Inv cfg msg reads avail (s.readEnd irq) := by
  have hinv : Inv cfg msg reads avail
      { s with adap := { s.adap with readInProgress := 0 < s.adap.msg.cmdLen } } :=
    ⟨h.progress.congr rfl rfl rfl rfl rfl rfl, { h.levels with },
      ⟨h.stored.rlen, h.stored.stored, h.stored.counts⟩, { h.ends with }⟩
  refine hinv.afterRead fun hstop => h.ends.seen ?_
  rw [hpc]
  exact hstop

theorem Inv.xferMsgEnd (h : Inv cfg msg reads avail s)
    (hseen : irq.stopDet = true → s.adap.cmdError ≠ [] ∨ s.written.length = msg.wlen + reads) :
    Inv cfg msg reads avail (s.xferMsgEnd irq) := by
  have hinv : Inv cfg msg reads avail
      { s with adap := { s.adap with
          writeInProgress := decide (0 < s.adap.msg.cmdLen) || s.adap.msg.flags.recvLen } } :=
    ⟨h.progress.congr rfl rfl rfl rfl rfl rfl, { h.levels with },
      ⟨h.stored.rlen, h.stored.stored, h.stored.counts⟩, { h.ends with }⟩
  exact hinv.gotoPlain (.complete irq) (by intro hc; cases hc) rfl (Nat.zero_le _) hseen

theorem Inv.write (h : Inv cfg msg reads avail s) {a : Adapter} {word : DataCmd} {pc : Pc}
    (hpos : 0 < s.adap.msg.cmdLen)
    (hprogress : Progress msg reads avail a.decCmdLen (s.written ++ [word]))
    (hmsg : a.msg.rcnt = s.adap.msg.rcnt ∧ a.msg.rlen = s.adap.msg.rlen ∧
      a.msg.rbuf = s.adap.msg.rbuf)
    (hsame : a.cmdError = s.adap.cmdError ∧ a.msgError = s.adap.msgError ∧
      a.wait4Completion = s.adap.wait4Completion)
    (hout : a.msg.outstanding = s.adap.msg.outstanding + if isRead word then 1 else 0)
    (hbound : a.msg.outstanding ≤ cfg.rxFifoDepth)
    (hcounts : s.adap.msg.rcnt + a.msg.outstanding = s.written.length + 1 - msg.wlen)
    (hstart : pc ≠ .start) (htx : s.txflr + 1 ≤ cfg.txFifoDepth)
    (hroom : (s.txflr : ℤ) + 1 + pc.wlimit ≤ cfg.txFifoDepth)
    (hleft : pc.left = 0) (hseen : pc.stopDet = s.pc.stopDet) :
    Inv cfg msg reads avail { s.write [word] with adap := a.decCmdLen, pc := pc } := by
  obtain ⟨hrcnt, hrlen, hrbuf⟩ := hmsg
  obtain ⟨hcmd, hmsgError, hwait⟩ := hsame
  have hcount := h.progress.count
  have havail := h.progress.avail_le
  have hnot : s.written.length ≠ msg.wlen + reads := by omega
  have hrx := h.levels.rx
  have hfifo : ∃ ws, (s.write [word]).pending = s.pending ++ ws ∧ (ws = [] ∨ ws = [word]) ∧
      (s.write [word]).txflr = s.txflr + ws.length := by
    refine ⟨if s.txAbrt then [] else [word], ?_, ?_, ?_⟩
    · simp only [Master.pending, Master.write, List.append_assoc]
    · split
      · exact Or.inl rfl
      · exact Or.inr rfl
    · simp only [Master.txflr, Master.write, List.length_append]
      exact Nat.add_right_comm _ _ _
  obtain ⟨ws, hpending, hws, hlevel⟩ := hfifo
  have hlength : ws.length ≤ 1 := by
    rcases hws with rfl | rfl <;> simp
  have hreads : ws.countP isRead ≤ if isRead word then 1 else 0 := by
    rcases hws with rfl | rfl
    · exact Nat.zero_le _
    · simp
  refine ⟨hprogress, ⟨fun hpc => absurd hpc hstart, ?_, ?_, ?_, hbound, ?_⟩,
    ⟨hrlen.trans h.stored.rlen, ?_, ?_⟩,
    ⟨?_, fun hquick => h.ends.quick hquick, ?_, ?_, ?_, ?_⟩⟩
  · show (s.write [word]).txflr ≤ _
    omega
  · show ((s.write [word]).txflr : ℤ) + pc.wlimit ≤ _
    omega
  · show (s.write [word]).pending.countP isRead + s.rxFifo.length ≤ a.msg.outstanding
    unfold Master.inflight at hrx
    rw [hpending, List.countP_append]
    omega
  · rw [hleft]
    exact Nat.zero_le _
  · intro hrd
    obtain ⟨buf, hbuf, hstored⟩ := h.stored.stored hrd
    refine ⟨buf, hrbuf.trans hbuf, ?_⟩
    show (List.range a.msg.rcnt).map buf ++ s.rxFifo = s.answered
    rw [hrcnt, hstored]
  · show a.msg.rcnt + a.msg.outstanding = (s.written ++ [word]).length - msg.wlen
    rw [hrcnt, List.length_append, hcounts]
    rfl
  · intro w hw
    have hw' : w ∈ (s.write [word]).pending := hw
    show w ∈ s.written ++ [word]
    rw [hpending] at hw'
    rcases List.mem_append.mp hw' with hold | hnew
    · exact List.mem_append_left _ (h.ends.pending w hold)
    · rcases hws with rfl | rfl
      · cases hnew
      · exact List.mem_append_right _ hnew
  · intro hstop
    refine (h.ends.stop hstop).imp_right fun hrest => Or.inl ?_
    show a.cmdError ≠ []
    rw [hcmd]
    exact hrest.resolve_right hnot
  · intro hstop
    left
    show a.cmdError ≠ []
    rw [hcmd]
    exact (h.ends.seen (hseen ▸ hstop)).resolve_right hnot
  · intro hdone
    have hdone' : a.wait4Completion = false := hdone
    rw [hwait] at hdone'
    rcases h.ends.complete hdone' with herr | herr | hall
    · exact Or.inl (hcmd.symm ▸ herr)
    · exact Or.inr (Or.inl (hmsgError.trans herr))
    · exact absurd hall.1 hnot
  · intro hzero
    exact absurd (h.ends.success hzero).1 hnot

theorem Inv.xferMsgStep (h : Inv cfg msg reads avail s) (hwf : WellFormed msg reads)
    {wlimit rlimit : ℤ} (hpc : s.pc = .loop irq wlimit rlimit) :
    Inv cfg msg reads avail (s.xferMsgStep cfg irq wlimit rlimit) := by
  have hseen : irq.stopDet = true →
      s.adap.cmdError ≠ [] ∨ s.written.length = msg.wlen + reads := by
    intro hstop
    refine h.ends.seen ?_
    rw [hpc]
    exact hstop
  have hroom := h.levels.room
  rw [hpc] at hroom
  have hroom' : (s.txflr : ℤ) + wlimit ≤ cfg.txFifoDepth := hroom
  unfold Master.xferMsgStep
  split
  next hguard =>
    obtain ⟨hpos, hw, -⟩ := hguard
    have hcases := msgByte_cases cfg s.adap
    have hcounts := h.stored.counts
    generalize i2cDwMasterIrqXferMsgByte cfg s.adap = byte at hcases
    cases hcases with
    | stop => exact h.xferMsgEnd hseen
    | write hlt =>
      have hshort := h.progress.short hlt
      have hbyte : MsgByte cfg s.adap _ := MsgByte.write hlt
      refine h.write hpos (h.progress.msgByte hwf hpos hbyte (by decide))
        ⟨rfl, rfl, rfl⟩ ⟨rfl, rfl, rfl⟩ ?_ h.levels.bound ?_ (by intro hc; cases hc) (by omega)
        (by simp only [Pc.wlimit]; omega) rfl ?_
      · rw [isRead_writeWord]
        rfl
      · simp only
        omega
      · rw [hpc]
        rfl
    | read hle hrd hout =>
      have hlong := h.progress.long hwf hle
      refine h.write hpos
        (h.progress.msgByte hwf hpos (MsgByte.read hle hrd hout) (by decide))
        ⟨rfl, rfl, rfl⟩ ⟨rfl, rfl, rfl⟩ ?_ hout ?_ (by intro hc; cases hc) (by omega)
        (by simp only [Pc.wlimit]; omega) rfl ?_
      · rw [isRead_readWord]
        rfl
      · simp only
        omega
      · rw [hpc]
        rfl
  next => exact h.xferMsgEnd hseen

theorem exists_errors (s : Master) : ∃ errors,
    (let t := if s.txflr ≠ 0 then s.addError [.txUnfinished] else s
     let t := if t.rxFifo.length ≠ 0 then t.addError [.rxUnfinished1] else t
     if t.adap.msg.outstanding ≠ 0 then t.addError [.rxUnfinished2] else t) = s.addError errors ∧
      (s.adap.msg.outstanding ≠ 0 → errors ≠ []) := by
  have hnil : ∀ t : Master, t.addError [] = t := by
    intro t
    simp [Master.addError]
  have hadd : ∀ (t : Master) (p : Prop) [Decidable p] (e : CmdError), ∃ errors,
      (if p then t.addError [e] else t) = t.addError errors ∧ (p → errors ≠ []) := by
    intro t p _ e
    by_cases hp : p
    · exact ⟨[e], if_pos hp, fun _ => List.cons_ne_nil _ _⟩
    · exact ⟨[], by rw [if_neg hp, hnil], fun h => absurd h hp⟩
  have hjoin : ∀ (t : Master) (l l' : List CmdError),
      (t.addError l).addError l' = t.addError (l ++ l') := by
    intro t l l'
    simp [Master.addError]
  obtain ⟨l₁, h₁, -⟩ := hadd s (s.txflr ≠ 0) .txUnfinished
  obtain ⟨l₂, h₂, -⟩ := hadd (s.addError l₁) ((s.addError l₁).rxFifo.length ≠ 0) .rxUnfinished1
  obtain ⟨l₃, h₃, hne⟩ := hadd ((s.addError l₁).addError l₂)
    (((s.addError l₁).addError l₂).adap.msg.outstanding ≠ 0) .rxUnfinished2
  refine ⟨l₁ ++ l₂ ++ l₃, ?_, fun hout => List.append_ne_nil_of_right_ne_nil _ (hne hout)⟩
  simp only
  rw [h₁, h₂, h₃, hjoin, hjoin, List.append_assoc]

theorem Inv.irqXferComplete (h : Inv cfg msg reads avail s) (hpc : s.pc = .complete irq) :
    Inv cfg msg reads avail (s.irqXferComplete irq) := by
  unfold Master.irqXferComplete
  split
  next hguard =>
    obtain ⟨errors, heq, hne⟩ := exists_errors s
    simp only at heq ⊢
    rw [heq]
    have hinv := (h.addError errors).gotoPlain .idle (by intro hc; cases hc) rfl (Nat.zero_le _)
      (by intro hc; cases hc)
    refine ⟨hinv.progress.congr rfl rfl rfl rfl rfl rfl, { hinv.levels with },
      ⟨hinv.stored.rlen, hinv.stored.stored, hinv.stored.counts⟩,
      { hinv.ends with complete := ?_ }⟩
    intro _
    show s.adap.cmdError ++ errors ≠ [] ∨ s.adap.msgError = true ∨
      (s.written.length = msg.wlen + reads ∧ s.adap.msg.outstanding = 0)
    by_cases hout : s.adap.msg.outstanding = 0
    · rcases hguard with hstop | herr | herr
      · have hseen := h.ends.seen (by rw [hpc]; exact hstop)
        exact hseen.imp (List.append_ne_nil_of_left_ne_nil · _) fun hall => Or.inr ⟨hall, hout⟩
      · exact Or.inl (List.append_ne_nil_of_left_ne_nil herr _)
      · exact Or.inr (Or.inl herr)
    · exact Or.inl (List.append_ne_nil_of_right_ne_nil _ (hne hout))
  next =>
    exact h.gotoPlain .idle (by intro hc; cases hc) rfl (Nat.zero_le _) (by intro hc; cases hc)

theorem map_update_range (buf : ℕ → Byte) (n : ℕ) (val : Byte) :
    (List.range (n + 1)).map (Function.update buf n val) = (List.range n).map buf ++ [val] := by
  rw [List.range_succ, List.map_append, List.map_singleton, Function.update_self]
  congr 1
  refine List.map_congr_left fun i hi => Function.update_of_ne ?_ _ _
  exact (List.mem_range.mp hi).ne

theorem Inv.irqReadByte (h : Inv cfg msg reads avail s) (hwf : WellFormed msg reads)
    {left : ℕ} {val : Byte} {rest : List Byte} (hpc : s.pc = .read irq (left + 1))
    (hfifo : s.rxFifo = val :: rest) (hrecv : s.adap.msg.flags.recvLen = false)
    (hfit : reads ≤ msg.rlen) :
    Inv cfg msg reads avail
      { s with
        adap := (irqReadByte cfg s.adap val).2
        rxFifo := rest
        pc := .read irq (if (irqReadByte cfg s.adap val).1 then left else 0) } := by
  have hcount := h.progress.count
  have havail := h.progress.avail_le
  have hcounts := h.stored.counts
  have hrx := h.levels.rx
  have hleft := h.levels.left
  have hbound := h.levels.bound
  rw [hfifo, List.length_cons] at hrx hleft
  rw [hpc] at hleft
  simp only [Pc.left] at hleft
  have hrd : msg.flags.rd = true := by
    by_contra hne
    have := hwf.write (Bool.not_eq_true _ ▸ hne)
    omega
  obtain ⟨buf, hbuf, hstored⟩ := h.stored.stored hrd
  have hroom : ¬ s.adap.msg.rlen ≤ s.adap.msg.rcnt := by
    rw [h.stored.rlen]
    omega
  have hr : s.adap.msg.r = buf := by
    unfold Kmsg.r
    rw [hbuf]
    rfl
  have hread : HiMpu.I2cMaster.irqReadByte cfg s.adap val =
      (true, { s.adap with msg := { s.adap.msg with
        outstanding := s.adap.msg.outstanding - 1
        rbuf := some (Function.update buf s.adap.msg.rcnt val)
        rcnt := s.adap.msg.rcnt + 1 } }) := by
    unfold HiMpu.I2cMaster.irqReadByte
    simp only
    rw [if_neg hroom, if_pos (by rw [hrecv]; rfl), ← hr]
    rfl
  rw [hread]
  refine ⟨h.progress.congr rfl rfl rfl rfl rfl rfl, ⟨?_, h.levels.tx, ?_, ?_, ?_, ?_⟩,
    ⟨h.stored.rlen, fun _ => ⟨_, rfl, ?_⟩, ?_⟩, { h.ends with seen := ?_, complete := ?_, success := ?_ }⟩
  · intro hc
    cases hc
  · have htx := h.levels.tx
    show (s.txflr : ℤ) + 0 ≤ _
    omega
  · show s.inflight + rest.length ≤ s.adap.msg.outstanding - 1
    omega
  · show s.adap.msg.outstanding - 1 ≤ _
    omega
  · exact Nat.le_of_succ_le_succ hleft
  · simp only
    rw [map_update_range, List.append_assoc, ← hstored, hfifo]
    rfl
  · show s.adap.msg.rcnt + 1 + (s.adap.msg.outstanding - 1) = s.written.length - msg.wlen
    omega
  · intro hstop
    refine h.ends.seen ?_
    rw [hpc]
    exact hstop
  · intro hdone
    refine (h.ends.complete hdone).imp_right (Or.imp_right fun hall => ⟨hall.1, ?_⟩)
    show s.adap.msg.outstanding - 1 = 0
    omega
  · intro hzero
    refine ⟨(h.ends.success hzero).1, ?_⟩
    have hout := (h.ends.success hzero).2
    show s.adap.msg.outstanding - 1 = 0
    omega

/-! ## What no step changes -/

structure Kept (msg : Kmsg) (a : Adapter) : Prop where
  msgFlags : a.msgFlags = msg.flags
  flags : a.msg.flags = { msg.flags with recvLen := a.msg.flags.recvLen }
  recvLen : a.msg.flags.recvLen = true → msg.flags.recvLen = true
  protocol : a.msg.protocol = msg.protocol
  wlen : a.msg.wlen = msg.wlen
  wbuf : a.msg.wbuf = msg.wbuf
  rlen : a.msg.rlen = msg.rlen
  rbuf : msg.flags.rd = true → a.msg.rbuf.isSome

variable {a a' : Adapter} {quirks : Quirks}

theorem Kept.congr (h : Kept msg a) (hflags : a'.msgFlags = a.msgFlags) (hmsg : a'.msg = a.msg) :
    Kept msg a' := by
  refine ⟨hflags.trans h.msgFlags, ?_, ?_, ?_, ?_, ?_, ?_, ?_⟩
  · rw [hmsg]
    exact h.flags
  · rw [hmsg]
    exact h.recvLen
  · rw [hmsg, h.protocol]
  · rw [hmsg, h.wlen]
  · rw [hmsg, h.wbuf]
  · rw [hmsg, h.rlen]
  · rw [hmsg]
    exact h.rbuf

theorem Kept.msgByte {code : MasterCode} {ws : List DataCmd} (h : Kept msg a)
    (hbyte : MsgByte cfg a (code, a', ws)) : Kept msg a' ∧ Kept msg a'.decCmdLen := by
  cases hbyte with
  | stop => exact ⟨h, { h with }⟩
  | write => exact ⟨{ h with }, { h with }⟩
  | read => exact ⟨{ h with }, { h with }⟩

theorem Kept.irqReadByte (h : Kept msg a) (val : Byte) : Kept msg (irqReadByte cfg a val).2 := by
  unfold HiMpu.I2cMaster.irqReadByte
  simp only
  split
  next => exact { h with }
  next =>
    split
    next => exact { h with rbuf := fun _ => rfl }
    next =>
      refine ⟨h.msgFlags, ?_, ?_, h.protocol, h.wlen, h.wbuf, h.rlen, fun _ => rfl⟩
      · simp only [i2cDwMasterRecvLength]
        rw [h.flags]
      · intro hc
        cases hc

theorem Kept.afterRead (h : Kept msg s.adap) : Kept msg (s.afterRead irq).adap := by
  unfold Master.afterRead
  split
  next => exact h
  next => exact h

theorem Kept.irqHandler (h : Kept msg s.adap) :
    Kept msg ((s.rcIntrbits irq).irqHandler irq).adap := by
  have hread : Kept msg (s.rcIntrbits irq).adap := h.congr rfl rfl
  unfold Master.irqHandler
  simp only
  split
  next => exact hread.congr rfl rfl
  next =>
    split
    next =>
      split
      next => exact hread.congr rfl rfl
      next => exact hread
    next => exact hread.afterRead

theorem Kept.irqXferComplete (h : Kept msg s.adap) : Kept msg (s.irqXferComplete irq).adap := by
  unfold Master.irqXferComplete
  split
  next =>
    obtain ⟨errors, heq, -⟩ := exists_errors s
    simp only at heq ⊢
    rw [heq]
    exact h.congr rfl rfl
  next => exact h

theorem Kept.xferMsgStep {wlimit rlimit : ℤ} (h : Kept msg s.adap) :
    Kept msg (s.xferMsgStep cfg irq wlimit rlimit).adap := by
  unfold Master.xferMsgStep
  split
  next =>
    have hcases := msgByte_cases cfg s.adap
    generalize i2cDwMasterIrqXferMsgByte cfg s.adap = byte at hcases
    obtain ⟨code, a, ws⟩ := byte
    have hkept := h.msgByte hcases
    cases code with
    | masterBreak => exact hkept.1.congr rfl rfl
    | masterContinue => exact hkept.2
    | masterNext => exact hkept.2
  next => exact h.congr rfl rfl

theorem Kept.cpu (h : Kept msg s.adap) (hstep : s.cpu cfg = some s') : Kept msg s'.adap := by
  unfold Master.cpu at hstep
  split at hstep
  next => cases hstep
  next => cases hstep
  next =>
    cases hstep
    exact Kept.afterRead (h.congr rfl rfl)
  next =>
    split at hstep
    next => cases hstep
    next =>
      cases hstep
      exact h.irqReadByte _
  next =>
    cases hstep
    exact h
  next =>
    cases hstep
    exact h
  next =>
    cases hstep
    exact h.xferMsgStep
  next =>
    cases hstep
    exact h.irqXferComplete

theorem Kept.tryXfer (h : Kept msg s.adap) : Kept msg s.tryXfer.adap := by
  refine ⟨h.msgFlags, ?_, ?_, h.protocol, h.wlen, h.wbuf, h.rlen, h.rbuf⟩
  · show s.adap.msgFlags = { msg.flags with recvLen := s.adap.msgFlags.recvLen }
    rw [h.msgFlags]
  · show s.adap.msgFlags.recvLen = true → _
    rw [h.msgFlags]
    exact id

theorem Kept.next {act : Action} (h : Kept msg s.adap) (hstep : next cfg s act = some s') :
    Kept msg s'.adap := by
  cases act with
  | disable ok =>
    simp only [HiMpu.I2cMaster.next] at hstep
    split at hstep
    next =>
      split at hstep
      next =>
        cases hstep
        exact h
      next =>
        cases hstep
        exact h.congr rfl rfl
    next => cases hstep
  | irq irq =>
    simp only [HiMpu.I2cMaster.next] at hstep
    split at hstep
    next =>
      cases hstep
      exact h.irqHandler
    next => cases hstep
  | cpu => exact h.cpu hstep
  | fetch =>
    simp only [HiMpu.I2cMaster.next] at hstep
    split at hstep
    next =>
      cases hstep
      exact h
    next => cases hstep
  | execute val =>
    simp only [HiMpu.I2cMaster.next] at hstep
    split at hstep
    next => cases hstep
    next =>
      cases hstep
      exact h
  | quick =>
    simp only [HiMpu.I2cMaster.next] at hstep
    split at hstep
    next =>
      cases hstep
      exact h
    next => cases hstep
  | abort arbLost stop =>
    simp only [HiMpu.I2cMaster.next] at hstep
    split at hstep
    next =>
      cases hstep
      exact h
    next => cases hstep
  | finish waitRet =>
    simp only [HiMpu.I2cMaster.next] at hstep
    split at hstep
    next =>
      cases hstep
      split
      next => exact h.congr rfl rfl
      next => exact h
    next => cases hstep
  | retry =>
    simp only [HiMpu.I2cMaster.next] at hstep
    split at hstep
    next =>
      cases hstep
      exact h.tryXfer
    next => cases hstep

theorem Inv.cpu (h : Inv cfg msg reads avail s) (hwf : WellFormed msg reads)
    (hread : s.pc.left ≠ 0 → s.adap.msg.flags.recvLen = false ∧ reads ≤ msg.rlen)
    (hstep : s.cpu cfg = some s') : Inv cfg msg reads avail s' := by
  unfold Master.cpu at hstep
  split at hstep
  next => cases hstep
  next => cases hstep
  next irq hpc =>
    cases hstep
    exact h.readEnd hpc
  next irq left hpc =>
    split at hstep
    next => cases hstep
    next val rest hfifo =>
      cases hstep
      have hknown := hread (by rw [hpc]; exact Nat.succ_ne_zero left)
      exact h.irqReadByte hwf hpc hfifo hknown.1 hknown.2
  next irq hpc =>
    cases hstep
    refine h.goto (.rxflr irq _) (by intro hc; cases hc) ?_ (Nat.zero_le _) fun hstop =>
      h.ends.seen (by rw [hpc]; exact hstop)
    simp only [Pc.wlimit]
    omega
  next irq wlimit hpc =>
    cases hstep
    refine h.goto (.loop irq wlimit _) (by intro hc; cases hc) ?_ (Nat.zero_le _) fun hstop =>
      h.ends.seen (by rw [hpc]; exact hstop)
    have hroom := h.levels.room
    rw [hpc] at hroom
    exact hroom
  next irq wlimit rlimit hpc =>
    cases hstep
    exact h.xferMsgStep hwf hpc
  next irq hpc =>
    cases hstep
    exact h.irqXferComplete hpc

theorem Inv.next {act : Action} (h : Inv cfg msg reads avail s) (hwf : WellFormed msg reads)
    (hquick : quickCmd s.adap.msg = true → msg.wlen + reads = 0)
    (hread : act = .cpu → s.pc.left ≠ 0 → s.adap.msg.flags.recvLen = false ∧ reads ≤ msg.rlen)
    (hretry : act ≠ .retry) (hstep : next cfg s act = some s') : Inv cfg msg reads avail s' := by
  cases act with
  | disable ok =>
    simp only [HiMpu.I2cMaster.next] at hstep
    split at hstep
    next hguard =>
      split at hstep
      next =>
        cases hstep
        exact h.disable hguard.1 hguard.2 hquick
      next =>
        cases hstep
        have hinv := (h.addError [.controllerBusy]).gotoPlain .idle (by intro hc; cases hc) rfl
          (Nat.zero_le _) (by intro hc; cases hc)
        exact ⟨hinv.progress, { hinv.levels with },
          ⟨hinv.stored.rlen, hinv.stored.stored, hinv.stored.counts⟩,
          { hinv.ends with success := by intro hc; cases hc }⟩
    next => cases hstep
  | irq irq =>
    simp only [HiMpu.I2cMaster.next] at hstep
    split at hstep
    next hguard =>
      cases hstep
      exact h.irqHandler hguard.2.2.1 hguard.2.2.2
    next => cases hstep
  | cpu => exact h.cpu hwf (hread rfl) hstep
  | fetch =>
    simp only [HiMpu.I2cMaster.next] at hstep
    split at hstep
    next hshift hfifo =>
      cases hstep
      exact h.fetch hshift hfifo
    next => cases hstep
  | execute val =>
    simp only [HiMpu.I2cMaster.next] at hstep
    split at hstep
    next => cases hstep
    next word hshift =>
      cases hstep
      exact h.execute hwf hshift val
  | quick =>
    simp only [HiMpu.I2cMaster.next] at hstep
    split at hstep
    next hquick =>
      cases hstep
      exact h.quick hquick
    next => cases hstep
  | abort arbLost stop =>
    simp only [HiMpu.I2cMaster.next] at hstep
    split at hstep
    next =>
      cases hstep
      exact h.abort arbLost stop
    next => cases hstep
  | finish waitRet =>
    simp only [HiMpu.I2cMaster.next] at hstep
    split at hstep
    next =>
      cases hstep
      split
      next => exact (h.addError _).finish waitRet
      next => exact h.finish waitRet
    next => cases hstep
  | retry => exact absurd rfl hretry

theorem Inv.tryXfer (h : Kept msg s.adap)
    (hcmd : msg.wlen + s.cmdRlen = avail)
    (hwhole : msg.flags.recvLen = false → avail = msg.wlen + reads)
    (hmore : msg.flags.recvLen = true → avail < msg.wlen + reads) :
    Inv cfg msg reads avail s.tryXfer := by
  refine ⟨⟨h.wlen, h.wbuf, ?_, rfl, ?_, rfl, rfl, ?_, ?_⟩,
    ⟨fun _ => rfl, Nat.zero_le _, ?_, le_refl _, Nat.zero_le _, le_refl _⟩,
    ⟨h.rlen, ?_, ?_⟩, ⟨?_, ?_, ?_, ?_, ?_, ?_⟩⟩
  · show s.adap.msgFlags.rd = msg.flags.rd
    rw [h.msgFlags]
  · show 0 + (s.adap.msg.wlen + s.cmdRlen) = avail
    rw [h.wlen, hcmd, Nat.zero_add]
  · show s.adap.msgFlags.recvLen = false → _
    rw [h.msgFlags]
    exact hwhole
  · show s.adap.msgFlags.recvLen = true → _
    rw [h.msgFlags]
    exact hmore
  · show ((0 : ℕ) : ℤ) + 0 ≤ cfg.txFifoDepth
    simp
  · intro hrd
    obtain ⟨buf, hbuf⟩ := Option.isSome_iff_exists.mp (h.rbuf hrd)
    exact ⟨buf, hbuf, rfl⟩
  · show 0 + 0 = 0 - msg.wlen
    omega
  · intro w hw
    cases hw
  · intro hc
    cases hc
  · intro hc
    cases hc
  · intro hc
    cases hc
  · intro hc
    cases hc
  · intro hc
    cases hc

structure Later (s s' : Master) : Prop where
  cmdRlen : s'.cmdRlen = s.cmdRlen
  answered : s.answered <+: s'.answered
  recvLen : s.adap.msg.flags.recvLen = false → s'.adap.msg.flags.recvLen = false
  msgError : s.adap.msgError = true → s'.adap.msgError = true
  failed : s.adap.msgError = true → s.result ≠ some 0 → s'.result ≠ some 0

theorem Later.of_same (hcmd : s'.cmdRlen = s.cmdRlen) (hanswered : s'.answered = s.answered)
    (hflags : s'.adap.msg.flags = s.adap.msg.flags) (herror : s'.adap.msgError = s.adap.msgError)
    (hresult : s'.result = s.result) : Later s s' := by
  refine ⟨hcmd, ?_, ?_, ?_, ?_⟩
  · rw [hanswered]
  · rw [hflags]
    exact id
  · rw [herror]
    exact id
  · rw [hresult]
    exact fun _ => id

theorem Later.afterRead : Later s (s.afterRead irq) := by
  unfold Master.afterRead
  split
  next => exact Later.of_same rfl rfl rfl rfl rfl
  next => exact Later.of_same rfl rfl rfl rfl rfl

theorem Later.irqHandler : Later s ((s.rcIntrbits irq).irqHandler irq) := by
  unfold Master.irqHandler
  simp only
  split
  next => exact Later.of_same rfl rfl rfl rfl rfl
  next =>
    split
    next =>
      split
      next => exact Later.of_same rfl rfl rfl rfl rfl
      next => exact Later.of_same rfl rfl rfl rfl rfl
    next =>
      unfold Master.afterRead
      split
      next => exact Later.of_same rfl rfl rfl rfl rfl
      next => exact Later.of_same rfl rfl rfl rfl rfl

theorem irqReadByte_later (cfg : Config) (a : Adapter) (val : Byte) :
    (a.msg.flags.recvLen = false → (irqReadByte cfg a val).2.msg.flags.recvLen = false) ∧
      (a.msgError = true → (irqReadByte cfg a val).2.msgError = true) := by
  unfold irqReadByte
  simp only
  split
  next => exact ⟨id, id⟩
  next =>
    split
    next => exact ⟨id, id⟩
    next =>
      refine ⟨fun _ => rfl, fun herror => ?_⟩
      simp only [i2cDwMasterRecvLength]
      rw [herror]
      rfl

theorem Later.xferMsgStep {wlimit rlimit : ℤ} :
    Later s (s.xferMsgStep cfg irq wlimit rlimit) := by
  unfold Master.xferMsgStep
  split
  next =>
    have hcases := msgByte_cases cfg s.adap
    generalize i2cDwMasterIrqXferMsgByte cfg s.adap = byte at hcases
    cases hcases with
    | stop => exact Later.of_same rfl rfl rfl rfl rfl
    | write => exact Later.of_same rfl rfl rfl rfl rfl
    | read => exact Later.of_same rfl rfl rfl rfl rfl
  next => exact Later.of_same rfl rfl rfl rfl rfl

theorem Later.irqXferComplete : Later s (s.irqXferComplete irq) := by
  unfold Master.irqXferComplete
  split
  next =>
    obtain ⟨errors, heq, -⟩ := exists_errors s
    simp only at heq ⊢
    rw [heq]
    exact Later.of_same rfl rfl rfl rfl rfl
  next => exact Later.of_same rfl rfl rfl rfl rfl

theorem Later.cpu (hstep : s.cpu cfg = some s') : Later s s' := by
  unfold Master.cpu at hstep
  split at hstep
  next => cases hstep
  next => cases hstep
  next =>
    cases hstep
    unfold Master.readEnd Master.afterRead
    split
    next => exact Later.of_same rfl rfl rfl rfl rfl
    next => exact Later.of_same rfl rfl rfl rfl rfl
  next =>
    split at hstep
    next => cases hstep
    next val rest hfifo =>
      cases hstep
      have hread := irqReadByte_later cfg s.adap val
      exact ⟨rfl, List.prefix_rfl, hread.1, hread.2, fun _ => id⟩
  next =>
    cases hstep
    exact Later.of_same rfl rfl rfl rfl rfl
  next =>
    cases hstep
    exact Later.of_same rfl rfl rfl rfl rfl
  next =>
    cases hstep
    exact Later.xferMsgStep
  next =>
    cases hstep
    exact Later.irqXferComplete

theorem xferResult_msgError {waitRet : ℤ} (h : a.msgError = true) :
    i2cDwMasterXferResult a waitRet = -eio := by
  unfold i2cDwMasterXferResult
  rw [if_pos h]

theorem Later.next {act : Action} (hretry : act ≠ .retry) (hstep : next cfg s act = some s') :
    Later s s' := by
  cases act with
  | retry => exact absurd rfl hretry
  | cpu => exact Later.cpu hstep
  | irq irq =>
    simp only [HiMpu.I2cMaster.next] at hstep
    split at hstep
    next =>
      cases hstep
      exact Later.irqHandler
    next => cases hstep
  | disable ok =>
    simp only [HiMpu.I2cMaster.next] at hstep
    split at hstep
    next =>
      split at hstep
      next =>
        cases hstep
        exact Later.of_same rfl rfl rfl rfl rfl
      next =>
        cases hstep
        refine ⟨rfl, List.prefix_rfl, id, id, fun _ _ hzero => ?_⟩
        cases hzero
    next => cases hstep
  | fetch =>
    simp only [HiMpu.I2cMaster.next] at hstep
    split at hstep
    next =>
      cases hstep
      exact Later.of_same rfl rfl rfl rfl rfl
    next => cases hstep
  | execute val =>
    simp only [HiMpu.I2cMaster.next] at hstep
    split at hstep
    next => cases hstep
    next =>
      cases hstep
      exact ⟨rfl, List.prefix_append _ _, id, id, fun _ => id⟩
  | quick =>
    simp only [HiMpu.I2cMaster.next] at hstep
    split at hstep
    next =>
      cases hstep
      exact Later.of_same rfl rfl rfl rfl rfl
    next => cases hstep
  | abort arbLost stop =>
    simp only [HiMpu.I2cMaster.next] at hstep
    split at hstep
    next =>
      cases hstep
      exact Later.of_same rfl rfl rfl rfl rfl
    next => cases hstep
  | finish waitRet =>
    simp only [HiMpu.I2cMaster.next] at hstep
    split at hstep
    next =>
      cases hstep
      have hfailed : ∀ t : Master, t.adap.msgError = true →
          some (i2cDwMasterXferResult t.adap waitRet) ≠ some 0 := by
        intro t herror hzero
        rw [xferResult_msgError herror] at hzero
        cases hzero
      split
      next => exact ⟨rfl, List.prefix_rfl, id, id, fun herror _ => hfailed (s.addError _) herror⟩
      next => exact ⟨rfl, List.prefix_rfl, id, id, fun herror _ => hfailed s herror⟩
    next => cases hstep

theorem next_retry (hstep : next cfg s .retry = some s') : s' = s.tryXfer := by
  simp only [HiMpu.I2cMaster.next] at hstep
  split at hstep
  next =>
    cases hstep
    rfl
  next => cases hstep

/-- What `i2c_xfer` is called with: the message has passed the check, its write buffer is
there where there is a length (`i2c_dev_msg_memdump_user`), and one of SMBus has been
prepared. -/
structure HandedOver (quirks : Quirks) (msg : Kmsg) : Prop where
  checked : i2cCheckForMsg quirks msg = 0
  wbuf : msg.wlen ≠ 0 → msg.wbuf.isSome
  smbus : msg.flags.smbus = true → ∃ m, i2cSmbusPrepareMsg m = (0, msg)

theorem callRoutine_protocol {routine : List (Option Prepare)} {m : Kmsg}
    (hall : ∀ f, some f ∈ routine → ∀ m, (f m).2.protocol = m.protocol) :
    (callRoutine routine m).2.protocol = m.protocol := by
  unfold callRoutine
  split
  next f hf =>
    obtain hmem := List.mem_of_getElem? (Option.join_eq_some_iff.mp hf)
    exact hall f hmem m
  next => rfl

theorem pecPrepare_protocol (m : Kmsg) : (i2cSmbusPecPrepare m).2.protocol = m.protocol := by
  unfold i2cSmbusPecPrepare
  split
  next => rfl
  next =>
    refine callRoutine_protocol fun f hf m => ?_
    simp only [pecPrepareRoutine, List.mem_cons, Option.some.injEq, reduceCtorEq, List.not_mem_nil,
      or_false, false_or] at hf
    rcases hf with rfl | rfl | rfl | rfl | rfl | rfl | rfl | rfl | rfl | rfl
    all_goals first | rfl | (unfold i2cSmbusPecPrepareRead; simp only; split <;> rfl)

theorem prepareRoutine_protocol {f : Prepare} (hf : some f ∈ prepareRoutine) (m : Kmsg) :
    (f m).2.protocol = m.protocol := by
  simp only [prepareRoutine, List.mem_cons, Option.some.injEq, List.not_mem_nil, or_false] at hf
  rcases hf with rfl | rfl | rfl | rfl | rfl | rfl | rfl | rfl | rfl | rfl | rfl | rfl
  all_goals
    simp only [i2cSmbusPrepareQuick, i2cSmbusPrepareSendbyte, i2cSmbusPrepareRecvbyte,
      i2cSmbusPrepareWritebyte, i2cSmbusPrepareReadbyte, i2cSmbusPrepareWriteword,
      i2cSmbusPrepareReadword, i2cSmbusPrepareWriteblock, i2cSmbusPrepareReadblock,
      i2cSmbusPrepareProcesscall, i2cSmbusPrepareBlockProcesscall, prepareFixedWrite,
      prepareFixedRead]
    split_ifs <;> first | rfl | exact pecPrepare_protocol m

theorem prepareMsg_protocol (m : Kmsg) : (i2cSmbusPrepareMsg m).2.protocol = m.protocol := by
  unfold i2cSmbusPrepareMsg
  split
  next => rfl
  next =>
    split
    next => rfl
    next => exact callRoutine_protocol fun f hf m => prepareRoutine_protocol hf m

theorem HandedOver.quickCmd (h : HandedOver quirks msg)
    (hquick : quickCmd msg = true) : msg.wlen = 0 ∧ msg.flags.rd = false := by
  unfold HiMpu.I2cMaster.quickCmd at hquick
  obtain ⟨hsmbus, hproto⟩ := Bool.and_eq_true_iff.mp hquick
  obtain ⟨m, hm⟩ := h.smbus hsmbus
  have hprotocol := prepareMsg_protocol m
  rw [hm] at hprotocol
  have hlt : m.protocol < 2 := hprotocol ▸ of_decide_eq_true hproto
  have hroutine : (prepareRoutine[m.protocol]?).join = some i2cSmbusPrepareQuick := by
    interval_cases hp : m.protocol
    · rfl
    · rfl
  have hm := prepareMsg_routine hm
  unfold callRoutine at hm
  rw [hroutine] at hm
  obtain ⟨hflags, hm⟩ := of_check hm (by decide)
  obtain ⟨hbufs, hm⟩ := of_check hm (by decide)
  simp only [not_or, Bool.not_eq_true, ne_eq, not_not] at hflags hbufs
  have hmsg : i2cSmbusPecPrepare m = (0, m) := by
    unfold i2cSmbusPecPrepare
    rw [hflags.2.2]
    rfl
  rw [hmsg] at hm
  cases hm
  exact ⟨hbufs.2.1, hflags.1⟩

theorem checkLength (hchecked : i2cCheckForMsg quirks msg = 0) : i2cCheckForMsgLength msg = 0 := by
  unfold i2cCheckForMsg at hchecked
  by_contra hne
  rw [if_pos hne] at hchecked
  exact hne hchecked

theorem HandedOver.read (h : HandedOver quirks msg)
    (hrd : msg.flags.rd = true) : msg.rbuf.isSome ∧ 0 < msg.rlen := by
  have hlength := checkLength h.checked
  unfold i2cCheckForMsgLength at hlength
  rw [hrd] at hlength
  simp only [Bool.not_true, Bool.false_eq_true, if_false] at hlength
  split at hlength
  next => cases hlength
  next hbuf =>
    obtain ⟨hnone, hlen⟩ := not_or.mp hbuf
    refine ⟨?_, Nat.pos_of_ne_zero hlen⟩
    cases hrbuf : msg.rbuf with
    | none => exact absurd (by rw [hrbuf]; rfl) hnone
    | some buf => rfl

theorem HandedOver.kept (h : HandedOver quirks msg) :
    Kept msg (i2cXfer msg).adap :=
  Kept.tryXfer ⟨rfl, rfl, id, rfl, rfl, rfl, rfl, fun hrd => (h.read hrd).1⟩

/-! ## Messages of a fixed length -/

theorem HandedOver.wellFormed (h : HandedOver quirks msg)
    (hfixed : msg.flags.recvLen = false) : WellFormed msg (i2cXferRlen msg) := by
  unfold i2cXferRlen
  rw [hfixed]
  refine ⟨h.wbuf, fun hrd => ?_, fun hrd => ?_⟩
  · rw [hrd]
    rfl
  · rw [hrd]
    exact (h.read hrd).2

theorem xferRlen_le (hfixed : msg.flags.recvLen = false) : i2cXferRlen msg ≤ msg.rlen := by
  unfold i2cXferRlen
  rw [hfixed]
  show (if msg.flags.rd then msg.rlen else 0) ≤ msg.rlen
  split
  next => exact le_refl _
  next => exact Nat.zero_le _

theorem fixed_invariant (hmsg : HandedOver cfg.quirks msg) (hfixed : msg.flags.recvLen = false)
    (hreach : (system cfg msg).Reachable s) :
    Inv cfg msg (i2cXferRlen msg) (msg.wlen + i2cXferRlen msg) s ∧ Kept msg s.adap ∧
      s.cmdRlen = i2cXferRlen msg := by
  refine hreach.invariant (P := fun s => Inv cfg msg (i2cXferRlen msg)
    (msg.wlen + i2cXferRlen msg) s ∧ Kept msg s.adap ∧ s.cmdRlen = i2cXferRlen msg) ?_ ?_
  · rintro s rfl
    exact ⟨Inv.tryXfer ⟨rfl, rfl, id, rfl, rfl, rfl, rfl, fun hrd => (hmsg.read hrd).1⟩ rfl
      (fun _ => rfl) (fun hrecv => by rw [hfixed] at hrecv; cases hrecv), hmsg.kept, rfl⟩
  · rintro s act s' - ⟨hinv, hkept, hrlen⟩ hstep
    by_cases hretry : act = .retry
    · subst hretry
      have heq := next_retry hstep
      refine ⟨?_, hkept.next hstep, ?_⟩
      · rw [heq]
        exact Inv.tryXfer hkept (by rw [hrlen]) (fun _ => rfl)
          (fun hrecv => by rw [hfixed] at hrecv; cases hrecv)
      · rw [heq]
        exact hrlen
    · refine ⟨?_, hkept.next hstep, (Later.next hretry hstep).cmdRlen.trans hrlen⟩
      have hrecv : s.adap.msg.flags.recvLen = false := by
        by_contra hne
        have htrue := hkept.recvLen (Bool.not_eq_false _ ▸ hne)
        rw [hfixed] at htrue
        cases htrue
      refine hinv.next (hmsg.wellFormed hfixed) ?_ (fun _ _ => ⟨hrecv, xferRlen_le hfixed⟩) hretry
        hstep
      intro hquick
      unfold HiMpu.I2cMaster.quickCmd at hquick
      rw [hkept.flags, hkept.protocol] at hquick
      obtain ⟨hwlen, hrd⟩ := hmsg.quickCmd hquick
      unfold i2cXferRlen
      rw [hwlen, hrd]
      rfl

/-- In every try and whatever the levels and interrupts, the handler writes the words of the
message in their order, which are the words of the array for the DMA engine; a successful
transfer has written all of them.  The FIFOs are never overfilled, counting the reads that
the slave has not answered, and the bytes of the slave are stored in their order. -/
theorem transfer_stream (hmsg : HandedOver cfg.quirks msg) (hfixed : msg.flags.recvLen = false)
    (hreach : (system cfg msg).Reachable s) :
    i2cDwMasterDmaPrepare cfg (i2cXfer msg).adap = stream msg (i2cXferRlen msg) ∧
    (∃ rest, s.written ++ rest = stream msg (i2cXferRlen msg) ∧
      rest.length = s.adap.msg.cmdLen ∧ (s.result = some 0 → rest = [])) ∧
    s.txFifo.length ≤ cfg.txFifoDepth ∧ s.inflight + s.rxFifo.length ≤ cfg.rxFifoDepth ∧
    (msg.flags.rd = true → ∃ buf, s.adap.msg.rbuf = some buf ∧
      (List.range s.adap.msg.rcnt).map buf ++ s.rxFifo = s.answered ∧
      (s.result = some 0 → s.answered = (List.range msg.rlen).map buf)) := by
  obtain ⟨hinv, hkept, -⟩ := fixed_invariant hmsg hfixed hreach
  have hcount := hinv.progress.count
  have htaken := hinv.progress.taken
  have hcounts := hinv.stored.counts
  refine ⟨?_, ⟨(stream msg (i2cXferRlen msg)).drop s.written.length, ?_, ?_, ?_⟩, ?_, ?_, ?_⟩
  · have hstart := (fixed_invariant hmsg hfixed (Reachable.init rfl)).1.progress
    exact dmaPrepareLoop_eq (hmsg.wellFormed hfixed) _ hstart rfl hfixed
  · conv_lhs => rw [htaken]
    rw [List.length_take, stream_length, min_eq_left (by omega), List.take_append_drop]
  · rw [List.length_drop, stream_length]
    omega
  · intro hsuccess
    rw [List.drop_eq_nil_iff, stream_length, (hinv.ends.success hsuccess).1]
  · exact (Nat.le_add_right _ _).trans hinv.levels.tx
  · exact hinv.levels.rx.trans hinv.levels.bound
  · intro hrd
    obtain ⟨buf, hbuf, hstored⟩ := hinv.stored.stored hrd
    refine ⟨buf, hbuf, hstored, fun hsuccess => ?_⟩
    obtain ⟨hall, hout⟩ := hinv.ends.success hsuccess
    have hrlen : i2cXferRlen msg = msg.rlen := by
      unfold i2cXferRlen
      rw [hfixed, hrd]
      rfl
    have hempty : s.rxFifo = [] := by
      have hrx := hinv.levels.rx
      exact List.eq_nil_of_length_eq_zero (by omega)
    have hrcnt : s.adap.msg.rcnt = msg.rlen := by omega
    rw [← hstored, hempty, List.append_nil, hrcnt]

/-! ## A write, then a read of two bytes -/

def writeRead : Kmsg where
  addr := 0x50
  flags := ⟨true, false, false, false, false, false⟩
  protocol := 0
  recvdCrc := 0
  retries := 0
  cmdLen := 0
  outstanding := 0
  rcnt := 0
  wcnt := 0
  wlen := 1
  wbuf := some fun _ => 0x10
  rlen := 2
  rbuf := some fun _ => 0

def smallFifos : Config where
  txFifoDepth := 2
  rxFifoDepth := 1
  quirks := ⟨2048, 2048⟩
  speed := 2
  txFifoDepth_pos := by decide

def IrqStatus.none : IrqStatus := ⟨false, false, false, false, false, false, false, false, false⟩
def txEmpty : IrqStatus := { IrqStatus.none with txEmpty := true }
def rxFull : IrqStatus := { IrqStatus.none with rxFull := true, txEmpty := true }
def lastByte : IrqStatus := { IrqStatus.none with rxFull := true, stopDet := true }

def cpus (n : ℕ) : List Action := List.replicate n .cpu

def writeReadSteps : List Action :=
  List.flatten
    [[.disable true, .irq txEmpty], cpus 6, [.fetch, .execute 0, .fetch, .execute 0xAB, .irq rxFull],
      cpus 7, [.fetch, .execute 0xCD, .irq lastByte], cpus 3, [.finish 1]]

def writeReadDone : Master :=
  (runSteps (next smallFifos) (i2cXfer writeRead) writeReadSteps).get (by decide +kernel)

theorem writeReadDone_run :
    runSteps (next smallFifos) (i2cXfer writeRead) writeReadSteps = some writeReadDone :=
  (Option.some_get _).symm

theorem transfer_stream_writeRead :
    writeReadDone.written = [0x0010, 0x0500, 0x0300] ∧ writeReadDone.answered = [0xAB, 0xCD] := by
  have hmsg : HandedOver smallFifos.quirks writeRead :=
    ⟨by decide, fun _ => rfl, fun hsmbus => by cases hsmbus⟩
  have hreach : (system smallFifos writeRead).Reachable writeReadDone :=
    Reachable.runSteps (Reachable.init rfl) writeReadDone_run
  have hresult : writeReadDone.result = some 0 := by decide +kernel
  obtain ⟨-, ⟨rest, hrest, -, hempty⟩, -⟩ := transfer_stream hmsg rfl hreach
  rw [hempty hresult, List.append_nil] at hrest
  refine ⟨?_, by decide +kernel⟩
  rw [hrest]
  decide

end HiMpu.I2cMaster
