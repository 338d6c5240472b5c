import HiMpu.MsgCrc

/-!
# The coremsg tool

`tools/coremsg/coremsg.c` sends messages to the secure M3 core through the driver, each with the
checksum of `dal_cal_crc` behind it, and checks that of the response.  The function stores an
`unsigned int` where its callers point it to an `unsigned short`.
-/

namespace HiMpu.Coremsg

open MsgScm3 (crcTableLo crcTableHi crcStep crcInit crcValue dalCalCrc16 dalCalCrc16Into)

def bufSize : ℕ := 4096

def uintSize : ℕ := 4

def crcSize : ℕ := 2

def minRspLen : ℕ := 8

def gCrcTableLo : List UInt8 := crcTableLo

def gCrcTableHi : List UInt8 := crcTableHi

structure Store where
  addr : ℕ
  width : ℕ
  value : ℕ

def Store.run (s : Store) (m : Mem) : Mem := m.store s.addr s.width s.value

def crcLoop (m : Mem) : ℕ → ℕ → UInt8 × UInt8 → UInt8 × UInt8
  | _, 0, crc => crc
  | pData, len + 1, crc =>
    let ucIndex := (crc.1 ^^^ m pData).toNat
    crcLoop m (pData + 1) len (crc.2 ^^^ gCrcTableLo.getD ucIndex 0, gCrcTableHi.getD ucIndex 0)

def dalCalCrc (m : Mem) (pData length crc : ℕ) : Option Store :=
  if pData = 0 ∨ crc = 0 ∨ length = 0 then none
  else
    let r := crcLoop m pData length (0xFF, 0xFF)
    some ⟨crc, uintSize, r.2.toNat ||| r.1.toNat <<< 8⟩

structure Layout where
  gBufOut : ℕ
  gBufIn : ℕ
  crc16 : ℕ
  notNull : gBufOut ≠ 0 ∧ gBufIn ≠ 0 ∧ crc16 ≠ 0
  apart : gBufOut + bufSize ≤ gBufIn ∨ gBufIn + bufSize ≤ gBufOut
  stack : ∀ buf ∈ [gBufOut, gBufIn], crc16 + uintSize ≤ buf ∨ buf + bufSize ≤ crc16

/-- What `ioctl` returns, and what the driver has then written to `r_buff` and `r_len`. -/
structure Reply where
  ret : ℤ
  rBuff : List UInt8
  rLen : ℕ
  fits : rBuff.length ≤ bufSize
  within : rLen ≤ bufSize

/-- A call of `tx_and_rx_msg`: the bytes that the driver gets, what is stored for the checksum of
the response, the memory at the end and the result. -/
structure Run where
  sent : List UInt8
  crcStore : Option Store
  mem : Mem
  ret : ℤ

def runStore (s : Option Store) (m : Mem) : Mem := s.elim m fun s => s.run m

def txAndRxMsg (L : Layout) (m : Mem) (dataLength userDataOut : ℕ) (reply : Reply) : Run :=
  let m := runStore (dalCalCrc m userDataOut (dataLength % 2 ^ 16) (L.gBufOut + dataLength)) m
  let dataLen := dataLength + crcSize
  let sent := m.bytes L.gBufOut dataLen
  let m := m.write L.gBufIn reply.rBuff
  if reply.ret < 0 then ⟨sent, none, m, -1⟩
  else if reply.rLen < minRspLen then ⟨sent, none, m, -1⟩
  else
    let s := dalCalCrc m L.gBufIn ((reply.rLen - crcSize) % 2 ^ 16) L.crc16
    let m := runStore s m
    if m.load L.crc16 crcSize ≠ m.load (L.gBufIn + reply.rLen - crcSize) crcSize then
      ⟨sent, s, m, -1⟩
    else ⟨sent, s, m, 0⟩

def crcBytes (value : ℕ) : List UInt8 := [UInt8.ofNat value, UInt8.ofNat (value / 256)]

structure CoremsgCorrect (L : Layout) (m : Mem) (n : ℕ) (reply : Reply) : Prop where
  crc : ∀ (m : Mem) (pData length crc old : ℕ), pData ≠ 0 → crc ≠ 0 → 0 < length →
    length ≤ 65535 → (dalCalCrc m pData length crc).map Store.value =
      dalCalCrc16Into (some fun i => m (pData + i)) (UInt16.ofNat length) (some old)
  sent : (txAndRxMsg L m n L.gBufOut reply).sent =
    m.bytes L.gBufOut n ++ crcBytes (dalCalCrc16 (m.bytes L.gBufOut n))
  kept : ∀ i < bufSize, i ≠ n → i ≠ n + 1 →
    (txAndRxMsg L m n L.gBufOut reply).mem (L.gBufOut + i) = m (L.gBufOut + i)
  verdict : 0 ≤ reply.ret → ((txAndRxMsg L m n L.gBufOut reply).ret = 0 ↔
    minRspLen ≤ reply.rLen ∧
      (txAndRxMsg L m n L.gBufOut reply).mem.load (L.gBufIn + (reply.rLen - crcSize)) crcSize =
        dalCalCrc16 ((txAndRxMsg L m n L.gBufOut reply).mem.bytes L.gBufIn
          (reply.rLen - crcSize)))
  stores : ∀ s, (txAndRxMsg L m n L.gBufOut reply).crcStore = some s →
    ∀ x, s.addr ≤ x → x < s.addr + s.width → L.crc16 ≤ x ∧ x < L.crc16 + crcSize

/-- Nothing is lost to the wide store: behind the checksum of the message there are zeros, and
there is no response to check.  An empty message gets no checksum. -/
structure Unspoiled (L : Layout) (m : Mem) (n : ℕ) (reply : Reply) : Prop where
  next : n ≠ 0 → ∀ i < bufSize, i = n + 2 ∨ i = n + 3 → m (L.gBufOut + i) = 0
  empty : n = 0 → m L.gBufOut = 0xFF ∧ m (L.gBufOut + 1) = 0xFF
  short : reply.ret < 0 ∨ reply.rLen < minRspLen

theorem crcLoop_fold (m : Mem) (pData len : ℕ) (crc : UInt8 × UInt8) :
    crcLoop m pData len crc = (m.bytes pData len).foldl crcStep crc := by
  induction len generalizing pData crc with
  | zero => rfl
  | succ len ih =>
    have hbytes : m.bytes pData (len + 1) = m pData :: m.bytes (pData + 1) len := by
      rw [Nat.add_comm len 1, Mem.bytes_add]
      rfl
    rw [crcLoop, ih, hbytes, List.foldl_cons, gCrcTableLo, gCrcTableHi]
    rfl

theorem dalCalCrc_store {m : Mem} {pData length crc : ℕ}
    (hdata : pData ≠ 0)
    (hcrc : crc ≠ 0)
    (hlen : length ≠ 0) :
    dalCalCrc m pData length crc =
      some ⟨crc, uintSize, dalCalCrc16 (m.bytes pData length)⟩ := by
  have hok : ¬ (pData = 0 ∨ crc = 0 ∨ length = 0) := by tauto
  have hvalue : ∀ r : UInt8 × UInt8, r.2.toNat ||| r.1.toNat <<< 8 = crcValue r := by
    intro r
    have hlow : r.2.toNat < 2 ^ 8 := UInt8.toNat_lt r.2
    rw [Nat.or_comm, ← Nat.shiftLeft_add_eq_or_of_lt hlow, Nat.shiftLeft_eq]
    unfold crcValue
    omega
  unfold dalCalCrc
  rw [if_neg hok]
  dsimp only
  rw [hvalue, crcLoop_fold]
  rfl

theorem dalCalCrc_driver (m : Mem) (pData length crc old : ℕ)
    (hdata : pData ≠ 0)
    (hcrc : crc ≠ 0)
    (hpos : 0 < length)
    (hlen : length ≤ 65535) :
    (dalCalCrc m pData length crc).map Store.value =
      dalCalCrc16Into (some fun i => m (pData + i)) (UInt16.ofNat length) (some old) := by
  have hnat : (UInt16.ofNat length).toNat = length := 
    UInt16.toNat_ofNat_of_lt' (lt_of_le_of_lt hlen (by decide))
  have hne : UInt16.ofNat length ≠ 0 := by
    intro hzero
    rw [hzero] at hnat
    exact absurd hnat (by simp; omega)
  rw [dalCalCrc_store hdata hcrc (by omega), MsgScm3.dalCalCrc16Into_eq hne]
  unfold MsgScm3.message
  rw [hnat]
  rfl

section Message

variable {L : Layout} {m : Mem} {n : ℕ} {reply : Reply}

def framed (L : Layout) (m : Mem) (n : ℕ) : Mem :=
  runStore (dalCalCrc m L.gBufOut (n % 2 ^ 16) (L.gBufOut + n)) m

theorem framed_empty : framed L m 0 = m := by
  have hnone : L.gBufOut = 0 ∨ L.gBufOut + 0 = 0 ∨ 0 % 2 ^ 16 = 0 := Or.inr (Or.inr rfl)
  unfold framed dalCalCrc
  rw [if_pos hnone]
  rfl

theorem framed_store (hn : n + 2 ≤ bufSize) (hpos : n ≠ 0) :
    framed L m n = m.store (L.gBufOut + n) uintSize (dalCalCrc16 (m.bytes L.gBufOut n)) := by
  have hmod : n % 2 ^ 16 = n := by
    unfold bufSize at hn
    exact Nat.mod_eq_of_lt (by omega)
  unfold framed
  rw [hmod, dalCalCrc_store L.notNull.1 (by omega) hpos]
  rfl

theorem dalCalCrc16_lt (data : List UInt8) : dalCalCrc16 data < 256 ^ 2 :=
  MsgScm3.crcValue_lt _

theorem store_crc (m : Mem) (a i : ℕ) (data : List UInt8) :
    m.store a uintSize (dalCalCrc16 data) (a + i) =
      if i = 0 then UInt8.ofNat (dalCalCrc16 data)
      else if i = 1 then UInt8.ofNat (dalCalCrc16 data / 256)
      else if i = 2 ∨ i = 3 then 0 else m (a + i) := by
  have hlt := dalCalCrc16_lt data
  by_cases hin : i < 4
  · have hrange : a ≤ a + i ∧ a + i < a + uintSize := by
      unfold uintSize
      omega
    unfold Mem.store
    rw [if_pos hrange, Nat.add_sub_cancel_left]
    match i with
    | 0 => simp
    | 1 => simp
    | 2 =>
      rw [Nat.div_eq_of_lt hlt]
      rfl
    | 3 =>
      rw [Nat.div_eq_of_lt (hlt.trans (by norm_num))]
      rfl
    | i + 4 => omega
  · rw [Mem.store_outside, if_neg, if_neg, if_neg]
    · omega
    · omega
    · omega
    · right
      unfold uintSize
      omega

theorem bytes_two (m : Mem) (a : ℕ) : m.bytes a 2 = [m a, m (a + 1)] := rfl

theorem framed_sent (hn : n + 2 ≤ bufSize) :
    (framed L m n).bytes L.gBufOut (n + 2) =
        m.bytes L.gBufOut n ++ crcBytes (dalCalCrc16 (m.bytes L.gBufOut n)) ↔
      (n = 0 → m L.gBufOut = 0xFF ∧ m (L.gBufOut + 1) = 0xFF) := by
  by_cases hzero : n = 0
  · subst hzero
    have hnil : m.bytes L.gBufOut 0 = [] := rfl
    have hcrc : crcBytes (dalCalCrc16 []) = [0xFF, 0xFF] := by decide
    rw [framed_empty, hnil, hcrc, bytes_two]
    simp
  · have hsent : (framed L m n).bytes L.gBufOut (n + 2) =
        m.bytes L.gBufOut n ++ crcBytes (dalCalCrc16 (m.bytes L.gBufOut n)) := by
      rw [framed_store hn hzero, Mem.bytes_add, bytes_two]
      congr 1
      · apply Mem.bytes_congr
        intro x _ hx
        exact Mem.store_outside (Or.inl hx)
      · have hfirst := store_crc m (L.gBufOut + n) 0 (m.bytes L.gBufOut n)
        have hsecond := store_crc m (L.gBufOut + n) 1 (m.bytes L.gBufOut n)
        rw [Nat.add_zero] at hfirst
        rw [hfirst, hsecond]
        rfl
    exact iff_of_true hsent fun h => absurd h hzero

theorem framed_kept (hn : n + 2 ≤ bufSize) :
    (∀ i < bufSize, i ≠ n → i ≠ n + 1 → framed L m n (L.gBufOut + i) = m (L.gBufOut + i)) ↔
      (n ≠ 0 → ∀ i < bufSize, i = n + 2 ∨ i = n + 3 → m (L.gBufOut + i) = 0) := by
  by_cases hzero : n = 0
  · subst hzero
    rw [framed_empty]
    exact iff_of_true (fun _ _ _ _ => rfl) fun h => absurd rfl h
  · have hbyte : ∀ i, n ≤ i → i ≠ n → i ≠ n + 1 → framed L m n (L.gBufOut + i) =
        if i = n + 2 ∨ i = n + 3 then 0 else m (L.gBufOut + i) := by
      intro i hle hfirst hsecond
      obtain ⟨k, rfl⟩ := Nat.exists_eq_add_of_le hle
      have hk := store_crc m (L.gBufOut + n) k (m.bytes L.gBufOut n)
      rw [if_neg (by omega), if_neg (by omega)] at hk
      rw [framed_store hn hzero, ← Nat.add_assoc, hk]
      exact if_congr (by omega) rfl rfl
    constructor
    · intro hkept _ i hi hnext
      have hsame := hkept i hi (by omega) (by omega)
      rw [hbyte i (by omega) (by omega) (by omega), if_pos hnext] at hsame
      exact hsame.symm
    · intro hnext i hi hfirst hsecond
      by_cases hle : n ≤ i
      · rw [hbyte i hle hfirst hsecond]
        by_cases hclobbered : i = n + 2 ∨ i = n + 3
        · rw [if_pos hclobbered, hnext hzero i hi hclobbered]
        · rw [if_neg hclobbered]
      · rw [framed_store hn hzero]
        exact Mem.store_outside (Or.inl (by omega))

end Message

section Response

variable {L : Layout} {m : Mem} {n : ℕ} {reply : Reply}

def received (L : Layout) (m : Mem) (n : ℕ) (reply : Reply) : Mem :=
  (framed L m n).write L.gBufIn reply.rBuff

theorem txAndRxMsg_short (hshort : reply.ret < 0 ∨ reply.rLen < minRspLen) :
    txAndRxMsg L m n L.gBufOut reply =
      ⟨(framed L m n).bytes L.gBufOut (n + 2), none, received L m n reply, -1⟩ := by
  unfold txAndRxMsg
  dsimp only
  by_cases hret : reply.ret < 0
  · rw [if_pos hret]
    rfl
  · rw [if_neg hret, if_pos (hshort.resolve_left hret)]
    rfl

def answered (L : Layout) (m : Mem) (n : ℕ) (reply : Reply) : Mem :=
  (received L m n reply).store L.crc16 uintSize
    (dalCalCrc16 ((received L m n reply).bytes L.gBufIn (reply.rLen - crcSize)))

theorem txAndRxMsg_long (hlong : ¬ (reply.ret < 0 ∨ reply.rLen < minRspLen)) :
    txAndRxMsg L m n L.gBufOut reply =
      ⟨(framed L m n).bytes L.gBufOut (n + 2),
        some ⟨L.crc16, uintSize,
          dalCalCrc16 ((received L m n reply).bytes L.gBufIn (reply.rLen - crcSize))⟩,
        answered L m n reply,
        if (answered L m n reply).load L.crc16 crcSize ≠
          (answered L m n reply).load (L.gBufIn + reply.rLen - crcSize) crcSize then -1
        else 0⟩ := by
  have hlen := reply.within
  rw [not_or, not_lt, not_lt] at hlong
  have hmin : 8 ≤ reply.rLen := hlong.2
  have hmod : (reply.rLen - crcSize) % 2 ^ 16 = reply.rLen - crcSize := by
    unfold bufSize at hlen
    unfold crcSize
    exact Nat.mod_eq_of_lt (by omega)
  have hne : reply.rLen - crcSize ≠ 0 := by
    unfold crcSize
    omega
  have hcrc := dalCalCrc_store (m := received L m n reply) L.notNull.2.1 L.notNull.2.2 hne
  have hreceived : (runStore (dalCalCrc m L.gBufOut (n % 2 ^ 16) (L.gBufOut + n)) m).write L.gBufIn
      reply.rBuff = received L m n reply := rfl
  have hanswered : runStore (some ⟨L.crc16, uintSize,
      dalCalCrc16 ((received L m n reply).bytes L.gBufIn (reply.rLen - crcSize))⟩)
      (received L m n reply) = answered L m n reply := rfl
  unfold txAndRxMsg
  dsimp only
  rw [if_neg (not_lt.mpr hlong.1), if_neg (not_lt.mpr hlong.2)]
  simp only [hreceived, hmod, hcrc, hanswered]
  split
  · rfl
  · rfl

theorem txAndRxMsg_out {i : ℕ} (hi : i < bufSize) :
    (txAndRxMsg L m n L.gBufOut reply).mem (L.gBufOut + i) = framed L m n (L.gBufOut + i) := by
  have hfits := reply.fits
  have hreceived : received L m n reply (L.gBufOut + i) = framed L m n (L.gBufOut + i) := by
    apply Mem.write_outside
    rcases L.apart with h | h
    · left
      omega
    · right
      omega
  by_cases hshort : reply.ret < 0 ∨ reply.rLen < minRspLen
  · rw [txAndRxMsg_short hshort]
    exact hreceived
  · rw [txAndRxMsg_long hshort]
    refine Eq.trans ?_ hreceived
    apply Mem.store_outside
    rcases L.stack L.gBufOut (by simp) with h | h
    · right
      omega
    · left
      omega

theorem answered_in {x : ℕ} (hlow : L.gBufIn ≤ x) (hhigh : x < L.gBufIn + bufSize) :
    answered L m n reply x = received L m n reply x := by
  apply Mem.store_outside
  rcases L.stack L.gBufIn (by simp) with h | h
  · right
    omega
  · left
    omega

theorem txAndRxMsg_verdict (hret : 0 ≤ reply.ret) :
    (txAndRxMsg L m n L.gBufOut reply).ret = 0 ↔
      minRspLen ≤ reply.rLen ∧
        (txAndRxMsg L m n L.gBufOut reply).mem.load (L.gBufIn + (reply.rLen - crcSize)) crcSize =
          dalCalCrc16 ((txAndRxMsg L m n L.gBufOut reply).mem.bytes L.gBufIn
            (reply.rLen - crcSize)) := by
  have hfail : ¬ (-1 : ℤ) = 0 := by decide
  by_cases hlen : reply.rLen < minRspLen
  · rw [txAndRxMsg_short (Or.inr hlen)]
    exact iff_of_false hfail fun h => absurd h.1 (not_le.mpr hlen)
  · have hlong : ¬ (reply.ret < 0 ∨ reply.rLen < minRspLen) := by
      rw [not_or]
      exact ⟨not_lt.mpr hret, hlen⟩
    have hmin : 8 ≤ reply.rLen := not_lt.mp hlen
    have hwithin := reply.within
    have hbytes : (answered L m n reply).bytes L.gBufIn (reply.rLen - crcSize) =
        (received L m n reply).bytes L.gBufIn (reply.rLen - crcSize) := by
      apply Mem.bytes_congr
      intro x hlow hhigh
      exact answered_in hlow (by omega)
    have hstored : (answered L m n reply).load L.crc16 crcSize =
        dalCalCrc16 ((received L m n reply).bytes L.gBufIn (reply.rLen - crcSize)) := by
      have hload := Mem.load_store_offset (received L m n reply) L.crc16 uintSize
        (dalCalCrc16 ((received L m n reply).bytes L.gBufIn (reply.rLen - crcSize))) 0 crcSize
        (by decide)
      rw [Nat.add_zero, pow_zero, Nat.div_one] at hload
      exact hload.trans (Nat.mod_eq_of_lt (dalCalCrc16_lt _))
    have haddr : L.gBufIn + reply.rLen - crcSize = L.gBufIn + (reply.rLen - crcSize) := by
      unfold crcSize
      omega
    rw [txAndRxMsg_long hlong]
    dsimp only
    rw [hstored, haddr, hbytes]
    by_cases heq : dalCalCrc16 ((received L m n reply).bytes L.gBufIn (reply.rLen - crcSize)) =
        (answered L m n reply).load (L.gBufIn + (reply.rLen - crcSize)) crcSize
    · rw [if_neg (not_not.mpr heq)]
      exact iff_of_true rfl ⟨hmin, heq.symm⟩
    · rw [if_pos heq]
      exact iff_of_false hfail fun h => heq h.2.symm

theorem txAndRxMsg_stores :
    (∀ s, (txAndRxMsg L m n L.gBufOut reply).crcStore = some s →
      ∀ x, s.addr ≤ x → x < s.addr + s.width → L.crc16 ≤ x ∧ x < L.crc16 + crcSize) ↔
      reply.ret < 0 ∨ reply.rLen < minRspLen := by
  by_cases hshort : reply.ret < 0 ∨ reply.rLen < minRspLen
  · rw [txAndRxMsg_short hshort]
    refine iff_of_true ?_ hshort
    intro s hs
    exact absurd hs (by simp)
  · rw [txAndRxMsg_long hshort]
    refine iff_of_false ?_ hshort
    intro h
    have hbyte := h _ rfl (L.crc16 + 2) (Nat.le_add_right _ _) (by simp [uintSize])
    exact absurd hbyte.2 (lt_irrefl _)

end Response

theorem coremsg_correct_iff (L : Layout) (m : Mem) (n : ℕ) (reply : Reply)
    (hn : n + 2 ≤ bufSize) :
    CoremsgCorrect L m n reply ↔ Unspoiled L m n reply := by
  have hsent : (txAndRxMsg L m n L.gBufOut reply).sent =
      (framed L m n).bytes L.gBufOut (n + 2) := by
    by_cases hshort : reply.ret < 0 ∨ reply.rLen < minRspLen
    · rw [txAndRxMsg_short hshort]
    · rw [txAndRxMsg_long hshort]
  constructor
  · intro h
    have hkept : ∀ i < bufSize, i ≠ n → i ≠ n + 1 →
        framed L m n (L.gBufOut + i) = m (L.gBufOut + i) := by
      intro i hi hfirst hsecond
      rw [← txAndRxMsg_out hi]
      exact h.kept i hi hfirst hsecond
    constructor
    · exact (framed_kept hn).mp hkept
    · exact (framed_sent hn).mp (hsent.symm.trans h.sent)
    · exact txAndRxMsg_stores.mp h.stores
  · intro h
    constructor
    · exact dalCalCrc_driver
    · exact hsent.trans ((framed_sent hn).mpr h.empty)
    · intro i hi hfirst hsecond
      rw [txAndRxMsg_out hi]
      exact (framed_kept hn).mpr h.next i hi hfirst hsecond
    · exact txAndRxMsg_verdict
    · exact txAndRxMsg_stores.mpr h.short

def tool : Layout where
  gBufOut := 0x1000
  gBufIn := 0x2000
  crc16 := 0x8006
  notNull := by decide
  apart := by decide
  stack := by decide

def bootOk : Mem := Mem.write (fun _ => 0) tool.gBufOut [2, 9]

def refused : Reply := ⟨-1, [], bufSize, by decide, by decide⟩

theorem coremsg_correct_unanswered : CoremsgCorrect tool bootOk 4 refused := by
  apply (coremsg_correct_iff tool bootOk 4 refused (by decide)).mpr
  constructor
  · rintro - i - (rfl | rfl)
    · rfl
    · rfl
  · intro hzero
    exact absurd hzero (by decide)
  · exact Or.inl (by decide)

def bootOkReply : Reply := ⟨0, [2, 9, 0, 0, 0, 0, 0x2C, 0x2D], 8, by decide, by decide⟩

/-- The two bytes behind `crc_16` are overwritten. -/
theorem coremsg_not_correct :
    (txAndRxMsg tool bootOk 4 tool.gBufOut bootOkReply).ret = 0 ∧
      ¬ CoremsgCorrect tool bootOk 4 bootOkReply := by
  constructor
  · decide +kernel
  · intro h
    have hshort := txAndRxMsg_stores.mp h.stores
    exact absurd hshort (by decide)

end HiMpu.Coremsg
