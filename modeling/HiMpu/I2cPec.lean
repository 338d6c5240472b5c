import HiMpu.Crc
import HiMpu.I2cMessage

/-!
# Packet error checking of SMBus messages

`i2c_smbus_core.c` puts the check byte together from partial calls, one set for each
protocol before the transfer and one after it.  The bytes that it covers are those on the
wire, in their order.
-/

namespace HiMpu.I2c

open Polynomial

def i2cSmbusLenByte : ℕ := 1
def i2cSmbusLenWord : ℕ := 2
def i2cSmbusLenCmd : ℕ := 1
def i2cSmbusLenCmdByte : ℕ := 2
def i2cSmbusLenCmdWord : ℕ := 3
def i2cSmbusLenCmdBlock : ℕ := 3
def i2cSmbusLenMax : ℕ := 32

def i2cSmbusKmReadBlock : ℕ := 9
def i2cSmbusKmBlkProcCall : ℕ := 11
def i2cSmbusKmMax : ℕ := 12

/-! ## The check byte -/

def crcTable : List Byte :=
  [0x00, 0x07, 0x0E, 0x09, 0x1C, 0x1B, 0x12, 0x15, 0x38, 0x3F, 0x36, 0x31, 0x24, 0x23, 0x2A, 0x2D]

def i2cSmbusCrc (previous data : Byte) : Byte :=
  let tempData := previous ^^^ data
  let crc : Byte := 0
  let crc := (crc <<< 4) ^^^ crcTable.getD (((crc ^^^ tempData) >>> 4) &&& 0x0F).toNat 0
  let tempData := tempData <<< 4
  (crc <<< 4) ^^^ crcTable.getD (((crc ^^^ tempData) >>> 4) &&& 0x0F).toNat 0

structure CrcFlags where
  start : Bool
  restart : Bool
  command : Bool
  startRead : Bool
  restartRead : Bool

structure SmbusCrcParm where
  address : Byte
  command : Byte
  flags : CrcFlags
  oldCrc : Byte
  data : Option (ℕ → Byte)
  dlen : ℕ

def addressByte (address : Byte) (read : Bool) : Byte :=
  (address <<< 1) ||| (if read then 1 else 0)

def i2cSmbusPec (p : SmbusCrcParm) : Byte :=
  let crc := p.oldCrc
  let crc := if p.flags.start then i2cSmbusCrc crc (addressByte p.address p.flags.startRead) else crc
  let crc := if p.flags.command then i2cSmbusCrc crc p.command else crc
  let crc :=
    if p.flags.restart then i2cSmbusCrc crc (addressByte p.address p.flags.restartRead) else crc
  match p.data with
  | none => crc
  | some data => ((List.range p.dlen).map data).foldl i2cSmbusCrc crc

def Kmsg.address (msg : Kmsg) : Byte := msg.addr.setWidth 8

def crcStart : CrcFlags := ⟨true, false, false, false, false⟩
def crcStartCommand : CrcFlags := ⟨true, false, true, false, false⟩
def crcStartRead : CrcFlags := ⟨true, false, false, true, false⟩
def crcRestartRead : CrcFlags := ⟨false, true, false, false, true⟩
def crcStartCommandRestartRead : CrcFlags := ⟨true, true, true, false, true⟩
def crcData : CrcFlags := ⟨false, false, false, false, false⟩

def Kmsg.wbufFrom (msg : Kmsg) (i : ℕ) : Option (ℕ → Byte) := msg.wbuf.map fun buf j => buf (i + j)

/-! ## Before the transfer -/

abbrev Prepare := Kmsg → ℤ × Kmsg

def i2cSmbusPecPrepareRead (msg : Kmsg) : ℤ × Kmsg :=
  (0, if msg.flags.recvLen then msg else { msg with rlen := msg.rlen + 1 })

def Kmsg.append (msg : Kmsg) (val : Byte) : Kmsg :=
  { msg with wbuf := some (Function.update msg.w msg.wlen val), wlen := msg.wlen + 1 }

def i2cSmbusPecPrepareSendbyte (msg : Kmsg) : ℤ × Kmsg :=
  (0, msg.append (i2cSmbusPec ⟨msg.address, 0, crcStart, 0, msg.wbuf, msg.wlen⟩))

def i2cSmbusPecPrepareWrite (msg : Kmsg) : ℤ × Kmsg :=
  (0, msg.append
    (i2cSmbusPec ⟨msg.address, msg.w 0, crcStartCommand, 0, msg.wbufFrom 1, msg.wlen - 1⟩))

def pecPrepareRoutine : List (Option Prepare) :=
  [none, none, some i2cSmbusPecPrepareSendbyte, some i2cSmbusPecPrepareRead,
    some i2cSmbusPecPrepareWrite, some i2cSmbusPecPrepareRead, some i2cSmbusPecPrepareWrite,
    some i2cSmbusPecPrepareRead, some i2cSmbusPecPrepareWrite, some i2cSmbusPecPrepareRead,
    some i2cSmbusPecPrepareRead, some i2cSmbusPecPrepareRead]

def callRoutine (routine : List (Option Prepare)) (msg : Kmsg) : ℤ × Kmsg :=
  match (routine[msg.protocol]?).join with
  | some f => f msg
  | none => (-i2cEunsupsmbusproto, msg)

def i2cSmbusPecPrepare (msg : Kmsg) : ℤ × Kmsg :=
  if !msg.flags.pec then (0, msg) else callRoutine pecPrepareRoutine msg

def i2cSmbusPrepareQuick (msg : Kmsg) : ℤ × Kmsg :=
  if msg.flags.rd ∨ msg.flags.recvLen ∨ msg.flags.pec then (-i2cEmsgattr, msg)
  else if msg.wbuf.isSome ∨ msg.wlen ≠ 0 ∨ msg.rbuf.isSome ∨ msg.rlen ≠ 0 then (-i2cEmsgsmbus, msg)
  else i2cSmbusPecPrepare msg

def prepareFixedWrite (wlen : ℕ) (msg : Kmsg) : ℤ × Kmsg :=
  if msg.flags.rd ∨ msg.flags.recvLen then (-i2cEmsgattr, msg)
  else if msg.wbuf.isNone ∨ msg.wlen ≠ wlen ∨ msg.rbuf.isSome ∨ msg.rlen ≠ 0 then
    (-i2cEmsgsmbus, msg)
  else i2cSmbusPecPrepare msg

def prepareFixedRead (wlen rlen : ℕ) (msg : Kmsg) : ℤ × Kmsg :=
  if !msg.flags.rd then (-i2cEmsgattr, msg)
  else if msg.flags.recvLen then (-i2cEmsgattr, msg)
  else if msg.wbuf.isNone ∨ msg.wlen ≠ wlen ∨ msg.rbuf.isNone ∨ msg.rlen ≠ rlen then
    (-i2cEmsgsmbus, msg)
  else i2cSmbusPecPrepare msg

def i2cSmbusPrepareSendbyte : Prepare := prepareFixedWrite i2cSmbusLenByte
def i2cSmbusPrepareWritebyte : Prepare := prepareFixedWrite i2cSmbusLenCmdByte
def i2cSmbusPrepareWriteword : Prepare := prepareFixedWrite i2cSmbusLenCmdWord
def i2cSmbusPrepareReadbyte : Prepare := prepareFixedRead i2cSmbusLenCmd i2cSmbusLenByte
def i2cSmbusPrepareReadword : Prepare := prepareFixedRead i2cSmbusLenCmd i2cSmbusLenWord
def i2cSmbusPrepareProcesscall : Prepare := prepareFixedRead i2cSmbusLenCmdWord i2cSmbusLenWord

def i2cSmbusPrepareRecvbyte (msg : Kmsg) : ℤ × Kmsg :=
  if !msg.flags.rd then (-i2cEmsgattr, msg)
  else if msg.flags.recvLen then (-i2cEmsgattr, msg)
  else if msg.wbuf.isSome ∨ msg.wlen ≠ 0 ∨ msg.rbuf.isNone ∨ msg.rlen ≠ i2cSmbusLenByte then
    (-i2cEmsgsmbus, msg)
  else i2cSmbusPecPrepare msg

/-- The count byte of a block does not match the length, or is too large. -/
def Kmsg.badBlock (msg : Kmsg) : Bool :=
  msg.wlen - 2 ≠ (msg.w 1).toNat ∨ i2cSmbusLenMax < (msg.w 1).toNat

def i2cSmbusPrepareWriteblock (msg : Kmsg) : ℤ × Kmsg :=
  if msg.flags.rd ∨ msg.flags.recvLen then (-i2cEmsgattr, msg)
  else if msg.wbuf.isNone ∨ msg.wlen < i2cSmbusLenCmdBlock ∨ msg.rbuf.isSome ∨ msg.rlen ≠ 0 then
    (-i2cEmsgsmbus, msg)
  else if msg.badBlock then (-i2cEmsgsmbus, msg)
  else i2cSmbusPecPrepare msg

def i2cSmbusPrepareReadblock (msg : Kmsg) : ℤ × Kmsg :=
  if !msg.flags.rd then (-i2cEmsgattr, msg)
  else if !msg.flags.recvLen then (-i2cEmsgattr, msg)
  else if msg.wbuf.isNone ∨ msg.wlen ≠ i2cSmbusLenCmd ∨ msg.rbuf.isNone ∨ msg.rlen = 0 then
    (-i2cEmsgsmbus, msg)
  else i2cSmbusPecPrepare msg

def i2cSmbusPrepareBlockProcesscall (msg : Kmsg) : ℤ × Kmsg :=
  if !msg.flags.rd then (-i2cEmsgattr, msg)
  else if !msg.flags.recvLen then (-i2cEmsgattr, msg)
  else if msg.wbuf.isNone ∨ msg.wlen < i2cSmbusLenCmdBlock ∨ msg.rbuf.isNone ∨ msg.rlen = 0 then
    (-i2cEmsgsmbus, msg)
  else if msg.badBlock then (-i2cEmsgsmbus, msg)
  else i2cSmbusPecPrepare msg

def prepareRoutine : List (Option Prepare) :=
  [some i2cSmbusPrepareQuick, some i2cSmbusPrepareQuick, some i2cSmbusPrepareSendbyte,
    some i2cSmbusPrepareRecvbyte, some i2cSmbusPrepareWritebyte, some i2cSmbusPrepareReadbyte,
    some i2cSmbusPrepareWriteword, some i2cSmbusPrepareReadword, some i2cSmbusPrepareWriteblock,
    some i2cSmbusPrepareReadblock, some i2cSmbusPrepareProcesscall,
    some i2cSmbusPrepareBlockProcesscall]

def i2cSmbusPrepareMsg (msg : Kmsg) : ℤ × Kmsg :=
  if msg.flags.ten ∨ msg.flags.dma then (-i2cEmsgattr, msg)
  else if !msg.flags.smbus then (-i2cEmsgattr, msg)
  else callRoutine prepareRoutine msg

/-! ## After the transfer -/

abbrev Verify := Kmsg → ℤ

def verifyRead (msg : Kmsg) (val : Byte) : ℤ :=
  if i2cSmbusPec ⟨msg.address, 0, crcData, val, msg.rbuf, msg.rlen⟩ = msg.recvdCrc then 0
  else -i2cEcrc

def i2cSmbusPecVerifyRecievebyte (msg : Kmsg) : ℤ :=
  verifyRead msg (i2cSmbusPec ⟨msg.address, 0, crcStartRead, 0, none, 0⟩)

def i2cSmbusPecVerifyRead (msg : Kmsg) : ℤ :=
  verifyRead msg (i2cSmbusPec ⟨msg.address, msg.w 0, crcStartCommandRestartRead, 0, none, 0⟩)

def i2cSmbusPecVerifyProcesscall (msg : Kmsg) : ℤ :=
  let val :=
    i2cSmbusPec ⟨msg.address, msg.w 0, crcStartCommand, 0, msg.wbufFrom 1, msg.wlen - 1⟩
  verifyRead msg (i2cSmbusPec ⟨msg.address, 0, crcRestartRead, val, none, 0⟩)

def pecVerifyRoutine : List (Option Verify) :=
  [none, none, none, some i2cSmbusPecVerifyRecievebyte, none, some i2cSmbusPecVerifyRead, none,
    some i2cSmbusPecVerifyRead, none, some i2cSmbusPecVerifyRead,
    some i2cSmbusPecVerifyProcesscall, some i2cSmbusPecVerifyProcesscall]

def i2cSmbusPecVerify (msg : Kmsg) : ℤ :=
  if !msg.flags.pec ∨ !msg.flags.rd then 0
  else
    match (pecVerifyRoutine[msg.protocol]?).join with
    | some f => f msg
    | none => -i2cEunsupsmbusproto

def i2cSmbusXferVerify (msg : Kmsg) : ℤ :=
  let wlen := if msg.protocol = i2cSmbusKmBlkProcCall then (msg.w 1).toNat else 0
  let rlen :=
    if msg.protocol = i2cSmbusKmBlkProcCall ∨ msg.protocol = i2cSmbusKmReadBlock then
      (msg.r 0).toNat
    else 0
  if i2cSmbusLenMax < wlen + rlen then -i2cEmsgsmbus else i2cSmbusPecVerify msg

/-! ## The bytes on the wire -/

def smbusGenerator : Byte := 0x07

def IsCrc8 (val : Byte) (bytes : List Byte) : Prop :=
  Crc.ofBits val = (Crc.message (bytes.flatMap Crc.bitsOf) * X ^ 8) %ₘ (X ^ 8 + X ^ 2 + X + 1)

def wireBefore (msg : Kmsg) : List Byte :=
  if msg.wlen = 0 then [addressByte msg.address true]
  else addressByte msg.address false :: msg.payload ++ [addressByte msg.address true]

/-- `received` is all that the message asked to read, and it has been stored. -/
structure Received (msg msg' : Kmsg) (received : List Byte) : Prop where
  same : msg'.addr = msg.addr ∧ msg'.protocol = msg.protocol ∧ msg'.wbuf = msg.wbuf ∧
    msg'.wlen = msg.wlen ∧ msg'.rlen = msg.rlen ∧ msg'.flags.pec = msg.flags.pec ∧
    msg'.flags.rd = msg.flags.rd
  count : msg'.rcnt = received.length
  stored : ∃ buf, msg'.rbuf = some buf ∧ received = (List.range received.length).map buf
  all : if msg.flags.recvLen then
      received.length = (received.headD 0).toNat + 2 ∧ received.length ≤ msg.rlen
    else received.length = msg.rlen

def WithinLimit (msg : Kmsg) (received : List Byte) : Prop :=
  (msg.protocol = i2cSmbusKmReadBlock → (received.headD 0).toNat ≤ i2cSmbusLenMax) ∧
    (msg.protocol = i2cSmbusKmBlkProcCall →
      (msg.w 1).toNat + (received.headD 0).toNat ≤ i2cSmbusLenMax)

/-! ## The table computes the remainder -/

variable {msg msg' m : Kmsg} {received : List Byte}

theorem i2cSmbusCrc_xor (previous data : Byte) :
    i2cSmbusCrc previous data = i2cSmbusCrc (previous ^^^ data) 0 := by
  have hzero : previous ^^^ data ^^^ 0 = previous ^^^ data := BitVec.xor_zero
  unfold i2cSmbusCrc
  rw [hzero]

theorem i2cSmbusCrc_table : ∀ x : Byte,
    i2cSmbusCrc x 0 = Crc.run smbusGenerator x (List.replicate 8 false) := by
  decide +kernel

theorem i2cSmbusCrc_eq (previous data : Byte) :
    i2cSmbusCrc previous data = Crc.run smbusGenerator previous (Crc.bitsOf data) := by
  have hbits := Crc.run_xor (g := smbusGenerator) (v := previous) (w := 0) (Crc.bitsOf data)
  have hsum := Crc.run_xor (g := smbusGenerator) (v := previous) (w := data)
    (List.replicate 8 false)
  rw [show previous ^^^ 0 = previous from BitVec.xor_zero, Crc.length_bitsOf, Crc.run_bitsOf] at hbits
  rw [List.length_replicate] at hsum
  rw [i2cSmbusCrc_xor, i2cSmbusCrc_table, hsum, hbits]

theorem foldl_crc (bytes : List Byte) (crc : Byte) :
    bytes.foldl i2cSmbusCrc crc = Crc.runWords smbusGenerator crc bytes := by
  induction bytes generalizing crc with
  | nil => rfl
  | cons b bytes ih =>
    rw [Crc.runWords_cons, ← i2cSmbusCrc_eq]
    exact ih _

theorem generator_smbus : Crc.generator smbusGenerator = X ^ 8 + X ^ 2 + X + 1 := by
  have hbits : ∀ i < 8, smbusGenerator.getLsbD i = decide (i < 3) := by decide
  have hsum : Crc.ofBits smbusGenerator = X ^ 2 + X + 1 := by
    unfold Crc.ofBits
    have hterm : ∀ i ∈ Finset.range 8, Crc.ofBool (smbusGenerator.getLsbD i) * X ^ i =
        if i < 3 then X ^ i else 0 := by
      intro i hi
      rw [hbits i (Finset.mem_range.mp hi)]
      by_cases h : i < 3 <;> simp [Crc.ofBool, h]
    rw [Finset.sum_congr rfl hterm]
    simp [Finset.sum_range_succ]
    ring
  unfold Crc.generator
  rw [hsum]
  ring

theorem isCrc8_iff {val : Byte} (bytes : List Byte) :
    IsCrc8 val bytes ↔ bytes.foldl i2cSmbusCrc 0 = val := by
  have hrem := Crc.run_eq_remainder (g := smbusGenerator) (by norm_num) (bytes.flatMap Crc.bitsOf)
  rw [generator_smbus] at hrem
  unfold IsCrc8
  rw [foldl_crc, ← hrem]
  constructor
  · intro h
    exact (Crc.ofBits_injective h).symm
  · intro h
    rw [← h]
    rfl

def SmbusCrcParm.bytes (p : SmbusCrcParm) : List Byte :=
  (if p.flags.start then [addressByte p.address p.flags.startRead] else []) ++
    (if p.flags.command then [p.command] else []) ++
    (if p.flags.restart then [addressByte p.address p.flags.restartRead] else []) ++
    (match p.data with | none => [] | some data => (List.range p.dlen).map data)

theorem i2cSmbusPec_eq (p : SmbusCrcParm) :
    i2cSmbusPec p = p.bytes.foldl i2cSmbusCrc p.oldCrc := by
  unfold i2cSmbusPec SmbusCrcParm.bytes
  rw [List.foldl_append, List.foldl_append, List.foldl_append]
  cases p.data <;> cases p.flags.start <;> cases p.flags.command <;> cases p.flags.restart <;> rfl

theorem payload_cons {buf : ℕ → Byte} (hbuf : msg.wbuf = some buf) (hlen : 0 < msg.wlen) :
    msg.payload = msg.w 0 :: (List.range (msg.wlen - 1)).map fun j => buf (1 + j) := by
  obtain ⟨k, hk⟩ := Nat.exists_eq_succ_of_ne_zero hlen.ne'
  unfold Kmsg.payload
  rw [hk, List.range_succ_eq_map, List.map_cons, List.map_map]
  congr 1
  refine List.map_congr_left fun j _ => ?_
  simp [Kmsg.w, hbuf, Nat.add_comm]

theorem bytes_write {buf : ℕ → Byte} (hbuf : msg.wbuf = some buf) (hlen : 0 < msg.wlen) :
    (⟨msg.address, msg.w 0, crcStartCommand, 0, msg.wbufFrom 1, msg.wlen - 1⟩ :
      SmbusCrcParm).bytes = addressByte msg.address false :: msg.payload := by
  rw [payload_cons hbuf hlen]
  unfold SmbusCrcParm.bytes Kmsg.wbufFrom
  rw [hbuf]
  rfl

theorem bytes_sendbyte {buf : ℕ → Byte} (hbuf : msg.wbuf = some buf) :
    (⟨msg.address, 0, crcStart, 0, msg.wbuf, msg.wlen⟩ : SmbusCrcParm).bytes =
      addressByte msg.address false :: msg.payload := by
  unfold SmbusCrcParm.bytes Kmsg.payload Kmsg.w
  rw [hbuf]
  rfl

theorem payload_append (msg : Kmsg) (val : Byte) :
    (msg.append val).payload = msg.payload ++ [val] := by
  unfold Kmsg.payload Kmsg.append
  rw [List.range_succ, List.map_append]
  congr 1
  · refine List.map_congr_left fun j hj => ?_
    have hne : j ≠ msg.wlen := (List.mem_range.mp hj).ne
    simp [Kmsg.w, Function.update_of_ne hne]
  · simp [Kmsg.w]

/-! ## What a message that passes looks like -/

/-- A write, with its check byte, or a read with one of three kinds of bytes before it. -/
inductive Prepared (msg m : Kmsg) : Prop where
  | write (val : Byte) (hrd : msg.flags.rd = false)
      (hval : val = (addressByte msg.address false :: msg.payload).foldl i2cSmbusCrc 0)
      (hm : m = msg.append val)
  | read (hrd : msg.flags.rd = true) (hm : m = (i2cSmbusPecPrepareRead msg).2)
      (hrlen : 0 < msg.rlen)
      (hproto : (msg.protocol = 3 ∧ msg.wlen = 0) ∨
        ((msg.protocol = 5 ∨ msg.protocol = 7 ∨ msg.protocol = 9) ∧ msg.wlen = 1 ∧
          ∃ buf, msg.wbuf = some buf) ∨
        ((msg.protocol = 10 ∨ msg.protocol = 11) ∧ 0 < msg.wlen ∧ ∃ buf, msg.wbuf = some buf))

theorem of_check {p : Prop} [Decidable p] {code : ℤ} {msg' : Kmsg} {rest : ℤ × Kmsg}
    (h : (if p then (-code, msg') else rest) = (0, m)) (hcode : code ≠ 0) :
    ¬ p ∧ rest = (0, m) := by
  by_cases hp : p
  · rw [if_pos hp] at h
    exact absurd (neg_eq_zero.mp (congrArg Prod.fst h)) hcode
  · rw [if_neg hp] at h
    exact ⟨hp, h⟩

theorem prepareMsg_routine (hprep : i2cSmbusPrepareMsg msg = (0, m)) :
    callRoutine prepareRoutine msg = (0, m) :=
  (of_check (of_check hprep (by decide)).2 (by decide)).2

theorem pecPrepare_of_routine {f : Prepare} (hpec : msg.flags.pec = true)
    (hf : (pecPrepareRoutine[msg.protocol]?).join = some f)
    (hprep : i2cSmbusPecPrepare msg = (0, m)) : m = (f msg).2 := by
  unfold i2cSmbusPecPrepare callRoutine at hprep
  rw [hf, hpec] at hprep
  exact (congrArg Prod.snd hprep).symm

theorem pecPrepare_write (hpec : msg.flags.pec = true) (hrd : msg.flags.rd = false)
    (hbuf : msg.wbuf.isNone = false) (hlen : 0 < msg.wlen)
    (hf : (pecPrepareRoutine[msg.protocol]?).join = some i2cSmbusPecPrepareSendbyte ∨
      (pecPrepareRoutine[msg.protocol]?).join = some i2cSmbusPecPrepareWrite)
    (hprep : i2cSmbusPecPrepare msg = (0, m)) : Prepared msg m := by
  obtain ⟨buf, hsome⟩ : ∃ buf, msg.wbuf = some buf := by
    cases h : msg.wbuf with
    | none =>
      rw [h] at hbuf
      cases hbuf
    | some buf => exact ⟨buf, rfl⟩
  rcases hf with hf | hf
  · refine Prepared.write _ hrd ?_ (pecPrepare_of_routine hpec hf hprep)
    rw [i2cSmbusPec_eq, bytes_sendbyte hsome]
  · refine Prepared.write _ hrd ?_ (pecPrepare_of_routine hpec hf hprep)
    rw [i2cSmbusPec_eq, bytes_write hsome hlen]

theorem prepareFixedWrite_ok {n : ℕ} (hpec : msg.flags.pec = true) (hn : 0 < n)
    (hf : (pecPrepareRoutine[msg.protocol]?).join = some i2cSmbusPecPrepareSendbyte ∨
      (pecPrepareRoutine[msg.protocol]?).join = some i2cSmbusPecPrepareWrite)
    (hprep : prepareFixedWrite n msg = (0, m)) : Prepared msg m := by
  obtain ⟨hflags, hprep⟩ := of_check hprep (by decide)
  obtain ⟨hbufs, hprep⟩ := of_check hprep (by decide)
  simp only [not_or, Bool.not_eq_true, ne_eq, not_not] at hflags hbufs
  exact pecPrepare_write hpec hflags.1 hbufs.1 (hbufs.2.1 ▸ hn) hf hprep

theorem prepareWriteblock_ok (hpec : msg.flags.pec = true)
    (hf : (pecPrepareRoutine[msg.protocol]?).join = some i2cSmbusPecPrepareWrite)
    (hprep : i2cSmbusPrepareWriteblock msg = (0, m)) : Prepared msg m := by
  obtain ⟨hflags, hprep⟩ := of_check hprep (by decide)
  obtain ⟨hbufs, hprep⟩ := of_check hprep (by decide)
  obtain ⟨-, hprep⟩ := of_check hprep (by decide)
  simp only [not_or, Bool.not_eq_true, ne_eq, not_not, not_lt] at hflags hbufs
  exact pecPrepare_write hpec hflags.1 hbufs.1
    (lt_of_lt_of_le (by decide) hbufs.2.1) (Or.inr hf) hprep

theorem isSome_of_isNone {α : Type*} {o : Option α} (h : o.isNone = false) : ∃ a, o = some a := by
  cases o with
  | none => cases h
  | some a => exact ⟨a, rfl⟩

theorem prepareFixedRead_ok {n k : ℕ} (hpec : msg.flags.pec = true) (hk : 0 < k)
    (hf : (pecPrepareRoutine[msg.protocol]?).join = some i2cSmbusPecPrepareRead)
    (hproto : (msg.protocol = 5 ∨ msg.protocol = 7) ∧ n = 1 ∨ msg.protocol = 10 ∧ 0 < n)
    (hprep : prepareFixedRead n k msg = (0, m)) : Prepared msg m := by
  obtain ⟨hrd, hprep⟩ := of_check hprep (by decide)
  obtain ⟨-, hprep⟩ := of_check hprep (by decide)
  obtain ⟨hbufs, hprep⟩ := of_check hprep (by decide)
  rw [Bool.not_eq_true', Bool.not_eq_false] at hrd
  simp only [not_or, Bool.not_eq_true, ne_eq, not_not] at hbufs
  have hbuf := isSome_of_isNone hbufs.1
  refine Prepared.read hrd (pecPrepare_of_routine hpec hf hprep) (hbufs.2.2.2 ▸ hk) ?_
  rcases hproto with ⟨h, hn⟩ | ⟨h, hn⟩
  · exact Or.inr (Or.inl ⟨h.imp_right Or.inl, hbufs.2.1.trans hn, hbuf⟩)
  · exact Or.inr (Or.inr ⟨Or.inl h, hbufs.2.1 ▸ hn, hbuf⟩)

theorem prepareRecvbyte_ok (hpec : msg.flags.pec = true) (hproto : msg.protocol = 3)
    (hprep : i2cSmbusPrepareRecvbyte msg = (0, m)) : Prepared msg m := by
  obtain ⟨hrd, hprep⟩ := of_check hprep (by decide)
  obtain ⟨-, hprep⟩ := of_check hprep (by decide)
  obtain ⟨hbufs, hprep⟩ := of_check hprep (by decide)
  rw [Bool.not_eq_true', Bool.not_eq_false] at hrd
  simp only [not_or, Bool.not_eq_true, ne_eq, not_not] at hbufs
  refine Prepared.read hrd (pecPrepare_of_routine hpec ?_ hprep) ?_ (Or.inl ⟨hproto, hbufs.2.1⟩)
  · rw [hproto]
    rfl
  · rw [hbufs.2.2.2]
    decide

theorem prepareReadblock_ok (hpec : msg.flags.pec = true) (hproto : msg.protocol = 9)
    (hprep : i2cSmbusPrepareReadblock msg = (0, m)) : Prepared msg m := by
  obtain ⟨hrd, hprep⟩ := of_check hprep (by decide)
  obtain ⟨-, hprep⟩ := of_check hprep (by decide)
  obtain ⟨hbufs, hprep⟩ := of_check hprep (by decide)
  rw [Bool.not_eq_true', Bool.not_eq_false] at hrd
  simp only [not_or, Bool.not_eq_true, ne_eq, not_not] at hbufs
  refine Prepared.read hrd (pecPrepare_of_routine hpec ?_ hprep) (Nat.pos_of_ne_zero hbufs.2.2.2)
    (Or.inr (Or.inl ⟨Or.inr (Or.inr hproto), hbufs.2.1, isSome_of_isNone hbufs.1⟩))
  rw [hproto]
  rfl

theorem prepareBlockProcesscall_ok (hpec : msg.flags.pec = true) (hproto : msg.protocol = 11)
    (hprep : i2cSmbusPrepareBlockProcesscall msg = (0, m)) : Prepared msg m := by
  obtain ⟨hrd, hprep⟩ := of_check hprep (by decide)
  obtain ⟨-, hprep⟩ := of_check hprep (by decide)
  obtain ⟨hbufs, hprep⟩ := of_check hprep (by decide)
  obtain ⟨-, hprep⟩ := of_check hprep (by decide)
  rw [Bool.not_eq_true', Bool.not_eq_false] at hrd
  simp only [not_or, Bool.not_eq_true, not_lt] at hbufs
  refine Prepared.read hrd (pecPrepare_of_routine hpec ?_ hprep) (Nat.pos_of_ne_zero hbufs.2.2.2)
    (Or.inr (Or.inr ⟨Or.inr hproto, lt_of_lt_of_le (by decide) hbufs.2.1,
      isSome_of_isNone hbufs.1⟩))
  rw [hproto]
  rfl

theorem prepareQuick_pec (hpec : msg.flags.pec = true) :
    i2cSmbusPrepareQuick msg = (-i2cEmsgattr, msg) := by
  unfold i2cSmbusPrepareQuick
  rw [if_pos (Or.inr (Or.inr hpec))]

theorem prepareMsg_ok (hpec : msg.flags.pec = true) (hprep : i2cSmbusPrepareMsg msg = (0, m)) :
    Prepared msg m := by
  have hprep := prepareMsg_routine hprep
  unfold callRoutine at hprep
  by_cases hlt : msg.protocol < 12
  · -- one case for each protocol of the table
    interval_cases hproto : msg.protocol
    · rw [show (prepareRoutine[0]?).join = some i2cSmbusPrepareQuick from rfl] at hprep
      simp only [prepareQuick_pec hpec] at hprep
      cases hprep
    · rw [show (prepareRoutine[1]?).join = some i2cSmbusPrepareQuick from rfl] at hprep
      simp only [prepareQuick_pec hpec] at hprep
      cases hprep
    · exact prepareFixedWrite_ok hpec (n := 1) (by decide) (Or.inl (by rw [hproto]; rfl)) hprep
    · exact prepareRecvbyte_ok hpec hproto hprep
    · exact prepareFixedWrite_ok hpec (n := 2) (by decide) (Or.inr (by rw [hproto]; rfl)) hprep
    · exact prepareFixedRead_ok hpec (n := 1) (k := 1) (by decide) (by rw [hproto]; rfl)
        (Or.inl ⟨Or.inl hproto, rfl⟩) hprep
    · exact prepareFixedWrite_ok hpec (n := 3) (by decide) (Or.inr (by rw [hproto]; rfl)) hprep
    · exact prepareFixedRead_ok hpec (n := 1) (k := 2) (by decide) (by rw [hproto]; rfl)
        (Or.inl ⟨Or.inr hproto, rfl⟩) hprep
    · exact prepareWriteblock_ok hpec (by rw [hproto]; rfl) hprep
    · exact prepareReadblock_ok hpec hproto hprep
    · exact prepareFixedRead_ok hpec (n := 3) (k := 2) (by decide) (by rw [hproto]; rfl)
        (Or.inr ⟨hproto, by decide⟩) hprep
    · exact prepareBlockProcesscall_ok hpec hproto hprep
  · have hnone : prepareRoutine[msg.protocol]? = none :=
      List.getElem?_eq_none (not_lt.mp hlt)
    rw [hnone] at hprep
    cases hprep

/-! ## The check after the transfer -/

theorem verifyRead_eq {buf : ℕ → Byte} (hbuf : msg.rbuf = some buf) (before : List Byte) :
    verifyRead msg (before.foldl i2cSmbusCrc 0) =
      if (before ++ (List.range msg.rlen).map buf).foldl i2cSmbusCrc 0 = msg.recvdCrc then 0
      else -i2cEcrc := by
  unfold verifyRead
  rw [i2cSmbusPec_eq, hbuf, List.foldl_append]
  rfl

theorem pecVerify_eq {buf : ℕ → Byte} (hbuf : msg.rbuf = some buf) (hpec : msg.flags.pec = true)
    (hrd : msg.flags.rd = true)
    (hproto : (msg.protocol = 3 ∧ msg.wlen = 0) ∨
      ((msg.protocol = 5 ∨ msg.protocol = 7 ∨ msg.protocol = 9) ∧ msg.wlen = 1 ∧
        ∃ buf, msg.wbuf = some buf) ∨
      ((msg.protocol = 10 ∨ msg.protocol = 11) ∧ 0 < msg.wlen ∧ ∃ buf, msg.wbuf = some buf)) :
    i2cSmbusPecVerify msg =
      if (wireBefore msg ++ (List.range msg.rlen).map buf).foldl i2cSmbusCrc 0 = msg.recvdCrc then 0
      else -i2cEcrc := by
  have hcall : ¬ ((!msg.flags.pec) = true ∨ (!msg.flags.rd) = true) := by
    rw [hpec, hrd]
    simp
  rw [← verifyRead_eq hbuf]
  unfold i2cSmbusPecVerify
  rw [if_neg hcall]
  rcases hproto with ⟨hp, hlen⟩ | ⟨hp, hlen, wbuf, hw⟩ | ⟨hp, hlen, wbuf, hw⟩
  · have hroutine : (pecVerifyRoutine[msg.protocol]?).join =
        some i2cSmbusPecVerifyRecievebyte := by
      rw [hp]
      rfl
    rw [hroutine]
    unfold wireBefore
    rw [if_pos hlen]
    show i2cSmbusPecVerifyRecievebyte msg = _
    unfold i2cSmbusPecVerifyRecievebyte
    rw [i2cSmbusPec_eq]
    rfl
  · have hroutine : (pecVerifyRoutine[msg.protocol]?).join = some i2cSmbusPecVerifyRead := by
      rcases hp with hp | hp | hp
      · rw [hp]
        rfl
      · rw [hp]
        rfl
      · rw [hp]
        rfl
    have hpayload : msg.payload = [msg.w 0] := by
      unfold Kmsg.payload
      rw [hlen]
      rfl
    rw [hroutine]
    unfold wireBefore
    rw [if_neg (by rw [hlen]; decide), hpayload]
    show i2cSmbusPecVerifyRead msg = _
    unfold i2cSmbusPecVerifyRead
    rw [i2cSmbusPec_eq]
    rfl
  · have hroutine : (pecVerifyRoutine[msg.protocol]?).join =
        some i2cSmbusPecVerifyProcesscall := by
      rcases hp with hp | hp
      · rw [hp]
        rfl
      · rw [hp]
        rfl
    rw [hroutine]
    unfold wireBefore
    rw [if_neg hlen.ne']
    show i2cSmbusPecVerifyProcesscall msg = _
    unfold i2cSmbusPecVerifyProcesscall
    simp only
    rw [i2cSmbusPec_eq, i2cSmbusPec_eq, bytes_write hw hlen, List.foldl_append]
    rfl

theorem xferResult_pec (hpec : msg.flags.pec = true) (htwo : 2 ≤ msg.rcnt)
    (hle : msg.rcnt ≤ msg.rlen) : i2cXferResult msg =
      (0, { msg with recvdCrc := msg.r (msg.rcnt - 1), rlen := msg.rcnt - 1 }) := by
  unfold i2cXferResult
  rw [if_neg (by omega), if_pos hpec]
  simp only
  rw [if_pos (show 0 < msg.rcnt - 1 by omega)]

instance (msg : Kmsg) (received : List Byte) : Decidable (WithinLimit msg received) :=
  inferInstanceAs (Decidable ((_ → _) ∧ (_ → _)))

theorem xferVerify_eq (received : List Byte) (hlimit : msg.protocol = i2cSmbusKmReadBlock ∨
      msg.protocol = i2cSmbusKmBlkProcCall → received.headD 0 = msg.r 0) :
    i2cSmbusXferVerify msg =
      if WithinLimit msg received then i2cSmbusPecVerify msg else -i2cEmsgsmbus := by
  have hiff : WithinLimit msg received ↔
      ¬ i2cSmbusLenMax < (if msg.protocol = i2cSmbusKmBlkProcCall then (msg.w 1).toNat else 0) +
        (if msg.protocol = i2cSmbusKmBlkProcCall ∨ msg.protocol = i2cSmbusKmReadBlock then
          (msg.r 0).toNat else 0) := by
    unfold WithinLimit
    by_cases hblk : msg.protocol = i2cSmbusKmBlkProcCall
    · rw [hlimit (Or.inr hblk)]
      simp [hblk, i2cSmbusKmReadBlock, i2cSmbusKmBlkProcCall]
    · by_cases hread : msg.protocol = i2cSmbusKmReadBlock
      · rw [hlimit (Or.inl hread)]
        simp [hread, i2cSmbusKmReadBlock, i2cSmbusKmBlkProcCall]
      · simp [hblk, hread]
  unfold i2cSmbusXferVerify
  by_cases h : WithinLimit msg received
  · rw [if_pos h]
    exact if_neg (hiff.mp h)
  · rw [if_neg h]
    exact if_pos (not_not.mp fun hn => h (hiff.mpr hn))

theorem wireBefore_congr (haddr : msg'.addr = msg.addr) (hwbuf : msg'.wbuf = msg.wbuf)
    (hwlen : msg'.wlen = msg.wlen) : wireBefore msg' = wireBefore msg := by
  unfold wireBefore Kmsg.payload Kmsg.w Kmsg.address
  rw [haddr, hwbuf, hwlen]

theorem withinLimit_congr (hproto : msg'.protocol = msg.protocol) (hwbuf : msg'.wbuf = msg.wbuf) :
    WithinLimit msg' received ↔ WithinLimit msg received := by
  unfold WithinLimit Kmsg.w
  rw [hproto, hwbuf]

theorem received_split {buf : ℕ → Byte} {k : ℕ} (hlen : received.length = k + 1)
    (hstored : received = (List.range received.length).map buf) :
    received.dropLast = (List.range k).map buf ∧ received.getLast? = some (buf k) := by
  rw [hlen, List.range_succ, List.map_append, List.map_singleton] at hstored
  rw [hstored]
  exact ⟨List.dropLast_concat, List.getLast?_concat⟩

/-- For every protocol of the table, a write goes out with the CRC-8 of the address byte and
the payload behind it, and a read whose bytes have all come is accepted exactly when its
last byte is the CRC-8 of all bytes before it, and the counts are within the limit. -/
theorem pec_checked (hprep : i2cSmbusPrepareMsg msg = (0, m)) (hpec : msg.flags.pec = true) :
    (msg.flags.rd = false → ∃ val, m.payload = msg.payload ++ [val] ∧
      IsCrc8 val (addressByte msg.address false :: msg.payload)) ∧
    (msg.flags.rd = true → m.payload = msg.payload ∧
      ∀ m' received, Received m m' received →
        (i2cXferResult m').1 = 0 ∧
        (i2cSmbusXferVerify (i2cXferResult m').2 = 0 ↔
          (∃ pec ∈ received.getLast?, IsCrc8 pec (wireBefore msg ++ received.dropLast)) ∧
            WithinLimit msg received)) := by
  cases prepareMsg_ok hpec hprep with
  | write val hrd hval hm =>
    refine ⟨fun _ => ⟨val, ?_, ?_⟩, fun h => ?_⟩
    · rw [hm, payload_append]
    · rw [isCrc8_iff, hval]
    · rw [hrd] at h
      cases h
  | read hrd hm hrlen hproto =>
    have hsame : m.addr = msg.addr ∧ m.protocol = msg.protocol ∧ m.wbuf = msg.wbuf ∧
        m.wlen = msg.wlen ∧ m.flags = msg.flags ∧
        m.rlen = if msg.flags.recvLen then msg.rlen else msg.rlen + 1 := by
      rw [hm]
      unfold i2cSmbusPecPrepareRead
      simp only
      split <;> exact ⟨rfl, rfl, rfl, rfl, rfl, rfl⟩
    obtain ⟨haddr, hprot, hwbuf, hwlen, hflags, hlen⟩ := hsame
    refine ⟨fun h => ?_, fun _ => ⟨?_, ?_⟩⟩
    · rw [hrd] at h
      cases h
    · unfold Kmsg.payload Kmsg.w
      rw [hwbuf, hwlen]
    rintro m' received ⟨⟨haddr', hprot', hwbuf', hwlen', hrlen', hpec', hrd'⟩, hcount, ⟨buf, hbuf,
      hstored⟩, hall⟩
    have hbounds : 2 ≤ received.length ∧ received.length ≤ m.rlen := by
      rw [hflags] at hall
      cases hrecv : msg.flags.recvLen with
      | true =>
        rw [hrecv] at hall
        simp only [if_true] at hall
        exact ⟨by omega, hall.2⟩
      | false =>
        rw [hrecv] at hall hlen
        simp only [Bool.false_eq_true, if_false] at hall hlen
        omega
    obtain ⟨k, hk⟩ := Nat.exists_eq_succ_of_ne_zero (show received.length ≠ 0 by omega)
    obtain ⟨hdrop, hlast⟩ := received_split hk hstored
    have hresult : i2cXferResult m' =
        (0, { m' with recvdCrc := m'.r (m'.rcnt - 1), rlen := m'.rcnt - 1 }) :=
      xferResult_pec (by rw [hpec', hflags, hpec]) (by rw [hcount]; exact hbounds.1)
        (by rw [hcount, hrlen']; exact hbounds.2)
    have hrcnt : m'.rcnt - 1 = k := by
      rw [hcount, hk]
      rfl
    have hr : ∀ i, m'.r i = buf i := by
      intro i
      unfold Kmsg.r
      rw [hbuf]
      rfl
    rw [hresult, hrcnt, hr]
    refine ⟨rfl, ?_⟩
    simp only
    generalize hd : ({ m' with recvdCrc := buf k, rlen := k } : Kmsg) = d
    have hdsame : d.addr = msg.addr ∧ d.protocol = msg.protocol ∧ d.wbuf = msg.wbuf ∧
        d.wlen = msg.wlen ∧ d.rbuf = some buf ∧ d.flags.pec = true ∧ d.flags.rd = true ∧
        d.rlen = k ∧ d.recvdCrc = buf k := by
      rw [← hd]
      exact ⟨haddr'.trans haddr, hprot'.trans hprot, hwbuf'.trans hwbuf, hwlen'.trans hwlen, hbuf,
        by rw [hpec', hflags, hpec], by rw [hrd', hflags, hrd], rfl, rfl⟩
    obtain ⟨hdaddr, hdprot, hdwbuf, hdwlen, hdrbuf, hdpec, hdrd, hdrlen, hdcrc⟩ := hdsame
    have hhead : received.headD 0 = d.r 0 := by
      have hpos : 0 < received.length := by omega
      unfold Kmsg.r
      rw [hdrbuf, hstored, hk, List.range_succ_eq_map]
      rfl
    have hverify : i2cSmbusPecVerify d =
        if (wireBefore d ++ (List.range d.rlen).map buf).foldl i2cSmbusCrc 0 = d.recvdCrc then 0
        else -i2cEcrc :=
      pecVerify_eq hdrbuf hdpec hdrd (by rw [hdprot, hdwlen, hdwbuf]; exact hproto)
    rw [wireBefore_congr hdaddr hdwbuf hdwlen, hdrlen, hdcrc, ← hdrop] at hverify
    rw [xferVerify_eq received fun _ => hhead, hverify]
    have hcrc : (∃ pec ∈ received.getLast?, IsCrc8 pec (wireBefore msg ++ received.dropLast)) ↔
        (wireBefore msg ++ received.dropLast).foldl i2cSmbusCrc 0 = buf k := by
      rw [hlast]
      simp only [Option.mem_def, Option.some.injEq, exists_eq_left', isCrc8_iff]
    rw [hcrc, ← withinLimit_congr hdprot hdwbuf]
    by_cases hlimit : WithinLimit d received
    · rw [if_pos hlimit]
      by_cases heq : (wireBefore msg ++ received.dropLast).foldl i2cSmbusCrc 0 = buf k
      · rw [if_pos heq]
        exact ⟨fun _ => ⟨heq, hlimit⟩, fun _ => rfl⟩
      · rw [if_neg heq]
        exact ⟨fun h => absurd h (by decide), fun h => absurd h.1 heq⟩
    · rw [if_neg hlimit]
      exact ⟨fun h => absurd h (by decide), fun h => absurd h.2 hlimit⟩

def readByte : Kmsg where
  addr := 0x50
  flags := ⟨true, true, false, false, true, false⟩
  protocol := 5
  recvdCrc := 0
  retries := 0
  cmdLen := 0
  outstanding := 0
  rcnt := 0
  wcnt := 0
  wlen := 1
  wbuf := some fun _ => 0x10
  rlen := 1
  rbuf := some fun _ => 0

def readByteDone : Kmsg :=
  { (i2cSmbusPrepareMsg readByte).2 with rcnt := 2, rbuf := some fun i => if i = 0 then 0xAB else 0x08 }

theorem pec_checked_readByte :
    i2cSmbusXferVerify (i2cXferResult readByteDone).2 = 0 ∧
      IsCrc8 0x08 [0xA0, 0x10, 0xA1, 0xAB] := by
  have hverify : i2cSmbusXferVerify (i2cXferResult readByteDone).2 = 0 := by decide +kernel
  have hreceived : Received (i2cSmbusPrepareMsg readByte).2 readByteDone [0xAB, 0x08] :=
    ⟨⟨rfl, rfl, rfl, rfl, rfl, rfl, rfl⟩, rfl, ⟨_, rfl, rfl⟩, rfl⟩
  have hread := (pec_checked (m := (i2cSmbusPrepareMsg readByte).2) (rfl : i2cSmbusPrepareMsg readByte = _) rfl).2 rfl
  obtain ⟨⟨pec, hlast, hcrc⟩, -⟩ := (hread.2 _ _ hreceived).2.mp hverify
  cases hlast
  exact ⟨hverify, hcrc⟩

end HiMpu.I2c
