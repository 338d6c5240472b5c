import HiMpu.Securec
import HiMpu.TransitionSystem

/-!
# Messages between the A55 and the secure M3

`non_real_time/drivers/msg_scm3/msg_scm3.c`.  Each core has a ring of entries in
shared memory, with a producer index, a consumer index and an initialisation flag.
The functions that touch a ring are given access by access, since the other core
may act between any two of them.
-/

namespace HiMpu.MsgScm3

def msgQDepth : ℕ := 16
def msgCmdLen : ℕ := 16
def msgCmdCrcLen : ℕ := 2
def msgQInitMagic : ℕ := 0x171F
def msgDataMaxSize : ℕ := 4096
def einval : ℤ := -22
def efault : ℤ := -14

def crcTableLo : List UInt8 :=
  [0x00, 0x10, 0x20, 0x30, 0x40, 0x50, 0x60, 0x70, 0x81, 0x91, 0xA1, 0xB1, 0xC1, 0xD1, 0xE1,
    0xF1, 0x12, 0x02, 0x32, 0x22, 0x52, 0x42, 0x72, 0x62, 0x93, 0x83, 0xB3, 0xA3, 0xD3, 0xC3,
    0xF3, 0xE3, 0x24, 0x34, 0x04, 0x14, 0x64, 0x74, 0x44, 0x54, 0xA5, 0xB5, 0x85, 0x95, 0xE5,
    0xF5, 0xC5, 0xD5, 0x36, 0x26, 0x16, 0x06, 0x76, 0x66, 0x56, 0x46, 0xB7, 0xA7, 0x97, 0x87,
    0xF7, 0xE7, 0xD7, 0xC7, 0x48, 0x58, 0x68, 0x78, 0x08, 0x18, 0x28, 0x38, 0xC9, 0xD9, 0xE9,
    0xF9, 0x89, 0x99, 0xA9, 0xB9, 0x5A, 0x4A, 0x7A, 0x6A, 0x1A, 0x0A, 0x3A, 0x2A, 0xDB, 0xCB,
    0xFB, 0xEB, 0x9B, 0x8B, 0xBB, 0xAB, 0x6C, 0x7C, 0x4C, 0x5C, 0x2C, 0x3C, 0x0C, 0x1C, 0xED,
    0xFD, 0xCD, 0xDD, 0xAD, 0xBD, 0x8D, 0x9D, 0x7E, 0x6E, 0x5E, 0x4E, 0x3E, 0x2E, 0x1E, 0x0E,
    0xFF, 0xEF, 0xDF, 0xCF, 0xBF, 0xAF, 0x9F, 0x8F, 0x91, 0x81, 0xB1, 0xA1, 0xD1, 0xC1, 0xF1,
    0xE1, 0x10, 0x00, 0x30, 0x20, 0x50, 0x40, 0x70, 0x60, 0x83, 0x93, 0xA3, 0xB3, 0xC3, 0xD3,
    0xE3, 0xF3, 0x02, 0x12, 0x22, 0x32, 0x42, 0x52, 0x62, 0x72, 0xB5, 0xA5, 0x95, 0x85, 0xF5,
    0xE5, 0xD5, 0xC5, 0x34, 0x24, 0x14, 0x04, 0x74, 0x64, 0x54, 0x44, 0xA7, 0xB7, 0x87, 0x97,
    0xE7, 0xF7, 0xC7, 0xD7, 0x26, 0x36, 0x06, 0x16, 0x66, 0x76, 0x46, 0x56, 0xD9, 0xC9, 0xF9,
    0xE9, 0x99, 0x89, 0xB9, 0xA9, 0x58, 0x48, 0x78, 0x68, 0x18, 0x08, 0x38, 0x28, 0xCB, 0xDB,
    0xEB, 0xFB, 0x8B, 0x9B, 0xAB, 0xBB, 0x4A, 0x5A, 0x6A, 0x7A, 0x0A, 0x1A, 0x2A, 0x3A, 0xFD,
    0xED, 0xDD, 0xCD, 0xBD, 0xAD, 0x9D, 0x8D, 0x7C, 0x6C, 0x5C, 0x4C, 0x3C, 0x2C, 0x1C, 0x0C,
    0xEF, 0xFF, 0xCF, 0xDF, 0xAF, 0xBF, 0x8F, 0x9F, 0x6E, 0x7E, 0x4E, 0x5E, 0x2E, 0x3E, 0x0E, 0x1E]

def crcTableHi : List UInt8 :=
  [0x00, 0x21, 0x42, 0x63, 0x84, 0xA5, 0xC6, 0xE7, 0x08, 0x29, 0x4A, 0x6B, 0x8C, 0xAD, 0xCE,
    0xEF, 0x31, 0x10, 0x73, 0x52, 0xB5, 0x94, 0xF7, 0xD6, 0x39, 0x18, 0x7B, 0x5A, 0xBD, 0x9C,
    0xFF, 0xDE, 0x62, 0x43, 0x20, 0x01, 0xE6, 0xC7, 0xA4, 0x85, 0x6A, 0x4B, 0x28, 0x09, 0xEE,
    0xCF, 0xAC, 0x8D, 0x53, 0x72, 0x11, 0x30, 0xD7, 0xF6, 0x95, 0xB4, 0x5B, 0x7A, 0x19, 0x38,
    0xDF, 0xFE, 0x9D, 0xBC, 0xC4, 0xE5, 0x86, 0xA7, 0x40, 0x61, 0x02, 0x23, 0xCC, 0xED, 0x8E,
    0xAF, 0x48, 0x69, 0x0A, 0x2B, 0xF5, 0xD4, 0xB7, 0x96, 0x71, 0x50, 0x33, 0x12, 0xFD, 0xDC,
    0xBF, 0x9E, 0x79, 0x58, 0x3B, 0x1A, 0xA6, 0x87, 0xE4, 0xC5, 0x22, 0x03, 0x60, 0x41, 0xAE,
    0x8F, 0xEC, 0xCD, 0x2A, 0x0B, 0x68, 0x49, 0x97, 0xB6, 0xD5, 0xF4, 0x13, 0x32, 0x51, 0x70,
    0x9F, 0xBE, 0xDD, 0xFC, 0x1B, 0x3A, 0x59, 0x78, 0x88, 0xA9, 0xCA, 0xEB, 0x0C, 0x2D, 0x4E,
    0x6F, 0x80, 0xA1, 0xC2, 0xE3, 0x04, 0x25, 0x46, 0x67, 0xB9, 0x98, 0xFB, 0xDA, 0x3D, 0x1C,
    0x7F, 0x5E, 0xB1, 0x90, 0xF3, 0xD2, 0x35, 0x14, 0x77, 0x56, 0xEA, 0xCB, 0xA8, 0x89, 0x6E,
    0x4F, 0x2C, 0x0D, 0xE2, 0xC3, 0xA0, 0x81, 0x66, 0x47, 0x24, 0x05, 0xDB, 0xFA, 0x99, 0xB8,
    0x5F, 0x7E, 0x1D, 0x3C, 0xD3, 0xF2, 0x91, 0xB0, 0x57, 0x76, 0x15, 0x34, 0x4C, 0x6D, 0x0E,
    0x2F, 0xC8, 0xE9, 0x8A, 0xAB, 0x44, 0x65, 0x06, 0x27, 0xC0, 0xE1, 0x82, 0xA3, 0x7D, 0x5C,
    0x3F, 0x1E, 0xF9, 0xD8, 0xBB, 0x9A, 0x75, 0x54, 0x37, 0x16, 0xF1, 0xD0, 0xB3, 0x92, 0x2E,
    0x0F, 0x6C, 0x4D, 0xAA, 0x8B, 0xE8, 0xC9, 0x26, 0x07, 0x64, 0x45, 0xA2, 0x83, 0xE0, 0xC1,
    0x1F, 0x3E, 0x5D, 0x7C, 0x9B, 0xBA, 0xD9, 0xF8, 0x17, 0x36, 0x55, 0x74, 0x93, 0xB2, 0xD1, 0xF0]

def crcStep (crc : UInt8 × UInt8) (byte : UInt8) : UInt8 × UInt8 :=
  let index := (crc.1 ^^^ byte).toNat
  (crc.2 ^^^ crcTableLo.getD index 0, crcTableHi.getD index 0)

def crcInit : UInt8 × UInt8 := (0xFF, 0xFF)

def crcValue (crc : UInt8 × UInt8) : ℕ := crc.2.toNat + 256 * crc.1.toNat

def dalCalCrc16 (data : List UInt8) : ℕ := crcValue (data.foldl crcStep crcInit)

theorem crcValue_lt (crc : UInt8 × UInt8) : crcValue crc < 256 ^ 2 := by
  have hlow := UInt8.toNat_lt crc.2
  have hhigh := UInt8.toNat_lt crc.1
  unfold crcValue
  omega

/-- The fields of `msg_comm_data_s`, on the bytes of an entry. -/
def dataLen (entry : Mem) : ℕ := entry.load 8 4
def msgIndex (entry : Mem) : ℕ := entry.load 12 2
def msgCrc (entry : Mem) : ℕ := entry.load 14 2

def crcLen : ℕ := msgCmdLen - msgCmdCrcLen

def CrcOk (entry : Mem) : Prop :=
  dalCalCrc16 (entry.bytes 0 crcLen) = msgCrc entry

instance (entry : Mem) : Decidable (CrcOk entry) :=
  inferInstanceAs (Decidable (_ = _))

def withCrc (msg : Mem) : Mem := msg.store 14 2 (dalCalCrc16 (msg.bytes 0 crcLen))

def entryBytes (msg : Mem) : List UInt8 := (withCrc msg).bytes 0 msgCmdLen

theorem bytes_withCrc (msg : Mem) : (withCrc msg).bytes 0 crcLen = msg.bytes 0 crcLen := by
  apply Mem.bytes_congr
  intro x _ hx
  exact Mem.store_outside (Or.inl (by simpa [crcLen, msgCmdLen, msgCmdCrcLen] using hx))

theorem crcOk_withCrc (msg : Mem) : CrcOk (withCrc msg) := by
  unfold CrcOk
  rw [bytes_withCrc]
  exact (Mem.load_store_same_of_lt (crcValue_lt _)).symm

structure MsgQueue where
  pi : ℕ
  ci : ℕ
  initFlag : ℕ
  slot : ℕ → Mem

def MsgQueue.setSlot (q : MsgQueue) (i : ℕ) (entry : Mem) : MsgQueue :=
  { q with slot := Function.update q.slot i entry }

inductive SendPc where
  | magic
  | readPi
  | readCi (pi : ℕ)
  | test (pi ci : ℕ)
  | copy (pi k : ℕ)
  | crc (pi k : ℕ) (crc : UInt8 × UInt8)
  | storeCrc (pi cksum : ℕ)
  | storePi (pi : ℕ)
  | unlock (ret : ℤ)

/-- The buffer of the caller lies outside the ring, so `memcpy_s` succeeds.  A call
that is about to unlock has no further access. -/
def msgCmdSend (q : MsgQueue) (msg : Mem) : SendPc → SendPc × MsgQueue
  | .magic => (if q.initFlag ≠ msgQInitMagic then .unlock efault else .readPi, q)
  | .readPi => (.readCi q.pi, q)
  | .readCi pi => (.test pi q.ci, q)
  | .test pi ci => (if (pi + 1) % msgQDepth = ci then .unlock efault else .copy pi 0, q)
  | .copy pi k =>
    if k < msgCmdLen then
      (.copy pi (k + 1), q.setSlot pi (Function.update (q.slot pi) k (msg k)))
    else (.crc pi 0 crcInit, q)
  | .crc pi k crc =>
    if k < crcLen then (.crc pi (k + 1) (crcStep crc (q.slot pi k)), q)
    else (.storeCrc pi (crcValue crc), q)
  | .storeCrc pi cksum => (.storePi pi, q.setSlot pi ((q.slot pi).store 14 2 cksum))
  | .storePi pi => (.unlock 0, { q with pi := (pi + 1) % msgQDepth })
  | .unlock ret => (.unlock ret, q)

inductive HandlerPc where
  | idle
  | readPi
  | readCi (pi : ℕ)
  | test (pi ci : ℕ)
  | crc (ci k : ℕ) (crc : UInt8 × UInt8)
  | compare (ci cksum : ℕ)
  | saveAddr (ci : ℕ)
  | complete (ci : ℕ)
  | storeCi (ci : ℕ)

/-- Accesses of the handler to the arrays of the driver. -/
inductive HandlerEvent where
  | userAddr (index slot : ℕ)
  | completed (index : ℕ)
deriving DecidableEq

/-- One access of the handler.  An idle handler waits for its work to be queued. -/
def msgDelayworkHandle (q : MsgQueue) :
    HandlerPc → HandlerPc × MsgQueue × Option HandlerEvent
  | .idle => (.idle, q, none)
  | .readPi => (.readCi q.pi, q, none)
  | .readCi pi => (.test pi q.ci, q, none)
  | .test pi ci => (if pi ≠ ci then .crc ci 0 crcInit else .idle, q, none)
  | .crc ci k crc =>
    if k < crcLen then (.crc ci (k + 1) (crcStep crc (q.slot ci k)), q, none)
    else (.compare ci (crcValue crc), q, none)
  | .compare ci cksum => (if cksum ≠ msgCrc (q.slot ci) then .idle else .saveAddr ci, q, none)
  | .saveAddr ci => (.complete ci, q, some (.userAddr (msgIndex (q.slot ci)) ci))
  | .complete ci => (.storeCi ci, q, some (.completed (msgIndex (q.slot ci))))
  | .storeCi ci => (.readPi, { q with ci := (ci + 1) % msgQDepth }, none)

def msgDataTxMinSize : ℕ := 6
def msgDataRxMinSize : ℕ := 8

def msgTxLenOverflowError : ℤ := 1
def msgTxLenUnderflowError : ℤ := 2
def msgRxMsgOverflowError : ℤ := 3
def msgRxLenUnderflowError : ℤ := 4
def msgTxTimeOutError : ℤ := 5
def msgRxTimeOutError : ℤ := 6
def msgTxBufferNullError : ℤ := 7
def msgRxBufferNullError : ℤ := 8
def msgGetDataBufferError : ℤ := 9
def msgCpFromUserCmdError : ℤ := 10
def msgCpFromUserDataError : ℤ := 11
def msgCpToUserCmdError : ℤ := 12
def msgCpToUserDataError : ℤ := 13
def msgCommInternalError : ℤ := 15

/-- `sec_module_cmd_s`, with the pointers as addresses. -/
structure SecModuleCmd where
  sBuff : ℕ
  sLen : ℕ
  rBuff : ℕ
  rLen : ℕ

def msgCheckIoctlUserData (cmd : SecModuleCmd) : ℤ :=
  if msgDataMaxSize < cmd.sLen then -msgTxLenOverflowError
  else if cmd.sLen < msgDataTxMinSize then -msgTxLenUnderflowError
  else if cmd.rLen < msgDataRxMinSize then -msgRxLenUnderflowError
  else if cmd.rBuff = 0 then -msgRxBufferNullError
  else if cmd.sBuff = 0 then -msgTxBufferNullError
  else 0

/-- The return value, and how many bytes from the start of the data slot on were
given to `copy_to_user`. -/
structure CopyOut where
  ret : ℤ
  fromSlot : Option ℕ
deriving DecidableEq

def msgSecModuleCmdCpyToUser (cmd : SecModuleCmd) (dataOk cmdOk : Bool) : CopyOut :=
  if cmd.rLen = 0 then ⟨-msgCpToUserCmdError, none⟩
  else if !dataOk then ⟨-msgCpToUserCmdError, some cmd.rLen⟩
  else if !cmdOk then ⟨-msgCpToUserDataError, some cmd.rLen⟩
  else ⟨0, some cmd.rLen⟩

def msgSecModuleCmdReply (cmd : SecModuleCmd) (dataLen : ℕ) (dataOk cmdOk : Bool) : CopyOut :=
  if cmd.rLen < dataLen then ⟨-msgRxMsgOverflowError, none⟩
  else msgSecModuleCmdCpyToUser { cmd with rLen := dataLen } dataOk cmdOk

end HiMpu.MsgScm3
