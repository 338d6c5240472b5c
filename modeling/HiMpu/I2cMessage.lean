import Mathlib.Tactic

/-!
# I2C messages

`i2c_kmsg`, and what `i2c_core.c` does with a message before and after its transfer.
-/

namespace HiMpu.I2c

abbrev Byte := BitVec 8

def i2cEmsgattr : ℤ := 1011
def i2cEmsgworbuf : ℤ := 1012
def i2cEmsgnorbuf : ℤ := 1013
def i2cEmsgrcvlen : ℤ := 1014
def i2cEcrc : ℤ := 1027
def i2cEunsupsmbusproto : ℤ := 1028
def i2cEmsgsmbus : ℤ := 1029
def i2cExfer : ℤ := 1030
def emsgsize : ℤ := 90
def eagain : ℤ := 11

structure KmsgFlags where
  rd : Bool
  smbus : Bool
  ten : Bool
  recvLen : Bool
  pec : Bool
  dma : Bool
deriving DecidableEq

structure Kmsg where
  addr : BitVec 16
  flags : KmsgFlags
  protocol : ℕ
  recvdCrc : Byte
  retries : ℕ
  cmdLen : ℕ
  outstanding : ℕ
  rcnt : ℕ
  wcnt : ℕ
  wlen : ℕ
  wbuf : Option (ℕ → Byte)
  rlen : ℕ
  rbuf : Option (ℕ → Byte)

def Kmsg.w (msg : Kmsg) (i : ℕ) : Byte := msg.wbuf.getD (fun _ => 0) i

def Kmsg.r (msg : Kmsg) (i : ℕ) : Byte := msg.rbuf.getD (fun _ => 0) i

def Kmsg.payload (msg : Kmsg) : List Byte := (List.range msg.wlen).map msg.w

structure Quirks where
  maxWriteLen : ℕ
  maxReadLen : ℕ

def i2cCheckForMsgLength (msg : Kmsg) : ℤ :=
  if !msg.flags.rd then
    if msg.flags.recvLen then -i2cEmsgattr
    else if msg.rbuf.isSome ∨ msg.rlen ≠ 0 then -i2cEmsgworbuf
    else 0
  else if msg.rbuf.isNone ∨ msg.rlen = 0 then -i2cEmsgnorbuf
  else 0

def i2cCheckForMsgQuirks (quirks : Quirks) (msg : Kmsg) : ℤ :=
  if quirks.maxWriteLen < msg.wlen then -emsgsize
  else if msg.flags.recvLen = false ∧ quirks.maxReadLen < msg.rlen then -emsgsize
  else 0

def i2cCheckForMsg (quirks : Quirks) (msg : Kmsg) : ℤ :=
  if i2cCheckForMsgLength msg ≠ 0 then i2cCheckForMsgLength msg
  else if i2cCheckForMsgQuirks quirks msg ≠ 0 then i2cCheckForMsgQuirks quirks msg
  else if msg.flags.dma ∧ (msg.flags.recvLen ∨ msg.flags.smbus ∨ msg.flags.pec) then -i2cEmsgattr
  else if msg.flags.pec ∧ !msg.flags.smbus then -i2cEmsgattr
  else 0

def i2cXferResult (msg : Kmsg) : ℤ × Kmsg :=
  if msg.rcnt = 0 ∨ msg.rlen < msg.rcnt then (-i2cEmsgrcvlen, msg)
  else
    let msg :=
      if msg.flags.pec then { msg with recvdCrc := msg.r (msg.rcnt - 1), rlen := msg.rcnt - 1 }
      else { msg with rlen := msg.rcnt }
    (if 0 < msg.rlen then 0 else -i2cEmsgrcvlen, msg)

def i2cXferRlen (msg : Kmsg) : ℕ :=
  let cmdRlen := if msg.flags.recvLen then 1 else msg.rlen
  if msg.flags.rd then cmdRlen else 0

def i2cXferInit (msg : Kmsg) : Kmsg :=
  { msg with recvdCrc := 0, retries := min (if msg.retries = 0 then 3 else msg.retries) 10 }

end HiMpu.I2c
