import HiMpu.DmaClient

/-!
# DMA transfers of the UART driver

`bm_uart_rx_dma` and `bm_uart_tx_dma` of `drivers/uart/uart.c` over the DMA driver.  The
request number of a transfer codes its UART and direction.  A call takes no semaphore, and
registers its callback before the DMA driver has accepted the transfer.
-/

namespace HiMpu.UartDma

open Dmac DmaClient

def uartNum2 : ℕ := 2
def uartNum4 : ℕ := 4
def uartNum5 : ℕ := 5
def uartMinNum : ℕ := 2
def uartMaxNum : ℕ := 7
def isOdd : ℕ := 2
def dwUartThr : ℕ := 0
def dmacReqSelUart2Tx : ℕ := 6
def dmacReqSelUart2Rx : ℕ := 7
def dmacReqSelUart4Rx : ℕ := 11
def dmacReqSelUart5Tx : ℕ := 44
def dmacReqSelUart5Rx : ℕ := 45

def regBases : List ℕ :=
  [0x0872A000, 0x0872B000, 0x08710000, 0x08711000, 0x08743000, 0x08744000, 0x0875D000, 0x0875E000]

structure UartBoard extends Board where
  uartExist : ℕ → Bool

def uartCheckValid (B : UartBoard) (uartNum : ℕ) : ℤ :=
  if uartMaxNum < uartNum ∨ uartNum < uartMinNum then bmFail
  else if !B.uartExist uartNum then bmFail
  else bmOk

def uartDmaGetDmacReq (id : ℕ) (isRead : Bool) : ℕ :=
  if id ≤ uartNum4 then
    if isRead then dmacReqSelUart2Rx + (id - uartNum2) * isOdd
    else dmacReqSelUart2Tx + (id - uartNum2) * isOdd
  else
    if isRead then dmacReqSelUart5Rx + (id - uartNum5) * isOdd
    else dmacReqSelUart5Tx + (id - uartNum5) * isOdd

def uartDmaGetIdFromReq (req : ℕ) : ℕ :=
  if req ≤ dmacReqSelUart4Rx then
    (req + 2 ^ 32 - dmacReqSelUart2Tx) % 2 ^ 32 / isOdd + uartNum2
  else (req + 2 ^ 32 - dmacReqSelUart5Tx) % 2 ^ 32 / isOdd + uartNum5

/-- An entry of one of the two callback arrays that a valid UART has. -/
structure Slot where
  id : ℕ
  isRead : Bool
  low : uartMinNum ≤ id
  high : id ≤ uartMaxNum
deriving DecidableEq

def slotAt (id : ℕ) (isRead : Bool) : Option Slot :=
  if h : uartMinNum ≤ id ∧ id ≤ uartMaxNum then some ⟨id, isRead, h.1, h.2⟩ else none

inductive UartTransmit where
  | writeOk
  | writeFail
  | readOk
  | readFail
deriving DecidableEq

structure Event where
  callback : ℕ
  id : ℕ
  state : UartTransmit
deriving DecidableEq

def finishState (isRead : Bool) (type : ℤ) : UartTransmit :=
  if isRead then (if type ≠ dmacTransmitOk then .readFail else .readOk)
  else (if type ≠ dmacTransmitOk then .writeFail else .writeOk)

def uartDmaFinishFunc (callback : Slot → Option ℕ) (req : ℕ) (type : ℤ) : List Event :=
  let uartId := uartDmaGetIdFromReq req
  let isRead := decide (req % isOdd ≠ 0)
  match (slotAt uartId isRead).bind callback with
  | some f => [⟨f, uartId, finishState isRead type⟩]
  | none => []

structure Args where
  isRead : Bool
  uartNo : ℕ
  buf : ℕ
  len : ℕ
  callback : Option ℕ

/-- `bm_uart_rx_dma` and `bm_uart_tx_dma` up to the registration.  The second test is that
of `bm_uart_core_base_addr`. -/
def uartDma (B : UartBoard) (a : Args) : Option (Call Slot) :=
  if uartCheckValid B a.uartNo ≠ bmOk ∨ a.buf = 0 ∨
      B.invalidAddrLen (a.buf % 2 ^ 32) a.len then none
  else (slotAt a.uartNo a.isRead).map fun slot => ⟨slot, a.buf, a.len, a.callback⟩

def bmUartRxDma (uartNo out len : ℕ) (callback : Option ℕ) : Args :=
  ⟨true, uartNo, out, len, callback⟩

def bmUartTxDma (uartNo str len : ℕ) (callback : Option ℕ) : Args :=
  ⟨false, uartNo, str, len, callback⟩

def served (slot : Slot) (callback : Option ℕ) (type : ℤ) : List Event :=
  match callback with
  | some f => [⟨f, slot.id, finishState slot.isRead type⟩]
  | none => []

theorem decode_getDmacReq {id : ℕ} (hlow : uartMinNum ≤ id) (hhigh : id ≤ uartMaxNum)
    (isRead : Bool) :
    uartDmaGetIdFromReq (uartDmaGetDmacReq id isRead) = id ∧
      decide (uartDmaGetDmacReq id isRead % isOdd ≠ 0) = isRead := by
  unfold uartMinNum at hlow
  unfold uartMaxNum at hhigh
  interval_cases id <;> cases isRead <;> decide

theorem uartDmaFinishFunc_req (callback : Slot → Option ℕ) (slot : Slot) (type : ℤ) :
    uartDmaFinishFunc callback (uartDmaGetDmacReq slot.id slot.isRead) type =
      served slot (callback slot) type := by
  obtain ⟨hid, hparity⟩ := decode_getDmacReq slot.low slot.high slot.isRead
  have hslot : slotAt slot.id slot.isRead = some slot := dif_pos ⟨slot.low, slot.high⟩
  unfold uartDmaFinishFunc served
  simp only [hid, hparity, hslot, Option.bind_some]

def uartClient (B : UartBoard) : Client Args Slot Event where
  prepare := uartDma B
  reqOf slot := uartDmaGetDmacReq slot.id slot.isRead
  fifo slot := regBases.getD slot.id 0 + dwUartThr
  isRead := Slot.isRead
  lock _ := none
  returned _ := []
  finish := uartDmaFinishFunc
  event := served
  finish_reqOf := uartDmaFinishFunc_req

def uartDmaSystem (B : UartBoard) :
    TransitionSystem (DmaClient.State Slot Event) (DmaClient.Label Args) :=
  DmaClient.system B.toBoard (uartClient B)

def openUart : UartBoard :=
  { exist := fun _ => true
    invalidAddrLen := fun _ _ => false
    uartExist := fun _ => true }

def replacingLabels : List (DmaClient.Label Args) :=
  [.register (bmUartTxDma 5 0x1000 4 (some 7)), .submit 0 true] ++
    List.replicate 6 (.dma (.advance 0)) ++
    [.register (bmUartTxDma 5 0x2000 4 (some 8)), .dma (.finish 0 true)]

def afterReplacing : DmaClient.State Slot Event :=
  (TransitionSystem.runSteps (DmaClient.next openUart.toBoard (uartClient openUart)) initial
    replacingLabels).get (by decide +kernel)

end HiMpu.UartDma
