import HiMpu.DmaClient
import HiMpu.SpiBlocking

/-!
# DMA transfers of the SPI driver

`bm_spi_write_dma` and `bm_spi_read_dma` of `drivers/spi/spi.c` over the DMA driver.  A call
holds the semaphore of its controller until the DMA driver has returned, not until the
transfer has ended.
-/

namespace HiMpu.SpiDma

open Dmac DmaClient

def dmacReqSelSpi0Tx : ℕ := 0
def dmacReqSelSpi0Rx : ℕ := 1
def dmacReqSelSpi1Tx : ℕ := 50
def spiDr0OffsetAddr : ℕ := 0x60
def spiId0 : ℕ := 0
def spiId1 : ℕ := 1

/-- `base` of `g_spi_peripheral_info`. -/
def base : List ℕ := [0x8713000, 0x8715000]

structure SpiBoard extends Board where
  spi : SpiBlocking.Board

structure Slot where
  id : Fin 2
  isRead : Bool
deriving DecidableEq

def spiDmaGetDmacReq (id : ℕ) (isRead : Bool) : ℕ :=
  if id ≤ spiId0 then
    if isRead then dmacReqSelSpi0Rx else dmacReqSelSpi0Tx
  else
    if isRead then dmacReqSelSpi1Rx else dmacReqSelSpi1Tx

inductive SpiTransmit where
  | writeOk
  | writeFail
  | readOk
  | readFail
deriving DecidableEq

inductive Event where
  | dmaEnabled (id mask : ℕ)
  | dmaDisabled (id mask : ℕ)
  | callback (f id : ℕ) (state : SpiTransmit)
deriving DecidableEq

def dmaMask (isRead : Bool) : ℕ := if isRead then 0x1 else 0x2

/-- A branch of `dma_finish_func` and the call of the callback behind it. -/
def served (slot : Slot) (callback : Option ℕ) (type : ℤ) : List Event :=
  let state :=
    if slot.isRead then (if type ≠ dmacTransmitOk then SpiTransmit.readFail else .readOk)
    else (if type ≠ dmacTransmitOk then .writeFail else .writeOk)
  .dmaDisabled slot.id (dmaMask slot.isRead) ::
    match callback with
    | some f => [.callback f slot.id state]
    | none => []

def dmaFinishFunc (callback : Slot → Option ℕ) (req : ℕ) (type : ℤ) : List Event :=
  let serve (slot : Slot) : List Event := served slot (callback slot) type
  if req = dmacReqSelSpi1Tx then serve ⟨⟨spiId1, by decide⟩, false⟩
  else if req = dmacReqSelSpi1Rx then serve ⟨⟨spiId1, by decide⟩, true⟩
  else if req = dmacReqSelSpi0Tx then serve ⟨⟨spiId0, by decide⟩, false⟩
  else if req = dmacReqSelSpi0Rx then serve ⟨⟨spiId0, by decide⟩, true⟩
  else []

structure Args where
  call : SpiBlocking.Call
  callback : Option ℕ

/-- `bm_spi_write_dma` for a call in the transmitting mode and `bm_spi_read_dma` for one in
the receiving mode, up to the registration. -/
def spiDma (B : SpiBoard) (a : Args) : Option (Call Slot) :=
  if SpiBlocking.bmSpiTransferParaCheck B.spi a.call = bmFail then none
  else
    match a.call.handle, a.call.data with
    | some handle, some data =>
      if h : handle.spiId < SpiBlocking.spiMaxCtl then
        match a.call.mode with
        | .tx => some ⟨⟨⟨handle.spiId, h⟩, false⟩, data.wBuf, data.wLen, a.callback⟩
        | .rx => some ⟨⟨⟨handle.spiId, h⟩, true⟩, data.rBuf, data.rLen, a.callback⟩
        | .txRx => none
      else none
    | _, _ => none

theorem dmaFinishFunc_req (callback : Slot → Option ℕ) (slot : Slot) (type : ℤ) :
    dmaFinishFunc callback (spiDmaGetDmacReq slot.id slot.isRead) type =
      served slot (callback slot) type := by
  obtain ⟨id, isRead⟩ := slot
  fin_cases id <;> cases isRead <;> rfl

def spiClient (B : SpiBoard) : Client Args Slot Event where
  prepare := spiDma B
  reqOf slot := spiDmaGetDmacReq slot.id slot.isRead
  fifo slot := base.getD slot.id 0 + spiDr0OffsetAddr
  isRead := Slot.isRead
  lock slot := some slot.id
  returned slot := [.dmaEnabled slot.id (dmaMask slot.isRead)]
  finish := dmaFinishFunc
  event := served
  finish_reqOf := dmaFinishFunc_req

def spiDmaSystem (B : SpiBoard) :
    TransitionSystem (DmaClient.State Slot Event) (DmaClient.Label Args) :=
  DmaClient.system B.toBoard (spiClient B)

def openSpi : SpiBoard :=
  { exist := fun _ => true
    invalidAddrLen := fun _ _ => false
    spi := ⟨fun _ => true, fun _ => true, fun _ _ => false⟩ }

def readCall : SpiBlocking.Call where
  mode := .rx
  handle := some ⟨1, 0⟩
  data := some ⟨0x1000, 4, 0, 0, 0⟩
  wBytes := fun _ => 0
  rBytes := fun _ => 0
  ctrlr0 := 7

def failingLabels : List (DmaClient.Label Args) :=
  [.register ⟨readCall, some 9⟩, .submit 0 true] ++ List.replicate 6 (.dma (.advance 0)) ++
    [.conclude 0, .dma (.finish 0 false)]

def afterFailing : DmaClient.State Slot Event :=
  (TransitionSystem.runSteps (DmaClient.next openSpi.toBoard (spiClient openSpi)) initial
    failingLabels).get (by decide +kernel)

end HiMpu.SpiDma
