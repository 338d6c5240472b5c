import Mathlib.Tactic

/-!
# Requests of the eMMC and SD host

`hi_mci_request` of `drivers/sdio/himci.c` and the helpers it calls, on a
request and everything the hardware may answer to it.  A helper signals failure
by its return value, in the command or in the data, and only some of these reach
`mmc_request_done`.  A loop that runs until a time is past reads the registers a
finite number of times, so its reads are a list.
-/

namespace HiMpu.Himci

def einval : ℤ := 22
def eio : ℤ := 5
def enomem : ℤ := 12
def enodev : ℤ := 19
def eilseq : ℤ := 84
def etimedout : ℤ := 110

def maxRetryCount : ℕ := 1000
def emmcGetHwLockRetryCount : ℕ := 10000
def dmaBuffer : BitVec 32 := 0x2000
def maxDes : BitVec 32 := 16 * 4096 / 16
def mmcDataWrite : ℕ := 8
def mmcDataRead : ℕ := 9
def fifoResetBit : ℕ := 1
def startCmdBit : ℕ := 31
def dataBusyBit : ℕ := 9
def dmaDoneBit : ℕ := 31
def reIntStatus : ℕ := 1
def cdIntStatus : ℕ := 2
def rcrcIntStatus : ℕ := 6
def dcrcIntStatus : ℕ := 7
def rtoIntStatus : ℕ := 8
def drtoIntStatus : ℕ := 9
def htoIntStatus : ℕ := 10
def frunIntStatus : ℕ := 11
def hleIntStatus : ℕ := 12
def sbeIntStatus : ℕ := 13
def ebeIntStatus : ℕ := 15

structure Command where
  error : ℤ

structure Data where
  blksz : BitVec 32
  blocks : BitVec 32
  flags : BitVec 32
  error : ℤ
  bytesXfered : BitVec 32

structure Request where
  cmd : Command
  data : Option Data
  stop : Option Command

inductive Slot
  | cmd
  | stop
  deriving DecidableEq

/-- The request as it is now, the pointers of the host, the commands written to
the CMD register, the mappings made and undone, and the request as it was at each
`mmc_request_done`. -/
structure State where
  mrq : Request
  hostMrq : Bool
  hostCmd : Option Slot
  hostData : Bool
  issued : List Slot
  maps : ℕ
  unmaps : ℕ
  done : List Request

/-- The answers of the hardware and of the DMA layer to one request. -/
structure Hardware where
  acquire : ℕ → ℤ
  unpluged : Bool
  dmaMapSg : ℕ
  ctrl : ℕ → BitVec 32
  cmdTx : List (BitVec 32 × BitVec 32)
  cmdIrq : List (BitVec 32)
  dtoTime : ℤ
  dtoPending : Bool
  dataIrq : BitVec 32
  busy : ℕ → BitVec 32
  desCtrl : List (BitVec 32)
  stopTx : List (BitVec 32 × BitVec 32)
  stopIrq : List (BitVec 32)

def poll (ready : ℕ → Bool) : ℕ → ℕ → Bool
  | 0, _ => false
  | n + 1, k => ready k || poll ready n (k + 1)

def hiMciWaitCmdTxSuccess : List (BitVec 32 × BitVec 32) → ℤ
  | [] => -etimedout
  | (cmd, rintsts) :: rest =>
    if !cmd.getLsbD startCmdBit then 0
    else if rintsts.getLsbD hleIntStatus then -eio
    else hiMciWaitCmdTxSuccess rest

def hiMciGetHwLock (emmc : Bool) (hw : Hardware) : ℤ :=
  if emmc then
    if poll (fun k => hw.acquire k = 0) (emmcGetHwLockRetryCount + 1) 0 then 0
    else hw.acquire emmcGetHwLockRetryCount
  else 0

/-! ## The request -/

def Request.mapError (r : Request) (f : ℤ → ℤ) : Slot → Request
  | .cmd => { r with cmd := ⟨f r.cmd.error⟩ }
  | .stop => { r with stop := r.stop.map fun c => ⟨f c.error⟩ }

def State.setCmdError (s : State) (error : ℤ) : State :=
  { s with mrq := s.mrq.mapError (fun _ => error) .cmd }

def State.mapData (s : State) (f : Data → Data) : State :=
  { s with mrq := { s.mrq with data := s.mrq.data.map f } }

def hiMciFinishRequest (s : State) : State :=
  { s with hostMrq := false, hostCmd := none, hostData := false, done := s.done ++ [s.mrq] }

def hiMciExecCmd (s : State) (slot : Slot) (tx : List (BitVec 32 × BitVec 32)) : State × ℤ :=
  ({ s with hostCmd := some slot, issued := s.issued ++ [slot] },
    if hiMciWaitCmdTxSuccess tx ≠ 0 then -einval else 0)

def cmdDoneError (error : ℤ) (stats : BitVec 32) : ℤ :=
  let error := if stats.getLsbD rtoIntStatus then -etimedout else error
  let error := if stats.getLsbD reIntStatus then -eilseq else error
  if stats.getLsbD rcrcIntStatus then -eilseq else error

def hiMciCmdDone (s : State) (slot : Slot) (stats : BitVec 32) : State :=
  { s with mrq := s.mrq.mapError (fun error => cmdDoneError error stats) slot, hostCmd := none }

def response (irqs : List (BitVec 32)) : Option (BitVec 32) :=
  irqs.find? fun irq => irq.getLsbD cdIntStatus

def hiMciWaitCmdComplete (s : State) (irqs : List (BitVec 32)) : State × ℤ :=
  match s.hostCmd with
  | none => (s, -eio)
  | some slot =>
    match response irqs with
    | some stats => (hiMciCmdDone s slot stats, 0)
    | none => ({ s with mrq := s.mrq.mapError (fun _ => -etimedout) slot }, -etimedout)

def dataDoneError (error : ℤ) (stats flag : BitVec 32) : ℤ :=
  let error := if stats.getLsbD htoIntStatus then -etimedout else error
  let error := if stats.getLsbD drtoIntStatus then -etimedout else error
  let error := if stats.getLsbD ebeIntStatus then -eilseq else error
  let error :=
    if stats.getLsbD sbeIntStatus && flag.getLsbD mmcDataRead then -eilseq else error
  let error := if stats.getLsbD frunIntStatus then -eilseq else error
  if stats.getLsbD dcrcIntStatus then -eilseq else error

def hiMciDataDone (s : State) (stats flag : BitVec 32) : State :=
  if s.hostData then
    { s.mapData fun d =>
        let error := dataDoneError d.error stats flag
        { d with error := error, bytesXfered := if error = 0 then d.blocks * d.blksz else 0 } with
      hostData := false }
  else s

def idle (emmc : Bool) (read : BitVec 32) : Bool :=
  if emmc then read.getLsbD sbeIntStatus else !read.getLsbD dataBusyBit

def leavesBusy (emmc : Bool) (hw : Hardware) : Bool :=
  poll (fun k => idle emmc (hw.busy k)) maxRetryCount 0

def dataDoneSignalled (hw : Hardware) : Prop := ¬ (hw.dtoTime ≤ 0 ∧ hw.dtoPending = false)

instance (hw : Hardware) : Decidable (dataDoneSignalled hw) :=
  inferInstanceAs (Decidable (¬ _))

def hiMciWaitDataComplete (emmc : Bool) (hw : Hardware) (s : State) (flag : BitVec 32) :
    State × ℤ :=
  if s.hostData then
    if dataDoneSignalled hw then
      let ret := if flag.getLsbD mmcDataWrite && !leavesBusy emmc hw then -etimedout else 0
      (hiMciDataDone s hw.dataIrq flag, ret)
    else
      (hiMciDataDone (s.mapData fun d => { d with error := -etimedout }) hw.dataIrq flag,
        -etimedout)
  else (s, -eio)

def dmaReleased (hw : Hardware) : Bool :=
  hw.desCtrl.any fun ctrl => !ctrl.getLsbD dmaDoneBit

def hiMciWaitDmaComplete (hw : Hardware) : ℤ :=
  if dmaReleased hw then 0 else -etimedout

def hiMciSetupData (hw : Hardware) (s : State) (d : Data) : State × ℤ :=
  let s := { s with hostData := true }
  if dmaBuffer * maxDes < d.blksz * d.blocks then (s, -enomem)
  else if hw.dmaMapSg = 0 then (s, -eio)
  else ({ s with maps := s.maps + 1 }, 0)

def fifoResets (hw : Hardware) : Bool :=
  poll (fun k => !(hw.ctrl k).getLsbD fifoResetBit) (maxRetryCount - 1) 0

def hiMciPrepareData (hw : Hardware) (s : State) : State × ℤ :=
  match s.mrq.data with
  | none => (s, 0)
  | some d =>
    let (s, ret) := hiMciSetupData hw s d
    if ret ≠ 0 then (s.mapData fun d => { d with error := ret }, ret)
    else if fifoResets hw then (s, 0)
    else ({ s with unmaps := s.unmaps + 1 }, -etimedout)

def sendStop (hw : Hardware) (s : State) : State :=
  if s.mrq.stop.isSome then
    let (s, ret) := hiMciExecCmd s .stop hw.stopTx
    if ret ≠ 0 then s.setCmdError ret
    else (hiMciWaitCmdComplete s hw.stopIrq).1
  else s

def hiMciSendData (emmc : Bool) (hw : Hardware) (s : State) : State :=
  let (s, ret) := hiMciExecCmd s .cmd hw.cmdTx
  if ret ≠ 0 then s.setCmdError ret
  else
    let (s, ret) := hiMciWaitCmdComplete s hw.cmdIrq
    if ret ≠ 0 then s
    else if s.mrq.cmd.error ≠ 0 then s
    else
      match s.mrq.data with
      | none => s
      | some d =>
        let (s, ret) := hiMciWaitDataComplete emmc hw s d.flags
        if ret ≠ 0 then s
        else if hiMciWaitDmaComplete hw ≠ 0 then s
        else sendStop hw s

def hiMciRequest (emmc : Bool) (hw : Hardware) (s : State) : State :=
  if hiMciGetHwLock emmc hw ≠ 0 then hiMciFinishRequest (s.setCmdError (-eilseq))
  else
    let s := { s with hostMrq := true }
    if hw.unpluged then hiMciFinishRequest (s.setCmdError (-enodev))
    else
      let (s, ret) := hiMciPrepareData hw s
      if ret ≠ 0 then hiMciFinishRequest s
      else
        let s := hiMciSendData emmc hw s
        let s := if s.mrq.data.isSome then { s with unmaps := s.unmaps + 1 } else s
        hiMciFinishRequest s

/-! ## What the block layer relies on -/

def cleanResponse (stats : BitVec 32) : Prop :=
  stats.getLsbD rtoIntStatus = false ∧ stats.getLsbD reIntStatus = false ∧
    stats.getLsbD rcrcIntStatus = false

def cleanData (stats flag : BitVec 32) : Prop :=
  stats.getLsbD htoIntStatus = false ∧ stats.getLsbD drtoIntStatus = false ∧
    stats.getLsbD ebeIntStatus = false ∧
    (stats.getLsbD sbeIntStatus && flag.getLsbD mmcDataRead) = false ∧
    stats.getLsbD frunIntStatus = false ∧ stats.getLsbD dcrcIntStatus = false

def Answered (hw : Hardware) : Prop :=
  hiMciWaitCmdTxSuccess hw.cmdTx = 0 ∧ ∃ stats, response hw.cmdIrq = some stats ∧
    cleanResponse stats

structure Transferred (emmc : Bool) (hw : Hardware) (d : Data) : Prop where
  signalled : dataDoneSignalled hw
  clean : cleanData hw.dataIrq d.flags
  notBusy : d.flags.getLsbD mmcDataWrite = true → leavesBusy emmc hw = true
  released : dmaReleased hw = true
  whole : d.bytesXfered = d.blksz * d.blocks

/-- The request comes back once, its errors tell the truth, and nothing of it is
left in the host or in the DMA layer. -/
structure Reported (emmc : Bool) (hw : Hardware) (s : State) : Prop where
  once : ∃ r, (hiMciRequest emmc hw s).done = s.done ++ [r]
  honest : ∀ r, (hiMciRequest emmc hw s).done = s.done ++ [r] → r.cmd.error = 0 →
    (∀ d, r.data = some d → d.error = 0) →
      s.issued ++ [.cmd] <+: (hiMciRequest emmc hw s).issued ∧ Answered hw ∧
        ∀ d, r.data = some d → Transferred emmc hw d
  cleared : (hiMciRequest emmc hw s).hostMrq = false ∧ (hiMciRequest emmc hw s).hostCmd = none ∧
    (hiMciRequest emmc hw s).hostData = false
  unmapped : (hiMciRequest emmc hw s).maps + s.unmaps = (hiMciRequest emmc hw s).unmaps + s.maps

structure Prepared (emmc : Bool) (hw : Hardware) (mrq : Request) (d : Data) : Prop where
  data : mrq.data = some d
  locked : hiMciGetHwLock emmc hw = 0
  pluged : hw.unpluged = false
  fits : ¬ dmaBuffer * maxDes < d.blksz * d.blocks
  mapped : hw.dmaMapSg ≠ 0

/-- A failure that no field of the request records: the FIFO stays in its reset,
or after an answered command and data without an error the written card stays
busy or the DMA engine keeps the descriptor. -/
def Silent (emmc : Bool) (hw : Hardware) (mrq : Request) : Prop :=
  ∃ d, Prepared emmc hw mrq d ∧ mrq.cmd.error = 0 ∧ d.error = 0 ∧
    (fifoResets hw = false ∨
      Answered hw ∧ dataDoneSignalled hw ∧ cleanData hw.dataIrq d.flags ∧
        (d.flags.getLsbD mmcDataWrite = true ∧ leavesBusy emmc hw = false ∨
          dmaReleased hw = false))

theorem cmdDoneError_eq_zero {error : ℤ} {stats : BitVec 32} :
    cmdDoneError error stats = 0 ↔ error = 0 ∧ cleanResponse stats := by
  unfold cmdDoneError cleanResponse
  simp only
  cases stats.getLsbD rtoIntStatus <;> cases stats.getLsbD reIntStatus <;>
    cases stats.getLsbD rcrcIntStatus <;> simp [etimedout, eilseq]

theorem dataDoneError_eq_zero {error : ℤ} {stats flag : BitVec 32} :
    dataDoneError error stats flag = 0 ↔ error = 0 ∧ cleanData stats flag := by
  unfold dataDoneError cleanData
  simp only
  cases stats.getLsbD htoIntStatus <;> cases stats.getLsbD drtoIntStatus <;>
    cases stats.getLsbD ebeIntStatus <;>
    cases (stats.getLsbD sbeIntStatus && flag.getLsbD mmcDataRead) <;>
    cases stats.getLsbD frunIntStatus <;> cases stats.getLsbD dcrcIntStatus <;>
    simp [etimedout, eilseq]

/-! ## What the helpers leave alone -/

structure Kept (s s' : State) : Prop where
  maps : s'.maps = s.maps
  unmaps : s'.unmaps = s.unmaps
  done : s'.done = s.done
  data : s'.mrq.data.isSome = s.mrq.data.isSome
  issued : s.issued <+: s'.issued

section Frame

variable {s s' s'' : State}

theorem Kept.refl (s : State) : Kept s s := ⟨rfl, rfl, rfl, rfl, List.prefix_rfl⟩

theorem Kept.trans (h : Kept s s') (h' : Kept s' s'') : Kept s s'' :=
  ⟨h'.maps.trans h.maps, h'.unmaps.trans h.unmaps, h'.done.trans h.done, h'.data.trans h.data,
    h.issued.trans h'.issued⟩

theorem kept_setCmdError (s : State) (error : ℤ) : Kept s (s.setCmdError error) :=
  ⟨rfl, rfl, rfl, rfl, List.prefix_rfl⟩

theorem kept_mapData (s : State) (f : Data → Data) : Kept s (s.mapData f) :=
  ⟨rfl, rfl, rfl, Option.isSome_map, List.prefix_rfl⟩

theorem kept_execCmd (s : State) (slot : Slot) (tx : List (BitVec 32 × BitVec 32)) :
    Kept s (hiMciExecCmd s slot tx).1 :=
  ⟨rfl, rfl, rfl, rfl, List.prefix_append _ _⟩

theorem kept_waitCmdComplete (s : State) (irqs : List (BitVec 32)) :
    Kept s (hiMciWaitCmdComplete s irqs).1 := by
  unfold hiMciWaitCmdComplete
  split
  next => exact Kept.refl s
  next slot _ =>
    split <;> cases slot <;> exact ⟨rfl, rfl, rfl, rfl, List.prefix_rfl⟩

theorem kept_dataDone (s : State) (stats flag : BitVec 32) :
    Kept s (hiMciDataDone s stats flag) := by
  unfold hiMciDataDone
  split
  next => exact ⟨rfl, rfl, rfl, Option.isSome_map, List.prefix_rfl⟩
  next => exact Kept.refl s

theorem kept_waitDataComplete (emmc : Bool) (hw : Hardware) (s : State) (flag : BitVec 32) :
    Kept s (hiMciWaitDataComplete emmc hw s flag).1 := by
  unfold hiMciWaitDataComplete
  split
  next =>
    split
    next => exact kept_dataDone s _ _
    next => exact (kept_mapData s _).trans (kept_dataDone _ _ _)
  next => exact Kept.refl s

theorem kept_sendStop (hw : Hardware) (s : State) : Kept s (sendStop hw s) := by
  unfold sendStop
  split
  next =>
    have hexec := kept_execCmd s .stop hw.stopTx
    simp only
    split
    next => exact hexec.trans (kept_setCmdError _ _)
    next => exact hexec.trans (kept_waitCmdComplete _ _)
  next => exact Kept.refl s

theorem kept_sendData (emmc : Bool) (hw : Hardware) (s : State) :
    Kept (hiMciExecCmd s .cmd hw.cmdTx).1 (hiMciSendData emmc hw s) := by
  have hwait := kept_waitCmdComplete (hiMciExecCmd s .cmd hw.cmdTx).1 hw.cmdIrq
  unfold hiMciSendData
  simp only
  split
  next => exact kept_setCmdError _ _
  next =>
    split
    next => exact hwait
    next =>
      split
      next => exact hwait
      next =>
        split
        next => exact hwait
        next d _ =>
          have hdata := hwait.trans (kept_waitDataComplete emmc hw _ d.flags)
          split
          next => exact hdata
          next =>
            split
            next => exact hdata
            next => exact hdata.trans (kept_sendStop hw _)

end Frame

/-! ## Outcomes of the helpers -/

section Outcome

variable {emmc : Bool} {hw : Hardware} {s : State} {d : Data} {flag : BitVec 32}

theorem waitCmdComplete_of_response {irqs : List (BitVec 32)} {slot : Slot} {stats : BitVec 32}
    (hslot : s.hostCmd = some slot) (h : response irqs = some stats) :
    hiMciWaitCmdComplete s irqs = (hiMciCmdDone s slot stats, 0) := by
  simp only [hiMciWaitCmdComplete, hslot, h]

theorem waitCmdComplete_of_silence {irqs : List (BitVec 32)} {slot : Slot}
    (hslot : s.hostCmd = some slot) (h : response irqs = none) :
    hiMciWaitCmdComplete s irqs =
      ({ s with mrq := s.mrq.mapError (fun _ => -etimedout) slot }, -etimedout) := by
  simp only [hiMciWaitCmdComplete, hslot, h]

def Data.finished (d : Data) (stats flag : BitVec 32) : Data :=
  { d with
    error := dataDoneError d.error stats flag
    bytesXfered := if dataDoneError d.error stats flag = 0 then d.blocks * d.blksz else 0 }

theorem dataDone_data {stats : BitVec 32} (hhost : s.hostData = true)
    (hdata : s.mrq.data = some d) :
    (hiMciDataDone s stats flag).mrq.data = some (d.finished stats flag) := by
  simp [hiMciDataDone, hhost, State.mapData, hdata, Data.finished]

theorem waitDataComplete_of_signalled (emmc : Bool) (flag : BitVec 32)
    (hhost : s.hostData = true) (h : dataDoneSignalled hw) :
    hiMciWaitDataComplete emmc hw s flag =
      (hiMciDataDone s hw.dataIrq flag,
        if flag.getLsbD mmcDataWrite && !leavesBusy emmc hw then -etimedout else 0) := by
  simp only [hiMciWaitDataComplete, hhost, if_pos h, if_true]

theorem waitDataComplete_of_timeout (emmc : Bool) (flag : BitVec 32)
    (hhost : s.hostData = true) (hdata : s.mrq.data = some d) (h : ¬ dataDoneSignalled hw) :
    (hiMciWaitDataComplete emmc hw s flag).2 ≠ 0 ∧
      ∃ d', (hiMciWaitDataComplete emmc hw s flag).1.mrq.data = some d' ∧ d'.error ≠ 0 := by
  simp only [hiMciWaitDataComplete, hhost, if_neg h, if_true]
  refine ⟨by simp [etimedout], _, dataDone_data (d := { d with error := -etimedout }) hhost ?_, ?_⟩
  · simp [State.mapData, hdata]
  · simp [Data.finished, dataDoneError_eq_zero, etimedout]

theorem waitCmdComplete_data (s : State) (irqs : List (BitVec 32)) :
    (hiMciWaitCmdComplete s irqs).1.mrq.data = s.mrq.data := by
  unfold hiMciWaitCmdComplete
  split
  next => rfl
  next slot _ => split <;> cases slot <;> rfl

theorem sendStop_data (hw : Hardware) (s : State) : (sendStop hw s).mrq.data = s.mrq.data := by
  unfold sendStop
  split
  next =>
    simp only
    split
    next => rfl
    next => exact waitCmdComplete_data _ _
  next => rfl

def sendRest (emmc : Bool) (hw : Hardware) (s : State) (stats : BitVec 32) : State :=
  let s := hiMciCmdDone (hiMciExecCmd s .cmd hw.cmdTx).1 .cmd stats
  if s.mrq.cmd.error ≠ 0 then s
  else
    match s.mrq.data with
    | none => s
    | some d =>
      let (s, ret) := hiMciWaitDataComplete emmc hw s d.flags
      if ret ≠ 0 then s
      else if hiMciWaitDmaComplete hw ≠ 0 then s
      else sendStop hw s

theorem sendData_of_response {stats : BitVec 32} (htx : hiMciWaitCmdTxSuccess hw.cmdTx = 0)
    (hresp : response hw.cmdIrq = some stats) :
    hiMciSendData emmc hw s = sendRest emmc hw s stats := by
  unfold hiMciSendData sendRest
  have hexec : (hiMciExecCmd s .cmd hw.cmdTx).2 = 0 := by simp [hiMciExecCmd, htx]
  have hwait := waitCmdComplete_of_response (s := (hiMciExecCmd s .cmd hw.cmdTx).1) rfl hresp
  simp only [hexec, hwait, ne_eq, not_true, if_false]

theorem sendRest_of_cmdError {stats : BitVec 32}
    (h : cmdDoneError s.mrq.cmd.error stats ≠ 0) :
    (sendRest emmc hw s stats).mrq.cmd.error ≠ 0 := by
  simp [sendRest, hiMciCmdDone, hiMciExecCmd, Request.mapError, h]

theorem sendRest_data {stats : BitVec 32} (herr : cmdDoneError s.mrq.cmd.error stats = 0)
    (hdata : s.mrq.data = some d) :
    (sendRest emmc hw s stats).mrq.data =
      (hiMciWaitDataComplete emmc hw
        (hiMciCmdDone (hiMciExecCmd s .cmd hw.cmdTx).1 .cmd stats) d.flags).1.mrq.data := by
  have hdone : (hiMciCmdDone (hiMciExecCmd s .cmd hw.cmdTx).1 .cmd stats).mrq.data = some d :=
    hdata
  have hcmd : (hiMciCmdDone (hiMciExecCmd s .cmd hw.cmdTx).1 .cmd stats).mrq.cmd.error = 0 :=
    herr
  unfold sendRest
  simp only [hdone, hcmd, ne_eq, not_true, if_false]
  split
  next => rfl
  next =>
    split
    next => rfl
    next => exact sendStop_data _ _

theorem sendData_honest (hhost : ∀ d, s.mrq.data = some d → s.hostData = true)
    (hcmd : (hiMciSendData emmc hw s).mrq.cmd.error = 0)
    (hdata : ∀ d, (hiMciSendData emmc hw s).mrq.data = some d → d.error = 0) :
    s.mrq.cmd.error = 0 ∧ Answered hw ∧
      ∀ d, s.mrq.data = some d → d.error = 0 ∧ dataDoneSignalled hw ∧
        cleanData hw.dataIrq d.flags ∧
        (hiMciSendData emmc hw s).mrq.data = some (d.finished hw.dataIrq d.flags) := by
  by_cases htx : hiMciWaitCmdTxSuccess hw.cmdTx = 0
  case neg =>
    simp [hiMciSendData, hiMciExecCmd, htx, State.setCmdError, Request.mapError, einval] at hcmd
  cases hresp : response hw.cmdIrq with
  | none =>
    have hwait := waitCmdComplete_of_silence (s := (hiMciExecCmd s .cmd hw.cmdTx).1) rfl hresp
    have hexec : (hiMciExecCmd s .cmd hw.cmdTx).2 = 0 := by simp [hiMciExecCmd, htx]
    simp [hiMciSendData, hexec, hwait, Request.mapError, etimedout] at hcmd
  | some stats =>
    rw [sendData_of_response htx hresp] at hcmd hdata ⊢
    have herr : cmdDoneError s.mrq.cmd.error stats = 0 := by
      by_contra hne
      exact sendRest_of_cmdError hne hcmd
    obtain ⟨hfresh, hclean⟩ := cmdDoneError_eq_zero.mp herr
    refine ⟨hfresh, ⟨htx, stats, hresp, hclean⟩, fun d hd => ?_⟩
    have hrest : (sendRest emmc hw s stats).mrq.data = _ := sendRest_data herr hd
    have hdone : (hiMciCmdDone (hiMciExecCmd s .cmd hw.cmdTx).1 .cmd stats).mrq.data =
        some d := hd
    have hready : (hiMciCmdDone (hiMciExecCmd s .cmd hw.cmdTx).1 .cmd stats).hostData = true :=
      hhost d hd
    by_cases hsig : dataDoneSignalled hw
    case neg =>
      obtain ⟨-, d', hd', hne⟩ :=
        waitDataComplete_of_timeout emmc d.flags hready hdone hsig
      exact absurd (hdata d' (hrest.trans hd')) hne
    have hfin : (sendRest emmc hw s stats).mrq.data = some (d.finished hw.dataIrq d.flags) := by
      rw [hrest, waitDataComplete_of_signalled emmc d.flags hready hsig]
      exact dataDone_data hready hdone
    obtain ⟨hd0, hcleanData⟩ := dataDoneError_eq_zero.mp (hdata _ hfin)
    exact ⟨hd0, hsig, hcleanData, hfin⟩

theorem sendData_silent (hhost : s.hostData = true) (hdata : s.mrq.data = some d)
    (hfresh : s.mrq.cmd.error = 0 ∧ d.error = 0) (hanswered : Answered hw)
    (hsig : dataDoneSignalled hw)
    (hfail : d.flags.getLsbD mmcDataWrite = true ∧ leavesBusy emmc hw = false ∨
      dmaReleased hw = false) :
    (hiMciSendData emmc hw s).mrq.cmd.error = 0 ∧
      (hiMciSendData emmc hw s).mrq.data = some (d.finished hw.dataIrq d.flags) := by
  obtain ⟨htx, stats, hresp, hcleanResp⟩ := hanswered
  have herr : cmdDoneError s.mrq.cmd.error stats = 0 :=
    cmdDoneError_eq_zero.mpr ⟨hfresh.1, hcleanResp⟩
  rw [sendData_of_response htx hresp]
  have hdone : (hiMciCmdDone (hiMciExecCmd s .cmd hw.cmdTx).1 .cmd stats).mrq.data =
      some d := hdata
  have hcmd : (hiMciCmdDone (hiMciExecCmd s .cmd hw.cmdTx).1 .cmd stats).mrq.cmd.error = 0 :=
    herr
  have hready : (hiMciCmdDone (hiMciExecCmd s .cmd hw.cmdTx).1 .cmd stats).hostData = true :=
    hhost
  have hwait := waitDataComplete_of_signalled emmc d.flags hready hsig
  constructor
  case right =>
    rw [sendRest_data herr hdata, hwait]
    exact dataDone_data hready hdone
  case left =>
    have hdma : dmaReleased hw = false → hiMciWaitDmaComplete hw ≠ 0 := by
      intro h
      simp [hiMciWaitDmaComplete, h, etimedout]
    have hkeep : (hiMciDataDone (hiMciCmdDone (hiMciExecCmd s .cmd hw.cmdTx).1 .cmd stats)
        hw.dataIrq d.flags).mrq.cmd.error = 0 := by
      simp [hiMciDataDone, hready, State.mapData, hcmd]
    unfold sendRest
    simp only [hdone, hcmd, hwait, ne_eq, not_true, if_false]
    split
    next => exact hkeep
    next hbusy =>
      cases hfail with
      | inl h => simp [h.1, h.2] at hbusy
      | inr h =>
        rw [if_pos (hdma h)]
        exact hkeep

end Outcome

inductive Course (emmc : Bool) (hw : Hardware) (s : State) : State → Prop
  | refused (hostMrq : Bool) (error : ℤ) :
      hiMciGetHwLock emmc hw ≠ 0 ∨ hw.unpluged = true → error ≠ 0 →
      Course emmc hw s ({ s with hostMrq := hostMrq }.setCmdError error)
  | unmapped (d : Data) (error : ℤ) :
      s.mrq.data = some d → dmaBuffer * maxDes < d.blksz * d.blocks ∨ hw.dmaMapSg = 0 →
      error ≠ 0 →
      Course emmc hw s
        ({ s with hostMrq := true, hostData := true }.mapData fun d => { d with error := error })
  | stuck (d : Data) :
      Prepared emmc hw s.mrq d → fifoResets hw = false →
      Course emmc hw s
        { s with hostMrq := true, hostData := true, maps := s.maps + 1, unmaps := s.unmaps + 1 }
  | command :
      s.mrq.data = none → Course emmc hw s (hiMciSendData emmc hw { s with hostMrq := true })
  | transfer (d : Data) (s' : State) :
      Prepared emmc hw s.mrq d → fifoResets hw = true →
      s' = hiMciSendData emmc hw { s with hostMrq := true, hostData := true, maps := s.maps + 1 } →
      Course emmc hw s { s' with unmaps := s'.unmaps + 1 }

section Request

variable {emmc : Bool} {hw : Hardware} {s s' : State} {d : Data}

theorem prepareData_of_setupFails (hdata : s.mrq.data = some d)
    (h : dmaBuffer * maxDes < d.blksz * d.blocks ∨ hw.dmaMapSg = 0) :
    ∃ error, error ≠ 0 ∧ hiMciPrepareData hw s =
      ({ s with hostData := true }.mapData fun d => { d with error := error }, error) := by
  by_cases hbig : dmaBuffer * maxDes < d.blksz * d.blocks
  case pos => exact ⟨-enomem, by simp [enomem], by simp [hiMciPrepareData, hiMciSetupData, *, enomem]⟩
  case neg =>
    have hmap : hw.dmaMapSg = 0 := h.resolve_left hbig
    exact ⟨-eio, by simp [eio], by simp [hiMciPrepareData, hiMciSetupData, *, eio]⟩

theorem prepareData_of_mapped (hdata : s.mrq.data = some d)
    (hfits : ¬ dmaBuffer * maxDes < d.blksz * d.blocks) (hmap : hw.dmaMapSg ≠ 0) :
    hiMciPrepareData hw s =
      if fifoResets hw then ({ s with hostData := true, maps := s.maps + 1 }, 0)
      else ({ s with hostData := true, maps := s.maps + 1, unmaps := s.unmaps + 1 },
        -etimedout) := by
  simp [hiMciPrepareData, hiMciSetupData, *]

theorem request_course (emmc : Bool) (hw : Hardware) (s : State) :
    ∃ s', Course emmc hw s s' ∧ hiMciRequest emmc hw s = hiMciFinishRequest s' := by
  unfold hiMciRequest
  split
  next hlock => exact ⟨_, .refused s.hostMrq (-eilseq) (.inl hlock) (by simp [eilseq]), rfl⟩
  next hlock =>
    simp only
    split
    next hplug => exact ⟨_, .refused true (-enodev) (.inr hplug) (by simp [enodev]), rfl⟩
    next hplug =>
      cases hdata : s.mrq.data with
      | none =>
        have hprep : hiMciPrepareData hw { s with hostMrq := true } =
            ({ s with hostMrq := true }, 0) := by simp [hiMciPrepareData, hdata]
        have hnone : (hiMciSendData emmc hw { s with hostMrq := true }).mrq.data.isSome =
            false := by
          rw [(kept_sendData emmc hw { s with hostMrq := true }).data]
          simp [hiMciExecCmd, hdata]
        exact ⟨_, .command hdata, by simp [hprep, hnone]⟩
      | some d =>
        by_cases hsetup : dmaBuffer * maxDes < d.blksz * d.blocks ∨ hw.dmaMapSg = 0
        case pos =>
          obtain ⟨error, herror, hprep⟩ :=
            prepareData_of_setupFails (s := { s with hostMrq := true }) hdata hsetup
          exact ⟨_, .unmapped d error hdata hsetup herror, by simp [hprep, herror]⟩
        case neg =>
          obtain ⟨hfits, hmap⟩ := not_or.mp hsetup
          have hready : Prepared emmc hw s.mrq d :=
            ⟨hdata, not_not.mp hlock, Bool.eq_false_of_not_eq_true hplug, hfits, hmap⟩
          have hprep := prepareData_of_mapped (s := { s with hostMrq := true }) hdata hfits hmap
          cases hfifo : fifoResets hw with
          | false => exact ⟨_, .stuck d hready hfifo, by simp [hprep, hfifo, etimedout]⟩
          | true =>
            have hsome : (hiMciSendData emmc hw { s with
                hostMrq := true, hostData := true, maps := s.maps + 1 }).mrq.data.isSome =
                true := by
              rw [(kept_sendData emmc hw _).data]
              simp [hiMciExecCmd, hdata]
            exact ⟨_, .transfer d _ hready hfifo rfl, by simp [hprep, hfifo, hsome]⟩

theorem Course.balanced (h : Course emmc hw s s') :
    s'.done = s.done ∧ s'.maps + s.unmaps = s'.unmaps + s.maps := by
  cases h with
  | refused => exact ⟨rfl, Nat.add_comm _ _⟩
  | unmapped => exact ⟨rfl, Nat.add_comm _ _⟩
  | stuck => exact ⟨rfl, by simp only; omega⟩
  | command =>
    have hkept := kept_sendData emmc hw { s with hostMrq := true }
    refine ⟨hkept.done, ?_⟩
    rw [hkept.maps, hkept.unmaps]
    exact Nat.add_comm _ _
  | transfer d s₁ _ _ hs₁ =>
    have hkept := kept_sendData emmc hw
      { s with hostMrq := true, hostData := true, maps := s.maps + 1 }
    rw [← hs₁] at hkept
    refine ⟨hkept.done, ?_⟩
    simp only [hkept.maps, hkept.unmaps, hiMciExecCmd]
    omega

theorem Course.honest (h : Course emmc hw s s') (hloud : ¬ Silent emmc hw s.mrq)
    (hcmd : s'.mrq.cmd.error = 0) (hdata : ∀ d, s'.mrq.data = some d → d.error = 0) :
    s.issued ++ [.cmd] <+: s'.issued ∧ Answered hw ∧
      ∀ d, s'.mrq.data = some d → Transferred emmc hw d := by
  cases h with
  | refused _ error _ herror => exact absurd hcmd herror
  | unmapped d error hd _ herror =>
    exact absurd (hdata { d with error := error } (by simp [State.mapData, hd])) herror
  | stuck d hprep hfifo =>
    exact absurd ⟨d, hprep, hcmd, hdata d hprep.data, .inl hfifo⟩ hloud
  | command hnone =>
    have hkept := kept_sendData emmc hw { s with hostMrq := true }
    obtain ⟨-, hanswered, -⟩ := sendData_honest (by simp [hnone]) hcmd hdata
    refine ⟨hkept.issued, hanswered, fun d hd => ?_⟩
    have hsome := hkept.data
    simp [hd, hiMciExecCmd, hnone] at hsome
  | transfer d s₁ hprep hfifo hs₁ =>
    have hkept := kept_sendData emmc hw
      { s with hostMrq := true, hostData := true, maps := s.maps + 1 }
    rw [hs₁] at hcmd hdata ⊢
    obtain ⟨hfresh, hanswered, htrans⟩ := sendData_honest (fun _ _ => rfl) hcmd hdata
    obtain ⟨hd0, hsig, hclean, hfin⟩ := htrans d hprep.data
    refine ⟨hkept.issued, hanswered, fun d' hd' => ?_⟩
    obtain rfl : d.finished hw.dataIrq d.flags = d' := Option.some.inj (hfin.symm.trans hd')
    -- what is left of a silent failure: the card stays busy, or the descriptor is kept
    have hquiet : ¬ (d.flags.getLsbD mmcDataWrite = true ∧ leavesBusy emmc hw = false ∨
        dmaReleased hw = false) := fun hbad =>
      hloud ⟨d, hprep, hfresh, hd0, .inr ⟨hanswered, hsig, hclean, hbad⟩⟩
    have herr : dataDoneError d.error hw.dataIrq d.flags = 0 :=
      dataDoneError_eq_zero.mpr ⟨hd0, hclean⟩
    exact {
      signalled := hsig
      clean := hclean
      notBusy := fun hwrite => by
        by_contra hbusy
        exact hquiet (.inl ⟨hwrite, Bool.eq_false_of_not_eq_true hbusy⟩)
      released := by
        by_contra hkeep
        exact hquiet (.inr (Bool.eq_false_of_not_eq_true hkeep))
      whole := by simp [Data.finished, herr, BitVec.mul_comm] }

theorem Course.silent (h : Course emmc hw s s') (hsilent : Silent emmc hw s.mrq) :
    s'.mrq.cmd.error = 0 ∧ (∀ d, s'.mrq.data = some d → d.error = 0) ∧
      ¬ (s.issued ++ [.cmd] <+: s'.issued ∧ ∀ d, s'.mrq.data = some d → Transferred emmc hw d) := by
  obtain ⟨d, hprep, hcmd, hd0, hfail⟩ := hsilent
  cases h with
  | refused _ _ hrefused =>
    cases hrefused with
    | inl hlock => exact absurd hprep.locked hlock
    | inr hplug => simp [hprep.pluged] at hplug
  | unmapped d' error hd' hsetup =>
    obtain rfl : d = d' := Option.some.inj (hprep.data.symm.trans hd')
    exact absurd hsetup (not_or.mpr ⟨hprep.fits, hprep.mapped⟩)
  | stuck d' hprep' =>
    obtain rfl : d = d' := Option.some.inj (hprep.data.symm.trans hprep'.data)
    refine ⟨hcmd, fun d' hd' => ?_, fun ⟨hissued, _⟩ => ?_⟩
    · obtain rfl : d = d' := Option.some.inj (hprep.data.symm.trans hd')
      exact hd0
    · simpa using hissued.length_le
  | command hnone => simp [hprep.data] at hnone
  | transfer d' s₁ hprep' hfifo hs₁ =>
    obtain ⟨hanswered, hsig, hclean, hbad⟩ := hfail.resolve_left (by simp [hfifo])
    obtain ⟨hcmd', hfin⟩ := sendData_silent
      (s := { s with hostMrq := true, hostData := true, maps := s.maps + 1 })
      rfl hprep.data ⟨hcmd, hd0⟩ hanswered hsig hbad
    rw [← hs₁] at hcmd' hfin
    refine ⟨hcmd', fun d' hd' => ?_, fun ⟨_, htrans⟩ => ?_⟩
    · obtain rfl : d.finished hw.dataIrq d.flags = d' := Option.some.inj (hfin.symm.trans hd')
      exact dataDoneError_eq_zero.mpr ⟨hd0, hclean⟩
    · have hwhole := htrans _ hfin
      cases hbad with
      | inl hbusy => simp [hwhole.notBusy hbusy.1] at hbusy
      | inr hkept => simp [hwhole.released] at hkept

theorem Reported.not_silent (h : Reported emmc hw s) : ¬ Silent emmc hw s.mrq := by
  intro hsilent
  obtain ⟨s', hcourse, hreq⟩ := request_course emmc hw s
  obtain ⟨hcmd, hdata, hfail⟩ := hcourse.silent hsilent
  have honce : (hiMciRequest emmc hw s).done = s.done ++ [s'.mrq] := by
    rw [hreq, ← hcourse.balanced.1]
    rfl
  obtain ⟨hissued, -, htrans⟩ := h.honest s'.mrq honce hcmd hdata
  rw [hreq] at hissued
  exact hfail ⟨hissued, htrans⟩

end Request

/-! ## A card that stays busy -/

theorem poll_eq_false {ready : ℕ → Bool} (h : ∀ k, ready k = false) (n k : ℕ) :
    poll ready n k = false := by
  induction n generalizing k with
  | zero => rfl
  | succ n ih => rw [poll, h, ih, Bool.or_self]

theorem leavesBusy_eq_false {emmc : Bool} {hw : Hardware}
    (h : ∀ k, idle emmc (hw.busy k) = false) : leavesBusy emmc hw = false :=
  poll_eq_false h _ _

def busyCard : Hardware where
  acquire := fun _ => 0
  unpluged := false
  dmaMapSg := 1
  ctrl := fun _ => 0
  cmdTx := [(0, 0)]
  cmdIrq := [4]
  dtoTime := 1250
  dtoPending := true
  dataIrq := 0
  busy := fun _ => 0
  desCtrl := [0]
  stopTx := []
  stopIrq := []

def writeRequest : State where
  mrq := { cmd := ⟨0⟩, data := some ⟨512, 8, 0x100, 0, 0⟩, stop := none }
  hostMrq := false
  hostCmd := none
  hostData := false
  issued := []
  maps := 0
  unmaps := 0
  done := []

end HiMpu.Himci
