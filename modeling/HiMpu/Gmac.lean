import HiMpu.BmTypes
import HiMpu.Securec
import HiMpu.TransitionSystem

/-!
# The GMAC driver

`drivers/net/gmac.c` and the PHY functions of `drivers/net/motor_phy.c` that it
calls.  Four ports share the driver; each has its device record, its MAC and
two buffers in either direction.  The values read from a PHY, the outcome of
the steps that can time out and the work of the MAC itself are inputs of a run.
A MAC register reads back what was written to it, so the readback checks of the
register functions succeed.
-/

namespace HiMpu.Gmac

def ethButt : ℕ := 4
def gmacPhyMaxAddr : ℕ := 0x1F
def chipRxFifoNum : ℕ := 2
def chipTxFifoNum : ℕ := 2
def rxBufferDefaultSize : ℕ := 0x640
def feMaxPktLen : ℕ := 1536
def cpuCacheLineSize : ℕ := 64
def cacheLineSize : ℕ := 32
def feRxSkip1 : ℕ := 0
def feRxSkip2 : ℕ := 1
def gmacDescPktLenHigh : ℕ := 8
def gmacDescPktLenLow : ℕ := 9

def phyLinkDown : BitVec 32 := 0
def phyLinkUp : BitVec 32 := 1
def mac10mRmii : BitVec 32 := 0
def mac100mRmii : BitVec 32 := 1
def mac1000mGmii : BitVec 32 := 2
def mac10mSgmii : BitVec 32 := 6
def mac100mSgmii : BitVec 32 := 7
def mac1000mSgmii : BitVec 32 := 8
def gmacDuplexHalf : BitVec 32 := 0
def gmacDuplexFull : BitVec 32 := 1

/-- `gmac_exist_array`, and the address ranges that `is_invalid_addr_len` rejects. -/
structure Board where
  exist : ℕ → Bool
  invalidAddrLen : ℕ → ℕ → Bool

/-! ## The PHYs -/

inductive PhyInfo where
  | yt8521
  | yt8512
deriving DecidableEq

def PhyInfo.identifier : PhyInfo → BitVec 32
  | .yt8521 => 0x11a
  | .yt8512 => 0x128

def phyInfoTable : List PhyInfo := [.yt8521, .yt8512]

def maskYt85xxSpeed : BitVec 32 := 0xc000
def phySpeed1000mMode : BitVec 32 := 0x8000
def phySpeed100mMode : BitVec 32 := 0x4000
def phySpeed10mMode : BitVec 32 := 0

def phyYt85xxGetLinkStatus : Option (BitVec 32) → Option (BitVec 32)
  | none => none
  | some value =>
    if value &&& 0xffff = 0xffff then none
    else some (if value.getLsbD 10 then phyLinkUp else phyLinkDown)

def duplexOf (value : BitVec 32) : BitVec 32 :=
  if value.getLsbD 13 then gmacDuplexFull else gmacDuplexHalf

def phyYt8521Speed (value : BitVec 32) : BitVec 32 :=
  if value &&& maskYt85xxSpeed = phySpeed1000mMode then mac1000mSgmii
  else if value &&& maskYt85xxSpeed = phySpeed100mMode then mac100mSgmii
  else if value &&& maskYt85xxSpeed = phySpeed10mMode then mac10mSgmii
  else mac1000mSgmii

def phyYt8512Speed (value : BitVec 32) : BitVec 32 :=
  if value &&& maskYt85xxSpeed = phySpeed1000mMode then mac1000mGmii
  else if value &&& maskYt85xxSpeed = phySpeed100mMode then mac100mRmii
  else if value &&& maskYt85xxSpeed = phySpeed10mMode then mac10mRmii
  else mac100mRmii

abbrev Mode := BitVec 32 × BitVec 32

/-- `get_speed_duplex` of the table entry.  Only the YT8521 takes a register of
all ones for a failed read. -/
def PhyInfo.getSpeedDuplex : PhyInfo → Option (BitVec 32) → Option Mode
  | _, none => none
  | .yt8521, some value =>
    if value &&& 0xffff = 0xffff then none
    else some (phyYt8521Speed value, duplexOf value)
  | .yt8512, some value => some (phyYt8512Speed value, duplexOf value)

/-! ## Devices and MACs -/

structure GmacDevice where
  macNum : ℕ
  phyAddr : ℕ
  /-- The entries of `rx_data_ring` and `tx_data_ring` are set.  They are set
  together, to the buffers of the port in their order. -/
  ringInit : Bool
  rxDataNum : ℕ
  txDataNum : ℕ
  initDone : Bool
  linkStatus : BitVec 32
  linkSpeed : BitVec 32
  linkMode : BitVec 32
  gmacPhyInfo : Option PhyInfo

structure Mac where
  duplexType : BitVec 32
  portMode : BitVec 32
  modeChangeEn : BitVec 32
  portEn : BitVec 32
  statRxFrm : Bool
  rxCff : List ℕ
  /-- The frames posted to `PCU_TX_CFF_ADDR_*_REG` as buffer and length, oldest first. -/
  txCff : List (ℕ × ℕ)
  rxBuffer : ℕ → Mem
  txBuffer : ℕ → Mem

def Mac.mode (mac : Mac) : Mode :=
  (mac.portMode &&& 0xf, mac.duplexType &&& 1)

structure Log where
  arrived : List (List UInt8)
  pending : List (ℕ × List UInt8)
  /-- The frames whose buffer was posted again, with that buffer. -/
  consumed : List (ℕ × List UInt8)
  reposted : List ℕ
  delivered : List (List UInt8)
  sent : List (List UInt8)
  transmitted : List (List UInt8)

def Log.empty : Log := ⟨[], [], [], [], [], [], []⟩

structure Port where
  dev : GmacDevice
  mac : Mac
  log : Log

structure State where
  port : ℕ → Port
  /-- The static variables of `gmac_update_speed_duplex`. -/
  oldSpeed : BitVec 32
  oldMode : BitVec 32
  /-- The port whose update stored these two, as long as no `bm_net_init` of that
  port has passed its checks since. -/
  holder : Option ℕ

def State.setPort (s : State) (eth : ℕ) (p : Port) : State :=
  { s with port := Function.update s.port eth p }

def powerOn : State :=
  let dev : GmacDevice := ⟨0, 0, false, 0, 0, false, 0, 0, 0, none⟩
  let mac : Mac := ⟨0, 0, 0, 0, false, [], [], fun _ _ => 0, fun _ _ => 0⟩
  ⟨fun _ => ⟨dev, mac, Log.empty⟩, 0, 0, none⟩

/-! ## Register functions -/

def rxEn : BitVec 32 := 2
def txEn : BitVec 32 := 4

def gmacHwEnable (mac : Mac) (mask : BitVec 32) (isEnable : Bool) : Mac :=
  { mac with portEn := regReadWrite mac.portEn mask (if isEnable then mask else 0) }

def gmacHwRxEnable (mac : Mac) (isEnable : Bool) : Mac := gmacHwEnable mac rxEn isEnable
def gmacHwTxEnable (mac : Mac) (isEnable : Bool) : Mac := gmacHwEnable mac txEn isEnable

def gmacHwSetPortMode (mac : Mac) (mode duplex : BitVec 32) : Mac :=
  let off := gmacHwRxEnable (gmacHwTxEnable mac false) false
  { off with
    duplexType := regReadWrite off.duplexType 1 duplex
    portMode := regReadWrite off.portMode 0xf mode
    modeChangeEn := regReadWrite off.modeChangeEn 1 1 }

def gmacHwStart (mac : Mac) : Mac := gmacHwTxEnable (gmacHwRxEnable mac true) true

def defaultSpeed (macNum : ℕ) : BitVec 32 :=
  if macNum = 0 ∨ macNum = 1 then mac100mRmii else mac1000mSgmii

def getPhySpeedDuplex (priv : GmacDevice) (value : Option (BitVec 32)) (duplex : BitVec 32) :
    Mode :=
  match priv.gmacPhyInfo.bind fun phy => phy.getSpeedDuplex value with
  | some mode => mode
  | none => (defaultSpeed priv.macNum, duplex)

/-! ## Link tracking -/

structure PhyReading where
  link : Option (BitVec 32)
  speed : Option (BitVec 32)

def updateStatus (s : State) (eth : ℕ) (r : PhyReading) : Option (BitVec 32) :=
  let priv := (s.port eth).dev
  if ethButt ≤ eth ∨ priv.macNum ≠ eth ∨ priv.initDone = false then none
  else priv.gmacPhyInfo.bind fun _ => phyYt85xxGetLinkStatus r.link

def updateMode (s : State) (eth : ℕ) (r : PhyReading) : Mode :=
  getPhySpeedDuplex (s.port eth).dev r.speed (s.port eth).dev.linkMode

def gmacUpdateSpeedDuplex (s : State) (eth : ℕ) (r : PhyReading) : State × ℤ :=
  match updateStatus s eth r with
  | none => (s, bmFail)
  | some status =>
    let p := s.port eth
    let mode := updateMode s eth r
    let priv : GmacDevice :=
      { p.dev with linkStatus := status, linkSpeed := mode.1, linkMode := mode.2 }
    if mode.1 = s.oldSpeed ∧ mode.2 = s.oldMode ∧ status = phyLinkUp then
      (s.setPort eth { p with dev := priv }, bmOk)
    else
      let mac := gmacHwStart (gmacHwSetPortMode p.mac mode.1 mode.2)
      ({ s.setPort eth { p with dev := priv, mac := mac } with
          oldSpeed := mode.1, oldMode := mode.2, holder := some eth },
        if status = phyLinkUp then bmOk else bmFail)

def gmacNetSendData (p : Port) (packet : List UInt8) : Port × ℤ :=
  let slot := p.dev.txDataNum
  let copied := Securec.memcpySObject (p.mac.txBuffer slot) rxBufferDefaultSize packet
  let mac := { p.mac with txBuffer := Function.update p.mac.txBuffer slot copied.1 }
  if copied.2 ≠ Securec.eok then ({ p with mac := mac }, bmFail)
  else
    let dev := { p.dev with txDataNum := (slot + 1) % chipTxFifoNum }
    let log := { p.log with sent := p.log.sent ++ [packet] }
    (⟨dev, { mac with txCff := mac.txCff ++ [(slot, packet.length)] }, log⟩, bmOk)

structure CallEnv where
  reading : PhyReading
  semOk : Bool

def sendAccepted (B : Board) (s : State) (eth packet length : ℕ) : Bool :=
  !(ethButt ≤ eth || packet = 0 || rxBufferDefaultSize ≤ length || length = 0 ||
      B.invalidAddrLen packet length) &&
    (s.port eth).dev.macNum = eth && (s.port eth).dev.initDone && B.exist eth

def bmNetSend (B : Board) (s : State) (eth packet length : ℕ) (mem : Mem) (env : CallEnv) :
    State × ℤ :=
  if !sendAccepted B s eth packet length then (s, bmFail)
  else
    let update := gmacUpdateSpeedDuplex s eth env.reading
    if update.2 ≠ bmOk then (update.1, bmFail)
    else if !env.semOk then (update.1, bmFail)
    else
      let sent := gmacNetSendData (update.1.port eth) (mem.bytes packet length)
      (update.1.setPort eth sent.1, sent.2)

/-- Return value, `*rx_len` and the bytes at `*packetp`, where they are set. -/
structure Received where
  ret : ℤ
  rxLen : Option ℕ
  packet : Option (List UInt8)
deriving DecidableEq

def rxDataOffset : ℕ := (feRxSkip1 + feRxSkip2) * cacheLineSize + cacheLineSize

def recycle (p : Port) : Port :=
  let slot := p.dev.rxDataNum
  let desc := (p.mac.rxBuffer slot).fill 0 cpuCacheLineSize 0
  let mac := { p.mac with
    rxBuffer := Function.update p.mac.rxBuffer slot desc
    rxCff := p.mac.rxCff ++ [slot] }
  let log := { p.log with
    pending := p.log.pending.filter fun e => e.1 ≠ slot
    consumed := p.log.consumed ++ p.log.pending.filter fun e => e.1 = slot
    reposted := p.log.reposted ++ [slot] }
  ⟨{ p.dev with rxDataNum := (slot + 1) % chipRxFifoNum }, mac, log⟩

def Port.deliver (p : Port) (packet : List UInt8) : Port :=
  { p with log := { p.log with delivered := p.log.delivered ++ [packet] } }

def gmacNetReceiveData (p : Port) : Port × Received :=
  if p.mac.statRxFrm then
    let cleared := { p with mac := { p.mac with statRxFrm := false } }
    let desc := p.mac.rxBuffer p.dev.rxDataNum
    let rxLen := (desc gmacDescPktLenHigh).toNat * 256 + (desc gmacDescPktLenLow).toNat
    if rxLen = 0 then (cleared, ⟨bmFail, some rxLen, none⟩)
    else if rxBufferDefaultSize - rxDataOffset ≤ rxLen then
      (recycle cleared, ⟨bmFail, some rxLen, none⟩)
    else
      -- The length is below the size of `g_packet_buf`, so `memcpy_s` succeeds.
      let packet := desc.bytes rxDataOffset rxLen
      ((recycle cleared).deliver packet, ⟨bmOk, some rxLen, some packet⟩)
  else (p, ⟨bmFail, none, none⟩)

def receiveAccepted (B : Board) (s : State) (eth : ℕ) (args : Bool) : Bool :=
  !(ethButt ≤ eth || !args) &&
    (s.port eth).dev.initDone && (s.port eth).dev.macNum = eth && B.exist eth

def bmNetReceive (B : Board) (s : State) (eth : ℕ) (args : Bool) (env : CallEnv) :
    State × Received :=
  let failed : Received := ⟨bmFail, none, none⟩
  if !receiveAccepted B s eth args then (s, failed)
  else
    let update := gmacUpdateSpeedDuplex s eth env.reading
    if update.2 ≠ bmOk then (update.1, failed)
    else if !env.semOk then (update.1, failed)
    else
      let received := gmacNetReceiveData (update.1.port eth)
      (update.1.setPort eth received.1, received.2)

/-! ## Initialisation -/

structure InitEnv where
  phyId : Option (BitVec 32)
  /-- `PHY_SPEC_STATUS` on a port that is initialised already. -/
  speed : Option (BitVec 32)
  /-- What the uninitialised variable `duplex` of `gmac_eth_start` holds. -/
  duplex : BitVec 32
  serdesOk : Bool
  /-- The checks of `gmac_eth_init` before and after it sets the port mode. -/
  resetOk : Bool
  chipOk : Bool
  semInitOk : Bool

/-- The soft resets of `gmac_hw_core_reset` and the cleared receive status of
`gmac_hw_int_int`. -/
def resetChip (p : Port) : Port :=
  let mac := { p.mac with
    duplexType := 0, portMode := 0, modeChangeEn := 0, portEn := 0
    statRxFrm := false, rxCff := [], txCff := [] }
  { p with mac := mac, log := Log.empty }

def gmacEthInit (p : Port) (env : InitEnv) : Port × ℤ :=
  let reset := resetChip p
  if !env.resetOk then (reset, bmFail)
  else
    let mac := gmacHwSetPortMode reset.mac (defaultSpeed p.dev.macNum) gmacDuplexFull
    if !env.chipOk then ({ reset with mac := mac }, bmFail)
    else ({ reset with mac := { mac with rxCff := List.range chipRxFifoNum } }, bmOk)

def gmacPhyInit (p : Port) (phyId : Option (BitVec 32)) : Port × ℤ :=
  match phyId with
  | none => (p, bmFail)
  | some id =>
    let phy := phyInfoTable.find? fun phy => phy.identifier = id
    ({ p with dev := { p.dev with gmacPhyInfo := phy } }, if phy.isSome then bmOk else bmFail)

def gmacEthStart (p : Port) (env : InitEnv) : Port × ℤ :=
  let phy := gmacPhyInit p env.phyId
  let p := phy.1
  if phy.2 ≠ bmOk then (p, bmFail)
  else if p.dev.initDone then
    let mode := getPhySpeedDuplex p.dev env.speed env.duplex
    ({ p with mac := gmacHwStart (gmacHwSetPortMode p.mac mode.1 mode.2) }, bmOk)
  else if !env.serdesOk then (p, bmFail)
  else
    let eth := gmacEthInit p env
    if eth.2 ≠ bmOk then (eth.1, bmFail)
    else ({ eth.1 with mac := gmacHwStart eth.1.mac }, bmOk)

def gmacInitRing (p : Port) : Port :=
  if p.dev.ringInit then p
  else
    let mac := { p.mac with rxBuffer := fun _ _ => 0, txBuffer := fun _ _ => 0 }
    { p with dev := { p.dev with ringInit := true }, mac := mac }

def netInitPort (p : Port) (eth phyAddr : ℕ) (env : InitEnv) : Port × ℤ :=
  let p := gmacInitRing { p with dev := { p.dev with macNum := eth, phyAddr := phyAddr } }
  let start := gmacEthStart p env
  let p := start.1
  if start.2 ≠ bmOk then (p, bmFail)
  else if !p.dev.initDone && !env.semInitOk then (p, bmFail)
  else ({ p with dev := { p.dev with initDone := true } }, bmOk)

def State.release (s : State) (eth : ℕ) : State :=
  { s with holder := if s.holder = some eth then none else s.holder }

def bmNetInit (B : Board) (s : State) (eth phyAddr : ℕ) (env : InitEnv) : State × ℤ :=
  if ethButt ≤ eth ∨ gmacPhyMaxAddr ≤ phyAddr then (s, bmFail)
  else if !B.exist eth then (s, bmFail)
  else
    let init := netInitPort (s.port eth) eth phyAddr env
    ((s.release eth).setPort eth init.1, init.2)

inductive Action where
  | init (eth phyAddr : ℕ) (env : InitEnv)
  | send (eth packet length : ℕ) (mem : Mem) (env : CallEnv)
  | receive (eth : ℕ) (args : Bool) (env : CallEnv)
  | arrive (eth : ℕ) (frame : List UInt8)
  | fetch (eth : ℕ)

def fillBuffer (buffer : Mem) (frame : List UInt8) : Mem :=
  let len : List UInt8 := [UInt8.ofNat (frame.length / 256), UInt8.ofNat frame.length]
  (buffer.write gmacDescPktLenHigh len).write rxDataOffset frame

/-- Longer frames are truncated by the MAC, to the maximum that
`gmac_hw_set_rx_max_frame_len` sets. -/
def Port.arrive (p : Port) (frame : List UInt8) : Option Port :=
  if feMaxPktLen < frame.length then none
  else match p.mac.rxCff with
    | [] => none
    | slot :: rest =>
      let buffer := fillBuffer (p.mac.rxBuffer slot) frame
      let mac := { p.mac with
        rxBuffer := Function.update p.mac.rxBuffer slot buffer
        rxCff := rest
        statRxFrm := true }
      let log := { p.log with
        arrived := p.log.arrived ++ [frame]
        pending := p.log.pending ++ [(slot, frame)] }
      some ⟨p.dev, mac, log⟩

def Port.fetch (p : Port) : Option Port :=
  match p.mac.txCff with
  | [] => none
  | (slot, length) :: rest =>
    let frame := (p.mac.txBuffer slot).bytes 0 length
    let log := { p.log with transmitted := p.log.transmitted ++ [frame] }
    some ⟨p.dev, { p.mac with txCff := rest }, log⟩

def next (B : Board) (s : State) : Action → Option State
  | .init eth phyAddr env => some (bmNetInit B s eth phyAddr env).1
  | .send eth packet length mem env => some (bmNetSend B s eth packet length mem env).1
  | .receive eth args env => some (bmNetReceive B s eth args env).1
  | .arrive eth frame => ((s.port eth).arrive frame).map (s.setPort eth)
  | .fetch eth => (s.port eth).fetch.map (s.setPort eth)

def system (B : Board) : TransitionSystem State Action :=
  TransitionSystem.ofStep (fun s => s = powerOn) (next B)

/-! ## What a run does to one port -/

/-- `relink` and `program` are the two parts of an update, `address` to `ethInit`
those of an initialisation.  The conditions speak of the frames that wait in the
port. -/
inductive PortStep (mayArrive : List (ℕ × List UInt8) → List UInt8 → Prop)
    (maySend : List (ℕ × ℕ) → Prop) : Port → Port → Prop
  | relink (p : Port) (status : BitVec 32) (mode : Mode) :
      PortStep mayArrive maySend p { p with
        dev := { p.dev with linkStatus := status, linkSpeed := mode.1, linkMode := mode.2 } }
  | program (p : Port) (mode : Mode) :
      PortStep mayArrive maySend p
        { p with mac := gmacHwStart (gmacHwSetPortMode p.mac mode.1 mode.2) }
  | send (p : Port) (packet : List UInt8) (hinit : p.dev.initDone = true)
      (hsize : packet.length < rxBufferDefaultSize) (hpos : 0 < packet.length)
      (hmay : maySend p.mac.txCff) :
      PortStep mayArrive maySend p (gmacNetSendData p packet).1
  | receive (p : Port) (hinit : p.dev.initDone = true) :
      PortStep mayArrive maySend p (gmacNetReceiveData p).1
  | address (p : Port) (eth phyAddr : ℕ) :
      PortStep mayArrive maySend p { p with dev := { p.dev with macNum := eth, phyAddr := phyAddr } }
  | initRing (p : Port) : PortStep mayArrive maySend p (gmacInitRing p)
  | phyInit (p : Port) (phyId : Option (BitVec 32)) :
      PortStep mayArrive maySend p (gmacPhyInit p phyId).1
  | failedInit (p : Port) (env : InitEnv) (hnot : p.dev.initDone = false)
      (hfail : (gmacEthInit p env).2 ≠ bmOk) :
      PortStep mayArrive maySend p (gmacEthInit p env).1
  | ethInit (p : Port) (env : InitEnv) (done : Bool) (hring : p.dev.ringInit = true)
      (hnot : p.dev.initDone = false) (hok : (gmacEthInit p env).2 = bmOk) :
      PortStep mayArrive maySend p { (gmacEthInit p env).1 with
        dev := { (gmacEthInit p env).1.dev with initDone := done }
        mac := gmacHwStart (gmacEthInit p env).1.mac }
  | arrive (p p' : Port) (frame : List UInt8) (hstep : p.arrive frame = some p')
      (hmay : mayArrive p.log.pending frame) : PortStep mayArrive maySend p p'
  | fetch (p p' : Port) (hstep : p.fetch = some p') : PortStep mayArrive maySend p p'

def SendReaches (B : Board) (s : State) (eth packet length : ℕ) (env : CallEnv) : Prop :=
  sendAccepted B s eth packet length = true ∧
    (gmacUpdateSpeedDuplex s eth env.reading).2 = bmOk ∧ env.semOk = true

instance (B : Board) (s : State) (eth packet length : ℕ) (env : CallEnv) :
    Decidable (SendReaches B s eth packet length env) :=
  inferInstanceAs (Decidable (_ ∧ _ ∧ _))

def Meets (B : Board) (mayArrive : List (ℕ × List UInt8) → List UInt8 → Prop)
    (maySend : List (ℕ × ℕ) → Prop) (eth : ℕ) (s : State) : Action → Prop
  | .arrive e frame => e = eth → mayArrive (s.port eth).log.pending frame
  | .send e packet length _ env =>
    e = eth → SendReaches B s eth packet length env → maySend (s.port eth).mac.txCff
  | _ => True

instance (B : Board) (mayArrive : List (ℕ × List UInt8) → List UInt8 → Prop)
    (maySend : List (ℕ × ℕ) → Prop) [∀ l f, Decidable (mayArrive l f)]
    [∀ l, Decidable (maySend l)] (eth : ℕ) (s : State) (a : Action) :
    Decidable (Meets B mayArrive maySend eth s a) :=
  match a with
  | .init .. | .receive .. | .fetch .. => isTrue trivial
  | .arrive .. => inferInstanceAs (Decidable (_ → _))
  | .send .. => inferInstanceAs (Decidable (_ → _ → _))

section PortRuns

variable {B : Board} {mayArrive : List (ℕ × List UInt8) → List UInt8 → Prop}
  {maySend : List (ℕ × ℕ) → Prop} {s s' : State} {eth : ℕ}

open Relation in
theorem update_port (s : State) (e eth : ℕ) (r : PhyReading) :
    ReflTransGen (PortStep mayArrive maySend) (s.port eth)
      ((gmacUpdateSpeedDuplex s e r).1.port eth) := by
  by_cases heq : eth = e
  · subst heq
    unfold gmacUpdateSpeedDuplex
    split
    next => exact .refl
    next status _ =>
      simp only
      split
      next =>
        simp only [State.setPort, Function.update_self]
        exact .single (.relink _ status _)
      next =>
        simp only [State.setPort, Function.update_self]
        exact .tail (.single (.relink _ status _)) (.program _ _)
  · have hsame : (gmacUpdateSpeedDuplex s e r).1.port eth = s.port eth := by
      unfold gmacUpdateSpeedDuplex
      split
      next => rfl
      next =>
        simp only
        split <;> simp only [State.setPort, Function.update_of_ne heq]
    rw [hsame]

theorem update_traffic (s : State) (eth : ℕ) (r : PhyReading) :
    ((gmacUpdateSpeedDuplex s eth r).1.port eth).mac.txCff = (s.port eth).mac.txCff ∧
      ((gmacUpdateSpeedDuplex s eth r).1.port eth).dev.initDone =
        (s.port eth).dev.initDone := by
  unfold gmacUpdateSpeedDuplex
  split
  next => exact ⟨rfl, rfl⟩
  next =>
    simp only
    split
    · simp only [State.setPort, Function.update_self, and_self]
    · simp only [State.setPort, Function.update_self]
      exact ⟨rfl, trivial⟩

theorem setPort_self (s : State) (eth : ℕ) (p : Port) : (s.setPort eth p).port eth = p :=
  Function.update_self ..

theorem setPort_other {e : ℕ} (s : State) (p : Port) (hne : eth ≠ e) :
    (s.setPort e p).port eth = s.port eth :=
  Function.update_of_ne hne ..

inductive EthStartOutcome (phy : Port) (env : InitEnv) : Port × ℤ → Prop
  | refused : EthStartOutcome phy env (phy, bmFail)
  | again (hdone : phy.dev.initDone = true) (mode : Mode) :
      EthStartOutcome phy env
        ({ phy with mac := gmacHwStart (gmacHwSetPortMode phy.mac mode.1 mode.2) }, bmOk)
  | failed (hnot : phy.dev.initDone = false) (hfail : (gmacEthInit phy env).2 ≠ bmOk) :
      EthStartOutcome phy env ((gmacEthInit phy env).1, bmFail)
  | started (hnot : phy.dev.initDone = false) (hok : (gmacEthInit phy env).2 = bmOk) :
      EthStartOutcome phy env
        ({ (gmacEthInit phy env).1 with mac := gmacHwStart (gmacEthInit phy env).1.mac }, bmOk)

theorem ethStart_outcome (p : Port) (env : InitEnv) :
    EthStartOutcome (gmacPhyInit p env.phyId).1 env (gmacEthStart p env) := by
  unfold gmacEthStart
  simp only
  split
  · exact .refused
  · split
    next hdone => exact .again hdone _
    next hdone =>
      have hnot : (gmacPhyInit p env.phyId).1.dev.initDone = false := by simpa using hdone
      split
      · exact .refused
      · split
        next hfail => exact .failed hnot hfail
        next hok => exact .started hnot (not_not.mp hok)

theorem ethInit_dev (p : Port) (env : InitEnv) : (gmacEthInit p env).1.dev = p.dev := by
  unfold gmacEthInit
  simp only
  repeat' split
  all_goals rfl

theorem initRing_ringInit (p : Port) : (gmacInitRing p).dev.ringInit = true := by
  unfold gmacInitRing
  split
  next hset => exact hset
  next => rfl

theorem phyInit_ringInit (p : Port) (phyId : Option (BitVec 32)) :
    (gmacPhyInit p phyId).1.dev.ringInit = p.dev.ringInit := by
  unfold gmacPhyInit
  split <;> rfl

open Relation in
theorem netInitPort_port (p : Port) (eth phyAddr : ℕ) (env : InitEnv) :
    ReflTransGen (PortStep mayArrive maySend) p (netInitPort p eth phyAddr env).1 := by
  let q := gmacInitRing { p with dev := { p.dev with macNum := eth, phyAddr := phyAddr } }
  have hphy : ReflTransGen (PortStep mayArrive maySend) p (gmacPhyInit q env.phyId).1 :=
    .tail (.tail (.single (.address p eth phyAddr)) (.initRing _)) (.phyInit q env.phyId)
  have hring : (gmacPhyInit q env.phyId).1.dev.ringInit = true := by
    rw [phyInit_ringInit]
    exact initRing_ringInit _
  have hout := ethStart_outcome q env
  unfold netInitPort
  change ReflTransGen (PortStep mayArrive maySend) p
    (let start := gmacEthStart q env
     if start.2 ≠ bmOk then (start.1, bmFail)
     else if !start.1.dev.initDone && !env.semInitOk then (start.1, bmFail)
     else ({ start.1 with dev := { start.1.dev with initDone := true } }, bmOk)).1
  generalize gmacEthStart q env = start at hout
  generalize (gmacPhyInit q env.phyId).1 = phy at hphy hring hout
  cases hout with
  | refused => exact hphy
  | again hdone mode =>
    have hdev : { phy.dev with initDone := true } = phy.dev := by
      rw [← hdone]
    simp only [hdone, ne_eq, not_true_eq_false, if_false, Bool.not_true, Bool.false_and,
      Bool.false_eq_true, hdev]
    exact hphy.tail (.program phy mode)
  | failed hnot hfail => exact hphy.tail (.failedInit phy env hnot hfail)
  | started hnot hok =>
    simp only [ne_eq, not_true_eq_false, if_false]
    split
    next =>
      have hstep : PortStep mayArrive maySend phy _ :=
        PortStep.ethInit phy env false hring hnot hok
      have hdev : { (gmacEthInit phy env).1.dev with initDone := false } =
          (gmacEthInit phy env).1.dev := by
        rw [ethInit_dev, ← hnot]
      rw [hdev] at hstep
      exact hphy.tail hstep
    next => exact hphy.tail (.ethInit phy env true hring hnot hok)

open Relation in
theorem next_port {a : Action} (hstep : next B s a = some s')
    (hmeets : Meets B mayArrive maySend eth s a) :
    ReflTransGen (PortStep mayArrive maySend) (s.port eth) (s'.port eth) := by
  cases a with
  | init e phyAddr env =>
    cases hstep
    unfold bmNetInit
    split
    · exact .refl
    · split
      · exact .refl
      · by_cases heq : eth = e
        · subst heq
          simp only [setPort_self]
          exact netInitPort_port _ eth phyAddr env
        · simp only [setPort_other _ _ heq]
          exact .refl
  | send e packet length mem env =>
    cases hstep
    have hupdate : ReflTransGen (PortStep mayArrive maySend) (s.port eth)
        ((gmacUpdateSpeedDuplex s e env.reading).1.port eth) := update_port s e eth env.reading
    unfold bmNetSend
    split
    · exact .refl
    next haccepted =>
      simp only
      split
      · exact hupdate
      next hok =>
        split
        · exact hupdate
        next hsem =>
          by_cases heq : eth = e
          · subst heq
            have haccepted' : sendAccepted B s eth packet length = true := by
              simpa using haccepted
            have hreaches : SendReaches B s eth packet length env :=
              ⟨haccepted', not_not.mp hok, by simpa using hsem⟩
            have hmay := hmeets rfl hreaches
            obtain ⟨hcff, hdone⟩ := update_traffic s eth env.reading
            simp only [sendAccepted, Bool.and_eq_true, Bool.not_eq_true', Bool.or_eq_false_iff,
              decide_eq_false_iff_not, not_le] at haccepted'
            obtain ⟨⟨⟨⟨⟨⟨-, hsize⟩, hpos⟩, -⟩, -⟩, hinit⟩, -⟩ := haccepted'
            rw [← hcff] at hmay
            rw [← hdone] at hinit
            simp only [setPort_self]
            exact hupdate.tail (.send _ _ hinit (by simpa [Mem.bytes] using hsize)
              (by simpa [Mem.bytes] using Nat.pos_of_ne_zero hpos) hmay)
          · simp only [setPort_other _ _ heq]
            exact hupdate
  | receive e args env =>
    cases hstep
    have hupdate : ReflTransGen (PortStep mayArrive maySend) (s.port eth)
        ((gmacUpdateSpeedDuplex s e env.reading).1.port eth) := update_port s e eth env.reading
    unfold bmNetReceive
    simp only
    split
    · exact .refl
    next haccepted =>
      split
      · exact hupdate
      · split
        · exact hupdate
        · by_cases heq : eth = e
          · subst heq
            have hinit : (s.port eth).dev.initDone = true := by
              simp only [receiveAccepted, Bool.not_eq_true, Bool.not_eq_false',
                Bool.and_eq_true] at haccepted
              exact haccepted.1.1.2
            rw [← (update_traffic s eth env.reading).2] at hinit
            simp only [setPort_self]
            exact hupdate.tail (.receive _ hinit)
          · simp only [setPort_other _ _ heq]
            exact hupdate
  | arrive e frame =>
    obtain ⟨p, hp, rfl⟩ := Option.map_eq_some_iff.mp hstep
    by_cases heq : eth = e
    · subst heq
      rw [setPort_self]
      exact .single (.arrive _ _ frame hp (hmeets rfl))
    · rw [setPort_other _ _ heq]
  | fetch e =>
    obtain ⟨p, hp, rfl⟩ := Option.map_eq_some_iff.mp hstep
    by_cases heq : eth = e
    · subst heq
      rw [setPort_self]
      exact .single (.fetch _ _ hp)
    · rw [setPort_other _ _ heq]

theorem port_invariant {I : Port → Prop}
    (hreach : ((system B).restrict (Meets B mayArrive maySend eth)).Reachable s)
    (hpower : I (powerOn.port eth))
    (hstep : ∀ p p', I p → PortStep mayArrive maySend p p' → I p') : I (s.port eth) := by
  apply hreach.invariant (P := fun s => I (s.port eth))
  · rintro s rfl
    exact hpower
  · rintro s a s' - hinv ⟨hmeets, hnext⟩
    have hsteps : ∀ p, Relation.ReflTransGen (PortStep mayArrive maySend) (s.port eth) p → I p := by
      intro p hpath
      induction hpath with
      | refl => exact hinv
      | tail _ hlast ih => exact hstep _ _ ih hlast
    exact hsteps _ (next_port hnext hmeets)

end PortRuns

def openBoard : Board := ⟨fun _ => true, fun _ _ => false⟩

def goodInit : InitEnv := ⟨some 0x11a, some 0, 0, true, true, true, true⟩

def up100Full : PhyReading := ⟨some 0x6400, some 0x6400⟩

end HiMpu.Gmac
