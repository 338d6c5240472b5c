import HiMpu.GmacPort
import HiMpu.GmacSolicit
import HiMpu.GmacTxRing
import HiMpu.Securec

/-!
# The loopback test of the GMAC network driver

`gmac_hw_debug_lb_test` of `drivers/gmac/gmac_hw.c` sends frames to itself and counts in a receive
hook what comes back.  A frame may arrive between any two steps of the test; what one of its
transmissions finds is an input as well.
-/

namespace HiMpu.GmacLoopback

open GmacPort (setField eth2 eth3)
open GmacRx (slice pktLength packetHeadSize packetDataSize deliveredFrame)
open GmacTx (chipTxFifoNum gmacMaxPktLen netdevTxOk netdevTxBusy)
open Securec (memcpySObject)

def einval : ℤ := 22
def enomem : ℤ := 12
def ebusy : ℤ := 16
def enodev : ℤ := 19
def etime : ℤ := 62
def enable : BitVec 32 := 0x1
def disable : BitVec 32 := 0x0
def gmacLoopDataSize : ℕ := 0x100
def gmacLoopNum : ℕ := 0x03
def gmacLoopWait : ℕ := gmacLoopNum * 50
def rxBufferSize : ℕ := packetHeadSize + packetDataSize

def gHwLoopPacket : List UInt8 :=
  [0xff, 0xff, 0xff, 0xff, 0xff, 0xff, 0xff, 0xff, 0x00, 0x0d, 0x88, 0xf8, 0x10, 0xba, 0xff, 0xff,
   0x01, 0x65, 0x74, 0x50, 0x6f, 0x72, 0x74, 0x20, 0x54, 0x65, 0x73, 0x74, 0x20, 0x50, 0x61, 0x63,
   0x02, 0x65, 0x74, 0xaa, 0x55, 0x55, 0x55, 0x55, 0xaa, 0xaa, 0xaa, 0xaa, 0x55, 0x55, 0x55, 0x55,
   0x03, 0xaa, 0xaa, 0xaa, 0x55, 0x55, 0x55, 0x55, 0xaa, 0xaa, 0xaa, 0xaa, 0x55, 0x55, 0x55, 0x55,
   0x04, 0xff, 0xff, 0xff, 0xff, 0xff, 0x08, 0x00, 0x3e, 0x03, 0x02, 0xfa, 0xff, 0xff, 0xff, 0xff,
   0x05, 0x65, 0x74, 0x50, 0x6f, 0x72, 0x74, 0x20, 0x54, 0x65, 0x73, 0x74, 0x20, 0x50, 0x61, 0x63,
   0x06, 0x65, 0x74, 0xaa, 0x55, 0x55, 0x55, 0x55, 0xaa, 0xaa, 0xaa, 0xaa, 0x55, 0x55, 0x55, 0x55,
   0x07, 0xaa, 0xaa, 0xaa, 0x55, 0x55, 0x55, 0x55, 0xaa, 0xaa, 0xaa, 0xaa, 0x55, 0x55, 0x55, 0x55,
   0x08, 0xff, 0xff, 0xff, 0xff, 0xff, 0x08, 0x00, 0x3e, 0x03, 0x02, 0xfa, 0xff, 0xff, 0xff, 0xff,
   0x09, 0x65, 0x74, 0x50, 0x6f, 0x72, 0x74, 0x20, 0x54, 0x65, 0x73, 0x74, 0x20, 0x50, 0x61, 0x63,
   0x0a, 0x65, 0x74, 0xaa, 0x55, 0x55, 0x55, 0x55, 0xaa, 0xaa, 0xaa, 0xaa, 0x55, 0x55, 0x55, 0x55,
   0x0b, 0xaa, 0xaa, 0xaa, 0x55, 0x55, 0x55, 0x55, 0xaa, 0xaa, 0xaa, 0xaa, 0x55, 0x55, 0x55, 0x55,
   0x0c, 0xff, 0xff, 0xff, 0xff, 0xff, 0x08, 0x00, 0x3e, 0x03, 0x02, 0xfa, 0xff, 0xff, 0xff, 0xff,
   0x0d, 0x65, 0x74, 0x50, 0x6f, 0x72, 0x74, 0x20, 0x54, 0x65, 0x73, 0x74, 0x20, 0x50, 0x61, 0x63,
   0x0e, 0x65, 0x74, 0xaa, 0x55, 0x55, 0x55, 0x55, 0xaa, 0xaa, 0xaa, 0xaa, 0x55, 0x55, 0x55, 0x55,
   0x0f, 0xaa, 0xaa, 0xaa, 0x55, 0x55, 0x55, 0x55, 0xaa, 0xaa, 0xaa, 0xaa, 0x55, 0x55, 0x55, 0x55]

/-! ## The loop modes -/

inductive LoopMode where
  | ethNoLoop
  | ethMacSysLoop
  | ethMacLineLoop
  | ethSerdesSysLoop
  | ethSerdesLineLoop
  | ethUnknownLoopMode
  deriving DecidableEq

def LoopMode.ofMode : ℕ → LoopMode
  | 0 => .ethNoLoop
  | 1 => .ethMacSysLoop
  | 2 => .ethMacLineLoop
  | 3 => .ethSerdesSysLoop
  | 4 => .ethSerdesLineLoop
  | _ => .ethUnknownLoopMode

def ethUnknownLoopMode : ℕ := 5

inductive PhyCfg where
  | phy0
  | phy1
  deriving DecidableEq

structure Gmac where
  id : ℕ
  lineLoopBack : BitVec 32
  loopReg : BitVec 32
  hpInit : Bool
  gmacPhyCfg : PhyCfg → BitVec 32
  gmacLoopRecvHook : Bool
  gmacLoopCnt : BitVec 32

def hpSubsysRegRead (g : Gmac) (reg : PhyCfg) : ℤ × Option (BitVec 32) :=
  if g.hpInit then (0, some (g.gmacPhyCfg reg)) else (-enodev, none)

def hpSubsysRegWrite (g : Gmac) (reg : PhyCfg) (val : BitVec 32) : Gmac × ℤ :=
  if g.hpInit then ({ g with gmacPhyCfg := Function.update g.gmacPhyCfg reg val }, 0)
  else (g, -enodev)

def gmacHwMacLbEn (g : Gmac) (valueEnable : BitVec 32) : Gmac :=
  { g with
    lineLoopBack := setField g.lineLoopBack 0x1 0
    loopReg := setField g.loopReg 0x4 (valueEnable <<< 2) }

def gmacHwMacLineEn (g : Gmac) (valueEnable : BitVec 32) : Gmac × ℤ :=
  if valueEnable = 0 then
    ({ g with
        lineLoopBack := setField g.lineLoopBack 0x1 0
        loopReg := setField g.loopReg 0x2 0x2 }, 0)
  else if valueEnable = 1 then
    ({ g with
        lineLoopBack := setField g.lineLoopBack 0x1 0x1
        loopReg := setField g.loopReg 0x2 0 }, 0)
  else (g, -einval)

def hpCfg (id : ℕ) : PhyCfg := if id = eth2 then .phy0 else .phy1

def gmacHwSerdesLbEn (g : Gmac) (valueEnable : BitVec 32) : Gmac × ℤ :=
  let phyCfg := (hpSubsysRegRead g (hpCfg g.id)).2.getD 0
  let phyCfg := setField phyCfg 0x8000 (valueEnable <<< 15)
  ((hpSubsysRegWrite g (hpCfg g.id) phyCfg).1, 0)

def gmacHwSetLbMode (g : Gmac) (loopValue : BitVec 32) (loopMode : LoopMode) : Gmac × ℤ :=
  if loopValue ≠ enable ∧ loopValue ≠ disable then (g, -einval)
  else
    match loopMode with
    | .ethNoLoop => (g, -einval)
    | .ethMacSysLoop => (gmacHwMacLbEn g loopValue, 0)
    | .ethMacLineLoop => ((gmacHwMacLineEn g loopValue).1, 0)
    | .ethSerdesSysLoop => gmacHwSerdesLbEn g loopValue
    | .ethSerdesLineLoop => (g, 0)
    | .ethUnknownLoopMode => (g, -einval)

def gmacHwCheckLoopModeOk (mode macNum : ℕ) : ℤ :=
  if LoopMode.ofMode mode = .ethNoLoop then -einval
  else if mode ≥ ethUnknownLoopMode then -einval
  else if (LoopMode.ofMode mode = .ethSerdesSysLoop ∨ LoopMode.ofMode mode = .ethSerdesLineLoop) ∧
      macNum ≠ eth2 ∧ macNum ≠ eth3 then -einval
  else 0

def recvLen (rxDescrip : Mem) : BitVec 32 :=
  (rxDescrip 8).toBitVec.setWidth 32 <<< 8 + (rxDescrip 9).toBitVec.signExtend 32

def gmacHwLbRecv (netIpAlign : ℕ) (g : Gmac) (pstSkbuff : Mem) : Gmac :=
  if recvLen pstSkbuff = BitVec.ofNat 32 gmacLoopDataSize then
    if slice pstSkbuff (packetHeadSize + netIpAlign) gmacLoopDataSize = gHwLoopPacket then
      { g with gmacLoopCnt := g.gmacLoopCnt + 1 }
    else g
  else g

/-- The test, with what it does to its skbs, by their numbers, and the frames that arrive from
setting the hook to the end of the wait. -/
structure Test extends Gmac where
  listening : Bool
  arrived : List Mem
  allocated : List ℕ
  sent : List (ℕ × List UInt8)
  freed : List ℕ

def Test.receive (netIpAlign : ℕ) (s : Test) (skb : Mem) : Test :=
  let s := if s.listening then { s with arrived := s.arrived ++ [skb] } else s
  if s.gmacLoopRecvHook then { s with toGmac := gmacHwLbRecv netIpAlign s.toGmac skb } else s

structure SendEnv where
  alloc : Bool
  opened : Bool
  node : Bool
  cfTxCfgNum : ℕ

def Test.devKfreeSkbAny (s : Test) (skb : ℕ) : Test := { s with freed := s.freed ++ [skb] }

/-- `ndo_start_xmit` is `gmac_eth_tx`, which is `gmac_tx_add_bd`. -/
def gmacTxAddBd (e : SendEnv) (s : Test) (skb : ℕ) (data : List UInt8) : Test × ℤ :=
  if e.opened = false then (s.devKfreeSkbAny skb, netdevTxOk)
  else if data.length = 0 ∨ gmacMaxPktLen < data.length then (s.devKfreeSkbAny skb, netdevTxOk)
  else if e.node = false then (s, netdevTxBusy)
  else if (chipTxFifoNum - 1) * 4 ≤ e.cfTxCfgNum then (s, netdevTxBusy)
  else ({ s with sent := s.sent ++ [(skb, data)] }, netdevTxOk)

def gmacHwDebugPktSend (e : SendEnv) (s : Test) (skb : ℕ) (pkt : List UInt8) : Test × ℤ :=
  if pkt.length = 0 ∨ gmacMaxPktLen < pkt.length then (s, -einval)
  else if e.alloc = false then (s, -enomem)
  else
    let s := { s with allocated := s.allocated ++ [skb] }
    let copy := memcpySObject (fun _ => 0) rxBufferSize pkt
    if copy.2 ≠ 0 then (s.devKfreeSkbAny skb, copy.2)
    else
      let r := gmacTxAddBd e s skb (copy.1.bytes 0 pkt.length)
      if r.2 ≠ 0 then (r.1.devKfreeSkbAny skb, -ebusy) else (r.1, 0)

inductive Point where
  | hook
  | reset
  | send (index : ℕ)
  | sleep (index : ℕ)
  | wait
  | teardown

structure Env where
  netIpAlign : ℕ
  send : ℕ → SendEnv
  arrivals : Point → List Mem

def Env.receive (env : Env) (p : Point) (s : Test) : Test :=
  (env.arrivals p).foldl (Test.receive env.netIpAlign) s

def sendLoop (env : Env) : ℕ → ℕ → Test → Test × Bool
  | 0, _, s => (s, true)
  | n + 1, index, s =>
    let r := gmacHwDebugPktSend (env.send index) s index gHwLoopPacket
    if r.2 ≠ 0 then (r.1, false) else sendLoop env n (index + 1) (env.receive (.send index) r.1)

def waitLoop (env : Env) : ℕ → ℕ → Test → Test × ℕ
  | 0, index, s => (s, index)
  | n + 1, index, s =>
    let s := env.receive (.sleep index) s
    if s.gmacLoopCnt = BitVec.ofNat 32 gmacLoopNum then (s, index)
    else waitLoop env n (index + 1) s

def errout (env : Env) (loopMode : LoopMode) (s : Test) (ret : ℤ) : Test × ℤ :=
  let s := env.receive .wait { s with listening := false }
  let s := { s with gmacLoopRecvHook := false }
  let s := { s with toGmac := (gmacHwSetLbMode s.toGmac disable loopMode).1 }
  (env.receive .teardown s, ret)

def Test.start (g : Gmac) : Test := ⟨g, false, [], [], [], []⟩

def gmacHwDebugLbTest (env : Env) (g : Gmac) (mode : ℕ) : Test × ℤ :=
  let ret := gmacHwCheckLoopModeOk mode g.id
  if ret ≠ 0 then (Test.start g, ret)
  else
    let r := gmacHwSetLbMode g enable (.ofMode mode)
    let s := Test.start r.1
    let ret := r.2
    if ret ≠ 0 then (s, ret)
    else
      let s := env.receive .hook { s with gmacLoopRecvHook := true, listening := true }
      let s := env.receive .reset { s with gmacLoopCnt := 0 }
      let t := sendLoop env gmacLoopNum 0 s
      if t.2 = false then errout env (.ofMode mode) t.1 ret
      else
        let w := waitLoop env gmacLoopWait 0 t.1
        let ret := if w.2 ≥ gmacLoopWait then -etime else ret
        errout env (.ofMode mode) w.1 ret

/-! ## A truthful test -/

def isTestFrame (netIpAlign : ℕ) (skb : Mem) : Bool :=
  deliveredFrame netIpAlign skb = gHwLoopPacket

def LoopbackOff (g : Gmac) : LoopMode → Prop
  | .ethMacSysLoop => g.loopReg.getLsbD 2 = false
  | .ethMacLineLoop => g.lineLoopBack.getLsbD 0 = false ∧ g.loopReg.getLsbD 1 = true
  | .ethSerdesSysLoop => (g.gmacPhyCfg (hpCfg g.id)).getLsbD 15 = false
  | _ => True

structure LbTestCorrect (env : Env) (g : Gmac) (mode : ℕ) : Prop where
  truth : (gmacHwDebugLbTest env g mode).2 = 0 ↔
    (∀ k < gmacLoopNum, (k, gHwLoopPacket) ∈ (gmacHwDebugLbTest env g mode).1.sent) ∧
      (gmacHwDebugLbTest env g mode).1.arrived.countP (isTestFrame env.netIpAlign) = gmacLoopNum
  unhooked : (gmacHwDebugLbTest env g mode).1.gmacLoopRecvHook = false
  off : LoopbackOff (gmacHwDebugLbTest env g mode).1.toGmac (.ofMode mode)
  freed : ∀ k ∈ (gmacHwDebugLbTest env g mode).1.allocated,
    k ∉ (gmacHwDebugLbTest env g mode).1.sent.map Prod.fst →
      (gmacHwDebugLbTest env g mode).1.freed.count k = 1

/-! ## The inputs of a truthful test -/

def SendEnv.Sent (e : SendEnv) : Prop :=
  e.alloc = true ∧ e.opened = true ∧ e.node = true ∧ e.cfTxCfgNum < (chipTxFifoNum - 1) * 4

/-- The transmission reports no failure: a closed port frees the frame and calls it sent. -/
def SendEnv.Accepted (e : SendEnv) : Prop :=
  e.Sent ∨ e.alloc = true ∧ e.opened = false

def Env.testFrames (env : Env) (p : Point) : ℕ :=
  (env.arrivals p).countP (isTestFrame env.netIpAlign)

def Env.early (env : Env) : ℕ := env.testFrames .hook

def Env.fresh (env : Env) (sends sleeps : ℕ) : ℕ :=
  env.testFrames .reset + ∑ k ∈ Finset.range sends, env.testFrames (.send k) +
    ∑ i ∈ Finset.range sleeps, env.testFrames (.sleep i)

def Env.Seen (env : Env) (index : ℕ) : Prop :=
  env.fresh gmacLoopNum (index + 1) % 2 ^ 32 = gmacLoopNum

def Env.AllSent (env : Env) : Prop := ∀ k < gmacLoopNum, (env.send k).Sent

structure Env.CountsRight (env : Env) : Prop where
  /-- The counter has not wrapped when it is found right. -/
  counted : env.AllSent → env.early = 0 → ∀ i < gmacLoopWait, env.Seen i → (∀ j < i, ¬ env.Seen j) →
    env.fresh gmacLoopNum (i + 1) = gmacLoopNum
  /-- With frames lost to the clearing, the right number is neither there nor seen. -/
  missed : env.AllSent → env.early ≠ 0 → (∀ i < gmacLoopWait, ¬ env.Seen i) ∧
    env.early + env.fresh gmacLoopNum gmacLoopWait ≠ gmacLoopNum
  closed : ¬ env.AllSent → ∀ i < gmacLoopWait, ¬ env.Seen i

structure Honest (env : Env) (g : Gmac) (mode : ℕ) : Prop where
  accepted : ∀ k < gmacLoopNum, (env.send k).Accepted
  counts : env.CountsRight
  mapped : LoopMode.ofMode mode = .ethSerdesSysLoop →
    g.hpInit = true ∨ (g.gmacPhyCfg (hpCfg g.id)).getLsbD 15 = false

section Reception

variable {env : Env} {s : Test}

theorem gHwLoopPacket_length : gHwLoopPacket.length = gmacLoopDataSize := by
  decide +kernel

theorem slice_length (buf : Mem) (p n : ℕ) : (slice buf p n).length = n := by
  unfold slice
  rw [List.length_map, List.length_range]

theorem recvLen_eq_iff (buf : Mem) :
    recvLen buf = BitVec.ofNat 32 gmacLoopDataSize ↔ pktLength buf = gmacLoopDataSize := by
  have hlen : ∀ high low : BitVec 8,
      high.setWidth 32 <<< 8 + low.signExtend 32 = BitVec.ofNat 32 gmacLoopDataSize ↔
        high.toNat <<< 8 + low.toNat = gmacLoopDataSize := by
    intro high low
    have hhigh := high.isLt
    have hlow := low.isLt
    rw [BitVec.toNat_eq, BitVec.toNat_add, BitVec.toNat_shiftLeft, BitVec.toNat_setWidth,
      BitVec.toNat_signExtend]
    simp only [gmacLoopDataSize, Nat.shiftLeft_eq, BitVec.toNat_ofNat, BitVec.toNat_setWidth]
    cases hsign : low.msb with
    | true =>
      have hlarge := BitVec.msb_eq_true_iff_two_mul_ge.mp hsign
      rw [if_pos rfl]
      omega
    | false =>
      rw [if_neg Bool.false_ne_true]
      omega
  exact hlen (buf 8).toBitVec (buf 9).toBitVec

theorem lbRecv_eq (netIpAlign : ℕ) (g : Gmac) (skb : Mem) :
    gmacHwLbRecv netIpAlign g skb =
      { g with gmacLoopCnt := g.gmacLoopCnt +
          BitVec.ofNat 32 (if isTestFrame netIpAlign skb then 1 else 0) } := by
  unfold gmacHwLbRecv
  rw [if_congr (recvLen_eq_iff skb) rfl rfl]
  by_cases hlen : pktLength skb = gmacLoopDataSize
  · rw [if_pos hlen]
    unfold isTestFrame deliveredFrame
    rw [hlen]
    by_cases hdata : slice skb (packetHeadSize + netIpAlign) gmacLoopDataSize = gHwLoopPacket
    · rw [if_pos hdata, if_pos (by simpa using hdata)]
      rfl
    · rw [if_neg hdata, if_neg (by simpa using hdata)]
      simp
  · have hframe : isTestFrame netIpAlign skb = false := by
      unfold isTestFrame
      rw [decide_eq_false_iff_not]
      intro heq
      have hdata := congrArg List.length heq
      unfold deliveredFrame at hdata
      rw [slice_length, gHwLoopPacket_length] at hdata
      exact hlen hdata
    rw [if_neg hlen, hframe]
    simp

theorem receive_hooked (p : Point)
    (hhook : s.gmacLoopRecvHook = true)
    (hlisten : s.listening = true) :
    env.receive p s =
      { s with
        gmacLoopCnt := s.gmacLoopCnt + BitVec.ofNat 32 (env.testFrames p)
        arrived := s.arrived ++ env.arrivals p } := by
  unfold Env.receive Env.testFrames
  induction env.arrivals p generalizing s with
  | nil => simp
  | cons skb skbs ih =>
    let t : Test :=
      { s with
        gmacLoopCnt := s.gmacLoopCnt +
          BitVec.ofNat 32 (if isTestFrame env.netIpAlign skb then 1 else 0)
        arrived := s.arrived ++ [skb] }
    have hone : s.receive env.netIpAlign skb = t := by
      unfold Test.receive
      rw [if_pos hlisten]
      dsimp only
      rw [if_pos hhook, lbRecv_eq]
    rw [List.foldl_cons, hone, ih (s := t) hhook hlisten, List.countP_cons, Nat.add_comm,
      BitVec.ofNat_add, ← BitVec.add_assoc]
    simp [t]

theorem receive_unlistened (p : Point)
    (hlisten : s.listening = false) :
    ∃ c, env.receive p s = { s with gmacLoopCnt := c } := by
  unfold Env.receive
  induction env.arrivals p generalizing s with
  | nil => exact ⟨s.gmacLoopCnt, rfl⟩
  | cons skb skbs ih =>
    have hone : ∃ c, s.receive env.netIpAlign skb = { s with gmacLoopCnt := c } := by
      have hoff : ¬ s.listening = true := by simp [hlisten]
      unfold Test.receive
      rw [if_neg hoff]
      dsimp only
      by_cases hhook : s.gmacLoopRecvHook = true
      · rw [if_pos hhook, lbRecv_eq]
        exact ⟨_, rfl⟩
      · rw [if_neg hhook]
        exact ⟨s.gmacLoopCnt, rfl⟩
    obtain ⟨c, hc⟩ := hone
    obtain ⟨c', hrest⟩ := ih (s := { s with gmacLoopCnt := c }) hlisten
    exact ⟨c', by rw [List.foldl_cons, hc, hrest]⟩

end Reception

/-! ## The loop mode -/

section Mode

variable {g : Gmac} {m : LoopMode}

theorem getElem_setField (reg mask val : BitVec 32) (i : ℕ) (hi : i < 32) :
    (setField reg mask val)[i] = if mask[i] then val[i] else reg[i] := by
  unfold setField
  rw [BitVec.getElem_or, BitVec.getElem_and, BitVec.getElem_and, BitVec.getElem_not]
  cases hmask : mask[i] with
  | true => simp
  | false => simp

theorem setLbMode_hook (v : BitVec 32) :
    (gmacHwSetLbMode g v m).1.gmacLoopRecvHook = g.gmacLoopRecvHook := by
  unfold gmacHwSetLbMode
  split
  · rfl
  · cases m with
    | ethMacLineLoop =>
      dsimp only
      unfold gmacHwMacLineEn
      split
      · rfl
      · split <;> rfl
    | ethSerdesSysLoop =>
      dsimp only
      unfold gmacHwSerdesLbEn hpSubsysRegWrite
      dsimp only
      split <;> rfl
    | _ => rfl

theorem loopbackOff_iff (c : BitVec 32) :
    LoopbackOff { (gmacHwSetLbMode g disable m).1 with gmacLoopCnt := c } m ↔
      (m = .ethSerdesSysLoop →
        g.hpInit = true ∨ (g.gmacPhyCfg (hpCfg g.id)).getLsbD 15 = false) := by
  have hvalue : ¬ (disable ≠ enable ∧ disable ≠ disable) := by simp
  unfold gmacHwSetLbMode
  rw [if_neg hvalue]
  cases m with
  | ethMacSysLoop =>
    simp [LoopbackOff, gmacHwMacLbEn, getElem_setField, disable]
  | ethMacLineLoop =>
    simp [LoopbackOff, gmacHwMacLineEn, getElem_setField, disable]
  | ethSerdesSysLoop =>
    cases hinit : g.hpInit with
    | true =>
      simp [LoopbackOff, gmacHwSerdesLbEn, hpSubsysRegWrite, hinit, getElem_setField, disable]
    | false =>
      simp [LoopbackOff, gmacHwSerdesLbEn, hpSubsysRegWrite, hinit]
  | _ => simp [LoopbackOff]

theorem mapped_enable :
    (m = .ethSerdesSysLoop → (gmacHwSetLbMode g enable m).1.hpInit = true ∨
      ((gmacHwSetLbMode g enable m).1.gmacPhyCfg
        (hpCfg (gmacHwSetLbMode g enable m).1.id)).getLsbD 15 = false) ↔
      (m = .ethSerdesSysLoop →
        g.hpInit = true ∨ (g.gmacPhyCfg (hpCfg g.id)).getLsbD 15 = false) := by
  have hvalue : ¬ (enable ≠ enable ∧ enable ≠ disable) := by simp
  unfold gmacHwSetLbMode
  rw [if_neg hvalue]
  cases m with
  | ethSerdesSysLoop =>
    cases hinit : g.hpInit with
    | true => simp [gmacHwSerdesLbEn, hpSubsysRegWrite, hinit]
    | false => simp [gmacHwSerdesLbEn, hpSubsysRegWrite, hinit]
  | _ => simp

theorem setLbMode_enable {mode macNum : ℕ}
    (hmode : gmacHwCheckLoopModeOk mode macNum = 0) :
    (gmacHwSetLbMode g enable (.ofMode mode)).2 = 0 := by
  have hvalue : ¬ (enable ≠ enable ∧ enable ≠ disable) := by simp
  unfold gmacHwSetLbMode
  rw [if_neg hvalue]
  unfold gmacHwCheckLoopModeOk at hmode
  match mode with
  | 0 =>
    rw [if_pos (by rfl)] at hmode
    exact absurd hmode (by decide)
  | 1 | 2 | 3 | 4 => rfl
  | n + 5 =>
    rw [if_neg (by simp [LoopMode.ofMode]), if_pos (by simp [ethUnknownLoopMode])] at hmode
    exact absurd hmode (by decide)

end Mode

section Sends

variable {env : Env} {s : Test} {k : ℕ}

theorem SendEnv.Sent.accepted {e : SendEnv} (h : e.Sent) : e.Accepted := Or.inl h

theorem pktSend_cases (e : SendEnv) (s : Test) (k : ℕ) :
    e.Sent ∧ gmacHwDebugPktSend e s k gHwLoopPacket =
        ({ s with
            allocated := s.allocated ++ [k]
            sent := s.sent ++ [(k, gHwLoopPacket)] }, 0) ∨
      ¬ e.Sent ∧ (gmacHwDebugPktSend e s k gHwLoopPacket).1 =
        { s with
          allocated := s.allocated ++ [k]
          freed := s.freed ++ [k] } ∧
        ((gmacHwDebugPktSend e s k gHwLoopPacket).2 = 0 ↔ e.Accepted) ∨
      ¬ e.Accepted ∧ gmacHwDebugPktSend e s k gHwLoopPacket = (s, -enomem) := by
  have hlen : ¬ (gHwLoopPacket.length = 0 ∨ gmacMaxPktLen < gHwLoopPacket.length) := by
    rw [gHwLoopPacket_length]
    decide
  have hcopy : memcpySObject (fun _ => 0) rxBufferSize gHwLoopPacket =
      (Mem.write (fun _ => 0) 0 gHwLoopPacket, Securec.eok) := by
    apply Securec.memcpySObject_fits
    · rw [gHwLoopPacket_length]
      decide
    · rw [gHwLoopPacket_length]
      decide
    · decide
  have hdata : (Mem.write (fun _ => 0) 0 gHwLoopPacket).bytes 0 gHwLoopPacket.length =
      gHwLoopPacket := Mem.bytes_write_same ..
  have hok : ¬ Securec.eok ≠ 0 := by decide
  unfold gmacHwDebugPktSend
  rw [if_neg hlen, hcopy]
  by_cases halloc : e.alloc = false
  · right
    right
    rw [if_pos halloc]
    exact ⟨by simp [SendEnv.Accepted, SendEnv.Sent, halloc], rfl⟩
  rw [if_neg halloc]
  dsimp only
  rw [if_neg hok, hdata]
  unfold gmacTxAddBd
  rw [if_neg hlen]
  by_cases hopened : e.opened = false
  · right
    left
    rw [if_pos hopened]
    simp [SendEnv.Accepted, SendEnv.Sent, hopened, halloc, netdevTxOk, Test.devKfreeSkbAny]
  rw [if_neg hopened]
  by_cases hnode : e.node = false
  · right
    left
    rw [if_pos hnode]
    simp [SendEnv.Accepted, SendEnv.Sent, hopened, hnode, netdevTxBusy, Test.devKfreeSkbAny, ebusy]
  rw [if_neg hnode]
  by_cases hfull : (chipTxFifoNum - 1) * 4 ≤ e.cfTxCfgNum
  · right
    left
    rw [if_pos hfull]
    simp [SendEnv.Accepted, SendEnv.Sent, hopened, hfull, netdevTxBusy, Test.devKfreeSkbAny, ebusy]
  · left
    rw [if_neg hfull]
    simp [SendEnv.Sent, halloc, hopened, hnode, netdevTxOk]
    omega

/-- The skbs of the first `sends` rounds. -/
structure Custody (env : Env) (sends : ℕ) (s : Test) : Prop where
  sent : ∀ k, (k, gHwLoopPacket) ∈ s.sent ↔ k < sends ∧ (env.send k).Sent
  below : ∀ k, sends ≤ k → k ∉ s.allocated ∧ k ∉ s.freed
  once : ∀ k ∈ s.allocated, k ∉ s.sent.map Prod.fst → s.freed.count k = 1

theorem Custody.pktSend (h : Custody env k s) :
    Custody env (k + 1) (gmacHwDebugPktSend (env.send k) s k gHwLoopPacket).1 := by
  have hunsent : ¬ (env.send k).Sent →
      ∀ j, (j, gHwLoopPacket) ∈ s.sent ↔ j < k + 1 ∧ (env.send j).Sent := by
    intro hnot j
    rw [h.sent]
    constructor
    · intro hj
      exact ⟨by omega, hj.2⟩
    · intro hj
      have hne : j ≠ k := by
        intro heq
        exact hnot (heq ▸ hj.2)
      exact ⟨by omega, hj.2⟩
  have hbelow : ∀ j, k + 1 ≤ j → ∀ l : List ℕ, j ∉ l → j ∉ l ++ [k] := by
    intro j hj l hl hmem
    rcases List.mem_append.mp hmem with hmem | hmem
    · exact hl hmem
    · have heq := List.mem_singleton.mp hmem
      omega
  rcases pktSend_cases (env.send k) s k with ⟨hsent, hr⟩ | ⟨hnot, hr, -⟩ | ⟨hnot, hr⟩
  · rw [hr]
    constructor
    · intro j
      rw [List.mem_append, h.sent, List.mem_singleton, Prod.mk.injEq]
      constructor
      · rintro (hj | hj)
        · exact ⟨by omega, hj.2⟩
        · exact ⟨by omega, hj.1 ▸ hsent⟩
      · intro hj
        by_cases heq : j = k
        · exact Or.inr ⟨heq, rfl⟩
        · exact Or.inl ⟨by omega, hj.2⟩
    · intro j hj
      exact ⟨hbelow j hj _ (h.below j (by omega)).1, (h.below j (by omega)).2⟩
    · intro j hj hnot
      rw [List.map_append, List.mem_append, not_or] at hnot
      rcases List.mem_append.mp hj with hj | hj
      · exact h.once j hj hnot.1
      · exact absurd hj hnot.2
  · rw [hr]
    constructor
    · exact hunsent hnot
    · intro j hj
      exact ⟨hbelow j hj _ (h.below j (by omega)).1, hbelow j hj _ (h.below j (by omega)).2⟩
    · intro j hj hunsent
      rw [List.count_append]
      rcases List.mem_append.mp hj with hj | hj
      · have hne : j ≠ k := by
          intro heq
          exact (h.below k le_rfl).1 (heq ▸ hj)
        rw [h.once j hj hunsent, List.count_singleton, if_neg (by simpa using Ne.symm hne)]
      · have heq := List.mem_singleton.mp hj
        subst heq
        rw [List.count_eq_zero_of_not_mem (h.below j le_rfl).2, List.count_singleton_self]
  · rw [hr]
    constructor
    · exact hunsent fun hsent => hnot hsent.accepted
    · intro j hj
      exact h.below j (by omega)
    · exact h.once

theorem pktSend_frame (e : SendEnv) (s : Test) (k : ℕ) :
    (gmacHwDebugPktSend e s k gHwLoopPacket).1.toGmac = s.toGmac ∧
      (gmacHwDebugPktSend e s k gHwLoopPacket).1.listening = s.listening ∧
      (gmacHwDebugPktSend e s k gHwLoopPacket).1.arrived = s.arrived := by
  rcases pktSend_cases e s k with ⟨-, hr⟩ | ⟨-, hr, -⟩ | ⟨-, hr⟩
  · rw [hr]
    exact ⟨rfl, rfl, rfl⟩
  · rw [hr]
    exact ⟨rfl, rfl, rfl⟩
  · rw [hr]
    exact ⟨rfl, rfl, rfl⟩

theorem pktSend_ret (e : SendEnv) (s : Test) (k : ℕ) :
    (gmacHwDebugPktSend e s k gHwLoopPacket).2 = 0 ↔ e.Accepted := by
  rcases pktSend_cases e s k with ⟨hsent, hr⟩ | ⟨-, -, hret⟩ | ⟨hnot, hr⟩
  · rw [hr]
    exact iff_of_true rfl hsent.accepted
  · exact hret
  · rw [hr]
    have hfail : -enomem ≠ 0 := by decide
    exact iff_of_false hfail hnot

end Sends

section Run

variable {env : Env} {g : Gmac} {s : Test} {sends sleeps : ℕ}

structure Running (env : Env) (g : Gmac) (sends sleeps : ℕ) (s : Test) : Prop where
  gmac : s.toGmac =
    { g with
      gmacLoopRecvHook := true
      gmacLoopCnt := BitVec.ofNat 32 (env.fresh sends sleeps) }
  listening : s.listening = true
  arrived : s.arrived.countP (isTestFrame env.netIpAlign) = env.early + env.fresh sends sleeps

/-- The test may end here: only the hook and the counter differ from the registers of `g`. -/
structure Stoppable (env : Env) (g : Gmac) (s : Test) : Prop where
  gmac : ∃ c, s.toGmac =
    { g with
      gmacLoopRecvHook := true
      gmacLoopCnt := c }
  custody : ∃ sends, Custody env sends s

theorem Env.fresh_send (env : Env) (sends : ℕ) :
    env.fresh (sends + 1) 0 = env.fresh sends 0 + env.testFrames (.send sends) := by
  unfold Env.fresh
  rw [Finset.sum_range_succ, Finset.sum_range_zero]
  omega

theorem Env.fresh_sleep (env : Env) (sends sleeps : ℕ) :
    env.fresh sends (sleeps + 1) = env.fresh sends sleeps + env.testFrames (.sleep sleeps) := by
  unfold Env.fresh
  rw [Finset.sum_range_succ]
  omega

theorem Running.receive {sends' sleeps' : ℕ} {p : Point} (h : Running env g sends sleeps s)
    (hfresh : env.fresh sends' sleeps' = env.fresh sends sleeps + env.testFrames p) :
    Running env g sends' sleeps' (env.receive p s) := by
  have hhook : s.gmacLoopRecvHook = true := by rw [h.gmac]
  rw [receive_hooked p hhook h.listening]
  constructor
  · rw [hfresh, BitVec.ofNat_add]
    simp [h.gmac]
  · exact h.listening
  · rw [hfresh, List.countP_append, h.arrived]
    unfold Env.testFrames
    omega

theorem Custody.receive {p : Point} (h : Custody env sends s)
    (hhook : s.gmacLoopRecvHook = true)
    (hlisten : s.listening = true) :
    Custody env sends (env.receive p s) := by
  rw [receive_hooked p hhook hlisten]
  exact ⟨h.sent, h.below, h.once⟩

theorem Running.stoppable (h : Running env g sends sleeps s)
    (hcustody : Custody env sends s) : Stoppable env g s :=
  ⟨⟨_, h.gmac⟩, ⟨sends, hcustody⟩⟩

theorem sendLoop_cases (n : ℕ)
    (h : Running env g sends 0 s)
    (hcustody : Custody env sends s) :
    ((sendLoop env n sends s).2 = true ∧
        Running env g (sends + n) 0 (sendLoop env n sends s).1 ∧
        Custody env (sends + n) (sendLoop env n sends s).1 ∧
        ∀ k, sends ≤ k → k < sends + n → (env.send k).Accepted) ∨
      ((sendLoop env n sends s).2 = false ∧ Stoppable env g (sendLoop env n sends s).1 ∧
        ∃ k, sends ≤ k ∧ k < sends + n ∧ ¬ (env.send k).Accepted) := by
  induction n generalizing sends s with
  | zero => exact Or.inl ⟨rfl, h, hcustody, fun k hle hlt => absurd hlt (by omega)⟩
  | succ n ih =>
    obtain ⟨hgmac, hlisten, harrived⟩ := pktSend_frame (env.send sends) s sends
    have hret := pktSend_ret (env.send sends) s sends
    have hcustody' := hcustody.pktSend
    have hsent : Running env g sends 0
        (gmacHwDebugPktSend (env.send sends) s sends gHwLoopPacket).1 := by
      constructor
      · exact hgmac.trans h.gmac
      · exact hlisten.trans h.listening
      · rw [harrived]
        exact h.arrived
    rw [sendLoop]
    by_cases haccepted : (env.send sends).Accepted
    · have hhook : (gmacHwDebugPktSend (env.send sends) s sends
          gHwLoopPacket).1.gmacLoopRecvHook = true := by rw [hsent.gmac]
      have hnext := ih (hsent.receive (env.fresh_send sends))
        (hcustody'.receive hhook hsent.listening)
      rw [if_neg (not_not.mpr (hret.mpr haccepted))]
      have hadd : sends + 1 + n = sends + (n + 1) := by omega
      rw [hadd] at hnext
      rcases hnext with ⟨hall, hrun, hcust, hacc⟩ | ⟨hfail, hstop, k, hle, hlt, hnot⟩
      · refine Or.inl ⟨hall, hrun, hcust, ?_⟩
        intro k hle hlt
        by_cases heq : k = sends
        · rw [heq]
          exact haccepted
        · exact hacc k (by omega) hlt
      · exact Or.inr ⟨hfail, hstop, k, by omega, hlt, hnot⟩
    · have hstop : Stoppable env g
          (gmacHwDebugPktSend (env.send sends) s sends gHwLoopPacket).1 :=
        ⟨⟨_, hsent.gmac⟩, ⟨sends + 1, hcustody'⟩⟩
      rw [if_pos (fun hzero => haccepted (hret.mp hzero))]
      dsimp only
      exact Or.inr ⟨rfl, hstop, sends, le_rfl, by omega, haccepted⟩

theorem cnt_eq_iff (n : ℕ) :
    BitVec.ofNat 32 n = BitVec.ofNat 32 gmacLoopNum ↔ n % 2 ^ 32 = gmacLoopNum := by
  rw [BitVec.toNat_eq, BitVec.toNat_ofNat, BitVec.toNat_ofNat]
  rfl

theorem waitLoop_cases (n : ℕ)
    (h : Running env g gmacLoopNum sleeps s)
    (hcustody : Custody env gmacLoopNum s) :
    Stoppable env g (waitLoop env n sleeps s).1 ∧
      (waitLoop env n sleeps s).1.sent = s.sent ∧
      ((∃ i, sleeps ≤ i ∧ i < sleeps + n ∧ (waitLoop env n sleeps s).2 = i ∧ env.Seen i ∧
          (∀ j, sleeps ≤ j → j < i → ¬ env.Seen j) ∧
          (waitLoop env n sleeps s).1.arrived.countP (isTestFrame env.netIpAlign) =
            env.early + env.fresh gmacLoopNum (i + 1)) ∨
        ((waitLoop env n sleeps s).2 = sleeps + n ∧
          (∀ j, sleeps ≤ j → j < sleeps + n → ¬ env.Seen j) ∧
          (waitLoop env n sleeps s).1.arrived.countP (isTestFrame env.netIpAlign) =
            env.early + env.fresh gmacLoopNum (sleeps + n))) := by
  induction n generalizing sleeps s with
  | zero =>
    refine ⟨h.stoppable hcustody, rfl, Or.inr ⟨rfl, ?_, h.arrived⟩⟩
    intro j hle hlt
    omega
  | succ n ih =>
    have hhook : s.gmacLoopRecvHook = true := by rw [h.gmac]
    have hslept := h.receive (env.fresh_sleep gmacLoopNum sleeps)
    have hcustody' : Custody env gmacLoopNum (env.receive (.sleep sleeps) s) :=
      hcustody.receive hhook h.listening
    have hsent : (env.receive (.sleep sleeps) s).sent = s.sent := by
      rw [receive_hooked _ hhook h.listening]
    have hcnt : (env.receive (.sleep sleeps) s).gmacLoopCnt = BitVec.ofNat 32 gmacLoopNum ↔
        env.Seen sleeps := by
      rw [hslept.gmac]
      exact cnt_eq_iff _
    rw [waitLoop]
    by_cases hseen : env.Seen sleeps
    · rw [if_pos (hcnt.mpr hseen)]
      refine ⟨hslept.stoppable hcustody', hsent, Or.inl ⟨sleeps, le_rfl, by omega, rfl, hseen,
        ?_, hslept.arrived⟩⟩
      intro j hle hlt
      omega
    · rw [if_neg (fun hc => hseen (hcnt.mp hc))]
      obtain ⟨hstop, hsent', hend⟩ := ih hslept hcustody'
      refine ⟨hstop, hsent'.trans hsent, ?_⟩
      have hadd : sleeps + 1 + n = sleeps + (n + 1) := by omega
      rw [hadd] at hend
      have hfirst : ∀ i, (∀ j, sleeps + 1 ≤ j → j < i → ¬ env.Seen j) →
          ∀ j, sleeps ≤ j → j < i → ¬ env.Seen j := by
        intro i hrest j hle hlt
        by_cases heq : j = sleeps
        · rw [heq]
          exact hseen
        · exact hrest j (by omega) hlt
      rcases hend with ⟨i, hle, hlt, hindex, hi, hrest, harr⟩ | ⟨hindex, hrest, harr⟩
      · exact Or.inl ⟨i, by omega, hlt, hindex, hi, hfirst i hrest, harr⟩
      · exact Or.inr ⟨hindex, hfirst _ hrest, harr⟩

theorem errout_spec {m : LoopMode} (ret : ℤ)
    (h : Stoppable env (gmacHwSetLbMode g enable m).1 s) :
    (errout env m s ret).2 = ret ∧
      (errout env m s ret).1.sent = s.sent ∧
      (errout env m s ret).1.allocated = s.allocated ∧
      (errout env m s ret).1.freed = s.freed ∧
      (errout env m s ret).1.arrived = s.arrived ∧
      (errout env m s ret).1.gmacLoopRecvHook = false ∧
      (LoopbackOff (errout env m s ret).1.toGmac m ↔
        (m = .ethSerdesSysLoop →
          g.hpInit = true ∨ (g.gmacPhyCfg (hpCfg g.id)).getLsbD 15 = false)) := by
  obtain ⟨c, hgmac⟩ := h.gmac
  have hwait : ∃ c₁, env.receive .wait { s with listening := false } =
      { s with
        listening := false
        gmacLoopCnt := c₁ } := receive_unlistened .wait rfl
  obtain ⟨c₁, hwait⟩ := hwait
  let g₁ : Gmac :=
    { s.toGmac with
      gmacLoopRecvHook := false
      gmacLoopCnt := c₁ }
  let t : Test :=
    { s with
      listening := false
      toGmac := (gmacHwSetLbMode g₁ disable m).1 }
  have hteardown : ∃ c₂, env.receive .teardown t = { t with gmacLoopCnt := c₂ } :=
    receive_unlistened .teardown rfl
  obtain ⟨c₂, hteardown⟩ := hteardown
  have hend : (errout env m s ret).1 = { t with gmacLoopCnt := c₂ } := by
    unfold errout
    dsimp only
    rw [hwait]
    exact hteardown
  rw [hend]
  have hhook : (gmacHwSetLbMode g₁ disable m).1.gmacLoopRecvHook = false := setLbMode_hook disable
  refine ⟨rfl, rfl, rfl, rfl, rfl, hhook, ?_⟩
  have hoff := loopbackOff_iff (g := g₁) (m := m) c₂
  refine hoff.trans ?_
  have hregs : g₁ =
      { (gmacHwSetLbMode g enable m).1 with
        gmacLoopRecvHook := false
        gmacLoopCnt := c₁ } := by
    simp only [g₁, hgmac]
  rw [hregs]
  exact mapped_enable

def begun (env : Env) (g : Gmac) : Test :=
  env.receive .reset
    { env.receive .hook
        { Test.start g with
          gmacLoopRecvHook := true
          listening := true } with
      gmacLoopCnt := 0 }

theorem begun_running (env : Env) (g : Gmac) :
    Running env g 0 0 (begun env g) ∧ Custody env 0 (begun env g) := by
  unfold begun
  rw [receive_hooked .hook rfl rfl, receive_hooked .reset rfl rfl]
  constructor
  · constructor
    · simp [Env.fresh, Test.start]
    · rfl
    · simp [Env.fresh, Env.early, Env.testFrames, Test.start]
  · constructor
    · intro k
      simp [Test.start]
    · intro k hk
      simp [Test.start]
    · intro k hk
      exact absurd hk (List.not_mem_nil)

theorem correct_errout_iff {mode : ℕ} {ret : ℤ}
    (hrun : gmacHwDebugLbTest env g mode = errout env (.ofMode mode) s ret)
    (h : Stoppable env (gmacHwSetLbMode g enable (.ofMode mode)).1 s) :
    LbTestCorrect env g mode ↔
      (ret = 0 ↔ (∀ k < gmacLoopNum, (k, gHwLoopPacket) ∈ s.sent) ∧
        s.arrived.countP (isTestFrame env.netIpAlign) = gmacLoopNum) ∧
      (LoopMode.ofMode mode = .ethSerdesSysLoop →
        g.hpInit = true ∨ (g.gmacPhyCfg (hpCfg g.id)).getLsbD 15 = false) := by
  obtain ⟨hret, hsent, hallocated, hfreed, harrived, hhook, hoff⟩ := errout_spec ret h
  obtain ⟨sends, hcustody⟩ := h.custody
  constructor
  · intro hcorrect
    have htruth := hcorrect.truth
    have hclear := hcorrect.off
    rw [hrun, hret, hsent, harrived] at htruth
    rw [hrun] at hclear
    exact ⟨htruth, hoff.mp hclear⟩
  · intro hgood
    constructor
    · rw [hrun, hret, hsent, harrived]
      exact hgood.1
    · rw [hrun]
      exact hhook
    · rw [hrun]
      exact hoff.mpr hgood.2
    · rw [hrun, hallocated, hsent, hfreed]
      exact hcustody.once

end Run

theorem found_iff {env : Env} {i : ℕ} (hi : i < gmacLoopWait) (hseen : env.Seen i)
    (hfirst : ∀ j < i, ¬ env.Seen j) :
    (env.AllSent ∧ env.early + env.fresh gmacLoopNum (i + 1) = gmacLoopNum) ↔
      env.CountsRight := by
  have hge : gmacLoopNum ≤ env.fresh gmacLoopNum (i + 1) := by
    have hmod := Nat.mod_le (env.fresh gmacLoopNum (i + 1)) (2 ^ 32)
    unfold Env.Seen at hseen
    omega
  constructor
  · rintro ⟨hall, hsum⟩
    constructor
    · intro _ _ i' hi' hseen' hfirst'
      have heq : i' = i := by
        rcases lt_trichotomy i' i with hlt | heq | hlt
        · exact absurd hseen' (hfirst i' hlt)
        · exact heq
        · exact absurd hseen (hfirst' i hlt)
      rw [heq]
      omega
    · intro _ hearly
      omega
    · intro hnot
      exact absurd hall hnot
  · intro hcounts
    have hall : env.AllSent := by
      by_contra hnot
      exact hcounts.closed hnot i hi hseen
    have hearly : env.early = 0 := by
      by_contra hne
      exact (hcounts.missed hall hne).1 i hi hseen
    have hfresh := hcounts.counted hall hearly i hi hseen hfirst
    exact ⟨hall, by omega⟩

theorem timeout_iff {env : Env} (hnone : ∀ j < gmacLoopWait, ¬ env.Seen j) :
    ¬ (env.AllSent ∧ env.early + env.fresh gmacLoopNum gmacLoopWait = gmacLoopNum) ↔
      env.CountsRight := by
  constructor
  · intro hnot
    constructor
    · intro _ _ i hi hseen
      exact absurd hseen (hnone i hi)
    · intro hall _
      exact ⟨hnone, fun hsum => hnot ⟨hall, hsum⟩⟩
    · intro _
      exact hnone
  · rintro hcounts ⟨hall, hsum⟩
    by_cases hearly : env.early = 0
    · -- The last round would have found the right number.
      have hlast : env.Seen (gmacLoopWait - 1) := by
        rw [hearly, zero_add] at hsum
        have hfresh : env.fresh gmacLoopNum (gmacLoopWait - 1 + 1) = gmacLoopNum := hsum
        unfold Env.Seen
        rw [hfresh]
        decide
      exact hnone _ (by decide) hlast
    · exact (hcounts.missed hall hearly).2 hsum

theorem lbTest_eq (env : Env) (g : Gmac) (mode : ℕ)
    (hmode : gmacHwCheckLoopModeOk mode g.id = 0) :
    gmacHwDebugLbTest env g mode =
      let t := sendLoop env gmacLoopNum 0 (begun env (gmacHwSetLbMode g enable (.ofMode mode)).1)
      let w := waitLoop env gmacLoopWait 0 t.1
      if t.2 = false then errout env (.ofMode mode) t.1 0
      else errout env (.ofMode mode) w.1 (if w.2 ≥ gmacLoopWait then -etime else 0) := by
  have henable := setLbMode_enable (g := g) hmode
  unfold gmacHwDebugLbTest
  dsimp only
  rw [if_neg (not_not.mpr hmode), if_neg (not_not.mpr henable), henable]
  rfl

theorem lbTest_correct_iff (env : Env) (g : Gmac) (mode : ℕ)
    (hmode : gmacHwCheckLoopModeOk mode g.id = 0) :
    LbTestCorrect env g mode ↔ Honest env g mode := by
  have hrun := lbTest_eq env g mode hmode
  obtain ⟨hrunning, hcustody⟩ := begun_running env (gmacHwSetLbMode g enable (.ofMode mode)).1
  have hsends := sendLoop_cases gmacLoopNum hrunning hcustody
  generalize sendLoop env gmacLoopNum 0
    (begun env (gmacHwSetLbMode g enable (.ofMode mode)).1) = t at hrun hsends
  rw [zero_add] at hsends
  rcases hsends with ⟨hall, hsent, hcust, hacc⟩ | ⟨hfail, hstop, k, -, hk, hnot⟩
  · obtain ⟨hstop, hsame, hend⟩ := waitLoop_cases gmacLoopWait hsent hcust
    have hret : gmacHwDebugLbTest env g mode = errout env (.ofMode mode)
        (waitLoop env gmacLoopWait 0 t.1).1
        (if (waitLoop env gmacLoopWait 0 t.1).2 ≥ gmacLoopWait then -etime else 0) := by
      rw [hrun]
      exact if_neg (by simp [hall])
    have hsentAll : (∀ k < gmacLoopNum,
        (k, gHwLoopPacket) ∈ (waitLoop env gmacLoopWait 0 t.1).1.sent) ↔ env.AllSent := by
      rw [hsame]
      constructor
      · intro h k hk
        exact ((hcust.sent k).mp (h k hk)).2
      · intro h k hk
        exact (hcust.sent k).mpr ⟨hk, h k hk⟩
    have haccepted : ∀ k < gmacLoopNum, (env.send k).Accepted :=
      fun k hk => hacc k (Nat.zero_le k) hk
    rw [correct_errout_iff hret hstop, hsentAll]
    rw [zero_add] at hend
    have hhonest : Honest env g mode ↔ env.CountsRight ∧
        (LoopMode.ofMode mode = .ethSerdesSysLoop →
          g.hpInit = true ∨ (g.gmacPhyCfg (hpCfg g.id)).getLsbD 15 = false) :=
      ⟨fun h => ⟨h.counts, h.mapped⟩, fun h => ⟨haccepted, h.1, h.2⟩⟩
    rw [hhonest]
    rcases hend with ⟨i, -, hi, hindex, hseen, hfirst, harrived⟩ | ⟨hindex, hnone, harrived⟩
    · have hfirst' : ∀ j < i, ¬ env.Seen j := fun j hj => hfirst j (Nat.zero_le j) hj
      rw [hindex, if_neg (not_le.mpr hi), harrived, eq_self_iff_true, true_iff,
        found_iff hi hseen hfirst']
    · have hnone' : ∀ j < gmacLoopWait, ¬ env.Seen j := fun j hj => hnone j (Nat.zero_le j) hj
      have hfail : ¬ -etime = 0 := by decide
      rw [hindex, if_pos (ge_iff_le.mpr le_rfl), harrived, iff_false_left hfail,
        timeout_iff hnone']
  · have hret : gmacHwDebugLbTest env g mode = errout env (.ofMode mode) t.1 0 := by
      rw [hrun]
      exact if_pos hfail
    rw [correct_errout_iff hret hstop]
    apply iff_of_false
    · intro h
      obtain ⟨m, hcust⟩ := hstop.custody
      have hsent := (h.1.mp rfl).1 k hk
      exact hnot ((hcust.sent k).mp hsent).2.accepted
    · intro h
      exact hnot (h.accepted k hk)

def port : Gmac := ⟨0, 0, 0, true, fun _ => 0, false, 0⟩

def echo : Env where
  netIpAlign := 0
  send _ := ⟨true, true, true, 0⟩
  arrivals
    | .send _ => [Mem.write (Mem.write (fun _ => 0) 8 [1, 0]) packetHeadSize gHwLoopPacket]
    | _ => []

theorem lbTest_correct_echo : LbTestCorrect echo port 1 := by
  apply (lbTest_correct_iff echo port 1 (by decide)).mpr
  have hroom : 0 < (chipTxFifoNum - 1) * 4 := by decide
  have hall : echo.AllSent := fun k _ => ⟨rfl, rfl, rfl, hroom⟩
  have hfresh : ∀ i, echo.fresh gmacLoopNum i = gmacLoopNum := by
    intro i
    have hsends : ∑ k ∈ Finset.range gmacLoopNum, echo.testFrames (.send k) = gmacLoopNum := by
      decide +kernel
    have hsleep : ∀ i, echo.testFrames (.sleep i) = 0 := fun _ => rfl
    have hreset : echo.testFrames .reset = 0 := rfl
    unfold Env.fresh
    simp [hreset, hsends, hsleep]
  constructor
  · intro k hk
    exact (hall k hk).accepted
  · constructor
    · intro _ _ i _ _ _
      exact hfresh (i + 1)
    · intro _ hearly
      exact absurd rfl hearly
    · intro hnot
      exact absurd hall hnot
  · intro _
    exact Or.inl rfl

def exhausted : Env := ⟨0, fun _ => ⟨false, true, true, 0⟩, fun _ => []⟩

/-- The first frame cannot be sent, and the test reports success. -/
theorem lbTest_not_correct : ¬ LbTestCorrect exhausted port 1 := by
  intro h
  have hret : (gmacHwDebugLbTest exhausted port 1).2 = 0 := by decide +kernel
  have hnone : (gmacHwDebugLbTest exhausted port 1).1.sent = [] := by decide +kernel
  have hsent := (h.truth.mp hret).1 0 (by decide)
  rw [hnone] at hsent
  exact List.not_mem_nil hsent

end HiMpu.GmacLoopback
