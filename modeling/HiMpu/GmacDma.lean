import HiMpu.GmacTxRing

/-!
# The DMA addresses of the GMAC network driver

`gmac_hw_get_tx_ddr_relative_addr` and `gmac_hw_get_rx_ddr_relative_addr` of
`drivers/gmac/gmac_hw.c`, and the functions of `eth_rx.c` and `eth_tx.c` that hand their values to
the MAC.  The MAC adds the base that the remap mode of `HP_MAC_HADDR_EXTEND` selects.
-/

namespace HiMpu.GmacDma

open GmacTx (Skb chipTxFifoNum gmacMaxPktLen netdevTxOk netdevTxBusy)

def enomem : ℤ := 12
def cpuCacheLineSize : ℕ := 64
def gmacRxHaddrOffset : BitVec 32 := 0x8
def gmacTxHaddrOffset : BitVec 32 := 0x8
def gmacRxAddrRemapMode : BitVec 32 := 0x1
def gmacTxAddrRemapMode : BitVec 32 := 0x1

inductive Direction where
  | rx
  | tx

def Direction.lsb : Direction → ℕ
  | .rx => 0
  | .tx => 8

def haddrOffset (d : Direction) (val : BitVec 32) : BitVec 4 := val.extractLsb' d.lsb 4

def addrRemapMode (d : Direction) (val : BitVec 32) : BitVec 2 := val.extractLsb' (d.lsb + 4) 2

def haddrHi (d : Direction) (val : BitVec 32) : BitVec 2 := val.extractLsb' (d.lsb + 6) 2

def macHaddr (d : Direction) (val : BitVec 32) : BitVec 64 :=
  match addrRemapMode d val with
  | 0x1#2 => (haddrOffset d val).setWidth 64 <<< 28
  | 0x2#2 => (haddrHi d val).setWidth 64 <<< 32
  | _ => 0

/-- The two functions differ in the fields only; `ret` is what the read of the register returns. -/
def getDdrRelativeAddr (d : Direction) (ret : ℤ) (val : BitVec 32) (phyAddr : BitVec 64) :
    BitVec 32 :=
  if ret ≠ 0 then phyAddr.setWidth 32
  else if phyAddr < macHaddr d val then phyAddr.setWidth 32
  else
    let relativeAddr := phyAddr - macHaddr d val
    if relativeAddr >>> 32 ≠ 0 then phyAddr.setWidth 32 else relativeAddr.setWidth 32

def gmacHwGetTxDdrRelativeAddr : ℤ → BitVec 32 → BitVec 64 → BitVec 32 := getDdrRelativeAddr .tx

def gmacHwGetRxDdrRelativeAddr : ℤ → BitVec 32 → BitVec 64 → BitVec 32 := getDdrRelativeAddr .rx

/-- What is written to the register. -/
def gmacHwHaddrExternConfig : BitVec 32 :=
  gmacRxHaddrOffset ||| gmacRxAddrRemapMode <<< 4 ||| gmacTxHaddrOffset <<< 8 |||
    gmacTxAddrRemapMode <<< 12

structure Buffer where
  dmaAddr : BitVec 64
  ret : ℤ

def gmacRxFillOneBuff (val : BitVec 32) (alloc : Bool) (b : Buffer) : ℤ × Option (BitVec 32) :=
  if alloc then (0, some (gmacHwGetRxDdrRelativeAddr b.ret val b.dmaAddr)) else (-enomem, none)

def gmacRxReuseSkb (val : BitVec 32) (b : Buffer) : BitVec 32 :=
  gmacHwGetRxDdrRelativeAddr b.ret val b.dmaAddr

def gmacRxFillAllBuff (val : BitVec 32) : List Buffer → List (BitVec 32)
  | [] => []
  | b :: bufs =>
    if b.dmaAddr.toNat % cpuCacheLineSize ≠ 0 then []
    else gmacHwGetRxDdrRelativeAddr b.ret val b.dmaAddr :: gmacRxFillAllBuff val bufs

/-- What `gmac_tx_add_bd` finds: the data of the packet, the word for its state in the node that it
takes from the unused queue, and `cf_tx_cfg_num`. -/
structure TxCall where
  opened : Bool
  skb : Skb
  pkt : Buffer
  node : Option Buffer
  cfTxCfgNum : ℕ

def gmacTxAddBd (val : BitVec 32) (c : TxCall) : ℤ × Option (BitVec 32 × BitVec 32) :=
  if c.opened = false then (netdevTxOk, none)
  else if c.skb.len = 0 ∨ c.skb.len > gmacMaxPktLen then (netdevTxOk, none)
  else
    let pktAddr := gmacHwGetTxDdrRelativeAddr c.pkt.ret val c.pkt.dmaAddr
    match c.node with
    | none => (netdevTxBusy, none)
    | some txState =>
      let clearAddr := gmacHwGetTxDdrRelativeAddr txState.ret val txState.dmaAddr
      if c.cfTxCfgNum ≥ (chipTxFifoNum - 1) * 4 then (netdevTxBusy, none)
      else (netdevTxOk, some (pktAddr, clearAddr))

inductive Call where
  | gmacRxFillOneBuff (alloc : Bool) (b : Buffer)
  | gmacRxReuseSkb (b : Buffer)
  | gmacRxFillAllBuff (bufs : List Buffer)
  | gmacTxAddBd (c : TxCall)

structure HandOver where
  direction : Direction
  buffer : Buffer
  value : BitVec 32

def Call.handed (val : BitVec 32) : Call → List HandOver
  | .gmacRxFillOneBuff alloc b =>
    (GmacDma.gmacRxFillOneBuff val alloc b).2.toList.map fun value => ⟨.rx, b, value⟩
  | .gmacRxReuseSkb b => [⟨.rx, b, GmacDma.gmacRxReuseSkb val b⟩]
  | .gmacRxFillAllBuff bufs =>
    List.zipWith (fun b value => ⟨.rx, b, value⟩) bufs (GmacDma.gmacRxFillAllBuff val bufs)
  | .gmacTxAddBd c =>
    match (GmacDma.gmacTxAddBd val c).2, c.node with
    | some (pktAddr, clearAddr), some txState =>
      [⟨.tx, c.pkt, pktAddr⟩, ⟨.tx, txState, clearAddr⟩]
    | _, _ => []

def base (d : Direction) (val : BitVec 32) : ℕ :=
  if (addrRemapMode d val).toNat = 1 then (haddrOffset d val).toNat * 2 ^ 28
  else if (addrRemapMode d val).toNat = 2 then (haddrHi d val).toNat * 2 ^ 32
  else 0

structure DmaCorrect (val : BitVec 32) (call : Call) : Prop where
  exact : ∀ h ∈ call.handed val,
    base h.direction val + h.value.toNat = h.buffer.dmaAddr.toNat
  within : ∀ h ∈ call.handed val,
    ∃ v : BitVec 32, base h.direction val + v.toNat = h.buffer.dmaAddr.toNat

def Buffer.Allowed (b : Buffer) (d : Direction) (val : BitVec 32) : Prop :=
  if b.ret = 0 then base d val ≤ b.dmaAddr.toNat ∧ b.dmaAddr.toNat < base d val + 2 ^ 32
  else base d val = b.dmaAddr.toNat / 2 ^ 32 * 2 ^ 32

def Call.buffers : Call → List (Direction × Buffer)
  | .gmacRxFillOneBuff alloc b => if alloc then [(.rx, b)] else []
  | .gmacRxReuseSkb b => [(.rx, b)]
  | .gmacRxFillAllBuff bufs =>
    (bufs.takeWhile fun b => b.dmaAddr.toNat % cpuCacheLineSize = 0).map fun b => (.rx, b)
  | .gmacTxAddBd c =>
    if c.opened = false ∨ c.skb.len = 0 ∨ c.skb.len > gmacMaxPktLen ∨
        c.cfTxCfgNum ≥ (chipTxFifoNum - 1) * 4 then []
    else c.node.toList.flatMap fun txState => [(.tx, c.pkt), (.tx, txState)]

section Words

variable {d : Direction} {ret : ℤ} {val : BitVec 32} {phyAddr : BitVec 64}

theorem macHaddr_toNat (d : Direction) (val : BitVec 32) : (macHaddr d val).toNat = base d val := by
  have hoffset := (haddrOffset d val).isLt
  have hhi := (haddrHi d val).isLt
  have hmode := (addrRemapMode d val).isLt
  unfold macHaddr base
  split
  next h =>
    rw [h, BitVec.toNat_shiftLeft, BitVec.toNat_setWidth]
    simp [Nat.shiftLeft_eq]
    omega
  next h =>
    rw [h, BitVec.toNat_shiftLeft, BitVec.toNat_setWidth]
    simp [Nat.shiftLeft_eq]
    omega
  next h1 h2 =>
    rw [if_neg, if_neg]
    · rfl
    · exact fun h => h2 (BitVec.eq_of_toNat_eq h)
    · exact fun h => h1 (BitVec.eq_of_toNat_eq h)

theorem setWidth_toNat (x : BitVec 64) : (x.setWidth 32).toNat = x.toNat % 2 ^ 32 :=
  BitVec.toNat_setWidth 32 x

theorem base_add_iff (b : Buffer) (d : Direction) (val : BitVec 32) :
    base d val + (getDdrRelativeAddr d b.ret val b.dmaAddr).toNat = b.dmaAddr.toNat ↔
      b.Allowed d val := by
  have hbase := macHaddr_toNat d val
  have hlt := b.dmaAddr.isLt
  unfold getDdrRelativeAddr Buffer.Allowed
  by_cases hret : b.ret = 0
  · rw [if_neg (not_not.mpr hret), if_pos hret]
    by_cases hbelow : b.dmaAddr.toNat < base d val
    · have hlow : b.dmaAddr < macHaddr d val := by
        rw [BitVec.lt_def, hbase]
        exact hbelow
      rw [if_pos hlow, setWidth_toNat]
      omega
    · have hlow : ¬ b.dmaAddr < macHaddr d val := by
        rw [BitVec.lt_def, hbase]
        exact hbelow
      have hsub : (b.dmaAddr - macHaddr d val).toNat = b.dmaAddr.toNat - base d val := by
        rw [BitVec.toNat_sub_of_le (BitVec.not_lt.mp hlow), hbase]
      have hhigh : (b.dmaAddr - macHaddr d val) >>> 32 ≠ 0 ↔
          2 ^ 32 ≤ b.dmaAddr.toNat - base d val := by
        rw [Ne, BitVec.toNat_eq, BitVec.toNat_ushiftRight, hsub, Nat.shiftRight_eq_div_pow]
        change ¬ _ = 0 ↔ _
        omega
      rw [if_neg hlow]
      by_cases hbeyond : 2 ^ 32 ≤ b.dmaAddr.toNat - base d val
      · rw [if_pos (hhigh.mpr hbeyond), setWidth_toNat]
        omega
      · rw [if_neg (fun h => hbeyond (hhigh.mp h)), setWidth_toNat, hsub]
        omega
  · rw [if_pos hret, if_neg hret, setWidth_toNat]
    omega

end Words

section Handed

variable {val : BitVec 32}

def handOver (val : BitVec 32) (x : Direction × Buffer) : HandOver :=
  ⟨x.1, x.2, getDdrRelativeAddr x.1 x.2.ret val x.2.dmaAddr⟩

theorem fillAll_handed (val : BitVec 32) (bufs : List Buffer) :
    (Call.gmacRxFillAllBuff bufs).handed val =
      (Call.gmacRxFillAllBuff bufs).buffers.map (handOver val) := by
  unfold Call.handed Call.buffers
  dsimp only
  induction bufs with
  | nil => rfl
  | cons b bufs ih =>
    by_cases haligned : b.dmaAddr.toNat % cpuCacheLineSize = 0
    · rw [gmacRxFillAllBuff, if_neg (not_not.mpr haligned), List.zipWith_cons_cons, ih,
        List.takeWhile_cons_of_pos (by simpa using haligned)]
      rfl
    · rw [gmacRxFillAllBuff, if_pos haligned, List.takeWhile_cons_of_neg (by simpa using haligned)]
      rfl

theorem Call.handed_eq (call : Call) (val : BitVec 32) :
    call.handed val = call.buffers.map (handOver val) := by
  cases call with
  | gmacRxFillOneBuff alloc b =>
    cases alloc with
    | false => rfl
    | true => rfl
  | gmacRxReuseSkb b => rfl
  | gmacRxFillAllBuff bufs => exact fillAll_handed val bufs
  | gmacTxAddBd c =>
    unfold Call.handed Call.buffers GmacDma.gmacTxAddBd
    dsimp only
    by_cases hopened : c.opened = false
    · rw [if_pos hopened, if_pos (Or.inl hopened)]
      rfl
    rw [if_neg hopened]
    by_cases hlen : c.skb.len = 0 ∨ c.skb.len > gmacMaxPktLen
    · rw [if_pos hlen, if_pos (by tauto)]
      rfl
    rw [if_neg hlen]
    cases hnode : c.node with
    | none => simp
    | some txState =>
      dsimp only
      by_cases hfull : c.cfTxCfgNum ≥ (chipTxFifoNum - 1) * 4
      · rw [if_pos hfull, if_pos (by tauto)]
        rfl
      · rw [if_neg hfull, if_neg (by tauto)]
        rfl

end Handed

theorem dma_exact_iff (val : BitVec 32) (call : Call) :
    DmaCorrect val call ↔ ∀ x ∈ call.buffers, x.2.Allowed x.1 val := by
  have hvalue : ∀ x : Direction × Buffer,
      base (handOver val x).direction val + (handOver val x).value.toNat =
        (handOver val x).buffer.dmaAddr.toNat ↔ x.2.Allowed x.1 val :=
    fun x => base_add_iff x.2 x.1 val
  constructor
  · intro h x hx
    have hmem : handOver val x ∈ call.handed val := by
      rw [call.handed_eq]
      exact List.mem_map_of_mem hx
    exact (hvalue x).mp (h.exact _ hmem)
  · intro h
    have hexact : ∀ o ∈ call.handed val,
        base o.direction val + o.value.toNat = o.buffer.dmaAddr.toNat := by
      intro o ho
      rw [call.handed_eq] at ho
      obtain ⟨x, hx, rfl⟩ := List.mem_map.mp ho
      exact (hvalue x).mpr (h x hx)
    exact ⟨hexact, fun o ho => ⟨o.value, hexact o ho⟩⟩

/-- A receive buffer at 6 GB: the packet is written to 4 GB. -/
theorem dma_not_exact :
    ¬ DmaCorrect gmacHwHaddrExternConfig (.gmacRxFillOneBuff true ⟨0x180000000, 0⟩) := by
  intro h
  have hsum := h.exact (handOver gmacHwHaddrExternConfig (.rx, ⟨0x180000000, 0⟩))
    (List.mem_singleton.mpr rfl)
  have hfour : base .rx gmacHwHaddrExternConfig +
      (getDdrRelativeAddr .rx 0 gmacHwHaddrExternConfig 0x180000000).toNat = 2 ^ 32 := by
    decide
  have hsix : (0x180000000 : BitVec 64).toNat = 2 ^ 31 + 2 ^ 32 := rfl
  unfold handOver at hsum
  dsimp only at hsum
  omega

end HiMpu.GmacDma
