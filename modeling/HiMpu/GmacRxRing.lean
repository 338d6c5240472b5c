import HiMpu.ByteMemory
import HiMpu.RingQueue
import HiMpu.TransitionSystem

/-!
# The receive ring of the GMAC network driver

`gmac_eth_rx` takes frames out of the buffers of a ring, hands them to the network stack
and posts new buffers to the receive FIFO of the MAC.  The MAC fills the oldest buffer of
the FIFO, at any moment between two steps of the poll; the stack may write to or free the
buffers it was given.
-/

namespace HiMpu.GmacRx

open TransitionSystem

def gmacRxBdRingSize : ℕ := 127
def packetHeadSize : ℕ := 64
def packetDataSize : ℕ := 7168 + 32
def cpuCacheLineSize : ℕ := 64
def ethHeadOffset : ℕ := 34
def macAddrSize : ℕ := 6
def ethP8021qV : ℕ := 0x0081
def ethPIpv6V : ℕ := 0xdd86
def nexthdrIcmp : UInt8 := 58
def ndiscNeighbourSolicitation : UInt8 := 135
def pauseForceEnable : ℕ := 2
def pauseAutoEnable : ℕ := 0
def eth2 : ℕ := 2
def eth3 : ℕ := 3

/-! ## Frames in buffers -/

structure Config where
  id : ℕ
  devAddr : ℕ → UInt8
  loopHook : Bool
  gRxMode : Bool

def pktLength (buf : Mem) : ℕ := (buf 8).toNat <<< 8 + (buf 9).toNat

def gmacRxNdiscSmacIsMyself (cfg : Config) (buf : Mem) (p : ℕ) : ℤ :=
  if ∃ i < macAddrSize, cfg.devAddr i ≠ buf (p + macAddrSize + i) then 0
  else
    let vlan := buf.load (p + 12) 2 = ethP8021qV
    let proto := if vlan then buf.load (p + 16) 2 else buf.load (p + 12) 2
    let offset := if vlan then 18 else 14
    if proto ≠ ethPIpv6V then 0
    else if buf (p + offset + 6) ≠ nexthdrIcmp then 0
    else if buf (p + offset + 40) ≠ ndiscNeighbourSolicitation then 0
    else 1

inductive PktCheck where
  | empty
  | error
  | good (length : ℕ)
deriving DecidableEq

def gmacEthRxPktCheck (cfg : Config) (buf : Mem) : PktCheck :=
  let length := pktLength buf
  if length = 0 then .empty
  else if packetDataSize < length then .error
  else if ((buf 10 &&& 0xf0) >>> 4).toNat ≠ cfg.id then .error
  else if buf 18 &&& 0x20 ≠ 0 then .error
  else if buf 18 &&& 0x01 ≠ 0 then .error
  else if cfg.loopHook then .error
  else if 0 < gmacRxNdiscSmacIsMyself cfg buf ethHeadOffset then .error
  else .good length

inductive Owner where
  | free
  | driver
  | stack
deriving DecidableEq

inductive RxPc where
  | idle
  | top
  | check
  | deliver
  | fill
  | advance
  | full
deriving DecidableEq

structure Poll where
  budget : ℤ
  packetDone : ℤ
  rxSkbCurr : ℕ
  rxSkbBuff : Option ℕ
  length : ℕ
  handed : Bool

structure Consumed where
  slot : ℕ
  frame : Mem
  delivered : Bool

structure Rx where
  cfg : Config
  probed : Bool
  rxBdRing : ℕ → Option ℕ
  rxSkbCurr : ℕ
  buf : ℕ → Mem
  owner : ℕ → Owner
  rxCff : List ℕ
  cfTxPause : ℕ
  pc : RxPc
  poll : Poll
  ret : ℤ
  arrived : List Mem
  pending : List (ℕ × Mem)
  consumed : List Consumed
  reposted : List ℕ
  delivered : List Mem
  /-- The skbs that the driver used without owning them. -/
  stray : List ℕ

def Rx.touch (s : Rx) (id : ℕ) : Rx :=
  if s.owner id = .driver then s else { s with stray := s.stray ++ [id] }

def Rx.post (s : Rx) (id : ℕ) : Rx :=
  let s := s.touch id
  { s with
    buf := Function.update s.buf id ((s.buf id).fill 0 packetHeadSize 0)
    rxCff := s.rxCff ++ [id] }

def Rx.consume (s : Rx) (id : ℕ) (delivered : Bool) : Rx :=
  { s with
    pending := s.pending.filter fun e => e.1 ≠ id
    consumed := s.consumed ++ (s.pending.filter fun e => e.1 = id).map fun e =>
      ⟨s.poll.rxSkbCurr, e.2, delivered⟩ }

def Rx.repost (s : Rx) (id : ℕ) : Rx :=
  { s.post id with reposted := s.reposted ++ [s.poll.rxSkbCurr] }

/-! ## The poll -/

def gmacForcePauseEnable (s : Rx) : Rx :=
  if s.rxCff.length ≤ gmacRxBdRingSize / 2 then { s with cfTxPause := pauseForceEnable } else s

def Rx.complete (s : Rx) : Rx :=
  { s with cfTxPause := pauseAutoEnable, ret := s.poll.packetDone, pc := .idle }

def gmacEthRx (s : Rx) : Option Rx :=
  let p := s.poll
  match s.pc with
  | .idle | .fill | .full => none
  | .top =>
    if p.packetDone < p.budget then
      let skb := s.rxBdRing p.rxSkbCurr
      some { gmacForcePauseEnable s with
        poll := { p with rxSkbBuff := skb, handed := false }
        pc := if skb = none then .fill else .check }
    else some s.complete
  | .check =>
    p.rxSkbBuff.map fun id =>
      match gmacEthRxPktCheck s.cfg (s.buf id) with
      | .empty => (s.touch id).complete
      | .error => { ((s.touch id).consume id false).repost id with pc := .advance }
      | .good length => { s.touch id with poll := { p with length := length }, pc := .deliver }
  | .deliver =>
    p.rxSkbBuff.map fun id =>
      let s := s.touch id
      { s.consume id true with
        delivered := s.delivered ++ [s.buf id]
        owner := Function.update s.owner id .stack
        poll := { p with handed := true }
        pc := .fill }
  | .advance =>
    let curr := if p.rxSkbCurr + 1 = gmacRxBdRingSize then 0 else p.rxSkbCurr + 1
    some { s with
      rxSkbCurr := curr
      poll := { p with rxSkbCurr := curr, packetDone := p.packetDone + 1 }
      pc := if p.packetDone + 1 ≥ p.budget then .full else .top }

def gmacRxFillOneBuff (s : Rx) (skb : Option ℕ) : Option Rx :=
  if s.pc = .fill then
    match skb with
    | none =>
      some { s with
        rxBdRing := Function.update s.rxBdRing s.poll.rxSkbCurr none
        ret := s.poll.budget
        pc := .idle }
    | some id =>
      if s.owner id = .free then
        some { ({ s with
          owner := Function.update s.owner id .driver
          rxBdRing := Function.update s.rxBdRing s.poll.rxSkbCurr (some id) } : Rx).repost id with
          pc := .advance }
      else none
  else none

/-- The port number is read from the data of the last skb. -/
def gmacRxPktMaxHandle (s : Rx) (gmacNum : ℕ) : Option Rx :=
  if s.pc = .full then
    match s.poll.rxSkbBuff with
    | none => some { s with ret := s.poll.packetDone, pc := .idle }
    | some id =>
      if s.cfg.gRxMode ∧ (gmacNum = eth2 ∨ gmacNum = eth3) then
        some { s.touch id with cfTxPause := pauseAutoEnable, ret := 0, pc := .idle }
      else some { s.touch id with ret := s.poll.packetDone, pc := .idle }
  else none

def gmacRxFillAllBuff (addr : ℕ → ℕ) : List ℕ → Rx → Rx
  | [], s => s
  | i :: is, s =>
    match s.rxBdRing i with
    | none => s
    | some id =>
      if addr i % cpuCacheLineSize ≠ 0 then
        { s with buf := Function.update s.buf id ((s.buf id).fill 0 packetHeadSize 0) }
      else gmacRxFillAllBuff addr is (s.post id)

def gmacRxInitRing (s : Rx) (skbs : ℕ → ℕ) : Rx :=
  { s with
    probed := true
    rxBdRing := fun i => if i < gmacRxBdRingSize then some (skbs i) else none
    owner := fun id =>
      if (List.range gmacRxBdRingSize).any (skbs · = id) then .driver else s.owner id
    rxSkbCurr := 0 }

inductive Action where
  | probe (skbs addr : ℕ → ℕ)
  | arrive (frame : Mem)
  | poll (budget : ℤ)
  | step
  | fill (skb : Option ℕ)
  | full (gmacNum : ℕ)
  | write (id : ℕ) (data : Mem)
  | release (id : ℕ)
  | configure (cfg : Config)

def probe (s : Rx) (skbs addr : ℕ → ℕ) : Option Rx :=
  if s.probed = false ∧ ((List.range gmacRxBdRingSize).map skbs).Nodup ∧
      ∀ i < gmacRxBdRingSize, s.owner (skbs i) = .free then
    some (gmacRxFillAllBuff addr (List.range gmacRxBdRingSize) (gmacRxInitRing s skbs))
  else none

def next (s : Rx) : Action → Option Rx
  | .probe skbs addr => probe s skbs addr
  | .arrive frame =>
    match s.rxCff with
    | [] => none
    | id :: rest =>
      some { s with
        buf := Function.update s.buf id frame
        rxCff := rest
        arrived := s.arrived ++ [frame]
        pending := s.pending ++ [(id, frame)] }
  | .poll budget =>
    if s.probed ∧ s.pc = .idle then
      some { s with pc := .top, poll := ⟨budget, 0, s.rxSkbCurr, none, 0, false⟩ }
    else none
  | .step => gmacEthRx s
  | .fill skb => gmacRxFillOneBuff s skb
  | .full gmacNum => gmacRxPktMaxHandle s gmacNum
  | .write id data =>
    if s.owner id ≠ .driver then some { s with buf := Function.update s.buf id data } else none
  | .release id =>
    if s.owner id = .stack then some { s with owner := Function.update s.owner id .free }
    else none
  | .configure cfg => some { s with cfg := cfg }

def initial (s : Rx) : Prop :=
  s.probed = false ∧ s.pc = .idle ∧ (∀ id, s.owner id ≠ .driver) ∧ s.rxCff = [] ∧
    s.arrived = [] ∧ s.pending = [] ∧ s.consumed = [] ∧ s.reposted = [] ∧ s.delivered = [] ∧
    s.stray = []

def system : TransitionSystem Rx Action := ofStep initial next

/-! ## What a correct ring is -/

def Rx.ringOrder (s : Rx) : List ℕ := (List.range gmacRxBdRingSize).rotate s.rxSkbCurr

def Rx.missing (s : Rx) : Prop :=
  s.pc = .fill ∨ (s.pc ≠ .advance ∧ s.rxBdRing s.rxSkbCurr = none)

instance (s : Rx) : Decidable s.missing := inferInstanceAs (Decidable (_ ∨ _))

def Rx.slots (s : Rx) : List ℕ :=
  if s.missing then s.ringOrder.tail
  else if s.pc = .advance then s.ringOrder.tail ++ [s.rxSkbCurr]
  else s.ringOrder

def Rx.posted (s : Rx) : List ℕ := s.pending.map Prod.fst ++ s.rxCff

structure Account (s : Rx) : Prop where
  order : s.probed = true → s.posted.map some = s.slots.map s.rxBdRing
  /-- A consumed slot is posted again once, except the one without a buffer. -/
  reposts : s.probed = true →
    s.consumed.map Consumed.slot = s.reposted ++ if s.missing then [s.rxSkbCurr] else []
  arrivals : s.arrived = s.consumed.map Consumed.frame ++ s.pending.map Prod.snd
  deliveries : s.delivered = (s.consumed.filter Consumed.delivered).map Consumed.frame
  stray : s.stray = []

/-- No poll reaches its budget with a frame that it has delivered, and every buffer of
the first filling is aligned. -/
def Kept (s : Rx) : Action → Prop
  | .probe _ addr => ∀ i < gmacRxBdRingSize, addr i % cpuCacheLineSize = 0
  | .full _ => s.poll.handed = false
  | _ => True

variable {s s' : Rx} {id i : ℕ} {buf : Mem}

/-- Between the rounds and in them, the ring and the buffers agree. -/
structure Inv (s : Rx) : Prop extends Account s where
  curr : s.probed = true → s.rxSkbCurr < gmacRxBdRingSize
  running : s.pc ≠ .idle → s.probed = true ∧ s.poll.rxSkbCurr = s.rxSkbCurr
  others : s.probed = true → ∀ i < gmacRxBdRingSize, i ≠ s.rxSkbCurr → s.rxBdRing i ≠ none
  here : s.pc = .advance → s.rxBdRing s.rxSkbCurr ≠ none
  nodup : s.posted.Nodup
  owner : ∀ id ∈ s.posted, s.owner id = .driver
  empty : ∀ id ∈ s.rxCff, pktLength (s.buf id) = 0
  content : ∀ e ∈ s.pending, s.buf e.1 = e.2
  hand : s.pc = .check ∨ s.pc = .deliver →
    ∃ id, s.poll.rxSkbBuff = some id ∧ s.rxBdRing s.rxSkbCurr = some id
  good : s.pc = .deliver → ∀ id, s.poll.rxSkbBuff = some id → pktLength (s.buf id) ≠ 0
  kept : s.pc = .fill ∨ s.pc = .advance ∨ s.pc = .full → s.poll.handed = false →
    ∀ id, s.poll.rxSkbBuff = some id → id ∈ s.posted

theorem Rx.touch_eq (howner : s.owner id = .driver) : s.touch id = s := if_pos howner

theorem repost_eq (howner : s.owner id = .driver) : s.repost id = { s with
    buf := Function.update s.buf id ((s.buf id).fill 0 packetHeadSize 0)
    rxCff := s.rxCff ++ [id]
    reposted := s.reposted ++ [s.poll.rxSkbCurr] } := by
  unfold Rx.repost Rx.post
  rw [Rx.touch_eq howner]

theorem pktLength_fill : pktLength (buf.fill 0 packetHeadSize 0) = 0 := by
  unfold pktLength
  rw [Mem.fill, Mem.fill, if_pos (by decide), if_pos (by decide)]
  rfl

theorem missing_fill (hpc : s.pc = .fill) : s.missing := Or.inl hpc

theorem slots_missing (hmissing : s.missing) : s.slots = s.ringOrder.tail := if_pos hmissing

theorem slots_advance (hpc : s.pc = .advance) : s.slots = s.ringOrder.tail ++ [s.rxSkbCurr] := by
  have hmissing : ¬ s.missing := by
    rintro (h | h)
    · rw [hpc] at h
      cases h
    · exact h.1 hpc
  unfold Rx.slots
  rw [if_neg hmissing, if_pos hpc]

theorem not_missing (hpc : s.pc ≠ .fill) (hring : s.rxBdRing s.rxSkbCurr ≠ none) :
    ¬ s.missing := by
  rintro (h | h)
  · exact hpc h
  · exact hring h.2

theorem slots_full (hpc : s.pc ≠ .fill) (hpc' : s.pc ≠ .advance)
    (hring : s.rxBdRing s.rxSkbCurr ≠ none) : s.slots = s.ringOrder := by
  unfold Rx.slots
  rw [if_neg (not_missing hpc hring), if_neg hpc']

theorem Inv.ringOrder (hinv : Inv s) (hprobed : s.probed = true) :
    s.ringOrder = s.rxSkbCurr :: s.ringOrder.tail :=
  rotate_range_cons (hinv.curr hprobed)

theorem Inv.curr_notMem (hinv : Inv s) (hprobed : s.probed = true) :
    s.rxSkbCurr ∉ s.ringOrder.tail := by
  have hnodup : s.ringOrder.Nodup := List.nodup_rotate.mpr List.nodup_range
  rw [hinv.ringOrder hprobed] at hnodup
  exact (List.nodup_cons.mp hnodup).1

theorem Inv.head (hinv : Inv s) (hpc : s.pc = .check ∨ s.pc = .deliver)
    (hbuff : s.poll.rxSkbBuff = some id) :
    s.rxBdRing s.rxSkbCurr = some id ∧ ∃ rest, s.posted = id :: rest ∧
      rest.map some = s.ringOrder.tail.map s.rxBdRing := by
  obtain ⟨id', hbuff', hring⟩ := hinv.hand hpc
  obtain rfl : id = id' := Option.some_inj.mp (hbuff.symm.trans hbuff')
  have hidle : s.pc ≠ .idle := by
    rcases hpc with h | h <;> rw [h] <;> simp
  have hslots : s.slots = s.ringOrder := by
    refine slots_full ?_ ?_ (by rw [hring]; simp)
    all_goals rcases hpc with h | h <;> rw [h] <;> simp
  have hprobed := (hinv.running hidle).1
  have horder := hinv.order hprobed
  rw [hslots, hinv.ringOrder hprobed, List.map_cons, hring] at horder
  obtain ⟨id', rest, hposted, hid, hrest⟩ := List.map_eq_cons_iff.mp horder
  obtain rfl : id' = id := Option.some_inj.mp hid
  exact ⟨hring, rest, hposted, hrest⟩

theorem Inv.head_owner (hinv : Inv s) (hpc : s.pc = .check ∨ s.pc = .deliver)
    (hbuff : s.poll.rxSkbBuff = some id) : s.owner id = .driver := by
  obtain ⟨_, rest, hposted, _⟩ := hinv.head hpc hbuff
  refine hinv.owner id ?_
  rw [hposted]
  exact List.mem_cons_self

theorem Inv.oldest (hinv : Inv s) (hpc : s.pc = .check ∨ s.pc = .deliver)
    (hbuff : s.poll.rxSkbBuff = some id) (hlen : pktLength (s.buf id) ≠ 0) :
    ∃ rest, s.pending = (id, s.buf id) :: rest ∧ id ∉ rest.map Prod.fst ++ s.rxCff ∧
      (rest.map Prod.fst ++ s.rxCff).map some = s.ringOrder.tail.map s.rxBdRing := by
  obtain ⟨_, posted, hposted, hrest⟩ := hinv.head hpc hbuff
  have hnodup := hinv.nodup
  rw [hposted, List.nodup_cons] at hnodup
  have hcff : id ∉ s.rxCff := fun h => hlen (hinv.empty id h)
  unfold Rx.posted at hposted
  cases hpending : s.pending with
  | nil =>
    rw [hpending, List.map_nil, List.nil_append] at hposted
    rw [hposted] at hcff
    exact absurd List.mem_cons_self hcff
  | cons e rest =>
    rw [hpending, List.map_cons, List.cons_append] at hposted
    obtain ⟨rfl, rfl⟩ := List.cons.inj hposted
    refine ⟨rest, ?_, hnodup.1, hrest⟩
    have hcontent := hinv.content e (by rw [hpending]; exact List.mem_cons_self)
    rw [hcontent]

theorem consume_oldest {rest : List (ℕ × Mem)} {delivered : Bool}
    (hpending : s.pending = (id, s.buf id) :: rest) (hfresh : id ∉ rest.map Prod.fst) :
    s.consume id delivered = { s with
      pending := rest
      consumed := s.consumed ++ [⟨s.poll.rxSkbCurr, s.buf id, delivered⟩] } := by
  obtain ⟨hkeep, htake⟩ := filter_key_head (b := s.buf id) hfresh
  unfold Rx.consume
  rw [hpending, hkeep, htake]
  rfl

/-! ## Steps of the MAC and of others -/

theorem Inv.arrive {rest : List ℕ} {frame : Mem} (hinv : Inv s) (hcff : s.rxCff = id :: rest) :
    Inv { s with
      buf := Function.update s.buf id frame
      rxCff := rest
      arrived := s.arrived ++ [frame]
      pending := s.pending ++ [(id, frame)] } := by
  have hposted : (s.pending ++ [(id, frame)]).map Prod.fst ++ rest = s.posted := by
    unfold Rx.posted
    rw [hcff, List.map_append, List.append_assoc]
    rfl
  have hnodup := hinv.nodup
  unfold Rx.posted at hnodup
  rw [hcff, List.nodup_append] at hnodup
  have hrest : ∀ id' ∈ rest, id' ≠ id := by
    rintro id' hid' rfl
    exact (List.nodup_cons.mp hnodup.2.1).1 hid'
  have hpending : ∀ e ∈ s.pending, e.1 ≠ id := by
    intro e he
    exact hnodup.2.2 e.1 (List.mem_map_of_mem he) id List.mem_cons_self
  refine ⟨⟨?_, hinv.reposts, ?_, hinv.deliveries, hinv.stray⟩, hinv.curr, hinv.running,
    hinv.others, hinv.here, ?_, ?_, ?_, ?_, hinv.hand, ?_, ?_⟩
  · intro hprobed
    show ((s.pending ++ [(id, frame)]).map Prod.fst ++ rest).map some = _
    rw [hposted]
    exact hinv.order hprobed
  · simp only [hinv.arrivals, List.map_append, List.map_cons, List.map_nil, List.append_assoc]
  · show ((s.pending ++ [(id, frame)]).map Prod.fst ++ rest).Nodup
    rw [hposted]
    exact hinv.nodup
  · show ∀ id' ∈ (s.pending ++ [(id, frame)]).map Prod.fst ++ rest, _
    rw [hposted]
    exact hinv.owner
  · intro id' hid'
    simp only [Function.update_of_ne (hrest id' hid')]
    exact hinv.empty id' (by rw [hcff]; exact List.mem_cons_of_mem _ hid')
  · intro e he
    rcases List.mem_append.mp he with hold | hnew
    · simp only [Function.update_of_ne (hpending e hold)]
      exact hinv.content e hold
    · rw [List.mem_singleton] at hnew
      subst hnew
      exact Function.update_self ..
  · intro hpc id' hbuff
    have hgood := hinv.good hpc id' hbuff
    have hne : id' ≠ id := by
      rintro rfl
      exact hgood (hinv.empty _ (by rw [hcff]; exact List.mem_cons_self))
    simp only [Function.update_of_ne hne]
    exact hgood
  · intro hpc hhanded id' hbuff
    show id' ∈ (s.pending ++ [(id, frame)]).map Prod.fst ++ rest
    rw [hposted]
    exact hinv.kept hpc hhanded id' hbuff

theorem Inv.write {data : Mem} (hinv : Inv s) (howner : s.owner id ≠ .driver) :
    Inv { s with buf := Function.update s.buf id data } := by
  have hne : ∀ id' ∈ s.posted, id' ≠ id := by
    rintro id' hid' rfl
    exact howner (hinv.owner id' hid')
  refine { hinv with empty := ?_, content := ?_, good := ?_ }
  · intro id' hid'
    simp only [Function.update_of_ne (hne id' (List.mem_append_right _ hid'))]
    exact hinv.empty id' hid'
  · intro e he
    simp only [Function.update_of_ne (hne e.1 (List.mem_append_left _ (List.mem_map_of_mem he)))]
    exact hinv.content e he
  · intro hpc id' hbuff
    have hdriver := hinv.head_owner (Or.inr hpc) hbuff
    have hid : id' ≠ id := by
      rintro rfl
      exact howner hdriver
    simp only [Function.update_of_ne hid]
    exact hinv.good hpc id' hbuff

theorem Inv.release (hinv : Inv s) (howner : s.owner id = .stack) :
    Inv { s with owner := Function.update s.owner id .free } := by
  refine { hinv with owner := ?_ }
  intro id' hid'
  have hdriver := hinv.owner id' hid'
  have hne : id' ≠ id := by
    rintro rfl
    rw [howner] at hdriver
    cases hdriver
  simp only [Function.update_of_ne hne]
  exact hdriver

/-! ## Steps of the poll -/

theorem Inv.goto {pc : RxPc} {p : Poll} {pause : ℕ} {ret : ℤ} (hinv : Inv s)
    (hslots : s.pc ≠ .fill ∧ s.pc ≠ .advance ∧ pc ≠ .advance)
    (hfill : pc = .fill → s.rxBdRing s.rxSkbCurr = none)
    (hrunning : pc ≠ .idle → s.probed = true ∧ p.rxSkbCurr = s.rxSkbCurr)
    (hhand : pc = .check ∨ pc = .deliver →
      ∃ id, p.rxSkbBuff = some id ∧ s.rxBdRing s.rxSkbCurr = some id)
    (hgood : pc = .deliver → ∀ id, p.rxSkbBuff = some id → pktLength (s.buf id) ≠ 0)
    (hkept : pc = .fill ∨ pc = .full → p.rxSkbBuff = none) :
    Inv { s with pc := pc, poll := p, cfTxPause := pause, ret := ret } := by
  have hmissing : ({ s with pc := pc, poll := p, cfTxPause := pause, ret := ret } : Rx).missing ↔
      s.missing := by
    unfold Rx.missing
    simp only [hslots.1, hslots.2.1, hslots.2.2, ne_eq, not_false_eq_true, true_and, false_or,
      or_iff_right_iff_imp]
    exact hfill
  have hsame : ({ s with pc := pc, poll := p, cfTxPause := pause, ret := ret } : Rx).slots =
      s.slots := by
    unfold Rx.slots
    simp only [hmissing, if_neg hslots.2.1, if_neg hslots.2.2]
    rfl
  refine ⟨⟨?_, ?_, hinv.arrivals, hinv.deliveries, hinv.stray⟩, hinv.curr, hrunning, hinv.others,
    fun h => absurd h hslots.2.2, hinv.nodup, hinv.owner, hinv.empty, hinv.content, hhand, hgood,
    ?_⟩
  · rw [hsame]
    exact hinv.order
  · simp only [hmissing]
    exact hinv.reposts
  · rintro (h | h | h) _ id hbuff
    · rw [hkept (Or.inl h)] at hbuff
      cases hbuff
    · exact absurd h hslots.2.2
    · rw [hkept (Or.inr h)] at hbuff
      cases hbuff

theorem Inv.complete (hinv : Inv s) (hpc : s.pc ≠ .fill ∧ s.pc ≠ .advance) : Inv s.complete :=
  hinv.goto ⟨hpc.1, hpc.2, by simp⟩ (fun h => by cases h) (fun h => absurd rfl h)
    (fun h => by rcases h with h | h <;> cases h) (fun h => by cases h)
    fun h => by rcases h with h | h <;> cases h

theorem Inv.top (hinv : Inv s) (hpc : s.pc = .top) (hstep : gmacEthRx s = some s') : Inv s' := by
  have hstart : s.pc ≠ .fill ∧ s.pc ≠ .advance := by
    rw [hpc]
    simp
  obtain ⟨hprobed, hcurr⟩ := hinv.running (by rw [hpc]; simp)
  simp only [gmacEthRx, hpc] at hstep
  split at hstep
  next =>
    cases hstep
    rw [hcurr]
    have hgoto : ∀ pause, Inv { s with
        poll := { s.poll with
          rxSkbCurr := s.rxSkbCurr
          rxSkbBuff := s.rxBdRing s.rxSkbCurr
          handed := false }
        pc := if s.rxBdRing s.rxSkbCurr = none then .fill else .check
        cfTxPause := pause } := by
      intro pause
      cases hring : s.rxBdRing s.rxSkbCurr with
      | none =>
        exact hinv.goto ⟨hstart.1, hstart.2, by simp⟩ (fun _ => hring)
          (fun _ => ⟨hprobed, rfl⟩) (fun h => by rcases h with h | h <;> cases h)
          (fun h => by cases h) fun _ => rfl
      | some id =>
        exact hinv.goto ⟨hstart.1, hstart.2, by simp⟩ (fun h => by cases h)
          (fun _ => ⟨hprobed, rfl⟩) (fun _ => ⟨id, rfl, hring⟩) (fun h => by cases h)
          fun h => by rcases h with h | h <;> cases h
    unfold gmacForcePauseEnable
    split <;> exact hgoto _
  next =>
    cases hstep
    exact hinv.complete hstart

theorem Inv.reuse (hinv : Inv s) (hpc : s.pc = .check) (hbuff : s.poll.rxSkbBuff = some id)
    (hlen : pktLength (s.buf id) ≠ 0) :
    Inv { ((s.touch id).consume id false).repost id with pc := .advance } := by
  obtain ⟨hprobed, hcurr⟩ := hinv.running (by rw [hpc]; simp)
  obtain ⟨hring, -⟩ := hinv.head (Or.inl hpc) hbuff
  obtain ⟨rest, hpending, hfresh, horder⟩ := hinv.oldest (Or.inl hpc) hbuff hlen
  have howner := hinv.head_owner (Or.inl hpc) hbuff
  have hnodup := hinv.nodup
  unfold Rx.posted at hnodup
  rw [hpending, List.map_cons, List.cons_append, List.nodup_cons] at hnodup
  rw [Rx.touch_eq howner, consume_oldest hpending fun h => hfresh (List.mem_append_left _ h),
    repost_eq (by exact howner)]
  have hmem : ∀ id' ∈ rest.map Prod.fst ++ (s.rxCff ++ [id]), id' ∈ s.posted := by
    intro id' hid'
    unfold Rx.posted
    rw [hpending]
    simp only [List.map_cons, List.mem_append, List.mem_cons, List.not_mem_nil, or_false] at hid' ⊢
    tauto
  refine ⟨⟨?_, ?_, ?_, ?_, hinv.stray⟩, hinv.curr, fun _ => ⟨hprobed, hcurr⟩, hinv.others, ?_, ?_,
    fun id' hid' => hinv.owner id' (hmem id' hid'), ?_, ?_, ?_, ?_, ?_⟩
  · intro _
    rw [slots_advance rfl]
    show (rest.map Prod.fst ++ (s.rxCff ++ [id])).map some =
      (s.ringOrder.tail ++ [s.rxSkbCurr]).map s.rxBdRing
    rw [← List.append_assoc, List.map_append, horder, List.map_append, List.map_singleton,
      List.map_singleton, hring]
  · intro _
    have hold := hinv.reposts hprobed
    rw [if_neg (not_missing (by rw [hpc]; simp) (by rw [hring]; simp)), List.append_nil] at hold
    rw [if_neg (not_missing (by simp) (by rw [hring]; simp)), List.append_nil]
    simp only [List.map_append, hold, List.map_cons, List.map_nil]
  · show s.arrived = (s.consumed ++ [_]).map Consumed.frame ++ rest.map Prod.snd
    rw [hinv.arrivals, hpending]
    simp only [List.map_append, List.map_cons, List.map_nil, List.append_assoc, List.cons_append,
      List.nil_append]
  · show s.delivered = ((s.consumed ++ [_]).filter Consumed.delivered).map Consumed.frame
    rw [hinv.deliveries]
    simp
  · intro _
    show s.rxBdRing s.rxSkbCurr ≠ none
    rw [hring]
    simp
  · show (rest.map Prod.fst ++ (s.rxCff ++ [id])).Nodup
    rw [← List.append_assoc]
    exact List.nodup_append.mpr ⟨hnodup.2, List.nodup_singleton id, fun a ha b hb hab => by
      rw [List.mem_singleton] at hb
      exact hnodup.1 (by rw [← hb, ← hab]; exact ha)⟩
  · intro id' hid'
    by_cases heq : id' = id
    · subst heq
      simp only [Function.update_self]
      exact pktLength_fill
    · simp only [Function.update_of_ne heq]
      refine hinv.empty id' ?_
      rcases List.mem_append.mp hid' with h | h
      · exact h
      · exact absurd (List.mem_singleton.mp h) heq
  · intro e he
    have hne : e.1 ≠ id := by
      intro heq
      exact hfresh (List.mem_append_left _ (by rw [← heq]; exact List.mem_map_of_mem he))
    simp only [Function.update_of_ne hne]
    exact hinv.content e (by rw [hpending]; exact List.mem_cons_of_mem _ he)
  · intro h
    rcases h with h | h <;> cases h
  · intro h
    cases h
  · intro _ _ id' hid'
    obtain rfl : id = id' := Option.some_inj.mp (hbuff.symm.trans hid')
    show id ∈ rest.map Prod.fst ++ (s.rxCff ++ [id])
    simp

theorem Inv.deliver (hinv : Inv s) (hpc : s.pc = .deliver) (hbuff : s.poll.rxSkbBuff = some id) :
    Inv { (s.touch id).consume id true with
      delivered := (s.touch id).delivered ++ [(s.touch id).buf id]
      owner := Function.update (s.touch id).owner id .stack
      poll := { s.poll with handed := true }
      pc := .fill } := by
  obtain ⟨hprobed, hcurr⟩ := hinv.running (by rw [hpc]; simp)
  obtain ⟨hring, -⟩ := hinv.head (Or.inr hpc) hbuff
  obtain ⟨rest, hpending, hfresh, horder⟩ :=
    hinv.oldest (Or.inr hpc) hbuff (hinv.good hpc id hbuff)
  rw [Rx.touch_eq (hinv.head_owner (Or.inr hpc) hbuff),
    consume_oldest hpending fun h => hfresh (List.mem_append_left _ h)]
  have hposted : s.posted = id :: (rest.map Prod.fst ++ s.rxCff) := by
    unfold Rx.posted
    rw [hpending]
    rfl
  have hnodup := hinv.nodup
  rw [hposted, List.nodup_cons] at hnodup
  have hne : ∀ id' ∈ rest.map Prod.fst ++ s.rxCff, id' ≠ id := by
    rintro id' hid' rfl
    exact hfresh hid'
  refine ⟨⟨?_, ?_, ?_, ?_, hinv.stray⟩, hinv.curr, fun _ => ⟨hprobed, hcurr⟩, hinv.others,
    (fun h => by cases h), hnodup.2, ?_, hinv.empty, ?_,
    (fun h => by rcases h with h | h <;> cases h), (fun h => by cases h), fun _ h => by cases h⟩
  · intro _
    rw [slots_missing (missing_fill rfl)]
    exact horder
  · intro _
    have hold := hinv.reposts hprobed
    rw [if_neg (not_missing (by rw [hpc]; simp) (by rw [hring]; simp)), List.append_nil] at hold
    rw [if_pos (missing_fill rfl)]
    simp only [List.map_append, hold, List.map_cons, List.map_nil, hcurr]
  · simp only [hinv.arrivals, hpending, List.map_append, List.map_cons, List.map_nil,
      List.append_assoc, List.cons_append, List.nil_append]
  · simp [hinv.deliveries]
  · intro id' hid'
    simp only [Function.update_of_ne (hne id' hid')]
    exact hinv.owner id' (by rw [hposted]; exact List.mem_cons_of_mem _ hid')
  · intro e he
    exact hinv.content e (by rw [hpending]; exact List.mem_cons_of_mem _ he)

theorem Inv.check (hinv : Inv s) (hpc : s.pc = .check) (hstep : gmacEthRx s = some s') :
    Inv s' := by
  simp only [gmacEthRx, hpc, Option.map_eq_some_iff] at hstep
  obtain ⟨id, hbuff, rfl⟩ := hstep
  have howner := hinv.head_owner (Or.inl hpc) hbuff
  obtain ⟨hprobed, hcurr⟩ := hinv.running (by rw [hpc]; simp)
  split
  next =>
    rw [Rx.touch_eq howner]
    exact hinv.complete (by rw [hpc]; simp)
  next herror =>
    refine hinv.reuse hpc hbuff ?_
    intro hzero
    simp only [gmacEthRxPktCheck, hzero, if_true] at herror
    cases herror
  next length hgood =>
    rw [Rx.touch_eq howner]
    refine hinv.goto (by rw [hpc]; simp) (fun h => by cases h) (fun _ => ⟨hprobed, hcurr⟩)
      (fun _ => hinv.hand (Or.inl hpc)) ?_ fun h => by rcases h with h | h <;> cases h
    intro _ id' hbuff' hzero
    obtain rfl : id = id' := Option.some_inj.mp (hbuff.symm.trans hbuff')
    simp only [gmacEthRxPktCheck, hzero, if_true] at hgood
    cases hgood

theorem ringOrder_advance (hcurr : s.rxSkbCurr < gmacRxBdRingSize) :
    (List.range gmacRxBdRingSize).rotate
        (if s.rxSkbCurr + 1 = gmacRxBdRingSize then 0 else s.rxSkbCurr + 1) =
      s.ringOrder.tail ++ [s.rxSkbCurr] := by
  have hmod : (if s.rxSkbCurr + 1 = gmacRxBdRingSize then 0 else s.rxSkbCurr + 1) =
      (s.rxSkbCurr + 1) % gmacRxBdRingSize := by
    split
    next heq => rw [heq, Nat.mod_self]
    next hne => rw [Nat.mod_eq_of_lt (by omega)]
  rw [hmod]
  exact (rotate_range_succ (rotate_range_cons hcurr).symm).symm

theorem Inv.advance (hinv : Inv s) (hpc : s.pc = .advance) (hstep : gmacEthRx s = some s') :
    Inv s' := by
  obtain ⟨hprobed, hlocal⟩ := hinv.running (by rw [hpc]; simp)
  have hcurr := hinv.curr hprobed
  simp only [gmacEthRx, hpc, Option.some.injEq, hlocal] at hstep
  subst hstep
  have horder := ringOrder_advance hcurr
  have hlt : (if s.rxSkbCurr + 1 = gmacRxBdRingSize then 0 else s.rxSkbCurr + 1) <
      gmacRxBdRingSize := by
    unfold gmacRxBdRingSize at hcurr ⊢
    split <;> omega
  have hmoved : (if s.rxSkbCurr + 1 = gmacRxBdRingSize then 0 else s.rxSkbCurr + 1) ≠
      s.rxSkbCurr := by
    unfold gmacRxBdRingSize
    split <;> omega
  generalize hcurr' : (if s.rxSkbCurr + 1 = gmacRxBdRingSize then 0 else s.rxSkbCurr + 1) = curr'
    at horder hlt hmoved
  have hring : s.rxBdRing curr' ≠ none := hinv.others hprobed curr' hlt hmoved
  have hlater : ∀ q : Prop, [Decidable q] → (if q then RxPc.full else RxPc.top) ≠ .fill ∧
      (if q then RxPc.full else RxPc.top) ≠ .advance ∧
      (if q then RxPc.full else RxPc.top) ≠ .check ∧
      (if q then RxPc.full else RxPc.top) ≠ .deliver := by
    intro q _
    split <;> simp
  obtain ⟨hfill, hadvance, hcheck, hdeliver⟩ :=
    hlater (s.poll.packetDone + 1 ≥ s.poll.budget)
  refine ⟨⟨?_, ?_, hinv.arrivals, hinv.deliveries, hinv.stray⟩, fun _ => hlt,
    fun _ => ⟨hprobed, rfl⟩, ?_, fun h => absurd h hadvance, hinv.nodup, hinv.owner, hinv.empty,
    hinv.content, ?_, fun h => absurd h hdeliver, ?_⟩
  · intro _
    rw [slots_full hfill hadvance hring]
    unfold Rx.ringOrder
    rw [horder, ← slots_advance hpc]
    exact hinv.order hprobed
  · intro _
    have hold := hinv.reposts hprobed
    rw [if_neg (not_missing (by rw [hpc]; simp) (hinv.here hpc))] at hold
    rw [if_neg (not_missing hfill hring)]
    exact hold
  · intro _ i hi hne
    by_cases heq : i = s.rxSkbCurr
    · rw [heq]
      exact hinv.here hpc
    · exact hinv.others hprobed i hi heq
  · rintro (h | h)
    · exact absurd h hcheck
    · exact absurd h hdeliver
  · intro _ hhanded id hbuff
    exact hinv.kept (Or.inr (Or.inl hpc)) hhanded id hbuff

theorem map_tail_update (hinv : Inv s) (hprobed : s.probed = true) (skb : Option ℕ) :
    s.ringOrder.tail.map (Function.update s.rxBdRing s.rxSkbCurr skb) =
      s.ringOrder.tail.map s.rxBdRing := by
  apply List.map_congr_left
  intro i hi
  apply Function.update_of_ne
  rintro rfl
  exact hinv.curr_notMem hprobed hi

theorem Inv.unfilled (hinv : Inv s) (hpc : s.pc = .fill) :
    Inv { s with
      rxBdRing := Function.update s.rxBdRing s.poll.rxSkbCurr none
      ret := s.poll.budget
      pc := .idle } := by
  obtain ⟨hprobed, hcurr⟩ := hinv.running (by rw [hpc]; simp)
  rw [hcurr]
  have hmissing : ({ s with
      rxBdRing := Function.update s.rxBdRing s.rxSkbCurr none
      ret := s.poll.budget
      pc := .idle } : Rx).missing :=
    Or.inr ⟨by simp, Function.update_self ..⟩
  refine ⟨⟨?_, ?_, hinv.arrivals, hinv.deliveries, hinv.stray⟩, hinv.curr, fun h => absurd rfl h,
    ?_, (fun h => by cases h), hinv.nodup, hinv.owner, hinv.empty, hinv.content,
    (fun h => by rcases h with h | h <;> cases h), (fun h => by cases h),
    fun h => by rcases h with h | h | h <;> cases h⟩
  · intro _
    rw [slots_missing hmissing]
    have horder := hinv.order hprobed
    rw [slots_missing (missing_fill hpc), ← map_tail_update hinv hprobed none] at horder
    exact horder
  · intro _
    have hold := hinv.reposts hprobed
    rw [if_pos (missing_fill hpc)] at hold
    rw [if_pos hmissing]
    exact hold
  · intro _ i hi hne
    simp only [Function.update_of_ne hne]
    exact hinv.others hprobed i hi hne

theorem Inv.fill (hinv : Inv s) (hpc : s.pc = .fill) (hfree : s.owner id = .free) :
    Inv { ({ s with
      owner := Function.update s.owner id .driver
      rxBdRing := Function.update s.rxBdRing s.poll.rxSkbCurr (some id) } : Rx).repost id with
      pc := .advance } := by
  obtain ⟨hprobed, hcurr⟩ := hinv.running (by rw [hpc]; simp)
  rw [repost_eq (by exact Function.update_self ..), hcurr]
  have hfresh : id ∉ s.posted := by
    intro hmem
    rw [hinv.owner id hmem] at hfree
    cases hfree
  have hposted : s.pending.map Prod.fst ++ (s.rxCff ++ [id]) = s.posted ++ [id] :=
    (List.append_assoc ..).symm
  have hne : ∀ id' ∈ s.posted, id' ≠ id := by
    rintro id' hid' rfl
    exact hfresh hid'
  refine ⟨⟨?_, ?_, hinv.arrivals, hinv.deliveries, hinv.stray⟩, hinv.curr,
    fun _ => ⟨hprobed, hcurr⟩, ?_, ?_, ?_, ?_, ?_, ?_,
    (fun h => by rcases h with h | h <;> cases h), (fun h => by cases h), ?_⟩
  · intro _
    rw [slots_advance rfl]
    show (s.pending.map Prod.fst ++ (s.rxCff ++ [id])).map some =
      (s.ringOrder.tail ++ [s.rxSkbCurr]).map (Function.update s.rxBdRing s.rxSkbCurr (some id))
    have horder := hinv.order hprobed
    rw [slots_missing (missing_fill hpc)] at horder
    rw [hposted, List.map_append, List.map_append, map_tail_update hinv hprobed, horder,
      List.map_singleton, List.map_singleton, Function.update_self]
  · intro _
    have hold := hinv.reposts hprobed
    rw [if_pos (missing_fill hpc)] at hold
    rw [if_neg (not_missing (by simp) (by simp)), List.append_nil]
    simp only [hold]
  · intro _ i hi hi'
    simp only [Function.update_of_ne hi']
    exact hinv.others hprobed i hi hi'
  · intro _
    simp
  · show (s.pending.map Prod.fst ++ (s.rxCff ++ [id])).Nodup
    rw [hposted]
    exact List.nodup_append.mpr ⟨hinv.nodup, List.nodup_singleton id, fun a ha b hb => by
      rw [List.mem_singleton] at hb
      rw [hb]
      exact hne a ha⟩
  · show ∀ id' ∈ s.pending.map Prod.fst ++ (s.rxCff ++ [id]), _
    rw [hposted]
    intro id' hid'
    by_cases heq : id' = id
    · subst heq
      simp only [Function.update_self]
    · simp only [Function.update_of_ne heq]
      rcases List.mem_append.mp hid' with h | h
      · exact hinv.owner id' h
      · exact absurd (List.mem_singleton.mp h) heq
  · intro id' hid'
    by_cases heq : id' = id
    · subst heq
      simp only [Function.update_self]
      exact pktLength_fill
    · simp only [Function.update_of_ne heq]
      rcases List.mem_append.mp hid' with h | h
      · exact hinv.empty id' h
      · exact absurd (List.mem_singleton.mp h) heq
  · intro e he
    have hmem : e.1 ∈ s.posted := List.mem_append_left _ (List.mem_map_of_mem he)
    simp only [Function.update_of_ne (hne e.1 hmem)]
    exact hinv.content e he
  · intro _ hhanded id' hbuff
    show id' ∈ s.pending.map Prod.fst ++ (s.rxCff ++ [id])
    rw [hposted]
    exact List.mem_append_left _ (hinv.kept (Or.inl hpc) hhanded id' hbuff)

theorem Inv.full {gmacNum : ℕ} (hinv : Inv s) (hhanded : s.poll.handed = false)
    (hstep : gmacRxPktMaxHandle s gmacNum = some s') : Inv s' := by
  unfold gmacRxPktMaxHandle at hstep
  split at hstep
  next hpc =>
    have hreturn : ∀ pause ret, Inv { s with pc := .idle, cfTxPause := pause, ret := ret } :=
      fun pause ret => hinv.goto (by rw [hpc]; simp) (fun h => by cases h)
        (fun h => absurd rfl h) (fun h => by rcases h with h | h <;> cases h)
        (fun h => by cases h) fun h => by rcases h with h | h <;> cases h
    split at hstep
    next =>
      cases hstep
      exact hreturn _ _
    next id hbuff =>
      have howner := hinv.owner id (hinv.kept (Or.inr (Or.inr hpc)) hhanded id hbuff)
      rw [Rx.touch_eq howner] at hstep
      split at hstep <;> cases hstep <;> exact hreturn _ _
  next => cases hstep

/-! ## The first filling -/

theorem fillAllBuff_eq {addr skbs : ℕ → ℕ} (l : List ℕ) (s : Rx)
    (halign : ∀ i ∈ l, addr i % cpuCacheLineSize = 0)
    (hring : ∀ i ∈ l, s.rxBdRing i = some (skbs i))
    (howner : ∀ i ∈ l, s.owner (skbs i) = .driver) :
    ∃ buf, gmacRxFillAllBuff addr l s = { s with buf := buf, rxCff := s.rxCff ++ l.map skbs } ∧
      (∀ id, id ∈ l.map skbs ∨ pktLength (s.buf id) = 0 → pktLength (buf id) = 0) ∧
      ∀ id x, s.buf id x = 0 → buf id x = 0 := by
  induction l generalizing s with
  | nil => exact ⟨s.buf, by simp [gmacRxFillAllBuff], by simp, fun _ _ h => h⟩
  | cons i l ih =>
    have hpost : s.post (skbs i) = { s with
        buf := Function.update s.buf (skbs i) ((s.buf (skbs i)).fill 0 packetHeadSize 0)
        rxCff := s.rxCff ++ [skbs i] } := by
      unfold Rx.post
      rw [Rx.touch_eq (howner i List.mem_cons_self)]
    have hstep : gmacRxFillAllBuff addr (i :: l) s = gmacRxFillAllBuff addr l (s.post (skbs i)) := by
      rw [gmacRxFillAllBuff]
      simp only [hring i List.mem_cons_self, halign i List.mem_cons_self, ne_eq, not_true_eq_false,
        if_false]
    obtain ⟨buf, heq, hzero, hkeep⟩ := ih (s.post (skbs i))
      (fun j hj => halign j (List.mem_cons_of_mem _ hj))
      (fun j hj => by rw [hpost]; exact hring j (List.mem_cons_of_mem _ hj))
      (fun j hj => by rw [hpost]; exact howner j (List.mem_cons_of_mem _ hj))
    refine ⟨buf, ?_, ?_, ?_⟩
    · rw [hstep, heq, hpost]
      simp only [List.map_cons, List.append_assoc, List.cons_append, List.nil_append]
    · intro id hid
      apply hzero
      rw [hpost]
      by_cases heq : id = skbs i
      · right
        simp only [heq, Function.update_self]
        exact pktLength_fill
      · simp only [Function.update_of_ne heq]
        rcases hid with hmem | hlen
        · rw [List.map_cons, List.mem_cons] at hmem
          exact Or.inl (hmem.resolve_left heq)
        · exact Or.inr hlen
    · intro id x hx
      apply hkeep
      rw [hpost]
      by_cases heq : id = skbs i
      · subst heq
        simp only [Function.update_self]
        unfold Mem.fill
        split
        · rfl
        · exact hx
      · simp only [Function.update_of_ne heq]
        exact hx

theorem owner_initRing {skbs : ℕ → ℕ} (hi : i ∈ List.range gmacRxBdRingSize) :
    (gmacRxInitRing s skbs).owner (skbs i) = .driver :=
  if_pos (List.any_eq_true.mpr ⟨i, hi, decide_eq_true rfl⟩)

theorem Inv.probe {skbs addr : ℕ → ℕ} (hinv : Inv s) (hprobed : s.probed = false)
    (hnodup : ((List.range gmacRxBdRingSize).map skbs).Nodup)
    (halign : ∀ i < gmacRxBdRingSize, addr i % cpuCacheLineSize = 0)
    (hquiet : s.posted = [] ∧ s.consumed = [] ∧ s.reposted = []) :
    Inv (gmacRxFillAllBuff addr (List.range gmacRxBdRingSize) (gmacRxInitRing s skbs)) := by
  obtain ⟨hposted, hconsumed, hreposted⟩ := hquiet
  obtain ⟨hpending, hcff⟩ := List.append_eq_nil_iff.mp hposted
  rw [List.map_eq_nil_iff] at hpending
  have hidle : s.pc = .idle := by
    by_contra hpc
    rw [(hinv.running hpc).1] at hprobed
    cases hprobed
  obtain ⟨buf, heq, hzero, -⟩ := fillAllBuff_eq (List.range gmacRxBdRingSize)
    (gmacRxInitRing s skbs) (fun i hi => halign i (List.mem_range.mp hi))
    (fun i hi => if_pos (List.mem_range.mp hi))
    (fun i => owner_initRing)
  rw [heq]
  have hcff' : (gmacRxInitRing s skbs).rxCff = [] := hcff
  have hring : ∀ i < gmacRxBdRingSize, (gmacRxInitRing s skbs).rxBdRing i = some (skbs i) :=
    fun i hi => if_pos hi
  rw [hcff', List.nil_append]
  generalize hs' : ({ gmacRxInitRing s skbs with
    buf := buf
    rxCff := (List.range gmacRxBdRingSize).map skbs } : Rx) = s'
  have hpc : s'.pc = .idle := by
    rw [← hs']
    exact hidle
  have hcurr : s'.rxSkbCurr = 0 := by
    rw [← hs']
    rfl
  have hring' : s'.rxBdRing = (gmacRxInitRing s skbs).rxBdRing := by
    rw [← hs']
  have hposted' : s'.posted = (List.range gmacRxBdRingSize).map skbs := by
    rw [← hs']
    unfold Rx.posted
    show s.pending.map Prod.fst ++ _ = _
    rw [hpending]
    rfl
  have hhere : s'.rxBdRing s'.rxSkbCurr ≠ none := by
    rw [hcurr, hring', hring 0 (by decide)]
    simp
  have hmissing : ¬ s'.missing := not_missing (by rw [hpc]; simp) hhere
  refine ⟨⟨?_, ?_, ?_, ?_, ?_⟩, ?_, fun h => absurd hpc h, ?_, ?_, ?_, ?_, ?_, ?_, ?_, ?_, ?_⟩
  · intro _
    rw [slots_full (by rw [hpc]; simp) (by rw [hpc]; simp) hhere, hposted', hring']
    unfold Rx.ringOrder
    rw [hcurr, List.rotate_zero, List.map_map]
    exact List.map_congr_left fun i hi => (hring i (List.mem_range.mp hi)).symm
  · intro _
    rw [if_neg hmissing, ← hs']
    show s.consumed.map Consumed.slot = s.reposted ++ []
    rw [hconsumed, hreposted]
    rfl
  · rw [← hs']
    exact hinv.arrivals
  · rw [← hs']
    exact hinv.deliveries
  · rw [← hs']
    exact hinv.stray
  · intro _
    rw [hcurr]
    decide
  · intro _ i hi _
    rw [hring', hring i hi]
    simp
  · rw [hpc]
    exact fun h => by cases h
  · rw [hposted']
    exact hnodup
  · rw [hposted', ← hs']
    rintro id hid
    obtain ⟨i, hi, rfl⟩ := List.mem_map.mp hid
    exact owner_initRing hi
  · rw [← hs']
    exact fun id hid => hzero id (Or.inl hid)
  · rw [← hs']
    show ∀ e ∈ s.pending, _
    rw [hpending]
    exact fun e he => by cases he
  · rw [hpc]
    exact fun h => by rcases h with h | h <;> cases h
  · rw [hpc]
    exact fun h => by cases h
  · rw [hpc]
    exact fun h => by rcases h with h | h | h <;> cases h

def Quiet (s : Rx) : Prop :=
  s.probed = false → s.pc = .idle ∧ s.posted = [] ∧ s.consumed = [] ∧ s.reposted = []

theorem touch_probed (s : Rx) (id : ℕ) : (s.touch id).probed = s.probed := by
  unfold Rx.touch
  split <;> rfl

theorem fillAllBuff_probed {addr : ℕ → ℕ} (l : List ℕ) (s : Rx) :
    (gmacRxFillAllBuff addr l s).probed = s.probed := by
  induction l generalizing s with
  | nil => rfl
  | cons i l ih =>
    rw [gmacRxFillAllBuff]
    split
    · rfl
    · split
      · rfl
      · rw [ih]
        exact touch_probed s _

theorem gmacEthRx_probed (hstep : gmacEthRx s = some s') : s'.probed = s.probed := by
  cases hpc : s.pc with
  | idle | fill | full =>
    simp only [gmacEthRx, hpc] at hstep
    cases hstep
  | top =>
    simp only [gmacEthRx, hpc] at hstep
    split at hstep <;> cases hstep
    · unfold gmacForcePauseEnable
      split <;> rfl
    · rfl
  | check =>
    simp only [gmacEthRx, hpc, Option.map_eq_some_iff] at hstep
    obtain ⟨id, _, rfl⟩ := hstep
    split
    · exact touch_probed s id
    · exact (touch_probed _ id).trans (touch_probed s id)
    · exact touch_probed s id
  | deliver =>
    simp only [gmacEthRx, hpc, Option.map_eq_some_iff] at hstep
    obtain ⟨id, _, rfl⟩ := hstep
    exact touch_probed s id
  | advance =>
    simp only [gmacEthRx, hpc, Option.some.injEq] at hstep
    subst hstep
    rfl

theorem Quiet.frame (hquiet : Quiet s) (hprobed : s'.probed = s.probed)
    (hsame : s.probed = false →
      s'.pc = s.pc ∧ s'.posted = s.posted ∧ s'.consumed = s.consumed ∧ s'.reposted = s.reposted) :
    Quiet s' := by
  intro hnot
  rw [hprobed] at hnot
  obtain ⟨hpc, hposted, hconsumed, hreposted⟩ := hsame hnot
  rw [hpc, hposted, hconsumed, hreposted]
  exact hquiet hnot

theorem Quiet.next {a : Action} (hinv : Inv s) (hquiet : Quiet s) (hstep : next s a = some s') :
    Quiet s' := by
  have hbusy : s.pc ≠ .idle → s.probed = false → False := by
    intro hpc hprobed
    rw [(hinv.running hpc).1] at hprobed
    cases hprobed
  cases a with
  | probe skbs addr =>
    simp only [GmacRx.next, GmacRx.probe] at hstep
    split at hstep <;> cases hstep
    intro hnot
    rw [fillAllBuff_probed] at hnot
    cases hnot
  | arrive frame =>
    simp only [GmacRx.next] at hstep
    split at hstep
    next => cases hstep
    next id rest hcff =>
      cases hstep
      refine hquiet.frame rfl fun hnot => ?_
      have hnil := (List.append_eq_nil_iff.mp (hquiet hnot).2.1).2
      rw [hcff] at hnil
      cases hnil
  | poll budget =>
    simp only [GmacRx.next] at hstep
    split at hstep
    next hready =>
      cases hstep
      refine hquiet.frame rfl fun hnot => ?_
      rw [hready.1] at hnot
      cases hnot
    next => cases hstep
  | step =>
    refine hquiet.frame (gmacEthRx_probed hstep) fun hnot => (hbusy ?_ hnot).elim
    intro hpc
    simp only [GmacRx.next, gmacEthRx, hpc] at hstep
    cases hstep
  | fill skb =>
    simp only [GmacRx.next, gmacRxFillOneBuff] at hstep
    split at hstep
    next hpc =>
      have hbusy' : s.probed = false → False := hbusy (by rw [hpc]; simp)
      cases skb with
      | none =>
        cases hstep
        exact hquiet.frame rfl fun hnot => (hbusy' hnot).elim
      | some id =>
        simp only at hstep
        split at hstep <;> cases hstep
        exact hquiet.frame (touch_probed _ id) fun hnot => (hbusy' hnot).elim
    next => cases hstep
  | full gmacNum =>
    simp only [GmacRx.next, gmacRxPktMaxHandle] at hstep
    split at hstep
    next hpc =>
      have hbusy' : s.probed = false → False := hbusy (by rw [hpc]; simp)
      split at hstep
      next =>
        cases hstep
        exact hquiet.frame rfl fun hnot => (hbusy' hnot).elim
      next id _ =>
        split at hstep <;> cases hstep <;>
          exact hquiet.frame (touch_probed s id) fun hnot => (hbusy' hnot).elim
    next => cases hstep
  | write id data =>
    simp only [GmacRx.next] at hstep
    split at hstep <;> cases hstep
    exact hquiet.frame rfl fun _ => ⟨rfl, rfl, rfl, rfl⟩
  | release id =>
    simp only [GmacRx.next] at hstep
    split at hstep <;> cases hstep
    exact hquiet.frame rfl fun _ => ⟨rfl, rfl, rfl, rfl⟩
  | configure cfg =>
    cases hstep
    exact hquiet.frame rfl fun _ => ⟨rfl, rfl, rfl, rfl⟩

theorem Inv.next {a : Action} (hinv : Inv s) (hquiet : Quiet s) (hkept : Kept s a)
    (hstep : next s a = some s') : Inv s' := by
  cases a with
  | probe skbs addr =>
    simp only [GmacRx.next, GmacRx.probe] at hstep
    split at hstep
    next hready =>
      cases hstep
      exact hinv.probe hready.1 hready.2.1 hkept (hquiet hready.1).2
    next => cases hstep
  | arrive frame =>
    simp only [GmacRx.next] at hstep
    split at hstep
    next => cases hstep
    next id rest hcff =>
      cases hstep
      exact hinv.arrive hcff
  | poll budget =>
    simp only [GmacRx.next] at hstep
    split at hstep
    next hready =>
      cases hstep
      exact hinv.goto (by rw [hready.2]; simp) (fun h => by cases h)
        (fun _ => ⟨hready.1, rfl⟩) (fun h => by rcases h with h | h <;> cases h)
        (fun h => by cases h) fun _ => rfl
    next => cases hstep
  | step =>
    cases hpc : s.pc with
    | idle | fill | full =>
      simp only [GmacRx.next, gmacEthRx, hpc] at hstep
      cases hstep
    | top => exact hinv.top hpc hstep
    | check => exact hinv.check hpc hstep
    | deliver =>
      simp only [GmacRx.next, gmacEthRx, hpc, Option.map_eq_some_iff] at hstep
      obtain ⟨id, hbuff, rfl⟩ := hstep
      exact hinv.deliver hpc hbuff
    | advance => exact hinv.advance hpc hstep
  | fill skb =>
    simp only [GmacRx.next, gmacRxFillOneBuff] at hstep
    split at hstep
    next hpc =>
      cases skb with
      | none =>
        cases hstep
        exact hinv.unfilled hpc
      | some id =>
        simp only at hstep
        split at hstep
        next hfree =>
          cases hstep
          exact hinv.fill hpc hfree
        next => cases hstep
    next => cases hstep
  | full gmacNum => exact hinv.full hkept hstep
  | write id data =>
    simp only [GmacRx.next] at hstep
    split at hstep
    next howner =>
      cases hstep
      exact hinv.write howner
    next => cases hstep
  | release id =>
    simp only [GmacRx.next] at hstep
    split at hstep
    next howner =>
      cases hstep
      exact hinv.release howner
    next => cases hstep
  | configure cfg =>
    cases hstep
    exact { hinv with }

theorem Inv.initial (hinit : initial s) : Inv s ∧ Quiet s := by
  obtain ⟨hprobed, hpc, howner, hcff, harrived, hpending, hconsumed, hreposted, hdelivered,
    hstray⟩ := hinit
  have hposted : s.posted = [] := by
    unfold Rx.posted
    rw [hpending, hcff]
    rfl
  have hnot : s.probed = true → False := by
    rw [hprobed]
    exact fun h => by cases h
  refine ⟨⟨⟨fun h => (hnot h).elim, fun h => (hnot h).elim, ?_, ?_, hstray⟩,
    fun h => (hnot h).elim, fun h => absurd hpc h, fun h => (hnot h).elim, ?_, ?_, ?_, ?_, ?_, ?_,
    ?_, ?_⟩, fun _ => ⟨hpc, hposted, hconsumed, hreposted⟩⟩
  · rw [harrived, hconsumed, hpending]
    rfl
  · rw [hdelivered, hconsumed]
    rfl
  · rw [hpc]
    exact fun h => by cases h
  · rw [hposted]
    exact List.nodup_nil
  · rw [hposted]
    exact fun id h => by cases h
  · rw [hcff]
    exact fun id h => by cases h
  · rw [hpending]
    exact fun e h => by cases h
  · rw [hpc]
    exact fun h => by rcases h with h | h <;> cases h
  · rw [hpc]
    exact fun h => by cases h
  · rw [hpc]
    exact fun h => by rcases h with h | h | h <;> cases h

/-- Where no poll ends on a packet that it has handed up, slots and buffers agree in every
state of every run, and no skb is used that the driver does not own. -/
theorem rings_kept (hreach : (system.restrict Kept).Reachable s) : Account s := by
  suffices hinv : Inv s ∧ Quiet s from hinv.1.toAccount
  refine hreach.invariant (P := fun s => Inv s ∧ Quiet s) (fun _ => Inv.initial) ?_
  rintro s a s' - ⟨hinv, hquiet⟩ ⟨hkept, hstep⟩
  exact ⟨hinv.next hquiet hkept hstep, hquiet.next hinv hstep⟩

instance (s : Rx) (a : Action) : Decidable (Kept s a) :=
  match a with
  | .probe .. => inferInstanceAs (Decidable (∀ i < gmacRxBdRingSize, _))
  | .full _ => inferInstanceAs (Decidable (_ = _))
  | .arrive _ | .poll _ | .step | .fill _ | .write .. | .release _ | .configure _ => isTrue trivial

def powered : Rx where
  cfg := ⟨0, fun _ => 0, false, false⟩
  probed := false
  rxBdRing := fun _ => none
  rxSkbCurr := 0
  buf := fun _ _ => 0
  owner := fun _ => .free
  rxCff := []
  cfTxPause := 0
  pc := .idle
  poll := ⟨0, 0, 0, none, 0, false⟩
  ret := 0
  arrived := []
  pending := []
  consumed := []
  reposted := []
  delivered := []
  stray := []

theorem powered_initial : initial powered :=
  ⟨rfl, rfl, fun _ h => (by cases h), rfl, rfl, rfl, rfl, rfl, rfl, rfl⟩

def shortFrame : Mem := fun x => if x = 9 then 60 else 0

def filled : Rx :=
  { gmacRxInitRing powered (fun i => i) with rxCff := List.range gmacRxBdRingSize }

theorem probe_powered :
    Kept powered (.probe (fun i => i) fun i => cpuCacheLineSize * i) ∧
      next powered (.probe (fun i => i) fun i => cpuCacheLineSize * i) = some filled := by
  have halign : ∀ i < gmacRxBdRingSize, cpuCacheLineSize * i % cpuCacheLineSize = 0 :=
    fun i _ => Nat.mul_mod_right _ _
  obtain ⟨buf, heq, -, hzero⟩ := fillAllBuff_eq (List.range gmacRxBdRingSize)
    (gmacRxInitRing powered fun i => i) (fun i hi => halign i (List.mem_range.mp hi))
    (fun i hi => if_pos (List.mem_range.mp hi)) (fun i => owner_initRing)
  have hbuf : buf = powered.buf := by
    funext id x
    exact hzero id x rfl
  refine ⟨halign, ?_⟩
  have hready : powered.probed = false ∧
      ((List.range gmacRxBdRingSize).map fun i => i).Nodup ∧
      ∀ i < gmacRxBdRingSize, powered.owner i = .free := by
    rw [List.map_id']
    exact ⟨rfl, List.nodup_range, fun _ _ => rfl⟩
  show probe powered _ _ = some filled
  unfold GmacRx.probe
  rw [if_pos hready, heq, hbuf, List.map_id']
  rfl

def receiveOne (budget : ℤ) : List Action :=
  [.arrive shortFrame, .poll budget, .step, .step, .step, .fill (some 127), .step]

def afterPoll : Rx :=
  (runSteps (guarded Kept next) filled (receiveOne 64 ++ [.step, .step])).get (by decide +kernel)

theorem afterPoll_run :
    runSteps (guarded Kept next) filled (receiveOne 64 ++ [.step, .step]) = some afterPoll :=
  (Option.some_get _).symm

theorem afterPoll_reachable : (system.restrict Kept).Reachable afterPoll := by
  have hstart : (system.restrict Kept).Reachable filled :=
    (Reachable.init powered_initial).step probe_powered
  exact hstart.runGuarded afterPoll_run

theorem rings_kept_once :
    Account afterPoll ∧ afterPoll.delivered.length = 1 ∧ afterPoll.rxSkbCurr = 1 ∧
      afterPoll.ret = 1 := by
  refine ⟨rings_kept afterPoll_reachable, ?_⟩
  decide +kernel

def afterFull : Rx :=
  (runSteps next filled (receiveOne 1 ++ [.full 0])).get (by decide +kernel)

theorem afterFull_run : runSteps next filled (receiveOne 1 ++ [.full 0]) = some afterFull :=
  (Option.some_get _).symm

/-- The frame exhausts the budget, and the driver reads an skb that the stack owns. -/
theorem full_reads_delivered_skb :
    system.Reachable afterFull ∧ ¬ Account afterFull ∧ afterFull.stray = [0] ∧
      afterFull.owner 0 = .stack := by
  have hstart : system.Reachable filled := (Reachable.init powered_initial).step probe_powered.2
  have hstray : afterFull.stray = [0] := by decide +kernel
  refine ⟨hstart.runSteps afterFull_run, ?_, hstray, by decide +kernel⟩
  intro haccount
  have hnone := haccount.stray
  rw [hstray] at hnone
  cases hnone

end HiMpu.GmacRx
