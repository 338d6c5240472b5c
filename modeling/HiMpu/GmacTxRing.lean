import HiMpu.Custody
import HiMpu.TransitionSystem

/-!
# The transmit descriptors of the GMAC network driver

`gmac_eth_tx` takes a node from the unused queue and writes its descriptor to the FIFO of
the MAC while it holds the lock of the in-use queue.  The tasklet `gmac_tx_free_bd` infers
from the length of that queue and from the words left in the FIFO how many nodes it may
recycle.  Every call, the tasklet, the forced recycling and the MAC take their steps in any
order.  Call `k` transmits skb `k`, and maps its data as mapping `k`; node `n` has the
address `n` for the word that the MAC writes back.
-/

namespace HiMpu.GmacTx

open TransitionSystem

def chipTxFifoNum : ℕ := 64
def gmacTxBdRingSize : ℕ := chipTxFifoNum
def gmacMaxPktLen : ℕ := 7168 + 32
def gmacTxIdle : BitVec 32 := 0x77777777
def gmacTxStart : BitVec 32 := 0x5a5a5a5a
def gmacTxEnd : BitVec 32 := 0
def netdevTxOk : ℤ := 0
def netdevTxBusy : ℤ := 0x10

structure Skb where
  len : ℕ
  networkHeader : ℕ
  macHeader : ℕ
  csumPartial : Bool

structure PcuCmd where
  l4Cs : Bool
  wb : Bool
  l3Cs : Bool
  ipoff : ℕ
  len : ℕ
  pktAddr : ℕ
  clearAddr : ℕ
deriving DecidableEq

structure TxBuffer where
  txState : BitVec 32
  txSkbBuff : Option ℕ
  skbDataDmaAddr : ℕ

structure Queue where
  listCount : ℕ
  head : List ℕ

def Queue.enque (q : Queue) (node : ℕ) : Queue := ⟨q.listCount + 1, q.head ++ [node]⟩

inductive RecyclePc where
  | clear (node : ℕ)
  | requeue (node skb dma : ℕ)
  | unmap (skb dma : ℕ)
  | free (skb : ℕ)
deriving DecidableEq

inductive TxPc where
  | absent
  | called
  | map
  | acquire
  | fill (node : ℕ)
  | lock (node : ℕ)
  | bdWrite (node : ℕ)
  | word (node i : ℕ)
  | add (node : ℕ)
  | unlock
  | failUnlock (node : ℕ)
  | recycle (pc : RecyclePc)
  | returned (ret : ℤ)
deriving DecidableEq

structure TxCall where
  skb : Skb
  cmd : PcuCmd
  pc : TxPc

inductive FreePc where
  | idle
  | count
  | readNum (limit : ℕ)
  | loop (limit count : ℕ)
  | recycle (limit count : ℕ) (inLoop : Bool) (pc : RecyclePc)
  | head
  | last
  | exit
deriving DecidableEq

inductive ForcePc where
  | idle
  | check
  | deque
  | recycle (pc : RecyclePc)
deriving DecidableEq

structure Tx where
  node : ℕ → TxBuffer
  unused : Queue
  inused : Queue
  inusedLock : Option ℕ
  opened : Bool
  call : ℕ → TxCall
  freeBd : FreePc
  force : ForcePc
  txCff : List PcuCmd
  txWords : ℕ
  fetched : Option PcuCmd
  mapped : ℕ → Bool
  freed : List ℕ
  finished : ℕ → Bool
  reclaimed : List ℕ

def Tx.goto (s : Tx) (k : ℕ) (pc : TxPc) : Tx :=
  { s with call := Function.update s.call k { s.call k with pc := pc } }

def Tx.setNode (s : Tx) (n : ℕ) (b : TxBuffer) : Tx :=
  { s with node := Function.update s.node n b }

def Tx.cfTxCfgNum (s : Tx) : ℕ := (4 * s.txCff.length + s.txWords) % 2 ^ 9

/-- A step of `gmac_recycle_tx_buffer_process`.  A node without an skb would end in a NULL
dereference. -/
def recycleTxBuffer (s : Tx) (freeSkb : Bool) : RecyclePc → Option (Tx × Option RecyclePc)
  | .clear n =>
    (s.node n).txSkbBuff.map fun skb =>
      (s.setNode n { s.node n with txSkbBuff := none, txState := gmacTxIdle },
        some (.requeue n skb (s.node n).skbDataDmaAddr))
  | .requeue n skb dma => some ({ s with unused := s.unused.enque n }, some (.unmap skb dma))
  | .unmap skb dma =>
    some ({ s with mapped := Function.update s.mapped dma false },
      if freeSkb then some (.free skb) else none)
  | .free skb => some ({ s with freed := s.freed ++ [skb] }, none)

def pcuCmd (skb : Skb) (pktAddr : ℕ) : PcuCmd where
  l4Cs := skb.csumPartial
  wb := true
  l3Cs := skb.csumPartial
  ipoff := (skb.networkHeader + 2 ^ 16 - skb.macHeader) % 2 ^ 5
  len := skb.len % 2 ^ 16
  pktAddr := pktAddr
  clearAddr := 0

/-- A step of `gmac_eth_tx`, which is `gmac_tx_add_bd`. -/
def gmacTxAddBd (s : Tx) (k : ℕ) : Option Tx :=
  let c := s.call k
  match c.pc with
  | .absent | .returned _ => none
  | .called =>
    if s.opened = false then
      some ({ s with freed := s.freed ++ [k] }.goto k (.returned netdevTxOk))
    else if c.skb.len = 0 ∨ gmacMaxPktLen < c.skb.len then
      some ({ s with freed := s.freed ++ [k] }.goto k (.returned netdevTxOk))
    else some (s.goto k .map)
  | .map =>
    some { s with
      mapped := Function.update s.mapped k true
      call := Function.update s.call k { c with cmd := pcuCmd c.skb k, pc := .acquire } }
  | .acquire =>
    match s.unused.head with
    | [] => some (s.goto k (.returned netdevTxBusy))
    | n :: rest => some ({ s with unused := ⟨s.unused.listCount - 1, rest⟩ }.goto k (.fill n))
  | .fill n =>
    some { s.setNode n ⟨gmacTxStart, some k, c.cmd.pktAddr⟩ with
      call := Function.update s.call k { c with cmd := { c.cmd with clearAddr := n }, pc := .lock n } }
  | .lock n =>
    if s.inusedLock = none then some ({ s with inusedLock := some k }.goto k (.bdWrite n))
    else none
  | .bdWrite n =>
    if (chipTxFifoNum - 1) * 4 ≤ s.cfTxCfgNum then some (s.goto k (.failUnlock n))
    else some (s.goto k (.word n 0))
  | .word n i =>
    if i < 3 then some ({ s with txWords := s.txWords + 1 }.goto k (.word n (i + 1)))
    else some ({ s with txWords := 0, txCff := s.txCff ++ [c.cmd] }.goto k (.add n))
  | .add n => some ({ s with inused := s.inused.enque n }.goto k .unlock)
  | .unlock => some ({ s with inusedLock := none }.goto k (.returned netdevTxOk))
  | .failUnlock n => some ({ s with inusedLock := none }.goto k (.recycle (.clear n)))
  | .recycle pc =>
    (recycleTxBuffer s false pc).map fun r =>
      r.1.goto k (match r.2 with | some pc => .recycle pc | none => .returned netdevTxBusy)

/-! ## Recycling -/

def dequeInused (s : Tx) : Option (Tx × Option ℕ) :=
  if s.inusedLock = none then
    match s.inused.head with
    | [] => some (s, none)
    | n :: rest => some ({ s with inused := ⟨s.inused.listCount - 1, rest⟩ }, some n)
  else none

def Tx.reclaim (s : Tx) (n : ℕ) : Tx :=
  { s with reclaimed := s.reclaimed ++ (s.node n).txSkbBuff.toList }

def gmacTxFreeBd (s : Tx) : Option Tx :=
  match s.freeBd with
  | .idle => none
  | .count =>
    if s.inusedLock = none then some { s with freeBd := .readNum s.inused.listCount } else none
  | .readNum limit =>
    let inused := s.cfTxCfgNum / 4
    let limit := if inused < limit then limit - inused else 0
    some { s with freeBd := if limit = 0 then .exit else .loop limit 0 }
  | .loop limit count =>
    if count < limit - 1 then
      (dequeInused s).map fun r =>
        match r.2 with
        | some n => { r.1.reclaim n with freeBd := .recycle limit (count + 1) true (.clear n) }
        | none => { r.1 with freeBd := .loop limit (count + 1) }
    else some { s with freeBd := .head }
  | .recycle limit count inLoop pc =>
    (recycleTxBuffer s true pc).map fun r =>
      { r.1 with freeBd :=
          match r.2 with
          | some pc => .recycle limit count inLoop pc
          | none => if inLoop then .loop limit count else .exit }
  | .head =>
    match s.inused.head with
    | [] => some { s with freeBd := .exit }
    | n :: _ =>
      some { s with freeBd := if (s.node n).txState ≠ gmacTxEnd then .exit else .last }
  | .last =>
    (dequeInused s).map fun r =>
      match r.2 with
      | some n => { r.1.reclaim n with freeBd := .recycle 0 0 false (.clear n) }
      | none => { r.1 with freeBd := .exit }
  | .exit => some { s with freeBd := .idle }

def gmacTxFreeAllBdForce (s : Tx) : Option Tx :=
  match s.force with
  | .idle => none
  | .check =>
    if s.inusedLock = none then
      some { s with force := if s.inused.head = [] then .idle else .deque }
    else none
  | .deque =>
    (dequeInused s).map fun r =>
      match r.2 with
      | some n => { r.1 with force := .recycle (.clear n) }
      | none => { r.1 with force := .check }
  | .recycle pc =>
    (recycleTxBuffer s true pc).map fun r =>
      { r.1 with force := match r.2 with | some pc => .recycle pc | none => .check }

inductive Action where
  | xmit (k : ℕ) (skb : Skb)
  | tx (k : ℕ)
  | runFreeBd
  | freeBd
  | runForce
  | force
  | fetch
  | finish
  | setOpened (opened : Bool)

def next (s : Tx) : Action → Option Tx
  | .xmit k skb =>
    if (s.call k).pc = .absent then
      some { s with call := Function.update s.call k ⟨skb, (s.call k).cmd, .called⟩ }
    else none
  | .tx k => gmacTxAddBd s k
  | .runFreeBd => if s.freeBd = .idle then some { s with freeBd := .count } else none
  | .freeBd => gmacTxFreeBd s
  | .runForce => if s.force = .idle then some { s with force := .check } else none
  | .force => gmacTxFreeAllBdForce s
  | .fetch =>
    match s.fetched, s.txCff with
    | none, d :: rest => some { s with fetched := some d, txCff := rest }
    | _, _ => none
  | .finish =>
    s.fetched.map fun d =>
      { s.setNode d.clearAddr { s.node d.clearAddr with txState := gmacTxEnd } with
        fetched := none
        finished := Function.update s.finished d.pktAddr true }
  | .setOpened opened => some { s with opened := opened }

def initial (s : Tx) : Prop :=
  (∀ n, (s.node n).txSkbBuff = none) ∧ s.unused = ⟨gmacTxBdRingSize, List.range gmacTxBdRingSize⟩ ∧
    s.inused = ⟨0, []⟩ ∧ s.inusedLock = none ∧ (∀ k, (s.call k).pc = .absent) ∧
    s.freeBd = .idle ∧ s.force = .idle ∧ s.txCff = [] ∧ s.txWords = 0 ∧ s.fetched = none ∧
    (∀ k, s.mapped k = false) ∧ s.freed = [] ∧ s.reclaimed = []

def system : TransitionSystem Tx Action := ofStep initial next

/-! ## The accounts -/

inductive Ctx where
  | call (k : ℕ)
  | freeBd
  | force
deriving DecidableEq

def RecyclePc.node : RecyclePc → Option ℕ
  | .clear n | .requeue n _ _ => some n
  | .unmap _ _ | .free _ => none

def RecyclePc.skb (node : ℕ → TxBuffer) : RecyclePc → Option ℕ
  | .clear n => (node n).txSkbBuff
  | .requeue _ skb _ | .unmap skb _ | .free skb => some skb

def TxPc.node : TxPc → Option ℕ
  | .fill n | .lock n | .bdWrite n | .word n _ | .add n | .failUnlock n => some n
  | .recycle pc => pc.node
  | _ => none

def TxPc.refers : TxPc → Bool
  | .lock _ | .bdWrite _ | .word _ _ | .add _ | .failUnlock _ | .recycle _ => true
  | _ => false

def TxPc.charged : TxPc → Bool
  | .unlock => true
  | .returned ret => ret = netdevTxOk
  | pc => pc.refers

def FreePc.recycling : FreePc → Option RecyclePc
  | .recycle _ _ _ pc => some pc
  | _ => none

def ForcePc.recycling : ForcePc → Option RecyclePc
  | .recycle pc => some pc
  | _ => none

def TxPc.recycling : TxPc → Option RecyclePc
  | .recycle pc => some pc
  | _ => none

def Tx.nodeOf (s : Tx) : Ctx → Option ℕ
  | .call k => (s.call k).pc.node
  | .freeBd => s.freeBd.recycling.bind RecyclePc.node
  | .force => s.force.recycling.bind RecyclePc.node

def Tx.skbOf (s : Tx) : Ctx → Option ℕ
  | .call k => if (s.call k).pc.refers then some k else none
  | .freeBd => s.freeBd.recycling.bind (RecyclePc.skb s.node)
  | .force => s.force.recycling.bind (RecyclePc.skb s.node)

def Tx.queued (s : Tx) : List ℕ := s.inused.head.filterMap fun n => (s.node n).txSkbBuff

structure Account (s : Tx) : Prop where
  nodes : Custody s.unused.head s.inused.head s.nodeOf (· < gmacTxBdRingSize)
  finished : ∀ k ∈ s.reclaimed, s.finished k = true
  /-- An accepted skb is in the in-use queue, is being recycled or has been freed once. -/
  accepted : ∀ k, (s.call k).pc = .returned netdevTxOk →
    (k ∈ s.freed ∧ k ∉ s.queued ∧ ∀ c, s.skbOf c ≠ some k) ∨
    (k ∉ s.freed ∧ k ∈ s.queued ∧ ∀ c, s.skbOf c ≠ some k) ∨
    (k ∉ s.freed ∧ k ∉ s.queued ∧ ∃ c, s.skbOf c = some k)
  once : s.freed.Nodup ∧ s.queued.Nodup ∧
    ∀ c d k, s.skbOf c = some k → s.skbOf d = some k → c = d
  busy : ∀ k, (s.call k).pc = .returned netdevTxBusy →
    k ∉ s.freed ∧ (∀ n, (s.node n).txSkbBuff ≠ some k) ∧ (∀ c, s.skbOf c ≠ some k) ∧
      s.mapped k = false

def FreePc.counted : FreePc → Bool
  | .readNum _ | .loop _ _ | .head | .last => true
  | .recycle _ _ inLoop _ => inLoop
  | _ => false

def Tx.hw (s : Tx) : List PcuCmd := s.fetched.toList ++ s.txCff

def Tx.ready (s : Tx) : Prop :=
  match s.unused.head with
  | [] => False
  | n :: _ => ∀ d ∈ s.hw, d.clearAddr ≠ n

/-- A call that has mapped its packet finds a node, and one that the MAC has finished
with; nothing is forced out of the queue between the counting and the end of a run. -/
def Orderly (s : Tx) : Action → Prop
  | .tx k => (s.call k).pc = .acquire → s.ready
  | .force => s.force = .deque → s.freeBd.counted = false
  | _ => True

/-! ## Calls and their nodes -/

variable {s s' : Tx} {c d : Ctx} {j k m n : ℕ}

def TxPc.locked : TxPc → Bool
  | .bdWrite _ | .word _ _ | .add _ | .unlock | .failUnlock _ => true
  | _ => false

def TxPc.maps : TxPc → Bool
  | .absent | .called | .map => false
  | .returned ret => ret = netdevTxOk
  | _ => true

def Filled (s : Tx) (k n : ℕ) : Prop :=
  (s.node n).txSkbBuff = some k ∧ (s.node n).skbDataDmaAddr = k

def Writing (s : Tx) (k n : ℕ) : Prop :=
  Filled s k n ∧ (s.node n).txState = gmacTxStart ∧
    (s.call k).cmd.pktAddr = k ∧ (s.call k).cmd.clearAddr = n ∧ ∀ d ∈ s.hw, d.clearAddr ≠ n

def CallOk (s : Tx) (k : ℕ) : Prop :=
  match (s.call k).pc with
  | .absent | .called | .map | .unlock | .returned _ => True
  | .acquire => (s.call k).cmd.pktAddr = k
  | .fill n => (s.call k).cmd.pktAddr = k ∧ ∀ d ∈ s.hw, d.clearAddr ≠ n
  | .lock n | .bdWrite n | .word n _ => Writing s k n
  | .add n | .failUnlock n | .recycle (.clear n) => Filled s k n
  | .recycle (.requeue _ skb dma) | .recycle (.unmap skb dma) => skb = k ∧ dma = k
  | .recycle (.free _) => False

theorem Filled.frame (hfilled : Filled s k n) (hnode : s'.node n = s.node n) : Filled s' k n := by
  unfold Filled
  rw [hnode]
  exact hfilled

theorem Writing.frame (hwriting : Writing s k n) (hcall : (s'.call k).cmd = (s.call k).cmd)
    (hnode : s'.node n = s.node n) (hhw : ∀ d ∈ s'.hw, d.clearAddr = n → d ∈ s.hw) :
    Writing s' k n := by
  obtain ⟨hfilled, hstate, hpkt, hclear, hfresh⟩ := hwriting
  unfold Writing
  rw [hnode, hcall]
  refine ⟨hfilled.frame hnode, hstate, hpkt, hclear, ?_⟩
  intro d hd heq
  exact hfresh d (hhw d hd heq) heq

theorem Writing.goto {t : Tx} {pc : TxPc} (hwriting : Writing s k n) (hcall : t.call = s.call)
    (hnode : t.node = s.node) (hhw : t.hw = s.hw) : Writing (t.goto k pc) k n := by
  refine hwriting.frame ?_ (congrFun hnode n) ?_
  · simp only [Tx.goto, Function.update_self, hcall]
  · intro d hd _
    rw [← hhw]
    exact hd

theorem CallOk.frame (hok : CallOk s k) (hcall : s'.call k = s.call k)
    (hnode : ∀ n, (s.call k).pc.node = some n → s'.node n = s.node n)
    (hhw : ∀ n, (s.call k).pc.node = some n → ∀ d ∈ s'.hw, d.clearAddr = n → d ∈ s.hw) :
    CallOk s' k := by
  unfold CallOk at hok ⊢
  rw [hcall]
  cases hpc : (s.call k).pc with
  | absent | called | map | unlock | returned _ => trivial
  | acquire =>
    rw [hpc] at hok
    exact hok
  | fill n =>
    rw [hpc] at hok hhw
    exact ⟨hok.1, fun d hd heq => hok.2 d (hhw n rfl d hd heq) heq⟩
  | lock n | bdWrite n | word n _ =>
    rw [hpc] at hok hnode hhw
    exact hok.frame (by rw [hcall]) (hnode n rfl) (hhw n rfl)
  | add n | failUnlock n =>
    rw [hpc] at hok hnode
    exact Filled.frame hok (hnode n rfl)
  | recycle pc =>
    rw [hpc] at hok hnode
    cases pc with
    | clear n =>
      exact Filled.frame hok (hnode n rfl)
    | requeue _ _ _ | unmap _ _ | free _ => exact hok

/-! ## The invariant of the queues -/

def Tx.recycling (s : Tx) : Ctx → Option RecyclePc
  | .call k => (s.call k).pc.recycling
  | .freeBd => s.freeBd.recycling
  | .force => s.force.recycling

structure Control (s : Tx) : Prop where
  nodes : Custody s.unused.head s.inused.head s.nodeOf (· < gmacTxBdRingSize)
  skbs : Custody s.freed s.queued s.skbOf (fun k => (s.call k).pc.charged = true)
  count : s.inused.listCount = s.inused.head.length
  lock : ∀ k, (s.call k).pc.locked = true ↔ s.inusedLock = some k
  calls : ∀ k, CallOk s k
  /-- A node in use has an skb, and a node with an skb is in use or in hand. -/
  content : ∀ n ∈ s.inused.head, (s.node n).txSkbBuff ≠ none
  fresh : ∀ n k, (s.node n).txSkbBuff = some k →
    n ∈ s.inused.head ∨ ∃ c, s.nodeOf c = some n ∧ s.skbOf c = some k
  cleared : ∀ c n skb dma, s.recycling c = some (.requeue n skb dma) →
    (s.node n).txSkbBuff = none
  mapped : ∀ k, s.mapped k = true → (s.call k).pc.maps = true

structure Others (s s' : Tx) (c : Ctx) : Prop where
  calls : ∀ k, .call k ≠ c → s'.call k = s.call k
  freeBd : .freeBd ≠ c → s'.freeBd = s.freeBd
  force : .force ≠ c → s'.force = s.force
  node : ∀ n, s.nodeOf c ≠ some n → s'.node n = s.node n

theorem Others.nodeOf (hothers : Others s s' c) (hd : d ≠ c) : s'.nodeOf d = s.nodeOf d := by
  cases d with
  | call k => simp only [Tx.nodeOf, hothers.calls k hd]
  | freeBd => simp only [Tx.nodeOf, hothers.freeBd hd]
  | force => simp only [Tx.nodeOf, hothers.force hd]

theorem Others.nodeOf_eq (hothers : Others s s' c) (hown : s'.nodeOf c = s.nodeOf c) (d : Ctx) :
    s'.nodeOf d = s.nodeOf d := by
  by_cases hd : d = c
  · rw [hd, hown]
  · exact hothers.nodeOf hd

theorem Control.node_of_ne (hinv : Control s) (hothers : Others s s' c) (hd : d ≠ c)
    (hn : s.nodeOf d = some n) : s'.node n = s.node n :=
  hothers.node n fun h => hd (hinv.nodes.hand_inj d c n hn h)

theorem recycling_skb_congr {pc : Option RecyclePc} {node node' : ℕ → TxBuffer}
    (hskb : ∀ n, pc.bind RecyclePc.node = some n → (node' n).txSkbBuff = (node n).txSkbBuff) :
    pc.bind (RecyclePc.skb node') = pc.bind (RecyclePc.skb node) := by
  cases pc with
  | none => rfl
  | some pc =>
    cases pc with
    | clear n => exact hskb n rfl
    | requeue _ _ _ | unmap _ _ | free _ => rfl

theorem Control.skbOf (hinv : Control s) (hothers : Others s s' c) (hd : d ≠ c) :
    s'.skbOf d = s.skbOf d := by
  have hskb : ∀ n, s.nodeOf d = some n → (s'.node n).txSkbBuff = (s.node n).txSkbBuff := by
    intro n hn
    rw [hinv.node_of_ne hothers hd hn]
  cases d with
  | call k => simp only [Tx.skbOf, hothers.calls k hd]
  | freeBd =>
    simp only [Tx.skbOf, hothers.freeBd hd]
    exact recycling_skb_congr hskb
  | force =>
    simp only [Tx.skbOf, hothers.force hd]
    exact recycling_skb_congr hskb

theorem Control.skbOf_eq (hinv : Control s) (hothers : Others s s' c)
    (hown : s'.skbOf c = s.skbOf c) (d : Ctx) : s'.skbOf d = s.skbOf d := by
  by_cases hd : d = c
  · rw [hd, hown]
  · exact hinv.skbOf hothers hd

theorem Control.skbs_congr (hinv : Control s) (hothers : Others s s' c)
    (hown : s'.skbOf c = s.skbOf c) (hfreed : s'.freed = s.freed) (hqueued : s'.queued = s.queued)
    (hcharged : ∀ k, .call k = c → (s'.call k).pc.charged = (s.call k).pc.charged) :
    Custody s'.freed s'.queued s'.skbOf (fun k => (s'.call k).pc.charged = true) := by
  rw [hfreed, hqueued]
  refine hinv.skbs.congr (hinv.skbOf_eq hothers hown) fun k => ?_
  by_cases hk : Ctx.call k = c
  · rw [hcharged k hk]
  · rw [hothers.calls k hk]

theorem Control.inused_node (hinv : Control s) (hothers : Others s s' c)
    (hn : n ∈ s.inused.head) : s'.node n = s.node n :=
  hothers.node n fun h => hinv.nodes.hand_right c n h hn

theorem queued_congr (hnode : ∀ n ∈ s.inused.head, (s'.node n).txSkbBuff = (s.node n).txSkbBuff)
    (hinused : s'.inused.head = s.inused.head) : s'.queued = s.queued := by
  unfold Tx.queued
  rw [hinused]
  exact List.filterMap_congr hnode

theorem Control.callOk (hinv : Control s) (hothers : Others s s' c)
    (hhw : ∀ d ∈ s'.hw, d ∈ s.hw ∨ s.nodeOf c = some d.clearAddr)
    (hmine : ∀ k, .call k = c → CallOk s' k) (k : ℕ) : CallOk s' k := by
  by_cases hk : Ctx.call k = c
  · exact hmine k hk
  · refine CallOk.frame (hinv.calls k) (hothers.calls k hk) ?_ ?_
    · intro n hn
      exact hinv.node_of_ne hothers hk hn
    · rintro n hn d hd rfl
      rcases hhw d hd with h | h
      · exact h
      · exact absurd (hinv.nodes.hand_inj (.call k) c d.clearAddr hn h) hk

theorem Others.recycling (hothers : Others s s' c) (hd : d ≠ c) :
    s'.recycling d = s.recycling d := by
  cases d with
  | call k => simp only [Tx.recycling, hothers.calls k hd]
  | freeBd => simp only [Tx.recycling, hothers.freeBd hd]
  | force => simp only [Tx.recycling, hothers.force hd]

theorem nodeOf_recycling {pc : RecyclePc} (hrec : s.recycling c = some pc) :
    s.nodeOf c = pc.node := by
  cases c with
  | call k =>
    simp only [Tx.recycling] at hrec
    cases hpc : (s.call k).pc with
    | recycle pc' =>
      rw [hpc] at hrec
      cases hrec
      simp only [Tx.nodeOf, hpc]
      rfl
    | _ =>
      rw [hpc] at hrec
      cases hrec
  | freeBd =>
    simp only [Tx.recycling] at hrec
    simp only [Tx.nodeOf, hrec, Option.bind_some]
  | force =>
    simp only [Tx.recycling] at hrec
    simp only [Tx.nodeOf, hrec, Option.bind_some]

theorem Control.skbOf_recycling {pc : RecyclePc} (hinv : Control s)
    (hrec : s.recycling c = some pc) : s.skbOf c = pc.skb s.node := by
  cases c with
  | call k =>
    simp only [Tx.recycling] at hrec
    have hok := hinv.calls k
    unfold CallOk at hok
    cases hpc : (s.call k).pc with
    | recycle pc' =>
      rw [hpc] at hrec hok
      cases hrec
      simp only [Tx.skbOf, hpc]
      cases pc with
      | clear n => exact hok.1.symm
      | requeue _ _ _ | unmap _ _ => exact congrArg some hok.1.symm
      | free _ => exact hok.elim
    | _ =>
      rw [hpc] at hrec
      cases hrec
  | freeBd =>
    simp only [Tx.recycling] at hrec
    simp only [Tx.skbOf, hrec, Option.bind_some]
  | force =>
    simp only [Tx.recycling] at hrec
    simp only [Tx.skbOf, hrec, Option.bind_some]

theorem Control.step (hinv : Control s) (hothers : Others s s' c)
    (hnodes : Custody s'.unused.head s'.inused.head s'.nodeOf (· < gmacTxBdRingSize))
    (hskbs : Custody s'.freed s'.queued s'.skbOf (fun k => (s'.call k).pc.charged = true))
    (hcount : s'.inused.listCount = s'.inused.head.length)
    (hlock : ∀ k, (s'.call k).pc.locked = true ↔ s'.inusedLock = some k)
    (hhw : ∀ d ∈ s'.hw, d ∈ s.hw ∨ s.nodeOf c = some d.clearAddr)
    (hmine : ∀ k, .call k = c → CallOk s' k)
    (hcontent : ∀ n ∈ s'.inused.head, (s'.node n).txSkbBuff ≠ none)
    (hfresh : ∀ n k, (s'.node n).txSkbBuff = some k →
      n ∈ s'.inused.head ∨ ∃ c, s'.nodeOf c = some n ∧ s'.skbOf c = some k)
    (hcleared : ∀ n skb dma, s'.recycling c = some (.requeue n skb dma) →
      (s'.node n).txSkbBuff = none)
    (hmapped : ∀ k, s'.mapped k = true →
      s.mapped k = true ∧ .call k ≠ c ∨ (s'.call k).pc.maps = true) : Control s' := by
  refine ⟨hnodes, hskbs, hcount, hlock, hinv.callOk hothers hhw hmine, hcontent, hfresh, ?_, ?_⟩
  · intro d n skb dma hrec
    by_cases hd : d = c
    · subst hd
      exact hcleared n skb dma hrec
    · rw [hothers.recycling hd] at hrec
      rw [hinv.node_of_ne hothers hd (nodeOf_recycling hrec)]
      exact hinv.cleared d n skb dma hrec
  intro k hk
  rcases hmapped k hk with ⟨hold, hne⟩ | h
  · rw [hothers.calls k hne]
    exact hinv.mapped k hold
  · exact h

theorem Control.stepKept (hinv : Control s) (hothers : Others s s' c)
    (hkept : s'.inused = s.inused ∧ s'.hw = s.hw ∧ s'.mapped = s.mapped)
    (hnodes : Custody s'.unused.head s.inused.head s'.nodeOf (· < gmacTxBdRingSize))
    (hskbs : Custody s'.freed s'.queued s'.skbOf (fun k => (s'.call k).pc.charged = true))
    (hlock : ∀ k, (s'.call k).pc.locked = true ↔ s'.inusedLock = some k)
    (hmine : ∀ k, .call k = c → CallOk s' k ∧ (s'.call k).pc.maps = true)
    (hfresh : ∀ n k, (s'.node n).txSkbBuff = some k →
      n ∈ s.inused.head ∨ ∃ c, s'.nodeOf c = some n ∧ s'.skbOf c = some k)
    (hcleared : ∀ n skb dma, s'.recycling c = some (.requeue n skb dma) →
      (s'.node n).txSkbBuff = none) : Control s' := by
  obtain ⟨hinused, hhw, hmapped⟩ := hkept
  rw [← hinused] at hnodes hfresh
  refine hinv.step hothers hnodes hskbs ?_ hlock ?_ (fun k hk => (hmine k hk).1) ?_ hfresh
    hcleared ?_
  · rw [hinused, hinv.count]
  · rw [hhw]
    exact fun d hd => Or.inl hd
  · rw [hinused]
    intro m hm
    rw [hinv.inused_node hothers hm]
    exact hinv.content m hm
  · intro k hk
    rw [hmapped] at hk
    by_cases hck : Ctx.call k = c
    · exact Or.inr (hmine k hck).2
    · exact Or.inl ⟨hk, hck⟩

theorem Control.stay (hinv : Control s) (hothers : Others s s' c)
    (hnode : s'.node = s.node) (hnodeOf : s'.nodeOf c = s.nodeOf c)
    (hskbOf : s'.skbOf c = s.skbOf c)
    (hcharged : ∀ k, .call k = c → (s'.call k).pc.charged = (s.call k).pc.charged)
    (hunused : s'.unused = s.unused) (hinused : s'.inused = s.inused) (hfreed : s'.freed = s.freed)
    (hlock : ∀ k, (s'.call k).pc.locked = true ↔ s'.inusedLock = some k)
    (hhw : ∀ d ∈ s'.hw, d ∈ s.hw ∨ s.nodeOf c = some d.clearAddr)
    (hmine : ∀ k, .call k = c → CallOk s' k)
    (hcleared : ∀ n skb dma, s'.recycling c ≠ some (.requeue n skb dma))
    (hmapped : ∀ k, s'.mapped k = true →
      s.mapped k = true ∧ .call k ≠ c ∨ (s'.call k).pc.maps = true) : Control s' := by
  have hnodes := hothers.nodeOf_eq hnodeOf
  have hskbs := hinv.skbOf_eq hothers hskbOf
  have hqueued : s'.queued = s.queued :=
    queued_congr (fun n _ => by rw [hnode]) (by rw [hinused])
  refine hinv.step hothers ?_ ?_ ?_ hlock hhw hmine ?_ ?_
    (fun n skb dma h => absurd h (hcleared n skb dma)) hmapped
  · rw [hunused, hinused]
    exact hinv.nodes.congr hnodes fun _ => Iff.rfl
  · exact hinv.skbs_congr hothers hskbOf hfreed hqueued hcharged
  · rw [hinused]
    exact hinv.count
  · rw [hinused, hnode]
    exact hinv.content
  · intro n k hn
    rw [hnode] at hn
    rw [hinused]
    exact (hinv.fresh n k hn).imp_right fun ⟨d, hd, hd'⟩ =>
      ⟨d, (hnodes d).trans hd, (hskbs d).trans hd'⟩

theorem others_goto {t : Tx} {pc : TxPc} (hcall : t.call = s.call) (hfreeBd : t.freeBd = s.freeBd)
    (hforce : t.force = s.force) (hnode : ∀ n, (s.call k).pc.node ≠ some n → t.node n = s.node n) :
    Others s (t.goto k pc) (.call k) := by
  refine ⟨?_, fun _ => hfreeBd, fun _ => hforce, hnode⟩
  intro j hj
  have hne : j ≠ k := fun h => hj (by rw [h])
  simp only [Tx.goto, Function.update_of_ne hne, hcall]

theorem goto_call {t : Tx} {pc : TxPc} : ((t.goto k pc).call k).pc = pc := by
  simp only [Tx.goto, Function.update_self]

theorem goto_call_of_ne {t : Tx} {pc : TxPc} (hj : j ≠ k) : (t.goto k pc).call j = t.call j := by
  simp only [Tx.goto, Function.update_of_ne hj]

def TxPc.hand (pc : TxPc) : Option ℕ × Bool × Bool := (pc.node, pc.refers, pc.charged)

def Tx.core (s : Tx) := (s.call, s.freeBd, s.force, s.node, s.unused, s.inused, s.freed)

theorem Control.goto {t : Tx} {pc : TxPc} (hinv : Control s) (hcore : t.core = s.core)
    (hpc : pc.hand = (s.call k).pc.hand)
    (hlock : (pc.locked = true ∧ t.inusedLock = some k ∧
        (s.inusedLock = none ∨ s.inusedLock = some k)) ∨
      (pc.locked = false ∧ t.inusedLock = none ∧ s.inusedLock = some k) ∨
      (pc.locked = (s.call k).pc.locked ∧ t.inusedLock = s.inusedLock))
    (hhw : ∀ d ∈ t.hw, d ∈ s.hw ∨ (s.call k).pc.node = some d.clearAddr)
    (hmine : CallOk (t.goto k pc) k)
    (hcleared : ∀ n skb dma, pc.recycling ≠ some (.requeue n skb dma))
    (hmapped : ∀ j, t.mapped j = true → s.mapped j = true ∧ j ≠ k ∨ j = k ∧ pc.maps = true) :
    Control (t.goto k pc) := by
  simp only [Tx.core, TxPc.hand, Prod.mk.injEq] at hcore hpc
  obtain ⟨hcall, hfreeBd, hforce, hnode, hunused, hinused, hfreed⟩ := hcore
  have hothers : Others s (t.goto k pc) (.call k) :=
    others_goto hcall hfreeBd hforce fun n _ => by rw [hnode]
  refine hinv.stay hothers hnode ?_ ?_ ?_ hunused hinused hfreed ?_ hhw ?_ ?_ ?_
  · simp only [Tx.nodeOf, goto_call]
    exact hpc.1
  · simp only [Tx.skbOf, goto_call, hpc.2.1]
  · rintro j hj
    cases hj
    rw [goto_call]
    exact hpc.2.2
  · intro j
    show ((t.goto k pc).call j).pc.locked = true ↔ t.inusedLock = some j
    by_cases hj : j = k
    · subst hj
      rw [goto_call]
      rcases hlock with ⟨h, h', _⟩ | ⟨h, h', _⟩ | ⟨h, h'⟩
      · simp [h, h']
      · simp [h, h']
      · rw [h, h']
        exact hinv.lock j
    · rw [goto_call_of_ne hj, hcall, hinv.lock j]
      have hne : some k ≠ some j := fun h => hj (Option.some_inj.mp h).symm
      rcases hlock with ⟨_, h', h | h⟩ | ⟨_, h', h⟩ | ⟨_, h'⟩
      · simp [h, h', hne]
      · simp [h, h']
      · simp [h, h', hne]
      · rw [h']
  · rintro j hj
    cases hj
    exact hmine
  · intro n skb dma
    simp only [Tx.recycling, goto_call]
    exact hcleared n skb dma
  · intro j hj
    rcases hmapped j hj with ⟨h, hne⟩ | ⟨rfl, h⟩
    · exact Or.inl ⟨h, fun heq => hne (Ctx.call.inj heq)⟩
    · right
      rw [goto_call]
      exact h

theorem Control.advance {t : Tx} {pc pc₀ : TxPc} (hinv : Control s) (hpc₀ : (s.call k).pc = pc₀)
    (hsame : (t.core, t.inusedLock, t.hw, t.mapped) = (s.core, s.inusedLock, s.hw, s.mapped))
    (hpc : (pc.hand, pc.locked, pc.maps) = (pc₀.hand, pc₀.locked, pc₀.maps))
    (hmine : CallOk (t.goto k pc) k)
    (hcleared : ∀ n skb dma, pc.recycling ≠ some (.requeue n skb dma)) :
    Control (t.goto k pc) := by
  simp only [Prod.mk.injEq] at hsame hpc
  obtain ⟨hcore, hlock, hhw, hmapped⟩ := hsame
  rw [← hpc₀] at hpc
  refine hinv.goto hcore hpc.1 (Or.inr (Or.inr ⟨hpc.2.1, hlock⟩)) ?_ hmine hcleared ?_
  · rw [hhw]
    exact fun d hd => Or.inl hd
  · intro j hj
    rw [hmapped] at hj
    by_cases hjk : j = k
    · subst hjk
      exact Or.inr ⟨rfl, hpc.2.2.trans (hinv.mapped j hj)⟩
    · exact Or.inl ⟨hj, hjk⟩

theorem Control.idle_pc {pc : TxPc} (hinv : Control s) (hpc : (s.call k).pc = pc) :
    CallOk s k ∧ s.nodeOf (.call k) = pc.node ∧
      s.skbOf (.call k) = if pc.refers then some k else none := by
  refine ⟨hinv.calls k, ?_, ?_⟩
  · simp only [Tx.nodeOf, hpc]
  · simp only [Tx.skbOf, hpc]

theorem cleared_goto {t : Tx} {pc : TxPc} (hpc : pc.recycling = none) :
    ∀ n skb dma, (t.goto k pc).recycling (.call k) = some (.requeue n skb dma) →
      ((t.goto k pc).node n).txSkbBuff = none := by
  intro n skb dma h
  simp only [Tx.recycling, goto_call, hpc] at h
  cases h

theorem Control.lock_goto {t : Tx} {pc : TxPc} (hinv : Control s)
    (hcall : t.call = s.call) (hlock : t.inusedLock = s.inusedLock)
    (hpc : pc.locked = (s.call k).pc.locked) :
    ∀ j, ((t.goto k pc).call j).pc.locked = true ↔ (t.goto k pc).inusedLock = some j := by
  intro j
  show ((t.goto k pc).call j).pc.locked = true ↔ t.inusedLock = some j
  rw [hlock, ← hinv.lock j]
  by_cases hj : j = k
  · subst hj
    rw [goto_call, hpc]
  · rw [goto_call_of_ne hj, hcall]

theorem mapped_goto {t : Tx} {pc : TxPc} (hmapped : t.mapped = s.mapped)
    (hpc : pc.maps = true) : ∀ j, (t.goto k pc).mapped j = true →
      s.mapped j = true ∧ .call j ≠ Ctx.call k ∨ ((t.goto k pc).call j).pc.maps = true := by
  intro j hj
  by_cases hk : j = k
  · subst hk
    right
    rw [goto_call]
    exact hpc
  · have hold : t.mapped j = true := hj
    rw [hmapped] at hold
    exact Or.inl ⟨hold, fun h => hk (Ctx.call.inj h)⟩

theorem Control.drop (hinv : Control s) (hpc : (s.call k).pc = .called) :
    Control ({ s with freed := s.freed ++ [k] }.goto k (.returned netdevTxOk)) := by
  have hothers : Others s ({ s with freed := s.freed ++ [k] }.goto k (.returned netdevTxOk))
      (.call k) :=
    others_goto rfl rfl rfl fun _ _ => rfl
  have hnodes := hothers.nodeOf_eq (by simp only [Tx.nodeOf, goto_call, hpc]; rfl)
  have hskbs := hinv.skbOf_eq hothers (by simp only [Tx.skbOf, goto_call, hpc]; rfl)
  have hnew : ¬ (s.call k).pc.charged = true := by
    rw [hpc]
    exact fun h => by cases h
  refine hinv.step hothers ?_ ?_ hinv.count ?_ (fun d hd => Or.inl hd) ?_ hinv.content ?_ ?_ ?_
  · exact hinv.nodes.congr hnodes fun _ => Iff.rfl
  · refine (hinv.skbs.admit_left hnew fun _ => Iff.rfl).congr hskbs fun j => ?_
    by_cases hj : j = k
    · subst hj
      simp [goto_call, TxPc.charged]
    · simp [goto_call_of_ne hj, hj]
  · exact hinv.lock_goto rfl rfl (by rw [hpc]; rfl)
  · rintro j hj
    cases hj
    unfold CallOk
    rw [goto_call]
    trivial
  · intro n j hn
    exact (hinv.fresh n j hn).imp_right fun ⟨d, hd, hd'⟩ =>
      ⟨d, (hnodes d).trans hd, (hskbs d).trans hd'⟩
  · exact cleared_goto rfl
  · exact mapped_goto rfl rfl

theorem Control.acquire {rest : List ℕ} {count : ℕ} (hinv : Control s)
    (hpc : (s.call k).pc = .acquire) (hunused : s.unused.head = n :: rest)
    (hready : ∀ d ∈ s.hw, d.clearAddr ≠ n) :
    Control ({ s with unused := ⟨count, rest⟩ }.goto k (.fill n)) := by
  have hothers : Others s ({ s with unused := ⟨count, rest⟩ }.goto k (.fill n)) (.call k) :=
    others_goto rfl rfl rfl fun _ _ => rfl
  obtain ⟨hok, hnode, hskb⟩ := hinv.idle_pc hpc
  have hown : ({ s with unused := ⟨count, rest⟩ }.goto k (.fill n)).skbOf (.call k) =
      s.skbOf (.call k) := by
    rw [hskb]
    simp only [Tx.skbOf, goto_call]
    rfl
  have hskbs := hinv.skbOf_eq hothers hown
  refine hinv.step hothers ?_ ?_ hinv.count ?_ (fun d hd => Or.inl hd) ?_ hinv.content ?_ ?_ ?_
  · have hnodes := hinv.nodes
    rw [hunused] at hnodes
    refine hnodes.take_left hnode ?_ fun d hd => hothers.nodeOf hd
    simp only [Tx.nodeOf, goto_call]
    rfl
  · refine hinv.skbs_congr hothers hown rfl rfl ?_
    rintro j hj
    cases hj
    rw [goto_call, hpc]
    rfl
  · exact hinv.lock_goto rfl rfl (by rw [hpc]; rfl)
  · rintro j hj
    cases hj
    unfold CallOk at hok ⊢
    rw [hpc] at hok
    simp only [Tx.goto, Function.update_self]
    exact ⟨hok, hready⟩
  · intro n j hn
    refine (hinv.fresh n j hn).imp_right fun ⟨d, hd, hd'⟩ => ⟨d, ?_, (hskbs d).trans hd'⟩
    have hne : d ≠ .call k := by
      rintro rfl
      rw [hskb] at hd'
      cases hd'
    exact (hothers.nodeOf hne).trans hd
  · exact cleared_goto rfl
  · exact mapped_goto rfl rfl

theorem Control.queued_setNode {b : TxBuffer} (hinv : Control s) (hn : s.nodeOf c = some n) :
    (s.setNode n b).queued = s.queued := by
  refine queued_congr (fun m hm => ?_) rfl
  have hne : m ≠ n := by
    rintro rfl
    exact hinv.nodes.hand_right c m hn hm
  simp only [Tx.setNode, Function.update_of_ne hne]

theorem setNode_of_ne {b : TxBuffer} (hne : m ≠ n) : (s.setNode n b).node m = s.node m :=
  Function.update_of_ne hne _ _

theorem setNode_self {b : TxBuffer} : (s.setNode n b).node n = b := Function.update_self ..

theorem Control.fill (hinv : Control s) (hpc : (s.call k).pc = .fill n) :
    Control { s.setNode n ⟨gmacTxStart, some k, (s.call k).cmd.pktAddr⟩ with
      call := Function.update s.call k
        { s.call k with cmd := { (s.call k).cmd with clearAddr := n }, pc := .lock n } } := by
  obtain ⟨hok, hnode, hskb⟩ := hinv.idle_pc hpc
  unfold CallOk at hok
  rw [hpc] at hok
  have hnew : ¬ (s.call k).pc.charged = true := by
    rw [hpc]
    exact fun h => by cases h
  generalize hs' : ({ s.setNode n ⟨gmacTxStart, some k, (s.call k).cmd.pktAddr⟩ with
      call := Function.update s.call k
        { s.call k with cmd := { (s.call k).cmd with clearAddr := n }, pc := .lock n } } : Tx) = s'
  have hcallk : s'.call k =
      { s.call k with cmd := { (s.call k).cmd with clearAddr := n }, pc := .lock n } := by
    rw [← hs']
    exact Function.update_self ..
  have hcallj : ∀ j, j ≠ k → s'.call j = s.call j := by
    intro j hj
    rw [← hs']
    exact Function.update_of_ne hj _ _
  have hnoden : s'.node n = ⟨gmacTxStart, some k, (s.call k).cmd.pktAddr⟩ := by
    rw [← hs']
    exact setNode_self
  have hnodem : ∀ m, m ≠ n → s'.node m = s.node m := by
    intro m hm
    rw [← hs']
    exact setNode_of_ne hm
  have hothers : Others s s' (.call k) := by
    refine ⟨fun j hj => hcallj j fun h => hj (by rw [h]), ?_, ?_, ?_⟩
    · rw [← hs']
      exact fun _ => rfl
    · rw [← hs']
      exact fun _ => rfl
    · intro m hm
      refine hnodem m ?_
      rintro rfl
      exact hm hnode
  have hown : s'.nodeOf (.call k) = s.nodeOf (.call k) := by
    rw [hnode]
    simp only [Tx.nodeOf, hcallk]
    rfl
  have hnodes := hothers.nodeOf_eq hown
  have hqueued : s'.queued = s.queued := by
    rw [← hs']
    exact hinv.queued_setNode hnode
  have hinused : s'.inused = s.inused := by rw [← hs']; rfl
  refine hinv.step hothers ?_ ?_ ?_ ?_ ?_ ?_ ?_ ?_ ?_ ?_
  · rw [← hs']
    rw [← hs'] at hnodes
    exact hinv.nodes.congr hnodes fun _ => Iff.rfl
  · have hfreed : s'.freed = s.freed := by rw [← hs']; rfl
    rw [hfreed, hqueued]
    refine hinv.skbs.enter hnew hskb ?_ (fun d hd => hinv.skbOf hothers hd) fun j => ?_
    · simp only [Tx.skbOf, hcallk]
      rfl
    · by_cases hj : j = k
      · subst hj
        simp [hcallk, TxPc.charged, TxPc.refers]
      · simp [hcallj j hj, hj]
  · rw [hinused]
    exact hinv.count
  · have hlock : s'.inusedLock = s.inusedLock := by rw [← hs']; rfl
    intro j
    rw [hlock, ← hinv.lock j]
    by_cases hj : j = k
    · subst hj
      rw [hcallk, hpc]
      rfl
    · rw [hcallj j hj]
  · rw [← hs']
    exact fun d hd => Or.inl hd
  · rintro j hj
    cases hj
    unfold CallOk
    rw [hcallk]
    refine ⟨⟨?_, ?_⟩, ?_, ?_, ?_, ?_⟩
    · rw [hnoden]
    · rw [hnoden]
      exact hok.1
    · rw [hnoden]
    · rw [hcallk]
      exact hok.1
    · rw [hcallk]
    · rw [← hs']
      exact hok.2
  · rw [hinused]
    intro m hm
    rw [hinv.inused_node hothers hm]
    exact hinv.content m hm
  · intro m j hm
    by_cases hmn : m = n
    · subst hmn
      rw [hnoden] at hm
      cases hm
      refine Or.inr ⟨.call k, (hnodes _).trans hnode, ?_⟩
      simp only [Tx.skbOf, hcallk]
      rfl
    · rw [hnodem m hmn] at hm
      rw [hinused]
      refine (hinv.fresh m j hm).imp_right fun ⟨d, hd, hd'⟩ => ⟨d, (hnodes d).trans hd, ?_⟩
      have hne : d ≠ .call k := by
        rintro rfl
        rw [hskb] at hd'
        cases hd'
      rw [hinv.skbOf hothers hne]
      exact hd'
  · intro m skb dma h
    simp only [Tx.recycling, hcallk] at h
    cases h
  · intro j hj
    by_cases hk : j = k
    · subst hk
      right
      rw [hcallk]
      rfl
    · left
      rw [← hs'] at hj
      exact ⟨hj, fun h => hk (Ctx.call.inj h)⟩

theorem Control.add (hinv : Control s) (hpc : (s.call k).pc = .add n) :
    Control ({ s with inused := s.inused.enque n }.goto k .unlock) := by
  obtain ⟨hok, hnode, hskb⟩ := hinv.idle_pc hpc
  unfold CallOk at hok
  rw [hpc] at hok
  have hothers : Others s ({ s with inused := s.inused.enque n }.goto k .unlock) (.call k) :=
    others_goto rfl rfl rfl fun _ _ => rfl
  have hempty : ({ s with inused := s.inused.enque n }.goto k .unlock).nodeOf (.call k) = none ∧
      ({ s with inused := s.inused.enque n }.goto k .unlock).skbOf (.call k) = none := by
    constructor
    · simp only [Tx.nodeOf, goto_call]
      rfl
    · simp only [Tx.skbOf, goto_call]
      rfl
  refine hinv.step hothers ?_ ?_ ?_ ?_ (fun d hd => Or.inl hd) ?_ ?_ ?_ ?_ ?_
  · exact hinv.nodes.put_right hnode hempty.1 fun d hd => hothers.nodeOf hd
  · have hqueued : ({ s with inused := s.inused.enque n }.goto k .unlock).queued =
        s.queued ++ [k] := by
      unfold Tx.queued
      show (s.inused.head ++ [n]).filterMap (fun n => (s.node n).txSkbBuff) = _
      rw [List.filterMap_append]
      simp [hok.1]
    rw [hqueued]
    refine (hinv.skbs.put_right hskb hempty.2 fun d hd => hinv.skbOf hothers hd).congr
      (fun _ => rfl) fun j => ?_
    by_cases hj : j = k
    · subst hj
      rw [goto_call, hpc]
      rfl
    · rw [goto_call_of_ne hj]
  · show s.inused.listCount + 1 = (s.inused.head ++ [n]).length
    rw [List.length_append, hinv.count]
    rfl
  · exact hinv.lock_goto rfl rfl (by rw [hpc]; rfl)
  · rintro j hj
    cases hj
    unfold CallOk
    rw [goto_call]
    trivial
  · intro m hm
    rcases List.mem_append.mp hm with hm | hm
    · exact hinv.content m hm
    · rw [List.mem_singleton] at hm
      subst hm
      show (s.node m).txSkbBuff ≠ none
      rw [hok.1]
      simp
  · intro m j hm
    rcases hinv.fresh m j hm with h | ⟨d, hd, hd'⟩
    · exact Or.inl (List.mem_append_left _ h)
    · by_cases hdk : d = .call k
      · subst hdk
        left
        rw [hnode] at hd
        cases hd
        exact List.mem_append_right _ List.mem_cons_self
      · exact Or.inr ⟨d, (hothers.nodeOf hdk).trans hd, (hinv.skbOf hothers hdk).trans hd'⟩
  · exact cleared_goto rfl
  · exact mapped_goto rfl rfl

/-! ## Steps of a recycling -/

theorem Control.clear {b : TxBuffer} {skb : ℕ} (hinv : Control s)
    (hrec : s.recycling c = some (.clear n)) (hskb : (s.node n).txSkbBuff = some skb)
    (hb : b.txSkbBuff = none) (hothers : Others s s' c) (hnode : s'.node = (s.setNode n b).node)
    (hrec' : s'.nodeOf c = some n ∧ s'.skbOf c = some skb)
    (hcleared : ∀ m skb dma, s'.recycling c = some (.requeue m skb dma) → m = n)
    (hqueues : s'.unused = s.unused ∧ s'.freed = s.freed)
    (hkept : s'.inused = s.inused ∧ s'.hw = s.hw ∧ s'.mapped = s.mapped)
    (hcharged : ∀ k, .call k = c → (s'.call k).pc.charged = (s.call k).pc.charged)
    (hlock : ∀ k, (s'.call k).pc.locked = true ↔ s'.inusedLock = some k)
    (hmine : ∀ k, .call k = c → CallOk s' k ∧ (s'.call k).pc.maps = true) : Control s' := by
  have hn : s.nodeOf c = some n := nodeOf_recycling hrec
  have hk : s.skbOf c = some skb := (hinv.skbOf_recycling hrec).trans hskb
  have hown : s'.skbOf c = s.skbOf c := hrec'.2.trans hk.symm
  have hnodes := hothers.nodeOf_eq (hrec'.1.trans hn.symm)
  have hskbs := hinv.skbOf_eq hothers hown
  have hqueued : s'.queued = s.queued := by
    rw [← hinv.queued_setNode (b := b) hn]
    exact queued_congr (fun m _ => by rw [hnode]) (by rw [hkept.1]; rfl)
  refine hinv.stepKept hothers hkept ?_ ?_ hlock hmine ?_ ?_
  · rw [hqueues.1]
    exact hinv.nodes.congr hnodes fun _ => Iff.rfl
  · exact hinv.skbs_congr hothers hown hqueues.2 hqueued hcharged
  · intro m k hm
    rw [hnode] at hm
    by_cases hmn : m = n
    · subst hmn
      rw [setNode_self, hb] at hm
      cases hm
    · rw [setNode_of_ne hmn] at hm
      exact (hinv.fresh m k hm).imp_right fun ⟨d, hd, hd'⟩ =>
        ⟨d, (hnodes d).trans hd, (hskbs d).trans hd'⟩
  · intro m skb dma h
    rw [hcleared m skb dma h, hnode, setNode_self]
    exact hb

theorem Control.requeue {skb dma : ℕ} (hinv : Control s)
    (hrec : s.recycling c = some (.requeue n skb dma)) (hothers : Others s s' c)
    (hnode : s'.node = s.node) (hrec' : s'.recycling c = some (.unmap skb dma))
    (hhand : s'.nodeOf c = none ∧ s'.skbOf c = some skb)
    (hqueues : s'.unused = s.unused.enque n ∧ s'.freed = s.freed)
    (hkept : s'.inused = s.inused ∧ s'.hw = s.hw ∧ s'.mapped = s.mapped)
    (hcharged : ∀ k, .call k = c → (s'.call k).pc.charged = (s.call k).pc.charged)
    (hlock : ∀ k, (s'.call k).pc.locked = true ↔ s'.inusedLock = some k)
    (hmine : ∀ k, .call k = c → CallOk s' k ∧ (s'.call k).pc.maps = true) : Control s' := by
  have hn : s.nodeOf c = some n := nodeOf_recycling hrec
  have hk : s.skbOf c = some skb := hinv.skbOf_recycling hrec
  have hown : s'.skbOf c = s.skbOf c := hhand.2.trans hk.symm
  have hskbs := hinv.skbOf_eq hothers hown
  have hqueued : s'.queued = s.queued :=
    queued_congr (fun n _ => by rw [hnode]) (by rw [hkept.1])
  refine hinv.stepKept hothers hkept ?_ ?_ hlock hmine ?_ ?_
  · rw [hqueues.1]
    exact hinv.nodes.put_left hn hhand.1 fun d hd => hothers.nodeOf hd
  · exact hinv.skbs_congr hothers hown hqueues.2 hqueued hcharged
  · intro m k hm
    rw [hnode] at hm
    refine (hinv.fresh m k hm).imp_right fun ⟨d, hd, hd'⟩ => ⟨d, ?_, (hskbs d).trans hd'⟩
    -- the node in hand has been cleared
    have hdc : d ≠ c := by
      rintro rfl
      rw [hn] at hd
      cases hd
      rw [hinv.cleared d n skb dma hrec] at hm
      cases hm
    exact (hothers.nodeOf hdc).trans hd
  · intro m skb' dma' h
    rw [hrec'] at h
    cases h

theorem Control.giveBack {skb dma : ℕ} (hinv : Control s)
    (hpc : (s.call k).pc = .recycle (.unmap skb dma)) :
    Control ({ s with mapped := Function.update s.mapped dma false }.goto k
      (.returned netdevTxBusy)) := by
  obtain ⟨hok, hnode, hskb⟩ := hinv.idle_pc hpc
  unfold CallOk at hok
  rw [hpc] at hok
  obtain ⟨rfl, rfl⟩ := hok
  have hothers : Others s ({ s with mapped := Function.update s.mapped dma false }.goto dma
      (.returned netdevTxBusy)) (.call dma) :=
    others_goto rfl rfl rfl fun _ _ => rfl
  have hempty : ({ s with mapped := Function.update s.mapped dma false }.goto dma
      (.returned netdevTxBusy)).nodeOf (.call dma) = none ∧
      ({ s with mapped := Function.update s.mapped dma false }.goto dma
        (.returned netdevTxBusy)).skbOf (.call dma) = none := by
    constructor
    · simp only [Tx.nodeOf, goto_call]
      rfl
    · simp only [Tx.skbOf, goto_call]
      rfl
  refine hinv.step hothers ?_ ?_ hinv.count ?_ (fun d hd => Or.inl hd) ?_ hinv.content ?_ ?_ ?_
  · exact hinv.nodes.congr (hothers.nodeOf_eq (hempty.1.trans hnode.symm)) fun _ => Iff.rfl
  · refine hinv.skbs.leave hskb hempty.2 (fun d hd => hinv.skbOf hothers hd) fun j => ?_
    by_cases hj : j = dma
    · subst hj
      rw [goto_call]
      simp [TxPc.charged, netdevTxBusy, netdevTxOk]
    · rw [goto_call_of_ne hj]
      simp [hj]
  · exact hinv.lock_goto rfl rfl (by rw [hpc]; rfl)
  · rintro j hj
    cases hj
    unfold CallOk
    rw [goto_call]
    trivial
  · intro m j hm
    refine (hinv.fresh m j hm).imp_right fun ⟨d, hd, hd'⟩ => ⟨d, ?_, ?_⟩
    all_goals
      have hdk : d ≠ .call dma := by
        rintro rfl
        rw [hnode] at hd
        cases hd
    · exact (hothers.nodeOf hdk).trans hd
    · exact (hinv.skbOf hothers hdk).trans hd'
  · exact cleared_goto rfl
  · intro j hj
    left
    have hne : j ≠ dma := by
      rintro rfl
      simp [Tx.goto] at hj
    refine ⟨?_, fun h => hne (Ctx.call.inj h)⟩
    simpa [Tx.goto, Function.update_of_ne hne] using hj

theorem Control.free {skb : ℕ} (hinv : Control s) (hrec : s.recycling c = some (.free skb))
    (hothers : Others s s' c) (hnode : s'.node = s.node)
    (hhand : s'.nodeOf c = none ∧ s'.skbOf c = none ∧ s'.recycling c = none)
    (hqueues : s'.unused = s.unused ∧ s'.freed = s.freed ++ [skb])
    (hkept : s'.inused = s.inused ∧ s'.hw = s.hw ∧ s'.mapped = s.mapped)
    (hcalls : s'.call = s.call ∧ s'.inusedLock = s.inusedLock) (hc : ∀ k, .call k ≠ c) :
    Control s' := by
  have hn : s.nodeOf c = none := nodeOf_recycling hrec
  have hk : s.skbOf c = some skb := hinv.skbOf_recycling hrec
  have hnodes := hothers.nodeOf_eq (hhand.1.trans hn.symm)
  have hqueued : s'.queued = s.queued :=
    queued_congr (fun n _ => by rw [hnode]) (by rw [hkept.1])
  refine hinv.stepKept hothers hkept ?_ ?_ ?_ (fun k hk => absurd hk (hc k)) ?_ ?_
  · rw [hqueues.1]
    exact hinv.nodes.congr hnodes fun _ => Iff.rfl
  · rw [hqueues.2, hqueued]
    exact (hinv.skbs.put_left hk hhand.2.1 fun d hd => hinv.skbOf hothers hd).congr (fun _ => rfl)
      fun k => by rw [hcalls.1]
  · rw [hcalls.1, hcalls.2]
    exact hinv.lock
  · intro m k hm
    rw [hnode] at hm
    refine (hinv.fresh m k hm).imp_right fun ⟨d, hd, hd'⟩ => ⟨d, (hnodes d).trans hd, ?_⟩
    have hdc : d ≠ c := by
      rintro rfl
      rw [hn] at hd
      cases hd
    exact (hinv.skbOf hothers hdc).trans hd'
  · intro m skb' dma h
    rw [hhand.2.2] at h
    cases h

theorem Control.deque {rest : List ℕ} (hinv : Control s) (hhead : s.inused.head = n :: rest)
    (hothers : Others s s' c) (hnode : s'.node = s.node)
    (hempty : s.nodeOf c = none ∧ s.skbOf c = none)
    (hhand : s'.nodeOf c = some n ∧ s'.skbOf c = (s.node n).txSkbBuff ∧
      s'.recycling c = some (.clear n))
    (hsame : s'.unused = s.unused ∧ s'.inused = ⟨s.inused.listCount - 1, rest⟩ ∧
      s'.freed = s.freed ∧ s'.mapped = s.mapped ∧ s'.hw = s.hw ∧ s'.call = s.call ∧
      s'.inusedLock = s.inusedLock) (hc : ∀ k, .call k ≠ c) : Control s' := by
  obtain ⟨hunused, hinused, hfreed, hmapped, hhw, hcall, hlock⟩ := hsame
  have hmem : n ∈ s.inused.head := by
    rw [hhead]
    exact List.mem_cons_self
  obtain ⟨k, hk⟩ := Option.ne_none_iff_exists'.mp (hinv.content n hmem)
  have hqueued : s.queued = k :: s'.queued := by
    unfold Tx.queued
    rw [hhead, hinused, hnode, List.filterMap_cons, hk]
  refine hinv.step hothers ?_ ?_ ?_ ?_ ?_ (fun k hk => absurd hk (hc k)) ?_ ?_ ?_ ?_
  · have hnodes := hinv.nodes
    rw [hhead] at hnodes
    rw [hunused, hinused]
    exact hnodes.take_right hempty.1 hhand.1 fun d hd => hothers.nodeOf hd
  · have hskbs := hinv.skbs
    rw [hqueued] at hskbs
    rw [hfreed]
    exact (hskbs.take_right hempty.2 (hhand.2.1.trans hk) fun d hd => hinv.skbOf hothers hd).congr
      (fun _ => rfl) fun k => by rw [hcall]
  · rw [hinused, hinv.count, hhead]
    rfl
  · rw [hcall, hlock]
    exact hinv.lock
  · rw [hhw]
    exact fun d hd => Or.inl hd
  · rw [hinused, hnode]
    intro m hm
    exact hinv.content m (by rw [hhead]; exact List.mem_cons_of_mem _ hm)
  · intro m j hm
    rw [hnode] at hm
    rw [hinused]
    rcases hinv.fresh m j hm with h | ⟨d, hd, hd'⟩
    · rw [hhead, List.mem_cons] at h
      rcases h with rfl | h
      · exact Or.inr ⟨c, hhand.1, hhand.2.1.trans hm⟩
      · exact Or.inl h
    · have hdc : d ≠ c := by
        rintro rfl
        rw [hempty.1] at hd
        cases hd
      exact Or.inr ⟨d, (hothers.nodeOf hdc).trans hd, (hinv.skbOf hothers hdc).trans hd'⟩
  · intro m skb dma h
    rw [hhand.2.2] at h
    cases h
  · intro k hk
    rw [hmapped] at hk
    exact Or.inl ⟨hk, hc k⟩

/-! ## The steps of the invariant -/

theorem Control.enroll {r : TxCall} {mapped : ℕ → Bool} (hinv : Control s)
    (hpc : r.pc.node = (s.call k).pc.node ∧ r.pc.refers = (s.call k).pc.refers ∧
      r.pc.charged = (s.call k).pc.charged ∧ r.pc.locked = (s.call k).pc.locked)
    (hmine : CallOk { s with mapped := mapped, call := Function.update s.call k r } k)
    (hrec : r.pc.recycling = none)
    (hmapped : ∀ j, mapped j = true → s.mapped j = true ∧ j ≠ k ∨ j = k ∧ r.pc.maps = true) :
    Control { s with mapped := mapped, call := Function.update s.call k r } := by
  obtain ⟨hnode, hrefers, hcharged, hlocked⟩ := hpc
  have hself : Function.update s.call k r k = r := Function.update_self ..
  have hother : ∀ j, j ≠ k → Function.update s.call k r j = s.call j :=
    fun j hj => Function.update_of_ne hj ..
  have hothers : Others s { s with mapped := mapped, call := Function.update s.call k r }
      (.call k) :=
    ⟨fun j hj => hother j fun h => hj (by rw [h]), fun _ => rfl, fun _ => rfl, fun _ _ => rfl⟩
  refine hinv.stay hothers rfl ?_ ?_ ?_ rfl rfl rfl ?_ (fun d hd => Or.inl hd) ?_ ?_ ?_
  · simp only [Tx.nodeOf, hself, hnode]
  · simp only [Tx.skbOf, hself, hrefers]
  · rintro j hj
    cases hj
    show (Function.update s.call k r k).pc.charged = _
    rw [hself, hcharged]
  · intro j
    show (Function.update s.call k r j).pc.locked = true ↔ s.inusedLock = some j
    rw [← hinv.lock j]
    by_cases hj : j = k
    · subst hj
      rw [hself, hlocked]
    · rw [hother j hj]
  · rintro j hj
    cases hj
    exact hmine
  · intro n skb dma h
    simp only [Tx.recycling, hself, hrec] at h
    cases h
  · intro j hj
    rcases hmapped j hj with ⟨h, hne⟩ | ⟨rfl, h⟩
    · exact Or.inl ⟨h, fun heq => hne (Ctx.call.inj heq)⟩
    · right
      show (Function.update s.call j r j).pc.maps = true
      rw [hself]
      exact h

theorem nodeOf_bind (hc : ∀ k, .call k ≠ c) :
    s.nodeOf c = (s.recycling c).bind RecyclePc.node := by
  cases c with
  | call k => exact absurd rfl (hc k)
  | freeBd | force => rfl

theorem skbOf_bind (hc : ∀ k, .call k ≠ c) :
    s.skbOf c = (s.recycling c).bind (RecyclePc.skb s.node) := by
  cases c with
  | call k => exact absurd rfl (hc k)
  | freeBd | force => rfl

def Tx.shared (s : Tx) :=
  (s.node, s.unused, s.inused, s.freed, s.mapped, s.hw, s.call, s.inusedLock)

structure Beside (c : Ctx) (t s' : Tx) : Prop where
  shared : s'.shared = t.shared
  freeBd : .freeBd ≠ c → s'.freeBd = t.freeBd
  force : .force ≠ c → s'.force = t.force

theorem Beside.ofFreeBd {t : Tx} (hshared : s'.shared = t.shared) (hforce : s'.force = t.force) :
    Beside .freeBd t s' :=
  ⟨hshared, fun h => absurd rfl h, fun _ => hforce⟩

theorem Beside.ofForce {t : Tx} (hshared : s'.shared = t.shared)
    (hfreeBd : s'.freeBd = t.freeBd) : Beside .force t s' :=
  ⟨hshared, fun _ => hfreeBd, fun h => absurd rfl h⟩

theorem Beside.fields {t : Tx} (h : Beside c t s') :
    s'.node = t.node ∧ (s'.unused = t.unused ∧ s'.freed = t.freed) ∧
      (s'.inused = t.inused ∧ s'.hw = t.hw ∧ s'.mapped = t.mapped) ∧
      s'.call = t.call ∧ s'.inusedLock = t.inusedLock := by
  have hshared := h.shared
  simp only [Tx.shared, Prod.mk.injEq] at hshared
  obtain ⟨hnode, hunused, hinused, hfreed, hmapped, hhw, hcall, hlock⟩ := hshared
  exact ⟨hnode, ⟨hunused, hfreed⟩, ⟨hinused, hhw, hmapped⟩, hcall, hlock⟩

theorem Beside.others {t : Tx} (h : Beside c t s') (hcall : t.call = s.call)
    (hfreeBd : t.freeBd = s.freeBd) (hforce : t.force = s.force)
    (hnode : ∀ n, s.nodeOf c ≠ some n → t.node n = s.node n) : Others s s' c := by
  obtain ⟨hnode', -, -, hcall', -⟩ := h.fields
  refine ⟨fun k _ => by rw [hcall', hcall], fun hc => (h.freeBd hc).trans hfreeBd,
    fun hc => (h.force hc).trans hforce, fun n hn => ?_⟩
  rw [hnode']
  exact hnode n hn

theorem Control.recycleTxBuffer {pc : RecyclePc} {r : Tx × Option RecyclePc} (hinv : Control s)
    (hc : ∀ k, .call k ≠ c) (hrec : s.recycling c = some pc)
    (hr : recycleTxBuffer s true pc = some r) (hrec' : s'.recycling c = r.2)
    (hbeside : Beside c r.1 s') : Control s' := by
  obtain ⟨hnode, hqueues, hkept, hcalls⟩ := hbeside.fields
  have hn := nodeOf_bind (s := s') hc
  have hk := skbOf_bind (s := s') hc
  rw [hrec'] at hn hk
  have hcharged : ∀ k, .call k = c → (s'.call k).pc.charged = (s.call k).pc.charged :=
    fun k h => absurd h (hc k)
  have hmine : ∀ k, .call k = c → CallOk s' k ∧ (s'.call k).pc.maps = true :=
    fun k h => absurd h (hc k)
  cases pc with
  | clear n =>
    obtain ⟨skb, hskb, rfl⟩ := Option.map_eq_some_iff.mp hr
    refine hinv.clear hrec hskb rfl (hbeside.others rfl rfl rfl ?_) hnode ⟨hn, hk⟩ ?_ hqueues
      hkept hcharged ?_ hmine
    · intro m hm
      refine setNode_of_ne ?_
      rintro rfl
      exact hm (nodeOf_recycling hrec)
    · intro m skb dma h
      rw [hrec'] at h
      cases h
      rfl
    · rw [hcalls.1, hcalls.2]
      exact hinv.lock
  | requeue n skb dma =>
    cases hr
    refine hinv.requeue hrec (hbeside.others rfl rfl rfl fun _ _ => rfl) hnode hrec' ⟨hn, hk⟩
      hqueues hkept hcharged ?_ hmine
    rw [hcalls.1, hcalls.2]
    exact hinv.lock
  | unmap skb dma =>
    cases hr
    refine hinv.stay (hbeside.others rfl rfl rfl fun _ _ => rfl) hnode ?_ ?_ hcharged hqueues.1
      hkept.1 hqueues.2 ?_ ?_ (fun k hk => absurd hk (hc k)) ?_ ?_
    · exact hn.trans (nodeOf_recycling hrec).symm
    · exact hk.trans (hinv.skbOf_recycling hrec).symm
    · rw [hcalls.1, hcalls.2]
      exact hinv.lock
    · rw [hkept.2.1]
      exact fun d hd => Or.inl hd
    · intro n skb dma h
      rw [hrec'] at h
      cases h
    · intro k hk
      refine Or.inl ⟨?_, hc k⟩
      rw [hkept.2.2] at hk
      by_cases hne : k = dma
      · subst hne
        simp at hk
      · simpa [Function.update_of_ne hne] using hk
  | free skb =>
    cases hr
    exact hinv.free hrec (hbeside.others rfl rfl rfl fun _ _ => rfl) hnode ⟨hn, hk, hrec'⟩
      hqueues hkept hcalls hc

theorem Control.walk (hinv : Control s) (hc : ∀ k, .call k ≠ c)
    (hrec : s.recycling c = none) (hrec' : s'.recycling c = none) (hbeside : Beside c s s') :
    Control s' := by
  obtain ⟨hnode, hqueues, hkept, hcall, hlock⟩ := hbeside.fields
  refine hinv.stay (hbeside.others rfl rfl rfl fun _ _ => rfl) hnode ?_ ?_
    (fun k hk => absurd hk (hc k)) hqueues.1 hkept.1 hqueues.2 ?_ ?_
    (fun k hk => absurd hk (hc k)) ?_ ?_
  · rw [nodeOf_bind hc, nodeOf_bind hc, hrec, hrec']
  · rw [skbOf_bind hc, skbOf_bind hc, hrec, hrec']
    rfl
  · rw [hcall, hlock]
    exact hinv.lock
  · rw [hkept.2.1]
    exact fun d hd => Or.inl hd
  · intro n skb dma h
    rw [hrec'] at h
    cases h
  · intro k hk
    rw [hkept.2.2] at hk
    exact Or.inl ⟨hk, hc k⟩

theorem Control.dequeInused {r : Tx × Option ℕ} (hinv : Control s) (hc : ∀ k, .call k ≠ c)
    (hrec : s.recycling c = none) (hr : dequeInused s = some r)
    (hrec' : s'.recycling c = r.2.map RecyclePc.clear) (hbeside : Beside c r.1 s') :
    Control s' := by
  unfold GmacTx.dequeInused at hr
  split at hr
  next hfree =>
    split at hr
    next hhead =>
      cases hr
      exact hinv.walk hc hrec hrec' hbeside
    next n rest hhead =>
      cases hr
      obtain ⟨hnode, ⟨hunused, hfreed⟩, ⟨hinused, hhw, hmapped⟩, hcall, hlock⟩ := hbeside.fields
      refine hinv.deque hhead (hbeside.others rfl rfl rfl fun _ _ => rfl) hnode ⟨?_, ?_⟩
        ⟨?_, ?_, hrec'⟩ ⟨hunused, hinused, hfreed, hmapped, hhw, hcall, hlock⟩ hc
      · rw [nodeOf_bind hc, hrec]
        rfl
      · rw [skbOf_bind hc, hrec]
        rfl
      · rw [nodeOf_bind hc, hrec']
        rfl
      · rw [skbOf_bind hc, hrec', hnode]
        rfl
  next => cases hr

theorem Control.refuse {pc : RecyclePc} {r : Tx × Option RecyclePc} (hinv : Control s)
    (hpc : (s.call k).pc = .recycle pc) (hr : GmacTx.recycleTxBuffer s false pc = some r) :
    Control (r.1.goto k
      (match r.2 with | some pc => .recycle pc | none => .returned netdevTxBusy)) := by
  obtain ⟨hok, hnode, hskb⟩ := hinv.idle_pc hpc
  have hrec : s.recycling (.call k) = some pc := by
    simp only [Tx.recycling, hpc]
    rfl
  unfold CallOk at hok
  rw [hpc] at hok
  cases pc with
  | clear n =>
    obtain ⟨skb, hsome, rfl⟩ := Option.map_eq_some_iff.mp hr
    have hskbk : skb = k := Option.some_inj.mp (hsome.symm.trans hok.1)
    have hothers : Others s ((s.setNode n { s.node n with
        txSkbBuff := none, txState := gmacTxIdle }).goto k
        (.recycle (.requeue n skb (s.node n).skbDataDmaAddr))) (.call k) := by
      refine others_goto rfl rfl rfl fun m hm => setNode_of_ne ?_
      rintro rfl
      rw [hpc] at hm
      exact hm rfl
    refine hinv.clear hrec hsome rfl hothers rfl ⟨?_, ?_⟩ ?_ ⟨rfl, rfl⟩ ⟨rfl, rfl, rfl⟩ ?_ ?_ ?_
    · simp only [Tx.nodeOf, goto_call]
      rfl
    · simp only [Tx.skbOf, goto_call, hskbk]
      rfl
    · intro m skb' dma h
      simp only [Tx.recycling, goto_call] at h
      cases h
      rfl
    · rintro j hj
      cases hj
      rw [goto_call, hpc]
      rfl
    · exact hinv.lock_goto rfl rfl (by rw [hpc]; rfl)
    · rintro j hj
      cases hj
      unfold CallOk
      rw [goto_call]
      exact ⟨⟨hskbk, hok.2⟩, rfl⟩
  | requeue n skb dma =>
    cases hr
    obtain ⟨rfl, rfl⟩ := hok
    refine hinv.requeue hrec (others_goto rfl rfl rfl fun _ _ => rfl) rfl ?_ ⟨?_, ?_⟩
      ⟨rfl, rfl⟩ ⟨rfl, rfl, rfl⟩ ?_ ?_ ?_
    · simp only [Tx.recycling, goto_call]
      rfl
    · simp only [Tx.nodeOf, goto_call]
      rfl
    · simp only [Tx.skbOf, goto_call]
      rfl
    · rintro j hj
      cases hj
      rw [goto_call, hpc]
      rfl
    · exact hinv.lock_goto rfl rfl (by rw [hpc]; rfl)
    · rintro j hj
      cases hj
      unfold CallOk
      rw [goto_call]
      exact ⟨⟨rfl, rfl⟩, rfl⟩
  | unmap skb dma =>
    cases hr
    exact hinv.giveBack hpc
  | free skb => exact hok.elim

theorem Control.tx (hinv : Control s) (hallowed : Orderly s (.tx k))
    (hstep : gmacTxAddBd s k = some s') : Control s' := by
  have hok := hinv.calls k
  have hlocked := hinv.lock k
  unfold CallOk at hok
  unfold gmacTxAddBd at hstep
  -- the mapping of another call, or of this one while it goes on
  have hmaps : ∀ {pc : TxPc}, pc.maps = true →
      ∀ j, s.mapped j = true → s.mapped j = true ∧ j ≠ k ∨ j = k ∧ pc.maps = true := by
    intro pc hpc j hj
    by_cases hjk : j = k
    · exact Or.inr ⟨hjk, hpc⟩
    · exact Or.inl ⟨hj, hjk⟩
  cases hpc : (s.call k).pc with
  | absent | returned _ =>
    simp only [hpc, reduceCtorEq] at hstep
  | called =>
    simp only [hpc] at hstep
    split at hstep
    · cases hstep
      exact hinv.drop hpc
    · split at hstep
      · cases hstep
        exact hinv.drop hpc
      · cases hstep
        refine hinv.advance hpc rfl rfl ?_ nofun
        unfold CallOk
        rw [goto_call]
        trivial
  | map =>
    simp only [hpc] at hstep
    cases hstep
    refine hinv.enroll (by rw [hpc]; exact ⟨rfl, rfl, rfl, rfl⟩) ?_ rfl ?_
    · unfold CallOk
      simp only [Function.update_self]
      rfl
    · intro j hj
      by_cases hjk : j = k
      · exact Or.inr ⟨hjk, rfl⟩
      · rw [Function.update_of_ne hjk] at hj
        exact Or.inl ⟨hj, hjk⟩
  | acquire =>
    have hready := hallowed hpc
    unfold Tx.ready at hready
    simp only [hpc] at hstep
    cases hunused : s.unused.head with
    | nil =>
      rw [hunused] at hready
      exact hready.elim
    | cons n rest =>
      rw [hunused] at hready
      simp only [hunused] at hstep
      cases hstep
      exact hinv.acquire hpc hunused hready
  | fill n =>
    simp only [hpc] at hstep
    cases hstep
    exact hinv.fill hpc
  | lock n =>
    simp only [hpc] at hstep
    rw [hpc] at hok
    split at hstep
    next hfree =>
      cases hstep
      refine hinv.goto rfl (by rw [hpc]; rfl) (Or.inl ⟨rfl, rfl, Or.inl hfree⟩) (fun d hd => Or.inl hd) ?_
        nofun (hmaps rfl)
      unfold CallOk
      rw [goto_call]
      exact hok.goto rfl rfl rfl
    next => cases hstep
  | bdWrite n =>
    simp only [hpc] at hstep
    rw [hpc] at hok
    split at hstep
    · cases hstep
      refine hinv.advance hpc rfl rfl ?_ nofun
      unfold CallOk
      rw [goto_call]
      exact hok.1
    · cases hstep
      refine hinv.advance hpc rfl rfl ?_ nofun
      unfold CallOk
      rw [goto_call]
      exact hok.goto rfl rfl rfl
  | word n i =>
    simp only [hpc] at hstep
    rw [hpc] at hok
    split at hstep
    · cases hstep
      refine hinv.advance hpc rfl rfl ?_ nofun
      unfold CallOk
      rw [goto_call]
      exact hok.goto rfl rfl rfl
    · cases hstep
      refine hinv.goto rfl (by rw [hpc]; rfl) (Or.inr (Or.inr ⟨by rw [hpc]; rfl, rfl⟩)) ?_ ?_ nofun (hmaps rfl)
      · intro d hd
        unfold Tx.hw at hd ⊢
        rw [← List.append_assoc, List.mem_append, List.mem_singleton] at hd
        rcases hd with hd | rfl
        · exact Or.inl hd
        · right
          rw [hpc, hok.2.2.2.1]
          rfl
      · unfold CallOk
        rw [goto_call]
        exact hok.1
  | add n =>
    simp only [hpc] at hstep
    cases hstep
    exact hinv.add hpc
  | unlock =>
    simp only [hpc] at hstep
    cases hstep
    rw [hpc] at hlocked
    refine hinv.goto rfl (by rw [hpc]; rfl) (Or.inr (Or.inl ⟨rfl, rfl, hlocked.mp rfl⟩)) (fun d hd => Or.inl hd) ?_
      nofun (hmaps rfl)
    unfold CallOk
    rw [goto_call]
    trivial
  | failUnlock n =>
    simp only [hpc] at hstep
    cases hstep
    rw [hpc] at hok hlocked
    refine hinv.goto rfl (by rw [hpc]; rfl) (Or.inr (Or.inl ⟨rfl, rfl, hlocked.mp rfl⟩)) (fun d hd => Or.inl hd) ?_
      nofun (hmaps rfl)
    unfold CallOk
    rw [goto_call]
    exact hok
  | recycle pc =>
    simp only [hpc] at hstep
    obtain ⟨r, hr, rfl⟩ := Option.map_eq_some_iff.mp hstep
    exact hinv.refuse hpc hr

theorem Control.freeBd (hinv : Control s) (hstep : gmacTxFreeBd s = some s') : Control s' := by
  have hc : ∀ k, Ctx.call k ≠ .freeBd := by simp
  have hidle : ∀ {pc : FreePc}, s.freeBd = pc → pc.recycling = none →
      s.recycling .freeBd = none := by
    intro pc hpc hrec
    simp only [Tx.recycling, hpc, hrec]
  unfold gmacTxFreeBd at hstep
  cases hpc : s.freeBd with
  | idle =>
    simp only [hpc, reduceCtorEq] at hstep
  | count =>
    simp only [hpc] at hstep
    split at hstep
    next =>
      cases hstep
      exact hinv.walk hc (hidle hpc rfl) rfl (.ofFreeBd rfl rfl)
    next => cases hstep
  | readNum limit =>
    simp only [hpc] at hstep
    cases hstep
    refine hinv.walk hc (hidle hpc rfl) ?_ (.ofFreeBd rfl rfl)
    exact (apply_ite FreePc.recycling _ _ _).trans (ite_self _)
  | loop limit count =>
    simp only [hpc] at hstep
    split at hstep
    next =>
      obtain ⟨⟨t, head⟩, hr, rfl⟩ := Option.map_eq_some_iff.mp hstep
      cases head with
      | none =>
        exact hinv.dequeInused hc (hidle hpc rfl) hr rfl (.ofFreeBd rfl rfl)
      | some n =>
        exact hinv.dequeInused hc (hidle hpc rfl) hr rfl (.ofFreeBd rfl rfl)
    next =>
      cases hstep
      exact hinv.walk hc (hidle hpc rfl) rfl (.ofFreeBd rfl rfl)
  | recycle limit count inLoop pc =>
    simp only [hpc] at hstep
    obtain ⟨⟨t, pc'⟩, hr, rfl⟩ := Option.map_eq_some_iff.mp hstep
    have hrec : s.recycling .freeBd = some pc := by
      simp only [Tx.recycling, hpc]
      rfl
    refine hinv.recycleTxBuffer hc hrec hr ?_ (.ofFreeBd rfl rfl)
    cases pc' with
    | none => cases inLoop <;> rfl
    | some pc' => rfl
  | head =>
    simp only [hpc] at hstep
    split at hstep
    next =>
      cases hstep
      exact hinv.walk hc (hidle hpc rfl) rfl (.ofFreeBd rfl rfl)
    next =>
      cases hstep
      refine hinv.walk hc (hidle hpc rfl) ?_ (.ofFreeBd rfl rfl)
      simp only [Tx.recycling]
      split <;> rfl
  | last =>
    simp only [hpc] at hstep
    obtain ⟨⟨t, head⟩, hr, rfl⟩ := Option.map_eq_some_iff.mp hstep
    cases head with
    | none =>
      exact hinv.dequeInused hc (hidle hpc rfl) hr rfl (.ofFreeBd rfl rfl)
    | some n =>
      exact hinv.dequeInused hc (hidle hpc rfl) hr rfl (.ofFreeBd rfl rfl)
  | exit =>
    simp only [hpc] at hstep
    cases hstep
    exact hinv.walk hc (hidle hpc rfl) rfl (.ofFreeBd rfl rfl)

theorem Control.force (hinv : Control s) (hstep : gmacTxFreeAllBdForce s = some s') :
    Control s' := by
  have hc : ∀ k, Ctx.call k ≠ .force := by simp
  have hidle : ∀ {pc : ForcePc}, s.force = pc → pc.recycling = none →
      s.recycling .force = none := by
    intro pc hpc hrec
    simp only [Tx.recycling, hpc, hrec]
  unfold gmacTxFreeAllBdForce at hstep
  cases hpc : s.force with
  | idle =>
    simp only [hpc, reduceCtorEq] at hstep
  | check =>
    simp only [hpc] at hstep
    split at hstep
    next =>
      cases hstep
      refine hinv.walk hc (hidle hpc rfl) ?_ (.ofForce rfl rfl)
      simp only [Tx.recycling]
      split <;> rfl
    next => cases hstep
  | deque =>
    simp only [hpc] at hstep
    obtain ⟨⟨t, head⟩, hr, rfl⟩ := Option.map_eq_some_iff.mp hstep
    cases head with
    | none =>
      exact hinv.dequeInused hc (hidle hpc rfl) hr rfl (.ofForce rfl rfl)
    | some n =>
      exact hinv.dequeInused hc (hidle hpc rfl) hr rfl (.ofForce rfl rfl)
  | recycle pc =>
    simp only [hpc] at hstep
    obtain ⟨⟨t, pc'⟩, hr, rfl⟩ := Option.map_eq_some_iff.mp hstep
    have hrec : s.recycling .force = some pc := by
      simp only [Tx.recycling, hpc]
      rfl
    refine hinv.recycleTxBuffer hc hrec hr ?_ (.ofForce rfl rfl)
    cases pc' with
    | none => rfl
    | some pc' => rfl

theorem Control.congr (hinv : Control s)
    (hskb : ∀ n, (s'.node n).txSkbBuff = (s.node n).txSkbBuff)
    (hqueues : s'.unused = s.unused ∧ s'.inused = s.inused ∧ s'.inusedLock = s.inusedLock)
    (hcall : s'.call = s.call) (hrec : s'.freeBd.recycling = s.freeBd.recycling ∧
      s'.force.recycling = s.force.recycling) (hfreed : s'.freed = s.freed)
    (hmapped : s'.mapped = s.mapped) (hcalls : ∀ k, CallOk s' k) : Control s' := by
  obtain ⟨hunused, hinused, hlock⟩ := hqueues
  have hnodes : s'.nodeOf = s.nodeOf := by
    funext d
    cases d <;> simp only [Tx.nodeOf, hcall, hrec.1, hrec.2]
  have hrecs : s'.recycling = s.recycling := by
    funext d
    cases d <;> simp only [Tx.recycling, hcall, hrec.1, hrec.2]
  have hskbs : s'.skbOf = s.skbOf := by
    funext d
    cases d with
    | call k => simp only [Tx.skbOf, hcall]
    | freeBd | force =>
      simp only [Tx.skbOf, hrec.1, hrec.2]
      exact recycling_skb_congr fun n _ => hskb n
  have hqueued : s'.queued = s.queued := queued_congr (fun n _ => hskb n) (by rw [hinused])
  refine ⟨?_, ?_, ?_, ?_, hcalls, ?_, ?_, ?_, ?_⟩
  · rw [hunused, hinused, hnodes]
    exact hinv.nodes
  · rw [hfreed, hqueued, hskbs, hcall]
    exact hinv.skbs
  · rw [hinused]
    exact hinv.count
  · rw [hcall, hlock]
    exact hinv.lock
  · rw [hinused]
    intro n hn
    rw [hskb n]
    exact hinv.content n hn
  · intro n k hn
    rw [hskb n] at hn
    rw [hinused, hnodes, hskbs]
    exact hinv.fresh n k hn
  · intro d n skb dma h
    rw [hrecs] at h
    rw [hskb n]
    exact hinv.cleared d n skb dma h
  · rw [hmapped, hcall]
    exact hinv.mapped

theorem Control.congr_node (hinv : Control s) (hnode : s'.node = s.node)
    (hqueues : s'.unused = s.unused ∧ s'.inused = s.inused ∧ s'.inusedLock = s.inusedLock)
    (hcall : s'.call = s.call) (hrec : s'.freeBd.recycling = s.freeBd.recycling ∧
      s'.force.recycling = s.force.recycling) (hfreed : s'.freed = s.freed)
    (hmapped : s'.mapped = s.mapped) (hhw : s'.hw = s.hw) : Control s' := by
  refine hinv.congr (fun n => by rw [hnode]) hqueues hcall hrec hfreed hmapped fun k => ?_
  refine CallOk.frame (hinv.calls k) (by rw [hcall]) (fun n _ => by rw [hnode]) ?_
  rw [hhw]
  exact fun n _ d hd _ => hd

theorem Control.finish {p : PcuCmd} (hinv : Control s) (hfetched : s.fetched = some p) :
    Control { s.setNode p.clearAddr { s.node p.clearAddr with txState := gmacTxEnd } with
      fetched := none
      finished := Function.update s.finished p.pktAddr true } := by
  generalize hs' :
    ({ s.setNode p.clearAddr { s.node p.clearAddr with txState := gmacTxEnd } with
        fetched := none
        finished := Function.update s.finished p.pktAddr true } : Tx) = s'
  have hmem : p ∈ s.hw := by
    unfold Tx.hw
    rw [hfetched]
    exact List.mem_cons_self
  have hhw : ∀ d ∈ s'.hw, d ∈ s.hw := by
    intro d hd
    rw [← hs'] at hd
    exact List.mem_append_right _ hd
  have hnode : ∀ m, m ≠ p.clearAddr → s'.node m = s.node m := by
    intro m hm
    rw [← hs']
    exact setNode_of_ne hm
  have hcontent : ∀ m, (s'.node m).txSkbBuff = (s.node m).txSkbBuff ∧
      (s'.node m).skbDataDmaAddr = (s.node m).skbDataDmaAddr := by
    intro m
    by_cases hm : m = p.clearAddr
    · rw [← hs', hm]
      show ((s.setNode p.clearAddr _).node p.clearAddr).txSkbBuff = _ ∧
        ((s.setNode p.clearAddr _).node p.clearAddr).skbDataDmaAddr = _
      rw [setNode_self]
      exact ⟨rfl, rfl⟩
    · rw [hnode m hm]
      exact ⟨rfl, rfl⟩
  have hcall : s'.call = s.call := by rw [← hs']; rfl
  have hfilled : ∀ k n, Filled s k n → Filled s' k n := by
    intro k n h
    unfold Filled
    rw [(hcontent n).1, (hcontent n).2]
    exact h
  refine hinv.congr (fun n => (hcontent n).1) ?_ hcall ?_ ?_ ?_ ?_
  · rw [← hs']
    exact ⟨rfl, rfl, rfl⟩
  · rw [← hs']
    exact ⟨rfl, rfl⟩
  · rw [← hs']
    rfl
  · rw [← hs']
    rfl
  intro k
  have hok := hinv.calls k
  unfold CallOk at hok ⊢
  rw [hcall]
  cases hpc : (s.call k).pc with
  | absent | called | map | unlock | returned _ => trivial
  | acquire =>
    rw [hpc] at hok
    exact hok
  | fill n =>
    rw [hpc] at hok
    exact ⟨hok.1, fun d hd => hok.2 d (hhw d hd)⟩
  | lock n | bdWrite n | word n _ =>
    rw [hpc] at hok
    refine Writing.frame hok (by rw [hcall]) (hnode n ?_) fun d hd _ => hhw d hd
    rintro rfl
    exact hok.2.2.2.2 p hmem rfl
  | add n | failUnlock n =>
    rw [hpc] at hok
    exact hfilled k n hok
  | recycle pc =>
    rw [hpc] at hok
    cases pc with
    | clear n => exact hfilled k n hok
    | requeue _ _ _ | unmap _ _ | free _ => exact hok

theorem Control.next {a : Action} (hinv : Control s) (hallowed : Orderly s a)
    (hstep : GmacTx.next s a = some s') : Control s' := by
  unfold GmacTx.next at hstep
  cases a with
  | xmit k skb =>
    simp only at hstep
    split at hstep
    next hpc =>
      cases hstep
      refine hinv.enroll (by rw [hpc]; exact ⟨rfl, rfl, rfl, rfl⟩) ?_ rfl ?_
      · unfold CallOk
        simp only [Function.update_self]
      · intro j hj
        refine Or.inl ⟨hj, ?_⟩
        rintro rfl
        have hmaps := hinv.mapped j hj
        rw [hpc] at hmaps
        cases hmaps
    next => cases hstep
  | tx k => exact hinv.tx hallowed hstep
  | runFreeBd =>
    simp only at hstep
    split at hstep
    next hidle =>
      cases hstep
      exact hinv.congr_node rfl ⟨rfl, rfl, rfl⟩ rfl ⟨by rw [hidle]; rfl, rfl⟩ rfl rfl rfl
    next => cases hstep
  | freeBd => exact hinv.freeBd hstep
  | runForce =>
    simp only at hstep
    split at hstep
    next hidle =>
      cases hstep
      exact hinv.congr_node rfl ⟨rfl, rfl, rfl⟩ rfl ⟨rfl, by rw [hidle]; rfl⟩ rfl rfl rfl
    next => cases hstep
  | force => exact hinv.force hstep
  | fetch =>
    simp only at hstep
    split at hstep
    next p rest hfetched hcff =>
      cases hstep
      refine hinv.congr_node rfl ⟨rfl, rfl, rfl⟩ rfl ⟨rfl, rfl⟩ rfl rfl ?_
      unfold Tx.hw
      rw [hfetched, hcff]
      rfl
    next => cases hstep
  | finish =>
    obtain ⟨p, hp, rfl⟩ := Option.map_eq_some_iff.mp hstep
    exact hinv.finish hp
  | setOpened opened =>
    cases hstep
    exact hinv.congr_node rfl ⟨rfl, rfl, rfl⟩ rfl ⟨rfl, rfl⟩ rfl rfl rfl

end HiMpu.GmacTx
