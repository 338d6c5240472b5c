import HiMpu.Gmac
import HiMpu.RingQueue

/-!
# The receive ring

The buffers that hold a frame, followed by those that wait for one, are all
buffers of the port in ring order, beginning with the one the driver looks at
next.  One status bit stands for all frames that have arrived.
-/

namespace HiMpu.Gmac

def descLen (buffer : Mem) : ℕ :=
  (buffer gmacDescPktLenHigh).toNat * 256 + (buffer gmacDescPktLenLow).toNat

def HoldsFrame (buffer : Mem) (frame : List UInt8) : Prop :=
  descLen buffer = frame.length ∧ buffer.bytes rxDataOffset frame.length = frame

theorem fillBuffer_holds (buffer : Mem) {frame : List UInt8} (hlen : frame.length ≤ feMaxPktLen) :
    HoldsFrame (fillBuffer buffer frame) frame := by
  unfold feMaxPktLen at hlen
  let len : List UInt8 := [UInt8.ofNat (frame.length / 256), UInt8.ofNat frame.length]
  have hhigh : fillBuffer buffer frame gmacDescPktLenHigh = UInt8.ofNat (frame.length / 256) := by
    unfold fillBuffer
    rw [Mem.write_outside (Or.inl (by decide))]
    exact Mem.write_inside (a := gmacDescPktLenHigh) (i := 0) (l := len) (by simp [len])
  have hlow : fillBuffer buffer frame gmacDescPktLenLow = UInt8.ofNat frame.length := by
    unfold fillBuffer
    rw [Mem.write_outside (Or.inl (by decide))]
    exact Mem.write_inside (a := gmacDescPktLenHigh) (i := 1) (l := len) (by simp [len])
  refine ⟨?_, Mem.bytes_write_same ..⟩
  unfold descLen
  rw [hhigh, hlow, UInt8.toNat_ofNat', UInt8.toNat_ofNat']
  omega

structure RxView where
  rxDataNum : ℕ
  statRxFrm : Bool
  rxCff : List ℕ
  rxBuffer : ℕ → Mem
  arrived : List (List UInt8)
  pending : List (ℕ × List UInt8)
  consumed : List (ℕ × List UInt8)
  reposted : List ℕ
  delivered : List (List UInt8)

def Port.rx (p : Port) : RxView :=
  ⟨p.dev.rxDataNum, p.mac.statRxFrm, p.mac.rxCff, p.mac.rxBuffer, p.log.arrived, p.log.pending,
    p.log.consumed, p.log.reposted, p.log.delivered⟩

def deliverable (frame : List UInt8) : Bool :=
  frame.length < rxBufferDefaultSize - rxDataOffset

def ringOrder (num : ℕ) : List ℕ := (List.range chipRxFifoNum).rotate num

structure RxAccount (v : RxView) : Prop where
  arrivals : v.arrived = v.consumed.map Prod.snd ++ v.pending.map Prod.snd
  deliveries : v.delivered = (v.consumed.map Prod.snd).filter deliverable
  reposts : v.reposted = v.consumed.map Prod.fst

structure RxRing (v : RxView) : Prop extends RxAccount v where
  num : v.rxDataNum < chipRxFifoNum
  order : v.pending.map Prod.fst ++ v.rxCff = ringOrder v.rxDataNum
  stat : v.statRxFrm = true → v.pending ≠ []
  content : ∀ slot frame, (slot, frame) ∈ v.pending → HoldsFrame (v.rxBuffer slot) frame

def RxView.arrive (v : RxView) (slot : ℕ) (rest : List ℕ) (frame : List UInt8) : RxView :=
  { v with
    statRxFrm := true
    rxCff := rest
    rxBuffer := Function.update v.rxBuffer slot (fillBuffer (v.rxBuffer slot) frame)
    arrived := v.arrived ++ [frame]
    pending := v.pending ++ [(slot, frame)] }

def RxView.recycle (v : RxView) (frame : List UInt8) (rest : List (ℕ × List UInt8)) : RxView :=
  { v with
    rxDataNum := (v.rxDataNum + 1) % chipRxFifoNum
    statRxFrm := false
    rxCff := v.rxCff ++ [v.rxDataNum]
    rxBuffer := Function.update v.rxBuffer v.rxDataNum
      ((v.rxBuffer v.rxDataNum).fill 0 cpuCacheLineSize 0)
    pending := rest
    consumed := v.consumed ++ [(v.rxDataNum, frame)]
    reposted := v.reposted ++ [v.rxDataNum]
    delivered := if deliverable frame then v.delivered ++ [frame] else v.delivered }

theorem RxRing.nodup {v : RxView} (hring : RxRing v) :
    (v.pending.map Prod.fst ++ v.rxCff).Nodup := by
  rw [hring.order]
  exact List.nodup_rotate.mpr List.nodup_range

theorem RxRing.head {v : RxView} (hring : RxRing v) {slot : ℕ} {frame : List UInt8}
    {rest : List (ℕ × List UInt8)} (hpending : v.pending = (slot, frame) :: rest) :
    slot = v.rxDataNum := by
  have horder := hring.order
  rw [hpending, ringOrder, rotate_range_cons hring.num, List.map_cons, List.cons_append] at horder
  exact (List.cons.inj horder).1

theorem RxRing.arrive {v : RxView} (hring : RxRing v) {slot : ℕ} {rest : List ℕ}
    {frame : List UInt8} (hcff : v.rxCff = slot :: rest) (hlen : frame.length ≤ feMaxPktLen) :
    RxRing (v.arrive slot rest frame) := by
  have hfresh : ∀ f, (slot, f) ∉ v.pending := by
    intro f hmem
    have hnodup := hring.nodup
    rw [hcff, List.nodup_append] at hnodup
    exact hnodup.2.2 slot (List.mem_map_of_mem hmem) slot List.mem_cons_self rfl
  refine ⟨⟨?_, hring.deliveries, hring.reposts⟩, hring.num, ?_, ?_, ?_⟩
  · simp only [RxView.arrive, hring.arrivals, List.map_append, List.map_cons, List.map_nil,
      List.append_assoc]
  · have horder := hring.order
    rw [hcff] at horder
    simpa [RxView.arrive] using horder
  · intro _
    simp [RxView.arrive]
  · intro slot' frame' hmem
    simp only [RxView.arrive, List.mem_append, List.mem_singleton, Prod.mk.injEq] at hmem ⊢
    rcases hmem with hold | ⟨rfl, rfl⟩
    · have hne : slot' ≠ slot := by
        rintro rfl
        exact hfresh frame' hold
      rw [Function.update_of_ne hne]
      exact hring.content slot' frame' hold
    · rw [Function.update_self]
      exact fillBuffer_holds _ hlen

theorem ringOrder_succ {num : ℕ} {rest : List ℕ} (horder : num :: rest = ringOrder num) :
    rest ++ [num] = ringOrder ((num + 1) % chipRxFifoNum) :=
  rotate_range_succ horder

theorem RxRing.recycle {v : RxView} (hring : RxRing v) {frame : List UInt8}
    {rest : List (ℕ × List UInt8)} (hpending : v.pending = (v.rxDataNum, frame) :: rest) :
    RxRing (v.recycle frame rest) := by
  have horder := hring.order
  rw [hpending, List.map_cons, List.cons_append] at horder
  refine ⟨⟨?_, ?_, ?_⟩, Nat.mod_lt _ (by decide), ?_, ?_, ?_⟩
  · simp [RxView.recycle, hring.arrivals, hpending]
  · simp only [RxView.recycle, hring.deliveries, List.map_append, List.filter_append]
    by_cases hfit : deliverable frame
    · simp [hfit]
    · simp [hfit]
  · simp [RxView.recycle, hring.reposts]
  · simp only [RxView.recycle]
    rw [← ringOrder_succ horder, List.append_assoc]
  · intro h
    cases h
  · intro slot frame' hmem
    have hmem : (slot, frame') ∈ rest := hmem
    -- The recycled buffer is not among those that still hold a frame.
    have hne : slot ≠ v.rxDataNum := by
      rintro rfl
      have hnodup := hring.nodup
      rw [hpending, List.map_cons, List.cons_append, List.nodup_cons] at hnodup
      exact hnodup.1 (List.mem_append_left _ (List.mem_map.mpr ⟨_, hmem, rfl⟩))
    simp only [RxView.recycle, Function.update_of_ne hne]
    exact hring.content slot frame' (by rw [hpending]; exact List.mem_cons_of_mem _ hmem)

theorem receiveData_frame {p : Port} (hring : RxRing p.rx) {slot : ℕ} {frame : List UInt8}
    {rest : List (ℕ × List UInt8)} (hpending : p.log.pending = (slot, frame) :: rest)
    (hstat : p.mac.statRxFrm = true) :
    (frame.length = 0 →
      (gmacNetReceiveData p).1.rx = { p.rx with statRxFrm := false } ∧
        (gmacNetReceiveData p).2 = ⟨bmFail, some 0, none⟩) ∧
    (frame.length ≠ 0 →
      (gmacNetReceiveData p).1.rx = p.rx.recycle frame rest ∧
        (gmacNetReceiveData p).2 =
          if deliverable frame then ⟨bmOk, some frame.length, some frame⟩
          else ⟨bmFail, some frame.length, none⟩) := by
  obtain rfl : slot = p.dev.rxDataNum := hring.head hpending
  obtain ⟨hlen, hbytes⟩ := hring.content p.dev.rxDataNum frame (by
    show _ ∈ p.log.pending
    rw [hpending]
    exact List.mem_cons_self)
  have hfresh : p.dev.rxDataNum ∉ rest.map Prod.fst := by
    have hnodup := hring.nodup
    rw [show p.rx.pending = _ from hpending, List.map_cons, List.cons_append,
      List.nodup_cons] at hnodup
    exact fun hmem => hnodup.1 (List.mem_append_left _ hmem)
  obtain ⟨hkeep, hdrop⟩ := filter_key_head (b := frame) hfresh
  have hdesc : (p.mac.rxBuffer p.dev.rxDataNum gmacDescPktLenHigh).toNat * 256 +
      (p.mac.rxBuffer p.dev.rxDataNum gmacDescPktLenLow).toNat = frame.length := hlen
  have hdata : (p.mac.rxBuffer p.dev.rxDataNum).bytes rxDataOffset frame.length = frame := hbytes
  unfold gmacNetReceiveData
  simp only [hstat, if_true, hdesc, hdata]
  refine ⟨?_, ?_⟩
  · intro hzero
    simp only [hzero, if_true]
    exact ⟨rfl, trivial⟩
  · intro hpos
    simp only [hpos, if_false]
    by_cases hfit : deliverable frame = true
    · have hsmall : ¬ rxBufferDefaultSize - rxDataOffset ≤ frame.length :=
        not_le.mpr (of_decide_eq_true hfit)
      simp only [hsmall, if_false, hfit, if_true]
      refine ⟨?_, trivial⟩
      simp only [Port.rx, Port.deliver, Gmac.recycle, RxView.recycle, hpending, hkeep, hdrop, hfit,
        if_true]
    · have hlarge : rxBufferDefaultSize - rxDataOffset ≤ frame.length :=
        not_lt.mp fun h => hfit (decide_eq_true h)
      simp only [hlarge, if_true, if_neg hfit]
      refine ⟨?_, trivial⟩
      simp only [Port.rx, Gmac.recycle, RxView.recycle, hpending, hkeep, hdrop, if_neg hfit]

def RxEmpty (v : RxView) : Prop :=
  v.rxCff = [] ∧ v.pending = [] ∧ v.statRxFrm = false ∧ RxAccount v

structure RxInv (p : Port) : Prop where
  ring : (RxRing p.rx ∧ p.dev.ringInit = true) ∨ (RxEmpty p.rx ∧ p.dev.initDone = false)
  start : p.dev.initDone = false → p.dev.rxDataNum = 0

theorem rxInv_powerOn (eth : ℕ) : RxInv (powerOn.port eth) where
  ring := .inr ⟨⟨rfl, rfl, rfl, ⟨rfl, rfl, rfl⟩⟩, rfl⟩
  start _ := rfl

variable {mayArrive : List (ℕ × List UInt8) → List UInt8 → Prop}
  {maySend : List (ℕ × ℕ) → Prop} {p p' : Port}

inductive RxMove (mayArrive : List (ℕ × List UInt8) → List UInt8 → Prop) (p p' : Port) : Prop
  | same (hrx : p'.rx = p.rx) (hdone : p'.dev.initDone = p.dev.initDone)
      (hrings : p'.dev.ringInit = p.dev.ringInit)
  | receive (hinit : p.dev.initDone = true) (hstep : p' = (gmacNetReceiveData p).1)
  | arrive (slot : ℕ) (rest : List ℕ) (frame : List UInt8) (hcff : p.mac.rxCff = slot :: rest)
      (hlen : frame.length ≤ feMaxPktLen) (hmay : mayArrive p.log.pending frame)
      (hrx : p'.rx = p.rx.arrive slot rest frame) (hdone : p'.dev.initDone = p.dev.initDone)
      (hrings : p'.dev.ringInit = p.dev.ringInit)
  | clear (buffer : ℕ → Mem) (hunset : p.dev.ringInit = false)
      (hrx : p'.rx = { p.rx with rxBuffer := buffer })
      (hdone : p'.dev.initDone = p.dev.initDone)
  | reset (posted : List ℕ) (hnot : p.dev.initDone = false)
      (hrx : p'.rx = ⟨p.dev.rxDataNum, false, posted, p.mac.rxBuffer, [], [], [], [], []⟩)
      (hposted : (posted = ringOrder 0 ∧ p'.dev.ringInit = true) ∨
        (posted = [] ∧ p'.dev.initDone = false))

theorem ethInit_rx (p : Port) (env : InitEnv) :
    (gmacEthInit p env).1.rx = ⟨p.dev.rxDataNum, false,
      if (gmacEthInit p env).2 = bmOk then ringOrder 0 else [], p.mac.rxBuffer,
      [], [], [], [], []⟩ := by
  unfold gmacEthInit
  simp only
  split
  · rfl
  · split <;> rfl

theorem PortStep.rxMove (hstep : PortStep mayArrive maySend p p') : RxMove mayArrive p p' := by
  cases hstep with
  | relink => exact .same rfl rfl rfl
  | program => exact .same rfl rfl rfl
  | send packet =>
    unfold gmacNetSendData
    simp only
    split <;> exact .same rfl rfl rfl
  | receive hinit => exact .receive hinit rfl
  | address => exact .same rfl rfl rfl
  | initRing =>
    unfold gmacInitRing
    split
    next => exact .same rfl rfl rfl
    next hset => exact .clear _ (by simpa using hset) rfl rfl
  | phyInit phyId =>
    unfold gmacPhyInit
    split <;> exact .same rfl rfl rfl
  | failedInit env hnot hfail =>
    have hrx := ethInit_rx p env
    rw [if_neg hfail] at hrx
    refine .reset [] hnot hrx (.inr ⟨rfl, ?_⟩)
    rw [ethInit_dev]
    exact hnot
  | ethInit env done hring hnot hok =>
    have hrx := ethInit_rx p env
    rw [if_pos hok] at hrx
    refine .reset (ringOrder 0) hnot hrx (.inl ⟨rfl, ?_⟩)
    simp only [ethInit_dev]
    exact hring
  | arrive _ frame harrive hmay =>
    unfold Port.arrive at harrive
    split at harrive
    · cases harrive
    next hlen =>
      split at harrive
      · cases harrive
      next slot rest hcff =>
        cases harrive
        exact .arrive slot rest frame hcff (not_lt.mp hlen) hmay rfl rfl rfl
  | fetch _ hfetch =>
    unfold Port.fetch at hfetch
    split at hfetch
    · cases hfetch
    · cases hfetch
      exact .same rfl rfl rfl

theorem receiveData_dev (p : Port) :
    (gmacNetReceiveData p).1.dev.initDone = p.dev.initDone ∧
      (gmacNetReceiveData p).1.dev.ringInit = p.dev.ringInit := by
  unfold gmacNetReceiveData
  simp only
  repeat' split
  all_goals exact ⟨rfl, rfl⟩

theorem receiveData_quiet (hstat : p.mac.statRxFrm = false) :
    gmacNetReceiveData p = (p, ⟨bmFail, none, none⟩) := by
  unfold gmacNetReceiveData
  simp only [hstat, Bool.false_eq_true, if_false]

theorem RxInv.ring_of_init (hinv : RxInv p) (hinit : p.dev.initDone = true) :
    RxRing p.rx ∧ p.dev.ringInit = true := by
  rcases hinv.ring with hring | ⟨-, hnot⟩
  · exact hring
  · rw [hinit] at hnot
    cases hnot

theorem RxRing.receive (hring : RxRing p.rx) : RxRing (gmacNetReceiveData p).1.rx := by
  by_cases hstat : p.mac.statRxFrm = true
  · cases hpending : p.log.pending with
    | nil => exact absurd hpending (hring.stat hstat)
    | cons e rest =>
      obtain ⟨slot, frame⟩ := e
      obtain ⟨hzero, hpos⟩ := receiveData_frame hring hpending hstat
      by_cases hlen : frame.length = 0
      · rw [(hzero hlen).1]
        refine ⟨⟨hring.arrivals, hring.deliveries, hring.reposts⟩, hring.num, hring.order, ?_,
          hring.content⟩
        intro h
        cases h
      · rw [(hpos hlen).1]
        obtain rfl : slot = p.dev.rxDataNum := hring.head hpending
        exact hring.recycle hpending
  · rw [receiveData_quiet (by simpa using hstat)]
    exact hring

theorem RxInv.step (hinv : RxInv p) (hstep : PortStep mayArrive maySend p p') : RxInv p' := by
  cases hstep.rxMove with
  | same hrx hdone hrings =>
    refine ⟨?_, ?_⟩
    · rw [hrx, hdone, hrings]
      exact hinv.ring
    · rw [hdone, show p'.dev.rxDataNum = p.dev.rxDataNum from congrArg RxView.rxDataNum hrx]
      exact hinv.start
  | receive hinit hp =>
    subst hp
    obtain ⟨hring, hrings⟩ := hinv.ring_of_init hinit
    obtain ⟨hdone, hrings'⟩ := receiveData_dev p
    refine ⟨.inl ⟨hring.receive, hrings'.trans hrings⟩, ?_⟩
    rw [hdone, hinit]
    intro h
    cases h
  | arrive slot rest frame hcff hlen _ hrx hdone hrings =>
    refine ⟨?_, ?_⟩
    · rcases hinv.ring with ⟨hring, hset⟩ | ⟨hempty, -⟩
      · exact .inl ⟨hrx ▸ hring.arrive hcff hlen, hrings.trans hset⟩
      · have hnil : p.mac.rxCff = [] := hempty.1
        rw [hnil] at hcff
        cases hcff
    · rw [hdone, show p'.dev.rxDataNum = p.dev.rxDataNum from congrArg RxView.rxDataNum hrx]
      exact hinv.start
  | clear buffer hunset hrx hdone =>
    refine ⟨?_, ?_⟩
    · rcases hinv.ring with ⟨-, hset⟩ | ⟨hempty, hnot⟩
      · rw [hset] at hunset
        cases hunset
      · refine .inr ⟨?_, hdone.trans hnot⟩
        rw [hrx]
        exact ⟨hempty.1, hempty.2.1, hempty.2.2.1, hempty.2.2.2.arrivals,
          hempty.2.2.2.deliveries, hempty.2.2.2.reposts⟩
    · rw [hdone, show p'.dev.rxDataNum = p.dev.rxDataNum from congrArg RxView.rxDataNum hrx]
      exact hinv.start
  | reset posted hnot hrx hposted =>
    have hnum : p'.dev.rxDataNum = 0 :=
      (congrArg RxView.rxDataNum hrx).trans (hinv.start hnot)
    refine ⟨?_, fun _ => hnum⟩
    rw [hrx, hinv.start hnot]
    rcases hposted with ⟨rfl, hset⟩ | ⟨rfl, hdone⟩
    · refine .inl ⟨⟨⟨rfl, rfl, rfl⟩, Nat.zero_lt_two, rfl, ?_, ?_⟩, hset⟩
      · intro h
        cases h
      · intro slot frame hmem
        cases hmem
    · exact .inr ⟨⟨rfl, rfl, rfl, rfl, rfl, rfl⟩, hdone⟩

/-- A frame arrives when no other is left, and the driver can deliver it. -/
def alone (pending : List (ℕ × List UInt8)) (frame : List UInt8) : Prop :=
  pending = [] ∧ 0 < frame.length ∧ deliverable frame = true

instance (pending : List (ℕ × List UInt8)) (frame : List UInt8) :
    Decidable (alone pending frame) :=
  inferInstanceAs (Decidable (_ ∧ _ ∧ _))

/-- The status bit is set whenever a frame is left, and that frame is deliverable. -/
def RxSingle (v : RxView) : Prop :=
  v.pending = [] ∨
    (v.statRxFrm = true ∧
      ∃ slot frame, v.pending = [(slot, frame)] ∧ 0 < frame.length ∧ deliverable frame = true)

theorem RxSingle.step (hinv : RxInv p) (hsingle : RxSingle p.rx)
    (hstep : PortStep alone maySend p p') : RxSingle p'.rx := by
  cases hstep.rxMove with
  | same hrx => exact hrx ▸ hsingle
  | receive hinit hp =>
    subst hp
    obtain ⟨hring, -⟩ := hinv.ring_of_init hinit
    rcases hsingle with hnone | ⟨hstat, slot, frame, hpending, hpos, -⟩
    · have hquiet : p.mac.statRxFrm = false := by
        by_contra hset
        exact hring.stat ((Bool.not_eq_false _).mp hset) hnone
      rw [receiveData_quiet hquiet]
      exact .inl hnone
    · rw [((receiveData_frame hring hpending hstat).2 (by omega)).1]
      exact .inl rfl
  | arrive slot rest frame _ _ hmay hrx =>
    obtain ⟨hnone, hpos, hfit⟩ := hmay
    rw [hrx]
    refine .inr ⟨rfl, slot, frame, ?_, hpos, hfit⟩
    simp only [RxView.arrive, show p.rx.pending = [] from hnone, List.nil_append]
  | clear buffer _ hrx => exact hrx ▸ hsingle
  | reset posted _ hrx =>
    rw [hrx]
    exact .inl rfl

theorem RxInv.account (hinv : RxInv p) : RxAccount p.rx := by
  rcases hinv.ring with ⟨hring, -⟩ | ⟨hempty, -⟩
  · exact hring.toRxAccount
  · exact hempty.2.2.2

theorem RxInv.index (hinv : RxInv p) {slot : ℕ} {frame : List UInt8}
    {rest : List (ℕ × List UInt8)} (hpending : p.log.pending = (slot, frame) :: rest) :
    slot = p.dev.rxDataNum := by
  rcases hinv.ring with ⟨hring, -⟩ | ⟨hempty, -⟩
  · exact hring.head hpending
  · have hnil : p.log.pending = [] := hempty.2.1
    rw [hnil] at hpending
    cases hpending

def OneByOne (B : Board) (eth : ℕ) : State → Action → Prop :=
  Meets B alone (fun _ => True) eth

instance (B : Board) (eth : ℕ) (s : State) (a : Action) : Decidable (OneByOne B eth s a) :=
  inferInstanceAs (Decidable (Meets ..))

theorem rxInv_of_reachable {B : Board} {s : State} (hreach : (system B).Reachable s) (eth : ℕ) :
    RxInv (s.port eth) := by
  have hall : ∀ s a, Meets B (fun _ _ => True) (fun _ => True) eth s a := by
    intro s a
    cases a <;> simp only [Meets, implies_true]
  exact port_invariant (hreach.restrict_of_forall hall) (rxInv_powerOn eth)
    fun _ _ hinv hstep => hinv.step hstep

theorem rxSingle_of_reachable {B : Board} {s : State} {eth : ℕ}
    (hreach : ((system B).restrict (OneByOne B eth)).Reachable s) : RxSingle (s.port eth).rx := by
  have hboth := port_invariant (I := fun p => RxInv p ∧ RxSingle p.rx) hreach
    ⟨rxInv_powerOn eth, .inl rfl⟩
    fun _ _ hinv hstep => ⟨hinv.1.step hstep, hinv.2.step hinv.1 hstep⟩
  exact hboth.2

def ReceiveReaches (B : Board) (s : State) (eth : ℕ) (args : Bool) (env : CallEnv) : Prop :=
  receiveAccepted B s eth args = true ∧
    (gmacUpdateSpeedDuplex s eth env.reading).2 = bmOk ∧ env.semOk = true

def Delivers (B : Board) (s : State) (eth : ℕ) (args : Bool) (env : CallEnv)
    (frame : List UInt8) : Prop :=
  (bmNetReceive B s eth args env).2 = ⟨bmOk, some frame.length, some frame⟩

theorem update_rx (s : State) (eth : ℕ) (r : PhyReading) :
    ((gmacUpdateSpeedDuplex s eth r).1.port eth).rx = (s.port eth).rx := by
  unfold gmacUpdateSpeedDuplex
  split
  next => rfl
  next =>
    simp only
    split <;> simp only [State.setPort, Function.update_self] <;> rfl

theorem bmNetReceive_of_reaches {B : Board} {s : State} {eth : ℕ} {args : Bool} {env : CallEnv}
    (hreaches : ReceiveReaches B s eth args env) :
    (bmNetReceive B s eth args env).2 =
      (gmacNetReceiveData ((gmacUpdateSpeedDuplex s eth env.reading).1.port eth)).2 := by
  obtain ⟨haccepted, hok, hsem⟩ := hreaches
  unfold bmNetReceive
  simp only [haccepted, hok, hsem, Bool.not_true, Bool.false_eq_true, if_false, ne_eq,
    not_true_eq_false]

theorem delivers_iff {B : Board} {s : State} {eth : ℕ} {args : Bool} {env : CallEnv}
    (hreach : (system B).Reachable s) (hreaches : ReceiveReaches B s eth args env) {slot : ℕ}
    {frame : List UInt8} {rest : List (ℕ × List UInt8)}
    (hpending : (s.port eth).log.pending = (slot, frame) :: rest) (hframe : frame ≠ []) :
    Delivers B s eth args env frame ↔
      (s.port eth).mac.statRxFrm = true ∧ deliverable frame = true := by
  have hinit : (s.port eth).dev.initDone = true := by
    have haccepted := hreaches.1
    simp only [receiveAccepted, Bool.and_eq_true] at haccepted
    exact haccepted.1.1.2
  have hrx := update_rx s eth env.reading
  have hring := ((rxInv_of_reachable hreach eth).ring_of_init hinit).1
  rw [← hrx] at hring
  unfold Delivers
  rw [bmNetReceive_of_reaches hreaches]
  have hstat : ((gmacUpdateSpeedDuplex s eth env.reading).1.port eth).mac.statRxFrm =
      (s.port eth).mac.statRxFrm := congrArg RxView.statRxFrm hrx
  have hpending' : ((gmacUpdateSpeedDuplex s eth env.reading).1.port eth).log.pending =
      (slot, frame) :: rest := (congrArg RxView.pending hrx).trans hpending
  by_cases hset : (s.port eth).mac.statRxFrm = true
  · have hlen : frame.length ≠ 0 := by simpa using hframe
    rw [((receiveData_frame hring hpending' (hstat.trans hset)).2 hlen).2]
    by_cases hfit : deliverable frame = true
    · simp [hset, hfit]
    · simp [hfit]
  · rw [receiveData_quiet (hstat.trans (by simpa using hset))]
    simp [hset]

/-- In every run the frames that leave a port are the oldest ones, in their order,
each with its buffer, the deliverable ones are delivered and the index stands at
the oldest frame that is left.  A call returns that frame exactly when the status
bit is set and the frame is deliverable.  Both hold when frames arrive one at a
time. -/
theorem receive_ring {B : Board} (eth : ℕ) :
    (∀ s, (system B).Reachable s →
      RxAccount (s.port eth).rx ∧
      ∀ slot frame rest, (s.port eth).log.pending = (slot, frame) :: rest →
        slot = (s.port eth).dev.rxDataNum ∧
        ∀ args env, ReceiveReaches B s eth args env → frame ≠ [] →
          (Delivers B s eth args env frame ↔
            (s.port eth).mac.statRxFrm = true ∧ deliverable frame = true)) ∧
    ∀ s, ((system B).restrict (OneByOne B eth)).Reachable s →
      ∀ slot frame rest, (s.port eth).log.pending = (slot, frame) :: rest →
        ∀ args env, ReceiveReaches B s eth args env → Delivers B s eth args env frame := by
  refine ⟨?_, ?_⟩
  · intro s hreach
    have hinv := rxInv_of_reachable hreach eth
    refine ⟨hinv.account, ?_⟩
    intro slot frame rest hpending
    refine ⟨hinv.index hpending, ?_⟩
    intro args env hreaches hframe
    exact delivers_iff hreach hreaches hpending hframe
  · intro s hreach slot frame rest hpending args env hreaches
    rcases rxSingle_of_reachable hreach with hnone | ⟨hstat, slot', frame', hone, hpos, hfit⟩
    · rw [show (s.port eth).log.pending = [] from hnone] at hpending
      cases hpending
    · rw [show (s.port eth).log.pending = [(slot', frame')] from hone] at hpending
      cases hpending
      have hframe : frame ≠ [] := List.ne_nil_of_length_pos hpos
      exact (delivers_iff hreach.of_restrict hreaches hone hframe).mpr ⟨hstat, hfit⟩

def upEnv : CallEnv := ⟨up100Full, true⟩

def frameA : List UInt8 := [1, 2, 3]
def frameB : List UInt8 := [4, 5]

def singleArrival : State :=
  (TransitionSystem.runSteps
    (TransitionSystem.guarded (OneByOne openBoard 0) (next openBoard)) powerOn
    [.init 0 1 goodInit, .arrive 0 frameA]).get (by decide +kernel)

theorem single_arrival_delivered :
    Delivers openBoard singleArrival 0 true upEnv frameA := by
  have hstart : ((system openBoard).restrict (OneByOne openBoard 0)).Reachable powerOn :=
    TransitionSystem.Reachable.init rfl
  have hreach : ((system openBoard).restrict (OneByOne openBoard 0)).Reachable singleArrival :=
    hstart.runGuarded (l := [.init 0 1 goodInit, .arrive 0 frameA]) (Option.some_get _).symm
  have hpending : (singleArrival.port 0).log.pending = (0, frameA) :: [] := by decide +kernel
  have hreaches : ReceiveReaches openBoard singleArrival 0 true upEnv := by
    refine ⟨?_, ?_, rfl⟩
    all_goals decide +kernel
  exact (receive_ring 0).2 singleArrival hreach 0 frameA [] hpending true upEnv hreaches

def secondFrameLeft : State :=
  (TransitionSystem.runSteps (next openBoard) powerOn
    [.init 0 1 goodInit, .arrive 0 frameA, .arrive 0 frameB, .receive 0 true upEnv]).get
    (by decide +kernel)

/-- The call for the first frame has cleared the status bit, so the next call does
not see the second frame. -/
theorem second_frame_not_delivered :
    (system openBoard).Reachable secondFrameLeft ∧
      (secondFrameLeft.port 0).log.pending = [(1, frameB)] ∧
      ReceiveReaches openBoard secondFrameLeft 0 true upEnv ∧
      ¬ Delivers openBoard secondFrameLeft 0 true upEnv frameB := by
  have hstart : (system openBoard).Reachable powerOn := TransitionSystem.Reachable.init rfl
  refine ⟨hstart.runSteps (l := [.init 0 1 goodInit, .arrive 0 frameA, .arrive 0 frameB,
    .receive 0 true upEnv]) (Option.some_get _).symm, ?_, ⟨?_, ?_, rfl⟩, ?_⟩
  · decide +kernel
  · decide +kernel
  · decide +kernel
  · unfold Delivers
    decide +kernel

end HiMpu.Gmac
