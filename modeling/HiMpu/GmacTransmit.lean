import HiMpu.Gmac

/-!
# The transmit buffers

A frame stays in its buffer until the MAC fetches it.  The driver reuses a
buffer after `CHIP_TX_FIFO_NUM` sends, whether it was fetched or not.
-/

namespace HiMpu.Gmac

def posts (frames : List (List UInt8)) : List (ℕ × ℕ) :=
  frames.mapIdx fun i frame => (i % chipTxFifoNum, frame.length)

theorem posts_concat (frames : List (List UInt8)) (frame : List UInt8) :
    posts (frames ++ [frame]) =
      posts frames ++ [(frames.length % chipTxFifoNum, frame.length)] := by
  unfold posts
  exact List.mapIdx_concat

theorem length_posts (frames : List (List UInt8)) : (posts frames).length = frames.length :=
  List.length_mapIdx

structure TxView where
  txDataNum : ℕ
  txCff : List (ℕ × ℕ)
  txBuffer : ℕ → Mem
  sent : List (List UInt8)
  transmitted : List (List UInt8)

def Port.tx (p : Port) : TxView :=
  ⟨p.dev.txDataNum, p.mac.txCff, p.mac.txBuffer, p.log.sent, p.log.transmitted⟩

structure TxRing (v : TxView) : Prop where
  num : v.txDataNum = v.sent.length % chipTxFifoNum
  le : v.transmitted.length ≤ v.sent.length
  cff : v.txCff = (posts v.sent).drop v.transmitted.length

structure TxContent (v : TxView) : Prop where
  order : v.transmitted = v.sent.take v.transmitted.length
  held : ∀ i frame, v.transmitted.length ≤ i → v.sent[i]? = some frame →
    (v.txBuffer (i % chipTxFifoNum)).bytes 0 frame.length = frame

def TxView.send (v : TxView) (packet : List UInt8) : TxView where
  txDataNum := (v.txDataNum + 1) % chipTxFifoNum
  txCff := v.txCff ++ [(v.txDataNum, packet.length)]
  txBuffer := Function.update v.txBuffer v.txDataNum ((v.txBuffer v.txDataNum).write 0 packet)
  sent := v.sent ++ [packet]
  transmitted := v.transmitted

def TxView.fetch (v : TxView) (slot length : ℕ) (rest : List (ℕ × ℕ)) : TxView :=
  { v with
    txCff := rest
    transmitted := v.transmitted ++ [(v.txBuffer slot).bytes 0 length] }

theorem TxRing.send {v : TxView} (hring : TxRing v) (packet : List UInt8) :
    TxRing (v.send packet) := by
  obtain ⟨hnum, hle, hcff⟩ := hring
  refine ⟨?_, ?_, ?_⟩
  · simp only [TxView.send, hnum, List.length_append, List.length_singleton, Nat.mod_add_mod]
  · simp only [TxView.send, List.length_append]
    omega
  · simp only [TxView.send, posts_concat, hcff, hnum]
    rw [List.drop_append_of_le_length (by rw [length_posts]; exact hle)]

theorem TxRing.length_cff {v : TxView} (hring : TxRing v) :
    v.txCff.length + v.transmitted.length = v.sent.length := by
  have hle := hring.le
  rw [hring.cff, List.length_drop, length_posts]
  omega

theorem TxRing.head {v : TxView} (hring : TxRing v) {slot length : ℕ} {rest : List (ℕ × ℕ)}
    (hcff : v.txCff = (slot, length) :: rest) :
    ∃ frame, v.sent[v.transmitted.length]? = some frame ∧
      slot = v.transmitted.length % chipTxFifoNum ∧ length = frame.length := by
  have hget : (posts v.sent)[v.transmitted.length]? = some (slot, length) := by
    have hfirst := congrArg (fun l => l[0]?) hring.cff
    simpa [hcff] using hfirst.symm
  simp only [posts, List.getElem?_mapIdx, Option.map_eq_some_iff] at hget
  obtain ⟨frame, hframe, heq⟩ := hget
  cases heq
  exact ⟨frame, hframe, rfl, rfl⟩

theorem TxRing.fetch {v : TxView} (hring : TxRing v) {slot length : ℕ} {rest : List (ℕ × ℕ)}
    (hcff : v.txCff = (slot, length) :: rest) : TxRing (v.fetch slot length rest) := by
  obtain ⟨frame, hframe, -, -⟩ := hring.head hcff
  obtain ⟨hlt, -⟩ := List.getElem?_eq_some_iff.mp hframe
  refine ⟨hring.num, ?_, ?_⟩
  · simp only [TxView.fetch, List.length_append, List.length_singleton]
    exact hlt
  · simp only [TxView.fetch, List.length_append, List.length_singleton]
    rw [← List.drop_drop, ← hring.cff, hcff]
    rfl

theorem TxRing.busy_iff {v : TxView} (hring : TxRing v) :
    (∃ entry ∈ v.txCff, entry.1 = v.txDataNum) ↔ chipTxFifoNum ≤ v.txCff.length := by
  have hlen := hring.length_cff
  have hentry : ∀ i, v.transmitted.length ≤ i → i < v.sent.length →
      ∃ length, (i % chipTxFifoNum, length) ∈ v.txCff := by
    intro i hlow hhigh
    refine ⟨v.sent[i].length, ?_⟩
    rw [hring.cff, List.mem_drop_iff_getElem]
    refine ⟨i - v.transmitted.length, by rw [length_posts]; omega, ?_⟩
    simp only [posts, List.getElem_mapIdx, Nat.add_sub_cancel' hlow]
  constructor
  · rintro ⟨entry, hmem, hslot⟩
    rw [hring.cff, List.mem_drop_iff_getElem] at hmem
    obtain ⟨i, hi, hget⟩ := hmem
    rw [length_posts] at hi
    simp only [posts, List.getElem_mapIdx] at hget
    rw [← hget, hring.num] at hslot
    simp only [chipTxFifoNum] at hslot ⊢
    omega
  · intro hfull
    obtain ⟨length, hmem⟩ := hentry (v.sent.length - chipTxFifoNum) (by omega)
      (by unfold chipTxFifoNum at hfull ⊢; omega)
    refine ⟨_, hmem, ?_⟩
    rw [hring.num]
    unfold chipTxFifoNum at hfull ⊢
    simp only
    omega

theorem TxContent.send {v : TxView} (hring : TxRing v) (hcontent : TxContent v)
    (packet : List UInt8) (hfree : v.txCff.length < chipTxFifoNum) :
    TxContent (v.send packet) := by
  have hlen := hring.length_cff
  refine ⟨?_, ?_⟩
  · simp only [TxView.send]
    rw [List.take_append_of_le_length hring.le]
    exact hcontent.order
  · intro i frame hlow hframe
    simp only [TxView.send] at hlow hframe ⊢
    by_cases hold : i < v.sent.length
    · rw [List.getElem?_append_left hold] at hframe
      -- Fewer than a whole round of frames wait, so the slots differ.
      have hslot : i % chipTxFifoNum ≠ v.txDataNum := by
        rw [hring.num]
        unfold chipTxFifoNum at hfree ⊢
        omega
      rw [Function.update_of_ne hslot]
      exact hcontent.held i frame hlow hframe
    · rw [List.getElem?_append_right (by omega)] at hframe
      have hi : i = v.sent.length := by
        by_contra hne
        rw [List.getElem?_eq_none (by simp only [List.length_singleton]; omega)] at hframe
        cases hframe
      subst hi
      simp only [Nat.sub_self, List.getElem?_cons_zero, Option.some.injEq] at hframe
      subst hframe
      rw [← hring.num, Function.update_self]
      exact Mem.bytes_write_same ..

theorem TxContent.fetch {v : TxView} (hring : TxRing v) (hcontent : TxContent v)
    {slot length : ℕ} {rest : List (ℕ × ℕ)} (hcff : v.txCff = (slot, length) :: rest) :
    TxContent (v.fetch slot length rest) := by
  obtain ⟨frame, hframe, rfl, rfl⟩ := hring.head hcff
  have hbytes := hcontent.held _ frame le_rfl hframe
  refine ⟨?_, ?_⟩
  · simp only [TxView.fetch, List.length_append, List.length_singleton, hbytes]
    rw [List.take_add_one, hframe, ← hcontent.order]
    rfl
  · intro i frame' hlow hframe'
    simp only [TxView.fetch, List.length_append, List.length_singleton] at hlow hframe' ⊢
    exact hcontent.held i frame' (by omega) hframe'

structure TxReady (p : Port) : Prop where
  unsent : p.dev.initDone = false → p.log.sent = []
  rings : p.dev.initDone = true → p.dev.ringInit = true

structure TxInv (p : Port) : Prop extends TxRing p.tx, TxReady p

theorem txInv_powerOn (eth : ℕ) : TxInv (powerOn.port eth) where
  num := rfl
  le := le_rfl
  cff := rfl
  unsent _ := rfl
  rings h := by cases h

theorem txContent_powerOn (eth : ℕ) : TxContent (powerOn.port eth).tx where
  order := rfl
  held i frame _ h := by cases h

theorem sendData_tx {p : Port} {packet : List UInt8} (hpos : 0 < packet.length)
    (hsize : packet.length < rxBufferDefaultSize) :
    (gmacNetSendData p packet).1.tx = p.tx.send packet ∧
      (gmacNetSendData p packet).1.dev.initDone = p.dev.initDone ∧
      (gmacNetSendData p packet).1.dev.ringInit = p.dev.ringInit ∧
      (gmacNetSendData p packet).2 = bmOk := by
  have hcopy := Securec.memcpySObject_fits (d := p.mac.txBuffer p.dev.txDataNum) hpos hsize.le
    (by decide)
  unfold gmacNetSendData
  simp only [hcopy, ne_eq, not_true_eq_false, if_false]
  exact ⟨rfl, trivial, trivial, trivial⟩

variable {mayArrive : List (ℕ × List UInt8) → List UInt8 → Prop}
  {maySend : List (ℕ × ℕ) → Prop} {p p' : Port}

inductive TxMove (maySend : List (ℕ × ℕ) → Prop) (p p' : Port) : Prop
  | same (htx : p'.tx = p.tx) (hdone : p'.dev.initDone = p.dev.initDone)
      (hrings : p'.dev.ringInit = p.dev.ringInit)
  | send (packet : List UInt8) (hinit : p.dev.initDone = true) (hmay : maySend p.mac.txCff)
      (htx : p'.tx = p.tx.send packet) (hdone : p'.dev.initDone = p.dev.initDone)
      (hrings : p'.dev.ringInit = p.dev.ringInit)
  | fetch (slot length : ℕ) (rest : List (ℕ × ℕ)) (hcff : p.mac.txCff = (slot, length) :: rest)
      (htx : p'.tx = p.tx.fetch slot length rest) (hdone : p'.dev.initDone = p.dev.initDone)
      (hrings : p'.dev.ringInit = p.dev.ringInit)
  | clear (buffer : ℕ → Mem) (hunset : p.dev.ringInit = false)
      (htx : p'.tx = { p.tx with txBuffer := buffer })
      (hdone : p'.dev.initDone = p.dev.initDone) (hrings : p'.dev.ringInit = true)
  | reset (hnot : p.dev.initDone = false)
      (htx : p'.tx = ⟨p.dev.txDataNum, [], p.mac.txBuffer, [], []⟩)
      (hrings : p'.dev.initDone = true → p'.dev.ringInit = true)

theorem ethInit_tx (p : Port) (env : InitEnv) :
    (gmacEthInit p env).1.tx = ⟨p.dev.txDataNum, [], p.mac.txBuffer, [], []⟩ := by
  unfold gmacEthInit
  simp only
  repeat' split
  all_goals rfl

theorem PortStep.txMove (hstep : PortStep mayArrive maySend p p') : TxMove maySend p p' := by
  cases hstep with
  | relink => exact .same rfl rfl rfl
  | program => exact .same rfl rfl rfl
  | send packet hinit hsize hpos hmay =>
    obtain ⟨htx, hdone, hrings, -⟩ := sendData_tx hpos hsize
    exact .send packet hinit hmay htx hdone hrings
  | receive =>
    unfold gmacNetReceiveData
    simp only
    repeat' split
    all_goals exact .same rfl rfl rfl
  | address => exact .same rfl rfl rfl
  | initRing =>
    unfold gmacInitRing
    split
    next => exact .same rfl rfl rfl
    next hset => exact .clear _ (by simpa using hset) rfl rfl rfl
  | phyInit phyId =>
    unfold gmacPhyInit
    split <;> exact .same rfl rfl rfl
  | failedInit env hnot _ =>
    refine .reset hnot (ethInit_tx p env) ?_
    intro hdone
    rw [ethInit_dev, hnot] at hdone
    cases hdone
  | ethInit env done hring hnot _ =>
    refine .reset hnot (ethInit_tx p env) ?_
    intro _
    simp only [ethInit_dev]
    exact hring
  | arrive _ frame harrive _ =>
    unfold Port.arrive at harrive
    split at harrive
    · cases harrive
    · split at harrive
      · cases harrive
      · cases harrive
        exact .same rfl rfl rfl
  | fetch _ hfetch =>
    unfold Port.fetch at hfetch
    split at hfetch
    · cases hfetch
    next slot length rest hcff =>
      cases hfetch
      exact .fetch slot length rest hcff rfl rfl rfl

theorem TxReady.congr (hready : TxReady p) (hsent : p'.log.sent = p.log.sent)
    (hdone : p'.dev.initDone = p.dev.initDone) (hrings : p'.dev.ringInit = p.dev.ringInit) :
    TxReady p' := by
  refine ⟨?_, ?_⟩
  · rw [hdone, hsent]
    exact hready.unsent
  · rw [hdone, hrings]
    exact hready.rings

theorem TxInv.step (hinv : TxInv p) (hstep : PortStep mayArrive maySend p p') : TxInv p' := by
  obtain ⟨hring, hready⟩ := hinv
  cases hstep.txMove with
  | same htx hdone hrings =>
    exact ⟨htx ▸ hring, hready.congr (congrArg TxView.sent htx) hdone hrings⟩
  | send packet hinit _ htx hdone hrings =>
    refine ⟨htx ▸ hring.send packet, ?_, ?_⟩
    · rw [hdone, hinit]
      intro h
      cases h
    · rw [hdone, hrings]
      exact hready.rings
  | fetch slot length rest hcff htx hdone hrings =>
    exact ⟨htx ▸ hring.fetch hcff, hready.congr (congrArg TxView.sent htx) hdone hrings⟩
  | clear buffer _ htx hdone hrings =>
    refine ⟨?_, ?_, fun _ => hrings⟩
    · rw [htx]
      exact ⟨hring.num, hring.le, hring.cff⟩
    · rw [hdone, show p'.log.sent = p.log.sent from congrArg TxView.sent htx]
      exact hready.unsent
  | reset hnot htx hrings =>
    have hsent := hready.unsent hnot
    refine ⟨?_, fun _ => congrArg TxView.sent htx, hrings⟩
    rw [htx]
    refine ⟨?_, le_rfl, rfl⟩
    rw [show p.dev.txDataNum = p.log.sent.length % chipTxFifoNum from hring.num, hsent]

theorem TxContent.step (hinv : TxInv p) (hcontent : TxContent p.tx)
    (hstep : PortStep mayArrive (fun waiting => waiting.length < chipTxFifoNum) p p') :
    TxContent p'.tx := by
  cases hstep.txMove with
  | same htx => exact htx ▸ hcontent
  | send packet _ hmay htx => exact htx ▸ hcontent.send hinv.toTxRing packet hmay
  | fetch slot length rest hcff htx => exact htx ▸ hcontent.fetch hinv.toTxRing hcff
  | clear buffer hunset htx =>
    -- Nothing was sent before the rings were set.
    have hnot : p.dev.initDone = false := by
      by_contra hdone
      rw [hinv.rings (by simpa using hdone)] at hunset
      cases hunset
    rw [htx]
    refine ⟨hcontent.order, ?_⟩
    intro i frame _ hframe
    rw [show p.tx.sent = [] from hinv.unsent hnot] at hframe
    cases hframe
  | reset _ htx =>
    rw [htx]
    refine ⟨rfl, ?_⟩
    intro i frame _ hframe
    cases hframe

def TxRoom (B : Board) (eth : ℕ) : State → Action → Prop :=
  Meets B (fun _ _ => True) (fun waiting => waiting.length < chipTxFifoNum) eth

theorem txInv_of_reachable {B : Board} {s : State} (hreach : (system B).Reachable s) (eth : ℕ) :
    TxInv (s.port eth) := by
  have hall : ∀ s a, Meets B (fun _ _ => True) (fun _ => True) eth s a := by
    intro s a
    cases a <;> simp only [Meets, implies_true]
  exact port_invariant (hreach.restrict_of_forall hall) (txInv_powerOn eth)
    fun _ _ hinv hstep => hinv.step hstep

theorem txContent_of_reachable {B : Board} {s : State} {eth : ℕ}
    (hreach : ((system B).restrict (TxRoom B eth)).Reachable s) : TxContent (s.port eth).tx := by
  have hboth := port_invariant (I := fun p => TxInv p ∧ TxContent p.tx) hreach
    ⟨txInv_powerOn eth, txContent_powerOn eth⟩
    fun _ _ hinv hstep => ⟨hinv.1.step hstep, hinv.2.step hinv.1 hstep⟩
  exact hboth.2

/-- In every run, a send writes over a frame that still waits exactly when
`CHIP_TX_FIFO_NUM` frames wait.  In a run without such a send, the MAC transmits
the packets of the successful sends in their order, byte for byte. -/
theorem transmitted_eq_sent {B : Board} (eth : ℕ) :
    (∀ s, (system B).Reachable s →
      ((∃ entry ∈ (s.port eth).mac.txCff, entry.1 = (s.port eth).dev.txDataNum) ↔
        chipTxFifoNum ≤ (s.port eth).mac.txCff.length)) ∧
    ∀ s, ((system B).restrict (TxRoom B eth)).Reachable s →
      (s.port eth).log.transmitted =
        (s.port eth).log.sent.take (s.port eth).log.transmitted.length := by
  refine ⟨?_, ?_⟩
  · intro s hreach
    exact (txInv_of_reachable hreach eth).toTxRing.busy_iff
  · intro s hreach
    exact (txContent_of_reachable hreach).order

def sendByte (byte : UInt8) : Action := .send 0 1 1 (fun _ => byte) ⟨up100Full, true⟩

def twoSends : List Action := [.init 0 1 goodInit, sendByte 7, sendByte 8, .fetch 0, .fetch 0]

instance (B : Board) (eth : ℕ) (s : State) (a : Action) : Decidable (TxRoom B eth s a) :=
  inferInstanceAs (Decidable (Meets ..))

def afterTwoSends : State :=
  (TransitionSystem.runSteps
    (TransitionSystem.guarded (TxRoom openBoard 0) (next openBoard)) powerOn twoSends).get
    (by decide +kernel)

theorem two_sends_transmitted :
    ((system openBoard).restrict (TxRoom openBoard 0)).Reachable afterTwoSends ∧
      (afterTwoSends.port 0).log.sent = [[7], [8]] ∧
      (afterTwoSends.port 0).log.transmitted = [[7], [8]] := by
  have hstart : ((system openBoard).restrict (TxRoom openBoard 0)).Reachable powerOn :=
    TransitionSystem.Reachable.init rfl
  have hreach : ((system openBoard).restrict (TxRoom openBoard 0)).Reachable afterTwoSends :=
    hstart.runGuarded (l := twoSends) (Option.some_get _).symm
  have hsent : (afterTwoSends.port 0).log.sent = [[7], [8]] := by decide +kernel
  have hcount : (afterTwoSends.port 0).log.transmitted.length = 2 := by decide +kernel
  refine ⟨hreach, hsent, ?_⟩
  rw [(transmitted_eq_sent 0).2 _ hreach, hcount, hsent]
  rfl

def afterThreeSends : State :=
  (TransitionSystem.runSteps (next openBoard) powerOn
    [.init 0 1 goodInit, sendByte 7, sendByte 8, sendByte 9, .fetch 0]).get (by decide +kernel)

theorem third_send_overwrites :
    (system openBoard).Reachable afterThreeSends ∧
      (afterThreeSends.port 0).log.sent = [[7], [8], [9]] ∧
      (afterThreeSends.port 0).log.transmitted = [[9]] := by
  have hstart : (system openBoard).Reachable powerOn := TransitionSystem.Reachable.init rfl
  refine ⟨hstart.runSteps (l := [.init 0 1 goodInit, sendByte 7, sendByte 8, sendByte 9,
    .fetch 0]) (Option.some_get _).symm, ?_, ?_⟩
  all_goals decide +kernel

end HiMpu.Gmac
