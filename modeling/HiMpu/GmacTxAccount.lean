import HiMpu.GmacTxRing

/-!
# The transmit descriptors in the MAC

The nodes in use stand in the order of their descriptors: first those that the MAC has
finished, then the one that it has fetched, then those of the FIFO.  The length of the
queue, counted first, less the descriptors that are left in the FIFO thus bounds the nodes
that may be recycled, except for the last, which shows by its write-back word.
-/

namespace HiMpu.GmacTx

open TransitionSystem

variable {s s' : Tx} {c : Ctx} {k m n avail : ℕ}

def Tx.holder (s : Tx) : TxPc :=
  match s.inusedLock with
  | none => .absent
  | some k => (s.call k).pc

def TxPc.pending : TxPc → List ℕ
  | .add n => [n]
  | _ => []

def TxPc.words : TxPc → ℕ
  | .word _ i => i
  | _ => 0

def TxPc.reserved : TxPc → ℕ
  | .word _ _ => 1
  | _ => 0

def Tx.chain (s : Tx) : List ℕ := s.inused.head ++ s.holder.pending

def Describes (s : Tx) (p : PcuCmd) (n : ℕ) : Prop :=
  p.clearAddr = n ∧ (s.node n).txSkbBuff = some p.pktAddr

def Done (s : Tx) (n : ℕ) : Prop :=
  ∃ k, (s.node n).txSkbBuff = some k ∧ s.finished k = true

/-- The descriptors `stale` are of nodes that were recycled by force. -/
structure Flow (s : Tx) (done cur rest : List ℕ) (stale own : List PcuCmd) : Prop where
  chain : s.chain = done ++ (cur ++ rest)
  cff : s.txCff = stale ++ own
  describes : List.Forall₂ (Describes s) own rest
  finished : ∀ n ∈ done, Done s n
  current : cur = [] ∨ ∃ n p, cur = [n] ∧ s.fetched = some p ∧ Describes s p n
  overtaken : done ++ cur ≠ [] → stale = []

def Window (s : Tx) (avail : ℕ) : Prop :=
  match s.freeBd with
  | .readNum limit => limit ≤ s.inused.head.length
  | .loop limit count | .recycle limit count true _ => count < limit ∧ limit ≤ count + avail
  | .last => ∃ n rest, s.inused.head = n :: rest ∧ Done s n
  | _ => True

structure Device (s : Tx) : Prop where
  words : s.txWords = s.holder.words ∧ s.txWords ≤ 3
  room : s.txCff.length + s.holder.reserved ≤ chipTxFifoNum - 1
  hw : ∀ p ∈ s.hw, p.clearAddr ∈ s.chain → (s.node p.clearAddr).txSkbBuff = some p.pktAddr
  ended : ∀ n ∈ s.chain, (s.node n).txState = gmacTxEnd → Done s n
  flow : ∃ done cur rest stale own, Flow s done cur rest stale own ∧
    Window s (done.length + cur.length)
  reclaimed : ∀ k ∈ s.reclaimed, s.finished k = true

theorem holder_free (hlock : s.inusedLock = none) : s.holder = .absent := by
  unfold Tx.holder
  rw [hlock]

theorem holder_eq (hlock : s.inusedLock = some k) : s.holder = (s.call k).pc := by
  unfold Tx.holder
  rw [hlock]

theorem chain_free (hlock : s.inusedLock = none) : s.chain = s.inused.head := by
  unfold Tx.chain
  rw [holder_free hlock]
  exact List.append_nil _

theorem holder_congr (hlock : s'.inusedLock = s.inusedLock)
    (hcall : ∀ k, s.inusedLock = some k → s'.call k = s.call k) : s'.holder = s.holder := by
  unfold Tx.holder
  rw [hlock]
  cases h : s.inusedLock with
  | none => rfl
  | some k => simp only [hcall k h]

theorem Control.chain_hand (hctl : Control s) (hn : n ∈ s.chain) (hhand : s.nodeOf c = some n) :
    ∃ k, c = .call k ∧ (s.call k).pc = .add n := by
  rcases List.mem_append.mp hn with hn | hn
  · exact absurd hn (hctl.nodes.hand_right c n hhand)
  · cases hlock : s.inusedLock with
    | none =>
      rw [holder_free hlock] at hn
      cases hn
    | some k =>
      rw [holder_eq hlock] at hn
      cases hpc : (s.call k).pc with
      | add m =>
        rw [hpc] at hn
        have hnm : n = m := List.mem_singleton.mp hn
        subst hnm
        have hk : s.nodeOf (.call k) = some n := by
          simp only [Tx.nodeOf, hpc]
          rfl
        exact ⟨k, hctl.nodes.hand_inj c (.call k) n hhand hk, hpc⟩
      | _ =>
        rw [hpc] at hn
        cases hn

theorem Describes.frame {p : PcuCmd} (hdesc : Describes s p n)
    (hnode : (s'.node n).txSkbBuff = (s.node n).txSkbBuff) : Describes s' p n :=
  ⟨hdesc.1, hnode.trans hdesc.2⟩

theorem Done.frame (hdone : Done s n) (hnode : (s'.node n).txSkbBuff = (s.node n).txSkbBuff)
    (hfinished : ∀ k, s.finished k = true → s'.finished k = true) : Done s' n := by
  obtain ⟨k, hk, hfin⟩ := hdone
  exact ⟨k, hnode.trans hk, hfinished k hfin⟩

theorem describes_frame {own : List PcuCmd} {rest : List ℕ}
    (hown : List.Forall₂ (Describes s) own rest)
    (hnode : ∀ n ∈ rest, (s'.node n).txSkbBuff = (s.node n).txSkbBuff) :
    List.Forall₂ (Describes s') own rest := by
  induction hown with
  | nil => exact List.Forall₂.nil
  | cons hdesc _ ih =>
    refine List.Forall₂.cons (hdesc.frame (hnode _ List.mem_cons_self)) (ih ?_)
    exact fun n hn => hnode n (List.mem_cons_of_mem _ hn)

theorem Device.frame (hinv : Device s) (hchain : s'.chain = s.chain)
    (hnode : ∀ n ∈ s.chain, s'.node n = s.node n)
    (hmac : s'.txCff = s.txCff ∧ s'.fetched = s.fetched ∧ s'.finished = s.finished ∧
      s'.reclaimed = s.reclaimed)
    (hwords : s'.txWords = s'.holder.words ∧ s'.txWords ≤ 3)
    (hroom : s'.txCff.length + s'.holder.reserved ≤ chipTxFifoNum - 1)
    (hwindow : ∀ done cur rest stale own, Flow s done cur rest stale own →
      Window s (done.length + cur.length) → Window s' (done.length + cur.length)) :
    Device s' := by
  obtain ⟨hcff, hfetched, hfinished, hreclaimed⟩ := hmac
  obtain ⟨done, cur, rest, stale, own, hflow, hwin⟩ := hinv.flow
  have hdone : ∀ n ∈ s.chain, Done s n → Done s' n := by
    intro n hn h
    exact h.frame (by rw [hnode n hn]) fun k hk => by rw [hfinished]; exact hk
  refine ⟨hwords, hroom, ?_, ?_, ⟨done, cur, rest, stale, own, ?_, ?_⟩, ?_⟩
  · intro p hp hmem
    rw [hchain] at hmem
    rw [hnode _ hmem]
    refine hinv.hw p ?_ hmem
    unfold Tx.hw at hp ⊢
    rw [hfetched, hcff] at hp
    exact hp
  · intro n hn hend
    rw [hchain] at hn
    rw [hnode n hn] at hend
    exact hdone n hn (hinv.ended n hn hend)
  · have hmem := hflow.chain
    refine ⟨hchain.trans hflow.chain, hcff.trans hflow.cff, ?_, ?_, ?_, hflow.overtaken⟩
    · refine describes_frame hflow.describes fun n hn => ?_
      rw [hnode n (by rw [hmem]; simp [hn])]
    · exact fun n hn => hdone n (by rw [hmem]; simp [hn]) (hflow.finished n hn)
    · refine hflow.current.imp_right ?_
      rintro ⟨n, p, rfl, hp, hdesc⟩
      refine ⟨n, p, rfl, hfetched.trans hp, hdesc.frame ?_⟩
      rw [hnode n (by rw [hmem]; simp)]
  · exact hwindow done cur rest stale own hflow hwin
  · rw [hreclaimed, hfinished]
    exact hinv.reclaimed

theorem Window.mono {l : List ℕ} {avail' : ℕ} (hwindow : Window s avail)
    (hpc : s'.freeBd = s.freeBd) (hhead : s'.inused.head = s.inused.head ++ l)
    (hdone : ∀ n ∈ s.inused.head, Done s n → Done s' n) (hle : avail ≤ avail') :
    Window s' avail' := by
  unfold Window at hwindow ⊢
  rw [hpc]
  cases h : s.freeBd with
  | readNum limit =>
    rw [h] at hwindow
    show limit ≤ s'.inused.head.length
    rw [hhead, List.length_append]
    exact hwindow.trans (Nat.le_add_right _ _)
  | loop limit count =>
    rw [h] at hwindow
    exact ⟨hwindow.1, hwindow.2.trans (Nat.add_le_add_left hle _)⟩
  | recycle limit count inLoop pc =>
    rw [h] at hwindow
    cases inLoop with
    | true => exact ⟨hwindow.1, hwindow.2.trans (Nat.add_le_add_left hle _)⟩
    | false => trivial
  | last =>
    rw [h] at hwindow
    obtain ⟨n, rest, hn, hd⟩ := hwindow
    refine ⟨n, rest ++ l, ?_, hdone n ?_ hd⟩
    · rw [hhead, hn]
      rfl
    · rw [hn]
      exact List.mem_cons_self
  | idle | count | head | exit => trivial

def Tx.mac (s : Tx) := (s.txCff, s.txWords, s.fetched, s.finished, s.reclaimed)

structure Aside (s s' : Tx) : Prop where
  lock : s'.inusedLock = s.inusedLock
  call : ∀ k, s.inusedLock = some k → s'.call k = s.call k
  inused : s'.inused.head = s.inused.head
  node : ∀ n ∈ s.chain, s'.node n = s.node n
  mac : s'.mac = s.mac

theorem Aside.of_eq (h : (s'.inusedLock, s'.call, s'.inused, s'.node, s'.mac) =
    (s.inusedLock, s.call, s.inused, s.node, s.mac)) : Aside s s' := by
  simp only [Prod.mk.injEq] at h
  obtain ⟨hlock, hcall, hinused, hnode, hmac⟩ := h
  exact ⟨hlock, fun _ _ => by rw [hcall], by rw [hinused], fun _ _ => by rw [hnode], hmac⟩

theorem Aside.of_call (hctl : Control s) (hpc : (s.call k).pc.locked = false)
    (hcall : ∀ j, j ≠ k → s'.call j = s.call j)
    (hsame : (s'.inusedLock, s'.inused.head, s'.mac) = (s.inusedLock, s.inused.head, s.mac))
    (hnode : ∀ n ∈ s.chain, s'.node n = s.node n) : Aside s s' := by
  simp only [Prod.mk.injEq] at hsame
  obtain ⟨hlock, hinused, hmac⟩ := hsame
  refine ⟨hlock, fun j hj => hcall j ?_, hinused, hnode, hmac⟩
  rintro rfl
  rw [← hctl.lock, hpc] at hj
  cases hj

theorem Device.aside (hinv : Device s) (haside : Aside s s')
    (hwindow : ∀ done cur rest stale own, Flow s done cur rest stale own →
      Window s (done.length + cur.length) → Window s' (done.length + cur.length)) :
    Device s' := by
  have hholder : s'.holder = s.holder := holder_congr haside.lock haside.call
  have hmac := haside.mac
  simp only [Tx.mac, Prod.mk.injEq] at hmac
  obtain ⟨hcff, hwords, hmac⟩ := hmac
  refine hinv.frame ?_ haside.node ⟨hcff, hmac⟩ ?_ ?_ hwindow
  · unfold Tx.chain
    rw [haside.inused, hholder]
  · rw [hwords, hholder]
    exact hinv.words
  · rw [hcff, hholder]
    exact hinv.room

theorem Device.still (hinv : Device s) (haside : Aside s s') (hfreeBd : s'.freeBd = s.freeBd) :
    Device s' := by
  refine hinv.aside haside fun _ _ _ _ _ _ hwin => ?_
  refine hwin.mono hfreeBd (by rw [haside.inused, List.append_nil]) ?_ le_rfl
  intro n hn hd
  have hfinished : s'.finished = s.finished := congrArg (fun m => m.2.2.2.1) haside.mac
  refine hd.frame ?_ fun k hk => ?_
  · rw [haside.node n (List.mem_append_left _ hn)]
  · rw [hfinished]
    exact hk

theorem Flow.length {done cur rest : List ℕ} {stale own : List PcuCmd}
    (hflow : Flow s done cur rest stale own) :
    s.chain.length ≤ done.length + cur.length + s.txCff.length := by
  have hown := hflow.describes.length_eq
  rw [hflow.chain, hflow.cff]
  simp only [List.length_append]
  omega

theorem Flow.deque {done cur rest : List ℕ} {stale own : List PcuCmd}
    (hflow : Flow s done cur rest stale own) (hchain : s.chain = n :: s'.chain)
    (hnode : s'.node = s.node)
    (hmac : s'.txCff = s.txCff ∧ s'.fetched = s.fetched ∧ s'.finished = s.finished) :
    ∃ done' cur' rest' stale' own', Flow s' done' cur' rest' stale' own' ∧
      done.length + cur.length ≤ done'.length + cur'.length + 1 := by
  obtain ⟨hcff, hfetched, hfinished⟩ := hmac
  have hown : List.Forall₂ (Describes s') own rest :=
    describes_frame hflow.describes fun m _ => by rw [hnode]
  have hdone : ∀ m, Done s m → Done s' m := by
    intro m h
    exact h.frame (by rw [hnode]) fun k hk => by rw [hfinished]; exact hk
  have hcurrent : cur = [] ∨ ∃ m p, cur = [m] ∧ s'.fetched = some p ∧ Describes s' p m := by
    refine hflow.current.imp_right ?_
    rintro ⟨m, p, hm, hp, hdesc⟩
    exact ⟨m, p, hm, hfetched.trans hp, hdesc.frame (by rw [hnode])⟩
  have hsplit := hchain.symm.trans hflow.chain
  cases done with
  | cons m done =>
    rw [List.cons_append, List.cons.injEq] at hsplit
    refine ⟨done, cur, rest, stale, own, ⟨hsplit.2, hcff.trans hflow.cff, hown, ?_, hcurrent, ?_⟩,
      ?_⟩
    · exact fun m hm => hdone m (hflow.finished m (List.mem_cons_of_mem _ hm))
    · exact fun _ => hflow.overtaken (by simp)
    · simp only [List.length_cons]
      omega
  | nil =>
    rw [List.nil_append] at hsplit
    rcases hcurrent with rfl | ⟨m, p, rfl, hp, hdesc⟩
    · rw [List.nil_append] at hsplit
      have hdescribes := hflow.describes
      rw [← hsplit] at hdescribes
      obtain ⟨p, own', _, hrest, hown'⟩ := List.forall₂_cons_right_iff.mp hdescribes
      refine ⟨[], [], s'.chain, stale ++ [p], own', ⟨rfl, ?_, ?_, ?_, Or.inl rfl, ?_⟩, ?_⟩
      · rw [hcff, hflow.cff, hown', List.append_assoc]
        rfl
      · exact describes_frame hrest fun m _ => by rw [hnode]
      · exact fun m hm => by cases hm
      · exact fun h => absurd rfl h
      · simp
    · rw [List.cons_append, List.nil_append, List.cons.injEq] at hsplit
      refine ⟨[], [], rest, stale, own, ⟨hsplit.2, hcff.trans hflow.cff, hown, ?_, Or.inl rfl, ?_⟩,
        ?_⟩
      · exact fun m hm => by cases hm
      · exact fun h => absurd rfl h
      · simp

theorem Device.deque {rest : List ℕ} (hinv : Device s) (hlock : s.inusedLock = none)
    (hhead : s.inused.head = n :: rest) (hnode : s'.node = s.node)
    (hqueue : s'.inused.head = rest ∧ s'.inusedLock = none)
    (hmac : s'.txCff = s.txCff ∧ s'.fetched = s.fetched ∧ s'.finished = s.finished ∧
      s'.txWords = s.txWords)
    (hreclaimed : ∀ k ∈ s'.reclaimed, s.finished k = true)
    (hwindow : ∀ done cur rest stale own avail', Flow s done cur rest stale own →
      Window s (done.length + cur.length) → done.length + cur.length ≤ avail' + 1 →
      Window s' avail') : Device s' := by
  obtain ⟨hcff, hfetched, hfinished, hwords⟩ := hmac
  obtain ⟨done, cur, rest', stale, own, hflow, hwin⟩ := hinv.flow
  have hchain : s.chain = n :: s'.chain := by
    rw [chain_free hlock, chain_free hqueue.2, hhead, hqueue.1]
  have hdone : ∀ m, Done s m → Done s' m := by
    intro m h
    exact h.frame (by rw [hnode]) fun k hk => by rw [hfinished]; exact hk
  have hholder : s'.holder = s.holder := by rw [holder_free hlock, holder_free hqueue.2]
  refine ⟨?_, ?_, ?_, ?_, ?_, ?_⟩
  · rw [hwords, hholder]
    exact hinv.words
  · rw [hcff, hholder]
    exact hinv.room
  · intro p hp hmem
    rw [hnode]
    refine hinv.hw p ?_ (by rw [hchain]; exact List.mem_cons_of_mem _ hmem)
    unfold Tx.hw at hp ⊢
    rw [hfetched, hcff] at hp
    exact hp
  · intro m hm hend
    rw [hnode] at hend
    exact hdone m (hinv.ended m (by rw [hchain]; exact List.mem_cons_of_mem _ hm) hend)
  · obtain ⟨done', cur', rest', stale', own', hflow', hle⟩ :=
      hflow.deque hchain hnode ⟨hcff, hfetched, hfinished⟩
    exact ⟨done', cur', rest', stale', own', hflow', hwindow _ _ _ _ _ _ hflow hwin hle⟩
  · rw [hfinished]
    exact hreclaimed

theorem Device.written {p : PcuCmd} (hinv : Device s) (hchain : s'.chain = s.chain ++ [n])
    (hp : Describes s p n) (hstart : (s.node n).txState ≠ gmacTxEnd)
    (hnew : ∀ d ∈ s.hw, d.clearAddr ≠ n) (hnode : s'.node = s.node)
    (hmac : s'.txCff = s.txCff ++ [p] ∧ s'.fetched = s.fetched ∧ s'.finished = s.finished ∧
      s'.reclaimed = s.reclaimed) (hwords : s'.txWords = s'.holder.words ∧ s'.txWords ≤ 3)
    (hroom : s'.txCff.length + s'.holder.reserved ≤ chipTxFifoNum - 1)
    (hwindow : ∀ avail, Window s avail → Window s' avail) : Device s' := by
  obtain ⟨hcff, hfetched, hfinished, hreclaimed⟩ := hmac
  obtain ⟨done, cur, rest, stale, own, hflow, hwin⟩ := hinv.flow
  have hdone : ∀ m, Done s m → Done s' m := by
    intro m h
    exact h.frame (by rw [hnode]) fun k hk => by rw [hfinished]; exact hk
  refine ⟨hwords, hroom, ?_, ?_, ⟨done, cur, rest ++ [n], stale, own ++ [p], ?_, ?_⟩, ?_⟩
  · intro d hd hmem
    rw [hnode]
    have hd' : d ∈ s.hw ∨ d = p := by
      unfold Tx.hw at hd ⊢
      rw [hfetched, hcff, ← List.append_assoc, List.mem_append, List.mem_singleton] at hd
      exact hd
    rcases hd' with hd | rfl
    · rw [hchain, List.mem_append, List.mem_singleton] at hmem
      rcases hmem with hmem | hmem
      · exact hinv.hw d hd hmem
      · exact absurd hmem (hnew d hd)
    · rw [hp.1]
      exact hp.2
  · intro m hm hend
    rw [hchain, List.mem_append, List.mem_singleton] at hm
    rw [hnode] at hend
    rcases hm with hm | rfl
    · exact hdone m (hinv.ended m hm hend)
    · exact absurd hend hstart
  · refine ⟨?_, ?_, ?_, fun m hm => hdone m (hflow.finished m hm), ?_, hflow.overtaken⟩
    · rw [hchain, hflow.chain]
      simp only [List.append_assoc]
    · rw [hcff, hflow.cff, List.append_assoc]
    · refine List.rel_append (describes_frame hflow.describes fun m _ => by rw [hnode]) ?_
      exact List.Forall₂.cons (hp.frame (by rw [hnode])) List.Forall₂.nil
    · refine hflow.current.imp_right ?_
      rintro ⟨m, d, hm, hd, hdesc⟩
      exact ⟨m, d, hm, hfetched.trans hd, hdesc.frame (by rw [hnode])⟩
  · exact hwindow _ hwin
  · rw [hreclaimed, hfinished]
    exact hinv.reclaimed

theorem Device.fetch {p : PcuCmd} {rest : List PcuCmd} (hinv : Device s)
    (hfetched : s.fetched = none) (hcff : s.txCff = p :: rest) :
    Device { s with fetched := some p, txCff := rest } := by
  obtain ⟨done, cur, rest', stale, own, hflow, hwin⟩ := hinv.flow
  -- nothing was fetched, so nothing is in the hand of the MAC
  have hcur : cur = [] := by
    rcases hflow.current with h | ⟨n, d, _, hd, _⟩
    · exact h
    · rw [hfetched] at hd
      cases hd
  subst hcur
  have hwin' : ∀ avail, done.length ≤ avail →
      Window { s with fetched := some p, txCff := rest } avail := by
    intro avail hle
    exact Window.mono hwin rfl (List.append_nil _).symm (fun n _ h => h) hle
  have hsplit := hcff.symm.trans hflow.cff
  refine ⟨hinv.words, ?_, ?_, hinv.ended, ?_, hinv.reclaimed⟩
  · have hroom := hinv.room
    rw [hcff, List.length_cons] at hroom
    show rest.length + s.holder.reserved ≤ _
    omega
  · intro d hd hmem
    refine hinv.hw d ?_ hmem
    unfold Tx.hw at hd ⊢
    rw [hfetched, hcff]
    exact hd
  · cases stale with
    | cons d stale =>
      rw [List.cons_append, List.cons.injEq] at hsplit
      have hdone : done = [] := by
        by_contra hne
        have := hflow.overtaken (by simpa using hne)
        cases this
      exact ⟨done, [], rest', stale, own, ⟨hflow.chain, hsplit.2, hflow.describes,
        hflow.finished, Or.inl rfl, fun h => absurd (by rw [hdone]; rfl) h⟩, hwin' _ le_rfl⟩
    | nil =>
      cases own with
      | nil => cases hsplit
      | cons d own =>
        rw [List.nil_append, List.cons.injEq] at hsplit
        obtain ⟨rfl, rfl⟩ := hsplit
        obtain ⟨n, rest'', hdesc, hrest, rfl⟩ := List.forall₂_cons_left_iff.mp hflow.describes
        refine ⟨done, [n], rest'', [], rest, ⟨?_, rfl, hrest, hflow.finished,
          Or.inr ⟨n, p, rfl, rfl, hdesc⟩, fun _ => rfl⟩, hwin' _ (Nat.le_add_right _ _)⟩
        exact hflow.chain

theorem Device.finish {p : PcuCmd} (hinv : Device s) (hfetched : s.fetched = some p) :
    Device { s.setNode p.clearAddr { s.node p.clearAddr with txState := gmacTxEnd } with
      fetched := none
      finished := Function.update s.finished p.pktAddr true } := by
  generalize hs' :
    ({ s.setNode p.clearAddr { s.node p.clearAddr with txState := gmacTxEnd } with
        fetched := none
        finished := Function.update s.finished p.pktAddr true } : Tx) = s'
  obtain ⟨done, cur, rest, stale, own, hflow, hwin⟩ := hinv.flow
  have hcontent : ∀ n, (s'.node n).txSkbBuff = (s.node n).txSkbBuff := by
    intro n
    rw [← hs']
    by_cases hn : n = p.clearAddr
    · subst hn
      show ((s.setNode p.clearAddr _).node p.clearAddr).txSkbBuff = _
      rw [setNode_self]
    · show ((s.setNode p.clearAddr _).node n).txSkbBuff = _
      rw [setNode_of_ne hn]
  have hfinished : ∀ k, s.finished k = true → s'.finished k = true := by
    intro k hk
    rw [← hs']
    show Function.update s.finished p.pktAddr true k = true
    by_cases hkp : k = p.pktAddr
    · rw [hkp, Function.update_self]
    · rw [Function.update_of_ne hkp, hk]
  have hlast : s'.finished p.pktAddr = true := by
    rw [← hs']
    exact Function.update_self ..
  have hdone : ∀ n, Done s n → Done s' n := fun n h => h.frame (hcontent n) hfinished
  have hdescribes : List.Forall₂ (Describes s') own rest :=
    describes_frame hflow.describes fun n _ => hcontent n
  have hsame : s'.chain = s.chain ∧ s'.txCff = s.txCff := by
    rw [← hs']
    exact ⟨rfl, rfl⟩
  have hwin' : Window s' (done.length + cur.length) := by
    refine hwin.mono (l := []) ?_ ?_ (fun n _ => hdone n) le_rfl
    · rw [← hs']
      rfl
    · rw [← hs']
      exact (List.append_nil _).symm
  refine ⟨?_, ?_, ?_, ?_, ?_, ?_⟩
  · rw [← hs']
    exact hinv.words
  · rw [← hs']
    exact hinv.room
  · intro d hd hmem
    rw [hcontent]
    rw [hsame.1] at hmem
    refine hinv.hw d (List.mem_append_right _ ?_) hmem
    rw [← hs'] at hd
    exact hd
  · intro n hn hend
    rw [hsame.1] at hn
    by_cases hnp : n = p.clearAddr
    · refine ⟨p.pktAddr, ?_, hlast⟩
      rw [hcontent, hnp]
      refine hinv.hw p ?_ (hnp ▸ hn)
      unfold Tx.hw
      rw [hfetched]
      exact List.mem_cons_self
    · refine hdone n (hinv.ended n hn ?_)
      rw [← hs'] at hend
      rw [← setNode_of_ne (s := s) hnp]
      exact hend
  · rcases hflow.current with rfl | ⟨n, d, rfl, hd, hdesc⟩
    · exact ⟨done, [], rest, stale, own, ⟨hsame.1.trans hflow.chain, hsame.2.trans hflow.cff,
        hdescribes, fun n hn => hdone n (hflow.finished n hn), Or.inl rfl, hflow.overtaken⟩, hwin'⟩
    · rw [hfetched] at hd
      cases hd
      refine ⟨done ++ [n], [], rest, stale, own, ⟨?_, hsame.2.trans hflow.cff, hdescribes, ?_,
        Or.inl rfl, fun _ => hflow.overtaken (by simp)⟩, ?_⟩
      · rw [hsame.1, hflow.chain, List.append_assoc, List.nil_append]
      · intro m hm
        rcases List.mem_append.mp hm with hm | hm
        · exact hdone m (hflow.finished m hm)
        · rw [List.mem_singleton] at hm
          subst hm
          exact ⟨p.pktAddr, (hcontent m).trans hdesc.2, hlast⟩
      · rw [List.length_append]
        exact hwin'
  · intro k hk
    refine hfinished k (hinv.reclaimed k ?_)
    rw [← hs'] at hk
    exact hk

theorem Device.goto {t : Tx} {pc : TxPc} (hctl : Control s) (hinv : Device s)
    (hpc : (s.call k).pc.locked = false)
    (hsame : (t.call, t.inusedLock, t.inused.head, t.mac, t.freeBd) =
      (s.call, s.inusedLock, s.inused.head, s.mac, s.freeBd))
    (hnode : ∀ n ∈ s.chain, t.node n = s.node n) : Device (t.goto k pc) := by
  simp only [Prod.mk.injEq] at hsame
  obtain ⟨hcall, hlock, hinused, hmac, hfreeBd⟩ := hsame
  refine hinv.still (.of_call hctl hpc (fun j hj => ?_) ?_ hnode) hfreeBd
  · rw [goto_call_of_ne hj, hcall]
  · rw [← hlock, ← hinused, ← hmac]
    rfl

theorem Device.gotoLocked {t : Tx} {pc old new : TxPc} (hinv : Device s)
    (hsame : (t.node, t.inused.head, t.freeBd, t.txCff, t.fetched, t.finished, t.reclaimed) =
      (s.node, s.inused.head, s.freeBd, s.txCff, s.fetched, s.finished, s.reclaimed))
    (hold : s.holder = old) (hnew : (t.goto k pc).holder = new)
    (hpending : new.pending = old.pending) (hwords : t.txWords = new.words ∧ t.txWords ≤ 3)
    (hroom : s.txCff.length + new.reserved ≤ chipTxFifoNum - 1) : Device (t.goto k pc) := by
  simp only [Prod.mk.injEq] at hsame
  obtain ⟨hnode, hinused, hfreeBd, hcff, hmac⟩ := hsame
  rw [← hnew] at hwords hroom
  refine hinv.frame ?_ (fun n _ => by rw [← hnode]; rfl) ⟨hcff, hmac⟩ hwords ?_ ?_
  · unfold Tx.chain
    rw [hnew, hpending, hold, ← hinused]
    rfl
  · rw [← hcff] at hroom
    exact hroom
  · intro _ _ _ _ _ _ hwin
    refine hwin.mono (l := []) hfreeBd ?_ ?_ le_rfl
    · rw [List.append_nil, ← hinused]
      rfl
    · intro n _ h
      refine h.frame ?_ fun k hk => ?_
      · rw [← hnode]
        rfl
      · rw [← hmac.2.1] at hk
        exact hk

theorem Device.held {pc : TxPc} (hinv : Device s) (hholder : s.holder = pc) :
    (s.txWords = pc.words ∧ s.txWords ≤ 3) ∧
      s.txCff.length + pc.reserved ≤ chipTxFifoNum - 1 := by
  rw [← hholder]
  exact ⟨hinv.words, hinv.room⟩

theorem goto_holder {t : Tx} {pc : TxPc} (hlock : t.inusedLock = some k) :
    (t.goto k pc).holder = pc := by
  rw [holder_eq (s := t.goto k pc) hlock, goto_call]

theorem Control.holder {pc : TxPc} (hctl : Control s) (hpc : (s.call k).pc = pc)
    (hlocked : pc.locked = true) : s.inusedLock = some k ∧ s.holder = pc := by
  have hlock : s.inusedLock = some k := (hctl.lock k).mp (by rw [hpc, hlocked])
  exact ⟨hlock, (holder_eq hlock).trans hpc⟩

theorem Device.cfTxCfgNum (hinv : Device s) :
    s.cfTxCfgNum = 4 * s.txCff.length + s.txWords ∧ s.cfTxCfgNum / 4 = s.txCff.length := by
  have hroom := hinv.room
  have hwords := hinv.words.2
  unfold chipTxFifoNum at hroom
  have heq : s.cfTxCfgNum = 4 * s.txCff.length + s.txWords := by
    unfold Tx.cfTxCfgNum
    exact Nat.mod_eq_of_lt (by omega)
  rw [heq]
  exact ⟨rfl, by omega⟩

theorem recycleTxBuffer_same {freeSkb : Bool} {pc : RecyclePc} {r : Tx × Option RecyclePc}
    (hctl : Control s) (hrec : s.recycling c = some pc)
    (hr : recycleTxBuffer s freeSkb pc = some r) :
    (r.1.call, r.1.inusedLock, r.1.inused.head, r.1.mac, r.1.freeBd) =
      (s.call, s.inusedLock, s.inused.head, s.mac, s.freeBd) ∧
      ∀ n ∈ s.chain, r.1.node n = s.node n := by
  cases pc with
  | clear n =>
    obtain ⟨skb, _, rfl⟩ := Option.map_eq_some_iff.mp hr
    refine ⟨rfl, fun m hm => setNode_of_ne ?_⟩
    rintro rfl
    obtain ⟨k, rfl, hadd⟩ := hctl.chain_hand hm (nodeOf_recycling hrec)
    simp only [Tx.recycling, hadd] at hrec
    cases hrec
  | requeue _ _ _ | unmap _ _ | free _ =>
    cases hr
    exact ⟨rfl, fun _ _ => rfl⟩

theorem recycleTxBuffer_aside {freeSkb : Bool} {pc : RecyclePc} {r : Tx × Option RecyclePc}
    (hctl : Control s) (hrec : s.recycling c = some pc)
    (hr : recycleTxBuffer s freeSkb pc = some r) : Aside s r.1 ∧ r.1.freeBd = s.freeBd := by
  obtain ⟨hsame, hnode⟩ := recycleTxBuffer_same hctl hrec hr
  simp only [Prod.mk.injEq] at hsame
  obtain ⟨hcall, hlock, hinused, hmac, hfreeBd⟩ := hsame
  exact ⟨⟨hlock, fun _ _ => by rw [hcall], hinused, hnode, hmac⟩, hfreeBd⟩

theorem Device.tx (hctl : Control s) (hinv : Device s) (hstep : gmacTxAddBd s k = some s') :
    Device s' := by
  have hok := hctl.calls k
  unfold CallOk at hok
  unfold gmacTxAddBd at hstep
  cases hpc : (s.call k).pc with
  | absent | returned _ =>
    simp only [hpc, reduceCtorEq] at hstep
  | called =>
    simp only [hpc] at hstep
    split at hstep
    · cases hstep
      exact hinv.goto hctl (by rw [hpc]; rfl) rfl fun _ _ => rfl
    · split at hstep
      all_goals
        cases hstep
        exact hinv.goto hctl (by rw [hpc]; rfl) rfl fun _ _ => rfl
  | map =>
    simp only [hpc] at hstep
    cases hstep
    exact hinv.still (.of_call hctl (by rw [hpc]; rfl) (fun j hj => Function.update_of_ne hj ..)
      rfl fun _ _ => rfl) rfl
  | acquire =>
    simp only [hpc] at hstep
    split at hstep
    all_goals
      cases hstep
      exact hinv.goto hctl (by rw [hpc]; rfl) rfl fun _ _ => rfl
  | fill n =>
    simp only [hpc] at hstep
    cases hstep
    refine hinv.still (.of_call hctl (by rw [hpc]; rfl)
      (fun j hj => Function.update_of_ne hj ..) rfl fun m hm => setNode_of_ne ?_) rfl
    rintro rfl
    have hhand : s.nodeOf (.call k) = some m := by
      simp only [Tx.nodeOf, hpc]
      rfl
    obtain ⟨j, hj, hadd⟩ := hctl.chain_hand hm hhand
    cases hj
    rw [hpc] at hadd
    cases hadd
  | lock n =>
    simp only [hpc] at hstep
    split at hstep
    next hfree =>
      cases hstep
      have hholder := holder_free hfree
      obtain ⟨hwords, hroom⟩ := hinv.held hholder
      exact hinv.gotoLocked rfl hholder (goto_holder rfl) rfl hwords hroom
    next => cases hstep
  | bdWrite n =>
    simp only [hpc] at hstep
    obtain ⟨hlock, hholder⟩ := hctl.holder hpc rfl
    obtain ⟨hwords, hroom⟩ := hinv.held hholder
    split at hstep
    · cases hstep
      exact hinv.gotoLocked rfl hholder (goto_holder hlock) rfl hwords hroom
    next hnum =>
      cases hstep
      refine hinv.gotoLocked rfl hholder (goto_holder hlock) rfl hwords ?_
      -- there is room for one more descriptor
      rw [hinv.cfTxCfgNum.1] at hnum
      unfold chipTxFifoNum at hnum ⊢
      show s.txCff.length + 1 ≤ 64 - 1
      omega
  | word n i =>
    simp only [hpc] at hstep
    rw [hpc] at hok
    obtain ⟨hlock, hholder⟩ := hctl.holder hpc rfl
    obtain ⟨hwords, hroom⟩ := hinv.held hholder
    have hi : s.txWords = i := hwords.1
    split at hstep
    next hlt =>
      cases hstep
      refine hinv.gotoLocked rfl hholder (goto_holder hlock) rfl ?_ hroom
      show s.txWords + 1 = i + 1 ∧ s.txWords + 1 ≤ 3
      omega
    next =>
      cases hstep
      obtain ⟨hfilled, hstate, hpkt, hclear, hfresh⟩ := hok
      have hgoto : ({ s with txWords := 0, txCff := s.txCff ++ [(s.call k).cmd] }.goto k
          (.add n)).holder = .add n := goto_holder hlock
      refine hinv.written (n := n) ?_ ⟨hclear, ?_⟩ ?_ hfresh rfl ⟨rfl, rfl, rfl, rfl⟩ ?_ ?_ ?_
      · unfold Tx.chain
        rw [hgoto, hholder]
        show s.inused.head ++ [n] = s.inused.head ++ [] ++ [n]
        rw [List.append_nil]
      · rw [hpkt]
        exact hfilled.1
      · rw [hstate]
        decide
      · rw [hgoto]
        exact ⟨rfl, Nat.zero_le _⟩
      · rw [hgoto]
        show (s.txCff ++ [(s.call k).cmd]).length + 0 ≤ _
        rw [List.length_append]
        exact hroom
      · intro avail hwin
        exact hwin.mono rfl (List.append_nil _).symm (fun _ _ h => h) le_rfl
  | add n =>
    simp only [hpc] at hstep
    cases hstep
    obtain ⟨hlock, hholder⟩ := hctl.holder hpc rfl
    obtain ⟨hwords, hroom⟩ := hinv.held hholder
    have hgoto : ({ s with inused := s.inused.enque n }.goto k .unlock).holder = .unlock :=
      goto_holder hlock
    refine hinv.frame ?_ (fun _ _ => rfl) ⟨rfl, rfl, rfl, rfl⟩ ?_ ?_ ?_
    · unfold Tx.chain
      rw [hgoto, hholder]
      exact List.append_nil _
    · rw [hgoto]
      exact hwords
    · rw [hgoto]
      exact hroom
    · intro _ _ _ _ _ _ hwin
      exact hwin.mono rfl rfl (fun _ _ h => h) le_rfl
  | unlock | failUnlock n =>
    simp only [hpc] at hstep
    cases hstep
    obtain ⟨hlock, hholder⟩ := hctl.holder hpc rfl
    obtain ⟨hwords, hroom⟩ := hinv.held hholder
    exact hinv.gotoLocked rfl hholder (holder_free rfl) rfl hwords hroom
  | recycle pc =>
    simp only [hpc] at hstep
    obtain ⟨⟨t, pc'⟩, hr, rfl⟩ := Option.map_eq_some_iff.mp hstep
    have hlocked : (s.call k).pc.locked = false := by
      rw [hpc]
      rfl
    have hrec : s.recycling (.call k) = some pc := by
      simp only [Tx.recycling, hpc]
      rfl
    obtain ⟨hsame, hnode⟩ := recycleTxBuffer_same hctl hrec hr
    exact hinv.goto hctl hlocked hsame hnode

theorem Device.stay {pc : FreePc} (hinv : Device s)
    (hwindow : ∀ done cur rest stale own, Flow s done cur rest stale own →
      Window s (done.length + cur.length) →
      Window { s with freeBd := pc } (done.length + cur.length)) :
    Device { s with freeBd := pc } :=
  hinv.aside (.of_eq rfl) hwindow

theorem dequeInused_eq {r : Tx × Option ℕ} (hr : dequeInused s = some r) :
    s.inusedLock = none ∧ (s.inused.head = [] ∧ r = (s, none) ∨
      ∃ n rest, s.inused.head = n :: rest ∧
        r = ({ s with inused := ⟨s.inused.listCount - 1, rest⟩ }, some n)) := by
  unfold dequeInused at hr
  split at hr
  next hlock =>
    refine ⟨hlock, ?_⟩
    split at hr
    next hhead =>
      cases hr
      exact Or.inl ⟨hhead, rfl⟩
    next n rest hhead =>
      cases hr
      exact Or.inr ⟨n, rest, hhead, rfl⟩
  next => cases hr

theorem Device.take {rest : List ℕ} {pc : FreePc} (hinv : Device s)
    (hlock : s.inusedLock = none) (hhead : s.inused.head = n :: rest) (hdone : Done s n)
    (hwindow : ∀ done cur rest' stale own avail', Flow s done cur rest' stale own →
      Window s (done.length + cur.length) → done.length + cur.length ≤ avail' + 1 →
      Window { s with freeBd := pc } avail')
    (hpc : ∀ limit, pc ≠ .readNum limit) (hlast : pc ≠ .last) :
    Device { Tx.reclaim { s with inused := ⟨s.inused.listCount - 1, rest⟩ } n with freeBd := pc } := by
  refine hinv.deque hlock hhead rfl ⟨rfl, hlock⟩ ⟨rfl, rfl, rfl, rfl⟩ ?_ ?_
  · intro k hk
    rcases List.mem_append.mp hk with hk | hk
    · exact hinv.reclaimed k hk
    · obtain ⟨j, hj, hfin⟩ := hdone
      have hkj : (s.node n).txSkbBuff = some k := Option.mem_toList.mp hk
      rw [hj] at hkj
      cases hkj
      exact hfin
  · intro done cur rest' stale own avail' hflow hwin hle
    have hwin' := hwindow done cur rest' stale own avail' hflow hwin hle
    unfold Window at hwin' ⊢
    cases pc with
    | readNum limit => exact absurd rfl (hpc limit)
    | last => exact absurd rfl hlast
    | recycle limit count inLoop pc =>
      cases inLoop with
      | true => exact hwin'
      | false => trivial
    | _ => exact hwin'

theorem Device.freeBd (hctl : Control s) (hinv : Device s) (hstep : gmacTxFreeBd s = some s') :
    Device s' := by
  unfold gmacTxFreeBd at hstep
  cases hpc : s.freeBd with
  | idle =>
    simp only [hpc, reduceCtorEq] at hstep
  | count =>
    simp only [hpc] at hstep
    split at hstep
    next =>
      cases hstep
      refine hinv.stay fun _ _ _ _ _ _ _ => ?_
      exact hctl.count.le
    next => cases hstep
  | readNum limit =>
    simp only [hpc] at hstep
    cases hstep
    refine hinv.stay fun done cur rest stale own hflow hwin => ?_
    unfold Window at hwin
    rw [hpc] at hwin
    have hlimit : limit ≤ s.inused.head.length := hwin
    have hlength := hflow.length
    have hchain : s.inused.head.length ≤ s.chain.length := by
      unfold Tx.chain
      rw [List.length_append]
      exact Nat.le_add_right _ _
    rw [hinv.cfTxCfgNum.2]
    unfold Window
    by_cases hle : s.txCff.length < limit
    · rw [if_pos hle, if_neg (by omega)]
      show 0 < limit - s.txCff.length ∧ limit - s.txCff.length ≤ 0 + _
      omega
    · rw [if_neg hle, if_pos rfl]
      trivial
  | loop limit count =>
    simp only [hpc] at hstep
    split at hstep
    next hlt =>
      obtain ⟨r, hr, rfl⟩ := Option.map_eq_some_iff.mp hstep
      obtain ⟨done, cur, rest', stale, own, hflow, hwin⟩ := hinv.flow
      unfold Window at hwin
      rw [hpc] at hwin
      have hlimit : count < limit ∧ limit ≤ count + (done.length + cur.length) := hwin
      have hcur : cur.length ≤ 1 := by
        rcases hflow.current with rfl | ⟨m, p, rfl, _⟩
        · exact Nat.zero_le 1
        · exact le_rfl
      -- two nodes are behind the FIFO, so the first is finished
      have hpos : 0 < done.length := by omega
      obtain ⟨hlock, ⟨hhead, rfl⟩ | ⟨n, rest, hhead, rfl⟩⟩ := dequeInused_eq hr
      · have hchain := hflow.chain
        rw [chain_free hlock, hhead] at hchain
        have hdone := (List.append_eq_nil_iff.mp hchain.symm).1
        rw [hdone] at hpos
        cases hpos
      · have hn : Done s n := by
          refine hflow.finished n ?_
          obtain ⟨m, done', rfl⟩ := List.exists_cons_of_length_pos hpos
          have hchain := hflow.chain
          rw [chain_free hlock, hhead, List.cons_append, List.cons.injEq] at hchain
          rw [hchain.1]
          exact List.mem_cons_self
        refine hinv.take hlock hhead hn ?_ (fun _ => by simp) (by simp)
        intro _ _ _ _ _ avail' _ hwin' hle
        unfold Window at hwin'
        rw [hpc] at hwin'
        show count + 1 < limit ∧ limit ≤ count + 1 + avail'
        have hlimit' : count < limit ∧ limit ≤ count + _ := hwin'
        omega
    next =>
      cases hstep
      exact hinv.stay fun _ _ _ _ _ _ _ => trivial
  | recycle limit count inLoop pc =>
    simp only [hpc] at hstep
    obtain ⟨⟨t, pc'⟩, hr, rfl⟩ := Option.map_eq_some_iff.mp hstep
    have hrec : s.recycling .freeBd = some pc := by
      simp only [Tx.recycling, hpc]
      rfl
    obtain ⟨⟨hlock, hcall, hinused, hnode, hmac⟩, -⟩ := recycleTxBuffer_aside hctl hrec hr
    refine hinv.aside ⟨hlock, hcall, hinused, hnode, hmac⟩ ?_
    intro _ _ _ _ _ _ hwin
    unfold Window at hwin ⊢
    rw [hpc] at hwin
    cases pc' with
    | some pc' =>
      cases inLoop with
      | true => exact hwin
      | false => trivial
    | none =>
      cases inLoop with
      | true => exact hwin
      | false => trivial
  | head =>
    simp only [hpc] at hstep
    split at hstep
    next =>
      cases hstep
      exact hinv.stay fun _ _ _ _ _ _ _ => trivial
    next n rest hhead =>
      cases hstep
      refine hinv.stay fun _ _ _ _ _ _ _ => ?_
      by_cases hend : (s.node n).txState ≠ gmacTxEnd
      · rw [if_pos hend]
        trivial
      · rw [if_neg hend]
        refine ⟨n, rest, hhead, hinv.ended n ?_ (not_not.mp hend)⟩
        refine List.mem_append_left _ ?_
        rw [hhead]
        exact List.mem_cons_self
  | last =>
    simp only [hpc] at hstep
    obtain ⟨r, hr, rfl⟩ := Option.map_eq_some_iff.mp hstep
    obtain ⟨hlock, ⟨hhead, rfl⟩ | ⟨n, rest, hhead, rfl⟩⟩ := dequeInused_eq hr
    · exact hinv.stay fun _ _ _ _ _ _ _ => trivial
    · obtain ⟨_, _, _, _, _, _, hwin⟩ := hinv.flow
      unfold Window at hwin
      rw [hpc] at hwin
      obtain ⟨m, rest', hm, hdone⟩ := hwin
      rw [hhead, List.cons.injEq] at hm
      rw [← hm.1] at hdone
      exact hinv.take hlock hhead hdone (fun _ _ _ _ _ _ _ _ _ => trivial) (fun _ => by simp)
        (by simp)
  | exit =>
    simp only [hpc] at hstep
    cases hstep
    exact hinv.stay fun _ _ _ _ _ _ _ => trivial

theorem window_of_not_counted (hcounted : s.freeBd.counted = false) : Window s avail := by
  unfold Window
  cases hpc : s.freeBd with
  | recycle limit count inLoop pc =>
    cases inLoop with
    | true =>
      rw [hpc] at hcounted
      cases hcounted
    | false => trivial
  | readNum _ | loop _ _ | last =>
    rw [hpc] at hcounted
    cases hcounted
  | idle | count | head | exit => trivial

theorem Device.force (hctl : Control s) (hinv : Device s) (hallowed : Orderly s .force)
    (hstep : gmacTxFreeAllBdForce s = some s') : Device s' := by
  unfold gmacTxFreeAllBdForce at hstep
  cases hpc : s.force with
  | idle =>
    simp only [hpc, reduceCtorEq] at hstep
  | check =>
    simp only [hpc] at hstep
    split at hstep
    next =>
      cases hstep
      exact hinv.still (.of_eq rfl) rfl
    next => cases hstep
  | deque =>
    simp only [hpc] at hstep
    obtain ⟨r, hr, rfl⟩ := Option.map_eq_some_iff.mp hstep
    obtain ⟨hlock, ⟨_, rfl⟩ | ⟨n, rest, hhead, rfl⟩⟩ := dequeInused_eq hr
    · exact hinv.still (.of_eq rfl) rfl
    · refine hinv.deque hlock hhead rfl ⟨rfl, hlock⟩ ⟨rfl, rfl, rfl, rfl⟩ hinv.reclaimed ?_
      exact fun _ _ _ _ _ _ _ _ _ => window_of_not_counted (hallowed hpc)
  | recycle pc =>
    simp only [hpc] at hstep
    obtain ⟨⟨t, pc'⟩, hr, rfl⟩ := Option.map_eq_some_iff.mp hstep
    have hrec : s.recycling .force = some pc := by
      simp only [Tx.recycling, hpc]
      rfl
    obtain ⟨⟨hlock, hcall, hinused, hnode, hmac⟩, hfreeBd⟩ := recycleTxBuffer_aside hctl hrec hr
    exact hinv.still ⟨hlock, hcall, hinused, hnode, hmac⟩ hfreeBd

structure Inv (s : Tx) : Prop where
  control : Control s
  device : Device s

theorem Inv.next {a : Action} (hinv : Inv s) (hallowed : Orderly s a)
    (hstep : GmacTx.next s a = some s') : Inv s' := by
  refine ⟨hinv.control.next hallowed hstep, ?_⟩
  have hctl := hinv.control
  have hdev := hinv.device
  unfold GmacTx.next at hstep
  cases a with
  | xmit k skb =>
    simp only at hstep
    split at hstep
    next hpc =>
      cases hstep
      exact hdev.still (.of_call hctl (by rw [hpc]; rfl)
        (fun j hj => Function.update_of_ne hj ..) rfl fun _ _ => rfl) rfl
    next => cases hstep
  | tx k => exact Device.tx hctl hdev hstep
  | runFreeBd =>
    simp only at hstep
    split at hstep
    next =>
      cases hstep
      exact hdev.stay fun _ _ _ _ _ _ _ => trivial
    next => cases hstep
  | freeBd => exact Device.freeBd hctl hdev hstep
  | runForce =>
    simp only at hstep
    split at hstep
    next =>
      cases hstep
      exact hdev.still (.of_eq rfl) rfl
    next => cases hstep
  | force => exact Device.force hctl hdev hallowed hstep
  | fetch =>
    simp only at hstep
    split at hstep
    next p rest hfetched hcff =>
      cases hstep
      exact hdev.fetch hfetched hcff
    next => cases hstep
  | finish =>
    obtain ⟨p, hp, rfl⟩ := Option.map_eq_some_iff.mp hstep
    exact hdev.finish hp
  | setOpened opened =>
    cases hstep
    exact hdev.still (.of_eq rfl) rfl

theorem Inv.initial (hinit : GmacTx.initial s) : Inv s := by
  obtain ⟨hnode, hunused, hinused, hlock, hcall, hfreeBd, hforce, hcff, hwords, hfetched, hmapped,
    hfreed, hreclaimed⟩ := hinit
  have hnodeOf : ∀ c, s.nodeOf c = none := by
    intro c
    cases c with
    | call k =>
      simp only [Tx.nodeOf, hcall]
      rfl
    | freeBd =>
      simp only [Tx.nodeOf, hfreeBd]
      rfl
    | force =>
      simp only [Tx.nodeOf, hforce]
      rfl
  have hskbOf : ∀ c, s.skbOf c = none := by
    intro c
    cases c with
    | call k =>
      simp only [Tx.skbOf, hcall]
      rfl
    | freeBd =>
      simp only [Tx.skbOf, hfreeBd]
      rfl
    | force =>
      simp only [Tx.skbOf, hforce]
      rfl
  have hqueued : s.queued = [] := by
    unfold Tx.queued
    rw [hinused]
    rfl
  have hchain : s.chain = [] := by rw [chain_free hlock, hinused]
  refine ⟨⟨?_, ?_, ?_, ?_, ?_, ?_, ?_, ?_, ?_⟩, ⟨?_, ?_, ?_, ?_, ?_, ?_⟩⟩
  · rw [hunused, hinused]
    exact Custody.init List.nodup_range hnodeOf fun a => List.mem_range.symm
  · rw [hfreed, hqueued]
    refine Custody.init List.nodup_nil hskbOf fun k => ?_
    rw [hcall]
    simp [TxPc.charged, TxPc.refers]
  · rw [hinused]
    rfl
  · intro k
    rw [hcall, hlock]
    simp [TxPc.locked]
  · intro k
    unfold CallOk
    rw [hcall]
    trivial
  · intro n hn
    rw [hinused] at hn
    cases hn
  · intro n k hn
    rw [hnode] at hn
    cases hn
  · intro c n skb dma _
    exact hnode n
  · intro k hk
    rw [hmapped] at hk
    cases hk
  · rw [holder_free hlock, hwords]
    exact ⟨rfl, Nat.zero_le 3⟩
  · rw [holder_free hlock, hcff]
    exact Nat.zero_le _
  · intro p _ hp
    rw [hchain] at hp
    cases hp
  · intro n hn
    rw [hchain] at hn
    cases hn
  · refine ⟨[], [], [], [], [], ⟨hchain, hcff, List.Forall₂.nil, ?_, Or.inl rfl, fun _ => rfl⟩, ?_⟩
    · intro n hn
      cases hn
    · exact window_of_not_counted (by rw [hfreeBd]; rfl)
  · intro k hk
    rw [hreclaimed] at hk
    cases hk

theorem Inv.account (hinv : Inv s) : Account s := by
  have hskbs := hinv.control.skbs
  refine ⟨hinv.control.nodes, hinv.device.reclaimed, ?_, ?_, ?_⟩
  · intro k hk
    have hcharged : (s.call k).pc.charged = true := by
      rw [hk]
      rfl
    rcases (hskbs.mem_iff k).mp hcharged with h | h | ⟨c, h⟩
    · exact Or.inl ⟨h, hskbs.disjoint k h, fun c hc => hskbs.hand_left c k hc h⟩
    · exact Or.inr (Or.inl ⟨fun hf => hskbs.disjoint k hf h, h,
        fun c hc => hskbs.hand_right c k hc h⟩)
    · exact Or.inr (Or.inr ⟨hskbs.hand_left c k h, hskbs.hand_right c k h, c, h⟩)
  · exact ⟨hskbs.nodup_left, hskbs.nodup_right, hskbs.hand_inj⟩
  · intro k hk
    have hcharged : ¬ (s.call k).pc.charged = true := by
      rw [hk]
      exact fun h => by cases h
    have hcust := (not_congr (hskbs.mem_iff k)).mp hcharged
    rw [not_or, not_or, not_exists] at hcust
    obtain ⟨hfreed, hqueued, hhand⟩ := hcust
    refine ⟨hfreed, ?_, hhand, ?_⟩
    · intro n hn
      rcases hinv.control.fresh n k hn with h | ⟨c, _, h⟩
      · exact hqueued (List.mem_filterMap.mpr ⟨n, h, hn⟩)
      · exact hhand c h
    · by_contra hmapped
      have hmaps := hinv.control.mapped k (Bool.eq_true_of_not_eq_false hmapped)
      rw [hk] at hmaps
      cases hmaps

/-- In a run where every call that has mapped its packet finds a node that the MAC is done
with, and nothing is forced out of the queue that a run of `gmac_tx_free_bd` has counted,
the accounts of the nodes and of the skbs are right. -/
theorem orderly_accounts (hreach : (system.restrict Orderly).Reachable s) : Account s := by
  have hinv : Inv s := hreach.invariant (fun _ h => Inv.initial h)
    fun _ _ _ _ hinv hstep => hinv.next hstep.1 hstep.2
  exact hinv.account

instance : DecidablePred Tx.ready := fun s =>
  match h : s.unused.head with
  | [] => isFalse (by unfold Tx.ready; rw [h]; exact id)
  | n :: _ => decidable_of_iff (∀ d ∈ s.hw, d.clearAddr ≠ n) (by unfold Tx.ready; rw [h])

instance (s : Tx) (a : Action) : Decidable (Orderly s a) :=
  match a with
  | .tx k => inferInstanceAs (Decidable ((s.call k).pc = .acquire → s.ready))
  | .force => inferInstanceAs (Decidable (s.force = .deque → s.freeBd.counted = false))
  | .xmit _ _ | .runFreeBd | .freeBd | .runForce | .fetch | .finish | .setOpened _ =>
    isTrue trivial

def ringSetUp : Tx where
  node _ := ⟨0, none, 0⟩
  unused := ⟨gmacTxBdRingSize, List.range gmacTxBdRingSize⟩
  inused := ⟨0, []⟩
  inusedLock := none
  opened := true
  call _ := ⟨⟨0, 0, 0, false⟩, ⟨false, false, false, 0, 0, 0, 0⟩, .absent⟩
  freeBd := .idle
  force := .idle
  txCff := []
  txWords := 0
  fetched := none
  mapped _ := false
  freed := []
  finished _ := false
  reclaimed := []

theorem ringSetUp_initial : initial ringSetUp :=
  ⟨fun _ => rfl, rfl, rfl, rfl, fun _ => rfl, rfl, rfl, rfl, rfl, rfl, fun _ => rfl, rfl, rfl⟩

def send (k : ℕ) : List Action := .xmit k ⟨60, 34, 20, true⟩ :: List.replicate 12 (.tx k)

def sendTwo : List Action :=
  send 0 ++ send 1 ++ [Action.fetch, .finish, .runFreeBd] ++ List.replicate 10 Action.freeBd

def afterTwo : Tx :=
  (runSteps (guarded Orderly next) ringSetUp sendTwo).get (by decide +kernel)

theorem afterTwo_run : runSteps (guarded Orderly next) ringSetUp sendTwo = some afterTwo :=
  (Option.some_get _).symm

theorem orderly_accounts_two :
    Account afterTwo ∧ afterTwo.freed = [0] ∧ afterTwo.reclaimed = [0] ∧
      afterTwo.queued = [1] ∧ afterTwo.txCff.length = 1 ∧ afterTwo.freeBd = .idle := by
  have hreach : (system.restrict Orderly).Reachable afterTwo :=
    Reachable.runGuarded (Reachable.init ringSetUp_initial) afterTwo_run
  refine ⟨orderly_accounts hreach, ?_⟩
  decide +kernel

def sendAll : List Action :=
  send 0 ++ .fetch :: ((List.range gmacTxBdRingSize).tail.flatMap send ++ (send 64).take 4)

def afterAll : Tx := (runSteps next ringSetUp sendAll).get (by decide +kernel)

theorem afterAll_run : runSteps next ringSetUp sendAll = some afterAll :=
  (Option.some_get _).symm

/-- No node is left, and the call returns with its packet mapped. -/
theorem busy_leaves_mapping :
    system.Reachable afterAll ∧ ¬ Account afterAll ∧
      (afterAll.call 64).pc = .returned netdevTxBusy ∧ afterAll.mapped 64 = true := by
  have hbusy : (afterAll.call 64).pc = .returned netdevTxBusy := by decide +kernel
  have hmapped : afterAll.mapped 64 = true := by decide +kernel
  refine ⟨(Reachable.init ringSetUp_initial).runSteps afterAll_run, ?_, hbusy, hmapped⟩
  intro haccount
  have hfalse := (haccount.busy 64 hbusy).2.2.2
  rw [hmapped] at hfalse
  cases hfalse

end HiMpu.GmacTx
