import HiMpu.Mailbox

/-!
# The mailboxes are atomic

A mailbox is free, and holds what the calls that have released it have sent, or exactly
one call has it.  The receiver that has it finds the contents of that moment, byte by
byte, because no other call moves.
-/

namespace HiMpu.Message

open Securec

variable {L : Layout} {mem mem₀ : Mem} {s s' : State} {c : Call} {k j m m' i : ℕ}

theorem Layout.msgBase_eq (L : Layout) (m : ℕ) :
    L.msgBase m = L.hiSharedBaseAddr + 16 + m * 260 := by
  simp only [Layout.msgBase, Layout.ipiTrigger, bmMaxCoreNum, hiSharedIpiArgLen, msgBodyLen,
    msgHeadLen]

theorem Layout.msgBuf_eq (L : Layout) (m : ℕ) :
    L.msgBuf m = L.hiSharedBaseAddr + 20 + m * 260 := by
  simp only [Layout.msgBuf, L.msgBase_eq, msgHeadLen]
  omega

@[simp] theorem flagStatus_set (L : Layout) (mem : Mem) (m status : ℕ) (hlt : status < 2) :
    flagStatus L (setFlagStatus L mem m status) m = msgHeadFlag status := by
  apply Mem.load_store_same_of_lt
  interval_cases status <;> decide

theorem flagStatus_set_other {status : ℕ} (hne : m ≠ m') :
    flagStatus L (setFlagStatus L mem m status) m' = flagStatus L mem m' := by
  apply Mem.load_store_disjoint
  simp only [L.msgBase_eq]
  omega

theorem body_setFlagStatus {status : ℕ} (hi : i < msgBodyLen) :
    body L (setFlagStatus L mem m status) m' i = body L mem m' i := by
  apply Mem.store_outside
  simp only [L.msgBuf_eq, L.msgBase_eq]
  have hlt : i < 256 := hi
  omega

theorem flagStatus_update {byte : UInt8} (hi : i < msgBodyLen) :
    flagStatus L (Function.update mem (L.msgBuf m + i) byte) m' = flagStatus L mem m' := by
  apply Mem.load_congr
  intro x hlow hhigh
  apply Function.update_of_ne
  simp only [L.msgBuf_eq]
  simp only [L.msgBase_eq] at hlow hhigh
  have hlt : i < 256 := hi
  omega

theorem body_update_same {byte : UInt8} :
    body L (Function.update mem (L.msgBuf m + i) byte) m =
      Function.update (body L mem m) i byte := by
  funext x
  by_cases hx : x = i
  · subst hx
    simp [body]
  · have hne : L.msgBuf m + x ≠ L.msgBuf m + i := by omega
    simp only [body, Function.update_of_ne hx, Function.update_of_ne hne]

theorem body_update_other {byte : UInt8} (hne : m ≠ m') (hi : i < msgBodyLen) (hj : j < msgBodyLen) :
    body L (Function.update mem (L.msgBuf m + i) byte) m' j = body L mem m' j := by
  apply Function.update_of_ne
  simp only [L.msgBuf_eq]
  have hi : i < 256 := hi
  have hj : j < 256 := hj
  omega

theorem flagStatus_setTrigger {cpu id : ℕ} :
    flagStatus L (setTrigger L mem cpu id) m = flagStatus L mem m := by
  apply Mem.load_store_disjoint
  simp only [L.msgBase_eq, Layout.ipiTrigger, hiSharedIpiArgLen]
  omega

theorem body_setTrigger {cpu id : ℕ} :
    body L (setTrigger L mem cpu id) m = body L mem m := by
  funext x
  apply Mem.store_outside
  simp only [L.msgBuf_eq, Layout.ipiTrigger, hiSharedIpiArgLen]
  omega

/-! ## The initial memory -/

theorem flagStatus_foldl_setTrigger (cpus : List ℕ) (mem : Mem) :
    flagStatus L (cpus.foldl (fun mem i => setTrigger L mem i 0) mem) m = flagStatus L mem m := by
  induction cpus generalizing mem with
  | nil => rfl
  | cons cpu cpus ih => rw [List.foldl_cons, ih, flagStatus_setTrigger]

theorem body_foldl_setTrigger (cpus : List ℕ) (mem : Mem) :
    body L (cpus.foldl (fun mem i => setTrigger L mem i 0) mem) m = body L mem m := by
  induction cpus generalizing mem with
  | nil => rfl
  | cons cpu cpus ih => rw [List.foldl_cons, ih, body_setTrigger]

theorem body_foldl_setFlagStatus (ids : List ℕ) (mem : Mem) (hi : i < msgBodyLen) :
    body L (ids.foldl (fun mem i => setFlagStatus L mem i msgStatusFree) mem) m i =
      body L mem m i := by
  induction ids generalizing mem with
  | nil => rfl
  | cons id ids ih => rw [List.foldl_cons, ih, body_setFlagStatus hi]

theorem flagStatus_foldl_setFlagStatus (n : ℕ) (mem : Mem) (hm : m < n) :
    flagStatus L ((List.range n).foldl (fun mem i => setFlagStatus L mem i msgStatusFree) mem) m =
      msgHeadFlag msgStatusFree := by
  induction n with
  | zero => omega
  | succ n ih =>
    rw [List.range_succ, List.foldl_append, List.foldl_cons, List.foldl_nil]
    by_cases hlast : m = n
    · subst hlast
      exact flagStatus_set L _ m msgStatusFree (by decide)
    · rw [flagStatus_set_other (Ne.symm hlast)]
      exact ih (by omega)

theorem flagStatus_bmMsgInit (hm : m < msgIdBottom) :
    flagStatus L (bmMsgInit L mem) m = msgHeadFlag msgStatusFree := by
  rw [bmMsgInit, flagStatus_foldl_setTrigger, flagStatus_foldl_setFlagStatus msgIdBottom mem hm]

theorem body_bmMsgInit (hi : i < msgBodyLen) :
    body L (bmMsgInit L mem) m i = body L mem m i := by
  rw [bmMsgInit, body_foldl_setTrigger, body_foldl_setFlagStatus _ mem hi]

/-! ## Checked calls -/

theorem msgId_lt (hvalid : ¬ c.refused L) : c.msgId < msgIdBottom := by
  unfold Call.refused at hvalid
  omega

theorem buf_apart {n : ℕ} (hvalid : ¬ c.refused L) (hcount : n ≤ c.bufLen)
    (hbody : n ≤ msgBodyLen) :
    memoryNoOverlap (L.msgBuf m) c.buf n ∧ memoryNoOverlap c.buf (L.msgBuf m) n ∨
      msgIdBottom ≤ m := by
  by_cases hm : msgIdBottom ≤ m
  · exact Or.inr hm
  · have hbelow := L.imagesBelow c.core
    have hfits := L.fits
    simp only [Call.refused, Layout.isInvalidAddrLen, not_or, not_not] at hvalid
    simp only [memoryNoOverlap, L.msgBuf_eq, msgIdBottom, shareMsgLen, msgBodyLen] at *
    by_cases hlow : c.buf < 2 ^ 32
    · rw [Nat.mod_eq_of_lt hlow] at hvalid
      omega
    · omega

theorem Call.memcpy_eq (hvalid : ¬ c.refused L) (hfits : ¬ (c.op = .send ∧ msgBodyLen < c.bufLen)) :
    c.memcpy L = ⟨false, c.moves, eok⟩ := by
  have hmoves : c.moves ≤ c.bufLen ∧ c.moves ≤ msgBodyLen := by
    unfold Call.moves
    omega
  have hnull : c.buf ≠ 0 := by
    unfold Call.refused at hvalid
    omega
  have hbody : L.msgBuf c.msgId ≠ 0 := by
    rw [L.msgBuf_eq]
    omega
  have hapart := (buf_apart (m := c.msgId) hvalid hmoves.1 hmoves.2).resolve_right
    (by have := msgId_lt hvalid; omega)
  unfold Call.memcpy
  cases hop : c.op with
  | send =>
    have hlen : c.moves = c.bufLen := by
      have hle : ¬ msgBodyLen < c.bufLen := fun h => hfits ⟨hop, h⟩
      unfold Call.moves
      omega
    rw [hlen] at hmoves hapart ⊢
    exact memcpyS_apart hbody hnull hmoves.2 (by decide) (by decide) hapart.1
  | recv =>
    have hlen : (if msgBodyLen < c.bufLen then msgBodyLen else c.bufLen) = c.moves := by
      unfold Call.moves
      split <;> omega
    simp only [hlen]
    exact memcpyS_apart hnull hbody hmoves.2 (by decide) (by decide) hapart.2

def Call.moved (c : Call) : Finset ℕ :=
  match c.pc with
  | .moving _ done => done
  | .releasing ret => if ret = bmOk then Finset.range c.moves else ∅
  | _ => ∅

def Pc.copies : Pc → Prop
  | .moving _ _ => True
  | .releasing ret | .returned ret => ret = bmOk
  | _ => False

def Pc.checked : Pc → Prop
  | .compare | .acquired | .moving _ _ | .releasing _ => True
  | .returned ret => ret = bmOk
  | .absent | .called => False

structure HolderOk (L : Layout) (mem : Mem) (c : Call) (found : Mem) : Prop where
  plan : ∀ plan done, c.pc = .moving plan done →
    plan = ⟨false, c.moves, eok⟩ ∧ done ⊆ Finset.range c.moves
  fits : c.pc.copies → ¬ (c.op = .send ∧ msgBodyLen < c.bufLen)
  body : ∀ i < msgBodyLen,
    body L mem c.msgId i = if c.op = .send ∧ i ∈ c.moved then c.data i else found i
  received : c.op = .recv → ∀ i ∈ c.moved, c.data i = found i

structure Box (L : Layout) (mem₀ : Mem) (s : State) (m : ℕ) : Prop where
  nodup : (s.acquired m).Nodup
  member : ∀ k ∈ s.acquired m,
    (s.call k).msgId = m ∧ ((s.call k).pc.holds ∨ ∃ ret, (s.call k).pc = .returned ret)
  released : ∀ k ∈ s.released m, ∃ ret, (s.call k).pc = .returned ret
  delivered : ∀ pre r post, s.released m = pre ++ r :: post → (s.call r).op = .recv →
    (s.call r).pc = .returned bmOk →
    ∀ i < (s.call r).moves, (s.call r).data i = contents L mem₀ s m pre i
  phase :
    (s.acquired m = s.released m ∧ flagStatus L s.mem m = msgHeadFlag msgStatusFree ∧
      ∀ i < msgBodyLen, body L s.mem m i = contents L mem₀ s m (s.released m) i) ∨
    ∃ k, s.acquired m = s.released m ++ [k] ∧ (s.call k).pc.holds ∧
      flagStatus L s.mem m = msgHeadFlag msgStatusUsing ∧
      HolderOk L s.mem (s.call k) (contents L mem₀ s m (s.released m))

structure CallOk (L : Layout) (s : State) (k : ℕ) : Prop where
  valid : (s.call k).pc.checked → ¬ (s.call k).refused L
  owner : (s.call k).pc.holds ∨ (s.call k).pc = .returned bmOk →
    k ∈ s.acquired (s.call k).msgId
  quiet : ¬ (s.call k).pc.copies → s.stores k = []

structure Inv (L : Layout) (mem₀ : Mem) (s : State) : Prop where
  boxes : ∀ m < msgIdBottom, Box L mem₀ s m
  calls : ∀ k, CallOk L s k

theorem contents_congr {calls : List ℕ} (hcalls : ∀ k ∈ calls, s'.call k = s.call k) :
    contents L mem₀ s' m calls = contents L mem₀ s m calls := by
  unfold contents
  generalize body L mem₀ m = found
  induction calls generalizing found with
  | nil => rfl
  | cons k calls ih =>
    rw [List.foldl_cons, List.foldl_cons, hcalls k List.mem_cons_self]
    exact ih (fun j hj => hcalls j (List.mem_cons_of_mem _ hj)) _

theorem contents_concat (calls : List ℕ) :
    contents L mem₀ s m (calls ++ [k]) =
      (s.call k).applied (contents L mem₀ s m calls) := by
  simp only [contents, List.foldl_append, List.foldl_cons, List.foldl_nil]

theorem HolderOk.congr {found : Mem} (hholder : HolderOk L mem c found)
    (hbody : ∀ i < msgBodyLen, Message.body L mem₀ c.msgId i = Message.body L mem c.msgId i) :
    HolderOk L mem₀ c found where
  plan := hholder.plan
  fits := hholder.fits
  body := fun i hi => (hbody i hi).trans (hholder.body i hi)
  received := hholder.received

theorem Box.released_subset (hbox : Box L mem₀ s m) : s.released m ⊆ s.acquired m := by
  rcases hbox.phase with ⟨heq, _⟩ | ⟨k, heq, _⟩
  · rw [heq]
    exact List.Subset.refl _
  · rw [heq]
    exact List.subset_append_left _ _

theorem Box.holder_last (hbox : Box L mem₀ s m) (hmem : k ∈ s.acquired m)
    (hholds : (s.call k).pc.holds) :
    s.acquired m = s.released m ++ [k] ∧ flagStatus L s.mem m = msgHeadFlag msgStatusUsing ∧
      HolderOk L s.mem (s.call k) (contents L mem₀ s m (s.released m)) := by
  have hnot : k ∉ s.released m := by
    intro hreleased
    obtain ⟨ret, hret⟩ := hbox.released k hreleased
    rw [hret] at hholds
    exact hholds
  rcases hbox.phase with ⟨heq, _⟩ | ⟨j, heq, _, hstatus, hholder⟩
  · exact absurd (heq ▸ hmem) hnot
  · have hkj : k = j := by
      rw [heq, List.mem_append, List.mem_singleton] at hmem
      exact hmem.resolve_left hnot
    subst hkj
    exact ⟨heq, hstatus, hholder⟩

/-! ## What a step leaves alone -/

theorem Box.released_congr (hbox : Box L mem₀ s m)
    (hcall : ∀ j ∈ s.released m, s'.call j = s.call j) (hk : k ∈ s.released m) :
    ∃ ret, (s'.call k).pc = .returned ret := by
  rw [hcall k hk]
  exact hbox.released k hk

theorem Box.delivered_congr (hbox : Box L mem₀ s m)
    (hcall : ∀ j ∈ s.released m, s'.call j = s.call j) {pre post : List ℕ} {r : ℕ}
    (hsplit : s.released m = pre ++ r :: post) (hop : (s'.call r).op = .recv)
    (hret : (s'.call r).pc = .returned bmOk) :
    ∀ i < (s'.call r).moves, (s'.call r).data i = contents L mem₀ s' m pre i := by
  have hr : s'.call r = s.call r := hcall r (by simp [hsplit])
  have hpre : contents L mem₀ s' m pre = contents L mem₀ s m pre :=
    contents_congr fun j hj => hcall j (by simp [hsplit, hj])
  rw [hr] at hop hret ⊢
  rw [hpre]
  exact hbox.delivered pre r post hsplit hop hret

theorem Box.frame (hbox : Box L mem₀ s m) (hacquired : s'.acquired m = s.acquired m)
    (hreleased : s'.released m = s.released m)
    (hcall : ∀ j ∈ s.acquired m, s'.call j = s.call j)
    (hstatus : flagStatus L s'.mem m = flagStatus L s.mem m)
    (hbody : ∀ i < msgBodyLen, body L s'.mem m i = body L s.mem m i) : Box L mem₀ s' m := by
  have hcall' : ∀ j ∈ s.released m, s'.call j = s.call j :=
    fun j hj => hcall j (hbox.released_subset hj)
  have hcontents : contents L mem₀ s' m (s.released m) = contents L mem₀ s m (s.released m) :=
    contents_congr hcall'
  refine ⟨?_, ?_, ?_, ?_, ?_⟩
  · rw [hacquired]
    exact hbox.nodup
  · intro k hk
    rw [hacquired] at hk
    rw [hcall k hk]
    exact hbox.member k hk
  · rw [hreleased]
    exact fun k => hbox.released_congr hcall'
  · rw [hreleased]
    exact fun pre r post => hbox.delivered_congr hcall'
  · rcases hbox.phase with ⟨heq, hfree, hbytes⟩ | ⟨k, heq, hholds, husing, hholder⟩
    · left
      rw [hacquired, hreleased, hstatus, hcontents]
      exact ⟨heq, hfree, fun i hi => (hbody i hi).trans (hbytes i hi)⟩
    · right
      have hk : k ∈ s.acquired m := by simp [heq]
      rw [hacquired, hreleased, hstatus, hcontents]
      refine ⟨k, heq, ?_, husing, ?_⟩
      · rw [hcall k hk]
        exact hholds
      · rw [hcall k hk]
        apply hholder.congr
        rw [(hbox.member k hk).1]
        exact hbody

theorem CallOk.frame (hok : CallOk L s k) (hcall : s'.call k = s.call k)
    (hstores : s'.stores k = s.stores k)
    (hacquired : s.acquired (s.call k).msgId ⊆ s'.acquired (s.call k).msgId) :
    CallOk L s' k := by
  refine ⟨?_, ?_, ?_⟩
  · rw [hcall]
    exact hok.valid
  · rw [hcall]
    exact fun h => hacquired (hok.owner h)
  · rw [hcall, hstores]
    exact hok.quiet

/-! ## What a step does to a mailbox -/

theorem Box.take (hbox : Box L mem₀ s m)
    (hfree : flagStatus L s.mem m = msgHeadFlag msgStatusFree) (hnew : k ∉ s.acquired m)
    (hacquired : s'.acquired m = s.acquired m ++ [k]) (hreleased : s'.released m = s.released m)
    (hcall : ∀ j ∈ s.acquired m, s'.call j = s.call j)
    (hid : (s'.call k).msgId = m) (hpc : (s'.call k).pc = .acquired)
    (hstatus : flagStatus L s'.mem m = msgHeadFlag msgStatusUsing)
    (hbody : ∀ i < msgBodyLen, body L s'.mem m i = body L s.mem m i) : Box L mem₀ s' m := by
  have hcall' : ∀ j ∈ s.released m, s'.call j = s.call j :=
    fun j hj => hcall j (hbox.released_subset hj)
  have hphase : s.acquired m = s.released m ∧
      ∀ i < msgBodyLen, body L s.mem m i = contents L mem₀ s m (s.released m) i := by
    rcases hbox.phase with ⟨heq, _, hbytes⟩ | ⟨_, _, _, husing, _⟩
    · exact ⟨heq, hbytes⟩
    · rw [hfree] at husing
      exact absurd husing (by decide)
  refine ⟨?_, ?_, ?_, ?_, Or.inr ⟨k, ?_, ?_, hstatus, ?_⟩⟩
  · rw [hacquired]
    exact hbox.nodup.append (List.nodup_singleton k) (List.disjoint_singleton.mpr hnew)
  · intro j hj
    rw [hacquired, List.mem_append, List.mem_singleton] at hj
    rcases hj with hj | rfl
    · rw [hcall j hj]
      exact hbox.member j hj
    · exact ⟨hid, Or.inl (by rw [hpc]; trivial)⟩
  · rw [hreleased]
    exact fun j => hbox.released_congr hcall'
  · rw [hreleased]
    exact fun pre r post => hbox.delivered_congr hcall'
  · rw [hacquired, hreleased, hphase.1]
  · rw [hpc]
    trivial
  · have hmoved : (s'.call k).moved = ∅ := by simp only [Call.moved, hpc]
    rw [hreleased, contents_congr hcall']
    refine ⟨?_, ?_, ?_, ?_⟩
    · intro plan done h
      rw [hpc] at h
      cases h
    · intro h
      rw [hpc] at h
      exact h.elim
    · intro i hi
      rw [hid, hbody i hi, hphase.2 i hi, hmoved, if_neg (by simp)]
    · intro _ i hi
      rw [hmoved] at hi
      simp at hi

theorem Box.hold (hbox : Box L mem₀ s m) (hmem : k ∈ s.acquired m)
    (hholds : (s.call k).pc.holds) (hacquired : s'.acquired m = s.acquired m)
    (hreleased : s'.released m = s.released m)
    (hcall : ∀ j ≠ k, s'.call j = s.call j)
    (hid : (s'.call k).msgId = m) (hholds' : (s'.call k).pc.holds)
    (hstatus : flagStatus L s'.mem m = flagStatus L s.mem m)
    (hholder : HolderOk L s'.mem (s'.call k) (contents L mem₀ s m (s.released m))) :
    Box L mem₀ s' m := by
  have hlast := hbox.holder_last hmem hholds
  have hcall' : ∀ j ∈ s.released m, s'.call j = s.call j := by
    intro j hj
    apply hcall
    rintro rfl
    obtain ⟨ret, hret⟩ := hbox.released j hj
    rw [hret] at hholds
    exact hholds
  refine ⟨?_, ?_, ?_, ?_, Or.inr ⟨k, ?_, hholds', ?_, ?_⟩⟩
  · rw [hacquired]
    exact hbox.nodup
  · intro j hj
    rw [hacquired] at hj
    by_cases hjk : j = k
    · subst hjk
      exact ⟨hid, Or.inl hholds'⟩
    · rw [hcall j hjk]
      exact hbox.member j hj
  · rw [hreleased]
    exact fun j => hbox.released_congr hcall'
  · rw [hreleased]
    exact fun pre r post => hbox.delivered_congr hcall'
  · rw [hacquired, hreleased]
    exact hlast.1
  · rw [hstatus]
    exact hlast.2.1
  · rw [hreleased, contents_congr hcall']
    exact hholder

theorem Box.release {ret : ℤ} (hbox : Box L mem₀ s m) (hmem : k ∈ s.acquired m)
    (hpc : (s.call k).pc = .releasing ret) (hacquired : s'.acquired m = s.acquired m)
    (hreleased : s'.released m = s.released m ++ [k])
    (hcall : ∀ j ≠ k, s'.call j = s.call j)
    (hnew : s'.call k = { s.call k with pc := .returned ret })
    (hstatus : flagStatus L s'.mem m = msgHeadFlag msgStatusFree)
    (hbody : ∀ i < msgBodyLen, body L s'.mem m i = body L s.mem m i) : Box L mem₀ s' m := by
  have hholds : (s.call k).pc.holds := by
    rw [hpc]
    trivial
  obtain ⟨hlast, _, hholder⟩ := hbox.holder_last hmem hholds
  have hcall' : ∀ j ∈ s.released m, s'.call j = s.call j := by
    intro j hj
    apply hcall
    rintro rfl
    obtain ⟨ret', hret⟩ := hbox.released j hj
    rw [hpc] at hret
    cases hret
  have hid := (hbox.member k hmem).1
  have hcontents : contents L mem₀ s' m (s.released m) = contents L mem₀ s m (s.released m) :=
    contents_congr hcall'
  have hmoved : (s.call k).moved = if ret = bmOk then Finset.range (s.call k).moves else ∅ := by
    simp only [Call.moved, hpc]
  refine ⟨?_, ?_, ?_, ?_, Or.inl ⟨?_, hstatus, ?_⟩⟩
  · rw [hacquired]
    exact hbox.nodup
  · intro j hj
    rw [hacquired] at hj
    by_cases hjk : j = k
    · subst hjk
      rw [hnew]
      exact ⟨hid, Or.inr ⟨ret, rfl⟩⟩
    · rw [hcall j hjk]
      exact hbox.member j hj
  · intro j hj
    rw [hreleased, List.mem_append, List.mem_singleton] at hj
    rcases hj with hj | rfl
    · exact hbox.released_congr hcall' hj
    · rw [hnew]
      exact ⟨ret, rfl⟩
  · intro pre r post hsplit
    rw [hreleased] at hsplit
    -- the receiver is the one that leaves, or it has left before
    rcases List.eq_nil_or_concat post with rfl | ⟨post', last, rfl⟩
    · obtain ⟨hpre, hr⟩ := List.append_inj' hsplit rfl
      rw [List.singleton_inj] at hr
      subst hr
      intro hop hret i hi
      rw [hnew] at hop hret hi ⊢
      have hok : ret = bmOk := by
        injection hret
      rw [← hpre, hcontents]
      apply hholder.received hop
      rw [hmoved, if_pos hok]
      exact Finset.mem_range.mpr hi
    · have hsplit' : s.released m = pre ++ r :: post' := by
        have hassoc : s.released m ++ [k] = (pre ++ r :: post') ++ [last] := by
          simpa [List.concat_eq_append] using hsplit
        exact (List.append_inj' hassoc rfl).1
      exact hbox.delivered_congr hcall' hsplit'
  · rw [hacquired, hreleased]
    exact hlast
  · intro i hi
    rw [hreleased, contents_concat, hcontents, hbody i hi]
    have hbytes := hholder.body i (by exact hi)
    rw [hid] at hbytes
    rw [hbytes, hnew]
    by_cases hsent : (s.call k).op = .send ∧ ret = bmOk
    · have hfits : ¬ ((s.call k).op = .send ∧ msgBodyLen < (s.call k).bufLen) := by
        apply hholder.fits
        rw [hpc]
        exact hsent.2
      have hlen : (s.call k).moves = (s.call k).bufLen := by
        have hle : ¬ msgBodyLen < (s.call k).bufLen := fun h => hfits ⟨hsent.1, h⟩
        unfold Call.moves
        omega
      have happlied : Call.applied { s.call k with pc := .returned ret } =
          fun found => found.write 0 ((s.call k).data.bytes 0 (s.call k).bufLen) := by
        funext found
        simp [Call.applied, hsent.1, hsent.2]
      rw [happlied, hmoved, if_pos hsent.2, hlen]
      simp only [Mem.write_bytes, hsent.1, true_and, Finset.mem_range, Nat.zero_le, Nat.zero_add,
        Nat.sub_zero]
    · have happlied : ∀ found, Call.applied { s.call k with pc := .returned ret } found = found := by
        intro found
        apply if_neg
        rintro ⟨hop, hret⟩
        exact hsent ⟨hop, by injection hret⟩
      rw [happlied, hmoved]
      apply if_neg
      rintro ⟨hop, hin⟩
      split at hin
      next hok => exact hsent ⟨hop, hok⟩
      next => simp at hin

@[simp] theorem State.setCall_call (s : State) (k : ℕ) (c : Call) :
    (s.setCall k c).call k = c := by
  exact Function.update_self k c s.call

theorem State.setCall_call_of_ne (s : State) (c : Call) (hne : j ≠ k) :
    (s.setCall k c).call j = s.call j := by
  exact Function.update_of_ne hne c s.call

@[simp] theorem State.goto_call (s : State) (k : ℕ) (pc : Pc) :
    (s.goto k pc).call k = { s.call k with pc := pc } := by
  exact s.setCall_call k _

@[simp] theorem State.goto_acquired (s : State) (k : ℕ) (pc : Pc) :
    (s.goto k pc).acquired = s.acquired := rfl

@[simp] theorem Call.refused_pc (L : Layout) (c : Call) (pc : Pc) :
    Call.refused L { c with pc := pc } ↔ c.refused L := Iff.rfl

theorem Inv.notMem (hinv : Inv L mem₀ s) (hm : m < msgIdBottom) (hholds : ¬ (s.call k).pc.holds)
    (hrunning : ∀ ret, (s.call k).pc ≠ .returned ret) : k ∉ s.acquired m := by
  intro hmem
  rcases ((hinv.boxes m hm).member k hmem).2 with h | ⟨ret, h⟩
  · exact hholds h
  · exact hrunning ret h

theorem Inv.outside (hinv : Inv L mem₀ s) (hholds : ¬ (s.call k).pc.holds)
    (hrunning : ∀ ret, (s.call k).pc ≠ .returned ret) (hquiet : ¬ (s.call k).pc.copies)
    (hholds' : ¬ c.pc.holds) (hquiet' : ¬ c.pc.copies) (hvalid : c.pc.checked → ¬ c.refused L) :
    Inv L mem₀ (s.setCall k c) where
  boxes := by
    intro m hm
    refine Box.frame (hinv.boxes m hm) rfl rfl ?_ rfl (fun _ _ => rfl)
    intro j hj
    apply State.setCall_call_of_ne
    rintro rfl
    exact hinv.notMem hm hholds hrunning hj
  calls := by
    intro j
    by_cases hjk : j = k
    · subst hjk
      refine ⟨?_, ?_, ?_⟩
      · rw [State.setCall_call]
        exact hvalid
      · rw [State.setCall_call]
        rintro (h | h)
        · exact absurd h hholds'
        · rw [h] at hquiet'
          exact absurd rfl hquiet'
      · intro _
        exact (hinv.calls j).quiet hquiet
    · exact (hinv.calls j).frame (State.setCall_call_of_ne s c hjk) rfl (List.Subset.refl _)

theorem Inv.take (hinv : Inv L mem₀ s) (hpc : (s.call k).pc = .compare)
    (hfree : flagStatus L s.mem (s.call k).msgId = msgHeadFlag msgStatusFree) :
    Inv L mem₀ ({ s with
      mem := setFlagStatus L s.mem (s.call k).msgId msgStatusUsing
      acquired := Function.update s.acquired (s.call k).msgId
        (s.acquired (s.call k).msgId ++ [k]) }.goto k .acquired) := by
  have hvalid : ¬ (s.call k).refused L := (hinv.calls k).valid (by rw [hpc]; trivial)
  have hnot : ∀ m < msgIdBottom, k ∉ s.acquired m := by
    intro m hm
    apply hinv.notMem hm
    · rw [hpc]
      exact id
    · rw [hpc]
      intro ret h
      cases h
  have hcall : ∀ m < msgIdBottom, ∀ j ∈ s.acquired m, j ≠ k := by
    rintro m hm j hj rfl
    exact hnot m hm hj
  constructor
  · intro m hm
    by_cases hbox : m = (s.call k).msgId
    · subst hbox
      refine Box.take (hinv.boxes _ hm) hfree (hnot _ hm) (Function.update_self _ _ _) rfl
        ?_ ?_ ?_ ?_ ?_
      · exact fun j hj => Function.update_of_ne (hcall _ hm j hj) _ _
      · simp
      · simp
      · exact flagStatus_set L s.mem _ msgStatusUsing (by decide)
      · exact fun i hi => body_setFlagStatus hi
    · refine Box.frame (hinv.boxes m hm) (Function.update_of_ne hbox _ _) rfl ?_
        (flagStatus_set_other (Ne.symm hbox)) (fun i hi => body_setFlagStatus hi)
      exact fun j hj => Function.update_of_ne (hcall m hm j hj) _ _
  · intro j
    by_cases hjk : j = k
    · subst hjk
      refine ⟨?_, ?_, ?_⟩
      · intro _
        simpa using hvalid
      · intro _
        simp
      · intro _
        exact (hinv.calls j).quiet (by rw [hpc]; exact id)
    · refine CallOk.frame (hinv.calls j) (Function.update_of_ne hjk _ _) rfl ?_
      change _ ⊆ Function.update s.acquired _ _ _
      by_cases hid : (s.call j).msgId = (s.call k).msgId
      · rw [hid, Function.update_self]
        exact List.subset_append_left _ _
      · rw [Function.update_of_ne hid]
        exact List.Subset.refl _

theorem Inv.hold (hinv : Inv L mem₀ s) (hholds : (s.call k).pc.holds)
    (hacquired : s'.acquired = s.acquired) (hreleased : s'.released = s.released)
    (hcall : ∀ j ≠ k, s'.call j = s.call j) (hstores : ∀ j ≠ k, s'.stores j = s.stores j)
    (hid : (s'.call k).msgId = (s.call k).msgId) (hholds' : (s'.call k).pc.holds)
    (hvalid : ¬ (s'.call k).refused L)
    (hstatus : ∀ m, flagStatus L s'.mem m = flagStatus L s.mem m)
    (hbody : ∀ m ≠ (s.call k).msgId, ∀ i < msgBodyLen, body L s'.mem m i = body L s.mem m i)
    (hholder : HolderOk L s.mem (s.call k)
        (contents L mem₀ s (s.call k).msgId (s.released (s.call k).msgId)) →
      HolderOk L s'.mem (s'.call k)
        (contents L mem₀ s (s.call k).msgId (s.released (s.call k).msgId)) ∧
      (¬ (s'.call k).pc.copies → s'.stores k = [])) :
    Inv L mem₀ s' := by
  have hmem : k ∈ s.acquired (s.call k).msgId := (hinv.calls k).owner (Or.inl hholds)
  have hlt : (s.call k).msgId < msgIdBottom := by
    rw [← hid]
    exact msgId_lt hvalid
  have hnew := hholder ((hinv.boxes _ hlt).holder_last hmem hholds).2.2
  constructor
  · intro m hm
    by_cases hbox : m = (s.call k).msgId
    · subst hbox
      exact (hinv.boxes _ hm).hold hmem hholds (congrFun hacquired _) (congrFun hreleased _) hcall
        hid hholds' (hstatus _) hnew.1
    · refine Box.frame (hinv.boxes m hm) (congrFun hacquired m) (congrFun hreleased m) ?_
        (hstatus m) (hbody m hbox)
      intro j hj
      apply hcall
      rintro rfl
      exact hbox ((hinv.boxes m hm).member j hj).1.symm
  · intro j
    by_cases hjk : j = k
    · subst hjk
      refine ⟨fun _ => hvalid, ?_, hnew.2⟩
      intro _
      rw [hid, hacquired]
      exact hmem
    · apply (hinv.calls j).frame (hcall j hjk) (hstores j hjk)
      rw [hacquired]
      exact List.Subset.refl _

theorem Inv.release {ret : ℤ} (hinv : Inv L mem₀ s) (hpc : (s.call k).pc = .releasing ret) :
    Inv L mem₀ ({ s with
      mem := setFlagStatus L s.mem (s.call k).msgId msgStatusFree
      released := Function.update s.released (s.call k).msgId
        (s.released (s.call k).msgId ++ [k]) }.goto k (.returned ret)) := by
  have hmem : k ∈ s.acquired (s.call k).msgId := by
    apply (hinv.calls k).owner
    rw [hpc]
    exact Or.inl trivial
  have hvalid : ¬ (s.call k).refused L := (hinv.calls k).valid (by rw [hpc]; trivial)
  constructor
  · intro m hm
    by_cases hbox : m = (s.call k).msgId
    · subst hbox
      refine Box.release (hinv.boxes _ hm) hmem hpc rfl (Function.update_self _ _ _) ?_ ?_ ?_ ?_
      · exact fun j hj => Function.update_of_ne hj _ _
      · exact Function.update_self _ _ _
      · exact flagStatus_set L s.mem _ msgStatusFree (by decide)
      · exact fun i hi => body_setFlagStatus hi
    · refine Box.frame (hinv.boxes m hm) rfl (Function.update_of_ne hbox _ _) ?_
        (flagStatus_set_other (Ne.symm hbox)) (fun i hi => body_setFlagStatus hi)
      intro j hj
      apply Function.update_of_ne
      rintro rfl
      exact hbox ((hinv.boxes m hm).member j hj).1.symm
  · intro j
    by_cases hjk : j = k
    · subst hjk
      refine ⟨?_, ?_, ?_⟩
      · intro _
        simpa using hvalid
      · intro _
        simpa using hmem
      · intro hquiet
        apply (hinv.calls j).quiet
        rw [hpc]
        rw [State.goto_call] at hquiet
        exact hquiet
    · exact (hinv.calls j).frame (Function.update_of_ne hjk _ _) rfl (List.Subset.refl _)

theorem Inv.initial (hinit : initial L mem₀ s) : Inv L mem₀ s where
  boxes := by
    intro m hm
    obtain ⟨hmem, _, hlists⟩ := hinit
    obtain ⟨hacquired, hreleased⟩ := hlists m
    refine ⟨?_, ?_, ?_, ?_, Or.inl ⟨?_, ?_, ?_⟩⟩
    · rw [hacquired]
      exact List.nodup_nil
    · rw [hacquired]
      simp
    · rw [hreleased]
      simp
    · rw [hreleased]
      simp
    · rw [hacquired, hreleased]
    · rw [hmem]
      exact flagStatus_bmMsgInit hm
    · intro i hi
      rw [hmem, hreleased]
      exact body_bmMsgInit hi
  calls := by
    intro k
    obtain ⟨hpc, hstores⟩ := hinit.2.1 k
    refine ⟨?_, ?_, fun _ => hstores⟩
    · rw [hpc]
      exact False.elim
    · rw [hpc]
      rintro (h | h)
      · exact h.elim
      · cases h

theorem Inv.refuse (hinv : Inv L mem₀ s)
    (hpc : (s.call k).pc = .called ∨ (s.call k).pc = .compare) :
    Inv L mem₀ (s.goto k (.returned bmFail)) := by
  have hfail : bmFail ≠ bmOk := by decide
  have hbefore : ¬ (s.call k).pc.holds ∧ (∀ ret, (s.call k).pc ≠ .returned ret) ∧
      ¬ (s.call k).pc.copies := by
    rcases hpc with hpc | hpc
    · rw [hpc]
      exact ⟨id, (fun ret h => by cases h), id⟩
    · rw [hpc]
      exact ⟨id, (fun ret h => by cases h), id⟩
  exact hinv.outside hbefore.1 hbefore.2.1 hbefore.2.2 id hfail fun h => absurd h hfail

theorem Inv.check (hinv : Inv L mem₀ s) (hpc : (s.call k).pc = .called)
    (hvalid : ¬ (s.call k).refused L) : Inv L mem₀ (s.goto k .compare) := by
  refine hinv.outside ?_ ?_ ?_ id id fun _ => hvalid
  · rw [hpc]
    exact id
  · rw [hpc]
    intro ret h
    cases h
  · rw [hpc]
    exact id

theorem Inv.goto {pc : Pc} (hinv : Inv L mem₀ s) (hholds : (s.call k).pc.holds)
    (hholds' : pc.holds) (hquiet : ¬ pc.copies → s.stores k = [])
    (hholder : ∀ found, HolderOk L s.mem (s.call k) found →
      HolderOk L s.mem { s.call k with pc := pc } found) : Inv L mem₀ (s.goto k pc) := by
  have hvalid : ¬ (s.call k).refused L := by
    apply (hinv.calls k).valid
    cases hpc : (s.call k).pc <;> simp_all [Pc.holds, Pc.checked]
  refine Inv.hold (k := k) hinv hholds rfl rfl (fun j hj => s.setCall_call_of_ne _ hj)
    (fun _ _ => rfl) ?_ ?_ ?_ (fun _ => rfl) (fun _ _ _ _ => rfl) ?_
  · rw [State.goto_call]
  · rw [State.goto_call]
    exact hholds'
  · rw [State.goto_call, Call.refused_pc]
    exact hvalid
  · intro hold
    rw [State.goto_call]
    exact ⟨hholder _ hold, hquiet⟩

variable {found : Mem}

theorem HolderOk.giveUp (hholder : HolderOk L mem c found) (hpc : c.pc = .acquired) :
    HolderOk L mem { c with pc := .releasing bmFail } found := by
  have hfail : bmFail ≠ bmOk := by decide
  have hmoved : c.moved = ∅ := by simp only [Call.moved, hpc]
  have hmoved' : Call.moved { c with pc := .releasing bmFail } = ∅ := by
    simp only [Call.moved, if_neg hfail]
  refine ⟨?_, fun h => absurd h hfail, ?_, ?_⟩
  · intro plan done h
    cases h
  · rw [hmoved', ← hmoved]
    exact hholder.body
  · rw [hmoved', ← hmoved]
    exact hholder.received

theorem HolderOk.start (hholder : HolderOk L mem c found) (hpc : c.pc = .acquired)
    (hvalid : ¬ c.refused L) (hfits : ¬ (c.op = .send ∧ msgBodyLen < c.bufLen)) :
    HolderOk L mem { c with pc := .moving (c.memcpy L) ∅ } found := by
  have hmoved : c.moved = ∅ := by simp only [Call.moved, hpc]
  have hmoved' : Call.moved { c with pc := .moving (c.memcpy L) ∅ } = ∅ := rfl
  refine ⟨?_, fun _ => hfits, ?_, ?_⟩
  · intro plan done h
    cases h
    exact ⟨Call.memcpy_eq hvalid hfits, Finset.empty_subset _⟩
  · rw [hmoved', ← hmoved]
    exact hholder.body
  · rw [hmoved', ← hmoved]
    exact hholder.received

theorem HolderOk.finish {plan : CopyPlan} (hholder : HolderOk L mem c found)
    (hpc : c.pc = .moving plan (Finset.range plan.count)) :
    HolderOk L mem { c with pc := .releasing bmOk } found := by
  obtain ⟨hplan, _⟩ := hholder.plan _ _ hpc
  have hmoved : c.moved = Finset.range c.moves := by
    simp only [Call.moved, hpc, hplan]
  have hmoved' : Call.moved { c with pc := .releasing bmOk } = c.moved := by
    rw [hmoved]
    simp only [Call.moved, Call.moves, if_true]
  refine ⟨?_, ?_, ?_, ?_⟩
  · intro plan done h
    cases h
  · intro _
    apply hholder.fits
    rw [hpc]
    trivial
  · rw [hmoved']
    exact hholder.body
  · rw [hmoved']
    exact hholder.received

theorem HolderOk.copySend {done : Finset ℕ} {plan : CopyPlan}
    (hholder : HolderOk L mem c found) (hpc : c.pc = .moving plan done) (hop : c.op = .send)
    (hi : i < plan.count) :
    HolderOk L (Function.update mem (L.msgBuf c.msgId + i) (c.data i))
      { c with pc := .moving plan (insert i done) } found := by
  obtain ⟨hplan, hdone⟩ := hholder.plan _ _ hpc
  have hmoved : c.moved = done := by simp only [Call.moved, hpc]
  refine ⟨?_, ?_, ?_, ?_⟩
  · intro plan' done' h
    cases h
    rw [hplan] at hi
    exact ⟨hplan, Finset.insert_subset (Finset.mem_range.mpr hi) hdone⟩
  · intro _
    apply hholder.fits
    rw [hpc]
    trivial
  · intro x hx
    have hbody := hholder.body x hx
    rw [hmoved] at hbody
    simp only [body_update_same]
    by_cases hxi : x = i
    · subst hxi
      have hnow : c.op = .send ∧
          x ∈ Call.moved { c with pc := .moving plan (insert x done) } :=
        ⟨hop, Finset.mem_insert_self x done⟩
      rw [Function.update_self, if_pos hnow]
    · have hsame : (x ∈ Call.moved { c with pc := .moving plan (insert i done) }) = (x ∈ done) := by
        simp [Call.moved, hxi]
      rw [Function.update_of_ne hxi, hbody]
      simp only [hsame]
  · intro hrecv
    rw [hop] at hrecv
    cases hrecv

theorem HolderOk.copyRecv {done : Finset ℕ} {plan : CopyPlan}
    (hholder : HolderOk L mem c found) (hpc : c.pc = .moving plan done) (hop : c.op = .recv)
    (hi : i < plan.count) :
    HolderOk L mem { c with
      data := Function.update c.data i (Message.body L mem c.msgId i)
      pc := .moving plan (insert i done) } found := by
  obtain ⟨hplan, hdone⟩ := hholder.plan _ _ hpc
  have hmoved : c.moved = done := by simp only [Call.moved, hpc]
  have hnotSend : ¬ c.op = .send := by
    rw [hop]
    exact fun h => by cases h
  have hrange : i < c.moves := by
    rw [hplan] at hi
    exact hi
  refine ⟨?_, ?_, ?_, ?_⟩
  · intro plan' done' h
    cases h
    exact ⟨hplan, Finset.insert_subset (Finset.mem_range.mpr hrange) hdone⟩
  · exact fun _ h => hnotSend h.1
  · intro x hx
    have hbody := hholder.body x hx
    rw [if_neg fun h => hnotSend h.1] at hbody ⊢
    exact hbody
  · intro _ x hx
    change x ∈ insert i done at hx
    change Function.update c.data i (Message.body L mem c.msgId i) x = found x
    by_cases hxi : x = i
    · subst hxi
      have hbody := hholder.body x (lt_of_lt_of_le hrange (min_le_right _ _))
      rw [if_neg fun h => hnotSend h.1] at hbody
      rw [Function.update_self]
      exact hbody
    · rw [Function.update_of_ne hxi]
      apply hholder.received hop
      rw [hmoved]
      exact (Finset.mem_insert.mp hx).resolve_left hxi

theorem Inv.holder {k : ℕ} (hinv : Inv L mem₀ s) (hholds : (s.call k).pc.holds)
    (hvalid : ¬ (s.call k).refused L) :
    HolderOk L s.mem (s.call k)
      (contents L mem₀ s (s.call k).msgId (s.released (s.call k).msgId)) :=
  ((hinv.boxes _ (msgId_lt hvalid)).holder_last
    ((hinv.calls k).owner (Or.inl hholds)) hholds).2.2

theorem Inv.moving_plan {plan : CopyPlan} {done : Finset ℕ} (hinv : Inv L mem₀ s)
    (hpc : (s.call k).pc = .moving plan done) : plan = ⟨false, (s.call k).moves, eok⟩ := by
  have hvalid : ¬ (s.call k).refused L := (hinv.calls k).valid (by rw [hpc]; trivial)
  have hholds : (s.call k).pc.holds := by
    rw [hpc]
    trivial
  exact ((hinv.holder hholds hvalid).plan _ _ hpc).1

theorem Inv.advance (hinv : Inv L mem₀ s) (hstep : advance L s k = some s') : Inv L mem₀ s' := by
  have hvalid := (hinv.calls k).valid
  have hquiet := (hinv.calls k).quiet
  cases hpc : (s.call k).pc with
  | absent =>
    simp only [Message.advance, hpc] at hstep
    cases hstep
  | returned ret =>
    simp only [Message.advance, hpc] at hstep
    cases hstep
  | called =>
    simp only [Message.advance, hpc, Option.some.injEq] at hstep
    subst hstep
    split
    next => exact hinv.refuse (Or.inl hpc)
    next hchecked => exact hinv.check hpc hchecked
  | compare =>
    simp only [Message.advance, hpc] at hstep
    split at hstep
    next hfree =>
      cases hstep
      exact hinv.take hpc hfree
    next =>
      cases hstep
      exact hinv.refuse (Or.inr hpc)
  | acquired =>
    rw [hpc] at hvalid hquiet
    have hholds : (s.call k).pc.holds := by
      rw [hpc]
      trivial
    simp only [Message.advance, hpc] at hstep
    split at hstep
    next =>
      cases hstep
      exact hinv.goto hholds trivial (fun _ => hquiet id) fun found h => h.giveUp hpc
    next hfits =>
      cases hstep
      exact hinv.goto hholds trivial (fun _ => hquiet id) fun found h =>
        h.start hpc (hvalid trivial) hfits
  | moving plan done =>
    have hholds : (s.call k).pc.holds := by
      rw [hpc]
      trivial
    have hplan := hinv.moving_plan hpc
    simp only [Message.advance, hpc] at hstep
    split at hstep
    next hall =>
      cases hstep
      subst hall
      have hret : (if plan.ret ≠ 0 then bmFail else bmOk) = bmOk := by
        rw [hplan]
        rfl
      rw [hret]
      exact hinv.goto hholds trivial (fun h => absurd rfl h) fun found h => h.finish hpc
    next => cases hstep
  | releasing ret =>
    simp only [Message.advance, hpc, Option.some.injEq] at hstep
    subst hstep
    exact hinv.release hpc

theorem Inv.copy (hinv : Inv L mem₀ s) (hstep : copyByte L s k i = some s') : Inv L mem₀ s' := by
  cases hpc : (s.call k).pc with
  | moving plan done =>
    have hvalid : ¬ (s.call k).refused L := (hinv.calls k).valid (by rw [hpc]; trivial)
    have hholds : (s.call k).pc.holds := by
      rw [hpc]
      trivial
    have hplan := hinv.moving_plan hpc
    have hclears : plan.clears = false := by rw [hplan]
    simp only [copyByte, hpc, hclears, Bool.false_eq_true, if_false] at hstep
    split at hstep
    next hi =>
      have hrange : i < msgBodyLen := by
        rw [hplan] at hi
        exact lt_of_lt_of_le hi.1 (min_le_right _ _)
      cases hop : (s.call k).op with
      | send =>
        simp only [hop, Option.some.injEq] at hstep
        subst hstep
        refine Inv.hold (k := k) hinv hholds rfl rfl (fun j hj => State.setCall_call_of_ne _ _ hj)
          (fun j hj => Function.update_of_ne hj _ _) ?_ ?_ ?_
          (fun m => flagStatus_update hrange)
          (fun m hm x hx => body_update_other (Ne.symm hm) hrange hx) ?_
        · rw [State.goto_call]
        · rw [State.goto_call]
          trivial
        · rw [State.goto_call, Call.refused_pc]
          exact hvalid
        · intro hholder
          rw [State.goto_call]
          exact ⟨hholder.copySend hpc hop hi.1, fun h => absurd trivial h⟩
      | recv =>
        have hcopied : s' = s.setCall k { s.call k with
            data := Function.update (s.call k).data i (body L s.mem (s.call k).msgId i)
            pc := .moving plan (insert i done) } := by
          simpa only [hop, Option.some.injEq, eq_comm] using hstep
        subst hcopied
        refine Inv.hold (k := k) hinv hholds rfl rfl (fun j hj => State.setCall_call_of_ne _ _ hj)
          (fun _ _ => rfl) ?_ ?_ ?_ (fun _ => rfl) (fun _ _ _ _ => rfl) ?_
        · rw [State.setCall_call]
        · rw [State.setCall_call]
          trivial
        · rw [State.setCall_call]
          exact hvalid
        · intro hholder
          rw [State.setCall_call]
          exact ⟨hholder.copyRecv hpc hop hi.1, fun h => absurd trivial h⟩
    next => cases hstep
  | absent | called | compare | acquired | releasing ret | returned ret =>
    simp only [copyByte, hpc] at hstep
    cases hstep

theorem Inv.step {a : Action} (hinv : Inv L mem₀ s) (hstep : next L s a = some s') :
    Inv L mem₀ s' := by
  cases a with
  | call k core op msgId buf bufLen data =>
    simp only [next] at hstep
    split at hstep
    next hpc =>
      cases hstep
      refine hinv.outside ?_ ?_ ?_ id id False.elim
      · rw [hpc]
        exact id
      · rw [hpc]
        intro ret h
        cases h
      · rw [hpc]
        exact id
    next => cases hstep
  | advance k => exact hinv.advance hstep
  | copy k i => exact hinv.copy hstep

theorem Inv.reachable (hreach : (mailboxes L mem₀).Reachable s) : Inv L mem₀ s :=
  hreach.invariant (fun _ => Inv.initial) fun _ _ _ _ hinv hstep => hinv.step hstep

/-! ## The order of the calls -/

theorem Inv.exclusive (hinv : Inv L mem₀ s) (hk : (s.call k).pc.holds) (hj : (s.call j).pc.holds)
    (hsame : (s.call k).msgId = (s.call j).msgId) : k = j := by
  have hvalid : ¬ (s.call k).refused L := by
    apply (hinv.calls k).valid
    cases hpc : (s.call k).pc <;> simp_all [Pc.holds, Pc.checked]
  have hbox := hinv.boxes _ (msgId_lt hvalid)
  have hlastk := (hbox.holder_last ((hinv.calls k).owner (Or.inl hk)) hk).1
  have hmemj := (hinv.calls j).owner (Or.inl hj)
  rw [← hsame] at hmemj
  have hlastj := (hbox.holder_last hmemj hj).1
  have heq := (List.append_inj' (hlastk.symm.trans hlastj) rfl).2
  exact List.singleton_inj.mp heq

theorem Box.free_iff (hbox : Box L mem₀ s m) (hinv : Inv L mem₀ s) :
    flagStatus L s.mem m = msgHeadFlag msgStatusFree ↔
      ∀ k, (s.call k).msgId = m → ¬ (s.call k).pc.holds := by
  constructor
  · rintro hfree k rfl hholds
    have hmem := (hinv.calls k).owner (Or.inl hholds)
    have husing := (hbox.holder_last hmem hholds).2.1
    rw [hfree] at husing
    exact absurd husing (by decide)
  · intro hnone
    rcases hbox.phase with ⟨_, hfree, _⟩ | ⟨k, heq, hholds, _⟩
    · exact hfree
    · have hid := (hbox.member k (by simp [heq])).1
      exact absurd hholds (hnone k hid)

theorem Box.free_phase (hbox : Box L mem₀ s m)
    (hfree : flagStatus L s.mem m = msgHeadFlag msgStatusFree) :
    s.acquired m = s.released m ∧
      ∀ i < msgBodyLen, body L s.mem m i = contents L mem₀ s m (s.released m) i := by
  rcases hbox.phase with ⟨heq, _, hbytes⟩ | ⟨_, _, _, husing, _⟩
  · exact ⟨heq, hbytes⟩
  · rw [hfree] at husing
    exact absurd husing (by decide)

theorem Box.returned_released {ret : ℤ} (hbox : Box L mem₀ s m) (hmem : k ∈ s.acquired m)
    (hpc : (s.call k).pc = .returned ret) : k ∈ s.released m := by
  rcases hbox.phase with ⟨heq, _⟩ | ⟨j, heq, hholds, _⟩
  · rw [← heq]
    exact hmem
  · rw [heq, List.mem_append, List.mem_singleton] at hmem
    rcases hmem with h | rfl
    · exact h
    · rw [hpc] at hholds
      exact hholds.elim

theorem Inv.delivered (hinv : Inv L mem₀ s) (hop : (s.call k).op = .recv)
    (hpc : (s.call k).pc = .returned bmOk) :
    ∃ before after, s.acquired (s.call k).msgId = before ++ k :: after ∧
      (s.call k).data.bytes 0 (s.call k).moves =
        (contents L mem₀ s (s.call k).msgId before).bytes 0 (s.call k).moves := by
  have hvalid : ¬ (s.call k).refused L := by
    apply (hinv.calls k).valid
    rw [hpc]
    exact rfl
  have hbox := hinv.boxes _ (msgId_lt hvalid)
  have hreleased := hbox.returned_released ((hinv.calls k).owner (Or.inr hpc)) hpc
  obtain ⟨before, after, hsplit⟩ := List.append_of_mem hreleased
  have hdata := hbox.delivered before k after hsplit hop hpc
  have hbytes : (s.call k).data.bytes 0 (s.call k).moves =
      (contents L mem₀ s (s.call k).msgId before).bytes 0 (s.call k).moves := by
    apply Mem.bytes_congr
    intro i _ hi
    exact hdata i (by omega)
  rcases hbox.phase with ⟨heq, _⟩ | ⟨j, heq, _⟩
  · exact ⟨before, after, heq.trans hsplit, hbytes⟩
  · exact ⟨before, after ++ [j], by simp [heq, hsplit], hbytes⟩

theorem advance_body (hstep : advance L s k = some s') (hi : i < msgBodyLen) :
    body L s'.mem m i = body L s.mem m i := by
  cases hpc : (s.call k).pc with
  | absent | returned ret =>
    simp only [advance, hpc] at hstep
    cases hstep
  | called =>
    simp only [advance, hpc] at hstep
    cases hstep
    rfl
  | compare =>
    simp only [advance, hpc] at hstep
    split at hstep
    · cases hstep
      exact body_setFlagStatus hi
    · cases hstep
      rfl
  | acquired | moving plan done =>
    simp only [advance, hpc] at hstep
    split at hstep <;> cases hstep <;> rfl
  | releasing ret =>
    simp only [advance, hpc] at hstep
    cases hstep
    exact body_setFlagStatus hi

theorem Inv.stored {a : Action} (hinv : Inv L mem₀ s) (hstep : next L s a = some s')
    (hi : i < msgBodyLen) (hchanged : body L s'.mem m i ≠ body L s.mem m i) :
    ∃ k, a = .copy k i ∧ (s.call k).msgId = m ∧
      s'.stores k = s.stores k ++ [(i, body L s'.mem m i)] := by
  cases a with
  | call k core op msgId buf bufLen data =>
    simp only [next] at hstep
    split at hstep
    · cases hstep
      exact absurd rfl hchanged
    · cases hstep
  | advance k =>
    exact absurd (advance_body hstep hi) hchanged
  | copy k x =>
    cases hpc : (s.call k).pc with
    | moving plan done =>
      have hplan := hinv.moving_plan hpc
      simp only [next, copyByte, hpc] at hstep
      split at hstep
      next hx =>
        have hrange : x < msgBodyLen := by
          rw [hplan] at hx
          exact lt_of_lt_of_le hx.1 (min_le_right _ _)
        cases hop : (s.call k).op with
        | send =>
          simp only [hop, Option.some.injEq] at hstep
          subst hstep
          by_cases hm : (s.call k).msgId = m
          · subst hm
            by_cases hxi : i = x
            · subst hxi
              refine ⟨k, rfl, rfl, ?_⟩
              simp [State.goto, State.setCall, body_update_same]
            · apply absurd _ hchanged
              simp [State.goto, State.setCall, body_update_same, Function.update_of_ne hxi]
          · exact absurd (body_update_other hm hrange hi) hchanged
        | recv =>
          simp only [hop, Option.some.injEq] at hstep
          subst hstep
          exact absurd rfl hchanged
      next => cases hstep
    | absent | called | compare | acquired | releasing ret | returned ret =>
      simp only [next, copyByte, hpc] at hstep
      cases hstep

/-- However the calls of the cores interleave, a mailbox is an atomic object: one call
at a time has it, every return sets it free, a receiver gets the contents that the sends
before it have left, and a call that fails stores nothing. -/
theorem mailboxes_linearizable (hreach : (mailboxes L mem₀).Reachable s) :
    Linearizable L mem₀ s := by
  have hinv := Inv.reachable hreach
  refine ⟨?_, ?_, ?_, ?_, ?_, ?_, ?_, ?_⟩
  · exact fun k j hk hj => hinv.exclusive hk hj
  · exact fun m hm k hk ret => (hinv.boxes m hm).returned_released hk
  · exact fun m hm => (hinv.boxes m hm).free_iff hinv
  · exact fun m hm => (hinv.boxes m hm).nodup
  · intro m hm hfree
    obtain ⟨heq, hbytes⟩ := (hinv.boxes m hm).free_phase hfree
    rw [heq]
    apply Mem.bytes_congr
    intro i _ hi
    exact (hbytes i (by omega))
  · exact fun r => hinv.delivered
  · intro k hpc
    apply (hinv.calls k).quiet
    rw [hpc]
    have hfail : bmFail ≠ bmOk := by decide
    exact hfail
  · exact fun a s' hstep m _ i hi => hinv.stored hstep hi

def layout0 : Layout where
  hiSharedBaseAddr := 0x9FC00000
  xferSegmentStart := fun core => 0x90000000 + core * 0x1000000
  xferSegmentEnd := fun core => if core < 4 then 0x90008000 + core * 0x1000000 else 0
  imagesBelow := by
    intro core
    split <;> omega
  basePos := by decide
  fits := by decide

def quiet : State where
  mem := bmMsgInit layout0 fun _ => 0
  call := fun _ => ⟨0, .send, 0, 0, 0, fun _ => 0, .absent⟩
  acquired := fun _ => []
  released := fun _ => []
  stores := fun _ => []

def sharedRun : List Action :=
  [.call 0 0 .send 1 0x90000010 2 fun i => if i = 0 then 0xAB else 0xCD,
    .call 1 1 .send 1 0x91000010 3 fun _ => 0xEE,
    .call 2 2 .recv 1 0x92000010 2 fun _ => 0,
    .advance 0, .advance 1, .advance 0, .advance 0, .copy 0 1, .advance 1, .copy 0 0,
    .advance 2, .advance 0, .advance 0, .advance 2, .advance 2, .copy 2 0, .copy 2 1,
    .advance 2, .advance 2]

def afterRun : State :=
  (TransitionSystem.runSteps (next layout0) quiet sharedRun).get (by decide +kernel)

theorem afterRun_reachable : (mailboxes layout0 fun _ => 0).Reachable afterRun := by
  have hstart : (mailboxes layout0 fun _ => 0).Reachable quiet :=
    TransitionSystem.Reachable.init ⟨rfl, fun _ => ⟨rfl, rfl⟩, fun _ => ⟨rfl, rfl⟩⟩
  exact hstart.runSteps (l := sharedRun) (Option.some_get _).symm

theorem mailboxes_linearizable_run :
    Linearizable layout0 (fun _ => 0) afterRun ∧
      (afterRun.call 1).pc = .returned bmFail ∧ (afterRun.call 2).pc = .returned bmOk ∧
      (afterRun.call 2).data.bytes 0 2 = [0xAB, 0xCD] := by
  refine ⟨mailboxes_linearizable afterRun_reachable, ?_, ?_, ?_⟩
  · decide +kernel
  · decide +kernel
  · decide +kernel

end HiMpu.Message
