import HiMpu.DmacAsync

/-!
# Drivers over the DMA driver

A driver that keeps a callback for each of its slots and makes asynchronous calls of the
DMA driver.  Its completion function is given the number of the request only, and calls
what the slot has by then: the callback of the last call for the slot.
-/

namespace HiMpu.DmaClient

open Dmac

structure Call (σ : Type) where
  slot : σ
  buf : ℕ
  len : ℕ
  callback : Option ℕ

/-- A driver with slots `σ` and arguments `ι`, and what it does to the outside. -/
structure Client (ι σ ε : Type) where
  /-- What a call does before it registers its callback; `none` where it returns. -/
  prepare : ι → Option (Call σ)
  reqOf : σ → ℕ
  fifo : σ → ℕ
  isRead : σ → Bool
  /-- The semaphore that a call holds until it returns. -/
  lock : σ → Option ℕ
  returned : σ → List ε
  finish : (σ → Option ℕ) → ℕ → ℤ → List ε
  event : σ → Option ℕ → ℤ → List ε
  finish_reqOf : ∀ callback x status,
    finish callback (reqOf x) status = event x (callback x) status

inductive Stage (σ : Type) where
  | idle
  | registered (c : Call σ)
  | submitted (c : Call σ) (k : ℕ)
  | returned (c : Call σ) (k : ℕ)

def Stage.call? {σ : Type} : Stage σ → Option (Call σ)
  | .idle => none
  | .registered c => some c
  | .submitted c _ => some c
  | .returned c _ => some c

def Stage.made? {σ : Type} : Stage σ → Option (Call σ × ℕ)
  | .submitted c k => some (c, k)
  | .returned c k => some (c, k)
  | _ => none

structure State (σ ε : Type) where
  dma : Dmac.State
  callback : σ → Option ℕ
  sem : ℕ → Option ℕ
  /-- The calls so far, numbered in the order of their registration. -/
  stage : ℕ → Stage σ
  count : ℕ
  events : List ε

/-- The completion function as a callback address. -/
def finishFunc : ℕ := 1

section Client

variable {ι σ ε : Type}

def Client.request (C : Client ι σ ε) (c : Call σ) : Request :=
  let cfg : ChannelCfg :=
    if C.isRead c.slot then ⟨C.reqOf c.slot, C.fifo c.slot, c.buf, c.len, .p2m⟩
    else ⟨C.reqOf c.slot, c.buf, C.fifo c.slot, c.len, .m2p⟩
  ⟨some cfg, .async (some finishFunc)⟩

def Client.run (C : Client ι σ ε) (callback : σ → Option ℕ) (inv : Invocation) : List ε :=
  if inv.callback = finishFunc then C.finish callback inv.req inv.status else []

def setSem (sem : ℕ → Option ℕ) (lock holder : Option ℕ) : ℕ → Option ℕ :=
  match lock with
  | none => sem
  | some key => Function.update sem key holder

def State.free (s : State σ ε) : Option ℕ → Bool
  | none => true
  | some key => (s.sem key).isNone

inductive Label (ι : Type) where
  | register (args : ι)
  | submit (i : ℕ) (enabled : Bool)
  | dma (a : Dmac.Label)
  | interrupt
  | conclude (i : ℕ)

variable [DecidableEq σ]

def next (B : Board) (C : Client ι σ ε) (s : State σ ε) : Label ι → Option (State σ ε)
  | .register args =>
    match C.prepare args with
    | none => none
    | some c =>
      if s.free (C.lock c.slot) then
        some { s with
          callback := Function.update s.callback c.slot c.callback
          sem := setSem s.sem (C.lock c.slot) (some s.count)
          stage := Function.update s.stage s.count (.registered c)
          count := s.count + 1 }
      else none
  | .submit i enabled =>
    match s.stage i with
    | .registered c =>
      (Dmac.next B s.dma (.enter (C.request c) enabled)).map fun dma =>
        { s with dma := dma, stage := Function.update s.stage i (.submitted c s.dma.count) }
    | _ => none
  | .dma a =>
    match a with
    | .enter _ _ => none
    | .interrupt => none
    | a => (Dmac.next B s.dma a).map fun dma => { s with dma := dma }
  | .interrupt =>
    let dev := bmDmacInterruptHandle { s.dma.dev with invoked := [] }
    some { s with
      dma := { s.dma with dev := dev }
      events := s.events ++ dev.invoked.flatMap (C.run s.callback) }
  | .conclude i =>
    match s.stage i with
    | .submitted c k =>
      match s.dma.calls k with
      | .returned _ =>
        some { s with
          sem := setSem s.sem (C.lock c.slot) none
          stage := Function.update s.stage i (.returned c k)
          events := s.events ++ C.returned c.slot }
      | _ => none
    | _ => none

def initial : State σ ε where
  dma := Dmac.start
  callback := fun _ => none
  sem := fun _ => none
  stage := fun _ => .idle
  count := 0
  events := []

def system (B : Board) (C : Client ι σ ε) : TransitionSystem (State σ ε) (Label ι) :=
  TransitionSystem.ofStep (· = initial) (next B C)

/-! ## Whose callback a completion calls -/

omit [DecidableEq σ] in
structure Last (s : State σ ε) (x : σ) (j : ℕ) (d : Call σ) : Prop where
  call : (s.stage j).call? = some d
  slot : d.slot = x
  last : ∀ l e, j < l → (s.stage l).call? = some e → e.slot ≠ x

/-- What the interrupt handler makes the driver do for a channel. -/
def State.completions (C : Client ι σ ε) (s : State σ ε) (c : ℕ) : List ε :=
  (channelInvocations s.dma.dev.intTc s.dma.dev.intErr s.dma.dev c).flatMap (C.run s.callback)

/-- The completion on the channel is that of the transfer that ended there.  It goes to the
slot of its call with the outcome of the transfer, and to the callback of the last call for
the slot. -/
def Serves (C : Client ι σ ε) (s : State σ ε) (c : ℕ) : Prop :=
  ∃ k i call j last ok, s.dma.ended c = some k ∧ s.dma.outcome k = some ok ∧
    (s.stage i).made? = some (call, k) ∧ i ≤ j ∧ Last s call.slot j last ∧
    s.completions C c = C.event call.slot last.callback
      (if ok then dmacTransmitOk else dmacTransmitFail)

/-! ## The interrupt handler -/

omit [DecidableEq σ]

theorem handleChannel_invoked {tc err : ℕ → Bool} {d : Device} {i : ℕ} :
    (handleChannel tc err d i).invoked = d.invoked ++ channelInvocations tc err d i := by
  unfold handleChannel channelInvocations
  by_cases hpend : (tc i || err i) = true
  · rw [if_pos hpend]
    cases hcb : (d.info i).callback with
    | none => simp [intClean, hcb]
    | some callback =>
      cases callback with
      | sync => simp [intClean, hcb, invoke, dmacTransmitSyncCallback, setInfo]
      | user f => simp [intClean, hcb, invoke, setInfo, hpend]
  · rw [if_neg hpend]
    split <;> simp [hpend]

theorem foldl_handleChannel_invoked {tc err : ℕ → Bool} {l : List ℕ} {d : Device}
    (hslots : SyncSlots d) (hnodup : l.Nodup) :
    (l.foldl (handleChannel tc err) d).invoked =
      d.invoked ++ l.flatMap (channelInvocations tc err d) := by
  induction l generalizing d with
  | nil => simp
  | cons i l ih =>
    obtain ⟨hi, hl⟩ := List.nodup_cons.mp hnodup
    have hothers : l.flatMap (channelInvocations tc err (handleChannel tc err d i)) =
        l.flatMap (channelInvocations tc err d) := by
      apply List.flatMap_congr
      intro c hc
      have hne : c ≠ i := by
        rintro rfl
        exact hi hc
      unfold channelInvocations
      rw [(handleChannel_other hslots hne).info]
    rw [List.foldl_cons, ih (handleChannel_slots hslots) hl, handleChannel_invoked, hothers,
      List.flatMap_cons, List.append_assoc]

structure Inv (C : Client ι σ ε) (s : State σ ε) : Prop where
  linked : Dmac.Linked s.dma
  told : Told s.dma
  fresh : ∀ i, s.count ≤ i → s.stage i = .idle
  requests : ∀ k r, s.dma.requests k = some r →
    ∃ i c, (s.stage i).made? = some (c, k) ∧ r = C.request c
  latest : ∀ i c, (s.stage i).call? = some c →
    ∃ j d, i ≤ j ∧ Last s c.slot j d ∧ s.callback c.slot = d.callback

theorem Last.congr {s t : State σ ε} {x : σ} {j : ℕ} {d : Call σ}
    (hcalls : ∀ i, (t.stage i).call? = (s.stage i).call?) (hlast : Last s x j d) :
    Last t x j d := by
  refine ⟨(hcalls j).trans hlast.call, hlast.slot, ?_⟩
  intro l e hl he
  exact hlast.last l e hl ((hcalls l).symm.trans he)

namespace Inv

variable {B : Board} {C : Client ι σ ε} {s t : State σ ε}

/-- A step that registers no call. -/
theorem keep (hinv : Inv C s) (hlinked : Dmac.Linked t.dma) (htold : Told t.dma)
    (hcount : t.count = s.count) (hcalls : ∀ i, (t.stage i).call? = (s.stage i).call?)
    (hcallback : t.callback = s.callback)
    (hrequests : ∀ k r, t.dma.requests k = some r →
      ∃ i c, (t.stage i).made? = some (c, k) ∧ r = C.request c) : Inv C t := by
  refine ⟨hlinked, htold, ?_, hrequests, ?_⟩
  · intro i hi
    have hnone := hcalls i
    rw [hinv.fresh i (hcount ▸ hi)] at hnone
    cases hstage : t.stage i with
    | idle => rfl
    | _ =>
      rw [hstage] at hnone
      cases hnone
  · intro i c hi
    obtain ⟨j, d, hij, hlast, hcb⟩ := hinv.latest i c ((hcalls i).symm.trans hi)
    exact ⟨j, d, hij, hlast.congr hcalls, hcallback ▸ hcb⟩

theorem dmaStep (hinv : Inv C s) {a : Dmac.Label} {dma : Dmac.State}
    (ha : ∀ r enabled, a ≠ .enter r enabled) (hstep : Dmac.next B s.dma a = some dma) :
    Inv C { s with dma := dma } := by
  have hmove := move_of_next hstep
  have hreqs : dma.requests = s.dma.requests := by
    cases hmove with
    | enter _ => exact absurd rfl (ha _ _)
    | _ => rfl
  refine hinv.keep (hinv.linked.move (fun r enabled h => absurd h (ha r enabled)) hmove)
    (hinv.told.move hinv.linked hmove) rfl (fun _ => rfl) rfl ?_
  intro k r hr
  exact hinv.requests k r (hreqs ▸ hr)

theorem submit (hinv : Inv C s) {i : ℕ} {c : Call σ} {enabled : Bool} {dma : Dmac.State}
    (hstage : s.stage i = .registered c)
    (hstep : Dmac.next B s.dma (.enter (C.request c) enabled) = some dma) :
    Inv C { s with
      dma := dma
      stage := Function.update s.stage i (.submitted c s.dma.count) } := by
  have hmove := move_of_next hstep
  have hlinked : Dmac.Linked dma := hinv.linked.move (fun r e h => by
    cases h
    exact ⟨_, rfl⟩) hmove
  refine hinv.keep hlinked (hinv.told.move hinv.linked hmove) rfl ?_ rfl ?_
  · intro l
    by_cases hl : l = i
    · subst hl
      simp only [Function.update_self, hstage]
      rfl
    · simp only [Function.update_of_ne hl]
  · intro k r hr
    unfold Dmac.next at hstep
    cases hstep
    simp only [goto_requests] at hr
    by_cases hk : k = s.dma.count
    · subst hk
      rw [Function.update_self] at hr
      refine ⟨i, c, ?_, (Option.some.inj hr).symm⟩
      simp only [Function.update_self]
      rfl
    · rw [Function.update_of_ne hk] at hr
      obtain ⟨l, d, hmade, hd⟩ := hinv.requests k r hr
      have hl : l ≠ i := by
        rintro rfl
        rw [hstage] at hmade
        cases hmade
      refine ⟨l, d, ?_, hd⟩
      simp only [Function.update_of_ne hl]
      exact hmade

theorem conclude (hinv : Inv C s) {i k : ℕ} {c : Call σ} {sem : ℕ → Option ℕ} {events : List ε}
    (hstage : s.stage i = .submitted c k) :
    Inv C { s with
      sem := sem
      stage := Function.update s.stage i (.returned c k)
      events := events } := by
  refine hinv.keep hinv.linked hinv.told rfl ?_ rfl ?_
  · intro l
    by_cases hl : l = i
    · subst hl
      simp only [Function.update_self, hstage]
      rfl
    · simp only [Function.update_of_ne hl]
  · intro m r hr
    obtain ⟨l, d, hmade, hd⟩ := hinv.requests m r hr
    refine ⟨l, d, ?_, hd⟩
    by_cases hl : l = i
    · subst hl
      rw [hstage] at hmade
      simp only [Function.update_self]
      exact hmade
    · simp only [Function.update_of_ne hl]
      exact hmade

theorem interrupt (hinv : Inv C s) {events : List ε} :
    Inv C { s with
      dma := { s.dma with dev := bmDmacInterruptHandle { s.dma.dev with invoked := [] } }
      events := events } := by
  have hreset : Dmac.Linked { s.dma with dev := { s.dma.dev with invoked := [] } } :=
    hinv.linked.frame rfl hinv.linked.fresh (fun _ _ h => h) (fun _ _ h => h) (fun _ _ _ h => h)
      hinv.linked.flagged rfl rfl rfl rfl rfl rfl
  have htold : Told { s.dma with dev := { s.dma.dev with invoked := [] } } :=
    hinv.told.frame (fun _ h => h) rfl rfl rfl fun _ => Or.inr ⟨rfl, rfl⟩
  exact hinv.keep hreset.interrupt (htold.interrupt hreset) rfl (fun _ => rfl) rfl hinv.requests

theorem register [DecidableEq σ] (hinv : Inv C s) {c : Call σ} {sem : ℕ → Option ℕ} :
    Inv C { s with
      callback := Function.update s.callback c.slot c.callback
      sem := sem
      stage := Function.update s.stage s.count (.registered c)
      count := s.count + 1 } := by
  have hold : ∀ {l d}, (s.stage l).call? = some d → l < s.count := by
    intro l d hl
    by_contra hle
    rw [hinv.fresh l (Nat.le_of_not_lt hle)] at hl
    cases hl
  refine ⟨hinv.linked, hinv.told, ?_, ?_, ?_⟩
  · intro l hl
    simp only at hl ⊢
    rw [Function.update_of_ne (by omega)]
    exact hinv.fresh l (by omega)
  · intro k r hr
    obtain ⟨l, d, hmade, hd⟩ := hinv.requests k r hr
    have hl : l ≠ s.count := by
      rintro rfl
      rw [hinv.fresh s.count le_rfl] at hmade
      cases hmade
    refine ⟨l, d, ?_, hd⟩
    simp only [Function.update_of_ne hl]
    exact hmade
  · intro l d hd
    simp only at hd ⊢
    by_cases hslot : d.slot = c.slot
    · -- the new call is the last one for its slot
      refine ⟨s.count, c, ?_, ⟨?_, hslot.symm, ?_⟩, ?_⟩
      · by_contra hlt
        rw [Function.update_of_ne (by omega), hinv.fresh l (by omega)] at hd
        cases hd
      · simp only [Function.update_self]
        rfl
      · intro m e hm he
        simp only [Function.update_of_ne (show m ≠ s.count by omega),
          hinv.fresh m (by omega)] at he
        cases he
      · rw [hslot, Function.update_self]
    · have hl : l ≠ s.count := by
        rintro rfl
        rw [Function.update_self] at hd
        cases hd
        exact hslot rfl
      rw [Function.update_of_ne hl] at hd
      obtain ⟨j, e, hlj, hlast, hcb⟩ := hinv.latest l d hd
      have hj : j < s.count := hold hlast.call
      refine ⟨j, e, hlj, ⟨?_, hlast.slot, ?_⟩, ?_⟩
      · simp only [Function.update_of_ne (show j ≠ s.count by omega)]
        exact hlast.call
      · intro m e' hm he
        by_cases hmc : m = s.count
        · subst hmc
          simp only [Function.update_self] at he
          cases he
          exact fun h => hslot h.symm
        · simp only [Function.update_of_ne hmc] at he
          exact hlast.last m e' hm he
      · rw [Function.update_of_ne hslot]
        exact hcb

theorem step [DecidableEq σ] (hinv : Inv C s) {a : Label ι} (hstep : next B C s a = some t) :
    Inv C t := by
  cases a with
  | register args =>
    simp only [next] at hstep
    cases hprepare : C.prepare args with
    | none => simp [hprepare] at hstep
    | some c =>
      simp only [hprepare] at hstep
      split at hstep
      · cases hstep
        exact hinv.register
      · cases hstep
  | submit i enabled =>
    simp only [next] at hstep
    cases hstage : s.stage i with
    | registered c =>
      simp only [hstage] at hstep
      obtain ⟨dma, hdma, rfl⟩ := Option.map_eq_some_iff.mp hstep
      exact hinv.submit hstage hdma
    | _ => simp [hstage] at hstep
  | dma a =>
    simp only [next] at hstep
    cases a with
    | enter r enabled => cases hstep
    | interrupt => cases hstep
    | _ =>
      obtain ⟨dma, hdma, rfl⟩ := Option.map_eq_some_iff.mp hstep
      exact hinv.dmaStep (fun _ _ => by simp) hdma
  | interrupt =>
    cases hstep
    exact hinv.interrupt
  | conclude i =>
    simp only [next] at hstep
    cases hstage : s.stage i with
    | submitted c k =>
      simp only [hstage] at hstep
      cases hcall : s.dma.calls k with
      | returned ret =>
        simp only [hcall] at hstep
        cases hstep
        exact hinv.conclude hstage
      | _ => simp [hcall] at hstep
    | _ => simp [hstage] at hstep

theorem completions_quiet {c : ℕ} (hquiet : Quiet s.dma.dev c) : s.completions C c = [] := by
  unfold State.completions channelInvocations
  split
  · rw [hquiet.1, hquiet.2]
    rfl
  · rfl

theorem serves (hinv : Inv C s) {c : ℕ} (hpend : ¬Quiet s.dma.dev c) : Serves C s c := by
  obtain ⟨-, k, -, hended, r, f, hr, htr, hinfo⟩ := hinv.linked.pending c hpend
  obtain ⟨i, call, hmade, rfl⟩ := hinv.requests k r hr
  have hcall : (s.stage i).call? = some call := by
    cases hstage : s.stage i with
    | idle | registered _ =>
      rw [hstage] at hmade
      cases hmade
    | submitted _ _ | returned _ _ =>
      rw [hstage] at hmade
      cases hmade
      rfl
  obtain ⟨j, last, hij, hlast, hcb⟩ := hinv.latest i call hcall
  obtain rfl : f = finishFunc := (Option.some.inj (Transmit.async.inj htr)).symm
  have hreq : Dmac.reqOf (C.request call) = C.reqOf call.slot := by
    unfold Client.request
    cases C.isRead call.slot <;> rfl
  have hbits : (s.dma.dev.intTc c || s.dma.dev.intErr c) = true := by
    by_contra hnot
    simp only [Bool.or_eq_true, not_or, Bool.not_eq_true] at hnot
    exact hpend hnot
  obtain ⟨houtcome, herr⟩ := hinv.told.pending c k hpend hended
  have hstatus : intStatus (s.dma.dev.intTc c) (s.dma.dev.intErr c) =
      if s.dma.dev.intTc c then dmacTransmitOk else dmacTransmitFail := by
    rw [herr]
    cases s.dma.dev.intTc c <;> rfl
  refine ⟨k, i, call, j, last, _, hended, houtcome, hmade, hij, hlast, ?_⟩
  unfold State.completions channelInvocations
  simp only [hinfo, hbits, if_true, List.flatMap_cons, List.flatMap_nil, List.append_nil,
    Client.run, hreq, C.finish_reqOf, hcb, hstatus]

theorem interrupt_events [DecidableEq σ] (hinv : Inv C s)
    (hstep : next B C s .interrupt = some t) :
    t.events = s.events ++ (List.range dmacChannelCnt).flatMap (s.completions C) := by
  cases hstep
  have hslots : SyncSlots { s.dma.dev with invoked := [] } := hinv.linked.slots
  simp only [bmDmacInterruptHandle, foldl_handleChannel_invoked hslots List.nodup_range,
    List.nil_append, List.flatMap_assoc]
  rfl

end Inv

theorem inv_of_reachable [DecidableEq σ] {B : Board} {C : Client ι σ ε} {s : State σ ε}
    (hreach : (system B C).Reachable s) : Inv C s := by
  apply hreach.invariant
  · rintro s rfl
    refine ⟨linked_start, told_start, fun _ _ => rfl, ?_, ?_⟩
    · intro k r hr
      cases hr
    · intro i c hi
      cases hi
  · rintro s a t - hinv hstep
    exact hinv.step hstep

end Client

end HiMpu.DmaClient
