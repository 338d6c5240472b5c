import HiMpu.DmacConservation

/-!
# Completions are attributed to their call

Calls come one after the other; transfers of earlier calls may still run.  A
synchronous call that finds its completion flag clear when it starts its channel
reports success only for its own transfer.  The driver never clears the flag
before a start, so that the late interrupt of an abandoned transfer sets it for
the next call.
-/

namespace HiMpu.Dmac

def Pc.isReturned : Pc → Bool
  | .returned _ => true
  | _ => false

def sequential (s : State) : Label → Bool
  | .enter _ _ => decide (∀ k < s.count, (s.calls k).isReturned = true)
  | _ => true

def flagClear (s : State) : Label → Bool
  | .advance k =>
    match s.calls k with
    | .installed r c =>
      match r.transmit with
      | .sync _ => !s.dev.completeFlag c
      | .async _ => true
    | _ => true
  | _ => true

def sequentialSystem (B : Board) : TransitionSystem State Label :=
  (dmacSystem B).restrict fun s a => sequential s a = true

/-- The run-time fact about a synchronous call: it returned `BM_OK` only after
its own transfer completed without error. -/
def OkAttributed (s : State) : Prop :=
  ∀ k r timeWait, s.requests k = some r → r.transmit = .sync timeWait →
    s.calls k = .returned bmOk → s.outcome k = some true

def Pc.active : Pc → Prop
  | .idle => False
  | .returned _ => False
  | _ => True

def Pc.started : Pc → Prop
  | .waiting _ _ => True
  | .leaving _ _ => True
  | .returned _ => True
  | _ => False

def IsSync (s : State) (k : ℕ) : Prop :=
  ∃ r timeWait, s.requests k = some r ∧ r.transmit = .sync timeWait

def Waited (s : State) (k c : ℕ) : Prop :=
  (s.dev.completeFlag c = false ∧ s.dev.info c = ⟨c, some .sync⟩ ∧
    ((s.dev.running c = some k ∧ s.dev.intTc c = false ∧ s.dev.intErr c = false) ∨
      ∃ ok, s.outcome k = some ok ∧ s.dev.running c = none ∧ s.dev.intTc c = ok ∧
        s.dev.intErr c = !ok)) ∨
  (s.dev.completeFlag c = true ∧ (s.dev.info c).callback = none ∧
    ∃ ok, s.outcome k = some ok ∧ s.dev.syncStatus c = intStatus ok (!ok))

def Placed (s : State) (k : ℕ) : Pc → Prop
  | .idle => True
  | .entered r => s.requests k = some r
  | .scanning r busy _ =>
    s.requests k = some r ∧ ∀ i, busy i = false → s.dev.running i = none
  | .found r c => s.requests k = some r ∧ c < dmacChannelCnt ∧ s.dev.running c = none
  | .configured r c =>
    s.requests k = some r ∧ c < dmacChannelCnt ∧ s.dev.running c = none ∧
      s.dev.intTc c = false ∧ s.dev.intErr c = false
  | .installed r c =>
    s.requests k = some r ∧ c < dmacChannelCnt ∧ s.dev.running c = none ∧
      s.dev.intTc c = false ∧ s.dev.intErr c = false ∧
        ∀ timeWait, r.transmit = .sync timeWait → s.dev.info c = ⟨c, some .sync⟩
  | .waiting c _ => IsSync s k ∧ c < dmacChannelCnt ∧ Waited s k c
  | .leaving _ ret => IsSync s k → ret = bmOk → s.outcome k = some true
  | .returned ret => IsSync s k → ret = bmOk → s.outcome k = some true

structure Attributed (s : State) : Prop where
  slots : SyncSlots s.dev
  fresh : ∀ k, s.count ≤ k → s.calls k = .idle
  single : ∀ k l, (s.calls k).active → (s.calls l).active → k = l
  running : ∀ c k, s.dev.running c = some k → (s.calls k).started ∧ s.outcome k = none
  runningOnce : ∀ c c' k, s.dev.running c = some k → s.dev.running c' = some k → c = c'
  unstarted : ∀ k, ¬ (s.calls k).started → s.outcome k = none
  placed : ∀ k, Placed s k (s.calls k)

namespace Attributed

variable {s t : State}

theorem other (hinv : Attributed s) {k l : ℕ} (hk : (s.calls k).active) (hne : l ≠ k) :
    ¬ (s.calls l).active := fun hl => hne (hinv.single l k hl hk)

theorem placed_of_inactive {k : ℕ} {pc : Pc} (hpc : ¬ pc.active)
    (hplaced : Placed s k pc) (hreq : t.requests k = s.requests k)
    (hout : s.outcome k = some true → t.outcome k = some true) : Placed t k pc := by
  cases pc with
  | idle => trivial
  | returned ret =>
    rintro ⟨r, timeWait, hr, htr⟩ hret
    exact hout (hplaced ⟨r, timeWait, hreq ▸ hr, htr⟩ hret)
  | _ => exact absurd trivial hpc

theorem goto_fresh (hinv : Attributed s) {k : ℕ} {pc : Pc} (hact : (s.calls k).active)
    (hcalls : t.calls = s.calls) (l : ℕ) (hl : s.count ≤ l) : (t.goto k pc).calls l = .idle := by
  have hlk : l ≠ k := by
    rintro rfl
    rw [hinv.fresh l hl] at hact
    exact hact
  rw [goto_calls_of_ne _ _ hlk, hcalls]
  exact hinv.fresh l hl

theorem goto_single (hinv : Attributed s) {k : ℕ} {pc : Pc} (hact : (s.calls k).active)
    (hcalls : t.calls = s.calls) (l m : ℕ) (hl : ((t.goto k pc).calls l).active)
    (hm : ((t.goto k pc).calls m).active) : l = m := by
  have honly : ∀ j, ((t.goto k pc).calls j).active → j = k := by
    intro j hj
    by_contra hjk
    rw [goto_calls_of_ne _ _ hjk, hcalls] at hj
    exact hinv.other hact hjk hj
  rw [honly l hl, honly m hm]

theorem step_of_active (hinv : Attributed s) {k : ℕ} {pc : Pc} {dev : Device} {sem : Option ℕ}
    (hact : (s.calls k).active) (hslots : SyncSlots dev) (hrun : dev.running = s.dev.running)
    (hstart : (s.calls k).started → pc.started)
    (hout : ¬ pc.started → s.outcome k = none)
    (hplaced : Placed ({ s with dev := dev, sem := sem }.goto k pc) k pc) :
    Attributed ({ s with dev := dev, sem := sem }.goto k pc) := by
  constructor
  · exact hslots
  · exact hinv.goto_fresh hact rfl
  · exact hinv.goto_single hact rfl
  · intro c l hl
    rw [goto_dev, hrun] at hl
    obtain ⟨hstarted, hnone⟩ := hinv.running c l hl
    refine ⟨?_, hnone⟩
    by_cases hlk : l = k
    · subst hlk
      rw [goto_calls_self]
      exact hstart hstarted
    · rw [goto_calls_of_ne _ _ hlk]
      exact hstarted
  · intro c c' l hc hc'
    rw [goto_dev, hrun] at hc hc'
    exact hinv.runningOnce c c' l hc hc'
  · intro l hl
    by_cases hlk : l = k
    · subst hlk
      rw [goto_calls_self] at hl
      exact hout hl
    · rw [goto_calls_of_ne _ _ hlk] at hl
      exact hinv.unstarted l hl
  · intro l
    by_cases hlk : l = k
    · subst hlk
      rw [goto_calls_self]
      exact hplaced
    · rw [goto_calls_of_ne _ _ hlk]
      exact placed_of_inactive (hinv.other hact hlk) (hinv.placed l) rfl id

theorem enter (hinv : Attributed s) {r : Request} {pc : Pc}
    (hdone : ∀ k < s.count, (s.calls k).isReturned = true)
    (hpc : pc = .entered r ∨ pc = .returned bmFail) :
    Attributed ({ s with
      requests := Function.update s.requests s.count (some r)
      count := s.count + 1 }.goto s.count pc) := by
  have hinactive : ∀ l, ¬ (s.calls l).active := by
    intro l
    by_cases hl : l < s.count
    · have hret := hdone l hl
      cases hcall : s.calls l with
      | returned ret => exact id
      | _ => simp [hcall, Pc.isReturned] at hret
    · rw [hinv.fresh l (by omega)]
      exact id
  have hnone : s.outcome s.count = none := hinv.unstarted _ (by
    rw [hinv.fresh _ le_rfl]
    exact id)
  constructor
  · exact hinv.slots
  · intro l hl
    have hne : l ≠ s.count := by
      rintro rfl
      simp at hl
    rw [goto_calls_of_ne _ _ hne]
    exact hinv.fresh l (Nat.le_of_succ_le hl)
  · intro l m hl hm
    by_cases hlk : l = s.count
    · by_cases hmk : m = s.count
      · rw [hlk, hmk]
      · rw [goto_calls_of_ne _ _ hmk] at hm
        exact absurd hm (hinactive m)
    · rw [goto_calls_of_ne _ _ hlk] at hl
      exact absurd hl (hinactive l)
  · intro c l hl
    obtain ⟨hstarted, hout⟩ := hinv.running c l hl
    have hne : l ≠ s.count := by
      rintro rfl
      rw [hinv.fresh _ le_rfl] at hstarted
      exact hstarted
    exact ⟨by rwa [goto_calls_of_ne _ _ hne], hout⟩
  · exact hinv.runningOnce
  · intro l hl
    by_cases hlk : l = s.count
    · subst hlk
      exact hnone
    · rw [goto_calls_of_ne _ _ hlk] at hl
      exact hinv.unstarted l hl
  · intro l
    by_cases hlk : l = s.count
    · subst hlk
      rw [goto_calls_self]
      rcases hpc with rfl | rfl
      · simp [Placed]
      · intro _ hret
        cases hret
    · rw [goto_calls_of_ne _ _ hlk]
      exact placed_of_inactive (hinactive l) (hinv.placed l) (Function.update_of_ne hlk _ _) id

theorem launch (hinv : Attributed s) {k c : ℕ} {r : Request} (hpc : s.calls k = .installed r c)
    (hclear : ∀ timeWait, r.transmit = .sync timeWait → s.dev.completeFlag c = false) :
    Attributed ({ s with dev := Dmac.launch s.dev c k }.goto k (launchedPc r c)) := by
  have hact : (s.calls k).active := by
    rw [hpc]
    trivial
  have hnone : s.outcome k = none := hinv.unstarted k (by
    rw [hpc]
    exact id)
  have hfree : ∀ i, s.dev.running i ≠ some k := by
    intro i hi
    have hstarted := (hinv.running i k hi).1
    rw [hpc] at hstarted
    exact hstarted
  have hlaunched : (launchedPc r c).started := by
    unfold launchedPc
    split <;> trivial
  obtain ⟨hreq, hlt, hidle, htc, herr, hinfo⟩ : Placed s k (.installed r c) := hpc ▸ hinv.placed k
  constructor
  · exact hinv.slots
  · exact hinv.goto_fresh hact rfl
  · exact hinv.goto_single hact rfl
  · intro i l hl
    unfold Dmac.launch at hl
    simp only [goto_dev] at hl
    by_cases hic : i = c
    · subst hic
      rw [Function.update_self] at hl
      obtain rfl := Option.some.inj hl
      exact ⟨by rwa [goto_calls_self], hnone⟩
    · rw [Function.update_of_ne hic] at hl
      obtain ⟨hstarted, hout⟩ := hinv.running i l hl
      have hlk : l ≠ k := fun h => hfree i (h ▸ hl)
      exact ⟨by rwa [goto_calls_of_ne _ _ hlk], hout⟩
  · intro i j l hi hj
    unfold Dmac.launch at hi hj
    simp only [goto_dev] at hi hj
    by_cases hic : i = c <;> by_cases hjc : j = c
    · rw [hic, hjc]
    · subst hic
      rw [Function.update_self] at hi
      rw [Function.update_of_ne hjc, ← Option.some.inj hi] at hj
      exact absurd hj (hfree j)
    · subst hjc
      rw [Function.update_self] at hj
      rw [Function.update_of_ne hic, ← Option.some.inj hj] at hi
      exact absurd hi (hfree i)
    · rw [Function.update_of_ne hic] at hi
      rw [Function.update_of_ne hjc] at hj
      exact hinv.runningOnce i j l hi hj
  · intro l hl
    by_cases hlk : l = k
    · subst hlk
      exact hnone
    · rw [goto_calls_of_ne _ _ hlk] at hl
      exact hinv.unstarted l hl
  · intro l
    by_cases hlk : l = k
    · subst hlk
      rw [goto_calls_self]
      unfold launchedPc
      cases htr : r.transmit with
      | sync timeWait =>
        refine ⟨⟨r, timeWait, hreq, htr⟩, hlt, Or.inl ⟨hclear timeWait htr, hinfo timeWait htr,
          Or.inl ⟨?_, htc, herr⟩⟩⟩
        exact Function.update_self ..
      | async callback =>
        rintro ⟨r', timeWait, hr', htr'⟩ _
        rw [goto_requests] at hr'
        simp only at hr'
        rw [hreq] at hr'
        obtain rfl := Option.some.inj hr'
        rw [htr] at htr'
        cases htr'
    · rw [goto_calls_of_ne _ _ hlk]
      exact placed_of_inactive (hinv.other hact hlk) (hinv.placed l) rfl id

theorem waited_finish (hinv : Attributed s) {k l c c' : ℕ} {ok : Bool}
    (hrun : s.dev.running c = some k) (hwait : Waited s l c') :
    Waited { s with
      dev := finishTransfer s.dev c ok
      outcome := Function.update s.outcome k (some ok)
      ended := Function.update s.ended c (some k) } l c' := by
  have hnone := (hinv.running c k hrun).2
  unfold Waited finishTransfer
  simp only
  rcases hwait with ⟨hflag, hinfo, ⟨hrun', htc, herr⟩ | ⟨b, hout, hrun', htc, herr⟩⟩ |
    ⟨hflag, hcb, b, hout, hstatus⟩
  · left
    refine ⟨hflag, hinfo, ?_⟩
    by_cases hcc : c' = c
    · subst hcc
      rw [hrun] at hrun'
      obtain rfl := Option.some.inj hrun'
      right
      refine ⟨ok, Function.update_self .., Function.update_self .., ?_, ?_⟩
      · cases ok <;> simp [htc]
      · cases ok <;> simp [herr]
    · left
      refine ⟨by rwa [Function.update_of_ne hcc], ?_, ?_⟩
      · cases ok <;> simp [Function.update_of_ne hcc, htc]
      · cases ok <;> simp [Function.update_of_ne hcc, herr]
  · left
    have hlk : l ≠ k := by
      rintro rfl
      rw [hnone] at hout
      cases hout
    have hcc : c' ≠ c := by
      rintro rfl
      rw [hrun] at hrun'
      cases hrun'
    refine ⟨hflag, hinfo, Or.inr ⟨b, by rwa [Function.update_of_ne hlk],
      by rwa [Function.update_of_ne hcc], ?_, ?_⟩⟩
    · cases ok <;> simp [Function.update_of_ne hcc, htc]
    · cases ok <;> simp [Function.update_of_ne hcc, herr]
  · right
    have hlk : l ≠ k := by
      rintro rfl
      rw [hnone] at hout
      cases hout
    exact ⟨hflag, hcb, b, by rwa [Function.update_of_ne hlk], hstatus⟩

theorem finish (hinv : Attributed s) {k c : ℕ} {ok : Bool} (hrun : s.dev.running c = some k) :
    Attributed { s with
      dev := finishTransfer s.dev c ok
      outcome := Function.update s.outcome k (some ok)
      ended := Function.update s.ended c (some k) } := by
  obtain ⟨hstarted, hnone⟩ := hinv.running c k hrun
  have hkeep : ∀ l, s.outcome l = some true →
      Function.update s.outcome k (some ok) l = some true := by
    intro l hl
    have hlk : l ≠ k := by
      rintro rfl
      rw [hnone] at hl
      cases hl
    rwa [Function.update_of_ne hlk]
  have hidle : ∀ i, s.dev.running i = none →
      (finishTransfer s.dev c ok).running i = none ∧ i ≠ c := by
    intro i hi
    have hic : i ≠ c := by
      rintro rfl
      rw [hrun] at hi
      cases hi
    exact ⟨by rw [← hi]; exact Function.update_of_ne hic _ _, hic⟩
  have hquiet : ∀ i, i ≠ c → s.dev.intTc i = false → s.dev.intErr i = false →
      (finishTransfer s.dev c ok).intTc i = false ∧ (finishTransfer s.dev c ok).intErr i = false := by
    intro i hic htc herr
    unfold finishTransfer
    cases ok <;> simp [Function.update_of_ne hic, htc, herr]
  constructor
  · exact hinv.slots
  · exact hinv.fresh
  · exact hinv.single
  · intro i l hl
    have hic : i ≠ c := by
      rintro rfl
      simp [finishTransfer] at hl
    have hl' : s.dev.running i = some l := by
      rw [← hl]
      exact (Function.update_of_ne hic _ _).symm
    obtain ⟨hst, hout⟩ := hinv.running i l hl'
    have hlk : l ≠ k := by
      rintro rfl
      exact hic (hinv.runningOnce i c l hl' hrun)
    exact ⟨hst, by rw [← hout]; exact Function.update_of_ne hlk _ _⟩
  · intro i j l hi hj
    have hold : ∀ i, (finishTransfer s.dev c ok).running i = some l → s.dev.running i = some l := by
      intro i hi
      have hic : i ≠ c := by
        rintro rfl
        simp [finishTransfer] at hi
      rw [← hi]
      exact (Function.update_of_ne hic _ _).symm
    exact hinv.runningOnce i j l (hold i hi) (hold j hj)
  · intro l hl
    have hlk : l ≠ k := by
      rintro rfl
      exact hl hstarted
    simp only
    rw [Function.update_of_ne hlk]
    exact hinv.unstarted l hl
  · intro l
    have hplaced := hinv.placed l
    simp only
    cases hpc : s.calls l with
    | idle => trivial
    | entered r =>
      rw [hpc] at hplaced
      exact hplaced
    | scanning r busy index =>
      rw [hpc] at hplaced
      exact ⟨hplaced.1, fun i hi => (hidle i (hplaced.2 i hi)).1⟩
    | found r i =>
      rw [hpc] at hplaced
      exact ⟨hplaced.1, hplaced.2.1, (hidle i hplaced.2.2).1⟩
    | configured r i =>
      rw [hpc] at hplaced
      obtain ⟨hreq, hlt, hri, htc, herr⟩ := hplaced
      exact ⟨hreq, hlt, (hidle i hri).1, hquiet i (hidle i hri).2 htc herr⟩
    | installed r i =>
      rw [hpc] at hplaced
      obtain ⟨hreq, hlt, hri, htc, herr, hinfo⟩ := hplaced
      obtain ⟨htc', herr'⟩ := hquiet i (hidle i hri).2 htc herr
      exact ⟨hreq, hlt, (hidle i hri).1, htc', herr', hinfo⟩
    | waiting i count =>
      rw [hpc] at hplaced
      exact ⟨hplaced.1, hplaced.2.1, hinv.waited_finish hrun hplaced.2.2⟩
    | leaving i ret =>
      rw [hpc] at hplaced
      exact fun hsync hret => hkeep l (hplaced hsync hret)
    | returned ret =>
      rw [hpc] at hplaced
      exact fun hsync hret => hkeep l (hplaced hsync hret)

theorem waited_interrupt (hinv : Attributed s) {k c : ℕ} (hc : c < dmacChannelCnt)
    (hwait : Waited s k c) : Waited { s with dev := bmDmacInterruptHandle s.dev } k c := by
  have hsame := interruptHandle_at hinv.slots hc
  unfold Waited
  simp only
  rw [hsame.completeFlag, hsame.info, hsame.running, hsame.intTc, hsame.intErr, hsame.syncStatus]
  by_cases hpend : (s.dev.intTc c || s.dev.intErr c) = true
  · obtain ⟨-, -, -, -, hinfo', hflag', hstatus'⟩ := handleChannel_pending hinv.slots hpend
    right
    rw [hinfo', hflag', hstatus']
    rcases hwait with ⟨-, hinfo, ⟨-, htc, herr⟩ | ⟨b, hout, -, htc, herr⟩⟩ |
      ⟨hflag, hcb, b, hout, hstatus⟩
    · rw [htc, herr] at hpend
      cases hpend
    · rw [hinfo]
      exact ⟨rfl, rfl, b, hout, by rw [if_pos rfl, htc, herr]⟩
    · rw [hcb]
      exact ⟨by simpa using hflag, rfl, b, hout, by simpa using hstatus⟩
  · rw [handleChannel_quiet (Bool.not_eq_true _ ▸ hpend)]
    exact hwait

theorem interrupt (hinv : Attributed s) :
    Attributed { s with dev := bmDmacInterruptHandle s.dev } := by
  have hrun : ∀ c, (bmDmacInterruptHandle s.dev).running c = s.dev.running c := by
    intro c
    by_cases hc : c < dmacChannelCnt
    · have hsame := interruptHandle_at hinv.slots hc
      by_cases hpend : (s.dev.intTc c || s.dev.intErr c) = true
      · exact hsame.running.trans (handleChannel_pending hinv.slots hpend).2.1
      · rw [handleChannel_quiet (Bool.not_eq_true _ ▸ hpend)] at hsame
        exact hsame.running
    · exact (interruptHandle_out hinv.slots (Nat.le_of_not_lt hc)).running
  have hquiet : ∀ c, c < dmacChannelCnt → s.dev.intTc c = false → s.dev.intErr c = false →
      SameChannel (bmDmacInterruptHandle s.dev) s.dev c := by
    intro c hc htc herr
    have hsame := interruptHandle_at hinv.slots hc
    rwa [handleChannel_quiet (by rw [htc, herr]; rfl)] at hsame
  constructor
  · exact interruptHandle_slots hinv.slots
  · exact hinv.fresh
  · exact hinv.single
  · intro c k hk
    exact hinv.running c k ((hrun c).symm.trans hk)
  · intro c c' k hk hk'
    exact hinv.runningOnce c c' k ((hrun c).symm.trans hk) ((hrun c').symm.trans hk')
  · exact hinv.unstarted
  · intro l
    have hplaced := hinv.placed l
    simp only
    cases hpc : s.calls l with
    | idle => trivial
    | entered r =>
      rw [hpc] at hplaced
      exact hplaced
    | scanning r busy index =>
      rw [hpc] at hplaced
      exact ⟨hplaced.1, fun i hi => (hrun i).trans (hplaced.2 i hi)⟩
    | found r c =>
      rw [hpc] at hplaced
      exact ⟨hplaced.1, hplaced.2.1, (hrun c).trans hplaced.2.2⟩
    | configured r c =>
      rw [hpc] at hplaced
      obtain ⟨hreq, hlt, hrc, htc, herr⟩ := hplaced
      have hsame := hquiet c hlt htc herr
      exact ⟨hreq, hlt, (hrun c).trans hrc, hsame.intTc.trans htc, hsame.intErr.trans herr⟩
    | installed r c =>
      rw [hpc] at hplaced
      obtain ⟨hreq, hlt, hrc, htc, herr, hinfo⟩ := hplaced
      have hsame := hquiet c hlt htc herr
      exact ⟨hreq, hlt, (hrun c).trans hrc, hsame.intTc.trans htc, hsame.intErr.trans herr,
        fun timeWait htr => hsame.info.trans (hinfo timeWait htr)⟩
    | waiting c count =>
      rw [hpc] at hplaced
      exact ⟨hplaced.1, hplaced.2.1, hinv.waited_interrupt hplaced.2.1 hplaced.2.2⟩
    | leaving c ret =>
      rw [hpc] at hplaced
      exact hplaced
    | returned ret =>
      rw [hpc] at hplaced
      exact hplaced

theorem move {B : Board} {a : Label} (hinv : Attributed s) (hseq : sequential s a = true)
    (hclear : flagClear s a = true) (hmove : Move B s a t) : Attributed t := by
  have hactive : ∀ {k : ℕ} {pc : Pc}, s.calls k = pc → pc.active → (s.calls k).active :=
    fun hpc hact => hpc ▸ hact
  have hplaced : ∀ {k : ℕ} {pc : Pc}, s.calls k = pc → Placed s k pc :=
    fun {k} {_} hpc => hpc ▸ hinv.placed k
  cases hmove with
  | enter hpc =>
    simp only [sequential, decide_eq_true_eq] at hseq
    exact hinv.enter hseq (hpc.imp And.left id)
  | semTimeout hpc =>
    refine hinv.step_of_active (hactive hpc trivial) hinv.slots rfl (fun _ => trivial)
      (fun h => absurd trivial h) ?_
    intro _ hret
    cases hret
  | @lock k r hpc hsem =>
    refine hinv.step_of_active (hactive hpc trivial) hinv.slots rfl (by rw [hpc]; exact id)
      (fun _ => hinv.unstarted k (by rw [hpc]; exact id)) ⟨hplaced hpc, ?_⟩
    intro i hi
    simpa using hi
  | exhausted hpc =>
    refine hinv.step_of_active (hactive hpc trivial) hinv.slots rfl (fun _ => trivial)
      (fun h => absurd trivial h) ?_
    intro _ hret
    cases hret
  | @skip k r busy index hpc =>
    exact hinv.step_of_active (hactive hpc trivial) hinv.slots rfl (by rw [hpc]; exact id)
      (fun _ => hinv.unstarted k (by rw [hpc]; exact id)) (hplaced hpc)
  | @take k r busy index hpc hlt hexist hflag hbusy =>
    obtain ⟨hreq, hidle⟩ := hplaced hpc
    exact hinv.step_of_active (hactive hpc trivial) hinv.slots rfl (by rw [hpc]; exact id)
      (fun _ => hinv.unstarted k (by rw [hpc]; exact id)) ⟨hreq, hlt, hidle index hbusy⟩
  | @clean k r c hpc =>
    obtain ⟨hreq, hlt, hidle⟩ := hplaced hpc
    exact hinv.step_of_active (hactive hpc trivial) hinv.slots rfl (by rw [hpc]; exact id)
      (fun _ => hinv.unstarted k (by rw [hpc]; exact id))
      ⟨hreq, hlt, hidle, Function.update_self .., Function.update_self ..⟩
  | @installSync k r c timeWait hpc htr =>
    obtain ⟨hreq, hlt, hidle, htc, herr⟩ := hplaced hpc
    exact hinv.step_of_active (hactive hpc trivial) (hinv.slots.setSync c) rfl
      (by rw [hpc]; exact id) (fun _ => hinv.unstarted k (by rw [hpc]; exact id))
      ⟨hreq, hlt, hidle, htc, herr, fun _ _ => Function.update_self ..⟩
  | @refuse k r c callback hpc htr hcb =>
    refine hinv.step_of_active (hactive hpc trivial) hinv.slots rfl (fun _ => trivial)
      (fun h => absurd trivial h) ?_
    intro _ hret
    cases hret
  | @installAsync k r c callback hpc htr hcb =>
    obtain ⟨hreq, hlt, hidle, htc, herr⟩ := hplaced hpc
    refine hinv.step_of_active (hactive hpc trivial) (hinv.slots.setUser c _ callback) rfl
      (by rw [hpc]; exact id) (fun _ => hinv.unstarted k (by rw [hpc]; exact id))
      ⟨hreq, hlt, hidle, htc, herr, ?_⟩
    intro timeWait htr'
    rw [htr] at htr'
    cases htr'
  | @launch k r c hpc =>
    apply hinv.launch hpc
    intro timeWait htr
    simpa [flagClear, hpc, htr] using hclear
  | @complete k c count hpc hflag =>
    obtain ⟨hsync, hlt, hwait⟩ := hplaced hpc
    refine hinv.step_of_active (hactive hpc trivial) hinv.slots rfl (fun _ => trivial)
      (fun h => absurd trivial h) ?_
    intro _ hret
    rcases hwait with ⟨hflag', -⟩ | ⟨-, -, ok, hout, hstatus⟩
    · rw [hflag] at hflag'
      cases hflag'
    · rw [hstatus] at hret
      cases ok with
      | true => exact hout
      | false => cases hret
  | @timeout k c hpc =>
    refine hinv.step_of_active (hactive hpc trivial) hinv.slots rfl (fun _ => trivial)
      (fun h => absurd trivial h) ?_
    intro _ hret
    cases hret
  | @poll k c count hpc =>
    exact hinv.step_of_active (hactive hpc trivial) hinv.slots rfl (fun _ => trivial)
      (fun h => absurd trivial h) (hplaced hpc)
  | @leave k c ret hpc =>
    exact hinv.step_of_active (hactive hpc trivial) hinv.slots rfl (fun _ => trivial)
      (fun h => absurd trivial h) (hplaced hpc)
  | finish hrun => exact hinv.finish hrun
  | interrupt => exact hinv.interrupt

end Attributed

theorem attributed_start : Attributed start := by
  constructor
  · intro i hi
    cases hi
  · intro k _
    rfl
  · intro k l hk
    exact absurd hk id
  · intro c k hk
    cases hk
  · intro c c' k hk
    cases hk
  · intro k _
    rfl
  · intro k
    trivial

/-- In every sequence of calls, and for every schedule of the controller and the
interrupt handler, in which each synchronous call finds its completion flag
clear when it starts its channel, a synchronous call returns `BM_OK` only after
its own transfer completed without error. -/
theorem ok_attributed {B : Board} {s : State}
    (hreach : ((sequentialSystem B).restrict fun s a => flagClear s a = true).Reachable s) :
    OkAttributed s := by
  have hinv : Attributed s := by
    apply hreach.invariant
    · rintro s rfl
      exact attributed_start
    · rintro s a s' - hinv ⟨hclear, hseq, hstep⟩
      exact hinv.move hseq hclear (move_of_next hstep)
  intro k r timeWait hreq htr hret
  have hplaced := hinv.placed k
  rw [hret] at hplaced
  exact hplaced ⟨r, timeWait, hreq, htr⟩ rfl

def Pc.ret? : Pc → Option ℤ
  | .returned ret => some ret
  | _ => none

theorem Pc.eq_returned {pc : Pc} {ret : ℤ} (hret : pc.ret? = some ret) : pc = .returned ret := by
  cases pc <;> simp_all [Pc.ret?]

def inTime : State :=
  (TransitionSystem.runSteps (TransitionSystem.guarded
    (fun s a => sequential s a = true ∧ flagClear s a = true) (next openBoard)) start
      syncLabels).get (by decide +kernel)

theorem inTime_attributed : inTime.calls 0 = .returned bmOk ∧ inTime.outcome 0 = some true := by
  have hstart : ((dmacSystem openBoard).restrict
      fun s a => sequential s a = true ∧ flagClear s a = true).Reachable start :=
    TransitionSystem.Reachable.init rfl
  have hrun : ((dmacSystem openBoard).restrict
      fun s a => sequential s a = true ∧ flagClear s a = true).Reachable inTime :=
    hstart.runGuarded (l := syncLabels) (Option.some_get _).symm
  have hreach := hrun.restrict_and
  have hret : inTime.calls 0 = .returned bmOk := Pc.eq_returned (by decide +kernel)
  have hreq : inTime.requests 0 = some ⟨some memCfg, .sync 1⟩ := rfl
  exact ⟨hret, ok_attributed hreach 0 _ 1 hreq rfl hret⟩

def lateLabels : List Label :=
  Label.enter ⟨some memCfg, .sync 0⟩ true :: (List.replicate 7 (Label.advance 0) ++
    [Label.finish 0 true, .interrupt, .enter ⟨some memCfg, .sync 5⟩ true] ++
      List.replicate 7 (Label.advance 1))

def afterLate : State :=
  (TransitionSystem.runSteps (TransitionSystem.guarded (fun s a => sequential s a = true)
    (next openBoard)) start lateLabels).get (by decide +kernel)

/-- The second call returns `BM_OK` while its own transfer still runs. -/
theorem late_completion_misattributed :
    (sequentialSystem openBoard).Reachable afterLate ∧ afterLate.dev.running 0 = some 1 ∧
      afterLate.outcome 1 = none ∧ ¬ OkAttributed afterLate := by
  have hstart : (sequentialSystem openBoard).Reachable start := TransitionSystem.Reachable.init rfl
  have hnone : afterLate.outcome 1 = none := by decide +kernel
  refine ⟨hstart.runGuarded (l := lateLabels) (Option.some_get _).symm, by decide +kernel, hnone,
    ?_⟩
  intro hok
  have hret : afterLate.calls 1 = .returned bmOk := Pc.eq_returned (by decide +kernel)
  have hreq : afterLate.requests 1 = some ⟨some memCfg, .sync 5⟩ := rfl
  have hout := hok 1 _ 5 hreq rfl hret
  rw [hnone] at hout
  cases hout

end HiMpu.Dmac
