import HiMpu.Dmac

/-!
# Channels are conserved

A channel is owned through its start flag while a call works on it, and through
the enable status while a transfer runs.  The ownership holds in every run in
which no call takes a channel that was started after its look at the enable
status, and no asynchronous call is handed a channel with an occupied callback
slot.
-/

namespace HiMpu.Dmac

def Pc.channel? : Pc → Option ℕ
  | .found _ c => some c
  | .configured _ c => some c
  | .installed _ c => some c
  | .waiting c _ => some c
  | .leaving c _ => some c
  | _ => none

def Pc.pending? : Pc → Option ℕ
  | .found _ c => some c
  | .configured _ c => some c
  | .installed _ c => some c
  | _ => none

theorem Pc.channel?_of_pending? {pc : Pc} {c : ℕ} (hpend : pc.pending? = some c) :
    pc.channel? = some c := by
  cases pc <;> simp_all [Pc.pending?, Pc.channel?]

/-- The condition on a step: a channel that is taken does not run, and the
callback slot that an asynchronous call finds is empty. -/
def careful (B : Board) (s : State) : Label → Bool
  | .advance k =>
    match s.calls k with
    | .scanning _ busy index =>
      decide (dmacChannelCnt ≤ index) || !B.exist index || s.dev.startFlag index ||
        busy index || (s.dev.running index).isNone
    | .configured r c =>
      match r.transmit with
      | .sync _ => true
      | .async _ => (s.dev.info c).callback = none
    | _ => true
  | _ => true

def Unfinished (s : State) (k c : ℕ) : Prop :=
  (s.calls k).pending? = some c ∨ s.dev.running c = some k

structure Conserving (s : State) : Prop where
  slots : SyncSlots s.dev
  flagged : ∀ k c, (s.calls k).channel? = some c → s.dev.startFlag c = true
  unique : ∀ k l c, (s.calls k).channel? = some c → (s.calls l).channel? = some c → k = l
  owned : ∀ c, s.dev.startFlag c = true → ∃ k, (s.calls k).channel? = some c
  idle : ∀ k c, (s.calls k).pending? = some c → s.dev.running c = none
  fresh : ∀ k, s.count ≤ k → s.calls k = .idle
  served : ∀ c, (s.dev.info c).callback ≠ none → (∃ k, (s.calls k).pending? = some c) ∨
    s.dev.running c ≠ none ∨ s.dev.intTc c = true ∨ s.dev.intErr c = true

theorem goto_channel? {s : State} {k : ℕ} {pc : Pc} (hpc : pc.channel? = (s.calls k).channel?)
    (l : ℕ) : ((s.goto k pc).calls l).channel? = (s.calls l).channel? := by
  unfold State.goto
  by_cases hl : l = k
  · subst hl
    simpa using hpc
  · simp [Function.update_of_ne hl]

theorem goto_pending? {s : State} {k : ℕ} {pc : Pc} (hpc : pc.pending? = (s.calls k).pending?)
    (l : ℕ) : ((s.goto k pc).calls l).pending? = (s.calls l).pending? := by
  unfold State.goto
  by_cases hl : l = k
  · subst hl
    simpa using hpc
  · simp [Function.update_of_ne hl]

namespace Conserving

variable {s t : State}

theorem frame (hinv : Conserving s)
    (hchan : ∀ l, (t.calls l).channel? = (s.calls l).channel?)
    (hpend : ∀ l, (t.calls l).pending? = (s.calls l).pending?)
    (hfresh : ∀ l, t.count ≤ l → t.calls l = .idle)
    (hflag : t.dev.startFlag = s.dev.startFlag) (hinfo : t.dev.info = s.dev.info)
    (hrun : t.dev.running = s.dev.running) (htc : t.dev.intTc = s.dev.intTc)
    (herr : t.dev.intErr = s.dev.intErr) : Conserving t := by
  constructor
  · intro i hi
    rw [hinfo] at hi ⊢
    exact hinv.slots i hi
  · intro k c hk
    rw [hflag]
    exact hinv.flagged k c (hchan k ▸ hk)
  · intro k l c hk hl
    exact hinv.unique k l c (hchan k ▸ hk) (hchan l ▸ hl)
  · intro c hc
    rw [hflag] at hc
    obtain ⟨k, hk⟩ := hinv.owned c hc
    exact ⟨k, (hchan k).trans hk⟩
  · intro k c hk
    rw [hrun]
    exact hinv.idle k c (hpend k ▸ hk)
  · exact hfresh
  · intro c hc
    rw [hinfo] at hc
    rw [hrun, htc, herr]
    rcases hinv.served c hc with ⟨k, hk⟩ | hother
    · exact Or.inl ⟨k, (hpend k).trans hk⟩
    · exact Or.inr hother

theorem lt_count (hinv : Conserving s) {k : ℕ} {pc : Pc} (hpc : s.calls k = pc)
    (hne : pc ≠ .idle) : k < s.count := by
  by_contra hle
  exact hne (hpc ▸ hinv.fresh k (by omega))

theorem fresh_goto (hinv : Conserving s) {k : ℕ} (hk : k < s.count) (pc : Pc) (l : ℕ)
    (hl : s.count ≤ l) : (s.goto k pc).calls l = .idle := by
  unfold State.goto
  simp only
  rw [Function.update_of_ne (by omega)]
  exact hinv.fresh l hl

theorem goto_same (hinv : Conserving s) {k : ℕ} {pc : Pc} {sem : Option ℕ}
    (hk : k < s.count) (hchan : pc.channel? = (s.calls k).channel?)
    (hpend : pc.pending? = (s.calls k).pending?) :
    Conserving ({ s with sem := sem }.goto k pc) :=
  hinv.frame (goto_channel? (s := { s with sem := sem }) hchan)
    (goto_pending? (s := { s with sem := sem }) hpend)
    (hinv.fresh_goto (s := s) hk pc) rfl rfl rfl rfl rfl

theorem enter (hinv : Conserving s) {pc : Pc} {requests : ℕ → Option Request}
    (hchan : pc.channel? = none) (hpend : pc.pending? = none) :
    Conserving ({ s with requests := requests, count := s.count + 1 }.goto s.count pc) := by
  have hidle := hinv.fresh s.count le_rfl
  apply hinv.frame
  · exact goto_channel? (s := { s with requests := requests, count := s.count + 1 }) (by
      rw [hchan, hidle]
      rfl)
  · exact goto_pending? (s := { s with requests := requests, count := s.count + 1 }) (by
      rw [hpend, hidle]
      rfl)
  · intro l hl
    unfold State.goto at hl ⊢
    simp only at hl ⊢
    rw [Function.update_of_ne (by omega)]
    exact hinv.fresh l (by omega)
  all_goals rfl

theorem take (hinv : Conserving s) {k : ℕ} {r : Request} {busy : ℕ → Bool} {index : ℕ}
    (hpc : s.calls k = .scanning r busy index) (hflag : s.dev.startFlag index = false)
    (hrun : s.dev.running index = none) :
    Conserving ({ s with dev := setStartFlag s.dev index true, sem := none }.goto k
      (.found r index)) := by
  have hk := hinv.lt_count hpc (by simp)
  have hself : (s.calls k).channel? = none := by
    rw [hpc]
    rfl
  have hfree : ∀ l, (s.calls l).channel? ≠ some index := by
    intro l hl
    rw [hinv.flagged l index hl] at hflag
    cases hflag
  unfold State.goto setStartFlag
  constructor
  · exact hinv.slots
  · intro l c hl
    by_cases hlk : l = k
    · subst hlk
      simp only [Function.update_self, Pc.channel?, Option.some.injEq] at hl
      subst hl
      simp
    · simp only [Function.update_of_ne hlk] at hl ⊢
      have hne : c ≠ index := by
        rintro rfl
        exact hfree l hl
      rw [Function.update_of_ne hne]
      exact hinv.flagged l c hl
  · intro l m c hl hm
    by_cases hlk : l = k <;> by_cases hmk : m = k
    · rw [hlk, hmk]
    · subst hlk
      simp only [Function.update_self, Function.update_of_ne hmk, Pc.channel?,
        Option.some.injEq] at hl hm
      subst hl
      exact absurd hm (hfree m)
    · subst hmk
      simp only [Function.update_self, Function.update_of_ne hlk, Pc.channel?,
        Option.some.injEq] at hl hm
      subst hm
      exact absurd hl (hfree l)
    · simp only [Function.update_of_ne hlk, Function.update_of_ne hmk] at hl hm
      exact hinv.unique l m c hl hm
  · intro c hc
    by_cases hci : c = index
    · subst hci
      exact ⟨k, by simp [Pc.channel?]⟩
    · simp only [Function.update_of_ne hci] at hc
      obtain ⟨l, hl⟩ := hinv.owned c hc
      have hlk : l ≠ k := by
        rintro rfl
        rw [hself] at hl
        cases hl
      exact ⟨l, by simpa [Function.update_of_ne hlk] using hl⟩
  · intro l c hl
    by_cases hlk : l = k
    · subst hlk
      simp only [Function.update_self, Pc.pending?, Option.some.injEq] at hl
      subst hl
      exact hrun
    · simp only [Function.update_of_ne hlk] at hl
      exact hinv.idle l c hl
  · exact hinv.fresh_goto (s := s) hk _
  · intro c hc
    rcases hinv.served c hc with ⟨l, hl⟩ | hother
    · have hlk : l ≠ k := by
        rintro rfl
        rw [hpc] at hl
        cases hl
      exact Or.inl ⟨l, by simpa [Function.update_of_ne hlk] using hl⟩
    · exact Or.inr hother

theorem prepare (hinv : Conserving s) {k c : ℕ} {pc : Pc} {dev : Device}
    (hpend : (s.calls k).pending? = some c) (hpc : pc.pending? = some c)
    (hslots : SyncSlots dev) (hflag : dev.startFlag = s.dev.startFlag)
    (hrun : dev.running = s.dev.running)
    (hinfo : ∀ i, i ≠ c → dev.info i = s.dev.info i)
    (htc : ∀ i, i ≠ c → dev.intTc i = s.dev.intTc i)
    (herr : ∀ i, i ≠ c → dev.intErr i = s.dev.intErr i) :
    Conserving ({ s with dev := dev }.goto k pc) := by
  have hk : k < s.count := by
    by_contra hle
    rw [hinv.fresh k (by omega)] at hpend
    cases hpend
  have hchans : ∀ l, (({ s with dev := dev }.goto k pc).calls l).channel? =
      (s.calls l).channel? := goto_channel? (s := { s with dev := dev }) (by
    rw [Pc.channel?_of_pending? hpc, Pc.channel?_of_pending? hpend])
  have hpends : ∀ l, (({ s with dev := dev }.goto k pc).calls l).pending? =
      (s.calls l).pending? := goto_pending? (s := { s with dev := dev }) (by rw [hpc, hpend])
  constructor
  · exact hslots
  · intro l i hl
    rw [goto_dev, hflag]
    exact hinv.flagged l i (hchans l ▸ hl)
  · intro l m i hl hm
    exact hinv.unique l m i (hchans l ▸ hl) (hchans m ▸ hm)
  · intro i hi
    rw [goto_dev, hflag] at hi
    obtain ⟨l, hl⟩ := hinv.owned i hi
    exact ⟨l, (hchans l).trans hl⟩
  · intro l i hl
    rw [goto_dev, hrun]
    exact hinv.idle l i (hpends l ▸ hl)
  · exact hinv.fresh_goto (s := s) hk pc
  · intro i hi
    by_cases hic : i = c
    · subst hic
      exact Or.inl ⟨k, (hpends k).trans hpend⟩
    · rw [goto_dev, hinfo i hic] at hi
      rw [goto_dev, hrun, htc i hic, herr i hic]
      rcases hinv.served i hi with ⟨l, hl⟩ | hother
      · exact Or.inl ⟨l, (hpends l).trans hl⟩
      · exact Or.inr hother

theorem launch (hinv : Conserving s) {k c : ℕ} {r : Request} (hpc : s.calls k = .installed r c) :
    Conserving ({ s with dev := Dmac.launch s.dev c k }.goto k (launchedPc r c)) := by
  have hk := hinv.lt_count hpc (by simp)
  have hnew : (launchedPc r c).channel? = some c ∧ (launchedPc r c).pending? = none := by
    unfold launchedPc
    split <;> exact ⟨rfl, rfl⟩
  have hown : (s.calls k).channel? = some c := by
    rw [hpc]
    rfl
  have hchans : ∀ l, (({ s with dev := Dmac.launch s.dev c k }.goto k
      (launchedPc r c)).calls l).channel? = (s.calls l).channel? :=
    goto_channel? (s := { s with dev := Dmac.launch s.dev c k }) (by rw [hnew.1, hown])
  constructor
  · exact hinv.slots
  · intro l i hl
    exact hinv.flagged l i (hchans l ▸ hl)
  · intro l m i hl hm
    exact hinv.unique l m i (hchans l ▸ hl) (hchans m ▸ hm)
  · intro i hi
    obtain ⟨l, hl⟩ := hinv.owned i hi
    exact ⟨l, (hchans l).trans hl⟩
  · intro l i hl
    by_cases hlk : l = k
    · subst hlk
      rw [goto_calls_self, hnew.2] at hl
      cases hl
    · rw [goto_calls_of_ne _ _ hlk] at hl
      have hne : i ≠ c := by
        rintro rfl
        exact hlk (hinv.unique l k i (Pc.channel?_of_pending? hl) hown)
      rw [goto_dev]
      unfold Dmac.launch
      simp only
      rw [Function.update_of_ne hne]
      exact hinv.idle l i hl
  · exact hinv.fresh_goto (s := s) hk _
  · intro i hi
    rw [goto_dev]
    unfold Dmac.launch
    simp only
    by_cases hic : i = c
    · subst hic
      exact Or.inr (Or.inl (by simp))
    · rw [Function.update_of_ne hic]
      rcases hinv.served i hi with ⟨l, hl⟩ | hother
      · have hlk : l ≠ k := by
          rintro rfl
          rw [hpc] at hl
          exact hic (Option.some.inj hl).symm
        exact Or.inl ⟨l, by rwa [goto_calls_of_ne _ _ hlk]⟩
      · exact Or.inr hother

theorem leave (hinv : Conserving s) {k c : ℕ} {ret : ℤ} (hpc : s.calls k = .leaving c ret) :
    Conserving ({ s with dev := setStartFlag s.dev c false }.goto k (.returned ret)) := by
  have hk := hinv.lt_count hpc (by simp)
  have hown : (s.calls k).channel? = some c := by
    rw [hpc]
    rfl
  have hpends : ∀ l, (({ s with dev := setStartFlag s.dev c false }.goto k
      (.returned ret)).calls l).pending? = (s.calls l).pending? :=
    goto_pending? (s := { s with dev := setStartFlag s.dev c false }) (by
      rw [hpc]
      rfl)
  have hothers : ∀ l i, (({ s with dev := setStartFlag s.dev c false }.goto k
      (.returned ret)).calls l).channel? = some i →
        l ≠ k ∧ (s.calls l).channel? = some i ∧ i ≠ c := by
    intro l i hl
    have hlk : l ≠ k := by
      rintro rfl
      rw [goto_calls_self] at hl
      cases hl
    rw [goto_calls_of_ne _ _ hlk] at hl
    refine ⟨hlk, hl, ?_⟩
    rintro rfl
    exact hlk (hinv.unique l k i hl hown)
  constructor
  · exact hinv.slots
  · intro l i hl
    obtain ⟨-, hl', hne⟩ := hothers l i hl
    rw [goto_dev]
    unfold setStartFlag
    simp only
    rw [Function.update_of_ne hne]
    exact hinv.flagged l i hl'
  · intro l m i hl hm
    exact hinv.unique l m i (hothers l i hl).2.1 (hothers m i hm).2.1
  · intro i hi
    have hne : i ≠ c := by
      rintro rfl
      simp [setStartFlag] at hi
    rw [goto_dev] at hi
    unfold setStartFlag at hi
    simp only at hi
    rw [Function.update_of_ne hne] at hi
    obtain ⟨l, hl⟩ := hinv.owned i hi
    have hlk : l ≠ k := by
      rintro rfl
      rw [hown] at hl
      exact hne (Option.some.inj hl).symm
    exact ⟨l, by rwa [goto_calls_of_ne _ _ hlk]⟩
  · intro l i hl
    exact hinv.idle l i (hpends l ▸ hl)
  · exact hinv.fresh_goto (s := s) hk _
  · intro i hi
    rcases hinv.served i hi with ⟨l, hl⟩ | hother
    · exact Or.inl ⟨l, (hpends l).trans hl⟩
    · exact Or.inr hother

theorem finish (hinv : Conserving s) {k c : ℕ} {ok : Bool} (hrun : s.dev.running c = some k) :
    Conserving { s with
      dev := finishTransfer s.dev c ok
      outcome := Function.update s.outcome k (some ok)
      ended := Function.update s.ended c (some k) } := by
  constructor
  · exact hinv.slots
  · exact hinv.flagged
  · exact hinv.unique
  · exact hinv.owned
  · intro l i hl
    unfold finishTransfer
    simp only
    by_cases hic : i = c
    · subst hic
      simp
    · rw [Function.update_of_ne hic]
      exact hinv.idle l i hl
  · exact hinv.fresh
  · intro i hi
    unfold finishTransfer at hi ⊢
    simp only at hi ⊢
    by_cases hic : i = c
    · subst hic
      cases ok <;> simp
    · rw [Function.update_of_ne hic]
      rcases hinv.served i hi with hpend | hother | htc | herr
      · exact Or.inl hpend
      · exact Or.inr (Or.inl hother)
      · cases ok <;> simp [htc, Function.update_of_ne hic]
      · cases ok <;> simp [herr, Function.update_of_ne hic]

theorem interrupt (hinv : Conserving s) :
    Conserving { s with dev := bmDmacInterruptHandle s.dev } := by
  have hkeep : ∀ c, (bmDmacInterruptHandle s.dev).startFlag c = s.dev.startFlag c ∧
      (bmDmacInterruptHandle s.dev).running c = s.dev.running c ∧
      (((bmDmacInterruptHandle s.dev).info c).callback = none ∨
        ((bmDmacInterruptHandle s.dev).info c = s.dev.info c ∧
          (bmDmacInterruptHandle s.dev).intTc c = s.dev.intTc c ∧
          (bmDmacInterruptHandle s.dev).intErr c = s.dev.intErr c)) := by
    intro c
    by_cases hc : c < dmacChannelCnt
    · have hsame := interruptHandle_at hinv.slots hc
      by_cases hpend : (s.dev.intTc c || s.dev.intErr c) = true
      · obtain ⟨h1, h2, -, -, h5, -⟩ := handleChannel_pending hinv.slots hpend
        refine ⟨hsame.startFlag.trans h1, hsame.running.trans h2, Or.inl ?_⟩
        rw [hsame.info, h5]
      · rw [handleChannel_quiet (Bool.not_eq_true _ ▸ hpend)] at hsame
        exact ⟨hsame.startFlag, hsame.running, Or.inr ⟨hsame.info, hsame.intTc, hsame.intErr⟩⟩
    · have hsame := interruptHandle_out hinv.slots (Nat.le_of_not_lt hc)
      exact ⟨hsame.startFlag, hsame.running, Or.inr ⟨hsame.info, hsame.intTc, hsame.intErr⟩⟩
  constructor
  · exact interruptHandle_slots hinv.slots
  · intro l c hl
    exact (hkeep c).1.trans (hinv.flagged l c hl)
  · exact hinv.unique
  · intro c hc
    exact hinv.owned c ((hkeep c).1 ▸ hc)
  · intro l c hl
    exact (hkeep c).2.1.trans (hinv.idle l c hl)
  · exact hinv.fresh
  · intro c hc
    rcases (hkeep c).2.2 with hnone | ⟨hinfo, htc, herr⟩
    · exact absurd hnone hc
    · simp only at hc ⊢
      rw [hinfo] at hc
      rw [(hkeep c).2.1, htc, herr]
      exact hinv.served c hc

theorem move {B : Board} {a : Label} (hinv : Conserving s) (hcareful : careful B s a = true)
    (hmove : Move B s a t) : Conserving t := by
  cases hmove with
  | enter hpc =>
    rcases hpc with ⟨rfl, -⟩ | rfl
    · exact hinv.enter rfl rfl
    · exact hinv.enter rfl rfl
  | semTimeout hpc =>
    exact hinv.goto_same (hinv.lt_count hpc (by simp)) (by rw [hpc]; rfl) (by rw [hpc]; rfl)
  | lock hpc =>
    exact hinv.goto_same (hinv.lt_count hpc (by simp)) (by rw [hpc]; rfl) (by rw [hpc]; rfl)
  | exhausted hpc =>
    exact hinv.goto_same (hinv.lt_count hpc (by simp)) (by rw [hpc]; rfl) (by rw [hpc]; rfl)
  | skip hpc =>
    exact hinv.goto_same (hinv.lt_count hpc (by simp)) (by rw [hpc]; rfl) (by rw [hpc]; rfl)
  | take hpc hlt hexist hflag hbusy =>
    apply hinv.take hpc hflag
    simp only [careful, hpc, hexist, hflag, hbusy] at hcareful
    simpa [Nat.not_le_of_lt hlt] using hcareful
  | clean hpc =>
    refine hinv.prepare (by rw [hpc]; rfl) rfl hinv.slots rfl rfl (fun _ _ => rfl) ?_ ?_
    · intro i hi
      exact Function.update_of_ne hi _ _
    · intro i hi
      exact Function.update_of_ne hi _ _
  | @installSync k r c timeWait hpc htr =>
    refine hinv.prepare (c := c) (by rw [hpc]; rfl) rfl (hinv.slots.setSync c) rfl rfl ?_
      (fun _ _ => rfl) (fun _ _ => rfl)
    intro i hi
    exact Function.update_of_ne hi _ _
  | refuse hpc htr hcb =>
    simp only [careful, hpc, htr, decide_eq_true_eq] at hcareful
    exact absurd hcareful hcb
  | @installAsync k r c callback hpc htr hcb =>
    refine hinv.prepare (c := c) (by rw [hpc]; rfl) rfl (hinv.slots.setUser c _ callback) rfl rfl
      ?_ (fun _ _ => rfl) (fun _ _ => rfl)
    intro i hi
    exact Function.update_of_ne hi _ _
  | launch hpc => exact hinv.launch hpc
  | @complete k c count hpc hflag =>
    refine hinv.frame (t := State.goto { s with dev := clearComplete s.dev c } k _) ?_ ?_
      (hinv.fresh_goto (s := s) (hinv.lt_count hpc (by simp)) _) rfl rfl rfl rfl rfl
    · exact goto_channel? (s := { s with dev := clearComplete s.dev c }) (by rw [hpc]; rfl)
    · exact goto_pending? (s := { s with dev := clearComplete s.dev c }) (by rw [hpc]; rfl)
  | timeout hpc =>
    exact hinv.goto_same (hinv.lt_count hpc (by simp)) (by rw [hpc]; rfl) (by rw [hpc]; rfl)
  | poll hpc =>
    exact hinv.goto_same (hinv.lt_count hpc (by simp)) (by rw [hpc]; rfl) (by rw [hpc]; rfl)
  | leave hpc => exact hinv.leave hpc
  | finish hrun => exact hinv.finish hrun
  | interrupt => exact hinv.interrupt

end Conserving

theorem conserving_start : Conserving start := by
  constructor
  · intro i hi
    cases hi
  · intro k c hk
    cases hk
  · intro k l c hk
    cases hk
  · intro c hc
    cases hc
  · intro k c hk
    cases hk
  · intro k _
    rfl
  · intro c hc
    exact absurd rfl hc

theorem conserving_of_reachable {B : Board} {s : State}
    (hreach : ((dmacSystem B).restrict fun s a => careful B s a = true).Reachable s) :
    Conserving s := by
  apply hreach.invariant
  · rintro s rfl
    exact conserving_start
  · rintro s a s' - hinv ⟨hcareful, hstep⟩
    exact hinv.move hcareful (move_of_next hstep)

/-- In every careful run no channel has two unfinished transfers, and a channel
that no call works on, whose transfer has ended and whose interrupts have been
handled, is free: its start flag is clear and its callback slot is empty. -/
theorem channels_conserved {B : Board} {s : State}
    (hreach : ((dmacSystem B).restrict fun s a => careful B s a = true).Reachable s) :
    (∀ c k l, Unfinished s k c → Unfinished s l c → k = l) ∧
      ∀ c, (∀ k < s.count, (s.calls k).channel? ≠ some c) → s.dev.running c = none →
        s.dev.intTc c = false → s.dev.intErr c = false →
          s.dev.startFlag c = false ∧ (s.dev.info c).callback = none := by
  have hinv := conserving_of_reachable hreach
  constructor
  · rintro c k l (hk | hk) (hl | hl)
    · exact hinv.unique k l c (Pc.channel?_of_pending? hk) (Pc.channel?_of_pending? hl)
    · rw [hinv.idle k c hk] at hl
      cases hl
    · rw [hinv.idle l c hl] at hk
      cases hk
    · rw [hk] at hl
      exact Option.some.inj hl
  · intro c hfree hrun htc herr
    have hnone : ∀ k, (s.calls k).channel? ≠ some c := by
      intro k
      by_cases hk : k < s.count
      · exact hfree k hk
      · rw [hinv.fresh k (by omega)]
        simp [Pc.channel?]
    constructor
    · by_contra hflag
      obtain ⟨k, hk⟩ := hinv.owned c (by simpa using hflag)
      exact hnone k hk
    · by_contra hcb
      rcases hinv.served c hcb with ⟨k, hk⟩ | hother | hother | hother
      · exact hnone k (Pc.channel?_of_pending? hk)
      · exact hother hrun
      · rw [htc] at hother
        cases hother
      · rw [herr] at hother
        cases hother

def openBoard : Board := ⟨fun _ => true, fun _ _ => false⟩

def memCfg : ChannelCfg := ⟨0, 0x1000, 0x2000, 4, .m2m⟩

def syncLabels : List Label :=
  .enter ⟨some memCfg, .sync 1⟩ true :: (List.replicate 5 (Label.advance 0) ++
    [Label.finish 0 true, .interrupt, .advance 0, .advance 0])

def afterSync : State :=
  (TransitionSystem.runSteps (TransitionSystem.guarded (fun s a => careful openBoard s a = true)
    (next openBoard)) start syncLabels).get (by decide +kernel)

theorem afterSync_conserved :
    afterSync.dev.startFlag 0 = false ∧ (afterSync.dev.info 0).callback = none := by
  have hstart : ((dmacSystem openBoard).restrict fun s a => careful openBoard s a = true).Reachable
      start := TransitionSystem.Reachable.init rfl
  have hreach : ((dmacSystem openBoard).restrict fun s a => careful openBoard s a = true).Reachable
      afterSync := hstart.runGuarded (l := syncLabels) (Option.some_get _).symm
  exact (channels_conserved hreach).2 0 (by decide +kernel) (by decide +kernel) (by decide +kernel)
    (by decide +kernel)

def leakLabels : List Label :=
  .enter ⟨some memCfg, .sync 0⟩ true :: (List.replicate 7 (Label.advance 0) ++
    [Label.finish 0 true, .enter ⟨some memCfg, .async (some 1)⟩ true] ++
      List.replicate 4 (Label.advance 1))

def afterLeak : State :=
  (TransitionSystem.runSteps (next openBoard) start leakLabels).get (by decide +kernel)

/-- Both calls have returned, the controller has stopped and no interrupt is
pending, but channel 0 keeps its start flag and its callback. -/
theorem async_leaks_channel :
    (dmacSystem openBoard).Reachable afterLeak ∧
      (∀ k < afterLeak.count, (afterLeak.calls k).channel? ≠ some 0) ∧
      afterLeak.dev.running 0 = none ∧ afterLeak.dev.intTc 0 = false ∧
      afterLeak.dev.intErr 0 = false ∧ afterLeak.dev.startFlag 0 = true ∧
      (afterLeak.dev.info 0).callback = some .sync := by
  have hstart : (dmacSystem openBoard).Reachable start := TransitionSystem.Reachable.init rfl
  refine ⟨hstart.runSteps (l := leakLabels) (Option.some_get _).symm, ?_⟩
  refine ⟨by decide +kernel, by decide +kernel, by decide +kernel, by decide +kernel,
    by decide +kernel, by decide +kernel⟩

end HiMpu.Dmac
