import HiMpu.DmacConservation

/-!
# Asynchronous transfers and their callback slots

When all calls are asynchronous, a channel whose interrupt is pending holds the
callback of the very transfer that ended on it, however the calls interleave: an
asynchronous call never replaces an occupied slot.
-/

namespace HiMpu.Dmac

def Pc.request? : Pc → Option Request
  | .entered r => some r
  | .scanning r _ _ => some r
  | .found r _ => some r
  | .configured r _ => some r
  | .installed r _ => some r
  | _ => none

def Slot (s : State) (c k : ℕ) : Prop :=
  ∃ r f, s.requests k = some r ∧ r.transmit = .async (some f) ∧
    s.dev.info c = ⟨reqOf r, some (.user f)⟩

def Quiet (d : Device) (c : ℕ) : Prop := d.intTc c = false ∧ d.intErr c = false

structure Linked (s : State) : Prop where
  fresh : ∀ k, s.count ≤ k → s.calls k = .idle
  user : ∀ c, (s.dev.info c).callback ≠ some .sync
  async : ∀ k r, (s.calls k).request? = some r →
    s.requests k = some r ∧ ∃ f, r.transmit = .async (some f)
  flagged : ∀ k c, (s.calls k).channel? = some c → s.dev.startFlag c = true
  unique : ∀ k l c, (s.calls k).channel? = some c → (s.calls l).channel? = some c → k = l
  installed : ∀ k r c, s.calls k = .installed r c →
    s.dev.running c = none ∧ Quiet s.dev c ∧ Slot s c k
  running : ∀ c k, s.dev.running c = some k → k < s.count ∧ Quiet s.dev c ∧ Slot s c k
  pending : ∀ c, ¬ Quiet s.dev c →
    s.dev.running c = none ∧ ∃ k, k < s.count ∧ s.ended c = some k ∧ Slot s c k

namespace Linked

variable {s t : State}

theorem slots (hinv : Linked s) : SyncSlots s.dev := fun c hc => absurd hc (hinv.user c)

theorem lt_count (hinv : Linked s) {k : ℕ} {pc : Pc} (hpc : s.calls k = pc)
    (hne : pc ≠ .idle) : k < s.count := by
  by_contra hle
  exact hne (hpc ▸ hinv.fresh k (by omega))

theorem frame (hinv : Linked s)
    (hcount : t.count = s.count)
    (hfresh : ∀ k, s.count ≤ k → t.calls k = .idle)
    (hrequest : ∀ k r, (t.calls k).request? = some r → (s.calls k).request? = some r)
    (hchannel : ∀ k c, (t.calls k).channel? = some c → (s.calls k).channel? = some c)
    (hinstalled : ∀ k r c, t.calls k = .installed r c → s.calls k = .installed r c)
    (hflag : ∀ k c, (t.calls k).channel? = some c → t.dev.startFlag c = true)
    (hrequests : t.requests = s.requests) (hended : t.ended = s.ended)
    (hinfo : t.dev.info = s.dev.info) (hrun : t.dev.running = s.dev.running)
    (htc : t.dev.intTc = s.dev.intTc) (herr : t.dev.intErr = s.dev.intErr) : Linked t := by
  have hslot : ∀ c k, Slot s c k → Slot t c k := by
    rintro c k ⟨r, f, hr, htr, hcb⟩
    exact ⟨r, f, by rw [hrequests, hr], htr, by rw [hinfo, hcb]⟩
  have hquiet : ∀ c, Quiet t.dev c ↔ Quiet s.dev c := by
    intro c
    unfold Quiet
    rw [htc, herr]
  constructor
  · intro k hk
    exact hfresh k (hcount ▸ hk)
  · intro c
    rw [hinfo]
    exact hinv.user c
  · intro k r hk
    rw [hrequests]
    exact hinv.async k r (hrequest k r hk)
  · exact hflag
  · intro k l c hk hl
    exact hinv.unique k l c (hchannel k c hk) (hchannel l c hl)
  · intro k r c hk
    obtain ⟨h1, h2, h3⟩ := hinv.installed k r c (hinstalled k r c hk)
    exact ⟨by rw [hrun, h1], (hquiet c).mpr h2, hslot c k h3⟩
  · intro c k hk
    rw [hrun] at hk
    obtain ⟨h1, h2, h3⟩ := hinv.running c k hk
    exact ⟨hcount ▸ h1, (hquiet c).mpr h2, hslot c k h3⟩
  · intro c hc
    rw [hquiet] at hc
    obtain ⟨h1, k, h2, h3, h4⟩ := hinv.pending c hc
    exact ⟨by rw [hrun, h1], k, hcount ▸ h2, by rw [hended, h3], hslot c k h4⟩

theorem goto_frame (hinv : Linked s) {k : ℕ} {pc : Pc} {e : Device} {o : Option ℕ}
    (hk : k < s.count) (hrequest : ∀ r, pc.request? = some r → (s.calls k).request? = some r)
    (hchannel : ∀ c, pc.channel? = some c → (s.calls k).channel? = some c)
    (hinstalled : ∀ r c, pc ≠ .installed r c)
    (hflag : ∀ l c, (({ s with dev := e, sem := o }.goto k pc).calls l).channel? = some c →
      e.startFlag c = true)
    (hinfo : e.info = s.dev.info) (hrun : e.running = s.dev.running)
    (htc : e.intTc = s.dev.intTc) (herr : e.intErr = s.dev.intErr) :
    Linked ({ s with dev := e, sem := o }.goto k pc) := by
  apply hinv.frame
  · rfl
  · intro l hl
    rw [goto_calls_of_ne _ _ (by omega)]
    exact hinv.fresh l hl
  · intro l r hl
    by_cases hlk : l = k
    · subst hlk
      rw [goto_calls_self] at hl
      exact hrequest r hl
    · rwa [goto_calls_of_ne _ _ hlk] at hl
  · intro l c hl
    by_cases hlk : l = k
    · subst hlk
      rw [goto_calls_self] at hl
      exact hchannel c hl
    · rwa [goto_calls_of_ne _ _ hlk] at hl
  · intro l r c hl
    by_cases hlk : l = k
    · subst hlk
      rw [goto_calls_self] at hl
      exact absurd hl (hinstalled r c)
    · rwa [goto_calls_of_ne _ _ hlk] at hl
  · exact hflag
  · rfl
  · rfl
  · exact hinfo
  · exact hrun
  · exact htc
  · exact herr

theorem goto_same (hinv : Linked s) {k : ℕ} {pc : Pc} {sem : Option ℕ} (hk : k < s.count)
    (hrequest : ∀ r, pc.request? = some r → (s.calls k).request? = some r)
    (hchannel : ∀ c, pc.channel? = some c → (s.calls k).channel? = some c)
    (hinstalled : ∀ r c, pc ≠ .installed r c) :
    Linked ({ s with sem := sem }.goto k pc) := by
  refine hinv.goto_frame (e := s.dev) hk hrequest hchannel hinstalled ?_ rfl rfl rfl rfl
  intro l c hl
  by_cases hlk : l = k
  · subst hlk
    rw [goto_calls_self] at hl
    exact hinv.flagged l c (hchannel c hl)
  · rw [goto_calls_of_ne _ _ hlk] at hl
    exact hinv.flagged l c hl

theorem enter {B : Board} (hinv : Linked s) {r : Request} {enabled : Bool} {pc : Pc}
    (hasync : ∃ callback, r.transmit = .async callback)
    (hpc : (pc = .entered r ∧ r.accepted B enabled = true) ∨ pc = .returned bmFail) :
    Linked ({ s with
      requests := Function.update s.requests s.count (some r)
      count := s.count + 1 }.goto s.count pc) := by
  have hidle := hinv.fresh s.count le_rfl
  have hchan : pc.channel? = none := by
    rcases hpc with ⟨rfl, -⟩ | rfl <;> rfl
  have hold : ∀ k r', k < s.count → s.requests k = some r' →
      Function.update s.requests s.count (some r) k = some r' := by
    intro k r' hk hr
    rwa [Function.update_of_ne (by omega)]
  have hslot : ∀ c k, k < s.count → Slot s c k → Slot ({ s with
      requests := Function.update s.requests s.count (some r)
      count := s.count + 1 }.goto s.count pc) c k := by
    rintro c k hk ⟨r', f, hr, htr, hcb⟩
    exact ⟨r', f, hold k r' hk hr, htr, hcb⟩
  constructor
  · intro l hl
    have hne : l ≠ s.count := by
      rintro rfl
      simp at hl
    rw [goto_calls_of_ne _ _ hne]
    exact hinv.fresh l (Nat.le_of_succ_le hl)
  · exact hinv.user
  · intro l r' hl
    by_cases hlk : l = s.count
    · subst hlk
      rw [goto_calls_self] at hl
      rcases hpc with ⟨rfl, hacc⟩ | rfl
      · obtain rfl := Option.some.inj hl
        refine ⟨Function.update_self .., ?_⟩
        obtain ⟨callback, htr⟩ := hasync
        unfold Request.accepted at hacc
        simp only [htr, Bool.and_eq_true] at hacc
        obtain ⟨f, rfl⟩ := Option.isSome_iff_exists.mp hacc.1.2
        exact ⟨f, htr⟩
      · cases hl
    · rw [goto_calls_of_ne _ _ hlk] at hl
      obtain ⟨hr, hf⟩ := hinv.async l r' hl
      refine ⟨?_, hf⟩
      rw [goto_requests]
      simp only
      rwa [Function.update_of_ne hlk]
  · intro l c hl
    by_cases hlk : l = s.count
    · subst hlk
      rw [goto_calls_self, hchan] at hl
      cases hl
    · rw [goto_calls_of_ne _ _ hlk] at hl
      exact hinv.flagged l c hl
  · intro l m c hl hm
    have hne : ∀ j, (({ s with
        requests := Function.update s.requests s.count (some r)
        count := s.count + 1 }.goto s.count pc).calls j).channel? = some c →
          (s.calls j).channel? = some c := by
      intro j hj
      by_cases hjk : j = s.count
      · subst hjk
        rw [goto_calls_self, hchan] at hj
        cases hj
      · rwa [goto_calls_of_ne _ _ hjk] at hj
    exact hinv.unique l m c (hne l hl) (hne m hm)
  · intro l r' c hl
    have hlk : l ≠ s.count := by
      rintro rfl
      rw [goto_calls_self] at hl
      rw [hl] at hchan
      cases hchan
    rw [goto_calls_of_ne _ _ hlk] at hl
    obtain ⟨h1, h2, h3⟩ := hinv.installed l r' c hl
    exact ⟨h1, h2, hslot c l (hinv.lt_count hl (by simp)) h3⟩
  · intro c l hl
    obtain ⟨h1, h2, h3⟩ := hinv.running c l hl
    exact ⟨Nat.lt_succ_of_lt h1, h2, hslot c l h1 h3⟩
  · intro c hc
    obtain ⟨h1, k, h2, h3, h4⟩ := hinv.pending c hc
    exact ⟨h1, k, Nat.lt_succ_of_lt h2, h3, hslot c k h2 h4⟩

theorem take (hinv : Linked s) {k : ℕ} {r : Request} {busy : ℕ → Bool} {index : ℕ}
    (hpc : s.calls k = .scanning r busy index) (hflag : s.dev.startFlag index = false) :
    Linked ({ s with dev := setStartFlag s.dev index true, sem := none }.goto k
      (.found r index)) := by
  have hk := hinv.lt_count hpc (by simp)
  have hfree : ∀ l, (s.calls l).channel? ≠ some index := by
    intro l hl
    rw [hinv.flagged l index hl] at hflag
    cases hflag
  constructor
  · intro l hl
    have hlk : l ≠ k := by
      rintro rfl
      exact absurd hk (Nat.not_lt.mpr hl)
    rw [goto_calls_of_ne _ _ hlk]
    exact hinv.fresh l hl
  · exact hinv.user
  · intro l r' hl
    by_cases hlk : l = k
    · subst hlk
      rw [goto_calls_self] at hl
      exact hinv.async l r' (by rw [hpc]; exact hl)
    · rw [goto_calls_of_ne _ _ hlk] at hl
      exact hinv.async l r' hl
  · intro l c hl
    rw [goto_dev]
    unfold setStartFlag
    simp only
    by_cases hlk : l = k
    · subst hlk
      rw [goto_calls_self] at hl
      obtain rfl := Option.some.inj hl
      exact Function.update_self ..
    · rw [goto_calls_of_ne _ _ hlk] at hl
      have hne : c ≠ index := fun h => hfree l (h ▸ hl)
      rw [Function.update_of_ne hne]
      exact hinv.flagged l c hl
  · intro l m c hl hm
    by_cases hlk : l = k <;> by_cases hmk : m = k
    · rw [hlk, hmk]
    · subst hlk
      rw [goto_calls_self] at hl
      rw [goto_calls_of_ne _ _ hmk] at hm
      obtain rfl := Option.some.inj hl
      exact absurd hm (hfree m)
    · subst hmk
      rw [goto_calls_self] at hm
      rw [goto_calls_of_ne _ _ hlk] at hl
      obtain rfl := Option.some.inj hm
      exact absurd hl (hfree l)
    · rw [goto_calls_of_ne _ _ hlk] at hl
      rw [goto_calls_of_ne _ _ hmk] at hm
      exact hinv.unique l m c hl hm
  · intro l r' c hl
    have hlk : l ≠ k := by
      rintro rfl
      rw [goto_calls_self] at hl
      cases hl
    rw [goto_calls_of_ne _ _ hlk] at hl
    exact hinv.installed l r' c hl
  · exact hinv.running
  · exact hinv.pending

theorem prepare (hinv : Linked s) {k c : ℕ} {pc : Pc} {dev : Device}
    (hchan : (s.calls k).channel? = some c) (hpc : pc.channel? = some c)
    (hrequest : pc.request? = (s.calls k).request?) (huser : ∀ i, (dev.info i).callback ≠ some .sync)
    (hflag : dev.startFlag = s.dev.startFlag) (hrun : dev.running = s.dev.running)
    (hinfo : ∀ i, i ≠ c → dev.info i = s.dev.info i)
    (htc : ∀ i, i ≠ c → dev.intTc i = s.dev.intTc i)
    (herr : ∀ i, i ≠ c → dev.intErr i = s.dev.intErr i)
    (hquiet : Quiet dev c)
    (hslot : ∀ l, Slot s c l → s.dev.running c = some l →
      Slot ({ s with dev := dev }.goto k pc) c l)
    (hinstalled : ∀ r, pc = .installed r c → s.dev.running c = none ∧
      Slot ({ s with dev := dev }.goto k pc) c k) :
    Linked ({ s with dev := dev }.goto k pc) := by
  have hk : k < s.count := by
    by_contra hle
    rw [hinv.fresh k (by omega)] at hchan
    cases hchan
  have hchans : ∀ l i, (({ s with dev := dev }.goto k pc).calls l).channel? = some i →
      (s.calls l).channel? = some i := by
    intro l i hl
    by_cases hlk : l = k
    · subst hlk
      rw [goto_calls_self, hpc] at hl
      rw [hchan, hl]
    · rwa [goto_calls_of_ne _ _ hlk] at hl
  have hquiets : ∀ i, i ≠ c → (Quiet dev i ↔ Quiet s.dev i) := by
    intro i hi
    unfold Quiet
    rw [htc i hi, herr i hi]
  have hslots : ∀ i l, i ≠ c → Slot s i l → Slot ({ s with dev := dev }.goto k pc) i l := by
    rintro i l hi ⟨r, f, hr, htr, hcb⟩
    exact ⟨r, f, hr, htr, (hinfo i hi).trans hcb⟩
  constructor
  · intro l hl
    have hlk : l ≠ k := by
      rintro rfl
      exact absurd hk (Nat.not_lt.mpr hl)
    rw [goto_calls_of_ne _ _ hlk]
    exact hinv.fresh l hl
  · exact huser
  · intro l r hl
    by_cases hlk : l = k
    · subst hlk
      rw [goto_calls_self, hrequest] at hl
      exact hinv.async l r hl
    · rw [goto_calls_of_ne _ _ hlk] at hl
      exact hinv.async l r hl
  · intro l i hl
    rw [goto_dev, hflag]
    exact hinv.flagged l i (hchans l i hl)
  · intro l m i hl hm
    exact hinv.unique l m i (hchans l i hl) (hchans m i hm)
  · intro l r i hl
    by_cases hlk : l = k
    · subst hlk
      rw [goto_calls_self] at hl
      have hic : i = c := by
        rw [hl] at hpc
        exact Option.some.inj hpc
      subst hic
      obtain ⟨h1, h2⟩ := hinstalled r hl
      exact ⟨by rw [goto_dev, hrun, h1], hquiet, h2⟩
    · rw [goto_calls_of_ne _ _ hlk] at hl
      have hic : i ≠ c := by
        rintro rfl
        exact hlk (hinv.unique l k i (by rw [hl]; rfl) hchan)
      obtain ⟨h1, h2, h3⟩ := hinv.installed l r i hl
      exact ⟨by rw [goto_dev, hrun, h1], (hquiets i hic).mpr h2, hslots i l hic h3⟩
  · intro i l hl
    rw [goto_dev, hrun] at hl
    obtain ⟨h1, h2, h3⟩ := hinv.running i l hl
    by_cases hic : i = c
    · subst hic
      exact ⟨h1, hquiet, hslot l h3 hl⟩
    · exact ⟨h1, (hquiets i hic).mpr h2, hslots i l hic h3⟩
  · intro i hi
    have hic : i ≠ c := by
      rintro rfl
      exact hi hquiet
    rw [goto_dev, hquiets i hic] at hi
    obtain ⟨h1, l, h2, h3, h4⟩ := hinv.pending i hi
    exact ⟨by rw [goto_dev, hrun, h1], l, h2, h3, hslots i l hic h4⟩

theorem quiet_of_empty (hinv : Linked s) {c : ℕ} (hcb : (s.dev.info c).callback = none) :
    s.dev.running c = none ∧ Quiet s.dev c := by
  constructor
  · by_contra hne
    obtain ⟨k, hk⟩ := Option.ne_none_iff_exists'.mp hne
    obtain ⟨-, -, r, f, -, -, hinfo⟩ := hinv.running c k hk
    rw [hinfo] at hcb
    cases hcb
  · by_contra hne
    obtain ⟨-, k, -, -, r, f, -, -, hinfo⟩ := hinv.pending c hne
    rw [hinfo] at hcb
    cases hcb

theorem launch (hinv : Linked s) {k c : ℕ} {r : Request} (hpc : s.calls k = .installed r c) :
    Linked ({ s with dev := Dmac.launch s.dev c k }.goto k (launchedPc r c)) := by
  have hk := hinv.lt_count hpc (by simp)
  obtain ⟨hidle, hquiet, hslot⟩ := hinv.installed k r c hpc
  have hnew : (launchedPc r c).channel? = some c ∧ (launchedPc r c).request? = none ∧
      ∀ r' c', launchedPc r c ≠ .installed r' c' := by
    unfold launchedPc
    split <;> exact ⟨rfl, rfl, fun _ _ => by simp⟩
  have hown : (s.calls k).channel? = some c := by
    rw [hpc]
    rfl
  have hchans : ∀ l, (({ s with dev := Dmac.launch s.dev c k }.goto k
      (launchedPc r c)).calls l).channel? = (s.calls l).channel? :=
    goto_channel? (s := { s with dev := Dmac.launch s.dev c k }) (by rw [hnew.1, hown])
  have hother : ∀ l r' i, ({ s with dev := Dmac.launch s.dev c k }.goto k
      (launchedPc r c)).calls l = .installed r' i → l ≠ k ∧ s.calls l = .installed r' i := by
    intro l r' i hl
    have hlk : l ≠ k := by
      rintro rfl
      rw [goto_calls_self] at hl
      exact hnew.2.2 r' i hl
    exact ⟨hlk, by rwa [goto_calls_of_ne _ _ hlk] at hl⟩
  constructor
  · intro l hl
    have hlk : l ≠ k := by
      rintro rfl
      exact absurd hk (Nat.not_lt.mpr hl)
    rw [goto_calls_of_ne _ _ hlk]
    exact hinv.fresh l hl
  · exact hinv.user
  · intro l r' hl
    have hlk : l ≠ k := by
      rintro rfl
      rw [goto_calls_self, hnew.2.1] at hl
      cases hl
    rw [goto_calls_of_ne _ _ hlk] at hl
    exact hinv.async l r' hl
  · intro l i hl
    exact hinv.flagged l i (hchans l ▸ hl)
  · intro l m i hl hm
    exact hinv.unique l m i (hchans l ▸ hl) (hchans m ▸ hm)
  · intro l r' i hl
    obtain ⟨hlk, hl'⟩ := hother l r' i hl
    obtain ⟨h1, h2, h3⟩ := hinv.installed l r' i hl'
    have hic : i ≠ c := by
      rintro rfl
      exact hlk (hinv.unique l k i (by rw [hl']; rfl) hown)
    refine ⟨?_, h2, h3⟩
    rw [goto_dev, ← h1]
    exact Function.update_of_ne hic _ _
  · intro i l hl
    rw [goto_dev] at hl
    unfold Dmac.launch at hl
    simp only at hl
    by_cases hic : i = c
    · subst hic
      rw [Function.update_self] at hl
      obtain rfl := Option.some.inj hl
      exact ⟨hk, hquiet, hslot⟩
    · rw [Function.update_of_ne hic] at hl
      exact hinv.running i l hl
  · intro i hi
    have hic : i ≠ c := by
      rintro rfl
      exact hi hquiet
    obtain ⟨h1, h2⟩ := hinv.pending i hi
    refine ⟨?_, h2⟩
    rw [goto_dev, ← h1]
    exact Function.update_of_ne hic _ _

theorem leave (hinv : Linked s) {k c : ℕ} {ret : ℤ} (hpc : s.calls k = .leaving c ret) :
    Linked ({ s with dev := setStartFlag s.dev c false }.goto k (.returned ret)) := by
  have hown : (s.calls k).channel? = some c := by
    rw [hpc]
    rfl
  refine hinv.goto_frame (hinv.lt_count hpc (by simp)) (fun _ h => by cases h)
    (fun _ h => by cases h) (fun _ _ => by simp) ?_ rfl rfl rfl rfl
  intro l i hl
  have hlk : l ≠ k := by
    rintro rfl
    rw [goto_calls_self] at hl
    cases hl
  rw [goto_calls_of_ne _ _ hlk] at hl
  have hic : i ≠ c := by
    rintro rfl
    exact hlk (hinv.unique l k i hl hown)
  unfold setStartFlag
  simp only
  rw [Function.update_of_ne hic]
  exact hinv.flagged l i hl

theorem finish (hinv : Linked s) {k c : ℕ} {ok : Bool} (hrun : s.dev.running c = some k) :
    Linked { s with
      dev := finishTransfer s.dev c ok
      outcome := Function.update s.outcome k (some ok)
      ended := Function.update s.ended c (some k) } := by
  obtain ⟨hk, -, hslot⟩ := hinv.running c k hrun
  have hquiets : ∀ i, i ≠ c → (Quiet (finishTransfer s.dev c ok) i ↔ Quiet s.dev i) := by
    intro i hi
    unfold Quiet finishTransfer
    cases ok <;> simp [Function.update_of_ne hi]
  have hruns : ∀ i, i ≠ c → (finishTransfer s.dev c ok).running i = s.dev.running i :=
    fun i hi => Function.update_of_ne hi _ _
  constructor
  · exact hinv.fresh
  · exact hinv.user
  · exact hinv.async
  · exact hinv.flagged
  · exact hinv.unique
  · intro l r i hl
    obtain ⟨h1, h2, h3⟩ := hinv.installed l r i hl
    have hic : i ≠ c := by
      rintro rfl
      rw [hrun] at h1
      cases h1
    exact ⟨(hruns i hic).trans h1, (hquiets i hic).mpr h2, h3⟩
  · intro i l hl
    have hic : i ≠ c := by
      rintro rfl
      simp [finishTransfer] at hl
    obtain ⟨h1, h2, h3⟩ := hinv.running i l ((hruns i hic).symm.trans hl)
    exact ⟨h1, (hquiets i hic).mpr h2, h3⟩
  · intro i hi
    by_cases hic : i = c
    · subst hic
      exact ⟨Function.update_self .., k, hk, Function.update_self .., hslot⟩
    · obtain ⟨h1, l, h2, h3, h4⟩ := hinv.pending i (fun h => hi ((hquiets i hic).mpr h))
      exact ⟨(hruns i hic).trans h1, l, h2, (Function.update_of_ne hic _ _).trans h3, h4⟩

theorem interrupt (hinv : Linked s) : Linked { s with dev := bmDmacInterruptHandle s.dev } := by
  -- a quiet channel is left as it is, a pending one loses its callback
  have hquiet : ∀ c, Quiet s.dev c → SameChannel (bmDmacInterruptHandle s.dev) s.dev c := by
    rintro c ⟨htc, herr⟩
    by_cases hc : c < dmacChannelCnt
    · have hsame := interruptHandle_at hinv.slots hc
      rwa [handleChannel_quiet (by rw [htc, herr]; rfl)] at hsame
    · exact interruptHandle_out hinv.slots (Nat.le_of_not_lt hc)
  have hkeep : ∀ c, (bmDmacInterruptHandle s.dev).startFlag c = s.dev.startFlag c ∧
      (bmDmacInterruptHandle s.dev).running c = s.dev.running c ∧
      (Quiet (bmDmacInterruptHandle s.dev) c ∨
        SameChannel (bmDmacInterruptHandle s.dev) s.dev c) ∧
      ((bmDmacInterruptHandle s.dev).info c).callback ≠ some .sync := by
    intro c
    by_cases hc : c < dmacChannelCnt
    · have hsame := interruptHandle_at hinv.slots hc
      by_cases hpend : (s.dev.intTc c || s.dev.intErr c) = true
      · obtain ⟨h1, h2, h3, h4, h5, -⟩ := handleChannel_pending hinv.slots hpend
        refine ⟨hsame.startFlag.trans h1, hsame.running.trans h2,
          Or.inl ⟨hsame.intTc.trans h3, hsame.intErr.trans h4⟩, ?_⟩
        rw [hsame.info, h5]
        simp
      · rw [handleChannel_quiet (Bool.not_eq_true _ ▸ hpend)] at hsame
        exact ⟨hsame.startFlag, hsame.running, Or.inr hsame, by
          rw [hsame.info]
          exact hinv.user c⟩
    · have hsame := interruptHandle_out hinv.slots (Nat.le_of_not_lt hc)
      exact ⟨hsame.startFlag, hsame.running, Or.inr hsame, by
        rw [hsame.info]
        exact hinv.user c⟩
  have hslot : ∀ c k, SameChannel (bmDmacInterruptHandle s.dev) s.dev c → Slot s c k →
      Slot { s with dev := bmDmacInterruptHandle s.dev } c k := by
    rintro c k hsame ⟨r, f, hr, htr, hcb⟩
    exact ⟨r, f, hr, htr, hsame.info.trans hcb⟩
  constructor
  · exact hinv.fresh
  · intro c
    exact (hkeep c).2.2.2
  · exact hinv.async
  · intro l c hl
    exact (hkeep c).1.trans (hinv.flagged l c hl)
  · exact hinv.unique
  · intro l r c hl
    obtain ⟨h1, h2, h3⟩ := hinv.installed l r c hl
    have hsame := hquiet c h2
    exact ⟨hsame.running.trans h1, ⟨hsame.intTc.trans h2.1, hsame.intErr.trans h2.2⟩,
      hslot c l hsame h3⟩
  · intro c l hl
    obtain ⟨h1, h2, h3⟩ := hinv.running c l ((hkeep c).2.1.symm.trans hl)
    have hsame := hquiet c h2
    exact ⟨h1, ⟨hsame.intTc.trans h2.1, hsame.intErr.trans h2.2⟩, hslot c l hsame h3⟩
  · intro c hc
    rcases (hkeep c).2.2.1 with hq | hsame
    · exact absurd hq hc
    · have hnot : ¬ Quiet s.dev c := fun h =>
        hc ⟨hsame.intTc.trans h.1, hsame.intErr.trans h.2⟩
      obtain ⟨h1, l, h2, h3, h4⟩ := hinv.pending c hnot
      exact ⟨hsame.running.trans h1, l, h2, h3, hslot c l hsame h4⟩

theorem move {B : Board} {a : Label} (hinv : Linked s)
    (hasync : ∀ r enabled, a = .enter r enabled → ∃ callback, r.transmit = .async callback)
    (hmove : Move B s a t) : Linked t := by
  cases hmove with
  | @enter r enabled pc hpc => exact hinv.enter (hasync r enabled rfl) hpc
  | semTimeout hpc =>
    exact hinv.goto_same (hinv.lt_count hpc (by simp)) (fun _ h => by cases h)
      (fun _ h => by cases h) (fun _ _ => by simp)
  | lock hpc =>
    exact hinv.goto_same (hinv.lt_count hpc (by simp)) (by rw [hpc]; exact fun _ h => h)
      (fun _ h => by cases h) (fun _ _ => by simp)
  | exhausted hpc =>
    exact hinv.goto_same (hinv.lt_count hpc (by simp)) (fun _ h => by cases h)
      (fun _ h => by cases h) (fun _ _ => by simp)
  | skip hpc =>
    exact hinv.goto_same (hinv.lt_count hpc (by simp)) (by rw [hpc]; exact fun _ h => h)
      (fun _ h => by cases h) (fun _ _ => by simp)
  | take hpc _ _ hflag _ => exact hinv.take hpc hflag
  | @clean k r c hpc =>
    refine hinv.prepare (c := c) (by rw [hpc]; rfl) rfl (by rw [hpc]; rfl) hinv.user rfl rfl
      (fun _ _ => rfl) ?_ ?_ ⟨Function.update_self .., Function.update_self ..⟩
      (fun _ h _ => h) (fun _ h => by cases h)
    · intro i hi
      exact Function.update_of_ne hi _ _
    · intro i hi
      exact Function.update_of_ne hi _ _
  | @installSync k r c timeWait hpc htr =>
    obtain ⟨-, f, htr'⟩ := hinv.async k r (by rw [hpc]; rfl)
    rw [htr] at htr'
    cases htr'
  | refuse hpc htr hcb =>
    exact hinv.goto_same (hinv.lt_count hpc (by simp)) (fun _ h => by cases h)
      (fun _ h => by cases h) (fun _ _ => by simp)
  | @installAsync k r c callback hpc htr hcb =>
    obtain ⟨hr, f, htr'⟩ := hinv.async k r (by rw [hpc]; rfl)
    obtain rfl : callback = some f := by
      rw [htr] at htr'
      exact Transmit.async.inj htr'
    obtain ⟨hidle, hquiet⟩ := hinv.quiet_of_empty hcb
    refine hinv.prepare (c := c) (by rw [hpc]; rfl) rfl (by rw [hpc]; rfl) ?_ rfl rfl ?_
      (fun _ _ => rfl) (fun _ _ => rfl) hquiet ?_ ?_
    · intro i
      by_cases hic : i = c
      · subst hic
        simp [setInfo]
      · simp only [setInfo, Function.update_of_ne hic]
        exact hinv.user i
    · intro i hi
      exact Function.update_of_ne hi _ _
    · intro l _ hrun
      rw [hidle] at hrun
      cases hrun
    · intro r' hr'
      exact ⟨hidle, r, f, hr, htr, Function.update_self ..⟩
  | launch hpc => exact hinv.launch hpc
  | @complete k c count hpc hflag =>
    refine hinv.goto_frame (e := clearComplete s.dev c) (o := s.sem)
      (hinv.lt_count hpc (by simp)) (fun _ h => by cases h) (by rw [hpc]; exact fun _ h => h)
      (fun _ _ => by simp) ?_ rfl rfl rfl rfl
    intro l i hl
    refine hinv.flagged l i ?_
    rwa [goto_channel? (s := { s with dev := clearComplete s.dev c }) (by rw [hpc]; rfl)] at hl
  | timeout hpc =>
    exact hinv.goto_same (hinv.lt_count hpc (by simp)) (fun _ h => by cases h)
      (by rw [hpc]; exact fun _ h => h) (fun _ _ => by simp)
  | poll hpc =>
    exact hinv.goto_same (hinv.lt_count hpc (by simp)) (fun _ h => by cases h)
      (by rw [hpc]; exact fun _ h => h) (fun _ _ => by simp)
  | leave hpc => exact hinv.leave hpc
  | finish hrun => exact hinv.finish hrun
  | interrupt => exact hinv.interrupt

end Linked

theorem linked_start : Linked start := by
  constructor
  · intro k _
    rfl
  · intro c hc
    cases hc
  · intro k r hk
    cases hk
  · intro k c hk
    cases hk
  · intro k l c hk
    cases hk
  · intro k r c hk
    cases hk
  · intro c k hk
    cases hk
  · intro c hc
    exact absurd ⟨rfl, rfl⟩ hc

/-! ## What the bits of a channel tell -/

/-- The call has not started its channel yet. -/
def Pc.early : Pc → Bool
  | .waiting _ _ => false
  | .leaving _ _ => false
  | .returned _ => false
  | _ => true

theorem early_of_update {calls : ℕ → Pc} {k l : ℕ} {pc : Pc}
    (hpc : pc.early = true → (calls k).early = true)
    (hl : (Function.update calls k pc l).early = true) : (calls l).early = true := by
  by_cases hlk : l = k
  · subst hlk
    rw [Function.update_self] at hl
    exact hpc hl
  · rwa [Function.update_of_ne hlk] at hl

/-- A pending interrupt tells the outcome of the transfer that ended on its channel. -/
structure Told (s : State) : Prop where
  early : ∀ k, (s.calls k).early = true → s.outcome k = none ∧ ∀ c, s.dev.running c ≠ some k
  running : ∀ c k, s.dev.running c = some k →
    s.outcome k = none ∧ ∀ i, s.dev.running i = some k → i = c
  pending : ∀ c k, ¬Quiet s.dev c → s.ended c = some k →
    s.outcome k = some (s.dev.intTc c) ∧ s.dev.intErr c = !s.dev.intTc c

namespace Told

variable {B : Board} {s t : State} {a : Label}

theorem frame (htold : Told s)
    (hcalls : ∀ k, (t.calls k).early = true → (s.calls k).early = true)
    (hrunning : t.dev.running = s.dev.running) (houtcome : t.outcome = s.outcome)
    (hended : t.ended = s.ended)
    (hbits : ∀ c, Quiet t.dev c ∨
      t.dev.intTc c = s.dev.intTc c ∧ t.dev.intErr c = s.dev.intErr c) : Told t := by
  refine ⟨?_, ?_, ?_⟩
  · intro k hk
    rw [houtcome, hrunning]
    exact htold.early k (hcalls k hk)
  · rw [houtcome, hrunning]
    exact htold.running
  · intro c k hpend hk
    rcases hbits c with hquiet | ⟨htc, herr⟩
    · exact absurd hquiet hpend
    · have hold : ¬Quiet s.dev c := fun h => hpend ⟨htc.trans h.1, herr.trans h.2⟩
      rw [houtcome, htc, herr]
      exact htold.pending c k hold (hended ▸ hk)

theorem launch (htold : Told s) {k c : ℕ} {r : Request} (hpc : s.calls k = .installed r c) :
    Told ({ s with dev := Dmac.launch s.dev c k }.goto k (launchedPc r c)) := by
  have hlate : (launchedPc r c).early = false := by
    unfold launchedPc
    split <;> rfl
  obtain ⟨hnone, hidle⟩ := htold.early k (by rw [hpc]; rfl)
  have hrun : ∀ i l, (Dmac.launch s.dev c k).running i = some l →
      (i = c ∧ l = k) ∨ (i ≠ c ∧ s.dev.running i = some l) := by
    intro i l hl
    unfold Dmac.launch at hl
    by_cases hi : i = c
    · subst hi
      simp only [Function.update_self, Option.some.injEq] at hl
      exact Or.inl ⟨rfl, hl.symm⟩
    · simp only [Function.update_of_ne hi] at hl
      exact Or.inr ⟨hi, hl⟩
  refine ⟨?_, ?_, htold.pending⟩
  · intro l hl
    have hlk : l ≠ k := by
      rintro rfl
      rw [goto_calls_self, hlate] at hl
      cases hl
    rw [goto_calls_of_ne _ _ hlk] at hl
    obtain ⟨h1, h2⟩ := htold.early l hl
    refine ⟨h1, fun i hi => ?_⟩
    rcases hrun i l hi with ⟨-, h⟩ | ⟨-, h⟩
    · exact hlk h
    · exact h2 i h
  · intro i l hi
    rcases hrun i l hi with ⟨rfl, rfl⟩ | ⟨hic, hl⟩
    · refine ⟨hnone, fun j hj => ?_⟩
      rcases hrun j l hj with ⟨h, -⟩ | ⟨-, h⟩
      · exact h
      · exact absurd h (hidle j)
    · refine ⟨(htold.running i l hl).1, fun j hj => ?_⟩
      rcases hrun j l hj with ⟨-, rfl⟩ | ⟨-, h⟩
      · exact absurd hl (hidle i)
      · exact (htold.running i l hl).2 j h

theorem finish (htold : Told s) (hinv : Linked s) {k c : ℕ} {ok : Bool}
    (hrun : s.dev.running c = some k) :
    Told { s with
      dev := finishTransfer s.dev c ok
      outcome := Function.update s.outcome k (some ok)
      ended := Function.update s.ended c (some k) } := by
  obtain ⟨-, ⟨htc, herr⟩, -⟩ := hinv.running c k hrun
  obtain ⟨hnone, honly⟩ := htold.running c k hrun
  have hother : ∀ i l, (finishTransfer s.dev c ok).running i = some l →
      l ≠ k ∧ s.dev.running i = some l := by
    intro i l hl
    unfold finishTransfer at hl
    by_cases hi : i = c
    · subst hi
      simp at hl
    · simp only [Function.update_of_ne hi] at hl
      refine ⟨?_, hl⟩
      rintro rfl
      exact hi (honly i hl)
  refine ⟨?_, ?_, ?_⟩
  · intro l hl
    obtain ⟨h1, h2⟩ := htold.early l hl
    have hlk : l ≠ k := by
      rintro rfl
      exact h2 c hrun
    exact ⟨(Function.update_of_ne hlk _ _).trans h1, fun i hi => h2 i (hother i l hi).2⟩
  · intro i l hl
    obtain ⟨hlk, hl⟩ := hother i l hl
    obtain ⟨h1, h2⟩ := htold.running i l hl
    exact ⟨(Function.update_of_ne hlk _ _).trans h1, fun j hj => h2 j (hother j l hj).2⟩
  · intro i l hpend hl
    simp only at hl ⊢
    by_cases hi : i = c
    · subst hi
      rw [Function.update_self] at hl
      obtain rfl := Option.some.inj hl
      rw [Function.update_self]
      cases ok <;> simp [finishTransfer, htc, herr]
    · rw [Function.update_of_ne hi] at hl
      have hbits : (finishTransfer s.dev c ok).intTc i = s.dev.intTc i ∧
          (finishTransfer s.dev c ok).intErr i = s.dev.intErr i := by
        unfold finishTransfer
        cases ok <;> simp [Function.update_of_ne hi]
      have hold : ¬Quiet s.dev i := fun h => hpend ⟨hbits.1.trans h.1, hbits.2.trans h.2⟩
      obtain ⟨h1, h2⟩ := htold.pending i l hold hl
      have hlk : l ≠ k := by
        rintro rfl
        rw [hnone] at h1
        cases h1
      rw [Function.update_of_ne hlk, hbits.1, hbits.2]
      exact ⟨h1, h2⟩

theorem interrupt (htold : Told s) (hinv : Linked s) :
    Told { s with dev := bmDmacInterruptHandle s.dev } := by
  have hkeep : ∀ c, (bmDmacInterruptHandle s.dev).running c = s.dev.running c ∧
      (Quiet (bmDmacInterruptHandle s.dev) c ∨
        (bmDmacInterruptHandle s.dev).intTc c = s.dev.intTc c ∧
          (bmDmacInterruptHandle s.dev).intErr c = s.dev.intErr c) := by
    intro c
    by_cases hc : c < dmacChannelCnt
    · have hsame := interruptHandle_at hinv.slots hc
      by_cases hpend : (s.dev.intTc c || s.dev.intErr c) = true
      · obtain ⟨-, h1, h2, h3, -⟩ := handleChannel_pending hinv.slots hpend
        exact ⟨hsame.running.trans h1, Or.inl ⟨hsame.intTc.trans h2, hsame.intErr.trans h3⟩⟩
      · rw [handleChannel_quiet (Bool.not_eq_true _ ▸ hpend)] at hsame
        exact ⟨hsame.running, Or.inr ⟨hsame.intTc, hsame.intErr⟩⟩
    · have hsame := interruptHandle_out hinv.slots (Nat.le_of_not_lt hc)
      exact ⟨hsame.running, Or.inr ⟨hsame.intTc, hsame.intErr⟩⟩
  exact htold.frame (fun _ h => h) (funext fun c => (hkeep c).1) rfl rfl fun c => (hkeep c).2

theorem move (htold : Told s) (hinv : Linked s) (hmove : Move B s a t) : Told t := by
  cases hmove with
  | enter hpc =>
    refine htold.frame (fun _ h => early_of_update (fun _ => ?_) h) rfl rfl rfl
      (fun _ => Or.inr ⟨rfl, rfl⟩)
    rw [hinv.fresh s.count le_rfl]
    rfl
  | @clean k r c hpc =>
    refine htold.frame (fun _ h => early_of_update (fun _ => by rw [hpc]; rfl) h) rfl rfl rfl ?_
    intro i
    by_cases hi : i = c
    · subst hi
      exact Or.inl ⟨Function.update_self .., Function.update_self ..⟩
    · exact Or.inr ⟨Function.update_of_ne hi _ _, Function.update_of_ne hi _ _⟩
  | launch hpc => exact htold.launch hpc
  | finish hrun => exact htold.finish hinv hrun
  | interrupt => exact htold.interrupt hinv
  | lock hpc | skip hpc | take hpc | installSync hpc | installAsync hpc =>
    exact htold.frame (fun _ h => early_of_update (fun _ => by rw [hpc]; rfl) h) rfl rfl rfl
      (fun _ => Or.inr ⟨rfl, rfl⟩)
  | semTimeout _ | exhausted _ | refuse _ | complete _ | timeout _ | poll _ | leave _ =>
    exact htold.frame (fun _ h => early_of_update (fun h => by cases h) h) rfl rfl rfl
      (fun _ => Or.inr ⟨rfl, rfl⟩)

end Told

theorem told_start : Told start := by
  refine ⟨?_, ?_, ?_⟩
  · intro k _
    refine ⟨rfl, fun c h => ?_⟩
    cases h
  · intro c k h
    cases h
  · intro c k hpend
    exact absurd ⟨rfl, rfl⟩ hpend

end HiMpu.Dmac
