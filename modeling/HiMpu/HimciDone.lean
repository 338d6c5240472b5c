import HiMpu.TransitionSystem

/-!
# The data-done interrupt of the eMMC and SD host

Requests and `hisd_irq` of `drivers/sdio/himci.c`, statement by statement.  The
handler turns the latched data-done bit into the pending bit that
`hi_mci_wait_data_complete` waits for; neither bit says which request it stands
for.  The pending bit is cleared after the wait, the latched bit at the end of a
request, and nothing clears the pending bit before a command is written.
-/

namespace HiMpu.HimciDone

inductive Pc
  | card
  | setupData
  | fifoReset
  | fifoIntClr
  | execCmd
  | waitCmd
  | waitEvent
  | retest
  | clearPending (done : Bool)
  | dataDone (done : Bool)
  | intClr
  | finish
  deriving DecidableEq

structure Call where
  mrq : ℕ
  data : Bool
  pc : Pc
  deriving DecidableEq

/-- The request that holds `m_lock`, the handler between its reads and its
writes with the bit it has read, and for each bit the requests it stands for. -/
structure State where
  call : Option Call
  next : ℕ
  pending : Bool
  started : List ℕ
  /-- The transfers whose end is in the latched bit; it is set when there is one. -/
  latched : List ℕ
  /-- The transfers whose end `hisd_irq` has handled. -/
  handled : List ℕ
  irq : Option Bool

inductive Action
  | request (data : Bool)
  | run (ok : Bool)
  | dataOver (mrq : ℕ)
  | irqRead (a55Locked : Bool)
  | irqWrite

def State.goto (s : State) (c : Call) (pc : Pc) : State :=
  { s with call := some { c with pc := pc } }

def stmt (s : State) (c : Call) (ok : Bool) : Pc → Option State
  | .card =>
    if !ok then some (s.goto c .finish)
    else some (s.goto c (if c.data then .setupData else .execCmd))
  | .setupData => some (s.goto c (if ok then .fifoReset else .finish))
  | .fifoReset => some (s.goto c (if ok then .execCmd else .fifoIntClr))
  | .fifoIntClr =>
    if s.irq = none then some ({ s with latched := [] }.goto c .finish) else none
  | .execCmd =>
    some ({ s with started := if c.data then c.mrq :: s.started else s.started }.goto c .waitCmd)
  | .waitCmd => some (s.goto c (if ok && c.data then .waitEvent else .intClr))
  | .waitEvent =>
    if s.pending then some (s.goto c (.clearPending true))
    else if ok then none
    else some (s.goto c .retest)
  | .retest => some (s.goto c (.clearPending s.pending))
  | .clearPending done =>
    if s.irq = none then some ({ s with pending := false }.goto c (.dataDone done)) else none
  | .dataDone _ => some (s.goto c .intClr)
  | .intClr => if s.irq = none then some ({ s with latched := [] }.goto c .finish) else none
  | .finish => some { s with call := none }

/-- The first half of `hisd_irq`: for eMMC another core may hold the hardware lock. -/
def irqRead (emmc a55Locked : Bool) (s : State) : Option State :=
  match s.irq with
  | some _ => none
  | none => if emmc && !a55Locked then some s else some { s with irq := some (s.latched ≠ []) }

/-- The second half: the bits that were read are cleared in RINTSTS. -/
def irqWrite (s : State) : Option State :=
  match s.irq with
  | none => none
  | some false => some { s with irq := none }
  | some true =>
    some { s with
      irq := none
      pending := true
      handled := s.latched ++ s.handled
      latched := [] }

def next (emmc : Bool) (s : State) : Action → Option State
  | .request data =>
    match s.call with
    | none => some { s with call := some ⟨s.next, data, .card⟩, next := s.next + 1 }
    | some _ => none
  | .run ok => s.call.bind fun c => stmt s c ok c.pc
  | .dataOver mrq =>
    if mrq ∈ s.started then
      some { s with started := s.started.erase mrq, latched := mrq :: s.latched }
    else none
  | .irqRead a55Locked => irqRead emmc a55Locked s
  | .irqWrite => irqWrite s

def probed : State where
  call := none
  next := 0
  pending := false
  started := []
  latched := []
  handled := []
  irq := none

def host (emmc : Bool) : TransitionSystem State Action :=
  TransitionSystem.ofStep (· = probed) (next emmc)

def Pc.treatsAsDone : Pc → Bool
  | .clearPending done | .dataDone done => done
  | _ => false

def Attributed (s : State) : Prop :=
  ∀ c, s.call = some c → c.pc.treatsAsDone = true → c.mrq ∈ s.handled

def Pc.inWait : Pc → Bool
  | .waitCmd | .waitEvent | .retest => true
  | _ => false

def Timely (s : State) : Action → Prop
  | .run _ => ∀ c, s.call = some c → c.data = true → c.pc = .execCmd →
      s.pending = false ∧ s.latched = []
  | .dataOver mrq => ∀ c, s.call = some c → c.data = true → c.pc.inWait = true → c.mrq = mrq
  | _ => True

def Pc.looks : Pc → Bool
  | .waitEvent | .retest => true
  | _ => false

structure Effect (s s' : State) (c : Call) : Prop where
  irq : s'.irq = s.irq
  handled : s'.handled = s.handled
  latched : s'.latched = s.latched ∨ s'.latched = [] ∧ s.irq = none
  call : ∀ c', s'.call = some c' → c' = { c with pc := c'.pc }
  waits : ∀ c', s'.call = some c' → c'.pc.inWait = true →
    (c.pc.inWait = true ∨ c.pc = .execCmd) ∧ s'.pending = s.pending
  looks : ∀ c', s'.call = some c' → c'.pc.looks = true → c.data = true ∨ c.pc.looks = true
  decides : ∀ c', s'.call = some c' → c'.pc.treatsAsDone = true →
    c.pc.treatsAsDone = true ∨ c.pc.looks = true ∧ s.pending = true

section Effects

variable {s s' t : State} {c : Call} {ok : Bool} {pc : Pc}

theorem Effect.goto (hirq : t.irq = s.irq) (hhandled : t.handled = s.handled)
    (hlatched : t.latched = s.latched ∨ t.latched = [] ∧ s.irq = none)
    (hwaits : pc.inWait = true →
      (c.pc.inWait = true ∨ c.pc = .execCmd) ∧ t.pending = s.pending)
    (hlooks : pc.looks = true → c.data = true ∨ c.pc.looks = true)
    (hdecides : pc.treatsAsDone = true →
      c.pc.treatsAsDone = true ∨ c.pc.looks = true ∧ s.pending = true) :
    Effect s (t.goto c pc) c := by
  have hcall : ∀ c', (t.goto c pc).call = some c' → c' = { c with pc := pc } := by
    intro c' h
    exact (Option.some.inj h).symm
  refine ⟨hirq, hhandled, hlatched, ?_, ?_, ?_, ?_⟩
  · intro c' h
    rw [hcall c' h]
  · intro c' h
    rw [hcall c' h]
    exact hwaits
  · intro c' h
    rw [hcall c' h]
    exact hlooks
  · intro c' h
    rw [hcall c' h]
    exact hdecides

theorem Effect.pass (hirq : t.irq = s.irq) (hhandled : t.handled = s.handled)
    (hlatched : t.latched = s.latched ∨ t.latched = [] ∧ s.irq = none)
    (hwaits : pc.inWait = false) (hlooks : pc.looks = false) (hdecides : pc.treatsAsDone = false) :
    Effect s (t.goto c pc) c := by
  refine Effect.goto hirq hhandled hlatched ?_ ?_ ?_
  · simp [hwaits]
  · simp [hlooks]
  · simp [hdecides]

theorem stmt_effect (hstep : stmt s c ok c.pc = some s') : Effect s s' c := by
  cases hpc : c.pc with
  | card =>
    simp only [hpc, stmt] at hstep
    split at hstep
    · cases hstep
      exact Effect.pass rfl rfl (Or.inl rfl) rfl rfl rfl
    · cases hstep
      cases c.data with
      | false => exact Effect.pass rfl rfl (Or.inl rfl) rfl rfl rfl
      | true => exact Effect.pass rfl rfl (Or.inl rfl) rfl rfl rfl
  | setupData | fifoReset =>
    rw [hpc] at hstep
    cases hstep
    cases ok with
    | false => exact Effect.pass rfl rfl (Or.inl rfl) rfl rfl rfl
    | true => exact Effect.pass rfl rfl (Or.inl rfl) rfl rfl rfl
  | fifoIntClr | intClr =>
    simp only [hpc, stmt] at hstep
    split at hstep
    next hidle =>
      cases hstep
      exact Effect.pass rfl rfl (Or.inr ⟨rfl, hidle⟩) rfl rfl rfl
    · cases hstep
  | execCmd =>
    rw [hpc] at hstep
    cases hstep
    exact Effect.goto rfl rfl (Or.inl rfl) (fun _ => ⟨Or.inr hpc, rfl⟩) nofun nofun
  | waitCmd =>
    have hwait : c.pc.inWait = true := by
      rw [hpc]
      rfl
    rw [hpc] at hstep
    cases hstep
    refine Effect.goto rfl rfl (Or.inl rfl) (fun _ => ⟨Or.inl hwait, rfl⟩) ?_ ?_
    · cases ok with
      | false => exact nofun
      | true =>
        cases hdata : c.data with
        | false => exact nofun
        | true => exact fun _ => Or.inl rfl
    · split
      · exact nofun
      · exact nofun
  | waitEvent =>
    have hlooks : c.pc.looks = true := by
      rw [hpc]
      rfl
    have hwait : c.pc.inWait = true := by
      rw [hpc]
      rfl
    simp only [hpc, stmt] at hstep
    split at hstep
    next hpending =>
      cases hstep
      exact Effect.goto rfl rfl (Or.inl rfl) nofun nofun fun _ => Or.inr ⟨hlooks, hpending⟩
    · split at hstep
      · cases hstep
      · cases hstep
        exact Effect.goto rfl rfl (Or.inl rfl) (fun _ => ⟨Or.inl hwait, rfl⟩)
          (fun _ => Or.inr hlooks) nofun
  | retest =>
    have hlooks : c.pc.looks = true := by
      rw [hpc]
      rfl
    rw [hpc] at hstep
    cases hstep
    refine Effect.goto rfl rfl (Or.inl rfl) nofun nofun ?_
    cases hpending : s.pending with
    | false => exact nofun
    | true => exact fun _ => Or.inr ⟨hlooks, rfl⟩
  | clearPending done =>
    simp only [hpc, stmt] at hstep
    split at hstep
    · cases hstep
      refine Effect.goto rfl rfl (Or.inl rfl) nofun nofun fun hdone => Or.inl ?_
      rw [hpc]
      exact hdone
    · cases hstep
  | dataDone done =>
    rw [hpc] at hstep
    cases hstep
    exact Effect.pass rfl rfl (Or.inl rfl) rfl rfl rfl
  | finish =>
    rw [hpc] at hstep
    cases hstep
    exact ⟨rfl, rfl, Or.inl rfl, nofun, nofun, nofun, nofun⟩

end Effects

structure Inv (s : State) : Prop where
  read : s.irq = some true → s.latched ≠ []
  latched : ∀ c, s.call = some c → c.data = true → c.pc.inWait = true →
    ∀ mrq ∈ s.latched, mrq = c.mrq
  pending : ∀ c, s.call = some c → c.data = true → c.pc.inWait = true → s.pending = true →
    c.mrq ∈ s.handled
  looks : ∀ c, s.call = some c → c.pc.looks = true → c.data = true
  attributed : Attributed s

section Invariant

variable {s s' : State} {c : Call} {emmc ok : Bool}

theorem probed_inv : Inv probed := by
  constructor <;> simp [probed, Attributed]

theorem Pc.inWait_of_looks {pc : Pc} (h : pc.looks = true) : pc.inWait = true := by
  cases pc <;> simp_all [Pc.looks, Pc.inWait]

theorem Inv.run (hinv : Inv s) (hcall : s.call = some c) (htimely : Timely s (.run ok))
    (hstep : stmt s c ok c.pc = some s') : Inv s' := by
  have heffect := stmt_effect hstep
  have hwrite := htimely c hcall
  have hcalls : ∀ c', s'.call = some c' → c'.mrq = c.mrq ∧ c'.data = c.data := by
    intro c' hc'
    rw [heffect.call c' hc']
    exact ⟨rfl, rfl⟩
  constructor
  case read =>
    intro hirq
    rw [heffect.irq] at hirq
    cases heffect.latched with
    | inl hsame =>
      rw [hsame]
      exact hinv.read hirq
    | inr hclear => simp [hclear.2] at hirq
  case latched =>
    intro c' hc' hdata hwait mrq hmem
    obtain ⟨hmrq, hdata'⟩ := hcalls c' hc'
    rw [hdata'] at hdata
    rw [hmrq]
    have hold : mrq ∈ s.latched := by
      cases heffect.latched with
      | inl hsame => rwa [hsame] at hmem
      | inr hclear => simp [hclear.1] at hmem
    cases (heffect.waits c' hc' hwait).1 with
    | inl hwaited => exact hinv.latched c hcall hdata hwaited mrq hold
    | inr hexec => simp [(hwrite hdata hexec).2] at hold
  case pending =>
    intro c' hc' hdata hwait hpending
    obtain ⟨hmrq, hdata'⟩ := hcalls c' hc'
    obtain ⟨hbefore, hsame⟩ := heffect.waits c' hc' hwait
    rw [hdata'] at hdata
    rw [hsame] at hpending
    rw [hmrq, heffect.handled]
    cases hbefore with
    | inl hwaited => exact hinv.pending c hcall hdata hwaited hpending
    | inr hexec => simp [(hwrite hdata hexec).1] at hpending
  case looks =>
    intro c' hc' hlooks
    rw [(hcalls c' hc').2]
    exact (heffect.looks c' hc' hlooks).elim id (hinv.looks c hcall)
  case attributed =>
    intro c' hc' hdone
    rw [(hcalls c' hc').1, heffect.handled]
    cases heffect.decides c' hc' hdone with
    | inl hbefore => exact hinv.attributed c hcall hbefore
    | inr hlook =>
      exact hinv.pending c hcall (hinv.looks c hcall hlook.1) (Pc.inWait_of_looks hlook.1)
        hlook.2

theorem Inv.request (hinv : Inv s) (data : Bool) :
    Inv { s with call := some ⟨s.next, data, .card⟩, next := s.next + 1 } := by
  constructor
  case read => exact hinv.read
  all_goals simp [Attributed, Pc.inWait, Pc.looks, Pc.treatsAsDone]

theorem Inv.dataOver {mrq : ℕ} (hinv : Inv s) (htimely : Timely s (.dataOver mrq)) :
    Inv { s with started := s.started.erase mrq, latched := mrq :: s.latched } where
  read := fun _ => List.cons_ne_nil _ _
  latched := by
    intro c hcall hdata hwait other hmem
    cases List.mem_cons.mp hmem with
    | inl hnew => rw [hnew, htimely c hcall hdata hwait]
    | inr hold => exact hinv.latched c hcall hdata hwait other hold
  pending := hinv.pending
  looks := hinv.looks
  attributed := hinv.attributed

theorem Inv.irqRead {a55Locked : Bool} (hinv : Inv s)
    (hstep : irqRead emmc a55Locked s = some s') : Inv s' := by
  unfold HimciDone.irqRead at hstep
  split at hstep
  next => cases hstep
  next =>
    split at hstep
    next =>
      cases hstep
      exact hinv
    next =>
      cases hstep
      exact { hinv with read := fun h => by simpa using h }

theorem Inv.irqWrite (hinv : Inv s) (hstep : irqWrite s = some s') : Inv s' := by
  unfold HimciDone.irqWrite at hstep
  split at hstep
  next => cases hstep
  next =>
    cases hstep
    exact { hinv with read := fun h => by cases h }
  next hirq =>
    cases hstep
    constructor
    case read => exact fun h => by cases h
    case latched => exact fun _ _ _ _ _ hmem => by cases hmem
    case pending =>
      intro c hcall hdata hwait _
      obtain ⟨mrq, hmem⟩ := List.exists_mem_of_ne_nil _ (hinv.read hirq)
      rw [hinv.latched c hcall hdata hwait mrq hmem] at hmem
      exact List.mem_append_left _ hmem
    case looks => exact hinv.looks
    case attributed =>
      exact fun c hcall hdone => List.mem_append_right _ (hinv.attributed c hcall hdone)

theorem Inv.next {a : Action} (hinv : Inv s) (htimely : Timely s a)
    (hstep : next emmc s a = some s') : Inv s' := by
  cases a with
  | request data =>
    simp only [HimciDone.next] at hstep
    split at hstep
    next =>
      cases hstep
      exact hinv.request data
    next => cases hstep
  | run ok =>
    obtain ⟨c, hcall, hstmt⟩ := Option.bind_eq_some_iff.mp hstep
    exact hinv.run hcall htimely hstmt
  | dataOver mrq =>
    simp only [HimciDone.next] at hstep
    split at hstep
    next =>
      cases hstep
      exact hinv.dataOver htimely
    next => cases hstep
  | irqRead a55Locked => exact hinv.irqRead hstep
  | irqWrite => exact hinv.irqWrite hstep

theorem completions_attributed (emmc : Bool) (s : State)
    (hreach : ((host emmc).restrict Timely).Reachable s) : Attributed s := by
  have hinv : Inv s := by
    refine hreach.invariant ?_ ?_
    · intro s hinit
      cases hinit
      exact probed_inv
    · exact fun _ _ _ _ hinv hstep => hinv.next hstep.1 hstep.2
  exact hinv.attributed

end Invariant

def untilWait : List Action :=
  .request true :: List.replicate 5 (.run true)

def hisdIrq : List Action :=
  [.irqRead true, .irqWrite]

instance (s : State) (a : Action) : Decidable (Timely s a) :=
  match a with
  | .run _ =>
    decidable_of_iff (∀ c ∈ s.call, c.data = true → c.pc = .execCmd →
      s.pending = false ∧ s.latched = []) Iff.rfl
  | .dataOver mrq =>
    decidable_of_iff (∀ c ∈ s.call, c.data = true → c.pc.inWait = true → c.mrq = mrq) Iff.rfl
  | .request _ | .irqRead _ | .irqWrite => isTrue trivial

def timelyRun : List Action :=
  List.flatten [untilWait, [.dataOver 0], hisdIrq, [.run true]]

def afterTimely : State :=
  (TransitionSystem.runSteps (TransitionSystem.guarded Timely (next true)) probed timelyRun).get
    (by decide +kernel)

theorem completions_attributed_timely :
    Attributed afterTimely ∧ afterTimely.call = some ⟨0, true, .clearPending true⟩ := by
  have hstart : ((host true).restrict Timely).Reachable probed :=
    TransitionSystem.Reachable.init rfl
  refine ⟨completions_attributed true afterTimely ?_, by decide +kernel⟩
  exact hstart.runGuarded (l := timelyRun) (Option.some_get _).symm

def lateRun : List Action :=
  List.flatten [untilWait, List.replicate 6 (.run false),
    .request true :: List.replicate 3 (.run true), [.dataOver 0], hisdIrq,
    List.replicate 3 (.run true)]

def afterLate : State :=
  (TransitionSystem.runSteps (next true) probed lateRun).get (by decide +kernel)

/-- The second request is done with the data of the first. -/
theorem late_completion_taken : (host true).Reachable afterLate ∧ ¬ Attributed afterLate := by
  have hstart : (host true).Reachable probed := TransitionSystem.Reachable.init rfl
  refine ⟨hstart.runSteps (l := lateRun) (Option.some_get _).symm, fun hattr => ?_⟩
  have hmem : 1 ∈ afterLate.handled :=
    hattr ⟨1, true, .clearPending true⟩ (by decide +kernel) (by decide)
  revert hmem
  decide +kernel

end HiMpu.HimciDone
