import HiMpu.TransitionSystem

/-!
# The holder of a hardware timer

`hitimer_request`, `hitimer_release` and the registration of an interrupt
handler of `drivers/timer`, for one initialised timer.  Who holds the timer is
decided under its lock, by the name of the module; the private data and the
interrupt handler are written after the lock is dropped.
-/

namespace HiMpu.HiTimer

def moduleNameLen : ℕ := 56
def ebusy : ℤ := 16
def eperm : ℤ := 1

abbrev CString := List {c : UInt8 // c ≠ 0}

/-- `strncpy_s` leaves the copied part, or nothing where it does not fit. -/
def strncpyS (destMax : ℕ) (src : CString) (count : ℕ) : CString :=
  if (src.take count).length < destMax then src.take count else []

def strncmp : CString → CString → ℕ → ℤ
  | _, _, 0 => 0
  | [], [], _ + 1 => 0
  | [], b :: _, _ + 1 => -b.1.toNat
  | a :: _, [], _ + 1 => a.1.toNat
  | a :: as, b :: bs, n + 1 => if a = b then strncmp as bs n else a.1.toNat - b.1.toNat

/-- The next statement of a call; `regStore` is that of
`hitimer_register_irq_handler`. -/
inductive Pc
  | reqReference (privData : ℕ)
  | reqSetPriv (privData : ℕ)
  | relUnreference
  | relUnregister
  | relSetPriv
  | regStore (handler : ℕ)
  deriving DecidableEq

/- `κ` are the contexts that call the driver, each on behalf of a module of `ι`. -/
variable {κ ι : Type*} [DecidableEq κ] [DecidableEq ι]

/-- `struct hisi_timer`, the calls in progress, the modules with a successful
request that they have not released, and the handlers that were run. -/
structure State (κ ι : Type*) where
  held : Bool
  heldModule : CString
  privData : ℕ
  irqHandler : ℕ
  call : κ → Option Pc
  holders : Multiset ι
  served : List ℕ

inductive Action (κ : Type*)
  | request (k : κ) (privData : ℕ)
  | release (k : κ)
  | register (k : κ) (handler : ℕ)
  | run (k : κ)
  | interrupt

def hitimerReference (s : State κ ι) (moduleName : CString) : State κ ι × ℤ :=
  if s.held then (s, -ebusy)
  else ({ s with
    held := true
    heldModule := strncpyS (moduleNameLen + 4) moduleName moduleNameLen }, 0)

def hitimerUnreference (s : State κ ι) (moduleName : CString) : State κ ι × ℤ :=
  if s.held then
    if strncmp s.heldModule moduleName moduleNameLen ≠ 0 then (s, -eperm)
    else ({ s with held := false, heldModule := [] }, 0)
  else (s, 0)

def hitimerSetPrivData (s : State κ ι) (privData : ℕ) : State κ ι :=
  { s with privData := privData }

def State.goto (s : State κ ι) (k : κ) (pc : Option Pc) : State κ ι :=
  { s with call := Function.update s.call k pc }

def stmt (s : State κ ι) (k : κ) (m : ι) (moduleName : CString) : Pc → State κ ι
  | .reqReference privData =>
    let (s₁, ret) := hitimerReference s moduleName
    if ret ≠ 0 then s₁.goto k none
    else { s₁ with holders := m ::ₘ s₁.holders }.goto k (some (.reqSetPriv privData))
  | .reqSetPriv privData => (hitimerSetPrivData s privData).goto k none
  | .relUnreference =>
    let (s₁, ret) := hitimerUnreference s moduleName
    if ret ≠ 0 then s₁.goto k none
    else { s₁ with holders := s₁.holders.erase m }.goto k (some .relUnregister)
  | .relUnregister => { s with irqHandler := 0 }.goto k (some .relSetPriv)
  | .relSetPriv => (hitimerSetPrivData s 0).goto k none
  | .regStore handler => { s with irqHandler := handler }.goto k none

/- `module` is the module of a context, `name` the name that a module passes. -/
variable (module : κ → ι) (name : ι → CString)

def next (s : State κ ι) : Action κ → Option (State κ ι)
  | .request k privData =>
    if s.call k = none then some (s.goto k (some (.reqReference privData))) else none
  | .release k => if s.call k = none then some (s.goto k (some .relUnreference)) else none
  | .register k handler =>
    if s.call k ≠ none then none
    else if handler = 0 then some s
    else some (s.goto k (some (.regStore handler)))
  | .run k => (s.call k).map fun pc => stmt s k (module k) (name (module k)) pc
  | .interrupt =>
    if s.irqHandler ≠ 0 then some { s with served := s.irqHandler :: s.served } else some s

structure Init (s : State κ ι) : Prop where
  held : s.held = false
  call : ∀ k, s.call k = none
  holders : s.holders = 0

def hitimer : TransitionSystem (State κ ι) (Action κ) :=
  TransitionSystem.ofStep Init (next module name)

structure Sound (s : State κ ι) : Prop where
  exclusive : s.holders.card ≤ 1
  busy : ∀ m ∈ s.holders, ∀ moduleName, (hitimerReference s moduleName).2 = -ebusy
  releasable : ∀ m ∈ s.holders, (hitimerUnreference s (name m)).2 = 0
  untouched : ∀ m ∈ s.holders, ∀ k, module k ≠ m → ∀ s', next module name s (.run k) = some s' →
    s'.privData = s.privData ∧ s'.irqHandler = s.irqHandler

/-- The statements that write the private data or the handler, and the ones after
which such a statement follows without another check. -/
def Pc.writes : Pc → Bool
  | .reqReference _ | .relUnreference => false
  | _ => true

/-- A handler is not registered while another module holds the timer, a release
passes the name check only for the holder, and the timer is not granted while a
call of another module has its writes still to do. -/
def Orderly (s : State κ ι) : Action κ → Prop
  | .register k _ => ∀ m ∈ s.holders, m = module k
  | .run k =>
    match s.call k with
    | some (.reqReference _) =>
      s.held = false → ∀ j pc, s.call j = some pc → pc.writes = true → module j = module k
    | some .relUnreference =>
      s.held = true → strncmp s.heldModule (name (module k)) moduleNameLen = 0 →
        module k ∈ s.holders
    | _ => True
  | _ => True

theorem strncmp_take (a : CString) (n : ℕ) : strncmp (a.take n) a n = 0 := by
  induction n generalizing a with
  | zero => cases a <;> rfl
  | succ n ih =>
    cases a with
    | nil => rfl
    | cons c cs =>
      rw [List.take_succ_cons, strncmp, if_pos rfl]
      exact ih cs

theorem strncpyS_name (a : CString) :
    strncpyS (moduleNameLen + 4) a moduleNameLen = a.take moduleNameLen := by
  unfold strncpyS
  rw [if_pos]
  calc (a.take moduleNameLen).length ≤ moduleNameLen := List.length_take_le _ _
    _ < moduleNameLen + 4 := by omega

section Calls

variable {s : State κ ι} {moduleName : CString}

omit [DecidableEq κ] [DecidableEq ι]

theorem hitimerReference_held (hheld : s.held = true) :
    hitimerReference s moduleName = (s, -ebusy) :=
  if_pos hheld

theorem hitimerReference_free (hfree : s.held = false) :
    hitimerReference s moduleName =
      ({ s with held := true, heldModule := moduleName.take moduleNameLen }, 0) := by
  unfold hitimerReference
  rw [if_neg (by rw [hfree]; decide), strncpyS_name]

theorem hitimerUnreference_other (hheld : s.held = true)
    (hother : strncmp s.heldModule moduleName moduleNameLen ≠ 0) :
    hitimerUnreference s moduleName = (s, -eperm) := by
  unfold hitimerUnreference
  rw [if_pos hheld, if_pos hother]

theorem hitimerUnreference_same (hheld : s.held = true)
    (hsame : strncmp s.heldModule moduleName moduleNameLen = 0) :
    hitimerUnreference s moduleName = ({ s with held := false, heldModule := [] }, 0) := by
  unfold hitimerUnreference
  rw [if_pos hheld, if_neg (not_not.mpr hsame)]

theorem hitimerUnreference_free (hfree : s.held = false) :
    hitimerUnreference s moduleName = (s, 0) := by
  unfold hitimerUnreference
  rw [if_neg (by rw [hfree]; decide)]

end Calls

structure Inv (s : State κ ι) : Prop where
  free : s.held = false → s.holders = 0
  owner : s.held = true → ∃ m, s.holders = {m} ∧ s.heldModule = (name m).take moduleNameLen
  writers : ∀ k pc, s.call k = some pc → pc.writes = true → ∀ m ∈ s.holders, m = module k

section Invariant

variable {module name} {s s' : State κ ι} {k : κ} {pc : Pc}

omit [DecidableEq κ] [DecidableEq ι] in
theorem Init.inv (hinit : Init s) : Inv module name s where
  free _ := hinit.holders
  owner hheld := by
    rw [hinit.held] at hheld
    cases hheld
  writers k pc hk := by
    rw [hinit.call] at hk
    cases hk

omit [DecidableEq κ] [DecidableEq ι] in
theorem Inv.held_of_mem (hinv : Inv module name s) {m : ι} (hm : m ∈ s.holders) :
    s.held = true ∧ s.heldModule = (name m).take moduleNameLen := by
  have hheld : s.held = true := by
    by_contra hfree
    rw [hinv.free (by simpa using hfree)] at hm
    exact Multiset.notMem_zero m hm
  obtain ⟨m', hholders, hname⟩ := hinv.owner hheld
  rw [hholders, Multiset.mem_singleton] at hm
  exact ⟨hheld, hm ▸ hname⟩

omit [DecidableEq ι] in
/-- A step that leaves the holder alone and moves `k` to a statement that writes
only for the holder. -/
theorem Inv.goto (hinv : Inv module name s) (hheld : s'.held = s.held)
    (hname : s'.heldModule = s.heldModule) (hholders : s'.holders = s.holders)
    {next : Option Pc} (hcall : s'.call = Function.update s.call k next)
    (hnext : ∀ pc, next = some pc → pc.writes = true → ∀ m ∈ s.holders, m = module k) :
    Inv module name s' where
  free h := by
    rw [hholders]
    exact hinv.free (hheld ▸ h)
  owner h := by
    rw [hholders, hname]
    exact hinv.owner (hheld ▸ h)
  writers j pc hj hpc := by
    rw [hholders]
    rw [hcall, Function.update_apply] at hj
    split at hj
    next hjk =>
      subst hjk
      exact hnext pc hj hpc
    next => exact hinv.writers j pc hj hpc

theorem Inv.stmt (hinv : Inv module name s) (hcall : s.call k = some pc)
    (horderly : Orderly module name s (.run k)) :
    Inv module name (HiTimer.stmt s k (module k) (name (module k)) pc) := by
  simp only [Orderly, hcall] at horderly
  have hwriter := hinv.writers k pc hcall
  cases pc with
  | reqReference privData =>
    cases hheld : s.held with
    | true =>
      rw [HiTimer.stmt, hitimerReference_held hheld]
      exact hinv.goto rfl rfl rfl rfl (fun _ h => by cases h)
    | false =>
      rw [HiTimer.stmt, hitimerReference_free hheld]
      have hgrant : module k ::ₘ s.holders = {module k} := by
        rw [hinv.free hheld]
        rfl
      constructor
      · intro h
        cases h
      · exact fun _ => ⟨module k, hgrant, rfl⟩
      · -- every write still to come is one of the new holder's
        intro j pc hj hpc m hm
        have hm : m = module k := Multiset.mem_singleton.mp (hgrant ▸ hm)
        change Function.update s.call k _ j = some pc at hj
        rw [Function.update_apply] at hj
        split at hj
        next hjk => rw [hm, hjk]
        next => rw [hm, horderly hheld j pc hj hpc]
  | reqSetPriv privData => exact hinv.goto rfl rfl rfl rfl (fun _ h => by cases h)
  | relUnreference =>
    have hreleased : ∀ s' : State κ ι, s'.held = false → s'.holders = 0 →
        Inv module name (s'.goto k (some .relUnregister)) := by
      intro s' hheld' hempty
      constructor
      · exact fun _ => hempty
      · intro h
        change s'.held = true at h
        rw [hheld'] at h
        cases h
      · intro j pc _ _ m hm
        change m ∈ s'.holders at hm
        rw [hempty] at hm
        exact absurd hm (Multiset.notMem_zero m)
    cases hheld : s.held with
    | true =>
      by_cases hsame : strncmp s.heldModule (name (module k)) moduleNameLen = 0
      · rw [HiTimer.stmt, hitimerUnreference_same hheld hsame]
        obtain ⟨m, hholders, -⟩ := hinv.owner hheld
        have hmem := horderly hheld hsame
        rw [hholders, Multiset.mem_singleton] at hmem
        refine hreleased _ rfl ?_
        change s.holders.erase (module k) = 0
        rw [hholders, hmem, Multiset.erase_singleton]
      · rw [HiTimer.stmt, hitimerUnreference_other hheld hsame]
        exact hinv.goto rfl rfl rfl rfl (fun _ h => by cases h)
    | false =>
      rw [HiTimer.stmt, hitimerUnreference_free hheld]
      refine hreleased _ hheld ?_
      change s.holders.erase (module k) = 0
      rw [hinv.free hheld]
      rfl
  | relUnregister => exact hinv.goto rfl rfl rfl rfl (fun _ _ _ => hwriter rfl)
  | relSetPriv => exact hinv.goto rfl rfl rfl rfl (fun _ h => by cases h)
  | regStore handler => exact hinv.goto rfl rfl rfl rfl (fun _ h => by cases h)

theorem Inv.next (hinv : Inv module name s) {a : Action κ} (horderly : Orderly module name s a)
    (hstep : HiTimer.next module name s a = some s') : Inv module name s' := by
  cases a with
  | request k privData =>
    simp only [HiTimer.next] at hstep
    split at hstep
    next =>
      cases hstep
      refine hinv.goto rfl rfl rfl rfl ?_
      rintro pc hpc hwrites
      cases hpc
      cases hwrites
    next => cases hstep
  | release k =>
    simp only [HiTimer.next] at hstep
    split at hstep
    next =>
      cases hstep
      refine hinv.goto rfl rfl rfl rfl ?_
      rintro pc hpc hwrites
      cases hpc
      cases hwrites
    next => cases hstep
  | register k handler =>
    simp only [HiTimer.next] at hstep
    split at hstep
    next => cases hstep
    next =>
      split at hstep
      next =>
        cases hstep
        exact hinv
      next =>
        cases hstep
        exact hinv.goto rfl rfl rfl rfl (fun _ _ _ => horderly)
  | run k =>
    obtain ⟨pc, hcall, rfl⟩ := Option.map_eq_some_iff.mp hstep
    exact hinv.stmt hcall horderly
  | interrupt =>
    simp only [HiTimer.next] at hstep
    split at hstep
    next =>
      cases hstep
      exact ⟨hinv.free, hinv.owner, hinv.writers⟩
    next =>
      cases hstep
      exact hinv

theorem Inv.sound (hinv : Inv module name s) : Sound module name s where
  exclusive := by
    cases hheld : s.held with
    | false =>
      rw [hinv.free hheld]
      exact Nat.zero_le 1
    | true =>
      obtain ⟨m, hholders, -⟩ := hinv.owner hheld
      rw [hholders]
      exact le_rfl
  busy m hm moduleName := by rw [hitimerReference_held (hinv.held_of_mem hm).1]
  releasable m hm := by
    obtain ⟨hheld, hname⟩ := hinv.held_of_mem hm
    rw [hitimerUnreference_same hheld (by rw [hname, strncmp_take])]
  untouched m hm k hother s' hstep := by
    obtain ⟨pc, hcall, rfl⟩ := Option.map_eq_some_iff.mp hstep
    have hquiet : pc.writes = false := by
      by_contra hwrites
      exact hother (hinv.writers k pc hcall (by simpa using hwrites) m hm).symm
    have hheld := (hinv.held_of_mem hm).1
    cases pc with
    | reqReference privData =>
      rw [HiTimer.stmt, hitimerReference_held hheld]
      exact ⟨rfl, rfl⟩
    | relUnreference =>
      by_cases hsame : strncmp s.heldModule (name (module k)) moduleNameLen = 0
      · rw [HiTimer.stmt, hitimerUnreference_same hheld hsame]
        exact ⟨rfl, rfl⟩
      · rw [HiTimer.stmt, hitimerUnreference_other hheld hsame]
        exact ⟨rfl, rfl⟩
    | _ => cases hquiet

variable (module name) in
/-- In a run whose calls are orderly the holder is alone, can release, and keeps
its data. -/
theorem holder_exclusive (s : State κ ι)
    (hreach : ((hitimer module name).restrict (Orderly module name)).Reachable s) :
    Sound module name s := by
  have hinv : Inv module name s := by
    refine hreach.invariant (fun _ hinit => hinit.inv) ?_
    exact fun _ _ _ _ hinv hstep => hinv.next hstep.1 hstep.2
  exact hinv.sound

end Invariant

def idleTimer : State (Fin 2) (Fin 2) := ⟨false, [], 0, 0, fun _ => none, 0, []⟩

theorem init_idleTimer : Init idleTimer :=
  ⟨rfl, fun _ => rfl, rfl⟩

def letter (c : UInt8) : CString :=
  if h : c ≠ 0 then [⟨c, h⟩] else []

def shortName : Fin 2 → CString
  | 0 => letter 0x61
  | 1 => letter 0x62

def longName (m : Fin 2) : CString :=
  (List.replicate moduleNameLen (letter 0x61)).flatten ++ shortName m

instance (name : Fin 2 → CString) (s : State (Fin 2) (Fin 2)) (a : Action (Fin 2)) :
    Decidable (Orderly id name s a) :=
  match a with
  | .register k _ => inferInstanceAs (Decidable (∀ m ∈ s.holders, m = k))
  | .run k =>
    match h : s.call k with
    | some (.reqReference _) =>
      decidable_of_iff (s.held = false → ∀ j, ∀ pc ∈ s.call j, pc.writes = true → j = k)
        (by simp only [Orderly, h]; rfl)
    | some .relUnreference =>
      decidable_of_iff (s.held = true → strncmp s.heldModule (name k) moduleNameLen = 0 →
        k ∈ s.holders) (by simp only [Orderly, h]; rfl)
    | some (.reqSetPriv _) | some .relUnregister | some .relSetPriv | some (.regStore _) | none =>
      isTrue (by simp only [Orderly, h])
  | .request _ _ | .release _ | .interrupt => isTrue trivial

def calls (k : Fin 2) (n : ℕ) : List (Action (Fin 2)) :=
  List.replicate n (.run k)

def orderlyRun : List (Action (Fin 2)) :=
  List.flatten [[.request 0 5], calls 0 2, [.register 0 8], calls 0 1, [.interrupt, .release 0],
    calls 0 3, [.request 1 7], calls 1 2, [.register 1 9], calls 1 1, [.request 0 5], calls 0 1,
    [.release 0], calls 0 1]

def afterOrderly : State (Fin 2) (Fin 2) :=
  (TransitionSystem.runSteps (TransitionSystem.guarded (Orderly id shortName)
    (next id shortName)) idleTimer orderlyRun).get (by decide +kernel)

theorem holder_exclusive_orderly :
    Sound id shortName afterOrderly ∧ afterOrderly.holders = {1} ∧ afterOrderly.privData = 7 := by
  have hstart : ((hitimer id shortName).restrict (Orderly id shortName)).Reachable idleTimer :=
    TransitionSystem.Reachable.init init_idleTimer
  refine ⟨holder_exclusive id shortName afterOrderly ?_, by decide +kernel⟩
  exact hstart.runGuarded (l := orderlyRun) (Option.some_get _).symm

def lateClearRun : List (Action (Fin 2)) :=
  List.flatten [[.request 0 5], calls 0 2, [.release 0], calls 0 1, [.request 1 7], calls 1 2,
    [.register 1 9], calls 1 1]

def beforeClear : State (Fin 2) (Fin 2) :=
  (TransitionSystem.runSteps (next id shortName) idleTimer lateClearRun).get (by decide +kernel)

def aliasRun : List (Action (Fin 2)) :=
  List.flatten [[.request 0 5], calls 0 2, [.release 1], calls 1 1]

def afterAlias : State (Fin 2) (Fin 2) :=
  (TransitionSystem.runSteps (next id longName) idleTimer aliasRun).get (by decide +kernel)

/-- The previous holder clears the handler of the new one, and a module whose name
begins like the holder's takes the timer from it. -/
theorem holder_robbed :
    ((hitimer id shortName).Reachable beforeClear ∧ ¬ Sound id shortName beforeClear) ∧
    ((hitimer id longName).Reachable afterAlias ∧ ¬ Sound id longName afterAlias) := by
  have hstart : ∀ name, (hitimer id name).Reachable idleTimer :=
    fun _ => TransitionSystem.Reachable.init init_idleTimer
  refine ⟨⟨(hstart _).runSteps (l := lateClearRun) (Option.some_get _).symm, ?_⟩,
    ⟨(hstart _).runSteps (l := aliasRun) (Option.some_get _).symm, ?_⟩⟩
  · intro hsound
    have hcleared : ((next id shortName beforeClear (.run 0)).map State.irqHandler) = some 0 := by
      decide +kernel
    obtain ⟨s', hs', hzero⟩ := Option.map_eq_some_iff.mp hcleared
    have hkept := (hsound.untouched 1 (by decide +kernel) 0 (by decide) s' hs').2
    rw [hzero] at hkept
    revert hkept
    decide +kernel
  · intro hsound
    have hbusy := hsound.busy 0 (by decide +kernel) []
    revert hbusy
    decide +kernel

end HiMpu.HiTimer
