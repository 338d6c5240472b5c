import HiMpu.MsgScm3

/-!
# What the secure M3 can do to the A55

The entries of the A55 ring, its producer index and the length of a response come
from the other core.  The handler takes them as they are, and stops at an entry
whose checksum does not verify without passing over it.
-/

namespace HiMpu.MsgScm3

structure ConsumerState where
  q : MsgQueue
  handler : HandlerPc
  events : List HandlerEvent

inductive ConsumerAction where
  | m3Pi (pi : ℕ)
  | m3Byte (slot offset : ℕ) (byte : UInt8)
  | work
  | handler
deriving DecidableEq

def ConsumerState.step (s : ConsumerState) : ConsumerState :=
  let after := msgDelayworkHandle s.q s.handler
  ⟨after.2.1, after.1, s.events ++ after.2.2.toList⟩

def consumerNext (s : ConsumerState) : ConsumerAction → Option ConsumerState
  | .m3Pi pi => some { s with q := { s.q with pi := pi } }
  | .m3Byte slot offset byte =>
    some { s with q := s.q.setSlot slot (Function.update (s.q.slot slot) offset byte) }
  | .work =>
    match s.handler with
    | .idle => some { s with handler := .readPi }
    | _ => none
  | .handler => some s.step

def consumerSystem : TransitionSystem ConsumerState ConsumerAction :=
  TransitionSystem.ofStep (fun s => s.q.ci = 0 ∧ s.handler = .idle ∧ s.events = []) consumerNext

def HandlerPc.slot? : HandlerPc → Option ℕ
  | .idle | .readPi | .readCi _ => none
  | .test _ ci | .crc ci _ _ | .compare ci _ | .saveAddr ci | .complete ci | .storeCi ci => some ci

def HandlerEvent.index : HandlerEvent → ℕ
  | .userAddr index _ => index
  | .completed index => index

structure SlotsInRange (s : ConsumerState) : Prop where
  ci : s.q.ci < msgQDepth
  slot : ∀ i, s.handler.slot? = some i → i < msgQDepth

theorem SlotsInRange.step {s : ConsumerState} (hinv : SlotsInRange s) : SlotsInRange s.step := by
  obtain ⟨hci, hslot⟩ := hinv
  have hmod : ∀ i, (i + 1) % msgQDepth < msgQDepth := fun i => Nat.mod_lt _ (by decide)
  unfold ConsumerState.step
  cases hpc : s.handler with
  | idle =>
    exact ⟨hci, fun i h => by cases h⟩
  | readPi =>
    exact ⟨hci, fun i h => by cases h⟩
  | readCi pi =>
    refine ⟨hci, ?_⟩
    rintro i ⟨⟩
    exact hci
  | test pi ci =>
    have hin := hslot ci (by rw [hpc]; rfl)
    simp only [msgDelayworkHandle]
    refine ⟨hci, ?_⟩
    simp only
    split
    · rintro i ⟨⟩
      exact hin
    · rintro i ⟨⟩
  | crc ci k crc =>
    have hin := hslot ci (by rw [hpc]; rfl)
    simp only [msgDelayworkHandle]
    split
    all_goals
      refine ⟨hci, ?_⟩
      rintro i ⟨⟩
      exact hin
  | compare ci cksum =>
    have hin := hslot ci (by rw [hpc]; rfl)
    simp only [msgDelayworkHandle]
    refine ⟨hci, ?_⟩
    simp only
    split
    · rintro i ⟨⟩
    · rintro i ⟨⟩
      exact hin
  | saveAddr ci | complete ci =>
    have hin := hslot ci (by rw [hpc]; rfl)
    refine ⟨hci, ?_⟩
    rintro i ⟨⟩
    exact hin
  | storeCi ci =>
    exact ⟨hmod ci, fun i h => by cases h⟩

theorem slotsInRange_of_reachable {s : ConsumerState} (hreach : consumerSystem.Reachable s) :
    SlotsInRange s := by
  apply hreach.invariant
  · rintro s ⟨hci, hidle, -⟩
    refine ⟨by rw [hci]; decide, ?_⟩
    rw [hidle]
    rintro i ⟨⟩
  · intro s a s' _ hinv hstep
    cases a with
    | m3Pi pi =>
      cases hstep
      exact ⟨hinv.ci, hinv.slot⟩
    | m3Byte slot offset byte =>
      cases hstep
      exact ⟨hinv.ci, hinv.slot⟩
    | work =>
      simp only [consumerSystem, TransitionSystem.ofStep, consumerNext] at hstep
      split at hstep
      · cases hstep
        exact ⟨hinv.ci, fun i h => by cases h⟩
      · cases hstep
    | handler =>
      cases hstep
      exact hinv.step

def HandlerPc.indexing : HandlerPc → Option ℕ
  | .saveAddr ci | .complete ci => some ci
  | _ => none

def IndicesInRange (s : ConsumerState) : Prop :=
  ∀ e ∈ s.events, e.index < msgQDepth

theorem indicesInRange_step (s : ConsumerState) :
    IndicesInRange s.step ↔
      IndicesInRange s ∧
        ∀ ci, s.handler.indexing = some ci → msgIndex (s.q.slot ci) < msgQDepth := by
  have hquiet : ∀ pc, s.handler = pc → pc.indexing = none →
      (msgDelayworkHandle s.q pc).2.2 = none →
      (IndicesInRange s.step ↔ IndicesInRange s ∧
        ∀ ci, s.handler.indexing = some ci → msgIndex (s.q.slot ci) < msgQDepth) := by
    rintro pc rfl hnone hevent
    unfold IndicesInRange ConsumerState.step
    simp only [hevent, hnone, Option.toList_none, List.append_nil]
    exact ⟨fun h => ⟨h, fun ci hci => by cases hci⟩, fun h => h.1⟩
  have hloud : ∀ pc ci e, s.handler = pc → pc.indexing = some ci →
      (msgDelayworkHandle s.q pc).2.2 = some e → e.index = msgIndex (s.q.slot ci) →
      (IndicesInRange s.step ↔ IndicesInRange s ∧
        ∀ ci, s.handler.indexing = some ci → msgIndex (s.q.slot ci) < msgQDepth) := by
    rintro pc ci e rfl hci hevent hindex
    unfold IndicesInRange ConsumerState.step
    simp only [hevent, hci, Option.toList_some, List.mem_append, List.mem_singleton]
    constructor
    · intro h
      refine ⟨fun e' he' => h e' (.inl he'), ?_⟩
      rintro _ ⟨⟩
      rw [← hindex]
      exact h e (.inr rfl)
    · rintro ⟨hold, hnew⟩ e' (he' | rfl)
      · exact hold e' he'
      · rw [hindex]
        exact hnew ci rfl
  cases hpc : s.handler with
  | idle | readPi | readCi pi | test pi ci | compare ci cksum | storeCi ci =>
    rw [← hpc]
    exact hquiet _ hpc rfl rfl
  | crc ci k crc =>
    rw [← hpc]
    refine hquiet _ hpc rfl ?_
    simp only [msgDelayworkHandle]
    split <;> rfl
  | saveAddr ci | complete ci =>
    rw [← hpc]
    exact hloud _ ci _ hpc rfl rfl rfl

def handed (events : List HandlerEvent) : List ℕ :=
  events.filterMap fun
    | .userAddr _ slot => some slot
    | .completed _ => none

def MsgQueue.nth (q : MsgQueue) (i : ℕ) : ℕ := (q.ci + i) % msgQDepth

def MsgQueue.Holds (q : MsgQueue) (n : ℕ) : Prop := ∀ i < n, q.nth i ≠ q.pi

/-- Later runs of the handler, on a ring that the M3 leaves alone, hand over the
entries from the consumer index up to the `j`-th. -/
def HandedOver (s : ConsumerState) (j : ℕ) : Prop :=
  ∃ as s', (∀ a ∈ as, a = .work ∨ a = .handler) ∧
    TransitionSystem.runSteps consumerNext s as = some s' ∧
    handed s'.events = handed s.events ++ (List.range (j + 1)).map s.q.nth

/-- `n` entries were handed over since `s₀`. -/
structure QuietInv (s₀ s : ConsumerState) (n : ℕ) : Prop where
  slot : s.q.slot = s₀.q.slot
  handed : handed s.events = handed s₀.events ++ (List.range n).map s₀.q.nth
  valid : ∀ i < n, CrcOk (s₀.q.slot (s₀.q.nth i))
  pc : match s.handler with
    | .idle | .readPi | .readCi _ => s.q.ci = s₀.q.nth n
    | .test _ ci => s.q.ci = s₀.q.nth n ∧ ci = s₀.q.nth n
    | .crc ci k crc =>
      s.q.ci = s₀.q.nth n ∧ ci = s₀.q.nth n ∧ k ≤ crcLen ∧
        crc = ((s₀.q.slot ci).bytes 0 k).foldl crcStep crcInit
    | .compare ci cksum =>
      s.q.ci = s₀.q.nth n ∧ ci = s₀.q.nth n ∧
        cksum = dalCalCrc16 ((s₀.q.slot ci).bytes 0 crcLen)
    | .saveAddr ci => s.q.ci = s₀.q.nth n ∧ ci = s₀.q.nth n ∧ CrcOk (s₀.q.slot ci)
    | .complete ci | .storeCi ci => ∃ m, n = m + 1 ∧ ci = s₀.q.nth m

theorem nth_succ (q : MsgQueue) (i : ℕ) : (q.nth i + 1) % msgQDepth = q.nth (i + 1) :=
  Nat.mod_add_mod ..

theorem QuietInv.step {s₀ s : ConsumerState} {n : ℕ} (hinv : QuietInv s₀ s n) :
    ∃ n', QuietInv s₀ s.step n' := by
  obtain ⟨hslot, hhanded, hvalid, hpc⟩ := hinv
  obtain ⟨q, pc, events⟩ := s
  -- A step that hands nothing over keeps the count.
  have hquiet : ∀ pc', (msgDelayworkHandle q pc).1 = pc' →
      (msgDelayworkHandle q pc).2 = (q, none) →
      QuietInv s₀ ⟨q, pc', events⟩ n → ∃ n', QuietInv s₀ (ConsumerState.step ⟨q, pc, events⟩) n' := by
    intro pc' hpc' hrest hinv'
    refine ⟨n, ?_⟩
    unfold ConsumerState.step
    simp only [hpc', hrest, Option.toList_none, List.append_nil]
    exact hinv'
  cases pc with
  | idle => exact hquiet .idle rfl rfl ⟨hslot, hhanded, hvalid, hpc⟩
  | readPi => exact hquiet _ rfl rfl ⟨hslot, hhanded, hvalid, hpc⟩
  | readCi pi => exact hquiet _ rfl rfl ⟨hslot, hhanded, hvalid, hpc, hpc⟩
  | test pi ci =>
    by_cases hne : pi ≠ ci
    · exact hquiet (.crc ci 0 crcInit) (by simp only [msgDelayworkHandle, if_pos hne]) rfl
        ⟨hslot, hhanded, hvalid, hpc.1, hpc.2, Nat.zero_le _, rfl⟩
    · exact hquiet .idle (by simp only [msgDelayworkHandle, if_neg hne]) rfl
        ⟨hslot, hhanded, hvalid, hpc.1⟩
  | crc ci k crc =>
    obtain ⟨hci, hn, hk, hcrc⟩ := hpc
    by_cases hlt : k < crcLen
    · refine hquiet (.crc ci (k + 1) (crcStep crc (q.slot ci k))) ?_ ?_
        ⟨hslot, hhanded, hvalid, hci, hn, hlt, ?_⟩
      · simp only [msgDelayworkHandle, if_pos hlt]
      · simp only [msgDelayworkHandle, if_pos hlt]
      · simp only at hslot
        rw [Mem.bytes_succ, List.foldl_append, ← hcrc, Nat.zero_add, hslot]
        rfl
    · have hall : k = crcLen := by omega
      subst hall
      refine hquiet (.compare ci (crcValue crc)) ?_ ?_
        ⟨hslot, hhanded, hvalid, hci, hn, by rw [hcrc]; rfl⟩
      · simp only [msgDelayworkHandle, if_neg hlt]
      · simp only [msgDelayworkHandle, if_neg hlt]
  | compare ci cksum =>
    obtain ⟨hci, hn, hcrc⟩ := hpc
    by_cases hne : cksum ≠ msgCrc (q.slot ci)
    · exact hquiet .idle (by simp only [msgDelayworkHandle, if_pos hne]) rfl
        ⟨hslot, hhanded, hvalid, hci⟩
    · refine hquiet (.saveAddr ci) (by simp only [msgDelayworkHandle, if_neg hne]) rfl
        ⟨hslot, hhanded, hvalid, hci, hn, ?_⟩
      simp only at hslot
      unfold CrcOk
      rw [← hcrc, ← hslot]
      exact not_not.mp hne
  | saveAddr ci =>
    obtain ⟨-, rfl, hok⟩ := hpc
    refine ⟨n + 1, hslot, ?_, ?_, n, rfl, rfl⟩
    · simp only [ConsumerState.step, msgDelayworkHandle, Option.toList_some]
      unfold MsgScm3.handed at hhanded ⊢
      rw [List.filterMap_append, hhanded, List.range_succ, List.map_append, List.append_assoc]
      rfl
    · intro i hi
      by_cases heq : i = n
      · rw [heq]
        exact hok
      · exact hvalid i (by omega)
  | complete ci =>
    refine ⟨n, hslot, ?_, hvalid, hpc⟩
    simp only [ConsumerState.step, msgDelayworkHandle, Option.toList_some]
    unfold MsgScm3.handed at hhanded ⊢
    rw [List.filterMap_append, hhanded]
    exact List.append_nil _
  | storeCi ci =>
    obtain ⟨m, rfl, rfl⟩ := hpc
    refine ⟨m + 1, hslot, ?_, hvalid, nth_succ _ _⟩
    simp only [ConsumerState.step, msgDelayworkHandle, Option.toList_none, List.append_nil]
    exact hhanded

theorem QuietInv.run {s₀ s s' : ConsumerState} {n : ℕ} {as : List ConsumerAction}
    (hinv : QuietInv s₀ s n) (hquiet : ∀ a ∈ as, a = .work ∨ a = .handler)
    (hrun : TransitionSystem.runSteps consumerNext s as = some s') :
    ∃ n', QuietInv s₀ s' n' := by
  induction as generalizing s n with
  | nil =>
    cases hrun
    exact ⟨n, hinv⟩
  | cons a as ih =>
    obtain ⟨t, ht, hrest⟩ := Option.bind_eq_some_iff.mp hrun
    have htail : ∀ a ∈ as, a = .work ∨ a = .handler := fun a ha =>
      hquiet a (List.mem_cons_of_mem _ ha)
    rcases hquiet a List.mem_cons_self with rfl | rfl
    · simp only [consumerNext] at ht
      split at ht
      next hidle =>
        cases ht
        have hpc := hinv.pc
        rw [hidle] at hpc
        have hnext : QuietInv s₀ { s with handler := .readPi } n :=
          ⟨hinv.slot, hinv.handed, hinv.valid, hpc⟩
        exact ih hnext htail hrest
      next => cases ht
    · cases ht
      obtain ⟨n', hstep⟩ := hinv.step
      exact ih hstep htail hrest

theorem runSteps_handler (s : ConsumerState) (n : ℕ) :
    TransitionSystem.runSteps consumerNext s (List.replicate n .handler) =
      some (ConsumerState.step^[n] s) := by
  induction n generalizing s with
  | zero => rfl
  | succ n ih =>
    rw [List.replicate_succ, Function.iterate_succ_apply]
    exact ih s.step

theorem step_crc {s : ConsumerState} {ci k : ℕ} (n : ℕ) (hn : k + n = crcLen)
    (hpc : s.handler =
      .crc ci k (((s.q.slot ci).bytes 0 k).foldl crcStep crcInit)) :
    ConsumerState.step^[n + 1] s =
      { s with handler := .compare ci (dalCalCrc16 ((s.q.slot ci).bytes 0 crcLen)) } := by
  induction n generalizing s k with
  | zero =>
    obtain rfl : k = crcLen := by omega
    rw [Function.iterate_succ_apply, Function.iterate_zero_apply]
    simp only [ConsumerState.step, hpc, msgDelayworkHandle, lt_irrefl, if_false,
      Option.toList_none, List.append_nil]
    rfl
  | succ n ih =>
    have hlt : k < crcLen := by omega
    have hone : s.step = { s with
        handler := .crc ci (k + 1) (((s.q.slot ci).bytes 0 (k + 1)).foldl crcStep crcInit) } := by
      simp only [ConsumerState.step, hpc, msgDelayworkHandle, if_pos hlt, Option.toList_none,
        List.append_nil]
      rw [Mem.bytes_succ, List.foldl_append, Nat.zero_add]
      rfl
    rw [Function.iterate_succ_apply, hone]
    exact ih (by omega) rfl

theorem step_entry {s : ConsumerState} (hpc : s.handler = .readPi) (hne : s.q.ci ≠ s.q.pi)
    (hok : CrcOk (s.q.slot s.q.ci)) :
    ConsumerState.step^[22] s =
      ⟨{ s.q with ci := (s.q.ci + 1) % msgQDepth }, .readPi,
        s.events ++ [.userAddr (msgIndex (s.q.slot s.q.ci)) s.q.ci,
          .completed (msgIndex (s.q.slot s.q.ci))]⟩ := by
  have hread : ConsumerState.step^[3] s = { s with handler := .crc s.q.ci 0 crcInit } := by
    simp only [Function.iterate_succ_apply, Function.iterate_zero_apply, ConsumerState.step, hpc,
      msgDelayworkHandle, Option.toList_none, List.append_nil, if_pos hne.symm]
  have hcrc : ConsumerState.step^[15] { s with handler := .crc s.q.ci 0 crcInit } =
      { s with handler := .compare s.q.ci (dalCalCrc16 ((s.q.slot s.q.ci).bytes 0 crcLen)) } :=
    step_crc (s := { s with handler := .crc s.q.ci 0 crcInit }) 14 rfl rfl
  have hrest : ConsumerState.step^[4]
      { s with handler := .compare s.q.ci (dalCalCrc16 ((s.q.slot s.q.ci).bytes 0 crcLen)) } =
      ⟨{ s.q with ci := (s.q.ci + 1) % msgQDepth }, .readPi,
        s.events ++ [.userAddr (msgIndex (s.q.slot s.q.ci)) s.q.ci,
          .completed (msgIndex (s.q.slot s.q.ci))]⟩ := by
    unfold CrcOk at hok
    simp only [Function.iterate_succ_apply, Function.iterate_zero_apply, ConsumerState.step,
      msgDelayworkHandle, hok, ne_eq, not_true_eq_false, if_false, Option.toList_none,
      Option.toList_some, List.append_nil, List.append_assoc, List.singleton_append]
  rw [show 22 = 4 + (15 + 3) from rfl, Function.iterate_add_apply, Function.iterate_add_apply,
    hread, hcrc, hrest]

theorem step_entries {s : ConsumerState} (hpc : s.handler = .readPi) (hci : s.q.ci < msgQDepth)
    (n : ℕ) (hholds : s.q.Holds n) (hvalid : ∀ i < n, CrcOk (s.q.slot (s.q.nth i))) :
    ∃ m, (ConsumerState.step^[m] s).q = { s.q with ci := s.q.nth n } ∧
      (ConsumerState.step^[m] s).handler = .readPi ∧
      handed (ConsumerState.step^[m] s).events =
        handed s.events ++ (List.range n).map s.q.nth := by
  induction n with
  | zero =>
    refine ⟨0, ?_, hpc, ?_⟩
    · simp only [Function.iterate_zero_apply, MsgQueue.nth, Nat.add_zero,
        Nat.mod_eq_of_lt hci]
    · simp
  | succ n ih =>
    obtain ⟨m, hq, hread, hhanded⟩ :=
      ih (fun i hi => hholds i (by omega)) (fun i hi => hvalid i (by omega))
    have hne : (ConsumerState.step^[m] s).q.ci ≠ (ConsumerState.step^[m] s).q.pi := by
      rw [hq]
      exact hholds n (by omega)
    have hok : CrcOk ((ConsumerState.step^[m] s).q.slot (ConsumerState.step^[m] s).q.ci) := by
      rw [hq]
      exact hvalid n (by omega)
    have hpass := step_entry hread hne hok
    refine ⟨22 + m, ?_, ?_, ?_⟩
    · rw [Function.iterate_add_apply, hpass, hq]
      simp only [nth_succ]
    · rw [Function.iterate_add_apply, hpass]
    · rw [Function.iterate_add_apply, hpass, hq]
      unfold handed at hhanded ⊢
      rw [List.filterMap_append, hhanded, List.range_succ, List.map_append, List.append_assoc]
      rfl

theorem handedOver_iff {s : ConsumerState} (hidle : s.handler = .idle)
    (hci : s.q.ci < msgQDepth) {j : ℕ} (hholds : s.q.Holds (j + 1))
    (hvalid : CrcOk (s.q.slot (s.q.nth j))) :
    HandedOver s j ↔ ∀ i < j, CrcOk (s.q.slot (s.q.nth i)) := by
  constructor
  · rintro ⟨as, s', hquiet, hrun, hhanded⟩ i hi
    have hstart : QuietInv s s 0 := by
      refine ⟨rfl, by simp, fun i hi => absurd hi (Nat.not_lt_zero i), ?_⟩
      rw [hidle]
      simp only [MsgQueue.nth, Nat.add_zero, Nat.mod_eq_of_lt hci]
    obtain ⟨n, hinv⟩ := hstart.run hquiet hrun
    have hcount : n = j + 1 := by
      have hlen := congrArg List.length (hinv.handed.symm.trans hhanded)
      simpa using hlen
    exact hinv.valid i (by omega)
  · intro hfront
    have hall : ∀ i < j + 1, CrcOk (s.q.slot (s.q.nth i)) := by
      intro i hi
      by_cases heq : i = j
      · rw [heq]
        exact hvalid
      · exact hfront i (by omega)
    obtain ⟨m, -, -, hhanded⟩ :=
      step_entries (s := { s with handler := .readPi }) rfl hci (j + 1) hholds hall
    refine ⟨.work :: List.replicate m .handler, _, ?_, ?_, hhanded⟩
    · intro a ha
      rcases List.mem_cons.mp ha with rfl | ha
      · exact .inl rfl
      · exact .inr (List.eq_of_mem_replicate ha)
    · simp only [TransitionSystem.runSteps, consumerNext, hidle, Option.bind_some]
      exact runSteps_handler ..

theorem reply_inside_iff (cmd : SecModuleCmd) (dataLen : ℕ) (dataOk cmdOk : Bool) :
    (∀ n, (msgSecModuleCmdReply cmd dataLen dataOk cmdOk).fromSlot = some n →
        n ≤ msgDataMaxSize) ↔ dataLen ≤ msgDataMaxSize ∨ cmd.rLen < dataLen := by
  unfold msgSecModuleCmdReply
  by_cases hover : cmd.rLen < dataLen
  · simp [hover]
  · rw [if_neg hover]
    by_cases hzero : dataLen = 0
    · simp [msgSecModuleCmdCpyToUser, hzero]
    · have hfrom : (msgSecModuleCmdCpyToUser { cmd with rLen := dataLen } dataOk cmdOk).fromSlot =
          some dataLen := by
        unfold msgSecModuleCmdCpyToUser
        rw [if_neg hzero]
        cases dataOk <;> cases cmdOk <;> rfl
      rw [hfrom]
      constructor
      · intro h
        exact .inl (h dataLen rfl)
      · rintro (hle | hlt) n hn
        · cases hn
          exact hle
        · exact absurd hlt hover

/-- The handler takes indices from entries with an index in range only. -/
def IndexChecked (s : ConsumerState) (a : ConsumerAction) : Prop :=
  a = .handler → ∀ ci, s.handler.indexing = some ci → msgIndex (s.q.slot ci) < msgQDepth

theorem indicesInRange_of_reachable {s : ConsumerState}
    (hreach : (consumerSystem.restrict IndexChecked).Reachable s) : IndicesInRange s := by
  apply hreach.invariant
  · rintro s ⟨-, -, hnone⟩
    intro e he
    rw [hnone] at he
    cases he
  · rintro s a s' - hinv ⟨hchecked, hstep⟩
    cases a with
    | m3Pi pi =>
      cases hstep
      exact hinv
    | m3Byte slot offset byte =>
      cases hstep
      exact hinv
    | work =>
      simp only [consumerSystem, TransitionSystem.ofStep, consumerNext] at hstep
      split at hstep
      · cases hstep
        exact hinv
      · cases hstep
    | handler =>
      cases hstep
      exact (indicesInRange_step s).mpr ⟨hinv, hchecked rfl⟩

/-- Whatever the M3 writes, the handler stays in the slots of the ring.  It indexes
the arrays of the driver in range exactly as long as the entries it passes have an
index in range, and it comes to a valid entry exactly when no entry in front of it
has a wrong checksum.  The reply stays in the data slot exactly when the length of
the response does, or exceeds what the caller asked for. -/
theorem robust_consumer {s : ConsumerState} (hreach : consumerSystem.Reachable s)
    (cmd : SecModuleCmd) (dataLen : ℕ) (dataOk cmdOk : Bool) :
    (∀ i, s.handler.slot? = some i → i < msgQDepth) ∧
      (IndicesInRange s.step ↔ IndicesInRange s ∧
        ∀ ci, s.handler.indexing = some ci → msgIndex (s.q.slot ci) < msgQDepth) ∧
      ((consumerSystem.restrict IndexChecked).Reachable s → IndicesInRange s) ∧
      (s.handler = .idle → ∀ j, s.q.Holds (j + 1) → CrcOk (s.q.slot (s.q.nth j)) →
        (HandedOver s j ↔ ∀ i < j, CrcOk (s.q.slot (s.q.nth i)))) ∧
      ((∀ n, (msgSecModuleCmdReply cmd dataLen dataOk cmdOk).fromSlot = some n →
        n ≤ msgDataMaxSize) ↔ dataLen ≤ msgDataMaxSize ∨ cmd.rLen < dataLen) := by
  have hslots := slotsInRange_of_reachable hreach
  refine ⟨hslots.slot, indicesInRange_step s, indicesInRange_of_reachable, ?_,
    reply_inside_iff cmd dataLen dataOk cmdOk⟩
  intro hidle j hholds hvalid
  exact handedOver_iff hidle hslots.ci hholds hvalid

def entryFor (index : UInt8) : Mem := withCrc (Function.update (fun _ => 0) 12 index)

def ringOf (pi : ℕ) (slot : ℕ → Mem) : ConsumerState := ⟨⟨pi, 0, 0, slot⟩, .idle, []⟩

theorem ringOf_reachable (pi : ℕ) (slot : ℕ → Mem) : consumerSystem.Reachable (ringOf pi slot) :=
  TransitionSystem.Reachable.init ⟨rfl, rfl, rfl⟩

def twoValid : ConsumerState := ringOf 2 fun _ => entryFor 3

instance (q : MsgQueue) (n : ℕ) : Decidable (q.Holds n) :=
  inferInstanceAs (Decidable (∀ i < n, _))

theorem two_valid_handed_over : HandedOver twoValid 1 := by
  obtain ⟨-, -, -, hvalid, -⟩ :=
    robust_consumer (ringOf_reachable 2 fun _ => entryFor 3) ⟨0x1000, 6, 0x2000, 16⟩ 10 true true
  have hiff := hvalid rfl 1 (by decide +kernel) (by decide +kernel)
  refine hiff.mpr ?_
  decide +kernel

def badFirst : ConsumerState := ringOf 2 (Function.update (fun _ => entryFor 3) 0 fun _ => 0)

def badIndex : ConsumerState := ringOf 1 fun _ => entryFor 16

def badIndexTaken : ConsumerState :=
  (TransitionSystem.runSteps consumerNext badIndex (.work :: List.replicate 21 .handler)).get
    (by decide +kernel)

/-- A valid entry with index 16 makes the handler write behind both arrays, a valid
entry behind a bad one is never handed over, and a response of 5000 bytes is copied
from a slot of 4096. -/
theorem hostile_m3 :
    (consumerSystem.Reachable badIndexTaken ∧
      badIndexTaken.events = [.userAddr 16 0, .completed 16]) ∧
    (consumerSystem.Reachable badFirst ∧ CrcOk (badFirst.q.slot (badFirst.q.nth 1)) ∧
      badFirst.q.Holds 2 ∧ ¬ HandedOver badFirst 1) ∧
    msgCheckIoctlUserData ⟨0x1000, 6, 0x2000, 8192⟩ = 0 ∧
      msgSecModuleCmdReply ⟨0x1000, 6, 0x2000, 8192⟩ 5000 true true = ⟨0, some 5000⟩ := by
  have hvalid : CrcOk (badFirst.q.slot (badFirst.q.nth 1)) := by decide +kernel
  have hholds : badFirst.q.Holds 2 := by decide +kernel
  refine ⟨⟨?_, by decide +kernel⟩, ⟨ringOf_reachable .., hvalid, hholds, ?_⟩, by decide, by decide⟩
  · exact (ringOf_reachable ..).runSteps (l := .work :: List.replicate 21 .handler)
      (Option.some_get _).symm
  · rw [handedOver_iff rfl (by decide) hholds hvalid]
    intro hall
    have hbad : ¬ CrcOk (badFirst.q.slot (badFirst.q.nth 0)) := by decide +kernel
    exact hbad (hall 0 Nat.zero_lt_one)

end HiMpu.MsgScm3
