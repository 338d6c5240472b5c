import HiMpu.MmuPool

/-!
# The translation control word on every core

`bm_enable_caches` sets up the tables on the first core, hands the control word
over in a shared word and loads what it reads back there, as every later core
does.  The word is written and read with 32 bits, so that the physical address
size in the upper half is lost.
-/

namespace HiMpu.Mmu

def bmReadl (m : Mem) (addr : ℕ) : ℕ := m.load addr 4

def bmWritel (m : Mem) (data addr : ℕ) : Mem := m.store addr 4 data

def bootSyncReady : ℕ := 0xabababab

structure Memmap where
  board : Board
  mmuPageBegin : ℕ
  mmuPageEnd : ℕ
  cpuReleaseMmuPage : ℕ
  cpuReleaseBootSync : ℕ
  aligned : 4096 ∣ mmuPageBegin
  ordered : mmuPageBegin ≤ mmuPageEnd
  room : mmuPageEnd ≤ 2 ^ 48
  outside : mmuPageEnd ≤ board.cpuReleaseMmuTcr ∨ board.cpuReleaseMmuTcr + 4 ≤ mmuPageBegin

structure Core where
  mmuOn : Bool
  ttbr : ℕ
  tcrEl1 : ℕ
  mair : ℕ

def memoryAttributes : ℕ := 0x04 <<< 8 ||| 0x0c <<< 16 ||| 0x44 <<< 24 ||| 0xff <<< 32

def bmMmuSetup (M : Memmap) (fuel : ℕ) (s : State) : State × Option ℤ :=
  let s := { s with mem := bmWritel s.mem M.mmuPageBegin M.cpuReleaseMmuPage }
  bmMmuSetupPgtables M.board fuel s M.board.memMapInfo M.mmuPageBegin
    (M.mmuPageEnd - M.mmuPageBegin) .g4K

def bmMmuSetTtbrTcrMair (table tcr attr : ℕ) : Core :=
  { mmuOn := true, ttbr := table, tcrEl1 := tcr, mair := attr }

def loadCore (M : Memmap) (m : Mem) : Core :=
  bmMmuSetTtbrTcrMair (bmReadl m M.cpuReleaseMmuPage) (bmReadl m M.board.cpuReleaseMmuTcr)
    memoryAttributes

/-- The first core sets up the tables; one that finds the unit on, or the word of the boot
synchronisation ready, does not. -/
def bmEnableCaches (M : Memmap) (fuel : ℕ) (s : State) (core : Core) : State × Core × Option ℤ :=
  if core.mmuOn = false ∧ bmReadl s.mem M.cpuReleaseBootSync ≠ bootSyncReady then
    match bmMmuSetup M fuel s with
    | (s, ret) =>
      if ret = some bmOk then (s, loadCore M s.mem, some bmOk) else (s, core, ret)
  else (s, loadCore M s.mem, some bmOk)

def tcrT0szField (tcr : ℕ) : ℕ := tcr % 64

/-- The number of bits of a physical address that `IPS`, bits 34 to 32, selects. -/
def tcrPhysicalBits (tcr : ℕ) : ℕ :=
  match tcr / 2 ^ 32 % 8 with
  | 0 => 32
  | 1 => 36
  | 2 => 40
  | 3 => 42
  | 4 => 44
  | 5 => 48
  | _ => 52

/-- The control word reaches every region, on the virtual and on the physical side. -/
structure Covers (tcr : ℕ) (info : List MapRegion) : Prop where
  virt : ∀ r ∈ info, r.virt + r.size ≤ 2 ^ (64 - tcrT0szField tcr)
  phys : ∀ r ∈ info, r.phys + r.size ≤ 2 ^ tcrPhysicalBits tcr

/-- The regions end below the size that the lower half can express. -/
def PhysicalEnds (info : List MapRegion) : Prop := ∀ r ∈ info, r.phys + r.size ≤ 2 ^ 32

instance : DecidablePred PhysicalEnds :=
  fun info => inferInstanceAs (Decidable (∀ r ∈ info, r.phys + r.size ≤ 2 ^ 32))

section Fields

variable {info : List MapRegion} {g : Granule}

theorem foldl_maxAddr_le (l : List MapRegion) (a : ℕ) :
    a ≤ l.foldl (fun maxAddr r =>
      if r.virt ≤ 2 ^ 64 - 1 - r.size then max maxAddr (r.virt + r.size) else maxAddr) a := by
  induction l generalizing a with
  | nil => exact le_rfl
  | cons r l ih =>
    refine le_trans ?_ (ih _)
    show a ≤ if r.virt ≤ 2 ^ 64 - 1 - r.size then max a (r.virt + r.size) else a
    split
    · exact le_max_left _ _
    · exact le_rfl

theorem le_foldl_maxAddr (l : List MapRegion) (a : ℕ)
    (hwrap : ∀ r ∈ l, r.virt + r.size ≤ 2 ^ 48) :
    ∀ r ∈ l, r.virt + r.size ≤ l.foldl (fun maxAddr r =>
      if r.virt ≤ 2 ^ 64 - 1 - r.size then max maxAddr (r.virt + r.size) else maxAddr) a := by
  induction l generalizing a with
  | nil => exact fun r hr => absurd hr List.not_mem_nil
  | cons q l ih =>
    intro r hr
    rcases List.mem_cons.mp hr with rfl | hr
    · have hle := hwrap r List.mem_cons_self
      have hcond : r.virt ≤ 2 ^ 64 - 1 - r.size := by omega
      rw [List.foldl_cons, if_pos hcond]
      exact (le_max_right _ _).trans (foldl_maxAddr_le l _)
    · exact ih _ (fun r hr => hwrap r (List.mem_cons_of_mem _ hr)) r hr

theorem maxAddr_le (hwrap : ∀ r ∈ info, r.virt + r.size ≤ 2 ^ 48) : maxAddr info ≤ 2 ^ 48 := by
  unfold maxAddr
  suffices h : ∀ a, a ≤ 2 ^ 48 → info.foldl (fun maxAddr r =>
      if r.virt ≤ 2 ^ 64 - 1 - r.size then max maxAddr (r.virt + r.size) else maxAddr) a ≤ 2 ^ 48 from
    h 0 (Nat.zero_le _)
  induction info with
  | nil => exact fun a ha => ha
  | cons q l ih =>
    intro a ha
    refine ih (fun r hr => hwrap r (List.mem_cons_of_mem _ hr)) _ ?_
    show (if q.virt ≤ 2 ^ 64 - 1 - q.size then max a (q.virt + q.size) else a) ≤ 2 ^ 48
    split
    · exact max_le ha (hwrap q List.mem_cons_self)
    · exact ha

theorem addressBits_cases (a : ℕ) : addressBits a ∈
    ([(5, 48), (4, 44), (3, 42), (2, 40), (1, 36), (0, 32)] : List (ℕ × ℕ)) := by
  unfold addressBits
  repeat' split
  all_goals decide

theorem le_addressBits {a : ℕ} (hle : a ≤ 2 ^ 48) : a ≤ 2 ^ (addressBits a).2 := by
  unfold addressBits
  simp only [Nat.one_shiftLeft]
  repeat' split
  all_goals
    norm_num at *
    omega

/-- The lower half of the control word keeps the field that bounds the virtual side. -/
theorem t0sz_bmMmuGetTcr (info : List MapRegion) (g : Granule) :
    64 - tcrT0szField ((bmMmuGetTcr info g).1 % 2 ^ 32) = (addressBits (maxAddr info)).2 := by
  have hcases := addressBits_cases (maxAddr info)
  unfold bmMmuGetTcr
  generalize addressBits (maxAddr info) = bits at hcases ⊢
  simp only [List.mem_cons, List.not_mem_nil, or_false] at hcases
  rcases hcases with rfl | rfl | rfl | rfl | rfl | rfl <;> cases g <;> decide

theorem virt_covered (hwrap : ∀ r ∈ info, r.virt + r.size ≤ 2 ^ 48) :
    ∀ r ∈ info, r.virt + r.size ≤
      2 ^ (64 - tcrT0szField ((bmMmuGetTcr info g).1 % 2 ^ 32)) := by
  intro r hr
  rw [t0sz_bmMmuGetTcr]
  exact (le_foldl_maxAddr info 0 hwrap r hr).trans (le_addressBits (maxAddr_le hwrap))

theorem tcrPhysicalBits_of_lt {tcr : ℕ} (hlt : tcr < 2 ^ 32) : tcrPhysicalBits tcr = 32 := by
  unfold tcrPhysicalBits
  rw [Nat.div_eq_of_lt hlt]
  rfl

theorem physicalEnds_of_covers {tcr : ℕ} (hlt : tcr < 2 ^ 32) (hcovers : Covers tcr info) :
    PhysicalEnds info := by
  have hphys := hcovers.phys
  rw [tcrPhysicalBits_of_lt hlt] at hphys
  exact hphys

theorem covers_of_physicalEnds (hwrap : ∀ r ∈ info, r.virt + r.size ≤ 2 ^ 48)
    (hends : PhysicalEnds info) : Covers ((bmMmuGetTcr info g).1 % 2 ^ 32) info where
  virt := virt_covered hwrap
  phys := by
    rw [tcrPhysicalBits_of_lt (Nat.mod_lt _ (by decide))]
    exact hends

end Fields

section HandOver

variable {fuel : ℕ} {s : State} {memMap : List MapRegion}

def Replays (m : Mem) (s : State) : Prop := s.mem = s.stores.foldr Store.apply m

theorem Replays.store {m : Mem} (h : Replays m s) (e : Store) : Replays m (s.store e) := by
  unfold Replays at h ⊢
  show e.apply s.mem = e.apply _
  rw [h]

theorem keeps_replays (m : Mem) (start : ℕ) :
    Keeps (fun _ => True) start (fun s => s.ctrl.startLevel = start ∧ Replays m s)
      fun s => Replays m s where
  startLevel _ hinv := hinv.1
  weaken _ hinv := hinv.2
  process s map virt phys level r _ hinv _ _ _ _ hprocess := by
    cases hprocess with
    | keep => exact Ends.ok hinv
    | exhausted => exact Ends.fail hinv.2
    | null => exact Ends.fail (hinv.2.store (.zero ..))
    | table => exact Ends.ok ⟨hinv.1, (hinv.2.store (.zero ..)).store (.table ..)⟩
    | leaf => exact Ends.ok ⟨hinv.1, hinv.2.store (.leaf ..)⟩

theorem SetupTables.replays {m : Mem} {r : State × Option ℤ} (hrun : SetupTables fuel s memMap r)
    (hstart : Replays m s) : Replays m r.1 := by
  cases hrun with
  | exhausted => exact hstart
  | null => exact hstart.store (.zero ..)
  | maps =>
    have hinv : s.zeroed.ctrl.startLevel = s.ctrl.startLevel ∧ Replays m s.zeroed :=
      ⟨rfl, hstart.store (.zero ..)⟩
    rcases ((keeps_replays m s.ctrl.startLevel).addMaps fuel (fun _ _ => trivial)
      hinv).inv_or_fail with hend | hend
    · exact hend.2
    · exact hend.2

theorem setup_replays (b : Board) (fuel : ℕ) (s : State) (memMap : List MapRegion)
    (tlbAddr tlbLen : ℕ) (g : Granule) :
    Replays s.mem (bmMmuSetupPgtables b fuel s memMap tlbAddr tlbLen g).1 := by
  have hfirst : ∀ start, Replays s.mem (setupStart b s tlbAddr tlbLen g start) := fun _ => rfl
  cases hlevel : startLevelOf g (vaBits b g) with
  | none =>
    rw [setup_of_none hlevel]
    exact hfirst 1
  | some start =>
    rw [setup_of_some hlevel]
    exact (setupTables_cases _ _ _).replays (hfirst start)

theorem Store.Inside.load_apply {e : Store} {lo hi addr n : ℕ} (hin : e.Inside lo hi)
    (hbeside : hi ≤ addr ∨ addr + n ≤ lo) (m : Mem) : (e.apply m).load addr n = m.load addr n := by
  cases e with
  | word => exact absurd hin id
  | zero start len =>
    obtain ⟨hlow, hhigh⟩ := hin
    exact Mem.load_fill_disjoint (by omega)
  | table pte target =>
    obtain ⟨hlow, hhigh⟩ := hin
    exact Mem.load_store_disjoint (by omega)
  | leaf pte value =>
    obtain ⟨hlow, hhigh⟩ := hin
    exact Mem.load_store_disjoint (by omega)

theorem load_foldr_apply {lo hi addr n : ℕ} (hbeside : hi ≤ addr ∨ addr + n ≤ lo) (m : Mem)
    {l : List Store} (hin : ∀ e ∈ l, e.Inside lo hi) :
    (l.foldr Store.apply m).load addr n = m.load addr n := by
  induction l with
  | nil => rfl
  | cons e l ih =>
    rw [List.foldr_cons, (hin e List.mem_cons_self).load_apply hbeside]
    exact ih fun e he => hin e (List.mem_cons_of_mem _ he)

theorem bmReadl_setup (M : Memmap) (fuel : ℕ) (s : State)
    (hclear : ∀ r ∈ M.board.memMapInfo, r.TypeBitClear) :
    bmReadl (bmMmuSetup M fuel s).1.mem M.board.cpuReleaseMmuTcr =
      (bmMmuGetTcr M.board.memMapInfo .g4K).1 % 2 ^ 32 := by
  have hend : M.mmuPageBegin + (M.mmuPageEnd - M.mmuPageBegin) = M.mmuPageEnd := by
    have hordered := M.ordered
    omega
  have hroom : M.mmuPageBegin + (M.mmuPageEnd - M.mmuPageBegin) ≤ 2 ^ 48 := hend.trans_le M.room
  have hreplay := setup_replays M.board fuel
    { s with mem := bmWritel s.mem M.mmuPageBegin M.cpuReleaseMmuPage } M.board.memMapInfo
    M.mmuPageBegin (M.mmuPageEnd - M.mmuPageBegin) .g4K
  obtain ⟨haddr, hsize, -, hsafe⟩ := (setup_poolSafe M.board fuel
    { s with mem := bmWritel s.mem M.mmuPageBegin M.cpuReleaseMmuPage } M.board.memMapInfo
    M.mmuPageBegin (M.mmuPageEnd - M.mmuPageBegin) .g4K).2 M.aligned hroom hclear
  obtain ⟨l, hl, hin⟩ := hsafe.stores
  rw [haddr, hsize, hend] at hin
  unfold Replays at hreplay
  rw [hl, List.foldr_append] at hreplay
  unfold bmReadl bmMmuSetup
  rw [hreplay, load_foldr_apply M.outside _ hin]
  exact Mem.load_store_same _ _ _ _

end HandOver

/-- A value that goes into `tcr_el1`: on the first core when its setup succeeds, and on a later
one that finds the two words of the hand-over. -/
inductive LoadsTcr (M : Memmap) (fuel : ℕ) (s : State) (core : Core) : ℕ → Prop
  | first (hret : (bmEnableCaches M fuel s core).2.2 = some bmOk) :
      LoadsTcr M fuel s core (bmEnableCaches M fuel s core).2.1.tcrEl1
  | later (m : Mem) (other : Core)
      (htcr : bmReadl m M.board.cpuReleaseMmuTcr =
        bmReadl (bmEnableCaches M fuel s core).1.mem M.board.cpuReleaseMmuTcr)
      (hready : bmReadl m M.cpuReleaseBootSync = bootSyncReady) :
      LoadsTcr M fuel s core
        (bmEnableCaches M fuel { (bmEnableCaches M fuel s core).1 with mem := m } other).2.1.tcrEl1

def Cold (M : Memmap) (s : State) (core : Core) : Prop :=
  core.mmuOn = false ∧ bmReadl s.mem M.cpuReleaseBootSync ≠ bootSyncReady

instance (M : Memmap) (s : State) (core : Core) : Decidable (Cold M s core) :=
  inferInstanceAs (Decidable (_ ∧ _))

section Cores

variable {M : Memmap} {fuel tcr : ℕ} {s : State} {core : Core}

theorem enableCaches_cold (hcold : Cold M s core) :
    bmEnableCaches M fuel s core =
      if (bmMmuSetup M fuel s).2 = some bmOk then
        ((bmMmuSetup M fuel s).1, loadCore M (bmMmuSetup M fuel s).1.mem, some bmOk)
      else ((bmMmuSetup M fuel s).1, core, (bmMmuSetup M fuel s).2) :=
  if_pos hcold

theorem enableCaches_ready (hready : bmReadl s.mem M.cpuReleaseBootSync = bootSyncReady) :
    bmEnableCaches M fuel s core = (s, loadCore M s.mem, some bmOk) :=
  if_neg fun h => h.2 hready

theorem LoadsTcr.eq_word (hcold : Cold M s core) (hload : LoadsTcr M fuel s core tcr) :
    tcr = bmReadl (bmMmuSetup M fuel s).1.mem M.board.cpuReleaseMmuTcr := by
  have hfirst : bmEnableCaches M fuel s core =
      if (bmMmuSetup M fuel s).2 = some bmOk then
        ((bmMmuSetup M fuel s).1, loadCore M (bmMmuSetup M fuel s).1.mem, some bmOk)
      else ((bmMmuSetup M fuel s).1, core, (bmMmuSetup M fuel s).2) :=
    enableCaches_cold hcold
  cases hload with
  | first hret =>
    rw [hfirst] at hret ⊢
    split at hret
    case isTrue hok =>
      rw [if_pos hok]
      rfl
    case isFalse hbad => exact absurd hret hbad
  | later m other htcr hready =>
    have hmem : (bmEnableCaches M fuel s core).1 = (bmMmuSetup M fuel s).1 := by
      rw [hfirst]
      split <;> rfl
    rw [hmem] at htcr
    rw [enableCaches_ready hready]
    exact htcr

end Cores

def bootMemmap (info : List MapRegion) : Memmap where
  board := { memMapInfo := info, cpuReleaseMmuTcr := mmuPageEnd + 0x20 + 0x20 }
  mmuPageBegin := mmuPageBegin
  mmuPageEnd := mmuPageEnd
  cpuReleaseMmuPage := mmuPageEnd + 0x20 + 0x18
  cpuReleaseBootSync := mmuPageEnd + 0x20 + 0x28
  aligned := ⟨0x93800, by decide⟩
  ordered := by decide
  room := by decide
  outside := Or.inl (show mmuPageEnd ≤ mmuPageEnd + 0x20 + 0x20 by decide)

def coldCore : Core := { mmuOn := false, ttbr := 0, tcrEl1 := 0, mair := 0 }

def oneRegion (base : ℕ) : List MapRegion :=
  [{ virt := base, phys := base, size := 2 ^ 21, maxLevel := 2, attrs := mmuAccessRwx }]

end HiMpu.Mmu
