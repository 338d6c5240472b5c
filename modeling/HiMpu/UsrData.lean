import HiMpu.TransitionSystem
import Mathlib.Data.BitVec

/-!
# The user parameter area

`drivers/comm/usr_data.c`: a count, that many data words, and their checksum in one
page that the boot code has filled.  The driver is a sequence of calls, on a content
that does not change; a call returns what it has read as byte offsets.
-/

namespace HiMpu.UsrData

def usrDataParmSize : ℕ := 0x1000
def usrDataParmMax : BitVec 32 := 35

def einval : ℤ := 22
def enomem : ℤ := 12
def enodev : ℤ := 19

abbrev Mem := ℕ → BitVec 32

def readl (mem : Mem) (offset : ℕ) : BitVec 32 := mem (offset / 4)

structure State where
  initFlag : Bool
  virtBase : Bool

structure Result where
  state : State
  ret : ℤ
  reads : List ℕ
  val : Option (BitVec 32)

def checksumLoop (mem : Mem) : ℕ → BitVec 32 → ℕ → BitVec 32 × List ℕ
  | 0, sum, _ => (sum, [])
  | n + 1, sum, pdata =>
    let (total, reads) := checksumLoop mem n (sum + readl mem pdata) (pdata + 4)
    (total, pdata :: reads)

def usrDataChecksum (mem : Mem) (len : BitVec 32) : BitVec 32 × List ℕ :=
  checksumLoop mem (len.toNat / 4) 0 0

def usrDataInit (mem : Mem) (s : State) (ioremap : Bool) : Result :=
  if s.initFlag then ⟨s, 0, [], none⟩
  else if !ioremap then ⟨{ s with virtBase := false }, -enomem, [], none⟩
  else
    let s := { s with virtBase := true }
    let parmNum := readl mem 0
    if parmNum = 0 ∨ parmNum.toNat ≥ usrDataParmSize / 4 then ⟨s, 0, [0], none⟩
    else
      let dataLen := (parmNum + 1) * 4
      let checksum := readl mem dataLen.toNat
      let (sum, reads) := usrDataChecksum mem dataLen
      if sum ≠ checksum then ⟨s, 0, 0 :: dataLen.toNat :: reads, none⟩
      else ⟨{ s with initFlag := true }, 0, 0 :: dataLen.toNat :: reads, none⟩

def usrDataExit (s : State) : Result :=
  ⟨{ s with initFlag := false }, 0, [], none⟩

def usrDataRead (mem : Mem) (s : State) (dataType : BitVec 32) (valNull : Bool) : Result :=
  if valNull ∨ dataType ≥ usrDataParmMax then ⟨s, -einval, [], none⟩
  else if !s.initFlag ∨ !s.virtBase then ⟨s, -enodev, [], none⟩
  else
    let offset := dataType * 4
    ⟨s, 0, [offset.toNat], some (readl mem offset.toNat)⟩

inductive Call
  | init (ioremap : Bool)
  | exit
  | read (dataType : BitVec 32) (valNull : Bool)

def run (mem : Mem) (s : State) : Call → Result
  | .init ioremap => usrDataInit mem s ioremap
  | .exit => usrDataExit s
  | .read dataType valNull => usrDataRead mem s dataType valNull

def usrData (mem : Mem) : TransitionSystem State Call :=
  TransitionSystem.ofStep (fun s => s = ⟨false, false⟩) fun s call => some (run mem s call).state

def parmNum (mem : Mem) : ℕ := (mem 0).toNat

def wordSum (mem : Mem) : BitVec 32 := ((List.range (parmNum mem + 1)).map mem).sum

structure Validated (mem : Mem) : Prop where
  nonempty : parmNum mem ≠ 0
  checksum : mem (parmNum mem + 1) = wordSum mem

structure CallCorrect (mem : Mem) (s : State) (call : Call) : Prop where
  inside : ∀ offset ∈ (run mem s call).reads, offset + 4 ≤ usrDataParmSize
  flagged : (run mem s call).state.initFlag = true → Validated mem
  succeeds : ∀ dataType valNull, call = .read dataType valNull → (run mem s call).ret = 0 →
    Validated mem ∧ 1 ≤ dataType.toNat ∧ dataType.toNat ≤ parmNum mem ∧
      (run mem s call).val = some (mem dataType.toNat)
  fails : (run mem s call).ret ≠ 0 → (run mem s call).val = none

/-- An initialisation that maps the area does not find the count 1023, and a read that is
let through names one of the words counted. -/
def Allowed (mem : Mem) (s : State) : Call → Prop
  | .init ioremap => s.initFlag = false → ioremap = true → parmNum mem ≠ 1023
  | .exit => True
  | .read dataType valNull =>
    s.initFlag = true → valNull = false → dataType < usrDataParmMax →
      1 ≤ dataType.toNat ∧ dataType.toNat ≤ parmNum mem

theorem checksumLoop_eq (mem : Mem) (n : ℕ) (sum : BitVec 32) (k : ℕ) :
    checksumLoop mem n sum (4 * k) =
      (sum + ((List.range n).map fun i => mem (k + i)).sum,
        (List.range n).map fun i => 4 * (k + i)) := by
  induction n generalizing sum k with
  | zero => simp [checksumLoop]
  | succ n ih =>
    have hword : readl mem (4 * k) = mem k := by
      unfold readl
      rw [Nat.mul_div_cancel_left k (by omega)]
    have hnext : 4 * k + 4 = 4 * (k + 1) := by ring
    have hshift : ∀ i, k + 1 + i = k + (i + 1) := fun i => by omega
    unfold checksumLoop
    rw [hword, hnext, ih, List.range_succ_eq_map]
    simp only [List.map_cons, List.map_map, List.sum_cons, Function.comp_def, hshift,
      Nat.succ_eq_add_one, add_zero, BitVec.add_assoc]

theorem toNat_dataLen {num : BitVec 32} (hnum : num.toNat < usrDataParmSize / 4) :
    ((num + 1) * 4).toNat = 4 * (num.toNat + 1) := by
  have hlt : num.toNat < 1024 := hnum
  rw [BitVec.toNat_mul, BitVec.toNat_add]
  simp
  omega

theorem usrDataChecksum_eq {mem : Mem} (hnum : parmNum mem < usrDataParmSize / 4) :
    usrDataChecksum mem ((mem 0 + 1) * 4) =
      (wordSum mem, (List.range (parmNum mem + 1)).map fun i => 4 * i) := by
  unfold usrDataChecksum
  rw [toNat_dataLen hnum, Nat.mul_div_cancel_left _ (by omega)]
  have hloop := checksumLoop_eq mem (parmNum mem + 1) 0 0
  simpa [wordSum, parmNum] using hloop

theorem usrDataInit_counted {mem : Mem} {s : State} (hflag : s.initFlag = false)
    (hnonempty : parmNum mem ≠ 0) (hnum : parmNum mem < usrDataParmSize / 4) :
    usrDataInit mem s true =
      ⟨⟨decide (wordSum mem = mem (parmNum mem + 1)), true⟩, 0,
        0 :: 4 * (parmNum mem + 1) :: (List.range (parmNum mem + 1)).map fun i => 4 * i, none⟩ := by
  have hzero : readl mem 0 = mem 0 := rfl
  have hword : readl mem (4 * ((mem 0).toNat + 1)) = mem ((mem 0).toNat + 1) := by
    unfold readl
    rw [Nat.mul_div_cancel_left _ (by omega)]
  have hcount : ¬ (mem 0 = 0 ∨ (mem 0).toNat ≥ usrDataParmSize / 4) := by
    rintro (h | h)
    · exact hnonempty (by simp [parmNum, h])
    · exact absurd h (Nat.not_le.mpr hnum)
  unfold usrDataInit
  simp only [hflag, hzero, if_neg hcount, usrDataChecksum_eq hnum, toNat_dataLen hnum, hword,
    Bool.not_true, Bool.false_eq_true, if_false]
  by_cases hsum : wordSum mem = mem ((mem 0).toNat + 1)
  · simp [hsum, parmNum]
  · simp [hsum, parmNum]

theorem usrDataInit_uncounted {mem : Mem} {s : State} {ioremap : Bool}
    (hflag : s.initFlag = false)
    (hskip : ioremap = true → parmNum mem = 0 ∨ usrDataParmSize / 4 ≤ parmNum mem) :
    (usrDataInit mem s ioremap).state.initFlag = false ∧
      (∀ offset ∈ (usrDataInit mem s ioremap).reads, offset = 0) ∧
      (usrDataInit mem s ioremap).val = none := by
  unfold usrDataInit
  cases ioremap with
  | false => simp [hflag]
  | true =>
    have hcount : readl mem 0 = 0 ∨ (readl mem 0).toNat ≥ usrDataParmSize / 4 := by
      rcases hskip rfl with h | h
      · exact .inl (BitVec.eq_of_toNat_eq h)
      · exact .inr h
    simp only [hflag, if_pos hcount, Bool.not_true, Bool.false_eq_true, if_false]
    simp

theorem usrDataRead_through {mem : Mem} {s : State} {dataType : BitVec 32}
    (hflag : s.initFlag = true) (hbase : s.virtBase = true) (hlt : dataType < usrDataParmMax) :
    usrDataRead mem s dataType false =
      ⟨s, 0, [4 * dataType.toNat], some (mem dataType.toNat)⟩ := by
  have hnat : dataType.toNat < 35 := hlt
  have hoffset : (dataType * 4).toNat = 4 * dataType.toNat := by
    rw [BitVec.toNat_mul]
    simp
    omega
  have hword : readl mem (4 * dataType.toNat) = mem dataType.toNat := by
    unfold readl
    rw [Nat.mul_div_cancel_left _ (by omega)]
  have hcheck : ¬ (false = true ∨ dataType ≥ usrDataParmMax) := by
    rintro (h | h)
    · exact Bool.false_ne_true h
    · exact absurd hlt (BitVec.not_lt.mpr h)
  unfold usrDataRead
  rw [if_neg hcheck]
  simp only [hflag, hbase, hoffset, hword, Bool.not_true, Bool.false_eq_true, or_self, if_false]

theorem usrDataRead_refused {mem : Mem} {s : State} {dataType : BitVec 32} {valNull : Bool}
    (hrefused : ¬ (s.initFlag = true ∧ valNull = false ∧ dataType < usrDataParmMax)) :
    (usrDataRead mem s dataType valNull).ret ≠ 0 ∧
      (usrDataRead mem s dataType valNull).reads = [] ∧
      (usrDataRead mem s dataType valNull).val = none := by
  unfold usrDataRead
  by_cases hcheck : valNull = true ∨ dataType ≥ usrDataParmMax
  · rw [if_pos hcheck]
    simp [einval]
  · obtain ⟨hnull, hge⟩ := not_or.mp hcheck
    have hflag : s.initFlag = false := by
      by_contra hset
      exact hrefused ⟨by simpa using hset, by simpa using hnull, BitVec.not_le.mp hge⟩
    rw [if_neg hcheck]
    simp [hflag, enodev]

theorem usrDataRead_state (mem : Mem) (s : State) (dataType : BitVec 32) (valNull : Bool) :
    (usrDataRead mem s dataType valNull).state = s := by
  unfold usrDataRead
  split
  · rfl
  · split <;> rfl

structure Flagged (mem : Mem) (s : State) : Prop where
  validated : s.initFlag = true → Validated mem
  mapped : s.initFlag = true → s.virtBase = true

theorem Flagged.usrDataInit {mem : Mem} {s : State} (hs : Flagged mem s) (ioremap : Bool) :
    Flagged mem (usrDataInit mem s ioremap).state := by
  by_cases hflag : s.initFlag = true
  · have hsame : UsrData.usrDataInit mem s ioremap = ⟨s, 0, [], none⟩ := by
      unfold UsrData.usrDataInit
      rw [if_pos hflag]
    rwa [hsame]
  have hclear : s.initFlag = false := by simpa using hflag
  by_cases hskip : ioremap = true → parmNum mem = 0 ∨ usrDataParmSize / 4 ≤ parmNum mem
  · have hleft := (usrDataInit_uncounted hclear hskip).1
    constructor
    · intro h
      rw [hleft] at h
      cases h
    · intro h
      rw [hleft] at h
      cases h
  · obtain ⟨rfl, hcount⟩ := Classical.not_imp.mp hskip
    obtain ⟨hnonempty, hlt⟩ := not_or.mp hcount
    rw [usrDataInit_counted hclear hnonempty (Nat.not_le.mp hlt)]
    constructor
    · intro h
      exact ⟨hnonempty, (of_decide_eq_true h).symm⟩
    · intro _
      rfl

theorem Flagged.run {mem : Mem} {s : State} (hs : Flagged mem s) (call : Call) :
    Flagged mem (run mem s call).state := by
  cases call with
  | init ioremap => exact hs.usrDataInit ioremap
  | exit => constructor <;> (intro h; cases h)
  | read dataType valNull =>
    unfold UsrData.run
    rwa [usrDataRead_state]

theorem flagged_of_reachable {mem : Mem} {s : State} (hreach : (usrData mem).Reachable s) :
    Flagged mem s := by
  apply hreach.invariant
  · intro s hinit
    have hstart : s = ⟨false, false⟩ := hinit
    subst hstart
    constructor <;> (intro h; cases h)
  · intro s call s' _ hs hstep
    cases hstep
    exact hs.run call

theorem init_correct_iff {mem : Mem} {s : State} (hs : Flagged mem s) (ioremap : Bool) :
    CallCorrect mem s (.init ioremap) ↔ Allowed mem s (.init ioremap) := by
  have hret : (usrDataInit mem s ioremap).val = none := by
    unfold usrDataInit
    simp only
    split_ifs <;> rfl
  have hcorrect : CallCorrect mem s (.init ioremap) ↔
      ∀ offset ∈ (usrDataInit mem s ioremap).reads, offset + 4 ≤ usrDataParmSize := by
    constructor
    · exact fun h => h.inside
    · intro hinside
      constructor
      · exact hinside
      · exact (hs.run (.init ioremap)).validated
      · intro dataType valNull h
        cases h
      · exact fun _ => hret
  rw [hcorrect]
  unfold Allowed
  by_cases hflag : s.initFlag = true
  · have hsame : (usrDataInit mem s ioremap).reads = [] := by
      unfold usrDataInit
      rw [if_pos hflag]
    simp [hsame, hflag]
  · have hclear : s.initFlag = false := by simpa using hflag
    by_cases hskip : ioremap = true → parmNum mem = 0 ∨ usrDataParmSize / 4 ≤ parmNum mem
    · have hreads := (usrDataInit_uncounted hclear hskip).2.1
      constructor
      · intro _ _ hmap
        have hcount := hskip hmap
        have hsize : usrDataParmSize / 4 = 1024 := rfl
        omega
      · intro _ offset hmem
        rw [hreads offset hmem]
        decide
    · obtain ⟨rfl, hcount⟩ := Classical.not_imp.mp hskip
      obtain ⟨hnonempty, hlt⟩ := not_or.mp hcount
      have hnum : parmNum mem < 1024 := Nat.not_le.mp hlt
      have hsize : usrDataParmSize = 4096 := rfl
      rw [usrDataInit_counted hclear hnonempty (Nat.not_le.mp hlt)]
      constructor
      · intro hinside _ _ hlast
        have hend := hinside (4 * (parmNum mem + 1)) (by simp)
        omega
      · intro hfit offset hmem
        have hshort := hfit hclear rfl
        simp only [List.mem_cons, List.mem_map, List.mem_range] at hmem
        rcases hmem with rfl | rfl | ⟨i, hi, rfl⟩ <;> omega

theorem read_correct_iff {mem : Mem} {s : State} (hs : Flagged mem s) (dataType : BitVec 32)
    (valNull : Bool) :
    CallCorrect mem s (.read dataType valNull) ↔ Allowed mem s (.read dataType valNull) := by
  have hflagged := (hs.run (.read dataType valNull)).validated
  unfold Allowed
  by_cases hthrough : s.initFlag = true ∧ valNull = false ∧ dataType < usrDataParmMax
  · obtain ⟨hflag, rfl, hlt⟩ := hthrough
    have hrun : run mem s (.read dataType false) =
        ⟨s, 0, [4 * dataType.toNat], some (mem dataType.toNat)⟩ :=
      usrDataRead_through hflag (hs.mapped hflag) hlt
    constructor
    · intro hcorrect _ _ _
      have hnamed := hcorrect.succeeds dataType false rfl (by rw [hrun])
      exact ⟨hnamed.2.1, hnamed.2.2.1⟩
    · intro hnamed
      obtain ⟨hfirst, hlast⟩ := hnamed hflag rfl hlt
      constructor
      · have hnat : dataType.toNat < 35 := hlt
        have hsize : usrDataParmSize = 4096 := rfl
        simp only [hrun, List.mem_singleton]
        omega
      · exact hflagged
      · intro _ _ hcall _
        cases hcall
        exact ⟨hs.validated hflag, hfirst, hlast, by rw [hrun]⟩
      · intro hret
        exact absurd (by rw [hrun]) hret
  · have hrefused : (run mem s (.read dataType valNull)).ret ≠ 0 ∧
        (run mem s (.read dataType valNull)).reads = [] ∧
        (run mem s (.read dataType valNull)).val = none := usrDataRead_refused hthrough
    obtain ⟨hret, hreads, hval⟩ := hrefused
    constructor
    · intro _ hflag hnull hlt
      exact absurd ⟨hflag, hnull, hlt⟩ hthrough
    · intro _
      constructor
      · intro offset hmem
        rw [hreads] at hmem
        cases hmem
      · exact hflagged
      · intro _ _ _ hzero
        exact absurd hzero hret
      · exact fun _ => hval

theorem call_correct_iff {mem : Mem} {s : State} (hreach : (usrData mem).Reachable s)
    (call : Call) : CallCorrect mem s call ↔ Allowed mem s call := by
  have hs := flagged_of_reachable hreach
  cases call with
  | init ioremap => exact init_correct_iff hs ioremap
  | read dataType valNull => exact read_correct_iff hs dataType valNull
  | exit =>
    constructor
    · exact fun _ => trivial
    · intro _
      constructor
      · intro offset hmem
        cases hmem
      · exact (hs.run .exit).validated
      · intro dataType valNull h
        cases h
      · exact fun _ => rfl

def oneWord : Mem
  | 0 => 1
  | 1 => 5
  | 2 => 6
  | _ => 0

theorem oneWord_reachable : (usrData oneWord).Reachable ⟨true, true⟩ := by
  have hstart : (usrData oneWord).Reachable ⟨false, false⟩ := .init rfl
  exact hstart.step (a := .init true) rfl

theorem call_correct_iff_oneWord :
    CallCorrect oneWord ⟨true, true⟩ (.read 1 false) ∧
      ¬ CallCorrect oneWord ⟨true, true⟩ (.read 2 false) :=
  ⟨(call_correct_iff oneWord_reachable (.read 1 false)).mpr (fun _ _ _ => by decide),
    fun h => absurd ((call_correct_iff oneWord_reachable (.read 2 false)).mp h rfl rfl (by decide))
      (by decide)⟩

/-- A read of 0 returns the count and a read of 2 the checksum, and the checksum of 1023 data
words is sought behind the page. -/
theorem call_not_correct :
    usrDataRead oneWord ⟨true, true⟩ 0 false = ⟨⟨true, true⟩, 0, [0], some 1⟩ ∧
      usrDataRead oneWord ⟨true, true⟩ 2 false = ⟨⟨true, true⟩, 0, [8], some 6⟩ ∧
      (usrData oneWord).Reachable ⟨true, true⟩ ∧
      ¬ CallCorrect oneWord ⟨true, true⟩ (.read 0 false) ∧
      ¬ CallCorrect oneWord ⟨true, true⟩ (.read 2 false) ∧
      ¬ CallCorrect (fun _ => 1023) ⟨false, false⟩ (.init true) := by
  have hcount : usrDataRead oneWord ⟨true, true⟩ 0 false = ⟨⟨true, true⟩, 0, [0], some 1⟩ := rfl
  have hsum : usrDataRead oneWord ⟨true, true⟩ 2 false = ⟨⟨true, true⟩, 0, [8], some 6⟩ := rfl
  have hbehind : usrDataParmSize ∈
      (usrDataInit (fun _ => 1023) ⟨false, false⟩ true).reads := by
    rw [usrDataInit_counted rfl (by decide) (by decide)]
    simp [parmNum, usrDataParmSize]
  constructor
  · exact hcount
  constructor
  · exact hsum
  constructor
  · exact oneWord_reachable
  constructor
  · intro h
    have hnamed := h.succeeds 0 false rfl rfl
    exact absurd hnamed.2.1 (by decide)
  constructor
  · intro h
    have hnamed := h.succeeds 2 false rfl rfl
    exact absurd hnamed.2.2.1 (by decide)
  · intro h
    have hend := h.inside usrDataParmSize hbehind
    omega

end HiMpu.UsrData
