import HiMpu.TransitionSystem

/-!
# The reset policy of the random number generator

`trng_check_trng_need_reset` of `drivers/trng/trng_ker.c`, called for one interrupt after
the other.  The driver has one count and one start time for each error; the policy is
about the occurrences themselves, which are kept beside them.
-/

namespace HiMpu.TrngReset

def trngRstErrCnt : ℕ := 100

inductive Err
  | runFail
  | lrunFail
  | pokerFail
  | monobitFail
  | stuckNrbg
  | repcntFail
  | apropFail
  deriving DecidableEq

def Err.mask : Err → BitVec 32
  | .runFail => 1#32 <<< 4
  | .lrunFail => 1#32 <<< 5
  | .pokerFail => 1#32 <<< 6
  | .monobitFail => 1#32 <<< 7
  | .stuckNrbg => 1#32 <<< 9
  | .repcntFail => 1#32 <<< 13
  | .apropFail => 1#32 <<< 14

def errIntMaskList : List Err :=
  [.runFail, .lrunFail, .pokerFail, .monobitFail, .stuckNrbg, .repcntFail, .apropFail]

def Err.occurs (e : Err) (intSt : BitVec 32) : Bool := intSt &&& e.mask ≠ 0

/-- `trng_rst_err_cnt` and `trng_rst_err_time_start` of one error. -/
structure Record where
  cnt : ℕ
  timeStart : BitVec 64

abbrev Records := Err → Record

def timeBefore (a b : BitVec 64) : Bool := (a - b).msb

def Record.begun (r : Record) (curTime : BitVec 64) : BitVec 64 :=
  if r.timeStart = 0 then curTime else r.timeStart

/-- A round of the loop, and whether it sets `trng_rst_flag`; `period` is
`msecs_to_jiffies(TRNG_RST_ERR_CHK_PERIOD)`. -/
def checkErr (period : BitVec 64) (r : Record) (occurs : Bool) (curTime : BitVec 64) :
    Record × Bool :=
  let r := if occurs then ⟨r.cnt + 1, r.begun curTime⟩ else r
  if r.cnt < trngRstErrCnt then (r, false)
  else (⟨0, curTime⟩, timeBefore curTime (r.timeStart + period))

def trngCheckTrngNeedReset (period : BitVec 64) (records : Records) (intSt : BitVec 32)
    (curTime : BitVec 64) : Records × Bool :=
  errIntMaskList.foldl
    (fun acc e =>
      let (r, flag) := checkErr period (acc.1 e) (e.occurs intSt) curTime
      (Function.update acc.1 e r, acc.2 || flag))
    (records, false)

structure Event where
  intSt : BitVec 32
  time : BitVec 64

structure State where
  records : Records
  /-- When an error has occurred since the check returned true because of it. -/
  since : Err → List (BitVec 64)
  now : BitVec 64

def State.because (period : BitVec 64) (s : State) (ev : Event) (e : Err) : Bool :=
  (checkErr period (s.records e) (e.occurs ev.intSt) ev.time).2

def State.occurrences (s : State) (ev : Event) (e : Err) : List (BitVec 64) :=
  if e.occurs ev.intSt then ev.time :: s.since e else s.since e

def next (period : BitVec 64) (s : State) (ev : Event) : Option State :=
  if s.now ≤ ev.time then
    some {
      records := (trngCheckTrngNeedReset period s.records ev.intSt ev.time).1
      since := fun e => if s.because period ev e then [] else s.occurrences ev e
      now := ev.time }
  else none

def system (period : BitVec 64) : TransitionSystem State Event :=
  TransitionSystem.ofStep
    (fun s => (∀ e, s.records e = ⟨0, 0⟩) ∧ (∀ e, s.since e = [])) (next period)

def Recent (period now time : BitVec 64) : Prop := now.toNat < time.toNat + period.toNat

instance (period now time : BitVec 64) : Decidable (Recent period now time) :=
  inferInstanceAs (Decidable (_ < _))

def Due (period : BitVec 64) (s : State) (ev : Event) (e : Err) : Prop :=
  e.occurs ev.intSt = true ∧
    trngRstErrCnt ≤ (s.occurrences ev e).countP fun time => Recent period ev.time time

structure StepCorrect (period : BitVec 64) (s : State) (ev : Event) : Prop where
  resets : (trngCheckTrngNeedReset period s.records ev.intSt ev.time).2 = true ↔
    ∃ e, Due period s ev e
  independent : ∀ e (records : Records) intSt, records e = s.records e →
    e.occurs intSt = e.occurs ev.intSt →
      (trngCheckTrngNeedReset period records intSt ev.time).1 e =
        (trngCheckTrngNeedReset period s.records ev.intSt ev.time).1 e

/-- An error comes at a time other than 0, and when it is the hundredth one counted, within
the period from the start time. -/
def Allowed (period : BitVec 64) (s : State) (ev : Event) : Prop :=
  ∀ e, e.occurs ev.intSt = true → ev.time ≠ 0 ∧
    ((s.records e).cnt + 1 = trngRstErrCnt →
      Recent period ev.time ((s.records e).begun ev.time))

theorem foldl_check (period : BitVec 64) (intSt : BitVec 32) (curTime : BitVec 64) (l : List Err)
    (hnodup : l.Nodup) (records : Records) (flag : Bool) :
    (∀ e, (l.foldl (fun acc e =>
        let (r, flag) := checkErr period (acc.1 e) (e.occurs intSt) curTime
        (Function.update acc.1 e r, acc.2 || flag)) (records, flag)).1 e =
      if e ∈ l then (checkErr period (records e) (e.occurs intSt) curTime).1 else records e) ∧
    (l.foldl (fun acc e =>
        let (r, flag) := checkErr period (acc.1 e) (e.occurs intSt) curTime
        (Function.update acc.1 e r, acc.2 || flag)) (records, flag)).2 =
      (flag || l.any fun e => (checkErr period (records e) (e.occurs intSt) curTime).2) := by
  induction l generalizing records flag with
  | nil => simp
  | cons a l ih =>
    obtain ⟨hnot, hrest⟩ := List.nodup_cons.mp hnodup
    obtain ⟨hrecords, hflag⟩ := ih hrest
      (Function.update records a (checkErr period (records a) (a.occurs intSt) curTime).1)
      (flag || (checkErr period (records a) (a.occurs intSt) curTime).2)
    have hother : ∀ e ∈ l, Function.update records a
        (checkErr period (records a) (a.occurs intSt) curTime).1 e = records e := by
      intro e he
      have hne : e ≠ a := by
        rintro rfl
        exact hnot he
      exact Function.update_of_ne hne _ _
    constructor
    · intro e
      rw [List.foldl_cons, hrecords e]
      by_cases hmem : e ∈ l
      · rw [if_pos hmem, if_pos (List.mem_cons_of_mem a hmem), hother e hmem]
      · rw [if_neg hmem]
        by_cases heq : e = a
        · subst heq
          rw [Function.update_self, if_pos List.mem_cons_self]
        · rw [Function.update_of_ne heq, if_neg (by simp [heq, hmem])]
    · rw [List.foldl_cons, hflag, List.any_cons, Bool.or_assoc]
      congr 2
      apply Bool.eq_iff_iff.mpr
      simp only [List.any_eq_true]
      constructor
      · rintro ⟨e, he, hset⟩
        exact ⟨e, he, by rwa [hother e he] at hset⟩
      · rintro ⟨e, he, hset⟩
        exact ⟨e, he, by rwa [hother e he]⟩

theorem mem_errIntMaskList (e : Err) : e ∈ errIntMaskList := by
  cases e <;> decide

section Check

variable (period : BitVec 64) (records : Records) (intSt : BitVec 32) (curTime : BitVec 64)

theorem check_record (e : Err) :
    (trngCheckTrngNeedReset period records intSt curTime).1 e =
      (checkErr period (records e) (e.occurs intSt) curTime).1 := by
  have hloop := (foldl_check period intSt curTime errIntMaskList (by decide) records false).1 e
  rwa [if_pos (mem_errIntMaskList e)] at hloop

theorem check_flag :
    (trngCheckTrngNeedReset period records intSt curTime).2 = true ↔
      ∃ e, (checkErr period (records e) (e.occurs intSt) curTime).2 = true := by
  have hloop := (foldl_check period intSt curTime errIntMaskList (by decide) records false).2
  rw [Bool.false_or] at hloop
  unfold trngCheckTrngNeedReset
  rw [hloop, List.any_eq_true]
  constructor
  · rintro ⟨e, _, hset⟩
    exact ⟨e, hset⟩
  · rintro ⟨e, hset⟩
    exact ⟨e, mem_errIntMaskList e, hset⟩

theorem check_independent (e : Err) {records' : Records} {intSt' : BitVec 32}
    (hrecord : records' e = records e) (hbit : e.occurs intSt' = e.occurs intSt) :
    (trngCheckTrngNeedReset period records' intSt' curTime).1 e =
      (trngCheckTrngNeedReset period records intSt curTime).1 e := by
  rw [check_record, check_record, hrecord, hbit]

end Check

section Round

variable {period : BitVec 64} {r : Record} {curTime : BitVec 64}

theorem checkErr_quiet (hcnt : r.cnt < trngRstErrCnt) :
    checkErr period r false curTime = (r, false) := by
  unfold checkErr
  simp [hcnt]

theorem checkErr_count (hcnt : r.cnt + 1 < trngRstErrCnt) :
    checkErr period r true curTime = (⟨r.cnt + 1, r.begun curTime⟩, false) := by
  unfold checkErr
  simp [hcnt]

theorem checkErr_full (hcnt : r.cnt + 1 = trngRstErrCnt) :
    checkErr period r true curTime =
      (⟨0, curTime⟩, timeBefore curTime (r.begun curTime + period)) := by
  unfold checkErr
  simp [hcnt]

theorem checkErr_cnt_lt {occurs : Bool} :
    (checkErr period r occurs curTime).1.cnt < trngRstErrCnt := by
  have hpos : 0 < trngRstErrCnt := Nat.zero_lt_succ 99
  unfold checkErr
  cases occurs with
  | false => by_cases hcnt : r.cnt < trngRstErrCnt <;> simp [hcnt, hpos]
  | true => by_cases hcnt : r.cnt + 1 < trngRstErrCnt <;> simp [hcnt, hpos]

theorem timeBefore_of_recent {start : BitVec 64} (hperiod : period.toNat < 2 ^ 63)
    (hle : start ≤ curTime) (hrecent : Recent period curTime start) :
    timeBefore curTime (start + period) = true := by
  have hnat : start.toNat ≤ curTime.toNat := hle
  have hbound := curTime.isLt
  unfold Recent at hrecent
  unfold timeBefore
  rw [BitVec.msb_eq_decide, decide_eq_true_eq, BitVec.toNat_sub, BitVec.toNat_add]
  omega

theorem not_timeBefore_of_stale {start : BitVec 64}
    (hstale : start.toNat + period.toNat ≤ curTime.toNat)
    (hnear : curTime.toNat < start.toNat + period.toNat + 2 ^ 63) :
    timeBefore curTime (start + period) = false := by
  have hbound := curTime.isLt
  unfold timeBefore
  rw [BitVec.msb_eq_decide, decide_eq_false_iff_not, BitVec.toNat_sub, BitVec.toNat_add]
  omega

end Round

/-- The record of an error counts the occurrences since the last reset, and none of them is
before the start time. -/
structure Counted (s : State) (e : Err) : Prop where
  count : (s.since e).length = (s.records e).cnt
  below : (s.records e).cnt < trngRstErrCnt
  started : (s.records e).cnt ≠ 0 → (s.records e).timeStart ≠ 0
  startLe : (s.records e).timeStart ≤ s.now
  sinceStart : ∀ time ∈ s.since e, (s.records e).timeStart ≤ time

section Step

variable {period : BitVec 64} {s s' : State} {ev : Event} {e : Err}

theorem Counted.begun_le (hs : Counted s e) (hnow : s.now ≤ ev.time) :
    (s.records e).begun ev.time ≤ ev.time := by
  unfold Record.begun
  split
  · exact BitVec.le_refl _
  · exact BitVec.le_trans hs.startLe hnow

theorem Counted.begun_le_since (hs : Counted s e) {time : BitVec 64} (htime : time ∈ s.since e) :
    (s.records e).begun ev.time ≤ time := by
  have hpos : (s.records e).cnt ≠ 0 := by
    rw [← hs.count]
    exact List.length_pos_of_mem htime |>.ne'
  unfold Record.begun
  rw [if_neg (hs.started hpos)]
  exact hs.sinceStart time htime

theorem next_eq (hstep : next period s ev = some s') :
    s.now ≤ ev.time ∧ s'.now = ev.time ∧
      (∀ e, s'.records e = (checkErr period (s.records e) (e.occurs ev.intSt) ev.time).1) ∧
      ∀ e, s'.since e = if s.because period ev e then [] else s.occurrences ev e := by
  unfold next at hstep
  split at hstep
  next hnow =>
    cases hstep
    exact ⟨hnow, rfl, fun e => check_record period s.records ev.intSt ev.time e, fun _ => rfl⟩
  next => cases hstep

theorem because_iff_due (hperiod : period.toNat < 2 ^ 63) (hs : Counted s e)
    (hnow : s.now ≤ ev.time) (hallowed : Allowed period s ev) :
    s.because period ev e = true ↔ Due period s ev e := by
  have hbelow := hs.below
  unfold State.because Due State.occurrences
  cases hoccurs : e.occurs ev.intSt with
  | false => simp [checkErr_quiet hbelow]
  | true =>
    simp only [if_true, true_and]
    by_cases hfull : (s.records e).cnt + 1 = trngRstErrCnt
    · have hrecent := (hallowed e hoccurs).2 hfull
      have hall : ∀ time ∈ ev.time :: s.since e, Recent period ev.time time := by
        intro time hmem
        have hle : (s.records e).begun ev.time ≤ time := by
          rcases List.mem_cons.mp hmem with rfl | hmem
          · exact hs.begun_le hnow
          · exact hs.begun_le_since hmem
        have hnat : ((s.records e).begun ev.time).toNat ≤ time.toNat := hle
        unfold Recent at hrecent ⊢
        omega
      have hcount : (ev.time :: s.since e).countP (fun time => Recent period ev.time time) =
          (ev.time :: s.since e).length :=
        List.countP_eq_length.mpr fun time hmem => decide_eq_true (hall time hmem)
      rw [checkErr_full hfull, hcount, List.length_cons, hs.count, hfull]
      simp only [le_refl, iff_true]
      exact timeBefore_of_recent hperiod (hs.begun_le hnow) hrecent
    · have hless : (s.records e).cnt + 1 < trngRstErrCnt := by omega
      have hcount : (ev.time :: s.since e).countP (fun time => Recent period ev.time time) ≤
          (s.records e).cnt + 1 := by
        rw [← hs.count, ← List.length_cons]
        exact List.countP_le_length
      rw [checkErr_count hless]
      simp only [Bool.false_eq_true, false_iff]
      omega

theorem Counted.next (hperiod : period.toNat < 2 ^ 63) (hs : Counted s e)
    (hallowed : Allowed period s ev) (hstep : next period s ev = some s') : Counted s' e := by
  obtain ⟨hnow, htime, hrecords, hsince⟩ := next_eq hstep
  have hrecord := hrecords e
  have hlist := hsince e
  unfold State.because State.occurrences at hlist
  cases hoccurs : e.occurs ev.intSt with
  | false =>
    rw [hoccurs, checkErr_quiet hs.below] at hrecord hlist
    simp only [Bool.false_eq_true, if_false] at hlist
    have hstart := hs.startLe
    constructor
    · rw [hlist, hrecord, hs.count]
    · rw [hrecord]
      exact hs.below
    · rw [hrecord]
      exact hs.started
    · rw [hrecord, htime]
      exact BitVec.le_trans hs.startLe hnow
    · rw [hlist, hrecord]
      exact hs.sinceStart
  | true =>
    obtain ⟨hnonzero, hrecent⟩ := hallowed e hoccurs
    have hbegun : (s.records e).begun ev.time ≠ 0 := by
      unfold Record.begun
      split
      · exact hnonzero
      next hstart => exact hstart
    by_cases hfull : (s.records e).cnt + 1 = trngRstErrCnt
    · have hbefore := timeBefore_of_recent hperiod (hs.begun_le hnow) (hrecent hfull)
      rw [hoccurs, checkErr_full hfull] at hrecord hlist
      simp only [hbefore, if_true] at hlist
      constructor
      · rw [hlist, hrecord]
        rfl
      · rw [hrecord]
        exact Nat.zero_lt_succ 99
      · rw [hrecord]
        exact fun h => absurd rfl h
      · rw [hrecord, htime]
        exact BitVec.le_refl _
      · rw [hlist]
        intro time hmem
        cases hmem
    · have hbelow := hs.below
      have hless : (s.records e).cnt + 1 < trngRstErrCnt := by omega
      rw [hoccurs, checkErr_count hless] at hrecord hlist
      simp only [Bool.false_eq_true, if_false, if_true] at hlist
      constructor
      · rw [hlist, hrecord, List.length_cons, hs.count]
      · rw [hrecord]
        exact hless
      · rw [hrecord]
        exact fun _ => hbegun
      · rw [hrecord, htime]
        exact hs.begun_le hnow
      · rw [hlist, hrecord]
        intro time hmem
        rcases List.mem_cons.mp hmem with rfl | hmem
        · exact hs.begun_le hnow
        · exact hs.begun_le_since hmem

end Step

theorem counted_of_allowed {period : BitVec 64} (hperiod : period.toNat < 2 ^ 63) {s : State}
    (hreach : ((system period).restrict (Allowed period)).Reachable s) (e : Err) : Counted s e := by
  apply hreach.invariant (P := fun s => Counted s e)
  · intro s hinit
    obtain ⟨hrecords, hsince⟩ := hinit
    constructor
    · rw [hrecords e, hsince e]
      rfl
    · rw [hrecords e]
      decide
    · rw [hrecords e]
      exact fun h => absurd rfl h
    · rw [hrecords e]
      exact Nat.zero_le _
    · rw [hsince e]
      intro time hmem
      cases hmem
  · intro s ev s' _ hs hstep
    exact hs.next hperiod hstep.1 hstep.2

theorem step_correct_of_allowed (period : BitVec 64) (hperiod : period.toNat < 2 ^ 63) (s : State)
    (hreach : ((system period).restrict (Allowed period)).Reachable s) (ev : Event)
    (hnow : s.now ≤ ev.time) (hallowed : Allowed period s ev) : StepCorrect period s ev := by
  constructor
  · rw [check_flag]
    constructor
    · rintro ⟨e, hset⟩
      have hs := counted_of_allowed hperiod hreach e
      exact ⟨e, (because_iff_due hperiod hs hnow hallowed).mp hset⟩
    · rintro ⟨e, hdue⟩
      have hs := counted_of_allowed hperiod hreach e
      exact ⟨e, (because_iff_due hperiod hs hnow hallowed).mpr hdue⟩
  · intro e records intSt hrecord hbit
    exact check_independent period s.records ev.intSt ev.time e hrecord hbit

theorem occurs_mask (e e' : Err) : e'.occurs e.mask = decide (e' = e) := by
  cases e <;> cases e' <;> rfl

section Burst

variable {period t : BitVec 64} {s : State} {e : Err}

theorem next_count (hnow : s.now ≤ t) (hcnt : (s.records e).cnt + 1 < trngRstErrCnt) :
    ∃ s', next period s ⟨e.mask, t⟩ = some s' ∧ s'.now = t ∧
      s'.records e = ⟨(s.records e).cnt + 1, (s.records e).begun t⟩ ∧
      s'.since e = t :: s.since e := by
  have hsome : ∃ s', next period s ⟨e.mask, t⟩ = some s' := by
    unfold next
    rw [if_pos hnow]
    exact ⟨_, rfl⟩
  obtain ⟨s', hstep⟩ := hsome
  obtain ⟨_, htime, hrecords, hsince⟩ := next_eq hstep
  have hoccurs : e.occurs e.mask = true := by rw [occurs_mask, decide_eq_true rfl]
  have hrecord := hrecords e
  have hlist := hsince e
  unfold State.because State.occurrences at hlist
  rw [hoccurs, checkErr_count hcnt] at hrecord hlist
  exact ⟨s', hstep, htime, hrecord, hlist⟩

theorem reachable_burst {allowed : State → Event → Prop}
    (hall : ∀ s, (s.records e).cnt + 1 < trngRstErrCnt → allowed s ⟨e.mask, t⟩)
    (hreach : ((system period).restrict allowed).Reachable s) (hnow : s.now ≤ t) (n : ℕ)
    (hcnt : (s.records e).cnt + n < trngRstErrCnt) :
    ∃ s', ((system period).restrict allowed).Reachable s' ∧ s'.now ≤ t ∧
      (s'.records e).cnt = (s.records e).cnt + n ∧
      ((s.records e).timeStart ≠ 0 → (s'.records e).timeStart = (s.records e).timeStart) ∧
      s'.since e = List.replicate n t ++ s.since e := by
  induction n with
  | zero => exact ⟨s, hreach, hnow, rfl, fun _ => rfl, rfl⟩
  | succ n ih =>
    obtain ⟨s₁, hreach₁, hnow₁, hcnt₁, hstart₁, hsince₁⟩ := ih (by omega)
    have hless : (s₁.records e).cnt + 1 < trngRstErrCnt := by omega
    have hcount : ∃ s', next period s₁ ⟨e.mask, t⟩ = some s' ∧ s'.now = t ∧
        s'.records e = ⟨(s₁.records e).cnt + 1, (s₁.records e).begun t⟩ ∧
        s'.since e = t :: s₁.since e := next_count hnow₁ hless
    obtain ⟨s₂, hstep, htime, hrecord, hsince₂⟩ := hcount
    refine ⟨s₂, hreach₁.step (a := ⟨e.mask, t⟩) ⟨hall s₁ hless, hstep⟩, ?_, ?_, ?_, ?_⟩
    · rw [htime]
      exact BitVec.le_refl _
    · rw [hrecord, hcnt₁]
      rfl
    · intro hstart
      have hkept := hstart₁ hstart
      rw [hrecord]
      simp only [Record.begun, hkept, if_neg hstart]
    · rw [hsince₂, hsince₁]
      rfl

theorem allowed_count (hpos : t ≠ 0) (s : State)
    (hcnt : (s.records e).cnt + 1 < trngRstErrCnt) : Allowed period s ⟨e.mask, t⟩ := by
  intro e' hoccurs
  rw [occurs_mask, decide_eq_true_eq] at hoccurs
  subst hoccurs
  exact ⟨hpos, fun hfull => by omega⟩

theorem cnt_lt_of_reachable (hreach : (system period).Reachable s) (e : Err) :
    (s.records e).cnt < trngRstErrCnt := by
  apply hreach.invariant (P := fun s => (s.records e).cnt < trngRstErrCnt)
  · intro s hinit
    rw [hinit.1 e]
    exact Nat.zero_lt_succ 99
  · intro s ev s' _ hs hstep
    obtain ⟨_, _, hrecords, _⟩ := next_eq hstep
    rw [hrecords e]
    exact checkErr_cnt_lt

/-- A count that runs out after the period loses what it has counted: at most 99 more
occurrences at the same time are a hundred in no time, and the driver does not reset. -/
theorem stale_missed (hperiod : 0 < period.toNat) (hreach : (system period).Reachable s)
    {ev : Event} (hnow : s.now ≤ ev.time) (hoccurs : e.occurs ev.intSt = true)
    (hfull : (s.records e).cnt + 1 = trngRstErrCnt)
    (hstale : ((s.records e).begun ev.time).toNat + period.toNat ≤ ev.time.toNat)
    (hnear : ev.time.toNat < ((s.records e).begun ev.time).toNat + period.toNat + 2 ^ 63) :
    ∃ s', (system period).Reachable s' ∧ s'.now ≤ ev.time ∧
      ¬ StepCorrect period s' ⟨e.mask, ev.time⟩ := by
  have hlate := not_timeBefore_of_stale hstale hnear
  have hsome : ∃ s₁, next period s ev = some s₁ := by
    unfold next
    rw [if_pos hnow]
    exact ⟨_, rfl⟩
  obtain ⟨s₁, hstep⟩ := hsome
  have hreach₁ : (system period).Reachable s₁ := hreach.step (a := ev) hstep
  obtain ⟨_, htime, hrecords, hsince⟩ := next_eq hstep
  have hrecord := hrecords e
  have hlist := hsince e
  unfold State.because State.occurrences at hlist
  rw [hoccurs, checkErr_full hfull, hlate] at hlist
  rw [hoccurs, checkErr_full hfull] at hrecord
  simp only [Bool.false_eq_true, if_false, if_true] at hlist
  have hcnt : (s₁.records e).cnt = 0 := by rw [hrecord]
  have hfree : ((system period).restrict fun _ _ => True).Reachable s₁ :=
    hreach₁.restrict_of_forall fun _ _ => trivial
  obtain ⟨s₂, hreach₂, hnow₂, hcnt₂, _, hsince₂⟩ :=
    reachable_burst (e := e) (t := ev.time) (fun _ _ => trivial) hfree
      (by rw [htime]; exact BitVec.le_refl _) 98 (by rw [hcnt]; decide)
  refine ⟨s₂, hreach₂.of_restrict, hnow₂, fun hcorrect => ?_⟩
  have hmask : e.occurs e.mask = true := by rw [occurs_mask, decide_eq_true rfl]
  have hdue : Due period s₂ ⟨e.mask, ev.time⟩ e := by
    refine ⟨hmask, ?_⟩
    have hrecent : Recent period ev.time ev.time := by
      unfold Recent
      omega
    have hburst : List.replicate 100 ev.time <+: ev.time :: s₂.since e := by
      rw [hsince₂, hlist]
      exact ⟨s.since e, by simp [List.replicate_succ']⟩
    calc trngRstErrCnt = (List.replicate 100 ev.time).countP
          (fun time => Recent period ev.time time) := by
          rw [List.countP_replicate, if_pos (decide_eq_true hrecent)]
          rfl
      _ ≤ (s₂.occurrences ⟨e.mask, ev.time⟩ e).countP
          (fun time => Recent period ev.time time) := by
          unfold State.occurrences
          rw [if_pos hmask]
          exact hburst.sublist.countP_le
  obtain ⟨e', hset⟩ := (check_flag period s₂.records e.mask ev.time).mp
    (hcorrect.resets.mpr ⟨e, hdue⟩)
  have hbelow := cnt_lt_of_reachable hreach₂.of_restrict e'
  rw [occurs_mask] at hset
  by_cases heq : e' = e
  · subst heq
    have hless : (s₂.records e').cnt + 1 < trngRstErrCnt := by
      rw [hcnt₂, hcnt]
      decide
    rw [decide_eq_true rfl, checkErr_count hless] at hset
    cases hset
  · rw [decide_eq_false heq, checkErr_quiet hbelow] at hset
    cases hset

end Burst

def idle : State := ⟨fun _ => ⟨0, 0⟩, fun _ => [], 0⟩

def fiveMinutes : BitVec 64 := 75000

theorem reachable_idle {allowed : State → Event → Prop} :
    ((system fiveMinutes).restrict allowed).Reachable idle :=
  .init ⟨fun _ => rfl, fun _ => rfl⟩

theorem step_correct_of_allowed_burst :
    ∃ s, (trngCheckTrngNeedReset fiveMinutes s.records Err.runFail.mask 5).2 = true ∧
      StepCorrect fiveMinutes s ⟨Err.runFail.mask, 5⟩ := by
  have hcount : ∀ s : State, (s.records .runFail).cnt + 1 < trngRstErrCnt →
      Allowed fiveMinutes s ⟨Err.runFail.mask, 5⟩ := allowed_count (by decide)
  obtain ⟨s, hreach, hnow, _, _, hsince⟩ :=
    reachable_burst hcount reachable_idle (by decide) 99 (by decide)
  have hallowed : Allowed fiveMinutes s ⟨Err.runFail.mask, 5⟩ := by
    intro e _
    constructor
    · exact (by decide : (5 : BitVec 64) ≠ 0)
    · intro _
      have hperiod : fiveMinutes.toNat = 75000 := rfl
      have htime : (5 : BitVec 64).toNat = 5 := rfl
      exact (by omega : (5 : BitVec 64).toNat <
        ((s.records e).begun 5).toNat + fiveMinutes.toNat)
  have hcorrect := step_correct_of_allowed fiveMinutes (by decide) s hreach ⟨Err.runFail.mask, 5⟩
    hnow hallowed
  refine ⟨s, hcorrect.resets.mpr ⟨.runFail, by decide, ?_⟩, hcorrect⟩
  have hlist : s.occurrences ⟨Err.runFail.mask, 5⟩ .runFail = List.replicate 100 5 := by
    have hidle : idle.since .runFail = [] := rfl
    unfold State.occurrences
    rw [if_pos (by decide), hsince, hidle, List.append_nil]
    rfl
  rw [hlist, List.countP_replicate]
  decide

/-- An error at 1 and ninety-nine at 200000, the last of which is the hundredth counted: the
count begins anew, and another ninety-nine at 200000 do not reset. -/
theorem step_not_correct :
    ∃ s, (system fiveMinutes).Reachable s ∧ s.now ≤ 200000 ∧
      ¬ StepCorrect fiveMinutes s ⟨Err.runFail.mask, 200000⟩ := by
  have hfree : ∀ {s : State}, (system fiveMinutes).Reachable s →
      ((system fiveMinutes).restrict fun _ _ => True).Reachable s :=
    fun hreach => hreach.restrict_of_forall fun _ _ => trivial
  have hidle : (system fiveMinutes).Reachable idle := .init ⟨fun _ => rfl, fun _ => rfl⟩
  obtain ⟨s₁, hstep, hnow₁, hrecord, _⟩ : ∃ s', next fiveMinutes idle ⟨Err.runFail.mask, 1⟩ =
      some s' ∧ s'.now = 1 ∧ s'.records .runFail = ⟨1, 1⟩ ∧ s'.since .runFail = [1] :=
    next_count (by decide) (by decide)
  have hreach₁ : (system fiveMinutes).Reachable s₁ := hidle.step (a := ⟨Err.runFail.mask, 1⟩) hstep
  obtain ⟨s₂, hreach₂, hnow₂, hcnt₂, hstart₂, _⟩ :=
    reachable_burst (fun _ _ => trivial) (hfree hreach₁)
      (by rw [hnow₁]; decide : s₁.now ≤ 200000) 98 (by rw [hrecord]; decide)
  rw [hrecord] at hcnt₂ hstart₂
  have hbegun : (s₂.records .runFail).begun 200000 = 1 := by
    unfold Record.begun
    rw [hstart₂ (by decide)]
    rfl
  have hoccurs : Err.runFail.occurs (Event.mk Err.runFail.mask 200000).intSt = true := by decide
  exact stale_missed (by decide) hreach₂.of_restrict hnow₂ hoccurs (by rw [hcnt₂]; rfl)
    (by rw [hbegun]; decide) (by rw [hbegun]; decide)

end HiMpu.TrngReset
