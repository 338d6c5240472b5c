import HiMpu.TransitionSystem

/-!
# Alarms of the converters

`adc_irq_handler`, `adc_cmd_alarm_config` and `adc_cmd_get_alarm_msg` of `drivers/adc/adc_ker.c`.
The handler and the configuration hold `adc_lock`, so each is one step; reading the alarm
words, copying the message out and clearing the words are a step each.  The runs of the
handler are numbered, so that an alarm is a channel with the run that latched it.
-/

namespace HiMpu.AdcAlarm

def adcGroupMax : ℕ := 2
def adcCtrlChNum : ℕ := 8
def adcChannelNum : ℕ := 16
def adcAlarmTopMask : ℕ := 0xfff
def adcAlarmLowerShift : ℕ := 12
def adcIrqEnable : BitVec 32 := 0x1ff
def adcIrqDisable : BitVec 32 := 0

def eagain : ℤ := 11
def efault : ℤ := 14

/-- A channel, counted over both converters, and the run of the handler. -/
structure Latch where
  chan : ℕ
  run : ℕ
  deriving DecidableEq

def Latch.adc (l : Latch) : ℕ := l.chan / adcCtrlChNum

/-- Where a call of `adc_cmd_get_alarm_msg` stands; `copy` and `clear` come next. -/
inductive Get
  | idle
  | copy (msg : BitVec 32) (alarms : List Latch)
  | clear (status : ℤ)

structure State where
  gAlarmMsg : ℕ → BitVec 32
  alarmRegs : ℕ → ℕ → BitVec 32
  irqEn : ℕ → BitVec 32
  gets : ℕ → Get
  runs : ℕ
  latched : List Latch
  held : List Latch
  reports : List Latch
  configured : ℕ → ℕ

def adcAlarmMsg (gAlarmMsg : ℕ → BitVec 32) : BitVec 32 :=
  ((gAlarmMsg 1 &&& 0x100#32 ||| gAlarmMsg 0 &&& 0x100#32) <<< adcCtrlChNum) |||
    ((gAlarmMsg 1 &&& 0xff#32) <<< adcCtrlChNum) ||| (gAlarmMsg 0 &&& 0xff#32)

def latches (id run : ℕ) (irqSt : BitVec 32) : List Latch :=
  ((List.range adcCtrlChNum).filter fun c => irqSt.getLsbD c).map
    fun c => ⟨id * adcCtrlChNum + c, run⟩

def survives (id : ℕ) (irqSt : BitVec 32) (l : Latch) : Bool :=
  l.adc ≠ id || irqSt.getLsbD (l.chan % adcCtrlChNum)

def adcIrqHandler (s : State) (id : ℕ) (irqSt : BitVec 32) : State :=
  { s with
    gAlarmMsg := Function.update s.gAlarmMsg id irqSt
    irqEn := Function.update s.irqEn id adcIrqDisable
    runs := s.runs + 1
    latched := s.latched ++ latches id s.runs irqSt
    held := s.held.filter (survives id irqSt) ++ latches id s.runs irqSt }

structure Alarm where
  chanId : ℕ
  lowerLimit : ℕ
  topLimit : ℕ

def adcAlarmConfig (s : State) (alarm : Alarm) : State :=
  let id := alarm.chanId / adcCtrlChNum
  let limits := BitVec.ofNat 32 alarm.topLimit &&& BitVec.ofNat 32 adcAlarmTopMask |||
    BitVec.ofNat 32 alarm.lowerLimit <<< adcAlarmLowerShift
  { s with
    alarmRegs := Function.update s.alarmRegs id
      (Function.update (s.alarmRegs id) (alarm.chanId % adcCtrlChNum) limits)
    gAlarmMsg := Function.update s.gAlarmMsg id 0
    irqEn := Function.update s.irqEn id adcIrqEnable
    held := s.held.filter fun l => l.adc ≠ id
    configured := Function.update s.configured alarm.chanId s.runs }

def Alarm.valid (alarm : Alarm) : Prop :=
  alarm.chanId < adcChannelNum ∧ alarm.lowerLimit < alarm.topLimit ∧
    alarm.topLimit ≤ adcAlarmTopMask

instance (alarm : Alarm) : Decidable alarm.valid := by
  unfold Alarm.valid
  infer_instance

def adcCmdAlarmConfig (s : State) (alarm : Option Alarm) : State × ℤ :=
  match alarm with
  | none => (s, -eagain)
  | some alarm => if alarm.valid then (adcAlarmConfig s alarm, 0) else (s, -efault)

def adcCmdGetAlarmMsg (s : State) (call : ℕ) (fault : Bool) : State :=
  match s.gets call with
  | .idle =>
    { s with gets := Function.update s.gets call (.copy (adcAlarmMsg s.gAlarmMsg) s.held) }
  | .copy _ alarms =>
    if fault then { s with gets := Function.update s.gets call (.clear (-eagain)) }
    else { s with
      gets := Function.update s.gets call (.clear 0), reports := s.reports ++ alarms }
  | .clear _ =>
    { s with
      gets := Function.update s.gets call .idle
      gAlarmMsg := Function.update (Function.update s.gAlarmMsg 0 0) 1 0
      held := [] }

inductive Action
  | irq (id : ℕ) (irqSt : BitVec 32)
  | config (alarm : Option Alarm)
  | get (call : ℕ) (fault : Bool)

def next (s : State) : Action → Option State
  | .irq id irqSt => if id < adcGroupMax then some (adcIrqHandler s id irqSt) else none
  | .config alarm => some (adcCmdAlarmConfig s alarm).1
  | .get call fault => some (adcCmdGetAlarmMsg s call fault)

def system : TransitionSystem State Action :=
  TransitionSystem.ofStep
    (fun s => (∀ id, s.gAlarmMsg id = 0) ∧ (∀ call, s.gets call = .idle) ∧ s.runs = 0 ∧
      s.latched = [] ∧ s.held = [] ∧ s.reports = [] ∧ ∀ c, s.configured c = 0) next

/-- Nothing is promised about an alarm from before the configuration of its channel. -/
def State.Excused (s : State) (l : Latch) : Prop := l.run < s.configured l.chan

def State.Owed (s : State) (l : Latch) : Prop := ¬ s.Excused l ∧ l ∉ s.reports

/-- An alarm is in one message at most, and until then in the alarm words, for the next. -/
structure AlarmsOk (s : State) : Prop where
  once : ∀ l ∈ s.latched, ¬ s.Excused l → s.reports.count l ≤ 1
  kept : ∀ l ∈ s.latched, s.Owed l → l ∈ s.held

/-- The words, and the messages on their way, show the alarms; bit 16 of a message is for
either converter. -/
structure Represented (s : State) : Prop where
  words : ∀ c < adcChannelNum,
    (s.gAlarmMsg (c / adcCtrlChNum)).getLsbD (c % adcCtrlChNum) = true ↔
      ∃ l ∈ s.held, l.chan = c
  messages : ∀ call msg alarms, s.gets call = .copy msg alarms →
    ∀ c < adcChannelNum, msg.getLsbD c = true ↔ ∃ l ∈ alarms, l.chan = c
  flag : ∀ w : ℕ → BitVec 32,
    (adcAlarmMsg w).getLsbD 16 = ((w 0).getLsbD 8 || (w 1).getLsbD 8)

/-- No step takes an alarm out of the words that is still owed, except for the configured
channel's own; and no alarm is copied out twice. -/
def Allowed (s : State) : Action → Prop
  | .irq id irqSt => ∀ l ∈ s.held, s.Owed l → survives id irqSt l = true
  | .config none => True
  | .config (some alarm) =>
    alarm.valid → ∀ l ∈ s.held, s.Owed l →
      l.adc = alarm.chanId / adcCtrlChNum → l.chan = alarm.chanId
  | .get call fault =>
    match s.gets call with
    | .idle => True
    | .copy _ alarms => fault = false → ∀ l ∈ alarms, l ∈ s.reports → s.Excused l
    | .clear _ => ∀ l ∈ s.held, ¬ s.Owed l

theorem adcAlarmMsg_chan (w : ℕ → BitVec 32) {c : ℕ} (hc : c < adcChannelNum) :
    (adcAlarmMsg w).getLsbD c = (w (c / adcCtrlChNum)).getLsbD (c % adcCtrlChNum) := by
  unfold adcChannelNum at hc
  unfold adcAlarmMsg adcCtrlChNum
  interval_cases c <;> simp

theorem adcAlarmMsg_flag (w : ℕ → BitVec 32) :
    (adcAlarmMsg w).getLsbD 16 = ((w 0).getLsbD 8 || (w 1).getLsbD 8) := by
  unfold adcAlarmMsg adcCtrlChNum
  simp [Bool.or_comm]

theorem mem_latches {id run : ℕ} {irqSt : BitVec 32} {l : Latch} :
    l ∈ latches id run irqSt ↔
      l.run = run ∧ l.adc = id ∧ irqSt.getLsbD (l.chan % adcCtrlChNum) = true := by
  have hpos : 0 < adcCtrlChNum := by decide
  simp only [latches, List.mem_map, List.mem_filter, List.mem_range]
  constructor
  · rintro ⟨c, ⟨hc, hbit⟩, rfl⟩
    refine ⟨rfl, ?_, ?_⟩
    · rw [Latch.adc, Nat.mul_comm, Nat.mul_add_div hpos, Nat.div_eq_of_lt hc, Nat.add_zero]
    · rwa [Nat.mul_add_mod_self_right, Nat.mod_eq_of_lt hc]
  · rintro ⟨rfl, rfl, hbit⟩
    refine ⟨l.chan % adcCtrlChNum, ⟨Nat.mod_lt _ hpos, hbit⟩, ?_⟩
    rw [Latch.adc, Nat.div_add_mod']

theorem latches_nodup (id run : ℕ) (irqSt : BitVec 32) : (latches id run irqSt).Nodup := by
  refine (List.nodup_range.filter _).map ?_
  intro c d h
  simpa using h

theorem survives_iff {id : ℕ} {irqSt : BitVec 32} {l : Latch} :
    survives id irqSt l = true ↔
      (l.adc = id → irqSt.getLsbD (l.chan % adcCtrlChNum) = true) := by
  simp [survives, or_iff_not_imp_left]

structure Wf (s : State) : Prop where
  words : ∀ c < adcChannelNum,
    (s.gAlarmMsg (c / adcCtrlChNum)).getLsbD (c % adcCtrlChNum) = true ↔
      ∃ l ∈ s.held, l.chan = c
  messages : ∀ call msg alarms, s.gets call = .copy msg alarms →
    (∀ c < adcChannelNum, msg.getLsbD c = true ↔ ∃ l ∈ alarms, l.chan = c) ∧
      alarms.Nodup ∧ ∀ l ∈ alarms, l ∈ s.latched
  held : s.held.Nodup ∧ ∀ l ∈ s.held, l ∈ s.latched
  reports : ∀ l ∈ s.reports, l ∈ s.latched
  fresh : ∀ l ∈ s.latched, l.run < s.runs

theorem Wf.represented {s : State} (h : Wf s) : Represented s where
  words := h.words
  messages call msg alarms hget := (h.messages call msg alarms hget).1
  flag := adcAlarmMsg_flag

section Steps

variable {s s' : State}

theorem messages_update {call : ℕ} {get : Get} {P : BitVec 32 → List Latch → Prop}
    (hget : ∀ msg alarms, get ≠ .copy msg alarms)
    (h : ∀ call msg alarms, s.gets call = .copy msg alarms → P msg alarms) :
    ∀ d msg alarms, Function.update s.gets call get d = .copy msg alarms → P msg alarms := by
  intro d msg alarms hd
  by_cases hdc : d = call
  · rw [hdc, Function.update_self] at hd
    exact absurd hd (hget msg alarms)
  · rw [Function.update_of_ne hdc] at hd
    exact h d msg alarms hd

theorem Wf.irq (h : Wf s) {id : ℕ} (irqSt : BitVec 32) : Wf (adcIrqHandler s id irqSt) where
  words c hc := by
    simp only [adcIrqHandler, List.mem_append, List.mem_filter, mem_latches]
    by_cases hid : c / adcCtrlChNum = id
    · subst hid
      rw [Function.update_self]
      constructor
      · exact fun hbit => ⟨⟨c, s.runs⟩, Or.inr ⟨rfl, rfl, hbit⟩, rfl⟩
      · rintro ⟨l, ⟨-, hl⟩ | ⟨-, -, hl⟩, rfl⟩
        · exact survives_iff.mp hl rfl
        · exact hl
    · rw [Function.update_of_ne hid, h.words c hc]
      constructor
      · rintro ⟨l, hl, rfl⟩
        exact ⟨l, Or.inl ⟨hl, survives_iff.mpr fun h => absurd h hid⟩, rfl⟩
      · rintro ⟨l, ⟨hl, -⟩ | ⟨-, hl, -⟩, rfl⟩
        · exact ⟨l, hl, rfl⟩
        · exact absurd hl hid
  messages call msg alarms hget := by
    obtain ⟨hbits, hnodup, hsub⟩ := h.messages call msg alarms hget
    exact ⟨hbits, hnodup, fun l hl => List.mem_append_left _ (hsub l hl)⟩
  held := by
    refine ⟨?_, ?_⟩
    · refine List.nodup_append'.mpr ⟨h.held.1.filter _, latches_nodup _ _ _, ?_⟩
      intro l hl hnew
      have hrun := h.fresh l (h.held.2 l (List.mem_of_mem_filter hl))
      rw [(mem_latches.mp hnew).1] at hrun
      exact lt_irrefl _ hrun
    · intro l hl
      rcases List.mem_append.mp hl with hl | hl
      · exact List.mem_append_left _ (h.held.2 l (List.mem_of_mem_filter hl))
      · exact List.mem_append_right _ hl
  reports l hl := List.mem_append_left _ (h.reports l hl)
  fresh l hl := by
    rcases List.mem_append.mp hl with hl | hl
    · exact Nat.lt_succ_of_lt (h.fresh l hl)
    · rw [(mem_latches.mp hl).1]
      exact Nat.lt_succ_self _

theorem Wf.config (h : Wf s) (alarm : Alarm) : Wf (adcAlarmConfig s alarm) where
  words c hc := by
    simp only [adcAlarmConfig, List.mem_filter, decide_eq_true_eq]
    by_cases hid : c / adcCtrlChNum = alarm.chanId / adcCtrlChNum
    · rw [hid, Function.update_self]
      refine iff_of_false (by simp) ?_
      rintro ⟨l, ⟨-, hl⟩, rfl⟩
      exact hl hid
    · rw [Function.update_of_ne hid, h.words c hc]
      constructor
      · rintro ⟨l, hl, rfl⟩
        exact ⟨l, ⟨hl, hid⟩, rfl⟩
      · rintro ⟨l, ⟨hl, -⟩, rfl⟩
        exact ⟨l, hl, rfl⟩
  messages := h.messages
  held := ⟨h.held.1.filter _, fun l hl => h.held.2 l (List.mem_of_mem_filter hl)⟩
  reports := h.reports
  fresh := h.fresh

theorem Wf.get (h : Wf s) (call : ℕ) (fault : Bool) : Wf (adcCmdGetAlarmMsg s call fault) := by
  unfold adcCmdGetAlarmMsg
  split
  next =>
    refine ⟨h.words, ?_, h.held, h.reports, h.fresh⟩
    intro d msg alarms hd
    by_cases hdc : d = call
    · simp only [hdc, Function.update_self, Get.copy.injEq] at hd
      obtain ⟨rfl, rfl⟩ := hd
      refine ⟨fun c hc => ?_, h.held⟩
      rw [adcAlarmMsg_chan _ hc]
      exact h.words c hc
    · simp only [Function.update_of_ne hdc] at hd
      exact h.messages d msg alarms hd
  next msg alarms hcall =>
    split
    next =>
      exact ⟨h.words, messages_update (fun _ _ => Get.noConfusion) h.messages, h.held, h.reports,
        h.fresh⟩
    next =>
      refine ⟨h.words, messages_update (fun _ _ => Get.noConfusion) h.messages, h.held, ?_,
        h.fresh⟩
      intro l hl
      rcases List.mem_append.mp hl with hl | hl
      · exact h.reports l hl
      · exact (h.messages call msg alarms hcall).2.2 l hl
  next =>
    refine ⟨?_, messages_update (fun _ _ => Get.noConfusion) h.messages, ⟨List.nodup_nil, by simp⟩,
      h.reports, h.fresh⟩
    intro c hc
    refine iff_of_false ?_ (by simp)
    have hc2 : c / adcCtrlChNum = 0 ∨ c / adcCtrlChNum = 1 := by
      unfold adcChannelNum at hc
      unfold adcCtrlChNum
      omega
    rcases hc2 with hc2 | hc2 <;> simp [hc2]

theorem Wf.next {a : Action} (h : Wf s) (hstep : next s a = some s') : Wf s' := by
  cases a with
  | irq id irqSt =>
    simp only [AdcAlarm.next] at hstep
    split at hstep
    · cases hstep
      exact h.irq irqSt
    · cases hstep
  | config alarm =>
    simp only [AdcAlarm.next, adcCmdAlarmConfig] at hstep
    cases hstep
    split
    · exact h
    · split
      · exact h.config _
      · exact h
  | get call fault =>
    cases hstep
    exact h.get call fault

theorem irq_alarmsOk_iff (h : Wf s) (hok : AlarmsOk s) (id : ℕ) (irqSt : BitVec 32) :
    AlarmsOk (adcIrqHandler s id irqSt) ↔ Allowed s (.irq id irqSt) := by
  have hnew : ∀ l ∈ s.latched, l ∉ latches id s.runs irqSt := by
    intro l hl hmem
    have hrun := h.fresh l hl
    rw [(mem_latches.mp hmem).1] at hrun
    exact lt_irrefl _ hrun
  constructor
  · intro hok' l hl howed
    have hlatched := h.held.2 l hl
    rcases List.mem_append.mp (hok'.kept l (List.mem_append_left _ hlatched) howed) with hl' | hl'
    · exact (List.mem_filter.mp hl').2
    · exact absurd hl' (hnew l hlatched)
  · intro hall
    constructor
    · intro l hl hexcused
      rcases List.mem_append.mp hl with hl | hl
      · exact hok.once l hl hexcused
      · have hnone : l ∉ s.reports := fun hreport => hnew l (h.reports l hreport) hl
        exact (List.count_eq_zero_of_not_mem hnone).trans_le (Nat.zero_le 1)
    · intro l hl howed
      rcases List.mem_append.mp hl with hl | hl
      · have hheld := hok.kept l hl howed
        exact List.mem_append_left _ (List.mem_filter.mpr ⟨hheld, hall l hheld howed⟩)
      · exact List.mem_append_right _ hl

theorem config_alarmsOk_iff (h : Wf s) (hok : AlarmsOk s) {alarm : Alarm} :
    AlarmsOk (adcAlarmConfig s alarm) ↔
      ∀ l ∈ s.held, s.Owed l → l.adc = alarm.chanId / adcCtrlChNum → l.chan = alarm.chanId := by
  have hexcused : ∀ l ∈ s.latched,
      (adcAlarmConfig s alarm).Excused l ↔ l.chan = alarm.chanId ∨ s.Excused l := by
    intro l hl
    simp only [State.Excused, adcAlarmConfig]
    by_cases hchan : l.chan = alarm.chanId
    · rw [hchan, Function.update_self]
      exact iff_of_true (h.fresh l hl) (Or.inl rfl)
    · rw [Function.update_of_ne hchan, or_iff_right hchan]
  have hreports : (adcAlarmConfig s alarm).reports = s.reports := rfl
  constructor
  · intro hok' l hl howed hadc
    by_contra hchan
    have hlatched := h.held.2 l hl
    have howed' : (adcAlarmConfig s alarm).Owed l := by
      refine ⟨fun hex => ?_, howed.2⟩
      rcases (hexcused l hlatched).mp hex with hex | hex
      · exact hchan hex
      · exact howed.1 hex
    have hheld := (List.mem_filter.mp (hok'.kept l hlatched howed')).2
    exact of_decide_eq_true hheld hadc
  · intro hall
    constructor
    · intro l hl hex
      exact hok.once l hl fun hs => hex ((hexcused l hl).mpr (Or.inr hs))
    · intro l hl howed
      have howed' : s.Owed l :=
        ⟨fun hs => howed.1 ((hexcused l hl).mpr (Or.inr hs)), howed.2⟩
      have hheld := hok.kept l hl howed'
      refine List.mem_filter.mpr ⟨hheld, decide_eq_true fun hadc => howed.1 ?_⟩
      exact (hexcused l hl).mpr (Or.inl (hall l hheld howed' hadc))

theorem report_alarmsOk_iff (hok : AlarmsOk s) {gets : ℕ → Get} {alarms : List Latch}
    (hnodup : alarms.Nodup) (hsub : ∀ l ∈ alarms, l ∈ s.latched) :
    AlarmsOk { s with gets := gets, reports := s.reports ++ alarms } ↔
      ∀ l ∈ alarms, l ∈ s.reports → s.Excused l := by
  have hone : ∀ l ∈ alarms, alarms.count l = 1 := fun l hl =>
    List.count_eq_one_of_mem hnodup hl
  constructor
  · intro hok' l hl hreport
    by_contra hexcused
    have hcount := hok'.once l (hsub l hl) hexcused
    simp only [List.count_append, hone l hl] at hcount
    have hpos := List.count_pos_iff.mpr hreport
    omega
  · intro hall
    constructor
    · intro l hl hexcused
      have hcount := hok.once l hl hexcused
      simp only [List.count_append]
      by_cases hmem : l ∈ alarms
      · have hnone : l ∉ s.reports := fun hreport => hexcused (hall l hmem hreport)
        rw [List.count_eq_zero_of_not_mem hnone, hone l hmem]
      · rw [List.count_eq_zero_of_not_mem hmem]
        exact hcount
    · intro l hl howed
      refine hok.kept l hl ⟨howed.1, fun hreport => howed.2 ?_⟩
      exact List.mem_append_left _ hreport

theorem clear_alarmsOk_iff (h : Wf s) (hok : AlarmsOk s) {gets : ℕ → Get}
    {gAlarmMsg : ℕ → BitVec 32} :
    AlarmsOk { s with gets := gets, gAlarmMsg := gAlarmMsg, held := [] } ↔
      ∀ l ∈ s.held, ¬ s.Owed l := by
  constructor
  · intro hok' l hl howed
    exact absurd (hok'.kept l (h.held.2 l hl) howed) (by simp)
  · intro hall
    refine ⟨hok.once, fun l hl howed => ?_⟩
    exact absurd howed (hall l (hok.kept l hl howed))

theorem step_alarmsOk_iff {a : Action} (h : Wf s) (hok : AlarmsOk s)
    (hstep : next s a = some s') : AlarmsOk s' ↔ Allowed s a := by
  cases a with
  | irq id irqSt =>
    simp only [AdcAlarm.next] at hstep
    split at hstep
    · cases hstep
      exact irq_alarmsOk_iff h hok id irqSt
    · cases hstep
  | config alarm =>
    cases hstep
    cases alarm with
    | none => exact iff_of_true hok trivial
    | some alarm =>
      simp only [adcCmdAlarmConfig, Allowed]
      by_cases hvalid : alarm.valid
      · rw [if_pos hvalid, forall_prop_of_true hvalid]
        exact config_alarmsOk_iff h hok
      · rw [if_neg hvalid]
        exact iff_of_true hok fun hv => absurd hv hvalid
  | get call fault =>
    cases hstep
    cases hget : s.gets call with
    | idle =>
      simp only [adcCmdGetAlarmMsg, Allowed, hget]
      exact iff_of_true ⟨hok.once, hok.kept⟩ trivial
    | copy msg alarms =>
      obtain ⟨-, hnodup, hsub⟩ := h.messages call msg alarms hget
      simp only [adcCmdGetAlarmMsg, Allowed, hget]
      cases fault with
      | true =>
        rw [if_pos rfl]
        exact iff_of_true ⟨hok.once, hok.kept⟩ fun hf => by cases hf
      | false =>
        rw [if_neg Bool.false_ne_true, forall_prop_of_true rfl]
        exact report_alarmsOk_iff hok hnodup hsub
    | clear status =>
      simp only [adcCmdGetAlarmMsg, Allowed, hget]
      exact clear_alarmsOk_iff h hok

end Steps

theorem wf_of_reachable {s : State} (hreach : system.Reachable s) : Wf s := by
  apply hreach.invariant
  · rintro s ⟨hwords, hgets, hruns, hlatched, hheld, hreports, -⟩
    refine ⟨fun c _ => ?_, fun call msg alarms hget => ?_, ?_, ?_, ?_⟩
    · simp [hwords, hheld]
    · rw [hgets] at hget
      cases hget
    · simp [hheld]
    · simp [hreports]
    · simp [hlatched]
  · intro s a s' _ h hstep
    exact h.next hstep

/-- In a run of allowed steps every alarm is delivered, once; and a further step keeps this
exactly when it is allowed. -/
theorem alarmsOk_of_allowed {s : State} (hreach : (system.restrict Allowed).Reachable s) :
    Represented s ∧ AlarmsOk s ∧
      ∀ a s', next s a = some s' → (AlarmsOk s' ↔ Allowed s a) := by
  have hwf : ∀ {s}, (system.restrict Allowed).Reachable s → Wf s := fun hr =>
    wf_of_reachable hr.of_restrict
  have hok : AlarmsOk s := by
    apply hreach.invariant
    · rintro s ⟨-, -, -, hlatched, -⟩
      constructor <;> simp [hlatched]
    · rintro s a s' hr hok ⟨hallowed, hstep⟩
      exact (step_alarmsOk_iff (hwf hr) hok hstep).mpr hallowed
  exact ⟨(hwf hreach).represented, hok, fun a s' => step_alarmsOk_iff (hwf hreach) hok⟩

instance (s : State) (l : Latch) : Decidable (s.Owed l) :=
  inferInstanceAs (Decidable (¬ l.run < s.configured l.chan ∧ l ∉ s.reports))

instance decidableAllowed (s : State) : (a : Action) → Decidable (Allowed s a)
  | .irq id irqSt =>
    inferInstanceAs (Decidable (∀ l ∈ s.held, s.Owed l → survives id irqSt l = true))
  | .config none => .isTrue trivial
  | .config (some alarm) =>
    inferInstanceAs (Decidable (alarm.valid → ∀ l ∈ s.held, s.Owed l →
      l.adc = alarm.chanId / adcCtrlChNum → l.chan = alarm.chanId))
  | .get call fault =>
    match hget : s.gets call with
    | .idle => .isTrue (by simp only [Allowed, hget])
    | .copy _ alarms =>
      decidable_of_iff (fault = false → ∀ l ∈ alarms, l ∈ s.reports →
        l.run < s.configured l.chan) (by simp only [Allowed, hget, State.Excused])
    | .clear _ =>
      decidable_of_iff (∀ l ∈ s.held, ¬ s.Owed l) (by simp only [Allowed, hget])

def probed : State where
  gAlarmMsg := fun _ => 0
  alarmRegs := fun _ _ => 0
  irqEn := fun _ => adcIrqEnable
  gets := fun _ => .idle
  runs := 0
  latched := []
  held := []
  reports := []
  configured := fun _ => 0

theorem alarmsOk_of_allowed_get :
    ∃ s, TransitionSystem.runSteps (TransitionSystem.guarded Allowed next) probed
      [.irq 0 0x108, .irq 1 0x110, .get 0 false, .get 0 false, .get 0 false,
        .config (some ⟨3, 0, 5⟩)] = some s ∧ Represented s ∧ s.reports = [⟨3, 0⟩, ⟨12, 1⟩] ∧
      AlarmsOk s := by
  refine ⟨_, rfl, ?_⟩
  have hok := alarmsOk_of_allowed (TransitionSystem.Reachable.runGuarded
    (l := [.irq 0 0x108, .irq 1 0x110, .get 0 false, .get 0 false, .get 0 false,
      .config (some ⟨3, 0, 5⟩)])
    (TransitionSystem.Reachable.init (s := probed)
      ⟨fun _ => rfl, fun _ => rfl, rfl, rfl, rfl, rfl, fun _ => rfl⟩) rfl)
  exact ⟨hok.1, by decide, hok.2.1⟩

/-- Two channels of a converter, of which one is configured; an alarm after the read and
before the clear; a copy that fails; and two calls that read the same words. -/
theorem alarms_break :
    (∃ s, TransitionSystem.runSteps next probed
      [.irq 0 0x103, .config (some ⟨1, 0, 5⟩)] = some s ∧ ¬ AlarmsOk s) ∧
    (∃ s, TransitionSystem.runSteps next probed
      [.get 0 false, .irq 0 0x101, .get 0 false, .get 0 false] = some s ∧ ¬ AlarmsOk s) ∧
    (∃ s, TransitionSystem.runSteps next probed
      [.irq 0 0x101, .get 0 false, .get 0 true, .get 0 false] = some s ∧ ¬ AlarmsOk s) ∧
    (∃ s, TransitionSystem.runSteps next probed
      [.irq 0 0x101, .get 0 false, .get 1 false, .get 0 false, .get 1 false] = some s ∧
        ¬ AlarmsOk s) ∧
    system.Reachable probed := by
  refine ⟨⟨_, rfl, fun h => ?_⟩, ⟨_, rfl, fun h => ?_⟩, ⟨_, rfl, fun h => ?_⟩,
    ⟨_, rfl, fun h => ?_⟩, .init ⟨fun _ => rfl, fun _ => rfl, rfl, rfl, rfl, rfl, fun _ => rfl⟩⟩
  · exact absurd (h.kept ⟨0, 0⟩ (by decide) (by decide)) (by decide)
  · exact absurd (h.kept ⟨0, 0⟩ (by decide) (by decide)) (by decide)
  · exact absurd (h.kept ⟨0, 0⟩ (by decide) (by decide)) (by decide)
  · exact absurd (h.once ⟨0, 0⟩ (by decide) (by simp [State.Excused]; decide)) (by decide)

end HiMpu.AdcAlarm
