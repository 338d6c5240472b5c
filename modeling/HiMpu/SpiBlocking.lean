import HiMpu.BmTypes
import HiMpu.TransitionSystem

/-!
# Blocking SPI transfers

`bm_spi_write`, `bm_spi_read` and `bm_spi_write_read` of `drivers/spi/spi.c`.  A step reads
one register, and what it gives is arbitrary; the loops go round as often as the registers
make them.
-/

namespace HiMpu.SpiBlocking

def spiMaxCtl : ℕ := 2
def spiMaxCs : ℕ := 2
def serRegValueNonSlave : ℕ := 0

abbrev Byte := BitVec 8

structure Board where
  exist : ℕ → Bool
  initFlag : ℕ → Bool
  invalidAddrLen : ℕ → ℕ → Bool

structure Handle where
  spiId : ℕ
  csId : ℕ

structure Data where
  rBuf : ℕ
  rLen : ℕ
  wBuf : ℕ
  wLen : ℕ
  timeOut : ℕ

inductive Mode where
  | tx
  | rx
  | txRx
deriving DecidableEq

structure Call where
  mode : Mode
  handle : Option Handle
  data : Option Data
  wBytes : ℕ → Byte
  rBytes : ℕ → Byte
  ctrlr0 : BitVec 32

/-! ## Checks -/

def bmSpiHandleParaCheck (B : Board) : Option Handle → ℤ
  | none => bmFail
  | some handle =>
    if spiMaxCtl ≤ handle.spiId ∨ spiMaxCs ≤ handle.csId then bmFail
    else if !B.initFlag handle.spiId then bmFail
    else if !B.exist handle.spiId then bmFail
    else bmOk

def Call.frameLen (c : Call) : ℕ := c.ctrlr0.toNat % 16

def Call.unit (c : Call) : ℕ := if c.frameLen = 0xf then 2 else 1

def bmSpiFrameLenCheck (c : Call) (len : ℕ) : Bool :=
  c.frameLen == 0xf && len % 2 != 0

def Call.bufRefused (B : Board) (c : Call) (buf len : ℕ) : Bool :=
  buf == 0 || len == 0 || bmSpiFrameLenCheck c len || B.invalidAddrLen (buf % 2 ^ 32) len

def bmSpiTransferParaCheck (B : Board) (c : Call) : ℤ :=
  if bmSpiHandleParaCheck B c.handle = bmFail then bmFail
  else
    match c.data with
    | none => bmFail
    | some data =>
      let ret :=
        match c.mode with
        | .tx => c.bufRefused B data.wBuf data.wLen
        | .rx => c.bufRefused B data.rBuf data.rLen
        | .txRx => c.bufRefused B data.wBuf data.wLen || c.bufRefused B data.rBuf data.rLen
      if ret then bmFail else bmOk

inductive Phase where
  | write
  | read
deriving DecidableEq

inductive Pc where
  | called
  | lock
  | loop (phase : Phase)
  | idle (phase : Phase) (uTimeout : ℕ)
  | returned (ret : ℤ)
deriving DecidableEq

structure State where
  /-- `SER` and `SSIENR` of the controller. -/
  ser : ℕ
  ssienr : ℕ
  sem : ℕ
  written : List ℕ
  popped : List (BitVec 32)
  rBytes : ℕ → Byte
  length : ℕ
  i : ℕ
  pc : Pc
  /-- `SER` and the semaphore as they were at the call. -/
  ser₀ : ℕ
  sem₀ : ℕ
  locked : Bool
  /-- What `bm_spi_wait_idle` read from `SR` after the loop that writes. -/
  statuses : List (BitVec 32)

def Call.csId (c : Call) : ℕ := (c.handle.map Handle.csId).getD 0
def Call.wLen (c : Call) : ℕ := (c.data.map Data.wLen).getD 0
def Call.rLen (c : Call) : ℕ := (c.data.map Data.rLen).getD 0

def Call.uTimeout (c : Call) : ℕ := (c.data.map Data.timeOut).getD 0 * 1000 % 2 ^ 32

def bmSpiCsControl (B : Board) (c : Call) (s : State) (select : Bool) : State :=
  if bmSpiHandleParaCheck B c.handle = bmFail then s
  else { s with ser := if select then 1 <<< c.csId else serRegValueNonSlave }

def Call.writeFrame (c : Call) (i : ℕ) : ℕ :=
  if c.frameLen = 0xf then (c.wBytes i).toNat + 256 * (c.wBytes (i + 1)).toNat
  else (c.wBytes i).toNat

def Call.readFrame (c : Call) (rBytes : ℕ → Byte) (i : ℕ) (val : BitVec 32) : ℕ → Byte :=
  if c.frameLen = 0xf then
    Function.update (Function.update rBytes i (val.setWidth 8)) (i + 1) ((val >>> 8).setWidth 8)
  else Function.update rBytes i (val.setWidth 8)

def loopHead (c : Call) (s : State) (phase : Phase) : State :=
  { s with pc := if s.length ≠ 0 then .loop phase else .idle phase c.uTimeout }

def bmSpiDisable (s : State) : State := { s with ssienr := 0 }
def bmSpiEnable (s : State) : State := { s with ssienr := 1 }

def begin (B : Board) (c : Call) (s : State) : State :=
  let s := { s with sem := s.sem - 1, locked := true }
  match c.mode with
  | .tx => loopHead c { bmSpiCsControl B c s true with length := c.wLen, i := 0 } .write
  | .txRx =>
    -- both FIFOs are cleared
    let s := bmSpiEnable (bmSpiDisable s)
    loopHead c { bmSpiCsControl B c s true with length := c.wLen, i := 0 } .write
  | .rx => loopHead c { bmSpiCsControl B c s true with length := c.rLen, i := 0 } .read

def leave (B : Board) (c : Call) (s : State) (ret : ℤ) : State :=
  let s := bmSpiCsControl B c s false
  { s with sem := s.sem + 1, pc := .returned ret }

def waited (B : Board) (c : Call) (s : State) (phase : Phase) (ret : ℤ) : State :=
  match c.mode, phase with
  | .txRx, .write =>
    if ret ≠ bmOk then { s with sem := s.sem + 1, pc := .returned ret }
    else loopHead c { s with length := c.rLen, i := 0 } .read
  | _, _ => leave B c s ret

def State.note (s : State) (phase : Phase) (val : BitVec 32) : State :=
  match phase with
  | .write => { s with statuses := s.statuses ++ [val] }
  | .read => s

/-- The next step.  `val` is what the register that it reads gives, and `data` what `DR0`
gives; `down` is whether the semaphore comes in time. -/
def step (B : Board) (c : Call) (s : State) (val data : BitVec 32) (down : Bool) :
    Option State :=
  match s.pc with
  | .returned _ => none
  | .called =>
    some { s with
      pc := if bmSpiTransferParaCheck B c = bmFail then .returned bmFail else .lock }
  | .lock =>
    some (if down ∧ 0 < s.sem then begin B c s else { s with pc := .returned bmFail })
  | .loop .write =>
    some (loopHead c (
      if val = 0 then
        { s with
          written := s.written ++ [c.writeFrame s.i]
          length := s.length - c.unit
          i := s.i + c.unit }
      else s) .write)
  | .loop .read =>
    some (loopHead c (
      if val ≠ 0 then
        { s with
          popped := s.popped ++ [data]
          rBytes := c.readFrame s.rBytes s.i data
          length := s.length - c.unit
          i := s.i + c.unit }
      else s) .read)
  | .idle phase uTimeout =>
    some (
      if uTimeout = 0 then waited B c s phase bmFail
      else if val.getLsbD 0 then { s.note phase val with pc := .idle phase (uTimeout - 1) }
      else waited B c (s.note phase val) phase bmOk)

structure Input where
  val : BitVec 32
  data : BitVec 32
  down : Bool

def initial (c : Call) (s : State) : Prop :=
  s.pc = .called ∧ s.ser = s.ser₀ ∧ s.sem = s.sem₀ ∧ s.written = [] ∧ s.popped = [] ∧
    s.rBytes = c.rBytes ∧ s.locked = false ∧ s.statuses = []

def system (B : Board) (c : Call) : TransitionSystem State Input :=
  TransitionSystem.ofStep (initial c) fun s e => step B c s e.val e.data e.down

/-! ## What a caller may expect -/

def Call.frames (c : Call) : List ℕ :=
  if c.mode = .rx then [] else (List.range (c.wLen / c.unit)).map fun k => c.writeFrame (k * c.unit)

def Call.poppedByte (c : Call) (popped : List (BitVec 32)) (j : ℕ) : Byte :=
  ((popped.getD (j / c.unit) 0) >>> (8 * (j % c.unit))).setWidth 8

structure Correct (c : Call) (s : State) (ret : ℤ) : Prop where
  written : s.written = if s.locked then c.frames else []
  within : s.popped.length * c.unit ≤ if c.mode = .tx then 0 else c.rLen
  inOrder : ∀ j, s.rBytes j =
    if j < s.popped.length * c.unit then c.poppedByte s.popped j else c.rBytes j
  filled : ret = bmOk → c.mode ≠ .tx → s.popped.length * c.unit = c.rLen
  deselected : s.ser = if s.locked then serRegValueNonSlave else s.ser₀
  released : s.sem = s.sem₀

def SawIdle (s : State) : Prop := ∃ val ∈ s.statuses, val.getLsbD 0 = false

structure Untouched (c : Call) (s : State) : Prop where
  ser : s.ser = s.ser₀
  sem : s.sem = s.sem₀
  written : s.written = []
  popped : s.popped = []
  rBytes : s.rBytes = c.rBytes
  locked : s.locked = false
  statuses : s.statuses = []

structure Checked (B : Board) (c : Call) : Prop where
  handle : bmSpiHandleParaCheck B c.handle ≠ bmFail
  wLen : c.mode ≠ .rx → c.unit ∣ c.wLen
  rLen : c.mode ≠ .tx → c.unit ∣ c.rLen

structure Holding (c : Call) (s : State) : Prop where
  locked : s.locked = true
  sem : s.sem + 1 = s.sem₀
  ser : s.ser = 1 <<< c.csId

structure Writing (B : Board) (c : Call) (s : State) : Prop where
  checked : Checked B c
  holding : Holding c s
  mode : c.mode ≠ .rx
  place : s.i = s.written.length * c.unit
  rest : s.i + s.length = c.wLen
  written : s.written = (List.range s.written.length).map fun k => c.writeFrame (k * c.unit)
  popped : s.popped = []
  rBytes : s.rBytes = c.rBytes

def Stored (c : Call) (s : State) : Prop :=
  ∀ j, s.rBytes j = if j < s.popped.length * c.unit then c.poppedByte s.popped j else c.rBytes j

structure Reading (B : Board) (c : Call) (s : State) : Prop where
  checked : Checked B c
  holding : Holding c s
  mode : c.mode ≠ .tx
  place : s.i = s.popped.length * c.unit
  rest : s.i + s.length = c.rLen
  stored : Stored c s
  written : s.written = c.frames
  sawIdle : c.mode = .txRx → SawIdle s

structure Returned (c : Call) (s : State) (ret : ℤ) : Prop where
  written : s.written = if s.locked then c.frames else []
  within : s.popped.length * c.unit ≤ if c.mode = .tx then 0 else c.rLen
  stored : Stored c s
  filled : ret = bmOk → c.mode ≠ .tx → s.popped.length * c.unit = c.rLen
  released : s.sem = s.sem₀
  untouched : s.locked = false → s.ser = s.ser₀
  deselected : s.locked = true → (c.mode = .txRx → SawIdle s) → s.ser = serRegValueNonSlave
  selected : s.locked = true → c.mode = .txRx → ¬ SawIdle s → s.ser = 1 <<< c.csId

def Inv (B : Board) (c : Call) (s : State) : Prop :=
  match s.pc with
  | .called => Untouched c s
  | .lock => Untouched c s ∧ Checked B c
  | .loop .write => Writing B c s ∧ s.length ≠ 0 ∧ ¬ SawIdle s
  | .idle .write _ => Writing B c s ∧ s.length = 0 ∧ ¬ SawIdle s
  | .loop .read => Reading B c s ∧ s.length ≠ 0
  | .idle .read _ => Reading B c s ∧ s.length = 0
  | .returned ret => Returned c s ret

variable {B : Board} {c : Call} {s s' : State} {ret : ℤ} {k : ℕ}

theorem Call.unit_pos (c : Call) : 0 < c.unit := by
  unfold Call.unit
  split <;> omega

theorem not_sawIdle_nil (hnil : s.statuses = []) : ¬ SawIdle s := by
  rintro ⟨val, hmem, -⟩
  rw [hnil] at hmem
  exact List.not_mem_nil hmem

theorem unit_dvd_of_passed {len : ℕ} (hpass : bmSpiFrameLenCheck c len = false) :
    c.unit ∣ len := by
  unfold bmSpiFrameLenCheck at hpass
  unfold Call.unit
  split
  next hwide =>
    rw [hwide] at hpass
    simp only [beq_self_eq_true, Bool.true_and, bne_eq_false_iff_eq] at hpass
    exact Nat.dvd_of_mod_eq_zero hpass
  next => exact one_dvd len

theorem checked_of_para (hpass : bmSpiTransferParaCheck B c ≠ bmFail) : Checked B c := by
  unfold bmSpiTransferParaCheck at hpass
  split at hpass
  next => exact absurd rfl hpass
  next hhandle =>
    split at hpass
    next => exact absurd rfl hpass
    next data hdata =>
      have hw : c.wLen = data.wLen := by simp [Call.wLen, hdata]
      have hr : c.rLen = data.rLen := by simp [Call.rLen, hdata]
      have hbuf : ∀ buf len, c.bufRefused B buf len = false → c.unit ∣ len := by
        intro buf len hok
        unfold Call.bufRefused at hok
        simp only [Bool.or_eq_false_iff] at hok
        exact unit_dvd_of_passed hok.1.2
      have hno := Bool.eq_false_of_not_eq_true fun h => hpass (if_pos h)
      refine ⟨hhandle, fun hmode => ?_, fun hmode => ?_⟩
      · rw [hw]
        cases hcase : c.mode with
        | rx => exact absurd hcase hmode
        | tx =>
          rw [hcase] at hno
          exact hbuf _ _ hno
        | txRx =>
          rw [hcase] at hno
          exact hbuf _ _ (Bool.or_eq_false_iff.mp hno).1
      · rw [hr]
        cases hcase : c.mode with
        | tx => exact absurd hcase hmode
        | rx =>
          rw [hcase] at hno
          exact hbuf _ _ hno
        | txRx =>
          rw [hcase] at hno
          exact hbuf _ _ (Bool.or_eq_false_iff.mp hno).2

/-! ## Frames -/

theorem unit_le_length {total i length n : ℕ} (hdvd : c.unit ∣ total) (hplace : i = n * c.unit)
    (hrest : i + length = total) (hsome : length ≠ 0) : c.unit ≤ length := by
  have hlength : c.unit ∣ length := by
    have hi : c.unit ∣ i := ⟨n, by rw [hplace, mul_comm]⟩
    exact (Nat.dvd_add_right hi).mp (hrest ▸ hdvd)
  exact Nat.le_of_dvd (Nat.pos_of_ne_zero hsome) hlength

theorem Writing.push (h : Writing B c s) (hsome : s.length ≠ 0) :
    Writing B c { s with
      written := s.written ++ [c.writeFrame s.i]
      length := s.length - c.unit
      i := s.i + c.unit } := by
  have hle := unit_le_length (h.checked.wLen h.mode) h.place h.rest hsome
  have hrest := h.rest
  have hlen : (s.written ++ [c.writeFrame s.i]).length = s.written.length + 1 := by
    rw [List.length_append, List.length_singleton]
  refine ⟨h.checked, ⟨h.holding.locked, h.holding.sem, h.holding.ser⟩, h.mode, ?_, ?_, ?_,
    h.popped, h.rBytes⟩
  · change s.i + c.unit = (s.written ++ [c.writeFrame s.i]).length * c.unit
    rw [hlen, h.place, Nat.succ_mul]
  · change s.i + c.unit + (s.length - c.unit) = c.wLen
    omega
  · change s.written ++ [c.writeFrame s.i] =
      (List.range (s.written ++ [c.writeFrame s.i]).length).map _
    rw [hlen, List.range_succ, List.map_append, List.map_singleton, ← h.written, h.place]

theorem Writing.frames (h : Writing B c s) (hzero : s.length = 0) : s.written = c.frames := by
  have hrest := h.rest
  have hlen : c.wLen / c.unit = s.written.length := by
    rw [← hrest, hzero, h.place, Nat.add_zero, Nat.mul_div_cancel _ c.unit_pos]
  rw [Call.frames, if_neg h.mode, hlen]
  exact h.written

theorem readFrame_stored {val : BitVec 32} (h : Stored c s) (hplace : s.i = s.popped.length * c.unit) :
    Stored c { s with
      popped := s.popped ++ [val]
      rBytes := c.readFrame s.rBytes s.i val
      length := s.length - c.unit
      i := s.i + c.unit } := by
  intro j
  have hlen : (s.popped ++ [val]).length = s.popped.length + 1 := by
    rw [List.length_append, List.length_singleton]
  change c.readFrame s.rBytes s.i val j =
    if j < (s.popped ++ [val]).length * c.unit then c.poppedByte (s.popped ++ [val]) j
    else c.rBytes j
  rw [hlen, Nat.succ_mul, ← hplace]
  have hpos := c.unit_pos
  by_cases hold : j < s.i
  · have hkeep : c.readFrame s.rBytes s.i val j = s.rBytes j := by
      unfold Call.readFrame
      split
      · rw [Function.update_of_ne (by omega), Function.update_of_ne (by omega)]
      · rw [Function.update_of_ne (by omega)]
    have hindex : j / c.unit < s.popped.length := by
      rw [Nat.div_lt_iff_lt_mul hpos, ← hplace]
      exact hold
    rw [hkeep, h j, ← hplace, if_pos hold, if_pos (by omega)]
    unfold Call.poppedByte
    rw [List.getD_eq_getElem?_getD, List.getD_eq_getElem?_getD,
      List.getElem?_append_left hindex]
  · by_cases hnew : j < s.i + c.unit
    · rw [if_pos hnew]
      have hindex : j / c.unit = s.popped.length ∧ j % c.unit = j - s.i := by
        have hj : j = s.popped.length * c.unit + (j - s.i) := by omega
        have hsmall : j - s.i < c.unit := by omega
        constructor
        · rw [hj, mul_comm, Nat.mul_add_div hpos, Nat.div_eq_of_lt hsmall, Nat.add_zero]
        · rw [hj, Nat.mul_add_mod_self_right, Nat.mod_eq_of_lt hsmall]
          omega
      have hval : (s.popped ++ [val]).getD s.popped.length 0 = val := by
        rw [List.getD_eq_getElem?_getD, List.getElem?_concat_length]
        rfl
      unfold Call.poppedByte
      rw [hindex.1, hindex.2, hval]
      unfold Call.readFrame
      unfold Call.unit at hnew
      split
      next hwide =>
        rw [if_pos hwide] at hnew
        have hcases : j = s.i ∨ j = s.i + 1 := by omega
        rcases hcases with rfl | rfl
        · rw [Function.update_of_ne (by omega), Function.update_self, Nat.sub_self]
          rfl
        · rw [Function.update_self, Nat.add_sub_cancel_left]
      next hnarrow =>
        rw [if_neg hnarrow] at hnew
        have hcases : j = s.i := by omega
        rw [hcases, Function.update_self, Nat.sub_self]
        rfl
    · have hkeep : c.readFrame s.rBytes s.i val j = s.rBytes j := by
        unfold Call.unit at hnew
        unfold Call.readFrame
        split
        next hwide =>
          rw [if_pos hwide] at hnew
          rw [Function.update_of_ne (by omega), Function.update_of_ne (by omega)]
        next hnarrow =>
          rw [if_neg hnarrow] at hnew
          rw [Function.update_of_ne (by omega)]
      rw [hkeep, h j, ← hplace, if_neg hold, if_neg hnew]

theorem Reading.pop (h : Reading B c s) (hsome : s.length ≠ 0) (val : BitVec 32) :
    Reading B c { s with
      popped := s.popped ++ [val]
      rBytes := c.readFrame s.rBytes s.i val
      length := s.length - c.unit
      i := s.i + c.unit } := by
  have hle := unit_le_length (h.checked.rLen h.mode) h.place h.rest hsome
  have hrest := h.rest
  refine ⟨h.checked, ⟨h.holding.locked, h.holding.sem, h.holding.ser⟩, h.mode, ?_, ?_,
    readFrame_stored h.stored h.place, h.written, h.sawIdle⟩
  · change s.i + c.unit = (s.popped ++ [val]).length * c.unit
    rw [List.length_append, List.length_singleton, h.place, Nat.succ_mul]
  · change s.i + c.unit + (s.length - c.unit) = c.rLen
    omega

theorem Writing.loopHead (h : Writing B c s) (hidle : ¬ SawIdle s) :
    Inv B c (loopHead c s .write) := by
  have hsame : Writing B c (SpiBlocking.loopHead c s .write) :=
    ⟨h.checked, ⟨h.holding.locked, h.holding.sem, h.holding.ser⟩, h.mode, h.place, h.rest,
      h.written, h.popped, h.rBytes⟩
  by_cases hzero : s.length = 0
  · have hpc : (SpiBlocking.loopHead c s .write).pc = .idle .write c.uTimeout :=
      if_neg (not_not.mpr hzero)
    unfold Inv
    rw [hpc]
    exact ⟨hsame, hzero, hidle⟩
  · have hpc : (SpiBlocking.loopHead c s .write).pc = .loop .write := if_pos hzero
    unfold Inv
    rw [hpc]
    exact ⟨hsame, hzero, hidle⟩

theorem Reading.loopHead (h : Reading B c s) : Inv B c (loopHead c s .read) := by
  have hsame : Reading B c (SpiBlocking.loopHead c s .read) :=
    ⟨h.checked, ⟨h.holding.locked, h.holding.sem, h.holding.ser⟩, h.mode, h.place, h.rest,
      h.stored, h.written, h.sawIdle⟩
  by_cases hzero : s.length = 0
  · have hpc : (SpiBlocking.loopHead c s .read).pc = .idle .read c.uTimeout :=
      if_neg (not_not.mpr hzero)
    unfold Inv
    rw [hpc]
    exact ⟨hsame, hzero⟩
  · have hpc : (SpiBlocking.loopHead c s .read).pc = .loop .read := if_pos hzero
    unfold Inv
    rw [hpc]
    exact ⟨hsame, hzero⟩

theorem Stored.of_nil (hpopped : s.popped = []) (hbytes : s.rBytes = c.rBytes) :
    Stored c s := by
  intro j
  rw [hpopped, hbytes, List.length_nil, Nat.zero_mul, if_neg (Nat.not_lt_zero j)]

theorem popped_le (hpopped : s.popped = []) (n : ℕ) : s.popped.length * c.unit ≤ n := by
  rw [hpopped, List.length_nil, Nat.zero_mul]
  exact Nat.zero_le n

theorem Untouched.refused (h : Untouched c s) :
    Inv B c { s with pc := .returned bmFail } := by
  have hfail : bmFail ≠ bmOk := by decide
  have hlocked : s.locked = true → False := fun htrue => by
    rw [h.locked] at htrue
    cases htrue
  refine ⟨?_, ?_, Stored.of_nil h.popped h.rBytes, fun hret => absurd hret hfail, h.sem,
    fun _ => h.ser, fun htrue => (hlocked htrue).elim, fun htrue => (hlocked htrue).elim⟩
  · rw [if_neg hlocked]
    exact h.written
  · exact popped_le h.popped _

theorem bmSpiCsControl_checked (h : Checked B c) (select : Bool) :
    bmSpiCsControl B c s select =
      { s with ser := if select then 1 <<< c.csId else serRegValueNonSlave } :=
  if_neg h.handle

theorem Untouched.begin (h : Untouched c s) (hchecked : Checked B c) (hsem : 0 < s.sem) :
    Inv B c (begin B c s) := by
  have hhold : s.sem - 1 + 1 = s.sem₀ := by
    have hsame := h.sem
    omega
  have hidle : ∀ t : State, t.statuses = s.statuses → ¬ SawIdle t := by
    intro t ht
    exact not_sawIdle_nil (ht.trans h.statuses)
  unfold SpiBlocking.begin
  simp only [bmSpiCsControl_checked hchecked, if_true]
  cases hmode : c.mode with
  | tx =>
    have hne : c.mode ≠ .rx := by rw [hmode]; decide
    refine Writing.loopHead ⟨hchecked, ⟨rfl, hhold, rfl⟩, hne, ?_, Nat.zero_add _, ?_,
      h.popped, h.rBytes⟩ (hidle _ rfl) <;> simp [h.written]
  | txRx =>
    have hne : c.mode ≠ .rx := by rw [hmode]; decide
    refine Writing.loopHead ⟨hchecked, ⟨rfl, hhold, rfl⟩, hne, ?_, Nat.zero_add _, ?_,
      h.popped, h.rBytes⟩ (hidle _ rfl) <;> simp [bmSpiEnable, bmSpiDisable, h.written]
  | rx =>
    have hne : c.mode ≠ .tx := by rw [hmode]; decide
    refine Reading.loopHead ⟨hchecked, ⟨rfl, hhold, rfl⟩, hne, ?_, Nat.zero_add _,
      Stored.of_nil h.popped h.rBytes, ?_, fun hboth => ?_⟩
    · simp [h.popped]
    · exact h.written.trans (if_pos hmode).symm
    · rw [hmode] at hboth
      cases hboth

theorem Writing.leave (h : Writing B c s) (hzero : s.length = 0) (hmode : c.mode = .tx) :
    Inv B c (leave B c s ret) := by
  unfold SpiBlocking.leave
  rw [bmSpiCsControl_checked h.checked]
  refine ⟨?_, ?_, Stored.of_nil h.popped h.rBytes, fun _ hne => absurd hmode hne,
    h.holding.sem, fun hfalse => ?_, fun _ _ => rfl, fun _ hboth => ?_⟩
  · exact (h.frames hzero).trans (if_pos h.holding.locked).symm
  · exact popped_le h.popped _
  · exact absurd (h.holding.locked.symm.trans hfalse) (by decide)
  · rw [hmode] at hboth
    cases hboth

theorem Reading.leave (h : Reading B c s) (hzero : s.length = 0) :
    Inv B c (leave B c s ret) := by
  have hall : s.popped.length * c.unit = c.rLen := by
    rw [← h.place, ← h.rest, hzero, Nat.add_zero]
  unfold SpiBlocking.leave
  rw [bmSpiCsControl_checked h.checked]
  refine ⟨?_, ?_, h.stored, fun _ _ => hall, h.holding.sem, fun hfalse => ?_,
    fun _ _ => rfl, fun _ hboth hnot => absurd (h.sawIdle hboth) hnot⟩
  · exact h.written.trans (if_pos h.holding.locked).symm
  · rw [if_neg h.mode]
    exact hall.le
  · exact absurd (h.holding.locked.symm.trans hfalse) (by decide)

theorem Writing.timedOut (h : Writing B c s) (hzero : s.length = 0) (hidle : ¬ SawIdle s)
    (hmode : c.mode = .txRx) (hret : ret ≠ bmOk) :
    Inv B c { s with sem := s.sem + 1, pc := .returned ret } := by
  refine ⟨?_, ?_, Stored.of_nil h.popped h.rBytes, fun hok => absurd hok hret,
    h.holding.sem, fun hfalse => ?_, fun _ hsaw => absurd (hsaw hmode) hidle,
    fun _ _ _ => h.holding.ser⟩
  · exact (h.frames hzero).trans (if_pos h.holding.locked).symm
  · exact popped_le h.popped _
  · exact absurd (h.holding.locked.symm.trans hfalse) (by decide)

theorem Writing.waited (h : Writing B c s) (hzero : s.length = 0)
    (hret : ret = bmOk ∧ SawIdle s ∨ ret ≠ bmOk ∧ ¬ SawIdle s) :
    Inv B c (waited B c s .write ret) := by
  unfold SpiBlocking.waited
  cases hmode : c.mode with
  | rx => exact absurd hmode h.mode
  | tx => exact h.leave hzero hmode
  | txRx =>
    have hne : c.mode ≠ .tx := by rw [hmode]; decide
    rcases hret with ⟨hok, hsaw⟩ | ⟨hfail, hnot⟩
    · simp only [hok, ne_eq, not_true_eq_false, if_false]
      refine Reading.loopHead ⟨h.checked,
        ⟨h.holding.locked, h.holding.sem, h.holding.ser⟩, hne, ?_, Nat.zero_add _,
        Stored.of_nil h.popped h.rBytes, h.frames hzero, fun _ => hsaw⟩
      simp [h.popped]
    · simp only [hfail, ne_eq, not_false_eq_true, if_true]
      exact h.timedOut hzero hnot hmode hfail

theorem Reading.waited (h : Reading B c s) (hzero : s.length = 0) :
    Inv B c (waited B c s .read ret) := by
  have hcall : SpiBlocking.waited B c s .read ret = SpiBlocking.leave B c s ret := by
    unfold SpiBlocking.waited
    cases c.mode <;> rfl
  rw [hcall]
  exact h.leave hzero

theorem Writing.note (h : Writing B c s) (val : BitVec 32) :
    Writing B c (s.note .write val) :=
  ⟨h.checked, ⟨h.holding.locked, h.holding.sem, h.holding.ser⟩, h.mode, h.place, h.rest,
    h.written, h.popped, h.rBytes⟩

theorem sawIdle_note (hnot : ¬ SawIdle s) (val : BitVec 32) :
    SawIdle (s.note .write val) ↔ val.getLsbD 0 = false := by
  constructor
  · rintro ⟨v, hmem, hv⟩
    rcases List.mem_append.mp hmem with hold | hnew
    · exact absurd ⟨v, hold, hv⟩ hnot
    · rwa [List.mem_singleton.mp hnew] at hv
  · intro hval
    exact ⟨val, List.mem_append_right _ (List.mem_singleton_self val), hval⟩

theorem Inv.step {val data : BitVec 32} {down : Bool} (h : Inv B c s)
    (hstep : step B c s val data down = some s') : Inv B c s' := by
  have hfail : bmFail ≠ bmOk := by decide
  unfold Inv at h
  unfold SpiBlocking.step at hstep
  split at hstep
  next => cases hstep
  next hpc =>
    rw [hpc] at h
    cases hstep
    split
    next => exact Untouched.refused h
    next hpass =>
      exact ⟨⟨h.ser, h.sem, h.written, h.popped, h.rBytes, h.locked, h.statuses⟩,
        checked_of_para hpass⟩
  next hpc =>
    rw [hpc] at h
    cases hstep
    split
    next hdown => exact h.1.begin h.2 hdown.2
    next => exact h.1.refused
  next hpc =>
    rw [hpc] at h
    cases hstep
    obtain ⟨hwriting, hsome, hidle⟩ := h
    split
    next => exact (hwriting.push hsome).loopHead hidle
    next => exact hwriting.loopHead hidle
  next hpc =>
    rw [hpc] at h
    cases hstep
    obtain ⟨hreading, hsome⟩ := h
    split
    next => exact (hreading.pop hsome data).loopHead
    next => exact hreading.loopHead
  next phase uTimeout hpc =>
    rw [hpc] at h
    cases hstep
    cases phase with
    | write =>
      obtain ⟨hwriting, hzero, hidle⟩ := h
      split
      next => exact hwriting.waited hzero (Or.inr ⟨hfail, hidle⟩)
      next =>
        split
        next hbusy =>
          refine ⟨⟨hwriting.checked, ⟨hwriting.holding.locked, hwriting.holding.sem,
            hwriting.holding.ser⟩, hwriting.mode, hwriting.place, hwriting.rest,
            hwriting.written, hwriting.popped, hwriting.rBytes⟩, hzero, ?_⟩
          rintro hsaw
          have hval := (sawIdle_note hidle val).mp hsaw
          rw [hbusy] at hval
          cases hval
        next hquiet =>
          have hval := Bool.eq_false_of_not_eq_true hquiet
          exact (hwriting.note val).waited hzero (Or.inl ⟨rfl, (sawIdle_note hidle val).mpr hval⟩)
    | read =>
      obtain ⟨hreading, hzero⟩ := h
      split
      next => exact hreading.waited hzero
      next =>
        split
        next =>
          exact ⟨⟨hreading.checked, ⟨hreading.holding.locked, hreading.holding.sem,
            hreading.holding.ser⟩, hreading.mode, hreading.place, hreading.rest,
            hreading.stored, hreading.written, hreading.sawIdle⟩, hzero⟩
        next => exact hreading.waited hzero

theorem inv_of_reachable (hreach : (system B c).Reachable s) : Inv B c s := by
  refine hreach.invariant (fun s hinit => ?_) fun s e s' _ h hstep => h.step hstep
  obtain ⟨hpc, hser, hsem, hwritten, hpopped, hbytes, hlocked, hstatuses⟩ := hinit
  unfold Inv
  rw [hpc]
  exact ⟨hser, hsem, hwritten, hpopped, hbytes, hlocked, hstatuses⟩

/-- A call that returns has done what it was called for and left nothing behind, if and
only if a call of `bm_spi_write_read` that had the semaphore saw the controller idle after
the frames were written. -/
theorem transfer_correct_iff (B : Board) (c : Call) (s : State) (ret : ℤ)
    (hreach : (system B c).Reachable s) (hpc : s.pc = .returned ret) :
    Correct c s ret ↔ (s.locked = true → c.mode = .txRx → SawIdle s) := by
  have hinv := inv_of_reachable hreach
  unfold Inv at hinv
  rw [hpc] at hinv
  have hreturned : Returned c s ret := hinv
  constructor
  · intro hcorrect hlocked hmode
    by_contra hnot
    have hselected := hreturned.selected hlocked hmode hnot
    have hnone := hcorrect.deselected
    rw [if_pos hlocked, hselected, Nat.one_shiftLeft] at hnone
    exact absurd hnone (Nat.two_pow_pos _).ne'
  · intro hsaw
    refine ⟨hreturned.written, hreturned.within, hreturned.stored, hreturned.filled, ?_,
      hreturned.released⟩
    split
    next hlocked => exact hreturned.deselected hlocked (hsaw hlocked)
    next hlocked => exact hreturned.untouched (Bool.eq_false_of_not_eq_true hlocked)

/-! ### Two calls -/

def board : Board := ⟨fun _ => true, fun _ => true, fun _ _ => false⟩

def exchange (timeOut : ℕ) : Call where
  mode := .txRx
  handle := some ⟨0, 1⟩
  data := some ⟨0x90000000, 2, 0x90000010, 2, timeOut⟩
  wBytes := fun i => if i = 0 then 0xCD else 0xAB
  rBytes := fun _ => 0
  ctrlr0 := 0xf

def atRest : State := ⟨0, 1, 1, [], [], fun _ => 0, 0, 0, .called, 0, 1, false, []⟩

def promptRun : List Input :=
  [⟨0, 0, true⟩, ⟨0, 0, true⟩, ⟨0, 0, true⟩, ⟨0, 0, true⟩, ⟨1, 0x1234, true⟩, ⟨0, 0, true⟩]

def hastyRun : List Input :=
  [⟨0, 0, true⟩, ⟨0, 0, true⟩, ⟨0, 0, true⟩, ⟨0, 0, true⟩]

def stepOn (c : Call) (s : State) (e : Input) : Option State :=
  step board c s e.val e.data e.down

theorem transfer_correct_prompt :
    ∃ s, (system board (exchange 5)).Reachable s ∧ s.pc = .returned bmOk ∧
      s.written = [0xABCD] ∧ Correct (exchange 5) s bmOk := by
  obtain ⟨s, hrun, hpc, hwritten, hstatuses⟩ : ∃ s,
      TransitionSystem.runSteps (stepOn (exchange 5)) atRest promptRun = some s ∧
        s.pc = .returned bmOk ∧ s.written = [0xABCD] ∧ s.statuses = [0] :=
    ⟨_, rfl, rfl, rfl, rfl⟩
  have hstart : (system board (exchange 5)).Reachable atRest :=
    .init ⟨rfl, rfl, rfl, rfl, rfl, rfl, rfl, rfl⟩
  have hreach : (system board (exchange 5)).Reachable s := hstart.runSteps hrun
  refine ⟨s, hreach, hpc, hwritten, ?_⟩
  refine (transfer_correct_iff board (exchange 5) s bmOk hreach hpc).mpr fun _ _ => ?_
  exact ⟨0, hstatuses ▸ List.mem_singleton_self _, by decide⟩

/-- The chip select stays asserted. -/
theorem hastyExchange_selected :
    ∃ s, (system board (exchange 0)).Reachable s ∧ s.pc = .returned bmFail ∧ s.ser = 2 ∧
      ¬ Correct (exchange 0) s bmFail := by
  obtain ⟨s, hrun, hpc, hser, hlocked⟩ : ∃ s,
      TransitionSystem.runSteps (stepOn (exchange 0)) atRest hastyRun = some s ∧
        s.pc = .returned bmFail ∧ s.ser = 2 ∧ s.locked = true :=
    ⟨_, rfl, rfl, rfl, rfl⟩
  have hstart : (system board (exchange 0)).Reachable atRest :=
    .init ⟨rfl, rfl, rfl, rfl, rfl, rfl, rfl, rfl⟩
  refine ⟨s, hstart.runSteps hrun, hpc, hser, fun hcorrect => ?_⟩
  have hnone := hcorrect.deselected
  rw [if_pos hlocked, hser] at hnone
  cases hnone

end HiMpu.SpiBlocking
