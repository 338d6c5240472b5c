import HiMpu.Securec

/-!
# Reading the cache of an I2C slave

`i2c_adapter_slave_read_cache` hands an application the memory of the EEPROM slave or the
oldest request of the SMBus slave.  Both go through a buffer as large as the memory of the
slave, which is copied to the application at the end.
-/

namespace HiMpu.I2cSlaveCache

open Securec

def eperm : ℤ := 1
def enomem : ℤ := 12
def einval : ℤ := 22
def etimedout : ℤ := 110
def erestartsys : ℤ := 512
def enoslavemem : ℤ := 1007
def eslavescope : ℤ := 1008
def ecpyfromusr : ℤ := 1016
def eslavename : ℤ := 1034
def slaveRdWaittimeMin : ℕ := 3000

inductive AlgoType
  | none
  | master
  | slave
  deriving DecidableEq

structure Request (slaveDlen : ℕ) where
  bytes : List UInt8
  fits : bytes.length ≤ slaveDlen

structure Adapter where
  algoType : AlgoType
  slaveName : String
  slaveData : Option Mem
  slaveDlen : ℕ
  reqQueueInused : List (Request slaveDlen)
  reqQueueUnused : List (Request slaveDlen)

structure Rdwr where
  buffNull : Bool
  offset : ℕ
  size : ℕ
  timeout : ℕ

/-- How `wait_event_interruptible_timeout` ends; a request that it waits for is in the queue
then. -/
inductive Wait (slaveDlen : ℕ)
  | interrupted
  | timedOut
  | arrived (node : Request slaveDlen) (more : List (Request slaveDlen))

structure Kernel (slaveDlen : ℕ) where
  kzalloc : Bool
  wait : ℕ → Wait slaveDlen
  writable : ℕ

def copyToUser (writable : ℕ) (bytes : List UInt8) : List UInt8 × Bool :=
  (bytes.take writable, decide (writable < bytes.length))

def takeRequest (adap : Adapter) (rb : Mem) (node : Request adap.slaveDlen)
    (rest : List (Request adap.slaveDlen)) : ℤ × Mem × ℕ × Adapter :=
  (0, (memcpySObject rb node.bytes.length node.bytes).1, node.bytes.length,
    { adap with
      reqQueueInused := rest
      reqQueueUnused := adap.reqQueueUnused ++ [node] })

def slaveReadCacheSmbus (adap : Adapter) (wait : ℕ → Wait adap.slaveDlen) (rb : Mem)
    (size timeout : ℕ) : ℤ × Mem × ℕ × Adapter :=
  match adap.reqQueueInused with
  | node :: rest => takeRequest adap rb node rest
  | [] =>
    match wait timeout with
    | .interrupted => (-erestartsys, rb, size, adap)
    | .timedOut => (-etimedout, rb, size, adap)
    | .arrived node more => takeRequest adap rb node more

def slaveReadCacheEeprom (slaveData rb : Mem) (rlen offset : ℕ) : ℤ × Mem :=
  (0, (memcpySObject rb rlen (slaveData.bytes offset rlen)).1)

structure Outcome where
  ret : ℤ
  copied : List UInt8
  size : ℕ
  adap : Adapter

def fails (ret : ℤ) (adap : Adapter) (rdwr : Rdwr) : Outcome where
  ret := ret
  copied := []
  size := rdwr.size
  adap := adap

def finish (writable : ℕ) (ret : ℤ) (slaveData : Mem) (size : ℕ) (adap : Adapter) : Outcome :=
  let (copied, fault) := copyToUser writable (slaveData.bytes 0 size)
  { ret := if fault then ecpyfromusr else ret
    copied := copied
    size := size
    adap := adap }

def slaveReadCache (adap : Adapter) (k : Kernel adap.slaveDlen) (rdwr : Rdwr) : Outcome :=
  if adap.algoType ≠ .slave then fails (-eperm) adap rdwr
  else
    match adap.slaveData with
    | none => fails (-enoslavemem) adap rdwr
    | some data =>
      if adap.slaveDlen = 0 then fails (-enoslavemem) adap rdwr
      else if rdwr.buffNull ∨ rdwr.size = 0 then fails (-einval) adap rdwr
      else if adap.slaveDlen < rdwr.size ∨ adap.slaveDlen - rdwr.size < rdwr.offset then
        fails (-eslavescope) adap rdwr
      else if ¬k.kzalloc then fails (-enomem) adap rdwr
      else
        let rb : Mem := fun _ => 0
        let timeout := max rdwr.timeout slaveRdWaittimeMin
        if adap.slaveName = "smbus" then
          let (ret, rb, size, adap) := slaveReadCacheSmbus adap k.wait rb rdwr.size timeout
          finish k.writable ret rb size adap
        else if adap.slaveName = "eeprom" then
          let (ret, rb) := slaveReadCacheEeprom data rb rdwr.size rdwr.offset
          finish k.writable ret rb rdwr.size adap
        else fails (-eslavename) adap rdwr

structure Respects (adap : Adapter) (rdwr : Rdwr) (out : Outcome) : Prop where
  atMost : out.copied.length ≤ rdwr.size
  noneOnError : out.ret ≠ 0 → out.copied = []
  exact : out.ret = 0 → adap.slaveName = "eeprom" → ∀ data, adap.slaveData = some data →
    out.copied = data.bytes rdwr.offset rdwr.size

structure Admitted (adap : Adapter) (k : Kernel adap.slaveDlen) (rdwr : Rdwr) (data : Mem) :
    Prop where
  slave : adap.algoType = .slave
  data_eq : adap.slaveData = some data
  dlen : adap.slaveDlen ≠ 0
  buff : ¬(rdwr.buffNull ∨ rdwr.size = 0)
  inScope : ¬(adap.slaveDlen < rdwr.size ∨ adap.slaveDlen - rdwr.size < rdwr.offset)
  kzalloc : k.kzalloc = true

def Takes (adap : Adapter) (k : Kernel adap.slaveDlen) (rdwr : Rdwr)
    (node : Request adap.slaveDlen) : Prop :=
  match adap.reqQueueInused with
  | first :: _ => node = first
  | [] => ∃ more, k.wait (max rdwr.timeout slaveRdWaittimeMin) = .arrived node more

theorem fails_respects {ret : ℤ} (adap : Adapter) (rdwr : Rdwr) (hret : ret ≠ 0) :
    Respects adap rdwr (fails ret adap rdwr) where
  atMost := Nat.zero_le _
  noneOnError := fun _ => rfl
  exact := fun hzero => absurd hzero hret

theorem slaveReadCache_cases (adap : Adapter) (k : Kernel adap.slaveDlen) (rdwr : Rdwr) :
    (∃ ret ≠ 0, slaveReadCache adap k rdwr = fails ret adap rdwr ∧
        ∀ data, Admitted adap k rdwr data →
          adap.slaveName ≠ "smbus" ∧ adap.slaveName ≠ "eeprom") ∨
      ∃ data, Admitted adap k rdwr data ∧
        (adap.slaveName = "smbus" ∨ adap.slaveName = "eeprom") := by
  by_cases hadm : ∃ data, Admitted adap k rdwr data
  · obtain ⟨data, h⟩ := hadm
    by_cases hsmbus : adap.slaveName = "smbus"
    · exact .inr ⟨data, h, .inl hsmbus⟩
    · by_cases heeprom : adap.slaveName = "eeprom"
      · exact .inr ⟨data, h, .inr heeprom⟩
      · refine .inl ⟨-eslavename, by simp [eslavename], ?_, fun _ _ => ⟨hsmbus, heeprom⟩⟩
        simp only [slaveReadCache, h.slave, h.data_eq, if_neg h.dlen, if_neg h.buff,
          if_neg h.inScope, h.kzalloc, hsmbus, heeprom, ne_eq, not_true, if_false]
  · left
    have hnone : ∀ data, Admitted adap k rdwr data →
        adap.slaveName ≠ "smbus" ∧ adap.slaveName ≠ "eeprom" :=
      fun data h => absurd ⟨data, h⟩ hadm
    unfold slaveReadCache
    by_cases hslave : adap.algoType ≠ .slave
    · exact ⟨-eperm, by simp [eperm], by rw [if_pos hslave], hnone⟩
    rw [if_neg hslave]
    cases hdata : adap.slaveData with
    | none => exact ⟨-enoslavemem, by simp [enoslavemem], rfl, hnone⟩
    | some data =>
      simp only
      split
      · exact ⟨-enoslavemem, by simp [enoslavemem], rfl, hnone⟩
      rename_i hdlen
      split
      · exact ⟨-einval, by simp [einval], rfl, hnone⟩
      rename_i hbuff
      split
      · exact ⟨-eslavescope, by simp [eslavescope], rfl, hnone⟩
      rename_i hscope
      split
      · exact ⟨-enomem, by simp [enomem], rfl, hnone⟩
      rename_i halloc
      exact absurd ⟨data, not_not.mp hslave, hdata, hdlen, hbuff, hscope, by simpa using halloc⟩
        hadm

theorem finish_done {writable size : ℕ} (ret : ℤ) (rb : Mem) (adap : Adapter)
    (h : size ≤ writable) :
    finish writable ret rb size adap =
      { ret := ret
        copied := rb.bytes 0 size
        size := size
        adap := adap } := by
  have hlength : (rb.bytes 0 size).length = size := by simp [Mem.bytes]
  simp [finish, copyToUser, hlength, h, List.take_of_length_le]

theorem finish_fault_respects {writable size : ℕ} (ret : ℤ) (rb : Mem) (adap adap' : Adapter)
    (rdwr : Rdwr) (h : writable < size) :
    Respects adap rdwr (finish writable ret rb size adap') ↔ writable = 0 := by
  have hlength : ((rb.bytes 0 size).take writable).length = writable := by
    simp [Mem.bytes, h.le]
  have hret : (finish writable ret rb size adap').ret ≠ 0 := by
    simp [finish, copyToUser, Mem.bytes, h, ecpyfromusr]
  constructor
  · intro hrespects
    have hnone := hrespects.noneOnError hret
    rw [← hlength]
    exact congrArg List.length hnone
  · intro hzero
    have hnil : (finish writable ret rb size adap').copied = [] :=
      List.eq_nil_of_length_eq_zero (hlength.trans hzero)
    exact ⟨by simp [hnil], fun _ => hnil, fun hok => absurd hok hret⟩

/-- An SMBus request has to fit in the size that was asked for, or nothing may get out. -/
def SmbusOk (adap : Adapter) (k : Kernel adap.slaveDlen) (rdwr : Rdwr) : Prop :=
  k.writable = 0 ∨ ∃ node, Takes adap k rdwr node ∧ node.bytes.length ≤ k.writable ∧
    node.bytes.length ≤ rdwr.size

/-- The EEPROM's bytes have to be within what `memcpy_s` copies, or be zero as its
destination is. -/
def EepromOk (adap : Adapter) (k : Kernel adap.slaveDlen) (rdwr : Rdwr) (data : Mem) : Prop :=
  k.writable = 0 ∨ rdwr.size ≤ k.writable ∧
    (rdwr.size ≤ securecMemMaxLen ∨
      data.bytes rdwr.offset rdwr.size = List.replicate rdwr.size 0)

variable {adap : Adapter} {k : Kernel adap.slaveDlen} {rdwr : Rdwr} {data : Mem}

theorem Admitted.smbus_eq (h : Admitted adap k rdwr data) (hname : adap.slaveName = "smbus") :
    slaveReadCache adap k rdwr =
      let run := slaveReadCacheSmbus adap k.wait (fun _ => 0) rdwr.size
        (max rdwr.timeout slaveRdWaittimeMin)
      finish k.writable run.1 run.2.1 run.2.2.1 run.2.2.2 := by
  simp only [slaveReadCache, h.slave, h.data_eq, if_neg h.dlen, if_neg h.buff, if_neg h.inScope,
    h.kzalloc, hname, ne_eq, not_true, if_false, if_true]

theorem Admitted.eeprom_eq (h : Admitted adap k rdwr data) (hname : adap.slaveName = "eeprom") :
    slaveReadCache adap k rdwr =
      let run := slaveReadCacheEeprom data (fun _ => 0) rdwr.size rdwr.offset
      finish k.writable run.1 run.2 rdwr.size adap := by
  have hnot : "eeprom" ≠ "smbus" := by decide
  simp only [slaveReadCache, h.slave, h.data_eq, if_neg h.dlen, if_neg h.buff, if_neg h.inScope,
    h.kzalloc, hname, if_neg hnot, ne_eq, not_true, if_false, if_true]

theorem finish_request_respects (rb : Mem) (adap' : Adapter) (n : ℕ)
    (hname : adap.slaveName ≠ "eeprom") :
    Respects adap rdwr (finish k.writable 0 rb n adap') ↔
      k.writable = 0 ∨ n ≤ k.writable ∧ n ≤ rdwr.size := by
  rcases Nat.lt_or_ge k.writable n with hfault | hdone
  · rw [finish_fault_respects 0 rb adap adap' rdwr hfault]
    omega
  · rw [finish_done 0 rb adap' hdone]
    have hlength : (rb.bytes 0 n).length = n := by simp [Mem.bytes]
    constructor
    · intro hrespects
      exact .inr ⟨hdone, hlength ▸ hrespects.atMost⟩
    · intro hok
      refine ⟨?_, fun hret => absurd rfl hret, fun _ heeprom => absurd heeprom hname⟩
      simp only [hlength]
      omega

theorem finish_error_respects {ret : ℤ} (rb : Mem) (adap' : Adapter) (hret : ret ≠ 0)
    (hsize : rdwr.size ≠ 0) :
    Respects adap rdwr (finish k.writable ret rb rdwr.size adap') ↔ k.writable = 0 := by
  rcases Nat.lt_or_ge k.writable rdwr.size with hfault | hdone
  · exact finish_fault_respects ret rb adap adap' rdwr hfault
  · rw [finish_done ret rb adap' hdone]
    constructor
    · intro hrespects
      have hnil := congrArg List.length (hrespects.noneOnError hret)
      simp only [Mem.bytes, List.length_map, List.length_range, List.length_nil] at hnil
      exact absurd hnil hsize
    · intro hzero
      omega

theorem smbus_respects (h : Admitted adap k rdwr data) (hname : adap.slaveName = "smbus") :
    Respects adap rdwr (slaveReadCache adap k rdwr) ↔ SmbusOk adap k rdwr := by
  have hnot : adap.slaveName ≠ "eeprom" := by
    rw [hname]
    decide
  have hsize : rdwr.size ≠ 0 := fun hzero => h.buff (.inr hzero)
  have htakes : ∀ node, (∀ node', Takes adap k rdwr node' ↔ node' = node) →
      ((k.writable = 0 ∨ node.bytes.length ≤ k.writable ∧ node.bytes.length ≤ rdwr.size) ↔
        SmbusOk adap k rdwr) := by
    intro node honly
    simp only [SmbusOk, honly, exists_eq_left]
  have hempty : (∀ node, ¬Takes adap k rdwr node) → (k.writable = 0 ↔ SmbusOk adap k rdwr) := by
    intro hnone
    simp only [SmbusOk, hnone, false_and, exists_false, or_false]
  rw [h.smbus_eq hname]
  unfold slaveReadCacheSmbus
  cases hqueue : adap.reqQueueInused with
  | cons first rest =>
    simp only [takeRequest]
    rw [finish_request_respects _ _ _ hnot]
    exact htakes first fun node' => by rw [Takes, hqueue]
  | nil =>
    cases hwait : k.wait (max rdwr.timeout slaveRdWaittimeMin) with
    | interrupted =>
      simp only
      rw [finish_error_respects _ _ (by simp [erestartsys]) hsize]
      exact hempty fun node => by simp [Takes, hqueue, hwait]
    | timedOut =>
      simp only
      rw [finish_error_respects _ _ (by simp [etimedout]) hsize]
      exact hempty fun node => by simp [Takes, hqueue, hwait]
    | arrived node more =>
      simp only [takeRequest]
      rw [finish_request_respects _ _ _ hnot]
      exact htakes node fun node' => by simp [Takes, hqueue, hwait, eq_comm]

theorem eeprom_respects (h : Admitted adap k rdwr data) (hname : adap.slaveName = "eeprom") :
    Respects adap rdwr (slaveReadCache adap k rdwr) ↔ EepromOk adap k rdwr data := by
  have hsize : rdwr.size ≠ 0 := fun hzero => h.buff (.inr hzero)
  rw [h.eeprom_eq hname]
  simp only [slaveReadCacheEeprom]
  rcases Nat.lt_or_ge k.writable rdwr.size with hfault | hdone
  · rw [finish_fault_respects 0 _ adap adap rdwr hfault, EepromOk]
    omega
  · rw [finish_done 0 _ adap hdone, EepromOk]
    have hwritable : k.writable ≠ 0 := by omega
    rw [or_iff_right hwritable, and_iff_right hdone]
    have hlength : (data.bytes rdwr.offset rdwr.size).length = rdwr.size := by simp [Mem.bytes]
    have hexact : Respects adap rdwr
          { ret := 0
            copied := (memcpySObject (fun _ => 0) rdwr.size
              (data.bytes rdwr.offset rdwr.size)).1.bytes 0 rdwr.size
            size := rdwr.size
            adap := adap } ↔
        (memcpySObject (fun _ => 0) rdwr.size
          (data.bytes rdwr.offset rdwr.size)).1.bytes 0 rdwr.size =
            data.bytes rdwr.offset rdwr.size := by
      constructor
      · intro hrespects
        exact hrespects.exact rfl hname data h.data_eq
      · intro hbytes
        refine ⟨by simp [Mem.bytes], fun hret => absurd rfl hret, fun _ _ data' hdata => ?_⟩
        cases h.data_eq.symm.trans hdata
        exact hbytes
    rw [hexact]
    rcases Nat.lt_or_ge securecMemMaxLen rdwr.size with hlarge | hsmall
    · -- `memcpy_s` refuses, and the bytes are those of `kzalloc`
      have hrefuse : ¬((data.bytes rdwr.offset rdwr.size).length ≤ rdwr.size ∧
          rdwr.size ≤ securecMemMaxLen ∧ 0 < (data.bytes rdwr.offset rdwr.size).length) := by
        omega
      have hrange : rdwr.size = 0 ∨ securecMemMaxLen < rdwr.size := .inr hlarge
      have hzero : Mem.bytes (fun _ => 0) 0 rdwr.size = List.replicate rdwr.size 0 := by
        simp [Mem.bytes, List.map_const']
      rw [memcpySObject, if_neg hrefuse, if_pos hrange, hzero, or_iff_right (by omega)]
      exact eq_comm
    · have hcopy := memcpySObject_fits (d := fun _ => 0) (by omega) hlength.le hsmall
      rw [hcopy, or_iff_left_of_imp fun _ => hsmall]
      have hsame := Mem.bytes_write_same (fun _ => 0) 0 (data.bytes rdwr.offset rdwr.size)
      rw [hlength] at hsame
      simp [hsame, hsmall]

/-- When a read of the cache respects its caller: where it is admitted, an SMBus request has
been found that fits, or the EEPROM's bytes could be copied. -/
theorem readCache_respects (adap : Adapter) (k : Kernel adap.slaveDlen) (rdwr : Rdwr) :
    Respects adap rdwr (slaveReadCache adap k rdwr) ↔
      ∀ data, Admitted adap k rdwr data →
        (adap.slaveName = "smbus" → SmbusOk adap k rdwr) ∧
          (adap.slaveName = "eeprom" → EepromOk adap k rdwr data) := by
  rcases slaveReadCache_cases adap k rdwr with
    ⟨ret, hret, hout, hother⟩ | ⟨data, hadm, hname⟩
  · rw [hout]
    refine ⟨fun _ data hadm => ?_, fun _ => fails_respects adap rdwr hret⟩
    obtain ⟨hsmbus, heeprom⟩ := hother data hadm
    exact ⟨fun h => absurd h hsmbus, fun h => absurd h heeprom⟩
  · have hunique : ∀ data', Admitted adap k rdwr data' → data' = data := fun data' hadm' =>
      Option.some.inj (hadm'.data_eq.symm.trans hadm.data_eq)
    rcases hname with hname | hname
    · have hnot : adap.slaveName ≠ "eeprom" := by
        rw [hname]
        decide
      rw [smbus_respects hadm hname]
      exact ⟨fun hok _ _ => ⟨fun _ => hok, fun h => absurd h hnot⟩,
        fun hall => (hall data hadm).1 hname⟩
    · have hnot : adap.slaveName ≠ "smbus" := by
        rw [hname]
        decide
      rw [eeprom_respects hadm hname]
      refine ⟨fun hok data' hadm' => ⟨fun h => absurd h hnot, fun _ => ?_⟩,
        fun hall => (hall data hadm).2 hname⟩
      rw [hunique data' hadm']
      exact hok

def queued : Adapter where
  algoType := .slave
  slaveName := "smbus"
  slaveData := some fun _ => 0
  slaveDlen := 64
  reqQueueInused := [⟨List.replicate 32 0xaa, by decide⟩]
  reqQueueUnused := []

/-- A read of four bytes gets all 32 of the request. -/
theorem readCache_exceeds :
    ¬∀ (adap : Adapter) (k : Kernel adap.slaveDlen) (rdwr : Rdwr), adap.algoType = .slave →
      Respects adap rdwr (slaveReadCache adap k rdwr) := by
  intro hall
  have hrespects := hall queued ⟨true, fun _ => .timedOut, 4096⟩ ⟨false, 0, 4, 3000⟩ rfl
  have hmost := hrespects.atMost
  revert hmost
  decide

end HiMpu.I2cSlaveCache
