import HiMpu.ByteMemory
import HiMpu.LocalBus

/-!
# Reading back what the local bus has written

A memory behind every chip select keeps what `localbus_write_data` stores and answers
`localbus_get_data` with it, little-endian.
-/

namespace HiMpu.LocalBus

def csMapped (cs : ℕ) : ℕ := if cs = 0 then 0x10000000 else 0x8000000

structure Request where
  cs : ℕ
  type : ℕ
  offset : ℕ
  len : ℕ
  mask : BitVec 32
  data : Mem

def Request.opt (r : Request) : Opt where
  cs := r.cs
  type := r.type
  offset := r.offset
  len := r.len
  mask := r.mask.toNat
  data := fun i => (r.data i).toNat

structure Trouble where
  interrupted : Bool
  nomem : Bool
  fault : Bool

abbrev Bus := ℕ → Mem

def busEnv (width : ℕ → ℕ) (bus : Bus) (r : Request) (trouble : Trouble) : Env where
  interrupted := trouble.interrupted
  nomem := trouble.nomem
  fault := trouble.fault
  answer := fun addr => (bus r.cs).load addr (accessBytes (width r.cs))

def storeAccess (bus : Bus) (a : Access) : Bus :=
  match a.value with
  | none => bus
  | some v => Function.update bus a.cs ((bus a.cs).store a.addr a.bytes v)

def busWrite (width : ℕ → ℕ) (bus : Bus) (r : Request) (trouble : Trouble) : Outcome :=
  localbusWriteData width r.opt (busEnv width bus r trouble)

def afterWrite (width : ℕ → ℕ) (bus : Bus) (r : Request) (trouble : Trouble) : Bus :=
  (busWrite width bus r trouble).accesses.foldl storeAccess bus

def busRead (width : ℕ → ℕ) (bus : Bus) (r : Request) (trouble : Trouble) : Outcome :=
  localbusGetData width r.opt (busEnv width bus r trouble)

def unitBytes (bytes v : ℕ) : List UInt8 := (List.range bytes).map fun k => UInt8.ofNat (v / 256 ^ k)

def Request.unit (r : Request) (width : ℕ → ℕ) : ℕ := accessBytes (width r.cs)

structure BusCorrect (width : ℕ → ℕ) (bus : Bus) (r : Request) (trouble : Trouble) : Prop where
  inside : ∀ a ∈ (busWrite width bus r trouble).accesses, a.cs = r.cs ∧ r.offset ≤ a.addr ∧
    a.addr + a.bytes ≤ r.offset + r.len ∧ a.addr + a.bytes ≤ csMapped r.cs
  frame : ∀ c x, (c = r.cs → x < r.offset ∨ r.offset + r.len ≤ x) →
    afterWrite width bus r trouble c x = bus c x
  readBytes : r.type ≠ opTypeBits → (busWrite width bus r trouble).ret = 0 → ∀ trouble',
    (busRead width (afterWrite width bus r trouble) r trouble').ret = 0 →
      (busRead width (afterWrite width bus r trouble) r trouble').data.flatMap
        (unitBytes (r.unit width)) = r.data.bytes 0 r.len
  /-- Of the mask only the bits of the width count. -/
  readBits : r.type = opTypeBits → (busWrite width bus r trouble).ret = 0 → ∀ trouble',
    (busRead width (afterWrite width bus r trouble) r trouble').ret = 0 →
      ∀ k, IsLeast {i | r.mask.getLsbD i = true} k →
        (busRead width (afterWrite width bus r trouble) r trouble').data =
          [r.data.load 0 (r.unit width) &&&
            (r.mask.toNat % 2 ^ (8 * r.unit width)) >>> k]
  outside : r.type = opTypeBits → ∀ i < 8 * r.unit width, r.mask.getLsbD i = false →
    ((afterWrite width bus r trouble r.cs).load r.offset (r.unit width)).testBit i =
      ((bus r.cs).load r.offset (r.unit width)).testBit i

section Bits

variable {bytes mask old new : ℕ}

theorem testBit_prepare (i : ℕ) :
    (localbusPrepareData bytes mask old new).testBit i =
      if (mask % 2 ^ (8 * bytes)).testBit i then
        decide (localbusGetOffsetBit mask ≤ i) && new.testBit (i - localbusGetOffsetBit mask)
      else decide (i < 8 * bytes) && old.testBit i := by
  have hlt : mask % 2 ^ (8 * bytes) < 2 ^ (8 * bytes) := Nat.mod_lt _ (by positivity)
  have hrest : 2 ^ (8 * bytes) - 1 - mask % 2 ^ (8 * bytes) =
      2 ^ (8 * bytes) - (mask % 2 ^ (8 * bytes) + 1) := by omega
  unfold localbusPrepareData
  simp only [hrest, Nat.testBit_or, Nat.testBit_and, Nat.testBit_shiftLeft,
    Nat.testBit_two_pow_sub_succ hlt]
  cases (mask % 2 ^ (8 * bytes)).testBit i with
  | true => simp
  | false => simp [Bool.and_comm]

theorem prepare_lt : localbusPrepareData bytes mask old new < 2 ^ (8 * bytes) := by
  apply Nat.lt_pow_two_of_testBit
  intro i hi
  have hmask : (mask % 2 ^ (8 * bytes)).testBit i = false := by
    rw [Nat.testBit_mod_two_pow, decide_eq_false (by omega), Bool.false_and]
  rw [testBit_prepare, hmask]
  simp
  omega

theorem prepare_readBack :
    (localbusPrepareData bytes mask old new &&& mask % 2 ^ (8 * bytes)) >>>
        localbusGetOffsetBit mask =
      new &&& (mask % 2 ^ (8 * bytes)) >>> localbusGetOffsetBit mask := by
  apply Nat.eq_of_testBit_eq
  intro j
  rw [Nat.testBit_shiftRight, Nat.testBit_and, testBit_prepare, Nat.testBit_and,
    Nat.testBit_shiftRight]
  cases hbit : (mask % 2 ^ (8 * bytes)).testBit (localbusGetOffsetBit mask + j) with
  | true => simp
  | false => simp

end Bits

theorem localbusGetOffsetBit_eq {mask : BitVec 32} {k : ℕ}
    (hleast : IsLeast {i | mask.getLsbD i = true} k) : localbusGetOffsetBit mask.toNat = k := by
  have hk : mask.getLsbD k = true := hleast.1
  have hlt : k < 32 := by
    by_contra hge
    rw [BitVec.getLsbD_of_ge mask k (by omega)] at hk
    cases hk
  have hfind : (List.range 32).find? (fun i => mask.toNat.testBit i) = some k := by
    rw [List.find?_range_eq_some]
    constructor
    · exact hk
    constructor
    · exact List.mem_range.mpr hlt
    · intro j hj
      by_contra hset
      have hmem : mask.getLsbD j = true := by
        simpa [BitVec.getLsbD] using hset
      exact absurd (hleast.2 hmem) (by omega)
  unfold localbusGetOffsetBit
  rw [hfind]
  rfl

section Loop

variable {w len i cs off : ℕ} {data mem : Mem}

def copied (mem data : Mem) (off i len : ℕ) : Mem := fun x =>
  if off + i ≤ x ∧ x < off + len then data (x - off) else mem x

theorem bufUnit_eq (data : Mem) (bytes i : ℕ) :
    bufUnit (fun j => (data j).toNat) bytes i = data.load i bytes := by
  induction bytes with
  | zero => rfl
  | succ n ih =>
    unfold bufUnit at ih ⊢
    rw [List.range_succ, List.map_append, List.sum_append, ih, Mem.load_add]
    simp [Mem.load, Nat.mul_comm]

theorem round_dvd (hi : i < len) (hdvd : accessBytes w ∣ len - i) :
    i + accessBytes w ≤ len ∧ accessBytes w ∣ len - (i + accessBytes w) := by
  have hpos := accessBytes_pos w
  obtain ⟨q, hq⟩ := hdvd
  cases q with
  | zero => omega
  | succ q =>
    rw [Nat.mul_succ] at hq
    constructor
    · omega
    · exact ⟨q, by omega⟩

theorem mem_loop {access : ℕ → Access} {a : Access} (hi : i ≤ len) (hdvd : accessBytes w ∣ len - i)
    (ha : a ∈ localbusReadWrite w len access i) :
    ∃ j < len, accessBytes w ∣ len - j ∧ a = access j := by
  induction i using localbusReadWrite.induct w len with
  | case1 i hlt ih =>
    obtain ⟨hfits, hrest⟩ := round_dvd hlt hdvd
    rw [localbusReadWrite, if_pos hlt] at ha
    rcases List.mem_cons.mp ha with rfl | ha
    · exact ⟨i, hlt, hdvd, rfl⟩
    · exact ih hfits hrest ha
  | case2 i hlt =>
    rw [localbusReadWrite, if_neg hlt] at ha
    cases ha

theorem copied_store (hi : i + accessBytes w ≤ len) :
    copied (mem.store (off + i) (accessBytes w) (data.load i (accessBytes w))) data off
        (i + accessBytes w) len = copied mem data off i len := by
  funext x
  unfold copied
  by_cases hrest : off + (i + accessBytes w) ≤ x ∧ x < off + len
  · rw [if_pos hrest, if_pos (by omega)]
  · rw [if_neg hrest]
    by_cases hround : off + i ≤ x ∧ x < off + len
    · rw [if_pos hround, Mem.store_load hround.1 (by omega)]
      congr 1
      omega
    · rw [if_neg hround, Mem.store_outside (by omega)]

theorem storeAll_loop (hi : i ≤ len) (hdvd : accessBytes w ∣ len - i) (bus : Bus) :
    (localbusReadWrite w len
        (fun i => ⟨cs, off + i, accessBytes w, some (data.load i (accessBytes w))⟩) i).foldl
        storeAccess bus =
      Function.update bus cs (copied (bus cs) data off i len) := by
  induction i using localbusReadWrite.induct w len generalizing bus with
  | case1 i hlt ih =>
    obtain ⟨hfits, hrest⟩ := round_dvd hlt hdvd
    rw [localbusReadWrite, if_pos hlt, List.foldl_cons, ih hfits hrest]
    simp only [storeAccess, Function.update_self, Function.update_idem, copied_store hfits]
  | case2 i hlt =>
    have hend : copied (bus cs) data off i len = bus cs := by
      funext x
      exact if_neg (by omega)
    rw [localbusReadWrite, if_neg hlt, List.foldl_nil, hend, Function.update_eq_self]

theorem unitBytes_load (mem : Mem) (addr bytes : ℕ) :
    unitBytes bytes (mem.load addr bytes) = mem.bytes addr bytes := by
  unfold unitBytes Mem.bytes
  apply List.map_congr_left
  intro k hk
  apply UInt8.toNat_inj.mp
  rw [UInt8.toNat_ofNat']
  exact Mem.digit_load mem (List.mem_range.mp hk)

theorem two_pow_eight (n : ℕ) : 2 ^ (8 * n) = 256 ^ n := by
  rw [pow_mul]
  norm_num

theorem readAll_loop (hi : i ≤ len) (hdvd : accessBytes w ∣ len - i) (mem : Mem) :
    ((localbusReadWrite w len (fun i => ⟨cs, off + i, accessBytes w, none⟩) i).map
        fun a => mem.load a.addr (accessBytes w) % 2 ^ (8 * accessBytes w)).flatMap
        (unitBytes (accessBytes w)) = mem.bytes (off + i) (len - i) := by
  induction i using localbusReadWrite.induct w len with
  | case1 i hlt ih =>
    obtain ⟨hfits, hrest⟩ := round_dvd hlt hdvd
    have hsplit : len - i = accessBytes w + (len - (i + accessBytes w)) := by omega
    rw [localbusReadWrite, if_pos hlt, List.map_cons, List.flatMap_cons, ih hfits hrest, hsplit,
      Mem.bytes_add, two_pow_eight, Nat.mod_eq_of_lt (Mem.load_lt _ _ _), unitBytes_load,
      Nat.add_assoc]
  | case2 i hlt =>
    have hend : len - i = 0 := by omega
    rw [localbusReadWrite, if_neg hlt, hend]
    rfl

theorem loop_single {access : ℕ → Access} :
    localbusReadWrite w (accessBytes w) access 0 = [access 0] := by
  have hpos := accessBytes_pos w
  rw [localbusReadWrite, if_pos hpos, localbusReadWrite, if_neg (by omega)]

end Loop

section Calls

variable {width : ℕ → ℕ} {r : Request}

structure InRange (width : ℕ → ℕ) (r : Request) : Prop where
  cs : r.cs < csNum
  fits : r.offset + r.len ≤ csMapLen
  dvd : accessBytes (width r.cs) ∣ r.len
  bits : r.type = opTypeBits → r.len = accessBytes (width r.cs)

theorem inRange_of_check (hwidth : width r.cs ≤ csWidth32)
    (hcheck : localbusParaCheck width r.opt = true) : InRange width r := by
  have hcs : r.cs < csNum := localbusParaCheck_cs hcheck
  simp only [localbusParaCheck, Bool.and_eq_true] at hcheck
  obtain ⟨⟨⟨_, hfits⟩, halign⟩, hmask⟩ := hcheck
  have hsum : r.len + r.offset ≤ csMapLen := of_decide_eq_true hfits
  constructor
  · exact hcs
  · omega
  · apply Nat.dvd_of_mod_eq_zero
    change localbusAddrLenAlignmentCheck (width r.cs) r.opt = true at halign
    generalize width r.cs = w at hwidth halign ⊢
    unfold csWidth32 at hwidth
    interval_cases w
    · exact Nat.mod_one _
    · simp [localbusAddrLenAlignmentCheck, csWidth16] at halign
      exact halign.1
    · simp [localbusAddrLenAlignmentCheck, csWidth32] at halign
      exact halign.1
  · intro hbits
    have htype : r.opt.type = opTypeBits := hbits
    simp only [localbusTypeMaskCheck, htype, ne_eq, not_true_eq_false, decide_false, Bool.false_or,
      Bool.and_eq_true] at hmask
    exact of_decide_eq_true hmask.2

theorem csMapLen_le (cs : ℕ) : csMapLen ≤ csMapped cs := by
  unfold csMapped csMapLen
  split <;> omega

def writeAccesses (width : ℕ → ℕ) (bus : Bus) (r : Request) : List Access :=
  let bytes := accessBytes (width r.cs)
  let value := fun i =>
    if r.type = opTypeBits ∧ i = 0 then
      localbusPrepareData bytes r.mask.toNat ((bus r.cs).load r.offset bytes)
        (r.data.load 0 bytes)
    else r.data.load i bytes
  let before := if r.type = opTypeBits then [⟨r.cs, r.offset, bytes, none⟩] else []
  before ++ localbusReadWrite (width r.cs) r.len
    (fun i => ⟨r.cs, r.offset + i, bytes, some (value i)⟩) 0

theorem busWrite_cases (hcheck : localbusParaCheck width r.opt = true) (bus : Bus)
    (trouble : Trouble) :
    ((busWrite width bus r trouble).accesses = [] ∧ (busWrite width bus r trouble).ret ≠ 0) ∨
      (busWrite width bus r trouble).accesses = writeAccesses width bus r := by
  obtain ⟨interrupted, nomem, fault⟩ := trouble
  unfold busWrite localbusWriteData
  rw [if_neg (by simp [hcheck])]
  cases interrupted with
  | true => exact .inl ⟨rfl, by simp [busEnv, eintr]⟩
  | false =>
    cases nomem with
    | true => exact .inl ⟨rfl, by simp [busEnv, enomem]⟩
    | false =>
      cases fault with
      | true => exact .inl ⟨rfl, by simp [busEnv, efault]⟩
      | false =>
        right
        simp only [busEnv, writeAccesses, Request.opt, bufUnit_eq, two_pow_eight,
          Nat.mod_eq_of_lt (Mem.load_lt _ _ _), Bool.false_eq_true, if_false]
        rfl

theorem busRead_data (hcheck : localbusParaCheck width r.opt = true) {bus : Bus}
    {trouble : Trouble} (hret : (busRead width bus r trouble).ret = 0) :
    (busRead width bus r trouble).data =
      let bytes := accessBytes (width r.cs)
      let data := (localbusReadWrite (width r.cs) r.len
        (fun i => ⟨r.cs, r.offset + i, bytes, none⟩) 0).map
          fun a => (bus r.cs).load a.addr bytes % 2 ^ (8 * bytes)
      if r.type = opTypeBits then
        data.modifyHead fun v =>
          (v &&& r.mask.toNat % 2 ^ (8 * bytes)) >>> localbusGetOffsetBit r.mask.toNat
      else data := by
  obtain ⟨interrupted, nomem, fault⟩ := trouble
  unfold busRead localbusGetData at hret ⊢
  rw [if_neg (by simp [hcheck])] at hret ⊢
  cases interrupted with
  | true => simp [busEnv, eintr] at hret
  | false =>
    cases nomem with
    | true => simp [busEnv, enomem] at hret
    | false => rfl

theorem writeAccesses_bytes {bus : Bus} (hbytes : r.type ≠ opTypeBits) :
    writeAccesses width bus r =
      localbusReadWrite (width r.cs) r.len (fun i => ⟨r.cs, r.offset + i, accessBytes (width r.cs),
        some (r.data.load i (accessBytes (width r.cs)))⟩) 0 := by
  simp [writeAccesses, hbytes]

theorem writeAccesses_bits {bus : Bus} (hbits : r.type = opTypeBits)
    (hlen : r.len = accessBytes (width r.cs)) :
    writeAccesses width bus r =
      [⟨r.cs, r.offset, accessBytes (width r.cs), none⟩,
        ⟨r.cs, r.offset, accessBytes (width r.cs),
          some (localbusPrepareData (accessBytes (width r.cs)) r.mask.toNat
            ((bus r.cs).load r.offset (accessBytes (width r.cs)))
            (r.data.load 0 (accessBytes (width r.cs))))⟩] := by
  unfold writeAccesses
  simp only [hlen, loop_single]
  simp [hbits]

theorem foldl_writeAccesses (hrange : InRange width r) (bus : Bus) :
    (writeAccesses width bus r).foldl storeAccess bus =
      Function.update bus r.cs
        (if r.type = opTypeBits then
          (bus r.cs).store r.offset (accessBytes (width r.cs))
            (localbusPrepareData (accessBytes (width r.cs)) r.mask.toNat
              ((bus r.cs).load r.offset (accessBytes (width r.cs)))
              (r.data.load 0 (accessBytes (width r.cs))))
        else copied (bus r.cs) r.data r.offset 0 r.len) := by
  by_cases hbits : r.type = opTypeBits
  · rw [writeAccesses_bits hbits (hrange.bits hbits), if_pos hbits]
    rfl
  · rw [writeAccesses_bytes hbits, if_neg hbits, storeAll_loop (Nat.zero_le _) hrange.dvd]

theorem writeAccesses_inside (hrange : InRange width r) (bus : Bus) :
    ∀ a ∈ writeAccesses width bus r, a.cs = r.cs ∧ r.offset ≤ a.addr ∧
      a.addr + a.bytes ≤ r.offset + r.len := by
  intro a ha
  by_cases hbits : r.type = opTypeBits
  · have hlen := hrange.bits hbits
    rw [writeAccesses_bits hbits hlen] at ha
    simp only [List.mem_cons, List.not_mem_nil, or_false] at ha
    rcases ha with rfl | rfl
    · exact ⟨rfl, le_rfl, by simp only; omega⟩
    · exact ⟨rfl, le_rfl, by simp only; omega⟩
  · rw [writeAccesses_bytes hbits] at ha
    obtain ⟨i, hi, hdvd, rfl⟩ := mem_loop (Nat.zero_le _) hrange.dvd ha
    have hround : i + accessBytes (width r.cs) ≤ r.len := (round_dvd hi hdvd).1
    exact ⟨rfl, Nat.le_add_right _ _, by simp only; omega⟩

end Calls

theorem afterWrite_eq {width : ℕ → ℕ} {bus : Bus} {r : Request} {trouble : Trouble}
    (hall : (busWrite width bus r trouble).accesses = writeAccesses width bus r) :
    afterWrite width bus r trouble = (writeAccesses width bus r).foldl storeAccess bus := by
  unfold afterWrite
  rw [hall]

theorem busRead_bits {width : ℕ → ℕ} {bus : Bus} {r : Request} {trouble trouble' : Trouble} {k : ℕ}
    (hwidth : width r.cs ≤ csWidth32) (hcheck : localbusParaCheck width r.opt = true)
    (hbits : r.type = opTypeBits) (hret : (busWrite width bus r trouble).ret = 0)
    (hread : (busRead width (afterWrite width bus r trouble) r trouble').ret = 0)
    (hleast : IsLeast {i | r.mask.getLsbD i = true} k) :
    (busRead width (afterWrite width bus r trouble) r trouble').data =
      [r.data.load 0 (r.unit width) &&& (r.mask.toNat % 2 ^ (8 * r.unit width)) >>> k] := by
  have hrange := inRange_of_check hwidth hcheck
  rcases busWrite_cases hcheck bus trouble with ⟨_, hfail⟩ | hall
  · exact absurd hret hfail
  · rw [busRead_data hcheck hread, afterWrite_eq hall, foldl_writeAccesses hrange]
    simp only [if_pos hbits, Function.update_self, Request.unit]
    rw [hrange.bits hbits, loop_single]
    simp only [List.map_cons, List.map_nil, List.modifyHead_cons, Nat.add_zero]
    rw [Mem.load_store_same_of_lt, Nat.mod_eq_of_lt prepare_lt, prepare_readBack,
      localbusGetOffsetBit_eq hleast]
    rw [← two_pow_eight]
    exact prepare_lt

theorem busRead_bytes {width : ℕ → ℕ} {bus : Bus} {r : Request} {trouble trouble' : Trouble}
    (hwidth : width r.cs ≤ csWidth32) (hcheck : localbusParaCheck width r.opt = true)
    (hbytes : r.type ≠ opTypeBits) (hret : (busWrite width bus r trouble).ret = 0)
    (hread : (busRead width (afterWrite width bus r trouble) r trouble').ret = 0) :
    (busRead width (afterWrite width bus r trouble) r trouble').data.flatMap
      (unitBytes (r.unit width)) = r.data.bytes 0 r.len := by
  have hrange := inRange_of_check hwidth hcheck
  rcases busWrite_cases hcheck bus trouble with ⟨_, hfail⟩ | hall
  · exact absurd hret hfail
  · rw [busRead_data hcheck hread, afterWrite_eq hall, foldl_writeAccesses hrange]
    simp only [if_neg hbytes, Function.update_self, Request.unit]
    rw [readAll_loop (Nat.zero_le _) hrange.dvd]
    unfold Mem.bytes
    apply List.map_congr_left
    intro i hi
    have hlt : i < r.len := List.mem_range.mp hi
    unfold copied
    rw [if_pos (by omega)]
    congr 1
    omega

theorem afterWrite_outside {width : ℕ → ℕ} {bus : Bus} {r : Request} {trouble : Trouble} {i : ℕ}
    (hwidth : width r.cs ≤ csWidth32) (hcheck : localbusParaCheck width r.opt = true)
    (hbits : r.type = opTypeBits) (hi : i < 8 * r.unit width) (hclear : r.mask.getLsbD i = false) :
    ((afterWrite width bus r trouble r.cs).load r.offset (r.unit width)).testBit i =
      ((bus r.cs).load r.offset (r.unit width)).testBit i := by
  have hrange := inRange_of_check hwidth hcheck
  rcases busWrite_cases hcheck bus trouble with ⟨hnone, _⟩ | hall
  · unfold afterWrite
    rw [hnone, List.foldl_nil]
  · rw [afterWrite_eq hall, foldl_writeAccesses hrange]
    simp only [if_pos hbits, Function.update_self, Request.unit]
    rw [Mem.load_store_same_of_lt, testBit_prepare, if_neg]
    · simp only [Request.unit] at hi
      rw [decide_eq_true hi, Bool.true_and]
    · have hbit : r.mask.toNat.testBit i = false := hclear
      rw [Nat.testBit_mod_two_pow]
      simp [hbit]
    · rw [← two_pow_eight]
      exact prepare_lt

theorem bus_correct (width : ℕ → ℕ) (bus : Bus) (r : Request) (trouble : Trouble)
    (hwidth : width r.cs ≤ csWidth32) (hcheck : localbusParaCheck width r.opt = true) :
    BusCorrect width bus r trouble := by
  have hrange := inRange_of_check hwidth hcheck
  constructor
  · intro a ha
    rcases busWrite_cases hcheck bus trouble with ⟨hnone, _⟩ | hall
    · rw [hnone] at ha
      cases ha
    · rw [hall] at ha
      obtain ⟨hcs, hlow, hhigh⟩ := writeAccesses_inside hrange bus a ha
      have hfits := hrange.fits
      have hmapped := csMapLen_le r.cs
      exact ⟨hcs, hlow, hhigh, by omega⟩
  · intro c x houtside
    rcases busWrite_cases hcheck bus trouble with ⟨hnone, _⟩ | hall
    · unfold afterWrite
      rw [hnone, List.foldl_nil]
    · rw [afterWrite_eq hall, foldl_writeAccesses hrange]
      by_cases hc : c = r.cs
      · subst hc
        rw [Function.update_self]
        have hx := houtside rfl
        split
        next hbits =>
          have hlen := hrange.bits hbits
          exact Mem.store_outside (by omega)
        next => exact if_neg (by omega)
      · rw [Function.update_of_ne hc]
  · intro hbytes hret trouble' hread
    exact busRead_bytes hwidth hcheck hbytes hret hread
  · intro hbits hret trouble' hread k hleast
    exact busRead_bits hwidth hcheck hbits hret hread hleast
  · intro hbits i hi hclear
    exact afterWrite_outside hwidth hcheck hbits hi hclear

def wideMask : Request where
  cs := 0
  type := opTypeBits
  offset := csMapLen - 1
  len := 1
  mask := 0x110
  data := fun _ => 0x11

def noTrouble : Trouble := ⟨false, false, false⟩

theorem bus_correct_wideMask :
    BusCorrect (fun _ => csWidth8) (fun _ _ => 0xff) wideMask noTrouble :=
  bus_correct (fun _ => csWidth8) (fun _ _ => 0xff) wideMask noTrouble (by decide) (by decide)

/-- Bit 8 of the mask is not part of the field: 1 comes back, where the value under the whole
mask would be 0x11. -/
theorem wideMask_readBack :
    localbusParaCheck (fun _ => csWidth8) wideMask.opt = true ∧
      (busWrite (fun _ => csWidth8) (fun _ _ => 0xff) wideMask noTrouble).ret = 0 ∧
      (busRead (fun _ => csWidth8) (afterWrite (fun _ => csWidth8) (fun _ _ => 0xff) wideMask
        noTrouble) wideMask noTrouble).ret = 0 ∧
      IsLeast {i | wideMask.mask.getLsbD i = true} 4 ∧
      (busRead (fun _ => csWidth8) (afterWrite (fun _ => csWidth8) (fun _ _ => 0xff) wideMask
        noTrouble) wideMask noTrouble).data ≠
        [(wideMask.data.load 0 1 &&& wideMask.mask.toNat >>> 4) % 2 ^ 8] := by
  have hleast : IsLeast {i | wideMask.mask.getLsbD i = true} 4 := by
    constructor
    · exact (by decide : wideMask.mask.getLsbD 4 = true)
    · intro i hi
      by_contra hlt
      have hbound : i < 4 := Nat.not_le.mp hlt
      have hclear : ∀ j < 4, wideMask.mask.getLsbD j = false := by decide
      exact Bool.false_ne_true ((hclear i hbound).symm.trans hi)
  have hcheck : localbusParaCheck (fun _ => csWidth8) wideMask.opt = true := by decide
  have hwrite : (busWrite (fun _ => csWidth8) (fun _ _ => 0xff) wideMask noTrouble).ret = 0 := by
    rfl
  have hread : (busRead (fun _ => csWidth8) (afterWrite (fun _ => csWidth8) (fun _ _ => 0xff)
      wideMask noTrouble) wideMask noTrouble).ret = 0 := by rfl
  constructor
  · exact hcheck
  constructor
  · exact hwrite
  constructor
  · exact hread
  constructor
  · exact hleast
  · rw [busRead_bits (by decide) hcheck rfl hwrite hread hleast]
    decide

end HiMpu.LocalBus
